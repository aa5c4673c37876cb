import LastOfC.Kernel.Invalidas

/-!
# `THREAD_CANCEL`

The packet has two tids: `TID` is the caller, and `tid` the thread that it wants to end.

* `Cancela ent k d`: the handler ends the thread `tid`, if it lives, and spares the caller.
* `threadCancel_run`: it does what `THREAD_EXIT` of the caller does.
* `cancela_iff`: it is right only where it waits on `mutex`.
-/

namespace LastOfC.Kernel

open Imp Trace

variable {ent : Entorno} {k : Estado} {d : TThreadJoinYCancel} {c : Dir}

/-- `THREAD_CANCEL` ends its target, and not its caller. -/
structure Cancela (ent : Entorno) (k : Estado) (d : TThreadJoinYCancel) : Prop where
  /-- After the lock of the search, `finalizar_hilo` runs on the target. -/
  objetivo : ∀ h, k.buscarTcbs d.tid d.PID = some h → (k.tcbs h).estadoHilo ≠ .exit →
    (threadCancel ent d).run k = (conMutex (pure ()) >>= fun _ => finalizarHilo ent h).run k
  nada : k.terminado (k.buscarTcbs d.tid d.PID) = true → k.Intacto (final (threadCancel ent d) k)
  /-- The caller does not get into `lista_exit`. -/
  llamador : ∀ c, k.buscarTcbs d.TID d.PID = some c →
    (final (threadCancel ent d) k).listaExit.count c = k.listaExit.count c

theorem threadCancel_espera (ent : Entorno) (d : TThreadJoinYCancel) (hk : k.mutex = 0) :
    (threadCancel ent d).run k = .error .espera k :=
  bind_error (conMutex_espera _ hk)

/-- A handler that waits has ended nobody. -/
theorem cancela_espera (ent : Entorno) (d : TThreadJoinYCancel) (hk : k.mutex = 0) :
    Cancela ent k d := by
  have hrun := threadCancel_espera ent d hk
  refine ⟨fun h _ _ => ?_, fun _ => ?_, fun c _ => ?_⟩
  · rw [hrun, bind_error (conMutex_espera _ hk)]
  · rw [final_of_error hrun]
    exact .refl k
  · rw [final_of_error hrun]

/-- `THREAD_CANCEL` of a caller that lives is its `THREAD_EXIT`. -/
theorem threadCancel_run (hc : k.buscarTcbs d.TID d.PID = some c)
    (hestado : (k.tcbs c).estadoHilo ≠ .exit) :
    (threadCancel ent d).run k = (threadExit ent { pidInv := d.PID, tidInv := d.TID }).run k := by
  rcases Nat.eq_zero_or_pos k.mutex with hcero | hpos
  · rw [threadCancel_espera ent d hcero]
    exact (bind_error (conMutex_espera _ hcero)).symm
  · unfold threadCancel threadExit
    rw [bind_run (buscarTcbs_run hpos), bind_run (buscarTcbs_run hpos), hc]
    show (leer (·.tcbs c) >>= _).run k.trasCerrojo = (finalizarHilo ent c).run k.trasCerrojo
    have hestado' : (k.trasCerrojo.tcbs c).estadoHilo ≠ .exit := hestado
    rw [bind_run (leer_run _), if_neg hestado']

/-- The caller gets into `lista_exit`. -/
theorem threadCancel_listaExit (hk : 0 < k.mutex) (hc : k.buscarTcbs d.TID d.PID = some c)
    (hestado : (k.tcbs c).estadoHilo ≠ .exit) :
    (final (threadCancel ent d) k).listaExit = k.listaExit ++ [c] := by
  have hfin : final (threadCancel ent d) k = final (finalizarHilo ent c) k.trasCerrojo := by
    rw [final, threadCancel_run hc hestado, threadExit, bind_run (buscarTcbs_run hk)]
    simp only [hc]
    rfl
  have hpos : 0 < k.trasCerrojo.mutex := hk
  rw [hfin, finalizarHilo_listaExit ent c hpos]
  rfl

theorem terminado_eq_false {o : Option Dir} :
    k.terminado o = false ↔ ∃ h, o = some h ∧ (k.tcbs h).estadoHilo ≠ .exit := by
  cases o with
  | none => simp [Estado.terminado]
  | some h => simp [Estado.terminado]

theorem no_cancela (hk : 0 < k.mutex)
    (hvivo : k.terminado (k.buscarTcbs d.TID d.PID) = false) : ¬ Cancela ent k d := by
  intro h
  obtain ⟨c, hc, hestado⟩ := terminado_eq_false.mp hvivo
  have hcount := h.llamador c hc
  rw [threadCancel_listaExit hk hc hestado, List.count_append, List.count_singleton_self] at hcount
  omega

/-- **`THREAD_CANCEL` ends its caller.** For a caller that lives, the handler ends its target and
spares the caller if and only if it does not get past the wait on `mutex`. -/
theorem cancela_iff (hc : k.terminado (k.buscarTcbs d.TID d.PID) = false) :
    Cancela ent k d ↔ k.mutex = 0 := by
  refine ⟨fun h => ?_, cancela_espera ent d⟩
  by_contra hk
  exact no_cancela (Nat.pos_of_ne_zero hk) hc h

/-- The main thread of the first process lives after the start, with the semaphore `mutex` at 3. -/
theorem arranque_vivo : ∃ k, Reaches (paso entornoFifo) estadoCero arranque k ∧
    k.mutex = 3 ∧ k.terminado (k.buscarTcbs 0 1) = false := by
  have hrun : (run (paso entornoFifo) estadoCero arranque).toOption.map (fun r =>
      (r.1.mutex, r.1.terminado (r.1.buscarTcbs 0 1))) = some (3, false) := by
    decide +kernel
  obtain ⟨k, hk, hg⟩ := reaches_of_map (g := fun k : Estado =>
    (k.mutex, k.terminado (k.buscarTcbs 0 1))) hrun
  rw [Prod.mk.injEq] at hg
  exact ⟨k, hk, hg⟩

/-- It cancels a thread 1 that does not exist. -/
theorem cancela_principal : ∃ k, Reaches (paso entornoFifo) estadoCero arranque k ∧
    (Cancela entornoFifo k ⟨1, 0, 1⟩ ↔ k.mutex = 0) := by
  obtain ⟨k, hk, -, hvivo⟩ := arranque_vivo
  exact ⟨k, hk, cancela_iff (d := ⟨1, 0, 1⟩) hvivo⟩

/-! ## The failing input -/

/-- The main thread ends itself, where it should have gone on. -/
theorem cancela_llamador : ¬ ∀ k d, (∃ ps, Reaches (paso entornoFifo) estadoCero ps k) →
    k.terminado (k.buscarTcbs d.TID d.PID) = false → d.tid ≠ d.TID →
      Cancela entornoFifo k d := by
  intro hall
  obtain ⟨k, hk, hmutex, hvivo⟩ := arranque_vivo
  have hpos : 0 < k.mutex := by omega
  exact no_cancela hpos hvivo (hall k ⟨1, 0, 1⟩ ⟨_, hk⟩ hvivo (by decide))

end LastOfC.Kernel
