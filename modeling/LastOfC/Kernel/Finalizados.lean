import LastOfC.Kernel.Envios

/-!
# Finished threads

`finalizar_hilo` puts a thread into `lista_exit`, and takes it out of no other list. A finished
thread stays out of `lista_ready` and `lista_blocked`, and is never dispatched, exactly when each
thread that ends stood in neither list, and no step queues or blocks a thread of `lista_exit`
(`nunca_despachado_iff`).
-/

namespace LastOfC.Kernel

open Planificacion Trace

namespace Planificacion

variable {s s' : Planificacion} {m : Movimiento}

/-- No finished thread is ready or blocked. -/
def Apartados (s : Planificacion) : Prop := ∀ h ∈ s.exit, h ∉ s.ready ∧ h ∉ s.blocked

/-- The movement queues no finished thread, and ends no thread that is ready or blocked. -/
def Respeta (s : Planificacion) : Movimiento → Prop
  | .admite h => ∀ d, h = some d → d ∉ s.exit
  | .encola h | .bloquea h | .duerme h => h ∉ s.exit
  | .termina hs _ => ∀ h ∈ hs, h ∉ s.ready ∧ h ∉ s.blocked
  | .nada | .nace | .despacha | .gira => True

theorem Mueve.respeta (h : s.Mueve m s') (hs' : s'.Apartados) : s.Respeta m := by
  cases h with
  | admite a =>
    rintro d rfl hd
    exact (hs' d hd).1 (List.mem_append_right _ (List.mem_singleton_self d))
  | encola a =>
    intro ha
    exact (hs' a ha).1 (List.mem_append_right _ (List.mem_singleton_self a))
  | bloquea a =>
    intro ha
    exact (hs' a ha).2 (List.mem_append_right _ (List.mem_singleton_self a))
  | duerme a =>
    intro ha
    exact (hs' a ha).1 (List.mem_append_right _ (List.mem_singleton_self a))
  | @termina hs terminados despiertan blocked liberados hayEspera estado n hhs hperm =>
    intro a ha
    have hfin := hs' a (List.mem_append_right _ ((hhs a).mpr ha))
    refine ⟨fun hready => hfin.1 (List.mem_append_left _ hready), fun hbl => ?_⟩
    -- A blocked thread wakes, and is ready, or stays blocked.
    rcases List.mem_append.mp (hperm.mem_iff.mpr hbl) with hdes | hsigue
    · exact hfin.1 (List.mem_append_right _ hdes)
    · exact hfin.2 hsigue
  | _ => trivial

theorem Mueve.apartados (h : s.Mueve m s') (hs : s.Apartados) (hm : s.Respeta m) :
    s'.Apartados := by
  intro d hd
  cases h with
  | admite a =>
    have hd' := hs d hd
    refine ⟨fun hready => ?_, hd'.2⟩
    rcases List.mem_append.mp hready with hready | hnuevo
    · exact hd'.1 hready
    · exact hm d (Option.mem_toList.mp hnuevo) hd
  | encola a =>
    have hd' := hs d hd
    refine ⟨fun hready => ?_, hd'.2⟩
    rcases List.mem_append.mp hready with hready | hnuevo
    · exact hd'.1 hready
    · exact hm (List.mem_singleton.mp hnuevo ▸ hd)
  | bloquea a =>
    have hd' := hs d hd
    refine ⟨hd'.1, fun hbl => ?_⟩
    rcases List.mem_append.mp hbl with hbl | hnuevo
    · exact hd'.2 hbl
    · exact hm (List.mem_singleton.mp hnuevo ▸ hd)
  | duerme a =>
    have hd' := hs d hd
    have hne : d ≠ a := fun hda => hm (hda ▸ hd)
    refine ⟨fun hready => ?_, fun hbl => ?_⟩
    · rcases List.mem_append.mp hready with hready | hnuevo
      · exact hd'.1 hready
      · exact hne (List.mem_singleton.mp hnuevo)
    · rcases List.mem_append.mp (List.mem_of_mem_erase hbl) with hbl | hnuevo
      · exact hd'.2 hbl
      · exact hne (List.mem_singleton.mp hnuevo)
  | despacha hpos hi =>
    have hd' := hs d hd
    exact ⟨fun hready => hd'.1 (List.mem_of_mem_eraseIdx hready), hd'.2⟩
  | @termina hs' terminados despiertan blocked liberados hayEspera estado n hhs hperm =>
    -- A thread that was finished before, or that ends now, is in neither list.
    have hd' : d ∉ s.ready ∧ d ∉ s.blocked := by
      rcases List.mem_append.mp hd with hd | hd
      · exact hs d hd
      · exact hm d ((hhs d).mp hd)
    refine ⟨fun hready => ?_, fun hbl => ?_⟩
    · rcases List.mem_append.mp hready with hready | hdes
      · exact hd'.1 hready
      · exact hd'.2 (hperm.mem_iff.mp (List.mem_append_left _ hdes))
    · exact hd'.2 (hperm.mem_iff.mp (List.mem_append_right _ hbl))
  | _ => exact hs d hd

/-- The thread that a movement puts into `exec` was ready. -/
theorem Mueve.ready_of_exec (h : s.Mueve m s') {d : Dir} (hd : s'.exec = s.exec ++ [d]) :
    d ∈ s.ready := by
  by_cases hdes : m = .despacha
  · subst hdes
    cases h with
    | @despacha i a hpos hi =>
      have hda : a = d := by simpa using hd
      exact hda ▸ List.mem_of_getElem? hi
  · rw [h.exec_of_ne hdes] at hd
    simp at hd

end Planificacion

variable {ent : Entorno} {tcbs : Dir → TCB} {pcbs : Dir → PCB} {uint32s : Dir → Uint32}

/-- The step moves `h` to `lista_ready`, or puts it into `cola_exec`, as it does with the thread of
a `RECIBIR_TID` and no other (`paso_recibirTid`). -/
def Relanza (ent : Entorno) (k : Estado) (p : Paso) (h : Dir) : Prop :=
  ∃ k' o, paso ent k p = .ok (k', o) ∧
    (k.listaReady.count h < k'.listaReady.count h ∨ k'.colaExec = k.colaExec ++ [h])

theorem no_relanza {k : Estado} {p : Paso} (hk : k.plani.Apartados)
    (hp : k.plani.Respeta (k.movimiento ent p)) :
    ∀ h ∈ k.listaExit, ¬ Relanza ent k p h := by
  rintro h hh ⟨k', o, hpaso, hready | hexec⟩
  · have hmueve := paso_mueve hpaso
    have hfuera : h ∉ k'.listaReady := (hmueve.apartados hk hp h (hmueve.exit_subset hh)).1
    rw [List.count_eq_zero_of_not_mem hfuera] at hready
    exact Nat.not_lt_zero _ hready
  · exact (hk h hh).1 ((paso_mueve hpaso).ready_of_exec hexec)

/-- **A finished thread is never dispatched** along a run exactly when no step ends a thread that
is ready or blocked, and no step queues or blocks a finished one. -/
theorem nunca_despachado_iff (ps : List Paso) :
    (EveryState (paso ent) (estadoInicial tcbs pcbs uint32s) ps (fun _ k => k.plani.Apartados) ∧
        EveryStep (paso ent) (estadoInicial tcbs pcbs uint32s) ps
          fun _ k p => ∀ h ∈ k.listaExit, ¬ Relanza ent k p h) ↔
      EveryStep (paso ent) (estadoInicial tcbs pcbs uint32s) ps
        fun _ k p => k.plani.Respeta (k.movimiento ent p) := by
  have hestados : EveryState (paso ent) (estadoInicial tcbs pcbs uint32s) ps
      (fun _ k => k.plani.Apartados) ↔ EveryStep (paso ent) (estadoInicial tcbs pcbs uint32s) ps
        fun _ k p => k.plani.Respeta (k.movimiento ent p) := by
    refine everyState_plani_iff (I := Apartados) (C := Respeta) ?_ (fun _ h => h) ?_ ?_
    · exact fun h hh => absurd hh List.not_mem_nil
    · exact fun s m s' hs hm h => h.apartados hs hm
    · exact fun s m s' _ h hs' => h.respeta hs'
  constructor
  · exact fun h => hestados.mp h.1
  · intro h
    have hap := hestados.mpr h
    exact ⟨hap, h.mono hap fun _ k p _ hk hp => no_relanza hk hp⟩

/-- A process ends while its second thread is ready. -/
theorem finalizado_listo : ¬ EveryState (paso entornoFifo) estadoCero
    (arranque ++ segundoHilo ++ [.syscall (.processExit ⟨1, 0⟩)]) fun _ k => k.plani.Apartados := by
  intro h
  have hrun : (run (paso entornoFifo) estadoCero
      (arranque ++ segundoHilo ++ [.syscall (.processExit ⟨1, 0⟩)])
      ).toOption.map (fun r => (r.1.listaReady, r.1.listaExit)) = some ([5], [3, 5]) := by
    decide +kernel
  obtain ⟨k, hk, hl⟩ := reaches_of_map (g := fun k : Estado => (k.listaReady, k.listaExit)) hrun
  obtain ⟨hready, hexit⟩ := Prod.mk.inj hl
  have h5 : 5 ∈ k.listaExit := by
    rw [hexit]
    decide
  have hfuera : 5 ∉ k.listaReady := (h _ k (List.prefix_refl _) hk 5 h5).1
  rw [hready] at hfuera
  exact hfuera (by decide)

end LastOfC.Kernel
