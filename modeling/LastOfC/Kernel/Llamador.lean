import LastOfC.Kernel.Envios

/-!
# The caller of a syscall

The CPU stops after each syscall, so the thread that called has to get back into `lista_ready` or
be sent to the CPU again. `vueltas` is how often a syscall puts a thread into `lista_ready`, and
`llamador_vuelve_iff` the exact condition: of the syscalls that neither block nor end their caller,
only `THREAD_JOIN` of a finished thread gives it back.

`THREAD_CANCEL` ends its own caller (`threadCancel` looks up `TID`, not `tid`). A caller that also
stands in `lista_blocked` is then woken by its own end: `despertares` counts that.
-/

namespace LastOfC.Kernel

open Planificacion Trace

variable {ent : Entorno} {k k' : Estado}

/-! ## How often a thread is woken -/

/-- How often the end of `h` wakes `t`. After the first time `t` waits for the tid `-1`. -/
def Estado.despertares (k : Estado) (h t : Dir) : Nat :=
  if k.espera h t then
    if (k.tcbs h).tid = sinHilo then k.listaBlocked.count t else min 1 (k.listaBlocked.count t)
  else 0

/-- A thread that woke waits for `h` again only if the tid of `h` is `-1`. -/
theorem despertar_espera_self {i : Nat} {h b : Dir} (hb : k.espera h b) :
    (k.despertar i b).espera h b ↔ (k.tcbs h).tid = sinHilo := by
  have hnuevo : ((k.despertar i b).tcbs b).tidQueLoBloqueo = sinHilo := by
    simp [Estado.despertar, Estado.modTcb]
  unfold Estado.espera
  rw [(despertar_pid i b b).1, (despertar_pid i b h).1, (despertar_pid i b h).2, hnuevo]
  exact ⟨fun hesp => hesp.2.symm, fun htid => ⟨hb.1, htid.symm⟩⟩

theorem despertar_count {i : Nat} {b : Dir} (hi : k.listaBlocked[i]? = some b) (t : Dir) :
    (k.despertar i b).listaBlocked.count t + (if b = t then 1 else 0) = k.listaBlocked.count t := by
  obtain ⟨hlt, hget⟩ := List.getElem?_eq_some_iff.mp hi
  have hperm : (b :: k.listaBlocked.eraseIdx i).Perm k.listaBlocked := by
    rw [← hget]
    exact List.getElem_cons_eraseIdx_perm hlt
  rw [← hperm.count_eq t]
  by_cases hbt : b = t
  · subst hbt
    simp [Estado.despertar]
  · simp [Estado.despertar, hbt]

theorem Despierta.count {h t : Dir} {bs : List Dir} (hd : Despierta h k bs k')
    (hnadie : ∀ b ∈ k'.listaBlocked, ¬ k'.espera h b) : bs.count t = k.despertares h t := by
  induction hd with
  | nadie k =>
    unfold Estado.despertares
    by_cases hesp : k.espera h t
    · have hcero := List.count_eq_zero_of_not_mem fun ht => hnadie t ht hesp
      simp [hesp, hcero]
    · simp [hesp]
  | @uno k k' i b bs hi hb hs ih =>
    have hcount := despertar_count hi t
    have htid := (despertar_pid (k := k) i b h).2
    rw [List.count_cons, ih hnadie]
    unfold Estado.despertares
    by_cases hbt : b = t
    · -- The thread wakes now: the rest wakes it again only under the tid `-1`.
      subst hbt
      rw [htid]
      simp only [despertar_espera_self hb, hb, if_true, beq_self_eq_true] at hcount ⊢
      by_cases hmenos : (k.tcbs h).tid = sinHilo
      · simp only [hmenos, if_true]
        omega
      · simp only [hmenos, if_false]
        omega
    · have hne : t ≠ b := Ne.symm hbt
      simp only [hbt, if_false, Nat.add_zero] at hcount
      rw [htid, hcount]
      simp only [despertar_espera hne, beq_iff_eq, hbt, if_false, Nat.add_zero]

/-- A thread whose process is unknown wakes nobody. -/
def Estado.despertaresFin (k : Estado) (h t : Dir) : Nat :=
  if k.buscarProceso (k.tcbs h).pid = none then 0 else k.despertares h t

theorem finalizarHilo_count {h : Dir} (hr : (finalizarHilo ent h).run k = .ok () k') (t : Dir) :
    k'.listaReady.count t = k.listaReady.count t + k.despertaresFin h t := by
  unfold Estado.despertaresFin
  rcases finalizarHilo_ok hr with ⟨hno, m, vs, rfl⟩ | ⟨bs, hf⟩
  · rw [if_pos hno]
    rfl
  · have hready := hf.termina.ready
    obtain ⟨p, ms, tids, k₁, m, vs, hp, -, hdes, hnadie, -, -⟩ := hf
    have hsome : k.buscarProceso (k.tcbs h).pid ≠ none := by
      rw [hp]
      exact Option.some_ne_none p
    have htid : ((k.terminarHilo h p ms tids).tcbs h).tid = (k.tcbs h).tid := by
      simp [Estado.terminarHilo, Estado.modPcb, Estado.agregarExit, Estado.setEstado, Estado.modTcb]
    have hdesp : (k.terminarHilo h p ms tids).despertares h t = k.despertares h t := by
      unfold Estado.despertares
      simp only [terminarHilo_espera, htid]
      rfl
    rw [if_neg hsome, hready, List.count_append, hdes.count hnadie, hdesp]

/-! ## The caller -/

/-- The thread `t` is live, and has the CPU. -/
structure Estado.EnEjecucion (k : Estado) (t : Dir) : Prop where
  existe : t ∈ k.listaTcbs
  vivo : t ∉ k.liberados
  exec : (k.tcbs t).estadoHilo = .exec
  cola : t ∈ k.colaExec

/-- The syscalls of the thread `t` that neither block nor end it. -/
def Estado.Clase (k : Estado) (t : Dir) : Syscall → Prop
  | .processCreate d => d.PID = (k.tcbs t).pid ∧ d.TID = (k.tcbs t).tid
  | .threadCreate d => d.PID = (k.tcbs t).pid ∧ d.TID = (k.tcbs t).tid
  | .mutexCreate d => d.PID = (k.tcbs t).pid ∧ d.TID = (k.tcbs t).tid
  | .mutexLock d =>
    (d.PID = (k.tcbs t).pid ∧ d.TID = (k.tcbs t).tid) ∧
      ∃ l, k.mutexDe d = some l ∧ l.tid = sinHilo
  | .mutexUnlock d => d.PID = (k.tcbs t).pid ∧ d.TID = (k.tcbs t).tid
  | .threadCancel d =>
    (d.PID = (k.tcbs t).pid ∧ d.TID = (k.tcbs t).tid) ∧ d.tid ≠ (k.tcbs t).tid
  | .threadJoin d =>
    (d.PID = (k.tcbs t).pid ∧ d.TID = (k.tcbs t).tid) ∧
      k.terminado (k.buscarTcbs d.tid d.PID) = true
  | .processExit _ | .threadExit _ | .dumpMemory _ | .io _ => False

/-- The thread `t` has the CPU, and calls. -/
structure Estado.Llama (k : Estado) (t : Dir) (y : Syscall) : Prop where
  ejecuta : k.EnEjecucion t
  clase : k.Clase t y

/-- The thread is in `lista_ready` once, or was sent to the CPU again. -/
def Vuelve (k k' : Estado) (o : List Paquete) (t : Dir) : Prop :=
  k'.listaReady.count t = 1 ∨ .recibirTid (k.tcbs t).pid (k.tcbs t).tid ∈ o

/-- How often a movement of such a syscall puts `t` into `lista_ready`: as the thread that it
queues, or as one that wakes. -/
def Estado.vueltasDe (k : Estado) (t : Dir) : Movimiento → Nat
  | .encola h => if h = t then 1 else 0
  | .termina hs _ => (hs.map (k.despertaresFin · t)).sum
  | _ => 0

def Estado.vueltas (ent : Entorno) (k : Estado) (t : Dir) (y : Syscall) : Nat :=
  k.vueltasDe t (k.movSyscall ent y)

/-- The movements that neither block nor end a thread. -/
def Movimiento.Quieto (m : Movimiento) : Prop := m = .nada ∨ m = .nace ∨ ∃ h, m = .encola h

theorem quieto_count {m : Movimiento} (h : k.plani.Mueve m k'.plani) (hm : m.Quieto) (t : Dir) :
    k'.listaReady.count t = k.listaReady.count t + k.vueltasDe t m := by
  show k'.plani.ready.count t = k.plani.ready.count t + k.vueltasDe t m
  rcases hm with rfl | rfl | ⟨a, rfl⟩
  · generalize k'.plani = s' at h
    cases h
    rfl
  · generalize k'.plani = s' at h
    cases h
    rfl
  · generalize k'.plani = s' at h
    cases h
    simp only [List.count_append, List.count_singleton, Estado.vueltasDe, beq_iff_eq]

theorem quieto_movDe {o : Option Dir} : (movDe .encola o).Quieto := by
  cases o with
  | none => exact .inl rfl
  | some h => exact .inr (.inr ⟨h, rfl⟩)

/-- A syscall of these kinds makes a quiet movement, but for `THREAD_CANCEL`. -/
theorem Estado.Clase.quieto {t : Dir} {y : Syscall} (hy : k.Clase t y)
    (hno : ∀ d, y ≠ .threadCancel d) : (k.movSyscall ent y).Quieto := by
  cases y with
  | processCreate d => exact .inl rfl
  | threadCreate d =>
    simp only [Estado.movSyscall]
    split
    · exact .inl rfl
    · exact .inr (.inl rfl)
  | threadJoin d =>
    simp only [Estado.movSyscall, hy.2, if_true]
    exact quieto_movDe
  | threadCancel d => exact absurd rfl (hno d)
  | mutexCreate d => exact .inl rfl
  | mutexLock d =>
    obtain ⟨-, l, hl, hlibre⟩ := hy
    simp only [Estado.movSyscall, hl, hlibre, if_true]
    exact .inl rfl
  | mutexUnlock d =>
    simp only [Estado.movSyscall]
    split
    · exact .inl rfl
    · split
      · exact quieto_movDe
      · exact .inl rfl
  | _ => exact hy.elim

theorem threadCancel_count {d : TThreadJoinYCancel} (hr : (threadCancel ent d).run k = .ok () k')
    (t : Dir) :
    k'.listaReady.count t = k.listaReady.count t + k.vueltas ent t (.threadCancel d) := by
  rcases threadCancel_ok hr with ⟨hter, m, vs, rfl⟩ | ⟨h, m, vs, hbus, hvivo, hfin⟩
  · simp only [Estado.vueltas, Estado.movSyscall, hter, if_true]
    rfl
  · have hter : k.terminado (some h) = false := decide_eq_false hvivo
    have hcount := finalizarHilo_count (k := k.conCerrojo m vs) hfin t
    simp only [Estado.vueltas, Estado.movSyscall, hbus, hter, Bool.false_eq_true, if_false,
      Estado.movFinHilo, Estado.vueltasDe, List.map_cons, List.map_nil, List.sum_cons,
      List.sum_nil, Nat.add_zero]
    exact hcount

/-- **A caller comes back** exactly when the syscall puts it into `lista_ready` and it was not
there, or it was there once and the syscall does not. No syscall sends `RECIBIR_TID`. -/
theorem llamador_vuelve_iff {t : Dir} {y : Syscall} {o : List Paquete} (hy : k.Llama t y)
    (h : paso ent k (.syscall y) = .ok (k', o)) :
    Vuelve k k' o t ↔ k.listaReady.count t + k.vueltas ent t y = 1 := by
  have hr := paso_ok h
  have hno : .recibirTid (k.tcbs t).pid (k.tcbs t).tid ∉ o := fun hq =>
    (syscall_sin_recibirTid hr).de_paso h _ hq trivial
  have hcount : k'.listaReady.count t = k.listaReady.count t + k.vueltas ent t y := by
    by_cases hcancel : ∃ d, y = .threadCancel d
    · obtain ⟨d, rfl⟩ := hcancel
      exact threadCancel_count hr t
    · have hquieto : (k.movSyscall ent y).Quieto := hy.clase.quieto fun d hd => hcancel ⟨d, hd⟩
      exact quieto_count (syscall_mueve hr) hquieto t
  unfold Vuelve
  rw [hcount]
  exact ⟨fun hv => hv.resolve_right hno, .inl⟩

/-! ## The first process creates another one -/

/-- The main thread of the first process calls `PROCESS_CREATE`. -/
def creaProceso : Syscall := .processCreate ⟨1, 0, ['b'], 32, 0⟩

/-- The thread has the CPU, the kernel handles the packet, and `lista_ready` is empty. -/
theorem creaProceso_paso : ∃ k k' o, Reaches (paso entornoFifo) estadoCero arranque k ∧
    k.Llama 3 creaProceso ∧ paso entornoFifo k (.syscall creaProceso) = .ok (k', o) ∧
    k'.listaReady = [] ∧ o = [] := by
  have hrun : (run (paso entornoFifo) estadoCero arranque).toOption.map (fun r =>
      ((r.1.listaTcbs, r.1.liberados, r.1.colaExec, r.1.tcbs 3),
        (paso entornoFifo r.1 (.syscall creaProceso)).toOption.map fun r' =>
          (r'.1.listaReady, r'.2))) =
      some (([3], [], [3], ⟨1, 0, sinHilo, 0, ['a'], .exec⟩), some ([], [])) := by
    decide +kernel
  obtain ⟨k, hk, hg⟩ := reaches_of_map (g := fun k : Estado =>
    ((k.listaTcbs, k.liberados, k.colaExec, k.tcbs 3),
      (paso entornoFifo k (.syscall creaProceso)).toOption.map fun r' =>
        (r'.1.listaReady, r'.2))) hrun
  obtain ⟨hestado, hpaso⟩ := Prod.mk.inj hg
  simp only [Prod.mk.injEq] at hestado
  obtain ⟨htcbs, hlib, hexec, htcb⟩ := hestado
  have hllama : k.Llama 3 creaProceso := by
    refine ⟨⟨?_, ?_, ?_, ?_⟩, ?_⟩
    · simp [htcbs]
    · simp [hlib]
    · rw [htcb]
    · simp [hexec]
    · simp [Estado.Clase, creaProceso, htcb]
  cases hp : paso entornoFifo k (.syscall creaProceso) with
  | error f =>
    rw [hp] at hpaso
    cases hpaso
  | ok r =>
    rw [hp] at hpaso
    obtain ⟨hready, ho⟩ := Prod.mk.inj (Option.some.inj hpaso)
    exact ⟨k, r.1, r.2, hk, hllama, hp, hready, ho⟩

theorem llamador_vuelve_creaProceso : ∃ k k' o,
    Reaches (paso entornoFifo) estadoCero arranque k ∧
      paso entornoFifo k (.syscall creaProceso) = .ok (k', o) ∧
      (Vuelve k k' o 3 ↔ k.listaReady.count 3 + k.vueltas entornoFifo 3 creaProceso = 1) := by
  obtain ⟨k, k', o, hk, hllama, hp, -⟩ := creaProceso_paso
  exact ⟨k, k', o, hk, hp, llamador_vuelve_iff hllama hp⟩

/-- The thread that called is in no list but `cola_exec`, and nobody sends it to the CPU. -/
theorem llamador_perdido : ∃ k k' o, Reaches (paso entornoFifo) estadoCero arranque k ∧
    k.Llama 3 creaProceso ∧ paso entornoFifo k (.syscall creaProceso) = .ok (k', o) ∧
    ¬ Vuelve k k' o 3 := by
  obtain ⟨k, k', o, hk, hllama, hp, hready, ho⟩ := creaProceso_paso
  refine ⟨k, k', o, hk, hllama, hp, ?_⟩
  unfold Vuelve
  rw [hready, ho]
  simp

end LastOfC.Kernel
