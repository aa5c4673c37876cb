import LastOfC.Kernel.Emisores
import LastOfC.Kernel.Mutexes

/-!
# Threads that memoria confirmed

A thread gets into `lista_ready` for the first time when `CONFIRMAR_CREACION_HILO` names it. From
then on only its own syscalls, and the mutexes that it asks for, move it between the lists. So
whoever is in the lists was confirmed (`Estado.Conoce.tras_paso`), as long as syscalls come from
threads that had the CPU, and no process is closed: `finalizar_proceso` frees what the other
threads still read.
-/

namespace LastOfC.Kernel

open Imp Planificacion

variable {ent : Entorno} {k k' : Estado} {p : Paso} {o : List Paquete}
  {ids ids' : List (Uint32 × Uint32)}

/-- The threads in the lists of the scheduler, and the tids in the queues of the mutexes, are among
`ids`. -/
structure Estado.Conoce (ids : List (Uint32 × Uint32)) (k : Estado) : Prop where
  asignado : k.Asignado
  hilos : ∀ h, k.plani.Planificado h →
    h ∈ k.listaTcbs ∧ (h ∉ k.liberados → k.idDe h ∈ ids)
  colas : ∀ pid, ∀ t ∈ enEspera (k.mutexesDe pid), (pid, t) ∈ ids

/-- The syscall is a `PROCESS_CREATE`, or comes from a thread that had the CPU and was not
freed. -/
def Estado.EmiteDespachado (k : Estado) (y : Syscall) : Prop :=
  (Paso.syscall y).creaProceso = true ∨
    ∃ h ∈ k.colaExec, h ∉ k.liberados ∧ k.idDe h = (y.pid, y.tid)

instance (y : Syscall) : Decidable (k.EmiteDespachado y) :=
  inferInstanceAs (Decidable (_ ∨ ∃ h ∈ k.colaExec, _ ∧ _))

/-- A step with a syscall of a thread that had the CPU, or a confirmation of one of `ids`. -/
structure Paso.Anunciado (ids : List (Uint32 × Uint32)) (k : Estado) (p : Paso) : Prop where
  abierto : p.cierraProceso = false
  emisor : ∀ y, p = .syscall y → k.EmiteDespachado y
  confirmado : ∀ d, p = .memoria (.confirmarCreacionHilo d) → (d.pid, d.tid) ∈ ids

theorem Estado.Conoce.mono (h : k.Conoce ids) (hsub : ids ⊆ ids') : k.Conoce ids' where
  asignado := h.asignado
  hilos d hd := (h.hilos d hd).imp_right fun hid hlib => hsub (hid hlib)
  colas pid t ht := hsub (h.colas pid t ht)

/-- The caller of a syscall is one of `ids`. -/
theorem Estado.Conoce.emisor (h : k.Conoce ids) {y : Syscall} (hy : k.EmiteDespachado y)
    (hcrea : (Paso.syscall y).creaProceso = false) : (y.pid, y.tid) ∈ ids := by
  rcases hy with hno | ⟨d, hd, hlib, hid⟩
  · rw [hno] at hcrea
    cases hcrea
  · exact hid ▸ (h.hilos d (.inr (.inr hd))).2 hlib

/-- A thread that a syscall queues or blocks is one of `ids`. -/
theorem Estado.Conoce.tocado (h : k.Conoce ids) (hp : p.Anunciado ids k) {d : Dir}
    (ht : (k.movimiento ent p).toca = some d) : k.idDe d ∈ ids := by
  have hid : ∀ {t pid : Uint32}, k.buscarTcbs t pid = some d → k.idDe d = (pid, t) := fun hb =>
    Prod.ext (pid_of_buscarTcbs hb).1 (pid_of_buscarTcbs hb).2
  obtain ⟨y, rfl, hcrea, hbus | ⟨e, l, t, rfl, hl, -, hcabeza, hbus⟩⟩ := movimiento_toca ht
  · rw [hid hbus]
    exact h.emisor (hp.emisor y rfl) hcrea
  · rw [hid hbus]
    rw [mutexDe_eq] at hl
    obtain ⟨⟨i, l'⟩, hbm, rfl⟩ := Option.map_eq_some_iff.mp hl
    exact h.colas e.PID t (mem_enEspera (mem_of_buscarMutex hbm).2 (List.mem_of_mem_head? hcabeza))

theorem Estado.Conoce.tras_paso (h : k.Conoce ids) (ha : p.Anunciado ids k)
    (hp : paso ent k p = .ok (k', o)) : k'.Conoce ids := by
  have hcrea := paso_crea hp
  have hm := paso_mueve hp
  refine ⟨hcrea.asignado h.asignado, fun d hd => ?_, fun pid t ht => ?_⟩
  · -- Before the step it existed, and was one of `ids` if it is not freed.
    obtain ⟨hmem, hid⟩ : d ∈ k.listaTcbs ∧ (d ∉ k.liberados → k.idDe d ∈ ids) := by
      rcases hm.planificado hd with hd | hadm | htoca
      · exact h.hilos d hd
      · refine ⟨admitido_mem hadm, fun _ => ?_⟩
        have hmov : k.movimiento ent p = .admite (some d) := by
          cases hmv : k.movimiento ent p with
          | admite e =>
            rw [hmv] at hadm
            exact congrArg Movimiento.admite hadm
          | _ =>
            rw [hmv] at hadm
            cases hadm
        obtain ⟨c, rfl, -, hbus⟩ := admite_iff.mpr hmov
        have hide : k.idDe d = (c.pid, c.tid) :=
          Prod.ext (pid_of_buscarTcbs hbus).1 (pid_of_buscarTcbs hbus).2
        exact hide ▸ ha.confirmado c rfl
      · exact ⟨movimiento_toca_mem htoca, fun _ => h.tocado ha htoca⟩
    refine ⟨hm.hilos_subset hmem, fun hlib => ?_⟩
    rw [hcrea.idDe h.asignado hmem hlib]
    exact hid fun hno => hlib (hcrea.liberados hno)
  · rcases enEspera_paso h.asignado ha.abierto hp ht with ht | ⟨d, rfl, rfl, rfl⟩
    · exact h.colas pid t ht
    · exact h.emisor (ha.emisor _ rfl) rfl

theorem conoce_inicio (tcbs : Dir → TCB) (pcbs : Dir → PCB) (uint32s : Dir → Uint32) :
    (estadoInicial tcbs pcbs uint32s).Conoce [] where
  asignado := ⟨fun _ hd => absurd hd List.not_mem_nil, fun _ hq => absurd hq List.not_mem_nil⟩
  hilos _ hd := absurd hd (by simp [Planificado, Estado.plani, estadoInicial])
  colas pid t ht := by
    have hvacio : (estadoInicial tcbs pcbs uint32s).mutexesDe pid = [] := rfl
    rw [hvacio] at ht
    exact absurd ht List.not_mem_nil

end LastOfC.Kernel
