import LastOfC.Kernel.Pasos

/-!
# The semaphore of the scheduler, and the CPU

`TCBaPlanificar` should count the threads in `lista_ready`, and `cola_exec` should hold one thread
at most. Each law is exact in the movements of a run.

* `semaforo_cuenta_iff`: only a confirmation of memoria posts the semaphore. It stops counting when
  a thread gets into `lista_ready` in any other way, and when the confirmed thread is unknown.
* `una_cpu_iff`: nothing takes a thread out of `cola_exec`, so only the first dispatch of a run
  finds it empty.
-/

namespace LastOfC.Kernel

open Planificacion Trace

variable {ent : Entorno} {tcbs : Dir → TCB} {pcbs : Dir → PCB} {uint32s : Dir → Uint32}

/-! ## The semaphore -/

namespace Planificacion

variable {s s' : Planificacion} {m : Movimiento}

/-- The semaphore counts the ready threads. Then the scheduler does not wait while there is one,
and finds one when it goes on. -/
structure CuentaListos (s : Planificacion) : Prop where
  cuenta : s.semaforo = s.ready.length
  noEspera : s.semaforo = 0 → s.ready = []
  noVacia : 0 < s.semaforo → s.ready ≠ []

theorem cuentaListos_iff : s.CuentaListos ↔ s.semaforo = s.ready.length := by
  constructor
  · exact CuentaListos.cuenta
  · intro h
    refine ⟨h, fun h0 => ?_, fun hpos hno => ?_⟩
    · rw [h] at h0
      exact List.length_eq_zero_iff.mp h0
    · rw [h, hno] at hpos
      exact absurd hpos (Nat.lt_irrefl 0)

/-- As many posts as threads that get into `ready`, and as many waits as threads taken out. -/
def Parejo : Movimiento → Prop
  | .admite h => h ≠ none
  | .encola _ | .duerme _ | .gira => False
  | .termina _ hayEspera => hayEspera = false
  | .nada | .nace | .bloquea _ | .despacha => True

theorem Mueve.cuentaListos_iff (h : s.Mueve m s') (hs : s.semaforo = s.ready.length) :
    s'.semaforo = s'.ready.length ↔ Parejo m := by
  cases h with
  | nada hn => simpa [Parejo] using hs
  | nace hh hn => simpa [Parejo, conEstado] using hs
  | admite h =>
    cases h with
    | none => simp [Parejo, hs]
    | some d => simp [Parejo, hs]
  | encola h => simp [Parejo, conEstado, hs]
  | bloquea h => simpa [Parejo, conEstado] using hs
  | duerme h => simp [Parejo, conEstado, hs]
  | @despacha i h hpos hi =>
    have hlt := (List.getElem?_eq_some_iff.mp hi).1
    have hlen := List.length_eraseIdx_of_lt hlt
    simp only [Parejo, iff_true]
    rw [hlen, hs]
  | gira hpos =>
    simp only [Parejo, iff_false]
    omega
  | @termina _ _ despiertan _ _ hayEspera _ _ hhs hperm hespera =>
    have hcero : despiertan.length = 0 ↔ hayEspera = false := by
      rw [List.length_eq_zero_iff, ← Bool.not_eq_true, ← hespera, not_not]
    simp only [Parejo, List.length_append, ← hcero]
    omega

end Planificacion

/-- `TCBaPlanificar` counts `lista_ready` along a run exactly when no thread gets into the list but
by the confirmation of a known thread: no `THREAD_JOIN` of a finished thread, no hand-off of a
mutex, no `IO`, no end of a thread that another waits for. -/
theorem semaforo_cuenta_iff (ps : List Paso) :
    EveryState (paso ent) (estadoInicial tcbs pcbs uint32s) ps (fun _ k => k.plani.CuentaListos) ↔
      EveryStep (paso ent) (estadoInicial tcbs pcbs uint32s) ps
        fun _ k p => Parejo (k.movimiento ent p) := by
  refine everyState_plani_iff (I := CuentaListos) (C := fun _ m => Parejo m) ?_ (fun _ h => h) ?_ ?_
  · exact cuentaListos_iff.mpr rfl
  · intro s m s' hs hm h
    exact cuentaListos_iff.mpr ((h.cuentaListos_iff hs.cuenta).mpr hm)
  · intro s m s' hs h hs'
    exact (h.cuentaListos_iff hs.cuenta).mp hs'.cuenta

/-- The main thread does an `IO`, and is ready with the semaphore at 0. -/
theorem semaforo_io : ¬ EveryState (paso entornoFifo) estadoCero
    (arranque ++ [.syscall (.io ⟨1, 0, 5⟩)]) fun _ k => k.plani.CuentaListos := by
  intro h
  have hrun : (run (paso entornoFifo) estadoCero (arranque ++ [.syscall (.io ⟨1, 0, 5⟩)])
      ).toOption.map (fun r => (r.1.tcbAPlanificar, r.1.listaReady)) = some (0, [3]) := by
    decide
  obtain ⟨k, hk, hl⟩ :=
    reaches_of_map (g := fun k : Estado => (k.tcbAPlanificar, k.listaReady)) hrun
  obtain ⟨hsem, hready⟩ := Prod.mk.inj hl
  have hcuenta : k.tcbAPlanificar = k.listaReady.length :=
    (h _ k (List.prefix_refl _) hk).cuenta
  rw [hsem, hready] at hcuenta
  cases hcuenta

/-! ## The CPU -/

namespace Planificacion

variable {s s' : Planificacion} {m : Movimiento}

/-- The thread exists, and its state is EXEC. -/
def Ejecuta (s : Planificacion) (h : Dir) : Prop :=
  h ∈ s.hilos ∧ h ∉ s.liberados ∧ s.estado h = .exec

/-- One thread at most has the CPU. -/
structure UnaCpu (s : Planificacion) : Prop where
  cola : s.exec.length ≤ 1
  unico : ∀ a b, s.Ejecuta a → s.Ejecuta b → a = b

/-- What a run keeps: the threads that are EXEC stand in `cola_exec`. -/
structure EnCola (s : Planificacion) : Prop where
  cola : s.exec.length ≤ 1
  ejecuta : ∀ h, s.Ejecuta h → h ∈ s.exec
  acotada : s.Acotada

theorem EnCola.unaCpu (hs : s.EnCola) : s.UnaCpu where
  cola := hs.cola
  unico a b ha hb := by
    have ha' := hs.ejecuta a ha
    have hb' := hs.ejecuta b hb
    match hexec : s.exec, hs.cola with
    | [], _ => simp [hexec] at ha'
    | [c], _ =>
      rw [hexec, List.mem_singleton] at ha' hb'
      rw [ha', hb']

/-- The thread that is dispatched finds the CPU free. -/
def CpuLibre (s : Planificacion) (m : Movimiento) : Prop := m = .despacha → s.exec = []

/-- A thread that gets a state other than EXEC does not execute, and the others as before. -/
theorem ejecuta_conEstado {h d : Dir} {e : EstadoProcesoHilo} (he : e ≠ .exec)
    (hd : (s.conEstado h e).Ejecuta d) : s.Ejecuta d := by
  obtain ⟨hmem, hlib, hest⟩ := hd
  by_cases hdh : d = h
  · subst hdh
    exact absurd (by simpa using hest) he
  · exact ⟨hmem, hlib, by simpa [hdh] using hest⟩

/-- Only a dispatch makes a thread execute. -/
theorem Mueve.ejecuta (h : s.Mueve m s') (hm : m ≠ .despacha) {d : Dir} (hd : s'.Ejecuta d) :
    s.Ejecuta d := by
  cases h with
  | @nace a n hh hn =>
    obtain ⟨hmem, hlib, hest⟩ := hd
    by_cases hda : d = a
    · subst hda
      simp at hest
    · exact ⟨by simpa [hda] using hmem, hlib, by simpa [hda] using hest⟩
  | encola a => exact ejecuta_conEstado (h := a) (e := .ready) (by simp) hd
  | bloquea a => exact ejecuta_conEstado (h := a) (e := .blocked) (by simp) hd
  | duerme a => exact ejecuta_conEstado (h := a) (e := .ready) (by simp) hd
  | despacha => exact absurd rfl hm
  | termina _ _ _ _ _ hexec hlib =>
    obtain ⟨hmem, hnolib, hest⟩ := hd
    exact ⟨hmem, fun hl => hnolib (hlib hl), hexec d hnolib hest⟩
  | _ => exact hd

theorem Mueve.enCola (h : s.Mueve m s') (hs : s.EnCola) (hm : s.CpuLibre m) : s'.EnCola := by
  have hacot := h.acotada hs.acotada
  by_cases hdes : m = .despacha
  · have hlibre := hm hdes
    subst hdes
    cases h with
    | @despacha i a hpos hi =>
      refine ⟨?_, fun d hd => ?_, hacot⟩
      · show (s.exec ++ [a]).length ≤ 1
        rw [hlibre]
        exact Nat.le_refl 1
      · show d ∈ s.exec ++ [a]
        obtain ⟨hmem, hlib, hest⟩ := hd
        by_cases hda : d = a
        · rw [hda]
          exact List.mem_append_right _ (List.mem_singleton_self a)
        · refine List.mem_append_left _ (hs.ejecuta d ⟨hmem, hlib, ?_⟩)
          simpa [hda] using hest
  · have hexec := h.exec_of_ne hdes
    refine ⟨?_, fun d hd => ?_, hacot⟩
    · rw [hexec]
      exact hs.cola
    · rw [hexec]
      exact hs.ejecuta d (h.ejecuta hdes hd)

theorem Mueve.cpuLibre (h : s.Mueve m s') (hs' : s'.exec.length ≤ 1) : s.CpuLibre m := by
  rintro rfl
  cases h with
  | despacha hpos hi =>
    have hlen : s.exec.length + 1 ≤ 1 := by simpa using hs'
    exact List.length_eq_zero_iff.mp (by omega)

end Planificacion

/-- One thread executes at a time along a run exactly when every iteration of the scheduler that
dispatches finds `cola_exec` empty. -/
theorem una_cpu_iff (ps : List Paso) :
    EveryState (paso ent) (estadoInicial tcbs pcbs uint32s) ps (fun _ k => k.plani.UnaCpu) ↔
      EveryStep (paso ent) (estadoInicial tcbs pcbs uint32s) ps
        fun _ k p => k.movimiento ent p = .despacha → k.colaExec = [] := by
  refine everyState_plani_iff (I := EnCola) (C := CpuLibre) ?_ (fun _ h => h.unaCpu) ?_ ?_
  · exact ⟨Nat.zero_le 1, fun h hh => absurd hh.1 List.not_mem_nil,
      fun h hh => absurd hh List.not_mem_nil⟩
  · exact fun s m s' hs hm h => h.enCola hs hm
  · exact fun s m s' _ h hs' => h.cpuLibre hs'.cola

/-- The main thread creates another one, which is dispatched as soon as memoria confirms it. -/
theorem dos_en_cpu : ¬ EveryState (paso entornoFifo) estadoCero
    (arranque ++ segundoHilo ++ [.cortoPlazo]) fun _ k => k.plani.UnaCpu := by
  intro h
  have hrun : (run (paso entornoFifo) estadoCero (arranque ++ segundoHilo ++ [.cortoPlazo])
      ).toOption.map (fun r => r.1.colaExec) = some [3, 5] := by
    decide
  obtain ⟨k, hk, hcola⟩ := reaches_of_map (g := Estado.colaExec) hrun
  have hlen : k.colaExec.length ≤ 1 := (h _ k (List.prefix_refl _) hk).cola
  rw [hcola] at hlen
  exact absurd hlen (by decide)

end LastOfC.Kernel
