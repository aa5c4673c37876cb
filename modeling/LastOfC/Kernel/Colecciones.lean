import LastOfC.Kernel.Pasos

/-!
# One collection for each thread

A thread that memoria confirmed should stand once in `lista_ready`, `lista_blocked` and `cola_exec`
together, in the one that its state names. As long as no thread finishes this is so exactly when a
thread is confirmed once, before any other step moves it, and then no syscall queues, blocks or
puts it to sleep: none of them takes it out of `cola_exec` (`una_coleccion_iff`).
-/

namespace LastOfC.Kernel

open Planificacion Trace

namespace Planificacion

variable {s s' : Planificacion} {m : Movimiento} {d : Dir}

/-- The collection that a state names. -/
def coleccion (s : Planificacion) : EstadoProcesoHilo → List Dir
  | .ready => s.ready
  | .blocked => s.blocked
  | .exec => s.exec
  | .new | .exit => []

/-- How often the thread stands in the three collections. -/
def apariciones (s : Planificacion) (d : Dir) : Nat :=
  s.ready.count d + s.blocked.count d + s.exec.count d

/-- The thread stands once in the three collections, where its state says. -/
def EnUna (s : Planificacion) (d : Dir) : Prop :=
  s.apariciones d = 1 ∧ d ∈ s.coleccion (s.estado d)

/-- The thread is READY, and in no collection. -/
def SinColocar (s : Planificacion) (d : Dir) : Prop :=
  s.apariciones d = 0 ∧ s.estado d = .ready

/-- A movement that keeps the threads `A` in one collection each: it admits a thread that has no
place yet, and queues, blocks and puts to sleep no thread of `A`. -/
def Mantiene (s : Planificacion) (A : Dir → Prop) : Movimiento → Prop
  | .admite h => ∀ a, h = some a → s.SinColocar a
  | .encola h | .bloquea h | .duerme h => ¬ A h
  | .nada | .nace | .despacha | .gira | .termina _ _ => True

theorem count_concat (l : List Dir) (a d : Dir) :
    (l ++ [a]).count d = l.count d + if a = d then 1 else 0 := by
  rw [List.count_append, List.count_singleton]
  by_cases h : a = d
  · simp [h]
  · simp [h]

/-- A thread that is admitted gets its place. -/
theorem Mueve.enUna_admite (h : s.Mueve (.admite (some d)) s') :
    s'.EnUna d ↔ s.SinColocar d := by
  cases h with
  | admite =>
    have hap : apariciones { s with
        ready := s.ready ++ (some d).toList
        semaforo := s.semaforo + 1 } d = s.apariciones d + 1 := by
      simp only [apariciones, Option.toList_some, count_concat, if_true]
      omega
    unfold EnUna SinColocar
    rw [hap]
    constructor
    · rintro ⟨huna, hcol⟩
      have hcero : s.ready.count d + s.blocked.count d + s.exec.count d = 0 := by
        unfold apariciones at huna
        omega
      refine ⟨hcero, ?_⟩
      -- The thread stands in `ready` only, so its state can be no other.
      cases hest : s.estado d with
      | ready => rfl
      | blocked =>
        have hmem : d ∈ s.blocked := by simpa [coleccion, hest] using hcol
        have := List.count_pos_iff.mpr hmem
        omega
      | exec =>
        have hmem : d ∈ s.exec := by simpa [coleccion, hest] using hcol
        have := List.count_pos_iff.mpr hmem
        omega
      | new => simp [coleccion, hest] at hcol
      | exit => simp [coleccion, hest] at hcol
    · rintro ⟨hcero, hest⟩
      refine ⟨by rw [hcero], ?_⟩
      simp [coleccion, hest]

/-- A thread with the same state stands as often in the same collections. -/
theorem EnUna.congr (hd : s.EnUna d) (he : s'.estado d = s.estado d)
    (hr : s'.ready.count d = s.ready.count d) (hb : s'.blocked.count d = s.blocked.count d)
    (hx : s'.exec.count d = s.exec.count d) : s'.EnUna d := by
  obtain ⟨huna, hcol⟩ := hd
  refine ⟨by rw [apariciones, hr, hb, hx]; exact huna, ?_⟩
  rw [he]
  have hcount : (s'.coleccion (s.estado d)).count d = (s.coleccion (s.estado d)).count d := by
    cases s.estado d with
    | ready => exact hr
    | blocked => exact hb
    | exec => exact hx
    | new => rfl
    | exit => rfl
  rw [← List.count_pos_iff, hcount]
  exact List.count_pos_iff.mpr hcol

theorem count_concat_ne {l : List Dir} {a : Dir} (h : d ≠ a) : (l ++ [a]).count d = l.count d := by
  rw [count_concat, if_neg (Ne.symm h), Nat.add_zero]

/-- The scheduler takes a thread out of `ready` and puts it into `exec`. -/
theorem Mueve.enUna_despacha (h : s.Mueve .despacha s') (hd : s.EnUna d) : s'.EnUna d := by
  cases h with
  | @despacha i a hpos hi =>
    obtain ⟨hlt, hget⟩ := List.getElem?_eq_some_iff.mp hi
    have hperm : (a :: s.ready.eraseIdx i).Perm s.ready := by
      rw [← hget]
      exact List.getElem_cons_eraseIdx_perm hlt
    have hcount := hperm.count_eq d
    by_cases hda : d = a
    · subst hda
      rw [List.count_cons_self] at hcount
      have huna := hd.1
      refine ⟨?_, ?_⟩
      · unfold apariciones at huna ⊢
        show (s.ready.eraseIdx i).count d + s.blocked.count d + (s.exec ++ [d]).count d = 1
        rw [count_concat, if_pos rfl]
        omega
      · simp [coleccion]
    · rw [List.count_cons_of_ne (Ne.symm hda)] at hcount
      exact hd.congr (Function.update_of_ne hda _ _) hcount rfl (count_concat_ne hda)

/-- A movement that does not name the thread, and ends no thread, leaves it where it is. -/
theorem Mueve.enUna (h : s.Mueve m s') (hd : s.EnUna d) (hhilo : d ∈ s.hilos) (ha : s.Acotada)
    (hfin : s'.exit = s.exit) (hadm : m ≠ .admite (some d)) (henc : m ≠ .encola d)
    (hblo : m ≠ .bloquea d) (hdue : m ≠ .duerme d) : s'.EnUna d := by
  cases h with
  | nada hn => exact hd
  | @nace a n hh hn =>
    have hne : d ≠ a := Nat.ne_of_lt (Nat.lt_of_lt_of_le (ha d hhilo) hh)
    exact hd.congr (Function.update_of_ne hne _ _) rfl rfl rfl
  | admite a =>
    cases a with
    | none => exact hd.congr rfl (congrArg (List.count d) (List.append_nil _)) rfl rfl
    | some a =>
      have hne : d ≠ a := fun hda => hadm (hda ▸ rfl)
      exact hd.congr rfl (count_concat_ne hne) rfl rfl
  | encola a =>
    have hne : d ≠ a := fun hda => henc (hda ▸ rfl)
    exact hd.congr (Function.update_of_ne hne _ _) (count_concat_ne hne) rfl rfl
  | bloquea a =>
    have hne : d ≠ a := fun hda => hblo (hda ▸ rfl)
    exact hd.congr (Function.update_of_ne hne _ _) rfl (count_concat_ne hne) rfl
  | duerme a =>
    have hne : d ≠ a := fun hda => hdue (hda ▸ rfl)
    have hbl : ((s.blocked ++ [a]).erase a).count d = s.blocked.count d := by
      rw [List.count_erase_of_ne hne, count_concat_ne hne]
    exact hd.congr (Function.update_of_ne hne _ _) (count_concat_ne hne) hbl rfl
  | despacha hpos hi => exact (Mueve.despacha hpos hi).enUna_despacha hd
  | gira hpos => exact hd
  | @termina hs terminados despiertan blocked liberados hayEspera estado n hhs hperm hespera hvacio
      hestado =>
    -- No thread ends, so none wakes.
    obtain rfl : terminados = [] := List.append_right_eq_self.mp hfin
    obtain rfl := hvacio rfl
    have hbl : blocked.count d = s.blocked.count d := hperm.count_eq d
    have hready : (s.ready ++ []).count d = s.ready.count d := by rw [List.append_nil]
    exact hd.congr (hestado d List.not_mem_nil List.not_mem_nil) hready hbl rfl

/-- A thread that a movement queues, blocks or puts to sleep stands in one place more. -/
theorem Mueve.no_enUna (h : s.Mueve m s') (hd : s.EnUna d)
    (hm : m = .encola d ∨ m = .bloquea d ∨ m = .duerme d) : ¬ s'.EnUna d := by
  intro hd'
  have huna := hd.1
  have huna' := hd'.1
  unfold apariciones at huna huna'
  rcases hm with rfl | rfl | rfl
  · cases h
    simp only [conEstado, count_concat, if_true] at huna'
    omega
  · cases h
    simp only [conEstado, count_concat, if_true] at huna'
    omega
  · cases h
    have hbl : ((s.blocked ++ [d]).erase d).count d = s.blocked.count d := by
      rw [List.count_erase_self, count_concat, if_pos rfl, Nat.add_sub_cancel]
    simp only [conEstado, count_concat, if_true, hbl] at huna'
    omega

end Planificacion

/-! ## Runs -/

variable {ent : Entorno} {tcbs : Dir → TCB} {pcbs : Dir → PCB} {uint32s : Dir → Uint32}

/-- `confirmacion_crear_hilo` admits the thread `d`: memoria confirms it, and it is in
`lista_tcbs`. -/
def Admite (d : Dir) (k : Estado) (p : Paso) : Prop :=
  ∃ c, p = .memoria (.confirmarCreacionHilo c) ∧ c.bitConfirmacion = 1 ∧
    k.buscarTcbs c.tid c.pid = some d

/-- The steps that can end a thread. -/
def Paso.puedeTerminar : Paso → Bool
  | .syscall (.processExit _) | .syscall (.threadCancel _) | .syscall (.threadExit _) => true
  | _ => false

theorem movDe_casos {M : Movimiento → Prop} {f : Dir → Movimiento} {o : Option Dir}
    (hnada : M .nada) (hf : ∀ h, M (f h)) : M (movDe f o) := by
  cases o with
  | none => exact hnada
  | some h => exact hf h

/-- The movements of a syscall. -/
theorem movSyscall_casos {M : Movimiento → Prop} {k : Estado} {y : Syscall} (hnada : M .nada)
    (hnace : M .nace) (hencola : ∀ h, M (.encola h)) (hbloquea : ∀ h, M (.bloquea h))
    (hduerme : ∀ h, M (.duerme h))
    (htermina : (Paso.syscall y).puedeTerminar = true → ∀ hs e, M (.termina hs e)) :
    M (k.movSyscall ent y) := by
  have hfin : (Paso.syscall y).puedeTerminar = true → ∀ o, M (k.movFinHilo o) := by
    intro hy o
    cases o with
    | none => exact hnada
    | some h => exact htermina hy _ _
  cases y with
  | processCreate d => exact hnada
  | processExit d =>
    simp only [Estado.movSyscall]
    split
    · exact htermina rfl _ _
    · exact hnada
  | threadCreate d =>
    simp only [Estado.movSyscall]
    split
    · exact hnada
    · exact hnace
  | threadJoin d =>
    simp only [Estado.movSyscall]
    split
    · exact movDe_casos hnada hencola
    · exact movDe_casos hnada hbloquea
  | threadCancel d =>
    simp only [Estado.movSyscall]
    split
    · exact hnada
    · exact hfin rfl _
  | threadExit d => exact hfin rfl _
  | mutexCreate d => exact hnada
  | mutexLock d =>
    simp only [Estado.movSyscall]
    split
    · exact hnada
    · split
      · exact hnada
      · exact movDe_casos hnada hbloquea
  | mutexUnlock d =>
    simp only [Estado.movSyscall]
    split
    · exact hnada
    · split
      · exact movDe_casos hnada hencola
      · exact hnada
  | dumpMemory d => exact movDe_casos hnada hbloquea
  | io d => exact movDe_casos hnada hduerme

theorem admite_iff {d : Dir} {k : Estado} {p : Paso} :
    Admite d k p ↔ k.movimiento ent p = .admite (some d) := by
  constructor
  · rintro ⟨c, rfl, hbit, hbus⟩
    simp [Estado.movimiento, hbit, hbus]
  · intro h
    cases p with
    | syscall y =>
      refine absurd h (movSyscall_casos (M := (· ≠ .admite (some d))) ?_ ?_ ?_ ?_ ?_ ?_) <;> simp
    | memoria m =>
      cases m with
      | confirmarEspacioProceso c =>
        simp only [Estado.movimiento] at h
        split at h <;> cases h
      | confirmarCreacionHilo c =>
        simp only [Estado.movimiento] at h
        split at h
        · exact ⟨c, rfl, ‹_›, Movimiento.admite.inj h⟩
        · cases h
      | confirmarDumpMemory => cases h
    | cortoPlazo =>
      simp only [Estado.movimiento] at h
      split at h <;> cases h
    | largoPlazo => cases h

/-- The step ends no thread. -/
def NadieTermina (ent : Entorno) (k : Estado) (p : Paso) : Prop :=
  ∀ k' o, paso ent k p = .ok (k', o) → k'.listaExit = k.listaExit

theorem movimiento_ne_termina {k : Estado} {p : Paso} (hp : p.puedeTerminar = false)
    (hs : List Dir) (e : Bool) : k.movimiento ent p ≠ .termina hs e := by
  match p with
  | .syscall y =>
    refine movSyscall_casos (M := (· ≠ .termina hs e)) ?_ ?_ ?_ ?_ ?_ ?_ <;> simp [hp]
  | .memoria (.confirmarEspacioProceso c) =>
    simp only [Estado.movimiento]
    split <;> simp
  | .memoria (.confirmarCreacionHilo c) =>
    simp only [Estado.movimiento]
    split <;> simp
  | .memoria .confirmarDumpMemory => simp [Estado.movimiento]
  | .cortoPlazo =>
    simp only [Estado.movimiento]
    split <;> simp
  | .largoPlazo => simp [Estado.movimiento]

/-- A run without `PROCESS_EXIT`, `THREAD_CANCEL` and `THREAD_EXIT` ends no thread. -/
theorem nadieTermina_corrida {k₀ : Estado} {ps : List Paso}
    (h : ∀ p ∈ ps, p.puedeTerminar = false) :
    EveryStep (paso ent) k₀ ps fun _ k p => NadieTermina ent k p := by
  intro pre k p r hpre _ _ k' o hp
  have hmem : p ∈ ps := hpre.subset (by simp)
  exact (paso_mueve hp).exit_of_ne (movimiento_ne_termina (h p hmem))

/-- What a run without finished threads keeps. -/
structure Colocados (ent : Entorno) (k₀ : Estado) (pre : List Paso) (k : Estado) : Prop where
  llega : Reaches (paso ent) k₀ pre k
  acotada : k.plani.Acotada
  hilos : ∀ d, Happened (paso ent) k₀ pre (Admite d) → d ∈ k.listaTcbs
  enUna : ∀ d, Happened (paso ent) k₀ pre (Admite d) → k.plani.EnUna d

section Pasos

variable {k₀ k k' : Estado} {pre : List Paso} {p : Paso} {o : List Paquete}

theorem Colocados.tras_paso (hk : Colocados ent k₀ pre k) (hfin : NadieTermina ent k p)
    (hm : k.plani.Mantiene (fun d => Happened (paso ent) k₀ pre (Admite d)) (k.movimiento ent p))
    (h : paso ent k p = .ok (k', o)) : Colocados ent k₀ (pre ++ [p]) k' := by
  have hmueve := paso_mueve h
  refine ⟨hk.llega.snoc h, hmueve.acotada hk.acotada, fun d hd => ?_, fun d hd => ?_⟩
  · rcases (happened_snoc hk.llega).mp hd with hd | ⟨c, -, -, hbus⟩
    · exact hmueve.hilos_subset (hk.hilos d hd)
    · exact hmueve.hilos_subset (mem_of_buscarTcbs hbus)
  · by_cases hadm : k.movimiento ent p = .admite (some d)
    · rw [hadm] at hmueve hm
      exact hmueve.enUna_admite.mpr (hm d rfl)
    · rcases (happened_snoc hk.llega).mp hd with hd | hd
      · refine hmueve.enUna (hk.enUna d hd) (hk.hilos d hd) hk.acotada (hfin k' o h) hadm ?_ ?_ ?_
        · intro heq
          rw [heq] at hm
          exact hm hd
        · intro heq
          rw [heq] at hm
          exact hm hd
        · intro heq
          rw [heq] at hm
          exact hm hd
      · exact absurd (admite_iff.mp hd) hadm

theorem Colocados.mantiene (hk : Colocados ent k₀ pre k) (h : paso ent k p = .ok (k', o))
    (hk' : ∀ d, Happened (paso ent) k₀ (pre ++ [p]) (Admite d) → k'.plani.EnUna d) :
    k.plani.Mantiene (fun d => Happened (paso ent) k₀ pre (Admite d)) (k.movimiento ent p) := by
  have hmueve := paso_mueve h
  have hsigue : ∀ d, Happened (paso ent) k₀ pre (Admite d) → k'.plani.EnUna d := fun d hd =>
    hk' d ((happened_snoc hk.llega).mpr (.inl hd))
  cases hm : k.movimiento ent p with
  | admite a =>
    rintro d rfl
    rw [hm] at hmueve
    exact hmueve.enUna_admite.mp (hk' d ((happened_snoc hk.llega).mpr (.inr (admite_iff.mpr hm))))
  | encola d => exact fun hd => hmueve.no_enUna (hk.enUna d hd) (.inl hm) (hsigue d hd)
  | bloquea d => exact fun hd => hmueve.no_enUna (hk.enUna d hd) (.inr (.inl hm)) (hsigue d hd)
  | duerme d => exact fun hd => hmueve.no_enUna (hk.enUna d hd) (.inr (.inr hm)) (hsigue d hd)
  | _ => trivial

end Pasos

/-- **One collection for each confirmed thread**, in a run in which no thread finishes, exactly
when each confirmation finds its thread READY and in no collection, and no step queues, blocks or
puts to sleep a thread that was confirmed before. -/
theorem una_coleccion_iff (ps : List Paso)
    (hfin : EveryStep (paso ent) (estadoInicial tcbs pcbs uint32s) ps
      fun _ k p => NadieTermina ent k p) :
    EveryState (paso ent) (estadoInicial tcbs pcbs uint32s) ps
        (fun pre k => ∀ d, Happened (paso ent) (estadoInicial tcbs pcbs uint32s) pre (Admite d) →
          k.plani.EnUna d) ↔
      EveryStep (paso ent) (estadoInicial tcbs pcbs uint32s) ps
        fun pre k p => k.plani.Mantiene
          (fun d => Happened (paso ent) (estadoInicial tcbs pcbs uint32s) pre (Admite d))
          (k.movimiento ent p) := by
  refine everyState_iff_everyStep_of (I := Colocados ent (estadoInicial tcbs pcbs uint32s)) hfin
    ?_ (fun _ _ h => h.enUna) ?_ ?_
  · exact ⟨reaches_nil.mpr rfl, fun d hd => absurd hd List.not_mem_nil,
      fun d hd => absurd hd not_happened_nil, fun d hd => absurd hd not_happened_nil⟩
  · intro pre k p k' o _ hnadie _ hk hm h
    exact hk.tras_paso hnadie hm h
  · intro pre k p k' o _ _ hk h hk'
    exact hk.mantiene h hk'

/-- The rule for the start of the first process. -/
theorem una_coleccion_arranque :
    EveryState (paso entornoFifo) estadoCero arranque
        (fun pre k => ∀ d, Happened (paso entornoFifo) estadoCero pre (Admite d) →
          k.plani.EnUna d) ↔
      EveryStep (paso entornoFifo) estadoCero arranque
        fun pre k p => k.plani.Mantiene
          (fun d => Happened (paso entornoFifo) estadoCero pre (Admite d))
          (k.movimiento entornoFifo p) :=
  una_coleccion_iff arranque (nadieTermina_corrida (by decide))

/-- A thread that did an `IO` is ready, and still in `cola_exec`. -/
theorem dos_colecciones : ¬ EveryState (paso entornoFifo) estadoCero
    (arranque ++ [.syscall (.io ⟨1, 0, 5⟩)])
    (fun pre k => ∀ d, Happened (paso entornoFifo) estadoCero pre (Admite d) →
      k.plani.EnUna d) := by
  intro h
  have hrun : (run (paso entornoFifo) estadoCero (arranque ++ [.syscall (.io ⟨1, 0, 5⟩)])
      ).toOption.map (fun r => (r.1.listaReady, r.1.colaExec)) = some ([3], [3]) := by
    decide +kernel
  obtain ⟨k, hk, hl⟩ := reaches_of_map (g := fun k : Estado => (k.listaReady, k.colaExec)) hrun
  obtain ⟨hready, hexec⟩ := Prod.mk.inj hl
  have hprevio : (run (paso entornoFifo) estadoCero (arranque.take 3)
      ).toOption.map (fun r => r.1.buscarTcbs 0 1) = some (some 3) := by
    decide +kernel
  obtain ⟨k₁, hk₁, hbus⟩ := reaches_of_map (g := fun k : Estado => k.buscarTcbs 0 1) hprevio
  have hadm : Happened (paso entornoFifo) estadoCero (arranque ++ [.syscall (.io ⟨1, 0, 5⟩)])
      (Admite 3) :=
    ⟨arranque.take 3, .memoria (.confirmarCreacionHilo ⟨1, 0, 1⟩), k₁,
      ⟨[.cortoPlazo, .syscall (.io ⟨1, 0, 5⟩)], rfl⟩, hk₁, ⟨1, 0, 1⟩, rfl, rfl, hbus⟩
  have huna := (h _ k (List.prefix_refl _) hk 3 hadm).1
  have hap : k.plani.apariciones 3 =
      k.listaReady.count 3 + k.listaBlocked.count 3 + k.colaExec.count 3 := rfl
  rw [hap, hready, hexec] at huna
  simp at huna

end LastOfC.Kernel
