import LastOfC.Kernel.Colecciones
import LastOfC.Kernel.Creacion
import LastOfC.Kernel.Marco

/-!
# The threads of one process

What the kernel keeps of the threads of a process while its syscalls come from threads that run,
each thread is admitted once, and none of them ends (`Disciplina`). Then a thread stands in
`lista_ready` at most once, and only if it is READY (`Sitio`), so a BLOCKED thread stays BLOCKED
until a `MUTEX_UNLOCK` hands it a mutex (`sigue_bloqueado`).
-/

namespace LastOfC.Kernel

open Trace Planificacion

/-- The thread that a movement admits. -/
def Movimiento.admitido : Movimiento → Option Dir
  | .admite h => h
  | _ => none

/-- The thread that a movement queues or blocks. -/
def Movimiento.toca : Movimiento → Option Dir
  | .encola h | .bloquea h | .duerme h => some h
  | _ => none

/-! ## One thread -/

namespace Planificacion

variable {s s' : Planificacion} {m : Movimiento} {as : List Dir} {d : Dir}

/-- The thread `d` is in `ready` at most once, READY, and after it was one of those admitted. -/
structure Sitio (s : Planificacion) (as : List Dir) (d : Dir) : Prop where
  una : s.ready.count d ≤ 1
  listo : d ∈ s.ready → s.estado d = .ready
  nuevo : d ∉ as → s.estado d = .ready ∧ d ∉ s.ready

/-- A thread that is not READY is not in `ready`. -/
theorem Sitio.fuera (h : s.Sitio as d) (hd : s.estado d ≠ .ready) : d ∉ s.ready ∧ d ∈ as :=
  ⟨fun hmem => hd (h.listo hmem), by
    by_contra hno
    exact hd (h.nuevo hno).1⟩

/-- A thread that was outside of `ready` is appended to it, READY. -/
theorem sitio_agregar {l : List Dir} {estado : Dir → EstadoProcesoHilo} (hfuera : d ∉ l)
    (hestado : estado d = .ready) (has : d ∈ as) (hready : s.ready = l ++ [d])
    (hest : s.estado = estado) : s.Sitio as d where
  una := by
    rw [hready, List.count_append, List.count_eq_zero.mpr hfuera]
    simp
  listo _ := hest ▸ hestado
  nuevo hno := absurd has hno

/-- A thread with another state is outside of `ready`. -/
theorem sitio_fuera (hfuera : d ∉ s.ready) (has : d ∈ as) : s.Sitio as d where
  una := by
    rw [List.count_eq_zero.mpr hfuera]
    exact Nat.zero_le _
  listo hmem := absurd hmem hfuera
  nuevo hno := absurd has hno

/-- The same state, and the same place in `ready`. -/
theorem Sitio.igual (h : s.Sitio as d) (hestado : s'.estado d = s.estado d)
    (hready : s'.ready.count d = s.ready.count d) : s'.Sitio as d where
  una := hready ▸ h.una
  listo hmem := by
    rw [hestado]
    refine h.listo (List.count_pos_iff.mp ?_)
    rw [← hready]
    exact List.count_pos_iff.mpr hmem
  nuevo hno := by
    refine ⟨hestado.trans (h.nuevo hno).1, fun hmem => (h.nuevo hno).2 (List.count_pos_iff.mp ?_)⟩
    rw [← hready]
    exact List.count_pos_iff.mpr hmem

theorem count_append_otro {l : List Dir} {e : Dir} (hne : d ≠ e) :
    (l ++ [e]).count d = l.count d := by
  rw [List.count_append, List.count_singleton, beq_eq_false_iff_ne.mpr (Ne.symm hne)]
  rfl

/-- A thread is appended to `ready`, READY. -/
theorem Sitio.agregado {e : Dir} (h : s.Sitio as d) (hready : s'.ready = s.ready ++ [e])
    (hest : s'.estado = Function.update s.estado e .ready)
    (htoca : d = e → s.estado d ≠ .ready) : s'.Sitio as d := by
  by_cases he : d = e
  · subst he
    obtain ⟨hfuera, has⟩ := h.fuera (htoca rfl)
    exact sitio_agregar hfuera (Function.update_self _ _ _) has hready hest
  · refine h.igual ?_ ?_
    · rw [hest, Function.update_of_ne he]
    · rw [hready, count_append_otro he]

theorem Mueve.sitio (h : s.Mueve m s') (ha : s.Acotada) (hd : d ∈ s.hilos) (hs : s.Sitio as d)
    (hfin : ∀ hs e, m ≠ .termina hs e) (hunavez : m.admitido = some d → d ∉ as)
    (htoca : m.toca = some d → s.estado d ≠ .ready) :
    s'.Sitio (as ++ m.admitido.toList) d := by
  have hsin : m.admitido = none → as ++ m.admitido.toList = as := by
    intro hno
    rw [hno]
    exact List.append_nil _
  cases h with
  | nada => rw [hsin rfl]; exact hs.igual rfl rfl
  | @nace e n he =>
    have hne : d ≠ e := Nat.ne_of_lt (Nat.lt_of_lt_of_le (ha d hd) he)
    rw [hsin rfl]
    exact hs.igual (Function.update_of_ne hne _ _) rfl
  | admite e =>
    by_cases he : e = some d
    · subst he
      have hno := hunavez rfl
      refine sitio_agregar (hs.nuevo hno).2 (hs.nuevo hno).1 ?_ rfl rfl
      exact List.mem_append_right _ (List.mem_singleton_self d)
    · have hready : (s.ready ++ e.toList).count d = s.ready.count d := by
        rw [List.count_append, List.count_eq_zero.mpr fun hmem => he (Option.mem_toList.mp hmem)]
        rfl
      have hmas : d ∉ as ++ e.toList → d ∉ as := fun hno hmem => hno (List.mem_append_left _ hmem)
      have higual : Planificacion.Sitio { s with
          ready := s.ready ++ e.toList
          semaforo := s.semaforo + 1 } as d := hs.igual rfl hready
      exact ⟨higual.una, higual.listo, fun hno => higual.nuevo (hmas hno)⟩
  | encola e =>
    rw [hsin rfl]
    exact hs.agregado rfl rfl fun he => htoca (he ▸ rfl)
  | bloquea e =>
    rw [hsin rfl]
    by_cases he : d = e
    · subst he
      obtain ⟨hfuera, has⟩ := hs.fuera (htoca rfl)
      exact sitio_fuera hfuera has
    · exact hs.igual (Function.update_of_ne he _ _) rfl
  | duerme e =>
    rw [hsin rfl]
    exact hs.agregado rfl rfl fun he => htoca (he ▸ rfl)
  | @despacha i e hsem hi =>
    rw [hsin rfl]
    obtain ⟨pre, post, hlista, hlargo⟩ := KeyedList.exists_split hi
    have hsaca : s.ready.eraseIdx i = pre ++ post := by
      rw [hlista, ← hlargo, KeyedList.eraseIdx_split]
    by_cases he : d = e
    · subst he
      have hmem : d ∈ s.ready := List.mem_of_getElem? hi
      have has : d ∈ as := by
        by_contra hno
        exact (hs.nuevo hno).2 hmem
      refine sitio_fuera ?_ has
      have huna := hs.una
      rw [hlista, List.count_append, List.count_cons_self] at huna
      show d ∉ s.ready.eraseIdx i
      rw [hsaca, ← List.count_eq_zero, List.count_append]
      omega
    · refine hs.igual (Function.update_of_ne he _ _) ?_
      show (s.ready.eraseIdx i).count d = _
      rw [hsaca, hlista, List.count_append, List.count_append, List.count_cons_of_ne (Ne.symm he)]
  | gira => rw [hsin rfl]; exact hs.igual rfl rfl
  | termina => exact absurd rfl (hfin _ _)

/-- The threads of `ready` and `blocked` exist. -/
structure Conocidos (s : Planificacion) : Prop where
  ready : s.ready ⊆ s.hilos
  blocked : s.blocked ⊆ s.hilos

theorem Mueve.conocidos (h : s.Mueve m s') (hs : s.Conocidos)
    (hadm : ∀ e, m.admitido = some e → e ∈ s.hilos) (htoca : ∀ e, m.toca = some e → e ∈ s.hilos) :
    s'.Conocidos := by
  have huno : ∀ {l : List Dir} {e : Dir}, l ⊆ s.hilos → e ∈ s.hilos → l ++ [e] ⊆ s.hilos :=
    fun hl he => List.append_subset.mpr ⟨hl, by simpa using he⟩
  cases h with
  | nada => exact ⟨hs.ready, hs.blocked⟩
  | nace => exact ⟨fun _ hd => List.mem_append_left _ (hs.ready hd),
      fun _ hd => List.mem_append_left _ (hs.blocked hd)⟩
  | admite e =>
    refine ⟨List.append_subset.mpr ⟨hs.ready, fun d hd => ?_⟩, hs.blocked⟩
    exact hadm d (Option.mem_toList.mp hd)
  | encola e => exact ⟨huno hs.ready (htoca e rfl), hs.blocked⟩
  | bloquea e => exact ⟨hs.ready, huno hs.blocked (htoca e rfl)⟩
  | duerme e =>
    have he := htoca e rfl
    exact ⟨huno hs.ready he, List.Subset.trans List.erase_subset (huno hs.blocked he)⟩
  | despacha _ hi => exact ⟨fun _ hd => hs.ready (List.mem_of_mem_eraseIdx hd), hs.blocked⟩
  | gira => exact ⟨hs.ready, hs.blocked⟩
  | termina _ hperm =>
    refine ⟨List.append_subset.mpr ⟨hs.ready, fun d hd => ?_⟩, fun d hd => ?_⟩
    · exact hs.blocked (hperm.mem_iff.mp (List.mem_append_left _ hd))
    · exact hs.blocked (hperm.mem_iff.mp (List.mem_append_right _ hd))

/-- The thread waits for the CPU, is blocked, or had the CPU. -/
def Planificado (s : Planificacion) (d : Dir) : Prop :=
  d ∈ s.ready ∨ d ∈ s.blocked ∨ d ∈ s.exec

/-- A thread gets into the lists when memoria confirms it, or by a syscall. -/
theorem Mueve.planificado (h : s.Mueve m s') (hd : s'.Planificado d) :
    s.Planificado d ∨ m.admitido = some d ∨ m.toca = some d := by
  have hagrega : ∀ {l : List Dir} {e : Dir}, d ∈ l ++ [e] → d ∈ l ∨ e = d := fun hmem =>
    (List.mem_append.mp hmem).imp_right fun he => (List.mem_singleton.mp he).symm
  rcases hd with hd | hd | hd
  · cases h with
    | admite e =>
      rcases List.mem_append.mp hd with hd | hd
      · exact .inl (.inl hd)
      · exact .inr (.inl (Option.mem_toList.mp hd))
    | encola e => exact (hagrega hd).imp .inl fun he => .inr (congrArg some he)
    | duerme e => exact (hagrega hd).imp .inl fun he => .inr (congrArg some he)
    | despacha _ _ => exact .inl (.inl (List.mem_of_mem_eraseIdx hd))
    | termina _ hperm =>
      rcases List.mem_append.mp hd with hd | hd
      · exact .inl (.inl hd)
      · exact .inl (.inr (.inl (hperm.mem_iff.mp (List.mem_append_left _ hd))))
    | _ => exact .inl (.inl hd)
  · cases h with
    | bloquea e =>
      exact (hagrega hd).imp (fun hd => .inr (.inl hd)) fun he => .inr (congrArg some he)
    | duerme e =>
      rcases hagrega (List.mem_of_mem_erase hd) with hd | rfl
      · exact .inl (.inr (.inl hd))
      · exact .inr (.inr rfl)
    | termina _ hperm =>
      exact .inl (.inr (.inl (hperm.mem_iff.mp (List.mem_append_right _ hd))))
    | _ => exact .inl (.inr (.inl hd))
  · cases h with
    | @despacha i e _ hi =>
      rcases hagrega hd with hd | rfl
      · exact .inl (.inr (.inr hd))
      · exact .inl (.inl (List.mem_of_getElem? hi))
    | _ => exact .inl (.inr (.inr hd))

/-- A thread outside of `ready` that no movement queues or blocks keeps its state. -/
theorem Mueve.sigue (h : s.Mueve m s') (ha : s.Acotada) (hd : d ∈ s.hilos) (hfuera : d ∉ s.ready)
    (hfin : ∀ hs e, m ≠ .termina hs e) (htoca : m.toca ≠ some d) :
    s'.estado d = s.estado d := by
  cases h with
  | @nace e n he =>
    exact Function.update_of_ne (Nat.ne_of_lt (Nat.lt_of_lt_of_le (ha d hd) he)) _ _
  | encola e => exact Function.update_of_ne (fun he => htoca (congrArg some he.symm)) _ _
  | bloquea e => exact Function.update_of_ne (fun he => htoca (congrArg some he.symm)) _ _
  | duerme e => exact Function.update_of_ne (fun he => htoca (congrArg some he.symm)) _ _
  | @despacha i e hsem hi =>
    have hne : d ≠ e := fun he => hfuera (he ▸ List.mem_of_getElem? hi)
    exact Function.update_of_ne hne _ _
  | termina => exact absurd rfl (hfin _ _)
  | _ => rfl

/-- A new thread is READY, and not yet in `ready`. -/
theorem Mueve.sitio_nuevo (h : s.Mueve m s') (hs : s.Conocidos) (hd : d ∉ s.hilos)
    (hd' : d ∈ s'.hilos) : s'.Sitio as d := by
  cases h with
  | @nace e n he =>
    obtain rfl : d = e := List.mem_singleton.mp ((List.mem_append.mp hd').resolve_left hd)
    have hfuera : d ∉ s.ready := fun hmem => hd (hs.ready hmem)
    refine ⟨?_, fun hmem => absurd hmem hfuera, fun _ => ⟨Function.update_self _ _ _, hfuera⟩⟩
    show s.ready.count d ≤ 1
    rw [List.count_eq_zero.mpr hfuera]
    exact Nat.zero_le _
  | _ => exact absurd hd' hd

/-- Only the end of threads frees one. -/
theorem Mueve.liberados_of_ne (h : s.Mueve m s') (hfin : ∀ hs e, m ≠ .termina hs e) :
    s'.liberados = s.liberados := by
  cases h with
  | termina => exact absurd rfl (hfin _ _)
  | _ => rfl

end Planificacion

/-! ## The discipline of the callers -/

variable {ent : Entorno} {k k' : Estado} {p : Paso} {o : List Paquete} {pid : Uint32}
  {as : List Dir}

/-- The tid in a packet, that of the caller. -/
def Syscall.tid : Syscall → Uint32
  | .processCreate d => d.TID
  | .processExit d => d.tidInv
  | .threadCreate d => d.TID
  | .threadJoin d => d.TID
  | .threadCancel d => d.TID
  | .threadExit d => d.tidInv
  | .mutexCreate d => d.TID
  | .mutexLock d => d.TID
  | .mutexUnlock d => d.TID
  | .dumpMemory d => d.tidInv
  | .io d => d.TID

/-- The thread was created and not freed, and has the pid. -/
def Estado.hiloVivo (k : Estado) (pid : Uint32) (h : Dir) : Bool :=
  h ∈ k.listaTcbs ∧ h ∉ k.liberados ∧ (k.tcbs h).pid = pid

theorem hiloVivo_iff {h : Dir} : k.hiloVivo pid h = true ↔
    h ∈ k.listaTcbs ∧ h ∉ k.liberados ∧ (k.tcbs h).pid = pid :=
  decide_eq_true_iff

/-- A syscall of the process `pid` comes from one of its threads, and that thread runs. The boot
makes a `PROCESS_CREATE` of its own. -/
def Paso.emiteBien (k : Estado) (pid : Uint32) : Paso → Bool
  | .syscall y =>
    y.pid ≠ pid || (Paso.syscall y).creaProceso ||
      (k.buscarTcbs y.tid pid).any fun h => k.hiloVivo pid h && (k.tcbs h).estadoHilo = .exec
  | _ => true

/-- A step of a run in which the threads of the process `pid` make syscalls only while they run,
are admitted once each (`as` are those admitted before), and do not end. -/
def Estado.Disciplina (ent : Entorno) (pid : Uint32) (as : List Dir) (k : Estado) (p : Paso) :
    Prop :=
  p.emiteBien k pid = true ∧
    (∀ h ∈ (k.movimiento ent p).admitido, (k.tcbs h).pid = pid → h ∉ as) ∧
    ∀ h ∈ (k.movimiento ent p).terminan, (k.tcbs h).pid ≠ pid

instance : Decidable (k.Disciplina ent pid as p) := inferInstanceAs (Decidable (_ ∧ _ ∧ _))

/-- The threads admitted along a run. -/
def admitidos (ent : Entorno) (s : Estado) (ps : List Paso) : List Dir :=
  history (paso ent) (fun k p _ as => as ++ (k.movimiento ent p).admitido.toList) s ps []

/-- A syscall of the process comes from a thread that runs. -/
theorem Estado.Disciplina.emisor {y : Syscall} (h : k.Disciplina ent pid as (.syscall y))
    (hpid : y.pid = pid) (hy : (Paso.syscall y).creaProceso = false) :
    ∃ d, k.buscarTcbs y.tid pid = some d ∧ k.hiloVivo pid d = true ∧
      (k.tcbs d).estadoHilo = .exec := by
  have hbien := h.1
  simp only [Paso.emiteBien, hpid, hy, ne_eq, not_true_eq_false, decide_false, Bool.false_or,
    Option.any_eq_true, Bool.and_eq_true, decide_eq_true_eq] at hbien
  exact hbien

/-! ## Which threads a step moves -/

theorem movDe_toca {f : Dir → Movimiento} {o : Option Dir} {h : Dir}
    (hf : ∀ d, (f d).toca = some d) (ht : (movDe f o).toca = some h) : o = some h := by
  cases o with
  | none => cases ht
  | some d => exact (hf d).symm.trans ht

theorem movFinHilo_toca (o : Option Dir) : (k.movFinHilo o).toca = none := by
  cases o with
  | none => rfl
  | some d => rfl

/-- A thread is queued or blocked by its own syscall, or by a `MUTEX_UNLOCK` that hands it a
mutex. -/
theorem movimiento_toca {h : Dir} (ht : (k.movimiento ent p).toca = some h) :
    ∃ y, p = .syscall y ∧ (Paso.syscall y).creaProceso = false ∧
      (k.buscarTcbs y.tid y.pid = some h ∨
        ∃ d l t, y = .mutexUnlock d ∧ k.mutexDe d = some l ∧ l.tid = d.TID ∧
          l.bloqueadosMutex.head? = some t ∧ k.buscarTcbs t d.PID = some h) := by
  cases p with
  | syscall y =>
    refine ⟨y, rfl, ?_⟩
    simp only [Estado.movimiento] at ht
    cases y with
    | processCreate d => cases ht
    | processExit d =>
      simp only [Estado.movSyscall] at ht
      split at ht <;> cases ht
    | threadCreate d =>
      simp only [Estado.movSyscall] at ht
      split at ht <;> cases ht
    | threadJoin d =>
      refine ⟨rfl, .inl ?_⟩
      simp only [Estado.movSyscall] at ht
      split at ht
      · exact movDe_toca (fun _ => rfl) ht
      · exact movDe_toca (fun _ => rfl) ht
    | threadCancel d =>
      simp only [Estado.movSyscall] at ht
      split at ht
      · cases ht
      · rw [movFinHilo_toca] at ht
        cases ht
    | threadExit d =>
      rw [Estado.movSyscall, movFinHilo_toca] at ht
      cases ht
    | mutexCreate d => cases ht
    | mutexLock d =>
      refine ⟨rfl, .inl ?_⟩
      simp only [Estado.movSyscall] at ht
      split at ht
      · cases ht
      · split at ht
        · cases ht
        · exact movDe_toca (fun _ => rfl) ht
    | mutexUnlock d =>
      simp only [Estado.movSyscall] at ht
      split at ht
      · cases ht
      · rename_i l hl
        split at ht
        · rename_i htid
          obtain ⟨t, hcabeza, hbus⟩ := Option.bind_eq_some_iff.mp (movDe_toca (fun _ => rfl) ht)
          exact ⟨rfl, .inr ⟨d, l, t, rfl, hl, htid, hcabeza, hbus⟩⟩
        · cases ht
    | dumpMemory d => exact ⟨rfl, .inl (movDe_toca (fun _ => rfl) ht)⟩
    | io d => exact ⟨rfl, .inl (movDe_toca (fun _ => rfl) ht)⟩
  | memoria m =>
    cases m with
    | confirmarEspacioProceso d =>
      simp only [Estado.movimiento] at ht
      split at ht <;> cases ht
    | confirmarCreacionHilo d =>
      simp only [Estado.movimiento] at ht
      split at ht <;> cases ht
    | confirmarDumpMemory => cases ht
  | cortoPlazo =>
    simp only [Estado.movimiento] at ht
    split at ht <;> cases ht
  | largoPlazo => cases ht

theorem movimiento_toca_mem {h : Dir} (ht : (k.movimiento ent p).toca = some h) :
    h ∈ k.listaTcbs := by
  obtain ⟨y, -, -, hbus | ⟨d, l, t, -, -, -, -, hbus⟩⟩ := movimiento_toca ht
  · exact mem_of_buscarTcbs hbus
  · exact mem_of_buscarTcbs hbus

/-- Threads end in a syscall, and its caller is one of them. -/
theorem movimiento_termina {hs : List Dir} {e : Bool}
    (hm : k.movimiento ent p = .termina hs e) :
    ∃ y, p = .syscall y ∧ (Paso.syscall y).creaProceso = false ∧
      ∀ d, k.buscarTcbs y.tid y.pid = some d → d ∈ hs := by
  have hpuede : p.puedeTerminar = true := by
    by_contra hno
    exact movimiento_ne_termina ((Bool.not_eq_true _).mp hno) hs e hm
  have huno : ∀ o, k.movFinHilo o = .termina hs e → ∀ d, o = some d → d ∈ hs := by
    rintro o ho d rfl
    obtain ⟨rfl, -⟩ := Movimiento.termina.inj ho
    exact List.mem_singleton_self d
  cases p with
  | syscall y =>
    refine ⟨y, rfl, ?_⟩
    simp only [Estado.movimiento] at hm
    cases y with
    | processExit d =>
      simp only [Estado.movSyscall] at hm
      split at hm
      · obtain ⟨rfl, -⟩ := Movimiento.termina.inj hm
        refine ⟨rfl, fun h hbus => List.mem_filter.mpr ⟨mem_of_buscarTcbs hbus, ?_⟩⟩
        exact decide_eq_true (pid_of_buscarTcbs hbus).1
      · cases hm
    | threadCancel d =>
      simp only [Estado.movSyscall] at hm
      split at hm
      · cases hm
      · exact ⟨rfl, fun h hbus => huno _ hm h hbus⟩
    | threadExit d => exact ⟨rfl, fun h hbus => huno _ hm h hbus⟩
    | _ => cases hpuede
  | _ => cases hpuede

/-- The threads that end under the discipline are of another process than the syscall that ends
them. -/
theorem Estado.Disciplina.ajena (h : k.Disciplina ent pid as p) {hs : List Dir} {e : Bool}
    (hm : k.movimiento ent p = .termina hs e) : ∃ y, p = .syscall y ∧ y.pid ≠ pid := by
  obtain ⟨y, rfl, hcrea, hmem⟩ := movimiento_termina hm
  refine ⟨y, rfl, fun hpid => ?_⟩
  obtain ⟨d, hbus, hvivo, -⟩ := h.emisor hpid hcrea
  have hd : d ∈ (k.movimiento ent (.syscall y)).terminan := by
    rw [hm]
    exact hmem d (hpid ▸ hbus)
  exact h.2.2 d hd (hiloVivo_iff.mp hvivo).2.2

/-! ## The blocks -/

theorem Crea.liberados (h : Crea ent k p k') : k.liberados ⊆ k'.liberados := by
  cases h with
  | proceso _ _ _ hlib => exact hlib ▸ List.Subset.refl _
  | principal _ _ _ hn => exact hn.liberados ▸ List.Subset.refl _
  | hilo _ _ _ hn => exact hn.liberados ▸ List.Subset.refl _
  | nada _ _ _ hs => exact hs.liberados

/-- A thread that is not freed keeps its identity. -/
theorem Crea.idDe (h : Crea ent k p k') (hk : k.Asignado) {d : Dir} (hd : d ∈ k.listaTcbs)
    (hl : d ∉ k'.liberados) : k'.idDe d = k.idDe d := by
  have hotro : ∀ {e : Dir}, k.proximo ≤ e → d ≠ e := fun he =>
    Nat.ne_of_lt (Nat.lt_of_lt_of_le (hk.hilos d hd) he)
  cases h with
  | proceso _ _ _ _ hid => exact hid d
  | principal _ _ _ hn => exact hn.otras d (hotro hn.fresco)
  | hilo _ _ _ hn => exact hn.otras d (hotro hn.fresco)
  | nada _ _ _ hs => exact hs.vivo hl

theorem Crea.asignado (h : Crea ent k p k') (hk : k.Asignado) : k'.Asignado := by
  have hnace : ∀ {e : Dir} {id : Uint32 × Uint32}, NaceHilo k e id k' → k'.Asignado := by
    intro e id hn
    have hprox := Nat.lt_of_le_of_lt hn.fresco hn.proximo
    refine ⟨fun d hd => ?_, fun q hq => Nat.lt_trans (hk.procesos q (hn.procesos ▸ hq)) hprox⟩
    rw [hn.hilos] at hd
    rcases List.mem_append.mp hd with hd | hd
    · exact Nat.lt_trans (hk.hilos d hd) hprox
    · obtain rfl := List.mem_singleton.mp hd
      exact hn.proximo
  cases h with
  | proceso hn =>
    refine ⟨fun d hd => Nat.lt_trans (hk.hilos d (hn.hilos ▸ hd)) hn.proximo, fun q hq => ?_⟩
    rw [hn.procesos] at hq
    rcases List.mem_append.mp hq with hq | hq
    · exact Nat.lt_trans (hk.procesos q hq) hn.proximo
    · obtain rfl := List.mem_singleton.mp hq
      exact hn.proximo
  | principal _ _ _ hn => exact hnace hn
  | hilo _ _ _ hn => exact hnace hn
  | nada _ _ _ hs =>
    exact ⟨fun d hd => Nat.lt_of_lt_of_le (hk.hilos d (hs.tabla.hilos ▸ hd)) hs.tabla.proximo,
      fun q hq => Nat.lt_of_lt_of_le (hk.procesos q (hs.tabla.procesos ▸ hq)) hs.tabla.proximo⟩

/-- A thread of `lista_tcbs` that lives after a step lived before it, with the same identity. -/
theorem vivo_antes (hk : k.Asignado) (hp : paso ent k p = .ok (k', o)) {h : Dir}
    (hh : h ∈ k.listaTcbs) (hv : k'.hiloVivo pid h = true) :
    k.hiloVivo pid h = true ∧ k'.idDe h = k.idDe h := by
  obtain ⟨-, hlib, hpid⟩ := hiloVivo_iff.mp hv
  have hid := (paso_crea hp).idDe hk hh hlib
  refine ⟨hiloVivo_iff.mpr ⟨hh, fun hl => hlib ((paso_crea hp).liberados hl), ?_⟩, hid⟩
  exact (congrArg Prod.fst hid).symm.trans hpid

/-- What the end of threads does to the threads and the processes with another pid. -/
theorem Estado.Disciplina.termina_ajeno (h : k.Disciplina ent pid as p) (hk : k.Asignado)
    {hs : List Dir} {e : Bool} (hm : k.movimiento ent p = .termina hs e)
    (hp : paso ent k p = .ok (k', o)) : Ajeno (k.hiloVivo pid) (k.procesoDe pid) k k' := by
  obtain ⟨y, rfl, hpid⟩ := h.ajena hm
  refine syscall_ajeno (q := pid) (paso_ok hp) ⟨fun d hd => ?_, fun q hq => ?_⟩
    ⟨fun d hd => ?_, fun q hq => ?_⟩ hpid
  · exact (hiloVivo_iff.mp hd).2.2
  · exact (of_decide_eq_true hq).2
  · exact hk.hilos d (hiloVivo_iff.mp hd).1
  · exact hk.procesos q (of_decide_eq_true hq).1

/-- A thread under the discipline lives on. -/
theorem vivo_despues (hk : k.Asignado) (hd : k.Disciplina ent pid as p)
    (hp : paso ent k p = .ok (k', o)) {h : Dir} (hv : k.hiloVivo pid h = true) :
    k'.hiloVivo pid h = true ∧ k'.idDe h = k.idDe h := by
  obtain ⟨hh, hlib, hpid⟩ := hiloVivo_iff.mp hv
  have hlib' : h ∉ k'.liberados := by
    by_cases hfin : ∃ hs e, k.movimiento ent p = .termina hs e
    · obtain ⟨hs, e, hm⟩ := hfin
      exact fun hmem => hlib ((hd.termina_ajeno hk hm hp).liberados h hv hmem)
    · have heq : k'.liberados = k.liberados :=
        (paso_mueve hp).liberados_of_ne fun hs e hm => hfin ⟨hs, e, hm⟩
      exact fun hmem => hlib (heq ▸ hmem)
  have hid := (paso_crea hp).idDe hk hh hlib'
  refine ⟨hiloVivo_iff.mpr ⟨(paso_mueve hp).hilos_subset hh, hlib', ?_⟩, hid⟩
  exact (congrArg Prod.fst hid).trans hpid

/-! ## The threads along a run -/

/-- The threads of the process `pid`, when `as` were admitted. -/
structure Hilos (pid : Uint32) (as : List Dir) (k : Estado) : Prop where
  asignado : k.Asignado
  conocidos : k.plani.Conocidos
  sitio : ∀ h, k.hiloVivo pid h = true → k.plani.Sitio as h

/-- No step queues or blocks a thread of the process that is READY. -/
def Estado.Quieto (ent : Entorno) (pid : Uint32) (k : Estado) (p : Paso) : Prop :=
  ∀ h, (k.movimiento ent p).toca = some h → k.hiloVivo pid h = true →
    (k.tcbs h).estadoHilo ≠ .ready

theorem admitido_mem {h : Dir} (ha : (k.movimiento ent p).admitido = some h) :
    h ∈ k.listaTcbs := by
  cases hm : k.movimiento ent p with
  | admite e =>
    rw [hm] at ha
    obtain rfl : e = some h := ha
    obtain ⟨c, -, -, hbus⟩ := admite_iff.mpr hm
    exact mem_of_buscarTcbs hbus
  | _ =>
    rw [hm] at ha
    cases ha

theorem Hilos.tras_paso (h : Hilos pid as k) (hd : k.Disciplina ent pid as p)
    (hquieto : k.Quieto ent pid p) (hp : paso ent k p = .ok (k', o)) :
    Hilos pid (as ++ (k.movimiento ent p).admitido.toList) k' := by
  have hm := paso_mueve hp
  refine ⟨(paso_crea hp).asignado h.asignado, ?_, fun e he => ?_⟩
  · exact hm.conocidos h.conocidos (fun e he => admitido_mem he) fun e he => movimiento_toca_mem he
  · by_cases hviejo : e ∈ k.listaTcbs
    · obtain ⟨hvivo, -⟩ := vivo_antes h.asignado hp hviejo he
      by_cases hfin : ∃ hs b, k.movimiento ent p = .termina hs b
      · obtain ⟨hs, b, hter⟩ := hfin
        have haj := hd.termina_ajeno h.asignado hter hp
        have hno : (k.movimiento ent p).admitido = none := by
          rw [hter]
          rfl
        rw [hno, Option.toList_none, List.append_nil]
        refine (h.sitio e hvivo).igual ?_ ?_
        · exact congrArg TCB.estadoHilo (haj.tcb e hvivo)
        · show k'.listaReady.count e = k.listaReady.count e
          rw [← List.count_filter hvivo, haj.ready, List.count_filter hvivo]
      · refine hm.sitio h.asignado.hilos hviejo (h.sitio e hvivo)
          (fun hs b hter => hfin ⟨hs, b, hter⟩) (fun hadm => ?_) fun htoca => hquieto e htoca hvivo
        exact hd.2.1 e hadm (hiloVivo_iff.mp hvivo).2.2
    · exact hm.sitio_nuevo h.conocidos hviejo (hiloVivo_iff.mp he).1

/-- A BLOCKED thread stays BLOCKED in a step that does not queue it or block it. -/
theorem Hilos.sigue_bloqueado (h : Hilos pid as k) (hd : k.Disciplina ent pid as p)
    (hp : paso ent k p = .ok (k', o)) {e : Dir} (hv : k.hiloVivo pid e = true)
    (hbl : (k.tcbs e).estadoHilo = .blocked) (htoca : (k.movimiento ent p).toca ≠ some e) :
    k'.hiloVivo pid e = true ∧ (k'.tcbs e).tid = (k.tcbs e).tid ∧
      (k'.tcbs e).estadoHilo = .blocked := by
  obtain ⟨hv', hid⟩ := vivo_despues h.asignado hd hp hv
  refine ⟨hv', congrArg Prod.snd hid, ?_⟩
  by_cases hfin : ∃ hs b, k.movimiento ent p = .termina hs b
  · obtain ⟨hs, b, hter⟩ := hfin
    rw [(hd.termina_ajeno h.asignado hter hp).tcb e hv, hbl]
  · have hno : (k.plani.estado e) ≠ .ready := by
      show (k.tcbs e).estadoHilo ≠ .ready
      rw [hbl]
      decide
    have hsigue := (paso_mueve hp).sigue h.asignado.hilos (hiloVivo_iff.mp hv).1
      ((h.sitio e hv).fuera hno).1 (fun hs b hter => hfin ⟨hs, b, hter⟩) htoca
    exact hsigue.trans hbl

end LastOfC.Kernel
