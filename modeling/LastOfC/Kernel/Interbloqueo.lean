import LastOfC.Lib.WaitFor
import LastOfC.Kernel.Turnos

/-!
# Threads that wait for each other

The mutexes of a process allocate themselves to its threads: `esperas` says which thread waits for
which one, and who owns it. A mutex is its position in the list, with its name.

* `Turnos.asigna`: each step of the kernel is a step of `WaitFor.Step`. The threads that wait do
  not run, so they take and release nothing.
* `sin_interbloqueo`: if each `MUTEX_LOCK` asks for a mutex above all those that its thread owns,
  in some order on the names, then no threads ever wait for each other.
* `interbloqueo_permanente`: threads that wait for each other are BLOCKED for ever.
-/

namespace LastOfC.Kernel

open Imp Trace Planificacion KeyedList WaitFor

variable {ent : Entorno} {k k' : Estado} {p : Paso} {o : List Paquete} {pid : Uint32}
  {as : List Dir} {ms : List TMutex} {i j : Nat} {l n : TMutex} {t u : Uint32} {c : Cadena}
  {rs gs : Nat → List Uint32}

/-- Who waits for which mutex, and who owns it. -/
def esperas (ms : List TMutex) : WaitFor Uint32 (Nat × Cadena) where
  waits t r := ∃ l, ms[r.1]? = some l ∧ l.recurso = r.2 ∧ t ∈ l.bloqueadosMutex
  owns t r := ∃ l, ms[r.1]? = some l ∧ l.recurso = r.2 ∧ l.tid = t ∧ t ≠ sinHilo

/-- The packet of a `MUTEX_LOCK`. -/
def Paso.lock : Paso → Option TMutexTodos
  | .syscall (.mutexLock d) => some d
  | _ => none

/-- A `MUTEX_LOCK` of the process asks for a mutex above all those that its thread owns. -/
def Estado.PideArriba {α : Type} [LT α] (rango : Cadena → α) (pid : Uint32) (k : Estado)
    (p : Paso) : Prop :=
  ∀ d ∈ p.lock, d.PID = pid → ∀ l ∈ k.mutexesDe pid, l.tid = d.TID →
    rango l.recurso < rango d.recurso

instance {α : Type} [LT α] [DecidableLT α] (rango : Cadena → α) :
    Decidable (k.PideArriba rango pid p) :=
  Option.decidableForallMem _

/-- No threads of the process wait for each other. From each one that waits, a chain of owners
leads to a thread of the process that waits for no mutex. -/
structure SinInterbloqueo (pid : Uint32) (k : Estado) : Prop where
  sinNudo : ∀ D, (esperas (k.mutexesDe pid)).Knot D → D = ∅
  libre : ∀ t ∈ enEspera (k.mutexesDe pid), ∃ h, k.hiloVivo pid h = true ∧
    (k.tcbs h).tid ∉ enEspera (k.mutexesDe pid) ∧
      Relation.TransGen (esperas (k.mutexesDe pid)).Blocks t (k.tcbs h).tid

/-- The threads of `D` wait for each other, and are BLOCKED. -/
structure Atrapados (pid : Uint32) (D : Set Uint32) (k : Estado) : Prop where
  nudo : (esperas (k.mutexesDe pid)).Knot D
  bloqueados : ∀ t ∈ D, ∃ h, k.buscarTcbs t pid = some h ∧ (k.tcbs h).estadoHilo = .blocked

/-! ## The mutexes as resources -/

theorem exists_waits_iff : (∃ r, (esperas ms).waits t r) ↔ t ∈ enEspera ms := by
  constructor
  · rintro ⟨r, l, hl, -, ht⟩
    exact mem_enEspera (List.mem_of_getElem? hl) ht
  · intro ht
    obtain ⟨l, hl, ht⟩ := List.mem_flatMap.mp ht
    obtain ⟨i, hi⟩ := List.mem_iff_getElem?.mp hl
    exact ⟨(i, l.recurso), l, hi, rfl, ht⟩

theorem idle_iff : (esperas ms).Idle t ↔ t ∉ enEspera ms := by
  rw [← exists_waits_iff, not_exists]
  rfl

theorem esperas_finite : {r | ∃ t, (esperas ms).waits t r}.Finite := by
  refine (List.finite_toSet (ms.zipIdx.map fun x => (x.2, x.1.recurso))).subset ?_
  rintro ⟨i, c⟩ ⟨t, l, hi, rfl, -⟩
  exact List.mem_map.mpr ⟨(l, i), List.mem_zipIdx_iff_getElem?.mpr hi, rfl⟩

theorem esperas_exclusive : (esperas ms).Exclusive := by
  rintro t u r ⟨l, hl, -, rfl, -⟩ ⟨l', hl', -, rfl, -⟩
  rw [hl] at hl'
  cases hl'
  rfl

theorem waits_at (hi : ms[i]? = some l) :
    (esperas ms).waits t (i, c) ↔ l.recurso = c ∧ t ∈ l.bloqueadosMutex := by
  simp [esperas, hi]

theorem owns_at (hi : ms[i]? = some l) :
    (esperas ms).owns t (i, c) ↔ l.recurso = c ∧ l.tid = t ∧ t ≠ sinHilo := by
  simp [esperas, hi]

theorem waits_set_ne (hj : j ≠ i) :
    (esperas (ms.set i n)).waits t (j, c) ↔ (esperas ms).waits t (j, c) := by
  simp [esperas, Ne.symm hj]

theorem owns_set_ne (hj : j ≠ i) :
    (esperas (ms.set i n)).owns t (j, c) ↔ (esperas ms).owns t (j, c) := by
  simp [esperas, Ne.symm hj]

theorem getElem?_set_at (hi : ms[i]? = some l) : (ms.set i n)[i]? = some n :=
  List.getElem?_set_self (List.getElem?_eq_some_iff.mp hi).1

/-- A write that keeps the name and the queue. -/
theorem waits_set (hi : ms[i]? = some l) (hn : n.recurso = l.recurso)
    (hcola : n.bloqueadosMutex = l.bloqueadosMutex) (t : Uint32) (r : Nat × Cadena) :
    (esperas (ms.set i n)).waits t r ↔ (esperas ms).waits t r := by
  obtain ⟨j, c⟩ := r
  by_cases hj : j = i
  · subst hj
    rw [waits_at (getElem?_set_at hi), waits_at hi, hn, hcola]
  · exact waits_set_ne hj

/-- A write that keeps the name and the owner. -/
theorem owns_set (hi : ms[i]? = some l) (hn : n.recurso = l.recurso) (htid : n.tid = l.tid)
    (t : Uint32) (r : Nat × Cadena) :
    (esperas (ms.set i n)).owns t r ↔ (esperas ms).owns t r := by
  obtain ⟨j, c⟩ := r
  by_cases hj : j = i
  · subst hj
    rw [owns_at (getElem?_set_at hi), owns_at hi, hn, htid]
  · exact owns_set_ne hj

/-- A write that keeps the name: who owns something else than the mutex at `i`. -/
theorem owns_set_iff (hi : ms[i]? = some l) (hn : n.recurso = l.recurso) (r : Nat × Cadena) :
    (esperas (ms.set i n)).owns t r ↔
      ((esperas ms).owns t r ∧ r ≠ (i, l.recurso)) ∨
        (n.tid = t ∧ t ≠ sinHilo ∧ r = (i, l.recurso)) := by
  obtain ⟨j, c⟩ := r
  by_cases hj : j = i
  · subst hj
    rw [owns_at (getElem?_set_at hi), owns_at hi, hn, Prod.mk.injEq]
    grind
  · rw [owns_set_ne hj]
    simp [hj]

/-! ## The writes to a mutex -/

theorem getElem?_crear (recurso : Cadena) : (ms ++ [⟨recurso, sinHilo, []⟩])[j]? = some l ↔
    ms[j]? = some l ∨ (j = ms.length ∧ ⟨recurso, sinHilo, []⟩ = l) := by
  rw [List.getElem?_append, List.getElem?_singleton]
  grind

theorem owns_crear (recurso : Cadena) {r : Nat × Cadena} :
    (esperas (ms ++ [⟨recurso, sinHilo, []⟩])).owns t r ↔ (esperas ms).owns t r := by
  refine exists_congr fun l => ?_
  rw [getElem?_crear]
  grind

/-- Nobody waits for a new mutex, and nobody owns it. -/
theorem step_crear (recurso : Cadena) :
    (esperas ms).Step (esperas (ms ++ [⟨recurso, sinHilo, []⟩])) none := by
  refine .skip (fun t r => exists_congr fun l => ?_) fun t r => owns_crear recurso
  rw [getElem?_crear]
  grind

theorem recurso_of_buscarMutex (h : buscarMutex ms c = some (i, l)) : l.recurso = c := by
  have hpos := search_pos h
  exact of_decide_eq_true hpos

/-- The caller takes a free mutex. -/
theorem step_toma (hi : ms[i]? = some l) (hlibre : l.tid = sinHilo) (ht : t ≠ sinHilo)
    (hidle : t ∉ enEspera ms) :
    (esperas ms).Step (esperas (ms.set i { l with tid := t })) none := by
  refine .acquire t (i, l.recurso) (idle_iff.mpr hidle) (waits_set hi rfl rfl) fun u r => ?_
  rw [owns_set_iff (n := { l with tid := t }) hi rfl]
  have hnadie : ¬ (esperas ms).owns u (i, l.recurso) := fun hu => by
    obtain ⟨-, htid, hreal⟩ := (owns_at hi).mp hu
    exact hreal (htid.symm.trans hlibre)
  grind

/-- The caller waits. -/
theorem step_espera (hi : ms[i]? = some l) :
    (esperas ms).Step (esperas (ms.set i { l with bloqueadosMutex := l.bloqueadosMutex ++ [t] }))
      (some (t, (i, l.recurso))) := by
  refine .request t (i, l.recurso) (fun u r => ?_) (owns_set hi rfl rfl)
  obtain ⟨j, c⟩ := r
  by_cases hj : j = i
  · subst hj
    rw [waits_at (getElem?_set_at hi), waits_at hi, List.mem_append, List.mem_singleton,
      Prod.mk.injEq]
    grind
  · rw [waits_set_ne hj]
    simp [hj]

/-- The owner leaves the mutex free. -/
theorem step_suelta (hi : ms[i]? = some l) (hidle : l.tid ∉ enEspera ms) :
    (esperas ms).Step (esperas (ms.set i { l with tid := sinHilo })) none := by
  refine .release l.tid (i, l.recurso) (idle_iff.mpr hidle) (waits_set hi rfl rfl) fun u r => ?_
  rw [owns_set_iff (n := { l with tid := sinHilo }) hi rfl]
  have hdueno : (esperas ms).owns u (i, l.recurso) → u = l.tid := fun hu =>
    ((owns_at hi).mp hu).2.1.symm
  grind

/-- The owner gives the mutex to the first that waits. -/
theorem step_pasa {resto : List Uint32} (hi : ms[i]? = some l)
    (hcola : l.bloqueadosMutex = t :: resto) (hidle : l.tid ∉ enEspera ms)
    (hreal : l.tid ≠ sinHilo) (ht : t ≠ sinHilo) (hd : (enEspera ms).Nodup) :
    (esperas ms).Step (esperas (ms.set i { l with tid := t, bloqueadosMutex := resto })) none := by
  have hfuera : t ∉ enEspera (ms.set i { l with tid := t, bloqueadosMutex := resto }) :=
    no_vuelve hi hcola hd rfl
  refine .pass l.tid t (i, l.recurso) (idle_iff.mpr hidle) ?_ ?_ (fun u r => ?_) fun u r => ?_
  · exact (owns_at hi).mpr ⟨rfl, rfl, hreal⟩
  · rintro ⟨j, c⟩ hw
    by_cases hj : j = i
    · subst hj
      rw [((waits_at hi).mp hw).1]
    · exact absurd (exists_waits_iff.mp ⟨(j, c), (waits_set_ne hj).mpr hw⟩) hfuera
  · obtain ⟨j, c⟩ := r
    by_cases hj : j = i
    · subst hj
      have hcabeza : t ∉ resto := fun hmem =>
        hfuera (mem_enEspera (List.mem_of_getElem? (getElem?_set_at hi)) hmem)
      rw [waits_at (getElem?_set_at hi), waits_at hi, hcola]
      grind
    · rw [waits_set_ne hj, iff_self_and]
      rintro hw rfl
      exact hfuera (exists_waits_iff.mp ⟨(j, c), (waits_set_ne hj).mpr hw⟩)
  · rw [owns_set_iff (n := { l with tid := t, bloqueadosMutex := resto }) hi rfl]
    grind

/-! ## One step -/

/-- A step of the kernel is the step `q` of the allocator. It waits only for a `MUTEX_LOCK`, and
only threads of the process get a mutex. -/
structure Asigna (pid : Uint32) (k : Estado) (p : Paso) (k' : Estado)
    (q : Option (Uint32 × (Nat × Cadena))) : Prop where
  paso : (esperas (k.mutexesDe pid)).Step (esperas (k'.mutexesDe pid)) q
  pedido : ∀ t r, q = some (t, r) → ∃ d ∈ p.lock, d.PID = pid ∧ d.TID = t ∧ d.recurso = r.2
  dueno : ∀ t r, (esperas (k'.mutexesDe pid)).owns t r →
    (esperas (k.mutexesDe pid)).owns t r ∨ ∃ h, k.hiloVivo pid h = true ∧ (k.tcbs h).tid = t

theorem Asigna.igual (h : k'.mutexesDe pid = k.mutexesDe pid) : Asigna pid k p k' none where
  paso := by
    rw [h]
    exact .skip (fun _ _ => Iff.rfl) fun _ _ => Iff.rfl
  pedido _ _ hq := by cases hq
  dueno t r hr := .inl (h ▸ hr)

/-- A write to the mutex at `i` that keeps its name. -/
theorem Asigna.escribe {q : Option (Uint32 × (Nat × Cadena))}
    (hm : k'.mutexesDe pid = (k.mutexesDe pid).set i n) (hi : (k.mutexesDe pid)[i]? = some l)
    (hn : n.recurso = l.recurso)
    (hs : (esperas (k.mutexesDe pid)).Step (esperas ((k.mutexesDe pid).set i n)) q)
    (hq : ∀ t r, q = some (t, r) → ∃ d ∈ p.lock, d.PID = pid ∧ d.TID = t ∧ d.recurso = r.2)
    (hdueno : n.tid = l.tid ∨ n.tid = sinHilo ∨
      ∃ h, k.hiloVivo pid h = true ∧ (k.tcbs h).tid = n.tid) : Asigna pid k p k' q where
  paso := hm ▸ hs
  pedido := hq
  dueno t r hr := by
    rw [hm, owns_set_iff hi hn] at hr
    rcases hr with ⟨hr, -⟩ | ⟨rfl, hreal, rfl⟩
    · exact .inl hr
    rcases hdueno with htid | hno | hv
    · exact .inl ((owns_at hi).mpr ⟨rfl, htid.symm, hreal⟩)
    · exact absurd hno hreal
    · exact .inr hv

theorem Turnos.asigna_mutexLock {d : TMutexTodos} (h : Turnos pid rs gs k)
    (hT : k.TidsDistintos pid) (hd : k.Disciplina ent pid as (.syscall (.mutexLock d)))
    (hpid : d.PID = pid) (hp : paso ent k (.syscall (.mutexLock d)) = .ok (k', o)) :
    ∃ q, Asigna pid k (.syscall (.mutexLock d)) k' q := by
  obtain ⟨e, hbus, hv, hexec⟩ := hd.emisor hpid rfl
  have htid : (k.tcbs e).tid = d.TID := (pid_of_buscarTcbs hbus).2
  have hidle : d.TID ∉ enEspera (k.mutexesDe pid) := htid ▸ h.no_espera hT hv hexec
  have hreal : d.TID ≠ sinHilo := htid ▸ hT.2 e (hiloVivo_iff.mp hv).1 (hiloVivo_iff.mp hv).2.2
  obtain ⟨q, i, l, m, vs, hq, hbm, hcasos⟩ := mutexLock_ok (paso_ok hp)
  rw [hpid] at hq
  rw [← mutexesDe_of_buscar hq] at hbm
  have hi := (mem_of_buscarMutex hbm).1
  rcases hcasos with ⟨hlibre, hk'⟩ | ⟨g, -, -, hk'⟩
  · have hm : k'.mutexesDe pid = (k.mutexesDe pid).set i { l with tid := d.TID } := by
      rw [hk']
      exact mutexesDe_setMutex hq
    exact ⟨none, .escribe hm hi rfl (step_toma hi hlibre hreal hidle) (fun _ _ hno => by cases hno)
      (.inr (.inr ⟨e, hv, htid⟩))⟩
  · have hm : k'.mutexesDe pid = (k.mutexesDe pid).set i { l with
        bloqueadosMutex := l.bloqueadosMutex ++ [d.TID] } := by
      rw [hk']
      exact mutexesDe_setMutex hq
    refine ⟨_, .escribe hm hi rfl (step_espera hi) ?_ (.inl rfl)⟩
    rintro t r hr
    cases hr
    exact ⟨d, rfl, hpid, rfl, (recurso_of_buscarMutex hbm).symm⟩

theorem Turnos.asigna_mutexUnlock {d : TMutexTodos} (h : Turnos pid rs gs k)
    (hT : k.TidsDistintos pid) (hd : k.Disciplina ent pid as (.syscall (.mutexUnlock d)))
    (hpid : d.PID = pid) (hp : paso ent k (.syscall (.mutexUnlock d)) = .ok (k', o)) :
    Asigna pid k (.syscall (.mutexUnlock d)) k' none := by
  obtain ⟨e, hbus, hv, hexec⟩ := hd.emisor hpid rfl
  have htid : (k.tcbs e).tid = d.TID := (pid_of_buscarTcbs hbus).2
  have hidle : d.TID ∉ enEspera (k.mutexesDe pid) := htid ▸ h.no_espera hT hv hexec
  have hreal : ∀ {g : Dir}, k.hiloVivo pid g = true → (k.tcbs g).tid ≠ sinHilo := fun hg =>
    hT.2 _ (hiloVivo_iff.mp hg).1 (hiloVivo_iff.mp hg).2.2
  obtain ⟨q, i, l, m, vs, hq, hbm, hcasos⟩ := mutexUnlock_ok (paso_ok hp)
  rw [hpid] at hq
  rw [← mutexesDe_of_buscar hq] at hbm
  obtain ⟨hi, hmem⟩ := mem_of_buscarMutex hbm
  rcases hcasos with ⟨-, hk'⟩ | ⟨hown, -, hk'⟩ | ⟨t, resto, hown, hcola, hcasos⟩
  · exact .igual (hk' ▸ rfl)
  · have hm : k'.mutexesDe pid = (k.mutexesDe pid).set i { l with tid := sinHilo } := by
      rw [hk']
      exact mutexesDe_setMutex hq
    exact .escribe hm hi rfl (step_suelta hi (hown ▸ hidle)) (fun _ _ hno => by cases hno)
      (.inr (.inl rfl))
  · obtain ⟨g, hbusg, hvg, htg, -⟩ := h.buscar hT (mem_enEspera hmem (hcola ▸ List.mem_cons_self))
    rcases hcasos with ⟨hno, -⟩ | ⟨g', -, hk'⟩
    · rw [hpid, hbusg] at hno
      cases hno
    have hm : k'.mutexesDe pid = (k.mutexesDe pid).set i { l with
        tid := t, bloqueadosMutex := resto } := by
      rw [hk']
      exact mutexesDe_setMutex hq
    have hs := step_pasa hi hcola (hown ▸ hidle) (hown ▸ htid ▸ hreal hv) (htg ▸ hreal hvg)
      h.cerrojos.unLugar
    exact .escribe hm hi rfl hs (fun _ _ hno => by cases hno) (.inr (.inr ⟨g, hvg, htg⟩))

theorem asigna_mutexCreate {d : TMutexTodos} (hpid : d.PID = pid)
    (hp : paso ent k (.syscall (.mutexCreate d)) = .ok (k', o)) :
    Asigna pid k (.syscall (.mutexCreate d)) k' none := by
  obtain ⟨q, m, vs, hq, hk'⟩ := mutexCreate_ok (paso_ok hp)
  rw [hpid] at hq
  have hm : k'.mutexesDe pid = k.mutexesDe pid ++ [⟨d.recurso, sinHilo, []⟩] := by
    rw [hk', mutexesDe_of_buscar hq]
    exact mutexesDe_modPcb (f := fun pcb => { pcb with
      mutex := pcb.mutex ++ [⟨d.recurso, sinHilo, []⟩] }) hq rfl
  refine ⟨hm ▸ step_crear d.recurso, (fun _ _ hno => by cases hno), fun t r hr => .inl ?_⟩
  exact (owns_crear d.recurso).mp (hm ▸ hr)

/-- **Refinement**: each step of the kernel is a step of the allocator. -/
theorem Turnos.asigna (h : Turnos pid rs gs k) (hT : k.TidsDistintos pid) (hh : Hilos pid as k)
    (hd : k.Disciplina ent pid as p) (hp : paso ent k p = .ok (k', o)) :
    ∃ q, Asigna pid k p k' q := by
  by_cases htoca : p.tocaMutex pid = true
  · cases p with
    | syscall y =>
      cases y with
      | mutexCreate d => exact ⟨none, asigna_mutexCreate (of_decide_eq_true htoca) hp⟩
      | mutexLock d => exact h.asigna_mutexLock hT hd (of_decide_eq_true htoca) hp
      | mutexUnlock d => exact ⟨none, h.asigna_mutexUnlock hT hd (of_decide_eq_true htoca) hp⟩
      | _ => cases htoca
    | _ => cases htoca
  · exact ⟨none, .igual (paso_mutex_igual hh.asignado hd ((Bool.not_eq_true _).mp htoca) hp)⟩

/-! ## The order on the mutexes -/

/-- The waits follow the order, and the owners are threads of the process. -/
structure Ordenados {α : Type} [Preorder α] (rango : Cadena → α) (pid : Uint32) (k : Estado) :
    Prop where
  orden : (esperas (k.mutexesDe pid)).Ordered fun r => rango r.2
  duenos : ∀ t r, (esperas (k.mutexesDe pid)).owns t r →
    ∃ h, k.hiloVivo pid h = true ∧ (k.tcbs h).tid = t

section Orden

variable {α : Type} [Preorder α] {rango : Cadena → α}

theorem Ordenados.tras_paso (h : Ordenados rango pid k) (hh : Hilos pid as k)
    (hd : k.Disciplina ent pid as p) (hp : paso ent k p = .ok (k', o))
    {q : Option (Uint32 × (Nat × Cadena))} (hasigna : Asigna pid k p k' q)
    (harriba : k.PideArriba rango pid p) : Ordenados rango pid k' := by
  refine ⟨h.orden.step hasigna.paso ?_, fun t r hr => ?_⟩
  · rintro t r hq s ⟨l, hl, hrec, htid, -⟩
    obtain ⟨d, hlock, hpid, rfl, hd⟩ := hasigna.pedido t r hq
    have hlt := harriba d hlock hpid l (List.mem_of_getElem? hl) htid
    rwa [hrec, hd] at hlt
  · obtain ⟨e, hv, rfl⟩ : ∃ e, k.hiloVivo pid e = true ∧ (k.tcbs e).tid = t :=
      (hasigna.dueno t r hr).elim (h.duenos t r) id
    obtain ⟨hv', hid⟩ := vivo_despues hh.asignado hd hp hv
    exact ⟨e, hv', congrArg Prod.snd hid⟩

theorem ordenados_inicio {tcbs : Dir → TCB} {pcbs : Dir → PCB} {uint32s : Dir → Uint32} :
    Ordenados rango pid (estadoInicial tcbs pcbs uint32s) :=
  have hvacio : (estadoInicial tcbs pcbs uint32s).mutexesDe pid = [] := rfl
  ⟨fun t r s ⟨l, hl, _⟩ => by simp [hvacio] at hl, fun t r ⟨l, hl, _⟩ => by simp [hvacio] at hl⟩

/-- A mutex that a thread waits for has an owner. -/
theorem Turnos.awaited_owned (h : Turnos pid rs gs k) {r : Nat × Cadena}
    (hr : (esperas (k.mutexesDe pid)).waits t r) : ∃ u, (esperas (k.mutexesDe pid)).owns u r := by
  obtain ⟨l, hl, hrec, ht⟩ := hr
  refine ⟨l.tid, l, hl, hrec, rfl, fun hlibre => ?_⟩
  rw [(h.cerrojos.sirve r.1 l hl).libre hlibre] at ht
  exact List.not_mem_nil ht

theorem Ordenados.sinInterbloqueo (h : Ordenados rango pid k) (ht : Turnos pid rs gs k) :
    SinInterbloqueo pid k := by
  refine ⟨fun D hD => h.orden.no_knot esperas_finite hD, fun t hesp => ?_⟩
  obtain ⟨u, hchain, hidle⟩ :=
    h.orden.exists_free esperas_finite (fun _ _ hr => ht.awaited_owned hr) t
  rw [idle_iff] at hidle
  rcases Relation.reflTransGen_iff_eq_or_transGen.mp hchain with rfl | hchain
  · exact absurd hesp hidle
  · obtain ⟨v, -, r, -, hown⟩ := Relation.TransGen.tail'_iff.mp hchain
    obtain ⟨e, hv, rfl⟩ := h.duenos u r hown
    exact ⟨e, hv, hidle, hchain⟩

end Orden

/-! ## The runs -/

section Corridas

variable {tcbs : Dir → TCB} {pcbs : Dir → PCB} {uint32s : Dir → Uint32}

/-- Along a run under the discipline, the threads and the mutexes are as they should. -/
theorem turnos_corrida {ps : List Paso}
    (hD : EveryStep (paso ent) (estadoInicial tcbs pcbs uint32s) ps fun pre k p =>
      k.Disciplina ent pid (admitidos ent (estadoInicial tcbs pcbs uint32s) pre) p)
    (hT : EveryState (paso ent) (estadoInicial tcbs pcbs uint32s) ps fun _ k =>
      k.TidsDistintos pid) :
    EveryState (paso ent) (estadoInicial tcbs pcbs uint32s) ps fun pre k =>
      Hilos pid (admitidos ent (estadoInicial tcbs pcbs uint32s) pre) k ∧
        Turnos pid (pedidosDelMutex ent (estadoInicial tcbs pcbs uint32s) pid pre)
          (concesionesDelMutex ent (estadoInicial tcbs pcbs uint32s) pid pre) k := by
  intro pre k hpre hk
  refine hk.invariant (I := fun pre k =>
    Hilos pid (admitidos ent (estadoInicial tcbs pcbs uint32s) pre) k ∧
      Turnos pid (pedidosDelMutex ent (estadoInicial tcbs pcbs uint32s) pid pre)
        (concesionesDelMutex ent (estadoInicial tcbs pcbs uint32s) pid pre) k)
    (hD.and hT.everyStep |>.restrict hpre) ⟨hilos_inicio, turnos_inicio⟩ ?_
  rintro q k₁ p k₂ o - hq ⟨hh, ht⟩ ⟨hd, hTk⟩ hp
  have hh' := hh.tras_paso hd (ht.quieto hTk hd) hp
  have ht' := ht.tras_paso hTk hh hd hp
  constructor
  · rwa [admitidos, history_snoc hq hp]
  · convert ht' using 1
    · funext i
      exact history_snoc hq hp
    · funext i
      exact history_snoc hq hp

/-- **Deadlock freedom by lock order.** Along each run under the discipline whose `MUTEX_LOCK`s ask
for a mutex above all those that their thread owns, no threads of the process ever wait for each
other, and each thread that waits does so, in the end, for one that waits for no mutex. -/
theorem sin_interbloqueo {α : Type} [Preorder α] (rango : Cadena → α) (ps : List Paso)
    (hD : EveryStep (paso ent) (estadoInicial tcbs pcbs uint32s) ps fun pre k p =>
      k.Disciplina ent pid (admitidos ent (estadoInicial tcbs pcbs uint32s) pre) p)
    (hT : EveryState (paso ent) (estadoInicial tcbs pcbs uint32s) ps fun _ k =>
      k.TidsDistintos pid)
    (hR : EveryStep (paso ent) (estadoInicial tcbs pcbs uint32s) ps fun _ k p =>
      k.PideArriba rango pid p) :
    EveryState (paso ent) (estadoInicial tcbs pcbs uint32s) ps fun _ k =>
      SinInterbloqueo pid k := by
  have hI := turnos_corrida hD hT
  intro pre k hpre hk
  have hO : Ordenados rango pid k := by
    refine hk.invariant (((hD.and hT.everyStep).and hI.everyStep).and hR |>.restrict hpre)
      (I := fun _ => Ordenados rango pid) ordenados_inicio ?_
    rintro q k₁ p k₂ o - - hO ⟨⟨⟨hd, hTk⟩, hh, ht⟩, hr⟩ hp
    obtain ⟨_, hasigna⟩ := ht.asigna hTk hh hd hp
    exact hO.tras_paso hh hd hp hasigna hr
  exact hO.sinInterbloqueo (hI pre k hpre hk).2

/-- The main thread of the process 1 owns the mutex `a`, and the other thread waits for it. Both
take the mutexes in the order of their names. -/
def enOrden : List Paso :=
  arranque ++ segundoHilo ++
    [.syscall (.mutexCreate ⟨1, 0, ['a']⟩), .syscall (.mutexCreate ⟨1, 0, ['b']⟩),
      .syscall (.mutexLock ⟨1, 0, ['a']⟩), .syscall (.mutexLock ⟨1, 0, ['b']⟩), .cortoPlazo,
      .syscall (.mutexLock ⟨1, 1, ['a']⟩)]

theorem sin_interbloqueo_enOrden :
    EveryState (paso entornoFifo) estadoCero enOrden fun _ k => SinInterbloqueo 1 k :=
  sin_interbloqueo (fun c => if c = ['a'] then 0 else 1) _
    (EveryStep.of_checkHistory
      (C := fun as (k : Estado) p => k.Disciplina entornoFifo 1 as p) (by decide +kernel))
    (EveryState.of_check (by decide +kernel)) (EveryStep.of_check (by decide +kernel))

/-- **A deadlock is for ever.** Along each run under the discipline, threads of the process that
wait for each other still do so in each later state, and are BLOCKED. -/
theorem interbloqueo_permanente (ps : List Paso)
    (hD : EveryStep (paso ent) (estadoInicial tcbs pcbs uint32s) ps fun pre k p =>
      k.Disciplina ent pid (admitidos ent (estadoInicial tcbs pcbs uint32s) pre) p)
    (hT : EveryState (paso ent) (estadoInicial tcbs pcbs uint32s) ps fun _ k =>
      k.TidsDistintos pid) (D : Set Uint32) {pre : List Paso} (hpre : pre <+: ps)
    (hk : Reaches (paso ent) (estadoInicial tcbs pcbs uint32s) pre k)
    (hnudo : (esperas (k.mutexesDe pid)).Knot D) :
    EveryState (paso ent) (estadoInicial tcbs pcbs uint32s) ps fun post k' =>
      pre <+: post → Atrapados pid D k' := by
  have hI := turnos_corrida hD hT
  intro post k' hpost hk' hle
  have hD' : (esperas (k'.mutexesDe pid)).Knot D := by
    refine hk'.invariant ((hD.and hT.everyStep).and hI.everyStep |>.restrict hpost)
      (I := fun q k => pre <+: q → (esperas (k.mutexesDe pid)).Knot D) (fun hnil => ?_) ?_ hle
    · obtain rfl := List.prefix_nil.mp hnil
      exact reaches_nil.mp hk ▸ hnudo
    · rintro q k₁ p k₂ o - hq hK ⟨⟨hd, hTk⟩, hh, ht⟩ hp hle
      rcases List.prefix_concat_iff.mp hle with rfl | hle
      · exact hk.unique (hq.snoc hp) ▸ hnudo
      · obtain ⟨_, hasigna⟩ := ht.asigna hTk hh hd hp
        exact (hK hle).step esperas_exclusive hasigna.paso
  refine ⟨hD', fun t ht => ?_⟩
  have hesp : t ∈ enEspera (k'.mutexesDe pid) := by
    by_contra hno
    exact hD'.not_idle ht (idle_iff.mpr hno)
  obtain ⟨e, hbus, -, -, hbl⟩ := (hI post k' hpost hk').2.buscar (hT post k' hpost hk') hesp
  exact ⟨e, hbus, hbl⟩

/-- Each of the two threads of the process 1 takes a mutex and asks for the one of the other. -/
def cruzados : List Paso :=
  arranque ++ segundoHilo ++
    [.syscall (.mutexCreate ⟨1, 0, ['a']⟩), .syscall (.mutexCreate ⟨1, 0, ['b']⟩),
      .syscall (.mutexLock ⟨1, 0, ['a']⟩), .cortoPlazo, .syscall (.mutexLock ⟨1, 1, ['b']⟩),
      .syscall (.mutexLock ⟨1, 0, ['b']⟩), .syscall (.mutexLock ⟨1, 1, ['a']⟩)]

/-- And another process comes. -/
def trasCruzados : List Paso := cruzados ++ [.syscall (.processCreate ⟨0, 0, ['a'], 32, 0⟩)]

theorem knot_cruzados :
    (esperas [⟨['a'], 0, [1]⟩, ⟨['b'], 1, [0]⟩]).Knot {0, 1} := by
  rintro t (rfl | rfl)
  · exact ⟨1, .inr rfl, (1, ['b']), ⟨_, rfl, rfl, by simp⟩, _, rfl, rfl, rfl, by decide⟩
  · exact ⟨0, .inl rfl, (0, ['a']), ⟨_, rfl, rfl, by simp⟩, _, rfl, rfl, rfl, by decide⟩

theorem interbloqueo_permanente_cruzados :
    (∃ k, Reaches (paso entornoFifo) estadoCero trasCruzados k) ∧
      EveryState (paso entornoFifo) estadoCero trasCruzados
        fun post k' => cruzados <+: post → Atrapados 1 {0, 1} k' := by
  obtain ⟨k, hk, hm⟩ : ∃ k, Reaches (paso entornoFifo) estadoCero cruzados k ∧
      k.mutexesDe 1 = [⟨['a'], 0, [1]⟩, ⟨['b'], 1, [0]⟩] :=
    reaches_of_map (g := fun k : Estado => k.mutexesDe 1) (by decide +kernel)
  obtain ⟨k', hk', -⟩ : ∃ k, Reaches (paso entornoFifo) estadoCero trasCruzados k ∧
      k.mutexesDe 1 = [⟨['a'], 0, [1]⟩, ⟨['b'], 1, [0]⟩] :=
    reaches_of_map (g := fun k : Estado => k.mutexesDe 1) (by decide +kernel)
  refine ⟨⟨k', hk'⟩, interbloqueo_permanente _ (EveryStep.of_checkHistory
      (C := fun as (k : Estado) p => k.Disciplina entornoFifo 1 as p) (by decide +kernel))
    (EveryState.of_check (by decide +kernel)) {0, 1} (List.prefix_append _ _) hk ?_⟩
  rw [hm]
  exact knot_cruzados

end Corridas

end LastOfC.Kernel
