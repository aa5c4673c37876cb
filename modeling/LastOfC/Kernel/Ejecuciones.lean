import LastOfC.Kernel.EfectosDespacho

/-!
# Runs that go on

The other half of the `_ok` lemmas: from a state where an operation can go on, what it runs to.
`crearHilo_vuelve_iff` says exactly when `crear_hilo` returns, and `confirmacionCrearHilo_vuelve`
that the confirmation of a known thread does, with `mutex` free.
-/

namespace LastOfC.Kernel

open Imp

variable {α : Type} {k k' : Estado} {pid tid : Uint32} {p : Dir}

/-! ## Primitives -/

/-- The state after `sem_wait` and `sem_post`. -/
def Estado.trasCerrojo (k : Estado) : Estado :=
  k.conCerrojo k.mutex (k.valoresMutex ++ [k.mutex - 1] ++ [k.mutex])

theorem semWaitMutex_run (hk : 0 < k.mutex) :
    semWaitMutex.run k = .ok () (k.conCerrojo (k.mutex - 1) (k.valoresMutex ++ [k.mutex - 1])) := by
  show (if k.mutex = 0 then (throw .espera : Op Unit) else
    modify fun s => s.conCerrojo (s.mutex - 1) (s.valoresMutex ++ [s.mutex - 1])).run k = _
  rw [if_neg (Nat.pos_iff_ne_zero.mp hk)]
  rfl

theorem semWaitMutex_espera (hk : k.mutex = 0) : semWaitMutex.run k = .error .espera k := by
  show (if k.mutex = 0 then (throw .espera : Op Unit) else
    modify fun s => s.conCerrojo (s.mutex - 1) (s.valoresMutex ++ [s.mutex - 1])).run k = _
  rw [if_pos hk]
  rfl

/-- A part under the lock that leaves the semaphore alone. -/
theorem conMutex_run {x : Op α} {a : α} (hk : 0 < k.mutex)
    (hx : x.run (k.conCerrojo (k.mutex - 1) (k.valoresMutex ++ [k.mutex - 1])) = .ok a k')
    (hk' : k'.mutex = k.mutex - 1) :
    (conMutex x).run k = .ok a (k'.conCerrojo k.mutex (k'.valoresMutex ++ [k.mutex])) := by
  have hsuma : k'.mutex + 1 = k.mutex := by omega
  unfold conMutex
  rw [bind_run (semWaitMutex_run hk), bind_run hx]
  show EStateM.Result.ok a (k'.conCerrojo (k'.mutex + 1) (k'.valoresMutex ++ [k'.mutex + 1])) = _
  rw [hsuma]

/-- A part under the lock that waits for ever. -/
theorem conMutex_espera (x : Op α) (hk : k.mutex = 0) :
    (conMutex x).run k = .error .espera k := by
  unfold conMutex
  exact bind_error (semWaitMutex_espera hk)

/-- A part under the lock that returned found it free. -/
theorem mutex_pos_of_conMutex {x : Op α} {a : α} (h : (conMutex x).run k = .ok a k') :
    0 < k.mutex := by
  by_contra hno
  have hcero : k.mutex = 0 := by omega
  rw [conMutex_espera x hcero] at h
  cases h

theorem leer_run (f : Estado → α) : (leer f).run k = .ok (f k) k := rfl

theorem copiarTid_run (n : Uint32) : (copiarTid n).run k = .ok k.proximo { k with
    proximo := k.proximo + 1
    uint32s := Function.update k.uint32s k.proximo n } := rfl

theorem desref_run (p : Dir) : (desref (some p)).run k = .ok p k := rfl

/-- The searches under the lock. -/
theorem buscarProceso_run (hk : 0 < k.mutex) :
    (conMutex (leer (·.buscarProceso pid))).run k = .ok (k.buscarProceso pid) k.trasCerrojo :=
  conMutex_run hk (leer_run _) rfl

theorem buscarTcbs_run (hk : 0 < k.mutex) :
    (conMutex (leer (·.buscarTcbs tid pid))).run k = .ok (k.buscarTcbs tid pid) k.trasCerrojo :=
  conMutex_run hk (leer_run _) rfl

theorem agregarBlocked_run {h : Dir} (hk : 0 < k.mutex) :
    (conMutex (modify (·.agregarBlocked h))).run k = .ok () (k.trasCerrojo.agregarBlocked h) :=
  conMutex_run hk (modify_run _) rfl

/-! ## `crear_hilo` -/

theorem agregarTid_run {d : Dir} {tids : List Puntero} (h : (k.pcbs p).listaTid = some tids) :
    (agregarTid p d).run k = .ok ()
      (k.modPcb p fun q => { q with listaTid := some (tids ++ [.bloque d]) }) := by
  unfold agregarTid
  rw [bind_run (leer_run _)]
  simp only [h]
  rfl

/-- `crear_hilo` returns if its process is in `lista_procesos`, with its `lista_tid`, and
`cola_new` is not empty. -/
theorem crearHilo_vuelve {q : Dir} {tids : List Puntero} {resto : List Dir} (hk : 0 < k.mutex)
    (hp : k.buscarProceso pid = some p) (ht : (k.pcbs p).listaTid = some tids)
    (hq : k.colaNew = q :: resto) : ∃ k', (crearHilo pid).run k = .ok () k' := by
  have hpop : ∀ s : Estado, s.colaNew = q :: resto →
      popColaNew.run s = .ok (some q) { s with colaNew := resto } := by
    intro s hs
    unfold popColaNew
    rw [bind_run get_run]
    simp only [hs]
    rfl
  unfold crearHilo
  refine exists_bind_run (buscarProceso_run hk) ?_
  rw [hp]
  refine exists_bind_run (desref_run p) (exists_bind_run (leer_run _) ?_)
  refine exists_bind_run (copiarTid_run _) ?_
  refine exists_bind_run (conMutex_run hk (agregarTid_run ht) rfl) ?_
  exact exists_bind_run (hpop _ hq) ⟨_, rfl⟩

/-- `crear_hilo` stops before it posts: the process is unknown, its `lista_tid` was destroyed, or
`cola_new` is empty. -/
def Estado.CrearHiloCae (k : Estado) (pid : Uint32) : Prop :=
  (∀ p, k.buscarProceso pid = some p → (k.pcbs p).listaTid = none) ∨ k.colaNew = []

/-- Exactly when `crear_hilo` returns. -/
theorem crearHilo_vuelve_iff :
    (∃ k', (crearHilo pid).run k = .ok () k') ↔ 0 < k.mutex ∧ ¬ k.CrearHiloCae pid := by
  constructor
  · rintro ⟨k', hr⟩
    obtain ⟨p, q, resto, tids, m, vs, hp, hq, ht, -⟩ := crearHilo_ok hr
    unfold crearHilo at hr
    obtain ⟨a, k₁, hb, -⟩ := bind_ok.mp hr
    refine ⟨mutex_pos_of_conMutex hb, ?_⟩
    rintro (hcae | hcae)
    · rw [hcae p hp] at ht
      cases ht
    · rw [hcae] at hq
      cases hq
  · rintro ⟨hk, hno⟩
    obtain ⟨hlista, hcola⟩ := not_or.mp hno
    push Not at hlista
    obtain ⟨p, hp, ht⟩ := hlista
    obtain ⟨tids, ht⟩ := Option.ne_none_iff_exists'.mp ht
    obtain ⟨q, resto, hq⟩ := List.exists_cons_of_ne_nil hcola
    exact crearHilo_vuelve hk hp ht hq

/-- `confirmacion_crear_hilo` of a known thread returns, if the lock is free. -/
theorem confirmacionCrearHilo_vuelve {h : Dir} (hk : 0 < k.mutex)
    (hb : k.buscarTcbs tid pid = some h) :
    ∃ k', (confirmacionCrearHilo pid tid).run k = .ok () k' := by
  have hmod : (modify (·.agregarReady h) : Op Unit).run
      (k.conCerrojo (k.mutex - 1) (k.valoresMutex ++ [k.mutex - 1])) =
      .ok () ((k.conCerrojo (k.mutex - 1) (k.valoresMutex ++ [k.mutex - 1])).agregarReady h) := rfl
  unfold confirmacionCrearHilo
  refine exists_bind_run (leer_run _) ?_
  rw [hb]
  exact ⟨_, conMutex_run hk hmod rfl⟩

end LastOfC.Kernel
