import LastOfC.Kernel.Pasos

/-!
# Joins

`THREAD_JOIN` should leave its caller in `lista_blocked` until the thread that it names ends. It
writes its own tid into `tid_que_lo_bloqueo`, and not the tid that it waits for, so
`finalizar_hilo` of that thread does not find the caller. The joins in progress are a history
variable (`uniones`), and `uniones_corrida` says in which runs they are respected: no thread ends
while it joins, is joined or has a thread waiting for its own tid.
-/

namespace LastOfC.Kernel

open Trace Planificacion

variable {ent : Entorno} {k k' s : Estado} {p : Paso} {o : List Paquete}

/-- The join that a step begins: its caller, and the thread that it waits for. -/
def Estado.une (k : Estado) : Paso → Option (Dir × Dir)
  | .syscall (.threadJoin d) =>
    if k.terminado (k.buscarTcbs d.tid d.PID) then none
    else
      (k.buscarTcbs d.TID d.PID).bind fun t => (k.buscarTcbs d.tid d.PID).map fun j => (t, j)
  | _ => none

/-- The joins in progress after a step. A join ends with the thread that it waits for. -/
def trasUnion (ent : Entorno) (k : Estado) (p : Paso) (us : List (Dir × Dir)) : List (Dir × Dir) :=
  (us.filter fun u => u.2 ∉ (k.movimiento ent p).terminan) ++ (k.une p).toList

/-- The joins in progress after a run. -/
def uniones (ent : Entorno) (s : Estado) (ps : List Paso) : List (Dir × Dir) :=
  history (paso ent) (fun k p _ us => trasUnion ent k p us) s ps []

/-- The caller of each join is BLOCKED in `lista_blocked`. -/
def Estado.Esperan (k : Estado) (us : List (Dir × Dir)) : Prop :=
  ∀ u ∈ us, (k.tcbs u.1).estadoHilo = .blocked ∧ u.1 ∈ k.listaBlocked

/-- When the threads `hs` end, those that joined one of them go to `lista_ready`, and no others. -/
structure Estado.Despiertan (k : Estado) (us : List (Dir × Dir)) (hs : List Dir) (k' : Estado) :
    Prop where
  listos : ∀ t, t ∈ k'.listaReady.drop k.listaReady.length ↔ ∃ j ∈ hs, (t, j) ∈ us
  bloqueados : ∀ t, t ∈ k'.listaBlocked ↔ t ∈ k.listaBlocked ∧ ¬ ∃ j ∈ hs, (t, j) ∈ us

/-- The law along a run: each caller waits until the thread that it joined ends, and the end of
threads wakes those that joined them, and no others. -/
def UnionesRespetadas (ent : Entorno) (s : Estado) (ps : List Paso) : Prop :=
  EveryState (paso ent) s ps (fun pre k => k.Esperan (uniones ent s pre)) ∧
    EveryStep (paso ent) s ps fun pre k p => ∀ hs hayEspera k' o,
      k.movimiento ent p = .termina hs hayEspera → paso ent k p = .ok (k', o) →
        k.Despiertan (uniones ent s pre) hs k'

namespace Planificacion

variable {s s' : Planificacion} {m : Movimiento} {us : List (Dir × Dir)}

/-- The movement queues no thread that joins, and ends none that joins or is joined, or that a
blocked thread waits for by the tid in its TCB. -/
def DejaEsperar (us : List (Dir × Dir)) : Movimiento → Prop
  | .termina hs hayEspera => hayEspera = false ∧ ∀ u ∈ us, u.1 ∉ hs ∧ u.2 ∉ hs
  | .admite h => ∀ u ∈ us, h ≠ some u.1
  | .encola h | .duerme h => ∀ u ∈ us, u.1 ≠ h
  | .nada | .nace | .bloquea _ | .despacha | .gira => True

instance : Decidable (DejaEsperar us m) :=
  match m with
  | .termina _ _ => inferInstanceAs (Decidable (_ ∧ _))
  | .admite h => inferInstanceAs (Decidable (∀ u ∈ us, h ≠ some u.1))
  | .encola h | .duerme h => inferInstanceAs (Decidable (∀ u ∈ us, u.1 ≠ h))
  | .nada | .nace | .bloquea _ | .despacha | .gira => isTrue trivial

/-- The thread `t` waits where the scheduler does not see it. -/
structure Espera (s : Planificacion) (t : Dir) : Prop where
  hilo : t ∈ s.hilos
  estado : s.estado t = .blocked
  blocked : t ∈ s.blocked
  ready : t ∉ s.ready

/-- The threads that end under `DejaEsperar` wake none. -/
theorem Mueve.nadie_despierta {hs : List Dir} (h : s.Mueve (.termina hs false) s') :
    s'.ready = s.ready ∧ s'.blocked.Perm s.blocked ∧
      ∀ t, t ∉ hs → s'.estado t = s.estado t := by
  cases h with
  | @termina _ terminados despiertan blocked liberados _ estado n hhs hperm hespera _ hestado =>
    have hnadie : despiertan = [] := by
      by_contra hne
      exact absurd (hespera.mp hne) Bool.false_ne_true
    subst hnadie
    refine ⟨List.append_nil _, hperm, fun t ht => ?_⟩
    exact hestado t (fun hmem => ht ((hhs t).mp hmem)) List.not_mem_nil

theorem Mueve.espera (h : s.Mueve m s') (ha : s.Acotada) (hm : DejaEsperar us m)
    {u : Dir × Dir} (hu : u ∈ us) (ht : s.Espera u.1) : s'.Espera u.1 := by
  have hilo : u.1 ∈ s'.hilos := h.hilos_subset ht.hilo
  cases h with
  | nada hn => exact ⟨hilo, ht.estado, ht.blocked, ht.ready⟩
  | @nace d n hd hn =>
    have hne : u.1 ≠ d := Nat.ne_of_lt (Nat.lt_of_lt_of_le (ha _ ht.hilo) hd)
    refine ⟨hilo, ?_, ht.blocked, ht.ready⟩
    exact (Function.update_of_ne hne _ _).trans ht.estado
  | admite d =>
    refine ⟨hilo, ht.estado, ht.blocked, fun hready => ?_⟩
    rcases List.mem_append.mp hready with hready | hready
    · exact ht.ready hready
    · exact hm u hu (Option.mem_toList.mp hready)
  | encola d =>
    refine ⟨hilo, ?_, ht.blocked, fun hready => ?_⟩
    · exact (Function.update_of_ne (hm u hu) _ _).trans ht.estado
    · rcases List.mem_append.mp hready with hready | hready
      · exact ht.ready hready
      · exact hm u hu (List.mem_singleton.mp hready)
  | bloquea d =>
    refine ⟨hilo, ?_, List.mem_append_left _ ht.blocked, ht.ready⟩
    show Function.update s.estado d .blocked u.1 = .blocked
    by_cases hd : u.1 = d
    · rw [hd, Function.update_self]
    · rw [Function.update_of_ne hd, ht.estado]
  | duerme d =>
    have hne : u.1 ≠ d := hm u hu
    refine ⟨hilo, ?_, ?_, fun hready => ?_⟩
    · exact (Function.update_of_ne hne _ _).trans ht.estado
    · exact (List.mem_erase_of_ne hne).mpr (List.mem_append_left _ ht.blocked)
    · rcases List.mem_append.mp hready with hready | hready
      · exact ht.ready hready
      · exact hne (List.mem_singleton.mp hready)
  | @despacha i d hs hi =>
    have hne : u.1 ≠ d := fun heq => ht.ready (heq ▸ List.mem_of_getElem? hi)
    refine ⟨hilo, ?_, ht.blocked, fun hready => ht.ready (List.mem_of_mem_eraseIdx hready)⟩
    exact (Function.update_of_ne hne _ _).trans ht.estado
  | gira hs => exact ⟨hilo, ht.estado, ht.blocked, ht.ready⟩
  | @termina hs _ _ _ _ hayEspera _ _ h₁ h₂ h₃ h₄ h₅ h₆ h₇ h₈ =>
    obtain ⟨rfl, hfuera⟩ := hm
    obtain ⟨hready, hblocked, hestado⟩ :=
      (Mueve.termina h₁ h₂ h₃ h₄ h₅ h₆ h₇ h₈ : s.Mueve (.termina hs false) _).nadie_despierta
    refine ⟨hilo, (hestado _ (hfuera u hu).1).trans ht.estado, hblocked.mem_iff.mpr ht.blocked, ?_⟩
    rw [hready]
    exact ht.ready

end Planificacion

/-! ## Steps -/

/-- A step that respects the joins `us`. Its own join is by a thread that is not in
`lista_ready`. -/
def Estado.Respeta (ent : Entorno) (us : List (Dir × Dir)) (k : Estado) (p : Paso) : Prop :=
  DejaEsperar us (k.movimiento ent p) ∧ ∀ u ∈ k.une p, u.1 ∉ k.listaReady

instance (us : List (Dir × Dir)) : Decidable (k.Respeta ent us p) :=
  inferInstanceAs (Decidable (_ ∧ _))

/-- A join that begins blocks its caller. -/
theorem une_movimiento {u : Dir × Dir} (hu : k.une p = some u) :
    u.1 ∈ k.listaTcbs ∧ k.movimiento ent p = .bloquea u.1 := by
  cases p with
  | syscall y =>
    cases y with
    | threadJoin d =>
      by_cases hvivo : k.terminado (k.buscarTcbs d.tid d.PID) = true
      · rw [show k.une (.syscall (.threadJoin d)) = none from if_pos hvivo] at hu
        cases hu
      · rw [show k.une (.syscall (.threadJoin d)) = _ from if_neg hvivo] at hu
        obtain ⟨t, ht, hj⟩ := Option.bind_eq_some_iff.mp hu
        obtain ⟨j, -, rfl⟩ := Option.map_eq_some_iff.mp hj
        refine ⟨mem_of_buscarTcbs ht, ?_⟩
        unfold Estado.movimiento Estado.movSyscall
        simp only [if_neg hvivo, ht, movDe]
    | _ => cases hu
  | _ => cases hu

/-- The caller of the new join waits. -/
theorem une_espera {u : Dir × Dir} (hu : k.une p = some u) (hno : u.1 ∉ k.listaReady)
    (hp : paso ent k p = .ok (k', o)) : k'.plani.Espera u.1 := by
  obtain ⟨hilo, hmov⟩ : u.1 ∈ k.listaTcbs ∧ k.movimiento ent p = .bloquea u.1 :=
    une_movimiento hu
  have hm := paso_mueve hp
  rw [hmov] at hm
  have hilo' := hm.hilos_subset hilo
  generalize hs' : k'.plani = s' at hm hilo' ⊢
  cases hm with
  | bloquea => exact ⟨hilo', Function.update_self _ _ _, by simp, hno⟩

/-- The end of threads in a step that respects the joins. -/
theorem respeta_despiertan {us : List (Dir × Dir)} {hs : List Dir} {hayEspera : Bool}
    (hm : k.movimiento ent p = .termina hs hayEspera) (h : k.Respeta ent us p)
    (hp : paso ent k p = .ok (k', o)) : k.Despiertan us hs k' := by
  obtain ⟨hfin, -⟩ := h
  rw [hm] at hfin
  obtain ⟨rfl, hfuera⟩ := hfin
  have hmueve := paso_mueve hp
  rw [hm] at hmueve
  obtain ⟨hready, hblocked, -⟩ := hmueve.nadie_despierta
  have hnadie : ∀ t, ¬ ∃ j ∈ hs, (t, j) ∈ us := by
    rintro t ⟨j, hj, hu⟩
    exact (hfuera (t, j) hu).2 hj
  have hready' : k'.listaReady = k.listaReady := hready
  refine ⟨fun t => ?_, fun t => ?_⟩
  · rw [hready', List.drop_length]
    exact iff_of_false List.not_mem_nil (hnadie t)
  · rw [and_iff_left (hnadie t)]
    exact hblocked.mem_iff

/-! ## Runs -/

variable {tcbs : Dir → TCB} {pcbs : Dir → PCB} {uint32s : Dir → Uint32}

/-- **A join waits for its thread** along each run in which no thread ends while it joins another
one, while another one joins it, or while a blocked thread of its process has its tid in
`tid_que_lo_bloqueo`, and no thread that joins is queued for the CPU. -/
theorem uniones_corrida (ps : List Paso)
    (h : EveryStep (paso ent) (estadoInicial tcbs pcbs uint32s) ps fun pre k p =>
      k.Respeta ent (uniones ent (estadoInicial tcbs pcbs uint32s) pre) p) :
    UnionesRespetadas ent (estadoInicial tcbs pcbs uint32s) ps := by
  refine ⟨fun pre k hpre hk => ?_, fun pre k p r hpre hk hp hs e k' o hm hp' => ?_⟩
  · have hI : k.plani.Acotada ∧ ∀ u ∈ uniones ent (estadoInicial tcbs pcbs uint32s) pre,
        k.plani.Espera u.1 := by
      refine hk.invariant (I := fun pre k => k.plani.Acotada ∧
        ∀ u ∈ uniones ent (estadoInicial tcbs pcbs uint32s) pre, k.plani.Espera u.1)
        (h.restrict hpre) ⟨fun _ hh => absurd hh List.not_mem_nil,
          fun _ hu => absurd hu List.not_mem_nil⟩ ?_
      rintro q k₁ a k₂ o - hq ⟨hacot, hI⟩ hC hp
      have hmueve := paso_mueve hp
      refine ⟨hmueve.acotada hacot, fun u hu => ?_⟩
      unfold uniones at hu
      rw [history_snoc hq hp] at hu
      rcases List.mem_append.mp hu with hu | hu
      · have hviejo := (List.mem_filter.mp hu).1
        exact hmueve.espera hacot hC.1 hviejo (hI u hviejo)
      · have hnuevo := Option.mem_toList.mp hu
        exact une_espera hnuevo (hC.2 u hnuevo) hp
    exact fun u hu => ⟨(hI.2 u hu).estado, (hI.2 u hu).blocked⟩
  · exact respeta_despiertan hm (h pre k p r hpre hk hp) hp'

/-- The main thread joins the other one, which gets the CPU. -/
def unionPendiente : List Paso :=
  arranque ++ segundoHilo ++ [.syscall (.threadJoin ⟨1, 0, 1⟩), .cortoPlazo]

theorem uniones_unionPendiente :
    UnionesRespetadas entornoFifo estadoCero (unionPendiente ++ [.syscall (.io ⟨1, 1, 5⟩)]) :=
  uniones_corrida _ (EveryStep.of_checkHistory
    (C := fun us (k : Estado) p => k.Respeta entornoFifo us p) (by decide +kernel))

/-- The thread that was joined exits, and its joiner stays blocked. -/
theorem union_perdida : ¬ UnionesRespetadas entornoFifo estadoCero
    (unionPendiente ++ [.syscall (.threadExit ⟨1, 1⟩)]) := by
  rintro ⟨-, h⟩
  have hrun : (run (paso entornoFifo) estadoCero unionPendiente).toOption.map (fun r =>
      (r.1.movimiento entornoFifo (.syscall (.threadExit ⟨1, 1⟩)),
        (paso entornoFifo r.1 (.syscall (.threadExit ⟨1, 1⟩))).toOption.map fun r' =>
          r'.1.listaReady.drop r.1.listaReady.length)) =
      some (.termina [5] false, some []) := by
    decide +kernel
  obtain ⟨k, hk, hg⟩ := reaches_of_map (g := fun k : Estado =>
    (k.movimiento entornoFifo (.syscall (.threadExit ⟨1, 1⟩)),
      (paso entornoFifo k (.syscall (.threadExit ⟨1, 1⟩))).toOption.map fun r' =>
        r'.1.listaReady.drop k.listaReady.length)) hrun
  obtain ⟨hmov, hsale⟩ := Prod.mk.inj hg
  obtain ⟨⟨k', o⟩, hp, hready⟩ := Option.map_eq_some_iff.mp hsale
  have hp : paso entornoFifo k (.syscall (.threadExit ⟨1, 1⟩)) = .ok (k', o) := by
    cases hpaso : paso entornoFifo k (.syscall (.threadExit ⟨1, 1⟩)) with
    | error f =>
      rw [hpaso] at hp
      cases hp
    | ok r =>
      rw [hpaso] at hp
      exact congrArg Except.ok (Option.some.inj hp)
  have hunion : (3, 5) ∈ uniones entornoFifo estadoCero unionPendiente := by decide +kernel
  have hdes := h unionPendiente k _ _ (List.prefix_refl _) hk hp [5] false k' o hmov hp
  have hlista := (hdes.listos 3).mpr ⟨5, List.mem_singleton_self _, hunion⟩
  rw [hready] at hlista
  exact absurd hlista List.not_mem_nil

end LastOfC.Kernel
