import LastOfC.Kernel.Creacion

/-!
# The tids of a process

`crear_hilo` gives the main thread the value of `tid_contador`, and leaves it. `THREAD_CREATE`
increments it before it reads it, and once more after, so the threads of a process get the tids 0,
1, 3, 5, … The tids given along a run are a history variable (`tidsDe`), and `tids_iff` says which
runs give consecutive ones.
-/

namespace LastOfC.Kernel

open Imp Trace

variable {ent : Entorno} {k k' s : Estado} {p : Paso} {o : List Paquete}

/-- The process for which a `THREAD_CREATE` creates a thread. -/
def Estado.creaEn (k : Estado) : Paso → Option Dir
  | .syscall (.threadCreate d) => k.buscarProceso d.PID
  | _ => none

/-- The process that gets its main thread. -/
def Estado.iniciaEn (k : Estado) : Paso → Option Dir
  | .memoria (.confirmarEspacioProceso d) => if d.bitConfirmacion = 1 then k.colaNew.head? else none
  | _ => none

/-- The tids of the threads that are new. -/
def Estado.tidsNuevos (k k' : Estado) : List Uint32 :=
  (k'.listaTcbs.drop k.listaTcbs.length).map fun h => (k'.tcbs h).tid

/-- The tids that the steps which create threads for the process `q` gave, in order: all threads
that `en` finds. -/
def tidsDe (ent : Entorno) (s : Estado) (en : Estado → Paso → Option Dir) (q : Dir)
    (ps : List Paso) : List Uint32 :=
  history (paso ent) (fun k p k' tids => if en k p = some q then tids ++ k.tidsNuevos k' else tids)
    s ps []

/-- The main thread of each process has tid 0, and the n-th thread that `THREAD_CREATE` created for
it has tid n. -/
def Consecutivos (ent : Entorno) (s : Estado) (ps : List Paso) : Prop :=
  ∀ q, (∀ t ∈ tidsDe ent s Estado.iniciaEn q ps, t = 0) ∧
    ∀ n t, n + 1 < 2 ^ 31 → (tidsDe ent s Estado.creaEn q ps)[n]? = some t → t = .ofNat 32 (n + 1)

/-! ## One step -/

theorem tidsDe_snoc {en : Estado → Paso → Option Dir} {ps : List Paso}
    (h : Reaches (paso ent) s ps k) (hp : paso ent k p = .ok (k', o)) (q : Dir) :
    tidsDe ent s en q (ps ++ [p]) =
      tidsDe ent s en q ps ++ if en k p = some q then k.tidsNuevos k' else [] := by
  unfold tidsDe
  rw [history_snoc h hp]
  split
  · rfl
  · rw [List.append_nil]

theorem NaceHilo.tidsNuevos {h : Dir} {id : Uint32 × Uint32} (hn : NaceHilo k h id k') :
    k.tidsNuevos k' = [id.2] := by
  unfold Estado.tidsNuevos
  rw [hn.hilos, List.drop_left, ← hn.propia]
  rfl

/-- The only steps that start a main thread are the answers with bit 1. -/
theorem iniciaEn_ninguno (h : p.confirmaProceso = false) : k.iniciaEn p = none := by
  cases p with
  | memoria m =>
    cases m with
    | confirmarEspacioProceso d => exact if_neg (of_decide_eq_false h)
    | _ => rfl
  | _ => rfl

theorem creaEn_ninguno (h : ∀ d, p = .syscall (.threadCreate d) → k.buscarProceso d.PID = none) :
    k.creaEn p = none := by
  cases p with
  | syscall y =>
    cases y with
    | threadCreate d => exact h d rfl
    | _ => rfl
  | _ => rfl

/-! ## The counter of each process against the tids given -/

/-- The tids given so far, when each thread found the counter of its process at 0. -/
structure Contados (creados principales : Dir → List Uint32) (k : Estado) : Prop where
  previos : ∀ q ∈ k.listaProcesos, q < k.proximo
  sinCrear : ∀ q, k.proximo ≤ q → creados q = []
  principal : ∀ q, ∀ t ∈ principales q, t = 0
  uno : ∀ q, creados q = [] ∨ creados q = [1]
  /-- `finalizar_proceso` destroys `lista_tid`, and then no thread is created. -/
  contador : ∀ q ∈ k.listaProcesos, (k.pcbs q).listaTid ≠ none →
    (creados q = [] ∧ (k.pcbs q).tidContador = 0) ∨
      (creados q = [1] ∧ (k.pcbs q).tidContador = 2)

/-- A step that creates a thread finds the counter of its process at 0. -/
def Estado.DesdeCero (k : Estado) (p : Paso) : Prop :=
  ∀ q, k.creaEn p = some q ∨ k.iniciaEn p = some q → (k.pcbs q).tidContador = 0

namespace Contados

variable {creados principales : Dir → List Uint32}

theorem consecutivos {ps : List Paso}
    (h : Contados (tidsDe ent s Estado.creaEn · ps) (tidsDe ent s Estado.iniciaEn · ps) k) :
    Consecutivos ent s ps := by
  refine fun q => ⟨h.principal q, fun n t _ ht => ?_⟩
  rcases h.uno q with hno | huno
  · rw [hno] at ht
    cases ht
  · rw [huno] at ht
    cases n with
    | zero => exact (Option.some.inj ht).symm
    | succ n => cases ht

theorem tras_proceso (h : Contados creados principales k) (hn : NuevoProceso k k.proximo k') :
    Contados creados principales k' := by
  refine ⟨fun q hq => ?_, fun q hq => ?_, h.principal, h.uno, fun q hq hlista => ?_⟩
  · rw [hn.procesos] at hq
    rcases List.mem_append.mp hq with hq | hq
    · exact Nat.lt_trans (h.previos q hq) hn.proximo
    · obtain rfl := List.mem_singleton.mp hq
      exact hn.proximo
  · exact h.sinCrear q (Nat.le_of_lt (Nat.lt_of_lt_of_le hn.proximo hq))
  · rw [hn.procesos] at hq
    rcases List.mem_append.mp hq with hq | hq
    · rw [hn.otros q (Nat.ne_of_lt (h.previos q hq))] at hlista ⊢
      exact h.contador q hq hlista
    · obtain rfl := List.mem_singleton.mp hq
      exact .inl ⟨h.sinCrear _ (Nat.le_refl _), hn.contador⟩

theorem tras_principal (h : Contados creados principales k) {e q : Dir} {t : Uint32}
    (hn : NaceHilo k e ((k.pcbs q).pid, t) k') (ht : t = 0)
    (hcont : ∀ r, (k'.pcbs r).tidContador = (k.pcbs r).tidContador) :
    Contados creados (Function.update principales q (principales q ++ [t])) k' := by
  have hprox : k.proximo ≤ k'.proximo := Nat.le_of_lt (Nat.lt_of_le_of_lt hn.fresco hn.proximo)
  refine ⟨fun r hr => ?_, fun r hr => h.sinCrear r (Nat.le_trans hprox hr), fun r u hu => ?_, h.uno,
    fun r hr hlista => ?_⟩
  · exact Nat.lt_of_lt_of_le (h.previos r (hn.procesos ▸ hr)) hprox
  · by_cases hrq : r = q
    · subst hrq
      rw [Function.update_self] at hu
      rcases List.mem_append.mp hu with hu | hu
      · exact h.principal r u hu
      · exact (List.mem_singleton.mp hu).trans ht
    · rw [Function.update_of_ne hrq] at hu
      exact h.principal r u hu
  · rw [hcont]
    exact h.contador r (hn.procesos ▸ hr) fun hno => hlista ((hn.listas r).mpr hno)

theorem tras_hilo (h : Contados creados principales k) {e q : Dir} {pid : Uint32}
    (hq : q ∈ k.listaProcesos) (hlista : (k.pcbs q).listaTid ≠ none)
    (hn : NaceHilo k e (pid, (k.pcbs q).tidContador + 1) k')
    (hcero : (k.pcbs q).tidContador = 0)
    (hcont : (k'.pcbs q).tidContador = (k.pcbs q).tidContador + 1 + 1)
    (hotros : ∀ r, r ≠ q → (k'.pcbs r).tidContador = (k.pcbs r).tidContador) :
    Contados (Function.update creados q (creados q ++ [(k.pcbs q).tidContador + 1])) principales
      k' := by
  have hprox : k.proximo ≤ k'.proximo := Nat.le_of_lt (Nat.lt_of_le_of_lt hn.fresco hn.proximo)
  have hprimero : creados q = [] := by
    rcases h.contador q hq hlista with ⟨hno, -⟩ | ⟨-, hdos⟩
    · exact hno
    · rw [hcero] at hdos
      exact absurd hdos (by decide)
  have htid : creados q ++ [(k.pcbs q).tidContador + 1] = [1] := by
    rw [hprimero, hcero]
    rfl
  rw [htid]
  refine ⟨fun r hr => ?_, fun r hr => ?_, h.principal, fun r => ?_, fun r hr hl => ?_⟩
  · exact Nat.lt_of_lt_of_le (h.previos r (hn.procesos ▸ hr)) hprox
  · have hrq : r ≠ q := by
      rintro rfl
      exact absurd (h.previos r hq) (Nat.not_lt.mpr (Nat.le_trans hprox hr))
    rw [Function.update_of_ne hrq]
    exact h.sinCrear r (Nat.le_trans hprox hr)
  · by_cases hrq : r = q
    · subst hrq
      rw [Function.update_self]
      exact .inr rfl
    · rw [Function.update_of_ne hrq]
      exact h.uno r
  · by_cases hrq : r = q
    · subst hrq
      rw [Function.update_self, hcont, hcero]
      exact .inr ⟨rfl, rfl⟩
    · rw [Function.update_of_ne hrq, hotros r hrq]
      exact h.contador r (hn.procesos ▸ hr) fun hno => hl ((hn.listas r).mpr hno)

theorem tras_nada (h : Contados creados principales k) (hs : SinCrear ent k k') :
    Contados creados principales k' where
  previos q hq := Nat.lt_of_lt_of_le (h.previos q (hs.tabla.procesos ▸ hq)) hs.tabla.proximo
  sinCrear q hq := h.sinCrear q (Nat.le_trans hs.tabla.proximo hq)
  principal := h.principal
  uno := h.uno
  contador q hq hlista := by
    obtain ⟨hmismo, habierta⟩ := (hs.tabla.contador q).resolve_right fun hcer => hlista hcer.1
    rw [hmismo]
    exact h.contador q (hs.tabla.procesos ▸ hq) fun hno => hlista (habierta hno)

end Contados

/-! ## Runs -/

/-- The invariant along a run. -/
def Cuenta (ent : Entorno) (s : Estado) (ps : List Paso) (k : Estado) : Prop :=
  Contados (tidsDe ent s Estado.creaEn · ps) (tidsDe ent s Estado.iniciaEn · ps) k

/-- A step that creates for no process gives no tid. -/
theorem tidsDe_nadie {en : Estado → Paso → Option Dir} {ps : List Paso}
    (h : Reaches (paso ent) s ps k) (hp : paso ent k p = .ok (k', o)) (hno : en k p = none) :
    (tidsDe ent s en · (ps ++ [p])) = (tidsDe ent s en · ps) := by
  funext q
  rw [tidsDe_snoc h hp, hno, if_neg (by simp), List.append_nil]

/-- A step that creates the thread `id` for the process `q`. -/
theorem tidsDe_uno {en : Estado → Paso → Option Dir} {ps : List Paso} {q e : Dir}
    {id : Uint32 × Uint32} (h : Reaches (paso ent) s ps k) (hp : paso ent k p = .ok (k', o))
    (hq : en k p = some q) (hn : NaceHilo k e id k') :
    (tidsDe ent s en · (ps ++ [p])) =
      Function.update (tidsDe ent s en · ps) q (tidsDe ent s en q ps ++ [id.2]) := by
  funext r
  rw [tidsDe_snoc h hp, hq, hn.tidsNuevos]
  by_cases hr : r = q
  · subst hr
    rw [if_pos rfl, Function.update_self]
  · rw [if_neg fun heq => hr (Option.some.inj heq).symm, List.append_nil, Function.update_of_ne hr]

theorem Cuenta.tras_paso {ps : List Paso} (hr : Reaches (paso ent) s ps k) (h : Cuenta ent s ps k)
    (hc : k.DesdeCero p) (hp : paso ent k p = .ok (k', o)) : Cuenta ent s (ps ++ [p]) k' := by
  unfold Cuenta at h ⊢
  cases paso_crea hp with
  | proceso hn =>
    rw [tidsDe_nadie hr hp rfl, tidsDe_nadie hr hp rfl]
    exact h.tras_proceso hn
  | @principal d _ q e resto hbit hq hnew hn hcont =>
    have hinicia : k.iniciaEn (.memoria (.confirmarEspacioProceso d)) = some q :=
      (if_pos hbit).trans (by rw [hq]; rfl)
    rw [tidsDe_nadie hr hp rfl, tidsDe_uno hr hp hinicia hn]
    exact h.tras_principal hn (hc q (.inr hinicia)) hcont
  | hilo hq hlista hnew hn hcont hotros =>
    rw [tidsDe_uno hr hp hq hn, tidsDe_nadie hr hp rfl]
    exact h.tras_hilo (List.mem_of_find?_eq_some hq) hlista hn (hc _ (.inl hq)) hcont hotros
  | nada _ hconfirma hhilo hs =>
    rw [tidsDe_nadie hr hp (creaEn_ninguno hhilo), tidsDe_nadie hr hp (iniciaEn_ninguno hconfirma)]
    exact h.tras_nada hs

/-- A thread that found another counter has another tid than the one expected. -/
theorem Cuenta.desdeCero {ps : List Paso} (hr : Reaches (paso ent) s ps k) (h : Cuenta ent s ps k)
    (hp : paso ent k p = .ok (k', o)) (hpost : Consecutivos ent s (ps ++ [p])) :
    k.DesdeCero p := by
  intro q hq
  cases paso_crea hp with
  | proceso hn => exact absurd hq (by simp [Estado.creaEn, Estado.iniciaEn])
  | @principal d _ q' e resto hbit hcola hnew hn hcont =>
    have hinicia : k.iniciaEn (.memoria (.confirmarEspacioProceso d)) = some q' :=
      (if_pos hbit).trans (by rw [hcola]; rfl)
    obtain rfl : q' = q := by
      rcases hq with hq | hq
      · cases hq
      · exact Option.some.inj (hinicia.symm.trans hq)
    refine (hpost q').1 _ ?_
    rw [tidsDe_snoc hr hp, if_pos hinicia, hn.tidsNuevos]
    exact List.mem_append_right _ (List.mem_singleton_self _)
  | @hilo d _ q' e hbusca hlista hnew hn hcont hotros =>
    obtain rfl : q' = q := by
      rcases hq with hq | hq
      · exact Option.some.inj (hbusca.symm.trans hq)
      · cases hq
    rcases h.contador q' (List.mem_of_find?_eq_some hbusca) hlista with ⟨-, hcero⟩ | ⟨huno, hdos⟩
    · exact hcero
    · -- The second thread gets the tid 3.
      have htids : tidsDe ent s Estado.creaEn q'
          (ps ++ [.syscall (.threadCreate d)]) = [1, 3] := by
        have hcrea : k.creaEn (.syscall (.threadCreate d)) = some q' := hbusca
        rw [tidsDe_snoc hr hp, if_pos hcrea, hn.tidsNuevos, huno, hdos]
        rfl
      have hmal := (hpost q').2 1 3 (by decide) (by rw [htids]; rfl)
      exact absurd hmal (by decide)
  | nada _ hconfirma hhilo hs =>
    rw [creaEn_ninguno hhilo, iniciaEn_ninguno hconfirma] at hq
    rcases hq with hq | hq
    · cases hq
    · cases hq

/-- **The threads of each process get consecutive tids** along a run exactly when each step that
creates a thread finds the counter of its process at 0: no process has two completed
`THREAD_CREATE`, and none of its threads is created before the main one. -/
theorem tids_iff (ent : Entorno) (tcbs : Dir → TCB) (pcbs : Dir → PCB) (uint32s : Dir → Uint32)
    (ps : List Paso) :
    EveryState (paso ent) (estadoInicial tcbs pcbs uint32s) ps
        (fun pre _ => Consecutivos ent (estadoInicial tcbs pcbs uint32s) pre) ↔
      EveryStep (paso ent) (estadoInicial tcbs pcbs uint32s) ps fun _ k p => k.DesdeCero p := by
  have h0 : Cuenta ent (estadoInicial tcbs pcbs uint32s) [] (estadoInicial tcbs pcbs uint32s) :=
    ⟨fun _ hq => absurd hq List.not_mem_nil, fun _ _ => rfl,
      fun _ _ ht => absurd ht List.not_mem_nil, fun _ => .inl rfl,
      fun _ hq => absurd hq List.not_mem_nil⟩
  refine everyState_iff_everyStep (I := fun pre k =>
    Reaches (paso ent) (estadoInicial tcbs pcbs uint32s) pre k ∧ Cuenta ent _ pre k)
    ⟨reaches_nil.mpr rfl, h0⟩ (fun pre k h => h.2.consecutivos) ?_ ?_
  · rintro pre k p k' o - ⟨hr, h⟩ hc hp
    exact ⟨hr.snoc hp, h.tras_paso hr hc hp⟩
  · rintro pre k p k' o - ⟨hr, h⟩ hp hpost
    exact h.desdeCero hr hp hpost

/-- The main thread creates two threads. -/
theorem tids_impares : ¬ EveryState (paso entornoFifo) estadoCero
    (arranque ++ segundoHilo ++ [.syscall (.threadCreate ⟨1, 0, ['c'], 1⟩)])
    fun pre _ => Consecutivos entornoFifo estadoCero pre := by
  intro h
  have hrun : (run (paso entornoFifo) estadoCero
      (arranque ++ segundoHilo ++ [.syscall (.threadCreate ⟨1, 0, ['c'], 1⟩)])).toOption.map
      (fun r => r.1.listaTcbs.length) = some 3 := by
    decide +kernel
  obtain ⟨k, hk, -⟩ := reaches_of_map (g := fun k : Estado => k.listaTcbs.length) hrun
  have hcons := (h _ k (List.prefix_refl _) hk 0).2 1 3 (by decide) (by decide +kernel)
  exact absurd hcons (by decide)

end LastOfC.Kernel
