import LastOfC.Lib.FifoLock
import LastOfC.Kernel.Ejecuciones
import LastOfC.Kernel.Emisores
import LastOfC.Kernel.Mutexes

/-!
# The mutexes of a process are FIFO locks

Each `t_mutex` of a process refines a `FifoLock` (`TMutex.Refina`): `tid` is the owner, and
`bloqueados_mutex` has the tids that wait. The lock requests and the grants of each mutex are
history variables: a request is a `MUTEX_LOCK` packet, and a grant is a change of `tid` to a thread.

* `paso_mutex_igual`: only the mutex syscalls of a process change its mutexes.
* `Turnos` is the invariant, and has one lemma for each mutex operation.
* `turnos_fifo`: along each run under the discipline of `Estado.Disciplina`, the mutexes of a
  process are FIFO locks.
-/

namespace LastOfC.Kernel

open Imp Trace Planificacion KeyedList

variable {ent : Entorno} {k k' s : Estado} {p : Paso} {o : List Paquete} {pid : Uint32}
  {as : List Dir}

/-- The lock request of a step to a mutex of the process: the position of the mutex, and the
tid. -/
def Estado.pide (k : Estado) (pid : Uint32) : Paso → Option (Nat × Uint32)
  | .syscall (.mutexLock d) =>
    if d.PID = pid then (buscarMutex (k.mutexesDe pid) d.recurso).map fun r => (r.1, d.TID)
    else none
  | _ => none

/-- The thread that got the mutex at position `i` from `k` to `k'`, if one did. -/
def Estado.concede (k k' : Estado) (pid : Uint32) (i : Nat) : List Uint32 :=
  match (k'.mutexesDe pid)[i]? with
  | some l =>
    if l.tid ≠ sinHilo ∧ ((k.mutexesDe pid)[i]?).map TMutex.tid ≠ some l.tid then [l.tid] else []
  | none => []

/-- The tids that asked for the mutex at position `i` along a run, in order. -/
def pedidosDelMutex (ent : Entorno) (s : Estado) (pid : Uint32) (ps : List Paso) (i : Nat) :
    List Uint32 :=
  history (paso ent)
    (fun k p _ ts => ts ++ ((k.pide pid p).toList.filter fun r => r.1 = i).map Prod.snd) s ps []

/-- The tids that got the mutex at position `i` along a run, in order. -/
def concesionesDelMutex (ent : Entorno) (s : Estado) (pid : Uint32) (ps : List Paso) (i : Nat) :
    List Uint32 :=
  history (paso ent) (fun k _ k' ts => ts ++ k.concede k' pid i) s ps []

/-- The tids of the process are distinct, and none is the one that means no thread. -/
def Estado.TidsDistintos (k : Estado) (pid : Uint32) : Prop :=
  ((k.listaTcbs.filter fun h => (k.tcbs h).pid = pid).map fun h => (k.tcbs h).tid).Nodup ∧
    ∀ h ∈ k.listaTcbs, (k.tcbs h).pid = pid → (k.tcbs h).tid ≠ sinHilo

instance : Decidable (k.TidsDistintos pid) := inferInstanceAs (Decidable (_ ∧ _))

/-- The mutexes of the process after a run: a free one has an empty queue, the tids in the queues
are those of BLOCKED threads, each in one place, and the grants and then the queue are the requests
in order. -/
structure MutexesFifo (ent : Entorno) (s : Estado) (pid : Uint32) (ps : List Paso) (k : Estado) :
    Prop where
  libre : ∀ l ∈ k.mutexesDe pid, l.tid = sinHilo → l.bloqueadosMutex = []
  bloqueados : ∀ l ∈ k.mutexesDe pid, ∀ t ∈ l.bloqueadosMutex,
    ∃ h, k.buscarTcbs t pid = some h ∧ (k.tcbs h).estadoHilo = .blocked
  unLugar : (enEspera (k.mutexesDe pid)).Nodup
  orden : ∀ i l, (k.mutexesDe pid)[i]? = some l →
    pedidosDelMutex ent s pid ps i = concesionesDelMutex ent s pid ps i ++ l.bloqueadosMutex

/-- A `MUTEX_UNLOCK` of the process by a thread that does not own the mutex only takes the
semaphore `mutex` and gives it back. -/
def AjenoNoCambia (ent : Entorno) (pid : Uint32) (k : Estado) (p : Paso) : Prop :=
  ∀ d i l k' o, p = .syscall (.mutexUnlock d) → d.PID = pid →
    buscarMutex (k.mutexesDe pid) d.recurso = some (i, l) → l.tid ≠ d.TID →
      paso ent k p = .ok (k', o) → k' = k.trasCerrojo

/-! ## The searches -/

/-- A thread of the process is the one that a search for its tid finds. -/
theorem Estado.TidsDistintos.buscar (hT : k.TidsDistintos pid) {h : Dir}
    (hv : k.hiloVivo pid h = true) : k.buscarTcbs (k.tcbs h).tid pid = some h := by
  obtain ⟨hmem, -, hpid⟩ := hiloVivo_iff.mp hv
  cases hb : k.buscarTcbs (k.tcbs h).tid pid with
  | none =>
    have hno := List.find?_eq_none.mp hb h hmem
    simp [hpid] at hno
  | some g =>
    obtain ⟨hgpid, hgtid⟩ := pid_of_buscarTcbs hb
    have hg : g ∈ k.listaTcbs.filter fun h => (k.tcbs h).pid = pid :=
      List.mem_filter.mpr ⟨mem_of_buscarTcbs hb, decide_eq_true hgpid⟩
    have hh : h ∈ k.listaTcbs.filter fun h => (k.tcbs h).pid = pid :=
      List.mem_filter.mpr ⟨hmem, decide_eq_true hpid⟩
    rw [List.inj_on_of_nodup_map hT.1 hg hh hgtid]

theorem Estado.TidsDistintos.unico (hT : k.TidsDistintos pid) {g h : Dir}
    (hg : k.hiloVivo pid g = true) (hh : k.hiloVivo pid h = true)
    (htid : (k.tcbs g).tid = (k.tcbs h).tid) : g = h := by
  have hbg := hT.buscar hg
  rw [htid, hT.buscar hh] at hbg
  exact (Option.some.inj hbg).symm

/-! ## Steps that do not change the mutexes -/

/-- A mutex syscall of the process. -/
def Paso.tocaMutex (pid : Uint32) : Paso → Bool
  | .syscall (.mutexCreate d) | .syscall (.mutexLock d) | .syscall (.mutexUnlock d) => d.PID = pid
  | _ => false

theorem paso_mutex_igual (hk : k.Asignado) (hd : k.Disciplina ent pid as p)
    (hno : p.tocaMutex pid = false) (hp : paso ent k p = .ok (k', o)) :
    k'.mutexesDe pid = k.mutexesDe pid := by
  by_cases hcrea : p.creaProceso = true
  · cases p with
    | syscall y =>
      cases y with
      | processCreate d => exact processCreate_mutexes hk (paso_ok hp)
      | _ => cases hcrea
    | _ => cases hcrea
  have hbus : k'.buscarProceso pid = k.buscarProceso pid :=
    (paso_crea hp).buscarProceso ((Bool.not_eq_true _).mp hcrea)
  refine mutexesDe_congr hbus fun q hq => ?_
  -- The packet names the process.
  have hdel : ∀ {n : Uint32}, k.buscarProceso n = some q → n = pid := fun hn =>
    (pid_of_buscarProceso hn).symm.trans (pid_of_buscarProceso hq)
  have htoca : ∀ {n : Uint32}, k.buscarProceso n = some q → decide (n = pid) ≠ false := fun hn =>
    decide_eq_false_iff_not.not_left.mpr (hdel hn)
  cases paso_mutexes hk (List.mem_of_find?_eq_some hq) hp with
  | igual _ hm => exact hm
  | cierra hq' hfin =>
    obtain ⟨y, hy, hajena⟩ := hd.ajena (if_pos hfin)
    cases hy
    exact absurd (hdel hq') hajena
  | @termina _ _ h _ _ hmov hq' =>
    have hh : h ∈ (k.movimiento ent p).terminan := by
      rw [hmov]
      exact List.mem_singleton_self h
    exact absurd (hdel hq') (hd.2.2 h hh)
  | crea hq' => exact absurd hno (htoca hq')
  | toma hq' => exact absurd hno (htoca hq')
  | espera hq' => exact absurd hno (htoca hq')
  | suelta hq' => exact absurd hno (htoca hq')
  | pasa hq' => exact absurd hno (htoca hq')
  | pierde hq' => exact absurd hno (htoca hq')

/-! ## The refinement -/

/-- The mutex is the lock: `tid` is the owner, and `-1` is nobody. -/
structure TMutex.Refina (m : TMutex) (l : FifoLock Uint32) : Prop where
  cola : m.bloqueadosMutex = l.queue
  dueno : m.tid = l.owner.getD sinHilo
  real : l.owner ≠ some sinHilo

theorem TMutex.Refina.libre_iff {m : TMutex} {l : FifoLock Uint32} (h : m.Refina l) :
    m.tid = sinHilo ↔ l.owner = none := by
  rw [h.dueno]
  cases ho : l.owner with
  | none => simp
  | some t =>
    have hreal : t ≠ sinHilo := fun ht => h.real (by rw [ho, ht])
    simpa using hreal

/-- The mutex is a lock with the requests `rs` and the grants `gs`. -/
def TMutex.Sirve (m : TMutex) (rs gs : List Uint32) : Prop :=
  ∃ l : FifoLock Uint32, m.Refina l ∧ l.requests = rs ∧ l.grants = gs

namespace TMutex.Sirve

variable {m : TMutex} {rs gs : List Uint32} {t : Uint32} {resto : List Uint32}

theorem nuevo (recurso : Cadena) : TMutex.Sirve ⟨recurso, sinHilo, []⟩ [] [] :=
  ⟨FifoLock.empty, ⟨rfl, rfl, by simp [FifoLock.empty]⟩, rfl, rfl⟩

theorem libre (h : m.Sirve rs gs) (hm : m.tid = sinHilo) : m.bloqueadosMutex = [] := by
  obtain ⟨l, hl, -, -⟩ := h
  rw [hl.cola]
  exact l.idle (hl.libre_iff.mp hm)

theorem orden (h : m.Sirve rs gs) : rs = gs ++ m.bloqueadosMutex := by
  obtain ⟨l, hl, rfl, rfl⟩ := h
  rw [hl.cola]
  exact l.order

theorem toma (h : m.Sirve rs gs) (hm : m.tid = sinHilo) (ht : t ≠ sinHilo) :
    TMutex.Sirve { m with tid := t } (rs ++ [t]) (gs ++ [t]) := by
  obtain ⟨l, hl, rfl, rfl⟩ := h
  refine ⟨l.take t (hl.libre_iff.mp hm), ⟨hl.cola, rfl, ?_⟩, rfl, rfl⟩
  exact fun hno => ht (Option.some.inj hno)

theorem espera (h : m.Sirve rs gs) (hm : m.tid ≠ sinHilo) :
    TMutex.Sirve { m with bloqueadosMutex := m.bloqueadosMutex ++ [t] } (rs ++ [t]) gs := by
  obtain ⟨l, hl, rfl, rfl⟩ := h
  refine ⟨l.wait t (fun hno => hm (hl.libre_iff.mpr hno)), ⟨?_, hl.dueno, hl.real⟩, rfl, rfl⟩
  exact congrArg (· ++ [t]) hl.cola

theorem suelta (h : m.Sirve rs gs) (hm : m.bloqueadosMutex = []) :
    TMutex.Sirve { m with tid := sinHilo } rs gs := by
  obtain ⟨l, hl, rfl, rfl⟩ := h
  exact ⟨l.free (hl.cola.symm.trans hm), ⟨hl.cola, rfl, by simp [FifoLock.free]⟩, rfl, rfl⟩

theorem pasa (h : m.Sirve rs gs) (hm : m.bloqueadosMutex = t :: resto) (ht : t ≠ sinHilo) :
    TMutex.Sirve { m with tid := t, bloqueadosMutex := resto } rs (gs ++ [t]) := by
  obtain ⟨l, hl, rfl, rfl⟩ := h
  refine ⟨l.pass (hl.cola.symm.trans hm), ⟨rfl, rfl, fun hno => ht (Option.some.inj hno)⟩, rfl, rfl⟩

end TMutex.Sirve

/-! ## The mutexes of a process -/

/-- The mutexes are locks with the requests `rs` and the grants `gs`, and no tid waits twice. -/
structure Cerrojos (ms : List TMutex) (rs gs : Nat → List Uint32) : Prop where
  unLugar : (enEspera ms).Nodup
  sirve : ∀ i (m : TMutex), ms[i]? = some m → m.Sirve (rs i) (gs i)
  nuevos : ∀ i, ms.length ≤ i → rs i = [] ∧ gs i = []

namespace Cerrojos

variable {ms : List TMutex} {rs gs rs' gs' : Nat → List Uint32}

theorem crear (h : Cerrojos ms rs gs) (recurso : Cadena) :
    Cerrojos (ms ++ [⟨recurso, sinHilo, []⟩]) rs gs where
  unLugar := by
    rw [enEspera_crear]
    exact h.unLugar
  sirve i m hi := by
    rcases Nat.lt_or_ge i ms.length with hlt | hge
    · rw [List.getElem?_append_left hlt] at hi
      exact h.sirve i m hi
    · rw [List.getElem?_append_right hge] at hi
      obtain ⟨-, rfl⟩ : i - ms.length = 0 ∧ m = ⟨recurso, sinHilo, []⟩ := by
        simpa [List.getElem?_singleton, eq_comm] using hi
      obtain ⟨hrs, hgs⟩ := h.nuevos i hge
      rw [hrs, hgs]
      exact TMutex.Sirve.nuevo recurso
  nuevos i hi := h.nuevos i (by simp at hi; omega)

/-- A write to the mutex at position `i`. -/
theorem cambia (h : Cerrojos ms rs gs) {i : Nat} {m m' : TMutex} (hi : ms[i]? = some m)
    (hm : m'.Sirve (rs' i) (gs' i)) (hotros : ∀ j, j ≠ i → rs' j = rs j ∧ gs' j = gs j)
    (hunLugar : (enEspera (ms.set i m')).Nodup) : Cerrojos (ms.set i m') rs' gs' where
  unLugar := hunLugar
  sirve j l hj := by
    by_cases hji : j = i
    · subst hji
      obtain ⟨-, rfl⟩ : j < ms.length ∧ m' = l := by
        simpa [List.getElem?_set] using hj
      exact hm
    · rw [List.getElem?_set_ne (Ne.symm hji)] at hj
      obtain ⟨hrs, hgs⟩ := hotros j hji
      rw [hrs, hgs]
      exact h.sirve j l hj
  nuevos j hj := by
    rw [List.length_set] at hj
    have hlt : i < ms.length := (List.getElem?_eq_some_iff.mp hi).1
    obtain ⟨hrs, hgs⟩ := hotros j (by omega)
    rw [hrs, hgs]
    exact h.nuevos j hj

end Cerrojos

/-! ## The invariant -/

/-- The mutexes of the process are locks, and the tids that wait are those of BLOCKED threads. -/
structure Turnos (pid : Uint32) (rs gs : Nat → List Uint32) (k : Estado) : Prop where
  cerrojos : Cerrojos (k.mutexesDe pid) rs gs
  cola : ∀ t ∈ enEspera (k.mutexesDe pid),
    ∃ h, k.hiloVivo pid h = true ∧ (k.tcbs h).tid = t ∧ (k.tcbs h).estadoHilo = .blocked

variable {rs gs : Nat → List Uint32}

/-- The thread that a search for a waiting tid finds. -/
theorem Turnos.buscar (h : Turnos pid rs gs k) (hT : k.TidsDistintos pid) {t : Uint32}
    (ht : t ∈ enEspera (k.mutexesDe pid)) :
    ∃ e, k.buscarTcbs t pid = some e ∧ k.hiloVivo pid e = true ∧ (k.tcbs e).tid = t ∧
      (k.tcbs e).estadoHilo = .blocked := by
  obtain ⟨e, hv, rfl, hbl⟩ := h.cola t ht
  exact ⟨e, hT.buscar hv, hv, rfl, hbl⟩

/-- A thread that runs does not wait. -/
theorem Turnos.no_espera (h : Turnos pid rs gs k) (hT : k.TidsDistintos pid) {e : Dir}
    (hv : k.hiloVivo pid e = true) (he : (k.tcbs e).estadoHilo = .exec) :
    (k.tcbs e).tid ∉ enEspera (k.mutexesDe pid) := by
  intro ht
  obtain ⟨g, hg, htid, hbl⟩ := h.cola _ ht
  obtain rfl := hT.unico hg hv htid
  rw [he] at hbl
  cases hbl

/-- A step that queues or blocks a thread of the process: it is the caller, which runs, or the
first of the queue of the mutex that a `MUTEX_UNLOCK` of the owner frees. -/
theorem Estado.Disciplina.mueve (hd : k.Disciplina ent pid as p) {e : Dir}
    (ht : (k.movimiento ent p).toca = some e) (hv : k.hiloVivo pid e = true) :
    (k.tcbs e).estadoHilo = .exec ∨
      ∃ d i l t resto, p = .syscall (.mutexUnlock d) ∧ d.PID = pid ∧
        buscarMutex (k.mutexesDe pid) d.recurso = some (i, l) ∧ l.tid = d.TID ∧
        l.bloqueadosMutex = t :: resto ∧ k.buscarTcbs t pid = some e := by
  obtain ⟨y, rfl, hcrea, hbus⟩ := movimiento_toca ht
  have hpide : (k.tcbs e).pid = pid := (hiloVivo_iff.mp hv).2.2
  rcases hbus with hbus | ⟨d, l, t, rfl, hl, htid, hcabeza, hbus⟩
  · have hpid : y.pid = pid := (pid_of_buscarTcbs hbus).1.symm.trans hpide
    obtain ⟨c, hc, -, hexec⟩ := hd.emisor hpid hcrea
    rw [hpid, hc] at hbus
    obtain rfl := Option.some.inj hbus
    exact .inl hexec
  · have hpid : d.PID = pid := (pid_of_buscarTcbs hbus).1.symm.trans hpide
    rw [mutexDe_eq, hpid] at hl
    obtain ⟨⟨i, l'⟩, hbm, rfl⟩ := Option.map_eq_some_iff.mp hl
    obtain ⟨resto, hcola⟩ := List.head?_eq_some_iff.mp hcabeza
    exact .inr ⟨d, i, l', t, resto, rfl, hpid, hbm, htid, hcola, hpid ▸ hbus⟩

/-- No READY thread is queued or blocked. -/
theorem Turnos.quieto (h : Turnos pid rs gs k) (hT : k.TidsDistintos pid)
    (hd : k.Disciplina ent pid as p) : k.Quieto ent pid p := by
  intro e ht hv hready
  rcases hd.mueve ht hv with hexec | ⟨d, i, l, t, resto, -, -, hbm, -, hcola, hbus⟩
  · rw [hready] at hexec
    cases hexec
  · have hcab : t ∈ l.bloqueadosMutex := hcola ▸ List.mem_cons_self
    obtain ⟨g, hg, -, -, hbl⟩ := h.buscar hT (mem_enEspera (mem_of_buscarMutex hbm).2 hcab)
    rw [hbus] at hg
    obtain rfl := Option.some.inj hg
    rw [hready] at hbl
    cases hbl

/-- The tids that wait after a step and waited before it are still those of BLOCKED threads, if the
step did not hand their mutex to them. -/
theorem Turnos.cola_sigue (h : Turnos pid rs gs k) (hT : k.TidsDistintos pid)
    (hh : Hilos pid as k) (hd : k.Disciplina ent pid as p) (hp : paso ent k p = .ok (k', o))
    {t : Uint32} (ht : t ∈ enEspera (k.mutexesDe pid))
    (hno : ∀ d i l resto, p = .syscall (.mutexUnlock d) → d.PID = pid →
      buscarMutex (k.mutexesDe pid) d.recurso = some (i, l) → l.tid = d.TID →
      l.bloqueadosMutex ≠ t :: resto) :
    ∃ e, k'.hiloVivo pid e = true ∧ (k'.tcbs e).tid = t ∧ (k'.tcbs e).estadoHilo = .blocked := by
  obtain ⟨e, hbus, hv, htid, hbl⟩ := h.buscar hT ht
  refine ⟨e, ?_⟩
  have htoca : (k.movimiento ent p).toca ≠ some e := by
    intro htoca
    rcases hd.mueve htoca hv with hexec | ⟨d, i, l, u, resto, rfl, hpid, hbm, hown, hcola, hbusu⟩
    · rw [hbl] at hexec
      cases hexec
    · have hu : u = t := (pid_of_buscarTcbs hbusu).2.symm.trans htid
      exact hno d i l resto rfl hpid hbm hown (hu ▸ hcola)
  obtain ⟨hv', htid', hbl'⟩ := hh.sigue_bloqueado hd hp hv hbl htoca
  exact ⟨hv', htid'.trans htid, hbl'⟩

/-! ## One step -/

/-- The requests after a step. -/
def Estado.pedidosTras (k : Estado) (pid : Uint32) (p : Paso) (rs : Nat → List Uint32) (i : Nat) :
    List Uint32 :=
  rs i ++ ((k.pide pid p).toList.filter fun r => r.1 = i).map Prod.snd

/-- The grants after a step from `k` to `k'`. -/
def Estado.concesionesTras (k k' : Estado) (pid : Uint32) (gs : Nat → List Uint32) (i : Nat) :
    List Uint32 :=
  gs i ++ k.concede k' pid i

theorem pedidosTras_none (h : k.pide pid p = none) : k.pedidosTras pid p rs = rs := by
  funext i
  unfold Estado.pedidosTras
  rw [h]
  exact List.append_nil _

theorem concesionesTras_igual (h : k'.mutexesDe pid = k.mutexesDe pid) :
    k.concesionesTras k' pid gs = gs := by
  funext i
  unfold Estado.concesionesTras Estado.concede
  rw [h]
  cases (k.mutexesDe pid)[i]? with
  | none => simp
  | some l => simp

theorem concesionesTras_crear {recurso : Cadena}
    (h : k'.mutexesDe pid = k.mutexesDe pid ++ [⟨recurso, sinHilo, []⟩]) :
    k.concesionesTras k' pid gs = gs := by
  funext i
  unfold Estado.concesionesTras Estado.concede
  rw [h]
  rcases Nat.lt_trichotomy i (k.mutexesDe pid).length with hlt | rfl | hgt
  · rw [List.getElem?_append_left hlt]
    cases (k.mutexesDe pid)[i]? with
    | none => simp
    | some l => simp
  · simp
  · rw [List.getElem?_eq_none (by simp; omega)]
    simp

/-- A write to the mutex at position `i` grants nothing at the others. -/
theorem concesionesTras_otro {i j : Nat} {m : TMutex} (hj : j ≠ i)
    (h : k'.mutexesDe pid = (k.mutexesDe pid).set i m) :
    k.concesionesTras k' pid gs j = gs j := by
  unfold Estado.concesionesTras Estado.concede
  rw [h, List.getElem?_set_ne (Ne.symm hj)]
  cases (k.mutexesDe pid)[j]? with
  | none => simp
  | some l => simp

/-- A write to the mutex at position `i` of another owner grants it. -/
theorem concesionesTras_nuevo {i : Nat} {l m : TMutex} (hi : (k.mutexesDe pid)[i]? = some l)
    (h : k'.mutexesDe pid = (k.mutexesDe pid).set i m) (hm : m.tid ≠ sinHilo)
    (hne : l.tid ≠ m.tid) : k.concesionesTras k' pid gs i = gs i ++ [m.tid] := by
  have hlt : i < (k.mutexesDe pid).length := (List.getElem?_eq_some_iff.mp hi).1
  unfold Estado.concesionesTras Estado.concede
  rw [h, List.getElem?_set_self hlt, hi]
  simp [hm, hne]

/-- A write to the mutex at position `i` that keeps its owner, or leaves it free, grants nothing. -/
theorem concesionesTras_mismo {i : Nat} {l m : TMutex} (hi : (k.mutexesDe pid)[i]? = some l)
    (h : k'.mutexesDe pid = (k.mutexesDe pid).set i m) (hm : m.tid = sinHilo ∨ m.tid = l.tid) :
    k.concesionesTras k' pid gs = gs := by
  funext j
  by_cases hj : j = i
  · subst hj
    have hlt : j < (k.mutexesDe pid).length := (List.getElem?_eq_some_iff.mp hi).1
    unfold Estado.concesionesTras Estado.concede
    rw [h, List.getElem?_set_self hlt, hi]
    rcases hm with hm | hm
    · simp [hm]
    · simp [hm]
  · exact concesionesTras_otro hj h

theorem pedidosTras_lock {d : TMutexTodos} {i : Nat} {l : TMutex} (hpid : d.PID = pid)
    (hbm : buscarMutex (k.mutexesDe pid) d.recurso = some (i, l)) :
    k.pedidosTras pid (.syscall (.mutexLock d)) rs i = rs i ++ [d.TID] ∧
      ∀ j, j ≠ i → k.pedidosTras pid (.syscall (.mutexLock d)) rs j = rs j := by
  have hpide : k.pide pid (.syscall (.mutexLock d)) = some (i, d.TID) := by
    simp only [Estado.pide, hpid, if_true, hbm, Option.map_some]
  refine ⟨?_, fun j hj => ?_⟩
  · simp [Estado.pedidosTras, hpide]
  · simp [Estado.pedidosTras, hpide, Ne.symm hj]

/-- A step that changes no mutex, and asks for none. -/
theorem Turnos.tras_nada (h : Turnos pid rs gs k) (hT : k.TidsDistintos pid)
    (hh : Hilos pid as k) (hd : k.Disciplina ent pid as p) (hp : paso ent k p = .ok (k', o))
    (hm : k'.mutexesDe pid = k.mutexesDe pid) (hpide : k.pide pid p = none)
    (hno : ∀ d i l, p = .syscall (.mutexUnlock d) → d.PID = pid →
      buscarMutex (k.mutexesDe pid) d.recurso = some (i, l) → l.tid ≠ d.TID) :
    Turnos pid (k.pedidosTras pid p rs) (k.concesionesTras k' pid gs) k' := by
  rw [pedidosTras_none hpide, concesionesTras_igual hm]
  refine ⟨hm ▸ h.cerrojos, fun t ht => ?_⟩
  rw [hm] at ht
  exact h.cola_sigue hT hh hd hp ht fun d i l _ hy hpid hbm hown =>
    absurd hown (hno d i l hy hpid hbm)

theorem Turnos.tras_mutexCreate {d : TMutexTodos} (h : Turnos pid rs gs k)
    (hT : k.TidsDistintos pid) (hh : Hilos pid as k)
    (hd : k.Disciplina ent pid as (.syscall (.mutexCreate d))) (hpid : d.PID = pid)
    (hp : paso ent k (.syscall (.mutexCreate d)) = .ok (k', o)) :
    Turnos pid (k.pedidosTras pid (.syscall (.mutexCreate d)) rs) (k.concesionesTras k' pid gs)
      k' := by
  obtain ⟨q, m, vs, hq, hk'⟩ := mutexCreate_ok (paso_ok hp)
  rw [hpid] at hq
  have hm : k'.mutexesDe pid = k.mutexesDe pid ++ [⟨d.recurso, sinHilo, []⟩] := by
    rw [hk', mutexesDe_of_buscar hq]
    exact mutexesDe_modPcb (f := fun pcb => { pcb with
      mutex := pcb.mutex ++ [⟨d.recurso, sinHilo, []⟩] }) hq rfl
  rw [pedidosTras_none rfl, concesionesTras_crear hm]
  refine ⟨hm ▸ h.cerrojos.crear d.recurso, fun t ht => ?_⟩
  rw [hm, enEspera_crear] at ht
  exact h.cola_sigue hT hh hd hp ht fun _ _ _ _ hy => by cases hy

theorem Turnos.tras_mutexLock {d : TMutexTodos} (h : Turnos pid rs gs k)
    (hT : k.TidsDistintos pid) (hh : Hilos pid as k)
    (hd : k.Disciplina ent pid as (.syscall (.mutexLock d))) (hpid : d.PID = pid)
    (hp : paso ent k (.syscall (.mutexLock d)) = .ok (k', o)) :
    Turnos pid (k.pedidosTras pid (.syscall (.mutexLock d)) rs) (k.concesionesTras k' pid gs)
      k' := by
  obtain ⟨c, hbusc, hv, hexec⟩ := hd.emisor hpid rfl
  have htidc : (k.tcbs c).tid = d.TID := (pid_of_buscarTcbs hbusc).2
  have htid : d.TID ≠ sinHilo := by
    obtain ⟨hmem, -, hpidc⟩ := hiloVivo_iff.mp hv
    exact htidc ▸ hT.2 c hmem hpidc
  have hnoesp : d.TID ∉ enEspera (k.mutexesDe pid) := htidc ▸ h.no_espera hT hv hexec
  have hsigue : ∀ t ∈ enEspera (k.mutexesDe pid), ∃ e, k'.hiloVivo pid e = true ∧
      (k'.tcbs e).tid = t ∧ (k'.tcbs e).estadoHilo = .blocked := fun t ht =>
    h.cola_sigue hT hh hd hp ht fun _ _ _ _ hy => by cases hy
  obtain ⟨q, i, l, m, vs, hq, hbm, hcasos⟩ := mutexLock_ok (paso_ok hp)
  rw [hpid] at hq
  rw [← mutexesDe_of_buscar hq] at hbm
  have hi := (mem_of_buscarMutex hbm).1
  obtain ⟨hpedido, hotros⟩ : k.pedidosTras pid (.syscall (.mutexLock d)) rs i = rs i ++ [d.TID] ∧
      ∀ j, j ≠ i → k.pedidosTras pid (.syscall (.mutexLock d)) rs j = rs j :=
    pedidosTras_lock hpid hbm
  rcases hcasos with ⟨hlibre, hk'⟩ | ⟨e, htomado, hbuse, hk'⟩
  · -- The mutex is free: the caller takes it.
    have hm : k'.mutexesDe pid = (k.mutexesDe pid).set i { l with tid := d.TID } := by
      rw [hk']
      exact mutexesDe_setMutex hq
    have hsub := enEspera_set_sublist (n := { l with tid := d.TID }) hi (List.Sublist.refl _)
    refine ⟨?_, fun t ht => hsigue t (hsub.subset (hm ▸ ht))⟩
    rw [hm]
    refine h.cerrojos.cambia hi ?_ (fun j hj => ⟨hotros j hj, concesionesTras_otro hj hm⟩)
      (hsub.nodup h.cerrojos.unLugar)
    rw [hpedido, concesionesTras_nuevo hi hm htid (hlibre ▸ Ne.symm htid)]
    exact (h.cerrojos.sirve i l hi).toma hlibre htid
  · -- The mutex is taken: the caller waits, BLOCKED.
    obtain rfl : c = e := Option.some.inj (hbusc.symm.trans (hpid ▸ hbuse))
    have hm : k'.mutexesDe pid = (k.mutexesDe pid).set i { l with
        bloqueadosMutex := l.bloqueadosMutex ++ [d.TID] } := by
      rw [hk']
      exact mutexesDe_setMutex hq
    have hperm := enEspera_set_append (n := { l with
      bloqueadosMutex := l.bloqueadosMutex ++ [d.TID] }) hi rfl
    refine ⟨?_, fun t ht => ?_⟩
    · rw [hm]
      refine h.cerrojos.cambia hi ?_ (fun j hj => ⟨hotros j hj, concesionesTras_otro hj hm⟩)
        (hperm.nodup_iff.mpr (List.nodup_cons.mpr ⟨hnoesp, h.cerrojos.unLugar⟩))
      rw [hpedido, concesionesTras_mismo hi hm (.inr rfl)]
      exact (h.cerrojos.sirve i l hi).espera htomado
    · rcases List.mem_cons.mp (hperm.mem_iff.mp (hm ▸ ht)) with rfl | ht
      · obtain ⟨hv', hid⟩ := vivo_despues hh.asignado hd hp hv
        refine ⟨c, hv', (congrArg Prod.snd hid).trans htidc, ?_⟩
        rw [hk']
        simp [Estado.conCerrojo, Estado.bloquear, Estado.agregarBlocked, Estado.setEstado,
          Estado.modTcb]
      · exact hsigue t ht

/-- `MUTEX_UNLOCK` by the owner while nobody waits. -/
theorem Turnos.tras_suelta {d : TMutexTodos} {i : Nat} {l : TMutex} (h : Turnos pid rs gs k)
    (hT : k.TidsDistintos pid) (hh : Hilos pid as k)
    (hd : k.Disciplina ent pid as (.syscall (.mutexUnlock d)))
    (hp : paso ent k (.syscall (.mutexUnlock d)) = .ok (k', o))
    (hbm : buscarMutex (k.mutexesDe pid) d.recurso = some (i, l)) (hvacia : l.bloqueadosMutex = [])
    (hm : k'.mutexesDe pid = (k.mutexesDe pid).set i { l with tid := sinHilo }) :
    Turnos pid (k.pedidosTras pid (.syscall (.mutexUnlock d)) rs) (k.concesionesTras k' pid gs)
      k' := by
  obtain ⟨hi, -⟩ := mem_of_buscarMutex hbm
  have hsub := enEspera_set_sublist (n := { l with tid := sinHilo }) hi (List.Sublist.refl _)
  rw [pedidosTras_none rfl, concesionesTras_mismo hi hm (.inl rfl)]
  refine ⟨?_, fun t ht => h.cola_sigue hT hh hd hp (hsub.subset (hm ▸ ht)) ?_⟩
  · rw [hm]
    refine h.cerrojos.cambia hi ?_ (fun j _ => ⟨rfl, rfl⟩) (hsub.nodup h.cerrojos.unLugar)
    exact (h.cerrojos.sirve i l hi).suelta hvacia
  · intro d' i' l' resto hy _ hbm' _
    cases hy
    rw [hbm] at hbm'
    cases hbm'
    rw [hvacia]
    exact List.cons_ne_nil _ _ ∘ Eq.symm

/-- `MUTEX_UNLOCK` by the owner while `t` is the first that waits: `t` gets the mutex. -/
theorem Turnos.tras_pasa {d : TMutexTodos} {i : Nat} {l : TMutex} {t : Uint32}
    {resto : List Uint32} (h : Turnos pid rs gs k) (hT : k.TidsDistintos pid) (hh : Hilos pid as k)
    (hd : k.Disciplina ent pid as (.syscall (.mutexUnlock d)))
    (hp : paso ent k (.syscall (.mutexUnlock d)) = .ok (k', o))
    (hbm : buscarMutex (k.mutexesDe pid) d.recurso = some (i, l))
    (hcola : l.bloqueadosMutex = t :: resto) (htid : t ≠ sinHilo) (hne : l.tid ≠ t)
    (hm : k'.mutexesDe pid = (k.mutexesDe pid).set i { l with
      tid := t, bloqueadosMutex := resto }) :
    Turnos pid (k.pedidosTras pid (.syscall (.mutexUnlock d)) rs) (k.concesionesTras k' pid gs)
      k' := by
  obtain ⟨hi, -⟩ := mem_of_buscarMutex hbm
  have hsub := enEspera_set_sublist (n := { l with tid := t, bloqueadosMutex := resto }) hi
    (hcola ▸ List.sublist_cons_self t resto)
  rw [pedidosTras_none rfl]
  refine ⟨?_, fun u hu => h.cola_sigue hT hh hd hp (hsub.subset (hm ▸ hu)) ?_⟩
  · rw [hm]
    refine h.cerrojos.cambia hi ?_ (fun j hj => ⟨rfl, concesionesTras_otro hj hm⟩)
      (hsub.nodup h.cerrojos.unLugar)
    rw [concesionesTras_nuevo hi hm htid hne]
    exact (h.cerrojos.sirve i l hi).pasa hcola htid
  · -- Another tid than the one that left the queue.
    intro d' i' l' resto' hy _ hbm' _ hcola'
    cases hy
    rw [hbm] at hbm'
    cases hbm'
    rw [hcola] at hcola'
    obtain ⟨rfl, rfl⟩ := List.cons.inj hcola'
    exact no_vuelve hi hcola h.cerrojos.unLugar rfl (hm ▸ hu)

theorem Turnos.tras_mutexUnlock {d : TMutexTodos} (h : Turnos pid rs gs k)
    (hT : k.TidsDistintos pid) (hh : Hilos pid as k)
    (hd : k.Disciplina ent pid as (.syscall (.mutexUnlock d))) (hpid : d.PID = pid)
    (hp : paso ent k (.syscall (.mutexUnlock d)) = .ok (k', o)) :
    Turnos pid (k.pedidosTras pid (.syscall (.mutexUnlock d)) rs) (k.concesionesTras k' pid gs)
      k' := by
  obtain ⟨c, hbusc, hv, hexec⟩ := hd.emisor hpid rfl
  have htidc : (k.tcbs c).tid = d.TID := (pid_of_buscarTcbs hbusc).2
  have hnoesp : d.TID ∉ enEspera (k.mutexesDe pid) := htidc ▸ h.no_espera hT hv hexec
  obtain ⟨q, i, l, m, vs, hq, hbm, hcasos⟩ := mutexUnlock_ok (paso_ok hp)
  rw [hpid] at hq
  rw [← mutexesDe_of_buscar hq] at hbm
  rcases hcasos with ⟨hajeno, hk'⟩ | ⟨-, hvacia, hk'⟩ | ⟨t, resto, hown, hcola, hcasos⟩
  · -- The caller does not own the mutex.
    refine h.tras_nada hT hh hd hp (hk' ▸ rfl) rfl fun d' i' l' hy _ hbm' => ?_
    cases hy
    rw [hbm] at hbm'
    cases hbm'
    exact hajeno
  · refine h.tras_suelta hT hh hd hp hbm hvacia ?_
    rw [hk']
    exact mutexesDe_setMutex hq
  · -- The first that waits is a thread of the process, and not the owner.
    have htesp : t ∈ enEspera (k.mutexesDe pid) :=
      mem_enEspera (mem_of_buscarMutex hbm).2 (hcola ▸ List.mem_cons_self)
    obtain ⟨e, hbuse, hve, htide, -⟩ := h.buscar hT htesp
    have htid : t ≠ sinHilo := by
      obtain ⟨hmem, -, hpide⟩ := hiloVivo_iff.mp hve
      exact htide ▸ hT.2 e hmem hpide
    have hne : l.tid ≠ t := fun heq => hnoesp (hown ▸ heq ▸ htesp)
    rcases hcasos with ⟨hbusn, -⟩ | ⟨g, -, hk'⟩
    · rw [hpid, hbuse] at hbusn
      cases hbusn
    refine h.tras_pasa hT hh hd hp hbm hcola htid hne ?_
    rw [hk']
    exact mutexesDe_setMutex hq

theorem Turnos.tras_paso (h : Turnos pid rs gs k) (hT : k.TidsDistintos pid)
    (hh : Hilos pid as k) (hd : k.Disciplina ent pid as p) (hp : paso ent k p = .ok (k', o)) :
    Turnos pid (k.pedidosTras pid p rs) (k.concesionesTras k' pid gs) k' := by
  by_cases htoca : p.tocaMutex pid = true
  · cases p with
    | syscall y =>
      cases y with
      | mutexCreate d => exact h.tras_mutexCreate hT hh hd (of_decide_eq_true htoca) hp
      | mutexLock d => exact h.tras_mutexLock hT hh hd (of_decide_eq_true htoca) hp
      | mutexUnlock d => exact h.tras_mutexUnlock hT hh hd (of_decide_eq_true htoca) hp
      | _ => cases htoca
    | _ => cases htoca
  · have hm := paso_mutex_igual hh.asignado hd ((Bool.not_eq_true _).mp htoca) hp
    refine h.tras_nada hT hh hd hp hm ?_ fun d i l hy hpid => ?_
    · cases p with
      | syscall y =>
        cases y with
        | mutexLock d => exact if_neg fun hpid => htoca (decide_eq_true hpid)
        | _ => rfl
      | _ => rfl
    · subst hy
      exact absurd (decide_eq_true hpid) htoca

theorem mutexUnlock_ajeno {d : TMutexTodos} {i : Nat} {l : TMutex}
    (hbm : buscarMutex (k.mutexesDe d.PID) d.recurso = some (i, l)) (hno : l.tid ≠ d.TID)
    (hr : (mutexUnlock d).run k = .ok () k') : k' = k.trasCerrojo := by
  unfold mutexUnlock at hr
  obtain ⟨a, k₁, ha, hr⟩ := bind_ok.mp hr
  rw [buscarProceso_run (mutex_pos_of_conMutex ha)] at ha
  obtain ⟨rfl, rfl⟩ := EStateM.Result.ok.inj ha
  obtain ⟨q, k₂, hd, hr⟩ := bind_ok.mp hr
  obtain ⟨hq, rfl⟩ := desref_ok.mp hd
  obtain ⟨pcb, k₃, hl, hr⟩ := bind_ok.mp hr
  obtain ⟨rfl, rfl⟩ := leer_ok.mp hl
  rw [mutexesDe_of_buscar hq] at hbm
  have hbm' : buscarMutex (k.trasCerrojo.pcbs q).mutex d.recurso = some (i, l) := hbm
  simp only [hbm', hno, if_false] at hr
  exact (pure_ok.mp hr).2.symm

/-! ## The runs -/

section Corridas

variable {tcbs : Dir → TCB} {pcbs : Dir → PCB} {uint32s : Dir → Uint32}

theorem turnos_inicio : Turnos pid (fun _ => []) (fun _ => []) (estadoInicial tcbs pcbs uint32s) :=
  have hvacio : (estadoInicial tcbs pcbs uint32s).mutexesDe pid = [] := rfl
  ⟨hvacio ▸ ⟨List.nodup_nil, fun _ _ hi => absurd hi (by simp), fun _ _ => ⟨rfl, rfl⟩⟩,
    fun _ ht => absurd (hvacio ▸ ht) List.not_mem_nil⟩

theorem hilos_inicio : Hilos pid [] (estadoInicial tcbs pcbs uint32s) where
  asignado := ⟨fun _ hh => absurd hh List.not_mem_nil, fun _ hq => absurd hq List.not_mem_nil⟩
  conocidos := ⟨List.Subset.refl _, List.Subset.refl _⟩
  sitio _ hv := absurd (hiloVivo_iff.mp hv).1 List.not_mem_nil

theorem Turnos.mutexesFifo {s : Estado} {pre : List Paso}
    (h : Turnos pid (pedidosDelMutex ent s pid pre) (concesionesDelMutex ent s pid pre) k)
    (hT : k.TidsDistintos pid) : MutexesFifo ent s pid pre k where
  libre l hl htid := by
    obtain ⟨i, hi⟩ := List.mem_iff_getElem?.mp hl
    exact (h.cerrojos.sirve i l hi).libre htid
  bloqueados l hl t ht := by
    obtain ⟨e, hbus, -, -, hbl⟩ := h.buscar hT (mem_enEspera hl ht)
    exact ⟨e, hbus, hbl⟩
  unLugar := h.cerrojos.unLugar
  orden i l hi := (h.cerrojos.sirve i l hi).orden

/-- Along each run in which the threads of a process make syscalls only while they run, are
admitted once each, do not end and have distinct tids, its mutexes are FIFO locks, and a
`MUTEX_UNLOCK` by a thread that does not own the mutex changes nothing. -/
theorem turnos_fifo (ps : List Paso)
    (hD : EveryStep (paso ent) (estadoInicial tcbs pcbs uint32s) ps fun pre k p =>
      k.Disciplina ent pid (admitidos ent (estadoInicial tcbs pcbs uint32s) pre) p)
    (hT : EveryState (paso ent) (estadoInicial tcbs pcbs uint32s) ps fun _ k =>
      k.TidsDistintos pid) :
    EveryState (paso ent) (estadoInicial tcbs pcbs uint32s) ps
        (MutexesFifo ent (estadoInicial tcbs pcbs uint32s) pid) ∧
      EveryStep (paso ent) (estadoInicial tcbs pcbs uint32s) ps
        fun _ k p => AjenoNoCambia ent pid k p := by
  constructor
  · intro pre k hpre hk
    have hI : Hilos pid (admitidos ent (estadoInicial tcbs pcbs uint32s) pre) k ∧
        Turnos pid (pedidosDelMutex ent (estadoInicial tcbs pcbs uint32s) pid pre)
          (concesionesDelMutex ent (estadoInicial tcbs pcbs uint32s) pid pre) k := by
      refine hk.invariant (I := fun pre k =>
        Hilos pid (admitidos ent (estadoInicial tcbs pcbs uint32s) pre) k ∧
          Turnos pid (pedidosDelMutex ent (estadoInicial tcbs pcbs uint32s) pid pre)
            (concesionesDelMutex ent (estadoInicial tcbs pcbs uint32s) pid pre) k)
        (hD.and hT.everyStep |>.restrict hpre) ⟨hilos_inicio, turnos_inicio⟩ ?_
      rintro q k₁ p k₂ o - hq ⟨hh, ht⟩ ⟨hd, hTk⟩ hp
      have hpedidos : pedidosDelMutex ent (estadoInicial tcbs pcbs uint32s) pid (q ++ [p]) =
          k₁.pedidosTras pid p (pedidosDelMutex ent (estadoInicial tcbs pcbs uint32s) pid q) := by
        funext i
        exact history_snoc hq hp
      have hconcesiones :
          concesionesDelMutex ent (estadoInicial tcbs pcbs uint32s) pid (q ++ [p]) =
            k₁.concesionesTras k₂ pid
              (concesionesDelMutex ent (estadoInicial tcbs pcbs uint32s) pid q) := by
        funext i
        exact history_snoc hq hp
      have hadmitidos : admitidos ent (estadoInicial tcbs pcbs uint32s) (q ++ [p]) =
          admitidos ent (estadoInicial tcbs pcbs uint32s) q ++
            (k₁.movimiento ent p).admitido.toList := history_snoc hq hp
      rw [hpedidos, hconcesiones, hadmitidos]
      exact ⟨hh.tras_paso hd (ht.quieto hTk hd) hp, ht.tras_paso hTk hh hd hp⟩
    exact hI.2.mutexesFifo (hT pre k hpre hk)
  · rintro pre k p r - - - d i l k' o rfl rfl hbm hno hp
    exact mutexUnlock_ajeno hbm hno (paso_ok hp)

end Corridas

/-- Both threads of a process ask for a mutex, and the second one waits and gets it. -/
def dosTurnos : List Paso :=
  arranque ++ segundoHilo ++
    [.syscall (.mutexCreate ⟨1, 0, ['m']⟩), .syscall (.mutexLock ⟨1, 0, ['m']⟩), .cortoPlazo,
      .syscall (.mutexLock ⟨1, 1, ['m']⟩), .syscall (.mutexUnlock ⟨1, 0, ['m']⟩)]

theorem turnos_dosTurnos :
    EveryState (paso entornoFifo) estadoCero dosTurnos (MutexesFifo entornoFifo estadoCero 1) ∧
      EveryStep (paso entornoFifo) estadoCero dosTurnos
        fun _ k p => AjenoNoCambia entornoFifo 1 k p :=
  turnos_fifo _ (EveryStep.of_checkHistory
      (C := fun as (k : Estado) p => k.Disciplina entornoFifo 1 as p) (by decide +kernel))
    (EveryState.of_check (by decide +kernel))

end LastOfC.Kernel
