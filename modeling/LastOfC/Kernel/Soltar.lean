import LastOfC.Kernel.Ejecuciones
import LastOfC.Kernel.Pasos

/-!
# The two ways to release a mutex

`finalizar_hilo` and `MUTEX_UNLOCK` both release the mutexes of a thread. The first one takes the
elements of a queue for TCBs, so it returns only if nobody waits.

* `liberarMutexs_iff`: the loop of `finalizar_hilo` over the mutexes, exactly.
* `finalizarHilo_vuelve_iff`: exactly when `finalizar_hilo` returns.
* `soltar_iff`: exactly when both return and do the same.
-/

namespace LastOfC.Kernel

open Imp KeyedList

variable {ent : Entorno} {k k' : Estado} {h p : Dir} {tid : Uint32}

/-- A mutex when the thread `tid` is gone. -/
def TMutex.sin (m : TMutex) (tid : Uint32) : TMutex :=
  if m.tid = tid then { m with tid := sinHilo } else m

/-- Nobody waits for the mutexes of the list that `tid` owns. -/
def SinColas (tid : Uint32) (ms : List TMutex) : Prop :=
  ∀ m ∈ ms, m.tid = tid → m.bloqueadosMutex = []

instance (ms : List TMutex) : Decidable (SinColas tid ms) :=
  inferInstanceAs (Decidable (∀ m ∈ ms, _ → _))

/-! ## The loop over the mutexes -/

theorem modPcb_mutex_self (ms : List TMutex) (hm : (k.pcbs p).mutex = ms) :
    (k.modPcb p fun q => { q with mutex := ms }) = k := by
  subst hm
  simp [Estado.modPcb]

theorem modPcb_mutex_twice (ms ms' : List TMutex) :
    ((k.modPcb p fun q => { q with mutex := ms }).modPcb p fun q => { q with mutex := ms' }) =
      k.modPcb p fun q => { q with mutex := ms' } := by
  simp [Estado.modPcb]

theorem liberarMutex_iff {pre post : List TMutex} {m : TMutex}
    (hk : (k.pcbs p).mutex = pre ++ m :: post) :
    (liberarMutex p tid pre.length).run k = .ok () k' ↔
      (m.tid = tid → m.bloqueadosMutex = []) ∧
        k' = k.modPcb p fun q => { q with mutex := pre ++ m.sin tid :: post } := by
  have hi : (k.pcbs p).mutex[pre.length]? = some m := by
    rw [hk]
    simp
  unfold liberarMutex
  rw [bind_run (leer_run _)]
  simp only [hi]
  by_cases htid : m.tid = tid
  · rw [if_pos htid]
    cases hq : m.bloqueadosMutex with
    | nil =>
      rw [modify_ok]
      have hset : k.setMutex p pre.length { m with tid := sinHilo } =
          k.modPcb p fun q => { q with mutex := pre ++ m.sin tid :: post } := by
        simp [Estado.setMutex, Estado.modPcb, hk, TMutex.sin, htid]
      rw [← hq, hset]
      exact ⟨fun heq => ⟨fun _ => rfl, heq.symm⟩, fun heq => heq.2.symm⟩
    | cons t resto =>
      refine iff_of_false throw_ok fun hno => ?_
      exact List.cons_ne_nil t resto (hno.1 htid)
  · rw [if_neg htid, pure_ok]
    have hsin : m.sin tid = m := if_neg htid
    rw [hsin, modPcb_mutex_self _ hk]
    exact ⟨fun heq => ⟨fun ht => absurd ht htid, heq.2.symm⟩, fun heq => ⟨rfl, heq.2.symm⟩⟩

/-- The loop over the mutexes from the position `pre.length` on. -/
theorem liberarMutexs_iff {pre post : List TMutex} (hk : (k.pcbs p).mutex = pre ++ post) :
    (each (liberarMutex p tid) (List.range' pre.length post.length)).run k = .ok () k' ↔
      SinColas tid post ∧
        k' = k.modPcb p fun q => { q with mutex := pre ++ post.map fun m => m.sin tid } := by
  induction post generalizing k pre with
  | nil =>
    have hself := modPcb_mutex_self (pre ++ [].map fun m : TMutex => m.sin tid) hk
    rw [hself]
    refine pure_ok.trans ⟨fun heq => ⟨fun m hm => absurd hm List.not_mem_nil, heq.2.symm⟩, ?_⟩
    exact fun heq => ⟨rfl, heq.2.symm⟩
  | cons m post ih =>
    have hsig : ((k.modPcb p fun q => { q with mutex := pre ++ m.sin tid :: post }).pcbs p).mutex =
        (pre ++ [m.sin tid]) ++ post := by
      simp [Estado.modPcb]
    have hresto := ih hsig
    rw [modPcb_mutex_twice, List.length_append, List.length_singleton] at hresto
    rw [List.length_cons, List.range'_succ]
    refine bind_ok.trans ?_
    constructor
    · rintro ⟨_, k₁, h₁, h₂⟩
      obtain ⟨hm, rfl⟩ := (liberarMutex_iff hk).mp h₁
      obtain ⟨hpost, rfl⟩ := hresto.mp h₂
      exact ⟨List.forall_mem_cons.mpr ⟨hm, hpost⟩, by simp⟩
    · rintro ⟨hcolas, rfl⟩
      obtain ⟨hm, hpost⟩ := List.forall_mem_cons.mp hcolas
      refine ⟨(), _, (liberarMutex_iff hk).mpr ⟨hm, rfl⟩, hresto.mpr ⟨hpost, by simp⟩⟩

/-! ## `finalizar_hilo` -/

/-- A wake-up, when `mutex` can be taken. -/
theorem despertarHilo_run (i : Nat) (b : Dir) (hk : 0 < k.mutex) :
    (despertarHilo i b).run k = .ok () ((k.despertar i b).conCerrojo k.mutex
      (k.valoresMutex ++ [k.mutex - 1] ++ [k.mutex])) := by
  have hready := conMutex_run (x := modify (·.agregarReady b)) (k := k.modTcb b fun t =>
    { t with estadoHilo := .ready, tidQueLoBloqueo := sinHilo }) hk (modify_run _) rfl
  unfold despertarHilo
  rw [bind_run (modify_run _), bind_run hready]
  rfl

theorem desbloquearDesde_vuelve {n i : Nat} (hk : 0 < k.mutex) :
    ∃ k', (desbloquearDesde h n i).run k = .ok () k' := by
  induction n generalizing k i with
  | zero => exact ⟨k, rfl⟩
  | succ n ih =>
    cases hi : k.listaBlocked[i]? with
    | none => exact ⟨k, desbloquearDesde_termina hi⟩
    | some b =>
      by_cases hesp : k.espera h b
      · rw [desbloquearDesde_despierta hi hesp]
        exact exists_bind_run (despertarHilo_run i b hk) (ih hk)
      · rw [desbloquearDesde_avanza hi hesp]
        exact ih hk

/-- The wake-ups return, and free no thread. -/
theorem desbloquearHilosPorTid_vuelve (hk : 0 < k.mutex) :
    ∃ k', (desbloquearHilosPorTid h).run k = .ok () k' ∧ k'.liberados = k.liberados := by
  obtain ⟨k', hr⟩ : ∃ k', (desbloquearHilosPorTid h).run k = .ok () k' :=
    exists_bind_run (leer_run _) (desbloquearDesde_vuelve hk)
  have hr' : (desbloquearHilosPorTid h).run (k.conCerrojo k.mutex k.valoresMutex) = .ok () k' := hr
  obtain ⟨bs, k₁, m, vs, hd, rfl, -⟩ := desbloquearHilosPorTid_ok hr'
  refine ⟨_, hr, ?_⟩
  show k₁.liberados = k.liberados
  rw [hd.marco]

/-- The packet `FINALIZAR_HILO`. -/
def Estado.finHiloInformado (k : Estado) (h : Dir) : Estado :=
  { k with enviados := k.enviados ++
      [.finalizarHilo (serializarFinalizarHilo (k.tcbs h).pid (k.tcbs h).tid)] }

theorem informarAMemoriaFinHilo_run (h : Dir) :
    (informarAMemoriaFinHilo h).run k = .ok () (k.finHiloInformado h) := rfl

theorem liberar_run (hlib : h ∉ k.liberados) : (liberar ent h).run k =
    .ok () { k.modTcb h ent.residuo with liberados := h :: k.liberados } := by
  unfold liberar
  rw [bind_run get_run, if_neg hlib]
  rfl

/-- What stops `finalizar_hilo` of a thread of the process `p`, or does not. -/
def Estado.Terminable (k : Estado) (h p : Dir) : Prop :=
  0 < k.mutex ∧ (k.pcbs p).listaTid ≠ none ∧ SinColas (k.tcbs h).tid (k.pcbs p).mutex ∧
    h ∉ k.liberados

instance : Decidable (k.Terminable h p) :=
  inferInstanceAs (Decidable (_ ∧ _ ≠ none ∧ _ ∧ _))

/-- `finalizar_hilo` from `lista_tid` on, when it found the process `p`. -/
def finHiloDesde (ent : Entorno) (p h : Dir) (tid : Uint32) : Op Unit := do
  quitarTid p tid
  let n ← leer fun k => (k.pcbs p).mutex.length
  Imp.each (liberarMutex p tid) (List.range n)
  informarAMemoriaFinHilo h
  desbloquearHilosPorTid h
  liberar ent h

/-- The thread is in `lista_exit`, and `mutex` was taken and given back twice. -/
def Estado.enExit (k : Estado) (h : Dir) : Estado :=
  ((k.setEstado h .exit).agregarExit h).trasCerrojo.trasCerrojo

theorem enExit_tid : ((k.enExit h).tcbs h).tid = (k.tcbs h).tid := by
  simp [Estado.enExit, Estado.trasCerrojo, Estado.conCerrojo, Estado.agregarExit, Estado.setEstado,
    Estado.modTcb]

theorem finalizarHilo_run (hk : 0 < k.mutex) (hp : k.buscarProceso (k.tcbs h).pid = some p) :
    (finalizarHilo ent h).run k = (finHiloDesde ent p h (k.tcbs h).tid).run (k.enExit h) := by
  have hexit : (conMutex (modify (·.agregarExit h))).run (k.setEstado h .exit) =
      .ok () ((k.setEstado h .exit).agregarExit h).trasCerrojo :=
    conMutex_run (k := k.setEstado h .exit) hk (modify_run _) rfl
  have hpid :
      ((((k.setEstado h .exit).agregarExit h).trasCerrojo).tcbs h).pid = (k.tcbs h).pid := by
    simp [Estado.trasCerrojo, Estado.conCerrojo, Estado.agregarExit, Estado.setEstado,
      Estado.modTcb]
  have htid : ((((k.setEstado h .exit).agregarExit h).trasCerrojo).tcbs h).tid = (k.tcbs h).tid :=
    enExit_tid
  have hbus : ((k.setEstado h .exit).agregarExit h).trasCerrojo.buscarProceso (k.tcbs h).pid =
      some p := hp
  have hpos : 0 < ((k.setEstado h .exit).agregarExit h).trasCerrojo.mutex := hk
  unfold finalizarHilo
  rw [bind_run (modify_run _), bind_run hexit, bind_run (leer_run _),
    bind_run (buscarProceso_run hpos), hpid, hbus, htid]
  rfl

/-- What `finalizar_hilo` asks for from `lista_tid` on. -/
theorem finHiloDesde_ok {s s' : Estado} (hr : (finHiloDesde ent p h tid).run s = .ok () s') :
    (s.pcbs p).listaTid ≠ none ∧ SinColas tid (s.pcbs p).mutex ∧ h ∉ s.liberados ∧
      (s'.pcbs p).mutex = (s.pcbs p).mutex.map fun m => m.sin tid := by
  unfold finHiloDesde at hr
  obtain ⟨_, s₁, hq, hr⟩ := bind_ok.mp hr
  obtain ⟨tids, htids, hs₁⟩ := quitarTid_ok hq
  have hlista : (s.pcbs p).listaTid ≠ none := by
    rw [htids]
    exact Option.some_ne_none tids
  have hmutex : (s₁.pcbs p).mutex = (s.pcbs p).mutex := by
    rw [hs₁]
    simp [Estado.modPcb]
  obtain ⟨n, s₂, hl, hr⟩ := bind_ok.mp hr
  obtain ⟨rfl, rfl⟩ := leer_ok.mp hl
  obtain ⟨_, s₃, he, hr⟩ := bind_ok.mp hr
  rw [List.range_eq_range', hmutex] at he
  rw [← List.nil_append (s.pcbs p).mutex] at hmutex
  obtain ⟨hcolas, hs₃⟩ := (liberarMutexs_iff hmutex).mp he
  obtain ⟨_, s₄, hi, hr⟩ := bind_ok.mp hr
  have hs₄ := informarAMemoriaFinHilo_ok hi
  obtain ⟨_, s₅, hd, hr⟩ := bind_ok.mp hr
  have hd : (desbloquearHilosPorTid h).run (s₄.conCerrojo s₄.mutex s₄.valoresMutex) = .ok () s₅ :=
    hd
  obtain ⟨bs, s₆, m, vs, hdes, rfl, -⟩ := desbloquearHilosPorTid_ok hd
  obtain ⟨hlib, rfl⟩ := liberar_ok hr
  have hmarco := hdes.marco
  have hlib' : s₆.liberados = s.liberados := by
    rw [hmarco, hs₄, hs₃, hs₁]
    rfl
  refine ⟨hlista, hcolas, hlib' ▸ hlib, ?_⟩
  show (s₆.pcbs p).mutex = _
  rw [hmarco, hs₄, hs₃]
  simp [Estado.modPcb]

/-- The state when `finHiloDesde` gets to the wake-ups. -/
def Estado.antesDeDespertar (s : Estado) (p h : Dir) (tid : Uint32) (tids : List Puntero) :
    Estado :=
  (s.modPcb p fun q =>
    { q with
      listaTid := some (tids.erase (.entero tid))
      mutex := (s.pcbs p).mutex.map fun m => m.sin tid }).finHiloInformado h

/-- Nothing stops `finHiloDesde` before the wake-ups. -/
theorem finHiloDesde_run {s : Estado} {tids : List Puntero}
    (htids : (s.pcbs p).listaTid = some tids) (hcolas : SinColas tid (s.pcbs p).mutex) :
    (finHiloDesde ent p h tid).run s =
      (desbloquearHilosPorTid h >>= fun _ => liberar ent h).run
        (s.antesDeDespertar p h tid tids) := by
  have hquita : (quitarTid p tid).run s = .ok () (s.modPcb p fun q =>
      { q with listaTid := some (tids.erase (.entero tid)) }) := by
    unfold quitarTid
    rw [bind_run (leer_run _)]
    simp only [htids]
    rfl
  have hmutex : ((s.modPcb p fun q =>
      { q with listaTid := some (tids.erase (.entero tid)) }).pcbs p).mutex =
      [] ++ (s.pcbs p).mutex := by
    simp [Estado.modPcb]
  have hlibera := (liberarMutexs_iff hmutex).mpr ⟨hcolas, rfl⟩
  have hestado : ((s.modPcb p fun q =>
        { q with listaTid := some (tids.erase (.entero tid)) }).modPcb p fun q =>
        { q with mutex := [] ++ (s.pcbs p).mutex.map fun m => m.sin tid }).finHiloInformado h =
      s.antesDeDespertar p h tid tids := by
    simp [Estado.antesDeDespertar, Estado.modPcb]
  rw [← hestado]
  unfold finHiloDesde
  rw [bind_run hquita, bind_run (leer_run _), List.range_eq_range', hmutex, List.nil_append]
  exact (bind_run hlibera).trans (bind_run (informarAMemoriaFinHilo_run _))

theorem finHiloDesde_vuelve {s : Estado} (hk : 0 < s.mutex) (hlista : (s.pcbs p).listaTid ≠ none)
    (hcolas : SinColas tid (s.pcbs p).mutex) (hlib : h ∉ s.liberados) :
    ∃ s', (finHiloDesde ent p h tid).run s = .ok () s' := by
  obtain ⟨tids, htids⟩ := Option.ne_none_iff_exists'.mp hlista
  rw [finHiloDesde_run htids hcolas]
  obtain ⟨s₁, hd, hlib₁⟩ :=
    desbloquearHilosPorTid_vuelve (h := h) (k := s.antesDeDespertar p h tid tids) hk
  refine exists_bind_run hd ⟨_, liberar_run ?_⟩
  rw [hlib₁]
  exact hlib

theorem mutex_pos_of_finalizarHilo (hr : (finalizarHilo ent h).run k = .ok () k') :
    0 < k.mutex := by
  unfold finalizarHilo at hr
  obtain ⟨_, k₁, hm, hr⟩ := bind_ok.mp hr
  obtain rfl := modify_ok.mp hm
  obtain ⟨_, k₂, hc, -⟩ := bind_ok.mp hr
  exact mutex_pos_of_conMutex (k := k.setEstado h .exit) hc

/-- `finalizar_hilo` of a thread of the process `p` that returned: it was possible, and the
mutexes of `p` lost their owner. -/
theorem finalizarHilo_suelta (hp : k.buscarProceso (k.tcbs h).pid = some p)
    (hr : (finalizarHilo ent h).run k = .ok () k') :
    k.Terminable h p ∧ (k'.pcbs p).mutex = (k.pcbs p).mutex.map fun m => m.sin (k.tcbs h).tid := by
  have hk := mutex_pos_of_finalizarHilo hr
  rw [finalizarHilo_run hk hp] at hr
  obtain ⟨hlista, hcolas, hlib, hmutex⟩ := finHiloDesde_ok hr
  exact ⟨⟨hk, hlista, hcolas, hlib⟩, hmutex⟩

/-- Exactly when `finalizar_hilo` returns. -/
theorem finalizarHilo_vuelve_iff (hp : k.buscarProceso (k.tcbs h).pid = some p) :
    (∃ k', (finalizarHilo ent h).run k = .ok () k') ↔ k.Terminable h p := by
  constructor
  · rintro ⟨k', hr⟩
    exact (finalizarHilo_suelta hp hr).1
  · rintro ⟨hk, hlista, hcolas, hlib⟩
    rw [finalizarHilo_run hk hp]
    exact finHiloDesde_vuelve (s := k.enExit h) hk hlista hcolas hlib

/-! ## `MUTEX_UNLOCK` -/

/-- A release by the owner when nobody waits. -/
theorem mutexUnlock_libera {d : TMutexTodos} {i : Nat} {m : TMutex} (hk : 0 < k.mutex)
    (hp : k.buscarProceso d.PID = some p)
    (hm : buscarMutex (k.pcbs p).mutex d.recurso = some (i, m)) (hown : m.tid = d.TID)
    (hcola : m.bloqueadosMutex = []) : (mutexUnlock d).run k =
      .ok () (k.trasCerrojo.setMutex p i { m with tid := sinHilo }) := by
  have hm' : buscarMutex (k.trasCerrojo.pcbs p).mutex d.recurso = some (i, m) := hm
  unfold mutexUnlock
  rw [bind_run (buscarProceso_run hk), hp, bind_run (desref_run p), bind_run (leer_run _)]
  simp only [hm', hown, if_true, hcola]
  rfl

/-- A `MUTEX_UNLOCK` writes only the mutex that a search for its name finds. -/
theorem mutexUnlock_otro {d : TMutexTodos} {i j : Nat} {m : TMutex}
    (hp : k.buscarProceso d.PID = some p)
    (hm : buscarMutex (k.pcbs p).mutex d.recurso = some (j, m)) (hij : i ≠ j)
    (hr : (mutexUnlock d).run k = .ok () k') :
    (k'.pcbs p).mutex[i]? = (k.pcbs p).mutex[i]? := by
  obtain ⟨q, j', l, v, vs, hq, hl, hcasos⟩ := mutexUnlock_ok hr
  obtain rfl : p = q := Option.some.inj (hp.symm.trans hq)
  obtain ⟨rfl, rfl⟩ : j = j' ∧ m = l := by simpa using hm.symm.trans hl
  have hset : ∀ l', ((k.setMutex p j l').pcbs p).mutex[i]? = (k.pcbs p).mutex[i]? := by
    intro l'
    simp [Estado.setMutex, Estado.modPcb, Ne.symm hij]
  rcases hcasos with ⟨-, rfl⟩ | ⟨-, -, rfl⟩ | ⟨t, resto, -, -, ⟨-, rfl⟩ | ⟨e, -, rfl⟩⟩
  · rfl
  · exact hset _
  · exact hset _
  · exact hset _

/-! ## Both ways -/

/-- The threads that wait for a mutex of the process `pid`, as `MUTEX_UNLOCK` finds them. -/
def Estado.esperanMutex (k : Estado) (pid : Uint32) (m : TMutex) : List Dir :=
  m.bloqueadosMutex.filterMap fun t => k.buscarTcbs t pid

/-- What a release from `k` to `k'` did to the mutex at position `i` and to the threads `hs` that
waited for it: the mutex, their states, and those of them appended to `lista_ready`. -/
def Estado.efectoEnMutex (k k' : Estado) (p : Dir) (i : Nat) (hs : List Dir) :
    Option TMutex × List EstadoProcesoHilo × List Dir :=
  ((k'.pcbs p).mutex[i]?, hs.map fun h => (k'.tcbs h).estadoHilo,
    (k'.listaReady.drop k.listaReady.length).filter (· ∈ hs))

/-- `finalizar_hilo` of the thread `h` and its `MUTEX_UNLOCK` of the mutex `m`, at position `i` of
the process `p`, return, and do the same to the mutex and to those that wait. -/
def SueltanIgual (ent : Entorno) (k : Estado) (h p : Dir) (i : Nat) (m : TMutex) : Prop :=
  ∃ k₁ k₂, (finalizarHilo ent h).run k = .ok () k₁ ∧
    (mutexUnlock ⟨(k.tcbs h).pid, (k.tcbs h).tid, m.recurso⟩).run k = .ok () k₂ ∧
      k.efectoEnMutex k₁ p i (k.esperanMutex (k.tcbs h).pid m) =
        k.efectoEnMutex k₂ p i (k.esperanMutex (k.tcbs h).pid m)

/-- Exactly when the two ways to release a mutex agree: nobody waits for any mutex of the thread,
no mutex before this one has its name, the process keeps its `lista_tid`, the TCB was not freed,
and `mutex` is free. -/
theorem soltar_iff {i : Nat} {m : TMutex} (hp : k.buscarProceso (k.tcbs h).pid = some p)
    (hi : (k.pcbs p).mutex[i]? = some m) (hown : m.tid = (k.tcbs h).tid) (hm : m.tid ≠ sinHilo) :
    SueltanIgual ent k h p i m ↔
      k.Terminable h p ∧ buscarMutex (k.pcbs p).mutex m.recurso = some (i, m) := by
  constructor
  · rintro ⟨k₁, k₂, hr₁, hr₂, hefecto⟩
    obtain ⟨hter, hmutex⟩ := finalizarHilo_suelta hp hr₁
    obtain ⟨q, j, l, v, vs, hq, hl, -⟩ := mutexUnlock_ok hr₂
    obtain rfl : p = q := Option.some.inj (hp.symm.trans hq)
    refine ⟨hter, ?_⟩
    have hji : i = j := by
      by_contra hij
      -- `MUTEX_UNLOCK` released another mutex with this name.
      have hfin : (k₁.pcbs p).mutex[i]? = some { m with tid := sinHilo } := by
        rw [hmutex, List.getElem?_map, hi]
        exact congrArg some (if_pos hown)
      have hotro := mutexUnlock_otro hp hl hij hr₂
      have hmismo : (k₁.pcbs p).mutex[i]? = (k₂.pcbs p).mutex[i]? := congrArg Prod.fst hefecto
      rw [hfin, hotro, hi] at hmismo
      exact hm (congrArg TMutex.tid (Option.some.inj hmismo)).symm
    subst hji
    have hlm : m = l := Option.some.inj (hi.symm.trans (search_getElem? hl))
    rw [hl, hlm]
  · rintro ⟨hter, hbus⟩
    obtain ⟨k₁, hr₁⟩ : ∃ k₁, (finalizarHilo ent h).run k = .ok () k₁ :=
      (finalizarHilo_vuelve_iff hp).mpr hter
    obtain ⟨-, hmutex⟩ := finalizarHilo_suelta hp hr₁
    have hcola : m.bloqueadosMutex = [] := hter.2.2.1 m (List.mem_of_getElem? hi) hown
    have hnadie : k.esperanMutex (k.tcbs h).pid m = [] := by
      unfold Estado.esperanMutex
      rw [hcola]
      rfl
    refine ⟨k₁, _, hr₁, mutexUnlock_libera hter.1 hp hbus hown hcola, ?_⟩
    have hfin : (k₁.pcbs p).mutex[i]? = some { m with tid := sinHilo } := by
      rw [hmutex, List.getElem?_map, hi]
      exact congrArg some (if_pos hown)
    have hlt := (List.getElem?_eq_some_iff.mp hi).1
    simp [Estado.efectoEnMutex, hnadie, hfin, Estado.setMutex, Estado.modPcb, Estado.trasCerrojo,
      Estado.conCerrojo, hlt]

/-- The main thread of the process owns a mutex. -/
def unDuenio : List Paso :=
  arranque ++ [.syscall (.mutexCreate ⟨1, 0, ['m']⟩), .syscall (.mutexLock ⟨1, 0, ['m']⟩)]

theorem soltar_unDuenio : ∃ k, Trace.Reaches (paso entornoFifo) estadoCero unDuenio k ∧
    SueltanIgual entornoFifo k 3 0 0 ⟨['m'], 0, []⟩ := by
  have hrun : (Trace.run (paso entornoFifo) estadoCero unDuenio).toOption.map (fun r =>
      (r.1.buscarProceso (r.1.tcbs 3).pid, (r.1.tcbs 3).tid, (r.1.pcbs 0).mutex,
        decide (r.1.Terminable 3 0))) = some (some 0, 0, [⟨['m'], 0, []⟩], true) := by
    decide +kernel
  obtain ⟨k, hk, hg⟩ := Trace.reaches_of_map (g := fun k : Estado =>
    (k.buscarProceso (k.tcbs 3).pid, (k.tcbs 3).tid, (k.pcbs 0).mutex,
      decide (k.Terminable 3 0))) hrun
  simp only [Prod.mk.injEq, decide_eq_true_eq] at hg
  obtain ⟨hp, htid, hmutex, hter⟩ := hg
  have hi : (k.pcbs 0).mutex[0]? = some ⟨['m'], 0, []⟩ := by
    rw [hmutex]
    rfl
  refine ⟨k, hk, (soltar_iff hp hi htid.symm (by decide)).mpr ⟨hter, ?_⟩⟩
  rw [hmutex]
  rfl

/-- The other thread of the process waits for the mutex. -/
def unoEspera : List Paso :=
  arranque ++ segundoHilo ++
    [.syscall (.mutexCreate ⟨1, 0, ['m']⟩), .syscall (.mutexLock ⟨1, 0, ['m']⟩), .cortoPlazo,
      .syscall (.mutexLock ⟨1, 1, ['m']⟩)]

theorem soltar_con_cola : ¬ ∀ ps k h p i m, Trace.Reaches (paso entornoFifo) estadoCero ps k →
    k.buscarProceso (k.tcbs h).pid = some p → (k.pcbs p).mutex[i]? = some m →
      m.tid = (k.tcbs h).tid → m.tid ≠ sinHilo → SueltanIgual entornoFifo k h p i m := by
  intro hall
  have hrun : (Trace.run (paso entornoFifo) estadoCero unoEspera).toOption.map (fun r =>
      (r.1.buscarProceso (r.1.tcbs 3).pid, (r.1.tcbs 3).tid, (r.1.pcbs 0).mutex)) =
      some (some 0, 0, [⟨['m'], 0, [1]⟩]) := by
    decide +kernel
  obtain ⟨k, hk, hg⟩ := Trace.reaches_of_map (g := fun k : Estado =>
    (k.buscarProceso (k.tcbs 3).pid, (k.tcbs 3).tid, (k.pcbs 0).mutex)) hrun
  simp only [Prod.mk.injEq] at hg
  obtain ⟨hp, htid, hmutex⟩ := hg
  have hi : (k.pcbs 0).mutex[0]? = some ⟨['m'], 0, [1]⟩ := by
    rw [hmutex]
    rfl
  obtain ⟨k₁, -, hr, -⟩ := hall _ k 3 0 0 ⟨['m'], 0, [1]⟩ hk hp hi htid.symm (by decide)
  have hcola := (finalizarHilo_suelta hp hr).1.2.2.1 ⟨['m'], 0, [1]⟩ (List.mem_of_getElem? hi)
    htid.symm
  cases hcola

end LastOfC.Kernel
