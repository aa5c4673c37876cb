import Mathlib.Data.List.Perm.Basic
import LastOfC.Kernel.Despacho

/-!
# What each operation of the kernel does when it ends

One `_ok` lemma for each function: from a run that returned, the state after it as the updates of
the state before. Up to `conCerrojo`: the value and the history of `mutex` are the subject of
another module. The proofs peel a program apart with `Imp.bind_ok` and cite the lemmas of the
functions it calls.

`despertarHilo` is the branch of `desbloquear_hilos_por_tid` that wakes a thread, and
`desbloquearDesde_termina`, `_avanza` and `_despierta` are the iterations of its loop.
`Despierta h k k'` is what the loop does, as the wake-ups it makes one after the other.
-/

namespace LastOfC.Kernel

open Imp KeyedList

variable {ent : Entorno} {k k' : Estado}

/-! ## Primitives -/

section Primitivas

variable {α : Type}

theorem leer_ok {f : Estado → α} {a : α} :
    (leer f).run k = .ok a k' ↔ f k = a ∧ k = k' := by
  unfold leer
  simp only [bind_ok, get_ok, pure_ok]
  constructor
  · rintro ⟨k₀, k₁, ⟨rfl, rfl⟩, rfl, rfl⟩
    exact ⟨rfl, rfl⟩
  · rintro ⟨rfl, rfl⟩
    exact ⟨_, _, ⟨rfl, rfl⟩, rfl, rfl⟩

theorem desref_ok {d : Option Dir} {a : Dir} :
    (desref d).run k = .ok a k' ↔ d = some a ∧ k = k' := by
  cases d with
  | none => simp [desref]
  | some b => simp only [desref, pure_ok, Option.some.injEq]

theorem enviarPaquete_ok {p : Paquete} :
    (enviarPaquete p).run k = .ok () k' ↔ { k with enviados := k.enviados ++ [p] } = k' :=
  modify_ok

theorem semPostMutex_ok (h : semPostMutex.run k = .ok () k') :
    ∃ m vs, k' = k.conCerrojo m vs :=
  ⟨_, _, (modify_ok.mp h).symm⟩

theorem semWaitMutex_ok (h : semWaitMutex.run k = .ok () k') :
    ∃ m vs, k' = k.conCerrojo m vs := by
  unfold semWaitMutex at h
  obtain ⟨k₁, k₂, hg, h⟩ := bind_ok.mp h
  obtain ⟨rfl, rfl⟩ := get_ok.mp hg
  rcases ite_ok.mp h with ⟨-, h⟩ | ⟨-, h⟩
  · exact absurd h throw_ok
  · exact ⟨_, _, (modify_ok.mp h).symm⟩

theorem get_run : (get : Op Estado).run k = .ok k k := rfl

theorem conMutex_ok {x : Op α} {a : α} (h : (conMutex x).run k = .ok a k') :
    ∃ m vs k₁ m' vs', x.run (k.conCerrojo m vs) = .ok a k₁ ∧ k' = k₁.conCerrojo m' vs' := by
  unfold conMutex at h
  obtain ⟨_, k₁, hw, h⟩ := bind_ok.mp h
  obtain ⟨b, k₂, hx, h⟩ := bind_ok.mp h
  obtain ⟨_, k₃, hp, h⟩ := bind_ok.mp h
  obtain ⟨rfl, rfl⟩ := pure_ok.mp h
  obtain ⟨m, vs, rfl⟩ := semWaitMutex_ok hw
  obtain ⟨m', vs', rfl⟩ := semPostMutex_ok hp
  exact ⟨m, vs, k₂, m', vs', hx, rfl⟩

theorem conMutex_leer_ok {f : Estado → α} {a : α} (h : (conMutex (leer f)).run k = .ok a k') :
    ∃ m vs m' vs', a = f (k.conCerrojo m vs) ∧ k' = k.conCerrojo m' vs' := by
  obtain ⟨m, vs, k₁, m', vs', hx, rfl⟩ := conMutex_ok h
  obtain ⟨rfl, rfl⟩ := leer_ok.mp hx
  exact ⟨m, vs, m', vs', rfl, rfl⟩

theorem conMutex_modify_ok {f : Estado → Estado} (h : (conMutex (modify f)).run k = .ok () k') :
    ∃ m vs m' vs', k' = (f (k.conCerrojo m vs)).conCerrojo m' vs' := by
  obtain ⟨m, vs, k₁, m', vs', hx, rfl⟩ := conMutex_ok h
  obtain rfl := modify_ok.mp hx
  exact ⟨m, vs, m', vs', rfl⟩

end Primitivas

/-! ## The lock does not change what the searches see -/

section Busquedas

variable {pid tid : Uint32} {d : Option Dir}

theorem buscarProceso_ok (h : (conMutex (leer (·.buscarProceso pid))).run k = .ok d k') :
    d = k.buscarProceso pid ∧ ∃ m vs, k' = k.conCerrojo m vs := by
  obtain ⟨m, vs, m', vs', rfl, rfl⟩ := conMutex_leer_ok h
  exact ⟨rfl, m', vs', rfl⟩

theorem buscarTcbs_ok (h : (conMutex (leer (·.buscarTcbs tid pid))).run k = .ok d k') :
    d = k.buscarTcbs tid pid ∧ ∃ m vs, k' = k.conCerrojo m vs := by
  obtain ⟨m, vs, m', vs', rfl, rfl⟩ := conMutex_leer_ok h
  exact ⟨rfl, m', vs', rfl⟩

theorem mem_of_buscarTcbs {h : Dir} (hb : k.buscarTcbs tid pid = some h) : h ∈ k.listaTcbs :=
  List.mem_of_find?_eq_some hb

theorem pid_of_buscarTcbs {h : Dir} (hb : k.buscarTcbs tid pid = some h) :
    (k.tcbs h).pid = pid ∧ (k.tcbs h).tid = tid := by
  have := List.find?_some hb
  simpa using this

theorem pid_of_buscarProceso {p : Dir} (hb : k.buscarProceso pid = some p) :
    (k.pcbs p).pid = pid := by
  have := List.find?_some hb
  simpa using this

end Busquedas

/-! ## Creation -/

theorem crearProceso_ok {tam : CInt} {path : Cadena} {prioridad : CInt}
    (h : (crearProceso tam path prioridad).run k = .ok () k') :
    ∃ m vs, k' = { k with
      proximo := k.proximo + 1
      pid := k.pid + 1
      pcbs := Function.update k.pcbs k.proximo
        { pid := k.pid + 1
          listaTid := some []
          mutex := []
          tidContador := 0
          estado := .new
          tamProceso := tam
          prioridadMain := prioridad
          pathMain := path }
      colaNew := k.colaNew ++ [k.proximo]
      listaProcesos := k.listaProcesos ++ [k.proximo]
      mutex := m
      valoresMutex := vs } := by
  unfold crearProceso at h
  obtain ⟨p, k₁, hl, h⟩ := bind_ok.mp h
  obtain ⟨rfl, rfl⟩ := leer_ok.mp hl
  obtain ⟨_, k₃, hm, h⟩ := bind_ok.mp h
  obtain rfl := modify_ok.mp hm
  obtain ⟨m, vs, m', vs', rfl⟩ := conMutex_modify_ok h
  exact ⟨m', vs', rfl⟩

theorem iniciarProceso_ok (h : iniciarProceso.run k = .ok () k') :
    k' = { k with
      proximo := k.proximo + 1
      enviados := k.enviados ++
        [.asignarMemoria (k.pcbs (k.colaNew.headD k.proximo)).pid
          (k.pcbs (k.colaNew.headD k.proximo)).tamProceso] } := by
  unfold iniciarProceso asignarEspacioMemoria at h
  obtain ⟨k₁, k₂, hg, h⟩ := bind_ok.mp h
  obtain ⟨rfl, rfl⟩ := get_ok.mp hg
  obtain ⟨_, k₃, hm, h⟩ := bind_ok.mp h
  obtain rfl := modify_ok.mp hm
  obtain ⟨pcb, k₄, hl, h⟩ := bind_ok.mp h
  obtain ⟨rfl, rfl⟩ := leer_ok.mp hl
  exact (enviarPaquete_ok.mp h).symm

/-- A block at the next address. -/
theorem reservar_ok {f : Dir → Estado → Estado} {d : Dir}
    (h : ((leer (·.proximo) : Op Dir) >>= fun d => modify (f d) >>= fun _ => pure d).run k =
      .ok d k') : d = k.proximo ∧ k' = f k.proximo k := by
  obtain ⟨d', k₁, hl, h⟩ := bind_ok.mp h
  obtain ⟨rfl, rfl⟩ := leer_ok.mp hl
  obtain ⟨_, k₃, hm, h⟩ := bind_ok.mp h
  obtain rfl := modify_ok.mp hm
  obtain ⟨rfl, rfl⟩ := pure_ok.mp h
  exact ⟨rfl, rfl⟩

theorem copiarTid_ok {n : Uint32} {d : Dir} (h : (copiarTid n).run k = .ok d k') :
    d = k.proximo ∧ k' = { k with
      proximo := k.proximo + 1
      uint32s := Function.update k.uint32s k.proximo n } := by
  unfold copiarTid at h
  exact reservar_ok h

theorem iniciarHilo_ok {tid pid : Uint32} {prioridad : CInt} {path : Cadena} {d : Dir}
    (h : (iniciarHilo tid prioridad pid path).run k = .ok d k') :
    d = k.proximo ∧ k' = { k with
      proximo := k.proximo + 1
      tcbs := Function.update k.tcbs k.proximo
        { pid, tid, tidQueLoBloqueo := sinHilo, prioridad, path, estadoHilo := .ready } } := by
  unfold iniciarHilo at h
  exact reservar_ok h

/-- A change that needs `lista_tid`. -/
theorem conListaTid_ok {p : Dir} {f : List Puntero → Estado → Estado}
    (h : ((leer (·.pcbs p) : Op PCB) >>= fun pcb =>
      match pcb.listaTid with
      | some tids => modify (f tids)
      | none => throw .listaDestruida).run k = .ok () k') :
    ∃ tids, (k.pcbs p).listaTid = some tids ∧ k' = f tids k := by
  obtain ⟨pcb, k₁, hl, h⟩ := bind_ok.mp h
  obtain ⟨rfl, rfl⟩ := leer_ok.mp hl
  cases ht : (k.pcbs p).listaTid with
  | none =>
    simp only [ht] at h
    exact absurd h throw_ok
  | some tids =>
    simp only [ht] at h
    exact ⟨tids, rfl, (modify_ok.mp h).symm⟩

theorem agregarTid_ok {p d : Dir} (h : (agregarTid p d).run k = .ok () k') :
    ∃ tids, (k.pcbs p).listaTid = some tids ∧
      k' = k.modPcb p fun q => { q with listaTid := some (tids ++ [.bloque d]) } := by
  unfold agregarTid at h
  exact conListaTid_ok h

theorem quitarTid_ok {p : Dir} {tid : Uint32} (h : (quitarTid p tid).run k = .ok () k') :
    ∃ tids, (k.pcbs p).listaTid = some tids ∧
      k' = k.modPcb p fun q => { q with listaTid := some (tids.erase (.entero tid)) } := by
  unfold quitarTid at h
  exact conListaTid_ok h

theorem popColaNew_ok {d : Option Dir} (h : popColaNew.run k = .ok d k') :
    d = k.colaNew.head? ∧ k' = { k with colaNew := k.colaNew.tail } := by
  unfold popColaNew at h
  obtain ⟨k₁, k₂, hg, h⟩ := bind_ok.mp h
  obtain ⟨rfl, rfl⟩ := get_ok.mp hg
  cases hc : k.colaNew with
  | nil =>
    simp only [hc] at h
    obtain ⟨rfl, rfl⟩ := pure_ok.mp h
    refine ⟨rfl, ?_⟩
    rw [List.tail_nil, ← hc]
  | cons p resto =>
    simp only [hc] at h
    obtain ⟨_, k₃, hm, h⟩ := bind_ok.mp h
    obtain rfl := modify_ok.mp hm
    obtain ⟨rfl, rfl⟩ := pure_ok.mp h
    exact ⟨rfl, rfl⟩

theorem enviarAMemoria_ok {h : Dir} (hr : (enviarAMemoria h).run k = .ok () k') :
    k' = { k with enviados := k.enviados ++
      [.hiloReady ⟨(k.tcbs h).pid, (k.tcbs h).tid, (k.tcbs h).prioridad, (k.tcbs h).path⟩] } := by
  unfold enviarAMemoria at hr
  obtain ⟨t, k₁, hl, hr⟩ := bind_ok.mp hr
  obtain ⟨rfl, rfl⟩ := leer_ok.mp hl
  exact (enviarPaquete_ok.mp hr).symm

/-- The new TCB of `crear_hilo` and of `THREAD_CREATE`, at the address `h`, and the packet that
asks memoria for its context. -/
def Estado.nuevoHilo (k : Estado) (h : Dir) (pid tid : Uint32) (prioridad : CInt) (path : Cadena) :
    Estado :=
  { k with
    listaTcbs := k.listaTcbs ++ [h]
    tcbs := Function.update k.tcbs h
      { pid, tid, tidQueLoBloqueo := sinHilo, prioridad, path, estadoHilo := .ready }
    enviados := k.enviados ++ [.hiloReady ⟨pid, tid, prioridad, path⟩] }

/-- A write to `lista_tid` leaves the other fields of every PCB as they are. -/
theorem modPcb_listaTid (k : Estado) (p q : Dir) (tids : Option (List Puntero)) :
    (k.modPcb p fun r => { r with listaTid := tids }).pcbs q =
      { k.pcbs q with listaTid := if q = p then tids else (k.pcbs q).listaTid } := by
  unfold Estado.modPcb
  by_cases h : q = p
  · subst h
    simp
  · simp [h]

/-- `crear_hilo` adds a tid to the process that memoria confirmed, and starts the main thread of
the process that was first in `cola_new`. -/
theorem crearHilo_ok {pid : Uint32} (h : (crearHilo pid).run k = .ok () k') :
    ∃ p q resto tids m vs, k.buscarProceso pid = some p ∧ k.colaNew = q :: resto ∧
      (k.pcbs p).listaTid = some tids ∧
      k' = { (k.modPcb p fun r =>
          { r with listaTid := some (tids ++ [.bloque k.proximo]) }).nuevoHilo (k.proximo + 1)
            (k.pcbs q).pid (k.pcbs q).tidContador (k.pcbs q).prioridadMain (k.pcbs q).pathMain with
        proximo := k.proximo + 2
        uint32s := Function.update k.uint32s k.proximo (k.pcbs p).tidContador
        colaNew := resto
        mutex := m
        valoresMutex := vs } := by
  unfold crearHilo at h
  obtain ⟨proceso, k₁, hb, h⟩ := bind_ok.mp h
  obtain ⟨hp, m₁, vs₁, rfl⟩ := buscarProceso_ok hb
  obtain ⟨p, k₂, hd, h⟩ := bind_ok.mp h
  obtain ⟨rfl, rfl⟩ := desref_ok.mp hd
  obtain ⟨tidMain, k₃, hl, h⟩ := bind_ok.mp h
  obtain ⟨rfl, rfl⟩ := leer_ok.mp hl
  obtain ⟨tidCopia, k₄, hc, h⟩ := bind_ok.mp h
  obtain ⟨rfl, rfl⟩ := copiarTid_ok hc
  obtain ⟨_, k₅, ha, h⟩ := bind_ok.mp h
  obtain ⟨m₂, vs₂, k₆, m₃, vs₃, ha', rfl⟩ := conMutex_ok ha
  obtain ⟨tids, ht, rfl⟩ := agregarTid_ok ha'
  obtain ⟨pcbFueraNew, k₇, hq, h⟩ := bind_ok.mp h
  obtain ⟨rfl, rfl⟩ := popColaNew_ok hq
  obtain ⟨q, k₈, hd', h⟩ := bind_ok.mp h
  obtain ⟨hcola, rfl⟩ := desref_ok.mp hd'
  obtain ⟨pcb, k₉, hl', h⟩ := bind_ok.mp h
  obtain ⟨rfl, rfl⟩ := leer_ok.mp hl'
  obtain ⟨hilo, k₁₀, hi, h⟩ := bind_ok.mp h
  obtain ⟨rfl, rfl⟩ := iniciarHilo_ok hi
  obtain ⟨_, k₁₁, hs, h⟩ := bind_ok.mp h
  obtain ⟨m₄, vs₄, rfl⟩ := semPostMutex_ok hs
  obtain ⟨_, k₁₂, hm, h⟩ := bind_ok.mp h
  obtain rfl := modify_ok.mp hm
  obtain ⟨_, k₁₃, hs', h⟩ := bind_ok.mp h
  obtain ⟨m₅, vs₅, rfl⟩ := semPostMutex_ok hs'
  obtain rfl := enviarAMemoria_ok h
  obtain ⟨resto, hresto⟩ := List.head?_eq_some_iff.mp hcola
  have hresto' : k.colaNew = q :: resto := hresto
  refine ⟨p, q, resto, tids, m₅, vs₅, hp.symm, hresto', ht, ?_⟩
  have htail : k.colaNew.tail = resto := by rw [hresto', List.tail_cons]
  simp only [Estado.conCerrojo, Estado.agregarTcb, Estado.nuevoHilo, modPcb_listaTid,
    Function.update_self]
  rw [← htail]
  rfl

theorem confirmacionCrearHilo_ok {pid tid : Uint32}
    (h : (confirmacionCrearHilo pid tid).run k = .ok () k') :
    (k.buscarTcbs tid pid = none ∧ k' = k) ∨
      ∃ d m vs, k.buscarTcbs tid pid = some d ∧ k' = (k.agregarReady d).conCerrojo m vs := by
  unfold confirmacionCrearHilo at h
  obtain ⟨hilo, k₁, hl, h⟩ := bind_ok.mp h
  obtain ⟨rfl, rfl⟩ := leer_ok.mp hl
  cases hb : k.buscarTcbs tid pid with
  | none =>
    simp only [hb] at h
    obtain ⟨-, rfl⟩ := pure_ok.mp h
    exact .inl ⟨rfl, rfl⟩
  | some d =>
    simp only [hb] at h
    obtain ⟨m, vs, m', vs', rfl⟩ := conMutex_modify_ok h
    exact .inr ⟨d, m', vs', rfl, rfl⟩

/-! ## The end of a thread -/

/-- The test of `desbloquear_hilos_por_tid`: `b` waits for the thread `h`. -/
def Estado.espera (k : Estado) (h b : Dir) : Prop :=
  (k.tcbs b).pid = (k.tcbs h).pid ∧ (k.tcbs b).tidQueLoBloqueo = (k.tcbs h).tid

instance (h b : Dir) : Decidable (k.espera h b) :=
  inferInstanceAs (Decidable (_ ∧ _))

/-- The thread `b`, at position `i` of `lista_blocked`, goes to the end of `lista_ready`. -/
def Estado.despertar (k : Estado) (i : Nat) (b : Dir) : Estado :=
  { (k.modTcb b fun t => { t with estadoHilo := .ready, tidQueLoBloqueo := sinHilo }) with
    listaReady := k.listaReady ++ [b]
    listaBlocked := k.listaBlocked.eraseIdx i }

/-- The wake-ups `bs`, one after the other, of threads that wait for `h`. -/
inductive Despierta (h : Dir) : Estado → List Dir → Estado → Prop where
  | nadie (k : Estado) : Despierta h k [] k
  | uno {k k' : Estado} {i : Nat} {b : Dir} {bs : List Dir} (hi : k.listaBlocked[i]? = some b)
    (hb : k.espera h b) (hs : Despierta h (k.despertar i b) bs k') : Despierta h k (b :: bs) k'

/-- No element of `lista_blocked` before position `i` waits for `h`. -/
def Estado.NadieEspera (k : Estado) (h : Dir) (i : Nat) : Prop :=
  ∀ j b, j < i → k.listaBlocked[j]? = some b → ¬ k.espera h b

theorem Estado.NadieEspera.todos {h : Dir} {i : Nat} (hi : k.NadieEspera h i)
    (hlen : k.listaBlocked.length ≤ i) : ∀ b ∈ k.listaBlocked, ¬ k.espera h b := by
  intro b hb
  obtain ⟨j, hj, hget⟩ := List.mem_iff_getElem.mp hb
  exact hi j b (by omega) (by rw [List.getElem?_eq_getElem hj, hget])

/-- A wake-up changes no pid and no tid. -/
theorem despertar_pid (i : Nat) (b d : Dir) :
    ((k.despertar i b).tcbs d).pid = (k.tcbs d).pid ∧
      ((k.despertar i b).tcbs d).tid = (k.tcbs d).tid := by
  unfold Estado.despertar Estado.modTcb
  by_cases h : d = b
  · subst h
    simp
  · simp [h]

/-- A thread other than the one that wakes waits for `h` as before. -/
theorem despertar_espera {i : Nat} {b d h : Dir} (hd : d ≠ b) :
    (k.despertar i b).espera h d ↔ k.espera h d := by
  unfold Estado.espera
  rw [(despertar_pid i b d).1, (despertar_pid i b h).1, (despertar_pid i b h).2]
  have htid : ((k.despertar i b).tcbs d).tidQueLoBloqueo = (k.tcbs d).tidQueLoBloqueo := by
    unfold Estado.despertar Estado.modTcb
    simp [hd]
  rw [htid]

/-- The body of the `if` of `desbloquear_hilos_por_tid`: `b`, at position `i`, goes to
`lista_ready`. -/
def despertarHilo (i : Nat) (b : Dir) : Op Unit := do
  modify fun k => k.modTcb b fun t => { t with estadoHilo := .ready, tidQueLoBloqueo := sinHilo }
  conMutex (modify (·.agregarReady b))
  modify fun k => { k with listaBlocked := k.listaBlocked.eraseIdx i }

theorem despertarHilo_ok {i m : Nat} {b : Dir} {vs : List Nat}
    (hr : (despertarHilo i b).run (k.conCerrojo m vs) = .ok () k') :
    ∃ m' vs', k' = (k.despertar i b).conCerrojo m' vs' := by
  unfold despertarHilo at hr
  obtain ⟨_, k₁, hm, hr⟩ := bind_ok.mp hr
  obtain rfl := modify_ok.mp hm
  obtain ⟨_, k₂, hc, hr⟩ := bind_ok.mp hr
  obtain ⟨m₁, vs₁, m₂, vs₂, rfl⟩ := conMutex_modify_ok hc
  obtain rfl := modify_ok.mp hr
  exact ⟨m₂, vs₂, rfl⟩

theorem length_despertar {i : Nat} {b : Dir} (hi : k.listaBlocked[i]? = some b) :
    (k.despertar i b).listaBlocked.length + 1 = k.listaBlocked.length := by
  obtain ⟨hlt, -⟩ := List.getElem?_eq_some_iff.mp hi
  show (k.listaBlocked.eraseIdx i).length + 1 = _
  rw [List.length_eraseIdx_of_lt hlt]
  omega

/-! The three ways of an iteration. -/

section Iteracion

variable {h b : Dir} {n i : Nat}

theorem desbloquearDesde_termina (hi : k.listaBlocked[i]? = none) :
    (desbloquearDesde h n i).run k = .ok () k := by
  cases n with
  | zero => rfl
  | succ n =>
    unfold desbloquearDesde
    rw [bind_run get_run]
    simp only [hi]
    rfl

theorem desbloquearDesde_avanza (hi : k.listaBlocked[i]? = some b) (hb : ¬ k.espera h b) :
    (desbloquearDesde h (n + 1) i).run k = (desbloquearDesde h n (i + 1)).run k := by
  conv => lhs; unfold desbloquearDesde
  rw [bind_run get_run]
  simp only [hi]
  exact congrArg (EStateM.run · k) (if_neg hb)

theorem desbloquearDesde_despierta (hi : k.listaBlocked[i]? = some b) (hb : k.espera h b) :
    (desbloquearDesde h (n + 1) i).run k =
      (despertarHilo i b >>= fun _ => desbloquearDesde h n i).run k := by
  conv => lhs; unfold desbloquearDesde
  rw [bind_run get_run]
  simp only [hi]
  refine (congrArg (EStateM.run · k) (if_pos hb)).trans ?_
  simp only [despertarHilo, bind_assoc]

end Iteracion

theorem desbloquearDesde_ok {h : Dir} {n i m : Nat} {vs : List Nat}
    (hr : (desbloquearDesde h n i).run (k.conCerrojo m vs) = .ok () k')
    (hn : k.listaBlocked.length ≤ i + n) (hi : k.NadieEspera h i) :
    ∃ bs k₁ m' vs', Despierta h k bs k₁ ∧ k' = k₁.conCerrojo m' vs' ∧
      ∀ b ∈ k₁.listaBlocked, ¬ k₁.espera h b := by
  induction n generalizing k i m vs with
  | zero =>
    obtain ⟨-, rfl⟩ := pure_ok.mp hr
    exact ⟨[], k, m, vs, .nadie k, rfl, hi.todos hn⟩
  | succ n ih =>
    cases hb : k.listaBlocked[i]? with
    | none =>
      rw [desbloquearDesde_termina (k := k.conCerrojo m vs) hb] at hr
      cases hr
      exact ⟨[], k, m, vs, .nadie k, rfl, hi.todos (List.getElem?_eq_none_iff.mp hb)⟩
    | some b =>
      by_cases hesp : k.espera h b
      · -- `b` wakes: the list is shorter, and the position stays.
        rw [desbloquearDesde_despierta (k := k.conCerrojo m vs) hb hesp] at hr
        obtain ⟨_, k₂, hd, hr⟩ := bind_ok.mp hr
        obtain ⟨m₁, vs₁, rfl⟩ := despertarHilo_ok hd
        have hnext : (k.despertar i b).NadieEspera h i := by
          intro j c hj hc hespc
          have hget : k.listaBlocked[j]? = some c := by
            rw [← hc]
            exact (List.getElem?_eraseIdx_of_lt hj).symm
          have hne : c ≠ b := fun hcb => hi j c hj hget (hcb ▸ hesp)
          exact hi j c hj hget ((despertar_espera hne).mp hespc)
        have hlen := length_despertar hb
        obtain ⟨bs, k₃, m', vs', hd, hk, hfin⟩ := ih (k := k.despertar i b) hr (by omega) hnext
        exact ⟨b :: bs, k₃, m', vs', .uno hb hesp hd, hk, hfin⟩
      · -- `b` stays, and the position advances.
        rw [desbloquearDesde_avanza (k := k.conCerrojo m vs) hb hesp] at hr
        refine ih hr (by omega) fun j c hj hc => ?_
        rcases Nat.lt_succ_iff_lt_or_eq.mp hj with hj | rfl
        · exact hi j c hj hc
        · rw [hb] at hc
          obtain rfl := Option.some.inj hc
          exact hesp

theorem desbloquearHilosPorTid_ok {h : Dir} {m : Nat} {vs : List Nat}
    (hr : (desbloquearHilosPorTid h).run (k.conCerrojo m vs) = .ok () k') :
    ∃ bs k₁ m' vs', Despierta h k bs k₁ ∧ k' = k₁.conCerrojo m' vs' ∧
      ∀ b ∈ k₁.listaBlocked, ¬ k₁.espera h b := by
  unfold desbloquearHilosPorTid at hr
  obtain ⟨n, k₁, hl, hr⟩ := bind_ok.mp hr
  obtain ⟨rfl, rfl⟩ := leer_ok.mp hl
  have hn : k.listaBlocked.length ≤ 0 + (k.conCerrojo m vs).listaBlocked.length := by
    rw [Nat.zero_add]
    exact Nat.le_refl _
  exact desbloquearDesde_ok hr hn fun j b hj => absurd hj (Nat.not_lt_zero j)

/-- What the wake-ups `bs` change: two lists, and the state and `tid_que_lo_bloqueo` of TCBs. -/
theorem Despierta.marco {h : Dir} {bs : List Dir} (hd : Despierta h k bs k') :
    k' = { k with
      tcbs := k'.tcbs
      listaReady := k.listaReady ++ bs
      listaBlocked := k'.listaBlocked } := by
  induction hd with
  | nadie k => rw [List.append_nil]
  | @uno k k' i b bs hi hb hs ih =>
    rw [ih]
    simp [Estado.despertar, Estado.modTcb]

theorem Despierta.pid {h : Dir} {bs : List Dir} (hd : Despierta h k bs k') (d : Dir) :
    (k'.tcbs d).pid = (k.tcbs d).pid ∧ (k'.tcbs d).tid = (k.tcbs d).tid := by
  induction hd with
  | nadie k => exact ⟨rfl, rfl⟩
  | uno hi hb hs ih =>
    rw [ih.1, ih.2]
    exact despertar_pid _ _ _

/-- A woken thread was blocked, and no thread gets into or out of the two lists. -/
theorem Despierta.perm {h : Dir} {bs : List Dir} (hd : Despierta h k bs k') :
    (bs ++ k'.listaBlocked).Perm k.listaBlocked := by
  induction hd with
  | nadie k => exact List.Perm.refl _
  | @uno k k' i b bs hi hb hs ih =>
    obtain ⟨hlt, hget⟩ := List.getElem?_eq_some_iff.mp hi
    have hquita : (b :: k.listaBlocked.eraseIdx i).Perm k.listaBlocked := by
      rw [← hget]
      exact List.getElem_cons_eraseIdx_perm hlt
    exact (ih.cons b).trans hquita

/-- A woken thread waited for `h` before. -/
theorem Despierta.espera {h : Dir} {bs : List Dir} (hd : Despierta h k bs k') (hne : bs ≠ []) :
    ∃ b ∈ k.listaBlocked, k.espera h b := by
  cases hd with
  | nadie => exact absurd rfl hne
  | uno hi hb hs => exact ⟨_, List.mem_of_getElem? hi, hb⟩

theorem liberarMutex_ok {p : Dir} {tid : Uint32} {i : Nat}
    (h : (liberarMutex p tid i).run k = .ok () k') :
    ∃ ms, k' = k.modPcb p fun q => { q with mutex := ms } := by
  unfold liberarMutex at h
  obtain ⟨pcb, k₁, hl, h⟩ := bind_ok.mp h
  obtain ⟨rfl, rfl⟩ := leer_ok.mp hl
  have hnada : k = k.modPcb p fun q => { q with mutex := (k.pcbs p).mutex } := by
    simp [Estado.modPcb]
  cases hm : (k.pcbs p).mutex[i]? with
  | none =>
    simp only [hm] at h
    obtain ⟨-, rfl⟩ := pure_ok.mp h
    exact ⟨_, hnada⟩
  | some m =>
    simp only [hm] at h
    rcases ite_ok.mp h with ⟨-, h⟩ | ⟨-, h⟩
    · cases hq : m.bloqueadosMutex with
      | nil =>
        simp only [hq] at h
        obtain rfl := modify_ok.mp h
        exact ⟨_, rfl⟩
      | cons t resto =>
        simp only [hq] at h
        exact absurd h throw_ok
    · obtain ⟨-, rfl⟩ := pure_ok.mp h
      exact ⟨_, hnada⟩

theorem informarAMemoriaFinHilo_ok {h : Dir}
    (hr : (informarAMemoriaFinHilo h).run k = .ok () k') :
    k' = { k with enviados := k.enviados ++
      [.finalizarHilo (serializarFinalizarHilo (k.tcbs h).pid (k.tcbs h).tid)] } := by
  unfold informarAMemoriaFinHilo at hr
  obtain ⟨t, k₁, hl, hr⟩ := bind_ok.mp hr
  obtain ⟨rfl, rfl⟩ := leer_ok.mp hl
  exact (enviarPaquete_ok.mp hr).symm

theorem liberar_ok {h : Dir} (hr : (liberar ent h).run k = .ok () k') :
    h ∉ k.liberados ∧ k' = { k.modTcb h ent.residuo with liberados := h :: k.liberados } := by
  unfold liberar at hr
  obtain ⟨k₁, k₂, hg, hr⟩ := bind_ok.mp hr
  obtain ⟨rfl, rfl⟩ := get_ok.mp hg
  rcases ite_ok.mp hr with ⟨-, hr⟩ | ⟨hlib, hr⟩
  · exact absurd hr throw_ok
  · exact ⟨hlib, (modify_ok.mp hr).symm⟩

/-- The loop over the mutexes of a process changes their owners, and nothing else. -/
theorem liberarMutexs_ok {p : Dir} {tid : Uint32} {is : List Nat}
    (h : (each (liberarMutex p tid) is).run k = .ok () k') :
    ∃ ms, k' = k.modPcb p fun q => { q with mutex := ms } := by
  have h0 : k = k.modPcb p fun q => { q with mutex := (k.pcbs p).mutex } := by
    simp [Estado.modPcb]
  refine each_ok (I := fun _ s => ∃ ms, s = k.modPcb p fun q => { q with mutex := ms }) h
    ⟨_, h0⟩ ?_
  rintro i rest s₁ s₂ - ⟨ms, rfl⟩ hi
  obtain ⟨ms', rfl⟩ := liberarMutex_ok hi
  exact ⟨ms', by simp [Estado.modPcb]⟩

/-- `finalizar_hilo` up to the wake-ups: the thread is in `lista_exit`, its process `p` lost it
from the lists and memoria was told. -/
def Estado.terminarHilo (k : Estado) (h p : Dir) (ms : List TMutex) (tids : List Puntero) :
    Estado :=
  { ((k.setEstado h .exit).agregarExit h).modPcb p fun q =>
      { q with mutex := ms, listaTid := some tids } with
    enviados := k.enviados ++
      [.finalizarHilo (serializarFinalizarHilo (k.tcbs h).pid (k.tcbs h).tid)] }

/-- `finalizar_hilo` of a thread whose process is in `lista_procesos`: `bs` are the threads that
it wakes. -/
def Finaliza (ent : Entorno) (k : Estado) (h : Dir) (bs : List Dir) (k' : Estado) : Prop :=
  ∃ p ms tids k₁ m vs, k.buscarProceso (k.tcbs h).pid = some p ∧
    (k.pcbs p).listaTid ≠ none ∧ Despierta h (k.terminarHilo h p ms tids) bs k₁ ∧
    (∀ b ∈ k₁.listaBlocked, ¬ k₁.espera h b) ∧ h ∉ k.liberados ∧
    k' = { k₁.modTcb h ent.residuo with
      liberados := h :: k.liberados
      mutex := m
      valoresMutex := vs }

theorem finalizarHilo_ok {h : Dir} (hr : (finalizarHilo ent h).run k = .ok () k') :
    (k.buscarProceso (k.tcbs h).pid = none ∧
      ∃ m vs, k' = ((k.setEstado h .exit).agregarExit h).conCerrojo m vs) ∨
      ∃ bs, Finaliza ent k h bs k' := by
  unfold finalizarHilo at hr
  obtain ⟨_, k₁, hm, hr⟩ := bind_ok.mp hr
  obtain rfl := modify_ok.mp hm
  obtain ⟨_, k₂, hc, hr⟩ := bind_ok.mp hr
  obtain ⟨m₁, vs₁, m₂, vs₂, rfl⟩ := conMutex_modify_ok hc
  obtain ⟨t, k₃, hl, hr⟩ := bind_ok.mp hr
  obtain ⟨rfl, rfl⟩ := leer_ok.mp hl
  obtain ⟨proceso, k₄, hb, hr⟩ := bind_ok.mp hr
  obtain ⟨hp, m₃, vs₃, rfl⟩ := buscarProceso_ok hb
  have hpid : (((((k.setEstado h .exit).conCerrojo m₁ vs₁).agregarExit h).conCerrojo m₂ vs₂).tcbs
      h).pid = (k.tcbs h).pid := by
    simp [Estado.conCerrojo, Estado.agregarExit, Estado.setEstado, Estado.modTcb]
  have htid : (((((k.setEstado h .exit).conCerrojo m₁ vs₁).agregarExit h).conCerrojo m₂ vs₂).tcbs
      h).tid = (k.tcbs h).tid := by
    simp [Estado.conCerrojo, Estado.agregarExit, Estado.setEstado, Estado.modTcb]
  rw [hpid] at hp
  have hp' : proceso = k.buscarProceso (k.tcbs h).pid := hp
  cases hbus : k.buscarProceso (k.tcbs h).pid with
  | none =>
    simp only [hp', hbus] at hr
    obtain ⟨-, rfl⟩ := pure_ok.mp hr
    exact .inl ⟨rfl, m₃, vs₃, rfl⟩
  | some p =>
    simp only [hp', hbus] at hr
    obtain ⟨_, k₅, hq, hr⟩ := bind_ok.mp hr
    obtain ⟨tids, htids, rfl⟩ := quitarTid_ok hq
    obtain ⟨n, k₆, hl', hr⟩ := bind_ok.mp hr
    obtain ⟨rfl, rfl⟩ := leer_ok.mp hl'
    obtain ⟨_, k₇, he, hr⟩ := bind_ok.mp hr
    obtain ⟨ms, rfl⟩ := liberarMutexs_ok he
    obtain ⟨_, k₈, hi, hr⟩ := bind_ok.mp hr
    have hk₈ : k₈ =
        (k.terminarHilo h p ms (tids.erase (.entero (k.tcbs h).tid))).conCerrojo m₃ vs₃ := by
      rw [informarAMemoriaFinHilo_ok hi]
      simp [Estado.terminarHilo, Estado.conCerrojo, Estado.agregarExit, Estado.setEstado,
        Estado.modTcb, Estado.modPcb]
    obtain ⟨_, k₉, hd, hr⟩ := bind_ok.mp hr
    rw [hk₈] at hd
    obtain ⟨bs, k₁₀, m₄, vs₄, hdes, rfl, hnadie⟩ := desbloquearHilosPorTid_ok hd
    obtain ⟨hlib, rfl⟩ := liberar_ok hr
    have hlib' : k₁₀.liberados = k.liberados := by rw [hdes.marco]; rfl
    have htids' : (k.pcbs p).listaTid ≠ none := by
      rw [show (k.pcbs p).listaTid = some tids from htids]
      exact Option.some_ne_none tids
    refine .inr ⟨bs, p, ms, _, k₁₀, m₄, vs₄, hbus, htids', hdes, hnadie, ?_, ?_⟩
    · rw [← hlib']
      exact hlib
    · rw [← hlib']
      rfl

/-! ## The end of a process -/

theorem finalizarSiEsDe_ok {p h : Dir} (hr : (finalizarSiEsDe ent p h).run k = .ok () k') :
    ((k.tcbs h).pid ≠ (k.pcbs p).pid ∧ k' = k) ∨
      ((k.tcbs h).pid = (k.pcbs p).pid ∧ (finalizarHilo ent h).run k = .ok () k') := by
  unfold finalizarSiEsDe at hr
  obtain ⟨k₁, k₂, hg, hr⟩ := bind_ok.mp hr
  obtain ⟨rfl, rfl⟩ := get_ok.mp hg
  rcases ite_ok.mp hr with ⟨hpid, hr⟩ | ⟨hpid, hr⟩
  · exact .inr ⟨hpid, hr⟩
  · obtain ⟨-, rfl⟩ := pure_ok.mp hr
    exact .inl ⟨hpid, rfl⟩

theorem cerrarPcb_ok {p : Dir} (h : (cerrarPcb p).run k = .ok () k') :
    (k.pcbs p).listaTid ≠ none ∧ k' = k.modPcb p fun q =>
      { q with listaTid := none, estado := .exit, tidContador := -1, prioridadMain := -1 } := by
  unfold cerrarPcb at h
  obtain ⟨tids, htids, rfl⟩ := conListaTid_ok h
  exact ⟨htids ▸ Option.some_ne_none tids, rfl⟩

/-- `finalizar_proceso` of the process `p`, with the answer `"OK"`: the loop over `lista_tcbs`
goes from `k` to `k₁`. -/
def Estado.cerrarProceso (k₁ : Estado) (p : Dir) : Estado :=
  let k₂ := k₁.modPcb p fun q =>
    { q with listaTid := none, estado := .exit, tidContador := -1, prioridadMain := -1 }
  { k₂ with
    proximo := k₁.proximo + 1
    enviados := k₁.enviados ++
      [.asignarMemoria (k₂.pcbs (k₁.colaNew.headD k₁.proximo)).pid
        (k₂.pcbs (k₁.colaNew.headD k₁.proximo)).tamProceso] }

/-- The packet `FINALIZAR_PROCESO`. -/
def Estado.avisarFinProceso (k : Estado) (p : Dir) : Estado :=
  { k with enviados := k.enviados ++ [.finalizarProceso (k.pcbs p).pid] }

theorem finalizarProceso_ok {d : Option Dir} (h : (finalizarProceso ent d).run k = .ok () k') :
    ∃ p, d = some p ∧
      ((ent.mensajeFinProceso ≠ ['O', 'K'] ∧ k' = k.avisarFinProceso p) ∨
        ∃ k₁ m vs m' vs', ent.mensajeFinProceso = ['O', 'K'] ∧
          (each (finalizarSiEsDe ent p) k.listaTcbs).run
            ((k.avisarFinProceso p).conCerrojo m vs) = .ok () k₁ ∧
          (k₁.pcbs p).listaTid ≠ none ∧ k' = (k₁.cerrarProceso p).conCerrojo m' vs') := by
  unfold finalizarProceso at h
  obtain ⟨p, k₁, hd, h⟩ := bind_ok.mp h
  obtain ⟨rfl, rfl⟩ := desref_ok.mp hd
  obtain ⟨pid, k₂, hl, h⟩ := bind_ok.mp h
  obtain ⟨rfl, rfl⟩ := leer_ok.mp hl
  obtain ⟨_, k₃, he, h⟩ := bind_ok.mp h
  have hk₃ : k₃ = k.avisarFinProceso p := (enviarPaquete_ok.mp he).symm
  subst hk₃
  refine ⟨p, rfl, ?_⟩
  rcases ite_ok.mp h with ⟨hok, h⟩ | ⟨hok, h⟩
  · obtain ⟨_, k₄, hw, h⟩ := bind_ok.mp h
    obtain ⟨m, vs, rfl⟩ := semWaitMutex_ok hw
    obtain ⟨tcbs, k₅, hl', h⟩ := bind_ok.mp h
    obtain ⟨rfl, rfl⟩ := leer_ok.mp hl'
    obtain ⟨_, k₆, hloop, h⟩ := bind_ok.mp h
    obtain ⟨_, k₇, hp, h⟩ := bind_ok.mp h
    obtain ⟨m', vs', rfl⟩ := semPostMutex_ok hp
    obtain ⟨_, k₈, hc, h⟩ := bind_ok.mp h
    obtain ⟨htids, rfl⟩ := cerrarPcb_ok hc
    obtain rfl := iniciarProceso_ok h
    exact .inr ⟨k₆, m, vs, m', vs', hok, hloop, htids, rfl⟩
  · obtain ⟨-, rfl⟩ := pure_ok.mp h
    exact .inl ⟨hok, rfl⟩

end LastOfC.Kernel
