import LastOfC.Lib.Shuffle
import LastOfC.Memoria.MapaContextos

/-!
# The two listeners of memoria (`escuchar_kernel.c`, `escuchar_cpu.c`)

`escuchar_kernel` and `escuchar_cpu` are threads: which of two waiting requests is handled first is
up to the scheduler of the system. The requests of the kernel change the partitions and the list of
threads, and those of the CPU the bytes and the contexts.

* `Peticion.efecto`: what a request of the kernel does, from the partitions alone.
* `Peticion.cambio`, `Peticion.escribe` and `Peticion.contesta`: what a request of the CPU does,
  from the context of its thread and the bytes.
* `Ajena`: the two are not about the same thread. Then they swap (`swaps`).
* `orden_indiferente`: the order in which the listeners take their requests is seen by no one.
-/

namespace LastOfC.Memoria

open KeyedList Trace

/-! ## Requests of the CPU -/

/-- The thread whose context the request reads or writes. -/
def Peticion.hilo : Peticion → Option Clave
  | .hiloReady d => some (d.PID, d.TID)
  | .finalizarHilo d => some (d.pidInv, d.tidInv)
  | .obtenerContexto d => some (d.PID, d.TID)
  | .actualizarContexto d => some (d.pid, d.TID)
  | .obtenerInstruccion d => some (d.PID, d.TID)
  | .asignarMemoria _ | .finalizarProceso _ | .writeMem _ | .readMem _ => none

/-- The context that the request finds. -/
def Peticion.contexto (q : Peticion) (cs : List ContextoEjecucion) : Option ContextoEjecucion :=
  q.hilo.bind (mapaDe cs)

/-- The update of a context by a request of the CPU. -/
def Peticion.cambio : Peticion → ContextoEjecucion → Option ContextoEjecucion
  | .actualizarContexto d => fun c =>
    if decide (c.clave = (d.pid, d.TID)) then some (c.actualizar d) else none
  | _ => fun _ => none

/-- The bytes after a request of the CPU. -/
def Peticion.escribe (cfg : ConfigMemoria) (m : Nat → Byte) : Peticion → Nat → Byte
  | .writeMem d =>
    if direccionAceptada cfg d.dirFis then escribirPalabra m d.dirFis.toNat d.valor else m
  | _ => m

/-- The replies to a request of the CPU, which found `c`. -/
def Peticion.contesta (ent : Entorno) (c : Option ContextoEjecucion) (m : Nat → Byte) :
    Peticion → List Envio
  | .obtenerContexto _ => c.toList.map fun c => ⟨.cpu, .enviarContexto c.paraCpu⟩
  | .actualizarContexto _ => c.toList.map fun _ => ⟨.cpu, .confirmarContextoActualizado 1⟩
  | .obtenerInstruccion d =>
    (c.bind fun c => obtenerInstruccionPorPc ent d.PC c.instrucciones).toList.map fun i =>
      ⟨.cpu, .enviarInstruccion i⟩
  | .writeMem d =>
    if direccionAceptada ent.toConfigMemoria d.dirFis then [⟨.cpu, .confirmarWriteMem 1⟩] else []
  | .readMem d =>
    if direccionAceptada ent.toConfigMemoria d.dirFis then
      [⟨.cpu, .enviarReadMem (leerPalabra m d.dirFis.toNat)⟩]
    else []
  | _ => []

section Cpu

variable {ent : Entorno} {q : Peticion}

theorem mapaDe_eq_search (cs : List ContextoEjecucion) (pid tid : Uint32) :
    mapaDe cs (pid, tid) = (buscarContextoPorTid cs tid pid).map Prod.snd := by
  rw [mapaDe, toMap, buscarContextoPorTid, map_snd_search]

theorem actualizar_eq (s : Estado) (d : TContextoEjecucion) :
    actualizarContextoDeEjecucion s d =
      .ok ({ s with
        listaContextos := s.listaContextos.replaceF (Peticion.actualizarContexto d).cambio },
        (mapaDe s.listaContextos (d.pid, d.TID)).toList.map fun _ =>
          ⟨.cpu, .confirmarContextoActualizado 1⟩) := by
  rw [mapaDe_eq_search, actualizarContextoDeEjecucion]
  cases hb : buscarContextoPorTid s.listaContextos d.TID d.pid with
  | none =>
    have hno : s.listaContextos.replaceF (Peticion.actualizarContexto d).cambio =
        s.listaContextos :=
      List.replaceF_of_forall_none fun c hc => if_neg (by simpa using search_eq_none.mp hb c hc)
    rw [hno]
    rfl
  | some r =>
    show Except.ok ({ s with listaContextos := s.listaContextos.set r.1 (r.2.actualizar d) }, _) = _
    rw [set_of_search hb]
    rfl

theorem obtenerInstruccion_eq (s : Estado) (d : TObtenerInstruccion) :
    obtenerInstruccion ent s d =
      .ok (s, ((mapaDe s.listaContextos (d.PID, d.TID)).bind fun c =>
        obtenerInstruccionPorPc ent d.PC c.instrucciones).toList.map fun i =>
          ⟨.cpu, .enviarInstruccion i⟩) := by
  rw [mapaDe_eq_search, obtenerInstruccion]
  cases buscarContextoPorTid s.listaContextos d.TID d.PID with
  | none => rfl
  | some r =>
    simp only [Option.map_some, Option.bind_some]
    cases obtenerInstruccionPorPc ent d.PC r.2.instrucciones <;> rfl

/-- What a request of the CPU does. -/
theorem atender_cpu (hq : q.origen = .cpu) (s : Estado) :
    atender ent s q =
      .ok ({ s with
        listaContextos := s.listaContextos.replaceF q.cambio
        memoria := q.escribe ent.toConfigMemoria s.memoria },
        q.contesta ent (q.contexto s.listaContextos) s.memoria) := by
  have hsin : ∀ cs : List ContextoEjecucion, cs.replaceF (fun _ => none) = cs :=
    fun cs => List.replaceF_of_forall_none fun _ _ => rfl
  cases q with
  | obtenerContexto d =>
    show devolverContextoEjecucion s d = .ok ({ s with
      listaContextos := s.listaContextos.replaceF fun _ => none }, _)
    rw [devolverContextoEjecucion_eq, hsin]
    rfl
  | actualizarContexto d => exact actualizar_eq s d
  | obtenerInstruccion d =>
    show obtenerInstruccion ent s d = .ok ({ s with
      listaContextos := s.listaContextos.replaceF fun _ => none }, _)
    rw [obtenerInstruccion_eq, hsin]
    rfl
  | writeMem d =>
    show Memoria.writeMem ent.toConfigMemoria s d = .ok ({ s with
      listaContextos := s.listaContextos.replaceF fun _ => none
      memoria := Peticion.escribe ent.toConfigMemoria s.memoria (.writeMem d) }, _)
    rw [hsin]
    by_cases hd : direccionAceptada ent.toConfigMemoria d.dirFis
    · simp only [Memoria.writeMem, Peticion.escribe, Peticion.contesta, if_pos hd]
    · simp only [Memoria.writeMem, Peticion.escribe, Peticion.contesta, if_neg hd]
  | readMem d =>
    show Memoria.readMem ent.toConfigMemoria s d = .ok ({ s with
      listaContextos := s.listaContextos.replaceF fun _ => none }, _)
    rw [hsin]
    by_cases hd : direccionAceptada ent.toConfigMemoria d.dirFis
    · simp only [Memoria.readMem, Peticion.contesta, if_pos hd]
    · simp only [Memoria.readMem, Peticion.contesta, if_neg hd]
  | _ => cases hq

end Cpu

/-! ## Requests of the kernel -/

/-- What a request of the kernel does. -/
structure Efecto where
  particiones : List Particion
  contextos : List ContextoEjecucion → List ContextoEjecucion
  envios : List Envio

/-- The state after the request. -/
def Efecto.en (e : Efecto) (s : Estado) : Estado :=
  { s with listaParticiones := e.particiones, listaContextos := e.contextos s.listaContextos }

/-- A state with these partitions, and nothing else. -/
def soloParticiones (ps : List Particion) : Estado :=
  { listaParticiones := ps, listaContextos := [], memoria := fun _ => 0 }

/-- What a request of the kernel does when the partitions are `ps`. -/
def Peticion.efecto (ent : Entorno) (ps : List Particion) : Peticion → Except Falla Efecto
  | .hiloReady d =>
    match buscarParticionPorPid ps d.PID with
    | some p =>
      .ok ⟨ps, fun cs => cs ++ [nuevoContexto d p],
        [⟨.kernel, .confirmarCreacionHilo d.PID d.TID 1⟩]⟩
    | none => .error .punteroNulo
  | .finalizarHilo d =>
    .ok ⟨ps, fun cs => cs.eraseP fun c => c.clave = (d.pidInv, d.tidInv), []⟩
  | q => (atender ent (soloParticiones ps) q).map fun r => ⟨r.1.listaParticiones, id, r.2⟩

section Kernel

variable {ent : Entorno} {q : Peticion}

theorem crearProceso_efecto (s : Estado) (d : TAsignarMemoria) :
    atender ent s (.asignarMemoria d) =
      ((Peticion.asignarMemoria d).efecto ent s.listaParticiones).map
        fun e => (e.en s, e.envios) := by
  show crearProceso ent.toConfigMemoria s d =
    ((crearProceso ent.toConfigMemoria (soloParticiones s.listaParticiones) d).map _).map _
  unfold crearProceso
  cases ent.esquema with
  | fijas =>
    simp only [asignarParticionesFijas, soloParticiones]
    cases evaluarParticion ent.algoritmoBusqueda s.listaParticiones d.tamProceso <;> rfl
  | dinamicas =>
    simp only [asignarParticionesDinamicas, soloParticiones]
    cases evaluarParticion ent.algoritmoBusqueda s.listaParticiones d.tamProceso with
    | none => rfl
    | some r =>
      simp only
      split <;> rfl
  | otro => rfl

/-- What a request of the kernel does, on the contexts and the bytes that it finds. -/
theorem atender_kernel (hq : q.origen = .kernel) (s : Estado) :
    atender ent s q =
      (q.efecto ent s.listaParticiones).map fun e => (e.en s, e.envios) := by
  cases q with
  | asignarMemoria d => exact crearProceso_efecto s d
  | finalizarProceso pid => rfl
  | hiloReady d =>
    simp only [atender, crearHilo, Peticion.efecto]
    cases buscarParticionPorPid s.listaParticiones d.PID <;> rfl
  | finalizarHilo d =>
    show finalizarHilo s d = .ok ({ s with
      listaContextos := s.listaContextos.eraseP fun c => c.clave = (d.pidInv, d.tidInv) }, [])
    unfold finalizarHilo
    cases hb : buscarContextoPorTid s.listaContextos d.tidInv d.pidInv with
    | none =>
      have hno := search_eq_none.mp hb
      rw [List.eraseP_of_forall_not fun c hc => by simp [hno c hc]]
    | some r =>
      show Except.ok ({ s with listaContextos := s.listaContextos.eraseIdx r.1 }, []) = _
      rw [eraseIdx_of_search hb]
  | _ => cases hq

end Kernel

/-! ## Both -/

/-- The two requests are not about the same thread. -/
def Ajena (q r : Peticion) : Prop := ∀ k, q.hilo = some k → r.hilo ≠ some k

instance (q r : Peticion) : Decidable (Ajena q r) :=
  decidable_of_iff (q.hilo = none ∨ q.hilo ≠ r.hilo) <| by
    unfold Ajena
    cases q.hilo <;> simp [eq_comm]

section Cambio

variable {q : Peticion} {c c' : ContextoEjecucion}

/-- An update keeps the key, which is that of the thread of the request. -/
theorem Peticion.cambio_clave (h : q.cambio c = some c') :
    q.hilo = some c.clave ∧ c'.clave = c.clave := by
  cases q with
  | actualizarContexto d =>
    simp only [Peticion.cambio, decide_eq_true_eq, Option.ite_none_right_eq_some,
      Option.some.injEq] at h
    obtain ⟨hk, rfl⟩ := h
    exact ⟨by rw [hk]; rfl, rfl⟩
  | _ => cases h

end Cambio

section Swaps

variable {ent : Entorno} {q r : Peticion} {ps : List Particion} {e : Efecto}

/-- The kernel's request does not see the CPU's update, and the other way round. -/
theorem Peticion.efecto_ajeno (hq : q.origen = .kernel) (he : q.efecto ent ps = .ok e)
    (h : Ajena q r) (cs : List ContextoEjecucion) :
    (e.contextos cs).replaceF r.cambio = e.contextos (cs.replaceF r.cambio) ∧
      r.contexto (e.contextos cs) = r.contexto cs := by
  cases q with
  | hiloReady d =>
    simp only [Peticion.efecto] at he
    cases hp : buscarParticionPorPid ps d.PID with
    | none =>
      rw [hp] at he
      cases he
    | some p =>
      rw [hp] at he
      cases he
      have hclave : (nuevoContexto d p).clave = (d.PID, d.TID) := rfl
      constructor
      · refine replaceF_append_of_none ?_
        cases hc : r.cambio (nuevoContexto d p) with
        | none => rfl
        | some c' => exact absurd (r.cambio_clave hc).1 (h _ rfl)
      · unfold Peticion.contexto
        cases hk : r.hilo with
        | none => rfl
        | some k => exact toMap_append_of_ne fun heq => h _ rfl (by rw [hk, heq, hclave])
  | finalizarHilo d =>
    cases he
    constructor
    · refine replaceF_eraseP (fun c c' hc => ?_) cs
      obtain ⟨hk, hc'⟩ := r.cambio_clave hc
      have hne : c.clave ≠ (d.pidInv, d.tidInv) := fun heq => h _ rfl (by rw [hk, heq])
      exact ⟨decide_eq_false hne, decide_eq_false (by rwa [hc'])⟩
    · unfold Peticion.contexto
      cases hk : r.hilo with
      | none => rfl
      | some k =>
        refine find?_eraseP (fun c hc => decide_eq_false fun heq => h _ rfl ?_) cs
        rw [hk, ← heq, of_decide_eq_true hc]
  | asignarMemoria d =>
    simp only [Peticion.efecto] at he
    cases ha : atender ent (soloParticiones ps) (.asignarMemoria d) with
    | error f =>
      rw [ha] at he
      cases he
    | ok a =>
      rw [ha] at he
      cases he
      exact ⟨rfl, rfl⟩
  | finalizarProceso pid =>
    cases he
    exact ⟨rfl, rfl⟩
  | _ => cases hq

theorem atender_kernel_ok (hq : q.origen = .kernel) {s s' : Estado} {o : List Envio} :
    atender ent s q = .ok (s', o) ↔
      ∃ e, q.efecto ent s.listaParticiones = .ok e ∧ s' = e.en s ∧ o = e.envios := by
  rw [atender_kernel hq]
  cases q.efecto ent s.listaParticiones with
  | error f => simp [Except.map]
  | ok e => simp [Except.map, eq_comm]

/-- The request of the CPU can be handled before that of the kernel, and after it. -/
theorem swaps (hq : q.origen = .kernel) (hr : r.origen = .cpu) (h : Ajena q r) :
    Swaps (atender ent) q r ∧ Swaps (atender ent) r q := by
  constructor
  · intro s s₁ s₂ oa ob hfq hfr
    obtain ⟨e, he, rfl, rfl⟩ := (atender_kernel_ok hq).mp hfq
    obtain ⟨hcambio, hcontexto⟩ := Peticion.efecto_ajeno hq he h s.listaContextos
    rw [atender_cpu hr] at hfr
    cases hfr
    simp only [Efecto.en, hcontexto, hcambio]
    exact ⟨_, atender_cpu hr s, (atender_kernel_ok hq).mpr ⟨e, he, rfl, rfl⟩⟩
  · intro s s₁ s₂ oa ob hfr hfq
    rw [atender_cpu hr] at hfr
    cases hfr
    obtain ⟨e, he, rfl, rfl⟩ := (atender_kernel_ok hq).mp hfq
    obtain ⟨hcambio, hcontexto⟩ := Peticion.efecto_ajeno hq he h s.listaContextos
    refine ⟨e.en s, (atender_kernel_ok hq).mpr ⟨e, he, rfl, rfl⟩, ?_⟩
    rw [atender_cpu hr]
    simp only [Efecto.en, hcambio, hcontexto]

end Swaps

/-! ## Runs -/

section Runs

variable {ent : Entorno} {q : Peticion} {ks rs as bs : List Peticion} {s s' : Estado}
  {o : List Envio}

/-- A reply goes to the peer that sent the request. -/
theorem atender_fd (h : atender ent s q = .ok (s', o)) : ∀ e ∈ o, e.fd = q.origen := by
  cases hq : q.origen with
  | kernel =>
    cases q with
    | asignarMemoria d =>
      rcases crearProceso_casos h with ⟨-, -, rfl⟩ | ⟨i, p, -, -, ⟨-, -, -, rfl⟩ | ⟨-, -, rfl⟩⟩
      · simp
      · simp [confirmarEspacio]
      · simp [confirmarEspacio]
    | hiloReady d =>
      obtain ⟨e, he, -, rfl⟩ := (atender_kernel_ok hq).mp h
      simp only [Peticion.efecto] at he
      split at he
      · cases he
        simp
      · cases he
    | finalizarHilo d =>
      obtain ⟨e, he, -, rfl⟩ := (atender_kernel_ok hq).mp h
      cases he
      simp
    | finalizarProceso pid =>
      cases h
      simp
    | _ => cases hq
  | cpu =>
    rw [atender_cpu hq] at h
    cases h
    cases q with
    | writeMem d =>
      simp only [Peticion.contesta]
      split <;> simp
    | readMem d =>
      simp only [Peticion.contesta]
      split <;> simp
    | obtenerContexto d => simp [Peticion.contesta]
    | actualizarContexto d => simp [Peticion.contesta]
    | obtenerInstruccion d => simp [Peticion.contesta]
    | _ => cases hq

/-- The replies to the requests of one peer go to this peer. -/
theorem run_fd {fd : Fd} (has : ∀ q ∈ as, q.origen = fd)
    (h : run (atender ent) s as = .ok (s', o)) : ∀ e ∈ o, e.fd = fd := by
  refine run_invariant (I := fun os _ => ∀ e ∈ os, e.fd = fd) h (by simp) ?_
  intro os s₁ q s₂ o₁ hq hI hf e he
  rcases List.mem_append.mp he with he | he
  · exact hI e he
  · rw [atender_fd hf e he, has q hq]

/-- What a peer sees of a run in which its replies are `oa` and those of the other `ob`. -/
theorem filter_fd {oa ob : List Envio} {fd fd' : Fd} (hne : fd ≠ fd') (h : Shuffle oa ob o)
    (ha : ∀ e ∈ oa, e.fd = fd) (hb : ∀ e ∈ ob, e.fd = fd') : o.filter (·.fd = fd) = oa :=
  h.filter_left (fun e he => by simp [ha e he]) fun e he => by simp [hb e he, Ne.symm hne]

/-- **The order of the two listeners is seen by no one.** The kernel sends `ks` and the CPU sends
`rs`, none about a thread that the kernel creates or ends meanwhile. If the requests can be handled
in one order, then they can be in any other, with the same partitions, contexts and bytes at the
end, and each peer gets the same replies in the same order. -/
theorem orden_indiferente (hks : ∀ q ∈ ks, q.origen = .kernel) (hrs : ∀ r ∈ rs, r.origen = .cpu)
    (hajena : ∀ q ∈ ks, ∀ r ∈ rs, Ajena q r) (has : Shuffle ks rs as) (hbs : Shuffle ks rs bs)
    (h : run (atender ent) s as = .ok (s', o)) :
    ∃ o', run (atender ent) s bs = .ok (s', o') ∧
      ∀ fd, o'.filter (·.fd = fd) = o.filter (·.fd = fd) := by
  obtain ⟨s₁, oa, ob, o', hk, hr, ho, h', ho'⟩ :=
    run_shuffle_congr has hbs (fun q hq r hr => swaps (hks q hq) (hrs r hr) (hajena q hq r hr)) h
  have ha := run_fd hks hk
  have hb := run_fd hrs hr
  refine ⟨o', h', fun fd => ?_⟩
  cases fd with
  | kernel => rw [filter_fd (by decide) ho' ha hb, filter_fd (by decide) ho ha hb]
  | cpu => rw [filter_fd (by decide) ho'.symm hb ha, filter_fd (by decide) ho.symm hb ha]

/-- A thread of process 2 is created while thread 0 of process 2 reads its context and writes. -/
theorem orden_indiferente_dosHilos :
    let ent := entornoDinamico 100 (by decide)
    let nuevo := Peticion.hiloReady ⟨2, 1, 0, []⟩
    let lee := Peticion.obtenerContexto ⟨2, 0⟩
    let escribe := Peticion.writeMem ⟨12, 7, 2, 0⟩
    ∃ s' o o', run (atender ent) dosHilos [nuevo, lee, escribe, .finalizarProceso 1] = .ok (s', o) ∧
      run (atender ent) dosHilos [lee, nuevo, .finalizarProceso 1, escribe] = .ok (s', o') ∧
      ∀ fd, o'.filter (·.fd = fd) = o.filter (·.fd = fd) := by
  obtain ⟨s', o, h⟩ : ∃ s' o, run (atender (entornoDinamico 100 (by decide))) dosHilos
      [.hiloReady ⟨2, 1, 0, []⟩, .obtenerContexto ⟨2, 0⟩, .writeMem ⟨12, 7, 2, 0⟩,
        .finalizarProceso 1] = .ok (s', o) := ⟨_, _, rfl⟩
  have hbs : Shuffle [Peticion.hiloReady ⟨2, 1, 0, []⟩, .finalizarProceso 1]
      [Peticion.obtenerContexto ⟨2, 0⟩, .writeMem ⟨12, 7, 2, 0⟩]
      [.obtenerContexto ⟨2, 0⟩, .hiloReady ⟨2, 1, 0, []⟩, .finalizarProceso 1,
        .writeMem ⟨12, 7, 2, 0⟩] := .right <| .left <| .left <| .right .nil
  obtain ⟨o', h', ho⟩ := orden_indiferente (by decide) (by decide) (by decide)
    (.left <| .right <| .right <| .left .nil) hbs h
  exact ⟨s', o, o', h, h', ho⟩

end Runs

end LastOfC.Memoria
