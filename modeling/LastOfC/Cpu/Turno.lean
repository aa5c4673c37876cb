import LastOfC.Cpu.CpuMemoria
import LastOfC.Memoria.MapaContextos

/-!
# One thread at a time

* `Responde`: what memoria does with a request of the CPU, and what it answers.
* `Avance`: the steps of `CpuMemoria.paso` over the packets that are on their way to the listener,
  instead of the bytes. `paso_avance` is the refinement: it holds as long as no `recv` of
  `READ_MEM` takes bytes of a packet.
* `UnoPorVez`: a `RECIBIR_TID` is taken when no context is on its way and no thread will read the
  globals for another instruction, and a context arrives when no thread is left.
* `Turno`: then at most one thread has not ended, and while it may execute instructions the globals
  are those of its context.
-/

namespace LastOfC.Cpu

open KeyedList Trace
open Memoria (Peticion mapaDe buscarContextoPorTid obtenerInstruccionPorPc)

/-! ## Answers of memoria -/

/-- No line of a file is too long for a packet. -/
def LineasCortas (ent : Memoria.Entorno) : Prop :=
  ∀ path archivo, ent.archivos path = some archivo →
    ∀ l ∈ Memoria.lineas archivo, l.length + 14 ≤ 2 ^ 31

inductive Responde (ent : Memoria.Entorno) (m : Memoria.Estado) :
    Peticion → Memoria.Estado → List Llegada → Prop
  | calla (q : Peticion) : Responde ent m q m []
  | contexto (d : TEnviarContexto) (x : Memoria.ContextoEjecucion)
    (hx : mapaDe m.listaContextos (d.PID, d.TID) = some x) :
    Responde ent m (.obtenerContexto d) m [.contexto x.paraCpu]
  | actualiza (d : TContextoEjecucion) (i : Nat) (x : Memoria.ContextoEjecucion)
    (hx : buscarContextoPorTid m.listaContextos d.TID d.pid = some (i, x)) :
    Responde ent m (.actualizarContexto d)
      { m with listaContextos := m.listaContextos.set i (x.actualizar d) }
      [.contextoActualizado 1]
  | instruccion (d : TObtenerInstruccion) (x : Memoria.ContextoEjecucion) (t : Cadena)
    (hx : mapaDe m.listaContextos (d.PID, d.TID) = some x)
    (ht : obtenerInstruccionPorPc ent d.PC x.instrucciones = some t) :
    Responde ent m (.obtenerInstruccion d) m [.instruccion t]
  | escribe (d : TDatosWriteMem) (bytes : Nat → Byte) :
    Responde ent m (.writeMem d) { m with memoria := bytes } [.nada]
  | lee (d : TDatosReadMem) : Responde ent m (.readMem d) m [.nada]

section Memoria

variable {ent : Memoria.Entorno} {m m' : Memoria.Estado} {q : Peticion} {o : List Memoria.Envio}

/-- An instruction is part of a line. -/
theorem corta_obtenerInstruccionPorPc (h : LineasCortas ent) {pc : Uint32} {path t : Cadena}
    (ht : obtenerInstruccionPorPc ent pc path = some t) : t.length + 14 ≤ 2 ^ 31 := by
  unfold obtenerInstruccionPorPc at ht
  split at ht
  · rename_i archivo harchivo
    obtain ⟨l, hl, rfl⟩ := List.mem_map.mp (List.mem_of_getElem? ht)
    have hcorta := h _ _ harchivo l hl
    have hle : (Memoria.strdup l).length ≤ l.length :=
      (List.takeWhile_sublist _).length_le
    omega
  · cases ht

theorem atender_responde (hlineas : LineasCortas ent) (hq : q.origen = .cpu)
    (h : Memoria.atender ent m q = .ok (m', o)) :
    Responde ent m q m' ((o.map (·.paquete)).map llegadaDe) ∧ ∀ r ∈ o.map (·.paquete), Corta r := by
  cases q with
  | asignarMemoria d => cases hq
  | finalizarProceso pid => cases hq
  | hiloReady d => cases hq
  | finalizarHilo d => cases hq
  | obtenerContexto d =>
    replace h : Memoria.devolverContextoEjecucion m d = .ok (m', o) := h
    unfold Memoria.devolverContextoEjecucion at h
    split at h
    · rename_i i c hc
      cases h
      exact ⟨.contexto d c (search_toMap hc), by simp [Corta]⟩
    · cases h
      exact ⟨.calla _, by simp⟩
  | actualizarContexto d =>
    replace h : Memoria.actualizarContextoDeEjecucion m d = .ok (m', o) := h
    unfold Memoria.actualizarContextoDeEjecucion at h
    split at h
    · rename_i i c hc
      cases h
      exact ⟨.actualiza d i c hc, by simp [Corta]⟩
    · cases h
      exact ⟨.calla _, by simp⟩
  | obtenerInstruccion d =>
    replace h : Memoria.obtenerInstruccion ent m d = .ok (m', o) := h
    unfold Memoria.obtenerInstruccion at h
    split at h
    · cases h
      exact ⟨.calla _, by simp⟩
    · rename_i i c hc
      split at h
      · cases h
        exact ⟨.calla _, by simp⟩
      · rename_i t ht
        cases h
        refine ⟨.instruccion d c t (search_toMap hc) ht, ?_⟩
        simpa [Corta] using corta_obtenerInstruccionPorPc hlineas ht
  | writeMem d =>
    replace h : Memoria.writeMem ent.toConfigMemoria m d = .ok (m', o) := h
    unfold Memoria.writeMem at h
    split at h
    · cases h
      exact ⟨.escribe d _, by simp [Corta]⟩
    · cases h
      exact ⟨.calla _, by simp⟩
  | readMem d =>
    replace h : Memoria.readMem ent.toConfigMemoria m d = .ok (m', o) := h
    unfold Memoria.readMem at h
    split at h
    · cases h
      exact ⟨.lee d, by simp [Corta]⟩
    · cases h
      exact ⟨.calla _, by simp⟩

end Memoria

/-! ## Steps over packets -/

/-- A step of a CPU that goes on, when `ls` is on its way to the listener, and what is on its way
after it. -/
inductive Avance (ent : Memoria.Entorno) (s : CpuMemoria) (ls : List Llegada) :
    Paso → CpuMemoria → List Llegada → Prop
  | recibirTid (pid tid : Uint32) :
    Avance ent s ls (.recibirTid pid tid) (s.recibirTid pid tid) ls
  | interrupcion : Avance ent s ls .interrupcion { s with controlKeyInterrupt := 1 } ls
  | ciclo (k : Nat) (c : TContextoEjecucion) (fase : Fase) (s' : CpuMemoria) (o : List Salida)
    (hk : s.ciclos[k]? = some ⟨c, fase⟩) (h : Giro s k c fase s' o) :
    Avance ent s ls (.ciclo k) s' ls
  | byte (basura : Basura) (flujo leido : List Byte) :
    Avance ent s ls (.escucha basura) { s with flujo, leido } ls
  | llega (basura : Basura) (flujo leido : List Byte) (l : Llegada) (ls' : List Llegada)
    (hls : ls = l :: ls') (h : ∀ c, l = .contexto c → s.empieza basura = true) :
    Avance ent s ls (.escucha basura) (({ s with flujo, leido } : CpuMemoria).recibir l) ls'
  | responde (malloc : Malloc) (q : Peticion) (resto : List Peticion) (m' : Memoria.Estado)
    (flujo : List Byte) (rs : List Llegada) (hq : s.peticiones = q :: resto)
    (h : Responde ent s.memoria q m' rs) :
    Avance ent s ls (.memoriaCpu malloc)
      { s with memoria := m', peticiones := resto, flujo } (ls ++ rs)
  | kernel (q : Peticion) (m' : Memoria.Estado) (o : List Memoria.Envio)
    (hq : q.origen = .kernel) (h : Memoria.atender ent s.memoria q = .ok (m', o)) :
    Avance ent s ls (.memoriaKernel q) { s with memoria := m' } ls

/-- The step is no `recv` of `READ_MEM`. -/
def Paso.esRecv : Paso → Bool
  | .recv _ _ _ => true
  | _ => false

section Avances

variable {ent : Memoria.Entorno} {s s' : CpuMemoria} {ls : List Llegada} {a : Paso}
  {o : List Salida}

/-- A step of the CPU is one of a CPU that has not ended. -/
theorem enCpu_ok {x : ResultadoPaso} (h : s.enCpu x = .ok (s', o)) :
    s.vivo = true ∧ x = .ok (s', o) := by
  unfold CpuMemoria.enCpu at h
  split at h
  · rename_i hvivo
    exact ⟨hvivo, h⟩
  · cases h

/-- Memoria changes nothing of what the threads of the CPU have. -/
theorem atenderCpu_ok {malloc : Malloc} (h : s.atenderCpu ent malloc = .ok (s', o)) :
    s'.vivo = s.vivo ∧ o = [] := by
  unfold CpuMemoria.atenderCpu at h
  split at h
  · cases h
  · split at h
    · split at h
      · cases h
      · split at h
        · cases h
          exact ⟨rfl, rfl⟩
        · cases h
    · cases h
      exact ⟨rfl, rfl⟩

theorem atenderKernel_ok {q : Peticion} (h : s.atenderKernel ent q = .ok (s', o)) :
    s'.vivo = s.vivo ∧ o = [] := by
  unfold CpuMemoria.atenderKernel at h
  split at h
  · split at h
    · cases h
    · cases h
      exact ⟨rfl, rfl⟩
  · cases h

theorem giro_flujo {k : Nat} {c : TContextoEjecucion} {fase : Fase} (h : Giro s k c fase s' o) :
    s'.leido = s.leido ∧ s'.flujo = s.flujo := by
  cases h <;> exact ⟨rfl, rfl⟩

theorem recibir_flujo (s : CpuMemoria) (l : Llegada) :
    (s.recibir l).leido = s.leido ∧ (s.recibir l).flujo = s.flujo := by
  cases l with
  | contextoActualizado bit =>
    unfold CpuMemoria.recibir
    dsimp only
    split
    · exact ⟨rfl, rfl⟩
    · exact ⟨rfl, rfl⟩
  | _ => exact ⟨rfl, rfl⟩

/-- **The refinement.** A step is one over packets, and leaves whole packets on their way. -/
theorem paso_avance (hlineas : LineasCortas ent) (ha : a.esRecv = false)
    (hf : Flujo (s.leido ++ s.flujo) ls) (h : s.paso ent a = .ok (s', o)) (hv : s'.vivo = true) :
    ∃ ls', Avance ent s ls a s' ls' ∧ Flujo (s'.leido ++ s'.flujo) ls' := by
  cases a with
  | recibirTid pid tid =>
    cases (enCpu_ok h).2
    exact ⟨ls, .recibirTid pid tid, hf⟩
  | interrupcion =>
    cases (enCpu_ok h).2
    exact ⟨ls, .interrupcion, hf⟩
  | desconexionInterrupt =>
    cases (enCpu_ok h).2
    cases hv
  | ciclo k =>
    obtain ⟨c, fase, hk, hg⟩ := girar_casos (enCpu_ok h).2
    obtain ⟨hleido, hflujo⟩ := giro_flujo hg
    refine ⟨ls, .ciclo k c fase s' o hk hg, ?_⟩
    rwa [hleido, hflujo]
  | recv k n basura => cases ha
  | escucha basura =>
    replace h := (enCpu_ok h).2
    unfold CpuMemoria.escuchar at h
    split at h
    · cases h
    · rename_i b flujo hflujo
      have hbytes : s.leido ++ s.flujo = (s.leido ++ [b]) ++ flujo := by
        rw [hflujo, List.append_assoc, List.singleton_append]
      rw [hbytes] at hf
      split at h
      · split at h
        · cases h
          exact ⟨ls, .byte basura _ _, hf⟩
        · rename_i leido hp
          obtain ⟨p, l, ls', hq, -⟩ := hf.llega (by simp) hp
          cases hq
        · rename_i p leido hp
          obtain ⟨p', l, ls', hq, hl, rfl, hf'⟩ := hf.llega (by simp) hp
          cases hq
          rw [hl] at h
          cases h
          obtain ⟨hleido, hflujo'⟩ := recibir_flujo { s with flujo, leido } l
          refine ⟨ls', .llega basura flujo leido l ls' rfl ?_, ?_⟩
          · rintro c rfl
            unfold CpuMemoria.empieza
            simp only [hflujo, hp]
            exact decide_eq_true (leerLlegada_contexto hl)
          · rwa [hleido, hflujo']
      · cases h
  | memoriaCpu malloc =>
    replace h : s.atenderCpu ent malloc = .ok (s', o) := h
    unfold CpuMemoria.atenderCpu at h
    split at h
    · cases h
    · rename_i q resto hq
      split at h
      · rename_i hcpu
        split at h
        · cases h
        · rename_i m' o' hat
          obtain ⟨hr, hcorta⟩ := atender_responde hlineas hcpu hat
          split at h
          · rename_i bytes hbytes
            cases h
            refine ⟨_, .responde malloc q resto m' _ _ hq hr, ?_⟩
            show Flujo (s.leido ++ (s.flujo ++ bytes)) _
            rw [← List.append_assoc]
            exact hf.agrega hbytes hcorta
          · cases h
      · cases h
        refine ⟨_, .responde malloc q resto s.memoria s.flujo [] hq (.calla q), ?_⟩
        rwa [List.append_nil]
  | memoriaKernel q =>
    replace h : s.atenderKernel ent q = .ok (s', o) := h
    unfold CpuMemoria.atenderKernel at h
    split at h
    · rename_i hq
      split at h
      · cases h
      · rename_i m' o' hat
        cases h
        exact ⟨ls, .kernel q m' o' hq hat, hf⟩
    · cases h

end Avances

/-! ## The turn -/

/-- The thread decodes no more instructions: the one that it has decoded is a syscall, and
`control_key` is 0 after it. -/
def Fase.cedio (controlKey : CInt) : Fase → Bool
  | .ejecuta i => i.esSyscall
  | .esperaSyscall _ | .enviaSyscall _ | .apaga | .fin => true
  | .revisa | .limpia | .corta => controlKey = 0
  | _ => false

def Ciclo.vive (c : Ciclo) : Bool := c.fase ≠ .fin

def pideContexto : Peticion → Bool
  | .obtenerContexto _ => true
  | _ => false

def traeContexto : Llegada → Bool
  | .contexto _ => true
  | _ => false

/-- How many contexts are on their way. -/
def despachos (s : CpuMemoria) (ls : List Llegada) : Nat :=
  s.peticiones.countP pideContexto + ls.countP traeContexto

/-- No context is on its way. -/
def CpuMemoria.sinDespachos (s : CpuMemoria) : Bool :=
  !s.peticiones.any pideContexto &&
    !traeAlgunContexto (s.leido ++ s.flujo).length (s.leido ++ s.flujo)

/-- The threads take turns: a `RECIBIR_TID` is taken when no context is on its way and all threads
have given up the CPU, and a context is taken when all threads have ended. -/
def UnoPorVez (s : CpuMemoria) : Paso → Prop
  | .recibirTid _ _ =>
    s.sinDespachos = true ∧ ∀ c ∈ s.ciclos, c.fase.cedio s.controlKey = true
  | .escucha basura => s.empieza basura = true → ∀ c ∈ s.ciclos, c.fase = .fin
  | _ => True

instance (s : CpuMemoria) : ∀ a, Decidable (UnoPorVez s a)
  | .recibirTid _ _ => inferInstanceAs (Decidable (_ ∧ _))
  | .escucha _ => inferInstanceAs (Decidable (_ → _))
  | .interrupcion | .desconexionInterrupt | .ciclo _ | .recv _ _ _ | .memoriaCpu _
  | .memoriaKernel _ => instDecidableTrue

/-- The invariant, when `ls` is on its way to the listener. -/
structure Turno (s : CpuMemoria) (ls : List Llegada) : Prop where
  uno : s.ciclos.countP Ciclo.vive ≤ 1
  despacho : despachos s ls ≤ 1
  cedieron : 0 < despachos s ls → ∀ c ∈ s.ciclos, c.fase.cedio s.controlKey = true
  pedido : ∀ d, .obtenerContexto d ∈ s.peticiones → d.PID = s.PidHilo ∧ d.TID = s.TidHilo
  llegada : ∀ c, .contexto c ∈ ls → c.pid = s.PidHilo ∧ c.TID = s.TidHilo
  actual : ∀ c ∈ s.ciclos, c.fase.cedio s.controlKey = false →
    s.controlKey = 1 ∧ s.PidHilo = c.contexto.pid ∧ s.TidHilo = c.contexto.TID
  particion : ∀ c ∈ s.ciclos, c.fase ≠ .fin →
    s.parteActual = ⟨c.contexto.base, c.contexto.limite⟩

section Turnos

variable {ent : Memoria.Entorno} {s s' : CpuMemoria} {ls ls' : List Llegada} {a : Paso}
  {o : List Salida} {k : Nat} {c : TContextoEjecucion} {fase : Fase}

/-- All other threads have ended. -/
theorem solo {l : List Ciclo} {x : Ciclo} (h : l.countP Ciclo.vive ≤ 1) (hk : l[k]? = some x)
    (hx : x.fase ≠ .fin) (y : Ciclo) : ∃ pre post, l = pre ++ x :: post ∧
      l.set k y = pre ++ y :: post ∧ ∀ z ∈ pre ++ post, z.fase = .fin := by
  obtain ⟨pre, post, rfl, rfl⟩ := exists_split hk
  refine ⟨pre, post, rfl, set_split pre post x y, fun z hz => ?_⟩
  have hvive : x.vive = true := decide_eq_true hx
  rw [List.countP_append, List.countP_cons, hvive, if_pos rfl] at h
  have hcero : (pre ++ post).countP Ciclo.vive = 0 := by
    rw [List.countP_append]
    omega
  have hz' := List.countP_eq_zero.mp hcero z hz
  by_contra hne
  exact hz' (decide_eq_true hne)

theorem mem_set_solo {l : List Ciclo} {x y z : Ciclo} (h : l.countP Ciclo.vive ≤ 1)
    (hk : l[k]? = some x) (hx : x.fase ≠ .fin) (hz : z ∈ l.set k y) :
    z = y ∨ z ∈ l ∧ z.fase = .fin := by
  obtain ⟨pre, post, hl, hset, hfin⟩ := solo h hk hx y
  rw [hset] at hz
  rcases List.mem_append.mp hz with hz | hz
  · exact .inr ⟨hl ▸ List.mem_append_left _ hz, hfin z (List.mem_append_left _ hz)⟩
  · rcases List.mem_cons.mp hz with rfl | hz
    · exact .inl rfl
    · exact .inr ⟨hl ▸ List.mem_append_right _ (List.mem_cons_of_mem _ hz),
        hfin z (List.mem_append_right _ hz)⟩

/-- Only this thread counts. -/
theorem countP_set_solo {l : List Ciclo} {x : Ciclo} (h : l.countP Ciclo.vive ≤ 1)
    (hk : l[k]? = some x) (hx : x.fase ≠ .fin) (y : Ciclo) {p : Fase → Bool}
    (hp : p .fin = false) : (l.set k y).countP (fun z => p z.fase) = (p y.fase).toNat := by
  obtain ⟨pre, post, -, hset, hfin⟩ := solo h hk hx y
  have hcero : (pre ++ post).countP (fun z => p z.fase) = 0 :=
    List.countP_eq_zero.mpr fun z hz => by simp [hfin z hz, hp]
  rw [List.countP_append] at hcero
  rw [hset, List.countP_append, List.countP_cons]
  cases hy : p y.fase with
  | false =>
    rw [if_neg Bool.false_ne_true]
    exact hcero
  | true =>
    rw [if_pos rfl, ← Nat.add_assoc, hcero]
    rfl

theorem countP_solo {l : List Ciclo} {x : Ciclo} (h : l.countP Ciclo.vive ≤ 1)
    (hk : l[k]? = some x) (hx : x.fase ≠ .fin) {p : Fase → Bool} (hp : p .fin = false) :
    l.countP (fun z => p z.fase) = (p x.fase).toNat := by
  obtain ⟨hlt, heq⟩ := List.getElem?_eq_some_iff.mp hk
  have hset := countP_set_solo h hk hx x hp
  rwa [← heq, List.set_getElem_self hlt, heq] at hset

/-- Requests of another kind. -/
theorem countP_agrega {p : Peticion → Bool} {l qs : List Peticion} (h : ∀ q ∈ qs, p q = false) :
    (l ++ qs).countP p = l.countP p := by
  have hcero : qs.countP p = 0 := List.countP_eq_zero.mpr fun q hq => by simp [h q hq]
  rw [List.countP_append, hcero, Nat.add_zero]

/-- What any step of a thread does. -/
structure Gira (s : CpuMemoria) (k : Nat) (c : TContextoEjecucion) (fase : Fase)
    (s' : CpuMemoria) : Prop where
  vivia : fase ≠ .fin
  ciclos : ∃ c' fase', s'.ciclos = s.ciclos.set k ⟨c', fase'⟩ ∧ MismoHilo c c' ∧
    (fase.cedio s.controlKey = true → fase'.cedio s'.controlKey = true) ∧
    (s'.controlKey = s.controlKey ∨ fase'.cedio s'.controlKey = true)
  peticiones : ∃ qs, s'.peticiones = s.peticiones ++ qs ∧ ∀ q ∈ qs, pideContexto q = false
  globales : s'.PidHilo = s.PidHilo ∧ s'.TidHilo = s.TidHilo ∧ s'.parteActual = s.parteActual

theorem giro_gira (h : Giro s k c fase s' o) (hv : s'.vivo = true) : Gira s k c fase s' := by
  have hnada : ∃ qs, s.peticiones = s.peticiones ++ qs ∧ ∀ q ∈ qs, pideContexto q = false :=
    ⟨[], by simp, by simp⟩
  cases h with
  | pide hkey =>
    exact ⟨by simp, ⟨c, _, rfl, .refl c, by simp [Fase.cedio], .inl rfl⟩, ⟨_, rfl, by
      simp [pideContexto]⟩, rfl, rfl, rfl⟩
  | vuelve hkey =>
    exact ⟨by simp, ⟨c, _, rfl, .refl c, by simp [Fase.cedio], .inl rfl⟩, hnada, rfl, rfl, rfl⟩
  | recibe hsem =>
    exact ⟨by simp, ⟨c, _, rfl, .refl c, by simp [Fase.cedio], .inl rfl⟩, hnada, rfl, rfl, rfl⟩
  | decodifica t ht =>
    exact ⟨by simp, ⟨c, _, rfl, .refl c, by simp [Fase.cedio], .inl rfl⟩, hnada, rfl, rfl, rfl⟩
  | nulo hn => cases hv
  | sigue i c' envios he =>
    obtain ⟨qs, hqs, hescribe⟩ := enviar_sigue he s
    refine ⟨by simp, ⟨c', _, rfl, (execute_sigue he).1, fun hs => ?_, .inl rfl⟩, ⟨qs, hqs, ?_⟩,
      rfl, rfl, rfl⟩
    · rw [execute_of_esSyscall hs] at he
      cases he
    · intro q hq
      obtain ⟨d, rfl⟩ := hescribe q hq
      rfl
  | llama i c' he =>
    obtain rfl := execute_syscall he
    exact ⟨by simp, ⟨_, _, rfl, ⟨rfl, rfl, rfl, rfl⟩, by simp [Fase.cedio], .inl rfl⟩,
      ⟨_, rfl, by simp [pideContexto]⟩, rfl, rfl, rfl⟩
  | lee i registro datos he =>
    refine ⟨by simp, ⟨c, _, rfl, .refl c, fun hs => ?_, .inl rfl⟩,
      ⟨_, rfl, by simp [pideContexto]⟩, rfl, rfl, rfl⟩
    rw [execute_of_esSyscall hs] at he
    cases he
  | sale i envios he => cases hv
  | falla i f he => cases hv
  | pasa i hsem =>
    exact ⟨by simp, ⟨c, _, rfl, .refl c, by simp [Fase.cedio], .inl rfl⟩, hnada, rfl, rfl, rfl⟩
  | envia i paquete hp =>
    exact ⟨by simp, ⟨c, _, rfl, .refl c, by simp [Fase.cedio], .inl rfl⟩, hnada, rfl, rfl, rfl⟩
  | cae i f hf => cases hv
  | apaga =>
    have hcero : Fase.revisa.cedio 0 = true := rfl
    exact ⟨by simp, ⟨c, _, rfl, .refl c, fun _ => hcero, .inr hcero⟩, hnada, rfl, rfl, rfl⟩
  | interrumpe hint =>
    exact ⟨by simp, ⟨c, _, rfl, .refl c, id, .inl rfl⟩, ⟨_, rfl, by simp [pideContexto]⟩, rfl, rfl,
      rfl⟩
  | revisa hint => exact ⟨by simp, ⟨c, _, rfl, .refl c, id, .inl rfl⟩, hnada, rfl, rfl, rfl⟩
  | limpia => exact ⟨by simp, ⟨c, _, rfl, .refl c, id, .inl rfl⟩, hnada, rfl, rfl, rfl⟩
  | corta =>
    refine ⟨by simp, ⟨c, _, rfl, .refl c, fun hcero => ?_, .inl rfl⟩, hnada, rfl, rfl, rfl⟩
    rw [if_pos (of_decide_eq_true hcero)]
    rfl

/-- A thread asks for no context. -/
theorem Gira.despachos_eq (hg : Gira s k c fase s') : despachos s' ls = despachos s ls := by
  obtain ⟨qs, hqs, hninguno⟩ := hg.peticiones
  unfold despachos
  rw [hqs, countP_agrega hninguno]

/-- A step of a thread. -/
theorem Turno.gira (ht : Turno s ls) (hk : s.ciclos[k]? = some ⟨c, fase⟩)
    (hg : Gira s k c fase s') : Turno s' ls := by
  have hdesp : despachos s' ls = despachos s ls := hg.despachos_eq
  obtain ⟨hvivia, ⟨c', fase', hciclos, hmismo, hcede, hkey⟩, ⟨qs, hqs, hninguno⟩,
    hpid, htid, hparte⟩ := hg
  have hmem : (⟨c, fase⟩ : Ciclo) ∈ s.ciclos := List.mem_of_getElem? hk
  -- A thread after the step is `k`, or one that has ended.
  have hcada : ∀ x ∈ s'.ciclos, x = ⟨c', fase'⟩ ∨ x ∈ s.ciclos ∧ x.fase = .fin :=
    fun x hx => mem_set_solo ht.uno hk hvivia (hciclos ▸ hx)
  constructor
  · have hvive := countP_set_solo ht.uno hk hvivia ⟨c', fase'⟩ (p := fun f => f ≠ .fin) rfl
    rw [hciclos]
    exact (Nat.le_of_eq hvive).trans (Bool.toNat_le _)
  · rw [hdesp]
    exact ht.despacho
  · intro hpos x hx
    rw [hdesp] at hpos
    rcases hcada x hx with rfl | ⟨-, hx⟩
    · exact hcede (ht.cedieron hpos _ hmem)
    · rw [hx]
      rfl
  · intro d hd
    rw [hpid, htid]
    rw [hqs] at hd
    rcases List.mem_append.mp hd with hd | hd
    · exact ht.pedido d hd
    · cases hninguno _ hd
  · rw [hpid, htid]
    exact ht.llegada
  · intro x hx hno
    rcases hcada x hx with rfl | ⟨-, hx⟩
    · have hno' : fase.cedio s.controlKey = false := by
        by_contra hsi
        rw [hcede (Bool.eq_true_of_not_eq_false hsi)] at hno
        cases hno
      obtain ⟨huno, hp, htd⟩ := ht.actual _ hmem hno'
      rcases hkey with hkey | hkey
      · exact ⟨hkey.trans huno, by rw [hpid, hp, hmismo.1], by rw [htid, htd, hmismo.2.1]⟩
      · rw [hkey] at hno
        cases hno
    · rw [hx] at hno
      cases hno
  · intro x hx hno
    rcases hcada x hx with rfl | ⟨-, hx⟩
    · rw [hparte, ht.particion _ hmem hvivia, hmismo.2.2.1, hmismo.2.2.2]
    · exact absurd hx hno

theorem despachos_eq_zero (hf : Flujo (s.leido ++ s.flujo) ls) (h : s.sinDespachos = true) :
    despachos s ls = 0 := by
  obtain ⟨hp, hl⟩ := Bool.and_eq_true_iff.mp h
  have hpide : s.peticiones.countP pideContexto = 0 :=
    List.countP_eq_zero.mpr (by simpa using hp)
  have htrae : ls.countP traeContexto = 0 := by
    refine List.countP_eq_zero.mpr fun l hmem hl' => ?_
    cases l with
    | contexto c => exact hf.sinContextos (Nat.le_refl _) (by simpa using hl) c hmem
    | _ => cases hl'
  unfold despachos
  rw [hpide, htrae]

/-- A packet `RECIBIR_TID` in its turn. -/
theorem Turno.recibirTid (ht : Turno s ls) (pid tid : Uint32) (hcero : despachos s ls = 0)
    (hcede : ∀ c ∈ s.ciclos, c.fase.cedio s.controlKey = true) :
    Turno (s.recibirTid pid tid) ls := by
  obtain ⟨hp, hl⟩ := Nat.add_eq_zero_iff.mp hcero
  constructor
  · exact ht.uno
  · show (s.peticiones ++ [_]).countP pideContexto + ls.countP traeContexto ≤ 1
    rw [List.countP_append, hp, hl]
    exact Nat.le_refl _
  · exact fun _ => hcede
  · intro d hd
    rcases List.mem_append.mp hd with hd | hd
    · exact absurd rfl (List.countP_eq_zero.mp hp _ hd)
    · cases List.mem_singleton.mp hd
      exact ⟨rfl, rfl⟩
  · exact fun c hc => absurd rfl (List.countP_eq_zero.mp hl _ hc)
  · intro c hc hno
    have hsi : c.fase.cedio s.controlKey = true := hcede c hc
    replace hno : c.fase.cedio s.controlKey = false := hno
    rw [hsi] at hno
    cases hno
  · exact ht.particion

/-- A context starts a thread. -/
theorem mem_recibirContexto {x : Ciclo} (hx : x ∈ (s.recibir (.contexto c)).ciclos) :
    x = ⟨c, .inicio⟩ ∨ x ∈ s.ciclos :=
  (List.mem_append.mp hx).symm.imp_left List.mem_singleton.mp

/-- A context that arrives in its turn. -/
theorem Turno.recibirContexto (ht : Turno s (.contexto c :: ls))
    (hfin : ∀ c ∈ s.ciclos, c.fase = .fin) : Turno (s.recibir (.contexto c)) ls := by
  have hdesp : despachos s (.contexto c :: ls) = despachos s ls + 1 := by
    unfold despachos
    rw [List.countP_cons_of_pos rfl]
    rfl
  have hcero : despachos s ls = 0 := by
    have hdespacho := ht.despacho
    omega
  have hcada : ∀ x ∈ (s.recibir (.contexto c)).ciclos, x = ⟨c, .inicio⟩ ∨ x.fase = .fin :=
    fun x hx => (mem_recibirContexto hx).imp_right (hfin x)
  constructor
  · have hcero : s.ciclos.countP Ciclo.vive = 0 :=
      List.countP_eq_zero.mpr fun x hx => by simp [Ciclo.vive, hfin x hx]
    show (s.ciclos ++ [_]).countP Ciclo.vive ≤ 1
    rw [List.countP_append, hcero]
    rfl
  · show despachos s ls ≤ 1
    omega
  · intro hpos
    have hpos' : 0 < despachos s ls := hpos
    omega
  · exact ht.pedido
  · exact fun c' hc' => ht.llegada c' (List.mem_cons_of_mem _ hc')
  · intro x hx hno
    rcases hcada x hx with rfl | hx
    · obtain ⟨hp, htd⟩ := ht.llegada c List.mem_cons_self
      exact ⟨rfl, hp.symm, htd.symm⟩
    · rw [hx] at hno
      cases hno
  · intro x hx hno
    rcases hcada x hx with rfl | hx
    · rfl
    · exact absurd hx hno

/-- Fewer packets, and the same globals. -/
theorem Turno.mono (ht : Turno s ls) (hciclos : s'.ciclos = s.ciclos)
    (hkey : s'.controlKey = s.controlKey) (hpid : s'.PidHilo = s.PidHilo)
    (htid : s'.TidHilo = s.TidHilo) (hparte : s'.parteActual = s.parteActual)
    (hdesp : despachos s' ls' ≤ despachos s ls)
    (hp : ∀ d, .obtenerContexto d ∈ s'.peticiones → d.PID = s.PidHilo ∧ d.TID = s.TidHilo)
    (hl : ∀ c, .contexto c ∈ ls' → c.pid = s.PidHilo ∧ c.TID = s.TidHilo) : Turno s' ls' := by
  constructor
  · rw [hciclos]
    exact ht.uno
  · exact hdesp.trans ht.despacho
  · intro hpos
    rw [hciclos, hkey]
    exact ht.cedieron (Nat.lt_of_lt_of_le hpos hdesp)
  · rw [hpid, htid]
    exact hp
  · rw [hpid, htid]
    exact hl
  · rw [hciclos, hkey, hpid, htid]
    exact ht.actual
  · rw [hciclos, hparte]
    exact ht.particion

/-- The packet that arrives brings no context. -/
theorem Turno.recibirOtra {l : Llegada} (ht : Turno s (l :: ls))
    (hl : traeContexto l = false) : Turno (s.recibir l) ls := by
  have hdesp : despachos s ls ≤ despachos s (l :: ls) := by
    unfold despachos
    rw [List.countP_cons]
    omega
  have hresto : ∀ c, .contexto c ∈ ls → c.pid = s.PidHilo ∧ c.TID = s.TidHilo :=
    fun c hc => ht.llegada c (List.mem_cons_of_mem _ hc)
  cases l with
  | contexto c => cases hl
  | instruccion t => exact ht.mono rfl rfl rfl rfl rfl hdesp ht.pedido hresto
  | contextoActualizado bit =>
    unfold CpuMemoria.recibir
    dsimp only
    split
    · exact ht.mono rfl rfl rfl rfl rfl hdesp ht.pedido hresto
    · exact ht.mono rfl rfl rfl rfl rfl hdesp ht.pedido hresto
  | nada => exact ht.mono rfl rfl rfl rfl rfl hdesp ht.pedido hresto

/-- The context found has the pid and the tid. -/
theorem mapaDe_clave {cs : List Memoria.ContextoEjecucion} {x : Memoria.Clave}
    {m : Memoria.ContextoEjecucion} (h : mapaDe cs x = some m) : m.clave = x := by
  simpa using List.find?_some h

/-- Memoria handles a request. -/
theorem Turno.responde {q : Peticion} {resto : List Peticion} {m' : Memoria.Estado}
    {flujo : List Byte} {rs : List Llegada} (ht : Turno s ls) (hq : s.peticiones = q :: resto)
    (h : Responde ent s.memoria q m' rs) :
    Turno { s with memoria := m', peticiones := resto, flujo } (ls ++ rs) := by
  have hmem : q ∈ s.peticiones := hq ▸ List.mem_cons_self
  have hcabe : rs.countP traeContexto ≤ if pideContexto q then 1 else 0 := by
    cases h <;> simp [traeContexto, pideContexto]
  refine ht.mono rfl rfl rfl rfl rfl ?_ ?_ ?_
  · show resto.countP pideContexto + (ls ++ rs).countP traeContexto ≤
      s.peticiones.countP pideContexto + ls.countP traeContexto
    rw [hq, List.countP_cons, List.countP_append]
    omega
  · exact fun d hd => ht.pedido d (hq ▸ List.mem_cons_of_mem q hd)
  · intro c hc
    rcases List.mem_append.mp hc with hc | hc
    · exact ht.llegada c hc
    · cases h with
      | contexto d x hx =>
        have hclave := mapaDe_clave hx
        obtain ⟨hp, htd⟩ := ht.pedido d hmem
        cases List.mem_singleton.mp hc
        obtain ⟨hpid, htid⟩ := Prod.mk.inj hclave
        exact ⟨hpid.trans hp, htid.trans htd⟩
      | _ => simp at hc

/-- **Step.** A step in its turn keeps the invariant. -/
theorem Turno.avance (ht : Turno s ls) (hf : Flujo (s.leido ++ s.flujo) ls) (hu : UnoPorVez s a)
    (h : Avance ent s ls a s' ls') (hv : s'.vivo = true) : Turno s' ls' := by
  cases h with
  | recibirTid pid tid => exact ht.recibirTid pid tid (despachos_eq_zero hf hu.1) hu.2
  | interrupcion =>
    exact ht.mono rfl rfl rfl rfl rfl (Nat.le_refl _) ht.pedido ht.llegada
  | ciclo k c fase s' o hk hg => exact ht.gira hk (giro_gira hg hv)
  | byte basura flujo leido =>
    exact ht.mono rfl rfl rfl rfl rfl (Nat.le_refl _) ht.pedido ht.llegada
  | llega basura flujo leido l ls' hls hempieza =>
    subst hls
    have ht' : Turno { s with flujo, leido } (l :: ls') :=
      ht.mono rfl rfl rfl rfl rfl (Nat.le_refl _) ht.pedido ht.llegada
    cases hl : traeContexto l with
    | false => exact ht'.recibirOtra hl
    | true =>
      cases l with
      | contexto c => exact ht'.recibirContexto (hu (hempieza c rfl))
      | _ => cases hl
  | responde malloc q resto m' flujo rs hq hr => exact ht.responde hq hr
  | kernel q m' o hq hat =>
    exact ht.mono rfl rfl rfl rfl rfl (Nat.le_refl _) ht.pedido ht.llegada

theorem turno_nueva (m : Memoria.Estado) : Turno (.nueva m) [] := by
  constructor <;> simp [CpuMemoria.nueva, despachos]

end Turnos

/-! ## Runs -/

section Corridas

variable {ent : Memoria.Entorno} {m : Memoria.Estado} {as : List Paso} {s s' : CpuMemoria}
  {a : Paso} {o : List Salida}

/-- The threads take turns, and the `recv` of `READ_MEM` takes nothing. -/
def EnOrden (s : CpuMemoria) (a : Paso) : Prop := UnoPorVez s a ∧ a.esRecv = false

instance (s : CpuMemoria) (a : Paso) : Decidable (EnOrden s a) :=
  inferInstanceAs (Decidable (_ ∧ _))

/-- The CPU does not start again. -/
theorem paso_vivo (h : s.paso ent a = .ok (s', o)) (hv : s'.vivo = true) : s.vivo = true := by
  cases a with
  | memoriaCpu malloc => exact (atenderCpu_ok h).1 ▸ hv
  | memoriaKernel q => exact (atenderKernel_ok h).1 ▸ hv
  | _ => exact (enCpu_ok h).1

/-- **The induction rule.** `J` is an invariant over the packets on their way, in a run whose
threads take turns. -/
theorem invariante_corrida {J : List Paso → CpuMemoria → List Llegada → Prop}
    {C : List Paso → CpuMemoria → Paso → Prop} (hlineas : LineasCortas ent)
    (hC : EveryStep (CpuMemoria.paso ent) (.nueva m) as fun pre s a => EnOrden s a ∧ C pre s a)
    (h0 : J [] (.nueva m) [])
    (hstep : ∀ pre s ls a s' ls' o, Reaches (CpuMemoria.paso ent) (.nueva m) pre s →
      s.paso ent a = .ok (s', o) → Turno s ls → J pre s ls →
      UnoPorVez s a → C pre s a → Avance ent s ls a s' ls' →
      s'.vivo = true → J (pre ++ [a]) s' ls')
    (hr : Reaches (CpuMemoria.paso ent) (.nueva m) as s) (hv : s.vivo = true) :
    ∃ ls, Flujo (s.leido ++ s.flujo) ls ∧ Turno s ls ∧
      J as s ls := by
  let I : List Paso → CpuMemoria → Prop := fun pre s => s.vivo = true →
    ∃ ls, Flujo (s.leido ++ s.flujo) ls ∧ Turno s ls ∧ J pre s ls
  have hI : I as s := by
    refine hr.invariant hC (fun _ => ⟨[], .vacio, turno_nueva m, h0⟩) ?_
    rintro pre s₁ a s₂ o - hpre hI ⟨⟨hu, hrecv⟩, hCa⟩ hpaso hv₂
    obtain ⟨ls, hf, ht, hJ⟩ := hI (paso_vivo hpaso hv₂)
    obtain ⟨ls', hav, hf'⟩ := paso_avance hlineas hrecv hf hpaso hv₂
    exact ⟨ls', hf', ht.avance hf hu hav hv₂,
      hstep pre s₁ ls a s₂ ls' o hpre hpaso ht hJ hu hCa hav hv₂⟩
  exact hI hv

end Corridas

/-! ## Runs on fixed inputs -/

/-- Memoria has 100 bytes, and the file of each program is `archivo`. -/
def entornoCpu (archivo : Cadena) : Memoria.Entorno :=
  { Memoria.entornoDinamico 100 Memoria.cien_lt with archivos := fun _ => some archivo }

/-- CPU and memoria at their start. -/
def cpuCero : CpuMemoria :=
  .nueva (Memoria.estadoInicial (entornoCpu []).toConfigMemoria (fun _ => 0) fun _ => 0)

/-- Process 1 has the threads 0 and 1. -/
def dosHilosListos : List Paso :=
  [.memoriaKernel (.asignarMemoria ⟨1, 10⟩), .memoriaKernel (.hiloReady ⟨1, 0, 0, []⟩),
    .memoriaKernel (.hiloReady ⟨1, 1, 0, []⟩)]

/-- Memoria answers, and the listener takes `n` bytes. -/
def atiendeYEscucha (n : Nat) : List Paso :=
  .memoriaCpu ⟨0, fun _ => 0, fun _ => 0⟩ :: List.replicate n (.escucha ⟨0, 0, 0, fun _ => 0⟩)

/-- The context of a thread of process 1 arrives. -/
def despacha (tid : Uint32) : List Paso := .recibirTid 1 tid :: atiendeYEscucha 60

/-- The thread gets an instruction of `n` characters. -/
def trae (n : Nat) : List Paso := .ciclo 0 :: atiendeYEscucha (13 + n) ++ [.ciclo 0]

theorem lineasCortas_entornoCpu {archivo : Cadena}
    (h : ∀ l ∈ Memoria.lineas archivo, l.length + 14 ≤ 2 ^ 31) :
    LineasCortas (entornoCpu archivo) := by
  rintro path _ ⟨⟩
  exact h

end LastOfC.Cpu
