import LastOfC.Cpu.Ciclo
import LastOfC.Cpu.Respuestas

/-!
# The threads of the CPU, and memoria (`cpu.c`, `ciclo_de_instruccion.c`, `escuchar_*.c`)

The listener of the kernel and the listener of memoria write the globals `PidHilo`, `TidHilo`,
`parteActual`, `instruccionActual` and `control_key`, and the threads of `ciclo_de_instruccion`
read them. A context that arrives gets a new thread, also when another one has not ended.

* `CpuMemoria`: the globals, the threads, the connection to memoria, and the state of memoria.
* `Fase`: where a thread of `ciclo_de_instruccion` is. Its steps (`CpuMemoria.girar`) end at the
  next wait, packet, or read or write of a global that another thread uses.
* `CpuMemoria.escuchar`: `cpu_escucha_memoria` takes a byte. `CpuMemoria.recvMemoria`: the `recv` of
  `READ_MEM` takes bytes of the same stream.
* `CpuMemoria.paso`: a step of one of the threads, or of memoria. `Salida` records what a step of
  a thread executes and what it sends to the kernel, with the context it does it for.
-/

namespace LastOfC.Cpu

open Memoria (Peticion)

/-! ## State -/

/-- Where a thread of `ciclo_de_instruccion` is. -/
inductive Fase where
  /-- At the condition of the loop, and then `fetch`. -/
  | inicio
  /-- At `sem_wait(&sem_instruccion)`. -/
  | espera
  | decodifica
  | ejecuta (i : TInstruccion)
  /-- At `sem_wait(&sem_syscall)`. -/
  | esperaSyscall (i : TInstruccion)
  /-- At `execute_syscall`. -/
  | enviaSyscall (i : TInstruccion)
  /-- At `control_key = 0`. -/
  | apaga
  /-- In the `recv` of `leer_desde_memoria`. -/
  | lee (i : TInstruccion) (registro : Registro)
  /-- At the check of `control_key_interrupt`. -/
  | revisa
  /-- At `control_key_interrupt = 0`. -/
  | limpia
  /-- At the check of `control_key`. -/
  | corta
  /-- It has returned. -/
  | fin
  deriving DecidableEq, Repr

structure Ciclo where
  contexto : TContextoEjecucion
  fase : Fase
  deriving DecidableEq, Repr

structure CpuMemoria where
  PidHilo : Uint32
  TidHilo : Uint32
  parteActual : ParticionMemoria
  /-- Or none for `NULL`. -/
  instruccionActual : Option Cadena
  semInstruccion : Nat
  semSyscall : Nat
  controlKey : CInt
  controlKeyInterrupt : CInt
  /-- The threads of `ciclo_de_instruccion`, in the order of their `pthread_create`. -/
  ciclos : List Ciclo
  /-- `cpu_escucha_memoria` has not returned. -/
  escuchando : Bool
  /-- The process of the CPU has not ended. -/
  vivo : Bool
  /-- The packets of the CPU that memoria has not read, in order. -/
  peticiones : List Peticion
  /-- The bytes of memoria that no thread took, in order. -/
  flujo : List Byte
  /-- What the listener has of the next packet. -/
  leido : List Byte
  memoria : Memoria.Estado

inductive Paso where
  /-- `escuchar_kernel_dispatch` takes a `RECIBIR_TID`. -/
  | recibirTid (pid tid : Uint32)
  /-- `escuchar_kernel_interrupt` takes an `INTERRUPCION`, up to the end of its case. -/
  | interrupcion
  /-- The case falls through to `exit(EXIT_FAILURE)`, which is also that of a disconnection. -/
  | desconexionInterrupt
  /-- Thread `k` of `ciclo_de_instruccion`. -/
  | ciclo (k : Nat)
  /-- The `recv` of thread `k` takes `n` bytes. -/
  | recv (k n : Nat) (basura : Uint32)
  /-- `cpu_escucha_memoria` takes the next byte. -/
  | escucha (basura : Basura)
  /-- `escuchar_cpu` of memoria. -/
  | memoriaCpu (malloc : Malloc)
  /-- `escuchar_kernel` of memoria. -/
  | memoriaKernel (q : Peticion)

/-- What a thread of `ciclo_de_instruccion` does for its context. -/
inductive Salida where
  /-- It executes an instruction, and `MMU` uses `parteActual`. -/
  | ejecuta (contexto : TContextoEjecucion) (i : TInstruccion) (parteActual : ParticionMemoria)
  /-- It sends a syscall to the kernel. -/
  | syscall (contexto : TContextoEjecucion) (paquete : PaqueteSyscall)
  /-- `CONFIRMAR_INTERRUPCION`. -/
  | confirmarInterrupcion (pid tid : Uint32)
  deriving DecidableEq, Repr

/-- Why a step does not happen. -/
inductive FallaCpu where
  /-- It waits, or there is no such thread. -/
  | espera
  /-- The CPU has ended. -/
  | apagada
  | memoria (f : Memoria.Falla)
  /-- It reads outside of a payload, or sends a text that is no string. -/
  | lectura
  deriving DecidableEq, Repr

abbrev ResultadoPaso := Except FallaCpu (CpuMemoria × List Salida)

namespace CpuMemoria

/-- `main` of the CPU has started its threads, and memoria is `m`. -/
def nueva (m : Memoria.Estado) : CpuMemoria :=
  { PidHilo := 100
    TidHilo := 100
    parteActual := ⟨0, 0⟩
    instruccionActual := none
    semInstruccion := 0
    semSyscall := 0
    controlKey := 0
    controlKeyInterrupt := 0
    ciclos := []
    escuchando := true
    vivo := true
    peticiones := []
    flujo := []
    leido := []
    memoria := m }

/-! ## The threads of `ciclo_de_instruccion` -/

/-- `enviar_paquete(paquete, fd_memoria)`. -/
def pedir (s : CpuMemoria) (q : Peticion) : CpuMemoria :=
  { s with peticiones := s.peticiones ++ [q] }

/-- The packets to memoria among those of an instruction. -/
def enviar (s : CpuMemoria) (envios : List Envio) : CpuMemoria :=
  { s with peticiones := s.peticiones ++ envios.filterMap fun
      | .aMemoria q => some q
      | .processExit _ _ => none }

/-- Thread `k` goes on. -/
def conCiclo (s : CpuMemoria) (k : Nat) (c : TContextoEjecucion) (fase : Fase) : CpuMemoria :=
  { s with ciclos := s.ciclos.set k ⟨c, fase⟩ }

/-- The CPU ends. -/
def apagar (s : CpuMemoria) : CpuMemoria := { s with vivo := false }

/-- The packets to the kernel among those of an instruction. -/
def alKernel (c : TContextoEjecucion) (envios : List Envio) : List Salida :=
  envios.filterMap fun
    | .aMemoria _ => none
    | .processExit pid tid => some (.syscall c (.processExit ⟨pid, tid⟩))

/-- `execute`, up to its first wait. -/
def ejecutar (s : CpuMemoria) (k : Nat) (c : TContextoEjecucion) (i : TInstruccion) :
    CpuMemoria × List Salida :=
  match execute s.parteActual s.PidHilo i c with
  | .sigue c' envios => ((s.enviar envios).conCiclo k c' .revisa, [.ejecuta c i s.parteActual])
  | .syscall c' =>
    ((s.pedir (.actualizarContexto c')).conCiclo k c' (.esperaSyscall i),
      [.ejecuta c i s.parteActual])
  | .lee registro datos =>
    ((s.pedir (.readMem datos)).conCiclo k c (.lee i registro), [.ejecuta c i s.parteActual])
  | .sale envios => ((s.enviar envios).apagar, .ejecuta c i s.parteActual :: alKernel c envios)
  | .cae _ => (s.apagar, [.ejecuta c i s.parteActual])

/-- The next step of thread `k`. -/
def girar (s : CpuMemoria) (k : Nat) : ResultadoPaso :=
  match s.ciclos[k]? with
  | none => .error .espera
  | some ⟨c, fase⟩ =>
    match fase with
    | .inicio =>
      if s.controlKey = 1 then
        .ok ((s.pedir (.obtenerInstruccion ⟨c.PC, c.TID, c.pid⟩)).conCiclo k c .espera, [])
      else .ok (s.conCiclo k c .fin, [])
    | .espera =>
      if s.semInstruccion = 0 then .error .espera
      else
        .ok (({ s with semInstruccion := s.semInstruccion - 1 } : CpuMemoria).conCiclo k c
          .decodifica, [])
    | .decodifica =>
      match s.instruccionActual with
      | some instruccion =>
        .ok (s.conCiclo k c (.ejecuta (decode instruccion s.PidHilo s.TidHilo)), [])
      -- `strdup(NULL)`.
      | none => .ok (s.apagar, [])
    | .ejecuta i => .ok (s.ejecutar k c i)
    | .esperaSyscall i =>
      if s.semSyscall = 0 then .error .espera
      else
        .ok (({ s with semSyscall := s.semSyscall - 1 } : CpuMemoria).conCiclo k c
          (.enviaSyscall i), [])
    | .enviaSyscall i =>
      match executeSyscall i with
      | .ok paquete => .ok (s.conCiclo k c .apaga, paquete.toList.map (.syscall c))
      | .error _ => .ok (s.apagar, [])
    | .apaga => .ok (({ s with controlKey := 0 } : CpuMemoria).conCiclo k c .revisa, [])
    -- The step `recv`.
    | .lee _ _ => .error .espera
    | .revisa =>
      if s.controlKeyInterrupt = 1 then
        -- `check_interrupt`.
        .ok ((s.pedir (.actualizarContexto c)).conCiclo k c .limpia,
          [.confirmarInterrupcion c.pid c.TID])
      else .ok (s.conCiclo k c .corta, [])
    | .limpia => .ok (({ s with controlKeyInterrupt := 0 } : CpuMemoria).conCiclo k c .corta, [])
    | .corta => .ok (s.conCiclo k c (if s.controlKey = 0 then .fin else .inicio), [])
    | .fin => .error .espera

/-- The `recv` of thread `k` takes up to 4 bytes of those that wait. -/
def recvMemoria (s : CpuMemoria) (k n : Nat) (basura : Uint32) : ResultadoPaso :=
  match s.ciclos[k]? with
  | some ⟨c, .lee i registro⟩ =>
    if 0 < n ∧ n ≤ 4 ∧ n ≤ s.flujo.length then
      let dato := palabraSobre basura (s.flujo.take n)
      .ok (({ s with flujo := s.flujo.drop n } : CpuMemoria).conCiclo k
        (trasLeer i registro dato c) .revisa, [])
    else .error .espera
  | _ => .error .espera

/-! ## The listeners -/

/-- `case RECIBIR_TID`, with `obtener_contexto`. -/
def recibirTid (s : CpuMemoria) (pid tid : Uint32) : CpuMemoria :=
  ({ s with PidHilo := pid, TidHilo := tid } : CpuMemoria).pedir (.obtenerContexto ⟨pid, tid⟩)

/-- A case of the `switch` of `cpu_escucha_memoria`. -/
def recibir (s : CpuMemoria) : Llegada → CpuMemoria
  -- `reciboContexto`.
  | .contexto c =>
    { s with
      parteActual := inicializarParticionDeMemoria c.base c.limite
      controlKey := 1
      ciclos := s.ciclos ++ [⟨c, .inicio⟩] }
  | .instruccion instruccion =>
    { s with
      instruccionActual := some instruccion
      semInstruccion := s.semInstruccion + 1 }
  | .contextoActualizado bitConfirmacion =>
    if bitConfirmacion = 1 then { s with semSyscall := s.semSyscall + 1 } else s
  | .nada => s

/-- `cpu_escucha_memoria` takes a byte, and the packet if that was its last one. -/
def escuchar (s : CpuMemoria) (basura : Basura) : ResultadoPaso :=
  match s.flujo with
  | [] => .error .espera
  | b :: flujo =>
    if s.escuchando then
      match esperarPaquete basura (s.leido ++ [b]) with
      | none => .ok ({ s with flujo, leido := s.leido ++ [b] }, [])
      | some (none, leido) => .ok ({ s with flujo, leido, escuchando := false }, [])
      | some (some p, leido) =>
        match leerLlegada p with
        | some l => .ok (({ s with flujo, leido } : CpuMemoria).recibir l, [])
        | none => .error .lectura
    else .error .espera

/-- The next byte completes an `ENVIAR_CONTEXTO`. -/
def empieza (s : CpuMemoria) (basura : Basura) : Bool :=
  match s.flujo with
  | [] => false
  | b :: _ =>
    match esperarPaquete basura (s.leido ++ [b]) with
    | some (some p, _) => p.codigoOperacion = ENVIAR_CONTEXTO
    | _ => false

/-! ## Memoria -/

/-- `escuchar_cpu` of memoria. It has no case for the requests of the kernel. -/
def atenderCpu (ent : Memoria.Entorno) (s : CpuMemoria) (malloc : Malloc) : ResultadoPaso :=
  match s.peticiones with
  | [] => .error .espera
  | q :: resto =>
    if q.origen = .cpu then
      match Memoria.atender ent s.memoria q with
      | .error f => .error (.memoria f)
      | .ok (m', o) =>
        match enviarTodos (enviarACpu malloc) (o.map (·.paquete)) with
        | some bytes =>
          .ok ({ s with memoria := m', peticiones := resto, flujo := s.flujo ++ bytes }, [])
        | none => .error .lectura
    else .ok ({ s with peticiones := resto }, [])

/-- `escuchar_kernel` of memoria. Its replies go to the kernel. -/
def atenderKernel (ent : Memoria.Entorno) (s : CpuMemoria) (q : Peticion) : ResultadoPaso :=
  if q.origen = .kernel then
    match Memoria.atender ent s.memoria q with
    | .error f => .error (.memoria f)
    | .ok (m', _) => .ok ({ s with memoria := m' }, [])
  else .error .espera

/-- A step of a thread of the CPU. -/
def enCpu (s : CpuMemoria) (x : ResultadoPaso) : ResultadoPaso :=
  if s.vivo then x else .error .apagada

def paso (ent : Memoria.Entorno) (s : CpuMemoria) : Paso → ResultadoPaso
  | .recibirTid pid tid => s.enCpu (.ok (s.recibirTid pid tid, []))
  | .interrupcion => s.enCpu (.ok ({ s with controlKeyInterrupt := 1 }, []))
  | .desconexionInterrupt => s.enCpu (.ok (s.apagar, []))
  | .ciclo k => s.enCpu (s.girar k)
  | .recv k n basura => s.enCpu (s.recvMemoria k n basura)
  | .escucha basura => s.enCpu (s.escuchar basura)
  | .memoriaCpu malloc => s.atenderCpu ent malloc
  | .memoriaKernel q => s.atenderKernel ent q

end CpuMemoria

/-! ## What an instruction does -/

section Instruccion

variable {parteActual : ParticionMemoria} {PidHilo : Uint32} {i : TInstruccion}
  {c c' : TContextoEjecucion} {envios : List Envio}

/-- The two contexts are of one thread, with one partition. -/
def MismoHilo (c c' : TContextoEjecucion) : Prop :=
  c'.pid = c.pid ∧ c'.TID = c.TID ∧ c'.base = c.base ∧ c'.limite = c.limite

theorem MismoHilo.refl (c : TContextoEjecucion) : MismoHilo c c := ⟨rfl, rfl, rfl, rfl⟩

theorem mismoHilo_avanzarPc (i : TInstruccion) (h : MismoHilo c c') :
    MismoHilo c (i.avanzarPc c') := by
  unfold TInstruccion.avanzarPc
  split
  · exact h
  · exact h

/-- An instruction that goes on sends at most a `WRITE_MEM`. -/
theorem execute_sigue (h : execute parteActual PidHilo i c = .sigue c' envios) :
    MismoHilo c c' ∧ ∀ e ∈ envios, ∃ d, e = .aMemoria (.writeMem d) := by
  have hnada : ∀ e ∈ ([] : List Envio), ∃ d, e = .aMemoria (.writeMem d) := by simp
  unfold execute at h
  split_ifs at h
  · cases h
    exact ⟨mismoHilo_avanzarPc i ⟨rfl, rfl, rfl, rfl⟩, hnada⟩
  · cases h
    exact ⟨mismoHilo_avanzarPc i ⟨rfl, rfl, rfl, rfl⟩, hnada⟩
  · cases h
    exact ⟨mismoHilo_avanzarPc i ⟨rfl, rfl, rfl, rfl⟩, hnada⟩
  · split at h
    · cases h
      exact ⟨.refl c, hnada⟩
    · cases h
  · split at h
    · cases h
      exact ⟨mismoHilo_avanzarPc i (.refl c), hnada⟩
    · cases h
  · split at h
    · rename_i es hes
      cases h
      refine ⟨mismoHilo_avanzarPc i (.refl c), ?_⟩
      unfold writeMem at hes
      split at hes
      · split at hes
        · cases hes
          simp
        · cases hes
      · cases hes
        exact hnada
    · cases h
  · split at h
    · cases h
    · cases h
      exact ⟨mismoHilo_avanzarPc i (.refl c), hnada⟩
    · cases h
  · cases h
    exact ⟨.refl c, hnada⟩

/-- Its requests to memoria. -/
theorem enviar_sigue (h : execute parteActual PidHilo i c = .sigue c' envios) (s : CpuMemoria) :
    ∃ qs, (s.enviar envios).peticiones = s.peticiones ++ qs ∧ ∀ q ∈ qs, ∃ d, q = .writeMem d := by
  refine ⟨_, rfl, fun q hq => ?_⟩
  obtain ⟨e, he, hq⟩ := List.mem_filterMap.mp hq
  obtain ⟨d, rfl⟩ := (execute_sigue h).2 e he
  cases hq
  exact ⟨d, rfl⟩

theorem execute_syscall (h : execute parteActual PidHilo i c = .syscall c') :
    c' = { c with PC := c.PC + 1 } := by
  unfold execute at h
  split at h
  · cases h
    rfl
  · split_ifs at h
    all_goals split at h
    all_goals cases h

theorem execute_of_esSyscall (h : i.esSyscall = true) :
    execute parteActual PidHilo i c = .syscall { c with PC := c.PC + 1 } := if_pos h

/-- The CPU exits in `MMU`. -/
theorem execute_sale (h : execute parteActual PidHilo i c = .sale envios) :
    envios = [.aMemoria (.actualizarContexto c), .processExit c.pid c.TID] := by
  have hmmu : ∀ dir es, mmu parteActual dir c = .error es →
      es = [.aMemoria (.actualizarContexto c), .processExit c.pid c.TID] := by
    intro dir es hes
    unfold mmu at hes
    dsimp only at hes
    split at hes
    · cases hes
      rfl
    · cases hes
  unfold execute at h
  split_ifs at h
  · split at h
    · cases h
    · cases h
  · split at h
    · cases h
    · cases h
  · split at h
    · cases h
    · rename_i es hes
      cases h
      unfold writeMem at hes
      split at hes
      · split at hes
        · cases hes
        · rename_i hfalla
          cases hes
          exact hmmu _ _ hfalla
      · cases hes
  · split at h
    · cases h
    · cases h
    · rename_i es hes
      cases h
      unfold readMem at hes
      split at hes
      · split at hes
        · cases hes
        · rename_i hfalla
          cases hes
          exact hmmu _ _ hfalla
      · cases hes

end Instruccion

/-! ## What a step of a thread does -/

section Giro

variable {s s' : CpuMemoria} {k : Nat} {o : List Salida}

/-- The steps of thread `k`, which has the context `c`, from each phase. -/
inductive Giro (s : CpuMemoria) (k : Nat) (c : TContextoEjecucion) :
    Fase → CpuMemoria → List Salida → Prop
  | pide (h : s.controlKey = 1) :
    Giro s k c .inicio
      ((s.pedir (.obtenerInstruccion ⟨c.PC, c.TID, c.pid⟩)).conCiclo k c .espera) []
  | vuelve (h : s.controlKey ≠ 1) : Giro s k c .inicio (s.conCiclo k c .fin) []
  | recibe (h : s.semInstruccion ≠ 0) :
    Giro s k c .espera
      (({ s with semInstruccion := s.semInstruccion - 1 } : CpuMemoria).conCiclo k c
        .decodifica) []
  | decodifica (instruccion : Cadena) (h : s.instruccionActual = some instruccion) :
    Giro s k c .decodifica
      (s.conCiclo k c (.ejecuta (decode instruccion s.PidHilo s.TidHilo))) []
  | nulo (h : s.instruccionActual = none) : Giro s k c .decodifica s.apagar []
  | sigue (i : TInstruccion) (c' : TContextoEjecucion) (envios : List Envio)
    (h : execute s.parteActual s.PidHilo i c = .sigue c' envios) :
    Giro s k c (.ejecuta i) ((s.enviar envios).conCiclo k c' .revisa)
      [.ejecuta c i s.parteActual]
  | llama (i : TInstruccion) (c' : TContextoEjecucion)
    (h : execute s.parteActual s.PidHilo i c = .syscall c') :
    Giro s k c (.ejecuta i)
      ((s.pedir (.actualizarContexto c')).conCiclo k c' (.esperaSyscall i))
      [.ejecuta c i s.parteActual]
  | lee (i : TInstruccion) (registro : Registro) (datos : TDatosReadMem)
    (h : execute s.parteActual s.PidHilo i c = .lee registro datos) :
    Giro s k c (.ejecuta i) ((s.pedir (.readMem datos)).conCiclo k c (.lee i registro))
      [.ejecuta c i s.parteActual]
  | sale (i : TInstruccion) (envios : List Envio)
    (h : execute s.parteActual s.PidHilo i c = .sale envios) :
    Giro s k c (.ejecuta i) (s.enviar envios).apagar
      (.ejecuta c i s.parteActual :: CpuMemoria.alKernel c envios)
  | falla (i : TInstruccion) (f : Falla)
    (h : execute s.parteActual s.PidHilo i c = .cae f) :
    Giro s k c (.ejecuta i) s.apagar [.ejecuta c i s.parteActual]
  | pasa (i : TInstruccion) (h : s.semSyscall ≠ 0) :
    Giro s k c (.esperaSyscall i)
      (({ s with semSyscall := s.semSyscall - 1 } : CpuMemoria).conCiclo k c (.enviaSyscall i)) []
  | envia (i : TInstruccion) (paquete : Option PaqueteSyscall)
    (h : executeSyscall i = .ok paquete) :
    Giro s k c (.enviaSyscall i) (s.conCiclo k c .apaga) (paquete.toList.map (.syscall c))
  | cae (i : TInstruccion) (f : Falla) (h : executeSyscall i = .error f) :
    Giro s k c (.enviaSyscall i) s.apagar []
  | apaga :
    Giro s k c .apaga (({ s with controlKey := 0 } : CpuMemoria).conCiclo k c .revisa) []
  | interrumpe (h : s.controlKeyInterrupt = 1) :
    Giro s k c .revisa ((s.pedir (.actualizarContexto c)).conCiclo k c .limpia)
      [.confirmarInterrupcion c.pid c.TID]
  | revisa (h : s.controlKeyInterrupt ≠ 1) : Giro s k c .revisa (s.conCiclo k c .corta) []
  | limpia :
    Giro s k c .limpia
      (({ s with controlKeyInterrupt := 0 } : CpuMemoria).conCiclo k c .corta) []
  | corta : Giro s k c .corta (s.conCiclo k c (if s.controlKey = 0 then .fin else .inicio)) []

theorem girar_casos (h : s.girar k = .ok (s', o)) :
    ∃ c fase, s.ciclos[k]? = some ⟨c, fase⟩ ∧ Giro s k c fase s' o := by
  unfold CpuMemoria.girar at h
  split at h
  · cases h
  · rename_i c fase hk
    refine ⟨c, fase, hk, ?_⟩
    cases fase with
    | inicio =>
      dsimp only at h
      split at h
      · rename_i hkey
        cases h
        exact .pide hkey
      · rename_i hkey
        cases h
        exact .vuelve hkey
    | espera =>
      dsimp only at h
      split at h
      · cases h
      · rename_i hsem
        cases h
        exact .recibe hsem
    | decodifica =>
      dsimp only at h
      split at h
      · rename_i instruccion hi
        cases h
        exact .decodifica instruccion hi
      · rename_i hi
        cases h
        exact .nulo hi
    | ejecuta i =>
      dsimp only [CpuMemoria.ejecutar] at h
      split at h
      · rename_i c' envios he
        cases h
        exact .sigue i c' envios he
      · rename_i c' he
        cases h
        exact .llama i c' he
      · rename_i registro datos he
        cases h
        exact .lee i registro datos he
      · rename_i envios he
        cases h
        exact .sale i envios he
      · rename_i f he
        cases h
        exact .falla i f he
    | esperaSyscall i =>
      dsimp only at h
      split at h
      · cases h
      · rename_i hsem
        cases h
        exact .pasa i hsem
    | enviaSyscall i =>
      dsimp only at h
      split at h
      · rename_i paquete hp
        cases h
        exact .envia i paquete hp
      · rename_i f hf
        cases h
        exact .cae i f hf
    | apaga =>
      cases h
      exact .apaga
    | lee i registro => cases h
    | revisa =>
      dsimp only at h
      split at h
      · rename_i hint
        cases h
        exact .interrumpe hint
      · rename_i hint
        cases h
        exact .revisa hint
    | limpia =>
      cases h
      exact .limpia
    | corta =>
      cases h
      exact .corta
    | fin => cases h

end Giro

end LastOfC.Cpu
