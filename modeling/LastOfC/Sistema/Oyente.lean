import LastOfC.Sistema.RespuestaVolcado

/-!
# The listener of memoria (`kernel_escucha_memoria.c`)

`kernel_escucha_memoria` is a thread of its own, and reads packets from `fd_memoria` in a loop.
Three things take a packet from it:

* The case `CONFIRMAR_CREACION_HILO` ends in the call of `planificador_corto_plazo`, whose loop
  has no exit.
* The log of that case reads `datos_proceso_memoria->bit_confirmacion`, and no one has set the
  pointer there: it is what the stack holds (`Hallazgo`).
* `recibir_mensajeV2` of the dispatcher reads from the same `fd_memoria`, in `THREAD_EXIT`,
  `THREAD_CANCEL` and `PROCESS_EXIT`. Memoria has no code that answers it, so it waits there, and
  the bytes that it takes are those of a packet.

`pasoOyente` is the machine, over the bytes of the connection. `oyente_atiende_iff`: the listener
handles all that arrives, in order, exactly in the runs in which none of the three is in its way,
and the handler of the packet that waits returns.
-/

namespace LastOfC.Sistema

open Trace

/-! ## The machine -/

/-- Where the dispatcher is. -/
inductive Despacho where
  /-- Between two syscalls. -/
  | libre
  /-- In `recibir_mensajeV2`. -/
  | enMensaje
  /-- In a `sem_wait(&mutex)`, for ever. -/
  | enMutex
  deriving DecidableEq, Repr

/-- What an iteration of the listener finds in memory. -/
structure Hallazgo where
  /-- In the blocks of `recibir_paquete`. -/
  basura : Basura
  /-- What is in the place of `datos_proceso_memoria` is the address of memory that can be read. -/
  legible : Bool

structure Conexion where
  kernel : Kernel.Estado
  /-- The packets that memoria sent, in order. -/
  llegados : List Kernel.MensajeMemoria
  /-- The packets that the listener handled, in order. -/
  atendidos : List Kernel.MensajeMemoria
  /-- The bytes on `fd_memoria` that no thread has taken. -/
  flujo : List Byte
  /-- The listener is in `planificador_corto_plazo`. -/
  planificando : Bool
  /-- How many packets the listener has read. -/
  vuelta : Nat
  despacho : Despacho

inductive SucesoConexion where
  /-- A packet of memoria arrives. -/
  | llega (m : Kernel.MensajeMemoria)
  /-- `kernel_escucha_memoria`. -/
  | oyente
  /-- `kernel_escucha_cpu_dispatch` handles a syscall to its end, as if what it waits for from
  memoria came at once. -/
  | syscall (y : Kernel.Syscall)
  /-- It handles a syscall up to a call of `recibir_mensajeV2`, and waits there. -/
  | syscallHasta (y : Kernel.Syscall) (i : Option Nat)
  /-- `recibir_mensajeV2` takes the next `n` bytes. -/
  | recibirMensaje (n : Nat)
  | largoPlazo
  deriving DecidableEq, Repr

/-- Why a step does not end. -/
inductive FallaConexion where
  | kernel (f : Kernel.Falla)
  /-- It waits for bytes, or on `mutex`. -/
  | espera
  /-- It reads outside of the payload. -/
  | lectura
  /-- It reads through `datos_proceso_memoria`, which points nowhere. -/
  | sinInicializar
  deriving DecidableEq, Repr

/-- The outcome of a step, with the packets that the kernel sent. -/
abbrev PasoConexion := Except FallaConexion (Conexion × List Kernel.Paquete)

namespace Conexion

/-- A step of a thread of the kernel. -/
def enKernel (s : Conexion) (ent : Kernel.Entorno) (p : Kernel.Paso) : PasoConexion :=
  match Kernel.paso ent s.kernel p with
  | .ok (k', o) => .ok ({ s with kernel := k' }, o)
  | .error f => .error (.kernel f)

/-- The listener has read a packet, up to `flujo`. -/
def leyo (s : Conexion) (flujo : List Byte) : Conexion :=
  { s with flujo, vuelta := s.vuelta + 1 }

/-- The listener handles the packet that it has read. -/
def recibio (s : Conexion) (m : Kernel.MensajeMemoria) : Conexion :=
  { s with atendidos := s.atendidos ++ [m], planificando := m.planifica }

/-- A step of `kernel_escucha_memoria`: an iteration of the loop it is in. -/
def escuchar (s : Conexion) (ent : Kernel.Entorno) (pila : Nat → Hallazgo) : PasoConexion :=
  if s.planificando then s.enKernel ent .cortoPlazo
  else match esperarPaquete (pila s.vuelta).basura s.flujo with
    | none => .error .espera
    | some (none, flujo) => .ok (s.leyo flujo, [])
    | some (some p, flujo) =>
      -- The log of the case comes before the check of `datos_hilo_memoria`.
      if p.codigoOperacion = CONFIRMAR_CREACION_HILO ∧ (pila s.vuelta).legible = false then
        .error .sinInicializar
      else match mensajeDe p with
        | some m => ((s.leyo flujo).recibio m).enKernel ent (.memoria m)
        | none =>
          if p.codigoOperacion = CONFIRMAR_ESPACIO_PROCESO then .error .lectura
          else .ok (s.leyo flujo, [])

/-- A syscall has run up to the state `k'` of the kernel. -/
def trasSyscall (s : Conexion) (k' : Kernel.Estado) (despacho : Despacho) : PasoConexion :=
  .ok ({ s with kernel := k', despacho }, k'.enviados.drop s.kernel.enviados.length)

/-- A step of `kernel_escucha_cpu_dispatch`. With `mutex` at 0 every other thread waits before it
posts, so a syscall that waits there never goes on. -/
def despachar (s : Conexion) (ent : Kernel.Entorno) (y : Kernel.Syscall) : PasoConexion :=
  if s.despacho = .libre then
    match (Kernel.kernelEscuchaCpuDispatch ent y).run s.kernel with
    | .ok _ k' => s.trasSyscall k' .libre
    | .error .espera k' => s.trasSyscall k' .enMutex
    | .error f _ => .error (.kernel f)
  else .error .espera

/-- The part of a step of `kernel_escucha_cpu_dispatch` before a `recibir_mensajeV2`. -/
def despacharHasta (s : Conexion) (ent : Kernel.Entorno) (y : Kernel.Syscall) (i : Option Nat) :
    PasoConexion :=
  if s.despacho = .libre then
    match (Kernel.hastaMensaje ent i y).run s.kernel with
    | .ok true k' => s.trasSyscall k' .enMensaje
    | .ok false _ => .error .espera
    | .error f _ => .error (.kernel f)
  else .error .espera

/-- `recibir_mensajeV2(fd_memoria)` takes `n` bytes. -/
def recibirMensaje (s : Conexion) (n : Nat) : PasoConexion :=
  if s.despacho = .enMensaje ∧ n ≤ s.flujo.length then
    .ok ({ s with flujo := s.flujo.drop n }, [])
  else .error .espera

/-- The kernel starts, and nothing has arrived. -/
def nueva (k : Kernel.Estado) : Conexion :=
  { kernel := k
    llegados := []
    atendidos := []
    flujo := []
    planificando := false
    vuelta := 0
    despacho := .libre }

/-- The packets that were not handled. -/
def pendientes (s : Conexion) : List Kernel.MensajeMemoria := s.llegados.drop s.atendidos.length

end Conexion

def pasoOyente (ent : Kernel.Entorno) (pila : Nat → Hallazgo) (s : Conexion) :
    SucesoConexion → PasoConexion
  | .llega m =>
    .ok ({ s with
      llegados := s.llegados ++ [m]
      flujo := s.flujo ++ (mensajeRespuesta m).trama }, [])
  | .oyente => s.escuchar ent pila
  | .syscall y => s.despachar ent y
  | .syscallHasta y i => s.despacharHasta ent y i
  | .recibirMensaje n => s.recibirMensaje n
  | .largoPlazo => s.enKernel ent .largoPlazo

/-! ## What should hold -/

/-- The listener handled the packets in the order in which they arrived, and those that it did not
handle wait on the socket, whole. -/
structure Conexion.EnOrden (s : Conexion) : Prop where
  orden : s.atendidos <+: s.llegados
  flujo : s.flujo = flujoRespuestas s.pendientes

/-- If a packet waits, the listener, by steps of its own, gets to handle it, and does what the
packet asks for. -/
def Conexion.Alcanza (ent : Kernel.Entorno) (pila : Nat → Hallazgo) (s : Conexion) : Prop :=
  ∀ m resto, s.pendientes = m :: resto → ∃ n s₁ s₂ o,
    Reaches (pasoOyente ent pila) s (List.replicate n .oyente) s₁ ∧
      pasoOyente ent pila s₁ .oyente = .ok (s₂, o) ∧
      s₁.atendidos = s.atendidos ∧ s₂.atendidos = s.atendidos ++ [m] ∧
      m.Atendido s₁.kernel s₂.kernel

def Conexion.Atiende (ent : Kernel.Entorno) (pila : Nat → Hallazgo) (s : Conexion) : Prop :=
  s.EnOrden ∧ s.Alcanza ent pila

/-- `recibir_mensajeV2` takes bytes of a packet. -/
def TomaBytes (_ : Conexion) (e : SucesoConexion) : Prop :=
  ∃ n, e = .recibirMensaje n ∧ 0 < n

/-- The listener takes a `CONFIRMAR_CREACION_HILO` with bit 1. -/
def TomaCreacion (s : Conexion) (e : SucesoConexion) : Prop :=
  e = .oyente ∧ ∃ m resto, s.pendientes = m :: resto ∧ m.planifica = true

/-- The log of the case of the packet reads `datos_proceso_memoria`. -/
def leePuntero : Kernel.MensajeMemoria → Bool
  | .confirmarCreacionHilo _ => true
  | _ => false

section Pasos

variable {ent : Kernel.Entorno} {pila : Nat → Hallazgo} {k' : Kernel.Estado} {s s' : Conexion}
  {e : SucesoConexion} {m : Kernel.MensajeMemoria} {resto : List Kernel.MensajeMemoria}
  {o : List Kernel.Paquete}

/-! ## What a step does -/

theorem enKernel_conexion {p : Kernel.Paso} (h : s.enKernel ent p = .ok (s', o)) :
    ∃ k', Kernel.paso ent s.kernel p = .ok (k', o) ∧ s' = { s with kernel := k' } := by
  unfold Conexion.enKernel at h
  split at h
  · rename_i k₁ o₁ hp
    cases h
    exact ⟨k₁, hp, rfl⟩
  · cases h

/-- A syscall changes the globals of the kernel, and where the dispatcher is. -/
theorem despachar_ok {y : Kernel.Syscall} (h : s.despachar ent y = .ok (s', o)) :
    ∃ k' despacho, s' = { s with kernel := k', despacho } := by
  unfold Conexion.despachar at h
  split at h
  · split at h
    · cases h
      exact ⟨_, .libre, rfl⟩
    · cases h
      exact ⟨_, .enMutex, rfl⟩
    · cases h
  · cases h

theorem despacharHasta_ok {y : Kernel.Syscall} {i : Option Nat}
    (h : s.despacharHasta ent y i = .ok (s', o)) :
    ∃ k' despacho, s' = { s with kernel := k', despacho } := by
  unfold Conexion.despacharHasta at h
  split at h
  · split at h
    · cases h
      exact ⟨_, .enMensaje, rfl⟩
    · cases h
    · cases h
  · cases h

theorem recibirMensaje_ok {n : Nat} (h : s.recibirMensaje n = .ok (s', o)) :
    n ≤ s.flujo.length ∧ s' = { s with flujo := s.flujo.drop n } := by
  unfold Conexion.recibirMensaje at h
  split at h
  · rename_i hn
    cases h
    exact ⟨hn.2, rfl⟩
  · cases h

theorem flujoRespuestas_cons (m : Kernel.MensajeMemoria) (resto : List Kernel.MensajeMemoria) :
    flujoRespuestas (m :: resto) = (mensajeRespuesta m).trama ++ flujoRespuestas resto := rfl

theorem codigo_mensajeRespuesta (basura : Basura) :
    ((mensajeRespuesta m).recibido basura).codigoOperacion = CONFIRMAR_CREACION_HILO ↔
      leePuntero m = true := by
  cases m with
  | confirmarEspacioProceso d =>
    have hcodigo : CONFIRMAR_ESPACIO_PROCESO ≠ CONFIRMAR_CREACION_HILO := by decide
    exact iff_of_false hcodigo (by simp [leePuntero])
  | confirmarCreacionHilo d => exact iff_of_true rfl rfl
  | confirmarDumpMemory =>
    have hcodigo : CONFIRMAR_DUMP_MEMORY ≠ CONFIRMAR_CREACION_HILO := by decide
    exact iff_of_false hcodigo (by simp [leePuntero])

/-! ## The connection in order -/

/-- The packets that wait are those that arrived after the ones handled. -/
theorem enOrden_iff : s.EnOrden ↔
    ∃ ps, s.llegados = s.atendidos ++ ps ∧ s.pendientes = ps ∧ s.flujo = flujoRespuestas ps := by
  constructor
  · rintro ⟨⟨ps, hps⟩, hflujo⟩
    have hpe : s.pendientes = ps := by
      unfold Conexion.pendientes
      rw [← hps, List.drop_left]
    exact ⟨ps, hps.symm, hpe, hpe ▸ hflujo⟩
  · rintro ⟨ps, hps, hpe, hflujo⟩
    exact ⟨⟨ps, hps.symm⟩, hpe ▸ hflujo⟩

/-- With the bytes in order, the listener outside of the scheduler takes the first packet, whole,
and handles it if the log of its case can be written. -/
theorem escuchar_enOrden (hs : s.EnOrden) (hpl : s.planificando = false)
    (hpe : s.pendientes = m :: resto) :
    s.escuchar ent pila =
      if leePuntero m = true ∧ (pila s.vuelta).legible = false then .error .sinInicializar
      else ((s.leyo (flujoRespuestas resto)).recibio m).enKernel ent (.memoria m) := by
  unfold Conexion.escuchar
  rw [if_neg (by simp [hpl]), hs.flujo, hpe, flujoRespuestas_cons, esperarPaquete_trama]
  simp only [codigo_mensajeRespuesta, mensajeDe_recibido]

/-- With nothing on the socket the listener waits. -/
theorem escuchar_vacio (hs : s.EnOrden) (hpl : s.planificando = false) (hpe : s.pendientes = []) :
    s.escuchar ent pila = .error .espera := by
  unfold Conexion.escuchar
  rw [if_neg (by simp [hpl]), hs.flujo, hpe]
  rfl

/-- A step of the listener with the bytes in order: an iteration of the scheduler, or the first
packet. -/
theorem escuchar_conexion (hs : s.EnOrden) (h : s.escuchar ent pila = .ok (s', o)) :
    (s.planificando = true ∧ ∃ k', s' = { s with kernel := k' }) ∨
      ∃ m resto k', s.planificando = false ∧ s.pendientes = m :: resto ∧
        (leePuntero m = true → (pila s.vuelta).legible = true) ∧
        Kernel.paso ent s.kernel (.memoria m) = .ok (k', o) ∧
        s' = { (s.leyo (flujoRespuestas resto)).recibio m with kernel := k' } := by
  by_cases hpl : s.planificando = true
  · unfold Conexion.escuchar at h
    rw [if_pos hpl] at h
    obtain ⟨k', -, rfl⟩ := enKernel_conexion h
    exact .inl ⟨hpl, k', rfl⟩
  · rw [Bool.not_eq_true] at hpl
    cases hpe : s.pendientes with
    | nil =>
      rw [escuchar_vacio hs hpl hpe] at h
      cases h
    | cons m resto =>
      rw [escuchar_enOrden hs hpl hpe] at h
      split at h
      · cases h
      · rename_i hlee
        obtain ⟨k', hp, rfl⟩ := enKernel_conexion h
        exact .inr ⟨m, resto, k', hpl, rfl, by simpa using hlee, hp, rfl⟩

/-- The packet that the listener took is the last one handled. -/
theorem recibio_enOrden (hs : s.EnOrden) (hpe : s.pendientes = m :: resto) :
    ({ (s.leyo (flujoRespuestas resto)).recibio m with kernel := k' } : Conexion).EnOrden := by
  obtain ⟨ps, hps, hpe', -⟩ := enOrden_iff.mp hs
  rw [hpe] at hpe'
  have htoma : s.llegados = (s.atendidos ++ [m]) ++ resto := by
    rw [hps, ← hpe', List.append_assoc, List.singleton_append]
  refine enOrden_iff.mpr ⟨resto, htoma, ?_, rfl⟩
  show s.llegados.drop (s.atendidos ++ [m]).length = resto
  rw [htoma, List.drop_left]

/-- Every step in which the dispatcher takes no byte keeps the order. -/
theorem Conexion.EnOrden.paso (hs : s.EnOrden) (he : ¬ TomaBytes s e)
    (h : pasoOyente ent pila s e = .ok (s', o)) : s'.EnOrden := by
  cases e with
  | llega m =>
    cases h
    obtain ⟨ps, hps, hpe, hflujo⟩ := enOrden_iff.mp hs
    refine enOrden_iff.mpr ⟨ps ++ [m], ?_, ?_, ?_⟩
    · show s.llegados ++ [m] = _
      rw [hps, List.append_assoc]
    · show (s.llegados ++ [m]).drop s.atendidos.length = _
      rw [hps, List.append_assoc, List.drop_left]
    · show s.flujo ++ (mensajeRespuesta m).trama = _
      rw [hflujo]
      simp [flujoRespuestas]
  | oyente =>
    rcases escuchar_conexion hs h with ⟨-, k', rfl⟩ | ⟨m, resto, k', -, hpe, -, -, rfl⟩
    · exact ⟨hs.orden, hs.flujo⟩
    · exact recibio_enOrden hs hpe
  | syscall y =>
    obtain ⟨k', despacho, rfl⟩ := despachar_ok h
    exact ⟨hs.orden, hs.flujo⟩
  | syscallHasta y i =>
    obtain ⟨k', despacho, rfl⟩ := despacharHasta_ok h
    exact ⟨hs.orden, hs.flujo⟩
  | recibirMensaje n =>
    obtain ⟨-, rfl⟩ := recibirMensaje_ok h
    have hn : n = 0 := Nat.eq_zero_of_not_pos fun hpos => he ⟨n, rfl, hpos⟩
    subst hn
    exact ⟨hs.orden, hs.flujo⟩
  | largoPlazo =>
    obtain ⟨k', -, rfl⟩ := enKernel_conexion h
    exact ⟨hs.orden, hs.flujo⟩

/-- Bytes that the dispatcher takes are missing in the packets that wait. -/
theorem tomaBytes_rompe (hs : s.EnOrden) (he : TomaBytes s e)
    (h : pasoOyente ent pila s e = .ok (s', o)) : ¬ s'.EnOrden := by
  intro hs'
  obtain ⟨n, rfl, hn⟩ := he
  obtain ⟨hle, rfl⟩ := recibirMensaje_ok h
  have hflujo : s.flujo.drop n = s.flujo := hs'.flujo.trans hs.flujo.symm
  have hlen := congrArg List.length hflujo
  rw [List.length_drop] at hlen
  omega

/-! ## The listener gets to the first packet -/

/-- In the scheduler, the listener handles no packet ever again. -/
theorem planificando_oyente {n : Nat} (hs : s.EnOrden) (hpl : s.planificando = true)
    (h : Reaches (pasoOyente ent pila) s (List.replicate n .oyente) s') :
    s'.EnOrden ∧ s'.planificando = true := by
  refine h.keeps (I := fun t => t.EnOrden ∧ t.planificando = true) ⟨hs, hpl⟩ ?_
  rintro s₁ e s₂ o he ⟨hs₁, hpl₁⟩ hp
  obtain rfl := List.eq_of_mem_replicate he
  rcases escuchar_conexion hs₁ hp with ⟨-, k', rfl⟩ | ⟨m, resto, k', hno, -⟩
  · exact ⟨⟨hs₁.orden, hs₁.flujo⟩, hpl₁⟩
  · rw [hpl₁] at hno
    cases hno

/-- The listener takes no handled packet back. -/
theorem atendidos_oyente {n : Nat} (hs : s.EnOrden)
    (h : Reaches (pasoOyente ent pila) s (List.replicate n .oyente) s') :
    s.atendidos.length ≤ s'.atendidos.length := by
  refine (h.keeps (I := fun t => t.EnOrden ∧ s.atendidos.length ≤ t.atendidos.length)
    ⟨hs, le_rfl⟩ ?_).2
  rintro s₁ e s₂ o he ⟨hs₁, hle⟩ hp
  obtain rfl := List.eq_of_mem_replicate he
  refine ⟨hs₁.paso (by simp [TomaBytes]) hp, hle.trans ?_⟩
  rcases escuchar_conexion hs₁ hp with ⟨-, k', rfl⟩ | ⟨m, resto, k', -, -, -, -, rfl⟩
  · exact le_rfl
  · exact (List.prefix_append s₁.atendidos [m]).length_le

/-- Outside of the scheduler, each step of the listener handles a packet, so the listener that has
handled none is where it was. -/
theorem oyente_en_cero {n : Nat} (hs : s.EnOrden) (hpl : s.planificando = false)
    (h : Reaches (pasoOyente ent pila) s (List.replicate n .oyente) s')
    (heq : s'.atendidos = s.atendidos) : s' = s := by
  cases n with
  | zero => exact reaches_nil.mp h
  | succ n =>
    rw [List.replicate_succ, ← List.singleton_append] at h
    obtain ⟨s₁, h₁, h⟩ := reaches_append.mp h
    obtain ⟨o, h₁⟩ := reaches_singleton.mp h₁
    have hs₁ := hs.paso (by simp [TomaBytes]) h₁
    rcases escuchar_conexion hs h₁ with ⟨hno, -⟩ | ⟨m, resto, k', -, -, -, -, rfl⟩
    · rw [hpl] at hno
      cases hno
    · have hle : (s.atendidos ++ [m]).length ≤ s'.atendidos.length := atendidos_oyente hs₁ h
      rw [heq, List.length_append, List.length_singleton] at hle
      exact absurd hle (Nat.not_succ_le_self _)

/-- What the listener needs to handle the packet that waits first. -/
structure Conexion.Puede (pila : Nat → Hallazgo) (s : Conexion) (m : Kernel.MensajeMemoria) :
    Prop where
  atendible : m.Atendible s.kernel
  legible : leePuntero m = true → (pila s.vuelta).legible = true

/-- Exactly when the listener gets to handle the packet that waits first. -/
theorem alcanza_iff (hs : s.EnOrden) : s.Alcanza ent pila ↔
    ∀ m resto, s.pendientes = m :: resto → s.planificando = false ∧ s.Puede pila m := by
  constructor
  · intro h m resto hpe
    obtain ⟨n, s₁, s₂, o, hn, hp, hat₁, hat₂, hatendido⟩ := h m resto hpe
    have hpl : s.planificando = false := by
      by_contra hno
      obtain ⟨hs₁, hpl₁⟩ := planificando_oyente hs (by simpa using hno) hn
      rcases escuchar_conexion hs₁ hp with ⟨-, k', rfl⟩ | ⟨m', resto', k', hpl', -⟩
      · rw [← hat₁] at hat₂
        exact absurd (congrArg List.length hat₂) (by simp)
      · rw [hpl₁] at hpl'
        cases hpl'
    obtain rfl := oyente_en_cero hs hpl hn hat₁
    rcases escuchar_conexion hs hp with ⟨hno, -⟩ | ⟨m', resto', k', -, hpe', hlee, hp', rfl⟩
    · rw [hpl] at hno
      cases hno
    · rw [hpe] at hpe'
      obtain ⟨rfl, rfl⟩ := List.cons.inj hpe'
      exact ⟨hpl, Kernel.memoria_atendido_iff.mp ⟨k', Kernel.paso_ok hp', hatendido⟩, hlee⟩
  · intro h m resto hpe
    obtain ⟨hpl, hat, hlee⟩ := h m resto hpe
    obtain ⟨k', hr, hat⟩ := Kernel.memoria_atendido_iff.mpr hat
    obtain ⟨o, hp⟩ := @Kernel.paso_of_run ent _ _ (.memoria m) hr
    refine ⟨0, s, { (s.leyo (flujoRespuestas resto)).recibio m with kernel := k' }, o,
      reaches_nil.mpr rfl, ?_, rfl, rfl, hat⟩
    show s.escuchar ent pila = _
    rw [escuchar_enOrden hs hpl hpe, if_neg (by simpa using hlee)]
    unfold Conexion.enKernel
    rw [show ((s.leyo (flujoRespuestas resto)).recibio m).kernel = s.kernel from rfl, hp]

/-! ## Runs -/

theorem enOrden_nueva (k : Kernel.Estado) : (Conexion.nueva k).EnOrden :=
  ⟨List.nil_prefix, rfl⟩

/-- While the dispatcher takes no byte the connection is in order, and the listener is in the
scheduler from the first `CONFIRMAR_CREACION_HILO` with bit 1 on. -/
theorem corrida_oyente {k : Kernel.Estado} {es : List SucesoConexion}
    (h : Reaches (pasoOyente ent pila) (.nueva k) es s)
    (hno : ¬ Happened (pasoOyente ent pila) (.nueva k) es TomaBytes) :
    s.EnOrden ∧
      (s.planificando = true ↔ Happened (pasoOyente ent pila) (.nueva k) es TomaCreacion) := by
  revert hno
  refine h.along (I := fun es t => ¬ Happened (pasoOyente ent pila) (.nueva k) es TomaBytes →
    t.EnOrden ∧
      (t.planificando = true ↔ Happened (pasoOyente ent pila) (.nueva k) es TomaCreacion)) ?_ ?_
  · intro _
    exact ⟨enOrden_nueva k, iff_of_false (by simp [Conexion.nueva]) not_happened_nil⟩
  · intro pre s₁ e s₂ o _ hpre hI hp hno
    rw [happened_snoc hpre, not_or] at hno
    obtain ⟨hs₁, hpl₁⟩ := hI hno.1
    refine ⟨hs₁.paso hno.2 hp, ?_⟩
    rw [happened_snoc hpre, ← hpl₁]
    -- A step of another thread handles no packet.
    have hotro : e ≠ .oyente → s₂.planificando = s₁.planificando →
        (s₂.planificando = true ↔ s₁.planificando = true ∨ TomaCreacion s₁ e) := by
      intro he heq
      rw [heq]
      exact ⟨.inl, fun h => h.resolve_right fun hno => he hno.1⟩
    cases e with
    | llega m =>
      cases hp
      exact hotro (by simp) rfl
    | syscall y =>
      obtain ⟨k', despacho, rfl⟩ := despachar_ok hp
      exact hotro (by simp) rfl
    | syscallHasta y i =>
      obtain ⟨k', despacho, rfl⟩ := despacharHasta_ok hp
      exact hotro (by simp) rfl
    | recibirMensaje n =>
      obtain ⟨-, rfl⟩ := recibirMensaje_ok hp
      exact hotro (by simp) rfl
    | largoPlazo =>
      obtain ⟨k', -, rfl⟩ := enKernel_conexion hp
      exact hotro (by simp) rfl
    | oyente =>
      rcases escuchar_conexion hs₁ hp with ⟨hpl, k', rfl⟩ | ⟨m, resto, k', hpl, hpe, -, -, rfl⟩
      · exact iff_of_true hpl (.inl hpl)
      · constructor
        · intro hm
          exact .inr ⟨rfl, m, resto, hpe, hm⟩
        · rintro (hno | ⟨-, m', resto', hpe', hm⟩)
          · rw [hpl] at hno
            cases hno
          · rw [hpe] at hpe'
            obtain ⟨rfl, rfl⟩ := List.cons.inj hpe'
            exact hm

/-- Where the connection was in order all along, the dispatcher took no byte. -/
theorem sinTomar_of_enOrden {k : Kernel.Estado} {es pre : List SucesoConexion}
    (h : EveryState (pasoOyente ent pila) (.nueva k) es fun _ s => s.EnOrden) (hpre : pre <+: es)
    (hs : Reaches (pasoOyente ent pila) (.nueva k) pre s) :
    ¬ Happened (pasoOyente ent pila) (.nueva k) pre TomaBytes := by
  rintro ⟨pre', e, s₁, hpre', hs₁, he⟩
  obtain ⟨fin, rfl⟩ := hpre'
  obtain ⟨s₂, hs₂, -⟩ := reaches_append.mp hs
  obtain ⟨s₁', hs₁', hp⟩ := reaches_append.mp hs₂
  obtain ⟨o, hp⟩ := reaches_singleton.mp hp
  obtain rfl := hs₁.unique hs₁'
  have hcorta : pre' ++ [e] <+: es := (List.prefix_append _ fin).trans hpre
  have hantes := h pre' s₁ ((List.prefix_append _ _).trans hcorta) hs₁
  exact tomaBytes_rompe hantes he hp (h _ s₂ hcorta hs₂)

end Pasos

/-- **The listener handles every packet**, in order, along a run exactly when the dispatcher takes
no byte of a packet, no packet waits in a state after the listener took a
`CONFIRMAR_CREACION_HILO` with bit 1, and each packet that waits first can be handled. -/
theorem oyente_atiende_iff (ent : Kernel.Entorno) (pila : Nat → Hallazgo)
    (tcbs : Kernel.Dir → Kernel.TCB) (pcbs : Kernel.Dir → Kernel.PCB)
    (uint32s : Kernel.Dir → Uint32) (es : List SucesoConexion) :
    EveryState (pasoOyente ent pila) (.nueva (Kernel.estadoInicial tcbs pcbs uint32s)) es
        (fun _ s => s.Atiende ent pila) ↔
      EveryState (pasoOyente ent pila) (.nueva (Kernel.estadoInicial tcbs pcbs uint32s)) es
        fun pre s =>
          ¬ Happened (pasoOyente ent pila) (.nueva (Kernel.estadoInicial tcbs pcbs uint32s)) pre
              TomaBytes ∧
            ∀ m resto, s.pendientes = m :: resto →
              ¬ Happened (pasoOyente ent pila)
                  (.nueva (Kernel.estadoInicial tcbs pcbs uint32s)) pre TomaCreacion ∧
                s.Puede pila m := by
  constructor
  · intro h pre s hpre hs
    have hno := sinTomar_of_enOrden (fun pre s hpre hs => (h pre s hpre hs).1) hpre hs
    obtain ⟨hs', hpl⟩ := corrida_oyente hs hno
    refine ⟨hno, fun m resto hpe => ?_⟩
    rw [← hpl, Bool.not_eq_true]
    exact (alcanza_iff hs').mp (h pre s hpre hs).2 m resto hpe
  · intro h pre s hpre hs
    obtain ⟨hno, hpuede⟩ := h pre s hpre hs
    obtain ⟨hs', hpl⟩ := corrida_oyente hs hno
    refine ⟨hs', (alcanza_iff hs').mpr fun m resto hpe => ?_⟩
    obtain ⟨hlibre, hm⟩ := hpuede m resto hpe
    rw [← hpl, Bool.not_eq_true] at hlibre
    exact ⟨hlibre, hm⟩

/-- The pointer of the log can always be read. -/
def pilaLegible : Nat → Hallazgo := fun _ => ⟨basuraCero, true⟩

/-- The confirmation of the first main thread is the last packet that the kernel reads. -/
theorem oyente_colgado : ∃ es s,
    Reaches (pasoOyente Kernel.entornoFifo pilaLegible) (.nueva Kernel.estadoCero) es s ∧
      s.pendientes = [.confirmarDumpMemory] ∧ ¬ s.Atiende Kernel.entornoFifo pilaLegible := by
  have hrun : (run (pasoOyente Kernel.entornoFifo pilaLegible) (.nueva Kernel.estadoCero)
      [.syscall (.processCreate ⟨0, 0, ['a'], 32, 0⟩), .largoPlazo,
        .llega (.confirmarEspacioProceso ⟨1, 1⟩), .oyente,
        .llega (.confirmarCreacionHilo ⟨1, 0, 1⟩), .oyente,
        .llega .confirmarDumpMemory]).toOption.map (fun r =>
          (r.1.pendientes, r.1.planificando)) = some ([.confirmarDumpMemory], true) := by
    decide +kernel
  obtain ⟨s, hs, hg⟩ :=
    reaches_of_map (g := fun s : Conexion => (s.pendientes, s.planificando)) hrun
  obtain ⟨hpe, hpl⟩ := Prod.mk.inj hg
  refine ⟨_, s, hs, hpe, fun h => ?_⟩
  have hno := ((alcanza_iff h.1).mp h.2 .confirmarDumpMemory [] hpe).1
  rw [hpl] at hno
  cases hno

end LastOfC.Sistema
