import LastOfC.Cpu.Respuestas

/-!
# Confirmations of interrupts (`ciclo_de_instruccion.c`, `kernel_escucha_cpu_interrupt.c`)

`check_interrupt` sends a packet: operation code, size, pid and tid, 4 bytes each. The listener of
the kernel calls `recibir_operacion` and nothing else, so each of the four words is an operation
code for it.

* `checkInterrupt`: the bytes of a confirmation. `enviarInterrupciones_palabras`: those of a
  sequence of them are the words of `palabrasDe`.
* `kernelEscuchaCpuInterrupt`: what the listener reads, and where. `escuchar_interrupciones`: all
  words of all packets, up to the first -1.
* `LeePaquetes`: one `CONFIRMAR_INTERRUPCION` for each packet, and no word that does not start a
  packet. It holds of no confirmation that was sent.
-/

namespace LastOfC.Sistema

/-- `MENSAJE`. -/
def MENSAJE : CInt := 0

/-- `PAQUETE`. -/
def PAQUETE : CInt := 1

/-- `CONFIRMAR_INTERRUPCION`. -/
def CONFIRMAR_INTERRUPCION : CInt := 34

/-! ## The CPU -/

/-- `serializar_hilo_cpu`. It leaves `offset` to `malloc`. -/
def serializarHiloCpu (offset pid tid : Uint32) (basura : Nat → Byte) : Option TBuffer :=
  llenarBuffer basura (2 * 4) offset [(bytesDe pid, 4), (bytesDe tid, 4)]

/-- `check_interrupt`: what it writes to `fd_kernel_interrupt`, after `actualizar_contexto`. -/
def checkInterrupt (malloc : Malloc) (contexto : TContextoEjecucion) : Option (List Byte) := do
  let buffer ← serializarHiloCpu malloc.offset contexto.pid contexto.TID malloc.stream
  enviarPaquete malloc.magic { codigoOperacion := CONFIRMAR_INTERRUPCION, buffer }

/-- Calls of `check_interrupt`, one after the other. -/
def enviarInterrupciones (envios : List (Malloc × TContextoEjecucion)) : Option (List Byte) :=
  enviarTodos (fun e => checkInterrupt e.1 e.2) envios

/-! ## The kernel -/

/-- The cases of the `switch` of `kernel_escucha_cpu_interrupt`. -/
inductive Caso where
  | mensaje
  | paquete
  | confirmarInterrupcion
  /-- `exit(EXIT_FAILURE)`. -/
  | desconexion
  | desconocida
  deriving DecidableEq, Repr

/-- The case that takes an operation code. -/
def casoDe (codOp : CInt) : Caso :=
  if codOp = MENSAJE then .mensaje
  else if codOp = PAQUETE then .paquete
  else if codOp = CONFIRMAR_INTERRUPCION then .confirmarInterrupcion
  else if codOp = -1 then .desconexion
  else .desconocida

/-- A call of `recibir_operacion` that returned: the position of the first byte that it took, and
the operation code. -/
structure Lectura where
  posicion : Nat
  codOp : CInt
  deriving DecidableEq, Repr

/-- The loop of `kernel_escucha_cpu_interrupt` from the byte `pos` of the connection on, until it
exits or `recv` waits for more bytes. -/
def escucharDesde (pos : Nat) : List Byte → List Lectura
  | b₀ :: b₁ :: b₂ :: b₃ :: socket =>
    let codOp := palabraDe b₀ b₁ b₂ b₃
    ⟨pos, codOp⟩ ::
      if casoDe codOp = .desconexion then [] else escucharDesde (pos + 4) socket
  | _ => []

/-- `kernel_escucha_cpu_interrupt` on a connection with these bytes. -/
def kernelEscuchaCpuInterrupt (socket : List Byte) : List Lectura := escucharDesde 0 socket

/-- The listener reads the packets of `envios` as packets: each is one `CONFIRMAR_INTERRUPCION`, and
only the words that start a packet are operation codes. -/
structure LeePaquetes (envios : List (Malloc × TContextoEjecucion)) (leido : List Lectura) :
    Prop where
  unaPorPaquete :
    leido.countP (fun l => casoDe l.codOp = .confirmarInterrupcion) = envios.length
  soloCodigos : ∀ l ∈ leido, ∃ antes e despues bytes, envios = antes ++ e :: despues ∧
    enviarInterrupciones antes = some bytes ∧ l.posicion = bytes.length

/-! ## What is sent -/

/-- The words of a confirmation. -/
def palabrasDe (contexto : TContextoEjecucion) : List CInt :=
  [CONFIRMAR_INTERRUPCION, 8, contexto.pid, contexto.TID]

section Envios

variable {envios : List (Malloc × TContextoEjecucion)} {bytes : List Byte}

/-- A confirmation is four words, whatever `malloc` finds. -/
theorem checkInterrupt_palabras (malloc : Malloc) (contexto : TContextoEjecucion) :
    checkInterrupt malloc contexto = some ((palabrasDe contexto).flatMap bytesDe) := by
  have hbuffer : serializarHiloCpu malloc.offset contexto.pid contexto.TID malloc.stream =
      some ⟨8, malloc.offset, bytesDe contexto.pid ++ bytesDe contexto.TID⟩ := by
    have hfills : Block.Fills (Block.grow [] 8 malloc.stream).length
        [(bytesDe contexto.pid, 4), (bytesDe contexto.TID, 4)] := by
      simp [Block.grow_length, Block.Fills]
    have hsize : (((2 * 4 : CInt)).signExtend 64).toNat = 8 := by decide
    unfold serializarHiloCpu llenarBuffer
    rw [hsize, Block.writeAll_eq hfills]
    rfl
  have hpaquete := enviarPaquete_mensaje ⟨CONFIRMAR_INTERRUPCION,
    bytesDe contexto.pid ++ bytesDe contexto.TID, by decide, by simp⟩ malloc.magic malloc.offset
  have hsize : Mensaje.size ⟨CONFIRMAR_INTERRUPCION,
      bytesDe contexto.pid ++ bytesDe contexto.TID, by decide, by simp⟩ = 8 := rfl
  rw [Mensaje.paquete, Mensaje.trama_eq, hsize] at hpaquete
  unfold checkInterrupt
  rw [hbuffer, Option.bind_eq_bind, Option.bind_some]
  refine hpaquete.trans ?_
  simp [palabrasDe]

/-- The connection after any calls of `check_interrupt`. -/
theorem enviarInterrupciones_palabras (envios : List (Malloc × TContextoEjecucion)) :
    enviarInterrupciones envios =
      some ((envios.flatMap fun e => palabrasDe e.2).flatMap bytesDe) := by
  induction envios with
  | nil => rfl
  | cons e envios ih =>
    have hresto : enviarTodos (fun e => checkInterrupt e.1 e.2) envios = _ := ih
    unfold enviarInterrupciones enviarTodos
    rw [checkInterrupt_palabras, hresto, List.flatMap_cons, List.flatMap_append]
    rfl

/-- Each packet has 16 bytes. -/
theorem length_enviarInterrupciones (h : enviarInterrupciones envios = some bytes) :
    bytes.length = 16 * envios.length := by
  rw [enviarInterrupciones_palabras] at h
  obtain rfl := Option.some.inj h
  clear h
  induction envios with
  | nil => rfl
  | cons e envios ih =>
    rw [List.flatMap_cons, List.flatMap_append, List.length_append, ih, List.length_cons]
    simp [palabrasDe, bytesDe]
    omega

end Envios

/-! ## What is read -/

/-- An iteration of the loop is a call of `recibir_operacion`. -/
theorem escucharDesde_recibir {socket : List Byte} (pos : Nat) (basura : CInt)
    (h : 4 ≤ socket.length) : ∃ codOp resto, recibirOperacion basura socket = (codOp, resto) ∧
      escucharDesde pos socket = ⟨pos, codOp⟩ ::
        if casoDe codOp = .desconexion then [] else escucharDesde (pos + 4) resto := by
  match socket, h with
  | b₀ :: b₁ :: b₂ :: b₃ :: resto, _ => exact ⟨palabraDe b₀ b₁ b₂ b₃, resto, rfl, rfl⟩

theorem escucharDesde_palabra (pos : Nat) (w : CInt) (socket : List Byte) :
    escucharDesde pos (bytesDe w ++ socket) = ⟨pos, w⟩ ::
      if casoDe w = .desconexion then [] else escucharDesde (pos + 4) socket := by
  have hlargo : 4 ≤ (bytesDe w ++ socket).length := by simp
  obtain ⟨codOp, resto, hrecibe, heq⟩ := escucharDesde_recibir pos 0 hlargo
  have hw : recibirOperacion 0 (bytesDe w ++ socket) = (w, socket) :=
    congrArg (·, socket) (palabraSobre_bytesDe 0 w)
  obtain ⟨rfl, rfl⟩ := Prod.mk.inj (hrecibe.symm.trans hw)
  exact heq

theorem casoDe_confirmar {w : CInt} :
    casoDe w = .confirmarInterrupcion ↔ w = CONFIRMAR_INTERRUPCION := by
  unfold casoDe
  split_ifs with h₀ h₁ h₂ h₃
  · simp [h₀, MENSAJE, CONFIRMAR_INTERRUPCION]
  · simp [h₁, PAQUETE, CONFIRMAR_INTERRUPCION]
  · exact iff_of_true rfl h₂
  · exact iff_of_false (by simp) h₂
  · exact iff_of_false (by simp) h₂

theorem casoDe_desconexion {w : CInt} : casoDe w = .desconexion ↔ w = -1 := by
  unfold casoDe
  split_ifs with h₀ h₁ h₂ h₃
  · simp [h₀, MENSAJE]
  · simp [h₁, PAQUETE]
  · simp [h₂, CONFIRMAR_INTERRUPCION]
  · exact iff_of_true rfl h₃
  · exact iff_of_false (by simp) h₃

/-- The words up to the first -1, and that one. -/
def hastaDesconexion : List CInt → List CInt
  | [] => []
  | w :: ws => w :: if w = -1 then [] else hastaDesconexion ws

theorem mem_hastaDesconexion {ws : List CInt} : -1 ∈ hastaDesconexion ws ↔ -1 ∈ ws := by
  induction ws with
  | nil => exact Iff.rfl
  | cons w ws ih =>
    unfold hastaDesconexion
    by_cases hw : w = -1
    · simp [hw]
    · rw [if_neg hw, List.mem_cons, List.mem_cons, ih]

theorem hastaDesconexion_eq {ws : List CInt} (h : -1 ∉ ws) : hastaDesconexion ws = ws := by
  induction ws with
  | nil => rfl
  | cons w ws ih =>
    obtain ⟨hw, hws⟩ := not_or.mp fun hmem => h (List.mem_cons.mpr hmem)
    rw [hastaDesconexion, if_neg (Ne.symm hw), ih hws]

/-- On a connection that carries whole words the listener takes one after the other. -/
theorem escucharDesde_palabras (n : Nat) (ws : List CInt) :
    escucharDesde (4 * n) (ws.flatMap bytesDe) =
      ((hastaDesconexion ws).zipIdx n).map fun x => ⟨4 * x.2, x.1⟩ := by
  induction ws generalizing n with
  | nil => rfl
  | cons w ws ih =>
    have hresto := ih (n + 1)
    rw [Nat.mul_succ] at hresto
    rw [List.flatMap_cons, escucharDesde_palabra, hastaDesconexion, List.zipIdx_cons, List.map_cons]
    by_cases hw : w = -1
    · rw [if_pos (casoDe_desconexion.mpr hw), if_pos hw]
      rfl
    · rw [if_neg fun hd => hw (casoDe_desconexion.mp hd), if_neg hw, hresto]

section Lecturas

variable {envios : List (Malloc × TContextoEjecucion)} {bytes : List Byte}

/-- The words of confirmations. -/
def palabrasDeTodos (envios : List (Malloc × TContextoEjecucion)) : List CInt :=
  envios.flatMap fun e => palabrasDe e.2

theorem menosUno_mem_palabrasDeTodos :
    -1 ∈ palabrasDeTodos envios ↔ ∃ e ∈ envios, e.2.pid = -1 ∨ e.2.TID = -1 := by
  rw [palabrasDeTodos, List.mem_flatMap]
  refine exists_congr fun e => and_congr_right fun _ => ?_
  simp [palabrasDe, CONFIRMAR_INTERRUPCION, eq_comm]

/-- **What the listener takes for operation codes**: operation code, size, pid and tid of each
packet, until one of them is -1. -/
theorem escuchar_interrupciones (h : enviarInterrupciones envios = some bytes) :
    kernelEscuchaCpuInterrupt bytes =
      (hastaDesconexion (palabrasDeTodos envios)).zipIdx.map fun x => ⟨4 * x.2, x.1⟩ := by
  rw [enviarInterrupciones_palabras] at h
  obtain rfl := Option.some.inj h
  exact escucharDesde_palabras 0 _

theorem codOps_interrupciones (h : enviarInterrupciones envios = some bytes) :
    (kernelEscuchaCpuInterrupt bytes).map Lectura.codOp =
      hastaDesconexion (palabrasDeTodos envios) := by
  rw [escuchar_interrupciones h, List.map_map]
  exact List.zipIdx_map_fst 0 _

/-- The kernel exits exactly if the pid or the tid of some packet is -1. -/
theorem desconexion_iff (h : enviarInterrupciones envios = some bytes) :
    (∃ l ∈ kernelEscuchaCpuInterrupt bytes, casoDe l.codOp = .desconexion) ↔
      ∃ e ∈ envios, e.2.pid = -1 ∨ e.2.TID = -1 := by
  rw [← menosUno_mem_palabrasDeTodos, ← mem_hastaDesconexion, ← codOps_interrupciones h,
    List.mem_map]
  simp only [casoDe_desconexion]

/-- How often the listener takes `CONFIRMAR_INTERRUPCION`, if the kernel does not exit: once for
each packet, and once for each pid and each tid that is 34. -/
theorem confirmaciones_eq (h : enviarInterrupciones envios = some bytes)
    (hno : ∀ e ∈ envios, e.2.pid ≠ -1 ∧ e.2.TID ≠ -1) :
    (kernelEscuchaCpuInterrupt bytes).countP
        (fun l => casoDe l.codOp = .confirmarInterrupcion) =
      envios.length + envios.countP (fun e => e.2.pid = CONFIRMAR_INTERRUPCION) +
        envios.countP (fun e => e.2.TID = CONFIRMAR_INTERRUPCION) := by
  have hsin : -1 ∉ palabrasDeTodos envios := by
    rw [menosUno_mem_palabrasDeTodos]
    rintro ⟨e, he, hpid | htid⟩
    · exact (hno e he).1 hpid
    · exact (hno e he).2 htid
  have hcods := codOps_interrupciones h
  rw [hastaDesconexion_eq hsin] at hcods
  have hcuenta : (kernelEscuchaCpuInterrupt bytes).countP
      (fun l => casoDe l.codOp = .confirmarInterrupcion) =
      (palabrasDeTodos envios).count CONFIRMAR_INTERRUPCION := by
    rw [← hcods, List.count_eq_countP, List.countP_map]
    refine List.countP_congr fun l _ => ?_
    simp [casoDe_confirmar]
  rw [hcuenta]
  clear h hno hsin hcods hcuenta
  induction envios with
  | nil => rfl
  | cons e envios ih =>
    have hocho : (8 : CInt) ≠ CONFIRMAR_INTERRUPCION := by decide
    rw [palabrasDeTodos] at ih
    rw [palabrasDeTodos, List.flatMap_cons, List.count_append, ih, List.length_cons,
      List.countP_cons, List.countP_cons]
    simp only [palabrasDe, List.count_cons, List.count_nil, beq_iff_eq, decide_eq_true_eq,
      if_neg hocho, if_true]
    omega

/-- The second word that the listener takes is the size of the first packet. -/
theorem lee_size {e : Malloc × TContextoEjecucion}
    (h : enviarInterrupciones (e :: envios) = some bytes) :
    ⟨4, 8⟩ ∈ kernelEscuchaCpuInterrupt bytes := by
  rw [escuchar_interrupciones h]
  refine List.mem_map.mpr ⟨(8, 1), ?_, rfl⟩
  simp [palabrasDeTodos, palabrasDe, hastaDesconexion, CONFIRMAR_INTERRUPCION, List.zipIdx_cons]

/-- A packet that was sent is not read as a packet: its size is at 4, and the packets start at
multiples of 16. -/
theorem not_leePaquetes {e : Malloc × TContextoEjecucion}
    (h : enviarInterrupciones (e :: envios) = some bytes) :
    ¬ LeePaquetes (e :: envios) (kernelEscuchaCpuInterrupt bytes) := by
  intro hlee
  obtain ⟨antes, e', despues, bs, -, hbs, hpos⟩ := hlee.soloCodigos _ (lee_size h)
  have hlargo := length_enviarInterrupciones hbs
  have h4 : 4 = bs.length := hpos
  omega

/-- **Confirmations are not read as whole messages.** For every sequence of calls of
`check_interrupt`, the listener reads its packets as packets exactly if there is none. -/
theorem interrupciones_iff (h : enviarInterrupciones envios = some bytes) :
    LeePaquetes envios (kernelEscuchaCpuInterrupt bytes) ↔ envios = [] := by
  constructor
  · intro hlee
    by_contra hne
    obtain ⟨e, resto, rfl⟩ := List.exists_cons_of_ne_nil hne
    exact not_leePaquetes h hlee
  · rintro rfl
    cases h
    exact ⟨rfl, fun l hl => absurd hl List.not_mem_nil⟩

end Lecturas

/-- `check_interrupt` of the thread 0 of the process 1, with memory that is 0. -/
def envioUno : Malloc × TContextoEjecucion :=
  (⟨0, fun _ => 0, fun _ => 0⟩, ⟨0, .cero, 0, 0, 0, 1⟩)

/-- The bytes of its packet. -/
def bytesUno : List Byte := [34, 0, 0, 0, 8, 0, 0, 0, 1, 0, 0, 0, 0, 0, 0, 0]

theorem interrupciones_uno :
    enviarInterrupciones [envioUno] = some bytesUno ∧
      (LeePaquetes [envioUno] (kernelEscuchaCpuInterrupt bytesUno) ↔ [envioUno] = []) :=
  ⟨enviarInterrupciones_palabras [envioUno],
    interrupciones_iff (enviarInterrupciones_palabras [envioUno])⟩

/-- Its size is an unknown operation, its pid a `PAQUETE` and its tid a `MENSAJE`. -/
theorem interrupciones_contraejemplo :
    enviarInterrupciones [envioUno] = some bytesUno ∧
      (kernelEscuchaCpuInterrupt bytesUno).map (fun l => casoDe l.codOp) =
        [.confirmarInterrupcion, .desconocida, .paquete, .mensaje] ∧
      ¬ LeePaquetes [envioUno] (kernelEscuchaCpuInterrupt bytesUno) :=
  ⟨enviarInterrupciones_palabras [envioUno], by decide,
    not_leePaquetes (enviarInterrupciones_palabras [envioUno])⟩

end LastOfC.Sistema
