import LastOfC.Utils.Campos

/-!
# Messages laid out by hand (`serializar.c`, `c_conexiones.c`)

The encoders that fill a block through a pointer, and their decoders. An encoder is the list of its
`memcpy`s, each with the move of the pointer after it. `malloc` and `realloc` find `basura` in the
block.

* `serializarEnviarContextoCpu`, `serializarHiloReady`, `serializarObtenerInstruccion`,
  `serializarEnviarInstruccion`, `serializarThreadCreate`, `serializarProcesoMemoria` and
  `serializarHiloMemoria`, each with its decoder.
* `IdaYVuelta`: the encoder writes every byte of the size that it declares, and no other, and the
  decoder reads the fields back within that size.
* `mensajes_ida_y_vuelta`: all seven pairs.
-/

namespace LastOfC

/-! ## Words and strings -/

/-- `memcpy(stream, &valor, sizeof(size_t))`. -/
def bytesDeSizeT (valor : BitVec 64) : List Byte :=
  bytesDe (valor.extractLsb' 0 32) ++ bytesDe (valor.extractLsb' 32 32)

/-- `memcpy(&valor, stream, sizeof(size_t))`, and what is left of the block. -/
def leerSizeT (stream : List Byte) : Option (BitVec 64 × List Byte) := do
  let (baja, stream) ← leerBufferUint32 stream
  let (alta, stream) ← leerBufferUint32 stream
  some (alta ++ baja, stream)

/-- `cadena = malloc(n); memcpy(cadena, stream, n)`, and what is left of the block. There is no
string if the bytes have no terminator. -/
def leerCadena (n : Nat) (stream : List Byte) : Option (CString × List Byte) :=
  if n ≤ stream.length ∧ 0 ∈ stream.take n then
    some (⟨cadenaDe (stream.take n), esCString_cadenaDe _⟩, stream.drop n)
  else none

/-- `memcpy(stream, registros, sizeof(RegistrosCPU))`. -/
def bytesDeRegistros (r : RegistrosCPU) : List Byte :=
  bytesDe r.AX ++ (bytesDe r.BX ++ (bytesDe r.CX ++ (bytesDe r.DX ++ (bytesDe r.EX ++
    (bytesDe r.FX ++ (bytesDe r.GX ++ bytesDe r.HX))))))

/-- `memcpy(registros, stream, sizeof(RegistrosCPU))`. -/
def leerRegistros (stream : List Byte) : Option (RegistrosCPU × List Byte) := do
  let (AX, stream) ← leerBufferUint32 stream
  let (BX, stream) ← leerBufferUint32 stream
  let (CX, stream) ← leerBufferUint32 stream
  let (DX, stream) ← leerBufferUint32 stream
  let (EX, stream) ← leerBufferUint32 stream
  let (FX, stream) ← leerBufferUint32 stream
  let (GX, stream) ← leerBufferUint32 stream
  let (HX, stream) ← leerBufferUint32 stream
  some ({ AX, BX, CX, DX, EX, FX, GX, HX }, stream)

/-- `malloc(size)` of an `int`, for a block that the `memcpy`s `ps` fill, and the buffer. -/
def llenarBuffer (basura : Nat → Byte) (size : CInt) (offset : Uint32)
    (ps : List (List Byte × Nat)) : Option TBuffer :=
  match Block.writeAll (Block.grow [] (size.signExtend 64).toNat basura) 0 ps with
  | some stream => some { size, offset, stream }
  | none => none

/-! ## `ENVIAR_CONTEXTO` and `ACTUALIZAR_CONTEXTO` -/

/-- `t_contextoEjecucion` as the encoder gets it: `RegistrosCPU` is a pointer, and may be `NULL`. -/
structure TContextoPuntero where
  TID : Uint32
  RegistrosCPU : Option RegistrosCPU
  PC : Uint32
  base : Uint32
  limite : Uint32
  pid : Uint32
  deriving DecidableEq, Repr

/-- `serializar_enviar_contexto_cpu`. -/
def serializarEnviarContextoCpu (contexto : TContextoPuntero) (basura : Nat → Byte) :
    Option TBuffer :=
  llenarBuffer basura 52 0
    [(bytesDe contexto.TID, 4), (bytesDe contexto.PC, 4), (bytesDe contexto.base, 4),
      (bytesDe contexto.limite, 4), (bytesDe contexto.pid, 4),
      (match contexto.RegistrosCPU with
        | some registros => bytesDeRegistros registros
        | none => List.replicate 32 0, 32)]

/-- `deserializar_enviar_contexto_cpu`. -/
def deserializarEnviarContextoCpu (buffer : TBuffer) : Option TContextoEjecucion := do
  let (TID, stream) ← leerBufferUint32 buffer.stream
  let (PC, stream) ← leerBufferUint32 stream
  let (base, stream) ← leerBufferUint32 stream
  let (limite, stream) ← leerBufferUint32 stream
  let (pid, stream) ← leerBufferUint32 stream
  let (RegistrosCPU, _) ← leerRegistros stream
  some { TID, RegistrosCPU, PC, base, limite, pid }

/-- The context that a `NULL` pointer to the registers stands for. -/
def TContextoPuntero.contexto (c : TContextoPuntero) : TContextoEjecucion :=
  { TID := c.TID
    RegistrosCPU := c.RegistrosCPU.getD .cero
    PC := c.PC
    base := c.base
    limite := c.limite
    pid := c.pid }

/-! ## `HILO_READY` -/

/-- What `deserializar_crear_hilo` returns. -/
structure HiloReady where
  PID : Uint32
  TID : Uint32
  prioridad : CInt
  path : CString
  deriving DecidableEq

/-- `serializar_hilo_ready`. The `memcpy` of `prioridad` copies 8 bytes of an `int`: after it in
memory comes `vecino`. The pointer moves by 4, and `path_length` covers the other 4. -/
def serializarHiloReady (vecino : Uint32) (hilo : HiloReady) (basura : Nat → Byte) :
    Option TBuffer :=
  let pathLength : BitVec 64 := BitVec.ofNat 64 (hilo.path.1.length + 1)
  llenarBuffer basura ((2 * 4 + 1 * 4 + pathLength + 8).setWidth 32) 20
    [(bytesDe hilo.PID, 4), (bytesDe hilo.TID, 4), (bytesDe hilo.prioridad ++ bytesDe vecino, 4),
      (bytesDeSizeT pathLength, 8),
      ((bytesDeCadena hilo.path.1).take pathLength.toNat, pathLength.toNat)]

/-- `deserializar_crear_hilo`. -/
def deserializarCrearHilo (buffer : TBuffer) : Option HiloReady := do
  let (PID, stream) ← leerBufferUint32 buffer.stream
  let (TID, stream) ← leerBufferUint32 stream
  let (prioridad, stream) ← leerBufferUint32 stream
  let (pathLength, stream) ← leerSizeT stream
  let (path, _) ← leerCadena pathLength.toNat stream
  some { PID, TID, prioridad, path }

/-! ## `THREAD_CREATE` -/

/-- What `deserializar_thread_create` returns. -/
structure ThreadCreate where
  PID : Uint32
  TID : Uint32
  nombreArchT : CString
  prioridadH : Uint32
  deriving DecidableEq

/-- `serializar_thread_create`. It leaves `offset` to `malloc`. -/
def serializarThreadCreate (offset : Uint32) (d : ThreadCreate) (basura : Nat → Byte) :
    Option TBuffer :=
  let sizeArchivo : BitVec 64 := BitVec.ofNat 64 (d.nombreArchT.1.length + 1)
  llenarBuffer basura ((4 * 3 + 8 + sizeArchivo).setWidth 32) offset
    [(bytesDe d.PID, 4), (bytesDe d.TID, 4), (bytesDeSizeT sizeArchivo, 8),
      ((bytesDeCadena d.nombreArchT.1).take sizeArchivo.toNat, sizeArchivo.toNat),
      (bytesDe d.prioridadH, 4)]

/-- `deserializar_thread_create`. -/
def deserializarThreadCreate (buffer : TBuffer) : Option ThreadCreate := do
  let (PID, stream) ← leerBufferUint32 buffer.stream
  let (TID, stream) ← leerBufferUint32 stream
  let (sizeArchivo, stream) ← leerSizeT stream
  let (nombreArchT, stream) ← leerCadena sizeArchivo.toNat stream
  let (prioridadH, _) ← leerBufferUint32 stream
  some { PID, TID, nombreArchT, prioridadH }

/-! ## `OBTENER_INSTRUCCION` and `ENVIAR_INSTRUCCION` -/

/-- `serializar_obtener_instruccion`. It leaves `offset` to `malloc`. -/
def serializarObtenerInstruccion (offset : Uint32) (d : TObtenerInstruccion)
    (basura : Nat → Byte) : Option TBuffer :=
  llenarBuffer basura (3 * 4) offset [(bytesDe d.PC, 4), (bytesDe d.TID, 4), (bytesDe d.PID, 4)]

/-- `deserializar_obtener_instruccion`. -/
def deserializarObtenerInstruccion (buffer : TBuffer) : Option TObtenerInstruccion := do
  let (PC, stream) ← leerBufferUint32 buffer.stream
  let (TID, stream) ← leerBufferUint32 stream
  let (PID, _) ← leerBufferUint32 stream
  some { PC, TID, PID }

/-- `serializar_enviar_instruccion`. It keeps the `offset` of the buffer of the packet. -/
def serializarEnviarInstruccion (buffer : TBuffer) (instruccion : CString) (basura : Nat → Byte) :
    Option TBuffer :=
  let longitud : Uint32 := BitVec.ofNat 32 (instruccion.1.length + 1)
  llenarBuffer basura ((4 + longitud.setWidth 64).setWidth 32) buffer.offset
    [(bytesDe longitud, 4), ((bytesDeCadena instruccion.1).take longitud.toNat, longitud.toNat)]

/-- `deserializar_enviar_instruccion`. -/
def deserializarEnviarInstruccion (buffer : TBuffer) : Option CString := do
  let (longitud, stream) ← leerBufferUint32 buffer.stream
  let (instruccion, _) ← leerCadena longitud.toNat stream
  some instruccion

/-! ## `CONFIRMAR_ESPACIO_PROCESO` and `CONFIRMAR_CREACION_HILO` -/

/-- `realloc(buffer->stream, n)`, filled by the `memcpy`s `ps`. -/
def rellenarBuffer (buffer : TBuffer) (basura : Nat → Byte) (n : Nat)
    (ps : List (List Byte × Nat)) : Option TBuffer :=
  match Block.writeAll (Block.grow buffer.stream n basura) 0 ps with
  | some stream => some { buffer with size := BitVec.ofNat 32 n, stream }
  | none => none

/-- `serializar_proceso_memoria`. -/
def serializarProcesoMemoria (buffer : TBuffer) (d : TAsignoMemoria) (basura : Nat → Byte) :
    Option TBuffer :=
  rellenarBuffer buffer basura (4 + 4) [(bytesDe d.pid, 4), (bytesDe d.bitConfirmacion, 4)]

/-- `deserializar_proceso_memoria`. -/
def deserializarProcesoMemoria (buffer : TBuffer) : Option TAsignoMemoria := do
  let (pid, stream) ← leerBufferUint32 buffer.stream
  let (bitConfirmacion, _) ← leerBufferUint32 stream
  some { pid, bitConfirmacion }

/-- `serializar_hilo_memoria`. -/
def serializarHiloMemoria (buffer : TBuffer) (d : TCreacionHilo) (basura : Nat → Byte) :
    Option TBuffer :=
  rellenarBuffer buffer basura (4 * 3)
    [(bytesDe d.pid, 4), (bytesDe d.tid, 4), (bytesDe d.bitConfirmacion, 4)]

/-- `deserializar_creacion_hilo_memoria`. -/
def deserializarCreacionHiloMemoria (buffer : TBuffer) : Option TCreacionHilo :=
  if buffer.size.slt 12 then none
  else do
    let (pid, stream) ← leerBufferUint32 buffer.stream
    let (tid, stream) ← leerBufferUint32 stream
    let (bitConfirmacion, _) ← leerBufferUint32 stream
    some { pid, tid, bitConfirmacion }

/-! ## Words and strings that are read back -/

section Leer

variable {resto : List Byte}

theorem leerSizeT_bytesDeSizeT (valor : BitVec 64) :
    leerSizeT (bytesDeSizeT valor ++ resto) = some (valor, resto) := by
  have hjunta : valor.extractLsb' 32 32 ++ valor.extractLsb' 0 32 = valor := by
    apply BitVec.eq_of_getLsbD_eq
    intro i hi
    simp only [BitVec.getLsbD_append, BitVec.getLsbD_extractLsb']
    grind
  unfold leerSizeT bytesDeSizeT
  rw [List.append_assoc]
  simp only [leer_bytesDe, Option.bind_eq_bind, Option.bind_some, hjunta]

theorem leerCadena_bytesDeCadena (s : CString) {n : Nat} (h : n = s.1.length + 1) :
    leerCadena n (bytesDeCadena s.1 ++ resto) = some (s, resto) := by
  have hn : n = (bytesDeCadena s.1).length := by rw [h, length_bytesDeCadena]
  have hcero : (0 : Byte) ∈ bytesDeCadena s.1 := List.mem_append_right _ (List.mem_singleton_self 0)
  have hcadena : cadenaDe (bytesDeCadena s.1) = s.1 := by
    simpa using cadenaDe_bytesDeCadena s.2 []
  have htake : (bytesDeCadena s.1 ++ resto).take n = bytesDeCadena s.1 := by
    rw [hn, List.take_left]
  have hdrop : (bytesDeCadena s.1 ++ resto).drop n = resto := by
    rw [hn, List.drop_left]
  unfold leerCadena
  rw [if_pos ⟨by rw [hn, List.length_append]; omega, by rw [htake]; exact hcero⟩]
  simp only [htake, hdrop, hcadena]

theorem leerRegistros_bytesDeRegistros (r : RegistrosCPU) :
    leerRegistros (bytesDeRegistros r ++ resto) = some (r, resto) := by
  unfold leerRegistros bytesDeRegistros
  simp only [List.append_assoc, leer_bytesDe, Option.bind_eq_bind, Option.bind_some]

@[simp] theorem length_bytesDeSizeT (valor : BitVec 64) : (bytesDeSizeT valor).length = 8 := rfl

@[simp] theorem length_bytesDeRegistros (r : RegistrosCPU) : (bytesDeRegistros r).length = 32 := rfl

end Leer

/-! ## Round trips -/

/-- The encoder fills a block of the size that it declares, with bytes that do not depend on what
`malloc` and `realloc` find there, and the decoder reads `valor` back within that size. -/
def IdaYVuelta {α : Type} (serializar : (Nat → Byte) → Option TBuffer)
    (deserializar : TBuffer → Option α) (valor : α) : Prop :=
  ∃ bytes : List Byte, ∀ basura, ∃ b, serializar basura = some b ∧ b.stream = bytes ∧
    b.size.toNat = bytes.length ∧ deserializar b = some valor

section Pares

variable {α : Type} {ps : List (List Byte × Nat)} {size : CInt} {offset : Uint32}
  {deserializar : TBuffer → Option α} {valor : α}

/-- The size of the buffer is the one that the encoder computed. -/
theorem llenarBuffer_size {basura : Nat → Byte} {buffer : TBuffer}
    (h : llenarBuffer basura size offset ps = some buffer) : buffer.size = size := by
  unfold llenarBuffer at h
  split at h
  · cases h
    rfl
  · cases h

theorem idaYVuelta_llenar (hlt : size.toNat < 2 ^ 31) (hps : Block.Fills size.toNat ps)
    (hdes : deserializar ⟨size, offset, Block.written ps⟩ = some valor) :
    IdaYVuelta (fun basura => llenarBuffer basura size offset ps) deserializar valor := by
  refine ⟨Block.written ps, fun basura => ⟨_, ?_, rfl, (Block.written_length hps).symm, hdes⟩⟩
  have hfills : Block.Fills (Block.grow [] (size.signExtend 64).toNat basura).length ps := by
    rw [Block.grow_length, toNat_size_t hlt]
    exact hps
  simp only [llenarBuffer, Block.writeAll_eq hfills]

theorem rellenarBuffer_eq {n : Nat} (buffer : TBuffer) (basura : Nat → Byte)
    (hps : Block.Fills n ps) : rellenarBuffer buffer basura n ps =
      some { buffer with size := BitVec.ofNat 32 n, stream := Block.written ps } := by
  have hfills : Block.Fills (Block.grow buffer.stream n basura).length ps := by
    rw [Block.grow_length]
    exact hps
  simp only [rellenarBuffer, Block.writeAll_eq hfills]

theorem idaYVuelta_rellenar {buffer : TBuffer} {n : Nat} (hlt : n < 2 ^ 31)
    (hps : Block.Fills n ps)
    (hdes : deserializar ⟨BitVec.ofNat 32 n, buffer.offset, Block.written ps⟩ = some valor) :
    IdaYVuelta (fun basura => rellenarBuffer buffer basura n ps) deserializar valor := by
  refine ⟨Block.written ps, fun basura =>
    ⟨_, rellenarBuffer_eq buffer basura hps, rfl, ?_, hdes⟩⟩
  rw [Block.written_length hps, BitVec.toNat_ofNat]
  exact Nat.mod_eq_of_lt (by omega)

theorem enviarContextoCpu_idaYVuelta (c : TContextoPuntero) :
    IdaYVuelta (serializarEnviarContextoCpu c) deserializarEnviarContextoCpu c.contexto := by
  have hregistros : ∀ registros : Option RegistrosCPU, (match registros with
      | some registros => bytesDeRegistros registros
      | none => List.replicate 32 0) = bytesDeRegistros (registros.getD .cero) := by
    rintro (_ | r)
    · rfl
    · rfl
  unfold serializarEnviarContextoCpu
  rw [hregistros]
  refine idaYVuelta_llenar (by decide) (by simp [Block.Fills]) ?_
  have hwritten : Block.written [(bytesDe c.TID, 4), (bytesDe c.PC, 4), (bytesDe c.base, 4),
      (bytesDe c.limite, 4), (bytesDe c.pid, 4),
      (bytesDeRegistros (c.RegistrosCPU.getD .cero), 32)] =
      bytesDe c.TID ++ (bytesDe c.PC ++ (bytesDe c.base ++ (bytesDe c.limite ++ (bytesDe c.pid ++
        (bytesDeRegistros (c.RegistrosCPU.getD .cero) ++ []))))) := rfl
  unfold deserializarEnviarContextoCpu
  simp only [hwritten, leer_bytesDe, leerRegistros_bytesDeRegistros, Option.bind_eq_bind,
    Option.bind_some]
  rfl

theorem toNat_longitud {n : Nat} (h : n < 2 ^ 31) : (BitVec.ofNat 64 n).toNat = n := by
  rw [BitVec.toNat_ofNat]
  exact Nat.mod_eq_of_lt (by omega)

theorem bytesDeCadena_take (s : CString) {n : Nat} (h : n = s.1.length + 1) :
    (bytesDeCadena s.1).take n = bytesDeCadena s.1 :=
  List.take_of_length_le (by rw [length_bytesDeCadena, h])

theorem hiloReady_idaYVuelta (vecino : Uint32) (hilo : HiloReady)
    (h : hilo.path.1.length + 21 < 2 ^ 31) :
    IdaYVuelta (serializarHiloReady vecino hilo) deserializarCrearHilo hilo := by
  have hlong := toNat_longitud (n := hilo.path.1.length + 1) (by omega)
  have hsize : ((2 * 4 + 1 * 4 + BitVec.ofNat 64 (hilo.path.1.length + 1) + 8).setWidth 32 :
      CInt).toNat = hilo.path.1.length + 21 := by
    have h12 : (2 * 4 + 1 * 4 : BitVec 64).toNat = 12 := rfl
    have h8 : (8 : BitVec 64).toNat = 8 := rfl
    rw [BitVec.toNat_setWidth, BitVec.toNat_add, BitVec.toNat_add, hlong, h12, h8]
    omega
  unfold serializarHiloReady
  simp only [hlong, bytesDeCadena_take hilo.path rfl]
  refine idaYVuelta_llenar (by rw [hsize]; exact h) ?_ ?_
  · simp only [hsize, Block.Fills, length_bytesDe, length_bytesDeSizeT, length_bytesDeCadena,
      List.length_append]
    omega
  · -- `path_length` covers the 4 bytes that the `memcpy` of `prioridad` wrote too far.
    have hwritten : Block.written [(bytesDe hilo.PID, 4), (bytesDe hilo.TID, 4),
        (bytesDe hilo.prioridad ++ bytesDe vecino, 4),
        (bytesDeSizeT (BitVec.ofNat 64 (hilo.path.1.length + 1)), 8),
        (bytesDeCadena hilo.path.1, hilo.path.1.length + 1)] =
        bytesDe hilo.PID ++ (bytesDe hilo.TID ++ (bytesDe hilo.prioridad ++
          (bytesDeSizeT (BitVec.ofNat 64 (hilo.path.1.length + 1)) ++
            (bytesDeCadena hilo.path.1 ++ [])))) := by
      show bytesDe hilo.PID ++ (bytesDe hilo.TID ++ (bytesDe hilo.prioridad ++
        (bytesDeSizeT _ ++ ((bytesDeCadena hilo.path.1).take _ ++ [])))) = _
      rw [bytesDeCadena_take hilo.path rfl]
    unfold deserializarCrearHilo
    simp only [hwritten, leer_bytesDe, leerSizeT_bytesDeSizeT, hlong,
      leerCadena_bytesDeCadena hilo.path rfl, Option.bind_eq_bind, Option.bind_some]

theorem threadCreate_idaYVuelta (offset : Uint32) (d : ThreadCreate)
    (h : d.nombreArchT.1.length + 21 < 2 ^ 31) :
    IdaYVuelta (serializarThreadCreate offset d) deserializarThreadCreate d := by
  have hlong := toNat_longitud (n := d.nombreArchT.1.length + 1) (by omega)
  have hsize : ((4 * 3 + 8 + BitVec.ofNat 64 (d.nombreArchT.1.length + 1)).setWidth 32 :
      CInt).toNat = d.nombreArchT.1.length + 21 := by
    have h20 : (4 * 3 + 8 : BitVec 64).toNat = 20 := rfl
    rw [BitVec.toNat_setWidth, BitVec.toNat_add, hlong, h20]
    omega
  unfold serializarThreadCreate
  simp only [hlong, bytesDeCadena_take d.nombreArchT rfl]
  refine idaYVuelta_llenar (by rw [hsize]; exact h) ?_ ?_
  · simp only [hsize, Block.Fills, length_bytesDe, length_bytesDeSizeT, length_bytesDeCadena]
    omega
  · have hwritten : Block.written [(bytesDe d.PID, 4), (bytesDe d.TID, 4),
        (bytesDeSizeT (BitVec.ofNat 64 (d.nombreArchT.1.length + 1)), 8),
        (bytesDeCadena d.nombreArchT.1, d.nombreArchT.1.length + 1), (bytesDe d.prioridadH, 4)] =
        bytesDe d.PID ++ (bytesDe d.TID ++
          (bytesDeSizeT (BitVec.ofNat 64 (d.nombreArchT.1.length + 1)) ++
            (bytesDeCadena d.nombreArchT.1 ++ (bytesDe d.prioridadH ++ [])))) := by
      show bytesDe d.PID ++ (bytesDe d.TID ++ (bytesDeSizeT _ ++
        ((bytesDeCadena d.nombreArchT.1).take _ ++ (bytesDe d.prioridadH ++ [])))) = _
      rw [bytesDeCadena_take d.nombreArchT rfl]
    unfold deserializarThreadCreate
    simp only [hwritten, leer_bytesDe, leerSizeT_bytesDeSizeT, hlong,
      leerCadena_bytesDeCadena d.nombreArchT rfl, Option.bind_eq_bind, Option.bind_some]

theorem obtenerInstruccion_idaYVuelta (offset : Uint32) (d : TObtenerInstruccion) :
    IdaYVuelta (serializarObtenerInstruccion offset d) deserializarObtenerInstruccion d := by
  refine idaYVuelta_llenar (by decide) (by simp [Block.Fills]) ?_
  have hwritten : Block.written [(bytesDe d.PC, 4), (bytesDe d.TID, 4), (bytesDe d.PID, 4)] =
      bytesDe d.PC ++ (bytesDe d.TID ++ (bytesDe d.PID ++ [])) := rfl
  unfold deserializarObtenerInstruccion
  simp only [hwritten, leer_bytesDe, Option.bind_eq_bind, Option.bind_some]

theorem toNat_longitud_uint32 {n : Nat} (h : n + 4 < 2 ^ 31) :
    (BitVec.ofNat 32 n).toNat = n ∧
      ((4 + (BitVec.ofNat 32 n).setWidth 64 : BitVec 64).setWidth 32 : CInt).toNat = n + 4 := by
  have hlong : (BitVec.ofNat 32 n).toNat = n := by
    rw [BitVec.toNat_ofNat]
    exact Nat.mod_eq_of_lt (by omega)
  refine ⟨hlong, ?_⟩
  have h4 : (4 : BitVec 64).toNat = 4 := rfl
  rw [BitVec.toNat_setWidth, BitVec.toNat_add, BitVec.toNat_setWidth, hlong, h4]
  omega

theorem enviarInstruccion_idaYVuelta (buffer : TBuffer) (instruccion : CString)
    (h : instruccion.1.length + 5 < 2 ^ 31) :
    IdaYVuelta (serializarEnviarInstruccion buffer instruccion) deserializarEnviarInstruccion
      instruccion := by
  obtain ⟨hlong, hsize⟩ := toNat_longitud_uint32 (n := instruccion.1.length + 1) (by omega)
  unfold serializarEnviarInstruccion
  simp only [hlong, bytesDeCadena_take instruccion rfl]
  refine idaYVuelta_llenar (by rw [hsize]; exact h) ?_ ?_
  · simp only [hsize, Block.Fills, length_bytesDe, length_bytesDeCadena]
    omega
  · have hwritten : Block.written [(bytesDe (BitVec.ofNat 32 (instruccion.1.length + 1)), 4),
        (bytesDeCadena instruccion.1, instruccion.1.length + 1)] =
        bytesDe (BitVec.ofNat 32 (instruccion.1.length + 1)) ++
          (bytesDeCadena instruccion.1 ++ []) := by
      show bytesDe _ ++ ((bytesDeCadena instruccion.1).take _ ++ []) = _
      rw [bytesDeCadena_take instruccion rfl]
    unfold deserializarEnviarInstruccion
    simp only [hwritten, leer_bytesDe, hlong, leerCadena_bytesDeCadena instruccion rfl,
      Option.bind_eq_bind, Option.bind_some]

theorem procesoMemoria_idaYVuelta (buffer : TBuffer) (d : TAsignoMemoria) :
    IdaYVuelta (serializarProcesoMemoria buffer d) deserializarProcesoMemoria d := by
  refine idaYVuelta_rellenar (by decide) (by simp [Block.Fills]) ?_
  have hwritten : Block.written [(bytesDe d.pid, 4), (bytesDe d.bitConfirmacion, 4)] =
      bytesDe d.pid ++ (bytesDe d.bitConfirmacion ++ []) := rfl
  unfold deserializarProcesoMemoria
  simp only [hwritten, leer_bytesDe, Option.bind_eq_bind, Option.bind_some]

theorem hiloMemoria_idaYVuelta (buffer : TBuffer) (d : TCreacionHilo) :
    IdaYVuelta (serializarHiloMemoria buffer d) deserializarCreacionHiloMemoria d := by
  refine idaYVuelta_rellenar (by decide) (by simp [Block.Fills]) ?_
  have hwritten : Block.written [(bytesDe d.pid, 4), (bytesDe d.tid, 4),
      (bytesDe d.bitConfirmacion, 4)] =
      bytesDe d.pid ++ (bytesDe d.tid ++ (bytesDe d.bitConfirmacion ++ [])) := rfl
  have hsize : ¬ (BitVec.ofNat 32 (4 * 3)).slt 12 := by decide
  unfold deserializarCreacionHiloMemoria
  rw [if_neg hsize]
  simp only [hwritten, leer_bytesDe, Option.bind_eq_bind, Option.bind_some]

end Pares

/-- The seven layouts. The strings are those for which the size fits in an `int`. -/
theorem mensajes_ida_y_vuelta :
    (∀ c, IdaYVuelta (serializarEnviarContextoCpu c) deserializarEnviarContextoCpu c.contexto) ∧
    (∀ vecino (hilo : HiloReady), hilo.path.1.length + 21 < 2 ^ 31 →
      IdaYVuelta (serializarHiloReady vecino hilo) deserializarCrearHilo hilo) ∧
    (∀ offset (d : ThreadCreate), d.nombreArchT.1.length + 21 < 2 ^ 31 →
      IdaYVuelta (serializarThreadCreate offset d) deserializarThreadCreate d) ∧
    (∀ offset d,
      IdaYVuelta (serializarObtenerInstruccion offset d) deserializarObtenerInstruccion d) ∧
    (∀ buffer (instruccion : CString), instruccion.1.length + 5 < 2 ^ 31 →
      IdaYVuelta (serializarEnviarInstruccion buffer instruccion) deserializarEnviarInstruccion
        instruccion) ∧
    (∀ buffer d, IdaYVuelta (serializarProcesoMemoria buffer d) deserializarProcesoMemoria d) ∧
    (∀ buffer d, IdaYVuelta (serializarHiloMemoria buffer d) deserializarCreacionHiloMemoria d) :=
  ⟨enviarContextoCpu_idaYVuelta, hiloReady_idaYVuelta, threadCreate_idaYVuelta,
    obtenerInstruccion_idaYVuelta, enviarInstruccion_idaYVuelta, procesoMemoria_idaYVuelta,
    hiloMemoria_idaYVuelta⟩

end LastOfC
