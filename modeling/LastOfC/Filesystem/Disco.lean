import LastOfC.Lib.PosFile
import LastOfC.Utils.Tipos

/-!
# Files on disk (`escuchar_memoria.c` and `filesystem.c` of filesystem)

* `Disco`: `bitmap.dat` and `bloques.dat`, as bytes. `discoInicial`: as `inicializar_bitmap` and
  `inicializar_bloques` leave them.
* `cantidadBloquesLibres`, `espacioDisponible` and `reservarBloques`: the bitmap, bit by bit.
* `escribirContenidoBloques`: the writes to `bloques.dat`.
* `crearArchivo`: `crear_archivo` after the packet is decoded. `paso` is the step of a run.

`fread` and `fwrite` are positional, and `fopen` finds the two files. When it returns a block,
`reservar_bloques` counts the free blocks once more for the log, after its `fclose`: it reads a
closed `FILE`, which with the defaults of glibc ends the process. The count goes nowhere but to the
log and is left out here, as if that read returned. `pasoProceso` in `Registro` has both outcomes.
-/

namespace LastOfC.Filesystem

/-- What `t_config_filesystem` has of the blocks. -/
structure ConfigFilesystem where
  blockSize : CInt
  blockCount : CInt

structure Disco where
  bitmap : List Byte
  bloques : List Byte
  deriving DecidableEq, Repr

/-! ## The bitmap -/

/-- `!(byte & (1 << i))`. -/
def bitLibre (byte : Byte) (i : Nat) : Bool := byte &&& (1 : Byte) <<< i = 0

/-- `byte |= (1 << i)`. -/
def ocuparBit (byte : Byte) (i : Nat) : Byte := byte ||| (1 : Byte) <<< i

/-- The inner loop of `cantidad_bloques_libres`. -/
def contarLibres (bloquesLibres : Uint32) (byte : Byte) : Uint32 :=
  (List.range 8).foldl (fun n i => if bitLibre byte i then n + 1 else n) bloquesLibres

/-- `cantidad_bloques_libres`. -/
def cantidadBloquesLibres (bitmap : List Byte) : Uint32 := bitmap.foldl contarLibres 0

/-- `espacio_disponible`. -/
def espacioDisponible (bitmap : List Byte) (bloquesNecesarios : Uint32) : Bool :=
  bloquesNecesarios ≤ cantidadBloquesLibres bitmap

/-- The locals of `reservar_bloques`, and the file. -/
structure Reserva where
  bitmap : List Byte
  bloquesAsignados : Uint32
  primerBloque : Uint32

/-- The block `i` of the byte at `offset` is assigned, and `byte` is written there. -/
def Reserva.asignar (r : Reserva) (offset i : Nat) (byte : Byte) : Reserva where
  bitmap := r.bitmap.set offset byte
  bloquesAsignados := r.bloquesAsignados + 1
  primerBloque :=
    if r.primerBloque = -1 then BitVec.ofNat 32 (offset * 8 + i) else r.primerBloque

/-- How the loop over the bits of a byte ends. -/
inductive Salto where
  | vuelve (primerBloque : Uint32) (bitmap : List Byte)
  | sigue (r : Reserva)

/-- The loop of `reservar_bloques` over the `k` bits of `byte` from `i` on. -/
def reservarBits (bloquesNecesarios : Uint32) (offset : Nat) : Nat → Nat → Byte → Reserva → Salto
  | 0, _, _, r => .sigue r
  | k + 1, i, byte, r =>
    if bitLibre byte i then
      let byte := ocuparBit byte i
      let r := r.asignar offset i byte
      if r.bloquesAsignados = bloquesNecesarios then .vuelve r.primerBloque r.bitmap
      else reservarBits bloquesNecesarios offset k (i + 1) byte r
    else reservarBits bloquesNecesarios offset k (i + 1) byte r

/-- The loop of `reservar_bloques` over the bytes from `offset` on. The file keeps its size, so
there are `quedan` of them. -/
def reservarDesde (bloquesNecesarios : Uint32) : Nat → Nat → Reserva → Uint32 × List Byte
  | 0, _, r => (-1, r.bitmap)
  | quedan + 1, offset, r =>
    match r.bitmap[offset]? with
    | none => (-1, r.bitmap)
    | some byte =>
      match reservarBits bloquesNecesarios offset 8 0 byte r with
      | .vuelve primerBloque bitmap => (primerBloque, bitmap)
      | .sigue r => reservarDesde bloquesNecesarios quedan (offset + 1) r

/-- `reservar_bloques`: the first block, or `-1`, and the bitmap after it. -/
def reservarBloques (bitmap : List Byte) (bloquesNecesarios : Uint32) : Uint32 × List Byte :=
  reservarDesde bloquesNecesarios bitmap.length 0
    { bitmap, bloquesAsignados := 0, primerBloque := -1 }

/-! ## The blocks -/

/-- `t_crear_archivo_memoria`: `contenido` points to `tamanio` bytes or more. -/
structure Archivo where
  nombreArchivo : Cadena
  contenido : List Byte
  tamanio : Uint32
  cabe : tamanio.toNat ≤ contenido.length

/-- The bytes of the file. -/
def Archivo.bytes (a : Archivo) : List Byte := a.contenido.take a.tamanio.toNat

/-- The writes of the loop of `escribir_contenido_bloques`, when it has `k` blocks left: the
position, and the bytes. -/
def escriturasDesde (cfg : ConfigFilesystem) (contenido : List Byte) (tamanio : Uint32) :
    Nat → Uint32 → Uint32 → List (Nat × List Byte)
  | 0, _, _ => []
  | k + 1, offset, bytesEscritos =>
    let bytesAEscribir :=
      if cfg.blockSize < tamanio - bytesEscritos then cfg.blockSize else tamanio - bytesEscritos
    (offset.toNat, (contenido.drop bytesEscritos.toNat).take bytesAEscribir.toNat) ::
      escriturasDesde cfg contenido tamanio k (offset + cfg.blockSize)
        (bytesEscritos + bytesAEscribir)

/-- The writes of `escribir_contenido_bloques`. -/
def escribirContenidoBloques (cfg : ConfigFilesystem) (primerBloque : Uint32)
    (contenido : List Byte) (bloquesNecesarios tamanio : Uint32) : List (Nat × List Byte) :=
  escriturasDesde cfg contenido tamanio bloquesNecesarios.toNat (primerBloque * cfg.blockSize) 0

/-! ## A new file -/

/-- `(tamanio + block_size - 1) / block_size`, in `uint32_t`. -/
def bloquesNecesarios (cfg : ConfigFilesystem) (tamanio : Uint32) : Uint32 :=
  (tamanio + cfg.blockSize - 1) / cfg.blockSize

/-- A file that was created: its first block, and what was written to `bloques.dat`. -/
structure Creado where
  primerBloque : Uint32
  archivo : Archivo
  escrituras : List (Nat × List Byte)

/-- `crear_archivo`, with the files that it created. -/
def crearArchivo (cfg : ConfigFilesystem) (d : Disco) (a : Archivo) : Disco × List Creado :=
  let n := bloquesNecesarios cfg a.tamanio
  if espacioDisponible d.bitmap n then
    let (bloqueInicial, bitmap) := reservarBloques d.bitmap n
    let escrituras := escribirContenidoBloques cfg bloqueInicial a.contenido n a.tamanio
    ({ bitmap, bloques := PosFile.putAll 0 d.bloques escrituras },
      [{ primerBloque := bloqueInicial, archivo := a, escrituras }])
  else (d, [])

/-- A step of the file system. It does not fail. -/
def paso (cfg : ConfigFilesystem) (d : Disco) (a : Archivo) :
    Except Empty (Disco × List Creado) :=
  .ok (crearArchivo cfg d a)

/-! ## The initial files -/

/-- `inicializar_bitmap`: `bitmap_size` zeros. -/
def inicializarBitmap (cfg : ConfigFilesystem) : List Byte :=
  let bitmapSize : CInt := (cfg.blockCount + 7).sdiv 8
  List.replicate bitmapSize.toInt.toNat 0

/-- `inicializar_bloques`: a zero at the last position. -/
def inicializarBloques (cfg : ConfigFilesystem) : List Byte :=
  PosFile.put 0 [] (cfg.blockCount * cfg.blockSize - 1).toInt.toNat [0]

/-- The disk after the two. -/
def discoInicial (cfg : ConfigFilesystem) : Disco where
  bitmap := inicializarBitmap cfg
  bloques := inicializarBloques cfg

end LastOfC.Filesystem
