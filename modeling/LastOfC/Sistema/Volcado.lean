import LastOfC.Memoria.Servidor
import LastOfC.Utils.Espera

/-!
# A dump on its way to the file system (`escuchar_kernel.c` of memoria, `escuchar_memoria.c` of
filesystem)

* `Volcado`: what `envio_datos_a_FS` has of the partition, and the name. `envioDatosAFS` is what it
  writes to `fd_FS`: the call of `serializar_enviar_DUMP_MEMORY` is a comment, so the packet has
  no fields.
* `escucharMemoria`: one iteration of the listener of the file system, with `crear_archivo` up to
  the search for free blocks. It reads the operation code, and then `recibir_paquete` reads
  another one.
* `volcado_iff`: the listener gets one intact file for each request exactly when there are none.
-/

namespace LastOfC.Sistema

/-! ## Memoria -/

/-- `DUMP_MEMORY`. -/
def DUMP_MEMORY : CInt := 21

/-- `struct tm`, as far as the name of the file has it. -/
structure Tm where
  tmSec : Int
  tmMin : Int
  tmHour : Int
  tmMday : Int
  tmMon : Int
  tmYear : Int

/-- `%0nd`, and `%d` for 0. -/
def formatoD (n : Nat) (x : Int) : Cadena :=
  let digitos := Nat.toDigits 10 x.natAbs
  let signo := if x < 0 then ['-'] else []
  signo ++ List.replicate (n - signo.length - digitos.length) '0' ++ digitos

/-- `snprintf(nombre, sizeof(nombre), …)`. The pid and the tid are printed as `int`s. -/
def nombreVolcado (d : TDatosEsenciales) (tm : Tm) : Cadena :=
  (formatoD 0 d.pidInv.toInt ++ '-' :: formatoD 0 d.tidInv.toInt ++ '-' ::
    formatoD 4 (tm.tmYear + 1900) ++ '-' :: formatoD 2 (tm.tmMon + 1) ++ '-' ::
    formatoD 2 tm.tmMday ++ '_' :: formatoD 2 tm.tmHour ++ '-' :: formatoD 2 tm.tmMin ++ '-' ::
    formatoD 2 tm.tmSec ++ ".dmp".toList).take 255

/-- The locals of `envio_datos_a_FS`. -/
structure Volcado where
  datos : List Byte
  tamanio : Uint32
  nombre : Cadena

/-- `envio_datos_a_FS`, up to the packet. -/
def prepararVolcado (s : Memoria.Estado) (d : TDatosEsenciales) (tm : Tm) :
    Except Memoria.Falla Volcado :=
  match Memoria.buscarParticionPorPid s.listaParticiones d.pidInv with
  -- `particion->base` is read without a check.
  | none => .error .punteroNulo
  | some p =>
    .ok { datos := (List.range p.tamanio.toNat).map fun k => s.memoria (p.base.toNat + k)
          tamanio := p.tamanio
          nombre := nombreVolcado d tm }

/-- What `envio_datos_a_FS` writes to `fd_FS`. `crear_paquete` and `enviar_paquete` find `offset`
and `basura` in their blocks. -/
def envioDatosAFS (s : Memoria.Estado) (d : TDatosEsenciales) (tm : Tm) (offset : Uint32)
    (basura : Nat → Byte) : Except Memoria.Falla (Option (List Byte)) := do
  let _ ← prepararVolcado s d tm
  pure (enviarPaquete basura { codigoOperacion := DUMP_MEMORY, buffer := crearBuffer offset })

/-! ## The file system -/

/-- `leer_buffer_string`, as the block that it returns: the bytes, and a terminator. -/
def leerBloque (buffer : TBuffer) : Option (List Byte × TBuffer) :=
  match buffer.leerBufferUint32 with
  | some (tamanio, buffer) =>
    match Block.read buffer.stream buffer.offset.toNat tamanio.toNat with
    | some bytes => some (bytes ++ [0], { buffer with offset := buffer.offset + tamanio })
    | none => none
  | none => none

/-- `t_crear_archivo_memoria`, with the block of `contenido`. -/
structure Archivo where
  contenido : List Byte
  nombreArchivo : Cadena
  tamanio : Uint32
  deriving DecidableEq, Repr

/-- `deserializar_crear_archivo_memoria`. -/
def deserializarCrearArchivoMemoria (buffer : TBuffer) : Option Archivo :=
  match leerBloque buffer with
  | none => none
  | some (contenido, buffer) =>
    match buffer.leerBufferString with
    | none => none
    | some (nombreArchivo, buffer) =>
      match buffer.leerBufferUint32 with
      | none => none
      | some (tamanio, _) => some { contenido, nombreArchivo := nombreArchivo.1, tamanio }

/-- `crear_archivo`, up to the search for free blocks. There is no file if it waits, if memoria has
gone, or if a read is outside the payload. -/
def crearArchivo (basura : Basura) (socket : List Byte) : Option (Archivo × List Byte) :=
  match esperarPaquete basura socket with
  | some (some archivoMemoria, socket) =>
    (deserializarCrearArchivoMemoria archivoMemoria.buffer).map fun a => (a, socket)
  | _ => none

/-- One iteration of `escuchar_memoria` of the file system: the file, if there is one, and the rest
of the stream. -/
def escucharMemoria (basura : Basura) (socket : List Byte) : Option (Option Archivo × List Byte) :=
  match leerBufferUint32 socket with
  | none => none
  | some (opCodeMemoria, socket) =>
    if opCodeMemoria = DUMP_MEMORY then
      (crearArchivo basura socket).map fun r => (some r.1, r.2)
    else if opCodeMemoria = -1 then none
    else some (none, socket)

/-- `n` iterations, of which iteration `i` finds `basura i` in memory. -/
def escucharVeces (basura : Nat → Basura) : Nat → List Byte → Option (List Archivo × List Byte)
  | 0, socket => some ([], socket)
  | n + 1, socket =>
    match escucharMemoria (basura n) socket with
    | none => none
    | some (archivo, socket) =>
      (escucharVeces basura n socket).map fun r => (archivo.toList ++ r.1, r.2)

/-! ## Requests -/

/-- A `DUMP_MEMORY` for a live process, with what memoria finds. -/
structure PedidoDump where
  estado : Memoria.Estado
  datos : TDatosEsenciales
  tm : Tm
  offset : Uint32
  basura : Nat → Byte
  particion : Memoria.Particion
  viva : Memoria.buscarParticionPorPid estado.listaParticiones datos.pidInv = some particion

/-- What a request writes to `fd_FS`. -/
def PedidoDump.bytes (p : PedidoDump) : List Byte :=
  match envioDatosAFS p.estado p.datos p.tm p.offset p.basura with
  | .ok (some bytes) => bytes
  | _ => []

/-- The stream of a sequence of requests. -/
def flujoDump (ps : List PedidoDump) : List Byte := ps.flatMap PedidoDump.bytes

/-- The file is the partition of the process, with the name and the size that memoria has. -/
def Intacto (a : Archivo) (p : PedidoDump) : Prop :=
  a.contenido.take p.particion.tamanio.toNat =
      (List.range p.particion.tamanio.toNat).map (fun k =>
        p.estado.memoria (p.particion.base.toNat + k)) ∧
    a.nombreArchivo = nombreVolcado p.datos p.tm ∧ a.tamanio = p.particion.tamanio

/-- The listener reads one intact file for each request, and stands at the next message. -/
def LlegaIntacto (basura : Nat → Basura) (ps : List PedidoDump) : Prop :=
  ∃ n archivos, escucharVeces basura n (flujoDump ps) = some (archivos, []) ∧
    List.Forall₂ Intacto archivos ps

section Volcados

variable {basura : Nat → Basura} {b : Basura} {socket resto : List Byte} {ps : List PedidoDump}

/-- Each request writes a header, and no more. -/
theorem length_bytes (p : PedidoDump) : p.bytes.length = 8 := by
  have hpaquete := enviarPaquete_mensaje ⟨DUMP_MEMORY, [], by decide, by decide⟩ p.basura p.offset
  have hbytes : envioDatosAFS p.estado p.datos p.tm p.offset p.basura =
      .ok (some (serializarPaquete DUMP_MEMORY [])) := by
    unfold envioDatosAFS prepararVolcado
    rw [p.viva]
    exact congrArg Except.ok hpaquete
  unfold PedidoDump.bytes
  rw [hbytes]
  rfl

theorem length_flujoDump (ps : List PedidoDump) : (flujoDump ps).length = 8 * ps.length := by
  induction ps with
  | nil => rfl
  | cons p ps ih =>
    rw [flujoDump] at ih ⊢
    rw [List.flatMap_cons, List.length_append, length_bytes, ih, List.length_cons]
    omega

/-- A file takes an operation code and the header of a packet. -/
theorem length_escucharMemoria {a : Option Archivo}
    (h : escucharMemoria b socket = some (a, resto)) :
    12 * a.toList.length + resto.length ≤ socket.length := by
  unfold escucharMemoria at h
  cases hop : leerBufferUint32 socket with
  | none =>
    rw [hop] at h
    cases h
  | some r =>
    obtain ⟨op, socket₁⟩ := r
    obtain ⟨-, -, hlen⟩ := leerBufferUint32_eq 0 hop
    simp only [hop] at h
    by_cases hdump : op = DUMP_MEMORY
    · rw [if_pos hdump] at h
      obtain ⟨⟨a', resto'⟩, hcrear, heq⟩ := Option.map_eq_some_iff.mp h
      obtain ⟨rfl, rfl⟩ := Prod.mk.inj heq
      unfold crearArchivo at hcrear
      split at hcrear
      · rename_i paquete socket₂ hesp
        obtain ⟨a'', -, heq'⟩ := Option.map_eq_some_iff.mp hcrear
        obtain ⟨rfl, rfl⟩ := Prod.mk.inj heq'
        have hlen' := length_esperarPaquete hesp
        simp only [Option.isSome_some, if_true] at hlen'
        simp only [Option.toList_some, List.length_singleton]
        omega
      · cases hcrear
    · rw [if_neg hdump] at h
      split at h
      · cases h
      · cases h
        simp only [Option.toList_none, List.length_nil]
        omega

/-- The files that were read, and the bytes that they took. -/
theorem length_escucharVeces {n : Nat} {archivos : List Archivo}
    (h : escucharVeces basura n socket = some (archivos, resto)) :
    12 * archivos.length + resto.length ≤ socket.length := by
  induction n generalizing socket archivos with
  | zero =>
    cases h
    simp
  | succ n ih =>
    unfold escucharVeces at h
    cases hm : escucharMemoria (basura n) socket with
    | none =>
      rw [hm] at h
      cases h
    | some r =>
      obtain ⟨a, socket₁⟩ := r
      simp only [hm] at h
      obtain ⟨⟨as, resto'⟩, hv, heq⟩ := Option.map_eq_some_iff.mp h
      obtain ⟨rfl, rfl⟩ := Prod.mk.inj heq
      have hpaso := length_escucharMemoria hm
      have hresto : 12 * as.length + resto'.length ≤ socket₁.length := ih hv
      simp only [List.length_append]
      omega

/-- **No dump arrives.** A request writes 8 bytes and a file takes 12, so the files are fewer than
the requests, unless there are none. -/
theorem volcado_iff (basura : Nat → Basura) (ps : List PedidoDump) :
    LlegaIntacto basura ps ↔ ps = [] := by
  constructor
  · rintro ⟨n, archivos, h, hint⟩
    have hbytes := length_escucharVeces h
    rw [length_flujoDump, hint.length_eq] at hbytes
    exact List.eq_nil_of_length_eq_zero (by omega)
  · rintro rfl
    exact ⟨0, [], rfl, .nil⟩

/-- A process with the first byte of the memory, which is 7. -/
def pedidoUno : PedidoDump where
  estado := { Memoria.estadoSinHilos [⟨0, 0, 1, false, 1⟩] with memoria := fun _ => 7 }
  datos := ⟨1, 0⟩
  tm := ⟨0, 0, 0, 1, 0, 124⟩
  offset := 0
  basura := fun _ => 0
  particion := ⟨0, 0, 1, false, 1⟩
  viva := rfl

/-- One request: the listener waits for the size of the packet. -/
theorem volcado_uno : ¬ ∀ basura ps, LlegaIntacto basura ps := by
  intro h
  obtain ⟨n, archivos, hn, hint⟩ := h (fun _ => ⟨0, 0, 0, fun _ => 0⟩) [pedidoUno]
  have hbytes := length_escucharVeces hn
  rw [length_flujoDump, hint.length_eq] at hbytes
  simp only [List.length_singleton, List.length_nil] at hbytes
  omega

end Volcados

end LastOfC.Sistema
