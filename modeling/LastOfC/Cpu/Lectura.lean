import LastOfC.Cpu.Mmu
import LastOfC.Lib.Trace
import LastOfC.Utils.Serializar

/-!
# The two readers of `fd_memoria` (`c_conexiones.c` and `cpu_escucha_memoria.c` of cpu)

The reply to `READ_MEM` is a packet of 12 bytes: the operation code, the size and the word. Two
threads read `fd_memoria`: `leer_desde_memoria` calls `recv` for 4 raw bytes, and
`cpu_escucha_memoria` calls `recibir_paquete` all the time.

* `readMem`: the instruction, as far as its request. `leerDesdeMemoria` is its `recv`.
* `Lectura` and `avanzar`: the socket and the listener while the instruction waits in `recv`. A
  `recv` with `MSG_WAITALL` takes what there is and waits for the rest.
* `Posicion`: the same run, as the number of bytes that arrived and that the listener took.
  `reaches_enPosicion`: these numbers do not depend on the word, and they say where each byte of
  the reply is.
-/

namespace LastOfC.Cpu

open Trace

/-! ## The instruction -/

/-- An assignment through a register pointer. -/
def Registro.asignar (registros : RegistrosCPU) (valor : Uint32) : Registro → RegistrosCPU
  | .AX => { registros with AX := valor }
  | .BX => { registros with BX := valor }
  | .CX => { registros with CX := valor }
  | .DX => { registros with DX := valor }
  | .EX => { registros with EX := valor }
  | .FX => { registros with FX := valor }
  | .GX => { registros with GX := valor }
  | .HX => { registros with HX := valor }

theorem Registro.valor_asignar (r r' : Registro) (registros : RegistrosCPU) (valor : Uint32) :
    r'.valor (r.asignar registros valor) = if r' = r then valor else r'.valor registros := by
  cases r <;> cases r' <;> rfl

/-- `read_mem` up to the `recv` of `leer_desde_memoria`: the register for the word and the request
that goes to memoria, or none if a register is not known. -/
def readMem (parteActual : ParticionMemoria) (PidHilo : Uint32) (datos direccion : Cadena)
    (contexto : TContextoEjecucion) : Ejecucion (Option (Registro × TDatosReadMem)) :=
  match obtenerRegistro datos, obtenerRegistro direccion with
  | some regDatos, some regDireccion =>
    match mmu parteActual (regDireccion.valor contexto.RegistrosCPU) contexto with
    | .ok direccionFisica =>
      .ok (some (regDatos,
        { dirFis := direccionFisica, pidHilo := PidHilo, tidHilo := contexto.TID }))
    | .error envios => .error envios
  | _, _ => .ok none

/-! ## The socket and the listener -/

/-- Where `cpu_escucha_memoria` is in `recibir_paquete`. -/
inductive Etapa where
  | operacion
  | tamanio (codigo : CInt)
  | contenido (codigo : CInt)
  /-- The thread has returned. -/
  | terminado
  deriving DecidableEq, Repr

structure Lectura where
  /-- Bytes that memoria sent and that have not arrived. -/
  enCamino : List Byte
  /-- Bytes that wait in `fd_memoria`. -/
  flujo : List Byte
  etapa : Etapa
  /-- What the `recv` of the listener has so far, and how many bytes it still waits for. -/
  leido : List Byte
  falta : Nat
  /-- The packets that went to the `switch`. -/
  paquetes : List (CInt × List Byte)
  deriving DecidableEq, Repr

/-- The listener after its `recv` is complete. -/
def Lectura.completar (s : Lectura) : Lectura :=
  match s.etapa with
  | .operacion =>
    match leerBufferUint32 s.leido with
    | some (codigo, _) =>
      if codigo = -1 then { s with etapa := .terminado, leido := [] }
      else { s with etapa := .tamanio codigo, leido := [], falta := 4 }
    | none => s
  | .tamanio codigo =>
    match leerBufferUint32 s.leido with
    | some (size, _) =>
      if size = 0 then
        { s with etapa := .operacion, leido := [], falta := 4
                 paquetes := s.paquetes ++ [(codigo, [])] }
      -- `*size` is converted to a `size_t`.
      else { s with etapa := .contenido codigo, leido := [], falta := (size.signExtend 64).toNat }
    | none => s
  | .contenido codigo =>
    { s with etapa := .operacion, leido := [], falta := 4
             paquetes := s.paquetes ++ [(codigo, s.leido)] }
  | .terminado => s

inductive Evento where
  /-- The next `n` bytes arrive. -/
  | llega (n : Nat)
  /-- The `recv` of the listener takes what waits in the socket. -/
  | escucha
  deriving DecidableEq, Repr

/-- One event. There is no step of the listener if its `recv` has nothing to take. -/
def avanzar (s : Lectura) : Evento → Except Unit (Lectura × List Unit)
  | .llega n => .ok ({ s with
      enCamino := s.enCamino.drop n
      flujo := s.flujo ++ s.enCamino.take n }, [])
  | .escucha =>
    if s.etapa = .terminado ∨ s.flujo = [] then .error ()
    else
      let k := min s.falta s.flujo.length
      let s' := { s with
        flujo := s.flujo.drop k
        leido := s.leido ++ s.flujo.take k
        falta := s.falta - k }
      .ok (if s'.falta = 0 then s'.completar else s', [])

/-- `recv(fd_memoria, &dato, sizeof(uint32_t), 0)` and what `dato` is then. It takes up to 4 bytes
of those that wait, and waits if there are none. The other bytes of `dato` are those it had, which
are not initialized. -/
def leerDesdeMemoria (s : Lectura) (basura : Uint32) : Option Uint32 :=
  if s.flujo = [] then none
  else
    let recibidos := s.flujo.take 4
    (leerBufferUint32 (recibidos ++ (bytesDe basura).drop recibidos.length)).map Prod.fst

/-- `ENVIAR_READ_MEM`. -/
def ENVIAR_READ_MEM : CInt := 33

/-- The packet that `read_mem` of memoria sends. -/
def paqueteReadMem (valor : CInt) : List Byte :=
  serializarPaquete ENVIAR_READ_MEM (serializarInt valor)

/-- The socket when memoria has sent its reply. Each reply before it is to a request that the
instruction cycle waited for, or was sent before one of those, so the listener took it. -/
def enviada (respuesta : List Byte) : Lectura :=
  { enCamino := respuesta
    flujo := []
    etapa := .operacion
    leido := []
    falta := 4
    paquetes := [] }

/-! ## Positions -/

/-- How many bytes of the reply arrived, and how many of these the listener took. -/
structure Posicion where
  llegados : Nat
  tomados : Nat
  deriving DecidableEq, Repr

/-- One event. A `recv` of the listener ends at the next multiple of 4. -/
def Posicion.avanzar (p : Posicion) : Evento → Option Posicion
  | .llega n => some { p with llegados := min 12 (p.llegados + n) }
  | .escucha =>
    if p.tomados < p.llegados then
      some { p with tomados := min p.llegados (4 * (p.tomados / 4) + 4) }
    else none

/-- The position after the events `es`, or none if one of them is a `recv` of the listener that has
nothing to take. -/
def posicion (es : List Evento) : Option Posicion :=
  es.foldlM Posicion.avanzar ⟨0, 0⟩

def Posicion.Valida (p : Posicion) : Prop := p.tomados ≤ p.llegados ∧ p.llegados ≤ 12

/-- What the listener reads next after `c` bytes. -/
def etapaEn (c : Nat) : Etapa :=
  if c < 4 then .operacion
  else if c < 8 then .tamanio ENVIAR_READ_MEM
  else if c < 12 then .contenido ENVIAR_READ_MEM
  else .operacion

/-- The socket and the listener at a position. -/
def enPosicion (valor : CInt) (p : Posicion) : Lectura :=
  let respuesta := paqueteReadMem valor
  { enCamino := respuesta.drop p.llegados
    flujo := (respuesta.take p.llegados).drop p.tomados
    etapa := etapaEn p.tomados
    leido := (respuesta.take p.tomados).drop (4 * (p.tomados / 4))
    falta := 4 - p.tomados % 4
    paquetes := if p.tomados = 12 then [(ENVIAR_READ_MEM, bytesDe valor)] else [] }

section Posiciones

variable {valor : CInt} {p p' : Posicion} {e : Evento} {es : List Evento} {s : Lectura}

@[simp] theorem length_paqueteReadMem (valor : CInt) : (paqueteReadMem valor).length = 12 := rfl

theorem enviada_eq (valor : CInt) :
    enviada (paqueteReadMem valor) = enPosicion valor ⟨0, 0⟩ := rfl

theorem Posicion.Valida.avanzar (hp : p.Valida) (h : p.avanzar e = some p') : p'.Valida := by
  obtain ⟨h₁, h₂⟩ := hp
  cases e with
  | llega n =>
    simp only [Posicion.avanzar, Option.some.injEq] at h
    subst h
    exact ⟨by simp only; omega, by simp only; omega⟩
  | escucha =>
    simp only [Posicion.avanzar, Option.ite_none_right_eq_some, Option.some.injEq] at h
    obtain ⟨hlt, rfl⟩ := h
    exact ⟨by simp only; omega, h₂⟩

/-- What a `recv` has after it takes `k` bytes more. -/
theorem take_drop_append {α : Type} (l : List α) {m c k a : Nat} (hm : m ≤ c) (hk : c + k ≤ a)
    (ha : a ≤ l.length) :
    (l.take c).drop m ++ ((l.take a).drop c).take k = (l.take (c + k)).drop m := by
  have htake : ((l.take a).drop c).take k = (l.drop c).take k := by
    rw [List.drop_take, List.take_take, Nat.min_eq_left (by omega)]
  rw [htake, List.take_add, List.drop_append_of_le_length]
  rw [List.length_take]
  omega

/-- A `recv` of the listener that is complete after `c` bytes of the reply. -/
theorem completar_enPosicion (valor : CInt) (a : Nat) {c : Nat} (hc : c = 0 ∨ c = 4 ∨ c = 8) :
    Lectura.completar
      { enPosicion valor ⟨a, c + 4⟩ with
        etapa := etapaEn c
        leido := ((paqueteReadMem valor).take (c + 4)).drop c
        falta := 0
        paquetes := [] } = enPosicion valor ⟨a, c + 4⟩ := by
  rcases hc with rfl | rfl | rfl
  · have hop : ((paqueteReadMem valor).take (0 + 4)).drop 0 = bytesDe ENVIAR_READ_MEM ++ [] := rfl
    have hetapa : etapaEn 0 = .operacion := rfl
    have hne : ENVIAR_READ_MEM ≠ -1 := by decide
    simp only [Lectura.completar, hetapa, hop, leer_bytesDe, if_neg hne, enPosicion]
    congr 1
  · have hsize : ((paqueteReadMem valor).take (4 + 4)).drop 4 = bytesDe 4 ++ [] := rfl
    have hetapa : etapaEn 4 = .tamanio ENVIAR_READ_MEM := rfl
    have hne : (4 : CInt) ≠ 0 := by decide
    simp only [Lectura.completar, hetapa, hsize, leer_bytesDe, if_neg hne, enPosicion]
    congr 1
  · simp only [Lectura.completar, enPosicion]
    congr 1

theorem length_flujo (hp : p.Valida) :
    (enPosicion valor p).flujo.length = p.llegados - p.tomados := by
  obtain ⟨-, h₂⟩ := hp
  simp only [enPosicion, List.length_drop, List.length_take, length_paqueteReadMem]
  omega

theorem flujo_eq_nil_iff (hp : p.Valida) :
    (enPosicion valor p).flujo = [] ↔ p.tomados = p.llegados := by
  rw [← List.length_eq_zero_iff, length_flujo hp]
  obtain ⟨h₁, -⟩ := hp
  omega

theorem etapaEn_ne_terminado (c : Nat) : etapaEn c ≠ .terminado := by
  unfold etapaEn
  grind

/-- Between two multiples of 4 the listener reads the same thing. -/
theorem etapaEn_mul_div (c : Nat) : etapaEn (4 * (c / 4)) = etapaEn c := by
  unfold etapaEn
  grind

theorem avanzar_llega (hp : p.Valida) (n : Nat) :
    avanzar (enPosicion valor p) (.llega n) =
      .ok (enPosicion valor { p with llegados := min 12 (p.llegados + n) }, []) := by
  obtain ⟨h₁, h₂⟩ := hp
  have hcamino : ((paqueteReadMem valor).drop p.llegados).drop n =
      (paqueteReadMem valor).drop (min 12 (p.llegados + n)) := by
    rw [List.drop_drop, List.drop_eq_drop_min, length_paqueteReadMem, Nat.min_comm]
  have hflujo : ((paqueteReadMem valor).take p.llegados).drop p.tomados ++
        ((paqueteReadMem valor).drop p.llegados).take n =
      ((paqueteReadMem valor).take (min 12 (p.llegados + n))).drop p.tomados := by
    have hle : p.tomados ≤ ((paqueteReadMem valor).take p.llegados).length := by
      rw [List.length_take, length_paqueteReadMem]
      omega
    rw [← List.drop_append_of_le_length hle, ← List.take_add, List.take_eq_take_min,
      length_paqueteReadMem, Nat.min_comm]
  simp only [avanzar, enPosicion, hcamino, hflujo]

theorem avanzar_escucha (hp : p.Valida) (hlt : p.tomados < p.llegados) :
    avanzar (enPosicion valor p) .escucha =
      .ok (enPosicion valor
        { p with tomados := min p.llegados (4 * (p.tomados / 4) + 4) }, []) := by
  have hlen : (enPosicion valor p).flujo.length = p.llegados - p.tomados := length_flujo hp
  have hetapa : (enPosicion valor p).etapa ≠ .terminado := etapaEn_ne_terminado p.tomados
  have hnil : (enPosicion valor p).flujo ≠ [] := by
    rw [ne_eq, flujo_eq_nil_iff hp]
    omega
  obtain ⟨a, c⟩ := p
  obtain ⟨-, ha⟩ := hp
  simp only at hlt ha hlen
  rw [avanzar, if_neg (not_or.mpr ⟨hetapa, hnil⟩), hlen]
  -- The `recv` takes `k` bytes and is then at `c + k`.
  obtain ⟨k, hk⟩ : ∃ k, k = min (4 - c % 4) (a - c) := ⟨_, rfl⟩
  have hck : min a (4 * (c / 4) + 4) = c + k := by omega
  have hflujo : ((paqueteReadMem valor).take a |>.drop c).drop k =
      ((paqueteReadMem valor).take a).drop (c + k) := List.drop_drop
  have hleido : ((paqueteReadMem valor).take c).drop (4 * (c / 4)) ++
        (((paqueteReadMem valor).take a).drop c).take k =
      ((paqueteReadMem valor).take (c + k)).drop (4 * (c / 4)) :=
    take_drop_append _ (by omega) (by omega) (by rw [length_paqueteReadMem]; exact ha)
  have hvacio : c ≠ 12 := by omega
  simp only [hck]
  by_cases hfull : c + k = 4 * (c / 4) + 4
  · -- The `recv` is complete.
    have hfalta : 4 - c % 4 - k = 0 := by omega
    have hdone := completar_enPosicion valor a (c := 4 * (c / 4)) (by omega)
    rw [etapaEn_mul_div, ← hfull] at hdone
    simp only [enPosicion, ← hk, hflujo, hleido, hfalta, hvacio, if_true, if_false] at hdone ⊢
    rw [hdone]
  · have hdiv : (c + k) / 4 = c / 4 := by omega
    have hetapa : etapaEn (c + k) = etapaEn c := by
      rw [← etapaEn_mul_div, hdiv, etapaEn_mul_div]
    have hfalta : 4 - (c + k) % 4 = 4 - c % 4 - k := by omega
    have hne : 4 - c % 4 - k ≠ 0 := by omega
    have hck' : c + k ≠ 12 := by omega
    simp only [enPosicion, ← hk, hflujo, hleido, hetapa, hdiv, hfalta, hne, hvacio, hck', if_false]

/-- **Step.** An event moves the position, whatever the word is. -/
theorem avanzar_enPosicion (hp : p.Valida) :
    avanzar (enPosicion valor p) e =
      match p.avanzar e with
      | some p' => .ok (enPosicion valor p', [])
      | none => .error () := by
  cases e with
  | llega n => exact avanzar_llega hp n
  | escucha =>
    by_cases hlt : p.tomados < p.llegados
    · rw [avanzar_escucha hp hlt, Posicion.avanzar, if_pos hlt]
    · have hnil : (enPosicion valor p).flujo = [] :=
        (flujo_eq_nil_iff hp).mpr (Nat.le_antisymm hp.1 (Nat.le_of_not_lt hlt))
      rw [avanzar, if_pos (.inr hnil), Posicion.avanzar, if_neg hlt]

theorem posicion_concat (es : List Evento) (e : Evento) :
    posicion (es ++ [e]) = (posicion es).bind fun p => p.avanzar e := by
  simp [posicion]

theorem posicion_valida (h : posicion es = some p) : p.Valida := by
  induction es using List.reverseRecOn generalizing p with
  | nil =>
    cases h
    exact ⟨Nat.le_refl 0, Nat.zero_le 12⟩
  | append_singleton es e ih =>
    rw [posicion_concat, Option.bind_eq_some_iff] at h
    obtain ⟨p₁, hp₁, h⟩ := h
    exact (ih hp₁).avanzar h

/-- **Run.** The events lead to the same position for each word. -/
theorem reaches_enPosicion :
    Reaches avanzar (enviada (paqueteReadMem valor)) es s ↔
      ∃ p, posicion es = some p ∧ s = enPosicion valor p := by
  rw [enviada_eq]
  induction es using List.reverseRecOn generalizing s with
  | nil =>
    rw [reaches_nil]
    show s = _ ↔ ∃ p, some (Posicion.mk 0 0) = some p ∧ _
    simp
  | append_singleton es e ih =>
    simp only [reaches_append, ih, reaches_singleton, posicion_concat, Option.bind_eq_some_iff]
    constructor
    · rintro ⟨s₁, ⟨p, hp, rfl⟩, o, h⟩
      rw [avanzar_enPosicion (posicion_valida hp)] at h
      split at h
      · rename_i p' hp'
        cases h
        exact ⟨p', ⟨p, hp, hp'⟩, rfl⟩
      · cases h
    · rintro ⟨p', ⟨p, hp, hp'⟩, rfl⟩
      refine ⟨enPosicion valor p, ⟨p, hp, rfl⟩, [], ?_⟩
      rw [avanzar_enPosicion (posicion_valida hp), hp']

end Posiciones

end LastOfC.Cpu
