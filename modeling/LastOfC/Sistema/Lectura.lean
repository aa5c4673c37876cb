import LastOfC.Cpu.Lectura
import LastOfC.Sistema.Aislamiento

/-!
# `READ_MEM`, from the instruction to memoria and back

* `ReadMem`: an instruction that the MMU lets through and that memoria accepts, with the state of
  memoria when it handles the request. `respuesta` is what memoria sends to the CPU for it.
* `Obtiene`: what the destination register holds after the events `es` of the socket and of the
  listener, and then the `recv` of the instruction.
* `TrasEscribir`: memoria has handled a `WRITE_MEM` at the address, and no other write in its word
  since then.
* `lectura_iff`: the register gets the word of memoria exactly when the whole reply has arrived and
  the listener has taken its operation code and its size, and not its word.
-/

namespace LastOfC.Sistema

open Trace Memoria Cpu

structure ReadMem where
  cfg : ConfigMemoria
  /-- The state of memoria when it handles the request. -/
  estado : Memoria.Estado
  parteActual : ParticionMemoria
  PidHilo : Uint32
  datos : Cadena
  direccion : Cadena
  contexto : TContextoEjecucion
  /-- What `dato` holds before the `recv`. -/
  basura : Uint32
  regDatos : Registro
  pedido : TDatosReadMem
  readMem_eq :
    Cpu.readMem parteActual PidHilo datos direccion contexto = .ok (some (regDatos, pedido))
  aceptada : direccionAceptada cfg pedido.dirFis = true

namespace ReadMem

/-- The word at the translated address. -/
def palabra (i : ReadMem) : Uint32 := leerPalabra i.estado.memoria i.pedido.dirFis.toNat

/-- The bytes that `read_mem` of memoria sends for the request. -/
def respuesta (i : ReadMem) : List Byte :=
  match deserializarReadMem
      (serializarReadMem i.pedido.dirFis i.pedido.pidHilo i.pedido.tidHilo) with
  | some datos =>
    match Memoria.readMem i.cfg i.estado datos with
    | .ok (_, [⟨.cpu, .enviarReadMem valor⟩]) => paqueteReadMem valor
    | _ => []
  | none => []

/-- The context after `*reg_datos = leer_desde_memoria(...)`, if the `recv` comes after `es`. -/
def Termina (i : ReadMem) (es : List Evento) (contexto' : TContextoEjecucion) : Prop :=
  ∃ s dato, Reaches avanzar (enviada i.respuesta) es s ∧
    leerDesdeMemoria s i.basura = some dato ∧
    contexto' =
      { i.contexto with RegistrosCPU := i.regDatos.asignar i.contexto.RegistrosCPU dato }

def Obtiene (i : ReadMem) (es : List Evento) (valor : Uint32) : Prop :=
  ∃ contexto', i.Termina es contexto' ∧ i.regDatos.valor contexto'.RegistrosCPU = valor

/-- The `recv` waits, and whatever happens it never gets a byte. -/
def Colgado (i : ReadMem) (es : List Evento) : Prop :=
  ∃ s, Reaches avanzar (enviada i.respuesta) es s ∧
    ∀ es' s', Reaches avanzar s es' s' → leerDesdeMemoria s' i.basura = none

/-- Memoria handled a `WRITE_MEM` of `valor` at the address of the `READ_MEM`, and then other
requests that do not write in the same 4 bytes. -/
def TrasEscribir (i : ReadMem) (valor : Uint32) : Prop :=
  ∃ (ent : Entorno) (s : Memoria.Estado) (d : TDatosWriteMem) (as : List Peticion),
    ent.toConfigMemoria = i.cfg ∧ d.dirFis = i.pedido.dirFis ∧ d.valor = valor ∧
    Reaches (atender ent) s (.writeMem d :: as) i.estado ∧
    ∀ d', .writeMem d' ∈ as →
      d'.dirFis.toNat + 4 ≤ d.dirFis.toNat ∨ d.dirFis.toNat + 4 ≤ d'.dirFis.toNat

end ReadMem

/-! ## The word of memoria -/

section Palabra

variable {ent : Entorno} {s s' : Memoria.Estado} {m m' : Nat → Byte} {dir : Nat} {valor : Uint32}

theorem leerPalabra_congr (h : ∀ k < 4, m (dir + k) = m' (dir + k)) :
    leerPalabra m dir = leerPalabra m' dir := by
  have h₀ := h 0 (by decide)
  rw [Nat.add_zero] at h₀
  simp only [leerPalabra, h₀, h 1 (by decide), h 2 (by decide), h 3 (by decide)]

theorem leerPalabra_escribirPalabra : leerPalabra (escribirPalabra m dir valor) dir = valor := by
  have h₀ : escribirPalabra m dir valor (dir + 0) = byteDe valor 0 :=
    escribirPalabra_byte (by decide)
  rw [Nat.add_zero] at h₀
  rw [leerPalabra, h₀, escribirPalabra_byte (k := 1) (by decide),
    escribirPalabra_byte (k := 2) (by decide), escribirPalabra_byte (k := 3) (by decide)]
  show palabraDe (byteDe valor 0) (byteDe valor 1) (byteDe valor 2) (byteDe valor 3) = valor
  exact palabraDe_bytesDe valor

/-- Requests that do not write in a word leave it as it is. -/
theorem leerPalabra_corrida {as : List Peticion} (hs : Reaches (atender ent) s as s')
    (has : ∀ d, .writeMem d ∈ as → d.dirFis.toNat + 4 ≤ dir ∨ dir + 4 ≤ d.dirFis.toNat) :
    leerPalabra s'.memoria dir = leerPalabra s.memoria dir := by
  have hbytes : ∀ k < 4, s'.memoria (dir + k) = s.memoria (dir + k) := by
    refine hs.keeps (I := fun t => ∀ k < 4, t.memoria (dir + k) = s.memoria (dir + k))
      (fun k _ => rfl) ?_
    intro s₁ a s₂ o ha hI h k hk
    rw [← hI k hk]
    rcases atender_memoria h with hm | ⟨d, rfl, hm⟩
    · rw [hm]
    · have hd := has d ha
      rw [hm, escribirPalabra_de_fuera (by omega)]
  exact leerPalabra_congr hbytes

theorem ReadMem.palabra_trasEscribir {i : ReadMem} (h : i.TrasEscribir valor) :
    i.palabra = valor := by
  obtain ⟨ent, s, d, as, hcfg, hdir, rfl, hs, has⟩ := h
  rw [← List.singleton_append] at hs
  obtain ⟨s₁, hw, hs⟩ := reaches_append.mp hs
  have hlt : d.dirFis.toNat + 4 < ent.tamMemoria := by
    have hac := i.aceptada
    rw [← hcfg, ← hdir] at hac
    exact of_decide_eq_true hac
  have hm := reaches_writeMem hw
  rw [if_pos hlt] at hm
  rw [ReadMem.palabra, ← hdir, leerPalabra_corrida hs has, hm, leerPalabra_escribirPalabra]

end Palabra

/-! ## The value in the register -/

section Registro

variable {i : ReadMem} {es : List Evento} {valor : Uint32}

theorem respuesta_eq (i : ReadMem) : i.respuesta = paqueteReadMem i.palabra := by
  simp only [ReadMem.respuesta, deserializar_serializarReadMem, Memoria.readMem, i.aceptada,
    if_true]
  rfl

/-- What the instruction gets, from the position of the listener. -/
theorem obtiene_iff :
    i.Obtiene es valor ↔
      ∃ p, posicion es = some p ∧
        leerDesdeMemoria (enPosicion i.palabra p) i.basura = some valor := by
  have hval : ∀ dato,
      i.regDatos.valor (i.regDatos.asignar i.contexto.RegistrosCPU dato) = dato := by
    intro dato
    rw [Registro.valor_asignar, if_pos rfl]
  simp only [ReadMem.Obtiene, ReadMem.Termina, respuesta_eq, reaches_enPosicion]
  constructor
  · rintro ⟨_, ⟨s, dato, ⟨p, hp, rfl⟩, hdato, rfl⟩, rfl⟩
    exact ⟨p, hp, by rw [hdato, hval]⟩
  · rintro ⟨p, hp, hdato⟩
    exact ⟨_, ⟨_, valor, ⟨p, hp, rfl⟩, hdato, rfl⟩, hval valor⟩

/-- The listener has taken the operation code and the size, and the word waits. -/
theorem leerDesdeMemoria_palabra (w basura : Uint32) :
    leerDesdeMemoria (enPosicion w ⟨12, 8⟩) basura = some w := by
  have hflujo : (enPosicion w ⟨12, 8⟩).flujo = bytesDe w := rfl
  have hne : bytesDe w ≠ [] := by simp [bytesDe]
  have htake : (bytesDe w).take 4 ++ (bytesDe basura).drop ((bytesDe w).take 4).length =
      bytesDe w ++ [] := rfl
  simp only [leerDesdeMemoria, hflujo, if_neg hne, htake, leer_bytesDe, Option.map_some]

theorem obtiene_palabra (i : ReadMem) (h : posicion es = some ⟨12, 8⟩) : i.Obtiene es i.palabra :=
  obtiene_iff.mpr ⟨⟨12, 8⟩, h, leerDesdeMemoria_palabra i.palabra i.basura⟩

/-- The listener has taken nothing, so the `recv` gets the operation code. -/
theorem obtiene_codigo (i : ReadMem) : i.Obtiene [.llega 12] ENVIAR_READ_MEM := by
  refine obtiene_iff.mpr ⟨⟨12, 0⟩, rfl, ?_⟩
  have hflujo : (enPosicion i.palabra ⟨12, 0⟩).flujo =
      bytesDe ENVIAR_READ_MEM ++ (bytesDe 4 ++ bytesDe i.palabra) := rfl
  have htake : (bytesDe ENVIAR_READ_MEM ++ (bytesDe 4 ++ bytesDe i.palabra)).take 4 =
      bytesDe ENVIAR_READ_MEM := rfl
  have hdrop : (bytesDe i.basura).drop (bytesDe ENVIAR_READ_MEM).length = [] := rfl
  have hne : bytesDe ENVIAR_READ_MEM ++ (bytesDe 4 ++ bytesDe i.palabra) ≠ [] := by simp [bytesDe]
  simp only [leerDesdeMemoria, hflujo, if_neg hne, htake, hdrop, leer_bytesDe, Option.map_some]

/-- The listener has taken the operation code, so the `recv` gets the size. -/
theorem obtiene_tamanio (i : ReadMem) : i.Obtiene [.llega 12, .escucha] 4 := by
  refine obtiene_iff.mpr ⟨⟨12, 4⟩, rfl, ?_⟩
  have hflujo : (enPosicion i.palabra ⟨12, 4⟩).flujo = bytesDe 4 ++ bytesDe i.palabra := rfl
  have htake : (bytesDe 4 ++ bytesDe i.palabra).take 4 = bytesDe 4 := rfl
  have hdrop : (bytesDe i.basura).drop (bytesDe 4).length = [] := rfl
  have hne : bytesDe 4 ++ bytesDe i.palabra ≠ [] := by simp [bytesDe]
  simp only [leerDesdeMemoria, hflujo, if_neg hne, htake, hdrop, leer_bytesDe, Option.map_some]

/-- The listener has taken the whole reply, and there is nothing else on its way. -/
theorem colgado_completa (i : ReadMem) :
    i.Colgado [.llega 12, .escucha, .escucha, .escucha] := by
  refine ⟨enPosicion i.palabra ⟨12, 12⟩, ?_, ?_⟩
  · rw [respuesta_eq, reaches_enPosicion]
    exact ⟨⟨12, 12⟩, rfl, rfl⟩
  · intro es' s' hs
    have hkeep : s' = enPosicion i.palabra ⟨12, 12⟩ := by
      refine hs.keeps (I := fun t => t = enPosicion i.palabra ⟨12, 12⟩) rfl ?_
      rintro _ e s₂ o - rfl h
      cases e with
      | llega n =>
        rw [avanzar_llega ⟨Nat.le_refl 12, Nat.le_refl 12⟩] at h
        cases h
        rw [Nat.min_eq_left (Nat.le_add_right 12 n)]
      | escucha =>
        rw [avanzar_enPosicion ⟨Nat.le_refl 12, Nat.le_refl 12⟩] at h
        cases h
    rw [hkeep]
    rfl

end Registro

/-! ## `WRITE_MEM` and then `READ_MEM` -/

/-- Memoria after process 2 wrote four bytes 1 at its address 0. -/
def unosEscritos : Memoria.Estado :=
  { dosProcesos with memoria := escribirPalabra dosProcesos.memoria 20 0x01010101 }

/-- Process 2 reads the word at its address 0. -/
def lecturaDeUnos : ReadMem where
  cfg := entornoFijo.toConfigMemoria
  estado := unosEscritos
  parteActual := inicializarParticionDeMemoria 20 39
  PidHilo := 2
  datos := ['A', 'X']
  direccion := ['B', 'X']
  contexto := ⟨0, .cero, 0, 20, 39, 2⟩
  basura := 0
  regDatos := .AX
  pedido := ⟨20, 2, 0⟩
  readMem_eq := rfl
  aceptada := by decide

theorem lecturaDeUnos_trasEscribir : lecturaDeUnos.TrasEscribir 0x01010101 :=
  ⟨entornoFijo, dosProcesos, ⟨20, 0x01010101, 2, 0⟩, [], rfl, rfl, rfl, ⟨_, rfl⟩, by simp⟩

/-- No other position than the one after the size gives the word, since a byte of the operation
code, of the size or of `dato` is in its place. -/
theorem lecturaDeUnos_posicion {es : List Evento} (h : lecturaDeUnos.Obtiene es 0x01010101) :
    posicion es = some ⟨12, 8⟩ := by
  have hall : ∀ a < 13, ∀ c < 13, c ≤ a →
      leerDesdeMemoria (enPosicion 0x01010101 ⟨a, c⟩) 0 = some 0x01010101 → a = 12 ∧ c = 8 := by
    decide +kernel
  obtain ⟨⟨a, c⟩, hp, hdato⟩ := obtiene_iff.mp h
  obtain ⟨hca, ha⟩ := posicion_valida hp
  simp only at hca ha
  rw [ReadMem.palabra_trasEscribir lecturaDeUnos_trasEscribir] at hdato
  obtain ⟨rfl, rfl⟩ := hall a (by omega) c (by omega) hca hdato
  exact hp

/-- **`READ_MEM` loads the word of memoria**, or the one that was written last, in the
interleavings in which the listener has taken the 8 bytes of the operation code and the size when
the `recv` of the instruction gets the rest, and in no other. No memory avoids the others: in some
interleaving the instruction gets something else, and in some it never ends. -/
theorem lectura_iff (es : List Evento) :
    ((∀ i : ReadMem, i.Obtiene es i.palabra) ↔ posicion es = some ⟨12, 8⟩) ∧
    ((∀ (i : ReadMem) valor, i.TrasEscribir valor → i.Obtiene es valor) ↔
      posicion es = some ⟨12, 8⟩) ∧
    (∀ i : ReadMem, ∃ es' valor, i.Obtiene es' valor ∧ valor ≠ i.palabra) ∧
    ∀ i : ReadMem, ∃ es', i.Colgado es' := by
  refine ⟨⟨fun h => ?_, fun h i => obtiene_palabra i h⟩, ⟨fun h => ?_, fun h i valor hi => ?_⟩,
    fun i => ?_, fun i => ⟨_, colgado_completa i⟩⟩
  · have hunos := h lecturaDeUnos
    rw [ReadMem.palabra_trasEscribir lecturaDeUnos_trasEscribir] at hunos
    exact lecturaDeUnos_posicion hunos
  · exact lecturaDeUnos_posicion (h lecturaDeUnos _ lecturaDeUnos_trasEscribir)
  · have hpal := obtiene_palabra i h
    rwa [ReadMem.palabra_trasEscribir hi] at hpal
  · -- The operation code and the size are not both the word.
    by_cases hcod : ENVIAR_READ_MEM = i.palabra
    · refine ⟨_, 4, obtiene_tamanio i, ?_⟩
      rw [← hcod]
      decide
    · exact ⟨_, _, obtiene_codigo i, hcod⟩

/-- The listener is late: the instruction gets `ENVIAR_READ_MEM` for a word of four bytes 1. -/
theorem lectura_de_codigo :
    lecturaDeUnos.TrasEscribir 0x01010101 ∧ lecturaDeUnos.palabra = 0x01010101 ∧
      lecturaDeUnos.Obtiene [.llega 12] 33 ∧
      ¬ ∀ es valor, lecturaDeUnos.Obtiene es valor → valor = lecturaDeUnos.palabra := by
  have hpal := ReadMem.palabra_trasEscribir lecturaDeUnos_trasEscribir
  refine ⟨lecturaDeUnos_trasEscribir, hpal, obtiene_codigo lecturaDeUnos, fun h => ?_⟩
  have h33 := h _ _ (obtiene_codigo lecturaDeUnos)
  rw [hpal] at h33
  exact absurd h33 (by decide)

end LastOfC.Sistema
