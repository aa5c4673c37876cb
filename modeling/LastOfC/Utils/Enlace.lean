import LastOfC.Lib.Wire
import LastOfC.Utils.Espera
import LastOfC.Utils.Mensajes

/-!
# Messages on a connection (`utils.h`, `serializar.c`)

* `OpCode`: the operation codes, in the order of the `enum`.
* `enviarCampos` and `enviarBuffer`: `crear_paquete`, an encoder, and `enviar_paquete`, for the two
  ways in which the encoders are written.
* `Entrega`: what is sent is one packet, and the decoder gets the message back from it.
  `crear_buffer` and `recibir_paquete` leave `offset` to `malloc`, and here it is 0.
  `entrega_campos` and `entrega_buffer`: one rule for each way.
* `Recibido` and `vuelta`: an iteration of a listener. `conexiones`: a machine behind connections.
* `escucha_exacta` and `escucha_completa`: the machine behind connections whose messages are all
  delivered is the machine that gets them.
-/

namespace LastOfC

/-! ## Operation codes -/

/-- `op_code`. -/
inductive OpCode where
  | mensaje
  | paquete
  | confirmarEspacioProceso
  | confirmarCreacionHilo
  | obtenerContexto
  | actualizarContexto
  | obtenerInstruccion
  | enviarContexto
  | enviarInstruccion
  | asignarMemoria
  | hiloReady
  | recibirTid
  | processCreate
  | processExit
  | threadCreate
  | threadJoin
  | threadCancel
  | threadExit
  | mutexCreate
  | mutexLock
  | mutexUnlock
  | dumpMemory
  | io
  | syscall
  | finalizarHilo
  | finalizarProceso
  | writeMem
  | readMem
  | confirmarContextoActualizado
  | confirmarDumpMemory
  | interrupcion
  | error
  | confirmarWriteMem
  | enviarReadMem
  | confirmarInterrupcion
  deriving DecidableEq, Repr

namespace OpCode

/-- The number of the code. -/
def valor (c : OpCode) : CInt := BitVec.ofNat 32 c.ctorIdx

def todos : List OpCode :=
  [mensaje, paquete, confirmarEspacioProceso, confirmarCreacionHilo, obtenerContexto,
    actualizarContexto, obtenerInstruccion, enviarContexto, enviarInstruccion, asignarMemoria,
    hiloReady, recibirTid, processCreate, processExit, threadCreate, threadJoin, threadCancel,
    threadExit, mutexCreate, mutexLock, mutexUnlock, dumpMemory, io, syscall, finalizarHilo,
    finalizarProceso, writeMem, readMem, confirmarContextoActualizado, confirmarDumpMemory,
    interrupcion, error, confirmarWriteMem, enviarReadMem, confirmarInterrupcion]

/-- The code with this number. -/
def de (valor : CInt) : Option OpCode := todos.find? fun c => c.valor = valor

/-- Each code has a number of its own. -/
@[simp] theorem de_valor (c : OpCode) : de c.valor = some c := by
  cases c <;> rfl

theorem valor_ne (c : OpCode) : c.valor ≠ -1 := by
  cases c <;> decide

end OpCode

/-! ## Senders and receivers -/

/-- `crear_paquete`, the calls of `agregar_buffer_*` of an encoder, and `enviar_paquete`. -/
def enviarCampos (malloc : Malloc) (codigo : OpCode) (campos : List Campo) :
    Option (List Byte) := do
  let buffer ← (crearBuffer malloc.offset).agregarCampos (campos.map fun c => ⟨c, malloc.stream⟩)
  enviarPaquete malloc.magic { codigoOperacion := codigo.valor, buffer }

/-- `crear_paquete`, an encoder that makes the whole buffer, and `enviar_paquete`. -/
def enviarBuffer (malloc : Malloc) (codigo : OpCode) (serializar : Malloc → Option TBuffer) :
    Option (List Byte) := do
  let buffer ← serializar malloc
  enviarPaquete malloc.magic { codigoOperacion := codigo.valor, buffer }

/-- What `enviar` writes is one packet, from which `leer` gets `valor`, whatever the two sides find
in memory other than a 0 in `offset`. -/
def Entrega {α : Type} (enviar : Malloc → Option (List Byte)) (leer : TPaquete → α) (valor : α) :
    Prop :=
  ∃ m : Mensaje, (∀ malloc, malloc.offset = 0 → enviar malloc = some m.trama) ∧
    ∀ basura, basura.offset = 0 → leer (m.recibido basura) = valor

section Entregas

variable {α : Type} {codigo : OpCode} {leer : TPaquete → α} {valor : α}

/-- A buffer whose size is that of its stream is sent as the packet `m`. -/
theorem enviarPaquete_buffer {m : Mensaje} {buffer : TBuffer} (magic : Nat → Byte)
    (hstream : buffer.stream = m.contenido)
    (hsize : buffer.size.toNat = m.contenido.length) :
    enviarPaquete magic { codigoOperacion := m.codigoOperacion, buffer } = some m.trama := by
  have hs : m.size = buffer.size := BitVec.eq_of_toNat_eq (by rw [m.toNat_size, hsize])
  have hpaquete : m.paquete buffer.offset = { codigoOperacion := m.codigoOperacion, buffer } := by
    rw [Mensaje.paquete, hs, ← hstream]
  rw [← hpaquete]
  exact enviarPaquete_mensaje m magic buffer.offset

/-- The bytes of the fields, as what is written for them. -/
theorem codificados_map (campos : List Campo) (basura : Nat → Byte) :
    codificados (campos.map fun c => ⟨c, basura⟩) = campos.flatMap Campo.codificado := by
  rw [codificados, List.flatMap_map]

/-- The packet of a sequence of fields. -/
def mensajeCampos (codigo : OpCode) (campos : List Campo)
    (h : (campos.flatMap Campo.codificado).length ≤ 2 ^ 31 - 9) : Mensaje :=
  { codigoOperacion := codigo.valor
    contenido := campos.flatMap Campo.codificado
    codigo_ne := codigo.valor_ne
    largo := h }

/-- The calls of `leer_buffer_*` on a packet that carries the fields. -/
theorem leerCampos_contenido {buffer : TBuffer} (campos : List Campo)
    (hstream : buffer.stream = campos.flatMap Campo.codificado) (hoffset : buffer.offset = 0)
    (hlargo : (campos.flatMap Campo.codificado).length < 2 ^ 31) :
    ∃ b, buffer.leerCampos (campos.map Campo.tipo) = some (campos, b) := by
  have hs : buffer.stream =
      [] ++ (codificados (campos.map fun c => ⟨c, fun _ => 0⟩) ++ []) := by
    rw [List.nil_append, List.append_nil, codificados_map, hstream]
  have ho : buffer.offset.toNat = ([] : List Byte).length := by
    rw [hoffset]
    rfl
  have hleer := leerCampos_codificados hs ho (by rwa [hstream])
  simp only [List.map_map, Function.comp_def, List.map_id'] at hleer
  exact ⟨_, hleer⟩

/-- An encoder made of `agregar_buffer_*`, and a decoder that gets the message from the fields. -/
theorem entrega_campos {campos : List Campo}
    (hlargo : (campos.flatMap Campo.codificado).length ≤ 2 ^ 31 - 9)
    (hleer : ∀ p : TPaquete, p.codigoOperacion = codigo.valor →
      (∃ b, p.buffer.leerCampos (campos.map Campo.tipo) = some (campos, b)) → leer p = valor) :
    Entrega (enviarCampos · codigo campos) leer valor := by
  refine ⟨mensajeCampos codigo campos hlargo, fun malloc hm => ?_, fun basura hb => ?_⟩
  · have hcodificados := codificados_map campos malloc.stream
    obtain ⟨buffer, hbuffer, hlleno⟩ := TBuffer.Lleno.crear.agregarCampos
      (campos.map fun c => ⟨c, malloc.stream⟩)
      (show 0 + _ < _ by rw [hcodificados]; omega)
    rw [List.nil_append, hcodificados] at hlleno
    show enviarCampos malloc codigo campos = _
    unfold enviarCampos
    rw [hm, hbuffer]
    exact enviarPaquete_buffer (m := mensajeCampos codigo campos hlargo) malloc.magic
      hlleno.stream hlleno.size
  · exact hleer _ rfl (leerCampos_contenido campos rfl hb
      (Nat.lt_of_le_of_lt hlargo (by decide)))

/-- An encoder that fills a block, and a decoder that gets the message from the bytes. -/
theorem entrega_buffer {serializar : Malloc → Option TBuffer} (contenido : List Byte)
    (hlargo : contenido.length ≤ 2 ^ 31 - 9)
    (hserializar : ∀ malloc, malloc.offset = 0 → ∃ b, serializar malloc = some b ∧
      b.stream = contenido ∧ b.size.toNat = contenido.length)
    (hleer : ∀ p : TPaquete, p.codigoOperacion = codigo.valor → p.buffer.stream = contenido →
      p.buffer.size.toNat = contenido.length → p.buffer.offset = 0 → leer p = valor) :
    Entrega (enviarBuffer · codigo serializar) leer valor := by
  let m : Mensaje := ⟨codigo.valor, contenido, codigo.valor_ne, hlargo⟩
  refine ⟨m, fun malloc hm => ?_, fun basura hb => ?_⟩
  · obtain ⟨buffer, hbuffer, hstream, hsize⟩ := hserializar malloc hm
    show enviarBuffer malloc codigo serializar = _
    unfold enviarBuffer
    rw [hbuffer]
    exact enviarPaquete_buffer (m := m) malloc.magic hstream hsize
  · exact hleer _ rfl rfl m.toNat_size hb

/-- An encoder that fills a block of a fixed layout. -/
theorem entrega_llenar {size : CInt} {ps : Malloc → List (List Byte × Nat)}
    (contenido : List Byte) (hsize : size.toNat ≤ 2 ^ 31 - 9)
    (hps : ∀ malloc, Block.Fills size.toNat (ps malloc))
    (hcontenido : ∀ malloc, Block.written (ps malloc) = contenido)
    (hleer : ∀ p : TPaquete, p.codigoOperacion = codigo.valor →
      p.buffer.stream = contenido → p.buffer.offset = 0 → leer p = valor)
    (offset : Malloc → Uint32) :
    Entrega (enviarBuffer · codigo fun malloc =>
      llenarBuffer malloc.stream size (offset malloc) (ps malloc)) leer valor := by
  have hlen : contenido.length = size.toNat := by
    rw [← hcontenido ⟨0, fun _ => 0, fun _ => 0⟩]
    exact Block.written_length (hps _)
  refine entrega_buffer contenido (by rwa [hlen]) (fun malloc _ => ?_)
    fun p hc hs _ ho => hleer p hc hs ho
  have hfills : Block.Fills (Block.grow [] (size.signExtend 64).toNat malloc.stream).length
      (ps malloc) := by
    rw [Block.grow_length, toNat_size_t (by omega)]
    exact hps malloc
  exact ⟨⟨size, offset malloc, Block.written (ps malloc)⟩,
    by simp only [llenarBuffer, Block.writeAll_eq hfills], hcontenido malloc, hlen.symm⟩

/-- A pair of an encoder and a decoder that is a round trip. The decoder does not read `offset`. -/
theorem entrega_idaYVuelta {β : Type} {deserializar : TBuffer → Option β} {b : β} {n : Nat}
    (serializar : Uint32 → (Nat → Byte) → Option TBuffer)
    (h : IdaYVuelta (serializar 0) deserializar b)
    (hlargo : ∀ basura buffer, serializar 0 basura = some buffer → buffer.size.toNat = n)
    (hn : n ≤ 2 ^ 31 - 9)
    (hignora : ∀ buffer offset, deserializar { buffer with offset } = deserializar buffer)
    (hleer : ∀ p : TPaquete, p.codigoOperacion = codigo.valor →
      deserializar p.buffer = some b → leer p = valor) :
    Entrega (enviarBuffer · codigo fun malloc => serializar malloc.offset malloc.stream) leer
      valor := by
  obtain ⟨contenido, h⟩ := h
  obtain ⟨buffer, hbuffer, hstream, hsize, hdes⟩ := h fun _ => 0
  have hlen : contenido.length ≤ 2 ^ 31 - 9 := by
    rw [← hsize, hlargo _ _ hbuffer]
    exact hn
  refine entrega_buffer contenido hlen (fun malloc hm => ?_)
    fun p hcodigo hs hz _ => hleer p hcodigo ?_
  · obtain ⟨b, hb, hstream, hsize, -⟩ := h malloc.stream
    exact ⟨b, by rw [hm]; exact hb, hstream, hsize⟩
  · have hsz : p.buffer.size = buffer.size := BitVec.eq_of_toNat_eq (by rw [hz, hsize])
    have hp : p.buffer = { buffer with offset := p.buffer.offset } := by
      rw [← hsz, hstream, ← hs]
    rw [hp, hignora, hdes]

end Entregas

/-! ## Listeners -/

/-- `malloc` leaves 0 in the `offset` of a sender. -/
abbrev MallocCero := { malloc : Malloc // malloc.offset = 0 }

/-- `malloc` leaves 0 in the `offset` of a receiver. -/
abbrev BasuraCero := { basura : Basura // basura.offset = 0 }

/-- What a listener makes of the value of `recibir_paquete`. -/
inductive Recibido (α : Type) where
  | mensaje (a : α)
  /-- The `default` of the `switch`. -/
  | desconocida
  /-- `NULL`: the peer has gone. -/
  | desconexion
  /-- The decoder reads outside of the payload. -/
  | fuera
  deriving DecidableEq, Repr

/-- The case of a decoder. -/
def Recibido.de {α β : Type} (f : β → α) : Option β → Recibido α
  | some b => .mensaje (f b)
  | none => .fuera

/-- Why an iteration of a listener does not end. -/
inductive Caida (ε : Type) where
  | falla (e : ε)
  | desconexion
  | fuera
  deriving DecidableEq, Repr

section Escucha

variable {σ α β ε ι μ ω : Type}

/-- A step of a machine whose listeners have the cases `f` for a message, and whose other threads
have the steps `ω`. -/
def vuelta (f : σ → ω ⊕ α → Except ε (σ × List β)) (s : σ) :
    ω ⊕ Recibido α → Except (Caida ε) (σ × List β)
  | .inl w => (f s (.inl w)).mapError .falla
  | .inr (.mensaje a) => (f s (.inr a)).mapError .falla
  | .inr .desconocida => .ok (s, [])
  | .inr .desconexion => .error .desconexion
  | .inr .fuera => .error .fuera

/-- The connections `ι`: `enviar` is what a peer writes for a message, and `leer` the `switch` of
the listener. -/
def conexiones (enviar : ι → Malloc → μ → Option (List Byte)) (leer : ι → TPaquete → Recibido α)
    (significado : μ → α) :
    Wire.Format ι μ Byte MallocCero BasuraCero ω (ω ⊕ Recibido α) where
  encode i malloc m := enviar i malloc.1 m
  decode i basura bytes := (esperarPaquete basura.1 bytes).map fun r =>
    (.inr (match r.1 with
      | some p => leer i p
      | none => .desconexion), r.2)
  meaning m := .inr (.mensaje (significado m))
  own := .inl

/-- Every message that can be sent is delivered. -/
def Entregan (enviar : ι → Malloc → μ → Option (List Byte)) (leer : ι → TPaquete → Recibido α)
    (significado : μ → α) : Prop :=
  ∀ i m malloc bytes, enviar i malloc m = some bytes →
    Entrega (enviar i · m) (leer i) (.mensaje (significado m))

/-- The meaning of what is sent on the connection `i`. -/
def enviadoEn [DecidableEq ι] (significado : μ → α) (i : ι) :
    Wire.Event ι μ MallocCero BasuraCero ω → Option α
  | .send j _ m => if j = i then some (significado m) else none
  | _ => none

variable {f : σ → ω ⊕ α → Except ε (σ × List β)} {enviar : ι → Malloc → μ → Option (List Byte)}
  {leer : ι → TPaquete → Recibido α} {significado : μ → α}

/-- Messages that are delivered one by one are delivered in a stream. -/
theorem conexiones_lawful (h : Entregan enviar leer significado) :
    (conexiones enviar leer significado (ω := ω)).Lawful where
  decode_nil i basura := rfl
  decode_append {i basura bytes resto a} hd more := by
    obtain ⟨r, hr, heq⟩ := Option.map_eq_some_iff.mp hd
    cases heq
    exact Option.map_eq_some_iff.mpr ⟨_, esperarPaquete_append hr more, rfl⟩
  decode_encode {i malloc m bytes} hm basura resto := by
    obtain ⟨mensaje, henvia, hlee⟩ := h i m malloc.1 bytes hm
    obtain rfl := Option.some.inj ((henvia malloc.1 malloc.2).symm.trans hm)
    refine Option.map_eq_some_iff.mpr ⟨_, esperarPaquete_trama mensaje basura.1 resto, ?_⟩
    exact congrArg (fun r => (Sum.inr r, resto)) (hlee basura.1 basura.2)

open Trace

/-- A label of the machine, as one of its listeners. -/
def leido : ω ⊕ α → ω ⊕ Recibido α := Sum.map id .mensaje

theorem mapError_ok {δ : Type} {g : ε → δ} {x : Except ε (σ × List β)} {r : σ × List β} :
    x.mapError g = .ok r ↔ x = .ok r := by
  cases x <;> simp [Except.mapError]

/-- Iterations that take messages are steps of the cases. -/
theorem run_vuelta {s s' : σ} {as : List (ω ⊕ α)} {o : List β} :
    run (vuelta f) s (as.map leido) = .ok (s', o) ↔ run f s as = .ok (s', o) := by
  induction as generalizing s o with
  | nil => simp
  | cons a as ih =>
    have hpaso : ∀ r, vuelta f s (leido a) = .ok r ↔ f s a = .ok r := by
      intro r
      cases a <;> exact mapError_ok
    simp only [List.map_cons, run_cons_ok, ih, hpaso]

section Exacta

variable {n n' : Wire.Net σ ι Byte} {o : List β}
  {ls : List (Wire.Event ι μ MallocCero BasuraCero ω)}

/-- A label that came over a connection, as the listener has it. -/
def tomado : ω ⊕ ι × α → ω ⊕ ι × (ω ⊕ Recibido α) :=
  Sum.map id (Prod.map id fun a => .inr (.mensaje a))

theorem label_tomado (as : List (ω ⊕ ι × α)) :
    (as.map tomado).map (conexiones enviar leer significado).label =
      (as.map (Sum.map id Prod.snd)).map leido := by
  rw [List.map_map, List.map_map]
  refine List.map_congr_left fun a _ => ?_
  cases a <;> rfl

variable [DecidableEq ι]

theorem takenFrom_tomado (i : ι) (as : List (ω ⊕ ι × α)) :
    Wire.takenFrom i (as.map tomado) =
      (Wire.takenFrom i as).map fun a => .inr (.mensaje a) := by
  unfold Wire.takenFrom
  rw [List.filterMap_map, List.map_filterMap]
  refine List.filterMap_congr fun a _ => ?_
  rcases a with w | ⟨j, a⟩
  · rfl
  · by_cases h : j = i
    · simp [tomado, h]
    · simp [tomado, h]

theorem sentOn_eq (i : ι) :
    ls.filterMap (Wire.Event.sentOn (conexiones enviar leer significado) i) =
      (ls.filterMap (enviadoEn significado i)).map fun a => .inr (.mensaje a) := by
  rw [List.map_filterMap]
  refine List.filterMap_congr fun l _ => ?_
  cases l with
  | send j g m =>
    simp only [Wire.Event.sentOn, enviadoEn]
    split <;> rfl
  | _ => rfl

/-- All that the listener takes was sent. -/
theorem exists_tomado {as : List (ω ⊕ ι × (ω ⊕ Recibido α))} (rs : ι → List α)
    (h : ∀ i, Wire.takenFrom i as <+: (rs i).map fun a => .inr (.mensaje a)) :
    ∃ as' : List (ω ⊕ ι × α), as = as'.map tomado := by
  induction as generalizing rs with
  | nil => exact ⟨[], rfl⟩
  | cons a as ih =>
    rcases a with w | ⟨i, r⟩
    · obtain ⟨as', rfl⟩ := ih rs h
      exact ⟨.inl w :: as', rfl⟩
    · have hcons : ∀ j, Wire.takenFrom j
          (Sum.inr (i, r) :: as : List (ω ⊕ ι × (ω ⊕ Recibido α))) =
          (if i = j then some r else none).toList ++ Wire.takenFrom j as :=
        fun j => Wire.filterMap_cons_toList _ _ _
      have hi := h i
      rw [hcons, if_pos rfl] at hi
      cases hrs : rs i with
      | nil =>
        rw [hrs] at hi
        exact absurd (List.prefix_nil.mp hi) (by simp)
      | cons b bs =>
        rw [hrs, List.map_cons] at hi
        obtain ⟨rfl, hi⟩ := List.cons_prefix_cons.mp hi
        obtain ⟨as', rfl⟩ := ih (Function.update rs i bs) fun j => by
          by_cases hj : j = i
          · subst hj
            simpa using hi
          · have hj' := h j
            rw [hcons, if_neg (Ne.symm hj)] at hj'
            simpa [hj] using hj'
        exact ⟨.inr (i, b) :: as', rfl⟩

/-- A run over connections is a run of the machine, in which each connection gives what was sent on
it, in order. When all bytes of a connection were read, nothing is missing. -/
theorem escucha_exacta (hentregan : Entregan enviar leer significado) (s : σ)
    (h : run (Wire.step (vuelta f) (conexiones enviar leer significado))
      ⟨s, fun _ => ⟨[], []⟩⟩ ls = .ok (n', o)) :
    ∃ as : List (ω ⊕ ι × α), run f s (as.map (Sum.map id Prod.snd)) = .ok (n'.state, o) ∧
      as.map (Sum.map id Prod.fst) = ls.filterMap Wire.Event.agent ∧
      ∀ i, Wire.takenFrom i as <+: ls.filterMap (enviadoEn significado i) ∧
        (n'.chans i = ⟨[], []⟩ →
          Wire.takenFrom i as = ls.filterMap (enviadoEn significado i)) := by
  have hF := conexiones_lawful (ω := ω) hentregan
  obtain ⟨as, qs, hrun, hagentes, hlleva, heq⟩ :=
    Wire.run_sound hF (fun i => Wire.Carries.nil _ i) h
  simp only [List.nil_append, sentOn_eq] at heq
  obtain ⟨as, rfl⟩ := exists_tomado _ fun i => ⟨qs i, heq i⟩
  rw [label_tomado, run_vuelta] at hrun
  simp only [takenFrom_tomado] at heq
  have hinj : Function.Injective fun a : α => (.inr (.mensaje a) : ω ⊕ Recibido α) :=
    fun _ _ h => by cases h; rfl
  refine ⟨as, hrun, ?_, fun i => ⟨?_, fun hvacio => ?_⟩⟩
  · rw [← hagentes, List.map_map]
    refine List.map_congr_left fun a _ => ?_
    cases a <;> rfl
  · exact (List.prefix_map_iff_of_injective hinj).mp ⟨qs i, heq i⟩
  · have hqs := hlleva i
    rw [hvacio] at hqs
    have hnil := heq i
    rw [hqs.eq_nil hF ⟨⟨0, 0, 0, fun _ => 0⟩, rfl⟩, List.append_nil] at hnil
    exact (List.map_injective_iff.mpr hinj) hnil

/-- Messages are sent, and then any run of the machine that takes them in order is one over the
connections. -/
theorem escucha_completa (hentregan : Entregan enviar leer significado) (basura : BasuraCero)
    (ms : List (ι × MallocCero × μ))
    (henvia : ∀ m ∈ ms, ∃ bytes, enviar m.1 m.2.1.1 m.2.2 = some bytes)
    {as : List (ω ⊕ ι × α)}
    (hpre : ∀ i, Wire.takenFrom i as <+: (ms.filter (·.1 = i)).map fun m => significado m.2.2)
    {s s' : σ} (h : run f s (as.map (Sum.map id Prod.snd)) = .ok (s', o)) :
    ∃ (ls : List (Wire.Event ι μ MallocCero BasuraCero ω)) (n' : Wire.Net σ ι Byte),
      run (Wire.step (vuelta f) (conexiones enviar leer significado))
        ⟨s, fun _ => ⟨[], []⟩⟩ ((ms.map fun m => .send m.1 m.2.1 m.2.2) ++ ls) = .ok (n', o) ∧
      n'.state = s' ∧ ls.filterMap Wire.Event.agent = as.map (Sum.map id Prod.fst) := by
  have hF := conexiones_lawful (ω := ω) hentregan
  obtain ⟨n₁, hsends, hs₁, hlleva⟩ := Wire.run_sends (f := vuelta f) hF
    (n := ⟨s, fun _ => ⟨[], []⟩⟩) (fun i => Wire.Carries.nil _ i) ms henvia
  have hrun : run (vuelta f) n₁.state
      ((as.map tomado).map (conexiones enviar leer significado).label) = .ok (s', o) := by
    rw [label_tomado, run_vuelta, hs₁]
    exact h
  obtain ⟨ls, n', hls, hs', hagentes⟩ := Wire.run_complete basura hlleva (fun i => by
    rw [takenFrom_tomado, List.nil_append]
    have hmap := (hpre i).map fun a => (.inr (.mensaje a) : ω ⊕ Recibido α)
    rwa [List.map_map] at hmap) hrun
  refine ⟨ls, n', run_append_ok.mpr ⟨n₁, [], o, hsends, hls, rfl⟩, hs', ?_⟩
  rw [hagentes, List.map_map]
  refine List.map_congr_left fun a _ => ?_
  cases a <;> rfl

end Exacta

end Escucha

end LastOfC
