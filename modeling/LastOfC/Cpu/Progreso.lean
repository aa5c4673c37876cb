import LastOfC.Cpu.Pasada
import Mathlib.Data.Prod.Lex
import Mathlib.Order.WellFounded

/-!
# Each turn ends (`cpu.c`, `ciclo_de_instruccion.c`, `escuchar_cpu.c` of memoria)

The threads of `ciclo_de_instruccion` wait at two semaphores for a reply of memoria, and the
listener posts them.

* `Paso.interno`: the steps of these threads, of the listener and of memoria for the CPU.
* `Normal`: memoria answers what a thread waits for, and the CPU gets past the lines it executes.
* `Atento`: the invariant. A thread that waits has a request, or a reply, or a post on its way.
* `Atento.puede`: so some step is possible until all threads have ended and all replies were read.
* `medida`: what each such step makes less.
* `turno_termina`: the two together. A dispatched thread gets to its next syscall, in any order of
  the steps.
-/

namespace LastOfC.Cpu

open Trace KeyedList
open Memoria (Peticion)

/-! ## Conditions -/

/-- A step of the CPU, or of memoria for the CPU. -/
def Paso.interno : Paso → Bool
  | .ciclo _ | .escucha _ | .memoriaCpu _ => true
  | _ => false

/-- `escuchar_kernel_dispatch` takes a `RECIBIR_TID`. -/
def Paso.despacha : Paso → Bool
  | .recibirTid _ _ => true
  | _ => false

/-- The instruction waits for a word of memoria. -/
def Accion.esperaDato : Accion → Bool
  | .lee _ _ => true
  | _ => false

/-- The answer of memoria to a request. -/
def respuestas (ent : Memoria.Entorno) (m : Memoria.Estado) (q : Peticion) : List Memoria.Envio :=
  match Memoria.atender ent m q with
  | .ok (_, o) => o
  | .error _ => []

/-- The turn of a thread waits for the answer. -/
def esEsperada (q : Peticion) : Bool := pideContexto q || pideInstruccion q || pideActualizar q

/-- Memoria answers the request that it takes, if a turn waits for the answer. -/
def Contesta (ent : Memoria.Entorno) (s : CpuMemoria) : Paso → Prop
  | .memoriaCpu _ => ∀ q ∈ s.peticiones.head?, esEsperada q = true →
    respuestas ent s.memoria q ≠ []
  | _ => True

/-- The CPU gets past the line that the thread executes, and it is no `READ_MEM`. -/
def Ciclo.adelanta (s : CpuMemoria) (x : Ciclo) : Bool :=
  match x.fase with
  | .ejecuta i => i.avanza && !(execute s.parteActual s.PidHilo i x.contexto).esperaDato
  | _ => true

/-- The CPU gets past the line that it executes. -/
def Adelanta (s : CpuMemoria) : Paso → Prop
  | .ciclo k => ∀ x ∈ s.ciclos[k]?, x.adelanta s = true
  | _ => True

/-- A step of a run in which nothing gets stuck. -/
structure Normal (ent : Memoria.Entorno) (s : CpuMemoria) (a : Paso) : Prop where
  aUno : DeAUno s a
  contesta : Contesta ent s a
  adelanta : Adelanta s a
  sinInterrupcion : a ≠ .interrupcion

instance (ent : Memoria.Entorno) (s : CpuMemoria) : ∀ a, Decidable (Contesta ent s a)
  | .memoriaCpu _ => inferInstanceAs (Decidable (∀ q ∈ s.peticiones.head?, _ → _))
  | .recibirTid _ _ | .interrupcion | .desconexionInterrupt | .ciclo _ | .recv _ _ _ | .escucha _
  | .memoriaKernel _ => instDecidableTrue

instance (s : CpuMemoria) : ∀ a, Decidable (Adelanta s a)
  | .ciclo k => inferInstanceAs (Decidable (∀ x ∈ s.ciclos[k]?, _))
  | .recibirTid _ _ | .interrupcion | .desconexionInterrupt | .recv _ _ _ | .escucha _
  | .memoriaCpu _ | .memoriaKernel _ => instDecidableTrue

instance (a : Paso) : Decidable (a ≠ .interrupcion) :=
  match a with
  | .interrupcion => isFalse fun h => h rfl
  | .recibirTid _ _ | .desconexionInterrupt | .ciclo _ | .recv _ _ _ | .escucha _ | .memoriaCpu _
  | .memoriaKernel _ => isTrue nofun

instance (ent : Memoria.Entorno) (s : CpuMemoria) (a : Paso) : Decidable (Normal ent s a) :=
  decidable_of_iff (DeAUno s a ∧ Contesta ent s a ∧ Adelanta s a ∧ a ≠ .interrupcion)
    ⟨fun ⟨h₁, h₂, h₃, h₄⟩ => ⟨h₁, h₂, h₃, h₄⟩, fun ⟨h₁, h₂, h₃, h₄⟩ => ⟨h₁, h₂, h₃, h₄⟩⟩

/-- The programs are text: their characters are bytes. -/
def TextoPlano (ent : Memoria.Entorno) : Prop :=
  ∀ path archivo, ent.archivos path = some archivo → ∀ c ∈ archivo, c.toNat < 256

/-- All threads have ended, memoria has no request left, and the listener no byte. -/
def CpuMemoria.Quieta (s : CpuMemoria) : Prop :=
  (∀ x ∈ s.ciclos, x.fase = .fin) ∧ s.peticiones = [] ∧ s.flujo = []

/-! ## Possible steps -/

section Pasos

variable {ent : Memoria.Entorno} {s s' : CpuMemoria} {ls : List Llegada} {a : Paso}
  {o : List Salida} {k : Nat} {c : TContextoEjecucion} {fase : Fase} {q : Peticion}

/-- The phases in which a thread waits. -/
def Fase.aguarda (s : CpuMemoria) : Fase → Bool
  | .espera => s.semInstruccion = 0
  | .esperaSyscall _ => s.semSyscall = 0
  | .lee _ _ | .fin => true
  | _ => false

theorem girar_puede (hk : s.ciclos[k]? = some ⟨c, fase⟩) (h : fase.aguarda s = false) :
    ∃ s' o, s.girar k = .ok (s', o) := by
  unfold CpuMemoria.girar
  rw [hk]
  cases fase with
  | espera =>
    have hsem : s.semInstruccion ≠ 0 := by simpa [Fase.aguarda] using h
    exact ⟨_, _, if_neg hsem⟩
  | esperaSyscall i =>
    have hsem : s.semSyscall ≠ 0 := by simpa [Fase.aguarda] using h
    exact ⟨_, _, if_neg hsem⟩
  | lee i registro => cases h
  | fin => cases h
  | inicio =>
    dsimp only
    split
    · exact ⟨_, _, rfl⟩
    · exact ⟨_, _, rfl⟩
  | decodifica =>
    dsimp only
    split
    · exact ⟨_, _, rfl⟩
    · exact ⟨_, _, rfl⟩
  | enviaSyscall i =>
    dsimp only
    split
    · exact ⟨_, _, rfl⟩
    · exact ⟨_, _, rfl⟩
  | revisa =>
    dsimp only
    split
    · exact ⟨_, _, rfl⟩
    · exact ⟨_, _, rfl⟩
  | _ => exact ⟨_, _, rfl⟩

/-- The next byte is one more of those that the listener has. -/
theorem Flujo.siguiente {b : Byte} {flujo : List Byte} (hf : Flujo (s.leido ++ s.flujo) ls)
    (hb : s.flujo = b :: flujo) : Flujo ((s.leido ++ [b]) ++ flujo) ls := by
  rwa [hb, List.append_cons] at hf

/-- The listener takes each byte of whole packets. -/
theorem escuchar_puede (hf : Flujo (s.leido ++ s.flujo) ls) (hesc : s.escuchando = true)
    (hne : s.flujo ≠ []) (basura : Basura) : ∃ s' o, s.escuchar basura = .ok (s', o) := by
  obtain ⟨b, flujo, hb⟩ := List.exists_cons_of_ne_nil hne
  replace hf := hf.siguiente hb
  unfold CpuMemoria.escuchar
  simp only [hb, hesc, if_true]
  split
  · exact ⟨_, _, rfl⟩
  · exact ⟨_, _, rfl⟩
  · rename_i p leido hp
    obtain ⟨p', l, ls', hq, hl, -, -⟩ := hf.llega (by simp) hp
    cases hq
    rw [hl]
    exact ⟨_, _, rfl⟩

/-- What it takes. -/
theorem escuchar_casos {basura : Basura} (h : s.escuchar basura = .ok (s', o)) :
    ∃ b, s.flujo = b :: s'.flujo := by
  unfold CpuMemoria.escuchar at h
  split at h
  · cases h
  · rename_i b flujo hb
    refine ⟨b, ?_⟩
    split at h
    · split at h
      · cases h
        exact hb
      · cases h
        exact hb
      · split at h
        · rename_i leido _ _ l _
          cases h
          rw [(recibir_flujo { s with flujo, leido } l).2]
          exact hb
        · cases h
    · cases h

end Pasos

/-! ## Answers -/

section Respuestas

variable {ent : Memoria.Entorno} {m : Memoria.Estado} {s : CpuMemoria} {q : Peticion}

/-- A buffer with the size of its stream is sent. -/
theorem enviarPaquete_puede (magic : Nat → Byte) {codigo : CInt} {buffer : TBuffer}
    (hcodigo : codigo ≠ -1) (hsize : buffer.size.toNat = buffer.stream.length)
    (hlargo : buffer.stream.length ≤ 2 ^ 31 - 9) :
    ∃ bytes, enviarPaquete magic { codigoOperacion := codigo, buffer } = some bytes := by
  have heq := enviarPaquete_mensaje ⟨codigo, buffer.stream, hcodigo, hlargo⟩ magic buffer.offset
  rw [Mensaje.paquete, Mensaje.size, ← hsize, BitVec.ofNat_toNat, BitVec.setWidth_eq] at heq
  exact ⟨_, heq⟩

theorem enviarInt_puede (malloc : Malloc) {codigo : CInt} (hcodigo : codigo ≠ -1) (numero : CInt) :
    ∃ bytes, enviarInt malloc codigo numero = some bytes :=
  enviarPaquete_puede malloc.magic hcodigo rfl (by simp [bufferInt, serializarInt])

/-- An encoder that fills its buffer. -/
theorem enviarBuffer_puede {α : Type} {serializar : (Nat → Byte) → Option TBuffer}
    {deserializar : TBuffer → Option α} {valor : α} (malloc : Malloc) {codigo : CInt}
    (hcodigo : codigo ≠ -1) (h : IdaYVuelta serializar deserializar valor)
    (hlargo : ∀ basura b, serializar basura = some b → b.size.toNat ≤ 2 ^ 31 - 9) :
    ∃ bytes, (do
      let buffer ← serializar malloc.stream
      enviarPaquete malloc.magic { codigoOperacion := codigo, buffer }) = some bytes := by
  obtain ⟨contenido, hc⟩ := h
  obtain ⟨b, hb, rfl, hsize, -⟩ := hc malloc.stream
  obtain ⟨bytes, hbytes⟩ := enviarPaquete_puede malloc.magic hcodigo hsize
    (hsize ▸ hlargo _ _ hb)
  exact ⟨bytes, by rw [hb]; exact hbytes⟩

/-- The characters of a line are those of the file. -/
theorem mem_of_mem_lineas {archivo l : Cadena} (hl : l ∈ Memoria.lineas archivo) {c : Char}
    (hc : c ∈ l) : c ∈ archivo := by
  induction archivo generalizing l with
  | nil => cases hl
  | cons d archivo ih =>
    unfold Memoria.lineas at hl
    split at hl
    · rcases List.mem_cons.mp hl with rfl | hl
      · cases hc
      · exact List.mem_cons_of_mem _ (ih hl hc)
    · split at hl
      · cases List.mem_singleton.mp hl
        rw [List.mem_singleton.mp hc]
        exact List.mem_cons_self
      · rename_i l' ls heq
        rcases List.mem_cons.mp hl with rfl | hl
        · rcases List.mem_cons.mp hc with rfl | hc
          · exact List.mem_cons_self
          · exact List.mem_cons_of_mem _ (ih (heq ▸ List.mem_cons_self) hc)
        · exact List.mem_cons_of_mem _ (ih (heq ▸ List.mem_cons_of_mem _ hl) hc)

/-- An instruction is a string of bytes. -/
theorem esCString_linea (htexto : TextoPlano ent) {pc : Uint32} {path t : Cadena}
    (ht : Memoria.obtenerInstruccionPorPc ent pc path = some t) : EsCString t := by
  unfold Memoria.obtenerInstruccionPorPc at ht
  split at ht
  · rename_i archivo harchivo
    obtain ⟨l, hl, rfl⟩ := List.mem_map.mp (List.mem_of_getElem? ht)
    intro c hc
    refine ⟨Nat.pos_of_ne_zero fun h0 => ?_, ?_⟩
    · have hno := List.mem_takeWhile_imp (l := l) (p := fun c => decide (c ≠ '\x00')) hc
      exact of_decide_eq_true hno (Char.toNat_inj.mp h0)
    · exact htexto _ _ harchivo c (mem_of_mem_lineas hl ((List.takeWhile_sublist _).subset hc))
  · cases ht

/-- Memoria answers with packets that can be sent. -/
theorem atender_puede (hlineas : LineasCortas ent) (htexto : TextoPlano ent)
    (hq : q.origen = .cpu) (malloc : Malloc) :
    ∃ m' o, Memoria.atender ent m q = .ok (m', o) ∧
      ∀ r ∈ o.map (·.paquete), ∃ bytes, enviarACpu malloc r = some bytes := by
  have huna {r : Memoria.Respuesta} (h : ∃ bytes, enviarACpu malloc r = some bytes) :
      ∀ r' ∈ [(⟨.cpu, r⟩ : Memoria.Envio)].map (·.paquete), ∃ bytes,
        enviarACpu malloc r' = some bytes := by
    intro r' hr'
    rwa [List.mem_singleton.mp hr']
  cases q with
  | asignarMemoria d => cases hq
  | finalizarProceso pid => cases hq
  | hiloReady d => cases hq
  | finalizarHilo d => cases hq
  | obtenerContexto d =>
    show ∃ m' o, Memoria.devolverContextoEjecucion m d = .ok (m', o) ∧ _
    unfold Memoria.devolverContextoEjecucion
    split
    · exact ⟨_, _, rfl, huna (enviarBuffer_puede malloc (by decide) (enviarContextoCpu_idaYVuelta _)
        fun basura b hb => by rw [show b.size = 52 from llenarBuffer_size hb]; decide)⟩
    · exact ⟨_, _, rfl, by simp⟩
  | actualizarContexto d =>
    show ∃ m' o, Memoria.actualizarContextoDeEjecucion m d = .ok (m', o) ∧ _
    unfold Memoria.actualizarContextoDeEjecucion
    split
    · exact ⟨_, _, rfl, huna (enviarInt_puede malloc (by decide) _)⟩
    · exact ⟨_, _, rfl, by simp⟩
  | obtenerInstruccion d =>
    show ∃ m' o, Memoria.obtenerInstruccion ent m d = .ok (m', o) ∧ _
    unfold Memoria.obtenerInstruccion
    split
    · exact ⟨_, _, rfl, by simp⟩
    · split
      · exact ⟨_, _, rfl, by simp⟩
      · rename_i t ht
        have hcadena := esCString_linea htexto ht
        have hcorta := corta_obtenerInstruccionPorPc hlineas ht
        have hlong := (toNat_longitud_uint32 (n := t.length + 1) (by omega)).2
        refine ⟨_, _, rfl, huna ?_⟩
        show ∃ bytes, enviarInstruccion malloc t = some bytes
        unfold enviarInstruccion
        rw [dif_pos hcadena]
        exact enviarBuffer_puede malloc (by decide)
          (enviarInstruccion_idaYVuelta _ ⟨t, hcadena⟩ (show t.length + 5 < 2 ^ 31 by omega))
          fun basura b hb => by rw [llenarBuffer_size hb, hlong]; omega
  | writeMem d =>
    show ∃ m' o, Memoria.writeMem ent.toConfigMemoria m d = .ok (m', o) ∧ _
    unfold Memoria.writeMem
    split
    · exact ⟨_, _, rfl, huna (enviarInt_puede malloc (by decide) _)⟩
    · exact ⟨_, _, rfl, by simp⟩
  | readMem d =>
    show ∃ m' o, Memoria.readMem ent.toConfigMemoria m d = .ok (m', o) ∧ _
    unfold Memoria.readMem
    split
    · exact ⟨_, _, rfl, huna (enviarInt_puede malloc (by decide) _)⟩
    · exact ⟨_, _, rfl, by simp⟩

theorem enviarTodos_puede {α : Type} {enviar : α → Option (List Byte)} {rs : List α}
    (h : ∀ r ∈ rs, ∃ bytes, enviar r = some bytes) :
    ∃ bytes, enviarTodos enviar rs = some bytes := by
  induction rs with
  | nil => exact ⟨[], rfl⟩
  | cons r rs ih =>
    obtain ⟨b, hb⟩ := h r List.mem_cons_self
    obtain ⟨bs, hbs⟩ := ih fun r' hr' => h r' (List.mem_cons_of_mem _ hr')
    exact ⟨b ++ bs, by simp [enviarTodos, hb, hbs]⟩

/-- Memoria takes each request. -/
theorem atenderCpu_puede (hlineas : LineasCortas ent) (htexto : TextoPlano ent)
    (hne : s.peticiones ≠ []) (malloc : Malloc) :
    ∃ s' o, s.atenderCpu ent malloc = .ok (s', o) := by
  obtain ⟨q, resto, hq⟩ := List.exists_cons_of_ne_nil hne
  unfold CpuMemoria.atenderCpu
  rw [hq]
  dsimp only
  split
  · rename_i hcpu
    obtain ⟨m', o, hat, henvia⟩ := atender_puede (m := s.memoria) hlineas htexto hcpu malloc
    obtain ⟨bytes, hbytes⟩ := enviarTodos_puede henvia
    rw [hat]
    dsimp only
    rw [hbytes]
    exact ⟨_, _, rfl⟩
  · exact ⟨_, _, rfl⟩

end Respuestas

/-! ## The invariant -/

/-- What a thread waits for is on its way. -/
def Debe (s : CpuMemoria) (ls : List Llegada) : Fase → Prop
  | .espera => 0 < pendientes s ls
  | .esperaSyscall _ => 0 < enVuelo s ls
  | .lee _ _ => False
  | _ => True

/-- The invariant, when `ls` is on its way to the listener. -/
structure Atento (pre : List Paso) (s : CpuMemoria) (ls : List Llegada) : Prop where
  escuchando : s.escuchando = true
  incompleto : ∃ basura, esperarPaquete basura s.leido = none
  sinInterrupcion : s.controlKeyInterrupt ≠ 1
  unos : ∀ bit, .contextoActualizado bit ∈ ls → bit = 1
  debe : ∀ x ∈ s.ciclos, Debe s ls x.fase
  /-- Each `RECIBIR_TID` brings one thread. -/
  cuenta : s.ciclos.length + despachos s ls = pre.countP Paso.despacha

section Bytes

variable {s s' : CpuMemoria} {ls : List Llegada} {o : List Salida} {leido resto socket : List Byte}
  {b : Byte} {basura basura₀ : Basura} {q : Option TPaquete}

/-- The byte that completes a packet is its last one. -/
theorem Flujo.justo (h : Flujo ((leido ++ [b]) ++ resto) ls)
    (hno : esperarPaquete basura₀ leido = none)
    (hp : esperarPaquete basura (leido ++ [b]) = some (q, socket)) : socket = [] := by
  obtain ⟨ms, hbytes, -⟩ := h
  cases ms with
  | nil => simp at hbytes
  | cons m ms =>
    have hextra := esperarPaquete_append hp resto
    rw [hbytes, List.flatMap_cons, esperarPaquete_trama] at hextra
    obtain ⟨-, hsocket⟩ := Prod.mk.inj (Option.some.inj hextra)
    rw [List.flatMap_cons, hsocket, ← List.append_assoc] at hbytes
    have hleido : leido ++ [b] = m.trama ++ socket := List.append_cancel_right hbytes
    by_contra hne
    obtain ⟨antes, b', hb'⟩ := List.eq_nil_or_concat' socket |>.resolve_left hne
    rw [hb', ← List.append_assoc] at hleido
    have hantes : leido = m.trama ++ antes := (List.append_inj' hleido rfl).1
    rw [hantes, esperarPaquete_trama] at hno
    cases hno

/-- The listener has no whole packet left. -/
theorem escuchar_incompleto (hf : Flujo (s.leido ++ s.flujo) ls)
    (hinc : esperarPaquete basura₀ s.leido = none) (h : s.escuchar basura = .ok (s', o)) :
    (∃ basura, esperarPaquete basura s'.leido = none) := by
  unfold CpuMemoria.escuchar at h
  split at h
  · cases h
  · rename_i b flujo hb
    replace hf := hf.siguiente hb
    split at h
    · split at h
      · rename_i hp
        cases h
        exact ⟨basura, hp⟩
      · rename_i leido hp
        obtain ⟨p, l, ls', hq, -⟩ := hf.llega (by simp) hp
        cases hq
      · rename_i p leido hp
        obtain rfl := hf.justo hinc hp
        split at h
        · rename_i l _
          cases h
          rw [(recibir_flujo { s with flujo, leido := [] } l).1]
          exact ⟨basura, rfl⟩
        · cases h
    · cases h

/-- A reply that was not taken has a byte that was not taken. -/
theorem flujo_ne_nil (hf : Flujo (s.leido ++ s.flujo) ls)
    (hinc : esperarPaquete basura₀ s.leido = none) (hls : ls ≠ []) : s.flujo ≠ [] := by
  intro hnil
  obtain ⟨ms, hbytes, hms⟩ := hf
  rw [hnil, List.append_nil] at hbytes
  cases hms with
  | nil => exact hls rfl
  | cons _ _ =>
    rw [hbytes, List.flatMap_cons, esperarPaquete_trama] at hinc
    cases hinc

end Bytes

/-! ## Steps -/

/-- How far the phase is from the next `fetch` or the end. -/
def Fase.rango : Fase → Nat
  | .esperaSyscall _ => 10
  | .enviaSyscall _ => 9
  | .apaga => 8
  | .revisa => 7
  | .limpia => 6
  | .corta => 5
  | .inicio => 4
  | .espera => 3
  | .decodifica => 2
  | .ejecuta _ => 1
  | .lee _ _ | .fin => 0

/-- What is left of a thread: the lines after the PC, and the phases of this one. -/
def Ciclo.peso (x : Ciclo) : Nat :=
  if x.fase = .fin then 0 else (2 ^ 32 - x.contexto.PC.toNat) * 16 + x.fase.rango

section Avances

variable {ent : Memoria.Entorno} {pre : List Paso} {s s' : CpuMemoria} {ls ls' : List Llegada}
  {a : Paso} {o : List Salida} {k : Nat} {c c' : TContextoEjecucion} {fase fase' : Fase}

/-- The next phase, at the same line. -/
theorem peso_fase (h : fase'.rango < fase.rango) (hvive : fase ≠ .fin) :
    (Ciclo.mk c fase').peso < (Ciclo.mk c fase).peso := by
  unfold Ciclo.peso
  rw [if_neg hvive]
  split_ifs
  · dsimp only
    omega
  · dsimp only
    omega

/-- The next line. -/
theorem peso_linea {i : TInstruccion} (hpc : c'.PC = c.PC + 1) (hlt : c.PC.toNat + 1 < 2 ^ 32)
    (h : fase'.rango ≤ 10) : (Ciclo.mk c' fase').peso < (Ciclo.mk c (.ejecuta i)).peso := by
  have hmas : (c.PC + 1).toNat = c.PC.toNat + 1 := by
    rw [BitVec.toNat_add]
    exact Nat.mod_eq_of_lt hlt
  unfold Ciclo.peso
  rw [if_neg (show (Ciclo.mk c (.ejecuta i)).fase ≠ .fin by simp)]
  dsimp only
  rw [hpc, hmas]
  split_ifs
  · omega
  · omega

/-- What a step of a thread leaves of it. -/
structure GiraAtento (s : CpuMemoria) (ls : List Llegada) (k : Nat) (c : TContextoEjecucion)
    (fase : Fase) (s' : CpuMemoria) : Prop where
  escuchando : s'.escuchando = s.escuchando
  sinInterrupcion : s'.controlKeyInterrupt ≠ 1
  ciclos : ∃ x, s'.ciclos = s.ciclos.set k x ∧ Debe s' ls x.fase ∧ x.peso < (Ciclo.mk c fase).peso

theorem giro_atento (hg : Giro s k c fase s' o) (hv : s'.vivo = true)
    (hint : s.controlKeyInterrupt ≠ 1)
    (had : ∀ i, fase = .ejecuta i → (i.avanza = true ∧
      (execute s.parteActual s.PidHilo i c).esperaDato = false) ∧ c.PC.toNat + 1 < 2 ^ 32) :
    GiraAtento s ls k c fase s' := by
  cases hg with
  | pide hkey =>
    refine ⟨rfl, hint, _, rfl, ?_, peso_fase (by simp [Fase.rango]) (by simp)⟩
    show 0 < s.semInstruccion + (s.peticiones ++ [_]).countP pideInstruccion + _
    rw [List.countP_append]
    simp [pideInstruccion]
  | vuelve hkey => exact ⟨rfl, hint, _, rfl, trivial, peso_fase (by simp [Fase.rango]) (by simp)⟩
  | recibe hsem => exact ⟨rfl, hint, _, rfl, trivial, peso_fase (by simp [Fase.rango]) (by simp)⟩
  | decodifica t ht =>
    exact ⟨rfl, hint, _, rfl, trivial, peso_fase (by simp [Fase.rango]) (by simp)⟩
  | nulo hn => cases hv
  | sigue i c' envios he =>
    obtain ⟨⟨hav, -⟩, hlt⟩ := had i rfl
    have hpc := (execute_efecto (show (execute s.parteActual s.PidHilo i c).sigueCon = some c' by
      rw [he]; rfl)).1
    rw [if_pos hav] at hpc
    exact ⟨rfl, hint, _, rfl, trivial, peso_linea hpc hlt (by simp [Fase.rango])⟩
  | llama i c' he =>
    obtain ⟨-, hlt⟩ := had i rfl
    obtain rfl := execute_syscall he
    refine ⟨rfl, hint, _, rfl, ?_, peso_linea rfl hlt (by simp [Fase.rango])⟩
    show 0 < s.semSyscall + (s.peticiones ++ [_]).countP pideActualizar + _
    rw [List.countP_append]
    simp [pideActualizar]
  | lee i registro datos he =>
    obtain ⟨⟨-, hdato⟩, -⟩ := had i rfl
    rw [he] at hdato
    cases hdato
  | sale i envios he => cases hv
  | falla i f he => cases hv
  | pasa i hsem => exact ⟨rfl, hint, _, rfl, trivial, peso_fase (by simp [Fase.rango]) (by simp)⟩
  | envia i paquete hp =>
    exact ⟨rfl, hint, _, rfl, trivial, peso_fase (by simp [Fase.rango]) (by simp)⟩
  | cae i f hf => cases hv
  | apaga => exact ⟨rfl, hint, _, rfl, trivial, peso_fase (by simp [Fase.rango]) (by simp)⟩
  | interrumpe h => exact absurd h hint
  | revisa h => exact ⟨rfl, hint, _, rfl, trivial, peso_fase (by simp [Fase.rango]) (by simp)⟩
  | limpia => exact ⟨rfl, by simp [CpuMemoria.conCiclo], _, rfl, trivial,
      peso_fase (by simp [Fase.rango]) (by simp)⟩
  | corta =>
    refine ⟨rfl, hint, _, rfl, ?_, peso_fase ?_ (by simp)⟩
    · dsimp only
      split_ifs
      · trivial
      · trivial
    · split_ifs
      · decide
      · decide

/-- A step of a thread in its turn. -/
theorem Atento.gira (hi : Atento pre s ls) (ht : Turno s ls) (hk : s.ciclos[k]? = some ⟨c, fase⟩)
    (hg : Giro s k c fase s' o) (hv : s'.vivo = true) (h : GiraAtento s ls k c fase s') :
    Atento (pre ++ [.ciclo k]) s' ls := by
  have hgira := giro_gira hg hv
  obtain ⟨x, hciclos, hdebe, -⟩ := h.ciclos
  refine ⟨h.escuchando.trans hi.escuchando, ?_, h.sinInterrupcion, hi.unos, fun y hy => ?_, ?_⟩
  · rw [(giro_flujo hg).1]
    exact hi.incompleto
  · rcases mem_set_solo ht.uno hk hgira.vivia (hciclos ▸ hy) with rfl | ⟨-, hfin⟩
    · exact hdebe
    · rw [hfin]
      trivial
  · rw [hciclos, List.length_set, hgira.despachos_eq, List.countP_append]
    exact hi.cuenta

/-- A step that brings nothing to the threads, and takes nothing from them. -/
theorem Atento.mono (hi : Atento pre s ls) (hesc : s'.escuchando = s.escuchando)
    (hinc : ∃ basura, esperarPaquete basura s'.leido = none)
    (hint : s'.controlKeyInterrupt = s.controlKeyInterrupt)
    (hunos : ∀ bit, .contextoActualizado bit ∈ ls' → bit = 1)
    (hciclos : ∀ x ∈ s'.ciclos, x ∈ s.ciclos ∨ x.fase = .inicio)
    (hpend : pendientes s' ls' = pendientes s ls) (hvuelo : enVuelo s' ls' = enVuelo s ls)
    (hcuenta : s'.ciclos.length + despachos s' ls' =
      s.ciclos.length + despachos s ls + if a.despacha then 1 else 0) :
    Atento (pre ++ [a]) s' ls' := by
  refine ⟨hesc.trans hi.escuchando, hinc, hint ▸ hi.sinInterrupcion, hunos, fun x hx => ?_, ?_⟩
  · rcases hciclos x hx with hx | hx
    · have hdebe := hi.debe x hx
      generalize x.fase = fase at hdebe ⊢
      unfold Debe at hdebe ⊢
      rw [hpend, hvuelo]
      exact hdebe
    · rw [hx]
      trivial
  · have hcuenta' := hi.cuenta
    rw [List.countP_append, List.countP_singleton]
    omega

/-- The listener takes a reply. -/
theorem Atento.recibir {l : Llegada} (hi : Atento pre s (l :: ls))
    (hinc : ∃ basura, esperarPaquete basura s.leido = none) (basura : Basura) :
    Atento (pre ++ [.escucha basura]) (s.recibir l) ls := by
  have hunos : ∀ bit, .contextoActualizado bit ∈ ls → bit = 1 :=
    fun bit hbit => hi.unos bit (List.mem_cons_of_mem _ hbit)
  cases l with
  | contexto c =>
    refine hi.mono rfl hinc rfl hunos (fun x hx => ?_) ?_ ?_ ?_
    · exact (mem_recibirContexto hx).symm.imp id fun h => by rw [h]
    · simp [pendientes, CpuMemoria.recibir, traeInstruccion]
    · simp [enVuelo, CpuMemoria.recibir, traeConfirmacion]
    · simp [despachos, CpuMemoria.recibir, List.countP_cons, traeContexto, Paso.despacha]
      omega
  | instruccion t =>
    refine hi.mono rfl hinc rfl hunos (fun x hx => .inl hx) ?_ ?_ ?_
    · simp [pendientes, CpuMemoria.recibir, List.countP_cons, traeInstruccion]
      omega
    · simp [enVuelo, CpuMemoria.recibir, traeConfirmacion]
    · simp [despachos, CpuMemoria.recibir, traeContexto, Paso.despacha]
  | contextoActualizado bit =>
    obtain rfl := hi.unos bit List.mem_cons_self
    refine hi.mono rfl hinc rfl hunos (fun x hx => .inl hx) ?_ ?_ ?_
    · simp [pendientes, CpuMemoria.recibir, traeInstruccion]
    · simp [enVuelo, CpuMemoria.recibir, List.countP_cons, traeConfirmacion]
      omega
    · simp [despachos, CpuMemoria.recibir, traeContexto, Paso.despacha]
  | nada =>
    refine hi.mono rfl hinc rfl hunos (fun x hx => .inl hx) ?_ ?_ ?_
    · simp [pendientes, CpuMemoria.recibir, traeInstruccion]
    · simp [enVuelo, CpuMemoria.recibir, traeConfirmacion]
    · simp [despachos, CpuMemoria.recibir, traeContexto, Paso.despacha]

/-- Memoria answers each request that a thread waits for with one packet. -/
theorem Responde.cuenta {m m' : Memoria.Estado} {q : Peticion} {rs : List Llegada}
    (h : Responde ent m q m' rs) (hrs : esEsperada q = true → rs ≠ []) :
    rs.countP traeInstruccion = [q].countP pideInstruccion ∧
      rs.countP traeConfirmacion = [q].countP pideActualizar ∧
      rs.countP traeContexto = [q].countP pideContexto ∧
      ∀ bit, .contextoActualizado bit ∈ rs → bit = 1 := by
  cases h with
  | calla q =>
    have hno : esEsperada q = false := Bool.eq_false_iff.mpr fun hsi => hrs hsi rfl
    obtain ⟨hpide, hactualiza⟩ := Bool.or_eq_false_iff.mp hno
    obtain ⟨hcontexto, hinstruccion⟩ := Bool.or_eq_false_iff.mp hpide
    simp [hcontexto, hinstruccion, hactualiza]
  | _ =>
    simp [traeInstruccion, traeConfirmacion, traeContexto, pideInstruccion, pideActualizar,
      pideContexto]

/-- Memoria answers a request. -/
theorem Atento.responde {malloc : Malloc} {q : Peticion} {resto : List Peticion}
    {m' : Memoria.Estado} {flujo : List Byte} {rs : List Llegada} (hi : Atento pre s ls)
    (hq : s.peticiones = q :: resto) (hr : Responde ent s.memoria q m' rs)
    (hrs : esEsperada q = true → rs ≠ []) :
    Atento (pre ++ [.memoriaCpu malloc]) { s with memoria := m', peticiones := resto, flujo }
      (ls ++ rs) := by
  obtain ⟨hinstruccion, hactualiza, hcontexto, hunos⟩ := hr.cuenta hrs
  have hcuenta (p : Peticion → Bool) : s.peticiones.countP p = [q].countP p + resto.countP p := by
    rw [hq, ← List.singleton_append, List.countP_append]
  refine hi.mono rfl hi.incompleto rfl (fun bit hbit => ?_) (fun x hx => .inl hx) ?_ ?_ ?_
  · rcases List.mem_append.mp hbit with hbit | hbit
    · exact hi.unos bit hbit
    · exact hunos bit hbit
  · unfold pendientes
    rw [hcuenta, List.countP_append]
    dsimp only
    omega
  · unfold enVuelo
    rw [hcuenta, List.countP_append]
    dsimp only
    omega
  · unfold despachos
    rw [hcuenta, List.countP_append]
    simp only [Paso.despacha, Bool.false_eq_true, if_false]
    omega

/-- What memoria does with the first request. -/
theorem atenderCpu_avance {malloc : Malloc} (hlineas : LineasCortas ent)
    (hf : Flujo (s.leido ++ s.flujo) ls) (hc : Contesta ent s (.memoriaCpu malloc))
    (h : s.atenderCpu ent malloc = .ok (s', o)) :
    ∃ q resto m' flujo rs, s.peticiones = q :: resto ∧ Responde ent s.memoria q m' rs ∧
      (esEsperada q = true → rs ≠ []) ∧
      s' = { s with memoria := m', peticiones := resto, flujo } ∧
      Flujo (s.leido ++ flujo) (ls ++ rs) := by
  unfold CpuMemoria.atenderCpu at h
  split at h
  · cases h
  · rename_i q resto hq
    replace hc : esEsperada q = true → respuestas ent s.memoria q ≠ [] :=
      hc q (by rw [hq]; rfl)
    split at h
    · rename_i hcpu
      split at h
      · cases h
      · rename_i m' o' hat
        obtain ⟨hr, hcorta⟩ := atender_responde hlineas hcpu hat
        split at h
        · rename_i bytes hbytes
          cases h
          refine ⟨q, resto, m', _, _, hq, hr, fun hsi hnil => hc hsi ?_, rfl, ?_⟩
          · unfold respuestas
            rw [hat]
            exact List.map_eq_nil_iff.mp (List.map_eq_nil_iff.mp hnil)
          · rw [← List.append_assoc]
            exact hf.agrega hbytes hcorta
        · cases h
    · rename_i hno
      cases h
      refine ⟨q, resto, s.memoria, s.flujo, [], hq, .calla q, fun hsi => ?_, rfl, ?_⟩
      · cases q with
        | obtenerContexto d => exact absurd rfl hno
        | obtenerInstruccion d => exact absurd rfl hno
        | actualizarContexto d => exact absurd rfl hno
        | _ => cases hsi
      · rwa [List.append_nil]

/-- A thread executes a line of its program, and the CPU gets past it. -/
theorem Adelanta.ejecuta {i : TInstruccion} (h : Adelanta s (.ciclo k))
    (hlargo : ∀ path, (lineasDe ent path).length < 2 ^ 32) (hl : Lineas ent pre s ls)
    (hk : s.ciclos[k]? = some ⟨c, .ejecuta i⟩) :
    (i.avanza = true ∧ (execute s.parteActual s.PidHilo i c).esperaDato = false) ∧
      c.PC.toNat + 1 < 2 ^ 32 := by
  obtain ⟨hav, hdato⟩ := Bool.and_eq_true_iff.mp (h _ hk)
  refine ⟨⟨hav, by simpa using hdato⟩, ?_⟩
  obtain ⟨t, ⟨path, -, ht⟩, -⟩ : ∃ t, EsLinea ent pre c t ∧ i = decode t c.pid c.TID :=
    hl.suya _ (List.mem_of_getElem? hk)
  rw [obtenerInstruccionPorPc_lineasDe] at ht
  exact Nat.lt_of_le_of_lt (List.getElem?_eq_some_iff.mp ht).1 (hlargo path)

/-- A thread in its turn. -/
theorem Atento.giraAtento (hi : Atento pre s ls)
    (hlargo : ∀ path, (lineasDe ent path).length < 2 ^ 32) (hl : Lineas ent pre s ls)
    (hn : Normal ent s (.ciclo k)) (hpaso : s.paso ent (.ciclo k) = .ok (s', o))
    (hv : s'.vivo = true) :
    ∃ c fase, s.ciclos[k]? = some ⟨c, fase⟩ ∧ Giro s k c fase s' o ∧
      GiraAtento s ls k c fase s' := by
  obtain ⟨c, fase, hk, hg⟩ := girar_casos (enCpu_ok hpaso).2
  refine ⟨c, fase, hk, hg, giro_atento hg hv hi.sinInterrupcion fun i hfase => ?_⟩
  exact hn.adelanta.ejecuta hlargo hl (hfase ▸ hk)

/-- **Step.** What a thread waits for stays on its way. -/
theorem Atento.avance (hi : Atento pre s ls) (hlineas : LineasCortas ent)
    (hlargo : ∀ path, (lineasDe ent path).length < 2 ^ 32) (ht : Turno s ls)
    (hl : Lineas ent pre s ls) (hf : Flujo (s.leido ++ s.flujo) ls) (hn : Normal ent s a)
    (hpaso : s.paso ent a = .ok (s', o)) (hv : s'.vivo = true) :
    ∃ ls', Avance ent s ls a s' ls' ∧ Flujo (s'.leido ++ s'.flujo) ls' ∧
      Atento (pre ++ [a]) s' ls' := by
  by_cases ha : ∃ malloc, a = .memoriaCpu malloc
  · obtain ⟨malloc, rfl⟩ := ha
    obtain ⟨q, resto, m', flujo, rs, hq, hr, hrs, rfl, hf'⟩ :=
      atenderCpu_avance hlineas hf hn.contesta hpaso
    exact ⟨ls ++ rs, .responde malloc q resto m' flujo rs hq hr, hf', hi.responde hq hr hrs⟩
  · obtain ⟨ls', hav, hf'⟩ := paso_avance hlineas hn.aUno.1.2 hf hpaso hv
    refine ⟨ls', hav, hf', ?_⟩
    have hviejos : ∀ x ∈ s.ciclos, x ∈ s.ciclos ∨ x.fase = .inicio := fun x hx => .inl hx
    cases hav with
    | recibirTid pid tid =>
      refine hi.mono rfl hi.incompleto rfl hi.unos hviejos ?_ ?_ ?_
      · exact pendientes_agrega rfl rfl (by simp [pideInstruccion])
      · exact enVuelo_agrega rfl rfl (by simp [pideActualizar])
      · show s.ciclos.length + ((s.peticiones ++ [_]).countP pideContexto + _) = _
        rw [List.countP_append]
        simp [despachos, pideContexto, Paso.despacha]
        omega
    | interrupcion => exact absurd rfl hn.sinInterrupcion
    | ciclo k c fase s' o' hk _ =>
      obtain ⟨c', fase', hk', hg, hgira⟩ := hi.giraAtento hlargo hl hn hpaso hv
      exact hi.gira ht hk' hg hv hgira
    | byte basura flujo leido =>
      obtain ⟨_, hinc⟩ := hi.incompleto
      have hinc' := escuchar_incompleto hf hinc (enCpu_ok hpaso).2
      exact hi.mono rfl hinc' rfl hi.unos hviejos rfl rfl rfl
    | llega basura flujo leido l ls' hls _ =>
      subst hls
      obtain ⟨_, hinc⟩ := hi.incompleto
      have hinc' := escuchar_incompleto hf hinc (enCpu_ok hpaso).2
      rw [(recibir_flujo { s with flujo, leido } l).1] at hinc'
      have hi' : Atento pre { s with flujo, leido } (l :: ls') :=
        ⟨hi.escuchando, hinc', hi.sinInterrupcion, hi.unos, hi.debe, hi.cuenta⟩
      exact hi'.recibir hinc' basura
    | responde malloc q resto m' flujo rs hq hr => exact absurd ⟨malloc, rfl⟩ ha
    | kernel q m' o' hq hat =>
      exact hi.mono rfl hi.incompleto rfl hi.unos hviejos rfl rfl rfl

end Avances

/-! ## Progress -/

section Progreso

variable {ent : Memoria.Entorno} {pre : List Paso} {s : CpuMemoria} {ls : List Llegada}

/-- The step is possible, in its turn. -/
def Posible (ent : Memoria.Entorno) (s : CpuMemoria) (a : Paso) : Prop :=
  DeAUno s a ∧ ∃ s' o, s.paso ent a = .ok (s', o)

/-- Some step of the CPU, or of memoria for it, is possible, whatever `malloc` returns. -/
def Puede (ent : Memoria.Entorno) (s : CpuMemoria) : Prop :=
  ∀ malloc basura, (∃ k, Posible ent s (.ciclo k)) ∨ Posible ent s (.escucha basura) ∨
    Posible ent s (.memoriaCpu malloc)

/-- A byte that completes a context is of one that is on its way. -/
theorem despachos_empieza {basura : Basura} (hf : Flujo (s.leido ++ s.flujo) ls)
    (h : s.empieza basura = true) : 0 < despachos s ls := by
  unfold CpuMemoria.empieza at h
  split at h
  · cases h
  · rename_i b flujo hb
    replace hf := hf.siguiente hb
    split at h
    · rename_i p leido hp
      obtain ⟨p', l, ls', hq, hl, rfl, -⟩ := hf.llega (by simp) hp
      cases hq
      obtain ⟨c, rfl⟩ : ∃ c, l = .contexto c := by
        unfold leerLlegada at hl
        rw [if_pos (of_decide_eq_true h)] at hl
        obtain ⟨c, -, hc⟩ := Option.map_eq_some_iff.mp hl
        exact ⟨c, hc.symm⟩
      unfold despachos
      rw [List.countP_cons_of_pos rfl]
      omega
    · cases h

/-- A request or a byte that was not taken. -/
theorem Atento.puedeRed (hi : Atento pre s ls) (hlineas : LineasCortas ent)
    (htexto : TextoPlano ent) (hf : Flujo (s.leido ++ s.flujo) ls) (hv : s.vivo = true)
    (hfin : 0 < despachos s ls → ∀ x ∈ s.ciclos, x.fase = .fin)
    (hne : s.peticiones = [] → s.flujo ≠ []) : Puede ent s := by
  intro malloc basura
  by_cases hp : s.peticiones = []
  · obtain ⟨s', o, hpaso⟩ := escuchar_puede hf hi.escuchando (hne hp) basura
    have hturno : DeAUno s (.escucha basura) :=
      ⟨⟨fun hsi => hfin (despachos_empieza hf hsi), rfl⟩, trivial, trivial⟩
    refine .inr (.inl ⟨hturno, s', o, ?_⟩)
    show s.enCpu _ = _
    rw [CpuMemoria.enCpu, if_pos hv]
    exact hpaso
  · have hturno : DeAUno s (.memoriaCpu malloc) := ⟨⟨trivial, rfl⟩, trivial, trivial⟩
    exact .inr (.inr ⟨hturno, atenderCpu_puede hlineas htexto hp malloc⟩)

/-- A thread that does not wait. -/
theorem Atento.puedeCiclo (hi : Atento pre s ls) (hv : s.vivo = true) {k : Nat}
    {c : TContextoEjecucion} {fase : Fase} (hk : s.ciclos[k]? = some ⟨c, fase⟩)
    (h : fase.aguarda s = false) : Puede ent s := by
  intro malloc basura
  obtain ⟨s', o, hpaso⟩ := girar_puede hk h
  have hturno : DeAUno s (.ciclo k) := ⟨⟨trivial, rfl⟩, trivial, fun _ => hi.sinInterrupcion⟩
  refine .inl ⟨k, hturno, s', o, ?_⟩
  show s.enCpu _ = _
  rw [CpuMemoria.enCpu, if_pos hv]
  exact hpaso

/-- A thread that waits has a request or a reply on its way, and no context is. -/
theorem Atento.aguarda {h : Historia} (hi : Atento pre s ls) (hg : Guarda h s ls) {x : Ciclo}
    (hx : x ∈ s.ciclos) (hvive : x.fase ≠ .fin) (haguarda : x.fase.aguarda s = true) :
    despachos s ls = 0 ∧ (s.peticiones = [] → ls ≠ []) := by
  have hdebe := hi.debe x hx
  have henvio : x.fase.envio s.controlKey = false → despachos s ls = 0 := fun hno => by
    by_contra hpos
    have hsi := hg.enviaron (Nat.pos_of_ne_zero hpos) x hx
    rw [hno] at hsi
    cases hsi
  cases hfase : x.fase with
  | espera =>
    rw [hfase] at hdebe haguarda henvio
    have hsem : s.semInstruccion = 0 := of_decide_eq_true haguarda
    refine ⟨henvio rfl, fun hp hls => ?_⟩
    subst hls
    replace hdebe : 0 < s.semInstruccion + s.peticiones.countP pideInstruccion + 0 := hdebe
    rw [hsem, hp] at hdebe
    cases hdebe
  | esperaSyscall i =>
    rw [hfase] at hdebe haguarda henvio
    have hsem : s.semSyscall = 0 := of_decide_eq_true haguarda
    refine ⟨henvio rfl, fun hp hls => ?_⟩
    subst hls
    replace hdebe : 0 < s.semSyscall + s.peticiones.countP pideActualizar + 0 := hdebe
    rw [hsem, hp] at hdebe
    cases hdebe
  | lee i registro =>
    rw [hfase] at hdebe
    exact hdebe.elim
  | fin => exact absurd hfase hvive
  | _ =>
    rw [hfase] at haguarda
    cases haguarda

/-- **Progress.** Unless all is done, some step is possible. -/
theorem Atento.puede {h : Historia} (hi : Atento pre s ls) (hlineas : LineasCortas ent)
    (htexto : TextoPlano ent) (hf : Flujo (s.leido ++ s.flujo) ls) (hg : Guarda h s ls)
    (hv : s.vivo = true) (hno : ¬ s.Quieta) : Puede ent s := by
  by_cases hfin : ∀ x ∈ s.ciclos, x.fase = .fin
  · exact hi.puedeRed hlineas htexto hf hv (fun _ => hfin) fun hp hflujo => hno ⟨hfin, hp, hflujo⟩
  · push Not at hfin
    obtain ⟨x, hx, hvive⟩ := hfin
    cases haguarda : x.fase.aguarda s with
    | false =>
      obtain ⟨k, hk⟩ := List.mem_iff_getElem?.mp hx
      exact hi.puedeCiclo hv hk haguarda
    | true =>
      obtain ⟨hcero, hls⟩ := hi.aguarda hg hx hvive haguarda
      obtain ⟨_, hinc⟩ := hi.incompleto
      exact hi.puedeRed hlineas htexto hf hv (fun hpos => absurd hcero hpos.ne')
        fun hp => flujo_ne_nil hf hinc (hls hp)

end Progreso

/-! ## Termination -/

/-- What is left of the threads. -/
def CpuMemoria.peso (s : CpuMemoria) : Nat := (s.ciclos.map Ciclo.peso).sum

/-- What each step of the CPU, and of memoria for it, makes less, after `n` packets
`RECIBIR_TID`: the contexts that did not arrive, the lines that the threads did not execute, the
requests, and the bytes. -/
def medida (n : Nat) (s : CpuMemoria) : ℕ ×ₗ ℕ ×ₗ ℕ ×ₗ ℕ :=
  toLex (n - s.ciclos.length, toLex (s.peso, toLex (s.peticiones.length, s.flujo.length)))

section Terminacion

variable {ent : Memoria.Entorno} {pre : List Paso} {s s' : CpuMemoria} {ls : List Llegada}
  {a : Paso} {o : List Salida} {n k : Nat} {c : TContextoEjecucion} {fase : Fase}

theorem medida_contexto (h : s.ciclos.length < s'.ciclos.length) (hn : s'.ciclos.length ≤ n) :
    medida n s' < medida n s := by
  rw [medida, medida, Prod.Lex.toLex_lt_toLex]
  exact .inl (by dsimp only; omega)

theorem medida_peso (hlen : s'.ciclos.length = s.ciclos.length) (h : s'.peso < s.peso) :
    medida n s' < medida n s := by
  rw [medida, medida, hlen, Prod.Lex.toLex_lt_toLex, Prod.Lex.toLex_lt_toLex]
  exact .inr ⟨rfl, .inl h⟩

theorem medida_red (hciclos : s'.ciclos = s.ciclos)
    (h : s'.peticiones.length < s.peticiones.length ∨
      s'.peticiones = s.peticiones ∧ s'.flujo.length < s.flujo.length) :
    medida n s' < medida n s := by
  rw [medida, medida, CpuMemoria.peso, CpuMemoria.peso, hciclos, Prod.Lex.toLex_lt_toLex,
    Prod.Lex.toLex_lt_toLex, Prod.Lex.toLex_lt_toLex]
  refine .inr ⟨rfl, .inr ⟨rfl, ?_⟩⟩
  rcases h with h | ⟨hp, hf⟩
  · exact .inl h
  · exact .inr ⟨congrArg List.length hp, hf⟩

/-- A thread that goes on. -/
theorem GiraAtento.medida_lt (h : GiraAtento s ls k c fase s')
    (hk : s.ciclos[k]? = some ⟨c, fase⟩) : medida n s' < medida n s := by
  obtain ⟨x, hciclos, -, hpeso⟩ := h.ciclos
  refine medida_peso (by rw [hciclos, List.length_set]) ?_
  obtain ⟨antes, despues, hl, rfl⟩ := exists_split hk
  rw [CpuMemoria.peso, CpuMemoria.peso, hciclos, hl, set_split]
  simp only [List.map_append, List.map_cons, List.sum_append, List.sum_cons]
  omega

/-- The listener takes a packet. -/
theorem recibir_medida {l : Llegada} {b : Byte} (hb : s.flujo = b :: s'.flujo)
    (hciclos : s'.ciclos = s.ciclos) (hp : s'.peticiones = s.peticiones)
    (hn : (s'.recibir l).ciclos.length ≤ n) : medida n (s'.recibir l) < medida n s := by
  have hmenos : s'.flujo.length < s.flujo.length := by
    rw [hb]
    exact Nat.lt_succ_self _
  cases l with
  | contexto c =>
    refine medida_contexto ?_ hn
    show s.ciclos.length < (s'.ciclos ++ [_]).length
    rw [hciclos, List.length_append]
    exact Nat.lt_succ_self _
  | instruccion t => exact medida_red hciclos (.inr ⟨hp, hmenos⟩)
  | contextoActualizado bit =>
    unfold CpuMemoria.recibir
    dsimp only
    split
    · exact medida_red hciclos (.inr ⟨hp, hmenos⟩)
    · exact medida_red hciclos (.inr ⟨hp, hmenos⟩)
  | nada => exact medida_red hciclos (.inr ⟨hp, hmenos⟩)

/-- **Step.** -/
theorem Atento.medida_lt (hi : Atento pre s ls)
    (hlargo : ∀ path, (lineasDe ent path).length < 2 ^ 32) (hl : Lineas ent pre s ls)
    (hn : Normal ent s a) (ha : a.interno = true) (hpaso : s.paso ent a = .ok (s', o))
    (hv : s'.vivo = true) {ls' : List Llegada} (hav : Avance ent s ls a s' ls')
    (hlen : s'.ciclos.length ≤ n) : medida n s' < medida n s := by
  cases hav with
  | recibirTid pid tid => cases ha
  | interrupcion => cases ha
  | ciclo k c fase s' o' hk _ =>
    obtain ⟨c', fase', hk', -, hgira⟩ := hi.giraAtento hlargo hl hn hpaso hv
    exact hgira.medida_lt hk'
  | byte basura flujo leido =>
    obtain ⟨b, hb⟩ := escuchar_casos (enCpu_ok hpaso).2
    refine medida_red rfl (.inr ⟨rfl, ?_⟩)
    rw [hb]
    exact Nat.lt_succ_self _
  | llega basura flujo leido l ls' hls _ =>
    obtain ⟨b, hb⟩ := escuchar_casos (enCpu_ok hpaso).2
    rw [(recibir_flujo { s with flujo, leido } l).2] at hb
    exact recibir_medida hb rfl rfl hlen
  | responde malloc q resto m' flujo rs hq hr =>
    refine medida_red rfl (.inl ?_)
    rw [hq]
    exact Nat.lt_succ_self _
  | kernel q m' o' hq hat => cases ha

end Terminacion

/-! ## Runs -/

/-- One of the steps of the CPU, or of memoria for it, in which nothing gets stuck. -/
def Interno (ent : Memoria.Entorno) (s s' : CpuMemoria) : Prop :=
  ∃ a o, a.interno = true ∧ Normal ent s a ∧ s.paso ent a = .ok (s', o) ∧ s'.vivo = true

/-- The invariants of a CPU that is on, after the run `pre`. -/
structure Marcha (ent : Memoria.Entorno) (m : Memoria.Estado) (pre : List Paso) (s : CpuMemoria) :
    Prop where
  alcanza : Reaches (CpuMemoria.paso ent) (.nueva m) pre s
  vivo : s.vivo = true
  invariante : ∃ ls, Flujo (s.leido ++ s.flujo) ls ∧ Turno s ls ∧ Lineas ent pre s ls ∧
    Guarda (historia ent (.nueva m) pre) s ls ∧ Atento pre s ls

section Corridas

variable {ent : Memoria.Entorno} {m : Memoria.Estado} {as pre : List Paso} {o : List Salida}
  {s s' : CpuMemoria} {a : Paso}

theorem atento_nueva (m : Memoria.Estado) : Atento [] (.nueva m) [] := by
  refine ⟨rfl, ⟨⟨0, 0, 0, fun _ => 0⟩, rfl⟩, by simp [CpuMemoria.nueva], fun bit hbit => ?_,
    fun x hx => ?_, rfl⟩
  · cases hbit
  · cases hx

theorem marcha_nueva (hcs : m.listaContextos = []) : Marcha ent m [] (.nueva m) :=
  ⟨reaches_nil.mpr rfl, rfl, [], .vacio, turno_nueva m, lineas_nueva hcs, guarda_nueva m,
    atento_nueva m⟩

/-- **Step.** A step also makes the measure less, if it is one of the CPU or of memoria for it. -/
theorem Marcha.paso (h : Marcha ent m pre s) (hlineas : LineasCortas ent)
    (hlargo : ∀ path, (lineasDe ent path).length < 2 ^ 32) (hn : Normal ent s a)
    (hpaso : s.paso ent a = .ok (s', o)) (hv : s'.vivo = true) :
    Marcha ent m (pre ++ [a]) s' ∧ (a.interno = true →
      medida (pre.countP Paso.despacha) s' < medida (pre.countP Paso.despacha) s) := by
  obtain ⟨hs, -, ls, hf, ht, hl, hg, hi⟩ := h
  obtain ⟨ls', hav, hf', hi'⟩ := hi.avance hlineas hlargo ht hl hf hn hpaso hv
  obtain ⟨⟨hu, -⟩, hdespacho, hcheck⟩ := hn.aUno
  have hg' : Guarda (historia ent (.nueva m) (pre ++ [a])) s' ls' := by
    have hh : historia ent (.nueva m) (pre ++ [a]) =
        Historia.paso s a s' (historia ent (.nueva m) pre) := history_snoc hs hpaso
    rw [hh]
    exact hg.avance ht hu hdespacho hcheck hav hv
  refine ⟨⟨hs.snoc hpaso, hv, ls', hf', ht.avance hf hu hav hv, hl.avance ht hav hv, hg', hi'⟩,
    fun ha => hi.medida_lt hlargo hl hn ha hpaso hv hav ?_⟩
  have hcuenta := hi'.cuenta
  have hno : a.despacha = false := by
    cases a with
    | recibirTid pid tid => cases ha
    | _ => rfl
  rw [List.countP_append, List.countP_singleton, hno, if_neg Bool.false_ne_true] at hcuenta
  omega

theorem marcha_corrida (hlineas : LineasCortas ent)
    (hlargo : ∀ path, (lineasDe ent path).length < 2 ^ 32) (hcs : m.listaContextos = [])
    (h : EveryStep (CpuMemoria.paso ent) (.nueva m) as fun _ => Normal ent)
    (hr : Reaches (CpuMemoria.paso ent) (.nueva m) as s) (hv : s.vivo = true) :
    Marcha ent m as s := by
  have hI : s.vivo = true → Marcha ent m as s :=
    hr.invariant (I := fun pre s => s.vivo = true → Marcha ent m pre s) h
      (fun _ => marcha_nueva hcs) fun pre s₁ a s₂ o _ _ hI hn hpaso hv₂ =>
        ((hI (paso_vivo hpaso hv₂)).paso hlineas hlargo hn hpaso hv₂).1
  exact hI hv

/-- Some step is possible until all is done, and then each dispatch had its turn. -/
theorem Marcha.puede (h : Marcha ent m pre s) (hlineas : LineasCortas ent)
    (htexto : TextoPlano ent) :
    (¬ s.Quieta → Puede ent s) ∧ (s.Quieta → s.ciclos.length = pre.countP Paso.despacha) := by
  obtain ⟨-, hv, ls, hf, -, -, hg, hi⟩ := h
  refine ⟨hi.puede hlineas htexto hf hg hv, fun ⟨_, hp, hflujo⟩ => ?_⟩
  obtain ⟨_, hinc⟩ := hi.incompleto
  have hls : ls = [] := by
    by_contra hne
    exact flujo_ne_nil hf hinc hne hflujo
  rw [← hi.cuenta, despachos, hp, hls]
  rfl

/-- The steps of the CPU, and of memoria for it, come to an end. -/
theorem Marcha.termina (h : Marcha ent m pre s) (hlineas : LineasCortas ent)
    (hlargo : ∀ path, (lineasDe ent path).length < 2 ^ 32) {t : ℕ → CpuMemoria} (h0 : t 0 = s)
    (ht : ∀ n, Interno ent (t n) (t (n + 1))) : False := by
  have hmarcha (n : ℕ) : ∃ pre', Marcha ent m pre' (t n) ∧
      pre'.countP Paso.despacha = pre.countP Paso.despacha := by
    induction n with
    | zero => exact ⟨pre, h0 ▸ h, rfl⟩
    | succ n ih =>
      obtain ⟨pre', hpre', hcuenta⟩ := ih
      obtain ⟨a, o, ha, hn, hpaso, hv⟩ := ht n
      refine ⟨pre' ++ [a], (hpre'.paso hlineas hlargo hn hpaso hv).1, ?_⟩
      rw [List.countP_append, hcuenta]
      cases a with
      | recibirTid pid tid => cases ha
      | _ => rfl
  obtain ⟨n, hn⟩ := WellFounded.not_rel_apply_succ (r := (· < ·))
    fun n => medida (pre.countP Paso.despacha) (t n)
  obtain ⟨pre', hpre', hcuenta⟩ := hmarcha n
  obtain ⟨a, o, ha, hnormal, hpaso, hv⟩ := ht n
  have hmenos := (hpre'.paso hlineas hlargo hnormal hpaso hv).2 ha
  rw [hcuenta] at hmenos
  exact hn hmenos

/-- **Each turn ends.** In a run of the CPU and memoria from their start with one dispatched thread
at a time, in which memoria answers what the turns wait for and the CPU gets past the lines that it
executes: until all threads have ended some step of the CPU or of memoria is possible, these steps
cannot go on for ever, and when none is left each `RECIBIR_TID` has started one thread. -/
theorem turno_termina (basura : Nat → Uint32) (memoria : Nat → Byte) (hlineas : LineasCortas ent)
    (htexto : TextoPlano ent) (hlargo : ∀ path, (lineasDe ent path).length < 2 ^ 32)
    (h : EveryStep (CpuMemoria.paso ent)
      (.nueva (Memoria.estadoInicial ent.toConfigMemoria basura memoria)) as fun _ => Normal ent)
    (hr : Reaches (CpuMemoria.paso ent)
      (.nueva (Memoria.estadoInicial ent.toConfigMemoria basura memoria)) as s)
    (hv : s.vivo = true) :
    (¬ s.Quieta → Puede ent s) ∧ (s.Quieta → s.ciclos.length = as.countP Paso.despacha) ∧
      ¬ ∃ t : ℕ → CpuMemoria, t 0 = s ∧ ∀ n, Interno ent (t n) (t (n + 1)) := by
  have hmarcha := marcha_corrida hlineas hlargo rfl h hr hv
  obtain ⟨hpuede, hquieta⟩ := hmarcha.puede hlineas htexto
  exact ⟨hpuede, hquieta, fun ⟨t, h0, ht⟩ => hmarcha.termina hlineas hlargo h0 ht⟩

end Corridas

theorem textoPlano_entornoCpu {archivo : Cadena} (h : ∀ c ∈ archivo, c.toNat < 256) :
    TextoPlano (entornoCpu archivo) := by
  rintro path _ ⟨⟩
  exact h

/-- After the turns of two threads, one of them is dispatched again. -/
theorem turno_termina_alternada :
    let ent := entornoCpu "IO 1\nIO 2".toList
    ∃ s, Reaches (CpuMemoria.paso ent) cpuCero (corridaAlternada ++ [.recibirTid 1 1]) s ∧
      s.ciclos.length = 3 ∧ Puede ent s ∧
      ¬ ∃ t : ℕ → CpuMemoria, t 0 = s ∧ ∀ n, Interno ent (t n) (t (n + 1)) := by
  intro ent
  obtain ⟨s, hr, hvista⟩ : ∃ s, Reaches (CpuMemoria.paso ent) cpuCero
      (corridaAlternada ++ [.recibirTid 1 1]) s ∧
      (s.vivo, s.ciclos.length, s.peticiones.length) = (true, 3, 1) :=
    reaches_of_map
      (g := fun s : CpuMemoria => (s.vivo, s.ciclos.length, s.peticiones.length))
      (by decide +kernel)
  obtain ⟨hvivo, hlen⟩ := Prod.mk.inj hvista
  obtain ⟨htres, huna⟩ := Prod.mk.inj hlen
  obtain ⟨hpuede, -, htermina⟩ := turno_termina (fun _ => 0) (fun _ => 0)
    (lineasCortas_entornoCpu (by decide)) (textoPlano_entornoCpu (by simp))
    (lineasDe_entornoCpu (by decide)) (.of_check (by decide +kernel)) hr hvivo
  refine ⟨s, hr, htres, hpuede fun ⟨_, hp, _⟩ => ?_, htermina⟩
  rw [hp] at huna
  cases huna

end LastOfC.Cpu
