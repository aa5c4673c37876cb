import LastOfC.Cpu.Ciclo
import LastOfC.Kernel.Despacho
import LastOfC.Sistema.Conexiones

/-!
# The kernel behind the connection of the CPU (`c_conexiones.c` of cpu,
`kernel_escucha_cpu_dispatch.c`, `serializar.c`)

* `enviarAKernel`: the bytes of the packet of a syscall, `enviar_a_kernel_*`.
* `leerSyscall`: the `switch` of `kernel_escucha_cpu_dispatch`, with its decoders.
* `entregan_syscalls`: each packet arrives as the syscall that the CPU asked for.
* `despacho_exacto`: so the kernel behind the connection does what `Kernel.paso` does with the
  syscalls, in order, between the steps of its other threads.
-/

namespace LastOfC.Sistema

open Trace
open Cpu (PaqueteSyscall)
open Kernel (Syscall Paso MensajeMemoria)

/-! ## The CPU -/

/-- `serializar_thread_create`, for a name that is a string. -/
def bufferThreadCreate (d : TThreadCreate) (h : EsCString d.nombreArchT) (malloc : Malloc) :
    Option TBuffer :=
  serializarThreadCreate malloc.offset ⟨d.PID, d.TID, ⟨d.nombreArchT, h⟩, d.prioridadH⟩
    malloc.stream

/-- `serializar_thread_join_y_cancel`. -/
def serializarThreadJoinYCancel (d : TThreadJoinYCancel) : List Campo :=
  [.uint32 d.PID, .uint32 d.TID, .uint32 d.tid]

/-- `serializar_datos_esenciales`. -/
def serializarDatosEsenciales (d : TDatosEsenciales) : List Campo :=
  [.uint32 d.pidInv, .uint32 d.tidInv]

/-- `serializar_process_create`. -/
def serializarProcessCreate (d : TProcessCreate) (h : EsCString d.nomArchP) : List Campo :=
  [.uint32 d.PID, .uint32 d.TID, .string ⟨d.nomArchP, h⟩, .uint32 d.tamProceso,
    .uint32 d.prioridadHM]

/-- `serializar_IO`. -/
def serializarIo (d : TIO) : List Campo := [.uint32 d.PID, .uint32 d.TID, .int d.tiempo]

/-- `serializar_mutex`. -/
def serializarMutex (d : TMutexTodos) (h : EsCString d.recurso) : List Campo :=
  [.uint32 d.PID, .uint32 d.TID, .string ⟨d.recurso, h⟩]

/-- The bytes of a packet whose only string is `s`. A text that is no string of bytes has none. -/
def siCadena (s : Cadena) (enviar : EsCString s → Option (List Byte)) : Option (List Byte) :=
  if h : EsCString s then enviar h else none

/-- `enviar_a_kernel_*`: the bytes on `fd_kernel_dispatch`. -/
def enviarAKernel (malloc : Malloc) : PaqueteSyscall → Option (List Byte)
  | .processCreate d =>
    siCadena d.nomArchP fun h => enviarCampos malloc .processCreate (serializarProcessCreate d h)
  | .processExit d => enviarCampos malloc .processExit (serializarDatosEsenciales d)
  | .threadCreate d =>
    siCadena d.nombreArchT fun h => enviarBuffer malloc .threadCreate (bufferThreadCreate d h)
  | .threadJoin d => enviarCampos malloc .threadJoin (serializarThreadJoinYCancel d)
  | .threadCancel d => enviarCampos malloc .threadCancel (serializarThreadJoinYCancel d)
  | .threadExit d => enviarCampos malloc .threadExit (serializarDatosEsenciales d)
  | .mutexCreate d =>
    siCadena d.recurso fun h => enviarCampos malloc .mutexCreate (serializarMutex d h)
  | .mutexLock d => siCadena d.recurso fun h => enviarCampos malloc .mutexLock (serializarMutex d h)
  | .mutexUnlock d =>
    siCadena d.recurso fun h => enviarCampos malloc .mutexUnlock (serializarMutex d h)
  | .dumpMemory d => enviarCampos malloc .dumpMemory (serializarDatosEsenciales d)
  | .io d => enviarCampos malloc .io (serializarIo d)

/-! ## The kernel -/

/-- `deserializar_process_create`. -/
def deserializarProcessCreate (buffer : TBuffer) : Option TProcessCreate :=
  match buffer.leerCampos [.uint32, .uint32, .string, .uint32, .uint32] with
  | some ([.uint32 PID, .uint32 TID, .string nomArchP, .uint32 tamProceso,
      .uint32 prioridadHM], _) =>
    some { PID, TID, nomArchP := nomArchP.1, tamProceso, prioridadHM }
  | _ => none

/-- `deserializar_thread_join_y_cancel`. -/
def deserializarThreadJoinYCancel (buffer : TBuffer) : Option TThreadJoinYCancel :=
  match buffer.leerCampos [.uint32, .uint32, .uint32] with
  | some ([.uint32 PID, .uint32 TID, .uint32 tid], _) => some { PID, TID, tid }
  | _ => none

/-- `deserializar_IO`. -/
def deserializarIo (buffer : TBuffer) : Option TIO :=
  match buffer.leerCampos [.uint32, .uint32, .int] with
  | some ([.uint32 PID, .uint32 TID, .int tiempo], _) => some { PID, TID, tiempo }
  | _ => none

/-- `deserializar_mutex`. -/
def deserializarMutex (buffer : TBuffer) : Option TMutexTodos :=
  match buffer.leerCampos [.uint32, .uint32, .string] with
  | some ([.uint32 PID, .uint32 TID, .string recurso], _) =>
    some { PID, TID, recurso := recurso.1 }
  | _ => none

/-- What `deserializar_thread_create` returns, for the handler. -/
def threadCreateDe (d : ThreadCreate) : TThreadCreate :=
  { PID := d.PID, TID := d.TID, nombreArchT := d.nombreArchT.1, prioridadH := d.prioridadH }

/-- The `switch` of `kernel_escucha_cpu_dispatch`. -/
def leerSyscall (p : TPaquete) : Recibido Syscall :=
  match OpCode.de p.codigoOperacion with
  | some .processCreate => .de .processCreate (deserializarProcessCreate p.buffer)
  | some .processExit => .de .processExit (deserializarDatosEsenciales p.buffer)
  | some .threadCreate =>
    .de (fun d => .threadCreate (threadCreateDe d)) (deserializarThreadCreate p.buffer)
  | some .threadJoin => .de .threadJoin (deserializarThreadJoinYCancel p.buffer)
  | some .threadCancel => .de .threadCancel (deserializarThreadJoinYCancel p.buffer)
  | some .threadExit => .de .threadExit (deserializarDatosEsenciales p.buffer)
  | some .mutexCreate => .de .mutexCreate (deserializarMutex p.buffer)
  | some .mutexLock => .de .mutexLock (deserializarMutex p.buffer)
  | some .mutexUnlock => .de .mutexUnlock (deserializarMutex p.buffer)
  | some .dumpMemory => .de .dumpMemory (deserializarDatosEsenciales p.buffer)
  | some .io => .de .io (deserializarIo p.buffer)
  | _ => .desconocida

/-! ## Packets -/

/-- The syscall that a packet asks for. -/
def syscallDe : PaqueteSyscall → Syscall
  | .processCreate d => .processCreate d
  | .processExit d => .processExit d
  | .threadCreate d => .threadCreate d
  | .threadJoin d => .threadJoin d
  | .threadCancel d => .threadCancel d
  | .threadExit d => .threadExit d
  | .mutexCreate d => .mutexCreate d
  | .mutexLock d => .mutexLock d
  | .mutexUnlock d => .mutexUnlock d
  | .dumpMemory d => .dumpMemory d
  | .io d => .io d

/-- The string of a packet, if it has one. -/
def textoDe : PaqueteSyscall → Cadena
  | .processCreate d => d.nomArchP
  | .threadCreate d => d.nombreArchT
  | .mutexCreate d | .mutexLock d | .mutexUnlock d => d.recurso
  | _ => []

/-- A packet of a syscall whose size is an `int`. -/
abbrev PaqueteCorto := { p : PaqueteSyscall // (textoDe p).length + 30 ≤ 2 ^ 31 }

section Entregas

variable {codigo : OpCode}

theorem siCadena_some {s : Cadena} {enviar : EsCString s → Option (List Byte)} {bytes : List Byte}
    (h : siCadena s enviar = some bytes) : EsCString s := by
  by_contra hno
  rw [siCadena, dif_neg hno] at h
  cases h

/-- A packet of an encoder made of fields, and the case of the `switch` that reads it. -/
theorem entrega_caso {β : Type} {campos : List Campo} {caso : β → Syscall}
    (deserializar : TBuffer → Option β) {b : β}
    (hcaso : ∀ p : TPaquete, OpCode.de p.codigoOperacion = some codigo →
      leerSyscall p = Recibido.de caso (deserializar p.buffer))
    (hlargo : (campos.flatMap Campo.codificado).length ≤ 2 ^ 31 - 9)
    (hdes : ∀ buffer : TBuffer,
      (∃ b, buffer.leerCampos (campos.map Campo.tipo) = some (campos, b)) →
        deserializar buffer = some b) :
    Entrega (enviarCampos · codigo campos) leerSyscall (.mensaje (caso b)) := by
  refine entrega_campos hlargo fun p hc hb => ?_
  rw [hcaso p (by rw [hc, OpCode.de_valor]), hdes p.buffer hb]
  rfl

theorem entrega_datosEsenciales (caso : TDatosEsenciales → Syscall)
    (hcaso : ∀ p : TPaquete, OpCode.de p.codigoOperacion = some codigo →
      leerSyscall p = Recibido.de caso (deserializarDatosEsenciales p.buffer))
    (d : TDatosEsenciales) :
    Entrega (enviarCampos · codigo (serializarDatosEsenciales d)) leerSyscall
      (.mensaje (caso d)) := by
  refine entrega_caso _ hcaso (by simp [serializarDatosEsenciales, Campo.codificado])
    fun buffer hb => ?_
  unfold deserializarDatosEsenciales
  rw [leerPidTid_campos hb]
  rfl

theorem entrega_joinYCancel (caso : TThreadJoinYCancel → Syscall)
    (hcaso : ∀ p : TPaquete, OpCode.de p.codigoOperacion = some codigo →
      leerSyscall p = Recibido.de caso (deserializarThreadJoinYCancel p.buffer))
    (d : TThreadJoinYCancel) :
    Entrega (enviarCampos · codigo (serializarThreadJoinYCancel d)) leerSyscall
      (.mensaje (caso d)) := by
  refine entrega_caso _ hcaso (by simp [serializarThreadJoinYCancel, Campo.codificado])
    fun buffer ⟨b, hb⟩ => ?_
  unfold deserializarThreadJoinYCancel
  rw [show buffer.leerCampos [.uint32, .uint32, .uint32] = _ from hb]
  rfl

theorem entrega_mutex (caso : TMutexTodos → Syscall)
    (hcaso : ∀ p : TPaquete, OpCode.de p.codigoOperacion = some codigo →
      leerSyscall p = Recibido.de caso (deserializarMutex p.buffer))
    (d : TMutexTodos) (h : EsCString d.recurso) (hcorto : d.recurso.length + 30 ≤ 2 ^ 31) :
    Entrega (fun malloc => siCadena d.recurso fun h => enviarCampos malloc codigo
      (serializarMutex d h)) leerSyscall (.mensaje (caso d)) := by
  simp only [siCadena, dif_pos h]
  refine entrega_caso _ hcaso ?_ fun buffer ⟨b, hb⟩ => ?_
  · simp only [serializarMutex, List.flatMap_cons, List.flatMap_nil, List.length_append,
      Campo.codificado, length_bytesDe, length_bytesDeCadena, List.length_nil]
    omega
  · unfold deserializarMutex
    rw [show buffer.leerCampos [.uint32, .uint32, .string] = _ from hb]
    rfl

theorem entrega_processCreate (d : TProcessCreate) (h : EsCString d.nomArchP)
    (hcorto : d.nomArchP.length + 30 ≤ 2 ^ 31) :
    Entrega (enviarAKernel · (.processCreate d)) leerSyscall
      (.mensaje (.processCreate d)) := by
  simp only [enviarAKernel, siCadena, dif_pos h]
  refine entrega_caso deserializarProcessCreate (fun p hc => ?_) ?_
    fun buffer ⟨b, hb⟩ => ?_
  · simp only [leerSyscall, hc]
  · simp only [serializarProcessCreate, List.flatMap_cons, List.flatMap_nil, List.length_append,
      Campo.codificado, length_bytesDe, length_bytesDeCadena, List.length_nil]
    omega
  · unfold deserializarProcessCreate
    rw [show buffer.leerCampos [.uint32, .uint32, .string, .uint32, .uint32] = _ from hb]
    rfl

theorem entrega_threadCreate (d : TThreadCreate) (h : EsCString d.nombreArchT)
    (hcorto : d.nombreArchT.length + 30 ≤ 2 ^ 31) :
    Entrega (enviarAKernel · (.threadCreate d)) leerSyscall
      (.mensaje (.threadCreate d)) := by
  have hlong := toNat_longitud (n := d.nombreArchT.length + 1) (by omega)
  have hsize : ((4 * 3 + 8 + BitVec.ofNat 64 (d.nombreArchT.length + 1)).setWidth 32 :
      CInt).toNat = d.nombreArchT.length + 21 := by
    have h20 : (4 * 3 + 8 : BitVec 64).toNat = 20 := rfl
    rw [BitVec.toNat_setWidth, BitVec.toNat_add, hlong, h20]
    omega
  let hilo : ThreadCreate := ⟨d.PID, d.TID, ⟨d.nombreArchT, h⟩, d.prioridadH⟩
  have hida := threadCreate_idaYVuelta 0 hilo (show d.nombreArchT.length + 21 < 2 ^ 31 by omega)
  simp only [enviarAKernel, siCadena, dif_pos h]
  refine entrega_idaYVuelta (serializarThreadCreate · hilo) hida (fun basura buffer hb => ?_)
    (show d.nombreArchT.length + 21 ≤ 2 ^ 31 - 9 by omega) (fun _ _ => rfl) fun p hc hdes => ?_
  · rw [llenarBuffer_size hb, ← hsize]
  · simp only [leerSyscall, hc, OpCode.de_valor, hdes]
    rfl

theorem entrega_io (d : TIO) :
    Entrega (enviarAKernel · (.io d)) leerSyscall (.mensaje (.io d)) := by
  refine entrega_caso deserializarIo (fun p hc => ?_)
    (by simp [serializarIo, Campo.codificado]) fun buffer ⟨b, hb⟩ => ?_
  · simp only [leerSyscall, hc]
  · unfold deserializarIo
    rw [show buffer.leerCampos [.uint32, .uint32, .int] = _ from hb]
    rfl

/-- The bytes of a packet on the connection of the CPU. -/
def enviarPaqueteCorto (_ : Unit) (malloc : Malloc) (p : PaqueteCorto) : Option (List Byte) :=
  enviarAKernel malloc p.1

/-- Each packet arrives as the syscall that the CPU asked for. -/
theorem entregan_syscalls :
    Entregan enviarPaqueteCorto (fun _ => leerSyscall) (syscallDe ·.1) := by
  intro _ p malloc bytes henvia
  obtain ⟨p, hcorto⟩ := p
  cases p with
  | processCreate d => exact entrega_processCreate d (siCadena_some henvia) hcorto
  | threadCreate d => exact entrega_threadCreate d (siCadena_some henvia) hcorto
  | io d => exact entrega_io d
  | processExit d =>
    exact entrega_datosEsenciales .processExit (fun p hc => by simp only [leerSyscall, hc]) d
  | threadExit d =>
    exact entrega_datosEsenciales .threadExit (fun p hc => by simp only [leerSyscall, hc]) d
  | dumpMemory d =>
    exact entrega_datosEsenciales .dumpMemory (fun p hc => by simp only [leerSyscall, hc]) d
  | threadJoin d =>
    exact entrega_joinYCancel .threadJoin (fun p hc => by simp only [leerSyscall, hc]) d
  | threadCancel d =>
    exact entrega_joinYCancel .threadCancel (fun p hc => by simp only [leerSyscall, hc]) d
  | mutexCreate d =>
    exact entrega_mutex .mutexCreate (fun p hc => by simp only [leerSyscall, hc]) d
      (siCadena_some henvia) hcorto
  | mutexLock d =>
    exact entrega_mutex .mutexLock (fun p hc => by simp only [leerSyscall, hc]) d
      (siCadena_some henvia) hcorto
  | mutexUnlock d =>
    exact entrega_mutex .mutexUnlock (fun p hc => by simp only [leerSyscall, hc]) d
      (siCadena_some henvia) hcorto

end Entregas

/-! ## The kernel and the connection -/

/-- A step of another thread of the kernel. -/
inductive PasoPropio where
  | memoria (m : MensajeMemoria)
  | cortoPlazo
  | largoPlazo
  deriving DecidableEq, Repr

def PasoPropio.paso : PasoPropio → Paso
  | .memoria m => .memoria m
  | .cortoPlazo => .cortoPlazo
  | .largoPlazo => .largoPlazo

/-- A step of the kernel: one of another thread, or a syscall. -/
abbrev Turno := PasoPropio ⊕ Syscall

def Turno.paso : Turno → Paso := Sum.elim PasoPropio.paso .syscall

/-- The kernel takes a turn. -/
def turno (ent : Kernel.Entorno) (k : Kernel.Estado) (t : Turno) :
    Except Kernel.Falla (Kernel.Estado × List Kernel.Paquete) :=
  Kernel.paso ent k t.paso

/-- The connection of the dispatch listener. -/
abbrev conexionDispatch : Wire.Format Unit PaqueteCorto Byte MallocCero BasuraCero PasoPropio
    (PasoPropio ⊕ Recibido Syscall) :=
  conexiones enviarPaqueteCorto (fun _ => leerSyscall) (syscallDe ·.1)

/-- What happens to the kernel and its connection. -/
abbrev SucesoKernel := Wire.Event Unit PaqueteCorto MallocCero BasuraCero PasoPropio

/-- The kernel in the state `k`, with no byte on its connection. -/
def kernelConectado (k : Kernel.Estado) : Wire.Net Kernel.Estado Unit Byte :=
  ⟨k, fun _ => ⟨[], []⟩⟩

section Turnos

variable {ent : Kernel.Entorno} {k k' : Kernel.Estado} {o : List Kernel.Paquete}

theorem run_turno {ts : List Turno} :
    run (turno ent) k ts = run (Kernel.paso ent) k (ts.map Turno.paso) := by
  induction ts generalizing k with
  | nil => rfl
  | cons t ts ih =>
    simp only [run, List.map_cons, ih]
    rfl

/-- The syscalls among the turns. -/
def syscallsDe (ts : List Turno) : List Syscall := ts.filterMap Sum.getRight?

/-- The threads of the turns, where the dispatch listener is `()`. -/
def hilosDe (ts : List Turno) : List (PasoPropio ⊕ Unit) := ts.map (Sum.map id fun _ => ())

/-- There is one connection. -/
def enConexion (ts : List Turno) : List (PasoPropio ⊕ Unit × Syscall) :=
  ts.map (Sum.map id fun s => ((), s))

theorem enConexion_turnos (as : List (PasoPropio ⊕ Unit × Syscall)) :
    as = enConexion (as.map (Sum.map id Prod.snd)) := by
  unfold enConexion
  rw [List.map_map, List.map_id'' fun a => by cases a <;> rfl]

theorem enConexion_map (ts : List Turno) :
    (enConexion ts).map (Sum.map id Prod.snd) = ts ∧
      (enConexion ts).map (Sum.map id Prod.fst) = hilosDe ts ∧
      Wire.takenFrom () (enConexion ts) = syscallsDe ts := by
  unfold enConexion hilosDe syscallsDe Wire.takenFrom
  refine ⟨?_, ?_, ?_⟩
  · rw [List.map_map, List.map_id'' fun a => by cases a <;> rfl]
  · rw [List.map_map]
    refine List.map_congr_left fun a _ => ?_
    cases a <;> rfl
  · rw [List.filterMap_map]
    refine List.filterMap_congr fun a _ => ?_
    cases a <;> rfl

end Turnos

/-- **The kernel behind the connection of the CPU.** However the network cuts the bytes and whatever
the calls of `malloc` find other than a 0 in `offset`, the kernel does what it does with the
syscalls that the CPU asked for, in the order in which it asked for them, between the steps of its
other threads. None is lost, changed or doubled, and when all bytes were read none is missing. And
each such run can happen. -/
theorem despacho_exacto (ent : Kernel.Entorno) (k : Kernel.Estado) :
    (∀ (ls : List SucesoKernel) (n' : Wire.Net Kernel.Estado Unit Byte)
      (o : List Kernel.Paquete),
      run (Wire.step (vuelta (turno ent)) conexionDispatch) (kernelConectado k) ls = .ok (n', o) →
      ∃ ts : List Turno, run (Kernel.paso ent) k (ts.map Turno.paso) = .ok (n'.state, o) ∧
        hilosDe ts = ls.filterMap Wire.Event.agent ∧
        syscallsDe ts <+: ls.filterMap (enviadoEn (syscallDe ·.1) ()) ∧
        (n'.chans () = ⟨[], []⟩ →
          syscallsDe ts = ls.filterMap (enviadoEn (syscallDe ·.1) ()))) ∧
    ∀ (ms : List (MallocCero × PaqueteCorto)) (ts : List Turno) (k' : Kernel.Estado)
      (o : List Kernel.Paquete),
      (∀ m ∈ ms, ∃ bytes, enviarAKernel m.1.1 m.2.1 = some bytes) →
      syscallsDe ts <+: ms.map (fun m => syscallDe m.2.1) →
      run (Kernel.paso ent) k (ts.map Turno.paso) = .ok (k', o) →
      ∃ (ls : List SucesoKernel) (n' : Wire.Net Kernel.Estado Unit Byte),
        run (Wire.step (vuelta (turno ent)) conexionDispatch) (kernelConectado k)
          ((ms.map fun m => .send () m.1 m.2) ++ ls) = .ok (n', o) ∧
        n'.state = k' ∧ ls.filterMap Wire.Event.agent = hilosDe ts := by
  constructor
  · intro ls n' o h
    obtain ⟨as, hrun, hagentes, htoma⟩ := escucha_exacta entregan_syscalls k h
    rw [enConexion_turnos as] at hagentes htoma
    obtain ⟨-, hhilos, hsyscalls⟩ := enConexion_map (as.map (Sum.map id Prod.snd))
    rw [hhilos] at hagentes
    have hunica := htoma ()
    rw [hsyscalls] at hunica
    exact ⟨_, by rw [← run_turno]; exact hrun, hagentes, hunica⟩
  · intro ms ts k' o henvia hpre h
    obtain ⟨hturnos, hhilos, hsyscalls⟩ := enConexion_map ts
    have henvia' : ∀ m ∈ ms.map fun m => ((), m),
        ∃ bytes, enviarPaqueteCorto m.1 m.2.1.1 m.2.2 = some bytes := by
      intro m hm
      obtain ⟨m, hmem, rfl⟩ := List.mem_map.mp hm
      exact henvia m hmem
    have hpre' : ∀ i, Wire.takenFrom i (enConexion ts) <+:
        ((ms.map fun m => ((), m)).filter (·.1 = i)).map fun m => syscallDe m.2.2.1 := by
      intro i
      rw [hsyscalls]
      simpa [Function.comp_def] using hpre
    obtain ⟨ls, n', hls, hs', hagentes⟩ := escucha_completa entregan_syscalls
      ⟨⟨0, 0, 0, fun _ => 0⟩, rfl⟩ _ henvia' hpre' (by rw [hturnos, run_turno]; exact h)
    rw [List.map_map] at hls
    exact ⟨ls, n', hls, hs', by rw [hagentes, hhilos]⟩

end LastOfC.Sistema
