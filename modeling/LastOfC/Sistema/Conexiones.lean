import LastOfC.Sistema.FinHilo
import LastOfC.Sistema.Interrupcion
import LastOfC.Utils.Enlace

/-!
# Memoria behind its two connections (`escuchar_kernel.c`, `escuchar_cpu.c`, `serializar.c`)

The kernel and the CPU write packets to the connections of memoria, the network delivers some bytes
at a time, and the two listeners of memoria take turns.

* `enviarDeKernel` and `enviarDeCpu`: the bytes of each packet, with its encoder.
* `leerDeKernel` and `leerDeCpu`: the `switch` of each listener, with its decoders.
* `Pedido`: a packet, and `Pedido.significado`, the request that memoria makes of it.
* `entrega_pedido`: each packet arrives as its request.
* `servidor_exacto`: so memoria behind its connections does what `Memoria.atender` does with the
  requests, each connection in order, and nothing else.
-/

namespace LastOfC.Sistema

open Trace
open Memoria (Fd Peticion)

/-! ## Senders -/

/-- `serializar_asignar_memoria`. -/
def serializarAsignarMemoria (pid : Uint32) (tamProceso : CInt) (offset : Uint32)
    (basura : Nat → Byte) : Option TBuffer :=
  llenarBuffer basura (1 * 4 + 1 * 4) offset [(bytesDe pid, 4), (bytesDe tamProceso, 4)]

/-- `serializar_write_mem`. -/
def serializarWriteMem (d : TDatosWriteMem) : List Campo :=
  [.uint32 d.dirFis, .uint32 d.valor, .uint32 d.pidHilo, .uint32 d.tidHilo]

/-- `serializar_read_mem`. -/
def camposReadMem (d : TDatosReadMem) : List Campo :=
  [.uint32 d.dirFis, .uint32 d.pidHilo, .uint32 d.tidHilo]

/-- `serializar_datos_dump_memory` of the kernel. -/
def serializarDatosDumpMemory (d : TDatosEsenciales) : List Campo :=
  [.uint32 d.pidInv, .uint32 d.tidInv]

/-- The buffer of a payload that the kernel has already. -/
def bufferDe (stream : List Byte) : TBuffer :=
  { size := BitVec.ofNat 32 stream.length
    offset := BitVec.ofNat 32 stream.length
    stream }

/-- What the kernel writes to `fd_memoria`. `vecino` is what is in memory after the parameter
`prioridad` of `serializar_hilo_ready`. -/
def enviarDeKernel (vecino : Malloc → Uint32) (malloc : Malloc) :
    Kernel.Paquete → Option (List Byte)
  | .asignarMemoria pid tamProceso =>
    enviarBuffer malloc .asignarMemoria fun malloc =>
      serializarAsignarMemoria pid tamProceso malloc.offset malloc.stream
  | .hiloReady d =>
    if h : EsCString d.path then
      enviarBuffer malloc .hiloReady fun malloc =>
        serializarHiloReady (vecino malloc) ⟨d.PID, d.TID, d.prioridad, ⟨d.path, h⟩⟩ malloc.stream
    else none
  | .finalizarProceso pid => enviarCampos malloc .finalizarProceso [.uint32 pid]
  | .finalizarHilo buffer => enviarBuffer malloc .finalizarHilo fun _ => some (bufferDe buffer)
  | .dumpMemory d => enviarCampos malloc .dumpMemory (serializarDatosDumpMemory d)
  -- To `fd_cpu_dispatch`.
  | .recibirTid _ _ => none

/-- What the CPU writes to `fd_memoria`. -/
def enviarDeCpu (malloc : Malloc) : Peticion → Option (List Byte)
  | .obtenerContexto d =>
    enviarBuffer malloc .obtenerContexto fun malloc =>
      serializarHiloCpu malloc.offset d.PID d.TID malloc.stream
  | .actualizarContexto c =>
    enviarBuffer malloc .actualizarContexto fun malloc => serializarEnviarContextoCpu
      { TID := c.TID, RegistrosCPU := some c.RegistrosCPU, PC := c.PC
        base := c.base, limite := c.limite, pid := c.pid } malloc.stream
  | .obtenerInstruccion d =>
    enviarBuffer malloc .obtenerInstruccion fun malloc =>
      serializarObtenerInstruccion malloc.offset d malloc.stream
  | .writeMem d => enviarCampos malloc .writeMem (serializarWriteMem d)
  | .readMem d => enviarCampos malloc .readMem (camposReadMem d)
  -- These come from the kernel.
  | .asignarMemoria _ | .finalizarProceso _ | .hiloReady _ | .finalizarHilo _ => none

/-! ## The listeners -/

/-- What a listener of memoria takes. The conversation of `DUMP_MEMORY` with the file system is not
one of its steps here. -/
inductive Orden where
  | peticion (q : Peticion)
  | dumpMemory (d : TDatosEsenciales)
  deriving DecidableEq, Repr

/-- The cases of `escuchar_kernel` and `escuchar_cpu`. Memoria has no other thread. At a
`DUMP_MEMORY` it stops with an error, so no run goes on after memoria has taken one. -/
def atenderOrden (ent : Memoria.Entorno) (s : Memoria.Estado) :
    Empty ⊕ Orden → Except (Option Memoria.Falla) (Memoria.Estado × List Memoria.Envio)
  | .inr (.peticion q) => (Memoria.atender ent s q).mapError some
  | .inr (.dumpMemory _) => .error none

/-- `deserializar_asignar_memoria`. -/
def deserializarAsignarMemoria (buffer : TBuffer) : Option TAsignarMemoria :=
  match buffer.leerCampos [.uint32, .int] with
  | some ([.uint32 pid, .int tamProceso], _) => some { pid, tamProceso }
  | _ => none

/-- `leer_buffer_Uint32` of `finalizar_proceso`. -/
def leerPid (buffer : TBuffer) : Option Uint32 :=
  match buffer.leerCampos [.uint32] with
  | some ([.uint32 pid], _) => some pid
  | _ => none

/-- Two words, which are a pid and a tid. `deserializar_finalizar_hilo`,
`deserializar_datos_dump_memory`, `deserializar_datos_esenciales` and `deserializar_enviar_contexto`
read them in the same way. -/
def leerPidTid (buffer : TBuffer) : Option (Uint32 × Uint32) :=
  match buffer.leerCampos [.uint32, .uint32] with
  | some ([.uint32 pid, .uint32 tid], _) => some (pid, tid)
  | _ => none

/-- `deserializar_finalizar_hilo`, `deserializar_datos_dump_memory` and
`deserializar_datos_esenciales`. -/
def deserializarDatosEsenciales (buffer : TBuffer) : Option TDatosEsenciales :=
  (leerPidTid buffer).map fun r => { pidInv := r.1, tidInv := r.2 }

/-- `deserializar_enviar_contexto`. -/
def deserializarEnviarContexto (buffer : TBuffer) : Option TEnviarContexto :=
  (leerPidTid buffer).map fun r => { PID := r.1, TID := r.2 }

/-- `deserializar_write_mem`. -/
def deserializarWriteMem (buffer : TBuffer) : Option TDatosWriteMem :=
  match buffer.leerCampos [.uint32, .uint32, .uint32, .uint32] with
  | some ([.uint32 dirFis, .uint32 valor, .uint32 pidHilo, .uint32 tidHilo], _) =>
    some { dirFis, valor, pidHilo, tidHilo }
  | _ => none

/-- `deserializar_read_mem`. -/
def leerReadMem (buffer : TBuffer) : Option TDatosReadMem :=
  match buffer.leerCampos [.uint32, .uint32, .uint32] with
  | some ([.uint32 dirFis, .uint32 pidHilo, .uint32 tidHilo], _) =>
    some { dirFis, pidHilo, tidHilo }
  | _ => none

/-- What `deserializar_crear_hilo` returns, for the handler. -/
def crearHiloDe (h : HiloReady) : TCrearHilo :=
  { PID := h.PID, TID := h.TID, prioridad := h.prioridad, path := h.path.1 }

/-- The `switch` of `escuchar_kernel`. -/
def leerDeKernel (p : TPaquete) : Recibido Orden :=
  match OpCode.de p.codigoOperacion with
  | some .asignarMemoria =>
    .de (fun d => .peticion (.asignarMemoria d)) (deserializarAsignarMemoria p.buffer)
  | some .finalizarProceso => .de (fun pid => .peticion (.finalizarProceso pid)) (leerPid p.buffer)
  | some .hiloReady =>
    .de (fun h => .peticion (.hiloReady (crearHiloDe h))) (deserializarCrearHilo p.buffer)
  | some .dumpMemory => .de .dumpMemory (deserializarDatosEsenciales p.buffer)
  | some .finalizarHilo =>
    .de (fun d => .peticion (.finalizarHilo d)) (deserializarDatosEsenciales p.buffer)
  | _ => .desconocida

/-- The `switch` of `escuchar_cpu`. -/
def leerDeCpu (p : TPaquete) : Recibido Orden :=
  match OpCode.de p.codigoOperacion with
  | some .obtenerContexto =>
    .de (fun d => .peticion (.obtenerContexto d)) (deserializarEnviarContexto p.buffer)
  | some .actualizarContexto =>
    .de (fun c => .peticion (.actualizarContexto c)) (deserializarEnviarContextoCpu p.buffer)
  | some .obtenerInstruccion =>
    .de (fun d => .peticion (.obtenerInstruccion d)) (deserializarObtenerInstruccion p.buffer)
  | some .writeMem => .de (fun d => .peticion (.writeMem d)) (deserializarWriteMem p.buffer)
  | some .readMem => .de (fun d => .peticion (.readMem d)) (leerReadMem p.buffer)
  | _ => .desconocida

/-- The listener of each connection. -/
def leerDe : Fd → TPaquete → Recibido Orden
  | .kernel => leerDeKernel
  | .cpu => leerDeCpu

/-! ## Packets -/

/-- The kernel sends the packet to memoria, and its size is an `int`. -/
def Cabe : Kernel.Paquete → Prop
  | .hiloReady d => d.path.length + 30 ≤ 2 ^ 31
  -- The payload that `serializar_finalizar_hilo` built.
  | .finalizarHilo buffer => ∃ pid tid, buffer = serializarFinalizarHilo pid tid
  | _ => True

/-- What memoria makes of a packet of the kernel. -/
def ordenDe : Kernel.Paquete → Option Orden
  | .dumpMemory d => some (.dumpMemory d)
  | p => (peticion p).map .peticion

/-- A packet for memoria, and what memoria makes of it. -/
inductive Pedido where
  | deKernel (p : Kernel.Paquete) (orden : Orden) (es : ordenDe p = some orden) (cabe : Cabe p)
  | deCpu (q : Peticion)

/-- What memoria makes of a packet. -/
def Pedido.significado : Pedido → Orden
  | .deKernel _ orden _ _ => orden
  | .deCpu q => .peticion q

/-- The bytes of a packet on the connection `fd`. -/
def enviarPedido (vecino : Malloc → Uint32) : Fd → Malloc → Pedido → Option (List Byte)
  | .kernel, malloc, .deKernel p _ _ _ => enviarDeKernel vecino malloc p
  | .cpu, malloc, .deCpu q => enviarDeCpu malloc q
  | .kernel, _, .deCpu _ | .cpu, _, .deKernel _ _ _ _ => none

section Entregas

variable (vecino : Malloc → Uint32) {buffer : TBuffer}

theorem leerPidTid_campos {pid tid : Uint32}
    (h : ∃ b, buffer.leerCampos [.uint32, .uint32] = some ([.uint32 pid, .uint32 tid], b)) :
    leerPidTid buffer = some (pid, tid) := by
  obtain ⟨b, hb⟩ := h
  unfold leerPidTid
  rw [hb]

/-- Two words in a block are two fields. -/
theorem leerPidTid_stream {pid tid : Uint32} (hs : buffer.stream = bytesDe pid ++ bytesDe tid)
    (ho : buffer.offset = 0) : leerPidTid buffer = some (pid, tid) :=
  leerPidTid_campos (leerCampos_contenido [.uint32 pid, .uint32 tid] hs ho
    (by simp [Campo.codificado]))

theorem entrega_asignarMemoria (pid : Uint32) (tamProceso : CInt) :
    Entrega (enviarDeKernel vecino · (.asignarMemoria pid tamProceso)) leerDeKernel
      (.mensaje (.peticion (.asignarMemoria ⟨pid, tamProceso⟩))) := by
  refine entrega_llenar (bytesDe pid ++ bytesDe tamProceso) (by decide)
    (fun _ => by simp [Block.Fills]) (fun _ => rfl) (fun p hc hs ho => ?_) Malloc.offset
  obtain ⟨b, hb⟩ := leerCampos_contenido [.uint32 pid, .int tamProceso] hs ho
    (by simp [Campo.codificado])
  have hdes : deserializarAsignarMemoria p.buffer = some ⟨pid, tamProceso⟩ := by
    unfold deserializarAsignarMemoria
    rw [show p.buffer.leerCampos [.uint32, .int] = _ from hb]
  unfold leerDeKernel
  rw [hc, OpCode.de_valor]
  simp only [hdes, Recibido.de]

/-- What is in memory after `prioridad` does not get into the packet. -/
theorem entrega_hiloReady (d : TCrearHilo) (hcadena : EsCString d.path)
    (hlargo : d.path.length + 30 ≤ 2 ^ 31) :
    Entrega (enviarDeKernel vecino · (.hiloReady d)) leerDeKernel
      (.mensaje (.peticion (.hiloReady d))) := by
  have hlong := toNat_longitud (n := d.path.length + 1) (by omega)
  have hsize : ((2 * 4 + 1 * 4 + BitVec.ofNat 64 (d.path.length + 1) + 8).setWidth 32 :
      CInt).toNat = d.path.length + 21 := by
    have h12 : (2 * 4 + 1 * 4 : BitVec 64).toNat = 12 := rfl
    have h8 : (8 : BitVec 64).toNat = 8 := rfl
    rw [BitVec.toNat_setWidth, BitVec.toNat_add, BitVec.toNat_add, hlong, h12, h8]
    omega
  have htake := bytesDeCadena_take ⟨d.path, hcadena⟩ rfl
  simp only [enviarDeKernel, dif_pos hcadena, serializarHiloReady, hlong, htake]
  refine entrega_llenar (bytesDe d.PID ++ (bytesDe d.TID ++ (bytesDe d.prioridad ++
      (bytesDeSizeT (BitVec.ofNat 64 (d.path.length + 1)) ++ (bytesDeCadena d.path ++ [])))))
    (by rw [hsize]; omega) (fun malloc => ?_) (fun malloc => ?_) (fun p hc hs ho => ?_)
    (fun _ => 20)
  · simp only [hsize, Block.Fills, length_bytesDe, length_bytesDeSizeT, length_bytesDeCadena,
      List.length_append]
    omega
  · show bytesDe d.PID ++ (bytesDe d.TID ++ (bytesDe d.prioridad ++
      (bytesDeSizeT _ ++ ((bytesDeCadena d.path).take _ ++ [])))) = _
    rw [htake]
  · have hdes : deserializarCrearHilo p.buffer =
        some ⟨d.PID, d.TID, d.prioridad, ⟨d.path, hcadena⟩⟩ := by
      unfold deserializarCrearHilo
      simp only [hs, leer_bytesDe, leerSizeT_bytesDeSizeT, hlong,
        leerCadena_bytesDeCadena ⟨d.path, hcadena⟩ rfl, Option.bind_eq_bind, Option.bind_some]
    unfold leerDeKernel
    rw [hc, OpCode.de_valor]
    simp only [hdes, Recibido.de, crearHiloDe]

theorem entrega_finalizarProceso (pid : Uint32) :
    Entrega (enviarDeKernel vecino · (.finalizarProceso pid)) leerDeKernel
      (.mensaje (.peticion (.finalizarProceso pid))) := by
  refine entrega_campos (by simp [Campo.codificado]) fun p hc ⟨b, hb⟩ => ?_
  have hdes : leerPid p.buffer = some pid := by
    unfold leerPid
    rw [show p.buffer.leerCampos [.uint32] = _ from hb]
  unfold leerDeKernel
  rw [hc, OpCode.de_valor]
  simp only [hdes, Recibido.de]

theorem entrega_finalizarHilo (pid tid : Uint32) :
    Entrega (enviarDeKernel vecino · (.finalizarHilo (serializarFinalizarHilo pid tid)))
      leerDeKernel (.mensaje (.peticion (.finalizarHilo ⟨pid, pid⟩))) := by
  refine entrega_buffer (bytesDe pid ++ bytesDe pid) (by simp)
    (fun malloc _ => ⟨_, rfl, rfl, rfl⟩) fun p hc hs _ ho => ?_
  have hdes : deserializarDatosEsenciales p.buffer = some ⟨pid, pid⟩ := by
    unfold deserializarDatosEsenciales
    rw [leerPidTid_stream hs ho]
    rfl
  unfold leerDeKernel
  rw [hc, OpCode.de_valor]
  simp only [hdes, Recibido.de]

theorem entrega_dumpMemory (d : TDatosEsenciales) :
    Entrega (enviarDeKernel vecino · (.dumpMemory d)) leerDeKernel (.mensaje (.dumpMemory d)) := by
  refine entrega_campos (by simp [serializarDatosDumpMemory, Campo.codificado])
    fun p hc hb => ?_
  have hdes : deserializarDatosEsenciales p.buffer = some d := by
    unfold deserializarDatosEsenciales
    rw [leerPidTid_campos hb]
    rfl
  unfold leerDeKernel
  rw [hc, OpCode.de_valor]
  simp only [hdes, Recibido.de]

theorem entrega_obtenerContexto (d : TEnviarContexto) :
    Entrega (enviarDeCpu · (.obtenerContexto d)) leerDeCpu
      (.mensaje (.peticion (.obtenerContexto d))) := by
  refine entrega_llenar (bytesDe d.PID ++ bytesDe d.TID) (by decide)
    (fun _ => by simp [Block.Fills]) (fun _ => rfl) (fun p hc hs ho => ?_) Malloc.offset
  have hdes : deserializarEnviarContexto p.buffer = some d := by
    unfold deserializarEnviarContexto
    rw [leerPidTid_stream hs ho]
    rfl
  unfold leerDeCpu
  rw [hc, OpCode.de_valor]
  simp only [hdes, Recibido.de]

theorem entrega_actualizarContexto (c : TContextoEjecucion) :
    Entrega (enviarDeCpu · (.actualizarContexto c)) leerDeCpu
      (.mensaje (.peticion (.actualizarContexto c))) := by
  let cp : TContextoPuntero := ⟨c.TID, some c.RegistrosCPU, c.PC, c.base, c.limite, c.pid⟩
  refine entrega_idaYVuelta (fun _ => serializarEnviarContextoCpu cp)
    (enviarContextoCpu_idaYVuelta cp) (fun basura buffer hb => ?_) (show 52 ≤ _ by decide)
    (fun _ _ => rfl) fun p hc hdes => ?_
  · rw [llenarBuffer_size hb]
    rfl
  · unfold leerDeCpu
    rw [hc, OpCode.de_valor]
    simp only [hdes, Recibido.de]
    rfl

theorem entrega_obtenerInstruccion (d : TObtenerInstruccion) :
    Entrega (enviarDeCpu · (.obtenerInstruccion d)) leerDeCpu
      (.mensaje (.peticion (.obtenerInstruccion d))) := by
  refine entrega_llenar (bytesDe d.PC ++ (bytesDe d.TID ++ (bytesDe d.PID ++ [])))
    (by decide) (fun _ => by simp [Block.Fills]) (fun _ => rfl) (fun p hc hs ho => ?_)
    Malloc.offset
  have hdes : deserializarObtenerInstruccion p.buffer = some d := by
    unfold deserializarObtenerInstruccion
    simp only [hs, leer_bytesDe, Option.bind_eq_bind, Option.bind_some]
  unfold leerDeCpu
  rw [hc, OpCode.de_valor]
  simp only [hdes, Recibido.de]

theorem entrega_writeMem (d : TDatosWriteMem) :
    Entrega (enviarDeCpu · (.writeMem d)) leerDeCpu (.mensaje (.peticion (.writeMem d))) := by
  refine entrega_campos (by simp [serializarWriteMem, Campo.codificado]) fun p hc ⟨b, hb⟩ => ?_
  have hdes : deserializarWriteMem p.buffer = some d := by
    unfold deserializarWriteMem
    rw [show p.buffer.leerCampos [.uint32, .uint32, .uint32, .uint32] = _ from hb]
    rfl
  unfold leerDeCpu
  rw [hc, OpCode.de_valor]
  simp only [hdes, Recibido.de]

theorem entrega_readMem (d : TDatosReadMem) :
    Entrega (enviarDeCpu · (.readMem d)) leerDeCpu (.mensaje (.peticion (.readMem d))) := by
  refine entrega_campos (by simp [camposReadMem, Campo.codificado]) fun p hc ⟨b, hb⟩ => ?_
  have hdes : leerReadMem p.buffer = some d := by
    unfold leerReadMem
    rw [show p.buffer.leerCampos [.uint32, .uint32, .uint32] = _ from hb]
    rfl
  unfold leerDeCpu
  rw [hc, OpCode.de_valor]
  simp only [hdes, Recibido.de]

/-- Each packet arrives as what memoria makes of it. -/
theorem entregan_pedidos (vecino : Malloc → Uint32) :
    Entregan (enviarPedido vecino) leerDe Pedido.significado := by
  intro fd pedido malloc bytes henvia
  cases fd with
  | kernel =>
    cases pedido with
    | deCpu q => cases henvia
    | deKernel p orden es cabe =>
      cases p with
      | asignarMemoria pid tam =>
        cases es
        exact entrega_asignarMemoria vecino pid tam
      | hiloReady d =>
        cases es
        have hcadena : EsCString d.path := by
          by_contra hno
          simp [enviarPedido, enviarDeKernel, hno] at henvia
        exact entrega_hiloReady vecino d hcadena cabe
      | finalizarProceso pid =>
        cases es
        exact entrega_finalizarProceso vecino pid
      | finalizarHilo buffer =>
        obtain ⟨pid, tid, rfl⟩ := cabe
        have hes : orden = .peticion (.finalizarHilo ⟨pid, pid⟩) := by
          simpa [ordenDe, peticion_finalizarHilo] using es.symm
        subst hes
        exact entrega_finalizarHilo vecino pid tid
      | dumpMemory d =>
        cases es
        exact entrega_dumpMemory vecino d
      | recibirTid pid tid => cases es
  | cpu =>
    cases pedido with
    | deKernel p orden es cabe => cases henvia
    | deCpu q =>
      cases q with
      | obtenerContexto d => exact entrega_obtenerContexto d
      | actualizarContexto c => exact entrega_actualizarContexto c
      | obtenerInstruccion d => exact entrega_obtenerInstruccion d
      | writeMem d => exact entrega_writeMem d
      | readMem d => exact entrega_readMem d
      | _ => cases henvia

end Entregas

/-! ## Memoria and its connections -/

/-- The two connections of memoria. No step of memoria takes no packet. -/
abbrev conexionesMemoria (vecino : Malloc → Uint32) :
    Wire.Format Fd Pedido Byte MallocCero BasuraCero Empty (Empty ⊕ Recibido Orden) :=
  conexiones (enviarPedido vecino) leerDe Pedido.significado

/-- Memoria in the state `s`, with no byte on its connections. -/
def servidor (s : Memoria.Estado) : Wire.Net Memoria.Estado Fd Byte := ⟨s, fun _ => ⟨[], []⟩⟩

/-- What happens to memoria and its connections. -/
abbrev SucesoMemoria := Wire.Event Fd Pedido MallocCero BasuraCero Empty

/-- The listener that takes a packet. -/
def SucesoMemoria.oyente : SucesoMemoria → Option Fd
  | .take fd _ => some fd
  | _ => none

/-- The requests that came over `fd`. -/
def pedidasPor (fd : Fd) (qs : List (Fd × Peticion)) : List Orden :=
  (qs.filter (·.1 = fd)).map fun q => .peticion q.2

section Servidor

variable {ent : Memoria.Entorno} {vecino : Malloc → Uint32} {s s' : Memoria.Estado}
  {o : List Memoria.Envio}

/-- A run of the listeners that ends has no dump, and is one of `atender`. -/
theorem run_atenderOrden {as : List (Empty ⊕ Fd × Orden)}
    (h : run (atenderOrden ent) s (as.map (Sum.map id Prod.snd)) = .ok (s', o)) :
    ∃ qs : List (Fd × Peticion), as = qs.map (fun q => .inr (q.1, .peticion q.2)) ∧
      run (Memoria.atender ent) s (qs.map Prod.snd) = .ok (s', o) := by
  induction as generalizing s o with
  | nil =>
    cases h
    exact ⟨[], rfl, rfl⟩
  | cons a as ih =>
    obtain ⟨s₁, o₁, o₂, ha, hr, rfl⟩ := run_cons_ok.mp h
    obtain ⟨qs, rfl, hrun⟩ := ih hr
    rcases a with e | ⟨fd, orden⟩
    · exact e.elim
    · cases orden with
      | dumpMemory d => cases ha
      | peticion q =>
        exact ⟨(fd, q) :: qs, rfl, run_cons_ok.mpr ⟨s₁, o₁, o₂, mapError_ok.mp ha, hrun, rfl⟩⟩

theorem run_atenderOrden_of {qs : List (Fd × Peticion)}
    (h : run (Memoria.atender ent) s (qs.map Prod.snd) = .ok (s', o)) :
    run (atenderOrden ent) s ((qs.map fun q => (.inr (q.1, .peticion q.2) : Empty ⊕ Fd × Orden)).map
      (Sum.map id Prod.snd)) = .ok (s', o) := by
  induction qs generalizing s o with
  | nil =>
    cases h
    rfl
  | cons q qs ih =>
    obtain ⟨s₁, o₁, o₂, hq, hr, rfl⟩ := run_cons_ok.mp h
    exact run_cons_ok.mpr ⟨s₁, o₁, o₂, mapError_ok.mpr hq, ih hr, rfl⟩

theorem takenFrom_peticiones (fd : Fd) (qs : List (Fd × Peticion)) :
    Wire.takenFrom fd (qs.map fun q => (.inr (q.1, .peticion q.2) : Empty ⊕ Fd × Orden)) =
      pedidasPor fd qs := by
  unfold Wire.takenFrom pedidasPor
  rw [List.filterMap_map, ← List.filterMap_eq_map, List.filterMap_filter]
  refine List.filterMap_congr fun q _ => ?_
  by_cases h : q.1 = fd
  · simp [h]
  · simp [h]

theorem agent_oyente (ls : List SucesoMemoria) :
    ls.filterMap Wire.Event.agent = (ls.filterMap SucesoMemoria.oyente).map .inr := by
  rw [List.map_filterMap]
  refine List.filterMap_congr fun l _ => ?_
  cases l with
  | own w => exact w.elim
  | _ => rfl

end Servidor

/-- **Memoria behind its connections.** However the network cuts the bytes, whichever listener goes
next, and whatever the calls of `malloc` find other than a 0 in `offset`: memoria does what it does
with the requests themselves, in the order in which its listeners take packets. Each connection
gives its requests in the order they were sent; none is lost, changed or doubled, and when all its
bytes were read none is missing. And each such order can happen. The runs are those in which memoria
takes no `DUMP_MEMORY`. -/
theorem servidor_exacto (ent : Memoria.Entorno) (vecino : Malloc → Uint32) (s : Memoria.Estado) :
    (∀ (ls : List SucesoMemoria) (n' : Wire.Net Memoria.Estado Fd Byte) (o : List Memoria.Envio),
      run (Wire.step (vuelta (atenderOrden ent)) (conexionesMemoria vecino)) (servidor s) ls =
        .ok (n', o) →
      ∃ qs : List (Fd × Peticion),
        run (Memoria.atender ent) s (qs.map Prod.snd) = .ok (n'.state, o) ∧
        qs.map Prod.fst = ls.filterMap SucesoMemoria.oyente ∧
        ∀ fd, pedidasPor fd qs <+: ls.filterMap (enviadoEn Pedido.significado fd) ∧
          (n'.chans fd = ⟨[], []⟩ →
            pedidasPor fd qs = ls.filterMap (enviadoEn Pedido.significado fd))) ∧
    ∀ (ms : List (Fd × MallocCero × Pedido)) (qs : List (Fd × Peticion)) (s' : Memoria.Estado)
      (o : List Memoria.Envio),
      (∀ m ∈ ms, ∃ bytes, enviarPedido vecino m.1 m.2.1.1 m.2.2 = some bytes) →
      (∀ fd, pedidasPor fd qs <+:
        (ms.filter (·.1 = fd)).map fun m => m.2.2.significado) →
      run (Memoria.atender ent) s (qs.map Prod.snd) = .ok (s', o) →
      ∃ (ls : List SucesoMemoria) (n' : Wire.Net Memoria.Estado Fd Byte),
        run (Wire.step (vuelta (atenderOrden ent)) (conexionesMemoria vecino)) (servidor s)
          ((ms.map fun m => .send m.1 m.2.1 m.2.2) ++ ls) = .ok (n', o) ∧
        n'.state = s' ∧ ls.filterMap SucesoMemoria.oyente = qs.map Prod.fst := by
  constructor
  · intro ls n' o h
    obtain ⟨as, hrun, hagentes, htoma⟩ := escucha_exacta (entregan_pedidos vecino) s h
    obtain ⟨qs, rfl, hqs⟩ := run_atenderOrden hrun
    simp only [takenFrom_peticiones] at htoma
    refine ⟨qs, hqs, ?_, htoma⟩
    rw [agent_oyente, List.map_map] at hagentes
    have hinr : qs.map ((Sum.inr : Fd → Empty ⊕ Fd) ∘ Prod.fst) = _ := hagentes
    rw [← List.map_map] at hinr
    exact (List.map_injective_iff.mpr Sum.inr_injective) hinr
  · intro ms qs s' o henvia hpre h
    obtain ⟨ls, n', hls, hs', hagentes⟩ := escucha_completa (entregan_pedidos vecino)
      ⟨⟨0, 0, 0, fun _ => 0⟩, rfl⟩ ms henvia
      (fun fd => by rw [takenFrom_peticiones]; exact hpre fd) (run_atenderOrden_of h)
    refine ⟨ls, n', hls, hs', ?_⟩
    rw [agent_oyente, List.map_map] at hagentes
    have hinr : _ = qs.map ((Sum.inr : Fd → Empty ⊕ Fd) ∘ Prod.fst) := hagentes
    rw [← List.map_map] at hinr
    exact (List.map_injective_iff.mpr Sum.inr_injective) hinr

end LastOfC.Sistema
