import LastOfC.Kernel.Pasos
import LastOfC.Kernel.Ejecuciones

/-!
# What the listener of memoria meets (`kernel_escucha_memoria.c`)

* `MensajeMemoria.planifica`: the packets after which the listener calls
  `planificador_corto_plazo`.
* `MensajeMemoria.Atendido`: what the handler does for the packet. `memoria_atendido_iff`: it
  returns and does it exactly when the packet is `Atendible`.
* `hastaMensaje`: a syscall up to a call of `recibir_mensajeV2`, where the dispatcher waits and the
  listener goes on. `finalizarHilo_eq`: the part of `finalizar_hilo`, with the rest, is the whole.
-/

namespace LastOfC.Kernel

open Imp

variable {k : Estado} {m : MensajeMemoria}

/-- The case of the packet calls `planificador_corto_plazo`. -/
def MensajeMemoria.planifica : MensajeMemoria → Bool
  | .confirmarCreacionHilo d => d.bitConfirmacion = 1
  | _ => false

/-- What the packet asks for: a thread in `lista_ready`, a `sem_post` of `sem_plani_largo_plazo`,
or nothing. -/
def MensajeMemoria.Atendido (k : Estado) : MensajeMemoria → Estado → Prop
  | .confirmarEspacioProceso _, k' => k'.semPlaniLargoPlazo = k.semPlaniLargoPlazo + 1
  | .confirmarCreacionHilo d, k' => d.bitConfirmacion = 1 →
      ∃ h, k.buscarTcbs d.tid d.pid = some h ∧ k'.listaReady = k.listaReady ++ [h]
  | .confirmarDumpMemory, _ => True

/-- The handler returns and does what the packet asks for: with bit 1, `mutex` is free,
`crear_hilo` gets to its end, and the thread of a `CONFIRMAR_CREACION_HILO` exists. -/
def MensajeMemoria.Atendible (k : Estado) : MensajeMemoria → Prop
  | .confirmarEspacioProceso d => d.bitConfirmacion = 1 → 0 < k.mutex ∧ ¬ k.CrearHiloCae d.pid
  | .confirmarCreacionHilo d => d.bitConfirmacion = 1 →
      0 < k.mutex ∧ ∃ h, k.buscarTcbs d.tid d.pid = some h
  | .confirmarDumpMemory => True

theorem memoria_atendido_iff :
    (∃ k', (kernelEscuchaMemoria m).run k = .ok () k' ∧ m.Atendido k k') ↔ m.Atendible k := by
  cases m with
  | confirmarDumpMemory => exact iff_of_true ⟨k, rfl, trivial⟩ trivial
  | confirmarEspacioProceso d =>
    constructor
    · rintro ⟨k', hr, -⟩ hbit
      rcases confirmarEspacioProceso_ok hr with ⟨hno, -⟩ | ⟨k₁, -, hc, -⟩
      · exact absurd hbit hno
      · exact crearHilo_vuelve_iff.mp ⟨k₁, hc⟩
    · intro h
      show ∃ k', (confirmarEspacioProceso d).run k = .ok () k' ∧ _
      unfold confirmarEspacioProceso
      by_cases hbit : d.bitConfirmacion = 1
      · obtain ⟨k₁, hc⟩ := crearHilo_vuelve_iff.mpr (h hbit)
        have hsem : k₁.semPlaniLargoPlazo = k.semPlaniLargoPlazo := by
          obtain ⟨p, q, resto, tids, m, vs, -, -, -, rfl⟩ := crearHilo_ok hc
          rfl
        refine ⟨k₁.postPlaniLargoPlazo, ?_, congrArg (· + 1) hsem⟩
        rw [if_pos hbit, bind_run hc]
        rfl
      · refine ⟨k.postPlaniLargoPlazo, ?_, rfl⟩
        rw [if_neg hbit]
        rfl
  | confirmarCreacionHilo d =>
    constructor
    · rintro ⟨k', hr, hat⟩ hbit
      obtain ⟨h, hb, -⟩ := hat hbit
      refine ⟨?_, h, hb⟩
      replace hr : (confirmarCreacionHilo d).run k = .ok () k' := hr
      unfold confirmarCreacionHilo at hr
      rw [if_pos hbit] at hr
      obtain ⟨_, k₁, hc, -⟩ := bind_ok.mp hr
      unfold confirmacionCrearHilo at hc
      rw [bind_run (leer_run _), hb] at hc
      exact mutex_pos_of_conMutex hc
    · intro h
      by_cases hbit : d.bitConfirmacion = 1
      · obtain ⟨hk, x, hb⟩ := h hbit
        obtain ⟨k₁, hc⟩ := confirmacionCrearHilo_vuelve hk hb
        refine ⟨k₁.postTcbAPlanificar, ?_, fun _ => ⟨x, hb, ?_⟩⟩
        · show (confirmarCreacionHilo d).run k = _
          unfold confirmarCreacionHilo
          rw [if_pos hbit, bind_run hc]
          rfl
        · rcases confirmacionCrearHilo_ok hc with ⟨hno, -⟩ | ⟨y, m, vs, hy, rfl⟩
          · rw [hb] at hno
            cases hno
          · rw [hb] at hy
            obtain rfl := Option.some.inj hy
            rfl
      · refine ⟨k, ?_, fun h => absurd h hbit⟩
        show (confirmarCreacionHilo d).run k = _
        unfold confirmarCreacionHilo
        rw [if_neg hbit]
        rfl

/-! ## Syscalls that wait for memoria -/

/-- `finalizar_hilo` up to `recibir_mensajeV2`, and whether it gets there. -/
def finalizarHastaMensaje (h : Dir) : Op Bool := do
  modify (·.setEstado h .exit)
  conMutex (modify (·.agregarExit h))
  let t ← leer (·.tcbs h)
  let proceso ← conMutex (leer (·.buscarProceso t.pid))
  match proceso with
  | none => pure false
  | some p =>
    quitarTid p t.tid
    let n ← leer fun k => (k.pcbs p).mutex.length
    Imp.each (liberarMutex p t.tid) (List.range n)
    informarAMemoriaFinHilo h
    pure true

/-- `finalizar_hilo` after `recibir_mensajeV2`. -/
def finalizarTrasMensaje (ent : Entorno) (h : Dir) : Op Unit := do
  desbloquearHilosPorTid h
  liberar ent h

/-- The two parts are `finalizar_hilo`. -/
theorem finalizarHilo_eq (ent : Entorno) (h : Dir) : finalizarHilo ent h =
    finalizarHastaMensaje h >>= fun llega => if llega then finalizarTrasMensaje ent h
      else pure () := by
  unfold finalizarHilo finalizarHastaMensaje finalizarTrasMensaje
  simp only [bind_assoc]
  refine bind_congr fun _ => bind_congr fun _ => bind_congr fun t => bind_congr fun proceso => ?_
  cases proceso with
  | none => simp
  | some p => simp

/-- `finalizar_proceso` up to one of its calls of `recibir_mensajeV2`: the first one, or the one of
`finalizar_hilo` for the TCB at position `i` of `lista_tcbs`. -/
def procesoHastaMensaje (ent : Entorno) (pcbAfuera : Option Dir) : Option Nat → Op Bool
  | none => do
    let p ← desref pcbAfuera
    let pid ← leer fun k => (k.pcbs p).pid
    informarAMemoriaFinProceso pid
    pure true
  | some i => do
    let p ← desref pcbAfuera
    let pid ← leer fun k => (k.pcbs p).pid
    informarAMemoriaFinProceso pid
    if ent.mensajeFinProceso = ['O', 'K'] then do
      semWaitMutex
      let tcbs ← leer (·.listaTcbs)
      Imp.each (finalizarSiEsDe ent p) (tcbs.take i)
      let k ← get
      match tcbs[i]? with
      | none => pure false
      | some h =>
        if (k.tcbs h).pid = (k.pcbs p).pid then finalizarHastaMensaje h
        else pure false
    else pure false

/-- A syscall up to one of its calls of `recibir_mensajeV2`, and whether it gets there. The others
make no such call. -/
def hastaMensaje (ent : Entorno) (i : Option Nat) : Syscall → Op Bool
  | .threadExit d => do
    let hiloAFinalizar ← conMutex (leer (·.buscarTcbs d.tidInv d.pidInv))
    match hiloAFinalizar with
    | none => pure false
    | some h => finalizarHastaMensaje h
  | .threadCancel d => do
    let tcbAExit ← conMutex (leer (·.buscarTcbs d.TID d.PID))
    match tcbAExit with
    | none => pure false
    | some h => do
      let t ← leer (·.tcbs h)
      if t.estadoHilo = .exit then pure false
      else finalizarHastaMensaje h
  | .processExit d =>
    if d.tidInv = 0 then do
      let pcbAfuera ← conMutex (leer (·.buscarProceso d.pidInv))
      procesoHastaMensaje ent pcbAfuera i
    else pure false
  | _ => pure false

end LastOfC.Kernel
