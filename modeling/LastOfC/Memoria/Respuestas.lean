import LastOfC.Memoria.Asignacion

/-!
# Which requests are answered

The kernel and the CPU block on the reply to each request. `RespondeUnaVez` says that the handler
sends exactly one packet, to the peer that waits. `respondeUnaVez_iff` is the exact list of
requests for which it does: a handler that fails its search or its check returns in silence, and
the two `FINALIZAR` handlers never send the `OK` that the kernel waits for.
-/

namespace LastOfC.Memoria

open KeyedList Trace

/-- The handler returns, and sends one packet, to the peer that waits for it. -/
def RespondeUnaVez (ent : Entorno) (s : Estado) (a : Peticion) : Prop :=
  ∃ s' r, atender ent s a = .ok (s', [⟨a.origen, r⟩])

/-- The requests that get an answer in the state `s`. -/
def Contestable (ent : Entorno) (s : Estado) : Peticion → Prop
  | .asignarMemoria d => ent.esquema ≠ .otro ∧ ent.algoritmoBusqueda ≠ .otro ∧
      ∃ p ∈ s.listaParticiones, p.libre = true ∧ d.tamProceso ≤ p.tamanio
  | .finalizarProceso _ => False
  | .hiloReady d => ∃ p ∈ s.listaParticiones, p.pid = d.PID
  | .finalizarHilo _ => False
  | .obtenerContexto d => ∃ c ∈ s.listaContextos, c.clave = (d.PID, d.TID)
  | .actualizarContexto d => ∃ c ∈ s.listaContextos, c.clave = (d.pid, d.TID)
  | .obtenerInstruccion d => ∃ i c texto,
      buscarContextoPorTid s.listaContextos d.TID d.PID = some (i, c) ∧
        ent.archivos (pathCompleto ent.toConfigMemoria c.instrucciones) = some texto ∧
        d.PC.toNat < (lineas texto).length
  | .writeMem d => d.dirFis.toNat + 4 < ent.tamMemoria
  | .readMem d => d.dirFis.toNat + 4 < ent.tamMemoria

section Handlers

variable {ent : Entorno} {cfg : ConfigMemoria} {s : Estado}

theorem crearProceso_responde (d : TAsignarMemoria) :
    (∃ s' r, crearProceso cfg s d = .ok (s', [⟨.kernel, r⟩])) ↔
      cfg.esquema ≠ .otro ∧ cfg.algoritmoBusqueda ≠ .otro ∧
        ∃ p ∈ s.listaParticiones, p.libre = true ∧ d.tamProceso ≤ p.tamanio := by
  rw [← evaluarParticion_isSome_iff]
  constructor
  · rintro ⟨s', r, h⟩
    rcases crearProceso_casos h with ⟨-, -, hr⟩ | ⟨i, p, he, hesq, -⟩
    · cases hr
    · exact ⟨hesq, _, he⟩
  · rintro ⟨hesq, r, he⟩
    have hfalla : ¬ (cfg.esquema = .fijas ∧
        evaluarParticion cfg.algoritmoBusqueda s.listaParticiones d.tamProceso = none) := by
      simp [he]
    obtain ⟨s', o, h⟩ := crearProceso_ok.mpr hfalla
    rw [h]
    rcases crearProceso_casos h with
      ⟨hotro | hnone, -⟩ | ⟨i, p, -, -, ⟨-, -, -, rfl⟩ | ⟨-, -, rfl⟩⟩
    · exact absurd hotro hesq
    · rw [hnone] at he
      cases he
    · exact ⟨_, _, rfl⟩
    · exact ⟨_, _, rfl⟩

theorem buscarContextoPorTid_isSome_iff {cs : List ContextoEjecucion} {tid pid : Uint32} :
    (∃ r, buscarContextoPorTid cs tid pid = some r) ↔ ∃ c ∈ cs, c.clave = (pid, tid) := by
  constructor
  · rintro ⟨⟨i, c⟩, h⟩
    exact ⟨c, search_mem h, by simpa using search_pos h⟩
  · rintro ⟨c, hc, hk⟩
    cases h : buscarContextoPorTid cs tid pid with
    | none =>
      have := search_eq_none.mp h c hc
      simp [hk] at this
    | some r => exact ⟨r, rfl⟩

theorem crearHilo_responde (d : TCrearHilo) :
    (∃ s' r, crearHilo s d = .ok (s', [⟨.kernel, r⟩])) ↔
      ∃ p ∈ s.listaParticiones, p.pid = d.PID := by
  simp only [crearHilo, buscarParticionPorPid, buscarPid]
  rw [map_snd_search]
  cases h : s.listaParticiones.find? (fun p => p.pid = d.PID) with
  | none => simpa using h
  | some p =>
    have hp := List.find?_some h
    have hmem := List.mem_of_find?_eq_some h
    exact ⟨fun _ => ⟨p, hmem, by simpa using hp⟩, fun _ => ⟨_, _, rfl⟩⟩

theorem devolverContextoEjecucion_responde (d : TEnviarContexto) :
    (∃ s' r, devolverContextoEjecucion s d = .ok (s', [⟨.cpu, r⟩])) ↔
      ∃ c ∈ s.listaContextos, c.clave = (d.PID, d.TID) := by
  rw [← buscarContextoPorTid_isSome_iff]
  unfold devolverContextoEjecucion
  cases buscarContextoPorTid s.listaContextos d.TID d.PID <;> simp

theorem actualizarContextoDeEjecucion_responde (d : TContextoEjecucion) :
    (∃ s' r, actualizarContextoDeEjecucion s d = .ok (s', [⟨.cpu, r⟩])) ↔
      ∃ c ∈ s.listaContextos, c.clave = (d.pid, d.TID) := by
  rw [← buscarContextoPorTid_isSome_iff]
  unfold actualizarContextoDeEjecucion
  cases buscarContextoPorTid s.listaContextos d.TID d.pid <;> simp

/-- The file opens and has a line number `pc`. -/
theorem obtenerInstruccionPorPc_isSome_iff {pc : Uint32} {path : Cadena} :
    (∃ l, obtenerInstruccionPorPc ent pc path = some l) ↔
      ∃ texto, ent.archivos (pathCompleto ent.toConfigMemoria path) = some texto ∧
        pc.toNat < (lineas texto).length := by
  unfold obtenerInstruccionPorPc
  cases ent.archivos (pathCompleto ent.toConfigMemoria path) with
  | none => simp
  | some texto =>
    simp only [Option.some.injEq, exists_eq_left', List.getElem?_map, ← Option.isSome_iff_exists]
    simp

theorem obtenerInstruccion_responde (d : TObtenerInstruccion) :
    (∃ s' r, obtenerInstruccion ent s d = .ok (s', [⟨.cpu, r⟩])) ↔
      ∃ i c texto, buscarContextoPorTid s.listaContextos d.TID d.PID = some (i, c) ∧
        ent.archivos (pathCompleto ent.toConfigMemoria c.instrucciones) = some texto ∧
        d.PC.toNat < (lineas texto).length := by
  unfold obtenerInstruccion
  cases buscarContextoPorTid s.listaContextos d.TID d.PID with
  | none => simp
  | some r =>
    obtain ⟨i, c⟩ := r
    have hiff : (∃ l, obtenerInstruccionPorPc ent d.PC c.instrucciones = some l) ↔ _ :=
      obtenerInstruccionPorPc_isSome_iff
    simp only [Option.some.injEq, Prod.mk.injEq, and_assoc, exists_and_left, exists_eq_left',
      ← hiff]
    cases obtenerInstruccionPorPc ent d.PC c.instrucciones <;> simp

theorem writeMem_responde (d : TDatosWriteMem) :
    (∃ s' r, writeMem cfg s d = .ok (s', [⟨.cpu, r⟩])) ↔ d.dirFis.toNat + 4 < cfg.tamMemoria := by
  simp only [writeMem, direccionAceptada, decide_eq_true_eq]
  split <;> simp_all

theorem readMem_responde (d : TDatosReadMem) :
    (∃ s' r, readMem cfg s d = .ok (s', [⟨.cpu, r⟩])) ↔ d.dirFis.toNat + 4 < cfg.tamMemoria := by
  simp only [readMem, direccionAceptada, decide_eq_true_eq]
  split <;> simp_all

/-- `FINALIZAR_HILO` is never answered, whether the context is there or not. -/
theorem finalizarHilo_calla (d : TDatosEsenciales) {s' : Estado} {o : List Envio}
    (h : finalizarHilo s d = .ok (s', o)) : o = [] := by
  unfold finalizarHilo at h
  split at h <;> cases h <;> rfl

end Handlers

/-- **Which requests are answered**, in every state. -/
theorem respondeUnaVez_iff (ent : Entorno) (s : Estado) (a : Peticion) :
    RespondeUnaVez ent s a ↔ Contestable ent s a := by
  cases a with
  | asignarMemoria d => exact crearProceso_responde d
  | finalizarProceso pid =>
    refine ⟨?_, False.elim⟩
    rintro ⟨s', r, h⟩
    cases h
  | hiloReady d => exact crearHilo_responde d
  | finalizarHilo d =>
    refine ⟨?_, False.elim⟩
    rintro ⟨s', r, h⟩
    cases finalizarHilo_calla d h
  | obtenerContexto d => exact devolverContextoEjecucion_responde d
  | actualizarContexto d => exact actualizarContextoDeEjecucion_responde d
  | obtenerInstruccion d => exact obtenerInstruccion_responde d
  | writeMem d => exact writeMem_responde d
  | readMem d => exact readMem_responde d

/-- The kernel waits for the `OK` to the end of the only thread there is. -/
theorem finalizarHilo_sin_respuesta :
    let ent := entornoDinamico 100 (by decide)
    ∃ s, Reaches (atender ent) (estadoInicial ent.toConfigMemoria (fun _ => 0) fun _ => 0)
        [.asignarMemoria ⟨1, 10⟩, .hiloReady ⟨1, 0, 0, []⟩] s ∧
      s.listaContextos.map ContextoEjecucion.clave = [(1, 0)] ∧
      ¬ RespondeUnaVez ent s (.finalizarHilo ⟨1, 0⟩) := by
  intro ent
  have hrun : (run (atender ent) (estadoInicial ent.toConfigMemoria (fun _ => 0) fun _ => 0)
      [.asignarMemoria ⟨1, 10⟩, .hiloReady ⟨1, 0, 0, []⟩]).toOption.map
        (fun r => r.1.listaContextos.map ContextoEjecucion.clave) = some [(1, 0)] := by decide
  obtain ⟨s, hs, hl⟩ :=
    reaches_of_map (g := fun s : Estado => s.listaContextos.map ContextoEjecucion.clave) hrun
  refine ⟨s, hs, hl, ?_⟩
  rintro ⟨s', r, h⟩
  cases finalizarHilo_calla _ h

end LastOfC.Memoria
