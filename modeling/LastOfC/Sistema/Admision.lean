import LastOfC.Kernel.Confirmados
import LastOfC.Memoria.MapaContextos
import LastOfC.Memoria.Respuestas
import LastOfC.Sistema.RespuestaVolcado

/-!
# A dispatched thread has a context (`escuchar_kernel.c`, `kernel_escucha_memoria.c`)

The kernel creates a thread and asks memoria for its context with `HILO_READY`; the thread gets
into `lista_ready` when the confirmation comes back, and to the CPU some time later. The CPU then
asks memoria for the context.

* `Modulos.Leyo.siguiente`: what the listener of the kernel reads is the next reply of memoria.
* `Admitidos` is the invariant of the kernel, memoria and the bytes between them: the threads in the
  lists of the scheduler were confirmed, and those that were confirmed have their context.
* `contexto_obtenible`: memoria answers the `OBTENER_CONTEXTO` of each thread in the lists of the
  scheduler, unless a `FINALIZAR_HILO` that it read as one of that thread came before.
-/

namespace LastOfC.Sistema

open Trace KeyedList

/-- Memoria answers an `OBTENER_CONTEXTO` with a context of the thread. -/
def Obtenible (entM : Memoria.Entorno) (m : Memoria.Estado) (id : Uint32 × Uint32) : Prop :=
  ∃ c : TContextoEjecucion, (c.pid, c.TID) = id ∧
    Memoria.atender entM m (.obtenerContexto { PID := id.1, TID := id.2 }) =
      .ok (m, [⟨.cpu, .enviarContexto c⟩])

/-- The step forwards an answer of the file system, takes bytes of `fd_kernel` as a text, or closes
a process. -/
def Suceso.corta : Suceso → Bool
  | .memoriaVuelca _ _ _ | .recibirMensaje _ => true
  | .syscall y => (Kernel.Paso.syscall y).cierraProceso
  | _ => false

/-- A syscall comes from a thread that had the CPU. -/
def Modulos.EmiteDespachado (s : Modulos) : Suceso → Prop
  | .syscall y => s.kernel.EmiteDespachado y
  | _ => True

instance (s : Modulos) (a : Suceso) : Decidable (s.EmiteDespachado a) :=
  match a with
  | .syscall y => inferInstanceAs (Decidable (s.kernel.EmiteDespachado y))
  | .cortoPlazo | .largoPlazo | .recibirMensaje _ | .kernelEscucha _ | .memoriaAtiende _
  | .memoriaVuelca _ _ _ | .memoriaCpu _ => .isTrue trivial

/-- Memoria reads a `FINALIZAR_HILO` of the thread. -/
def Modulos.Olvida (id : Uint32 × Uint32) (s : Modulos) : Suceso → Prop
  | .memoriaAtiende _ => ∃ d : TDatosEsenciales,
      s.pedidos.head?.bind peticion = some (.finalizarHilo d) ∧ (d.pidInv, d.tidInv) = id
  | _ => False

/-- The thread that a reply confirms. -/
def confirma : Kernel.MensajeMemoria → Option (Uint32 × Uint32)
  | .confirmarCreacionHilo d => some (d.pid, d.tid)
  | _ => none

/-- The threads that memoria confirmed. -/
def Modulos.confirmados (s : Modulos) : List (Uint32 × Uint32) := s.enviadas.filterMap confirma

/-! ## Memoria -/

section Memoria

variable {entM : Memoria.Entorno} {m m' : Memoria.Estado} {a : Memoria.Peticion}
  {o : List Memoria.Envio} {id : Uint32 × Uint32}

theorem obtenible_iff :
    Obtenible entM m id ↔ id ∈ m.listaContextos.map Memoria.ContextoEjecucion.clave := by
  constructor
  · rintro ⟨c, hc, h⟩
    obtain ⟨c', hmem, hclave⟩ := (Memoria.devolverContextoEjecucion_responde _).mp ⟨m, _, h⟩
    exact List.mem_map.mpr ⟨c', hmem, hclave⟩
  · intro h
    obtain ⟨c, hc, hclave⟩ := List.mem_map.mp h
    obtain ⟨⟨i, c'⟩, hb⟩ := Memoria.buscarContextoPorTid_isSome_iff.mpr
      ⟨c, hc, (hclave : c.clave = (id.1, id.2))⟩
    have hpos := search_pos hb
    refine ⟨c'.paraCpu, of_decide_eq_true hpos, ?_⟩
    simp only [Memoria.atender, Memoria.devolverContextoEjecucion, hb]

/-- A context stays until its `FINALIZAR_HILO`. -/
theorem clave_tras_atender (h : Memoria.atender entM m a = .ok (m', o))
    (hid : id ∈ m.listaContextos.map Memoria.ContextoEjecucion.clave)
    (hno : ∀ d : TDatosEsenciales, a = .finalizarHilo d → (d.pidInv, d.tidInv) ≠ id) :
    id ∈ m'.listaContextos.map Memoria.ContextoEjecucion.clave := by
  have hpaso := Memoria.atender_contextos h
  by_cases hk : a.clave = some id
  · generalize m'.listaContextos = cs' at hpaso ⊢
    cases hpaso with
    | igual => exact hid
    | agregar d p =>
      rw [List.map_append]
      exact List.mem_append_left _ hid
    | quitar d => exact absurd (Option.some.inj hk) (hno d rfl)
    | actualizar d i c hc =>
      have hpos := search_pos hc
      have hclave : (c.actualizar d).clave = (d.pid, d.TID) := of_decide_eq_true hpos
      rwa [map_key_set hc hclave]
  · by_contra hfuera
    have hmapa := toMap_eq_none.mpr hfuera
    rw [← Memoria.mapaDe, Memoria.mapa_ajeno hpaso hk] at hmapa
    exact toMap_eq_none.mp hmapa hid

/-- Memoria confirms the thread of a `HILO_READY`, and no other. -/
theorem confirmadas_de (h : Memoria.atender entM m a = .ok (m', o)) :
    (o.filterMap respuestaKernel).filterMap confirma = a.hiloNuevo.toList := by
  cases a with
  | hiloReady d =>
    simp only [Memoria.atender, Memoria.crearHilo] at h
    split at h <;> cases h
    rfl
  | asignarMemoria d =>
    rcases Memoria.crearProceso_envios h with ⟨-, rfl⟩ | ⟨-, rfl | rfl⟩
    · rfl
    · rfl
    · rfl
  | finalizarProceso pid =>
    cases h
    rfl
  | finalizarHilo d =>
    rw [Memoria.finalizarHilo_calla d h]
    rfl
  | obtenerContexto d =>
    simp only [Memoria.atender, Memoria.devolverContextoEjecucion] at h
    split at h <;> cases h <;> rfl
  | actualizarContexto d =>
    simp only [Memoria.atender, Memoria.actualizarContextoDeEjecucion] at h
    split at h <;> cases h <;> rfl
  | obtenerInstruccion d =>
    simp only [Memoria.atender, Memoria.obtenerInstruccion] at h
    split at h
    · cases h
      rfl
    · split at h <;> cases h <;> rfl
  | writeMem d =>
    simp only [Memoria.atender, Memoria.writeMem] at h
    split at h <;> cases h <;> rfl
  | readMem d =>
    simp only [Memoria.atender, Memoria.readMem] at h
    split at h <;> cases h <;> rfl

/-- Memoria confirms a thread after it made its context. -/
theorem clave_de_confirmada (h : Memoria.atender entM m a = .ok (m', o))
    (hid : id ∈ (o.filterMap respuestaKernel).filterMap confirma) :
    id ∈ m'.listaContextos.map Memoria.ContextoEjecucion.clave := by
  rw [confirmadas_de h] at hid
  cases a with
  | hiloReady d =>
    simp only [Memoria.atender, Memoria.crearHilo] at h
    split at h <;> cases h
    obtain rfl : id = (d.PID, d.TID) := by simpa [Memoria.Peticion.hiloNuevo] using hid
    simp [Memoria.nuevoContexto, Memoria.ContextoEjecucion.clave]
  | _ => cases hid

end Memoria

/-! ## The bytes between them -/

/-- The kernel read the replies `ms`, and not yet `ms'`. -/
def Modulos.Leyo (s : Modulos) (ms ms' : List Kernel.MensajeMemoria) : Prop :=
  s.enviadas = ms ++ ms' ∧ s.leidos = (flujoRespuestas ms).length

section Flujo

variable {s : Modulos} {basura : Basura} {r : Option TPaquete} {socket : List Byte}
  {ms ms' : List Kernel.MensajeMemoria}

theorem flujoRespuestas_append (ms ms' : List Kernel.MensajeMemoria) :
    flujoRespuestas (ms ++ ms') = flujoRespuestas ms ++ flujoRespuestas ms' := by
  unfold flujoRespuestas
  rw [List.map_append, List.flatMap_append]

/-- The bytes that the kernel did not read are the replies that it did not read. -/
theorem Modulos.Leyo.resto (h : s.Leyo ms ms') (hs : Entero s) :
    s.escrito.drop s.leidos = flujoRespuestas ms' := by
  rw [hs.escrito, h.1, flujoRespuestas_append, h.2, List.drop_left]

/-- What the kernel reads next is the first reply that it did not read. -/
theorem Modulos.Leyo.siguiente (h : s.Leyo ms ms') (hs : Entero s)
    (hlee : esperarPaquete basura (s.escrito.drop s.leidos) = some (r, socket)) :
    ∃ m ms'', ms' = m :: ms'' ∧ r = some ((mensajeRespuesta m).recibido basura) ∧
      (s.leyo socket).Leyo (ms ++ [m]) ms'' := by
  rw [h.resto hs] at hlee
  cases ms' with
  | nil => cases hlee
  | cons m ms' =>
    have htrama := esperarPaquete_trama (mensajeRespuesta m) basura (flujoRespuestas ms')
    obtain ⟨rfl, rfl⟩ : some ((mensajeRespuesta m).recibido basura) = r ∧
        flujoRespuestas ms' = socket := Prod.mk.inj (Option.some.inj (htrama.symm.trans hlee))
    have henv : s.enviadas = (ms ++ [m]) ++ ms' := by
      rw [List.append_assoc]
      exact h.1
    refine ⟨m, ms', rfl, rfl, henv, ?_⟩
    show s.escrito.length - (flujoRespuestas ms').length = _
    rw [hs.escrito, henv, flujoRespuestas_append, List.length_append]
    omega

end Flujo

/-! ## The invariant -/

section Corridas

variable {entK : Kernel.Entorno} {entM : Memoria.Entorno} {s₀ s s' s₁ : Modulos} {a : Suceso}
  {pre : List Suceso} {o : List Kernel.Paquete}

/-- The scheduler knows threads that memoria confirmed, and memoria has their contexts. -/
structure Admitidos (entK : Kernel.Entorno) (entM : Memoria.Entorno) (s₀ : Modulos)
    (pre : List Suceso) (s : Modulos) : Prop where
  entero : Entero s
  frontera : ∃ ms ms', s.Leyo ms ms'
  kernel : s.kernel.Conoce s.confirmados
  contextos : ∀ id ∈ s.confirmados,
    id ∈ s.memoria.listaContextos.map Memoria.ContextoEjecucion.clave ∨
      Happened (pasoModulos entK entM) s₀ pre (Modulos.Olvida id)

/-- A step that changes neither memoria nor what it sent. -/
theorem Admitidos.igual (h : Admitidos entK entM s₀ pre s)
    (hr : Reaches (pasoModulos entK entM) s₀ pre s) (hent : Entero s')
    (hf : ∃ ms ms', s'.Leyo ms ms') (hk : s'.kernel.Conoce s.confirmados)
    (hm : s'.memoria = s.memoria) (hen : s'.enviadas = s.enviadas) :
    Admitidos entK entM s₀ (pre ++ [a]) s' := by
  have hids : s'.confirmados = s.confirmados := by
    unfold Modulos.confirmados
    rw [hen]
  refine ⟨hent, hf, hids ▸ hk, fun id hid => ?_⟩
  rw [hm]
  exact (h.contextos id (hids ▸ hid)).imp_right fun hev => (happened_snoc hr).mpr (.inl hev)

/-- A step of the kernel, after its listener read something or not. -/
theorem Admitidos.enKernel {p : Kernel.Paso} (h : Admitidos entK entM s₀ pre s)
    (hr : Reaches (pasoModulos entK entM) s₀ pre s) (hent : Entero s₁)
    (hf : ∃ ms ms', s₁.Leyo ms ms') (hk : s₁.kernel = s.kernel) (hm : s₁.memoria = s.memoria)
    (hen : s₁.enviadas = s.enviadas)
    (hp : p.Anunciado s.confirmados s.kernel) (hs : s₁.enKernel entK p = .ok (s', o)) :
    Admitidos entK entM s₀ (pre ++ [a]) s' := by
  have hent' := hent.enKernel hs
  obtain ⟨k', hpaso, rfl⟩ := enKernel_modulos hs
  rw [hk] at hpaso
  exact h.igual hr hent' hf (h.kernel.tras_paso hp hpaso) hm hen

/-- A step of a scheduler, or of the listener that runs one. -/
theorem anunciado_planificador {ids : List (Uint32 × Uint32)} {k : Kernel.Estado}
    {p : Kernel.Paso} (hp : p = .cortoPlazo ∨ p = .largoPlazo) : p.Anunciado ids k := by
  rcases hp with rfl | rfl
  · exact ⟨rfl, nofun, nofun⟩
  · exact ⟨rfl, nofun, nofun⟩

theorem Admitidos.escuchar {basura : Basura} (h : Admitidos entK entM s₀ pre s)
    (hr : Reaches (pasoModulos entK entM) s₀ pre s)
    (hs : s.sinAtendidas.escuchar entK basura = .ok (s', o)) :
    Admitidos entK entM s₀ (pre ++ [a]) s' := by
  have hent := h.entero.sinAtendidas
  obtain ⟨ms, ms', hf⟩ := h.frontera
  have hf₀ : s.sinAtendidas.Leyo ms ms' := hf
  unfold Modulos.escuchar at hs
  split at hs
  · exact h.enKernel hr hent h.frontera rfl rfl rfl (anunciado_planificador (.inl rfl)) hs
  · split at hs
    · cases hs
    · rename_i hlee
      obtain ⟨m, _, -, hno, -⟩ := hf₀.siguiente hent hlee
      cases hno
    · rename_i r socket hlee
      obtain ⟨m, ms'', rfl, hrm, hf'⟩ := hf₀.siguiente hent hlee
      cases hrm
      rw [mensajeDe_recibido] at hs
      have hleyo := hent.leyo socket
      have hent' : Entero { s.sinAtendidas.leyo socket with planificando := m.planifica } :=
        ⟨hleyo.escrito, hleyo.enviadas, hleyo.respuestas, hleyo.atendidas⟩
      have hp : (Kernel.Paso.memoria m).Anunciado s.confirmados s.kernel := by
        refine ⟨rfl, nofun, ?_⟩
        rintro d hd
        cases hd
        have hmem : Kernel.MensajeMemoria.confirmarCreacionHilo d ∈ s.enviadas := by
          rw [hf.1]
          exact List.mem_append_right _ List.mem_cons_self
        exact List.mem_filterMap.mpr ⟨_, hmem, rfl⟩
      exact h.enKernel hr hent' ⟨_, _, hf'⟩ rfl rfl rfl hp hs

theorem Admitidos.atender {malloc : Malloc} (h : Admitidos entK entM s₀ pre s)
    (hr : Reaches (pasoModulos entK entM) s₀ pre s)
    (hs : s.sinAtendidas.atender entM malloc = .ok (s', o)) :
    Admitidos entK entM s₀ (pre ++ [.memoriaAtiende malloc]) s' := by
  have hent := h.entero.sinAtendidas.atender hs
  obtain ⟨ms, ms', hf⟩ := h.frontera
  unfold Modulos.atender at hs
  split at hs
  · cases hs
  · cases hs
  · rename_i p resto _ hpedidos
    split at hs
    · cases hs
    · rename_i q hq
      split at hs
      · cases hs
      · rename_i m' o' hm
        split at hs
        · cases hs
        · cases hs
          have hids : Modulos.confirmados { s.sinAtendidas with
              enviadas := s.enviadas ++ o'.filterMap respuestaKernel } =
                s.confirmados ++ (o'.filterMap respuestaKernel).filterMap confirma :=
            List.filterMap_append
          refine ⟨hent, ⟨ms, ms' ++ o'.filterMap respuestaKernel, ?_, hf.2⟩, ?_, ?_⟩
          · show s.enviadas ++ _ = _
            rw [hf.1, List.append_assoc]
          · show s.kernel.Conoce (Modulos.confirmados { s.sinAtendidas with
              enviadas := s.enviadas ++ o'.filterMap respuestaKernel })
            rw [hids]
            exact h.kernel.mono (List.subset_append_left _ _)
          · intro id hid
            replace hid : id ∈ s.confirmados ++
                (o'.filterMap respuestaKernel).filterMap confirma := hids ▸ hid
            show id ∈ m'.listaContextos.map Memoria.ContextoEjecucion.clave ∨ _
            rw [happened_snoc hr]
            rcases List.mem_append.mp hid with hid | hid
            · rcases h.contextos id hid with hctx | hev
              · by_cases hfin : ∃ d : TDatosEsenciales,
                    q = .finalizarHilo d ∧ (d.pidInv, d.tidInv) = id
                · obtain ⟨d, rfl, hd⟩ := hfin
                  refine .inr (.inr ⟨d, ?_, hd⟩)
                  have hcabeza : s.pedidos = p :: resto := hpedidos
                  rw [hcabeza]
                  exact hq
                · refine .inl (clave_tras_atender hm hctx fun d hd hne => hfin ⟨d, hd, hne⟩)
              · exact .inr (.inl hev)
            · exact .inl (clave_de_confirmada hm hid)

/-- **The step lemma.** -/
theorem Admitidos.paso (h : Admitidos entK entM s₀ pre s)
    (hr : Reaches (pasoModulos entK entM) s₀ pre s) (hcorta : a.corta = false)
    (hemite : s.EmiteDespachado a) (hs : pasoModulos entK entM s a = .ok (s', o)) :
    Admitidos entK entM s₀ (pre ++ [a]) s' := by
  have hent := h.entero.sinAtendidas
  cases a with
  | syscall y =>
    have hp : (Kernel.Paso.syscall y).Anunciado s.confirmados s.kernel := by
      refine ⟨hcorta, ?_, nofun⟩
      rintro y' hy
      cases hy
      exact hemite
    exact h.enKernel hr hent h.frontera rfl rfl rfl hp hs
  | cortoPlazo =>
    exact h.enKernel hr hent h.frontera rfl rfl rfl (anunciado_planificador (.inl rfl)) hs
  | largoPlazo =>
    exact h.enKernel hr hent h.frontera rfl rfl rfl (anunciado_planificador (.inr rfl)) hs
  | recibirMensaje n => cases hcorta
  | kernelEscucha basura => exact h.escuchar hr hs
  | memoriaAtiende malloc => exact h.atender hr hs
  | memoriaVuelca tm malloc valorAEnviar => cases hcorta
  | memoriaCpu q =>
    replace hs : s.sinAtendidas.atenderCpu entM q = .ok (s', o) := hs
    unfold Modulos.atenderCpu at hs
    split at hs
    · rename_i horigen
      split at hs
      · cases hs
      · rename_i m' o' hm
        cases hs
        refine ⟨⟨h.entero.escrito, h.entero.enviadas, h.entero.respuestas, rfl⟩, h.frontera,
          h.kernel, fun id hid => ?_⟩
        show id ∈ m'.listaContextos.map Memoria.ContextoEjecucion.clave ∨ _
        rw [happened_snoc hr]
        refine (h.contextos id hid).imp (fun hctx => ?_) .inl
        refine clave_tras_atender hm hctx ?_
        rintro d rfl
        cases horigen
    · cases hs

/-- **A thread that the scheduler has can get its context.** Take the kernel from its start and
memoria in any state, with bytes between them, and a run of both in which syscalls come from threads
that had the CPU, memoria forwards no answer of the file system, nobody takes bytes of its replies
as a text, and no process is closed. In each state of the run, memoria answers the
`OBTENER_CONTEXTO` of every thread that waits for the CPU, is blocked, or had the CPU, and is not
freed, unless it read a `FINALIZAR_HILO` of that thread before. -/
theorem contexto_obtenible (entK : Kernel.Entorno) (entM : Memoria.Entorno)
    (tcbs : Kernel.Dir → Kernel.TCB) (pcbs : Kernel.Dir → Kernel.PCB)
    (uint32s : Kernel.Dir → Uint32) (m : Memoria.Estado) (as : List Suceso)
    (hcorta : ∀ a ∈ as, a.corta = false)
    (hemite : EveryStep (pasoModulos entK entM)
      (.nuevos (Kernel.estadoInicial tcbs pcbs uint32s) m) as fun _ s a => s.EmiteDespachado a) :
    EveryState (pasoModulos entK entM) (.nuevos (Kernel.estadoInicial tcbs pcbs uint32s) m) as
      fun pre s => ∀ h, s.kernel.plani.Planificado h → h ∉ s.kernel.liberados →
        Obtenible entM s.memoria (s.kernel.idDe h) ∨
          Happened (pasoModulos entK entM)
            (.nuevos (Kernel.estadoInicial tcbs pcbs uint32s) m) pre
            (Modulos.Olvida (s.kernel.idDe h)) := by
  intro pre s hpre hr h hh hlib
  have hinicio : Admitidos entK entM (.nuevos (Kernel.estadoInicial tcbs pcbs uint32s) m) []
      (.nuevos (Kernel.estadoInicial tcbs pcbs uint32s) m) :=
    ⟨entero_nuevos _ _, ⟨[], [], rfl, rfl⟩, Kernel.conoce_inicio tcbs pcbs uint32s,
      fun _ hid => absurd hid List.not_mem_nil⟩
  have hI := hr.invariant (hemite.restrict hpre) hinicio fun q s₁ a s₂ o ha hq hI hem hs =>
    hI.paso hq (hcorta a (hpre.subset ha)) hem hs
  rw [obtenible_iff]
  exact hI.contextos _ ((hI.kernel.hilos h hh).2 hlib)

/-- The main thread of the first process gets the CPU, and asks for a dump. -/
theorem contexto_obtenible_primerVolcado :
    (∃ s, Reaches (pasoModulos Kernel.entornoFifo (Memoria.entornoDinamico 100 (by decide)))
        modulosCero primerVolcado s ∧ s.kernel.colaExec = [3]) ∧
      EveryState (pasoModulos Kernel.entornoFifo (Memoria.entornoDinamico 100 (by decide)))
        modulosCero primerVolcado fun pre s =>
          ∀ h, s.kernel.plani.Planificado h → h ∉ s.kernel.liberados →
            Obtenible (Memoria.entornoDinamico 100 (by decide)) s.memoria (s.kernel.idDe h) ∨
              Happened (pasoModulos Kernel.entornoFifo (Memoria.entornoDinamico 100 (by decide)))
                modulosCero pre (Modulos.Olvida (s.kernel.idDe h)) :=
  ⟨reaches_of_map (g := fun s : Modulos => s.kernel.colaExec) (by decide +kernel),
    contexto_obtenible _ _ _ _ _ _ _ (by decide +kernel)
      (EveryStep.of_check (C := fun (s : Modulos) a => s.EmiteDespachado a) (by decide +kernel))⟩

end Corridas

end LastOfC.Sistema
