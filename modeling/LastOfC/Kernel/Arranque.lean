import LastOfC.Lib.PeekQueue
import LastOfC.Kernel.Tabla

/-!
# The start of the processes

`iniciar_proceso` asks memoria for the space of the first process of `cola_new`, and leaves it
there; `crear_hilo` takes the process that is first when memoria answers with bit 1. Two threads
call `iniciar_proceso`: the long-term scheduler, and `finalizar_proceso`.

* `Arranque`: the globals, the `ASIGNAR_MEMORIA` that memoria did not answer, and what each answer
  with bit 1 started. Memoria answers each request once, in order, with its pid.
* `UnaVez`: each process that left `cola_new` is the one that memoria confirmed, and got one main
  thread.
* The queue is a `Peek` (`Arranque.cola`), and each step is one of its operations
  (`Regular.tras_paso`).
* `arranque_iff`: every answer with bit 1 finds its own process first exactly when none is for a
  request that was in flight at an earlier answer with bit 1. Then `UnaVez` holds along the run.
-/

namespace LastOfC.Kernel

open Imp Trace PeekQueue

/-! ## The machine -/

structure Arranque where
  kernel : Estado
  /-- The `ASIGNAR_MEMORIA` in flight. One is stale if memoria gave a bit 1 after it was sent. -/
  pedidos : List (Request Uint32)
  /-- For each answer with bit 1, its pid and the PCB that left `cola_new`. -/
  altas : List (Uint32 × Dir)

inductive Suceso where
  | processCreate (d : TProcessCreate)
  | processExit (d : TDatosEsenciales)
  | largoPlazo
  /-- The answer of memoria to the oldest request. -/
  | respuesta (bit : Uint32)
  deriving DecidableEq, Repr

/-- The new requests among the packets. -/
def pedidosDe (o : List Paquete) : List (Request Uint32) :=
  o.filterMap fun
    | .asignarMemoria pid _ => some ⟨pid, false⟩
    | _ => none

/-- The pids and tids of the `HILO_READY` among the packets. -/
def hilosDe (o : List Paquete) : List (Uint32 × Uint32) :=
  o.filterMap fun
    | .hiloReady d => some (d.PID, d.TID)
    | _ => none

namespace Arranque

def enKernel (s : Arranque) (ent : Entorno) (p : Paso) : Except Falla (Arranque × List Paquete) :=
  match paso ent s.kernel p with
  | .ok (k', o) => .ok ({ s with kernel := k', pedidos := s.pedidos ++ pedidosDe o }, o)
  | .error f => .error f

/-- The answer to the request `r`; `resto` are the others. -/
def responder (s : Arranque) (ent : Entorno) (r : Request Uint32) (resto : List (Request Uint32))
    (bit : Uint32) : Except Falla (Arranque × List Paquete) :=
  match paso ent s.kernel (.memoria (.confirmarEspacioProceso ⟨r.key, bit⟩)) with
  | .ok (k', o) =>
    if bit = 1 then
      .ok ({ kernel := k'
             pedidos := resto.map Request.age ++ pedidosDe o
             altas := s.altas ++ s.kernel.colaNew.head?.toList.map fun q => (r.key, q) }, o)
    else .ok ({ s with kernel := k', pedidos := resto ++ pedidosDe o }, o)
  | .error f => .error f

def nuevo (k : Estado) : Arranque :=
  { kernel := k, pedidos := [], altas := [] }

end Arranque

/-- With no request in flight there is no answer. -/
def pasoArranque (ent : Entorno) (s : Arranque) : Suceso → Except Falla (Arranque × List Paquete)
  | .processCreate d => s.enKernel ent (.syscall (.processCreate d))
  | .processExit d => s.enKernel ent (.syscall (.processExit d))
  | .largoPlazo => s.enKernel ent .largoPlazo
  | .respuesta bit =>
    match s.pedidos with
    | [] => .error .espera
    | r :: resto => s.responder ent r resto bit

/-- The step runs `iniciar_proceso`. -/
def Suceso.Inicia (ent : Entorno) : Suceso → Prop
  | .largoPlazo => True
  | .processExit d => d.tidInv = 0 ∧ ent.mensajeFinProceso = ['O', 'K']
  | _ => False

instance (ent : Entorno) (e : Suceso) : Decidable (e.Inicia ent) :=
  match e with
  | .processCreate _ => isFalse not_false
  | .processExit d =>
    inferInstanceAs (Decidable (d.tidInv = 0 ∧ ent.mensajeFinProceso = ['O', 'K']))
  | .largoPlazo => isTrue trivial
  | .respuesta _ => isFalse not_false

/-- The step is an answer with bit 1 to the request `r`. -/
def Confirma (s : Arranque) (e : Suceso) (r : Request Uint32) : Prop :=
  e = .respuesta 1 ∧ ∃ resto, s.pedidos = r :: resto

/-! ## One main thread for each process -/

structure Arranque.UnaVez (s : Arranque) : Prop where
  distintos : s.kernel.listaProcesos.Nodup
  /-- The processes that are not in `cola_new` left it in an answer with bit 1, each in one. -/
  procesos : s.kernel.listaProcesos = s.altas.map Prod.snd ++ s.kernel.colaNew
  confirmado : ∀ a ∈ s.altas, (s.kernel.pcbs a.2).pid = a.1
  /-- Memoria got one `HILO_READY` for each of these answers, with tid 0. -/
  principal : hilosDe s.kernel.enviados = s.altas.map fun a => (a.1, 0)
  hilos : s.kernel.listaTcbs.length = s.altas.length

namespace Arranque

/-- `cola_new` and the requests, as pids. -/
def cola (s : Arranque) : Peek Uint32 where
  waiting := s.kernel.colaNew.map fun p => (s.kernel.pcbs p).pid
  asked := s.pedidos
  taken := s.altas.map fun a => (a.1, (s.kernel.pcbs a.2).pid)

structure Regular (s : Arranque) : Prop where
  tabla : s.kernel.TablaSana
  procesos : s.kernel.listaProcesos = s.altas.map Prod.snd ++ s.kernel.colaNew
  enOrden : s.cola.InOrder
  principal : hilosDe s.kernel.enviados = s.altas.map fun a => (a.1, 0)
  hilos : s.kernel.listaTcbs.length = s.altas.length

variable {ent : Entorno} {s s' : Arranque} {k k' : Estado} {o : List Paquete}

theorem Regular.unaVez (h : s.Regular) : s.UnaVez where
  distintos := h.tabla.distintos
  procesos := h.procesos
  confirmado _ ha := h.enOrden.matched _ (List.mem_map_of_mem ha)
  principal := h.principal
  hilos := h.hilos

/-- The pids of the queue, those that left it first. -/
theorem Regular.order_cola (h : s.Regular) :
    s.cola.order = s.kernel.listaProcesos.map fun p => (s.kernel.pcbs p).pid := by
  unfold Peek.order Arranque.cola
  rw [h.procesos, List.map_append, List.map_map, List.map_map]
  rfl

theorem enKernel_ok {p : Paso} (h : s.enKernel ent p = .ok (s', o)) :
    ∃ k', paso ent s.kernel p = .ok (k', o) ∧
      s' = { s with kernel := k', pedidos := s.pedidos ++ pedidosDe o } := by
  unfold enKernel at h
  cases hp : paso ent s.kernel p with
  | error f =>
    rw [hp] at h
    cases h
  | ok r =>
    rw [hp] at h
    cases h
    exact ⟨r.1, rfl, rfl⟩

theorem responder_ok {r : Request Uint32} {resto : List (Request Uint32)} {bit : Uint32}
    (h : s.responder ent r resto bit = .ok (s', o)) :
    ∃ k', paso ent s.kernel (.memoria (.confirmarEspacioProceso ⟨r.key, bit⟩)) = .ok (k', o) ∧
      ((bit ≠ 1 ∧ s' = { s with kernel := k', pedidos := resto ++ pedidosDe o }) ∨
        (bit = 1 ∧ s' = { kernel := k'
                          pedidos := resto.map Request.age ++ pedidosDe o
                          altas := s.altas ++
                            s.kernel.colaNew.head?.toList.map fun q => (r.key, q) })) := by
  unfold responder at h
  cases hp : paso ent s.kernel (.memoria (.confirmarEspacioProceso ⟨r.key, bit⟩)) with
  | error f =>
    rw [hp] at h
    cases h
  | ok p =>
    rw [hp] at h
    by_cases hbit : bit = 1
    · simp only [if_pos hbit] at h
      cases h
      exact ⟨p.1, rfl, .inr ⟨hbit, rfl⟩⟩
    · simp only [if_neg hbit] at h
      cases h
      exact ⟨p.1, rfl, .inl ⟨hbit, rfl⟩⟩

/-! ## Each step is an operation of the queue -/

theorem paso_envia {p : Paso} {ps : List Paquete} (h : paso ent k p = .ok (k', o))
    (hps : k'.enviados = k.enviados ++ ps) : o = ps := by
  rw [paso_salida h, hps, List.drop_left]

theorem hilosDe_append (o o' : List Paquete) : hilosDe (o ++ o') = hilosDe o ++ hilosDe o' :=
  List.filterMap_append

theorem pedidosDe_append (o o' : List Paquete) :
    pedidosDe (o ++ o') = pedidosDe o ++ pedidosDe o' :=
  List.filterMap_append

/-- The end of threads starts none and asks for no process. -/
theorem Envia.sin_pedidos (h : Envia Paquete.EsFinalizarHilo k k') :
    ∃ ps, k'.enviados = k.enviados ++ ps ∧ hilosDe ps = [] ∧ pedidosDe ps = [] := by
  obtain ⟨ps, hps, hfin⟩ := h
  refine ⟨ps, hps, List.filterMap_eq_nil_iff.mpr fun q hq => ?_,
    List.filterMap_eq_nil_iff.mpr fun q hq => ?_⟩
  all_goals
    have hfin := hfin q hq
    cases q with
    | finalizarHilo buffer => rfl
    | _ => exact hfin.elim

/-- `PROCESS_EXIT` starts no thread, and asks for a process if it runs `iniciar_proceso`. -/
theorem processExit_envios {d : TDatosEsenciales} (hr : (processExit ent d).run k = .ok () k') :
    MismaTabla k k' ∧ ∃ ps, k'.enviados = k.enviados ++ ps ∧ hilosDe ps = [] ∧
      (pedidosDe ps = [] ∨ Suceso.Inicia ent (.processExit d) ∧
        ∀ q resto, k.colaNew = q :: resto → pedidosDe ps = [⟨(k.pcbs q).pid, false⟩]) := by
  rcases processExit_ok hr with ⟨-, rfl⟩ | ⟨htid, m, vs, hfin⟩
  · exact ⟨.de_pcbs rfl rfl rfl rfl (Nat.le_refl _) rfl, [], by simp, rfl, .inl rfl⟩
  obtain ⟨p, hp, ⟨-, rfl⟩ | ⟨k₁, m₁, vs₁, m₂, vs₂, hok, hloop, -, rfl⟩⟩ := finalizarProceso_ok hfin
  · exact ⟨.de_pcbs rfl rfl rfl rfl (Nat.le_refl _) rfl, [.finalizarProceso (k.pcbs p).pid], rfl,
      rfl, .inl rfl⟩
  · have haviso : MismaTabla k (((k.conCerrojo m vs).avisarFinProceso p).conCerrojo m₁ vs₁) :=
      .de_pcbs rfl rfl rfl rfl (Nat.le_refl _) rfl
    have hm₁ := haviso.trans (finalizarTodos_tabla hloop)
    have hp₁ : k₁.buscarProceso (k₁.pcbs p).pid = some p := by
      rw [hm₁.buscarProceso, hm₁.pidDe, pid_of_buscarProceso hp]
      exact hp
    have hm₂ := cerrarProceso_tabla hp₁ m₂ vs₂
    obtain ⟨ps, hps, hhilos, hped⟩ := Envia.sin_pedidos (finalizarTodos_envia hloop)
    obtain ⟨tam, hult⟩ : ∃ tam, ((k₁.cerrarProceso p).conCerrojo m₂ vs₂).enviados =
        k₁.enviados ++ [.asignarMemoria
          (((k₁.cerrarProceso p).conCerrojo m₂ vs₂).pcbs (k₁.colaNew.headD k₁.proximo)).pid tam] :=
      ⟨_, rfl⟩
    refine ⟨hm₁.trans hm₂, [.finalizarProceso (k.pcbs p).pid] ++ ps ++ [.asignarMemoria
      (((k₁.cerrarProceso p).conCerrojo m₂ vs₂).pcbs (k₁.colaNew.headD k₁.proximo)).pid tam],
      ?_, ?_, .inr ⟨⟨htid, hok⟩, fun q resto hq => ?_⟩⟩
    · rw [hult, hps, ← List.append_assoc, ← List.append_assoc]
      rfl
    · rw [hilosDe_append, hilosDe_append, hhilos]
      rfl
    · rw [pedidosDe_append, pedidosDe_append, hped, hm₁.nuevos, hq, List.headD_cons, hm₂.pidDe,
        hm₁.pidDe]
      rfl

/-- A step that leaves the table as it is, and may ask for the first process of `cola_new`. -/
theorem Regular.tras_misma (h : s.Regular) (hm : MismaTabla s.kernel k')
    (hhilos : hilosDe k'.enviados = hilosDe s.kernel.enviados) {ps : List (Request Uint32)}
    (hps : ps = [] ∨ ∃ pid, ps = [⟨pid, false⟩] ∧ s.cola.waiting.head? = some pid) :
    ({ s with kernel := k', pedidos := s.pedidos ++ ps } : Arranque).Regular := by
  have hcola : ({ s with kernel := k', pedidos := s.pedidos ++ ps } : Arranque).cola =
      ({ s.cola with asked := s.pedidos ++ ps } : Peek Uint32) := by
    unfold Arranque.cola
    simp only [hm.nuevos, hm.pidDe]
  refine ⟨hm.sana h.tabla, ?_, ?_, hhilos.trans h.principal, ?_⟩
  · show k'.listaProcesos = s.altas.map Prod.snd ++ k'.colaNew
    rw [hm.procesos, hm.nuevos]
    exact h.procesos
  · rw [hcola]
    rcases hps with rfl | ⟨pid, rfl, hhead⟩
    · rw [List.append_nil]
      exact h.enOrden
    · exact h.enOrden.ask hhead
  · show k'.listaTcbs.length = s.altas.length
    rw [hm.hilos]
    exact h.hilos

theorem Regular.tras_largoPlazo (h : s.Regular) (hnew : s.kernel.colaNew ≠ [])
    (hp : pasoArranque ent s .largoPlazo = .ok (s', o)) : s'.Regular := by
  obtain ⟨k', hpaso, rfl⟩ := enKernel_ok hp
  obtain ⟨q, resto, hq⟩ := List.exists_cons_of_ne_nil hnew
  obtain ⟨-, hk'⟩ := planificadorDeLargoPlazo_ok (paso_ok hpaso)
  have henv : k'.enviados = s.kernel.enviados ++
      [.asignarMemoria (s.kernel.pcbs q).pid (s.kernel.pcbs q).tamProceso] := by
    rw [hk', hq]
    rfl
  have hm : MismaTabla s.kernel k' := by
    rw [hk']
    exact .de_pcbs rfl rfl rfl rfl (Nat.le_succ _) rfl
  rw [paso_envia hpaso henv]
  refine h.tras_misma hm ?_ (.inr ⟨(s.kernel.pcbs q).pid, rfl, ?_⟩)
  · rw [henv, hilosDe_append]
    exact List.append_nil _
  · simp [Arranque.cola, hq]

theorem Regular.tras_processExit (h : s.Regular) {d : TDatosEsenciales}
    (hnew : Suceso.Inicia ent (.processExit d) → s.kernel.colaNew ≠ [])
    (hp : pasoArranque ent s (.processExit d) = .ok (s', o)) : s'.Regular := by
  obtain ⟨k', hpaso, rfl⟩ := enKernel_ok hp
  obtain ⟨hm, ps, henv, hhilos, hped⟩ := processExit_envios (paso_ok hpaso)
  rw [paso_envia hpaso henv]
  refine h.tras_misma hm ?_ ?_
  · rw [henv, hilosDe_append, hhilos, List.append_nil]
  · rcases hped with hnada | ⟨hinicia, huno⟩
    · exact .inl hnada
    · obtain ⟨q, resto, hq⟩ := List.exists_cons_of_ne_nil (hnew hinicia)
      refine .inr ⟨(s.kernel.pcbs q).pid, huno q resto hq, ?_⟩
      simp [Arranque.cola, hq]

theorem Regular.tras_processCreate (h : s.Regular) {d : TProcessCreate}
    (hp : pasoArranque ent s (.processCreate d) = .ok (s', o)) : s'.Regular := by
  obtain ⟨k', hpaso, rfl⟩ := enKernel_ok hp
  obtain ⟨henv, hn⟩ := crearProceso_nuevo (paso_ok hpaso)
  have hsin : o = [] := paso_envia hpaso (by rw [henv, List.append_nil])
  subst hsin
  have hsinPedidos : pedidosDe [] = [] := rfl
  have hpid : ∀ p ∈ s.kernel.listaProcesos, (k'.pcbs p).pid = (s.kernel.pcbs p).pid := by
    intro p hp
    rw [hn.pcbs h.tabla hp]
  have hcola : ({ s with kernel := k', pedidos := s.pedidos ++ pedidosDe [] } : Arranque).cola =
      s.cola.push k'.pid := by
    have hnew : ∀ p ∈ s.kernel.colaNew, (k'.pcbs p).pid = (s.kernel.pcbs p).pid := fun p hp =>
      hpid p (h.procesos ▸ List.mem_append_right _ hp)
    have haltas : ∀ a ∈ s.altas, (a.1, (k'.pcbs a.2).pid) = (a.1, (s.kernel.pcbs a.2).pid) := by
      intro a ha
      rw [hpid a.2 (h.procesos ▸ List.mem_append_left _ (List.mem_map_of_mem ha))]
    unfold Arranque.cola Peek.push
    simp only [hn.nuevos, List.map_append, List.map_cons, List.map_nil, hn.pidDe,
      List.map_congr_left hnew, List.map_congr_left haltas, hsinPedidos, List.append_nil]
  refine ⟨hn.sana h.tabla, ?_, ?_, ?_, ?_⟩
  · show k'.listaProcesos = s.altas.map Prod.snd ++ k'.colaNew
    rw [hn.procesos, hn.nuevos, h.procesos, List.append_assoc]
  · rw [hcola]
    refine h.enOrden.push fun b hb => ?_
    rw [h.order_cola, List.getLast?_map] at hb
    obtain ⟨p, hp, rfl⟩ := Option.map_eq_some_iff.mp hb
    rw [h.tabla.ultimo p hp, hn.pid]
    bv_omega
  · show hilosDe k'.enviados = _
    rw [henv]
    exact h.principal
  · show k'.listaTcbs.length = s.altas.length
    rw [hn.hilos]
    exact h.hilos

/-- The first process of `cola_new` starts with tid 0, if it is the one that `crear_hilo` found. -/
theorem contador_cero (h : s.Regular) {q p : Dir} {resto : List Dir} {tids : List Puntero}
    (hq : s.kernel.colaNew = q :: resto)
    (hp : s.kernel.buscarProceso (s.kernel.pcbs q).pid = some p)
    (ht : (s.kernel.pcbs p).listaTid = some tids) : (s.kernel.pcbs q).tidContador = 0 := by
  have hmem : q ∈ s.kernel.listaProcesos := by
    rw [h.procesos, hq]
    exact List.mem_append_right _ List.mem_cons_self
  rcases h.tabla.contador q hmem with hcero | ⟨hlista, hbus⟩
  · exact hcero
  · rw [hp] at hbus
    obtain rfl := Option.some.inj hbus
    rw [hlista] at ht
    cases ht

/-- An answer with bit 1 to a fresh request starts the process that it confirms. -/
theorem Regular.tras_alta (h : s.Regular) {r : Request Uint32} {resto : List (Request Uint32)}
    (hped : s.pedidos = r :: resto) (hf : r.stale = false)
    (hc : (crearHilo r.key).run s.kernel = .ok () k')
    (hpaso : paso ent s.kernel (.memoria (.confirmarEspacioProceso ⟨r.key, 1⟩)) =
      .ok (k'.postPlaniLargoPlazo, o)) :
    ({ kernel := k'.postPlaniLargoPlazo
       pedidos := resto.map Request.age ++ pedidosDe o
       altas := s.altas ++ s.kernel.colaNew.head?.toList.map fun q => (r.key, q) } :
      Arranque).Regular := by
  obtain ⟨p, q, cola, tids, m, vs, hp, hq, ht, hk'⟩ := crearHilo_ok hc
  have hasked : s.cola.asked = r :: resto := hped
  have hkey : (s.kernel.pcbs q).pid = r.key := by
    have hhead := h.enOrden.fresh r (hasked ▸ List.mem_cons_self) hf
    simpa [Arranque.cola, hq] using hhead
  have hcero : (s.kernel.pcbs q).tidContador = 0 := contador_cero h hq (hkey.symm ▸ hp) ht
  have hno : (s.kernel.pcbs p).listaTid ≠ none := ht ▸ Option.some_ne_none tids
  have hm := agregarTid_tabla hno (tids ++ [.bloque s.kernel.proximo]) 2
  have hpid : ∀ d, (k'.postPlaniLargoPlazo.pcbs d).pid = (s.kernel.pcbs d).pid := by
    intro d
    rw [hk']
    exact hm.pidDe d
  have henv : k'.postPlaniLargoPlazo.enviados = s.kernel.enviados ++
      [.hiloReady ⟨r.key, 0, (s.kernel.pcbs q).prioridadMain, (s.kernel.pcbs q).pathMain⟩] := by
    rw [hk', ← hkey, ← hcero]
    rfl
  have hproc : k'.postPlaniLargoPlazo.listaProcesos = s.kernel.listaProcesos := by
    rw [hk']
    rfl
  have hnew : k'.postPlaniLargoPlazo.colaNew = cola := by
    rw [hk']
    rfl
  have htcbs : k'.postPlaniLargoPlazo.listaTcbs = s.kernel.listaTcbs ++ [s.kernel.proximo + 1] := by
    rw [hk']
    rfl
  have hsana : k'.postPlaniLargoPlazo.TablaSana := by
    have hsana := hm.sana h.tabla
    rw [hk']
    exact ⟨hsana.distintos, hsana.previos, hsana.ultimo, hsana.contador⟩
  rw [paso_envia hpaso henv, hq]
  refine ⟨hsana, ?_, ?_, ?_, ?_⟩
  · show k'.postPlaniLargoPlazo.listaProcesos = _
    rw [hproc, hnew, h.procesos, hq, List.map_append, List.append_assoc]
    rfl
  · have hwait : s.cola.waiting = r.key :: cola.map fun d => (s.kernel.pcbs d).pid := by
      simp [Arranque.cola, hq, hkey]
    have hgrant := h.enOrden.grant hasked hwait hf
    have hcola : Arranque.cola
        { kernel := k'.postPlaniLargoPlazo
          pedidos := resto.map Request.age ++ pedidosDe [.hiloReady
            ⟨r.key, 0, (s.kernel.pcbs q).prioridadMain, (s.kernel.pcbs q).pathMain⟩]
          altas := s.altas ++ [(r.key, q)] } =
        s.cola.grant r resto r.key (cola.map fun d => (s.kernel.pcbs d).pid) := by
      unfold Arranque.cola Peek.grant
      simp [hnew, hpid, hkey, pedidosDe]
    exact hcola ▸ hgrant
  · show hilosDe k'.postPlaniLargoPlazo.enviados = _
    rw [henv, hilosDe_append, h.principal, List.map_append]
    rfl
  · show k'.postPlaniLargoPlazo.listaTcbs.length = _
    rw [htcbs, List.length_append, h.hilos, List.length_append]
    rfl

theorem Regular.tras_respuesta (h : s.Regular) {bit : Uint32}
    (hfresco : ∀ r, Confirma s (.respuesta bit) r → r.stale = false)
    (hp : pasoArranque ent s (.respuesta bit) = .ok (s', o)) : s'.Regular := by
  cases hped : s.pedidos with
  | nil =>
    simp only [pasoArranque, hped] at hp
    cases hp
  | cons r resto =>
    simp only [pasoArranque, hped] at hp
    obtain ⟨k', hpaso, ⟨hbit, rfl⟩ | ⟨hbit, rfl⟩⟩ := responder_ok hp
    · rcases confirmarEspacioProceso_ok (paso_ok hpaso) with ⟨-, rfl⟩ | ⟨k₁, hno, -⟩
      · obtain rfl : o = [] := paso_envia hpaso (List.append_nil _).symm
        have hasked : s.cola.asked = r :: resto := hped
        refine ⟨?_, h.procesos, ?_, h.principal, h.hilos⟩
        · exact ⟨h.tabla.distintos, h.tabla.previos, h.tabla.ultimo, h.tabla.contador⟩
        · have hdeny := h.enOrden.deny hasked
          have hnada : resto ++ pedidosDe [] = resto := List.append_nil resto
          rw [hnada]
          exact hdeny
      · exact absurd hno hbit
    · rcases confirmarEspacioProceso_ok (paso_ok hpaso) with ⟨hno, -⟩ | ⟨k₁, -, hc, rfl⟩
      · exact absurd hbit hno
      subst hbit
      exact h.tras_alta hped (hfresco r ⟨rfl, resto, hped⟩) hc hpaso

/-- **Each step keeps `Regular`**, an answer with bit 1 if it is to a fresh request. -/
theorem Regular.tras_paso (h : s.Regular) {e : Suceso}
    (hnew : e.Inicia ent → s.kernel.colaNew ≠ [])
    (hfresco : ∀ r, Confirma s e r → r.stale = false)
    (hp : pasoArranque ent s e = .ok (s', o)) : s'.Regular := by
  cases e with
  | processCreate d => exact h.tras_processCreate hp
  | processExit d => exact h.tras_processExit hnew hp
  | largoPlazo => exact h.tras_largoPlazo (hnew trivial) hp
  | respuesta bit => exact h.tras_respuesta hfresco hp

theorem nuevo_regular (tcbs : Dir → TCB) (pcbs : Dir → PCB) (uint32s : Dir → Uint32) :
    (nuevo (estadoInicial tcbs pcbs uint32s)).Regular where
  tabla :=
    { distintos := List.nodup_nil
      previos := fun _ hp => absurd hp List.not_mem_nil
      ultimo := fun _ hp => absurd hp.symm (Option.some_ne_none _)
      contador := fun _ hp => absurd hp List.not_mem_nil }
  procesos := rfl
  enOrden := ⟨List.isChain_nil, fun _ ht => absurd ht List.not_mem_nil,
    fun _ hr => absurd hr List.not_mem_nil, fun _ hr => absurd hr List.not_mem_nil,
    List.Pairwise.nil⟩
  principal := rfl
  hilos := rfl

end Arranque

/-! ## Runs -/

/-- The process that leaves `cola_new` in an answer with bit 1 is the one that it confirms. -/
def SacaSuyo (s : Arranque) (e : Suceso) : Prop :=
  ∀ r, Confirma s e r →
    ∃ q, s.kernel.colaNew.head? = some q ∧ (s.kernel.pcbs q).pid = r.key

theorem sacaSuyo_iff {s : Arranque} (h : s.Regular) (e : Suceso) :
    SacaSuyo s e ↔ ∀ r, Confirma s e r → r.stale = false := by
  refine forall_congr' fun r => imp_congr_right fun hr => ?_
  obtain ⟨-, resto, hped⟩ := hr
  have hasked : s.cola.asked = r :: resto := hped
  rw [← h.enOrden.head_iff hasked]
  unfold Arranque.cola
  rw [List.head?_map, Option.map_eq_some_iff]

/-- **A confirmation starts the process it confirms, once**, along a run where `iniciar_proceso`
always finds a process, exactly when memoria gives bit 1 to no request that was in flight at an
earlier bit 1. -/
theorem arranque_iff (ent : Entorno) (tcbs : Dir → TCB) (pcbs : Dir → PCB)
    (uint32s : Dir → Uint32) (es : List Suceso)
    (hnew : EveryStep (pasoArranque ent) (.nuevo (estadoInicial tcbs pcbs uint32s)) es
      fun _ s e => e.Inicia ent → s.kernel.colaNew ≠ []) :
    (EveryTry (pasoArranque ent) (.nuevo (estadoInicial tcbs pcbs uint32s)) es
          (fun _ s e => SacaSuyo s e) ∧
        EveryState (pasoArranque ent) (.nuevo (estadoInicial tcbs pcbs uint32s)) es
          fun _ s => s.UnaVez) ↔
      EveryTry (pasoArranque ent) (.nuevo (estadoInicial tcbs pcbs uint32s)) es
        fun _ s e => ∀ r, Confirma s e r → r.stale = false := by
  have h0 := Arranque.nuevo_regular tcbs pcbs uint32s
  have hstep : ∀ (pre : List Suceso) s e s' o, (e.Inicia ent → s.kernel.colaNew ≠ []) → s.Regular →
      (∀ r, Confirma s e r → r.stale = false) → pasoArranque ent s e = .ok (s', o) →
      s'.Regular :=
    fun _ s e s' o hnew hs hfresco hp => hs.tras_paso hnew hfresco hp
  have hiff := everyTry_iff (P := fun _ s e => SacaSuyo s e)
    (I := fun _ s => Arranque.Regular s) hnew h0 hstep fun _ s e hs => sacaSuyo_iff hs e
  refine ⟨fun h => hiff.mp h.1, fun h => ⟨hiff.mpr h, fun pre s hpre hs => ?_⟩⟩
  exact (h.invariant (I := fun _ s => Arranque.Regular s) hnew h0 hstep pre s hpre hs).unaVez

/-- The rule for the start of the first process. -/
theorem arranque_primero :
    (EveryTry (pasoArranque entornoFifo) (.nuevo estadoCero)
          [.processCreate ⟨0, 0, ['a'], 32, 0⟩, .largoPlazo, .respuesta 1]
          (fun _ s e => SacaSuyo s e) ∧
        EveryState (pasoArranque entornoFifo) (.nuevo estadoCero)
          [.processCreate ⟨0, 0, ['a'], 32, 0⟩, .largoPlazo, .respuesta 1]
          fun _ s => s.UnaVez) ↔
      EveryTry (pasoArranque entornoFifo) (.nuevo estadoCero)
        [.processCreate ⟨0, 0, ['a'], 32, 0⟩, .largoPlazo, .respuesta 1]
        fun _ s e => ∀ r, Confirma s e r → r.stale = false :=
  arranque_iff entornoFifo _ _ _ _ (EveryStep.of_check (by decide +kernel))

/-- The first process starts and exits while the second one is asked for, so the second one is
asked for twice, and its second confirmation starts the third one. -/
def dosPedidos : List Suceso :=
  [.processCreate ⟨0, 0, ['a'], 32, 0⟩, .largoPlazo, .respuesta 1,
    .processCreate ⟨1, 0, ['b'], 32, 0⟩, .processCreate ⟨1, 0, ['c'], 32, 0⟩, .largoPlazo,
    .processExit ⟨1, 0⟩, .respuesta 1]

theorem confirmacion_ajena : ¬ ∀ es,
    EveryStep (pasoArranque entornoFifo) (.nuevo estadoCero) es
        (fun _ s e => e.Inicia entornoFifo → s.kernel.colaNew ≠ []) →
      EveryTry (pasoArranque entornoFifo) (.nuevo estadoCero) es fun _ s e => SacaSuyo s e := by
  intro h
  have hrun : (run (pasoArranque entornoFifo) (.nuevo estadoCero) dosPedidos).toOption.map
      (fun r => (r.1.pedidos, r.1.kernel.colaNew.map fun q => (r.1.kernel.pcbs q).pid)) =
      some ([⟨2, true⟩], [3]) := by
    decide +kernel
  obtain ⟨s, hs, hg⟩ := reaches_of_map (g := fun s : Arranque =>
    (s.pedidos, s.kernel.colaNew.map fun q => (s.kernel.pcbs q).pid)) hrun
  obtain ⟨hped, hcola⟩ := Prod.mk.inj hg
  obtain ⟨q, hq, hpid⟩ := h (dosPedidos ++ [.respuesta 1])
    (EveryStep.of_check (by decide +kernel)) dosPedidos s (.respuesta 1) (List.prefix_refl _) hs
    ⟨2, true⟩ ⟨rfl, [], hped⟩
  have hcabeza := congrArg List.head? hcola
  rw [List.head?_map, hq] at hcabeza
  have htres : (s.kernel.pcbs q).pid = 3 := Option.some.inj hcabeza
  rw [htres] at hpid
  exact absurd hpid (by decide)

end LastOfC.Kernel
