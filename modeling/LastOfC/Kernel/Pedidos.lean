import LastOfC.Kernel.Creacion
import LastOfC.Kernel.Salidas

/-!
# The requests for space

`iniciar_proceso` should ask memoria for the process that is first in `cola_new`, and for nothing
when the queue is empty. It is the last thing that a step does, so a step that stops has asked for
nothing (`sin_pedido`). The length of the queue is known from the history (`colaNew_length`), and
`pedidos_iff` says exactly which histories keep the law.
-/

namespace LastOfC.Kernel

open Imp Trace

variable {ent : Entorno} {k k' : Estado} {p : Paso} {o : List Paquete}

/-- The state in which a step ends, also where it stops. -/
def Paso.tras (ent : Entorno) (k : Estado) (p : Paso) : Estado := final (p.programa ent) k

/-- The packets that a step sends, also if it stops. -/
def Paso.envia (ent : Entorno) (k : Estado) (p : Paso) : List Paquete :=
  (p.tras ent k).enviados.drop k.enviados.length

/-- Each request for space among the packets is for the process that is first in `cola_new`. -/
def Estado.PideElPrimero (k : Estado) (o : List Paquete) : Prop :=
  ∀ pid tam, .asignarMemoria pid tam ∈ o →
    ∃ q, k.colaNew.head? = some q ∧ (k.pcbs q).pid = pid ∧ (k.pcbs q).tamProceso = tam

/-- The step gets to `iniciar_proceso`, if it does not stop before. -/
def Paso.IniciaProceso (ent : Entorno) : Paso → Prop
  | .largoPlazo => True
  | .syscall (.processExit d) => d.tidInv = 0 ∧ ent.mensajeFinProceso = ['O', 'K']
  | _ => False

def Paquete.EsAsignarMemoria : Paquete → Prop
  | .asignarMemoria _ _ => True
  | _ => False

theorem paso_tras (h : paso ent k p = .ok (k', o)) : p.tras ent k = k' :=
  final_of_ok (paso_ok h)

theorem paso_enviado (h : paso ent k p = .ok (k', o)) : p.envia ent k = o := by
  rw [Paso.envia, paso_tras h, paso_salida h]

/-! ## Where no request is sent -/

theorem envia_observa (P : Paquete → Prop) : Observa (Envia P k) := by
  rintro s s' henv - ⟨ps, hps, hP⟩
  exact ⟨ps, henv.trans hps, hP⟩

theorem envia_trasEnvio (P : Paquete → Prop) : TrasEnvio P (Envia P k) :=
  fun _ _ hq h => h.trans (.uno rfl hq)

theorem envia_trasFin (P : Paquete → Prop) : TrasFin (Envia P k) :=
  fun _ _ h => h.trans (.nada rfl)

/-- `finalizar_hilo` sends no request, also where it stops. -/
theorem finalizarHilo_sin_pedido (h : Dir) :
    Keeps (Envia (¬ Paquete.EsAsignarMemoria ·) k) (finalizarHilo ent h) :=
  finalizarHilo_observa (envia_observa _) (envia_trasEnvio _) (envia_trasFin _)
    (fun _ => not_false) h

/-- A step that does not get to `iniciar_proceso` by its kind. -/
theorem programa_sin_pedido (hlargo : p ≠ .largoPlazo)
    (hexit : ∀ d, p ≠ .syscall (.processExit d)) :
    Keeps (Envia (¬ Paquete.EsAsignarMemoria ·) k) (p.programa ent) := by
  have hI : Observa (Envia (¬ Paquete.EsAsignarMemoria ·) k) := envia_observa _
  have hE : TrasEnvio (¬ Paquete.EsAsignarMemoria ·) (Envia (¬ Paquete.EsAsignarMemoria ·) k) :=
    envia_trasEnvio _
  cases p with
  | syscall y =>
    by_cases hcancel : ∃ d, y = .threadCancel d
    · obtain ⟨d, rfl⟩ := hcancel
      exact threadCancel_observa hI d finalizarHilo_sin_pedido
    by_cases hfin : ∃ d, y = .threadExit d
    · obtain ⟨d, rfl⟩ := hfin
      exact threadExit_observa hI d finalizarHilo_sin_pedido
    exact syscall_observa hI hE (fun _ => not_false) (fun _ => not_false)
      (fun d hy => hexit d (hy ▸ rfl)) (fun d hy => hcancel ⟨d, hy⟩) fun d hy => hfin ⟨d, hy⟩
  | memoria m => exact kernelEscuchaMemoria_observa hI hE (fun _ => not_false) m
  | cortoPlazo => exact planificadorCortoPlazo_observa hI hE fun _ _ => not_false
  | largoPlazo => exact absurd rfl hlargo

/-- `iniciar_proceso` does not stop. -/
theorem iniciarProceso_vuelve (I : Estado → Prop) (E : Falla → Estado → Prop) :
    Triple I iniciarProceso (fun _ _ => True) E :=
  fun _ _ => trivial

/-- `PROCESS_EXIT` sends no request before it gets to `iniciar_proceso`. -/
theorem processExit_sin_pedido (d : TDatosEsenciales) :
    Triple (Envia (¬ Paquete.EsAsignarMemoria ·) k) (processExit ent d) (fun _ _ => True)
      fun _ => Envia (¬ Paquete.EsAsignarMemoria ·) k := by
  have hI : Observa (Envia (¬ Paquete.EsAsignarMemoria ·) k) := envia_observa _
  have hE : TrasEnvio (¬ Paquete.EsAsignarMemoria ·) (Envia (¬ Paquete.EsAsignarMemoria ·) k) :=
    envia_trasEnvio _
  unfold processExit finalizarProceso
  refine Triple.ite (fun _ => ?_) fun _ => Triple.pure fun _ _ => trivial
  refine Triple.bind (hI.buscar _) fun a => Triple.bind (desref_keeps a) fun q => ?_
  refine Triple.bind (leer_keeps _) fun pid => Triple.bind (hE.enviar not_false) fun _ => ?_
  refine Triple.ite (fun _ => ?_) fun _ => Triple.pure fun _ _ => trivial
  refine Triple.bind hI.semWait fun _ => Triple.bind (leer_keeps _) fun hs => ?_
  have hloop : Keeps (Envia (¬ Paquete.EsAsignarMemoria ·) k) (each (finalizarSiEsDe ent q) hs) :=
    Keeps.each fun h _ => Keeps.get.bind fun _ => .ite (finalizarHilo_sin_pedido h) (.pure ())
  refine Triple.bind hloop fun _ => Triple.bind hI.semPost fun _ => ?_
  exact Triple.bind (cerrarPcb_observa hI q) fun _ => iniciarProceso_vuelve _ _

/-- A step that stops, or that does not get to `iniciar_proceso`, sends no request. -/
theorem sin_pedido (h : (∀ r, paso ent k p ≠ .ok r) ∨ ¬ p.IniciaProceso ent) :
    ∀ q ∈ p.envia ent k, ¬ q.EsAsignarMemoria := by
  have henvia : Envia (¬ Paquete.EsAsignarMemoria ·) k (p.tras ent k) := by
    by_cases hlargo : p = .largoPlazo
    · subst hlargo
      have hpara := h.resolve_right (not_not_intro trivial)
      have htriple : Triple (Envia (¬ Paquete.EsAsignarMemoria ·) k) planificadorDeLargoPlazo
          (fun _ _ => True) fun _ => Envia (¬ Paquete.EsAsignarMemoria ·) k := by
        unfold planificadorDeLargoPlazo
        refine Triple.bind Keeps.get fun s => Triple.ite (fun _ => Triple.throw fun _ hs => hs) ?_
        intro _
        exact Triple.bind (Keeps.modify fun _ hs => hs.trans (.nada rfl)) fun _ =>
          iniciarProceso_vuelve _ _
      refine htriple.final_of_stop (.nada rfl) fun u s hr => ?_
      have hpaso : ∃ o, paso ent k .largoPlazo = .ok (s, o) := paso_of_run hr
      exact hpara _ hpaso.choose_spec
    by_cases hexit : ∃ d, p = .syscall (.processExit d)
    · obtain ⟨d, rfl⟩ := hexit
      by_cases hvuelve : ∃ s, (processExit ent d).run k = .ok () s
      · obtain ⟨s, hr⟩ := hvuelve
        obtain ⟨o, ho⟩ : ∃ o, paso ent k (.syscall (.processExit d)) = .ok (s, o) := paso_of_run hr
        have hno := h.resolve_left fun hpara => hpara _ ho
        rw [paso_tras ho]
        rcases processExit_ok hr with ⟨-, rfl⟩ | ⟨htid, m, vs, hfin⟩
        · exact .nada rfl
        · obtain ⟨q, -, ⟨-, rfl⟩ | ⟨k₁, m₁, vs₁, m₂, vs₂, hok, -⟩⟩ := finalizarProceso_ok hfin
          · exact .uno rfl not_false
          · exact absurd ⟨htid, hok⟩ hno
      · exact (processExit_sin_pedido d).final_of_stop (.nada rfl) fun u s hr => hvuelve ⟨s, hr⟩
    · exact (programa_sin_pedido hlargo fun d hd => hexit ⟨d, hd⟩).final (.nada rfl)
  obtain ⟨ps, hps, hP⟩ := henvia
  unfold Paso.envia
  rw [hps, List.drop_left]
  exact hP

/-! ## Where one is sent -/

/-- A step that runs `iniciar_proceso` asks for the first process of `cola_new`, or for the block
that it got from `malloc`. -/
theorem pedido_de_inicio (h : paso ent k p = .ok (k', o)) (hp : p.IniciaProceso ent) :
    ∃ ps d, (∀ q ∈ ps, ¬ q.EsAsignarMemoria) ∧
      o = ps ++ [.asignarMemoria (k'.pcbs (k'.colaNew.headD d)).pid
        (k'.pcbs (k'.colaNew.headD d)).tamProceso] := by
  have hr := paso_ok h
  have ho := paso_salida h
  cases p with
  | syscall y =>
    cases y with
    | processExit d =>
      rcases processExit_ok hr with ⟨htid, -⟩ | ⟨-, m, vs, hfin⟩
      · exact absurd hp.1 htid
      obtain ⟨q, -, ⟨hno, -⟩ | ⟨k₁, m₁, vs₁, m₂, vs₂, -, hloop, -, rfl⟩⟩ := finalizarProceso_ok hfin
      · exact absurd hp.2 hno
      have haviso : Envia (¬ Paquete.EsAsignarMemoria ·) k
          (((k.conCerrojo m vs).avisarFinProceso q).conCerrojo m₁ vs₁) := .uno rfl not_false
      have hfines : Envia (¬ Paquete.EsAsignarMemoria ·) _ k₁ :=
        (finalizarTodos_envia hloop).mono fun r hr hasig => by
          cases r with
          | finalizarHilo b => exact hasig
          | _ => exact hr
      obtain ⟨ps, hps, hP⟩ := haviso.trans hfines
      refine ⟨ps, k₁.proximo, hP, ?_⟩
      have henv : ((k₁.cerrarProceso q).conCerrojo m₂ vs₂).enviados = k.enviados ++ (ps ++
          [.asignarMemoria ((k₁.cerrarProceso q).pcbs (k₁.colaNew.headD k₁.proximo)).pid
            ((k₁.cerrarProceso q).pcbs (k₁.colaNew.headD k₁.proximo)).tamProceso]) := by
        rw [← List.append_assoc, ← hps]
        rfl
      rw [ho, henv, List.drop_left]
      rfl
    | _ => exact hp.elim
  | largoPlazo =>
    obtain ⟨-, rfl⟩ := planificadorDeLargoPlazo_ok hr
    exact ⟨[], k.proximo, by simp, by rw [ho, List.drop_left]; rfl⟩
  | _ => exact hp.elim

/-- A step that runs `iniciar_proceso` keeps the law if and only if `cola_new` is not empty. -/
theorem pideElPrimero_iff (h : paso ent k p = .ok (k', o)) (hp : p.IniciaProceso ent) :
    k'.PideElPrimero o ↔ k'.colaNew ≠ [] := by
  obtain ⟨ps, d, hps, rfl⟩ := pedido_de_inicio h hp
  constructor
  · intro hprimero hvacia
    obtain ⟨q, hq, -⟩ := hprimero _ _ (List.mem_append_right _ (List.mem_singleton_self _))
    rw [hvacia] at hq
    cases hq
  · intro hcola pid tam hmem
    obtain ⟨q, resto, hq⟩ := List.exists_cons_of_ne_nil hcola
    rcases List.mem_append.mp hmem with hmem | hmem
    · exact absurd trivial (hps _ hmem)
    · rw [hq, List.headD_cons] at hmem
      obtain ⟨rfl, rfl⟩ := Paquete.asignarMemoria.inj (List.mem_singleton.mp hmem)
      exact ⟨q, by rw [hq]; rfl, rfl, rfl⟩

/-! ## The length of `cola_new` -/

theorem Crea.colaNew_length (h : Crea ent k p k') :
    k'.colaNew.length + (if p.confirmaProceso then 1 else 0) =
      k.colaNew.length + if p.creaProceso then 1 else 0 := by
  cases h with
  | proceso h =>
    rw [h.nuevos]
    simp [Paso.creaProceso, Paso.confirmaProceso]
  | principal hbit hq hnew =>
    rw [hq, hnew]
    simp [Paso.creaProceso, Paso.confirmaProceso, hbit]
  | hilo hp hlista hnew =>
    rw [hnew]
    simp [Paso.creaProceso, Paso.confirmaProceso]
  | nada hproceso hconfirma hhilo h =>
    rw [h.tabla.nuevos, hproceso, hconfirma]

variable {tcbs : Dir → TCB} {pcbs : Dir → PCB} {uint32s : Dir → Uint32}

/-- The processes created, without those that memoria had space for, are in `cola_new`. -/
theorem colaNew_length {pre : List Paso}
    (h : Reaches (paso ent) (estadoInicial tcbs pcbs uint32s) pre k) :
    k.colaNew.length + pre.countP Paso.confirmaProceso = pre.countP Paso.creaProceso := by
  refine h.along (I := fun pre k => k.colaNew.length + pre.countP Paso.confirmaProceso =
    pre.countP Paso.creaProceso) rfl ?_
  intro pre s a s' o _ _ hs ha
  have hpaso := (paso_crea ha).colaNew_length
  simp only [List.countP_append, List.countP_singleton]
  omega

/-! ## Runs -/

/-- **Memoria is asked only for the first process of `cola_new`**, along a run, exactly when each
step that runs `iniciar_proceso` comes after more `PROCESS_CREATE` than answers of memoria that
there is space. -/
theorem pedidos_iff (ps : List Paso) :
    EveryTry (paso ent) (estadoInicial tcbs pcbs uint32s) ps
        (fun _ k p => (p.tras ent k).PideElPrimero (p.envia ent k)) ↔
      EveryStep (paso ent) (estadoInicial tcbs pcbs uint32s) ps
        fun pre _ p => p.IniciaProceso ent →
          pre.countP Paso.confirmaProceso < pre.countP Paso.creaProceso := by
  have hcola : ∀ pre k p k' o, Reaches (paso ent) (estadoInicial tcbs pcbs uint32s) pre k →
      paso ent k p = .ok (k', o) → p.IniciaProceso ent →
      (k'.colaNew ≠ [] ↔ pre.countP Paso.confirmaProceso < pre.countP Paso.creaProceso) := by
    intro pre k p k' o hk hpaso hp
    have hlargo := colaNew_length hk
    have hmisma := (paso_crea hpaso).colaNew_length
    have hcrea : p.creaProceso = false ∧ p.confirmaProceso = false := by
      cases p with
      | syscall y =>
        cases y with
        | processExit d => exact ⟨rfl, rfl⟩
        | _ => exact hp.elim
      | largoPlazo => exact ⟨rfl, rfl⟩
      | _ => exact hp.elim
    rw [hcrea.1, hcrea.2] at hmisma
    rw [← List.length_pos_iff]
    simp only [Bool.false_eq_true, if_false] at hmisma
    omega
  constructor
  · rintro h pre k p ⟨k', o⟩ hpre hk hpaso hp
    have hlaw : (p.tras ent k).PideElPrimero (p.envia ent k) := h pre k p hpre hk
    rw [paso_tras hpaso, paso_enviado hpaso] at hlaw
    exact (hcola pre k p k' o hk hpaso hp).mp ((pideElPrimero_iff hpaso hp).mp hlaw)
  · intro h pre k p hpre hk
    by_cases hsin : (∀ r, paso ent k p ≠ .ok r) ∨ ¬ p.IniciaProceso ent
    · exact fun pid tam hmem => absurd trivial (sin_pedido hsin _ hmem)
    · obtain ⟨hvuelve, hp⟩ := not_or.mp hsin
      rw [not_forall_not] at hvuelve
      obtain ⟨⟨k', o⟩, hpaso⟩ := hvuelve
      have hp := not_not.mp hp
      show (p.tras ent k).PideElPrimero (p.envia ent k)
      rw [paso_tras hpaso, paso_enviado hpaso]
      exact (pideElPrimero_iff hpaso hp).mpr ((hcola pre k p k' o hk hpaso hp).mpr
        (h pre k p (k', o) hpre hk hpaso hp))

/-- The long-term scheduler runs again after the only process has started. -/
theorem pedido_sin_proceso : ¬ EveryTry (paso entornoFifo) estadoCero
    (arranque.take 3 ++ [.largoPlazo])
    (fun _ k p => (p.tras entornoFifo k).PideElPrimero (p.envia entornoFifo k)) := by
  intro h
  have hrun : (run (paso entornoFifo) estadoCero (arranque.take 3)).toOption.map
      (fun r => (Paso.envia entornoFifo r.1 .largoPlazo,
        (Paso.tras entornoFifo r.1 .largoPlazo).colaNew)) = some ([.asignarMemoria 0 0], []) := by
    decide +kernel
  obtain ⟨k, hk, hg⟩ := reaches_of_map (g := fun k =>
    (Paso.envia entornoFifo k .largoPlazo, (Paso.tras entornoFifo k .largoPlazo).colaNew)) hrun
  obtain ⟨henvia, hcola⟩ := Prod.mk.inj hg
  obtain ⟨q, hq, -⟩ := h (arranque.take 3) k .largoPlazo (List.prefix_refl _) hk 0 0
    (henvia ▸ List.mem_singleton_self _)
  rw [hcola] at hq
  cases hq

end LastOfC.Kernel
