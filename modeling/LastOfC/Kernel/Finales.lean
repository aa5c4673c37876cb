import LastOfC.Kernel.Balance
import LastOfC.Kernel.Pedidos
import LastOfC.Kernel.Propietarios

/-!
# Each thread ends once

`finalizar_hilo` should run at most once for each thread, and `PROCESS_EXIT` should leave none of
the process out. `THREAD_EXIT` and `PROCESS_EXIT` do not ask whether a thread ended before.

* `Acaba` is what ends from a state to another one, also where a step stops (`paso_acaba`).
* `finalizarTodos_vuelve_iff`: exactly when the loop of `finalizar_proceso` returns.
* `CuentaFines` is the invariant, and `finales_iff` says exactly which runs keep the law.
-/

namespace LastOfC.Kernel

open Imp Trace Planificacion

variable {ent : Entorno} {k k₁ k' : Estado} {p : Paso} {o : List Paquete} {h : Dir}

/-- The payloads of the `FINALIZAR_HILO` among the packets. -/
def finesDe (o : List Paquete) : List (List Byte) :=
  o.filterMap fun
    | .finalizarHilo buffer => some buffer
    | _ => none

/-- The payload of `FINALIZAR_HILO` for the thread with the identity `id`. -/
def avisoDe (id : Uint32 × Uint32) : List Byte := serializarFinalizarHilo id.1 id.2

/-- The identity in the `HILO_READY` of a thread: one is sent for each new element of
`lista_tcbs`. -/
def Estado.idCreado (k : Estado) (h : Dir) : Option (Uint32 × Uint32) :=
  (k.listaTcbs.zip (hilosDe k.enviados)).lookup h

/-- In the state `s` of a step from `k`, each thread is in `lista_exit` at most once, and the
`FINALIZAR_HILO` that were sent are for different threads of it. -/
def Estado.FinesBien (k s : Estado) : Prop :=
  s.listaExit.Nodup ∧ ∃ us : List Dir, us.Sublist s.listaExit ∧
    (finesDe s.enviados).map some = us.map fun h => (k.idCreado h).map avisoDe

/-- From `k` to `k'` the process `pid` ended: the threads created in it are in `lista_exit` once,
and its `lista_tid` is gone. -/
def Estado.ProcesoTerminado (k k' : Estado) (pid : Uint32) : Prop :=
  (∀ h ∈ k'.listaTcbs, ∀ tid, k'.idCreado h = some (pid, tid) → k'.listaExit.count h = 1) ∧
    ∃ q, k.buscarProceso pid = some q ∧ (k'.pcbs q).listaTid = none

/-- The process of a `PROCESS_EXIT` of the main thread. -/
def Paso.terminaProceso : Paso → Option Uint32
  | .syscall (.processExit d) => if d.tidInv = 0 then some d.pidInv else none
  | _ => none

/-- The step ends no thread twice, also if it stops, and a `PROCESS_EXIT` of the main thread
returns with the process ended. -/
def Estado.FinUnico (ent : Entorno) (k : Estado) (p : Paso) : Prop :=
  k.FinesBien (p.tras ent k) ∧ ∀ pid ∈ p.terminaProceso,
    ∃ k' o, paso ent k p = .ok (k', o) ∧ k.ProcesoTerminado k' pid

/-- The threads that the step ends did not end before. A `PROCESS_EXIT` of the main thread is for a
process that did not end, and nobody waits for a mutex that one of its threads owns. -/
def Estado.TerminaNuevos (ent : Entorno) (k : Estado) (p : Paso) : Prop :=
  (∀ h ∈ (k.movimiento ent p).terminan, h ∉ k.listaExit) ∧
    ∀ pid ∈ p.terminaProceso, ∃ q, k.buscarProceso pid = some q ∧ (k.pcbs q).listaTid ≠ none ∧
      ∀ h ∈ (k.movimiento ent p).terminan, SinColas (k.tcbs h).tid (k.pcbs q).mutex

theorem finesDe_append (o o' : List Paquete) : finesDe (o ++ o') = finesDe o ++ finesDe o' :=
  List.filterMap_append

/-! ## The semaphore -/

/-- Each thread that was created left `mutex` two higher. -/
def Estado.Holgado (k : Estado) : Prop := 1 + 2 * k.listaTcbs.length ≤ k.mutex

theorem postDoble_cota (n : Nat) (h : Dir) :
    Triple (n ≤ ·.mutex) (postDoble h) (fun _ k => n + 2 ≤ k.mutex) fun _ _ => True := by
  intro s hs
  show n + 2 ≤ s.mutex + 1 + 1
  omega

theorem crearHilo_cota {pid : Uint32} (hr : (crearHilo pid).run k = .ok () k') :
    k.mutex + 2 ≤ k'.mutex :=
  (crearHilo_triple pid (fun hx => hx.cota k.mutex) (postDoble_cota k.mutex)).of_ok
    (Nat.le_refl _) hr

theorem threadCreate_cota {d : TThreadCreate} {q : Dir} (hk : 0 < k.mutex)
    (hq : k.buscarProceso d.PID = some q) (hr : (threadCreate d).run k = .ok () k') :
    k.mutex + 2 ≤ k'.mutex := by
  rw [threadCreate_run hk hq] at hr
  have hcota : Triple (k.mutex ≤ ·.mutex) (threadCreateDe d q) (fun _ s => k.mutex + 2 ≤ s.mutex)
      fun _ _ => True :=
    threadCreateDe_triple d q (fun hx => hx.cota k.mutex) (postDoble_cota k.mutex)
  exact hcota.of_ok (s := k.trasCerrojo) (Nat.le_refl k.mutex) hr

/-- `finalizar_proceso` takes the lock and gives it back around the loop. -/
theorem processExit_cota (ent : Entorno) (d : TDatosEsenciales) (n : Nat) :
    Triple (n ≤ ·.mutex) (processExit ent d) (fun _ k => n ≤ k.mutex) fun _ _ => True := by
  have hloop : ∀ q hs, Neutro 1 (each (finalizarSiEsDe ent q) hs) := fun q hs =>
    .each fun h _ => .bind .get fun _ => .ite (fun _ => finalizarHilo_neutro h) fun _ => .pure ()
  unfold processExit finalizarProceso
  refine Triple.ite (fun _ => ?_) fun _ => (Neutro.pure (m := 1) ()).cota n
  refine ((conMutex_leer_neutro _).cota n).bind fun a => ?_
  refine ((Neutro.desref (m := 1) a).cota n).bind fun q => ?_
  refine ((Neutro.leer (m := 1) _).cota n).bind fun pid => ?_
  refine ((enviarPaquete_neutro (m := 1) _).cota n).bind fun _ => ?_
  refine Triple.ite (fun _ => ?_) fun _ => (Neutro.pure (m := 1) ()).cota n
  refine (Neutro.semWaitMutex_cota n).bind fun _ => ?_
  refine ((Neutro.leer (m := 1) _).cota (n - 1)).bind fun hs => ?_
  refine ((hloop q hs).cota (n - 1)).bind fun _ => (Neutro.semPostMutex_cota n).bind fun _ => ?_
  exact ((cerrarPcb_neutro (m := 1) q).bind fun _ => iniciarProceso_neutro).cota n

theorem planificadorCortoPlazo_cota (hr : (planificadorCortoPlazo ent).run k = .ok () k') :
    k.mutex ≤ k'.mutex := by
  unfold planificadorCortoPlazo at hr
  obtain ⟨k₁, k₂, hg, hr⟩ := bind_ok.mp hr
  obtain ⟨rfl, rfl⟩ := get_ok.mp hg
  rcases ite_ok.mp hr with ⟨-, hr⟩ | ⟨-, hr⟩
  · exact absurd hr throw_ok
  obtain ⟨_, k₃, hm, hr⟩ := bind_ok.mp hr
  obtain rfl := modify_ok.mp hm
  exact (elegirYEjecutar_neutro ent).cota_ok
    (k := { k with tcbAPlanificar := k.tcbAPlanificar - 1 }) hr

/-- A step that creates no thread does not lower the semaphore. -/
theorem paso_cota (hk : 0 < k.mutex) (hp : paso ent k p = .ok (k', o)) : k.mutex ≤ k'.mutex := by
  have hr := paso_ok hp
  cases p with
  | syscall y =>
    by_cases hexit : ∃ d, y = .processExit d
    · obtain ⟨d, rfl⟩ := hexit
      exact (processExit_cota ent d k.mutex).of_ok (Nat.le_refl k.mutex) hr
    by_cases hhilo : ∃ d, y = .threadCreate d
    · obtain ⟨d, rfl⟩ := hhilo
      cases hq : k.buscarProceso d.PID with
      | none =>
        have hnada := (threadCreate_run_none hk hq).symm.trans hr
        cases hnada
        exact Nat.le_refl _
      | some q => exact Nat.le_of_add_right_le (threadCreate_cota hk hq hr)
    · exact (syscall_neutro (fun d hy => hexit ⟨d, hy⟩) fun d hy => hhilo ⟨d, hy⟩).cota_ok hr
  | memoria m =>
    cases m with
    | confirmarEspacioProceso d =>
      rcases confirmarEspacioProceso_ok hr with ⟨-, rfl⟩ | ⟨k₁, -, hc, rfl⟩
      · exact Nat.le_refl _
      · have hdos : k.mutex + 2 ≤ k₁.mutex := crearHilo_cota hc
        exact Nat.le_of_add_right_le hdos
    | confirmarCreacionHilo d => exact (confirmarCreacionHilo_neutro d).cota_ok hr
    | confirmarDumpMemory =>
      obtain ⟨-, rfl⟩ := pure_ok.mp hr
      exact Nat.le_refl _
  | cortoPlazo => exact planificadorCortoPlazo_cota hr
  | largoPlazo =>
    obtain ⟨-, rfl⟩ := planificadorDeLargoPlazo_ok hr
    exact Nat.le_refl _

theorem paso_holgado (hk : k.Holgado) (hp : paso ent k p = .ok (k', o)) : k'.Holgado := by
  unfold Estado.Holgado at *
  have hpos : 0 < k.mutex := by omega
  have hr := paso_ok hp
  have hcota := paso_cota hpos hp
  cases paso_crea hp with
  | proceso hn =>
    rw [hn.hilos]
    exact Nat.le_trans hk hcota
  | nada _ _ _ hs =>
    rw [hs.tabla.hilos]
    exact Nat.le_trans hk hcota
  | @principal d _ q e resto hbit _ _ hn =>
    rcases confirmarEspacioProceso_ok hr with ⟨hno, -⟩ | ⟨k₁, -, hc, rfl⟩
    · exact absurd hbit hno
    · have hdos := crearHilo_cota hc
      have hmismo : k₁.postPlaniLargoPlazo.mutex = k₁.mutex := rfl
      rw [hn.hilos, List.length_append, List.length_singleton]
      omega
  | hilo hq _ _ hn =>
    have hdos := threadCreate_cota hpos hq hr
    rw [hn.hilos, List.length_append, List.length_singleton]
    omega

/-! ## What ends -/

/-- From `k` to `s` threads of `hs` ended, in this order, and memoria was told of some of them. -/
def Acaba (k : Estado) (hs : List Dir) (s : Estado) : Prop :=
  ∃ ts us : List Dir, us.Sublist ts ∧ ts.Sublist hs ∧ s.listaExit = k.listaExit ++ ts ∧
    finesDe s.enviados = finesDe k.enviados ++ us.map fun h => avisoDe (k.idDe h)

namespace Acaba

variable {hs hs' : List Dir} {s s' : Estado}

theorem nadie (hexit : s.listaExit = k.listaExit)
    (hfines : finesDe s.enviados = finesDe k.enviados) : Acaba k hs s :=
  ⟨[], [], List.Sublist.refl _, List.nil_sublist _, by rw [hexit, List.append_nil],
    by rw [hfines, List.map_nil, List.append_nil]⟩

theorem mono (h : Acaba k hs s) (hsub : hs.Sublist hs') : Acaba k hs' s := by
  obtain ⟨ts, us, hus, hts, hexit, hfines⟩ := h
  exact ⟨ts, us, hus, hts.trans hsub, hexit, hfines⟩

theorem trans (h : Acaba k hs s) (h' : Acaba s hs' s') (hid : ∀ d ∈ hs', s.idDe d = k.idDe d) :
    Acaba k (hs ++ hs') s' := by
  obtain ⟨ts, us, hus, hts, hexit, hfines⟩ := h
  obtain ⟨ts', us', hus', hts', hexit', hfines'⟩ := h'
  refine ⟨ts ++ ts', us ++ us', hus.append hus', hts.append hts', ?_, ?_⟩
  · rw [hexit', hexit, List.append_assoc]
  · have hmismas : us'.map (fun d => avisoDe (s.idDe d)) =
        us'.map fun d => avisoDe (k.idDe d) := by
      refine List.map_congr_left fun d hd => ?_
      rw [hid d (hts'.subset (hus'.subset hd))]
    rw [hfines', hfines, hmismas, List.map_append, List.append_assoc]

/-- The same from an earlier state, with nothing in between. -/
theorem desde (h : Acaba s hs s') (hexit : s.listaExit = k.listaExit)
    (hfines : finesDe s.enviados = finesDe k.enviados) (hid : ∀ d, s.idDe d = k.idDe d) :
    Acaba k hs s' := by
  have hnada : Acaba k [] s := .nadie hexit hfines
  exact hnada.trans h fun d _ => hid d

theorem observa : Observa (Acaba k hs) := by
  rintro s s' henv hexit ⟨ts, us, hus, hts, hex, hfines⟩
  exact ⟨ts, us, hus, hts, hexit.trans hex, by rw [henv, hfines]⟩

/-- Only `FINALIZAR_HILO` tells of an end. -/
theorem trasEnvio : TrasEnvio (¬ Paquete.EsFinalizarHilo ·) (Acaba k hs) := by
  rintro s q hq ⟨ts, us, hus, hts, hexit, hfines⟩
  have hnada : finesDe [q] = [] := by
    cases q with
    | finalizarHilo buffer => exact absurd trivial hq
    | _ => rfl
  refine ⟨ts, us, hus, hts, hexit, ?_⟩
  rw [finesDe_append, hnada, List.append_nil, hfines]

end Acaba

/-! ### One thread -/

/-- A state in which `h` is in `lista_exit`, and memoria was not told. -/
def Avisable (k : Estado) (h : Dir) (s : Estado) : Prop :=
  s.listaExit = k.listaExit ++ [h] ∧ finesDe s.enviados = finesDe k.enviados ∧
    s.idDe h = k.idDe h

theorem Avisable.acaba {s : Estado} (hs : Avisable k h s) : Acaba k [h] s :=
  ⟨[h], [], List.nil_sublist _, List.Sublist.refl _, hs.1, by
    rw [hs.2.1, List.map_nil, List.append_nil]⟩

theorem avisable_enExit : Avisable k h (k.enExit h) :=
  ⟨rfl, rfl, idDe_setEstado h .exit h⟩

theorem finHiloDesde_acaba (q : Dir) (tid : Uint32) :
    Triple (Avisable k h) (finHiloDesde ent q h tid) (fun _ => Acaba k [h])
      fun _ => Acaba k [h] := by
  have hpcb : ∀ s p f, Avisable k h s → Avisable k h (s.modPcb p f) := fun _ _ _ hs => hs
  have hfin : ∀ {β : Type} {x : Op β}, Keeps (Avisable k h) x →
      Triple (Avisable k h) x (fun _ => Avisable k h) fun _ => Acaba k [h] :=
    fun hx => hx.weaken (fun _ hs => hs) (fun _ _ hs => hs) fun _ _ hs => hs.acaba
  have hinforma : Triple (Avisable k h) (informarAMemoriaFinHilo h) (fun _ => Acaba k [h])
      fun _ => Acaba k [h] := by
    rintro s ⟨hexit, hfines, hid⟩
    refine ⟨[h], [h], List.Sublist.refl _, List.Sublist.refl _, hexit, ?_⟩
    show finesDe (s.enviados ++ [.finalizarHilo (avisoDe (s.idDe h))]) = _
    rw [finesDe_append, hfines, hid]
    rfl
  unfold finHiloDesde
  refine Triple.bind (hfin (quitarTid_keeps hpcb q tid)) fun _ => ?_
  refine Triple.bind (hfin (leer_keeps _)) fun n => ?_
  refine Triple.bind (hfin (liberarMutexs_keeps hpcb q tid _)) fun _ => ?_
  refine Triple.bind hinforma fun _ => ?_
  exact (desbloquearHilosPorTid_observa Acaba.observa h).bind fun _ =>
    liberar_observa Acaba.observa h

/-- `finalizar_hilo` that finds no process. -/
theorem finalizarHilo_sin_proceso (hk : 0 < k.mutex)
    (hno : k.buscarProceso (k.tcbs h).pid = none) :
    (finalizarHilo ent h).run k = .ok () (k.enExit h) := by
  have hexit : (conMutex (modify (·.agregarExit h))).run (k.setEstado h .exit) =
      .ok () ((k.setEstado h .exit).agregarExit h).trasCerrojo :=
    conMutex_run (k := k.setEstado h .exit) hk (modify_run _) rfl
  have hpid : ((((k.setEstado h .exit).agregarExit h).trasCerrojo).tcbs h).pid = (k.tcbs h).pid :=
    congrArg Prod.fst (idDe_setEstado (k := k) h .exit h)
  have hpos : 0 < ((k.setEstado h .exit).agregarExit h).trasCerrojo.mutex := hk
  have hbus : ((k.setEstado h .exit).agregarExit h).trasCerrojo.buscarProceso (k.tcbs h).pid =
      none := hno
  unfold finalizarHilo
  rw [bind_run (modify_run _), bind_run hexit, bind_run (leer_run _),
    bind_run (buscarProceso_run hpos), hpid, hbus]
  rfl

/-- `finalizar_hilo` ends no other thread than `h`, also where it stops. -/
theorem finalizarHilo_acaba (h : Dir) : Acaba k [h] (final (finalizarHilo ent h) k) := by
  rcases Nat.eq_zero_or_pos k.mutex with hcero | hpos
  · rw [final_of_error (finalizarHilo_espera ent h hcero)]
    exact .nadie rfl rfl
  · cases hq : k.buscarProceso (k.tcbs h).pid with
    | none =>
      rw [final_of_ok (finalizarHilo_sin_proceso hpos hq)]
      exact avisable_enExit.acaba
    | some q =>
      have hmismo : final (finalizarHilo ent h) k =
          final (finHiloDesde ent q h (k.tcbs h).tid) (k.enExit h) := by
        unfold final
        rw [finalizarHilo_run hpos hq]
      rw [hmismo]
      exact (finHiloDesde_acaba q _).final avisable_enExit

/-! ### The threads of a process -/

/-- `finalizar_hilo` changes the identity of no other thread. -/
theorem finalizarHilo_idDe (hr : (finalizarHilo ent h).run k = .ok () k') {d : Dir} (hd : d ≠ h) :
    k'.idDe d = k.idDe d := by
  refine ((finalizarHilo_sinCrear hr).identidad d).resolve_right ?_
  rintro ⟨hno, hlib, -⟩
  rcases finalizarHilo_ok hr with ⟨-, m, vs, rfl⟩ | ⟨bs, hf⟩
  · exact hno hlib
  · rw [hf.avisa.2.2] at hlib
    exact (List.mem_cons.mp hlib).elim hd hno

/-- The threads that are left of a loop belong to the process as before. -/
theorem finalizarHilo_filter {q : Dir} {hs : List Dir}
    (hr : (finalizarHilo ent h).run k = .ok () k') (hh : h ∉ hs) :
    (hs.filter fun d => (k'.tcbs d).pid = (k'.pcbs q).pid) =
      hs.filter fun d => (k.tcbs d).pid = (k.pcbs q).pid := by
  refine List.filter_congr fun d hd => ?_
  have hid := finalizarHilo_idDe hr (fun heq => hh (heq ▸ hd))
  have hpid : (k'.tcbs d).pid = (k.tcbs d).pid := congrArg Prod.fst hid
  rw [hpid, (finalizarHilo_tabla hr).pidDe q]

theorem finalizarTodos_acaba (ent : Entorno) {q : Dir} {hs : List Dir} (hnodup : hs.Nodup) :
    Acaba k (hs.filter fun d => (k.tcbs d).pid = (k.pcbs q).pid)
      (final (each (finalizarSiEsDe ent q) hs) k) := by
  induction hs generalizing k with
  | nil => exact .nadie rfl rfl
  | cons d hs ih =>
    obtain ⟨hd, hnodup⟩ := List.nodup_cons.mp hnodup
    unfold each
    by_cases hpid : (k.tcbs d).pid = (k.pcbs q).pid
    · rw [List.filter_cons_of_pos (by simpa using hpid)]
      have hfin : Acaba k [d] (final (finalizarHilo ent d) k) := finalizarHilo_acaba d
      cases hr : (finalizarHilo ent d).run k with
      | error f s =>
        rw [final_of_error hr] at hfin
        rw [final_bind_error ((finalizarSiEsDe_suyo ent hpid).trans hr)]
        exact hfin.mono (List.cons_sublist_cons.mpr (List.nil_sublist _))
      | ok u s =>
        rw [final_of_ok hr] at hfin
        rw [final_bind ((finalizarSiEsDe_suyo ent hpid).trans hr), ← finalizarHilo_filter hr hd]
        refine hfin.trans (ih hnodup) fun e he => finalizarHilo_idDe hr ?_
        exact fun heq => hd (heq ▸ List.mem_of_mem_filter he)
    · rw [List.filter_cons_of_neg (by simpa using hpid), final_bind (finalizarSiEsDe_otro hpid)]
      exact ih hnodup

theorem finalizarHilosDe_acaba (ent : Entorno) {q : Dir} (hnodup : k.listaTcbs.Nodup) :
    Acaba k (k.listaTcbs.filter fun d => (k.tcbs d).pid = (k.pcbs q).pid)
      (final (finalizarHilosDe ent q) k) := by
  have hcierra : Keeps (Acaba k (k.listaTcbs.filter fun d => (k.tcbs d).pid = (k.pcbs q).pid))
      (semPostMutex >>= fun _ => cerrarPcb q >>= fun _ => iniciarProceso) :=
    Acaba.observa.semPost.bind fun _ => (cerrarPcb_observa Acaba.observa q).bind fun _ =>
      iniciarProceso_observa Acaba.observa Acaba.trasEnvio fun _ _ => not_false
  unfold finalizarHilosDe
  rcases Nat.eq_zero_or_pos k.mutex with hcero | hpos
  · rw [final_bind_error (semWaitMutex_espera hcero)]
    exact .nadie rfl rfl
  · rw [final_bind (semWaitMutex_run hpos), final_bind (leer_run _)]
    have hloop : Acaba (k.conCerrojo (k.mutex - 1) (k.valoresMutex ++ [k.mutex - 1])) _
        (final (each (finalizarSiEsDe ent q) k.listaTcbs) _) := finalizarTodos_acaba ent hnodup
    exact Keeps.final_bind (fun _ => hcierra) (hloop.desde rfl rfl fun _ => rfl)

theorem processExit_acaba (ent : Entorno) (d : TDatosEsenciales) (hnodup : k.listaTcbs.Nodup) :
    Acaba k (k.movSyscall ent (.processExit d)).terminan (final (processExit ent d) k) := by
  unfold processExit
  by_cases htid : d.tidInv = 0
  · rw [if_pos htid]
    rcases Nat.eq_zero_or_pos k.mutex with hcero | hpos
    · rw [final_bind_error (conMutex_espera _ hcero)]
      exact .nadie rfl rfl
    rw [final_bind (buscarProceso_run hpos)]
    cases hq : k.buscarProceso d.pidInv with
    | none => exact .nadie rfl rfl
    | some q =>
      have hrun : final (finalizarProceso ent (some q)) k.trasCerrojo =
          final (if ent.mensajeFinProceso = ['O', 'K'] then finalizarHilosDe ent q else pure ())
            (k.trasCerrojo.avisarFinProceso q) := by
        unfold final
        rw [finalizarProceso_run]
      have haviso : finesDe (k.trasCerrojo.avisarFinProceso q).enviados = finesDe k.enviados :=
        (finesDe_append _ _).trans (List.append_nil _)
      rw [hrun]
      by_cases hok : ent.mensajeFinProceso = ['O', 'K']
      · have hfin := finalizarHilosDe_acaba ent (q := q) (k := k.trasCerrojo.avisarFinProceso q)
          hnodup
        have hpid : (k.pcbs q).pid = d.pidInv := pid_of_buscarProceso hq
        simp only [hok, if_true, Estado.movSyscall, htid, and_self, Movimiento.terminan, ← hpid]
        exact hfin.desde rfl haviso fun _ => rfl
      · rw [if_neg hok]
        exact .nadie rfl haviso
  · rw [if_neg htid]
    exact .nadie rfl rfl

/-! ### The steps -/

theorem threadCancel_acaba (ent : Entorno) (d : TThreadJoinYCancel) :
    Acaba k (k.movSyscall ent (.threadCancel d)).terminan (final (threadCancel ent d) k) := by
  unfold threadCancel
  rcases Nat.eq_zero_or_pos k.mutex with hcero | hpos
  · rw [final_bind_error (conMutex_espera _ hcero)]
    exact .nadie rfl rfl
  rw [final_bind (buscarTcbs_run hpos)]
  cases hb : k.buscarTcbs d.TID d.PID with
  | none => exact .nadie rfl rfl
  | some e =>
    simp only [final_bind (leer_run _)]
    by_cases hexit : (k.trasCerrojo.tcbs e).estadoHilo = .exit
    · rw [if_pos hexit]
      exact .nadie rfl rfl
    · have hter : k.terminado (some e) = false := decide_eq_false hexit
      have hfin : Acaba k.trasCerrojo [e] (final (finalizarHilo ent e) k.trasCerrojo) :=
        finalizarHilo_acaba e
      rw [if_neg hexit]
      simp only [Estado.movSyscall, hb, hter, Bool.false_eq_true, if_false]
      exact hfin.desde rfl rfl fun _ => rfl

theorem threadExit_acaba (ent : Entorno) (d : TDatosEsenciales) :
    Acaba k (k.movSyscall ent (.threadExit d)).terminan (final (threadExit ent d) k) := by
  unfold threadExit
  rcases Nat.eq_zero_or_pos k.mutex with hcero | hpos
  · rw [final_bind_error (conMutex_espera _ hcero)]
    exact .nadie rfl rfl
  rw [final_bind (buscarTcbs_run hpos)]
  cases hb : k.buscarTcbs d.tidInv d.pidInv with
  | none => exact .nadie rfl rfl
  | some e =>
    have hfin : Acaba k.trasCerrojo [e] (final (finalizarHilo ent e) k.trasCerrojo) :=
      finalizarHilo_acaba e
    simp only [Estado.movSyscall, hb]
    exact hfin.desde rfl rfl fun _ => rfl

/-- **The inversion of all steps.** A step ends threads that its movement names, also if it
stops. -/
theorem paso_acaba (ent : Entorno) (p : Paso) (hnodup : k.listaTcbs.Nodup) :
    Acaba k (k.movimiento ent p).terminan (p.tras ent k) := by
  have hI : Observa (Acaba k (k.movimiento ent p).terminan) := Acaba.observa
  have hE : TrasEnvio (¬ Paquete.EsFinalizarHilo ·) (Acaba k (k.movimiento ent p).terminan) :=
    Acaba.trasEnvio
  have h0 : Acaba k (k.movimiento ent p).terminan k := .nadie rfl rfl
  unfold Paso.tras
  cases p with
  | syscall y =>
    by_cases hexit : ∃ d, y = .processExit d
    · obtain ⟨d, rfl⟩ := hexit
      exact processExit_acaba ent d hnodup
    by_cases hcancel : ∃ d, y = .threadCancel d
    · obtain ⟨d, rfl⟩ := hcancel
      exact threadCancel_acaba ent d
    by_cases hfin : ∃ d, y = .threadExit d
    · obtain ⟨d, rfl⟩ := hfin
      exact threadExit_acaba ent d
    exact (syscall_observa hI hE (fun _ => not_false) (fun _ => not_false)
      (fun d hy => hexit ⟨d, hy⟩) (fun d hy => hcancel ⟨d, hy⟩) fun d hy => hfin ⟨d, hy⟩).final h0
  | memoria m => exact (kernelEscuchaMemoria_observa hI hE (fun _ => not_false) m).final h0
  | cortoPlazo => exact (planificadorCortoPlazo_observa hI hE fun _ _ => not_false).final h0
  | largoPlazo => exact (planificadorDeLargoPlazo_observa hI hE fun _ _ => not_false).final h0

/-! ## When the loop returns -/

theorem finalizarHilo_listaTid (hr : (finalizarHilo ent h).run k = .ok () k') (q : Dir) :
    (k'.pcbs q).listaTid = none ↔ (k.pcbs q).listaTid = none := by
  rcases finalizarHilo_ok hr with
    ⟨-, m, vs, rfl⟩ | ⟨bs, r, ms, tids, k₁, m, vs, -, hlista, hdes, -, -, rfl⟩
  · exact Iff.rfl
  · show (k₁.pcbs q).listaTid = none ↔ _
    rw [hdes.marco]
    show ((k.terminarHilo h r ms tids).pcbs q).listaTid = none ↔ _
    by_cases hq : q = r
    · subst hq
      simp [Estado.terminarHilo, Estado.modPcb, hlista]
    · simp [Estado.terminarHilo, Estado.modPcb, Estado.agregarExit, Estado.setEstado,
        Estado.modTcb, hq]

/-- Who waits for the mutexes of a thread does not change when another one ends that nobody waits
for. -/
theorem sinColas_sin {tid t : Uint32} {ms : List TMutex} (hms : SinColas t ms) :
    SinColas tid (ms.map fun m => m.sin t) ↔ SinColas tid ms := by
  have hcola : ∀ m : TMutex, (m.sin t).bloqueadosMutex = m.bloqueadosMutex := by
    intro m
    unfold TMutex.sin
    split
    · rfl
    · rfl
  constructor
  · intro hsin m hm hown
    by_cases ht : m.tid = t
    · exact hms m hm ht
    · have hno : m.sin t = m := if_neg ht
      exact hsin m (List.mem_map.mpr ⟨m, hm, hno⟩) hown
  · intro hsin m' hm' hown
    obtain ⟨m, hm, rfl⟩ := List.mem_map.mp hm'
    rw [hcola m]
    by_cases ht : m.tid = t
    · exact hms m hm ht
    · have hno : m.sin t = m := if_neg ht
      rw [hno] at hown
      exact hsin m hm hown

/-- What another thread of the process asks for does not change. -/
theorem terminable_tras {q d : Dir} (hq : k.buscarProceso (k.tcbs h).pid = some q)
    (hr : (finalizarHilo ent h).run k = .ok () k') (hd : d ≠ h) :
    k'.Terminable d q ↔ k.Terminable d q := by
  obtain ⟨⟨hpos, -, hcolas, -⟩, hmutex⟩ := finalizarHilo_suelta hq hr
  have hpos' : 0 < k'.mutex := Nat.lt_of_lt_of_le hpos ((finalizarHilo_neutro h).cota_ok hr)
  have htid : (k'.tcbs d).tid = (k.tcbs d).tid := congrArg Prod.snd (finalizarHilo_idDe hr hd)
  have hlib : d ∈ k'.liberados ↔ d ∈ k.liberados := by
    rcases finalizarHilo_ok hr with ⟨hno, -⟩ | ⟨bs, hf⟩
    · rw [hq] at hno
      cases hno
    · rw [hf.avisa.2.2, List.mem_cons]
      exact ⟨fun hl => hl.resolve_left hd, .inr⟩
  unfold Estado.Terminable
  rw [htid, hmutex, sinColas_sin hcolas, hlib, Ne, Ne, finalizarHilo_listaTid hr]
  exact ⟨fun ht => ⟨hpos, ht.2⟩, fun ht => ⟨hpos', ht.2⟩⟩

/-- Exactly when the loop of `finalizar_proceso` returns. -/
theorem finalizarTodos_vuelve_iff {q : Dir} {pid : Uint32} {hs : List Dir} (hnodup : hs.Nodup)
    (hq : k.buscarProceso pid = some q) :
    (∃ k', (each (finalizarSiEsDe ent q) hs).run k = .ok () k') ↔
      ∀ d ∈ hs, (k.tcbs d).pid = pid → k.Terminable d q := by
  induction hs generalizing k with
  | nil => exact iff_of_true ⟨k, rfl⟩ fun d hd => absurd hd List.not_mem_nil
  | cons d hs ih =>
    obtain ⟨hd, hnodup⟩ := List.nodup_cons.mp hnodup
    have hpidq : (k.pcbs q).pid = pid := pid_of_buscarProceso hq
    rw [List.forall_mem_cons]
    unfold each
    by_cases hpid : (k.tcbs d).pid = pid
    · have hq' : k.buscarProceso (k.tcbs d).pid = some q := hpid ▸ hq
      have hsuyo := finalizarSiEsDe_suyo ent (hpid.trans hpidq.symm)
      -- The rest of the loop, after the end of `d`.
      have hresto : ∀ k₁, (finalizarHilo ent d).run k = .ok () k₁ →
          ((∃ k', (each (finalizarSiEsDe ent q) hs).run k₁ = .ok () k') ↔
            ∀ e ∈ hs, (k.tcbs e).pid = pid → k.Terminable e q) := by
        intro k₁ hr
        have hq₁ : k₁.buscarProceso pid = some q :=
          ((finalizarHilo_tabla hr).buscarProceso pid).trans hq
        rw [ih hnodup hq₁]
        refine forall₂_congr fun e he => ?_
        have hne : e ≠ d := fun heq => hd (heq ▸ he)
        have hmismo : (k₁.tcbs e).pid = (k.tcbs e).pid :=
          congrArg Prod.fst (finalizarHilo_idDe hr hne)
        rw [hmismo, terminable_tras hq' hr hne]
      constructor
      · rintro ⟨k', hr⟩
        obtain ⟨_, k₁, h₁, h₂⟩ := bind_ok.mp hr
        rw [hsuyo] at h₁
        exact ⟨fun _ => (finalizarHilo_vuelve_iff hq').mp ⟨k₁, h₁⟩, (hresto k₁ h₁).mp ⟨k', h₂⟩⟩
      · rintro ⟨hter, hotros⟩
        obtain ⟨k₁, h₁⟩ : ∃ k₁, (finalizarHilo ent d).run k = .ok () k₁ :=
          (finalizarHilo_vuelve_iff hq').mpr (hter hpid)
        exact exists_bind_run (hsuyo.trans h₁) ((hresto k₁ h₁).mpr hotros)
    · have hotro : (k.tcbs d).pid ≠ (k.pcbs q).pid := fun heq => hpid (heq.trans hpidq)
      rw [bind_run (finalizarSiEsDe_otro hotro), ih hnodup hq]
      exact ⟨fun hall => ⟨fun heq => absurd heq hpid, hall⟩, And.right⟩

theorem finalizarTodos_listaTid {q r : Dir} {hs : List Dir}
    (hr : (each (finalizarSiEsDe ent q) hs).run k = .ok () k') :
    (k'.pcbs r).listaTid = none ↔ (k.pcbs r).listaTid = none := by
  refine each_ok (I := fun _ s => (s.pcbs r).listaTid = none ↔ (k.pcbs r).listaTid = none) hr
    Iff.rfl ?_
  intro d rest s₁ s₂ _ hs₁ hd
  rcases finalizarSiEsDe_ok hd with ⟨-, rfl⟩ | ⟨-, hfin⟩
  · exact hs₁
  · exact (finalizarHilo_listaTid hfin r).trans hs₁

theorem cerrarPcb_run {q : Dir} {tids : List Puntero} (ht : (k.pcbs q).listaTid = some tids) :
    (cerrarPcb q).run k = .ok () (k.modPcb q fun r =>
      { r with listaTid := none, estado := .exit, tidContador := -1, prioridadMain := -1 }) := by
  unfold cerrarPcb
  rw [bind_run (leer_run _)]
  simp only [ht]
  rfl

/-- The state in which the loop of `finalizar_proceso` starts. -/
def Estado.enFinProceso (k : Estado) (q : Dir) : Estado :=
  (k.trasCerrojo.avisarFinProceso q).conCerrojo (k.mutex - 1)
    (k.trasCerrojo.valoresMutex ++ [k.mutex - 1])

/-- Exactly when a `PROCESS_EXIT` of the main thread returns. -/
theorem processExit_vuelve_iff {d : TDatosEsenciales} (htid : d.tidInv = 0)
    (hok : ent.mensajeFinProceso = ['O', 'K']) (hnodup : k.listaTcbs.Nodup) (hk : k.Holgado) :
    (∃ k', (processExit ent d).run k = .ok () k') ↔
      ∃ q, k.buscarProceso d.pidInv = some q ∧ (k.pcbs q).listaTid ≠ none ∧
        ∀ e ∈ k.listaTcbs, (k.tcbs e).pid = d.pidInv →
          SinColas (k.tcbs e).tid (k.pcbs q).mutex ∧ e ∉ k.liberados := by
  have hk : 1 + 2 * k.listaTcbs.length ≤ k.mutex := hk
  constructor
  · rintro ⟨k', hr⟩
    rcases processExit_ok hr with ⟨hno, -⟩ | ⟨-, m, vs, hfin⟩
    · exact absurd htid hno
    obtain ⟨q, hq, ⟨hno, -⟩ | ⟨k₁, m₁, vs₁, m₂, vs₂, -, hloop, hlista, -⟩⟩ :=
      finalizarProceso_ok hfin
    · exact absurd hok hno
    have hlista' := (not_congr (finalizarTodos_listaTid hloop)).mp hlista
    have hq' : (((k.conCerrojo m vs).avisarFinProceso q).conCerrojo m₁ vs₁).buscarProceso
        d.pidInv = some q := hq
    have hter := (finalizarTodos_vuelve_iff hnodup hq').mp ⟨k₁, hloop⟩
    exact ⟨q, hq, hlista', fun e he hpid => (hter e he hpid).2.2⟩
  · rintro ⟨q, hq, hlista, hhilos⟩
    have hpos : 0 < k.mutex := by omega
    have hpos' : 0 < (k.trasCerrojo.avisarFinProceso q).mutex := hpos
    have hq' : (k.enFinProceso q).buscarProceso d.pidInv = some q := hq
    have hter : ∀ e ∈ k.listaTcbs, (k.tcbs e).pid = d.pidInv →
        (k.enFinProceso q).Terminable e q := by
      intro e he hpid
      have halguno := List.length_pos_of_mem he
      have hdos : 0 < k.mutex - 1 := by omega
      exact ⟨hdos, hlista, hhilos e he hpid⟩
    obtain ⟨k₁, hloop⟩ : ∃ k₁, (each (finalizarSiEsDe ent q) k.listaTcbs).run (k.enFinProceso q) =
        .ok () k₁ := (finalizarTodos_vuelve_iff hnodup hq').mpr hter
    have hlista₁ := (not_congr (finalizarTodos_listaTid hloop)).mpr hlista
    obtain ⟨tids, htids⟩ := Option.ne_none_iff_exists'.mp hlista₁
    unfold processExit
    rw [if_pos htid]
    refine exists_bind_run (buscarProceso_run hpos) ?_
    rw [hq, finalizarProceso_run, if_pos hok]
    unfold finalizarHilosDe
    refine exists_bind_run (semWaitMutex_run hpos') (exists_bind_run (leer_run _) ?_)
    refine exists_bind_run hloop (exists_bind_run (modify_run _) ?_)
    exact exists_bind_run (cerrarPcb_run htids) ⟨_, rfl⟩

/-! ## The invariant -/

/-- A thread that a movement ends gets into `lista_exit`. -/
theorem Planificacion.Mueve.exit_of_terminan {s s' : Planificacion} {m : Movimiento} {d : Dir}
    (h : s.Mueve m s') (hd : d ∈ m.terminan) : d ∈ s'.exit := by
  cases h with
  | termina hhs => exact List.mem_append_right _ ((hhs d).mpr hd)
  | _ => exact absurd hd List.not_mem_nil

/-- If no thread is in `lista_exit` twice, those that ended last were not in it. -/
theorem Planificacion.Mueve.nuevo_of_nodup {s s' : Planificacion} {m : Movimiento} {d : Dir}
    (h : s.Mueve m s') (hd : d ∈ m.terminan) (hs' : s'.exit.Nodup) : d ∉ s.exit := by
  cases h with
  | termina hhs =>
    exact fun hno => (List.nodup_append.mp hs').2.2 d hno d ((hhs d).mpr hd) rfl
  | _ => exact absurd hd List.not_mem_nil

theorem terminan_processExit {d : TDatosEsenciales} (htid : d.tidInv = 0)
    (hok : ent.mensajeFinProceso = ['O', 'K']) :
    (k.movimiento ent (.syscall (.processExit d))).terminan =
      k.listaTcbs.filter fun h => (k.tcbs h).pid = d.pidInv := by
  simp only [Estado.movimiento, Estado.movSyscall, htid, hok, and_self, if_true,
    Movimiento.terminan]

theorem movFinHilo_sublist {tid pid : Uint32} :
    (k.movFinHilo (k.buscarTcbs tid pid)).terminan.Sublist k.listaTcbs := by
  cases hb : k.buscarTcbs tid pid with
  | none => exact List.nil_sublist _
  | some e => exact List.singleton_sublist.mpr (mem_of_buscarTcbs hb)

/-- A step ends threads of `lista_tcbs`, each once. -/
theorem terminan_sublist : (k.movimiento ent p).terminan.Sublist k.listaTcbs := by
  by_cases hpuede : p.puedeTerminar = true
  · cases p with
    | syscall y =>
      cases y with
      | processExit d =>
        simp only [Estado.movimiento, Estado.movSyscall]
        split
        · exact List.filter_sublist
        · exact List.nil_sublist _
      | threadCancel d =>
        simp only [Estado.movimiento, Estado.movSyscall]
        split
        · exact List.nil_sublist _
        · exact movFinHilo_sublist
      | threadExit d => exact movFinHilo_sublist
      | _ => cases hpuede
    | _ => cases hpuede
  · rw [terminan_nil ((Bool.not_eq_true _).mp hpuede)]
    exact List.nil_sublist _

/-- The threads of `lista_exit` ended once each, and the others did not end. -/
structure CuentaFines (k : Estado) : Prop where
  asignado : k.Asignado
  exitBien : ExitBien k
  holgado : k.Holgado
  distintos : k.listaTcbs.Nodup
  finalizados : k.listaExit ⊆ k.listaTcbs
  largo : k.listaTcbs.length = (hilosDe k.enviados).length
  /-- A thread that did not end has the identity it was created with. -/
  vivos : ∀ h ∈ k.listaTcbs, h ∉ k.listaExit → k.idCreado h = some (k.idDe h)
  fines : k.FinesBien k

namespace CuentaFines

/-- A new thread has its identity, and the others keep theirs. -/
theorem idCreado_nace (hk : CuentaFines k) {e d : Dir} {id : Uint32 × Uint32}
    (hn : NaceHilo k e id k') :
    k'.idCreado d = if d = e then some id else k.idCreado d := by
  unfold Estado.idCreado
  rw [hn.hilos, hn.creados, List.zip_append hk.largo, List.lookup_append]
  by_cases hd : d = e
  · subst hd
    have hno : (k.listaTcbs.zip (hilosDe k.enviados)).lookup d = none := by
      refine List.lookup_eq_none_iff.mpr fun x hx => ?_
      have hmem : x.1 ∈ k.listaTcbs := (List.of_mem_zip hx).1
      have hlt := Nat.lt_of_lt_of_le (hk.asignado.hilos x.1 hmem) hn.fresco
      simpa using Nat.ne_of_gt hlt
    rw [if_pos rfl, hno]
    simp
  · have hotro : ([e].zip [id]).lookup d = none := by
      rw [List.zip_cons_cons, List.lookup_cons, beq_eq_false_iff_ne.mpr hd]
      rfl
    rw [if_neg hd, hotro, Option.or_none]

theorem idCreado (hk : CuentaFines k) (hp : paso ent k p = .ok (k', o)) {d : Dir}
    (hd : d ∈ k.listaTcbs) : k'.idCreado d = k.idCreado d := by
  have hnace : ∀ {e : Dir} {id : Uint32 × Uint32}, NaceHilo k e id k' →
      k'.idCreado d = k.idCreado d := fun hn => by
    rw [hk.idCreado_nace hn, if_neg]
    exact Nat.ne_of_lt (Nat.lt_of_lt_of_le (hk.asignado.hilos d hd) hn.fresco)
  cases paso_crea hp with
  | proceso hn _ hcreados =>
    unfold Estado.idCreado
    rw [hn.hilos, hcreados]
  | principal _ _ _ hn => exact hnace hn
  | hilo _ _ _ hn => exact hnace hn
  | nada _ _ _ hs =>
    unfold Estado.idCreado
    rw [hs.tabla.hilos, hs.creados]

/-- The threads that a step ends did not end before, so nobody ends twice. -/
theorem finesBien (hk : CuentaFines k) (hc : ∀ d ∈ (k.movimiento ent p).terminan, d ∉ k.listaExit) :
    k.FinesBien (p.tras ent k) := by
  obtain ⟨ts, us, hus, hts, hexit, hfines⟩ := paso_acaba ent p hk.distintos
  obtain ⟨hnodup, vs, hvs, hprevios⟩ := hk.fines
  refine ⟨?_, vs ++ us, ?_, ?_⟩
  · rw [hexit]
    refine List.nodup_append.mpr ⟨hnodup, hk.distintos.sublist (hts.trans terminan_sublist), ?_⟩
    rintro d hd e he rfl
    exact hc d (hts.subset he) hd
  · rw [hexit]
    exact hvs.append hus
  · rw [hfines, List.map_append, hprevios, List.map_append, List.map_map]
    congr 1
    refine List.map_congr_left fun d hd => ?_
    have hd' := hts.subset (hus.subset hd)
    rw [hk.vivos d (terminan_sublist.subset hd') (hc d hd')]
    rfl

theorem tras_paso (hk : CuentaFines k) (hc : ∀ d ∈ (k.movimiento ent p).terminan, d ∉ k.listaExit)
    (hp : paso ent k p = .ok (k', o)) : CuentaFines k' := by
  have hasignado := (paso_crea hp).asignado hk.asignado
  have hexitBien := paso_exitBien hp hk.exitBien
  have hm := paso_mueve hp
  have hsub : k.listaExit ⊆ k'.listaExit := hm.exit_subset
  have hfinalizados : k'.listaExit ⊆ k.listaTcbs := fun d hd => by
    rcases hm.exit_mem hd with hd | hd
    · exact hk.finalizados hd
    · exact terminan_sublist.subset hd
  have hviejo : ∀ d ∈ k.listaTcbs, d ∉ k'.listaExit → k'.idCreado d = some (k'.idDe d) := by
    intro d hd hno
    have hid := (paso_crea hp).idDe hk.asignado hd fun hl => hno (hexitBien.liberados hl)
    rw [hk.idCreado hp hd, hid]
    exact hk.vivos d hd fun hl => hno (hsub hl)
  have hfines : k'.FinesBien k' := by
    have hbien := hk.finesBien hc
    rw [paso_tras hp] at hbien
    obtain ⟨hnodup, us, hus, heq⟩ := hbien
    refine ⟨hnodup, us, hus, heq.trans (List.map_congr_left fun d hd => ?_)⟩
    rw [hk.idCreado hp (hfinalizados (hus.subset hd))]
  have hnace : ∀ {e : Dir} {id : Uint32 × Uint32}, NaceHilo k e id k' → CuentaFines k' := by
    intro e id hn
    have hfresco : e ∉ k.listaTcbs := fun he =>
      absurd hn.fresco (Nat.not_le_of_lt (hk.asignado.hilos e he))
    refine ⟨hasignado, hexitBien, paso_holgado hk.holgado hp, ?_, ?_, ?_, fun d hd hno => ?_,
      hfines⟩
    · rw [hn.hilos]
      rw [← List.concat_eq_append]
      exact hk.distintos.concat hfresco
    · rw [hn.hilos]
      exact List.subset_append_of_subset_left _ hfinalizados
    · rw [hn.hilos, hn.creados, List.length_append, List.length_append, hk.largo]
      rfl
    · rw [hn.hilos] at hd
      rcases List.mem_append.mp hd with hd | hd
      · exact hviejo d hd hno
      · obtain rfl := List.mem_singleton.mp hd
        rw [hk.idCreado_nace hn, if_pos rfl, hn.propia]
  have hnada : k'.listaTcbs = k.listaTcbs → hilosDe k'.enviados = hilosDe k.enviados →
      CuentaFines k' := by
    intro hhilos hcreados
    refine ⟨hasignado, hexitBien, paso_holgado hk.holgado hp, ?_, ?_, ?_, fun d hd => ?_, hfines⟩
    · rw [hhilos]
      exact hk.distintos
    · rw [hhilos]
      exact hfinalizados
    · rw [hhilos, hcreados]
      exact hk.largo
    · exact hviejo d (hhilos ▸ hd)
  cases paso_crea hp with
  | proceso hn _ hcreados => exact hnada hn.hilos hcreados
  | principal _ _ _ hn => exact hnace hn
  | hilo _ _ _ hn => exact hnace hn
  | nada _ _ _ hs => exact hnada hs.tabla.hilos hs.creados

/-- After a `PROCESS_EXIT` of the main thread. -/
theorem procesoTerminado (hk : CuentaFines k) {d : TDatosEsenciales} (htid : d.tidInv = 0)
    (hok : ent.mensajeFinProceso = ['O', 'K'])
    (hp : paso ent k (.syscall (.processExit d)) = .ok (k', o)) (hnodup : k'.listaExit.Nodup) :
    k.ProcesoTerminado k' d.pidInv := by
  have hm := paso_mueve hp
  have hr : (kernelEscuchaCpuDispatch ent (.processExit d)).run k = .ok () k' := paso_ok hp
  have hhilos : k'.listaTcbs = k.listaTcbs :=
    (syscall_sinCrear (by simp) (by simp) hr).tabla.hilos
  constructor
  · intro e he tid hid
    rw [hhilos] at he
    rw [hk.idCreado hp he] at hid
    refine List.count_eq_one_of_mem hnodup ?_
    by_cases hexit : e ∈ k.listaExit
    · exact hm.exit_subset hexit
    · rw [hk.vivos e he hexit] at hid
      have hpid : (k.tcbs e).pid = d.pidInv := congrArg Prod.fst (Option.some.inj hid)
      refine hm.exit_of_terminan ?_
      rw [terminan_processExit htid hok]
      exact List.mem_filter.mpr ⟨he, decide_eq_true hpid⟩
  · rcases processExit_ok (paso_ok hp) with ⟨hno, -⟩ | ⟨-, m, vs, hfin⟩
    · exact absurd htid hno
    obtain ⟨q, hq, ⟨hno, -⟩ | ⟨k₁, m₁, vs₁, m₂, vs₂, -, -, -, rfl⟩⟩ := finalizarProceso_ok hfin
    · exact absurd hok hno
    · refine ⟨q, hq, ?_⟩
      simp [Estado.conCerrojo, Estado.cerrarProceso, Estado.modPcb]

end CuentaFines

/-! ## The exact condition -/

theorem mem_terminaProceso {pid : Uint32} :
    pid ∈ p.terminaProceso ↔
      ∃ d, p = .syscall (.processExit d) ∧ d.tidInv = 0 ∧ d.pidInv = pid := by
  constructor
  · intro hpid
    cases p with
    | syscall y =>
      cases y with
      | processExit d =>
        simp only [Paso.terminaProceso] at hpid
        by_cases htid : d.tidInv = 0
        · rw [if_pos htid] at hpid
          exact ⟨d, rfl, htid, Option.some.inj hpid⟩
        · rw [if_neg htid] at hpid
          cases hpid
      | _ => cases hpid
    | _ => cases hpid
  · rintro ⟨d, rfl, htid, rfl⟩
    simp only [Paso.terminaProceso, htid, if_true]
    rfl

theorem finHiloDesde_listaExit {q : Dir} {tid : Uint32} {l : List Dir} :
    Keeps (fun s : Estado => s.listaExit = l) (finHiloDesde ent q h tid) := by
  have hI : Observa fun s : Estado => s.listaExit = l := fun _ _ _ hexit hs => hexit.trans hs
  have hE : TrasEnvio (fun _ => True) fun s : Estado => s.listaExit = l := fun _ _ _ hs => hs
  unfold finHiloDesde
  refine (quitarTid_keeps hI.modPcb q tid).bind fun _ => (leer_keeps _).bind fun n => ?_
  refine (liberarMutexs_keeps hI.modPcb q tid _).bind fun _ => ?_
  refine (informarAMemoriaFinHilo_observa hE (fun _ => trivial) h).bind fun _ => ?_
  exact (desbloquearHilosPorTid_observa hI h).bind fun _ => liberar_observa hI h

/-- `finalizar_hilo` puts the thread into `lista_exit`, also if it stops later. -/
theorem finalizarHilo_listaExit (ent : Entorno) (h : Dir) (hk : 0 < k.mutex) :
    (final (finalizarHilo ent h) k).listaExit = k.listaExit ++ [h] := by
  cases hq : k.buscarProceso (k.tcbs h).pid with
  | none =>
    rw [final_of_ok (finalizarHilo_sin_proceso hk hq)]
    rfl
  | some q =>
    have hmismo : final (finalizarHilo ent h) k =
        final (finHiloDesde ent q h (k.tcbs h).tid) (k.enExit h) := by
      unfold final
      rw [finalizarHilo_run hk hq]
    rw [hmismo]
    exact finHiloDesde_listaExit.final rfl

/-- A `THREAD_CANCEL` or `THREAD_EXIT` that ends a thread puts it into `lista_exit`. -/
theorem terminaUno_listaExit {d : Dir} (hk : 0 < k.mutex) (huno : p.terminaUno = true)
    (hd : d ∈ (k.movimiento ent p).terminan) : (p.tras ent k).listaExit = k.listaExit ++ [d] := by
  have hfin : ∀ e, (final (finalizarHilo ent e) k.trasCerrojo).listaExit = k.listaExit ++ [e] :=
    fun e => finalizarHilo_listaExit ent e hk
  unfold Paso.tras
  cases p with
  | syscall y =>
    cases y with
    | threadCancel c =>
      show (final (threadCancel ent c) k).listaExit = _
      unfold threadCancel
      rw [final_bind (buscarTcbs_run hk)]
      simp only [Estado.movimiento, Estado.movSyscall] at hd
      cases hb : k.buscarTcbs c.TID c.PID with
      | none =>
        rw [hb] at hd
        exact absurd hd List.not_mem_nil
      | some e =>
        rw [hb] at hd
        by_cases hexit : (k.tcbs e).estadoHilo = .exit
        · rw [if_pos (show k.terminado (some e) = true from decide_eq_true hexit)] at hd
          exact absurd hd List.not_mem_nil
        · rw [if_neg (by simpa [Estado.terminado] using hexit)] at hd
          obtain rfl := List.mem_singleton.mp hd
          have hexit' : (k.trasCerrojo.tcbs d).estadoHilo ≠ .exit := hexit
          simp only [final_bind (leer_run _), if_neg hexit']
          exact hfin d
    | threadExit c =>
      show (final (threadExit ent c) k).listaExit = _
      unfold threadExit
      rw [final_bind (buscarTcbs_run hk)]
      simp only [Estado.movimiento, Estado.movSyscall] at hd
      cases hb : k.buscarTcbs c.tidInv c.pidInv with
      | none =>
        rw [hb] at hd
        exact absurd hd List.not_mem_nil
      | some e =>
        rw [hb] at hd
        obtain rfl := List.mem_singleton.mp hd
        exact hfin d
    | _ => cases huno
  | _ => cases huno

theorem terminaUno_of_terminan {d : Dir} (hd : d ∈ (k.movimiento ent p).terminan)
    (hno : ¬ ∃ d, p = .syscall (.processExit d) ∧ d.tidInv = 0) : p.terminaUno = true := by
  by_cases hpuede : p.puedeTerminar = true
  · cases p with
    | syscall y =>
      cases y with
      | processExit c =>
        have htid : c.tidInv ≠ 0 := fun htid => hno ⟨c, rfl, htid⟩
        simp only [Estado.movimiento, Estado.movSyscall, htid, false_and, if_false] at hd
        exact absurd hd List.not_mem_nil
      | threadCancel c => rfl
      | threadExit c => rfl
      | _ => cases hpuede
    | _ => cases hpuede
  · rw [terminan_nil ((Bool.not_eq_true _).mp hpuede)] at hd
    exact absurd hd List.not_mem_nil

theorem finUnico_iff (hk : CuentaFines k) (hok : ent.mensajeFinProceso = ['O', 'K']) :
    k.FinUnico ent p ↔ k.TerminaNuevos ent p := by
  have hpos : 0 < k.mutex := Nat.lt_of_lt_of_le (by omega) hk.holgado
  by_cases hproc : ∃ d, p = .syscall (.processExit d) ∧ d.tidInv = 0
  · obtain ⟨d, rfl, htid⟩ := hproc
    have hpid : d.pidInv ∈ (Paso.syscall (.processExit d)).terminaProceso :=
      mem_terminaProceso.mpr ⟨d, rfl, htid, rfl⟩
    have hvuelve := processExit_vuelve_iff htid hok hk.distintos hk.holgado
    have hterminan := terminan_processExit (k := k) htid hok
    constructor
    · rintro ⟨⟨hnodup, -⟩, hsale⟩
      obtain ⟨k', o, hp, -⟩ := hsale _ hpid
      rw [paso_tras hp] at hnodup
      obtain ⟨q, hq, hlista, hhilos⟩ := hvuelve.mp ⟨k', paso_ok hp⟩
      refine ⟨fun e he => (paso_mueve hp).nuevo_of_nodup he hnodup, fun pid hpid' => ?_⟩
      obtain rfl : d.pidInv = pid := Option.mem_unique hpid hpid'
      refine ⟨q, hq, hlista, fun e he => ?_⟩
      rw [hterminan] at he
      obtain ⟨he, hdpid⟩ := List.mem_filter.mp he
      exact (hhilos e he (of_decide_eq_true hdpid)).1
    · rintro ⟨hnuevos, hsale⟩
      have hbien := hk.finesBien hnuevos
      refine ⟨hbien, fun pid hpid' => ?_⟩
      obtain rfl : d.pidInv = pid := Option.mem_unique hpid hpid'
      obtain ⟨q, hq, hlista, hcolas⟩ := hsale _ hpid
      obtain ⟨k', hr⟩ := hvuelve.mpr ⟨q, hq, hlista, fun e he hdpid => by
        have he' : e ∈ (k.movimiento ent (.syscall (.processExit d))).terminan := by
          rw [hterminan]
          exact List.mem_filter.mpr ⟨he, decide_eq_true hdpid⟩
        exact ⟨hcolas e he', fun hl => hnuevos e he' (hk.exitBien.liberados hl)⟩⟩
      obtain ⟨o, hp⟩ : ∃ o, paso ent k (.syscall (.processExit d)) = .ok (k', o) := paso_of_run hr
      rw [paso_tras hp] at hbien
      exact ⟨k', o, hp, hk.procesoTerminado htid hok hp hbien.1⟩
  · have hnadie : ∀ pid, pid ∉ p.terminaProceso := fun pid hpid => by
      obtain ⟨d, hp, htid, -⟩ := mem_terminaProceso.mp hpid
      exact hproc ⟨d, hp, htid⟩
    constructor
    · rintro ⟨⟨hnodup, -⟩, -⟩
      refine ⟨fun e he => ?_, fun pid hpid => absurd hpid (hnadie pid)⟩
      have huno := terminaUno_of_terminan he hproc
      rw [terminaUno_listaExit hpos huno he] at hnodup
      exact fun hno => (List.nodup_append.mp hnodup).2.2 e hno e (List.mem_singleton_self e) rfl
    · rintro ⟨hnuevos, -⟩
      exact ⟨hk.finesBien hnuevos, fun pid hpid => absurd hpid (hnadie pid)⟩

/-! ## The runs -/

section Corridas

variable {tcbs : Dir → TCB} {pcbs : Dir → PCB} {uint32s : Dir → Uint32}

theorem cuentaFines_inicio : CuentaFines (estadoInicial tcbs pcbs uint32s) where
  asignado := ⟨fun _ hh => absurd hh List.not_mem_nil, fun _ hq => absurd hq List.not_mem_nil⟩
  exitBien := ⟨List.Subset.refl _, fun _ hh => absurd hh List.not_mem_nil⟩
  holgado := Nat.le_refl 1
  distintos := List.nodup_nil
  finalizados := List.Subset.refl _
  largo := rfl
  vivos _ hh := absurd hh List.not_mem_nil
  fines := ⟨List.nodup_nil, [], List.Sublist.refl _, rfl⟩

/-- **Each thread ends once.** Along a run in which memoria answers `"OK"`, no thread gets into
`lista_exit` twice and memoria is told of it at most once, and each `PROCESS_EXIT` of a main thread
leaves every thread of the process ended once, exactly when each step ends only threads that did not
end before, and each of those `PROCESS_EXIT` is for a process that did not end, whose threads own no
mutex that somebody waits for. -/
theorem finales_iff (hok : ent.mensajeFinProceso = ['O', 'K']) (ps : List Paso) :
    EveryTry (paso ent) (estadoInicial tcbs pcbs uint32s) ps (fun _ k p => k.FinUnico ent p) ↔
      EveryTry (paso ent) (estadoInicial tcbs pcbs uint32s) ps
        fun _ k p => k.TerminaNuevos ent p :=
  everyTry_iff (D := fun _ _ _ => True) (I := fun _ => CuentaFines)
    (fun _ _ _ _ _ _ _ => trivial) cuentaFines_inicio
    (fun _ _ _ _ _ _ hk hc hp => hk.tras_paso hc.1 hp) fun _ _ _ hk => finUnico_iff hk hok

end Corridas

/-- The process exits while its second thread waits for a mutex of the main thread. No block is
freed before the process stops, so what `free` leaves plays no part. -/
def finConEspera : List Paso := unoEspera ++ [.syscall (.processExit ⟨1, 0⟩)]

theorem finales_finConEspera :
    EveryTry (paso entornoFifo) estadoCero finConEspera (fun _ k p => k.FinUnico entornoFifo p) ↔
      EveryTry (paso entornoFifo) estadoCero finConEspera
        fun _ k p => k.TerminaNuevos entornoFifo p :=
  finales_iff rfl finConEspera

/-- `PROCESS_EXIT` stops at the mutex of the main thread: the second thread never ends. -/
theorem final_incompleto : ¬ EveryTry (paso entornoFifo) estadoCero finConEspera
    fun _ k p => k.FinUnico entornoFifo p := by
  intro h
  have hrun : (run (paso entornoFifo) estadoCero unoEspera).toOption.map (fun r =>
      (paso entornoFifo r.1 (.syscall (.processExit ⟨1, 0⟩))).toOption.isSome) = some false := by
    decide +kernel
  obtain ⟨k, hk, hpara⟩ := reaches_of_map (g := fun k : Estado =>
    (paso entornoFifo k (.syscall (.processExit ⟨1, 0⟩))).toOption.isSome) hrun
  obtain ⟨k', o, hp, -⟩ := (h _ k (.syscall (.processExit ⟨1, 0⟩)) (List.prefix_refl _) hk).2 1 rfl
  rw [hp] at hpara
  cases hpara

end LastOfC.Kernel
