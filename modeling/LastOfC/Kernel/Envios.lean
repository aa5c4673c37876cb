import Mathlib.Data.List.Dedup
import LastOfC.Kernel.Pasos

/-!
# The packets that a step sends

`Envia P k k'`: from `k` to `k'` the kernel only sent packets with `P`. The end of threads sends
`FINALIZAR_HILO` only, one for each thread (`finalizarTodos_avisa`), and no syscall sends
`RECIBIR_TID`. `paso_recibirTid`: a `RECIBIR_TID` is for a thread that the same step put into
`cola_exec`.
-/

namespace LastOfC.Kernel

open Imp Planificacion

variable {ent : Entorno} {k k' : Estado}

def Envia (P : Paquete → Prop) (k k' : Estado) : Prop :=
  ∃ ps, k'.enviados = k.enviados ++ ps ∧ ∀ q ∈ ps, P q

namespace Envia

variable {P Q : Paquete → Prop} {k₁ : Estado}

theorem nada (h : k'.enviados = k.enviados) : Envia P k k' :=
  ⟨[], by rw [h, List.append_nil], by simp⟩

theorem uno {q : Paquete} (h : k'.enviados = k.enviados ++ [q]) (hq : P q) : Envia P k k' :=
  ⟨[q], h, by simpa using hq⟩

theorem trans (h : Envia P k k₁) (h' : Envia P k₁ k') : Envia P k k' := by
  obtain ⟨ps, hps, hP⟩ := h
  obtain ⟨ps', hps', hP'⟩ := h'
  refine ⟨ps ++ ps', by rw [hps', hps, List.append_assoc], fun q hq => ?_⟩
  rcases List.mem_append.mp hq with hq | hq
  · exact hP q hq
  · exact hP' q hq

theorem mono (h : Envia P k k') (hPQ : ∀ q, P q → Q q) : Envia Q k k' := by
  obtain ⟨ps, hps, hP⟩ := h
  exact ⟨ps, hps, fun q hq => hPQ q (hP q hq)⟩

/-- The packets of a step that ends. -/
theorem de_paso {p : Paso} {o : List Paquete} (h : Envia P k k')
    (hp : paso ent k p = .ok (k', o)) : ∀ q ∈ o, P q := by
  obtain ⟨ps, hps, hP⟩ := h
  have ho := paso_salida hp
  rw [hps, List.drop_left] at ho
  rw [ho]
  exact hP

end Envia

/-! ## The end of threads -/

/-- The thread `h` tells memoria its pid, and is freed. -/
theorem Finaliza.avisa {h : Dir} {bs : List Dir} (hf : Finaliza ent k h bs k') :
    k'.enviados = k.enviados ++
        [.finalizarHilo (serializarFinalizarHilo (k.tcbs h).pid (k.tcbs h).tid)] ∧
      h ∉ k.liberados ∧ k'.liberados = h :: k.liberados := by
  obtain ⟨p, ms, tids, k₁, m, vs, -, -, hd, -, hlib, rfl⟩ := hf
  refine ⟨?_, hlib, rfl⟩
  show k₁.enviados = _
  rw [hd.marco]
  rfl

def Paquete.EsFinalizarHilo : Paquete → Prop
  | .finalizarHilo _ => True
  | _ => False

theorem finalizarHilo_envia {h : Dir} (hr : (finalizarHilo ent h).run k = .ok () k') :
    Envia Paquete.EsFinalizarHilo k k' := by
  rcases finalizarHilo_ok hr with ⟨-, m, vs, rfl⟩ | ⟨bs, hf⟩
  · exact .nada rfl
  · exact .uno hf.avisa.1 trivial

theorem finalizarTodos_envia {p : Dir} {hs : List Dir}
    (hr : (each (finalizarSiEsDe ent p) hs).run k = .ok () k') :
    Envia Paquete.EsFinalizarHilo k k' := by
  refine each_ok (I := fun _ s => Envia Paquete.EsFinalizarHilo k s) hr (.nada rfl) ?_
  intro h rest s₁ s₂ _ hs₁ hh
  rcases finalizarSiEsDe_ok hh with ⟨-, rfl⟩ | ⟨-, hfin⟩
  · exact hs₁
  · exact hs₁.trans (finalizarHilo_envia hfin)

/-- The threads of the process `pid` in `lista_tcbs`, each counted once. -/
def Estado.hilosDePid (k : Estado) (pid : Uint32) : List Dir :=
  (k.listaTcbs.filter fun h => (k.tcbs h).pid = pid).dedup

/-- The loop of `finalizar_proceso` sends one `FINALIZAR_HILO` for each thread of the process. -/
theorem finalizarTodos_avisa {p : Dir} {pid : Uint32} {hs : List Dir}
    (hr : (each (finalizarSiEsDe ent p) hs).run k = .ok () k') (hpid : (k.pcbs p).pid = pid)
    (hproc : k.buscarProceso pid ≠ none) :
    ∃ ts : List Dir, ts.Nodup ∧ (∀ d, d ∈ ts ↔ d ∈ hs ∧ (k.tcbs d).pid = pid) ∧
      (∀ d ∈ ts, d ∉ k.liberados) ∧
      k'.enviados = k.enviados ++
        List.replicate ts.length (.finalizarHilo (serializarFinalizarHilo pid 0)) := by
  induction hs generalizing k with
  | nil =>
    obtain ⟨-, rfl⟩ := pure_ok.mp hr
    exact ⟨[], List.nodup_nil, by simp, by simp, by simp⟩
  | cons h hs ih =>
    obtain ⟨_, k₁, hh, hrest⟩ := bind_ok.mp hr
    rcases finalizarSiEsDe_ok hh with ⟨hne, rfl⟩ | ⟨heq, hfin⟩
    · rw [hpid] at hne
      obtain ⟨ts, hts, hmem, hlib, henv⟩ := ih hrest hpid hproc
      refine ⟨ts, hts, fun d => ?_, hlib, henv⟩
      rw [hmem, List.mem_cons]
      constructor
      · exact fun hd => ⟨.inr hd.1, hd.2⟩
      · rintro ⟨rfl | hd, hdp⟩
        · exact absurd hdp hne
        · exact ⟨hd, hdp⟩
    · rw [hpid] at heq
      rcases finalizarHilo_ok hfin with ⟨hno, -⟩ | ⟨bs, hf⟩
      · rw [heq] at hno
        exact absurd hno hproc
      have ht := hf.termina
      obtain ⟨henv₁, hvivo, hlib₁⟩ := hf.avisa
      have hproc₁ : k₁.buscarProceso pid ≠ none := by
        rw [ht.buscarProceso]
        exact hproc
      obtain ⟨ts, hts, hmem, hlib, henv⟩ := ih hrest ((ht.pidProceso p).trans hpid) hproc₁
      rw [hlib₁] at hlib
      have hfuera : h ∉ ts := fun hno => hlib h hno List.mem_cons_self
      refine ⟨h :: ts, List.nodup_cons.mpr ⟨hfuera, hts⟩, fun d => ?_, fun d hd => ?_, ?_⟩
      · rw [List.mem_cons, List.mem_cons, hmem]
        by_cases hd : d = h
        · subst hd
          simp [heq]
        · simp only [hd, false_or, ht.pid d (by simpa using hd)]
      · rcases List.mem_cons.mp hd with rfl | hd
        · exact hvivo
        · exact fun hno => hlib d hd (List.mem_cons_of_mem h hno)
      · rw [henv, henv₁, heq, List.append_assoc, List.length_cons, List.replicate_succ]
        rfl

/-- What `PROCESS_EXIT` of the main thread sends, if memoria answers `"OK"`. -/
theorem processExit_avisa {d : TDatosEsenciales} {o : List Paquete}
    (hp : paso ent k (.syscall (.processExit d)) = .ok (k', o)) (htid : d.tidInv = 0)
    (hok : ent.mensajeFinProceso = ['O', 'K']) :
    ∃ pid tam, o = [.finalizarProceso d.pidInv] ++
      List.replicate (k.hilosDePid d.pidInv).length
        (.finalizarHilo (serializarFinalizarHilo d.pidInv 0)) ++ [.asignarMemoria pid tam] := by
  rcases processExit_ok (paso_ok hp) with ⟨hno, -⟩ | ⟨-, m, vs, hfin⟩
  · exact absurd htid hno
  obtain ⟨p, hb, ⟨hno, -⟩ | ⟨k₁, m₁, vs₁, m₂, vs₂, -, hloop, -, rfl⟩⟩ := finalizarProceso_ok hfin
  · exact absurd hok hno
  have hpid : (k.pcbs p).pid = d.pidInv := pid_of_buscarProceso hb
  have hproc : k.buscarProceso d.pidInv ≠ none := hb ▸ Option.some_ne_none p
  obtain ⟨ts, hts, hmem, -, henv⟩ := finalizarTodos_avisa hloop hpid hproc
  have hcuenta : ts.length = (k.hilosDePid d.pidInv).length := by
    apply List.Perm.length_eq
    refine (List.perm_ext_iff_of_nodup hts (List.nodup_dedup _)).mpr fun h => ?_
    rw [hmem, List.mem_dedup, List.mem_filter, decide_eq_true_iff]
    rfl
  obtain ⟨pid, tam, hult⟩ : ∃ pid tam, ((k₁.cerrarProceso p).conCerrojo m₂ vs₂).enviados =
      k₁.enviados ++ [.asignarMemoria pid tam] := ⟨_, _, rfl⟩
  refine ⟨pid, tam, ?_⟩
  have haviso : ((((k.conCerrojo m vs).avisarFinProceso p).conCerrojo m₁ vs₁)).enviados =
      k.enviados ++ [.finalizarProceso d.pidInv] := by
    rw [← hpid]
    rfl
  rw [paso_salida hp, hult, henv, haviso, hcuenta, List.append_assoc, List.append_assoc,
    List.drop_left, List.append_assoc]

/-! ## `RECIBIR_TID` -/

def Paquete.EsRecibirTid : Paquete → Prop
  | .recibirTid _ _ => True
  | _ => False

theorem Envia.sin_recibirTid (h : Envia Paquete.EsFinalizarHilo k k') :
    Envia (¬ Paquete.EsRecibirTid ·) k k' := by
  refine h.mono fun q hq => ?_
  cases q with
  | finalizarHilo buffer => exact not_false
  | _ => exact hq.elim

theorem finalizarProceso_sin_recibirTid {d : Option Dir}
    (hr : (finalizarProceso ent d).run k = .ok () k') : Envia (¬ Paquete.EsRecibirTid ·) k k' := by
  obtain ⟨p, -, ⟨-, rfl⟩ | ⟨k₁, m, vs, m', vs', -, hloop, -, rfl⟩⟩ := finalizarProceso_ok hr
  · exact .uno rfl not_false
  · have haviso : Envia (¬ Paquete.EsRecibirTid ·) k ((k.avisarFinProceso p).conCerrojo m vs) :=
      .uno rfl not_false
    have hfin : Envia (¬ Paquete.EsRecibirTid ·) k₁ ((k₁.cerrarProceso p).conCerrojo m' vs') :=
      .uno rfl not_false
    exact haviso.trans ((finalizarTodos_envia hloop).sin_recibirTid.trans hfin)

/-- No syscall dispatches a thread. -/
theorem syscall_sin_recibirTid {s : Syscall}
    (hr : (kernelEscuchaCpuDispatch ent s).run k = .ok () k') :
    Envia (¬ Paquete.EsRecibirTid ·) k k' := by
  cases s with
  | processCreate d =>
    obtain ⟨m, vs, rfl⟩ := crearProceso_ok hr
    exact .nada rfl
  | processExit d =>
    rcases processExit_ok hr with ⟨-, rfl⟩ | ⟨-, m, vs, hfin⟩
    · exact .nada rfl
    · exact finalizarProceso_sin_recibirTid (k := k.conCerrojo m vs) hfin
  | threadCreate d =>
    rcases threadCreate_ok hr with ⟨-, m, vs, rfl⟩ | ⟨p, tids, m, vs, -, -, rfl⟩
    · exact .nada rfl
    · exact .uno rfl not_false
  | threadJoin d =>
    obtain ⟨h, m, vs, -, ⟨-, rfl⟩ | ⟨-, rfl⟩⟩ := threadJoin_ok hr
    · exact .nada rfl
    · exact .nada rfl
  | threadCancel d =>
    rcases threadCancel_ok hr with ⟨-, m, vs, rfl⟩ | ⟨h, m, vs, -, -, hfin⟩
    · exact .nada rfl
    · exact (finalizarHilo_envia (k := k.conCerrojo m vs) hfin).sin_recibirTid
  | threadExit d =>
    rcases threadExit_ok hr with ⟨-, m, vs, rfl⟩ | ⟨h, m, vs, -, hfin⟩
    · exact .nada rfl
    · exact (finalizarHilo_envia (k := k.conCerrojo m vs) hfin).sin_recibirTid
  | mutexCreate d =>
    obtain ⟨p, m, vs, -, rfl⟩ := mutexCreate_ok hr
    exact .nada rfl
  | mutexLock d =>
    obtain ⟨p, i, l, m, vs, -, -, ⟨-, rfl⟩ | ⟨h, -, -, rfl⟩⟩ := mutexLock_ok hr
    · exact .nada rfl
    · exact .nada rfl
  | mutexUnlock d =>
    obtain ⟨p, i, l, m, vs, -, -, hcaso⟩ := mutexUnlock_ok hr
    rcases hcaso with ⟨-, rfl⟩ | ⟨-, -, rfl⟩ | ⟨t, resto, -, -, ⟨-, rfl⟩ | ⟨h, -, rfl⟩⟩
    · exact .nada rfl
    · exact .nada rfl
    · exact .nada rfl
    · exact .nada rfl
  | dumpMemory d =>
    obtain ⟨h, m, vs, -, rfl⟩ := dumpMemory_ok hr
    exact .uno rfl not_false
  | io d =>
    rcases io_ok hr with ⟨-, m, vs, rfl⟩ | ⟨h, m, vs, -, rfl⟩
    · exact .nada rfl
    · exact .nada rfl

theorem memoria_sin_recibirTid {d : MensajeMemoria}
    (hr : (kernelEscuchaMemoria d).run k = .ok () k') :
    Envia (¬ Paquete.EsRecibirTid ·) k k' := by
  cases d with
  | confirmarEspacioProceso d =>
    rcases confirmarEspacioProceso_ok hr with ⟨-, rfl⟩ | ⟨k₁, -, hc, rfl⟩
    · exact .nada rfl
    · obtain ⟨p, q, resto, tids, m, vs, -, -, -, rfl⟩ := crearHilo_ok hc
      exact .uno rfl not_false
  | confirmarCreacionHilo d =>
    rcases confirmarCreacionHilo_ok hr with ⟨-, rfl⟩ | ⟨-, -, rfl⟩ | ⟨h, m, vs, -, -, rfl⟩
    · exact .nada rfl
    · exact .nada rfl
    · exact .nada rfl
  | confirmarDumpMemory =>
    obtain ⟨-, rfl⟩ := pure_ok.mp hr
    exact .nada rfl

/-- A step that sends `RECIBIR_TID` is an iteration of the scheduler, and the packet is for the
thread that it put into `cola_exec`. -/
theorem paso_recibirTid {p : Paso} {o : List Paquete} {pid tid : Uint32}
    (h : paso ent k p = .ok (k', o)) (hq : .recibirTid pid tid ∈ o) :
    ∃ d, k'.colaExec = k.colaExec ++ [d] ∧ (k.tcbs d).pid = pid ∧ (k.tcbs d).tid = tid := by
  have hr := paso_ok h
  cases p with
  | syscall s => exact absurd trivial ((syscall_sin_recibirTid hr).de_paso h _ hq)
  | memoria d => exact absurd trivial ((memoria_sin_recibirTid hr).de_paso h _ hq)
  | cortoPlazo =>
    obtain ⟨-, ⟨-, rfl⟩ | ⟨i, d, m, vs, -, rfl⟩⟩ := planificadorCortoPlazo_ok hr
    · have henv : Envia (fun _ => False) k { k with tcbAPlanificar := k.tcbAPlanificar - 1 } :=
        .nada rfl
      exact absurd hq (henv.de_paso h _)
    · have henv : Envia (· = .recibirTid (k.tcbs d).pid (k.tcbs d).tid) k
          { k.despachar i d with
            tcbAPlanificar := k.tcbAPlanificar - 1
            mutex := m
            valoresMutex := vs } := .uno rfl rfl
      have heq := henv.de_paso h _ hq
      cases heq
      exact ⟨d, rfl, rfl, rfl⟩
  | largoPlazo =>
    obtain ⟨-, rfl⟩ := planificadorDeLargoPlazo_ok hr
    have henv : Envia (¬ Paquete.EsRecibirTid ·) k { k with
        semPlaniLargoPlazo := k.semPlaniLargoPlazo - 1
        proximo := k.proximo + 1
        enviados := k.enviados ++
          [.asignarMemoria (k.pcbs (k.colaNew.headD k.proximo)).pid
            (k.pcbs (k.colaNew.headD k.proximo)).tamProceso] } := .uno rfl not_false
    exact absurd trivial (henv.de_paso h _ hq)

end LastOfC.Kernel
