import LastOfC.Memoria.Pasos
import LastOfC.Kernel.Envios

/-!
# The end of a thread, in the kernel and in memoria

The kernel tells memoria which thread ended with the payload of `serializar_finalizar_hilo`, and
memoria removes the first context with the pid and the tid that it reads from it. The payload holds
the pid twice, so the context removed is the one of the thread whose tid is the pid.

* `peticiones`: what memoria decodes from the packets of the kernel.
* `SinUno`: a list without one of its contexts, which has a given pid and tid.
* `fin_hilo_iff`: the end of a thread removes its own context exactly when its tid is its pid, and
  `PROCESS_EXIT` removes those of its process exactly when they all have the pid as their tid, and
  are no more than the threads that the kernel knows.
-/

namespace LastOfC.Sistema

open KeyedList Trace

/-- What `escuchar_kernel` decodes from a packet. `DUMP_MEMORY` is not one of its steps here, and
`RECIBIR_TID` goes to the CPU. -/
def peticion : Kernel.Paquete → Option Memoria.Peticion
  | .asignarMemoria pid tamProceso => some (.asignarMemoria { pid, tamProceso })
  | .hiloReady datos => some (.hiloReady datos)
  | .finalizarProceso pid => some (.finalizarProceso pid)
  | .finalizarHilo buffer => (deserializarFinalizarHilo buffer).map .finalizarHilo
  | .dumpMemory _ => none
  | .recibirTid _ _ => none

/-- The requests that reach memoria, in order. -/
def peticiones (o : List Kernel.Paquete) : List Memoria.Peticion :=
  o.filterMap peticion

/-- `cs'` is `cs` without one context, which has the pid and the tid. -/
def SinUno (cs cs' : List Memoria.ContextoEjecucion) (pid tid : Uint32) : Prop :=
  ∃ pre c post, cs = pre ++ c :: post ∧ c.clave = (pid, tid) ∧ cs' = pre ++ post

/-! ## Memoria -/

section Memoria

variable {entM : Memoria.Entorno} {s s' : Memoria.Estado} {pid tid : Uint32}

theorem finalizarHilo_eraseP (s : Memoria.Estado) (d : TDatosEsenciales) :
    Memoria.finalizarHilo s d = .ok ({ s with
      listaContextos := s.listaContextos.eraseP fun c => c.clave = (d.pidInv, d.tidInv) }, []) := by
  unfold Memoria.finalizarHilo Memoria.buscarContextoPorTid
  cases hb : search (fun c : Memoria.ContextoEjecucion => c.clave = (d.pidInv, d.tidInv))
      s.listaContextos with
  | none =>
    have hno := search_eq_none.mp hb
    rw [List.eraseP_of_forall_not fun c hc => by simp [hno c hc]]
  | some r =>
    show Except.ok ({ s with listaContextos := s.listaContextos.eraseIdx r.1 }, []) = _
    rw [eraseIdx_of_search hb]

/-- A removal by another key takes away no context of this one. -/
theorem sinUno_eraseP_iff {cs : List Memoria.ContextoEjecucion}
    (h : ∃ c ∈ cs, c.clave = (pid, tid)) :
    SinUno cs (cs.eraseP fun c => c.clave = (pid, pid)) pid tid ↔ tid = pid := by
  constructor
  · rintro ⟨pre, c, post, hcs, hc, hcs'⟩
    by_contra hne
    have hotra : ∀ a : Memoria.ContextoEjecucion, decide (a.clave = (pid, pid)) = true →
        decide (a.clave = (pid, tid)) = false := by
      intro a ha
      rw [of_decide_eq_true ha]
      exact decide_eq_false fun heq => hne (Prod.mk.inj heq).2.symm
    have hcuenta := countP_eraseP_of_disjoint hotra (l := cs)
    rw [hcs', hcs] at hcuenta
    simp [List.countP_append, hc] at hcuenta
  · rintro rfl
    obtain ⟨c, hmem, hc⟩ := h
    obtain ⟨a, pre, post, -, ha, hcs, he⟩ :=
      List.exists_of_eraseP (p := fun c => decide (c.clave = (tid, tid))) hmem (decide_eq_true hc)
    exact ⟨pre, a, post, hcs, of_decide_eq_true ha, he⟩

/-- Memoria decodes the pid twice. -/
theorem peticion_finalizarHilo (pid tid : Uint32) :
    peticion (.finalizarHilo (serializarFinalizarHilo pid tid)) =
      some (.finalizarHilo ⟨pid, pid⟩) := by
  simp only [peticion, deserializar_serializarFinalizarHilo, Option.map_some]

/-- What memoria does with `n` messages of the end of a thread of `pid`. -/
theorem finalizarHilos_contextos {n : Nat}
    (h : Reaches (Memoria.atender entM) s (List.replicate n (.finalizarHilo ⟨pid, pid⟩)) s') :
    s'.listaContextos =
      (List.eraseP fun c : Memoria.ContextoEjecucion => c.clave = (pid, pid))^[n]
        s.listaContextos := by
  induction n generalizing s with
  | zero =>
    rw [reaches_nil.mp h]
    rfl
  | succ n ih =>
    rw [List.replicate_succ, ← List.singleton_append] at h
    obtain ⟨s₁, h₁, h⟩ := reaches_append.mp h
    obtain ⟨o, h₁⟩ := reaches_singleton.mp h₁
    replace h₁ : Memoria.finalizarHilo s ⟨pid, pid⟩ = .ok (s₁, o) := h₁
    rw [finalizarHilo_eraseP] at h₁
    cases h₁
    rw [ih h, Function.iterate_succ_apply]

/-- The other messages of `PROCESS_EXIT` leave the contexts alone. -/
theorem atender_contextos_igual {a : Memoria.Peticion}
    (ha : (∃ d, a = .asignarMemoria d) ∨ ∃ pid, a = .finalizarProceso pid)
    (h : Reaches (Memoria.atender entM) s [a] s') : s'.listaContextos = s.listaContextos := by
  obtain ⟨o, h⟩ := reaches_singleton.mp h
  have hpaso := Memoria.atender_contextos h
  rcases ha with ⟨d, rfl⟩ | ⟨pid, rfl⟩
  · generalize s'.listaContextos = cs' at hpaso
    cases hpaso
    rfl
  · generalize s'.listaContextos = cs' at hpaso
    cases hpaso
    rfl

end Memoria

/-! ## The kernel and memoria -/

section Sistema

variable {entK : Kernel.Entorno} {entM : Memoria.Entorno} {k k' : Kernel.Estado}
  {s s' : Memoria.Estado}

theorem fin_un_hilo_iff {h : Kernel.Dir} (hr : (Kernel.finalizarHilo entK h).run k = .ok () k')
    (hproc : k.buscarProceso (k.tcbs h).pid ≠ none)
    (hctx : ∃ c ∈ s.listaContextos, c.clave = ((k.tcbs h).pid, (k.tcbs h).tid))
    (hs : Reaches (Memoria.atender entM) s
      (peticiones (k'.enviados.drop k.enviados.length)) s') :
    SinUno s.listaContextos s'.listaContextos (k.tcbs h).pid (k.tcbs h).tid ↔
      (k.tcbs h).tid = (k.tcbs h).pid := by
  rcases Kernel.finalizarHilo_ok hr with ⟨hno, -⟩ | ⟨bs, hf⟩
  · exact absurd hno hproc
  have hpet : peticiones (k'.enviados.drop k.enviados.length) =
      List.replicate 1 (.finalizarHilo ⟨(k.tcbs h).pid, (k.tcbs h).pid⟩) := by
    rw [hf.avisa.1, List.drop_left]
    unfold peticiones
    rw [List.filterMap_cons_some (peticion_finalizarHilo _ _)]
    rfl
  rw [hpet] at hs
  rw [finalizarHilos_contextos hs]
  exact sinUno_eraseP_iff hctx

theorem fin_proceso_iff {d : TDatosEsenciales} {o : List Kernel.Paquete}
    (hp : Kernel.paso entK k (.syscall (.processExit d)) = .ok (k', o)) (htid : d.tidInv = 0)
    (hok : entK.mensajeFinProceso = ['O', 'K'])
    (hs : Reaches (Memoria.atender entM) s (peticiones o) s') :
    (∀ c ∈ s'.listaContextos, c.pid ≠ d.pidInv) ↔
      (∀ c ∈ s.listaContextos, c.pid = d.pidInv → c.tid = d.pidInv) ∧
        s.listaContextos.countP (fun c => c.pid = d.pidInv) ≤ (k.hilosDePid d.pidInv).length := by
  obtain ⟨pid, tam, rfl⟩ := Kernel.processExit_avisa hp htid hok
  have hpet : peticiones ([.finalizarProceso d.pidInv] ++
      List.replicate (k.hilosDePid d.pidInv).length
        (.finalizarHilo (serializarFinalizarHilo d.pidInv 0)) ++ [.asignarMemoria pid tam]) =
      [.finalizarProceso d.pidInv] ++ (List.replicate (k.hilosDePid d.pidInv).length
        (.finalizarHilo ⟨d.pidInv, d.pidInv⟩) ++ [.asignarMemoria ⟨pid, tam⟩]) := by
    unfold peticiones
    rw [List.filterMap_append, List.filterMap_append,
      List.filterMap_replicate_of_some (peticion_finalizarHilo _ _), List.append_assoc]
    rfl
  rw [hpet] at hs
  obtain ⟨s₁, h₁, hs⟩ := reaches_append.mp hs
  obtain ⟨s₂, h₂, h₃⟩ := reaches_append.mp hs
  have hfin : s'.listaContextos =
      (List.eraseP fun c : Memoria.ContextoEjecucion => c.clave = (d.pidInv, d.pidInv))^[
        (k.hilosDePid d.pidInv).length] s.listaContextos := by
    rw [atender_contextos_igual (.inl ⟨_, rfl⟩) h₃, finalizarHilos_contextos h₂,
      atender_contextos_igual (.inr ⟨_, rfl⟩) h₁]
  have hclave : ∀ c : Memoria.ContextoEjecucion,
      decide (c.clave = (d.pidInv, d.pidInv)) = true → decide (c.pid = d.pidInv) = true := by
    intro c hc
    exact decide_eq_true (Prod.mk.inj (of_decide_eq_true hc)).1
  have hley := iterate_eraseP_none_iff hclave (k.hilosDePid d.pidInv).length s.listaContextos
  rw [← hfin] at hley
  simp only [decide_eq_false_iff_not, decide_eq_true_eq] at hley
  refine hley.trans (and_congr_left fun _ => ?_)
  refine forall₂_congr fun c _ => imp_congr_right fun hpid => ?_
  unfold Memoria.ContextoEjecucion.clave
  rw [hpid, Prod.mk.injEq]
  exact and_iff_right rfl

end Sistema

/-- **The end of a thread removes its context and no other** exactly when its tid is its pid, and
`PROCESS_EXIT` removes every context of the process exactly when they all have the pid as their tid
and are no more than its threads. -/
theorem fin_hilo_iff (entK : Kernel.Entorno) (entM : Memoria.Entorno) :
    (∀ (k k' : Kernel.Estado) (h : Kernel.Dir) (s s' : Memoria.Estado),
        (Kernel.finalizarHilo entK h).run k = .ok () k' →
        k.buscarProceso (k.tcbs h).pid ≠ none →
        (∃ c ∈ s.listaContextos, c.clave = ((k.tcbs h).pid, (k.tcbs h).tid)) →
        Reaches (Memoria.atender entM) s
          (peticiones (k'.enviados.drop k.enviados.length)) s' →
        (SinUno s.listaContextos s'.listaContextos (k.tcbs h).pid (k.tcbs h).tid ↔
          (k.tcbs h).tid = (k.tcbs h).pid)) ∧
      ∀ (k k' : Kernel.Estado) (d : TDatosEsenciales) (o : List Kernel.Paquete)
        (s s' : Memoria.Estado),
        Kernel.paso entK k (.syscall (.processExit d)) = .ok (k', o) → d.tidInv = 0 →
        entK.mensajeFinProceso = ['O', 'K'] →
        Reaches (Memoria.atender entM) s (peticiones o) s' →
        ((∀ c ∈ s'.listaContextos, c.pid ≠ d.pidInv) ↔
          (∀ c ∈ s.listaContextos, c.pid = d.pidInv → c.tid = d.pidInv) ∧
            s.listaContextos.countP (fun c => c.pid = d.pidInv) ≤
              (k.hilosDePid d.pidInv).length) :=
  ⟨fun _ _ _ _ _ hr hproc hctx hs => fin_un_hilo_iff hr hproc hctx hs,
    fun _ _ _ _ _ _ hp htid hok hs => fin_proceso_iff hp htid hok hs⟩

/-- Process 1 has the threads 0 and 1, at the addresses 3 and 5. -/
def kernelDosHilos : Kernel.Estado :=
  { Kernel.estadoCero with
    listaProcesos := [0]
    listaTcbs := [3, 5]
    colaExec := [3]
    listaReady := [5]
    tcbs := fun h => ⟨1, if h = 3 then 0 else 1, Kernel.sinHilo, 0, ['a'], .ready⟩
    pcbs := fun _ => ⟨1, some [], [], 1, .new, 32, 0, ['a']⟩
    mutex := 3 }

/-- The contexts of these threads. -/
def memoriaDosHilos : Memoria.Estado :=
  { Memoria.unProceso with
    listaContextos :=
      [⟨1, 0, 0, 9, .cero, 0, ['a'], 0⟩, ⟨1, 1, 0, 9, .cero, 0, ['a'], 0⟩] }

/-- The rules for the thread 0 of process 1, and for the process. -/
theorem fin_hilo_dosHilos :
    (∃ (k' : Kernel.Estado) (s' : Memoria.Estado),
        (Kernel.finalizarHilo Kernel.entornoFifo 3).run kernelDosHilos = .ok () k' ∧
          (SinUno memoriaDosHilos.listaContextos s'.listaContextos 1 0 ↔ (0 : Uint32) = 1)) ∧
      ∃ s' : Memoria.Estado, (∀ c ∈ s'.listaContextos, c.pid ≠ 1) ↔
        (∀ c ∈ memoriaDosHilos.listaContextos, c.pid = 1 → c.tid = 1) ∧
          memoriaDosHilos.listaContextos.countP (fun c => c.pid = 1) ≤
            (kernelDosHilos.hilosDePid 1).length := by
  have hley := fin_hilo_iff Kernel.entornoFifo (Memoria.entornoDinamico 100 (by decide))
  constructor
  · exact ⟨_, _, rfl, hley.1 kernelDosHilos _ 3 memoriaDosHilos _ rfl (by decide) (by decide)
      ⟨_, rfl⟩⟩
  · exact ⟨_, hley.2 kernelDosHilos _ ⟨1, 0⟩ _ memoriaDosHilos _ rfl rfl rfl ⟨_, rfl⟩⟩

/-- The thread 0 of process 1 ends, and the context of its thread 1 goes. -/
theorem contexto_ajeno : ∃ (k' : Kernel.Estado) (s' : Memoria.Estado),
    (Kernel.finalizarHilo Kernel.entornoFifo 3).run kernelDosHilos = .ok () k' ∧
      Reaches (Memoria.atender (Memoria.entornoDinamico 100 (by decide))) memoriaDosHilos
        (peticiones (k'.enviados.drop kernelDosHilos.enviados.length)) s' ∧
      s'.listaContextos.map Memoria.ContextoEjecucion.clave = [(1, 0)] ∧
      ¬ SinUno memoriaDosHilos.listaContextos s'.listaContextos 1 0 := by
  obtain ⟨k', s', hk', hs', hclaves⟩ : ∃ (k' : Kernel.Estado) (s' : Memoria.Estado),
      (Kernel.finalizarHilo Kernel.entornoFifo 3).run kernelDosHilos = .ok () k' ∧
        Reaches (Memoria.atender (Memoria.entornoDinamico 100 (by decide))) memoriaDosHilos
          (peticiones (k'.enviados.drop kernelDosHilos.enviados.length)) s' ∧
        s'.listaContextos.map Memoria.ContextoEjecucion.clave = [(1, 0)] :=
    ⟨_, _, rfl, ⟨_, rfl⟩, by decide⟩
  refine ⟨k', s', hk', hs', hclaves, fun hsin => ?_⟩
  exact absurd ((fin_un_hilo_iff hk' (by decide) (by decide) hs').mp hsin) (by decide)

end LastOfC.Sistema
