import LastOfC.Kernel.Pasos
import LastOfC.Kernel.Ejecuciones
import LastOfC.Kernel.Cerrojo

/-!
# The operations that break the lock

Three operations do not give `mutex` back, each under an exact condition (`cerrojo_iff`).
`crear_hilo` and `THREAD_CREATE` post where they should wait (`postDoble`), unless they stop before
that. `finalizar_proceso` holds the lock when it calls `finalizar_hilo`, which waits for it.
-/

namespace LastOfC.Kernel

open Imp Trace

variable {α : Type} {ent : Entorno} {m : Nat} {c : List Nat}

/-! ## Runs of the operations that do not -/

section Ejecuciones

variable {k k' : Estado} {pid : Uint32} {p : Dir}

theorem balanceada_of_error {x : Op α} {f : Falla} (h : x.run k = .error f k')
    (hk' : SinEspera k.valoresMutex f k') : Balanceada x k := by
  rintro s rfl
  rw [h]
  exact hk'

/-- An operation whose run goes on as one that gives the lock back. -/
theorem balanceada_of_run {x y : Op α} (h : x.run k = y.run k') (hy : Conserva 1 y)
    (hk' : EnValor 1 k.valoresMutex k') : Balanceada x k := by
  rintro s rfl
  rw [h]
  exact hy s.valoresMutex k' hk'

theorem no_balanceada_of_excedido {x : Op α} {a : α} (h : x.run k = .ok a k')
    (hk' : Excedido k.valoresMutex k') : ¬ Balanceada x k := by
  intro hb
  have hk := hb k rfl
  rw [h] at hk
  exact hk'.no_acotado hk.2

theorem no_balanceada_of_espera {x : Op α} (h : x.run k = .error .espera k') :
    ¬ Balanceada x k := by
  intro hb
  have hk := hb k rfl
  rw [h] at hk
  exact hk.1 rfl

theorem trasCerrojo_uno (hk : k.mutex = 1) :
    k.trasCerrojo = k.conCerrojo 1 (k.valoresMutex ++ [0] ++ [1]) := by
  unfold Estado.trasCerrojo
  rw [hk]

theorem trasCerrojo_enValor (hk : EnValor 1 c k) : EnValor 1 c k.trasCerrojo := by
  obtain ⟨hm, vs, hvs, hle⟩ := hk
  rw [trasCerrojo_uno hm]
  refine ⟨rfl, vs ++ [0, 1], ?_, ?_⟩
  · show k.valoresMutex ++ [0] ++ [1] = c ++ (vs ++ [0, 1])
    rw [hvs]
    simp
  · intro v hv
    rcases List.mem_append.mp hv with hv | hv
    · exact hle v hv
    · have : v = 0 ∨ v = 1 := by simpa using hv
      omega

theorem libre_de_uno (hk : k.mutex = 1) : 0 < k.mutex := by omega

theorem semWaitMutex_uno (hk : k.mutex = 1) :
    semWaitMutex.run k = .ok () (k.conCerrojo 0 (k.valoresMutex ++ [0])) := by
  rw [semWaitMutex_run (libre_de_uno hk), hk]

/-! ### `crear_hilo` and `THREAD_CREATE` -/

/-- The end of `crear_hilo` and of `THREAD_CREATE`: both calls are `sem_post`, and the first one
takes the semaphore to 2. -/
def postDoble (h : Dir) : Op Unit := do
  semPostMutex
  modify (·.agregarTcb h)
  semPostMutex
  enviarAMemoria h

theorem postDoble_excede (h : Dir) :
    Triple (EnValor 1 c) (postDoble h) (fun _ => Excedido c) (SinEspera c) := by
  have hpost : Triple (EnValor 1 c) semPostMutex (fun _ => Excedido c) (SinEspera c) := by
    refine Triple.modify fun k hk => ?_
    obtain ⟨hm, vs, hvs, -⟩ := hk
    refine ⟨vs ++ [2], ?_, 2, by simp, by omega⟩
    show k.valoresMutex ++ [k.mutex + 1] = c ++ (vs ++ [2])
    rw [hm, hvs, List.append_assoc]
  have hotra : Triple (Excedido c) semPostMutex (fun _ => Excedido c) (SinEspera c) := by
    refine Triple.modify fun k hk => ?_
    obtain ⟨vs, hvs, v, hv, hlt⟩ := hk
    refine ⟨vs ++ [k.mutex + 1], ?_, v, List.mem_append_left _ hv, hlt⟩
    show k.valoresMutex ++ [k.mutex + 1] = c ++ (vs ++ [k.mutex + 1])
    rw [hvs, List.append_assoc]
  refine hpost.bind fun _ => Triple.bind (Triple.modify (R := fun _ => Excedido c) fun _ h => h)
    fun _ => hotra.bind fun _ => ?_
  intro k hk
  exact hk

theorem copiarTid_neutro (n : Uint32) : Neutro m (copiarTid n) := by
  unfold copiarTid
  refine .bind (.leer _) fun d => .bind (.modify fun _ => ⟨rfl, rfl⟩) fun _ => ?_
  exact .pure d

theorem agregarTid_neutro (p d : Dir) : Neutro m (agregarTid p d) := by
  unfold agregarTid
  refine .bind (.leer _) fun pcb => ?_
  cases pcb.listaTid with
  | none => exact .throw (by simp)
  | some tids => exact .modify fun _ => ⟨rfl, rfl⟩

theorem iniciarHilo_neutro (tid : Uint32) (prioridad : CInt) (pid : Uint32) (path : Cadena) :
    Neutro m (iniciarHilo tid prioridad pid path) := by
  unfold iniciarHilo
  refine .bind (.leer _) fun h => .bind (.modify fun _ => ⟨rfl, rfl⟩) fun _ => ?_
  exact .pure h

theorem popColaNew_neutro : Neutro m popColaNew := by
  unfold popColaNew
  refine .bind .get fun k => ?_
  cases k.colaNew with
  | nil => exact .pure none
  | cons p resto => exact .bind (.modify fun _ => ⟨rfl, rfl⟩) fun _ => .pure (some p)

/-- `crear_hilo` takes the lock in pairs up to the double `sem_post`. -/
theorem crearHilo_triple {P Q : Estado → Prop} {E : Falla → Estado → Prop} (pid : Uint32)
    (hP : ∀ {β : Type} {x : Op β}, Neutro 1 x → Triple P x (fun _ => P) E)
    (hpost : ∀ h, Triple P (postDoble h) (fun _ => Q) E) :
    Triple P (crearHilo pid) (fun _ => Q) E := by
  unfold crearHilo
  refine Triple.bind (hP (conMutex_leer_neutro _)) fun proceso => ?_
  refine Triple.bind (hP (.desref proceso)) fun p => ?_
  refine Triple.bind (hP (.leer _)) fun tidMain => ?_
  refine Triple.bind (hP (copiarTid_neutro tidMain)) fun tidCopia => ?_
  refine Triple.bind (hP (.conMutex (agregarTid_neutro p tidCopia))) fun _ => ?_
  refine Triple.bind (hP popColaNew_neutro) fun pcbFueraNew => ?_
  refine Triple.bind (hP (.desref pcbFueraNew)) fun q => ?_
  refine Triple.bind (hP (.leer _)) fun pcb => ?_
  exact Triple.bind (hP (iniciarHilo_neutro _ _ _ _)) fun h => hpost h

/-- `crear_hilo`, if it returns, has posted once too often. -/
theorem crearHilo_excede (pid : Uint32) :
    Triple (EnValor 1 c) (crearHilo pid) (fun _ => Excedido c) (SinEspera c) :=
  crearHilo_triple pid (fun hx => hx.conserva c) postDoble_excede

/-- `crear_hilo` keeps the law only where it does not return. -/
theorem crearHilo_balanceada_iff (hk : k.mutex = 1) :
    Balanceada (crearHilo pid) k ↔ k.CrearHiloCae pid := by
  have hsale := crearHilo_excede (c := k.valoresMutex) pid k ⟨hk, acotado_refl k⟩
  cases hr : (crearHilo pid).run k with
  | ok u k' =>
    rw [hr] at hsale
    have hno : ¬ k.CrearHiloCae pid := (crearHilo_vuelve_iff.mp ⟨k', hr⟩).2
    exact ⟨fun hb => absurd hb (no_balanceada_of_excedido hr hsale), fun h => absurd h hno⟩
  | error f k' =>
    rw [hr] at hsale
    refine ⟨fun _ => ?_, fun _ => balanceada_of_error hr hsale⟩
    by_contra hno
    obtain ⟨k'', hr'⟩ := crearHilo_vuelve_iff.mpr ⟨libre_de_uno hk, hno⟩
    rw [hr] at hr'
    cases hr'

/-- `THREAD_CREATE` does not post: the process is unknown, or its `lista_tid` was destroyed. -/
def Estado.ThreadCreateCae (k : Estado) (pid : Uint32) : Prop :=
  ∀ p, k.buscarProceso pid = some p → (k.pcbs p).listaTid = none

/-- `THREAD_CREATE` of a known process, after the search. -/
def threadCreateDe (d : TThreadCreate) (p : Dir) : Op Unit := do
  modify fun k => k.modPcb p fun q => { q with tidContador := q.tidContador + 1 }
  let nuevoTid ← leer fun k => (k.pcbs p).tidContador
  modify fun k => k.modPcb p fun q => { q with tidContador := q.tidContador + 1 }
  let tidCopia ← copiarTid nuevoTid
  agregarTid p tidCopia
  let h ← iniciarHilo nuevoTid d.prioridadH d.PID d.nombreArchT
  postDoble h

theorem threadCreate_run {d : TThreadCreate} (hk : 0 < k.mutex)
    (hp : k.buscarProceso d.PID = some p) :
    (threadCreate d).run k = (threadCreateDe d p).run k.trasCerrojo := by
  unfold threadCreate
  rw [bind_run (buscarProceso_run hk), hp]
  rfl

/-- `THREAD_CREATE` of an unknown process. -/
theorem threadCreate_run_none {d : TThreadCreate} (hk : 0 < k.mutex)
    (hp : k.buscarProceso d.PID = none) : (threadCreate d).run k = .ok () k.trasCerrojo := by
  unfold threadCreate
  rw [bind_run (buscarProceso_run hk), hp]
  rfl

theorem threadCreateDe_triple {P Q : Estado → Prop} {E : Falla → Estado → Prop}
    (d : TThreadCreate) (p : Dir)
    (hP : ∀ {β : Type} {x : Op β}, Neutro 1 x → Triple P x (fun _ => P) E)
    (hpost : ∀ h, Triple P (postDoble h) (fun _ => Q) E) :
    Triple P (threadCreateDe d p) (fun _ => Q) E := by
  have hcontador : Neutro 1 (modify fun k : Estado => k.modPcb p fun q =>
      { q with tidContador := q.tidContador + 1 }) := .modify fun _ => ⟨rfl, rfl⟩
  unfold threadCreateDe
  refine Triple.bind (hP hcontador) fun _ => Triple.bind (hP (.leer _)) fun nuevoTid => ?_
  refine Triple.bind (hP hcontador) fun _ => ?_
  refine Triple.bind (hP (copiarTid_neutro nuevoTid)) fun tidCopia => ?_
  refine Triple.bind (hP (agregarTid_neutro p tidCopia)) fun _ => ?_
  exact Triple.bind (hP (iniciarHilo_neutro _ _ _ _)) fun h => hpost h

theorem threadCreateDe_excede (d : TThreadCreate) (p : Dir) :
    Triple (EnValor 1 c) (threadCreateDe d p) (fun _ => Excedido c) (SinEspera c) :=
  threadCreateDe_triple d p (fun hx => hx.conserva c) postDoble_excede

theorem threadCreateDe_vuelve {d : TThreadCreate} {tids : List Puntero}
    (ht : (k.pcbs p).listaTid = some tids) : ∃ k', (threadCreateDe d p).run k = .ok () k' := by
  have hmod : ∀ (s : Estado) (f : Estado → Estado), (modify f : Op Unit).run s = .ok () (f s) :=
    fun _ _ => rfl
  unfold threadCreateDe
  refine exists_bind_run (hmod _ _) (exists_bind_run (leer_run _) ?_)
  refine exists_bind_run (hmod _ _) (exists_bind_run (copiarTid_run _) ?_)
  refine exists_bind_run (@agregarTid_run _ _ _ tids ?_) ⟨_, rfl⟩
  simp [Estado.modPcb, ht]

theorem threadCreate_balanceada_iff {d : TThreadCreate} (hk : k.mutex = 1) :
    Balanceada (threadCreate d) k ↔ k.ThreadCreateCae d.PID := by
  cases hp : k.buscarProceso d.PID with
  | none =>
    have hrun : (threadCreate d).run k = (pure () : Op Unit).run k.trasCerrojo :=
      threadCreate_run_none (libre_de_uno hk) hp
    have hcae : k.ThreadCreateCae d.PID := by
      intro p hp'
      rw [hp] at hp'
      cases hp'
    have htras := trasCerrojo_enValor ⟨hk, acotado_refl k⟩
    exact iff_of_true (balanceada_of_run hrun (Neutro.pure ()).conserva htras) hcae
  | some p =>
    have hrun := threadCreate_run (libre_de_uno hk) hp
    have hsale := threadCreateDe_excede d p k.trasCerrojo (trasCerrojo_enValor ⟨hk, acotado_refl k⟩)
    have hcae : k.ThreadCreateCae d.PID ↔ (k.pcbs p).listaTid = none := by
      unfold Estado.ThreadCreateCae
      rw [hp]
      exact ⟨fun h => h p rfl, fun h q hq => Option.some.inj hq ▸ h⟩
    rw [hcae]
    cases hr : (threadCreateDe d p).run k.trasCerrojo with
    | ok u k' =>
      rw [hr] at hsale hrun
      refine iff_of_false (no_balanceada_of_excedido hrun hsale) fun hno => ?_
      rcases threadCreate_ok hrun with ⟨hno', -⟩ | ⟨q, tids, m, vs, hq, ht, -⟩
      · rw [hp] at hno'
        cases hno'
      · rw [hp] at hq
        obtain rfl := Option.some.inj hq
        rw [hno] at ht
        cases ht
    | error f k' =>
      rw [hr] at hsale hrun
      refine iff_of_true (balanceada_of_error hrun hsale) ?_
      by_contra hno
      obtain ⟨tids, ht⟩ := Option.ne_none_iff_exists'.mp hno
      obtain ⟨k'', hr'⟩ := threadCreateDe_vuelve (k := k.trasCerrojo) (d := d) ht
      rw [hr] at hr'
      cases hr'

/-! ### `finalizar_proceso` -/

/-- `finalizar_proceso` ends no thread: the process is unknown, memoria does not answer `"OK"`, or
no TCB has its pid. -/
def Estado.SinHilos (ent : Entorno) (k : Estado) (d : Option Dir) : Prop :=
  ∀ p, d = some p → ent.mensajeFinProceso = ['O', 'K'] →
    ∀ h ∈ k.listaTcbs, (k.tcbs h).pid ≠ (k.pcbs p).pid

/-- `finalizar_hilo` with the lock taken. -/
theorem finalizarHilo_espera (ent : Entorno) (h : Dir) (hk : k.mutex = 0) :
    (finalizarHilo ent h).run k = .error .espera (k.setEstado h .exit) := by
  have hesp : (conMutex (modify (·.agregarExit h))).run (k.setEstado h .exit) =
      .error .espera (k.setEstado h .exit) := conMutex_espera _ hk
  unfold finalizarHilo
  rw [bind_run (modify_run _), bind_error hesp]

theorem finalizarSiEsDe_suyo (ent : Entorno) {h : Dir} (hpid : (k.tcbs h).pid = (k.pcbs p).pid) :
    (finalizarSiEsDe ent p h).run k = (finalizarHilo ent h).run k := by
  unfold finalizarSiEsDe
  rw [bind_run get_run, if_pos hpid]

theorem finalizarSiEsDe_otro {h : Dir} (hno : (k.tcbs h).pid ≠ (k.pcbs p).pid) :
    (finalizarSiEsDe ent p h).run k = .ok () k := by
  unfold finalizarSiEsDe
  rw [bind_run get_run, if_neg hno]
  rfl

/-- The loop over `lista_tcbs` passes over the threads of other processes. -/
theorem finalizarTodos_ninguno {hs : List Dir}
    (h : ∀ x ∈ hs, (k.tcbs x).pid ≠ (k.pcbs p).pid) :
    (each (finalizarSiEsDe ent p) hs).run k = .ok () k := by
  induction hs with
  | nil => rfl
  | cons x hs ih =>
    unfold each
    rw [bind_run (finalizarSiEsDe_otro (h x List.mem_cons_self))]
    exact ih fun y hy => h y (List.mem_cons_of_mem x hy)

/-- With the lock taken, the loop stops at the first thread of the process. -/
theorem finalizarTodos_espera {hs : List Dir} (hk : k.mutex = 0)
    (h : ¬ ∀ x ∈ hs, (k.tcbs x).pid ≠ (k.pcbs p).pid) :
    ∃ k', (each (finalizarSiEsDe ent p) hs).run k = .error .espera k' := by
  induction hs with
  | nil => exact absurd (fun x hx => absurd hx List.not_mem_nil) h
  | cons x hs ih =>
    unfold each
    by_cases hx : (k.tcbs x).pid = (k.pcbs p).pid
    · exact ⟨_, bind_error ((finalizarSiEsDe_suyo ent hx).trans (finalizarHilo_espera ent x hk))⟩
    · rw [bind_run (finalizarSiEsDe_otro hx)]
      refine ih fun hresto => h fun y hy => ?_
      rcases List.mem_cons.mp hy with rfl | hy
      · exact hx
      · exact hresto y hy

theorem cerrarPcb_neutro (p : Dir) : Neutro m (cerrarPcb p) := by
  unfold cerrarPcb
  refine .bind (.leer _) fun pcb => ?_
  cases pcb.listaTid with
  | none => exact .throw (by simp)
  | some tids => exact .modify fun _ => ⟨rfl, rfl⟩

theorem iniciarProceso_neutro : Neutro m iniciarProceso := by
  unfold iniciarProceso
  refine .bind .get fun k => .bind (.modify fun _ => ⟨rfl, rfl⟩) fun _ => ?_
  exact .bind (.leer _) fun pcb => enviarPaquete_neutro _

/-- `finalizar_proceso` after `FINALIZAR_PROCESO` was answered with `"OK"`. -/
def finalizarHilosDe (ent : Entorno) (p : Dir) : Op Unit := do
  semWaitMutex
  let tcbs ← leer (·.listaTcbs)
  Imp.each (finalizarSiEsDe ent p) tcbs
  semPostMutex
  cerrarPcb p
  iniciarProceso

theorem finalizarProceso_run (p : Dir) :
    (finalizarProceso ent (some p)).run k =
      (if ent.mensajeFinProceso = ['O', 'K'] then finalizarHilosDe ent p else pure ()).run
        (k.avisarFinProceso p) := by
  unfold finalizarProceso
  rw [bind_run (desref_run p), bind_run (leer_run _)]
  rfl

theorem finalizarHilosDe_ninguno (hk : k.mutex = 1)
    (h : ∀ x ∈ k.listaTcbs, (k.tcbs x).pid ≠ (k.pcbs p).pid) :
    (finalizarHilosDe ent p).run k =
      (cerrarPcb p >>= fun _ => iniciarProceso).run k.trasCerrojo := by
  have hloop := @finalizarTodos_ninguno ent (k.conCerrojo 0 (k.valoresMutex ++ [0])) p _ h
  unfold finalizarHilosDe
  rw [trasCerrojo_uno hk, bind_run (semWaitMutex_uno hk), bind_run (leer_run _)]
  exact bind_run hloop

theorem finalizarHilosDe_espera (hk : k.mutex = 1)
    (h : ¬ ∀ x ∈ k.listaTcbs, (k.tcbs x).pid ≠ (k.pcbs p).pid) :
    ∃ k', (finalizarHilosDe ent p).run k = .error .espera k' := by
  obtain ⟨k', hloop⟩ :=
    @finalizarTodos_espera ent (k.conCerrojo 0 (k.valoresMutex ++ [0])) p _ rfl h
  unfold finalizarHilosDe
  rw [bind_run (semWaitMutex_uno hk), bind_run (leer_run _)]
  exact ⟨k', bind_error hloop⟩

theorem finalizarProceso_conserva {d : Option Dir} (hk : EnValor 1 c k) (h : k.SinHilos ent d) :
    Triple (· = k) (finalizarProceso ent d) (fun _ => EnValor 1 c) (SinEspera c) := by
  rintro s rfl
  cases d with
  | none => exact ⟨by simp, hk.2⟩
  | some p =>
    rw [finalizarProceso_run]
    by_cases hok : ent.mensajeFinProceso = ['O', 'K']
    · rw [if_pos hok, finalizarHilosDe_ninguno (k := s.avisarFinProceso p) hk.1 (h p rfl hok)]
      have haviso : EnValor 1 c (s.avisarFinProceso p) := hk
      have htras := trasCerrojo_enValor haviso
      have hcierra : Neutro 1 (cerrarPcb p >>= fun _ => iniciarProceso) :=
        (cerrarPcb_neutro p).bind fun _ => iniciarProceso_neutro
      exact hcierra.conserva c _ htras
    · rw [if_neg hok]
      exact hk

theorem finalizarProceso_espera {d : Option Dir} (hk : k.mutex = 1) (h : ¬ k.SinHilos ent d) :
    ∃ k', (finalizarProceso ent d).run k = .error .espera k' := by
  unfold Estado.SinHilos at h
  push Not at h
  obtain ⟨p, rfl, hok, h⟩ := h
  rw [finalizarProceso_run, if_pos hok]
  refine finalizarHilosDe_espera hk fun hno => ?_
  obtain ⟨x, hx, hpid⟩ := h
  exact hno x hx hpid

theorem finalizarProceso_balanceada_iff {d : Option Dir} (hk : k.mutex = 1) :
    Balanceada (finalizarProceso ent d) k ↔ k.SinHilos ent d := by
  constructor
  · intro hb
    by_contra h
    obtain ⟨k', hr⟩ := finalizarProceso_espera hk h
    exact no_balanceada_of_espera hr hb
  · exact finalizarProceso_conserva ⟨hk, acotado_refl k⟩

/-- `PROCESS_EXIT` ends no thread: another thread than the main one calls it, or
`finalizar_proceso` ends none. -/
def Estado.ProcessExitSinHilos (ent : Entorno) (k : Estado) (d : TDatosEsenciales) : Prop :=
  d.tidInv = 0 → k.SinHilos ent (k.buscarProceso d.pidInv)

theorem processExit_balanceada_iff {d : TDatosEsenciales} (hk : k.mutex = 1) :
    Balanceada (processExit ent d) k ↔ k.ProcessExitSinHilos ent d := by
  unfold Estado.ProcessExitSinHilos
  by_cases htid : d.tidInv = 0
  · have hrun : (processExit ent d).run k =
        (finalizarProceso ent (k.buscarProceso d.pidInv)).run k.trasCerrojo := by
      unfold processExit
      rw [if_pos htid, bind_run (buscarProceso_run (libre_de_uno hk))]
    constructor
    · intro hb _
      by_contra h
      obtain ⟨k', hr⟩ := finalizarProceso_espera (k := k.trasCerrojo) hk h
      exact no_balanceada_of_espera (hrun.trans hr) hb
    · intro h
      rintro s rfl
      rw [hrun]
      exact finalizarProceso_conserva (trasCerrojo_enValor ⟨hk, acotado_refl s⟩) (h htid) _ rfl
  · have hnada : processExit ent d = pure () := by
      unfold processExit
      rw [if_neg htid]
    rw [hnada]
    exact iff_of_true ((Neutro.pure ()).conserva.balanceada hk) fun h => absurd h htid

end Ejecuciones

/-! ## The operations -/

/-- The operations that use `mutex`. -/
inductive Operacion where
  | syscall (y : Syscall)
  | crearHilo (pid : Uint32)
  | confirmacionCrearHilo (pid tid : Uint32)
  | crearProceso (tamanio : CInt) (path : Cadena) (prioridad : CInt)
  | finalizarProceso (pcb : Option Dir)
  | finalizarHilo (h : Dir)
  | desbloquearHilosPorTid (h : Dir)
  | buscarHiloMenorNroPrioridad

def Operacion.programa (ent : Entorno) : Operacion → Op Unit
  | .syscall y => kernelEscuchaCpuDispatch ent y
  | .crearHilo pid => Kernel.crearHilo pid
  | .confirmacionCrearHilo pid tid => Kernel.confirmacionCrearHilo pid tid
  | .crearProceso tamanio path prioridad => Kernel.crearProceso tamanio path prioridad
  | .finalizarProceso pcb => Kernel.finalizarProceso ent pcb
  | .finalizarHilo h => Kernel.finalizarHilo ent h
  | .desbloquearHilosPorTid h => Kernel.desbloquearHilosPorTid h
  | .buscarHiloMenorNroPrioridad => do
    let _ ← Kernel.buscarHiloMenorNroPrioridad
    pure ()

/-- The operation does not get to a `sem_post` that should be a `sem_wait`, nor to a
`finalizar_hilo` with the lock taken. -/
def Operacion.Guarda (ent : Entorno) (k : Estado) : Operacion → Prop
  | .syscall (.threadCreate d) => k.ThreadCreateCae d.PID
  | .syscall (.processExit d) => k.ProcessExitSinHilos ent d
  | .crearHilo pid => k.CrearHiloCae pid
  | .finalizarProceso pcb => k.SinHilos ent pcb
  | _ => True

theorem syscall_balanceada_iff {k : Estado} (hk : k.mutex = 1) (y : Syscall) :
    Balanceada (kernelEscuchaCpuDispatch ent y) k ↔ Operacion.Guarda ent k (.syscall y) := by
  cases y with
  | processExit d => exact processExit_balanceada_iff hk
  | threadCreate d => exact threadCreate_balanceada_iff hk
  | _ => exact iff_of_true ((syscall_neutro (by simp) (by simp)).conserva.balanceada hk) trivial

theorem balanceada_iff {k : Estado} (hk : k.mutex = 1) (x : Operacion) :
    Balanceada (x.programa ent) k ↔ x.Guarda ent k := by
  cases x with
  | syscall y => exact syscall_balanceada_iff hk y
  | crearHilo pid => exact crearHilo_balanceada_iff hk
  | confirmacionCrearHilo pid tid =>
    exact iff_of_true ((confirmacionCrearHilo_neutro pid tid).conserva.balanceada hk) trivial
  | crearProceso tam path prioridad =>
    exact iff_of_true ((crearProceso_neutro tam path prioridad).conserva.balanceada hk) trivial
  | finalizarProceso pcb => exact finalizarProceso_balanceada_iff hk
  | finalizarHilo h => exact iff_of_true ((finalizarHilo_neutro h).conserva.balanceada hk) trivial
  | desbloquearHilosPorTid h =>
    exact iff_of_true ((desbloquearHilosPorTid_neutro h).conserva.balanceada hk) trivial
  | buscarHiloMenorNroPrioridad =>
    have hx : Neutro 1 (Operacion.programa ent .buscarHiloMenorNroPrioridad) :=
      .bind buscarHiloMenorNroPrioridad_neutro fun _ => .pure ()
    exact iff_of_true (hx.conserva.balanceada hk) trivial

/-! ## Runs -/

/-- The step, if it ends, kept the semaphore at 0 or 1, and left it at 1. -/
def Tranquilo (ent : Entorno) (k : Estado) (p : Paso) : Prop :=
  ∀ k' o, paso ent k p = .ok (k', o) → EnValor 1 k.valoresMutex k'

/-- The step calls no operation that breaks the law. -/
def Paso.Guarda (ent : Entorno) (k : Estado) : Paso → Prop
  | .syscall y => Operacion.Guarda ent k (.syscall y)
  | .memoria (.confirmarEspacioProceso d) => d.bitConfirmacion = 1 → k.CrearHiloCae d.pid
  | _ => True

section Corridas

variable {k k' : Estado}

/-- A run that returned keeps the law exactly as it leaves the semaphore. -/
theorem balanceada_ok {x : Op α} {a : α} (h : x.run k = .ok a k') :
    Balanceada x k ↔ EnValor 1 k.valoresMutex k' := by
  constructor
  · intro hb
    have hk := hb k rfl
    rw [h] at hk
    exact hk
  · intro hk
    rintro s rfl
    rw [h]
    exact hk

/-- An iteration of `planificador_corto_plazo` after its wait for `TCBaPlanificar`. -/
def elegirYEjecutar (ent : Entorno) : Op Unit :=
  match ent.algoritmoPlanificacion with
  | .fifo => sacarReady >>= fun hiloExec => desref hiloExec >>= ejecutar
  | .prioridades => buscarHiloMenorNroPrioridad >>= fun hilo => desref hilo >>= ejecutar
  | .otro => pure ()

theorem elegirYEjecutar_neutro (ent : Entorno) : Neutro 1 (elegirYEjecutar ent) := by
  have hejecutar : ∀ d, Neutro 1 (ejecutar d) := by
    intro d
    unfold ejecutar
    refine .bind (.modify fun _ => ⟨rfl, rfl⟩) fun _ => ?_
    refine .bind (.modify fun _ => ⟨rfl, rfl⟩) fun _ => ?_
    exact .bind (.leer _) fun t => enviarPaquete_neutro _
  have hsacar : Neutro 1 sacarReady := by
    unfold sacarReady
    refine .bind .get fun s => ?_
    cases s.listaReady with
    | nil => exact .pure none
    | cons d resto => exact .bind (.modify fun _ => ⟨rfl, rfl⟩) fun _ => .pure (some d)
  unfold elegirYEjecutar
  cases ent.algoritmoPlanificacion with
  | fifo => exact .bind hsacar fun o => .bind (.desref o) hejecutar
  | prioridades =>
    exact .bind buscarHiloMenorNroPrioridad_neutro fun o => .bind (.desref o) hejecutar
  | otro => exact .pure ()

theorem confirmarCreacionHilo_neutro (d : TCreacionHilo) : Neutro 1 (confirmarCreacionHilo d) := by
  unfold confirmarCreacionHilo
  refine .ite (fun _ => ?_) fun _ => .pure ()
  exact .bind (confirmacionCrearHilo_neutro _ _) fun _ => .modify fun _ => ⟨rfl, rfl⟩

theorem cortoPlazo_enValor (hk : k.mutex = 1)
    (h : (planificadorCortoPlazo ent).run k = .ok () k') : EnValor 1 k.valoresMutex k' := by
  unfold planificadorCortoPlazo at h
  obtain ⟨k₁, k₂, hg, h⟩ := bind_ok.mp h
  obtain ⟨rfl, rfl⟩ := get_ok.mp hg
  rcases ite_ok.mp h with ⟨-, h⟩ | ⟨-, h⟩
  · exact absurd h throw_ok
  obtain ⟨_, k₃, hm, h⟩ := bind_ok.mp h
  obtain rfl := modify_ok.mp hm
  have hsale := (elegirYEjecutar_neutro ent).conserva k.valoresMutex
    { k with tcbAPlanificar := k.tcbAPlanificar - 1 } ⟨hk, acotado_refl k⟩
  have hrun : (elegirYEjecutar ent).run { k with tcbAPlanificar := k.tcbAPlanificar - 1 } =
      .ok () k' := h
  rw [hrun] at hsale
  exact hsale

theorem paso_enValor {p : Paso} {o : List Paquete} (hk : k.mutex = 1)
    (h : paso ent k p = .ok (k', o)) : EnValor 1 k.valoresMutex k' ↔ p.Guarda ent k := by
  have hr := paso_ok h
  match p with
  | .syscall y => exact (balanceada_ok hr).symm.trans (balanceada_iff hk (.syscall y))
  | .memoria (.confirmarEspacioProceso d) =>
    rcases confirmarEspacioProceso_ok hr with ⟨hbit, rfl⟩ | ⟨k₁, hbit, hc, rfl⟩
    · exact iff_of_true ⟨hk, acotado_refl k⟩ fun hno => absurd hno hbit
    · have hley := (balanceada_ok hc).symm.trans (crearHilo_balanceada_iff hk)
      exact hley.trans ⟨fun hcae _ => hcae, fun hcae => hcae hbit⟩
  | .memoria (.confirmarCreacionHilo d) =>
    have hx := (confirmarCreacionHilo_neutro d).conserva.balanceada hk
    exact iff_of_true ((balanceada_ok hr).mp hx) trivial
  | .memoria .confirmarDumpMemory =>
    obtain ⟨-, rfl⟩ := pure_ok.mp hr
    exact iff_of_true ⟨hk, acotado_refl k⟩ trivial
  | .cortoPlazo => exact iff_of_true (cortoPlazo_enValor hk hr) trivial
  | .largoPlazo =>
    obtain ⟨-, rfl⟩ := planificadorDeLargoPlazo_ok hr
    exact iff_of_true ⟨hk, acotado_refl k⟩ trivial

/-- Along a run the semaphore is at 1 between the steps, if each step leaves it there. -/
theorem mutex_corrida {k₀ : Estado} {ps : List Paso} (h0 : k₀.mutex = 1)
    (h : EveryStep (paso ent) k₀ ps fun _ k p => Tranquilo ent k p) :
    EveryState (paso ent) k₀ ps fun _ k => k.mutex = 1 := by
  intro pre k hpre hk
  refine hk.invariant (I := fun _ s => s.mutex = 1) (h.restrict hpre) h0 ?_
  intro _ s p s' o _ _ _ htranq hp
  exact (htranq s' o hp).1

theorem mutex_corrida_guarda {k₀ : Estado} {ps : List Paso} (h0 : k₀.mutex = 1)
    (h : EveryStep (paso ent) k₀ ps fun _ k p => p.Guarda ent k) :
    EveryState (paso ent) k₀ ps fun _ k => k.mutex = 1 := by
  intro pre k hpre hk
  refine hk.invariant (I := fun _ s => s.mutex = 1) (h.restrict hpre) h0 ?_
  intro _ s p s' o _ _ hs hguarda hp
  exact ((paso_enValor hs hp).mpr hguarda).1

end Corridas

/-- **The lock is balanced** for an operation that is run alone exactly when the operation gets
neither to the double `sem_post` nor to `finalizar_hilo` with the lock taken, and along a run of
the kernel exactly when this holds of every step. -/
theorem cerrojo_iff (ent : Entorno) :
    (∀ (k : Estado) (x : Operacion), k.mutex = 1 →
        (Balanceada (x.programa ent) k ↔ x.Guarda ent k)) ∧
      ∀ (tcbs : Dir → TCB) (pcbs : Dir → PCB) (uint32s : Dir → Uint32) (ps : List Paso),
        EveryStep (paso ent) (estadoInicial tcbs pcbs uint32s) ps
            (fun _ k p => Tranquilo ent k p) ↔
          EveryStep (paso ent) (estadoInicial tcbs pcbs uint32s) ps
            fun _ k p => p.Guarda ent k := by
  refine ⟨fun k x hk => balanceada_iff hk x, fun tcbs pcbs uint32s ps => ?_⟩
  constructor
  · intro h pre k p r hpre hk hp
    have huno := mutex_corrida rfl h pre k ((List.prefix_append pre [p]).trans hpre) hk
    exact (paso_enValor huno hp).mp (h pre k p r hpre hk hp r.1 r.2 hp)
  · intro h pre k p r hpre hk hp k' o hp'
    have huno := mutex_corrida_guarda rfl h pre k ((List.prefix_append pre [p]).trans hpre) hk
    exact (paso_enValor huno hp').mpr (h pre k p r hpre hk hp)

/-- The first operation of the kernel keeps the law. -/
theorem cerrojo_crearProceso :
    Balanceada (Operacion.programa entornoFifo (.crearProceso 32 ['a'] 0)) estadoCero :=
  ((cerrojo_iff entornoFifo).1 estadoCero (.crearProceso 32 ['a'] 0) rfl).mpr trivial

/-- The start of the main thread of the first process takes the semaphore to 3. -/
theorem crearHilo_desbalanceada : ∃ k, Reaches (paso entornoFifo) estadoCero (arranque.take 2) k ∧
    k.mutex = 1 ∧ ¬ Balanceada (Operacion.programa entornoFifo (.crearHilo 1)) k := by
  have hrun : (run (paso entornoFifo) estadoCero (arranque.take 2)).toOption.map (fun r =>
      ((r.1.mutex, r.1.colaNew), (r.1.buscarProceso 1, (r.1.pcbs 0).listaTid))) =
      some ((1, [0]), (some 0, some [])) := by
    decide +kernel
  obtain ⟨k, hk, hg⟩ := reaches_of_map (g := fun k : Estado =>
    ((k.mutex, k.colaNew), (k.buscarProceso 1, (k.pcbs 0).listaTid))) hrun
  simp only [Prod.mk.injEq] at hg
  obtain ⟨⟨hmutex, hcola⟩, hp, ht⟩ := hg
  refine ⟨k, hk, hmutex, fun hb => ?_⟩
  rcases (crearHilo_balanceada_iff hmutex).mp hb with hcae | hcae
  · rw [hcae 0 hp] at ht
    cases ht
  · rw [hcola] at hcae
    cases hcae

end LastOfC.Kernel
