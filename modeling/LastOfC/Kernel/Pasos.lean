import LastOfC.Kernel.EfectosDespacho
import LastOfC.Kernel.Planificacion

/-!
# The programs of the kernel make the movements of the scheduler

`Estado.plani` is the scheduling part of a state, and `Estado.movimiento` says from the state
before a step which movement the step is. `paso_mueve` is the refinement: a step that ends makes
that movement and no other.

`Termina` is what the end of threads does, whether one (`finalizarHilo_termina`) or all those of a
process (`finalizarTodos_termina`).
-/

namespace LastOfC.Kernel

open Imp KeyedList Planificacion

variable {ent : Entorno} {k k' : Estado}

/-- The scheduling part of a state. -/
def Estado.plani (k : Estado) : Planificacion where
  estado h := (k.tcbs h).estadoHilo
  hilos := k.listaTcbs
  liberados := k.liberados
  ready := k.listaReady
  blocked := k.listaBlocked
  exit := k.listaExit
  exec := k.colaExec
  semaforo := k.tcbAPlanificar
  proximo := k.proximo

/-! ## Which movement a step is -/

/-- A blocked thread waits for `h`, and `finalizar_hilo` goes on to the wake-ups. -/
def Estado.hayEspera (k : Estado) (h : Dir) : Bool :=
  (k.buscarProceso (k.tcbs h).pid).isSome && k.listaBlocked.any fun b => k.espera h b

/-- A blocked thread waits for one of the threads `hs` of the process `pid`, which end one after
the other. What a thread waits for is read from its TCB, freed or not. -/
def Estado.hayEsperaDe (ent : Entorno) (pid : Uint32) : List Dir → Estado → Bool
  | [], _ => false
  | h :: hs, k =>
    if (k.tcbs h).pid = pid then
      (k.listaBlocked.any fun b => k.espera h b) ||
        Estado.hayEsperaDe ent pid hs
          (k.modTcb h fun t => ent.residuo { t with estadoHilo := .exit })
    else Estado.hayEsperaDe ent pid hs k

/-- `finalizar_hilo` of a thread that was found. -/
def Estado.movFinHilo (k : Estado) : Option Dir → Movimiento
  | none => .nada
  | some h => .termina [h] (k.hayEspera h)

/-- The movement of a thread that was found. -/
def movDe (f : Dir → Movimiento) : Option Dir → Movimiento
  | none => .nada
  | some h => f h

/-- The mutex that a `MUTEX_LOCK` or `MUTEX_UNLOCK` is about. -/
def Estado.mutexDe (k : Estado) (d : TMutexTodos) : Option TMutex :=
  (k.buscarProceso d.PID).bind fun p => (buscarMutex (k.pcbs p).mutex d.recurso).map Prod.snd

/-- The movement of a syscall. -/
def Estado.movSyscall (ent : Entorno) (k : Estado) : Syscall → Movimiento
  | .processCreate _ => .nada
  | .processExit d =>
    if d.tidInv = 0 ∧ ent.mensajeFinProceso = ['O', 'K'] then
      .termina (k.listaTcbs.filter fun h => (k.tcbs h).pid = d.pidInv)
        (Estado.hayEsperaDe ent d.pidInv k.listaTcbs k)
    else .nada
  | .threadCreate d => if k.buscarProceso d.PID = none then .nada else .nace
  | .threadJoin d =>
    if k.terminado (k.buscarTcbs d.tid d.PID) then movDe .encola (k.buscarTcbs d.TID d.PID)
    else movDe .bloquea (k.buscarTcbs d.TID d.PID)
  | .threadCancel d =>
    if k.terminado (k.buscarTcbs d.TID d.PID) then .nada
    else k.movFinHilo (k.buscarTcbs d.TID d.PID)
  | .threadExit d => k.movFinHilo (k.buscarTcbs d.tidInv d.pidInv)
  | .mutexCreate _ => .nada
  | .mutexLock d =>
    match k.mutexDe d with
    | none => .nada
    | some l => if l.tid = sinHilo then .nada else movDe .bloquea (k.buscarTcbs d.TID d.PID)
  | .mutexUnlock d =>
    match k.mutexDe d with
    | none => .nada
    | some l =>
      if l.tid = d.TID then movDe .encola (l.bloqueadosMutex.head?.bind (k.buscarTcbs · d.PID))
      else .nada
  | .dumpMemory d => movDe .bloquea (k.buscarTcbs d.tidInv d.pidInv)
  | .io d => movDe .duerme (k.buscarTcbs d.TID d.PID)

/-- The movement of a step, from the state before it. -/
def Estado.movimiento (ent : Entorno) (k : Estado) : Paso → Movimiento
  | .syscall s => k.movSyscall ent s
  | .memoria (.confirmarEspacioProceso d) => if d.bitConfirmacion = 1 then .nace else .nada
  | .memoria (.confirmarCreacionHilo d) =>
    if d.bitConfirmacion = 1 then .admite (k.buscarTcbs d.tid d.pid) else .nada
  | .memoria .confirmarDumpMemory => .nada
  | .cortoPlazo => if ent.algoritmoPlanificacion = .otro then .gira else .despacha
  | .largoPlazo => .nada

/-! ## The parts of a step -/

theorem setEstado_estadoHilo (k : Estado) (h : Dir) (e : EstadoProcesoHilo) :
    (fun d => ((k.setEstado h e).tcbs d).estadoHilo) =
      Function.update (fun d => (k.tcbs d).estadoHilo) h e := by
  funext d
  unfold Estado.setEstado Estado.modTcb
  by_cases hd : d = h
  · subst hd
    simp
  · simp [hd]

/-- A write to `tid_que_lo_bloqueo` is no movement. -/
theorem setTidQueLoBloqueo_plani (k : Estado) (h : Dir) (tid : Uint32) :
    (k.setTidQueLoBloqueo h tid).plani = k.plani := by
  have hest : (fun d => ((k.setTidQueLoBloqueo h tid).tcbs d).estadoHilo) =
      fun d => (k.tcbs d).estadoHilo := by
    funext d
    unfold Estado.setTidQueLoBloqueo Estado.modTcb
    by_cases hd : d = h
    · subst hd
      simp
    · simp [hd]
  unfold Estado.plani
  rw [hest]
  rfl

theorem mueve_nada (k : Estado) {n : Dir} (hn : k.proximo ≤ n)
    (h : k'.plani = { k.plani with proximo := n }) : k.plani.Mueve .nada k'.plani := by
  rw [h]
  exact .nada hn

theorem mueve_igual (h : k'.plani = k.plani) : k.plani.Mueve .nada k'.plani :=
  mueve_nada k (Nat.le_refl _) h

/-- A new TCB, READY and in `lista_tcbs`. -/
theorem nuevoHilo_mueve (k : Estado) {pid tid : Uint32} {prioridad : CInt} {path : Cadena}
    (h : k'.plani = { (k.nuevoHilo (k.proximo + 1) pid tid prioridad path).plani with
      proximo := k.proximo + 2 }) : k.plani.Mueve .nace k'.plani := by
  have hest : k'.plani = { k.plani.conEstado (k.proximo + 1) .ready with
      hilos := k.listaTcbs ++ [k.proximo + 1]
      proximo := k.proximo + 2 } := by
    rw [h]
    simp only [Estado.plani, Estado.nuevoHilo, Planificacion.conEstado, Planificacion.mk.injEq,
      and_self, and_true]
    funext d
    by_cases hd : d = k.proximo + 1
    · subst hd
      simp
    · simp [hd]
  rw [hest]
  exact .nace (Nat.le_succ _) (Nat.lt_succ_self _)

theorem encolar_mueve {k₁ : Estado} {h : Dir} (hk : k₁.plani = k.plani)
    (hk' : k'.plani = (k₁.encolar h).plani) : k.plani.Mueve (.encola h) k'.plani := by
  have heq : (k₁.encolar h).plani =
      { k₁.plani.conEstado h .ready with ready := k₁.listaReady ++ [h] } := by
    simp only [Estado.plani, Estado.encolar, Estado.agregarReady, Planificacion.conEstado,
      setEstado_estadoHilo]
    rfl
  rw [hk', heq, ← hk]
  exact .encola h

theorem bloquear_mueve {k₁ : Estado} {h : Dir} (hk : k₁.plani = k.plani)
    (hk' : k'.plani = (k₁.bloquear h).plani) : k.plani.Mueve (.bloquea h) k'.plani := by
  have heq : (k₁.bloquear h).plani =
      { k₁.plani.conEstado h .blocked with blocked := k₁.listaBlocked ++ [h] } := by
    simp only [Estado.plani, Estado.bloquear, Estado.agregarBlocked, Planificacion.conEstado,
      setEstado_estadoHilo]
    rfl
  rw [hk', heq, ← hk]
  exact .bloquea h

/-- A whole `IO`: the thread is READY, and stands in `lista_blocked` no more often than before. -/
theorem dormir_mueve {h : Dir}
    (hk : k'.plani = { (k.encolar h).plani with blocked := (k.listaBlocked ++ [h]).erase h }) :
    k.plani.Mueve (.duerme h) k'.plani := by
  have heq : k'.plani = { k.plani.conEstado h .ready with
      ready := k.listaReady ++ [h]
      blocked := (k.listaBlocked ++ [h]).erase h } := by
    rw [hk]
    simp only [Estado.plani, Estado.encolar, Estado.agregarReady, Planificacion.conEstado,
      setEstado_estadoHilo]
    rfl
  rw [heq]
  exact .duerme h

/-! ## The end of threads -/

/-- The threads `hs` ended, and `bs` woke. -/
structure Termina (k : Estado) (hs bs : List Dir) (k' : Estado) : Prop where
  ready : k'.listaReady = k.listaReady ++ bs
  blocked : (bs ++ k'.listaBlocked).Perm k.listaBlocked
  exit : k'.listaExit = k.listaExit ++ hs
  exec : k'.colaExec = k.colaExec
  hilos : k'.listaTcbs = k.listaTcbs
  semaforo : k'.tcbAPlanificar = k.tcbAPlanificar
  proximo : k'.proximo = k.proximo
  liberados : k.liberados ⊆ k'.liberados
  sigueExec : ∀ d, d ∉ k'.liberados → (k'.tcbs d).estadoHilo = .exec → (k.tcbs d).estadoHilo = .exec
  estado : ∀ d, d ∉ hs → d ∉ bs → (k'.tcbs d).estadoHilo = (k.tcbs d).estadoHilo
  pid : ∀ d, d ∉ hs → (k'.tcbs d).pid = (k.tcbs d).pid
  procesos : k'.listaProcesos = k.listaProcesos
  pidProceso : ∀ p, (k'.pcbs p).pid = (k.pcbs p).pid

namespace Termina

variable {k₁ : Estado} {hs hs' bs bs' : List Dir}

theorem refl (k : Estado) : Termina k [] [] k where
  ready := (List.append_nil _).symm
  blocked := List.Perm.refl _
  exit := (List.append_nil _).symm
  exec := rfl
  hilos := rfl
  semaforo := rfl
  proximo := rfl
  liberados := List.Subset.refl _
  sigueExec _ _ h := h
  estado _ _ _ := rfl
  pid _ _ := rfl
  procesos := rfl
  pidProceso _ := rfl

theorem trans (h : Termina k hs bs k₁) (h' : Termina k₁ hs' bs' k') :
    Termina k (hs ++ hs') (bs ++ bs') k' where
  ready := by rw [h'.ready, h.ready, List.append_assoc]
  blocked := by
    rw [List.append_assoc]
    exact (h'.blocked.append_left bs).trans h.blocked
  exit := by rw [h'.exit, h.exit, List.append_assoc]
  exec := h'.exec.trans h.exec
  hilos := h'.hilos.trans h.hilos
  semaforo := h'.semaforo.trans h.semaforo
  proximo := h'.proximo.trans h.proximo
  liberados := List.Subset.trans h.liberados h'.liberados
  sigueExec d hd he := h.sigueExec d (fun hl => hd (h'.liberados hl)) (h'.sigueExec d hd he)
  estado d hd hb := by
    rw [List.mem_append, not_or] at hd hb
    rw [h'.estado d hd.2 hb.2, h.estado d hd.1 hb.1]
  pid d hd := by
    rw [List.mem_append, not_or] at hd
    rw [h'.pid d hd.2, h.pid d hd.1]
  procesos := h'.procesos.trans h.procesos
  pidProceso p := (h'.pidProceso p).trans (h.pidProceso p)

/-- The searches for a process see no difference. -/
theorem buscarProceso (h : Termina k hs bs k') (pid : Uint32) :
    k'.buscarProceso pid = k.buscarProceso pid := by
  unfold Estado.buscarProceso
  rw [h.procesos]
  simp only [h.pidProceso]

/-- The end of the threads `hs` is the movement `termina`, also where `malloc` is called after
it. -/
theorem mueve {n : Nat} (h : Termina k hs' bs k₁) (hhs : ∀ d, d ∈ hs' ↔ d ∈ hs)
    {hayEspera : Bool} (hespera : bs ≠ [] ↔ hayEspera = true) (hvacio : hs' = [] → bs = [])
    (hn : k.proximo ≤ n) (hk : k'.plani = { k₁.plani with proximo := n }) :
    k.plani.Mueve (.termina hs hayEspera) k'.plani := by
  have heq : k'.plani = { k.plani with
      estado := k₁.plani.estado
      ready := k.listaReady ++ bs
      blocked := k₁.listaBlocked
      exit := k.listaExit ++ hs'
      liberados := k₁.liberados
      proximo := n } := by
    rw [hk]
    simp only [Estado.plani, h.ready, h.exit, h.exec, h.hilos, h.semaforo]
  rw [heq]
  exact .termina hhs h.blocked hespera hvacio h.estado h.sigueExec h.liberados hn

end Termina

/-- A wake-up makes a thread READY. -/
theorem despertar_estado (i : Nat) (b : Dir) :
    (fun d => ((k.despertar i b).tcbs d).estadoHilo) =
      Function.update (fun d => (k.tcbs d).estadoHilo) b .ready := by
  funext d
  unfold Estado.despertar Estado.modTcb
  by_cases hd : d = b
  · subst hd
    simp
  · simp [hd]

/-- A wake-up gives a thread no other state than READY. -/
theorem Despierta.estado_de {h : Dir} {bs : List Dir} {e : EstadoProcesoHilo}
    (hd : Despierta h k bs k') (hne : e ≠ .ready) (d : Dir) (he : (k'.tcbs d).estadoHilo = e) :
    (k.tcbs d).estadoHilo = e := by
  induction hd with
  | nadie => exact he
  | @uno k k' i b bs hi hb hs ih =>
    have hpaso := ih he
    rw [congrFun (despertar_estado i b) d] at hpaso
    by_cases hdb : d = b
    · subst hdb
      rw [Function.update_self] at hpaso
      exact absurd hpaso.symm hne
    · simpa [hdb] using hpaso

/-- A thread that does not wake keeps its state. -/
theorem Despierta.estado {h : Dir} {bs : List Dir} (hd : Despierta h k bs k') {d : Dir}
    (hb : d ∉ bs) : (k'.tcbs d).estadoHilo = (k.tcbs d).estadoHilo := by
  induction hd with
  | nadie => rfl
  | @uno k k' i b bs hi hesp hs ih =>
    rw [List.mem_cons, not_or] at hb
    rw [ih hb.2, congrFun (despertar_estado i b) d, Function.update_of_ne hb.1]

/-- The thread that ends changes only its state before the wake-ups. -/
theorem terminarHilo_espera {h p b : Dir} {ms : List TMutex} {tids : List Puntero} :
    (k.terminarHilo h p ms tids).espera h b ↔ k.espera h b := by
  have htcb : ∀ d, (((k.terminarHilo h p ms tids).tcbs d).pid = (k.tcbs d).pid ∧
      ((k.terminarHilo h p ms tids).tcbs d).tid = (k.tcbs d).tid) ∧
      ((k.terminarHilo h p ms tids).tcbs d).tidQueLoBloqueo = (k.tcbs d).tidQueLoBloqueo := by
    intro d
    unfold Estado.terminarHilo Estado.modPcb Estado.agregarExit Estado.setEstado Estado.modTcb
    by_cases hd : d = h
    · subst hd
      simp
    · simp [hd]
  unfold Estado.espera
  rw [(htcb b).1.1, (htcb h).1.1, (htcb h).1.2, (htcb b).2]

/-- If nobody wakes, the end of `h` changes no TCB but its own. -/
theorem Finaliza.tcbs_of_nil {h : Dir} (hf : Finaliza ent k h [] k') :
    k'.tcbs = (k.modTcb h fun t => ent.residuo { t with estadoHilo := .exit }).tcbs ∧
      k'.listaBlocked = k.listaBlocked := by
  obtain ⟨p, ms, tids, k₁, m, vs, -, -, hdes, -, -, rfl⟩ := hf
  cases hdes
  refine ⟨?_, rfl⟩
  simp [Estado.modTcb, Estado.terminarHilo, Estado.setEstado, Estado.agregarExit, Estado.modPcb]

theorem Finaliza.termina {h : Dir} {bs : List Dir} (hf : Finaliza ent k h bs k') :
    Termina k [h] bs k' := by
  obtain ⟨p, ms, tids, k₁, m, vs, -, -, hdes, -, -, rfl⟩ := hf
  have hmarco := hdes.marco
  refine
    { ready := ?_, blocked := hdes.perm, exit := ?_, exec := ?_, hilos := ?_, semaforo := ?_
      proximo := ?_, liberados := List.subset_cons_self _ _, sigueExec := ?_, estado := ?_
      pid := ?_, procesos := ?_, pidProceso := ?_ }
  · rw [hmarco]
    rfl
  · rw [hmarco]
    rfl
  · rw [hmarco]
    rfl
  · rw [hmarco]
    rfl
  · rw [hmarco]
    rfl
  · rw [hmarco]
    rfl
  · intro d hd he
    have hne : d ≠ h := fun hdh => hd (hdh ▸ List.mem_cons_self)
    have hexec : (k₁.tcbs d).estadoHilo = .exec := by
      simpa [Estado.modTcb, hne] using he
    have hantes := hdes.estado_de (by decide) d hexec
    simpa [Estado.terminarHilo, Estado.modPcb, Estado.agregarExit, Estado.setEstado,
      Estado.modTcb, hne] using hantes
  · intro d hd hb
    have hne : d ≠ h := fun hdh => hd (hdh ▸ List.mem_singleton_self _)
    have hestado := hdes.estado hb
    simpa [Estado.terminarHilo, Estado.modPcb, Estado.agregarExit, Estado.setEstado,
      Estado.modTcb, hne] using hestado
  · intro d hd
    have hne : d ≠ h := fun hdh => hd (hdh ▸ List.mem_singleton_self _)
    have hpid : (k₁.tcbs d).pid = ((k.terminarHilo h p ms tids).tcbs d).pid := (hdes.pid d).1
    simpa [Estado.terminarHilo, Estado.modPcb, Estado.agregarExit, Estado.setEstado,
      Estado.modTcb, hne] using hpid
  · rw [hmarco]
    rfl
  · intro q
    rw [hmarco]
    unfold Estado.terminarHilo Estado.modPcb Estado.agregarExit Estado.setEstado
    by_cases hq : q = p
    · subst hq
      simp [Estado.modTcb]
    · simp [Estado.modTcb, hq]

/-- Somebody wakes if and only if somebody waits. -/
theorem Finaliza.despierta {h : Dir} {bs : List Dir} (hf : Finaliza ent k h bs k') :
    bs ≠ [] ↔ (k.listaBlocked.any fun b => k.espera h b) = true := by
  obtain ⟨p, ms, tids, k₁, m, vs, -, -, hdes, hnadie, -, -⟩ := hf
  rw [List.any_eq_true]
  constructor
  · intro hne
    obtain ⟨b, hb, hesp⟩ := hdes.espera hne
    exact ⟨b, hb, decide_eq_true (terminarHilo_espera.mp hesp)⟩
  · rintro ⟨b, hb, hesp⟩ rfl
    cases hdes
    exact hnadie b hb (terminarHilo_espera.mpr (of_decide_eq_true hesp))

/-- The end of a thread whose process is not in `lista_procesos`. -/
theorem finSinProceso_termina (k : Estado) (h : Dir) :
    Termina k [h] [] ((k.setEstado h .exit).agregarExit h) where
  ready := (List.append_nil _).symm
  blocked := List.Perm.refl _
  exit := rfl
  exec := rfl
  hilos := rfl
  semaforo := rfl
  proximo := rfl
  liberados := List.Subset.refl _
  sigueExec d _ he := by
    unfold Estado.agregarExit Estado.setEstado Estado.modTcb at he
    by_cases hd : d = h
    · subst hd
      simp at he
    · simpa [hd] using he
  estado d hd _ := by
    have hne : d ≠ h := fun hdh => hd (hdh ▸ List.mem_singleton_self _)
    simp [Estado.agregarExit, Estado.setEstado, Estado.modTcb, hne]
  pid d hd := by
    have hne : d ≠ h := fun hdh => hd (hdh ▸ List.mem_singleton_self _)
    simp [Estado.agregarExit, Estado.setEstado, Estado.modTcb, hne]
  procesos := rfl
  pidProceso _ := rfl

theorem finalizarHilo_mueve {h : Dir} (hr : (finalizarHilo ent h).run k = .ok () k') :
    k.plani.Mueve (.termina [h] (k.hayEspera h)) k'.plani := by
  rcases finalizarHilo_ok hr with ⟨hno, m, vs, rfl⟩ | ⟨bs, hf⟩
  · have hesp : ([] : List Dir) ≠ [] ↔ k.hayEspera h = true := by
      simp [Estado.hayEspera, hno]
    have ht := finSinProceso_termina k h
    exact ht.mueve (fun _ => Iff.rfl) hesp (fun _ => rfl) (Nat.le_refl _) rfl
  · have hproc : k.buscarProceso (k.tcbs h).pid ≠ none := by
      obtain ⟨p, ms, tids, k₁, m, vs, hp, -⟩ := hf
      rw [hp]
      exact Option.some_ne_none p
    have hesp : bs ≠ [] ↔ k.hayEspera h = true := by
      rw [hf.despierta, Estado.hayEspera, Option.isSome_iff_ne_none.mpr hproc, Bool.true_and]
    have ht := hf.termina
    exact ht.mueve (fun _ => Iff.rfl) hesp (fun hno => absurd hno (List.cons_ne_nil h []))
      (Nat.le_of_eq ht.proximo.symm) rfl

/-- Whether somebody waits depends on the TCBs and on `lista_blocked`. -/
theorem hayEsperaDe_congr {pid : Uint32} {hs : List Dir} (ht : k'.tcbs = k.tcbs)
    (hb : k'.listaBlocked = k.listaBlocked) :
    Estado.hayEsperaDe ent pid hs k' = Estado.hayEsperaDe ent pid hs k := by
  induction hs generalizing k k' with
  | nil => rfl
  | cons h hs ih =>
    unfold Estado.hayEsperaDe
    have hesp : ∀ b, k'.espera h b ↔ k.espera h b := by
      intro b
      unfold Estado.espera
      rw [ht]
    have hmod : Estado.hayEsperaDe ent pid hs
          (k'.modTcb h fun t => ent.residuo { t with estadoHilo := .exit }) =
        Estado.hayEsperaDe ent pid hs
          (k.modTcb h fun t => ent.residuo { t with estadoHilo := .exit }) := by
      apply ih
      · unfold Estado.modTcb
        rw [ht]
      · exact hb
    simp only [hmod, ih ht hb, ht, hb, hesp]

/-- The loop of `finalizar_proceso`: the threads of the process `p` end, each with its wake-ups. -/
theorem finalizarTodos_termina {p : Dir} {pid : Uint32} {hs : List Dir}
    (hr : (each (finalizarSiEsDe ent p) hs).run k = .ok () k') (hpid : (k.pcbs p).pid = pid)
    (hproc : k.buscarProceso pid ≠ none) :
    ∃ terminados bs, Termina k terminados bs k' ∧
      (∀ d, d ∈ terminados ↔ d ∈ hs ∧ (k.tcbs d).pid = pid) ∧
      (bs ≠ [] ↔ Estado.hayEsperaDe ent pid hs k = true) ∧ (terminados = [] → bs = []) := by
  induction hs generalizing k with
  | nil =>
    obtain ⟨-, rfl⟩ := pure_ok.mp hr
    exact ⟨[], [], .refl k, by simp, by simp [Estado.hayEsperaDe], fun _ => rfl⟩
  | cons h hs ih =>
    obtain ⟨_, k₁, hh, hrest⟩ := bind_ok.mp hr
    rcases finalizarSiEsDe_ok hh with ⟨hne, rfl⟩ | ⟨heq, hfin⟩
    · rw [hpid] at hne
      obtain ⟨terminados, bs, ht, hmem, hesp, hvacio⟩ := ih hrest hpid hproc
      refine ⟨terminados, bs, ht, fun d => ?_, ?_, hvacio⟩
      · rw [hmem, List.mem_cons]
        constructor
        · exact fun hd => ⟨.inr hd.1, hd.2⟩
        · rintro ⟨rfl | hd, hdp⟩
          · exact absurd hdp hne
          · exact ⟨hd, hdp⟩
      · rw [hesp, Estado.hayEsperaDe, if_neg hne]
    · rw [hpid] at heq
      rcases finalizarHilo_ok hfin with ⟨hno, -⟩ | ⟨bs₁, hf⟩
      · rw [heq] at hno
        exact absurd hno hproc
      have ht₁ := hf.termina
      have hproc₁ : k₁.buscarProceso pid ≠ none := by
        rw [ht₁.buscarProceso]
        exact hproc
      obtain ⟨terminados, bs, ht, hmem, hesp, -⟩ := ih hrest ((ht₁.pidProceso p).trans hpid) hproc₁
      refine ⟨h :: terminados, bs₁ ++ bs, ht₁.trans ht, fun d => ?_, ?_,
        fun hno => absurd hno (List.cons_ne_nil h terminados)⟩
      · rw [List.mem_cons, List.mem_cons, hmem]
        by_cases hd : d = h
        · subst hd
          simp [heq]
        · simp only [hd, false_or, ht₁.pid d (by simpa using hd)]
      · have hdes := hf.despierta
        rw [Estado.hayEsperaDe, if_pos heq, Bool.or_eq_true, ← hdes]
        by_cases hbs : bs₁ = []
        · subst hbs
          obtain ⟨htcbs, hbl⟩ := hf.tcbs_of_nil
          have hresto : Estado.hayEsperaDe ent pid hs k₁ = Estado.hayEsperaDe ent pid hs
              (k.modTcb h fun t => ent.residuo { t with estadoHilo := .exit }) :=
            hayEsperaDe_congr htcbs hbl
          rw [List.nil_append, hesp, hresto]
          simp
        · simp [hbs]

/-! ## The refinement -/

theorem finalizarProceso_mueve {pid : Uint32} {m₀ : Nat} {vs₀ : List Nat}
    (hr : (finalizarProceso ent (k.buscarProceso pid)).run (k.conCerrojo m₀ vs₀) = .ok () k') :
    k.plani.Mueve
      (if ent.mensajeFinProceso = ['O', 'K'] then
        .termina (k.listaTcbs.filter fun h => (k.tcbs h).pid = pid)
          (Estado.hayEsperaDe ent pid k.listaTcbs k)
      else .nada) k'.plani := by
  obtain ⟨p, hp, hcaso⟩ := finalizarProceso_ok hr
  rcases hcaso with ⟨hno, rfl⟩ | ⟨k₁, m, vs, m', vs', hok, hloop, -, rfl⟩
  · rw [if_neg hno]
    exact mueve_igual rfl
  · rw [if_pos hok]
    have hproc : k.buscarProceso pid ≠ none := by
      rw [hp]
      exact Option.some_ne_none p
    obtain ⟨terminados, bs, ht, hmem, hesp, hvacio⟩ :=
      finalizarTodos_termina hloop (pid_of_buscarProceso hp) hproc
    have hhs : ∀ h, h ∈ terminados ↔ h ∈ k.listaTcbs.filter fun h => (k.tcbs h).pid = pid := by
      intro h
      rw [hmem, List.mem_filter, decide_eq_true_iff]
      rfl
    have hhay : bs ≠ [] ↔ Estado.hayEsperaDe ent pid k.listaTcbs k = true := by
      rw [hesp]
      exact iff_of_eq (congrArg (· = true) (hayEsperaDe_congr rfl rfl))
    have hn : k.proximo ≤ k₁.proximo + 1 := by
      rw [ht.proximo]
      exact Nat.le_succ _
    exact ht.mueve hhs hhay hvacio hn rfl

theorem processExit_mueve {d : TDatosEsenciales} (hr : (processExit ent d).run k = .ok () k') :
    k.plani.Mueve (k.movSyscall ent (.processExit d)) k'.plani := by
  rcases processExit_ok hr with ⟨htid, rfl⟩ | ⟨htid, m, vs, hfin⟩
  · simp only [Estado.movSyscall, htid, false_and, if_false]
    exact mueve_igual rfl
  · simp only [Estado.movSyscall, htid, true_and]
    exact finalizarProceso_mueve hfin

theorem threadCreate_mueve {d : TThreadCreate} (hr : (threadCreate d).run k = .ok () k') :
    k.plani.Mueve (k.movSyscall ent (.threadCreate d)) k'.plani := by
  rcases threadCreate_ok hr with ⟨hno, m, vs, rfl⟩ | ⟨p, tids, m, vs, hp, -, rfl⟩
  · simp only [Estado.movSyscall, hno, if_true]
    exact mueve_igual rfl
  · simp only [Estado.movSyscall, hp, reduceCtorEq, if_false]
    exact nuevoHilo_mueve k rfl

theorem threadJoin_mueve {d : TThreadJoinYCancel} (hr : (threadJoin d).run k = .ok () k') :
    k.plani.Mueve (k.movSyscall ent (.threadJoin d)) k'.plani := by
  obtain ⟨h, m, vs, hbus, ⟨hfin, rfl⟩ | ⟨hfin, rfl⟩⟩ := threadJoin_ok hr
  · simp only [Estado.movSyscall, hfin, if_true, hbus, movDe]
    exact encolar_mueve (Eq.refl k.plani) rfl
  · simp only [Estado.movSyscall, hfin, Bool.false_eq_true, if_false, hbus, movDe]
    exact bloquear_mueve (setTidQueLoBloqueo_plani k h d.TID) rfl

theorem threadCancel_mueve {d : TThreadJoinYCancel} (hr : (threadCancel ent d).run k = .ok () k') :
    k.plani.Mueve (k.movSyscall ent (.threadCancel d)) k'.plani := by
  rcases threadCancel_ok hr with ⟨hter, m, vs, rfl⟩ | ⟨h, m, vs, hbus, hvivo, hfin⟩
  · simp only [Estado.movSyscall, hter, if_true]
    exact mueve_igual rfl
  · have hter : k.terminado (some h) = false := decide_eq_false hvivo
    simp only [Estado.movSyscall, hbus, hter, Bool.false_eq_true, if_false, Estado.movFinHilo]
    exact finalizarHilo_mueve (k := k.conCerrojo m vs) hfin

theorem threadExit_mueve {d : TDatosEsenciales} (hr : (threadExit ent d).run k = .ok () k') :
    k.plani.Mueve (k.movSyscall ent (.threadExit d)) k'.plani := by
  rcases threadExit_ok hr with ⟨hno, m, vs, rfl⟩ | ⟨h, m, vs, hbus, hfin⟩
  · simp only [Estado.movSyscall, hno, Estado.movFinHilo]
    exact mueve_igual rfl
  · simp only [Estado.movSyscall, hbus, Estado.movFinHilo]
    exact finalizarHilo_mueve (k := k.conCerrojo m vs) hfin

theorem mutexLock_mueve {d : TMutexTodos} (hr : (mutexLock d).run k = .ok () k') :
    k.plani.Mueve (k.movSyscall ent (.mutexLock d)) k'.plani := by
  obtain ⟨p, i, l, m, vs, hp, hm, ⟨hlib, rfl⟩ | ⟨h, htom, hbus, rfl⟩⟩ := mutexLock_ok hr
  · simp only [Estado.movSyscall, Estado.mutexDe, hp, hm, Option.bind_some, Option.map_some,
      hlib, if_true]
    exact mueve_igual rfl
  · simp only [Estado.movSyscall, Estado.mutexDe, hp, hm, Option.bind_some, Option.map_some,
      htom, if_false, hbus, movDe]
    exact bloquear_mueve (setTidQueLoBloqueo_plani _ h d.TID) rfl

theorem mutexUnlock_mueve {d : TMutexTodos} (hr : (mutexUnlock d).run k = .ok () k') :
    k.plani.Mueve (k.movSyscall ent (.mutexUnlock d)) k'.plani := by
  obtain ⟨p, i, l, m, vs, hp, hm, hcaso⟩ := mutexUnlock_ok hr
  simp only [Estado.movSyscall, Estado.mutexDe, hp, hm, Option.bind_some, Option.map_some]
  rcases hcaso with ⟨hajeno, rfl⟩ | ⟨hown, hvacia, rfl⟩ | ⟨t, resto, hown, hcola, hcaso⟩
  · rw [if_neg hajeno]
    exact mueve_igual rfl
  · rw [if_pos hown, hvacia]
    exact mueve_igual rfl
  · rw [if_pos hown, hcola, List.head?_cons, Option.bind_some]
    rcases hcaso with ⟨hno, rfl⟩ | ⟨h, hbus, rfl⟩
    · rw [hno]
      exact mueve_igual rfl
    · rw [hbus]
      have hdueno : (k.setMutex p i { l with tid := t, bloqueadosMutex := resto }).plani =
          k.plani := rfl
      exact encolar_mueve hdueno rfl

theorem dumpMemory_mueve {d : TDatosEsenciales} (hr : (dumpMemory d).run k = .ok () k') :
    k.plani.Mueve (k.movSyscall ent (.dumpMemory d)) k'.plani := by
  obtain ⟨h, m, vs, hbus, rfl⟩ := dumpMemory_ok hr
  simp only [Estado.movSyscall, hbus, movDe]
  exact bloquear_mueve (Eq.refl k.plani) rfl

theorem io_mueve {d : TIO} (hr : (io d).run k = .ok () k') :
    k.plani.Mueve (k.movSyscall ent (.io d)) k'.plani := by
  rcases io_ok hr with ⟨hno, m, vs, rfl⟩ | ⟨h, m, vs, hbus, rfl⟩
  · simp only [Estado.movSyscall, hno, movDe]
    exact mueve_igual rfl
  · simp only [Estado.movSyscall, hbus, movDe]
    exact dormir_mueve rfl

theorem syscall_mueve {s : Syscall} (hr : (kernelEscuchaCpuDispatch ent s).run k = .ok () k') :
    k.plani.Mueve (k.movSyscall ent s) k'.plani := by
  cases s with
  | processCreate d =>
    obtain ⟨m, vs, rfl⟩ := crearProceso_ok hr
    exact mueve_nada k (Nat.le_succ _) rfl
  | processExit d => exact processExit_mueve hr
  | threadCreate d => exact threadCreate_mueve hr
  | threadJoin d => exact threadJoin_mueve hr
  | threadCancel d => exact threadCancel_mueve hr
  | threadExit d => exact threadExit_mueve hr
  | mutexCreate d =>
    obtain ⟨p, m, vs, -, rfl⟩ := mutexCreate_ok hr
    exact mueve_igual rfl
  | mutexLock d => exact mutexLock_mueve hr
  | mutexUnlock d => exact mutexUnlock_mueve hr
  | dumpMemory d => exact dumpMemory_mueve hr
  | io d => exact io_mueve hr

theorem memoria_mueve {d : MensajeMemoria} (hr : (kernelEscuchaMemoria d).run k = .ok () k') :
    k.plani.Mueve (k.movimiento ent (.memoria d)) k'.plani := by
  cases d with
  | confirmarEspacioProceso d =>
    rcases confirmarEspacioProceso_ok hr with ⟨hbit, rfl⟩ | ⟨k₁, hbit, hc, rfl⟩
    · simp only [Estado.movimiento, hbit, if_false]
      exact mueve_igual rfl
    · obtain ⟨p, q, resto, tids, m, vs, -, -, -, rfl⟩ := crearHilo_ok hc
      simp only [Estado.movimiento, hbit, if_true]
      exact nuevoHilo_mueve k rfl
  | confirmarCreacionHilo d =>
    rcases confirmarCreacionHilo_ok hr with
      ⟨hbit, rfl⟩ | ⟨hbit, hno, rfl⟩ | ⟨h, m, vs, hbit, hbus, rfl⟩
    · simp only [Estado.movimiento, hbit, if_false]
      exact mueve_igual rfl
    · simp only [Estado.movimiento, hbit, if_true, hno]
      have heq : k.postTcbAPlanificar.plani = { k.plani with
          ready := k.listaReady ++ Option.toList none
          semaforo := k.tcbAPlanificar + 1 } := by
        simp [Estado.postTcbAPlanificar, Estado.plani]
      rw [heq]
      exact .admite none
    · simp only [Estado.movimiento, hbit, if_true, hbus]
      exact .admite (some h)
  | confirmarDumpMemory =>
    obtain ⟨-, rfl⟩ := pure_ok.mp hr
    exact mueve_igual rfl

theorem cortoPlazo_mueve (hr : (planificadorCortoPlazo ent).run k = .ok () k') :
    k.plani.Mueve (k.movimiento ent .cortoPlazo) k'.plani := by
  obtain ⟨hsem, ⟨halg, rfl⟩ | ⟨i, h, m, vs, helige, rfl⟩⟩ := planificadorCortoPlazo_ok hr
  · simp only [Estado.movimiento, halg, if_true]
    exact .gira hsem
  · simp only [Estado.movimiento, helige.ne_otro, if_false]
    have heq : (k.despachar i h).plani = { k.plani.conEstado h .exec with
        ready := k.listaReady.eraseIdx i
        exec := k.colaExec ++ [h] } := by
      simp only [Estado.plani, Estado.despachar, Planificacion.conEstado, setEstado_estadoHilo]
      rfl
    have heq' : ∀ s, ({ k.despachar i h with
        tcbAPlanificar := s
        mutex := m
        valoresMutex := vs } : Estado).plani = { (k.despachar i h).plani with semaforo := s } :=
      fun _ => rfl
    rw [heq', heq]
    exact .despacha hsem helige.1

/-- **Refinement.** A step that ends makes the movement that the state before it says. -/
theorem paso_mueve {p : Paso} {o : List Paquete} (h : paso ent k p = .ok (k', o)) :
    k.plani.Mueve (k.movimiento ent p) k'.plani := by
  have hr := paso_ok h
  cases p with
  | syscall s => exact syscall_mueve hr
  | memoria d => exact memoria_mueve hr
  | cortoPlazo => exact cortoPlazo_mueve hr
  | largoPlazo =>
    obtain ⟨-, rfl⟩ := planificadorDeLargoPlazo_ok hr
    exact mueve_nada k (Nat.le_succ _) rfl

/-! ## Runs -/

/-- **The exact rule for the scheduler.** If a movement from a state with the invariant `I` keeps
it where `C` allows the movement, and `P` after the movement means that `C` allowed it, then `P`
holds along a run of the kernel exactly when `C` allows each of its movements. -/
theorem everyState_plani_iff {I P : Planificacion → Prop} {C : Planificacion → Movimiento → Prop}
    {ps : List Paso} (h0 : I k.plani) (hP : ∀ s, I s → P s)
    (hstep : ∀ s m s', I s → C s m → s.Mueve m s' → I s')
    (hconv : ∀ s m s', I s → s.Mueve m s' → P s' → C s m) :
    Trace.EveryState (paso ent) k ps (fun _ k' => P k'.plani) ↔
      Trace.EveryStep (paso ent) k ps fun _ k' p => C k'.plani (k'.movimiento ent p) :=
  Trace.everyState_iff_everyStep (I := fun _ k' => I k'.plani) h0 (fun _ k' => hP k'.plani)
    (fun _ _ _ _ _ _ hI hC hp => hstep _ _ _ hI hC (paso_mueve hp))
    (fun _ _ _ _ _ _ hI hp hP' => hconv _ _ _ hI (paso_mueve hp) hP')

/-! ## The first process -/

/-- `FIFO`, memoria answers `"OK"`, and `free` leaves a block as it is. -/
def entornoFifo : Entorno := ⟨.fifo, ['O', 'K'], id⟩

/-- The start of a kernel that finds zeros in memory. -/
def estadoCero : Estado :=
  estadoInicial (fun _ => ⟨0, 0, 0, 0, [], .new⟩) (fun _ => ⟨0, none, [], 0, .new, 0, 0, []⟩)
    fun _ => 0

/-- A process is created, memoria confirms it and its main thread, and the thread gets the CPU. -/
def arranque : List Paso :=
  [.syscall (.processCreate ⟨0, 0, ['a'], 32, 0⟩), .largoPlazo,
    .memoria (.confirmarEspacioProceso ⟨1, 1⟩), .memoria (.confirmarCreacionHilo ⟨1, 0, 1⟩),
    .cortoPlazo]

/-- Its main thread creates another one, and memoria confirms it. -/
def segundoHilo : List Paso :=
  [.syscall (.threadCreate ⟨1, 0, ['b'], 1⟩), .memoria (.confirmarCreacionHilo ⟨1, 1, 1⟩)]

end LastOfC.Kernel
