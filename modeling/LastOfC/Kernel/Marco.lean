import LastOfC.Kernel.Pasos
import LastOfC.Kernel.Tabla

/-!
# A syscall does not touch the other processes

`Ajeno T U k k'`: nothing that the threads `T` and the processes `U` have in the kernel changed. The
sets do not depend on the state, so this composes (`Ajeno.trans`), and each primitive gives it where
it writes to a block outside of the sets. A handler finds its blocks with the pid of its packet, and
so it is outside of the sets of any other process (`marco_syscall`).
-/

namespace LastOfC.Kernel

open Imp

variable {ent : Entorno} {k k₁ k' : Estado} {T U : Dir → Bool}

/-- The TCBs of the threads `T`, the PCBs of the processes `U`, and the places of the threads `T` in
the lists are as they were, and no thread of `T` was freed. -/
structure Ajeno (T U : Dir → Bool) (k k' : Estado) : Prop where
  tcb : ∀ h, T h = true → k'.tcbs h = k.tcbs h
  pcb : ∀ p, U p = true → k'.pcbs p = k.pcbs p
  ready : k'.listaReady.filter T = k.listaReady.filter T
  blocked : k'.listaBlocked.filter T = k.listaBlocked.filter T
  exit : k'.listaExit.filter T = k.listaExit.filter T
  exec : k'.colaExec.filter T = k.colaExec.filter T
  liberados : ∀ h, T h = true → h ∈ k'.liberados → h ∈ k.liberados

namespace Ajeno

/-- A change of other data. -/
theorem igual (htcbs : k'.tcbs = k.tcbs) (hpcbs : k'.pcbs = k.pcbs)
    (hready : k'.listaReady = k.listaReady) (hblocked : k'.listaBlocked = k.listaBlocked)
    (hexit : k'.listaExit = k.listaExit) (hexec : k'.colaExec = k.colaExec)
    (hlib : k'.liberados = k.liberados) : Ajeno T U k k' where
  tcb _ _ := by rw [htcbs]
  pcb _ _ := by rw [hpcbs]
  ready := by rw [hready]
  blocked := by rw [hblocked]
  exit := by rw [hexit]
  exec := by rw [hexec]
  liberados _ _ hd := hlib ▸ hd

theorem refl (k : Estado) : Ajeno T U k k := .igual rfl rfl rfl rfl rfl rfl rfl

theorem trans (h : Ajeno T U k k₁) (h' : Ajeno T U k₁ k') : Ajeno T U k k' where
  tcb d hd := (h'.tcb d hd).trans (h.tcb d hd)
  pcb p hp := (h'.pcb p hp).trans (h.pcb p hp)
  ready := h'.ready.trans h.ready
  blocked := h'.blocked.trans h.blocked
  exit := h'.exit.trans h.exit
  exec := h'.exec.trans h.exec
  liberados d hd hlib := h.liberados d hd (h'.liberados d hd hlib)

theorem conCerrojo (m : Nat) (vs : List Nat) : Ajeno T U k (k.conCerrojo m vs) :=
  .igual rfl rfl rfl rfl rfl rfl rfl

theorem modTcb {h : Dir} (hT : T h = false) (f : TCB → TCB) : Ajeno T U k (k.modTcb h f) where
  tcb d hd := by
    have hne : d ≠ h := by
      rintro rfl
      exact Bool.false_ne_true (hT.symm.trans hd)
    exact Function.update_of_ne hne _ _
  pcb _ _ := rfl
  ready := rfl
  blocked := rfl
  exit := rfl
  exec := rfl
  liberados _ _ hd := hd

theorem modPcb {p : Dir} (hU : U p = false) (f : PCB → PCB) : Ajeno T U k (k.modPcb p f) where
  tcb _ _ := rfl
  pcb q hq := by
    have hne : q ≠ p := by
      rintro rfl
      exact Bool.false_ne_true (hU.symm.trans hq)
    exact Function.update_of_ne hne _ _
  ready := rfl
  blocked := rfl
  exit := rfl
  exec := rfl
  liberados _ _ hd := hd

end Ajeno

/-- An append of an element that the filter leaves out. -/
theorem filter_append_ajeno {l : List Dir} {h : Dir} (hT : T h = false) :
    (l ++ [h]).filter T = l.filter T := by
  rw [List.filter_append, List.filter_singleton, hT, Bool.cond_false, List.append_nil]

/-- A removal of an element that the filter leaves out. -/
theorem filter_eraseIdx_ajeno {l : List Dir} {i : Nat} {h : Dir} (hi : l[i]? = some h)
    (hT : T h = false) : (l.eraseIdx i).filter T = l.filter T := by
  obtain ⟨pre, post, rfl, rfl⟩ := KeyedList.exists_split hi
  rw [KeyedList.eraseIdx_split, List.filter_append, List.filter_append,
    List.filter_cons_of_neg (by simp [hT])]

theorem filter_erase_ajeno {l : List Dir} {h : Dir} (hT : T h = false) :
    (l.erase h).filter T = l.filter T := by
  rw [← List.erase_filter, List.erase_of_not_mem]
  exact fun hmem => Bool.false_ne_true (hT.symm.trans (List.mem_filter.mp hmem).2)

namespace Ajeno

theorem encolar {h : Dir} (hT : T h = false) : Ajeno T U k (k.encolar h) :=
  have hmod : Ajeno T U k (k.setEstado h .ready) := .modTcb hT _
  ⟨hmod.tcb, hmod.pcb, filter_append_ajeno hT, rfl, rfl, rfl, hmod.liberados⟩

theorem bloquear {h : Dir} (hT : T h = false) : Ajeno T U k (k.bloquear h) :=
  have hmod : Ajeno T U k (k.setEstado h .blocked) := .modTcb hT _
  ⟨hmod.tcb, hmod.pcb, rfl, filter_append_ajeno hT, rfl, rfl, hmod.liberados⟩

theorem despertar {i : Nat} {b : Dir} (hi : k.listaBlocked[i]? = some b) (hT : T b = false) :
    Ajeno T U k (k.despertar i b) :=
  have hmod : Ajeno T U k (k.modTcb b fun t =>
      { t with estadoHilo := .ready, tidQueLoBloqueo := sinHilo }) := .modTcb hT _
  ⟨hmod.tcb, hmod.pcb, filter_append_ajeno hT, filter_eraseIdx_ajeno hi hT, rfl, rfl,
    hmod.liberados⟩

end Ajeno

/-! ## The end of threads -/

variable {q : Uint32}

/-- The threads `T` and the processes `U` have the pid `q`. -/
structure Propios (q : Uint32) (T U : Dir → Bool) (k : Estado) : Prop where
  hilo : ∀ h, T h = true → (k.tcbs h).pid = q
  proceso : ∀ p, U p = true → (k.pcbs p).pid = q

namespace Propios

theorem tras (h : Propios q T U k) (ha : Ajeno T U k k') : Propios q T U k' where
  hilo d hd := by rw [ha.tcb d hd, h.hilo d hd]
  proceso p hp := by rw [ha.pcb p hp, h.proceso p hp]

theorem sinHilo (h : Propios q T U k) {d : Dir} (hd : (k.tcbs d).pid ≠ q) : T d = false := by
  by_contra hT
  exact hd (h.hilo d ((Bool.not_eq_false _).mp hT))

theorem sinProceso (h : Propios q T U k) {p : Dir} (hp : (k.pcbs p).pid ≠ q) : U p = false := by
  by_contra hU
  exact hp (h.proceso p ((Bool.not_eq_false _).mp hU))

end Propios

/-- A thread wakes only threads of its own process. -/
theorem Despierta.ajeno {h : Dir} {bs : List Dir} (hd : Despierta h k bs k')
    (hp : Propios q T U k) (hh : (k.tcbs h).pid ≠ q) : Ajeno T U k k' := by
  induction hd with
  | nadie k => exact .refl k
  | @uno k k' i b bs hi hb hs ih =>
    have hT : T b = false := hp.sinHilo fun hbq => hh (hb.1.symm.trans hbq)
    have hpaso : Ajeno T U k (k.despertar i b) := .despertar hi hT
    refine hpaso.trans (ih (hp.tras hpaso) ?_)
    rw [(despertar_pid i b h).1]
    exact hh

theorem terminarHilo_ajeno {h p : Dir} (hT : T h = false) (hU : U p = false) (ms : List TMutex)
    (tids : List Puntero) : Ajeno T U k (k.terminarHilo h p ms tids) := by
  have hmod : Ajeno T U k (k.setEstado h .exit) := .modTcb hT _
  have hpcb : Ajeno T U (k.setEstado h .exit) ((k.setEstado h .exit).modPcb p fun r =>
      { r with mutex := ms, listaTid := some tids }) := .modPcb hU _
  have htodo := hmod.trans hpcb
  exact ⟨htodo.tcb, htodo.pcb, rfl, rfl, filter_append_ajeno hT, rfl, htodo.liberados⟩

theorem finalizarHilo_ajeno {h : Dir} (hr : (finalizarHilo ent h).run k = .ok () k')
    (hp : Propios q T U k) (hh : (k.tcbs h).pid ≠ q) : Ajeno T U k k' := by
  have hT : T h = false := hp.sinHilo hh
  rcases finalizarHilo_ok hr with
    ⟨-, m, vs, rfl⟩ | ⟨bs, p, ms, tids, k₁, m, vs, hbus, -, hd, -, -, rfl⟩
  · have hmod : Ajeno T U k (k.setEstado h .exit) := .modTcb hT _
    exact ⟨hmod.tcb, hmod.pcb, rfl, rfl, filter_append_ajeno hT, rfl, hmod.liberados⟩
  · have hU : U p = false := by
      refine hp.sinProceso ?_
      rw [pid_of_buscarProceso hbus]
      exact hh
    have hfin := terminarHilo_ajeno (k := k) hT hU ms tids
    have hpid : ((k.terminarHilo h p ms tids).tcbs h).pid ≠ q := by
      have hmismo : ((k.terminarHilo h p ms tids).tcbs h).pid = (k.tcbs h).pid := by
        simp [Estado.terminarHilo, Estado.setEstado, Estado.agregarExit, Estado.modTcb,
          Estado.modPcb]
      rw [hmismo]
      exact hh
    have hdes := hfin.trans (hd.ajeno (hp.tras hfin) hpid)
    have hfree : Ajeno T U k₁ (k₁.modTcb h ent.residuo) := .modTcb hT _
    have htodo := hdes.trans hfree
    have hlib : k₁.liberados = k.liberados := by
      rw [hd.marco]
      rfl
    refine ⟨htodo.tcb, htodo.pcb, htodo.ready, htodo.blocked, htodo.exit, htodo.exec, ?_⟩
    intro d hTd hmem
    rcases List.mem_cons.mp hmem with rfl | hmem
    · exact absurd (hT.symm.trans hTd) Bool.false_ne_true
    · exact hmem

theorem finalizarTodos_ajeno {p : Dir} {hs : List Dir}
    (hr : (each (finalizarSiEsDe ent p) hs).run k = .ok () k') (hp : Propios q T U k)
    (hpid : (k.pcbs p).pid ≠ q) : Ajeno T U k k' := by
  have hrefl : MismaTabla k k := .de_pcbs rfl rfl rfl rfl (Nat.le_refl _) rfl
  refine (each_ok (I := fun _ s => MismaTabla k s ∧ Ajeno T U k s) hr ⟨hrefl, .refl k⟩ ?_).2
  rintro h rest s₁ s₂ - ⟨htabla, hs₁⟩ hh
  rcases finalizarSiEsDe_ok hh with ⟨-, rfl⟩ | ⟨heq, hfin⟩
  · exact ⟨htabla, hs₁⟩
  · have hotro : (s₁.tcbs h).pid ≠ q := by
      rw [heq, htabla.pidDe]
      exact hpid
    exact ⟨htabla.trans (finalizarHilo_tabla hfin),
      hs₁.trans (finalizarHilo_ajeno hfin (hp.tras hs₁) hotro)⟩

theorem finalizarProceso_ajeno {d : Option Dir} (hr : (finalizarProceso ent d).run k = .ok () k')
    (hp : Propios q T U k) (hd : ∀ p, d = some p → (k.pcbs p).pid ≠ q) : Ajeno T U k k' := by
  obtain ⟨p, rfl, ⟨-, rfl⟩ | ⟨k₁, m, vs, m', vs', -, hloop, -, rfl⟩⟩ := finalizarProceso_ok hr
  · exact .igual rfl rfl rfl rfl rfl rfl rfl
  · have haviso : Ajeno T U k ((k.avisarFinProceso p).conCerrojo m vs) :=
      .igual rfl rfl rfl rfl rfl rfl rfl
    have hfines := haviso.trans (finalizarTodos_ajeno hloop (hp.tras haviso) (hd p rfl))
    have hcierre : Ajeno T U k₁ (k₁.modPcb p fun q =>
        { q with listaTid := none, estado := .exit, tidContador := -1, prioridadMain := -1 }) :=
      .modPcb (hp.sinProceso (hd p rfl)) _
    have htodo := hfines.trans hcierre
    exact ⟨htodo.tcb, htodo.pcb, htodo.ready, htodo.blocked, htodo.exit, htodo.exec,
      htodo.liberados⟩

/-! ## Syscalls -/

/-- The pid in a packet, that of the caller. -/
def Syscall.pid : Syscall → Uint32
  | .processCreate d => d.PID
  | .processExit d => d.pidInv
  | .threadCreate d => d.PID
  | .threadJoin d => d.PID
  | .threadCancel d => d.PID
  | .threadExit d => d.pidInv
  | .mutexCreate d => d.PID
  | .mutexLock d => d.PID
  | .mutexUnlock d => d.PID
  | .dumpMemory d => d.pidInv
  | .io d => d.PID

/-- The blocks of the threads `T` and the processes `U` are older than the next one of `malloc`. -/
structure Previos (T U : Dir → Bool) (k : Estado) : Prop where
  hilo : ∀ h, T h = true → h < k.proximo
  proceso : ∀ p, U p = true → p < k.proximo

theorem threadCreate_ajeno {d : TThreadCreate} (hr : (threadCreate d).run k = .ok () k')
    (hp : Propios q T U k) (hprev : Previos T U k) (hq : d.PID ≠ q) : Ajeno T U k k' := by
  rcases threadCreate_ok hr with ⟨-, m, vs, rfl⟩ | ⟨p, tids, m, vs, hbus, -, rfl⟩
  · exact .conCerrojo m vs
  · have hU : U p = false := hp.sinProceso (by rw [pid_of_buscarProceso hbus]; exact hq)
    have hpcb : Ajeno T U k (k.modPcb p fun r => { r with
        tidContador := r.tidContador + 1 + 1
        listaTid := some (tids ++ [.bloque k.proximo]) }) := .modPcb hU _
    refine ⟨fun h hh => ?_, hpcb.pcb, rfl, rfl, rfl, rfl, fun _ _ hd => hd⟩
    have hviejo : h ≠ k.proximo + 1 := Nat.ne_of_lt (Nat.lt_succ_of_lt (hprev.hilo h hh))
    exact Function.update_of_ne hviejo _ _

/-- A thread that a handler found with the pid of its packet. -/
theorem Propios.sinHallado (hp : Propios q T U k) {tid pid : Uint32} {h : Dir}
    (hb : k.buscarTcbs tid pid = some h) (hq : pid ≠ q) : T h = false :=
  hp.sinHilo (by rw [(pid_of_buscarTcbs hb).1]; exact hq)

theorem Propios.sinProcesoHallado (hp : Propios q T U k) {pid : Uint32} {p : Dir}
    (hb : k.buscarProceso pid = some p) (hq : pid ≠ q) : U p = false :=
  hp.sinProceso (by rw [pid_of_buscarProceso hb]; exact hq)

theorem syscall_ajeno {y : Syscall} (hr : (kernelEscuchaCpuDispatch ent y).run k = .ok () k')
    (hp : Propios q T U k) (hprev : Previos T U k) (hq : y.pid ≠ q) : Ajeno T U k k' := by
  cases y with
  | processCreate d =>
    obtain ⟨m, vs, rfl⟩ := crearProceso_ok hr
    refine ⟨fun _ _ => rfl, fun p hU => ?_, rfl, rfl, rfl, rfl, fun _ _ hd => hd⟩
    exact Function.update_of_ne (Nat.ne_of_lt (hprev.proceso p hU)) _ _
  | processExit d =>
    rcases processExit_ok hr with ⟨-, rfl⟩ | ⟨-, m, vs, hfin⟩
    · exact .refl k'
    · have hlock : Ajeno T U k (k.conCerrojo m vs) := .conCerrojo m vs
      refine hlock.trans (finalizarProceso_ajeno hfin (hp.tras hlock) fun p hbus => ?_)
      have hpid : (k.pcbs p).pid = d.pidInv := pid_of_buscarProceso hbus
      exact hpid ▸ hq
  | threadCreate d => exact threadCreate_ajeno hr hp hprev hq
  | threadJoin d =>
    obtain ⟨h, m, vs, hbus, ⟨-, rfl⟩ | ⟨-, rfl⟩⟩ := threadJoin_ok hr
    · exact (Ajeno.encolar (hp.sinHallado hbus hq)).trans (.conCerrojo m vs)
    · have hT := hp.sinHallado hbus hq
      have htid : Ajeno T U k (k.setTidQueLoBloqueo h d.TID) := .modTcb hT _
      exact (htid.trans (.bloquear hT)).trans (.conCerrojo m vs)
  | threadCancel d =>
    rcases threadCancel_ok hr with ⟨-, m, vs, rfl⟩ | ⟨h, m, vs, hbus, -, hfin⟩
    · exact .conCerrojo m vs
    · have hlock : Ajeno T U k (k.conCerrojo m vs) := .conCerrojo m vs
      have hpid : (k.tcbs h).pid = d.PID := (pid_of_buscarTcbs hbus).1
      exact hlock.trans (finalizarHilo_ajeno hfin (hp.tras hlock) (hpid ▸ hq))
  | threadExit d =>
    rcases threadExit_ok hr with ⟨-, m, vs, rfl⟩ | ⟨h, m, vs, hbus, hfin⟩
    · exact .conCerrojo m vs
    · have hlock : Ajeno T U k (k.conCerrojo m vs) := .conCerrojo m vs
      have hpid : (k.tcbs h).pid = d.pidInv := (pid_of_buscarTcbs hbus).1
      exact hlock.trans (finalizarHilo_ajeno hfin (hp.tras hlock) (hpid ▸ hq))
  | mutexCreate d =>
    obtain ⟨p, m, vs, hbus, rfl⟩ := mutexCreate_ok hr
    exact (Ajeno.modPcb (hp.sinProcesoHallado hbus hq) _).trans (.conCerrojo m vs)
  | mutexLock d =>
    obtain ⟨p, i, l, m, vs, hbus, -, ⟨-, rfl⟩ | ⟨h, -, hbus', rfl⟩⟩ := mutexLock_ok hr
    · exact (Ajeno.modPcb (hp.sinProcesoHallado hbus hq) _).trans (.conCerrojo m vs)
    · have hT := hp.sinHallado hbus' hq
      have hcola : Ajeno T U k (k.setMutex p i { l with
          bloqueadosMutex := l.bloqueadosMutex ++ [d.TID] }) :=
        .modPcb (hp.sinProcesoHallado hbus hq) _
      have htid : Ajeno T U (k.setMutex p i { l with
          bloqueadosMutex := l.bloqueadosMutex ++ [d.TID] }) _ :=
        .modTcb hT fun t => { t with tidQueLoBloqueo := d.TID }
      exact ((hcola.trans htid).trans (.bloquear hT)).trans (.conCerrojo m vs)
  | mutexUnlock d =>
    obtain ⟨p, i, l, m, vs, hbus, -, hcaso⟩ := mutexUnlock_ok hr
    have hU := hp.sinProcesoHallado hbus hq
    rcases hcaso with ⟨-, rfl⟩ | ⟨-, -, rfl⟩ | ⟨t, resto, -, -, ⟨-, rfl⟩ | ⟨h, hbus', rfl⟩⟩
    · exact .conCerrojo m vs
    · exact (Ajeno.modPcb hU _).trans (.conCerrojo m vs)
    · exact (Ajeno.modPcb hU _).trans (.conCerrojo m vs)
    · have hduenio : Ajeno T U k (k.setMutex p i { l with tid := t, bloqueadosMutex := resto }) :=
        .modPcb hU _
      exact (hduenio.trans (.encolar (hp.sinHallado hbus' hq))).trans (.conCerrojo m vs)
  | dumpMemory d =>
    obtain ⟨h, m, vs, hbus, rfl⟩ := dumpMemory_ok hr
    have hbl : Ajeno T U k (k.bloquear h) := .bloquear (hp.sinHallado hbus hq)
    exact ⟨hbl.tcb, hbl.pcb, hbl.ready, hbl.blocked, hbl.exit, hbl.exec, hbl.liberados⟩
  | io d =>
    rcases io_ok hr with ⟨-, m, vs, rfl⟩ | ⟨h, m, vs, hbus, rfl⟩
    · exact .conCerrojo m vs
    · have hT := hp.sinHallado hbus hq
      have hen : Ajeno T U k (k.encolar h) := .encolar hT
      refine ⟨hen.tcb, hen.pcb, hen.ready, ?_, hen.exit, hen.exec, hen.liberados⟩
      exact (filter_erase_ajeno hT).trans (filter_append_ajeno hT)

/-! ## Each process against the others -/

/-- The threads of `lista_tcbs` with the pid `q`. -/
def Estado.hiloDe (k : Estado) (q : Uint32) (h : Dir) : Bool :=
  h ∈ k.listaTcbs ∧ (k.tcbs h).pid = q

/-- The processes of `lista_procesos` with the pid `q`. -/
def Estado.procesoDe (k : Estado) (q : Uint32) (p : Dir) : Bool :=
  p ∈ k.listaProcesos ∧ (k.pcbs p).pid = q

theorem propios_de (k : Estado) (q : Uint32) : Propios q (k.hiloDe q) (k.procesoDe q) k where
  hilo _ hh := (of_decide_eq_true hh).2
  proceso _ hp := (of_decide_eq_true hp).2

/-- The blocks in the lists are older than the next one of `malloc`. -/
structure Estado.Asignado (k : Estado) : Prop where
  hilos : ∀ h ∈ k.listaTcbs, h < k.proximo
  procesos : ∀ p ∈ k.listaProcesos, p < k.proximo

theorem Estado.Asignado.previos (h : k.Asignado) (q : Uint32) :
    Previos (k.hiloDe q) (k.procesoDe q) k where
  hilo d hd := h.hilos d (of_decide_eq_true hd).1
  proceso p hp := h.procesos p (of_decide_eq_true hp).1

/-- **A syscall does not touch the other processes.** A completed packet with another pid than `q`
leaves the TCBs of the threads of `q`, the PCB with its mutexes, and the places of its threads in
the four lists as they were. -/
theorem marco_syscall {y : Syscall} {o : List Paquete} (hk : k.Asignado) (hq : y.pid ≠ q)
    (h : paso ent k (.syscall y) = .ok (k', o)) :
    Ajeno (k.hiloDe q) (k.procesoDe q) k k' :=
  syscall_ajeno (paso_ok h) (propios_de k q) (hk.previos q) hq

/-- The first process creates another one, which starts. -/
def segundoProceso : List Paso :=
  [.syscall (.processCreate ⟨1, 0, ['b'], 32, 0⟩), .largoPlazo,
    .memoria (.confirmarEspacioProceso ⟨2, 1⟩), .memoria (.confirmarCreacionHilo ⟨2, 0, 1⟩)]

/-- The exit of the second process, seen from the first one. -/
theorem marco_dosProcesos : ∃ k k' o, k.listaTcbs.length = 2 ∧
    paso entornoFifo k (.syscall (.processExit ⟨2, 0⟩)) = .ok (k', o) ∧
      Ajeno (k.hiloDe 1) (k.procesoDe 1) k k' := by
  have hrun : (Trace.run (paso entornoFifo) estadoCero (arranque ++ segundoProceso)).toOption.map
      (fun r => (r.1.listaTcbs, r.1.listaProcesos, r.1.proximo,
        (paso entornoFifo r.1 (.syscall (.processExit ⟨2, 0⟩))).isOk)) =
      some ([3, 7], [0, 4], 8, true) := by
    decide +kernel
  obtain ⟨k, -, hg⟩ := Trace.reaches_of_map (g := fun k : Estado =>
    (k.listaTcbs, k.listaProcesos, k.proximo,
      (paso entornoFifo k (.syscall (.processExit ⟨2, 0⟩))).isOk)) hrun
  simp only [Prod.mk.injEq] at hg
  obtain ⟨htcbs, hproc, hprox, hok⟩ := hg
  cases hp : paso entornoFifo k (.syscall (.processExit ⟨2, 0⟩)) with
  | error f =>
    rw [hp] at hok
    cases hok
  | ok r =>
    have hasig : k.Asignado := by
      constructor
      · rw [htcbs, hprox]
        decide
      · rw [hproc, hprox]
        decide
    exact ⟨k, r.1, r.2, by rw [htcbs]; rfl, hp, marco_syscall hasig (by decide) hp⟩

end LastOfC.Kernel
