import LastOfC.Kernel.Arranque

/-!
# The processes and threads that a step creates

The identity of a thread is the pid and tid in its TCB, and that of a process is its pid. `Crea`
says what a step does to the identities: it creates a process, a main thread or another thread, or
it creates nothing (`SinCrear`). Then an identity changes only in a TCB that the step frees.
`paso_crea` is the inversion of all steps. The `HILO_READY` packets are a log of the threads.
-/

namespace LastOfC.Kernel

open Imp

variable {ent : Entorno} {k k₁ k' : Estado}

/-- The pid and tid in the TCB at `d`. -/
def Estado.idDe (k : Estado) (d : Dir) : Uint32 × Uint32 := ((k.tcbs d).pid, (k.tcbs d).tid)

def TCB.id (t : TCB) : Uint32 × Uint32 := (t.pid, t.tid)

/-! ## Steps that create nothing -/

/-- No process and no thread is new. -/
structure SinCrear (ent : Entorno) (k k' : Estado) : Prop where
  tabla : MismaTabla k k'
  creados : hilosDe k'.enviados = hilosDe k.enviados
  liberados : k.liberados ⊆ k'.liberados
  /-- A TCB keeps its identity, or it was freed, and has what `free` left of it. -/
  identidad : ∀ d, k'.idDe d = k.idDe d ∨
    (d ∉ k.liberados ∧ d ∈ k'.liberados ∧
      ∃ t : TCB, t.id = k.idDe d ∧ k'.idDe d = (ent.residuo t).id)

namespace SinCrear

/-- A step that frees nothing. -/
theorem de_tabla (htabla : MismaTabla k k') (hcreados : hilosDe k'.enviados = hilosDe k.enviados)
    (hlib : k'.liberados = k.liberados) (hid : ∀ d, k'.idDe d = k.idDe d) : SinCrear ent k k' :=
  ⟨htabla, hcreados, hlib ▸ List.Subset.refl _, fun d => .inl (hid d)⟩

theorem trans (h : SinCrear ent k k₁) (h' : SinCrear ent k₁ k') : SinCrear ent k k' where
  tabla := h.tabla.trans h'.tabla
  creados := h'.creados.trans h.creados
  liberados := List.Subset.trans h.liberados h'.liberados
  identidad d := by
    rcases h'.identidad d with hid' | ⟨hno', hlib', t, ht, hres⟩
    · rw [hid']
      exact (h.identidad d).imp_right fun ⟨hno, hlib, hres⟩ => ⟨hno, h'.liberados hlib, hres⟩
    · rcases h.identidad d with hid | ⟨hno, hlib, -⟩
      · rw [← hid]
        exact .inr ⟨fun hd => hno' (h.liberados hd), hlib', t, ht, hres⟩
      · exact absurd hlib hno'

/-- A TCB that is not freed keeps its identity. -/
theorem vivo (h : SinCrear ent k k') {d : Dir} (hd : d ∉ k'.liberados) : k'.idDe d = k.idDe d :=
  (h.identidad d).resolve_right fun hno => hd hno.2.1

end SinCrear

/-- Writes to the state and to `tid_que_lo_bloqueo` of a TCB keep the identities. -/
theorem idDe_modTcb {h : Dir} {f : TCB → TCB} (hf : (f (k.tcbs h)).id = (k.tcbs h).id) (d : Dir) :
    (k.modTcb h f).idDe d = k.idDe d := by
  unfold Estado.idDe Estado.modTcb
  by_cases hd : d = h
  · subst hd
    simpa [TCB.id] using hf
  · simp [hd]

theorem idDe_setEstado (h : Dir) (e : EstadoProcesoHilo) (d : Dir) :
    (k.setEstado h e).idDe d = k.idDe d :=
  idDe_modTcb rfl d

theorem Despierta.idDe {h : Dir} {bs : List Dir} (hd : Despierta h k bs k') (d : Dir) :
    k'.idDe d = k.idDe d :=
  Prod.ext (hd.pid d).1 (hd.pid d).2

/-- The end of threads starts none. -/
theorem Envia.mismosHilos (h : Envia Paquete.EsFinalizarHilo k k') :
    hilosDe k'.enviados = hilosDe k.enviados := by
  obtain ⟨ps, hps, hhilos, -⟩ := Arranque.Envia.sin_pedidos h
  rw [hps, Arranque.hilosDe_append, hhilos, List.append_nil]

theorem finalizarHilo_sinCrear {h : Dir} (hr : (finalizarHilo ent h).run k = .ok () k') :
    SinCrear ent k k' := by
  have htabla := finalizarHilo_tabla hr
  have hcreados := (finalizarHilo_envia hr).mismosHilos
  rcases finalizarHilo_ok hr with
    ⟨-, m, vs, rfl⟩ | ⟨bs, p, ms, tids, k₁, m, vs, -, -, hd, -, hlib, rfl⟩
  · exact .de_tabla htabla hcreados rfl (idDe_setEstado h .exit)
  · refine ⟨htabla, hcreados, List.subset_cons_self _ _, fun d => ?_⟩
    have hid : k₁.idDe d = k.idDe d := (hd.idDe d).trans (idDe_setEstado h .exit d)
    by_cases hdh : d = h
    · subst hdh
      refine .inr ⟨hlib, List.mem_cons_self, k₁.tcbs d, hid, ?_⟩
      show (k₁.modTcb d ent.residuo).idDe d = _
      simp [Estado.idDe, Estado.modTcb, TCB.id]
    · refine .inl ?_
      show (k₁.modTcb h ent.residuo).idDe d = _
      rw [← hid]
      simp [Estado.idDe, Estado.modTcb, hdh]

theorem finalizarTodos_sinCrear {p : Dir} {hs : List Dir}
    (hr : (each (finalizarSiEsDe ent p) hs).run k = .ok () k') : SinCrear ent k k' := by
  have hrefl : SinCrear ent k k :=
    .de_tabla (.de_pcbs rfl rfl rfl rfl (Nat.le_refl _) rfl) rfl rfl fun _ => rfl
  refine each_ok (I := fun _ s => SinCrear ent k s) hr hrefl ?_
  intro h rest s₁ s₂ _ hs₁ hh
  rcases finalizarSiEsDe_ok hh with ⟨-, rfl⟩ | ⟨-, hfin⟩
  · exact hs₁
  · exact hs₁.trans (finalizarHilo_sinCrear hfin)

theorem finalizarProceso_sinCrear {d : Option Dir} (hd : ∀ p, d = some p →
    k.buscarProceso (k.pcbs p).pid = some p) (hr : (finalizarProceso ent d).run k = .ok () k') :
    SinCrear ent k k' := by
  obtain ⟨p, hp, ⟨-, rfl⟩ | ⟨k₁, m, vs, m', vs', -, hloop, -, rfl⟩⟩ := finalizarProceso_ok hr
  · have htabla : MismaTabla k (k.avisarFinProceso p) :=
      .de_pcbs rfl rfl rfl rfl (Nat.le_refl _) rfl
    refine .de_tabla htabla ?_ rfl fun _ => rfl
    show hilosDe (k.enviados ++ [.finalizarProceso (k.pcbs p).pid]) = _
    rw [Arranque.hilosDe_append]
    exact List.append_nil _
  · have haviso : SinCrear ent k ((k.avisarFinProceso p).conCerrojo m vs) := by
      refine .de_tabla (.de_pcbs rfl rfl rfl rfl (Nat.le_refl _) rfl) ?_ rfl fun _ => rfl
      show hilosDe (k.enviados ++ [.finalizarProceso (k.pcbs p).pid]) = _
      rw [Arranque.hilosDe_append]
      exact List.append_nil _
    have h₁ := haviso.trans (finalizarTodos_sinCrear hloop)
    have hp₁ : k₁.buscarProceso (k₁.pcbs p).pid = some p := by
      rw [h₁.tabla.buscarProceso, h₁.tabla.pidDe]
      exact hd p hp
    refine h₁.trans (.de_tabla (cerrarProceso_tabla hp₁ m' vs') ?_ rfl fun _ => rfl)
    show hilosDe (k₁.enviados ++ [.asignarMemoria _ _]) = _
    rw [Arranque.hilosDe_append]
    exact List.append_nil _

/-! ## Steps that create -/

/-- A process gets into `cola_new`. -/
def Paso.creaProceso : Paso → Bool
  | .syscall (.processCreate _) => true
  | _ => false

/-- Memoria has space for a process, and one leaves `cola_new`. -/
def Paso.confirmaProceso : Paso → Bool
  | .memoria (.confirmarEspacioProceso d) => d.bitConfirmacion = 1
  | _ => false

/-- The thread at `h` is new, and its identity is `id`. -/
structure NaceHilo (k : Estado) (h : Dir) (id : Uint32 × Uint32) (k' : Estado) : Prop where
  fresco : k.proximo ≤ h
  proximo : h < k'.proximo
  hilos : k'.listaTcbs = k.listaTcbs ++ [h]
  propia : k'.idDe h = id
  otras : ∀ d, d ≠ h → k'.idDe d = k.idDe d
  creados : hilosDe k'.enviados = hilosDe k.enviados ++ [id]
  liberados : k'.liberados = k.liberados
  pid : k'.pid = k.pid
  procesos : k'.listaProcesos = k.listaProcesos
  pidDe : ∀ p, (k'.pcbs p).pid = (k.pcbs p).pid
  listas : ∀ p, (k'.pcbs p).listaTid = none ↔ (k.pcbs p).listaTid = none

/-- What a step does to the identities. -/
inductive Crea (ent : Entorno) (k : Estado) : Paso → Estado → Prop where
  | proceso {d : TProcessCreate} {k' : Estado} (h : NuevoProceso k k.proximo k')
    (hlista : (k'.pcbs k.proximo).listaTid ≠ none)
    (hcreados : hilosDe k'.enviados = hilosDe k.enviados) (hlib : k'.liberados = k.liberados)
    (hid : ∀ d, k'.idDe d = k.idDe d) : Crea ent k (.syscall (.processCreate d)) k'
  | principal {d : TAsignoMemoria} {k' : Estado} {q h : Dir} {resto : List Dir}
    (hbit : d.bitConfirmacion = 1) (hq : k.colaNew = q :: resto) (hnew : k'.colaNew = resto)
    (h : NaceHilo k h ((k.pcbs q).pid, (k.pcbs q).tidContador) k')
    (hcont : ∀ p, (k'.pcbs p).tidContador = (k.pcbs p).tidContador) :
    Crea ent k (.memoria (.confirmarEspacioProceso d)) k'
  | hilo {d : TThreadCreate} {k' : Estado} {p h : Dir} (hp : k.buscarProceso d.PID = some p)
    (hlista : (k.pcbs p).listaTid ≠ none) (hnew : k'.colaNew = k.colaNew)
    (h : NaceHilo k h (d.PID, (k.pcbs p).tidContador + 1) k')
    (hcont : (k'.pcbs p).tidContador = (k.pcbs p).tidContador + 1 + 1)
    (hotros : ∀ q, q ≠ p → (k'.pcbs q).tidContador = (k.pcbs q).tidContador) :
    Crea ent k (.syscall (.threadCreate d)) k'
  | nada {p : Paso} {k' : Estado} (hproceso : p.creaProceso = false)
    (hconfirma : p.confirmaProceso = false)
    (hhilo : ∀ d, p = .syscall (.threadCreate d) → k.buscarProceso d.PID = none)
    (h : SinCrear ent k k') : Crea ent k p k'

/-- The TCB that `nuevoHilo` writes, among the others. -/
theorem idDe_nuevoHilo (h : Dir) (pid tid : Uint32) (prioridad : CInt) (path : Cadena) (d : Dir) :
    (k.nuevoHilo h pid tid prioridad path).idDe d = if d = h then (pid, tid) else k.idDe d := by
  unfold Estado.idDe Estado.nuevoHilo
  by_cases hd : d = h
  · subst hd
    simp
  · simp [hd]

theorem crearHilo_crea {d : TAsignoMemoria} (hbit : d.bitConfirmacion = 1)
    (hr : (crearHilo d.pid).run k = .ok () k₁) :
    Crea ent k (.memoria (.confirmarEspacioProceso d)) k₁.postPlaniLargoPlazo := by
  obtain ⟨p, q, resto, tids, m, vs, hp, hq, ht, rfl⟩ := crearHilo_ok hr
  have hid := idDe_nuevoHilo (k := k.modPcb p fun r =>
    { r with listaTid := some (tids ++ [.bloque k.proximo]) }) (k.proximo + 1) (k.pcbs q).pid
    (k.pcbs q).tidContador (k.pcbs q).prioridadMain (k.pcbs q).pathMain
  refine .principal hbit hq rfl
    { fresco := Nat.le_succ _
      proximo := Nat.lt_succ_self _
      hilos := rfl
      propia := (hid _).trans (if_pos rfl)
      otras := fun d hd => (hid d).trans (if_neg hd)
      creados := Arranque.hilosDe_append _ _
      liberados := rfl
      pid := rfl
      procesos := rfl
      pidDe := fun r => ?_
      listas := fun r => ?_ } fun r => ?_
  · show ((k.modPcb p fun r => { r with
      listaTid := some (tids ++ [.bloque k.proximo]) }).pcbs r).pid = _
    rw [modPcb_listaTid]
  · show ((k.modPcb p fun r => { r with
      listaTid := some (tids ++ [.bloque k.proximo]) }).pcbs r).listaTid = none ↔ _
    rw [modPcb_listaTid]
    by_cases hrp : r = p
    · subst hrp
      simp [ht]
    · simp [hrp]
  · show ((k.modPcb p fun r => { r with
      listaTid := some (tids ++ [.bloque k.proximo]) }).pcbs r).tidContador = _
    rw [modPcb_listaTid]

theorem threadCreate_crea {d : TThreadCreate} (hr : (threadCreate d).run k = .ok () k') :
    Crea ent k (.syscall (.threadCreate d)) k' := by
  rcases threadCreate_ok hr with ⟨hno, m, vs, rfl⟩ | ⟨p, tids, m, vs, hp, ht, rfl⟩
  · refine .nada rfl rfl (fun d' hd => ?_) (.de_tabla ?_ rfl rfl fun _ => rfl)
    · cases hd
      exact hno
    · exact .de_pcbs rfl rfl rfl rfl (Nat.le_refl _) rfl
  have hid := idDe_nuevoHilo (k := k.modPcb p fun q => { q with
    tidContador := q.tidContador + 1 + 1
    listaTid := some (tids ++ [.bloque k.proximo]) }) (k.proximo + 1) d.PID
    ((k.pcbs p).tidContador + 1) d.prioridadH d.nombreArchT
  have hpcb : ∀ r, (k.modPcb p fun q => { q with
      tidContador := q.tidContador + 1 + 1
      listaTid := some (tids ++ [.bloque k.proximo]) }).pcbs r =
      if r = p then { k.pcbs p with
        tidContador := (k.pcbs p).tidContador + 1 + 1
        listaTid := some (tids ++ [.bloque k.proximo]) } else k.pcbs r := by
    intro r
    unfold Estado.modPcb
    exact Function.update_apply _ _ _ _
  refine .hilo hp (ht ▸ Option.some_ne_none tids) rfl
    { fresco := Nat.le_succ _
      proximo := Nat.lt_succ_self _
      hilos := rfl
      propia := (hid _).trans (if_pos rfl)
      otras := fun r hr => (hid r).trans (if_neg hr)
      creados := Arranque.hilosDe_append _ _
      liberados := rfl
      pid := rfl
      procesos := rfl
      pidDe := fun r => ?_
      listas := fun r => ?_ } ?_ fun r hr => ?_
  · refine (congrArg PCB.pid (hpcb r)).trans ?_
    split
    · next hrp => rw [hrp]
    · rfl
  · refine (Eq.congr_left (congrArg PCB.listaTid (hpcb r))).trans ?_
    split
    · next hrp => simp [hrp, ht]
    · rfl
  · exact (congrArg PCB.tidContador (hpcb p)).trans (by rw [if_pos rfl])
  · exact (congrArg PCB.tidContador (hpcb r)).trans (by rw [if_neg hr])

/-- A syscall that writes to no PCB and sends no `HILO_READY`. -/
theorem SinCrear.de_pcbs (hpid : k'.pid = k.pid) (hproc : k'.listaProcesos = k.listaProcesos)
    (hnew : k'.colaNew = k.colaNew) (htcbs : k'.listaTcbs = k.listaTcbs)
    (hprox : k.proximo ≤ k'.proximo) (hpcbs : k'.pcbs = k.pcbs)
    (hcreados : hilosDe k'.enviados = hilosDe k.enviados) (hlib : k'.liberados = k.liberados)
    (hid : ∀ d, k'.idDe d = k.idDe d) : SinCrear ent k k' :=
  .de_tabla (.de_pcbs hpid hproc hnew htcbs hprox hpcbs) hcreados hlib hid

/-- A write to the mutexes of a process. -/
theorem mutex_sinCrear (p : Dir) (f : PCB → List TMutex) :
    SinCrear ent k (k.modPcb p fun q => { q with mutex := f q }) := by
  have hpcb : ∀ r, ((k.modPcb p fun q => { q with mutex := f q }).pcbs r).pid = (k.pcbs r).pid ∧
      ((k.modPcb p fun q => { q with mutex := f q }).pcbs r).tidContador =
        (k.pcbs r).tidContador ∧
      ((k.modPcb p fun q => { q with mutex := f q }).pcbs r).listaTid = (k.pcbs r).listaTid := by
    intro r
    unfold Estado.modPcb
    by_cases hr : r = p
    · subst hr
      simp
    · simp [hr]
  refine .de_tabla ⟨rfl, rfl, rfl, rfl, Nat.le_refl _, fun r => (hpcb r).1, fun r => ?_⟩ rfl rfl
    fun _ => rfl
  refine .inl ⟨(hpcb r).2.1, ?_⟩
  rw [(hpcb r).2.2]
  exact id

theorem setMutex_sinCrear (p : Dir) (i : Nat) (l : TMutex) : SinCrear ent k (k.setMutex p i l) :=
  mutex_sinCrear p _

/-- Another value and history of the lock. -/
theorem conCerrojo_sinCrear (m : Nat) (vs : List Nat) : SinCrear ent k (k.conCerrojo m vs) :=
  .de_pcbs rfl rfl rfl rfl (Nat.le_refl _) rfl rfl rfl fun _ => rfl

theorem encolar_sinCrear (h : Dir) : SinCrear ent k (k.encolar h) :=
  .de_pcbs rfl rfl rfl rfl (Nat.le_refl _) rfl rfl rfl (idDe_setEstado h .ready)

theorem bloquear_sinCrear (h : Dir) : SinCrear ent k (k.bloquear h) :=
  .de_pcbs rfl rfl rfl rfl (Nat.le_refl _) rfl rfl rfl (idDe_setEstado h .blocked)

theorem setTidQueLoBloqueo_sinCrear (h : Dir) (tid : Uint32) :
    SinCrear ent k (k.setTidQueLoBloqueo h tid) :=
  .de_pcbs rfl rfl rfl rfl (Nat.le_refl _) rfl rfl rfl (idDe_modTcb rfl)

/-- The syscalls that create no process and no thread. -/
theorem syscall_sinCrear {y : Syscall} (hproceso : ∀ d, y ≠ .processCreate d)
    (hhilo : ∀ d, y ≠ .threadCreate d) (hr : (kernelEscuchaCpuDispatch ent y).run k = .ok () k') :
    SinCrear ent k k' := by
  cases y with
  | processCreate d => exact absurd rfl (hproceso d)
  | processExit d =>
    rcases processExit_ok hr with ⟨-, rfl⟩ | ⟨-, m, vs, hfin⟩
    · exact .de_pcbs rfl rfl rfl rfl (Nat.le_refl _) rfl rfl rfl fun _ => rfl
    · refine (conCerrojo_sinCrear m vs).trans (finalizarProceso_sinCrear (fun p hp => ?_) hfin)
      have hpid : (k.pcbs p).pid = d.pidInv := pid_of_buscarProceso hp
      show k.buscarProceso (k.pcbs p).pid = some p
      rw [hpid]
      exact hp
  | threadCreate d => exact absurd rfl (hhilo d)
  | threadJoin d =>
    obtain ⟨h, m, vs, -, ⟨-, rfl⟩ | ⟨-, rfl⟩⟩ := threadJoin_ok hr
    · exact (encolar_sinCrear h).trans (conCerrojo_sinCrear m vs)
    · refine (setTidQueLoBloqueo_sinCrear h d.TID).trans ?_
      exact (bloquear_sinCrear h).trans (conCerrojo_sinCrear m vs)
  | threadCancel d =>
    rcases threadCancel_ok hr with ⟨-, m, vs, rfl⟩ | ⟨h, m, vs, -, -, hfin⟩
    · exact .de_pcbs rfl rfl rfl rfl (Nat.le_refl _) rfl rfl rfl fun _ => rfl
    · exact (conCerrojo_sinCrear m vs).trans (finalizarHilo_sinCrear hfin)
  | threadExit d =>
    rcases threadExit_ok hr with ⟨-, m, vs, rfl⟩ | ⟨h, m, vs, -, hfin⟩
    · exact .de_pcbs rfl rfl rfl rfl (Nat.le_refl _) rfl rfl rfl fun _ => rfl
    · exact (conCerrojo_sinCrear m vs).trans (finalizarHilo_sinCrear hfin)
  | mutexCreate d =>
    obtain ⟨p, m, vs, -, rfl⟩ := mutexCreate_ok hr
    exact (mutex_sinCrear p _).trans (conCerrojo_sinCrear m vs)
  | mutexLock d =>
    obtain ⟨p, i, l, m, vs, -, -, ⟨-, rfl⟩ | ⟨h, -, -, rfl⟩⟩ := mutexLock_ok hr
    · exact (mutex_sinCrear p _).trans (conCerrojo_sinCrear m vs)
    · refine (setMutex_sinCrear p i
        { l with bloqueadosMutex := l.bloqueadosMutex ++ [d.TID] }).trans ?_
      refine (setTidQueLoBloqueo_sinCrear h d.TID).trans ?_
      exact (bloquear_sinCrear h).trans (conCerrojo_sinCrear m vs)
  | mutexUnlock d =>
    obtain ⟨p, i, l, m, vs, -, -, hcaso⟩ := mutexUnlock_ok hr
    rcases hcaso with ⟨-, rfl⟩ | ⟨-, -, rfl⟩ | ⟨t, resto, -, -, ⟨-, rfl⟩ | ⟨h, -, rfl⟩⟩
    · exact conCerrojo_sinCrear m vs
    · exact (mutex_sinCrear p _).trans (conCerrojo_sinCrear m vs)
    · exact (mutex_sinCrear p _).trans (conCerrojo_sinCrear m vs)
    · refine (setMutex_sinCrear p i { l with tid := t, bloqueadosMutex := resto }).trans ?_
      exact (encolar_sinCrear h).trans (conCerrojo_sinCrear m vs)
  | dumpMemory d =>
    obtain ⟨h, m, vs, -, rfl⟩ := dumpMemory_ok hr
    refine .de_pcbs rfl rfl rfl rfl (Nat.le_refl _) rfl ?_ rfl (idDe_setEstado h .blocked)
    exact (Arranque.hilosDe_append _ _).trans (List.append_nil _)
  | io d =>
    rcases io_ok hr with ⟨-, m, vs, rfl⟩ | ⟨h, m, vs, -, rfl⟩
    · exact .de_pcbs rfl rfl rfl rfl (Nat.le_refl _) rfl rfl rfl fun _ => rfl
    · exact .de_pcbs rfl rfl rfl rfl (Nat.le_refl _) rfl rfl rfl (idDe_setEstado h .ready)

/-- **The inversion of all steps.** -/
theorem paso_crea {p : Paso} {o : List Paquete} (h : paso ent k p = .ok (k', o)) :
    Crea ent k p k' := by
  have hr := paso_ok h
  cases p with
  | syscall y =>
    by_cases hproceso : ∃ d, y = .processCreate d
    · obtain ⟨d, rfl⟩ := hproceso
      have hn := crearProceso_nuevo hr
      obtain ⟨m, vs, rfl⟩ := crearProceso_ok hr
      refine .proceso hn.2 ?_ rfl rfl fun _ => rfl
      simp
    by_cases hhilo : ∃ d, y = .threadCreate d
    · obtain ⟨d, rfl⟩ := hhilo
      exact threadCreate_crea hr
    refine .nada ?_ rfl (fun d hd => absurd ⟨d, Paso.syscall.inj hd⟩ hhilo)
      (syscall_sinCrear (fun d hd => hproceso ⟨d, hd⟩) (fun d hd => hhilo ⟨d, hd⟩) hr)
    cases y with
    | processCreate d => exact absurd ⟨d, rfl⟩ hproceso
    | _ => rfl
  | memoria m =>
    cases m with
    | confirmarEspacioProceso d =>
      rcases confirmarEspacioProceso_ok hr with ⟨hbit, rfl⟩ | ⟨k₁, hbit, hc, rfl⟩
      · refine .nada rfl (decide_eq_false hbit) (fun _ hd => Paso.noConfusion hd) ?_
        exact .de_pcbs rfl rfl rfl rfl (Nat.le_refl _) rfl rfl rfl fun _ => rfl
      · exact crearHilo_crea hbit hc
    | confirmarCreacionHilo d =>
      refine .nada rfl rfl (fun _ hd => Paso.noConfusion hd) ?_
      rcases confirmarCreacionHilo_ok hr with ⟨-, rfl⟩ | ⟨-, -, rfl⟩ | ⟨h, m, vs, -, -, rfl⟩
      · exact conCerrojo_sinCrear _ _
      · exact .de_pcbs rfl rfl rfl rfl (Nat.le_refl _) rfl rfl rfl fun _ => rfl
      · exact .de_pcbs rfl rfl rfl rfl (Nat.le_refl _) rfl rfl rfl fun _ => rfl
    | confirmarDumpMemory =>
      obtain ⟨-, rfl⟩ := pure_ok.mp hr
      refine .nada rfl rfl (fun _ hd => Paso.noConfusion hd) ?_
      exact .de_pcbs rfl rfl rfl rfl (Nat.le_refl _) rfl rfl rfl fun _ => rfl
  | cortoPlazo =>
    refine .nada rfl rfl (fun _ hd => Paso.noConfusion hd) ?_
    obtain ⟨-, ⟨-, rfl⟩ | ⟨i, d, m, vs, -, rfl⟩⟩ := planificadorCortoPlazo_ok hr
    · exact .de_pcbs rfl rfl rfl rfl (Nat.le_refl _) rfl rfl rfl fun _ => rfl
    · refine .de_pcbs rfl rfl rfl rfl (Nat.le_refl _) rfl ?_ rfl (idDe_setEstado d .exec)
      exact (Arranque.hilosDe_append _ _).trans (List.append_nil _)
  | largoPlazo =>
    refine .nada rfl rfl (fun _ hd => Paso.noConfusion hd) ?_
    obtain ⟨-, rfl⟩ := planificadorDeLargoPlazo_ok hr
    refine .de_pcbs rfl rfl rfl rfl (Nat.le_succ _) rfl ?_ rfl fun _ => rfl
    exact (Arranque.hilosDe_append _ _).trans (List.append_nil _)

end LastOfC.Kernel
