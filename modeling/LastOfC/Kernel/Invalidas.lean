import LastOfC.Kernel.Finales

/-!
# Invalid syscalls

A syscall is invalid if it names a process, a thread or a mutex that the kernel does not have. It is
harmless if its handler reads nothing through `NULL` and leaves the PCBs, the TCBs and the lists as
they are. `invalidas_iff` says of each invalid syscall, in every state, exactly when it is.

* `Inofensivo k x s` is about the rest `x` of a handler that runs from `s`. It is rewritten by each
  statement that returns (`inofensivo_bind`), search by search (`inofensivo_buscarTcbs`).
* Each handler has one theorem (`processExit_inofensivo` and so on), which also holds where the
  syscall is valid.
* A handler that waits on `mutex` for ever does nothing. Of the others, `THREAD_CREATE`,
  `THREAD_CANCEL`, `THREAD_EXIT` and `IO` leave after the search that failed. The rest go on.
-/

namespace LastOfC.Kernel

open Imp KeyedList Trace

variable {α : Type} {ent : Entorno} {k s s' : Estado} {pid tid : Uint32} {y : Syscall}

/-! ## Harmless runs -/

/-- The PCBs, with their mutexes, the TCBs and the lists of `s` are those of `k`. -/
structure Estado.Intacto (k s : Estado) : Prop where
  tcbs : s.tcbs = k.tcbs
  pcbs : s.pcbs = k.pcbs
  listaProcesos : s.listaProcesos = k.listaProcesos
  listaTcbs : s.listaTcbs = k.listaTcbs
  listaReady : s.listaReady = k.listaReady
  listaBlocked : s.listaBlocked = k.listaBlocked
  listaExit : s.listaExit = k.listaExit
  colaNew : s.colaNew = k.colaNew
  colaExec : s.colaExec = k.colaExec

/-- The run of `x` from `s` reads nothing through `NULL`, and leaves, also where it stops, what `k`
has. -/
def Inofensivo (k : Estado) (x : Op Unit) (s : Estado) : Prop :=
  (∀ s', x.run s ≠ .error .punteroNulo s') ∧ k.Intacto (final x s)

/-- A syscall that is harmless in the state `k`. -/
def Inofensiva (ent : Entorno) (k : Estado) (y : Syscall) : Prop :=
  Inofensivo k (kernelEscuchaCpuDispatch ent y) k

theorem inofensivo_bind {x : Op α} {f : α → Op Unit} {a : α} (h : x.run s = .ok a s') :
    Inofensivo k (x >>= f) s ↔ Inofensivo k (f a) s' := by
  unfold Inofensivo
  rw [bind_run h, final_bind h]

theorem inofensivo_congr {x z : Op Unit} (h : x.run s = z.run s') :
    Inofensivo k x s ↔ Inofensivo k z s' := by
  unfold Inofensivo final
  rw [h]

theorem inofensivo_ok {x : Op Unit} (h : x.run s = .ok () s') :
    Inofensivo k x s ↔ k.Intacto s' := by
  unfold Inofensivo
  rw [h, final_of_ok h]
  exact and_iff_right fun _ hno => by cases hno

theorem inofensivo_error {x : Op Unit} {e : Falla} (h : x.run s = .error e s') :
    Inofensivo k x s ↔ e ≠ .punteroNulo ∧ k.Intacto s' := by
  unfold Inofensivo
  rw [h, final_of_error h]
  refine and_congr_left fun _ => ⟨fun hno he => hno s' (he ▸ rfl), fun hno t ht => hno ?_⟩
  cases ht
  rfl

theorem Inofensivo.intacto {x : Op Unit} (h : Inofensivo k x s) : k.Intacto (final x s) := h.2

theorem inofensivo_modify {g : Estado → Estado} {f : Unit → Op Unit} :
    Inofensivo k ((modify g : Op Unit) >>= f) s ↔ Inofensivo k (f ()) (g s) :=
  inofensivo_bind (modify_run g)

/-- A `NULL` that is read. -/
theorem not_inofensivo_desref {f : Dir → Op Unit} : ¬ Inofensivo k (desref none >>= f) s :=
  fun h => h.1 s rfl

theorem inofensivo_desref {f : Dir → Op Unit} {p : Dir} :
    Inofensivo k (desref (some p) >>= f) s ↔ Inofensivo k (f p) s :=
  inofensivo_bind (desref_run p)

theorem Estado.Intacto.refl (k : Estado) : k.Intacto k :=
  ⟨rfl, rfl, rfl, rfl, rfl, rfl, rfl, rfl, rfl⟩

theorem Estado.Intacto.trasCerrojo (h : k.Intacto s) : k.Intacto s.trasCerrojo := { h with }

theorem intacto_trasCerrojo : k.Intacto k.trasCerrojo := (Estado.Intacto.refl k).trasCerrojo

theorem Estado.Intacto.trasEnvio (h : k.Intacto s) (q : Paquete) :
    k.Intacto { s with enviados := s.enviados ++ [q] } := { h with }

/-- A part under the lock, before a handler has changed anything: it waits for ever, or the handler
goes on. -/
theorem inofensivo_conMutex {x : Op α} {f : α → Op Unit} {a : α} (hs : k.Intacto s)
    (hx : 0 < s.mutex → (conMutex x).run s = .ok a s') :
    Inofensivo k (conMutex x >>= f) s ↔ s.mutex = 0 ∨ Inofensivo k (f a) s' := by
  rcases Nat.eq_zero_or_pos s.mutex with hcero | hpos
  · have hespera := bind_error (f := f) (conMutex_espera x hcero)
    exact iff_of_true ((inofensivo_error hespera).mpr ⟨by decide, hs⟩) (.inl hcero)
  · rw [inofensivo_bind (hx hpos), or_iff_right (Nat.ne_of_gt hpos)]

theorem inofensivo_buscarTcbs {f : Option Dir → Op Unit} (hs : k.Intacto s) :
    Inofensivo k (conMutex (leer (·.buscarTcbs tid pid)) >>= f) s ↔
      s.mutex = 0 ∨ Inofensivo k (f (s.buscarTcbs tid pid)) s.trasCerrojo :=
  inofensivo_conMutex hs buscarTcbs_run

theorem inofensivo_buscarProceso {f : Option Dir → Op Unit} (hs : k.Intacto s) :
    Inofensivo k (conMutex (leer (·.buscarProceso pid)) >>= f) s ↔
      s.mutex = 0 ∨ Inofensivo k (f (s.buscarProceso pid)) s.trasCerrojo :=
  inofensivo_conMutex hs buscarProceso_run

/-! ## What does harm -/

section Escrituras

variable (s) (h p : Dir) (i : Nat) (f : TCB → TCB) (e : EstadoProcesoHilo) (m : TMutex)

@[simp] theorem modTcb_mutex : (s.modTcb h f).mutex = s.mutex := rfl
@[simp] theorem modTcb_listaBlocked : (s.modTcb h f).listaBlocked = s.listaBlocked := rfl
@[simp] theorem setEstado_mutex : (s.setEstado h e).mutex = s.mutex := rfl
@[simp] theorem setEstado_listaReady : (s.setEstado h e).listaReady = s.listaReady := rfl
@[simp] theorem setEstado_listaBlocked : (s.setEstado h e).listaBlocked = s.listaBlocked := rfl
@[simp] theorem setMutex_mutex : (s.setMutex p i m).mutex = s.mutex := rfl
@[simp] theorem setMutex_listaReady : (s.setMutex p i m).listaReady = s.listaReady := rfl
@[simp] theorem setMutex_listaBlocked : (s.setMutex p i m).listaBlocked = s.listaBlocked := rfl
@[simp] theorem trasCerrojo_mutex : s.trasCerrojo.mutex = s.mutex := rfl
@[simp] theorem trasCerrojo_listaReady : s.trasCerrojo.listaReady = s.listaReady := rfl
@[simp] theorem trasCerrojo_listaBlocked : s.trasCerrojo.listaBlocked = s.listaBlocked := rfl
@[simp] theorem agregarReady_listaReady :
    (s.agregarReady h).listaReady = s.listaReady ++ [h] := rfl
@[simp] theorem agregarBlocked_listaBlocked :
    (s.agregarBlocked h).listaBlocked = s.listaBlocked ++ [h] := rfl
@[simp] theorem agregarBlocked_listaReady : (s.agregarBlocked h).listaReady = s.listaReady := rfl

end Escrituras

/-- The handler blocks a thread at its end. -/
theorem Inofensivo.no_bloquea {h : Dir}
    (hno : Inofensivo k (conMutex (modify (·.agregarBlocked h))) s) (hs : 0 < s.mutex)
    (hl : s.listaBlocked = k.listaBlocked) : False := by
  have hlista := ((inofensivo_ok (agregarBlocked_run hs)).mp hno).listaBlocked
  rw [← hl] at hlista
  simp at hlista

/-- `finalizar_hilo` puts a thread into `lista_exit`. -/
theorem Inofensivo.no_finaliza {h : Dir} (hno : Inofensivo k (finalizarHilo ent h) s)
    (hs : 0 < s.mutex) (hl : s.listaExit = k.listaExit) : False := by
  have hlista := finalizarHilo_listaExit ent h hs
  rw [hno.intacto.listaExit, hl] at hlista
  simp at hlista

/-! ## The handlers -/

/-- A handler that looks a thread up, and leaves if there is none. -/
theorem inofensivo_hallado {f : Option Dir → Op Unit} {Q : Option Dir → Prop}
    (hnada : f none = pure ()) (hQ : Q none)
    (hhallado : ∀ h, 0 < k.trasCerrojo.mutex →
      (Inofensivo k (f (some h)) k.trasCerrojo ↔ Q (some h))) :
    Inofensivo k (conMutex (leer (·.buscarTcbs tid pid)) >>= f) k ↔
      k.mutex = 0 ∨ Q (k.buscarTcbs tid pid) := by
  rw [inofensivo_buscarTcbs (.refl k)]
  refine or_congr_right' fun hk => ?_
  cases k.buscarTcbs tid pid with
  | none =>
    rw [hnada]
    exact iff_of_true ((inofensivo_ok rfl).mpr intacto_trasCerrojo) hQ
  | some h => exact hhallado h (Nat.pos_of_ne_zero hk)

theorem threadExit_inofensivo (d : TDatosEsenciales) : Inofensivo k (threadExit ent d) k ↔
    k.mutex = 0 ∨ k.buscarTcbs d.tidInv d.pidInv = none := by
  unfold threadExit
  refine inofensivo_hallado (Q := (· = none)) rfl rfl fun h hpos => ?_
  exact iff_of_false (fun hno => hno.no_finaliza hpos rfl) nofun

theorem threadCancel_inofensivo (d : TThreadJoinYCancel) : Inofensivo k (threadCancel ent d) k ↔
    k.mutex = 0 ∨ k.terminado (k.buscarTcbs d.TID d.PID) = true := by
  unfold threadCancel
  refine inofensivo_hallado (Q := fun o => k.terminado o = true) rfl rfl fun h hpos => ?_
  show Inofensivo k (leer (·.tcbs h) >>= _) k.trasCerrojo ↔ _
  rw [inofensivo_bind (leer_run _)]
  by_cases hexit : (k.tcbs h).estadoHilo = .exit
  · have hexit' : (k.trasCerrojo.tcbs h).estadoHilo = .exit := hexit
    rw [if_pos hexit']
    exact iff_of_true ((inofensivo_ok rfl).mpr intacto_trasCerrojo) (decide_eq_true hexit)
  · have hexit' : (k.trasCerrojo.tcbs h).estadoHilo ≠ .exit := hexit
    rw [if_neg hexit']
    exact iff_of_false (fun hno => hno.no_finaliza hpos rfl) fun hno =>
      hexit (of_decide_eq_true hno)

/-- `MUTEX_CREATE` adds a mutex to the PCB, or reads the PCB through `NULL`. -/
theorem mutexCreate_inofensivo (d : TMutexTodos) :
    Inofensivo k (mutexCreate d) k ↔ k.mutex = 0 := by
  unfold mutexCreate
  rw [inofensivo_buscarProceso (.refl k)]
  refine or_iff_left ?_
  cases hp : k.buscarProceso d.PID with
  | none => exact not_inofensivo_desref
  | some p =>
    rw [inofensivo_desref, inofensivo_ok (modify_run _)]
    intro h
    have hmutex := congrArg (fun pcbs => (pcbs p).mutex) h.pcbs
    simp [Estado.modPcb, Estado.trasCerrojo, Estado.conCerrojo] at hmutex

/-- `THREAD_JOIN` puts its caller into `lista_ready` or `lista_blocked`, or reads its TCB through
`NULL`. -/
theorem threadJoin_inofensivo (d : TThreadJoinYCancel) :
    Inofensivo k (threadJoin d) k ↔ k.mutex = 0 := by
  unfold threadJoin
  rw [inofensivo_buscarTcbs (.refl k)]
  refine or_iff_left_of_imp fun hno => ?_
  by_contra hk
  have hpos : 0 < k.trasCerrojo.mutex := Nat.pos_of_ne_zero hk
  rw [inofensivo_bind (buscarTcbs_run hpos), inofensivo_bind get_run] at hno
  cases hb : k.buscarTcbs d.TID d.PID with
  | none =>
    rw [hb] at hno
    split at hno
    · exact not_inofensivo_desref hno
    · exact not_inofensivo_desref hno
  | some h =>
    rw [hb] at hno
    split at hno
    · rw [inofensivo_desref, inofensivo_modify, inofensivo_ok (modify_run _)] at hno
      simpa using hno.listaReady
    · rw [inofensivo_desref, inofensivo_modify, inofensivo_modify] at hno
      exact hno.no_bloquea (by simpa using hpos) (by simp)

/-- `DUMP_MEMORY` blocks its caller, or reads its TCB through `NULL`. -/
theorem dumpMemory_inofensivo (d : TDatosEsenciales) :
    Inofensivo k (dumpMemory d) k ↔ k.mutex = 0 := by
  have henvio : (enviarPaquete (.dumpMemory d)).run k =
      .ok () { k with enviados := k.enviados ++ [.dumpMemory d] } := rfl
  have hs := (Estado.Intacto.refl k).trasEnvio (.dumpMemory d)
  unfold dumpMemory
  rw [inofensivo_bind henvio, inofensivo_buscarTcbs hs]
  refine or_iff_left_of_imp fun hno => ?_
  by_contra hk
  have hpos : 0 < k.mutex := Nat.pos_of_ne_zero hk
  cases hb : Estado.buscarTcbs { k with enviados := k.enviados ++ [.dumpMemory d] }
      d.tidInv d.pidInv with
  | none =>
    rw [hb] at hno
    exact not_inofensivo_desref hno
  | some h =>
    rw [hb, inofensivo_desref, inofensivo_modify] at hno
    exact hno.no_bloquea (by simpa using hpos) (by simp)

/-- `IO` puts its caller into `lista_ready`, if it finds it. -/
theorem io_inofensivo (d : TIO) : Inofensivo k (io d) k ↔
    k.mutex = 0 ∨ k.buscarTcbs d.TID d.PID = none := by
  unfold io
  refine inofensivo_hallado (Q := (· = none)) rfl rfl fun h hpos => ?_
  refine iff_of_false (fun hno => ?_) nofun
  have hpos' : 0 < (k.trasCerrojo.setEstado h .blocked).mutex := hpos
  rw [inofensivo_modify, inofensivo_bind (agregarBlocked_run hpos'), inofensivo_modify,
    inofensivo_modify, inofensivo_ok (modify_run _)] at hno
  simpa using hno.listaReady

/-- A write to a mutex does no harm only if it writes what is there. -/
theorem intacto_setMutex_iff {p : Dir} {i : Nat} {m m' : TMutex} (hs : k.Intacto s)
    (hi : (k.pcbs p).mutex[i]? = some m) : k.Intacto (s.setMutex p i m') ↔ m' = m := by
  obtain ⟨hlt, hget⟩ := List.getElem?_eq_some_iff.mp hi
  have hpcbs : (s.setMutex p i m').pcbs =
      Function.update k.pcbs p { k.pcbs p with mutex := (k.pcbs p).mutex.set i m' } := by
    unfold Estado.setMutex Estado.modPcb
    rw [hs.pcbs]
  constructor
  · intro h
    have hmutex := congrArg (fun pcbs => (pcbs p).mutex[i]?) (hpcbs.symm.trans h.pcbs)
    simpa [hlt, hget] using hmutex
  · rintro rfl
    have hset : (k.pcbs p).mutex.set i m' = (k.pcbs p).mutex := by
      rw [← hget]
      exact List.set_getElem_self hlt
    have hmismo : (s.setMutex p i m').pcbs = k.pcbs := by
      rw [hpcbs, hset]
      exact Function.update_eq_self p k.pcbs
    exact { hs with pcbs := hmismo }

theorem mutexDe_of_buscar {d : TMutexTodos} {p : Dir} (hp : k.buscarProceso d.PID = some p) :
    k.mutexDe d = (buscarMutex (k.pcbs p).mutex d.recurso).map Prod.snd := by
  unfold Estado.mutexDe
  rw [hp]
  rfl

/-- `MUTEX_LOCK` writes its caller into the mutex, as owner or as one that waits. -/
theorem mutexLock_inofensivo (d : TMutexTodos) : Inofensivo k (mutexLock d) k ↔
    k.mutex = 0 ∨ ∃ l, k.mutexDe d = some l ∧ l.tid = sinHilo ∧ d.TID = sinHilo := by
  unfold mutexLock
  rw [inofensivo_buscarProceso (.refl k)]
  refine or_congr_right' fun hk => ?_
  have hpos : 0 < k.trasCerrojo.mutex := Nat.pos_of_ne_zero hk
  have hs := (Estado.Intacto.refl k).trasCerrojo.trasCerrojo
  rw [inofensivo_bind (buscarTcbs_run hpos)]
  cases hp : k.buscarProceso d.PID with
  | none => exact iff_of_false not_inofensivo_desref (by simp [Estado.mutexDe, hp])
  | some p =>
    rw [inofensivo_desref, inofensivo_bind (leer_run _), mutexDe_of_buscar hp]
    cases hm : buscarMutex (k.pcbs p).mutex d.recurso with
    | none =>
      have hm' : buscarMutex (k.trasCerrojo.trasCerrojo.pcbs p).mutex d.recurso = none := hm
      simp only [hm', Option.map_none]
      exact iff_of_false (fun h => h.1 _ rfl) (by simp)
    | some il =>
      obtain ⟨i, l⟩ := il
      have hm' : buscarMutex (k.trasCerrojo.trasCerrojo.pcbs p).mutex d.recurso = some (i, l) := hm
      have hi := search_getElem? hm
      simp only [hm', Option.map_some, Option.some.injEq, exists_eq_left']
      by_cases htid : l.tid = sinHilo
      · rw [if_pos htid, inofensivo_ok (modify_run _), intacto_setMutex_iff hs hi]
        constructor
        · intro hl
          exact ⟨htid, (congrArg TMutex.tid hl).trans htid⟩
        · rintro ⟨-, hTID⟩
          rw [hTID, ← htid]
      · rw [if_neg htid, inofensivo_modify]
        refine iff_of_false (fun hno => ?_) fun h => htid h.1
        cases hb : k.buscarTcbs d.TID d.PID with
        | none =>
          have hb' : k.trasCerrojo.buscarTcbs d.TID d.PID = none := hb
          rw [hb'] at hno
          exact not_inofensivo_desref hno
        | some h =>
          have hb' : k.trasCerrojo.buscarTcbs d.TID d.PID = some h := hb
          rw [hb', inofensivo_desref, inofensivo_modify, inofensivo_modify] at hno
          exact hno.no_bloquea (by simpa using hpos) (by simp)

/-- `MUTEX_UNLOCK` by the owner takes the first tid out of the queue, or the owner. -/
theorem mutexUnlock_inofensivo (d : TMutexTodos) : Inofensivo k (mutexUnlock d) k ↔
    k.mutex = 0 ∨ ∃ l, k.mutexDe d = some l ∧
      (l.tid = d.TID → d.TID = sinHilo ∧ l.bloqueadosMutex = []) := by
  unfold mutexUnlock
  rw [inofensivo_buscarProceso (.refl k)]
  refine or_congr_right' fun hk => ?_
  have hpos : 0 < k.trasCerrojo.mutex := Nat.pos_of_ne_zero hk
  cases hp : k.buscarProceso d.PID with
  | none => exact iff_of_false not_inofensivo_desref (by simp [Estado.mutexDe, hp])
  | some p =>
    rw [inofensivo_desref, inofensivo_bind (leer_run _), mutexDe_of_buscar hp]
    cases hm : buscarMutex (k.pcbs p).mutex d.recurso with
    | none =>
      have hm' : buscarMutex (k.trasCerrojo.pcbs p).mutex d.recurso = none := hm
      simp only [hm', Option.map_none]
      exact iff_of_false (fun h => h.1 _ rfl) (by simp)
    | some il =>
      obtain ⟨i, l⟩ := il
      have hm' : buscarMutex (k.trasCerrojo.pcbs p).mutex d.recurso = some (i, l) := hm
      have hi := search_getElem? hm
      simp only [hm', Option.map_some, Option.some.injEq, exists_eq_left']
      by_cases htid : l.tid = d.TID
      · rw [if_pos htid, forall_prop_of_true htid]
        cases hcola : l.bloqueadosMutex with
        | nil =>
          show Inofensivo k (modify _) _ ↔ _
          rw [inofensivo_ok (modify_run _), intacto_setMutex_iff intacto_trasCerrojo hi]
          constructor
          · intro hl
            exact ⟨htid.symm.trans (congrArg TMutex.tid hl).symm, rfl⟩
          · rintro ⟨hTID, -⟩
            rw [← hTID, ← htid, ← hcola]
        | cons t resto =>
          refine iff_of_false (fun hno => ?_) fun h => List.cons_ne_nil t resto h.2
          have hpos' : 0 < (k.trasCerrojo.setMutex p i
            { l with bloqueadosMutex := resto }).mutex := hpos
          have hresto : ¬ k.Intacto (k.trasCerrojo.trasCerrojo.setMutex p i
              { l with bloqueadosMutex := resto }) := by
            rw [intacto_setMutex_iff intacto_trasCerrojo.trasCerrojo hi]
            intro hl
            have hcola' : resto = t :: resto := (congrArg TMutex.bloqueadosMutex hl).trans hcola
            simp at hcola'
          change Inofensivo k (modify _ >>= _) _ at hno
          rw [inofensivo_modify, inofensivo_bind (buscarTcbs_run hpos')] at hno
          split at hno
          · exact hresto ((inofensivo_ok rfl).mp hno)
          · rw [inofensivo_modify, inofensivo_bind (leer_run _), inofensivo_modify,
              inofensivo_ok (modify_run _)] at hno
            simpa using hno.listaReady
      · rw [if_neg htid]
        exact iff_of_true ((inofensivo_ok rfl).mpr intacto_trasCerrojo) fun h => absurd h htid

/-- `THREAD_CREATE` counts `tid_contador` up by two, also where it stops. -/
theorem threadCreateDe_tidContador (d : TThreadCreate) (p : Dir) :
    ((final (threadCreateDe d p) s).pcbs p).tidContador = (s.pcbs p).tidContador + 1 + 1 := by
  -- The rest of the handler does not write the counter.
  have hotro : ∀ f : Estado → Estado,
      (∀ t, ((f t).pcbs p).tidContador = (t.pcbs p).tidContador) →
      Keeps (fun t : Estado => (t.pcbs p).tidContador = (s.pcbs p).tidContador + 1 + 1)
        (modify f : Op Unit) :=
    fun f hf => Keeps.modify fun t ht => (hf t).trans ht
  unfold threadCreateDe
  rw [final_bind (modify_run _), final_bind (leer_run _), final_bind (modify_run _)]
  refine Keeps.final
    (I := fun t : Estado => (t.pcbs p).tidContador = (s.pcbs p).tidContador + 1 + 1) ?_ ?_
  · refine .bind (.bind (leer_keeps _) fun c => .bind (hotro _ fun _ => rfl) fun _ => .pure c)
      fun c => .bind (.bind (leer_keeps _) fun pcb => ?_) fun _ => ?_
    · cases pcb.listaTid with
      | none => exact .throw _
      | some tids => exact hotro _ fun t => by simp [Estado.modPcb]
    refine .bind (.bind (leer_keeps _) fun c => .bind (hotro _ fun _ => rfl) fun _ => .pure c)
      fun h => .bind (hotro _ fun _ => rfl) fun _ => .bind (hotro _ fun _ => rfl) fun _ => ?_
    exact .bind (hotro _ fun _ => rfl) fun _ => .bind (leer_keeps _) fun t => hotro _ fun _ => rfl
  · simp [Estado.modPcb]

theorem threadCreate_inofensivo (d : TThreadCreate) : Inofensivo k (threadCreate d) k ↔
    k.mutex = 0 ∨ k.buscarProceso d.PID = none := by
  rcases Nat.eq_zero_or_pos k.mutex with hcero | hpos
  · unfold threadCreate
    rw [inofensivo_buscarProceso (.refl k)]
    exact iff_of_true (.inl hcero) (.inl hcero)
  rw [or_iff_right (Nat.ne_of_gt hpos)]
  cases hp : k.buscarProceso d.PID with
  | none =>
    have hrun := threadCreate_run_none hpos hp
    exact iff_of_true ((inofensivo_ok hrun).mpr intacto_trasCerrojo) rfl
  | some p =>
    refine iff_of_false (fun hno => ?_) nofun
    have hfin : final (threadCreate d) k = final (threadCreateDe d p) k.trasCerrojo := by
      unfold final
      rw [threadCreate_run hpos hp]
    have hcontador := threadCreateDe_tidContador (s := k.trasCerrojo) d p
    rw [← hfin, hno.intacto.pcbs] at hcontador
    have hdos : (k.pcbs p).tidContador = (k.pcbs p).tidContador + 1 + 1 := hcontador
    bv_omega

/-! ### `PROCESS_EXIT` -/

/-- The first thread that `finalizar_proceso` ends. -/
def Estado.primerHilo (k : Estado) (q : Dir) : Option Dir :=
  k.listaTcbs.find? fun h => (k.tcbs h).pid = (k.pcbs q).pid

/-- `finalizar_proceso` does not get to change anything: it waits for ever in the first
`finalizar_hilo`, of a thread that is EXIT, or there is no thread and the `lista_tid` was
destroyed. -/
def Estado.NadaQueTerminar (k : Estado) (q : Dir) : Prop :=
  match k.primerHilo q with
  | some h => k.mutex = 1 ∧ (k.tcbs h).estadoHilo = .exit
  | none => (k.pcbs q).listaTid = none

/-- The loop of `finalizar_proceso` goes to the first thread of the process. -/
theorem finalizarTodos_primero (ent : Entorno) {q h : Dir} {hs : List Dir}
    (hh : (hs.find? fun e => (s.tcbs e).pid = (s.pcbs q).pid) = some h) :
    ∃ rest, (each (finalizarSiEsDe ent q) hs).run s =
      (finalizarHilo ent h >>= fun _ => each (finalizarSiEsDe ent q) rest).run s := by
  induction hs with
  | nil => cases hh
  | cons e hs ih =>
    have hcabeza : (each (finalizarSiEsDe ent q) (e :: hs)).run s =
        (finalizarSiEsDe ent q e >>= fun _ => each (finalizarSiEsDe ent q) hs).run s := rfl
    rw [hcabeza]
    by_cases hpid : (s.tcbs e).pid = (s.pcbs q).pid
    · rw [List.find?_cons_of_pos (by simpa using hpid)] at hh
      obtain rfl := Option.some.inj hh
      exact ⟨hs, bind_congr_run (finalizarSiEsDe_suyo ent hpid)⟩
    · rw [List.find?_cons_of_neg (by simpa using hpid)] at hh
      rw [bind_run (finalizarSiEsDe_otro hpid)]
      exact ih hh

/-- `lista_exit` got longer. -/
def MasExit (n : Nat) (s : Estado) : Prop := n < s.listaExit.length

theorem masExit_observa (n : Nat) : Observa (MasExit n) := by
  intro s t _ hexit hs
  unfold MasExit
  rw [hexit]
  exact hs

theorem masExit_trasEnvio (n : Nat) : TrasEnvio (fun _ => True) (MasExit n) := fun _ _ _ hs => hs

theorem finalizarHilo_masExit (ent : Entorno) (n : Nat) (h : Dir) :
    Keeps (MasExit n) (finalizarHilo ent h) := by
  have hX : TrasFin (MasExit n) :=
    fun s e hs => Nat.lt_of_lt_of_le hs (by simp [Estado.agregarExit])
  exact finalizarHilo_observa (masExit_observa n) (masExit_trasEnvio n) hX (fun _ => trivial) h

/-- `finalizar_proceso` puts its first thread into `lista_exit`, and nothing after that takes a
thread out of it. -/
theorem finalizarPrimero_masExit (ent : Entorno) (q h : Dir) (rest : List Dir)
    (hs : 0 < s.mutex) : MasExit s.listaExit.length (final
      ((finalizarHilo ent h >>= fun _ => each (finalizarSiEsDe ent q) rest) >>= fun _ =>
        semPostMutex >>= fun _ => cerrarPcb q >>= fun _ => iniciarProceso) s) := by
  have hI := masExit_observa s.listaExit.length
  have hprimero : MasExit s.listaExit.length (final (finalizarHilo ent h) s) := by
    unfold MasExit
    rw [finalizarHilo_listaExit ent h hs, List.length_append]
    exact Nat.lt_succ_self _
  refine Keeps.final_bind (fun _ => ?_) (Keeps.final_bind (fun _ => ?_) hprimero)
  · exact hI.semPost.bind fun _ => (cerrarPcb_observa hI q).bind fun _ =>
      iniciarProceso_observa hI (masExit_trasEnvio _) fun _ _ => trivial
  · exact Keeps.each fun e _ => Keeps.get.bind fun _ =>
      .ite (finalizarHilo_masExit ent _ e) (.pure ())

theorem intacto_setEstado_iff {h : Dir} {e : EstadoProcesoHilo} (hs : k.Intacto s) :
    k.Intacto (s.setEstado h e) ↔ (k.tcbs h).estadoHilo = e := by
  constructor
  · intro hi
    have hestado := congrArg (fun tcbs => (tcbs h).estadoHilo) hi.tcbs
    simpa [Estado.setEstado, Estado.modTcb] using hestado.symm
  · rintro rfl
    have htcbs : (s.setEstado h (k.tcbs h).estadoHilo).tcbs = k.tcbs := by
      unfold Estado.setEstado Estado.modTcb
      rw [hs.tcbs]
      exact Function.update_eq_self h k.tcbs
    exact { hs with tcbs := htcbs }

theorem cerrarPcb_destruida {q : Dir} (ht : (s.pcbs q).listaTid = none) :
    (cerrarPcb q).run s = .error .listaDestruida s := by
  unfold cerrarPcb
  rw [bind_run (leer_run _)]
  simp only [ht]
  rfl

theorem iniciarProceso_pcbs (s : Estado) : (final iniciarProceso s).pcbs = s.pcbs := rfl

/-- A process without threads: its PCB is closed, if it was not before. -/
theorem cierre_inofensivo {q : Dir} (hs : k.Intacto s) :
    Inofensivo k (cerrarPcb q >>= fun _ => iniciarProceso) s ↔ (k.pcbs q).listaTid = none := by
  rw [← hs.pcbs]
  cases ht : (s.pcbs q).listaTid with
  | none =>
    have hcae := bind_error (f := fun _ => iniciarProceso) (cerrarPcb_destruida ht)
    exact iff_of_true ((inofensivo_error hcae).mpr ⟨by decide, hs⟩) rfl
  | some tids =>
    rw [inofensivo_bind (cerrarPcb_run ht)]
    refine iff_of_false (fun hno => ?_) nofun
    have hpcbs := (iniciarProceso_pcbs _).symm.trans (hno.intacto.pcbs.trans hs.pcbs.symm)
    have hlista := congrArg (fun pcbs => (pcbs q).listaTid) hpcbs
    simp [Estado.modPcb, ht] at hlista

theorem finalizarHilosDe_inofensivo {q : Dir} (hpos : 0 < k.mutex) :
    Inofensivo k (finalizarHilosDe ent q) (k.trasCerrojo.avisarFinProceso q) ↔
      k.NadaQueTerminar q := by
  have hpos' : 0 < (k.trasCerrojo.avisarFinProceso q).mutex := hpos
  have hs : k.Intacto (k.enFinProceso q) := ⟨rfl, rfl, rfl, rfl, rfl, rfl, rfl, rfl, rfl⟩
  unfold finalizarHilosDe Estado.NadaQueTerminar
  rw [inofensivo_bind (semWaitMutex_run hpos'), inofensivo_bind (leer_run _)]
  change Inofensivo k (each _ k.listaTcbs >>= _) (k.enFinProceso q) ↔ _
  cases hh : k.primerHilo q with
  | none =>
    have hninguno : ∀ e ∈ k.listaTcbs, (k.tcbs e).pid ≠ (k.pcbs q).pid := by
      simpa [Estado.primerHilo] using hh
    have hloop : (each (finalizarSiEsDe ent q) k.listaTcbs).run (k.enFinProceso q) =
        .ok () (k.enFinProceso q) := finalizarTodos_ninguno hninguno
    rw [inofensivo_bind hloop]
    change Inofensivo k (modify _ >>= _) _ ↔ _
    rw [inofensivo_modify]
    exact cierre_inofensivo { hs with }
  | some h =>
    obtain ⟨rest, hloop⟩ : ∃ rest, (each (finalizarSiEsDe ent q) k.listaTcbs).run
        (k.enFinProceso q) = (finalizarHilo ent h >>= fun _ =>
          each (finalizarSiEsDe ent q) rest).run (k.enFinProceso q) :=
      finalizarTodos_primero ent hh
    rw [inofensivo_congr (bind_congr_run hloop)]
    by_cases huno : k.mutex = 1
    · have hcero : (k.enFinProceso q).mutex = 0 := by
        show k.mutex - 1 = 0
        omega
      rw [inofensivo_error (bind_error (bind_error (finalizarHilo_espera ent h hcero))),
        intacto_setEstado_iff hs]
      exact ⟨fun hno => ⟨huno, hno.2⟩, fun hno => ⟨by decide, hno.2⟩⟩
    · have hdos : 0 < (k.enFinProceso q).mutex := by
        show 0 < k.mutex - 1
        omega
      refine iff_of_false (fun hno => ?_) fun hno => huno hno.1
      have hmas := finalizarPrimero_masExit ent q h rest hdos
      exact absurd (congrArg List.length hno.intacto.listaExit) (Nat.ne_of_gt hmas)

theorem processExit_inofensivo (d : TDatosEsenciales) : Inofensivo k (processExit ent d) k ↔
    d.tidInv ≠ 0 ∨ k.mutex = 0 ∨ ∃ q, k.buscarProceso d.pidInv = some q ∧
      (ent.mensajeFinProceso ≠ ['O', 'K'] ∨ k.NadaQueTerminar q) := by
  unfold processExit
  by_cases htid : d.tidInv = 0
  · rw [if_pos htid, inofensivo_buscarProceso (.refl k), or_iff_right (not_not_intro htid)]
    refine or_congr_right' fun hk => ?_
    have hpos : 0 < k.mutex := Nat.pos_of_ne_zero hk
    cases hp : k.buscarProceso d.pidInv with
    | none => exact iff_of_false not_inofensivo_desref (by simp)
    | some q =>
      rw [inofensivo_congr (finalizarProceso_run q)]
      simp only [Option.some.injEq, exists_eq_left']
      by_cases hok : ent.mensajeFinProceso = ['O', 'K']
      · rw [if_pos hok, or_iff_right (not_not_intro hok)]
        exact finalizarHilosDe_inofensivo hpos
      · rw [if_neg hok]
        have hs := intacto_trasCerrojo (k := k).trasEnvio (.finalizarProceso (k.pcbs q).pid)
        exact iff_of_true ((inofensivo_ok rfl).mpr hs) (.inl hok)
  · rw [if_neg htid]
    exact iff_of_true ((inofensivo_ok rfl).mpr (.refl k)) (.inl htid)

/-! ## Invalid syscalls -/

/-- `lista_procesos` has no process `pid`, or `lista_tcbs` no thread `tid` of it. -/
def Estado.Desconoce (k : Estado) (pid tid : Uint32) : Prop :=
  k.buscarProceso pid = none ∨ k.buscarTcbs tid pid = none

/-- The syscall names a process, a thread or a mutex that the kernel does not have. -/
def Estado.Invalida (k : Estado) : Syscall → Prop
  | .processCreate _ => False
  | .processExit d | .threadExit d | .dumpMemory d => k.Desconoce d.pidInv d.tidInv
  | .threadCreate d => k.Desconoce d.PID d.TID
  | .threadJoin d | .threadCancel d =>
    k.Desconoce d.PID d.TID ∨ k.buscarTcbs d.tid d.PID = none
  | .mutexCreate d => k.Desconoce d.PID d.TID
  | .mutexLock d | .mutexUnlock d => k.Desconoce d.PID d.TID ∨ k.mutexDe d = none
  | .io d => k.Desconoce d.PID d.TID

/-- The handler leaves, stops or waits for ever before it changes anything, or it writes what was
there, and it finds all that it reads. -/
def Estado.Sale (ent : Entorno) (k : Estado) : Syscall → Prop
  | .processCreate _ => False
  | .processExit d => d.tidInv ≠ 0 ∨ k.mutex = 0 ∨ ∃ q, k.buscarProceso d.pidInv = some q ∧
      (ent.mensajeFinProceso ≠ ['O', 'K'] ∨ k.NadaQueTerminar q)
  | .threadCreate d => k.mutex = 0 ∨ k.buscarProceso d.PID = none
  | .threadJoin _ => k.mutex = 0
  | .threadCancel d => k.mutex = 0 ∨ k.terminado (k.buscarTcbs d.TID d.PID) = true
  | .threadExit d => k.mutex = 0 ∨ k.buscarTcbs d.tidInv d.pidInv = none
  | .mutexCreate _ => k.mutex = 0
  | .mutexLock d => k.mutex = 0 ∨ ∃ l, k.mutexDe d = some l ∧ l.tid = sinHilo ∧ d.TID = sinHilo
  | .mutexUnlock d => k.mutex = 0 ∨ ∃ l, k.mutexDe d = some l ∧
      (l.tid = d.TID → d.TID = sinHilo ∧ l.bloqueadosMutex = [])
  | .dumpMemory _ => k.mutex = 0
  | .io d => k.mutex = 0 ∨ k.buscarTcbs d.TID d.PID = none

/-- Exactly which invalid syscalls are harmless. -/
theorem invalidas_iff (ent : Entorno) (hy : k.Invalida y) :
    Inofensiva ent k y ↔ k.Sale ent y := by
  cases y with
  | processCreate d => exact absurd hy id
  | processExit d => exact processExit_inofensivo d
  | threadCreate d => exact threadCreate_inofensivo d
  | threadJoin d => exact threadJoin_inofensivo d
  | threadCancel d => exact threadCancel_inofensivo d
  | threadExit d => exact threadExit_inofensivo d
  | mutexCreate d => exact mutexCreate_inofensivo d
  | mutexLock d => exact mutexLock_inofensivo d
  | mutexUnlock d => exact mutexUnlock_inofensivo d
  | dumpMemory d => exact dumpMemory_inofensivo d
  | io d => exact io_inofensivo d

/-- `THREAD_EXIT` of a thread that does not exist. -/
theorem invalidas_threadExit : ∃ k, Reaches (paso entornoFifo) estadoCero arranque k ∧
    Inofensiva entornoFifo k (.threadExit ⟨1, 1⟩) := by
  have hrun : (run (paso entornoFifo) estadoCero arranque).toOption.map (fun r =>
      r.1.buscarTcbs 1 1) = some none := by
    decide +kernel
  obtain ⟨k, hk, hbus⟩ := reaches_of_map (g := fun k : Estado => k.buscarTcbs 1 1) hrun
  have hinvalida : k.Invalida (.threadExit ⟨1, 1⟩) := Or.inr hbus
  exact ⟨k, hk, (invalidas_iff entornoFifo hinvalida).mpr (Or.inr hbus)⟩

/-- `MUTEX_LOCK` of a mutex that does not exist reads it through `NULL`. -/
theorem mutexLock_nulo : ¬ ∀ k y, (∃ ps, Reaches (paso entornoFifo) estadoCero ps k) →
    k.Invalida y → Inofensiva entornoFifo k y := by
  intro hall
  have hrun : (run (paso entornoFifo) estadoCero arranque).toOption.map (fun r =>
      (r.1.mutex, r.1.buscarProceso 1, (r.1.pcbs 0).mutex)) = some (3, some 0, []) := by
    decide +kernel
  obtain ⟨k, hk, hg⟩ := reaches_of_map (g := fun k : Estado =>
    (k.mutex, k.buscarProceso 1, (k.pcbs 0).mutex)) hrun
  simp only [Prod.mk.injEq] at hg
  obtain ⟨hmutex, hp, hms⟩ := hg
  have hde : k.mutexDe ⟨1, 0, ['m']⟩ = none := by
    rw [mutexDe_of_buscar hp, hms]
    rfl
  have hinofensiva := hall k (.mutexLock ⟨1, 0, ['m']⟩) ⟨_, hk⟩ (Or.inr hde)
  rcases (mutexLock_inofensivo ⟨1, 0, ['m']⟩).mp hinofensiva with hcero | ⟨l, hl, -⟩
  · omega
  · rw [hde] at hl
    cases hl

end LastOfC.Kernel
