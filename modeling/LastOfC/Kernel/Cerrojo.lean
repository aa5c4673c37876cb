import LastOfC.Kernel.EfectosDespacho

/-!
# The lock `mutex`

An operation of the kernel that is run alone with `mutex` at 1 should keep the semaphore at 0 or 1,
never wait for itself, and leave it at 1. `Conserva m x` is a triple for a part of an operation:
with the semaphore at `m` it returns with the semaphore at `m`, and posts no more than it waited
for. Most operations take the lock only around a part that does not use it, which is seen from their
structure (`Neutro`). They keep the law (`Neutro.conserva`), and never lower the semaphore
(`Neutro.cota`).
-/

namespace LastOfC.Kernel

open Imp

variable {α β : Type} {ent : Entorno} {m : Nat} {c : List Nat}

/-- Since the history `c`, the semaphore took no value above 1. -/
def Acotado (c : List Nat) (k : Estado) : Prop :=
  ∃ vs, k.valoresMutex = c ++ vs ∧ ∀ v ∈ vs, v ≤ 1

/-- The semaphore is at `m`. -/
def EnValor (m : Nat) (c : List Nat) (k : Estado) : Prop := k.mutex = m ∧ Acotado c k

/-- The operation stops, but not in a wait. -/
def SinEspera (c : List Nat) (f : Falla) (k : Estado) : Prop := f ≠ .espera ∧ Acotado c k

/-- Since the history `c`, the semaphore took a value above 1. -/
def Excedido (c : List Nat) (k : Estado) : Prop :=
  ∃ vs, k.valoresMutex = c ++ vs ∧ ∃ v ∈ vs, 1 < v

/-- **The law.** The operation, run alone from `k`, keeps the semaphore at 0 or 1, does not wait
for itself, and if it returns it leaves the semaphore at 1. -/
def Balanceada (x : Op α) (k : Estado) : Prop :=
  Triple (· = k) x (fun _ => EnValor 1 k.valoresMutex) (SinEspera k.valoresMutex)

theorem acotado_refl (k : Estado) : Acotado k.valoresMutex k :=
  ⟨[], (List.append_nil _).symm, fun _ hv => absurd hv List.not_mem_nil⟩

theorem Acotado.snoc {k k' : Estado} {v : Nat} (h : Acotado c k)
    (hk : k'.valoresMutex = k.valoresMutex ++ [v]) (hv : v ≤ 1) : Acotado c k' := by
  obtain ⟨vs, hvs, hle⟩ := h
  refine ⟨vs ++ [v], by rw [hk, hvs, List.append_assoc], fun w hw => ?_⟩
  rcases List.mem_append.mp hw with hw | hw
  · exact hle w hw
  · rw [List.mem_singleton.mp hw]
    exact hv

theorem Excedido.no_acotado {k : Estado} (h : Excedido c k) : ¬ Acotado c k := by
  rintro ⟨vs, hvs, hle⟩
  obtain ⟨ws, hws, v, hv, hlt⟩ := h
  obtain rfl : vs = ws := List.append_cancel_left (hvs.symm.trans hws)
  exact absurd (hle v hv) (by omega)

/-! ## The rules -/

/-- With the semaphore at `m`, the part `x` of an operation gives back what it takes. -/
def Conserva (m : Nat) (x : Op α) : Prop :=
  ∀ c, Triple (EnValor m c) x (fun _ => EnValor m c) (SinEspera c)

/-- `sem_wait` and `sem_post` around a part that does not use the semaphore. -/
theorem Conserva.conMutex {x : Op α} (hx : Conserva 0 x) : Conserva 1 (conMutex x) := by
  intro c
  have hwait : Triple (EnValor 1 c) semWaitMutex (fun _ => EnValor 0 c) (SinEspera c) := by
    unfold semWaitMutex
    refine Triple.get_bind fun k hk => Triple.ite (fun h0 => ?_) fun _ => Triple.modify ?_
    · rw [hk.1] at h0
      exact absurd h0 Nat.one_ne_zero
    · rintro k' rfl
      have hcero : k'.mutex - 1 = 0 := by rw [hk.1]
      exact ⟨hcero, hk.2.snoc rfl (by omega)⟩
  have hpost : Triple (EnValor 0 c) semPostMutex (fun _ => EnValor 1 c) (SinEspera c) := by
    refine Triple.modify fun k hk => ?_
    have huno : k.mutex + 1 = 1 := by rw [hk.1]
    exact ⟨huno, hk.2.snoc rfl (by omega)⟩
  exact hwait.bind fun _ => (hx c).bind fun a => hpost.bind fun _ => Triple.pure fun _ h => h

theorem Conserva.balanceada {x : Op α} (hx : Conserva 1 x) {k : Estado} (hk : k.mutex = 1) :
    Balanceada x k := by
  refine (hx k.valoresMutex).weaken ?_ (fun _ _ h => h) fun _ _ h => h
  rintro s rfl
  exact ⟨hk, acotado_refl s⟩

/-- Programs that take the lock only around a part that does not use it. Such a part is
`Neutro 0`. -/
inductive Neutro : Nat → {α : Type} → Op α → Prop where
  | pure {m : Nat} {α : Type} (a : α) : Neutro m (pure a : Op α)
  | throw {m : Nat} {α : Type} {f : Falla} (hf : f ≠ .espera) : Neutro m (throw f : Op α)
  | get {m : Nat} : Neutro m (get : Op Estado)
  /-- A write to the other globals. -/
  | modify {m : Nat} {f : Estado → Estado}
    (hf : ∀ k, (f k).mutex = k.mutex ∧ (f k).valoresMutex = k.valoresMutex) :
    Neutro m (modify f : Op Unit)
  | bind {m : Nat} {α β : Type} {x : Op α} {f : α → Op β} (hx : Neutro m x)
    (hf : ∀ a, Neutro m (f a)) : Neutro m (x >>= f)
  | conMutex {α : Type} {x : Op α} (hx : Neutro 0 x) : Neutro 1 (conMutex x)

namespace Neutro

theorem conserva {x : Op α} (h : Neutro m x) : Conserva m x := by
  induction h with
  | pure a => exact fun _ => Triple.pure fun _ h => h
  | throw hf => exact fun _ => Triple.throw fun _ h => ⟨hf, h.2⟩
  | get => exact fun _ _ h => h
  | modify hf =>
    refine fun c => Triple.modify fun k hk => ?_
    unfold EnValor Acotado
    rw [(hf k).1, (hf k).2]
    exact hk
  | bind _ _ ihx ihf => exact fun c => (ihx c).bind fun a => ihf a c
  | conMutex _ ih => exact ih.conMutex

theorem semWaitMutex_cota (n : Nat) :
    Triple (n ≤ ·.mutex) semWaitMutex (fun _ k => n - 1 ≤ k.mutex) fun _ _ => True := by
  unfold semWaitMutex
  refine Triple.get_bind fun k hk => Triple.ite (fun _ => Triple.throw fun _ _ => trivial) ?_
  rintro - s rfl
  exact Nat.sub_le_sub_right hk 1

theorem semPostMutex_cota (n : Nat) :
    Triple (n - 1 ≤ ·.mutex) semPostMutex (fun _ k => n ≤ k.mutex) fun _ _ => True :=
  Triple.modify fun _ hk => Nat.sub_le_iff_le_add.mp hk

/-- The semaphore does not go down. -/
theorem cota {x : Op α} (h : Neutro m x) (n : Nat) :
    Triple (n ≤ ·.mutex) x (fun _ k => n ≤ k.mutex) fun _ _ => True := by
  induction h generalizing n with
  | pure a => exact Triple.pure fun _ h => h
  | throw _ => exact Triple.throw fun _ _ => trivial
  | get => exact fun _ h => h
  | modify hf =>
    refine Triple.modify fun k hk => ?_
    rw [(hf k).1]
    exact hk
  | bind _ _ ihx ihf => exact (ihx n).bind fun a => ihf a n
  | conMutex _ ih =>
    exact (semWaitMutex_cota n).bind fun _ => (ih (n - 1)).bind fun a =>
      (semPostMutex_cota n).bind fun _ => Triple.pure fun _ h => h

theorem cota_ok {x : Op α} (h : Neutro m x) {k k' : Estado} {a : α} (hr : x.run k = .ok a k') :
    k.mutex ≤ k'.mutex :=
  (h.cota k.mutex).of_ok (Nat.le_refl _) hr

theorem leer (f : Estado → α) : Neutro m (leer f) := get.bind fun k => pure (f k)

theorem desref (d : Option Dir) : Neutro m (desref d) := by
  cases d with
  | none => exact throw (by simp)
  | some p => exact pure p

theorem ite {p : Prop} [Decidable p] {x y : Op α} (hx : p → Neutro m x) (hy : ¬ p → Neutro m y) :
    Neutro m (if p then x else y) := by
  by_cases h : p
  · rw [if_pos h]
    exact hx h
  · rw [if_neg h]
    exact hy h

theorem each {γ : Type} {f : γ → Op Unit} {xs : List γ} (h : ∀ x ∈ xs, Neutro m (f x)) :
    Neutro m (Imp.each f xs) := by
  induction xs with
  | nil => exact pure ()
  | cons x xs ih =>
    exact (h x List.mem_cons_self).bind fun _ => ih fun y hy => h y (List.mem_cons_of_mem _ hy)

end Neutro

/-! ## The operations that give the lock back -/

theorem enviarPaquete_neutro (p : Paquete) : Neutro m (enviarPaquete p) :=
  .modify fun _ => ⟨rfl, rfl⟩

theorem conMutex_leer_neutro (f : Estado → α) : Neutro 1 (conMutex (leer f)) :=
  .conMutex (.leer f)

theorem confirmacionCrearHilo_neutro (pid tid : Uint32) :
    Neutro 1 (confirmacionCrearHilo pid tid) := by
  unfold confirmacionCrearHilo
  refine (Neutro.leer _).bind fun hilo => ?_
  cases hilo with
  | none => exact .pure ()
  | some h => exact .conMutex (.modify fun _ => ⟨rfl, rfl⟩)

theorem crearProceso_neutro (tam : CInt) (path : Cadena) (prioridad : CInt) :
    Neutro 1 (crearProceso tam path prioridad) := by
  unfold crearProceso
  refine .bind (.leer _) fun p => .bind (.modify fun _ => ⟨rfl, rfl⟩) fun _ => ?_
  exact .conMutex (.modify fun _ => ⟨rfl, rfl⟩)

theorem desbloquearDesde_neutro (h : Dir) (n i : Nat) :
    Neutro 1 (desbloquearDesde h n i) := by
  induction n generalizing i with
  | zero => exact .pure ()
  | succ n ih =>
    unfold desbloquearDesde
    refine Neutro.get.bind fun k => ?_
    cases k.listaBlocked[i]? with
    | none => exact .pure ()
    | some b =>
      refine .ite (fun _ => ?_) fun _ => ih (i + 1)
      refine .bind (.modify fun _ => ⟨rfl, rfl⟩) fun _ => ?_
      refine .bind (.conMutex (.modify fun _ => ⟨rfl, rfl⟩)) fun _ => ?_
      exact .bind (.modify fun _ => ⟨rfl, rfl⟩) fun _ => ih i

theorem desbloquearHilosPorTid_neutro (h : Dir) : Neutro 1 (desbloquearHilosPorTid h) := by
  unfold desbloquearHilosPorTid
  exact (Neutro.leer _).bind fun n => desbloquearDesde_neutro h n 0

theorem quitarTid_neutro (p : Dir) (tid : Uint32) : Neutro m (quitarTid p tid) := by
  unfold quitarTid
  refine (Neutro.leer _).bind fun pcb => ?_
  cases pcb.listaTid with
  | none => exact .throw (by simp)
  | some tids => exact .modify fun _ => ⟨rfl, rfl⟩

theorem liberarMutex_neutro (p : Dir) (tid : Uint32) (i : Nat) :
    Neutro m (liberarMutex p tid i) := by
  unfold liberarMutex
  refine (Neutro.leer _).bind fun pcb => ?_
  cases pcb.mutex[i]? with
  | none => exact .pure ()
  | some l =>
    refine .ite (fun _ => ?_) fun _ => .pure ()
    cases l.bloqueadosMutex with
    | nil => exact .modify fun _ => ⟨rfl, rfl⟩
    | cons t resto => exact .throw (by simp)

theorem liberar_neutro (h : Dir) : Neutro m (liberar ent h) := by
  unfold liberar
  refine Neutro.get.bind fun k => .ite (fun _ => .throw (by simp)) fun _ => ?_
  exact .modify fun _ => ⟨rfl, rfl⟩

theorem finalizarHilo_neutro (h : Dir) : Neutro 1 (finalizarHilo ent h) := by
  unfold finalizarHilo
  refine .bind (.modify fun _ => ⟨rfl, rfl⟩) fun _ => ?_
  refine .bind (.conMutex (.modify fun _ => ⟨rfl, rfl⟩)) fun _ => ?_
  refine .bind (.leer _) fun t => .bind (conMutex_leer_neutro _) fun proceso => ?_
  cases proceso with
  | none => exact .pure ()
  | some p =>
    refine (quitarTid_neutro p t.tid).bind fun _ => (Neutro.leer _).bind fun n => ?_
    refine (Neutro.each fun i _ => liberarMutex_neutro p t.tid i).bind fun _ => ?_
    have hinf : Neutro 1 (informarAMemoriaFinHilo h) :=
      (Neutro.leer _).bind fun t => enviarPaquete_neutro _
    exact hinf.bind fun _ => (desbloquearHilosPorTid_neutro h).bind fun _ => liberar_neutro h

theorem compararPrioridad_neutro (menor : Dir × Nat) (i : Nat) :
    Neutro 1 (compararPrioridad menor i) := by
  unfold compararPrioridad
  refine (conMutex_leer_neutro _).bind fun a => (Neutro.desref a).bind fun actual => ?_
  exact Neutro.get.bind fun k => .ite (fun _ => .pure _) fun _ => .pure _

theorem compararTodos_neutro (is : List Nat) (menor : Dir × Nat) :
    Neutro 1 (is.foldlM compararPrioridad menor) := by
  induction is generalizing menor with
  | nil => exact .pure menor
  | cons i is ih => exact (compararPrioridad_neutro menor i).bind fun menor' => ih menor'

theorem buscarHiloMenorNroPrioridad_neutro : Neutro 1 buscarHiloMenorNroPrioridad := by
  unfold buscarHiloMenorNroPrioridad
  refine (conMutex_leer_neutro _).bind fun lista => ?_
  cases lista with
  | nil => exact .pure none
  | cons h resto =>
    refine (compararTodos_neutro _ _).bind fun menor => ?_
    exact .bind (.conMutex (.modify fun _ => ⟨rfl, rfl⟩)) fun _ => .pure _

/-! ## The syscalls -/

theorem threadJoin_neutro (d : TThreadJoinYCancel) : Neutro 1 (threadJoin d) := by
  unfold threadJoin
  refine .bind (conMutex_leer_neutro _) fun a => .bind (conMutex_leer_neutro _) fun b => ?_
  refine .bind .get fun k => .ite (fun _ => ?_) fun _ => ?_
  · refine .bind (.desref a) fun h => .bind (.modify fun _ => ⟨rfl, rfl⟩) fun _ => ?_
    exact .modify fun _ => ⟨rfl, rfl⟩
  · refine .bind (.desref a) fun h => .bind (.modify fun _ => ⟨rfl, rfl⟩) fun _ => ?_
    refine .bind (.modify fun _ => ⟨rfl, rfl⟩) fun _ => ?_
    exact .conMutex (.modify fun _ => ⟨rfl, rfl⟩)

theorem threadCancel_neutro (d : TThreadJoinYCancel) : Neutro 1 (threadCancel ent d) := by
  unfold threadCancel
  refine .bind (conMutex_leer_neutro _) fun a => ?_
  cases a with
  | none => exact .pure ()
  | some h =>
    exact .bind (.leer _) fun t => .ite (fun _ => .pure ()) fun _ => finalizarHilo_neutro h

theorem threadExit_neutro (d : TDatosEsenciales) : Neutro 1 (threadExit ent d) := by
  unfold threadExit
  refine .bind (conMutex_leer_neutro _) fun a => ?_
  cases a with
  | none => exact .pure ()
  | some h => exact finalizarHilo_neutro h

theorem mutexCreate_neutro (d : TMutexTodos) : Neutro 1 (mutexCreate d) := by
  unfold mutexCreate
  refine .bind (conMutex_leer_neutro _) fun a => .bind (.desref a) fun p => ?_
  exact .modify fun _ => ⟨rfl, rfl⟩

theorem mutexLock_neutro (d : TMutexTodos) : Neutro 1 (mutexLock d) := by
  unfold mutexLock
  refine .bind (conMutex_leer_neutro _) fun a => .bind (conMutex_leer_neutro _) fun b => ?_
  refine .bind (.desref a) fun p => .bind (.leer _) fun pcb => ?_
  cases buscarMutex pcb.mutex d.recurso with
  | none => exact .throw (by simp)
  | some il =>
    refine .ite (fun _ => .modify fun _ => ⟨rfl, rfl⟩) fun _ => ?_
    refine .bind (.modify fun _ => ⟨rfl, rfl⟩) fun _ => .bind (.desref b) fun h => ?_
    refine .bind (.modify fun _ => ⟨rfl, rfl⟩) fun _ => ?_
    refine .bind (.modify fun _ => ⟨rfl, rfl⟩) fun _ => ?_
    exact .conMutex (.modify fun _ => ⟨rfl, rfl⟩)

theorem mutexUnlock_neutro (d : TMutexTodos) : Neutro 1 (mutexUnlock d) := by
  unfold mutexUnlock
  refine .bind (conMutex_leer_neutro _) fun a => .bind (.desref a) fun p => ?_
  refine .bind (.leer _) fun pcb => ?_
  cases buscarMutex pcb.mutex d.recurso with
  | none => exact .throw (by simp)
  | some il =>
    obtain ⟨i, l⟩ := il
    refine .ite (fun _ => ?_) fun _ => .pure ()
    cases l.bloqueadosMutex with
    | nil => exact .modify fun _ => ⟨rfl, rfl⟩
    | cons t resto =>
      refine .bind (.modify fun _ => ⟨rfl, rfl⟩) fun _ => ?_
      refine .bind (conMutex_leer_neutro _) fun b => ?_
      cases b with
      | none => exact .pure ()
      | some h =>
        refine .bind (.modify fun _ => ⟨rfl, rfl⟩) fun _ => .bind (.leer _) fun th => ?_
        refine .bind (.modify fun _ => ⟨rfl, rfl⟩) fun _ => ?_
        exact .modify fun _ => ⟨rfl, rfl⟩

theorem dumpMemory_neutro (d : TDatosEsenciales) : Neutro 1 (dumpMemory d) := by
  unfold dumpMemory
  refine .bind (enviarPaquete_neutro _) fun _ => .bind (conMutex_leer_neutro _) fun a => ?_
  refine .bind (.desref a) fun h => .bind (.modify fun _ => ⟨rfl, rfl⟩) fun _ => ?_
  exact .conMutex (.modify fun _ => ⟨rfl, rfl⟩)

theorem io_neutro (d : TIO) : Neutro 1 (io d) := by
  unfold io
  refine .bind (conMutex_leer_neutro _) fun a => ?_
  cases a with
  | none => exact .pure ()
  | some h =>
    refine .bind (.modify fun _ => ⟨rfl, rfl⟩) fun _ => ?_
    refine .bind (.conMutex (.modify fun _ => ⟨rfl, rfl⟩)) fun _ => ?_
    refine .bind (.modify fun _ => ⟨rfl, rfl⟩) fun _ => ?_
    refine .bind (.modify fun _ => ⟨rfl, rfl⟩) fun _ => ?_
    exact .modify fun _ => ⟨rfl, rfl⟩

/-- The syscalls that give the lock back whatever their arguments are. -/
theorem syscall_neutro {y : Syscall} (hexit : ∀ d, y ≠ .processExit d)
    (hcreate : ∀ d, y ≠ .threadCreate d) : Neutro 1 (kernelEscuchaCpuDispatch ent y) := by
  cases y with
  | processCreate d => exact crearProceso_neutro _ _ _
  | processExit d => exact absurd rfl (hexit d)
  | threadCreate d => exact absurd rfl (hcreate d)
  | threadJoin d => exact threadJoin_neutro d
  | threadCancel d => exact threadCancel_neutro d
  | threadExit d => exact threadExit_neutro d
  | mutexCreate d => exact mutexCreate_neutro d
  | mutexLock d => exact mutexLock_neutro d
  | mutexUnlock d => exact mutexUnlock_neutro d
  | dumpMemory d => exact dumpMemory_neutro d
  | io d => exact io_neutro d

end LastOfC.Kernel
