import LastOfC.Kernel.Creacion

/-!
# The identity of processes and threads

`crear_proceso` gives the pids 1, 2, … and each process counts its own tids, so no identity is given
twice (`Numerado`). The searches read the identities in the blocks, and `finalizar_hilo` frees the
TCB of a thread that stays in `lista_tcbs`. `identidad_iff`: the searches return the object that
was created with each identity exactly as long as `free` leaves the pid and the tid in the block.
-/

namespace LastOfC.Kernel

open Imp Trace KeyedList

variable {ent : Entorno} {k k' : Estado} {p : Paso} {o : List Paquete}

/-- The processes and threads created so far. -/
def Estado.creaciones (k : Estado) : Nat := k.listaProcesos.length + k.listaTcbs.length

/-- Identities do not repeat, and the searches by an identity find what was created with it: the
processes were created with the pids 1, 2, …, and the threads with the identities in their
`HILO_READY`. -/
structure Estado.Identificado (k : Estado) : Prop where
  pids : (k.listaProcesos.map fun p => (k.pcbs p).pid).Nodup
  hilos : (k.listaTcbs.map k.idDe).Nodup
  proceso : ∀ i p, k.listaProcesos[i]? = some p → k.buscarProceso (.ofNat 32 (i + 1)) = some p
  hilo : ∀ (i : Nat) h (id : Uint32 × Uint32), k.listaTcbs[i]? = some h →
    (hilosDe k.enviados)[i]? = some id → k.buscarTcbs id.2 id.1 = some h

/-- The TCBs that were freed from `k` to `k'` still have their pid and tid. -/
def Estado.ConservaIds (k k' : Estado) : Prop :=
  ∀ d ∈ k.listaTcbs, d ∉ k.liberados → d ∈ k'.liberados → k'.idDe d = k.idDe d

/-- A `THREAD_CREATE` comes from a thread that the kernel knows. -/
def Paso.conocido (k : Estado) : Paso → Bool
  | .syscall (.threadCreate d) => (k.buscarTcbs d.TID d.PID).isSome
  | _ => true

/-! ## The numbers that the kernel gives -/

/-- The pids and tids given so far, against the table of processes. -/
structure Estado.Numerado (k : Estado) : Prop where
  ultimo : k.pid.toNat = k.listaProcesos.length
  pids : ∀ i p, k.listaProcesos[i]? = some p → (k.pcbs p).pid.toNat = i + 1
  previos : ∀ p ∈ k.listaProcesos, p < k.proximo
  hilosPrevios : ∀ h ∈ k.listaTcbs, h < k.proximo
  enCola : k.colaNew ⊆ k.listaProcesos
  cola : k.colaNew.Nodup
  creados : k.listaTcbs.map k.idDe = hilosDe k.enviados
  distintos : (hilosDe k.enviados).Nodup
  /-- A thread is of a process that left `cola_new`, with a tid that its counter passed. -/
  dados : ∀ id ∈ hilosDe k.enviados, ∃ p ∈ k.listaProcesos, p ∉ k.colaNew ∧
    (k.pcbs p).pid = id.1 ∧
    ((k.pcbs p).listaTid ≠ none → id.2.toNat ≤ (k.pcbs p).tidContador.toNat)
  contador : ∀ p ∈ k.listaProcesos, (k.pcbs p).listaTid ≠ none →
    (k.pcbs p).tidContador.toNat ≤ 2 * k.listaTcbs.length

namespace Estado.Numerado

/-- Two processes with one pid are the same. -/
theorem unico (h : k.Numerado) {p q : Dir} (hp : p ∈ k.listaProcesos) (hq : q ∈ k.listaProcesos)
    (hpid : (k.pcbs p).pid = (k.pcbs q).pid) : p = q := by
  obtain ⟨i, hi⟩ := List.mem_iff_getElem?.mp hp
  obtain ⟨j, hj⟩ := List.mem_iff_getElem?.mp hq
  have hij : i + 1 = j + 1 := by rw [← h.pids i p hi, ← h.pids j q hj, hpid]
  obtain rfl := Nat.succ.inj hij
  rw [hi] at hj
  exact Option.some.inj hj

theorem procesos_nodup (h : k.Numerado) : k.listaProcesos.Nodup := by
  rw [List.nodup_iff_getElem?_ne_getElem?]
  intro i j hij hj heq
  obtain ⟨p, hp⟩ : ∃ p, k.listaProcesos[j]? = some p := ⟨_, List.getElem?_eq_getElem hj⟩
  have h₁ := h.pids i p (heq.trans hp)
  have h₂ := h.pids j p hp
  omega

theorem identificado (h : k.Numerado) : k.Identificado where
  pids := by
    refine h.procesos_nodup.map_on fun p hp q hq hpid => ?_
    exact h.unico hp hq hpid
  hilos := h.creados ▸ h.distintos
  proceso i p hi := by
    have hpid : BitVec.ofNat 32 (i + 1) = (k.pcbs p).pid := by
      rw [← h.pids i p hi, BitVec.ofNat_toNat, BitVec.setWidth_eq]
    rw [hpid]
    have hpids : (k.listaProcesos.map fun p => (k.pcbs p).pid).Nodup :=
      h.procesos_nodup.map_on fun p hp q hq hpid => h.unico hp hq hpid
    exact toMap_of_mem hpids (List.mem_of_getElem? hi)
  hilo i d id hd hid := by
    have hcreado : k.idDe d = id := by
      rw [← h.creados, List.getElem?_map, hd] at hid
      exact Option.some.inj hid
    have hids : (k.listaTcbs.map k.idDe).Nodup := h.creados ▸ h.distintos
    have hmap : toMap k.idDe k.listaTcbs (k.idDe d) = some d :=
      toMap_of_mem hids (List.mem_of_getElem? hd)
    rw [hcreado] at hmap
    rw [← hmap]
    unfold Estado.buscarTcbs toMap Estado.idDe
    simp only [Prod.ext_iff]

/-! ## Steps -/

/-- A step that creates nothing, and whose freed TCBs keep their identity. -/
theorem tras_nada (h : k.Numerado) (hs : SinCrear ent k k') (hc : k.ConservaIds k') :
    k'.Numerado where
  ultimo := by rw [hs.tabla.pid, hs.tabla.procesos, h.ultimo]
  pids i p hi := by
    rw [hs.tabla.procesos] at hi
    rw [hs.tabla.pidDe, h.pids i p hi]
  previos p hp := Nat.lt_of_lt_of_le (h.previos p (hs.tabla.procesos ▸ hp)) hs.tabla.proximo
  hilosPrevios d hd := Nat.lt_of_lt_of_le (h.hilosPrevios d (hs.tabla.hilos ▸ hd)) hs.tabla.proximo
  enCola := by
    rw [hs.tabla.nuevos, hs.tabla.procesos]
    exact h.enCola
  cola := hs.tabla.nuevos ▸ h.cola
  creados := by
    rw [hs.tabla.hilos, hs.creados, ← h.creados]
    refine List.map_congr_left fun d hd => ?_
    rcases hs.identidad d with hid | ⟨hno, hlib, -⟩
    · exact hid
    · exact hc d hd hno hlib
  distintos := hs.creados ▸ h.distintos
  dados id hid := by
    rw [hs.creados] at hid
    obtain ⟨p, hp, hcola, hpid, hcont⟩ := h.dados id hid
    refine ⟨p, hs.tabla.procesos ▸ hp, hs.tabla.nuevos ▸ hcola, ?_, fun hlista => ?_⟩
    · rw [hs.tabla.pidDe, hpid]
    · obtain ⟨hmismo, habierta⟩ := (hs.tabla.contador p).resolve_right fun hcer => hlista hcer.1
      rw [hmismo]
      exact hcont fun hno => hlista (habierta hno)
  contador p hp hlista := by
    rw [hs.tabla.procesos] at hp
    obtain ⟨hmismo, habierta⟩ := (hs.tabla.contador p).resolve_right fun hcer => hlista hcer.1
    rw [hmismo, hs.tabla.hilos]
    exact h.contador p hp fun hno => hlista (habierta hno)

/-- `crear_proceso` gives the next pid. -/
theorem tras_proceso (h : k.Numerado) (hn : NuevoProceso k k.proximo k')
    (hcreados : hilosDe k'.enviados = hilosDe k.enviados) (hid : ∀ d, k'.idDe d = k.idDe d)
    (hpocos : k.creaciones < 2 ^ 31) : k'.Numerado := by
  have hlargo : k.listaProcesos.length < 2 ^ 31 :=
    Nat.lt_of_le_of_lt (Nat.le_add_right _ _) hpocos
  have hpid : k'.pid.toNat = k.listaProcesos.length + 1 := by
    rw [hn.pid, BitVec.toNat_add, h.ultimo]
    show (k.listaProcesos.length + 1) % 2 ^ 32 = _
    exact Nat.mod_eq_of_lt (by omega)
  have hviejo : ∀ p ∈ k.listaProcesos, k'.pcbs p = k.pcbs p := fun p hp =>
    hn.otros p (Nat.ne_of_lt (h.previos p hp))
  have hprox := hn.proximo
  refine ⟨?_, fun i p hi => ?_, fun p hp => ?_, fun d hd => ?_, ?_, ?_, ?_, ?_, ?_, ?_⟩
  · rw [hpid, hn.procesos, List.length_append]
    rfl
  · rw [hn.procesos] at hi
    rcases Nat.lt_trichotomy i k.listaProcesos.length with hlt | rfl | hgt
    · rw [List.getElem?_append_left hlt] at hi
      rw [hviejo p (List.mem_of_getElem? hi), h.pids i p hi]
    · rw [List.getElem?_concat_length] at hi
      obtain rfl := Option.some.inj hi
      rw [hn.pidDe, hpid]
    · rw [List.getElem?_eq_none (by simp; omega)] at hi
      cases hi
  · rw [hn.procesos] at hp
    rcases List.mem_append.mp hp with hp | hp
    · exact Nat.lt_trans (h.previos p hp) hprox
    · obtain rfl := List.mem_singleton.mp hp
      exact hprox
  · exact Nat.lt_trans (h.hilosPrevios d (hn.hilos ▸ hd)) hprox
  · rw [hn.nuevos, hn.procesos]
    exact List.append_subset.mpr ⟨List.Subset.trans h.enCola (List.subset_append_left _ _),
      List.subset_append_right _ _⟩
  · rw [hn.nuevos]
    refine List.nodup_append.mpr ⟨h.cola, List.nodup_singleton _, ?_⟩
    rintro p hp q hq rfl
    obtain rfl := List.mem_singleton.mp hq
    exact Nat.lt_irrefl _ (h.previos _ (h.enCola hp))
  · rw [hn.hilos, hcreados, ← h.creados]
    exact List.map_congr_left fun d _ => hid d
  · rw [hcreados]
    exact h.distintos
  · intro id hid'
    rw [hcreados] at hid'
    obtain ⟨p, hp, hcola, hpid', hcont⟩ := h.dados id hid'
    rw [← hviejo p hp] at hpid' hcont
    refine ⟨p, ?_, ?_, hpid', hcont⟩
    · rw [hn.procesos]
      exact List.mem_append_left _ hp
    · rw [hn.nuevos, List.mem_append, List.mem_singleton, not_or]
      exact ⟨hcola, Nat.ne_of_lt (h.previos p hp)⟩
  · intro p hp hlista
    rw [hn.procesos] at hp
    rcases List.mem_append.mp hp with hp | hp
    · rw [hviejo p hp] at hlista ⊢
      rw [hn.hilos]
      exact h.contador p hp hlista
    · obtain rfl := List.mem_singleton.mp hp
      rw [hn.contador]
      exact Nat.zero_le _

/-- A new thread with an identity that was not given before. -/
theorem tras_hilo (h : k.Numerado) {d : Dir} {id : Uint32 × Uint32} (hn : NaceHilo k d id k')
    (hnueva : id ∉ hilosDe k.enviados) (hcola : k'.colaNew.Sublist k.colaNew)
    (hcont : ∀ p, (k.pcbs p).tidContador.toNat ≤ (k'.pcbs p).tidContador.toNat ∨
      (k.pcbs p).listaTid = none)
    (hdado : ∃ p ∈ k.listaProcesos, p ∉ k'.colaNew ∧ (k.pcbs p).pid = id.1 ∧
      ((k.pcbs p).listaTid ≠ none → id.2.toNat ≤ (k'.pcbs p).tidContador.toNat))
    (hpoco : ∀ p ∈ k.listaProcesos, (k.pcbs p).listaTid ≠ none →
      (k'.pcbs p).tidContador.toNat ≤ 2 * (k.listaTcbs.length + 1)) : k'.Numerado where
  ultimo := by rw [hn.pid, hn.procesos, h.ultimo]
  pids i p hi := by
    rw [hn.procesos] at hi
    rw [hn.pidDe, h.pids i p hi]
  previos p hp := by
    have hlt := h.previos p (hn.procesos ▸ hp)
    exact Nat.lt_trans hlt (Nat.lt_of_le_of_lt hn.fresco hn.proximo)
  hilosPrevios e he := by
    rw [hn.hilos] at he
    rcases List.mem_append.mp he with he | he
    · exact Nat.lt_trans (h.hilosPrevios e he) (Nat.lt_of_le_of_lt hn.fresco hn.proximo)
    · obtain rfl := List.mem_singleton.mp he
      exact hn.proximo
  enCola := by
    rw [hn.procesos]
    exact List.Subset.trans hcola.subset h.enCola
  cola := h.cola.sublist hcola
  creados := by
    rw [hn.hilos, hn.creados, ← h.creados, List.map_append, List.map_singleton, hn.propia]
    congr 1
    refine List.map_congr_left fun e he => hn.otras e ?_
    exact Nat.ne_of_lt (Nat.lt_of_lt_of_le (h.hilosPrevios e he) hn.fresco)
  distintos := by
    rw [hn.creados]
    refine List.nodup_append.mpr ⟨h.distintos, List.nodup_singleton _, ?_⟩
    rintro e he f hf rfl
    obtain rfl := List.mem_singleton.mp hf
    exact hnueva he
  dados e he := by
    rw [hn.creados] at he
    rw [hn.procesos]
    rcases List.mem_append.mp he with he | he
    · obtain ⟨p, hp, hno, hpid, hle⟩ := h.dados e he
      refine ⟨p, hp, fun hq => hno (hcola.subset hq), (hn.pidDe p).trans hpid, fun hlista => ?_⟩
      have habierta : (k.pcbs p).listaTid ≠ none := fun hn' => hlista ((hn.listas p).mpr hn')
      exact Nat.le_trans (hle habierta) ((hcont p).resolve_right habierta)
    · obtain rfl := List.mem_singleton.mp he
      obtain ⟨p, hp, hno, hpid, hle⟩ := hdado
      refine ⟨p, hp, hno, (hn.pidDe p).trans hpid, fun hlista => ?_⟩
      exact hle fun hn' => hlista ((hn.listas p).mpr hn')
  contador p hp hlista := by
    rw [hn.procesos] at hp
    rw [hn.hilos, List.length_append]
    exact hpoco p hp fun hn' => hlista ((hn.listas p).mpr hn')

theorem tras_paso (h : k.Numerado) (hpocos : k.creaciones < 2 ^ 31) (hcon : p.conocido k)
    (hc : k.ConservaIds k') (hp : paso ent k p = .ok (k', o)) : k'.Numerado := by
  cases paso_crea hp with
  | proceso hn hlista hcreados hlib hid => exact h.tras_proceso hn hcreados hid hpocos
  | @principal d _ q e resto hbit hq hnew hn hcont =>
    have hqp : q ∈ k.listaProcesos := h.enCola (hq ▸ List.mem_cons_self)
    have hqresto : q ∉ resto := (List.nodup_cons.mp (hq ▸ h.cola)).1
    refine h.tras_hilo hn (fun hid => ?_) ?_ (fun r => .inl ?_) ?_ fun r hr hlista => ?_
    · -- A thread of `q` would mean that `q` left the queue before.
      obtain ⟨r, hr, hno, hpid, -⟩ := h.dados _ hid
      obtain rfl := h.unico hr hqp hpid
      exact hno (hq ▸ List.mem_cons_self)
    · rw [hnew, hq]
      exact List.sublist_cons_self _ _
    · rw [hcont]
    · refine ⟨q, hqp, hnew ▸ hqresto, rfl, fun _ => ?_⟩
      rw [hcont]
    · rw [hcont]
      exact Nat.le_trans (h.contador r hr hlista) (by omega)
  | @hilo d _ r e hr hlista hnew hn hcont hotros =>
    have hrp : r ∈ k.listaProcesos := List.mem_of_find?_eq_some hr
    have hpid : (k.pcbs r).pid = d.PID := pid_of_buscarProceso hr
    have hle := h.contador r hrp hlista
    have hsuma : ((k.pcbs r).tidContador + 1).toNat = (k.pcbs r).tidContador.toNat + 1 ∧
        ((k.pcbs r).tidContador + 1 + 1).toNat = (k.pcbs r).tidContador.toNat + 2 := by
      have hpocos' : k.listaProcesos.length + k.listaTcbs.length < 2 ^ 31 := hpocos
      have halguno := List.length_pos_of_mem hrp
      have hmenos : (k.pcbs r).tidContador.toNat + 2 < 2 ^ 32 := by omega
      bv_omega
    -- The caller is a thread of the process, so the process left the queue.
    obtain ⟨c, hcaller⟩ := Option.isSome_iff_exists.mp hcon
    have hcid : k.idDe c ∈ hilosDe k.enviados :=
      h.creados ▸ List.mem_map_of_mem (mem_of_buscarTcbs hcaller)
    have hcola : r ∉ k.colaNew := by
      obtain ⟨q, hq, hno, hqpid, -⟩ := h.dados _ hcid
      obtain rfl := h.unico hq hrp (hqpid.trans ((pid_of_buscarTcbs hcaller).1.trans hpid.symm))
      exact hno
    refine h.tras_hilo hn (fun hid => ?_) (hnew ▸ List.Sublist.refl _) (fun q => .inl ?_) ?_
      fun q hq hql => ?_
    · obtain ⟨q, hq, -, hqpid, hmenor⟩ := h.dados _ hid
      obtain rfl := h.unico hq hrp (hqpid.trans hpid.symm)
      have hmal := hmenor hlista
      rw [hsuma.1] at hmal
      omega
    · by_cases hqr : q = r
      · subst hqr
        rw [hcont, hsuma.2]
        omega
      · rw [hotros q hqr]
    · refine ⟨r, hrp, hnew ▸ hcola, hpid, fun _ => ?_⟩
      rw [hcont, hsuma.1, hsuma.2]
      omega
    · by_cases hqr : q = r
      · subst hqr
        rw [hcont, hsuma.2]
        omega
      · rw [hotros q hqr]
        exact Nat.le_trans (h.contador q hq hql) (by omega)
  | nada _ _ _ hs => exact h.tras_nada hs hc

end Estado.Numerado

/-- In a state where the searches find what was created, the TCBs freed last kept their identity. -/
theorem conservaIds_of_identificado (h : k.Numerado) (hp : paso ent k p = .ok (k', o))
    (hk' : k'.Identificado) : k.ConservaIds k' := by
  intro d hd hno hlib
  cases paso_crea hp with
  | proceso hn hlista hcreados hmismos hid => exact hid d
  | principal hbit hq hnew hn hcont => exact absurd (hn.liberados ▸ hlib) hno
  | hilo hr hlista hnew hn hcont hotros => exact absurd (hn.liberados ▸ hlib) hno
  | nada _ _ _ hs =>
    obtain ⟨i, hi⟩ := List.mem_iff_getElem?.mp hd
    have hid : (hilosDe k'.enviados)[i]? = some (k.idDe d) := by
      rw [hs.creados, ← h.creados, List.getElem?_map, hi]
      rfl
    have hbusca := hk'.hilo i d _ (hs.tabla.hilos ▸ hi) hid
    exact Prod.ext (pid_of_buscarTcbs hbusca).1 (pid_of_buscarTcbs hbusca).2

/-! ## Runs -/

variable {tcbs : Dir → TCB} {pcbs : Dir → PCB} {uint32s : Dir → Uint32}

theorem estadoInicial_numerado : (estadoInicial tcbs pcbs uint32s).Numerado where
  ultimo := rfl
  pids _ _ hi := absurd hi (by simp [estadoInicial])
  previos _ hp := absurd hp List.not_mem_nil
  hilosPrevios _ hh := absurd hh List.not_mem_nil
  enCola := List.Subset.refl _
  cola := List.nodup_nil
  creados := rfl
  distintos := List.nodup_nil
  dados _ hid := absurd hid List.not_mem_nil
  contador _ hp := absurd hp List.not_mem_nil

/-- **The identity of processes and threads is unique**, and the searches find what was created with
it, along a run with fewer than 2^31 creations, exactly when `free` leaves the pid and the tid in
each TCB that a step frees. -/
theorem identidad_iff (ps : List Paso)
    (hcon : EveryStep (paso ent) (estadoInicial tcbs pcbs uint32s) ps fun _ k p => p.conocido k)
    (hpocos : EveryState (paso ent) (estadoInicial tcbs pcbs uint32s) ps
      fun _ k => k.creaciones < 2 ^ 31) :
    EveryState (paso ent) (estadoInicial tcbs pcbs uint32s) ps (fun _ k => k.Identificado) ↔
      EveryStep (paso ent) (estadoInicial tcbs pcbs uint32s) ps
        fun _ k p => ∀ k' o, paso ent k p = .ok (k', o) → k.ConservaIds k' :=
  everyState_iff_everyStep_of (I := fun _ => Estado.Numerado) (hcon.and hpocos.everyStep)
    estadoInicial_numerado (fun _ _ h => h.identificado)
    (fun _ _ _ k' o _ hD _ h hc hp => h.tras_paso hD.2 hD.1 (hc k' o hp) hp)
    fun _ _ _ _ _ _ _ h hp hk' k'' o' hp' => by
      rw [hp] at hp'
      cases hp'
      exact conservaIds_of_identificado h hp hk'

theorem identidad_dosHilos :
    EveryState (paso entornoFifo) estadoCero (arranque ++ segundoHilo)
        (fun _ k => k.Identificado) ↔
      EveryStep (paso entornoFifo) estadoCero (arranque ++ segundoHilo)
        fun _ k p => ∀ k' o, paso entornoFifo k p = .ok (k', o) → k.ConservaIds k' :=
  identidad_iff (arranque ++ segundoHilo) (EveryStep.of_check (by decide +kernel))
    (EveryState.of_check (by decide +kernel))

/-- A kernel where `free` writes a link over the first words of the block. -/
def entornoPisado : Entorno := ⟨.fifo, ['O', 'K'], fun t => { t with pid := 0, tid := 0 }⟩

/-- Both threads of the process exit. -/
def dosFinales : List Paso :=
  [.syscall (.threadExit ⟨1, 1⟩), .syscall (.threadExit ⟨1, 0⟩)]

theorem identidad_repetida : ¬ ∀ ps,
    EveryStep (paso entornoPisado) estadoCero ps (fun _ k p => p.conocido k) →
      EveryState (paso entornoPisado) estadoCero ps (fun _ k => k.creaciones < 2 ^ 31) →
        EveryState (paso entornoPisado) estadoCero ps fun _ k => k.Identificado := by
  intro h
  have hrun : (run (paso entornoPisado) estadoCero (arranque ++ segundoHilo ++ dosFinales)
      ).toOption.map (fun r => r.1.listaTcbs.map r.1.idDe) = some [(0, 0), (0, 0)] := by
    decide +kernel
  obtain ⟨k, hk, hids⟩ := reaches_of_map (g := fun k : Estado => k.listaTcbs.map k.idDe) hrun
  have hnodup := (h _ (EveryStep.of_check (by decide +kernel))
    (EveryState.of_check (by decide +kernel)) _ k (List.prefix_refl _) hk).hilos
  rw [hids] at hnodup
  exact absurd hnodup (by decide)

end LastOfC.Kernel
