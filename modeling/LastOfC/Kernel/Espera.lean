import LastOfC.Kernel.Emisores
import LastOfC.Kernel.Mutexes
import LastOfC.Kernel.Orden
import LastOfC.Lib.Line

/-!
# How long a READY thread waits (`planificadores.c`, `k_conexiones.c`)

* `paso_fijo`: the pid, tid, `prioridad` and path of a TCB stay until the thread ends.
* `Estado.delante`: how many threads of `lista_ready` the scheduler takes before a thread.
  `adelantos`: how many came before it since then.
* `espera_exacta`: a thread gets the CPU in the iteration of the scheduler after as many iterations
  as there were threads before it, and not before. With FIFO nobody comes before it.
-/

namespace LastOfC.Kernel

open Imp KeyedList Trace Planificacion

variable {ent : Entorno} {k k' k₀ : Estado} {p : Paso} {o : List Paquete} {as : List Paso}

/-! ## What a TCB keeps -/

/-- The fields that `iniciar_hilo` writes for good. -/
def TCB.fijo (t : TCB) : Uint32 × Uint32 × CInt × Cadena := (t.pid, t.tid, t.prioridad, t.path)

theorem fijo_modTcb {h : Dir} {f : TCB → TCB} (hf : (f (k.tcbs h)).fijo = (k.tcbs h).fijo)
    (d : Dir) : ((k.modTcb h f).tcbs d).fijo = (k.tcbs d).fijo := by
  unfold Estado.modTcb
  by_cases hd : d = h
  · subst hd
    simpa using hf
  · simp [hd]

theorem fijo_setEstado (h : Dir) (e : EstadoProcesoHilo) (d : Dir) :
    ((k.setEstado h e).tcbs d).fijo = (k.tcbs d).fijo :=
  fijo_modTcb rfl d

theorem Despierta.fijo {h : Dir} {bs : List Dir} (hd : Despierta h k bs k') (d : Dir) :
    (k'.tcbs d).fijo = (k.tcbs d).fijo := by
  induction hd with
  | nadie k => rfl
  | @uno k k' i b bs hi hb hs ih =>
    rw [ih]
    exact fijo_modTcb (h := b)
      (f := fun t => { t with estadoHilo := .ready, tidQueLoBloqueo := sinHilo }) rfl d

theorem finalizarHilo_fijo {h d : Dir} (hr : (finalizarHilo ent h).run k = .ok () k')
    (hd : d ≠ h) : (k'.tcbs d).fijo = (k.tcbs d).fijo := by
  rcases finalizarHilo_ok hr with
    ⟨-, m, vs, rfl⟩ | ⟨bs, p, ms, tids, k₁, m, vs, -, -, hdes, -, -, rfl⟩
  · exact fijo_setEstado h .exit d
  · have hlibre : ((k₁.modTcb h ent.residuo).tcbs d) = k₁.tcbs d := by
      unfold Estado.modTcb
      exact Function.update_of_ne hd _ _
    refine (congrArg TCB.fijo hlibre).trans ((hdes.fijo d).trans ?_)
    exact fijo_setEstado h .exit d

/-- The threads of other processes, in the loop of `finalizar_proceso`. -/
theorem finalizarTodos_fijo {p d : Dir} {hs : List Dir} {pid : Uint32}
    (hpid : (k.pcbs p).pid = pid) (hd : d ∉ hs.filter fun h => (k.tcbs h).pid = pid)
    (hr : (each (finalizarSiEsDe ent p) hs).run k = .ok () k') :
    (k'.tcbs d).fijo = (k.tcbs d).fijo := by
  refine (each_ok (I := fun _ s => (s.tcbs d).fijo = (k.tcbs d).fijo ∧ (s.pcbs p).pid = pid) hr
    ⟨rfl, hpid⟩ ?_).1
  rintro h rest s₁ s₂ hmem ⟨hfijo, hp⟩ hh
  rcases finalizarSiEsDe_ok hh with ⟨-, rfl⟩ | ⟨hde, hfin⟩
  · exact ⟨hfijo, hp⟩
  · refine ⟨(finalizarHilo_fijo hfin ?_).trans hfijo,
      ((finalizarHilo_sinCrear hfin).tabla.pidDe p).trans hp⟩
    rintro rfl
    have hpid₁ : (s₁.tcbs d).pid = (k.tcbs d).pid := congrArg Prod.fst hfijo
    exact hd (by simpa using ⟨hmem, hpid₁ ▸ hde.trans hp⟩)

/-- A thread that a step does not end. -/
theorem fijo_finHilo {d : Dir} {busca : Option Dir} {h : Dir} (hb : busca = some h)
    (hfin : d ∉ (k.movFinHilo busca).terminan) {m : Nat} {vs : List Nat}
    (hr : (finalizarHilo ent h).run (k.conCerrojo m vs) = .ok () k') :
    (k'.tcbs d).fijo = (k.tcbs d).fijo := by
  subst hb
  refine (finalizarHilo_fijo hr ?_).trans rfl
  rintro rfl
  exact hfin List.mem_cons_self

theorem syscall_fijo {y : Syscall} {d : Dir} (hd : d < k.proximo)
    (hfin : d ∉ (k.movSyscall ent y).terminan)
    (hr : (kernelEscuchaCpuDispatch ent y).run k = .ok () k') :
    (k'.tcbs d).fijo = (k.tcbs d).fijo := by
  cases y with
  | processCreate e =>
    obtain ⟨m, vs, rfl⟩ := crearProceso_ok hr
    rfl
  | processExit e =>
    rcases processExit_ok hr with ⟨-, rfl⟩ | ⟨htid, m, vs, hpro⟩
    · rfl
    obtain ⟨p, hp, ⟨-, rfl⟩ | ⟨k₁, m₁, vs₁, m₂, vs₂, hok, hloop, -, rfl⟩⟩ :=
      finalizarProceso_ok hpro
    · rfl
    · simp only [Estado.movSyscall, htid, hok, and_self, if_true, Movimiento.terminan] at hfin
      have hlazo : (k₁.tcbs d).fijo = (k.tcbs d).fijo :=
        finalizarTodos_fijo (k := ((k.conCerrojo m vs).avisarFinProceso p).conCerrojo m₁ vs₁)
          (pid_of_buscarProceso hp) hfin hloop
      exact hlazo
  | threadCreate e =>
    rcases threadCreate_ok hr with ⟨-, m, vs, rfl⟩ | ⟨p, tids, m, vs, -, -, rfl⟩
    · rfl
    · have hne : d ≠ k.proximo + 1 := (hd.trans (Nat.lt_succ_self _)).ne
      exact congrArg TCB.fijo (Function.update_of_ne hne _ _)
  | threadJoin e =>
    obtain ⟨h, m, vs, -, ⟨-, rfl⟩ | ⟨-, rfl⟩⟩ := threadJoin_ok hr
    · exact fijo_setEstado h .ready d
    · exact (fijo_setEstado (k := k.setTidQueLoBloqueo h e.TID) h .blocked d).trans
        (fijo_modTcb rfl d)
  | threadCancel e =>
    rcases threadCancel_ok hr with ⟨-, m, vs, rfl⟩ | ⟨h, m, vs, hb, hvive, hh⟩
    · rfl
    · refine fijo_finHilo hb ?_ hh
      simpa [Estado.movSyscall, hb, Estado.terminado, hvive] using hfin
  | threadExit e =>
    rcases threadExit_ok hr with ⟨-, m, vs, rfl⟩ | ⟨h, m, vs, hb, hh⟩
    · rfl
    · exact fijo_finHilo hb hfin hh
  | mutexCreate e =>
    obtain ⟨p, m, vs, -, rfl⟩ := mutexCreate_ok hr
    rfl
  | mutexLock e =>
    obtain ⟨p, i, l, m, vs, -, -, ⟨-, rfl⟩ | ⟨h, -, -, rfl⟩⟩ := mutexLock_ok hr
    · rfl
    · exact (fijo_setEstado (k := (k.setMutex p i _).setTidQueLoBloqueo h e.TID) h .blocked d).trans
        (fijo_modTcb rfl d)
  | mutexUnlock e =>
    obtain ⟨p, i, l, m, vs, -, -, hcaso⟩ := mutexUnlock_ok hr
    rcases hcaso with ⟨-, rfl⟩ | ⟨-, -, rfl⟩ | ⟨t, resto, -, -, ⟨-, rfl⟩ | ⟨h, -, rfl⟩⟩
    · rfl
    · rfl
    · rfl
    · exact fijo_setEstado h .ready d
  | dumpMemory e =>
    obtain ⟨h, m, vs, -, rfl⟩ := dumpMemory_ok hr
    exact fijo_setEstado h .blocked d
  | io e =>
    rcases io_ok hr with ⟨-, m, vs, rfl⟩ | ⟨h, m, vs, -, rfl⟩
    · rfl
    · exact fijo_setEstado h .ready d

/-- **What a TCB keeps.** A step that does not end a thread leaves the fields of its TCB that
`iniciar_hilo` wrote for good. -/
theorem paso_fijo (h : paso ent k p = .ok (k', o)) {d : Dir} (hd : d < k.proximo)
    (hfin : d ∉ (k.movimiento ent p).terminan) : (k'.tcbs d).fijo = (k.tcbs d).fijo := by
  have hr := paso_ok h
  cases p with
  | syscall y => exact syscall_fijo hd hfin hr
  | memoria m =>
    cases m with
    | confirmarEspacioProceso e =>
      rcases confirmarEspacioProceso_ok hr with ⟨-, rfl⟩ | ⟨k₁, -, hc, rfl⟩
      · rfl
      · obtain ⟨p, q, resto, tids, m, vs, -, -, -, rfl⟩ := crearHilo_ok hc
        have hne : d ≠ k.proximo + 1 := (hd.trans (Nat.lt_succ_self _)).ne
        exact congrArg TCB.fijo (Function.update_of_ne hne _ _)
    | confirmarCreacionHilo e =>
      rcases confirmarCreacionHilo_ok hr with ⟨-, rfl⟩ | ⟨-, -, rfl⟩ | ⟨h, m, vs, -, -, rfl⟩ <;> rfl
    | confirmarDumpMemory =>
      obtain ⟨-, rfl⟩ := pure_ok.mp hr
      rfl
  | cortoPlazo =>
    obtain ⟨-, ⟨-, rfl⟩ | ⟨i, e, m, vs, -, rfl⟩⟩ := planificadorCortoPlazo_ok hr
    · rfl
    · exact fijo_setEstado e .exec d
  | largoPlazo =>
    obtain ⟨-, rfl⟩ := planificadorDeLargoPlazo_ok hr
    rfl

/-! ## The threads ahead -/

/-- What the scheduler compares: `prioridad` with PRIORIDADES, and nothing with FIFO. -/
def Estado.clave (ent : Entorno) (k : Estado) (h : Dir) : Int :=
  match ent.algoritmoPlanificacion with
  | .prioridades => nroPrioridad k.tcbs h
  | _ => 0

/-- How many threads the scheduler takes before `h`, which stands in `lista_ready` between `pre` and
`post`, if none comes. -/
def Estado.delante (ent : Entorno) (k : Estado) (pre : List Dir) (h : Dir) (post : List Dir) :
    Nat :=
  Line.ahead (k.clave ent) pre h post

/-- How many threads got into `lista_ready` along a run that the scheduler takes before `h`. -/
def adelantos (ent : Entorno) (h : Dir) (k₀ : Estado) (as : List Paso) : Nat :=
  history (paso ent) (fun k _ k' n =>
    n + (k'.listaReady.drop k.listaReady.length).countP fun d => k'.clave ent d < k'.clave ent h)
    k₀ as 0

def Paso.itera : Paso → Bool
  | .cortoPlazo => true
  | _ => false

/-- The iterations of `planificador_corto_plazo` in a run. -/
def vueltasCorto (as : List Paso) : Nat := as.countP Paso.itera

theorem clave_fifo (h : ent.algoritmoPlanificacion = .fifo) : k.clave ent = fun _ => 0 := by
  funext d
  unfold Estado.clave
  rw [h]

theorem clave_prioridades (h : ent.algoritmoPlanificacion = .prioridades) (d : Dir) :
    k.clave ent d = nroPrioridad k.tcbs d := by
  unfold Estado.clave
  rw [h]

/-- The scheduler takes the first of the threads with the least key. -/
theorem Estado.Elige.least {i : Nat} {h : Dir} (he : k.Elige ent i h) :
    Least (k.clave ent) k.listaReady h i k.listaReady.length := by
  obtain ⟨hi, helige⟩ := he
  have hlt : i < k.listaReady.length := (List.getElem?_eq_some_iff.mp hi).1
  cases halg : ent.algoritmoPlanificacion with
  | otro =>
    rw [halg] at helige
    exact helige.elim
  | fifo =>
    rw [halg] at helige
    subst helige
    rw [clave_fifo halg]
    exact ⟨hi, hlt, Nat.le_refl _, fun _ _ _ _ => le_refl _,
      fun j hj => absurd hj (Nat.not_lt_zero j)⟩
  | prioridades =>
    rw [halg] at helige
    have hclave : k.clave ent = nroPrioridad k.tcbs := funext (clave_prioridades halg)
    rw [hclave]
    refine ⟨hi, hlt, Nat.le_refl _, fun j _ b hb => ?_, fun j hj b hb => ?_⟩
    · exact (helige j b hb).elim le_of_lt fun heq => le_of_eq heq.1
    · exact (helige j b hb).resolve_right fun heq => absurd heq.2 (not_le.mpr hj)

theorem adelantos_snoc {k₀ : Estado} {h : Dir} (hr : Reaches (paso ent) k₀ as k)
    (hp : paso ent k p = .ok (k', o)) : adelantos ent h k₀ (as ++ [p]) = adelantos ent h k₀ as +
      (k'.listaReady.drop k.listaReady.length).countP fun d => k'.clave ent d < k'.clave ent h :=
  history_snoc hr hp

/-- With FIFO nobody gets ahead. -/
theorem adelantos_fifo (halg : ent.algoritmoPlanificacion = .fifo) {h : Dir}
    (hr : Reaches (paso ent) k₀ as k) : adelantos ent h k₀ as = 0 := by
  refine hr.along (I := fun as _ => adelantos ent h k₀ as = 0) rfl ?_
  intro pre s₁ a s₂ o _ hs hI ha
  rw [adelantos_snoc hs ha, hI, clave_fifo halg]
  simp

theorem vueltasCorto_snoc (as : List Paso) (p : Paso) :
    vueltasCorto (as ++ [p]) = vueltasCorto as + if p.itera then 1 else 0 := by
  simp [vueltasCorto, List.countP_append, List.countP_singleton]

/-! ## Runs -/

/-- No step ends a thread that waits for the CPU. -/
def Estado.RespetaListos (ent : Entorno) (k : Estado) (p : Paso) : Prop :=
  ∀ d ∈ (k.movimiento ent p).terminan, d ∉ k.listaReady

instance (k : Estado) (p : Paso) : Decidable (k.RespetaListos ent p) :=
  inferInstanceAs (Decidable (∀ _ ∈ _, _))

/-- The keys of the threads that wait stay. -/
theorem clave_paso (hk : k.Asignado) (hc : k.plani.Conocidos)
    (hfin : ent.algoritmoPlanificacion = .prioridades → k.RespetaListos ent p)
    (hp : paso ent k p = .ok (k', o)) {d : Dir} (hd : d ∈ k.listaReady) :
    k'.clave ent d = k.clave ent d := by
  unfold Estado.clave
  split
  · rename_i halg
    have hfijo := paso_fijo hp (hk.hilos d (hc.ready hd)) fun hter => hfin halg d hter hd
    exact congrArg (fun t : Uint32 × Uint32 × CInt × Cadena => t.2.2.1.toInt) hfijo
  · rfl

/-- An iteration of the run gave `h` the CPU, after as many others as `m` says. -/
def Atendido (ent : Entorno) (k₀ : Estado) (h : Dir) (m : List Paso → Nat) (as : List Paso) :
    Prop :=
  ∃ as₁ as₂ k₁ k₂, as = as₁ ++ .cortoPlazo :: as₂ ∧ Reaches (paso ent) k₀ as₁ k₁ ∧
    paso ent k₁ .cortoPlazo = .ok (k₂, [.recibirTid (k₁.tcbs h).pid (k₁.tcbs h).tid]) ∧
    k₂.colaExec = k₁.colaExec ++ [h] ∧ vueltasCorto as₁ = m as₁

theorem Atendido.mono {h : Dir} {m : List Paso → Nat} (ha : Atendido ent k₀ h m as) (p : Paso) :
    Atendido ent k₀ h m (as ++ [p]) := by
  obtain ⟨as₁, as₂, k₁, k₂, rfl, hresto⟩ := ha
  exact ⟨as₁, as₂ ++ [p], k₁, k₂, by simp, hresto⟩

/-- The threads that wait exist. -/
theorem conocidos_corrida {tcbs : Dir → TCB} {pcbs : Dir → PCB} {uint32s : Dir → Uint32}
    (h : Reaches (paso ent) (estadoInicial tcbs pcbs uint32s) as k) :
    k.Asignado ∧ k.plani.Conocidos := by
  refine h.keeps (I := fun s => s.Asignado ∧ s.plani.Conocidos) ?_ fun s₁ p s₂ o _ hI hp => ?_
  · exact ⟨⟨fun _ hd => absurd hd List.not_mem_nil, fun _ hq => absurd hq List.not_mem_nil⟩,
      List.nil_subset _, List.nil_subset _⟩
  · exact ⟨(paso_crea hp).asignado hI.1, (paso_mueve hp).conocidos hI.2 (fun e => admitido_mem)
      fun e => movimiento_toca_mem⟩

/-- An iteration of the scheduler: the thread that it takes, and what it writes. -/
theorem corto_despacha (halg : ent.algoritmoPlanificacion ≠ .otro)
    (hp : paso ent k .cortoPlazo = .ok (k', o)) :
    ∃ i d, k.Elige ent i d ∧ k'.listaReady = k.listaReady.eraseIdx i ∧
      k'.tcbs = (k.setEstado d .exec).tcbs ∧ k'.colaExec = k.colaExec ++ [d] ∧
      o = [.recibirTid (k.tcbs d).pid (k.tcbs d).tid] := by
  have ho := paso_salida hp
  obtain ⟨-, ⟨hotro, -⟩ | ⟨i, d, s, vs, helige, rfl⟩⟩ := planificadorCortoPlazo_ok (paso_ok hp)
  · exact absurd hotro halg
  · exact ⟨i, d, helige, rfl, rfl, rfl, ho.trans List.drop_left⟩

theorem clave_of_fijo (h : ∀ d, (k'.tcbs d).fijo = (k.tcbs d).fijo) :
    k'.clave ent = k.clave ent := by
  funext d
  unfold Estado.clave nroPrioridad
  rw [show (k'.tcbs d).prioridad = (k.tcbs d).prioridad from
    congrArg (fun t : Uint32 × Uint32 × CInt × Cadena => t.2.2.1) (h d)]

/-- An iteration takes a thread ahead of `h`, or `h` if nobody is ahead of it. -/
theorem waits_corto {h : Dir} {m n : Nat} (halg : ent.algoritmoPlanificacion ≠ .otro)
    (hw : Line.Waits (k.clave ent) h m n k.listaReady)
    (hp : paso ent k .cortoPlazo = .ok (k', o)) :
    Line.Waits (k'.clave ent) h (m + (k'.listaReady.drop k.listaReady.length).countP
        fun d => k'.clave ent d < k'.clave ent h) (n + 1) k'.listaReady ∨
      n = m ∧ o = [.recibirTid (k.tcbs h).pid (k.tcbs h).tid] ∧
        k'.colaExec = k.colaExec ++ [h] := by
  obtain ⟨i, d, helige, hready, htcbs, hexec, ho⟩ := corto_despacha halg hp
  rcases hw.serve helige.least with hw | ⟨rfl, hn⟩
  · -- Nobody comes, and the keys stay.
    have hnadie : (k.listaReady.eraseIdx i).drop k.listaReady.length = [] :=
      List.drop_eq_nil_of_le (List.eraseIdx_sublist _ _).length_le
    have hclave : k'.clave ent = k.clave ent :=
      clave_of_fijo fun e => htcbs ▸ fijo_setEstado d .exec e
    rw [hready, hnadie, hclave]
    exact .inl hw
  · exact .inr ⟨hn, ho, hexec⟩

/-- A step of another thread of the kernel only lets threads come. -/
theorem waits_otro {h : Dir} {m n : Nat} (hk : k.Asignado) (hc : k.plani.Conocidos)
    (hfin : ent.algoritmoPlanificacion = .prioridades → k.RespetaListos ent p)
    (hno : p ≠ .cortoPlazo) (hw : Line.Waits (k.clave ent) h m n k.listaReady)
    (hp : paso ent k p = .ok (k', o)) :
    Line.Waits (k'.clave ent) h (m + (k'.listaReady.drop k.listaReady.length).countP
      fun d => k'.clave ent d < k'.clave ent h) n k'.listaReady := by
  obtain ⟨bs, hbs⟩ := (paso_mueve hp).ready_append (movimiento_ne_despacha hno)
  have hready : k'.listaReady = k.listaReady ++ bs := hbs
  rw [hready, List.drop_left]
  exact (hw.congr fun d hd => clave_paso hk hc hfin hp hd).arrive bs

section Corridas

variable {tcbs : Dir → TCB} {pcbs : Dir → PCB} {uint32s : Dir → Uint32} {antes : List Paso}
  {pre post : List Dir} {h : Dir}

/-- **The exact wait for the CPU.** Take a run of the kernel from a state in which `h` stands in
`lista_ready` between `pre` and `post`. After each of its prefixes, `h` waits, and the iterations of
the scheduler and the threads ahead of `h` are as many as those ahead of it at the start and those
that got ahead; or it got the CPU in the iteration after as many others. With FIFO that is its
position. With PRIORIDADES the run must end no thread that waits for the CPU. -/
theorem espera_exacta (halg : ent.algoritmoPlanificacion ≠ .otro)
    (hantes : Reaches (paso ent) (estadoInicial tcbs pcbs uint32s) antes k₀)
    (hlista : k₀.listaReady = pre ++ h :: post)
    (hfin : ent.algoritmoPlanificacion = .prioridades →
      EveryStep (paso ent) k₀ as fun _ => Estado.RespetaListos ent)
    (hr : Reaches (paso ent) k₀ as k) :
    ((∃ pre' post', k.listaReady = pre' ++ h :: post' ∧
        vueltasCorto as + k.delante ent pre' h post' =
          k₀.delante ent pre h post + adelantos ent h k₀ as) ∨
      Atendido ent k₀ h (fun as₁ => k₀.delante ent pre h post + adelantos ent h k₀ as₁) as) ∧
    (ent.algoritmoPlanificacion = .fifo →
      k₀.delante ent pre h post + adelantos ent h k₀ as = pre.length) := by
  refine ⟨?_, fun hfifo => ?_⟩
  · have hinv := hr.invariant
      (I := fun as k => (k.Asignado ∧ k.plani.Conocidos) ∧
        (Line.Waits (k.clave ent) h (k₀.delante ent pre h post + adelantos ent h k₀ as)
          (vueltasCorto as) k.listaReady ∨
        Atendido ent k₀ h (fun as₁ => k₀.delante ent pre h post + adelantos ent h k₀ as₁) as))
      (C := fun _ k p => ent.algoritmoPlanificacion = .prioridades → k.RespetaListos ent p)
      (fun pre s a r hpre hs ha hpri => hfin hpri pre s a r hpre hs ha)
      ⟨conocidos_corrida hantes, .inl ⟨pre, post, hlista, Nat.zero_add _⟩⟩ ?_
    · exact hinv.2
    rintro as₁ s₁ p s₂ o - hs₁ ⟨⟨hk, hc⟩, hI⟩ hC hp
    refine ⟨⟨(paso_crea hp).asignado hk, (paso_mueve hp).conocidos hc (fun e => admitido_mem)
      fun e => movimiento_toca_mem⟩, ?_⟩
    rcases hI with hw | hat
    · by_cases hcorto : p = .cortoPlazo
      · subst hcorto
        rcases waits_corto halg hw hp with hw | ⟨hn, rfl, hexec⟩
        · rw [adelantos_snoc hs₁ hp, ← Nat.add_assoc, vueltasCorto_snoc]
          exact .inl hw
        · exact .inr ⟨as₁, [], s₁, s₂, rfl, hs₁, hp, hexec, hn⟩
      · have hit : p.itera = false := by
          cases p with
          | cortoPlazo => exact absurd rfl hcorto
          | _ => rfl
        rw [adelantos_snoc hs₁ hp, ← Nat.add_assoc, vueltasCorto_snoc, hit]
        exact .inl (waits_otro hk hc hC hcorto hw hp)
    · exact .inr (hat.mono p)
  · unfold Estado.delante
    rw [adelantos_fifo hfifo hr, clave_fifo hfifo, Line.ahead_const, Nat.add_zero]

end Corridas

/-- The thread 1 of the first process waits for the CPU. -/
def unoListo : List Paso :=
  arranque ++
    [.syscall (.threadCreate ⟨1, 0, ['b'], 2⟩), .memoria (.confirmarCreacionHilo ⟨1, 1, 1⟩)]

/-- Another one comes, with a smaller `prioridad`. -/
def otroAdelanta : List Paso :=
  [.syscall (.threadCreate ⟨1, 0, ['c'], 1⟩), .memoria (.confirmarCreacionHilo ⟨1, 3, 1⟩),
    .cortoPlazo, .cortoPlazo]

theorem espera_exacta_adelantado :
    let ent := entornoPrioridades
    ∃ k₀ k, Reaches (paso ent) estadoCero unoListo k₀ ∧
      Reaches (paso ent) k₀ otroAdelanta k ∧ k.colaExec = [3, 7, 5] ∧
      ((∃ pre' post', k.listaReady = pre' ++ 5 :: post' ∧
          vueltasCorto otroAdelanta + k.delante ent pre' 5 post' =
            k₀.delante ent [] 5 [] + adelantos ent 5 k₀ otroAdelanta) ∨
        Atendido ent k₀ 5 (fun as₁ => k₀.delante ent [] 5 [] + adelantos ent 5 k₀ as₁)
          otroAdelanta) := by
  intro ent
  obtain ⟨k, hk, hexec⟩ : ∃ k,
      Reaches (paso ent) estadoCero (unoListo ++ otroAdelanta) k ∧
        k.colaExec = [3, 7, 5] :=
    reaches_of_map (g := Estado.colaExec) (by decide +kernel)
  obtain ⟨k₀', hk₀', hready⟩ : ∃ k, Reaches (paso ent) estadoCero unoListo k ∧
      k.listaReady = [] ++ 5 :: [] :=
    reaches_of_map (g := Estado.listaReady) (by decide +kernel)
  obtain ⟨k₀, hk₀, hr⟩ := reaches_append.mp hk
  obtain rfl := hk₀.unique hk₀'
  have hnadie : ∀ a ∈ otroAdelanta, a.puedeTerminar = false := by decide
  refine ⟨k₀, k, hk₀, hr, hexec, (espera_exacta (by decide) hk₀ hready
    (fun _ as s a r hpre _ _ d hd => ?_) hr).1⟩
  rw [terminan_nil (hnadie a (hpre.subset (by simp)))] at hd
  exact absurd hd List.not_mem_nil

end LastOfC.Kernel
