import LastOfC.Kernel.Pasos
import LastOfC.Kernel.Ejecuciones
import LastOfC.Lib.Tickets

/-!
# The order in which the short-term scheduler dispatches (`planificadores.c`)

A machine that makes appends to `lista_ready` and iterations of `planificador_corto_plazo`, in any
order. Between them the other threads do what they want to anything but `lista_ready`
(`CambioAjeno`). `paso_pasosReady`: each step of the kernel is such a run.

Each append draws a number, those that stand in `lista_ready` at the start the first ones.
`orden_de_despacho`: there is a list of numbers without repetitions, one for each iteration, so
that `lista_ready` always holds the threads with the other numbers, in order, and each iteration
sends the thread with its number. With FIFO these are 0, 1, 2, …, and with PRIORIDADES the thread
comes before all that stand in the list.
-/

namespace LastOfC.Kernel

open Imp Trace Planificacion

variable {ent : Entorno} {k k' k₀ : Estado}

/-- What other threads do, to anything but `lista_ready`. -/
structure CambioAjeno where
  hace : Estado → Estado
  listaReady : ∀ k, (hace k).listaReady = k.listaReady

inductive PasoReady where
  /-- `list_add(lista_ready, h)`, from any function. -/
  | agregar (h : Dir)
  | ajeno (f : CambioAjeno)
  | iteracion

def pasoReady (ent : Entorno) (k : Estado) : PasoReady → Except Falla (Estado × List Paquete)
  | .agregar h => .ok (k.agregarReady h, [])
  | .ajeno f => .ok (f.hace k, [])
  | .iteracion => paso ent k .cortoPlazo

def PasoReady.agrega : PasoReady → Option Dir
  | .agregar h => some h
  | _ => none

def PasoReady.itera : PasoReady → Bool
  | .iteracion => true
  | _ => false

/-- The threads that got into `lista_ready`, in order, first those of the start. -/
def entrados (k₀ : Estado) (as : List PasoReady) : List Dir :=
  k₀.listaReady ++ as.filterMap PasoReady.agrega

def iteraciones (as : List PasoReady) : Nat := as.countP PasoReady.itera

/-! ## Steps of the kernel -/

/-- A step other than an iteration of the scheduler only appends to `lista_ready`. -/
theorem Planificacion.Mueve.ready_append {s s' : Planificacion} {m : Movimiento}
    (h : s.Mueve m s') (hd : m ≠ .despacha) : ∃ bs, s'.ready = s.ready ++ bs := by
  cases h with
  | nada => exact ⟨[], (List.append_nil _).symm⟩
  | nace => exact ⟨[], (List.append_nil _).symm⟩
  | admite h => exact ⟨h.toList, rfl⟩
  | encola h => exact ⟨[h], rfl⟩
  | bloquea => exact ⟨[], (List.append_nil _).symm⟩
  | duerme h => exact ⟨[h], rfl⟩
  | despacha => exact absurd rfl hd
  | gira => exact ⟨[], (List.append_nil _).symm⟩
  | termina => exact ⟨_, rfl⟩

/-- Only an iteration of the scheduler dispatches. -/
theorem movimiento_ne_despacha {p : Paso} (hp : p ≠ .cortoPlazo) :
    k.movimiento ent p ≠ .despacha := by
  have hfin : ∀ o, k.movFinHilo o ≠ .despacha := by
    intro o
    cases o <;> simp [Estado.movFinHilo]
  have hde : ∀ (f : Dir → Movimiento) o, (∀ h, f h ≠ .despacha) → movDe f o ≠ .despacha := by
    intro f o hf
    cases o with
    | none => simp [movDe]
    | some h => exact hf h
  cases p with
  | syscall s => cases s <;> grind [Estado.movimiento, Estado.movSyscall]
  | memoria d => cases d <;> grind [Estado.movimiento]
  | cortoPlazo => exact absurd rfl hp
  | largoPlazo => simp [Estado.movimiento]

theorem corrida_agregar (k : Estado) (hs : List Dir) :
    Reaches (pasoReady ent) k (hs.map .agregar) { k with listaReady := k.listaReady ++ hs } := by
  induction hs generalizing k with
  | nil =>
    rw [List.append_nil]
    exact reaches_nil.mpr rfl
  | cons h hs ih =>
    rw [List.map_cons, ← List.singleton_append]
    refine reaches_append.mpr ⟨k.agregarReady h, reaches_singleton.mpr ⟨[], rfl⟩, ?_⟩
    have hfin := ih (k.agregarReady h)
    unfold Estado.agregarReady at hfin ⊢
    rwa [List.append_assoc, List.singleton_append] at hfin

/-- **Each step of the kernel is a run of appends, other writes, and iterations.** -/
theorem paso_pasosReady {p : Paso} {o : List Paquete} (h : paso ent k p = .ok (k', o)) :
    ∃ as, Reaches (pasoReady ent) k as k' := by
  by_cases hp : p = .cortoPlazo
  · subst hp
    exact ⟨[.iteracion], reaches_singleton.mpr ⟨o, h⟩⟩
  · obtain ⟨bs, hbs⟩ := (paso_mueve h).ready_append (movimiento_ne_despacha hp)
    have hready : k'.listaReady = k.listaReady ++ bs := hbs
    let resto : CambioAjeno := ⟨fun s => { k' with listaReady := s.listaReady }, fun _ => rfl⟩
    refine ⟨bs.map .agregar ++ [.ajeno resto],
      reaches_append.mpr ⟨_, corrida_agregar k bs, reaches_singleton.mpr ⟨[], ?_⟩⟩⟩
    simp only [pasoReady, resto, ← hready]

/-! ## An iteration -/

theorem compararPrioridad_vuelve {menor : Dir × Nat} {i : Nat} (hk : 0 < k.mutex)
    (hi : i < k.listaReady.length) :
    ∃ r, (compararPrioridad menor i).run k = .ok r k.trasCerrojo := by
  have hleer : (conMutex (leer (·.listaReady[i]?))).run k =
      .ok (some k.listaReady[i]) k.trasCerrojo := by
    rw [← List.getElem?_eq_getElem hi]
    exact conMutex_run hk (leer_run _) rfl
  unfold compararPrioridad
  rw [bind_run hleer, bind_run (desref_run _), bind_run get_run]
  split
  · exact ⟨_, rfl⟩
  · exact ⟨_, rfl⟩

theorem compararTodos_vuelve {menor : Dir × Nat} {i n : Nat} (hk : 0 < k.mutex)
    (hn : i + n ≤ k.listaReady.length) :
    ∃ r k', ((List.range' i n).foldlM compararPrioridad menor).run k = .ok r k' ∧ 0 < k'.mutex := by
  induction n generalizing i menor k with
  | zero => exact ⟨menor, k, rfl, hk⟩
  | succ n ih =>
    obtain ⟨r, hr⟩ : ∃ r, (compararPrioridad menor i).run k = .ok r k.trasCerrojo :=
      compararPrioridad_vuelve hk (by omega)
    rw [List.range'_succ, List.foldlM_cons, bind_run hr]
    exact ih (k := k.trasCerrojo) hk (by
      show i + 1 + n ≤ k.listaReady.length
      omega)

theorem buscarHiloMenorNroPrioridad_vuelve (hk : 0 < k.mutex) (hready : k.listaReady ≠ []) :
    ∃ h k', buscarHiloMenorNroPrioridad.run k = .ok (some h) k' := by
  obtain ⟨a, resto, hl⟩ := List.exists_cons_of_ne_nil hready
  have hleer : (conMutex (leer (·.listaReady))).run k = .ok (a :: resto) k.trasCerrojo := by
    rw [← hl]
    exact conMutex_run hk (leer_run _) rfl
  have hlargo : 1 + resto.length ≤ k.trasCerrojo.listaReady.length := by
    show 1 + resto.length ≤ k.listaReady.length
    rw [hl, List.length_cons, Nat.add_comm]
  obtain ⟨r, k', hr, hk'⟩ : ∃ r k', ((List.range' 1 resto.length).foldlM compararPrioridad
      (a, 0)).run k.trasCerrojo = .ok r k' ∧ 0 < k'.mutex := compararTodos_vuelve hk hlargo
  unfold buscarHiloMenorNroPrioridad
  rw [bind_run hleer]
  show ∃ h k', (do
    let menor ← (List.range' 1 resto.length).foldlM compararPrioridad (a, 0)
    conMutex (modify fun k => { k with listaReady := k.listaReady.eraseIdx menor.2 })
    pure (some menor.1) : Op (Option Dir)).run k.trasCerrojo = .ok (some h) k'
  rw [bind_run hr]
  exact ⟨r.1, _, bind_run (conMutex_run hk' (modify_run _) rfl)⟩

/-- An iteration on a list that is not empty dispatches a thread. -/
theorem iteracion_vuelve (halg : ent.algoritmoPlanificacion ≠ .otro) (hsem : 0 < k.tcbAPlanificar)
    (hk : 0 < k.mutex) (hready : k.listaReady ≠ []) :
    ∃ r, pasoReady ent k .iteracion = .ok r := by
  have hrun : ∃ k', (planificadorCortoPlazo ent).run k = .ok () k' := by
    unfold planificadorCortoPlazo
    rw [bind_run get_run, if_neg (Nat.pos_iff_ne_zero.mp hsem), bind_run (modify_run _)]
    cases hent : ent.algoritmoPlanificacion with
    | fifo =>
      obtain ⟨a, resto, hl⟩ := List.exists_cons_of_ne_nil hready
      have hsacar : ∀ s : Estado, s.listaReady = a :: resto →
          sacarReady.run s = .ok (some a) { s with listaReady := resto } := by
        intro s hs
        unfold sacarReady
        rw [bind_run get_run]
        simp only [hs]
        rfl
      exact exists_bind_run (hsacar _ hl) ⟨_, rfl⟩
    | prioridades =>
      obtain ⟨h, k', hb⟩ := buscarHiloMenorNroPrioridad_vuelve
        (k := { k with tcbAPlanificar := k.tcbAPlanificar - 1 }) hk hready
      exact exists_bind_run hb ⟨_, rfl⟩
    | otro => exact absurd hent halg
  obtain ⟨k', hr⟩ := hrun
  obtain ⟨o, ho⟩ := paso_of_run (p := .cortoPlazo) hr
  exact ⟨(k', o), ho⟩

/-- What an iteration does, in terms of the list: it takes out the thread that the algorithm
chooses, and sends it. -/
theorem iteracion_ok {o : List Paquete} (halg : ent.algoritmoPlanificacion ≠ .otro)
    (h : pasoReady ent k .iteracion = .ok (k', o)) :
    ∃ i d, k.Elige ent i d ∧ k'.listaReady = k.listaReady.eraseIdx i ∧
      o = [.recibirTid (k.tcbs d).pid (k.tcbs d).tid] := by
  have hr : (planificadorCortoPlazo ent).run k = .ok () k' := paso_ok h
  have ho : o = k'.enviados.drop k.enviados.length := paso_salida h
  obtain ⟨-, ⟨hotro, -⟩ | ⟨i, d, m, vs, helige, rfl⟩⟩ := planificadorCortoPlazo_ok hr
  · exact absurd hotro halg
  · exact ⟨i, d, helige, rfl, ho.trans List.drop_left⟩

/-! ## Runs -/

/-- `lista_ready` holds the threads that got into it and no iteration took, in the order in which
they got into it; the iterations took the first ones of `ts`. -/
def Conforme (k₀ : Estado) (ts : List Nat) (as : List PasoReady) (k : Estado) : Prop :=
  ∃ l : Tickets Dir, l.drawn = entrados k₀ as ∧ l.served = ts.take (iteraciones as) ∧
    l.line = k.listaReady

/-- The next iteration sends the thread with the next number of `ts`. With PRIORIDADES, no thread
that waits has a smaller `prioridad`, and those that have the same got in after it. -/
def Despacha (ent : Entorno) (k₀ : Estado) (ts : List Nat) (as : List PasoReady) (k : Estado)
    (a : PasoReady) : Prop :=
  a = .iteracion → ∃ t h, ts[iteraciones as]? = some t ∧ (entrados k₀ as)[t]? = some h ∧
    (∀ k' o, pasoReady ent k a = .ok (k', o) →
      o = [.recibirTid (k.tcbs h).pid (k.tcbs h).tid]) ∧
    (ent.algoritmoPlanificacion = .prioridades →
      ∀ u b, u ∉ ts.take (iteraciones as) → (entrados k₀ as)[u]? = some b → k.Antecede t h u b)

theorem iteraciones_snoc (as : List PasoReady) (a : PasoReady) :
    iteraciones (as ++ [a]) = iteraciones as + if a.itera then 1 else 0 := by
  simp [iteraciones, List.countP_append, List.countP_singleton]

theorem iteraciones_prefix {as bs : List PasoReady} (h : as <+: bs) :
    iteraciones as ≤ iteraciones bs := h.sublist.countP_le

/-- What holds along a run: the numbers `ts` that the iterations took. -/
structure Numerada (ent : Entorno) (k₀ : Estado) (as : List PasoReady) (k : Estado)
    (l : Tickets Dir) : Prop where
  drawn : l.drawn = entrados k₀ as
  largo : l.served.length = iteraciones as
  line : l.line = k.listaReady
  estados : EveryState (pasoReady ent) k₀ as (Conforme k₀ l.served)
  pasos : EveryStep (pasoReady ent) k₀ as (Despacha ent k₀ l.served)
  fifo : ent.algoritmoPlanificacion = .fifo → l.served = List.range (iteraciones as)

/-- What was said with the numbers so far stays true with those that come. -/
theorem Conforme.extiende {ts ts' : List Nat} {as : List PasoReady} (h : Conforme k₀ ts as k)
    (hts : ts <+: ts') (hn : iteraciones as ≤ ts.length) : Conforme k₀ ts' as k := by
  obtain ⟨us, rfl⟩ := hts
  unfold Conforme
  rwa [List.take_append_of_le_length hn]

theorem Despacha.extiende {ts ts' : List Nat} {as : List PasoReady} {a : PasoReady}
    (h : Despacha ent k₀ ts as k a) (hts : ts <+: ts') (hn : iteraciones as ≤ ts.length) :
    Despacha ent k₀ ts' as k a := by
  obtain ⟨us, rfl⟩ := hts
  intro ha
  obtain ⟨t, d, ht, hd, ho, hpri⟩ := h ha
  refine ⟨t, d, ?_, hd, ho, ?_⟩
  · rwa [List.getElem?_append_left (List.getElem?_eq_some_iff.mp ht).1]
  · rwa [List.take_append_of_le_length hn]

theorem numerada_inicio (ent : Entorno) (k₀ : Estado) :
    Numerada ent k₀ [] k₀ (Tickets.start k₀.listaReady) where
  drawn := (List.append_nil _).symm
  largo := rfl
  line := Tickets.line_start _
  estados := by
    intro pre s hpre hs
    obtain rfl := List.prefix_nil.mp hpre
    obtain rfl := reaches_nil.mp hs
    exact ⟨Tickets.start s.listaReady, (List.append_nil _).symm, rfl, Tickets.line_start _⟩
  pasos := everyStep_nil
  fifo _ := rfl

/-- One step more, after which the numbers are `l'`. -/
theorem Numerada.snoc {as : List PasoReady} {a : PasoReady} {o : List Paquete} {l l' : Tickets Dir}
    (h : Numerada ent k₀ as k l) (hs : Reaches (pasoReady ent) k₀ as k)
    (ha : pasoReady ent k a = .ok (k', o)) (hdrawn : l'.drawn = entrados k₀ (as ++ [a]))
    (hlargo : l'.served.length = iteraciones (as ++ [a])) (hline : l'.line = k'.listaReady)
    (hserved : l.served <+: l'.served) (hpaso : Despacha ent k₀ l'.served as k a)
    (hfifo : ent.algoritmoPlanificacion = .fifo →
      l'.served = List.range (iteraciones (as ++ [a]))) :
    Numerada ent k₀ (as ++ [a]) k' l' where
  drawn := hdrawn
  largo := hlargo
  line := hline
  estados := by
    refine everyState_concat.mpr ⟨fun pre s hpre hpres => ?_, fun s hss => ?_⟩
    · refine (h.estados pre s hpre hpres).extiende hserved ?_
      rw [h.largo]
      exact iteraciones_prefix hpre
    · obtain rfl := hss.unique (hs.snoc ha)
      exact ⟨l', hdrawn, by rw [← hlargo, List.take_length], hline⟩
  pasos := by
    refine everyStep_concat.mpr ⟨fun pre s b r hpre hpres hb => ?_, fun s r hss _ => ?_⟩
    · refine (h.pasos pre s b r hpre hpres hb).extiende hserved ?_
      rw [h.largo]
      exact iteraciones_prefix ((List.prefix_append _ _).trans hpre)
    · obtain rfl := hss.unique hs
      exact hpaso
  fifo := hfifo

/-- A step that is no iteration leaves the numbers that were taken. -/
theorem Numerada.snoc_of_not_itera {as : List PasoReady} {a : PasoReady} {o : List Paquete}
    {l l' : Tickets Dir} (h : Numerada ent k₀ as k l) (hs : Reaches (pasoReady ent) k₀ as k)
    (ha : pasoReady ent k a = .ok (k', o)) (hdrawn : l'.drawn = entrados k₀ (as ++ [a]))
    (hline : l'.line = k'.listaReady) (hserved : l'.served = l.served)
    (hit : a.itera = false) : Numerada ent k₀ (as ++ [a]) k' l' := by
  have hcuenta : iteraciones (as ++ [a]) = iteraciones as := by
    rw [iteraciones_snoc, hit]
    rfl
  refine h.snoc hs ha hdrawn ?_ hline (hserved ▸ List.prefix_refl _) ?_ ?_
  · rw [hserved, hcuenta, h.largo]
  · rintro rfl
    cases hit
  · intro halg
    rw [hserved, hcuenta, h.fifo halg]

theorem Numerada.agregar {as : List PasoReady} {l : Tickets Dir} {d : Dir}
    (h : Numerada ent k₀ as k l) (hs : Reaches (pasoReady ent) k₀ as k) :
    Numerada ent k₀ (as ++ [.agregar d]) (k.agregarReady d) (l.draw d) := by
  refine h.snoc_of_not_itera hs rfl ?_ ?_ rfl rfl
  · show l.drawn ++ [d] = _
    rw [h.drawn]
    simp [entrados, PasoReady.agrega]
  · rw [Tickets.line_draw, h.line]
    rfl

theorem Numerada.ajeno {as : List PasoReady} {l : Tickets Dir} {f : CambioAjeno}
    (h : Numerada ent k₀ as k l) (hs : Reaches (pasoReady ent) k₀ as k) :
    Numerada ent k₀ (as ++ [.ajeno f]) (f.hace k) l := by
  refine h.snoc_of_not_itera hs rfl ?_ ?_ rfl rfl
  · rw [h.drawn]
    simp [entrados, PasoReady.agrega]
  · rw [h.line, f.listaReady]

/-- An iteration takes the number of the thread at the position that the algorithm chooses. -/
theorem Numerada.iteracion {as : List PasoReady} {l : Tickets Dir} {o : List Paquete}
    (halg : ent.algoritmoPlanificacion ≠ .otro) (h : Numerada ent k₀ as k l)
    (hs : Reaches (pasoReady ent) k₀ as k) (ha : pasoReady ent k .iteracion = .ok (k', o)) :
    ∃ l', Numerada ent k₀ (as ++ [.iteracion]) k' l' := by
  obtain ⟨i, d, helige, hready, ho⟩ := iteracion_ok halg ha
  obtain ⟨t, hpos, htd⟩ := Tickets.line_getElem?.mp (h.line ▸ helige.1)
  have ht : t ∈ l.waiting := List.mem_of_getElem? hpos
  have hcuenta : iteraciones (as ++ [.iteracion]) = iteraciones as + 1 := iteraciones_snoc _ _
  have hultimo : (l.served ++ [t])[iteraciones as]? = some t := by
    rw [← h.largo]
    exact List.getElem?_concat_length
  have htomados : (l.served ++ [t]).take (iteraciones as) = l.served := by
    rw [← h.largo]
    exact List.take_left
  refine ⟨l.serve t ht, h.snoc hs ha ?_ ?_ ?_ ⟨[t], rfl⟩ ?_ ?_⟩
  · show l.drawn = _
    rw [h.drawn]
    simp [entrados, PasoReady.agrega]
  · show (l.served ++ [t]).length = _
    rw [List.length_append, h.largo, hcuenta]
    rfl
  · rw [Tickets.line_serve ht hpos, h.line, hready]
  · intro _
    refine ⟨t, d, hultimo, h.drawn ▸ htd, ?_, ?_⟩
    · intro k'' o'' ha''
      rw [ha] at ha''
      cases ha''
      exact ho
    · intro hpri u b hu hb
      -- `u` waits, so it has a position, and the positions are in the order of the numbers.
      have hu' : u ∉ l.served := by
        have hu : u ∉ (l.served ++ [t]).take (iteraciones as) := hu
        rwa [htomados] at hu
      have hub : l.drawn[u]? = some b := h.drawn ▸ hb
      have huw : u ∈ l.waiting :=
        Tickets.mem_waiting.mpr ⟨(List.getElem?_eq_some_iff.mp hub).1, hu'⟩
      obtain ⟨j, hj⟩ := List.getElem?_of_mem huw
      have hant : ∀ j b, k.listaReady[j]? = some b → k.Antecede i d j b := by
        have hel := helige.2
        rwa [hpri] at hel
      have hbj : k.listaReady[j]? = some b := h.line ▸ Tickets.line_getElem?.mpr ⟨u, hj, hub⟩
      rcases hant j b hbj with hlt | ⟨heq, hij⟩
      · exact .inl hlt
      · exact .inr ⟨heq, Tickets.waiting_mono hpos hj hij⟩
  · intro hfifo
    have hi : i = 0 := by
      have hel := helige.2
      rwa [hfifo] at hel
    have htn : t = iteraciones as :=
      Tickets.waiting_zero_of_served (h.fifo hfifo) (hi ▸ hpos)
    show l.served ++ [t] = _
    rw [hcuenta, List.range_succ, h.fifo hfifo, htn]

theorem numerada_corrida {as : List PasoReady} (halg : ent.algoritmoPlanificacion ≠ .otro)
    (h : Reaches (pasoReady ent) k₀ as k) : ∃ l, Numerada ent k₀ as k l := by
  refine h.along (I := fun as k => ∃ l, Numerada ent k₀ as k l) ⟨_, numerada_inicio ent k₀⟩ ?_
  rintro pre s a s' o - hs ⟨l, hl⟩ ha
  cases a with
  | agregar d =>
    cases ha
    exact ⟨_, hl.agregar hs⟩
  | ajeno f =>
    cases ha
    exact ⟨_, hl.ajeno hs⟩
  | iteracion => exact hl.iteracion halg hs ha

/-- **The order of dispatch.** For every run of appends and iterations there are numbers `ts`, one
for each iteration and all different, such that `lista_ready` holds at each point the threads with
the other numbers, in order, and each iteration sends the thread with its number. With FIFO the
numbers are 0, 1, 2, …, and with PRIORIDADES the thread that is sent comes before all that wait.
An iteration on a list that is not empty always ends. -/
theorem orden_de_despacho (halg : ent.algoritmoPlanificacion ≠ .otro) (k₀ : Estado)
    (as : List PasoReady) (k : Estado) (h : Reaches (pasoReady ent) k₀ as k) :
    (∃ ts : List Nat, ts.Nodup ∧ ts.length = iteraciones as ∧
      EveryState (pasoReady ent) k₀ as (Conforme k₀ ts) ∧
      EveryStep (pasoReady ent) k₀ as (Despacha ent k₀ ts) ∧
      (ent.algoritmoPlanificacion = .fifo → ts = List.range (iteraciones as))) ∧
    (0 < k.tcbAPlanificar → 0 < k.mutex → k.listaReady ≠ [] →
      ∃ r, pasoReady ent k .iteracion = .ok r) := by
  obtain ⟨l, hl⟩ := numerada_corrida halg h
  exact ⟨⟨l.served, l.nodup, hl.largo, hl.estados, hl.pasos, hl.fifo⟩,
    fun hsem hk hready => iteracion_vuelve halg hsem hk hready⟩

def entornoPrioridades : Entorno := ⟨.prioridades, ['O', 'K'], id⟩

/-- A thread comes before one that has a smaller `prioridad`. -/
def dosHilosListos : List PasoReady := [.agregar 1, .agregar 0, .iteracion, .iteracion]

/-- The thread at the address `h` has the tid and the `prioridad` `h`. -/
def estadoConHilos : Estado :=
  { estadoCero with
    tcbs := fun h => ⟨1, h, sinHilo, h, [], .ready⟩
    tcbAPlanificar := 3 }

theorem orden_dosHilosListos :
    ∃ k, Reaches (pasoReady entornoPrioridades) estadoConHilos dosHilosListos k ∧
      (∃ ts : List Nat, ts.Nodup ∧ ts.length = iteraciones dosHilosListos ∧
        EveryState (pasoReady entornoPrioridades) estadoConHilos dosHilosListos
          (Conforme estadoConHilos ts) ∧
        EveryStep (pasoReady entornoPrioridades) estadoConHilos dosHilosListos
          (Despacha entornoPrioridades estadoConHilos ts)) := by
  obtain ⟨k, hk, -⟩ : ∃ k, Reaches (pasoReady entornoPrioridades) estadoConHilos dosHilosListos k ∧
      k.colaExec = [0, 1] :=
    reaches_of_map (g := Estado.colaExec) (c := [0, 1]) (by decide +kernel)
  obtain ⟨⟨ts, hnodup, hlargo, hestados, hpasos, -⟩, -⟩ :=
    orden_de_despacho (by decide) estadoConHilos dosHilosListos k hk
  exact ⟨k, hk, ts, hnodup, hlargo, hestados, hpasos⟩

end LastOfC.Kernel
