import LastOfC.Kernel.EfectosDespacho
import LastOfC.Kernel.Ejecuciones
import LastOfC.Lib.Trace

/-!
# The scan of `lista_ready` among other threads (`buscar_hilo_menorNro_prioridad`)

The scan gives `mutex` back after each read and before the removal, and other threads of the
kernel add threads to `lista_ready` in between.

* `Punto`: where the scan is, with its variables. `avanzar`: its next step, which is one critical
  section, one read of `list_size` or one comparison.
* `pasoBusqueda`: a step of the scan, or an arrival.
* `Avance`: the invariant. The index that the scan keeps denotes the thread that it keeps, and that
  is the first with the smallest number at the positions compared so far (`Least`).
* `exists_enCurso`: every interleaving. `busqueda_linealizable`: the scan is the program
  `buscarHiloMenorNroPrioridad` of the model, run at some moment in between.
-/

namespace LastOfC.Kernel

open Imp KeyedList

/-! ## The steps -/

/-- Where `buscar_hilo_menorNro_prioridad` is: `menor` and `indice` are `hiloMenorNroPrioridad` and
`indexMenorPrioridad`. -/
inductive Punto where
  /-- Before its first critical section. -/
  | inicio
  /-- At `i < list_size(lista_ready)`. -/
  | condicion (menor : Dir) (indice i : Nat)
  /-- Before the critical section of `list_get`. -/
  | obtener (menor : Dir) (indice i : Nat)
  /-- After it, with `hiloActual`. -/
  | comparar (menor : Dir) (indice i : Nat) (hiloActual : Option Dir)
  /-- Before the critical section of `list_remove`. -/
  | quitar (menor : Dir) (indice : Nat)
  /-- It returned `devuelto`, and `list_remove` took `quitado` out. -/
  | fin (devuelto quitado : Option Dir)
  deriving DecidableEq, Repr

structure Busqueda where
  listaReady : List Dir
  punto : Punto
  deriving DecidableEq, Repr

/-- Who takes the next step. -/
inductive Turno where
  | buscador
  /-- `list_add(lista_ready, h)` by another thread. -/
  | agrega (h : Dir)
  deriving DecidableEq, Repr

/-- The next step of the scan. -/
def avanzar (tcbs : Dir → TCB) (s : Busqueda) : Except Falla Busqueda :=
  match s.punto with
  | .inicio =>
    match s.listaReady with
    | [] => .ok { s with punto := .fin none none }
    | h :: _ => .ok { s with punto := .condicion h 0 1 }
  | .condicion menor indice i =>
    if i < s.listaReady.length then .ok { s with punto := .obtener menor indice i }
    else .ok { s with punto := .quitar menor indice }
  | .obtener menor indice i =>
    .ok { s with punto := .comparar menor indice i s.listaReady[i]? }
  | .comparar menor indice i hiloActual =>
    match hiloActual with
    | none => .error .punteroNulo
    | some actual =>
      if (tcbs actual).prioridad.slt (tcbs menor).prioridad then
        .ok { s with punto := .condicion actual i (i + 1) }
      else .ok { s with punto := .condicion menor indice (i + 1) }
  | .quitar menor indice =>
    .ok { listaReady := s.listaReady.eraseIdx indice
          punto := .fin (some menor) s.listaReady[indice]? }
  | .fin _ _ => .ok s

/-- A step of the scan, or an arrival. -/
def pasoBusqueda (tcbs : Dir → TCB) (s : Busqueda) : Turno → Except Falla (Busqueda × List Unit)
  | .buscador => (avanzar tcbs s).map fun s' => (s', [])
  | .agrega h => .ok ({ s with listaReady := s.listaReady ++ [h] }, [])

/-- The threads that arrive, in order. -/
def agregados : List Turno → List Dir :=
  List.filterMap fun
    | .buscador => none
    | .agrega h => some h

/-! ## The invariant -/

section Avance

variable {tcbs : Dir → TCB} {l ag lista : List Dir} {punto : Punto} {s : Busqueda}

/-- What holds at a point of the scan, when it started with the list `l`, the threads `ag` arrived,
and `lista_ready` is `lista`. -/
def Avance (tcbs : Dir → TCB) (l ag lista : List Dir) : Punto → Prop
  | .inicio => lista = l ++ ag
  | .condicion menor indice i =>
    lista = l ++ ag ∧ Least (nroPrioridad tcbs) (l ++ ag) menor indice i
  | .obtener menor indice i =>
    lista = l ++ ag ∧ i < (l ++ ag).length ∧ Least (nroPrioridad tcbs) (l ++ ag) menor indice i
  | .comparar menor indice i hiloActual =>
    lista = l ++ ag ∧ i < (l ++ ag).length ∧ hiloActual = (l ++ ag)[i]? ∧
      Least (nroPrioridad tcbs) (l ++ ag) menor indice i
  | .quitar menor indice =>
    lista = l ++ ag ∧ ∃ n ≥ l.length, Least (nroPrioridad tcbs) (l ++ ag) menor indice n
  | .fin devuelto quitado =>
    ∃ menor indice, devuelto = some menor ∧ quitado = some menor ∧
      lista = (l ++ ag).eraseIdx indice ∧
      ∃ n ≥ l.length, Least (nroPrioridad tcbs) (l ++ ag) menor indice n

/-- An arrival moves no position. -/
theorem Avance.agrega (hs : Avance tcbs l ag lista punto) (h : Dir) :
    Avance tcbs l (ag ++ [h]) (lista ++ [h]) punto := by
  cases punto with
  | inicio =>
    obtain rfl : lista = l ++ ag := hs
    exact List.append_assoc l ag [h]
  | condicion menor indice i =>
    obtain ⟨rfl, hmenor⟩ := hs
    unfold Avance
    rw [← List.append_assoc]
    exact ⟨rfl, hmenor.append [h]⟩
  | obtener menor indice i =>
    obtain ⟨rfl, hi, hmenor⟩ := hs
    unfold Avance
    rw [← List.append_assoc]
    refine ⟨rfl, ?_, hmenor.append [h]⟩
    rw [List.length_append]
    exact Nat.lt_add_right _ hi
  | comparar menor indice i hiloActual =>
    obtain ⟨rfl, hi, hactual, hmenor⟩ := hs
    unfold Avance
    rw [← List.append_assoc]
    refine ⟨rfl, ?_, ?_, hmenor.append [h]⟩
    · rw [List.length_append]
      exact Nat.lt_add_right _ hi
    · rw [hactual, List.getElem?_append_left hi]
  | quitar menor indice =>
    obtain ⟨rfl, n, hn, hmenor⟩ := hs
    unfold Avance
    rw [← List.append_assoc]
    exact ⟨rfl, n, hn, hmenor.append [h]⟩
  | fin devuelto quitado =>
    obtain ⟨menor, indice, hd, hq, rfl, n, hn, hmenor⟩ := hs
    unfold Avance
    rw [← List.append_assoc]
    have hlt : indice < (l ++ ag).length := hmenor.lt.trans_le hmenor.le_length
    exact ⟨menor, indice, hd, hq, (List.eraseIdx_append_of_lt_length hlt [h]).symm, n, hn,
      hmenor.append [h]⟩

/-- A step of the scan does not stop, and keeps the invariant. -/
theorem Avance.buscador (hne : l ≠ []) (hs : Avance tcbs l ag s.listaReady s.punto) :
    ∃ s', avanzar tcbs s = .ok s' ∧ Avance tcbs l ag s'.listaReady s'.punto := by
  obtain ⟨lista, punto⟩ := s
  cases punto with
  | inicio =>
    obtain rfl : lista = l ++ ag := hs
    obtain ⟨a, resto, rfl⟩ := List.exists_cons_of_ne_nil hne
    exact ⟨_, rfl, rfl, Least.head a (resto ++ ag)⟩
  | condicion menor indice i =>
    obtain ⟨rfl, hmenor⟩ := hs
    unfold avanzar
    by_cases hi : i < (l ++ ag).length
    · exact ⟨_, if_pos hi, rfl, hi, hmenor⟩
    · -- The positions below `i` are all those of `lista_ready` now.
      refine ⟨_, if_neg hi, rfl, i, ?_, hmenor⟩
      rw [List.length_append] at hi
      omega
  | obtener menor indice i =>
    obtain ⟨rfl, hi, hmenor⟩ := hs
    exact ⟨_, rfl, rfl, hi, rfl, hmenor⟩
  | comparar menor indice i hiloActual =>
    obtain ⟨rfl, hi, rfl, hmenor⟩ := hs
    have hget : (l ++ ag)[i]? = some (l ++ ag)[i] := List.getElem?_eq_getElem hi
    unfold avanzar
    simp only [hget]
    by_cases hlt : (tcbs (l ++ ag)[i]).prioridad.slt (tcbs menor).prioridad
    · have hmejor : nroPrioridad tcbs (l ++ ag)[i] < nroPrioridad tcbs menor :=
        BitVec.slt_iff_toInt_lt.mp hlt
      exact ⟨_, if_pos hlt, rfl, hmenor.take hget hmejor⟩
    · have hpeor : nroPrioridad tcbs menor ≤ nroPrioridad tcbs (l ++ ag)[i] :=
        not_lt.mp fun hn => hlt (BitVec.slt_iff_toInt_lt.mpr hn)
      exact ⟨_, if_neg hlt, rfl, hmenor.keep hget hpeor⟩
  | quitar menor indice =>
    obtain ⟨rfl, n, hn, hmenor⟩ := hs
    exact ⟨_, rfl, menor, indice, rfl, hmenor.get, rfl, n, hn, hmenor⟩
  | fin devuelto quitado => exact ⟨_, rfl, hs⟩

/-! ## The steps that are left -/

/-- The steps of the scan until it returns, if nobody arrives and `lista_ready` has `n` threads. -/
def restantes (n : Nat) : Punto → Nat
  | .inicio => 3 * n
  | .condicion _ _ i => 3 * (n - i) + 2
  | .obtener _ _ i => 3 * (n - i) + 1
  | .comparar _ _ i _ => 3 * (n - i)
  | .quitar _ _ => 1
  | .fin _ _ => 0

/-- An arrival is one more iteration at most. -/
theorem restantes_agrega (n : Nat) (punto : Punto) :
    restantes (n + 1) punto ≤ restantes n punto + 3 := by
  cases punto <;> simp only [restantes] <;> omega

/-- A scan with no steps left has returned. -/
theorem Avance.termino (hne : l ≠ []) (hs : Avance tcbs l ag lista punto)
    (h0 : restantes lista.length punto = 0) :
    ∃ devuelto quitado, punto = .fin devuelto quitado := by
  have hl := List.length_pos_iff.mpr hne
  cases punto with
  | inicio =>
    obtain rfl : lista = l ++ ag := hs
    simp only [restantes, List.length_append] at h0
    omega
  | comparar menor indice i hiloActual =>
    obtain ⟨rfl, hi, -⟩ := hs
    simp only [restantes] at h0
    omega
  | fin devuelto quitado => exact ⟨devuelto, quitado, rfl⟩
  | _ =>
    simp only [restantes] at h0
    omega

/-- A step of a scan that has not returned is one of those that were left. -/
theorem Avance.restantes {s' : Busqueda} (hne : l ≠ [])
    (hs : Avance tcbs l ag s.listaReady s.punto) (h : avanzar tcbs s = .ok s')
    (hpos : 0 < Kernel.restantes s.listaReady.length s.punto) :
    Kernel.restantes s'.listaReady.length s'.punto + 1 =
      Kernel.restantes s.listaReady.length s.punto := by
  obtain ⟨lista, punto⟩ := s
  cases punto with
  | inicio =>
    obtain rfl : lista = l ++ ag := hs
    obtain ⟨a, resto, rfl⟩ := List.exists_cons_of_ne_nil hne
    cases h
    simp only [Kernel.restantes, List.length_append, List.length_cons]
    omega
  | condicion menor indice i =>
    unfold avanzar at h
    by_cases hi : i < lista.length
    · cases (if_pos hi).symm.trans h
      rfl
    · cases (if_neg hi).symm.trans h
      simp only [Kernel.restantes]
      omega
  | obtener menor indice i =>
    cases h
    rfl
  | comparar menor indice i hiloActual =>
    obtain ⟨rfl, hi, rfl, -⟩ := hs
    have hget : (l ++ ag)[i]? = some (l ++ ag)[i] := List.getElem?_eq_getElem hi
    unfold avanzar at h
    simp only [hget] at h
    split_ifs at h
    all_goals
      cases h
      simp only [Kernel.restantes]
      omega
  | quitar menor indice =>
    cases h
    rfl
  | fin devuelto quitado => exact absurd hpos (Nat.lt_irrefl 0)

/-! ## Every interleaving -/

/-- The invariant of a run: the scan and its steps that are left. -/
structure EnCurso (tcbs : Dir → TCB) (l : List Dir) (ts : List Turno) (s : Busqueda) : Prop where
  avance : Avance tcbs l (agregados ts) s.listaReady s.punto
  acotada : Kernel.restantes s.listaReady.length s.punto = 0 ∨
    Kernel.restantes s.listaReady.length s.punto + ts.count .buscador ≤
      3 * (l.length + (agregados ts).length)

variable {ts : List Turno}

theorem EnCurso.buscador (hne : l ≠ []) (h : EnCurso tcbs l ts s) :
    ∃ s', avanzar tcbs s = .ok s' ∧ EnCurso tcbs l (ts ++ [.buscador]) s' := by
  obtain ⟨s', hs', havance⟩ := h.avance.buscador hne
  have hag : agregados (ts ++ [.buscador]) = agregados ts := by simp [agregados]
  refine ⟨s', hs', hag ▸ havance, ?_⟩
  rw [hag, List.count_append, List.count_singleton_self]
  rcases Nat.eq_zero_or_pos (Kernel.restantes s.listaReady.length s.punto) with h0 | hpos
  · -- The scan has returned, and stays so.
    obtain ⟨devuelto, quitado, hfin⟩ := h.avance.termino hne h0
    left
    unfold avanzar at hs'
    rw [hfin] at hs'
    cases hs'
    exact h0
  · have hbaja := h.avance.restantes hne hs' hpos
    have hcota := h.acotada
    omega

theorem EnCurso.agrega (hne : l ≠ []) (hs : EnCurso tcbs l ts s) (h : Dir) :
    EnCurso tcbs l (ts ++ [.agrega h]) { s with listaReady := s.listaReady ++ [h] } := by
  have hag : agregados (ts ++ [.agrega h]) = agregados ts ++ [h] := by simp [agregados]
  have hcuenta : (ts ++ [Turno.agrega h]).count .buscador = ts.count .buscador := by
    rw [List.count_append]
    rfl
  refine ⟨hag ▸ hs.avance.agrega h, ?_⟩
  rw [hag, hcuenta]
  simp only [List.length_append, List.length_singleton]
  rcases hs.acotada with h0 | hcota
  · obtain ⟨devuelto, quitado, hfin⟩ := hs.avance.termino hne h0
    left
    rw [hfin]
    rfl
  · right
    have hsube := restantes_agrega s.listaReady.length s.punto
    omega

/-- No step of a run fails, and all its states have the invariant. -/
theorem exists_enCurso (tcbs : Dir → TCB) (hne : l ≠ []) (ts : List Turno) :
    ∃ s, Trace.Reaches (pasoBusqueda tcbs) ⟨l, .inicio⟩ ts s ∧ EnCurso tcbs l ts s := by
  refine Trace.exists_reaches (I := EnCurso tcbs l) ?_ (fun ts s t hs => ?_) ts
  · exact ⟨(List.append_nil l).symm, .inr (Nat.le_refl _)⟩
  · cases t with
    | buscador =>
      obtain ⟨s', hs', h⟩ := hs.buscador hne
      exact ⟨s', [], by rw [pasoBusqueda, hs']; rfl, h⟩
    | agrega h => exact ⟨_, [], rfl, hs.agrega hne h⟩

end Avance

/-! ## The program of the model -/

section Programa

variable {k : Estado} {ts : List Turno} {s : Busqueda} {devuelto quitado : Option Dir}

theorem compararPrioridad_run {i : Nat} (menor : Dir × Nat) (hk : 0 < k.mutex)
    (hi : i < k.listaReady.length) :
    ∃ r, (compararPrioridad menor i).run k = .ok r k.trasCerrojo := by
  have hlee : (conMutex (leer (·.listaReady[i]?))).run k =
      .ok (some k.listaReady[i]) k.trasCerrojo := by
    rw [← List.getElem?_eq_getElem hi]
    exact conMutex_run hk (leer_run _) rfl
  unfold compararPrioridad
  rw [bind_run hlee, bind_run (desref_run _), bind_run get_run]
  split_ifs
  · exact ⟨_, rfl⟩
  · exact ⟨_, rfl⟩

theorem compararTodos_run {is : List Nat} (menor : Dir × Nat) (hk : 0 < k.mutex)
    (his : ∀ i ∈ is, i < k.listaReady.length) :
    ∃ r vs, (is.foldlM compararPrioridad menor).run k = .ok r (k.conCerrojo k.mutex vs) := by
  induction is generalizing k menor with
  | nil => exact ⟨menor, k.valoresMutex, rfl⟩
  | cons i is ih =>
    obtain ⟨hi, his⟩ := List.forall_mem_cons.mp his
    obtain ⟨r, hr⟩ := compararPrioridad_run menor hk hi
    rw [List.foldlM_cons, bind_run hr]
    exact ih (k := k.trasCerrojo) r hk his

/-- The search in one step returns a thread, if there is one. -/
theorem buscarHiloMenorNroPrioridad_run (hk : 0 < k.mutex) (hne : k.listaReady ≠ []) :
    ∃ h k', buscarHiloMenorNroPrioridad.run k = .ok (some h) k' := by
  obtain ⟨a, resto, hready⟩ := List.exists_cons_of_ne_nil hne
  have hlee : (conMutex (leer (·.listaReady))).run k = .ok k.listaReady k.trasCerrojo :=
    conMutex_run hk (leer_run _) rfl
  have his : ∀ i ∈ List.range' 1 resto.length, i < k.trasCerrojo.listaReady.length := by
    intro i hi
    have hlargo : k.trasCerrojo.listaReady.length = resto.length + 1 := by
      show k.listaReady.length = _
      rw [hready, List.length_cons]
    have := (List.mem_range'_1.mp hi).2
    omega
  obtain ⟨menor, vs, hmenor⟩ := compararTodos_run (k := k.trasCerrojo) (a, 0) hk his
  unfold buscarHiloMenorNroPrioridad
  rw [bind_run hlee, hready]
  refine ⟨menor.1, ?_⟩
  simp only [bind_run hmenor]
  exact ⟨_, bind_run (conMutex_run hk (modify_run _) rfl)⟩

/-- **The scan is one step.** Whatever arrives meanwhile, a scan that has returned did what the
program of the model does at once on the list at some moment: the threads of the start and the
first arrivals, `antes`. The others came after it. -/
theorem busqueda_linealizable (hk : 0 < k.mutex) (hne : k.listaReady ≠ [])
    (hs : Trace.Reaches (pasoBusqueda k.tcbs) ⟨k.listaReady, .inicio⟩ ts s)
    (hfin : s.punto = .fin devuelto quitado) :
    ∃ antes despues h k', agregados ts = antes ++ despues ∧
      buscarHiloMenorNroPrioridad.run { k with listaReady := k.listaReady ++ antes } =
        .ok (some h) k' ∧
      devuelto = some h ∧ quitado = some h ∧ s.listaReady = k'.listaReady ++ despues := by
  obtain ⟨s', hs', hcurso⟩ := exists_enCurso k.tcbs hne ts
  obtain rfl := hs.unique hs'
  have havance := hcurso.avance
  rw [hfin] at havance
  obtain ⟨menor, i, hd, hq, hlista, n, hn, hmenor⟩ := havance
  -- The moment is the last read of `list_size`, with `n` threads in the list.
  obtain ⟨m, rfl⟩ := Nat.exists_eq_add_of_le hn
  let antes := (agregados ts).take m
  let despues := (agregados ts).drop m
  have hparte : k.listaReady ++ agregados ts = (k.listaReady ++ antes) ++ despues := by
    rw [List.append_assoc, List.take_append_drop]
  have hlargo : (k.listaReady ++ antes).length = k.listaReady.length + m := by
    have hle := hmenor.le_length
    rw [List.length_append] at hle
    rw [List.length_append, List.length_take]
    omega
  obtain ⟨h, k', hr⟩ := buscarHiloMenorNroPrioridad_run
    (k := { k with listaReady := k.listaReady ++ antes }) hk (by simp [hne])
  obtain ⟨j, mu, vs, hmenor', rfl⟩ := buscarHiloMenorNroPrioridad_least hr
  rw [hparte] at hmenor hlista
  have hmenor' : Least (nroPrioridad k.tcbs) (k.listaReady ++ antes) h j
      (k.listaReady.length + m) := hlargo ▸ hmenor'
  obtain rfl : j = i := (hmenor'.append despues).index_unique hmenor
  obtain rfl : h = menor := Option.some.inj ((hmenor'.append despues).get.symm.trans hmenor.get)
  refine ⟨antes, despues, h, _, (List.take_append_drop m _).symm, hr, hd, hq, ?_⟩
  have hlt : j < (k.listaReady ++ antes).length := hmenor'.lt.trans_le hmenor'.le_length
  rw [hlista, List.eraseIdx_append_of_lt_length hlt]

end Programa

/-- **The scan tolerates arrivals.** For every `lista_ready` that is not empty at the start, and
every interleaving of the steps of the scan with arrivals, no step fails. If the scan has returned,
it returned the thread that `list_remove` took out, whose number is not greater than that of any
thread that was there at the start, and the list is that of the start with the arrivals in order
and without this one element. It has returned after three steps for each thread. -/
theorem busqueda_intercalada (tcbs : Dir → TCB) (l : List Dir) (hne : l ≠ []) (ts : List Turno) :
    ∃ s, Trace.Reaches (pasoBusqueda tcbs) ⟨l, .inicio⟩ ts s ∧
      (∀ devuelto quitado, s.punto = .fin devuelto quitado →
        ∃ h i, devuelto = some h ∧ quitado = some h ∧ (l ++ agregados ts)[i]? = some h ∧
          s.listaReady = (l ++ agregados ts).eraseIdx i ∧
          ∀ b ∈ l, (tcbs h).prioridad.toInt ≤ (tcbs b).prioridad.toInt) ∧
      (3 * (l.length + (agregados ts).length) ≤ ts.count .buscador →
        ∃ devuelto quitado, s.punto = .fin devuelto quitado) := by
  obtain ⟨s, hs, hcurso⟩ := exists_enCurso tcbs hne ts
  refine ⟨s, hs, fun devuelto quitado hfin => ?_, fun hpasos => ?_⟩
  · have havance := hcurso.avance
    rw [hfin] at havance
    obtain ⟨h, i, hd, hq, hlista, n, hn, hmenor⟩ := havance
    exact ⟨h, i, hd, hq, hmenor.get, hlista, fun b hb => hmenor.le_of_mem hn hb⟩
  · refine hcurso.avance.termino hne ?_
    rcases hcurso.acotada with h0 | hcota
    · exact h0
    · omega

/-- The thread `d` has the number `3 - d`. -/
def tcbsTres : Dir → TCB := fun d =>
  { pid := 1
    tid := BitVec.ofNat 32 d
    tidQueLoBloqueo := sinHilo
    prioridad := BitVec.ofNat 32 (3 - d)
    path := []
    estadoHilo := .ready }

/-- The thread 3 arrives when the scan is about to take the thread 2 out. -/
def llegaAlFinal : List Turno :=
  List.replicate 5 .buscador ++ [.agrega 3] ++ List.replicate 4 .buscador

theorem busqueda_llegaAlFinal : ∃ s, Trace.Reaches (pasoBusqueda tcbsTres) ⟨[1, 2], .inicio⟩
    llegaAlFinal s ∧ s.punto = .fin (some 2) (some 2) ∧ s.listaReady = [1, 3] ∧
      ∀ b ∈ [1, 2], (tcbsTres 2).prioridad.toInt ≤ (tcbsTres b).prioridad.toInt := by
  obtain ⟨s, hs, hfin, -⟩ := busqueda_intercalada tcbsTres [1, 2] (by decide) llegaAlFinal
  have hrun : Trace.Reaches (pasoBusqueda tcbsTres) ⟨[1, 2], .inicio⟩ llegaAlFinal
      ⟨[1, 3], .fin (some 2) (some 2)⟩ := ⟨[], rfl⟩
  obtain rfl := hs.unique hrun
  obtain ⟨h, i, hd, -, -, -, hmenor⟩ := hfin (some 2) (some 2) rfl
  obtain rfl := Option.some.inj hd
  exact ⟨_, hs, rfl, rfl, hmenor⟩

end LastOfC.Kernel
