import LastOfC.Kernel.Soltar

/-!
# Waking the threads that wait for another one (`desbloquear_hilos_por_tid`)

The loop removes from the list that it indexes, and goes back one position after each removal.

* `Recorre`: the loop from a position on, without a bound on the iterations. A derivation is a
  loop that ends. `Recorre.desbloquearDesde` connects it to the bounded loop of the model.
* `Estado.desbloqueado`: the state after the loop, in one step.
* `recorre_desbloqueado`: the loop from any position, with `lista_blocked` split there: nothing in
  the first part waits, and the second part is still to be seen.
* `Desbloquea`: what the loop does to the two lists and to the TCBs.
* `finalizarHilo_desbloquea`: what `finalizar_hilo` does to them, which holds no lock at the call.
-/

namespace LastOfC.Kernel

open Imp KeyedList

variable {ent : Entorno} {k k' : Estado} {h b p : Dir} {i n : Nat}

/-! ## The loop -/

/-- The loop of `desbloquear_hilos_por_tid` from position `i` on takes `k` to `k'`. -/
inductive Recorre (h : Dir) : Nat → Estado → Estado → Prop where
  /-- `i < list_size(lista_blocked)` is false. -/
  | termina {i : Nat} {k : Estado} (hi : k.listaBlocked[i]? = none) : Recorre h i k k
  | avanza {i : Nat} {k k' : Estado} {b : Dir} (hi : k.listaBlocked[i]? = some b)
      (hb : ¬ k.espera h b) (hr : Recorre h (i + 1) k k') : Recorre h i k k'
  /-- `i--` and `i++`. -/
  | despierta {i : Nat} {k k₁ k' : Estado} {b : Dir} (hi : k.listaBlocked[i]? = some b)
      (hb : k.espera h b) (hd : (despertarHilo i b).run k = .ok () k₁) (hr : Recorre h i k₁ k') :
      Recorre h i k k'

/-- A loop that ends is the bounded loop, with any bound that `lista_blocked` gives. -/
theorem Recorre.desbloquearDesde (hr : Recorre h i k k') (hk : 0 < k.mutex)
    (hn : k.listaBlocked.length ≤ i + n) : (Kernel.desbloquearDesde h n i).run k = .ok () k' := by
  induction hr generalizing n with
  | termina hi => exact desbloquearDesde_termina hi
  | @avanza i k k' b hi hb hr ih =>
    have hlt := (List.getElem?_eq_some_iff.mp hi).1
    obtain ⟨n, rfl⟩ : ∃ n', n = n' + 1 := ⟨n - 1, by omega⟩
    rw [desbloquearDesde_avanza hi hb]
    exact ih hk (by omega)
  | @despierta i k k₁ k' b hi hb hd hr ih =>
    have hlt := (List.getElem?_eq_some_iff.mp hi).1
    obtain ⟨n, rfl⟩ : ∃ n', n = n' + 1 := ⟨n - 1, by omega⟩
    have hlen := length_despertar hi
    rw [desbloquearDesde_despierta hi hb, bind_run hd]
    rw [despertarHilo_run i b hk] at hd
    cases hd
    refine ih hk ?_
    show (k.despertar i b).listaBlocked.length ≤ i + n
    omega

/-! ## What the loop does -/

/-- The threads of `lista_blocked` that wait for `h` go to the end of `lista_ready`. -/
def Estado.desbloqueado (k : Estado) (h : Dir) : Estado :=
  { k with
    tcbs := fun b =>
      if b ∈ k.listaBlocked ∧ k.espera h b then
        { k.tcbs b with estadoHilo := .ready, tidQueLoBloqueo := sinHilo }
      else k.tcbs b
    listaReady := k.listaReady ++ k.listaBlocked.filter fun b => k.espera h b
    listaBlocked := k.listaBlocked.filter fun b => ¬ k.espera h b }

theorem desbloqueado_de_nadie (hno : ∀ b ∈ k.listaBlocked, ¬ k.espera h b) :
    k.desbloqueado h = k := by
  have htcbs : (fun b => if b ∈ k.listaBlocked ∧ k.espera h b then
      { k.tcbs b with estadoHilo := .ready, tidQueLoBloqueo := sinHilo } else k.tcbs b) =
      k.tcbs := by
    funext b
    exact if_neg fun hb => hno b hb.1 hb.2
  have hready : k.listaBlocked.filter (fun b => k.espera h b) = [] :=
    List.filter_eq_nil_iff.mpr fun b hb => by simpa using hno b hb
  have hblocked : k.listaBlocked.filter (fun b => ¬ k.espera h b) = k.listaBlocked :=
    List.filter_eq_self.mpr fun b hb => by simpa using hno b hb
  unfold Estado.desbloqueado
  rw [htcbs, hready, hblocked, List.append_nil]

/-! The first thread that waits can be woken before the others. -/

section Primero

variable {pre post : List Dir}

theorem listaBlocked_despertar (hk : k.listaBlocked = pre ++ b :: post) :
    (k.despertar pre.length b).listaBlocked = pre ++ post := by
  show k.listaBlocked.eraseIdx pre.length = _
  rw [hk, eraseIdx_split]

theorem not_mem_resto (hk : k.listaBlocked = pre ++ b :: post) (hnodup : k.listaBlocked.Nodup) :
    b ∉ pre ++ post := by
  rw [hk] at hnodup
  exact (List.nodup_cons.mp (List.perm_middle.nodup_iff.mp hnodup)).1

/-- The others wait for `h` as before. -/
theorem espera_resto (hk : k.listaBlocked = pre ++ b :: post) (hnodup : k.listaBlocked.Nodup)
    {a : Dir} (ha : a ∈ pre ++ post) :
    (k.despertar pre.length b).espera h a ↔ k.espera h a :=
  despertar_espera fun hab => not_mem_resto hk hnodup (hab ▸ ha)

theorem desbloqueado_despertar_tcbs (hk : k.listaBlocked = pre ++ b :: post)
    (hnodup : k.listaBlocked.Nodup) (hb : k.espera h b) :
    ((k.despertar pre.length b).desbloqueado h).tcbs = (k.desbloqueado h).tcbs := by
  funext a
  unfold Estado.desbloqueado
  simp only [listaBlocked_despertar hk]
  by_cases hab : a = b
  · subst hab
    rw [if_neg fun hmem => not_mem_resto hk hnodup hmem.1, if_pos ⟨by simp [hk], hb⟩]
    simp [Estado.despertar, Estado.modTcb]
  · have hmem : a ∈ pre ++ post ↔ a ∈ k.listaBlocked := by
      rw [hk]
      simp [hab]
    have htcb : (k.despertar pre.length b).tcbs a = k.tcbs a := by
      simp [Estado.despertar, Estado.modTcb, hab]
    simp only [htcb, hmem, despertar_espera hab]

theorem desbloqueado_despertar_ready (hk : k.listaBlocked = pre ++ b :: post)
    (hnodup : k.listaBlocked.Nodup) (hpre : ∀ a ∈ pre, ¬ k.espera h a) (hb : k.espera h b) :
    ((k.despertar pre.length b).desbloqueado h).listaReady = (k.desbloqueado h).listaReady := by
  have hnadie : pre.filter (fun a => k.espera h a) = [] :=
    List.filter_eq_nil_iff.mpr fun a ha => by simpa using hpre a ha
  have hresto : (pre ++ post).filter (fun a => (k.despertar pre.length b).espera h a) =
      (pre ++ post).filter fun a => k.espera h a :=
    List.filter_congr fun a ha => decide_eq_decide.mpr (espera_resto hk hnodup ha)
  show k.listaReady ++ [b] ++ (k.despertar pre.length b).listaBlocked.filter _ =
    k.listaReady ++ k.listaBlocked.filter _
  rw [listaBlocked_despertar hk, hresto, hk, List.filter_append, List.filter_append, hnadie,
    List.filter_cons_of_pos (by simpa using hb), List.append_assoc]
  rfl

theorem desbloqueado_despertar_blocked (hk : k.listaBlocked = pre ++ b :: post)
    (hnodup : k.listaBlocked.Nodup) (hb : k.espera h b) :
    ((k.despertar pre.length b).desbloqueado h).listaBlocked = (k.desbloqueado h).listaBlocked := by
  have hresto : (pre ++ post).filter (fun a => ¬ (k.despertar pre.length b).espera h a) =
      (pre ++ post).filter fun a => ¬ k.espera h a :=
    List.filter_congr fun a ha => decide_eq_decide.mpr (not_congr (espera_resto hk hnodup ha))
  show (k.despertar pre.length b).listaBlocked.filter _ = k.listaBlocked.filter _
  rw [listaBlocked_despertar hk, hresto, hk, List.filter_append, List.filter_append,
    List.filter_cons_of_neg (by simpa using hb)]

theorem desbloqueado_despertar (hk : k.listaBlocked = pre ++ b :: post)
    (hnodup : k.listaBlocked.Nodup) (hpre : ∀ a ∈ pre, ¬ k.espera h a) (hb : k.espera h b) :
    (k.despertar pre.length b).desbloqueado h = k.desbloqueado h := by
  show { k with
    tcbs := ((k.despertar pre.length b).desbloqueado h).tcbs
    listaReady := ((k.despertar pre.length b).desbloqueado h).listaReady
    listaBlocked := ((k.despertar pre.length b).desbloqueado h).listaBlocked } = _
  rw [desbloqueado_despertar_tcbs hk hnodup hb, desbloqueado_despertar_ready hk hnodup hpre hb,
    desbloqueado_despertar_blocked hk hnodup hb]
  rfl

end Primero

/-- **The invariant of the loop.** From the position between the two parts of `lista_blocked`, if
nothing before it waits, the loop ends with all the threads that wait woken. -/
theorem recorre_desbloqueado {pre post : List Dir} (hk : k.listaBlocked = pre ++ post)
    (hnodup : k.listaBlocked.Nodup) (hpre : ∀ a ∈ pre, ¬ k.espera h a) (hpos : 0 < k.mutex) :
    ∃ vs, Recorre h pre.length k ((k.desbloqueado h).conCerrojo k.mutex vs) := by
  induction post generalizing k pre with
  | nil =>
    have hlen : k.listaBlocked[pre.length]? = none := by
      rw [hk, List.append_nil, List.getElem?_eq_none (Nat.le_refl _)]
    rw [List.append_nil] at hk
    rw [desbloqueado_de_nadie (hk ▸ hpre)]
    exact ⟨k.valoresMutex, .termina hlen⟩
  | cons b post ih =>
    have hi : k.listaBlocked[pre.length]? = some b := by
      rw [hk]
      simp
    by_cases hb : k.espera h b
    · -- `b` leaves the list, and the position is that of the element after it.
      let k₁ := (k.despertar pre.length b).conCerrojo k.mutex
        (k.valoresMutex ++ [k.mutex - 1] ++ [k.mutex])
      have hk₁ : k₁.listaBlocked = pre ++ post := listaBlocked_despertar hk
      have hnodup₁ : k₁.listaBlocked.Nodup := hnodup.sublist (List.eraseIdx_sublist _ _)
      have hpre₁ : ∀ a ∈ pre, ¬ k₁.espera h a := fun a ha hesp =>
        hpre a ha ((espera_resto hk hnodup (List.mem_append_left post ha)).mp hesp)
      obtain ⟨vs, hr⟩ := ih hk₁ hnodup₁ hpre₁ hpos
      have heq : k₁.desbloqueado h = ((k.despertar pre.length b).desbloqueado h).conCerrojo k.mutex
          (k.valoresMutex ++ [k.mutex - 1] ++ [k.mutex]) := rfl
      rw [heq, desbloqueado_despertar hk hnodup hpre hb] at hr
      exact ⟨vs, .despierta hi hb (despertarHilo_run _ _ hpos) hr⟩
    · -- `b` stays, and is in the first part from here on.
      have hk₁ : k.listaBlocked = (pre ++ [b]) ++ post := by
        rw [hk, List.append_assoc, List.singleton_append]
      have hpre₁ : ∀ a ∈ pre ++ [b], ¬ k.espera h a := by
        intro a ha
        rcases List.mem_append.mp ha with ha | ha
        · exact hpre a ha
        · exact List.mem_singleton.mp ha ▸ hb
      obtain ⟨vs, hr⟩ := ih hk₁ hnodup hpre₁ hpos
      rw [List.length_append, List.length_singleton] at hr
      exact ⟨vs, .avanza hi hb hr⟩

/-- The threads of `lista_blocked` that wait for `h` are ready, and nothing else changed but the
record of the values of `mutex`. -/
structure Desbloquea (h : Dir) (k k' : Estado) : Prop where
  /-- The others stay in `lista_blocked`, in their order. -/
  quedan : k'.listaBlocked = k.listaBlocked.filter fun b => ¬ k.espera h b
  /-- They come after the threads that were ready, in the order of `lista_blocked`. -/
  pasan : k'.listaReady = k.listaReady ++ k.listaBlocked.filter fun b => k.espera h b
  despiertos : ∀ b ∈ k.listaBlocked, k.espera h b →
    k'.tcbs b = { k.tcbs b with estadoHilo := .ready, tidQueLoBloqueo := sinHilo }
  otros : ∀ b, ¬ (b ∈ k.listaBlocked ∧ k.espera h b) → k'.tcbs b = k.tcbs b
  marco : k' = { k with
    tcbs := k'.tcbs
    listaReady := k'.listaReady
    listaBlocked := k'.listaBlocked
    valoresMutex := k'.valoresMutex }

theorem desbloquea_desbloqueado (h : Dir) (k : Estado) (vs : List Nat) :
    Desbloquea h k ((k.desbloqueado h).conCerrojo k.mutex vs) where
  quedan := rfl
  pasan := rfl
  despiertos _ hb hesp := if_pos ⟨hb, hesp⟩
  otros _ hb := if_neg hb
  marco := rfl

/-- `desbloquear_hilos_por_tid`, with the bound that the model gives its loop. -/
theorem Recorre.desbloquearHilosPorTid (hr : Recorre h 0 k k') (hpos : 0 < k.mutex) :
    (Kernel.desbloquearHilosPorTid h).run k = .ok () k' := by
  unfold Kernel.desbloquearHilosPorTid
  rw [bind_run (leer_run _)]
  exact hr.desbloquearDesde hpos (Nat.le_add_left _ _)

/-- The loop from its start. -/
theorem recorre_todo (h : Dir) (hnodup : k.listaBlocked.Nodup) (hpos : 0 < k.mutex) :
    ∃ k', Recorre h 0 k k' ∧ Desbloquea h k k' := by
  obtain ⟨vs, hr⟩ := recorre_desbloqueado (h := h) (List.nil_append _).symm hnodup
    (fun a ha => absurd ha List.not_mem_nil) hpos
  exact ⟨_, hr, desbloquea_desbloqueado h k vs⟩

/-! ## From `finalizar_hilo` -/

/-! What `finalizar_hilo` leaves as it was before the wake-ups. -/

theorem enExit_marco : (k.enExit h).mutex = k.mutex ∧ (k.enExit h).listaBlocked = k.listaBlocked ∧
    (k.enExit h).listaReady = k.listaReady ∧ (k.enExit h).tcbs = (k.setEstado h .exit).tcbs :=
  ⟨rfl, rfl, rfl, rfl⟩

theorem antesDeDespertar_marco (tid : Uint32) (tids : List Puntero) :
    (k.antesDeDespertar p h tid tids).mutex = k.mutex ∧
      (k.antesDeDespertar p h tid tids).listaBlocked = k.listaBlocked ∧
      (k.antesDeDespertar p h tid tids).listaReady = k.listaReady ∧
      (k.antesDeDespertar p h tid tids).tcbs = k.tcbs :=
  ⟨rfl, rfl, rfl, rfl⟩

/-- When `finalizar_hilo` gets to the wake-ups, it has `mutex` no more, and `lista_blocked`,
`lista_ready` and the TCBs of the others are as they were. -/
theorem finalizarHilo_desbloquea {tids : List Puntero} (hpos : 0 < k.mutex)
    (hp : k.buscarProceso (k.tcbs h).pid = some p) (htids : (k.pcbs p).listaTid = some tids)
    (hcolas : SinColas (k.tcbs h).tid (k.pcbs p).mutex) (hnodup : k.listaBlocked.Nodup) :
    ∃ s s', s.mutex = k.mutex ∧ s.listaBlocked = k.listaBlocked ∧ s.listaReady = k.listaReady ∧
      (∀ b ≠ h, s.tcbs b = k.tcbs b) ∧ Desbloquea h s s' ∧
      (finalizarHilo ent h).run k = (liberar ent h).run s' := by
  obtain ⟨hmutex, hblocked, hready, htcbs⟩ :=
    antesDeDespertar_marco (k := k.enExit h) (h := h) (p := p) (k.tcbs h).tid tids
  rw [enExit_marco.1] at hmutex
  rw [enExit_marco.2.1] at hblocked
  rw [enExit_marco.2.2.1] at hready
  rw [enExit_marco.2.2.2] at htcbs
  have hantes : (finHiloDesde ent p h (k.tcbs h).tid).run (k.enExit h) =
      (desbloquearHilosPorTid h >>= fun _ => liberar ent h).run
        ((k.enExit h).antesDeDespertar p h (k.tcbs h).tid tids) :=
    finHiloDesde_run (s := k.enExit h) htids hcolas
  generalize (k.enExit h).antesDeDespertar p h (k.tcbs h).tid tids = s at *
  obtain ⟨s', hr, hdes⟩ := recorre_todo h (hblocked ▸ hnodup) (hmutex ▸ hpos)
  have hrun := hr.desbloquearHilosPorTid (hmutex ▸ hpos)
  refine ⟨s, s', hmutex, hblocked, hready, fun b hb => ?_, hdes, ?_⟩
  · rw [htcbs]
    simp [Estado.setEstado, Estado.modTcb, hb]
  · rw [finalizarHilo_run hpos hp, hantes, bind_run hrun]

/-- **Waking by tid removes exactly the threads that wait.** For every `lista_blocked` without a
repeated TCB, every `lista_ready` and every thread `h`, the loop ends, also without the bound of
the model, and moves those threads in order. `mutex` is free at the call, as `finalizar_hilo`
leaves it. -/
theorem desbloqueo_exacto (k : Estado) (h : Dir) (hnodup : k.listaBlocked.Nodup)
    (hpos : 0 < k.mutex) :
    ∃ k', Recorre h 0 k k' ∧ (desbloquearHilosPorTid h).run k = .ok () k' ∧
      Desbloquea h k k' := by
  obtain ⟨k', hr, hdes⟩ := recorre_todo h hnodup hpos
  exact ⟨k', hr, hr.desbloquearHilosPorTid hpos, hdes⟩

/-- The threads 2 and 3, one after the other at the front of `lista_blocked`, wait for the thread
0. -/
def dosEsperan : Estado :=
  { estadoCero with
    listaReady := [5]
    listaBlocked := [2, 3, 4]
    tcbs := fun d =>
      { pid := 1
        tid := BitVec.ofNat 32 d
        tidQueLoBloqueo := if d = 4 then 1 else 0
        prioridad := 0
        path := []
        estadoHilo := .blocked } }

theorem desbloqueo_dosEsperan : ∃ k', Recorre 0 0 dosEsperan k' ∧
    (desbloquearHilosPorTid 0).run dosEsperan = .ok () k' ∧
    k'.listaBlocked = [4] ∧ k'.listaReady = [5, 2, 3] := by
  obtain ⟨k', hr, hrun, hdes⟩ := desbloqueo_exacto dosEsperan 0 (by decide) (by decide)
  refine ⟨k', hr, hrun, ?_, ?_⟩
  · rw [hdes.quedan]
    decide
  · rw [hdes.pasan]
    decide

end LastOfC.Kernel
