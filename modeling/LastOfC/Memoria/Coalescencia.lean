import LastOfC.Memoria.Solapamiento

/-!
# Coalescing under `DINAMICAS`

`consolidar_particiones_libres` looks at the two neighbours in the list, and only these.

* `VecindadFiel`: the list tells the truth about the neighbourhood of the freed partition. Its free
  neighbours in memory are neighbours in the list, and the other way round.
* `Separada`: what a run keeps while that is so. Partitions are one after the other in memory, and
  between two free ones there is a gap.
* `coalescida_corrida`: each `FINALIZAR_PROCESO` of such a run leaves no free range that touches
  the one it freed, and the last one leaves the whole memory.

A process may ask for 0 bytes here. Its partition is empty, and can end up inside another.
-/

namespace LastOfC.Memoria

open Tiling Trace

/-- The partitions that the end of `q`, at index `i`, merges. -/
def partes (ps : List Particion) (i : Nat) (q : Particion) : List Particion :=
  (vecinoAnterior ps i).toList ++ q :: (vecinoSiguiente ps i).toList

/-- The list shows the neighbourhood in memory of the partition `q` at index `i`. -/
structure VecindadFiel (ps : List Particion) (i : Nat) (q : Particion) : Prop where
  /-- The free list neighbours are contiguous with `q`. -/
  contigua : Contigua (vecinoAnterior ps i) q (vecinoSiguiente ps i)
  /-- A free partition that touches `q` is a list neighbour. -/
  cercana : ∀ j x, j ≠ i → ps[j]? = some x → x.libre = true → q.rango.Adjacent x.rango →
    j = i + 1 ∨ j + 1 = i
  /-- The partition of a process of 0 bytes is not between the merged ones. -/
  sinVacia : ∀ j x, j ≠ i → ps[j]? = some x → x.libre = false → x.rango.len = 0 →
    ∀ r ∈ partes ps i q, ∀ t ∈ partes ps i q,
      ¬ (r.rango.base < x.rango.base ∧ x.rango.base < t.rango.stop)

/-- The end of a process with the partition `q` was a complete one: no free range touches the one
that contains `q` now, and if all is free then the list is one partition. -/
def Coalescida (T : Nat) (q : Particion) (ps : List Particion) : Prop :=
  (∃ pre r post, ps = pre ++ r :: post ∧ r.libre = true ∧
      r.rango.base ≤ q.rango.base ∧ q.rango.stop ≤ r.rango.stop ∧
      ∀ x ∈ pre ++ post, x.libre = true → ¬ r.rango.Adjacent x.rango) ∧
    ((∀ x ∈ ps, x.libre = true) → rangos ps = [⟨0, T⟩])

/-- One after the other in memory, with a gap if both are free. -/
def Distantes (p r : Particion) : Prop :=
  p.rango.Apart r.rango ∧ (p.libre = true → r.libre = true → p.rango.Gap r.rango)

theorem Distantes.symm {p r : Particion} (h : Distantes p r) : Distantes r p :=
  ⟨h.1.symm, fun hr hp => (h.2 hp hr).symm⟩

instance : Std.Symm Distantes := ⟨fun _ _ => Distantes.symm⟩

/-- What every run keeps while its merges see the neighbourhood. -/
structure Separada (T : Nat) (ps : List Particion) : Prop where
  suma : total (rangos ps) = T
  dentro : Inside T (rangos ps)
  distantes : ps.Pairwise Distantes

/-! ## One merge -/

section Fundir

variable {ant sig : Option Particion} {q x : Particion}

/-- The merged range ends where one of its parts does. -/
theorem fundir_stop_le {T : Nat} (hc : Contigua ant q sig)
    (h : total (rangos ant.toList) + q.rango.len + total (rangos sig.toList) < 2 ^ 32)
    (hi : ∀ r ∈ ant.toList ++ q :: sig.toList, r.rango.stop ≤ T) :
    (fundir ant q sig).rango.stop ≤ T := by
  rw [rango_fundir h]
  cases ant <;> cases sig <;>
    simp [Contigua, Seg.stop] at hc hi ⊢ <;> omega

theorem fundir_contiene (hc : Contigua ant q sig)
    (h : total (rangos ant.toList) + q.rango.len + total (rangos sig.toList) < 2 ^ 32) :
    (fundir ant q sig).rango.base ≤ q.rango.base ∧
      q.rango.stop ≤ (fundir ant q sig).rango.stop := by
  rw [rango_fundir h]
  cases ant <;> cases sig <;>
    simp [Contigua, Seg.stop] at hc ⊢ <;> omega

/-- What has a gap to each part has one to the merged range. -/
theorem fundir_gap (hc : Contigua ant q sig)
    (h : total (rangos ant.toList) + q.rango.len + total (rangos sig.toList) < 2 ^ 32)
    (hx : ∀ r ∈ ant.toList ++ q :: sig.toList, r.rango.Gap x.rango) :
    (fundir ant q sig).rango.Gap x.rango := by
  rw [rango_fundir h]
  cases ant <;> cases sig <;>
    simp [Contigua, Seg.stop, Seg.Gap] at hc hx ⊢ <;> omega

/-- What is apart from each part is apart from the merged range, unless it is empty and between
two of them. -/
theorem fundir_apart (hc : Contigua ant q sig)
    (h : total (rangos ant.toList) + q.rango.len + total (rangos sig.toList) < 2 ^ 32)
    (hx : ∀ r ∈ ant.toList ++ q :: sig.toList, r.rango.Apart x.rango)
    (hv : x.rango.len = 0 → ∀ r ∈ ant.toList ++ q :: sig.toList,
      ∀ t ∈ ant.toList ++ q :: sig.toList,
        ¬ (r.rango.base < x.rango.base ∧ x.rango.base < t.rango.stop)) :
    (fundir ant q sig).rango.Apart x.rango := by
  rw [rango_fundir h]
  cases ant with
  | none =>
    cases sig with
    | none => simpa [Particion.rango] using hx
    | some b =>
      simp only [Option.toList_none, Option.toList_some, List.nil_append, List.forall_mem_cons]
        at hx hv
      simpa using Seg.Apart.join hc hx.1 hx.2.1 fun h0 => (hv h0).1.2.1
  | some a =>
    cases sig with
    | none =>
      simp only [Option.toList_none, Option.toList_some, List.singleton_append,
        List.forall_mem_cons] at hx hv
      simpa using Seg.Apart.join hc hx.1 hx.2.1 fun h0 => (hv h0).1.2.1
    | some b =>
      simp only [Option.toList_some, List.singleton_append,
        List.forall_mem_cons] at hx hv
      obtain ⟨ha, hq, hb, -⟩ := hx
      rcases hc with ⟨h₁, h₂⟩ | ⟨h₁, h₂⟩
      · have haq := Seg.Apart.join h₁ ha hq fun h0 => (hv h0).1.2.1
        have h₂ : b.rango.base = (Seg.mk a.rango.base (a.rango.len + q.rango.len)).stop := by
          simp only [Seg.stop] at h₁ h₂ ⊢
          omega
        simpa using Seg.Apart.join h₂ haq hb fun h0 => (hv h0).1.2.2.1
      · have hab := Seg.Apart.join h₁ ha hb fun h0 => (hv h0).1.2.2.1
        have h₂ : q.rango.base = (Seg.mk a.rango.base (a.rango.len + b.rango.len)).stop := by
          simp only [Seg.stop] at h₁ h₂ ⊢
          omega
        have := Seg.Apart.join h₂ hab hq fun h0 => (hv h0).1.2.1
        simpa [Nat.add_right_comm] using this

end Fundir

/-! ## Steps and runs -/

section Pasos

variable {a : Peticion} {T : Nat} {cfg : ConfigMemoria} {ps ps' : List Particion}

/-- If the request ends a process, the list shows the neighbourhood of its partition. -/
def VeVecindad (ps : List Particion) (a : Peticion) : Prop :=
  ∀ pid i q, a = .finalizarProceso pid → buscarPid ps pid = some (i, q) → VecindadFiel ps i q

/-- A symmetric relation does not see where in the list an element is. -/
theorem pairwise_distantes_split {pre post : List Particion} {p : Particion} :
    (pre ++ p :: post).Pairwise Distantes ↔
      (∀ x ∈ pre ++ post, Distantes p x) ∧ (pre ++ post).Pairwise Distantes := by
  rw [List.Perm.pairwise_iff Distantes.symm List.perm_middle, List.pairwise_cons]

/-- A cut leaves a free partition that ends where the old one did. -/
theorem Separada.dividir {pre post : List Particion} {p : Particion} {pid tam : Uint32}
    (hT : T < 2 ^ 32) (hlt : tam < p.tamanio) (hlibre : p.libre = true)
    (hi : Inside T (rangos (pre ++ p :: post))) (hd : (pre ++ p :: post).Pairwise Distantes) :
    Inside T (rangos (pre ++ (p.ocupar pid).recortar tam :: (post ++ [p.resto tam]))) ∧
      (pre ++ (p.ocupar pid).recortar tam :: (post ++ [p.resto tam])).Pairwise Distantes := by
  have hle : tam.toNat < p.tamanio.toNat := hlt
  have hstop : p.base.toNat + p.tamanio.toNat ≤ T := hi p.rango (by simp)
  have hresto := Particion.rango_resto hlt (by omega)
  have hrec : ((p.ocupar pid).recortar tam).rango = ⟨p.base.toNat, tam.toNat⟩ := rfl
  constructor
  · intro r hr
    simp only [Inside, rangos_append, rangos_cons, rangos_nil, List.mem_append, List.mem_cons,
      List.not_mem_nil, or_false, hrec, hresto] at hi hr
    rcases hr with hr | rfl | hr | rfl
    · exact hi r (.inl hr)
    · simp only [Seg.stop]
      omega
    · exact hi r (.inr (.inr hr))
    · simp only [Seg.stop]
      omega
  · obtain ⟨hp, hrest⟩ := pairwise_distantes_split.mp hd
    rw [pairwise_distantes_split, ← List.append_assoc, pairwise_distantes_split, List.append_nil]
    refine ⟨fun x hx => ?_, fun x hx => ?_, hrest⟩
    · refine ⟨?_, fun h => absurd h (by simp [Particion.recortar])⟩
      rw [hrec]
      rcases List.mem_append.mp hx with hx | hx
      · have := (hp x hx).1
        simp only [Seg.Apart, Seg.stop, Particion.rango_base, Particion.rango_len] at this ⊢
        omega
      · rw [List.mem_singleton.mp hx, hresto]
        simp [Seg.Apart, Seg.stop]
    · obtain ⟨hapart, hgap⟩ := hp x hx
      have hgap := hgap hlibre
      simp only [Distantes, hresto]
      simp only [Seg.Apart, Seg.Gap, Seg.stop, Particion.rango_base, Particion.rango_len]
        at hapart hgap ⊢
      refine ⟨by omega, fun _ hx => ?_⟩
      have := hgap hx
      omega

section Liberar

variable {pre post : List Particion} {ant sig : Option Particion} {q x : Particion} {i : Nat}

/-- A partition that is not merged is not a free list neighbour. -/
theorem indice_no_fundida (hps : ps = pre ++ ant.toList ++ q :: (sig.toList ++ post))
    (hi : i = pre.length + ant.toList.length) (hant : ant = vecinoAnterior ps i)
    (hsig : sig = vecinoSiguiente ps i) (hx : x ∈ pre ++ post) :
    ∃ j, ps[j]? = some x ∧ j ≠ i ∧ (x.libre = true → j ≠ i + 1 ∧ j + 1 ≠ i) := by
  rcases List.mem_append.mp hx with hx | hx
  · obtain ⟨j, hj, rfl⟩ := List.getElem_of_mem hx
    have hget : ps[j]? = some pre[j] := by
      rw [hps, List.append_assoc, List.getElem?_append_left hj, List.getElem?_eq_getElem hj]
    refine ⟨j, hget, by omega, fun hlibre => ⟨by omega, ?_⟩⟩
    -- The element before `q` is merged if it is free.
    rintro rfl
    simp [vecinoAnterior, hget, Option.filter, hlibre] at hant
    simp [hant] at hi
    omega
  · obtain ⟨k, hk, rfl⟩ := List.getElem_of_mem hx
    have hget : ps[i + 1 + sig.toList.length + k]? = some post[k] := by
      rw [hps, List.getElem?_append_right (by simp; omega)]
      rw [show i + 1 + sig.toList.length + k - (pre ++ ant.toList).length =
        sig.toList.length + k + 1 by simp; omega, List.getElem?_cons_succ,
        List.getElem?_append_right (by omega), Nat.add_sub_cancel_left, List.getElem?_eq_getElem hk]
    refine ⟨_, hget, by omega, fun hlibre => ⟨?_, by omega⟩⟩
    intro hj
    rw [hj] at hget
    simp [vecinoSiguiente, hget, Option.filter, hlibre] at hsig
    simp [hsig] at hj
    omega

/-- The merged partition keeps its distance from all others. -/
theorem Separada.distantes_fundir (hT : T < 2 ^ 32) (hs : Separada T ps)
    (hps : ps = pre ++ ant.toList ++ q :: (sig.toList ++ post))
    (hi : i = pre.length + ant.toList.length) (hant : ant = vecinoAnterior ps i)
    (hsig : sig = vecinoSiguiente ps i) (hv : VecindadFiel ps i q) :
    (∀ x ∈ pre ++ post, Distantes (fundir ant q.liberar sig) x) ∧
      (pre ++ post).Pairwise Distantes := by
  have hperm : ps.Perm ((ant.toList ++ q :: sig.toList) ++ (pre ++ post)) := by
    rw [hps]
    have := List.perm_append_comm_assoc pre (ant.toList ++ q :: sig.toList) post
    simpa only [List.append_assoc, List.cons_append] using this
  have hd := (List.Perm.pairwise_iff Distantes.symm hperm).mp hs.distantes
  obtain ⟨-, hrest, hd⟩ := List.pairwise_append.mp hd
  refine ⟨fun x hx => ?_, hrest⟩
  have hc : Contigua ant q sig := by
    rw [hant, hsig]
    exact hv.contigua
  have hsuma : total (rangos ant.toList) + q.rango.len + total (rangos sig.toList) < 2 ^ 32 := by
    have := hs.suma
    rw [hps] at this
    simp only [rangos_append, rangos_cons, total_append, total_cons] at this
    omega
  obtain ⟨j, hj, hji, hlibre⟩ := indice_no_fundida hps hi hant hsig hx
  rw [Distantes, rango_fundir_liberar]
  by_cases hx' : x.libre = true
  · -- A free partition that touched a part would touch `q`, so it would be a list neighbour.
    have hgap : (fundir ant q sig).rango.Gap x.rango := by
      refine fundir_gap hc hsuma fun r hr => ?_
      rcases List.mem_append.mp hr with hr' | hr'
      · exact (hd r hr x hx).2 (vecinoAnterior_libre (hant ▸ Option.mem_toList.mp hr')) hx'
      rcases List.mem_cons.mp hr' with rfl | hr'
      · refine Seg.gap_iff.mpr ⟨(hd r hr x hx).1, fun hadj => ?_⟩
        have := hv.cercana j x hji hj hx' hadj
        have := hlibre hx'
        omega
      · exact (hd r hr x hx).2 (vecinoSiguiente_libre (hsig ▸ Option.mem_toList.mp hr')) hx'
    exact ⟨(Seg.gap_iff.mp hgap).1, fun _ _ => hgap⟩
  · refine ⟨fundir_apart hc hsuma (fun r hr => (hd r hr x hx).1) fun h0 r hr t ht => ?_,
      fun _ h => absurd h hx'⟩
    rw [hant, hsig] at hr ht
    exact hv.sinVacia j x hji hj (by simpa using hx') h0 r hr t ht

end Liberar

theorem separada_paso (hesq : cfg.esquema = .dinamicas) (hT : T < 2 ^ 32)
    (h : PasoLista cfg ps a ps') (hc : VeVecindad ps a) (hs : Separada T ps) :
    Separada T ps' := by
  have hsuma := total_paso hT h hs.suma
  cases h with
  | igual => exact hs
  | ocupar d pre p post hps =>
    subst hps
    refine ⟨hsuma, by simpa using hs.dentro, ?_⟩
    have hd := hs.distantes
    rw [pairwise_distantes_split] at hd ⊢
    refine ⟨fun x hx => ⟨(hd.1 x hx).1, fun h => absurd h (by simp [Particion.ocupar])⟩, hd.2⟩
  | dividir d pre p post hps he _ hlt =>
    have hlibre := (Particion.entra_iff.mp (evaluarParticion_some he).2).1
    subst hps
    obtain ⟨hi, hd⟩ := Separada.dividir hT hlt hlibre hs.dentro hs.distantes
    exact ⟨hsuma, hi, hd⟩
  | liberar pid pre ant q sig post hps hb hant hsig =>
    simp only [anteriorFundido, siguienteFundido, hesq, if_true] at hant hsig
    have hv := hc pid _ q rfl hb
    obtain ⟨hd, hrest⟩ := hs.distantes_fundir hT hps rfl hant hsig hv
    have hcont : Contigua ant q sig := by
      rw [hant, hsig]
      exact hv.contigua
    have hi := hs.dentro
    have ht := hs.suma
    rw [hps] at hi ht
    simp only [rangos_append, rangos_cons, total_append, total_cons] at ht
    have hstop : (fundir ant q sig).rango.stop ≤ T := by
      refine fundir_stop_le hcont (by omega) fun r hr => hi _ (mem_rangos.mpr ⟨r, ?_, rfl⟩)
      simp only [List.mem_append, List.mem_cons] at hr ⊢
      rcases hr with hr | rfl | hr
      · exact .inl (.inr hr)
      · exact .inr (.inl rfl)
      · exact .inr (.inr (.inl hr))
    refine ⟨hsuma, ?_, pairwise_distantes_split.mpr ⟨hd, hrest⟩⟩
    intro r hr
    simp only [Inside, rangos_append, rangos_cons, List.mem_append, List.mem_cons] at hi hr
    rcases hr with hr | rfl | hr
    · exact hi r (.inl (.inl hr))
    · rwa [rango_fundir_liberar]
    · exact hi r (.inr (.inr (.inr hr)))

/-- If all is free, then the list is one partition. -/
theorem Separada.unica (hs : Separada T ps) (hne : ps ≠ []) (hl : ∀ x ∈ ps, x.libre = true) :
    rangos ps = [⟨0, T⟩] := by
  refine eq_singleton (by simpa [rangos] using hne) ?_ hs.dentro hs.suma
  rw [rangos, List.pairwise_map]
  exact hs.distantes.imp_of_mem fun hp hr h => h.2 (hl _ hp) (hl _ hr)

theorem coalescida_paso (hesq : cfg.esquema = .dinamicas) (hT : T < 2 ^ 32) {pid : Uint32}
    {i : Nat} {q : Particion} (h : PasoLista cfg ps (.finalizarProceso pid) ps')
    (hq : buscarPid ps pid = some (i, q)) (hv : VecindadFiel ps i q) (hs : Separada T ps)
    (hs' : Separada T ps') : Coalescida T q ps' := by
  obtain ⟨pre, ant, sig, post, hps, rfl, rfl, hant, hsig⟩ := h.liberacion hesq hq
  have hlibre : (fundir ant q.liberar sig).libre = true :=
    fundir_libre fun a ha => vecinoAnterior_libre (hant ▸ ha)
  have hcont : Contigua ant q sig := by
    rw [hant, hsig]
    exact hv.contigua
  have ht := hs.suma
  rw [hps] at ht
  simp only [rangos_append, rangos_cons, total_append, total_cons] at ht
  obtain ⟨hbase, hstop⟩ := fundir_contiene hcont (by omega)
  refine ⟨⟨pre, fundir ant q.liberar sig, post, rfl, hlibre, ?_, ?_, ?_⟩, hs'.unica (by simp)⟩
  · rwa [rango_fundir_liberar]
  · rwa [rango_fundir_liberar]
  · intro x hx hx'
    obtain ⟨hd, -⟩ := hs.distantes_fundir hT hps rfl hant hsig hv
    exact (Seg.gap_iff.mp ((hd x hx).2 hlibre hx')).2

end Pasos

section Corridas

variable {ent : Entorno} {basura : Nat → Uint32} {memoria : Nat → Byte}

theorem separada_inicial (hesq : ent.esquema = .dinamicas) :
    Separada ent.tamMemoria
      (estadoInicial ent.toConfigMemoria basura memoria).listaParticiones where
  suma := by rw [rangos_inicial hesq]; simp
  dentro := by
    rw [rangos_inicial hesq]
    simp [Inside, Seg.stop]
  distantes := by simp [estadoInicial, configurarParticiones, hesq]

/-- **Free space is coalesced.** Along a run in which each `FINALIZAR_PROCESO` sees the
neighbourhood of the partition it frees, each of them merges all that touches it. -/
theorem coalescida_corrida (hesq : ent.esquema = .dinamicas) (as : List Peticion)
    (hc : EveryStep (atender ent) (estadoInicial ent.toConfigMemoria basura memoria) as
      fun _ s a => VeVecindad s.listaParticiones a) :
    EveryStep (atender ent) (estadoInicial ent.toConfigMemoria basura memoria) as
      fun _ s a => ∀ pid i q, a = .finalizarProceso pid →
        buscarPid s.listaParticiones pid = some (i, q) →
          ∀ s' o, atender ent s a = .ok (s', o) →
            Coalescida ent.tamMemoria q s'.listaParticiones := by
  have hT : ent.tamMemoria < 2 ^ 32 := by
    have := ent.tam_lt
    omega
  have hsep : EveryState (atender ent) (estadoInicial ent.toConfigMemoria basura memoria) as
      fun _ s => Separada ent.tamMemoria s.listaParticiones := by
    intro pre s hpre hs
    refine hs.invariant (I := fun _ s => Separada ent.tamMemoria s.listaParticiones)
      (hc.restrict hpre) (separada_inicial hesq) ?_
    intro _ s₁ a s₂ o _ _ hsep hca h
    exact separada_paso hesq hT (atender_paso h) hca hsep
  refine hc.mono hsep fun _ s a _ hsep hca pid i q ha hq s' o h => ?_
  subst ha
  have hpaso := atender_paso h
  exact coalescida_paso hesq hT hpaso hq (hca pid i q rfl hq) hsep
    (separada_paso hesq hT hpaso hca hsep)

/-- One process starts and ends, next to the free end of the memory. -/
theorem coalescida_un_proceso :
    let ent := entornoDinamico 100 (by decide)
    EveryStep (atender ent) (estadoInicial ent.toConfigMemoria (fun _ => 0) fun _ => 0)
      [.asignarMemoria ⟨1, 10⟩, .finalizarProceso 1] fun _ s a =>
        ∀ pid i q, a = .finalizarProceso pid →
          buscarPid s.listaParticiones pid = some (i, q) →
            ∀ s' o, atender ent s a = .ok (s', o) → Coalescida 100 q s'.listaParticiones := by
  intro ent
  have h₂ : atender ent unProceso (.finalizarProceso 1) =
      .ok (estadoSinHilos [⟨0, 9, 100, true, 0⟩], []) := rfl
  refine coalescida_corrida rfl _ (.cons atender_unProceso ?_ (.cons h₂ ?_ everyStep_nil))
  · exact fun pid i q ha => absurd ha (by simp)
  · intro pid i q ha hq
    cases ha
    cases hq
    -- The list has one other element, at index 1.
    have hotra : ∀ j x, j ≠ 0 →
        unProceso.listaParticiones[j]? = some x →
          j = 1 ∧ x.libre = true := by
      intro j x hj hx
      match j with
      | 0 => exact absurd rfl hj
      | 1 =>
        cases hx
        exact ⟨rfl, rfl⟩
      | j + 2 => cases hx
    refine ⟨rfl, fun j x hj hx _ _ => .inl (hotra j x hj hx).1, fun j x hj hx hocupada => ?_⟩
    rw [(hotra j x hj hx).2] at hocupada
    cases hocupada

/-- The processes 1 and 2, the end of 1, and the process 3 in its hole. -/
def pedidosConHueco : List Peticion :=
  [.asignarMemoria ⟨1, 10⟩, .asignarMemoria ⟨2, 20⟩, .finalizarProceso 1, .asignarMemoria ⟨3, 5⟩]

/-- When 3 ends, what it left of the hole is at the end of the list, and is not merged. -/
theorem libre_sin_coalescer :
    let ent := entornoDinamico 100 (by decide)
    ∃ s q s' o, Reaches (atender ent) (estadoInicial ent.toConfigMemoria (fun _ => 0) fun _ => 0)
        pedidosConHueco s ∧
      buscarPid s.listaParticiones 3 = some (0, q) ∧
      atender ent s (.finalizarProceso 3) = .ok (s', o) ∧
      ¬ Coalescida 100 q s'.listaParticiones := by
  intro ent
  have hrun : (run (atender ent) (estadoInicial ent.toConfigMemoria (fun _ => 0) fun _ => 0)
      pedidosConHueco).toOption.map (fun r => r.1.listaParticiones) =
        some [⟨0, 4, 5, false, 3⟩, ⟨10, 29, 20, false, 2⟩, ⟨30, 99, 70, true, 0⟩,
          ⟨5, 9, 5, true, 0⟩] := by decide
  obtain ⟨s, hs, hl⟩ := reaches_of_map (g := Estado.listaParticiones) hrun
  refine ⟨s, ⟨0, 4, 5, false, 3⟩, _, _, hs, by rw [hl]; decide, rfl, ?_⟩
  have hfin : liberarPid .dinamicas s.listaParticiones 3 =
      [⟨0, 4, 5, true, 0⟩, ⟨10, 29, 20, false, 2⟩, ⟨30, 99, 70, true, 0⟩, ⟨5, 9, 5, true, 0⟩] := by
    rw [hl]
    decide
  show ¬ Coalescida 100 _ (liberarPid .dinamicas s.listaParticiones 3)
  rw [hfin]
  rintro ⟨⟨pre, r, post, hps, hlibre, hbase, hstop, hx⟩, -⟩
  have hr : r = ⟨0, 4, 5, true, 0⟩ := by
    have hmem : r ∈ pre ++ r :: post := by simp
    rw [← hps] at hmem
    simp only [List.mem_cons, List.not_mem_nil, or_false] at hmem
    rcases hmem with rfl | rfl | rfl | rfl
    · rfl
    · cases hlibre
    · exact absurd hbase (by decide)
    · exact absurd hbase (by decide)
  have hmem : (⟨5, 9, 5, true, 0⟩ : Particion) ∈ pre ++ r :: post := by
    rw [← hps]
    simp
  subst hr
  refine hx ⟨5, 9, 5, true, 0⟩ ?_ rfl (by decide)
  simpa using hmem

end Corridas

end LastOfC.Memoria
