import LastOfC.Memoria.Fijas

/-!
# Who has the partitions of `FIJAS`

* `rangos_configurarFijas`: `configurar_particiones` lays the partitions out one after the other.
* `pedidos`: for each partition, the request that occupied it and is not over. `Vigente`: the
  partition is as this request left it.
* `fijas_corrida`: both hold in every state of a run under `FIJAS`.
-/

namespace LastOfC.Memoria

open KeyedList Tiling Trace

/-! ## The initial list -/

section Inicial

variable {basura : Nat → Uint32} {inicio : BitVec 64} {k : Nat} {ts : List CInt}

theorem length_configurarFijas : (configurarFijas basura inicio k ts).length = ts.length := by
  induction ts generalizing inicio k with
  | nil => rfl
  | cons t ts ih => rw [configurarFijas, List.length_cons, ih, List.length_cons]

/-- Sizes whose sum fits in 32 bits. -/
theorem rangos_configurarFijas (h : inicio.toNat + (ts.map BitVec.toNat).sum < 2 ^ 31) :
    rangos (configurarFijas basura inicio k ts) =
      inOrder inicio.toNat (ts.map BitVec.toNat) := by
  induction ts generalizing inicio k with
  | nil => rfl
  | cons t ts ih =>
    rw [List.map_cons, List.sum_cons] at h
    have hsig : (inicio + t.setWidth 64).toNat = inicio.toNat + t.toNat := by
      rw [BitVec.toNat_add, BitVec.toNat_setWidth]
      omega
    have hbase : (inicio.setWidth 32).toNat = inicio.toNat := by
      rw [BitVec.toNat_setWidth]
      omega
    rw [configurarFijas, rangos_cons, ih (by omega), hsig, List.map_cons, inOrder]
    show Seg.mk (inicio.setWidth 32).toNat t.toNat :: _ = _
    rw [hbase]

/-- The ranges are part of what `FIJAS` never changes. -/
theorem rangos_eq_of_geometrias {ps ps' : List Particion} (h : geometrias ps = geometrias ps') :
    rangos ps = rangos ps' := by
  have hmap : ∀ qs, rangos qs = (geometrias qs).map fun g => ⟨g.1.toNat, g.2.2.toNat⟩ := by
    intro qs
    rw [geometrias, List.map_map]
    rfl
  rw [hmap, hmap, h]

end Inicial

/-! ## The requests -/

section Pedidos

variable {ent : Entorno} {s s' : Estado} {a : Peticion} {o : List Envio}
  {c : Nat → Option TAsignarMemoria}

/-- A request that finds a partition occupies it, and the end of a process releases one. -/
def anotarPedido (ent : Entorno) (s : Estado) (a : Peticion) (_ : Estado)
    (c : Nat → Option TAsignarMemoria) : Nat → Option TAsignarMemoria :=
  match a with
  | .asignarMemoria d =>
    match evaluarParticion ent.algoritmoBusqueda s.listaParticiones d.tamProceso with
    | some (i, _) => Function.update c i (some d)
    | none => c
  | .finalizarProceso pid =>
    match buscarPid s.listaParticiones pid with
    | some (i, _) => Function.update c i none
    | none => c
  | _ => c

/-- The request that has each partition of the list, after the run along `as`. -/
def pedidos (ent : Entorno) (s : Estado) (as : List Peticion) : Nat → Option TAsignarMemoria :=
  history (atender ent) (anotarPedido ent) s as fun _ => none

/-- A partition and the request that has it. -/
def Vigente (p : Particion) : Option TAsignarMemoria → Prop
  | none => p.libre = true
  | some d => p.libre = false ∧ p.pid = d.pid ∧ d.tamProceso ≤ p.tamanio

theorem vigentes_paso (hesq : ent.esquema = .fijas) (h : atender ent s a = .ok (s', o))
    (hv : ∀ i p, s.listaParticiones[i]? = some p → Vigente p (c i)) :
    ∀ i p, s'.listaParticiones[i]? = some p → Vigente p (anotarPedido ent s a s' c i) := by
  have hpaso := atender_paso h
  generalize hps' : s'.listaParticiones = ps' at hpaso
  unfold anotarPedido
  cases hpaso with
  | igual a hasignar hfinalizar =>
    cases a with
    | asignarMemoria d =>
      rcases hasignar d rfl with hotro | hnone
      · rw [hesq] at hotro
        cases hotro
      · simpa only [hnone] using hv
    | finalizarProceso pid => simpa only [hfinalizar pid rfl] using hv
    | _ => exact hv
  | ocupar d pre p post hps he =>
    simp only [he]
    rw [hps] at hv
    intro i q hq
    by_cases hi : i = pre.length
    · subst hi
      rw [Function.update_self]
      have hq' : p.ocupar d.pid = q := by simpa using hq
      subst hq'
      exact ⟨rfl, rfl, (Particion.entra_iff.mp (evaluarParticion_some he).2).2⟩
    · rw [Function.update_of_ne hi]
      exact hv i q (by rwa [getElem?_split_ne (b := p.ocupar d.pid) hi])
  | dividir d pre p post _ _ hdin =>
    rw [hesq] at hdin
    cases hdin
  | liberar pid pre ant q sig post hps hb hant hsig =>
    -- `FIJAS` merges nothing
    simp only [anteriorFundido, siguienteFundido, hesq, reduceCtorEq, if_false] at hant hsig
    subst hant hsig
    simp only [Option.toList_none, List.append_nil, List.nil_append, List.length_nil,
      Nat.add_zero] at hps hb
    simp only [hb, fundir_none_none]
    rw [hps] at hv
    intro i r hr
    by_cases hi : i = pre.length
    · subst hi
      rw [Function.update_self]
      have hr' : q.liberar = r := by simpa using hr
      subst hr'
      rfl
    · rw [Function.update_of_ne hi]
      exact hv i r (by rwa [getElem?_split_ne (b := q.liberar) hi])

theorem vigentes_corrida (hesq : ent.esquema = .fijas) {basura : Nat → Uint32}
    {memoria : Nat → Byte} {as : List Peticion}
    (h : Reaches (atender ent) (estadoInicial ent.toConfigMemoria basura memoria) as s) :
    ∀ i p, s.listaParticiones[i]? = some p →
      Vigente p (pedidos ent (estadoInicial ent.toConfigMemoria basura memoria) as i) := by
  generalize hs₀ : estadoInicial ent.toConfigMemoria basura memoria = s₀ at h ⊢
  refine h.along (I := fun pre t => ∀ i p, t.listaParticiones[i]? = some p →
    Vigente p (pedidos ent s₀ pre i)) ?_ ?_
  · subst hs₀
    intro i p hp
    exact configurarParticiones_libre p (List.mem_of_getElem? hp)
  · intro pre s₁ a s₂ o _ hs₁ hI hpaso i p hp
    rw [pedidos, history_snoc hs₁ hpaso]
    exact vigentes_paso hesq hpaso hI i p hp

end Pedidos

/-! ## Runs -/

/-- In every state of a run under `FIJAS` the partitions are where the sizes of `PARTICIONES` put
them, one after the other, and each occupied one belongs to the process of a request that fits in
it, the last one that found it. -/
theorem fijas_corrida (ent : Entorno) {basura : Nat → Uint32} {memoria : Nat → Byte}
    {as : List Peticion} {s : Estado} (hesq : ent.esquema = .fijas)
    (hpos : ∀ t ∈ ent.particiones, 0 < t.toNat)
    (hsuma : (ent.particiones.map BitVec.toNat).sum < 2 ^ 31)
    (h : Reaches (atender ent) (estadoInicial ent.toConfigMemoria basura memoria) as s) :
    s.listaParticiones.length = ent.particiones.length ∧
    (∀ i t p, ent.particiones[i]? = some t → s.listaParticiones[i]? = some p →
      p.base.toNat = ((ent.particiones.take i).map BitVec.toNat).sum ∧
      p.limite.toNat = p.base.toNat + t.toNat - 1 ∧ p.tamanio = t) ∧
    Tiles (ent.particiones.map BitVec.toNat).sum (rangos s.listaParticiones) ∧
    ∀ i p, s.listaParticiones[i]? = some p →
      Vigente p (pedidos ent (estadoInicial ent.toConfigMemoria basura memoria) as i) := by
  have hini : (estadoInicial ent.toConfigMemoria basura memoria).listaParticiones =
      configurarFijas basura 0 0 ent.particiones := by
    rw [estadoInicial, configurarParticiones, hesq]
  have hcero : (0 : BitVec 64).toNat = 0 := rfl
  have hgeo := geometrias_corrida hesq h
  rw [hini] at hgeo
  have hrangos : rangos s.listaParticiones = inOrder 0 (ent.particiones.map BitVec.toNat) := by
    rw [rangos_eq_of_geometrias hgeo, rangos_configurarFijas (by rwa [hcero, Nat.zero_add]), hcero]
  refine ⟨?_, fun i t p ht hp => ?_, by rw [hrangos]; exact tiles_inOrder _,
    vigentes_corrida hesq h⟩
  · have hlen := congrArg List.length hgeo
    rwa [geometrias, geometrias, List.length_map, List.length_map, length_configurarFijas] at hlen
  · have hrango : (rangos s.listaParticiones)[i]? = some p.rango := by
      rw [rangos, List.getElem?_map, hp]
      rfl
    rw [hrangos, getElem?_inOrder, List.getElem?_map, ht, Nat.zero_add, ← List.map_take] at hrango
    have hrango := Option.some.inj hrango
    have hbase : ((ent.particiones.take i).map BitVec.toNat).sum = p.base.toNat :=
      congrArg Seg.base hrango
    have htam : t.toNat = p.tamanio.toNat := congrArg Seg.len hrango
    -- the limit is the one that `configurar_particiones` computed
    have hmem : p.geometria ∈ geometrias s.listaParticiones :=
      List.mem_map_of_mem (List.mem_of_getElem? hp)
    rw [hgeo] at hmem
    obtain ⟨q, hq, hqp⟩ := mem_geometrias.mp hmem
    have hencuadradas : ∀ q ∈ configurarFijas basura 0 0 ent.particiones, Encuadrada _ q :=
      configurarFijas_encuadradas hsuma (by rw [hcero, Nat.zero_add])
    have hq := hencuadradas q hq
    obtain ⟨hlim, hstop⟩ := (encuadrada_geometria hqp).mp hq
    have ht0 := hpos t (List.mem_of_getElem? ht)
    have hlim := hlim.stop (by omega) (by rw [Particion.rango_len]; omega) hstop
    rw [Seg.stop, Particion.rango_base, Particion.rango_len] at hlim
    exact ⟨hbase.symm, by omega, BitVec.eq_of_toNat_eq htam.symm⟩

/-- Two partitions, and a process in the second one. -/
theorem fijas_corrida_dos :
    let ent : Entorno := { entornoDinamico 100 cien_lt with
      esquema := .fijas, particiones := [30, 50] }
    ∃ s, Reaches (atender ent) (estadoInicial ent.toConfigMemoria (fun _ => 0) fun _ => 0)
        [.asignarMemoria ⟨1, 40⟩] s ∧
      s.listaParticiones = [⟨0, 29, 30, true, 0⟩, ⟨30, 79, 50, false, 1⟩] ∧
      Tiles 80 (rangos s.listaParticiones) := by
  intro ent
  have hs : Reaches (atender ent) (estadoInicial ent.toConfigMemoria (fun _ => 0) fun _ => 0)
      [.asignarMemoria ⟨1, 40⟩] _ := ⟨_, rfl⟩
  have hpos : ∀ t ∈ ent.particiones, 0 < t.toNat := by simp [ent]
  exact ⟨_, hs, rfl, (fijas_corrida ent rfl hpos (by decide) hs).2.2.1⟩

end LastOfC.Memoria
