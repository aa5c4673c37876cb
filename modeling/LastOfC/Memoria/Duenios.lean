import LastOfC.Memoria.Asignacion

/-!
# One partition per process

The kernel asks again for memory for a process until it gets a 1. `un_duenio_iff` is the exact
condition under which this gives the process one partition. Two things break it.

* Under `DINAMICAS` an exact fit is occupied and answered with a -1 (`AjusteExacto`). The next
  request for the same process then gets it a second partition.
* The `pid` of an initial partition is what `malloc` left there. A free partition can carry the
  `pid` of a process that has its memory elsewhere.

`Ocupa` relates an occupied partition to the request that occupied it, and `Duenios` is what every
run keeps: the occupied partitions are those of the requests that found one.
-/

namespace LastOfC.Memoria

open KeyedList Trace

/-- No `pid` but 0 is in two partitions. -/
def UnDuenio (ps : List Particion) : Prop := ps.Pairwise fun p r => p.pid = r.pid → p.pid = 0

/-- The request finds a partition for the process `pid`. After it the partition is `p'`, and `o` is
what was sent. -/
def Asigna (ent : Entorno) (pid : Uint32) (p' : Particion) (o : List Envio) (s : Estado)
    (a : Peticion) : Prop :=
  ∃ d i p s', a = .asignarMemoria d ∧ d.pid = pid ∧
    evaluarParticion ent.algoritmoBusqueda s.listaParticiones d.tamProceso = some (i, p) ∧
    atender ent s a = .ok (s', o) ∧ s'.listaParticiones[i]? = some p'

def Ocupa (ent : Entorno) (pid : Uint32) (p' : Particion) (s : Estado) (a : Peticion) : Prop :=
  ∃ o, Asigna ent pid p' o s a

/-- The request occupies `p'` for the process `pid` and is answered with a 1. -/
def OcupaYConfirma (ent : Entorno) (pid : Uint32) (p' : Particion) (s : Estado) (a : Peticion) :
    Prop :=
  ∃ o, Asigna ent pid p' o s a ∧ confirmarEspacio pid 1 ∈ o

/-- The request is answered with a 1 for the process `pid`. -/
def EsConfirmado (ent : Entorno) (pid : Uint32) (s : Estado) (a : Peticion) : Prop :=
  ∃ s' o, atender ent s a = .ok (s', o) ∧ confirmarEspacio pid 1 ∈ o

/-- The request for the process `pid` finds a partition of exactly the size it asks for. -/
def AjusteExacto (ent : Entorno) (pid : Uint32) (s : Estado) (a : Peticion) : Prop :=
  ∃ d i p, a = .asignarMemoria d ∧ d.pid = pid ∧ ent.esquema = .dinamicas ∧
    evaluarParticion ent.algoritmoBusqueda s.listaParticiones d.tamProceso = some (i, p) ∧
    p.tamanio = d.tamProceso

/-- What the kernel keeps to. It asks for memory for a process only while there was no 1 for it and
it is not finished, and it finishes a process once. -/
def KernelOrdenado (ent : Entorno) (s₀ : Estado) (pre : List Peticion) (a : Peticion) : Prop :=
  (∀ d, a = .asignarMemoria d →
      ¬ Happened (atender ent) s₀ pre (EsConfirmado ent d.pid) ∧ .finalizarProceso d.pid ∉ pre) ∧
    ∀ pid, a = .finalizarProceso pid → .finalizarProceso pid ∉ pre

/-- If the request finds a partition, then no other free one carries the `pid`, and no request for
the process was an exact fit. -/
def SinPrevia (ent : Entorno) (s₀ : Estado) (pre : List Peticion) (s : Estado) (a : Peticion) :
    Prop :=
  ∀ d i p, a = .asignarMemoria d → d.pid ≠ 0 →
    evaluarParticion ent.algoritmoBusqueda s.listaParticiones d.tamProceso = some (i, p) →
      (∀ j x, j ≠ i → s.listaParticiones[j]? = some x → x.libre = true → x.pid ≠ d.pid) ∧
        ¬ Happened (atender ent) s₀ pre (AjusteExacto ent d.pid)

/-! ## `UnDuenio` in one step -/

theorem unDuenio_split {pre post : List Particion} {p : Particion} :
    UnDuenio (pre ++ p :: post) ↔
      (∀ x ∈ pre ++ post, p.pid = x.pid → p.pid = 0) ∧ UnDuenio (pre ++ post) := by
  unfold UnDuenio
  rw [List.Perm.pairwise_iff (fun {x y} h hxy => by rw [h hxy.symm] at hxy; exact hxy)
    List.perm_middle, List.pairwise_cons]

section UnPaso

variable {cfg : ConfigMemoria} {ps ps' : List Particion} {d : TAsignarMemoria} {i : Nat}
  {p : Particion} {pid : Uint32}

/-- A request for memory keeps the owners apart exactly if no other partition carries the `pid`. -/
theorem unDuenio_asignar (h : PasoLista cfg ps (.asignarMemoria d) ps') (hesq : cfg.esquema ≠ .otro)
    (he : evaluarParticion cfg.algoritmoBusqueda ps d.tamProceso = some (i, p))
    (hu : UnDuenio ps) :
    UnDuenio ps' ↔ (d.pid ≠ 0 → ∀ j x, j ≠ i → ps[j]? = some x → x.pid ≠ d.pid) := by
  obtain ⟨pre, p', post, cola, rfl, rfl, rfl, hpid, -, hcola⟩ := pasoLista_asignar h hesq he
  rw [unDuenio_split, hpid]
  have hrest : UnDuenio (pre ++ (post ++ cola)) := by
    rw [← List.append_assoc]
    refine List.pairwise_append.mpr ⟨(unDuenio_split.mp hu).2, ?_, ?_⟩
    · exact List.pairwise_of_forall_mem_list fun r hr _ _ _ => (hcola r hr).1
    · intro x _ r hr hxr
      rw [hxr, (hcola r hr).1]
  constructor
  · rintro ⟨hx, -⟩ hne j x hj hget hxd
    have hmem : x ∈ pre ++ post := mem_others.mpr ⟨j, hj, hget⟩
    refine hne (hx x ?_ hxd.symm)
    rw [← List.append_assoc]
    exact List.mem_append_left _ hmem
  · intro hother
    refine ⟨fun x hx hdx => ?_, hrest⟩
    rw [← List.append_assoc] at hx
    rcases List.mem_append.mp hx with hx | hx
    · by_contra hne
      obtain ⟨j, hj, hget⟩ := mem_others.mp hx
      exact hother hne j x hj hget hdx.symm
    · rw [hdx, (hcola x hx).1]

/-- The end of a process takes a `pid` off the list. -/
theorem unDuenio_liberar (h : PasoLista cfg ps (.finalizarProceso pid) ps') (hu : UnDuenio ps) :
    UnDuenio ps' := by
  cases h with
  | igual => exact hu
  | liberar pid pre ant q sig post hps =>
    have hsub : (pre ++ post).Sublist ps := by
      rw [hps]
      exact (List.sublist_append_left pre _).append ((List.sublist_append_right _ post).cons q)
    refine unDuenio_split.mpr ⟨fun x hx hpid => ?_, List.Pairwise.sublist hsub hu⟩
    -- What is left of a merge carries the `pid` of its first part, or 0.
    cases ant with
    | none => cases sig <;> rfl
    | some a =>
      rw [hps, Option.toList_some, List.append_assoc, List.singleton_append, unDuenio_split] at hu
      have hx' : x ∈ pre ++ q :: (sig.toList ++ post) := by
        simp only [List.mem_append, List.mem_cons] at hx ⊢
        exact hx.imp_right fun h => .inr (.inr h)
      have ha := hu.1 x hx'
      cases sig <;> exact ha hpid

/-- The only partition with the `pid` is the one that the search finds. -/
theorem UnDuenio.buscar (hu : UnDuenio ps) (hp : p ∈ ps) (hpid : p.pid = pid) (h0 : pid ≠ 0) :
    buscarParticionPorPid ps pid = some p := by
  obtain ⟨pre, post, rfl⟩ := List.append_of_mem hp
  have hother := (unDuenio_split.mp hu).1
  rw [buscarParticionPorPid, buscarPid, map_snd_search, List.find?_append, List.find?_cons]
  have hpre : pre.find? (fun x => x.pid = pid) = none := by
    rw [List.find?_eq_none]
    intro x hx hxp
    have hxp : x.pid = pid := by simpa using hxp
    have := hother x (List.mem_append_left _ hx) (hpid.trans hxp.symm)
    exact h0 (hpid.symm.trans this)
  simp [hpre, hpid]

end UnPaso

/-! ## Occupied partitions -/

section Ocupadas

variable {ent : Entorno} {s s' s₀ : Estado} {a : Peticion} {o : List Envio} {pre : List Peticion}
  {pid : Uint32} {p' : Particion}

/-- What every run keeps: the occupied partitions are those that a request occupied, until their
process is finished. -/
structure Duenios (ent : Entorno) (s₀ : Estado) (pre : List Peticion) (s : Estado) : Prop where
  ocupadas : ∀ x ∈ s.listaParticiones, x.libre = false →
    Happened (atender ent) s₀ pre (Ocupa ent x.pid x)
  vigentes : ∀ pid p', Happened (atender ent) s₀ pre (Ocupa ent pid p') →
    .finalizarProceso pid ∉ pre →
      p' ∈ s.listaParticiones ∧ p'.libre = false ∧ p'.pid = pid

/-- An occupied partition is not the free one. -/
theorem ocupada_otra {pre post : List Particion} {p x : Particion} (hx : x ∈ pre ++ p :: post)
    (hlibre : p.libre = true) (hocup : x.libre = false) : x ∈ pre ∨ x ∈ post := by
  rcases List.mem_append.mp hx with hx | hx
  · exact .inl hx
  rcases List.mem_cons.mp hx with rfl | hx
  · rw [hlibre] at hocup
    cases hocup
  · exact .inr hx

/-- An occupied partition outlives a request that does not finish its process. -/
theorem ocupada_paso {cfg : ConfigMemoria} {ps ps' : List Particion} {x : Particion}
    (h : PasoLista cfg ps a ps') (hx : x ∈ ps) (hocup : x.libre = false)
    (ha : a ≠ .finalizarProceso x.pid) : x ∈ ps' := by
  cases h with
  | igual => exact hx
  | ocupar d pre p post hps he =>
    have hlibre := (Particion.entra_iff.mp (evaluarParticion_some he).2).1
    rcases ocupada_otra (hps ▸ hx) hlibre hocup with hx | hx
    · exact List.mem_append_left _ hx
    · simp [hx]
  | dividir d pre p post hps he =>
    have hlibre := (Particion.entra_iff.mp (evaluarParticion_some he).2).1
    rcases ocupada_otra (hps ▸ hx) hlibre hocup with hx | hx
    · exact List.mem_append_left _ hx
    · simp [hx]
  | liberar pid pre ant q sig post hps hb hant hsig =>
    have hno : ∀ r : Option Particion, (∀ p, r = some p → p.libre = true) → x ∉ r.toList := by
      intro r hr hxr
      rw [hr x (Option.mem_toList.mp hxr)] at hocup
      cases hocup
    rw [hps] at hx
    simp only [List.mem_append, List.mem_cons] at hx ⊢
    rcases hx with (hx | hx) | rfl | hx | hx
    · exact .inl hx
    · exact absurd hx (hno ant fun p hp => anteriorFundido_libre (hant ▸ hp))
    · exact absurd (by rw [buscarPid_pid hb]) ha
    · exact absurd hx (hno sig fun p hp => siguienteFundido_libre (hsig ▸ hp))
    · exact .inr (.inr hx)

/-- An occupied partition was there before the request, or the request put it there. -/
theorem ocupada_origen {cfg : ConfigMemoria} {ps ps' : List Particion} {x : Particion}
    (h : PasoLista cfg ps a ps') (hx : x ∈ ps') (hocup : x.libre = false) :
    x ∈ ps ∨ ∃ d i p, a = .asignarMemoria d ∧ d.pid = x.pid ∧
      evaluarParticion cfg.algoritmoBusqueda ps d.tamProceso = some (i, p) ∧
        ps'[i]? = some x := by
  cases h with
  | igual => exact .inl hx
  | ocupar d pre p post hps he =>
    simp only [List.mem_append, List.mem_cons] at hx
    rcases hx with hx | rfl | hx
    · exact .inl (by simp [hps, hx])
    · exact .inr ⟨d, pre.length, p, rfl, rfl, he, by simp⟩
    · exact .inl (by simp [hps, hx])
  | dividir d pre p post hps he =>
    simp only [List.mem_append, List.mem_cons, List.not_mem_nil, or_false] at hx
    rcases hx with hx | rfl | hx | rfl
    · exact .inl (by simp [hps, hx])
    · exact .inr ⟨d, pre.length, p, rfl, rfl, he, by simp⟩
    · exact .inl (by simp [hps, hx])
    · cases hocup
  | liberar pid pre ant q sig post hps hb hant =>
    simp only [List.mem_append, List.mem_cons] at hx
    rcases hx with hx | rfl | hx
    · exact .inl (by simp [hps, hx])
    · rw [fundir_libre fun a ha => anteriorFundido_libre (hant ▸ ha)] at hocup
      cases hocup
    · exact .inl (by simp [hps, hx])

theorem duenios_paso (hesq : ent.esquema ≠ .otro) (hs : Reaches (atender ent) s₀ pre s)
    (h : atender ent s a = .ok (s', o)) (hd : Duenios ent s₀ pre s) :
    Duenios ent s₀ (pre ++ [a]) s' := by
  have hpaso := atender_paso h
  constructor
  · intro x hx hocup
    rw [happened_snoc hs]
    rcases ocupada_origen hpaso hx hocup with hx | ⟨d, i, p, ha, hpid, he, hget⟩
    · exact .inl (hd.ocupadas x hx hocup)
    · exact .inr ⟨o, d, i, p, s', ha, hpid, he, h, hget⟩
  · intro pid p' hhap hfin
    have hfin : Peticion.finalizarProceso pid ∉ pre ∧ a ≠ .finalizarProceso pid := by
      simpa [eq_comm] using hfin
    rcases (happened_snoc hs).mp hhap with hhap | ⟨o', d, i, p, s'', rfl, hpid, he, h', hget⟩
    · obtain ⟨hmem, hocup, hpid⟩ := hd.vigentes pid p' hhap hfin.1
      exact ⟨ocupada_paso hpaso hmem hocup (by rw [hpid]; exact hfin.2), hocup, hpid⟩
    · obtain ⟨rfl, rfl⟩ : s' = s'' ∧ o = o' := by
        rw [h] at h'
        simpa using h'
      obtain ⟨pre', q, post, cola, -, rfl, hps', hq, hocup, -⟩ := pasoLista_asignar hpaso hesq he
      rw [hps'] at hget ⊢
      obtain rfl : q = p' := by simpa using hget
      exact ⟨by simp, hocup, hq.trans hpid⟩

theorem duenios_inicial (cfg : ConfigMemoria) (basura : Nat → Uint32) (memoria : Nat → Byte) :
    Duenios ent (estadoInicial cfg basura memoria) [] (estadoInicial cfg basura memoria) := by
  constructor
  · intro x hx hocup
    rw [configurarParticiones_libre x hx] at hocup
    cases hocup
  · intro pid p' h
    exact absurd h not_happened_nil

/-- A request that occupies a partition is answered with a 1, or is an exact fit. -/
theorem Ocupa.confirmado_o_exacto (hesq : ent.esquema ≠ .otro) (h : Ocupa ent pid p' s a) :
    EsConfirmado ent pid s a ∨ AjusteExacto ent pid s a := by
  obtain ⟨o, d, i, p, s', rfl, rfl, he, hok, -⟩ := h
  by_cases hc : Confirma ent.toConfigMemoria s.listaParticiones d
  · exact .inl ⟨s', o, hok, (confirmarEspacio_mem_crearProceso hok).mpr hc⟩
  · refine .inr ⟨d, i, p, rfl, rfl, ?_, he, ?_⟩
    · cases hesq' : ent.esquema with
      | fijas => exact absurd ⟨i, p, he, .inl hesq'⟩ hc
      | dinamicas => rfl
      | otro => exact absurd hesq' hesq
    · -- The partition has room, and is not larger than asked for.
      have hle := (Particion.entra_iff.mp (evaluarParticion_some he).2).2
      by_contra hne
      have hlt : d.tamProceso < p.tamanio := BitVec.lt_of_le_ne hle (Ne.symm hne)
      cases hesq' : ent.esquema with
      | fijas => exact hc ⟨i, p, he, .inl hesq'⟩
      | dinamicas => exact hc ⟨i, p, he, .inr ⟨hesq', hlt⟩⟩
      | otro => exact hesq hesq'

/-- An exact fit occupies a partition. -/
theorem AjusteExacto.ocupa (h : AjusteExacto ent pid s a) : ∃ p', Ocupa ent pid p' s a := by
  obtain ⟨d, i, p, rfl, rfl, hesq, he, -⟩ := h
  obtain ⟨s', o, hok⟩ : ∃ s' o, atender ent s (.asignarMemoria d) = .ok (s', o) :=
    crearProceso_ok.mpr (by simp [hesq])
  obtain ⟨pre, p', post, cola, -, rfl, hps', -⟩ :=
    pasoLista_asignar (atender_paso hok) (by simp [hesq]) he
  exact ⟨p', o, d, pre.length, p, s', rfl, rfl, he, hok, by simp [hps']⟩

/-- From a state with one owner for each partition, a step that is `SinPrevia` leads to another. -/
theorem unDuenio_paso (hesq : ent.esquema ≠ .otro) (hk : KernelOrdenado ent s₀ pre a)
    (hd : Duenios ent s₀ pre s) (hu : UnDuenio s.listaParticiones)
    (hc : SinPrevia ent s₀ pre s a) (h : atender ent s a = .ok (s', o)) :
    UnDuenio s'.listaParticiones := by
  have hpaso := atender_paso h
  by_cases hasig : ∃ d, a = .asignarMemoria d
  · obtain ⟨d, rfl⟩ := hasig
    cases he : evaluarParticion ent.algoritmoBusqueda s.listaParticiones d.tamProceso with
    | none => rwa [pasoLista_sinParticion hpaso he]
    | some r =>
      obtain ⟨i, p⟩ := r
      rw [unDuenio_asignar hpaso hesq he hu]
      intro h0 j x hj hget hxd
      obtain ⟨hlibres, hexacto⟩ := hc d i p rfl h0 he
      by_cases hlibre : x.libre = true
      · exact hlibres j x hj hget hlibre hxd
      · -- A request for this process occupied `x`: it was told a 1, or it was an exact fit.
        have hhap := hd.ocupadas x (List.mem_of_getElem? hget) (by simpa using hlibre)
        rw [hxd] at hhap
        obtain ⟨pre', b, s₁, hpre, hs₁, hb⟩ := hhap
        rcases hb.confirmado_o_exacto hesq with hb | hb
        · exact (hk.1 d rfl).1 ⟨pre', b, s₁, hpre, hs₁, hb⟩
        · exact hexacto ⟨pre', b, s₁, hpre, hs₁, hb⟩
  by_cases hfin : ∃ pid, a = .finalizarProceso pid
  · obtain ⟨pid, rfl⟩ := hfin
    exact unDuenio_liberar hpaso hu
  · rwa [atender_lista h (fun d hd => hasig ⟨d, hd⟩) fun pid hp => hfin ⟨pid, hp⟩]

/-- A step between two such states is `SinPrevia`. -/
theorem sinPrevia_of_unDuenio (hesq : ent.esquema ≠ .otro) (hk : KernelOrdenado ent s₀ pre a)
    (hd : Duenios ent s₀ pre s) (hu : UnDuenio s.listaParticiones)
    (h : atender ent s a = .ok (s', o)) (hu' : UnDuenio s'.listaParticiones) :
    SinPrevia ent s₀ pre s a := by
  rintro d i p rfl h0 he
  have hotras := (unDuenio_asignar (atender_paso h) hesq he hu).mp hu' h0
  refine ⟨fun j x hj hget _ => hotras j x hj hget, ?_⟩
  rintro ⟨pre', b, s₁, hpre, hs₁, hb⟩
  obtain ⟨p', hocupa⟩ := hb.ocupa
  obtain ⟨hmem, hocup, hpid⟩ :=
    hd.vigentes d.pid p' ⟨pre', b, s₁, hpre, hs₁, hocupa⟩ (hk.1 d rfl).2
  obtain ⟨j, hget⟩ := List.mem_iff_getElem?.mp hmem
  refine hotras j p' ?_ hget hpid
  rintro rfl
  obtain ⟨hget', hp⟩ := evaluarParticion_some he
  rw [hget] at hget'
  cases hget'
  rw [(Particion.entra_iff.mp hp).1] at hocup
  cases hocup

end Ocupadas

/-! ## Runs -/

section Corridas

variable {ent : Entorno} {basura : Nat → Uint32} {memoria : Nat → Byte}

theorem happened_esConfirmado {ent : Entorno} {s₀ : Estado} {pre : List Peticion} {pid : Uint32}
    (h : Happened (atender ent) s₀ pre (EsConfirmado ent pid)) :
    ∃ d, .asignarMemoria d ∈ pre ∧ d.pid = pid := by
  obtain ⟨pre', a, s, hpre, -, s', o, hok, hmem⟩ := h
  obtain ⟨d, rfl, hpid, -⟩ := (confirmarEspacio_mem hok).mp hmem
  exact ⟨d, hpre.subset (by simp), hpid⟩

/-- The first request for a process is always in order. -/
theorem kernelOrdenado_primera {ent : Entorno} {s₀ : Estado} {pre : List Peticion}
    {d : TAsignarMemoria} (hpre : ∀ d', .asignarMemoria d' ∈ pre → d'.pid ≠ d.pid)
    (hfin : .finalizarProceso d.pid ∉ pre) : KernelOrdenado ent s₀ pre (.asignarMemoria d) := by
  refine ⟨fun d' hd => ?_, fun pid hp => by cases hp⟩
  cases hd
  refine ⟨fun hc => ?_, hfin⟩
  obtain ⟨d', hmem, hpid⟩ := happened_esConfirmado hc
  exact hpre d' hmem hpid

/-- **One partition per process.** Along a run whose kernel is `KernelOrdenado`, each `pid` is in
one partition, and the search finds the partition of a process that was told a 1, exactly when no
two initial partitions carry the same `pid` and each request that finds a partition is
`SinPrevia`. -/
theorem un_duenio_iff (hesq : ent.esquema ≠ .otro) (as : List Peticion)
    (hk : EveryStep (atender ent) (estadoInicial ent.toConfigMemoria basura memoria) as
      fun pre _ a =>
        KernelOrdenado ent (estadoInicial ent.toConfigMemoria basura memoria) pre a) :
    EveryState (atender ent) (estadoInicial ent.toConfigMemoria basura memoria) as
        (fun pre s => UnDuenio s.listaParticiones ∧ ∀ pid p', pid ≠ 0 →
          Happened (atender ent) (estadoInicial ent.toConfigMemoria basura memoria) pre
            (OcupaYConfirma ent pid p') → .finalizarProceso pid ∉ pre →
              buscarParticionPorPid s.listaParticiones pid = some p') ↔
      UnDuenio (configurarParticiones ent.toConfigMemoria basura) ∧
        EveryStep (atender ent) (estadoInicial ent.toConfigMemoria basura memoria) as
          (SinPrevia ent (estadoInicial ent.toConfigMemoria basura memoria)) := by
  by_cases hini : UnDuenio (configurarParticiones ent.toConfigMemoria basura)
  · rw [and_iff_right hini]
    refine everyState_iff_everyStep_of (I := fun pre s =>
      Duenios ent (estadoInicial ent.toConfigMemoria basura memoria) pre s ∧
        UnDuenio s.listaParticiones) hk ⟨duenios_inicial _ basura memoria, hini⟩ ?_ ?_ ?_
    · rintro pre s ⟨hd, hu⟩
      refine ⟨hu, fun pid p' h0 hhap hfin => ?_⟩
      obtain ⟨hmem, -, hpid⟩ :=
        hd.vigentes pid p' (hhap.mono fun _ _ h => ⟨_, h.choose_spec.1⟩) hfin
      exact hu.buscar hmem hpid h0
    · rintro pre s₁ a s₂ o _ hka hs ⟨hd, hu⟩ hc h
      exact ⟨duenios_paso hesq hs h hd, unDuenio_paso hesq hka hd hu hc h⟩
    · rintro pre s₁ a s₂ o _ hka ⟨hd, hu⟩ h hP
      exact sinPrevia_of_unDuenio hesq hka hd hu h hP.1
  · constructor
    · intro h
      exact absurd (h [] _ (List.nil_prefix) (reaches_nil.mpr rfl)).1 hini
    · intro h
      exact absurd h.1 hini

/-- One process. -/
theorem un_duenio_un_proceso :
    let ent := entornoDinamico 100 (by decide)
    let s₀ := estadoInicial ent.toConfigMemoria (fun _ => 0) fun _ => 0
    EveryState (atender ent) s₀ [.asignarMemoria ⟨1, 10⟩] fun pre s =>
      UnDuenio s.listaParticiones ∧ ∀ pid p', pid ≠ 0 →
        Happened (atender ent) s₀ pre (OcupaYConfirma ent pid p') → .finalizarProceso pid ∉ pre →
          buscarParticionPorPid s.listaParticiones pid = some p' := by
  intro ent s₀
  have hk : EveryStep (atender ent) s₀ ([] ++ [.asignarMemoria ⟨1, 10⟩])
      fun pre _ a => KernelOrdenado ent s₀ pre a := by
    rw [everyStep_concat]
    exact ⟨everyStep_nil, fun _ _ _ _ => kernelOrdenado_primera (by simp) (by simp)⟩
  refine (un_duenio_iff (by decide) _ hk).mpr ⟨by unfold UnDuenio; decide, ?_⟩
  refine everyStep_concat.mpr ⟨everyStep_nil, fun s r hs _ d i p hd _ he => ⟨?_, not_happened_nil⟩⟩
  obtain rfl := reaches_nil.mp hs
  cases hd
  cases he
  -- There is only one partition.
  intro j x hj hget
  match j with
  | 0 => exact absurd rfl hj
  | j + 1 => cases hget

/-- The processes 1 and 2, and the end of 1: its partition has 10 bytes. -/
def pedidosHastaHueco : List Peticion :=
  [.asignarMemoria ⟨1, 10⟩, .asignarMemoria ⟨2, 20⟩, .finalizarProceso 1]

/-- The process 3 asks for 10 bytes and gets a -1 and the hole. It asks again and gets a 1 and a
second partition. -/
theorem proceso_con_dos_particiones :
    let ent := entornoDinamico 100 (by decide)
    let s₀ := estadoInicial ent.toConfigMemoria (fun _ => 0) fun _ => 0
    let as := pedidosHastaHueco ++ [.asignarMemoria ⟨3, 10⟩] ++ [.asignarMemoria ⟨3, 10⟩]
    EveryStep (atender ent) s₀ as (fun pre _ a => KernelOrdenado ent s₀ pre a) ∧
      ∃ s, Reaches (atender ent) s₀ as s ∧ ¬ UnDuenio s.listaParticiones := by
  intro ent s₀ as
  constructor
  · have hlista : as = [] ++ [.asignarMemoria ⟨1, 10⟩] ++ [.asignarMemoria ⟨2, 20⟩] ++
      [.finalizarProceso 1] ++ [.asignarMemoria ⟨3, 10⟩] ++ [.asignarMemoria ⟨3, 10⟩] := rfl
    rw [hlista]
    simp only [everyStep_concat]
    refine ⟨⟨⟨⟨⟨everyStep_nil, ?_⟩, ?_⟩, ?_⟩, ?_⟩, ?_⟩
    · exact fun _ _ _ _ => kernelOrdenado_primera (by simp) (by simp)
    · exact fun _ _ _ _ => kernelOrdenado_primera (by simp) (by simp)
    · exact fun _ _ _ _ => ⟨fun d hd => absurd hd (by simp), fun pid _ => by simp⟩
    · exact fun _ _ _ _ => kernelOrdenado_primera (by simp) (by simp)
    · -- The first request for 3 was answered with a -1.
      intro s' r hs _
      refine ⟨fun d hd => ?_, fun pid hp => by cases hp⟩
      cases hd
      refine ⟨?_, by simp⟩
      obtain ⟨s₁, hs₁, -⟩ := reaches_append.mp hs
      rw [happened_snoc hs₁]
      rintro (hc | ⟨s₂, o, hok, hmem⟩)
      · obtain ⟨d', hd', hpid⟩ := happened_esConfirmado hc
        simp at hd'
        rcases hd' with rfl | rfl <;> exact absurd hpid (by decide)
      · obtain ⟨d', hd', -, i, p, he, hesq⟩ := (confirmarEspacio_mem hok).mp hmem
        cases hd'
        have hrun : (run (atender ent) s₀ pedidosHastaHueco).toOption.map
            (fun r => r.1.listaParticiones) =
              some [⟨0, 9, 10, true, 0⟩, ⟨10, 29, 20, false, 2⟩, ⟨30, 99, 70, true, 0⟩] := by decide
        obtain ⟨s₃, hs₃, hl⟩ := reaches_of_map (g := Estado.listaParticiones) hrun
        obtain rfl := hs₁.unique hs₃
        rw [hl] at he
        have he' : some ((0 : Nat), (⟨0, 9, 10, true, 0⟩ : Particion)) = some (i, p) := by
          rw [← he]
          decide
        cases he'
        exact absurd hesq (by decide)
  · have hrun : (run (atender ent) s₀ as).toOption.map (fun r => r.1.listaParticiones) =
        some [⟨0, 9, 10, false, 3⟩, ⟨10, 29, 20, false, 2⟩, ⟨30, 39, 10, false, 3⟩,
          ⟨40, 99, 60, true, 0⟩] := by decide
    obtain ⟨s, hs, hl⟩ := reaches_of_map (g := Estado.listaParticiones) hrun
    refine ⟨s, hs, ?_⟩
    rw [hl]
    unfold UnDuenio
    decide

end Corridas

end LastOfC.Memoria
