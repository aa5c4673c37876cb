import LastOfC.Memoria.Solapamiento

/-!
# What `ASIGNAR_MEMORIA` answers and does

`AsignacionCorrecta` is the contract: a 1 exactly if some free partition has room, one partition
occupied after a 1, and nothing changed otherwise. The two schemes miss it in different cases.

* `FIJAS` without a partition: the module crashes on `particion_asignada->base`.
* `DINAMICAS` with an exact fit: the partition is occupied, and the answer is -1.
-/

namespace LastOfC.Memoria

open KeyedList

/-- The partition at index `i` was free, and now the process of the request occupies it with the
size asked for or more. -/
def PasaAOcupada (d : TAsignarMemoria) (ps ps' : List Particion) (i : Nat) : Prop :=
  ∃ p p', ps[i]? = some p ∧ p.libre = true ∧ ps'[i]? = some p' ∧ p'.libre = false ∧
    p'.pid = d.pid ∧ d.tamProceso ≤ p'.tamanio

/-- The contract of `ASIGNAR_MEMORIA` in the state `s`. -/
def AsignacionCorrecta (cfg : ConfigMemoria) (s : Estado) (d : TAsignarMemoria) : Prop :=
  ∃ s' o, crearProceso cfg s d = .ok (s', o) ∧
    (confirmarEspacio d.pid 1 ∈ o ↔
      ∃ p ∈ s.listaParticiones, p.libre = true ∧ d.tamProceso ≤ p.tamanio) ∧
    (confirmarEspacio d.pid 1 ∈ o →
      ∃! i, PasaAOcupada d s.listaParticiones s'.listaParticiones i) ∧
    (confirmarEspacio d.pid 1 ∉ o → s'.listaParticiones = s.listaParticiones)

section Asignacion

variable {cfg : ConfigMemoria} {s s' : Estado} {d : TAsignarMemoria} {o : List Envio}
  {ps ps' : List Particion}

/-- An index whose partition changed is the one that the search found. -/
theorem pasaAOcupada_unica {pre post cola : List Particion} {p p' : Particion} {i : Nat}
    (h : PasaAOcupada d (pre ++ p :: post) (pre ++ p' :: post ++ cola) i) : i = pre.length := by
  obtain ⟨q, q', hq, hlibre, hq', hocupada, -, -⟩ := h
  by_contra hne
  have hlt := (List.getElem?_eq_some_iff.mp hq).1
  rw [List.getElem?_append_left (by simpa using hlt), getElem?_split_ne (b := p) hne, hq] at hq'
  cases hq'
  rw [hlibre] at hocupada
  cases hocupada

theorem confirma_ocupa (h : PasoLista cfg ps (.asignarMemoria d) ps') (hc : Confirma cfg ps d) :
    ∃! i, PasaAOcupada d ps ps' i := by
  obtain ⟨i, p, he, hesq⟩ := hc
  cases h with
  | igual a hd =>
    rcases hd d rfl with hotro | hnone
    · simp [hotro] at hesq
    · rw [hnone] at he
      cases he
  | ocupar d pre q post hps he' =>
    obtain ⟨hget, hentra⟩ := evaluarParticion_some he'
    rw [Particion.entra_iff] at hentra
    subst hps
    refine ⟨pre.length, ⟨q, q.ocupar d.pid, hget, hentra.1, by simp, rfl, rfl, hentra.2⟩, ?_⟩
    intro j hj
    rw [← List.append_nil (pre ++ q.ocupar d.pid :: post)] at hj
    exact pasaAOcupada_unica hj
  | dividir d pre q post hps he' =>
    obtain ⟨hget, hentra⟩ := evaluarParticion_some he'
    rw [Particion.entra_iff] at hentra
    subst hps
    refine ⟨pre.length, ⟨q, (q.ocupar d.pid).recortar d.tamProceso, hget, hentra.1, by simp, rfl,
      rfl, BitVec.le_refl _⟩, ?_⟩
    intro j hj
    exact pasaAOcupada_unica (by simpa using hj)

theorem confirmarEspacio_mem_crearProceso (h : crearProceso cfg s d = .ok (s', o)) :
    confirmarEspacio d.pid 1 ∈ o ↔ Confirma cfg s.listaParticiones d := by
  rcases crearProceso_envios h with ⟨hc, rfl⟩ | ⟨hc, rfl | rfl⟩
  · simp [hc]
  · simp [hc]
  · simp [confirmarEspacio, sinConfirmar, hc]

/-- A search that fails changes nothing. -/
theorem pasoLista_sinParticion (h : PasoLista cfg ps (.asignarMemoria d) ps')
    (he : evaluarParticion cfg.algoritmoBusqueda ps d.tamProceso = none) : ps' = ps := by
  cases h with
  | igual => rfl
  | ocupar _ pre p post _ he' =>
    rw [he] at he'
    cases he'
  | dividir _ pre p post _ he' =>
    rw [he] at he'
    cases he'

/-- `FIJAS` meets the contract if it finds a partition, and crashes if it does not. -/
theorem asignacionCorrecta_fijas (hesq : cfg.esquema = .fijas) :
    AsignacionCorrecta cfg s d ↔
      ∃ r, evaluarParticion cfg.algoritmoBusqueda s.listaParticiones d.tamProceso = some r := by
  constructor
  · rintro ⟨s', o, h, -⟩
    apply Option.ne_none_iff_exists'.mp
    intro he
    exact crearProceso_ok.mp ⟨s', o, h⟩ ⟨hesq, he⟩
  · rintro ⟨⟨i, p⟩, he⟩
    have hfalla : ¬ (cfg.esquema = .fijas ∧
        evaluarParticion cfg.algoritmoBusqueda s.listaParticiones d.tamProceso = none) := by
      simp [he]
    obtain ⟨s', o, hok⟩ := crearProceso_ok.mpr hfalla
    have hc : Confirma cfg s.listaParticiones d := ⟨i, p, he, .inl hesq⟩
    refine ⟨s', o, hok, ?_⟩
    rw [confirmarEspacio_mem_crearProceso hok]
    exact ⟨iff_of_true hc (evaluarParticion_isSome_iff.mp ⟨_, he⟩).2,
      confirma_ocupa (crearProceso_paso hok), fun hno => absurd hc hno⟩

/-- `DINAMICAS` meets the contract unless it finds a partition of exactly the size asked for. -/
theorem asignacionCorrecta_dinamicas (hesq : cfg.esquema = .dinamicas)
    (halg : cfg.algoritmoBusqueda ≠ .otro) :
    AsignacionCorrecta cfg s d ↔
      ∀ i p, evaluarParticion cfg.algoritmoBusqueda s.listaParticiones d.tamProceso = some (i, p) →
        d.tamProceso < p.tamanio := by
  constructor
  · rintro ⟨s', o, h, hiff, -⟩ i p he
    rw [confirmarEspacio_mem_crearProceso h] at hiff
    obtain ⟨j, q, he', hc⟩ := hiff.mpr (evaluarParticion_isSome_iff.mp ⟨_, he⟩).2
    rw [he] at he'
    cases he'
    simpa [hesq] using hc
  · intro hmayor
    have hfalla : ¬ (cfg.esquema = .fijas ∧
        evaluarParticion cfg.algoritmoBusqueda s.listaParticiones d.tamProceso = none) := by
      simp [hesq]
    obtain ⟨s', o, hok⟩ := crearProceso_ok.mpr hfalla
    have hpaso := crearProceso_paso hok
    -- The search finds something larger, or nothing.
    have hconf : (∃ r, evaluarParticion cfg.algoritmoBusqueda s.listaParticiones d.tamProceso =
        some r) → Confirma cfg s.listaParticiones d := by
      rintro ⟨⟨i, p⟩, he⟩
      exact ⟨i, p, he, .inr ⟨hesq, hmayor i p he⟩⟩
    refine ⟨s', o, hok, ?_⟩
    rw [confirmarEspacio_mem_crearProceso hok]
    refine ⟨⟨?_, fun hfit => hconf (evaluarParticion_isSome_iff.mpr ⟨halg, hfit⟩)⟩,
      confirma_ocupa hpaso, fun hno => pasoLista_sinParticion hpaso ?_⟩
    · rintro ⟨i, p, he, -⟩
      exact (evaluarParticion_isSome_iff.mp ⟨_, he⟩).2
    · by_contra hne
      exact hno (hconf (Option.ne_none_iff_exists'.mp hne))

/-- **The contract of `ASIGNAR_MEMORIA`**, in every state: it is met exactly if some free partition
has room (`FIJAS`), or the partition found, if any, is larger than asked for (`DINAMICAS`). -/
theorem asignacionCorrecta_iff (hesq : cfg.esquema ≠ .otro) (halg : cfg.algoritmoBusqueda ≠ .otro)
    (s : Estado) (d : TAsignarMemoria) :
    AsignacionCorrecta cfg s d ↔
      (cfg.esquema = .fijas ∧
          ∃ p ∈ s.listaParticiones, p.libre = true ∧ d.tamProceso ≤ p.tamanio) ∨
        cfg.esquema = .dinamicas ∧
          ∀ i p, evaluarParticion cfg.algoritmoBusqueda s.listaParticiones d.tamProceso =
            some (i, p) → d.tamProceso < p.tamanio := by
  cases hesq' : cfg.esquema with
  | fijas =>
    rw [asignacionCorrecta_fijas hesq', evaluarParticion_isSome_iff]
    simp [halg]
  | dinamicas =>
    rw [asignacionCorrecta_dinamicas hesq' halg]
    simp
  | otro => exact absurd hesq' hesq

/-- A part of the memory is asked for. -/
theorem asignacion_parcial_correcta :
    let ent := entornoDinamico 100 (by decide)
    AsignacionCorrecta ent.toConfigMemoria
      (estadoInicial ent.toConfigMemoria (fun _ => 0) fun _ => 0) ⟨1, 10⟩ := by
  intro ent
  refine (asignacionCorrecta_iff (by decide) (by decide) _ _).mpr (.inr ⟨rfl, fun i p h => ?_⟩)
  cases h
  decide

/-- The whole memory is asked for: the partition is occupied, and the answer is not a 1. -/
theorem asignacion_exacta_incorrecta :
    let ent := entornoDinamico 100 (by decide)
    ¬ AsignacionCorrecta ent.toConfigMemoria
      (estadoInicial ent.toConfigMemoria (fun _ => 0) fun _ => 0) ⟨1, 100⟩ := by
  intro ent
  rintro ⟨s', o, h, hiff, -, -⟩
  cases h
  exact absurd (hiff.mpr ⟨_, List.mem_singleton_self _, by decide⟩) (by decide)

end Asignacion

end LastOfC.Memoria
