import LastOfC.Memoria.Servidor

/-!
# What one request does to the two lists

* `evaluarParticion_some`, `evaluarParticion_isSome_iff`: the search finds a free partition with
  room, and one of the three algorithms fails only if there is none.
* `consolidarParticionesLibres_split`: the merges, as one list equation. `fundir` is the partition
  that is left of the freed one and its free neighbours (`vecinoAnterior`, `vecinoSiguiente`).
* `PasoLista`: everything that a handled request can do to `lista_particiones`. `atender_paso` is
  the inversion lemma; the invariants of the following modules are case analyses of it.
* `PasoContextos` and `atender_contextos`: the same for `lista_contextos`.
* `Confirma`: when `ASIGNAR_MEMORIA` is answered with `bit_confirmacion = 1`.
-/

namespace LastOfC.Memoria

open KeyedList

/-! ## The search -/

section Busqueda

variable {mejor : Uint32 → Uint32 → Bool} {tam : Uint32} {e : Option (Nat × Particion)}
  {i k : Nat} {p : Particion} {ps : List Particion}

/-- The loop keeps what it was given, or returns an element of the rest with room. -/
theorem elegirDesde_some (h : elegirDesde mejor tam e k ps = some (i, p)) :
    e = some (i, p) ∨ k ≤ i ∧ ps[i - k]? = some p ∧ p.entra tam = true := by
  induction ps generalizing e k with
  | nil => exact .inl h
  | cons q ps ih =>
    simp only [elegirDesde] at h
    rcases ih h with he | ⟨hk, hi, hp⟩
    · -- `e` was replaced by `q` at index `k`, or it was kept.
      by_cases hq : q.entra tam
      · simp only [hq, if_true] at he
        cases e with
        | none =>
          cases he
          exact .inr ⟨Nat.le_refl _, by simp, hq⟩
        | some e =>
          simp only at he
          split at he
          · cases he
            exact .inr ⟨Nat.le_refl _, by simp, hq⟩
          · exact .inl he
      · simp only [hq] at he
        exact .inl he
    · refine .inr ⟨by omega, ?_, hp⟩
      rw [show i - k = i - (k + 1) + 1 by omega, List.getElem?_cons_succ]
      exact hi

theorem elegirDesde_none (h : elegirDesde mejor tam e k ps = none) :
    e = none ∧ ∀ p ∈ ps, p.entra tam = false := by
  induction ps generalizing e k with
  | nil => exact ⟨h, by simp⟩
  | cons q ps ih =>
    simp only [elegirDesde] at h
    obtain ⟨he, hps⟩ := ih h
    cases hq : q.entra tam with
    | true =>
      cases e with
      | none => simp [hq] at he
      | some e =>
        simp only [hq, if_true] at he
        split at he <;> cases he
    | false =>
      simp only [hq, Bool.false_eq_true, if_false] at he
      refine ⟨he, fun p hp => ?_⟩
      rcases List.mem_cons.mp hp with rfl | hp
      · exact hq
      · exact hps p hp

theorem evaluarParticion_some {alg : AlgoritmoBusqueda}
    (h : evaluarParticion alg ps tam = some (i, p)) : ps[i]? = some p ∧ p.entra tam = true := by
  cases alg with
  | first => exact ⟨search_getElem? h, search_pos h⟩
  | best =>
    rcases elegirDesde_some h with h | ⟨-, h⟩
    · cases h
    · exact h
  | worst =>
    rcases elegirDesde_some h with h | ⟨-, h⟩
    · cases h
    · exact h
  | otro => cases h

/-- The three algorithms fail only if no free partition has room. -/
theorem evaluarParticion_none {alg : AlgoritmoBusqueda} (halg : alg ≠ .otro)
    (h : evaluarParticion alg ps tam = none) : ∀ p ∈ ps, p.entra tam = false := by
  cases alg with
  | first => exact search_eq_none.mp h
  | best => exact (elegirDesde_none h).2
  | worst => exact (elegirDesde_none h).2
  | otro => exact absurd rfl halg

theorem Particion.entra_iff : p.entra tam = true ↔ p.libre = true ∧ tam ≤ p.tamanio := by
  simp [Particion.entra]

/-- The search finds a partition if there is a free one with room. -/
theorem evaluarParticion_isSome_iff {alg : AlgoritmoBusqueda} :
    (∃ r, evaluarParticion alg ps tam = some r) ↔
      alg ≠ .otro ∧ ∃ p ∈ ps, p.libre = true ∧ tam ≤ p.tamanio := by
  constructor
  · rintro ⟨⟨i, p⟩, he⟩
    obtain ⟨hget, hp⟩ := evaluarParticion_some he
    refine ⟨?_, p, List.mem_of_getElem? hget, Particion.entra_iff.mp hp⟩
    rintro rfl
    cases he
  · rintro ⟨halg, p, hp, hfit⟩
    apply Option.ne_none_iff_exists'.mp
    intro he
    have := evaluarParticion_none halg he p hp
    rw [Particion.entra_iff.mpr hfit] at this
    cases this

end Busqueda

/-! ## The merges -/

/-- The element before index `i`, if it is free. -/
def vecinoAnterior (ps : List Particion) : Nat → Option Particion
  | 0 => none
  | k + 1 => ps[k]?.filter (·.libre)

/-- The element after index `i`, if it is free. -/
def vecinoSiguiente (ps : List Particion) (i : Nat) : Option Particion :=
  ps[i + 1]?.filter (·.libre)

/-- `a->tamanio += b->tamanio`. -/
def Particion.sumar (a b : Particion) : Particion := { a with tamanio := a.tamanio + b.tamanio }

/-- What is left of `p` and the neighbours merged with it. -/
def fundir (ant : Option Particion) (p : Particion) (sig : Option Particion) : Particion :=
  let actual := match sig with
    | none => p
    | some b => p.sumar b
  match ant with
  | none => actual
  | some a => a.sumar actual

@[simp] theorem fundir_none_none (p : Particion) : fundir none p none = p := rfl

@[simp] theorem fundir_none_some (p b : Particion) : fundir none p (some b) = p.sumar b := rfl

@[simp] theorem fundir_some_none (a p : Particion) : fundir (some a) p none = a.sumar p := rfl

@[simp] theorem fundir_some_some (a p b : Particion) :
    fundir (some a) p (some b) = a.sumar (p.sumar b) := rfl

/-- What is left of a merge is free. -/
theorem fundir_libre {ant sig : Option Particion} {q : Particion}
    (hant : ∀ a, ant = some a → a.libre = true) : (fundir ant q.liberar sig).libre = true := by
  cases ant with
  | none => cases sig <;> rfl
  | some a => cases sig <;> exact hant a rfl

section Fusion

variable {ps pre post : List Particion} {i : Nat} {p q : Particion}

theorem vecinoAnterior_libre {a : Particion} (h : vecinoAnterior ps i = some a) :
    a.libre = true := by
  cases i with
  | zero => cases h
  | succ k => exact (Option.filter_eq_some_iff.mp h).2

theorem vecinoSiguiente_libre {b : Particion} (h : vecinoSiguiente ps i = some b) :
    b.libre = true :=
  (Option.filter_eq_some_iff.mp h).2

/-- The neighbours do not depend on the element itself. -/
@[simp] theorem vecinoAnterior_set : vecinoAnterior (ps.set i q) i = vecinoAnterior ps i := by
  cases i with
  | zero => rfl
  | succ k => simp [vecinoAnterior]

@[simp] theorem vecinoSiguiente_set : vecinoSiguiente (ps.set i q) i = vecinoSiguiente ps i := by
  simp [vecinoSiguiente]

theorem vecinoSiguiente_split :
    vecinoSiguiente (pre ++ p :: post) pre.length = post.head?.filter (·.libre) := by
  rw [vecinoSiguiente, List.getElem?_append_right (by omega), Nat.add_sub_cancel_left]
  cases post <;> rfl

theorem vecinoAnterior_split {a : Particion} :
    vecinoAnterior (pre ++ a :: p :: post) (pre.length + 1) = (some a).filter (·.libre) := by
  simp [vecinoAnterior]

theorem absorber_split {a b : Particion} :
    absorber (pre ++ a :: b :: post) pre.length a b = pre ++ a.sumar b :: post := by
  show ((pre ++ a :: b :: post).set pre.length (a.sumar b)).eraseIdx (pre.length + 1) = _
  rw [set_split, show pre.length + 1 = (pre ++ [a.sumar b]).length by simp]
  have := eraseIdx_split (pre ++ [a.sumar b]) post b
  simpa only [List.append_assoc, List.singleton_append] using this

/-- The first merge: the list up to the freed partition stays. -/
theorem consolidarSiguiente_split (pre : List Particion) (p : Particion) (post : List Particion) :
    ∃ post', post = (vecinoSiguiente (pre ++ p :: post) pre.length).toList ++ post' ∧
      consolidarSiguiente (pre ++ p :: post) pre.length =
        pre ++ fundir none p (vecinoSiguiente (pre ++ p :: post) pre.length) :: post' := by
  rw [vecinoSiguiente_split]
  cases post with
  | nil => exact ⟨[], rfl, by simp [consolidarSiguiente]⟩
  | cons b post =>
    cases hb : b.libre with
    | false =>
      refine ⟨b :: post, by simp [Option.filter, hb], ?_⟩
      simp [consolidarSiguiente, Option.filter, hb]
    | true =>
      refine ⟨post, by simp [Option.filter, hb], ?_⟩
      simp [consolidarSiguiente, Option.filter, hb, absorber_split]

/-- The two merges at once. -/
theorem consolidarParticionesLibres_split (h : ps[i]? = some p) :
    ∃ pre post,
      ps = pre ++ (vecinoAnterior ps i).toList ++ p :: ((vecinoSiguiente ps i).toList ++ post) ∧
      i = pre.length + (vecinoAnterior ps i).toList.length ∧
      consolidarParticionesLibres ps i =
        pre ++ fundir (vecinoAnterior ps i) p (vecinoSiguiente ps i) :: post := by
  obtain ⟨pre, post, rfl, rfl⟩ := exists_split h
  obtain ⟨post', hpost, hsig⟩ := consolidarSiguiente_split pre p post
  rw [consolidarParticionesLibres, hsig]
  generalize vecinoSiguiente (pre ++ p :: post) pre.length = sig at hpost
  subst hpost
  rcases List.eq_nil_or_concat pre with rfl | ⟨pre, a, rfl⟩
  · exact ⟨[], post', rfl, rfl, rfl⟩
  · -- The element before is `a`; the result of the first merge is at index `pre.length + 1`.
    simp only [List.concat_eq_append, List.length_append, List.length_singleton,
      List.append_assoc, List.singleton_append]
    rw [vecinoAnterior_split]
    cases ha : a.libre with
    | false =>
      refine ⟨pre ++ [a], post', by simp [Option.filter, ha], by simp [Option.filter, ha], ?_⟩
      simp [consolidarAnterior, Option.filter, ha]
    | true =>
      refine ⟨pre, post', by simp [Option.filter, ha], by simp [Option.filter, ha], ?_⟩
      have hfun : ∀ q, consolidarAnterior (pre ++ a :: q :: post') (pre.length + 1) =
          pre ++ a.sumar q :: post' := by
        intro q
        simp [consolidarAnterior, ha, absorber_split]
      cases sig <;> simp [Option.filter, ha, hfun]

/-- The free neighbours that `finalizar_proceso` merges: only `DINAMICAS` merges. -/
def anteriorFundido (esquema : Esquema) (ps : List Particion) (i : Nat) : Option Particion :=
  if esquema = .dinamicas then vecinoAnterior ps i else none

def siguienteFundido (esquema : Esquema) (ps : List Particion) (i : Nat) : Option Particion :=
  if esquema = .dinamicas then vecinoSiguiente ps i else none

theorem anteriorFundido_libre {esquema : Esquema} {a : Particion}
    (h : anteriorFundido esquema ps i = some a) : a.libre = true := by
  unfold anteriorFundido at h
  split at h
  · exact vecinoAnterior_libre h
  · cases h

theorem siguienteFundido_libre {esquema : Esquema} {b : Particion}
    (h : siguienteFundido esquema ps i = some b) : b.libre = true := by
  unfold siguienteFundido at h
  split at h
  · exact vecinoSiguiente_libre h
  · cases h

/-- A `FINALIZAR_PROCESO` that finds the partition `q`. -/
theorem liberarPid_split (esquema : Esquema) {pid : Uint32}
    (h : buscarPid ps pid = some (i, q)) :
    ∃ pre post,
      ps = pre ++ (anteriorFundido esquema ps i).toList ++
        q :: ((siguienteFundido esquema ps i).toList ++ post) ∧
      i = pre.length + (anteriorFundido esquema ps i).toList.length ∧
      liberarPid esquema ps pid =
        pre ++ fundir (anteriorFundido esquema ps i) q.liberar (siguienteFundido esquema ps i) ::
          post := by
  simp only [liberarPid, h, anteriorFundido, siguienteFundido]
  obtain ⟨pre, post, hps, rfl⟩ := exists_split (search_getElem? h)
  have hset : ps.set pre.length q.liberar = pre ++ q.liberar :: post := by rw [hps, set_split]
  split
  · have hget : (ps.set pre.length q.liberar)[pre.length]? = some q.liberar := by simp [hset]
    obtain ⟨pre', post', hps', hi, hres⟩ := consolidarParticionesLibres_split hget
    simp only [vecinoAnterior_set, vecinoSiguiente_set] at hps' hi hres
    refine ⟨pre', post', ?_, hi, hres⟩
    -- The two splits of the list at index `pre.length` are the same.
    rw [hset] at hps'
    obtain ⟨h₁, h₂⟩ := List.append_inj hps' (by rw [List.length_append]; exact hi)
    rw [← h₁, ← (List.cons.inj h₂).2]
    exact hps
  · exact ⟨pre, post, by simpa using hps, rfl, hset⟩

end Fusion

/-! ## Steps -/

theorem buscarPid_pid {pid : Uint32} {i : Nat} {q : Particion}
    (h : buscarPid ps pid = some (i, q)) : q.pid = pid := by
  simpa using search_pos h

/-- Everything that a request can do to `lista_particiones` if its handler returns. -/
inductive PasoLista (cfg : ConfigMemoria) (ps : List Particion) :
    Peticion → List Particion → Prop
  | igual (a : Peticion)
      (hasignar : ∀ d, a = .asignarMemoria d → cfg.esquema = .otro ∨
        evaluarParticion cfg.algoritmoBusqueda ps d.tamProceso = none)
      (hfinalizar : ∀ pid, a = .finalizarProceso pid → buscarPid ps pid = none) :
      PasoLista cfg ps a ps
  | ocupar (d : TAsignarMemoria) (pre : List Particion) (p : Particion) (post : List Particion)
      (hps : ps = pre ++ p :: post)
      (he : evaluarParticion cfg.algoritmoBusqueda ps d.tamProceso = some (pre.length, p))
      (hesq : cfg.esquema ≠ .otro)
      (hle : cfg.esquema = .dinamicas → ¬ d.tamProceso < p.tamanio) :
      PasoLista cfg ps (.asignarMemoria d) (pre ++ p.ocupar d.pid :: post)
  | dividir (d : TAsignarMemoria) (pre : List Particion) (p : Particion) (post : List Particion)
      (hps : ps = pre ++ p :: post)
      (he : evaluarParticion cfg.algoritmoBusqueda ps d.tamProceso = some (pre.length, p))
      (hesq : cfg.esquema = .dinamicas) (hlt : d.tamProceso < p.tamanio) :
      PasoLista cfg ps (.asignarMemoria d)
        (pre ++ (p.ocupar d.pid).recortar d.tamProceso :: (post ++ [p.resto d.tamProceso]))
  | liberar (pid : Uint32) (pre : List Particion) (ant : Option Particion) (q : Particion)
      (sig : Option Particion) (post : List Particion)
      (hps : ps = pre ++ ant.toList ++ q :: (sig.toList ++ post))
      (hb : buscarPid ps pid = some (pre.length + ant.toList.length, q))
      (hant : ant = anteriorFundido cfg.esquema ps (pre.length + ant.toList.length))
      (hsig : sig = siguienteFundido cfg.esquema ps (pre.length + ant.toList.length)) :
      PasoLista cfg ps (.finalizarProceso pid) (pre ++ fundir ant q.liberar sig :: post)

/-- Everything that a request can do to `lista_contextos` if its handler returns. -/
inductive PasoContextos (ps : List Particion) (cs : List ContextoEjecucion) :
    Peticion → List ContextoEjecucion → Prop
  | igual (a : Peticion) (hready : ∀ d, a ≠ .hiloReady d)
      (hfin : ∀ d, a = .finalizarHilo d → buscarContextoPorTid cs d.tidInv d.pidInv = none)
      (hact : ∀ d, a = .actualizarContexto d → buscarContextoPorTid cs d.TID d.pid = none) :
      PasoContextos ps cs a cs
  | agregar (d : TCrearHilo) (p : Particion) (hp : buscarParticionPorPid ps d.PID = some p) :
      PasoContextos ps cs (.hiloReady d) (cs ++ [nuevoContexto d p])
  | quitar (d : TDatosEsenciales) (i : Nat) (c : ContextoEjecucion)
      (hc : buscarContextoPorTid cs d.tidInv d.pidInv = some (i, c)) :
      PasoContextos ps cs (.finalizarHilo d) (cs.eraseIdx i)
  | actualizar (d : TContextoEjecucion) (i : Nat) (c : ContextoEjecucion)
      (hc : buscarContextoPorTid cs d.TID d.pid = some (i, c)) :
      PasoContextos ps cs (.actualizarContexto d) (cs.set i (c.actualizar d))

/-- A release under `DINAMICAS`, of the partition that the search finds. -/
theorem PasoLista.liberacion {cfg : ConfigMemoria} {ps ps' : List Particion} {pid : Uint32}
    {i : Nat} {q : Particion} (h : PasoLista cfg ps (.finalizarProceso pid) ps')
    (hesq : cfg.esquema = .dinamicas) (hq : buscarPid ps pid = some (i, q)) :
    ∃ pre ant sig post, ps = pre ++ ant.toList ++ q :: (sig.toList ++ post) ∧
      ps' = pre ++ fundir ant q.liberar sig :: post ∧ i = pre.length + ant.toList.length ∧
      ant = vecinoAnterior ps i ∧ sig = vecinoSiguiente ps i := by
  cases h with
  | igual a _ hf =>
    rw [hf pid rfl] at hq
    cases hq
  | liberar pid pre ant q' sig post hps hb hant hsig =>
    obtain ⟨rfl, rfl⟩ : pre.length + ant.toList.length = i ∧ q' = q := by
      rw [hb] at hq
      simpa using hq
    simp only [anteriorFundido, siguienteFundido, hesq, if_true] at hant hsig
    exact ⟨pre, ant, sig, post, hps, rfl, rfl, hant, hsig⟩

section Pasos

variable {ent : Entorno} {s s' : Estado} {a : Peticion} {o : List Envio}

/-- A request other than the two leaves `lista_particiones` as it is, and is not answered with a
`CONFIRMAR_ESPACIO_PROCESO`. -/
theorem atender_otra (h : atender ent s a = .ok (s', o)) (ha : ∀ d, a ≠ .asignarMemoria d)
    (hf : ∀ pid, a ≠ .finalizarProceso pid) :
    s'.listaParticiones = s.listaParticiones ∧
      PasoContextos s.listaParticiones s.listaContextos a s'.listaContextos ∧
      ∀ pid bit, confirmarEspacio pid bit ∉ o := by
  unfold confirmarEspacio
  cases a with
  | asignarMemoria d => exact absurd rfl (ha d)
  | finalizarProceso pid => exact absurd rfl (hf pid)
  | hiloReady d =>
    simp only [atender, crearHilo] at h
    split at h <;> cases h
    rename_i p hp
    exact ⟨rfl, .agregar d p hp, by simp⟩
  | finalizarHilo d =>
    simp only [atender, finalizarHilo] at h
    split at h <;> cases h
    · rename_i i c hc
      exact ⟨rfl, .quitar d i c hc, by simp⟩
    · rename_i hc
      refine ⟨rfl, .igual _ (by simp) (fun d' hd => ?_) (by simp), by simp⟩
      cases hd
      exact hc
  | actualizarContexto d =>
    simp only [atender, actualizarContextoDeEjecucion] at h
    split at h <;> cases h
    · rename_i i c hc
      exact ⟨rfl, .actualizar d i c hc, by simp⟩
    · rename_i hc
      refine ⟨rfl, .igual _ (by simp) (by simp) fun d' hd => ?_, by simp⟩
      cases hd
      exact hc
  | obtenerContexto d =>
    simp only [atender, devolverContextoEjecucion] at h
    split at h <;> cases h <;> exact ⟨rfl, .igual _ (by simp) (by simp) (by simp), by simp⟩
  | obtenerInstruccion d =>
    simp only [atender, obtenerInstruccion] at h
    split at h
    · cases h
      exact ⟨rfl, .igual _ (by simp) (by simp) (by simp), by simp⟩
    · split at h <;> cases h <;> exact ⟨rfl, .igual _ (by simp) (by simp) (by simp), by simp⟩
  | writeMem d =>
    simp only [atender, writeMem] at h
    split at h <;> cases h <;> exact ⟨rfl, .igual _ (by simp) (by simp) (by simp), by simp⟩
  | readMem d =>
    simp only [atender, readMem] at h
    split at h <;> cases h <;> exact ⟨rfl, .igual _ (by simp) (by simp) (by simp), by simp⟩

theorem atender_lista (h : atender ent s a = .ok (s', o)) (ha : ∀ d, a ≠ .asignarMemoria d)
    (hf : ∀ pid, a ≠ .finalizarProceso pid) : s'.listaParticiones = s.listaParticiones :=
  (atender_otra h ha hf).1

/-- `ASIGNAR_MEMORIA` if its handler returns: nothing is found, or a partition is split, or it is
occupied as a whole. Only `FIJAS` confirms the last case. -/
theorem crearProceso_casos {cfg : ConfigMemoria} {d : TAsignarMemoria}
    (h : crearProceso cfg s d = .ok (s', o)) :
    ((cfg.esquema = .otro ∨
        evaluarParticion cfg.algoritmoBusqueda s.listaParticiones d.tamProceso = none) ∧
      s' = s ∧ o = []) ∨
    ∃ i p, evaluarParticion cfg.algoritmoBusqueda s.listaParticiones d.tamProceso = some (i, p) ∧
      cfg.esquema ≠ .otro ∧
      ((cfg.esquema = .dinamicas ∧ d.tamProceso < p.tamanio ∧
          s' = { s with
            listaParticiones := dividirParticion (s.listaParticiones.set i (p.ocupar d.pid)) i
              (p.ocupar d.pid) d.tamProceso } ∧
          o = [confirmarEspacio d.pid 1]) ∨
        ((cfg.esquema = .dinamicas → ¬ d.tamProceso < p.tamanio) ∧
          s' = { s with listaParticiones := s.listaParticiones.set i (p.ocupar d.pid) } ∧
          o = [confirmarEspacio d.pid (if cfg.esquema = .fijas then 1 else sinConfirmar)])) := by
  cases hesq : cfg.esquema with
  | fijas =>
    simp only [crearProceso, hesq, asignarParticionesFijas] at h
    cases he : evaluarParticion cfg.algoritmoBusqueda s.listaParticiones d.tamProceso with
    | none => simp [he] at h
    | some r =>
      simp only [he] at h
      cases h
      exact .inr ⟨r.1, r.2, rfl, by simp, .inr ⟨by simp, rfl, rfl⟩⟩
  | dinamicas =>
    simp only [crearProceso, hesq, asignarParticionesDinamicas] at h
    cases he : evaluarParticion cfg.algoritmoBusqueda s.listaParticiones d.tamProceso with
    | none =>
      simp only [he] at h
      cases h
      exact .inl ⟨.inr rfl, rfl, rfl⟩
    | some r =>
      simp only [he] at h
      refine .inr ⟨r.1, r.2, rfl, by simp, ?_⟩
      split at h
      · rename_i hlt
        cases h
        exact .inl ⟨rfl, hlt, rfl, rfl⟩
      · rename_i hle
        cases h
        exact .inr ⟨fun _ => hle, rfl, rfl⟩
  | otro =>
    simp only [crearProceso, hesq] at h
    cases h
    exact .inl ⟨.inl rfl, rfl, rfl⟩

/-- The handler returns, unless the scheme is `FIJAS` and the search fails. -/
theorem crearProceso_ok {cfg : ConfigMemoria} {d : TAsignarMemoria} :
    (∃ s' o, crearProceso cfg s d = .ok (s', o)) ↔
      ¬ (cfg.esquema = .fijas ∧
        evaluarParticion cfg.algoritmoBusqueda s.listaParticiones d.tamProceso = none) := by
  cases hesq : cfg.esquema with
  | fijas =>
    simp only [crearProceso, hesq, asignarParticionesFijas]
    cases evaluarParticion cfg.algoritmoBusqueda s.listaParticiones d.tamProceso <;> simp
  | dinamicas =>
    simp only [crearProceso, hesq, asignarParticionesDinamicas]
    cases evaluarParticion cfg.algoritmoBusqueda s.listaParticiones d.tamProceso with
    | none => simp
    | some r =>
      simp only
      split <;> simp
  | otro => simp [crearProceso, hesq]

theorem crearProceso_paso {cfg : ConfigMemoria} {d : TAsignarMemoria}
    (h : crearProceso cfg s d = .ok (s', o)) :
    PasoLista cfg s.listaParticiones (.asignarMemoria d) s'.listaParticiones := by
  rcases crearProceso_casos h with
    ⟨hno, rfl, -⟩ | ⟨i, p, he, hesq, ⟨hdin, hlt, rfl, -⟩ | ⟨hle, rfl, -⟩⟩
  · refine .igual _ (fun d' hd => ?_) (by simp)
    cases hd
    exact hno
  · obtain ⟨pre, post, hps, rfl⟩ := exists_split (evaluarParticion_some he).1
    simp only [dividirParticion, hps, set_split, List.append_assoc, List.cons_append]
    exact hps ▸ .dividir d pre p post hps he hdin hlt
  · obtain ⟨pre, post, hps, rfl⟩ := exists_split (evaluarParticion_some he).1
    simp only [hps, set_split]
    exact hps ▸ .ocupar d pre p post hps he hesq hle

/-- **The inversion lemma.** -/
theorem atender_paso (h : atender ent s a = .ok (s', o)) :
    PasoLista ent.toConfigMemoria s.listaParticiones a s'.listaParticiones := by
  by_cases hd : ∃ d, a = .asignarMemoria d
  · obtain ⟨d, rfl⟩ := hd
    exact crearProceso_paso h
  by_cases hf : ∃ pid, a = .finalizarProceso pid
  · obtain ⟨pid, rfl⟩ := hf
    cases h
    cases hb : buscarPid s.listaParticiones pid with
    | none =>
      simp only [liberarPid, hb]
      refine .igual _ (by simp) fun pid' hp => ?_
      cases hp
      exact hb
    | some r =>
      obtain ⟨i, q⟩ := r
      obtain ⟨pre, post, hps, hi, hres⟩ := liberarPid_split ent.esquema hb
      simp only [hres]
      exact .liberar pid pre _ q _ post hps (hi ▸ hb) (by rw [← hi]) (by rw [← hi])
  · rw [atender_lista h (fun d he => hd ⟨d, he⟩) fun pid he => hf ⟨pid, he⟩]
    exact .igual a (fun d he => absurd ⟨d, he⟩ hd) fun pid he => absurd ⟨pid, he⟩ hf

/-- Only a `WRITE_MEM` writes in the byte array. -/
theorem atender_memoria (h : atender ent s a = .ok (s', o)) :
    s'.memoria = s.memoria ∨
      ∃ d, a = .writeMem d ∧ s'.memoria = escribirPalabra s.memoria d.dirFis.toNat d.valor := by
  cases a with
  | asignarMemoria d =>
    rcases crearProceso_casos h with ⟨-, rfl, -⟩ | ⟨i, p, -, -, ⟨-, -, rfl, -⟩ | ⟨-, rfl, -⟩⟩
    all_goals exact .inl rfl
  | finalizarProceso pid =>
    cases h
    exact .inl rfl
  | hiloReady d =>
    simp only [atender, crearHilo] at h
    split at h <;> cases h
    exact .inl rfl
  | finalizarHilo d =>
    simp only [atender, finalizarHilo] at h
    split at h <;> cases h <;> exact .inl rfl
  | actualizarContexto d =>
    simp only [atender, actualizarContextoDeEjecucion] at h
    split at h <;> cases h <;> exact .inl rfl
  | obtenerContexto d =>
    simp only [atender, devolverContextoEjecucion] at h
    split at h <;> cases h <;> exact .inl rfl
  | obtenerInstruccion d =>
    simp only [atender, obtenerInstruccion] at h
    split at h
    · cases h
      exact .inl rfl
    · split at h <;> cases h <;> exact .inl rfl
  | writeMem d =>
    simp only [atender, writeMem] at h
    split at h <;> cases h
    · exact .inr ⟨d, rfl, rfl⟩
    · exact .inl rfl
  | readMem d =>
    simp only [atender, readMem] at h
    split at h <;> cases h <;> exact .inl rfl

/-- A request for memory that finds the partition `p`: its place goes to the process, and what is
left over is free. -/
theorem pasoLista_asignar {cfg : ConfigMemoria} {ps ps' : List Particion} {d : TAsignarMemoria}
    {i : Nat} {p : Particion} (h : PasoLista cfg ps (.asignarMemoria d) ps')
    (hesq : cfg.esquema ≠ .otro)
    (he : evaluarParticion cfg.algoritmoBusqueda ps d.tamProceso = some (i, p)) :
    ∃ pre p' post cola, ps = pre ++ p :: post ∧ i = pre.length ∧
      ps' = pre ++ p' :: (post ++ cola) ∧ p'.pid = d.pid ∧ p'.libre = false ∧
      ∀ r ∈ cola, r.pid = 0 ∧ r.libre = true := by
  cases h with
  | igual a hd =>
    rcases hd d rfl with hotro | hnone
    · exact absurd hotro hesq
    · rw [hnone] at he
      cases he
  | ocupar _ pre q post hps he' =>
    rw [he'] at he
    cases he
    exact ⟨pre, _, post, [], hps, rfl, by rw [List.append_nil], rfl, rfl, by simp⟩
  | dividir _ pre q post hps he' =>
    rw [he'] at he
    cases he
    exact ⟨pre, _, post, [p.resto d.tamProceso], hps, rfl, rfl, rfl, rfl, by simp [Particion.resto]⟩

theorem atender_contextos (h : atender ent s a = .ok (s', o)) :
    PasoContextos s.listaParticiones s.listaContextos a s'.listaContextos := by
  by_cases hd : ∃ d, a = .asignarMemoria d
  · obtain ⟨d, rfl⟩ := hd
    have hcs : s'.listaContextos = s.listaContextos := by
      rcases crearProceso_casos h with
        ⟨-, rfl, -⟩ | ⟨i, p, -, -, ⟨-, -, rfl, -⟩ | ⟨-, rfl, -⟩⟩ <;> rfl
    rw [hcs]
    exact .igual _ (by simp) (by simp) (by simp)
  by_cases hf : ∃ pid, a = .finalizarProceso pid
  · obtain ⟨pid, rfl⟩ := hf
    cases h
    exact .igual _ (by simp) (by simp) (by simp)
  · exact (atender_otra h (fun d he => hd ⟨d, he⟩) fun pid he => hf ⟨pid, he⟩).2.1

/-- The request finds a partition, and under `DINAMICAS` one that is larger than asked for. -/
def Confirma (cfg : ConfigMemoria) (ps : List Particion) (d : TAsignarMemoria) : Prop :=
  ∃ i p, evaluarParticion cfg.algoritmoBusqueda ps d.tamProceso = some (i, p) ∧
    (cfg.esquema = .fijas ∨ cfg.esquema = .dinamicas ∧ d.tamProceso < p.tamanio)

/-- The three replies of `ASIGNAR_MEMORIA`, one of them silence. -/
theorem crearProceso_envios {cfg : ConfigMemoria} {d : TAsignarMemoria}
    (h : crearProceso cfg s d = .ok (s', o)) :
    (Confirma cfg s.listaParticiones d ∧ o = [confirmarEspacio d.pid 1]) ∨
      ¬ Confirma cfg s.listaParticiones d ∧
        (o = [] ∨ o = [confirmarEspacio d.pid sinConfirmar]) := by
  rcases crearProceso_casos h with
    ⟨hno, -, rfl⟩ | ⟨i, p, he, hesq, ⟨hdin, hlt, -, rfl⟩ | ⟨hle, -, rfl⟩⟩
  · refine .inr ⟨?_, .inl rfl⟩
    rintro ⟨i, p, he, hesq⟩
    rcases hno with hotro | hnone
    · simp [hotro] at hesq
    · rw [hnone] at he
      cases he
  · exact .inl ⟨⟨i, p, he, .inr ⟨hdin, hlt⟩⟩, rfl⟩
  · by_cases hfijas : cfg.esquema = .fijas
    · rw [if_pos hfijas]
      exact .inl ⟨⟨i, p, he, .inl hfijas⟩, rfl⟩
    · rw [if_neg hfijas]
      refine .inr ⟨?_, .inr rfl⟩
      rintro ⟨j, q, hq, hf | ⟨hdin, hlt⟩⟩
      · exact hfijas hf
      · rw [he] at hq
        cases hq
        exact hle hdin hlt

/-- `bit_confirmacion = 1` is the reply to an `ASIGNAR_MEMORIA` under `Confirma`. -/
theorem confirmarEspacio_mem {pid : Uint32} (h : atender ent s a = .ok (s', o)) :
    confirmarEspacio pid 1 ∈ o ↔
      ∃ d, a = .asignarMemoria d ∧ d.pid = pid ∧
        Confirma ent.toConfigMemoria s.listaParticiones d := by
  by_cases ha : ∃ d, a = .asignarMemoria d
  · obtain ⟨d, rfl⟩ := ha
    rcases crearProceso_envios h with ⟨hc, rfl⟩ | ⟨hc, rfl | rfl⟩
    · simp [confirmarEspacio, hc, eq_comm]
    · simp [hc]
    · simp [confirmarEspacio, sinConfirmar, hc]
  · have hne : ∀ d, a ≠ .asignarMemoria d := fun d he => ha ⟨d, he⟩
    have hcalla : confirmarEspacio pid 1 ∉ o := by
      by_cases hf : ∃ pid, a = .finalizarProceso pid
      · obtain ⟨pid, rfl⟩ := hf
        cases h
        simp
      · exact (atender_otra h hne fun pid he => hf ⟨pid, he⟩).2.2 pid 1
    simp only [hne, false_and, exists_false, iff_false]
    exact hcalla

end Pasos

end LastOfC.Memoria
