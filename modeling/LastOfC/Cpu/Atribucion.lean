import LastOfC.Cpu.Turno

/-!
# The CPU does not mix up threads

* `EsLinea`: a text is the line at the PC of a context, in the program of its thread.
* `Lineas`: one request for an instruction is out for a thread that waits for it, and what it
  decodes and executes is its line.
* `Salida.DeSuHilo`: what a thread executes and sends is of its context.
* `cpu_no_mezcla`: as long as the threads take turns, all of it is.
-/

namespace LastOfC.Cpu

open KeyedList Trace
open Memoria (Peticion mapaDe buscarContextoPorTid obtenerInstruccionPorPc)

/-! ## Programs -/

/-- A `HILO_READY` gave the thread this program. -/
def EsPrograma (pre : List Paso) (hilo : Memoria.Clave) (path : Cadena) : Prop :=
  ∃ d : TCrearHilo, .memoriaKernel (.hiloReady d) ∈ pre ∧ (d.PID, d.TID) = hilo ∧ d.path = path

/-- The line at the PC of the context. -/
def EsLinea (ent : Memoria.Entorno) (pre : List Paso) (c : TContextoEjecucion) (t : Cadena) :
    Prop :=
  ∃ path, EsPrograma pre (c.pid, c.TID) path ∧ obtenerInstruccionPorPc ent c.PC path = some t

/-- The contexts of memoria have the programs of their threads. -/
def Programas (pre : List Paso) (m : Memoria.Estado) : Prop :=
  ∀ x ∈ m.listaContextos, EsPrograma pre x.clave x.instrucciones

section Programas

variable {ent : Memoria.Entorno} {pre : List Paso} {m m' : Memoria.Estado} {q : Peticion}
  {o : List Memoria.Envio} {rs : List Llegada} {hilo : Memoria.Clave} {path t : Cadena}
  {c : TContextoEjecucion}

theorem EsPrograma.concat (h : EsPrograma pre hilo path) (a : Paso) :
    EsPrograma (pre ++ [a]) hilo path := by
  obtain ⟨d, hd, hhilo, hpath⟩ := h
  exact ⟨d, List.mem_append_left _ hd, hhilo, hpath⟩

theorem EsLinea.concat (h : EsLinea ent pre c t) (a : Paso) : EsLinea ent (pre ++ [a]) c t := by
  obtain ⟨path, hpath, ht⟩ := h
  exact ⟨path, hpath.concat a, ht⟩

theorem Programas.concat (h : Programas pre m) (a : Paso) : Programas (pre ++ [a]) m :=
  fun x hx => (h x hx).concat a

/-- Memoria keeps the programs when it answers the CPU. -/
theorem Programas.responde (h : Programas pre m) (hr : Responde ent m q m' rs) :
    Programas pre m' := by
  cases hr with
  | actualiza d i x hx =>
    intro y hy
    rcases List.mem_or_eq_of_mem_set hy with hy | rfl
    · exact h y hy
    · exact h x (search_mem hx)
  | _ => exact h

/-- A request of the kernel. -/
theorem Programas.atender (h : Programas pre m) (hq : Memoria.atender ent m q = .ok (m', o)) :
    Programas (pre ++ [.memoriaKernel q]) m' := by
  intro y hy
  have hpaso := Memoria.atender_contextos hq
  generalize m'.listaContextos = cs' at hy hpaso
  cases hpaso with
  | igual => exact (h y hy).concat _
  | agregar d p hp =>
    rcases List.mem_append.mp hy with hy | hy
    · exact (h y hy).concat _
    · cases List.mem_singleton.mp hy
      exact ⟨d, by simp, rfl, rfl⟩
  | quitar d i x hx => exact (h y (List.mem_of_mem_eraseIdx hy)).concat _
  | actualizar d i x hx =>
    rcases List.mem_or_eq_of_mem_set hy with hy | rfl
    · exact (h y hy).concat _
    · exact (h x (search_mem hx)).concat _

/-- The context found has the program of the thread. -/
theorem Programas.buscar (h : Programas pre m) {x : Memoria.ContextoEjecucion}
    (hx : mapaDe m.listaContextos hilo = some x) : EsPrograma pre hilo x.instrucciones := by
  have hmem : x ∈ m.listaContextos := List.mem_of_find?_eq_some hx
  rw [← mapaDe_clave hx]
  exact h x hmem

end Programas

/-! ## The invariant -/

def pideInstruccion : Peticion → Bool
  | .obtenerInstruccion _ => true
  | _ => false

def traeInstruccion : Llegada → Bool
  | .instruccion _ => true
  | _ => false

/-- Instructions that were asked for and not taken. -/
def pendientes (s : CpuMemoria) (ls : List Llegada) : Nat :=
  s.semInstruccion + s.peticiones.countP pideInstruccion + ls.countP traeInstruccion

def Fase.esperaInstruccion : Fase → Bool
  | .espera => true
  | _ => false

/-- What a thread with the context `c` has, or waits for, is its line. -/
def SuLinea (ent : Memoria.Entorno) (pre : List Paso) (s : CpuMemoria) (ls : List Llegada)
    (c : TContextoEjecucion) : Fase → Prop
  | .espera =>
    (∀ d, .obtenerInstruccion d ∈ s.peticiones → d = ⟨c.PC, c.TID, c.pid⟩) ∧
      (∀ t, .instruccion t ∈ ls → EsLinea ent pre c t) ∧
      (s.semInstruccion ≠ 0 → ∀ t, s.instruccionActual = some t → EsLinea ent pre c t)
  | .decodifica => ∀ t, s.instruccionActual = some t → EsLinea ent pre c t
  | .ejecuta i => ∃ t, EsLinea ent pre c t ∧ i = decode t c.pid c.TID
  | .esperaSyscall i | .enviaSyscall i => (i.PID, i.TID) = (c.pid, c.TID)
  | _ => True

structure Lineas (ent : Memoria.Entorno) (pre : List Paso) (s : CpuMemoria) (ls : List Llegada) :
    Prop where
  programas : Programas pre s.memoria
  fichas : pendientes s ls ≤ s.ciclos.countP fun x => x.fase.esperaInstruccion
  suya : ∀ x ∈ s.ciclos, SuLinea ent pre s ls x.contexto x.fase

/-! ## Steps -/

section Pasos

variable {ent : Memoria.Entorno} {pre : List Paso} {s s' : CpuMemoria} {ls ls' : List Llegada}
  {a : Paso} {o : List Salida} {k : Nat} {c : TContextoEjecucion} {fase : Fase}

/-- A thread that does not wait for an instruction. -/
theorem SuLinea.ajena (h : SuLinea ent pre s ls c fase) (a : Paso) (hne : fase ≠ .espera)
    (hactual : s'.instruccionActual = s.instruccionActual) :
    SuLinea ent (pre ++ [a]) s' ls' c fase := by
  cases fase with
  | espera => exact absurd rfl hne
  | decodifica =>
    intro t ht
    rw [hactual] at ht
    exact EsLinea.concat (h t ht) a
  | ejecuta i =>
    obtain ⟨t, ht, hi⟩ := h
    exact ⟨t, ht.concat a, hi⟩
  | esperaSyscall i => exact h
  | enviaSyscall i => exact h
  | _ => trivial

/-- A step that is not about instructions leaves what a thread has. -/
theorem SuLinea.mono (h : SuLinea ent pre s ls c fase) (a : Paso)
    (hp : ∀ d, .obtenerInstruccion d ∈ s'.peticiones → .obtenerInstruccion d ∈ s.peticiones)
    (hl : ∀ t, .instruccion t ∈ ls' → .instruccion t ∈ ls)
    (hsem : s'.semInstruccion = s.semInstruccion)
    (hactual : s'.instruccionActual = s.instruccionActual) :
    SuLinea ent (pre ++ [a]) s' ls' c fase := by
  by_cases hespera : fase = .espera
  · subst hespera
    obtain ⟨h₁, h₂, h₃⟩ := h
    refine ⟨fun d hd => h₁ d (hp d hd), fun t ht => (h₂ t (hl t ht)).concat a, ?_⟩
    rw [hsem, hactual]
    exact fun hne t ht => (h₃ hne t ht).concat a
  · exact h.ajena a hespera hactual

/-- Requests that are not for instructions. -/
theorem pendientes_agrega {qs : List Peticion} (hsem : s'.semInstruccion = s.semInstruccion)
    (hqs : s'.peticiones = s.peticiones ++ qs) (h : ∀ q ∈ qs, pideInstruccion q = false) :
    pendientes s' ls = pendientes s ls := by
  unfold pendientes
  rw [hsem, hqs, countP_agrega h]

/-- What any step of a thread does to the requests for instructions. -/
structure GiraLinea (ent : Memoria.Entorno) (pre : List Paso) (s : CpuMemoria)
    (ls : List Llegada) (k : Nat) (fase : Fase) (s' : CpuMemoria) : Prop where
  memoria : s'.memoria = s.memoria
  ciclos : ∃ c' fase', s'.ciclos = s.ciclos.set k ⟨c', fase'⟩ ∧ SuLinea ent pre s' ls c' fase' ∧
    pendientes s' ls + fase.esperaInstruccion.toNat ≤
      pendientes s ls + fase'.esperaInstruccion.toNat

theorem giro_linea (h : Giro s k c fase s' o) (hv : s'.vivo = true)
    (hs : SuLinea ent pre s ls c fase) (hfichas : pendientes s ls ≤ fase.esperaInstruccion.toNat)
    (hactual : fase.cedio s.controlKey = false → s.PidHilo = c.pid ∧ s.TidHilo = c.TID) :
    GiraLinea ent pre s ls k fase s' := by
  cases h with
  | pide hkey =>
    have hcero : pendientes s ls = 0 := Nat.le_zero.mp hfichas
    obtain ⟨hcero, hl⟩ := Nat.add_eq_zero_iff.mp hcero
    obtain ⟨hsem, hp⟩ := Nat.add_eq_zero_iff.mp hcero
    refine ⟨rfl, c, .espera, rfl, ⟨?_, ?_, fun hne => absurd hsem hne⟩, ?_⟩
    · intro d hd
      rcases List.mem_append.mp hd with hd | hd
      · exact absurd rfl (List.countP_eq_zero.mp hp _ hd)
      · cases List.mem_singleton.mp hd
        rfl
    · exact fun t ht => absurd rfl (List.countP_eq_zero.mp hl _ ht)
    · show s.semInstruccion + (s.peticiones ++ [_]).countP pideInstruccion + _ + 0 ≤ _
      rw [List.countP_append]
      simp [pendientes, pideInstruccion, Fase.esperaInstruccion]
      omega
  | vuelve hkey => exact ⟨rfl, c, .fin, rfl, trivial, Nat.le_refl _⟩
  | recibe hsem =>
    refine ⟨rfl, c, .decodifica, rfl, hs.2.2 hsem, ?_⟩
    show s.semInstruccion - 1 + s.peticiones.countP pideInstruccion + _ + 1 ≤
      s.semInstruccion + s.peticiones.countP pideInstruccion + _ + 0
    omega
  | decodifica t ht =>
    obtain ⟨hpid, htid⟩ := hactual rfl
    refine ⟨rfl, c, _, rfl, ⟨t, hs t ht, by rw [hpid, htid]⟩, Nat.le_refl _⟩
  | nulo hn => cases hv
  | sigue i c' envios he =>
    obtain ⟨qs, hqs, hescribe⟩ := enviar_sigue he s
    refine ⟨rfl, c', .revisa, rfl, trivial, ?_⟩
    refine Nat.le_of_eq (pendientes_agrega rfl hqs fun q hq => ?_)
    obtain ⟨d, rfl⟩ := hescribe q hq
    rfl
  | llama i c' he =>
    obtain rfl := execute_syscall he
    obtain ⟨t, -, rfl⟩ := hs
    obtain ⟨hpid, htid⟩ := decode_PID_TID t c.pid c.TID
    refine ⟨rfl, _, .esperaSyscall _, rfl, Prod.ext hpid htid, ?_⟩
    exact Nat.le_of_eq (pendientes_agrega rfl rfl (by simp [pideInstruccion]))
  | lee i registro datos he =>
    refine ⟨rfl, c, .lee i registro, rfl, trivial, ?_⟩
    exact Nat.le_of_eq (pendientes_agrega rfl rfl (by simp [pideInstruccion]))
  | sale i envios he => cases hv
  | falla i f he => cases hv
  | pasa i hsem => exact ⟨rfl, c, .enviaSyscall i, rfl, hs, Nat.le_refl _⟩
  | envia i paquete hp => exact ⟨rfl, c, .apaga, rfl, trivial, Nat.le_refl _⟩
  | cae i f hf => cases hv
  | apaga => exact ⟨rfl, c, .revisa, rfl, trivial, Nat.le_refl _⟩
  | interrumpe hint =>
    refine ⟨rfl, c, .limpia, rfl, trivial, ?_⟩
    exact Nat.le_of_eq (pendientes_agrega rfl rfl (by simp [pideInstruccion]))
  | revisa hint => exact ⟨rfl, c, .corta, rfl, trivial, Nat.le_refl _⟩
  | limpia => exact ⟨rfl, c, .corta, rfl, trivial, Nat.le_refl _⟩
  | corta =>
    refine ⟨rfl, c, _, rfl, ?_, ?_⟩
    · split
      · trivial
      · trivial
    · split
      · exact Nat.le_refl _
      · exact Nat.le_refl _

/-- A step of a thread in its turn. -/
theorem Lineas.gira (hi : Lineas ent pre s ls) (ht : Turno s ls)
    (hk : s.ciclos[k]? = some ⟨c, fase⟩) (hg : Giro s k c fase s' o) (hv : s'.vivo = true)
    (a : Paso) : Lineas ent (pre ++ [a]) s' ls := by
  have hmem : (⟨c, fase⟩ : Ciclo) ∈ s.ciclos := List.mem_of_getElem? hk
  have hvivia := (giro_gira hg hv).vivia
  have hfichas : pendientes s ls ≤ fase.esperaInstruccion.toNat :=
    hi.fichas.trans (Nat.le_of_eq (countP_solo ht.uno hk hvivia rfl))
  obtain ⟨hmem', c', fase', hciclos, hsuya, hcae⟩ := giro_linea hg hv (hi.suya _ hmem) hfichas
    fun hno => (ht.actual _ hmem hno).2
  constructor
  · rw [hmem']
    exact hi.programas.concat a
  · rw [hciclos, countP_set_solo ht.uno hk hvivia _ rfl]
    show _ ≤ fase'.esperaInstruccion.toNat
    omega
  · intro x hx
    rcases mem_set_solo ht.uno hk hvivia (hciclos ▸ hx) with rfl | ⟨-, hfin⟩
    · exact hsuya.mono a (fun _ hd => hd) (fun _ ht => ht) rfl rfl
    · rw [hfin]
      trivial

/-- A step that is not about instructions. -/
theorem Lineas.mono (hi : Lineas ent pre s ls) (a : Paso)
    (hmem : Programas (pre ++ [a]) s'.memoria)
    (hciclos : ∀ x ∈ s'.ciclos, x ∈ s.ciclos ∨ x.fase = .inicio)
    (hespera : (s.ciclos.countP fun x => x.fase.esperaInstruccion) ≤
      s'.ciclos.countP fun x => x.fase.esperaInstruccion)
    (hpend : pendientes s' ls' ≤ pendientes s ls)
    (hp : ∀ d, .obtenerInstruccion d ∈ s'.peticiones → .obtenerInstruccion d ∈ s.peticiones)
    (hl : ∀ t, .instruccion t ∈ ls' → .instruccion t ∈ ls)
    (hsem : s'.semInstruccion = s.semInstruccion)
    (hactual : s'.instruccionActual = s.instruccionActual) : Lineas ent (pre ++ [a]) s' ls' := by
  refine ⟨hmem, (hpend.trans hi.fichas).trans hespera, fun x hx => ?_⟩
  rcases hciclos x hx with hx | hx
  · exact (hi.suya x hx).mono a hp hl hsem hactual
  · rw [hx]
    trivial

/-- Several threads cannot be alive. -/
theorem Turno.unico (ht : Turno s ls) {x y : Ciclo} (hx : x ∈ s.ciclos) (hy : y ∈ s.ciclos)
    (hvx : x.fase ≠ .fin) (hvy : y.fase ≠ .fin) : x = y := by
  obtain ⟨k, hk⟩ := List.mem_iff_getElem?.mp hx
  obtain ⟨antes, despues, hl, -, hfin⟩ := solo ht.uno hk hvx x
  rw [hl] at hy
  rcases List.mem_append.mp hy with hy | hy
  · exact absurd (hfin y (List.mem_append_left _ hy)) hvy
  · rcases List.mem_cons.mp hy with rfl | hy
    · rfl
    · exact absurd (hfin y (List.mem_append_right _ hy)) hvy

/-- An instruction arrives. -/
theorem Lineas.recibirInstruccion {t : Cadena} (hi : Lineas ent pre s (.instruccion t :: ls))
    (ht : Turno s (.instruccion t :: ls)) (a : Paso) :
    Lineas ent (pre ++ [a]) (s.recibir (.instruccion t)) ls := by
  -- Some thread waits for it.
  have hpos : 0 < s.ciclos.countP fun x => x.fase.esperaInstruccion := by
    refine Nat.lt_of_lt_of_le ?_ hi.fichas
    unfold pendientes
    rw [List.countP_cons_of_pos rfl]
    omega
  obtain ⟨y, hy, hyespera⟩ := List.countP_pos_iff.mp hpos
  have hyfase : y.fase = .espera := by
    unfold Fase.esperaInstruccion at hyespera
    split at hyespera
    · assumption
    · cases hyespera
  constructor
  · exact hi.programas.concat a
  · refine Nat.le_trans (Nat.le_of_eq ?_) hi.fichas
    show s.semInstruccion + 1 + _ + _ = s.semInstruccion + _ + _
    rw [List.countP_cons_of_pos rfl]
    show s.semInstruccion + 1 + s.peticiones.countP pideInstruccion + _ = _
    omega
  · intro x hx
    by_cases hfin : x.fase = .fin
    · rw [hfin]
      trivial
    · obtain rfl := ht.unico hx hy hfin (by simp [hyfase])
      obtain ⟨h₁, h₂, -⟩ := hyfase ▸ hi.suya x hx
      rw [hyfase]
      refine ⟨h₁, fun t' ht' => (h₂ t' (List.mem_cons_of_mem _ ht')).concat a, fun _ t' ht' => ?_⟩
      cases ht'
      exact (h₂ t List.mem_cons_self).concat a

/-- Another packet arrives. -/
theorem Lineas.recibirOtra {l : Llegada} (hi : Lineas ent pre s (l :: ls))
    (hl : traeInstruccion l = false) (a : Paso) : Lineas ent (pre ++ [a]) (s.recibir l) ls := by
  have hpend : pendientes s ls ≤ pendientes s (l :: ls) := by
    unfold pendientes
    rw [List.countP_cons]
    omega
  have hresto : ∀ t, .instruccion t ∈ ls → .instruccion t ∈ l :: ls :=
    fun t ht => List.mem_cons_of_mem _ ht
  have hmem : Programas (pre ++ [a]) s.memoria := hi.programas.concat a
  have hmismo : ∀ x ∈ s.ciclos, x ∈ s.ciclos ∨ x.fase = .inicio := fun x hx => .inl hx
  cases l with
  | instruccion t => cases hl
  | contexto c =>
    refine hi.mono a hmem ?_ ?_ hpend (fun _ hd => hd) hresto rfl rfl
    · intro x hx
      rcases mem_recibirContexto hx with rfl | hx
      · exact .inr rfl
      · exact .inl hx
    · show _ ≤ (s.ciclos ++ [_]).countP _
      rw [List.countP_append]
      omega
  | contextoActualizado bit =>
    unfold CpuMemoria.recibir
    dsimp only
    split
    · exact hi.mono a hmem hmismo (Nat.le_refl _) hpend (fun _ hd => hd) hresto rfl rfl
    · exact hi.mono a hmem hmismo (Nat.le_refl _) hpend (fun _ hd => hd) hresto rfl rfl
  | nada => exact hi.mono a hmem hmismo (Nat.le_refl _) hpend (fun _ hd => hd) hresto rfl rfl

/-- Memoria handles a request. An instruction that it sends is the line that the thread asked
for. -/
theorem Lineas.responde {q : Peticion} {resto : List Peticion} {m' : Memoria.Estado}
    {flujo : List Byte} {rs : List Llegada} (hi : Lineas ent pre s ls)
    (hq : s.peticiones = q :: resto) (h : Responde ent s.memoria q m' rs) (a : Paso) :
    Lineas ent (pre ++ [a]) { s with memoria := m', peticiones := resto, flujo } (ls ++ rs) := by
  have hcabe : rs.countP traeInstruccion ≤ if pideInstruccion q then 1 else 0 := by
    cases h <;> simp [traeInstruccion, pideInstruccion]
  have hpide : ∀ d, .obtenerInstruccion d ∈ resto → .obtenerInstruccion d ∈ s.peticiones :=
    fun d hd => hq ▸ List.mem_cons_of_mem q hd
  constructor
  · exact (hi.programas.responde h).concat a
  · refine Nat.le_trans ?_ hi.fichas
    show s.semInstruccion + resto.countP pideInstruccion + (ls ++ rs).countP traeInstruccion ≤
      s.semInstruccion + s.peticiones.countP pideInstruccion + ls.countP traeInstruccion
    rw [hq, List.countP_cons, List.countP_append]
    omega
  · intro x hx
    have hsuya := hi.suya x hx
    by_cases hfase : x.fase = .espera
    · rw [hfase] at hsuya ⊢
      obtain ⟨h₁, h₂, h₃⟩ := hsuya
      refine ⟨fun d hd => h₁ d (hpide d hd), fun t ht => ?_,
        fun hne t ht => (h₃ hne t ht).concat a⟩
      rcases List.mem_append.mp ht with ht | ht
      · exact (h₂ t ht).concat a
      · cases h with
        | instruccion d y t' hy ht' =>
          obtain rfl := h₁ d (hq ▸ List.mem_cons_self)
          cases List.mem_singleton.mp ht
          exact EsLinea.concat ⟨_, hi.programas.buscar hy, ht'⟩ a
        | _ => simp at ht
    · exact hsuya.ajena a hfase rfl

/-- **Step.** A step in its turn keeps the invariant. -/
theorem Lineas.avance (hi : Lineas ent pre s ls) (ht : Turno s ls)
    (h : Avance ent s ls a s' ls') (hv : s'.vivo = true) : Lineas ent (pre ++ [a]) s' ls' := by
  have hmem : ∀ a, Programas (pre ++ [a]) s.memoria := fun a => hi.programas.concat a
  have hmismo : ∀ x ∈ s.ciclos, x ∈ s.ciclos ∨ x.fase = .inicio := fun x hx => .inl hx
  cases h with
  | recibirTid pid tid =>
    refine hi.mono _ (hmem _) hmismo (Nat.le_refl _) ?_ ?_ (fun _ ht => ht) rfl rfl
    · exact Nat.le_of_eq (pendientes_agrega rfl rfl (by simp [pideInstruccion]))
    · intro d hd
      simpa [CpuMemoria.recibirTid, CpuMemoria.pedir] using hd
  | interrupcion =>
    exact hi.mono _ (hmem _) hmismo (Nat.le_refl _) (Nat.le_refl _) (fun _ hd => hd)
      (fun _ ht => ht) rfl rfl
  | ciclo k c fase s' o hk hg => exact hi.gira ht hk hg hv _
  | byte basura flujo leido =>
    exact hi.mono _ (hmem _) hmismo (Nat.le_refl _) (Nat.le_refl _) (fun _ hd => hd)
      (fun _ ht => ht) rfl rfl
  | llega basura flujo leido l ls' hls hempieza =>
    subst hls
    have ht' : Turno { s with flujo, leido } (l :: ls') :=
      ht.mono rfl rfl rfl rfl rfl (Nat.le_refl _) ht.pedido ht.llegada
    have hi' : Lineas ent pre { s with flujo, leido } (l :: ls') :=
      ⟨hi.programas, hi.fichas, hi.suya⟩
    cases hl : traeInstruccion l with
    | false => exact hi'.recibirOtra hl _
    | true =>
      cases l with
      | instruccion t => exact hi'.recibirInstruccion ht' _
      | _ => cases hl
  | responde malloc q resto m' flujo rs hq hr => exact hi.responde hq hr _
  | kernel q m' o hq hat =>
    exact hi.mono _ (hi.programas.atender hat) hmismo (Nat.le_refl _) (Nat.le_refl _)
      (fun _ hd => hd) (fun _ ht => ht) rfl rfl

theorem lineas_nueva {m : Memoria.Estado} (h : m.listaContextos = []) :
    Lineas ent [] (.nueva m) [] := by
  refine ⟨fun x hx => ?_, Nat.le_refl _, fun x hx => absurd hx List.not_mem_nil⟩
  have hx' : x ∈ m.listaContextos := hx
  rw [h] at hx'
  cases hx'

end Pasos

/-! ## What a thread does is of its context -/

/-- A syscall carries the pid and the tid of the context, `MMU` has the bounds of its partition, and
the instruction is the line at its PC. -/
def Salida.DeSuHilo (ent : Memoria.Entorno) (pre : List Paso) : Salida → Prop
  | .ejecuta c i parteActual =>
    parteActual = ⟨c.base, c.limite⟩ ∧ ∃ t, EsLinea ent pre c t ∧ i = decode t c.pid c.TID
  | .syscall c paquete => paquete.de = (c.pid, c.TID)
  | .confirmarInterrupcion _ _ => True

section Salidas

variable {ent : Memoria.Entorno} {pre : List Paso} {s s' : CpuMemoria} {ls : List Llegada}
  {a : Paso} {o : List Salida} {x : Salida} {k : Nat} {c : TContextoEjecucion} {fase : Fase}

/-- Only the threads of `ciclo_de_instruccion` execute and send. -/
theorem paso_salida (h : s.paso ent a = .ok (s', o)) (hx : x ∈ o) :
    s.vivo = true ∧ ∃ k c fase, s.ciclos[k]? = some ⟨c, fase⟩ ∧ Giro s k c fase s' o := by
  cases a with
  | recibirTid pid tid =>
    cases (enCpu_ok h).2
    cases hx
  | interrupcion =>
    cases (enCpu_ok h).2
    cases hx
  | desconexionInterrupt =>
    cases (enCpu_ok h).2
    cases hx
  | ciclo k => exact ⟨(enCpu_ok h).1, k, girar_casos (enCpu_ok h).2⟩
  | recv k n basura =>
    replace h := (enCpu_ok h).2
    unfold CpuMemoria.recvMemoria at h
    split at h
    · split at h
      · cases h
        cases hx
      · cases h
    · cases h
  | escucha basura =>
    replace h := (enCpu_ok h).2
    unfold CpuMemoria.escuchar at h
    split at h
    · cases h
    · split at h
      · split at h
        · cases h
          cases hx
        · cases h
          cases hx
        · split at h
          · cases h
            cases hx
          · cases h
      · cases h
  | memoriaCpu malloc =>
    obtain rfl := (atenderCpu_ok h).2
    cases hx
  | memoriaKernel q =>
    obtain rfl := (atenderKernel_ok h).2
    cases hx

/-- A thread that executes `i` in its turn. -/
theorem ejecuta_deSuHilo {i : TInstruccion} (hi : Lineas ent pre s ls) (ht : Turno s ls)
    (hk : s.ciclos[k]? = some ⟨c, .ejecuta i⟩) :
    (Salida.ejecuta c i s.parteActual).DeSuHilo ent pre := by
  have hmem : (⟨c, .ejecuta i⟩ : Ciclo) ∈ s.ciclos := List.mem_of_getElem? hk
  exact ⟨ht.particion _ hmem (by simp), hi.suya _ hmem⟩

/-- All that a thread does in its turn is of its context. -/
theorem giro_deSuHilo (hi : Lineas ent pre s ls) (ht : Turno s ls)
    (hk : s.ciclos[k]? = some ⟨c, fase⟩) (hg : Giro s k c fase s' o) (hx : x ∈ o) :
    x.DeSuHilo ent pre := by
  have hmem : (⟨c, fase⟩ : Ciclo) ∈ s.ciclos := List.mem_of_getElem? hk
  cases hg with
  | sigue i c' envios he =>
    cases List.mem_singleton.mp hx
    exact ejecuta_deSuHilo hi ht hk
  | llama i c' he =>
    cases List.mem_singleton.mp hx
    exact ejecuta_deSuHilo hi ht hk
  | lee i registro datos he =>
    cases List.mem_singleton.mp hx
    exact ejecuta_deSuHilo hi ht hk
  | sale i envios he =>
    rcases List.mem_cons.mp hx with rfl | hx
    · exact ejecuta_deSuHilo hi ht hk
    · -- `MMU` sends the `PROCESS_EXIT` of the context.
      rw [execute_sale he] at hx
      cases List.mem_singleton.mp hx
      rfl
  | falla i f he =>
    cases List.mem_singleton.mp hx
    exact ejecuta_deSuHilo hi ht hk
  | envia i paquete hp =>
    obtain ⟨p, hp', rfl⟩ := List.mem_map.mp hx
    have hde := executeSyscall_de i p (by rw [hp, Option.mem_toList.mp hp'])
    exact hde.trans (hi.suya _ hmem)
  | interrumpe hint =>
    cases List.mem_singleton.mp hx
    trivial
  | _ => cases hx

end Salidas

/-! ## Runs -/

section Corridas

variable {ent : Memoria.Entorno} {as : List Paso}

/-- **The CPU does not mix up threads as long as they take turns.** In a run from the start of the
CPU and memoria in which each `RECIBIR_TID` and each context is taken in its turn, and no `recv` of
`READ_MEM` takes bytes of a packet, what each thread executes and sends is of its context. -/
theorem cpu_no_mezcla (basura : Nat → Uint32) (memoria : Nat → Byte) (hlineas : LineasCortas ent)
    (h : EveryStep (CpuMemoria.paso ent)
      (.nueva (Memoria.estadoInicial ent.toConfigMemoria basura memoria)) as fun _ => EnOrden) :
    EveryStep (CpuMemoria.paso ent)
      (.nueva (Memoria.estadoInicial ent.toConfigMemoria basura memoria)) as fun pre s a =>
        ∀ s' o, s.paso ent a = .ok (s', o) → ∀ x ∈ o, x.DeSuHilo ent pre := by
  intro pre s a r hpre hs _ s' o hpaso x hx
  obtain ⟨hvivo, k, c, fase, hk, hg⟩ := paso_salida hpaso hx
  have horden : EveryStep (CpuMemoria.paso ent)
      (.nueva (Memoria.estadoInicial ent.toConfigMemoria basura memoria)) pre
      fun _ s a => EnOrden s a ∧ True :=
    fun pre' s₁ b r hpre' hs₁ hb =>
      ⟨h pre' s₁ b r (hpre'.trans ((List.prefix_append _ _).trans hpre)) hs₁ hb, trivial⟩
  obtain ⟨ls, -, ht, hi⟩ := invariante_corrida (J := Lineas ent) hlineas horden (lineas_nueva rfl)
    (fun pre s ls a s' ls' o _ _ ht hi _ _ hav hv => hi.avance ht hav hv) hs hvivo
  exact giro_deSuHilo hi ht hk hg hx

end Corridas

/-- Thread 0 gets the CPU and executes its line up to the packet to the kernel. -/
def corridaConIo : List Paso :=
  dosHilosListos ++ despacha 0 ++ trae 4 ++ [.ciclo 0, .ciclo 0] ++ atiendeYEscucha 12 ++
    [.ciclo 0, .ciclo 0]

theorem cpu_no_mezcla_io :
    let ent := entornoCpu "IO 1".toList
    EveryStep (CpuMemoria.paso ent) cpuCero corridaConIo fun pre s a =>
      ∀ s' o, s.paso ent a = .ok (s', o) → ∀ x ∈ o, x.DeSuHilo ent pre :=
  cpu_no_mezcla (fun _ => 0) (fun _ => 0) (lineasCortas_entornoCpu (by decide))
    (.of_check (by decide +kernel))

/-! ## The failing input -/

/-- The kernel dispatches thread 1 after thread 0 got its instruction and before it decodes it. -/
def corridaMezclada : List Paso :=
  dosHilosListos ++ despacha 0 ++ trae 4 ++ [.recibirTid 1 1, .ciclo 0, .ciclo 0] ++
    atiendeYEscucha 60 ++ atiendeYEscucha 12 ++ [.ciclo 0]

/-- Thread 0 of process 1 after its syscall. -/
def contextoTrasIo : TContextoEjecucion :=
  { TID := 0, RegistrosCPU := .cero, PC := 1, base := 0, limite := 9, pid := 1 }

theorem reaches_corridaMezclada :
    ∃ s, Reaches (CpuMemoria.paso (entornoCpu "IO 1".toList)) cpuCero corridaMezclada s ∧
      (s.vivo, s.ciclos[0]?) =
        (true, some ⟨contextoTrasIo, .enviaSyscall (decode "IO 1".toList 1 1)⟩) :=
  reaches_of_map (g := fun s : CpuMemoria => (s.vivo, s.ciclos[0]?)) (by decide +kernel)

/-- Thread 0 sends the `IO` of thread 1. -/
theorem cpu_mezcla : ¬ ∀ (ent : Memoria.Entorno) (basura : Nat → Uint32) (memoria : Nat → Byte)
    (as : List Paso), LineasCortas ent →
    EveryStep (CpuMemoria.paso ent)
      (.nueva (Memoria.estadoInicial ent.toConfigMemoria basura memoria)) as fun pre s a =>
        ∀ s' o, s.paso ent a = .ok (s', o) → ∀ x ∈ o, x.DeSuHilo ent pre := by
  intro h
  obtain ⟨s, hs, heq⟩ := reaches_corridaMezclada
  obtain ⟨hvivo, hk⟩ := Prod.mk.inj heq
  have hpaso : s.paso (entornoCpu "IO 1".toList) (.ciclo 0) =
      .ok (s.conCiclo 0 contextoTrasIo .apaga, [.syscall contextoTrasIo (.io ⟨1, 1, 1⟩)]) := by
    show s.enCpu (s.girar 0) = _
    unfold CpuMemoria.enCpu CpuMemoria.girar
    rw [if_pos hvivo, hk]
    rfl
  have hde := h _ _ _ (corridaMezclada ++ [.ciclo 0]) (lineasCortas_entornoCpu (by decide))
    _ s _ _ (List.prefix_refl _) hs hpaso _ _ hpaso _ List.mem_cons_self
  replace hde : ((1, 1) : Uint32 × Uint32) = (contextoTrasIo.pid, contextoTrasIo.TID) := hde
  exact absurd hde (by decide)

end LastOfC.Cpu
