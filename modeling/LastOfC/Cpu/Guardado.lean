import LastOfC.Cpu.Atribucion

/-!
# The context is stored before the syscall is sent

A syscall sends the context to memoria and waits on `sem_syscall`, which each
`CONFIRMAR_CONTEXTO_ACTUALIZADO` posts. `check_interrupt` sends it too and does not wait.

* `Historia`: the context with which each thread executed its last instruction, and that of its
  last syscall. They record the run, and no step reads them.
* `Guarda`: without `check_interrupt`, a confirmation on its way is that of the thread that waits.
* `syscall_guardada`: then memoria has the context of each syscall before it is sent, and the thread
  resumes with it.
-/

namespace LastOfC.Cpu

open KeyedList Trace
open Memoria (Peticion mapaDe buscarContextoPorTid)

/-! ## What memoria has stored -/

/-- The pid and the tid of a context. -/
def hiloDe (c : TContextoEjecucion) : Memoria.Clave := (c.pid, c.TID)

/-- `c'` has the registers of `c`, and the position after its PC. -/
def Reanuda (c c' : TContextoEjecucion) : Prop :=
  c'.RegistrosCPU = c.RegistrosCPU ∧ c'.PC = c.PC + 1

/-- What memoria returns for the thread goes on after `c`. -/
def Guardado (m : Memoria.Estado) (hilo : Memoria.Clave) (c : TContextoEjecucion) : Prop :=
  ∃ x, mapaDe m.listaContextos hilo = some x ∧ Reanuda c x.paraCpu

section Memoria

variable {ent : Memoria.Entorno} {m m' : Memoria.Estado} {q : Peticion} {o : List Memoria.Envio}
  {hilo : Memoria.Clave} {c : TContextoEjecucion}

theorem Guardado.of_eq (h : Guardado m hilo c)
    (heq : mapaDe m'.listaContextos hilo = mapaDe m.listaContextos hilo) : Guardado m' hilo c := by
  obtain ⟨x, hx, hc⟩ := h
  exact ⟨x, heq.trans hx, hc⟩

/-- An update of another thread is not seen. -/
theorem mapaDe_actualizar_of_ne {d : TContextoEjecucion} {i : Nat} {x : Memoria.ContextoEjecucion}
    (hx : buscarContextoPorTid m.listaContextos d.TID d.pid = some (i, x)) (hne : hiloDe d ≠ hilo) :
    mapaDe (m.listaContextos.set i (x.actualizar d)) hilo = mapaDe m.listaContextos hilo := by
  have hpaso : Memoria.PasoContextos m.listaParticiones m.listaContextos (.actualizarContexto d)
      (m.listaContextos.set i (x.actualizar d)) := .actualizar d i x hx
  exact Memoria.mapa_ajeno hpaso fun he => hne (Option.some.inj he)

/-- An update with the context of a syscall stores it. -/
theorem guardado_actualizar {d : TContextoEjecucion} {i : Nat} {x : Memoria.ContextoEjecucion}
    (hx : buscarContextoPorTid m.listaContextos d.TID d.pid = some (i, x)) (hc : Reanuda c d) :
    Guardado { m with listaContextos := m.listaContextos.set i (x.actualizar d) } (hiloDe d) c := by
  have hkey : (x.actualizar d).clave = (d.pid, d.TID) := by
    simpa [Memoria.ContextoEjecucion.clave, Memoria.ContextoEjecucion.actualizar] using
      search_pos hx
  refine ⟨x.actualizar d, ?_, hc⟩
  show mapaDe (m.listaContextos.set i (x.actualizar d)) (hiloDe d) = _
  rw [mapaDe, toMap_set hx hkey]
  exact Function.update_self ..

/-- A request of the kernel that does not end the thread. -/
theorem Guardado.atender (h : Guardado m hilo c) (hq : q.origen = .kernel)
    (hat : Memoria.atender ent m q = .ok (m', o))
    (hno : ∀ d, q = .finalizarHilo d → (d.pidInv, d.tidInv) ≠ hilo) : Guardado m' hilo c := by
  obtain ⟨x, hx, hc⟩ := h
  have hpaso := Memoria.atender_contextos hat
  by_cases hclave : q.clave = some hilo
  · refine ⟨x, ?_, hc⟩
    generalize m'.listaContextos = cs' at hpaso
    cases hpaso with
    | igual => exact hx
    | agregar d p hp =>
      -- The list is searched from the front.
      rw [mapaDe, toMap, List.find?_append]
      rw [mapaDe, toMap] at hx
      rw [hx]
      rfl
    | quitar d i y hy => exact absurd (Option.some.inj hclave) (hno d rfl)
    | actualizar d i y hy => cases hq
  · exact Guardado.of_eq ⟨x, hx, hc⟩ (Memoria.mapa_ajeno hpaso hclave)

end Memoria

/-! ## The history -/

/-- The contexts with which the threads executed their last instructions, and their last syscalls
that were sent. -/
structure Historia where
  ejecutado : Memoria.Clave → Option TContextoEjecucion
  ultima : Memoria.Clave → Option TContextoEjecucion

namespace Historia

def vacia : Historia := ⟨fun _ => none, fun _ => none⟩

/-- A step of a thread with the context `c`. -/
def anota (h : Historia) (c : TContextoEjecucion) : Fase → Historia
  | .ejecuta _ => { h with ejecutado := Function.update h.ejecutado (hiloDe c) (some c) }
  | .enviaSyscall _ =>
    { h with ultima := Function.update h.ultima (hiloDe c) (h.ejecutado (hiloDe c)) }
  | _ => h

/-- The kernel ended the thread. -/
def olvida (h : Historia) (hilo : Memoria.Clave) : Historia :=
  { h with ultima := Function.update h.ultima hilo none }

/-- A step. -/
def paso (s : CpuMemoria) (a : Paso) (_ : CpuMemoria) (h : Historia) : Historia :=
  match a with
  | .ciclo k =>
    match s.ciclos[k]? with
    | some ⟨c, fase⟩ => h.anota c fase
    | none => h
  | .memoriaKernel (.finalizarHilo d) => h.olvida (d.pidInv, d.tidInv)
  | _ => h

end Historia

/-! ## The invariant -/

/-- The thread has sent its syscall, and `control_key` is 0 after it. -/
def Fase.envio (controlKey : CInt) : Fase → Bool
  | .apaga | .fin => true
  | .revisa | .limpia | .corta => controlKey = 0
  | _ => false

def Fase.esperaConfirmacion : Fase → Bool
  | .esperaSyscall _ => true
  | _ => false

def pideActualizar : Peticion → Bool
  | .actualizarContexto _ => true
  | _ => false

def traeConfirmacion : Llegada → Bool
  | .contextoActualizado _ => true
  | _ => false

/-- Updates that were asked for and not waited for. -/
def enVuelo (s : CpuMemoria) (ls : List Llegada) : Nat :=
  s.semSyscall + s.peticiones.countP pideActualizar + ls.countP traeConfirmacion

/-- The syscall of a thread with the context `c`. -/
def SuSyscall (h : Historia) (s : CpuMemoria) (ls : List Llegada) (c : TContextoEjecucion) :
    Fase → Prop
  | .esperaSyscall _ =>
    ∃ c₀, h.ejecutado (hiloDe c) = some c₀ ∧ Reanuda c₀ c ∧
      (∀ d, .actualizarContexto d ∈ s.peticiones → d = c) ∧
      (0 < s.semSyscall + ls.countP traeConfirmacion → Guardado s.memoria (hiloDe c) c₀)
  | .enviaSyscall _ =>
    ∃ c₀, h.ejecutado (hiloDe c) = some c₀ ∧ Guardado s.memoria (hiloDe c) c₀
  | _ => True

structure Guarda (h : Historia) (s : CpuMemoria) (ls : List Llegada) : Prop where
  fichas : enVuelo s ls ≤ s.ciclos.countP fun x => x.fase.esperaConfirmacion
  enviaron : 0 < despachos s ls → ∀ x ∈ s.ciclos, x.fase.envio s.controlKey = true
  suya : ∀ x ∈ s.ciclos, SuSyscall h s ls x.contexto x.fase
  ultima : ∀ hilo c, h.ultima hilo = some c →
    (∀ x ∈ s.ciclos, hiloDe x.contexto = hilo → x.fase.envio s.controlKey = true) →
    Guardado s.memoria hilo c ∧ ∀ c', .contexto c' ∈ ls → hiloDe c' = hilo → Reanuda c c'

/-! ## Steps of a thread -/

section Giros

variable {h : Historia} {s s' : CpuMemoria} {ls : List Llegada} {o : List Salida} {k : Nat}
  {c : TContextoEjecucion} {fase : Fase}

/-- Requests that are no updates. -/
theorem enVuelo_agrega {qs : List Peticion} (hsem : s'.semSyscall = s.semSyscall)
    (hqs : s'.peticiones = s.peticiones ++ qs) (h : ∀ q ∈ qs, pideActualizar q = false) :
    enVuelo s' ls = enVuelo s ls := by
  unfold enVuelo
  rw [hsem, hqs, countP_agrega h]

/-- What any step of a thread does to its syscall. -/
structure GiraSyscall (h : Historia) (s : CpuMemoria) (ls : List Llegada) (k : Nat)
    (c : TContextoEjecucion) (fase : Fase) (s' : CpuMemoria) : Prop where
  memoria : s'.memoria = s.memoria
  ciclos : ∃ c' fase', s'.ciclos = s.ciclos.set k ⟨c', fase'⟩ ∧ hiloDe c' = hiloDe c ∧
    SuSyscall (h.anota c fase) s' ls c' fase' ∧
    enVuelo s' ls + fase.esperaConfirmacion.toNat ≤
      enVuelo s ls + fase'.esperaConfirmacion.toNat ∧
    (fase.envio s.controlKey = true → fase'.envio s'.controlKey = true) ∧
    (fase'.envio s'.controlKey = true →
      fase.envio s.controlKey = true ∨ ∃ i, fase = .enviaSyscall i)

theorem giro_syscall (hg : Giro s k c fase s' o) (hv : s'.vivo = true)
    (hint : fase = .revisa → s.controlKeyInterrupt ≠ 1) (hs : SuSyscall h s ls c fase)
    (hfichas : enVuelo s ls ≤ fase.esperaConfirmacion.toNat)
    (hkey : fase.cedio s.controlKey = false → s.controlKey = 1) :
    GiraSyscall h s ls k c fase s' := by
  cases hg with
  | pide _ =>
    refine ⟨rfl, c, .espera, rfl, rfl, trivial, ?_, by simp [Fase.envio], by simp [Fase.envio]⟩
    exact Nat.le_of_eq (enVuelo_agrega rfl rfl (by simp [pideActualizar]))
  | vuelve hno => exact absurd (hkey rfl) hno
  | recibe hsem =>
    exact ⟨rfl, c, .decodifica, rfl, rfl, trivial, Nat.le_refl _, by simp [Fase.envio],
      by simp [Fase.envio]⟩
  | decodifica t ht =>
    exact ⟨rfl, c, _, rfl, rfl, trivial, Nat.le_refl _, by simp [Fase.envio],
      by simp [Fase.envio]⟩
  | nulo hn => cases hv
  | sigue i c' envios he =>
    obtain ⟨qs, hqs, hescribe⟩ := enviar_sigue he s
    obtain ⟨hpid, htid, -⟩ := (execute_sigue he).1
    have hno : Fase.revisa.envio s.controlKey = false := by
      have hcede : (Fase.ejecuta i).cedio s.controlKey = false := by
        by_contra hsi
        rw [execute_of_esSyscall (Bool.eq_true_of_not_eq_false hsi)] at he
        cases he
      show decide (s.controlKey = 0) = false
      rw [hkey hcede]
      rfl
    refine ⟨rfl, c', .revisa, rfl, Prod.ext hpid htid, trivial, ?_, by simp [Fase.envio],
      fun hsi => ?_⟩
    · refine Nat.le_of_eq (enVuelo_agrega rfl hqs fun q hq => ?_)
      obtain ⟨d, rfl⟩ := hescribe q hq
      rfl
    · replace hsi : Fase.revisa.envio s.controlKey = true := hsi
      rw [hno] at hsi
      cases hsi
  | llama i c' he =>
    obtain rfl := execute_syscall he
    obtain ⟨hcero, hl⟩ := Nat.add_eq_zero_iff.mp (Nat.le_zero.mp hfichas)
    obtain ⟨hsem, hp⟩ := Nat.add_eq_zero_iff.mp hcero
    refine ⟨rfl, _, .esperaSyscall i, rfl, rfl, ⟨c, ?_, ⟨rfl, rfl⟩, ?_, fun hpos => ?_⟩, ?_,
      by simp [Fase.envio], by simp [Fase.envio]⟩
    · exact Function.update_self ..
    · intro d hd
      rcases List.mem_append.mp hd with hd | hd
      · exact absurd rfl (List.countP_eq_zero.mp hp _ hd)
      · cases List.mem_singleton.mp hd
        rfl
    · replace hpos : 0 < s.semSyscall + ls.countP traeConfirmacion := hpos
      omega
    · show s.semSyscall + (s.peticiones ++ [_]).countP pideActualizar + _ + 0 ≤
        s.semSyscall + s.peticiones.countP pideActualizar + _ + 1
      rw [List.countP_append, List.countP_singleton]
      show s.semSyscall + (s.peticiones.countP pideActualizar + 1) + _ + 0 ≤ _
      omega
  | lee i registro datos he =>
    refine ⟨rfl, c, .lee i registro, rfl, rfl, trivial, ?_, by simp [Fase.envio],
      by simp [Fase.envio]⟩
    exact Nat.le_of_eq (enVuelo_agrega rfl rfl (by simp [pideActualizar]))
  | sale i envios he => cases hv
  | falla i f he => cases hv
  | pasa i hsem =>
    obtain ⟨c₀, hc₀, -, -, hguarda⟩ := hs
    refine ⟨rfl, c, .enviaSyscall i, rfl, rfl, ⟨c₀, hc₀, hguarda (by omega)⟩, ?_,
      by simp [Fase.envio], by simp [Fase.envio]⟩
    show s.semSyscall - 1 + s.peticiones.countP pideActualizar + _ + 1 ≤
      s.semSyscall + s.peticiones.countP pideActualizar + _ + 0
    omega
  | envia i paquete hp =>
    exact ⟨rfl, c, .apaga, rfl, rfl, trivial, Nat.le_refl _, by simp [Fase.envio],
      fun _ => .inr ⟨i, rfl⟩⟩
  | cae i f hf => cases hv
  | apaga =>
    exact ⟨rfl, c, .revisa, rfl, rfl, trivial, Nat.le_refl _, fun _ => rfl, fun _ => .inl rfl⟩
  | interrumpe hsi => exact absurd hsi (hint rfl)
  | revisa hno => exact ⟨rfl, c, .corta, rfl, rfl, trivial, Nat.le_refl _, id, .inl⟩
  | limpia => exact ⟨rfl, c, .corta, rfl, rfl, trivial, Nat.le_refl _, id, .inl⟩
  | corta =>
    by_cases hcero : s.controlKey = 0
    · rw [if_pos hcero]
      exact ⟨rfl, c, .fin, rfl, rfl, trivial, Nat.le_refl _, fun _ => rfl,
        fun _ => .inl (decide_eq_true hcero)⟩
    · rw [if_neg hcero]
      exact ⟨rfl, c, .inicio, rfl, rfl, trivial, Nat.le_refl _,
        fun hsi => absurd (of_decide_eq_true hsi) hcero, fun hsi => absurd hsi Bool.false_ne_true⟩

end Giros

/-! ## Steps -/

/-- One dispatched thread at a time: a `RECIBIR_TID` is taken when all threads have sent their
syscalls, and the kernel ends no thread that has not. -/
def UnDespacho (s : CpuMemoria) : Paso → Prop
  | .recibirTid _ _ => ∀ x ∈ s.ciclos, x.fase.envio s.controlKey = true
  | .memoriaKernel (.finalizarHilo d) =>
    ∀ x ∈ s.ciclos, hiloDe x.contexto = (d.pidInv, d.tidInv) → x.fase.envio s.controlKey = true
  | _ => True

/-- The step does not execute `check_interrupt`. -/
def SinCheckInterrupt (s : CpuMemoria) : Paso → Prop
  | .ciclo k => s.ciclos[k]?.map Ciclo.fase = some .revisa → s.controlKeyInterrupt ≠ 1
  | _ => True

instance (s : CpuMemoria) : ∀ a, Decidable (UnDespacho s a)
  | .recibirTid _ _ => inferInstanceAs (Decidable (∀ x ∈ s.ciclos, _))
  | .memoriaKernel q => by
    cases q with
    | finalizarHilo d => exact inferInstanceAs (Decidable (∀ x ∈ s.ciclos, _ → _))
    | _ => exact instDecidableTrue
  | .interrupcion | .desconexionInterrupt | .ciclo _ | .recv _ _ _ | .escucha _
  | .memoriaCpu _ => instDecidableTrue

instance (s : CpuMemoria) : ∀ a, Decidable (SinCheckInterrupt s a)
  | .ciclo _ => inferInstanceAs (Decidable (_ → _))
  | .recibirTid _ _ | .interrupcion | .desconexionInterrupt | .recv _ _ _ | .escucha _
  | .memoriaCpu _ | .memoriaKernel _ => instDecidableTrue

section Pasos

variable {ent : Memoria.Entorno} {h : Historia} {s s' : CpuMemoria} {ls ls' : List Llegada}
  {a : Paso} {o : List Salida} {k : Nat} {c : TContextoEjecucion} {fase : Fase}

/-- A step of a thread in its turn. -/
theorem Guarda.gira (hi : Guarda h s ls) (ht : Turno s ls) (hk : s.ciclos[k]? = some ⟨c, fase⟩)
    (hg : Giro s k c fase s' o) (hv : s'.vivo = true)
    (hint : fase = .revisa → s.controlKeyInterrupt ≠ 1) : Guarda (h.anota c fase) s' ls := by
  have hmem : (⟨c, fase⟩ : Ciclo) ∈ s.ciclos := List.mem_of_getElem? hk
  have hgira := giro_gira hg hv
  have hvivia := hgira.vivia
  have hfichas : enVuelo s ls ≤ fase.esperaConfirmacion.toNat :=
    hi.fichas.trans (Nat.le_of_eq (countP_solo ht.uno hk hvivia rfl))
  obtain ⟨hmemoria, c', fase', hciclos, hhilo, hsuya, hvuelo, henvia, henvio⟩ :=
    giro_syscall hg hv hint (hi.suya _ hmem) hfichas fun hno => (ht.actual _ hmem hno).1
  -- A thread after the step is `k`, or one that has ended.
  have hcada : ∀ x ∈ s'.ciclos, x = ⟨c', fase'⟩ ∨ x.fase = .fin := fun x hx =>
    (mem_set_solo ht.uno hk hvivia (hciclos ▸ hx)).imp_right And.right
  have hotra : ∀ x ∈ s.ciclos, x = ⟨c, fase⟩ ∨ x.fase = .fin := by
    intro x hx
    by_cases hfin : x.fase = .fin
    · exact .inr hfin
    · exact .inl (ht.unico hx hmem hfin hvivia)
  have hesta : (⟨c', fase'⟩ : Ciclo) ∈ s'.ciclos := by
    rw [hciclos]
    exact List.mem_set (List.getElem?_eq_some_iff.mp hk).1 _
  have hdesp : despachos s' ls = despachos s ls := hgira.despachos_eq
  constructor
  · rw [hciclos, countP_set_solo ht.uno hk hvivia _ rfl]
    show _ ≤ fase'.esperaConfirmacion.toNat
    omega
  · intro hpos x hx
    rw [hdesp] at hpos
    rcases hcada x hx with rfl | hfin
    · exact henvia (hi.enviaron hpos _ hmem)
    · rw [hfin]
      rfl
  · intro x hx
    rcases hcada x hx with rfl | hfin
    · exact hsuya
    · rw [hfin]
      trivial
  · intro hilo c₁ hc₁ htodos
    rw [hmemoria]
    by_cases hsuyo : hiloDe c = hilo
    · subst hsuyo
      rcases henvio (htodos _ hesta hhilo) with hya | ⟨i, rfl⟩
      · -- The thread had sent its syscall.
        have hc₁' : h.ultima (hiloDe c) = some c₁ := by
          cases fase with
          | enviaSyscall i => cases hya
          | _ => exact hc₁
        refine hi.ultima _ c₁ hc₁' fun x hx _ => ?_
        rcases hotra x hx with rfl | hfin
        · exact hya
        · rw [hfin]
          rfl
      · -- It sends it now, and no context is on its way.
        obtain ⟨c₀, hc₀, hguarda⟩ := hi.suya _ hmem
        replace hc₁ : Function.update h.ultima (hiloDe c) (h.ejecutado (hiloDe c)) (hiloDe c) =
            some c₁ := hc₁
        rw [Function.update_self, hc₀] at hc₁
        cases hc₁
        refine ⟨hguarda, fun c'' hc'' _ => ?_⟩
        have hpos : 0 < despachos s ls :=
          Nat.add_pos_right _ (List.countP_pos_iff.mpr ⟨_, hc'', rfl⟩)
        cases hi.enviaron hpos _ hmem
    · have hc₁' : h.ultima hilo = some c₁ := by
        cases fase with
        | enviaSyscall i =>
          replace hc₁ : Function.update h.ultima (hiloDe c) (h.ejecutado (hiloDe c)) hilo =
              some c₁ := hc₁
          rwa [Function.update_of_ne (Ne.symm hsuyo)] at hc₁
        | _ => exact hc₁
      refine hi.ultima _ c₁ hc₁' fun x hx hx' => ?_
      rcases hotra x hx with rfl | hfin
      · exact absurd hx' hsuyo
      · rw [hfin]
        rfl

/-- A step that keeps what is stored, and brings no context but one that is stored. -/
theorem Guarda.mono (hi : Guarda h s ls) (hciclos : s'.ciclos = s.ciclos)
    (hkey : s'.controlKey = s.controlKey)
    (hmem : ∀ hilo c, Guardado s.memoria hilo c → Guardado s'.memoria hilo c)
    (hsem : s'.semSyscall + ls'.countP traeConfirmacion ≤
      s.semSyscall + ls.countP traeConfirmacion)
    (hp : ∀ q ∈ s'.peticiones, pideActualizar q = true → q ∈ s.peticiones)
    (hcuenta : s'.peticiones.countP pideActualizar ≤ s.peticiones.countP pideActualizar)
    (hc : ∀ c', .contexto c' ∈ ls' → .contexto c' ∈ ls ∨
      ∃ x, mapaDe s.memoria.listaContextos (hiloDe c') = some x ∧ c' = x.paraCpu)
    (hdesp : 0 < despachos s' ls' → ∀ x ∈ s.ciclos, x.fase.envio s.controlKey = true) :
    Guarda h s' ls' := by
  constructor
  · rw [hciclos]
    refine Nat.le_trans ?_ hi.fichas
    unfold enVuelo
    omega
  · rw [hciclos, hkey]
    exact hdesp
  · intro x hx
    rw [hciclos] at hx
    have hsuya := hi.suya x hx
    generalize x.fase = fase at hsuya
    cases fase with
    | esperaSyscall i =>
      obtain ⟨c₀, hc₀, hreanuda, hpide, hguarda⟩ := hsuya
      exact ⟨c₀, hc₀, hreanuda, fun d hd => hpide d (hp _ hd rfl),
        fun hpos => hmem _ _ (hguarda (by omega))⟩
    | enviaSyscall i =>
      obtain ⟨c₀, hc₀, hguarda⟩ := hsuya
      exact ⟨c₀, hc₀, hmem _ _ hguarda⟩
    | _ => trivial
  · intro hilo c hc' htodos
    rw [hciclos, hkey] at htodos
    obtain ⟨hguarda, hllega⟩ := hi.ultima hilo c hc' htodos
    refine ⟨hmem _ _ hguarda, fun c' hmem' hhilo => ?_⟩
    rcases hc c' hmem' with hviejo | ⟨x, hx, rfl⟩
    · exact hllega c' hviejo hhilo
    · -- The context is the one that is stored.
      obtain ⟨y, hy, hreanuda⟩ := hguarda
      rw [hhilo, hy] at hx
      cases hx
      exact hreanuda

/-- A packet `RECIBIR_TID` in its turn. -/
theorem Guarda.recibirTid (hi : Guarda h s ls) (pid tid : Uint32)
    (hcede : ∀ x ∈ s.ciclos, x.fase.envio s.controlKey = true) :
    Guarda h (s.recibirTid pid tid) ls := by
  refine hi.mono rfl rfl (fun _ _ hg => hg) (Nat.le_refl _) ?_ ?_ (fun _ hc => .inl hc)
    fun _ => hcede
  · intro q hq hpide
    rcases List.mem_append.mp hq with hq | hq
    · exact hq
    · cases List.mem_singleton.mp hq
      cases hpide
  · exact Nat.le_of_eq (countP_agrega (by simp [pideActualizar]))

/-- A context that arrives in its turn. -/
theorem Guarda.recibirContexto (hi : Guarda h s (.contexto c :: ls))
    (ht : Turno s (.contexto c :: ls)) (hfin : ∀ x ∈ s.ciclos, x.fase = .fin) :
    Guarda h (s.recibir (.contexto c)) ls := by
  have hcada : ∀ x ∈ (s.recibir (.contexto c)).ciclos, x = ⟨c, .inicio⟩ ∨ x.fase = .fin :=
    fun x hx => (mem_recibirContexto hx).imp_right (hfin x)
  constructor
  · refine Nat.le_trans (Nat.le_of_eq ?_) (hi.fichas.trans ?_)
    · show s.semSyscall + s.peticiones.countP pideActualizar + _ = enVuelo s (.contexto c :: ls)
      unfold enVuelo
      rw [List.countP_cons_of_neg Bool.false_ne_true]
    · show _ ≤ (s.ciclos ++ [_]).countP _
      rw [List.countP_append]
      omega
  · intro hpos
    have hdespacho := ht.despacho
    have hdesp : despachos s (.contexto c :: ls) = despachos s ls + 1 := by
      unfold despachos
      rw [List.countP_cons_of_pos rfl]
      rfl
    have hpos' : 0 < despachos s ls := hpos
    omega
  · intro x hx
    rcases hcada x hx with rfl | hx
    · trivial
    · rw [hx]
      trivial
  · intro hilo c₁ hc₁ htodos
    have hantes : ∀ x ∈ s.ciclos, hiloDe x.contexto = hilo → x.fase.envio s.controlKey = true := by
      intro x hx _
      rw [hfin x hx]
      rfl
    obtain ⟨hguarda, hllega⟩ := hi.ultima hilo c₁ hc₁ hantes
    exact ⟨hguarda, fun c' hc' => hllega c' (List.mem_cons_of_mem _ hc')⟩

/-- The packet that arrives brings no context. -/
theorem Guarda.recibirOtra {l : Llegada} (hi : Guarda h s (l :: ls))
    (hl : traeContexto l = false) : Guarda h (s.recibir l) ls := by
  have hconf : ls.countP traeConfirmacion ≤ (l :: ls).countP traeConfirmacion := by
    rw [List.countP_cons]
    omega
  have hdesp : 0 < despachos s ls → ∀ x ∈ s.ciclos, x.fase.envio s.controlKey = true := by
    intro hpos
    refine hi.enviaron ?_
    unfold despachos at hpos ⊢
    rw [List.countP_cons]
    omega
  have hresto : ∀ c', .contexto c' ∈ ls → .contexto c' ∈ l :: ls ∨
      ∃ x, mapaDe s.memoria.listaContextos (hiloDe c') = some x ∧ c' = x.paraCpu :=
    fun c' hc' => .inl (List.mem_cons_of_mem _ hc')
  cases l with
  | contexto c => cases hl
  | instruccion t =>
    exact hi.mono rfl rfl (fun _ _ hg => hg) (Nat.add_le_add_left hconf _) (fun _ hq _ => hq)
      (Nat.le_refl _) hresto hdesp
  | contextoActualizado bit =>
    unfold CpuMemoria.recibir
    dsimp only
    split
    · refine hi.mono rfl rfl (fun _ _ hg => hg) ?_ (fun _ hq _ => hq) (Nat.le_refl _) hresto hdesp
      rw [List.countP_cons_of_pos rfl]
      show s.semSyscall + 1 + _ ≤ s.semSyscall + _
      omega
    · exact hi.mono rfl rfl (fun _ _ hg => hg) (Nat.add_le_add_left hconf _) (fun _ hq _ => hq)
        (Nat.le_refl _) hresto hdesp
  | nada =>
    exact hi.mono rfl rfl (fun _ _ hg => hg) (Nat.add_le_add_left hconf _) (fun _ hq _ => hq)
      (Nat.le_refl _) hresto hdesp

/-- Memoria stores the context of the thread that waits. -/
theorem Guarda.actualiza {d : TContextoEjecucion} {i : Nat} {x : Memoria.ContextoEjecucion}
    {resto : List Peticion} {flujo : List Byte} (hi : Guarda h s ls) (ht : Turno s ls)
    (hq : s.peticiones = .actualizarContexto d :: resto)
    (hx : buscarContextoPorTid s.memoria.listaContextos d.TID d.pid = some (i, x)) :
    Guarda h
      { s with
        memoria := { s.memoria with
          listaContextos := s.memoria.listaContextos.set i (x.actualizar d) }
        peticiones := resto
        flujo }
      (ls ++ [.contextoActualizado 1]) := by
  have hcuenta : s.peticiones.countP pideActualizar = resto.countP pideActualizar + 1 := by
    rw [hq, List.countP_cons_of_pos rfl]
  have hmem : .actualizarContexto d ∈ s.peticiones := hq ▸ List.mem_cons_self
  -- The request is that of the thread that waits.
  have hpos : 0 < s.ciclos.countP fun y => y.fase.esperaConfirmacion := by
    refine Nat.lt_of_lt_of_le ?_ hi.fichas
    unfold enVuelo
    omega
  obtain ⟨y, hy, hespera⟩ := List.countP_pos_iff.mp hpos
  obtain ⟨i', hfase⟩ : ∃ i', y.fase = .esperaSyscall i' := by
    unfold Fase.esperaConfirmacion at hespera
    split at hespera
    · exact ⟨_, by assumption⟩
    · cases hespera
  have hsuya := hi.suya y hy
  rw [hfase] at hsuya
  obtain ⟨c₀, hc₀, hreanuda, hpide, -⟩ := hsuya
  obtain rfl := hpide d hmem
  have hno : y.fase.envio s.controlKey = false := by
    rw [hfase]
    rfl
  have hdesp : despachos s ls = 0 := by
    by_contra hne
    rw [hi.enviaron (Nat.pos_of_ne_zero hne) y hy] at hno
    cases hno
  constructor
  · refine Nat.le_trans (Nat.le_of_eq ?_) hi.fichas
    show s.semSyscall + resto.countP pideActualizar + (ls ++ [_]).countP traeConfirmacion =
      s.semSyscall + s.peticiones.countP pideActualizar + ls.countP traeConfirmacion
    rw [hcuenta, List.countP_append, List.countP_singleton]
    show _ + _ + (_ + 1) = _
    omega
  · intro hpos'
    have hdesp' : despachos s ls = resto.countP pideContexto + ls.countP traeContexto := by
      unfold despachos
      rw [hq, List.countP_cons_of_neg Bool.false_ne_true]
    replace hpos' : 0 < resto.countP pideContexto +
      (ls ++ [Llegada.contextoActualizado 1]).countP traeContexto := hpos'
    have hnada : [Llegada.contextoActualizado 1].countP traeContexto = 0 := rfl
    rw [List.countP_append, hnada] at hpos'
    omega
  · intro z hz
    by_cases hfin : z.fase = .fin
    · rw [hfin]
      trivial
    · obtain rfl := ht.unico hz hy hfin (by simp [hfase])
      rw [hfase]
      exact ⟨c₀, hc₀, hreanuda, fun d' hd' => hpide d' (hq ▸ List.mem_cons_of_mem _ hd'),
        fun _ => guardado_actualizar hx hreanuda⟩
  · intro hilo c hc htodos
    have hotro : hiloDe y.contexto ≠ hilo := by
      intro he
      replace htodos : y.fase.envio s.controlKey = true := htodos y hy he
      rw [hno] at htodos
      cases htodos
    obtain ⟨hguarda, hllega⟩ := hi.ultima hilo c hc htodos
    refine ⟨hguarda.of_eq (mapaDe_actualizar_of_ne hx hotro), fun c' hc' => hllega c' ?_⟩
    simpa using hc'

/-- Memoria handles a request. -/
theorem Guarda.responde {q : Peticion} {resto : List Peticion} {m' : Memoria.Estado}
    {flujo : List Byte} {rs : List Llegada} (hi : Guarda h s ls) (ht : Turno s ls)
    (hq : s.peticiones = q :: resto) (hr : Responde ent s.memoria q m' rs) :
    Guarda h { s with memoria := m', peticiones := resto, flujo } (ls ++ rs) := by
  have hp : ∀ q' ∈ resto, pideActualizar q' = true → q' ∈ s.peticiones :=
    fun q' hq' _ => hq ▸ List.mem_cons_of_mem _ hq'
  have hcuenta : resto.countP pideActualizar ≤ s.peticiones.countP pideActualizar := by
    rw [hq, List.countP_cons]
    omega
  have hdesp : 0 < resto.countP pideContexto + (ls ++ rs).countP traeContexto →
      ∀ x ∈ s.ciclos, x.fase.envio s.controlKey = true := by
    intro hpos
    refine hi.enviaron ?_
    have hcabe : rs.countP traeContexto ≤ if pideContexto q then 1 else 0 := by
      cases hr <;> simp [traeContexto, pideContexto]
    rw [List.countP_append] at hpos
    unfold despachos
    rw [hq, List.countP_cons]
    omega
  have hsem : rs.countP traeConfirmacion = 0 → s.semSyscall + (ls ++ rs).countP traeConfirmacion ≤
      s.semSyscall + ls.countP traeConfirmacion := by
    intro hcero
    rw [List.countP_append, hcero]
    exact Nat.le_refl _
  cases hr with
  | calla q =>
    exact hi.mono rfl rfl (fun _ _ hg => hg) (hsem rfl) hp hcuenta
      (fun c' hc' => .inl (by simpa using hc')) hdesp
  | contexto d x hx =>
    refine hi.mono rfl rfl (fun _ _ hg => hg) (hsem rfl) hp hcuenta (fun c' hc' => ?_) hdesp
    rcases List.mem_append.mp hc' with hc' | hc'
    · exact .inl hc'
    · cases List.mem_singleton.mp hc'
      have hclave : hiloDe x.paraCpu = (d.PID, d.TID) := mapaDe_clave hx
      exact .inr ⟨x, hclave ▸ hx, rfl⟩
  | actualiza d i x hx => exact hi.actualiza ht hq hx
  | instruccion d x t hx ht =>
    exact hi.mono rfl rfl (fun _ _ hg => hg) (hsem rfl) hp hcuenta
      (fun c' hc' => .inl (by simpa using hc')) hdesp
  | escribe d bytes =>
    exact hi.mono rfl rfl (fun _ _ hg => hg) (hsem rfl) hp hcuenta
      (fun c' hc' => .inl (by simpa using hc')) hdesp
  | lee d =>
    exact hi.mono rfl rfl (fun _ _ hg => hg) (hsem rfl) hp hcuenta
      (fun c' hc' => .inl (by simpa using hc')) hdesp

/-- The kernel ends a thread that does not run. -/
theorem Guarda.olvida {d : TDatosEsenciales} {m' : Memoria.Estado} {p : List Memoria.Envio}
    (hi : Guarda h s ls) (hat : Memoria.atender ent s.memoria (.finalizarHilo d) = .ok (m', p))
    (hcede : ∀ x ∈ s.ciclos, hiloDe x.contexto = (d.pidInv, d.tidInv) →
      x.fase.envio s.controlKey = true) :
    Guarda (h.olvida (d.pidInv, d.tidInv)) { s with memoria := m' } ls := by
  have hotro : ∀ hilo c, (d.pidInv, d.tidInv) ≠ hilo → Guardado s.memoria hilo c →
      Guardado m' hilo c := fun hilo c hne hg =>
    hg.atender rfl hat fun d' hd' => by
      cases hd'
      exact hne
  refine ⟨hi.fichas, hi.enviaron, fun x hx => ?_, fun hilo c hc htodos => ?_⟩
  · have hsuya := hi.suya x hx
    have hcede' := hcede x hx
    have hdistinto : x.fase.envio s.controlKey = false →
        (d.pidInv, d.tidInv) ≠ hiloDe x.contexto := by
      intro hno he
      rw [hcede' he.symm] at hno
      cases hno
    show SuSyscall _ _ _ _ x.fase
    generalize x.fase = fase at hsuya hdistinto
    cases fase with
    | esperaSyscall i =>
      obtain ⟨c₀, hc₀, hreanuda, hpide, hguarda⟩ := hsuya
      exact ⟨c₀, hc₀, hreanuda, hpide, fun hpos => hotro _ _ (hdistinto rfl) (hguarda hpos)⟩
    | enviaSyscall i =>
      obtain ⟨c₀, hc₀, hguarda⟩ := hsuya
      exact ⟨c₀, hc₀, hotro _ _ (hdistinto rfl) hguarda⟩
    | _ => trivial
  · replace hc : Function.update h.ultima (d.pidInv, d.tidInv) none hilo = some c := hc
    by_cases he : hilo = (d.pidInv, d.tidInv)
    · rw [he, Function.update_self] at hc
      cases hc
    · rw [Function.update_of_ne he] at hc
      obtain ⟨hguarda, hllega⟩ := hi.ultima hilo c hc htodos
      exact ⟨hotro _ _ (Ne.symm he) hguarda, hllega⟩

/-- **Step.** A step in its turn, without `check_interrupt`, keeps the invariant. -/
theorem Guarda.avance (hi : Guarda h s ls) (ht : Turno s ls) (hu : UnoPorVez s a)
    (hd : UnDespacho s a) (hint : SinCheckInterrupt s a) (hav : Avance ent s ls a s' ls')
    (hv : s'.vivo = true) : Guarda (Historia.paso s a s' h) s' ls' := by
  cases hav with
  | recibirTid pid tid => exact hi.recibirTid pid tid hd
  | interrupcion =>
    exact hi.mono rfl rfl (fun _ _ hg => hg) (Nat.le_refl _) (fun _ hq _ => hq) (Nat.le_refl _)
      (fun _ hc => .inl hc) hi.enviaron
  | ciclo k c fase s' o hk hg =>
    have hh : Historia.paso s (.ciclo k) s' h = h.anota c fase := by
      unfold Historia.paso
      simp only [hk]
    rw [hh]
    refine hi.gira ht hk hg hv fun hfase => hint ?_
    rw [hk, hfase]
    rfl
  | byte basura flujo leido =>
    exact hi.mono rfl rfl (fun _ _ hg => hg) (Nat.le_refl _) (fun _ hq _ => hq) (Nat.le_refl _)
      (fun _ hc => .inl hc) hi.enviaron
  | llega basura flujo leido l ls' hls hempieza =>
    subst hls
    have ht' : Turno { s with flujo, leido } (l :: ls') :=
      ht.mono rfl rfl rfl rfl rfl (Nat.le_refl _) ht.pedido ht.llegada
    have hi' : Guarda h { s with flujo, leido } (l :: ls') :=
      hi.mono rfl rfl (fun _ _ hg => hg) (Nat.le_refl _) (fun _ hq _ => hq) (Nat.le_refl _)
        (fun _ hc => .inl hc) hi.enviaron
    cases hl : traeContexto l with
    | false => exact hi'.recibirOtra hl
    | true =>
      cases l with
      | contexto c => exact hi'.recibirContexto ht' (hu (hempieza c rfl))
      | _ => cases hl
  | responde malloc q resto m' flujo rs hq hr => exact hi.responde ht hq hr
  | kernel q m' p hq hat =>
    cases q with
    | finalizarHilo d => exact hi.olvida hat hd
    | _ =>
      exact hi.mono rfl rfl (fun _ _ hg => hg.atender hq hat fun _ he => by cases he)
        (Nat.le_refl _) (fun _ hq _ => hq) (Nat.le_refl _) (fun _ hc => .inl hc) hi.enviaron

theorem guarda_nueva (m : Memoria.Estado) : Guarda .vacia (.nueva m) [] := by
  refine ⟨Nat.le_refl _, fun hpos => ?_, fun x hx => absurd hx List.not_mem_nil,
    fun _ _ hc => by cases hc⟩
  exact absurd hpos (Nat.lt_irrefl 0)

end Pasos

/-! ## Runs -/

/-- The history of a run from `s`. -/
def historia (ent : Memoria.Entorno) (s : CpuMemoria) (pre : List Paso) : Historia :=
  history (CpuMemoria.paso ent) Historia.paso s pre .vacia

/-- When `execute_syscall` sends a packet, memoria has stored, for the thread that the packet names,
the registers at the syscall and the position after it. -/
def GuardaAntes (ent : Memoria.Entorno) (h : Historia) (s : CpuMemoria) (a : Paso) : Prop :=
  ∀ k c i s' o paquete, a = .ciclo k → s.ciclos[k]? = some ⟨c, .enviaSyscall i⟩ →
    s.paso ent a = .ok (s', o) → .syscall c paquete ∈ o →
      ∃ c₀, h.ejecutado paquete.de = some c₀ ∧ Guardado s.memoria paquete.de c₀

/-- A context that arrives goes on after the last syscall of its thread. -/
def ReanudaDespues (ent : Memoria.Entorno) (h : Historia) (s : CpuMemoria) (a : Paso) : Prop :=
  ∀ basura s' o c, a = .escucha basura → s.paso ent a = .ok (s', o) →
    s'.ciclos = s.ciclos ++ [⟨c, .inicio⟩] → ∀ c₀, h.ultima (hiloDe c) = some c₀ → Reanuda c₀ c

section Corridas

variable {ent : Memoria.Entorno} {m : Memoria.Estado} {as pre : List Paso} {h : Historia}
  {s s' : CpuMemoria} {ls : List Llegada} {a : Paso} {o : List Salida} {basura : Basura}

theorem recibir_vivo (s : CpuMemoria) (l : Llegada) : (s.recibir l).vivo = s.vivo := by
  cases l with
  | contextoActualizado bit =>
    unfold CpuMemoria.recibir
    dsimp only
    split
    · rfl
    · rfl
  | _ => rfl

theorem escuchar_vivo (h : s.escuchar basura = .ok (s', o)) : s'.vivo = s.vivo := by
  unfold CpuMemoria.escuchar at h
  split at h
  · cases h
  · split at h
    · split at h
      · cases h
        rfl
      · cases h
        rfl
      · split at h
        · cases h
          exact recibir_vivo _ _
        · cases h
    · cases h

/-- Only a context adds a thread. -/
theorem recibir_ciclos {l : Llegada} {x : Ciclo}
    (h : (s.recibir l).ciclos = s.ciclos ++ [x]) : ∃ c, l = .contexto c ∧ x = ⟨c, .inicio⟩ := by
  have hmismo : s.ciclos ≠ s.ciclos ++ [x] := by simp
  cases l with
  | contexto c =>
    replace h : s.ciclos ++ [⟨c, .inicio⟩] = s.ciclos ++ [x] := h
    exact ⟨c, rfl, (List.singleton_injective (List.append_cancel_left h)).symm⟩
  | instruccion t => exact absurd h hmismo
  | contextoActualizado bit =>
    unfold CpuMemoria.recibir at h
    dsimp only at h
    split at h
    · exact absurd h hmismo
    · exact absurd h hmismo
  | nada => exact absurd h hmismo

theorem Guarda.guardaAntes (hi : Guarda h s ls) (hl : Lineas ent pre s ls) :
    GuardaAntes ent h s a := by
  rintro k c i s' o paquete rfl hk hpaso hx
  have hmem : (⟨c, .enviaSyscall i⟩ : Ciclo) ∈ s.ciclos := List.mem_of_getElem? hk
  obtain ⟨c', fase, hk', hg⟩ := girar_casos (enCpu_ok hpaso).2
  rw [hk] at hk'
  cases hk'
  cases hg with
  | envia _ p hp =>
    obtain ⟨p', hp', hpaquete⟩ := List.mem_map.mp hx
    cases hpaquete
    have hde : paquete.de = hiloDe c :=
      (executeSyscall_de i paquete (by rw [hp, Option.mem_toList.mp hp'])).trans (hl.suya _ hmem)
    rw [hde]
    exact hi.suya _ hmem
  | cae _ f hf => cases hx

theorem Guarda.reanudaDespues (hi : Guarda h s ls) (hlineas : LineasCortas ent)
    (hf : Flujo (s.leido ++ s.flujo) ls) (hu : UnoPorVez s a) : ReanudaDespues ent h s a := by
  rintro basura s' o c rfl hpaso hciclos c₀ hc₀
  have hmismo : s.ciclos ≠ s.ciclos ++ [⟨c, .inicio⟩] := by simp
  obtain ⟨hvivo, hescucha⟩ := enCpu_ok hpaso
  obtain ⟨ls', hav, -⟩ :=
    paso_avance hlineas rfl hf hpaso ((escuchar_vivo hescucha).trans hvivo)
  cases hav with
  | byte _ flujo leido => exact absurd hciclos hmismo
  | llega _ flujo leido l ls' hls hempieza =>
    obtain ⟨c', rfl, hc'⟩ := recibir_ciclos (s := { s with flujo, leido }) hciclos
    cases hc'
    have hfin := hu (hempieza c rfl)
    refine (hi.ultima _ c₀ hc₀ fun x hx _ => ?_).2 c (hls ▸ List.mem_cons_self) rfl
    rw [hfin x hx]
    rfl

/-- **The context is stored before the syscall is sent, without `check_interrupt`.** In a run from
the start of the CPU and memoria, with one dispatched thread at a time, that executes no
`check_interrupt`, memoria has the registers and the next position of each syscall when it is sent,
and each context that arrives goes on from there. -/
theorem syscall_guardada (basura : Nat → Uint32) (memoria : Nat → Byte)
    (hlineas : LineasCortas ent)
    (h : EveryStep (CpuMemoria.paso ent)
      (.nueva (Memoria.estadoInicial ent.toConfigMemoria basura memoria)) as fun _ s a =>
        EnOrden s a ∧ UnDespacho s a ∧ SinCheckInterrupt s a) :
    EveryStep (CpuMemoria.paso ent)
      (.nueva (Memoria.estadoInicial ent.toConfigMemoria basura memoria)) as fun pre s a =>
        let h := historia ent
          (.nueva (Memoria.estadoInicial ent.toConfigMemoria basura memoria)) pre
        GuardaAntes ent h s a ∧ ReanudaDespues ent h s a := by
  intro pre s a r hpre hs hpaso
  let s₀ : CpuMemoria := .nueva (Memoria.estadoInicial ent.toConfigMemoria basura memoria)
  show GuardaAntes ent (historia ent s₀ pre) s a ∧ ReanudaDespues ent (historia ent s₀ pre) s a
  by_cases hvivo : s.vivo = true
  · obtain ⟨⟨hu, -⟩, -⟩ := h pre s a r hpre hs hpaso
    obtain ⟨ls, hf, -, hl, hi⟩ := invariante_corrida
      (J := fun pre s ls => Lineas ent pre s ls ∧ Guarda (historia ent s₀ pre) s ls)
      hlineas (h.restrict ((List.prefix_append _ _).trans hpre))
      ⟨lineas_nueva rfl, guarda_nueva _⟩
      (fun pre s ls a s' ls' o hs hpaso ht hJ hu hC hav hv => by
        refine ⟨hJ.1.avance ht hav hv, ?_⟩
        have hh : historia ent s₀ (pre ++ [a]) = Historia.paso s a s' (historia ent s₀ pre) :=
          history_snoc hs hpaso
        rw [hh]
        exact hJ.2.avance ht hu hC.1 hC.2 hav hv) hs hvivo
    exact ⟨hi.guardaAntes hl, hi.reanudaDespues hlineas hf hu⟩
  · -- The CPU has ended.
    constructor
    · rintro k c i s' o paquete rfl - hp -
      exact absurd (enCpu_ok hp).1 hvivo
    · rintro b s' o c rfl hp - - -
      exact absurd (enCpu_ok hp).1 hvivo

end Corridas

/-- Thread 0 sends its syscall and ends, and gets the CPU again. -/
def corridaReanudada : List Paso :=
  corridaConIo ++ [.ciclo 0, .ciclo 0, .ciclo 0] ++ despacha 0

theorem syscall_guardada_io :
    let ent := entornoCpu "IO 1".toList
    EveryStep (CpuMemoria.paso ent) cpuCero corridaReanudada fun pre s a =>
      GuardaAntes ent (historia ent cpuCero pre) s a ∧
        ReanudaDespues ent (historia ent cpuCero pre) s a :=
  syscall_guardada (fun _ => 0) (fun _ => 0) (lineasCortas_entornoCpu (by decide))
    (.of_check (by decide +kernel))

/-! ## The failing input -/

/-- Memoria with the program of the failing input. -/
def entornoInterrumpido : Memoria.Entorno := entornoCpu "LOG AX\nIO 1".toList

/-- The kernel interrupts thread 0 at its first instruction. The confirmation of that update lets
the second one, an `IO`, pass `sem_syscall` before memoria has its own. -/
def corridaInterrumpida : List Paso :=
  dosHilosListos ++ despacha 0 ++ trae 6 ++
    [.ciclo 0, .ciclo 0, .interrupcion, .ciclo 0] ++ atiendeYEscucha 12 ++ [.ciclo 0, .ciclo 0] ++
    trae 4 ++ [.ciclo 0, .ciclo 0, .ciclo 0]

/-- Thread 0 of process 1 before its second instruction. -/
def contextoAntes : TContextoEjecucion :=
  { TID := 0, RegistrosCPU := .cero, PC := 1, base := 0, limite := 9, pid := 1 }

/-- What a run that ends at a syscall of thread 0 shows of it. -/
def vistaSyscall (s : CpuMemoria) : Bool × Option Ciclo × Option Uint32 :=
  (s.vivo, s.ciclos[0]?, (mapaDe s.memoria.listaContextos (1, 0)).map (·.pc))

theorem reaches_corridaInterrumpida :
    ∃ s, Reaches (CpuMemoria.paso entornoInterrumpido) cpuCero corridaInterrumpida s ∧
      vistaSyscall s =
        (true, some ⟨{ contextoAntes with PC := 2 }, .enviaSyscall (decode "IO 1".toList 1 0)⟩,
          some 1) :=
  reaches_of_map (by decide +kernel)

/-- The `IO` is sent while memoria has the PC before it. -/
theorem syscall_sin_guardar : ¬ ∀ (ent : Memoria.Entorno) (basura : Nat → Uint32)
    (memoria : Nat → Byte) (as : List Paso), LineasCortas ent →
    EveryStep (CpuMemoria.paso ent)
      (.nueva (Memoria.estadoInicial ent.toConfigMemoria basura memoria)) as
        (fun _ s a => EnOrden s a ∧ UnDespacho s a) →
    EveryStep (CpuMemoria.paso ent)
      (.nueva (Memoria.estadoInicial ent.toConfigMemoria basura memoria)) as fun pre s a =>
        let h := historia ent
          (.nueva (Memoria.estadoInicial ent.toConfigMemoria basura memoria)) pre
        GuardaAntes ent h s a ∧ ReanudaDespues ent h s a := by
  intro h
  obtain ⟨s, hs, heq⟩ := reaches_corridaInterrumpida
  obtain ⟨hvivo, heq⟩ := Prod.mk.inj heq
  obtain ⟨hk, hpc⟩ := Prod.mk.inj heq
  have hpaso : s.paso entornoInterrumpido (.ciclo 0) =
      .ok (s.conCiclo 0 { contextoAntes with PC := 2 } .apaga,
        [.syscall { contextoAntes with PC := 2 } (.io ⟨1, 0, 1⟩)]) := by
    show s.enCpu (s.girar 0) = _
    unfold CpuMemoria.enCpu CpuMemoria.girar
    rw [if_pos hvivo, hk]
    rfl
  have hturnos : EveryStep (CpuMemoria.paso entornoInterrumpido) cpuCero
      (corridaInterrumpida ++ [.ciclo 0]) fun _ s a => EnOrden s a ∧ UnDespacho s a :=
    .of_check (by decide +kernel)
  have hejecutado : (historia entornoInterrumpido cpuCero corridaInterrumpida).ejecutado (1, 0) =
      some contextoAntes := by decide +kernel
  have hlineas : LineasCortas entornoInterrumpido := lineasCortas_entornoCpu (by decide)
  have hguarda : GuardaAntes entornoInterrumpido
      (historia entornoInterrumpido cpuCero corridaInterrumpida) s (.ciclo 0) :=
    (h entornoInterrumpido (fun _ => 0) (fun _ => 0) _ hlineas hturnos _ s _ _
      (List.prefix_refl _) hs hpaso).1
  obtain ⟨c₀, hc₀, x, hx, -, hpc'⟩ := hguarda 0 _ _ _ _ _ rfl hk hpaso List.mem_cons_self
  obtain rfl : contextoAntes = c₀ := Option.some.inj (hejecutado.symm.trans hc₀)
  replace hx : mapaDe s.memoria.listaContextos (1, 0) = some x := hx
  rw [hx] at hpc
  replace hpc : x.pc = 1 := Option.some.inj hpc
  replace hpc' : x.pc = 2 := hpc'
  rw [hpc] at hpc'
  exact absurd hpc' (by decide)

end LastOfC.Cpu
