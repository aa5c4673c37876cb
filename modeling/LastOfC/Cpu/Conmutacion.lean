import LastOfC.Lib.Solo
import LastOfC.Cpu.Guardado

/-!
# A thread does not see the others

The CPU gives a thread up at each syscall, and gets it back from memoria.

* `aSolas`: a thread alone. It executes the line at its PC, in the program of its `HILO_READY`.
* `VaSola`: what a thread executed so far is what it executes alone, up to this context.
* `Transparente`: so it is for the context of the thread that runs, for the one that is on its way,
  and for those that memoria has of the others.
* `conmutacion_transparente`: as long as one thread is dispatched at a time, each thread executes
  what it executes alone from its first context, whatever the others do in between.
-/

namespace LastOfC.Cpu

open KeyedList Trace
open Memoria (Peticion Particion Clave mapaDe buscarContextoPorTid obtenerInstruccionPorPc
  buscarParticionPorPid contextoEsperado)

/-! ## A thread alone -/

/-- A thread with the program `path` alone: it executes the instruction at its PC. If that reads
memory, ends the CPU or crashes, then it does not go on. -/
def aSolas (ent : Memoria.Entorno) (path : Cadena) :
    Solo.Machine TContextoEjecucion (TContextoEjecucion × TInstruccion) := fun c =>
  (obtenerInstruccionPorPc ent c.PC path).map fun t =>
    let i := decode t c.pid c.TID
    ((c, i),
      match execute ⟨c.base, c.limite⟩ c.pid i c with
      | .sigue c' _ | .syscall c' => some c'
      | .lee _ _ | .sale _ | .cae _ => none)

/-- The instruction that the thread executes, with its context. -/
def Salida.ejecucion (hilo : Clave) : Salida → Option (TContextoEjecucion × TInstruccion)
  | .ejecuta c i _ => if hiloDe c = hilo then some (c, i) else none
  | _ => none

/-- What the thread executes. -/
def ejecuciones (hilo : Clave) (o : List Salida) : List (TContextoEjecucion × TInstruccion) :=
  o.filterMap (Salida.ejecucion hilo)

/-- The thread of a `HILO_READY`. -/
def hiloNuevo : Paso → Option Clave
  | .memoriaKernel q => q.hiloNuevo
  | _ => none

/-- In the run `pre` a `HILO_READY` creates a thread, in the partition `p` of its process. -/
def Nace (ent : Memoria.Entorno) (m : Memoria.Estado) (pre : List Paso) (d : TCrearHilo)
    (p : Particion) : Prop :=
  ∃ antes s, antes ++ [.memoriaKernel (.hiloReady d)] <+: pre ∧
    Reaches (CpuMemoria.paso ent) (.nueva m) antes s ∧
    buscarParticionPorPid s.memoria.listaParticiones d.PID = some p

/-- What the thread of `c` did in a run with the outputs `o` is what it does alone, and `c` is its
next context. -/
def VaSola (ent : Memoria.Entorno) (m : Memoria.Estado) (pre : List Paso) (o : List Salida)
    (c : TContextoEjecucion) : Prop :=
  ∃ d p, Nace ent m pre d p ∧
    Solo.Follows (aSolas ent d.path) (contextoEsperado d p []) (ejecuciones (d.PID, d.TID) o) c

/-- What the thread did in a run is what it does alone. -/
def TrazaSola (ent : Memoria.Entorno) (m : Memoria.Estado) (pre : List Paso) (o : List Salida)
    (hilo : Clave) : Prop :=
  ejecuciones hilo o ≠ [] → ∃ d p, Nace ent m pre d p ∧ hilo = (d.PID, d.TID) ∧
    ejecuciones hilo o =
      Solo.trace (aSolas ent d.path) (ejecuciones hilo o).length (contextoEsperado d p [])

section Solas

variable {ent : Memoria.Entorno} {m : Memoria.Estado} {pre : List Paso} {o o' : List Salida}
  {d d' : TCrearHilo} {p p' : Particion} {c c' : TContextoEjecucion} {i : TInstruccion}
  {hilo : Clave} {path t : Cadena} {parteActual : ParticionMemoria} {PidHilo : Uint32}

theorem ejecuciones_append (hilo : Clave) (o o' : List Salida) :
    ejecuciones hilo (o ++ o') = ejecuciones hilo o ++ ejecuciones hilo o' :=
  List.filterMap_append ..

theorem MismoHilo.trans {c'' : TContextoEjecucion} (h : MismoHilo c c') (h' : MismoHilo c' c'') :
    MismoHilo c c'' :=
  ⟨h'.1.trans h.1, h'.2.1.trans h.2.1, h'.2.2.1.trans h.2.2.1, h'.2.2.2.trans h.2.2.2⟩

theorem MismoHilo.hiloDe_eq (h : MismoHilo c c') : hiloDe c' = hiloDe c := Prod.ext h.1 h.2.1

/-- Only a syscall waits on `sem_syscall`. -/
theorem esSyscall_of_execute (h : execute parteActual PidHilo i c = .syscall c') :
    i.esSyscall = true := by
  by_contra hno
  unfold execute at h
  rw [if_neg hno] at h
  split_ifs at h
  all_goals split at h
  all_goals cases h

theorem aSolas_eq (h : obtenerInstruccionPorPc ent c.PC path = some t) :
    ∃ r, aSolas ent path c = some ((c, decode t c.pid c.TID), r) ∧
      ∀ c', (∃ envios, execute ⟨c.base, c.limite⟩ c.pid (decode t c.pid c.TID) c =
          .sigue c' envios) ∨
        execute ⟨c.base, c.limite⟩ c.pid (decode t c.pid c.TID) c = .syscall c' → r = some c' := by
  refine ⟨_, by rw [aSolas, h]; rfl, fun c' hc' => ?_⟩
  rcases hc' with ⟨envios, he⟩ | he
  · rw [he]
  · rw [he]

/-- The machine stays in its thread. -/
theorem aSolas_mismoHilo {x : TContextoEjecucion × TInstruccion}
    (h : aSolas ent path c = some (x, some c')) : MismoHilo c c' := by
  obtain ⟨t, -, ht⟩ := Option.map_eq_some_iff.mp h
  obtain ⟨-, ht⟩ := Prod.mk.inj ht
  split at ht
  · rename_i c₁ envios he
    cases ht
    exact (execute_sigue he).1
  · rename_i c₁ he
    cases ht
    rw [execute_syscall he]
    exact ⟨rfl, rfl, rfl, rfl⟩
  all_goals cases ht

theorem Nace.mono (h : Nace ent m pre d p) (a : Paso) : Nace ent m (pre ++ [a]) d p := by
  obtain ⟨antes, s, hpre, hs⟩ := h
  exact ⟨antes, s, hpre.trans (List.prefix_append _ _), hs⟩

theorem Nace.mem (h : Nace ent m pre d p) : .memoriaKernel (.hiloReady d) ∈ pre := by
  obtain ⟨antes, s, hpre, -⟩ := h
  exact hpre.subset (by simp)

/-- With one `HILO_READY` for each thread, a thread is created once. -/
theorem Nace.unico (hn : (pre.filterMap hiloNuevo).Nodup) (h : Nace ent m pre d p)
    (h' : Nace ent m pre d' p') (hk : (d'.PID, d'.TID) = (d.PID, d.TID)) : d' = d ∧ p' = p := by
  obtain ⟨antes, s, hpre, hs, hp⟩ := h
  obtain ⟨antes', s', hpre', hs', hp'⟩ := h'
  obtain ⟨rfl, hd⟩ := concat_prefix_unique hn hpre hpre' rfl (congrArg some hk)
  cases hd
  obtain rfl := hs.unique hs'
  exact ⟨rfl, Option.some.inj (hp'.symm.trans hp)⟩

/-- The program that a thread has is that of its `HILO_READY`. -/
theorem Nace.programa (hn : (pre.filterMap hiloNuevo).Nodup) (h : Nace ent m pre d p)
    (hpath : EsPrograma pre hilo path) (hk : hilo = (d.PID, d.TID)) : path = d.path := by
  obtain ⟨antes, s, hpre, -⟩ := h
  obtain ⟨d', hd', rfl, rfl⟩ := hpath
  obtain ⟨antes', post, rfl⟩ := List.append_of_mem hd'
  have hpre' : antes' ++ [.memoriaKernel (.hiloReady d')] <+:
      antes' ++ .memoriaKernel (.hiloReady d') :: post := ⟨post, by simp⟩
  obtain ⟨-, hd⟩ := concat_prefix_unique hn hpre hpre' rfl (congrArg some hk)
  cases hd
  rfl

theorem VaSola.mismoHilo (h : Solo.Follows (aSolas ent path) (contextoEsperado d p [])
    (ejecuciones hilo o) c) : MismoHilo (contextoEsperado d p []) c :=
  h.keeps (I := MismoHilo (contextoEsperado d p [])) (.refl _) fun _ _ _ hs hI =>
    hI.trans (aSolas_mismoHilo hs)

/-- A step that executes nothing of the thread. -/
theorem VaSola.mono (h : VaSola ent m pre o c) (a : Paso)
    (ho : ejecuciones (hiloDe c) o' = ejecuciones (hiloDe c) o) :
    VaSola ent m (pre ++ [a]) o' c := by
  obtain ⟨d, p, hd, hc⟩ := h
  have hhilo : hiloDe c = (d.PID, d.TID) := (VaSola.mismoHilo hc).hiloDe_eq
  rw [hhilo] at ho
  exact ⟨d, p, hd.mono a, ho ▸ hc⟩

theorem TrazaSola.mono (h : TrazaSola ent m pre o hilo) (a : Paso)
    (ho : ejecuciones hilo o' = ejecuciones hilo o) : TrazaSola ent m (pre ++ [a]) o' hilo := by
  intro hne
  rw [ho] at hne ⊢
  obtain ⟨d, p, hd, hc⟩ := h hne
  exact ⟨d, p, hd.mono a, hc⟩

/-- **One instruction.** The thread executes the line at its PC, as it does alone. -/
theorem VaSola.ejecuta (hn : (pre.filterMap hiloNuevo).Nodup) (h : VaSola ent m pre o c)
    (ht : EsLinea ent pre c t) (ho : ejecuciones (hiloDe c) o' =
      ejecuciones (hiloDe c) o ++ [(c, decode t c.pid c.TID)]) :
    TrazaSola ent m pre o' (hiloDe c) ∧
      ∀ c', (∃ envios, execute ⟨c.base, c.limite⟩ c.pid (decode t c.pid c.TID) c =
          .sigue c' envios) ∨
        execute ⟨c.base, c.limite⟩ c.pid (decode t c.pid c.TID) c = .syscall c' →
        VaSola ent m pre o' c' := by
  obtain ⟨d, p, hd, hc⟩ := h
  have hhilo : hiloDe c = (d.PID, d.TID) := (VaSola.mismoHilo hc).hiloDe_eq
  obtain ⟨path, hpath, ht⟩ := ht
  obtain rfl := hd.programa hn hpath hhilo
  obtain ⟨r, hr, hsigue⟩ := aSolas_eq ht
  rw [hhilo] at ho ⊢
  refine ⟨fun _ => ⟨d, p, hd, rfl, ?_⟩, fun c' hc' => ⟨d, p, hd, ?_⟩⟩
  · rw [ho]
    exact hc.stop hr
  · rw [ho]
    exact hc.snoc (hsigue c' hc' ▸ hr)

end Solas

/-! ## The invariant -/

/-- The thread goes on with its context. -/
def Fase.sigue : Fase → Bool
  | .lee _ _ | .fin => false
  | _ => true

/-- The thread has asked memoria to store its context, and has not sent its syscall. -/
def Fase.pidio : Fase → Bool
  | .esperaSyscall _ | .enviaSyscall _ => true
  | _ => false

/-- The context `x` of memoria is of the thread, which goes on with it unless it has the CPU. -/
structure Reposa (ent : Memoria.Entorno) (m : Memoria.Estado) (pre : List Paso) (o : List Salida)
    (s : CpuMemoria) (hilo : Clave) (x : Memoria.ContextoEjecucion) : Prop where
  nace : ∃ d p, Nace ent m pre d p ∧ MismoHilo (contextoEsperado d p []) x.paraCpu
  sigue : (∀ y ∈ s.ciclos, hiloDe y.contexto = hilo → y.fase.envio s.controlKey = true) →
    VaSola ent m pre o x.paraCpu

/-- What each thread did is what it does alone. It goes on with the context of the thread that runs,
with the one that is on its way, and with the one that memoria has. -/
structure Transparente (ent : Memoria.Entorno) (m : Memoria.Estado) (pre : List Paso)
    (o : List Salida) (h : Historia) (s : CpuMemoria) (ls : List Llegada) : Prop where
  trazas : ∀ hilo, TrazaSola ent m pre o hilo
  claves : (s.memoria.listaContextos.map Memoria.ContextoEjecucion.clave).Nodup
  reposan : ∀ hilo x, mapaDe s.memoria.listaContextos hilo = some x → Reposa ent m pre o s hilo x
  vivas : ∀ x ∈ s.ciclos, x.fase.sigue = true → VaSola ent m pre o x.contexto
  pidieron : ∀ x ∈ s.ciclos, x.fase.pidio = true →
    ∃ c, h.ejecutado (hiloDe x.contexto) = some c ∧ Reanuda c x.contexto
  llegan : ∀ c, .contexto c ∈ ls → VaSola ent m pre o c

/-! ## Steps of a thread -/

section Giros

variable {ent : Memoria.Entorno} {m : Memoria.Estado} {pre : List Paso} {o o₁ : List Salida}
  {h : Historia} {s s' : CpuMemoria} {ls : List Llegada} {k : Nat} {c c' : TContextoEjecucion}
  {fase : Fase} {hilo : Clave}

theorem ejecuciones_alKernel (hilo : Clave) (c : TContextoEjecucion) (envios : List Envio) :
    ejecuciones hilo (CpuMemoria.alKernel c envios) = [] := by
  refine List.filterMap_eq_nil_iff.mpr fun x hx => ?_
  obtain ⟨e, -, he⟩ := List.mem_filterMap.mp hx
  cases e with
  | aMemoria q => cases he
  | processExit pid tid =>
    cases he
    rfl

/-- A thread executes an instruction in its phase `ejecuta`, and in no other. -/
theorem giro_ejecuciones (hg : Giro s k c fase s' o) (hilo : Clave) :
    ejecuciones hilo o =
      match fase with
      | .ejecuta i => if hiloDe c = hilo then [(c, i)] else []
      | _ => [] := by
  have huna : ∀ i parteActual (o' : List Salida), ejecuciones hilo o' = [] →
      ejecuciones hilo (.ejecuta c i parteActual :: o') =
        if hiloDe c = hilo then [(c, i)] else [] := by
    intro i parteActual o' ho'
    unfold ejecuciones at ho' ⊢
    rw [List.filterMap_cons, ho', Salida.ejecucion]
    by_cases hhilo : hiloDe c = hilo
    · rw [if_pos hhilo, if_pos hhilo]
    · rw [if_neg hhilo, if_neg hhilo]
  cases hg with
  | sigue i c' envios he => exact huna _ _ _ rfl
  | llama i c' he => exact huna _ _ _ rfl
  | lee i registro datos he => exact huna _ _ _ rfl
  | sale i envios he => exact huna _ _ _ (ejecuciones_alKernel _ _ _)
  | falla i f he => exact huna _ _ _ rfl
  | envia i paquete hp =>
    refine List.filterMap_eq_nil_iff.mpr fun x hx => ?_
    obtain ⟨p, -, rfl⟩ := List.mem_map.mp hx
    rfl
  | _ => rfl

theorem ejecuciones_giro (hg : Giro s k c fase s' o₁) (o : List Salida)
    (h : hiloDe c ≠ hilo ∨ ∀ i, fase ≠ .ejecuta i) :
    ejecuciones hilo (o ++ o₁) = ejecuciones hilo o := by
  rw [ejecuciones_append, giro_ejecuciones hg]
  split
  · rw [if_neg (h.resolve_right fun h => h _ rfl), List.append_nil]
  · rw [List.append_nil]

/-- A thread at an instruction: it is the line at its PC. -/
theorem Transparente.ejecuta {i : TInstruccion} (hi : Transparente ent m pre o h s ls)
    (hn : (pre.filterMap hiloNuevo).Nodup) (hl : Lineas ent pre s ls)
    (hk : s.ciclos[k]? = some ⟨c, .ejecuta i⟩) (hg : Giro s k c (.ejecuta i) s' o₁) :
    TrazaSola ent m pre (o ++ o₁) (hiloDe c) ∧
      ∀ c', (∃ envios, execute ⟨c.base, c.limite⟩ c.pid i c = .sigue c' envios) ∨
        execute ⟨c.base, c.limite⟩ c.pid i c = .syscall c' → VaSola ent m pre (o ++ o₁) c' := by
  have hmem : (⟨c, .ejecuta i⟩ : Ciclo) ∈ s.ciclos := List.mem_of_getElem? hk
  obtain ⟨t, ht, hdecode⟩ : ∃ t, EsLinea ent pre c t ∧ i = decode t c.pid c.TID := hl.suya _ hmem
  subst hdecode
  refine (hi.vivas _ hmem rfl).ejecuta hn ht ?_
  rw [ejecuciones_append, giro_ejecuciones hg]
  exact congrArg _ (if_pos rfl)

/-- Also the last instruction of the CPU is one that the thread executes alone. -/
theorem Transparente.giro_trazas (hi : Transparente ent m pre o h s ls)
    (hn : (pre.filterMap hiloNuevo).Nodup) (hl : Lineas ent pre s ls)
    (hk : s.ciclos[k]? = some ⟨c, fase⟩) (hg : Giro s k c fase s' o₁) (hilo : Clave) :
    TrazaSola ent m pre (o ++ o₁) hilo := by
  by_cases hno : hiloDe c ≠ hilo ∨ ∀ i, fase ≠ .ejecuta i
  · intro hne
    rw [ejecuciones_giro hg o hno] at hne ⊢
    exact hi.trazas hilo hne
  · push Not at hno
    obtain ⟨rfl, i, rfl⟩ := hno
    exact (hi.ejecuta hn hl hk hg).1

/-- What a step of a thread does to its context. -/
structure GiraSola (ent : Memoria.Entorno) (m : Memoria.Estado) (pre : List Paso)
    (o : List Salida) (h : Historia) (s : CpuMemoria) (k : Nat) (c : TContextoEjecucion)
    (s' : CpuMemoria) : Prop where
  memoria : s'.memoria = s.memoria
  ciclos : ∃ c' fase', s'.ciclos = s.ciclos.set k ⟨c', fase'⟩ ∧ hiloDe c' = hiloDe c ∧
    (fase'.sigue = true → VaSola ent m pre o c') ∧
    (fase'.pidio = true → ∃ c₁, h.ejecutado (hiloDe c) = some c₁ ∧ Reanuda c₁ c')

theorem Transparente.giro_sola (hi : Transparente ent m pre o h s ls)
    (hn : (pre.filterMap hiloNuevo).Nodup) (ht : Turno s ls) (hl : Lineas ent pre s ls)
    (hk : s.ciclos[k]? = some ⟨c, fase⟩) (hg : Giro s k c fase s' o₁) (hv : s'.vivo = true) :
    GiraSola ent m pre (o ++ o₁) (h.anota c fase) s k c s' := by
  have hmem : (⟨c, fase⟩ : Ciclo) ∈ s.ciclos := List.mem_of_getElem? hk
  -- The context stays, and nothing is executed.
  have hsigue : (∀ i, fase ≠ .ejecuta i) → fase.sigue = true → VaSola ent m pre (o ++ o₁) c := by
    intro hno hsigue
    obtain ⟨d, p, hd, hc⟩ := hi.vivas _ hmem hsigue
    have hhilo : hiloDe c = (d.PID, d.TID) := (VaSola.mismoHilo hc).hiloDe_eq
    refine ⟨d, p, hd, ?_⟩
    rw [← hhilo] at hc ⊢
    rwa [ejecuciones_giro hg o (.inr hno)]
  have hg' := hg
  cases hg with
  | pide hkey =>
    exact ⟨rfl, c, _, rfl, rfl, fun _ => hsigue (by simp) rfl, by simp [Fase.pidio]⟩
  | vuelve hkey =>
    exact ⟨rfl, c, _, rfl, rfl, fun _ => hsigue (by simp) rfl, by simp [Fase.pidio]⟩
  | recibe hsem =>
    exact ⟨rfl, c, _, rfl, rfl, fun _ => hsigue (by simp) rfl, by simp [Fase.pidio]⟩
  | decodifica t hactual =>
    exact ⟨rfl, c, _, rfl, rfl, fun _ => hsigue (by simp) rfl, by simp [Fase.pidio]⟩
  | nulo hnulo => cases hv
  | sigue i c' envios he =>
    have hcede : (Fase.ejecuta i).cedio s.controlKey = false := by
      by_contra hsi
      rw [execute_of_esSyscall (Bool.eq_true_of_not_eq_false hsi)] at he
      cases he
    have hpid : s.PidHilo = c.pid := (ht.actual _ hmem hcede).2.1
    have hparte : s.parteActual = ⟨c.base, c.limite⟩ := ht.particion _ hmem (by simp)
    rw [hpid, hparte] at he
    exact ⟨rfl, c', _, rfl, (execute_sigue he).1.hiloDe_eq,
      fun _ => (hi.ejecuta hn hl hk hg').2 c' (.inl ⟨envios, he⟩), by simp [Fase.pidio]⟩
  | llama i c' he =>
    obtain rfl := execute_syscall he
    refine ⟨rfl, _, _, rfl, rfl, fun _ => (hi.ejecuta hn hl hk hg').2 _ (.inr ?_), fun _ =>
      ⟨c, Function.update_self .., rfl, rfl⟩⟩
    exact execute_of_esSyscall (esSyscall_of_execute he)
  | lee i registro datos he =>
    exact ⟨rfl, c, _, rfl, rfl, by simp [Fase.sigue], by simp [Fase.pidio]⟩
  | sale i envios he => cases hv
  | falla i f he => cases hv
  | pasa i hsem =>
    exact ⟨rfl, c, _, rfl, rfl, fun _ => hsigue (by simp) rfl, fun _ => hi.pidieron _ hmem rfl⟩
  | envia i paquete hp =>
    exact ⟨rfl, c, _, rfl, rfl, fun _ => hsigue (by simp) rfl, by simp [Fase.pidio]⟩
  | cae i f hf => cases hv
  | apaga => exact ⟨rfl, c, _, rfl, rfl, fun _ => hsigue (by simp) rfl, by simp [Fase.pidio]⟩
  | interrumpe hint =>
    exact ⟨rfl, c, _, rfl, rfl, fun _ => hsigue (by simp) rfl, by simp [Fase.pidio]⟩
  | revisa hint =>
    exact ⟨rfl, c, _, rfl, rfl, fun _ => hsigue (by simp) rfl, by simp [Fase.pidio]⟩
  | limpia => exact ⟨rfl, c, _, rfl, rfl, fun _ => hsigue (by simp) rfl, by simp [Fase.pidio]⟩
  | corta =>
    refine ⟨rfl, c, _, rfl, rfl, fun _ => hsigue (by simp) rfl, fun hpidio => ?_⟩
    split at hpidio
    · cases hpidio
    · cases hpidio

end Giros

/-! ## Steps -/

section Pasos

variable {ent : Memoria.Entorno} {m : Memoria.Estado} {pre : List Paso} {o o₁ : List Salida}
  {h h' : Historia} {s s' : CpuMemoria} {ls ls' : List Llegada} {k : Nat}
  {c c' : TContextoEjecucion} {fase : Fase} {hilo : Clave} {a : Paso}

theorem envio_ejecuta {key : CInt} (h : fase.envio key = true) (i : TInstruccion) :
    fase ≠ .ejecuta i := by
  rintro rfl
  cases h

/-- The bounds, the registers and the PC are the whole context. -/
theorem contexto_unico {c₀ c₁ : TContextoEjecucion} (h : MismoHilo c₀ c) (h' : MismoHilo c₀ c')
    (hc : Reanuda c₁ c) (hc' : Reanuda c₁ c') : c' = c := by
  obtain ⟨hpid, htid, hbase, hlimite⟩ := h
  obtain ⟨hpid', htid', hbase', hlimite'⟩ := h'
  obtain ⟨hregistros, hpc⟩ := hc
  obtain ⟨hregistros', hpc'⟩ := hc'
  cases c
  cases c'
  simp_all

theorem Reposa.mono {x : Memoria.ContextoEjecucion} {o' : List Salida}
    (hr : Reposa ent m pre o s hilo x)
    (hx : hiloDe x.paraCpu = hilo) (a : Paso)
    (hcede : (∀ y ∈ s'.ciclos, hiloDe y.contexto = hilo → y.fase.envio s'.controlKey = true) →
      ∀ y ∈ s.ciclos, hiloDe y.contexto = hilo → y.fase.envio s.controlKey = true)
    (ho : ejecuciones hilo o' = ejecuciones hilo o) :
    Reposa ent m (pre ++ [a]) o' s' hilo x := by
  obtain ⟨⟨d, p, hd, hmismo⟩, hsigue⟩ := hr
  exact ⟨⟨d, p, hd.mono a, hmismo⟩, fun hy => (hsigue (hcede hy)).mono a (by rw [hx, ho])⟩

/-- A thread that sends its syscall: memoria has its context. -/
theorem Transparente.envia {i : TInstruccion} {x : Memoria.ContextoEjecucion}
    (hi : Transparente ent m pre o h s ls) (hn : (pre.filterMap hiloNuevo).Nodup)
    (hgd : Guarda h s ls) (hk : s.ciclos[k]? = some ⟨c, .enviaSyscall i⟩)
    (hx : mapaDe s.memoria.listaContextos (hiloDe c) = some x) : x.paraCpu = c := by
  have hmem : (⟨c, .enviaSyscall i⟩ : Ciclo) ∈ s.ciclos := List.mem_of_getElem? hk
  obtain ⟨c₁, hc₁, y, hy, hguardado⟩ := hgd.suya _ hmem
  obtain ⟨c₂, hc₂, hreanuda⟩ := hi.pidieron _ hmem rfl
  obtain rfl : c₁ = c₂ := Option.some.inj (hc₁.symm.trans hc₂)
  obtain rfl : y = x := Option.some.inj (hy.symm.trans hx)
  obtain ⟨d, p, hd, hc⟩ := hi.vivas _ hmem rfl
  obtain ⟨d', p', hd', hmismo'⟩ := (hi.reposan _ _ hx).nace
  have hmismo := VaSola.mismoHilo hc
  have hclave : hiloDe y.paraCpu = hiloDe c := mapaDe_clave hx
  obtain ⟨rfl, rfl⟩ := hd.unico hn hd'
    ((hmismo'.hiloDe_eq.symm.trans hclave).trans hmismo.hiloDe_eq)
  exact contexto_unico hmismo hmismo' hreanuda hguardado

/-- A step of a thread in its turn. -/
theorem Transparente.gira (hi : Transparente ent m pre o h s ls)
    (hn : (pre.filterMap hiloNuevo).Nodup) (ht : Turno s ls) (hl : Lineas ent pre s ls)
    (hgd : Guarda h s ls) (hk : s.ciclos[k]? = some ⟨c, fase⟩) (hg : Giro s k c fase s' o₁)
    (hv : s'.vivo = true) (hint : fase = .revisa → s.controlKeyInterrupt ≠ 1) (a : Paso) :
    Transparente ent m (pre ++ [a]) (o ++ o₁) (h.anota c fase) s' ls := by
  have hmem : (⟨c, fase⟩ : Ciclo) ∈ s.ciclos := List.mem_of_getElem? hk
  have hvivia := (giro_gira hg hv).vivia
  have hfichas : enVuelo s ls ≤ fase.esperaConfirmacion.toNat :=
    hgd.fichas.trans (Nat.le_of_eq (countP_solo ht.uno hk hvivia rfl))
  obtain ⟨hmemoria, c', fase', hciclos, hhilo, hsigue, hpidio⟩ := hi.giro_sola hn ht hl hk hg hv
  obtain ⟨-, c'', fase'', hciclos', -, -, -, -, henvio⟩ :=
    giro_syscall hg hv hint (hgd.suya _ hmem) hfichas fun hno => (ht.actual _ hmem hno).1
  have hlt : k < s.ciclos.length := (List.getElem?_eq_some_iff.mp hk).1
  have hesta : (⟨c', fase'⟩ : Ciclo) ∈ s'.ciclos := hciclos ▸ List.mem_set hlt _
  obtain ⟨rfl, rfl⟩ : c'' = c' ∧ fase'' = fase' := by
    have hget := congrArg (fun l => l[k]?) (hciclos'.symm.trans hciclos)
    simpa [List.getElem?_set_self hlt] using hget
  -- A thread after the step is `k`, or one that has ended.
  have hcada : ∀ x ∈ s'.ciclos, x = ⟨c'', fase''⟩ ∨ x.fase = .fin := fun x hx =>
    (mem_set_solo ht.uno hk hvivia (hciclos ▸ hx)).imp_right And.right
  have hotra : ∀ x ∈ s.ciclos, x = ⟨c, fase⟩ ∨ x.fase = .fin := by
    intro x hx
    by_cases hfin : x.fase = .fin
    · exact .inr hfin
    · exact .inl (ht.unico hx hmem hfin hvivia)
  constructor
  · exact fun hilo => (hi.giro_trazas hn hl hk hg hilo).mono a rfl
  · rw [hmemoria]
    exact hi.claves
  · intro hilo x hx
    rw [hmemoria] at hx
    have hclave : hiloDe x.paraCpu = hilo := mapaDe_clave hx
    have hreposa := hi.reposan hilo x hx
    by_cases hsuyo : hiloDe c = hilo
    · obtain ⟨⟨d, p, hd, hmismo⟩, hsig⟩ := hreposa
      refine ⟨⟨d, p, hd.mono a, hmismo⟩, fun htodos => ?_⟩
      rcases henvio (htodos _ hesta (hhilo.trans hsuyo)) with hya | ⟨i, rfl⟩
      · -- The thread had sent its syscall.
        refine (hsig fun y hy _ => ?_).mono a (ejecuciones_giro hg o (.inr (envio_ejecuta hya)))
        rcases hotra y hy with rfl | hfin
        · exact hya
        · rw [hfin]
          rfl
      · subst hsuyo
        rw [hi.envia hn hgd hk hx]
        exact (hi.vivas _ hmem rfl).mono a (ejecuciones_giro hg o (.inr (by simp)))
    · refine hreposa.mono hclave a (fun _ y hy hy' => ?_) (ejecuciones_giro hg o (.inl hsuyo))
      rcases hotra y hy with rfl | hfin
      · exact absurd hy' hsuyo
      · rw [hfin]
        rfl
  · intro x hx hx'
    rcases hcada x hx with rfl | hfin
    · exact (hsigue hx').mono a rfl
    · rw [hfin] at hx'
      cases hx'
  · intro x hx hx'
    rcases hcada x hx with rfl | hfin
    · rw [hhilo]
      exact hpidio hx'
    · rw [hfin] at hx'
      cases hx'
  · intro c₁ hc₁
    have hpos : 0 < despachos s ls :=
      Nat.add_pos_right _ (List.countP_pos_iff.mpr ⟨_, hc₁, rfl⟩)
    have hcede := envio_ejecuta (hgd.enviaron hpos _ hmem)
    exact (hi.llegan c₁ hc₁).mono a (ejecuciones_giro hg o (.inr hcede))

/-- A step that is none of a thread, with the contexts that it leaves. -/
theorem Transparente.mono (hi : Transparente ent m pre o h s ls) (a : Paso)
    (hh : h'.ejecutado = h.ejecutado) (hciclos : s'.ciclos = s.ciclos)
    (hclaves : (s'.memoria.listaContextos.map Memoria.ContextoEjecucion.clave).Nodup)
    (hreposan : ∀ hilo x, mapaDe s'.memoria.listaContextos hilo = some x →
      Reposa ent m (pre ++ [a]) o s' hilo x)
    (hc : ∀ c, .contexto c ∈ ls' → .contexto c ∈ ls ∨ VaSola ent m pre o c) :
    Transparente ent m (pre ++ [a]) o h' s' ls' := by
  refine ⟨fun hilo => (hi.trazas hilo).mono a rfl, hclaves, hreposan, ?_, ?_, fun c hc' => ?_⟩
  · rw [hciclos]
    exact fun x hx hsigue => (hi.vivas x hx hsigue).mono a rfl
  · rw [hciclos, hh]
    exact hi.pidieron
  · rcases hc c hc' with hviejo | hnuevo
    · exact (hi.llegan c hviejo).mono a rfl
    · exact hnuevo.mono a rfl

/-- The contexts of memoria that a step leaves. -/
theorem Transparente.quieta (hi : Transparente ent m pre o h s ls) (a : Paso)
    (hciclos : s'.ciclos = s.ciclos) (hkey : s'.controlKey = s.controlKey)
    (x : Memoria.ContextoEjecucion) (hx : mapaDe s.memoria.listaContextos hilo = some x) :
    Reposa ent m (pre ++ [a]) o s' hilo x := by
  refine (hi.reposan hilo x hx).mono (mapaDe_clave hx) a ?_ rfl
  rw [hciclos, hkey]
  exact id

/-- A step that leaves the contexts. -/
theorem Transparente.igual (hi : Transparente ent m pre o h s ls) (a : Paso)
    (hh : h'.ejecutado = h.ejecutado) (hciclos : s'.ciclos = s.ciclos)
    (hkey : s'.controlKey = s.controlKey)
    (hcs : s'.memoria.listaContextos = s.memoria.listaContextos)
    (hc : ∀ c, .contexto c ∈ ls' → .contexto c ∈ ls ∨ VaSola ent m pre o c) :
    Transparente ent m (pre ++ [a]) o h' s' ls' := by
  refine hi.mono a hh hciclos (hcs ▸ hi.claves) (fun hilo x hx => ?_) hc
  exact hi.quieta a hciclos hkey x (hcs ▸ hx)

/-- A context that arrives in its turn. -/
theorem Transparente.recibirContexto (hi : Transparente ent m pre o h s (.contexto c :: ls))
    (hfin : ∀ x ∈ s.ciclos, x.fase = .fin) (a : Paso) :
    Transparente ent m (pre ++ [a]) o h (s.recibir (.contexto c)) ls := by
  have hcada : ∀ x ∈ (s.recibir (.contexto c)).ciclos, x = ⟨c, .inicio⟩ ∨ x.fase = .fin :=
    fun x hx => (mem_recibirContexto hx).imp_right (hfin x)
  refine ⟨fun hilo => (hi.trazas hilo).mono a rfl, hi.claves, fun hilo x hx => ?_, ?_, ?_,
    fun c' hc' => (hi.llegan c' (List.mem_cons_of_mem _ hc')).mono a rfl⟩
  · refine (hi.reposan hilo x hx).mono (mapaDe_clave hx) a (fun _ y hy _ => ?_) rfl
    rw [hfin y hy]
    rfl
  · intro x hx hsigue
    rcases hcada x hx with rfl | hx
    · exact (hi.llegan c List.mem_cons_self).mono a rfl
    · rw [hx] at hsigue
      cases hsigue
  · intro x hx hpidio
    rcases hcada x hx with rfl | hx
    · cases hpidio
    · rw [hx] at hpidio
      cases hpidio

/-- The packet that arrives brings no context. -/
theorem Transparente.recibirOtra {l : Llegada} (hi : Transparente ent m pre o h s (l :: ls))
    (hl : traeContexto l = false) (a : Paso) :
    Transparente ent m (pre ++ [a]) o h (s.recibir l) ls := by
  have hc : ∀ c, .contexto c ∈ ls → .contexto c ∈ l :: ls ∨ VaSola ent m pre o c :=
    fun c hc => .inl (List.mem_cons_of_mem _ hc)
  cases l with
  | contexto c => cases hl
  | instruccion t => exact hi.igual a rfl rfl rfl rfl hc
  | contextoActualizado bit =>
    unfold CpuMemoria.recibir
    dsimp only
    split
    · exact hi.igual a rfl rfl rfl rfl hc
    · exact hi.igual a rfl rfl rfl rfl hc
  | nada => exact hi.igual a rfl rfl rfl rfl hc

/-- An update that was asked for is that of a thread that waits for it. -/
theorem Guarda.espera {d : TContextoEjecucion} (hgd : Guarda h s ls)
    (hd : .actualizarContexto d ∈ s.peticiones) :
    ∃ y ∈ s.ciclos, y.contexto = d ∧ y.fase.envio s.controlKey = false := by
  have hpos : 0 < s.ciclos.countP fun y => y.fase.esperaConfirmacion := by
    refine Nat.lt_of_lt_of_le ?_ hgd.fichas
    unfold enVuelo
    have hpide : 0 < s.peticiones.countP pideActualizar :=
      List.countP_pos_iff.mpr ⟨_, hd, rfl⟩
    omega
  obtain ⟨⟨c, fase⟩, hy, hespera⟩ := List.countP_pos_iff.mp hpos
  cases fase with
  | esperaSyscall i =>
    obtain ⟨c₀, -, -, hpide, -⟩ := hgd.suya _ hy
    exact ⟨_, hy, (hpide d hd).symm, rfl⟩
  | _ => cases hespera

/-- What memoria does to the contexts: it creates one for a `HILO_READY`, stores that of the thread
that waits, and removes some. -/
theorem Transparente.pasoContextos {q : Peticion} {m' : Memoria.Estado}
    (hi : Transparente ent m pre o h s ls) (hn : ((pre ++ [a]).filterMap hiloNuevo).Nodup)
    (hs : Reaches (CpuMemoria.paso ent) (.nueva m) pre s)
    (hpaso : Memoria.PasoContextos s.memoria.listaParticiones s.memoria.listaContextos q
      m'.listaContextos)
    (hcrea : ∀ d, q = .hiloReady d → a = .memoriaKernel q)
    (hguarda : ∀ d, q = .actualizarContexto d →
      ∃ y ∈ s.ciclos, y.contexto = d ∧ y.fase.envio s.controlKey = false)
    (hciclos : s'.ciclos = s.ciclos) (hkey : s'.controlKey = s.controlKey)
    (hm' : s'.memoria = m') (hh : h'.ejecutado = h.ejecutado)
    (hc : ∀ c, .contexto c ∈ ls' → .contexto c ∈ ls ∨ VaSola ent m pre o c) :
    Transparente ent m (pre ++ [a]) o h' s' ls' := by
  subst hm'
  -- A new thread has done nothing, and has no context.
  have hnueva : ∀ d, q = .hiloReady d → (d.PID, d.TID) ∉ pre.filterMap hiloNuevo := by
    intro d hq hmem
    have ha : hiloNuevo a = some (d.PID, d.TID) := by
      rw [hcrea d hq, hq]
      rfl
    rw [List.filterMap_append, List.filterMap_cons_some ha, List.nodup_append] at hn
    exact hn.2.2 _ hmem _ (by simp) rfl
  have hnacio : ∀ d d' p, q = .hiloReady d → Nace ent m pre d' p →
      (d'.PID, d'.TID) ≠ (d.PID, d.TID) := by
    intro d d' p hq hd' he
    exact hnueva d hq (List.mem_filterMap.mpr ⟨_, hd'.mem, congrArg some he⟩)
  have hfuera : ∀ k, q.hiloNuevo = some k →
      k ∉ s.memoria.listaContextos.map Memoria.ContextoEjecucion.clave := by
    intro k hk hmem
    cases q with
    | hiloReady d =>
      cases hk
      obtain ⟨x, hx, hclave⟩ := List.mem_map.mp hmem
      obtain ⟨d', p, hd', hmismo⟩ := (hi.reposan _ x (toMap_of_mem hi.claves hx)).nace
      exact hnacio d d' p rfl hd' (hmismo.hiloDe_eq.symm.trans hclave)
    | _ => cases hk
  obtain ⟨hmapa, hclaves⟩ := Memoria.mapa_paso hpaso hi.claves hfuera
  refine hi.mono a hh hciclos hclaves (fun hilo x hx => ?_) hc
  by_cases hclave : q.clave = some hilo
  · rw [hmapa] at hx
    cases q with
    | hiloReady d =>
      cases hclave
      obtain rfl := hcrea d rfl
      rw [Memoria.Mapa.paso, Function.update_self] at hx
      obtain ⟨p, hp, rfl⟩ := Option.map_eq_some_iff.mp hx
      have hd : Nace ent m (pre ++ [.memoriaKernel (.hiloReady d)]) d p :=
        ⟨pre, s, List.prefix_refl _, hs, hp⟩
      refine ⟨⟨d, p, hd, .refl _⟩, fun _ => ⟨d, p, hd, ?_⟩⟩
      have hnada : ejecuciones (d.PID, d.TID) o = [] := by
        by_contra hne
        obtain ⟨d', p', hd', hk, -⟩ := hi.trazas _ hne
        exact hnacio d d' p' rfl hd' hk.symm
      rw [hnada]
      exact .nil
    | finalizarHilo d =>
      cases hclave
      rw [Memoria.Mapa.paso, Function.update_self] at hx
      cases hx
    | actualizarContexto d =>
      cases hclave
      rw [Memoria.Mapa.paso, Function.update_self] at hx
      obtain ⟨y, hy, rfl⟩ := Option.map_eq_some_iff.mp hx
      obtain ⟨⟨d', p, hd', hmismo⟩, -⟩ := hi.reposan _ y hy
      refine ⟨⟨d', p, hd'.mono a, hmismo⟩, fun htodos => ?_⟩
      -- The thread has not sent its syscall.
      obtain ⟨z, hz, rfl, hno⟩ := hguarda d rfl
      rw [hciclos, hkey] at htodos
      rw [htodos z hz rfl] at hno
      cases hno
    | _ => cases hclave
  · rw [Memoria.mapa_ajeno hpaso hclave] at hx
    exact hi.quieta a hciclos hkey x hx

/-- Memoria handles a request of the CPU. -/
theorem Transparente.responde {q : Peticion} {resto : List Peticion} {m' : Memoria.Estado}
    {flujo : List Byte} {rs : List Llegada} (hi : Transparente ent m pre o h s ls)
    (hn : ((pre ++ [a]).filterMap hiloNuevo).Nodup)
    (hs : Reaches (CpuMemoria.paso ent) (.nueva m) pre s) (hgd : Guarda h s ls)
    (hq : s.peticiones = q :: resto) (hr : Responde ent s.memoria q m' rs) :
    Transparente ent m (pre ++ [a]) o h
      { s with memoria := m', peticiones := resto, flujo } (ls ++ rs) := by
  have hmem : q ∈ s.peticiones := hq ▸ List.mem_cons_self
  have hviejos : rs.countP traeContexto = 0 →
      ∀ c, .contexto c ∈ ls ++ rs → .contexto c ∈ ls ∨ VaSola ent m pre o c := by
    intro hcero c hc
    rcases List.mem_append.mp hc with hc | hc
    · exact .inl hc
    · exact absurd rfl (List.countP_eq_zero.mp hcero _ hc)
  cases hr with
  | calla q => exact hi.igual a rfl rfl rfl rfl (hviejos rfl)
  | contexto d x hx =>
    refine hi.igual a rfl rfl rfl rfl fun c hc => ?_
    rcases List.mem_append.mp hc with hc | hc
    · exact .inl hc
    · cases List.mem_singleton.mp hc
      have hpos : 0 < despachos s ls :=
        Nat.add_pos_left (List.countP_pos_iff.mpr ⟨_, hmem, rfl⟩) _
      exact .inr ((hi.reposan _ x hx).sigue fun y hy _ => hgd.enviaron hpos y hy)
  | actualiza d i x hx =>
    refine hi.pasoContextos hn hs (.actualizar d i x hx) (fun d' hd' => by cases hd')
      (fun d' hd' => ?_) rfl rfl rfl rfl (hviejos rfl)
    cases hd'
    exact hgd.espera hmem
  | instruccion d x t hx ht => exact hi.igual a rfl rfl rfl rfl (hviejos rfl)
  | escribe d bytes => exact hi.igual a rfl rfl rfl rfl (hviejos rfl)
  | lee d => exact hi.igual a rfl rfl rfl rfl (hviejos rfl)

/-- The listener executes nothing. -/
theorem escuchar_nada {basura : Basura} (h : s.escuchar basura = .ok (s', o)) : o = [] := by
  unfold CpuMemoria.escuchar at h
  split at h
  · cases h
  · split at h
    · split at h
      · cases h
        rfl
      · cases h
        rfl
      · split at h
        · cases h
          rfl
        · cases h
    · cases h

/-- **Step.** A step in its turn, without `check_interrupt`, keeps the invariant. -/
theorem Transparente.avance (hi : Transparente ent m pre o h s ls)
    (hn : ((pre ++ [a]).filterMap hiloNuevo).Nodup)
    (hs : Reaches (CpuMemoria.paso ent) (.nueva m) pre s) (ht : Turno s ls)
    (hl : Lineas ent pre s ls) (hgd : Guarda h s ls) (hu : UnoPorVez s a)
    (hint : SinCheckInterrupt s a) (hpaso : s.paso ent a = .ok (s', o₁))
    (hav : Avance ent s ls a s' ls') (hv : s'.vivo = true) :
    Transparente ent m (pre ++ [a]) (o ++ o₁) (Historia.paso s a s' h) s' ls' := by
  have hviejos : ∀ c, .contexto c ∈ ls → .contexto c ∈ ls ∨ VaSola ent m pre o c :=
    fun _ hc => .inl hc
  cases hav with
  | recibirTid pid tid =>
    cases (enCpu_ok hpaso).2
    rw [List.append_nil]
    exact hi.igual _ rfl rfl rfl rfl hviejos
  | interrupcion =>
    cases (enCpu_ok hpaso).2
    rw [List.append_nil]
    exact hi.igual _ rfl rfl rfl rfl hviejos
  | ciclo k c fase s' o' hk _ =>
    obtain ⟨c', fase', hk', hg⟩ := girar_casos (enCpu_ok hpaso).2
    rw [hk] at hk'
    cases hk'
    have hh : Historia.paso s (.ciclo k) s' h = h.anota c fase := by
      unfold Historia.paso
      simp only [hk]
    rw [hh]
    refine hi.gira (hn.sublist ((List.prefix_append _ _).sublist.filterMap _)) ht hl hgd hk hg hv
      (fun hfase => hint ?_) _
    rw [hk, hfase]
    rfl
  | byte basura flujo leido =>
    rw [escuchar_nada (enCpu_ok hpaso).2, List.append_nil]
    exact hi.igual _ rfl rfl rfl rfl hviejos
  | llega basura flujo leido l ls' hls hempieza =>
    rw [escuchar_nada (enCpu_ok hpaso).2, List.append_nil]
    subst hls
    have hi' : Transparente ent m pre o h { s with flujo, leido } (l :: ls') :=
      ⟨hi.trazas, hi.claves, fun hilo x hx => ⟨(hi.reposan hilo x hx).nace,
        (hi.reposan hilo x hx).sigue⟩, hi.vivas, hi.pidieron, hi.llegan⟩
    cases hl : traeContexto l with
    | false => exact hi'.recibirOtra hl _
    | true =>
      cases l with
      | contexto c => exact hi'.recibirContexto (hu (hempieza c rfl)) _
      | _ => cases hl
  | responde malloc q resto m' flujo rs hq hr =>
    obtain rfl := (atenderCpu_ok hpaso).2
    rw [List.append_nil]
    exact hi.responde hn hs hgd hq hr
  | kernel q m' p hq hat =>
    obtain rfl := (atenderKernel_ok hpaso).2
    rw [List.append_nil]
    refine hi.pasoContextos hn hs (Memoria.atender_contextos hat) (fun _ _ => rfl)
      (fun d hd => ?_) rfl rfl rfl ?_ hviejos
    · subst hd
      cases hq
    · cases q with
      | finalizarHilo d => rfl
      | _ => rfl

end Pasos

/-! ## Syscalls -/

/-- The packet of an instruction that is a syscall. -/
def pedido (i : TInstruccion) : List PaqueteSyscall :=
  match executeSyscall i with
  | .ok paquete => paquete.toList
  | .error _ => []

/-- The packets of the syscalls that the thread executed. -/
def pedidos (hilo : Clave) (o : List Salida) : List PaqueteSyscall :=
  (ejecuciones hilo o).flatMap fun x => if x.2.esSyscall then pedido x.2 else []

/-- The packet that the thread sends. -/
def Salida.paquete (hilo : Clave) : Salida → Option PaqueteSyscall
  | .syscall c paquete => if hiloDe c = hilo then some paquete else none
  | _ => none

/-- The packets that the thread sent. -/
def enviados (hilo : Clave) (o : List Salida) : List PaqueteSyscall :=
  o.filterMap (Salida.paquete hilo)

/-- The packet that the thread has not sent yet. -/
def Ciclo.debe (hilo : Clave) (x : Ciclo) : List PaqueteSyscall :=
  match x.fase with
  | .esperaSyscall i | .enviaSyscall i => if hiloDe x.contexto = hilo then pedido i else []
  | _ => []

/-- The packets that the threads of the CPU with this pid and tid have not sent yet. -/
def debidos (hilo : Clave) (s : CpuMemoria) : List PaqueteSyscall :=
  s.ciclos.flatMap (Ciclo.debe hilo)

section Pedidos

variable {s s' : CpuMemoria} {ls : List Llegada} {k : Nat} {c : TContextoEjecucion} {fase : Fase}
  {o o₁ : List Salida} {hilo : Clave} {ent : Memoria.Entorno} {a : Paso}

theorem debe_fin {x : Ciclo} (h : x.fase = .fin) : x.debe hilo = [] := by
  unfold Ciclo.debe
  rw [h]

/-- Only the thread that runs owes a packet. -/
theorem debidos_set {x : Ciclo} (ht : Turno s ls) (hk : s.ciclos[k]? = some x) (hx : x.fase ≠ .fin)
    (y : Ciclo) (hs' : s'.ciclos = s.ciclos.set k y) :
    debidos hilo s = x.debe hilo ∧ debidos hilo s' = y.debe hilo := by
  obtain ⟨antes, despues, hl, hset, hfin⟩ := solo ht.uno hk hx y
  have hnada : ∀ l : List Ciclo, (∀ z ∈ l, z ∈ antes ++ despues) →
      l.flatMap (Ciclo.debe hilo) = [] :=
    fun l h => List.flatMap_eq_nil_iff.mpr fun z hz => debe_fin (hfin z (h z hz))
  have hantes := hnada antes fun z => List.mem_append_left _
  have hdespues := hnada despues fun z => List.mem_append_right _
  unfold debidos
  constructor
  · rw [hl, List.flatMap_append, List.flatMap_cons, hantes, hdespues, List.append_nil,
      List.nil_append]
  · rw [hs', hset, List.flatMap_append, List.flatMap_cons, hantes, hdespues, List.append_nil,
      List.nil_append]

/-- What a step of a thread sends and owes is what it owed and executes. -/
theorem giro_debe (hg : Giro s k c fase s' o) (hv : s'.vivo = true) (hilo : Clave) :
    ∃ c' fase', s'.ciclos = s.ciclos.set k ⟨c', fase'⟩ ∧
      enviados hilo o ++ Ciclo.debe hilo ⟨c', fase'⟩ =
        Ciclo.debe hilo ⟨c, fase⟩ ++ pedidos hilo o := by
  unfold pedidos
  rw [giro_ejecuciones hg]
  cases hg with
  | sigue i c' envios he =>
    refine ⟨c', _, rfl, ?_⟩
    have hno : i.esSyscall = false := by
      by_contra hsi
      rw [execute_of_esSyscall (Bool.eq_true_of_not_eq_false hsi)] at he
      cases he
    show [] = (if hiloDe c = hilo then [(c, i)] else []).flatMap _
    split_ifs
    · simp [hno]
    · rfl
  | llama i c' he =>
    obtain rfl := execute_syscall he
    refine ⟨_, _, rfl, ?_⟩
    show (if hiloDe c = hilo then pedido i else []) =
      (if hiloDe c = hilo then [(c, i)] else []).flatMap _
    split_ifs
    · simp [esSyscall_of_execute he]
    · rfl
  | lee i registro datos he =>
    refine ⟨c, _, rfl, ?_⟩
    have hno : i.esSyscall = false := by
      by_contra hsi
      rw [execute_of_esSyscall (Bool.eq_true_of_not_eq_false hsi)] at he
      cases he
    show [] = (if hiloDe c = hilo then [(c, i)] else []).flatMap _
    split_ifs
    · simp [hno]
    · rfl
  | envia i paquete hp =>
    refine ⟨c, _, rfl, ?_⟩
    show enviados hilo _ ++ [] = (if hiloDe c = hilo then pedido i else []) ++ []
    rw [List.append_nil, List.append_nil, pedido, hp]
    by_cases hhilo : hiloDe c = hilo
    · cases paquete <;> simp [enviados, Salida.paquete, hhilo]
    · cases paquete <;> simp [enviados, Salida.paquete, hhilo]
  | nulo hn => cases hv
  | sale i envios he => cases hv
  | falla i f he => cases hv
  | cae i f hf => cases hv
  | pasa i hsem => exact ⟨c, _, rfl, (List.append_nil _).symm⟩
  | corta =>
    refine ⟨c, _, rfl, ?_⟩
    split
    · rfl
    · rfl
  | _ => exact ⟨c, _, rfl, rfl⟩

/-- Each syscall that a thread executed was sent once, or the thread has it yet to send. -/
def Pagado (o : List Salida) (s : CpuMemoria) : Prop :=
  ∀ hilo, enviados hilo o ++ debidos hilo s = pedidos hilo o

/-- A step of a thread in its turn. -/
theorem Pagado.gira (h : Pagado o s) (ht : Turno s ls) (hk : s.ciclos[k]? = some ⟨c, fase⟩)
    (hg : Giro s k c fase s' o₁) (hv : s'.vivo = true) : Pagado (o ++ o₁) s' := by
  intro hilo
  obtain ⟨c', fase', hciclos, hdebe⟩ := giro_debe hg hv hilo
  obtain ⟨hs, hs'⟩ := debidos_set ht hk (giro_gira hg hv).vivia _ hciclos
  have hantes := h hilo
  have henviados : enviados hilo (o ++ o₁) = enviados hilo o ++ enviados hilo o₁ :=
    List.filterMap_append ..
  have hpedidos : pedidos hilo (o ++ o₁) = pedidos hilo o ++ pedidos hilo o₁ := by
    unfold pedidos
    rw [ejecuciones_append, List.flatMap_append]
  rw [hs] at hantes
  rw [henviados, hpedidos, hs', List.append_assoc, hdebe, ← List.append_assoc, hantes]

/-- A thread that starts owes nothing. -/
theorem debidos_recibir (l : Llegada) : debidos hilo (s.recibir l) = debidos hilo s := by
  cases l with
  | contexto c =>
    show (s.ciclos ++ [_]).flatMap _ = _
    rw [List.flatMap_append]
    exact List.append_nil _
  | contextoActualizado bit =>
    unfold CpuMemoria.recibir
    dsimp only
    split
    · rfl
    · rfl
  | _ => rfl

/-- **Step.** -/
theorem Pagado.avance (h : Pagado o s) (ht : Turno s ls) {ls' : List Llegada}
    (hpaso : s.paso ent a = .ok (s', o₁)) (hav : Avance ent s ls a s' ls')
    (hv : s'.vivo = true) : Pagado (o ++ o₁) s' := by
  cases hav with
  | recibirTid pid tid =>
    cases (enCpu_ok hpaso).2
    rwa [List.append_nil]
  | interrupcion =>
    cases (enCpu_ok hpaso).2
    rwa [List.append_nil]
  | ciclo k c fase s' o' hk _ =>
    obtain ⟨c', fase', hk', hg⟩ := girar_casos (enCpu_ok hpaso).2
    exact h.gira ht hk' hg hv
  | byte basura flujo leido =>
    rw [escuchar_nada (enCpu_ok hpaso).2, List.append_nil]
    exact h
  | llega basura flujo leido l ls' hls hempieza =>
    rw [escuchar_nada (enCpu_ok hpaso).2, List.append_nil]
    exact fun hilo => (congrArg _ (debidos_recibir l)).trans (h hilo)
  | responde malloc q resto m' flujo rs hq hr =>
    obtain rfl := (atenderCpu_ok hpaso).2
    rwa [List.append_nil]
  | kernel q m' p hq hat =>
    obtain rfl := (atenderKernel_ok hpaso).2
    rwa [List.append_nil]

end Pedidos

/-! ## Runs -/

section Corridas

variable {ent : Memoria.Entorno} {m : Memoria.Estado} {as pre : List Paso} {o : List Salida}
  {s : CpuMemoria}

theorem transparente_nueva (h : m.listaContextos = []) :
    Transparente ent m [] [] .vacia (.nueva m) [] := by
  refine ⟨fun hilo hne => absurd rfl hne, ?_, fun hilo x hx => ?_, fun x hx => ?_, fun x hx => ?_,
    fun c hc => ?_⟩
  · show (m.listaContextos.map _).Nodup
    rw [h]
    exact List.nodup_nil
  · replace hx : mapaDe m.listaContextos hilo = some x := hx
    rw [h] at hx
    cases hx
  · cases hx
  · cases hx
  · cases hc

/-- The threads take turns, one is dispatched at a time, and none executes `check_interrupt`. -/
def DeAUno (s : CpuMemoria) (a : Paso) : Prop :=
  EnOrden s a ∧ UnDespacho s a ∧ SinCheckInterrupt s a

instance (s : CpuMemoria) (a : Paso) : Decidable (DeAUno s a) :=
  inferInstanceAs (Decidable (_ ∧ _ ∧ _))

/-- The invariant holds while the CPU is on. -/
theorem transparente_corrida (hlineas : LineasCortas ent) (hcs : m.listaContextos = [])
    (hn : (as.filterMap hiloNuevo).Nodup)
    (h : EveryStep (CpuMemoria.paso ent) (.nueva m) as fun _ => DeAUno)
    (hr : run (CpuMemoria.paso ent) (.nueva m) as = .ok (s, o)) (hv : s.vivo = true) :
    ∃ ls, Lineas ent as s ls ∧ Pagado o s ∧
      Transparente ent m as o (historia ent (.nueva m) as) s ls := by
  obtain ⟨ls, -, -, hl, -, hi⟩ := invariante_corrida
    (C := fun pre s a => (UnDespacho s a ∧ SinCheckInterrupt s a) ∧
      ((pre ++ [a]).filterMap hiloNuevo).Nodup)
    (J := fun pre s ls => Lineas ent pre s ls ∧ Guarda (historia ent (.nueva m) pre) s ls ∧
      ∀ o, run (CpuMemoria.paso ent) (.nueva m) pre = .ok (s, o) →
        Pagado o s ∧ Transparente ent m pre o (historia ent (.nueva m) pre) s ls)
    hlineas
    (fun pre s a r hpre hs ha => ⟨(h pre s a r hpre hs ha).1, (h pre s a r hpre hs ha).2,
      hn.sublist (hpre.sublist.filterMap _)⟩)
    ⟨lineas_nueva hcs, guarda_nueva m, fun o ho => by
      cases ho
      exact ⟨fun _ => rfl, transparente_nueva hcs⟩⟩
    (fun pre s ls a s' ls' o hs hpaso ht hJ hu hC hav hv => by
      obtain ⟨hl, hgd, hi⟩ := hJ
      have hh : historia ent (.nueva m) (pre ++ [a]) =
          Historia.paso s a s' (historia ent (.nueva m) pre) := history_snoc hs hpaso
      rw [hh]
      refine ⟨hl.avance ht hav hv, hgd.avance ht hu hC.1.1 hC.1.2 hav hv, fun o' ho' => ?_⟩
      obtain ⟨o₁, o₂, hpre, hultimo, rfl⟩ := run_snoc_of hs ho'
      rw [hpaso] at hultimo
      cases hultimo
      obtain ⟨hpagado, htransparente⟩ := hi o₁ hpre
      exact ⟨hpagado.avance ht hpaso hav hv,
        htransparente.avance hC.2 hs ht hl hgd hu hC.1.2 hpaso hav hv⟩)
    ⟨o, hr⟩ hv
  exact ⟨ls, hl, hi o hr⟩

/-- What the threads executed is what they execute alone, also when the CPU has ended. -/
theorem trazas_corrida (hlineas : LineasCortas ent) (hcs : m.listaContextos = [])
    (hn : (as.filterMap hiloNuevo).Nodup)
    (h : EveryStep (CpuMemoria.paso ent) (.nueva m) as fun _ => DeAUno)
    (hr : run (CpuMemoria.paso ent) (.nueva m) as = .ok (s, o)) (hilo : Clave) :
    TrazaSola ent m as o hilo := by
  induction as using List.reverseRecOn generalizing s o with
  | nil =>
    cases hr
    exact fun hne => absurd rfl hne
  | append_singleton as a ih =>
    have hn' : (as.filterMap hiloNuevo).Nodup :=
      hn.sublist ((List.prefix_append _ _).sublist.filterMap _)
    have h' := h.restrict (List.prefix_append as [a])
    obtain ⟨s₁, o₁, o₂, hpre, hultimo, rfl⟩ := run_append_ok.mp hr
    obtain ⟨s₂, o₃, o₄, hpaso, hnil, rfl⟩ := run_cons_ok.mp hultimo
    cases hnil
    rw [List.append_nil]
    by_cases hnada : o₃ = []
    · rw [hnada]
      exact (ih hn' h' hpre).mono a (by rw [List.append_nil])
    · -- A thread of a CPU that is on.
      obtain ⟨x, hx⟩ := List.exists_mem_of_ne_nil _ hnada
      obtain ⟨hvivo, k, c, fase, hk, hg⟩ := paso_salida hpaso hx
      obtain ⟨ls, hl, -, hi⟩ := transparente_corrida hlineas hcs hn' h' hpre hvivo
      exact (hi.giro_trazas hn' hl hk hg hilo).mono a rfl

/-- **Context switches are transparent.** In a run from the start of the CPU and memoria that
creates each thread once, with one thread dispatched at a time and no `check_interrupt`: what each
thread executed is what it executes alone, from registers and PC 0 in the partition that its process
had when it was created, whatever the other threads did in between. And as long as the CPU is on,
the syscalls that it executed are those that it sent, in the same order, and the one it is about to
send. -/
theorem conmutacion_transparente (basura : Nat → Uint32) (memoria : Nat → Byte)
    (hlineas : LineasCortas ent) (hn : (as.filterMap hiloNuevo).Nodup)
    (h : EveryStep (CpuMemoria.paso ent)
      (.nueva (Memoria.estadoInicial ent.toConfigMemoria basura memoria)) as fun _ => DeAUno)
    (hr : run (CpuMemoria.paso ent)
      (.nueva (Memoria.estadoInicial ent.toConfigMemoria basura memoria)) as = .ok (s, o))
    (hilo : Clave) :
    TrazaSola ent (Memoria.estadoInicial ent.toConfigMemoria basura memoria) as o hilo ∧
      (s.vivo = true → enviados hilo o ++ debidos hilo s = pedidos hilo o) := by
  refine ⟨trazas_corrida hlineas rfl hn h hr hilo, fun hv => ?_⟩
  obtain ⟨ls, -, hpagado, -⟩ := transparente_corrida hlineas rfl hn h hr hv
  exact hpagado hilo

end Corridas

/-- Thread `k` of the CPU gets a context and executes one syscall. -/
def turnoCompleto (tid : Uint32) (k : Nat) : List Paso :=
  despacha tid ++ .ciclo k :: atiendeYEscucha 17 ++ List.replicate 3 (.ciclo k) ++
    atiendeYEscucha 12 ++ List.replicate 5 (.ciclo k)

/-- Thread 0 goes on after a turn of thread 1. -/
def corridaAlternada : List Paso :=
  dosHilosListos ++ turnoCompleto 0 0 ++ turnoCompleto 1 1 ++ turnoCompleto 0 2

theorem conmutacion_transparente_alternada :
    let ent := entornoCpu "IO 1\nIO 2".toList
    ∃ s o, run (CpuMemoria.paso ent) cpuCero corridaAlternada = .ok (s, o) ∧
      (ejecuciones (1, 0) o).map (·.1.PC) = [0, 1] ∧
      TrazaSola ent (Memoria.estadoInicial ent.toConfigMemoria (fun _ => 0) fun _ => 0)
        corridaAlternada o (1, 0) ∧
      enviados (1, 0) o ++ debidos (1, 0) s = pedidos (1, 0) o := by
  intro ent
  have hcorrida : ∃ s o, run (CpuMemoria.paso ent) cpuCero corridaAlternada = .ok (s, o) ∧
      (s.vivo, (ejecuciones (1, 0) o).map (·.1.PC)) = (true, [0, 1]) :=
    run_of_map
      (g := fun r : CpuMemoria × List Salida =>
        (r.1.vivo, (ejecuciones (1, 0) r.2).map (·.1.PC)))
      (by decide +kernel)
  obtain ⟨s, o, hr, hvista⟩ := hcorrida
  obtain ⟨hvivo, hpcs⟩ := Prod.mk.inj hvista
  obtain ⟨htraza, henviados⟩ := conmutacion_transparente (fun _ => 0) (fun _ => 0)
    (lineasCortas_entornoCpu (by decide)) (by decide) (.of_check (by decide +kernel)) hr (1, 0)
  exact ⟨s, o, hr, hpcs, htraza, henviados hvivo⟩

end LastOfC.Cpu
