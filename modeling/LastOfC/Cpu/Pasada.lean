import LastOfC.Cpu.Conmutacion
import LastOfC.Cpu.Tablas

/-!
# A thread passes once over its program (`ciclo_de_instruccion.c`)

`execute` adds 1 to the PC or leaves it, and a `JNZ` that would jump crashes the CPU. So a thread
does not come back to a line.

* `avanza`: the CPU gets past a line. `pasada`: how many lines it gets past from the first on.
* `efecto`: what a line does to the registers.
* `UnaPasada`: what a thread executed is one line after the other, up to the first that it does not
  get past, and then that one over and over.
* `una_pasada`: so it is for each thread of a run, and the syscalls that it makes are those of these
  lines, each once, in the order of the text (`CorrePrograma`).
-/

namespace LastOfC.Cpu

open Trace
open Memoria (obtenerInstruccionPorPc pathCompleto contextoEsperado Particion Clave)

/-! ## A line -/

/-- `execute` adds 1 to the PC. -/
def TInstruccion.avanza (i : TInstruccion) : Bool :=
  match rama i with
  | .syscall => true
  | .jnz | .desconocida => false
  | _ => i.operando2 ≠ "PC".toList

/-- What `execute` does to the registers, up to a `recv`. -/
def TInstruccion.efecto (i : TInstruccion) (registros : RegistrosCPU) : RegistrosCPU :=
  match rama i with
  | .set => setRegistro i.operando1 i.operando2 registros
  | .sum => sumRegistro i.operando1 i.operando2 registros
  | .sub => subRegistro i.operando1 i.operando2 registros
  | _ => registros

section Linea

variable {i : TInstruccion} {c c' : TContextoEjecucion} {envios : List Envio}
  {parteActual : ParticionMemoria} {PidHilo : Uint32}

/-- The context with which the thread goes on. -/
def Accion.sigueCon : Accion → Option TContextoEjecucion
  | .sigue c _ | .syscall c => some c
  | _ => none

theorem avanzarPc_eq (i : TInstruccion) (c : TContextoEjecucion) :
    (i.avanzarPc c).PC = (if decide (i.operando2 ≠ "PC".toList) = true then c.PC + 1 else c.PC) ∧
      (i.avanzarPc c).RegistrosCPU = c.RegistrosCPU := by
  unfold TInstruccion.avanzarPc
  by_cases h : i.operando2 ≠ "PC".toList
  · rw [if_pos h, if_pos (decide_eq_true h)]
    exact ⟨rfl, rfl⟩
  · rw [if_neg h, if_neg (by simpa using h)]
    exact ⟨rfl, rfl⟩

/-- **One instruction.** -/
theorem execute_efecto (h : (execute parteActual PidHilo i c).sigueCon = some c') :
    c'.PC = (if i.avanza then c.PC + 1 else c.PC) ∧
      c'.RegistrosCPU = i.efecto c.RegistrosCPU := by
  rw [execute_rama] at h
  unfold TInstruccion.avanza TInstruccion.efecto
  cases hr : rama i with
  | syscall =>
    rw [hr] at h
    cases h
    exact ⟨rfl, rfl⟩
  | set =>
    rw [hr] at h
    cases h
    exact avanzarPc_eq i _
  | sum =>
    rw [hr] at h
    cases h
    exact avanzarPc_eq i _
  | sub =>
    rw [hr] at h
    cases h
    exact avanzarPc_eq i _
  | jnz =>
    rw [hr] at h
    simp only [Rama.accion] at h
    split at h
    · cases h
      exact ⟨rfl, rfl⟩
    · cases h
  | log =>
    rw [hr] at h
    simp only [Rama.accion] at h
    split at h
    · cases h
      exact avanzarPc_eq i _
    · cases h
  | writeMem =>
    rw [hr] at h
    simp only [Rama.accion] at h
    split at h
    · cases h
      exact avanzarPc_eq i _
    · cases h
  | readMem =>
    rw [hr] at h
    simp only [Rama.accion] at h
    split at h
    · cases h
    · cases h
      exact avanzarPc_eq i _
    · cases h
  | desconocida =>
    rw [hr] at h
    cases h
    exact ⟨rfl, rfl⟩

end Linea

/-! ## A program -/

/-- The CPU gets past the line. -/
def avanza (t : Cadena) : Bool := (decode t 0 0).avanza

/-- What the line does to the registers. -/
def efecto (registros : RegistrosCPU) (t : Cadena) : RegistrosCPU := (decode t 0 0).efecto registros

/-- How many lines the CPU gets past, from the first on. -/
def pasada (programa : List Cadena) : Nat := (programa.takeWhile avanza).length

/-- The line that a thread executes in its step `j`. -/
def lineaEnPaso (programa : List Cadena) (j : Nat) : Option Cadena :=
  programa[min j (pasada programa)]?

/-- The registers with which a thread starts its step `j`. -/
def registrosEnPaso (programa : List Cadena) (j : Nat) : RegistrosCPU :=
  ((List.range j).filterMap (lineaEnPaso programa)).foldl efecto .cero

/-- The packets of the syscalls among the lines that the CPU gets past, in the first `n` steps. -/
def pedidosDePasada (programa : List Cadena) (PID TID : Uint32) (n : Nat) : List PaqueteSyscall :=
  ((programa.takeWhile avanza).take n).flatMap fun t =>
    if (decode t PID TID).esSyscall then pedido (decode t PID TID) else []

/-- What a thread executed is one pass over its program. -/
def UnaPasada (programa : List Cadena) (PID TID : Uint32)
    (xs : List (TContextoEjecucion × TInstruccion)) : Prop :=
  ∀ j c i, xs[j]? = some (c, i) →
    c.PC.toNat = min j (pasada programa) ∧ c.RegistrosCPU = registrosEnPaso programa j ∧
      ∃ t, lineaEnPaso programa j = some t ∧ i = decode t PID TID

section Programa

variable {programa : List Cadena} {t : Cadena} {PID TID : Uint32} {j n : Nat}

/-- The pid and the tid change nothing else. -/
theorem decode_conHilo (t : Cadena) (PID TID : Uint32) :
    decode t PID TID = { decode t 0 0 with PID := PID, TID := TID } := by
  have hclasificar : ∀ i : TInstruccion, clasificar { i with PID := PID, TID := TID } =
      { clasificar i with PID := PID, TID := TID } := by
    intro i
    unfold clasificar
    split_ifs <;> rfl
  exact hclasificar (separar t 0 0)

theorem avanza_decode (t : Cadena) (PID TID : Uint32) : (decode t PID TID).avanza = avanza t := by
  rw [decode_conHilo]
  rfl

theorem efecto_decode (t : Cadena) (PID TID : Uint32) (registros : RegistrosCPU) :
    (decode t PID TID).efecto registros = efecto registros t := by
  rw [decode_conHilo]
  rfl

theorem takeWhile_getElem? (hj : j < pasada programa) :
    (programa.takeWhile avanza)[j]? = programa[j]? := by
  obtain ⟨resto, hresto⟩ := List.takeWhile_prefix (p := avanza) (l := programa)
  rw [← List.getElem?_append_left hj, hresto]

/-- The CPU gets past each line before `pasada`. -/
theorem avanza_of_lt (hj : j < pasada programa) : ∃ t, programa[j]? = some t ∧ avanza t = true := by
  have hget : (programa.takeWhile avanza)[j]? = some (programa.takeWhile avanza)[j] :=
    List.getElem?_eq_getElem hj
  exact ⟨_, (takeWhile_getElem? hj).symm.trans hget,
    List.mem_takeWhile_imp (List.mem_of_getElem? hget)⟩

/-- And not past the next one. -/
theorem avanza_pasada (h : programa[pasada programa]? = some t) : avanza t = false := by
  induction programa with
  | nil => cases h
  | cons a l ih =>
    unfold pasada at h ih
    rw [List.takeWhile_cons] at h
    split at h
    · exact ih h
    · rename_i ha
      obtain rfl : a = t := Option.some.inj h
      simpa using ha

/-- The CPU gets past a syscall. -/
theorem esSyscall_of_avanza (h : avanza t = false) : (decode t PID TID).esSyscall = false := by
  by_contra hno
  rw [Bool.not_eq_false] at hno
  have hrama : rama (decode t PID TID) = .syscall := if_pos hno
  rw [← avanza_decode t PID TID, TInstruccion.avanza, hrama] at h
  cases h

end Programa

/-! ## A thread alone -/

/-- The lines of a program, as memoria returns them. -/
def lineasDe (ent : Memoria.Entorno) (path : Cadena) : List Cadena :=
  match ent.archivos (pathCompleto ent.toConfigMemoria path) with
  | some archivo => (Memoria.lineas archivo).map Memoria.strdup
  | none => []

theorem obtenerInstruccionPorPc_lineasDe (ent : Memoria.Entorno) (PC : Uint32) (path : Cadena) :
    obtenerInstruccionPorPc ent PC path = (lineasDe ent path)[PC.toNat]? := by
  unfold obtenerInstruccionPorPc lineasDe
  cases ent.archivos (pathCompleto ent.toConfigMemoria path) <;> rfl

/-- The PC and the registers of a thread. -/
def vista (c : TContextoEjecucion) : Nat × RegistrosCPU := (c.PC.toNat, c.RegistrosCPU)

/-- The PC and the registers after one step. -/
def vistaSiguiente (programa : List Cadena) (x : Nat × RegistrosCPU) : Nat × RegistrosCPU :=
  match programa[x.1]? with
  | some t => (if avanza t then x.1 + 1 else x.1, efecto x.2 t)
  | none => x

/-- After `j` steps the thread is at the line of step `j`, with the registers of step `j`. -/
theorem vistaSiguiente_iterate (programa : List Cadena) (j : Nat) :
    (vistaSiguiente programa)^[j] (0, .cero) =
      (min j (pasada programa), registrosEnPaso programa j) := by
  induction j with
  | zero => simp [registrosEnPaso]
  | succ j ih =>
    rw [Function.iterate_succ_apply', ih]
    have hregistros : registrosEnPaso programa (j + 1) =
        (lineaEnPaso programa j).elim (registrosEnPaso programa j)
          (efecto (registrosEnPaso programa j)) := by
      unfold registrosEnPaso
      rw [List.range_succ, List.filterMap_append, List.foldl_append]
      cases hl : lineaEnPaso programa j <;> simp [hl]
    rw [hregistros]
    unfold vistaSiguiente
    rcases Nat.lt_or_ge j (pasada programa) with hj | hj
    · obtain ⟨t, ht, hav⟩ := avanza_of_lt hj
      have hlinea : lineaEnPaso programa j = some t := by
        rw [lineaEnPaso, Nat.min_eq_left hj.le, ht]
      rw [hlinea, Nat.min_eq_left hj.le, Nat.min_eq_left hj]
      simp [ht, hav]
    · have hmin : min j (pasada programa) = pasada programa := Nat.min_eq_right hj
      rw [lineaEnPaso, hmin, Nat.min_eq_right (Nat.le_succ_of_le hj)]
      cases ht : programa[pasada programa]? with
      | none => simp
      | some t => simp [avanza_pasada ht]

section Solas

variable {ent : Memoria.Entorno} {path : Cadena} {c c' : TContextoEjecucion}

/-- **One step alone.** -/
theorem aSolas_paso {x : TContextoEjecucion × TInstruccion} {r : Option TContextoEjecucion}
    (h : aSolas ent path c = some (x, r)) :
    ∃ t, (lineasDe ent path)[c.PC.toNat]? = some t ∧ x = (c, decode t c.pid c.TID) ∧
      r = (execute ⟨c.base, c.limite⟩ c.pid (decode t c.pid c.TID) c).sigueCon := by
  obtain ⟨t, ht, hx⟩ := Option.map_eq_some_iff.mp h
  obtain ⟨rfl, rfl⟩ := Prod.mk.inj hx
  refine ⟨t, (obtenerInstruccionPorPc_lineasDe ent c.PC path).symm.trans ht, rfl, ?_⟩
  cases execute ⟨c.base, c.limite⟩ c.pid (decode t c.pid c.TID) c <;> rfl

theorem aSolas_vista (hlargo : (lineasDe ent path).length < 2 ^ 32)
    {x : TContextoEjecucion × TInstruccion} (h : aSolas ent path c = some (x, some c')) :
    vista c' = vistaSiguiente (lineasDe ent path) (vista c) := by
  obtain ⟨t, ht, -, hr⟩ := aSolas_paso h
  obtain ⟨hpc, hregistros⟩ := execute_efecto hr.symm
  have hlt : c.PC.toNat + 1 < 2 ^ 32 :=
    Nat.lt_of_le_of_lt (List.getElem?_eq_some_iff.mp ht).1 hlargo
  rw [avanza_decode] at hpc
  rw [efecto_decode] at hregistros
  unfold vista vistaSiguiente
  simp only [ht]
  refine Prod.ext ?_ hregistros
  show c'.PC.toNat = _
  rw [hpc]
  split
  · rw [BitVec.toNat_add]
    exact Nat.mod_eq_of_lt hlt
  · rfl

/-- **A thread alone passes once over its program.** -/
theorem unaPasada_trace (hlargo : (lineasDe ent path).length < 2 ^ 32) (hpc : c.PC = 0)
    (hregistros : c.RegistrosCPU = .cero) (n : Nat) :
    UnaPasada (lineasDe ent path) c.pid c.TID (Solo.trace (aSolas ent path) n c) := by
  intro j c₁ i hj
  obtain ⟨s, r, hafter, hs⟩ := Solo.trace_get hj
  have hvista := Solo.after_view (fun s b s' => aSolas_vista hlargo) hafter
  have hc : vista c = (0, .cero) := by
    unfold vista
    rw [hpc, hregistros]
    rfl
  rw [hc, vistaSiguiente_iterate] at hvista
  obtain ⟨hpos, hregs⟩ := Prod.mk.inj hvista
  have hilo : MismoHilo c s := Solo.after_keeps (I := MismoHilo c) hafter (.refl c)
    fun _ _ _ hs hI => hI.trans (aSolas_mismoHilo hs)
  obtain ⟨t, ht, hx, -⟩ := aSolas_paso hs
  obtain ⟨rfl, rfl⟩ := Prod.mk.inj hx
  refine ⟨hpos, hregs, t, ?_, ?_⟩
  · rw [lineaEnPaso, ← hpos, ht]
  · rw [hilo.1, hilo.2.1]

/-- The syscalls of a pass. -/
theorem UnaPasada.pedidos {programa : List Cadena} {PID TID : Uint32}
    {xs : List (TContextoEjecucion × TInstruccion)} (h : UnaPasada programa PID TID xs) :
    (xs.flatMap fun x => if x.2.esSyscall then pedido x.2 else []) =
      pedidosDePasada programa PID TID xs.length := by
  induction xs using List.reverseRecOn with
  | nil => simp [pedidosDePasada]
  | append_singleton xs x ih =>
    obtain ⟨c, i⟩ := x
    have hxs : UnaPasada programa PID TID xs := fun j c i hj =>
      h j c i (by rw [List.getElem?_append_left (List.getElem?_eq_some_iff.mp hj).1, hj])
    obtain ⟨-, -, t, ht, rfl⟩ := h xs.length c i List.getElem?_concat_length
    rw [List.flatMap_append, ih hxs, List.length_append, List.length_singleton]
    unfold pedidosDePasada
    rcases Nat.lt_or_ge xs.length (pasada programa) with hlt | hge
    · rw [lineaEnPaso, Nat.min_eq_left hlt.le, ← takeWhile_getElem? hlt] at ht
      rw [List.take_add_one, ht, List.flatMap_append]
      simp
    · rw [lineaEnPaso, Nat.min_eq_right hge] at ht
      rw [List.take_of_length_le hge, List.take_of_length_le (Nat.le_succ_of_le hge)]
      simp [esSyscall_of_avanza (avanza_pasada ht)]

end Solas

/-! ## Runs -/

section Corridas

variable {ent : Memoria.Entorno} {m : Memoria.Estado} {as : List Paso} {o : List Salida}
  {s : CpuMemoria}

/-- What a thread executed is one pass over its program, and what it sent and owes are the syscalls
of this pass. -/
def CorrePrograma (ent : Memoria.Entorno) (m : Memoria.Estado) (as : List Paso) (o : List Salida)
    (s : CpuMemoria) (hilo : Clave) : Prop :=
  ∃ d p, Nace ent m as d p ∧ hilo = (d.PID, d.TID) ∧
    UnaPasada (lineasDe ent d.path) d.PID d.TID (ejecuciones hilo o) ∧
    (s.vivo = true → enviados hilo o ++ debidos hilo s =
      pedidosDePasada (lineasDe ent d.path) d.PID d.TID (ejecuciones hilo o).length)

theorem correPrograma_corrida (hlineas : LineasCortas ent)
    (hlargo : ∀ path, (lineasDe ent path).length < 2 ^ 32) (hcs : m.listaContextos = [])
    (hn : (as.filterMap hiloNuevo).Nodup)
    (h : EveryStep (CpuMemoria.paso ent) (.nueva m) as fun _ => DeAUno)
    (hr : run (CpuMemoria.paso ent) (.nueva m) as = .ok (s, o)) (hilo : Clave)
    (hne : ejecuciones hilo o ≠ []) : CorrePrograma ent m as o s hilo := by
  obtain ⟨d, p, hd, hhilo, htraza⟩ := trazas_corrida hlineas hcs hn h hr hilo hne
  have hpasada : UnaPasada (lineasDe ent d.path) d.PID d.TID (ejecuciones hilo o) := by
    rw [htraza]
    exact unaPasada_trace (c := contextoEsperado d p []) (hlargo d.path) rfl rfl _
  refine ⟨d, p, hd, hhilo, hpasada, fun hv => ?_⟩
  obtain ⟨ls, -, hpagado, -⟩ := transparente_corrida hlineas hcs hn h hr hv
  rw [hpagado hilo, ← hpasada.pedidos]
  rfl

/-- **One pass.** In a run from the start of the CPU and memoria that creates each thread once, with
one thread dispatched at a time and no `check_interrupt`: what each thread executed is one pass over
the program of its `HILO_READY`, that is, one line after the other up to the first that the CPU does
not get past, and then this one. So no line that the CPU gets past is executed twice. As long as the
CPU is on, the packets that it sent for the thread, and the one that it is about to send, are those
of the syscalls among these lines, each once and in the order of the text. -/
theorem una_pasada (basura : Nat → Uint32) (memoria : Nat → Byte)
    (hlineas : LineasCortas ent) (hlargo : ∀ path, (lineasDe ent path).length < 2 ^ 32)
    (hn : (as.filterMap hiloNuevo).Nodup)
    (h : EveryStep (CpuMemoria.paso ent)
      (.nueva (Memoria.estadoInicial ent.toConfigMemoria basura memoria)) as fun _ => DeAUno)
    (hr : run (CpuMemoria.paso ent)
      (.nueva (Memoria.estadoInicial ent.toConfigMemoria basura memoria)) as = .ok (s, o))
    (hilo : Clave) (hne : ejecuciones hilo o ≠ []) :
    CorrePrograma ent (Memoria.estadoInicial ent.toConfigMemoria basura memoria) as o s hilo :=
  correPrograma_corrida hlineas hlargo rfl hn h hr hilo hne

end Corridas

theorem lineasDe_entornoCpu {archivo : Cadena} (h : (Memoria.lineas archivo).length < 2 ^ 32)
    (path : Cadena) : (lineasDe (entornoCpu archivo) path).length < 2 ^ 32 := by
  show ((Memoria.lineas archivo).map Memoria.strdup).length < 2 ^ 32
  rwa [List.length_map]

theorem una_pasada_alternada :
    let ent := entornoCpu "IO 1\nIO 2".toList
    ∃ s o, run (CpuMemoria.paso ent) cpuCero corridaAlternada = .ok (s, o) ∧ s.vivo = true ∧
      (ejecuciones (1, 0) o).length = 2 ∧
      CorrePrograma ent (Memoria.estadoInicial ent.toConfigMemoria (fun _ => 0) fun _ => 0)
        corridaAlternada o s (1, 0) := by
  intro ent
  obtain ⟨s, o, hr, hvista⟩ : ∃ s o, run (CpuMemoria.paso ent) cpuCero corridaAlternada =
      .ok (s, o) ∧ (s.vivo, (ejecuciones (1, 0) o).length) = (true, 2) :=
    run_of_map
      (g := fun r : CpuMemoria × List Salida => (r.1.vivo, (ejecuciones (1, 0) r.2).length))
      (by decide +kernel)
  obtain ⟨hvivo, hdos⟩ := Prod.mk.inj hvista
  exact ⟨s, o, hr, hvivo, hdos, una_pasada (fun _ => 0) (fun _ => 0)
    (lineasCortas_entornoCpu (by decide)) (lineasDe_entornoCpu (by decide)) (by decide)
    (.of_check (by decide +kernel)) hr (1, 0) (List.ne_nil_of_length_pos (hdos ▸ Nat.two_pos))⟩

end LastOfC.Cpu
