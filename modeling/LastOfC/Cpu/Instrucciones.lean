import Mathlib.Data.List.Forall2
import Mathlib.Logic.Function.Basic
import LastOfC.Cpu.Ciclo

/-!
# The instruction set of the CPU

`Maquina` says what the instructions `SET`, `SUM`, `SUB`, `JNZ` and `LOG` are for, over registers
and a program counter, and `Linea` which texts they are. `iteraciones` is the CPU: fetch, decode
and execute, with memoria returning the line at the PC.

* `execute_linea`: the CPU does what the machine does, for every instruction but `JNZ`.
* `execute_salto`: `JNZ` writes to the address `PC`, and the CPU crashes.
* `cpu_iff`: `n` iterations are those of the machine exactly when none of them is a `JNZ`.
-/

namespace LastOfC.Cpu

open Libc

/-! ## The machine -/

inductive Instruccion where
  | set (r : Registro) (n : Nat)
  | sum (destino origen : Registro)
  | sub (destino origen : Registro)
  | jnz (r : Registro) (k : Nat)
  | log (r : Registro)
  deriving DecidableEq, Repr

structure Maquina where
  registros : Registro → Uint32
  pc : Uint32

def Instruccion.paso (m : Maquina) : Instruccion → Maquina
  | .set r n =>
    { registros := Function.update m.registros r (BitVec.ofNat 32 n), pc := m.pc + 1 }
  | .sum d o =>
    { registros := Function.update m.registros d (m.registros d + m.registros o), pc := m.pc + 1 }
  | .sub d o =>
    { registros := Function.update m.registros d (m.registros d - m.registros o), pc := m.pc + 1 }
  | .jnz r k => { m with pc := if m.registros r = 0 then m.pc + 1 else BitVec.ofNat 32 k }
  | .log _ => { m with pc := m.pc + 1 }

/-- The machine after `n` instructions, or none if it leaves the program. -/
def correr (programa : List Instruccion) : Nat → Maquina → Option Maquina
  | 0, m => some m
  | n + 1, m => programa[m.pc.toNat]?.bind fun i => correr programa n (i.paso m)

/-- The instructions that the machine executes in `n` steps. -/
def ejecutadas (programa : List Instruccion) : Nat → Maquina → List Instruccion
  | 0, _ => []
  | n + 1, m =>
    match programa[m.pc.toNat]? with
    | some i => i :: ejecutadas programa n (i.paso m)
    | none => []

def Instruccion.esSalto : Instruccion → Bool
  | .jnz _ _ => true
  | _ => false

/-! ## The text of an instruction -/

def Registro.nombre : Registro → Cadena
  | .AX => "AX".toList
  | .BX => "BX".toList
  | .CX => "CX".toList
  | .DX => "DX".toList
  | .EX => "EX".toList
  | .FX => "FX".toList
  | .GX => "GX".toList
  | .HX => "HX".toList

theorem obtenerRegistro_nombre (r : Registro) : obtenerRegistro r.nombre = some r := by
  cases r <;> rfl

theorem nombre_ne_PC (r : Registro) : r.nombre ≠ "PC".toList := by
  cases r <;> simp [Registro.nombre]

/-- The line `l` is the instruction. -/
inductive Linea : Cadena → Instruccion → Prop
  | set {l w : Cadena} {n : Nat} (r : Registro) (hn : n < 2 ^ 31) (hw : Decimal w n)
      (h : Words ' ' l ["SET".toList, r.nombre, w]) : Linea l (.set r n)
  | sum {l : Cadena} (d o : Registro) (h : Words ' ' l ["SUM".toList, d.nombre, o.nombre]) :
      Linea l (.sum d o)
  | sub {l : Cadena} (d o : Registro) (h : Words ' ' l ["SUB".toList, d.nombre, o.nombre]) :
      Linea l (.sub d o)
  | jnz {l w : Cadena} {k : Nat} (r : Registro) (hk : k < 2 ^ 31) (hw : Decimal w k)
      (h : Words ' ' l ["JNZ".toList, r.nombre, w]) : Linea l (.jnz r k)
  | log {l : Cadena} (r : Registro) (h : Words ' ' l ["LOG".toList, r.nombre]) : Linea l (.log r)

/-! ## The CPU -/

/-- Why an iteration does not return. -/
inductive Parada where
  | espera
  | salida
  | falla (f : Falla)
  deriving DecidableEq, Repr

/-- What memoria returns for a PC. -/
def lineaEn (lineas : List Cadena) (PC : Uint32) : Option Cadena := lineas[PC.toNat]?

section Cpu

variable (parteActual : ParticionMemoria) (PidHilo TidHilo : Uint32)

/-- One iteration of `ciclo_de_instruccion`, without interrupts. -/
def iteracion (lineas : List Cadena) (contexto : TContextoEjecucion) :
    Except Parada TContextoEjecucion :=
  match lineaEn lineas contexto.PC with
  | none => .error .espera
  | some instruccionActual =>
    match execute parteActual PidHilo (decode instruccionActual PidHilo TidHilo) contexto with
    | .sigue contexto _ => .ok contexto
    | .syscall _ => .error .espera
    | .lee _ _ => .error .espera
    | .sale _ => .error .salida
    | .cae f => .error (.falla f)

/-- `n` iterations. -/
def iteraciones (lineas : List Cadena) : Nat → TContextoEjecucion →
    Except Parada TContextoEjecucion
  | 0, contexto => .ok contexto
  | n + 1, contexto =>
    match iteracion parteActual PidHilo TidHilo lineas contexto with
    | .ok contexto => iteraciones lineas n contexto
    | .error p => .error p

/-- The registers and the PC of a context. -/
def maquinaDe (contexto : TContextoEjecucion) : Maquina :=
  { registros := fun r => r.valor contexto.RegistrosCPU, pc := contexto.PC }

/-! ## One instruction -/

section Instrucciones

variable {l a b c : Cadena} {i : Instruccion} {contexto : TContextoEjecucion}

/-- A text of three words, taken apart. -/
theorem separar_tres (h : Words ' ' l [a, b, c]) :
    (separar l PidHilo TidHilo).operacion = a ∧ (separar l PidHilo TidHilo).operando1 = b ∧
      (separar l PidHilo TidHilo).operando2 = c := by
  obtain ⟨r₁, h₁, hr₁⟩ := strtok_word h
  obtain ⟨r₂, h₂, hr₂⟩ := strtok_word hr₁
  obtain ⟨r₃, h₃, -⟩ := strtok_word hr₂
  unfold separar
  simp only [h₁, h₂, h₃, tokenODefecto, Option.getD_some, and_self]

/-- A text of two words. -/
theorem separar_dos (h : Words ' ' l [a, b]) :
    (separar l PidHilo TidHilo).operacion = a ∧ (separar l PidHilo TidHilo).operando1 = b ∧
      (separar l PidHilo TidHilo).operando2 = [] := by
  obtain ⟨r₁, h₁, hr₁⟩ := strtok_word h
  obtain ⟨r₂, h₂, hr₂⟩ := strtok_word hr₁
  obtain ⟨h₃, -⟩ := strtok_none hr₂
  unfold separar
  simp only [h₁, h₂, h₃, tokenODefecto, Option.getD_some, Option.getD_none, and_self]

/-- The operations of the machine are no syscalls. -/
theorem clasificar_eq {t : TInstruccion}
    (h : t.operacion ∈ ["SET".toList, "SUM".toList, "SUB".toList, "JNZ".toList, "LOG".toList]) :
    clasificar t = t := by
  unfold clasificar
  simp only [List.mem_cons, List.not_mem_nil, or_false] at h
  rcases h with h | h | h | h | h <;> simp [h]

/-- The three words of an instruction of the machine, decoded. -/
theorem decode_tres (h : Words ' ' l [a, b, c])
    (ha : a ∈ ["SET".toList, "SUM".toList, "SUB".toList, "JNZ".toList, "LOG".toList]) :
    (decode l PidHilo TidHilo).esSyscall = false ∧ (decode l PidHilo TidHilo).operacion = a ∧
      (decode l PidHilo TidHilo).operando1 = b ∧ (decode l PidHilo TidHilo).operando2 = c := by
  obtain ⟨h₁, h₂, h₃⟩ := separar_tres PidHilo TidHilo h
  unfold decode
  rw [clasificar_eq (h₁ ▸ ha)]
  exact ⟨rfl, h₁, h₂, h₃⟩

/-- The two words of a `LOG`, decoded. -/
theorem decode_dos (h : Words ' ' l ["LOG".toList, b]) :
    (decode l PidHilo TidHilo).esSyscall = false ∧
      (decode l PidHilo TidHilo).operacion = "LOG".toList ∧
      (decode l PidHilo TidHilo).operando1 = b ∧ (decode l PidHilo TidHilo).operando2 = [] := by
  obtain ⟨h₁, h₂, h₃⟩ := separar_dos PidHilo TidHilo h
  unfold decode
  rw [clasificar_eq (by simp [h₁])]
  exact ⟨rfl, h₁, h₂, h₃⟩

theorem avanzarPc_of_ne {t : TInstruccion} (h : t.operando2 ≠ "PC".toList)
    (contexto : TContextoEjecucion) :
    t.avanzarPc contexto = { contexto with PC := contexto.PC + 1 } := by
  unfold TInstruccion.avanzarPc
  rw [if_pos h]

/-- The context after an instruction that leaves these registers. -/
def siguiente (contexto : TContextoEjecucion) (registros : RegistrosCPU) : TContextoEjecucion :=
  { contexto with RegistrosCPU := registros, PC := contexto.PC + 1 }

/-- Digits are no `PC`. -/
theorem decimal_ne_PC {w : Cadena} {n : Nat} (h : Decimal w n) : w ≠ "PC".toList := by
  rintro rfl
  exact absurd (h.2.1 'P' (by decide)) (by decide)

theorem setRegistro_nombre (r : Registro) {w : Cadena} {n : Nat} (hn : n < 2 ^ 31)
    (hw : Decimal w n) (registros : RegistrosCPU) :
    setRegistro r.nombre w registros = r.asignar registros (BitVec.ofNat 32 n) := by
  unfold setRegistro
  rw [obtenerRegistro_nombre, atoi_decimal hw (by omega)]

theorem operarRegistros_nombre (op : Uint32 → Uint32 → Uint32) (d o : Registro)
    (registros : RegistrosCPU) : operarRegistros op d.nombre o.nombre registros =
      d.asignar registros (op (d.valor registros) (o.valor registros)) := by
  unfold operarRegistros
  rw [obtenerRegistro_nombre, obtenerRegistro_nombre]

theorem registros_asignar (r : Registro) (registros : RegistrosCPU) (valor : Uint32) :
    (fun r' : Registro => r'.valor (r.asignar registros valor)) =
      Function.update (fun r' => r'.valor registros) r valor := by
  funext r'
  rw [Registro.valor_asignar, Function.update_apply]

/-- **One instruction.** -/
theorem execute_linea (h : Linea l i) (hi : i.esSalto = false) :
    ∃ contexto', execute parteActual PidHilo (decode l PidHilo TidHilo) contexto =
      .sigue contexto' [] ∧ maquinaDe contexto' = i.paso (maquinaDe contexto) := by
  cases h with
  | @set w n r hn hw h =>
    obtain ⟨hs, hop, h₁, h₂⟩ := decode_tres PidHilo TidHilo h (by simp)
    have hpc := avanzarPc_of_ne (h₂ ▸ decimal_ne_PC hw)
    refine ⟨siguiente contexto (r.asignar contexto.RegistrosCPU (BitVec.ofNat 32 n)), ?_, ?_⟩
    · simp [execute, hs, hop, h₁, h₂, hpc, setRegistro_nombre r hn hw, siguiente]
    · simp only [maquinaDe, siguiente, Instruccion.paso, registros_asignar]
  | sum d o h =>
    obtain ⟨hs, hop, h₁, h₂⟩ := decode_tres PidHilo TidHilo h (by simp)
    have hpc := avanzarPc_of_ne (h₂ ▸ nombre_ne_PC o)
    refine ⟨siguiente contexto (sumRegistro d.nombre o.nombre contexto.RegistrosCPU), ?_, ?_⟩
    · simp [execute, hs, hop, h₁, h₂, hpc, siguiente]
    · simp only [maquinaDe, siguiente, Instruccion.paso, sumRegistro, operarRegistros_nombre,
        registros_asignar]
  | sub d o h =>
    obtain ⟨hs, hop, h₁, h₂⟩ := decode_tres PidHilo TidHilo h (by simp)
    have hpc := avanzarPc_of_ne (h₂ ▸ nombre_ne_PC o)
    refine ⟨siguiente contexto (subRegistro d.nombre o.nombre contexto.RegistrosCPU), ?_, ?_⟩
    · simp [execute, hs, hop, h₁, h₂, hpc, siguiente]
    · simp only [maquinaDe, siguiente, Instruccion.paso, subRegistro, operarRegistros_nombre,
        registros_asignar]
  | jnz => cases hi
  | log r h =>
    obtain ⟨hs, hop, h₁, h₂⟩ := decode_dos PidHilo TidHilo h
    have hpc : (decode l PidHilo TidHilo).avanzarPc contexto = _ :=
      avanzarPc_of_ne (by simp [h₂]) contexto
    refine ⟨siguiente contexto contexto.RegistrosCPU, ?_, rfl⟩
    simp [execute, hs, hop, h₁, hpc, logRegistro, obtenerRegistro_nombre, siguiente]

/-- `JNZ` writes to the address `PC`. -/
theorem execute_salto (h : Linea l i) (hi : i.esSalto = true) :
    execute parteActual PidHilo (decode l PidHilo TidHilo) contexto = .cae .punteroInvalido := by
  cases h with
  | jnz r hk hw h =>
    obtain ⟨hs, hop, h₁, -⟩ := decode_tres PidHilo TidHilo h (by simp)
    unfold execute jnzRegistro
    rw [hs, hop, h₁, obtenerRegistro_nombre]
    simp
  | _ => cases hi

end Instrucciones

/-! ## Runs -/

section Corridas

variable {programa : List Instruccion} {lineas : List Cadena} {contexto : TContextoEjecucion}
  {i : Instruccion} {m : Maquina}

/-- An iteration on a line of the program. -/
theorem iteracion_linea (h : List.Forall₂ Linea lineas programa)
    (hi : programa[contexto.PC.toNat]? = some i) :
    (i.esSalto = false ∧ ∃ contexto', iteracion parteActual PidHilo TidHilo lineas contexto =
      .ok contexto' ∧ maquinaDe contexto' = i.paso (maquinaDe contexto)) ∨
    (i.esSalto = true ∧ iteracion parteActual PidHilo TidHilo lineas contexto =
      .error (.falla .punteroInvalido)) := by
  obtain ⟨hlt, rfl⟩ := List.getElem?_eq_some_iff.mp hi
  have hlt' : contexto.PC.toNat < lineas.length := h.length_eq ▸ hlt
  have hlinea : Linea lineas[contexto.PC.toNat] programa[contexto.PC.toNat] :=
    List.forall₂_iff_get.mp h |>.2 _ hlt' hlt
  have hen : lineaEn lineas contexto.PC = some lineas[contexto.PC.toNat] :=
    List.getElem?_eq_getElem hlt'
  unfold iteracion
  rw [hen]
  cases hs : programa[contexto.PC.toNat].esSalto with
  | false =>
    obtain ⟨c', hc', hm⟩ := execute_linea parteActual PidHilo TidHilo hlinea hs
    refine .inl ⟨rfl, c', ?_, hm⟩
    simp only [hc']
  | true =>
    refine .inr ⟨rfl, ?_⟩
    simp only [execute_salto parteActual PidHilo TidHilo hlinea hs]

/-- **The CPU implements its instruction set exactly where no `JNZ` is executed.** Along `n` steps
that the machine makes, `n` iterations of the CPU lead to the same registers and PC if and only if
none of the instructions is a `JNZ`. -/
theorem cpu_iff {n : Nat} (h : List.Forall₂ Linea lineas programa)
    (hm : correr programa n (maquinaDe contexto) = some m) :
    (∃ contexto', iteraciones parteActual PidHilo TidHilo lineas n contexto = .ok contexto' ∧
      maquinaDe contexto' = m) ↔
    ∀ i ∈ ejecutadas programa n (maquinaDe contexto), i.esSalto = false := by
  induction n generalizing contexto with
  | zero =>
    cases hm
    exact ⟨fun _ i hi => absurd hi List.not_mem_nil, fun _ => ⟨contexto, rfl, rfl⟩⟩
  | succ n ih =>
    obtain ⟨i, hi, hm⟩ := Option.bind_eq_some_iff.mp hm
    have hejecutadas : ejecutadas programa (n + 1) (maquinaDe contexto) =
        i :: ejecutadas programa n (i.paso (maquinaDe contexto)) := by
      simp only [ejecutadas, hi]
    rw [hejecutadas, List.forall_mem_cons]
    unfold iteraciones
    rcases iteracion_linea parteActual PidHilo TidHilo h hi with ⟨hs, c', hc', hm'⟩ | ⟨hs, hc'⟩
    · simp only [hc', hs, true_and, ← hm']
      exact ih (hm' ▸ hm)
    · simp only [hc', hs]
      constructor
      · rintro ⟨_, h, -⟩
        cases h
      · rintro ⟨h, -⟩
        cases h

end Corridas

end Cpu

/-- Three words with a blank between them. -/
theorem words_tres (a b c : Cadena) (h : ∀ w ∈ [a, b, c], w ≠ [] ∧ ' ' ∉ w) :
    Words ' ' (a ++ ' ' :: (b ++ ' ' :: c)) [a, b, c] := by
  obtain ⟨ha, ha'⟩ := h a (by simp)
  obtain ⟨hb, hb'⟩ := h b (by simp)
  obtain ⟨hc, hc'⟩ := h c (by simp)
  exact .append ha ha' (.append hb hb' (.word hc hc'))

/-- 5 + 2 in `AX`, and 2 less that in `BX`. -/
def lineasCuenta : List Cadena :=
  ["SET AX 5".toList, "SET BX 2".toList, "SUM AX BX".toList, "SUB BX AX".toList]

def programaCuenta : List Instruccion := [.set .AX 5, .set .BX 2, .sum .AX .BX, .sub .BX .AX]

theorem lineas_cuenta : List.Forall₂ Linea lineasCuenta programaCuenta := by
  have h₁ : Linea "SET AX 5".toList (.set .AX 5) :=
    .set .AX (by omega) (⟨by simp, by simp, rfl⟩ : Decimal "5".toList 5)
      (words_tres "SET".toList "AX".toList "5".toList (by simp))
  have h₂ : Linea "SET BX 2".toList (.set .BX 2) :=
    .set .BX (by omega) (⟨by simp, by simp, rfl⟩ : Decimal "2".toList 2)
      (words_tres "SET".toList "BX".toList "2".toList (by simp))
  have h₃ : Linea "SUM AX BX".toList (.sum .AX .BX) :=
    .sum .AX .BX (words_tres "SUM".toList "AX".toList "BX".toList (by simp))
  have h₄ : Linea "SUB BX AX".toList (.sub .BX .AX) :=
    .sub .BX .AX (words_tres "SUB".toList "BX".toList "AX".toList (by simp))
  exact .cons h₁ (.cons h₂ (.cons h₃ (.cons h₄ .nil)))

/-- The CPU computes 7 and -5. -/
theorem cpu_cuenta : ∃ m c', correr programaCuenta 4 (maquinaDe ⟨0, .cero, 0, 0, 0, 1⟩) = some m ∧
    m.registros .AX = 7 ∧ m.registros .BX = -5 ∧
      iteraciones ⟨0, 0⟩ 1 0 lineasCuenta 4 ⟨0, .cero, 0, 0, 0, 1⟩ = .ok c' ∧ maquinaDe c' = m := by
  obtain ⟨m, hm, hAX, hBX⟩ : ∃ m,
      correr programaCuenta 4 (maquinaDe ⟨0, .cero, 0, 0, 0, 1⟩) = some m ∧
        m.registros .AX = 7 ∧ m.registros .BX = -5 := ⟨_, rfl, rfl, rfl⟩
  obtain ⟨c', hc, hmaquina⟩ := (cpu_iff ⟨0, 0⟩ 1 0 lineas_cuenta hm).mpr (by decide)
  exact ⟨m, c', hm, hAX, hBX, hc, hmaquina⟩

/-! ## The failing input -/

/-- A loop of one instruction, with 1 in `AX`. -/
def contextoUno : TContextoEjecucion := ⟨0, { RegistrosCPU.cero with AX := 1 }, 0, 0, 0, 1⟩

theorem linea_jnz : Linea "JNZ AX 0".toList (.jnz .AX 0) :=
  .jnz .AX (by omega) (⟨by simp, by simp, rfl⟩ : Decimal "0".toList 0)
    (words_tres "JNZ".toList "AX".toList "0".toList (by simp))

/-- The machine stays at 0, and the CPU crashes. -/
theorem cpu_salto :
    ¬ ∀ (lineas : List Cadena) (programa : List Instruccion) (n : Nat) (m : Maquina)
        (parteActual : ParticionMemoria) (PidHilo TidHilo : Uint32)
        (contexto : TContextoEjecucion), List.Forall₂ Linea lineas programa →
      correr programa n (maquinaDe contexto) = some m →
      ∃ contexto', iteraciones parteActual PidHilo TidHilo lineas n contexto = .ok contexto' ∧
        maquinaDe contexto' = m := by
  intro h
  obtain ⟨c, hc, -⟩ := h ["JNZ AX 0".toList] [.jnz .AX 0] 1 _ ⟨0, 0⟩ 1 0 contextoUno
    (.cons linea_jnz .nil) rfl
  have hcae : iteraciones ⟨0, 0⟩ 1 0 ["JNZ AX 0".toList] 1 contextoUno =
      .error (.falla .punteroInvalido) := by decide
  rw [hcae] at hc
  cases hc

end LastOfC.Cpu
