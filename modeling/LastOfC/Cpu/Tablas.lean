import LastOfC.Cpu.Instrucciones

/-!
# The three tables of operations (`ciclo_de_instruccion.c`, `c_conexiones.c` of cpu)

`decode`, `execute` and `execute_syscall` compare the operation with their own names.

* `operacionesDecode`, `operacionesExecute` and `operacionesSyscall`: the names of each of them.
* `Rama`: the branch that `execute` takes. `execute_rama`.
* `paqueteDe`: what a syscall should send, from the words of its line.
* `Coinciden`: the three agree on a line. `coinciden_iff`: they do unless its first word is one of
  five, which `decode` leaves out or misspells.
* `iteraciones_distinta`: at a syscall that `decode` leaves out the cycle does not move.
-/

namespace LastOfC.Cpu

open Libc

/-! ## The names -/

/-- The operations that `decode` marks as syscalls. -/
def operacionesDecode : List Cadena :=
  ["THREAD_CREATE".toList, "PROCESS_CREATE".toList, "IO".toList, "MUTEX_CREATE".toList,
    "MUTEX_LOCK".toList, "MUTEX_UNLOCK".toList, "THREAD_JOIN".toList, "TRHEAD_CANCEL".toList]

/-- The operations of `execute`. -/
def operacionesExecute : List Cadena :=
  ["SET".toList, "SUM".toList, "SUB".toList, "JNZ".toList, "LOG".toList, "WRITE_MEM".toList,
    "READ_MEM".toList]

/-- The operations of `execute_syscall`. -/
def operacionesSyscall : List Cadena :=
  ["PROCESS_CREATE".toList, "IO".toList, "THREAD_CREATE".toList, "THREAD_JOIN".toList,
    "THREAD_CANCEL".toList, "MUTEX_CREATE".toList, "MUTEX_LOCK".toList, "MUTEX_UNLOCK".toList,
    "DUMP_MEMORY".toList, "THREAD_EXIT".toList, "PROCESS_EXIT".toList]

/-- The operations on which `decode` and `execute_syscall` differ. -/
def operacionesDistintas : List Cadena :=
  ["THREAD_CANCEL".toList, "DUMP_MEMORY".toList, "THREAD_EXIT".toList, "PROCESS_EXIT".toList,
    "TRHEAD_CANCEL".toList]

section Tablas

variable {i : TInstruccion} {l : Cadena} {PidHilo TidHilo : Uint32}

theorem clasificar_esSyscall (h : i.esSyscall = false) :
    (clasificar i).esSyscall = true ↔ i.operacion ∈ operacionesDecode := by
  unfold clasificar
  split_ifs with h₁ h₂ h₃ h₄ h₅
  · exact iff_of_true rfl (by rw [h₁]; decide)
  · exact iff_of_true rfl (by rw [h₂]; decide)
  · exact iff_of_true rfl (by rw [h₃]; decide)
  · rcases h₄ with h | h | h <;> exact iff_of_true rfl (by rw [h]; decide)
  · rcases h₅ with h | h <;> exact iff_of_true rfl (by rw [h]; decide)
  · rw [not_or, not_or] at h₄
    rw [not_or] at h₅
    refine iff_of_false (by simp [h]) ?_
    simp only [operacionesDecode, List.mem_cons, List.not_mem_nil, or_false, not_or]
    exact ⟨h₁, h₂, h₃, h₄.1, h₄.2.1, h₄.2.2, h₅.1, h₅.2⟩

theorem clasificar_operacion (i : TInstruccion) : (clasificar i).operacion = i.operacion := by
  unfold clasificar
  split_ifs <;> rfl

/-- A chain of comparisons ends in `d` where none of the names matches. -/
theorem ite_eq_iff {α : Type} {op nombre : Cadena} {nombres : List Cadena} {x y d : α}
    (hx : x ≠ d) (hy : y = d ↔ op ∉ nombres) :
    (if op = nombre then x else y) = d ↔ op ∉ nombre :: nombres := by
  rw [List.mem_cons, not_or]
  split
  case isTrue h => exact iff_of_false hx fun hop => hop.1 h
  case isFalse h => rw [hy, and_iff_right h]

/-- The two agree on an operation where it is none of the five. -/
theorem operaciones_iff (op : Cadena) :
    (op ∈ operacionesDecode ↔ op ∈ operacionesSyscall) ↔ op ∉ operacionesDistintas := by
  have hdistintas : ∀ c ∈ operacionesDistintas, ¬(c ∈ operacionesDecode ↔ c ∈ operacionesSyscall) :=
    by decide
  have hdecode : ∀ c ∈ operacionesDecode, c ∉ operacionesDistintas → c ∈ operacionesSyscall := by
    decide
  have hsyscall : ∀ c ∈ operacionesSyscall, c ∉ operacionesDistintas → c ∈ operacionesDecode := by
    decide
  exact ⟨fun h hop => hdistintas op hop h, fun h => ⟨fun hd => hdecode op hd h,
    fun hs => hsyscall op hs h⟩⟩

/-! ## The branches of `execute` -/

inductive Rama where
  | syscall | set | sum | sub | jnz | log | writeMem | readMem
  | desconocida
  deriving DecidableEq, Repr

/-- The chain of `strcmp`s of `execute`. -/
def rama (i : TInstruccion) : Rama :=
  if i.esSyscall then .syscall
  else if i.operacion = "SET".toList then .set
  else if i.operacion = "SUM".toList then .sum
  else if i.operacion = "SUB".toList then .sub
  else if i.operacion = "JNZ".toList then .jnz
  else if i.operacion = "LOG".toList then .log
  else if i.operacion = "WRITE_MEM".toList then .writeMem
  else if i.operacion = "READ_MEM".toList then .readMem
  else .desconocida

/-- What `execute` does in a branch. -/
def Rama.accion (parteActual : ParticionMemoria) (PidHilo : Uint32) (i : TInstruccion)
    (contexto : TContextoEjecucion) : Rama → Accion
  | .syscall => .syscall { contexto with PC := contexto.PC + 1 }
  | .set => .sigue (i.avanzarPc { contexto with
      RegistrosCPU := setRegistro i.operando1 i.operando2 contexto.RegistrosCPU }) []
  | .sum => .sigue (i.avanzarPc { contexto with
      RegistrosCPU := sumRegistro i.operando1 i.operando2 contexto.RegistrosCPU }) []
  | .sub => .sigue (i.avanzarPc { contexto with
      RegistrosCPU := subRegistro i.operando1 i.operando2 contexto.RegistrosCPU }) []
  | .jnz =>
    match jnzRegistro i.operando1 with
    | .ok _ => .sigue contexto []
    | .error falla => .cae falla
  | .log =>
    match logRegistro i.operando1 with
    | .ok _ => .sigue (i.avanzarPc contexto) []
    | .error falla => .cae falla
  | .writeMem =>
    match Cpu.writeMem parteActual PidHilo i.operando1 i.operando2 contexto with
    | .ok envios => .sigue (i.avanzarPc contexto) envios
    | .error envios => .sale envios
  | .readMem =>
    match Cpu.readMem parteActual PidHilo i.operando1 i.operando2 contexto with
    | .ok (some (registro, datos)) => .lee registro datos
    | .ok none => .sigue (i.avanzarPc contexto) []
    | .error envios => .sale envios
  | .desconocida => .sigue contexto []

theorem execute_rama (parteActual : ParticionMemoria) (PidHilo : Uint32) (i : TInstruccion)
    (contexto : TContextoEjecucion) :
    execute parteActual PidHilo i contexto =
      (rama i).accion parteActual PidHilo i contexto := by
  unfold execute rama
  split_ifs <;> rfl

theorem rama_desconocida (i : TInstruccion) :
    rama i = .desconocida ↔ i.esSyscall = false ∧ i.operacion ∉ operacionesExecute := by
  unfold rama operacionesExecute
  cases i.esSyscall with
  | true => exact iff_of_false nofun nofun
  | false =>
    rw [if_neg Bool.false_ne_true, and_iff_right rfl]
    refine ite_eq_iff nofun (ite_eq_iff nofun (ite_eq_iff nofun (ite_eq_iff nofun
      (ite_eq_iff nofun (ite_eq_iff nofun (ite_eq_iff nofun ?_))))))
    exact iff_of_true rfl List.not_mem_nil

/-! ## A line -/

/-- The packet that a syscall should send, from the words of its line. -/
def paqueteDe (PID TID : Uint32) (operacion operando1 operando2 operando3 : Cadena) :
    Option PaqueteSyscall :=
  if operacion = "PROCESS_CREATE".toList then
    some (.processCreate ⟨PID, TID, operando1, atoi operando2, atoi operando3⟩)
  else if operacion = "IO".toList then some (.io ⟨PID, TID, atoi operando1⟩)
  else if operacion = "THREAD_CREATE".toList then
    some (.threadCreate ⟨PID, TID, operando1, atoi operando2⟩)
  else if operacion = "THREAD_JOIN".toList then some (.threadJoin ⟨PID, TID, atoi operando1⟩)
  else if operacion = "THREAD_CANCEL".toList then some (.threadCancel ⟨PID, TID, atoi operando1⟩)
  else if operacion = "MUTEX_CREATE".toList then some (.mutexCreate ⟨PID, TID, operando1⟩)
  else if operacion = "MUTEX_LOCK".toList then some (.mutexLock ⟨PID, TID, operando1⟩)
  else if operacion = "MUTEX_UNLOCK".toList then some (.mutexUnlock ⟨PID, TID, operando1⟩)
  else if operacion = "DUMP_MEMORY".toList then some (.dumpMemory ⟨PID, TID⟩)
  else if operacion = "THREAD_EXIT".toList then some (.threadExit ⟨PID, TID⟩)
  else if operacion = "PROCESS_EXIT".toList then some (.processExit ⟨PID, TID⟩)
  else none

/-- The word of a line at a position, or the empty one. -/
def palabra (l : Cadena) (n : Nat) : Cadena := (words ' ' l).getD n []

/-- `decode` takes the words in order. -/
theorem separar_palabra (l : Cadena) (PidHilo TidHilo : Uint32) :
    (separar l PidHilo TidHilo).operacion = palabra l 0 ∧
      (separar l PidHilo TidHilo).operando1 = palabra l 1 ∧
      (separar l PidHilo TidHilo).operando2 = palabra l 2 ∧
      (separar l PidHilo TidHilo).operando3 = palabra l 3 := by
  obtain ⟨h₁, hr₁⟩ := strtok_words ' ' l
  obtain ⟨h₂, hr₂⟩ := strtok_words ' ' (strtok ' ' l).2
  obtain ⟨h₃, hr₃⟩ := strtok_words ' ' (strtok ' ' (strtok ' ' l).2).2
  obtain ⟨h₄, -⟩ := strtok_words ' ' (strtok ' ' (strtok ' ' (strtok ' ' l).2).2).2
  rw [hr₁] at h₂ hr₂
  rw [hr₂] at h₃ hr₃
  rw [hr₃] at h₄
  simp only [separar, tokenODefecto, palabra, h₁, h₂, h₃, h₄, List.getD_eq_getElem?_getD,
    List.head?_eq_getElem?, List.getElem?_tail, and_self]

theorem decode_operacion (l : Cadena) (PidHilo TidHilo : Uint32) :
    (decode l PidHilo TidHilo).operacion = palabra l 0 := by
  rw [decode, clasificar_operacion, (separar_palabra l PidHilo TidHilo).1]

theorem decode_esSyscall (l : Cadena) (PidHilo TidHilo : Uint32) :
    (decode l PidHilo TidHilo).esSyscall = true ↔ palabra l 0 ∈ operacionesDecode := by
  rw [decode, clasificar_esSyscall rfl, (separar_palabra l PidHilo TidHilo).1]

/-- `execute_syscall` sends the operands where `decode` marks the operation under its name. -/
theorem executeSyscall_clasificar (h : i.operacion ∈ operacionesDecode)
    (hd : i.operacion ∉ operacionesDistintas) : executeSyscall (clasificar i) =
      .ok (paqueteDe i.PID i.TID i.operacion i.operando1 i.operando2 i.operando3) := by
  simp only [operacionesDecode, List.mem_cons, List.not_mem_nil, or_false] at h
  rcases h with h | h | h | h | h | h | h | h
  case inr.inr.inr.inr.inr.inr.inr => exact absurd (by rw [h]; decide) hd
  all_goals simp [executeSyscall, clasificar, paqueteDe, leerPuntero, bind, Except.bind, pure,
    Except.pure, h]

/-- The three agree on what a syscall is. -/
structure Coinciden (l : Cadena) (PidHilo TidHilo : Uint32) : Prop where
  marca : (decode l PidHilo TidHilo).esSyscall = true ↔ palabra l 0 ∈ operacionesSyscall
  campos : palabra l 0 ∈ operacionesSyscall → executeSyscall (decode l PidHilo TidHilo) =
    .ok (paqueteDe PidHilo TidHilo (palabra l 0) (palabra l 1) (palabra l 2) (palabra l 3))
  conocida : palabra l 0 ∈ operacionesExecute ∨ palabra l 0 ∈ operacionesSyscall →
    rama (decode l PidHilo TidHilo) ≠ .desconocida

/-- **The tables agree on all lines but those of five words.** `decode` marks the lines that
`execute_syscall` handles, with the operands that it sends, and `execute` knows the lines of both,
exactly where the first word is neither one that `decode` leaves out nor the one it misspells. -/
theorem coinciden_iff (l : Cadena) (PidHilo TidHilo : Uint32) :
    Coinciden l PidHilo TidHilo ↔ palabra l 0 ∉ operacionesDistintas := by
  have hmarca := decode_esSyscall l PidHilo TidHilo
  constructor
  · intro h
    exact (operaciones_iff _).mp (hmarca.symm.trans h.marca)
  · intro hd
    have htablas := (operaciones_iff _).mpr hd
    refine ⟨hmarca.trans htablas, fun hop => ?_, fun hop hr => ?_⟩
    · obtain ⟨h₀, h₁, h₂, h₃⟩ := separar_palabra l PidHilo TidHilo
      have hpaquete := executeSyscall_clasificar (i := separar l PidHilo TidHilo)
        (h₀ ▸ htablas.mpr hop) (h₀ ▸ hd)
      rw [h₀, h₁, h₂, h₃] at hpaquete
      exact hpaquete
    · obtain ⟨hs, hexecute⟩ := (rama_desconocida _).mp hr
      rw [decode_operacion] at hexecute
      have hsyscall := htablas.mpr (hop.resolve_left hexecute)
      exact Bool.false_ne_true (hs.symm.trans (hmarca.mpr hsyscall))

/-! ## The cycle on a line that is not known -/

variable {lineas : List Cadena} {contexto : TContextoEjecucion}

/-- It fetches the line again and again. -/
theorem iteraciones_desconocida (parteActual : ParticionMemoria)
    (h : lineaEn lineas contexto.PC = some l)
    (hr : rama (decode l PidHilo TidHilo) = .desconocida) (n : Nat) :
    iteraciones parteActual PidHilo TidHilo lineas n contexto = .ok contexto := by
  have hpaso : iteracion parteActual PidHilo TidHilo lineas contexto = .ok contexto := by
    simp only [iteracion, h, execute_rama, hr, Rama.accion]
  induction n with
  | zero => rfl
  | succ n ih =>
    rw [iteraciones, hpaso]
    exact ih

/-- Those are the four syscalls that `decode` leaves out. -/
theorem iteraciones_distinta (parteActual : ParticionMemoria)
    (h : lineaEn lineas contexto.PC = some l) (hop : palabra l 0 ∈ operacionesSyscall)
    (hd : palabra l 0 ∈ operacionesDistintas) (n : Nat) :
    iteraciones parteActual PidHilo TidHilo lineas n contexto = .ok contexto := by
  have hdecode : palabra l 0 ∉ operacionesDecode := fun hdec =>
    (operaciones_iff _).mp (iff_of_true hdec hop) hd
  have hexecute : ∀ c ∈ operacionesSyscall, c ∉ operacionesExecute := by decide
  refine iteraciones_desconocida parteActual h ((rama_desconocida _).mpr ⟨?_, ?_⟩) n
  · rw [← Bool.not_eq_true, decode_esSyscall]
    exact hdecode
  · rw [decode_operacion]
    exact hexecute _ hop

end Tablas

/-! ## The failing input -/

/-- `execute` does not know `THREAD_EXIT`. -/
theorem coinciden_exit :
    ¬ ∀ (l : Cadena) (PidHilo TidHilo : Uint32), Coinciden l PidHilo TidHilo := by
  intro h
  exact (h "THREAD_EXIT".toList 1 0).conocida (.inr (by decide)) (by decide)

end LastOfC.Cpu
