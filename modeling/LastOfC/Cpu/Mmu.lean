import LastOfC.Memoria.Servidor

/-!
# The MMU of the CPU (`c_conexiones.c` of cpu)

* `obtenerRegistro`: a register by its name.
* `mmu`: the translation of an address, and the check against `parteActual`. `mmu_eq` says over
  the naturals which addresses get through.
* `writeMem`: the instruction `WRITE_MEM`, as the packets it sends.

An instruction that calls `exit(EXIT_FAILURE)` is an error with the packets sent before that.
-/

namespace LastOfC.Cpu

/-- `particionMemoria`. -/
structure ParticionMemoria where
  base : Uint32
  limite : Uint32
  deriving DecidableEq, Repr

/-- `inicializar_particion_de_memoria`: the new `parteActual`. -/
def inicializarParticionDeMemoria (base limite : Uint32) : ParticionMemoria := { base, limite }

/-- A packet that the CPU sends while it executes an instruction. -/
inductive Envio where
  | aMemoria (peticion : Memoria.Peticion)
  | processExit (pid tid : Uint32)
  deriving DecidableEq, Repr

/-- What is left of an instruction: its value, or the packets sent before the CPU exited. -/
abbrev Ejecucion (α : Type) := Except (List Envio) α

inductive Registro where
  | AX | BX | CX | DX | EX | FX | GX | HX
  deriving DecidableEq, Repr

/-- `obtenerRegistro`, or none for `NULL`. -/
def obtenerRegistro (registro : Cadena) : Option Registro :=
  if registro = ['A', 'X'] then some .AX
  else if registro = ['B', 'X'] then some .BX
  else if registro = ['C', 'X'] then some .CX
  else if registro = ['D', 'X'] then some .DX
  else if registro = ['E', 'X'] then some .EX
  else if registro = ['F', 'X'] then some .FX
  else if registro = ['G', 'X'] then some .GX
  else if registro = ['H', 'X'] then some .HX
  else none

/-- The value a register pointer points to. -/
def Registro.valor (registros : RegistrosCPU) : Registro → Uint32
  | .AX => registros.AX
  | .BX => registros.BX
  | .CX => registros.CX
  | .DX => registros.DX
  | .EX => registros.EX
  | .FX => registros.FX
  | .GX => registros.GX
  | .HX => registros.HX

/-- `MMU`. -/
def mmu (parteActual : ParticionMemoria) (direccionLogica : Uint32)
    (contexto : TContextoEjecucion) : Ejecucion Uint32 :=
  let direccionFisica := parteActual.base + direccionLogica
  if direccionFisica < parteActual.base ∨
      parteActual.base + parteActual.limite < direccionFisica then
    .error [.aMemoria (.actualizarContexto contexto), .processExit contexto.pid contexto.TID]
  else .ok direccionFisica

/-- `write_mem` of cpu, with `escribir_en_memoria`. -/
def writeMem (parteActual : ParticionMemoria) (PidHilo : Uint32)
    (registroDireccion registroDatos : Cadena) (contexto : TContextoEjecucion) :
    Ejecucion (List Envio) :=
  match obtenerRegistro registroDireccion, obtenerRegistro registroDatos with
  | some regDireccion, some regDatos =>
    match mmu parteActual (regDireccion.valor contexto.RegistrosCPU) contexto with
    | .ok direccionFisica =>
      .ok [.aMemoria (.writeMem
        { dirFis := direccionFisica
          valor := regDatos.valor contexto.RegistrosCPU
          pidHilo := PidHilo
          tidHilo := contexto.TID })]
    | .error envios => .error envios
  | _, _ => .ok []

/-! ## What gets through -/

section Mmu

variable {parteActual : ParticionMemoria} {direccionLogica : Uint32}
  {contexto : TContextoEjecucion}

/-- `limite` is added to `base`, so it is the largest logical address that gets through. -/
theorem mmu_eq (h : parteActual.base.toNat + parteActual.limite.toNat < 2 ^ 32) :
    mmu parteActual direccionLogica contexto =
      if direccionLogica.toNat ≤ parteActual.limite.toNat then
        .ok (parteActual.base + direccionLogica)
      else
        .error [.aMemoria (.actualizarContexto contexto),
          .processExit contexto.pid contexto.TID] := by
  have hfault : (parteActual.base + direccionLogica < parteActual.base ∨
      parteActual.base + parteActual.limite < parteActual.base + direccionLogica) ↔
      ¬ direccionLogica.toNat ≤ parteActual.limite.toNat := by
    have hlt := direccionLogica.isLt
    simp only [BitVec.lt_def, BitVec.toNat_add]
    -- Either the sum fits in 32 bits, or it wraps once and is below `base`.
    omega
  simp only [mmu, hfault]
  by_cases hle : direccionLogica.toNat ≤ parteActual.limite.toNat
  · rw [if_neg (not_not_intro hle), if_pos hle]
  · rw [if_pos hle, if_neg hle]

end Mmu

end LastOfC.Cpu
