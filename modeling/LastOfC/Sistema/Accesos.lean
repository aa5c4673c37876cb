import LastOfC.Cpu.Mmu

/-!
# Which words of a partition can be accessed

The MMU lets through each word of the partition. `write_mem` and `read_mem` of memoria compare with
`>=` and `<` where the word ends, so they refuse the last one of the memory
(`palabra_accesible_iff`).
-/

namespace LastOfC.Sistema

open Memoria Cpu

/-- The MMU translates the address, and memoria reads and writes the word there. -/
structure PalabraAccesible (cfg : ConfigMemoria) (base limite direccion : Uint32) : Prop where
  traducida : ∀ contexto,
    mmu (inicializarParticionDeMemoria base limite) direccion contexto = .ok (base + direccion)
  escrita : ∀ (s : Memoria.Estado) (valor pidHilo tidHilo : Uint32),
    Memoria.writeMem cfg s { dirFis := base + direccion, valor, pidHilo, tidHilo } =
      .ok ({ s with memoria := escribirPalabra s.memoria (base.toNat + direccion.toNat) valor },
        [⟨.cpu, .confirmarWriteMem 1⟩])
  leida : ∀ (s : Memoria.Estado) (pidHilo tidHilo : Uint32),
    Memoria.readMem cfg s { dirFis := base + direccion, pidHilo, tidHilo } =
      .ok (s, [⟨.cpu, .enviarReadMem (leerPalabra s.memoria (base.toNat + direccion.toNat))⟩])

/-- A word inside a partition is accessible if and only if it does not end where the memory ends. -/
theorem palabra_accesible_iff (cfg : ConfigMemoria) (base limite tamanio direccion : Uint32)
    (hfin : base.toNat + tamanio.toNat ≤ cfg.tamMemoria) (hlimite : limite = base + tamanio - 1)
    (hdireccion : direccion.toNat + 4 ≤ tamanio.toNat) :
    PalabraAccesible cfg base limite direccion ↔
      base.toNat + direccion.toNat + 4 ≠ cfg.tamMemoria := by
  have htam := cfg.tam_lt
  have hlim : limite.toNat = base.toNat + tamanio.toNat - 1 := by
    have huno : (1 : Uint32).toNat = 1 := rfl
    rw [hlimite, BitVec.toNat_sub, BitVec.toNat_add, huno]
    omega
  have hfis : (base + direccion).toNat = base.toNat + direccion.toNat :=
    BitVec.toNat_add_of_lt (by omega)
  have haceptada : direccionAceptada cfg (base + direccion) = true ↔
      base.toNat + direccion.toNat + 4 < cfg.tamMemoria := by
    rw [direccionAceptada, decide_eq_true_iff, hfis]
  constructor
  · intro h heq
    -- memoria does not answer
    have hleida := h.leida ⟨[], [], fun _ => 0⟩ 0 0
    rw [Memoria.readMem, if_neg fun hac => absurd (haceptada.mp hac) (by omega)] at hleida
    cases hleida
  · intro hne
    have hac := haceptada.mpr (by omega)
    refine ⟨fun contexto => ?_, fun s valor pidHilo tidHilo => ?_, fun s pidHilo tidHilo => ?_⟩
    · have hsum : (inicializarParticionDeMemoria base limite).base.toNat +
          (inicializarParticionDeMemoria base limite).limite.toNat < 2 ^ 32 := by
        show base.toNat + limite.toNat < 2 ^ 32
        omega
      exact (mmu_eq hsum).trans (if_pos (show direccion.toNat ≤ limite.toNat by omega))
    · rw [Memoria.writeMem, if_pos hac, hfis]
    · rw [Memoria.readMem, if_pos hac, hfis]

/-- The first word of a partition that is the whole memory. -/
theorem palabra_accesible_primera :
    PalabraAccesible (entornoDinamico 100 cien_lt).toConfigMemoria 0 99 0 :=
  (palabra_accesible_iff _ 0 99 100 0 (by decide) (by decide) (by decide)).mpr (by decide)

/-- The last one. -/
theorem palabra_accesible_ultima :
    ¬ PalabraAccesible (entornoDinamico 100 cien_lt).toConfigMemoria 0 99 96 := by
  intro h
  cases h.leida ⟨[], [], fun _ => 0⟩ 0 0

end LastOfC.Sistema
