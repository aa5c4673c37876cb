import LastOfC.Filesystem.Reserva
import Mathlib.Algebra.Order.Floor.Div

/-!
# The blocks of a new file are counted exactly

* `CuentaExacta`: a file takes the blocks that it needs, the lowest free ones, or none at all.
* `cuenta_exacta_iff`: when `crear_archivo` does so. A file of 0 bytes asks `reservar_bloques` for
  0 blocks, and it takes them all: the test for the last block comes after a block was assigned.
-/

namespace LastOfC.Filesystem

open FreeMap

variable {cfg : ConfigFilesystem} {d : Disco} {a : Archivo} {l : List Bool} {n p tamanio : Uint32}
  {bitmap : List Byte}

/-- `bloques_necesarios` is the quotient rounded up where the sum fits. -/
theorem toNat_bloquesNecesarios (hbs : 0 < cfg.blockSize.toNat)
    (h : tamanio.toNat + cfg.blockSize.toNat < 2 ^ 32) :
    (bloquesNecesarios cfg tamanio).toNat = tamanio.toNat ⌈/⌉ cfg.blockSize.toNat := by
  have hsum : (tamanio + cfg.blockSize - 1).toNat = tamanio.toNat + cfg.blockSize.toNat - 1 := by
    have huno : (1 : Uint32).toNat = 1 := rfl
    rw [BitVec.toNat_sub, BitVec.toNat_add, huno]
    omega
  rw [bloquesNecesarios, BitVec.toNat_udiv, hsum, Nat.ceilDiv_eq_add_pred_div]

theorem crearArchivo_rechaza
    (h : espacioDisponible d.bitmap (bloquesNecesarios cfg a.tamanio) = false) :
    crearArchivo cfg d a = (d, []) := by
  rw [crearArchivo, h]
  rfl

/-- What `crear_archivo` does with a file for which there is room. -/
theorem crearArchivo_acepta
    (h : espacioDisponible d.bitmap (bloquesNecesarios cfg a.tamanio) = true) :
    ∃ p bitmap escrituras,
      reservarBloques d.bitmap (bloquesNecesarios cfg a.tamanio) = (p, bitmap) ∧
      escribirContenidoBloques cfg p a.contenido (bloquesNecesarios cfg a.tamanio) a.tamanio =
        escrituras ∧
      crearArchivo cfg d a = ({ bitmap, bloques := PosFile.putAll 0 d.bloques escrituras },
        [{ primerBloque := p, archivo := a, escrituras }]) := by
  refine ⟨_, _, _, rfl, rfl, ?_⟩
  rw [crearArchivo, h]
  rfl

theorem cuota_of_pos (h : 0 < n.toNat) : cuota n = n.toNat :=
  if_neg fun h0 => by subst h0; exact absurd h (Nat.lt_irrefl 0)

theorem Completa.takes (h : Completa n l p bitmap) : Takes (cuota n) l (bits bitmap) := by
  obtain ⟨pre, post, rfl, hn, hbits, -⟩ := h
  rw [← hn, hbits]
  exact takes_split pre post

/-- Where there is room for them, `reservar_bloques` takes as many blocks as it is asked for, but
for 0 it takes all. -/
theorem takes_reservarBloques_iff (hn : n.toNat ≤ free (bits bitmap)) :
    Takes n.toNat (bits bitmap) (bits (reservarBloques bitmap n).2) ↔
      (n.toNat = 0 → free (bits bitmap) = 0) := by
  rcases Nat.eq_zero_or_pos n.toNat with h0 | hpos
  · have hcuota : cuota n = 2 ^ 32 := if_pos (BitVec.eq_of_toNat_eq h0)
    rw [h0]
    rcases reservarBloques_casos bitmap n with hc | ⟨-, -, hbits⟩
    · -- it took `2 ^ 32` blocks, so there were free ones
      have hcount := hc.takes.count
      rw [hcuota] at hcount
      refine ⟨fun h => ?_, fun h => ?_⟩
      · have hcount' := h.count
        omega
      · have hfree := h rfl
        omega
    · rw [hbits]
      refine ⟨fun h _ => ?_, fun h => ?_⟩
      · have hcount := h.count
        rwa [free_replicate_true, eq_comm] at hcount
      · rw [← eq_replicate_of_free (h rfl)]
        exact Takes.refl _
  · refine ⟨fun _ h0 => by omega, fun _ => ?_⟩
    rcases reservarBloques_casos bitmap n with hc | ⟨hfree, -, -⟩
    · rw [← cuota_of_pos hpos]
      exact hc.takes
    · rw [cuota_of_pos hpos] at hfree
      omega

/-- A file takes exactly the blocks that it needs, the lowest free ones, and the count drops by
them. Where there are fewer, the bitmap does not change. -/
def CuentaExacta (cfg : ConfigFilesystem) (d : Disco) (a : Archivo) : Prop :=
  let n := a.tamanio.toNat ⌈/⌉ cfg.blockSize.toNat
  let d' := (crearArchivo cfg d a).1
  (n ≤ free (bits d.bitmap) → Takes n (bits d.bitmap) (bits d'.bitmap) ∧
    (cantidadBloquesLibres d'.bitmap).toNat + n = (cantidadBloquesLibres d.bitmap).toNat) ∧
  (free (bits d.bitmap) < n → d'.bitmap = d.bitmap)

/-- The blocks are counted exactly for each file that is not empty, on each bitmap whose free blocks
the `uint32_t` can count. An empty file takes all of them. -/
theorem cuenta_exacta_iff (cfg : ConfigFilesystem) (d : Disco) (a : Archivo)
    (hbs : 0 < cfg.blockSize.toNat) (htam : a.tamanio.toNat + cfg.blockSize.toNat < 2 ^ 32) :
    CuentaExacta cfg d a ↔
      (a.tamanio = 0 → free (bits d.bitmap) = 0) ∧
      (a.tamanio.toNat ⌈/⌉ cfg.blockSize.toNat ≤ free (bits d.bitmap) →
        a.tamanio.toNat ⌈/⌉ cfg.blockSize.toNat ≤ free (bits d.bitmap) % 2 ^ 32) := by
  have hn := toNat_bloquesNecesarios hbs htam
  unfold CuentaExacta
  rw [← hn]
  dsimp only
  generalize hN : bloquesNecesarios cfg a.tamanio = n at *
  have hcero : a.tamanio = 0 ↔ n.toNat = 0 := by
    rw [hn, ← BitVec.toNat_inj, Nat.ceilDiv_eq_add_pred_div, Nat.div_eq_zero_iff]
    have h0 : (0 : Uint32).toNat = 0 := rfl
    omega
  rw [toNat_cantidadBloquesLibres, toNat_cantidadBloquesLibres]
  cases hesp : espacioDisponible d.bitmap n with
  | false =>
    have hno : ¬ n.toNat ≤ free (bits d.bitmap) % 2 ^ 32 := fun h => by
      rw [espacioDisponible_iff.mpr h] at hesp
      cases hesp
    rw [← hN] at hesp
    rw [crearArchivo_rechaza hesp]
    constructor
    · rintro ⟨h, -⟩
      refine ⟨fun h0 => by rw [hcero] at h0; omega, fun hle => ?_⟩
      have hzero := (h hle).1.eq_zero
      omega
    · rintro ⟨-, h⟩
      exact ⟨fun hle => absurd (h hle) hno, fun _ => rfl⟩
  | true =>
    have hle := espacioDisponible_iff.mp hesp
    have hfree : n.toNat ≤ free (bits d.bitmap) := Nat.le_trans hle (Nat.mod_le _ _)
    rw [← hN] at hesp
    obtain ⟨p, bitmap, escrituras, hres, -, heq⟩ := crearArchivo_acepta hesp
    have hbitmap : (crearArchivo cfg d a).1.bitmap = (reservarBloques d.bitmap n).2 := by
      rw [heq, ← hN, hres]
    rw [hbitmap, hcero, ← takes_reservarBloques_iff hfree]
    constructor
    · rintro ⟨h, -⟩
      exact ⟨(h hfree).1, fun _ => hle⟩
    · rintro ⟨htakes, -⟩
      have hcount := htakes.count
      exact ⟨fun _ => ⟨htakes, by omega⟩, fun hlt => by omega⟩

/-- Five bytes, in blocks of four, take the first two blocks. -/
theorem cuenta_exacta_cinco :
    CuentaExacta ⟨4, 8⟩ (discoInicial ⟨4, 8⟩) ⟨[], [1, 2, 3, 4, 5], 5, by decide⟩ :=
  (cuenta_exacta_iff _ _ _ (by decide) (by decide)).mpr (by decide)

/-- An empty file takes the eight blocks of the disk. -/
theorem cuenta_exacta_vacio :
    ¬ CuentaExacta ⟨4, 8⟩ (discoInicial ⟨4, 8⟩) ⟨[], [], 0, by decide⟩ := fun h =>
  absurd (h.1 (by decide)).2 (by decide)

end LastOfC.Filesystem
