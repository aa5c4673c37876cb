import LastOfC.Filesystem.Compacto

/-!
# Only the blocks of the disk are used

* `SoloBloques`: no block from `block_count` on is in use, no write goes past the file that
  `inicializar_bloques` made, and the count of `espacio_disponible` is about these blocks.
* `solo_bloques_iff`: `inicializar_bitmap` rounds the bitmap up to whole bytes, and the scans go to
  the end of the file, so this is so if and only if `block_count` is a multiple of 8.
-/

namespace LastOfC.Filesystem

open FreeMap PosFile Trace

variable {cfg : ConfigFilesystem} {d : Disco} {creados : List Creado} {archivos : List Archivo}

/-- Only the first `block_count` blocks are marked, written and counted. -/
structure SoloBloques (cfg : ConfigFilesystem) (creados : List Creado) (d : Disco) : Prop where
  marcados : ∀ i : Nat, (bits d.bitmap)[i]? = some true → i < cfg.blockCount.toNat
  escritos : ∀ c ∈ creados, ∀ w ∈ c.escrituras,
    w.1 + w.2.length ≤ (inicializarBloques cfg).length
  libres : ∀ n : Uint32, espacioDisponible d.bitmap n = true ↔
    n.toNat ≤ free ((bits d.bitmap).take cfg.blockCount.toNat)

theorem length_inicializarBloques (h0 : 0 < cfg.blockCount.toNat * cfg.blockSize.toNat)
    (hcap : cfg.blockCount.toNat * cfg.blockSize.toNat < 2 ^ 31) :
    (inicializarBloques cfg).length = cfg.blockCount.toNat * cfg.blockSize.toNat := by
  have huno : (1 : CInt).toNat = 1 := rfl
  have hprod : (cfg.blockCount * cfg.blockSize - 1).toNat =
      cfg.blockCount.toNat * cfg.blockSize.toNat - 1 := by
    rw [BitVec.toNat_sub, BitVec.toNat_mul, huno]
    omega
  have hultimo : (cfg.blockCount * cfg.blockSize - 1).toInt.toNat =
      cfg.blockCount.toNat * cfg.blockSize.toNat - 1 := by
    rw [BitVec.toInt_eq_toNat_of_lt (by omega), hprod, Int.toNat_natCast]
  rw [inicializarBloques, hultimo, length_put (List.cons_ne_nil _ _), List.length_nil,
    List.length_singleton]
  omega

/-- The blocks in use come first, and all writes were in them. -/
def Dentro (cfg : ConfigFilesystem) (creados : List Creado) (d : Disco) : Prop :=
  ∃ u v, bits d.bitmap = filled u v ∧ u + v = bloquesTotales cfg ∧
    ∀ c ∈ creados, ∀ w ∈ c.escrituras, w.1 + w.2.length ≤ u * cfg.blockSize.toNat

theorem Dentro.paso {a : Archivo} (h : Dentro cfg creados d)
    (hbs : 0 < cfg.blockSize.toNat) (hcap : bloquesTotales cfg * cfg.blockSize.toNat < 2 ^ 31) :
    Dentro cfg (creados ++ (crearArchivo cfg d a).2) (crearArchivo cfg d a).1 := by
  obtain ⟨u, v, hb, huv, hcreados⟩ := h
  have hle : u + v ≤ (u + v) * cfg.blockSize.toNat := Nat.le_mul_of_pos_right _ hbs
  rw [← huv] at hcap
  rcases crearArchivo_casos (a := a) hb (by omega) rfl with
    heq | ⟨-, bitmap, hbits, heq⟩ | ⟨-, hnv, bitmap, escrituras, hbits, hesc, heq⟩
  · rw [heq, List.append_nil]
    exact ⟨u, v, hb, huv, hcreados⟩
  · rw [heq]
    refine ⟨u + v, 0, hbits, huv, fun c hc w hw => ?_⟩
    rcases List.mem_append.mp hc with hc | hc
    · exact Nat.le_trans (hcreados c hc w hw) (Nat.mul_le_mul_right _ (Nat.le_add_right u v))
    · rw [List.mem_singleton] at hc
      subst hc
      cases hw
  · generalize bloquesNecesarios cfg a.tamanio = n at *
    have hcap' : (u + n.toNat) * cfg.blockSize.toNat < 2 ^ 31 :=
      Nat.lt_of_le_of_lt (Nat.mul_le_mul_right _ (by omega)) hcap
    have hoffset := toNat_posicion hcap'
    rw [Nat.add_mul] at hcap'
    rw [heq]
    refine ⟨u + n.toNat, v - n.toNat, hbits, by omega, fun c hc w hw => ?_⟩
    rw [Nat.add_mul]
    rcases List.mem_append.mp hc with hc | hc
    · have hw' := hcreados c hc w hw
      omega
    · rw [List.mem_singleton] at hc
      subst hc
      dsimp only at hw
      rw [hesc] at hw
      have hw' := mem_escriturasDesde (by omega) hw
      omega

/-- On a bitmap without the bits that round it up. -/
theorem Dentro.soloBloques (h : Dentro cfg creados d) (hocho : 8 ∣ cfg.blockCount.toNat)
    (h0 : 0 < cfg.blockCount.toNat * cfg.blockSize.toNat)
    (hcap : cfg.blockCount.toNat * cfg.blockSize.toNat < 2 ^ 31) : SoloBloques cfg creados d := by
  obtain ⟨u, v, hb, huv, hcreados⟩ := h
  have htotal : bloquesTotales cfg = cfg.blockCount.toNat := by
    obtain ⟨k, hk⟩ := hocho
    rw [bloquesTotales]
    omega
  have hlen : (bits d.bitmap).length = cfg.blockCount.toNat := by
    rw [hb, length_filled, huv, htotal]
  have hlt := cfg.blockCount.isLt
  refine ⟨fun i hi => ?_, fun c hc w hw => ?_, fun n => ?_⟩
  · rw [← hlen]
    exact (List.getElem?_eq_some_iff.mp hi).1
  · rw [length_inicializarBloques h0 hcap]
    exact Nat.le_trans (hcreados c hc w hw) (Nat.mul_le_mul_right _ (by omega))
  · rw [espacioDisponible_iff, List.take_of_length_le (Nat.le_of_eq hlen), Nat.mod_eq_of_lt]
    rw [hb, free_filled]
    omega

/-- Along any sequence of file creations, only blocks of the disk are marked, written and counted
if and only if `block_count` is a multiple of 8. -/
theorem solo_bloques_iff (cfg : ConfigFilesystem) (archivos : List Archivo)
    (hbc : 1 ≤ cfg.blockCount.toNat) (hbs : 1 ≤ cfg.blockSize.toNat)
    (hcap : (cfg.blockCount.toNat + 8) * cfg.blockSize.toNat < 2 ^ 31) :
    (∀ pre d creados, pre <+: archivos →
      run (paso cfg) (discoInicial cfg) pre = .ok (d, creados) → SoloBloques cfg creados d) ↔
    8 ∣ cfg.blockCount.toNat := by
  have htotal : bloquesTotales cfg = 8 * ((cfg.blockCount.toNat + 7) / 8) := rfl
  have hcap' : bloquesTotales cfg * cfg.blockSize.toNat < 2 ^ 31 :=
    Nat.lt_of_le_of_lt (Nat.mul_le_mul_right _ (by omega)) hcap
  have hle : bloquesTotales cfg ≤ bloquesTotales cfg * cfg.blockSize.toNat :=
    Nat.le_mul_of_pos_right _ hbs
  have hinicial : bits (discoInicial cfg).bitmap = filled 0 (bloquesTotales cfg) :=
    bits_inicializarBitmap hbs hcap'
  constructor
  · -- before the first file, the count already includes the bits that round the bitmap up
    intro h
    have hlibres := (h [] _ _ List.nil_prefix rfl).libres (BitVec.ofNat 32 (bloquesTotales cfg))
    rw [espacioDisponible_iff, hinicial, free_filled, free_take_filled (by omega),
      BitVec.toNat_ofNat] at hlibres
    have hbloques := hlibres.mp (Nat.le_refl _)
    rw [Nat.mod_eq_of_lt (by omega)] at hbloques
    omega
  · intro hocho pre d creados _ hrun
    have hI : Dentro cfg creados d := by
      refine creados_invariante hrun ?_ fun creados d a _ hI => hI.paso hbs hcap'
      exact ⟨0, bloquesTotales cfg, hinicial, Nat.zero_add _,
        fun c hc => absurd hc List.not_mem_nil⟩
    refine hI.soloBloques hocho (Nat.mul_pos hbc hbs) ?_
    exact Nat.lt_of_le_of_lt (Nat.mul_le_mul_right _ (by omega)) hcap

/-- Eight blocks, and a file in one of them. -/
theorem solo_bloques_ocho : ∃ d creados,
    run (paso ⟨4, 8⟩) (discoInicial ⟨4, 8⟩) [⟨[], [6], 1, by decide⟩] = .ok (d, creados) ∧
    SoloBloques ⟨4, 8⟩ creados d :=
  ⟨_, _, rfl, (solo_bloques_iff ⟨4, 8⟩ [⟨[], [6], 1, by decide⟩] (by decide) (by decide)
    (by decide)).mpr (by decide) _ _ _ (List.prefix_refl _) rfl⟩

/-- A disk of one block takes a file of two: the second one is marked and written past the end, and
six blocks are left. -/
theorem solo_bloques_uno : ∃ d creados,
    run (paso ⟨1, 1⟩) (discoInicial ⟨1, 1⟩) [⟨[], [5, 6], 2, by decide⟩] = .ok (d, creados) ∧
    (¬ ∀ i : Nat, (bits d.bitmap)[i]? = some true → i < 1) ∧
    (¬ ∀ c ∈ creados, ∀ w ∈ c.escrituras,
      w.1 + w.2.length ≤ (inicializarBloques ⟨1, 1⟩).length) ∧
    ¬ ∀ n : Uint32, espacioDisponible d.bitmap n = true ↔
      n.toNat ≤ free ((bits d.bitmap).take 1) :=
  ⟨_, _, rfl, fun h => absurd (h 1 (by decide)) (by decide), by decide,
    fun h => absurd ((h 6).mp (by decide)) (by decide)⟩

end LastOfC.Filesystem
