import LastOfC.Filesystem.Compacto

/-!
# No file on disk is overwritten

* `EnDisco`: the bytes of a file are where its first block says.
* `Guardados`: the invariant. Each file ends before the first free block, and is on the disk.
* `archivos_conservados`: so are all files that were created, after any sequence of creations.
-/

namespace LastOfC.Filesystem

open FreeMap PosFile Trace

variable {cfg : ConfigFilesystem} {d : Disco} {c : Creado} {creados : List Creado}
  {archivos : List Archivo} {tamanio : Uint32} {u : Nat} {f : List Byte}

/-- The bytes from `primer_bloque * block_size` on are those of the file. -/
def EnDisco (cfg : ConfigFilesystem) (d : Disco) (c : Creado) : Prop :=
  Block.read d.bloques (c.primerBloque.toNat * cfg.blockSize.toNat) c.archivo.tamanio.toNat =
    some c.archivo.bytes

/-- The blocks in use come first, and each file is in them. -/
def Guardados (cfg : ConfigFilesystem) (creados : List Creado) (d : Disco) : Prop :=
  ∃ u v, bits d.bitmap = filled u v ∧ u + v = bloquesTotales cfg ∧
    ∀ c ∈ creados,
      c.primerBloque.toNat * cfg.blockSize.toNat + c.archivo.tamanio.toNat ≤
        u * cfg.blockSize.toNat ∧ EnDisco cfg d c

@[simp] theorem Archivo.length_bytes (a : Archivo) : a.bytes.length = a.tamanio.toNat := by
  have hcabe := a.cabe
  rw [Archivo.bytes, List.length_take]
  omega

/-- The quotient rounded up, times the divisor. -/
theorem bloques_cubren (hbs : 0 < cfg.blockSize.toNat) (h0 : 0 < tamanio.toNat) :
    0 < tamanio.toNat ⌈/⌉ cfg.blockSize.toNat ∧
    tamanio.toNat ≤ tamanio.toNat ⌈/⌉ cfg.blockSize.toNat * cfg.blockSize.toNat ∧
    (tamanio.toNat ⌈/⌉ cfg.blockSize.toNat - 1) * cfg.blockSize.toNat < tamanio.toNat := by
  rw [Nat.ceilDiv_eq_add_pred_div, Nat.sub_mul, Nat.one_mul]
  generalize hq : (tamanio.toNat + cfg.blockSize.toNat - 1) / cfg.blockSize.toNat = q
  have hdiv := Nat.div_add_mod (tamanio.toNat + cfg.blockSize.toNat - 1) cfg.blockSize.toNat
  have hmod := Nat.mod_lt (tamanio.toNat + cfg.blockSize.toNat - 1) hbs
  rw [hq, Nat.mul_comm] at hdiv
  have hpos : 0 < q := by
    rw [← hq]
    exact Nat.div_pos (by omega) hbs
  exact ⟨hpos, by omega, by omega⟩

/-- The bytes of a new file go where the blocks in use end. -/
theorem putAll_archivo (a : Archivo) (hbs : 0 < cfg.blockSize.toNat)
    (h0 : 0 < a.tamanio.toNat)
    (hcap : (u + a.tamanio.toNat ⌈/⌉ cfg.blockSize.toNat) * cfg.blockSize.toNat < 2 ^ 31) :
    putAll 0 f (escriturasDesde cfg a.contenido a.tamanio
      (a.tamanio.toNat ⌈/⌉ cfg.blockSize.toNat) (BitVec.ofNat 32 (u * cfg.blockSize.toNat)) 0) =
      put 0 f (u * cfg.blockSize.toNat) a.bytes := by
  obtain ⟨-, hcubre, hexacto⟩ := bloques_cubren hbs h0
  have hoffset := toNat_posicion hcap
  rw [Nat.add_mul] at hcap
  have hcero : (0 : Uint32).toNat = 0 := rfl
  rw [putAll_escriturasDesde a.cabe (Nat.zero_le _) (by omega) (.inl (by omega)) (by omega),
    hoffset, hcero, List.drop_zero, Archivo.bytes]

/-- A new file leaves the others as they were. -/
theorem Guardados.paso {a : Archivo} (h : Guardados cfg creados d)
    (hbs : 0 < cfg.blockSize.toNat) (hcap : bloquesTotales cfg * cfg.blockSize.toNat < 2 ^ 31)
    (htam : 1 ≤ a.tamanio.toNat) (hsum : a.tamanio.toNat + cfg.blockSize.toNat < 2 ^ 32) :
    Guardados cfg (creados ++ (crearArchivo cfg d a).2) (crearArchivo cfg d a).1 := by
  obtain ⟨u, v, hb, huv, hcreados⟩ := h
  have hn := toNat_bloquesNecesarios hbs hsum
  obtain ⟨hpos, hcubre, -⟩ := bloques_cubren hbs htam
  have hle : u + v ≤ (u + v) * cfg.blockSize.toNat := Nat.le_mul_of_pos_right _ hbs
  rw [← huv] at hcap
  rcases crearArchivo_casos (a := a) hb (by omega) rfl with
    heq | ⟨h0, -⟩ | ⟨-, hnv, bitmap, escrituras, hbits, hesc, heq⟩
  · rw [heq, List.append_nil]
    exact ⟨u, v, hb, huv, hcreados⟩
  · omega
  rw [hn] at hnv hbits hesc
  generalize hN : a.tamanio.toNat ⌈/⌉ cfg.blockSize.toNat = n at *
  have hcap' : (u + n) * cfg.blockSize.toNat < 2 ^ 31 :=
    Nat.lt_of_le_of_lt (Nat.mul_le_mul_right _ (by omega)) hcap
  have hput : putAll 0 d.bloques escrituras =
      put 0 d.bloques (u * cfg.blockSize.toNat) a.bytes := by
    rw [hesc, ← hN]
    exact putAll_archivo a hbs htam (by rwa [hN])
  have hu : (BitVec.ofNat 32 u).toNat = u := by
    rw [BitVec.toNat_ofNat]
    omega
  rw [heq, hput]
  refine ⟨u + n, v - n, hbits, by omega, fun c hc => ?_⟩
  rw [Nat.add_mul]
  rcases List.mem_append.mp hc with hc | hc
  · -- a file from before ends where the new one begins, or earlier
    obtain ⟨hfin, hdisco⟩ := hcreados c hc
    exact ⟨by omega, read_put_of_apart hdisco (.inl hfin)⟩
  · rw [List.mem_singleton] at hc
    subst hc
    dsimp only
    refine ⟨by rw [hu]; omega, ?_⟩
    have hne : a.bytes ≠ [] := List.ne_nil_of_length_pos (by rw [Archivo.length_bytes]; omega)
    have hread : Block.read (put 0 d.bloques (u * cfg.blockSize.toNat) a.bytes)
        (u * cfg.blockSize.toNat) a.bytes.length = some a.bytes := read_put hne
    rw [Archivo.length_bytes] at hread
    rw [EnDisco]
    dsimp only
    rw [hu]
    exact hread

/-- After any sequence of file creations, the bytes of each file that was created are on the disk
from its first block on. -/
theorem archivos_conservados (cfg : ConfigFilesystem) {archivos : List Archivo} {d : Disco}
    {creados : List Creado} (hbs : 1 ≤ cfg.blockSize.toNat) (hbc : 1 ≤ cfg.blockCount.toNat)
    (hdisco : cfg.blockSize.toNat * bloquesTotales cfg < 2 ^ 31)
    (htam : ∀ a ∈ archivos, 1 ≤ a.tamanio.toNat ∧ a.tamanio.toNat < 2 ^ 31)
    (hrun : run (paso cfg) (discoInicial cfg) archivos = .ok (d, creados)) :
    ∀ c ∈ creados, EnDisco cfg d c := by
  rw [Nat.mul_comm] at hdisco
  have hblock : cfg.blockSize.toNat ≤ bloquesTotales cfg * cfg.blockSize.toNat := by
    refine Nat.le_mul_of_pos_left _ ?_
    rw [bloquesTotales]
    omega
  obtain ⟨u, v, -, -, hcreados⟩ : Guardados cfg creados d := by
    refine creados_invariante hrun ?_ fun creados d a ha hI => ?_
    · exact ⟨0, bloquesTotales cfg, bits_inicializarBitmap hbs hdisco, Nat.zero_add _,
        fun c hc => absurd hc List.not_mem_nil⟩
    · obtain ⟨h1, h2⟩ := htam a ha
      exact hI.paso hbs hdisco h1 (by omega)
  exact fun c hc => (hcreados c hc).2

/-- Two files, the first one in two blocks. -/
theorem archivos_conservados_dos : ∃ d creados,
    run (paso ⟨4, 8⟩) (discoInicial ⟨4, 8⟩)
      [⟨[], [1, 2, 3, 4, 5], 5, by decide⟩, ⟨[], [6], 1, by decide⟩] = .ok (d, creados) ∧
    creados.length = 2 ∧ ∀ c ∈ creados, EnDisco ⟨4, 8⟩ d c := by
  refine ⟨_, _, rfl, rfl, @archivos_conservados ⟨4, 8⟩
    [⟨[], [1, 2, 3, 4, 5], 5, by decide⟩, ⟨[], [6], 1, by decide⟩] _ _ ?_ ?_ ?_ ?_ rfl⟩
  all_goals decide

end LastOfC.Filesystem
