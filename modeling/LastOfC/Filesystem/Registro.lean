import LastOfC.Filesystem.Contenidos
import LastOfC.Lib.Extents

/-!
# The file system is an append-only log

No file is ever removed, so two numbers say what the disk holds: how many blocks are in use, and
where each file begins.

* `Registro`: the files in order, each with its first block. `Registro.anotar` adds one where there
  is room. An empty file takes all blocks that are left.
* `pasoProceso`: `crear_archivo` with the read of the closed `FILE`, which may end the process
  after the bitmap was written and before `bloques.dat` is.
* `Representa`: the disk is that of the log, bit by bit and byte by byte.
* `disco_exacto`: after any sequence of creations the disk is that of the log of the same sequence,
  up to the bytes of the file in which the process ended.
-/

namespace LastOfC.Filesystem

open FreeMap PosFile Trace

variable {cfg : ConfigFilesystem}

/-- The blocks that the file needs. -/
def bloquesDe (cfg : ConfigFilesystem) (a : Archivo) : Nat :=
  a.tamanio.toNat ⌈/⌉ cfg.blockSize.toNat

/-- The files on disk, in the order of their creation. -/
abbrev Registro (cfg : ConfigFilesystem) := Extents.Log Archivo (bloquesDe cfg) (bloquesTotales cfg)

/-- The blocks that the file takes: `reservar_bloques` takes all for an empty one. -/
def Registro.toma (r : Registro cfg) (a : Archivo) : Nat :=
  if bloquesDe cfg a = 0 then bloquesTotales cfg - r.used else bloquesDe cfg a

theorem Registro.le_toma (r : Registro cfg) (a : Archivo) : bloquesDe cfg a ≤ r.toma a := by
  unfold Registro.toma
  split_ifs with h0
  · rw [h0]
    exact Nat.zero_le _
  · exact Nat.le_refl _

theorem Registro.toma_le {r : Registro cfg} {a : Archivo}
    (h : r.used + bloquesDe cfg a ≤ bloquesTotales cfg) :
    r.used + r.toma a ≤ bloquesTotales cfg := by
  have hused := r.used_le
  unfold Registro.toma
  split_ifs
  · omega
  · exact h

/-- A new file goes after the others, if there is room for it. -/
def Registro.anotar (r : Registro cfg) (a : Archivo) : Registro cfg :=
  if h : r.used + bloquesDe cfg a ≤ bloquesTotales cfg then
    r.add a (r.toma a) (r.le_toma a) (toma_le h)
  else r

/-- The log of a sequence of files. -/
def registro (cfg : ConfigFilesystem) (archivos : List Archivo) : Registro cfg :=
  archivos.foldl Registro.anotar .empty

/-! ## The process -/

/-- A request for a new file. -/
structure Pedido where
  archivo : Archivo
  /-- The `fread` of `reservar_bloques` on the closed `FILE` returns. If not, the process ends. -/
  retorna : Bool

structure Proceso where
  disco : Disco
  /-- The process goes on. -/
  vivo : Bool

/-- `reservar_bloques` returns a block, and before it does it counts on the closed `FILE`. -/
def leeCerrado (cfg : ConfigFilesystem) (d : Disco) (a : Archivo) : Bool :=
  espacioDisponible d.bitmap (bloquesNecesarios cfg a.tamanio) &&
    (reservarBloques d.bitmap (bloquesNecesarios cfg a.tamanio)).1 ≠ -1

/-- `fclose` has written the bitmap, and `escribir_contenido_bloques` was not called. -/
def Disco.soloReservado (d : Disco) (cfg : ConfigFilesystem) (a : Archivo) : Disco :=
  { d with bitmap := (reservarBloques d.bitmap (bloquesNecesarios cfg a.tamanio)).2 }

/-- `crear_archivo`, with the read of the closed `FILE`. -/
def pasoProceso (cfg : ConfigFilesystem) (s : Proceso) (p : Pedido) :
    Except Unit (Proceso × List Creado) :=
  if s.vivo then
    if leeCerrado cfg s.disco p.archivo && !p.retorna then
      .ok ({ disco := s.disco.soloReservado cfg p.archivo, vivo := false }, [])
    else
      let (disco, creados) := crearArchivo cfg s.disco p.archivo
      .ok ({ disco, vivo := true }, creados)
  else .error ()

/-! ## The disk of a log -/

/-- The file `c` is the entry `e` of the log. `reservar_bloques` returns `-1` for an empty file. -/
structure Creado.EsEntrada (c : Creado) (e : Nat × Archivo) : Prop where
  archivo : c.archivo = e.2
  vacio : c.archivo.tamanio.toNat = 0 → c.primerBloque = -1
  bloque : 0 < c.archivo.tamanio.toNat → c.primerBloque.toNat = e.1

/-- The blocks in use come first, and are those of the log `reservado`. For the log `escrito`,
`bloques.dat` holds the bytes of the files where they begin and zeros elsewhere, and its files are
those that were created. -/
structure Representa (reservado escrito : Registro cfg) (creados : List Creado) (d : Disco) :
    Prop where
  bitmap : bits d.bitmap = filled reservado.used (bloquesTotales cfg - reservado.used)
  bloques : escrito.Holds cfg.blockSize.toNat Archivo.bytes 0 d.bloques
  creados : List.Forall₂ Creado.EsEntrada creados escrito.entries

section Pasos

variable {r : Registro cfg} {creados : List Creado} {d : Disco} {a : Archivo}

theorem bytes_caben (hbs : 0 < cfg.blockSize.toNat) (a : Archivo) :
    a.bytes.length ≤ bloquesDe cfg a * cfg.blockSize.toNat := by
  rw [Archivo.length_bytes]
  rcases Nat.eq_zero_or_pos a.tamanio.toNat with h0 | hpos
  · omega
  · exact (bloques_cubren hbs hpos).2.1

theorem bloquesDe_eq_zero (hbs : 0 < cfg.blockSize.toNat) :
    bloquesDe cfg a = 0 ↔ a.tamanio.toNat = 0 := by
  unfold bloquesDe
  rw [Nat.ceilDiv_eq_add_pred_div, Nat.div_eq_zero_iff]
  omega

theorem bloquesTotales_lt (hbs : 0 < cfg.blockSize.toNat)
    (hcap : bloquesTotales cfg * cfg.blockSize.toNat < 2 ^ 31) : bloquesTotales cfg < 2 ^ 31 :=
  Nat.lt_of_le_of_lt (Nat.le_mul_of_pos_right _ hbs) hcap

/-- There is room for a file if `espacio_disponible` finds it. -/
theorem Representa.cabe_iff (h : Representa r r creados d) (htotal : bloquesTotales cfg < 2 ^ 31)
    {n : Uint32} (hn : n.toNat = bloquesDe cfg a) :
    espacioDisponible d.bitmap n = true ↔ r.used + bloquesDe cfg a ≤ bloquesTotales cfg := by
  have hused := r.used_le
  rw [espacioDisponible_iff, h.bitmap, free_filled, Nat.mod_eq_of_lt (by omega), hn]
  omega

/-- **One creation.** -/
theorem Representa.paso (h : Representa r r creados d) (hbs : 0 < cfg.blockSize.toNat)
    (hcap : bloquesTotales cfg * cfg.blockSize.toNat < 2 ^ 31)
    (hsum : a.tamanio.toNat + cfg.blockSize.toNat < 2 ^ 32) :
    Representa (r.anotar a) (r.anotar a) (creados ++ (crearArchivo cfg d a).2)
      (crearArchivo cfg d a).1 := by
  have hused := r.used_le
  have htotal := bloquesTotales_lt hbs hcap
  have hn : (bloquesNecesarios cfg a.tamanio).toNat = bloquesDe cfg a :=
    toNat_bloquesNecesarios hbs hsum
  have hcabe := h.cabe_iff htotal hn
  by_cases hroom : r.used + bloquesDe cfg a ≤ bloquesTotales cfg
  swap
  · rw [crearArchivo_rechaza (Bool.eq_false_iff.mpr fun hesp => hroom (hcabe.mp hesp)),
      Registro.anotar, dif_neg hroom, List.append_nil]
    exact h
  have hbloques := h.bloques.add (bytes_caben hbs) (r.le_toma a) (Registro.toma_le hroom)
  rw [Registro.anotar, dif_pos hroom]
  rcases crearArchivo_casos (a := a) h.bitmap (by omega) rfl with
    heq | ⟨h0, bitmap, hbits, heq⟩ | ⟨hpos, -, bitmap, escrituras, hbits, hesc, heq⟩
  · -- there is room, so the file was created
    obtain ⟨p, bitmap, escrituras, -, -, heq'⟩ := crearArchivo_acepta (hcabe.mpr hroom)
    rw [heq] at heq'
    cases congrArg (fun x => x.2) heq'
  · -- an empty file
    rw [hn] at h0
    have htam := (bloquesDe_eq_zero hbs).mp h0
    have htoma : r.toma a = bloquesTotales cfg - r.used := if_pos h0
    have hnada : a.bytes = [] := List.length_eq_zero_iff.mp (a.length_bytes.trans htam)
    rw [hnada, put_nil] at hbloques
    have hentrada : Creado.EsEntrada ⟨-1, a, []⟩ (r.used, a) :=
      ⟨rfl, fun _ => rfl, fun hp => absurd hp (by rw [htam]; exact Nat.lt_irrefl 0)⟩
    rw [heq]
    refine ⟨?_, hbloques, List.rel_append h.creados (.cons hentrada .nil)⟩
    show bits bitmap = filled (r.used + r.toma a) (bloquesTotales cfg - (r.used + r.toma a))
    rw [hbits, htoma, Nat.add_sub_cancel' hused, Nat.sub_self]
  · rw [hn] at hpos hbits hesc
    have htam : 0 < a.tamanio.toNat :=
      Nat.pos_of_ne_zero fun h0 => hpos.ne' ((bloquesDe_eq_zero hbs).mpr h0)
    have htoma : r.toma a = bloquesDe cfg a := if_neg hpos.ne'
    have hput : putAll 0 d.bloques escrituras =
        put 0 d.bloques (r.used * cfg.blockSize.toNat) a.bytes := by
      rw [hesc]
      exact putAll_archivo a hbs htam
        (Nat.lt_of_le_of_lt (Nat.mul_le_mul_right _ hroom) hcap)
    have hbloque : (BitVec.ofNat 32 r.used).toNat = r.used := by
      rw [BitVec.toNat_ofNat]
      omega
    have hentrada : Creado.EsEntrada ⟨BitVec.ofNat 32 r.used, a, escrituras⟩ (r.used, a) :=
      ⟨rfl, fun h0 => absurd h0 htam.ne', fun _ => hbloque⟩
    rw [heq, hput]
    refine ⟨?_, hbloques, List.rel_append h.creados (.cons hentrada .nil)⟩
    show bits bitmap = filled (r.used + r.toma a) (bloquesTotales cfg - (r.used + r.toma a))
    rw [hbits, htoma, Nat.sub_sub]

/-- **The creation in which the process ends.** There was room for the file, which is not empty. Its
blocks are taken, and hold what they held. -/
theorem Representa.corte (h : Representa r r creados d) (hbs : 0 < cfg.blockSize.toNat)
    (hcap : bloquesTotales cfg * cfg.blockSize.toNat < 2 ^ 31)
    (hsum : a.tamanio.toNat + cfg.blockSize.toNat < 2 ^ 32) (hlee : leeCerrado cfg d a = true) :
    r.used + bloquesDe cfg a ≤ bloquesTotales cfg ∧ 0 < a.tamanio.toNat ∧
      Representa (r.anotar a) r creados (d.soloReservado cfg a) := by
  have hused := r.used_le
  have htotal := bloquesTotales_lt hbs hcap
  have hn : (bloquesNecesarios cfg a.tamanio).toNat = bloquesDe cfg a :=
    toNat_bloquesNecesarios hbs hsum
  obtain ⟨hesp, hbloque⟩ := Bool.and_eq_true_iff.mp hlee
  have hroom := (h.cabe_iff htotal hn).mp hesp
  have hreserva := reservarBloques_filled h.bitmap (n := bloquesNecesarios cfg a.tamanio)
    (by omega) (by omega)
  rw [hn] at hreserva
  by_cases h0 : bloquesDe cfg a = 0
  · rw [if_pos h0] at hreserva
    exact absurd hreserva.1 (of_decide_eq_true hbloque)
  · rw [if_neg h0] at hreserva
    have htam : 0 < a.tamanio.toNat :=
      Nat.pos_of_ne_zero fun htam => h0 ((bloquesDe_eq_zero hbs).mpr htam)
    have htoma : r.toma a = bloquesDe cfg a := if_neg h0
    refine ⟨hroom, htam, ?_, h.bloques, h.creados⟩
    rw [Registro.anotar, dif_pos hroom]
    show bits (reservarBloques d.bitmap (bloquesNecesarios cfg a.tamanio)).2 =
      filled (r.used + r.toma a) (bloquesTotales cfg - (r.used + r.toma a))
    rw [hreserva.2, htoma, Nat.sub_sub]

end Pasos

/-- A step of the process: the file is created as in `crearArchivo`, or the process ends. -/
theorem pasoProceso_ok {s s' : Proceso} {p : Pedido} {o : List Creado}
    (h : pasoProceso cfg s p = .ok (s', o)) : s.vivo = true ∧
      ((s'.vivo = true ∧ crearArchivo cfg s.disco p.archivo = (s'.disco, o)) ∨
        (s'.vivo = false ∧ p.retorna = false ∧ leeCerrado cfg s.disco p.archivo = true ∧
          s'.disco = s.disco.soloReservado cfg p.archivo ∧ o = [])) := by
  unfold pasoProceso at h
  split at h
  · rename_i hvivo
    refine ⟨hvivo, ?_⟩
    split at h
    · rename_i hcae
      rw [Bool.and_eq_true, Bool.not_eq_true'] at hcae
      cases h
      exact .inr ⟨rfl, hcae.2, hcae.1, rfl, rfl⟩
    · cases h
      exact .inl ⟨rfl, rfl⟩
  · cases h

theorem inicializarBloques_ceros (cfg : ConfigFilesystem) :
    ∀ b ∈ inicializarBloques cfg, b = 0 := by
  intro b hb
  rw [inicializarBloques, put_of_ne (List.cons_ne_nil _ _), List.take_nil, List.drop_nil,
    List.nil_append, List.append_nil] at hb
  rcases List.mem_append.mp hb with hb | hb
  · exact List.eq_of_mem_replicate hb
  · exact List.mem_singleton.mp hb

/-- The files of the requests. -/
def archivosDe (pedidos : List Pedido) : List Archivo := pedidos.map (·.archivo)

/-- **The disk is that of the log.** After any sequence of creations, of empty files too: the files
that were created are those for which there was room after the ones before them, each begins where
the one before it ends, the bitmap has the blocks up to the last one, and each byte of `bloques.dat`
is that of the file that has it, or 0. If the read of the closed `FILE` ended the process it did so
in the last request, for a file that is not empty and for which there was room: the bitmap has its
blocks, and the rest is as the requests before it left it. -/
theorem disco_exacto (cfg : ConfigFilesystem) {pedidos : List Pedido} {s : Proceso}
    {creados : List Creado} (hbs : 1 ≤ cfg.blockSize.toNat)
    (hdisco : bloquesTotales cfg * cfg.blockSize.toNat < 2 ^ 31)
    (htam : ∀ p ∈ pedidos, p.archivo.tamanio.toNat + cfg.blockSize.toNat < 2 ^ 32)
    (hrun : run (pasoProceso cfg) ⟨discoInicial cfg, true⟩ pedidos = .ok (s, creados)) :
    if s.vivo then
      Representa (registro cfg (archivosDe pedidos)) (registro cfg (archivosDe pedidos)) creados
        s.disco
    else ∃ antes p, pedidos = antes ++ [p] ∧ p.retorna = false ∧ 0 < p.archivo.tamanio.toNat ∧
      (registro cfg (archivosDe antes)).used + bloquesDe cfg p.archivo ≤ bloquesTotales cfg ∧
      Representa (registro cfg (archivosDe pedidos)) (registro cfg (archivosDe antes)) creados
        s.disco := by
  induction pedidos using List.reverseRecOn generalizing s creados with
  | nil =>
    cases hrun
    exact ⟨bits_inicializarBitmap hbs hdisco,
      Extents.Log.holds_empty (inicializarBloques_ceros cfg), .nil⟩
  | append_singleton antes p ih =>
    obtain ⟨s₁, creados₁, creados₂, h₁, h₂, rfl⟩ := run_append_ok.mp hrun
    obtain ⟨s₂, o, _, hpaso, hnil, rfl⟩ := run_cons_ok.mp h₂
    cases hnil
    have hlog : registro cfg (archivosDe (antes ++ [p])) =
        (registro cfg (archivosDe antes)).anotar p.archivo := by
      rw [registro, archivosDe, List.map_append, List.foldl_append]
      rfl
    have hsum := htam p (by simp)
    have hI := ih (fun p hp => htam p (List.mem_append_left _ hp)) h₁
    rw [List.append_nil, hlog]
    obtain ⟨hvivo, ⟨hsigue, hcrea⟩ | ⟨hcae, hretorna, hlee, hd, rfl⟩⟩ := pasoProceso_ok hpaso
    · rw [if_pos hvivo] at hI
      have hI := hI.paso hbs hdisco hsum
      rw [hcrea] at hI
      rw [if_pos hsigue]
      exact hI
    · rw [if_pos hvivo] at hI
      obtain ⟨hroom, hlleno, hI⟩ := hI.corte hbs hdisco hsum hlee
      rw [if_neg (by simp [hcae]), List.append_nil, hd]
      exact ⟨antes, p, rfl, hretorna, hlleno, hroom, hI⟩

/-- A file in two blocks, one for which there is no room, an empty one that takes the last blocks,
and another empty one. -/
def conVacios : List Pedido :=
  [⟨⟨[], [1, 2, 3, 4, 5], 5, by decide⟩, true⟩, ⟨⟨[], List.replicate 28 6, 28, by decide⟩, true⟩,
    ⟨⟨[], [], 0, by decide⟩, false⟩, ⟨⟨[], [], 0, by decide⟩, false⟩]

/-- A file in two blocks, and one in whose creation the process ends. -/
def conCorte : List Pedido :=
  [⟨⟨[], [1, 2, 3, 4, 5], 5, by decide⟩, true⟩, ⟨⟨[], [7], 1, by decide⟩, false⟩]

theorem disco_exacto_ocho :
    (∃ s creados, run (pasoProceso ⟨4, 8⟩) ⟨discoInicial ⟨4, 8⟩, true⟩ conVacios =
        .ok (s, creados) ∧ creados.length = 3 ∧ s.disco.bitmap = [255] ∧
      Representa (registro ⟨4, 8⟩ (archivosDe conVacios)) (registro ⟨4, 8⟩ (archivosDe conVacios))
        creados s.disco) ∧
    ∃ s creados, run (pasoProceso ⟨4, 8⟩) ⟨discoInicial ⟨4, 8⟩, true⟩ conCorte =
        .ok (s, creados) ∧ creados.length = 1 ∧ s.disco.bitmap = [7] ∧
      ∃ antes p, conCorte = antes ++ [p] ∧ p.retorna = false ∧
        Representa (registro ⟨4, 8⟩ (archivosDe conCorte)) (registro ⟨4, 8⟩ (archivosDe antes))
          creados s.disco := by
  constructor
  · obtain ⟨s, creados, hrun, hvivo, hlen, hbitmap⟩ : ∃ s creados,
        run (pasoProceso ⟨4, 8⟩) ⟨discoInicial ⟨4, 8⟩, true⟩ conVacios = .ok (s, creados) ∧
          s.vivo = true ∧ creados.length = 3 ∧ s.disco.bitmap = [255] := ⟨_, _, rfl, rfl, rfl, rfl⟩
    have h := disco_exacto ⟨4, 8⟩ (by decide) (by decide) (by decide) hrun
    rw [if_pos hvivo] at h
    exact ⟨s, creados, hrun, hlen, hbitmap, h⟩
  · obtain ⟨s, creados, hrun, hvivo, hlen, hbitmap⟩ : ∃ s creados,
        run (pasoProceso ⟨4, 8⟩) ⟨discoInicial ⟨4, 8⟩, true⟩ conCorte = .ok (s, creados) ∧
          s.vivo = false ∧ creados.length = 1 ∧ s.disco.bitmap = [7] := ⟨_, _, rfl, rfl, rfl, rfl⟩
    have h := disco_exacto ⟨4, 8⟩ (by decide) (by decide) (by decide) hrun
    rw [if_neg (by simp [hvivo])] at h
    obtain ⟨antes, p, hantes, hretorna, -, -, h⟩ := h
    exact ⟨s, creados, hrun, hlen, hbitmap, antes, p, hantes, hretorna, h⟩

end LastOfC.Filesystem
