import LastOfC.Cpu.Mmu
import LastOfC.Memoria.Fijas

/-!
# Process isolation

The bounds that the MMU checks come from memoria: `configurar_particiones` computes them, a context
carries them to the CPU, and `inicializar_particion_de_memoria` installs them. They stay those of
the partition of the process (`particion_propia`), but the two modules do not agree on `limite`. For
memoria it is the last address of the partition, for the MMU the last offset in it, and neither
counts the width of an access. `escritura_aislada_iff` says which writes stay inside the partition
all the same.
-/

namespace LastOfC.Sistema

open KeyedList Memoria Cpu Tiling Trace

/-- The packets that reach memoria, in order. -/
def paraMemoria : List Cpu.Envio → List Peticion
  | [] => []
  | .aMemoria peticion :: envios => peticion :: paraMemoria envios
  | .processExit _ _ :: envios => paraMemoria envios

/-- A `WRITE_MEM` is stopped by the MMU without a request to write, or what memoria does with its
requests changes bytes of the partition only. -/
def EscrituraAislada (ent : Entorno) (s : Estado) (p : Particion)
    (ejecucion : Ejecucion (List Cpu.Envio)) : Prop :=
  (∃ envios, ejecucion = .error envios ∧ ∀ d, .writeMem d ∉ paraMemoria envios) ∨
    ∃ envios, ejecucion = .ok envios ∧ ∀ s', Reaches (atender ent) s (paraMemoria envios) s' →
      ∀ x, s'.memoria x ≠ s.memoria x → x ∈ p.rango

/-- The condition on the address and the data: the MMU refuses the address, memoria refuses it, the
word fits in what is left of the partition, or the bytes after the partition already are what would
be written there. -/
def EscrituraContenida (cfg : ConfigMemoria) (s : Estado) (p : Particion)
    (direccion dato : Uint32) : Prop :=
  p.limite.toNat < direccion.toNat ∨
    cfg.tamMemoria ≤ p.base.toNat + direccion.toNat + 4 ∨
    direccion.toNat + 4 ≤ p.tamanio.toNat ∨
    ∀ k < 4, p.tamanio.toNat ≤ direccion.toNat + k →
      s.memoria (p.base.toNat + direccion.toNat + k) = byteDe dato k

section Escritura

variable {m : Nat → Byte} {dir x : Nat} {valor : Uint32} {r : Seg}

theorem escribirPalabra_de_fuera (h : x < dir ∨ dir + 4 ≤ x) :
    escribirPalabra m dir valor x = m x := by
  rw [escribirPalabra, if_neg]
  omega

theorem escribirPalabra_byte {k : Nat} (h : k < 4) :
    escribirPalabra m dir valor (dir + k) = byteDe valor k := by
  rw [escribirPalabra, if_pos ⟨Nat.le_add_right dir k, by omega⟩, Nat.add_sub_cancel_left]

/-- A word that begins in a segment changes nothing outside it, if its bytes after the end of the
segment are there already. -/
theorem escribirPalabra_dentro_iff (h : r.base ≤ dir) :
    (∀ x, escribirPalabra m dir valor x ≠ m x → x ∈ r) ↔
      ∀ k < 4, r.stop ≤ dir + k → m (dir + k) = byteDe valor k := by
  constructor
  · intro hin k hk hstop
    by_contra hne
    have hx : escribirPalabra m dir valor (dir + k) ≠ m (dir + k) := by
      rw [escribirPalabra_byte hk]
      exact fun he => hne he.symm
    have hlt := (Seg.mem_def.mp (hin _ hx)).2
    omega
  · intro hcola x hx
    have hword : dir ≤ x ∧ x < dir + 4 := by
      by_contra hout
      exact hx (escribirPalabra_de_fuera (by omega))
    obtain ⟨k, rfl⟩ := Nat.exists_eq_add_of_le hword.1
    have hk : k < 4 := by omega
    refine Seg.mem_def.mpr ⟨by omega, ?_⟩
    by_contra hstop
    apply hx
    rw [escribirPalabra_byte hk, hcola k hk (by omega)]

/-- The only effect of a `WRITE_MEM` that memoria handles. -/
theorem reaches_writeMem {ent : Entorno} {s s' : Estado} {d : TDatosWriteMem}
    (h : Reaches (atender ent) s [.writeMem d] s') :
    s'.memoria =
      if d.dirFis.toNat + 4 < ent.tamMemoria then escribirPalabra s.memoria d.dirFis.toNat d.valor
      else s.memoria := by
  obtain ⟨o, h⟩ := reaches_singleton.mp h
  simp only [atender, Memoria.writeMem, direccionAceptada, decide_eq_true_eq] at h
  split at h
  · rename_i hlt
    cases h
    rw [if_pos hlt]
  · rename_i hlt
    cases h
    rw [if_neg hlt]

theorem exists_reaches_writeMem (ent : Entorno) (s : Estado) (d : TDatosWriteMem) :
    ∃ s', Reaches (atender ent) s [.writeMem d] s' := by
  have h : ∃ r, Memoria.writeMem ent.toConfigMemoria s d = .ok r := by
    unfold Memoria.writeMem
    split <;> exact ⟨_, rfl⟩
  obtain ⟨⟨s', o⟩, h⟩ := h
  exact ⟨s', reaches_singleton.mpr ⟨o, h⟩⟩

end Escritura

section Aislamiento

variable {ent : Entorno}

/-- A request to write is contained if memoria refuses it, or if its word is. -/
theorem aislada_writeMem_iff {s : Estado} {p : Particion} {d : TDatosWriteMem} :
    EscrituraAislada ent s p (.ok [.aMemoria (.writeMem d)]) ↔
      (d.dirFis.toNat + 4 < ent.tamMemoria →
        ∀ x, escribirPalabra s.memoria d.dirFis.toNat d.valor x ≠ s.memoria x → x ∈ p.rango) := by
  constructor
  · rintro (⟨envios, henv, -⟩ | ⟨envios, henv, hin⟩) hlt
    · cases henv
    · cases henv
      obtain ⟨s', hs'⟩ := exists_reaches_writeMem ent s d
      have hmem := reaches_writeMem hs'
      rw [if_pos hlt] at hmem
      rw [← hmem]
      exact hin s' hs'
  · intro hin
    refine .inr ⟨_, rfl, fun s' hs' x hx => ?_⟩
    rw [reaches_writeMem hs'] at hx
    split at hx
    · rename_i hlt
      exact hin hlt x hx
    · exact absurd rfl hx

/-- One instruction, in a state in which the partition is where the MMU has it. -/
theorem writeMem_aislada_iff {s : Estado} {p : Particion} (hp : Encuadrada ent.tamMemoria p)
    {PidHilo : Uint32} {registroDireccion registroDatos : Cadena} {rDir rDatos : Registro}
    (hdir : obtenerRegistro registroDireccion = some rDir)
    (hdatos : obtenerRegistro registroDatos = some rDatos) (c : TContextoEjecucion) :
    EscrituraAislada ent s p (Cpu.writeMem (inicializarParticionDeMemoria p.base p.limite) PidHilo
        registroDireccion registroDatos c) ↔
      EscrituraContenida ent.toConfigMemoria s p (rDir.valor c.RegistrosCPU)
        (rDatos.valor c.RegistrosCPU) := by
  have hsum : p.base.toNat + p.limite.toNat < 2 ^ 32 := hp.sin_desborde ent.tam_lt
  generalize hl : rDir.valor c.RegistrosCPU = direccion
  generalize hv : rDatos.valor c.RegistrosCPU = dato
  have hmmu : mmu (inicializarParticionDeMemoria p.base p.limite) direccion c =
      if direccion.toNat ≤ p.limite.toNat then .ok (p.base + direccion)
      else .error [.aMemoria (.actualizarContexto c), .processExit c.pid c.TID] := mmu_eq hsum
  simp only [Cpu.writeMem, hdir, hdatos, hl, hv, hmmu]
  by_cases hle : direccion.toNat ≤ p.limite.toNat
  · -- The address gets through the MMU, so memoria decides what is written.
    have hfis : (p.base + direccion).toNat = p.base.toNat + direccion.toNat :=
      BitVec.toNat_add_of_lt (by omega)
    simp only [if_pos hle]
    have hword : (∀ x, escribirPalabra s.memoria (p.base.toNat + direccion.toNat) dato x ≠
        s.memoria x → x ∈ p.rango) ↔
        ∀ k < 4, p.base.toNat + p.tamanio.toNat ≤ p.base.toNat + direccion.toNat + k →
          s.memoria (p.base.toNat + direccion.toNat + k) = byteDe dato k :=
      escribirPalabra_dentro_iff (Nat.le_add_right _ _)
    simp only [Nat.add_assoc, Nat.add_le_add_iff_left] at hword
    rw [aislada_writeMem_iff, EscrituraContenida, or_iff_right (Nat.not_lt.mpr hle)]
    simp only [hfis, hword, Nat.add_assoc]
    constructor
    · intro hin
      by_cases hT : ent.tamMemoria ≤ p.base.toNat + direccion.toNat + 4
      · exact .inl hT
      · exact .inr (.inr (hin (by omega)))
    · rintro (hT | hfit | hcola) hlt
      · omega
      · intro k hk htam
        omega
      · exact hcola
  · rw [if_neg hle]
    refine iff_of_true (.inl ⟨_, rfl, fun d => ?_⟩) (.inl (by omega))
    simp [paraMemoria]

/-- A delivered context is the copy of one in the list. -/
theorem contexto_entregado {s : Estado} {d : TEnviarContexto} {c : TContextoEjecucion}
    (h : atender ent s (.obtenerContexto d) = .ok (s, [⟨.cpu, .enviarContexto c⟩])) :
    ∃ c' ∈ s.listaContextos, c'.pid = c.pid ∧ c'.base = c.base ∧ c'.limite = c.limite := by
  simp only [atender, devolverContextoEjecucion] at h
  split at h
  · rename_i i c' hi
    cases h
    exact ⟨c', search_mem hi, rfl, rfl, rfl⟩
  · cases h

/-- The bounds that a context brought to the CPU stay those of the partition that its process owns,
until the process is finished. The kernel owes it that it keeps the rules of live partitions and
asks for no more memory for a process that is executing. -/
theorem particion_propia {basura : Nat → Uint32} {memoria : Nat → Byte} {as bs : List Peticion}
    {s s' : Estado} (has : ∀ a ∈ as ++ bs, a.pid ≠ 0)
    (hini : ∀ p ∈ configurarParticiones ent.toConfigMemoria basura, ∀ a ∈ as ++ bs, p.pid ≠ a.pid)
    (hasig : EveryStep (atender ent) (estadoInicial ent.toConfigMemoria basura memoria) (as ++ bs)
      fun _ s a => AsignaSinHilos s a)
    (hs : Reaches (atender ent) (estadoInicial ent.toConfigMemoria basura memoria) as s)
    {d : TEnviarContexto} {c : TContextoEjecucion}
    (hc : atender ent s (.obtenerContexto d) = .ok (s, [⟨.cpu, .enviarContexto c⟩]))
    (hs' : Reaches (atender ent) s bs s') (hvivo : .finalizarProceso c.pid ∉ as ++ bs)
    (hbs : ∀ d, .asignarMemoria d ∈ bs → c.pid ≠ d.pid) :
    ∃ p, buscarParticionPorPid s'.listaParticiones c.pid = some p ∧ p.base = c.base ∧
      p.limite = c.limite := by
  have hest := estables_corrida has hini hasig
  obtain ⟨c', hc', hpid, hbase, hlim⟩ := contexto_entregado hc
  have hest₁ := hest as s (List.prefix_append _ _) hs
  have husado : ∃ b ∈ as ++ bs, c.pid = b.pid := hpid ▸ hest₁.usados c' hc'
  have hsame : buscarParticionPorPid s'.listaParticiones c.pid =
      buscarParticionPorPid s.listaParticiones c.pid := by
    refine hs'.along (I := fun _ t => buscarParticionPorPid t.listaParticiones c.pid =
      buscarParticionPorPid s.listaParticiones c.pid) rfl ?_
    intro q t a t' o hpre hq hI h
    have ha : a ∈ bs := hpre.subset (by simp)
    have hpre' : as ++ q <+: as ++ bs :=
      List.prefix_append_right_inj as |>.mpr ((List.prefix_append _ _).trans hpre)
    have hestq := hest (as ++ q) t hpre' (reaches_append.mpr ⟨s, hs, hq⟩)
    refine (hestq.buscar has husado (fun d hd => hbs d (hd ▸ ha)) ?_ h).trans hI
    rintro rfl
    exact hvivo (List.mem_append_right as ha)
  have hfin : Peticion.finalizarProceso c'.pid ∉ as := by
    rw [hpid]
    exact fun hmem => hvivo (List.mem_append_left bs hmem)
  obtain ⟨p, hp, hpb, hpl⟩ := hest₁.fieles c' hc' hfin
  rw [hpid] at hp
  exact ⟨p, hsame.trans hp, hpb.symm.trans hbase, hpl.symm.trans hlim⟩

/-- Three partitions, for runs on fixed inputs. -/
def entornoFijo : Entorno :=
  { entornoDinamico 100 (by decide) with
    esquema := .fijas
    particiones := [20, 20, 60] }

/-- Processes 1 and 2 have a partition each, and process 2 has a thread. -/
def dosProcesos : Estado :=
  { listaParticiones := [⟨0, 19, 20, false, 1⟩, ⟨20, 39, 20, false, 2⟩, ⟨40, 99, 60, true, 0⟩]
    listaContextos := [⟨2, 0, 20, 39, .cero, 0, [], 0⟩]
    memoria := fun _ => 0 }

theorem reaches_dosProcesos :
    Reaches (atender entornoFijo)
      (estadoInicial entornoFijo.toConfigMemoria (fun _ => 0) fun _ => 0)
      [.asignarMemoria ⟨1, 20⟩, .asignarMemoria ⟨2, 20⟩, .hiloReady ⟨2, 0, 0, []⟩] dosProcesos :=
  ⟨_, rfl⟩

/-- **Isolation of writes.** Under `FIJAS` the bounds that a context brings to the CPU are those of
a partition of the list, whatever memoria has done since. A `WRITE_MEM` with these bounds is stopped
by the MMU or changes bytes of the partition only exactly when `EscrituraContenida`. -/
theorem escritura_aislada_iff {basura : Nat → Uint32} {memoria : Nat → Byte}
    (hesq : ent.esquema = .fijas)
    (hsuma : (ent.particiones.map BitVec.toNat).sum = ent.tamMemoria)
    {as bs : List Peticion} {s s' : Estado}
    (hs : Reaches (atender ent) (estadoInicial ent.toConfigMemoria basura memoria) as s)
    {d : TEnviarContexto} {c : TContextoEjecucion}
    (hc : atender ent s (.obtenerContexto d) = .ok (s, [⟨.cpu, .enviarContexto c⟩]))
    (hs' : Reaches (atender ent) s bs s') :
    Ubicado s'.listaParticiones c.base c.limite ∧
      ∀ p ∈ s'.listaParticiones, p.base = c.base → p.limite = c.limite →
        ∀ registros PC PidHilo registroDireccion registroDatos rDir rDatos,
          obtenerRegistro registroDireccion = some rDir →
          obtenerRegistro registroDatos = some rDatos →
          (EscrituraAislada ent s' p
            (Cpu.writeMem (inicializarParticionDeMemoria c.base c.limite) PidHilo
              registroDireccion registroDatos { c with RegistrosCPU := registros, PC }) ↔
            EscrituraContenida ent.toConfigMemoria s' p (rDir.valor registros)
              (rDatos.valor registros)) := by
  constructor
  · obtain ⟨c', hc', -, hbase, hlim⟩ := contexto_entregado hc
    have hubicado := ubicados_corrida hesq hs (by simp [estadoInicial]) c' hc'
    rw [hbase, hlim] at hubicado
    exact ubicado_geometrias (geometrias_corrida hesq hs') hubicado
  · intro p hp hbase hlim registros PC PidHilo registroDireccion registroDatos rDir rDatos hdir
      hdatos
    have henc := encuadradas_corrida hesq hsuma (reaches_append.mpr ⟨s, hs, hs'⟩) p hp
    rw [← hbase, ← hlim]
    exact writeMem_aislada_iff henc hdir hdatos _

/-- The last word of the partition of process 2. -/
theorem escritura_aislada_iff_dos_procesos :
    EscrituraAislada entornoFijo dosProcesos ⟨20, 39, 20, false, 2⟩
      (Cpu.writeMem (inicializarParticionDeMemoria 20 39) 2 ['A', 'X'] ['B', 'X']
        ⟨0, { RegistrosCPU.cero with AX := 16, BX := 255 }, 0, 20, 39, 2⟩) :=
  ((escritura_aislada_iff rfl rfl reaches_dosProcesos (d := ⟨2, 0⟩)
      (c := ⟨0, .cero, 0, 20, 39, 2⟩) rfl (reaches_nil.mpr rfl)).2
    ⟨20, 39, 20, false, 2⟩ (by decide) rfl rfl { RegistrosCPU.cero with AX := 16, BX := 255 } 0 2
    ['A', 'X'] ['B', 'X'] .AX .BX rfl rfl).mpr (.inr (.inr (.inl (by decide))))

/-- Process 2 writes at its address 30. The MMU lets it through, since 30 is at most `limite`, and
the byte 50 of memoria is in the next partition. -/
theorem escritura_en_otra_particion :
    ∃ s c p, Reaches (atender entornoFijo)
        (estadoInicial entornoFijo.toConfigMemoria (fun _ => 0) fun _ => 0)
        [.asignarMemoria ⟨1, 20⟩, .asignarMemoria ⟨2, 20⟩, .hiloReady ⟨2, 0, 0, []⟩] s ∧
      atender entornoFijo s (.obtenerContexto ⟨2, 0⟩) = .ok (s, [⟨.cpu, .enviarContexto c⟩]) ∧
      buscarParticionPorPid s.listaParticiones 2 = some p ∧ p.base = c.base ∧
      p.limite = c.limite ∧
      ¬ EscrituraAislada entornoFijo s p
        (Cpu.writeMem (inicializarParticionDeMemoria c.base c.limite) 2 ['A', 'X'] ['B', 'X']
          { c with RegistrosCPU := { RegistrosCPU.cero with AX := 30, BX := 255 } }) := by
  refine ⟨dosProcesos, ⟨0, .cero, 0, 20, 39, 2⟩, ⟨20, 39, 20, false, 2⟩, reaches_dosProcesos, rfl,
    rfl, rfl, rfl, ?_⟩
  have henc : Encuadrada 100 ⟨20, 39, 20, false, 2⟩ := ⟨rfl, by decide⟩
  intro h
  have hcond := (writeMem_aislada_iff henc rfl rfl _).mp h
  rcases hcond with hmmu | hmem | hfit | hcola
  · exact absurd hmmu (by decide)
  · exact absurd hmem (by decide)
  · exact absurd hfit (by decide)
  · exact absurd (hcola 0 (by decide) (by decide)) (by decide)

end Aislamiento

end LastOfC.Sistema
