import Mathlib.Data.List.Find
import LastOfC.Kernel.Envios

/-!
# The table of processes

`TablaSana`: the processes of `lista_procesos` have their own addresses, the last one has the last
pid given, and the counter of each is at 0, or was closed by `finalizar_proceso`. `MismaTabla` is
all that the end of threads and processes does to the table: no process comes, goes or changes its
pid. `crear_proceso` adds a process at the end.
-/

namespace LastOfC.Kernel

open Imp

variable {ent : Entorno} {k k₁ k' : Estado}

/-- The process `p` went through `finalizar_proceso`, and is the one that a search finds. -/
def Estado.Cerrado (k : Estado) (p : Dir) : Prop :=
  (k.pcbs p).listaTid = none ∧ k.buscarProceso (k.pcbs p).pid = some p

structure Estado.TablaSana (k : Estado) : Prop where
  distintos : k.listaProcesos.Nodup
  previos : ∀ p ∈ k.listaProcesos, p < k.proximo
  ultimo : ∀ p, k.listaProcesos.getLast? = some p → (k.pcbs p).pid = k.pid
  contador : ∀ p ∈ k.listaProcesos, (k.pcbs p).tidContador = 0 ∨ k.Cerrado p

structure MismaTabla (k k' : Estado) : Prop where
  pid : k'.pid = k.pid
  procesos : k'.listaProcesos = k.listaProcesos
  nuevos : k'.colaNew = k.colaNew
  hilos : k'.listaTcbs = k.listaTcbs
  proximo : k.proximo ≤ k'.proximo
  pidDe : ∀ p, (k'.pcbs p).pid = (k.pcbs p).pid
  contador : ∀ p, ((k'.pcbs p).tidContador = (k.pcbs p).tidContador ∧
    ((k.pcbs p).listaTid = none → (k'.pcbs p).listaTid = none)) ∨ k'.Cerrado p

namespace MismaTabla

/-- A step that writes to no PCB. -/
theorem de_pcbs (hpid : k'.pid = k.pid) (hproc : k'.listaProcesos = k.listaProcesos)
    (hnew : k'.colaNew = k.colaNew) (htcbs : k'.listaTcbs = k.listaTcbs)
    (hprox : k.proximo ≤ k'.proximo) (hpcbs : k'.pcbs = k.pcbs) : MismaTabla k k' := by
  refine ⟨hpid, hproc, hnew, htcbs, hprox, fun p => ?_, fun p => .inl ?_⟩
  · rw [hpcbs]
  · rw [hpcbs]
    exact ⟨rfl, id⟩

theorem buscarProceso (h : MismaTabla k k') (pid : Uint32) :
    k'.buscarProceso pid = k.buscarProceso pid := by
  unfold Estado.buscarProceso
  rw [h.procesos]
  simp only [h.pidDe]

theorem cerrado {p : Dir} (h : MismaTabla k k') (hp : k.Cerrado p) : k'.Cerrado p := by
  rcases h.contador p with ⟨-, hlista⟩ | hcerrado
  · refine ⟨hlista hp.1, ?_⟩
    rw [h.buscarProceso, h.pidDe]
    exact hp.2
  · exact hcerrado

theorem trans (h : MismaTabla k k₁) (h' : MismaTabla k₁ k') : MismaTabla k k' where
  pid := h'.pid.trans h.pid
  procesos := h'.procesos.trans h.procesos
  nuevos := h'.nuevos.trans h.nuevos
  hilos := h'.hilos.trans h.hilos
  proximo := Nat.le_trans h.proximo h'.proximo
  pidDe p := (h'.pidDe p).trans (h.pidDe p)
  contador p := by
    rcases h.contador p with ⟨hcont, hlista⟩ | hcerrado
    · rcases h'.contador p with ⟨hcont', hlista'⟩ | hcerrado'
      · exact .inl ⟨hcont'.trans hcont, fun hno => hlista' (hlista hno)⟩
      · exact .inr hcerrado'
    · exact .inr (h'.cerrado hcerrado)

theorem sana (h : MismaTabla k k') (hk : k.TablaSana) : k'.TablaSana where
  distintos := h.procesos ▸ hk.distintos
  previos p hp := Nat.lt_of_lt_of_le (hk.previos p (h.procesos ▸ hp)) h.proximo
  ultimo p hp := by
    rw [h.procesos] at hp
    rw [h.pidDe, h.pid]
    exact hk.ultimo p hp
  contador p hp := by
    rw [h.procesos] at hp
    rcases hk.contador p hp with hcero | hcerrado
    · rcases h.contador p with ⟨hcont, -⟩ | hcerrado'
      · exact .inl (hcont.trans hcero)
      · exact .inr hcerrado'
    · exact .inr (h.cerrado hcerrado)

end MismaTabla

/-! ## The end of threads and processes -/

theorem finalizarHilo_tabla {h : Dir} (hr : (finalizarHilo ent h).run k = .ok () k') :
    MismaTabla k k' := by
  rcases finalizarHilo_ok hr with
    ⟨-, m, vs, rfl⟩ | ⟨bs, p, ms, tids, k₁, m, vs, -, htids, hd, -, -, rfl⟩
  · exact .de_pcbs rfl rfl rfl rfl (Nat.le_refl _) rfl
  · have hpcbs : k₁.pcbs = (k.terminarHilo h p ms tids).pcbs := by rw [hd.marco]
    have hpcb : ∀ q, ((k₁.modTcb h ent.residuo).pcbs q) =
        Function.update k.pcbs p { k.pcbs p with mutex := ms, listaTid := some tids } q := by
      intro q
      show k₁.pcbs q = _
      rw [hpcbs]
      rfl
    refine ⟨?_, ?_, ?_, ?_, ?_, fun q => ?_, fun q => .inl ?_⟩
    · rw [hd.marco]
      rfl
    · rw [hd.marco]
      rfl
    · rw [hd.marco]
      rfl
    · rw [hd.marco]
      rfl
    · rw [hd.marco]
      exact Nat.le_refl _
    · show ((k₁.modTcb h ent.residuo).pcbs q).pid = _
      rw [hpcb]
      by_cases hq : q = p
      · subst hq
        simp
      · simp [hq]
    · show ((k₁.modTcb h ent.residuo).pcbs q).tidContador = _ ∧
        (_ → ((k₁.modTcb h ent.residuo).pcbs q).listaTid = none)
      rw [hpcb]
      by_cases hq : q = p
      · subst hq
        simp [htids]
      · simp [hq]

theorem finalizarTodos_tabla {p : Dir} {hs : List Dir}
    (hr : (each (finalizarSiEsDe ent p) hs).run k = .ok () k') : MismaTabla k k' := by
  have hrefl : MismaTabla k k := .de_pcbs rfl rfl rfl rfl (Nat.le_refl _) rfl
  refine each_ok (I := fun _ s => MismaTabla k s) hr hrefl ?_
  intro h rest s₁ s₂ _ hs₁ hh
  rcases finalizarSiEsDe_ok hh with ⟨-, rfl⟩ | ⟨-, hfin⟩
  · exact hs₁
  · exact hs₁.trans (finalizarHilo_tabla hfin)

/-- `finalizar_proceso` closes the process that it was called for. -/
theorem cerrarProceso_tabla {p : Dir} (hp : k.buscarProceso (k.pcbs p).pid = some p) (m : Nat)
    (vs : List Nat) : MismaTabla k ((k.cerrarProceso p).conCerrojo m vs) := by
  have hpid : ∀ q, (((k.cerrarProceso p).conCerrojo m vs).pcbs q).pid = (k.pcbs q).pid := by
    intro q
    show ((k.cerrarProceso p).pcbs q).pid = _
    unfold Estado.cerrarProceso Estado.modPcb
    by_cases hq : q = p
    · subst hq
      simp
    · simp [hq]
  refine ⟨rfl, rfl, rfl, rfl, Nat.le_succ _, hpid, fun q => ?_⟩
  by_cases hq : q = p
  · subst hq
    refine .inr ⟨?_, ?_⟩
    · show ((k.cerrarProceso q).pcbs q).listaTid = none
      simp [Estado.cerrarProceso, Estado.modPcb]
    · rw [hpid]
      unfold Estado.buscarProceso at hp ⊢
      simp only [hpid]
      exact hp
  · refine .inl ?_
    show ((k.cerrarProceso p).pcbs q).tidContador = _ ∧
      (_ → ((k.cerrarProceso p).pcbs q).listaTid = none)
    simp [Estado.cerrarProceso, Estado.modPcb, hq]

/-- `crear_hilo` adds a tid to the process that it finds. -/
theorem agregarTid_tabla {p : Dir} (hp : (k.pcbs p).listaTid ≠ none) (tids : List Puntero)
    (n : Nat) : MismaTabla k { (k.modPcb p fun r => { r with listaTid := some tids }) with
      proximo := k.proximo + n } := by
  refine ⟨rfl, rfl, rfl, rfl, Nat.le_add_right _ _, fun q => ?_, fun q => .inl ?_⟩
  · show ((k.modPcb p fun r => { r with listaTid := some tids }).pcbs q).pid = _
    rw [modPcb_listaTid]
  · show ((k.modPcb p fun r => { r with listaTid := some tids }).pcbs q).tidContador = _ ∧
      (_ → ((k.modPcb p fun r => { r with listaTid := some tids }).pcbs q).listaTid = none)
    rw [modPcb_listaTid]
    by_cases hq : q = p
    · subst hq
      simp [hp]
    · simp [hq]

/-! ## A new process -/

/-- The process `p` is new, with the next pid. -/
structure NuevoProceso (k : Estado) (p : Dir) (k' : Estado) : Prop where
  fresco : k.proximo ≤ p
  proximo : p < k'.proximo
  pid : k'.pid = k.pid + 1
  procesos : k'.listaProcesos = k.listaProcesos ++ [p]
  nuevos : k'.colaNew = k.colaNew ++ [p]
  hilos : k'.listaTcbs = k.listaTcbs
  otros : ∀ q, q ≠ p → k'.pcbs q = k.pcbs q
  pidDe : (k'.pcbs p).pid = k'.pid
  contador : (k'.pcbs p).tidContador = 0

theorem crearProceso_nuevo {tam : CInt} {path : Cadena} {prioridad : CInt}
    (hr : (crearProceso tam path prioridad).run k = .ok () k') :
    k'.enviados = k.enviados ∧ NuevoProceso k k.proximo k' := by
  obtain ⟨m, vs, rfl⟩ := crearProceso_ok hr
  refine ⟨rfl, Nat.le_refl _, Nat.lt_succ_self _, rfl, rfl, rfl, rfl, fun q hq => ?_, ?_, ?_⟩
  · exact Function.update_of_ne hq _ _
  · simp
  · simp

namespace NuevoProceso

variable {p : Dir}

/-- The other processes in the table have older addresses. -/
theorem pcbs (h : NuevoProceso k p k') (hk : k.TablaSana) {q : Dir} (hq : q ∈ k.listaProcesos) :
    k'.pcbs q = k.pcbs q :=
  h.otros q (Nat.ne_of_lt (Nat.lt_of_lt_of_le (hk.previos q hq) h.fresco))

theorem buscarProceso (h : NuevoProceso k p k') (hk : k.TablaSana) {q : Dir} {pid : Uint32}
    (hq : k.buscarProceso pid = some q) : k'.buscarProceso pid = some q := by
  have hcong : ∀ r ∈ k.listaProcesos,
      decide ((k'.pcbs r).pid = pid) = decide ((k.pcbs r).pid = pid) := by
    intro r hr
    rw [h.pcbs hk hr]
  unfold Estado.buscarProceso at hq ⊢
  rw [h.procesos, List.find?_append, List.find?_congr hcong, hq]
  rfl

theorem sana (h : NuevoProceso k p k') (hk : k.TablaSana) : k'.TablaSana := by
  refine ⟨?_, fun q hq => ?_, fun q hq => ?_, fun q hq => ?_⟩
  · rw [h.procesos]
    refine List.nodup_append.mpr ⟨hk.distintos, List.nodup_singleton _, ?_⟩
    rintro q hq r hr rfl
    obtain rfl := List.mem_singleton.mp hr
    exact absurd (hk.previos q hq) (Nat.not_lt_of_le h.fresco)
  · rw [h.procesos] at hq
    rcases List.mem_append.mp hq with hq | hq
    · exact Nat.lt_trans (Nat.lt_of_lt_of_le (hk.previos q hq) h.fresco) h.proximo
    · obtain rfl := List.mem_singleton.mp hq
      exact h.proximo
  · rw [h.procesos, List.getLast?_concat] at hq
    obtain rfl := Option.some.inj hq
    exact h.pidDe
  · rw [h.procesos] at hq
    rcases List.mem_append.mp hq with hq | hq
    · unfold Estado.Cerrado
      rw [h.pcbs hk hq]
      exact (hk.contador q hq).imp_right fun hcerrado =>
        ⟨hcerrado.1, h.buscarProceso hk hcerrado.2⟩
    · obtain rfl := List.mem_singleton.mp hq
      exact .inl h.contador

end NuevoProceso

end LastOfC.Kernel
