import LastOfC.Kernel.Colecciones
import LastOfC.Kernel.Creacion
import LastOfC.Kernel.Marco
import LastOfC.Kernel.Soltar

/-!
# The mutexes of a process

`mutexesDe` are the mutexes of the process with a pid, and `enEspera` the tids in their queues.
`CambiaMutexes` is what a step can do to the mutexes of one process, and `paso_mutexes` that a
completed step does one of these things.
-/

namespace LastOfC.Kernel

open Imp KeyedList

variable {ent : Entorno} {k k' : Estado} {p : Paso} {o : List Paquete} {pid : Uint32} {q : Dir}

/-- The mutexes of the process that a search for the pid finds. -/
def Estado.mutexesDe (k : Estado) (pid : Uint32) : List TMutex :=
  match k.buscarProceso pid with
  | some p => (k.pcbs p).mutex
  | none => []

/-- The tids that wait for the mutexes of a list. -/
def enEspera (ms : List TMutex) : List Uint32 := ms.flatMap TMutex.bloqueadosMutex

/-! ## The mutexes that a search finds -/

theorem mutexesDe_of_buscar {q : Dir} (hq : k.buscarProceso pid = some q) :
    k.mutexesDe pid = (k.pcbs q).mutex := by
  unfold Estado.mutexesDe
  rw [hq]

theorem mutexDe_eq (d : TMutexTodos) :
    k.mutexDe d = (buscarMutex (k.mutexesDe d.PID) d.recurso).map Prod.snd := by
  unfold Estado.mutexDe Estado.mutexesDe
  cases k.buscarProceso d.PID with
  | none => rfl
  | some q => rfl

theorem mutexesDe_congr (hb : k'.buscarProceso pid = k.buscarProceso pid)
    (hm : ∀ q, k.buscarProceso pid = some q → (k'.pcbs q).mutex = (k.pcbs q).mutex) :
    k'.mutexesDe pid = k.mutexesDe pid := by
  unfold Estado.mutexesDe
  rw [hb]
  cases hq : k.buscarProceso pid with
  | none => rfl
  | some q => exact hm q hq

theorem mem_of_buscarMutex {ms : List TMutex} {recurso : Cadena} {i : Nat} {l : TMutex}
    (h : buscarMutex ms recurso = some (i, l)) : ms[i]? = some l ∧ l ∈ ms :=
  ⟨search_getElem? h, search_mem h⟩

/-- A write to the PCB of the process that keeps its pid. -/
theorem mutexesDe_modPcb {q : Dir} {f : PCB → PCB} (hq : k.buscarProceso pid = some q)
    (hf : (f (k.pcbs q)).pid = (k.pcbs q).pid) :
    (k.modPcb q f).mutexesDe pid = (f (k.pcbs q)).mutex := by
  have hbus : (k.modPcb q f).buscarProceso pid = k.buscarProceso pid := by
    unfold Estado.buscarProceso
    refine List.find?_congr fun r _ => ?_
    by_cases hr : r = q
    · subst hr
      simp [Estado.modPcb, hf]
    · simp [Estado.modPcb, hr]
  rw [mutexesDe_of_buscar (hbus.trans hq)]
  simp [Estado.modPcb]

theorem mutexesDe_setMutex {q : Dir} {i : Nat} {m : TMutex} (hq : k.buscarProceso pid = some q) :
    (k.setMutex q i m).mutexesDe pid = (k.mutexesDe pid).set i m := by
  rw [mutexesDe_of_buscar hq]
  exact mutexesDe_modPcb (f := fun pcb => { pcb with mutex := pcb.mutex.set i m }) hq rfl

/-! ## The queues -/

theorem enEspera_crear (ms : List TMutex) (recurso : Cadena) :
    enEspera (ms ++ [⟨recurso, sinHilo, []⟩]) = enEspera ms := by
  unfold enEspera
  rw [List.flatMap_append]
  exact List.append_nil _

theorem mem_enEspera {ms : List TMutex} {m : TMutex} {t : Uint32} (hm : m ∈ ms)
    (ht : t ∈ m.bloqueadosMutex) : t ∈ enEspera ms :=
  List.mem_flatMap.mpr ⟨m, hm, ht⟩

theorem enEspera_split (pre post : List TMutex) (m : TMutex) :
    enEspera (pre ++ m :: post) = enEspera pre ++ (m.bloqueadosMutex ++ enEspera post) := by
  unfold enEspera
  rw [List.flatMap_append, List.flatMap_cons]

/-- A mutex is written with a part of its queue. -/
theorem enEspera_set_sublist {ms : List TMutex} {i : Nat} {m n : TMutex} (hi : ms[i]? = some m)
    (hm : n.bloqueadosMutex.Sublist m.bloqueadosMutex) :
    (enEspera (ms.set i n)).Sublist (enEspera ms) := by
  obtain ⟨pre, post, rfl, rfl⟩ := exists_split hi
  rw [set_split, enEspera_split, enEspera_split]
  exact (hm.append_right _).append_left _

/-- A mutex is written with another tid in its queue. -/
theorem enEspera_set_append {ms : List TMutex} {i : Nat} {m n : TMutex} {t : Uint32}
    (hi : ms[i]? = some m) (hm : n.bloqueadosMutex = m.bloqueadosMutex ++ [t]) :
    (enEspera (ms.set i n)).Perm (t :: enEspera ms) := by
  obtain ⟨pre, post, rfl, rfl⟩ := exists_split hi
  rw [set_split, enEspera_split, enEspera_split, hm, List.append_assoc, List.singleton_append]
  refine (List.Perm.append_left _ List.perm_middle).trans List.perm_middle

/-- The first of a queue that leaves it waits nowhere else. -/
theorem no_vuelve {ms : List TMutex} {i : Nat} {m n : TMutex} {t : Uint32} {resto : List Uint32}
    (hi : ms[i]? = some m) (hm : m.bloqueadosMutex = t :: resto)
    (hd : (enEspera ms).Nodup) (hn : n.bloqueadosMutex = resto) :
    t ∉ enEspera (ms.set i n) := by
  obtain ⟨pre, post, rfl, rfl⟩ := exists_split hi
  rw [enEspera_split, hm, List.cons_append] at hd
  rw [set_split, enEspera_split, hn]
  exact (List.nodup_cons.mp (List.perm_middle.nodup_iff.mp hd)).1

/-! ## The list of processes -/

/-- Only a `PROCESS_CREATE` changes the searches for processes. -/
theorem Crea.buscarProceso (h : Crea ent k p k') (hp : p.creaProceso = false) :
    k'.buscarProceso pid = k.buscarProceso pid := by
  have hnace : ∀ {e : Dir} {id : Uint32 × Uint32}, NaceHilo k e id k' →
      k'.buscarProceso pid = k.buscarProceso pid := by
    intro e id hn
    unfold Estado.buscarProceso
    rw [hn.procesos]
    simp only [hn.pidDe]
  cases h with
  | proceso => cases hp
  | principal _ _ _ hn => exact hnace hn
  | hilo _ _ _ hn => exact hnace hn
  | nada _ _ _ hs => exact hs.tabla.buscarProceso pid

/-- A `PROCESS_CREATE` appends a process without mutexes, and writes no other one. -/
theorem processCreate_nuevo {d : TProcessCreate} (hk : k.Asignado)
    (hr : (crearProceso d.tamProceso d.nomArchP d.prioridadHM).run k = .ok () k') :
    k'.listaProcesos = k.listaProcesos ++ [k.proximo] ∧ (k'.pcbs k.proximo).mutex = [] ∧
      ∀ q ∈ k.listaProcesos, k'.pcbs q = k.pcbs q := by
  obtain ⟨m, vs, rfl⟩ := crearProceso_ok hr
  refine ⟨rfl, by simp, fun q hq => ?_⟩
  exact Function.update_of_ne (Nat.ne_of_lt (hk.procesos q hq)) _ _

/-- A search finds the process that it found before, or the new one. -/
theorem buscarProceso_append {r : Dir} (hlista : k'.listaProcesos = k.listaProcesos ++ [r])
    (hpcbs : ∀ q ∈ k.listaProcesos, k'.pcbs q = k.pcbs q) :
    k'.buscarProceso pid =
      (k.buscarProceso pid).or (if (k'.pcbs r).pid = pid then some r else none) := by
  unfold Estado.buscarProceso
  rw [hlista, List.find?_append, List.find?_singleton]
  have hviejos : (k.listaProcesos.find? fun q => (k'.pcbs q).pid = pid) =
      k.listaProcesos.find? fun q => (k.pcbs q).pid = pid := by
    refine List.find?_congr fun q hq => ?_
    rw [hpcbs q hq]
  rw [hviejos]
  simp

/-- A new process has no mutexes. -/
theorem processCreate_mutexes {d : TProcessCreate} (hk : k.Asignado)
    (hr : (crearProceso d.tamProceso d.nomArchP d.prioridadHM).run k = .ok () k') :
    k'.mutexesDe pid = k.mutexesDe pid := by
  obtain ⟨hlista, hvacio, hpcbs⟩ := processCreate_nuevo hk hr
  have hbus : k'.buscarProceso pid = _ := buscarProceso_append hlista hpcbs
  unfold Estado.mutexesDe
  rw [hbus]
  cases hq : k.buscarProceso pid with
  | some q =>
    show (k'.pcbs q).mutex = (k.pcbs q).mutex
    rw [hpcbs q (List.mem_of_find?_eq_some hq)]
  | none =>
    by_cases hpid : (k'.pcbs k.proximo).pid = pid
    · simp [hpid, hvacio]
    · simp [hpid]

/-- What a step leaves of the list of processes: the processes of the list keep their pid, and a
search that found one still does. A new one has no mutexes. -/
theorem paso_procesos (hk : k.Asignado) (hp : paso ent k p = .ok (k', o))
    (hq : q ∈ k'.listaProcesos) :
    (q ∈ k.listaProcesos ∧ (k'.pcbs q).pid = (k.pcbs q).pid ∧
      ∀ n, k.buscarProceso n = some q → k'.buscarProceso n = some q) ∨ (k'.pcbs q).mutex = [] := by
  have hnace : ∀ {e : Dir} {id : Uint32 × Uint32}, NaceHilo k e id k' →
      k'.listaProcesos = k.listaProcesos ∧ (k'.pcbs q).pid = (k.pcbs q).pid := fun hn =>
    ⟨hn.procesos, hn.pidDe q⟩
  by_cases hcrea : p.creaProceso = true
  · cases p with
    | syscall y =>
      cases y with
      | processCreate d =>
        obtain ⟨hlista, hvacio, hpcbs⟩ := processCreate_nuevo hk (paso_ok hp)
        rw [hlista] at hq
        rcases List.mem_append.mp hq with hq | hq
        · refine .inl ⟨hq, congrArg PCB.pid (hpcbs q hq), fun n hn => ?_⟩
          rw [buscarProceso_append hlista hpcbs, hn]
          rfl
        · obtain rfl := List.mem_singleton.mp hq
          exact .inr hvacio
      | _ => cases hcrea
    | _ => cases hcrea
  · have hcrea := (Bool.not_eq_true _).mp hcrea
    have hmismo : k'.listaProcesos = k.listaProcesos ∧ (k'.pcbs q).pid = (k.pcbs q).pid := by
      cases paso_crea hp with
      | proceso => cases hcrea
      | principal _ _ _ hn => exact hnace hn
      | hilo _ _ _ hn => exact hnace hn
      | nada _ _ _ hs => exact ⟨hs.tabla.procesos, hs.tabla.pidDe q⟩
    refine .inl ⟨hmismo.1 ▸ hq, hmismo.2, fun n hn => ?_⟩
    rw [(paso_crea hp).buscarProceso hcrea, hn]

/-! ## What a step does to the mutexes of a process -/

/-- `finalizar_hilo` writes the PCB of the process that it finds, and not its state. -/
theorem finalizarHilo_pcb {h : Dir} (hr : (finalizarHilo ent h).run k = .ok () k') :
    (k'.pcbs q).estado = (k.pcbs q).estado ∧
      (k.buscarProceso (k.tcbs h).pid ≠ some q → k'.pcbs q = k.pcbs q) := by
  rcases finalizarHilo_ok hr with
    ⟨-, m, vs, rfl⟩ | ⟨bs, r, ms, tids, k₁, m, vs, hbus, -, hd, -, -, rfl⟩
  · exact ⟨rfl, fun _ => rfl⟩
  · have hpcb : k₁.pcbs = (k.terminarHilo h r ms tids).pcbs := by
      rw [hd.marco]
    show (k₁.pcbs q).estado = _ ∧ (_ → k₁.pcbs q = _)
    rw [hpcb, hbus]
    by_cases hqr : q = r
    · subst hqr
      exact ⟨by simp [Estado.terminarHilo, Estado.modPcb, Estado.agregarExit, Estado.setEstado,
        Estado.modTcb], fun hno => absurd rfl hno⟩
    · have hotro : (k.terminarHilo h r ms tids).pcbs q = k.pcbs q := Function.update_of_ne hqr _ _
      exact ⟨congrArg PCB.estado hotro, fun _ => hotro⟩

/-- The loop of `finalizar_proceso` writes the PCB of the process, and no other. -/
theorem finalizarTodos_pcb {r : Dir} {hs : List Dir}
    (hr : (each (finalizarSiEsDe ent r) hs).run k = .ok () k')
    (hbus : k.buscarProceso (k.pcbs r).pid = some r) (hq : q ≠ r) : k'.pcbs q = k.pcbs q := by
  have hrefl : MismaTabla k k := .de_pcbs rfl rfl rfl rfl (Nat.le_refl _) rfl
  refine (each_ok (I := fun _ s => MismaTabla k s ∧ s.pcbs q = k.pcbs q) hr ⟨hrefl, rfl⟩ ?_).2
  rintro h rest s₁ s₂ - ⟨htabla, hs₁⟩ hh
  rcases finalizarSiEsDe_ok hh with ⟨-, rfl⟩ | ⟨heq, hfin⟩
  · exact ⟨htabla, hs₁⟩
  · refine ⟨htabla.trans (finalizarHilo_tabla hfin), ?_⟩
    rw [(finalizarHilo_pcb hfin).2, hs₁]
    rw [heq, htabla.buscarProceso, htabla.pidDe, hbus]
    exact fun hrq => hq (Option.some.inj hrq).symm

/-- A syscall that ends one thread. -/
def Paso.terminaUno : Paso → Bool
  | .syscall (.threadCancel _) | .syscall (.threadExit _) => true
  | _ => false

/-- What a step can do to the process `q`, which has the PCB `b` after it: nothing to its mutexes
and its state, or close it, or end one of its threads, or an operation on one of its mutexes. -/
inductive CambiaMutexes (ent : Entorno) (k : Estado) (q : Dir) : Paso → PCB → Prop where
  | igual {p : Paso} {b : PCB}
      (hno : ∀ h ∈ (k.movimiento ent p).terminan, k.buscarProceso (k.tcbs h).pid ≠ some q)
      (hm : b.mutex = (k.pcbs q).mutex)
      (he : b.estado = (k.pcbs q).estado) : CambiaMutexes ent k q p b
  | cierra {d : TDatosEsenciales} {b : PCB} (hq : k.buscarProceso d.pidInv = some q)
      (hd : d.tidInv = 0 ∧ ent.mensajeFinProceso = ['O', 'K']) (he : b.estado = .exit) :
      CambiaMutexes ent k q (.syscall (.processExit d)) b
  | termina {p : Paso} {b : PCB} {h : Dir} {e : Bool} (huno : p.terminaUno = true)
      (hmov : k.movimiento ent p = .termina [h] e)
      (hq : k.buscarProceso (k.tcbs h).pid = some q)
      (hm : b.mutex = (k.pcbs q).mutex.map fun m => m.sin (k.tcbs h).tid)
      (he : b.estado = (k.pcbs q).estado) : CambiaMutexes ent k q p b
  | crea {d : TMutexTodos} {b : PCB} (hq : k.buscarProceso d.PID = some q)
      (hm : b.mutex = (k.pcbs q).mutex ++ [⟨d.recurso, sinHilo, []⟩])
      (he : b.estado = (k.pcbs q).estado) : CambiaMutexes ent k q (.syscall (.mutexCreate d)) b
  | toma {d : TMutexTodos} {b : PCB} {i : Nat} {l : TMutex} (hq : k.buscarProceso d.PID = some q)
      (hl : buscarMutex (k.pcbs q).mutex d.recurso = some (i, l)) (hlibre : l.tid = sinHilo)
      (hm : b.mutex = (k.pcbs q).mutex.set i { l with tid := d.TID })
      (he : b.estado = (k.pcbs q).estado) : CambiaMutexes ent k q (.syscall (.mutexLock d)) b
  | espera {d : TMutexTodos} {b : PCB} {i : Nat} {l : TMutex}
      (hq : k.buscarProceso d.PID = some q)
      (hl : buscarMutex (k.pcbs q).mutex d.recurso = some (i, l)) (htomado : l.tid ≠ sinHilo)
      (hm : b.mutex = (k.pcbs q).mutex.set i { l with
        bloqueadosMutex := l.bloqueadosMutex ++ [d.TID] })
      (he : b.estado = (k.pcbs q).estado) : CambiaMutexes ent k q (.syscall (.mutexLock d)) b
  | suelta {d : TMutexTodos} {b : PCB} {i : Nat} {l : TMutex}
      (hq : k.buscarProceso d.PID = some q)
      (hl : buscarMutex (k.pcbs q).mutex d.recurso = some (i, l)) (hown : l.tid = d.TID)
      (hcola : l.bloqueadosMutex = [])
      (hm : b.mutex = (k.pcbs q).mutex.set i { l with tid := sinHilo })
      (he : b.estado = (k.pcbs q).estado) : CambiaMutexes ent k q (.syscall (.mutexUnlock d)) b
  | pasa {d : TMutexTodos} {b : PCB} {i : Nat} {l : TMutex} {t : Uint32} {resto : List Uint32}
      (hq : k.buscarProceso d.PID = some q)
      (hl : buscarMutex (k.pcbs q).mutex d.recurso = some (i, l)) (hown : l.tid = d.TID)
      (hcola : l.bloqueadosMutex = t :: resto)
      (hm : b.mutex = (k.pcbs q).mutex.set i { l with tid := t, bloqueadosMutex := resto })
      (he : b.estado = (k.pcbs q).estado) : CambiaMutexes ent k q (.syscall (.mutexUnlock d)) b
  /-- Nobody has the tid that left the queue. -/
  | pierde {d : TMutexTodos} {b : PCB} {i : Nat} {l : TMutex} {t : Uint32} {resto : List Uint32}
      (hq : k.buscarProceso d.PID = some q)
      (hl : buscarMutex (k.pcbs q).mutex d.recurso = some (i, l)) (hown : l.tid = d.TID)
      (hcola : l.bloqueadosMutex = t :: resto) (hbus : k.buscarTcbs t d.PID = none)
      (hm : b.mutex = (k.pcbs q).mutex.set i { l with bloqueadosMutex := resto })
      (he : b.estado = (k.pcbs q).estado) : CambiaMutexes ent k q (.syscall (.mutexUnlock d)) b

theorem terminan_nil (h : p.puedeTerminar = false) : (k.movimiento ent p).terminan = [] := by
  cases hm : k.movimiento ent p with
  | termina hs e => exact absurd hm (movimiento_ne_termina h hs e)
  | _ => rfl

/-- A step that ends no thread. -/
theorem CambiaMutexes.de_nadie {b : PCB} (hm : b.mutex = (k.pcbs q).mutex)
    (he : b.estado = (k.pcbs q).estado) (h : (k.movimiento ent p).terminan = []) :
    CambiaMutexes ent k q p b :=
  .igual (fun _ hd => absurd (h ▸ hd) List.not_mem_nil) hm he

/-- The end of one thread, after a search that took `mutex`. -/
theorem CambiaMutexes.de_finalizarHilo {h : Dir} {e : Bool} {m : Nat} {vs : List Nat}
    (huno : p.terminaUno = true) (hmov : k.movimiento ent p = .termina [h] e)
    (hr : (finalizarHilo ent h).run (k.conCerrojo m vs) = .ok () k') :
    CambiaMutexes ent k q p (k'.pcbs q) := by
  obtain ⟨hestado, hotro⟩ := finalizarHilo_pcb (q := q) hr
  by_cases hq : k.buscarProceso (k.tcbs h).pid = some q
  · exact .termina huno hmov hq (finalizarHilo_suelta (k := k.conCerrojo m vs) hq hr).2 hestado
  · refine .igual (fun d hd => ?_) (congrArg PCB.mutex (hotro hq)) hestado
    rw [hmov] at hd
    obtain rfl := List.mem_singleton.mp hd
    exact hq

/-- A write to the PCB of the process that a handler found. -/
theorem modPcb_de {r : Dir} {f : PCB → PCB} (hp : p.puedeTerminar = false)
    (h : r = q → CambiaMutexes ent k q p (f (k.pcbs q))) :
    CambiaMutexes ent k q p ((k.modPcb r f).pcbs q) := by
  unfold Estado.modPcb
  by_cases hr : r = q
  · subst hr
    simpa using h rfl
  · have hotro : Function.update k.pcbs r (f (k.pcbs r)) q = k.pcbs q :=
      Function.update_of_ne (Ne.symm hr) _ _
    exact .de_nadie (congrArg PCB.mutex hotro) (congrArg PCB.estado hotro) (terminan_nil hp)

theorem setMutex_de {r : Dir} {i : Nat} {l : TMutex} (hp : p.puedeTerminar = false)
    (h : r = q → CambiaMutexes ent k q p
      { k.pcbs q with mutex := (k.pcbs q).mutex.set i l }) :
    CambiaMutexes ent k q p ((k.setMutex r i l).pcbs q) :=
  modPcb_de hp h

theorem processExit_mutexes {d : TDatosEsenciales} (hr : (processExit ent d).run k = .ok () k') :
    CambiaMutexes ent k q (.syscall (.processExit d)) (k'.pcbs q) := by
  rcases processExit_ok hr with ⟨htid, rfl⟩ | ⟨htid, m, vs, hfin⟩
  · refine .de_nadie rfl rfl (congrArg Movimiento.terminan (if_neg fun h => htid h.1))
  · obtain ⟨r, hbus, ⟨hok, rfl⟩ | ⟨k₁, m₁, vs₁, m₂, vs₂, hok, hloop, -, rfl⟩⟩ :=
      finalizarProceso_ok hfin
    · exact .de_nadie rfl rfl (congrArg Movimiento.terminan (if_neg fun h => hok h.2))
    · have hbus : k.buscarProceso d.pidInv = some r := hbus
      by_cases hq : q = r
      · subst hq
        refine .cierra hbus ⟨htid, hok⟩ ?_
        simp [Estado.conCerrojo, Estado.cerrarProceso, Estado.modPcb]
      · have hotros := finalizarTodos_pcb (q := q) hloop
          (by rw [show (((k.conCerrojo m vs).avisarFinProceso r).conCerrojo m₁ vs₁).pcbs r =
              k.pcbs r from rfl, pid_of_buscarProceso hbus]; exact hbus) hq
        have hpcb : (((k₁.cerrarProceso r).conCerrojo m₂ vs₂).pcbs q) = k.pcbs q :=
          (Function.update_of_ne hq _ _).trans hotros
        refine .igual (fun h hh => ?_) (congrArg PCB.mutex hpcb) (congrArg PCB.estado hpcb)
        have hmov : k.movimiento ent (.syscall (.processExit d)) =
            .termina (k.listaTcbs.filter fun h => (k.tcbs h).pid = d.pidInv)
              (Estado.hayEsperaDe ent d.pidInv k.listaTcbs k) := if_pos ⟨htid, hok⟩
        rw [hmov] at hh
        rw [of_decide_eq_true (List.mem_filter.mp hh).2, hbus]
        exact fun hrq => hq (Option.some.inj hrq).symm

theorem syscall_mutexes {y : Syscall} (hk : k.Asignado) (hq : q ∈ k.listaProcesos)
    (hr : (kernelEscuchaCpuDispatch ent y).run k = .ok () k') :
    CambiaMutexes ent k q (.syscall y) (k'.pcbs q) := by
  cases y with
  | processCreate d =>
    obtain ⟨m, vs, rfl⟩ := crearProceso_ok hr
    have hviejo : q ≠ k.proximo := Nat.ne_of_lt (hk.procesos q hq)
    refine .de_nadie ?_ ?_ (terminan_nil rfl)
    · exact congrArg PCB.mutex (Function.update_of_ne hviejo _ _)
    · exact congrArg PCB.estado (Function.update_of_ne hviejo _ _)
  | processExit d => exact processExit_mutexes hr
  | threadCreate d =>
    rcases threadCreate_ok hr with ⟨-, m, vs, rfl⟩ | ⟨r, tids, m, vs, -, -, rfl⟩
    · exact .de_nadie rfl rfl (terminan_nil rfl)
    · exact modPcb_de (k := k) (f := fun b => { b with
        tidContador := b.tidContador + 1 + 1
        listaTid := some (tids ++ [.bloque k.proximo]) }) rfl
        fun _ => .de_nadie rfl rfl (terminan_nil rfl)
  | threadJoin d =>
    obtain ⟨h, m, vs, -, ⟨-, rfl⟩ | ⟨-, rfl⟩⟩ := threadJoin_ok hr
    · exact .de_nadie rfl rfl (terminan_nil rfl)
    · exact .de_nadie rfl rfl (terminan_nil rfl)
  | threadCancel d =>
    rcases threadCancel_ok hr with ⟨hter, m, vs, rfl⟩ | ⟨h, m, vs, hbus, hvivo, hfin⟩
    · exact .de_nadie rfl rfl (congrArg Movimiento.terminan (if_pos hter))
    · refine .de_finalizarHilo (e := k.hayEspera h) rfl ?_ hfin
      have hter : k.terminado (some h) = false := decide_eq_false hvivo
      simp only [Estado.movimiento, Estado.movSyscall, hbus, hter, Bool.false_eq_true, if_false,
        Estado.movFinHilo]
  | threadExit d =>
    rcases threadExit_ok hr with ⟨hnadie, m, vs, rfl⟩ | ⟨h, m, vs, hbus, hfin⟩
    · refine .de_nadie rfl rfl ?_
      simp only [Estado.movimiento, Estado.movSyscall, hnadie, Estado.movFinHilo,
        Movimiento.terminan]
    · refine .de_finalizarHilo (e := k.hayEspera h) rfl ?_ hfin
      simp only [Estado.movimiento, Estado.movSyscall, hbus, Estado.movFinHilo]
  | mutexCreate d =>
    obtain ⟨r, m, vs, hbus, rfl⟩ := mutexCreate_ok hr
    refine modPcb_de (k := k) (f := fun b => { b with
      mutex := b.mutex ++ [⟨d.recurso, sinHilo, []⟩] }) rfl fun hrq => ?_
    subst hrq
    exact .crea hbus rfl rfl
  | mutexLock d =>
    obtain ⟨r, i, l, m, vs, hbus, hl, ⟨hlibre, rfl⟩ | ⟨h, htomado, -, rfl⟩⟩ := mutexLock_ok hr
    · refine setMutex_de (k := k) (l := { l with tid := d.TID }) rfl fun hrq => ?_
      subst hrq
      exact .toma hbus hl hlibre rfl rfl
    · refine setMutex_de (k := k) (l := { l with
        bloqueadosMutex := l.bloqueadosMutex ++ [d.TID] }) rfl fun hrq => ?_
      subst hrq
      exact .espera hbus hl htomado rfl rfl
  | mutexUnlock d =>
    obtain ⟨r, i, l, m, vs, hbus, hl, hcasos⟩ := mutexUnlock_ok hr
    rcases hcasos with ⟨-, rfl⟩ | ⟨hown, hvacia, rfl⟩ | ⟨t, resto, hown, hcola, hcasos⟩
    · exact .de_nadie rfl rfl (terminan_nil rfl)
    · refine setMutex_de (k := k) (l := { l with tid := sinHilo }) rfl fun hrq => ?_
      subst hrq
      exact .suelta hbus hl hown hvacia rfl rfl
    · rcases hcasos with ⟨hnadie, rfl⟩ | ⟨h, -, rfl⟩
      · refine setMutex_de (k := k) (l := { l with bloqueadosMutex := resto }) rfl fun hrq => ?_
        subst hrq
        exact .pierde hbus hl hown hcola hnadie rfl rfl
      · refine setMutex_de (k := k) (l := { l with
          tid := t, bloqueadosMutex := resto }) rfl fun hrq => ?_
        subst hrq
        exact .pasa hbus hl hown hcola rfl rfl
  | dumpMemory d =>
    obtain ⟨h, m, vs, -, rfl⟩ := dumpMemory_ok hr
    exact .de_nadie rfl rfl (terminan_nil rfl)
  | io d =>
    rcases io_ok hr with ⟨-, m, vs, rfl⟩ | ⟨h, m, vs, -, rfl⟩
    · exact .de_nadie rfl rfl (terminan_nil rfl)
    · exact .de_nadie rfl rfl (terminan_nil rfl)

/-- Each completed step does one of these things to each process. -/
theorem paso_mutexes (hk : k.Asignado) (hq : q ∈ k.listaProcesos)
    (hp : paso ent k p = .ok (k', o)) : CambiaMutexes ent k q p (k'.pcbs q) := by
  have hr := paso_ok hp
  cases p with
  | syscall y => exact syscall_mutexes hk hq hr
  | memoria m =>
    cases m with
    | confirmarEspacioProceso d =>
      rcases confirmarEspacioProceso_ok hr with ⟨-, rfl⟩ | ⟨k₁, -, hcrea, rfl⟩
      · exact .de_nadie rfl rfl (terminan_nil rfl)
      · obtain ⟨r, e, resto, tids, m, vs, -, -, -, rfl⟩ := crearHilo_ok hcrea
        exact modPcb_de (k := k) (f := fun b => { b with
          listaTid := some (tids ++ [.bloque k.proximo]) }) rfl
          fun _ => .de_nadie rfl rfl (terminan_nil rfl)
    | confirmarCreacionHilo d =>
      rcases confirmarCreacionHilo_ok hr with ⟨-, rfl⟩ | ⟨-, -, rfl⟩ | ⟨h, m, vs, -, -, rfl⟩
      · exact .de_nadie rfl rfl (terminan_nil rfl)
      · exact .de_nadie rfl rfl (terminan_nil rfl)
      · exact .de_nadie rfl rfl (terminan_nil rfl)
    | confirmarDumpMemory =>
      obtain ⟨-, rfl⟩ := pure_ok.mp hr
      exact .de_nadie rfl rfl (terminan_nil rfl)
  | cortoPlazo =>
    obtain ⟨-, ⟨-, rfl⟩ | ⟨i, d, m, vs, -, rfl⟩⟩ := planificadorCortoPlazo_ok hr
    · exact .de_nadie rfl rfl (terminan_nil rfl)
    · exact .de_nadie rfl rfl (terminan_nil rfl)
  | largoPlazo =>
    obtain ⟨-, rfl⟩ := planificadorDeLargoPlazo_ok hr
    exact .de_nadie rfl rfl (terminan_nil rfl)

/-- A `PROCESS_EXIT` of a main thread. -/
def Paso.cierraProceso : Paso → Bool
  | .syscall (.processExit d) => d.tidInv = 0
  | _ => false

theorem enEspera_of_set {ms : List TMutex} {i : Nat} {n : TMutex} {t : Uint32}
    (ht : t ∈ enEspera (ms.set i n)) : t ∈ enEspera ms ∨ t ∈ n.bloqueadosMutex := by
  obtain ⟨m, hm, hmem⟩ := List.mem_flatMap.mp ht
  rcases List.mem_or_eq_of_mem_set hm with hm | rfl
  · exact .inl (mem_enEspera hm hmem)
  · exact .inr hmem

/-- A tid gets into a queue by a `MUTEX_LOCK` of it, while no process is closed. -/
theorem CambiaMutexes.enEspera {b : PCB} {t : Uint32} (h : CambiaMutexes ent k q p b)
    (hno : p.cierraProceso = false) (ht : t ∈ enEspera b.mutex) :
    t ∈ Kernel.enEspera (k.pcbs q).mutex ∨
      ∃ d, p = .syscall (.mutexLock d) ∧ k.buscarProceso d.PID = some q ∧ d.TID = t := by
  have hcola : ∀ {i : Nat} {l n : TMutex} {c : Cadena}, b.mutex = (k.pcbs q).mutex.set i n →
      buscarMutex (k.pcbs q).mutex c = some (i, l) → n.bloqueadosMutex ⊆ l.bloqueadosMutex →
        t ∈ Kernel.enEspera (k.pcbs q).mutex := fun hm hl hsub =>
    (enEspera_of_set (hm ▸ ht)).elim id fun hmem =>
      mem_enEspera (mem_of_buscarMutex hl).2 (hsub hmem)
  cases h with
  | igual _ hm => exact .inl (hm ▸ ht)
  | cierra _ hd => exact absurd hno (by simp [Paso.cierraProceso, hd.1])
  | termina _ _ _ hm =>
    rw [hm] at ht
    obtain ⟨m, hmem, ht⟩ := List.mem_flatMap.mp ht
    obtain ⟨l, hl, rfl⟩ := List.mem_map.mp hmem
    refine .inl (mem_enEspera hl ?_)
    unfold TMutex.sin at ht
    split at ht
    · exact ht
    · exact ht
  | crea _ hm =>
    rw [hm, enEspera_crear] at ht
    exact .inl ht
  | toma _ hl _ hm => exact .inl (hcola hm hl (List.Subset.refl _))
  | @espera d _ i l hq hl _ hm =>
    rcases enEspera_of_set (hm ▸ ht) with ht | ht
    · exact .inl ht
    · rcases List.mem_append.mp ht with ht | ht
      · exact .inl (mem_enEspera (mem_of_buscarMutex hl).2 ht)
      · exact .inr ⟨d, rfl, hq, (List.mem_singleton.mp ht).symm⟩
  | suelta _ hl _ _ hm => exact .inl (hcola hm hl (List.Subset.refl _))
  | pasa _ hl _ hc hm => exact .inl (hcola hm hl (hc ▸ List.subset_cons_self _ _))
  | pierde _ hl _ hc _ hm => exact .inl (hcola hm hl (hc ▸ List.subset_cons_self _ _))

theorem enEspera_paso {t : Uint32} (hk : k.Asignado) (hno : p.cierraProceso = false)
    (hp : paso ent k p = .ok (k', o)) (ht : t ∈ enEspera (k'.mutexesDe pid)) :
    t ∈ enEspera (k.mutexesDe pid) ∨
      ∃ d, p = .syscall (.mutexLock d) ∧ d.PID = pid ∧ d.TID = t := by
  by_cases hcrea : p.creaProceso = true
  · cases p with
    | syscall y =>
      cases y with
      | processCreate d => exact .inl (processCreate_mutexes hk (paso_ok hp) ▸ ht)
      | _ => cases hcrea
    | _ => cases hcrea
  have hbus : k'.buscarProceso pid = k.buscarProceso pid :=
    (paso_crea hp).buscarProceso ((Bool.not_eq_true _).mp hcrea)
  cases hq : k.buscarProceso pid with
  | none =>
    have hvacio : k'.mutexesDe pid = [] := by
      unfold Estado.mutexesDe
      rw [hbus, hq]
    rw [hvacio] at ht
    exact absurd ht List.not_mem_nil
  | some q =>
    rw [mutexesDe_of_buscar hq]
    rw [mutexesDe_of_buscar (hbus.trans hq)] at ht
    refine ((paso_mutexes hk (List.mem_of_find?_eq_some hq) hp).enEspera hno ht).imp_right ?_
    rintro ⟨d, rfl, hd, rfl⟩
    refine ⟨d, rfl, ?_, rfl⟩
    exact (pid_of_buscarProceso hd).symm.trans (pid_of_buscarProceso hq)

/-- A process whose mutexes or state change is the one that a search for its pid finds. -/
theorem CambiaMutexes.hallado {b : PCB} (h : CambiaMutexes ent k q p b)
    (hno : k.buscarProceso (k.pcbs q).pid ≠ some q) : b.mutex = (k.pcbs q).mutex := by
  have hpid : ∀ {n : Uint32}, k.buscarProceso n ≠ some q := fun hn =>
    hno (pid_of_buscarProceso hn ▸ hn)
  cases h with
  | igual _ hm => exact hm
  | cierra hq => exact absurd hq hpid
  | termina _ _ hq => exact absurd hq hpid
  | crea hq => exact absurd hq hpid
  | toma hq => exact absurd hq hpid
  | espera hq => exact absurd hq hpid
  | suelta hq => exact absurd hq hpid
  | pasa hq => exact absurd hq hpid
  | pierde hq => exact absurd hq hpid

end LastOfC.Kernel
