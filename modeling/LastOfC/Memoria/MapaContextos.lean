import LastOfC.Memoria.Pasos

/-!
# `lista_contextos` is a map

`lista_contextos` is searched from the front, updated in place, and cut. As long as no
`HILO_READY` repeats a thread, it is a map from `(pid, tid)`:

* `mapa_paso`: each request does to the list what `Mapa.paso` does to the map. The list refines the
  map, with `KeyedList.toMap` as the abstraction.
* `mapa_ajeno`: a request about one thread leaves the entries of all others.
* `contextos_son_mapa`: along a run, `OBTENER_CONTEXTO` returns what `HILO_READY` and the last
  `ACTUALIZAR_CONTEXTO` of the same thread left (`contextoEsperado`), until its `FINALIZAR_HILO`.
-/

namespace LastOfC.Memoria

open KeyedList Trace

/-- `(pid, tid)`. -/
abbrev Clave := Uint32 × Uint32

/-- The context store as a map. -/
abbrev Mapa := Clave → Option ContextoEjecucion

/-- What a request does to the map. Only a new thread looks at the partitions. -/
def Mapa.paso (ps : List Particion) (m : Mapa) : Peticion → Mapa
  | .hiloReady d =>
    Function.update m (d.PID, d.TID) ((buscarParticionPorPid ps d.PID).map (nuevoContexto d))
  | .finalizarHilo d => Function.update m (d.pidInv, d.tidInv) none
  | .actualizarContexto d =>
    Function.update m (d.pid, d.TID) ((m (d.pid, d.TID)).map (·.actualizar d))
  | _ => m

/-- The thread whose context the request writes. -/
def Peticion.clave : Peticion → Option Clave
  | .hiloReady d => some (d.PID, d.TID)
  | .finalizarHilo d => some (d.pidInv, d.tidInv)
  | .actualizarContexto d => some (d.pid, d.TID)
  | _ => none

/-- The thread that a `HILO_READY` creates. -/
def Peticion.hiloNuevo : Peticion → Option Clave
  | .hiloReady d => some (d.PID, d.TID)
  | _ => none

/-- The abstraction of `lista_contextos`. -/
def mapaDe (cs : List ContextoEjecucion) : Mapa := toMap ContextoEjecucion.clave cs

theorem buscarContextoPorTid_eq_none {cs : List ContextoEjecucion} {tid pid : Uint32}
    (h : buscarContextoPorTid cs tid pid = none) : mapaDe cs (pid, tid) = none := by
  rw [mapaDe, toMap, ← map_snd_search]
  rw [buscarContextoPorTid] at h
  rw [h]
  rfl

/-! ## One step -/

section Pasos

variable {ps : List Particion} {cs cs' : List ContextoEjecucion} {a : Peticion} {k : Clave}

/-- **The refinement.** The list does what the map does, and its keys stay distinct. -/
theorem mapa_paso (h : PasoContextos ps cs a cs') (hn : (cs.map ContextoEjecucion.clave).Nodup)
    (hnuevo : ∀ k, a.hiloNuevo = some k → k ∉ cs.map ContextoEjecucion.clave) :
    mapaDe cs' = (mapaDe cs).paso ps a ∧ (cs'.map ContextoEjecucion.clave).Nodup := by
  cases h with
  | igual a hready hfin hact =>
    refine ⟨?_, hn⟩
    cases a with
    | hiloReady d => exact absurd rfl (hready d)
    | finalizarHilo d =>
      -- The thread is not in the map.
      have := buscarContextoPorTid_eq_none (hfin d rfl)
      rw [Mapa.paso, ← this, Function.update_eq_self]
    | actualizarContexto d =>
      have := buscarContextoPorTid_eq_none (hact d rfl)
      rw [Mapa.paso, this, Option.map_none, ← this, Function.update_eq_self]
    | _ => rfl
  | agregar d p hp =>
    have hk : (nuevoContexto d p).clave ∉ cs.map ContextoEjecucion.clave := hnuevo _ rfl
    refine ⟨?_, nodup_append hn hk⟩
    rw [mapaDe, toMap_append hk, Mapa.paso, hp]
    rfl
  | quitar d i c hc => exact ⟨toMap_eraseIdx hc hn, nodup_eraseIdx hn i⟩
  | actualizar d i c hc =>
    have hkey : (c.actualizar d).clave = (d.pid, d.TID) := by
      simpa [ContextoEjecucion.clave, ContextoEjecucion.actualizar] using search_pos hc
    refine ⟨?_, by rwa [map_key_set hc hkey]⟩
    rw [mapaDe, toMap_set hc hkey, Mapa.paso, mapaDe, search_toMap hc]
    rfl

/-- A request about one thread is not seen at another, whatever the list. -/
theorem mapa_ajeno (h : PasoContextos ps cs a cs') (hk : a.clave ≠ some k) :
    mapaDe cs' k = mapaDe cs k := by
  cases h with
  | igual => rfl
  | agregar d p => exact toMap_append_of_ne fun he => hk (by rw [he]; rfl)
  | quitar d i c hc => exact toMap_eraseIdx_of_ne hc fun he => hk (by rw [he]; rfl)
  | actualizar d i c hc =>
    have hkey : (c.actualizar d).clave = (d.pid, d.TID) := by
      simpa [ContextoEjecucion.clave, ContextoEjecucion.actualizar] using search_pos hc
    rw [mapaDe, toMap_set hc hkey]
    exact Function.update_of_ne (fun he => hk (by rw [he]; rfl)) _ _

/-- Only a `HILO_READY` adds a thread. -/
theorem claves_paso (h : PasoContextos ps cs a cs')
    (hk : k ∈ cs'.map ContextoEjecucion.clave) :
    k ∈ cs.map ContextoEjecucion.clave ∨ a.hiloNuevo = some k := by
  cases h with
  | igual => exact .inl hk
  | agregar d p =>
    rw [List.map_append, List.mem_append] at hk
    refine hk.imp_right fun hk => ?_
    rw [List.map_singleton, List.mem_singleton] at hk
    rw [hk]
    rfl
  | quitar d i c => exact .inl (((List.eraseIdx_sublist cs i).map _).subset hk)
  | actualizar d i c hc =>
    have hkey : (c.actualizar d).clave = (d.pid, d.TID) := by
      simpa [ContextoEjecucion.clave, ContextoEjecucion.actualizar] using search_pos hc
    rw [map_key_set hc hkey] at hk
    exact .inl hk

end Pasos

/-! ## What `OBTENER_CONTEXTO` returns -/

/-- The context that the request writes, if it is an `ACTUALIZAR_CONTEXTO` of the thread. -/
def actualizacionDe (k : Clave) : Peticion → Option TContextoEjecucion
  | .actualizarContexto d => if (d.pid, d.TID) = k then some d else none
  | _ => none

/-- The last `ACTUALIZAR_CONTEXTO` of the thread. -/
def ultimaActualizacion (k : Clave) (as : List Peticion) : Option TContextoEjecucion :=
  (as.filterMap (actualizacionDe k)).getLast?

/-- The context of the thread that `d` created in the partition `p`, after the requests `as`: the
registers and the PC of the last update, or zeros, and the bounds of `p`. -/
def contextoEsperado (d : TCrearHilo) (p : Particion) (as : List Peticion) : TContextoEjecucion :=
  let u := ultimaActualizacion (d.PID, d.TID) as
  { TID := d.TID
    RegistrosCPU := (u.map (·.RegistrosCPU)).getD .cero
    PC := (u.map (·.PC)).getD 0
    base := p.base
    limite := p.limite
    pid := d.PID }

/-- The reply is what the map holds. -/
theorem devolverContextoEjecucion_eq (s : Estado) (d : TEnviarContexto) :
    devolverContextoEjecucion s d =
      .ok (s, (mapaDe s.listaContextos (d.PID, d.TID)).toList.map fun c =>
        ⟨.cpu, .enviarContexto c.paraCpu⟩) := by
  rw [mapaDe, toMap, ← map_snd_search, devolverContextoEjecucion, buscarContextoPorTid]
  cases search (fun c => ContextoEjecucion.clave c = (d.PID, d.TID)) s.listaContextos <;> rfl

theorem contextoEsperado_concat_of_ne {d : TCrearHilo} {p : Particion} {as : List Peticion}
    {a : Peticion} (h : a.clave ≠ some (d.PID, d.TID)) :
    contextoEsperado d p (as ++ [a]) = contextoEsperado d p as := by
  have hnone : actualizacionDe (d.PID, d.TID) a = none := by
    cases a with
    | actualizarContexto d' => exact if_neg fun he => h (by rw [← he]; rfl)
    | _ => rfl
  simp only [contextoEsperado, ultimaActualizacion, List.filterMap_append, List.filterMap_cons,
    hnone, List.filterMap_nil, List.append_nil]

/-- An update replaces the registers and the PC. -/
theorem contextoEsperado_concat_actualizar {d : TCrearHilo} {p : Particion} {as : List Peticion}
    {u : TContextoEjecucion} (h : (u.pid, u.TID) = (d.PID, d.TID)) :
    contextoEsperado d p (as ++ [.actualizarContexto u]) =
      { contextoEsperado d p as with RegistrosCPU := u.RegistrosCPU, PC := u.PC } := by
  have hu : ultimaActualizacion (d.PID, d.TID) (as ++ [.actualizarContexto u]) = some u := by
    simp [ultimaActualizacion, actualizacionDe, h]
  simp only [contextoEsperado, hu, Option.map_some, Option.getD_some]

section Corridas

variable {ent : Entorno} {s₀ s s' : Estado}

/-- The threads in the list are distinct, and were created in the run. -/
structure SinRepetir (pre : List Peticion) (s : Estado) : Prop where
  distintas : (s.listaContextos.map ContextoEjecucion.clave).Nodup
  creadas : ∀ k ∈ s.listaContextos.map ContextoEjecucion.clave,
    k ∈ pre.filterMap Peticion.hiloNuevo

theorem sinRepetir_corrida {as : List Peticion} (h0 : s₀.listaContextos = [])
    (hn : (as.filterMap Peticion.hiloNuevo).Nodup) :
    EveryState (atender ent) s₀ as SinRepetir := by
  intro pre s hpre hs
  refine hs.along ⟨by simp [h0], by simp [h0]⟩ ?_
  intro q s₁ a s₂ o hq _ hI h
  have hn' : (q.filterMap Peticion.hiloNuevo ++ [a].filterMap Peticion.hiloNuevo).Nodup := by
    rw [← List.filterMap_append]
    exact hn.sublist ((hq.trans hpre).sublist.filterMap _)
  have hnuevo : ∀ k, a.hiloNuevo = some k → k ∉ s₁.listaContextos.map ContextoEjecucion.clave := by
    intro k hk hmem
    have := (List.nodup_append.mp hn').2.2 k (hI.creadas k hmem) k (by simp [hk])
    exact this rfl
  have hpaso := atender_contextos h
  refine ⟨(mapa_paso hpaso hI.distintas hnuevo).2, fun k hk => ?_⟩
  rw [List.filterMap_append, List.mem_append]
  exact (claves_paso hpaso hk).imp (hI.creadas k) fun h => by simp [h]

/-- From the creation of a thread on, its entry is the one expected. -/
theorem esperado_corrida {d : TCrearHilo} {p : Particion} {as : List Peticion}
    (hs : Reaches (atender ent) s as s')
    (h0 : (mapaDe s.listaContextos (d.PID, d.TID)).map ContextoEjecucion.paraCpu =
      some (contextoEsperado d p []))
    (hdist : EveryState (atender ent) s as
      fun _ s => (s.listaContextos.map ContextoEjecucion.clave).Nodup)
    (hno : (d.PID, d.TID) ∉ as.filterMap Peticion.hiloNuevo) :
    (mapaDe s'.listaContextos (d.PID, d.TID)).map ContextoEjecucion.paraCpu =
      if .finalizarHilo ⟨d.PID, d.TID⟩ ∈ as then none else some (contextoEsperado d p as) := by
  refine hs.invariant
    (C := fun _ s _ => (s.listaContextos.map ContextoEjecucion.clave).Nodup)
    (I := fun q s => (mapaDe s.listaContextos (d.PID, d.TID)).map ContextoEjecucion.paraCpu =
      if .finalizarHilo ⟨d.PID, d.TID⟩ ∈ q then none else some (contextoEsperado d p q))
    (fun q s a r hq hs _ => hdist q s ((List.prefix_append _ _).trans hq) hs) (by simpa using h0) ?_
  intro q s₁ a s₂ o ha _ hI hn h
  have hpaso := atender_contextos h
  by_cases hk : a.clave = some (d.PID, d.TID)
  · cases a with
    | hiloReady d' => exact (hno (List.mem_filterMap.mpr ⟨_, ha, hk⟩)).elim
    | finalizarHilo d' =>
      obtain ⟨pid, tid⟩ := d'
      cases hk
      rw [(mapa_paso hpaso hn (by simp [Peticion.hiloNuevo])).1, Mapa.paso]
      simp
    | actualizarContexto u =>
      have hk : (u.pid, u.TID) = (d.PID, d.TID) := Option.some.inj hk
      rw [(mapa_paso hpaso hn (by simp [Peticion.hiloNuevo])).1, Mapa.paso, hk,
        Function.update_self, Option.map_map, contextoEsperado_concat_actualizar hk]
      by_cases hfin : Peticion.finalizarHilo ⟨d.PID, d.TID⟩ ∈ q
      · -- The thread is finished: there is no context to update.
        simp only [hfin, if_true, Option.map_eq_none_iff] at hI
        simp [hI, hfin]
      · simp only [hfin, if_false] at hI
        obtain ⟨c, hc, hcpu⟩ := Option.map_eq_some_iff.mp hI
        simp only [hc, Option.map_some, List.mem_append, hfin, List.mem_singleton, reduceCtorEq,
          or_self, if_false, ← hcpu]
        rfl
    | _ => cases hk
  · -- The request is about another thread.
    have hfin : Peticion.finalizarHilo ⟨d.PID, d.TID⟩ ≠ a := by
      rintro rfl
      exact hk rfl
    rw [mapa_ajeno hpaso hk, contextoEsperado_concat_of_ne hk, hI]
    simp [hfin]

/-- A new thread has a context without updates, with the bounds of the partition of its process. If
there is no partition, then the handler crashes. -/
theorem esperado_nuevo {pre : List Peticion} {d : TCrearHilo} {o : List Envio}
    (hs : SinRepetir pre s) (hno : (d.PID, d.TID) ∉ pre.filterMap Peticion.hiloNuevo)
    (h : atender ent s (.hiloReady d) = .ok (s', o)) :
    ∃ p, buscarParticionPorPid s.listaParticiones d.PID = some p ∧
      (mapaDe s'.listaContextos (d.PID, d.TID)).map ContextoEjecucion.paraCpu =
        some (contextoEsperado d p []) := by
  have hnuevo : ∀ k, (Peticion.hiloReady d).hiloNuevo = some k →
      k ∉ s.listaContextos.map ContextoEjecucion.clave := by
    rintro k hk hmem
    cases hk
    exact hno (hs.creadas _ hmem)
  have hmapa := (mapa_paso (atender_contextos h) hs.distintas hnuevo).1
  simp only [atender, crearHilo] at h
  split at h
  · rename_i p hp
    refine ⟨p, hp, ?_⟩
    rw [hmapa, Mapa.paso, Function.update_self, hp]
    rfl
  · cases h

/-- The reply of `OBTENER_CONTEXTO`, if the entry of the thread is known. -/
theorem obtenerContexto_eq {d : TEnviarContexto} {r : Option TContextoEjecucion}
    (h : (mapaDe s.listaContextos (d.PID, d.TID)).map ContextoEjecucion.paraCpu = r) :
    atender ent s (.obtenerContexto d) =
      .ok (s, r.toList.map fun c => ⟨.cpu, .enviarContexto c⟩) := by
  rw [atender, devolverContextoEjecucion_eq, ← h]
  cases mapaDe s.listaContextos (d.PID, d.TID) <;> rfl

/-- **The context store is a map.** Along a run with one `HILO_READY` for each thread, the reply to
`OBTENER_CONTEXTO` of a thread that `d` created, before its `FINALIZAR_HILO`, is its last update
with the bounds of its partition at its creation; after it there is no reply. A request about
another thread does not change the reply. -/
theorem contextos_son_mapa (basura : Nat → Uint32) (memoria : Nat → Byte)
    (antes : List Peticion) (d : TCrearHilo) (despues : List Peticion)
    (hn : ((antes ++ .hiloReady d :: despues).filterMap Peticion.hiloNuevo).Nodup)
    (hs : Reaches (atender ent) (estadoInicial ent.toConfigMemoria basura memoria)
      (antes ++ .hiloReady d :: despues) s) :
    (∃ s₁ p, Reaches (atender ent) (estadoInicial ent.toConfigMemoria basura memoria) antes s₁ ∧
        buscarParticionPorPid s₁.listaParticiones d.PID = some p ∧
        atender ent s (.obtenerContexto ⟨d.PID, d.TID⟩) =
          if .finalizarHilo ⟨d.PID, d.TID⟩ ∈ despues then .ok (s, [])
          else .ok (s, [⟨.cpu, .enviarContexto (contextoEsperado d p despues)⟩])) ∧
      ∀ a s' o, atender ent s a = .ok (s', o) → a.clave ≠ some (d.PID, d.TID) →
        (atender ent s' (.obtenerContexto ⟨d.PID, d.TID⟩)).map Prod.snd =
          (atender ent s (.obtenerContexto ⟨d.PID, d.TID⟩)).map Prod.snd := by
  constructor
  · have hsin : EveryState (atender ent) (estadoInicial ent.toConfigMemoria basura memoria) _
        SinRepetir := sinRepetir_corrida rfl hn
    -- The run up to the creation, the creation, and the rest.
    obtain ⟨s₁, hs₁, hs₂⟩ := reaches_append.mp hs
    rw [← List.singleton_append] at hs₂
    obtain ⟨s₂, hcrear, hs₂⟩ := reaches_append.mp hs₂
    obtain ⟨o, hcrear'⟩ := reaches_singleton.mp hcrear
    rw [List.filterMap_append, List.nodup_append] at hn
    obtain ⟨-, hdesp, hdisj⟩ := hn
    have hcons : (Peticion.hiloReady d :: despues).filterMap Peticion.hiloNuevo =
        (d.PID, d.TID) :: despues.filterMap Peticion.hiloNuevo := rfl
    rw [hcons] at hdesp hdisj
    have hno : (d.PID, d.TID) ∉ antes.filterMap Peticion.hiloNuevo :=
      fun hmem => hdisj _ hmem _ List.mem_cons_self rfl
    obtain ⟨p, hp, h0⟩ :=
      esperado_nuevo (hsin antes s₁ (List.prefix_append _ _) hs₁) hno hcrear'
    have hdist : EveryState (atender ent) s₂ despues
        fun _ s => (s.listaContextos.map ContextoEjecucion.clave).Nodup := by
      intro q s' hq hs'
      have hpre : antes ++ ([.hiloReady d] ++ q) <+: antes ++ .hiloReady d :: despues := by
        simpa using hq
      refine (hsin _ s' hpre ?_).distintas
      exact reaches_append.mpr ⟨s₁, hs₁, reaches_append.mpr ⟨s₂, hcrear, hs'⟩⟩
    refine ⟨s₁, p, hs₁, hp, ?_⟩
    rw [obtenerContexto_eq (esperado_corrida hs₂ h0 hdist (List.nodup_cons.mp hdesp).1)]
    split <;> rfl
  · intro a s' o h hk
    simp only [atender, devolverContextoEjecucion_eq, mapa_ajeno (atender_contextos h) hk]
    rfl

/-- A thread 0 of each of two processes. The one of process 2 was updated. -/
def dosHilos : Estado :=
  { listaParticiones := [⟨0, 9, 10, false, 1⟩, ⟨10, 29, 20, false, 2⟩, ⟨30, 99, 70, true, 0⟩]
    listaContextos :=
      [⟨1, 0, 0, 9, .cero, 0, [], 0⟩, ⟨2, 0, 10, 29, { RegistrosCPU.cero with AX := 5 }, 3, [], 0⟩]
    memoria := fun _ => 0 }

/-- The update of thread 0 of process 2 is not seen in thread 0 of process 1. -/
theorem contextos_son_mapa_dos_hilos :
    let ent := entornoDinamico 100 (by decide)
    ∃ s₁ p, Reaches (atender ent) (estadoInicial ent.toConfigMemoria (fun _ => 0) fun _ => 0)
        [.asignarMemoria ⟨1, 10⟩, .asignarMemoria ⟨2, 20⟩] s₁ ∧
      buscarParticionPorPid s₁.listaParticiones 1 = some p ∧
      atender ent dosHilos (.obtenerContexto ⟨1, 0⟩) =
        .ok (dosHilos, [⟨.cpu, .enviarContexto ⟨0, .cero, 0, p.base, p.limite, 1⟩⟩]) :=
  (contextos_son_mapa (fun _ => 0) (fun _ => 0)
    [.asignarMemoria ⟨1, 10⟩, .asignarMemoria ⟨2, 20⟩] ⟨1, 0, 0, []⟩
    [.hiloReady ⟨2, 0, 0, []⟩,
      .actualizarContexto ⟨0, { RegistrosCPU.cero with AX := 5 }, 3, 10, 29, 2⟩]
    (by decide) ⟨_, rfl⟩).1

end Corridas

end LastOfC.Memoria
