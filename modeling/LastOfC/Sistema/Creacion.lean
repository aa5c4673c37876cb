import LastOfC.Sistema.Admision

/-!
# Each thread is confirmed once (`crear_hilo`, `kernel_escucha_memoria.c`)

A new thread goes through three queues: the `HILO_READY` that memoria did not read, the
confirmations in the bytes that the kernel did not read, and those that its listener handled.

* `recibidas`: the replies that the listener of the kernel handled along a run.
* `creacion_exacta`: the threads that the kernel created are those that were confirmed to it, then
  those whose confirmation is on its way, then those that memoria did not read yet, in the order in
  which they were created. So none is lost, and none is confirmed twice.
-/

namespace LastOfC.Sistema

open Trace

/-- The thread that a packet of the kernel creates. -/
def hiloCreado : Kernel.Paquete → Option (Uint32 × Uint32)
  | .hiloReady d => some (d.PID, d.TID)
  | _ => none

/-- The reply that the listener of the kernel takes in a step. -/
def Modulos.recibe (s : Modulos) : Suceso → Option Kernel.MensajeMemoria
  | .kernelEscucha basura =>
    if s.planificando then none
    else (esperarPaquete basura (s.escrito.drop s.leidos)).bind fun r => r.1.bind mensajeDe
  | _ => none

/-- The replies that the listener of the kernel handled along a run, in order. -/
def recibidas (entK : Kernel.Entorno) (entM : Memoria.Entorno) (s₀ : Modulos)
    (as : List Suceso) : List Kernel.MensajeMemoria :=
  history (pasoModulos entK entM) (fun s a _ ms => ms ++ (s.recibe a).toList) s₀ as []

/-- The step forwards an answer of the file system, or takes bytes of `fd_kernel` as a text. -/
def Suceso.desalinea : Suceso → Bool
  | .memoriaVuelca _ _ _ | .recibirMensaje _ => true
  | _ => false

/-- The threads `creados` of the kernel, after its listener handled the replies `ms`. -/
structure EnOrden (s : Modulos) (creados : List (Uint32 × Uint32))
    (ms : List Kernel.MensajeMemoria) : Prop where
  entero : Entero s
  cola : ∃ ms', s.Leyo ms ms' ∧
    creados = (ms ++ ms').filterMap confirma ++ s.pedidos.filterMap hiloCreado

section Pasos

variable {entK : Kernel.Entorno} {entM : Memoria.Entorno} {s s' s₁ : Modulos} {a : Suceso}
  {o : List Kernel.Paquete} {creados : List (Uint32 × Uint32)}
  {ms : List Kernel.MensajeMemoria}

theorem peticion_hiloNuevo {p : Kernel.Paquete} {q : Memoria.Peticion} (h : peticion p = some q) :
    q.hiloNuevo = hiloCreado p := by
  cases p with
  | finalizarHilo buffer =>
    obtain ⟨d, -, rfl⟩ := Option.map_eq_some_iff.mp h
    rfl
  | dumpMemory d => cases h
  | recibirTid pid tid => cases h
  | _ =>
    cases h
    rfl

/-- The packets of a step of the kernel go to the end of those that memoria did not read. -/
theorem EnOrden.enKernel {p : Kernel.Paso} (h : EnOrden s creados ms)
    (hs : s.enKernel entK p = .ok (s', o)) :
    EnOrden s' (creados ++ o.filterMap hiloCreado) ms := by
  obtain ⟨ms', hf, rfl⟩ := h.cola
  have hent := h.entero.enKernel hs
  obtain ⟨k', -, rfl⟩ := enKernel_modulos hs
  refine ⟨hent, ms', hf, ?_⟩
  have hfiltro : (o.filter paraEscucharKernel).filterMap hiloCreado = o.filterMap hiloCreado := by
    rw [List.filterMap_filter]
    refine List.filterMap_congr fun p _ => ?_
    cases p <;> rfl
  show _ = _ ++ (s.pedidos ++ o.filter paraEscucharKernel).filterMap hiloCreado
  rw [List.filterMap_append (l := s.pedidos), hfiltro, List.append_assoc]

theorem EnOrden.escuchar {basura : Basura} (h : EnOrden s creados ms)
    (hs : s.sinAtendidas.escuchar entK basura = .ok (s', o)) :
    EnOrden s' (creados ++ o.filterMap hiloCreado)
      (ms ++ (s.recibe (.kernelEscucha basura)).toList) := by
  have hent := h.entero.sinAtendidas
  obtain ⟨ms', hf, hcreados⟩ := h.cola
  have h₀ : EnOrden s.sinAtendidas creados ms := ⟨hent, ms', hf, hcreados⟩
  unfold Modulos.escuchar at hs
  split at hs
  · rename_i hplan
    have hnada : s.recibe (.kernelEscucha basura) = none := if_pos hplan
    rw [hnada, Option.toList_none, List.append_nil]
    exact h₀.enKernel hs
  · rename_i hplan
    split at hs
    · cases hs
    · rename_i hlee
      obtain ⟨m, _, -, hno, -⟩ := Modulos.Leyo.siguiente (s := s.sinAtendidas) hf hent hlee
      cases hno
    · rename_i r socket hlee
      obtain ⟨m, ms'', rfl, hrm, hf'⟩ := Modulos.Leyo.siguiente (s := s.sinAtendidas) hf hent hlee
      cases hrm
      have hrecibe : s.recibe (.kernelEscucha basura) = some m := by
        refine (if_neg hplan).trans ?_
        have hlee' : esperarPaquete basura (s.escrito.drop s.leidos) = _ := hlee
        rw [hlee']
        exact mensajeDe_recibido m basura
      rw [hrecibe, Option.toList_some]
      rw [mensajeDe_recibido] at hs
      have hleyo := hent.leyo socket
      have h₁ : EnOrden { s.sinAtendidas.leyo socket with planificando := m.planifica } creados
          (ms ++ [m]) := by
        refine ⟨⟨hleyo.escrito, hleyo.enviadas, hleyo.respuestas, hleyo.atendidas⟩, ms'', hf', ?_⟩
        rw [List.append_assoc]
        exact hcreados
      exact h₁.enKernel hs

theorem EnOrden.atender {malloc : Malloc} (h : EnOrden s creados ms)
    (hs : s.sinAtendidas.atender entM malloc = .ok (s', o)) :
    EnOrden s' (creados ++ o.filterMap hiloCreado) ms := by
  have hent := h.entero.sinAtendidas.atender hs
  obtain ⟨ms', hf, rfl⟩ := h.cola
  unfold Modulos.atender at hs
  split at hs
  · cases hs
  · cases hs
  · rename_i p resto _ hpedidos
    split at hs
    · cases hs
    · rename_i q hq
      split at hs
      · cases hs
      · rename_i m' o' hm
        split at hs
        · cases hs
        · cases hs
          refine ⟨hent, ms' ++ o'.filterMap respuestaKernel, ⟨?_, hf.2⟩, ?_⟩
          · show s.enviadas ++ _ = _
            rw [hf.1, List.append_assoc]
          · have hcabeza : s.pedidos = p :: resto := hpedidos
            have hconfirma : (ms ++ (ms' ++ o'.filterMap respuestaKernel)).filterMap confirma =
                (ms ++ ms').filterMap confirma ++ (hiloCreado p).toList := by
              rw [← List.append_assoc, List.filterMap_append (l := ms ++ ms'), confirmadas_de hm,
                peticion_hiloNuevo hq]
            rw [List.filterMap_nil, List.append_nil, hconfirma, hcabeza, List.filterMap_cons,
              List.append_assoc]
            cases hiloCreado p with
            | none => rfl
            | some id => rfl

/-- Only the listener takes replies. -/
theorem EnOrden.sinRecibir (h : EnOrden s creados ms)
    (ha : ∀ basura, a ≠ .kernelEscucha basura) :
    EnOrden s creados (ms ++ (s₁.recibe a).toList) := by
  have hnada : (s₁.recibe a).toList = [] := by
    cases a with
    | kernelEscucha basura => exact absurd rfl (ha basura)
    | _ => rfl
  rwa [hnada, List.append_nil]

/-- **The step lemma.** -/
theorem EnOrden.paso (h : EnOrden s creados ms) (ha : a.desalinea = false)
    (hs : pasoModulos entK entM s a = .ok (s', o)) :
    EnOrden s' (creados ++ o.filterMap hiloCreado) (ms ++ (s.recibe a).toList) := by
  have h₀ : EnOrden s.sinAtendidas creados ms := ⟨h.entero.sinAtendidas, h.cola⟩
  cases a with
  | kernelEscucha basura => exact h.escuchar hs
  | recibirMensaje n => cases ha
  | memoriaVuelca tm malloc valorAEnviar => cases ha
  | memoriaCpu q =>
    replace hs : s.sinAtendidas.atenderCpu entM q = .ok (s', o) := hs
    unfold Modulos.atenderCpu at hs
    split at hs
    · split at hs
      · cases hs
      · rename_i m' _ _
        cases hs
        rw [List.filterMap_nil, List.append_nil]
        have hent : Entero { s.sinAtendidas with memoria := m' } :=
          ⟨h₀.entero.escrito, h₀.entero.enviadas, h₀.entero.respuestas, rfl⟩
        exact EnOrden.sinRecibir ⟨hent, h₀.cola⟩ nofun
    · cases hs
  | memoriaAtiende malloc => exact (h.atender hs).sinRecibir nofun
  | _ => exact (h₀.enKernel hs).sinRecibir nofun

end Pasos

/-- **Threads are confirmed once, in order.** Take a run of the kernel and memoria, from any states
with no bytes between them, in which memoria forwards no answer of the file system and nobody takes
bytes of its replies as a text. The threads of the `HILO_READY`s that the kernel sent are those
whose confirmation its listener handled, then those whose confirmation is in the bytes that it did
not read, then those of the requests that memoria did not read, in the order of creation. -/
theorem creacion_exacta (entK : Kernel.Entorno) (entM : Memoria.Entorno) (k : Kernel.Estado)
    (m : Memoria.Estado) (as : List Suceso) (has : ∀ a ∈ as, a.desalinea = false) {s : Modulos}
    {o : List Kernel.Paquete} (hr : run (pasoModulos entK entM) (.nuevos k m) as = .ok (s, o)) :
    ∃ ms', s.escrito.drop s.leidos = flujoRespuestas ms' ∧
      o.filterMap hiloCreado =
        (recibidas entK entM (.nuevos k m) as).filterMap confirma ++ ms'.filterMap confirma ++
          s.pedidos.filterMap hiloCreado := by
  have hI : ∀ o, run (pasoModulos entK entM) (.nuevos k m) as = .ok (s, o) →
      EnOrden s (o.filterMap hiloCreado) (recibidas entK entM (.nuevos k m) as) := by
    refine Reaches.along ⟨o, hr⟩ (I := fun pre s => ∀ o,
      run (pasoModulos entK entM) (.nuevos k m) pre = .ok (s, o) →
        EnOrden s (o.filterMap hiloCreado) (recibidas entK entM (.nuevos k m) pre)) ?_ ?_
    · intro o hnil
      cases hnil
      exact ⟨entero_nuevos k m, [], ⟨rfl, rfl⟩, rfl⟩
    · intro pre s₁ a s₂ o hpre hs₁ hI ha o' hr'
      obtain ⟨o₁, o₂, h₁, h₂, rfl⟩ := run_snoc_of hs₁ hr'
      obtain rfl : o = o₂ := (Prod.mk.inj (Except.ok.inj (ha.symm.trans h₂))).2
      have hpaso := (hI o₁ h₁).paso (has a (hpre.subset (by simp))) ha
      rw [List.filterMap_append, recibidas, history_snoc hs₁ ha]
      exact hpaso
  obtain ⟨hent, ms', hf, hcreados⟩ := hI o hr
  refine ⟨ms', hf.resto hent, ?_⟩
  rw [hcreados, List.filterMap_append]

/-- The first process starts and its main thread creates another one, which memoria confirmed to
nobody yet. -/
def segundaCreacion : List Suceso :=
  [.syscall (.processCreate ⟨0, 0, ['a'], 32, 0⟩), .largoPlazo, .memoriaAtiende mallocCero,
    .kernelEscucha basuraCero, .memoriaAtiende mallocCero, .kernelEscucha basuraCero,
    .kernelEscucha basuraCero, .syscall (.threadCreate ⟨1, 0, ['b'], 1⟩)]

theorem creacion_exacta_segunda : ∃ s o,
    run (pasoModulos Kernel.entornoFifo (Memoria.entornoDinamico 100 (by decide))) modulosCero
      segundaCreacion = .ok (s, o) ∧
    ((o.filterMap hiloCreado, s.pedidos.filterMap hiloCreado) = ([(1, 0), (1, 1)], [(1, 1)])) ∧
    ∃ ms', s.escrito.drop s.leidos = flujoRespuestas ms' ∧
      o.filterMap hiloCreado =
        (recibidas Kernel.entornoFifo (Memoria.entornoDinamico 100 (by decide)) modulosCero
            segundaCreacion).filterMap confirma ++ ms'.filterMap confirma ++
          s.pedidos.filterMap hiloCreado := by
  obtain ⟨s, o, hr, hshow⟩ : ∃ s o,
      run (pasoModulos Kernel.entornoFifo (Memoria.entornoDinamico 100 (by decide))) modulosCero
        segundaCreacion = .ok (s, o) ∧
      (o.filterMap hiloCreado, s.pedidos.filterMap hiloCreado) = ([(1, 0), (1, 1)], [(1, 1)]) :=
    run_of_map (f := pasoModulos Kernel.entornoFifo (Memoria.entornoDinamico 100 (by decide)))
      (s := modulosCero) (c := ([(1, 0), (1, 1)], [(1, 1)]))
      (g := fun r => (r.2.filterMap hiloCreado, r.1.pedidos.filterMap hiloCreado))
      (by decide +kernel)
  exact ⟨s, o, hr, hshow, creacion_exacta _ _ _ _ _ (by decide +kernel) hr⟩

end LastOfC.Sistema
