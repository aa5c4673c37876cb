import LastOfC.Cpu.Pasada
import LastOfC.Kernel.Emisores
import LastOfC.Kernel.Pedidos
import LastOfC.Lib.Feed
import LastOfC.Sistema.RespuestaVolcado
import LastOfC.Sistema.Syscalls

/-!
# From the text of a program to the kernel

The CPU, memoria and the kernel in one run: each syscall that a thread of the CPU sends goes to the
connection of the dispatch listener, as bytes.

* `pasoCpuKernel`: a step of the CPU and memoria with the packets that it sends, or of the network,
  or of a thread of the kernel. The CPU takes any `RECIBIR_TID`, memoria any request and the kernel
  any reply of memoria.
* `paquetes_de`: which packets a thread sent shows in their pid and tid.
* `programas_exactos`: the syscalls that the kernel handled in the name of a thread are those of the
  lines of its program, each once and in the order of the text, without those on their way.
-/

namespace LastOfC.Sistema

open Trace
open Cpu (PaqueteSyscall CpuMemoria Salida)
open Kernel (Syscall)
open Memoria (Clave)

/-! ## The CPU and the kernel -/

/-- The packet of a step of the CPU, on `fd_kernel_dispatch`. -/
def aDispatch : Salida → Option PaqueteSyscall
  | .syscall _ paquete => some paquete
  | _ => none

/-- A step of the CPU with what it writes to the kernel, or one of the kernel and its connection. -/
abbrev SucesoCpuKernel := (Cpu.Paso × List SucesoKernel) ⊕ SucesoKernel

def pasoCpuKernel (entM : Memoria.Entorno) (entK : Kernel.Entorno) :
    CpuMemoria × Wire.Net Kernel.Estado Unit Byte → SucesoCpuKernel →
      Except Unit ((CpuMemoria × Wire.Net Kernel.Estado Unit Byte) ×
        List (Salida ⊕ Kernel.Paquete)) :=
  Feed.step (CpuMemoria.paso entM) (Wire.step (vuelta (turno entK)) conexionDispatch) aDispatch
    (enviadoEn (·.1) ())

/-- The syscalls among the turns of the kernel that are in the name of the thread. -/
def syscallsDelHilo (hilo : Clave) (ts : List Turno) : List Syscall :=
  (syscallsDe ts).filter fun y => (y.pid, y.tid) = hilo

/-! ## Packets -/

section Paquetes

open Cpu

variable {ent : Memoria.Entorno} {m : Memoria.Estado} {as : List Cpu.Paso} {o : List Salida}
  {s : CpuMemoria} {hilo : Clave} {p : PaqueteSyscall}

theorem syscallDe_de (p : PaqueteSyscall) :
    ((syscallDe p).pid, (syscallDe p).tid) = p.de := by
  cases p <;> rfl

/-- The packets of a pass carry the thread. -/
theorem pedidosDePasada_de {programa : List Cadena} {PID TID : Uint32} {n : Nat}
    (h : p ∈ pedidosDePasada programa PID TID n) : p.de = (PID, TID) := by
  obtain ⟨t, -, ht⟩ := List.mem_flatMap.mp h
  split at ht
  · unfold pedido at ht
    split at ht
    · rename_i paquete hpaquete
      have hde := executeSyscall_de (decode t PID TID) p
        (hpaquete.trans (congrArg _ (Option.mem_toList.mp ht)))
      rw [decode_conHilo] at hde
      exact hde
    · cases ht
  · cases ht

theorem enviados_de (h : CorrePrograma ent m as o s hilo) (hv : s.vivo = true)
    (hp : p ∈ enviados hilo o) : p.de = hilo := by
  obtain ⟨d, q, -, rfl, -, hpedidos⟩ := h
  exact pedidosDePasada_de (hpedidos hv ▸ List.mem_append_left _ hp)

/-- A thread that executed nothing sent nothing. -/
theorem enviados_nil (hpagado : Pagado o s) (h : ejecuciones hilo o = []) :
    enviados hilo o = [] ∧ debidos hilo s = [] := by
  have hnada := hpagado hilo
  rw [pedidos, h, List.flatMap_nil] at hnada
  exact List.append_eq_nil_iff.mp hnada

/-- **The packets of a thread are those with its pid and tid.** -/
theorem paquetes_de (hpagado : Pagado o s) (hv : s.vivo = true)
    (h : ∀ hilo, ejecuciones hilo o ≠ [] → CorrePrograma ent m as o s hilo) (hilo : Clave) :
    (o.filterMap aDispatch).filter (fun p => p.de = hilo) = enviados hilo o := by
  rw [List.filter_filterMap, enviados]
  refine List.filterMap_congr fun x hx => ?_
  cases x with
  | syscall c paquete =>
    have hmem : paquete ∈ enviados (hiloDe c) o :=
      List.mem_filterMap.mpr ⟨_, hx, if_pos rfl⟩
    have hde : paquete.de = hiloDe c := by
      refine enviados_de (h (hiloDe c) fun hnil => ?_) hv hmem
      rw [(enviados_nil hpagado hnil).1] at hmem
      cases hmem
    simp only [aDispatch, Salida.paquete, Option.filter, hde, decide_eq_true_eq]
  | _ => rfl

end Paquetes

/-! ## Runs -/

section Corridas

open Cpu (LineasCortas lineasDe hiloNuevo DeAUno Nace pedidosDePasada ejecuciones debidos)

variable {entM : Memoria.Entorno} {entK : Kernel.Entorno}

/-- In the name of the thread, the kernel handled syscalls of the program of its `HILO_READY`, from
the first on, each once and in the order of the text. When all bytes were read, it handled all that
the thread executed, but the one that the CPU is about to send. -/
def AtiendePrograma (entM : Memoria.Entorno) (m : Memoria.Estado) (ls : List SucesoCpuKernel)
    (s : CpuMemoria) (n : Wire.Net Kernel.Estado Unit Byte) (o : List Salida) (ts : List Turno)
    (hilo : Clave) : Prop :=
  ∃ d p, Nace entM m (Feed.producer ls) d p ∧ hilo = (d.PID, d.TID) ∧
    let pedidas := (pedidosDePasada (lineasDe entM d.path) d.PID d.TID
      (ejecuciones hilo o).length).map syscallDe
    syscallsDelHilo hilo ts <+: pedidas ∧
      (n.chans () = ⟨[], []⟩ →
        syscallsDelHilo hilo ts ++ (debidos hilo s).map syscallDe = pedidas)

/-- A filter on the thread of the packets is one on that of the syscalls. -/
theorem filter_syscallDe (ps : List PaqueteSyscall) (hilo : Clave) :
    (ps.map syscallDe).filter (fun y => (y.pid, y.tid) = hilo) =
      (ps.filter fun p => p.de = hilo).map syscallDe := by
  rw [List.filter_map]
  refine congrArg _ (List.filter_congr fun p _ => ?_)
  simp only [Function.comp_apply, syscallDe_de]

/-- **The kernel handles the syscalls of the programs.** Take a run of the CPU, memoria and the
kernel, from the start of the CPU and memoria, that creates each thread once, with one thread
dispatched at a time and no `check_interrupt`, in which the CPU is on at the end. Whatever the
network, the other threads of the kernel and the calls of `malloc` do, the kernel does what it does
with a list of syscalls, and in the name of each thread it handles those of the lines that the CPU
gets past in its program, from the first on, each once and in the order of the text. -/
theorem programas_exactos (basura : Nat → Uint32) (memoria : Nat → Byte)
    (hlineas : LineasCortas entM) (hlargo : ∀ path, (lineasDe entM path).length < 2 ^ 32)
    (k : Kernel.Estado) {ls : List SucesoCpuKernel} {s : CpuMemoria}
    {n : Wire.Net Kernel.Estado Unit Byte} {o : List (Salida ⊕ Kernel.Paquete)}
    (hn : ((Feed.producer ls).filterMap hiloNuevo).Nodup)
    (h : EveryStep (CpuMemoria.paso entM)
      (.nueva (Memoria.estadoInicial entM.toConfigMemoria basura memoria)) (Feed.producer ls)
        fun _ => DeAUno)
    (hr : run (pasoCpuKernel entM entK)
      (.nueva (Memoria.estadoInicial entM.toConfigMemoria basura memoria), kernelConectado k) ls =
        .ok ((s, n), o))
    (hv : s.vivo = true) :
    ∃ ts : List Turno,
      run (Kernel.paso entK) k (ts.map Turno.paso) = .ok (n.state, o.filterMap Sum.getRight?) ∧
      hilosDe ts = (Feed.consumer ls).filterMap Wire.Event.agent ∧
      ∀ hilo,
        (ejecuciones hilo (o.filterMap Sum.getLeft?) = [] ∧ syscallsDelHilo hilo ts = []) ∨
        AtiendePrograma entM (Memoria.estadoInicial entM.toConfigMemoria basura memoria) ls s n
          (o.filterMap Sum.getLeft?) ts hilo := by
  obtain ⟨hcpu, hkernel, hcable⟩ := Feed.run_split hr
  obtain ⟨_, -, hpagado, -⟩ := Cpu.transparente_corrida hlineas rfl hn h hcpu hv
  have hcorre := Cpu.correPrograma_corrida hlineas hlargo rfl hn h hcpu
  obtain ⟨as, hrun, hagentes, htoma⟩ := escucha_exacta entregan_syscalls k hkernel
  rw [enConexion_turnos as] at hagentes htoma
  obtain ⟨-, hhilos, hsyscalls⟩ := enConexion_map (as.map (Sum.map id Prod.snd))
  rw [hhilos] at hagentes
  refine ⟨as.map (Sum.map id Prod.snd), by rw [← run_turno]; exact hrun, hagentes, fun hilo => ?_⟩
  -- What was sent to the kernel in the name of the thread is what the thread sent.
  have henviado : ((Feed.consumer ls).filterMap (enviadoEn (syscallDe ·.1) ())).filter
      (fun y => (y.pid, y.tid) = hilo) =
        (Cpu.enviados hilo (o.filterMap Sum.getLeft?)).map syscallDe := by
    have hmap : (Feed.consumer ls).filterMap (enviadoEn (syscallDe ·.1) ()) =
        ((Feed.consumer ls).filterMap (enviadoEn (·.1) ())).map syscallDe := by
      rw [List.map_filterMap]
      refine List.filterMap_congr fun e _ => ?_
      cases e <;> rfl
    rw [hmap, hcable, filter_syscallDe, paquetes_de hpagado hv hcorre]
  obtain ⟨hprefijo, hentero⟩ := htoma ()
  rw [hsyscalls] at hprefijo hentero
  have hparte : syscallsDelHilo hilo (as.map (Sum.map id Prod.snd)) <+:
      (Cpu.enviados hilo (o.filterMap Sum.getLeft?)).map syscallDe :=
    henviado ▸ hprefijo.filter _
  by_cases hne : ejecuciones hilo (o.filterMap Sum.getLeft?) = []
  · rw [(enviados_nil hpagado hne).1] at hparte
    exact .inl ⟨hne, List.prefix_nil.mp hparte⟩
  · obtain ⟨d, p, hd, hhilo, -, hpedidos⟩ := hcorre hilo hne
    refine .inr ⟨d, p, hd, hhilo, ?_, fun hvacio => ?_⟩
    · rw [← hpedidos hv, List.map_append]
      exact hparte.trans (List.prefix_append _ _)
    · rw [← hpedidos hv, List.map_append, ← henviado, ← hentero hvacio]
      rfl

end Corridas

/-! ## Two threads -/

/-- Steps of the CPU that send nothing to the kernel. -/
def sinEnvio (as : List Cpu.Paso) : List SucesoCpuKernel := as.map fun a => .inl (a, [])

/-- Thread `k` of the CPU gets a context and executes one syscall. The packet arrives, and the
dispatch listener takes it. -/
def turnoHastaKernel (tid : Uint32) (k : Nat) (p : PaqueteCorto) : List SucesoCpuKernel :=
  sinEnvio (Cpu.despacha tid ++ .ciclo k :: Cpu.atiendeYEscucha 17 ++ List.replicate 3 (.ciclo k) ++
      Cpu.atiendeYEscucha 12 ++ [.ciclo k]) ++
    .inl (.ciclo k, [.send () ⟨mallocCero, rfl⟩ p]) :: .inr (.arrive () 100) ::
      .inr (.take () ⟨basuraCero, rfl⟩) :: sinEnvio (List.replicate 3 (.ciclo k))

/-- Thread 0 goes on after a turn of thread 1. -/
def corridaHastaKernel : List SucesoCpuKernel :=
  sinEnvio Cpu.dosHilosListos ++
    turnoHastaKernel 0 0 ⟨.io ⟨1, 0, 1⟩, by decide⟩ ++
    turnoHastaKernel 1 1 ⟨.io ⟨1, 1, 1⟩, by decide⟩ ++
    turnoHastaKernel 0 2 ⟨.io ⟨1, 0, 2⟩, by decide⟩

/-- Process 1 started, and its main thread created another one. -/
def kernelArrancado : Kernel.Estado :=
  (Kernel.arranque ++ Kernel.segundoHilo).foldl (fun k p => p.tras Kernel.entornoFifo k)
    Kernel.estadoCero

theorem programas_exactos_dosHilos :
    let entM := Cpu.entornoCpu "IO 1\nIO 2".toList
    ∃ s n o, run (pasoCpuKernel entM Kernel.entornoFifo)
        (Cpu.cpuCero, kernelConectado kernelArrancado) corridaHastaKernel = .ok ((s, n), o) ∧
      ((n.chans ()).arrived = [] ∧ (n.chans ()).sent = [] ∧
        (Cpu.ejecuciones (1, 0) (o.filterMap Sum.getLeft?)).length = 2) ∧
      ∃ ts : List Turno,
        run (Kernel.paso Kernel.entornoFifo) kernelArrancado (ts.map Turno.paso) =
            .ok (n.state, o.filterMap Sum.getRight?) ∧
          hilosDe ts = (Feed.consumer corridaHastaKernel).filterMap Wire.Event.agent ∧
          ∀ hilo,
            (Cpu.ejecuciones hilo (o.filterMap Sum.getLeft?) = [] ∧
              syscallsDelHilo hilo ts = []) ∨
            AtiendePrograma entM
              (Memoria.estadoInicial entM.toConfigMemoria (fun _ => 0) fun _ => 0)
              corridaHastaKernel s n (o.filterMap Sum.getLeft?) ts hilo := by
  intro entM
  obtain ⟨⟨s, n⟩, o, hr, hvista⟩ : ∃ x o, run (pasoCpuKernel entM Kernel.entornoFifo)
      (Cpu.cpuCero, kernelConectado kernelArrancado) corridaHastaKernel = .ok (x, o) ∧
      (x.1.vivo, (x.2.chans ()).arrived, (x.2.chans ()).sent,
        (Cpu.ejecuciones (1, 0) (o.filterMap Sum.getLeft?)).length) = (true, [], [], 2) :=
    run_of_map
      (g := fun r : (CpuMemoria × Wire.Net Kernel.Estado Unit Byte) ×
          List (Salida ⊕ Kernel.Paquete) =>
        (r.1.1.vivo, (r.1.2.chans ()).arrived, (r.1.2.chans ()).sent,
          (Cpu.ejecuciones (1, 0) (r.2.filterMap Sum.getLeft?)).length))
      (by decide +kernel)
  obtain ⟨hvivo, harrived, hsent, hdos⟩ := by simpa only [Prod.mk.injEq] using hvista
  exact ⟨s, n, o, hr, ⟨harrived, hsent, hdos⟩, programas_exactos (fun _ => 0) (fun _ => 0)
    (Cpu.lineasCortas_entornoCpu (by decide)) (Cpu.lineasDe_entornoCpu (by decide)) kernelArrancado
    (by decide) (.of_check (by decide +kernel)) hr hvivo⟩

end LastOfC.Sistema
