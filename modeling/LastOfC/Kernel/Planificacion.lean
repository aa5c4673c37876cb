import Mathlib.Data.List.Perm.Basic
import LastOfC.Kernel.Estado

/-!
# Scheduling, without the code

What the kernel keeps to schedule threads: the state of each thread, the lists it can stand in, and
the semaphore of the short-term scheduler. `Mueve s m s'` is what the movement `m` does to them.
The programs of the kernel only make these movements; another module proves it. The invariants of
the scheduler are about `Mueve`, and do not see the programs.

* `nace`: a thread is created. It is in no list yet.
* `admite`: memoria confirmed a thread. It gets into `ready`, if it exists.
* `encola`, `bloquea`, `duerme`: a thread gets into `ready`, gets into `blocked`, or does a whole
  IO. None of them takes it out of where it stood.
* `despacha` and `gira`: the scheduler runs a thread, or finds no algorithm.
* `termina`: threads end, and others wake.
-/

namespace LastOfC.Kernel

structure Planificacion where
  estado : Dir → EstadoProcesoHilo
  hilos : List Dir
  liberados : List Dir
  ready : List Dir
  blocked : List Dir
  exit : List Dir
  exec : List Dir
  /-- `TCBaPlanificar`. -/
  semaforo : Nat
  proximo : Dir

/-- What a step does to the threads. -/
inductive Movimiento where
  | nada
  | nace
  | admite (h : Option Dir)
  | encola (h : Dir)
  | bloquea (h : Dir)
  | duerme (h : Dir)
  | despacha
  | gira
  /-- The threads that end, and whether one that is blocked waits for one of them. -/
  | termina (hs : List Dir) (hayEspera : Bool)
  deriving DecidableEq, Repr

/-- The threads that a movement ends. -/
def Movimiento.terminan : Movimiento → List Dir
  | .termina hs _ => hs
  | _ => []

namespace Planificacion

/-- `h` has the state `e`, and the others keep theirs. -/
def conEstado (s : Planificacion) (h : Dir) (e : EstadoProcesoHilo) : Planificacion :=
  { s with estado := Function.update s.estado h e }

@[simp] theorem conEstado_estado (s : Planificacion) (h : Dir) (e : EstadoProcesoHilo) :
    (s.conEstado h e).estado = Function.update s.estado h e := rfl

/-- What each movement does. The threads that wake are `despiertan`: they leave `blocked` for
`ready`. -/
inductive Mueve (s : Planificacion) : Movimiento → Planificacion → Prop where
  | nada {n : Dir} (hn : s.proximo ≤ n) : Mueve s .nada { s with proximo := n }
  | nace {h n : Dir} (hh : s.proximo ≤ h) (hn : h < n) :
      Mueve s .nace { s.conEstado h .ready with hilos := s.hilos ++ [h], proximo := n }
  | admite (h : Option Dir) :
      Mueve s (.admite h) { s with ready := s.ready ++ h.toList, semaforo := s.semaforo + 1 }
  | encola (h : Dir) : Mueve s (.encola h) { s.conEstado h .ready with ready := s.ready ++ [h] }
  | bloquea (h : Dir) :
      Mueve s (.bloquea h) { s.conEstado h .blocked with blocked := s.blocked ++ [h] }
  | duerme (h : Dir) :
      Mueve s (.duerme h) { s.conEstado h .ready with
        ready := s.ready ++ [h]
        blocked := (s.blocked ++ [h]).erase h }
  | despacha {i : Nat} {h : Dir} (hs : 0 < s.semaforo) (hi : s.ready[i]? = some h) :
      Mueve s .despacha { s.conEstado h .exec with
        ready := s.ready.eraseIdx i
        exec := s.exec ++ [h]
        semaforo := s.semaforo - 1 }
  | gira (hs : 0 < s.semaforo) : Mueve s .gira { s with semaforo := s.semaforo - 1 }
  | termina {hs terminados despiertan blocked liberados : List Dir} {hayEspera : Bool}
      {estado : Dir → EstadoProcesoHilo} {n : Dir}
      (hhs : ∀ h, h ∈ terminados ↔ h ∈ hs)
      (hperm : (despiertan ++ blocked).Perm s.blocked)
      (hespera : despiertan ≠ [] ↔ hayEspera = true)
      (hvacio : terminados = [] → despiertan = [])
      (hestado : ∀ h, h ∉ terminados → h ∉ despiertan → estado h = s.estado h)
      (hexec : ∀ h, h ∉ liberados → estado h = .exec → s.estado h = .exec)
      (hlib : s.liberados ⊆ liberados)
      (hn : s.proximo ≤ n) :
      Mueve s (.termina hs hayEspera) { s with
        estado := estado
        ready := s.ready ++ despiertan
        blocked := blocked
        exit := s.exit ++ terminados
        liberados := liberados
        proximo := n }

/-- The TCBs are at addresses that `malloc` has returned. -/
def Acotada (s : Planificacion) : Prop := ∀ h ∈ s.hilos, h < s.proximo

variable {s s' : Planificacion} {m : Movimiento}

theorem Mueve.acotada (h : s.Mueve m s') (ha : s.Acotada) : s'.Acotada := by
  unfold Acotada at *
  cases h with
  | nada hn => exact fun d hd => Nat.lt_of_lt_of_le (ha d hd) hn
  | @nace h n hh hn =>
    intro d hd
    rcases List.mem_append.mp hd with hd | hd
    · exact ((ha d hd).trans_le hh).trans hn
    · rw [List.mem_singleton.mp hd]
      exact hn
  | termina _ _ _ _ _ _ _ hn => exact fun d hd => Nat.lt_of_lt_of_le (ha d hd) hn
  | _ => exact ha

theorem Mueve.hilos_subset (h : s.Mueve m s') : s.hilos ⊆ s'.hilos := by
  cases h with
  | nace => exact List.subset_append_left _ _
  | _ => exact List.Subset.refl _

/-- A thread stays in `lista_exit`. -/
theorem Mueve.exit_subset (h : s.Mueve m s') : s.exit ⊆ s'.exit := by
  cases h with
  | termina => exact List.subset_append_left _ _
  | _ => exact List.Subset.refl _

/-- Only the end of a thread puts it into `exit`. -/
theorem Mueve.exit_of_ne (h : s.Mueve m s') (hm : ∀ hs e, m ≠ .termina hs e) :
    s'.exit = s.exit := by
  cases h with
  | termina => exact absurd rfl (hm _ _)
  | _ => rfl

/-- Only a dispatch puts a thread into `exec`. -/
theorem Mueve.exec_of_ne (h : s.Mueve m s') (hm : m ≠ .despacha) : s'.exec = s.exec := by
  cases h with
  | despacha => exact absurd rfl hm
  | _ => rfl

end Planificacion

end LastOfC.Kernel
