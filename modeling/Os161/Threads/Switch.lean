import Os161.Base
import Mathlib.Data.List.Nodup
import Mathlib.Logic.Function.Basic

namespace Os161.Threads
open Function

abbrev ThreadId := Nat

abbrev CpuId := Nat

/-- An address space is known by its address. -/
abbrev SpaceId := Nat

/-- The part of `struct thread` that switching uses, with the locals of its suspended calls. A user
process has one thread, so that its address space is a field of the thread. -/
structure Thread where
  inInterrupt : Bool
  cpu : CpuId
  /-- `curproc_getas` in this thread. -/
  space : Option SpaceId
  /-- `next` in the last call of `thread_switch`; a new thread has made none. -/
  next : Option ThreadId
  /-- `old_in` in the suspended call of `mips_trap` that the timer has made. -/
  oldIn : Option Bool
deriving DecidableEq, Repr

/-- `thread_create` and the fields that `thread_fork` sets. -/
def Thread.create (cpu : CpuId) (space : Option SpaceId) : Thread :=
  { inInterrupt := false, cpu := cpu, space := space, next := none, oldIn := none }

/-- The part of `struct cpu` that switching uses. -/
structure Cpu where
  curthread : ThreadId
  runqueue : List ThreadId
  isidle : Bool
deriving DecidableEq, Repr

/-- All processors and threads. The threads on the wait channels form one list. -/
structure Sched where
  threads : ThreadId → Thread
  cpus : CpuId → Cpu
  sleepers : List ThreadId

/-- The states that `thread_switch` gives the thread it switches away from. -/
inductive ThreadState where
  | ready
  | sleep
  | zombie
deriving DecidableEq, Repr

def Sched.curthread (s : Sched) (cpu : CpuId) : ThreadId := (s.cpus cpu).curthread

def Sched.setThread (s : Sched) (id : ThreadId) (thread : Thread) : Sched :=
  { s with threads := update s.threads id thread }

def Sched.setCpu (s : Sched) (cpu : CpuId) (c : Cpu) : Sched :=
  { s with cpus := update s.cpus cpu c }

/-- `thread_make_runnable` -/
def Sched.makeRunnable (s : Sched) (target : ThreadId) : Sched :=
  let targetcpu := (s.threads target).cpu
  let c := s.cpus targetcpu
  s.setCpu targetcpu { c with runqueue := c.runqueue ++ [target] }

/-- `thread_switch` puts the current thread in the right place. -/
def Sched.place (s : Sched) (cur : ThreadId) : ThreadState → Sched
  | .ready => s.makeRunnable cur
  | .sleep => { s with sleepers := s.sleepers ++ [cur] }
  | .zombie => s

/-- One round of the loop in `thread_switch` that gets the next thread. With an empty run queue the
processor stays idle, and otherwise the chosen thread continues. -/
def Sched.getNext (s : Sched) (cpu : CpuId) : Sched × Option ThreadId :=
  match (s.cpus cpu).runqueue with
  | [] => (s, none)
  | next :: rest =>
    let cur := s.curthread cpu
    ((s.setThread cur { s.threads cur with next := some next }).setCpu cpu
      { curthread := next, runqueue := rest, isidle := false }, some next)

/-- `thread_switch` up to `switchframe_switch`, with the thread that continues behind it. -/
def Sched.threadSwitch (s : Sched) (newstate : ThreadState) (cpu : CpuId) :
    Sched × Option ThreadId :=
  let c := s.cpus cpu
  if c.isidle then (s, none)
  else if newstate = .ready ∧ c.runqueue = [] then (s, none)
  else
    let s := s.place c.curthread newstate
    (s.setCpu cpu { s.cpus cpu with isidle := true }).getNext cpu

/-- The timer's call of `mips_trap` returns in a thread. -/
def Sched.trapReturn (s : Sched) (id : ThreadId) : Sched :=
  match (s.threads id).oldIn with
  | none => s
  | some old => s.setThread id { s.threads id with inInterrupt := old, oldIn := none }

/-- The timer's call of `mips_trap` up to the call of `thread_yield` in `hardclock`. -/
def Sched.trapEnter (s : Sched) (id : ThreadId) : Sched :=
  let thread := s.threads id
  s.setThread id { thread with inInterrupt := true, oldIn := some thread.inInterrupt }

/-- What the threads and the interrupts of a processor do. -/
inductive ThreadOp where
  | timer (cpu : CpuId)
  | yield (cpu : CpuId)
  | sleep (cpu : CpuId)
  | exit (cpu : CpuId)
  | unidle (cpu : CpuId)
  | fork (cpu : CpuId) (child : ThreadId) (space : Option SpaceId)
  | setas (cpu : CpuId) (space : SpaceId)
  | wake (id : ThreadId)
  | migrate (cpu : CpuId) (id : ThreadId) (target : CpuId)
  | shuffle (cpu : CpuId) (queue : List ThreadId)
deriving DecidableEq, Repr

/-- A new thread for `thread_fork`. -/
def Sched.absent (s : Sched) (id : ThreadId) : Prop :=
  id ∉ s.sleepers ∧ ∀ cpu, id ≠ s.curthread cpu ∧ id ∉ (s.cpus cpu).runqueue

/-- When an operation can happen. A thread acts while it runs. `thread_consider_migration` moves no
thread that a processor still treats as its current one. -/
def ThreadOp.Enabled (s : Sched) : ThreadOp → Prop
  | .timer _ => True
  | .yield cpu => (s.cpus cpu).isidle = false
  | .sleep cpu => (s.cpus cpu).isidle = false
  | .exit cpu => (s.cpus cpu).isidle = false
  | .unidle cpu => (s.cpus cpu).isidle = true
  | .fork cpu child _ => (s.cpus cpu).isidle = false ∧ s.absent child
  | .setas cpu _ => (s.cpus cpu).isidle = false
  | .wake id => id ∈ s.sleepers
  | .migrate cpu id target => id ∈ (s.cpus cpu).runqueue ∧ id ≠ s.curthread cpu ∧ cpu ≠ target
  | .shuffle cpu queue => (s.cpus cpu).runqueue.Perm queue

/-- The effect of an operation, with the thread that continues behind `switchframe_switch`. -/
def ThreadOp.effect (s : Sched) : ThreadOp → Sched × Option ThreadId
  | .timer cpu =>
    match (s.trapEnter (s.curthread cpu)).threadSwitch .ready cpu with
    | (s, none) => (s.trapReturn (s.curthread cpu), none)
    | (s, some id) => (s, some id)
  | .yield cpu => s.threadSwitch .ready cpu
  | .sleep cpu => s.threadSwitch .sleep cpu
  | .exit cpu =>
    let cur := s.curthread cpu
    (s.setThread cur { s.threads cur with space := none }).threadSwitch .zombie cpu
  | .unidle cpu => s.getNext cpu
  | .fork cpu child space =>
    let thread := Thread.create (s.threads (s.curthread cpu)).cpu space
    ((s.setThread child thread).makeRunnable child, none)
  | .setas cpu space =>
    let cur := s.curthread cpu
    (s.setThread cur { s.threads cur with space := some space }, none)
  | .wake id => (({ s with sleepers := s.sleepers.erase id }).makeRunnable id, none)
  | .migrate cpu id target =>
    let c := s.cpus cpu
    let s := s.setCpu cpu { c with runqueue := c.runqueue.erase id }
    ((s.setThread id { s.threads id with cpu := target }).makeRunnable id, none)
  | .shuffle cpu queue => (s.setCpu cpu { s.cpus cpu with runqueue := queue }, none)

/-- The end of `thread_switch` skips `as_activate` in a thread that has switched to itself;
`thread_startup` never does. -/
def Sched.activates (s : Sched) (id : ThreadId) : Prop := (s.threads id).next ≠ some id

instance (s : Sched) : DecidablePred s.activates := fun _ => inferInstanceAs (Decidable (_ ≠ _))

/-- `as_activate` in a thread up to the assertion in `lock_acquire`. -/
def Sched.asActivate (s : Sched) (id : ThreadId) : Kernel Unit :=
  match (s.threads id).space with
  | none => .ok ()
  | some _ => kassert ((s.threads id).inInterrupt = false) "curthread->t_in_interrupt == false"

/-- The assertion of `wchan_sleep`. -/
def ThreadOp.check (s : Sched) : ThreadOp → Kernel Unit
  | .sleep cpu =>
    kassert ((s.threads (s.curthread cpu)).inInterrupt = false) "!curthread->t_in_interrupt"
  | _ => .ok ()

/-- An operation with the end of `thread_switch` in the thread that continues. -/
def ThreadOp.exec (s : Sched) (op : ThreadOp) : Kernel Sched := do
  op.check s
  match op.effect s with
  | (s, none) => return s
  | (s, some id) =>
    if s.activates id then s.asActivate id
    return s.trapReturn id

/-- One operation of the threads. -/
structure ThreadStep (s : Sched) (op : ThreadOp) (t : Sched) : Prop where
  enabled : op.Enabled s
  returned : op.exec s = .ok t

end Os161.Threads
