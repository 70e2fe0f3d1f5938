import Os161.Base
import Os161.Lib.Transition

namespace Os161.Process
open Word Transition

/-- `PID_MIN`; a `pid_t` has 32 bits with a sign. -/
abbrev pidMin : Int := 2

abbrev pidMax : Int := 32767

/-- The part of `struct proc` that the process table uses, with its address. -/
structure Proc where
  address : Nat
  pid : Int
deriving DecidableEq, Repr

/-- `struct exitc` -/
structure Exitc where
  pid : Int
  exitcode : Word32
deriving DecidableEq, Repr

/-- The arrays `procarr` and `codes`. -/
structure ProcTable where
  procarr : List Proc
  codes : List Exitc
deriving DecidableEq, Repr

def ProcTable.findProc (t : ProcTable) (pid : Int) : Option Proc :=
  t.procarr.find? fun proc => proc.pid = pid

def ProcTable.findExitc (t : ProcTable) (pid : Int) : Option Exitc :=
  t.codes.find? fun c => c.pid = pid

/-- The search for a pid in `proc_create` and `sys_fork`. -/
def ProcTable.pidLoop (t : ProcTable) : (remaining : Nat) → (curid : Int) → Option Int
  | 0, _ => none
  | remaining + 1, curid =>
    if t.findProc curid = none then some curid else t.pidLoop remaining (curid + 1)

/-- `p_pid` of a new process keeps what was in its memory when the search finds no pid. -/
def ProcTable.newPid (t : ProcTable) (stray : Int) : Int :=
  (t.pidLoop (pidMax - pidMin + 1).toNat pidMin).getD stray

/-- A new process enters both arrays. -/
def ProcTable.add (t : ProcTable) (proc : Proc) : ProcTable where
  procarr := t.procarr ++ [proc]
  codes := t.codes ++ [{ pid := proc.pid, exitcode := -1 }]

def ProcTable.procCreate (t : ProcTable) (address : Nat) (stray : Int) : Proc × ProcTable :=
  let proc := { address := address, pid := t.newPid stray }
  (proc, t.add proc)

/-- The process table in `sys_fork`; a refused fork creates no process. -/
def ProcTable.sysFork (t : ProcTable) (address : Nat) (stray : Int) : Option Proc × ProcTable :=
  if t.procarr.length = pidMax - pidMin then (none, t)
  else
    let proc := { address := address, pid := t.newPid stray }
    (some proc, t.add proc)

def mkwaitExit (code : Word32) : Word32 := code <<< 2 ||| 0

/-- `sys__exit` writes to the first record of its pid. -/
def recordExit (pid : Int) (exitcode : Word32) : List Exitc → List Exitc
  | [] => []
  | c :: rest =>
    if c.pid = pid then { c with exitcode := exitcode } :: rest
    else c :: recordExit pid exitcode rest

/-- The process table in `sys__exit`. -/
def ProcTable.sysExit (t : ProcTable) (curproc : Proc) (exitcode : Word32) : ProcTable where
  procarr := t.procarr.eraseP fun proc => proc.address = curproc.address
  codes := recordExit curproc.pid (mkwaitExit exitcode) t.codes

/-- The calls that change the process table. -/
inductive ProcOp where
  | create (address : Nat) (stray : Int)
  | fork (address : Nat) (stray : Int)
  | exit (curproc : Proc) (exitcode : Word32)
deriving DecidableEq, Repr

/-- One call. A new process has an address of its own. -/
inductive ProcStep : ProcTable → ProcOp → ProcTable → Prop where
  | create {t : ProcTable} {address : Nat} {stray : Int}
      (fresh : ∀ proc ∈ t.procarr, proc.address ≠ address) :
      ProcStep t (.create address stray) (t.procCreate address stray).2
  | fork {t : ProcTable} {address : Nat} {stray : Int}
      (fresh : ∀ proc ∈ t.procarr, proc.address ≠ address) :
      ProcStep t (.fork address stray) (t.sysFork address stray).2
  | exit {t : ProcTable} {curproc : Proc} {exitcode : Word32} (running : curproc ∈ t.procarr) :
      ProcStep t (.exit curproc exitcode) (t.sysExit curproc exitcode)

end Os161.Process
