import Os161.Syscall.Dispatch
import Os161.Process.Pids

namespace Os161.Syscall
open Word Process

/-- The frame with which `enter_forked_process` enters user mode: a copy of the frame that `sys_fork`
has copied for the child. -/
def enterForkedProcess (ptf : Trapframe) : Trapframe :=
  { ptf with v0 := 0, a3 := 0, epc := ptf.epc + 4 }

/-- What `sys_fork` returns, the process table behind it and the frame of the child's thread. -/
structure ForkResult where
  reply : Reply
  table : ProcTable
  child : Option Trapframe

/-- `sys_fork` with the result of `thread_fork`, which it ignores. The new process is at an address
where the memory holds a stray pid. -/
def sysFork (t : ProcTable) (tf : Trapframe) (address : Nat) (stray errno : Word32)
    (result : Errno) : ForkResult :=
  match t.sysFork address stray.toInt with
  | (none, t) =>
    { reply := { retval := 0, errno := BitVec.ofNat 32 eMproc }, table := t, child := none }
  | (some newproc, t) =>
    { reply := { retval := BitVec.ofInt 32 newproc.pid, errno := errno }
      table := t
      child := if result = 0 then some (enterForkedProcess tf) else none }

/-- The parent's view of a fork: a positive pid of a new process with a thread, or an error, no thread
and an unchanged process table. -/
inductive AllOrNothing (t : ProcTable) (tf parent : Trapframe) (u : ProcTable) :
    Option Trapframe → Prop where
  | forked {child : Trapframe} (table : u = t.add newproc) (positive : 0 < newproc.pid)
      (flag : parent.a3 = 0) (value : parent.v0.toInt = newproc.pid) (zero : child.v0 = 0)
      (clear : child.a3 = 0) (past : child.epc = tf.epc + 4) : AllOrNothing t tf parent u (some child)
  | failed (table : u = t) (flag : parent.a3 = 1) (value : parent.v0 ≠ 0) :
      AllOrNothing t tf parent u none

section

variable {t : ProcTable} {tf : Trapframe} {address : Nat} {stray errno : Word32} {result : Errno}

theorem sysFork_refused (refused : t.procarr.length = pidMax - pidMin) :
    sysFork t tf address stray errno result =
      { reply := { retval := 0, errno := BitVec.ofNat 32 eMproc }, table := t, child := none } := by
  simp only [sysFork, ProcTable.sysFork, if_pos refused]

theorem sysFork_created (accepted : t.procarr.length ≠ pidMax - pidMin) :
    sysFork t tf address stray errno result =
      { reply := { retval := BitVec.ofInt 32 (t.newPid stray.toInt), errno := errno }
        table := t.add { address := address, pid := t.newPid stray.toInt }
        child := if result = 0 then some (enterForkedProcess tf) else none } := by
  simp only [sysFork, ProcTable.sysFork, if_neg accepted]

end

theorem newPid_toInt (t : ProcTable) (stray : Word32) :
    (BitVec.ofInt 32 (t.newPid stray.toInt)).toInt = t.newPid stray.toInt := by
  unfold ProcTable.newPid
  cases found : t.pidLoop (pidMax - pidMin + 1).toNat pidMin with
  | none => exact congrArg BitVec.toInt (BitVec.ofInt_toInt)
  | some pid =>
    obtain ⟨_, above, below⟩ := ProcTable.pidLoop_some found
    rw [Option.getD_some, BitVec.toInt_ofInt]
    have bound : pid ≤ 32767 := Int.le_of_lt_add_one below
    have least : 2 ≤ pid := above
    exact Int.bmod_eq_of_le (by omega) (by omega)

theorem ProcTable.add_ne (t : ProcTable) (proc : Proc) : t.add proc ≠ t := by
  intro same
  have lengths := congrArg (fun table => table.procarr.length) same
  simp [ProcTable.add] at lengths

theorem syscall_a3 (tf : Trapframe) (reply : Reply) (stale : Word32) :
    ((Call.ofNumber tf.v0).err reply stale = 0 ∧ (syscall tf reply stale).a3 = 0 ∧
        (syscall tf reply stale).v0 = (Call.ofNumber tf.v0).retval reply) ∨
      ((Call.ofNumber tf.v0).err reply stale ≠ 0 ∧ (syscall tf reply stale).a3 = 1 ∧
        (syscall tf reply stale).v0 = (Call.ofNumber tf.v0).err reply stale) := by
  unfold syscall
  dsimp only
  split
  · rename_i wrong
    exact .inr ⟨wrong, rfl, rfl⟩
  · rename_i clear
    exact .inl ⟨not_not.mp clear, rfl, rfl⟩

/-- Fork is all or nothing exactly under these conditions on its inputs. -/
theorem fork_all_or_nothing_iff (t : ProcTable) {tf : Trapframe}
    (number : Call.ofNumber tf.v0 = .fork) (address : Nat) (stray errno stale : Word32)
    (result : Errno) :
    AllOrNothing t tf (syscall tf (sysFork t tf address stray errno result).reply stale)
        (sysFork t tf address stray errno result).table
        (sysFork t tf address stray errno result).child ↔
      (t.procarr.length = pidMax - pidMin ∧ stale ≠ 0) ∨
      (t.procarr.length ≠ pidMax - pidMin ∧ result = 0 ∧ stale = 0 ∧
        (¬ t.Full ∨ 0 < stray.toInt)) := by
  rw [← t.newPid_pos_iff]
  by_cases refused : t.procarr.length = pidMax - pidMin
  · rw [sysFork_refused refused]
    have err : (Call.ofNumber tf.v0).err { retval := 0, errno := BitVec.ofNat 32 eMproc } stale =
        stale := by
      rw [number]
      rfl
    obtain ⟨clear, flag, value⟩ | ⟨wrong, flag, value⟩ :=
      syscall_a3 tf { retval := 0, errno := BitVec.ofNat 32 eMproc } stale
    · rw [err] at clear
      refine iff_of_false ?_ ?_
      · intro holds
        cases holds with
        | failed table error => rw [flag] at error; simp at error
      · rintro (⟨_, stale⟩ | ⟨accepted, _⟩)
        · exact stale clear
        · exact accepted refused
    · rw [err] at wrong value
      exact iff_of_true (.failed rfl flag fun zero => wrong (value.symm.trans zero))
        (.inl ⟨refused, wrong⟩)
  · rw [sysFork_created refused]
    have fits := newPid_toInt t stray
    generalize t.newPid stray.toInt = pid at fits
    have positive_err (positive : 0 < pid) : (Call.ofNumber tf.v0).err
        { retval := BitVec.ofInt 32 pid, errno := errno } stale = stale := by
      have sign : (BitVec.ofInt 32 pid).slt 0 = false := by
        rw [BitVec.slt, fits]
        exact decide_eq_false (not_lt.mpr positive.le)
      have leaves : Call.fork.LeavesErr { retval := BitVec.ofInt 32 pid, errno := errno } :=
        .inr ⟨rfl, sign⟩
      rw [number]
      exact leaves.err stale
    have returned : (Call.ofNumber tf.v0).retval { retval := BitVec.ofInt 32 pid, errno := errno } =
        BitVec.ofInt 32 pid := by
      rw [number]
      rfl
    constructor
    · intro holds
      refine .inr ⟨refused, ?_⟩
      by_cases started : result = 0
      · rw [if_pos started] at holds
        cases holds with
        | forked table positive flag value =>
          obtain ⟨clear, _, here⟩ | ⟨_, error, _⟩ :=
            syscall_a3 tf { retval := BitVec.ofInt 32 pid, errno := errno } stale
          · rw [here, returned, fits] at value
            rw [← value] at positive
            rw [positive_err positive] at clear
            exact ⟨started, clear, positive⟩
          · rw [error] at flag
            simp at flag
      · rw [if_neg started] at holds
        cases holds with
        | failed table => exact absurd table (ProcTable.add_ne t _)
    · rintro (⟨full, _⟩ | ⟨_, started, clear, positive⟩)
      · exact absurd full refused
      · rw [if_pos started]
        obtain ⟨_, flag, value⟩ | ⟨wrong, _⟩ :=
          syscall_a3 tf { retval := BitVec.ofInt 32 pid, errno := errno } stale
        · exact .forked rfl positive flag (by rw [value, returned, fits]) rfl rfl rfl
        · rw [positive_err positive] at wrong
          exact absurd clear wrong

/-- The table while the menu's first program runs. -/
def menuTable : ProcTable := bootTable.add ⟨1, 3⟩

/-- Without a stale error the first fork returns pid 4 to the parent. -/
theorem fork_all_or_nothing_menuTable :
    Call.ofNumber (callFrame 0).v0 = .fork ∧
      AllOrNothing menuTable (callFrame 0) (syscall (callFrame 0) ⟨4, 0⟩ 0)
        (menuTable.add ⟨2, 4⟩) (some (enterForkedProcess (callFrame 0))) :=
  ⟨rfl, (fork_all_or_nothing_iff menuTable rfl 2 0 0 0 0).mpr
    (.inr ⟨by decide, rfl, rfl, .inl fun full => full 4 (by decide) (by decide) rfl⟩)⟩

/-- A stale error, a missing thread and a refused fork all go wrong. -/
theorem fork_not_all_or_nothing :
    (syscall (callFrame 0) (sysFork menuTable (callFrame 0) 2 0 0 0).reply 5).a3 = 1 ∧
      (sysFork menuTable (callFrame 0) 2 0 0 0).child ≠ none ∧
      (syscall (callFrame 0) (sysFork menuTable (callFrame 0) 2 0 0 eNoMem).reply 0).a3 = 0 ∧
      (sysFork menuTable (callFrame 0) 2 0 0 eNoMem).child = none ∧
      (syscall (callFrame 0) (sysFork (populated 32765) (callFrame 0) 32765 0 0 0).reply 0).a3 = 0 ∧
      (syscall (callFrame 0) (sysFork (populated 32765) (callFrame 0) 32765 0 0 0).reply 0).v0 = 0 := by
  have full : (populated 32765).procarr.length = pidMax - pidMin := by
    rw [populated_length]
    rfl
  rw [sysFork_refused full]
  exact ⟨rfl, by decide, rfl, rfl, rfl, rfl⟩

end Os161.Syscall
