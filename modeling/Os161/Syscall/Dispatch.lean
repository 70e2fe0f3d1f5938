import Os161.Base

namespace Os161.Syscall
open Word

/-- `struct trapframe` -/
structure Trapframe where
  vaddr : Word32
  status : Word32
  cause : Word32
  lo : Word32
  hi : Word32
  ra : Word32
  at' : Word32
  v0 : Word32
  v1 : Word32
  a0 : Word32
  a1 : Word32
  a2 : Word32
  a3 : Word32
  t0 : Word32
  t1 : Word32
  t2 : Word32
  t3 : Word32
  t4 : Word32
  t5 : Word32
  t6 : Word32
  t7 : Word32
  s0 : Word32
  s1 : Word32
  s2 : Word32
  s3 : Word32
  s4 : Word32
  s5 : Word32
  s6 : Word32
  s7 : Word32
  t8 : Word32
  t9 : Word32
  k0 : Word32
  k1 : Word32
  gp : Word32
  sp : Word32
  s8 : Word32
  epc : Word32
deriving DecidableEq, Repr

/-- The cases of the switch in `syscall`. -/
inductive Call where
  | reboot
  | time
  | open
  | close
  | read
  | write
  | fork
  | waitpid
  | getpid
  | exit
  | execv
  | unknown
deriving DecidableEq, Repr

/-- The call numbers. -/
def Call.ofNumber (callno : Word32) : Call :=
  match callno.toNat with
  | 0 => .fork
  | 2 => .execv
  | 3 => .exit
  | 4 => .waitpid
  | 5 => .getpid
  | 45 => .open
  | 49 => .close
  | 50 => .read
  | 55 => .write
  | 113 => .time
  | 119 => .reboot
  | _ => .unknown

/-- What a handler returns, with the value of the global `errno` at this time. -/
structure Reply where
  retval : Word32
  errno : Word32
deriving DecidableEq, Repr

/-- The branches that look at the sign of what the handler returns. -/
def Call.signed : Call → Bool
  | .open | .close | .read | .write | .fork | .waitpid | .execv => true
  | .reboot | .time | .getpid | .exit | .unknown => false

/-- `err` after the switch. Most branches assign it only to a negative result. -/
def Call.err (call : Call) (reply : Reply) (stale : Word32) : Word32 :=
  match call with
  | .reboot => reply.retval
  | .time => reply.retval
  | .getpid => stale
  | .exit => stale
  | .unknown => BitVec.ofNat 32 eNoSys
  | .open | .close | .read | .write | .fork | .waitpid | .execv =>
    if reply.retval.slt 0 then reply.errno else stale

/-- `retval` after the switch. -/
def Call.retval (call : Call) (reply : Reply) : Word32 :=
  match call with
  | .reboot | .time | .exit | .unknown => 0
  | .open | .close | .read | .write | .fork | .waitpid | .getpid | .execv => reply.retval

/-- `syscall` when its handler returns. The local `err` is not initialised and holds a stale value. -/
def syscall (tf : Trapframe) (reply : Reply) (stale : Word32) : Trapframe :=
  let call := Call.ofNumber tf.v0
  let err := call.err reply stale
  if err ≠ 0 then { tf with v0 := err, a3 := 1, epc := tf.epc + 4 }
  else { tf with v0 := call.retval reply, a3 := 0, epc := tf.epc + 4 }

/-- What became of the operation. -/
inductive CallOutcome where
  | success (result : Word32)
  | failure (code : Word32)
deriving DecidableEq, Repr

/-- The error number of an outcome, zero for success. -/
def CallOutcome.errno : CallOutcome → Word32
  | .success _ => 0
  | .failure code => code

/-- How the handlers report what became of the operation. `sys__exit` and a successful `sys_execv` and
`sys_reboot` do not return. -/
inductive Reports : Call → CallOutcome → Reply → Prop where
  /-- The handler returns the error number. -/
  | code (returned : call = .reboot ∨ call = .time) (error : code ≠ 0) :
      Reports call (.failure code) { retval := code, errno := errno }
  | time : Reports .time (.success 0) { retval := 0, errno := errno }
  /-- The handler returns a handle, a count or a pid. -/
  | value {call : Call} {result errno : Word32}
      (returned : call = .getpid ∨ call.signed = true ∧ call ≠ .execv) (nonnegative : result.slt 0 = false) :
      Reports call (.success result) { retval := result, errno := errno }
  /-- The handler sets `errno` and returns -1. -/
  | minusOne {call : Call} {code : Word32} (returned : call.signed = true ∧ call ≠ .fork)
      (error : code ≠ 0) : Reports call (.failure code) { retval := -1, errno := code }
  /-- `sys_execv` returns the error number of `copyinstr`, `vfs_open`, `as_create` or `load_elf`. -/
  | execv (error : code ≠ 0) (nonnegative : code.slt 0 = false) :
      Reports .execv (.failure code) { retval := code, errno := errno }
  /-- `sys_fork` sets `errno` and returns 0 when the process table is full. -/
  | refused : Reports .fork (.failure (BitVec.ofNat 32 eMproc))
      { retval := 0, errno := BitVec.ofNat 32 eMproc }
  | unknown : Reports .unknown (.failure (BitVec.ofNat 32 eNoSys)) reply

/-- The frame with which the system call has to return. -/
def CallOutcome.frame (tf : Trapframe) : CallOutcome → Trapframe
  | .success result => { tf with v0 := result, a3 := 0, epc := tf.epc + 4 }
  | .failure code => { tf with v0 := code, a3 := 1, epc := tf.epc + 4 }

/-- The branch of the call assigns no `err`. -/
def Call.LeavesErr (call : Call) (reply : Reply) : Prop :=
  call = .getpid ∨ call.signed = true ∧ reply.retval.slt 0 = false

theorem Call.err_signed {call : Call} (signed : call.signed = true) (reply : Reply)
    (stale : Word32) :
    call.err reply stale = if reply.retval.slt 0 then reply.errno else stale := by
  cases call <;> first | rfl | cases signed

theorem Call.retval_signed {call : Call} (signed : call.signed = true) (reply : Reply) :
    call.retval reply = reply.retval := by
  cases call <;> first | rfl | cases signed

theorem Call.LeavesErr.err {call : Call} (leaves : call.LeavesErr reply) (stale : Word32) :
    call.err reply stale = stale := by
  obtain rfl | ⟨signed, nonnegative⟩ := leaves
  · rfl
  · rw [Call.err_signed signed, nonnegative]
    rfl

theorem Reports.err (reports : Reports call outcome reply) (assigned : ¬ call.LeavesErr reply)
    (stale : Word32) : call.err reply stale = outcome.errno := by
  cases reports with
  | code ran error => rcases ran with rfl | rfl <;> rfl
  | time => rfl
  | value ran nonnegative =>
    exact absurd (ran.imp_right fun branch => ⟨branch.1, nonnegative⟩) assigned
  | minusOne ran error =>
    rw [Call.err_signed ran.1]
    rfl
  | execv error nonnegative => exact absurd (.inr ⟨rfl, nonnegative⟩) assigned
  | refused => exact absurd (.inr ⟨rfl, rfl⟩) assigned
  | unknown => rfl

theorem Reports.retval (reports : Reports call (.success res) reply) : call.retval reply = res := by
  cases reports with
  | time => rfl
  | value ran nonnegative =>
    obtain rfl | ⟨signed, _⟩ := ran
    · rfl
    · exact Call.retval_signed signed _

theorem Reports.error {call : Call} {code : Word32} {reply : Reply}
    (reports : Reports call (.failure code) reply) : code ≠ 0 := by
  cases reports with
  | code ran error => exact error
  | minusOne ran error => exact error
  | execv error nonnegative => exact error
  | refused => decide
  | unknown => decide

theorem Reports.frame_iff {tf : Trapframe} {outcome : CallOutcome} {reply : Reply}
    (reports : Reports (Call.ofNumber tf.v0) outcome reply) (stale : Word32) :
    syscall tf reply stale = outcome.frame tf ↔
      (Call.ofNumber tf.v0).err reply stale = outcome.errno := by
  unfold syscall
  dsimp only
  cases outcome with
  | success res =>
    rw [reports.retval]
    split
    · rename_i wrong
      refine iff_of_false ?_ wrong
      intro same
      have flag : (1 : Word32) = 0 := congrArg Trapframe.a3 same
      simp at flag
    · rename_i clear
      exact iff_of_true rfl (not_not.mp clear)
  | failure code =>
    split
    · constructor
      · exact fun same => congrArg Trapframe.v0 same
      · intro same
        rw [same]
        rfl
    · rename_i clear
      have missed : (Call.ofNumber tf.v0).err reply stale ≠ code := by
        rw [not_not.mp clear]
        exact reports.error.symm
      refine iff_of_false ?_ missed
      intro same
      have flag : (0 : Word32) = 1 := congrArg Trapframe.a3 same
      simp at flag

/-- The convention holds exactly when `err` is assigned or happens to be right. -/
theorem syscall_convention_iff {tf : Trapframe} {outcome : CallOutcome} {reply : Reply}
    (reports : Reports (Call.ofNumber tf.v0) outcome reply) (stale : Word32) :
    syscall tf reply stale = outcome.frame tf ↔
      ((Call.ofNumber tf.v0).LeavesErr reply → stale = outcome.errno) := by
  rw [reports.frame_iff]
  by_cases leaves : (Call.ofNumber tf.v0).LeavesErr reply
  · rw [leaves.err]
    exact ⟨fun right _ => right, fun right => right leaves⟩
  · exact iff_of_true (reports.err leaves stale) fun assigned => absurd assigned leaves

/-- A frame for a call without arguments. -/
def callFrame (callno : Word32) : Trapframe :=
  { vaddr := 0, status := 0, cause := 0, lo := 0, hi := 0, ra := 0, at' := 0, v0 := callno, v1 := 0
    a0 := 0, a1 := 0, a2 := 0, a3 := 0, t0 := 0, t1 := 0, t2 := 0, t3 := 0, t4 := 0, t5 := 0, t6 := 0
    t7 := 0, s0 := 0, s1 := 0, s2 := 0, s3 := 0, s4 := 0, s5 := 0, s6 := 0, s7 := 0, t8 := 0, t9 := 0
    k0 := 0, k1 := 0, gp := 0, sp := 0, s8 := 0, epc := 0x400000 }

/-- A failed `close` is reported whatever `err` held before. -/
theorem syscall_convention_close :
    Reports (Call.ofNumber 49) (.failure 30) ⟨-1, 30⟩ ∧ ∀ stale,
      syscall (callFrame 49) ⟨-1, 30⟩ stale = (CallOutcome.failure 30).frame (callFrame 49) := by
  have reports : Reports (Call.ofNumber (callFrame 49).v0) (.failure 30) ⟨-1, 30⟩ :=
    .minusOne (by decide) (by decide)
  have assigned : ¬ (Call.ofNumber (callFrame 49).v0).LeavesErr ⟨-1, 30⟩ := by
    unfold Call.LeavesErr
    decide
  exact ⟨reports, fun stale =>
    (syscall_convention_iff reports stale).mpr fun leaves => absurd leaves assigned⟩

/-- A success is reported as an error, and an error as a success. -/
theorem syscall_convention_broken :
    Reports (Call.ofNumber 5) (.success 4) ⟨4, 0⟩ ∧
      (syscall (callFrame 5) ⟨4, 0⟩ 5).a3 = 1 ∧ (syscall (callFrame 5) ⟨4, 0⟩ 5).v0 = 5 ∧
      Reports (Call.ofNumber 2) (.failure 19) ⟨19, 0⟩ ∧
      (syscall (callFrame 2) ⟨19, 0⟩ 0).a3 = 0 ∧ (syscall (callFrame 2) ⟨19, 0⟩ 0).v0 = 19 :=
  ⟨.value (by decide) (by decide), rfl, rfl, .execv (by decide) (by decide), rfl, rfl⟩

end Os161.Syscall
