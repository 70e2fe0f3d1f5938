import Os161.Lib.Transition
import Mathlib.Logic.Function.Basic

namespace Os161.Process
open Transition Function

/-- Where a process is in `sys_waitpid`, by what it does next. -/
inductive WaiterPc where
  -- `p = find_proc(pid)`
  | lookup
  -- `lock_acquire(p->p_lk)`
  | acquire
  -- the test `find_proc(pid) != NULL` of the loop
  | test
  -- `wchan_lock` in `cv_wait`
  | enter
  -- `lock_release` in `cv_wait`
  | leave
  -- `wchan_sleep` in `cv_wait`
  | sleep
  | asleep
  -- `lock_acquire` in `cv_wait`
  | reacquire
  -- `lock_release(p->p_lk)` behind the loop
  | release
  | done
deriving DecidableEq, Repr

/-- Where the exiting process is in `sys__exit`, by what it has done. -/
inductive ExiterPc where
  | running
  -- The exit code is in its record.
  | recorded
  -- The process has left `procarr`.
  | removed
  -- `cv_broadcast` has returned.
  | broadcast
deriving DecidableEq, Repr

/-- One exiting process and the processes that wait for its pid: where they are, the holder of `p_lk`
and the holder of the spinlock of the wait channel in `p_cv`. -/
structure RaceState where
  waiters : Nat → WaiterPc
  exiter : ExiterPc
  lock : Option Nat
  channel : Option Nat

/-- `find_proc(pid)` finds the exiting process. -/
def RaceState.alive (s : RaceState) : Bool :=
  s.exiter = .running ∨ s.exiter = .recorded

def RaceState.move (s : RaceState) (waiter : Nat) (pc : WaiterPc) : RaceState :=
  { s with waiters := update s.waiters waiter pc }

inductive RaceOp where
  | waiter (id : Nat)
  | exiter
deriving DecidableEq, Repr

/-- One step of one process. The exiting process does not take `p_lk`. -/
inductive RaceStep : RaceState → RaceOp → RaceState → Prop where
  | lookup {s : RaceState} {id : Nat} (here : s.waiters id = .lookup) :
      RaceStep s (.waiter id) (s.move id (if s.alive then .acquire else .done))
  | acquire {s : RaceState} {id : Nat}
      (here : s.waiters id = .acquire ∨ s.waiters id = .reacquire) (free : s.lock = none) :
      RaceStep s (.waiter id) { s.move id .test with lock := some id }
  | test {s : RaceState} {id : Nat} (here : s.waiters id = .test) :
      RaceStep s (.waiter id) (s.move id (if s.alive then .enter else .release))
  | enter {s : RaceState} {id : Nat} (here : s.waiters id = .enter) (free : s.channel = none) :
      RaceStep s (.waiter id) { s.move id .leave with channel := some id }
  | leave {s : RaceState} {id : Nat} (here : s.waiters id = .leave) :
      RaceStep s (.waiter id) { s.move id .sleep with lock := none }
  -- `thread_switch` unlocks the channel when the thread is on its list
  | sleep {s : RaceState} {id : Nat} (here : s.waiters id = .sleep) :
      RaceStep s (.waiter id) { s.move id .asleep with channel := none }
  | release {s : RaceState} {id : Nat} (here : s.waiters id = .release) :
      RaceStep s (.waiter id) { s.move id .done with lock := none }
  | record {s : RaceState} (here : s.exiter = .running) :
      RaceStep s .exiter { s with exiter := .recorded }
  | remove {s : RaceState} (here : s.exiter = .recorded) :
      RaceStep s .exiter { s with exiter := .removed }
  -- `wchan_wakeall` needs the channel and empties its list
  | broadcast {s : RaceState} (here : s.exiter = .removed) (free : s.channel = none) :
      RaceStep s .exiter
        { s with
          exiter := .broadcast
          waiters := fun id => if s.waiters id = .asleep then .reacquire else s.waiters id }

/-- Every waiter is at the start of `sys_waitpid` and the process has not called `_exit`. -/
def RaceState.start : RaceState where
  waiters := fun _ => .lookup
  exiter := .running
  lock := none
  channel := none

/-- A waiter between `wchan_lock` and `wchan_sleep` holds the channel. -/
def RaceState.Held (s : RaceState) : Prop :=
  ∀ id, s.waiters id = .leave ∨ s.waiters id = .sleep → s.channel = some id

/-- The waiter sleeps or goes to sleep without another test. -/
def WaiterPc.Committed (pc : WaiterPc) : Prop :=
  pc = .enter ∨ pc = .leave ∨ pc = .sleep ∨ pc = .asleep

/-- The process has made its broadcast and no waiter is on the way to sleep. -/
structure RaceState.Settled (s : RaceState) : Prop where
  exited : s.exiter = .broadcast
  awake : ∀ id, ¬ (s.waiters id).Committed

theorem RaceState.move_cases (s : RaceState) (moved : Nat) (pc : WaiterPc) (id : Nat) :
    (id = moved ∧ (s.move moved pc).waiters id = pc) ∨
      (id ≠ moved ∧ (s.move moved pc).waiters id = s.waiters id) := by
  by_cases same : id = moved
  · exact .inl ⟨same, same ▸ update_self ..⟩
  · exact .inr ⟨same, update_of_ne same ..⟩

theorem RaceState.Held.move {s : RaceState} (held : s.Held) (out : pc ≠ .leave ∧ pc ≠ .sleep) :
    (s.move moved pc).Held := by
  intro id inside
  obtain ⟨_, there⟩ | ⟨_, there⟩ := s.move_cases moved pc id
  · rw [there] at inside
    exact absurd inside (not_or.mpr out)
  · rw [there] at inside
    exact held id inside

theorem RaceStep.held (step : RaceStep s op t) (held : s.Held) : t.Held := by
  cases step with
  | lookup here | test here =>
    refine held.move ?_
    split <;> simp
  | @acquire id here free =>
    have moved : (s.move id .test).Held := held.move (by simp)
    exact moved
  | @enter moved here free =>
    intro id inside
    obtain ⟨same, _⟩ | ⟨_, there⟩ := s.move_cases moved .leave id
    · exact congrArg some same.symm
    · rw [there] at inside
      rw [held id inside] at free
      cases free
  | @leave moved here =>
    intro id inside
    obtain ⟨same, _⟩ | ⟨_, there⟩ := s.move_cases moved .sleep id
    · exact same ▸ held moved (.inl here)
    · rw [there] at inside
      exact held id inside
  | @sleep moved here =>
    intro id inside
    obtain ⟨_, there⟩ | ⟨differ, there⟩ := s.move_cases moved .asleep id
    · rw [there] at inside
      simp at inside
    · rw [there] at inside
      have mine := held moved (.inr here)
      rw [held id inside] at mine
      exact absurd (Option.some.inj mine) differ
  | @release id here =>
    have moved : (s.move id .done).Held := held.move (by simp)
    exact moved
  | record | remove => exact held
  | broadcast here free =>
    intro id inside
    refine held id ?_
    dsimp only at inside
    split at inside
    · simp at inside
    · exact inside

theorem RaceState.Settled.move {s : RaceState} (settled : s.Settled) {pc : WaiterPc}
    (awake : ¬ pc.Committed) : (s.move moved pc).Settled := by
  refine ⟨settled.exited, ?_⟩
  intro id
  obtain ⟨_, there⟩ | ⟨_, there⟩ := s.move_cases moved pc id
  · rw [there]
    exact awake
  · rw [there]
    exact settled.awake id

theorem RaceStep.settled (step : RaceStep s op t) (settled : s.Settled) : t.Settled := by
  have gone : s.alive = false := by simp [RaceState.alive, settled.exited]
  cases step with
  | lookup here | test here =>
    rw [gone]
    exact settled.move (by simp [WaiterPc.Committed])
  | @acquire id here free =>
    have moved : (s.move id .test).Settled := settled.move (by simp [WaiterPc.Committed])
    exact ⟨moved.exited, moved.awake⟩
  | @enter moved here free => exact absurd (.inl here) (settled.awake moved)
  | @leave moved here => exact absurd (.inr (.inl here)) (settled.awake moved)
  | @sleep moved here => exact absurd (.inr (.inr (.inl here))) (settled.awake moved)
  | @release id here =>
    have moved : (s.move id .done).Settled := settled.move (by simp [WaiterPc.Committed])
    exact ⟨moved.exited, moved.awake⟩
  | record here | remove here | broadcast here free => exact absurd (settled.exited.symm.trans here) nofun

theorem not_enter_of_awake (awake : ∀ more u, Run RaceStep s more u → ∀ id, u.waiters id ≠ .asleep)
    (free : s.channel = none) (id : Nat) : s.waiters id ≠ .enter := by
  intro here
  have self (state : RaceState) (pc : WaiterPc) : (state.move id pc).waiters id = pc :=
    update_self ..
  have run : Run RaceStep s [.waiter id, .waiter id, .waiter id] _ :=
    .cons (.enter here free) (.cons (.leave (self _ _)) (.single (.sleep (self _ _))))
  exact awake _ _ run id (self _ _)

/-- No notification is lost exactly when no waiter is about to sleep. -/
theorem exit_notification_kept_iff {s t : RaceState} {ops : List RaceOp}
    (reached : Run RaceStep RaceState.start ops s) (last : s.exiter = .removed)
    (broadcast : RaceStep s .exiter t) :
    (∀ more u, Run RaceStep t more u → ∀ id, u.waiters id ≠ .asleep) ↔
      ∀ id, s.waiters id ≠ .enter := by
  have held : s.Held := reached.invariant
    (fun (state : RaceState) _ _ (before : state.Held) step => step.held before)
    (fun id inside => by simp [RaceState.start] at inside)
  cases broadcast with
  | record here | remove here => exact absurd (last.symm.trans here) nofun
  | broadcast here free =>
    constructor
    · intro kept id waiting
      have still : (if s.waiters id = .asleep then .reacquire else s.waiters id) =
          WaiterPc.enter := by
        rw [waiting]
        rfl
      exact not_enter_of_awake kept free id still
    · intro tested more u run id asleep
      have settled : u.Settled := by
        refine run.invariant
          (fun (state : RaceState) _ _ (before : state.Settled) step => step.settled before)
          ⟨rfl, ?_⟩
        intro other committed
        dsimp only at committed
        split at committed
        · simp [WaiterPc.Committed] at committed
        · rename_i sleepless
          rcases committed with entering | leaving | sleeping | sleeper
          · exact tested other entering
          · rw [held other (.inl leaving)] at free
            cases free
          · rw [held other (.inr sleeping)] at free
            cases free
          · exact sleepless sleeper
      exact settled.awake id (.inr (.inr (.inr asleep)))

/-- A waiter sleeps before the broadcast, which wakes it for good. -/
theorem exit_notification_kept_asleep : ∃ s t,
    Run RaceStep RaceState.start [.waiter 0, .waiter 0, .waiter 0, .waiter 0, .waiter 0, .waiter 0,
      .exiter, .exiter] s ∧ s.waiters 0 = .asleep ∧ RaceStep s .exiter t ∧
    ∀ more u, Run RaceStep t more u → ∀ id, u.waiters id ≠ .asleep := by
  have reached : Run RaceStep RaceState.start [.waiter 0, .waiter 0, .waiter 0, .waiter 0, .waiter 0,
      .waiter 0, .exiter, .exiter] _ :=
    .cons (.lookup rfl) (.cons (.acquire (.inl rfl) rfl) (.cons (.test rfl) (.cons (.enter rfl rfl)
      (.cons (.leave rfl) (.cons (.sleep rfl) (.cons (.record rfl) (.single (.remove rfl))))))))
  refine ⟨_, _, reached, rfl, .broadcast rfl rfl,
    (exit_notification_kept_iff reached rfl (.broadcast rfl rfl)).mpr fun id => ?_⟩
  by_cases first : id = 0
  · simp [first, RaceState.move]
  · simp [first, RaceState.move, RaceState.start]

/-- A waiter tests the table before the exit and sleeps after the broadcast. -/
theorem exit_notification_lost :
    ∃ t, Run RaceStep RaceState.start
        [.waiter 0, .waiter 0, .waiter 0, .exiter, .exiter, .exiter,
          .waiter 0, .waiter 0, .waiter 0] t ∧
      t.exiter = .broadcast ∧ t.waiters 0 = .asleep :=
  ⟨_, .cons (.lookup rfl) (.cons (.acquire (.inl rfl) rfl) (.cons (.test rfl)
    (.cons (.record rfl) (.cons (.remove rfl) (.cons (.broadcast rfl rfl)
      (.cons (.enter rfl rfl) (.cons (.leave rfl) (.single (.sleep rfl))))))))), rfl, rfl⟩

end Os161.Process
