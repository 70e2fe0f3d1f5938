import Os161.Threads.Lock

namespace Os161.Threads
open Monitor Roster Transition Function List

/-- Where a thread is in the operations on a condition variable, by what it does next. -/
inductive CvPc (T : Type) where
  /-- outside of the three operations -/
  | run
  /-- `wchan_lock` in `cv_wait` -/
  | wait
  /-- `lock_release` in `cv_wait`, with the channel locked -/
  | release
  /-- `wchan_sleep` in `cv_wait` -/
  | doze
  | asleep
  /-- has left the list and waits to be made runnable -/
  | dequeued
  | woken
  /-- `lock_acquire` in `cv_wait` -/
  | acquire
  /-- `wchan_wakeone` in `cv_signal` -/
  | signal
  /-- `wchan_wakeall` in `cv_broadcast` -/
  | broadcast
  /-- makes the threads runnable that it has taken from the list -/
  | rouse (targets : List T)
deriving DecidableEq

/-- The thread holds the lock of the channel in `cv_wchan`. -/
def CvPc.links {T : Type} : CvPc T → Bool
  | .release | .doze => true
  | _ => false

/-- The thread is on the list of the channel. -/
def CvPc.sleeps {T : Type} : CvPc T → Bool
  | .asleep => true
  | _ => false

/-- The thread is in `cv_signal` or `cv_broadcast`. -/
def CvPc.wakes {T : Type} : CvPc T → Bool
  | .signal | .broadcast | .rouse _ => true
  | _ => false

/-- A condition variable and its lock. -/
structure CvState (T : Type) where
  lock : State (Option T) T
  channel : Option T
  queue : List T
  pc : T → CvPc T

inductive CvAct (T : Type) where
  | wait (t : T)
  | signal (t : T)
  | broadcast (t : T)
  /-- a step on the lock, in `cv_wait` or outside -/
  | lock (act : Act T)
  | step (t : T)

variable {T : Type} [DecidableEq T]

def CvState.move (s : CvState T) (t : T) (pc : CvPc T) : CvState T :=
  { s with pc := update s.pc t pc }

/-- A thread uses the lock outside of the three operations, and continues `lock_release` and
`lock_acquire` in `cv_wait`. -/
def CvState.UsesLock (s : CvState T) : Act T → Prop
  | .enter t => s.pc t = .run
  | .leave t => s.pc t = .run
  | .step t => s.pc t = .run ∨ s.pc t = .release ∨ s.pc t = .acquire

/-- The thread calls an operation on the condition variable with the lock held. -/
structure CvState.Calls (s : CvState T) (t : T) : Prop where
  run : s.pc t = .run
  idle : s.lock.pc t = .idle
  held : s.lock.balance t = 1

/-- `wchan_wakeall` takes every thread from the list. -/
def CvState.dequeueAll (s : CvState T) : CvState T :=
  { s with pc := fun t => if s.pc t = .asleep then .dequeued else s.pc t, queue := [] }

/-- One step of one thread. -/
inductive CvStep : CvState T → CvAct T → CvState T → Prop where
  | lock {s : CvState T} {act : Act T} {lock : State (Option T) T} (uses : s.UsesLock act)
      (step : LockStep s.lock act lock) : CvStep s (.lock act) { s with lock := lock }
  | wait {s : CvState T} {t : T} (calls : s.Calls t) : CvStep s (.wait t) (s.move t .wait)
  | signal {s : CvState T} {t : T} (calls : s.Calls t) : CvStep s (.signal t) (s.move t .signal)
  | broadcast {s : CvState T} {t : T} (calls : s.Calls t) :
      CvStep s (.broadcast t) (s.move t .broadcast)
  -- `wchan_lock` and the call of `lock_release`
  | release {s : CvState T} {t : T} {lock : State (Option T) T} (here : s.pc t = .wait)
      (free : s.channel = none) (step : LockStep s.lock (.leave t) lock) :
      CvStep s (.step t) { s.move t .release with channel := some t, lock := lock }
  | released {s : CvState T} {t : T} (here : s.pc t = .release) (idle : s.lock.pc t = .idle) :
      CvStep s (.step t) (s.move t .doze)
  | doze {s : CvState T} {t : T} (here : s.pc t = .doze) :
      CvStep s (.step t) { s.move t .asleep with channel := none, queue := s.queue ++ [t] }
  | acquire {s : CvState T} {t : T} {lock : State (Option T) T} (here : s.pc t = .woken)
      (step : LockStep s.lock (.enter t) lock) :
      CvStep s (.step t) { s.move t .acquire with lock := lock }
  -- `lock_acquire` has returned and `cv_wait` returns
  | acquired {s : CvState T} {t : T} (here : s.pc t = .acquire) (idle : s.lock.pc t = .idle) :
      CvStep s (.step t) (s.move t .run)
  | wakeNone {s : CvState T} {t : T} (here : s.pc t = .signal) (free : s.channel = none)
      (empty : s.queue = []) : CvStep s (.step t) (s.move t .run)
  | wakeOne {s : CvState T} {t target : T} {rest : List T} (here : s.pc t = .signal)
      (free : s.channel = none) (first : s.queue = target :: rest) :
      CvStep s (.step t) { (s.move target .dequeued).move t (.rouse [target]) with queue := rest }
  | wakeAll {s : CvState T} {t : T} (here : s.pc t = .broadcast) (free : s.channel = none) :
      CvStep s (.step t) (s.dequeueAll.move t (.rouse s.queue))
  | rouse {s : CvState T} {t target : T} {rest : List T} (here : s.pc t = .rouse (target :: rest)) :
      CvStep s (.step t) ((s.move t (.rouse rest)).move target .woken)
  | roused {s : CvState T} {t : T} (here : s.pc t = .rouse []) : CvStep s (.step t) (s.move t .run)

/-- The thread has given up the lock inside `cv_wait` and nobody has taken it from the channel. -/
def CvState.Waiting (s : CvState T) (t : T) : Prop :=
  (s.pc t = .release ∧ s.lock.balance t = 0) ∨ s.pc t = .doze ∨ s.pc t = .asleep

/-- Nobody uses the lock or the condition variable yet. -/
def CvState.start : CvState T where
  lock := State.start none
  channel := none
  queue := []
  pc := fun _ => .run

/-- The threads that are being made runnable have left the list. -/
def Roused (pc : T → CvPc T) : Prop :=
  ∀ t targets, pc t = .rouse targets → targets.Nodup ∧ ∀ u ∈ targets, pc u = .dequeued

/-- What holds of a condition variable and its lock in every state that the threads reach. -/
structure CvInv (s : CvState T) : Prop where
  lock : LockInv s.lock
  channel : Owned CvPc.links s.channel s.pc
  queue : Listed CvPc.sleeps s.queue s.pc
  roused : Roused s.pc
  wakers : ∀ t, (s.pc t).wakes = true → s.lock.balance t = 1
  releases : ∀ t, s.pc t = .release → (s.lock.pc t).enters = false
  acquires : ∀ t, s.pc t = .acquire → (s.lock.pc t).leaves = false ∧
    ((s.lock.pc t).enters = true ∨ s.lock.balance t = 1)

theorem cvInv_start : CvInv (CvState.start (T := T)) where
  lock := lockInv_start
  channel t := iff_of_false Bool.false_ne_true (by simp [CvState.start])
  queue := .empty fun _ => rfl
  roused := fun t targets here => by cases here
  wakers := fun t here => by cases here
  releases := fun t here => by cases here
  acquires := fun t here => by cases here

variable {t : T}

theorem Roused.move {pc : T → CvPc T} (roused : Roused pc) {place : CvPc T}
    (alone : pc t ≠ .dequeued ∨ ∀ waker targets, pc waker = .rouse targets → t ∉ targets)
    (wakes : ∀ targets, place = .rouse targets →
      targets.Nodup ∧ ∀ u ∈ targets, u ≠ t ∧ pc u = .dequeued) :
    Roused (update pc t place) := by
  intro waker targets there
  obtain ⟨rfl, same⟩ | ⟨_, same⟩ := update_cases pc t place waker
  · obtain ⟨once, dequeued⟩ := wakes targets (same.symm.trans there)
    refine ⟨once, fun u mem => ?_⟩
    rw [update_of_ne (dequeued u mem).1]
    exact (dequeued u mem).2
  · have waking := same.symm.trans there
    obtain ⟨once, dequeued⟩ := roused waker targets waking
    refine ⟨once, fun u mem => ?_⟩
    rw [update_of_ne]
    · exact dequeued u mem
    · rintro rfl
      obtain awake | nobody := alone
      · exact awake (dequeued u mem)
      · exact nobody waker targets waking mem

variable {s : CvState T}

theorem CvInv.lockStep (inv : CvInv s) {act : Act T} {lock : State (Option T) T}
    (steps : ∀ t, act = .step t → (s.pc t).wakes = false)
    (enters : ∀ t, act = .enter t → s.pc t ≠ .release)
    (leaves : ∀ t, act = .leave t → s.pc t ≠ .acquire) (step : LockStep s.lock act lock) :
    CvInv { s with lock := lock } where
  lock := step.inv inv.lock
  channel := inv.channel
  queue := inv.queue
  roused := inv.roused
  wakers := by
    intro t waking
    rw [← inv.wakers t waking]
    refine step.balance_of_ne fun acts => ?_
    rw [steps t acts] at waking
    cases waking
  releases := by
    intro t here
    exact step.not_enters inv.lock (fun acts => enters t acts here) (inv.releases t here)
  acquires := by
    intro t here
    obtain ⟨stays, run⟩ := inv.acquires t here
    exact ⟨step.not_leaves inv.lock (fun acts => leaves t acts here) stays, step.acquires inv.lock stays run⟩

theorem CvInv.place (inv : CvInv s) {pc : CvPc T} {channel : Option T} {queue : List T}
    (owned : Owned CvPc.links channel (update s.pc t pc))
    (listed : Listed CvPc.sleeps queue (update s.pc t pc))
    (roused : Roused (update s.pc t pc)) (wakes : pc.wakes = true → s.lock.balance t = 1)
    (releases : pc = .release → (s.lock.pc t).enters = false)
    (acquires : pc = .acquire → (s.lock.pc t).leaves = false ∧
      ((s.lock.pc t).enters = true ∨ s.lock.balance t = 1)) :
    CvInv { s.move t pc with channel := channel, queue := queue } where
  lock := inv.lock
  channel := owned
  queue := listed
  roused := roused
  wakers := by
    intro u waking
    obtain ⟨rfl, there⟩ | ⟨_, there⟩ := update_cases s.pc t pc u
    · exact wakes (there ▸ waking)
    · exact inv.wakers u (there ▸ waking)
  releases := by
    intro u here
    obtain ⟨rfl, there⟩ | ⟨_, there⟩ := update_cases s.pc t pc u
    · exact releases (there.symm.trans here)
    · exact inv.releases u (there.symm.trans here)
  acquires := by
    intro u here
    obtain ⟨rfl, there⟩ | ⟨_, there⟩ := update_cases s.pc t pc u
    · exact acquires (there.symm.trans here)
    · exact inv.acquires u (there.symm.trans here)

theorem CvInv.move (inv : CvInv s) {pc : CvPc T} (links : pc.links = (s.pc t).links)
    (sleeps : pc.sleeps = (s.pc t).sleeps) (roused : Roused (update s.pc t pc))
    (wakes : pc.wakes = true → s.lock.balance t = 1) (out : pc ≠ .release ∧ pc ≠ .acquire) :
    CvInv (s.move t pc) :=
  inv.place (inv.channel.keep links) (inv.queue.keep sleeps) roused wakes
    (fun releasing => absurd releasing out.1) (fun acquiring => absurd acquiring out.2)

theorem CvState.dequeueAll_cases (s : CvState T) (t : T) :
    (s.pc t = .asleep ∧ s.dequeueAll.pc t = .dequeued) ∨
      (s.pc t ≠ .asleep ∧ s.dequeueAll.pc t = s.pc t) := by
  by_cases sleeping : s.pc t = .asleep
  · exact .inl ⟨sleeping, if_pos sleeping⟩
  · exact .inr ⟨sleeping, if_neg sleeping⟩

theorem CvState.dequeueAll_before {s : CvState T} {pc : CvPc T} (here : s.dequeueAll.pc t = pc)
    (other : pc ≠ .dequeued) : s.pc t = pc := by
  obtain ⟨_, after⟩ | ⟨_, after⟩ := s.dequeueAll_cases t
  · exact absurd (here.symm.trans after) other
  · exact after.symm.trans here

theorem CvInv.dequeueAll (inv : CvInv s) : CvInv s.dequeueAll where
  lock := inv.lock
  channel := by
    intro t
    have owned := inv.channel t
    obtain ⟨prev, after⟩ | ⟨_, after⟩ := s.dequeueAll_cases t
    · rw [prev] at owned
      rw [after]
      exact owned
    · rw [after]
      exact owned
  queue := by
    refine .empty fun t => ?_
    obtain ⟨_, after⟩ | ⟨awake, after⟩ := s.dequeueAll_cases t
    · rw [after]
      rfl
    · cases place : s.pc t <;> simp_all [CvPc.sleeps]
  roused := by
    intro t targets there
    obtain ⟨once, dequeued⟩ := inv.roused t targets (s.dequeueAll_before there nofun)
    refine ⟨once, fun u mem => ?_⟩
    obtain ⟨_, after⟩ | ⟨_, after⟩ := s.dequeueAll_cases u
    · exact after
    · exact after.trans (dequeued u mem)
  wakers := by
    intro t waking
    obtain ⟨_, after⟩ | ⟨_, after⟩ := s.dequeueAll_cases t
    · rw [after] at waking
      cases waking
    · exact inv.wakers t (after ▸ waking)
  releases t here := inv.releases t (s.dequeueAll_before here nofun)
  acquires t here := inv.acquires t (s.dequeueAll_before here nofun)

omit [DecidableEq T] in
theorem CvPc.not_of_wakes {pc : CvPc T} (wakes : pc.wakes = true) :
    pc.links = false ∧ pc.sleeps = false ∧ pc ≠ .dequeued := by
  cases pc <;> simp_all [CvPc.wakes, CvPc.links, CvPc.sleeps]

theorem CvInv.rouses (inv : CvInv s) (wakes : (s.pc t).wakes = true) {targets : List T}
    (once : targets.Nodup) (dequeued : ∀ u ∈ targets, s.pc u = .dequeued) :
    CvInv (s.move t (.rouse targets)) := by
  obtain ⟨links, sleeps, awake⟩ := CvPc.not_of_wakes wakes
  refine inv.move links.symm sleeps.symm (inv.roused.move (.inl awake) ?_) (fun _ => inv.wakers t wakes)
    (by simp)
  rintro _ ⟨⟩
  refine ⟨once, fun u mem => ⟨?_, dequeued u mem⟩⟩
  rintro rfl
  exact awake (dequeued u mem)

theorem CvInv.asleep (inv : CvInv s) (member : t ∈ s.queue) : s.pc t = .asleep := by
  have marked := (inv.queue.mem t).mp member
  cases place : s.pc t <;> simp_all [CvPc.sleeps]

variable {next : CvState T}

theorem CvStep.inv {act : CvAct T} (step : CvStep s act next) (inv : CvInv s) : CvInv next := by
  cases step with
  | @lock act lock uses step =>
    refine inv.lockStep ?_ ?_ ?_ step
    · rintro t rfl
      obtain here | here | here := uses
      all_goals
        rw [here]
        rfl
    · rintro t rfl
      rw [show s.pc t = .run from uses]
      simp
    · rintro t rfl
      rw [show s.pc t = .run from uses]
      simp
  | wait calls =>
    have run := calls.run
    refine inv.move ?_ ?_ (inv.roused.move (.inl ?_) ?_) ?_ ?_
    all_goals simp [run, CvPc.links, CvPc.sleeps, CvPc.wakes]
  | signal calls | broadcast calls =>
    have run := calls.run
    refine inv.move ?_ ?_ (inv.roused.move (.inl ?_) ?_) (fun _ => calls.held) ?_
    all_goals simp [run, CvPc.links, CvPc.sleeps]
  | @release t lock here free step =>
    have called : CvInv { s with lock := lock } :=
      inv.lockStep (by simp) (by simp) (by rintro _ ⟨⟩; simp [here]) step
    have channel := called.channel
    rw [free] at channel
    refine called.place (channel.acquire rfl) (called.queue.keep ?_)
      (called.roused.move (.inl ?_) (by simp)) (by simp [CvPc.wakes]) ?_ (by simp)
    · simp [here, CvPc.sleeps]
    · simp [here]
    · intro _
      cases step.step with
      | leave idle =>
        rw [State.move_self]
        rfl
  | released here idle | acquired here idle | wakeNone here free empty | roused here =>
    refine inv.move ?_ ?_ (inv.roused.move (.inl ?_) ?_) ?_ ?_
    all_goals simp [here, CvPc.links, CvPc.sleeps, CvPc.wakes]
  | @doze t here =>
    refine inv.place (inv.channel.release ?_ rfl) (inv.queue.join ?_ rfl)
      (inv.roused.move (.inl ?_) (by simp)) (by simp [CvPc.wakes]) (by simp) (by simp)
    all_goals simp [here, CvPc.links, CvPc.sleeps]
  | @acquire t lock here step =>
    have called : CvInv { s with lock := lock } :=
      inv.lockStep (by simp) (by rintro _ ⟨⟩; simp [here]) (by simp) step
    refine called.place (called.channel.keep ?_) (called.queue.keep ?_)
      (called.roused.move (.inl ?_) (by simp)) (by simp [CvPc.wakes]) (by simp) ?_
    · simp [here, CvPc.links]
    · simp [here, CvPc.sleeps]
    · simp [here]
    · intro _
      cases step.step with
      | enter idle =>
        rw [State.move_self]
        exact ⟨rfl, .inl rfl⟩
  | @wakeOne t target rest here free first =>
    have sleeping := inv.asleep (first ▸ mem_cons_self : target ∈ s.queue)
    have differ : target ≠ t := by
      rintro rfl
      rw [sleeping] at here
      cases here
    have queue := inv.queue.erase (t := target) (p := .dequeued) rfl
    rw [first, erase_cons_head] at queue
    have dequeued := inv.place (inv.channel.keep (by rw [sleeping]; rfl)) queue
      (inv.roused.move (.inl (by simp [sleeping])) (by simp)) (by simp [CvPc.wakes]) (by simp)
      (by simp)
    have waker : (s.move target .dequeued).pc t = .signal :=
      (update_of_ne differ.symm ..).trans here
    refine dequeued.rouses (congrArg CvPc.wakes waker) (nodup_singleton target) fun u mem => ?_
    obtain rfl := mem_singleton.mp mem
    exact update_self ..
  | @wakeAll t here free =>
    have waker : s.dequeueAll.pc t = .broadcast := by
      obtain ⟨sleeping, _⟩ | ⟨_, after⟩ := s.dequeueAll_cases t
      · cases here.symm.trans sleeping
      · exact after.trans here
    exact inv.dequeueAll.rouses (congrArg CvPc.wakes waker) inv.queue.once fun u mem =>
      if_pos (inv.asleep mem)
  | @rouse t target rest here =>
    obtain ⟨once, dequeued⟩ := inv.roused t (target :: rest) here
    obtain ⟨gone, once⟩ := nodup_cons.mp once
    have differ : target ≠ t := by
      rintro rfl
      cases here.symm.trans (dequeued target mem_cons_self)
    have wakes : (s.pc t).wakes = true := congrArg CvPc.wakes here
    have shorter : CvInv (s.move t (.rouse rest)) :=
      inv.rouses wakes once fun u mem => dequeued u (mem_cons_of_mem target mem)
    have still : (s.move t (.rouse rest)).pc target = .dequeued :=
      (update_of_ne differ ..).trans (dequeued target mem_cons_self)
    refine shorter.move ?_ ?_ (shorter.roused.move (.inr ?_) (by simp)) (by simp [CvPc.wakes])
      (by simp)
    · rw [still]
      rfl
    · rw [still]
      rfl
    · intro waker targets waking mem
      have both := shorter.wakers waker (by rw [waking]; rfl)
      have holder := inv.lock.held.balance_one.mp both
      rw [inv.lock.held.balance_one.mp (inv.wakers t wakes)] at holder
      obtain rfl := Option.some.inj holder
      have own : (s.move t (.rouse rest)).pc t = .rouse rest := update_self ..
      rw [own] at waking
      cases waking
      exact gone mem

omit [DecidableEq T] in
theorem CvState.Waiting.ne {s : CvState T} (waiting : s.Waiting w)
    (elsewhere : s.pc t ≠ .release ∧ s.pc t ≠ .doze ∧ s.pc t ≠ .asleep) : w ≠ t := by
  rintro rfl
  obtain ⟨here, _⟩ | here | here := waiting
  · exact elsewhere.1 here
  · exact elsewhere.2.1 here
  · exact elsewhere.2.2 here

omit [DecidableEq T] in
theorem CvState.Waiting.stay {s next : CvState T} (waiting : s.Waiting w) (same : next.pc w = s.pc w)
    (out : next.lock.balance w = s.lock.balance w) : next.Waiting w := by
  unfold CvState.Waiting
  rw [same, out]
  exact waiting

variable {w : T}

theorem CvState.Waiting.move (waiting : s.Waiting w) (other : w ≠ t) (pc : CvPc T) :
    (s.move t pc).Waiting w :=
  waiting.stay (update_of_ne other ..) rfl

theorem CvStep.waiting (step : CvStep s act next) (inv : CvInv s) (waiting : s.Waiting w) :
    next.Waiting w ∨ next.pc w = .dequeued := by
  cases step with
  | lock uses step =>
    obtain ⟨here, out⟩ | here := waiting
    · exact .inl (.inl ⟨here, step.stays_out inv.lock.held out (inv.releases w here)⟩)
    · exact .inl (.inr here)
  | wait calls | signal calls | broadcast calls =>
    exact .inl (waiting.move (waiting.ne (by simp [calls.run])) _)
  | @release t lock here free step | @acquire t lock here step =>
    have other := waiting.ne (t := t) (by simp [here])
    exact .inl (waiting.stay (update_of_ne other ..) (step.balance_of_ne (by simp)))
  | @released t here idle =>
    by_cases same : w = t
    · subst w
      exact .inl (.inr (.inl (update_self ..)))
    · exact .inl (waiting.move same _)
  | @doze t here =>
    by_cases same : w = t
    · subst w
      exact .inl (.inr (.inr (update_self ..)))
    · exact .inl (waiting.stay (update_of_ne same ..) rfl)
  | acquired here idle | wakeNone here free empty | roused here =>
    exact .inl (waiting.move (waiting.ne (by simp [here])) _)
  | @wakeOne t target rest here free first =>
    have other := waiting.ne (t := t) (by simp [here])
    by_cases same : w = target
    · subst w
      exact .inr ((update_of_ne other ..).trans (update_self ..))
    · refine .inl (waiting.stay ?_ rfl)
      exact (update_of_ne other ..).trans (update_of_ne same ..)
  | @wakeAll t here free =>
    have other := waiting.ne (t := t) (by simp [here])
    have moved : (s.dequeueAll.move t (.rouse s.queue)).pc w = s.dequeueAll.pc w :=
      update_of_ne other ..
    obtain ⟨_, after⟩ | ⟨_, after⟩ := s.dequeueAll_cases w
    · exact .inr (moved.trans after)
    · exact .inl (waiting.stay (moved.trans after) rfl)
  | @rouse t target rest here =>
    have other := waiting.ne (t := t) (by simp [here])
    have dequeued := (inv.roused t _ here).2 target mem_cons_self
    have awake := waiting.ne (t := target) (by simp [dequeued])
    exact .inl ((waiting.move other _).move awake _)

theorem CvInv.listed (inv : CvInv s) (free : s.channel = none) (waiting : s.Waiting w) :
    w ∈ s.queue := by
  have channel := inv.channel
  rw [free] at channel
  have unlinked := channel.free w
  obtain ⟨here, _⟩ | here | here := waiting
  · rw [here] at unlinked
    cases unlinked
  · rw [here] at unlinked
    cases unlinked
  · exact (inv.queue.mem w).mpr (by rw [here]; rfl)

theorem CvStep.of_broadcast (step : CvStep s (.step t) next) (here : s.pc t = .broadcast) :
    s.channel = none ∧ next = s.dequeueAll.move t (.rouse s.queue) := by
  cases step <;> simp_all

theorem CvStep.of_signal (step : CvStep s (.step t) next) (here : s.pc t = .signal) :
    s.channel = none ∧ ((s.queue = [] ∧ next = s.move t .run) ∨ ∃ target rest,
      s.queue = target :: rest ∧
        next = { (s.move target .dequeued).move t (.rouse [target]) with queue := rest }) := by
  cases step <;> simp_all

theorem CvStep.of_acquire (step : CvStep s (.step t) next) (here : s.pc t = .acquire) :
    s.lock.pc t = .idle ∧ next = s.move t .run := by
  cases step <;> simp_all

/-- Condition variables lose no signals, and `cv_wait` returns with the lock held. -/
theorem cv_keeps_signals {acts : List (CvAct T)} {s : CvState T}
    (reached : Run CvStep CvState.start acts s) :
    (∀ act next w, CvStep s act next → s.Waiting w → next.Waiting w ∨ next.pc w = .dequeued) ∧
      (∀ t next, CvStep s (.step t) next → s.pc t = .broadcast → next.queue = [] ∧ ∀ w,
        ¬ next.Waiting w ∧ (s.Waiting w → w ∈ s.queue ∧ next.pc w = .dequeued)) ∧
      (∀ t next, CvStep s (.step t) next → s.pc t = .signal → (∃ w, s.Waiting w) →
        ∃ u, s.queue = u :: next.queue ∧ s.Waiting u ∧ next.pc u = .dequeued) ∧
      ∀ t next, CvStep s (.step t) next → s.pc t = .acquire →
        next.pc t = .run ∧ next.lock.data = some t := by
  have inv : CvInv s := reached.invariant
    (fun (state : CvState T) _ _ (before : CvInv state) step => step.inv before) cvInv_start
  refine ⟨fun act next w step waiting => step.waiting inv waiting, ?_, ?_, ?_⟩
  · intro t next step here
    obtain ⟨free, rfl⟩ := step.of_broadcast here
    refine ⟨rfl, fun w => ?_⟩
    have taken (waiting : s.Waiting w) : w ∈ s.queue ∧
        (s.dequeueAll.move t (.rouse s.queue)).pc w = .dequeued := by
      have member := inv.listed free waiting
      have other := waiting.ne (t := t) (by simp [here])
      exact ⟨member, (update_of_ne other ..).trans (if_pos (inv.asleep member))⟩
    refine ⟨fun still => ?_, taken⟩
    exact absurd ((step.inv inv).listed free still) not_mem_nil
  · intro t next step here someone
    obtain ⟨free, ⟨empty, _⟩ | ⟨target, rest, first, rfl⟩⟩ := step.of_signal here
    · obtain ⟨w, waiting⟩ := someone
      have member := inv.listed free waiting
      rw [empty] at member
      cases member
    · have sleeping := inv.asleep (first ▸ mem_cons_self : target ∈ s.queue)
      have different : target ≠ t := by
        rintro rfl
        cases here.symm.trans sleeping
      exact ⟨target, first, .inr (.inr sleeping),
        (update_of_ne different ..).trans (update_self ..)⟩
  · intro t next step here
    obtain ⟨idle, rfl⟩ := step.of_acquire here
    obtain ⟨_, entering | held⟩ := inv.acquires t here
    · rw [idle] at entering
      cases entering
    · exact ⟨update_self .., inv.lock.held.balance_one.mp held⟩

/-- Thread 0 waits on the condition variable and thread 1 calls `cv_broadcast`. -/
def waitAndBroadcast : List (CvAct Nat) :=
  [.lock (.enter 0), .lock (.step 0), .lock (.step 0), .lock (.step 0), .lock (.step 0), .wait 0,
    .step 0, .lock (.step 0), .lock (.step 0), .lock (.step 0), .lock (.step 0), .lock (.step 0),
    .step 0, .step 0, .lock (.enter 1), .lock (.step 1), .lock (.step 1), .lock (.step 1),
    .lock (.step 1), .broadcast 1]

/-- The broadcast takes thread 0 from the list. -/
theorem cv_keeps_signals_broadcast :
    ∃ s next, Run CvStep CvState.start waitAndBroadcast s ∧ CvStep s (.step 1) next ∧
      s.Waiting 0 ∧ next.pc 0 = .dequeued := by
  have reached : Run CvStep CvState.start waitAndBroadcast _ :=
    .cons (.lock rfl ⟨.enter rfl, rfl⟩) (.cons (.lock (.inl rfl) ⟨.lock rfl rfl, trivial⟩)
      (.cons (.lock (.inl rfl) ⟨.pass (.inl rfl) rfl, trivial⟩)
      (.cons (.lock (.inl rfl) ⟨.take rfl rfl, trivial⟩)
      (.cons (.lock (.inl rfl) ⟨.unlock (.inl rfl), trivial⟩) (.cons (.wait ⟨rfl, rfl, rfl⟩)
      (.cons (.release rfl rfl ⟨.leave rfl, rfl⟩)
      (.cons (.lock (.inr (.inl rfl)) ⟨.check rfl rfl, trivial⟩)
      (.cons (.lock (.inr (.inl rfl)) ⟨.lock rfl rfl, trivial⟩)
      (.cons (.lock (.inr (.inl rfl)) ⟨.put rfl rfl, trivial⟩)
      (.cons (.lock (.inr (.inl rfl)) ⟨.wakeNone rfl rfl rfl, trivial⟩)
      (.cons (.lock (.inr (.inl rfl)) ⟨.unlock (.inr rfl), trivial⟩)
      (.cons (.released rfl rfl) (.cons (.doze rfl) (.cons (.lock rfl ⟨.enter rfl, rfl⟩)
      (.cons (.lock (.inl rfl) ⟨.lock rfl rfl, trivial⟩)
      (.cons (.lock (.inl rfl) ⟨.pass (.inl rfl) rfl, trivial⟩)
      (.cons (.lock (.inl rfl) ⟨.take rfl rfl, trivial⟩)
      (.cons (.lock (.inl rfl) ⟨.unlock (.inl rfl), trivial⟩)
      (.single (.broadcast ⟨rfl, rfl, rfl⟩))))))))))))))))))))
  obtain ⟨_, taken, _⟩ := cv_keeps_signals reached
  have waiting := ((taken 1 _ (.wakeAll rfl rfl) rfl).2 0).2 (.inr (.inr rfl))
  exact ⟨_, _, reached, .wakeAll rfl rfl, .inr (.inr rfl), waiting.2⟩

end Os161.Threads
