import Os161.Lib.Roster
import Os161.Lib.Transition

namespace Monitor
open Roster Transition Function List

/-- Data behind a spinlock and a wait channel. A thread enters by `take` when the test of the
waiting loop lets it pass, and leaves by `put`, which wakes one sleeper. An operation has no result
where an assertion fails. -/
structure Gate (D T : Type) where
  blocked : D → T → Bool
  take : D → T → Option D
  /-- The assertion that a leaving thread makes before it has the spinlock. -/
  admits : D → T → Bool
  put : D → T → Option D

/-- Where a thread is, by what it does next. -/
inductive Pc (T : Type) where
  | idle
  /-- takes the spinlock to enter -/
  | arrive
  | test
  /-- locks the wait channel -/
  | hand
  /-- frees the spinlock and keeps the channel -/
  | drop
  /-- joins the list of sleepers and frees the channel -/
  | doze
  | asleep
  /-- has left the list and waits for the waker to make it runnable -/
  | dequeued
  /-- takes the spinlock again -/
  | woken
  | retest
  | take
  /-- frees the spinlock behind `take` -/
  | finish
  | check
  /-- takes the spinlock to leave -/
  | depart
  | put
  | wake
  /-- makes the thread runnable that it has taken from the list -/
  | rouse (target : T)
  /-- frees the spinlock behind `put` -/
  | done
deriving DecidableEq

/-- The thread holds the spinlock. -/
def Pc.spins {T : Type} : Pc T → Bool
  | .test | .hand | .drop | .retest | .take | .finish | .put | .wake | .rouse _ | .done => true
  | _ => false

/-- The thread holds the lock of the wait channel. -/
def Pc.links {T : Type} : Pc T → Bool
  | .drop | .doze => true
  | _ => false

/-- The thread is on the list of the wait channel. -/
def Pc.sleeps {T : Type} : Pc T → Bool
  | .asleep => true
  | _ => false

/-- The thread has been woken and has not tested again. -/
def Pc.comes {T : Type} : Pc T → Bool
  | .dequeued | .woken | .retest => true
  | _ => false

/-- The thread has been stopped by the test and is not yet on the list. -/
def Pc.goes {T : Type} : Pc T → Bool
  | .hand | .drop | .doze => true
  | _ => false

/-- The thread has passed the test and not taken yet, or put back and not woken a sleeper yet. -/
def Pc.updates {T : Type} : Pc T → Bool
  | .take | .wake => true
  | _ => false

/-- The thread has begun to enter and has not taken yet. -/
def Pc.enters {T : Type} : Pc T → Bool
  | .arrive | .test | .hand | .drop | .doze | .asleep | .dequeued | .woken | .retest | .take => true
  | _ => false

/-- The thread has begun to leave and has not put yet. -/
def Pc.leaves {T : Type} : Pc T → Bool
  | .check | .depart | .put => true
  | _ => false

/-- The place behind the spinlock. -/
def Pc.locked {T : Type} : Pc T → Option (Pc T)
  | .arrive => some .test
  | .woken => some .retest
  | .depart => some .put
  | _ => none

/-- The last three fields count: for each thread how often it took more than it put, and in total
what was taken and put. -/
structure State (D T : Type) where
  data : D
  spin : Option T
  channel : Option T
  queue : List T
  pc : T → Pc T
  balance : T → Int
  takes : Nat
  puts : Nat

inductive Act (T : Type) where
  | enter (t : T)
  | leave (t : T)
  | step (t : T)
deriving DecidableEq

variable {D T : Type} [DecidableEq T]

def State.move (s : State D T) (t : T) (pc : Pc T) : State D T :=
  { s with pc := update s.pc t pc }

@[simp] theorem State.move_self (s : State D T) (t : T) (pc : Pc T) : (s.move t pc).pc t = pc :=
  update_self ..

variable {u : T}

theorem State.move_of_ne (s : State D T) (pc : Pc T) (other : u ≠ t) : (s.move t pc).pc u = s.pc u :=
  update_of_ne other ..

theorem State.move_cases (s : State D T) (t : T) (pc : Pc T) (u : T) :
    (u = t ∧ (s.move t pc).pc u = pc) ∨ (u ≠ t ∧ (s.move t pc).pc u = s.pc u) :=
  update_cases s.pc t pc u

/-- One step of one thread. -/
inductive Step (gate : Gate D T) : State D T → Act T → State D T → Prop where
  | enter {s : State D T} {t : T} (here : s.pc t = .idle) : Step gate s (.enter t) (s.move t .arrive)
  | leave {s : State D T} {t : T} (here : s.pc t = .idle) : Step gate s (.leave t) (s.move t .check)
  | lock {s : State D T} {t : T} {pc : Pc T} (here : (s.pc t).locked = some pc)
      (free : s.spin = none) : Step gate s (.step t) { s.move t pc with spin := some t }
  | block {s : State D T} {t : T} (here : s.pc t = .test ∨ s.pc t = .retest)
      (blocked : gate.blocked s.data t = true) : Step gate s (.step t) (s.move t .hand)
  | pass {s : State D T} {t : T} (here : s.pc t = .test ∨ s.pc t = .retest)
      (passed : gate.blocked s.data t = false) : Step gate s (.step t) (s.move t .take)
  | hand {s : State D T} {t : T} (here : s.pc t = .hand) (free : s.channel = none) :
      Step gate s (.step t) { s.move t .drop with channel := some t }
  | drop {s : State D T} {t : T} (here : s.pc t = .drop) :
      Step gate s (.step t) { s.move t .doze with spin := none }
  | doze {s : State D T} {t : T} (here : s.pc t = .doze) :
      Step gate s (.step t) { s.move t .asleep with channel := none, queue := s.queue ++ [t] }
  | take {s : State D T} {t : T} {data : D} (here : s.pc t = .take)
      (taken : gate.take s.data t = some data) :
      Step gate s (.step t)
        { s.move t .finish with
          data := data
          balance := update s.balance t (s.balance t + 1)
          takes := s.takes + 1 }
  | check {s : State D T} {t : T} (here : s.pc t = .check) (admitted : gate.admits s.data t = true) :
      Step gate s (.step t) (s.move t .depart)
  | put {s : State D T} {t : T} {data : D} (here : s.pc t = .put)
      (returned : gate.put s.data t = some data) :
      Step gate s (.step t)
        { s.move t .wake with
          data := data
          balance := update s.balance t (s.balance t - 1)
          puts := s.puts + 1 }
  | wakeNone {s : State D T} {t : T} (here : s.pc t = .wake) (free : s.channel = none)
      (empty : s.queue = []) : Step gate s (.step t) (s.move t .done)
  | wakeOne {s : State D T} {t target : T} {rest : List T} (here : s.pc t = .wake)
      (free : s.channel = none) (first : s.queue = target :: rest) :
      Step gate s (.step t) { (s.move target .dequeued).move t (.rouse target) with queue := rest }
  | rouse {s : State D T} {t target : T} (here : s.pc t = .rouse target) :
      Step gate s (.step t) ((s.move t .done).move target .woken)
  | unlock {s : State D T} {t : T} (here : s.pc t = .finish ∨ s.pc t = .done) :
      Step gate s (.step t) { s.move t .idle with spin := none }

/-- The thread is at an assertion that fails. -/
def State.Fails (gate : Gate D T) (s : State D T) (t : T) : Prop :=
  (s.pc t = .take ∧ gate.take s.data t = none) ∨
    (s.pc t = .check ∧ gate.admits s.data t = false) ∨
    (s.pc t = .put ∧ gate.put s.data t = none)

/-- No thread has called an operation yet. -/
def State.start (data : D) : State D T where
  data := data
  spin := none
  channel := none
  queue := []
  pc := fun _ => .idle
  balance := fun _ => 0
  takes := 0
  puts := 0

/-- The locks and the list belong to the threads whose places say so. -/
structure State.Formed (gate : Gate D T) (s : State D T) : Prop where
  spin : Owned Pc.spins s.spin s.pc
  channel : Owned Pc.links s.channel s.pc
  queue : Listed Pc.sleeps s.queue s.pc
  roused : ∀ t target, s.pc t = .rouse target → s.pc target = .dequeued
  passed : ∀ t, s.pc t = .take → gate.blocked s.data t = false

omit [DecidableEq T] in
theorem State.start_formed (gate : Gate D T) (data : D) : (State.start data).Formed gate where
  spin t := iff_of_false Bool.false_ne_true (by simp [State.start])
  channel t := iff_of_false Bool.false_ne_true (by simp [State.start])
  queue := .empty fun _ => rfl
  roused := fun t target here => by simp [State.start] at here
  passed := fun t here => by simp [State.start] at here

section

variable {gate : Gate D T} {s : State D T} {t : T} {pc : Pc T}

/-- A thread that nobody is waking may move. -/
theorem State.Formed.roused_move (formed : s.Formed gate)
    (alone : s.pc t ≠ .dequeued ∨ ∀ waker, s.pc waker ≠ .rouse t)
    (wakes : ∀ target, pc = .rouse target → target ≠ t ∧ s.pc target = .dequeued) (waker target : T)
    (there : update s.pc t pc waker = .rouse target) :
    update s.pc t pc target = .dequeued := by
  obtain ⟨rfl, same⟩ | ⟨_, same⟩ := update_cases s.pc t pc waker
  · obtain ⟨other, dequeued⟩ := wakes target (same.symm.trans there)
    rwa [update_of_ne other]
  · have waking := same.symm.trans there
    have dequeued := formed.roused waker target waking
    rwa [update_of_ne]
    rintro rfl
    obtain awake | nobody := alone
    · exact awake dequeued
    · exact nobody waker waking

/-- A thread may move behind the test when it has passed. -/
theorem State.Formed.passed_move (formed : s.Formed gate)
    (passed : pc = .take → gate.blocked s.data t = false) (u : T)
    (there : update s.pc t pc u = .take) : gate.blocked s.data u = false := by
  obtain ⟨rfl, same⟩ | ⟨_, same⟩ := update_cases s.pc t pc u
  · exact passed (same.symm.trans there)
  · exact formed.passed u (same.symm.trans there)

/-- The thread with the spinlock may change the data. -/
theorem State.Formed.passed_update (formed : s.Formed gate) (holder : (s.pc t).spins = true)
    (plain : pc ≠ .take) (data : D) (u : T) (there : update s.pc t pc u = .take) :
    gate.blocked data u = false := by
  obtain ⟨rfl, same⟩ | ⟨other, same⟩ := update_cases s.pc t pc u
  · exact absurd (same.symm.trans there) plain
  · have taking : s.pc u = .take := same.symm.trans there
    exact absurd (formed.spin.unique (taking ▸ rfl) holder) other

/-- A move that changes no lock and no list. -/
theorem State.Formed.move (formed : s.Formed gate) (spins : pc.spins = (s.pc t).spins)
    (links : pc.links = (s.pc t).links) (sleeps : pc.sleeps = (s.pc t).sleeps)
    (alone : s.pc t ≠ .dequeued ∨ ∀ waker, s.pc waker ≠ .rouse t)
    (wakes : ∀ target, pc = .rouse target → target ≠ t ∧ s.pc target = .dequeued)
    (passed : pc = .take → gate.blocked s.data t = false) : (s.move t pc).Formed gate where
  spin := formed.spin.keep spins
  channel := formed.channel.keep links
  queue := formed.queue.keep sleeps
  roused := formed.roused_move alone wakes
  passed := formed.passed_move passed

end

omit [DecidableEq T] in
/-- The first thread of the list sleeps. -/
theorem State.Formed.sleeper {s : State D T} (formed : s.Formed gate) (here : s.pc t = .wake)
    (first : s.queue = target :: rest) : s.pc target = .asleep ∧ t ≠ target := by
  have sleeping : s.pc target = .asleep := by
    have marked := (formed.queue.mem target).mp (first ▸ mem_cons_self)
    cases place : s.pc target <;> simp_all [Pc.sleeps]
  refine ⟨sleeping, ?_⟩
  rintro rfl
  rw [sleeping] at here
  cases here

omit [DecidableEq T] in
/-- A thread that is being made runnable is not the one that does it. -/
theorem State.Formed.target_ne {s : State D T} (formed : s.Formed gate) (here : s.pc t = .rouse target) :
    target ≠ t := by
  have dequeued := formed.roused t target here
  rintro rfl
  rw [dequeued] at here
  cases here

variable {gate : Gate D T} {s next : State D T} {act : Act T}

/-- Every step keeps the locks and the list with their threads. -/
theorem Step.formed (step : Step gate s act next) (formed : s.Formed gate) : next.Formed gate := by
  cases step with
  | enter here | leave here | check here admitted =>
    apply formed.move <;> simp [here, Pc.spins, Pc.links, Pc.sleeps]
  | @lock t pc here free =>
    have places : (s.pc t = .arrive ∧ pc = .test) ∨ (s.pc t = .woken ∧ pc = .retest) ∨
        (s.pc t = .depart ∧ pc = .put) := by
      cases place : s.pc t <;> simp_all [Pc.locked]
    have spin := formed.spin
    rw [free] at spin
    obtain ⟨before, rfl⟩ | ⟨before, rfl⟩ | ⟨before, rfl⟩ := places
    all_goals
      exact
        { spin := spin.acquire rfl
          channel := formed.channel.keep (by rw [before]; rfl)
          queue := formed.queue.keep (by rw [before]; rfl)
          roused := formed.roused_move (.inl (by simp [before])) (by simp)
          passed := formed.passed_move (by simp) }
  | block here blocked =>
    obtain before | before := here
    · apply formed.move <;> simp [before, Pc.spins, Pc.links, Pc.sleeps]
    · apply formed.move <;> simp [before, Pc.spins, Pc.links, Pc.sleeps]
  | pass here passed =>
    obtain before | before := here
    · apply formed.move <;> simp [before, passed, Pc.spins, Pc.links, Pc.sleeps]
    · apply formed.move <;> simp [before, passed, Pc.spins, Pc.links, Pc.sleeps]
  | hand here free =>
    have channel := formed.channel
    rw [free] at channel
    exact
      { spin := formed.spin.keep (by rw [here]; rfl)
        channel := channel.acquire rfl
        queue := formed.queue.keep (by rw [here]; rfl)
        roused := formed.roused_move (.inl (by simp [here])) (by simp)
        passed := formed.passed_move (by simp) }
  | drop here =>
    exact
      { spin := formed.spin.release (by rw [here]; rfl) rfl
        channel := formed.channel.keep (by rw [here]; rfl)
        queue := formed.queue.keep (by rw [here]; rfl)
        roused := formed.roused_move (.inl (by simp [here])) (by simp)
        passed := formed.passed_move (by simp) }
  | doze here =>
    exact
      { spin := formed.spin.keep (by rw [here]; rfl)
        channel := formed.channel.release (by rw [here]; rfl) rfl
        queue := formed.queue.join (by rw [here]; rfl) rfl
        roused := formed.roused_move (.inl (by simp [here])) (by simp)
        passed := formed.passed_move (by simp) }
  | take here taken | put here ran =>
    exact
      { spin := formed.spin.keep (by rw [here]; rfl)
        channel := formed.channel.keep (by rw [here]; rfl)
        queue := formed.queue.keep (by rw [here]; rfl)
        roused := formed.roused_move (.inl (by simp [here])) (by simp)
        passed := formed.passed_update (by rw [here]; rfl) (by simp) _ }
  | wakeNone here free empty => apply formed.move <;> simp [here, Pc.spins, Pc.links, Pc.sleeps]
  | @wakeOne t target rest here free first =>
    obtain ⟨sleeping, differ⟩ := formed.sleeper here first
    have queue := formed.queue.erase (t := target) (p := .dequeued) rfl
    rw [first, erase_cons_head] at queue
    have dequeued : State.Formed gate { s.move target .dequeued with queue := rest } :=
      { spin := formed.spin.keep (by rw [sleeping]; rfl)
        channel := formed.channel.keep (by rw [sleeping]; rfl)
        queue := queue
        roused := formed.roused_move (.inl (by simp [sleeping])) (by simp)
        passed := formed.passed_move (by simp) }
    have waker : (s.move target .dequeued).pc t = .wake := (s.move_of_ne _ differ).trans here
    refine dequeued.move ?_ ?_ ?_ (.inl ?_) ?_ (by simp)
    all_goals dsimp only
    · rw [waker]
      rfl
    · rw [waker]
      rfl
    · rw [waker]
      rfl
    · simp [waker]
    · rintro _ ⟨⟩
      exact ⟨differ.symm, s.move_self target _⟩
  | @rouse t target here =>
    have dequeued := formed.roused t target here
    have differ := formed.target_ne here
    have done : (s.move t .done).Formed gate := by
      apply formed.move <;> simp [here, Pc.spins, Pc.links, Pc.sleeps]
    have still : (s.move t .done).pc target = .dequeued :=
      (s.move_of_ne _ differ).trans dequeued
    refine done.move ?_ ?_ ?_ (.inr ?_) (by simp) (by simp)
    · rw [still]
      rfl
    · rw [still]
      rfl
    · rw [still]
      rfl
    · intro waker waking
      have same : waker = t := done.spin.unique (by rw [waking]; rfl) (by rw [s.move_self]; rfl)
      rw [same, s.move_self] at waking
      cases waking
  | unlock here =>
    obtain before | before := here
    all_goals
      exact
        { spin := formed.spin.release (by rw [before]; rfl) rfl
          channel := formed.channel.keep (by rw [before]; rfl)
          queue := formed.queue.keep (by rw [before]; rfl)
          roused := formed.roused_move (.inl (by simp [before])) (by simp)
          passed := formed.passed_move (by simp) }

/-- The data has a number of free units that a `take` lowers and a `put` raises by one. -/
structure Gate.Counts (gate : Gate D T) (units : D → Nat) : Prop where
  blocked : ∀ {data : D} {t : T}, gate.blocked data t = true → units data = 0
  take : ∀ {data last : D} {t : T}, gate.take data t = some last → units last ≤ units data - 1
  put : ∀ {data last : D} {t : T}, gate.put data t = some last → units last ≤ units data + 1

/-- A thread sleeps or goes to sleep. -/
def Waits (queue : List T) (pc : T → Pc T) : Prop := queue ≠ [] ∨ ∃ t, (pc t).goes = true

/-- While a thread sleeps, enough woken threads come for the free units. One unit more may be free in
the middle of an update. -/
def Served (units : Nat) (queue : List T) (pc : T → Pc T) : Prop :=
  ∃ coming, Listed Pc.comes coming pc ∧ (Waits queue pc →
    units ≤ coming.length + 1 ∧ ((∀ t, (pc t).updates = false) → units ≤ coming.length))

section

variable {units : Nat} {queue : List T} {place : T → Pc T} {t : T} {pc : Pc T}

/-- A thread that moves without going to sleep lets only others wait. -/
theorem Waits.of_move (goes : pc.goes = true → (place t).goes = true)
    (waits : Waits queue (update place t pc)) : Waits queue place := by
  obtain sleeper | ⟨u, going⟩ := waits
  · exact .inl sleeper
  · exact .inr ⟨u, marked_of_update goes going⟩

/-- Nobody was in the middle of an update when nobody is after a move. -/
theorem quiet_of_move (updates : (place t).updates = true → pc.updates = true)
    (quiet : ∀ u, (update place t pc u).updates = false) (u : T) :
    (place u).updates = false := by
  obtain ⟨rfl, there⟩ | ⟨_, there⟩ := update_cases place t pc u
  · by_contra updating
    have still := updates (Bool.not_eq_false _ ▸ updating)
    rw [← there, quiet u] at still
    cases still
  · exact there ▸ quiet u

/-- A move that neither begins nor ends a wait or an update. -/
theorem Served.move (served : Served units queue place) (comes : pc.comes = (place t).comes)
    (goes : pc.goes = true → (place t).goes = true)
    (updates : (place t).updates = true → pc.updates = true) :
    Served units queue (update place t pc) := by
  obtain ⟨coming, listed, enough⟩ := served
  refine ⟨coming, listed.keep comes, ?_⟩
  intro waits
  obtain ⟨most, all⟩ := enough (waits.of_move goes)
  exact ⟨most, fun quiet => all (quiet_of_move updates quiet)⟩

end

omit [DecidableEq T] in
/-- Only the thread with the spinlock can be inside an update. -/
theorem State.Formed.quiet {s : State D T} (formed : s.Formed gate) (holder : (s.pc t).spins = true)
    (idle : (s.pc t).updates = false) (u : T) : (s.pc u).updates = false := by
  by_contra updating
  have spins : (s.pc u).spins = true := by
    cases place : s.pc u <;> simp_all [Pc.updates, Pc.spins]
  rw [formed.spin.unique spins holder] at updating
  exact updating idle

omit [DecidableEq T] in
/-- Nobody goes to sleep while another thread has the spinlock. -/
theorem State.Formed.not_goes {s : State D T} (formed : s.Formed gate) (holder : (s.pc t).spins = true)
    (stays : (s.pc t).goes = false) (free : s.channel = none) (u : T) : (s.pc u).goes = false := by
  by_contra going
  have links : (s.pc u).links = false := by
    have channel := formed.channel
    rw [free] at channel
    exact channel.free u
  have spins : (s.pc u).spins = true := by
    cases place : s.pc u <;> simp_all [Pc.goes, Pc.spins, Pc.links]
  rw [formed.spin.unique spins holder] at going
  exact going stays

/-- Every step keeps the sleepers served. -/
theorem Step.served {units : D → Nat} (counts : gate.Counts units) (step : Step gate s act next)
    (formed : s.Formed gate) (served : Served (units s.data) s.queue s.pc) :
    Served (units next.data) next.queue next.pc := by
  cases step with
  | enter here | leave here | hand here free =>
    apply served.move <;> simp [here, Pc.comes, Pc.goes, Pc.updates]
  | @lock t pc here free =>
    cases place : s.pc t <;> rw [place] at here <;> cases here
    all_goals apply served.move <;> simp [place, Pc.comes, Pc.goes, Pc.updates]
  | @block t here blocked =>
    obtain ⟨coming, listed, _⟩ := served
    have none : units s.data = 0 := counts.blocked blocked
    refine ⟨coming.erase t, listed.erase rfl, fun _ => ?_⟩
    exact ⟨none ▸ Nat.zero_le _, fun _ => none ▸ Nat.zero_le _⟩
  | @pass t here passed =>
    obtain before | before := here
    · apply served.move <;> simp [before, Pc.comes, Pc.goes, Pc.updates]
    · obtain ⟨coming, listed, enough⟩ := served
      refine ⟨coming.erase t, listed.erase rfl, ?_⟩
      intro waits
      obtain ⟨_, all⟩ := enough (waits.of_move (by simp [Pc.goes]))
      have few := all (formed.quiet (t := t) (by rw [before]; rfl) (by rw [before]; rfl))
      have mine : t ∈ coming := (listed.mem t).mpr (by rw [before]; rfl)
      have length := length_erase_of_mem mine
      refine ⟨by dsimp only [State.move]; omega, ?_⟩
      intro quiet
      have updating := quiet t
      rw [State.move_self] at updating
      cases updating
  | drop here | check here admitted => apply served.move <;> simp [here, Pc.comes, Pc.goes, Pc.updates]
  | @doze t here =>
    obtain ⟨coming, listed, enough⟩ := served
    refine ⟨coming, listed.keep (by rw [here]; rfl), ?_⟩
    intro _
    obtain ⟨most, all⟩ := enough (.inr ⟨t, by rw [here]; rfl⟩)
    exact ⟨most, fun quiet => all (quiet_of_move (by simp [here, Pc.updates]) quiet)⟩
  | take here taken =>
    obtain ⟨coming, listed, enough⟩ := served
    refine ⟨coming, listed.keep (by rw [here]; rfl), ?_⟩
    intro waits
    obtain ⟨most, _⟩ := enough (waits.of_move (by simp [Pc.goes]))
    have fewer := counts.take taken
    dsimp only
    exact ⟨by omega, fun _ => by omega⟩
  | @put t data here ran =>
    obtain ⟨coming, listed, enough⟩ := served
    refine ⟨coming, listed.keep (by rw [here]; rfl), ?_⟩
    intro waits
    obtain ⟨_, all⟩ := enough (waits.of_move (by simp [Pc.goes]))
    have few := all (formed.quiet (t := t) (by rw [here]; rfl) (by rw [here]; rfl))
    have more := counts.put ran
    refine ⟨by dsimp only; omega, ?_⟩
    intro quiet
    have updating := quiet t
    rw [State.move_self] at updating
    cases updating
  | @wakeNone t here free empty =>
    obtain ⟨coming, listed, _⟩ := served
    refine ⟨coming, listed.keep (by rw [here]; rfl), ?_⟩
    intro waits
    obtain sleeper | ⟨u, going⟩ := waits.of_move (by simp [Pc.goes])
    · exact absurd empty sleeper
    · rw [formed.not_goes (t := t) (by rw [here]; rfl) (by rw [here]; rfl) free u] at going
      cases going
  | @wakeOne t target rest here free first =>
    obtain ⟨sleeping, differ⟩ := formed.sleeper here first
    obtain ⟨coming, listed, enough⟩ := served
    have joined : Listed Pc.comes (coming ++ [target]) (s.move target .dequeued).pc :=
      listed.join (by rw [sleeping]; rfl) rfl
    have waker : (s.move target .dequeued).pc t = .wake := (s.move_of_ne _ differ).trans here
    have kept : Listed Pc.comes (coming ++ [target]) ((s.move target .dequeued).move t
        (.rouse target)).pc := joined.keep (by rw [waker]; rfl)
    refine ⟨_, kept, ?_⟩
    intro _
    obtain ⟨most, _⟩ := enough (.inl (by simp [first]))
    have length : (coming ++ [target]).length = coming.length + 1 := length_append ..
    rw [length]
    exact ⟨Nat.le_succ_of_le most, fun _ => most⟩
  | @rouse t target here =>
    have still : (s.move t .done).pc target = .dequeued :=
      (s.move_of_ne _ (formed.target_ne here)).trans (formed.roused t target here)
    have done : Served (units s.data) s.queue (s.move t .done).pc := by
      apply served.move <;> simp [here, Pc.comes, Pc.goes, Pc.updates]
    apply done.move <;> simp [still, Pc.comes, Pc.goes, Pc.updates]
  | unlock here =>
    obtain before | before := here
    all_goals apply served.move <;> simp [before, Pc.comes, Pc.goes, Pc.updates]

/-- The structure of the monitor and the service of its sleepers. -/
structure State.Inv (gate : Gate D T) (units : D → Nat) (s : State D T) : Prop where
  formed : s.Formed gate
  served : Served (units s.data) s.queue s.pc

theorem Step.inv (counts : gate.Counts units) (step : Step gate s act next) (inv : s.Inv gate units) :
    next.Inv gate units :=
  ⟨step.formed inv.formed, step.served counts inv.formed inv.served⟩

omit [DecidableEq T] in
theorem State.start_inv (gate : Gate D T) (units : D → Nat) (data : D) :
    (State.start data).Inv gate units where
  formed := State.start_formed gate data
  served := by
    refine ⟨[], .empty fun _ => rfl, ?_⟩
    rintro (sleeper | ⟨t, going⟩)
    · exact absurd rfl sleeper
    · cases going

omit [DecidableEq T] in
/-- While a thread sleeps, free units are matched by woken threads. -/
theorem State.Inv.woken {units : D → Nat} {s : State D T} (inv : s.Inv gate units) (sleeper : s.queue ≠ [])
    (quiet : ∀ t, (s.pc t).updates = false) :
    ∃ woken : List T, woken.Nodup ∧ (∀ t ∈ woken, (s.pc t).comes = true) ∧
      units s.data ≤ woken.length := by
  obtain ⟨coming, listed, enough⟩ := inv.served
  exact ⟨coming, listed.once, fun t member => (listed.mem t).mp member,
    (enough (.inl sleeper)).2 quiet⟩

/-- The data changes in a `take` and in a `put` only, and the counters with it. -/
inductive Effect (gate : Gate D T) (s : State D T) (act : Act T) (next : State D T) : Prop where
  | none (data : next.data = s.data) (balance : next.balance = s.balance)
      (takes : next.takes = s.takes) (puts : next.puts = s.puts)
  | take {t : T} (acts : act = .step t) (here : s.pc t = .take) (there : next.pc t = .finish)
      (taken : gate.take s.data t = some next.data)
      (balance : next.balance = update s.balance t (s.balance t + 1))
      (takes : next.takes = s.takes + 1) (puts : next.puts = s.puts)
  | put {t : T} (acts : act = .step t) (here : s.pc t = .put) (there : next.pc t = .wake)
      (returned : gate.put s.data t = some next.data)
      (balance : next.balance = update s.balance t (s.balance t - 1))
      (takes : next.takes = s.takes) (puts : next.puts = s.puts + 1)

theorem Step.effect (step : Step gate s act next) : Effect gate s act next := by
  cases step with
  | take here taken => exact .take rfl here (s.move_self _ _) taken rfl rfl rfl
  | put here ran => exact .put rfl here (s.move_self _ _) ran rfl rfl rfl
  | _ => exact .none rfl rfl rfl rfl

/-- What a step does to the place of a thread, by what the thread gains. -/
inductive Pc.Move (act : Act T) (t : T) (gained : Int) : Pc T → Pc T → Prop where
  | enter (acts : act = .enter t) : Move act t gained .idle .arrive
  | leave (acts : act = .leave t) : Move act t gained .idle .check
  | lock {before after : Pc T} (passes : before.locked = some after) : Move act t gained before after
  | block (tests : before = .test ∨ before = .retest) : Move act t gained before .hand
  | pass (tests : before = .test ∨ before = .retest) : Move act t gained before .take
  | hand : Move act t gained .hand .drop
  | drop : Move act t gained .drop .doze
  | doze : Move act t gained .doze .asleep
  | take (taken : gained = 1) : Move act t gained .take .finish
  | check : Move act t gained .check .depart
  | put (returned : gained = -1) : Move act t gained .put .wake
  | wakeNone : Move act t gained .wake .done
  | wakeOne : Move act t gained .wake (.rouse target)
  | dequeue : Move act t gained .asleep .dequeued
  | rouse : Move act t gained (.rouse target) .done
  | wake : Move act t gained .dequeued .woken
  | unlock (ends : before = .finish ∨ before = .done) : Move act t gained before .idle

section

variable (step : Step gate s act next) (formed : s.Formed gate)
include step formed

/-- Every thread stays where it is or makes one move. -/
theorem Step.moves (u : T) :
    next.pc u = s.pc u ∨ Pc.Move act u (next.balance u - s.balance u) (s.pc u) (next.pc u) := by
  have single {t : T} {prev pc : Pc T} (here : s.pc t = prev)
      (move : Pc.Move act t (next.balance t - s.balance t) prev pc)
      (there : next.pc = update s.pc t pc) :
      next.pc u = s.pc u ∨ Pc.Move act u (next.balance u - s.balance u) (s.pc u) (next.pc u) := by
    rw [there]
    obtain ⟨rfl, same⟩ | ⟨_, same⟩ := update_cases s.pc t pc u
    · rw [same, here]
      exact .inr move
    · exact .inl same
  cases step with
  | enter here => exact single here (.enter rfl) rfl
  | leave here => exact single here (.leave rfl) rfl
  | lock here free => exact single rfl (.lock here) rfl
  | block here blocked => exact single rfl (.block here) rfl
  | pass here passed => exact single rfl (.pass here) rfl
  | hand here free => exact single here .hand rfl
  | drop here => exact single here .drop rfl
  | doze here => exact single here .doze rfl
  | take here taken => exact single here (.take (by simp)) rfl
  | check here admitted => exact single here .check rfl
  | put here ran => exact single here (.put (by simp)) rfl
  | wakeNone here free empty => exact single here .wakeNone rfl
  | @wakeOne t target rest here free first =>
    obtain ⟨sleeping, differ⟩ := formed.sleeper here first
    obtain ⟨rfl, there⟩ | ⟨_, there⟩ := (s.move target .dequeued).move_cases t (.rouse target) u
    · rw [there, here]
      exact .inr .wakeOne
    · rw [there]
      obtain ⟨rfl, again⟩ | ⟨_, again⟩ := s.move_cases target .dequeued u
      · rw [again, sleeping]
        exact .inr .dequeue
      · exact .inl again
  | @rouse t target here =>
    obtain ⟨rfl, there⟩ | ⟨_, there⟩ := (s.move t .done).move_cases target .woken u
    · rw [there, formed.roused t u here]
      exact .inr .wake
    · rw [there]
      obtain ⟨rfl, again⟩ | ⟨_, again⟩ := s.move_cases t .done u
      · rw [again, here]
        exact .inr .rouse
      · exact .inl again
  | unlock here => exact single rfl (.unlock here) rfl

/-- A thread begins to enter or leave by a call only. -/
theorem Step.calls (u : T) :
    ((next.pc u).enters = true → (s.pc u).enters = true ∨ act = .enter u) ∧
      ((next.pc u).leaves = true → (s.pc u).leaves = true ∨ act = .leave u) := by
  obtain same | move := step.moves formed u
  · rw [same]
    exact ⟨.inl, .inl⟩
  generalize s.pc u = prev, next.pc u = after at move
  cases move with
  | lock passes => cases prev <;> cases passes <;> simp [Pc.enters, Pc.leaves]
  | block tests | pass tests => obtain rfl | rfl := tests <;> simp [Pc.enters, Pc.leaves]
  | _ => simp [*, Pc.enters, Pc.leaves]

/-- A thread that has begun to enter stays in the operation until it takes. -/
theorem Step.enters_or_takes (entering : (s.pc u).enters = true) :
    (next.pc u).enters = true ∨ next.balance u = s.balance u + 1 := by
  obtain same | move := step.moves formed u
  · rw [same]
    exact .inl entering
  generalize s.pc u = prev, next.pc u = after at move entering
  cases move with
  | take taken => exact .inr (by omega)
  | lock passes => cases prev <;> cases passes <;> simp_all [Pc.enters]
  | unlock ends => obtain rfl | rfl := ends <;> cases entering
  | _ => simp_all [Pc.enters]

/-- A thread that has begun to leave stays in the operation until it puts. -/
theorem Step.leaves_or_puts (leaving : (s.pc u).leaves = true) :
    (next.pc u).leaves = true ∨ next.balance u = s.balance u - 1 := by
  obtain same | move := step.moves formed u
  · rw [same]
    exact .inl leaving
  generalize s.pc u = prev, next.pc u = after at move leaving
  cases move with
  | put ran => exact .inr (by omega)
  | lock passes => cases prev <;> cases passes <;> simp_all [Pc.leaves]
  | block tests | pass tests => obtain rfl | rfl := tests <;> cases leaving
  | unlock ends => obtain rfl | rfl := ends <;> cases leaving
  | _ => simp_all [Pc.leaves]

end

end Monitor
