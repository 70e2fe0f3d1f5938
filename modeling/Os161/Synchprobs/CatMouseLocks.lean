import Os161.Synchprobs.CatMouse

namespace Os161.Synchprobs
open Outcome Transition Function

variable {T : Type}

/-- The locks of a thread by its place. A thread that sleeps, or is done, holds `lock[0]` if its last search found no
bowl. -/
inductive Hold where
  | idle
  | gate
  | nothing
  | both (j : Nat)
  | bowl (j : Nat)
deriving DecidableEq

def Pc.hold : Pc → Hold
  | .sleep | .acquire | .done => .idle
  | .testOwn | .testOther | .wait | .noteWait | .search _ | .acquireBowl _ => .gate
  | .asleep | .reacquire => .nothing
  | .incRead j | .incWrite j _ | .mark j | .release j => .both j
  | .eat j _ | .decRead j | .decWrite j _ | .unmark j | .wakeOther j | .readWchan j | .readOther j | .wakeOwn j
  | .clearWchan j | .releaseBowl j => .bowl j

def Hold.Fits (lock : Nat → Option T) (t : T) : Hold → Prop
  | .idle => ∀ j, lock (j + 1) ≠ some t
  | .gate => lock 0 = some t ∧ ∀ j, lock (j + 1) ≠ some t
  | .nothing => ∀ k, lock k ≠ some t
  | .both j => lock 0 = some t ∧ ∀ k, lock (k + 1) = some t ↔ k = j
  | .bowl j => lock 0 ≠ some t ∧ ∀ k, lock (k + 1) = some t ↔ k = j

/-- Every thread holds the locks its place asks for. -/
def Locks (s : Sim T) : Prop := ∀ t, (s.pc t).hold.Fits s.lock t

/-- What a step does to the locks -/
inductive LockChange (lock : Nat → Option T) (t : T) : Hold → Hold → (Nat → Option T) → Prop where
  | same : LockChange lock t kind kind lock
  | enter : lock 0 = none ∨ lock 0 = some t → LockChange lock t .idle .gate (update lock 0 (some t))
  | wake : lock 0 = none ∨ lock 0 = some t → LockChange lock t .nothing .gate (update lock 0 (some t))
  | take : lock (j + 1) = none ∨ lock (j + 1) = some t →
      LockChange lock t .gate (.both j) (update lock (j + 1) (some t))
  | wait : LockChange lock t .gate .nothing (update lock 0 none)
  | sit : LockChange lock t (.both j) (.bowl j) (update lock 0 none)
  | leave : LockChange lock t (.bowl j) .idle (update lock (j + 1) none)
  | miss : LockChange lock t .gate .idle lock

section

variable {t : T}

theorem Hold.Fits.congr {lock lock' : Nat → Option T} (same : ∀ k, lock' k = some u ↔ lock k = some u)
    {kind : Hold} (fits : kind.Fits lock u) : kind.Fits lock' u := by
  cases kind with
  | idle => exact fun j => (not_congr (same _)).mpr (fits j)
  | gate => exact ⟨(same 0).mpr fits.1, fun j => (not_congr (same _)).mpr (fits.2 j)⟩
  | nothing => exact fun k => (not_congr (same k)).mpr (fits k)
  | both j => exact ⟨(same 0).mpr fits.1, fun k => (same _).trans (fits.2 k)⟩
  | bowl j => exact ⟨(not_congr (same 0)).mpr fits.1, fun k => (same _).trans (fits.2 k)⟩

theorem update_held {lock : Nat → Option T} (prev : lock k ≠ some u) (other : after ≠ some u) (l : Nat) :
    update lock k after l = some u ↔ lock l = some u := by
  by_cases same : l = k
  · subst same
    rw [update_self]
    exact iff_of_false other prev
  · rw [update_of_ne same]

theorem LockChange.others {lock after : Nat → Option T} (change : LockChange lock t kind next after)
    (fits : kind.Fits lock t) (apart : u ≠ t) (k : Nat) : after k = some u ↔ lock k = some u := by
  have taken : some t ≠ some u := fun same => apart (Option.some.inj same).symm
  have vacant {l : Nat} (free : lock l = none ∨ lock l = some t) : lock l ≠ some u := by
    rcases free with free | free
    · rw [free]
      nofun
    · rw [free]
      exact taken
  have dropped : none ≠ some u := nofun
  cases change with
  | same => rfl
  | miss => rfl
  | enter free | wake free | take free => exact update_held (vacant free) taken k
  | wait | sit => exact update_held (vacant (.inr fits.1)) dropped k
  | leave => exact update_held (vacant (.inr ((fits.2 _).mpr rfl))) dropped k

theorem LockChange.self (change : LockChange lock t kind next after) (fits : kind.Fits lock t) :
    next.Fits after t := by
  cases change with
  | same => exact fits
  | miss => exact fits.2
  | enter free => exact ⟨update_self .., fits⟩
  | wake free => exact ⟨update_self .., fun j => fits (j + 1)⟩
  | @take j free =>
    refine ⟨fits.1, fun k => ?_⟩
    by_cases same : k = j
    · subst same
      exact iff_of_true (update_self ..) rfl
    · rw [update_of_ne (by omega)]
      exact iff_of_false (fits.2 k) same
  | wait =>
    intro k
    by_cases same : k = 0
    · subst same
      nofun
    · obtain ⟨j, rfl⟩ := Nat.exists_eq_succ_of_ne_zero same
      exact fits.2 j
  | sit =>
    refine ⟨?_, fits.2⟩
    nofun
  | @leave j =>
    intro k
    by_cases same : k = j
    · subst same
      rw [update_self]
      nofun
    · rw [update_of_ne (by omega)]
      exact fun held => same ((fits.2 k).mp held)

end

variable [DecidableEq T]

/-- A value of each thread by its place -/
def Sim.view {X : Type} (s : Sim T) (f : T → Pc → X) : T → X := fun t => f t (s.pc t)

@[simp] theorem Sim.view_move {X : Type} (s : Sim T) (f : T → Pc → X) (t : T) (next : Pc) :
    (s.move t next).view f = update (s.view f) t (f t next) := by
  funext u
  by_cases same : u = t
  · subst same
    simp [view, move]
  · simp [view, move, same]

/-- What a step changes beside the place of the thread, by the place it leaves and the place it goes to -/
inductive Took (h : Household T) (s : Sim T) (t : T) : Pc → Pc → Sim T → Prop where
  | sleep : Took h s t .sleep .acquire s
  | acquire : s.lock 0 = none ∨ s.lock 0 = some t →
      Took h s t .acquire .testOwn { s with lock := update s.lock 0 (some t) }
  | allEat : s.eating (h.species t) = h.numBowls → Took h s t .testOwn .wait s
  | someRoom : s.eating (h.species t) ≠ h.numBowls → Took h s t .testOwn .testOther s
  | othersEat : 0 < s.eating (h.species t).other → Took h s t .testOther .wait s
  | pass : s.eating (h.species t).other ≤ 0 → Took h s t .testOther (.search 0) s
  | wait : s.lock 0 = some t → Took h s t .wait .asleep { s with lock := update s.lock 0 none }
  | reacquire : s.lock 0 = none ∨ s.lock 0 = some t →
      Took h s t .reacquire .noteWait { s with lock := update s.lock 0 (some t) }
  | noteWait : Took h s t .noteWait .testOwn { s with wchan := update s.wchan (h.species t) true }
  | found : j < h.numBowls → s.bowl j = none → Took h s t (.search j) (.acquireBowl j) s
  | taken : j < h.numBowls → s.bowl j ≠ none → Took h s t (.search j) (.search (j + 1)) s
  | missed : h.numBowls ≤ j → Took h s t (.search j) (if s.round t + 1 < h.numLoops then .sleep else .done)
      { s with round := update s.round t (s.round t + 1), ate := update s.ate t 0 }
  | acquireBowl : s.lock (j + 1) = none ∨ s.lock (j + 1) = some t →
      Took h s t (.acquireBowl j) (.incRead j) { s with lock := update s.lock (j + 1) (some t) }
  | incRead : Took h s t (.incRead j) (.incWrite j (s.eating (h.species t))) s
  | incWrite : Took h s t (.incWrite j value) (.mark j)
      { s with eating := update s.eating (h.species t) (value + 1) }
  | mark : Took h s t (.mark j) (.release j)
      { s with bowl := update s.bowl j (some (h.species t)) }
  | release : s.lock 0 = some t → Took h s t (.release j) (.eat j .argument)
      { s with lock := update s.lock 0 none, ate := update s.ate t (s.ate t + 1) }
  | argument : j < h.numBowls → Took h s t (.eat j .argument) (.eat j .enter) s
  | enter : 0 < s.mutex → Took h s t (.eat j .enter) (.eat j .checkOwn) { s with mutex := s.mutex - 1 }
  | checkOwn : Took h s t (.eat j .checkOwn) (.eat j .checkOther) s
  | checkOther : Took h s t (.eat j .checkOther) (.eat j .assertFree) s
  | assertFree : Took h s t (.eat j .assertFree) (.eat j .assertNone) s
  | assertNone : Took h s t (.eat j .assertNone) (.eat j .countRead) s
  | countRead : Took h s t (.eat j .countRead) (.eat j (.countWrite (s.count (h.species t)))) s
  | countWrite : Took h s t (.eat j (.countWrite value)) (.eat j .occupy)
      { s with count := update s.count (h.species t) (value + 1) }
  | occupy : Took h s t (.eat j .occupy) (.eat j .leave)
      { s with bowls := update s.bowls j (some (h.species t)) }
  | leave : Took h s t (.eat j .leave) (.eat j .reenter) { s with mutex := s.mutex + 1 }
  | reenter : 0 < s.mutex →
      Took h s t (.eat j .reenter) (.eat j .assertCount) { s with mutex := s.mutex - 1 }
  | assertCount : Took h s t (.eat j .assertCount)
      (.eat j (match h.species t with | .cat => .assertOwn | .mouse => .uncountRead)) s
  | assertOwn : Took h s t (.eat j .assertOwn)
      (.eat j (match h.species t with | .cat => .uncountRead | .mouse => .vacate)) s
  | uncountRead : Took h s t (.eat j .uncountRead) (.eat j (.uncountWrite (s.count (h.species t)))) s
  | uncountWrite : Took h s t (.eat j (.uncountWrite value))
      (.eat j (match h.species t with | .cat => .vacate | .mouse => .assertOwn))
      { s with count := update s.count (h.species t) (value - 1) }
  | vacate : Took h s t (.eat j .vacate) (.eat j .finish) { s with bowls := update s.bowls j none }
  | finish : Took h s t (.eat j .finish) (.decRead j) { s with mutex := s.mutex + 1 }
  | decRead : Took h s t (.decRead j) (.decWrite j (s.eating (h.species t))) s
  | decWrite : Took h s t (.decWrite j value) (.unmark j)
      { s with eating := update s.eating (h.species t) (value - 1) }
  | unmark : Took h s t (.unmark j) (.wakeOther j) { s with bowl := update s.bowl j none }
  | wakeOther : Took h s t (.wakeOther j) (.readWchan j) (s.broadcast h.species (h.species t).other)
  | readWchan : Took h s t (.readWchan j)
      (if s.wchan (h.species t).other then .clearWchan j else .readOther j) s
  | readOther : Took h s t (.readOther j)
      (if s.eating (h.species t).other = 0 then .wakeOwn j else .clearWchan j) s
  | wakeOwn : Took h s t (.wakeOwn j) (.clearWchan j) (s.broadcast h.species (h.species t))
  | clearWchan : Took h s t (.clearWchan j) (.releaseBowl j)
      { s with wchan := update s.wchan (h.species t).other false }
  | releaseBowl : s.lock (j + 1) = some t →
      Took h s t (.releaseBowl j) (if s.round t + 1 < h.numLoops then .sleep else .done)
        { s with lock := update s.lock (j + 1) none, round := update s.round t (s.round t + 1)
                 ate := update s.ate t 0 }

section

variable {h : Household T} {s s' : Sim T} {t : T}

theorem lockAcquire_ok (moved : s.lockAcquire k t next = some (.ok s')) :
    (s.lock k = none ∨ s.lock k = some t) ∧
      { s with lock := update s.lock k (some t) }.move t next = s' := by
  unfold Sim.lockAcquire at moved
  by_cases vacant : s.lock k = none ∨ s.lock k = some t
  · rw [if_pos vacant] at moved
    cases moved
    exact ⟨vacant, rfl⟩
  · rw [if_neg vacant] at moved
    cases moved

theorem lockRelease_ok (freed : s.lockRelease k t = .ok after) :
    s.lock k = some t ∧ { s with lock := update s.lock k none } = after := by
  unfold Sim.lockRelease at freed
  rw [kassert_bind] at freed
  obtain ⟨-, freed⟩ := freed
  rw [kassert_bind] at freed
  obtain ⟨held, freed⟩ := freed
  cases freed
  exact ⟨held, rfl⟩

theorem down_ok (moved : s.down t next = some (.ok s')) :
    0 < s.mutex ∧ { s with mutex := s.mutex - 1 }.move t next = s' := by
  unfold Sim.down at moved
  by_cases vacant : 0 < s.mutex
  · rw [if_pos vacant] at moved
    cases moved
    exact ⟨vacant, rfl⟩
  · rw [if_neg vacant] at moved
    cases moved

theorem check_ok {A : Type} {condition : Prop} [Decidable condition] {problem : Panic} {after res : A}
    (passed : (if condition then .error problem else .ok after : Kernel A) = .ok res) :
    ¬ condition ∧ after = res := by
  by_cases met : condition
  · rw [if_pos met] at passed
    cases passed
  · rw [if_neg met] at passed
    cases passed
    exact ⟨met, rfl⟩

theorem eatStep_took {j : Nat} {pc : EatPc} (moved : eatStep h s t j pc = some (.ok s')) :
    ∃ next w, Took h s t (.eat j pc) next w ∧ w.move t next = s' := by
  cases pc with
  | argument =>
    obtain ⟨inside, rfl⟩ := check_ok (Option.some.inj moved)
    exact ⟨_, _, .argument (by omega), rfl⟩
  | enter =>
    obtain ⟨vacant, rfl⟩ := down_ok moved
    exact ⟨_, _, .enter vacant, rfl⟩
  | reenter =>
    obtain ⟨vacant, rfl⟩ := down_ok moved
    exact ⟨_, _, .reenter vacant, rfl⟩
  | checkOwn | checkOther =>
    obtain ⟨-, rfl⟩ := check_ok (Option.some.inj moved)
    exact ⟨_, _, by constructor, rfl⟩
  | assertFree | assertNone | assertCount | assertOwn =>
    obtain ⟨-, rest⟩ := kassert_bind.mp (Option.some.inj moved)
    exact ⟨_, _, by constructor, Except.ok.inj rest⟩
  | countRead | countWrite _ | occupy | leave | uncountRead | uncountWrite _ | vacate | finish =>
    exact ⟨_, _, by constructor, Except.ok.inj (Option.some.inj moved)⟩

theorem search_took (moved : step h s t = some (.ok s')) (here : s.pc t = .search j) :
    ∃ next w, Took h s t (.search j) next w ∧ w.move t next = s' := by
  simp only [step, here, Option.some.injEq, Except.ok.injEq] at moved
  by_cases inside : j < h.numBowls
  · rw [if_pos inside] at moved
    by_cases vacant : s.bowl j = none
    · rw [if_pos vacant] at moved
      exact ⟨_, _, .found inside vacant, moved⟩
    · rw [if_neg vacant] at moved
      exact ⟨_, _, .taken inside vacant, moved⟩
  · rw [if_neg inside] at moved
    exact ⟨_, _, .missed (not_lt.mp inside), moved⟩

theorem took_of_acquire (acquired : s.lockAcquire k t next = some (.ok s'))
    (took : s.lock k = none ∨ s.lock k = some t →
      Took h s t pc next { s with lock := update s.lock k (some t) }) :
    ∃ next w, Took h s t pc next w ∧ w.move t next = s' := by
  obtain ⟨vacant, rfl⟩ := lockAcquire_ok acquired
  exact ⟨_, _, took vacant, rfl⟩

theorem Step.took (moved : Step h s t s') : ∃ next w, Took h s t (s.pc t) next w ∧ w.move t next = s' := by
  unfold Step at moved
  cases here : s.pc t with
  | search j => exact search_took moved here
  | eat j pc =>
    rw [step, here] at moved
    exact eatStep_took moved
  | asleep | done =>
    rw [step, here] at moved
    cases moved
  | acquire =>
    rw [step, here] at moved
    exact took_of_acquire moved .acquire
  | reacquire =>
    rw [step, here] at moved
    exact took_of_acquire moved .reacquire
  | acquireBowl j =>
    rw [step, here] at moved
    exact took_of_acquire moved .acquireBowl
  | testOwn =>
    simp only [step, here, Option.some.injEq, Except.ok.injEq] at moved
    by_cases full : s.eating (h.species t) = h.numBowls
    · rw [if_pos full] at moved
      exact ⟨_, _, .allEat full, moved⟩
    · rw [if_neg full] at moved
      exact ⟨_, _, .someRoom full, moved⟩
  | testOther =>
    simp only [step, here, Option.some.injEq, Except.ok.injEq] at moved
    by_cases others : 0 < s.eating (h.species t).other
    · rw [if_pos others] at moved
      exact ⟨_, _, .othersEat others, moved⟩
    · rw [if_neg others] at moved
      exact ⟨_, _, .pass (not_lt.mp others), moved⟩
  | wait | release j =>
    rw [step, here] at moved
    obtain ⟨after, freed, rest⟩ := bind_ok.mp (Option.some.inj moved)
    obtain ⟨held, rfl⟩ := lockRelease_ok freed
    exact ⟨_, _, by constructor; exact held, Except.ok.inj rest⟩
  | releaseBowl j =>
    rw [step, here] at moved
    obtain ⟨after, freed, rest⟩ := bind_ok.mp (Option.some.inj moved)
    obtain ⟨held, rfl⟩ := lockRelease_ok freed
    exact ⟨_, _, .releaseBowl held, Except.ok.inj rest⟩
  | sleep | noteWait | incRead _ | incWrite _ _ | mark _ | decRead _ | decWrite _ _ | unmark _ | wakeOther _
  | readWchan _ | readOther _ | wakeOwn _ | clearWchan _ =>
    rw [step, here] at moved
    exact ⟨_, _, by constructor, Except.ok.inj (Option.some.inj moved)⟩

theorem Took.view {X : Type} {f : T → Pc → X} (wakes : ∀ u, f u .asleep = f u .reacquire)
    (took : Took h s t pc next w) : (w.move t next).view f = update (s.view f) t (f t next) := by
  have woken (kind : Species) : (s.broadcast h.species kind).view f = s.view f := by
    funext u
    unfold Sim.view Sim.broadcast
    dsimp only
    by_cases hears : s.pc u = .asleep ∧ h.species u = kind
    · rw [if_pos hears, hears.1, wakes]
    · rw [if_neg hears]
  rw [Sim.view_move]
  cases took
  all_goals first | rfl | rw [woken]

theorem Took.cases_of_view {X : Type} (f : T → Pc → X) (wakes : ∀ u, f u .asleep = f u .reacquire)
    (took : Took h s t pc next w) (u : T) :
    (u = t ∧ f u ((w.move t next).pc u) = f t next) ∨ (u ≠ t ∧ f u ((w.move t next).pc u) = f u (s.pc u)) := by
  have here := congrFun (took.view wakes) u
  change f u ((w.move t next).pc u) = _ at here
  rw [here]
  by_cases same : u = t
  · subst same
    exact .inl ⟨rfl, update_self ..⟩
  · exact .inr ⟨same, update_of_ne same ..⟩

end

section

variable {h : Household T} {s s' : Sim T} {t : T}

theorem hold_finished {p : Prop} [Decidable p] : (if p then Pc.sleep else Pc.done).hold = .idle := by
  split <;> rfl

theorem Took.lockChange (took : Took h s t pc next w) : LockChange s.lock t pc.hold next.hold w.lock := by
  cases took with
  | acquire vacant => exact .enter vacant
  | reacquire vacant => exact .wake vacant
  | acquireBowl vacant => exact .take vacant
  | wait held => exact .wait
  | release held => exact .sit
  | missed out =>
    rw [hold_finished]
    exact .miss
  | releaseBowl held =>
    rw [hold_finished]
    exact .leave
  | readWchan | readOther =>
    split
    all_goals exact .same
  | _ => exact .same

theorem Locks.step (locks : Locks s) (moved : Step h s t s') : Locks s' := by
  obtain ⟨next, w, took, rfl⟩ := moved.took
  have change := took.lockChange
  intro u
  obtain ⟨rfl, here⟩ | ⟨apart, here⟩ := took.cases_of_view (fun _ => Pc.hold) (fun _ => rfl) u
  · rw [here]
    exact change.self (locks u)
  · rw [here]
    exact (locks u).congr (change.others (locks t) apart)

omit [DecidableEq T] in
theorem Locks.start : Locks (Sim.start h) := by
  intro t
  have idle : ((Sim.start h).pc t).hold = .idle := hold_finished
  rw [idle]
  exact fun _ => nofun

/-- The bowl of a thread that has chosen one -/
def Pc.aim : Pc → Option Nat
  | .acquireBowl j | .incRead j | .incWrite j _ | .mark j | .release j | .eat j _ | .decRead j | .decWrite j _
  | .unmark j | .wakeOther j | .readWchan j | .readOther j | .wakeOwn j | .clearWchan j | .releaseBowl j => some j
  | _ => none

/-- A chosen bowl exists. -/
def Aimed (h : Household T) (s : Sim T) : Prop := ∀ t j, (s.pc t).aim = some j → j < h.numBowls

theorem Took.aim (took : Took h s t pc next w) (aims : next.aim = some j) :
    pc.aim = some j ∨ j < h.numBowls := by
  cases took with
  | found inside vacant =>
    cases aims
    exact .inr inside
  | missed out | releaseBowl held =>
    split at aims
    all_goals cases aims
  | readWchan | readOther =>
    split at aims
    all_goals exact .inl aims
  | _ => exact .inl aims

theorem Aimed.step (aimed : Aimed h s) (moved : Step h s t s') : Aimed h s' := by
  obtain ⟨next, w, took, rfl⟩ := moved.took
  intro u j target
  obtain ⟨rfl, here⟩ | ⟨-, here⟩ := took.cases_of_view (fun _ => Pc.aim) (fun _ => rfl) u
  · rw [here] at target
    exact (took.aim target).elim (aimed u j) id
  · rw [here] at target
    exact aimed u j target

omit [DecidableEq T] in
theorem Aimed.start : Aimed h (Sim.start h) := by
  intro t j target
  change (if 0 < h.numLoops then Pc.sleep else Pc.done).aim = some j at target
  split at target
  all_goals cases target

end

end Os161.Synchprobs
