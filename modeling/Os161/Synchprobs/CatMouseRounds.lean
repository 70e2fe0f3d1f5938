import Os161.Synchprobs.CatMouseMeals

namespace Os161.Synchprobs
open Outcome Transition Tally Function Finset

/-- A statement starts here. The other places are in the middle of one: the test of the `while` loop, an update of a
counter, or the test before the second broadcast. -/
def Pc.starts : Pc → Bool
  | .testOther | .incWrite _ _ | .decWrite _ _ | .readOther _ | .eat _ (.countWrite _) | .eat _ (.uncountWrite _) =>
    false
  | _ => true

/-- The calls of the eat function of a thread with these locks in its iteration -/
def Hold.meals : Hold → Nat
  | .bowl _ => 1
  | _ => 0

/-- The bowl that bears the mark of the thread -/
def Pc.serves : Pc → Option Nat
  | .release j | .eat j _ | .decRead j | .decWrite j _ | .unmark j => some j
  | _ => none

def Pc.scans : Pc → Option Nat
  | .search j => some j
  | _ => none

variable {T : Type}

/-- The state after the whole next statement of a thread -/
def statement [DecidableEq T] (h : Household T) (s : Sim T) (t : T) : Option (Sim T) :=
  (advance h s t).bind fun middle => if (middle.pc t).starts then some middle else advance h middle t

def Statement [DecidableEq T] (h : Household T) (s : Sim T) (t : T) (s' : Sim T) : Prop := statement h s t = some s'

/-- A thread evaluates the test of its `while` loop only while no thread is between its `eating_cats--` or
`eating_mice--` and the `bowl[j] = '-'` after it. -/
def Settled (s : Sim T) (t : T) : Prop := s.pc t = .testOwn → ∀ u j, s.pc u ≠ .unmark j

/-- Every mark in the array `bowl` is that of a thread. -/
def Served (s : Sim T) : Prop := ∀ j, s.bowl j ≠ none → ∃ t, (s.pc t).serves = some j

/-- The search finds a bowl. -/
def Finds (h : Household T) (s : Sim T) : Prop :=
  ∀ t j, (s.pc t).scans = some j → ∃ k, j ≤ k ∧ k < h.numBowls ∧ s.bowl k = none

/-- Nobody keeps `lock[0]` after an iteration. -/
def Freed (s : Sim T) : Prop := ∀ t, (s.pc t).hold = .idle → s.lock 0 ≠ some t

def Fed (s : Sim T) : Prop := ∀ t, s.ate t = (s.pc t).hold.meals

variable [DecidableEq T] {h : Household T} {s s' : Sim T} {t : T}

/-- What a step does to the array `bowl` -/
inductive ServiceChange (s : Sim T) (t : T) : Option Nat → Option Nat → (Nat → Mark) → Prop where
  | same : ServiceChange s t bowl bowl s.bowl
  | mark : s.lock 0 = some t →
      ServiceChange s t none (some j) (update s.bowl j (some kind))
  | clear : ServiceChange s t (some j) none (update s.bowl j none)

variable {pc next : Pc} {w : Sim T}

theorem Took.serviceChange (took : Took h s t pc next w) (fits : pc.hold.Fits s.lock t) :
    ServiceChange s t pc.serves next.serves w.bowl := by
  cases took with
  | mark => exact .mark fits.1
  | unmark => exact .clear
  | missed | releaseBowl | readWchan | readOther => split <;> exact .same
  | _ => exact .same

theorem Served.step (served : Served s) (locks : Locks s) (moved : Step h s t s') : Served s' := by
  obtain ⟨next, w, took, rfl⟩ := moved.took
  have serves := took.cases_of_view (fun _ => Pc.serves) fun _ => rfl
  have change := took.serviceChange (locks t)
  intro j taken
  change w.bowl j ≠ none at taken
  generalize here : (s.pc t).serves = prev at change
  generalize there : next.serves = after at change serves
  generalize w.bowl = bowl at change taken
  have kept (old : s.bowl j ≠ none) (still : prev = some j → after = some j) :
      ∃ u, ((w.move t next).pc u).serves = some j := by
    obtain ⟨u, server⟩ := served j old
    obtain ⟨rfl, now⟩ | ⟨-, now⟩ := serves u
    · exact ⟨u, now.trans (still (here.symm.trans server))⟩
    · exact ⟨u, now.trans server⟩
  cases change with
  | same => exact kept taken id
  | @mark k kind holds =>
    by_cases same : j = k
    · subst same
      obtain ⟨-, now⟩ | ⟨apart, -⟩ := serves t
      · exact ⟨t, now⟩
      · exact absurd rfl apart
    · rw [update_of_ne same] at taken
      exact kept taken nofun
  | @clear k =>
    by_cases same : j = k
    · subst same
      exact absurd (update_self ..) taken
    · rw [update_of_ne same] at taken
      exact kept taken fun other => absurd (Option.some.inj other).symm same

/-- A thread that passes the test finds a bowl. -/
def Room (h : Household T) (s : Sim T) (t : T) : Prop :=
  s.pc t = .testOther → s.eating (h.species t).other ≤ 0 → ∃ k, k < h.numBowls ∧ s.bowl k = none

variable {j : Nat}

theorem Took.scans (took : Took h s t pc next w) (scans : next.scans = some j) :
    w.bowl = s.bowl ∧ (pc = .testOther ∧ s.eating (h.species t).other ≤ 0 ∧ j = 0 ∨
      ∃ i, pc = .search i ∧ s.bowl i ≠ none ∧ j = i + 1) := by
  cases took with
  | pass nobody =>
    cases scans
    exact ⟨rfl, .inl ⟨rfl, nobody, rfl⟩⟩
  | @taken i inside marked =>
    cases scans
    exact ⟨rfl, .inr ⟨i, rfl, marked, rfl⟩⟩
  | missed out | releaseBowl held | readWchan | readOther =>
    split at scans
    all_goals cases scans
  | _ => cases scans

theorem Pc.hold_of_scans (scans : pc.scans = some j) : pc.hold = .gate := by
  cases pc
  all_goals first | rfl | cases scans

theorem Finds.step (finds : Finds h s) (locks : Locks s) (room : Room h s t) (moved : Step h s t s') : Finds h s' := by
  obtain ⟨next, w, took, rfl⟩ := moved.took
  intro u j scans
  change ∃ k, j ≤ k ∧ k < h.numBowls ∧ w.bowl k = none
  obtain ⟨rfl, here⟩ | ⟨apart, here⟩ := took.cases_of_view (fun _ => Pc.scans) (fun _ => rfl) u
  · rw [here] at scans
    obtain ⟨same, ⟨place, nobody, rfl⟩ | ⟨i, place, marked, rfl⟩⟩ := took.scans scans
    · obtain ⟨k, inside, free⟩ := room place nobody
      exact ⟨k, Nat.zero_le k, inside, same ▸ free⟩
    · obtain ⟨k, after, inside, free⟩ := finds u i (by rw [place]; rfl)
      have other : k ≠ i := fun equal => marked (equal ▸ free)
      exact ⟨k, by omega, inside, same ▸ free⟩
  · rw [here] at scans
    obtain ⟨k, after, inside, free⟩ := finds u j scans
    -- the thread that searches holds `lock[0]`, so no bowl is marked meanwhile
    have holds : s.lock 0 = some u := by
      have fits := locks u
      rw [Pc.hold_of_scans scans] at fits
      exact fits.1
    have change := took.serviceChange (locks t)
    generalize (s.pc t).serves = prev at change
    generalize next.serves = now at change
    generalize w.bowl = bowl at change ⊢
    cases change with
    | same => exact ⟨k, after, inside, free⟩
    | mark gate => exact absurd (Option.some.inj (holds.symm.trans gate)) apart
    | @clear i =>
      refine ⟨k, after, inside, ?_⟩
      by_cases same : k = i
      · subst same
        exact update_self ..
      · rw [update_of_ne same]
        exact free

theorem Took.idle (took : Took h s t pc next w) (finds : Finds h s) (place : s.pc t = pc)
    (idle : next.hold = .idle) : pc.hold = .idle ∧ w.lock = s.lock ∨
      ∃ j, pc = .releaseBowl j ∧ w.lock = update s.lock (j + 1) none := by
  cases took with
  | sleep => exact .inl ⟨rfl, rfl⟩
  | @releaseBowl j held => exact .inr ⟨j, rfl, rfl⟩
  | @missed j out =>
    obtain ⟨k, after, inside, -⟩ := finds t j (by rw [place]; rfl)
    omega
  | readWchan | readOther =>
    split at idle
    all_goals cases idle
  | _ => cases idle

theorem Freed.step (freed : Freed s) (finds : Finds h s) (locks : Locks s) (moved : Step h s t s') : Freed s' := by
  obtain ⟨next, w, took, rfl⟩ := moved.took
  intro u idle
  change w.lock 0 ≠ some u
  obtain ⟨rfl, here⟩ | ⟨apart, here⟩ := took.cases_of_view (fun _ => Pc.hold) (fun _ => rfl) u
  · rw [here] at idle
    obtain ⟨prev, same⟩ | ⟨j, place, same⟩ := took.idle finds rfl idle
    · rw [same]
      exact freed u prev
    · rw [same]
      have fits := locks u
      rw [place] at fits
      exact fits.1
  · rw [here] at idle
    exact mt (took.lockChange.others (locks t) apart 0).mp (freed u idle)

theorem Took.ate (took : Took h s t pc next w) :
    w.ate = update s.ate t next.hold.meals ∨ w.ate = s.ate ∧ next.hold.meals = pc.hold.meals ∨
      w.ate = update s.ate t (s.ate t + 1) ∧ pc.hold.meals = 0 ∧ next.hold.meals = 1 := by
  cases took with
  | release held => exact .inr (.inr ⟨rfl, rfl, rfl⟩)
  | missed out | releaseBowl held =>
    rw [hold_finished]
    exact .inl rfl
  | readWchan | readOther =>
    refine .inr (.inl ⟨rfl, ?_⟩)
    split <;> rfl
  | _ => exact .inr (.inl ⟨rfl, rfl⟩)

theorem Fed.step (fed : Fed s) (moved : Step h s t s') : Fed s' := by
  obtain ⟨next, w, took, rfl⟩ := moved.took
  intro u
  change w.ate u = _
  obtain ⟨rfl, here⟩ | ⟨apart, here⟩ := took.cases_of_view (fun _ pc => pc.hold.meals) (fun _ => rfl) u
  · rw [here]
    obtain after | ⟨after, same⟩ | ⟨after, none, one⟩ := took.ate
    · rw [after, update_self]
    · rw [after, same]
      exact fed u
    · rw [after, update_self, fed u, none, one]
  · rw [here, ← fed u]
    obtain after | ⟨after, same⟩ | ⟨after, none, one⟩ := took.ate
    · rw [after, update_of_ne apart]
    · rw [after]
    · rw [after, update_of_ne apart]

omit [DecidableEq T] in
theorem Pc.seat_of_counted {lock : Nat → Option T} {pc : Pc} (fits : pc.hold.Fits lock t)
    (counted : pc.counted = true) : ∃ j, pc.aim = some j ∧ ∀ k, lock (k + 1) = some t ↔ k = j := by
  cases pc with
  | mark j | release j | eat j pc | decRead j | decWrite j value => exact ⟨j, rfl, fits.2⟩
  | _ => cases counted

theorem Pc.counted_of_serves (serves : pc.serves = some j) :
    pc = .unmark j ∨ pc.counted = true ∧ pc.aim = some j := by
  cases pc with
  | release i | eat i pc | decRead i | decWrite i value => exact .inr ⟨rfl, serves⟩
  | unmark i =>
    cases serves
    exact .inl rfl
  | _ => cases serves

omit [DecidableEq T] in
theorem bowl_left [Fintype T] (orderly : Orderly h s) (served : Served s)
    (settled : ∀ u j, s.pc u ≠ .unmark j) (room : s.eating kind ≠ h.numBowls)
    (nobody : s.eating kind.other ≤ 0) : ∃ k, k < h.numBowls ∧ s.bowl k = none := by
  by_contra full
  push Not at full
  have same (u : T) (counted : (s.pc u).counted = true) : h.species u = kind := by
    by_contra differ
    have out : (s.pc u).counted = false := orderly.eating.none_of_nonpos nobody (Species.eq_other differ)
    exact absurd (out.symm.trans counted) nofun
  have eater (j : Nat) (inside : j < h.numBowls) : ∃ u, (s.pc u).counted = true ∧ (s.pc u).aim = some j := by
    obtain ⟨u, serves⟩ := served j (full j inside)
    rcases Pc.counted_of_serves serves with leaving | found
    · exact absurd leaving (settled u j)
    · exact ⟨u, found⟩
  have total := orderly.eating.total kind
  set eaters := members h.species (s.view fun _ => Pc.counted) kind
  -- the bowls of the counted threads are all the bowls, each of them once
  have many : (Finset.range h.numBowls).card ≤ eaters.card := by
    refine card_le_card_of_surjOn (fun u => (s.pc u).aim.getD 0) ?_
    intro j inside
    obtain ⟨u, counted, aims⟩ := eater j (mem_range.mp inside)
    exact ⟨u, mem_members.mpr ⟨same u counted, counted⟩, by simp [aims]⟩
  have chair {u : T} (mem : u ∈ eaters) :
      (s.pc u).aim.getD 0 < h.numBowls ∧ s.lock ((s.pc u).aim.getD 0 + 1) = some u := by
    obtain ⟨-, counted⟩ := mem_members.mp mem
    obtain ⟨j, aims, seat⟩ := Pc.seat_of_counted (orderly.locks u) counted
    rw [aims]
    exact ⟨orderly.aimed u j aims, (seat j).mpr rfl⟩
  have few : eaters.card ≤ (Finset.range h.numBowls).card := by
    refine card_le_card_of_injOn (fun u => (s.pc u).aim.getD 0) ?_ ?_
    · intro u mem
      exact mem_range.mpr (chair mem).1
    · intro u first v second equal
      have one := (chair first).2
      rw [show (s.pc u).aim.getD 0 = (s.pc v).aim.getD 0 from equal, (chair second).2] at one
      exact (Option.some.inj one).symm
  rw [card_range] at many few
  exact room (by omega)

/-- What holds between two statements of a run that meets the condition -/
structure Tidy [Fintype T] (h : Household T) (s : Sim T) : Prop where
  orderly : Orderly h s
  served : Served s
  finds : Finds h s
  freed : Freed s
  fed : Fed s

theorem Tidy.step [Fintype T] (tidy : Tidy h s) (meets : Meets h s t) (room : Room h s t) (moved : Step h s t s') :
    Tidy h s' where
  orderly := tidy.orderly.step meets moved
  served := tidy.served.step tidy.orderly.locks moved
  finds := tidy.finds.step tidy.orderly.locks room moved
  freed := tidy.freed.step tidy.finds tidy.orderly.locks moved
  fed := tidy.fed.step moved

/-- Every thread is at the start of a statement. -/
def Rested (s : Sim T) : Prop := ∀ t, (s.pc t).starts = true

theorem Pc.register_of_starts (starts : pc.starts = true) : pc.register = none := by
  cases pc
  all_goals first | rfl | cases starts

theorem Pc.updates_of_middle (middle : pc.starts = false) : pc.updates = false := by
  cases pc
  all_goals first | rfl | cases middle

omit [DecidableEq T] in
theorem Rested.meets (rested : Rested s) : Meets h s t := fun _ u _ _ => Pc.register_of_starts (rested u)

omit [DecidableEq T] in
theorem Rested.room (rested : Rested s) : Room h s t := by
  intro place
  have starts := rested t
  rw [place] at starts
  cases starts

theorem Statement.cases (moved : Statement h s t s') :
    Step h s t s' ∧ (s'.pc t).starts = true ∨
      ∃ middle, Step h s t middle ∧ (middle.pc t).starts = false ∧ Step h middle t s' := by
  obtain ⟨middle, first, rest⟩ := Option.bind_eq_some_iff.mp moved
  by_cases starts : (middle.pc t).starts = true
  · rw [if_pos starts] at rest
    cases rest
    exact .inl ⟨advance_eq_some.mp first, starts⟩
  · rw [if_neg starts] at rest
    exact .inr ⟨middle, advance_eq_some.mp first, by simpa using starts, advance_eq_some.mp rest⟩

theorem Took.starts (took : Took h s t pc next w) (middle : pc.starts = false) :
    next.starts = true := by
  cases took with
  | uncountWrite => cases h.species t <;> rfl
  | readOther => split <;> rfl
  | _ => first | rfl | cases middle

theorem Rested.step (rested : ∀ u, u ≠ t → (s.pc u).starts = true) (moved : Step h s t s') (u : T) (apart : u ≠ t) :
    (s'.pc u).starts = true := by
  obtain ⟨next, w, took, rfl⟩ := moved.took
  obtain ⟨same, -⟩ | ⟨-, here⟩ := took.cases_of_view (fun _ => Pc.starts) (fun _ => rfl) u
  · exact absurd same apart
  · rw [here]
    exact rested u apart

theorem Rested.statement (rested : Rested s) (moved : Statement h s t s') : Rested s' := by
  intro u
  obtain ⟨moved, starts⟩ | ⟨middle, first, inside, second⟩ := moved.cases
  · by_cases same : u = t
    · rw [same]
      exact starts
    · exact Rested.step (fun u _ => rested u) moved u same
  · by_cases same : u = t
    · subst same
      obtain ⟨next, w, took, rfl⟩ := second.took
      obtain ⟨-, here⟩ | ⟨apart, -⟩ := took.cases_of_view (fun _ => Pc.starts) (fun _ => rfl) u
      · rw [here]
        exact took.starts inside
      · exact absurd rfl apart
    · exact Rested.step (Rested.step (fun u _ => rested u) first) second u same

theorem Took.tests (took : Took h s t pc next w) (tests : next = .testOther) :
    pc = .testOwn ∧ w = s ∧ s.eating (h.species t) ≠ h.numBowls := by
  cases took with
  | someRoom room => exact ⟨rfl, rfl, room⟩
  | missed out | releaseBowl held | readWchan | readOther =>
    split at tests
    all_goals cases tests
  | _ => cases tests

theorem Tidy.room [Fintype T] (tidy : Tidy h s) (settled : Settled s t) (moved : Step h s t s') : Room h s' t := by
  obtain ⟨next, w, took, rfl⟩ := moved.took
  intro place nobody
  have arrives : (w.move t next).pc t = next := update_self ..
  obtain ⟨start, rfl, room⟩ := took.tests (arrives.symm.trans place)
  have left : ∃ k, k < h.numBowls ∧ w.bowl k = none :=
    bowl_left tidy.orderly tidy.served (settled start) room nobody
  exact left

theorem Tidy.statement [Fintype T] (tidy : Tidy h s) (rested : Rested s) (settled : Settled s t)
    (moved : Statement h s t s') : Tidy h s' := by
  obtain ⟨moved, -⟩ | ⟨middle, first, inside, second⟩ := moved.cases
  · exact tidy.step rested.meets rested.room moved
  · have within := tidy.step rested.meets rested.room first
    refine within.step (fun updates => ?_) (tidy.room settled first) second
    rw [Pc.updates_of_middle inside] at updates
    cases updates

theorem Took.completes (took : Took h s t pc next w) (completes : w.round t ≠ s.round t) :
    next.starts = true ∧ ((∃ j, pc = .search j ∧ h.numBowls ≤ j) ∨
      ∃ j, pc = .releaseBowl j ∧ w.lock = update s.lock (j + 1) none) := by
  cases took with
  | @missed j out =>
    refine ⟨?_, .inl ⟨j, rfl, out⟩⟩
    split <;> rfl
  | @releaseBowl j held =>
    refine ⟨?_, .inr ⟨j, rfl, rfl⟩⟩
    split <;> rfl
  | _ => exact absurd rfl completes

theorem Tidy.completes [Fintype T] (tidy : Tidy h s) (moved : Step h s t s') (completes : s'.round t ≠ s.round t) :
    s.ate t = 1 ∧ ∀ k, s'.lock k ≠ some t := by
  obtain ⟨next, w, took, rfl⟩ := moved.took
  obtain ⟨-, ⟨j, place, out⟩ | ⟨j, place, freed⟩⟩ := took.completes completes
  · obtain ⟨k, after, inside, -⟩ := tidy.finds t j (by rw [place]; rfl)
    omega
  · have fits := tidy.orderly.locks t
    rw [place] at fits
    have fed := tidy.fed t
    rw [place] at fed
    refine ⟨fed, fun k => ?_⟩
    change w.lock k ≠ some t
    rw [freed]
    by_cases same : k = j + 1
    · rw [same, update_self]
      nofun
    · rw [update_of_ne same]
      cases k with
      | zero => exact fits.1
      | succ i => exact fun held => same (congrArg (· + 1) ((fits.2 i).mp held))

omit [DecidableEq T] in
theorem Tidy.start [Fintype T] : Tidy h (Sim.start h) ∧ Rested (Sim.start h) := by
  refine ⟨⟨Orderly.start, fun j marked => absurd rfl marked, ?_, fun t _ => nofun, ?_⟩, ?_⟩
  · intro t j scans
    rcases Sim.start_pc t with place | place
    · rw [place] at scans
      cases scans
    · rw [place] at scans
      cases scans
  · intro t
    rcases Sim.start_pc t with place | place
    · rw [place]
      rfl
    · rw [place]
      rfl
  · intro t
    rcases Sim.start_pc t with place | place
    · rw [place]
      rfl
    · rw [place]
      rfl

/-- In a settled run an iteration that ends has eaten once. -/
theorem every_animal_eats [Fintype T] {order : List T}
    (reached : Run (fun s t s' => Statement h s t s' ∧ Settled s t) (Sim.start h) order s)
    (moved : Statement h s t s') (completes : s'.round t ≠ s.round t) :
    s.ate t = 1 ∧ ∀ k, s'.lock k ≠ some t := by
  have keeps (s : Sim T) (t : T) (s' : Sim T) (held : Tidy h s ∧ Rested s)
      (moved : Statement h s t s' ∧ Settled s t) : Tidy h s' ∧ Rested s' :=
    ⟨held.1.statement held.2 moved.2 moved.1, held.2.statement moved.1⟩
  obtain ⟨tidy, rested⟩ := reached.invariant keeps Tidy.start
  obtain ⟨moved, -⟩ | ⟨middle, first, inside, second⟩ := moved.cases
  · exact tidy.completes moved completes
  · -- neither half of a longer statement ends an iteration
    have early : middle.round t = s.round t := by
      by_contra changes
      obtain ⟨next, w, took, rfl⟩ := first.took
      have starts := (took.completes changes).1
      rw [show (w.move t next).pc t = next from update_self .., starts] at inside
      cases inside
    have late : s'.round t = middle.round t := by
      by_contra changes
      obtain ⟨next, w, took, rfl⟩ := second.took
      obtain ⟨-, ⟨j, place, -⟩ | ⟨j, place, -⟩⟩ := took.completes changes
      all_goals
        rw [place] at inside
        cases inside
    exact absurd (late.trans early) completes

instance [Fintype T] (s : Sim T) (t : T) : Decidable (Settled s t) :=
  decidable_of_iff (s.pc t = .testOwn → ∀ u, ∀ j ∈ (s.pc u).serves, s.pc u ≠ .unmark j)
    ⟨fun all here u j same => all here u j (by rw [same]; rfl) same, fun all here u j _ => all here u j⟩

theorem every_animal_eats_allEat : ∃ s s',
    Run (fun s t s' => Statement twoCatsOneMouse s t s' ∧ Settled s t)
      (Sim.start twoCatsOneMouse) allEat s ∧
    Statement twoCatsOneMouse s 2 s' ∧ s.round 2 = 0 ∧ s'.round 2 = 1 ∧
    s.ate 2 = 1 ∧ ∀ k, s'.lock k ≠ some 2 := by
  have played : ((play (fun s t => if Settled s t then statement twoCatsOneMouse s t else none) allEat
      (Sim.start twoCatsOneMouse)).bind fun s =>
        (statement twoCatsOneMouse s 2).map fun s' => (s.round 2, s'.round 2)) = some (0, 1) := by
    decide +kernel
  obtain ⟨s, reached, last⟩ := Option.bind_eq_some_iff.mp played
  obtain ⟨s', moved, rounds⟩ := Option.map_eq_some_iff.mp last
  obtain ⟨before, after⟩ := Prod.mk.inj rounds
  have settled := (play_run reached).mono fun s t s' moved => by
    obtain ⟨settled, moved⟩ := Option.ite_none_right_eq_some.mp moved
    exact And.intro moved settled
  exact ⟨s, s', settled, moved, before, after, every_animal_eats settled moved (by omega)⟩

/-- Two cats at one bowl, in one round -/
def twoCats : Household (Fin 2) where
  species _ := .cat
  numBowls := 1
  numLoops := 1

/-- The second cat passes the test and sees the bowl still marked. -/
theorem cat_goes_hungry : ∃ s s',
    Run (Statement twoCats) (Sim.start twoCats) (List.replicate 24 0 ++ List.replicate 4 1) s ∧
    Statement twoCats s 1 s' ∧ s.round 1 = 0 ∧ s'.round 1 = 1 ∧ s.ate 1 = 0 ∧ s'.lock 0 = some 1 := by
  have played : ((play (statement twoCats) (List.replicate 24 0 ++ List.replicate 4 1)
      (Sim.start twoCats)).bind fun s =>
      (statement twoCats s 1).map fun s' => (s.round 1, s'.round 1, s.ate 1, s'.lock 0)) =
        some (0, 1, 0, some 1) := by decide
  obtain ⟨s, reached, last⟩ := Option.bind_eq_some_iff.mp played
  obtain ⟨s', moved, values⟩ := Option.map_eq_some_iff.mp last
  simp only [Prod.mk.injEq] at values
  exact ⟨s, s', play_run reached, moved, values⟩

end Os161.Synchprobs
