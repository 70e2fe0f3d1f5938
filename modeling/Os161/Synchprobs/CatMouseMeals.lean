import Os161.Lib.Tally
import Os161.Synchprobs.CatMouseLocks

namespace Os161.Synchprobs
open Outcome Transition Tally Function

/-- A thread that `eating_cats` or `eating_mice` counts -/
def Pc.counted : Pc → Bool
  | .mark _ | .release _ | .eat _ _ | .decRead _ | .decWrite _ _ => true
  | _ => false

/-- The value a thread has read of the counter and not yet written back -/
def Pc.register : Pc → Option Int
  | .incWrite _ value | .decWrite _ value => some value
  | _ => none

/-- A thread that is about to read the counter for an update -/
def Pc.updates : Pc → Bool
  | .incRead _ | .decRead _ => true
  | _ => false

/-- A thread that has passed the test of the `while` loop and is not out of the count again -/
def Pc.commits : Pc → Bool
  | .search _ | .acquireBowl _ | .incRead _ | .incWrite _ _ => true
  | pc => pc.counted

/-- The trace a thread leaves in the variables of `bowls.c` -/
structure Meal where
  inside : Bool
  counted : Bool
  marked : Bool
  register : Option Int

def EatPc.meal (kind : Species) : EatPc → Meal
  | .argument | .enter => ⟨false, false, false, none⟩
  | .checkOwn | .checkOther | .assertFree | .assertNone | .countRead => ⟨true, false, false, none⟩
  | .countWrite value => ⟨true, false, false, some value⟩
  | .occupy => ⟨true, true, false, none⟩
  | .leave => ⟨true, true, true, none⟩
  | .reenter => ⟨false, true, true, none⟩
  | .assertCount | .uncountRead => ⟨true, true, true, none⟩
  | .assertOwn => match kind with
      | .cat => ⟨true, true, true, none⟩
      | .mouse => ⟨true, false, true, none⟩
  | .uncountWrite value => ⟨true, true, true, some value⟩
  | .vacate => ⟨true, false, true, none⟩
  | .finish => ⟨true, false, false, none⟩

def Pc.meal (kind : Species) : Pc → Meal
  | .eat _ pc => pc.meal kind
  | _ => ⟨false, false, false, none⟩

theorem Pc.counted_of_meal {pc : Pc} (eats : (pc.meal kind).counted = true) : pc.counted = true := by
  cases pc
  all_goals first | rfl | cases eats

theorem Meal.inside_of_register {pc : Pc} (reads : (pc.meal kind).register ≠ none) :
    (pc.meal kind).inside = true := by
  cases pc with
  | eat j pc =>
    cases pc with
    | countWrite | uncountWrite => rfl
    | assertOwn => cases kind <;> exact absurd rfl reads
    | _ => exact absurd rfl reads
  | _ => exact absurd rfl reads

variable {T : Type}

theorem Pc.gate_of_commits {lock : Nat → Option T} {t : T} {pc : Pc} (fits : pc.hold.Fits lock t)
    (commits : pc.commits = true) : pc.counted = true ∨ lock 0 = some t := by
  cases pc with
  | search | acquireBowl | incRead | incWrite => exact .inr fits.1
  | _ => exact .inl commits

/-- A thread begins an update of its counter only while no other thread of its kind is between the read and the write
of one. -/
def Meets (h : Household T) (s : Sim T) (t : T) : Prop :=
  (s.pc t).updates = true → ∀ u, u ≠ t → h.species u = h.species t → (s.pc u).register = none

theorem Species.eq_other {a b : Species} (differ : a ≠ b) : a = b.other := by
  cases a <;> cases b <;> first | rfl | exact absurd rfl differ

variable [DecidableEq T] {h : Household T} {s s' : Sim T} {t : T}

theorem Took.eatingChange (took : Took h s t pc next w) :
    Change s.eating (h.species t) pc.counted pc.register (pc.updates = true) next.counted next.register w.eating := by
  cases took with
  | incRead | decRead => exact .read rfl
  | incWrite => exact .up rfl rfl
  | decWrite => exact .down rfl rfl
  | missed | releaseBowl | readWchan | readOther => split <;> exact .same
  | _ => exact .same

theorem Took.countChange (took : Took h s t pc next w) :
    Change s.count (h.species t) (pc.meal (h.species t)).counted (pc.meal (h.species t)).register
      ((pc.meal (h.species t)).inside = true) (next.meal (h.species t)).counted (next.meal (h.species t)).register
      w.count := by
  cases took with
  | countRead | uncountRead => exact .read rfl
  | countWrite => exact .up rfl rfl
  | uncountWrite =>
    cases h.species t
    all_goals exact .down rfl rfl
  | assertCount | assertOwn =>
    cases h.species t
    all_goals exact .same
  | missed | releaseBowl | readWchan | readOther => split <;> exact .same
  | _ => exact .same

theorem Took.passage (took : Took h s t pc next w) :
    Passage s.mutex (pc.meal (h.species t)).inside (next.meal (h.species t)).inside w.mutex := by
  cases took with
  | enter vacant | reenter vacant => exact .enter vacant rfl
  | leave | finish => exact .leave rfl
  | uncountWrite | assertCount | assertOwn =>
    cases h.species t
    all_goals exact .same
  | missed | releaseBowl | readWchan | readOther => split <;> exact .same
  | _ => exact .same

/-- What a step does to the array `bowls`, and to the locks of the bowls -/
inductive BowlChange (h : Household T) (s : Sim T) (t : T) : Bool → Bool → (Nat → Option T) → (Nat → Mark) → Prop where
  | same {lock : Nat → Option T} : (∀ j, lock (j + 1) = s.lock (j + 1)) →
      BowlChange h s t marked marked lock s.bowls
  | take : s.lock (j + 1) = none ∨ s.lock (j + 1) = some t →
      BowlChange h s t false false (update s.lock (j + 1) (some t)) s.bowls
  | leave : s.lock (j + 1) = some t →
      BowlChange h s t false false (update s.lock (j + 1) none) s.bowls
  | mark : (∀ k, s.lock (k + 1) = some t ↔ k = j) →
      BowlChange h s t false true s.lock (update s.bowls j (some (h.species t)))
  | clear : (∀ k, s.lock (k + 1) = some t ↔ k = j) →
      BowlChange h s t true false s.lock (update s.bowls j none)

theorem Took.bowlChange (took : Took h s t pc next w) (fits : pc.hold.Fits s.lock t) :
    BowlChange h s t (pc.meal (h.species t)).marked (next.meal (h.species t)).marked w.lock w.bowls := by
  cases took with
  | acquireBowl vacant => exact .take vacant
  | releaseBowl held => split <;> exact .leave held
  | occupy => exact .mark fits.2
  | vacate => exact .clear fits.2
  | acquire vacant => exact .same fun _ => rfl
  | uncountWrite | assertCount | assertOwn =>
    cases h.species t
    all_goals exact .same fun _ => rfl
  | missed out | readWchan | readOther => split <;> exact .same fun _ => rfl
  | _ => exact .same fun _ => rfl

/-- The threads that `eating_cats` and `eating_mice` count are the ones that are to be counted. -/
def Eating [Fintype T] (h : Household T) (s : Sim T) : Prop :=
  Counts h.species s.eating (s.view fun _ => Pc.counted) (s.view fun _ => Pc.register)

/-- Animals of two kinds do not eat together, and none may start while one of the other kind eats. -/
def Apart (h : Household T) (s : Sim T) : Prop :=
  ∀ t u, (s.pc t).commits = true → (s.pc u).counted = true → h.species t = h.species u

def Guarded [Fintype T] (h : Household T) (s : Sim T) : Prop :=
  Excludes s.mutex (s.view fun u pc => (pc.meal (h.species u)).inside)

/-- The counters of `bowls.c` are right. -/
def Counted [Fintype T] (h : Household T) (s : Sim T) : Prop :=
  Counts h.species s.count (s.view fun u pc => (pc.meal (h.species u)).counted)
    (s.view fun u pc => (pc.meal (h.species u)).register)

/-- A bowl is marked by the thread that holds its lock. -/
def Marked (h : Household T) (s : Sim T) : Prop :=
  ∀ j, s.bowls j = (s.lock (j + 1)).bind fun t =>
    if ((s.pc t).meal (h.species t)).marked then some (h.species t) else none

theorem Eating.step [Fintype T] (eating : Eating h s) (meets : Meets h s t) (moved : Step h s t s') : Eating h s' := by
  obtain ⟨next, w, took, rfl⟩ := moved.took
  have change := Counts.change eating took.eatingChange (by
    intro reads u held together
    by_contra apart
    exact held (meets reads u apart together))
  unfold Eating
  rw [took.view fun _ => rfl, took.view fun _ => rfl]
  exact change

theorem Took.counted {pc next : Pc} {w : Sim T} (took : Took h s t pc next w) (fits : pc.hold.Fits s.lock t)
    (eats : next.counted = true) : pc.counted = true ∨ pc.commits = true ∧ s.lock 0 = some t := by
  cases took with
  | incWrite => exact .inr ⟨rfl, fits.1⟩
  | decWrite => cases eats
  | missed out | releaseBowl held | readWchan | readOther =>
    split at eats
    all_goals cases eats
  | _ => exact .inl eats

theorem Took.commits {pc next : Pc} {w : Sim T} (took : Took h s t pc next w) (commits : next.commits = true) :
    pc.commits = true ∨ s.eating (h.species t).other ≤ 0 := by
  cases took with
  | pass none => exact .inr none
  | decWrite => cases commits
  | missed out | releaseBowl held | readWchan | readOther =>
    split at commits
    all_goals cases commits
  | _ => exact .inl commits

theorem Apart.step [Fintype T] (apart : Apart h s) (locks : Locks s) (eating : Eating h s) (moved : Step h s t s') :
    Apart h s' := by
  obtain ⟨next, w, took, rfl⟩ := moved.took
  intro a b commits counted
  obtain ⟨rfl, here⟩ | ⟨first, here⟩ := took.cases_of_view (fun _ => Pc.commits) (fun _ => rfl) a
  · rw [here] at commits
    obtain ⟨rfl, there⟩ | ⟨second, there⟩ := took.cases_of_view (fun _ => Pc.counted) (fun _ => rfl) b
    · rfl
    · rw [there] at counted
      rcases took.commits commits with prev | nobody
      · exact apart a b prev counted
      · by_contra differ
        have out := eating.none_of_nonpos nobody (Species.eq_other (Ne.symm differ))
        exact absurd (out.symm.trans counted) nofun
  · rw [here] at commits
    obtain ⟨rfl, there⟩ | ⟨second, there⟩ := took.cases_of_view (fun _ => Pc.counted) (fun _ => rfl) b
    · rw [there] at counted
      rcases took.counted (locks b) counted with prev | ⟨ready, holds⟩
      · exact apart a b commits prev
      · -- the thread that joins the count holds `lock[0]`, so the other one is counted already
        rcases Pc.gate_of_commits (locks a) commits with already | gate
        · exact (apart b a ready already).symm
        · exact absurd (Option.some.inj (gate.symm.trans holds)) first
    · rw [there] at counted
      exact apart a b commits counted

theorem Guarded.step [Fintype T] (guarded : Guarded h s) (moved : Step h s t s') : Guarded h s' := by
  obtain ⟨next, w, took, rfl⟩ := moved.took
  have after := Excludes.passage guarded took.passage
  unfold Guarded
  rw [took.view fun _ => rfl]
  exact after

theorem Counted.step [Fintype T] (counted : Counted h s) (guarded : Guarded h s) (moved : Step h s t s') :
    Counted h s' := by
  obtain ⟨next, w, took, rfl⟩ := moved.took
  have change := Counts.change counted took.countChange (by
    intro inside u held together
    exact guarded.unique (Meal.inside_of_register held) inside)
  unfold Counted
  rw [took.view fun _ => rfl, took.view fun _ => rfl]
  exact change

theorem bind_update {mark : T → Bool} {now : Bool} {holder : Option T} (elsewhere : holder ≠ some t) :
    (holder.bind fun u => if update mark t now u then some (h.species u) else none) =
      holder.bind fun u => if mark u then some (h.species u) else none := by
  cases holder with
  | none => rfl
  | some u =>
    have apart : u ≠ t := fun same => elsewhere (congrArg some same)
    simp [apart]

theorem BowlChange.marked (mark : T → Bool) {now next : Bool} {lock : Nat → Option T} {bowls : Nat → Mark}
    (change : BowlChange h s t now next lock bowls) (here : mark t = now)
    (prev : ∀ j, s.bowls j = (s.lock (j + 1)).bind fun u => if mark u then some (h.species u) else none) (j : Nat) :
    bowls j = (lock (j + 1)).bind fun u => if update mark t next u then some (h.species u) else none := by
  cases change with
  | same keep =>
    rw [keep j, ← here, update_eq_self]
    exact prev j
  | @take k vacant =>
    rw [← here, update_eq_self, prev j]
    by_cases same : j = k
    · subst same
      rw [update_self]
      rcases vacant with vacant | vacant
      · simp [vacant, here]
      · rw [vacant]
    · rw [update_of_ne (by omega)]
  | @leave k held =>
    rw [← here, update_eq_self, prev j]
    by_cases same : j = k
    · subst same
      simp [held, here]
    · rw [update_of_ne (by omega)]
  | @mark k held | @clear k held =>
    by_cases same : j = k
    · subst same
      simp [(held j).mpr rfl]
    · rw [update_of_ne same, prev j, bind_update (mt (held j).mp same)]

theorem Marked.step (marked : Marked h s) (locks : Locks s) (moved : Step h s t s') : Marked h s' := by
  obtain ⟨next, w, took, rfl⟩ := moved.took
  have marks := took.view (f := fun u pc => (pc.meal (h.species u)).marked) fun _ => rfl
  intro j
  have after := (took.bowlChange (locks t)).marked (s.view fun u pc => (pc.meal (h.species u)).marked) rfl marked j
  rw [← marks] at after
  exact after

/-- What holds of every state of a run that meets the condition -/
structure Orderly [Fintype T] (h : Household T) (s : Sim T) : Prop where
  locks : Locks s
  aimed : Aimed h s
  eating : Eating h s
  apart : Apart h s
  guarded : Guarded h s
  counted : Counted h s
  marked : Marked h s

theorem Orderly.step [Fintype T] (orderly : Orderly h s) (meets : Meets h s t) (moved : Step h s t s') :
    Orderly h s' where
  locks := orderly.locks.step moved
  aimed := orderly.aimed.step moved
  eating := orderly.eating.step meets moved
  apart := orderly.apart.step orderly.locks orderly.eating moved
  guarded := orderly.guarded.step moved
  counted := orderly.counted.step orderly.guarded moved
  marked := orderly.marked.step orderly.locks moved

omit [DecidableEq T] in
theorem Sim.start_pc (t : T) : (Sim.start h).pc t = .sleep ∨ (Sim.start h).pc t = .done := by
  change (if 0 < h.numLoops then Pc.sleep else Pc.done) = _ ∨ (if 0 < h.numLoops then Pc.sleep else Pc.done) = _
  split
  · exact .inl rfl
  · exact .inr rfl

omit [DecidableEq T] in
theorem Orderly.start [Fintype T] : Orderly h (Sim.start h) := by
  have uniform {X : Type} (f : T → Pc → X) (x : X) (sleeping : ∀ t, f t .sleep = x) (finished : ∀ t, f t .done = x) :
      (Sim.start h).view f = fun _ => x := by
    funext t
    unfold Sim.view
    rcases Sim.start_pc t with place | place
    · rw [place, sleeping]
    · rw [place, finished]
  have counts {value : Species → Int} (zero : ∀ kind, value kind = 0) :
      Counts h.species value (fun _ => false) fun _ => none := by
    constructor
    · intro kind
      simp [members, zero]
    · simp
    · exact fun _ _ none => absurd rfl none
  refine ⟨Locks.start, Aimed.start, ?_, ?_, ?_, ?_, fun j => rfl⟩
  · unfold Eating
    rw [uniform _ false (fun _ => rfl) fun _ => rfl, uniform _ none (fun _ => rfl) fun _ => rfl]
    exact counts fun _ => rfl
  · intro t u commits
    rcases Sim.start_pc t with place | place
    · rw [place] at commits
      cases commits
    · rw [place] at commits
      cases commits
  · unfold Guarded Excludes
    rw [uniform _ false (fun _ => rfl) fun _ => rfl]
    simp [members, Sim.start]
  · unfold Counted
    rw [uniform _ false (fun _ => rfl) fun _ => rfl, uniform _ none (fun _ => rfl) fun _ => rfl]
    exact counts fun _ => rfl

theorem lockRelease_held (held : s.lock k = some t) :
    s.lockRelease k t = .ok { s with lock := update s.lock k none } := by
  simp [Sim.lockRelease, kassert, held]

theorem eatStep_safe {pc : EatPc} (inside : j < h.numBowls)
    (bowl : s.bowls j = if (pc.meal (h.species t)).marked then some (h.species t) else none)
    (nobody : s.count (h.species t).other = 0)
    (own : (pc.meal (h.species t)).counted = true → 0 < s.count (h.species t)) (problem : Panic) :
    eatStep h s t j pc ≠ some (.error problem) := by
  cases pc with
  | argument =>
    rw [eatStep, if_neg (by omega)]
    rintro ⟨⟩
  | checkOwn =>
    rw [eatStep, bowl]
    rintro ⟨⟩
  | checkOther =>
    rw [eatStep, nobody]
    rintro ⟨⟩
  | assertFree =>
    have free : s.bowls j = none := bowl
    simp [eatStep, kassert, free]
  | assertNone => simp [eatStep, kassert, nobody]
  | assertCount =>
    have some : 0 < s.count (h.species t) := own rfl
    simp [eatStep, kassert, some]
  | assertOwn =>
    have marked : s.bowls j = some (h.species t) := by
      rw [bowl]
      cases h.species t <;> rfl
    simp [eatStep, kassert, marked]
  | enter | reenter =>
    rw [eatStep, Sim.down]
    split
    all_goals rintro ⟨⟩
  | _ => rintro ⟨⟩

theorem step_safe [Fintype T] (orderly : Orderly h s) (t : T) (problem : Panic) :
    step h s t ≠ some (.error problem) := by
  have fits := orderly.locks t
  cases here : s.pc t with
  | eat j pc =>
    rw [here] at fits
    rw [step, here]
    refine eatStep_safe (orderly.aimed t j (by rw [here]; rfl)) ?_ ?_ ?_ problem
    · rw [orderly.marked j, (fits.2 j).mpr rfl, Option.bind_some, here]
      rfl
    · -- an eating animal of the other kind would be counted together with this one
      rw [orderly.counted.total, Int.natCast_eq_zero, Finset.card_eq_zero, Finset.eq_empty_iff_forall_notMem]
      intro u mem
      obtain ⟨kind, eats⟩ := mem_members.mp mem
      have same := orderly.apart t u (by rw [here]; rfl) (Pc.counted_of_meal eats)
      rw [← same] at kind
      revert kind
      cases h.species t <;> decide
    · intro eats
      refine orderly.counted.pos ?_
      change ((s.pc t).meal (h.species t)).counted = true
      rw [here]
      exact eats
  | wait | release j =>
    rw [here] at fits
    rw [step, here]
    rw [lockRelease_held fits.1]
    rintro ⟨⟩
  | releaseBowl j =>
    rw [here] at fits
    rw [step, here]
    dsimp only
    rw [lockRelease_held ((fits.2 j).mpr rfl)]
    rintro ⟨⟩
  | acquire | reacquire | acquireBowl j =>
    rw [step, here]
    dsimp only
    rw [Sim.lockAcquire]
    split
    all_goals rintro ⟨⟩
  | _ =>
    rw [step, here]
    rintro ⟨⟩

/-- No check fails while no two threads of a kind update its counter. -/
theorem animals_never_meet [Fintype T] {labels : List T}
    (reached : Run (fun s t s' => Step h s t s' ∧ Meets h s t) (Sim.start h) labels s) (t : T) (problem : Panic) :
    step h s t ≠ some (.error problem) := by
  have orderly : Orderly h s :=
    reached.invariant (fun _ _ _ orderly moved => orderly.step moved.2 moved.1) Orderly.start
  exact step_safe orderly t problem

instance [Fintype T] (h : Household T) (s : Sim T) (t : T) : Decidable (Meets h s t) :=
  inferInstanceAs (Decidable (_ = true → ∀ u, u ≠ t → h.species u = h.species t → _))

/-- Two cats and a mouse at two bowls, in one round -/
def twoCatsOneMouse : Household (Fin 3) where
  species t := if t = 2 then .mouse else .cat
  numBowls := 2
  numLoops := 1

/-- The cats eat together while the mouse waits, and then the mouse eats. -/
def mouseWaits : List (Fin 3) :=
  List.replicate 10 0 ++ List.replicate 11 1 ++ List.replicate 5 2 ++ List.replicate 10 0 ++
    List.replicate 10 1 ++ List.replicate 16 0 ++ List.replicate 16 1 ++ List.replicate 13 2

theorem animals_never_meet_mouseWaits : ∃ s,
    Run (fun s t s' => Step twoCatsOneMouse s t s' ∧ Meets twoCatsOneMouse s t)
      (Sim.start twoCatsOneMouse) mouseWaits s ∧
    s.pc 2 = .eat 0 .checkOther ∧ ∀ problem, step twoCatsOneMouse s 2 ≠ some (.error problem) := by
  have played : (play (fun s t => if Meets twoCatsOneMouse s t then advance twoCatsOneMouse s t else none)
      mouseWaits (Sim.start twoCatsOneMouse)).map (fun s => s.pc 2) = some (.eat 0 .checkOther) := by
    decide +kernel
  obtain ⟨s, reached, place⟩ := Option.map_eq_some_iff.mp played
  have meets := (play_run reached).mono fun s t s' moved => by
    obtain ⟨meets, moved⟩ := Option.ite_none_right_eq_some.mp moved
    exact And.intro (advance_eq_some.mp moved) meets
  exact ⟨s, meets, place, animals_never_meet meets 2⟩

/-- The first cat reads `eating_cats` after its meal, the second one counts itself, the first one writes 0 and leaves
while the second one starts to eat; then the mouse comes. -/
def lostIncrement : List (Fin 3) :=
  List.replicate 28 0 ++ List.replicate 9 1 ++ [0] ++ List.replicate 12 1 ++ List.replicate 7 0 ++ List.replicate 13 2

/-- The cats end their round, and the mouse that has waited is about to end its own, in whole statements. -/
def allEat : List (Fin 3) :=
  List.replicate 8 0 ++ List.replicate 9 1 ++ List.replicate 4 2 ++ List.replicate 9 0 ++
    List.replicate 9 1 ++ List.replicate 13 0 ++ List.replicate 13 1 ++ List.replicate 29 2

theorem mouse_meets_cat : ∃ s, Run (Step twoCatsOneMouse) (Sim.start twoCatsOneMouse) lostIncrement s ∧
    step twoCatsOneMouse s 2 = some (.error (mixedMeal .mouse)) :=
  play_failure (by decide)

end Os161.Synchprobs
