import Mathlib.Logic.Function.Basic
import Os161.Base
import Os161.Lib.Transition

namespace Os161.Synchprobs
open Outcome Transition Function

inductive Species where
  | cat
  | mouse
deriving DecidableEq, Repr

def Species.other : Species → Species
  | .cat => .mouse
  | .mouse => .cat

/-- The characters `'-'`, `'c'` and `'m'` of a bowl -/
abbrev Mark := Option Species

/-- Where a thread is in `cat_eat` or `mouse_eat`, by what it does next -/
inductive EatPc where
  -- the check of the bowl number
  | argument
  -- the first `P(mutex)`
  | enter
  -- the test for the animal's own mark at the bowl
  | checkOwn
  -- the test for animals of the other kind
  | checkOther
  | assertFree
  | assertNone
  -- `eating_cats_count += 1` or `eating_mice_count += 1`
  | countRead
  | countWrite (value : Int)
  | occupy
  -- the first `V(mutex)`
  | leave
  -- the second `P(mutex)`, after the sleep
  | reenter
  | assertCount
  | assertOwn
  -- `eating_cats_count -= 1` or `eating_mice_count -= 1`
  | uncountRead
  | uncountWrite (value : Int)
  | vacate
  -- the second `V(mutex)`
  | finish
deriving DecidableEq, Repr

/-- Where a thread is in `cat_simulation` or `mouse_simulation`, by what it does next -/
inductive Pc where
  | sleep
  -- `lock_acquire(lock[0])`
  | acquire
  -- the first half of the test of the `while` loop, which reads the counter of the animal's own kind
  | testOwn
  -- the second half of the test
  | testOther
  -- `cv_wait` up to the sleep
  | wait
  | asleep
  -- `lock_acquire` in `cv_wait`
  | reacquire
  -- `cat_wchan = 1` or `mouse_wchan = 1`
  | noteWait
  -- the test of the bowl in the `for` loop
  | search (j : Nat)
  -- `lock_acquire(lock[j+1])`
  | acquireBowl (j : Nat)
  -- `eating_cats++` or `eating_mice++`
  | incRead (j : Nat)
  | incWrite (j : Nat) (value : Int)
  -- `bowl[j] = 'c'` or `bowl[j] = 'm'`
  | mark (j : Nat)
  -- `lock_release(lock[0])`
  | release (j : Nat)
  | eat (j : Nat) (pc : EatPc)
  -- `eating_cats--` or `eating_mice--`
  | decRead (j : Nat)
  | decWrite (j : Nat) (value : Int)
  -- `bowl[j] = '-'`
  | unmark (j : Nat)
  -- `cv_broadcast` for the other kind
  | wakeOther (j : Nat)
  -- the two halves of the test before the second `cv_broadcast`
  | readWchan (j : Nat)
  | readOther (j : Nat)
  -- `cv_broadcast` for the animal's own kind
  | wakeOwn (j : Nat)
  | clearWchan (j : Nat)
  -- `lock_release(lock[j+1])`
  | releaseBowl (j : Nat)
  | done
deriving DecidableEq, Repr

/-- The parameters of `catmouse` -/
structure Household (T : Type) where
  species : T → Species
  numBowls : Nat
  numLoops : Nat

/-- The variables of `catmouse.c` and `bowls.c`, and the threads. The variables of the two kinds are functions of
the kind; `ate` counts the calls of the eat function in the current iteration. -/
structure Sim (T : Type) where
  eating : Species → Int
  bowl : Nat → Mark
  wchan : Species → Bool
  lock : Nat → Option T
  mutex : Nat
  bowls : Nat → Mark
  count : Species → Int
  pc : T → Pc
  round : T → Nat
  ate : T → Nat

variable {T : Type} [DecidableEq T]

namespace Sim

variable (s : Sim T)

def move (t : T) (pc : Pc) : Sim T := { s with pc := update s.pc t pc }

/-- `lock_acquire` blocks while another thread holds the lock. -/
def lockAcquire (k : Nat) (t : T) (next : Pc) : Option (Kernel (Sim T)) :=
  if s.lock k = none ∨ s.lock k = some t then
    some (.ok ({ s with lock := update s.lock k (some t) }.move t next))
  else none

def lockRelease (k : Nat) (t : T) : Kernel (Sim T) := do
  kassert (s.lock k ≠ none) "lock->lock_holder != NULL"
  kassert (s.lock k = some t) "lock_do_i_hold(lock)"
  return { s with lock := update s.lock k none }

/-- `cv_broadcast` wakes the threads of a kind. -/
def broadcast (species : T → Species) (kind : Species) : Sim T :=
  { s with pc := fun t => if s.pc t = .asleep ∧ species t = kind then .reacquire else s.pc t }

/-- The end of an iteration -/
def finishRound (h : Household T) (t : T) : Sim T :=
  { s with
    pc := update s.pc t (if s.round t + 1 < h.numLoops then .sleep else .done)
    round := update s.round t (s.round t + 1)
    ate := update s.ate t 0 }

end Sim

/-- The texts of the checks of `cat_eat` and `mouse_eat` -/
def invalidBowl (kind : Species) (bowlnumber : Nat) : Panic :=
  match kind with
  | .cat => .message s!"cat_eat: invalid bowl number {bowlnumber}\n"
  | .mouse => .message s!"mouse_eat: invalid bowl number {bowlnumber}\n"

def sharedBowl (kind : Species) (bowlnumber : Nat) : Panic :=
  match kind with
  | .cat => .message s!"cat_eat: attempt to make two cats eat from bowl {bowlnumber}!\n"
  | .mouse => .message s!"mouse_eat: attempt to make two mice eat from bowl {bowlnumber}!\n"

def mixedMeal : Species → Panic
  | .cat => .message "cat_eat: attempt to make a cat eat while mice are eating!\n"
  | .mouse => .message "mouse_eat: attempt to make a mouse eat while cats are eating!\n"

def countText : Species → String
  | .cat => "eating_cats_count"
  | .mouse => "eating_mice_count"

def markText : Species → String
  | .cat => "bowls[bowlnumber-1]=='c'"
  | .mouse => "bowls[bowlnumber-1]=='m'"

/-- `P(mutex)` blocks while the count is 0. -/
def Sim.down (s : Sim T) (t : T) (next : Pc) : Option (Kernel (Sim T)) :=
  if 0 < s.mutex then some (.ok ({ s with mutex := s.mutex - 1 }.move t next)) else none

/-- `V(mutex)` -/
def Sim.up (s : Sim T) (t : T) (next : Pc) : Kernel (Sim T) := .ok ({ s with mutex := s.mutex + 1 }.move t next)

/-- One step of `cat_eat(j+1)` or `mouse_eat(j+1)`. A mouse asserts its mark after it has lowered the counter, a cat
before. -/
def eatStep (h : Household T) (s : Sim T) (t : T) (j : Nat) : EatPc → Option (Kernel (Sim T))
  | .argument =>
    some (if h.numBowls < j + 1 then .error (invalidBowl (h.species t) (j + 1))
      else .ok (s.move t (.eat j .enter)))
  | .enter => s.down t (.eat j .checkOwn)
  | .checkOwn =>
    some (if s.bowls j = some (h.species t) then .error (sharedBowl (h.species t) (j + 1))
      else .ok (s.move t (.eat j .checkOther)))
  | .checkOther =>
    some (if 0 < s.count (h.species t).other then .error (mixedMeal (h.species t))
      else .ok (s.move t (.eat j .assertFree)))
  | .assertFree => some do
      kassert (s.bowls j = none) "bowls[bowlnumber-1]=='-'"
      return s.move t (.eat j .assertNone)
  | .assertNone => some do
      kassert (s.count (h.species t).other = 0) s!"{countText (h.species t).other} == 0"
      return s.move t (.eat j .countRead)
  | .countRead => some (.ok (s.move t (.eat j (.countWrite (s.count (h.species t))))))
  | .countWrite value =>
    some (.ok ({ s with count := update s.count (h.species t) (value + 1) }.move t (.eat j .occupy)))
  | .occupy =>
    some (.ok ({ s with bowls := update s.bowls j (some (h.species t)) }.move t (.eat j .leave)))
  | .leave => some (s.up t (.eat j .reenter))
  | .reenter => s.down t (.eat j .assertCount)
  | .assertCount => some do
      kassert (0 < s.count (h.species t)) s!"{countText (h.species t)} > 0"
      return s.move t (.eat j (match h.species t with | .cat => .assertOwn | .mouse => .uncountRead))
  | .assertOwn => some do
      kassert (s.bowls j = some (h.species t)) (markText (h.species t))
      return s.move t (.eat j (match h.species t with | .cat => .uncountRead | .mouse => .vacate))
  | .uncountRead => some (.ok (s.move t (.eat j (.uncountWrite (s.count (h.species t))))))
  | .uncountWrite value =>
    some (.ok ({ s with count := update s.count (h.species t) (value - 1) }.move t
      (.eat j (match h.species t with | .cat => .vacate | .mouse => .assertOwn))))
  | .vacate => some (.ok ({ s with bowls := update s.bowls j none }.move t (.eat j .finish)))
  | .finish => some (s.up t (.decRead j))

/-- One step of `cat_simulation` or `mouse_simulation`, if the thread can take one -/
def step (h : Household T) (s : Sim T) (t : T) : Option (Kernel (Sim T)) :=
  match s.pc t with
  | .sleep => some (.ok (s.move t .acquire))
  | .acquire => s.lockAcquire 0 t .testOwn
  | .testOwn =>
    some (.ok (s.move t (if s.eating (h.species t) = h.numBowls then .wait else .testOther)))
  | .testOther => some (.ok (s.move t (if 0 < s.eating (h.species t).other then .wait else .search 0)))
  | .wait => some do
      let s ← s.lockRelease 0 t
      return s.move t .asleep
  | .asleep => none
  | .reacquire => s.lockAcquire 0 t .noteWait
  | .noteWait => some (.ok ({ s with wchan := update s.wchan (h.species t) true }.move t .testOwn))
  | .search j =>
    some (.ok (if j < h.numBowls then s.move t (if s.bowl j = none then .acquireBowl j else .search (j + 1))
      else s.finishRound h t))
  | .acquireBowl j => s.lockAcquire (j + 1) t (.incRead j)
  | .incRead j => some (.ok (s.move t (.incWrite j (s.eating (h.species t)))))
  | .incWrite j value =>
    some (.ok ({ s with eating := update s.eating (h.species t) (value + 1) }.move t (.mark j)))
  | .mark j => some (.ok ({ s with bowl := update s.bowl j (some (h.species t)) }.move t (.release j)))
  | .release j => some do
      let s ← s.lockRelease 0 t
      return { s with ate := update s.ate t (s.ate t + 1) }.move t (.eat j .argument)
  | .eat j pc => eatStep h s t j pc
  | .decRead j => some (.ok (s.move t (.decWrite j (s.eating (h.species t)))))
  | .decWrite j value =>
    some (.ok ({ s with eating := update s.eating (h.species t) (value - 1) }.move t (.unmark j)))
  | .unmark j => some (.ok ({ s with bowl := update s.bowl j none }.move t (.wakeOther j)))
  | .wakeOther j => some (.ok ((s.broadcast h.species (h.species t).other).move t (.readWchan j)))
  | .readWchan j =>
    some (.ok (s.move t (if s.wchan (h.species t).other then .clearWchan j else .readOther j)))
  | .readOther j =>
    some (.ok (s.move t (if s.eating (h.species t).other = 0 then .wakeOwn j else .clearWchan j)))
  | .wakeOwn j => some (.ok ((s.broadcast h.species (h.species t)).move t (.clearWchan j)))
  | .clearWchan j =>
    some (.ok ({ s with wchan := update s.wchan (h.species t).other false }.move t (.releaseBowl j)))
  | .releaseBowl j => some do
      let s ← s.lockRelease (j + 1) t
      return s.finishRound h t
  | .done => none

/-- A step that returns -/
def Step (h : Household T) (s : Sim T) (t : T) (s' : Sim T) : Prop := step h s t = some (.ok s')

/-- The state after a step that returns -/
def advance (h : Household T) (s : Sim T) (t : T) : Option (Sim T) :=
  match step h s t with
  | some (.ok s') => some s'
  | _ => none

theorem advance_eq_some {h : Household T} {s s' : Sim T} {t : T} : advance h s t = some s' ↔ Step h s t s' := by
  unfold advance Step
  split
  · rename_i after taken
    rw [taken]
    simp
  · rename_i other
    exact iff_of_false nofun (other s')

/-- The state when the threads are forked -/
def Sim.start (h : Household T) : Sim T where
  eating _ := 0
  bowl _ := none
  wchan _ := false
  lock _ := none
  mutex := 1
  bowls _ := none
  count _ := 0
  pc _ := if 0 < h.numLoops then .sleep else .done
  round _ := 0
  ate _ := 0

/-- The panic of a step that fails -/
def failure {A : Type} : Kernel A → Option Panic
  | .ok _ => none
  | .error problem => some problem

theorem play_failure {h : Household T} {order : List T} {s : Sim T} {t : T} {problem : Panic}
    (played : ((play (advance h) order s).bind fun s' => (step h s' t).bind failure) = some problem) :
    ∃ s', Run (Step h) s order s' ∧ step h s' t = some (.error problem) := by
  obtain ⟨s', run, failed⟩ := Option.bind_eq_some_iff.mp played
  obtain ⟨outcome, taken, failed⟩ := Option.bind_eq_some_iff.mp failed
  cases outcome with
  | ok after => cases failed
  | error reason =>
    cases failed
    exact ⟨s', (play_run run).mono fun _ _ _ moved => advance_eq_some.mp moved, taken⟩

end Os161.Synchprobs
