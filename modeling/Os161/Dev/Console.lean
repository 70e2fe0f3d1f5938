import Os161.Base
import Os161.Lib.Ring
import Os161.Lib.Transition

namespace Os161.Dev
open Outcome Function Transition Ring

/-- `V` on the count of a semaphore -/
def semV (count : ℤ) : Kernel ℤ := do
  let count := (count + 1).bmod (2 ^ 32)
  kassert (0 < count) "sem->sem_count > 0"
  return count

/-- `P` on the count of a semaphore. At zero the thread waits. -/
def semP (count : ℤ) : Option (Kernel ℤ) :=
  if count = 0 then none
  else some do
    kassert (0 < count) "sem->sem_count > 0"
    return count - 1

/-- Where the reading thread is: outside `getch_intr`, behind its `P`, or with the character that it returns -/
inductive Reader where
  | outside
  | passed
  | has (ret : Byte)

/-- One if the reader has passed the semaphore and has not advanced the tail -/
def Reader.ahead : Reader → ℤ
  | .outside => 0
  | _ => 1

/-- `struct con_softc` with the count of `cs_rsem`, and the reader -/
structure Console where
  gotchars : Nat → Byte
  head : Nat
  tail : Nat
  rsem : ℤ
  reader : Reader

namespace Console

/-- The console after its configuration -/
def boot (gotchars : Nat → Byte) : Console := ⟨gotchars, 0, 0, 0, .outside⟩

/-- `con_input` with whether it takes the character. `CONSOLE_INPUT_BUFFER_SIZE` is 32. -/
def conInput (cs : Console) (ch : Byte) : Kernel (Bool × Console) :=
  let nexthead := (cs.head + 1) % 32
  if nexthead = cs.tail then .ok (false, cs)
  else do
    let rsem ← semV cs.rsem
    return (true, { cs with gotchars := update cs.gotchars cs.head ch, head := nexthead, rsem := rsem })

/-- The interrupt, and the steps of `getch_intr` -/
inductive Event where
  | input (ch : Byte) (taken : Bool)
  | passes
  | reads
  | returns (ret : Byte)

def Step (cs : Console) : Event → Console → Prop
  | .input ch taken, cs' => cs.conInput ch = .ok (taken, cs')
  | .passes, cs' =>
    cs.reader = .outside ∧ ∃ rsem, semP cs.rsem = some (.ok rsem) ∧ cs' = { cs with rsem := rsem, reader := .passed }
  | .reads, cs' => cs.reader = .passed ∧ cs' = { cs with reader := .has (cs.gotchars cs.tail) }
  | .returns ret, cs' => cs.reader = .has ret ∧ cs' = { cs with tail := (cs.tail + 1) % 32, reader := .outside }

/-- The characters that the interrupts have put into the buffer -/
def accepted (events : List Event) : List Byte :=
  events.filterMap fun
    | .input ch true => some ch
    | _ => none

/-- The characters that the reader has got -/
def returned (events : List Event) : List Byte :=
  events.filterMap fun
    | .returns ret => some ret
    | _ => none

/-- The characters that wait lie in the ring, and the semaphore counts those that the reader has not asked for. -/
structure Inv (cs : Console) (waiting : List Byte) : Prop where
  ring : Holds 32 cs.gotchars cs.tail cs.head waiting
  count : cs.rsem + cs.reader.ahead = waiting.length
  positive : 0 ≤ cs.rsem
  first : ∀ ret, cs.reader = .has ret → waiting.head? = some ret

variable {cs cs' : Console} {waiting : List Byte}

theorem Inv.conInput (inv : cs.Inv waiting) (ch : Byte) :
    cs.conInput ch = .ok (false, cs) ∧ waiting.length = 31 ∨
      ∃ cs', cs.conInput ch = .ok (true, cs') ∧ cs'.Inv (waiting ++ [ch]) := by
  have count := inv.count
  have pos := inv.positive
  have short := inv.ring.short
  unfold Console.conInput
  by_cases full : (cs.head + 1) % 32 = cs.tail
  · have all := inv.ring.full_iff.mp full
    exact .inl ⟨if_pos full, by omega⟩
  · have less : waiting.length + 1 ≠ 32 := fun all => full (inv.ring.full_iff.mpr all)
    have ahead : 0 ≤ cs.reader.ahead := by cases cs.reader <;> simp [Reader.ahead]
    have small : (cs.rsem + 1).bmod (2 ^ 32) = cs.rsem + 1 := by
      rw [Int.bmod_eq_of_le] <;> omega
    have raised : semV cs.rsem = .ok (cs.rsem + 1) := by
      rw [semV, small, kassert_ok.mpr (by omega), ok_bind, pure_ok]
    rw [if_neg full, raised]
    refine .inr ⟨_, rfl, inv.ring.push (by omega) ch, ?_, by dsimp only; omega, fun ret has => ?_⟩
    · simp only [List.length_append, List.length_singleton]
      omega
    · rw [List.head?_append_of_ne_nil, inv.first ret has]
      rintro rfl
      cases inv.first ret has

theorem Step.inv {event : Event} (inv : cs.Inv waiting) (step : Step cs event cs') :
    ∃ waiting', cs'.Inv waiting' ∧ waiting ++ accepted [event] = returned [event] ++ waiting' := by
  cases event with
  | input ch taken =>
    rcases inv.conInput ch with ⟨dropped, _⟩ | ⟨_, stored, inv'⟩
    · cases dropped.symm.trans step
      exact ⟨waiting, inv, List.append_nil _⟩
    · cases stored.symm.trans step
      exact ⟨_, inv', rfl⟩
  | passes =>
    obtain ⟨outside, rsem, passed, rfl⟩ := step
    have count := inv.count
    unfold semP at passed
    split at passed
    · cases passed
    obtain ⟨positive, lowered⟩ := kassert_bind.mp (Option.some.inj passed)
    cases lowered
    rw [outside] at count
    refine ⟨waiting, ⟨inv.ring, ?_, by dsimp only; omega, nofun⟩, List.append_nil _⟩
    rw [← count]
    simp only [Reader.ahead]
    omega
  | reads =>
    obtain ⟨passed, rfl⟩ := step
    have count := inv.count
    have positive := inv.positive
    rw [passed] at count
    refine ⟨waiting, ⟨inv.ring, count, positive, fun ret has => ?_⟩, List.append_nil _⟩
    cases has
    cases waiting with
    | nil =>
      simp only [Reader.ahead, List.length_nil] at count
      omega
    | cons ch rest => rw [inv.ring.pop.1, List.head?_cons]
  | returns ret =>
    obtain ⟨has, rfl⟩ := step
    have count := inv.count
    obtain ⟨rest, rfl⟩ := List.head?_eq_some_iff.mp (inv.first ret has)
    rw [has] at count
    refine ⟨rest, ⟨inv.ring.pop.2, ?_, inv.positive, nofun⟩, List.append_nil _⟩
    simp only [Reader.ahead, List.length_cons] at count ⊢
    omega

theorem Inv.run {events : List Event} (inv : cs.Inv waiting) (run : Run Step cs events cs') :
    ∃ waiting', cs'.Inv waiting' ∧ waiting ++ accepted events = returned events ++ waiting' := by
  induction run generalizing waiting with
  | nil => exact ⟨waiting, inv, List.append_nil _⟩
  | @cons _ _ _ event events step _ ih =>
    obtain ⟨middle, inv', moved⟩ := step.inv inv
    obtain ⟨waiting', inv'', rest⟩ := ih inv'
    refine ⟨waiting', inv'', ?_⟩
    calc
      _ = waiting ++ (accepted [event] ++ accepted events) := congrArg _ (List.filterMap_append (l := [event]))
      _ = returned [event] ++ (middle ++ accepted events) := by rw [← List.append_assoc, moved, List.append_assoc]
      _ = (returned [event] ++ returned events) ++ waiting' := by rw [rest, List.append_assoc]
      _ = _ := congrArg (· ++ waiting') (List.filterMap_append (l := [event])).symm

/-- In every interleaving the reader gets the accepted characters in order. -/
theorem console_fifo {gotchars : Nat → Byte} {events : List Event} (run : Run Step (boot gotchars) events cs) :
    ∃ waiting, accepted events = returned events ++ waiting ∧ (waiting.length : ℤ) = cs.rsem + cs.reader.ahead ∧
      ∀ ch, ∃ taken cs', cs.conInput ch = .ok (taken, cs') ∧ (taken = false → waiting.length = 31) := by
  have start : (boot gotchars).Inv [] := ⟨.init _ (by decide), rfl, Int.le_refl _, nofun⟩
  obtain ⟨waiting, inv, same⟩ := start.run run
  refine ⟨waiting, same, inv.count.symm, fun ch => ?_⟩
  rcases inv.conInput ch with ⟨dropped, all⟩ | ⟨cs', stored, _⟩
  · exact ⟨false, cs, dropped, fun _ => all⟩
  · exact ⟨true, cs', stored, nofun⟩

/-- Two characters arrive, and the reader has passed for the second one. -/
theorem console_fifo_two : ∃ cs : Console,
    Run Step (boot fun _ => 0)
      [.input 65 true, .passes, .input 66 true, .reads, .returns 65, .passes] cs ∧
    ∃ waiting : List Byte, [65, 66] = [65] ++ waiting ∧
      (waiting.length : ℤ) = cs.rsem + cs.reader.ahead ∧
      ∀ ch, ∃ taken cs', cs.conInput ch = .ok (taken, cs') ∧ (taken = false → waiting.length = 31) := by
  have run : Run Step (boot fun _ => 0)
      [.input 65 true, .passes, .input 66 true, .reads, .returns 65, .passes] _ :=
    .cons rfl (.cons ⟨rfl, _, rfl, rfl⟩ (.cons rfl (.cons ⟨rfl, rfl⟩ (.cons ⟨rfl, rfl⟩ (.single ⟨rfl, _, rfl, rfl⟩)))))
  exact ⟨_, run, console_fifo run⟩

end Console

end Os161.Dev
