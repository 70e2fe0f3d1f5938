import Mathlib.Data.Fintype.Basic
import Os161.Base
import Os161.Lib.Transition

namespace Os161.Threads
open Outcome Function Transition Finset

/-- What a thread and its processor keep for `spl.c` and `spinlock.c` once `curcpu` exists: `t_curspl`,
`t_iplhigh_count`, whether interrupts are on, and `lk_holder` of every spinlock. A spinlock takes eight bytes
of memory, so that the count of them fits the `int`. -/
structure Masking (Lock Cpu : Type) where
  curspl : ℤ
  iplhighCount : ℤ
  irq : Bool
  holder : Lock → Option Cpu

abbrev iplNone : ℤ := 0

abbrev iplHigh : ℤ := 1

namespace Masking

variable {Lock Cpu : Type}

def splraise (s : Masking Lock Cpu) (oldspl newspl : ℤ) : Kernel (Masking Lock Cpu) := do
  kassert (oldspl = iplNone) "oldspl == IPL_NONE"
  kassert (newspl = iplHigh) "newspl == IPL_HIGH"
  let irq := if s.iplhighCount = 0 then false else s.irq
  return { s with irq := irq, iplhighCount := s.iplhighCount + 1 }

def spllower (s : Masking Lock Cpu) (oldspl newspl : ℤ) : Kernel (Masking Lock Cpu) := do
  kassert (oldspl = iplHigh) "oldspl == IPL_HIGH"
  kassert (newspl = iplNone) "newspl == IPL_NONE"
  let count := s.iplhighCount - 1
  return { s with iplhighCount := count, irq := if count = 0 then true else s.irq }

def splx (s : Masking Lock Cpu) (spl : ℤ) : Kernel (ℤ × Masking Lock Cpu) :=
  if s.curspl < spl then do
    let s ← s.splraise s.curspl spl
    return (s.curspl, { s with curspl := spl })
  else if s.curspl > spl then do
    return (s.curspl, ← spllower { s with curspl := spl } s.curspl spl)
  else return (spl, s)

/-- The count moves by some amount, with interrupts on exactly at zero. -/
structure Counts (s : Masking Lock Cpu) (amount : ℤ) (s' : Masking Lock Cpu) : Prop where
  count : s'.iplhighCount = s.iplhighCount + amount
  irq : s'.irq = true ↔ s'.iplhighCount = 0
  curspl : s'.curspl = s.curspl
  holder : s'.holder = s.holder

variable {s s' : Masking Lock Cpu} {oldspl newspl : ℤ}

theorem splraise_ok (ran : s.splraise oldspl newspl = .ok s') (pos : 0 ≤ s.iplhighCount)
    (irq : s.irq = true ↔ s.iplhighCount = 0) : oldspl = iplNone ∧ newspl = iplHigh ∧ s.Counts 1 s' := by
  obtain ⟨old, ran⟩ := kassert_bind.mp ran
  obtain ⟨new, ran⟩ := kassert_bind.mp ran
  cases ran
  refine ⟨old, new, rfl, ?_, rfl, rfl⟩
  grind

theorem spllower_ok (ran : s.spllower oldspl newspl = .ok s') :
    oldspl = iplHigh ∧ newspl = iplNone ∧
      (0 < s.iplhighCount → (s.irq = true ↔ s.iplhighCount = 0) → s.Counts (-1) s') := by
  obtain ⟨old, ran⟩ := kassert_bind.mp ran
  obtain ⟨new, ran⟩ := kassert_bind.mp ran
  cases ran
  refine ⟨old, new, fun pos irq => ⟨rfl, ?_, rfl, rfl⟩⟩
  grind

variable [Fintype Lock] [DecidableEq Cpu] (mycpu : Cpu)

/-- The spinlocks that the thread holds -/
def held (holder : Lock → Option Cpu) : Finset Lock := {lk | holder lk = some mycpu}

/-- The count is that of the held locks, with one more at the high level, and interrupts are on at zero. -/
structure Nested (s : Masking Lock Cpu) : Prop where
  count : s.iplhighCount = (held mycpu s.holder).card + if s.curspl = iplHigh then 1 else 0
  irq : s.irq = true ↔ s.iplhighCount = 0

variable {mycpu}

theorem Nested.splx (nested : s.Nested mycpu) (ran : s.splx spl = .ok (old, s')) : s'.Nested mycpu := by
  obtain ⟨count, irq⟩ := nested
  unfold Masking.splx at ran
  split_ifs at ran
  · obtain ⟨_, raised, ran⟩ := bind_ok.mp ran
    cases Except.ok.inj ran
    obtain ⟨low, rfl, counts⟩ := splraise_ok raised (by omega) irq
    rw [low] at count
    exact ⟨by simp [counts.count, count, counts.holder], counts.irq⟩
  · obtain ⟨_, lowered, ran⟩ := bind_ok.mp ran
    cases Except.ok.inj ran
    obtain ⟨high, rfl, counts⟩ := spllower_ok lowered
    rw [if_pos high] at count
    have counts := counts (show 0 < s.iplhighCount by omega) irq
    exact ⟨by simp [counts.count, count, counts.holder, counts.curspl], counts.irq⟩
  · cases ran
    exact ⟨count, irq⟩

variable [DecidableEq Lock]

/-- `spinlock_acquire` by a thread of this processor. It spins as long as another one holds the lock. -/
def spinlockAcquire (mycpu : Cpu) (s : Masking Lock Cpu) (lk : Lock) : Kernel (Masking Lock Cpu) := do
  let s ← s.splraise iplNone iplHigh
  if s.holder lk = some mycpu then .error (.message "Deadlock on spinlock %p\n")
  else if s.holder lk ≠ none then .error .endless
  else return { s with holder := update s.holder lk (some mycpu) }

def spinlockRelease (mycpu : Cpu) (s : Masking Lock Cpu) (lk : Lock) : Kernel (Masking Lock Cpu) := do
  kassert (s.holder lk = some mycpu) "lk->lk_holder == curcpu->c_self"
  spllower { s with holder := update s.holder lk none } iplHigh iplNone

/-- The calls of the thread, and what the other processors do with the locks meanwhile -/
inductive Event (Lock Cpu : Type) where
  | splhigh
  | splx (spl : ℤ)
  | acquire (lk : Lock)
  | release (lk : Lock)
  | others (holder : Lock → Option Cpu)

/-- One call that returns, or locks that change hands between the other processors -/
def Step (mycpu : Cpu) (s : Masking Lock Cpu) : Event Lock Cpu → Masking Lock Cpu → Prop
  | .splhigh, s' => ∃ old, s.splx iplHigh = .ok (old, s')
  | .splx spl, s' => ∃ old, s.splx spl = .ok (old, s')
  | .acquire lk, s' => s.spinlockAcquire mycpu lk = .ok s'
  | .release lk, s' => s.spinlockRelease mycpu lk = .ok s'
  | .others holder, s' =>
    (∀ lk, holder lk = some mycpu ↔ s.holder lk = some mycpu) ∧ s' = { s with holder := holder }

theorem Nested.acquire (nested : s.Nested mycpu) (ran : s.spinlockAcquire mycpu lk = .ok s') :
    s'.Nested mycpu := by
  obtain ⟨count, irq⟩ := nested
  obtain ⟨middle, raised, ran⟩ := bind_ok.mp ran
  obtain ⟨_, _, counts⟩ := splraise_ok raised (by omega) irq
  split_ifs at ran with mine
  cases ran
  rw [counts.holder] at mine
  have more : held mycpu (update s.holder lk (some mycpu)) = insert lk (held mycpu s.holder) := by
    ext other
    simp only [held]
    grind
  have card := card_insert_of_notMem (s := held mycpu s.holder) (a := lk) (by simpa [held] using mine)
  refine ⟨?_, counts.irq⟩
  simp only [counts.count, counts.curspl, counts.holder, more]
  omega

theorem Nested.release (nested : s.Nested mycpu) (ran : s.spinlockRelease mycpu lk = .ok s') :
    s'.Nested mycpu := by
  obtain ⟨count, irq⟩ := nested
  obtain ⟨mine, ran⟩ := kassert_bind.mp ran
  obtain ⟨_, _, counts⟩ := spllower_ok ran
  have fewer : held mycpu (update s.holder lk none) = (held mycpu s.holder).erase lk := by
    ext other
    simp [held, update_apply]
  have card := card_erase_add_one (s := held mycpu s.holder) (a := lk) (by simpa [held] using mine)
  have counts := counts (show 0 < s.iplhighCount by omega) irq
  refine ⟨?_, counts.irq⟩
  simp only [counts.count, counts.curspl, counts.holder, fewer]
  omega

theorem Nested.step (nested : s.Nested mycpu) (step : Step mycpu s event s') : s'.Nested mycpu := by
  cases event with
  | splhigh | splx spl =>
    obtain ⟨_, ran⟩ := step
    exact nested.splx ran
  | acquire lk => exact nested.acquire step
  | release lk => exact nested.release step
  | others holder =>
    obtain ⟨mine, rfl⟩ := step
    exact ⟨by simp [nested.count, held, mine], nested.irq⟩

/-- Every sequence of calls keeps the count and unmasks only at zero. -/
theorem masking_nests {first last : Masking Lock Cpu} {events : List (Event Lock Cpu)}
    (low : first.curspl = iplNone) (zero : first.iplhighCount = 0) (enabled : first.irq = true)
    (free : ∀ lk, first.holder lk ≠ some mycpu) (run : Run (Step mycpu) first events last) :
    last.iplhighCount = (held mycpu last.holder).card + (if last.curspl = iplHigh then 1 else 0) ∧
      (last.irq = true ↔ last.iplhighCount = 0) := by
  have nested : first.Nested mycpu := ⟨by simp [held, low, zero, free], by simp [enabled, zero]⟩
  obtain ⟨count, irq⟩ := run.invariant (fun _ _ _ => Nested.step) nested
  exact ⟨count, irq⟩

/-- The locks of the example in `spl.c`, before the last of them is released -/
theorem masking_nests_red_blue : ∃ last : Masking Bool Unit,
    Run (Step ()) ⟨0, 0, true, fun _ => none⟩
      [.acquire true, .splhigh, .acquire false, .splx 0, .release true] last ∧
    last.irq = false ∧ last.iplhighCount = 1 ∧
    last.iplhighCount = (held () last.holder).card + (if last.curspl = iplHigh then 1 else 0) := by
  have run : Run (Step ()) (⟨0, 0, true, fun _ => none⟩ : Masking Bool Unit)
      [.acquire true, .splhigh, .acquire false, .splx 0, .release true] _ :=
    .cons rfl (.cons ⟨_, rfl⟩ (.cons rfl (.cons ⟨_, rfl⟩ (.single rfl))))
  exact ⟨_, run, rfl, rfl, (masking_nests rfl rfl rfl nofun run).1⟩

end Masking

end Os161.Threads
