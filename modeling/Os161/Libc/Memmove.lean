import Os161.Base
import Os161.Lib.Bytes

namespace Os161.Libc
open Bytes List

abbrev Memory := Nat → Byte

/-- `d[i] = s[i]` for elements of this size at `dst` and `src` -/
def copyUnit (size dst src : Nat) (memory : Memory) (i : Nat) : Memory :=
  copy memory (src + size * i) memory (dst + size * i) size

/-- The loop with `i` from 0 on -/
def forward (size dst src count : Nat) (memory : Memory) : Memory :=
  (range count).foldl (copyUnit size dst src) memory

/-- The loop that ends with index 0 -/
def backward (size dst src count : Nat) (memory : Memory) : Memory :=
  (range count).reverse.foldl (copyUnit size dst src) memory

/-- The copy by words or by bytes. `sizeof(long)` is 4. -/
def byUnits (loop : (size dst src count : Nat) → Memory → Memory) (dst src len : Nat) (memory : Memory) : Memory :=
  if dst % 4 = 0 ∧ src % 4 = 0 ∧ len % 4 = 0 then loop 4 dst src (len / 4) memory
  else loop 1 dst src len memory

/-- `memcpy` on ranges that do not wrap around -/
def memcpy (dst src len : Nat) (memory : Memory) : Nat × Memory := (dst, byUnits forward dst src len memory)

/-- `memmove` on ranges that do not wrap around -/
def memmove (dst src len : Nat) (memory : Memory) : Nat × Memory :=
  if dst < src then memcpy dst src len memory else (dst, byUnits backward dst src len memory)

theorem forward_eq (size count : Nat) (memory : Memory) (down : dst ≤ src) :
    forward size dst src count memory = copy memory src memory dst (size * count) := by
  induction count with
  | zero => exact (copy_zero ..).symm
  | succ count ih =>
    rw [forward, range_succ, foldl_append, ← forward, ih, foldl_cons, foldl_nil, copyUnit]
    have unread (offset : Nat) (_ : offset < size) : copy memory src memory dst (size * count)
        (src + size * count + offset) = memory (src + size * count + offset) := copy_outside _ _ _ (by omega)
    rw [copy_congr _ _ unread, copy_append, Nat.mul_succ]

theorem backward_eq (size count : Nat) (memory : Memory) (up : src ≤ dst) :
    backward size dst src count memory = copy memory src memory dst (size * count) := by
  induction count generalizing memory with
  | zero => exact (copy_zero ..).symm
  | succ count ih =>
    rw [backward, range_succ, reverse_concat, foldl_cons, ← backward, ih, Nat.mul_succ]
    funext addr
    simp only [copyUnit, copy]
    by_cases early : dst ≤ addr ∧ addr < dst + size * count
    · rw [if_pos early, if_neg (by omega), if_pos (by omega)]
    by_cases last : dst + size * count ≤ addr ∧ addr < dst + size * count + size
    · rw [if_neg early, if_pos last, if_pos (by omega)]
      congr 1
      omega
    · rw [if_neg early, if_neg last, if_neg (by omega)]

theorem byUnits_eq {loop : (size dst src count : Nat) → Memory → Memory} {dst src : Nat} (len : Nat) (memory : Memory)
    (exact : ∀ size count, loop size dst src count memory = copy memory src memory dst (size * count)) :
    byUnits loop dst src len memory = copy memory src memory dst len := by
  unfold byUnits
  split
  · rw [exact, Nat.mul_div_cancel' (by omega)]
  · rw [exact, Nat.one_mul]

theorem memmove_eq (dst src len : Nat) (memory : Memory) :
    memmove dst src len memory = (dst, copy memory src memory dst len) := by
  unfold memmove
  split
  · rename_i down
    rw [memcpy, byUnits_eq len memory fun size count => forward_eq size count memory down.le]
  · rename_i up
    rw [byUnits_eq len memory fun size count => backward_eq size count memory (Nat.le_of_not_lt up)]

/-- The destination gets the bytes of the source, and all others stay. -/
theorem memmove_moves (dst src len : Nat) (memory : Memory) :
    ∃ after, memmove dst src len memory = (dst, after) ∧ (∀ i < len, after (dst + i) = memory (src + i)) ∧
      ∀ address, address < dst ∨ dst + len ≤ address → after address = memory address :=
  ⟨copy memory src memory dst len, memmove_eq dst src len memory, fun _ inside => copy_inside _ _ _ _ inside,
    fun _ outside => copy_outside _ _ _ outside⟩

end Os161.Libc
