import Mathlib.Tactic

namespace Word
open BitVec

/-- A 32-bit machine word. -/
abbrev Word32 := BitVec 32

/-- The mask keeps the page number of an address. -/
def pageMask (address : Word32) : Word32 := address &&& 0xfffff000#32

/-- The address is a multiple of the page size. -/
def Aligned (address : Word32) : Prop := address.toNat % 4096 = 0

instance (address : Word32) : Decidable (Aligned address) := inferInstanceAs (Decidable (_ = _))

theorem pageMask_shift (addr : Word32) : pageMask addr = (addr >>> 12) <<< 12 := by
  unfold pageMask
  ext index small
  interval_cases index <;> simp [getLsbD_eq_getElem]

/-- The mask rounds down to a multiple of the page size. -/
theorem pageMask_toNat (addr : Word32) :
    (pageMask addr).toNat = addr.toNat / 4096 * 4096 := by
  rw [pageMask_shift]
  simp only [toNat_shiftLeft, toNat_ushiftRight, Nat.shiftLeft_eq,
    Nat.shiftRight_eq_div_pow]
  omega

theorem pageMask_aligned (addr : Word32) : Aligned (pageMask addr) := by
  simp only [Aligned, pageMask_toNat]
  omega

/-- The mask changes nothing exactly on aligned addresses. -/
theorem pageMask_eq_self_iff (addr : Word32) : pageMask addr = addr ↔ Aligned addr := by
  rw [← toNat_inj, pageMask_toNat, Aligned]
  omega

theorem pageMask_of_aligned (aligned : Aligned addr) :
    pageMask addr = addr := (pageMask_eq_self_iff addr).mpr aligned

/-- The mask distributes over a disjunction of bits. -/
theorem pageMask_or (left right : Word32) :
    pageMask (left ||| right) = pageMask left ||| pageMask right := by
  ext index small
  simp only [pageMask, getElem_and, getElem_or]
  cases left[index] <;> cases right[index] <;> cases (0xfffff000#32)[index] <;> rfl

/-- The complement of the mask keeps the offset in the page. -/
theorem pageOffset_toNat (addr : Word32) :
    (addr &&& ~~~0xfffff000#32).toNat = addr.toNat % 4096 := by
  exact Nat.and_two_pow_sub_one_eq_mod addr.toNat 12

end Word
