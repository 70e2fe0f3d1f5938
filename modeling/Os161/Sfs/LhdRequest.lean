import Os161.Sfs.Disk

namespace Os161.Sfs
open Word Outcome BitVec List

/-- The values of `sector+i` in the loop of `lhd_io` -/
def sectorsFrom (sector : Word32) (len : Nat) : List Word32 := (range len).map fun i => sector + BitVec.ofNat 32 i

/-- What `lhd_io` makes of an offset, a residue and a size of the disk: an error, or what it writes
into the sector register as long as no operation fails. The offset is divided as in C. -/
def lhdRequest (offset : ℤ) (resid blocks : Word32) : Except Errno (List Word32) :=
  let sector := BitVec.ofInt 32 (offset.tdiv 512)
  let len := resid / 512#32
  if BitVec.ofInt 32 (offset.tmod 512) ≠ 0#32 ∨ resid % 512#32 ≠ 0#32 then .error eInval
  else if blocks < sector + len then .error eInval
  else .ok (sectorsFrom sector len.toNat)

/-- The loop of `lhd_io` over these sectors -/
def lhdProgram (touch : Lhd → Kernel Lhd) : List Word32 → Lhd → Uio → Kernel (Errno × Uio × Lhd)
  | [], lh, u => .ok (0, u, lh)
  | sector :: rest, lh, u => do
    let lh ← lh.down
    let (result, u, lh) ← lhdSector touch sector lh u
    let lh := lh.up
    if result ≠ 0 then return (result, u, lh)
    lhdProgram touch rest lh u

theorem lhdSectors_eq (touch : Lhd → Kernel Lhd) (len : Nat) (sector : Word32) :
    lhdSectors touch len sector = lhdProgram touch (sectorsFrom sector len) := by
  induction len generalizing sector with
  | zero => rfl
  | succ len ih =>
    have next : sectorsFrom sector (len + 1) = sector :: sectorsFrom (sector + 1) len := by
      simp only [sectorsFrom, range_succ_eq_map, map_cons, map_map, BitVec.add_zero, cons.injEq, true_and]
      refine map_congr_left fun i _ => ?_
      rw [BitVec.add_assoc, BitVec.add_comm 1]
      exact congrArg (sector + ·) (BitVec.ofNat_add i 1)
    funext lh u
    rw [lhdSectors, ih, next, lhdProgram]

theorem lhdRequest_eq (offset : ℤ) (resid blocks : Word32) : lhdRequest offset resid blocks =
    if offset % 512 ≠ 0 ∨ resid.toNat % 512 ≠ 0 then .error eInval
    else if blocks < BitVec.ofInt 32 (offset / 512) + BitVec.ofNat 32 (resid.toNat / 512) then .error eInval
    else .ok (sectorsFrom (BitVec.ofInt 32 (offset / 512)) (resid.toNat / 512)) := by
  have misaligned : (BitVec.ofInt 32 (offset.tmod 512) ≠ 0#32 ∨ resid % 512#32 ≠ 0#32) ↔
      offset % 512 ≠ 0 ∨ resid.toNat % 512 ≠ 0 := by
    simp only [ne_eq, ← toNat_inj, toNat_umod, toNat_ofNat, toNat_ofInt]
    grind
  have len : resid / 512#32 = BitVec.ofNat 32 (resid.toNat / 512) := by
    rw [← setWidth_eq (resid / 512#32), ← ofNat_toNat]
    rfl
  simp only [lhdRequest, misaligned]
  by_cases odd : offset % 512 ≠ 0 ∨ resid.toNat % 512 ≠ 0
  · rw [if_pos odd, if_pos odd]
  · have sector : offset.tdiv 512 = offset / 512 := Int.tdiv_eq_ediv_of_dvd (by omega)
    rw [if_neg odd, if_neg odd, sector, ← len]
    rfl

theorem lhdIo_request (touch : Lhd → Kernel Lhd) (lh : Lhd) {u : Uio} (small : u.resid < 2 ^ 32) :
    lhdIo touch lh u = match lhdRequest u.offset (BitVec.ofNat 32 u.resid) lh.blocks with
      | .error code => .ok (code, u, lh)
      | .ok sectors => lhdProgram touch sectors lh u := by
  have sector : BitVec.ofInt 32 ((u.offset : ℤ) / 512) = BitVec.ofNat 32 (u.offset / 512) :=
    ofInt_natCast 32 (u.offset / 512)
  have misaligned : ((u.offset : ℤ) % 512 ≠ 0 ∨ u.resid % 512 ≠ 0) ↔ u.offset % 512 ≠ 0 ∨ u.resid % 512 ≠ 0 := by
    omega
  have len : (BitVec.ofNat 32 (u.resid / 512)).toNat = u.resid / 512 := by
    rw [toNat_ofNat]
    omega
  simp only [lhdIo, lhdRequest_eq, lhdSectors_eq, sector, misaligned, toNat_ofNat, Nat.mod_eq_of_lt small, len]
  split_ifs <;> rfl

/-- The request is refused, or the disk has the sectors that it asks for and they are programmed. -/
def RightSectors (offset : ℤ) (resid blocks : Word32) : Prop :=
  lhdRequest offset resid blocks = .error eInval ∨ ∃ sectors, lhdRequest offset resid blocks = .ok sectors ∧
    ∀ i < resid.toNat / 512, ∃ sector, sectors[i]? = some sector ∧ (sector.toNat : ℤ) = offset / 512 + i ∧
      sector < blocks

/-- A request is served right or refused exactly under this bound. -/
theorem right_sectors_iff (offset : ℤ) (resid blocks : Word32) : RightSectors offset resid blocks ↔
    offset % 512 ≠ 0 ∨ resid.toNat % 512 ≠ 0 ∨ resid.toNat = 0 ∨
      (0 ≤ offset ∧ offset / 512 + resid.toNat / 512 < 2 ^ 32) ∨
      blocks.toNat < (offset / 512 + resid.toNat / 512) % 2 ^ 32 := by
  have number (i : Nat) : ((BitVec.ofInt 32 (offset / 512) + BitVec.ofNat 32 i).toNat : ℤ) =
      (offset / 512 + i) % 2 ^ 32 := by
    rw [toNat_add, toNat_ofInt, toNat_ofNat]
    omega
  have total := number (resid.toNat / 512)
  simp only [RightSectors, lhdRequest_eq]
  split_ifs with odd refused
  · exact iff_of_true (.inl rfl) (or_assoc.mp (.inl odd))
  · rw [BitVec.lt_def] at refused
    exact iff_of_true (.inl rfl) (by omega)
  rw [BitVec.lt_def] at refused
  have entry {i : Nat} (inside : i < resid.toNat / 512) : (sectorsFrom (BitVec.ofInt 32 (offset / 512))
      (resid.toNat / 512))[i]? = some (BitVec.ofInt 32 (offset / 512) + BitVec.ofNat 32 i) := by
    rw [sectorsFrom, getElem?_map, getElem?_range inside, Option.map_some]
  constructor
  · rintro (refused | ⟨_, ⟨⟩, right⟩)
    · cases refused
    have bounds {i : Nat} (inside : i < resid.toNat / 512) :
        0 ≤ offset / 512 + i ∧ offset / 512 + i < blocks.toNat := by
      obtain ⟨_, found, value, below⟩ := right i inside
      cases (entry inside).symm.trans found
      rw [BitVec.lt_def] at below
      omega
    by_cases empty : resid.toNat / 512 = 0
    · omega
    · have first := bounds (i := 0) (by omega)
      have last := bounds (i := resid.toNat / 512 - 1) (by omega)
      omega
  · intro fits
    refine .inr ⟨_, rfl, fun i inside => ⟨_, entry inside, ?_⟩⟩
    have value := number i
    rw [BitVec.lt_def]
    omega

/-- An offset of 2 TB on a disk of one sector programs sector 0. -/
theorem far_request_at_sector_zero : lhdRequest (2 ^ 41) 512 1 = .ok [0] ∧ ¬ RightSectors (2 ^ 41) 512 1 := by
  have served : lhdRequest (2 ^ 41) 512 1 = .ok [0] := rfl
  refine ⟨served, ?_⟩
  rintro (refused | ⟨sectors, programmed, right⟩)
  · cases served.symm.trans refused
  · cases served.symm.trans programmed
    obtain ⟨_, first, number, _⟩ := right 0 (by decide)
    cases first
    exact absurd number (by decide)

end Os161.Sfs
