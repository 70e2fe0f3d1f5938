import Os161.Sfs.FileIo

namespace Os161.Sfs
open Word Outcome Bytes BitVec

/-- The `uio` that `sfs_blockio` hands to `sfs_rwblock` for a block of the disk -/
def blockioUio (u : Uio) (diskblock : Word32) : Uio := u.onDisk (diskblock * 512#32).toNat

/-- The offset of `SFSUIO`, at which `sfs_partialio` reads and writes a block -/
def sfsuioOffset (block : Word32) : Nat := block.toNat * 512

theorem sfsBlockio_mapped {u : Uio} (fits : 512 ≤ u.resid)
    (mapped : sfsBmap f (BitVec.ofNat 32 (u.offset / 512)) (u.rw = .write) = .ok (.ok diskblock, g))
    (present : diskblock ≠ 0) :
    sfsBlockio f u = (do
      let (res, d, vol) ← g.vol.rwblock (blockioUio u diskblock)
      return (res, d.restore u (blockioUio u diskblock).offset, { g with vol := vol })) := by
  simp only [sfsBlockio, mapped, ok_bind, if_neg present, kassert_ok.mpr fits]
  rfl

/-- Both paths go to one place: `sfs_blockio` passes the offset of `SFSUIO`. If the device has the block, what
`sfs_blockio` writes `sfs_rblock` reads, and what `sfs_wblock` writes `sfs_blockio` reads. -/
structure Volume.PathsAgree (v : Volume) (block : Word32) : Prop where
  offset : ∀ u, (blockioUio u block).offset = sfsuioOffset block
  wrote : block < v.blocks → ∀ u, u.rw = .write → ¬ u.Faults 512 → ∃ d v',
    v.rwblock (blockioUio u block) = .ok (0, d, v') ∧
      sfsRblock v' block = .ok (copy u.buffer u.position zeroBlock 0 512)
  reads : block < v.blocks → ∀ u data, u.rw = .read → ¬ u.Faults 512 → ∃ v' d,
    sfsWblock v data block = .ok v' ∧ v'.rwblock (blockioUio u block) = .ok (0, d, v') ∧
      d.buffer = copy data 0 u.buffer u.position 512

/-- The paths agree exactly for the blocks whose offsets fit 32 bits. -/
theorem paths_agree_iff (v : Volume) (block : Word32) : v.PathsAgree block ↔ block.toNat < 2 ^ 23 := by
  constructor
  · intro agree
    have same : (block * 512#32).toNat = block.toNat * 512 := agree.offset ⟨0, 0, .read, fun _ => 0, 0, none⟩
    omega
  · intro small
    have offset : (block * 512#32).toNat = block.toNat * 512 := by
      rw [toNat_mul, toNat_ofNat]
      omega
    refine ⟨fun u => offset, fun inside => ?_, fun inside => ?_⟩
    all_goals
      have refused : ¬ v.blocks ≤ block := BitVec.not_le.mpr inside
      have checked (v' : Volume) (same : v'.blocks = v.blocks) : v'.check block = .ok () :=
        if_neg (same ▸ refused)
    · intro u write clear
      rw [blockioUio, offset, Volume.rwblock_onDisk (checked v rfl), if_neg clear, write]
      refine ⟨_, _, rfl, ?_⟩
      rw [sfsRblock, checked (v.put _ _) rfl, ok_bind, pure_ok]
      exact congrArg Except.ok (Function.update_self ..)
    · intro u data read clear
      have wrote : sfsWblock v data block = .ok (v.put block data) := by
        rw [sfsWblock, checked v rfl, ok_bind, pure_ok, Volume.put]
      have moved := Volume.rwblock_onDisk (checked (v.put block data) rfl) u
      rw [if_neg clear, read, ← offset] at moved
      exact ⟨_, _, wrote, moved, congrArg (copy · 0 u.buffer u.position 512) (Function.update_self ..)⟩

/-- The last of 2^23 + 1 blocks has the offset of the superblock. -/
theorem last_block_at_superblock : ∃ v : Volume, v.nblocks = 0x800001 ∧ v.nblocks ≤ v.blocks ∧
    0x800000 < v.nblocks ∧ ¬ v.PathsAgree 0x800000 ∧ ∀ u, (blockioUio u 0x800000).offset = sfsuioOffset 0 := by
  refine ⟨⟨0x800001, 0x800001, ⟨0, fun _ => true⟩, false, fun _ => zeroBlock⟩, rfl, by decide, by decide, ?_,
    fun _ => rfl⟩
  intro agree
  have same : 0 = 0x800000 * 512 := agree.offset ⟨0, 0, .read, fun _ => 0, 0, none⟩
  exact absurd same (by decide)

end Os161.Sfs
