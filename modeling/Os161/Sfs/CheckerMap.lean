import Os161.Sfs.Truncate

namespace Os161.Sfs
open Word Outcome

/-- `ibmap` of `sfsck`. An indirect block has `SFS_DBPERIDB` = 128 entries. -/
def ibmap (disk : Word32 → Block) (iblock : Word32) (offset entrysize : Nat) : Kernel Word32 :=
  if iblock = 0 then .ok 0
  else if 1 < entrysize then
    let index := offset / entrysize
    if index < 128 then ibmap disk ((disk iblock).word index) (offset % entrysize) (entrysize / 128)
    else .error (.badIndex index)
  else do
    kassert (offset < 128) "offset < SFS_DBPERIDB"
    return (disk iblock).word offset
termination_by entrysize
decreasing_by omega

/-- `dobmap` of `sfsck`, with one indirect block and without double and triple indirect blocks: `BMAP_NII`
and `BMAP_NIII` are zero. -/
def dobmap (disk : Word32 → Block) (sfi : Inode) (fileblock : Word32) : Kernel Word32 :=
  if direct : fileblock.toNat < 15 then .ok (sfi.direct ⟨fileblock.toNat, direct⟩)
  else if fileblock.toNat < 15 + 128 * 1 then ibmap disk sfi.indirect ((fileblock.toNat - 15) % 128) 1
  else if fileblock.toNat < 143 + 128 * 0 then ibmap disk 0 ((fileblock.toNat - 143) % 128 ^ 2) 128
  else if fileblock.toNat < 143 + 128 * 0 then ibmap disk 0 ((fileblock.toNat - 143) % 128 ^ 3) (128 ^ 2)
  else .ok 0

theorem dobmap_eq (f : SfsFile) (fileblock : Word32) :
    dobmap f.vol.disk f.sv.inode fileblock = .ok (f.dataBlock fileblock.toNat) := by
  unfold dobmap
  by_cases direct : fileblock.toNat < 15
  · rw [dif_pos direct, ← dataBlock_direct f ⟨fileblock.toNat, direct⟩]
  rw [dif_neg direct]
  by_cases inside : fileblock.toNat < 143
  · rw [if_pos inside, Nat.mod_eq_of_lt (by omega), ibmap]
    by_cases bare : f.sv.inode.indirect = 0
    · rw [if_pos bare, dataBlock_bare bare (by omega)]
    · have mapped := dataBlock_entry bare (show fileblock.toNat - 15 < 128 by omega)
      rw [show 15 + (fileblock.toNat - 15) = fileblock.toNat by omega] at mapped
      rw [if_neg bare, if_neg (by decide), kassert_ok.mpr (by omega), ok_bind, mapped, pure_ok]
  · rw [if_neg inside, if_neg inside, if_neg inside, dataBlock_beyond f (by omega)]

/-- `sfsck` and the kernel find the same block for every file block below 143. -/
theorem checker_maps_alike (f : SfsFile) (fileblock : Word32)
    (attached : f.sv.inode.indirect ≠ 0 → f.sv.inode.indirect < f.vol.blocks)
    (used : ∀ index, f.dataBlock index ≠ 0 → sfsBused f.vol (f.dataBlock index) = .ok true) :
    (fileblock.toNat < 143 → ∃ block, dobmap f.vol.disk f.sv.inode fileblock = .ok block ∧
        sfsBmap f fileblock false = .ok (.ok block, f)) ∧
      (143 ≤ fileblock.toNat → dobmap f.vol.disk f.sv.inode fileblock = .ok 0 ∧
        sfsBmap f fileblock false = .ok (.error eFbig, f)) := by
  have reads (taken : f.sv.inode.indirect ≠ 0) :
      sfsRblock f.vol f.sv.inode.indirect = .ok (f.vol.disk f.sv.inode.indirect) := by
    rw [sfsRblock, Volume.check, if_neg (BitVec.not_le.mpr (attached taken)), ok_bind, pure_ok]
  have mapped := sfsBmap_reads reads (bmapResult_used (used fileblock.toNat))
  rw [dobmap_eq, mapped]
  refine ⟨fun inside => ⟨_, rfl, ?_⟩, fun beyond => ⟨?_, ?_⟩⟩
  · rw [if_pos inside]
  · rw [dataBlock_beyond f beyond]
  · rw [if_neg (by omega)]

theorem checker_maps_tail : tailFile.dataBlock 17 = 6 ∧
    ∃ block, dobmap tailFile.vol.disk tailFile.sv.inode 17 = .ok block ∧
      sfsBmap tailFile 17 false = .ok (.ok block, tailFile) := by
  refine ⟨tailFile_dataBlock 17, (checker_maps_alike tailFile 17 ?_ ?_).1 (by decide)⟩
  · intro _
    decide
  · intro index taken
    have below := tailFile_sound.below (.data index) taken
    have marked := tailFile_sound.used (.data index) taken
    exact (tailFile_sound.volume.bused below).trans (congrArg Except.ok marked)

end Os161.Sfs
