import Os161.Klib.Bitmap
import Os161.Sfs.Remount

namespace Os161.Sfs
open Word Outcome Function List
open Klib.Bytemap (clearBit)

/-- `blockusage_t` -/
inductive BlockUsage where
  | superblock
  | bitblock
  | inode
  | iblock
  | dirdata
  | data
  | tofree
  | pastend
deriving DecidableEq

/-- The static variables of `sfsck` for the free map, and its warnings -/
structure Checker where
  nblocks : Word32
  bitmapdata : Nat → Byte
  tofreedata : Nat → Byte
  countBlocks : Nat
  badness : Nat
  warnings : List String

/-- The arguments of `bitmap_mark` -/
structure Mark where
  block : Word32
  how : BlockUsage
  howdesc : Word32

/-- The variables of `check_bitmap`, the disk and the blocks that were written to it -/
structure MapPass where
  bits : Block
  alloccount : Nat
  freecount : Nat
  bchanged : Bool
  warnings : List String
  disk : Disk
  written : List Word32

namespace Checker

/-- `bitblocks`, as `check_sb` sets it -/
def bitblocks (c : Checker) : Word32 := Sfs.bitblocks c.nblocks

/-- `bitmap_init`, with memory for both maps -/
def bitmapInit (c : Checker) : Checker := { c with bitmapdata := fun _ => 0, tofreedata := fun _ => 0 }

def warnx (c : Checker) (text : String) : Checker := { c with warnings := c.warnings ++ [text] }

def setbadness (c : Checker) (code : Nat) : Checker :=
  { c with badness := if c.badness < code then code else c.badness }

def blockusagestr (how : BlockUsage) (howdesc : Word32) : Kernel String :=
  let ino := howdesc.toNat
  match how with
  | .superblock => .ok "superblock"
  | .bitblock => .ok "bitmap block"
  | .inode => .ok "inode"
  | .iblock => .ok s!"indirect block of inode {ino}"
  | .dirdata => .ok s!"directory data from inode {ino}"
  | .data => .ok s!"file data from inode {ino}"
  | .tofree => .error (.assertion "0")
  | .pastend => .ok "past the end of the fs"

/-- `bitmap_mark` of a block that is in use -/
def markUsed (c : Checker) (m : Mark) : Kernel Checker := do
  let block := m.block.toNat
  let c := { c with
    tofreedata := if bitAt c.tofreedata block then clearBit c.tofreedata block else c.tofreedata }
  let c ← if bitAt c.bitmapdata block then do
      let usage ← blockusagestr m.how m.howdesc
      pure ((c.warnx s!"Block {block} (used as {usage}) already in use! (NOT FIXED)").setbadness 2)
    else pure c
  return { c with
    bitmapdata := setBit c.bitmapdata block
    countBlocks := if m.how ≠ .pastend then c.countBlocks + 1 else c.countBlocks }

/-- `bitmap_mark`, which has no byte for a block behind the map -/
def bitmapMark (c : Checker) (m : Mark) : Kernel Checker :=
  let block := m.block.toNat
  if (c.bitblocks * 512).toNat ≤ block / 8 then .error (.badIndex (block / 8))
  else if m.how = .tofree then
    if bitAt c.tofreedata block ∨ bitAt c.bitmapdata block then .ok c
    else .ok { c with tofreedata := setBit c.tofreedata block }
  else c.markUsed m

def countbits (val : Byte) : Nat := (List.range 8).countP val.getLsbD

/-- The warnings of `reportbits` -/
def reportbits (bitblock byte : Nat) (val : Byte) (what : String) : List String :=
  ((List.range 8).filter val.getLsbD).map fun y =>
    let blocknum := bitblock * 4096 + byte * 8 + y
    s!"Block {blocknum} erroneously shown {what} in bitmap"

/-- The loop of `check_bitmap` over the bytes of a block. A byte of zero has no bits to count or to report. -/
def checkByte (found tofree : Block) (i : Nat) (p : MapPass) (j : Nat) : Kernel MapPass := do
  kassert (found j &&& tofree j = 0) "(found[j] & tofree[j])==0"
  if p.bits j = found j then return p
  else if p.bits j = found j ||| tofree j then
    return { p with bits := update p.bits j (found j), bchanged := true }
  else
    let bits := p.bits j &&& ~~~tofree j
    let short := if bits &&& found j ≠ found j then found j &&& ~~~bits else 0
    let extra := if bits &&& found j ≠ bits then bits &&& ~~~found j else 0
    return { p with
      bits := update p.bits j (found j)
      alloccount := p.alloccount + countbits short
      freecount := p.freecount + countbits extra
      bchanged := true
      warnings := p.warnings ++ reportbits i j short "free" ++ reportbits i j extra "allocated" }

/-- What a map has for the map block `i` -/
def part (data : Nat → Byte) (i : Nat) : Block := fun j => data (i * 512 + j)

/-- `SFS_MAP_LOCATION + i` -/
def mapBlock (i : Nat) : Word32 := 2 + BitVec.ofNat 32 i

/-- The loop of `check_bitmap` over the blocks of the map, on a disk without errors -/
def checkBlock (c : Checker) (p : MapPass) (i : Nat) : Kernel MapPass := do
  let p ← (List.range 512).foldlM (checkByte (part c.bitmapdata i) (part c.tofreedata i) i)
    { p with bits := p.disk (mapBlock i), bchanged := false }
  return if p.bchanged then
    { p with disk := update p.disk (mapBlock i) p.bits, written := p.written ++ [mapBlock i] } else p

/-- `check_bitmap`, with the disk and the blocks that were written to it -/
def checkBitmap (c : Checker) (disk : Disk) : Kernel (Checker × Disk × List Word32) := do
  let p ← (List.range c.bitblocks.toNat).foldlM c.checkBlock ⟨zeroBlock, 0, 0, false, c.warnings, disk, []⟩
  let c := { c with warnings := p.warnings }
  let alloccount := p.alloccount
  let freecount := p.freecount
  let c := if 0 < alloccount then
      (c.warnx s!"{alloccount} blocks erroneously shown free in bitmap (fixed)").setbadness 1
    else c
  let c := if 0 < freecount then
      (c.warnx s!"{freecount} blocks erroneously shown used in bitmap (fixed)").setbadness 1
    else c
  return (c, p.disk, p.written)

/-- Whatever the order of the marks, the found set has the blocks that were marked as used, and the set to free has
the others. -/
structure Marked (marks : List Mark) (c : Checker) : Prop where
  found : ∀ block, bitAt c.bitmapdata block = true ↔ ∃ m ∈ marks, m.how ≠ .tofree ∧ m.block.toNat = block
  freed : ∀ block, bitAt c.tofreedata block = true ↔
    (∃ m ∈ marks, m.how = .tofree ∧ m.block.toNat = block) ∧ bitAt c.bitmapdata block = false

/-- The first blocks of the map hold what was found. Only those that differed were written. -/
structure Rewritten (data : Nat → Byte) (disk : Disk) (count : Nat) (disk' : Disk) (written : List Word32) :
    Prop where
  same : ∀ i < count, (disk' (mapBlock i)).Same (part data i)
  differed : ∀ block ∈ written, ∃ i < count, block = mapBlock i ∧ ¬ (disk block).Same (part data i)
  kept : ∀ block ∉ written, disk' block = disk block

variable {marks : List Mark} {c : Checker} {m : Mark} {disk : Disk}

theorem markUsed_ok (c : Checker) (used : m.how ≠ .tofree) :
    ∃ c', c.markUsed m = .ok c' ∧ c'.nblocks = c.nblocks ∧ c'.bitmapdata = setBit c.bitmapdata m.block.toNat ∧
      c'.tofreedata = if bitAt c.tofreedata m.block.toNat then clearBit c.tofreedata m.block.toNat
        else c.tofreedata := by
  obtain ⟨usage, named⟩ : ∃ usage, blockusagestr m.how m.howdesc = .ok usage := by
    cases how : m.how with
    | tofree => exact absurd how used
    | _ => exact ⟨_, rfl⟩
  unfold markUsed
  rw [named]
  dsimp only
  split
  · exact ⟨_, rfl, rfl, rfl, rfl⟩
  · exact ⟨_, rfl, rfl, rfl, rfl⟩

theorem Marked.mark (marked : Marked marks c) (inside : m.block < bitmapsize c.nblocks) :
    ∃ c', c.bitmapMark m = .ok c' ∧ c'.nblocks = c.nblocks ∧ Marked (marks ++ [m]) c' := by
  have room : ¬ (c.bitblocks * 512).toNat ≤ m.block.toNat / 8 := by
    rw [BitVec.lt_def, bitmapsize_toNat] at inside
    rw [BitVec.toNat_mul, bitblocks, bitblocks_toNat]
    change ¬ _ * 512 % 2 ^ 32 ≤ _
    omega
  unfold bitmapMark
  rw [if_neg room]
  by_cases freeing : m.how = .tofree
  · rw [if_pos freeing]
    have found (block : Nat) : bitAt c.bitmapdata block = true ↔
        ∃ n ∈ marks ++ [m], n.how ≠ .tofree ∧ n.block.toNat = block := by
      simp [marked.found block, freeing]
    split
    · refine ⟨c, rfl, rfl, found, fun block => ?_⟩
      have freed := marked.freed block
      by_cases here : m.block.toNat = block
      · subst here
        cases used : bitAt c.bitmapdata m.block.toNat <;> simp_all
      · simp [freed, here]
    · rename_i clear
      refine ⟨_, rfl, rfl, found, fun block => ?_⟩
      by_cases here : m.block.toNat = block
      · subst here
        simp [freeing, Bool.eq_false_of_not_eq_true (not_or.mp clear).2]
      · simp [marked.freed block, here, Ne.symm here]
  · rw [if_neg freeing]
    obtain ⟨c', done, same, found, freed⟩ := markUsed_ok c freeing
    refine ⟨c', done, same, fun block => ?_, fun block => ?_⟩
    · rw [found]
      simp [marked.found block, freeing, @eq_comm _ block]
    · have old := marked.freed block
      rw [freed, found]
      by_cases here : m.block.toNat = block
      · subst here
        split <;> simp_all
      · split <;> simp [old, here, Ne.symm here]

theorem Marked.run (marks : List Mark) (c : Checker) (inside : ∀ m ∈ marks, m.block < bitmapsize c.nblocks) :
    ∃ c', marks.foldlM bitmapMark c.bitmapInit = .ok c' ∧ c'.nblocks = c.nblocks ∧ Marked marks c' := by
  induction marks using List.reverseRecOn with
  | nil => exact ⟨c.bitmapInit, rfl, rfl, by simp [bitmapInit, bitAt], by simp [bitmapInit, bitAt]⟩
  | append_singleton marks m ih =>
    obtain ⟨c', done, same, marked⟩ := ih fun m mem => inside m (mem_append_left _ mem)
    obtain ⟨next, moved, kept, marked⟩ := marked.mark (same ▸ inside m (mem_append_right _ mem_cons_self))
    refine ⟨next, ?_, kept.trans same, marked⟩
    rw [foldlM_append, done, ok_bind, foldlM_cons, moved]
    rfl

/-- No block is in both sets. -/
theorem Marked.apart (marked : Marked marks c) (n : Nat) : c.bitmapdata n &&& c.tofreedata n = 0 := by
  apply BitVec.eq_of_getLsbD_eq
  intro k low
  have freed := marked.freed (n * 8 + k)
  rw [bitAt, bitAt, show (n * 8 + k) / 8 = n by omega, show (n * 8 + k) % 8 = k by omega] at freed
  rw [BitVec.getLsbD_and]
  cases used : (c.bitmapdata n).getLsbD k with
  | false => simp
  | true => simp_all

theorem checkByte_ok {found tofree : Block} {i j : Nat} {p : MapPass} (apart : found j &&& tofree j = 0) :
    ∃ p', checkByte found tofree i p j = .ok p' ∧ p'.bits = update p.bits j (found j) ∧
      (p'.bchanged = true ↔ p.bchanged = true ∨ p.bits j ≠ found j) ∧
      p'.disk = p.disk ∧ p'.written = p.written := by
  rw [checkByte, kassert_ok.mpr apart]
  by_cases same : p.bits j = found j
  · exact ⟨p, if_pos same, by rw [← same, update_eq_self], by simp [same], rfl, rfl⟩
  · rw [if_neg same]
    split
    · exact ⟨_, rfl, rfl, by simp [same], rfl, rfl⟩
    · exact ⟨_, rfl, rfl, by simp [same], rfl, rfl⟩

theorem checkBytes_ok {found tofree : Block} (i : Nat) {p : MapPass} (clear : p.bchanged = false)
    (apart : ∀ j, found j &&& tofree j = 0) :
    ∃ p', (List.range 512).foldlM (checkByte found tofree i) p = .ok p' ∧ p'.bits.Same found ∧
      (p'.bchanged = true ↔ ¬ p.bits.Same found) ∧ p'.disk = p.disk ∧ p'.written = p.written := by
  let inv (n : Nat) (s : MapPass) : Prop := (∀ j, s.bits j = if j < n then found j else p.bits j) ∧
    (s.bchanged = true ↔ ∃ j < n, p.bits j ≠ found j) ∧ s.disk = p.disk ∧ s.written = p.written
  have pass : ∀ n < 512, ∀ s, inv n s → ∃ t, checkByte found tofree i s n = .ok t ∧ inv (n + 1) t := by
    intro n _ s ⟨bits, changed, disk, written⟩
    obtain ⟨t, moved, now, next, kept, log⟩ := checkByte_ok (i := i) (p := s) (apart n)
    have here : s.bits n = p.bits n := (bits n).trans (if_neg (lt_irrefl n))
    refine ⟨t, moved, fun j => ?_, ?_, kept.trans disk, log.trans written⟩
    · rw [now]
      by_cases last : j = n
      · simp [last]
      · rw [update_of_ne last, bits]
        congr 1
        rw [eq_iff_iff]
        omega
    · rw [next, changed, here]
      simp only [Nat.lt_succ_iff_lt_or_eq, or_and_right, exists_or, exists_eq_left]
  obtain ⟨p', done, bits, changed, kept⟩ := foldlM_range inv (show inv 0 p by simp [inv, clear]) pass
  refine ⟨p', done, fun j small => (bits j).trans (if_pos small), ?_, kept⟩
  rw [changed, Block.Same]
  simp

theorem Rewritten.checkBlock {n : Nat} {p : MapPass} (fits : 2 + n < 2 ^ 32)
    (apart : ∀ k, c.bitmapdata k &&& c.tofreedata k = 0)
    (held : Rewritten c.bitmapdata disk n p.disk p.written) :
    ∃ p', c.checkBlock p n = .ok p' ∧ Rewritten c.bitmapdata disk (n + 1) p'.disk p'.written := by
  have earlier (i : Nat) (small : i < n) : mapBlock i ≠ mapBlock n := by
    intro equal
    have numbers := congrArg BitVec.toNat equal
    rw [mapBlock, mapBlock, mapBlock_toNat (by omega), mapBlock_toNat fits] at numbers
    omega
  have fresh : p.disk (mapBlock n) = disk (mapBlock n) := by
    refine held.kept _ fun mem => ?_
    obtain ⟨i, small, equal, -⟩ := held.differed _ mem
    exact earlier i small equal.symm
  have before (block : Word32) (mem : block ∈ p.written) :
      ∃ i < n + 1, block = mapBlock i ∧ ¬ (disk block).Same (part c.bitmapdata i) := by
    obtain ⟨i, small, rest⟩ := held.differed block mem
    exact ⟨i, by omega, rest⟩
  have bytes (j : Nat) : part c.bitmapdata n j &&& part c.tofreedata n j = 0 := apart _
  obtain ⟨p', done, same, changed, kept, log⟩ := checkBytes_ok n
    (p := { p with bits := p.disk (mapBlock n), bchanged := false }) rfl bytes
  rw [Checker.checkBlock, done, ok_bind]
  refine ⟨_, rfl, ?_⟩
  by_cases equal : (p.disk (mapBlock n)).Same (part c.bitmapdata n)
  · rw [if_neg (by simp [changed, equal]), kept, log]
    refine ⟨fun i small => ?_, before, held.kept⟩
    obtain small | rfl := Nat.lt_succ_iff_lt_or_eq.mp small
    · exact held.same i small
    · exact equal
  · rw [if_pos (changed.mpr equal)]
    dsimp only
    rw [kept, log]
    refine ⟨fun i small => ?_, fun block mem => ?_, fun block other => ?_⟩
    · obtain small | rfl := Nat.lt_succ_iff_lt_or_eq.mp small
      · rw [update_of_ne (earlier i small)]
        exact held.same i small
      · rwa [update_self]
    · obtain mem | rfl := by simpa using mem
      · exact before block mem
      · exact ⟨n, by omega, rfl, fresh ▸ equal⟩
    · simp only [mem_append, mem_singleton, not_or] at other
      rw [update_of_ne other.2, held.kept block other.1]

theorem Marked.checkBitmap (marked : Marked marks c) (disk : Disk) :
    ∃ last disk' written, c.checkBitmap disk = .ok (last, disk', written) ∧
      Rewritten c.bitmapdata disk c.bitblocks.toNat disk' written := by
  have few : c.bitblocks.toNat < 2 ^ 20 := by
    rw [bitblocks, bitblocks_toNat]
    omega
  obtain ⟨p, done, rewritten⟩ := @foldlM_range _ MapPass c.checkBlock c.bitblocks.toNat
    ⟨zeroBlock, 0, 0, false, c.warnings, disk, []⟩ (fun n p => Rewritten c.bitmapdata disk n p.disk p.written)
    ⟨by simp, by simp, fun _ _ => rfl⟩ fun n small p held => held.checkBlock (by omega) marked.apart
  rw [Checker.checkBitmap, done]
  exact ⟨_, _, _, rfl, rewritten⟩

theorem Rewritten.mem_written {data : Nat → Byte} {disk' : Disk} {written : List Word32} {count : Nat}
    (rewritten : Rewritten data disk count disk' written) (block : Word32) :
    block ∈ written ↔ ∃ i < count, block = mapBlock i ∧ ¬ (disk block).Same (part data i) := by
  refine ⟨rewritten.differed block, ?_⟩
  rintro ⟨i, small, rfl, differs⟩
  by_contra kept
  exact differs (rewritten.kept _ kept ▸ rewritten.same i small)

/-- The two sets are apart, and exactly the map blocks that differed are written. -/
theorem map_pass_writes_found (c : Checker) (marks : List { m : Mark // m.block < bitmapsize c.nblocks })
    (disk : Disk) :
    ∃ c', marks.unattach.foldlM bitmapMark c.bitmapInit = .ok c' ∧
      (∀ block, ¬ (bitAt c'.bitmapdata block = true ∧ bitAt c'.tofreedata block = true)) ∧
      ∃ last disk' written, c'.checkBitmap disk = .ok (last, disk', written) ∧
        (∀ i < c'.bitblocks.toNat, (disk' (mapBlock i)).Same (part c'.bitmapdata i)) ∧
        ∀ block, block ∈ written ↔
          ∃ i < c'.bitblocks.toNat, block = mapBlock i ∧ ¬ (disk block).Same (part c'.bitmapdata i) := by
  obtain ⟨c', done, -, marked⟩ := Marked.run marks.unattach c fun m mem => (mem_unattach.mp mem).1
  obtain ⟨last, disk', written, checked, rewritten⟩ := marked.checkBitmap disk
  refine ⟨c', done, ?_, last, disk', written, checked, rewritten.same, rewritten.mem_written⟩
  rintro block ⟨found, freed⟩
  rw [((marked.freed block).mp freed).2] at found
  cases found

/-- After any marks the check returns and leaves the found set on disk. -/
theorem check_bitmap_exact (c : Checker) (marks : List { m : Mark // m.block < bitmapsize c.nblocks }) (disk : Disk) :
    ∃ c' last disk' written, marks.unattach.foldlM bitmapMark c.bitmapInit = .ok c' ∧ Marked marks.unattach c' ∧
      c'.checkBitmap disk = .ok (last, disk', written) ∧
        Rewritten c'.bitmapdata disk c'.bitblocks.toNat disk' written := by
  obtain ⟨c', done, -, marked⟩ := Marked.run marks.unattach c fun m mem => (mem_unattach.mp mem).1
  obtain ⟨last, disk', written, checked⟩ := marked.checkBitmap disk
  exact ⟨c', last, disk', written, done, marked, checked⟩

/-- The kernel that then mounts the volume loads the marked blocks. -/
theorem checked_map_mounts (c : Checker) (marks : List { m : Mark // m.block < bitmapsize c.nblocks }) (disk : Disk) :
    ∃ c' last disk' written, marks.unattach.foldlM bitmapMark c.bitmapInit = .ok c' ∧
      c'.checkBitmap disk = .ok (last, disk', written) ∧
        ∀ v : Volume, v.disk = disk' → 2 + c'.bitblocks.toNat ≤ v.blocks.toNat →
          ∃ map, sfsMapio v c'.bitblocks.toNat = .ok map ∧ ∀ bit < 4096 * c'.bitblocks.toNat,
            mapBits map bit = true ↔ ∃ m ∈ marks.unattach, m.how ≠ .tofree ∧ m.block.toNat = bit := by
  obtain ⟨c', done, -, marked⟩ := Marked.run marks.unattach c fun m mem => (mem_unattach.mp mem).1
  obtain ⟨last, disk', written, checked, rewritten⟩ := marked.checkBitmap disk
  refine ⟨c', last, disk', written, done, checked, ?_⟩
  rintro v rfl room
  refine ⟨_, sfsMapio_ok room, fun bit small => ?_⟩
  have index : bit / 4096 < c'.bitblocks.toNat := by omega
  have byte := rewritten.same _ index (bit % 4096 / 8) (by omega)
  rw [part, show bit / 4096 * 512 + bit % 4096 / 8 = bit / 8 by omega] at byte
  rw [← marked.found]
  simp [mapBits, bitAt, index, ← byte, mapBlock]

end Checker

end Os161.Sfs
