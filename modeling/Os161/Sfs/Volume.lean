import Mathlib.Data.Set.Basic
import Os161.Sfs.Disk

namespace Os161.Sfs
open Word Outcome Function

abbrev zeroBlock : Block := fun _ => 0

/-- The big-endian word at an index of a block -/
def Block.word (block : Block) (index : Nat) : Word32 :=
  block (4 * index) ++ block (4 * index + 1) ++ block (4 * index + 2) ++ block (4 * index + 3)

/-- A byte of a word, the most significant one first. -/
def wordByte (word : Word32) (place : Nat) : Byte := word.extractLsb' (8 * (3 - place)) 8

def Block.ofWords (words : Nat → Word32) : Block :=
  fun offset => wordByte (words (offset / 4)) (offset % 4)

theorem wordByte_join (word : Word32) :
    (wordByte word 0 ++ wordByte word 1 ++ wordByte word 2 ++ wordByte word 3 : Word32) = word := by
  have high : wordByte word 0 ++ wordByte word 1 = word.extractLsb' 16 16 :=
    BitVec.extractLsb'_append_extractLsb'_eq_extractLsb' (show 24 = 16 + 8 from rfl)
  have upper : wordByte word 0 ++ wordByte word 1 ++ wordByte word 2 = word.extractLsb' 8 24 := by
    rw [high]
    exact BitVec.extractLsb'_append_extractLsb'_eq_extractLsb' (show 16 = 8 + 8 from rfl)
  rw [upper]
  exact (BitVec.extractLsb'_append_extractLsb'_eq_extractLsb' (show 8 = 0 + 8 from rfl)).trans
    BitVec.extractLsb'_eq_self

@[simp] theorem word_ofWords (words : Nat → Word32) (index : Nat) :
    (Block.ofWords words).word index = words index := by
  have place (offset : Nat) (small : offset < 4) :
      Block.ofWords words (4 * index + offset) = wordByte (words index) offset := by
    rw [Block.ofWords, Nat.mul_add_div (by decide), Nat.mul_add_mod, Nat.div_eq_of_lt small,
      Nat.mod_eq_of_lt small, Nat.add_zero]
  rw [Block.word, place 1 (by decide), place 2 (by decide), place 3 (by decide),
    show Block.ofWords words (4 * index) = wordByte (words index) 0 from place 0 (by decide)]
  exact wordByte_join _

@[simp] theorem word_zeroBlock (index : Nat) : Block.word zeroBlock index = 0 := by
  change (0#8 ++ 0#8 ++ 0#8 ++ 0#8 : Word32) = 0#32
  decide

/-- The fields of `struct sfs_inode`. It has `SFS_NDIRECT` = 15 direct blocks. -/
structure Inode where
  size : Word32
  type : BitVec 16
  linkcount : BitVec 16
  direct : Fin 15 → Word32
  indirect : Word32
deriving DecidableEq

abbrev typeInval : BitVec 16 := 0
abbrev typeFile : BitVec 16 := 1
abbrev typeDir : BitVec 16 := 2

/-- The inode in a block of the disk -/
def Inode.decode (block : Block) : Inode where
  size := block.word 0
  type := (block.word 1).extractLsb' 16 16
  linkcount := (block.word 1).extractLsb' 0 16
  direct i := block.word (2 + i)
  indirect := block.word 17

def Inode.words (inode : Inode) (index : Nat) : Word32 :=
  if index = 0 then inode.size
  else if index = 1 then inode.type ++ inode.linkcount
  else if direct : index - 2 < 15 then inode.direct ⟨index - 2, direct⟩
  else if index = 17 then inode.indirect
  else 0

/-- The block that an inode is written to. -/
def Inode.encode (inode : Inode) : Block := .ofWords inode.words

@[simp] theorem Inode.decode_encode (inode : Inode) : Inode.decode inode.encode = inode := by
  have high : (inode.type ++ inode.linkcount : Word32).extractLsb' 16 16 = inode.type :=
    BitVec.extractLsb'_append_eq_left
  have low : (inode.type ++ inode.linkcount : Word32).extractLsb' 0 16 = inode.linkcount :=
    BitVec.extractLsb'_append_eq_right
  have direct (i : Fin 15) : inode.words (2 + i) = inode.direct i := by
    rw [words, if_neg (by omega), if_neg (by omega), dif_pos (by omega)]
    congr 1
    ext
    exact Nat.add_sub_cancel_left ..
  simp only [decode, encode, word_ofWords, direct]
  simp only [words, one_ne_zero, if_true, if_false, high, low]
  rfl

/-- `struct bitmap` -/
structure Bitmap where
  nbits : Nat
  bits : Nat → Bool

/-- The number of bits in the bytes of a bitmap -/
def Bitmap.room (b : Bitmap) : Nat := 8 * ((b.nbits + 7) / 8)

/-- `bitmap_alloc` takes the first clear bit. -/
def Bitmap.alloc (b : Bitmap) : Kernel (Option Nat × Bitmap) :=
  match FirstRun.scan (fun i => b.bits i = false) 1 b.room 0 0 with
  | none => .ok (none, b)
  | some index => do
    kassert (index < b.nbits) "*index < b->nbits"
    return (some index, { b with bits := update b.bits index true })

/-- `bitmap_unmark` -/
def Bitmap.unmark (b : Bitmap) (index : Nat) : Kernel Bitmap := do
  kassert (index < b.nbits) "index < b->nbits"
  kassert (b.bits index = true) "(b->v[ix] & mask)!=0"
  return { b with bits := update b.bits index false }

/-- `bitmap_isset` does not check its index. A read behind its block, which returns a stray bit, is a stop here. -/
def Bitmap.isset (b : Bitmap) (index : Nat) : Kernel Bool :=
  if index < b.room then .ok (b.bits index) else .error (.badIndex index)

/-- A mounted volume on a disk without failures: the size of the device, `sp_nblocks`, the free map and
the blocks on the disk. -/
structure Volume where
  blocks : Word32
  nblocks : Word32
  freemap : Bitmap
  freemapdirty : Bool
  disk : Word32 → Block

/-- The device refuses a block that it does not have. -/
def Volume.check (v : Volume) (block : Word32) : Kernel Unit :=
  if v.blocks ≤ block then .error (.message "sfs: d_io returned EINVAL\n") else .ok ()

def sfsRblock (v : Volume) (block : Word32) : Kernel Block := do
  v.check block
  return v.disk block

def sfsWblock (v : Volume) (data : Block) (block : Word32) : Kernel Volume := do
  v.check block
  return { v with disk := update v.disk block data }

def sfsClearblock (v : Volume) (block : Word32) : Kernel Volume := sfsWblock v zeroBlock block

abbrev ballocPanic (block : Nat) : Panic := .message s!"sfs: balloc: invalid block {block}\n"

def sfsBalloc (v : Volume) : Kernel (Except Errno Word32 × Volume) := do
  match ← v.freemap.alloc with
  | (none, _) => return (.error File.eNoSpc, v)
  | (some index, freemap) =>
    if v.nblocks.toNat ≤ index then .error (ballocPanic index)
    else
      let block := BitVec.ofNat 32 index
      let v ← sfsClearblock { v with freemap := freemap, freemapdirty := true } block
      return (.ok block, v)

def sfsBfree (v : Volume) (diskblock : Word32) : Kernel Volume := do
  let freemap ← v.freemap.unmark diskblock.toNat
  return { v with freemap := freemap, freemapdirty := true }

abbrev busedPanic (block : Word32) : Panic :=
  .message s!"sfs: sfs_bused called on out of range block {block.toNat}\n"

def sfsBused (v : Volume) (diskblock : Word32) : Kernel Bool :=
  if v.nblocks ≤ diskblock then .error (busedPanic diskblock) else v.freemap.isset diskblock.toNat

/-- The block is marked in the free map. -/
def Volume.Used (v : Volume) (block : Word32) : Prop := v.freemap.bits block.toNat = true

/-- The blocks that can be allocated -/
def Volume.vacant (v : Volume) : Set Word32 := { block | block < v.nblocks ∧ ¬ v.Used block }

/-- The block has a bit in the free map and a place on the device, and 512 times its number is still
a 32-bit number. -/
structure Volume.Sound (v : Volume) : Prop where
  device : v.nblocks ≤ v.blocks
  addressable : v.nblocks.toNat ≤ 2 ^ 23
  mapped : v.nblocks.toNat ≤ v.freemap.nbits
  tail : ∀ index, v.nblocks.toNat ≤ index → index < v.freemap.room → v.freemap.bits index = true
  super : v.freemap.bits 0 = true

/-- The volume after a block has been allocated and cleared. -/
def Volume.grant (v : Volume) (block : Word32) : Volume :=
  { v with
    freemap := { v.freemap with bits := update v.freemap.bits block.toNat true }
    freemapdirty := true
    disk := update v.disk block zeroBlock }

/-- The volume after a block has been freed. -/
def Volume.free (v : Volume) (block : Word32) : Volume :=
  { v with
    freemap := { v.freemap with bits := update v.freemap.bits block.toNat false }
    freemapdirty := true }

/-- The volume after a block has been written. -/
def Volume.put (v : Volume) (block : Word32) (data : Block) : Volume :=
  { v with disk := update v.disk block data }

theorem Volume.Sound.put {v : Volume} (sound : v.Sound) (block : Word32) (data : Block) :
    (v.put block data).Sound :=
  ⟨sound.device, sound.addressable, sound.mapped, sound.tail, sound.super⟩

@[simp] theorem Volume.disk_grant (v : Volume) (block : Word32) :
    (v.grant block).disk = update v.disk block zeroBlock := rfl

@[simp] theorem Volume.disk_put (v : Volume) (block : Word32) (data : Block) :
    (v.put block data).disk = update v.disk block data := rfl

@[simp] theorem Volume.disk_free (v : Volume) (block : Word32) : (v.free block).disk = v.disk := rfl

/-- The volume keeps its size, and a free map that has changed is dirty. -/
structure Volume.Follows (v v' : Volume) : Prop where
  blocks : v'.blocks = v.blocks
  nblocks : v'.nblocks = v.nblocks
  nbits : v'.freemap.nbits = v.freemap.nbits
  map : v'.freemapdirty = true ∨ v'.freemap = v.freemap ∧ v'.freemapdirty = v.freemapdirty

theorem Volume.Follows.refl (v : Volume) : v.Follows v := ⟨rfl, rfl, rfl, .inr ⟨rfl, rfl⟩⟩

theorem Volume.Follows.trans {v : Volume} (first : v.Follows v') (second : v'.Follows v'') :
    v.Follows v'' where
  blocks := second.blocks.trans first.blocks
  nblocks := second.nblocks.trans first.nblocks
  nbits := second.nbits.trans first.nbits
  map := by
    rcases second.map with dirty | ⟨map, flag⟩
    · exact .inl dirty
    · rw [map, flag]
      exact first.map

theorem Volume.follows_grant (v : Volume) (block : Word32) : v.Follows (v.grant block) :=
  ⟨rfl, rfl, rfl, .inl rfl⟩

theorem Volume.follows_free (v : Volume) (block : Word32) : v.Follows (v.free block) :=
  ⟨rfl, rfl, rfl, .inl rfl⟩

theorem Volume.Follows.disk {v : Volume} (follows : v.Follows v') (disk : Word32 → Block) :
    v.Follows { v' with disk := disk } :=
  ⟨follows.blocks, follows.nblocks, follows.nbits, follows.map⟩

section

variable {v : Volume} {block : Word32}

theorem Bitmap.nbits_le_room (b : Bitmap) : b.nbits ≤ b.room := by
  rw [Bitmap.room]
  omega

section

variable (sound : v.Sound)
include sound

section

variable (below : block < v.nblocks)
include below

theorem Volume.Sound.check : v.check block = .ok () :=
  if_neg (BitVec.not_le.mpr (Std.lt_of_lt_of_le below sound.device))

theorem Volume.Sound.rblock : sfsRblock v block = .ok (v.disk block) := by
  rw [sfsRblock, sound.check below, ok_bind, pure_ok]

theorem Volume.Sound.wblock (data : Block) : sfsWblock v data block = .ok (v.put block data) := by
  rw [sfsWblock, sound.check below, ok_bind, pure_ok, Volume.put]

theorem Volume.Sound.bused : sfsBused v block = .ok (v.freemap.bits block.toNat) := by
  have mapped := sound.mapped
  have room := v.freemap.nbits_le_room
  have small := BitVec.lt_def.mp below
  rw [sfsBused, if_neg (BitVec.not_le.mpr below), Bitmap.isset, if_pos (by omega)]

theorem Volume.Sound.bfree (used : v.Used block) : sfsBfree v block = .ok (v.free block) := by
  have mapped := sound.mapped
  have small := BitVec.lt_def.mp below
  have marked : v.freemap.bits block.toNat = true := used
  have unmarked : v.freemap.unmark block.toNat =
      .ok { v.freemap with bits := update v.freemap.bits block.toNat false } := by
    rw [Bitmap.unmark, kassert_ok.mpr (by omega), ok_bind, kassert_ok.mpr marked, ok_bind, pure_ok]
  rw [sfsBfree, unmarked, ok_bind, pure_ok, Volume.free]

end

theorem Volume.Sound.balloc :
    (sfsBalloc v = .ok (.error File.eNoSpc, v) ∧ v.vacant = ∅) ∨
      ∃ block, sfsBalloc v = .ok (.ok block, v.grant block) ∧ block ≠ 0 ∧ ¬ v.Used block ∧
        block < v.nblocks := by
  have mapped := sound.mapped
  have room := v.freemap.nbits_le_room
  have counted := FirstRun.Counted.start (fun i => v.freemap.bits i = false) Nat.one_pos
  cases scanned : FirstRun.scan (fun i => v.freemap.bits i = false) 1 v.freemap.room 0 0 with
  | none =>
    have full := FirstRun.scan_none counted scanned
    refine .inl ⟨by simp [sfsBalloc, Bitmap.alloc, scanned], ?_⟩
    refine Set.eq_empty_iff_forall_notMem.mpr ?_
    rintro block ⟨below, clear⟩
    have small := BitVec.lt_def.mp below
    refine full block.toNat (by omega) ?_
    intro offset single
    rw [Nat.lt_one_iff.mp single]
    simpa [Volume.Used] using clear
  | some index =>
    obtain ⟨_, inside, run, _⟩ := FirstRun.scan_some counted scanned
    have clear : v.freemap.bits index = false := by simpa using run 0 Nat.one_pos
    have small : index < v.nblocks.toNat := by
      by_contra beyond
      rw [sound.tail index (by omega) (by omega)] at clear
      cases clear
    have number : (BitVec.ofNat 32 index).toNat = index := by
      rw [BitVec.toNat_ofNat]
      omega
    have below : BitVec.ofNat 32 index < v.nblocks := by
      rw [BitVec.lt_def, number]
      exact small
    have allocated : v.freemap.alloc = .ok (some index,
        { v.freemap with bits := update v.freemap.bits index true }) := by
      rw [Bitmap.alloc, scanned]
      simp only [kassert_ok.mpr (show index < v.freemap.nbits by omega), ok_bind, pure_ok]
    refine .inr ⟨BitVec.ofNat 32 index, ?_, ?_, ?_, below⟩
    · have inDevice := sound.check below
      simp only [sfsBalloc, allocated, ok_bind, if_neg (Nat.not_le.mpr small), sfsClearblock,
        sfsWblock, Volume.check] at inDevice ⊢
      simp only [inDevice, ok_bind, pure_ok, Volume.grant, number]
    · intro zero
      rw [← number, zero] at clear
      exact absurd (sound.super.symm.trans clear) (by decide)
    · rw [Volume.Used, number, clear]
      exact Bool.false_ne_true

end

end

end Os161.Sfs
