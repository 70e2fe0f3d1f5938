import Os161.Sfs.NameMap

namespace Os161.Sfs
open Word Outcome Function List BitVec

abbrev sfsMagic : Word32 := 0xabadf001

/-- `SFS_BITMAPSIZE` -/
def bitmapsize (nblocks : Word32) : Word32 := (nblocks + 4096 - 1) / 4096 * 4096

/-- `SFS_BITBLOCKS` -/
def bitblocks (nblocks : Word32) : Word32 := bitmapsize nblocks / 4096

abbrev Disk := Word32 → Block

/-- `diskwrite` of `mksfs`, on a device with some number of blocks -/
def diskwrite (blocks : Word32) (disk : Disk) (data : Block) (block : Word32) : Kernel Disk :=
  if blocks ≤ block then .error (.message "write") else .ok (update disk block data)

/-- The superblock without the name of the volume -/
def superblock (nblocks : Word32) : Block :=
  .ofWords fun index => if index = 0 then sfsMagic else if index = 1 then nblocks else 0

def rootInode : Inode := ⟨0, typeDir, 1, fun _ => 0, 0⟩

/-- A bit in a buffer of bytes -/
def bitAt (bytes : Nat → Byte) (bit : Nat) : Bool := (bytes (bit / 8)).getLsbD (bit % 8)

def setBit (bytes : Nat → Byte) (bit : Nat) : Nat → Byte :=
  update bytes (bit / 8) (bytes (bit / 8) ||| 1 <<< (bit % 8))

def doallocbit (bitbuf : Nat → Byte) (bit : Nat) : Kernel (Nat → Byte) := do
  kassert (bitAt bitbuf bit = false) "(bitbuf[byte] & mask) == 0"
  return setBit bitbuf bit

/-- `writebitmap` marks the superblock, the root, the free map and what is behind the last block. -/
def markbits (fsblocks : Word32) : Kernel (Nat → Byte) := do
  let bitbuf ← doallocbit (fun _ => 0) 0
  let bitbuf ← doallocbit bitbuf 1
  let bitbuf ← (List.range (bitblocks fsblocks).toNat).foldlM (fun buf i => doallocbit buf (2 + i)) bitbuf
  (List.range' fsblocks.toNat ((bitmapsize fsblocks).toNat - fsblocks.toNat)).foldlM doallocbit bitbuf

def writebitmap (fsblocks : Word32) (disk : Disk) : Kernel Disk := do
  if 32 < bitblocks fsblocks then
    .error (.message "Filesystem too large - increase MAXBITBLOCKS and recompile")
  else
    let bitbuf ← markbits fsblocks
    (List.range (bitblocks fsblocks).toNat).foldlM (fun disk i =>
      diskwrite fsblocks disk (fun offset => bitbuf (512 * i + offset)) (2 + BitVec.ofNat 32 i)) disk

/-- `mksfs` on a device with some number of blocks -/
def mksfs (size : Word32) (disk : Disk) : Kernel Disk := do
  let disk ← diskwrite size disk (superblock size) 0
  let disk ← diskwrite size disk rootInode.encode rootLocation
  writebitmap size disk

/-- `sfs_mapio` reads the free map. -/
def sfsMapio (v : Volume) (mapsize : Nat) : Kernel (List Block) :=
  (List.range mapsize).mapM fun j => sfsRblock v (2 + BitVec.ofNat 32 j)

/-- The bits of a free map that is in blocks -/
def mapBits (blocks : List Block) (bit : Nat) : Bool :=
  bitAt (blocks.getD (bit / 4096) zeroBlock) (bit % 4096)

def sfsDomount (blocks : Word32) (disk : Disk) : Kernel (Except Errno SfsFs) := do
  let device : Volume := ⟨blocks, 0, ⟨0, fun _ => false⟩, false, disk⟩
  let super ← sfsRblock device 0
  if super.word 0 ≠ sfsMagic then return .error eInval
  else
    let nblocks := super.word 1
    let map ← sfsMapio device (bitblocks nblocks).toNat
    return .ok ⟨⟨blocks, nblocks, ⟨(bitmapsize nblocks).toNat, mapBits map⟩, false, disk⟩, []⟩

section

@[simp] theorem bitAt_setBit (bitbuf : Nat → Byte) (bit other : Nat) :
    bitAt (setBit bitbuf bit) other = (bitAt bitbuf other || decide (other = bit)) := by
  have shifted (k j : Nat) (low : k < 8) (here : j < 8) :
      (1 <<< k : Byte).getLsbD j = decide (j = k) := by
    have bound : ∀ k j : Fin 8, (1 <<< k.val : Byte).getLsbD j.val = decide (j.val = k.val) := by decide
    exact bound ⟨k, low⟩ ⟨j, here⟩
  unfold bitAt setBit
  by_cases same : other / 8 = bit / 8
  · rw [same, update_self, getLsbD_or, shifted _ _ (by omega) (by omega)]
    congr 2
    rw [eq_iff_iff]
    omega
  · rw [update_of_ne same]
    have apart : other ≠ bit := fun equal => same (by rw [equal])
    simp [apart]

theorem doallocbits {bits : List Nat} (nodup : bits.Nodup) (clear : ∀ bit ∈ bits, bitAt bitbuf bit = false) :
    ∃ marked, bits.foldlM doallocbit bitbuf = .ok marked ∧
      ∀ bit, bitAt marked bit = (bitAt bitbuf bit || decide (bit ∈ bits)) := by
  induction bits generalizing bitbuf with
  | nil => exact ⟨bitbuf, rfl, fun bit => by simp⟩
  | cons first rest ih =>
    obtain ⟨fresh, nodup⟩ := nodup_cons.mp nodup
    have step : doallocbit bitbuf first = .ok (setBit bitbuf first) := by
      rw [doallocbit, kassert_ok.mpr (clear first mem_cons_self), ok_bind, pure_ok]
    have later : ∀ bit ∈ rest, bitAt (setBit bitbuf first) bit = false := by
      intro bit mem
      have apart : bit ≠ first := fun same => fresh (same ▸ mem)
      simp [clear bit (mem_cons_of_mem _ mem), apart]
    obtain ⟨marked, done, bits⟩ := ih nodup later
    refine ⟨marked, by rw [foldlM_cons, step, ok_bind, done], ?_⟩
    intro bit
    simp [bits, Bool.or_assoc]

/-- The bits that `mksfs` marks. -/
def markedBits (fsblocks : Word32) : List Nat :=
  List.range (2 + (bitblocks fsblocks).toNat) ++
    List.range' fsblocks.toNat ((bitmapsize fsblocks).toNat - fsblocks.toNat)

theorem markbits_eq (fsblocks : Word32) :
    markbits fsblocks = (markedBits fsblocks).foldlM doallocbit (fun _ => 0) := by
  have front : List.range (2 + (bitblocks fsblocks).toNat) =
      0 :: 1 :: (List.range (bitblocks fsblocks).toNat).map (2 + ·) := by
    rw [range_add]
    rfl
  rw [markedBits, front, foldlM_append]
  simp only [foldlM_cons, foldlM_map, bind_assoc, markbits]

theorem markbits_ok {fsblocks : Word32} (room : 2 + (bitblocks fsblocks).toNat ≤ fsblocks.toNat) :
    ∃ bitbuf, markbits fsblocks = .ok bitbuf ∧ ∀ bit, bitAt bitbuf bit =
      decide (bit < 2 + (bitblocks fsblocks).toNat ∨
        fsblocks.toNat ≤ bit ∧ bit < (bitmapsize fsblocks).toNat) := by
  have nodup : (markedBits fsblocks).Nodup := by
    refine nodup_append'.mpr ⟨nodup_range, nodup_range', ?_⟩
    intro bit low high
    rw [mem_range] at low
    rw [mem_range'_1] at high
    omega
  have clear (bit : Nat) : bitAt (fun _ => 0) bit = false := getLsbD_zero
  obtain ⟨bitbuf, done, bits⟩ := doallocbits nodup fun bit _ => clear bit
  refine ⟨bitbuf, by rw [markbits_eq, done], ?_⟩
  intro bit
  rw [bits, clear, Bool.false_or, decide_eq_decide, markedBits, mem_append, mem_range,
    mem_range'_1]
  omega

end

section

variable {size : Word32}

theorem bitmapsize_toNat (size : Word32) :
    (bitmapsize size).toNat = (size.toNat + 4095) % 2 ^ 32 / 4096 * 4096 := by
  rw [bitmapsize, toNat_mul, toNat_udiv, toNat_sub]
  simp
  omega

theorem bitblocks_toNat (size : Word32) :
    (bitblocks size).toNat = (size.toNat + 4095) % 2 ^ 32 / 4096 := by
  rw [bitblocks, toNat_udiv, bitmapsize_toNat]
  simp

end

theorem writeblocks {size : Word32} {count : Nat} (room : 2 + count ≤ size.toNat) (data : Nat → Block)
    (disk : Disk) :
    ∃ disk', (List.range count).foldlM (fun disk i =>
        diskwrite size disk (data i) (2 + BitVec.ofNat 32 i)) disk = .ok disk' ∧
      (∀ i < count, disk' (2 + BitVec.ofNat 32 i) = data i) ∧
      ∀ block : Word32, block.toNat < 2 → disk' block = disk block := by
  have place (i : Nat) (small : i < count) : (2 + BitVec.ofNat 32 i : Word32).toNat = 2 + i := by
    change (2 + i % 2 ^ 32) % 2 ^ 32 = 2 + i
    omega
  induction count with
  | zero => exact ⟨disk, rfl, fun i small => absurd small (Nat.not_lt_zero i), fun _ _ => rfl⟩
  | succ count ih =>
    obtain ⟨disk', done, there, others⟩ := ih (by omega) fun i small => place i (by omega)
    have here := place count (by omega)
    have inside : ¬ size ≤ 2 + BitVec.ofNat 32 count := by
      rw [le_def]
      omega
    refine ⟨update disk' (2 + BitVec.ofNat 32 count) (data count), ?_, ?_, ?_⟩
    · rw [range_succ, foldlM_append, done, ok_bind, foldlM_cons, diskwrite, if_neg inside,
        ok_bind, foldlM_nil, pure_ok]
    · intro i small
      by_cases same : i = count
      · rw [same, update_self]
      · have apart : (2 + BitVec.ofNat 32 i : Word32) ≠ 2 + BitVec.ofNat 32 count := by
          intro equal
          have numbers := congrArg BitVec.toNat equal
          rw [place i small] at numbers
          omega
        rw [update_of_ne apart, there i (by omega)]
    · intro block low
      have apart : block ≠ 2 + BitVec.ofNat 32 count := by
        rintro rfl
        omega
      rw [update_of_ne apart, others block low]

theorem sfsMapio_ok {v : Volume} {mapsize : Nat} (room : 2 + mapsize ≤ v.blocks.toNat) :
    sfsMapio v mapsize = .ok ((List.range mapsize).map fun j => v.disk (2 + BitVec.ofNat 32 j)) := by
  unfold sfsMapio
  induction mapsize with
  | zero => rfl
  | succ mapsize ih =>
    have here : (2 + BitVec.ofNat 32 mapsize : Word32).toNat = 2 + mapsize := by
      change (2 + mapsize % 2 ^ 32) % 2 ^ 32 = 2 + mapsize
      omega
    have inside : ¬ v.blocks ≤ 2 + BitVec.ofNat 32 mapsize := by
      rw [le_def]
      omega
    rw [range_succ, mapM_append, ih (by omega), map_append, mapM_cons,
      sfsRblock, Volume.check, if_neg inside]
    rfl

theorem mapBits_range (bitbuf : Nat → Byte) {count bit : Nat} (small : bit < 4096 * count) :
    mapBits ((List.range count).map fun j offset => bitbuf (512 * j + offset)) bit = bitAt bitbuf bit := by
  have index : bit / 4096 < count := by omega
  have block : ((List.range count).map fun j offset => bitbuf (512 * j + offset)).getD (bit / 4096) zeroBlock =
      fun offset => bitbuf (512 * (bit / 4096) + offset) := by
    simp [index]
  rw [mapBits, block, bitAt, bitAt, show 512 * (bit / 4096) + bit % 4096 / 8 = bit / 8 by omega,
    show bit % 4096 % 8 = bit % 8 by omega]

theorem mapBits_beyond {blocks : List Block} {bit : Nat} (beyond : 4096 * blocks.length ≤ bit) :
    mapBits blocks bit = false := by
  have missing : blocks.getD (bit / 4096) zeroBlock = zeroBlock := by
    rw [List.getD, List.getElem?_eq_none (by omega), Option.getD_none]
  rw [mapBits, missing]
  exact getLsbD_zero

/-- A volume that has just been made and mounted -/
structure SfsFs.Mounted (s : SfsFs) (size : Word32) : Prop where
  unloaded : s.vnodes = []
  device : s.vol.blocks = size
  nblocks : s.vol.nblocks = size
  nbits : s.vol.freemap.nbits = (bitmapsize size).toNat
  bits : ∀ bit, s.vol.freemap.bits bit = decide (bit < (bitmapsize size).toNat ∧
    (bit < 2 + (bitblocks size).toNat ∨ size.toNat ≤ bit))
  root : Inode.decode (s.vol.disk rootLocation) = rootInode

section

variable {size : Word32} {disk disk' : Disk} {s : SfsFs}

theorem diskwrite_ok {data : Block} {block : Word32} (inside : block.toNat < size.toNat) :
    diskwrite size disk data block = .ok (update disk block data) := by
  rw [diskwrite, if_neg]
  rw [le_def]
  omega

theorem mksfs_ok (few : (bitblocks size).toNat ≤ 32) (room : 2 + (bitblocks size).toNat ≤ size.toNat)
    (disk : Disk) :
    ∃ disk' s, mksfs size disk = .ok disk' ∧ sfsDomount size disk' = .ok (.ok s) ∧ s.Mounted size := by
  obtain ⟨bitbuf, marked, bits⟩ := markbits_ok room
  obtain ⟨disk', written, map, low⟩ := writeblocks room (fun i offset => bitbuf (512 * i + offset))
    (update (update disk 0 (superblock size)) rootLocation rootInode.encode)
  have fits : ¬ 32 < bitblocks size := by
    exact Nat.not_lt.mpr few
  have made : mksfs size disk = .ok disk' := by
    rw [mksfs, diskwrite_ok (show (0 : Word32).toNat < _ by simp; omega), ok_bind,
      diskwrite_ok (show rootLocation.toNat < _ by simp; omega), ok_bind, writebitmap, if_neg fits, marked,
      ok_bind, written]
  have first : disk' 0 = superblock size := by
    rw [low 0 (by decide), update_of_ne (by decide), update_self]
  have second : disk' rootLocation = rootInode.encode := by
    rw [low rootLocation (by decide), update_self]
  have magic : (superblock size).word 0 = sfsMagic := word_ofWords _ _
  have number : (superblock size).word 1 = size := word_ofWords _ _
  have loaded : (List.range (bitblocks size).toNat).map (fun j => disk' (2 + BitVec.ofNat 32 j)) =
      (List.range (bitblocks size).toNat).map fun j offset => bitbuf (512 * j + offset) :=
    map_congr_left fun j mem => map j (mem_range.mp mem)
  have super : sfsRblock ⟨size, 0, ⟨0, fun _ => false⟩, false, disk'⟩ 0 = .ok (superblock size) := by
    have inside : ¬ size ≤ 0 := by
      change ¬ size.toNat ≤ 0
      omega
    rw [sfsRblock, Volume.check, if_neg inside]
    exact congrArg _ first
  have whole : (bitmapsize size).toNat = 4096 * (bitblocks size).toNat := by
    rw [bitmapsize_toNat, bitblocks_toNat, Nat.mul_comm]
  have marks (bit : Nat) :
      mapBits ((List.range (bitblocks size).toNat).map fun j offset => bitbuf (512 * j + offset)) bit =
        decide (bit < (bitmapsize size).toNat ∧ (bit < 2 + (bitblocks size).toNat ∨ size.toNat ≤ bit)) := by
    by_cases small : bit < 4096 * (bitblocks size).toNat
    · rw [mapBits_range bitbuf small, bits, decide_eq_decide]
      omega
    · rw [mapBits_beyond (by simpa using small), whole]
      simp [small]
  refine ⟨disk', ⟨⟨size, size, ⟨(bitmapsize size).toNat, mapBits ((List.range (bitblocks size).toNat).map
    fun j offset => bitbuf (512 * j + offset))⟩, false, disk'⟩, []⟩, made, ?_, ?_⟩
  · simp only [sfsDomount, super, ok_bind, magic, number, ne_eq, not_true, if_false]
    rw [sfsMapio_ok room, ok_bind, pure_ok, ← loaded]
  · exact ⟨rfl, rfl, rfl, rfl, marks, (congrArg Inode.decode second).trans (Inode.decode_encode _)⟩

theorem mksfs_size (made : mksfs size disk = .ok disk') :
    (bitblocks size).toNat ≤ 32 ∧ 2 + (bitblocks size).toNat ≤ size.toNat := by
  have blocks := bitblocks_toNat size
  obtain ⟨first, one, made⟩ := bind_ok.mp made
  obtain ⟨second, two, made⟩ := bind_ok.mp made
  have some : 2 ≤ size.toNat := by
    by_contra tiny
    have out : size ≤ rootLocation := by
      change size.toNat ≤ 1
      omega
    rw [diskwrite, if_pos out] at two
    cases two
  have few : (bitblocks size).toNat ≤ 32 := by
    by_contra many
    have large : 32 < bitblocks size := by
      exact Nat.not_le.mp many
    rw [writebitmap, if_pos large] at made
    cases made
  refine ⟨few, ?_⟩
  have three : size.toNat ≠ 2 := by
    intro equal
    obtain rfl : size = 2 := eq_of_toNat_eq equal
    cases made
  omega

theorem mksfs_mounted (made : mksfs size disk = .ok disk') (mounted : sfsDomount size disk' = .ok (.ok s)) :
    s.Mounted size ∧ 3 ≤ size.toNat ∧ (size.toNat ≤ 131072 ∨ 2 ^ 32 - 4096 < size.toNat) := by
  have blocks := bitblocks_toNat size
  obtain ⟨few, room⟩ := mksfs_size made
  obtain ⟨disk₁, s₁, made₁, mounted₁, fresh⟩ := mksfs_ok few room disk
  rw [made] at made₁
  cases made₁
  rw [mounted] at mounted₁
  cases mounted₁
  exact ⟨fresh, by omega⟩

theorem SfsFs.Mounted.blank (mounted : s.Mounted size) : s.Blank := ⟨mounted.unloaded, mounted.root⟩

theorem SfsFs.Mounted.fresh (mounted : s.Mounted size) (least : 3 ≤ size.toNat)
    (most : size.toNat ≤ 131072) : s.Fresh := by
  have whole := bitmapsize_toNat size
  have device := mounted.device
  have nblocks := mounted.nblocks
  have nbits := mounted.nbits
  refine ⟨mounted.blank, ⟨?_, ?_, ?_, ?_, ?_⟩, ?_, ?_⟩
  · rw [device, nblocks]
    exact BitVec.le_refl _
  · rw [nblocks]
    omega
  · rw [nblocks]
    omega
  · intro index beyond inside
    rw [Bitmap.room] at inside
    rw [nblocks] at beyond
    rw [mounted.bits]
    exact decide_eq_true ⟨by omega, .inr beyond⟩
  · rw [mounted.bits]
    exact decide_eq_true ⟨by omega, .inl (by omega)⟩
  · rw [nblocks]
    change 1 < size.toNat
    omega
  · rw [Volume.Used, mounted.bits]
    exact decide_eq_true ⟨show 1 < _ by omega, .inl (show 1 < _ by omega)⟩

theorem SfsFs.Mounted.stuck (mounted : s.Mounted size) (huge : 2 ^ 32 - 4096 < size.toNat) :
    ¬ s.Step req s' := by
  have whole := bitmapsize_toNat size
  have none (v : Word32) : s.held v = none := by
    rw [SfsFs.held, SfsFs.find, mounted.unloaded, List.find?_nil, Option.map_none]
  rintro ⟨allowed, reply, ran⟩
  cases req with
  | getroot memory =>
    have searched : searchVnodes s.vol rootLocation s.vnodes = .ok false := by
      rw [mounted.unloaded, searchVnodes]
    have unmapped : sfsBused s.vol rootLocation = .error (.badIndex 1) := by
      rw [sfsBused, if_neg, Bitmap.isset, if_neg]
      · rfl
      · rw [Bitmap.room, mounted.nbits]
        omega
      · rw [mounted.nblocks, le_def]
        change ¬ size.toNat ≤ 1
        omega
    by_cases first : memory.vnode = false
    · simp only [SfsFs.perform, sfsGetroot, sfsLoadvnode, searched, ok_bind,
        loadFresh, if_pos first, pure_ok] at ran
      cases ran
    · simp only [SfsFs.perform, sfsGetroot, sfsLoadvnode, searched, ok_bind,
        loadFresh, if_neg first, unmapped] at ran
      cases ran
  | lookup d _ _ => exact allowed (none d)
  | creat d _ _ _ => exact allowed (none d)
  | link d _ _ | rename d _ _ _ _ => exact allowed.1 (none d)
  | remove d _ _ => exact allowed (none d)
  | read v _ | write v _ => exact allowed.1 (none v)
  | truncate v _ => exact allowed (none v)
  | incref v => exact allowed (none v)
  | decref v | incopen v | decopen v =>
    obtain ⟨counts, held, _⟩ := allowed
    cases (none v).symm.trans held

end

end Os161.Sfs
