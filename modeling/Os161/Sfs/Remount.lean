import Os161.File.Devices
import Os161.Sfs.Integrity

namespace Os161.Sfs
open Word Outcome SlotMap Transition List BitVec SfsFs Function

/-- A number with these bits, the lowest one first -/
def packBits (bits : Nat → Bool) : (width : Nat) → BitVec width
  | 0 => .nil
  | width + 1 => (packBits (fun i => bits (i + 1)) width).concat (bits 0)

/-- A byte of a bitmap -/
def bitmapByte (bits : Nat → Bool) (index : Nat) : Byte := packBits (fun i => bits (8 * index + i)) 8

/-- A block of the free map -/
def mapBlock (bits : Nat → Bool) (j : Nat) : Block := fun offset => bitmapByte bits (512 * j + offset)

/-- `sfs_mapio` writes the free map. -/
def mapioWrite (v : Volume) : Kernel Volume :=
  (List.range (bitblocks v.nblocks).toNat).foldlM (fun v' j =>
    sfsWblock v' (mapBlock v.freemap.bits j) (2 + BitVec.ofNat 32 j)) v

def sfsFsync (s : SfsFs) (v : Word32) : Kernel SfsFs := do
  let f ← s.file v
  let f ← sfsSyncInode f
  return s.put f

/-- `sfs_sync` behind its loop. Nothing in the source makes the superblock dirty. -/
def syncMap (s : SfsFs) : Kernel (Errno × SfsFs) := do
  if s.vol.freemapdirty then
    let vol ← mapioWrite s.vol
    return (0, { s with vol := { vol with freemapdirty := false } })
  else return (0, s)

def sfsSync (s : SfsFs) : Kernel (Errno × SfsFs) := do
  let s ← (s.vnodes.map SfsVnode.ino).foldlM sfsFsync s
  syncMap s

def sfsUnmount (s : SfsFs) : Kernel Errno := do
  if 0 < s.vnodes.length then return eBusy
  else
    kassert (s.vol.freemapdirty = false) "sfs->sfs_freemapdirty == false"
    return 0

/-- What can be done with a mounted volume: calls on its vnodes, `VOP_FSYNC` and `FSOP_SYNC` -/
inductive VolumeCall where
  | request (request : Request) (reply : Reply)
  | fsync (v : Word32)
  | sync

def SfsFs.VolumeStep (s : SfsFs) : VolumeCall → SfsFs → Prop
  | .request request reply, s' => s.Answers (request, reply) s'
  | .fsync v, s' => s.held v ≠ none ∧ sfsFsync s v = .ok s'
  | .sync, s' => sfsSync s = .ok (0, s')

/-- The counts of the vnodes after a call -/
def VolumeCall.tally (before : Word32 → Nat × Nat) : VolumeCall → Word32 → Nat × Nat
  | .request call reply => call.tally before reply
  | _ => before

/-- Two states of a volume with the same directory, the same inodes in use with the same contents, and the
same free blocks -/
structure SfsFs.SameVolume (s s' : SfsFs) : Prop where
  names : s'.names = s.names
  alive : ∀ v, s'.Alive v ↔ s.Alive v
  content : ∀ v, s.Alive v → (s'.fileAt v).content = (s.fileAt v).content
  size : ∀ v, s.Alive v → (s'.vnodeAt v).inode.size = (s.vnodeAt v).inode.size
  linkcount : ∀ v, s.Alive v → (s'.vnodeAt v).inode.linkcount = (s.vnodeAt v).inode.linkcount
  vacant : s'.vol.vacant = s.vol.vacant

section

theorem getLsbD_packBits (bits : Nat → Bool) (small : i < width) :
    (packBits bits width).getLsbD i = bits i := by
  induction width generalizing bits i with
  | zero => exact absurd small (Nat.not_lt_zero i)
  | succ width ih =>
    rw [packBits, getLsbD_concat]
    cases i with
    | zero => exact if_pos rfl
    | succ i =>
      exact ih _ (by omega)

theorem bitAt_bitmapByte (bits : Nat → Bool) (bit : Nat) : bitAt (bitmapByte bits) bit = bits bit := by
  rw [bitAt, bitmapByte, getLsbD_packBits _ (Nat.mod_lt _ (by decide)), Nat.div_add_mod]

/-- The disk after blocks from the third on have been written -/
def overlay (disk : Disk) (data : Nat → Block) (count : Nat) : Disk := fun block =>
  if 2 ≤ block.toNat ∧ block.toNat < 2 + count then data (block.toNat - 2) else disk block

theorem mapBlock_toNat (small : 2 + j < 2 ^ 32) : (2 + BitVec.ofNat 32 j : Word32).toNat = 2 + j := by
  change (2 + j % 2 ^ 32) % 2 ^ 32 = 2 + j
  omega

theorem overlay_inside (disk : Disk) (data : Nat → Block) {count j : Nat} (small : j < count)
    (fits : 2 + count ≤ 2 ^ 32) : overlay disk data count (2 + BitVec.ofNat 32 j) = data j := by
  rw [overlay, mapBlock_toNat (by omega), if_pos (by omega), Nat.add_sub_cancel_left]

theorem overlay_below (disk : Disk) (data : Nat → Block) (count : Nat) {block : Word32}
    (low : block.toNat < 2) : overlay disk data count block = disk block := if_neg (by omega)

theorem writeMap (data : Nat → Block) (v : Volume) {count : Nat} (room : 2 + count ≤ v.blocks.toNat) :
    (List.range count).foldlM (fun v j => sfsWblock v (data j) (2 + BitVec.ofNat 32 j)) v =
      .ok { v with disk := overlay v.disk data count } := by
  induction count with
  | zero =>
    have same : overlay v.disk data 0 = v.disk := funext fun block => if_neg (by omega)
    rw [same]
    rfl
  | succ count ih =>
    have here := mapBlock_toNat (j := count) (by omega)
    have inside : ¬ v.blocks ≤ 2 + BitVec.ofNat 32 count := by
      rw [le_def]
      omega
    rw [range_succ, foldlM_append, ih (by omega), ok_bind, foldlM_cons, sfsWblock,
      Volume.check, if_neg inside, ok_bind, pure_ok, ok_bind, foldlM_nil]
    congr 2
    funext block
    by_cases same : block = 2 + BitVec.ofNat 32 count
    · rw [same, update_self, overlay_inside v.disk data (Nat.lt_succ_self count) (by omega)]
    · have apart : block.toNat ≠ 2 + count := fun equal => same (eq_of_toNat_eq (equal.trans here.symm))
      rw [update_of_ne same]
      change overlay v.disk data count block = overlay v.disk data (count + 1) block
      unfold overlay
      congr 1
      rw [eq_iff_iff]
      omega

end

/-- A volume on which the live inodes keep their blocks with what they hold -/
structure SfsFs.Houses (s : SfsFs) (live : Set Word32) (vol : Volume) : Prop where
  volume : vol.Sound
  nblocks : vol.nblocks = s.vol.nblocks
  used : ∀ v ∈ live, ∀ block ∈ (s.fileAt v).territory, vol.Used block
  disk : ∀ v ∈ live, ∀ block ∈ (s.fileAt v).territory, vol.disk block = s.vol.disk block

section

variable {s : SfsFs} {live : Set Word32} {table : Table Name Word32} {vol : Volume} {v : Word32}

section

variable (houses : s.Houses live vol)
include houses

theorem SfsFs.Houses.vnodeAt (owned : s.Owned live) (mem : v ∈ live) :
    SfsFs.vnodeAt ⟨vol, s.vnodes⟩ v = s.vnodeAt v := by
  cases found : s.find v with
  | some sv =>
    rw [vnodeAt_of_find found]
    exact vnodeAt_of_find (s := ⟨vol, s.vnodes⟩) found
  | none =>
    rw [vnodeAt_of_none found, ← houses.disk v mem v (owned.self mem)]
    exact vnodeAt_of_none (s := ⟨vol, s.vnodes⟩) found

theorem SfsFs.Houses.fileAt (owned : s.Owned live) (mem : v ∈ live) :
    SfsFs.fileAt ⟨vol, s.vnodes⟩ v = ⟨vol, (s.fileAt v).sv⟩ := by
  rw [SfsFs.fileAt, houses.vnodeAt owned mem]
  rfl

theorem SfsFs.Houses.territory (owned : s.Owned live) (mem : v ∈ live) :
    (SfsFs.fileAt ⟨vol, s.vnodes⟩ v).territory = (s.fileAt v).territory := by
  rw [houses.fileAt owned mem]
  exact SfsFile.territory_frame (houses.disk v mem)

theorem SfsFs.Houses.alike (owned : s.Owned live) (mem : v ∈ live) :
    (s.fileAt v).Alike (SfsFs.fileAt ⟨vol, s.vnodes⟩ v) := by
  rw [houses.fileAt owned mem]
  have kept := houses.disk v mem
  exact ⟨SfsFile.blockAt_frame kept, SfsFile.content_frame kept, rfl, rfl⟩

theorem SfsFs.Houses.owned (owned : s.Owned live) :
    SfsFs.Owned ⟨vol, s.vnodes⟩ live where
  volume := houses.volume
  nodup := owned.nodup
  loaded v sv found := owned.loaded v sv found
  held v sv found := owned.held v sv found
  saved v sv found clean := by
    have mem := owned.loaded v sv found
    exact (congrArg Inode.decode (houses.disk v mem v (owned.self mem))).trans (owned.saved v sv found clean)
  sound v mem := by
    rw [houses.fileAt owned mem]
    exact (owned.sound v mem).transport houses.volume houses.nblocks rfl
      (SfsFile.blockAt_frame (houses.disk v mem)) (houses.used v mem)
  apart v first w second block left right := by
    rw [houses.territory owned first] at left
    rw [houses.territory owned second] at right
    exact owned.apart v first w second block left right

theorem SfsFs.Houses.inv (inv : s.Inv live table (links table)) :
    SfsFs.Inv ⟨vol, s.vnodes⟩ live table (links table) :=
  { inv with
    owned := houses.owned inv.owned
    dir := inv.dir.alike ((houses.owned inv.owned).sound rootLocation inv.root) (houses.alike inv.owned inv.root)
    listing := (houses.alike inv.owned inv.root).listing.trans inv.listing
    types v mem apart := by
      rw [houses.vnodeAt inv.owned mem]
      exact inv.types v mem apart
    counts v mem := by
      rw [houses.vnodeAt inv.owned mem]
      exact inv.counts v mem }

theorem SfsFs.Houses.sameVolume (inv : s.Inv live s.listing (links s.listing))
    (vacant : vol.vacant = s.vol.vacant) : s.SameVolume ⟨vol, s.vnodes⟩ := by
  have inv' := houses.inv inv
  have listing : SfsFs.listing ⟨vol, s.vnodes⟩ = s.listing := inv'.listing
  rw [← listing] at inv'
  refine ⟨by rw [SfsFs.names, listing, SfsFs.names], ?_, ?_, ?_, ?_, vacant⟩
  · intro v
    rw [← inv.mem_live, ← inv'.mem_live]
  · intro v alive
    exact (houses.alike inv.owned ((inv.mem_live v).mpr alive)).content
  · intro v alive
    rw [houses.vnodeAt inv.owned ((inv.mem_live v).mpr alive)]
  · intro v alive
    rw [houses.vnodeAt inv.owned ((inv.mem_live v).mpr alive)]

end

theorem SfsFs.SameVolume.refl (s : SfsFs) : s.SameVolume s :=
  ⟨rfl, fun _ => .rfl, fun _ _ => rfl, fun _ _ => rfl, fun _ _ => rfl, rfl⟩

theorem SfsFs.SameVolume.trans (first : s.SameVolume s') (second : s'.SameVolume s'') :
    s.SameVolume s'' where
  names := second.names.trans first.names
  alive v := (second.alive v).trans (first.alive v)
  content v alive := (second.content v ((first.alive v).mpr alive)).trans (first.content v alive)
  size v alive := (second.size v ((first.alive v).mpr alive)).trans (first.size v alive)
  linkcount v alive := (second.linkcount v ((first.alive v).mpr alive)).trans (first.linkcount v alive)
  vacant := second.vacant.trans first.vacant

end

/-- The blocks of the free map on the disk -/
def Volume.mapBlocks (v : Volume) : List Block :=
  (List.range (bitblocks v.nblocks).toNat).map fun j => v.disk (2 + BitVec.ofNat 32 j)

/-- A consistent volume whose superblock and free map can be read back from the disk. The free map on the
disk is the one in memory unless that one is dirty. -/
structure SfsFs.Stored (s : SfsFs) (size : Word32) (live : Set Word32) : Prop where
  device : s.vol.blocks = size
  inv : s.Inv live s.listing (links s.listing)
  magic : (s.vol.disk 0).word 0 = sfsMagic
  number : (s.vol.disk 0).word 1 = s.vol.nblocks
  nbits : s.vol.freemap.nbits = (bitmapsize s.vol.nblocks).toNat
  room : 2 + (bitblocks s.vol.nblocks).toNat ≤ s.vol.blocks.toNat
  reserved : ∀ j < (bitblocks s.vol.nblocks).toNat, 2 + BitVec.ofNat 32 j ∈ s.stray live
  clean : s.vol.freemapdirty = false →
    ∀ bit < s.vol.freemap.nbits, mapBits s.vol.mapBlocks bit = s.vol.freemap.bits bit

section

variable {s s' : SfsFs} {size : Word32} {live live' : Set Word32} {table : Table Name Word32}

theorem SfsFs.Inv.zero_stray (inv : s.Inv live table (links table)) : 0 ∈ s.stray live :=
  ⟨inv.owned.volume.super, fun _ _ inside => inside.1 rfl⟩

theorem SfsFs.Stored.spares (stored : s.Stored size live) (spares : s.Spares live s' live')
    (inv : s'.Inv live' s'.listing (links s'.listing)) : s'.Stored size live' := by
  obtain ⟨blocks, nblocks, nbits, map⟩ := spares.follows
  have map₀ : s'.vol.mapBlocks = s.vol.mapBlocks := by
    unfold Volume.mapBlocks
    rw [nblocks]
    refine map_congr_left fun j mem => ?_
    exact spares.disk _ (stored.reserved j (mem_range.mp mem))
  have super := spares.disk 0 stored.inv.zero_stray
  refine ⟨blocks.trans stored.device, inv, ?_, ?_, ?_, ?_, ?_, ?_⟩
  · rw [super, stored.magic]
  · rw [super, nblocks, stored.number]
  · rw [nbits, nblocks, stored.nbits]
  · rw [nblocks, blocks]
    exact stored.room
  · rw [nblocks]
    exact fun j small => spares.stray (stored.reserved j small)
  · intro undirtied bit small
    rcases map with dirty | ⟨same, flag⟩
    · rw [dirty] at undirtied
      cases undirtied
    · rw [map₀, same]
      rw [nbits] at small
      exact stored.clean (flag ▸ undirtied) bit small

theorem SfsFs.Stored.fsync (stored : s.Stored size live) (held : s.held v ≠ none) :
    ∃ s', sfsFsync s v = .ok s' ∧ s'.Stored size live ∧ s'.held = s.held := by
  obtain ⟨sv, _, found, _⟩ := find_of_held_ne held
  obtain ⟨f', synced, _, kept, alters, same, _⟩ := stored.inv.sync found
  obtain listing : (s.put f').listing = s.listing := kept.listing
  refine ⟨s.put f', ?_, stored.spares (alters.keeps stored.inv.owned).spares (listing.symm ▸ kept), same⟩
  rw [sfsFsync, file_eq found, ok_bind]
  exact congrArg (· >>= _) synced

theorem SfsFs.Stored.syncVnodes (stored : s.Stored size live) (vnodes : List Word32)
    (held : ∀ v ∈ vnodes, s.held v ≠ none) :
    ∃ s', vnodes.foldlM sfsFsync s = .ok s' ∧ s'.Stored size live ∧ s'.held = s.held := by
  induction vnodes generalizing s with
  | nil => exact ⟨s, rfl, stored, rfl⟩
  | cons v rest ih =>
    obtain ⟨s₁, synced, stored₁, held₁⟩ := stored.fsync (held v mem_cons_self)
    obtain ⟨s', done, stored', held'⟩ := ih stored₁ fun w mem => by
      rw [held₁]
      exact held w (mem_cons_of_mem v mem)
    refine ⟨s', ?_, stored', held'.trans held₁⟩
    rw [foldlM_cons, synced, ok_bind, done]

/-- The volume after its free map has been written -/
def Volume.saved (v : Volume) : Volume :=
  { v with freemapdirty := false, disk := overlay v.disk (mapBlock v.freemap.bits) (bitblocks v.nblocks).toNat }

theorem Volume.saved_map (v : Volume) (nbits : v.freemap.nbits = (bitmapsize v.nblocks).toNat)
    (room : 2 + (bitblocks v.nblocks).toNat ≤ v.blocks.toNat) {bit : Nat} (small : bit < v.freemap.nbits) :
    mapBits v.saved.mapBlocks bit = v.freemap.bits bit := by
  have fits := Nat.le_trans room (Nat.le_of_lt v.blocks.isLt)
  have whole : (bitmapsize v.nblocks).toNat = 4096 * (bitblocks v.nblocks).toNat := by
    rw [bitmapsize_toNat, bitblocks_toNat, Nat.mul_comm]
  have blocks : v.saved.mapBlocks = (List.range (bitblocks v.nblocks).toNat).map fun j offset =>
      bitmapByte v.freemap.bits (512 * j + offset) := by
    refine map_congr_left fun j mem => ?_
    exact overlay_inside v.disk _ (mem_range.mp mem) fits
  rw [blocks, mapBits_range _ (by omega), bitAt_bitmapByte]

theorem SfsFs.Stored.overlay_kept (stored : s.Stored size live) (mem : v ∈ live)
    (inside : block ∈ (s.fileAt v).territory) : s.vol.saved.disk block = s.vol.disk block := by
  refine if_neg fun ⟨least, most⟩ => ?_
  have here : 2 + BitVec.ofNat 32 (block.toNat - 2) = block := by
    refine eq_of_toNat_eq ?_
    rw [mapBlock_toNat (by omega)]
    omega
  have stray := stored.reserved (block.toNat - 2) (by omega)
  rw [here] at stray
  exact stray.2 v mem inside

theorem SfsFs.Stored.houses (stored : s.Stored size live) : s.Houses live s.vol.saved where
  volume := by
    have sound := stored.inv.owned.volume
    exact ⟨sound.device, sound.addressable, sound.mapped, sound.tail, sound.super⟩
  nblocks := rfl
  used v mem block inside := (stored.inv.owned.sound v mem).territory block inside
  disk _ mem _ inside := stored.overlay_kept mem inside

theorem SfsFs.Stored.saved (stored : s.Stored size live) : SfsFs.Stored ⟨s.vol.saved, s.vnodes⟩ size live := by
  have inv := stored.houses.inv stored.inv
  have listing : SfsFs.listing ⟨s.vol.saved, s.vnodes⟩ = s.listing := inv.listing
  have super : s.vol.saved.disk 0 = s.vol.disk 0 := by
    change overlay s.vol.disk (mapBlock s.vol.freemap.bits) (bitblocks s.vol.nblocks).toNat 0 = _
    exact overlay_below _ _ _ (by decide)
  refine ⟨stored.device, listing.symm ▸ inv, ?_, ?_, stored.nbits, stored.room, ?_, ?_⟩
  · exact (congrArg (Block.word · 0) super).trans stored.magic
  · exact (congrArg (Block.word · 1) super).trans stored.number
  · intro j small
    obtain ⟨used, out⟩ := stored.reserved j small
    refine ⟨used, fun v mem => ?_⟩
    rw [stored.houses.territory stored.inv.owned mem]
    exact out v mem
  · exact fun _ bit small => s.vol.saved_map stored.nbits stored.room small

theorem SfsFs.held_of_mem (listed : sv ∈ s.vnodes) : s.held sv.ino ≠ none := by
  intro unloaded
  have missing := List.find?_eq_none.mp (Option.map_eq_none_iff.mp unloaded) sv listed
  simp at missing

theorem SfsFs.Stored.syncMap (stored : s.Stored size live) :
    ∃ s', syncMap s = .ok (0, s') ∧ s'.Stored size live ∧ s'.vnodes = s.vnodes ∧
      s'.vol.freemapdirty = false ∧ s.SameVolume s' := by
  by_cases dirty : s.vol.freemapdirty = true
  · have written : mapioWrite s.vol = .ok { s.vol with disk := s.vol.saved.disk } :=
      writeMap (mapBlock s.vol.freemap.bits) s.vol stored.room
    refine ⟨⟨s.vol.saved, s.vnodes⟩, ?_, stored.saved, rfl, rfl, stored.houses.sameVolume stored.inv rfl⟩
    rw [Sfs.syncMap, if_pos dirty, written, ok_bind]
    rfl
  · exact ⟨s, by rw [Sfs.syncMap, if_neg dirty, pure_ok], stored, rfl, by simpa using dirty, .refl s⟩

theorem SfsFs.Stored.sync (stored : s.Stored size live) :
    ∃ s', sfsSync s = .ok (0, s') ∧ s'.Stored size live ∧ s'.held = s.held := by
  obtain ⟨s₁, synced, stored₁, held₁⟩ := stored.syncVnodes (s.vnodes.map SfsVnode.ino) (by
    intro v mem
    obtain ⟨sv, listed, rfl⟩ := mem_map.mp mem
    exact held_of_mem listed)
  obtain ⟨s', written, stored', vnodes, _⟩ := stored₁.syncMap
  refine ⟨s', by rw [sfsSync, synced, ok_bind, written], stored', ?_⟩
  rw [← held₁]
  funext v
  rw [SfsFs.held, SfsFs.held, SfsFs.find, SfsFs.find, vnodes]

theorem SfsFs.Stored.step (stored : s.Stored size live) (step : s.VolumeStep call s') :
    (∃ live', s'.Stored size live') ∧ s'.tally = call.tally s.tally := by
  cases call with
  | request req reply =>
    obtain ⟨allowed, ran⟩ := step
    have ended := stored.inv.perform allowed
    rw [ran] at ended
    cases ended with
    | returned did =>
      obtain ⟨live', table', inv', _, _, spares, tally⟩ := did
      obtain rfl : s'.listing = table' := inv'.listing
      exact ⟨⟨live', stored.spares spares inv'⟩, tally⟩
  | fsync v =>
    obtain ⟨held, synced⟩ := step
    obtain ⟨_, done, stored', same⟩ := stored.fsync held
    cases synced.symm.trans done
    exact ⟨⟨live, stored'⟩, tally_congr same⟩
  | sync =>
    obtain ⟨_, done, stored', same⟩ := stored.sync
    cases (show sfsSync s = .ok (0, s') from step).symm.trans done
    exact ⟨⟨live, stored'⟩, tally_congr same⟩

/-- The volume that is mounted from the disk -/
def Volume.remounted (v : Volume) : Volume :=
  ⟨v.blocks, v.nblocks, ⟨(bitmapsize v.nblocks).toNat, mapBits v.mapBlocks⟩, false, v.disk⟩

theorem SfsFs.Stored.domount (stored : s.Stored size live) :
    sfsDomount size s.vol.disk = .ok (.ok ⟨s.vol.remounted, []⟩) := by
  rw [← stored.device]
  have room := stored.room
  have inside : ¬ s.vol.blocks ≤ 0 := by
    change ¬ s.vol.blocks.toNat ≤ 0
    omega
  have super : sfsRblock ⟨s.vol.blocks, 0, ⟨0, fun _ => false⟩, false, s.vol.disk⟩ 0 = .ok (s.vol.disk 0) := by
    rw [sfsRblock, Volume.check, if_neg inside, ok_bind, pure_ok]
  have map := sfsMapio_ok (v := ⟨s.vol.blocks, 0, ⟨0, fun _ => false⟩, false, s.vol.disk⟩) room
  rw [sfsDomount, super, ok_bind, stored.magic, stored.number]
  simp only [ne_eq]
  rw [map]
  rfl

theorem SfsFs.Stored.houses_remounted (stored : s.Stored size live) (clean : s.vol.freemapdirty = false) :
    s.Houses live s.vol.remounted ∧ s.vol.remounted.vacant = s.vol.vacant := by
  have sound := stored.inv.owned.volume
  have mapped := sound.mapped
  have nbits := stored.nbits
  have whole := bitmapsize_toNat s.vol.nblocks
  have bits (bit : Nat) (small : bit < s.vol.freemap.nbits) :
      s.vol.remounted.freemap.bits bit = s.vol.freemap.bits bit := stored.clean clean bit small
  have used {block : Word32} (below : block < s.vol.nblocks) :
      s.vol.remounted.Used block ↔ s.vol.Used block := by
    rw [Volume.Used, bits block.toNat (Nat.lt_of_lt_of_le (lt_def.mp below) mapped), Volume.Used]
  have root := stored.inv.owned.sound rootLocation stored.inv.root
  have below : _ < s.vol.nblocks.toNat := lt_def.mp (root.below .self root.self)
  refine ⟨⟨⟨sound.device, sound.addressable, Nat.le_trans mapped (Nat.le_of_eq nbits), ?_, ?_⟩, rfl, ?_,
    fun _ _ _ _ => rfl⟩, ?_⟩
  · intro index beyond inside
    have small : index < 8 * (((bitmapsize s.vol.nblocks).toNat + 7) / 8) := inside
    rw [bits index (by omega)]
    refine sound.tail index beyond ?_
    rw [Bitmap.room]
    omega
  · rw [bits 0 (by omega)]
    exact sound.super
  · rintro v mem block ⟨present, slot, rfl⟩
    have file := stored.inv.owned.sound v mem
    exact (used (file.below slot present)).mpr (file.used slot present)
  · ext block
    exact and_congr_right fun below => not_congr (used below)

theorem SfsFs.vnodes_of_released (freed : ∀ v, s.held v = none) : s.vnodes = [] := by
  refine eq_nil_iff_forall_not_mem.mpr fun sv listed => ?_
  exact held_of_mem listed (freed sv.ino)

end

section

variable {size : Word32} {disk disk' : Disk} {s s' : SfsFs} {calls : List VolumeCall}

theorem domount_end (read : sfsDomount size disk = .ok (.ok s)) :
    (disk 0).word 0 = sfsMagic ∧ (disk 0).word 1 = s.vol.nblocks ∧ s.vol.disk = disk ∧ s.vol.blocks = size ∧
      s.vol.freemapdirty = false ∧
      (2 + (bitblocks s.vol.nblocks).toNat ≤ size.toNat → s.vol.freemap.bits = mapBits s.vol.mapBlocks) := by
  obtain ⟨super, loaded, read⟩ := bind_ok.mp read
  obtain ⟨_, _, same⟩ := bind_ok.mp loaded
  obtain rfl : disk 0 = super := Except.ok.inj same
  split at read
  · cases read
  · rename_i magic
    obtain ⟨map, loaded, read⟩ := bind_ok.mp read
    cases read
    refine ⟨not_not.mp magic, rfl, rfl, rfl, rfl, fun room => ?_⟩
    rw [sfsMapio_ok room] at loaded
    exact congrArg mapBits (Except.ok.inj loaded).symm

theorem SfsFs.Mounted.stored (mounted : s.Mounted size) (least : 3 ≤ size.toNat) (most : size.toNat ≤ 131072)
    (read : sfsDomount size disk = .ok (.ok s)) : s.Stored size {rootLocation} := by
  have blocks := bitblocks_toNat size
  have whole := bitmapsize_toNat size
  have nblocks := mounted.nblocks
  have fresh := mounted.fresh least most
  obtain ⟨magic, number, same, device, _, map⟩ := domount_end read
  have inv := fresh.inv
  rw [← fresh.listing] at inv
  have room : 2 + (bitblocks s.vol.nblocks).toNat ≤ size.toNat := by
    rw [nblocks]
    omega
  refine ⟨device, inv, by rw [same, magic], by rw [same, number], by rw [mounted.nbits, nblocks], ?_, ?_, ?_⟩
  · rw [device]
    exact room
  · intro j small
    rw [nblocks] at small
    have place := mapBlock_toNat (show 2 + j < 2 ^ 32 by omega)
    refine ⟨?_, ?_⟩
    · rw [Volume.Used, mounted.bits]
      exact decide_eq_true ⟨by omega, .inl (by omega)⟩
    · rintro _ rfl inside
      rw [fresh.territory] at inside
      have one : 2 + j = 1 := place.symm.trans (congrArg BitVec.toNat inside)
      omega
  · intro _ bit _
    rw [map room]

theorem SfsFs.Mounted.stays_put (mounted : s.Mounted size) (huge : 2 ^ 32 - 4096 < size.toNat)
    (clean : s.vol.freemapdirty = false) (run : Run SfsFs.VolumeStep s calls s') : s' = s := by
  have keeps (state : SfsFs) (call : VolumeCall) (next : SfsFs) (same : state = s)
      (step : state.VolumeStep call next) : next = s := by
    subst same
    cases call with
    | request req reply => exact absurd ⟨step.1, reply, step.2⟩ (mounted.stuck huge)
    | fsync v => exact absurd (mounted.blank.held v) step.1
    | sync =>
      have idle : sfsSync _ = .ok (0, _) := step
      rw [sfsSync, mounted.unloaded, map_nil, foldlM_nil, pure_ok, ok_bind, syncMap, clean] at idle
      cases idle
      rfl
  exact run.invariant keeps rfl

theorem sfsUnmount_idle (unloaded : s.vnodes = []) (clean : s.vol.freemapdirty = false) : sfsUnmount s = .ok 0 := by
  rw [sfsUnmount, unloaded, if_neg (by decide), kassert_ok.mpr clean, ok_bind, pure_ok]

theorem vfsUnmount_ok (found : File.findmount devs devname = some i)
    (used : (devs.get i).fs ≠ none) (device : (devs.get i).device ≠ none) :
    File.vfsUnmount devs devname 0 0 = .ok (0, devs.set i { devs.get i with fs := none }) := by
  rw [File.vfsUnmount, found]
  have here := (List.findFinIdx?_eq_some_iff.mp found).1
  have raw : (devs.get i).rawname ≠ none := by
    intro missing
    simp [← get_eq_getElem, missing] at here
  simp only [if_neg used, kassert_ok.mpr raw, kassert_ok.mpr device]
  rfl

/-- A volume without references is unmounted, and mounting it again gives the same volume. -/
theorem remount_preserves_volume (made : mksfs size disk = .ok disk')
    (mounted : sfsDomount size disk' = .ok (.ok s)) (reached : Run SfsFs.VolumeStep s calls s')
    (released : ∀ v, (calls.foldl VolumeCall.tally (fun _ => (0, 0)) v).1 = 0)
    {knowndevs : File.Knowndevs} {devname : File.CString} {i : Fin knowndevs.length}
    (found : File.findmount knowndevs devname = some i)
    (attached : (knowndevs.get i).fs ≠ none) (device : (knowndevs.get i).device ≠ none) :
    ∃ s₁ s₂, sfsSync s' = .ok (0, s₁) ∧ sfsUnmount s₁ = .ok 0 ∧
      File.vfsUnmount knowndevs devname 0 0 = .ok (0, knowndevs.set i { knowndevs.get i with fs := none }) ∧
      sfsDomount size s₁.vol.disk = .ok (.ok s₂) ∧ s'.SameVolume s₂ := by
  obtain ⟨start, least, few | huge⟩ := mksfs_mounted made mounted
  · have keeps (state : SfsFs) (call : VolumeCall) (next : SfsFs) (before : ∃ live, state.Stored size live)
        (step : state.VolumeStep call next) :
        (∃ live, next.Stored size live) ∧ next.tally = call.tally state.tally := by
      obtain ⟨live, stored⟩ := before
      exact stored.step step
    have first : ∃ live, s.Stored size live := ⟨_, start.stored least few mounted⟩
    obtain ⟨live, stored⟩ :=
      reached.invariant (fun state call next before step => (keeps state call next before step).1) first
    have counted := reached.foldl SfsFs.tally VolumeCall.tally keeps first
    have none : s.tally = fun _ => (0, 0) := funext fun v => tally_of_none (start.blank.held v)
    rw [none] at counted
    have unloaded := vnodes_of_released fun v => not_not.mp fun held => by
      have some := (stored.inv.consistent.held_iff v).mp held
      rw [counted, released v] at some
      exact absurd some (Nat.lt_irrefl 0)
    obtain ⟨s₁, written, stored₁, empty, clean, same⟩ := stored.syncMap
    rw [unloaded] at empty
    have synced : sfsSync s' = .ok (0, s₁) := by
      rw [sfsSync, unloaded, map_nil, foldlM_nil, pure_ok, ok_bind, written]
    obtain ⟨houses, vacant⟩ := stored₁.houses_remounted clean
    have again := houses.sameVolume stored₁.inv vacant
    rw [empty] at again
    exact ⟨s₁, _, synced, sfsUnmount_idle empty clean, vfsUnmount_ok found attached device, stored₁.domount,
      same.trans again⟩
  · obtain ⟨_, _, same, _, clean, _⟩ := domount_end mounted
    obtain rfl := start.stays_put huge clean reached
    have synced : sfsSync s' = .ok (0, s') := by
      rw [sfsSync, start.unloaded, map_nil, foldlM_nil, pure_ok, ok_bind, syncMap, clean]
      rfl
    refine ⟨s', s', synced, sfsUnmount_idle start.unloaded clean, vfsUnmount_ok found attached device, ?_, .refl s'⟩
    rw [same, mounted]

/-- A file is created and given back with the root. -/
theorem remount_preserves_image : ∃ disk s s' s₁ s₂, mksfs 4096 (fun _ => zeroBlock) = .ok disk ∧
    sfsDomount 4096 disk = .ok (.ok s) ∧
    Run SfsFs.VolumeStep s [.request (.getroot ⟨true, true⟩) (.vnode 1),
      .request (.creat 1 nameA true ⟨true, true⟩) (.vnode 3), .request (.decref 3) (.code 0),
      .request (.decref 1) (.code 0)] s' ∧
    sfsSync s' = .ok (0, s₁) ∧ sfsUnmount s₁ = .ok 0 ∧ sfsDomount 4096 s₁.vol.disk = .ok (.ok s₂) ∧
    s'.SameVolume s₂ := by
  obtain ⟨disk, s, s', made, mounted, reached⟩ : ∃ disk s s', mksfs 4096 (fun _ => zeroBlock) = .ok disk ∧
      sfsDomount 4096 disk = .ok (.ok s) ∧
      Run SfsFs.VolumeStep s [.request (.getroot ⟨true, true⟩) (.vnode 1),
        .request (.creat 1 nameA true ⟨true, true⟩) (.vnode 3), .request (.decref 3) (.code 0),
        .request (.decref 1) (.code 0)] s' :=
    ⟨_, _, _, rfl, rfl, .cons ⟨trivial, rfl⟩ (.cons ⟨nofun, rfl⟩
      (.cons ⟨⟨(1, 0), rfl, by decide⟩, rfl⟩ (.single ⟨⟨(1, 0), rfl, by decide⟩, rfl⟩)))⟩
  have found : File.findmount (File.mountedOnFirst none) File.lhd0 = some 0 := rfl
  obtain ⟨s₁, s₂, synced, unmounted, _, again, same⟩ :=
    remount_preserves_volume made mounted reached (by
      intro v
      by_cases root : v = 1#32
      · rw [root]
        rfl
      by_cases file : v = 3#32
      · rw [file]
        rfl
      · simp [VolumeCall.tally, Request.tally, root, file]) found nofun nofun
  exact ⟨disk, s, s', s₁, s₂, made, mounted, reached, synced, unmounted, again, same⟩

end

end Os161.Sfs
