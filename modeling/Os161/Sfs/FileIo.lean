import Os161.Sfs.FileMap

namespace Os161.Sfs
open Word Outcome Bytes Territory Function BitVec Uio

/-- `sfs_rwblock` for one block on a disk without failures -/
def Volume.rwblock (v : Volume) (u : Uio) : Kernel (Errno × Uio × Volume) := do
  let sector := BitVec.ofNat 32 (u.offset / 512)
  if u.offset % 512 ≠ 0 then .error (.message "sfs: d_io returned EINVAL\n")
  else
    v.check sector
    match u.rw with
    | .write =>
      let (result, data, u) := uiomove zeroBlock 0 512 u
      if result ≠ 0 then return (result, u, v)
      else return (0, u, v.put sector data)
    | .read =>
      let (result, _, u) := uiomove (v.disk sector) 0 512 u
      return (result, u, v)

/-- The loop of `uiomovezeros` moves pieces of 16 bytes. -/
def moveZeros : (pieces n : Nat) → Uio → Errno × Uio
  | 0, _, u => (0, u)
  | pieces + 1, n, u =>
    let amt := min 16 n
    let (result, _, u) := uiomove zeroBlock 0 amt u
    if result ≠ 0 then (result, u) else moveZeros pieces (n - amt) u

def uiomovezeros (n : Nat) (u : Uio) : Errno × Uio := moveZeros ((n + 15) / 16) n u

/-- `sfs_partialio` behind the read of the block -/
def partialMove (f : SfsFile) (u : Uio) (iobuf : Block) (diskblock : Word32) (skipstart len : Nat) :
    Kernel (Errno × Uio × SfsFile) := do
  let (result, iobuf, u) := uiomove iobuf skipstart len u
  if result ≠ 0 then return (result, u, f)
  else
    match u.rw with
    | .read => return (0, u, f)
    | .write =>
      let vol ← sfsWblock f.vol iobuf diskblock
      return (0, u, { f with vol := vol })

def sfsPartialio (f : SfsFile) (u : Uio) (skipstart len : Nat) : Kernel (Errno × Uio × SfsFile) := do
  kassert (skipstart + len ≤ 512) "skipstart + len <= SFS_BLOCKSIZE"
  match ← sfsBmap f (BitVec.ofNat 32 (u.offset / 512)) (u.rw = .write) with
  | (.error result, f) => return (result, u, f)
  | (.ok diskblock, f) =>
    if diskblock = 0 then
      kassert (u.rw = .read) "uio->uio_rw == UIO_READ"
      partialMove f u zeroBlock diskblock skipstart len
    else
      let iobuf ← sfsRblock f.vol diskblock
      partialMove f u iobuf diskblock skipstart len

/-- The `uio` for one block of the disk that `sfs_blockio` hands to the device -/
def Uio.onDisk (u : Uio) (diskoff : Nat) : Uio := { u with offset := diskoff, resid := 512 }

/-- The repair of the `uio` behind the device -/
def Uio.restore (d u : Uio) (diskoff : Nat) : Uio :=
  { d with offset := d.offset - diskoff + u.offset, resid := d.resid + u.resid - 512 }

/-- `sfs_blockio`. The offset on the disk is a 32-bit product. -/
def sfsBlockio (f : SfsFile) (u : Uio) : Kernel (Errno × Uio × SfsFile) := do
  match ← sfsBmap f (BitVec.ofNat 32 (u.offset / 512)) (u.rw = .write) with
  | (.error result, f) => return (result, u, f)
  | (.ok diskblock, f) =>
    if diskblock = 0 then
      kassert (u.rw = .read) "uio->uio_rw == UIO_READ"
      let (result, u) := uiomovezeros 512 u
      return (result, u, f)
    else
      let diskoff := (diskblock * 512#32).toNat
      kassert (512 ≤ u.resid) "uio->uio_resid >= SFS_BLOCKSIZE"
      let (result, d, vol) ← f.vol.rwblock (u.onDisk diskoff)
      return (result, d.restore u diskoff, { f with vol := vol })

/-- The loop of `sfs_io` over whole blocks -/
def ioWhole : (nblocks : Nat) → SfsFile → Uio → Kernel (Errno × Uio × SfsFile)
  | 0, f, u => .ok (0, u, f)
  | nblocks + 1, f, u => do
    let (result, u, f) ← sfsBlockio f u
    if result ≠ 0 then return (result, u, f) else ioWhole nblocks f u

/-- `sfs_io` behind the leading part of a block -/
def ioBlocks (f : SfsFile) (u : Uio) : Kernel (Errno × Uio × SfsFile) := do
  if u.resid = 0 then return (0, u, f)
  else
    kassert (u.offset % 512 = 0) "uio->uio_offset % SFS_BLOCKSIZE == 0"
    let (result, u, f) ← ioWhole (u.resid / 512) f u
    if result ≠ 0 then return (result, u, f)
    else
      kassert (u.resid < 512) "uio->uio_resid < SFS_BLOCKSIZE"
      if 0 < u.resid then sfsPartialio f u 0 u.resid else return (0, u, f)

/-- `sfs_io` between the check for the end of the file and the label `out` -/
def ioTransfer (f : SfsFile) (u : Uio) : Kernel (Errno × Uio × SfsFile) := do
  let blkoff := u.offset % 512
  if blkoff = 0 then ioBlocks f u
  else
    let (result, u, f) ← sfsPartialio f u blkoff (min (512 - blkoff) u.resid)
    if result ≠ 0 then return (result, u, f) else ioBlocks f u

/-- A write adjusts the length of the file, whether it has succeeded or not. -/
def SfsFile.adjust (f : SfsFile) (offset : Nat) : SfsFile :=
  if f.sv.inode.size.toNat < offset then
    { f with sv := { f.sv with inode := { f.sv.inode with size := BitVec.ofNat 32 offset }, dirty := true } }
  else f

def Uio.setResid (u : Uio) (resid : Nat) : Uio := { u with resid := resid }

def sfsIo (f : SfsFile) (u : Uio) : Kernel (Errno × Uio × SfsFile) := do
  match u.rw with
  | .read =>
    let size := f.sv.inode.size.toNat
    let endpos := u.offset + u.resid
    if size ≤ u.offset then return (0, u, f)
    else
      let extraresid := endpos - size
      kassert (0 < extraresid → extraresid < u.resid) "uio->uio_resid > extraresid"
      let (result, u, f) ← ioTransfer f (u.setResid (u.resid - extraresid))
      return (result, u.setResid (u.resid + extraresid), f)
  | .write =>
    let (result, u, f) ← ioTransfer f u
    return (result, u, f.adjust u.offset)

/-- The `uio` after a read has moved bytes of the source to the buffer -/
def Uio.filled (u : Uio) (source : Nat → Byte) (moved : Nat) : Uio :=
  { u.advance moved with buffer := copy source u.offset u.buffer u.position moved }

/-- The next bytes of the buffer cannot be used. -/
def Uio.Faults (u : Uio) (size : Nat) : Prop := size ≠ 0 ∧ u.reaches size = false

instance (u : Uio) (size : Nat) : Decidable (u.Faults size) := inferInstanceAs (Decidable (_ ∧ _))

variable {u : Uio}

theorem Uio.Faults.user {size : Nat} (faults : u.Faults size) : u.reach ≠ none := by
  intro kernel
  have run := faults.2
  rw [Uio.reaches, kernel] at run
  cases run

@[simp] theorem Uio.advance_rw (u : Uio) (size : Nat) : (u.advance size).rw = u.rw := rfl

@[simp] theorem Uio.advance_offset (u : Uio) (size : Nat) :
    (u.advance size).offset = u.offset + size := rfl

@[simp] theorem Uio.advance_resid (u : Uio) (size : Nat) : (u.advance size).resid = u.resid - size := rfl

theorem Uio.advance_zero (u : Uio) : u.advance 0 = u := rfl

theorem Uio.advance_advance (u : Uio) (first second : Nat) :
    (u.advance first).advance second = u.advance (first + second) := by
  simp only [Uio.advance, Nat.add_assoc, Nat.sub_sub]

@[simp] theorem Uio.filled_offset (u : Uio) (source : Nat → Byte) (moved : Nat) :
    (u.filled source moved).offset = u.offset + moved := rfl

@[simp] theorem Uio.filled_resid (u : Uio) (source : Nat → Byte) (moved : Nat) :
    (u.filled source moved).resid = u.resid - moved := rfl

@[simp] theorem Uio.filled_rw (u : Uio) (source : Nat → Byte) (moved : Nat) :
    (u.filled source moved).rw = u.rw := rfl

theorem Uio.filled_zero (u : Uio) (source : Nat → Byte) : u.filled source 0 = u := by
  rw [Uio.filled, copy_zero]
  rfl

theorem Uio.filled_filled (u : Uio) (source : Nat → Byte) (first second : Nat) :
    (u.filled source first).filled source second = u.filled source (first + second) := by
  simp only [Uio.filled, Uio.advance, copy_append, Nat.add_assoc, Nat.sub_sub]

variable {n : Nat}

theorem uiomove_read (read : u.rw = .read) (ptr : Block) (skip : Nat) (fits : n ≤ u.resid) :
    uiomove ptr skip n u =
      if u.Faults n then (eFault, ptr, u)
      else (0, ptr, { u.advance n with buffer := copy ptr skip u.buffer u.position n }) := by
  simp only [uiomove, Nat.min_eq_left fits, read, Uio.Faults]
  by_cases zero : n = 0
  · subst zero
    simp [advance_zero]
  · simp [zero]

theorem uiomove_write (write : u.rw = .write) (ptr : Block) (skip : Nat) (fits : n ≤ u.resid) :
    uiomove ptr skip n u =
      if u.Faults n then (eFault, ptr, u)
      else (0, copy u.buffer u.position ptr skip n, u.advance n) := by
  simp only [uiomove, Nat.min_eq_left fits, write, Uio.Faults]
  by_cases zero : n = 0
  · subst zero
    simp [advance_zero]
  · simp [zero]

section

variable {f : SfsFile} {index : Nat}

/-- The file after one of its data blocks has been written -/
def SfsFile.store (f : SfsFile) (index : Nat) (data : Block) : SfsFile :=
  { f with vol := f.vol.put (f.dataBlock index) data }

theorem SfsFile.Sound.store_blockAt (sound : f.Sound) (index : Nat) (data : Block) (slot : Slot) :
    (f.store index data).blockAt slot = f.blockAt slot := by
  cases slot with
  | self => rfl
  | indirect => rfl
  | data k =>
    simp only [SfsFile.blockAt]
    by_cases low : k < 15
    · rw [SfsFile.dataBlock, SfsFile.dataBlock, dif_pos low, dif_pos low]
      rfl
    · rw [dataBlock_high _ (by omega), dataBlock_high _ (by omega)]
      refine indirectEntry_congr (fun used => update_of_ne ?_ ..) k
      intro same
      exact absurd (sound.once (show f.blockAt .indirect = f.blockAt (.data index) from same) used)
        (by simp)

theorem SfsFile.Sound.store_evolves (sound : f.Sound) (mapped : f.dataBlock index ≠ 0) (data : Block) :
    f.Evolves (f.store index data) := by
  have places := sound.store_blockAt index data
  have territory : (f.store index data).territory = f.territory := by
    simp only [SfsFile.territory, places]
  have other (block : Word32) (apart : block ∉ f.territory) :
      (f.store index data).vol.disk block = f.vol.disk block := by
    refine update_of_ne ?_ ..
    rintro rfl
    exact apart ⟨mapped, .data index, rfl⟩
  refine
    { sound := ?_
      change := ?_
      follows := (Volume.Follows.refl _).disk _
      vnode := .refl _
      unwritten := ?_ }
  · exact sound.transport (sound.volume.put _ _) rfl rfl places sound.territory
  · rw [territory]
    have marks := (Change.refl f.vol.disk sound.territory).marks
    exact ⟨fun _ => .inl, marks, fun block _ => other block⟩
  · refine update_of_ne ?_ ..
    intro same
    exact absurd (sound.once (show f.blockAt .self = f.blockAt (.data index) from same) sound.self) nofun

theorem SfsFile.Sound.store_content (sound : f.Sound) (mapped : f.dataBlock index ≠ 0) (data : Block)
    (pos : Nat) :
    (f.store index data).content pos =
      if pos / 512 = index then data (pos % 512) else f.content pos := by
  have places := sound.store_blockAt index data (.data (pos / 512))
  simp only [SfsFile.blockAt] at places
  simp only [SfsFile.content, places]
  by_cases here : pos / 512 = index
  · rw [if_pos here, here, if_neg mapped]
    exact congrFun (update_self ..) _
  · rw [if_neg here]
    by_cases hole : f.dataBlock (pos / 512) = 0
    · rw [if_pos hole, if_pos hole]
    · have apart : f.dataBlock (pos / 512) ≠ f.dataBlock index := by
        intro same
        exact here (Slot.data.inj (sound.once (show f.blockAt (.data _) = f.blockAt (.data _) from same) hole))
      rw [if_neg hole, if_neg hole]
      exact congrFun (update_of_ne apart ..) _

theorem SfsFile.Sound.store_copy (sound : f.Sound) (mapped : f.dataBlock index ≠ 0)
    (inside : skip + len ≤ 512) (buffer : Nat → Byte) (pos : Nat) (filled : ∀ place < 512, data place =
      copy buffer pos (f.vol.disk (f.dataBlock index)) skip len place) :
    (f.store index data).content = copy buffer pos f.content (index * 512 + skip) len := by
  funext place
  have small : place % 512 < 512 := Nat.mod_lt _ (by decide)
  rw [sound.store_content mapped]
  by_cases here : place / 512 = index
  · rw [if_pos here, filled _ small]
    by_cases written : skip ≤ place % 512 ∧ place % 512 < skip + len
    · rw [copy, if_pos written, copy, if_pos (by omega)]
      congr 2
      omega
    · rw [copy, if_neg written, copy, if_neg (by omega), SfsFile.content, here, if_neg mapped]
  · rw [if_neg here]
    exact (copy_outside _ _ _ (by omega)).symm

end

/-- The file after a write has moved bytes of the buffer to it. -/
structure Wrote (f : SfsFile) (u : Uio) (moved : Nat) (f' : SfsFile) : Prop where
  evolves : f.Evolves f'
  size : f'.sv.inode.size = f.sv.inode.size
  nothing : moved = 0 → f'.content = f.content
  content : u.offset + moved ≤ 2 ^ 41 →
    f'.content = copy u.buffer u.position f.content u.offset moved
  places : ∀ slot, f.blockAt slot ≠ 0 → f'.blockAt slot = f.blockAt slot
  mapped : u.offset + moved ≤ 2 ^ 41 →
    ∀ place, u.offset ≤ place → place < u.offset + moved → f'.dataBlock (place / 512) ≠ 0

variable {f f' : SfsFile}

theorem Wrote.of_grows (grows : f.Grows f') (u : Uio) : Wrote f u 0 f' where
  evolves := grows.toEvolves
  size := grows.size
  nothing _ := grows.content
  content _ := by rw [copy_zero, grows.content]
  places := grows.places
  mapped _ place above below := by omega

variable {g : SfsFile} {first second : Nat}

theorem Wrote.trans {h : SfsFile} (prev : Wrote f u first g)
    (after : Wrote g (u.advance first) second h) : Wrote f u (first + second) h where
  evolves := prev.evolves.trans after.evolves
  size := after.size.trans prev.size
  nothing none := by rw [after.nothing (by omega), prev.nothing (by omega)]
  content fits := by
    have early := prev.content (by omega)
    have late := after.content (by simp only [Uio.advance]; omega)
    simp only [Uio.advance] at late
    rw [late, early, copy_append]
  places slot taken := by
    have early := prev.places slot taken
    rw [after.places slot (early ▸ taken), early]
  mapped fits place above below := by
    by_cases early : place < u.offset + first
    · have taken := prev.mapped (by omega) place above early
      have kept := after.places (.data (place / 512)) taken
      exact fun hole => taken (kept.symm.trans hole)
    · exact after.mapped (by simp only [Uio.advance]; omega) place (by simp only [Uio.advance]; omega)
        (by simp only [Uio.advance]; omega)

/-- Why a write from the kernel's own buffer fails: it needs a block, and the volume is full or the file
cannot have it. -/
def Refused (f : SfsFile) (index : Nat) (result : Errno) (f' : SfsFile) : Prop :=
  f.dataBlock index = 0 ∧ Unmapped f index result f'

variable {result : Errno}

theorem Refused.problem (refused : Refused f index result f') : result ≠ 0 := by
  obtain ⟨_, unmapped⟩ := refused
  cases unmapped <;> decide

/-- How a part of a write ends: all of its bytes have been moved, or none. -/
inductive ChunkEnd (f : SfsFile) (u : Uio) (len : Nat) : Errno → Uio → SfsFile → Prop where
  | done {f' : SfsFile} (wrote : Wrote f u len f') : ChunkEnd f u len 0 (u.advance len) f'
  | failed {f' : SfsFile} {result : Errno} (problem : result ≠ 0) (wrote : Wrote f u 0 f')
      (cause : u.reach = none → Refused f (BitVec.ofNat 32 (u.offset / 512)).toNat result f') :
      ChunkEnd f u len result u f'

variable {skip len : Nat}

theorem Wrote.store (grows : f.Grows g) (skipped : skip = u.offset % 512) (inside : skip + len ≤ 512)
    (mapped : g.dataBlock (BitVec.ofNat 32 (u.offset / 512)).toNat ≠ 0)
    (filled : ∀ place < 512, data place = copy u.buffer u.position
      (g.vol.disk (g.dataBlock (BitVec.ofNat 32 (u.offset / 512)).toNat)) skip len place) :
    Wrote f u len (g.store (BitVec.ofNat 32 (u.offset / 512)).toNat data) := by
  have stored := grows.sound.store_copy mapped inside u.buffer u.position filled
  rw [grows.content] at stored
  refine ⟨grows.toEvolves.trans (grows.sound.store_evolves mapped data), grows.size, ?_, ?_, ?_, ?_⟩
  · rintro rfl
    rw [stored, copy_zero]
  · intro fits
    by_cases zero : len = 0
    · subst zero
      rw [stored, copy_zero, copy_zero]
    · have index : (BitVec.ofNat 32 (u.offset / 512)).toNat = u.offset / 512 := by
        rw [toNat_ofNat]
        omega
      rw [stored, index, skipped, Nat.div_add_mod']
  · intro slot taken
    rw [grows.sound.store_blockAt, grows.places slot taken]
  · intro fits place above below
    have index : (BitVec.ofNat 32 (u.offset / 512)).toNat = place / 512 := by
      rw [toNat_ofNat]
      omega
    rw [index] at mapped ⊢
    have same := grows.sound.store_blockAt (place / 512) data (.data (place / 512))
    exact fun hole => mapped (same.symm.trans hole)

theorem sfsPartialio_write (sound : f.Sound) (write : u.rw = .write)
    (skipped : skip = u.offset % 512) (inside : skip + len ≤ 512) (fits : len ≤ u.resid) :
    ∃ result u' f', sfsPartialio f u skip len = .ok (result, u', f') ∧
      ChunkEnd f u len result u' f' := by
  obtain ⟨result, g, mapping, finished⟩ := sfsBmap_alloc sound (BitVec.ofNat 32 (u.offset / 512))
  simp only [sfsPartialio, kassert_ok.mpr inside, ok_bind, write, decide_true, mapping]
  cases result with
  | error code =>
    have refused : Refused f _ code _ := finished.failed code rfl
    exact ⟨_, _, _, rfl, .failed refused.problem (.of_grows finished.grows u) fun _ => refused⟩
  | ok block =>
    obtain ⟨found, mapped⟩ := finished.found block rfl
    have below : block < g.vol.nblocks := by
      rw [found] at mapped ⊢
      exact finished.grows.sound.below (.data _) mapped
    simp only [if_neg mapped, finished.grows.sound.volume.rblock below, partialMove,
      uiomove_write write _ skip fits]
    by_cases faults : u.Faults len
    · simp only [if_pos faults]
      refine ⟨_, _, _, rfl, .failed (by decide) (.of_grows finished.grows u) ?_⟩
      exact fun kernel => absurd kernel faults.user
    · simp only [if_neg faults, advance_rw, write,
        finished.grows.sound.volume.wblock below]
      refine ⟨_, _, _, rfl, .done ?_⟩
      rw [found] at mapped
      have wrote := Wrote.store finished.grows skipped inside mapped fun place _ => rfl
      rw [SfsFile.store, ← found] at wrote
      exact wrote

theorem Volume.Sound.diskoff {v : Volume} {block : Word32} (sound : v.Sound) (below : block < v.nblocks) :
    (block * 512#32).toNat = block.toNat * 512 := by
  have addressable := sound.addressable
  have small := lt_def.mp below
  rw [toNat_mul, toNat_ofNat,
    Nat.mod_eq_of_lt (by omega)]

theorem Uio.onDisk_rw (u : Uio) (diskoff : Nat) : (u.onDisk diskoff).rw = u.rw := rfl

theorem Uio.onDisk_faults (u : Uio) (diskoff size : Nat) :
    (u.onDisk diskoff).Faults size ↔ u.Faults size := Iff.rfl

theorem Uio.restore_onDisk (u : Uio) (diskoff : Nat) : (u.onDisk diskoff).restore u diskoff = u := by
  simp only [Uio.onDisk, Uio.restore, Nat.sub_self, Nat.zero_add, Nat.add_sub_cancel_left]

theorem Uio.restore_advance (u : Uio) (diskoff : Nat) (buffer : Nat → Byte) :
    Uio.restore { (u.onDisk diskoff).advance 512 with buffer := buffer } u diskoff =
      { u.advance 512 with buffer := buffer } := by
  simp only [Uio.onDisk, Uio.restore, Uio.advance, Nat.sub_self, Nat.zero_add, Nat.add_sub_cancel_left,
    Nat.add_comm 512]

theorem Volume.rwblock_onDisk {v : Volume} {block : Word32} (checked : v.check block = .ok ()) (u : Uio) :
    v.rwblock (u.onDisk (block.toNat * 512)) =
      if u.Faults 512 then .ok (eFault, u.onDisk (block.toNat * 512), v)
      else
        match u.rw with
        | .write => .ok (0, (u.onDisk (block.toNat * 512)).advance 512,
            v.put block (copy u.buffer u.position zeroBlock 0 512))
        | .read => .ok (0, { (u.onDisk (block.toNat * 512)).advance 512 with
            buffer := copy (v.disk block) 0 u.buffer u.position 512 }, v) := by
  have sector : BitVec.ofNat 32 ((u.onDisk (block.toNat * 512)).offset / 512) = block := by
    rw [Uio.onDisk, Nat.mul_div_cancel _ (by decide), ofNat_toNat, setWidth_eq]
  have aligned : (u.onDisk (block.toNat * 512)).offset % 512 = 0 := Nat.mul_mod_left ..
  have whole : 512 ≤ (u.onDisk (block.toNat * 512)).resid := Nat.le_refl _
  simp only [Volume.rwblock, aligned, ne_eq, not_true, if_false, sector, checked, ok_bind, onDisk_rw]
  cases way : u.rw with
  | read =>
    have moved := uiomove_read (u.onDisk_rw _ |>.trans way) (v.disk block) 0 whole
    simp only [moved, onDisk_faults]
    by_cases faults : u.Faults 512
    · rw [if_pos faults, if_pos faults, pure_ok]
    · rw [if_neg faults, if_neg faults]
      rfl
  | write =>
    have moved := uiomove_write (u.onDisk_rw _ |>.trans way) zeroBlock 0 whole
    simp only [moved, onDisk_faults]
    by_cases faults : u.Faults 512
    · rw [if_pos faults, if_pos faults]
      rfl
    · rw [if_neg faults, if_neg faults]
      rfl

theorem sfsBlockio_write (sound : f.Sound) (write : u.rw = .write) (aligned : u.offset % 512 = 0)
    (fits : 512 ≤ u.resid) :
    ∃ result u' f', sfsBlockio f u = .ok (result, u', f') ∧ ChunkEnd f u 512 result u' f' := by
  obtain ⟨result, g, mapping, finished⟩ := sfsBmap_alloc sound (BitVec.ofNat 32 (u.offset / 512))
  simp only [sfsBlockio, write, decide_true, mapping]
  cases result with
  | error code =>
    have refused : Refused f _ code _ := finished.failed code rfl
    exact ⟨_, _, _, rfl, .failed refused.problem (.of_grows finished.grows u) fun _ => refused⟩
  | ok block =>
    obtain ⟨found, mapped⟩ := finished.found block rfl
    have volume := finished.grows.sound.volume
    have below : block < g.vol.nblocks := by
      rw [found] at mapped ⊢
      exact finished.grows.sound.below (.data _) mapped
    simp only [if_neg mapped, kassert_ok.mpr fits, ok_bind, volume.diskoff below,
      Volume.rwblock_onDisk (volume.check below), write]
    by_cases faults : u.Faults 512
    · simp only [if_pos faults, ok_bind, restore_onDisk]
      refine ⟨_, _, _, rfl, .failed (by decide) (.of_grows finished.grows u) ?_⟩
      exact fun kernel => absurd kernel faults.user
    · have restored := u.restore_advance (block.toNat * 512) u.buffer
      simp only [if_neg faults]
      refine ⟨_, _, _, rfl, ?_⟩
      rw [found] at mapped
      have filled (place : Nat) (small : place < 512) (old : Block) :
          copy u.buffer u.position zeroBlock 0 512 place = copy u.buffer u.position old 0 512 place := by
        rw [copy, copy, if_pos ⟨Nat.zero_le _, by omega⟩, if_pos ⟨Nat.zero_le _, by omega⟩]
      have wrote := Wrote.store finished.grows aligned.symm (Nat.le_refl 512) mapped
        fun place small => filled place small _
      rw [SfsFile.store, ← found] at wrote
      have done := ChunkEnd.done wrote
      rwa [show u.advance 512 = _ from restored.symm] at done

/-- How a write of some length ends: a first part of it has been moved, and all of it on success. -/
def WriteEnd (f : SfsFile) (u : Uio) (len : Nat) (result : Errno) (u' : Uio) (f' : SfsFile) : Prop :=
  ∃ moved, moved ≤ len ∧ u' = u.advance moved ∧ Wrote f u moved f' ∧ (result = 0 → moved = len)

variable {u' : Uio}

theorem ChunkEnd.writeEnd (ended : ChunkEnd f u len result u' f') :
    WriteEnd f u len result u' f' := by
  cases ended with
  | done wrote => exact ⟨len, Nat.le_refl _, rfl, wrote, fun _ => rfl⟩
  | failed problem wrote _ => exact ⟨0, Nat.zero_le _, rfl, wrote, fun good => absurd good problem⟩

/-- What the two functions for parts of a transfer do with a file and a `uio` that are ready, and how the ends
of parts make up the end of a transfer. -/
structure Transfers (Ready : SfsFile → Uio → Prop)
    (Ends : SfsFile → Uio → (len : Nat) → Errno → Uio → SfsFile → Prop) : Prop where
  block : ∀ {f u}, Ready f u → u.offset % 512 = 0 → 512 ≤ u.resid →
    ∃ result u' f', sfsBlockio f u = .ok (result, u', f') ∧ Ends f u 512 result u' f'
  piece : ∀ {f u skip len}, Ready f u → skip = u.offset % 512 → skip + len ≤ 512 → len ≤ u.resid →
    ∃ result u' f', sfsPartialio f u skip len = .ok (result, u', f') ∧ Ends f u len result u' f'
  nothing : ∀ {f u}, Ready f u → Ends f u 0 0 u f
  moved : ∀ {f u len u' f'}, Ready f u → Ends f u len 0 u' f' →
    u'.offset = u.offset + len ∧ u'.resid = u.resid - len ∧ (len ≤ u.resid → Ready f' u')
  compose : ∀ {f u first v g second result u' f'}, Ends f u first 0 v g → Ends g v second result u' f' →
    (second = 0 → result = 0) → Ends f u (first + second) result u' f'
  failed : ∀ {f u len result u' f' total}, Ends f u len result u' f' → result ≠ 0 → len ≤ total →
    Ends f u total result u' f'

namespace Transfers

variable {Ready : SfsFile → Uio → Prop} {Ends : SfsFile → Uio → Nat → Errno → Uio → SfsFile → Prop}
  (parts : Transfers Ready Ends)

include parts

theorem whole (ready : Ready f u) (aligned : u.offset % 512 = 0) (fits : 512 * nblocks ≤ u.resid) :
    ∃ result u' f', ioWhole nblocks f u = .ok (result, u', f') ∧ Ends f u (512 * nblocks) result u' f' ∧
      (nblocks = 0 → result = 0) := by
  induction nblocks generalizing f u with
  | zero => exact ⟨_, _, _, rfl, parts.nothing ready, fun _ => rfl⟩
  | succ nblocks ih =>
    obtain ⟨result, v, g, chunk, ended⟩ := parts.block ready aligned (by omega)
    simp only [ioWhole, chunk, ok_bind, Nat.mul_succ, Nat.add_comm _ 512]
    by_cases good : result = 0
    · subst good
      obtain ⟨offset, resid, ready⟩ := parts.moved ready ended
      obtain ⟨result, u', f', rest, last, none⟩ := ih (ready (by omega)) (by omega) (by omega)
      simp only [rest]
      exact ⟨_, _, _, rfl, parts.compose ended last fun zero => none (by omega), nofun⟩
    · simp only [ne_eq, good]
      exact ⟨_, _, _, rfl, parts.failed ended good (by omega), nofun⟩

theorem blocks (ready : Ready f u) (aligned : u.resid = 0 ∨ u.offset % 512 = 0) :
    ∃ result u' f', ioBlocks f u = .ok (result, u', f') ∧ Ends f u u.resid result u' f' ∧
      (u.resid = 0 → result = 0) := by
  unfold ioBlocks
  by_cases empty : u.resid = 0
  · rw [empty]
    exact ⟨_, _, _, rfl, parts.nothing ready, fun _ => rfl⟩
  have aligned := aligned.resolve_left empty
  obtain ⟨result, v, g, chunk, ended, _⟩ := parts.whole ready aligned (Nat.mul_div_le u.resid 512)
  have sum : 512 * (u.resid / 512) + u.resid % 512 = u.resid := Nat.div_add_mod ..
  have small : u.resid % 512 < 512 := Nat.mod_lt _ (by decide)
  simp only [if_neg empty, kassert_ok.mpr aligned, ok_bind, chunk]
  by_cases good : result = 0
  · subst good
    obtain ⟨offset, resid, ready⟩ := parts.moved ready ended
    have ready := ready (by omega)
    have todo : v.resid = u.resid % 512 := by omega
    simp only [todo, kassert_ok.mpr small]
    by_cases more : 0 < u.resid % 512
    · obtain ⟨result, u', f', chunk, last⟩ := parts.piece ready (show 0 = v.offset % 512 by omega)
        (show 0 + u.resid % 512 ≤ 512 by omega) (by omega)
      have all := parts.compose ended last fun zero => absurd zero more.ne'
      rw [sum] at all
      rw [if_pos more, chunk]
      exact ⟨_, _, _, rfl, all, fun zero => absurd zero empty⟩
    · have all := parts.compose ended (parts.nothing ready) fun _ => rfl
      rw [show 512 * (u.resid / 512) + 0 = u.resid by omega] at all
      rw [if_neg more]
      exact ⟨_, _, _, rfl, all, fun _ => rfl⟩
  · rw [if_pos good]
    exact ⟨_, _, _, rfl, parts.failed ended good (by omega), fun zero => absurd zero empty⟩

theorem transfer (ready : Ready f u) :
    ∃ result u' f', ioTransfer f u = .ok (result, u', f') ∧ Ends f u u.resid result u' f' := by
  unfold ioTransfer
  by_cases aligned : u.offset % 512 = 0
  · obtain ⟨result, u', f', done, ended, _⟩ := parts.blocks ready (.inr aligned)
    rw [if_pos aligned]
    exact ⟨result, u', f', done, ended⟩
  generalize first : min (512 - u.offset % 512) u.resid = len
  obtain ⟨result, v, g, chunk, ended⟩ := parts.piece ready rfl (show u.offset % 512 + len ≤ 512 by omega)
    (by omega)
  simp only [if_neg aligned, first, chunk, ok_bind]
  by_cases good : result = 0
  · subst good
    obtain ⟨offset, resid, ready⟩ := parts.moved ready ended
    obtain ⟨result, u', f', rest, last, none⟩ := parts.blocks (ready (by omega)) (by omega)
    have all := parts.compose ended last none
    rw [show len + v.resid = u.resid by omega] at all
    simp only [rest]
    exact ⟨_, _, _, rfl, all⟩
  · simp only [ne_eq, good]
    exact ⟨_, _, _, rfl, parts.failed ended good (by omega)⟩

end Transfers

theorem transfers_write : Transfers (fun f u => f.Sound ∧ u.rw = .write) WriteEnd where
  block ready aligned fits := by
    obtain ⟨result, u', f', chunk, ended⟩ := sfsBlockio_write ready.1 ready.2 aligned fits
    exact ⟨result, u', f', chunk, ended.writeEnd⟩
  piece ready skipped inside fits := by
    obtain ⟨result, u', f', chunk, ended⟩ := sfsPartialio_write ready.1 ready.2 skipped inside fits
    exact ⟨result, u', f', chunk, ended.writeEnd⟩
  nothing {f u} ready := ⟨0, Nat.le_refl _, rfl, .of_grows (.refl ready.1) u, fun _ => rfl⟩
  moved ready ended := by
    obtain ⟨_, _, rfl, wrote, complete⟩ := ended
    obtain rfl := complete rfl
    exact ⟨rfl, rfl, fun _ => ⟨wrote.evolves.sound, ready.2⟩⟩
  compose prev after _ := by
    obtain ⟨_, _, rfl, wrote, complete⟩ := prev
    obtain rfl := complete rfl
    obtain ⟨moved, within, advanced, rest, complete⟩ := after
    rw [advance_advance] at advanced
    exact ⟨_, by omega, advanced, wrote.trans rest, fun good => by rw [complete good]⟩
  failed ended problem shorter := by
    obtain ⟨moved, within, advanced, wrote, _⟩ := ended
    exact ⟨moved, by omega, advanced, wrote, fun good => absurd good problem⟩

section

variable (f : SfsFile) (offset : Nat)

@[simp] theorem SfsFile.adjust_vol : (f.adjust offset).vol = f.vol := by
  unfold SfsFile.adjust
  split <;> rfl

theorem SfsFile.adjust_blockAt (slot : Slot) : (f.adjust offset).blockAt slot = f.blockAt slot := by
  unfold SfsFile.adjust
  split
  · cases slot <;> rfl
  · rfl

@[simp] theorem SfsFile.adjust_content : (f.adjust offset).content = f.content := by
  funext pos
  have same := f.adjust_blockAt offset (.data (pos / 512))
  simp only [SfsFile.blockAt] at same
  simp only [SfsFile.content, same, SfsFile.adjust_vol]

theorem SfsFile.adjust_size :
    (f.adjust offset).sv.inode.size =
      if f.sv.inode.size.toNat < offset then BitVec.ofNat 32 offset else f.sv.inode.size := by
  unfold SfsFile.adjust
  split <;> rfl

theorem SfsFile.adjust_remains : f.sv.Remains (f.adjust offset).sv := by
  unfold SfsFile.adjust
  split
  · exact ⟨rfl, rfl, rfl, rfl, rfl, .inl rfl⟩
  · exact .refl _

end

theorem SfsFile.Sound.evolves_vnode (sound : f.Sound) (volume : f'.vol = f.vol)
    (places : ∀ slot, f'.blockAt slot = f.blockAt slot) (vnode : f.sv.Remains f'.sv) :
    f.Evolves f' := by
  have territory : f'.territory = f.territory := by simp only [SfsFile.territory, places]
  refine ⟨?_, ?_, volume ▸ .refl _, vnode, by rw [volume]⟩
  · refine sound.transport (volume ▸ sound.volume) (by rw [volume]) vnode.ino places ?_
    rw [volume]
    exact sound.territory
  · rw [territory, volume]
    exact .refl _ sound.territory

theorem SfsFile.Sound.adjust_evolves (sound : f.Sound) (offset : Nat) :
    f.Evolves (f.adjust offset) :=
  sound.evolves_vnode (f.adjust_vol offset) (f.adjust_blockAt offset) (f.adjust_remains offset)

theorem sfsIo_write (sound : f.Sound) (write : u.rw = .write) :
    ∃ result moved f', sfsIo f u = .ok (result, u.advance moved, f'.adjust (u.offset + moved)) ∧
      moved ≤ u.resid ∧ Wrote f u moved f' ∧ (result = 0 → moved = u.resid) := by
  obtain ⟨result, u', f', transfer, moved, within, rfl, wrote, complete⟩ :=
    transfers_write.transfer ⟨sound, write⟩
  simp only [sfsIo, write, transfer]
  exact ⟨_, _, _, rfl, within, wrote, complete⟩

/-- How a read of some length ends: a first part of it has been moved, and all of it on success. The
kernel's own buffer takes everything below the largest size of a file. -/
def ReadEnd (f : SfsFile) (u : Uio) (len : Nat) (result : Errno) (u' : Uio) : Prop :=
  ∃ moved, moved ≤ len ∧ u' = u.filled f.content moved ∧ (result = 0 → moved = len) ∧
    (result ≠ 0 → (u.reach ≠ none ∨ 143 * 512 ≤ u.offset + moved) ∧ (moved < len ∨ len = 0))

theorem ReadEnd.nothing (f : SfsFile) (u : Uio) : ReadEnd f u 0 0 u :=
  ⟨0, Nat.le_refl _, (u.filled_zero _).symm, fun _ => rfl, fun problem => absurd rfl problem⟩

theorem ReadEnd.done (f : SfsFile) (u : Uio) (len : Nat) : ReadEnd f u len 0 (u.filled f.content len) :=
  ⟨len, Nat.le_refl _, rfl, fun _ => rfl, fun problem => absurd rfl problem⟩

theorem ReadEnd.refused (f : SfsFile) (len : Nat) (problem : result ≠ 0)
    (cause : u.reach ≠ none ∨ 143 * 512 ≤ u.offset) : ReadEnd f u len result u :=
  ⟨0, Nat.zero_le _, (u.filled_zero _).symm, fun good => absurd good problem,
    fun _ => ⟨cause, by omega⟩⟩

theorem ReadEnd.then (ended : ReadEnd f (u.filled f.content first) second result u')
    (none : second = 0 → result = 0) : ReadEnd f u (first + second) result u' := by
  obtain ⟨moved, within, filled, complete, cause⟩ := ended
  rw [filled_filled] at filled
  refine ⟨first + moved, by omega, filled, fun good => by rw [complete good], ?_⟩
  intro problem
  obtain ⟨stop, short⟩ := cause problem
  have more := mt none problem
  refine ⟨stop.imp_right fun far => ?_, by omega⟩
  rwa [filled_offset, Nat.add_assoc] at far

theorem Uio.filled_block {block : Block} (skipped : skip = u.offset % 512)
    (inside : skip + len ≤ 512)
    (held : ∀ place < 512, block place = f.content (u.offset / 512 * 512 + place)) :
    { u.advance len with buffer := copy block skip u.buffer u.position len } = u.filled f.content len := by
  have same : copy block skip u.buffer u.position len = copy f.content u.offset u.buffer u.position len := by
    funext place
    by_cases moved : u.position ≤ place ∧ place < u.position + len
    · rw [copy, if_pos moved, copy, if_pos moved, held _ (by omega)]
      congr 1
      omega
    · rw [copy, if_neg moved, copy, if_neg moved]
  rw [Uio.filled, same]

theorem SfsFile.content_block (f : SfsFile) (index : Nat) {place : Nat} (small : place < 512) :
    f.content (index * 512 + place) =
      if f.dataBlock index = 0 then 0 else f.vol.disk (f.dataBlock index) place := by
  have quotient : (index * 512 + place) / 512 = index := by omega
  have remainder : (index * 512 + place) % 512 = place := by omega
  rw [SfsFile.content, quotient, remainder]

theorem fileblock_toNat {offset : Nat} (near : offset < 2 ^ 41) :
    (BitVec.ofNat 32 (offset / 512)).toNat = offset / 512 := by
  rw [toNat_ofNat]
  omega

theorem partialMove_read {iobuf : Block} (read : u.rw = .read) (skipped : skip = u.offset % 512)
    (inside : skip + len ≤ 512) (fits : len ≤ u.resid)
    (held : ∀ place < 512, iobuf place = f.content (u.offset / 512 * 512 + place))
    (diskblock : Word32) :
    ∃ result u', partialMove f u iobuf diskblock skip len = .ok (result, u', f) ∧
      ReadEnd f u len result u' := by
  simp only [partialMove, uiomove_read read _ skip fits]
  by_cases faults : u.Faults len
  · simp only [if_pos faults]
    exact ⟨_, _, rfl, .refused f len (by decide) (.inl faults.user)⟩
  · simp only [if_neg faults, filled_block skipped inside held, filled_rw, read]
    exact ⟨_, _, rfl, .done f u len⟩

theorem sfsPartialio_read (sound : f.Sound) (read : u.rw = .read) (skipped : skip = u.offset % 512)
    (inside : skip + len ≤ 512) (fits : len ≤ u.resid) (near : u.offset < 2 ^ 41) :
    ∃ result u', sfsPartialio f u skip len = .ok (result, u', f) ∧ ReadEnd f u len result u' := by
  have mapping := sfsBmap_lookup sound (BitVec.ofNat 32 (u.offset / 512))
  have way : decide (Vm.UioRw.read = Vm.UioRw.write) = false := rfl
  have held (place : Nat) (small : place < 512) := f.content_block (u.offset / 512) small
  rw [fileblock_toNat near] at mapping
  simp only [sfsPartialio, kassert_ok.mpr inside, ok_bind, read, way, mapping]
  by_cases large : u.offset / 512 < 143
  · simp only [if_pos large]
    by_cases hole : f.dataBlock (u.offset / 512) = 0
    · simp only [if_pos hole]
      exact partialMove_read read skipped inside fits
        (fun place small => ((held place small).trans (if_pos hole)).symm) _
    · have loaded := sound.volume.rblock
        (show f.dataBlock (u.offset / 512) < f.vol.nblocks from sound.below (.data _) hole)
      simp only [if_neg hole, loaded]
      exact partialMove_read read skipped inside fits
        (fun place small => ((held place small).trans (if_neg hole)).symm) _
  · simp only [if_neg large]
    exact ⟨_, _, rfl, .refused f len (by decide) (.inr (by omega))⟩

theorem moveZeros_zero (pieces : Nat) (u : Uio) : moveZeros pieces 0 u = (0, u) := by
  induction pieces with
  | zero => rfl
  | succ pieces ih => simp [moveZeros, uiomove, ih]

theorem moveZeros_read {pieces : Nat} (read : u.rw = .read) (fits : n ≤ u.resid)
    (enough : n ≤ 16 * pieces) (zeros : ∀ place < n, f.content (u.offset + place) = 0) :
    ReadEnd f u n (moveZeros pieces n u).1 (moveZeros pieces n u).2 := by
  induction pieces generalizing n u with
  | zero =>
    obtain rfl : n = 0 := by omega
    exact .nothing f u
  | succ pieces ih =>
    have piece : uiomove zeroBlock 0 (min 16 n) u =
        if u.Faults (min 16 n) then (eFault, zeroBlock, u)
        else (0, zeroBlock, u.filled f.content (min 16 n)) := by
      have same : copy zeroBlock 0 u.buffer u.position (min 16 n) =
          copy f.content u.offset u.buffer u.position (min 16 n) := by
        funext place
        unfold copy
        split
        · rw [zeros _ (by omega)]
        · rfl
      rw [uiomove_read read _ _ (by omega), Uio.filled, same]
    simp only [moveZeros, piece]
    by_cases faults : u.Faults (min 16 n)
    · simp only [if_pos faults]
      exact .refused f n (show eFault ≠ 0 by decide) (.inl faults.user)
    · simp only [if_neg faults]
      by_cases last : n - min 16 n = 0
      · rw [last, moveZeros_zero, show min 16 n = n by omega]
        exact .done f u n
      · have rest := ih (show (u.filled f.content (min 16 n)).rw = .read from read)
          (show n - min 16 n ≤ (u.filled f.content (min 16 n)).resid by
            rw [filled_resid]; omega) (by omega)
          (by
            intro place small
            rw [filled_offset, Nat.add_assoc]
            exact zeros _ (by omega))
        have whole := rest.then fun zero => absurd zero last
        rwa [show min 16 n + (n - min 16 n) = n by omega] at whole

theorem sfsBlockio_read (sound : f.Sound) (read : u.rw = .read) (aligned : u.offset % 512 = 0)
    (fits : 512 ≤ u.resid) (near : u.offset < 2 ^ 41) :
    ∃ result u', sfsBlockio f u = .ok (result, u', f) ∧ ReadEnd f u 512 result u' := by
  have mapping := sfsBmap_lookup sound (BitVec.ofNat 32 (u.offset / 512))
  have way : decide (Vm.UioRw.read = Vm.UioRw.write) = false := rfl
  have held (place : Nat) (small : place < 512) := f.content_block (u.offset / 512) small
  have start : u.offset / 512 * 512 = u.offset := by omega
  rw [fileblock_toNat near] at mapping
  simp only [sfsBlockio, read, way, mapping, ok_bind]
  by_cases large : u.offset / 512 < 143
  · simp only [if_pos large]
    by_cases hole : f.dataBlock (u.offset / 512) = 0
    · have zeros : ∀ place < 512, f.content (u.offset + place) = 0 := by
        intro place small
        rw [← start, held place small, if_pos hole]
      simp only [if_pos hole]
      exact ⟨_, _, rfl, moveZeros_read read fits (by decide) zeros⟩
    · have below : f.dataBlock (u.offset / 512) < f.vol.nblocks := sound.below (.data _) hole
      simp only [if_neg hole, kassert_ok.mpr fits, sound.volume.diskoff below,
        Volume.rwblock_onDisk (sound.volume.check below), read]
      by_cases faults : u.Faults 512
      · simp only [if_pos faults, ok_bind, restore_onDisk]
        exact ⟨_, _, rfl, .refused f 512 (by decide) (.inl faults.user)⟩
      · have filled := filled_block aligned.symm (show 0 + 512 ≤ 512 by decide) fun place small =>
          ((held place small).trans (if_neg hole)).symm
        simp only [if_neg faults, ok_bind, restore_advance, filled]
        exact ⟨_, _, rfl, .done f u 512⟩
  · simp only [if_neg large]
    exact ⟨_, _, rfl, .refused f 512 (by decide) (.inr (by omega))⟩

theorem transfers_read : Transfers (fun f u => f.Sound ∧ u.rw = .read ∧ u.offset + u.resid < 2 ^ 41)
    fun f u len result u' f' => ReadEnd f u len result u' ∧ f' = f where
  block ready aligned fits := by
    obtain ⟨sound, read, near⟩ := ready
    obtain ⟨result, u', chunk, ended⟩ := sfsBlockio_read sound read aligned fits (by omega)
    exact ⟨result, u', _, chunk, ended, rfl⟩
  piece ready skipped inside fits := by
    obtain ⟨sound, read, near⟩ := ready
    obtain ⟨result, u', chunk, ended⟩ := sfsPartialio_read sound read skipped inside fits (by omega)
    exact ⟨result, u', _, chunk, ended, rfl⟩
  nothing {f u} _ := ⟨.nothing f u, rfl⟩
  moved ready ended := by
    obtain ⟨⟨_, _, rfl, complete, _⟩, rfl⟩ := ended
    obtain rfl := complete rfl
    refine ⟨rfl, rfl, fun fits => ⟨ready.1, ready.2.1, ?_⟩⟩
    rw [filled_offset, filled_resid]
    omega
  compose prev after none := by
    obtain ⟨⟨_, _, rfl, complete, _⟩, rfl⟩ := prev
    obtain rfl := complete rfl
    exact ⟨after.1.then none, after.2⟩
  failed ended problem shorter := by
    obtain ⟨⟨moved, within, filled, _, cause⟩, rfl⟩ := ended
    obtain ⟨stop, short⟩ := cause problem
    exact ⟨⟨moved, by omega, filled, fun good => absurd good problem, fun _ => ⟨stop, by omega⟩⟩, rfl⟩

/-- The number of bytes that a read can find before the end of the file -/
def SfsFile.readable (f : SfsFile) (u : Uio) : Nat := min u.resid (f.sv.inode.size.toNat - u.offset)

theorem sfsIo_read (sound : f.Sound) (read : u.rw = .read) :
    ∃ result moved, sfsIo f u = .ok (result, u.filled f.content moved, f) ∧ moved ≤ f.readable u ∧
      (result = 0 → moved = f.readable u) ∧
      (u.reach = none → f.sv.inode.size.toNat ≤ 143 * 512 → result = 0) := by
  simp only [sfsIo, read, SfsFile.readable]
  by_cases past : f.sv.inode.size.toNat ≤ u.offset
  · rw [if_pos past]
    refine ⟨0, 0, by rw [filled_zero, pure_ok], Nat.zero_le _, ?_, fun _ _ => rfl⟩
    intro _
    omega
  rw [if_neg past]
  obtain ⟨extra, surplus⟩ : ∃ extra, u.offset + u.resid - f.sv.inode.size.toNat = extra := ⟨_, rfl⟩
  have near : (u.setResid (u.resid - extra)).offset + (u.setResid (u.resid - extra)).resid < 2 ^ 41 := by
    simp only [Uio.setResid]
    omega
  obtain ⟨result, u', _, transfer, ⟨moved, within, filled, complete, cause⟩, rfl⟩ :=
    transfers_read.transfer ⟨sound, show (u.setResid (u.resid - extra)).rw = .read from read, near⟩
  have asserted : 0 < extra → extra < u.resid := by omega
  simp only [surplus, kassert_ok.mpr asserted, ok_bind, transfer, pure_ok]
  simp only [Uio.setResid] at within complete cause
  refine ⟨result, moved, ?_, by omega, ?_, ?_⟩
  · have resid : u.resid - extra - moved + extra = u.resid - moved := by omega
    rw [filled]
    simp only [Uio.filled, Uio.advance, Uio.setResid, resid]
  · intro good
    have all := complete good
    omega
  · intro kernel bounded
    by_contra problem
    obtain ⟨stop, short⟩ := cause problem
    rcases stop with user | far
    · exact user kernel
    · omega

end Os161.Sfs
