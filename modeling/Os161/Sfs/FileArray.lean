import Os161.Sfs.FileIo

namespace Os161.Sfs
open Word Outcome Bytes Territory Transition

/-- A file without blocks besides its inode -/
structure SfsFile.Bare (f : SfsFile) : Prop where
  direct : ∀ index, f.sv.inode.direct index = 0
  indirect : f.sv.inode.indirect = 0

theorem SfsFile.Bare.dataBlock {f : SfsFile} (bare : f.Bare) (index : Nat) : f.dataBlock index = 0 := by
  by_cases low : index < 15
  · exact (dif_pos low).trans (bare.direct _)
  · exact dataBlock_bare bare.indirect (by omega)

theorem SfsFile.Bare.slot {f : SfsFile} (bare : f.Bare) {slot : Slot} (taken : f.blockAt slot ≠ 0) :
    slot = .self := by
  cases slot with
  | self => rfl
  | indirect => exact absurd bare.indirect taken
  | data index => exact absurd (bare.dataBlock index) taken

theorem SfsFile.Bare.territory {f : SfsFile} (bare : f.Bare) (self : f.sv.ino ≠ 0) :
    f.territory = {f.sv.ino} := by
  ext block
  constructor
  · rintro ⟨present, slot, rfl⟩
    obtain rfl := bare.slot present
    rfl
  · rintro rfl
    exact ⟨self, .self, rfl⟩

theorem SfsFile.Bare.sound {f : SfsFile} (bare : f.Bare) (volume : f.vol.Sound) (self : f.sv.ino ≠ 0)
    (below : f.sv.ino < f.vol.nblocks) (used : f.vol.Used f.sv.ino) : f.Sound := by
  refine ⟨volume, self, ?_, ?_, ?_⟩
  · intro slot taken
    obtain rfl := bare.slot taken
    exact below
  · intro slot taken
    obtain rfl := bare.slot taken
    exact used
  · intro first second same taken
    have other : f.blockAt second ≠ 0 := same ▸ taken
    rw [bare.slot taken, bare.slot other]

/-- The size of the file and every byte before its end are as before. -/
def SfsFile.Unchanged (f f' : SfsFile) : Prop :=
  f'.sv.inode.size = f.sv.inode.size ∧
    ∀ position < f.sv.inode.size.toNat, f'.content position = f.content position

/-- A write that moves nothing changes nothing exactly inside the file. -/
theorem idle_write_iff {f f' : SfsFile} {u u' : Uio} {result : Errno} (sound : f.Sound)
    (write : u.rw = .write) (returned : sfsIo f u = .ok (result, u', f')) (idle : u'.resid = u.resid) :
    f.Unchanged f' ↔
      u.offset ≤ f.sv.inode.size.toNat ∨ u.offset % 2 ^ 32 = f.sv.inode.size.toNat := by
  obtain ⟨code, moved, g, finished, within, wrote, complete⟩ := sfsIo_write sound write
  rw [finished] at returned
  cases returned
  obtain rfl : moved = 0 := by
    rw [Uio.advance_resid] at idle
    omega
  have content : (g.adjust u.offset).content = f.content := by
    rw [SfsFile.adjust_content, wrote.nothing rfl]
  have sizes : f.Unchanged (g.adjust u.offset) ↔
      (if f.sv.inode.size.toNat < u.offset then BitVec.ofNat 32 u.offset else f.sv.inode.size) =
        f.sv.inode.size := by
    simp only [SfsFile.Unchanged, content, implies_true, and_true, SfsFile.adjust_size, wrote.size]
  rw [Nat.add_zero, sizes]
  by_cases behind : f.sv.inode.size.toNat < u.offset
  · rw [if_pos behind, ← BitVec.toNat_inj]
    exact ⟨.inr, fun either => either.resolve_left (by omega)⟩
  · rw [if_neg behind]
    exact iff_of_true rfl (.inl (by omega))

/-- A volume of eight blocks with one inode behind the free map. -/
def smallVolume : Volume where
  blocks := 8
  nblocks := 8
  freemap := { nbits := 4096, bits := fun index => index ≤ 3 ∨ 8 ≤ index }
  freemapdirty := false
  disk := fun _ _ => 0

/-- The empty regular file in block 3 of that volume. -/
def emptyFile : SfsFile where
  vol := smallVolume
  sv :=
    { ino := 3
      inode := { size := 0, type := typeFile, linkcount := 1, direct := fun _ => 0, indirect := 0 }
      dirty := false
      refcount := 1
      opencount := 1 }

theorem smallVolume_sound : smallVolume.Sound where
  device := by decide
  addressable := by decide
  mapped := by decide
  tail index beyond _ := decide_eq_true (.inr beyond)
  super := rfl

/-- The request to write some ones at an offset. -/
def onesAt (offset resid : Nat) : Uio where
  offset := offset
  resid := resid
  rw := .write
  buffer := fun _ => 1
  position := 0
  reach := none

/-- The file without blocks, grown past the largest file -/
def longFile : SfsFile where
  vol := smallVolume
  sv := { emptyFile.sv with inode := { emptyFile.sv.inode with size := 80000 } }

theorem longFile_sound : longFile.Sound :=
  (SfsFile.Bare.mk (fun _ => rfl) rfl).sound smallVolume_sound (by decide) (by decide) rfl

/-- A write refused with `EFBIG` inside the long file changes nothing. -/
theorem idle_write_inside :
    sfsIo longFile (onesAt 73216 1) = .ok (eFbig, onesAt 73216 1, longFile) ∧
      longFile.Unchanged longFile := by
  have returned : sfsIo longFile (onesAt 73216 1) = .ok (eFbig, onesAt 73216 1, longFile) := rfl
  exact ⟨returned, (idle_write_iff longFile_sound rfl returned rfl).mpr (.inl (by decide))⟩

/-- A refused write behind the largest file makes the empty file long. -/
theorem idle_write_grows : ∃ f',
    sfsIo emptyFile (onesAt 73216 1) = .ok (eFbig, onesAt 73216 1, f') ∧ ¬ emptyFile.Unchanged f' := by
  refine ⟨_, rfl, ?_⟩
  rintro ⟨same, _⟩
  exact absurd same (by decide)

/-- The reference for a file: an array of bytes -/
structure FileArray where
  size : Nat
  bytes : Nat → Byte

def FileArray.empty : FileArray := ⟨0, fun _ => 0⟩

/-- A write replaces bytes and moves the end of the array to the end of the write. -/
def FileArray.write (a : FileArray) (offset : Nat) (buffer : Nat → Byte) (start length : Nat) :
    FileArray where
  size := max a.size (offset + length)
  bytes := copy buffer start a.bytes offset length

/-- What a request does to the reference -/
def FileArray.apply (a : FileArray) (u : Uio) : FileArray :=
  match u.rw with
  | .read => a
  | .write => a.write u.offset u.buffer u.position u.resid

/-- The bytes that a read of the reference finds -/
def FileArray.found (a : FileArray) (u : Uio) : Nat := min u.resid (a.size - u.offset)

/-- The `uio` after a read of the reference: its buffer holds the bytes that are there, and its residue and
offset account for them. -/
def FileArray.read (a : FileArray) (u : Uio) : Uio :=
  { u with
    offset := u.offset + a.found u
    resid := u.resid - a.found u
    position := u.position + a.found u
    buffer := copy a.bytes u.offset u.buffer u.position (a.found u) }

/-- A read or a successful write of at least one byte, with a kernel buffer and below the largest size of
a file -/
structure FileStep (f : SfsFile) (u : Uio) (f' : SfsFile) : Prop where
  kernel : u.reach = none
  below : u.offset + u.resid ≤ 143 * 512
  some : u.rw = .write → 1 ≤ u.resid
  returned : ∃ u', sfsIo f u = .ok (0, u', f')

/-- The file holds the bytes of the reference. -/
structure SfsFile.Holds (f : SfsFile) (a : FileArray) : Prop where
  sound : f.Sound
  size : f.sv.inode.size.toNat = a.size
  small : a.size ≤ 143 * 512
  content : f.content = a.bytes

theorem SfsFile.Holds.write {f : SfsFile} {u : Uio} (holds : f.Holds a) (write : u.rw = .write)
    (below : u.offset + u.resid ≤ 143 * 512) (ran : sfsIo f u = .ok (0, u', f')) :
    u' = u.advance u.resid ∧ f'.Holds (a.apply u) := by
  obtain ⟨code, moved, g, done, _, wrote, complete⟩ := sfsIo_write holds.sound write
  rw [done] at ran
  cases ran
  obtain rfl := complete rfl
  have small := holds.small
  have size := holds.size
  have applied : a.apply u = a.write u.offset u.buffer u.position u.resid := by
    simp only [FileArray.apply, write]
  refine ⟨rfl, (wrote.evolves.sound.adjust_evolves _).sound, ?_, ?_, ?_⟩
  · rw [SfsFile.adjust_size, wrote.size, applied]
    change _ = max a.size (u.offset + u.resid)
    split
    · rw [BitVec.toNat_ofNat]
      omega
    · omega
  · rw [applied]
    change max a.size (u.offset + u.resid) ≤ _
    omega
  · rw [SfsFile.adjust_content, wrote.content (by omega), holds.content, applied]
    rfl

theorem SfsFile.Holds.read {f : SfsFile} (holds : f.Holds a) {u : Uio} (read : u.rw = .read)
    (kernel : u.reach = none) : sfsIo f u = .ok (0, a.read u, f) := by
  obtain ⟨res, moved, done, _, complete, good⟩ := sfsIo_read holds.sound read
  obtain rfl := good kernel (by rw [holds.size]; exact holds.small)
  obtain rfl := complete rfl
  rw [done, holds.content, SfsFile.readable, holds.size]
  rfl

theorem FileStep.holds {f : SfsFile} (holds : f.Holds a) (step : FileStep f u f') : f'.Holds (a.apply u) := by
  obtain ⟨u', ran⟩ := step.returned
  cases way : u.rw with
  | read =>
    rw [holds.read way step.kernel] at ran
    cases ran
    simpa only [FileArray.apply, way] using holds
  | write => exact (holds.write way step.below ran).2

theorem SfsFile.Holds.run {f : SfsFile} (holds : f.Holds a) (reached : Run FileStep f requests f') :
    f'.Holds (requests.foldl FileArray.apply a) := by
  induction reached generalizing a with
  | nil f => exact holds
  | cons step rest ih => exact ih (step.holds holds)

end Os161.Sfs
