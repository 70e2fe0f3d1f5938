import Os161.Lib.Territory
import Os161.Sfs.Volume

namespace Os161.Sfs
open Word Outcome Territory Function

abbrev eFbig : Errno := 38

/-- `struct sfs_vnode` with the counts of its `struct vnode` -/
structure SfsVnode where
  ino : Word32
  inode : Inode
  dirty : Bool
  refcount : Nat
  opencount : Nat
deriving DecidableEq

/-- A vnode and the volume that it is on. -/
structure SfsFile where
  vol : Volume
  sv : SfsVnode

def SfsVnode.setDirect (sv : SfsVnode) (index : Fin 15) (block : Word32) : SfsVnode :=
  { sv with
    inode := { sv.inode with direct := update sv.inode.direct index block }
    dirty := true }

def SfsVnode.setIndirect (sv : SfsVnode) (block : Word32) : SfsVnode :=
  { sv with inode := { sv.inode with indirect := block }, dirty := true }

abbrev markedFreePanic (block fileblock ino : Nat) : Panic :=
  .message s!"sfs: Data block {block} (block {fileblock} of file {ino}) marked free\n"

/-- Both ways through `sfs_bmap` hand back the block, which has to be in use. -/
def bmapResult (f : SfsFile) (block : Word32) (fileblock : Nat) :
    Kernel (Except Errno Word32 × SfsFile) :=
  if block = 0 then .ok (.ok 0, f)
  else do
    if ← sfsBused f.vol block then return (.ok block, f)
    else .error (markedFreePanic block.toNat fileblock f.sv.ino.toNat)

/-- `sfs_bmap` for a direct block -/
def bmapDirect (f : SfsFile) (index : Fin 15) (doalloc : Bool) :
    Kernel (Except Errno Word32 × SfsFile) := do
  let block := f.sv.inode.direct index
  if block = 0 ∧ doalloc then
    match ← sfsBalloc f.vol with
    | (.error result, vol) => return (.error result, { f with vol := vol })
    | (.ok block, vol) => bmapResult ⟨vol, f.sv.setDirect index block⟩ block index
  else bmapResult f block index

/-- `sfs_bmap` after it has loaded the indirect block -/
def bmapEntry (f : SfsFile) (idbuf : Block) (idoff : Nat) (doalloc : Bool) :
    Kernel (Except Errno Word32 × SfsFile) := do
  let block := idbuf.word idoff
  if block = 0 ∧ doalloc then
    match ← sfsBalloc f.vol with
    | (.error result, vol) => return (.error result, { f with vol := vol })
    | (.ok block, vol) =>
      let vol ← sfsWblock vol (.ofWords (update idbuf.word idoff block)) f.sv.inode.indirect
      bmapResult { f with vol := vol } block idoff
  else bmapResult f block idoff

/-- `sfs_bmap` for an entry of the indirect block, which has `SFS_DBPERIDB` = 128 of them -/
def bmapIndirect (f : SfsFile) (index : Nat) (doalloc : Bool) :
    Kernel (Except Errno Word32 × SfsFile) := do
  if index / 128 > 0 then return (.error eFbig, f)
  else if f.sv.inode.indirect = 0 ∧ doalloc = false then return (.ok 0, f)
  else if f.sv.inode.indirect = 0 then
    match ← sfsBalloc f.vol with
    | (.error result, vol) => return (.error result, { f with vol := vol })
    | (.ok idblock, vol) =>
      bmapEntry ⟨vol, f.sv.setIndirect idblock⟩ zeroBlock (index % 128) doalloc
  else
    let idbuf ← sfsRblock f.vol f.sv.inode.indirect
    bmapEntry f idbuf (index % 128) doalloc

def sfsBmap (f : SfsFile) (fileblock : Word32) (doalloc : Bool) :
    Kernel (Except Errno Word32 × SfsFile) :=
  if direct : fileblock.toNat < 15 then bmapDirect f ⟨fileblock.toNat, direct⟩ doalloc
  else bmapIndirect f (fileblock.toNat - 15) doalloc

/-- The disk block that the indirect block names for a block of the file -/
def indirectEntry (disk : Word32 → Block) (indirect : Word32) (index : Nat) : Word32 :=
  if index < 143 ∧ indirect ≠ 0 then (disk indirect).word (index - 15) else 0

/-- The disk block behind a block of the file; zero for a hole. -/
def SfsFile.dataBlock (f : SfsFile) (index : Nat) : Word32 :=
  if direct : index < 15 then f.sv.inode.direct ⟨index, direct⟩
  else indirectEntry f.vol.disk f.sv.inode.indirect index

/-- The byte at a position of the file; holes hold zeros. -/
def SfsFile.content (f : SfsFile) (position : Nat) : Byte :=
  let block := f.dataBlock (position / 512)
  if block = 0 then 0 else f.vol.disk block (position % 512)

/-- The ways in which a block can be reached from an inode -/
inductive Slot where
  | self
  | indirect
  | data (index : Nat)
deriving DecidableEq

def SfsFile.blockAt (f : SfsFile) : Slot → Word32
  | .self => f.sv.ino
  | .indirect => f.sv.inode.indirect
  | .data index => f.dataBlock index

/-- The blocks of a file -/
def SfsFile.territory (f : SfsFile) : Set Word32 := { block | block ≠ 0 ∧ ∃ slot, f.blockAt slot = block }

/-- Every block of the file is on the volume, marked in the free map and reached in one way. -/
structure SfsFile.Sound (f : SfsFile) : Prop where
  volume : f.vol.Sound
  self : f.sv.ino ≠ 0
  below : ∀ slot, f.blockAt slot ≠ 0 → f.blockAt slot < f.vol.nblocks
  used : ∀ slot, f.blockAt slot ≠ 0 → f.vol.Used (f.blockAt slot)
  once : ∀ {first second}, f.blockAt first = f.blockAt second → f.blockAt first ≠ 0 → first = second

/-- What no operation on the contents of a file changes in its vnode. An operation that changes the
inode marks it dirty. -/
structure SfsVnode.Remains (sv sv' : SfsVnode) : Prop where
  ino : sv'.ino = sv.ino
  type : sv'.inode.type = sv.inode.type
  linkcount : sv'.inode.linkcount = sv.inode.linkcount
  refcount : sv'.refcount = sv.refcount
  opencount : sv'.opencount = sv.opencount
  saved : sv'.dirty = true ∨ sv' = sv

theorem SfsVnode.Remains.refl (sv : SfsVnode) : sv.Remains sv := ⟨rfl, rfl, rfl, rfl, rfl, .inr rfl⟩

theorem SfsVnode.Remains.trans {sv sv' sv'' : SfsVnode} (first : sv.Remains sv')
    (second : sv'.Remains sv'') : sv.Remains sv'' where
  ino := second.ino.trans first.ino
  type := second.type.trans first.type
  linkcount := second.linkcount.trans first.linkcount
  refcount := second.refcount.trans first.refcount
  opencount := second.opencount.trans first.opencount
  saved := by
    rcases second.saved with dirty | same
    · exact .inl dirty
    · rw [same]
      exact first.saved

/-- An operation on the contents of a file exchanges blocks with the free map, touches no block of
another file and does not write the inode. -/
structure SfsFile.Evolves (f f' : SfsFile) : Prop where
  sound : f'.Sound
  change : Change f.vol.Used f'.vol.Used f.vol.disk f'.vol.disk f.territory f'.territory
  follows : f.vol.Follows f'.vol
  vnode : f.sv.Remains f'.sv
  unwritten : f'.vol.disk f.sv.ino = f.vol.disk f.sv.ino

variable {f : SfsFile}

theorem SfsFile.Sound.territory (sound : f.Sound) : ∀ block ∈ f.territory, f.vol.Used block := by
  rintro _ ⟨present, slot, rfl⟩
  exact sound.used slot present

variable {f' : SfsFile}

theorem SfsFile.Sound.transport (sound : f.Sound) (volume : f'.vol.Sound)
    (nblocks : f'.vol.nblocks = f.vol.nblocks) (ino : f'.sv.ino = f.sv.ino)
    (places : ∀ slot, f'.blockAt slot = f.blockAt slot)
    (used : ∀ block ∈ f.territory, f'.vol.Used block) : f'.Sound where
  volume := volume
  self := ino ▸ sound.self
  below slot taken := by
    rw [places] at taken ⊢
    rw [nblocks]
    exact sound.below slot taken
  used slot taken := by
    rw [places] at taken ⊢
    exact used _ ⟨taken, slot, rfl⟩
  once {first second} same taken := by
    rw [places] at same taken
    rw [places] at same
    exact sound.once same taken

theorem SfsFile.Sound.indirect_below (sound : f.Sound) (used : f.sv.inode.indirect ≠ 0) :
    f.sv.inode.indirect < f.vol.nblocks := sound.below .indirect used

theorem SfsFile.Evolves.refl (sound : f.Sound) : f.Evolves f where
  sound := sound
  change := .refl _ sound.territory
  follows := .refl _
  vnode := .refl _
  unwritten := rfl

variable {g : SfsFile}

theorem SfsFile.Evolves.trans {h : SfsFile} (first : f.Evolves g) (second : g.Evolves h) :
    f.Evolves h where
  sound := second.sound
  change := first.change.trans second.change
  follows := first.follows.trans second.follows
  vnode := first.vnode.trans second.vnode
  unwritten := by
    have later := second.unwritten
    rw [first.vnode.ino] at later
    exact later.trans first.unwritten

/-- One free block is attached to a vacant place of the file. -/
structure SfsFile.Adds (f : SfsFile) (slot : Slot) (block : Word32) (f' : SfsFile) : Prop where
  vacant : f.blockAt slot = 0
  free : ¬ f.vol.Used block
  nonzero : block ≠ 0
  below : block < f.vol.nblocks
  places : ∀ other, f'.blockAt other = if other = slot then block else f.blockAt other
  volume : f'.vol = { f.vol.grant block with disk := f'.vol.disk }
  cleared : f'.vol.disk block = zeroBlock
  kept : ∀ other, other ≠ block → (f.sv.inode.indirect = 0 ∨ other ≠ f.sv.inode.indirect) →
    f'.vol.disk other = f.vol.disk other
  vnode : f.sv.Remains f'.sv
  size : f'.sv.inode.size = f.sv.inode.size

theorem Volume.used_grant (v : Volume) (block other : Word32) :
    (v.grant block).Used other ↔ other = block ∨ v.Used other := by
  by_cases same : other = block
  · simp [Volume.Used, Volume.grant, same]
  · have differ : other.toNat ≠ block.toNat := fun equal => same (BitVec.eq_of_toNat_eq equal)
    simp [Volume.Used, Volume.grant, same, update_of_ne differ]

theorem Volume.vacant_grant {v : Volume} (vol : v' = v.grant block) : v'.vacant = v.vacant \ {block} := by
  ext other
  rw [vol]
  simp only [Volume.vacant, Set.mem_ofPred_eq, Volume.used_grant, Set.mem_sdiff]
  tauto

theorem Volume.ncard_vacant {v : Volume} (vol : v' = v.grant block) (free : block ∈ v.vacant) :
    v.vacant.ncard = v'.vacant.ncard + 1 := by
  have : Finite Word32 := .of_injective BitVec.toFin fun _ _ => BitVec.toFin_inj.mp
  rw [Volume.vacant_grant vol, Set.ncard_sdiff_singleton_add_one free]

theorem Volume.Sound.grant {v : Volume} (sound : v.Sound) (block : Word32) : (v.grant block).Sound :=
  { sound with
    tail index beyond inside := by
      have prev := sound.tail index beyond inside
      by_cases same : index = block.toNat
      · simp [Volume.grant, same]
      · simpa [Volume.grant, update_of_ne same] using prev
    super := by
      by_cases same : 0 = block.toNat
      · simp [Volume.grant, ← same]
      · simpa [Volume.grant, update_of_ne same] using sound.super }

section

variable {f f' : SfsFile} {slot : Slot} {block : Word32}

theorem SfsFile.Adds.used (adds : f.Adds slot block f') (other : Word32) :
    f'.vol.Used other ↔ other = block ∨ f.vol.Used other := by
  rw [← Volume.used_grant, adds.volume]
  rfl

theorem SfsFile.Adds.blockAt_self (adds : f.Adds slot block f') : f'.blockAt slot = block := by
  rw [adds.places, if_pos rfl]

variable {other : Slot}

section

variable (adds : f.Adds slot block f')
include adds

theorem SfsFile.Adds.blockAt_of_ne (taken : f.blockAt other ≠ 0) : f'.blockAt other = f.blockAt other := by
  rw [adds.places, if_neg]
  rintro rfl
  exact taken adds.vacant

theorem SfsFile.Adds.ne_block (sound : f.Sound) (taken : f.blockAt other ≠ 0) : f.blockAt other ≠ block := by
  intro same
  exact adds.free (same ▸ sound.used other taken)

theorem SfsFile.Adds.sound (sound : f.Sound) : f'.Sound where
  volume := by
    have granted := sound.volume.grant block
    rw [adds.volume]
    exact ⟨granted.device, granted.addressable, granted.mapped, granted.tail, granted.super⟩
  self := by
    rw [adds.vnode.ino]
    exact sound.self
  below other taken := by
    rw [adds.places, adds.volume] at *
    split at taken
    · rw [if_pos ‹_›]
      exact adds.below
    · rw [if_neg ‹_›]
      exact sound.below other taken
  used other taken := by
    rw [adds.used, adds.places] at *
    split at taken
    · exact .inl (if_pos ‹_›)
    · rw [if_neg ‹_›]
      exact .inr (sound.used other taken)
  once {first second} same taken := by
    rw [adds.places first] at same taken
    rw [adds.places second] at same
    by_cases here : first = slot
    · by_cases there : second = slot
      · rw [here, there]
      · rw [if_pos here, if_neg there] at same
        exact absurd same.symm (adds.ne_block sound (same ▸ adds.nonzero))
    · rw [if_neg here] at same taken
      by_cases there : second = slot
      · rw [if_pos there] at same
        exact absurd same (adds.ne_block sound taken)
      · rw [if_neg there] at same
        exact sound.once same taken

theorem SfsFile.Adds.territory (other : Word32) :
    other ∈ f'.territory ↔ other = block ∨ other ∈ f.territory := by
  constructor
  · rintro ⟨present, place, rfl⟩
    rw [adds.places] at *
    split
    · exact .inl rfl
    · rw [if_neg ‹_›] at present
      exact .inr ⟨present, place, rfl⟩
  · rintro (rfl | ⟨present, place, rfl⟩)
    · exact ⟨adds.nonzero, slot, adds.blockAt_self⟩
    · exact ⟨present, place, adds.blockAt_of_ne present⟩

theorem SfsFile.Adds.kept_at (sound : f.Sound) (taken : f.blockAt other ≠ 0) (apart : other ≠ .indirect) :
    f'.vol.disk (f.blockAt other) = f.vol.disk (f.blockAt other) := by
  refine adds.kept _ (adds.ne_block sound taken) (.inr ?_)
  intro same
  exact apart (sound.once (show f.blockAt other = f.blockAt .indirect from same) taken)

theorem SfsFile.Adds.evolves (sound : f.Sound) : f.Evolves f' where
  sound := adds.sound sound
  change :=
    { fresh := by
        intro other mem
        rcases (adds.territory other).mp mem with rfl | before
        · exact .inr adds.free
        · exact .inl before
      marks := by
        intro other
        rw [adds.used, adds.territory]
        have marked := sound.territory other
        by_cases mem : other ∈ f.territory
        · simp [mem, marked mem]
        · simp [mem, or_comm]
      kept := by
        intro other used apart
        refine adds.kept other (fun same => adds.free (same ▸ used)) ?_
        by_cases none : f.sv.inode.indirect = 0
        · exact .inl none
        · refine .inr ?_
          rintro rfl
          exact apart ⟨none, .indirect, rfl⟩ }
  follows := by
    rw [adds.volume]
    exact (f.vol.follows_grant block).disk _
  vnode := adds.vnode
  unwritten := adds.kept_at sound (show f.blockAt .self ≠ 0 from sound.self) (by decide)

theorem SfsFile.Adds.content (sound : f.Sound) : f'.content = f.content := by
  funext pos
  have places := adds.places (.data (pos / 512))
  simp only [SfsFile.blockAt] at places
  simp only [SfsFile.content, places]
  split
  · rename_i here
    have hole : f.dataBlock (pos / 512) = 0 := by
      have vacant := adds.vacant
      rw [← here] at vacant
      exact vacant
    rw [if_neg adds.nonzero, adds.cleared, if_pos hole]
  · by_cases hole : f.dataBlock (pos / 512) = 0
    · rw [if_pos hole, if_pos hole]
    · have same := adds.kept_at sound (show f.blockAt (.data (pos / 512)) ≠ 0 from hole) nofun
      rw [if_neg hole, if_neg hole]
      exact congrFun same _

end

end

theorem indirectEntry_congr {disk disk' : Word32 → Block}
    (same : indirect ≠ 0 → disk' indirect = disk indirect) (index : Nat) :
    indirectEntry disk' indirect index = indirectEntry disk indirect index := by
  unfold indirectEntry
  split
  · rw [same ‹_ ∧ _›.2]
  · rfl

theorem dataBlock_direct (f : SfsFile) (index : Fin 15) :
    f.dataBlock index = f.sv.inode.direct index := dif_pos index.isLt

variable {index : Nat}

theorem dataBlock_high (f : SfsFile) (high : 15 ≤ index) :
    f.dataBlock index = indirectEntry f.vol.disk f.sv.inode.indirect index := dif_neg (by omega)

theorem dataBlock_entry (used : f.sv.inode.indirect ≠ 0) (small : entry < 128) :
    f.dataBlock (15 + entry) = (f.vol.disk f.sv.inode.indirect).word entry := by
  rw [dataBlock_high f (by omega), indirectEntry, if_pos ⟨by omega, used⟩, Nat.add_sub_cancel_left]

theorem dataBlock_bare (bare : f.sv.inode.indirect = 0) (high : 15 ≤ index) :
    f.dataBlock index = 0 := by
  rw [dataBlock_high f high, indirectEntry, if_neg (fun both => both.2 bare)]

theorem dataBlock_beyond (f : SfsFile) (high : 143 ≤ index) : f.dataBlock index = 0 := by
  rw [dataBlock_high f (by omega), indirectEntry, if_neg (by omega)]

section

variable {f : SfsFile} {block : Word32}

theorem SfsFile.Sound.addsDirect (sound : f.Sound) {index : Fin 15}
    (vacant : f.sv.inode.direct index = 0) (free : ¬ f.vol.Used block) (nonzero : block ≠ 0)
    (below : block < f.vol.nblocks) :
    f.Adds (.data index) block ⟨f.vol.grant block, f.sv.setDirect index block⟩ where
  vacant := (dataBlock_direct f index).trans vacant
  free := free
  nonzero := nonzero
  below := below
  places other := by
    cases other with
    | self => rfl
    | indirect => rfl
    | data k =>
      simp only [SfsFile.blockAt, Slot.data.injEq]
      by_cases low : k < 15
      · simp only [SfsFile.dataBlock, dif_pos low, SfsVnode.setDirect]
        by_cases same : k = index
        · subst same
          rw [if_pos rfl]
          exact update_self ..
        · have differ : (⟨k, low⟩ : Fin 15) ≠ index := fun equal => same (congrArg Fin.val equal)
          rw [if_neg same, update_of_ne differ]
      · have differ : k ≠ index := by omega
        rw [if_neg differ, dataBlock_high _ (by omega), dataBlock_high _ (by omega)]
        refine indirectEntry_congr (fun attached => update_of_ne ?_ ..) k
        intro same
        exact free (same ▸ sound.used .indirect attached)
  volume := rfl
  cleared := update_self ..
  kept other differ _ := update_of_ne differ ..
  vnode := ⟨rfl, rfl, rfl, rfl, rfl, .inl rfl⟩
  size := rfl

theorem SfsFile.addsIndirect (vacant : f.sv.inode.indirect = 0)
    (free : ¬ f.vol.Used block) (nonzero : block ≠ 0) (below : block < f.vol.nblocks) :
    f.Adds .indirect block ⟨f.vol.grant block, f.sv.setIndirect block⟩ where
  vacant := vacant
  free := free
  nonzero := nonzero
  below := below
  places other := by
    cases other with
    | self => rfl
    | indirect => rfl
    | data k =>
      rw [SfsFile.blockAt, SfsFile.blockAt]
      by_cases low : k < 15
      · rw [SfsFile.dataBlock, SfsFile.dataBlock, dif_pos low, dif_pos low]
        rfl
      · rw [dataBlock_bare vacant (by omega), dataBlock_high _ (by omega)]
        simp [indirectEntry, SfsVnode.setIndirect]
  volume := rfl
  cleared := update_self ..
  kept other differ _ := update_of_ne differ ..
  vnode := ⟨rfl, rfl, rfl, rfl, rfl, .inl rfl⟩
  size := rfl

theorem SfsFile.Sound.addsEntry (sound : f.Sound) (attached : f.sv.inode.indirect ≠ 0) (small : entry < 128)
    {idbuf : Block} (loaded : idbuf.word = (f.vol.disk f.sv.inode.indirect).word)
    (vacant : idbuf.word entry = 0) (free : ¬ f.vol.Used block) (nonzero : block ≠ 0)
    (below : block < f.vol.nblocks) :
    f.Adds (.data (15 + entry)) block
      ⟨(f.vol.grant block).put f.sv.inode.indirect
        (.ofWords (update idbuf.word entry block)), f.sv⟩ where
  vacant := by
    rw [SfsFile.blockAt, dataBlock_entry attached small, ← loaded]
    exact vacant
  free := free
  nonzero := nonzero
  below := below
  places other := by
    cases other with
    | self => rfl
    | indirect => rfl
    | data k =>
      simp only [SfsFile.blockAt, Slot.data.injEq]
      by_cases low : k < 15
      · rw [if_neg (by omega), SfsFile.dataBlock, SfsFile.dataBlock, dif_pos low, dif_pos low]
      · simp only [dataBlock_high _ (show 15 ≤ k by omega), indirectEntry, Volume.disk_put,
          update_self, word_ofWords, ← loaded]
        by_cases same : k = 15 + entry
        · rw [if_pos same, if_pos ⟨by omega, attached⟩, show k - 15 = entry by omega,
            update_self]
        · rw [if_neg same, update_of_ne (by omega)]
  volume := rfl
  cleared := by
    have apart : block ≠ f.sv.inode.indirect := by
      rintro rfl
      exact free (sound.used .indirect attached)
    rw [Volume.disk_put, update_of_ne apart]
    exact update_self ..
  kept other differ apart := by
    rcases apart with none | apart
    · exact absurd none attached
    · rw [Volume.disk_put, update_of_ne apart]
      exact update_of_ne differ ..
  vnode := .refl _
  size := rfl

end

/-- The file has gained blocks and reads as before. -/
structure SfsFile.Grows (f f' : SfsFile) : Prop extends SfsFile.Evolves f f' where
  content : f'.content = f.content
  size : f'.sv.inode.size = f.sv.inode.size
  places : ∀ slot, f.blockAt slot ≠ 0 → f'.blockAt slot = f.blockAt slot

theorem SfsFile.Grows.refl (sound : f.Sound) : f.Grows f :=
  ⟨.refl sound, rfl, rfl, fun _ _ => rfl⟩

theorem SfsFile.Grows.trans {h : SfsFile} (first : f.Grows g) (second : g.Grows h) : f.Grows h where
  toEvolves := first.toEvolves.trans second.toEvolves
  content := second.content.trans first.content
  size := second.size.trans first.size
  places slot taken := by
    have early := first.places slot taken
    rw [second.places slot (early ▸ taken), early]

variable {block : Word32}

theorem SfsFile.Adds.grows (adds : f.Adds slot block f') (sound : f.Sound) : f.Grows f' :=
  ⟨adds.evolves sound, adds.content sound, adds.size, fun _ => adds.blockAt_of_ne⟩

/-- Why `sfs_bmap` finds no block, and what stays. An indirect block that has been attached stays. -/
inductive Unmapped (f : SfsFile) (index : Nat) : Errno → SfsFile → Prop where
  | big (beyond : 143 ≤ index) : Unmapped f index eFbig f
  | full (small : index < 143) (full : f.vol.vacant = ∅) : Unmapped f index File.eNoSpc f
  | stranded {block : Word32} {f' : SfsFile} (high : 15 ≤ index) (small : index < 143)
      (adds : f.Adds .indirect block f') (full : f'.vol.vacant = ∅) : Unmapped f index File.eNoSpc f'

/-- How `sfs_bmap` ends when it may allocate: with the block of the file, or with an error. -/
structure BmapEnd (f : SfsFile) (index : Nat) (result : Except Errno Word32) (f' : SfsFile) : Prop where
  grows : f.Grows f'
  found : ∀ block, result = .ok block → block = f'.dataBlock index ∧ block ≠ 0
  failed : ∀ code, result = .error code →
    f.dataBlock index = 0 ∧ Unmapped f index code f'

theorem BmapEnd.before (done : BmapEnd g index res f') (adds : f.Adds .indirect block g)
    (sound : f.Sound) (high : 15 ≤ index) (small : index < 143) :
    BmapEnd f index res f' where
  grows := (adds.grows sound).trans done.grows
  found := done.found
  failed code same := by
    obtain ⟨hole, unmapped⟩ := done.failed code same
    refine ⟨?_, ?_⟩
    · by_contra taken
      exact taken (((adds.grows sound).places (.data index) taken).symm.trans hole)
    · cases unmapped with
      | big beyond => omega
      | full _ full => exact .stranded high small adds full
      | stranded _ _ again _ => exact absurd (adds.blockAt_self.symm.trans again.vacant) adds.nonzero

theorem BmapEnd.full (sound : f.Sound) (hole : f.dataBlock index = 0) (small : index < 143)
    (full : f.vol.vacant = ∅) : BmapEnd f index (.error File.eNoSpc) f :=
  ⟨.refl sound, nofun, fun _ same => ⟨hole, Except.error.inj same ▸ .full small full⟩⟩

theorem bmapResult_used {block : Word32} (used : block ≠ 0 → sfsBused f.vol block = .ok true) (fileblock : Nat) :
    bmapResult f block fileblock = .ok (.ok block, f) := by
  unfold bmapResult
  split
  · rename_i hole
    rw [hole]
  · rename_i taken
    rw [used taken, ok_bind, if_pos rfl, pure_ok]

theorem bmapResult_eq (sound : f.Sound) (slot : Slot) (fileblock : Nat) :
    bmapResult f (f.blockAt slot) fileblock = .ok (.ok (f.blockAt slot), f) := by
  refine bmapResult_used (fun taken => ?_) fileblock
  have marked : f.vol.freemap.bits (f.blockAt slot).toNat = true := sound.used slot taken
  rw [sound.volume.bused (sound.below slot taken), marked]

theorem BmapEnd.added (adds : f.Adds (.data index) block f') (sound : f.Sound) :
    BmapEnd f index (.ok block) f' :=
  ⟨adds.grows sound, fun other same => by
    cases same
    exact ⟨adds.blockAt_self.symm, adds.nonzero⟩, nofun⟩

theorem bmapDirect_alloc (sound : f.Sound) (index : Fin 15) :
    ∃ res f', bmapDirect f index true = .ok (res, f') ∧ BmapEnd f index res f' := by
  have mapped := dataBlock_direct f index
  by_cases vacant : f.sv.inode.direct index = 0
  · simp only [bmapDirect, vacant]
    rcases sound.volume.balloc with ⟨refused, full⟩ | ⟨block, granted, nonzero, free, below⟩
    · rw [refused]
      exact ⟨_, _, rfl, .full sound (mapped.trans vacant) (by omega) full⟩
    · have adds := sound.addsDirect vacant free nonzero below
      have handed := bmapResult_eq (adds.sound sound) (.data index) index
      rw [adds.blockAt_self] at handed
      simp only [granted, ok_bind, handed]
      exact ⟨_, _, rfl, .added adds sound⟩
  · have handed := bmapResult_eq sound (.data index) index
    rw [SfsFile.blockAt, mapped] at handed
    simp only [bmapDirect, vacant, handed]
    refine ⟨_, _, rfl, .refl sound, ?_, nofun⟩
    intro block same
    cases same
    exact ⟨mapped.symm, vacant⟩

theorem bmapEntry_alloc (sound : f.Sound) (used : f.sv.inode.indirect ≠ 0) (small : entry < 128)
    {idbuf : Block} (loaded : idbuf.word = (f.vol.disk f.sv.inode.indirect).word) :
    ∃ res f', bmapEntry f idbuf entry true = .ok (res, f') ∧
      BmapEnd f (15 + entry) res f' := by
  have mapped : f.dataBlock (15 + entry) = idbuf.word entry := by
    rw [dataBlock_entry used small, loaded]
  by_cases vacant : idbuf.word entry = 0
  · simp only [bmapEntry, vacant]
    rcases sound.volume.balloc with ⟨refused, full⟩ | ⟨block, granted, nonzero, free, below⟩
    · rw [refused]
      exact ⟨_, _, rfl, .full sound (mapped.trans vacant) (by omega) full⟩
    · have adds := sound.addsEntry used small loaded vacant free nonzero below
      have handed := bmapResult_eq (adds.sound sound) (.data (15 + entry)) entry
      rw [adds.blockAt_self] at handed
      have written := (sound.volume.grant block).wblock (sound.indirect_below used)
        (.ofWords (update idbuf.word entry block))
      simp only [granted, ok_bind, written, handed]
      exact ⟨_, _, rfl, .added adds sound⟩
  · have handed := bmapResult_eq sound (.data (15 + entry)) entry
    rw [SfsFile.blockAt, mapped] at handed
    simp only [bmapEntry, vacant, handed]
    refine ⟨_, _, rfl, .refl sound, ?_, nofun⟩
    intro block same
    cases same
    exact ⟨mapped.symm, vacant⟩

theorem sfsBmap_alloc (sound : f.Sound) (fileblock : Word32) :
    ∃ res f', sfsBmap f fileblock true = .ok (res, f') ∧
      BmapEnd f fileblock.toNat res f' := by
  unfold sfsBmap
  by_cases direct : fileblock.toNat < 15
  · rw [dif_pos direct]
    exact bmapDirect_alloc sound ⟨fileblock.toNat, direct⟩
  rw [dif_neg direct, bmapIndirect]
  by_cases big : (fileblock.toNat - 15) / 128 > 0
  · rw [if_pos big]
    refine ⟨_, _, rfl, .refl sound, nofun, ?_⟩
    intro code same
    exact ⟨dataBlock_beyond f (by omega), Except.error.inj same ▸ .big (by omega)⟩
  have small : fileblock.toNat - 15 < 128 := by omega
  have index : 15 + (fileblock.toNat - 15) = fileblock.toNat := by omega
  rw [if_neg big, if_neg (by simp), Nat.mod_eq_of_lt small]
  by_cases bare : f.sv.inode.indirect = 0
  · rw [if_pos bare]
    rcases sound.volume.balloc with ⟨refused, full⟩ | ⟨idblock, granted, nonzero, free, below⟩
    · rw [refused]
      exact ⟨_, _, rfl, .full sound (dataBlock_bare bare (by omega)) (by omega) full⟩
    · have adds := SfsFile.addsIndirect bare free nonzero below
      obtain ⟨res, f', mapped, done⟩ := bmapEntry_alloc (adds.sound sound)
        (show (f.sv.setIndirect idblock).inode.indirect ≠ 0 from nonzero) small
        (congrArg Block.word adds.cleared.symm)
      rw [index] at done
      simp only [granted, ok_bind, mapped]
      exact ⟨_, _, rfl, done.before adds sound (by omega) (by omega)⟩
  · obtain ⟨res, f', mapped, done⟩ := bmapEntry_alloc sound bare small rfl
    rw [index] at done
    rw [if_neg bare, sound.volume.rblock (sound.indirect_below bare)]
    simp only [ok_bind, mapped]
    exact ⟨_, _, rfl, done⟩

theorem sfsBmap_reads {fileblock : Word32} (used : f.sv.inode.indirect ≠ 0 →
      sfsRblock f.vol f.sv.inode.indirect = .ok (f.vol.disk f.sv.inode.indirect))
    (handed : ∀ place, bmapResult f (f.dataBlock fileblock.toNat) place =
      .ok (.ok (f.dataBlock fileblock.toNat), f)) :
    sfsBmap f fileblock false =
      .ok (if fileblock.toNat < 143 then .ok (f.dataBlock fileblock.toNat) else .error eFbig, f) := by
  unfold sfsBmap
  by_cases direct : fileblock.toNat < 15
  · have mapped := dataBlock_direct f ⟨fileblock.toNat, direct⟩
    rw [dif_pos direct, if_pos (by omega), bmapDirect, ← mapped, if_neg (by simp), handed]
  rw [dif_neg direct, bmapIndirect]
  by_cases big : (fileblock.toNat - 15) / 128 > 0
  · rw [if_pos big, if_neg (by omega), pure_ok]
  have small : fileblock.toNat - 15 < 128 := by omega
  rw [if_neg big, if_pos (show fileblock.toNat < 143 by omega), Nat.mod_eq_of_lt small]
  by_cases bare : f.sv.inode.indirect = 0
  · rw [if_pos ⟨bare, rfl⟩, dataBlock_bare bare (by omega), pure_ok]
  · have mapped := dataBlock_entry bare small
    rw [show 15 + (fileblock.toNat - 15) = fileblock.toNat by omega] at mapped
    rw [if_neg (fun both => bare both.1), if_neg bare, used bare, ok_bind, bmapEntry, ← mapped,
      if_neg (by simp), handed]

theorem sfsBmap_lookup (sound : f.Sound) (fileblock : Word32) :
    sfsBmap f fileblock false =
      .ok (if fileblock.toNat < 143 then .ok (f.dataBlock fileblock.toNat) else .error eFbig, f) :=
  sfsBmap_reads (fun used => sound.volume.rblock (sound.indirect_below used))
    (bmapResult_eq sound (.data fileblock.toNat))

end Os161.Sfs
