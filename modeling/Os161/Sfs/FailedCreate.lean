import Os161.Sfs.Integrity

namespace Os161.Sfs
open Word Outcome SlotMap List SfsFs

/-- The entries of the directory, the link counts of the inodes in use and the marks in the free map are
as they were. -/
structure SfsFs.Unchanged (s s' : SfsFs) : Prop where
  listing : s'.listing = s.listing
  alive : ∀ v, s'.Alive v ↔ s.Alive v
  linkcounts : ∀ v, s.Alive v → (s'.vnodeAt v).inode.linkcount = (s.vnodeAt v).inode.linkcount
  used : ∀ block, s'.vol.Used block ↔ s.vol.Used block

/-- A new file finds a block for its inode and no memory for its vnode. -/
structure SfsFs.LosesInode (s : SfsFs) (name : Name) (memory : Memory) : Prop where
  absent : s.names name = none
  vacant : s.vol.vacant.Nonempty
  exhausted : ¬ (memory.vnode = true ∧ memory.table = true)

/-- A directory of fifteen full blocks needs an indirect block and a data block for a new entry, and the
new file leaves one block of the last two for them. -/
structure SfsFs.StrandsBlock (s : SfsFs) (name : Name) (memory : Memory) : Prop where
  absent : s.names name = none
  short : name.1.length ≤ 59
  plenty : memory.vnode = true ∧ memory.table = true
  crowded : none ∉ s.listing
  size : (s.vnodeAt rootLocation).inode.size.toNat = 15 * 512
  bare : (s.vnodeAt rootLocation).inode.indirect = 0
  vacant : ∃ first second, first ≠ second ∧ s.vol.vacant = {first, second}

section

variable {s s' s₁ s₂ : SfsFs} {live : Set Word32} {table : Table Name Word32} {ino : Word32} {name : Name}
  {memory : Memory}

section

variable (inv : s.Inv live table (links table))
include inv

theorem SfsFs.Inv.unchanged (inv' : s'.Inv live table (links table))
    (used : ∀ block, s'.vol.Used block ↔ s.vol.Used block) : s.Unchanged s' := by
  obtain rfl : s.listing = table := inv.listing
  have same : s'.listing = s.listing := inv'.listing
  have alive (v : Word32) : v ∈ live ↔ s.Alive v := inv.mem_live v
  refine ⟨same, ?_, ?_, used⟩
  · intro v
    rw [← alive, ← (same.symm ▸ inv' : s'.Inv live s'.listing (links s'.listing)).mem_live]
  · intro v mem
    rw [← alive] at mem
    exact BitVec.eq_of_toNat_eq ((inv'.counts v mem).trans (inv.counts v mem).symm)

theorem SfsFs.Inv.refused_used (fresh : ino ∉ live) (inv₁ : s₁.Inv (insert ino live) table (links table))
    (made : s.Alters live ino s₁ (insert ino live)) (inv₂ : s₂.Inv (insert ino live) table (links table))
    (tried : s₁.Alters (insert ino live) rootLocation s₂ (insert ino live))
    (released : s₂.Alters (insert ino live) ino s' live) (block : Word32) :
    s'.vol.Used block ↔ s.vol.Used block ∧ block ∉ (s.fileAt rootLocation).territory ∨
      block ∈ (s₂.fileAt rootLocation).territory := by
  have apart : ino ≠ rootLocation := fun same => fresh (same ▸ inv.root)
  have mem : ino ∈ insert ino live := Set.mem_insert ino live
  have granted := made.change.marks block
  have new := made.change.fresh block
  have changed := tried.change.marks block
  have freed := released.change.marks block
  rw [share_of_mem mem] at granted new
  rw [share_of_mem inv₁.root, share_of_mem inv₂.root,
    made.territory inv.owned inv.root (Ne.symm apart)] at changed
  rw [share_of_mem mem, tried.territory inv₁.owned mem apart] at freed
  have prev : block ∉ s.share live ino := fun inside => fresh inside.1
  have after : block ∉ s'.share live ino := fun inside => fresh inside.1
  have out : block ∈ (s₂.fileAt rootLocation).territory → block ∉ (s₁.fileAt ino).territory := by
    intro inside also
    rw [← tried.territory inv₁.owned mem apart] at also
    exact apart (inv₂.owned.apart ino mem rootLocation inv₂.root block also inside)
  rw [and_iff_left prev] at granted
  rw [or_iff_right prev] at new
  rw [or_iff_left after, changed, granted] at freed
  rw [freed]
  constructor
  · rintro ⟨⟨used | inside, other⟩ | inside, clear⟩
    · exact .inl ⟨used, other⟩
    · exact absurd inside clear
    · exact .inr inside
  · rintro (⟨used, other⟩ | inside)
    · exact ⟨.inl ⟨.inl used, other⟩, fun there => new there used⟩
    · exact ⟨.inr inside, out inside⟩

theorem SfsFs.Inv.refused_unchanged (fresh : ino ∉ live) (inv₁ : s₁.Inv (insert ino live) table (links table))
    (made : s.Alters live ino s₁ (insert ino live)) (inv₂ : s₂.Inv (insert ino live) table (links table))
    (tried : s₁.Alters (insert ino live) rootLocation s₂ (insert ino live))
    (inv' : s'.Inv live table (links table)) (freed : s₂.Alters (insert ino live) ino s' live)
    (same : s₂.fileAt rootLocation = s₁.fileAt rootLocation) : s.Unchanged s' := by
  have apart : rootLocation ≠ ino := fun same => fresh (same ▸ inv.root)
  refine inv.unchanged inv' fun block => ?_
  rw [inv.refused_used fresh inv₁ made inv₂ tried freed block, same,
    made.territory inv.owned inv.root apart]
  constructor
  · rintro (⟨used, _⟩ | inside)
    · exact used
    · exact (inv.owned.sound rootLocation inv.root).territory block inside
  · intro used
    by_cases inside : block ∈ (s.fileAt rootLocation).territory
    · exact .inr inside
    · exact .inl ⟨used, inside⟩

end

theorem SfsFile.DirFile.size_of_bare {f : SfsFile} (dir : f.DirFile) (bare : f.sv.inode.indirect = 0)
    (high : 15 ≤ f.sv.inode.size.toNat / 512) : f.sv.inode.size.toNat = 15 * 512 := by
  by_contra larger
  exact dir.mapped 15 (by omega) (dataBlock_bare bare (by omega))

/-- The indirect block that the directory has got stays with it. -/
theorem SfsFs.Inv.stranded (inv : s.Inv live table (links table)) (fresh : ino ∉ live)
    (vol : s₁.vol = s.vol.grant ino) (inv₁ : s₁.Inv (insert ino live) table (links table))
    (made : s.Alters live ino s₁ (insert ino live)) (inv₂ : s₂.Inv (insert ino live) table (links table))
    (tried : s₁.Alters (insert ino live) rootLocation s₂ (insert ino live))
    (freed : s₂.Alters (insert ino live) ino s' live)
    (adds : (s₁.fileAt rootLocation).Adds .indirect block (s₂.fileAt rootLocation)) :
    ¬ s.Unchanged s' ∧ block ∈ s.vol.vacant ∧ ino ≠ block ∧
      s₂.vol.vacant = s.vol.vacant \ {ino, block} := by
  have clear : ¬ s₁.vol.Used block := adds.free
  have below : block < s₁.vol.nblocks := adds.below
  have vacant : s₁.vol.vacant = s.vol.vacant \ {ino} := Volume.vacant_grant vol
  have mem : block ∈ s.vol.vacant \ {ino} := vacant ▸ ⟨below, clear⟩
  have later : s₂.vol.vacant = s₁.vol.vacant \ {block} := by
    ext other
    have used : s₂.vol.Used other ↔ other = block ∨ s₁.vol.Used other := adds.used other
    simp only [Volume.vacant, Set.mem_ofPred_eq, tried.follows.nblocks, Set.mem_sdiff]
    tauto
  refine ⟨?_, mem.1, Ne.symm mem.2, ?_⟩
  swap
  · rw [later, vacant, sdiff_sdiff_left]
    rfl
  intro unchanged
  have used := (inv.refused_used fresh inv₁ made inv₂ tried freed block).mpr
    (.inr ((adds.territory block).mpr (.inl rfl)))
  exact mem.1.2 ((unchanged.used block).mp used)

/-- Two blocks are needed for an entry behind fifteen blocks. -/
theorem SfsFs.Inv.bound_takes_two (inv₁ : s₁.Inv (insert ino live) table (links table))
    (near : slot ≤ table.length) (vacant : ∀ binding, table[slot]? ≠ some (some binding))
    (crowded : none ∉ table) (size : (s₁.vnodeAt rootLocation).inode.size.toNat = 15 * 512)
    (bare : (s₁.vnodeAt rootLocation).inode.indirect = 0)
    (inv₂ : s₂.Inv (insert ino live) (place table slot (some (name, ino))) (links table))
    (bound : s₁.Alters (insert ino live) rootLocation s₂ (insert ino live))
    (places : ∀ slot, (s₁.fileAt rootLocation).blockAt slot ≠ 0 →
      (s₂.fileAt rootLocation).blockAt slot = (s₁.fileAt rootLocation).blockAt slot) :
    ∃ first ∈ s₁.vol.vacant, ∃ second ∈ s₁.vol.vacant, first ≠ second := by
  have len : table.length = 120 := by
    rw [← inv₁.listing, SfsFile.listing_length]
    change (s₁.vnodeAt rootLocation).inode.size.toNat / 64 = 120
    omega
  have last : slot = table.length := by
    by_contra inside
    have here : slot < table.length := by omega
    cases entry : table[slot] with
    | none => exact crowded (entry ▸ getElem_mem here)
    | some binding => exact vacant binding (by rw [List.getElem?_eq_getElem here, entry])
  have longer : (s₂.vnodeAt rootLocation).inode.size.toNat / 64 = 121 := by
    have listed := congrArg List.length inv₂.listing
    rw [SfsFile.listing_length, last, place_length _ (Nat.le_refl _), len] at listed
    exact listed
  have sound := inv₂.dir.sound
  have mapped : (s₂.fileAt rootLocation).dataBlock 15 ≠ 0 := by
    refine inv₂.dir.mapped 15 ?_
    change 512 * 15 < (s₂.vnodeAt rootLocation).inode.size.toNat
    omega
  have used : (s₂.fileAt rootLocation).sv.inode.indirect ≠ 0 := fun none =>
    mapped (dataBlock_bare none (by omega))
  -- A block at a place that was vacant is one that was free.
  have new (place : Slot) (hole : (s₁.fileAt rootLocation).blockAt place = 0)
      (taken : (s₂.fileAt rootLocation).blockAt place ≠ 0) :
      (s₂.fileAt rootLocation).blockAt place ∈ s₁.vol.vacant := by
    have inside : (s₂.fileAt rootLocation).blockAt place ∈ s₂.share (insert ino live) rootLocation :=
      ⟨inv₂.root, taken, place, rfl⟩
    refine ⟨bound.follows.nblocks ▸ sound.below place taken, ?_⟩
    rcases bound.change.fresh _ inside with ⟨_, _, other, same⟩ | clear
    · have kept := places other (same ▸ taken)
      obtain rfl := sound.once (kept.trans same) (kept.trans same ▸ taken)
      exact absurd (same.symm.trans hole) taken
    · exact clear
  refine ⟨_, new .indirect bare used, _, new (.data 15) (dataBlock_bare bare (by omega)) mapped, ?_⟩
  intro same
  exact absurd (sound.once same used) nofun

theorem SfsFs.StrandsBlock.lacks_two (strands : s.StrandsBlock name memory) (free : ino ∈ s.vol.vacant)
    (one : first ∈ s.vol.vacant \ {ino}) (two : second ∈ s.vol.vacant \ {ino}) : first = second := by
  obtain ⟨left, right, _, vacant⟩ := strands.vacant
  grind

theorem SfsFs.StrandsBlock.leaves_one (strands : s.StrandsBlock name memory) (ino : Word32) :
    (s.vol.vacant \ {ino}).Nonempty := by
  obtain ⟨first, second, apart, vacant⟩ := strands.vacant
  rw [vacant]
  by_cases same : first = ino
  · exact ⟨second, .inr rfl, fun other => apart (same.trans other.symm)⟩
  · exact ⟨first, .inl rfl, same⟩

section

variable (inv : s.Inv live s.listing (links s.listing))
include inv

theorem CreatNewEnd.unchanged_iff (gone : s.names name = none)
    (ended : CreatNewEnd s live s.listing name memory (.error res) s') :
    s.Unchanged s' ↔ ¬ (s.LosesInode name memory ∨ s.StrandsBlock name memory) := by
  cases ended with
  | full full =>
    refine iff_of_true (inv.unchanged inv fun _ => .rfl) ?_
    rintro (loses | strands)
    · exact loses.vacant.ne_empty full
    · exact ((strands.leaves_one 0).mono Set.sdiff_subset).ne_empty full
  | @lost _ ino exhausted free vol _ _ _ =>
    refine iff_of_false ?_ (not_not.mpr (.inl ⟨gone, ⟨ino, free⟩, not_plenty exhausted⟩))
    intro unchanged
    refine free.2 ((unchanged.used ino).mp ?_)
    rw [vol]
    exact (s.vol.used_grant ino ino).mpr (.inl rfl)
  | @refused s₁ s₂ _ ino _ plenty fresh free vol inv₁ made _ left inv₂ tried inv' freed _ =>
    have unlost : ¬ s.LosesInode name memory := fun loses => loses.exhausted plenty
    have apart : rootLocation ≠ ino := fun same => fresh (same ▸ inv.root)
    have vnode := made.vnodeAt inv.owned inv.root apart
    have kept := inv.refused_unchanged fresh inv₁ made inv₂ tried inv' freed
    rw [or_iff_right unlost]
    cases left with
    | bound present => exact absurd gone present
    | long long =>
      refine iff_of_true (kept rfl) ?_
      intro strands
      exact absurd long (Nat.not_lt.mpr strands.short)
    | unmapped short crowded unmapped =>
      generalize after : s₂.fileAt rootLocation = f' at unmapped
      cases unmapped with
      | big beyond =>
        refine iff_of_true (kept after) ?_
        intro strands
        rw [vnode, strands.size] at beyond
        omega
      | full _ full =>
        refine iff_of_true (kept after) ?_
        intro strands
        have none : s₁.vol.vacant = ∅ := full
        rw [Volume.vacant_grant vol] at none
        exact (strands.leaves_one ino).ne_empty none
      | @stranded block _ high _ adds full =>
        subst after
        obtain ⟨changed, mem, differ, rest⟩ :=
          inv.stranded fresh vol inv₁ made inv₂ tried freed adds
        have none : s₂.vol.vacant = ∅ := full
        have bare : (s₁.fileAt rootLocation).sv.inode.indirect = 0 := adds.vacant
        have size := inv₁.dir.size_of_bare bare high
        refine iff_of_false changed (not_not.mpr ⟨gone, short, plenty, crowded, ?_, ?_, ino, block,
          differ, ?_⟩)
        · rw [← vnode]
          exact size
        · rw [← vnode]
          exact bare
        · rw [none] at rest
          refine Set.Subset.antisymm (Set.sdiff_eq_empty.mp rest.symm) ?_
          rintro _ (rfl | rfl)
          · exact free
          · exact mem

theorem CreatNewEnd.harmless (ended : CreatNewEnd s live s.listing name memory (.ok v) s') :
    ¬ (s.LosesInode name memory ∨ s.StrandsBlock name memory) := by
  cases ended with
  | done plenty fresh free vol inv₁ made short near vacant inv₂ bound places _ _ _ =>
    rintro (loses | strands)
    · exact loses.exhausted plenty
    · have apart : rootLocation ≠ v := fun same => fresh (same ▸ inv.root)
      have vnode := made.vnodeAt inv.owned inv.root apart
      obtain ⟨first, one, second, two, differ⟩ := SfsFs.Inv.bound_takes_two inv₁ near vacant
        strands.crowded (by rw [vnode, strands.size]) (by rw [vnode, strands.bare]) inv₂ bound places
      rw [Volume.vacant_grant vol] at one two
      exact differ (strands.lacks_two free one two)

theorem SfsFs.Inv.creat_unchanged_iff (ended : CreatEnd s live s.listing name excl memory outcome s') :
    ((∃ v, outcome = .ok v) ∨ s.Unchanged s') ↔ ¬ (s.LosesInode name memory ∨ s.StrandsBlock name memory) := by
  have bound (known : lookup s.listing name ≠ none) :
      ¬ (s.LosesInode name memory ∨ s.StrandsBlock name memory) := by
    rintro (loses | strands)
    · exact known loses.absent
    · exact known strands.absent
  cases ended with
  | exclusive known _ | unloaded known _ _ =>
    exact iff_of_true (.inr (inv.unchanged inv fun _ => .rfl)) (bound known)
  | @opened v _ known _ _ _ _ => exact iff_of_true (.inl ⟨v, rfl⟩) (bound (known.symm ▸ nofun))
  | fresh gone ended =>
    cases outcome with
    | error res => rw [← ended.unchanged_iff inv gone, or_iff_right (by rintro ⟨_, ⟨⟩⟩)]
    | ok v => exact iff_of_true (.inl ⟨v, rfl⟩) (ended.harmless inv)

end

end

/-- A failed create changes nothing exactly unless it loses an inode or a block. -/
theorem failed_create_unchanged_iff {s : SfsFs} (consistent : s.Consistent)
    (held : s.held rootLocation ≠ none) (name : Name) (excl : Bool) (memory : Memory) :
    (∀ result s', sfsCreat s rootLocation name excl memory = .ok (.error result, s') → s.Unchanged s') ↔
      ¬ (s.LosesInode name memory ∨ s.StrandsBlock name memory) := by
  obtain ⟨live, inv⟩ := consistent
  obtain ⟨outcome, last, done, ended⟩ := inv.creat held name excl memory
  rw [done, ← inv.creat_unchanged_iff ended]
  constructor
  · intro always
    cases outcome with
    | error result => exact .inr (always result last rfl)
    | ok v => exact .inl ⟨v, rfl⟩
  · rintro (⟨v, rfl⟩ | unchanged) result s' same
    · cases same
    · cases same
      exact unchanged

/-- The name in a slot of the crowded directory -/
def slotName (slot : Nat) : Name :=
  ⟨[BitVec.ofNat 8 (slot % 120 + 1)], by
    rw [List.mem_singleton, eq_comm, ← BitVec.toNat_inj, BitVec.toNat_ofNat]
    change ¬ (slot % 120 + 1) % 2 ^ 8 = 0
    omega⟩

def crowdedRoot : Inode := ⟨7680, typeDir, 1, fun index => BitVec.ofNat 32 (4 + index), 0⟩

def crowdedFile : Inode := ⟨0, typeFile, 120, fun _ => 0, 0⟩

/-- A volume of 21 blocks, of which the last two are free. One file has 120 names, and they fill the fifteen
blocks of the directory. -/
def crowdedFs : SfsFs where
  vol :=
    { blocks := 21
      nblocks := 21
      freemap := { nbits := 4096, bits := fun index => index < 19 ∨ 21 ≤ index }
      freemapdirty := false
      disk := fun block =>
        if block = 1 then crowdedRoot.encode
        else if block = 3 then crowdedFile.encode
        else fun place => (Dirent.named 3 (slotName (8 * (block.toNat - 4) + place / 64))).encode (place % 64) }
  vnodes := [.fresh 1 crowdedRoot false]

def crowdedTable : Table Name Word32 := (List.range 120).map fun slot => some (slotName slot, 3)

section

theorem crowdedFs_file : crowdedFs.fileAt 3 = ⟨crowdedFs.vol, ⟨3, crowdedFile, false, 0, 0⟩⟩ := by
  rw [SfsFs.fileAt, vnodeAt_of_none rfl]
  congr 2
  exact Inode.decode_encode crowdedFile

theorem crowdedFs_volume : crowdedFs.vol.Sound where
  device := by decide
  addressable := by decide
  mapped := by decide
  tail index beyond _ := decide_eq_true (.inr beyond)
  super := rfl

theorem crowdedFs_dataBlock (k : Nat) :
    (crowdedFs.fileAt 1).dataBlock k = if k < 15 then BitVec.ofNat 32 (4 + k) else 0 := by
  by_cases low : k < 15
  · rw [if_pos low, SfsFile.dataBlock, dif_pos low]
    rfl
  · rw [if_neg low, dataBlock_bare rfl (by omega)]

theorem crowdedFs_blockAt (taken : (crowdedFs.fileAt 1).blockAt slot ≠ 0) :
    slot = .self ∧ ((crowdedFs.fileAt 1).blockAt slot).toNat = 1 ∨
      ∃ k < 15, slot = .data k ∧ ((crowdedFs.fileAt 1).blockAt slot).toNat = 4 + k := by
  cases slot with
  | self => exact .inl ⟨rfl, rfl⟩
  | indirect => exact absurd rfl taken
  | data k =>
    rw [SfsFile.blockAt, crowdedFs_dataBlock] at taken ⊢
    by_cases low : k < 15
    · refine .inr ⟨k, low, rfl, ?_⟩
      rw [if_pos low, BitVec.toNat_ofNat]
      omega
    · exact absurd (if_neg low) taken

theorem crowdedFs_used {block : Word32} (small : block.toNat < 19) : crowdedFs.vol.Used block :=
  decide_eq_true (.inl small)

theorem crowdedFs_root_sound : (crowdedFs.fileAt 1).Sound where
  volume := crowdedFs_volume
  self := by decide
  below slot taken := by
    rw [BitVec.lt_def]
    change _ < 21
    rcases crowdedFs_blockAt taken with ⟨_, number⟩ | ⟨k, low, _, number⟩ <;> omega
  used slot taken := by
    refine crowdedFs_used ?_
    rcases crowdedFs_blockAt taken with ⟨_, number⟩ | ⟨k, low, _, number⟩ <;> omega
  once {first second} same taken := by
    rcases crowdedFs_blockAt taken with ⟨rfl, number⟩ | ⟨k, low, rfl, number⟩ <;>
      rcases crowdedFs_blockAt (same ▸ taken) with ⟨rfl, number'⟩ | ⟨k', low', rfl, number'⟩ <;>
      rw [same] at number
    · omega
    · omega
    · obtain rfl : k = k' := by omega
      rfl

theorem crowdedFs_bare : (crowdedFs.fileAt 3).Bare := by
  rw [crowdedFs_file]
  exact ⟨fun _ => rfl, rfl⟩

theorem crowdedFs_file_sound : (crowdedFs.fileAt 3).Sound := by
  refine crowdedFs_bare.sound crowdedFs_volume ?_ ?_ ?_ <;> rw [crowdedFs_file]
  · decide
  · decide
  · exact crowdedFs_used (by decide)

theorem crowdedFs_content (inside : pos < 7680) :
    (crowdedFs.fileAt 1).content pos =
      (Dirent.named 3 (slotName (pos / 64))).encode (pos % 64) := by
  have block : (BitVec.ofNat 32 (4 + pos / 512)).toNat = 4 + pos / 512 := by
    rw [BitVec.toNat_ofNat]
    omega
  have apart (number : Word32) (low : number.toNat < 4) : BitVec.ofNat 32 (4 + pos / 512) ≠ number := by
    rintro rfl
    omega
  have data : crowdedFs.vol.disk (BitVec.ofNat 32 (4 + pos / 512)) = fun place =>
      (Dirent.named 3 (slotName (8 * (pos / 512) + place / 64))).encode (place % 64) := by
    change (if _ then _ else if _ then _ else _) = _
    rw [if_neg (apart 1 (by decide)), if_neg (apart 3 (by decide)), block, Nat.add_sub_cancel_left]
  have low : pos / 512 < 15 := by omega
  simp only [SfsFile.content, crowdedFs_dataBlock, if_pos low, if_neg (apart 0 (by decide))]
  change crowdedFs.vol.disk _ _ = _
  rw [data]
  change Dirent.encode _ (pos % 512 % 64) = _
  rw [show 8 * (pos / 512) + pos % 512 / 64 = pos / 64 by omega,
    show pos % 512 % 64 = pos % 64 by omega]

theorem crowdedFs_listing : (crowdedFs.fileAt 1).listing = crowdedTable := by
  refine map_congr_left fun slot mem => ?_
  have inside : slot < 120 := mem_range.mp mem
  have entry : (crowdedFs.fileAt 1).dirent slot = Dirent.decode (Dirent.named 3 (slotName slot)).encode := by
    refine Dirent.decode_congr fun i small => ?_
    rw [crowdedFs_content (by omega)]
    rw [show (64 * slot + i) / 64 = slot by omega, show (64 * slot + i) % 64 = i by omega]
  rw [entry, Dirent.entry_decode]
  exact Dirent.entry_named (by decide) (show 1 ≤ 59 by decide)

theorem crowdedTable_getElem? (bound : crowdedTable[slot]? = some (some (name, v))) :
    slot < 120 ∧ name = slotName slot ∧ v = 3 := by
  rw [crowdedTable, List.getElem?_map, Option.map_eq_some_iff] at bound
  obtain ⟨_, found, entry⟩ := bound
  obtain ⟨inside, rfl⟩ := List.getElem?_eq_some_iff.mp found
  rw [getElem_range] at entry
  cases entry
  exact ⟨by simpa using inside, rfl, rfl⟩

theorem crowdedTable_refs (v : Word32) : refs crowdedTable v = if v = 3 then 120 else 0 := by
  rw [refs, crowdedTable, countP_map]
  split
  · rename_i same
    subst same
    exact (countP_eq_length.mpr fun _ _ => by simp).trans length_range
  · rename_i apart
    exact countP_eq_zero.mpr fun _ _ => by simpa using Ne.symm apart

theorem crowdedTable_unique : Unique crowdedTable := by
  intro i j name v w first second
  obtain ⟨low, rfl, _⟩ := crowdedTable_getElem? first
  obtain ⟨low', same, _⟩ := crowdedTable_getElem? second
  have bytes := congrArg (fun other : Name => (other.1.getD 0 0).toNat) same
  simp only [slotName, getD_cons_zero, BitVec.toNat_ofNat] at bytes
  omega

theorem crowdedFs_owned : crowdedFs.Owned {1, 3} where
  volume := crowdedFs_volume
  nodup := nodup_singleton _
  loaded v sv found := by
    have here : sv = .fresh 1 crowdedRoot false := mem_singleton.mp (mem_of_find?_eq_some found)
    exact .inl ((find_ino found).symm.trans (by rw [here]; rfl))
  held v sv found := by
    have here : sv = .fresh 1 crowdedRoot false := mem_singleton.mp (mem_of_find?_eq_some found)
    rw [here]
    decide
  saved v sv found clean := by
    have here : sv = .fresh 1 crowdedRoot false := mem_singleton.mp (mem_of_find?_eq_some found)
    have number := find_ino found
    rw [here] at number ⊢
    obtain rfl : 1 = v := number
    exact Inode.decode_encode crowdedRoot
  sound := by
    rintro v (rfl | rfl)
    · exact crowdedFs_root_sound
    · exact crowdedFs_file_sound
  apart := by
    have territory := crowdedFs_bare.territory (by rw [crowdedFs_file]; decide)
    have clash {block : Word32} (one : block ∈ (crowdedFs.fileAt 1).territory)
        (other : block ∈ (crowdedFs.fileAt 3).territory) : False := by
      rw [territory] at other
      obtain ⟨present, slot, rfl⟩ := one
      have three : ((crowdedFs.fileAt 1).blockAt slot).toNat = 3 := congrArg BitVec.toNat other
      rcases crowdedFs_blockAt present with ⟨_, number⟩ | ⟨k, low, _, number⟩ <;> omega
    rintro v (rfl | rfl) w (rfl | rfl) block left right
    · rfl
    · exact (clash left right).elim
    · exact (clash right left).elim
    · rfl

theorem crowdedFs_inv : crowdedFs.Inv {1, 3} crowdedTable (links crowdedTable) where
  owned := crowdedFs_owned
  root := .inl rfl
  dir := by
    refine ⟨crowdedFs_root_sound, rfl, rfl, by decide, ?_⟩
    intro k prev
    have low : k < 15 := by
      change 512 * k < 7680 at prev
      omega
    rw [crowdedFs_dataBlock, if_pos low]
    intro zero
    have number := congrArg BitVec.toNat zero
    change (4 + k) % 2 ^ 32 = 0 at number
    omega
  listing := crowdedFs_listing
  unique := crowdedTable_unique
  named name v bound := by
    obtain ⟨slot, here⟩ := mem_iff_getElem?.mp bound
    exact .inr (crowdedTable_getElem? here).2.2
  types := by
    rintro v (rfl | rfl) apart
    · exact absurd rfl apart
    · change (crowdedFs.fileAt 3).sv.inode.type = _
      rfl
  counts := by
    rintro v (rfl | rfl)
    · rfl
    · change (crowdedFs.fileAt 3).sv.inode.linkcount.toNat = _
      rw [links, crowdedTable_refs]
      rfl
  settled := by
    rintro v (rfl | rfl)
    · exact .inl rfl
    · exact .inr (.inr ⟨slotName 0, mem_iff_getElem?.mpr ⟨0, rfl⟩⟩)

abbrev nameAB : Name := ⟨[97, 98], by decide⟩

theorem crowdedFs_absent {name : Name} (long : name.1.length ≠ 1) : crowdedFs.names name = none := by
  rw [SfsFs.names, SfsFs.listing, lookup_eq_none]
  intro v bound
  obtain ⟨slot, here⟩ := mem_iff_getElem?.mp bound
  exact long (congrArg (fun name : Name => name.1.length) (crowdedTable_getElem? here).2.1)

theorem crowdedFs_strands : crowdedFs.StrandsBlock nameAB ⟨true, true⟩ where
  absent := crowdedFs_absent (by decide)
  short := by decide
  plenty := ⟨rfl, rfl⟩
  crowded := by
    rw [SfsFs.listing, crowdedFs_listing, crowdedTable]
    simp
  size := rfl
  bare := rfl
  vacant := by
    refine ⟨19, 20, by decide, ?_⟩
    ext block
    have used : crowdedFs.vol.Used block ↔ block.toNat < 19 ∨ 21 ≤ block.toNat := decide_eq_true_iff
    have below : block < crowdedFs.vol.nblocks ↔ block.toNat < 21 := BitVec.lt_def
    rw [Volume.vacant, Set.mem_ofPred_eq, used, below, Set.mem_insert_iff, Set.mem_singleton_iff,
      ← BitVec.toNat_inj, ← BitVec.toNat_inj]
    change _ ↔ block.toNat = 19 ∨ block.toNat = 20
    omega

theorem crowdedFs_inv_listing : crowdedFs.Inv {1, 3} crowdedFs.listing (links crowdedFs.listing) := by
  exact crowdedFs_inv

end

/-- No file is created, and a block of the volume is gone. -/
theorem failed_create_takes_block : crowdedFs.Consistent ∧ ∃ result s',
    sfsCreat crowdedFs rootLocation nameAB true ⟨true, true⟩ = .ok (.error result, s') ∧
    ¬ crowdedFs.Unchanged s' := by
  have inv := crowdedFs_inv_listing
  obtain ⟨outcome, s', done, ended⟩ := inv.creat nofun nameAB true ⟨true, true⟩
  have harm := (not_congr (inv.creat_unchanged_iff ended)).mpr (not_not.mpr (.inr crowdedFs_strands))
  obtain ⟨refused, changed⟩ := not_or.mp harm
  refine ⟨⟨_, inv⟩, ?_⟩
  cases outcome with
  | error result => exact ⟨result, s', done, changed⟩
  | ok v => exact absurd ⟨v, rfl⟩ refused

def longName : Name := ⟨List.replicate 60 97, by decide⟩

/-- A long name is refused after a block was taken and given back. -/
theorem failed_create_unchanged_long : crowdedFs.Consistent ∧ ∃ result s',
    sfsCreat crowdedFs rootLocation longName true ⟨true, true⟩ = .ok (.error result, s') ∧
      crowdedFs.Unchanged s' := by
  have inv := crowdedFs_inv_listing
  have absent : crowdedFs.names longName = none := crowdedFs_absent (by decide)
  have harmless : ¬ (crowdedFs.LosesInode longName ⟨true, true⟩ ∨
      crowdedFs.StrandsBlock longName ⟨true, true⟩) := by
    rintro (loses | strands)
    · exact loses.exhausted ⟨rfl, rfl⟩
    · exact absurd strands.short (by decide)
  have unchanged := (failed_create_unchanged_iff ⟨_, inv⟩ nofun longName true ⟨true, true⟩).mpr harmless
  obtain ⟨outcome, s', done, ended⟩ := inv.creat nofun longName true ⟨true, true⟩
  refine ⟨⟨_, inv⟩, ?_⟩
  cases outcome with
  | error result => exact ⟨result, s', done, unchanged result s' done⟩
  | ok v =>
    cases ended with
    | opened known => exact absurd (known.symm.trans absent) nofun
    | fresh gone ended =>
      cases ended with
      | done _ _ _ _ _ _ short => exact absurd short (by decide)

end Os161.Sfs
