import Os161.Sfs.Mksfs

namespace Os161.Sfs
open Word Outcome SlotMap Transition

/-- The inodes that are in use: the root, what is in memory, and what has a name -/
def SfsFs.Alive (s : SfsFs) (v : Word32) : Prop :=
  v = rootLocation ∨ s.held v ≠ none ∨ ∃ name, some (name, v) ∈ s.listing

/-- Every block that is reached from an inode in use is on the volume, marked in the free map and reached
in one way. -/
structure SfsFs.BlocksOwned (s : SfsFs) : Prop where
  below : ∀ v, s.Alive v → ∀ slot, (s.fileAt v).blockAt slot ≠ 0 →
    (s.fileAt v).blockAt slot < s.vol.nblocks
  marked : ∀ v, s.Alive v → ∀ slot, (s.fileAt v).blockAt slot ≠ 0 → s.vol.Used ((s.fileAt v).blockAt slot)
  once : ∀ v w, s.Alive v → s.Alive w → ∀ slot slot', (s.fileAt v).blockAt slot ≠ 0 →
    (s.fileAt v).blockAt slot = (s.fileAt w).blockAt slot' → v = w ∧ slot = slot'

/-- The volume is consistent, and these blocks are marked and belong to no inode. -/
def SfsFs.Accounts (s : SfsFs) (stray : Set Word32) : Prop :=
  ∃ live, s.Inv live s.listing (links s.listing) ∧ s.stray live = stray

/-- One call that is allowed, with its answer -/
def SfsFs.Answers (s : SfsFs) (call : Request × Reply) (s' : SfsFs) : Prop :=
  s.Allows call.1 ∧ s.perform call.1 = .ok (call.2, s')

/-- The references and open counts that calls with these answers have handed out and not got back -/
def references (calls : List (Request × Reply)) : Word32 → Nat × Nat :=
  calls.foldl (fun counts call => call.1.tally counts call.2) fun _ => (0, 0)

section

variable {s s' : SfsFs} {live : Set Word32} {requests : List Request}

theorem SfsFs.Consistent.answers {call : Request × Reply} (consistent : s.Consistent) (step : s.Answers call s') :
    s'.Consistent ∧ s'.tally = call.1.tally s.tally call.2 := by
  obtain ⟨live, inv⟩ := consistent
  obtain ⟨request, reply⟩ := call
  obtain ⟨allowed, ran⟩ := step
  have ended := inv.perform allowed
  rw [ran] at ended
  cases ended with
  | returned did =>
    obtain ⟨_, _, inv', _, _, _, tally⟩ := did
    exact ⟨inv'.consistent, tally⟩

theorem SfsFs.tally_references {calls : List (Request × Reply)} (consistent : s.Consistent)
    (unheld : ∀ v, s.held v = none) (reached : Run SfsFs.Answers s calls s') : s'.tally = references calls := by
  have counted := reached.foldl SfsFs.tally (fun counts call => call.1.tally counts call.2)
    (fun _ _ _ kept step => SfsFs.Consistent.answers kept step) consistent
  have none : s.tally = fun _ => (0, 0) := funext fun v => SfsFs.tally_of_none (unheld v)
  rwa [none] at counted

theorem SfsFs.Consistent.held_iff (consistent : s.Consistent) (v : Word32) :
    s.held v ≠ none ↔ 0 < (s.tally v).1 := by
  obtain ⟨live, inv⟩ := consistent
  constructor
  · intro held
    obtain ⟨sv, _, found, _⟩ := SfsFs.find_of_held_ne held
    rw [SfsFs.tally_of_held (SfsFs.held_of_find found)]
    exact (inv.owned.held v sv found).1
  · intro counted unheld
    rw [SfsFs.tally_of_none unheld] at counted
    exact absurd counted (Nat.lt_irrefl 0)

theorem SfsFs.Answers.steps {calls : List (Request × Reply)} (reached : Run SfsFs.Answers s calls s') :
    Run SfsFs.Step s (calls.map Prod.fst) s' := by
  obtain ⟨_, run, rfl⟩ := reached.simulate SfsFs.Step Eq Prod.fst (by
    rintro state _ call next rfl ⟨allowed, ran⟩
    exact ⟨next, ⟨allowed, call.2, ran⟩, rfl⟩) s rfl
  exact run

theorem SfsFs.Inv.mem_live (inv : s.Inv live s.listing (links s.listing)) (v : Word32) :
    v ∈ live ↔ s.Alive v := by
  constructor
  · exact inv.settled v
  · rintro (rfl | held | ⟨name, bound⟩)
    · exact inv.root
    · obtain ⟨sv, _, found, _⟩ := SfsFs.find_of_held_ne held
      exact inv.owned.loaded v sv found
    · exact inv.named name v bound

theorem SfsFs.Consistent.blocksOwned (consistent : s.Consistent) : s.BlocksOwned := by
  obtain ⟨live, inv⟩ := consistent
  refine ⟨?_, ?_, ?_⟩
  · intro v alive slot taken
    exact (inv.owned.sound v ((inv.mem_live v).mpr alive)).below slot taken
  · intro v alive slot taken
    exact (inv.owned.sound v ((inv.mem_live v).mpr alive)).used slot taken
  · intro v w first second slot slot' taken same
    have mem := (inv.mem_live v).mpr first
    obtain rfl := inv.owned.apart v mem w ((inv.mem_live w).mpr second) _ ⟨taken, slot, rfl⟩
      ⟨taken, slot', same.symm⟩
    exact ⟨rfl, (inv.owned.sound v mem).once same taken⟩

theorem SfsFs.Accounts.run {stray : Set Word32} (accounts : s.Accounts stray)
    (reached : Run SfsFs.Step s requests s') (plenty : ∀ req ∈ requests, req.Plenty) :
    s'.Accounts stray := by
  have keeps (state : SfsFs) (req : Request) (next : SfsFs) (prev : state.Accounts stray)
      (step : state.Step req next ∧ req.Plenty) : next.Accounts stray := by
    obtain ⟨_, inv, same⟩ := prev
    obtain ⟨⟨allowed, reply, ran⟩, plenty⟩ := step
    have ended := inv.perform allowed
    rw [ran] at ended
    cases ended with
    | returned did =>
      obtain ⟨live', table', inv', _, kept, _, _⟩ := did
      obtain rfl : next.listing = table' := inv'.listing
      exact ⟨live', inv', (kept plenty).trans same⟩
  exact (reached.restrict plenty).invariant keeps accounts

theorem SfsFs.Accounts.used_iff {stray : Set Word32} (accounts : s.Accounts stray) (block : Word32) :
    s.vol.Used block ↔ block ∈ stray ∨ ∃ v, s.Alive v ∧ block ∈ (s.fileAt v).territory := by
  obtain ⟨live, inv, rfl⟩ := accounts
  constructor
  · intro used
    by_cases owned : ∃ v ∈ live, block ∈ (s.fileAt v).territory
    · obtain ⟨v, mem, inside⟩ := owned
      exact .inr ⟨v, (inv.mem_live v).mp mem, inside⟩
    · exact .inl ⟨used, fun v mem inside => owned ⟨v, mem, inside⟩⟩
  · rintro (⟨used, _⟩ | ⟨v, alive, present, slot, rfl⟩)
    · exact used
    · exact (inv.owned.sound v ((inv.mem_live v).mpr alive)).used slot present

theorem SfsFs.Consistent.no_block_panic (consistent : s.Consistent) (allowed : s.Allows req)
    (block fileblock ino : Nat) :
    s.perform req ≠ .error (markedFreePanic block fileblock ino) ∧
      s.perform req ≠ .error (ballocPanic block) := by
  obtain ⟨live, inv⟩ := consistent
  have ended := inv.perform allowed
  generalize s.perform req = res at ended
  cases ended with
  | returned _ | renamedRoot _ => exact ⟨nofun, nofun⟩
  | rootless _ =>
    -- The texts differ in their sixth character.
    have plain (text : String) : toString text = text := rfl
    constructor
    · intro same
      have texts := congrArg String.toList (Panic.message.inj (Except.error.inj same))
      simp [plain] at texts
    · intro same
      have texts := congrArg String.toList (Panic.message.inj (Except.error.inj same))
      simp [plain] at texts

end

section

variable {size : Word32} {disk disk' : Disk} {s s' : SfsFs} {requests : List Request}

theorem SfsFs.Mounted.accounts (mounted : s.Mounted size) (least : 3 ≤ size.toNat)
    (most : size.toNat ≤ 131072) :
    s.Accounts { block | s.vol.Used block ∧ block ≠ rootLocation } := by
  have fresh := mounted.fresh least most
  have inv := fresh.inv
  rw [← fresh.listing] at inv
  refine ⟨{rootLocation}, inv, ?_⟩
  ext block
  constructor
  · rintro ⟨used, out⟩
    refine ⟨used, ?_⟩
    rintro rfl
    refine out rootLocation rfl ?_
    rw [fresh.territory]
    rfl
  · rintro ⟨used, apart⟩
    refine ⟨used, ?_⟩
    rintro v rfl inside
    rw [fresh.territory] at inside
    exact apart inside

theorem SfsFs.Blank.held (blank : s.Blank) (v : Word32) : s.held v = none := by
  rw [SfsFs.held, blank.find v, Option.map_none]

theorem SfsFs.Blank.alive (blank : s.Blank) {v : Word32} (alive : s.Alive v) : v = rootLocation := by
  rcases alive with rfl | held | ⟨name, bound⟩
  · rfl
  · exact absurd (blank.held v) held
  · rw [blank.listing] at bound
    cases bound

theorem SfsFs.Mounted.stays (mounted : s.Mounted size) (huge : 2 ^ 32 - 4096 < size.toNat)
    (run : Run SfsFs.Step s requests s') : s' = s := by
  cases run with
  | nil _ => rfl
  | cons step _ => exact absurd step (mounted.stuck huge)

theorem SfsFs.Mounted.unowned (mounted : s.Mounted size) (huge : 2 ^ 32 - 4096 < size.toNat) :
    ¬ s.BlocksOwned := by
  intro owned
  have whole := bitmapsize_toNat size
  have ino : (s.fileAt rootLocation).blockAt .self = rootLocation := s.vnodeAt_ino rootLocation
  have marked := owned.marked rootLocation (.inl rfl) .self (by rw [ino]; decide)
  rw [Volume.Used, mounted.bits, decide_eq_true_iff] at marked
  omega

/-- A file that holds no bytes -/
def SfsFile.Empty (f : SfsFile) : Prop := f.sv.inode.size = 0 ∧ f.content = fun _ => 0

theorem SfsFile.Bare.empty {f : SfsFile} (bare : f.Bare) (size : f.sv.inode.size = 0) : f.Empty := by
  refine ⟨size, ?_⟩
  funext pos
  exact if_pos (bare.dataBlock _)

/-- The request to read some bytes at an offset into a buffer of zeros -/
def readAt (offset resid : Nat) : Uio := ⟨offset, resid, .read, fun _ => 0, 0, none⟩

theorem image_file : ∃ disk s s' sv f, mksfs 4096 (fun _ => zeroBlock) = .ok disk ∧
    sfsDomount 4096 disk = .ok (.ok s) ∧
    Run SfsFs.Step s [.getroot ⟨true, true⟩, .creat 1 nameA true ⟨true, true⟩] s' ∧
    s'.find 3 = some sv ∧ SfsFile.Empty ⟨s'.vol, sv⟩ ∧ Run FileStep ⟨s'.vol, sv⟩ [onesAt 700 600] f := by
  refine ⟨_, _, _, _, _, rfl, rfl, .cons ⟨trivial, .vnode 1, rfl⟩ (.single ⟨nofun, .vnode 3, rfl⟩), rfl, ?_,
    .single ⟨rfl, by decide, fun _ => by decide, _, rfl⟩⟩
  exact SfsFile.Bare.empty ⟨fun index => word_zeroBlock (2 + index), word_zeroBlock 17⟩ (word_zeroBlock 0)

/-- Blocks in use have one owner exactly when the free map does not overflow. -/
theorem blocks_owned_iff (made : mksfs size disk = .ok disk')
    (mounted : sfsDomount size disk' = .ok (.ok s)) :
    (∀ requests s', Run SfsFs.Step s requests s' → s'.BlocksOwned ∧
        ∀ request, s'.Allows request → ∀ block fileblock ino,
          s'.perform request ≠ .error (markedFreePanic block fileblock ino) ∧
          s'.perform request ≠ .error (ballocPanic block)) ↔
      size.toNat ≤ 2 ^ 32 - 4096 := by
  obtain ⟨start, least, few | huge⟩ := mksfs_mounted made mounted
  · refine iff_of_true ?_ (by omega)
    intro requests s' reached
    have consistent := (start.fresh least few).inv.consistent.run reached
    exact ⟨consistent.blocksOwned, fun request allowed => consistent.no_block_panic allowed⟩
  · refine iff_of_false ?_ (by omega)
    intro always
    exact start.unowned huge (always [] s (.nil s)).1

/-- A file is written, gets a second name and loses the first one. -/
theorem blocks_owned_linked : ∃ disk s s', mksfs 4096 (fun _ => zeroBlock) = .ok disk ∧
    sfsDomount 4096 disk = .ok (.ok s) ∧
    Run SfsFs.Step s [.getroot ⟨true, true⟩, .creat 1 nameA true ⟨true, true⟩, .write 3 (onesAt 700 600),
      .link 1 nameB 3, .remove 1 nameA ⟨true, true⟩] s' ∧ s'.BlocksOwned := by
  obtain ⟨disk, s, s', made, mounted, reached⟩ : ∃ disk s s', mksfs 4096 (fun _ => zeroBlock) = .ok disk ∧
      sfsDomount 4096 disk = .ok (.ok s) ∧
      Run SfsFs.Step s [.getroot ⟨true, true⟩, .creat 1 nameA true ⟨true, true⟩, .write 3 (onesAt 700 600),
        .link 1 nameB 3, .remove 1 nameA ⟨true, true⟩] s' :=
    ⟨_, _, _, rfl, rfl, .cons ⟨trivial, _, rfl⟩ (.cons ⟨nofun, _, rfl⟩ (.cons ⟨⟨nofun, rfl⟩, _, rfl⟩
      (.cons ⟨⟨nofun, nofun⟩, _, rfl⟩ (.single ⟨nofun, _, rfl⟩))))⟩
  exact ⟨disk, s, s', made, mounted, reached,
    ((blocks_owned_iff made mounted).mpr (by decide) _ s' reached).1⟩

/-- The largest volume has no free map. -/
theorem blocks_unowned_largest : ∃ disk s, mksfs 0xffffffff (fun _ => zeroBlock) = .ok disk ∧
    sfsDomount 0xffffffff disk = .ok (.ok s) ∧ ¬ s.BlocksOwned := by
  have few : (bitblocks 0xffffffff).toNat ≤ 32 := by decide
  obtain ⟨disk, s, made, mounted, start⟩ := mksfs_ok few (by decide) fun _ => zeroBlock
  exact ⟨disk, s, made, mounted, start.unowned (by decide)⟩

/-- Link counts count the names, and blocks without an owner are free. -/
theorem link_counts_exact {calls : List (Request × Reply)} (made : mksfs size disk = .ok disk')
    (mounted : sfsDomount size disk' = .ok (.ok s)) (reached : Run SfsFs.Answers s calls s')
    (plenty : ∀ call ∈ calls, call.1.Plenty) :
    (∀ v, s'.Alive v → (s'.vnodeAt v).inode.type = typeFile →
      (s'.vnodeAt v).inode.linkcount.toNat = refs s'.listing v) ∧
    (∀ v, s'.held v ≠ none ↔ 0 < (references calls v).1) ∧
    ∀ block : Word32, 2 + (bitblocks size).toNat ≤ block.toNat → block.toNat < size.toNat →
      (s'.vol.Used block ↔ ∃ v, s'.Alive v ∧ block ∈ (s'.fileAt v).territory) := by
  obtain ⟨start, least, few | huge⟩ := mksfs_mounted made mounted
  · have steps := SfsFs.Answers.steps reached
    have accounts := (start.accounts least few).run steps (by
      rintro _ member
      obtain ⟨call, listed, rfl⟩ := List.mem_map.mp member
      exact plenty call listed)
    refine ⟨?_, ?_, ?_⟩
    · intro v alive type
      obtain ⟨live, inv, _⟩ := accounts
      have member := (inv.mem_live v).mpr alive
      have file : v ≠ rootLocation := by
        rintro rfl
        exact absurd (type.symm.trans inv.dir.type) (by decide)
      rw [inv.counts v member, links, if_neg file, Nat.add_zero]
    · intro v
      have consistent := (start.fresh least few).inv.consistent
      rw [← SfsFs.tally_references consistent start.blank.held reached]
      exact (consistent.run steps).held_iff v
    · intro block behind below
      rw [accounts.used_iff, or_iff_right]
      rintro ⟨used, _⟩
      rw [Volume.Used, start.bits, decide_eq_true_iff] at used
      omega
  · obtain rfl := start.stays huge (SfsFs.Answers.steps reached)
    have root {v : Word32} (alive : s'.Alive v) := start.blank.alive alive
    refine ⟨?_, ?_, ?_⟩
    · intro v alive type
      obtain rfl := root alive
      rw [start.blank.vnodeAt] at type
      exact absurd type (by decide)
    · intro v
      cases reached with
      | nil _ => exact iff_of_false (not_not.mpr (start.blank.held v)) (Nat.lt_irrefl 0)
      | cons step _ => exact absurd ⟨step.1, _, step.2⟩ (start.stuck huge)
    · intro block behind below
      refine iff_of_false ?_ ?_
      · rw [Volume.Used, start.bits, decide_eq_true_iff]
        omega
      · rintro ⟨v, alive, inside⟩
        obtain rfl := root alive
        rw [start.blank.territory] at inside
        obtain rfl := inside
        exact absurd behind (by change ¬ 2 + _ ≤ 1; omega)

/-- A file gets a second name, loses both and is given back. -/
theorem link_counts_released : ∃ disk s s', mksfs 4096 (fun _ => zeroBlock) = .ok disk ∧
    sfsDomount 4096 disk = .ok (.ok s) ∧
    Run SfsFs.Answers s [(.getroot ⟨true, true⟩, .vnode 1), (.creat 1 nameA true ⟨true, true⟩, .vnode 3),
      (.link 1 nameB 3, .code 0), (.remove 1 nameA ⟨true, true⟩, .code 0),
      (.remove 1 nameB ⟨true, true⟩, .code 0), (.decref 3, .code 0)] s' ∧ s'.held 3 = none ∧
    (s'.vol.Used 3 ↔ ∃ v, s'.Alive v ∧ 3 ∈ (s'.fileAt v).territory) := by
  obtain ⟨disk, s, s', made, mounted, reached⟩ : ∃ disk s s', mksfs 4096 (fun _ => zeroBlock) = .ok disk ∧
      sfsDomount 4096 disk = .ok (.ok s) ∧
      Run SfsFs.Answers s [(.getroot ⟨true, true⟩, .vnode 1), (.creat 1 nameA true ⟨true, true⟩, .vnode 3),
        (.link 1 nameB 3, .code 0), (.remove 1 nameA ⟨true, true⟩, .code 0),
        (.remove 1 nameB ⟨true, true⟩, .code 0), (.decref 3, .code 0)] s' :=
    ⟨_, _, _, rfl, rfl, .cons ⟨trivial, rfl⟩ (.cons ⟨nofun, rfl⟩ (.cons ⟨⟨nofun, nofun⟩, rfl⟩
      (.cons ⟨nofun, rfl⟩ (.cons ⟨nofun, rfl⟩ (.single ⟨⟨(1, 0), rfl, by decide⟩, rfl⟩)))))⟩
  obtain ⟨_, held, used⟩ := link_counts_exact made mounted reached (by
    intro call member
    fin_cases member <;> first | exact ⟨rfl, rfl⟩ | trivial)
  exact ⟨disk, s, s', made, mounted, reached, by_contra fun here => absurd ((held 3).mp here) (by decide),
    used 3 (by decide) (by decide)⟩

/-- A file that was empty is read and written like an array of bytes. -/
theorem file_is_byte_array {v : Word32} {sv : SfsVnode} {f : SfsFile} {moves : List Uio}
    (made : mksfs size disk = .ok disk') (mounted : sfsDomount size disk' = .ok (.ok s))
    (reached : Run SfsFs.Step s requests s') (loaded : s'.find v = some sv)
    (empty : SfsFile.Empty ⟨s'.vol, sv⟩) (moved : Run FileStep ⟨s'.vol, sv⟩ moves f) :
    f.sv.inode.size.toNat = (moves.foldl FileArray.apply .empty).size ∧
    (∀ u : Uio, u.rw = .read → u.reach = none →
      sfsIo f u = .ok (0, (moves.foldl FileArray.apply .empty).read u, f)) ∧
    ∀ u u' f', u.rw = .write → u.offset + u.resid ≤ 143 * 512 → sfsIo f u = .ok (0, u', f') →
      u' = u.advance u.resid := by
  obtain ⟨start, least, few | huge⟩ := mksfs_mounted made mounted
  · obtain ⟨live, inv⟩ := (start.fresh least few).inv.consistent.run reached
    have sound := inv.owned.sound v (inv.owned.loaded v sv loaded)
    rw [SfsFs.fileAt_of_find loaded] at sound
    have nothing : SfsFile.Holds ⟨s'.vol, sv⟩ .empty :=
      ⟨sound, congrArg BitVec.toNat empty.1, Nat.zero_le _, empty.2⟩
    have holds := nothing.run moved
    refine ⟨holds.size, fun u read kernel => holds.read read kernel, ?_⟩
    intro u u' f' write below returned
    exact (holds.write write below returned).1
  · obtain rfl := start.stays huge reached
    rw [start.blank.find v] at loaded
    cases loaded

theorem file_is_byte_array_ones : ∃ disk s s' sv f, mksfs 4096 (fun _ => zeroBlock) = .ok disk ∧
    sfsDomount 4096 disk = .ok (.ok s) ∧
    Run SfsFs.Step s [.getroot ⟨true, true⟩, .creat 1 nameA true ⟨true, true⟩] s' ∧
    s'.find 3 = some sv ∧ SfsFile.Empty ⟨s'.vol, sv⟩ ∧ Run FileStep ⟨s'.vol, sv⟩ [onesAt 700 600] f ∧
    sfsIo f (readAt 690 20) = .ok (0, (FileArray.empty.apply (onesAt 700 600)).read (readAt 690 20), f) := by
  obtain ⟨disk, s, s', sv, f, made, mounted, reached, loaded, empty, moved⟩ := image_file
  refine ⟨disk, s, s', sv, f, made, mounted, reached, loaded, empty, moved, ?_⟩
  exact (file_is_byte_array made mounted reached loaded empty moved).2.1 (readAt 690 20) rfl rfl

end


end Os161.Sfs
