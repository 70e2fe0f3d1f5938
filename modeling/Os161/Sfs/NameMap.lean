import Os161.Sfs.Calls

namespace Os161.Sfs
open Word Outcome SlotMap Transition

/-- The slots of the root directory -/
def SfsFs.listing (s : SfsFs) : Table Name Word32 := (s.fileAt rootLocation).listing

/-- The map from names to inodes -/
def SfsFs.names (s : SfsFs) : Name → Option Word32 := lookup s.listing

/-- One call that is allowed and returns -/
def SfsFs.Step (s : SfsFs) (request : Request) (s' : SfsFs) : Prop :=
  s.Allows request ∧ ∃ reply, s.perform request = .ok (reply, s')

/-- The directory, the link counts and the free map agree with the inodes. -/
def SfsFs.Consistent (s : SfsFs) : Prop := ∃ live, s.Inv live s.listing (links s.listing)

theorem SfsFs.Inv.consistent {s : SfsFs} (inv : s.Inv live table (links table)) : s.Consistent := by
  obtain rfl : s.listing = table := inv.listing
  exact ⟨live, inv⟩

theorem SfsFs.Consistent.run {s : SfsFs} (consistent : s.Consistent)
    (reached : Run SfsFs.Step s requests s') : s'.Consistent := by
  refine reached.invariant ?_ consistent
  rintro state req next ⟨live, inv⟩ ⟨allowed, reply, ran⟩
  have ended := inv.perform allowed
  rw [ran] at ended
  cases ended with
  | returned did =>
    obtain ⟨_, _, inv', _, _⟩ := did
    exact inv'.consistent

/-- The call renames the root directory. -/
def SfsFs.RenamesRoot (s : SfsFs) : Request → Prop
  | .rename d n1 _ _ _ => d = rootLocation ∧ s.names n1 = some rootLocation
  | _ => False

theorem SfsFs.Inv.onRoot {s : SfsFs} (inv : s.Inv live table (links table)) (held : s.held rootLocation ≠ none)
    (op : Kernel (Reply × SfsFs)) : Sfs.onDirectory s rootLocation op = op := by
  rcases inv.onDirectory held op with ⟨_, through⟩ | ⟨apart, _⟩
  · exact through
  · exact absurd rfl apart

theorem SfsFs.Consistent.effect {s : SfsFs} (consistent : s.Consistent) (allowed : s.Allows req)
    (named : req.directory ≠ none) :
    (∃ reply s', s.perform req = .ok (reply, s') ∧
        Effect s.names (s.fileAt rootLocation).Cramped req reply s'.names) ↔
      ¬ s.RenamesRoot req := by
  obtain ⟨live, inv⟩ := consistent
  have ended := inv.perform allowed
  generalize outcome : s.perform req = res at ended
  cases ended with
  | returned did =>
    obtain ⟨live', table', inv', effect, _⟩ := did
    obtain rfl : SfsFs.listing _ = table' := inv'.listing
    refine iff_of_true ⟨_, _, rfl, effect⟩ ?_
    intro renames
    cases req with
    | rename d1 n1 d2 n2 memory =>
      obtain ⟨rfl, bound⟩ := renames
      obtain ⟨held, rfl⟩ := allowed
      have stopped := inv.rename_root held n2 bound memory
      rw [SfsFs.perform, inv.onRoot held, stopped] at outcome
      cases outcome
    | _ => exact renames
  | renamedRoot bound =>
    refine iff_of_false ?_ fun allowed => allowed ⟨rfl, bound⟩
    rintro ⟨_, _, ran, _⟩
    cases ran
  | rootless _ => exact absurd rfl named

theorem SfsFs.Consistent.found_once {s : SfsFs} (consistent : s.Consistent) (allowed : s.Allows req) :
    s.perform req ≠ .error (.assertion "found==0") := by
  obtain ⟨live, inv⟩ := consistent
  have ended := inv.perform allowed
  generalize s.perform req = res at ended
  cases ended with
  | returned | rootless => exact nofun
  | renamedRoot _ => simp

/-- A consistent volume with an empty directory -/
def SfsFs.EmptyRoot (s : SfsFs) : Prop := s.Consistent ∧ s.names = fun _ => none

/-- A volume without files: nothing is loaded, and the root is an empty directory. -/
structure SfsFs.Blank (s : SfsFs) : Prop where
  unloaded : s.vnodes = []
  root : Inode.decode (s.vol.disk rootLocation) = ⟨0, typeDir, 1, fun _ => 0, 0⟩

/-- A volume without files and with a free map that is in order -/
structure SfsFs.Fresh (s : SfsFs) : Prop extends SfsFs.Blank s where
  volume : s.vol.Sound
  below : rootLocation < s.vol.nblocks
  used : s.vol.Used rootLocation

section

variable {s : SfsFs}

theorem SfsFs.Blank.find (blank : s.Blank) (v : Word32) : s.find v = none := by
  rw [SfsFs.find, blank.unloaded, List.find?_nil]

theorem SfsFs.Blank.vnodeAt (blank : s.Blank) :
    s.vnodeAt rootLocation = ⟨rootLocation, ⟨0, typeDir, 1, fun _ => 0, 0⟩, false, 0, 0⟩ := by
  rw [SfsFs.vnodeAt_of_none (blank.find rootLocation), blank.root]

theorem SfsFs.Blank.bare (blank : s.Blank) : (s.fileAt rootLocation).Bare := by
  rw [SfsFs.fileAt, blank.vnodeAt]
  exact ⟨fun _ => rfl, rfl⟩

theorem SfsFs.Blank.listing (blank : s.Blank) : s.listing = [] := by
  have empty : (s.fileAt rootLocation).sv.inode.size = 0 := by rw [SfsFs.fileAt, blank.vnodeAt]
  rw [SfsFs.listing, SfsFile.listing, empty]
  simp

theorem SfsFs.Blank.territory (blank : s.Blank) : (s.fileAt rootLocation).territory = {rootLocation} := by
  have ino : (s.fileAt rootLocation).sv.ino = rootLocation := s.vnodeAt_ino rootLocation
  rw [blank.bare.territory (by rw [ino]; decide), ino]

theorem SfsFs.Fresh.sound (fresh : s.Fresh) : (s.fileAt rootLocation).Sound := by
  have ino : (s.fileAt rootLocation).sv.ino = rootLocation := s.vnodeAt_ino rootLocation
  refine fresh.bare.sound fresh.volume ?_ ?_ ?_
  · rw [ino]
    decide
  · rw [ino]
    exact fresh.below
  · rw [ino]
    exact fresh.used

theorem SfsFs.Fresh.owned (fresh : s.Fresh) : s.Owned {rootLocation} where
  volume := fresh.volume
  nodup := by
    rw [fresh.unloaded]
    exact .nil
  loaded v sv found := by
    rw [fresh.find v] at found
    cases found
  held v sv found := by
    rw [fresh.find v] at found
    cases found
  saved v sv found := by
    rw [fresh.find v] at found
    cases found
  sound := by
    rintro v rfl
    exact fresh.sound
  apart := by
    rintro v rfl w rfl _ _ _
    rfl

theorem SfsFs.Fresh.inv (fresh : s.Fresh) : s.Inv {rootLocation} [] (links []) where
  owned := fresh.owned
  root := rfl
  dir := by
    have empty : (s.fileAt rootLocation).sv.inode.size = 0 := by rw [SfsFs.fileAt, fresh.vnodeAt]
    refine ⟨fresh.sound, ?_, ?_, ?_, ?_⟩
    · rw [SfsFs.fileAt, fresh.vnodeAt]
    · rw [empty]
      rfl
    · rw [empty]
      decide
    · intro k prev
      rw [empty] at prev
      exact absurd prev (Nat.not_lt_zero _)
  listing := fresh.listing
  unique := by
    intro i j k v w bound
    cases bound
  named name v bound := by cases bound
  types v mem apart := absurd mem apart
  counts := by
    rintro v rfl
    rw [fresh.vnodeAt]
    rfl
  settled v mem := .inl mem

theorem SfsFs.Fresh.emptyRoot (fresh : s.Fresh) : s.EmptyRoot := by
  refine ⟨fresh.inv.consistent, ?_⟩
  rw [SfsFs.names, fresh.listing]
  rfl

end

/-- A volume of eight blocks with an empty directory -/
def emptyFs : SfsFs where
  vol :=
    { blocks := 8
      nblocks := 8
      freemap := { nbits := 4096, bits := fun index => index ≤ 2 ∨ 8 ≤ index }
      freemapdirty := false
      disk := Function.update (fun _ => zeroBlock) 1 (Inode.encode ⟨0, typeDir, 1, fun _ => 0, 0⟩) }
  vnodes := []

theorem emptyFs_fresh : emptyFs.Fresh where
  unloaded := rfl
  root := Inode.decode_encode ⟨0, typeDir, 1, fun _ => 0, 0⟩
  volume :=
    { device := by decide
      addressable := by decide
      mapped := by decide
      tail := fun index beyond _ => decide_eq_true (.inr beyond)
      super := rfl }
  below := by decide
  used := rfl

/-- The volume after its root has been loaded -/
def rootedFs : SfsFs := emptyFs.add (.fresh 1 ⟨0, typeDir, 1, fun _ => 0, 0⟩ false)

abbrev nameA : Name := ⟨[97], by decide⟩
abbrev nameB : Name := ⟨[98], by decide⟩

theorem emptyFs_getroot : SfsFs.Step emptyFs (.getroot ⟨true, true⟩) rootedFs := by
  refine ⟨trivial, .vnode 1, ?_⟩
  have used : sfsBused emptyFs.vol 1 = .ok true := rfl
  have read : sfsRblock emptyFs.vol 1 = .ok (Inode.encode ⟨0, typeDir, 1, fun _ => 0, 0⟩) := rfl
  have search : searchVnodes emptyFs.vol 1 emptyFs.vnodes = .ok false := rfl
  simp only [SfsFs.perform, sfsGetroot, sfsLoadvnode, ok_bind, loadFresh, read, Inode.decode_encode]
  rfl

/-- Every call acts on the map from names, unless it renames the root. -/
theorem directory_refines_map {s s' : SfsFs} {requests : List Request} (start : s.EmptyRoot)
    (reached : Run SfsFs.Step s requests s') :
    Unique s'.listing ∧ ∀ request, s'.Allows request →
      s'.perform request ≠ .error (.assertion "found==0") ∧
      (request.directory ≠ none →
        ((∃ reply s'', s'.perform request = .ok (reply, s'') ∧
            Effect s'.names (s'.fileAt rootLocation).Cramped request reply s''.names) ↔
          ¬ s'.RenamesRoot request)) := by
  have consistent := start.1.run reached
  obtain ⟨live, inv⟩ := consistent
  refine ⟨inv.unique, ?_⟩
  intro request allowed
  exact ⟨inv.consistent.found_once allowed, inv.consistent.effect allowed⟩

theorem directory_refines_map_moved : ∃ s s', Run SfsFs.Step emptyFs
      [.getroot ⟨true, true⟩, .creat 1 nameA true ⟨true, true⟩, .link 1 nameB 3, .remove 1 nameA ⟨true, true⟩] s ∧
    Unique s.listing ∧ s.perform (.rename 1 nameB 1 nameA ⟨true, true⟩) = .ok (.code 0, s') ∧
    Effect s.names (s.fileAt rootLocation).Cramped (.rename 1 nameB 1 nameA ⟨true, true⟩) (.code 0) s'.names := by
  obtain ⟨s, reached, next⟩ : ∃ s, Run SfsFs.Step emptyFs
      [.getroot ⟨true, true⟩, .creat 1 nameA true ⟨true, true⟩, .link 1 nameB 3, .remove 1 nameA ⟨true, true⟩] s ∧
      s.names nameB = some 3 ∧ s.Allows (.rename 1 nameB 1 nameA ⟨true, true⟩) ∧
      ∃ s', s.perform (.rename 1 nameB 1 nameA ⟨true, true⟩) = .ok (.code 0, s') := by
    refine ⟨_, .cons emptyFs_getroot (.cons ⟨nofun, .vnode 3, rfl⟩ (.cons ⟨⟨nofun, nofun⟩, .code 0, rfl⟩
      (.single ⟨nofun, .code 0, rfl⟩))), rfl, ⟨nofun, rfl⟩, _, rfl⟩
  obtain ⟨bound, allowed, s', moved⟩ := next
  obtain ⟨unique, calls⟩ := directory_refines_map emptyFs_fresh.emptyRoot reached
  have other : ¬ s.RenamesRoot (.rename 1 nameB 1 nameA ⟨true, true⟩) := by
    rintro ⟨_, root⟩
    exact absurd (bound.symm.trans root) (by decide)
  obtain ⟨reply, s'', same, effect⟩ := ((calls _ allowed).2 nofun).mpr other
  cases moved.symm.trans same
  exact ⟨s, s', reached, unique, moved, effect⟩

/-- The root gets a name, and the attempt to rename it stops. -/
theorem rename_root_stops : ∃ s, Run SfsFs.Step emptyFs [.getroot ⟨true, true⟩, .link 1 nameA 1] s ∧
    emptyFs.EmptyRoot ∧ s.Allows (.rename 1 nameA 1 nameB ⟨true, true⟩) ∧
    s.perform (.rename 1 nameA 1 nameB ⟨true, true⟩) =
      .error (.assertion "g1->sv_i.sfi_type == SFS_TYPE_FILE") := by
  refine ⟨_, .cons emptyFs_getroot (.single ⟨⟨nofun, nofun⟩, .code 0, rfl⟩), emptyFs_fresh.emptyRoot, ?_, ?_⟩
  · exact ⟨nofun, rfl⟩
  · rfl

end Os161.Sfs
