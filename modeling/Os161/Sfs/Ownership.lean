import Os161.Sfs.Vnodes

namespace Os161.Sfs
open Word Outcome Territory Function List SfsFs SfsFile

section

variable {s : SfsFs} {v w : Word32} {sv : SfsVnode} {f : SfsFile}

theorem SfsFs.find_ino (found : s.find v = some sv) : sv.ino = v := by simpa using List.find?_some found

theorem SfsFs.file_eq (found : s.find v = some sv) : s.file v = .ok ⟨s.vol, sv⟩ := by
  rw [SfsFs.file, found]

theorem SfsFs.find_put (s : SfsFs) (f : SfsFile) (w : Word32) :
    (s.put f).find w = (s.find w).map fun sv => if sv.ino = f.sv.ino then f.sv else sv := by
  have same (sv : SfsVnode) : (if sv.ino = f.sv.ino then f.sv else sv).ino = sv.ino := by
    split
    · exact Eq.symm ‹_›
    · rfl
  simp only [SfsFs.put, SfsFs.find, List.find?_map, comp_def, same]

theorem SfsFs.find_put_self (found : s.find f.sv.ino = some sv) :
    (s.put f).find f.sv.ino = some f.sv := by
  rw [s.find_put, found, Option.map_some, if_pos (find_ino found)]

theorem SfsFs.find_put_of_ne (apart : w ≠ f.sv.ino) : (s.put f).find w = s.find w := by
  rw [s.find_put]
  cases found : s.find w with
  | none => rfl
  | some sv => rw [Option.map_some, if_neg (find_ino found ▸ apart)]

theorem SfsFs.put_inos (s : SfsFs) (f : SfsFile) :
    (s.put f).vnodes.map SfsVnode.ino = s.vnodes.map SfsVnode.ino := by
  rw [SfsFs.put, map_map]
  refine map_congr_left fun sv _ => ?_
  change (if sv.ino = f.sv.ino then f.sv else sv).ino = sv.ino
  split
  · exact Eq.symm ‹_›
  · rfl

theorem SfsFs.put_put (s : SfsFs) {f g : SfsFile} (ino : g.sv.ino = f.sv.ino) : (s.put f).put g = s.put g := by
  refine congrArg (SfsFs.mk g.vol) ?_
  rw [SfsFs.put, map_map]
  refine map_congr_left fun sv _ => ?_
  simp only [comp_def, ino]
  by_cases here : sv.ino = f.sv.ino
  · simp only [if_pos here, if_true]
  · simp only [if_neg here]

theorem SfsFs.put_drop (s : SfsFs) (f : SfsFile) (vol : Volume) :
    (s.put f).drop vol f.sv.ino = s.drop vol f.sv.ino := by
  refine congrArg (SfsFs.mk vol) ?_
  rw [SfsFs.put]
  induction s.vnodes with
  | nil => rfl
  | cons sv rest ih =>
    rw [map_cons, filter_cons, ih]
    by_cases here : sv.ino = f.sv.ino
    · simp [here]
    · simp [here]

theorem SfsFs.find_add (gone : s.find sv.ino = none) (w : Word32) :
    (s.add sv).find w = if w = sv.ino then some sv else s.find w := by
  rw [SfsFs.find, SfsFs.add, List.find?_append]
  change (s.find w).or _ = _
  by_cases here : w = sv.ino
  · subst here
    rw [gone]
    simp
  · rw [if_neg here, List.find?_singleton, if_neg (by simpa using Ne.symm here), Option.or_none]

theorem SfsFs.find_drop (s : SfsFs) (vol : Volume) (v w : Word32) :
    (s.drop vol v).find w = if w = v then none else s.find w := by
  rw [SfsFs.find, SfsFs.drop, List.find?_filter]
  split
  · rename_i same
    subst same
    simp
  · rename_i apart
    refine List.find?_congr fun sv _ => ?_
    by_cases same : sv.ino = w
    · simp [same, apart]
    · simp [same]

/-- The vnode of an inode: the one in the table, or else the one that would be loaded. -/
def SfsFs.vnodeAt (s : SfsFs) (v : Word32) : SfsVnode :=
  (s.find v).getD ⟨v, .decode (s.vol.disk v), false, 0, 0⟩

def SfsFs.fileAt (s : SfsFs) (v : Word32) : SfsFile := ⟨s.vol, s.vnodeAt v⟩

theorem SfsFs.vnodeAt_of_find (found : s.find v = some sv) : s.vnodeAt v = sv := by
  rw [SfsFs.vnodeAt, found, Option.getD_some]

theorem SfsFs.vnodeAt_of_none (gone : s.find v = none) :
    s.vnodeAt v = ⟨v, .decode (s.vol.disk v), false, 0, 0⟩ := by
  rw [SfsFs.vnodeAt, gone, Option.getD_none]

theorem SfsFs.vnodeAt_ino (s : SfsFs) (v : Word32) : (s.vnodeAt v).ino = v := by
  cases found : s.find v with
  | none => rw [vnodeAt_of_none found]
  | some sv => rw [vnodeAt_of_find found, find_ino found]

theorem SfsFs.fileAt_of_find (found : s.find v = some sv) : s.fileAt v = ⟨s.vol, sv⟩ := by
  rw [SfsFs.fileAt, vnodeAt_of_find found]

end

section

variable {f : SfsFile} {vol : Volume}

section

variable (kept : ∀ block ∈ f.territory, vol.disk block = f.vol.disk block)
include kept

theorem SfsFile.blockAt_frame (slot : Slot) : (⟨vol, f.sv⟩ : SfsFile).blockAt slot = f.blockAt slot := by
  cases slot with
  | self => rfl
  | indirect => rfl
  | data k =>
    simp only [SfsFile.blockAt]
    by_cases low : k < 15
    · rw [SfsFile.dataBlock, SfsFile.dataBlock, dif_pos low, dif_pos low]
    · rw [dataBlock_high _ (by omega), dataBlock_high _ (by omega)]
      exact indirectEntry_congr (fun used => kept _ ⟨used, .indirect, rfl⟩) k

theorem SfsFile.territory_frame : (⟨vol, f.sv⟩ : SfsFile).territory = f.territory := by
  simp only [SfsFile.territory, blockAt_frame kept]

theorem SfsFile.content_frame : (⟨vol, f.sv⟩ : SfsFile).content = f.content := by
  funext pos
  have same := blockAt_frame kept (.data (pos / 512))
  simp only [SfsFile.blockAt] at same
  simp only [SfsFile.content, same]
  by_cases hole : f.dataBlock (pos / 512) = 0
  · rw [if_pos hole, if_pos hole]
  · rw [if_neg hole, if_neg hole, kept _ ⟨hole, .data (pos / 512), rfl⟩]

end

end

/-- The inodes of a set have their blocks for themselves, and the vnodes in the table are among them. -/
structure SfsFs.Owned (s : SfsFs) (live : Set Word32) : Prop where
  volume : s.vol.Sound
  nodup : (s.vnodes.map SfsVnode.ino).Nodup
  loaded : ∀ v sv, s.find v = some sv → v ∈ live
  held : ∀ v sv, s.find v = some sv → 1 ≤ sv.refcount ∧ sv.opencount ≤ sv.refcount
  saved : ∀ v sv, s.find v = some sv → sv.dirty = false → .decode (s.vol.disk v) = sv.inode
  sound : ∀ v ∈ live, (s.fileAt v).Sound
  apart : ∀ v ∈ live, ∀ w ∈ live, ∀ block ∈ (s.fileAt v).territory, block ∈ (s.fileAt w).territory → v = w

/-- The blocks of one inode, if it is in the set. -/
def SfsFs.share (s : SfsFs) (live : Set Word32) (v : Word32) : Set Word32 :=
  { block | v ∈ live ∧ block ∈ (s.fileAt v).territory }

/-- The blocks that are marked and belong to no inode of the set -/
def SfsFs.stray (s : SfsFs) (live : Set Word32) : Set Word32 :=
  { block | s.vol.Used block ∧ ∀ v ∈ live, block ∉ (s.fileAt v).territory }

/-- One inode changes, appears or disappears, and it exchanges blocks with the free map only. -/
structure SfsFs.Alters (s : SfsFs) (live : Set Word32) (v : Word32) (s' : SfsFs) (live' : Set Word32) :
    Prop where
  change : Change s.vol.Used s'.vol.Used s.vol.disk s'.vol.disk (s.share live v) (s'.share live' v)
  volume : s'.vol.Sound
  follows : s.vol.Follows s'.vol
  nodup : (s'.vnodes.map SfsVnode.ino).Nodup
  others : ∀ w, w ≠ v → s'.find w = s.find w
  live : ∀ w, w ≠ v → (w ∈ live' ↔ w ∈ live)
  loaded : ∀ sv, s'.find v = some sv → v ∈ live' ∧ 1 ≤ sv.refcount ∧ sv.opencount ≤ sv.refcount ∧
    (sv.dirty = false → .decode (s'.vol.disk v) = sv.inode)
  sound : v ∈ live' → (s'.fileAt v).Sound

theorem SfsFs.Owned.self {s : SfsFs} (owned : s.Owned live) (mem : v ∈ live) : v ∈ (s.fileAt v).territory := by
  have ino := s.vnodeAt_ino v
  have self := (owned.sound v mem).self
  refine ⟨?_, .self, ino⟩
  rw [← ino]
  exact self

section

variable {s s' : SfsFs} {live live' : Set Word32} {v w : Word32}

theorem SfsFs.share_of_mem (mem : v ∈ live) : s.share live v = (s.fileAt v).territory := by
  simp [SfsFs.share, mem]

theorem SfsFs.Owned.outside (owned : s.Owned live) (mem : w ∈ live) (apart : w ≠ v)
    (inside : block ∈ (s.fileAt w).territory) : s.vol.Used block ∧ block ∉ s.share live v := by
  refine ⟨(owned.sound w mem).territory block inside, ?_⟩
  rintro ⟨here, also⟩
  exact apart (owned.apart w mem v here block inside also)

section

variable (alters : s.Alters live v s' live')
include alters

theorem SfsFs.Alters.kept (owned : s.Owned live) (mem : w ∈ live) (apart : w ≠ v) :
    ∀ block ∈ (s.fileAt w).territory, s'.vol.disk block = s.vol.disk block := by
  intro block inside
  obtain ⟨used, out⟩ := owned.outside mem apart inside
  exact alters.change.kept block used out

theorem SfsFs.Alters.vnodeAt (owned : s.Owned live) (mem : w ∈ live) (apart : w ≠ v) :
    s'.vnodeAt w = s.vnodeAt w := by
  have same := alters.others w apart
  cases found : s.find w with
  | some sv => rw [vnodeAt_of_find found, vnodeAt_of_find (same.trans found)]
  | none =>
    rw [vnodeAt_of_none found, vnodeAt_of_none (same.trans found),
      alters.kept owned mem apart w (owned.self mem)]

theorem SfsFs.Alters.fileAt (owned : s.Owned live) (mem : w ∈ live) (apart : w ≠ v) :
    s'.fileAt w = ⟨s'.vol, (s.fileAt w).sv⟩ := by
  rw [SfsFs.fileAt, alters.vnodeAt owned mem apart]
  rfl

theorem SfsFs.Alters.territory (owned : s.Owned live) (mem : w ∈ live) (apart : w ≠ v) :
    (s'.fileAt w).territory = (s.fileAt w).territory := by
  rw [alters.fileAt owned mem apart]
  exact territory_frame (alters.kept owned mem apart)

theorem SfsFs.Alters.owned (owned : s.Owned live) : s'.Owned live' where
  volume := alters.volume
  nodup := alters.nodup
  loaded w sv found := by
    by_cases here : w = v
    · exact here ▸ (alters.loaded sv (here ▸ found)).1
    · rw [alters.others w here] at found
      exact (alters.live w here).mpr (owned.loaded w sv found)
  held w sv found := by
    by_cases here : w = v
    · obtain ⟨_, least, most, _⟩ := alters.loaded sv (here ▸ found)
      exact ⟨least, most⟩
    · rw [alters.others w here] at found
      exact owned.held w sv found
  saved w sv found clean := by
    by_cases here : w = v
    · subst here
      exact (alters.loaded sv found).2.2.2 clean
    · rw [alters.others w here] at found
      have mem := owned.loaded w sv found
      rw [alters.kept owned mem here w (owned.self mem)]
      exact owned.saved w sv found clean
  sound w mem := by
    by_cases here : w = v
    · exact here ▸ alters.sound (here ▸ mem)
    · have prev := (alters.live w here).mp mem
      rw [alters.fileAt owned prev here]
      refine (owned.sound w prev).transport alters.volume alters.follows.nblocks rfl
        (blockAt_frame (alters.kept owned prev here)) ?_
      intro block inside
      obtain ⟨used, out⟩ := owned.outside prev here inside
      exact (alters.change.outside used out).1
  apart := by
    -- A block of the altered inode is none of another one.
    have clash (w : Word32) (here : w ≠ v) (mem : w ∈ live') (block : Word32)
        (inside : block ∈ (s'.fileAt w).territory) : block ∉ s'.share live' v := by
      have prev := (alters.live w here).mp mem
      rw [alters.territory owned prev here] at inside
      obtain ⟨used, out⟩ := owned.outside prev here inside
      exact (alters.change.outside used out).2
    intro a first b second block left right
    by_cases here : a = v <;> by_cases there : b = v
    · rw [here, there]
    · subst here
      exact absurd ⟨first, left⟩ (clash b there second block right)
    · subst there
      exact absurd ⟨second, right⟩ (clash a here first block left)
    · have one := (alters.live a here).mp first
      have two := (alters.live b there).mp second
      rw [alters.territory owned one here] at left
      rw [alters.territory owned two there] at right
      exact owned.apart a one b two block left right

theorem SfsFs.Alters.stray (owned : s.Owned live) : s'.stray live' = s.stray live := by
  ext block
  constructor
  · rintro ⟨used, none⟩
    have out : block ∉ s'.share live' v := fun ⟨mem, inside⟩ => none v mem inside
    obtain ⟨prev, apart⟩ := ((alters.change.marks block).mp used).resolve_right out
    refine ⟨prev, ?_⟩
    intro w mem inside
    by_cases here : w = v
    · exact apart ⟨here ▸ mem, here ▸ inside⟩
    · refine none w ((alters.live w here).mpr mem) ?_
      rw [alters.territory owned mem here]
      exact inside
  · rintro ⟨used, none⟩
    have out : block ∉ s.share live v := fun ⟨mem, inside⟩ => none v mem inside
    obtain ⟨after, apart⟩ := alters.change.outside used out
    refine ⟨after, ?_⟩
    intro w mem inside
    by_cases here : w = v
    · exact apart ⟨here ▸ mem, here ▸ inside⟩
    · have prev := (alters.live w here).mp mem
      rw [alters.territory owned prev here] at inside
      exact none w prev inside

end

theorem SfsFs.Alters.trans (first : s.Alters live v s' live') (second : s'.Alters live' v s'' live'') :
    s.Alters live v s'' live'' :=
  { second with
    change := first.change.trans second.change
    follows := first.follows.trans second.follows
    others w apart := (second.others w apart).trans (first.others w apart)
    live w apart := (second.live w apart).trans (first.live w apart) }

/-- The blocks that belong to no inode stay with what they hold, and there may be more of them. -/
structure SfsFs.Spares (s : SfsFs) (live : Set Word32) (s' : SfsFs) (live' : Set Word32) : Prop where
  stray : s.stray live ⊆ s'.stray live'
  disk : ∀ block ∈ s.stray live, s'.vol.disk block = s.vol.disk block
  follows : s.vol.Follows s'.vol

/-- No block gets lost, and those that belong to no inode stay with what they hold. -/
structure SfsFs.Keeps (s : SfsFs) (live : Set Word32) (s' : SfsFs) (live' : Set Word32) : Prop where
  stray : s'.stray live' = s.stray live
  disk : ∀ block ∈ s.stray live, s'.vol.disk block = s.vol.disk block
  follows : s.vol.Follows s'.vol

theorem SfsFs.Keeps.refl (s : SfsFs) (live : Set Word32) : s.Keeps live s live :=
  ⟨rfl, fun _ _ => rfl, .refl _⟩

theorem SfsFs.Keeps.trans (first : s.Keeps live s' live') (second : s'.Keeps live' s'' live'') :
    s.Keeps live s'' live'' where
  stray := second.stray.trans first.stray
  disk block mem := (second.disk block (first.stray.symm ▸ mem)).trans (first.disk block mem)
  follows := first.follows.trans second.follows

theorem SfsFs.Keeps.spares (keeps : s.Keeps live s' live') : s.Spares live s' live' :=
  ⟨keeps.stray.symm.subset, keeps.disk, keeps.follows⟩

theorem SfsFs.Alters.keeps (alters : s.Alters live v s' live') (owned : s.Owned live) :
    s.Keeps live s' live' where
  stray := alters.stray owned
  disk block mem := alters.change.kept block mem.1 fun inside => mem.2 v inside.1 inside.2
  follows := alters.follows

end

/-- Two files with the same blocks and the same bytes -/
structure SfsFile.Alike (f f' : SfsFile) : Prop where
  places : ∀ slot, f'.blockAt slot = f.blockAt slot
  content : f'.content = f.content
  size : f'.sv.inode.size = f.sv.inode.size
  type : f'.sv.inode.type = f.sv.inode.type

theorem SfsFile.Alike.territory {f : SfsFile} (alike : f.Alike f') : f'.territory = f.territory := by
  simp only [SfsFile.territory, alike.places]

theorem SfsFile.Alike.listing {f : SfsFile} (alike : f.Alike f') : f'.listing = f.listing :=
  listing_congr alike.content alike.size

theorem SfsFile.DirFile.alike {f f' : SfsFile} (dir : f.DirFile) (sound : f'.Sound) (alike : f.Alike f') :
    f'.DirFile where
  sound := sound
  type := alike.type.trans dir.type
  whole := by rw [alike.size, dir.whole]
  small := by
    rw [alike.size]
    exact dir.small
  mapped k below := by
    rw [alike.size] at below
    have taken := dir.mapped k below
    exact fun hole => taken ((alike.places (.data k)).symm.trans hole)

theorem SfsFile.alike_vnode (f : SfsFile) {sv : SfsVnode} (ino : sv.ino = f.sv.ino)
    (inode : sv.inode = { f.sv.inode with linkcount := sv.inode.linkcount }) : f.Alike ⟨f.vol, sv⟩ := by
  obtain ⟨_, inode', dirty, refcount, opencount⟩ := sv
  obtain rfl := ino
  simp only at inode
  rw [inode]
  refine ⟨?_, rfl, rfl, rfl⟩
  intro slot
  cases slot <;> rfl

theorem SfsFs.Alters.alike {s s' : SfsFs} {live live' : Set Word32} {v w : Word32}
    (alters : s.Alters live v s' live') (owned : s.Owned live) (mem : w ∈ live) (apart : w ≠ v) :
    (s.fileAt w).Alike (s'.fileAt w) := by
  rw [alters.fileAt owned mem apart]
  have kept := alters.kept owned mem apart
  exact ⟨blockAt_frame kept, content_frame kept, rfl, rfl⟩

/-- The file after its inode has been written -/
def SfsFile.synced (f : SfsFile) : SfsFile :=
  ⟨f.vol.put f.sv.ino f.sv.inode.encode, { f.sv with dirty := false }⟩

theorem SfsFile.Sound.synced_alike {f : SfsFile} (sound : f.Sound) : f.Alike f.synced := by
  have apart (slot : Slot) (taken : f.blockAt slot ≠ 0) (other : slot ≠ .self) :
      f.synced.vol.disk (f.blockAt slot) = f.vol.disk (f.blockAt slot) := by
    refine update_of_ne ?_ ..
    intro same
    exact other (sound.once (show _ = f.blockAt .self from same) taken)
  have places (slot : Slot) : f.synced.blockAt slot = f.blockAt slot := by
    cases slot with
    | self => rfl
    | indirect => rfl
    | data k =>
      simp only [SfsFile.blockAt]
      by_cases low : k < 15
      · rw [SfsFile.dataBlock, SfsFile.dataBlock, dif_pos low, dif_pos low]
        rfl
      · rw [dataBlock_high _ (by omega), dataBlock_high _ (by omega)]
        exact indirectEntry_congr (fun used => apart .indirect used (by decide)) k
  refine ⟨places, ?_, rfl, rfl⟩
  funext pos
  have same := places (.data (pos / 512))
  simp only [SfsFile.blockAt] at same
  simp only [SfsFile.content, same]
  by_cases hole : f.dataBlock (pos / 512) = 0
  · rw [if_pos hole, if_pos hole]
  · rw [if_neg hole, if_neg hole]
    exact congrFun (apart (.data (pos / 512)) hole (by simp)) _

section

variable {s : SfsFs} {live : Set Word32} {v : Word32} {sv : SfsVnode}

theorem SfsFs.put_find (found : s.find v = some sv) {f : SfsFile} (ino : f.sv.ino = v) :
    (s.put f).find v = some f.sv := by
  subst ino
  exact find_put_self found

theorem SfsFs.put_fileAt (found : s.find v = some sv) {f : SfsFile} (ino : f.sv.ino = v) :
    (s.put f).fileAt v = f := by
  rw [fileAt_of_find (put_find found ino)]
  rfl

theorem SfsFs.Owned.evolves (owned : s.Owned live) (found : s.find v = some sv)
    (evolves : SfsFile.Evolves ⟨s.vol, sv⟩ f') : s.Alters live v (s.put f') live := by
  have mem := owned.loaded v sv found
  have ino : f'.sv.ino = v := evolves.vnode.ino.trans (find_ino found)
  refine ⟨?_, evolves.sound.volume, evolves.follows, ?_, ?_, fun _ _ => .rfl, ?_, ?_⟩
  · rw [share_of_mem mem, share_of_mem mem, put_fileAt found ino,
      fileAt_of_find found]
    exact evolves.change
  · rw [s.put_inos]
    exact owned.nodup
  · intro w apart
    exact find_put_of_ne (ino ▸ apart)
  · intro sv' found'
    rw [put_find found ino] at found'
    cases found'
    obtain ⟨least, most⟩ := owned.held v sv found
    refine ⟨mem, ?_, ?_, ?_⟩
    · rw [evolves.vnode.refcount]
      exact least
    · rw [evolves.vnode.refcount, evolves.vnode.opencount]
      exact most
    · intro clean
      rcases evolves.vnode.saved with dirty | same
      · rw [dirty] at clean
        cases clean
      · have unwritten := evolves.unwritten
        rw [show sv.ino = v from find_ino found] at unwritten
        rw [same] at clean ⊢
        change Inode.decode (f'.vol.disk v) = sv.inode
        rw [unwritten]
        exact owned.saved v sv found clean
  · intro _
    rw [put_fileAt found ino]
    exact evolves.sound

theorem SfsFs.Owned.revise (owned : s.Owned live) (found : s.find v = some sv) {sv' : SfsVnode}
    (ino : sv'.ino = sv.ino) (inode : sv'.inode = { sv.inode with linkcount := sv'.inode.linkcount })
    (held : 1 ≤ sv'.refcount ∧ sv'.opencount ≤ sv'.refcount)
    (saved : sv'.dirty = false → sv.dirty = false ∧ sv'.inode = sv.inode) :
    s.Alters live v (s.put ⟨s.vol, sv'⟩) live ∧ (s.fileAt v).Alike ((s.put ⟨s.vol, sv'⟩).fileAt v) := by
  have mem := owned.loaded v sv found
  have here : (⟨s.vol, sv'⟩ : SfsFile).sv.ino = v := ino.trans (find_ino found)
  have alike : (s.fileAt v).Alike ((s.put ⟨s.vol, sv'⟩).fileAt v) := by
    rw [put_fileAt found here, fileAt_of_find found]
    exact alike_vnode ⟨s.vol, sv⟩ ino inode
  refine ⟨⟨?_, owned.volume, .refl _, ?_, ?_, fun _ _ => .rfl, ?_, ?_⟩, alike⟩
  · rw [share_of_mem mem, share_of_mem mem, alike.territory]
    exact .refl _ (owned.sound v mem).territory
  · rw [s.put_inos]
    exact owned.nodup
  · intro w apart
    exact find_put_of_ne (here ▸ apart)
  · intro other found'
    rw [put_find found here] at found'
    cases found'
    refine ⟨mem, held.1, held.2, ?_⟩
    intro clean
    obtain ⟨prev, same⟩ := saved clean
    exact (owned.saved v sv found prev).trans same.symm
  · intro _
    have sound := owned.sound v mem
    exact sound.transport owned.volume rfl ((vnodeAt_ino _ v).trans (vnodeAt_ino _ v).symm)
      alike.places sound.territory

theorem SfsFs.Owned.sync (owned : s.Owned live) (found : s.find v = some sv) :
    ∃ f', sfsSyncInode ⟨s.vol, sv⟩ = .ok f' ∧ f'.sv = { sv with dirty := false } ∧
      s.Alters live v (s.put f') live ∧ (s.fileAt v).Alike ((s.put f').fileAt v) := by
  have mem := owned.loaded v sv found
  have ino := find_ino found
  have sound := owned.sound v mem
  rw [fileAt_of_find found] at sound
  by_cases dirty : sv.dirty = true
  · have written := sound.volume.wblock (sound.below .self sound.self) sv.inode.encode
    have here : (SfsFile.synced ⟨s.vol, sv⟩).sv.ino = v := ino
    have alike := sound.synced_alike
    refine ⟨SfsFile.synced ⟨s.vol, sv⟩, ?_, rfl, ⟨?_, sound.volume.put _ _,
      (Volume.Follows.refl s.vol).disk _, ?_, ?_, fun _ _ => .rfl, ?_, ?_⟩, ?_⟩
    · rw [sfsSyncInode, if_pos dirty]
      exact congrArg (· >>= _) written
    · rw [share_of_mem mem, share_of_mem mem, put_fileAt found here,
        fileAt_of_find found, alike.territory]
      refine ⟨fun _ => .inl, (Change.refl s.vol.disk sound.territory).marks, ?_⟩
      intro block _ out
      refine update_of_ne ?_ ..
      rintro rfl
      exact out ⟨sound.self, .self, rfl⟩
    · rw [s.put_inos]
      exact owned.nodup
    · intro w other
      exact find_put_of_ne (here ▸ other)
    · intro other found'
      rw [put_find found here] at found'
      cases found'
      obtain ⟨least, most⟩ := owned.held v sv found
      refine ⟨mem, least, most, ?_⟩
      intro _
      change Inode.decode (update s.vol.disk sv.ino sv.inode.encode v) = sv.inode
      rw [ino, update_self, Inode.decode_encode]
    · intro _
      rw [put_fileAt found here]
      exact sound.transport (sound.volume.put _ _) rfl rfl alike.places sound.territory
    · rw [put_fileAt found here, fileAt_of_find found]
      exact alike
  · have clean : sv.dirty = false := by simpa using dirty
    have same : { sv with dirty := false } = sv := by rw [← clean]
    refine ⟨⟨s.vol, sv⟩, by rw [sfsSyncInode, if_neg dirty, pure_ok], same.symm, ?_⟩
    exact owned.revise found rfl rfl (owned.held v sv found) fun clean => ⟨clean, rfl⟩

theorem SfsFs.Owned.load (owned : s.Owned live) (mem : v ∈ live) (gone : s.find v = none)
    {sv : SfsVnode} (ino : sv.ino = v)
    (inode : sv.inode = { Inode.decode (s.vol.disk v) with type := sv.inode.type })
    (fresh : sv.refcount = 1 ∧ sv.opencount = 0)
    (saved : sv.dirty = false → sv.inode = .decode (s.vol.disk v)) :
    s.Alters live v (s.add sv) live ∧ (s.add sv).find v = some sv := by
  have here : (s.add sv).find v = some sv := by
    rw [find_add (ino ▸ gone), if_pos ino.symm]
  have places (slot : Slot) : ((s.add sv).fileAt v).blockAt slot = (s.fileAt v).blockAt slot := by
    rw [fileAt_of_find here, SfsFs.fileAt, vnodeAt_of_none gone]
    subst ino
    cases slot with
    | self => rfl
    | indirect =>
      change sv.inode.indirect = (Inode.decode (s.vol.disk sv.ino)).indirect
      rw [inode]
    | data k =>
      simp only [SfsFile.blockAt, SfsFile.dataBlock]
      rw [inode]
      rfl
  refine ⟨⟨?_, owned.volume, .refl _, ?_, ?_, fun _ _ => .rfl, ?_, ?_⟩, here⟩
  · have territory : ((s.add sv).fileAt v).territory = (s.fileAt v).territory := by
      simp only [SfsFile.territory, places]
    rw [share_of_mem mem, share_of_mem mem, territory]
    exact .refl _ (owned.sound v mem).territory
  · rw [SfsFs.add, map_append]
    refine nodup_append.mpr ⟨owned.nodup, nodup_singleton _, ?_⟩
    rintro _ inside _ single rfl
    obtain ⟨other, listed, same⟩ := mem_map.mp inside
    have missing := List.find?_eq_none.mp gone other listed
    rw [mem_singleton.mp single, ino] at same
    exact missing (by simpa using same)
  · intro w apart
    rw [find_add (ino ▸ gone), if_neg (ino ▸ apart)]
  · intro other found
    rw [here] at found
    cases found
    refine ⟨mem, by omega, by omega, ?_⟩
    intro clean
    exact (saved clean).symm
  · intro _
    have sound := owned.sound v mem
    exact sound.transport owned.volume rfl ((vnodeAt_ino _ v).trans (vnodeAt_ino _ v).symm)
      places sound.territory

theorem decode_zeroBlock : Inode.decode zeroBlock = ⟨0, 0, 0, fun _ => 0, 0⟩ := by
  simp only [Inode.decode, word_zeroBlock]
  decide

section

variable (owned : s.Owned live)
include owned

theorem SfsFs.Owned.grant (nonzero : block ≠ 0) (free : ¬ s.vol.Used block) (below : block < s.vol.nblocks) :
    block ∉ live ∧ s.find block = none ∧
      s.Alters live block { s with vol := s.vol.grant block } (insert block live) := by
  have dead : block ∉ live := fun mem => free ((owned.sound block mem).territory _ (owned.self mem))
  have gone : s.find block = none := by
    cases found : s.find block with
    | none => rfl
    | some sv => exact absurd (owned.loaded block sv found) dead
  have vnode : SfsFs.vnodeAt { s with vol := s.vol.grant block } block =
      ⟨block, ⟨0, 0, 0, fun _ => 0, 0⟩, false, 0, 0⟩ := by
    rw [vnodeAt_of_none (show SfsFs.find { s with vol := s.vol.grant block } block = none from gone),
      Volume.disk_grant, update_self, decode_zeroBlock]
  have bare : (SfsFs.fileAt { s with vol := s.vol.grant block } block).Bare := by
    rw [SfsFs.fileAt, vnode]
    exact ⟨fun _ => rfl, rfl⟩
  have ino := vnodeAt_ino { s with vol := s.vol.grant block } block
  have territory := bare.territory (ino.symm ▸ nonzero)
  rw [show (SfsFs.fileAt { s with vol := s.vol.grant block } block).sv.ino = block from ino] at territory
  have volume := owned.volume.grant block
  refine ⟨dead, gone, ⟨?_, volume, s.vol.follows_grant block, owned.nodup, fun _ _ => rfl, ?_, ?_, ?_⟩⟩
  · have prev : s.share live block = ∅ := by
      ext other
      simp [SfsFs.share, dead]
    rw [prev, share_of_mem (Set.mem_insert block live), territory]
    refine ⟨?_, ?_, ?_⟩
    · rintro _ rfl
      exact .inr free
    · intro other
      rw [s.vol.used_grant block other]
      simp [or_comm]
    · intro other used _
      refine update_of_ne ?_ ..
      rintro rfl
      exact free used
  · intro w apart
    simp [apart]
  · intro sv found
    rw [show SfsFs.find { s with vol := s.vol.grant block } block = none from gone] at found
    cases found
  · intro _
    refine bare.sound volume (ino.symm ▸ nonzero) (ino.symm ▸ below) ?_
    rw [show (SfsFs.fileAt { s with vol := s.vol.grant block } block).sv.ino = block from ino]
    exact (s.vol.used_grant block block).mpr (.inl rfl)

theorem SfsFs.Owned.forget (less : fewer ⊆ live) (loaded : ∀ v sv, s.find v = some sv → v ∈ fewer) :
    s.Owned fewer :=
  { owned with
    loaded := loaded
    sound v mem := owned.sound v (less mem)
    apart v first w second := owned.apart v (less first) w (less second) }

theorem SfsFs.Owned.drop_nodup (vol : Volume) (v : Word32) : ((s.drop vol v).vnodes.map SfsVnode.ino).Nodup :=
  owned.nodup.sublist (filter_sublist.map _)

theorem SfsFs.Owned.unload (found : s.find v = some sv) (clean : sv.dirty = false) :
    s.Alters live v (s.drop s.vol v) live ∧ (s.fileAt v).Alike ((s.drop s.vol v).fileAt v) ∧
      ((s.drop s.vol v).vnodeAt v).inode = sv.inode := by
  have mem := owned.loaded v sv found
  have gone : (s.drop s.vol v).find v = none := by rw [s.find_drop, if_pos rfl]
  have inode : ((s.drop s.vol v).vnodeAt v).inode = sv.inode := by
    rw [vnodeAt_of_none gone]
    exact owned.saved v sv found clean
  have alike : (s.fileAt v).Alike ((s.drop s.vol v).fileAt v) := by
    refine alike_vnode (s.fileAt v) ((vnodeAt_ino _ v).trans (vnodeAt_ino _ v).symm) ?_
    rw [inode, fileAt_of_find found]
  refine ⟨⟨?_, owned.volume, .refl _, owned.drop_nodup _ v, ?_, fun _ _ => .rfl, ?_, ?_⟩, alike, inode⟩
  · rw [share_of_mem mem, share_of_mem mem, alike.territory]
    exact .refl _ (owned.sound v mem).territory
  · intro w apart
    rw [s.find_drop, if_neg apart]
  · intro other impossible
    rw [gone] at impossible
    cases impossible
  · intro _
    have sound := owned.sound v mem
    exact sound.transport owned.volume rfl ((vnodeAt_ino _ v).trans (vnodeAt_ino _ v).symm)
      alike.places sound.territory

theorem SfsFs.Owned.discard (mem : v ∈ live) (bare : (s.fileAt v).Bare) :
    s.Alters live v (s.drop (s.vol.free v) v) (live \ {v}) := by
  have sound := owned.sound v mem
  have ino : (s.fileAt v).sv.ino = v := s.vnodeAt_ino v
  have territory := bare.territory sound.self
  have below := sound.below .self sound.self
  rw [ino] at territory
  rw [show (s.fileAt v).blockAt .self = v from ino] at below
  have frees := s.vol.frees_free v
  have inside : ∀ block, block = v → block ≠ 0 ∧ block < s.vol.nblocks := by
    rintro _ rfl
    exact ⟨ino ▸ sound.self, below⟩
  refine ⟨?_, frees.sound owned.volume inside, frees.follows, owned.drop_nodup _ v, ?_, ?_, ?_, ?_⟩
  · have after : (s.drop (s.vol.free v) v).share (live \ {v}) v = ∅ := by
      ext other
      simp [SfsFs.share]
    rw [after, share_of_mem mem, territory]
    refine ⟨fun _ impossible => impossible.elim, ?_, fun _ _ _ => rfl⟩
    intro block
    change (s.vol.free v).Used block ↔ _
    rw [frees.used]
    simp
  · intro w apart
    rw [s.find_drop, if_neg apart]
  · intro w apart
    simp [apart]
  · intro other impossible
    rw [s.find_drop, if_pos rfl] at impossible
    cases impossible
  · rintro ⟨_, impossible⟩
    exact absurd rfl impossible

end

end

end Os161.Sfs
