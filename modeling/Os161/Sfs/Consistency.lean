import Os161.Sfs.Ownership

namespace Os161.Sfs
open Word Outcome SlotMap Function List SfsFs BitVec Option

/-- The number of links that a directory gives to an inode. The root has one more. -/
def links (table : Table Name Word32) (v : Word32) : Nat :=
  refs table v + if v = rootLocation then 1 else 0

theorem links_bind (table : Table Name Word32) (name : Name) (v : Word32)
    (vacant : ∀ binding, table[slot]? ≠ some (some binding)) :
    links (place table slot (some (name, v))) = update (links table) v (links table v + 1) := by
  funext w
  rw [links, refs_bind table name v w vacant]
  by_cases same : w = v
  · subst same
    rw [update_self, if_pos rfl, links]
    omega
  · rw [update_of_ne same, if_neg (Ne.symm same)]
    rfl

variable {v : Word32}

theorem links_erase (bound : table[slot]? = some (some (name, v))) :
    links (place table slot none) = update (links table) v (links table v - 1) := by
  funext w
  have counted := refs_erase table bound w
  by_cases same : w = v
  · subst same
    rw [if_pos rfl] at counted
    rw [update_self, links, links]
    omega
  · rw [if_neg (Ne.symm same), Nat.add_zero] at counted
    rw [update_of_ne same, links, links, counted]

theorem links_pos (bound : some (name, v) ∈ table) :
    0 < links table v := Nat.lt_of_lt_of_le (refs_pos.mpr ⟨name, bound⟩) (Nat.le_add_right ..)

/-- The reference count and the open count of a vnode in the table -/
def SfsFs.held (s : SfsFs) (v : Word32) : Option (Nat × Nat) :=
  (s.find v).map fun sv => (sv.refcount, sv.opencount)

variable {s : SfsFs}

theorem SfsFs.find_of_held (held : s.held v = some counts) :
    ∃ sv, s.find v = some sv ∧ sv.refcount = counts.1 ∧ sv.opencount = counts.2 := by
  obtain ⟨sv, found, same⟩ := map_eq_some_iff.mp held
  exact ⟨sv, found, congrArg Prod.fst same, congrArg Prod.snd same⟩

theorem SfsFs.held_of_find (found : s.find v = some sv) :
    s.held v = some (sv.refcount, sv.opencount) := by rw [SfsFs.held, found, map_some]

theorem SfsFs.held_put (found : s.find v = some sv) {f : SfsFile} (ino : f.sv.ino = v) :
    (s.put f).held = update s.held v (some (f.sv.refcount, f.sv.opencount)) := by
  funext w
  by_cases here : w = v
  · subst here
    rw [update_self, held_of_find (put_find found ino)]
  · rw [update_of_ne here, SfsFs.held, find_put_of_ne (ino ▸ here), SfsFs.held]

/-- The counts of a vnode, which are zero outside of the table -/
def SfsFs.tally (s : SfsFs) (v : Word32) : Nat × Nat := (s.held v).getD (0, 0)

theorem SfsFs.tally_of_held (held : s.held v = some counts) :
    s.tally v = counts := by rw [SfsFs.tally, held, getD_some]

theorem SfsFs.tally_of_none (held : s.held v = none) : s.tally v = (0, 0) := by
  rw [SfsFs.tally, held, getD_none]

theorem SfsFs.tally_congr {s' : SfsFs} (held : s'.held = s.held) : s'.tally = s.tally := by
  funext v
  rw [SfsFs.tally, held, SfsFs.tally]

theorem SfsFs.tally_update {s' : SfsFs} (held : s'.held = update s.held v entry) :
    s'.tally = update s.tally v (entry.getD (0, 0)) := by
  funext w
  rw [SfsFs.tally, held]
  by_cases here : w = v
  · rw [here, update_self, update_self]
  · rw [update_of_ne here, update_of_ne here, SfsFs.tally]

/-- The directory and the link counts agree with the inodes of a set. `count` is what the link counts
are; it is `links` of the directory except in the middle of a call. -/
structure SfsFs.Inv (s : SfsFs) (live : Set Word32) (table : Table Name Word32) (count : Word32 → Nat) :
    Prop where
  owned : s.Owned live
  root : rootLocation ∈ live
  dir : (s.fileAt rootLocation).DirFile
  listing : (s.fileAt rootLocation).listing = table
  unique : Unique table
  named : ∀ name v, some (name, v) ∈ table → v ∈ live
  types : ∀ v ∈ live, v ≠ rootLocation → (s.vnodeAt v).inode.type = typeFile
  counts : ∀ v ∈ live, (s.vnodeAt v).inode.linkcount.toNat = count v
  settled : ∀ v ∈ live, v = rootLocation ∨ s.held v ≠ none ∨ ∃ name, some (name, v) ∈ table

section

variable {s s' : SfsFs} {live live' : Set Word32} {table table' : Table Name Word32}
  {count count' : Word32 → Nat} {v : Word32} {sv : SfsVnode}

/-- What has to be shown when one inode alters. -/
theorem SfsFs.Inv.alters (inv : s.Inv live table count) (alters : s.Alters live v s' live')
    (root : rootLocation ∈ live') (dir : (s'.fileAt rootLocation).DirFile)
    (listing : (s'.fileAt rootLocation).listing = table') (unique : Unique table')
    (named : ∀ name w, some (name, w) ∈ table' → w ∈ live')
    (here : v ∈ live' → (v ≠ rootLocation → (s'.vnodeAt v).inode.type = typeFile) ∧
      (s'.vnodeAt v).inode.linkcount.toNat = count' v)
    (others : ∀ w, w ≠ v → count' w = count w)
    (settled : ∀ w ∈ live', w = rootLocation ∨ s'.held w ≠ none ∨ ∃ name, some (name, w) ∈ table') :
    s'.Inv live' table' count' where
  owned := alters.owned inv.owned
  root := root
  dir := dir
  listing := listing
  unique := unique
  named := named
  types w mem apart := by
    by_cases same : w = v
    · subst same
      exact (here mem).1 apart
    · have prev := (alters.live w same).mp mem
      rw [alters.vnodeAt inv.owned prev same]
      exact inv.types w prev apart
  counts w mem := by
    by_cases same : w = v
    · subst same
      exact (here mem).2
    · have prev := (alters.live w same).mp mem
      rw [alters.vnodeAt inv.owned prev same, others w same]
      exact inv.counts w prev
  settled := settled

theorem SfsFs.Alters.held (alters : s.Alters live v s' live') (apart : w ≠ v) :
    s'.held w = s.held w := by rw [SfsFs.held, alters.others w apart, SfsFs.held]

section

variable (inv : s.Inv live table count)
include inv

theorem SfsFs.Inv.fileType (mem : v ∈ live) :
    (s.vnodeAt v).inode.type = if v = rootLocation then typeDir else typeFile := by
  split
  · rename_i same
    subst same
    exact inv.dir.type
  · exact inv.types v mem ‹_›

theorem SfsFs.Inv.touch (mem : v ∈ live) (alters : s.Alters live v s' live)
    (alike : (s.fileAt v).Alike (s'.fileAt v)) (counted : (s'.vnodeAt v).inode.linkcount.toNat = count' v)
    (others : ∀ w, w ≠ v → count' w = count w)
    (settled : v = rootLocation ∨ s'.held v ≠ none ∨ ∃ name, some (name, v) ∈ table) :
    s'.Inv live table count' := by
  have same : (s.fileAt rootLocation).Alike (s'.fileAt rootLocation) := by
    by_cases here : rootLocation = v
    · subst here
      exact alike
    · exact alters.alike inv.owned inv.root here
  have sound := (alters.owned inv.owned).sound rootLocation inv.root
  refine inv.alters alters inv.root (inv.dir.alike sound same) (same.listing.trans inv.listing) inv.unique
    inv.named ?_ others ?_
  · intro _
    exact ⟨fun apart => alike.type.trans (inv.types v mem apart), counted⟩
  · intro w inside
    by_cases here : w = v
    · subst here
      exact settled
    · rw [alters.held here]
      exact inv.settled w inside

theorem SfsFs.Inv.evolve_file (found : s.find v = some sv) (file : v ≠ rootLocation)
    (evolves : SfsFile.Evolves ⟨s.vol, sv⟩ f') :
    (s.put f').Inv live table count ∧ s.Alters live v (s.put f') live ∧ (s.put f').held = s.held := by
  have mem := inv.owned.loaded v sv found
  have alters := inv.owned.evolves found evolves
  have ino : f'.sv.ino = v := evolves.vnode.ino.trans (find_ino found)
  have vnode : (s.put f').vnodeAt v = f'.sv := vnodeAt_of_find (put_find found ino)
  have prev : s.vnodeAt v = sv := vnodeAt_of_find found
  have same := alters.alike inv.owned inv.root (Ne.symm file)
  have held : (s.put f').held = s.held := by
    rw [held_put found ino, evolves.vnode.refcount, evolves.vnode.opencount,
      ← held_of_find found, update_eq_self]
  refine ⟨inv.alters alters inv.root ?_ (same.listing.trans inv.listing) inv.unique inv.named ?_
    (fun _ _ => rfl) ?_, alters, held⟩
  · exact inv.dir.alike ((alters.owned inv.owned).sound rootLocation inv.root) same
  · intro _
    have type := inv.types v mem file
    have counted := inv.counts v mem
    rw [prev] at type counted
    rw [vnode, evolves.vnode.type, evolves.vnode.linkcount]
    exact ⟨fun _ => type, counted⟩
  · rw [held]
    exact inv.settled

theorem SfsFs.Inv.evolve_root (found : s.find rootLocation = some sv)
    (evolves : SfsFile.Evolves ⟨s.vol, sv⟩ f') (dir : f'.DirFile) (listing : f'.listing = table')
    (unique : Unique table') (named : ∀ name w, some (name, w) ∈ table' → w ∈ live)
    (settled : ∀ w ∈ live, w = rootLocation ∨ s.held w ≠ none ∨ ∃ name, some (name, w) ∈ table') :
    (s.put f').Inv live table' count ∧ s.Alters live rootLocation (s.put f') live ∧
      (s.put f').held = s.held := by
  have alters := inv.owned.evolves found evolves
  have ino : f'.sv.ino = rootLocation := evolves.vnode.ino.trans (find_ino found)
  have file := put_fileAt found ino
  have held : (s.put f').held = s.held := by
    rw [held_put found ino, evolves.vnode.refcount, evolves.vnode.opencount,
      ← held_of_find found, update_eq_self]
  refine ⟨inv.alters alters inv.root (file.symm ▸ dir) (file.symm ▸ listing) unique named ?_
    (fun _ _ => rfl) (by rw [held]; exact settled), alters, held⟩
  intro _
  have counted := inv.counts rootLocation inv.root
  rw [vnodeAt_of_find found] at counted
  rw [vnodeAt_of_find (put_find found ino), evolves.vnode.linkcount]
  exact ⟨fun apart => absurd rfl apart, counted⟩

end

theorem SfsFs.Owned.put_self (owned : s.Owned live) (found : s.find v = some sv) : s.put ⟨s.vol, sv⟩ = s := by
  obtain ⟨vol, vnodes⟩ := s
  have listed : sv ∈ vnodes := mem_of_find?_eq_some found
  have same : (vnodes.map fun other => if other.ino = sv.ino then sv else other) = vnodes := by
    refine (map_congr_left fun other mem => ?_).trans (map_id _)
    split
    · exact (inj_on_of_nodup_map owned.nodup mem listed ‹_›).symm
    · rfl
  exact congrArg (SfsFs.mk vol) same

theorem SfsFs.Owned.alters_refl (owned : s.Owned live) (found : s.find v = some sv) :
    s.Alters live v s live := by
  have sound := owned.sound v (owned.loaded v sv found)
  rw [fileAt_of_find found] at sound
  have alters := owned.evolves found (.refl sound)
  rwa [owned.put_self found] at alters

end

section

variable {s : SfsFs} {live : Set Word32} {table : Table Name Word32} {count : Word32 → Nat} {v : Word32}
  {sv : SfsVnode}

theorem SfsFs.Inv.reference (inv : s.Inv live table count) (found : s.find v = some sv) {sv' : SfsVnode}
    (ino : sv'.ino = sv.ino) (inode : sv'.inode = sv.inode) (dirty : sv'.dirty = sv.dirty)
    (held : 1 ≤ sv'.refcount ∧ sv'.opencount ≤ sv'.refcount) :
    (s.put ⟨s.vol, sv'⟩).Inv live table count ∧
      s.Alters live v (s.put ⟨s.vol, sv'⟩) live ∧
      (s.put ⟨s.vol, sv'⟩).held = update s.held v (some (sv'.refcount, sv'.opencount)) := by
  have mem := inv.owned.loaded v sv found
  have here : (⟨s.vol, sv'⟩ : SfsFile).sv.ino = v := ino.trans (find_ino found)
  obtain ⟨alters, alike⟩ := inv.owned.revise found ino (by rw [inode]) held fun clean =>
    ⟨dirty ▸ clean, inode⟩
  have counted := inv.counts v mem
  rw [vnodeAt_of_find found] at counted
  refine ⟨inv.touch mem alters alike ?_ (fun _ _ => rfl) ?_, alters,
    held_put found here⟩
  · rw [vnodeAt_of_find (put_find found here)]
    exact inode ▸ counted
  · rw [held_put found here, update_self]
    exact .inr (.inl nofun)

variable {counts : Nat × Nat}

section

variable (inv : s.Inv live table count)
include inv

theorem SfsFs.Inv.incref (held : s.held v = some counts) :
    ∃ s', vnodeIncref s v = .ok s' ∧ s'.Inv live table count ∧ s.Alters live v s' live ∧
      s'.held = update s.held v (some (counts.1 + 1, counts.2)) ∧ s'.vol = s.vol := by
  obtain ⟨sv, found, refs, opens⟩ := find_of_held held
  obtain ⟨_, most⟩ := inv.owned.held v sv found
  have kept := inv.reference found (show (sv.setRefcount (sv.refcount + 1)).ino = sv.ino from rfl) rfl rfl
    ⟨Nat.succ_le_succ (Nat.zero_le _), Nat.le_succ_of_le most⟩
  refine ⟨_, by rw [vnodeIncref, SfsFs.modify, file_eq found, ok_bind, pure_ok], kept.1, kept.2.1, ?_, rfl⟩
  rw [← refs, ← opens]
  exact kept.2.2

theorem SfsFs.Inv.incopen (held : s.held v = some counts) (spare : counts.2 < counts.1) :
    ∃ s', vnodeIncopen s v = .ok s' ∧ s'.Inv live table count ∧ s.Alters live v s' live ∧
      s'.held = update s.held v (some (counts.1, counts.2 + 1)) := by
  obtain ⟨sv, found, refs, opens⟩ := find_of_held held
  obtain ⟨least, _⟩ := inv.owned.held v sv found
  have kept := inv.reference found (show (sv.setOpencount (sv.opencount + 1)).ino = sv.ino from rfl) rfl rfl
    ⟨least, by simp only [SfsVnode.setOpencount]; omega⟩
  refine ⟨_, by rw [vnodeIncopen, SfsFs.modify, file_eq found, ok_bind, pure_ok], kept.1, kept.2.1, ?_⟩
  rw [← refs, ← opens]
  exact kept.2.2

theorem SfsFs.Inv.sync (found : s.find v = some sv) :
    ∃ f', sfsSyncInode ⟨s.vol, sv⟩ = .ok f' ∧ f'.sv = { sv with dirty := false } ∧
      (s.put f').Inv live table count ∧ s.Alters live v (s.put f') live ∧
      (s.put f').held = s.held ∧ (s.fileAt v).Alike ((s.put f').fileAt v) := by
  have mem := inv.owned.loaded v sv found
  obtain ⟨f', synced, vnode, alters, alike⟩ := inv.owned.sync found
  have ino : f'.sv.ino = v := by
    rw [vnode]
    exact show sv.ino = v from find_ino found
  have held : (s.put f').held = s.held := by
    rw [held_put found ino, vnode, ← held_of_find found, update_eq_self]
  have counted := inv.counts v mem
  rw [vnodeAt_of_find found] at counted
  refine ⟨f', synced, vnode, inv.touch mem alters alike ?_ (fun _ _ => rfl) ?_, alters,
    held, alike⟩
  · rw [vnodeAt_of_find (put_find found ino), vnode]
    exact counted
  · rw [held]
    exact inv.settled v mem

theorem SfsFs.Inv.decopen (held : s.held v = some counts) (opened : 0 < counts.2) :
    ∃ s', vnodeDecopen s v = .ok s' ∧ s'.Inv live table count ∧ s.Alters live v s' live ∧
      s'.held = update s.held v (some (counts.1, counts.2 - 1)) := by
  obtain ⟨sv, found, refs, opens⟩ := find_of_held held
  obtain ⟨least, most⟩ := inv.owned.held v sv found
  have asserted : 0 < sv.opencount := opens ▸ opened
  have ino := find_ino found
  obtain ⟨kept, alters, counted⟩ := inv.reference found
    (show (sv.setOpencount (sv.opencount - 1)).ino = sv.ino from rfl) rfl rfl
    ⟨least, by simp only [SfsVnode.setOpencount]; omega⟩
  have found' : (s.put ⟨s.vol, sv.setOpencount (sv.opencount - 1)⟩).find v =
      some (sv.setOpencount (sv.opencount - 1)) :=
    put_find found (show (⟨s.vol, sv.setOpencount (sv.opencount - 1)⟩ : SfsFile).sv.ino = v from ino)
  rw [← refs, ← opens]
  by_cases more : 0 < (sv.setOpencount (sv.opencount - 1)).opencount
  · refine ⟨_, ?_, kept, alters, counted⟩
    simp only [vnodeDecopen, file_eq found, ok_bind, kassert_ok.mpr asserted, if_pos more, pure_ok]
  · obtain ⟨f', synced, vnode, kept', alters', held', _⟩ := kept.sync found'
    have same : f'.sv.ino = v := by
      rw [vnode]
      exact ino
    have once : (s.put ⟨s.vol, sv.setOpencount (sv.opencount - 1)⟩).put f' = s.put f' :=
      s.put_put (same.trans ino.symm)
    rw [once] at kept' alters' held'
    refine ⟨s.put f', ?_, kept', alters.trans alters', held'.trans counted⟩
    simp only [vnodeDecopen, file_eq found, ok_bind, kassert_ok.mpr asserted, if_neg more]
    exact congrArg (· >>= _) synced

theorem SfsFs.Inv.relink (found : s.find v = some sv) (number : BitVec 16) :
    (s.put ⟨s.vol, sv.setLinkcount number⟩).Inv live table (update count v number.toNat) ∧
      s.Alters live v (s.put ⟨s.vol, sv.setLinkcount number⟩) live ∧
      (s.put ⟨s.vol, sv.setLinkcount number⟩).held = s.held := by
  have mem := inv.owned.loaded v sv found
  have here : (⟨s.vol, sv.setLinkcount number⟩ : SfsFile).sv.ino = v :=
    show sv.ino = v from find_ino found
  obtain ⟨alters, alike⟩ := inv.owned.revise found (show (sv.setLinkcount number).ino = sv.ino from rfl) rfl
    (inv.owned.held v sv found) (fun clean => by cases clean)
  have held : (s.put ⟨s.vol, sv.setLinkcount number⟩).held = s.held := by
    rw [held_put found here]
    exact (congrArg (update s.held v) (held_of_find found).symm).trans
      (update_eq_self ..)
  refine ⟨inv.touch mem alters alike ?_ (fun w apart => update_of_ne apart ..) ?_,
    alters, held⟩
  · rw [vnodeAt_of_find (put_find found here), update_self]
    rfl
  · rw [held]
    exact inv.settled v mem

theorem SfsFs.Inv.links_le (w : Word32) : links table w ≤ 1145 := by
  have small := inv.dir.small
  have len : table.length ≤ 1144 := by
    rw [← inv.listing, SfsFile.listing_length]
    omega
  have most := refs_le_length table w
  rw [links]
  split <;> omega

theorem SfsFs.Inv.addLink (held : s.held v = some counts) (small : count v ≤ 1145) :
    ∃ s', addLink s v = .ok s' ∧ s'.Inv live table (update count v (count v + 1)) ∧
      s.Alters live v s' live ∧ s'.held = s.held := by
  obtain ⟨sv, found, _⟩ := find_of_held held
  have counted := inv.counts v (inv.owned.loaded v sv found)
  rw [vnodeAt_of_find found] at counted
  have number : (sv.inode.linkcount + 1).toNat = count v + 1 := by
    rw [toNat_add, counted]
    change (count v + 1) % 2 ^ 16 = count v + 1
    omega
  have kept := inv.relink found (sv.inode.linkcount + 1)
  rw [number] at kept
  exact ⟨_, by rw [Sfs.addLink, SfsFs.modify, file_eq found, ok_bind, pure_ok], kept⟩

theorem SfsFs.Inv.dropLink (held : s.held v = some counts) (linked : 0 < count v) (text : String) :
    ∃ s', dropLink s v text = .ok s' ∧ s'.Inv live table (update count v (count v - 1)) ∧
      s.Alters live v s' live ∧ s'.held = s.held := by
  obtain ⟨sv, found, _⟩ := find_of_held held
  have counted := inv.counts v (inv.owned.loaded v sv found)
  rw [vnodeAt_of_find found] at counted
  have pos : 0 < sv.inode.linkcount := by
    rw [lt_def, counted]
    exact linked
  have number : (sv.inode.linkcount - 1).toNat = count v - 1 := by
    have width := sv.inode.linkcount.isLt
    rw [toNat_sub, counted]
    change (2 ^ 16 - 1 + count v) % 2 ^ 16 = count v - 1
    omega
  have kept := inv.relink found (sv.inode.linkcount - 1)
  rw [number] at kept
  refine ⟨_, ?_, kept⟩
  simp only [Sfs.dropLink, file_eq found, ok_bind, kassert_ok.mpr pos, pure_ok]

end

end

section

variable {s : SfsFs} {live : Set Word32} {table : Table Name Word32} {count : Word32 → Nat} {v : Word32}

theorem SfsFs.Owned.bused (owned : s.Owned live) (mem : v ∈ live) : sfsBused s.vol v = .ok true := by
  have sound := owned.sound v mem
  have ino : (s.fileAt v).blockAt .self = v := s.vnodeAt_ino v
  have below := sound.below .self sound.self
  have used := sound.used .self sound.self
  rw [ino] at below used
  have marked : s.vol.freemap.bits v.toNat = true := used
  rw [owned.volume.bused below, marked]

theorem searchVnodes_eq {vol : Volume} {vnodes : List SfsVnode}
    (used : ∀ sv ∈ vnodes, sfsBused vol sv.ino = .ok true) (v : Word32) :
    searchVnodes vol v vnodes = .ok (vnodes.find? fun sv => sv.ino = v).isSome := by
  induction vnodes with
  | nil => rfl
  | cons sv rest ih =>
    have later := ih fun other mem => used other (mem_cons_of_mem sv mem)
    rw [searchVnodes, used sv mem_cons_self, ok_bind]
    by_cases same : sv.ino = v
    · simp [same]
    · simp [same, later]

theorem SfsFs.Owned.search (owned : s.Owned live) (v : Word32) :
    searchVnodes s.vol v s.vnodes = .ok (s.find v).isSome := by
  refine searchVnodes_eq ?_ v
  intro sv mem
  refine owned.bused ?_
  cases found : s.find sv.ino with
  | none =>
    have missing := List.find?_eq_none.mp found sv mem
    simp at missing
  | some other => exact owned.loaded _ other found

theorem SfsFs.Inv.load (inv : s.Inv live table count) (mem : v ∈ live) (memory : Memory) :
    (∃ s' counts, sfsLoadvnode s v typeInval memory = .ok (0, s') ∧ s'.Inv live table count ∧
        s.Alters live v s' live ∧ s'.held = update s.held v (some counts) ∧
        counts = ((s.tally v).1 + 1, (s.tally v).2) ∧ counts.2 < counts.1 ∧ s'.vol = s.vol) ∨
      sfsLoadvnode s v typeInval memory = .ok (eNoMem, s) ∧ s.held v = none ∧
        (memory.vnode = false ∨ memory.table = false) := by
  unfold sfsLoadvnode
  rw [inv.owned.search v, ok_bind]
  cases found : s.find v with
  | some sv =>
    obtain ⟨_, most⟩ := inv.owned.held v sv found
    have counted := held_of_find found
    obtain ⟨s', done, kept, alters, held, vol⟩ := inv.incref counted
    refine .inl ⟨s', _, ?_, kept, alters, held, by rw [tally_of_held counted], Nat.lt_succ_of_le most, vol⟩
    simp only [isSome_some, if_true, kassert_ok.mpr, ok_bind, done, pure_ok]
  | none =>
    have unloaded : s.held v = none := by rw [SfsFs.held, found, map_none]
    simp only [loadFresh]
    by_cases first : memory.vnode = false
    · rw [if_pos first, pure_ok]
      exact .inr ⟨rfl, unloaded, .inl first⟩
    have sound := inv.owned.sound v mem
    have ino : (s.fileAt v).blockAt .self = v := s.vnodeAt_ino v
    have below := sound.below .self sound.self
    rw [ino] at below
    have vnode := vnodeAt_of_none found
    have type := inv.fileType mem
    rw [vnode] at type
    have valid : ¬ ((SfsVnode.fresh v (.decode (s.vol.disk v)) false).inode.type ≠ typeFile ∧
        (SfsVnode.fresh v (.decode (s.vol.disk v)) false).inode.type ≠ typeDir) := by
      rintro ⟨file, dir⟩
      split at type
      · exact dir type
      · exact file type
    have forced : forceType (.fresh v (.decode (s.vol.disk v)) false) typeInval =
        .ok (.fresh v (.decode (s.vol.disk v)) false) := rfl
    simp only [if_neg first, inv.owned.bused mem, ok_bind, inv.owned.volume.rblock below, forced,
      if_neg valid]
    by_cases second : memory.table = false
    · rw [if_pos second]
      exact .inr ⟨rfl, unloaded, .inr second⟩
    rw [if_neg second]
    obtain ⟨alters, here⟩ := inv.owned.load mem found
      (show (SfsVnode.fresh v (.decode (s.vol.disk v)) false).ino = v from rfl) rfl ⟨rfl, rfl⟩ fun _ => rfl
    have held : (s.add (.fresh v (.decode (s.vol.disk v)) false)).held =
        update s.held v (some (1, 0)) := by
      funext w
      by_cases same : w = v
      · rw [same, update_self, held_of_find here]
        rfl
      · rw [update_of_ne same, alters.held same]
    have alike : (s.fileAt v).Alike ((s.add (.fresh v (.decode (s.vol.disk v)) false)).fileAt v) := by
      rw [fileAt_of_find here, SfsFs.fileAt, vnode]
      exact SfsFile.alike_vnode ⟨s.vol, ⟨v, .decode (s.vol.disk v), false, 0, 0⟩⟩ rfl rfl
    have counted := inv.counts v mem
    rw [vnode] at counted
    refine .inl ⟨_, (1, 0), rfl, inv.touch mem alters alike ?_ (fun _ _ => rfl) ?_,
      alters, held, by rw [tally_of_none unloaded], Nat.one_pos, rfl⟩
    · rw [vnodeAt_of_find here]
      exact counted
    · rw [held]
      exact .inr (.inl (by simp))

/-- The vnode of a file that has just been created -/
def newFile (ino : Word32) : SfsVnode := .fresh ino ⟨0, typeFile, 0, fun _ => 0, 0⟩ true

/-- How `sfs_makeobj` ends: with a new file that is not yet linked, or with an error. Without memory for
its vnode the block of the inode is lost. -/
inductive MakeobjEnd (s : SfsFs) (live : Set Word32) (table : Table Name Word32) (memory : Memory) :
    Except Errno Word32 → SfsFs → Prop where
  | full (full : s.vol.vacant = ∅) : MakeobjEnd s live table memory (.error File.eNoSpc) s
  | lost {s' : SfsFs} {ino : Word32} (exhausted : memory.vnode = false ∨ memory.table = false)
      (free : ino ∈ s.vol.vacant) (vol : s'.vol = s.vol.grant ino) (inv : s'.Inv live table (links table))
      (alters : s.Alters live ino s' (insert ino live)) (held : s'.held = s.held) :
      MakeobjEnd s live table memory (.error eNoMem) s'
  | done {s' : SfsFs} {ino : Word32} (plenty : memory.vnode = true ∧ memory.table = true)
      (fresh : ino ∉ live) (free : ino ∈ s.vol.vacant)
      (vol : s'.vol = s.vol.grant ino)
      (inv : s'.Inv (insert ino live) table (links table))
      (alters : s.Alters live ino s' (insert ino live))
      (held : s'.held = update s.held ino (some (1, 0))) : MakeobjEnd s live table memory (.ok ino) s'

theorem SfsFs.Inv.makeobj (inv : s.Inv live table (links table)) (memory : Memory) :
    ∃ res s', sfsMakeobj s typeFile memory = .ok (res, s') ∧
      MakeobjEnd s live table memory res s' := by
  unfold sfsMakeobj
  rcases inv.owned.volume.balloc with ⟨refused, full⟩ | ⟨block, granted, nonzero, free, below⟩
  · simp only [refused, pure_ok]
    exact ⟨_, _, rfl, .full full⟩
  obtain ⟨dead, gone, alters⟩ := inv.owned.grant nonzero free below
  have owned := alters.owned inv.owned
  have mem : block ∈ insert block live := Set.mem_insert block live
  have apart : rootLocation ≠ block := fun same => dead (same ▸ inv.root)
  have same := alters.alike inv.owned inv.root apart
  have unnamed (name : Name) : some (name, block) ∉ table := fun bound => dead (inv.named name block bound)
  have none : links table block = 0 := by
    have zero : ¬ 0 < refs table block := fun pos => by
      obtain ⟨name, bound⟩ := refs_pos.mp pos
      exact unnamed name bound
    rw [links, if_neg (Ne.symm apart)]
    omega
  have block' : Inode.decode ((s.vol.grant block).disk block) = ⟨0, 0, 0, fun _ => 0, 0⟩ := by
    rw [Volume.disk_grant, update_self, decode_zeroBlock]
  -- The block is granted before the vnode is there, so that a failure now loses it.
  have leaked : SfsFs.Inv { s with vol := s.vol.grant block } live table (links table) := by
    refine ⟨owned.forget (Set.subset_insert block live) inv.owned.loaded, inv.root, ?_, ?_, inv.unique,
      inv.named, ?_, ?_, inv.settled⟩
    · exact inv.dir.alike (owned.sound _ (.inr inv.root)) same
    · exact same.listing.trans inv.listing
    · intro w alive file
      rw [alters.vnodeAt inv.owned alive (fun equal => dead (equal ▸ alive))]
      exact inv.types w alive file
    · intro w alive
      rw [alters.vnodeAt inv.owned alive (fun equal => dead (equal ▸ alive))]
      exact inv.counts w alive
  simp only [granted, ok_bind, sfsLoadvnode, owned.search block]
  rw [show SfsFs.find { s with vol := s.vol.grant block } block = Option.none from gone]
  simp only [loadFresh]
  by_cases first : memory.vnode = false
  · simp only [if_pos first, pure_ok]
    exact ⟨_, _, rfl, .lost (.inl first) ⟨below, free⟩ rfl leaked alters rfl⟩
  have used : sfsBused (s.vol.grant block) block = .ok true := owned.bused mem
  have read : sfsRblock (s.vol.grant block) block = .ok ((s.vol.grant block).disk block) :=
    owned.volume.rblock below
  have forced : forceType (.fresh block (.decode ((s.vol.grant block).disk block)) false) typeFile =
      .ok (newFile block) := by
    rw [block']
    rfl
  have valid : ¬ ((newFile block).inode.type ≠ typeFile ∧ (newFile block).inode.type ≠ typeDir) :=
    fun both => both.1 rfl
  simp only [if_neg first, used, ok_bind, if_true, read, forced]
  by_cases second : memory.table = false
  · simp only [if_pos second, pure_ok]
    exact ⟨_, _, rfl, .lost (.inr second) ⟨below, free⟩ rfl leaked alters rfl⟩
  simp only [if_neg second, pure_ok, ne_eq]
  obtain ⟨loads, here⟩ := owned.load mem gone (show (newFile block).ino = block from rfl)
    (by rw [block']; rfl) ⟨rfl, rfl⟩ fun clean => by cases clean
  have again := loads.alike owned (.inr inv.root) apart
  have held : (SfsFs.add { s with vol := s.vol.grant block } (newFile block)).held =
      update s.held block (some (1, 0)) := by
    funext w
    by_cases equal : w = block
    · rw [equal, update_self, held_of_find here]
      rfl
    · rw [update_of_ne equal, loads.held equal]
      exact alters.held equal
  refine ⟨_, _, rfl, .done ⟨by simpa using first, by simpa using second⟩ dead ⟨below, free⟩ rfl
    ⟨loads.owned owned, .inr inv.root, ?_, ?_, inv.unique, ?_, ?_, ?_, ?_⟩ (alters.trans loads) held⟩
  · refine (inv.dir.alike (owned.sound _ (.inr inv.root)) same).alike ?_ again
    exact (loads.owned owned).sound _ (.inr inv.root)
  · exact again.listing.trans (same.listing.trans inv.listing)
  · intro name w bound
    exact .inr (inv.named name w bound)
  · intro w alive file
    by_cases equal : w = block
    · subst equal
      rw [vnodeAt_of_find here]
      rfl
    · have prev := (alters.live w equal).mp alive
      rw [loads.vnodeAt owned alive equal, alters.vnodeAt inv.owned prev equal]
      exact inv.types w prev file
  · intro w alive
    by_cases equal : w = block
    · subst equal
      rw [vnodeAt_of_find here, none]
      rfl
    · have prev := (alters.live w equal).mp alive
      rw [loads.vnodeAt owned alive equal, alters.vnodeAt inv.owned prev equal]
      exact inv.counts w prev
  · intro w alive
    by_cases equal : w = block
    · subst equal
      rw [held_of_find here]
      exact .inr (.inl nofun)
    · rw [loads.held equal]
      exact inv.settled w ((alters.live w equal).mp alive)

end

section

variable {s : SfsFs} {live : Set Word32} {table : Table Name Word32} {count : Word32 → Nat} {v : Word32}
  {sv : SfsVnode}

/-- Why a directory has no room for one more name when some of the vacant blocks are taken before. -/
inductive SfsFile.Cramped (f : SfsFile) (taken : Nat) : Errno → Prop where
  | spent (few : f.vol.vacant.ncard < taken) : Cramped f taken File.eNoSpc
  | full (crowded : none ∉ f.listing) (small : f.sv.inode.size.toNat < 143 * 512)
      (hole : f.dataBlock (f.sv.inode.size.toNat / 512) = 0)
      (few : f.vol.vacant.ncard < taken +
        if 15 ≤ f.sv.inode.size.toNat / 512 ∧ f.blockAt .indirect = 0 then 2 else 1) :
      Cramped f taken File.eNoSpc
  | big (crowded : none ∉ f.listing) (most : f.sv.inode.size.toNat = 143 * 512) : Cramped f taken eFbig

theorem SfsFile.DirFile.cramped {f : SfsFile} (dir : f.DirFile) (crowded : none ∉ f.listing)
    (refused : Refused f (f.sv.inode.size.toNat / 512) code f') : f.Cramped 0 code := by
  have most := dir.small
  obtain ⟨hole, unmapped⟩ := refused
  cases unmapped with
  | big beyond => exact .big crowded (by omega)
  | full small full =>
    refine .full crowded (by omega) hole ?_
    rw [full, Set.ncard_empty]
    split <;> omega
  | @stranded block _ high small adds full =>
    refine .full crowded (by omega) hole ?_
    rw [if_pos ⟨high, adds.vacant⟩]
    -- The indirect block was the only vacant one.
    have only : f.vol.vacant ⊆ {block} := by
      intro other vacant
      by_contra apart
      have used := (adds.used other).not.mpr (not_or.mpr ⟨apart, vacant.2⟩)
      have same : f'.vol.nblocks = f.vol.nblocks := by rw [adds.volume]; rfl
      exact Set.eq_empty_iff_forall_notMem.mp full other ⟨same ▸ vacant.1, used⟩
    have most := Set.ncard_le_ncard only
    rw [Set.ncard_singleton] at most
    omega

theorem SfsFile.Cramped.alike {f f' : SfsFile} (cramped : f'.Cramped taken code) (alike : f.Alike f')
    (spare : f.vol.vacant.ncard = f'.vol.vacant.ncard + more) : f.Cramped (taken + more) code := by
  have index := alike.size
  cases cramped with
  | spent few => exact .spent (by omega)
  | full crowded small hole few =>
    rw [alike.listing] at crowded
    rw [alike.size, alike.places] at few
    rw [alike.size] at small hole
    exact .full crowded small ((alike.places (.data _)).symm.trans hole) (by omega)
  | big crowded most =>
    rw [alike.listing] at crowded
    rw [alike.size] at most
    exact .big crowded most

/-- Why a name cannot be linked: it is bound, it is too long, or there is no room for it. -/
def LinkRefused (bindings : Name → Option Word32) (cramped : Errno → Prop) (name : Name) (result : Errno) :
    Prop :=
  (result = File.eExist ∧ bindings name ≠ none) ∨
    bindings name = none ∧ (result = Syscall.eNameTooLong ∧ 59 < name.1.length ∨ cramped result)

theorem LinkRefused.mono (refused : LinkRefused bindings cramped name res)
    (more : cramped res → cramped' res) : LinkRefused bindings cramped' name res := by
  rcases refused with bound | ⟨gone, long | cause⟩
  · exact .inl bound
  · exact .inr ⟨gone, .inl long⟩
  · exact .inr ⟨gone, .inr (more cause)⟩

theorem LinkRefused.problem {f : SfsFile} (refused : LinkRefused bindings (f.Cramped taken) name res) :
    res ≠ 0 := by
  rcases refused with ⟨rfl, _⟩ | ⟨_, ⟨rfl, _⟩ | cause⟩
  · decide
  · decide
  · cases cause <;> decide

/-- What a refused link leaves of the root directory: all of it, but perhaps with a new indirect block. -/
inductive LinkLeft (s : SfsFs) (table : Table Name Word32) (name : Name) : SfsFs → Prop where
  | bound (present : lookup table name ≠ none) : LinkLeft s table name s
  | long (long : 59 < name.1.length) : LinkLeft s table name s
  | unmapped {s' : SfsFs} {result : Errno} (short : name.1.length ≤ 59) (crowded : none ∉ table)
      (unmapped : Unmapped (s.fileAt rootLocation) ((s.vnodeAt rootLocation).inode.size.toNat / 512) result
        (s'.fileAt rootLocation)) : LinkLeft s table name s'

/-- How a link into the root directory ends -/
inductive LinkEnd (s : SfsFs) (live : Set Word32) (table : Table Name Word32) (count : Word32 → Nat)
    (name : Name) (v : Word32) : Errno → Nat → SfsFs → Prop where
  | refused {result : Errno} {slot : Nat} {s' : SfsFs}
      (cause : LinkRefused (lookup table) ((s.fileAt rootLocation).Cramped 0) name result)
      (left : LinkLeft s table name s') (inv : s'.Inv live table count)
      (alters : s.Alters live rootLocation s' live) (held : s'.held = s.held) :
      LinkEnd s live table count name v result slot s'
  | done {s' : SfsFs} (absent : lookup table name = none) (short : name.1.length ≤ 59)
      (near : slot ≤ table.length) (vacant : ∀ binding, table[slot]? ≠ some (some binding))
      (inv : s'.Inv live (place table slot (some (name, v))) count)
      (alters : s.Alters live rootLocation s' live)
      (places : ∀ slot, (s.fileAt rootLocation).blockAt slot ≠ 0 →
        (s'.fileAt rootLocation).blockAt slot = (s.fileAt rootLocation).blockAt slot)
      (held : s'.held = s.held) : LinkEnd s live table count name v 0 slot s'

theorem SfsFs.Inv.dirLink (inv : s.Inv live table count) (found : s.find rootLocation = some sv) (name : Name)
    (mem : v ∈ live) : ∃ res slot f', sfsDirLink ⟨s.vol, sv⟩ name v = .ok (res, slot, f') ∧
      LinkEnd s live table count name v res slot (s.put f') := by
  have dir := inv.dir
  have listing := inv.listing
  rw [fileAt_of_find found] at dir listing
  have unique : Unique (SfsFile.listing ⟨s.vol, sv⟩) := listing.symm ▸ inv.unique
  have nonzero : v ≠ 0 := s.vnodeAt_ino v ▸ (inv.owned.sound v mem).self
  obtain ⟨res, slot, f', linked, ended⟩ := dir.dirLink unique name nonzero
  have self := inv.owned.put_self found
  refine ⟨res, slot, f', linked, ?_⟩
  cases ended with
  | bound present =>
    rw [listing] at present
    rw [self]
    exact .refused (.inl ⟨rfl, present⟩) (.bound present) inv (inv.owned.alters_refl found) rfl
  | long gone long =>
    rw [listing] at gone
    rw [self]
    exact .refused (.inr ⟨gone, .inl ⟨rfl, long⟩⟩) (.long long) inv (inv.owned.alters_refl found) rfl
  | refused gone short evolves after same crowded cause =>
    have cramped := dir.cramped crowded cause
    rw [← fileAt_of_find found] at cramped
    rw [listing] at gone same crowded
    obtain ⟨kept, alters, held⟩ := inv.evolve_root found evolves after same inv.unique inv.named inv.settled
    refine .refused (.inr ⟨gone, .inr cramped⟩) (.unmapped short crowded (?_ : Unmapped _ _ res _)) kept
      alters held
    have ino : f'.sv.ino = rootLocation := evolves.vnode.ino.trans (find_ino found)
    rw [put_fileAt found ino, fileAt_of_find found, vnodeAt_of_find found]
    exact cause.2
  | done gone short evolves after near vacant same places =>
    rw [listing] at gone near vacant same
    have bound := inv.unique.lookup_bind near v vacant gone
    have kept := inv.evolve_root found evolves after same bound.1 ?_ ?_
    · refine .done gone short near vacant kept.1 kept.2.1 ?_ kept.2.2
      have ino : f'.sv.ino = rootLocation := evolves.vnode.ino.trans (find_ino found)
      rw [put_fileAt found ino, fileAt_of_find found]
      exact places
    · intro other w inside
      obtain ⟨j, there⟩ := mem_iff_getElem?.mp inside
      rw [place_getElem? table near] at there
      split at there
      · cases there
        exact mem
      · exact inv.named other w (mem_iff_getElem?.mpr ⟨j, there⟩)
    · intro w alive
      rcases inv.settled w alive with root | loaded | ⟨other, inside⟩
      · exact .inl root
      · exact .inr (.inl loaded)
      · refine .inr (.inr ⟨other, ?_⟩)
        obtain ⟨j, there⟩ := mem_iff_getElem?.mp inside
        refine mem_iff_getElem?.mpr ⟨j, ?_⟩
        rw [place_getElem? table near, if_neg]
        · exact there
        · rintro rfl
          exact vacant _ there

theorem SfsFs.Inv.dirUnlink (inv : s.Inv live table count) (found : s.find rootLocation = some sv)
    (bound : table[slot]? = some (some (name, v))) (loaded : s.held v ≠ none) :
    ∃ f', sfsDirUnlink ⟨s.vol, sv⟩ slot = .ok (0, f') ∧
      (s.put f').Inv live (place table slot none) count ∧ s.Alters live rootLocation (s.put f') live ∧
      (s.put f').held = s.held := by
  have dir := inv.dir
  have listing := inv.listing
  rw [fileAt_of_find found] at dir listing
  have inside : slot < table.length := (List.getElem?_eq_some_iff.mp bound).1
  have here : slot < (SfsFile.listing ⟨s.vol, sv⟩).length := by
    rw [listing]
    exact inside
  obtain ⟨f', unlinked, evolves, after, same⟩ := dir.dirUnlink here
  rw [listing] at same
  have near := Nat.le_of_lt inside
  have kept := inv.evolve_root found evolves after same (inv.unique.lookup_erase bound).1 ?_ ?_
  · exact ⟨f', unlinked, kept⟩
  · intro other w mem
    obtain ⟨j, there⟩ := mem_iff_getElem?.mp mem
    rw [place_getElem? table near] at there
    split at there
    · cases there
    · exact inv.named other w (mem_iff_getElem?.mpr ⟨j, there⟩)
  · intro w alive
    by_cases here : w = v
    · exact .inr (.inl (here ▸ loaded))
    rcases inv.settled w alive with root | held | ⟨other, mem⟩
    · exact .inl root
    · exact .inr (.inl held)
    · refine .inr (.inr ⟨other, ?_⟩)
      obtain ⟨j, there⟩ := mem_iff_getElem?.mp mem
      refine mem_iff_getElem?.mpr ⟨j, ?_⟩
      rw [place_getElem? table near, if_neg]
      · exact there
      · rintro rfl
        rw [bound] at there
        cases there
        exact here rfl

end

section

variable {s : SfsFs} {live : Set Word32} {table : Table Name Word32} {v : Word32} {sv : SfsVnode}

theorem sfsTruncate_bare {f : SfsFile} (sound : f.Sound) :
    ∃ f', sfsTruncate f 0 = .ok f' ∧ f.Evolves f' ∧ f'.Bare := by
  obtain ⟨g, truncated, drops⟩ := sfsTruncate_drops sound 0
  have all (k : Nat) : g.dataBlock k = 0 := by
    by_cases far : 143 ≤ k
    · exact dataBlock_beyond g far
    · refine drops.gone (.data k) ?_
      simp only [SfsFile.past, show blocklenOf 0 = 0 from rfl]
      split <;> omega
  refine ⟨_, truncated, (drops.evolves sound).trans ((drops.sound sound).setSize_evolves 0), ?_, ?_⟩
  · intro i
    exact (dataBlock_direct g i).symm.trans (all i)
  · refine drops.gone .indirect ⟨by decide, ?_⟩
    intro k high _
    change 0 < k
    omega

section

variable (inv : s.Inv live table (links table))
include inv

theorem SfsFs.Inv.reclaim_linked (found : s.find v = some sv) (last : sv.refcount = 1)
    (closed : sv.opencount = 0) (linked : 0 < links table v) :
    ∃ s', sfsReclaim s v = .ok (0, s') ∧ s'.Inv live table (links table) ∧
      s.Alters live v s' live ∧ s'.held = update s.held v none := by
  have mem := inv.owned.loaded v sv found
  have counted := inv.counts v mem
  rw [vnodeAt_of_find found] at counted
  have nonzero : sv.inode.linkcount ≠ 0 := by
    intro zero
    rw [zero] at counted
    exact absurd counted (Nat.ne_of_lt linked)
  obtain ⟨f', synced, vnode, kept, saves, held, _⟩ := inv.sync found
  have ino : f'.sv.ino = v := by
    rw [vnode]
    exact show sv.ino = v from find_ino found
  obtain ⟨alters, alike, inode⟩ := kept.owned.unload (put_find found ino) (by rw [vnode])
  have dropped : (s.put f').drop (s.put f').vol v = s.drop f'.vol v := by
    rw [← ino]
    exact s.put_drop f' _
  rw [dropped] at alters alike inode
  have held' : (s.drop f'.vol v).held = update s.held v none := by
    funext w
    by_cases here : w = v
    · rw [here, update_self, SfsFs.held, s.find_drop, if_pos rfl, map_none]
    · rw [update_of_ne here, alters.held here, held]
  refine ⟨s.drop f'.vol v, ?_, kept.touch mem alters alike ?_ (fun _ _ => rfl) ?_,
    saves.trans alters, held'⟩
  · have unlinked : f'.sv.inode.linkcount ≠ 0 := by
      rw [vnode]
      exact nonzero
    have cleaned : vnodeCleanup f'.sv = .ok () := by
      rw [vnode]
      simp only [vnodeCleanup, kassert_ok.mpr last, ok_bind, kassert_ok.mpr closed]
    simp only [sfsReclaim, file_eq found, ok_bind, last, ne_eq, not_true, if_false, reclaimErase,
      if_neg nonzero, synced, reclaimDiscard, if_neg unlinked, cleaned, pure_ok]
  · rw [inode, vnode]
    exact counted
  · by_cases root : v = rootLocation
    · exact .inl root
    · rw [links, if_neg root] at linked
      exact .inr (.inr (refs_pos.mp linked))

theorem SfsFs.Inv.reclaim_unlinked (found : s.find v = some sv) (last : sv.refcount = 1)
    (closed : sv.opencount = 0) (unlinked : links table v = 0) :
    ∃ s', sfsReclaim s v = .ok (0, s') ∧ s'.Inv (live \ {v}) table (links table) ∧
      s.Alters live v s' (live \ {v}) ∧ s'.held = update s.held v none := by
  have mem := inv.owned.loaded v sv found
  have file : v ≠ rootLocation := by
    rintro rfl
    exact absurd unlinked (Nat.succ_ne_zero _)
  have unnamed (name : Name) : some (name, v) ∉ table := by
    intro bound
    have pos := links_pos bound
    omega
  have zero : sv.inode.linkcount = 0 := by
    have counted := inv.counts v mem
    rw [vnodeAt_of_find found, unlinked] at counted
    exact eq_of_toNat_eq counted
  have type : sv.inode.type ≠ typeDir := by
    have regular := inv.types v mem file
    rw [vnodeAt_of_find found] at regular
    rw [regular]
    decide
  have sound := inv.owned.sound v mem
  rw [fileAt_of_find found] at sound
  obtain ⟨f₁, truncated, evolves, bare⟩ := sfsTruncate_bare sound
  have ino₁ : f₁.sv.ino = v := evolves.vnode.ino.trans (find_ino found)
  obtain ⟨kept₁, alters₁, held₁⟩ := inv.evolve_file found file evolves
  have found₁ : (s.put f₁).find v = some f₁.sv := put_find found ino₁
  obtain ⟨f₂, synced, vnode, kept₂, alters₂, held₂, alike⟩ := kept₁.sync found₁
  have ino₂ : f₂.sv.ino = v := by
    rw [vnode]
    exact ino₁
  rw [s.put_put (ino₂.trans ino₁.symm)] at kept₂ alters₂ held₂ alike
  have found₂ : (s.put f₂).find v = some f₂.sv := put_find found ino₂
  have bare₂ : ((s.put f₂).fileAt v).Bare := by
    rw [fileAt_of_find found₂, vnode]
    exact ⟨bare.direct, bare.indirect⟩
  have alters := kept₂.owned.discard mem bare₂
  have dropped : (s.put f₂).drop ((s.put f₂).vol.free v) v = s.drop (f₂.vol.free v) v := by
    conv_lhs => rw [← ino₂]
    rw [s.put_drop f₂, ino₂]
    rfl
  rw [dropped] at alters
  have sound₂ := kept₂.owned.sound v mem
  rw [put_fileAt found ino₂] at sound₂
  have below := sound₂.below .self sound₂.self
  have used := sound₂.used .self sound₂.self
  rw [show f₂.blockAt .self = v from ino₂] at below used
  have same := alters.alike kept₂.owned inv.root (Ne.symm file)
  have held : (s.drop (f₂.vol.free v) v).held = update s.held v none := by
    funext w
    by_cases here : w = v
    · rw [here, update_self, SfsFs.held, s.find_drop, if_pos rfl, map_none]
    · rw [update_of_ne here, alters.held here, held₂, held₁]
  refine ⟨s.drop (f₂.vol.free v) v, ?_, kept₂.alters alters ⟨inv.root, Ne.symm file⟩ ?_
    (same.listing.trans kept₂.listing) inv.unique ?_ (fun gone => absurd rfl gone.2) (fun _ _ => rfl) ?_,
    (alters₁.trans alters₂).trans alters, held⟩
  · have erased : f₁.sv.inode.linkcount = 0 := evolves.vnode.linkcount.trans zero
    have erased₂ : f₂.sv.inode.linkcount = 0 := by
      rw [vnode]
      exact erased
    have cleaned : vnodeCleanup f₂.sv = .ok () := by
      have one : f₁.sv.refcount = 1 := evolves.vnode.refcount.trans last
      have none : f₁.sv.opencount = 0 := evolves.vnode.opencount.trans closed
      rw [vnode]
      simp only [vnodeCleanup, kassert_ok.mpr one, ok_bind, kassert_ok.mpr none]
    have freed : sfsBfree f₂.vol f₂.sv.ino = .ok (f₂.vol.free v) := by
      rw [ino₂]
      exact sound₂.volume.bfree below used
    have synced' : sfsSyncInode f₁ = .ok f₂ := synced
    simp only [sfsReclaim, file_eq found, ok_bind, last, ne_eq, not_true, if_false, reclaimErase,
      if_pos zero, vopTruncate, if_neg type, truncated, pure_ok, synced', reclaimDiscard, if_pos erased₂,
      freed, cleaned]
  · exact kept₂.dir.alike ((alters.owned kept₂.owned).sound _ ⟨inv.root, Ne.symm file⟩) same
  · intro name w bound
    refine ⟨inv.named name w bound, ?_⟩
    rintro rfl
    exact unnamed name bound
  · rintro w ⟨alive, apart⟩
    rw [alters.held apart]
    exact kept₂.settled w alive

theorem SfsFs.Inv.decref {counts : Nat × Nat} (held : s.held v = some counts) (spare : counts.2 < counts.1) :
    ∃ s' live', vnodeDecref s v = .ok s' ∧ s'.Inv live' table (links table) ∧
      s.Alters live v s' live' ∧
      s'.held = update s.held v (if 1 < counts.1 then some (counts.1 - 1, counts.2) else none) ∧
      live' = if 1 < counts.1 ∨ 0 < links table v then live else live \ {v} := by
  obtain ⟨sv, found, refs, opens⟩ := find_of_held held
  rw [← refs, ← opens] at spare ⊢
  have asserted : 0 < sv.refcount := by omega
  by_cases more : 1 < sv.refcount
  · obtain ⟨kept, alters, counted⟩ := inv.reference found
      (show (sv.setRefcount (sv.refcount - 1)).ino = sv.ino from rfl) rfl rfl
      (by simp only [SfsVnode.setRefcount]; omega)
    refine ⟨_, live, ?_, kept, alters, ?_, (if_pos (.inl more)).symm⟩
    · simp only [vnodeDecref, file_eq found, ok_bind, kassert_ok.mpr asserted, if_pos more, pure_ok]
    · rw [if_pos more]
      exact counted
  · have last : sv.refcount = 1 := by omega
    have closed : sv.opencount = 0 := by omega
    simp only [vnodeDecref, file_eq found, ok_bind, kassert_ok.mpr asserted, if_neg more]
    by_cases linked : 0 < links table v
    · obtain ⟨s', reclaimed, kept, alters, counted⟩ := inv.reclaim_linked found last closed linked
      refine ⟨s', live, by rw [reclaimed, ok_bind, pure_ok], kept, alters, counted, (if_pos (.inr linked)).symm⟩
    · obtain ⟨s', reclaimed, kept, alters, counted⟩ :=
        inv.reclaim_unlinked found last closed (Nat.eq_zero_of_not_pos linked)
      refine ⟨s', _, by rw [reclaimed, ok_bind, pure_ok], kept, alters, counted, ?_⟩
      rw [if_neg (by omega)]

end

end

end Os161.Sfs
