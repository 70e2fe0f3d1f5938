import Os161.Sfs.Consistency

namespace Os161.Sfs
open Word Outcome SlotMap Function SfsFs

/-- The calls find memory for a vnode. -/
def Request.Plenty : Request → Prop
  | .getroot memory | .lookup _ _ memory | .creat _ _ _ memory | .remove _ _ memory
  | .rename _ _ _ _ memory => memory.vnode = true ∧ memory.table = true
  | _ => True

/-- The vnode of the directory that a call works on -/
def Request.directory : Request → Option Word32
  | .lookup d _ _ | .creat d _ _ _ | .link d _ _ | .remove d _ _ | .rename d _ _ _ _ => some d
  | _ => none

/-- The caller holds what it hands over: a reference to each vnode, one that is not the reference of an
open file if it gives it back or opens the file, and an open file if it closes it. -/
def SfsFs.Allows (s : SfsFs) : Request → Prop
  | .getroot _ => True
  | .lookup d _ _ | .creat d _ _ _ | .remove d _ _ => s.held d ≠ none
  | .link d _ file => s.held d ≠ none ∧ s.held file ≠ none
  | .rename d1 _ d2 _ _ => s.held d1 ≠ none ∧ d1 = d2
  | .read v u => s.held v ≠ none ∧ u.rw = .read
  | .write v u => s.held v ≠ none ∧ u.rw = .write
  | .truncate v _ | .incref v => s.held v ≠ none
  | .decref v | .incopen v => ∃ counts, s.held v = some counts ∧ counts.2 < counts.1
  | .decopen v => ∃ counts, s.held v = some counts ∧ 0 < counts.2

/-- The call has a vnode to load when these names are bound. -/
def Request.Loads (before : Name → Option Word32) : Request → Prop
  | .lookup _ name _ | .remove _ name _ | .rename _ name _ _ _ => before name ≠ none
  | .creat _ name excl _ => excl = true → before name = none
  | _ => True

/-- What a call does to the map from names to inodes, and what it answers. -/
inductive Effect (before : Name → Option Word32) (cramped : Nat → Errno → Prop) :
    Request → Reply → (Name → Option Word32) → Prop where
  | notDirectory {request : Request} {d : Word32} (called : request.directory = some d)
      (file : d ≠ rootLocation) : Effect before cramped request (.code eNotDir) before
  | exhausted {request : Request} (memory : ¬ request.Plenty) (loads : request.Loads before) :
      Effect before cramped request (.code eNoMem) before
  | root : Effect before cramped (.getroot memory) (.vnode rootLocation) before
  | found {d v : Word32} {path : Name} {memory : Memory} (bound : before path = some v) :
      Effect before cramped (.lookup d path memory) (.vnode v) before
  | missing {d : Word32} {path : Name} {memory : Memory} (absent : before path = none) :
      Effect before cramped (.lookup d path memory) (.code File.eNoEnt) before
  | exclusive {d : Word32} {name : Name} {memory : Memory} (bound : before name ≠ none) :
      Effect before cramped (.creat d name true memory) (.code File.eExist) before
  | opened {d v : Word32} {name : Name} {memory : Memory} (bound : before name = some v) :
      Effect before cramped (.creat d name false memory) (.vnode v) before
  | created {d v : Word32} {name : Name} {excl : Bool} {memory : Memory} (absent : before name = none)
      (short : name.1.length ≤ 59) (fresh : ∀ other, before other ≠ some v) :
      Effect before cramped (.creat d name excl memory) (.vnode v) (update before name (some v))
  | uncreated {d : Word32} {name : Name} {excl : Bool} {memory : Memory} {result : Errno}
      (absent : before name = none) (cause : LinkRefused before (cramped 1) name result) :
      Effect before cramped (.creat d name excl memory) (.code result) before
  | linked {d v : Word32} {name : Name} (absent : before name = none) (short : name.1.length ≤ 59) :
      Effect before cramped (.link d name v) (.code 0) (update before name (some v))
  | unlinked {d v : Word32} {name : Name} {result : Errno}
      (cause : LinkRefused before (cramped 0) name result) :
      Effect before cramped (.link d name v) (.code result) before
  | removed {d v : Word32} {name : Name} {memory : Memory} (bound : before name = some v) :
      Effect before cramped (.remove d name memory) (.code 0) (update before name none)
  | unremoved {d : Word32} {name : Name} {memory : Memory} (absent : before name = none) :
      Effect before cramped (.remove d name memory) (.code File.eNoEnt) before
  | renamed {d1 d2 v : Word32} {n1 n2 : Name} {memory : Memory} (bound : before n1 = some v)
      (absent : before n2 = none) (short : n2.1.length ≤ 59) :
      Effect before cramped (.rename d1 n1 d2 n2 memory) (.code 0)
        (update (update before n2 (some v)) n1 none)
  | unknown {d1 d2 : Word32} {n1 n2 : Name} {memory : Memory} (absent : before n1 = none) :
      Effect before cramped (.rename d1 n1 d2 n2 memory) (.code File.eNoEnt) before
  | unrenamed {d1 d2 v : Word32} {n1 n2 : Name} {memory : Memory} {result : Errno}
      (bound : before n1 = some v) (cause : LinkRefused before (cramped 0) n2 result) :
      Effect before cramped (.rename d1 n1 d2 n2 memory) (.code result) before
  | read : Effect before cramped (.read v u) reply before
  | write : Effect before cramped (.write v u) reply before
  | truncate : Effect before cramped (.truncate v len) reply before
  | incref : Effect before cramped (.incref v) (.code 0) before
  | decref : Effect before cramped (.decref v) (.code 0) before
  | incopen : Effect before cramped (.incopen v) (.code 0) before
  | decopen : Effect before cramped (.decopen v) (.code 0) before

/-- The counts of the vnodes after a call, which hands a reference back with a vnode. -/
def Request.tally (before : Word32 → Nat × Nat) : Request → Reply → Word32 → Nat × Nat
  | .getroot _, .vnode v | .lookup _ _ _, .vnode v | .creat _ _ _ _, .vnode v | .incref v, _ =>
    update before v ((before v).1 + 1, (before v).2)
  | .decref v, _ => update before v ((before v).1 - 1, (before v).2)
  | .incopen v, _ => update before v ((before v).1, (before v).2 + 1)
  | .decopen v, _ => update before v ((before v).1, (before v).2 - 1)
  | _, _ => before

/-- A call has left the volume consistent, with this effect on the names and these counts of the vnodes.
No block is lost unless memory is exhausted. -/
inductive Performed (s : SfsFs) (live : Set Word32) (table : Table Name Word32) (request : Request)
    (reply : Reply) (s' : SfsFs) : Prop where
  | intro (live' : Set Word32) (table' : Table Name Word32) (inv : s'.Inv live' table' (links table'))
      (effect : Effect (lookup table) (s.fileAt rootLocation).Cramped request reply (lookup table'))
      (kept : request.Plenty → s'.stray live' = s.stray live) (spares : s.Spares live s' live')
      (tally : s'.tally = request.tally s.tally reply)

theorem SfsFs.Keeps.performed {s : SfsFs} (keeps : s.Keeps live s' live')
    (inv : s'.Inv live' table' (links table'))
    (effect : Effect (lookup table) (s.fileAt rootLocation).Cramped request reply (lookup table'))
    (tally : s'.tally = request.tally s.tally reply) : Performed s live table request reply s' :=
  ⟨live', table', inv, effect, fun _ => keeps.stray, keeps.spares, tally⟩

theorem SfsFs.Inv.untouched {s : SfsFs} (inv : s.Inv live table (links table))
    (effect : Effect (lookup table) (s.fileAt rootLocation).Cramped request reply (lookup table))
    (tally : s.tally = request.tally s.tally reply) : Performed s live table request reply s :=
  (SfsFs.Keeps.refl s live).performed inv effect tally

section

variable {s : SfsFs} {live : Set Word32} {table : Table Name Word32} {memory : Memory}

variable {s' : SfsFs} {v : Word32} {counts : Nat × Nat}

theorem SfsFs.tally_release (spare : counts.2 < counts.1) (held : s'.held = update s.held v
      (if 1 < counts.1 then some (counts.1 - 1, counts.2) else none)) :
    s'.tally = update s.tally v (counts.1 - 1, counts.2) := by
  rw [tally_update held]
  congr 1
  split
  · rfl
  · rw [Option.getD_none]
    ext <;> simp only <;> omega

theorem SfsFs.tally_restored {s₁ : SfsFs} (taken : s₁.tally = update s.tally v counts)
    (counted : counts = ((s.tally v).1 + 1, (s.tally v).2))
    (given : s'.tally = update s₁.tally v (counts.1 - 1, counts.2)) :
    s'.tally = s.tally := by
  rw [given, taken, update_idem, counted]
  exact update_eq_self v s.tally

theorem SfsFs.Inv.findname (inv : s.Inv live table (links table)) (found : s.find rootLocation = some sv)
    (name : Name) :
    (∃ hit, sfsDirFindname ⟨s.vol, sv⟩ name = .ok (0, hit, ⟨s.vol, sv⟩) ∧
        table[hit.slot]? = some (some (name, hit.ino))) ∨
      ∃ hit, sfsDirFindname ⟨s.vol, sv⟩ name = .ok (File.eNoEnt, hit, ⟨s.vol, sv⟩) ∧
        lookup table name = none := by
  have dir := inv.dir
  have listing := inv.listing
  rw [fileAt_of_find found] at dir listing
  rcases dir.findname (listing.symm ▸ inv.unique) name with ⟨hit, searched, bound⟩ | ⟨hit, searched, gone, _, _⟩
  · exact .inl ⟨hit, searched, listing ▸ bound⟩
  · exact .inr ⟨hit, searched, listing ▸ gone⟩

theorem SfsFs.find_of_held_ne (held : s.held v ≠ none) :
    ∃ sv counts, s.find v = some sv ∧ s.held v = some counts := by
  obtain ⟨counts, same⟩ := Option.ne_none_iff_exists'.mp held
  obtain ⟨sv, found, _⟩ := find_of_held same
  exact ⟨sv, counts, found, same⟩

/-- How `sfs_lookonce` ends in the root directory -/
inductive LookonceEnd (s : SfsFs) (live : Set Word32) (table : Table Name Word32) (name : Name)
    (memory : Memory) : Errno × Word32 × Nat × SfsFs → Prop where
  | missing (absent : lookup table name = none) : LookonceEnd s live table name memory (File.eNoEnt, 0, 0, s)
  | exhausted {v : Word32} (bound : lookup table name = some v) (unloaded : s.held v = none)
      (short : memory.vnode = false ∨ memory.table = false) :
      LookonceEnd s live table name memory (eNoMem, 0, 0, s)
  | found {v : Word32} {slot : Nat} {s' : SfsFs} {counts : Nat × Nat}
      (bound : table[slot]? = some (some (name, v))) (inv : s'.Inv live table (links table))
      (alters : s.Alters live v s' live) (held : s'.held = update s.held v (some counts))
      (counted : counts = ((s.tally v).1 + 1, (s.tally v).2)) (spare : counts.2 < counts.1)
      (vol : s'.vol = s.vol) : LookonceEnd s live table name memory (0, v, slot, s')

theorem SfsFs.Inv.lookonce (inv : s.Inv live table (links table)) (held : s.held rootLocation ≠ none)
    (name : Name) (memory : Memory) :
    ∃ res, sfsLookonce s rootLocation name memory = .ok res ∧
      LookonceEnd s live table name memory res := by
  obtain ⟨sv, _, found, _⟩ := find_of_held_ne held
  have self := inv.owned.put_self found
  unfold sfsLookonce
  rcases inv.findname found name with ⟨hit, searched, bound⟩ | ⟨hit, searched, gone⟩
  · simp only [file_eq found, ok_bind, searched, self, ne_eq]
    have listed : some (name, hit.ino) ∈ table := List.mem_iff_getElem?.mpr ⟨hit.slot, bound⟩
    have mem := inv.named name hit.ino listed
    rcases inv.load mem memory with
      ⟨s', counts, loaded, kept, alters, held', counted, spare, vol⟩ | ⟨loaded, unloaded, short⟩
    · have here : s'.held hit.ino = some counts := by rw [held', update_self]
      obtain ⟨final, found', _⟩ := find_of_held here
      have named := kept.counts hit.ino mem
      rw [vnodeAt_of_find found'] at named
      have linked : final.inode.linkcount ≠ 0 := by
        intro zero
        rw [zero] at named
        exact absurd named (Nat.ne_of_lt (links_pos listed))
      simp only [loaded, ok_bind, file_eq found', if_neg linked, pure_ok]
      exact ⟨_, rfl, .found bound kept alters held' counted spare vol⟩
    · simp only [loaded, pure_ok]
      exact ⟨_, rfl, .exhausted (inv.unique.lookup_getElem? bound) unloaded short⟩
  · simp only [file_eq found, ok_bind, searched, self, pure_ok]
    exact ⟨_, rfl, .missing gone⟩

theorem not_plenty {memory : Memory} (short : memory.vnode = false ∨ memory.table = false) :
    ¬ (memory.vnode = true ∧ memory.table = true) := by
  rintro ⟨first, second⟩
  rcases short with none | none
  · rw [none] at first
    cases first
  · rw [none] at second
    cases second

theorem SfsFs.Inv.lookup_call (inv : s.Inv live table (links table)) (held : s.held rootLocation ≠ none)
    (path : Name) (memory : Memory) :
    ∃ res s', sfsLookup s rootLocation path memory = .ok (res, s') ∧
      Performed s live table (.lookup rootLocation path memory) (.ofVnode res) s' := by
  obtain ⟨_, looked, ended⟩ := inv.lookonce held path memory
  simp only [sfsLookup, looked]
  cases ended with
  | missing gone => exact ⟨_, _, rfl, inv.untouched (.missing gone) rfl⟩
  | exhausted bound _ short =>
    exact ⟨_, _, rfl, inv.untouched (.exhausted (not_plenty short) (Option.ne_none_iff_exists'.mpr ⟨_, bound⟩)) rfl⟩
  | found bound kept alters held₁ counted _ _ =>
    refine ⟨_, _, rfl, (alters.keeps inv.owned).performed kept (.found (inv.unique.lookup_getElem? bound)) ?_⟩
    rw [tally_update held₁, counted]
    rfl

/-- How `sfs_creat` ends for a name that is not bound. A new file that cannot be linked is released again. -/
inductive CreatNewEnd (s : SfsFs) (live : Set Word32) (table : Table Name Word32) (name : Name)
    (memory : Memory) : Except Errno Word32 → SfsFs → Prop where
  | full (full : s.vol.vacant = ∅) : CreatNewEnd s live table name memory (.error File.eNoSpc) s
  | lost {s' : SfsFs} {ino : Word32} (exhausted : memory.vnode = false ∨ memory.table = false)
      (free : ino ∈ s.vol.vacant) (vol : s'.vol = s.vol.grant ino) (inv : s'.Inv live table (links table))
      (alters : s.Alters live ino s' (insert ino live)) (held : s'.held = s.held) :
      CreatNewEnd s live table name memory (.error eNoMem) s'
  | refused {s₁ s₂ s' : SfsFs} {ino : Word32} {result : Errno}
      (plenty : memory.vnode = true ∧ memory.table = true) (fresh : ino ∉ live)
      (free : ino ∈ s.vol.vacant) (vol : s₁.vol = s.vol.grant ino)
      (inv₁ : s₁.Inv (insert ino live) table (links table)) (made : s.Alters live ino s₁ (insert ino live))
      (cause : LinkRefused (lookup table) ((s.fileAt rootLocation).Cramped 1) name result)
      (left : LinkLeft s₁ table name s₂)
      (inv₂ : s₂.Inv (insert ino live) table (links table))
      (tried : s₁.Alters (insert ino live) rootLocation s₂ (insert ino live))
      (inv : s'.Inv live table (links table)) (released : s₂.Alters (insert ino live) ino s' live)
      (tally : s'.tally = s.tally) : CreatNewEnd s live table name memory (.error result) s'
  | done {s₁ s₂ s' : SfsFs} {ino : Word32} {slot : Nat}
      (plenty : memory.vnode = true ∧ memory.table = true) (fresh : ino ∉ live) (free : ino ∈ s.vol.vacant)
      (vol : s₁.vol = s.vol.grant ino) (inv₁ : s₁.Inv (insert ino live) table (links table))
      (made : s.Alters live ino s₁ (insert ino live)) (short : name.1.length ≤ 59)
      (near : slot ≤ table.length) (vacant : ∀ binding, table[slot]? ≠ some (some binding))
      (inv₂ : s₂.Inv (insert ino live) (place table slot (some (name, ino))) (links table))
      (bound : s₁.Alters (insert ino live) rootLocation s₂ (insert ino live))
      (places : ∀ slot, (s₁.fileAt rootLocation).blockAt slot ≠ 0 →
        (s₂.fileAt rootLocation).blockAt slot = (s₁.fileAt rootLocation).blockAt slot)
      (inv : s'.Inv (insert ino live) (place table slot (some (name, ino)))
        (links (place table slot (some (name, ino)))))
      (counted : s₂.Alters (insert ino live) ino s' (insert ino live))
      (tally : s'.tally = update s.tally ino ((s.tally ino).1 + 1, (s.tally ino).2)) :
      CreatNewEnd s live table name memory (.ok ino) s'

theorem SfsFs.Inv.creatNew (inv : s.Inv live table (links table)) (held : s.held rootLocation ≠ none)
    (name : Name) (memory : Memory) :
    ∃ res s', creatNew s rootLocation name memory = .ok (res, s') ∧
      CreatNewEnd s live table name memory res s' := by
  unfold Sfs.creatNew
  obtain ⟨res, s₁, made, ended⟩ := inv.makeobj memory
  rw [made, ok_bind]
  cases ended with
  | full full => exact ⟨_, _, rfl, .full full⟩
  | lost exhausted free vol kept alters held₁ => exact ⟨_, _, rfl, .lost exhausted free vol kept alters held₁⟩
  | @done _ ino plenty fresh free vol kept alters held₁ =>
    have apart : rootLocation ≠ ino := fun same => fresh (same ▸ inv.root)
    have root : s₁.held rootLocation ≠ none := by rwa [held₁, update_of_ne apart]
    obtain ⟨sv, _, found, _⟩ := find_of_held_ne root
    have unheld : s.tally ino = (0, 0) := by
      refine tally_of_none (Option.eq_none_iff_forall_ne_some.mpr ?_)
      intro counts held
      obtain ⟨_, there, _⟩ := find_of_held held
      exact fresh (inv.owned.loaded ino _ there)
    have tally₁ : s₁.tally = update s.tally ino (1, 0) := tally_update held₁
    obtain ⟨res, slot, f', linked, ended⟩ := kept.dirLink found name (Set.mem_insert ino live)
    simp only [file_eq found, ok_bind, linked]
    cases ended with
    | refused cause left kept₂ alters₂ held₂ =>
      have one : (s₁.put f').held ino = some (1, 0) := by rw [held₂, held₁, update_self]
      have unlinked : links table ino = 0 := by
        have none := kept.counts ino (Set.mem_insert ino live)
        by_contra linked
        have pos : 0 < refs table ino := by
          rw [links, if_neg (Ne.symm apart)] at linked
          omega
        obtain ⟨other, bound⟩ := refs_pos.mp pos
        exact fresh (inv.named other ino bound)
      obtain ⟨s', live', freed, kept₃, alters₃, held₃, lives⟩ := kept₂.decref one Nat.one_pos
      rw [if_neg (by omega), Set.insert_sdiff_of_mem _ (Set.mem_singleton ino),
        Set.sdiff_singleton_eq_self fresh] at lives
      subst lives
      simp only [if_pos cause.problem, freed, ok_bind, pure_ok]
      have spare : (s.fileAt rootLocation).vol.vacant.ncard = s₁.vol.vacant.ncard + 1 :=
        Volume.ncard_vacant vol free
      have before := cause.mono fun cramped =>
        SfsFile.Cramped.alike cramped (alters.alike inv.owned inv.root apart) spare
      refine ⟨_, _, rfl, .refused plenty fresh free vol kept alters before left kept₂ alters₂ kept₃
        alters₃ ?_⟩
      have given := tally_release Nat.one_pos held₃
      rw [tally_congr held₂] at given
      exact tally_restored tally₁ (by rw [unheld]) given
    | done _ short near vacant kept₂ alters₂ places held₂ =>
      have one : (s₁.put f').held ino = some (1, 0) := by rw [held₂, held₁, update_self]
      obtain ⟨s', added, kept₃, alters₃, held₃⟩ := kept₂.addLink one (inv.links_le ino)
      rw [← links_bind table name ino vacant] at kept₃
      simp only [ne_eq, not_true, if_false, added, ok_bind, pure_ok]
      refine ⟨_, _, rfl, .done plenty fresh free vol kept alters short near vacant kept₂ alters₂ places
        kept₃ alters₃ ?_⟩
      rw [tally_congr held₃, tally_congr held₂, tally₁, unheld]

variable {name : Name}

theorem CreatNewEnd.performed (ended : CreatNewEnd s live table name memory res s')
    (inv : s.Inv live table (links table)) (gone : lookup table name = none) (excl : Bool) :
    Performed s live table (.creat rootLocation name excl memory) (.ofVnode res) s' := by
  cases ended with
  | full full =>
    have few : (s.fileAt rootLocation).vol.vacant.ncard < 1 := by
      rw [show (s.fileAt rootLocation).vol.vacant = ∅ from full, Set.ncard_empty]
      exact Nat.one_pos
    exact inv.untouched (.uncreated gone (.inr ⟨gone, .inr (.spent few)⟩)) rfl
  | lost exhausted _ _ kept alters held₁ =>
    refine ⟨live, table, kept, .exhausted (not_plenty exhausted) fun _ => gone, ?_, ?_, tally_congr held₁⟩
    · intro plenty
      exact absurd plenty (not_plenty exhausted)
    · have keeps := alters.keeps inv.owned
      refine ⟨?_, keeps.disk, keeps.follows⟩
      rw [← keeps.stray]
      rintro block ⟨used, none⟩
      exact ⟨used, fun v mem => none v (.inr mem)⟩
  | refused _ _ _ _ inv₁ made cause _ inv₂ tried kept freed tally =>
    have keeps := ((made.keeps inv.owned).trans (tried.keeps inv₁.owned)).trans (freed.keeps inv₂.owned)
    exact keeps.performed kept (.uncreated gone cause) tally
  | @done _ _ _ ino _ _ fresh _ _ inv₁ made short near vacant inv₂ bound _ kept counted tally =>
    have keeps := ((made.keeps inv.owned).trans (bound.keeps inv₁.owned)).trans (counted.keeps inv₂.owned)
    refine keeps.performed kept ?_ tally
    rw [(inv.unique.lookup_bind near ino vacant gone).2]
    refine .created gone short ?_
    intro other same
    exact fresh (inv.named other ino (mem_of_lookup same))

/-- How `sfs_creat` ends: the name is bound, or a file is made. -/
inductive CreatEnd (s : SfsFs) (live : Set Word32) (table : Table Name Word32) (name : Name) (excl : Bool)
    (memory : Memory) : Except Errno Word32 → SfsFs → Prop where
  | exclusive (bound : lookup table name ≠ none) (asked : excl = true) :
      CreatEnd s live table name excl memory (.error File.eExist) s
  | unloaded (bound : lookup table name ≠ none) (asked : excl = false)
      (short : memory.vnode = false ∨ memory.table = false) :
      CreatEnd s live table name excl memory (.error eNoMem) s
  | opened {v : Word32} {s' : SfsFs} (bound : lookup table name = some v) (asked : excl = false)
      (inv : s'.Inv live table (links table)) (alters : s.Alters live v s' live)
      (tally : s'.tally = update s.tally v ((s.tally v).1 + 1, (s.tally v).2)) :
      CreatEnd s live table name excl memory (.ok v) s'
  | fresh {result : Except Errno Word32} {s' : SfsFs} (absent : lookup table name = none)
      (ended : CreatNewEnd s live table name memory result s') :
      CreatEnd s live table name excl memory result s'

theorem SfsFs.Inv.creat (inv : s.Inv live table (links table)) (held : s.held rootLocation ≠ none)
    (name : Name) (excl : Bool) (memory : Memory) :
    ∃ res s', sfsCreat s rootLocation name excl memory = .ok (res, s') ∧
      CreatEnd s live table name excl memory res s' := by
  obtain ⟨sv, _, found, _⟩ := find_of_held_ne held
  have self := inv.owned.put_self found
  unfold sfsCreat
  rcases inv.findname found name with ⟨hit, searched, bound⟩ | ⟨hit, searched, gone⟩
  · simp only [file_eq found, ok_bind, searched, self, ne_eq, not_true, true_and]
    have known := inv.unique.lookup_getElem? bound
    cases excl with
    | true => exact ⟨_, _, rfl, .exclusive (known.symm ▸ nofun) rfl⟩
    | false =>
      have mem := inv.named name hit.ino (List.mem_iff_getElem?.mpr ⟨hit.slot, bound⟩)
      rcases inv.load mem memory with
        ⟨s', counts, loaded, kept, alters, held₁, counted, _, _⟩ | ⟨loaded, _, short⟩
      · simp only [loaded, ok_bind, not_true, if_false, pure_ok]
        refine ⟨_, _, rfl, .opened known rfl kept alters ?_⟩
        rw [tally_update held₁, counted]
        rfl
      · simp only [loaded, ok_bind, pure_ok]
        exact ⟨_, _, rfl, .unloaded (known.symm ▸ nofun) rfl short⟩
  · simp only [file_eq found, ok_bind, searched, self, ne_eq]
    obtain ⟨res, s', made, ended⟩ := inv.creatNew held name memory
    exact ⟨res, s', made, .fresh gone ended⟩

theorem CreatEnd.performed (ended : CreatEnd s live table name excl memory res s')
    (inv : s.Inv live table (links table)) :
    Performed s live table (.creat rootLocation name excl memory) (.ofVnode res) s' := by
  cases ended with
  | exclusive bound asked =>
    subst asked
    exact inv.untouched (.exclusive bound) rfl
  | unloaded _ asked short =>
    subst asked
    exact inv.untouched (.exhausted (not_plenty short) nofun) rfl
  | opened bound asked kept alters tally =>
    subst asked
    exact (alters.keeps inv.owned).performed kept (.opened bound) tally
  | fresh gone ended => exact ended.performed inv gone excl

section

variable (inv : s.Inv live table (links table))
include inv

theorem SfsFs.Inv.link (held : s.held rootLocation ≠ none) (name : Name) (loaded : s.held v ≠ none) :
    ∃ res s', sfsLink s rootLocation name v = .ok (res, s') ∧
      Performed s live table (.link rootLocation name v) (.code res) s' := by
  obtain ⟨sv, _, found, _⟩ := find_of_held_ne held
  obtain ⟨_, counts, there, same⟩ := find_of_held_ne loaded
  obtain ⟨res, slot, f', linked, ended⟩ := inv.dirLink found name (inv.owned.loaded v _ there)
  simp only [sfsLink, file_eq found, ok_bind, linked]
  cases ended with
  | refused cause _ kept alters held₁ =>
    simp only [if_pos cause.problem]
    exact ⟨_, _, rfl, (alters.keeps inv.owned).performed kept (.unlinked cause) (tally_congr held₁)⟩
  | done gone short near vacant kept alters _ held₁ =>
    have again : (s.put f').held v = some counts := by rw [held₁, same]
    obtain ⟨s', added, kept', alters', held'⟩ := kept.addLink again (inv.links_le v)
    rw [← links_bind table name v vacant] at kept'
    simp only [added]
    have keeps := (alters.keeps inv.owned).trans (alters'.keeps kept.owned)
    refine ⟨_, _, rfl, keeps.performed kept' ?_ ?_⟩
    · rw [(inv.unique.lookup_bind near v vacant gone).2]
      exact .linked gone short
    · rw [tally_congr held', tally_congr held₁]
      rfl

/-- A link goes, and then a reference to its inode. -/
theorem SfsFs.Inv.unlink_release (found : s.find rootLocation = some sv)
    (bound : table[slot]? = some (some (name, v))) (held : s.held v = some counts)
    (spare : counts.2 < counts.1) (text : String) :
    ∃ f' s₁ s' live', sfsDirUnlink ⟨s.vol, sv⟩ slot = .ok (0, f') ∧ Sfs.dropLink (s.put f') v text = .ok s₁ ∧
      vnodeDecref s₁ v = .ok s' ∧ s'.Inv live' (place table slot none) (links (place table slot none)) ∧
      lookup (place table slot none) = update (lookup table) name none ∧
      s.Keeps live s' live' ∧ s'.tally = update s.tally v (counts.1 - 1, counts.2) := by
  have listed : some (name, v) ∈ table := List.mem_iff_getElem?.mpr ⟨slot, bound⟩
  obtain ⟨f', unlinked, kept, alters, held₁⟩ := inv.dirUnlink found bound (held.symm ▸ nofun)
  have again : (s.put f').held v = some counts := by rw [held₁, held]
  obtain ⟨s₁, dropped, kept₁, alters₁, held₂⟩ := kept.dropLink again (links_pos listed) text
  rw [← links_erase bound] at kept₁
  have once : s₁.held v = some counts := by rw [held₂, again]
  obtain ⟨s', live', freed, kept₂, alters₂, held₃, _⟩ := kept₁.decref once spare
  refine ⟨f', s₁, s', live', unlinked, dropped, freed, kept₂, (inv.unique.lookup_erase bound).2,
    ((alters.keeps inv.owned).trans (alters₁.keeps kept.owned)).trans (alters₂.keeps kept₁.owned), ?_⟩
  rw [tally_release spare held₃, tally_congr held₂, tally_congr held₁]

theorem SfsFs.Inv.remove (held : s.held rootLocation ≠ none) (name : Name) (memory : Memory) :
    ∃ res s', sfsRemove s rootLocation name memory = .ok (res, s') ∧
      Performed s live table (.remove rootLocation name memory) (.code res) s' := by
  obtain ⟨_, looked, ended⟩ := inv.lookonce held name memory
  simp only [sfsRemove, looked]
  cases ended with
  | missing gone => exact ⟨_, _, rfl, inv.untouched (.unremoved gone) rfl⟩
  | exhausted bound _ short =>
    exact ⟨_, _, rfl, inv.untouched (.exhausted (not_plenty short) (Option.ne_none_iff_exists'.mpr ⟨_, bound⟩)) rfl⟩
  | @found v slot s₁ counts bound kept alters held₁ counted spare _ =>
    have here : s₁.held v = some counts := by rw [held₁, update_self]
    have root : s₁.held rootLocation ≠ none := by
      rw [held₁]
      by_cases same : rootLocation = v
      · rw [same, update_self]
        exact nofun
      · rwa [update_of_ne same]
    obtain ⟨sv, _, found, _⟩ := find_of_held_ne root
    obtain ⟨f', s₂, s', live', unlinked, dropped, freed, kept', names, keeps, given⟩ :=
      kept.unlink_release found bound here spare "victim->sv_i.sfi_linkcount > 0"
    simp only [file_eq found, ok_bind, unlinked, dropped, freed]
    refine ⟨_, _, rfl, ((alters.keeps inv.owned).trans keeps).performed kept' ?_ ?_⟩
    · rw [names]
      exact .removed (inv.unique.lookup_getElem? bound)
    · exact tally_restored (tally_update held₁) counted given

theorem SfsFs.Inv.rename (held : s.held rootLocation ≠ none) (n1 n2 : Name)
    (regular : lookup table n1 ≠ some rootLocation) (memory : Memory) :
    ∃ res s', sfsRename s rootLocation n1 rootLocation n2 memory = .ok (res, s') ∧
      Performed s live table (.rename rootLocation n1 rootLocation n2 memory) (.code res) s' := by
  obtain ⟨_, looked, ended⟩ := inv.lookonce held n1 memory
  simp only [sfsRename, looked]
  cases ended with
  | missing gone => exact ⟨_, _, rfl, inv.untouched (.unknown gone) rfl⟩
  | exhausted bound _ short =>
    exact ⟨_, _, rfl, inv.untouched (.exhausted (not_plenty short) (Option.ne_none_iff_exists'.mpr ⟨_, bound⟩)) rfl⟩
  | @found v slot s₁ counts bound kept alters held₁ counted spare vol =>
    have known := inv.unique.lookup_getElem? bound
    have file : v ≠ rootLocation := by
      rintro rfl
      exact regular known
    have here : s₁.held v = some counts := by rw [held₁, update_self]
    have root : s₁.held rootLocation ≠ none := by rwa [held₁, update_of_ne (Ne.symm file)]
    obtain ⟨sv, _, found, _⟩ := find_of_held_ne root
    obtain ⟨fv, there, _⟩ := find_of_held here
    have mem := kept.owned.loaded v fv there
    have type := kept.types v mem file
    rw [vnodeAt_of_find there] at type
    obtain ⟨res, slot2, f', linked, ended⟩ := kept.dirLink found n2 mem
    simp only [ne_eq, renameMove, file_eq there, ok_bind, kassert_ok.mpr type,
      file_eq found, linked]
    cases ended with
    | refused cause _ kept₂ alters₂ held₂ =>
      have again : (s₁.put f').held v = some counts := by rw [held₂, here]
      obtain ⟨s', live', freed, kept₃, alters₃, held₃, _⟩ := kept₂.decref again spare
      simp only [if_pos cause.problem, freed, ok_bind, pure_ok]
      have keeps := ((alters.keeps inv.owned).trans (alters₂.keeps kept.owned)).trans
        (alters₃.keeps kept₂.owned)
      have same : (s.fileAt rootLocation).vol.vacant.ncard = s₁.vol.vacant.ncard + 0 := by
        rw [vol]
        rfl
      have before := cause.mono fun cramped =>
        SfsFile.Cramped.alike cramped (alters.alike inv.owned inv.root (Ne.symm file)) same
      refine ⟨_, _, rfl, keeps.performed kept₃ (.unrenamed known before) ?_⟩
      have given := tally_release spare held₃
      rw [tally_congr held₂] at given
      exact tally_restored (tally_update held₁) counted given
    | done gone short near vacant kept₂ alters₂ _ held₂ =>
      have again : (s₁.put f').held v = some counts := by rw [held₂, here]
      obtain ⟨s₃, added, kept₃, alters₃, held₃⟩ := kept₂.addLink again (inv.links_le v)
      rw [← links_bind table n2 v vacant] at kept₃
      have root₃ : s₃.held rootLocation ≠ none := by rwa [held₃, held₂]
      obtain ⟨sv₃, _, found₃, _⟩ := find_of_held_ne root₃
      have still : (place table slot2 (some (n2, v)))[slot]? = some (some (n1, v)) := by
        rw [place_getElem? table near, if_neg]
        · exact bound
        · rintro rfl
          exact vacant _ bound
      have here₃ : s₃.held v = some counts := by rw [held₃, again]
      obtain ⟨f₄, s₅, s', live', unlinked, dropped, freed, kept', names, keeps₄, given⟩ :=
        kept₃.unlink_release found₃ still here₃ spare "g1->sv_i.sfi_linkcount>0"
      simp only [added, ok_bind, file_eq found₃, unlinked, dropped,
        freed]
      have keeps := (((alters.keeps inv.owned).trans (alters₂.keeps kept.owned)).trans
        (alters₃.keeps kept₂.owned)).trans keeps₄
      refine ⟨_, _, rfl, keeps.performed kept' ?_ ?_⟩
      · rw [names, (inv.unique.lookup_bind near v vacant gone).2]
        exact .renamed known gone short
      · rw [tally_congr held₃, tally_congr held₂] at given
        exact tally_restored (tally_update held₁) counted given

theorem SfsFs.Inv.rename_root (held : s.held rootLocation ≠ none) (n2 : Name)
    (bound : lookup table n1 = some rootLocation) (memory : Memory) :
    sfsRename s rootLocation n1 rootLocation n2 memory =
      .error (.assertion "g1->sv_i.sfi_type == SFS_TYPE_FILE") := by
  obtain ⟨_, looked, ended⟩ := inv.lookonce held n1 memory
  simp only [sfsRename, kassert_ok.mpr, looked]
  cases ended with
  | missing gone =>
    rw [gone] at bound
    cases bound
  | exhausted known unloaded _ =>
    rw [bound] at known
    cases known
    exact absurd unloaded held
  | @found v slot s₁ counts there kept _ held₁ _ _ _ =>
    have same : some v = some rootLocation := (inv.unique.lookup_getElem? there).symm.trans bound
    cases same
    have here : s₁.held rootLocation = some counts := by rw [held₁, update_self]
    obtain ⟨sv, found, _⟩ := find_of_held here
    have type := kept.dir.type
    rw [fileAt_of_find found] at type
    have wrong : kassert (sv.inode.type = typeFile) "g1->sv_i.sfi_type == SFS_TYPE_FILE" =
        .error (.assertion "g1->sv_i.sfi_type == SFS_TYPE_FILE") := by
      rw [show sv.inode.type = typeDir from type]
      rfl
    simp only [ne_eq, not_true, if_false, renameMove, file_eq found, ok_bind, wrong, error_bind]

theorem SfsFs.Inv.getroot (memory : Memory) :
    (∃ s', sfsGetroot s memory = .ok s' ∧ s'.Inv live table (links table) ∧ s.Keeps live s' live ∧
        s'.tally = Request.tally s.tally (.getroot memory) (.vnode rootLocation)) ∨
      sfsGetroot s memory = .error (.message "sfs: getroot: Cannot load root vnode\n") ∧
        ¬ (memory.vnode = true ∧ memory.table = true) := by
  unfold sfsGetroot
  rcases inv.load inv.root memory with
    ⟨s', _, loaded, kept, alters, held, counted, _, _⟩ | ⟨loaded, _, short⟩
  · rw [loaded]
    refine .inl ⟨s', rfl, kept, alters.keeps inv.owned, ?_⟩
    rw [tally_update held, counted]
    rfl
  · rw [loaded]
    exact .inr ⟨rfl, not_plenty short⟩

end

theorem sfsIo_evolves {f : SfsFile} (sound : f.Sound) (u : Uio) :
    ∃ res u' f', sfsIo f u = .ok (res, u', f') ∧ f.Evolves f' := by
  cases way : u.rw with
  | read =>
    obtain ⟨res, moved, done, _⟩ := sfsIo_read sound way
    exact ⟨_, _, _, done, .refl sound⟩
  | write =>
    obtain ⟨res, moved, g, done, _, wrote, _⟩ := sfsIo_write sound way
    exact ⟨_, _, _, done, wrote.evolves.trans (wrote.evolves.sound.adjust_evolves _)⟩

section

variable (inv : s.Inv live table (links table))
include inv

theorem SfsFs.Inv.io (held : s.held v ≠ none) {u : Uio} (way : u.rw = rw) (text : String) :
    ∃ reply s', vopIo s v rw text u = .ok (reply, s') ∧ s'.Inv live table (links table) ∧
      s.Keeps live s' live ∧ s'.held = s.held := by
  obtain ⟨sv, _, found, _⟩ := find_of_held_ne held
  unfold vopIo
  rw [file_eq found, ok_bind]
  by_cases dir : sv.inode.type = typeDir
  · rw [if_pos dir]
    exact ⟨_, _, rfl, inv, .refl s live, rfl⟩
  · have mem := inv.owned.loaded v sv found
    have apart : v ≠ rootLocation := by
      rintro rfl
      have type := inv.dir.type
      rw [fileAt_of_find found] at type
      exact dir type
    have sound := inv.owned.sound v mem
    rw [fileAt_of_find found] at sound
    obtain ⟨res, u', f', done, evolves⟩ := sfsIo_evolves sound u
    obtain ⟨kept, alters, same⟩ := inv.evolve_file found apart evolves
    simp only [if_neg dir, kassert_ok.mpr way, done]
    exact ⟨_, _, rfl, kept, alters.keeps inv.owned, same⟩

theorem SfsFs.Inv.truncate (held : s.held v ≠ none) (len : Nat) :
    ∃ reply s', s.perform (.truncate v len) = .ok (reply, s') ∧ s'.Inv live table (links table) ∧
      s.Keeps live s' live ∧ s'.held = s.held := by
  obtain ⟨sv, _, found, _⟩ := find_of_held_ne held
  simp only [perform, file_eq found, ok_bind, vopTruncate]
  by_cases dir : sv.inode.type = typeDir
  · rw [if_pos dir, pure_ok, ok_bind, inv.owned.put_self found]
    exact ⟨_, _, rfl, inv, .refl s live, rfl⟩
  · have mem := inv.owned.loaded v sv found
    have apart : v ≠ rootLocation := by
      rintro rfl
      have type := inv.dir.type
      rw [fileAt_of_find found] at type
      exact dir type
    have sound := inv.owned.sound v mem
    rw [fileAt_of_find found] at sound
    obtain ⟨f', done, evolves⟩ := sfsTruncate_evolves sound len
    obtain ⟨kept, alters, same⟩ := inv.evolve_file found apart evolves
    simp only [if_neg dir, done]
    exact ⟨_, _, rfl, kept, alters.keeps inv.owned, same⟩

theorem SfsFs.Inv.onDirectory (held : s.held d ≠ none) (op : Kernel (Reply × SfsFs)) :
    (d = rootLocation ∧ onDirectory s d op = op) ∨
      d ≠ rootLocation ∧ onDirectory s d op = .ok (.code eNotDir, s) := by
  obtain ⟨sv, _, found, _⟩ := find_of_held_ne held
  have type := inv.fileType (inv.owned.loaded d sv found)
  rw [vnodeAt_of_find found] at type
  unfold Sfs.onDirectory
  rw [file_eq found, ok_bind]
  by_cases root : d = rootLocation
  · rw [if_pos root] at type
    exact .inl ⟨root, if_pos type⟩
  · rw [if_neg root] at type
    refine .inr ⟨root, if_neg ?_⟩
    rw [type]
    decide

end

end

/-- How a call ends: it returns, or it renames the root, or the root cannot be loaded. -/
inductive PerformEnd (s : SfsFs) (live : Set Word32) (table : Table Name Word32) :
    Request → Kernel (Reply × SfsFs) → Prop where
  | returned (performed : Performed s live table request reply s') :
      PerformEnd s live table request (.ok (reply, s'))
  | renamedRoot {d2 : Word32} {n1 n2 : Name} {memory : Memory}
      (bound : lookup table n1 = some rootLocation) :
      PerformEnd s live table (.rename rootLocation n1 d2 n2 memory)
        (.error (.assertion "g1->sv_i.sfi_type == SFS_TYPE_FILE"))
  | rootless {memory : Memory} (short : ¬ (memory.vnode = true ∧ memory.table = true)) :
      PerformEnd s live table (.getroot memory)
        (.error (.message "sfs: getroot: Cannot load root vnode\n"))

section

variable {s : SfsFs} {live : Set Word32} {table : Table Name Word32} {request : Request}

theorem Request.tally_code (called : request.directory = some d) :
    request.tally prev (.code res) = prev := by
  cases request <;> first | rfl | cases called

theorem SfsFs.Inv.directory_call (inv : s.Inv live table (links table))
    (called : request.directory = some d) (held : s.held d ≠ none)
    (root : d = rootLocation → PerformEnd s live table request op) :
    PerformEnd s live table request (Sfs.onDirectory s d op) := by
  rcases inv.onDirectory held op with ⟨here, through⟩ | ⟨apart, refused⟩
  · rw [through]
    exact root here
  · rw [refused]
    exact .returned (inv.untouched (.notDirectory called apart) (Request.tally_code called).symm)

theorem SfsFs.Inv.perform (inv : s.Inv live table (links table)) (allowed : s.Allows request) :
    PerformEnd s live table request (s.perform request) := by
  cases request with
  | getroot memory =>
    rcases inv.getroot memory with ⟨s', loaded, kept, keeps, tally⟩ | ⟨loaded, short⟩
    · simp only [perform, loaded, ok_bind, pure_ok]
      exact .returned (keeps.performed kept .root tally)
    · simp only [perform, loaded, error_bind]
      exact .rootless short
  | lookup d path memory =>
    refine inv.directory_call rfl allowed ?_
    rintro rfl
    obtain ⟨_, _, done, did⟩ := inv.lookup_call allowed path memory
    simp only [done, ok_bind, pure_ok]
    exact .returned did
  | creat d name excl memory =>
    refine inv.directory_call rfl allowed ?_
    rintro rfl
    obtain ⟨_, _, done, ended⟩ := inv.creat allowed name excl memory
    simp only [done, ok_bind, pure_ok]
    exact .returned (ended.performed inv)
  | link d name file =>
    refine inv.directory_call rfl allowed.1 ?_
    rintro rfl
    obtain ⟨_, _, done, did⟩ := inv.link allowed.1 name allowed.2
    simp only [done, ok_bind, pure_ok]
    exact .returned did
  | remove d name memory =>
    refine inv.directory_call rfl allowed ?_
    rintro rfl
    obtain ⟨_, _, done, did⟩ := inv.remove allowed name memory
    simp only [done, ok_bind, pure_ok]
    exact .returned did
  | rename d1 n1 d2 n2 memory =>
    obtain ⟨held, rfl⟩ := allowed
    refine inv.directory_call rfl held ?_
    rintro rfl
    by_cases bound : lookup table n1 = some rootLocation
    · simp only [inv.rename_root held n2 bound memory, error_bind]
      exact .renamedRoot bound
    · obtain ⟨_, _, done, did⟩ := inv.rename held n1 n2 bound memory
      simp only [done, ok_bind, pure_ok]
      exact .returned did
  | read v u =>
    obtain ⟨_, _, done, kept, keeps, held⟩ := inv.io allowed.1 allowed.2 "uio->uio_rw==UIO_READ"
    rw [perform, done]
    exact .returned (keeps.performed kept .read (tally_congr held))
  | write v u =>
    obtain ⟨_, _, done, kept, keeps, held⟩ := inv.io allowed.1 allowed.2 "uio->uio_rw==UIO_WRITE"
    rw [perform, done]
    exact .returned (keeps.performed kept .write (tally_congr held))
  | truncate v len =>
    obtain ⟨_, _, done, kept, keeps, held⟩ := inv.truncate allowed len
    rw [done]
    exact .returned (keeps.performed kept .truncate (tally_congr held))
  | incref v =>
    obtain ⟨_, _, _, held⟩ := find_of_held_ne allowed
    obtain ⟨_, done, kept, alters, counted, _⟩ := inv.incref held
    simp only [perform, done, ok_bind, pure_ok]
    refine .returned ((alters.keeps inv.owned).performed kept .incref ?_)
    rw [tally_update counted, ← tally_of_held held]
    rfl
  | decref v =>
    obtain ⟨_, held, spare⟩ := allowed
    obtain ⟨_, live', done, kept, alters, counted, _⟩ := inv.decref held spare
    simp only [perform, done, ok_bind, pure_ok]
    refine .returned ((alters.keeps inv.owned).performed kept .decref ?_)
    rw [tally_release spare counted, ← tally_of_held held]
    rfl
  | incopen v =>
    obtain ⟨_, held, spare⟩ := allowed
    obtain ⟨_, done, kept, alters, counted⟩ := inv.incopen held spare
    simp only [perform, done, ok_bind, pure_ok]
    refine .returned ((alters.keeps inv.owned).performed kept .incopen ?_)
    rw [tally_update counted, ← tally_of_held held]
    rfl
  | decopen v =>
    obtain ⟨_, held, opened⟩ := allowed
    obtain ⟨_, done, kept, alters, counted⟩ := inv.decopen held opened
    simp only [perform, done, ok_bind, pure_ok]
    refine .returned ((alters.keeps inv.owned).performed kept .decopen ?_)
    rw [tally_update counted, ← tally_of_held held]
    rfl

end

end Os161.Sfs
