import Os161.Sfs.FileArray

namespace Os161.Sfs
open Word Outcome Bytes Territory Function List SfsFile

/-- The first loop of `sfs_truncate` at one direct block -/
def truncateDirect (blocklen : Nat) (f : SfsFile) (i : Fin 15) : Kernel SfsFile := do
  let block := f.sv.inode.direct i
  if blocklen ≤ i ∧ block ≠ 0 then
    let vol ← sfsBfree f.vol block
    return ⟨vol, f.sv.setDirect i 0⟩
  else return f

/-- The free map, the buffer and the two flags of the second loop of `sfs_truncate` -/
structure IdScan where
  vol : Volume
  idbuf : Nat → Word32
  hasnonzero : Bool
  iddirty : Bool

/-- The scan after an entry has been discarded -/
def IdScan.discard (s : IdScan) (vol : Volume) (j : Nat) : IdScan :=
  { s with vol := vol, idbuf := update s.idbuf j 0, iddirty := true }

def IdScan.notice (s : IdScan) (j : Nat) : IdScan :=
  { s with hasnonzero := s.hasnonzero || s.idbuf j ≠ 0 }

/-- The second loop of `sfs_truncate` at one entry of the indirect block -/
def truncateEntry (blocklen : Nat) (s : IdScan) (j : Nat) : Kernel IdScan := do
  if blocklen < 15 + j ∧ s.idbuf j ≠ 0 then
    let vol ← sfsBfree s.vol (s.idbuf j)
    return (s.discard vol j).notice j
  else return s.notice j

/-- `sfs_truncate` behind its first loop -/
def truncateIndirect (blocklen : Nat) (f : SfsFile) : Kernel SfsFile := do
  let idblock := f.sv.inode.indirect
  if blocklen < 15 + 128 - 1 ∧ idblock ≠ 0 then
    let idbuf ← sfsRblock f.vol idblock
    let s ← (List.range 128).foldlM (truncateEntry blocklen) ⟨f.vol, idbuf.word, false, false⟩
    if s.hasnonzero = false then
      let vol ← sfsBfree s.vol idblock
      return ⟨vol, f.sv.setIndirect 0⟩
    else if s.iddirty then
      let vol ← sfsWblock s.vol (.ofWords s.idbuf) idblock
      return ⟨vol, f.sv⟩
    else return ⟨s.vol, f.sv⟩
  else return f

def SfsFile.setSize (f : SfsFile) (len : Nat) : SfsFile :=
  { f with
    sv := { f.sv with inode := { f.sv.inode with size := BitVec.ofNat 32 len }, dirty := true } }

/-- The length in blocks that `sfs_truncate` computes in 32 bits. -/
def blocklenOf (len : Nat) : Nat := (len + 511) / 512 % 2 ^ 32

def sfsTruncate (f : SfsFile) (len : Nat) : Kernel SfsFile := do
  let f ← (List.finRange 15).foldlM (truncateDirect (blocklenOf len)) f
  let f ← truncateIndirect (blocklenOf len) f
  return f.setSize len

/-- Some blocks become free, and the rest of the free map stays. -/
structure Volume.Frees (v : Volume) (gone : Word32 → Prop) (v' : Volume) : Prop where
  follows : v.Follows v'
  marks : ∀ index, v'.freemap.bits index = true ↔
    v.freemap.bits index = true ∧ ∀ block, gone block → block.toNat ≠ index

section

variable {v v' v'' : Volume} {gone more : Word32 → Prop}

theorem Volume.Frees.of_none (none : ∀ block, ¬ gone block) : v.Frees gone v where
  follows := .refl v
  marks _ := (and_iff_left fun block mem => absurd mem (none block)).symm

theorem Volume.frees_free (v : Volume) (block : Word32) : v.Frees (· = block) (v.free block) where
  follows := v.follows_free block
  marks index := by
    simp only [Volume.free]
    by_cases same : index = block.toNat
    · simp [same]
    · simp [update_of_ne same, Ne.symm same]

theorem Volume.Frees.trans (first : v.Frees gone v') (second : v'.Frees more v'') :
    v.Frees (fun block => gone block ∨ more block) v'' where
  follows := first.follows.trans second.follows
  marks index := by
    rw [second.marks, first.marks, and_assoc]
    refine and_congr_right fun _ => ?_
    simp only [or_imp, forall_and]

section

variable (frees : v.Frees gone v')
include frees

theorem Volume.Frees.congr (same : ∀ block, gone block ↔ more block) :
    v.Frees more v' where
  follows := frees.follows
  marks index := by
    rw [frees.marks]
    simp only [same]

theorem Volume.Frees.put (block : Word32) (data : Block) :
    v.Frees gone (v'.put block data) where
  follows := frees.follows.disk _
  marks := frees.marks

theorem Volume.Frees.used (block : Word32) : v'.Used block ↔ v.Used block ∧ ¬ gone block := by
  rw [Volume.Used, frees.marks]
  refine and_congr_right fun _ => ?_
  constructor
  · intro apart mem
    exact apart block mem rfl
  · rintro kept other mem same
    exact kept (BitVec.eq_of_toNat_eq same ▸ mem)

theorem Volume.Frees.sound (sound : v.Sound) (inside : ∀ block, gone block → block ≠ 0 ∧ block < v.nblocks) :
    v'.Sound := by
  obtain ⟨blocks, nblocks, nbits, _⟩ := frees.follows
  refine ⟨?_, ?_, ?_, ?_, ?_⟩
  · rw [nblocks, blocks]
    exact sound.device
  · rw [nblocks]
    exact sound.addressable
  · rw [nblocks, nbits]
    exact sound.mapped
  · intro index beyond within
    rw [nblocks] at beyond
    rw [Bitmap.room, nbits] at within
    refine (frees.marks index).mpr ⟨sound.tail index beyond within, ?_⟩
    intro block mem
    have small := BitVec.lt_def.mp (inside block mem).2
    exact Nat.ne_of_lt (Nat.lt_of_lt_of_le small beyond)
  · refine (frees.marks 0).mpr ⟨sound.super, ?_⟩
    intro block mem zero
    exact (inside block mem).1 (BitVec.eq_of_toNat_eq zero)

end

end

/-- Some places of a file lose their blocks. Only the indirect block may change on the disk. -/
structure SfsFile.Drops (f : SfsFile) (dropped : Slot → Prop) (f' : SfsFile) : Prop where
  self : ¬ dropped .self
  gone : ∀ slot, dropped slot → f'.blockAt slot = 0
  stays : ∀ slot, ¬ dropped slot → f'.blockAt slot = f.blockAt slot
  frees : f.vol.Frees (fun block => block ≠ 0 ∧ ∃ slot, dropped slot ∧ f.blockAt slot = block) f'.vol
  kept : ∀ block, (f.sv.inode.indirect = 0 ∨ block ≠ f.sv.inode.indirect) →
    f'.vol.disk block = f.vol.disk block
  vnode : f.sv.Remains f'.sv
  size : f'.sv.inode.size = f.sv.inode.size

section

variable {f g h : SfsFile} {dropped more : Slot → Prop}

theorem SfsFile.Drops.of_vacant (self : ¬ dropped .self)
    (vacant : ∀ slot, dropped slot → f.blockAt slot = 0) : f.Drops dropped f where
  self := self
  gone := vacant
  stays _ _ := rfl
  frees := .of_none (by
    rintro block ⟨nonzero, slot, mem, rfl⟩
    exact nonzero (vacant slot mem))
  kept _ _ := rfl
  vnode := .refl _
  size := rfl

theorem SfsFile.Drops.taken (drops : f.Drops dropped g) (taken : g.blockAt slot ≠ 0) :
    ¬ dropped slot ∧ g.blockAt slot = f.blockAt slot := by
  have kept : ¬ dropped slot := fun mem => taken (drops.gone slot mem)
  exact ⟨kept, drops.stays slot kept⟩

theorem SfsFile.Drops.trans (first : f.Drops dropped g) (second : g.Drops more h) :
    f.Drops (fun slot => dropped slot ∨ more slot) h where
  self either := either.elim first.self second.self
  gone slot mem := by
    by_contra taken
    obtain ⟨kept, same⟩ := second.taken taken
    exact taken (same.trans (first.gone slot (mem.resolve_right kept)))
  stays slot kept := by
    push Not at kept
    rw [second.stays slot kept.2, first.stays slot kept.1]
  frees := by
    refine (first.frees.trans second.frees).congr fun block => ?_
    constructor
    · rintro (⟨nonzero, slot, mem, same⟩ | ⟨nonzero, slot, mem, rfl⟩)
      · exact ⟨nonzero, slot, .inl mem, same⟩
      · exact ⟨nonzero, slot, .inr mem, (first.taken nonzero).2.symm⟩
    · rintro ⟨nonzero, slot, mem, rfl⟩
      by_cases early : dropped slot
      · exact .inl ⟨nonzero, slot, early, rfl⟩
      · exact .inr ⟨nonzero, slot, mem.resolve_left early, first.stays slot early⟩
  kept block apart := by
    rw [second.kept block, first.kept block apart]
    by_cases early : dropped .indirect
    · exact .inl (first.gone .indirect early)
    · have same : g.sv.inode.indirect = f.sv.inode.indirect := first.stays .indirect early
      rw [same]
      exact apart
  vnode := first.vnode.trans second.vnode
  size := second.size.trans first.size

section

variable (drops : f.Drops dropped g)
include drops

theorem SfsFile.Drops.congr (same : ∀ slot, dropped slot ↔ more slot) : f.Drops more g := by
  obtain rfl : dropped = more := funext fun slot => propext (same slot)
  exact drops

theorem SfsFile.Drops.sound (sound : f.Sound) : g.Sound where
  volume := drops.frees.sound sound.volume (by
    rintro block ⟨nonzero, slot, _, rfl⟩
    exact ⟨nonzero, sound.below slot nonzero⟩)
  self := by
    rw [drops.vnode.ino]
    exact sound.self
  below slot taken := by
    have same := (drops.taken taken).2
    rw [same] at taken ⊢
    rw [drops.frees.follows.nblocks]
    exact sound.below slot taken
  used slot taken := by
    obtain ⟨kept, same⟩ := drops.taken taken
    rw [same] at taken ⊢
    refine (drops.frees.used _).mpr ⟨sound.used slot taken, ?_⟩
    rintro ⟨nonzero, other, mem, equal⟩
    exact kept (sound.once equal.symm nonzero ▸ mem)
  once {first second} same taken := by
    have one := (drops.taken taken).2
    have two := (drops.taken (same ▸ taken)).2
    rw [one] at taken
    rw [one, two] at same
    exact sound.once same taken

theorem SfsFile.Drops.territory (block : Word32) :
    block ∈ g.territory ↔ block ≠ 0 ∧ ∃ slot, ¬ dropped slot ∧ f.blockAt slot = block := by
  constructor
  · rintro ⟨present, slot, rfl⟩
    obtain ⟨kept, same⟩ := drops.taken present
    exact ⟨present, slot, kept, same.symm⟩
  · rintro ⟨present, slot, kept, rfl⟩
    exact ⟨present, slot, drops.stays slot kept⟩

theorem SfsFile.Drops.evolves (sound : f.Sound) : f.Evolves g where
  sound := drops.sound sound
  change :=
    { fresh := by
        intro block mem
        obtain ⟨present, slot, _, same⟩ := (drops.territory block).mp mem
        exact .inl ⟨present, slot, same⟩
      marks := by
        intro block
        rw [drops.frees.used, drops.territory]
        constructor
        · rintro ⟨used, kept⟩
          by_cases mem : block ∈ f.territory
          · obtain ⟨present, slot, same⟩ := mem
            exact .inr ⟨present, slot, fun lost => kept ⟨present, slot, lost, same⟩, same⟩
          · exact .inl ⟨used, mem⟩
        · rintro (⟨used, apart⟩ | ⟨present, slot, kept, rfl⟩)
          · exact ⟨used, fun ⟨present, slot, _, same⟩ => apart ⟨present, slot, same⟩⟩
          · refine ⟨sound.used slot present, ?_⟩
            rintro ⟨_, other, mem, same⟩
            exact kept (sound.once same.symm present ▸ mem)
      kept := by
        intro block _ apart
        refine drops.kept block ?_
        by_cases bare : f.sv.inode.indirect = 0
        · exact .inl bare
        · refine .inr ?_
          rintro rfl
          exact apart ⟨bare, .indirect, rfl⟩ }
  follows := drops.frees.follows
  vnode := drops.vnode
  unwritten := by
    refine drops.kept _ (.inr ?_)
    intro same
    have distinct := sound.once (show f.blockAt .self = f.blockAt .indirect from same) sound.self
    cases distinct

theorem SfsFile.Drops.content (sound : f.Sound) (pos : Nat) :
    (dropped (.data (pos / 512)) → g.content pos = 0) ∧
      (¬ dropped (.data (pos / 512)) → g.content pos = f.content pos) := by
  constructor
  · intro mem
    exact if_pos (drops.gone _ mem)
  · intro kept
    have same : g.dataBlock (pos / 512) = f.dataBlock (pos / 512) := drops.stays _ kept
    simp only [SfsFile.content, same]
    by_cases hole : f.dataBlock (pos / 512) = 0
    · rw [if_pos hole, if_pos hole]
    · rw [if_neg hole, if_neg hole, drops.kept]
      refine .inr ?_
      intro equal
      have distinct := sound.once
        (show f.blockAt (.data (pos / 512)) = f.blockAt .indirect from equal) hole
      cases distinct

end

end

section

variable {f : SfsFile} {blocklen : Nat}

theorem SfsFile.dropsDirect (taken : f.sv.inode.direct i ≠ 0) :
    f.Drops (· = .data i) ⟨f.vol.free (f.sv.inode.direct i), f.sv.setDirect i 0⟩ where
  self := nofun
  gone slot mem := by
    subst mem
    rw [SfsFile.blockAt, dataBlock_direct]
    exact update_self ..
  stays slot kept := by
    cases slot with
    | self => rfl
    | indirect => rfl
    | data k =>
      by_cases low : k < 15
      · have differ : (⟨k, low⟩ : Fin 15) ≠ i := by
          rintro rfl
          exact kept rfl
        simp only [SfsFile.blockAt, SfsFile.dataBlock, dif_pos low]
        exact update_of_ne differ ..
      · rw [SfsFile.blockAt, SfsFile.blockAt, dataBlock_high _ (by omega), dataBlock_high _ (by omega)]
        rfl
  frees := by
    refine (f.vol.frees_free _).congr fun block => ?_
    constructor
    · rintro rfl
      exact ⟨taken, .data i, rfl, dataBlock_direct f i⟩
    · rintro ⟨_, _, rfl, same⟩
      exact same.symm.trans (dataBlock_direct f i)
  kept _ _ := rfl
  vnode := ⟨rfl, rfl, rfl, rfl, rfl, .inl rfl⟩
  size := rfl

theorem truncateDirect_drops (sound : f.Sound) (i : Fin 15) :
    ∃ f', truncateDirect blocklen f i = .ok f' ∧
      f.Drops (fun slot => slot = .data i ∧ blocklen ≤ i) f' := by
  have mapped : f.blockAt (.data i) = f.sv.inode.direct i := dataBlock_direct f i
  have below := sound.below (.data i)
  have used := sound.used (.data i)
  rw [mapped] at below used
  unfold truncateDirect
  by_cases free : blocklen ≤ i ∧ f.sv.inode.direct i ≠ 0
  · simp only [if_pos free, sound.volume.bfree (below free.2) (used free.2)]
    refine ⟨_, rfl, (SfsFile.dropsDirect free.2).congr fun slot => ?_⟩
    exact (and_iff_left free.1).symm
  · simp only [if_neg free]
    refine ⟨f, rfl, .of_vacant nofun ?_⟩
    rintro _ ⟨rfl, beyond⟩
    by_contra taken
    exact free ⟨beyond, mapped ▸ taken⟩

theorem truncateDirects (sound : f.Sound) (indices : List (Fin 15)) :
    ∃ f', indices.foldlM (truncateDirect blocklen) f = .ok f' ∧
      f.Drops (fun slot => ∃ i ∈ indices, slot = .data i ∧ blocklen ≤ i) f' := by
  induction indices generalizing f with
  | nil => exact ⟨f, rfl, .of_vacant nofun nofun⟩
  | cons i rest ih =>
    obtain ⟨g, first, drops⟩ : ∃ g, truncateDirect blocklen f i = .ok g ∧ _ :=
      truncateDirect_drops sound i
    obtain ⟨f', loop, others⟩ := ih (drops.sound sound)
    refine ⟨f', ?_, (drops.trans others).congr fun slot => ?_⟩
    · rw [foldlM_cons, first, ok_bind, loop]
    · simp only [mem_cons, exists_eq_or_imp]

end

/-- What a pass of the second loop over some entries leaves. -/
structure Scanned (blocklen : Nat) (entries : List Nat) (s s' : IdScan) : Prop where
  frees : s.vol.Frees
    (fun block => block ≠ 0 ∧ ∃ j ∈ entries, blocklen < 15 + j ∧ s.idbuf j = block) s'.vol
  disk : s'.vol.disk = s.vol.disk
  idbuf : ∀ j, s'.idbuf j = if j ∈ entries ∧ blocklen < 15 + j then 0 else s.idbuf j
  hasnonzero : s'.hasnonzero = true ↔ s.hasnonzero = true ∨ ∃ j ∈ entries, s'.idbuf j ≠ 0
  iddirty : s'.iddirty = true ↔
    s.iddirty = true ∨ ∃ j ∈ entries, blocklen < 15 + j ∧ s.idbuf j ≠ 0

section

variable {blocklen : Nat} {s s' s'' : IdScan} {entries others : List Nat}

theorem Scanned.taken (scanned : Scanned blocklen entries s s') (taken : s'.idbuf j ≠ 0) :
    ¬ (j ∈ entries ∧ blocklen < 15 + j) ∧ s'.idbuf j = s.idbuf j := by
  rw [scanned.idbuf] at taken ⊢
  split
  · rw [if_pos ‹_›] at taken
    exact absurd rfl taken
  · exact ⟨‹_›, rfl⟩

theorem Scanned.trans (first : Scanned blocklen entries s s') (second : Scanned blocklen others s' s'') :
    Scanned blocklen (entries ++ others) s s'' where
  frees := by
    refine (first.frees.trans second.frees).congr fun block => ?_
    constructor
    · rintro (⟨nonzero, j, mem, beyond, same⟩ | ⟨nonzero, j, mem, beyond, rfl⟩)
      · exact ⟨nonzero, j, mem_append_left _ mem, beyond, same⟩
      · exact ⟨nonzero, j, mem_append_right _ mem, beyond, (first.taken nonzero).2.symm⟩
    · rintro ⟨nonzero, j, mem, beyond, rfl⟩
      by_cases early : j ∈ entries
      · exact .inl ⟨nonzero, j, early, beyond, rfl⟩
      · have late := (mem_append.mp mem).resolve_left early
        refine .inr ⟨nonzero, j, late, beyond, ?_⟩
        rw [first.idbuf, if_neg fun both => early both.1]
  disk := second.disk.trans first.disk
  idbuf j := by
    rw [second.idbuf, first.idbuf]
    by_cases beyond : blocklen < 15 + j <;> by_cases early : j ∈ entries <;> simp [beyond, early]
  hasnonzero := by
    rw [second.hasnonzero, first.hasnonzero, or_assoc]
    refine or_congr_right ?_
    simp only [mem_append, or_and_right, exists_or]
    refine or_congr_left (exists_congr fun j => and_congr_right fun mem => ?_)
    rw [second.idbuf]
    split
    · rename_i beyond
      rw [first.idbuf, if_pos ⟨mem, beyond.2⟩]
    · rfl
  iddirty := by
    rw [second.iddirty, first.iddirty, or_assoc]
    refine or_congr_right ?_
    simp only [mem_append, or_and_right, exists_or]
    constructor
    · rintro (early | ⟨j, mem, beyond, taken⟩)
      · exact .inl early
      · exact .inr ⟨j, mem, beyond, (first.taken taken).2 ▸ taken⟩
    · rintro (early | ⟨j, mem, beyond, taken⟩)
      · exact .inl early
      · by_cases here : j ∈ entries
        · exact .inl ⟨j, here, beyond, taken⟩
        · refine .inr ⟨j, mem, beyond, ?_⟩
          rw [first.idbuf, if_neg fun both => here both.1]
          exact taken

theorem truncateEntry_scanned (sound : s.vol.Sound)
    (owned : s.idbuf j ≠ 0 → s.idbuf j < s.vol.nblocks ∧ s.vol.Used (s.idbuf j)) :
    ∃ s', truncateEntry blocklen s j = .ok s' ∧ Scanned blocklen [j] s s' := by
  unfold truncateEntry
  by_cases free : blocklen < 15 + j ∧ s.idbuf j ≠ 0
  · obtain ⟨below, used⟩ := owned free.2
    simp only [if_pos free, sound.bfree below used]
    refine ⟨_, rfl, ?_, rfl, ?_, ?_, ?_⟩
    · refine (s.vol.frees_free _).congr fun block => ?_
      constructor
      · rintro rfl
        exact ⟨free.2, j, mem_singleton_self j, free.1, rfl⟩
      · rintro ⟨_, k, mem, _, same⟩
        rw [← same, mem_singleton.mp mem]
    · intro k
      by_cases same : k = j
      · subst same
        rw [if_pos ⟨mem_singleton_self k, free.1⟩]
        exact update_self ..
      · rw [if_neg fun both => same (mem_singleton.mp both.1)]
        exact update_of_ne same ..
    · simp [IdScan.notice, IdScan.discard]
    · exact iff_of_true rfl (.inr ⟨j, mem_singleton_self j, free⟩)
  · simp only [if_neg free]
    have kept (beyond : blocklen < 15 + j) : s.idbuf j = 0 := by
      by_contra taken
      exact free ⟨beyond, taken⟩
    refine ⟨_, rfl, .of_none ?_, rfl, ?_, ?_, ?_⟩
    · rintro block ⟨nonzero, k, mem, beyond, same⟩
      obtain rfl := mem_singleton.mp mem
      exact nonzero (same.symm.trans (kept beyond))
    · intro k
      split
      · rename_i both
        obtain rfl := mem_singleton.mp both.1
        exact kept both.2
      · rfl
    · simp [IdScan.notice]
    · simp only [mem_singleton, exists_eq_left]
      exact (or_iff_left fun both => free both).symm

theorem truncateEntries (sound : s.vol.Sound) (nodup : entries.Nodup)
    (owned : ∀ j ∈ entries, s.idbuf j ≠ 0 → s.idbuf j < s.vol.nblocks ∧ s.vol.Used (s.idbuf j))
    (once : ∀ j k, s.idbuf j = s.idbuf k → s.idbuf j ≠ 0 → j ∈ entries → k ∈ entries → j = k) :
    ∃ s', entries.foldlM (truncateEntry blocklen) s = .ok s' ∧ Scanned blocklen entries s s' := by
  induction entries generalizing s with
  | nil =>
    refine ⟨s, rfl, .of_none ?_, rfl, ?_, ?_, ?_⟩ <;> simp
  | cons j rest ih =>
    obtain ⟨fresh, nodup⟩ := nodup_cons.mp nodup
    obtain ⟨s₁, first, scanned⟩ : ∃ s', truncateEntry blocklen s j = .ok s' ∧ _ :=
      truncateEntry_scanned sound (owned j mem_cons_self)
    have same {k : Nat} (mem : k ∈ rest) : s₁.idbuf k = s.idbuf k := by
      rw [scanned.idbuf, if_neg]
      rintro ⟨single, _⟩
      exact fresh (mem_singleton.mp single ▸ mem)
    have inside : ∀ block, (block ≠ 0 ∧ ∃ k ∈ [j], blocklen < 15 + k ∧ s.idbuf k = block) →
        block ≠ 0 ∧ block < s.vol.nblocks := by
      rintro block ⟨nonzero, k, mem, _, rfl⟩
      obtain rfl := mem_singleton.mp mem
      exact ⟨nonzero, (owned k mem_cons_self nonzero).1⟩
    obtain ⟨s', loop, others⟩ := ih (scanned.frees.sound sound inside) nodup
      (by
        intro k mem taken
        rw [same mem] at taken ⊢
        obtain ⟨below, used⟩ := owned k (mem_cons_of_mem j mem) taken
        rw [scanned.frees.follows.nblocks, scanned.frees.used]
        refine ⟨below, used, ?_⟩
        rintro ⟨_, other, single, _, equal⟩
        obtain rfl := mem_singleton.mp single
        have equal := once other k equal (equal ▸ taken) mem_cons_self
          (mem_cons_of_mem other mem)
        exact fresh (equal ▸ mem))
      (by
        intro k l equal taken here there
        rw [same here] at equal taken
        rw [same there] at equal
        exact once k l equal taken (mem_cons_of_mem j here) (mem_cons_of_mem j there))
    refine ⟨s', ?_, scanned.trans others⟩
    rw [foldlM_cons, first, ok_bind, loop]

end

/-- What `sfs_truncate` drops behind its first loop: the entries of the indirect block from the one after
the new end on, and the indirect block if no other entry is left. It drops nothing if the new end is in
the last entry. -/
def SfsFile.pastIndirect (f : SfsFile) (blocklen : Nat) : Slot → Prop
  | .self => False
  | .indirect => blocklen < 142 ∧ ∀ k, 15 ≤ k → f.dataBlock k ≠ 0 → blocklen < k
  | .data k => 15 ≤ k ∧ blocklen < 142 ∧ blocklen < k

section

variable {f : SfsFile} {blocklen : Nat} {s : IdScan} {vol : Volume}

/-- The indirect block as the second loop finds it -/
def SfsFile.entries (f : SfsFile) : IdScan :=
  ⟨f.vol, (f.vol.disk f.sv.inode.indirect).word, false, false⟩

theorem SfsFile.entries_iff (attached : f.sv.inode.indirect ≠ 0) (holds : Nat → Word32 → Prop) :
    (∃ j ∈ List.range 128, f.entries.idbuf j ≠ 0 ∧ holds (15 + j) (f.entries.idbuf j)) ↔
      ∃ k, 15 ≤ k ∧ f.dataBlock k ≠ 0 ∧ holds k (f.dataBlock k) := by
  constructor
  · rintro ⟨j, mem, taken⟩
    have mapped := dataBlock_entry attached (mem_range.mp mem)
    exact ⟨15 + j, Nat.le_add_right .., mapped ▸ taken⟩
  · rintro ⟨k, high, taken, rest⟩
    have small : k < 143 := by
      by_contra beyond
      exact taken (dataBlock_beyond f (by omega))
    have index : 15 + (k - 15) = k := by omega
    have mapped : f.dataBlock (15 + (k - 15)) = f.entries.idbuf (k - 15) :=
      dataBlock_entry attached (by omega)
    rw [index] at mapped
    refine ⟨k - 15, mem_range.mpr (by omega), ?_⟩
    rw [index, ← mapped]
    exact ⟨taken, rest⟩

section

variable (scanned : Scanned blocklen (List.range 128) f.entries s) (attached : f.sv.inode.indirect ≠ 0)
include scanned attached

theorem Scanned.hasnonzero_iff : s.hasnonzero = true ↔ ∃ k, 15 ≤ k ∧ f.dataBlock k ≠ 0 ∧ k ≤ blocklen := by
  rw [scanned.hasnonzero, ← entries_iff attached fun k _ => k ≤ blocklen]
  simp only [SfsFile.entries, Bool.false_eq_true, false_or]
  refine exists_congr fun j => and_congr_right fun mem => ?_
  rw [scanned.idbuf]
  by_cases beyond : blocklen < 15 + j
  · simp [mem, beyond]
  · simp [Nat.not_lt.mp beyond, SfsFile.entries]

theorem Scanned.frees_iff :
    f.vol.Frees (fun block => block ≠ 0 ∧ ∃ k, 15 ≤ k ∧ blocklen < k ∧ f.dataBlock k = block) s.vol := by
  refine scanned.frees.congr fun block => ?_
  have translated := entries_iff attached fun k other => blocklen < k ∧ other = block
  constructor
  · rintro ⟨nonzero, j, mem, beyond, same⟩
    obtain ⟨k, high, _, rest⟩ := translated.mp ⟨j, mem, same ▸ nonzero, beyond, same⟩
    exact ⟨nonzero, k, high, rest⟩
  · rintro ⟨nonzero, k, high, beyond, same⟩
    obtain ⟨j, mem, _, rest⟩ := translated.mpr ⟨k, high, same ▸ nonzero, beyond, same⟩
    exact ⟨nonzero, j, mem, rest⟩

theorem Scanned.drops_kept (short : blocklen < 142) (remains : s.hasnonzero = true)
    (frees : f.vol.Frees (fun block => block ≠ 0 ∧ ∃ k, 15 ≤ k ∧ blocklen < k ∧ f.dataBlock k = block) vol)
    (kept : ∀ block, block ≠ f.sv.inode.indirect → vol.disk block = f.vol.disk block)
    (stored : ∀ j < 128, (vol.disk f.sv.inode.indirect).word j = s.idbuf j) :
    f.Drops (f.pastIndirect blocklen) ⟨vol, f.sv⟩ := by
  obtain ⟨last, high, taken, prev⟩ := (scanned.hasnonzero_iff attached).mp remains
  have attachedAfter : (⟨vol, f.sv⟩ : SfsFile).sv.inode.indirect ≠ 0 := attached
  have staying : ¬ f.pastIndirect blocklen .indirect := by
    rintro ⟨_, all⟩
    have beyond := all last high taken
    omega
  refine ⟨id, ?_, ?_, ?_, ?_, .refl _, rfl⟩
  · intro slot mem
    cases slot with
    | self => exact mem.elim
    | indirect => exact absurd mem staying
    | data k =>
      obtain ⟨high, _, beyond⟩ := mem
      by_cases far : 143 ≤ k
      · exact dataBlock_beyond _ far
      · have mapped := dataBlock_entry attachedAfter (show k - 15 < 128 by omega)
        rw [show 15 + (k - 15) = k by omega, stored _ (by omega), scanned.idbuf,
          if_pos ⟨mem_range.mpr (by omega), by omega⟩] at mapped
        exact mapped
  · intro slot stays
    cases slot with
    | self => rfl
    | indirect => rfl
    | data k =>
      by_cases low : k < 15
      · simp only [SfsFile.blockAt, SfsFile.dataBlock, dif_pos low]
      · have near : k ≤ blocklen := by
          by_contra beyond
          exact stays ⟨by omega, short, by omega⟩
        have prev := dataBlock_entry attached (show k - 15 < 128 by omega)
        have after := dataBlock_entry attachedAfter (show k - 15 < 128 by omega)
        rw [show 15 + (k - 15) = k by omega] at prev after
        rw [stored _ (by omega), scanned.idbuf, if_neg (by omega)] at after
        exact after.trans prev.symm
  · refine frees.congr fun block => and_congr_right fun _ => ?_
    constructor
    · rintro ⟨k, high, beyond, same⟩
      exact ⟨.data k, ⟨high, short, beyond⟩, same⟩
    · rintro ⟨slot, mem, same⟩
      cases slot with
      | self => exact mem.elim
      | indirect => exact absurd mem staying
      | data k => exact ⟨k, mem.1, mem.2.2, same⟩
  · rintro block (bare | apart)
    · exact absurd bare attached
    · exact kept block apart

theorem Scanned.drops_all (short : blocklen < 142) (empty : s.hasnonzero = false) :
    f.Drops (f.pastIndirect blocklen) ⟨s.vol.free f.sv.inode.indirect, f.sv.setIndirect 0⟩ := by
  have bare : (f.sv.setIndirect 0).inode.indirect = 0 := rfl
  have all (k : Nat) (high : 15 ≤ k) (taken : f.dataBlock k ≠ 0) : blocklen < k := by
    by_contra near
    have remains := (scanned.hasnonzero_iff attached).mpr ⟨k, high, taken, by omega⟩
    rw [empty] at remains
    cases remains
  refine ⟨id, ?_, ?_, ?_, ?_, ⟨rfl, rfl, rfl, rfl, rfl, .inl rfl⟩, rfl⟩
  · intro slot mem
    cases slot with
    | self => exact mem.elim
    | indirect => rfl
    | data k => exact dataBlock_bare bare mem.1
  · intro slot stays
    cases slot with
    | self => rfl
    | indirect => exact absurd ⟨short, all⟩ stays
    | data k =>
      by_cases low : k < 15
      · simp only [SfsFile.blockAt, SfsFile.dataBlock, dif_pos low]
        rfl
      · have hole : f.dataBlock k = 0 := by
          by_contra taken
          exact stays ⟨by omega, short, all k (by omega) taken⟩
        exact (dataBlock_bare bare (by omega)).trans hole.symm
  · refine ((scanned.frees_iff attached).trans (s.vol.frees_free _)).congr fun block => ?_
    constructor
    · rintro (⟨nonzero, k, high, beyond, same⟩ | rfl)
      · exact ⟨nonzero, .data k, ⟨high, short, beyond⟩, same⟩
      · exact ⟨attached, .indirect, ⟨short, all⟩, rfl⟩
    · rintro ⟨nonzero, slot, mem, same⟩
      cases slot with
      | self => exact mem.elim
      | indirect => exact .inr same.symm
      | data k => exact .inl ⟨nonzero, k, mem.1, mem.2.2, same⟩
  · intro block _
    rw [Volume.disk_free, scanned.disk]
    rfl

end

theorem truncateIndirect_drops (sound : f.Sound) (blocklen : Nat) :
    ∃ f', truncateIndirect blocklen f = .ok f' ∧ f.Drops (f.pastIndirect blocklen) f' := by
  unfold truncateIndirect
  by_cases both : blocklen < 142 ∧ f.sv.inode.indirect ≠ 0
  · obtain ⟨short, attached⟩ := both
    have below := sound.indirect_below attached
    have entry (j : Nat) (mem : j ∈ List.range 128) : f.blockAt (.data (15 + j)) = f.entries.idbuf j :=
      dataBlock_entry attached (mem_range.mp mem)
    obtain ⟨s, loop, scanned⟩ : ∃ s, (List.range 128).foldlM (truncateEntry blocklen) f.entries = .ok s ∧ _ :=
      truncateEntries sound.volume nodup_range
        (by
          intro j mem taken
          rw [← entry j mem] at taken ⊢
          exact ⟨sound.below _ taken, sound.used _ taken⟩)
        (by
          intro j k same taken here there
          rw [← entry j here] at same taken
          rw [← entry k there] at same
          have slots := sound.once same taken
          simpa using slots)
    have frees := scanned.frees_iff attached
    have inside : ∀ block, (block ≠ 0 ∧ ∃ k, 15 ≤ k ∧ blocklen < k ∧ f.dataBlock k = block) →
        block ≠ 0 ∧ block < f.vol.nblocks := by
      rintro block ⟨nonzero, k, _, _, rfl⟩
      exact ⟨nonzero, sound.below (.data k) nonzero⟩
    have usable := frees.sound sound.volume inside
    rw [← frees.follows.nblocks] at below
    rw [SfsFile.entries] at loop
    simp only [if_pos (show blocklen < 15 + 128 - 1 ∧ f.sv.inode.indirect ≠ 0 from ⟨short, attached⟩),
      sound.volume.rblock (sound.indirect_below attached), ok_bind, loop]
    by_cases empty : s.hasnonzero = false
    · have used : s.vol.Used f.sv.inode.indirect := by
        refine (frees.used _).mpr ⟨sound.used .indirect attached, ?_⟩
        rintro ⟨_, k, _, _, same⟩
        have slots := sound.once (show f.blockAt (.data k) = f.blockAt .indirect from same)
          (show f.dataBlock k ≠ 0 from same ▸ attached)
        cases slots
      simp only [if_pos empty, usable.bfree below used]
      exact ⟨_, rfl, scanned.drops_all attached short empty⟩
    have remains : s.hasnonzero = true := by simpa using empty
    by_cases dirty : s.iddirty = true
    · simp only [if_neg empty, if_pos dirty, usable.wblock below]
      refine ⟨_, rfl, scanned.drops_kept attached short remains (frees.put _ _) ?_ ?_⟩
      · intro block apart
        rw [Volume.disk_put, update_of_ne apart, scanned.disk]
        rfl
      · intro j _
        rw [Volume.disk_put, update_self, word_ofWords]
    · simp only [if_neg empty, if_neg dirty]
      refine ⟨_, rfl, scanned.drops_kept attached short remains frees ?_ ?_⟩
      · intro block _
        rw [scanned.disk]
        rfl
      · intro j small
        rw [scanned.disk, scanned.idbuf]
        split
        · rename_i beyond
          by_contra taken
          exact dirty (scanned.iddirty.mpr (.inr ⟨j, beyond.1, beyond.2, taken⟩))
        · rfl
  · rw [if_neg (show ¬ (blocklen < 15 + 128 - 1 ∧ f.sv.inode.indirect ≠ 0) from both)]
    have bare (short : blocklen < 142) : f.sv.inode.indirect = 0 := by
      by_contra attached
      exact both ⟨short, attached⟩
    refine ⟨f, rfl, .of_vacant id ?_⟩
    intro slot mem
    cases slot with
    | self => exact mem.elim
    | indirect => exact bare mem.1
    | data k => exact dataBlock_bare (bare mem.2.1) mem.1

end

/-- What `sfs_truncate` drops for a length in blocks -/
def SfsFile.past (f : SfsFile) (blocklen : Nat) : Slot → Prop
  | .data k => if k < 15 then blocklen ≤ k else blocklen < 142 ∧ blocklen < k
  | slot => f.pastIndirect blocklen slot

theorem sfsTruncate_drops {f : SfsFile} (sound : f.Sound) (len : Nat) :
    ∃ f', sfsTruncate f len = .ok (f'.setSize len) ∧ f.Drops (f.past (blocklenOf len)) f' := by
  obtain ⟨g, directs, first⟩ : ∃ g, (List.finRange 15).foldlM (truncateDirect (blocklenOf len)) f = .ok g ∧
    _ := truncateDirects sound _
  obtain ⟨f', indirects, second⟩ := truncateIndirect_drops (first.sound sound) (blocklenOf len)
  have same (k : Nat) (high : 15 ≤ k) : g.dataBlock k = f.dataBlock k := by
    refine first.stays (.data k) ?_
    rintro ⟨i, _, equal, _⟩
    cases equal
    omega
  refine ⟨f', by rw [sfsTruncate, directs, ok_bind, indirects, ok_bind, pure_ok], ?_⟩
  refine (first.trans second).congr fun slot => ?_
  cases slot with
  | self => simp [SfsFile.past, SfsFile.pastIndirect]
  | indirect =>
    simp only [reduceCtorEq, false_and, and_false, exists_false,
      false_or]
    refine and_congr_right fun _ => forall_congr' fun k => ?_
    exact ⟨fun all high => same k high ▸ all high, fun all high => (same k high).symm ▸ all high⟩
  | data k =>
    simp only [SfsFile.past, SfsFile.pastIndirect, mem_finRange, true_and, Slot.data.injEq]
    by_cases low : k < 15
    · rw [if_pos low, or_iff_left (by omega)]
      exact ⟨fun ⟨i, equal, beyond⟩ => equal ▸ beyond, fun beyond => ⟨⟨k, low⟩, rfl, beyond⟩⟩
    · rw [if_neg low, or_iff_right (by omega)]
      exact and_iff_right (by omega)

section

variable (f : SfsFile) (len : Nat)

theorem SfsFile.setSize_blockAt (slot : Slot) : (f.setSize len).blockAt slot = f.blockAt slot := by
  cases slot <;> rfl

theorem SfsFile.setSize_content : (f.setSize len).content = f.content := rfl

theorem SfsFile.Sound.setSize_evolves {f : SfsFile} (sound : f.Sound) (len : Nat) :
    f.Evolves (f.setSize len) :=
  sound.evolves_vnode rfl (f.setSize_blockAt len) ⟨rfl, rfl, rfl, rfl, rfl, .inl rfl⟩

end

theorem sfsTruncate_evolves {f : SfsFile} (sound : f.Sound) (len : Nat) :
    ∃ f', sfsTruncate f len = .ok f' ∧ f.Evolves f' := by
  obtain ⟨g, truncated, drops⟩ := sfsTruncate_drops sound len
  exact ⟨_, truncated, (drops.evolves sound).trans ((drops.sound sound).setSize_evolves len)⟩

/-- The file has lost its blocks from an index on and no other block, and the blocks that became free are
those and the indirect block if it has no entry left. -/
structure SfsFile.CutAt (f : SfsFile) (blocks : Nat) (f' : SfsFile) : Prop where
  gone : ∀ k, blocks ≤ k → f'.dataBlock k = 0
  stays : ∀ k, k < blocks → f'.dataBlock k = f.dataBlock k
  freed : ∀ block, f.vol.Used block → (¬ f'.vol.Used block ↔ block ≠ 0 ∧
    ((∃ k, blocks ≤ k ∧ f.dataBlock k = block) ∨
      f.sv.inode.indirect = block ∧ ∀ k, 15 ≤ k → k < blocks → f.dataBlock k = 0))

/-- Truncation frees the right blocks exactly under these conditions. -/
theorem truncate_cuts_iff {f f' : SfsFile} (sound : f.Sound) {len : Nat} (small : len ≤ 143 * 512)
    (truncated : sfsTruncate f len = .ok f') :
    f.CutAt ((len + 511) / 512) f' ↔
      (15 ≤ (len + 511) / 512 → f.dataBlock ((len + 511) / 512) = 0) ∧
      (142 ≤ (len + 511) / 512 → f.sv.inode.indirect ≠ 0 →
        ∃ k, 15 ≤ k ∧ k < (len + 511) / 512 ∧ f.dataBlock k ≠ 0) := by
  obtain ⟨g, finished, drops⟩ := sfsTruncate_drops sound len
  rw [finished] at truncated
  cases truncated
  obtain ⟨blocks, length⟩ : ∃ blocks, (len + 511) / 512 = blocks := ⟨_, rfl⟩
  rw [blocklenOf, length, Nat.mod_eq_of_lt (by omega)] at drops
  rw [length]
  have places (k : Nat) : (g.setSize len).dataBlock k = g.dataBlock k := g.setSize_blockAt len (.data k)
  have marks (block : Word32) (used : f.vol.Used block) : ¬ (g.setSize len).vol.Used block ↔
      block ≠ 0 ∧ ∃ slot, f.past blocks slot ∧ f.blockAt slot = block := by
    change ¬ g.vol.Used block ↔ _
    rw [drops.frees.used]
    exact ⟨fun lost => by_contra fun kept => lost ⟨used, kept⟩, fun lost both => both.2 lost⟩
  have lastStays (high : 15 ≤ blocks) : g.dataBlock blocks = f.dataBlock blocks := by
    refine drops.stays (.data blocks) ?_
    simp only [SfsFile.past, if_neg (show ¬ blocks < 15 by omega)]
    omega
  constructor
  · rintro ⟨gone, stays, freed⟩
    refine ⟨?_, ?_⟩
    · intro high
      rw [← lastStays high]
      exact gone blocks (Nat.le_refl _)
    · intro long attached
      by_contra none
      push Not at none
      obtain ⟨_, slot, member, same⟩ := (marks _ (sound.used .indirect attached)).mp
        ((freed _ (sound.used .indirect attached)).mpr ⟨attached, .inr ⟨rfl, none⟩⟩)
      obtain rfl : .indirect = slot := sound.once same.symm attached
      have short := member.1
      omega
  · rintro ⟨last, entry⟩
    refine ⟨?_, ?_, ?_⟩
    · intro k beyond
      rw [places]
      by_cases far : 143 ≤ k
      · exact dataBlock_beyond g far
      by_cases edge : k = blocks ∧ 15 ≤ blocks
      · rw [edge.1, lastStays edge.2]
        exact last edge.2
      · refine drops.gone (.data k) ?_
        simp only [SfsFile.past]
        split <;> omega
    · intro k before
      refine drops.stays (.data k) ?_
      simp only [SfsFile.past]
      split <;> omega
    · intro block used
      rw [marks block used]
      refine and_congr_right fun nonzero => ?_
      constructor
      · rintro ⟨slot, member, same⟩
        cases slot with
        | self => exact member.elim
        | indirect =>
          refine .inr ⟨same, ?_⟩
          intro k high before
          by_contra taken
          have beyond := member.2 k high taken
          omega
        | data k =>
          refine .inl ⟨k, ?_, same⟩
          simp only [SfsFile.past] at member
          split at member <;> omega
      · rintro (⟨k, beyond, same⟩ | ⟨same, none⟩)
        · refine ⟨.data k, ?_, same⟩
          have near : k < 143 := by
            by_contra far
            exact nonzero (same.symm.trans (dataBlock_beyond f (by omega)))
          have inner : ¬ (k = blocks ∧ 15 ≤ blocks) := by
            rintro ⟨rfl, high⟩
            exact nonzero (same.symm.trans (last high))
          simp only [SfsFile.past]
          split <;> omega
        · refine ⟨.indirect, ⟨?_, ?_⟩, same⟩
          · by_contra long
            obtain ⟨k, high, before, taken⟩ := entry (by omega) (same.symm ▸ nonzero)
            exact taken (none k high before)
          · intro k high taken
            by_contra near
            by_cases edge : k = blocks
            · exact taken (edge ▸ last (edge ▸ high))
            · exact taken (none k high (by omega))

/-- A file of eighteen blocks with two of them, both named by its indirect block -/
def tailFile : SfsFile where
  vol :=
    { smallVolume with
      freemap := { nbits := 4096, bits := fun index => index ≤ 6 ∨ 8 ≤ index }
      disk := fun block =>
        if block = 4 then .ofWords fun entry => if entry = 0 then 5 else if entry = 2 then 6 else 0
        else fun _ => 7 }
  sv :=
    { emptyFile.sv with
      inode := { size := 18 * 512, type := typeFile, linkcount := 1, direct := fun _ => 0, indirect := 4 } }

theorem tailFile_dataBlock (k : Nat) :
    tailFile.dataBlock k = if k = 15 then 5 else if k = 17 then 6 else 0 := by
  by_cases low : k < 15
  · rw [if_neg (by omega), if_neg (by omega)]
    exact dif_pos low
  · rw [dataBlock_high _ (by omega)]
    change (if k < 143 ∧ (4 : Word32) ≠ 0 then
      (Block.ofWords fun entry => if entry = 0 then 5 else if entry = 2 then 6 else 0).word (k - 15)
      else 0) = _
    rw [word_ofWords]
    by_cases here : k = 15
    · rw [here]
      decide
    · rw [if_neg (show k - 15 ≠ 0 by omega), if_neg here]
      by_cases there : k = 17
      · rw [there]
        decide
      · rw [if_neg (show k - 15 ≠ 2 by omega), if_neg there, ite_self]

theorem tailFile_blocks {slot : Slot} (taken : tailFile.blockAt slot ≠ 0) :
    (slot = .self ∧ tailFile.blockAt slot = 3) ∨ (slot = .indirect ∧ tailFile.blockAt slot = 4) ∨
      (slot = .data 15 ∧ tailFile.blockAt slot = 5) ∨ (slot = .data 17 ∧ tailFile.blockAt slot = 6) := by
  cases slot with
  | self => exact .inl ⟨rfl, rfl⟩
  | indirect => exact .inr (.inl ⟨rfl, rfl⟩)
  | data k =>
    change tailFile.dataBlock k ≠ 0 at taken
    change _ ∨ _ ∨ (_ ∧ tailFile.dataBlock k = 5) ∨ (_ ∧ tailFile.dataBlock k = 6)
    rw [tailFile_dataBlock] at taken ⊢
    by_cases here : k = 15
    · exact .inr (.inr (.inl ⟨congrArg _ here, if_pos here⟩))
    by_cases there : k = 17
    · exact .inr (.inr (.inr ⟨congrArg _ there, (if_neg here).trans (if_pos there)⟩))
    · exact absurd ((if_neg here).trans (if_neg there)) taken

theorem tailFile_sound : tailFile.Sound := by
  have volume : tailFile.vol.Sound :=
    ⟨by decide, by decide, by decide, fun index beyond _ => decide_eq_true (.inr beyond), rfl⟩
  refine ⟨volume, by decide, ?_, ?_, ?_⟩
  · intro slot taken
    obtain ⟨_, block⟩ | ⟨_, block⟩ | ⟨_, block⟩ | ⟨_, block⟩ := tailFile_blocks taken
    all_goals
      rw [block]
      decide
  · intro slot taken
    obtain ⟨_, block⟩ | ⟨_, block⟩ | ⟨_, block⟩ | ⟨_, block⟩ := tailFile_blocks taken
    all_goals
      rw [block]
      rfl
  · intro first second same taken
    have other := same ▸ taken
    obtain ⟨here, block⟩ | ⟨here, block⟩ | ⟨here, block⟩ | ⟨here, block⟩ := tailFile_blocks taken
    all_goals
      rw [block] at same
      obtain ⟨there, block⟩ | ⟨there, block⟩ | ⟨there, block⟩ | ⟨there, block⟩ := tailFile_blocks other
      all_goals
        rw [block] at same
        first | exact here.trans there.symm | exact absurd same (by decide)

/-- Truncation to sixteen blocks keeps the sixteenth and frees the last one. -/
theorem truncate_cuts_tail : ∃ f', sfsTruncate tailFile (16 * 512) = .ok f' ∧ tailFile.CutAt 16 f' := by
  obtain ⟨g, truncated, _⟩ := sfsTruncate_drops tailFile_sound (16 * 512)
  refine ⟨_, truncated, (truncate_cuts_iff tailFile_sound (by decide) truncated).mpr ⟨?_, ?_⟩⟩
  · intro _
    exact tailFile_dataBlock 16
  · intro long
    exact absurd long (by decide)

/-- Truncation to fifteen blocks leaves the sixteenth. -/
theorem truncate_keeps_sixteenth : ∃ f', sfsTruncate tailFile (15 * 512) = .ok f' ∧
    f'.dataBlock 15 = 5 ∧ f'.vol.Used 5 ∧ ¬ tailFile.CutAt 15 f' := by
  obtain ⟨g, truncated, drops⟩ := sfsTruncate_drops tailFile_sound (15 * 512)
  have stays : ¬ tailFile.past (blocklenOf (15 * 512)) (.data 15) := fun member => absurd member.2 (by decide)
  have mapped : g.dataBlock 15 = 5 := drops.stays (.data 15) stays
  have used := (drops.sound tailFile_sound).used (.data 15) (show g.dataBlock 15 ≠ 0 by rw [mapped]; decide)
  refine ⟨_, truncated, mapped, ?_, ?_⟩
  · rw [SfsFile.blockAt, mapped] at used
    exact used
  · intro cut
    have gone := cut.gone 15 (by decide)
    rw [show (g.setSize (15 * 512)).dataBlock 15 = 5 from mapped] at gone
    exact absurd gone (by decide)

/-- A later growth of a truncated file and where the bytes that it adds start: by a longer truncation, or
by a write that starts behind the end and whose blocks have 32-bit numbers. -/
inductive Growth (f : SfsFile) (len : Nat) : SfsFile → Nat → Prop where
  | truncate (behind : len ≤ longer) (done : sfsTruncate f longer = .ok f') : Growth f len f' longer
  | write {u u' : Uio} {result : Errno} {f' : SfsFile} (write : u.rw = .write) (behind : len ≤ u.offset)
      (near : u.offset + u.resid ≤ 2 ^ 41) (done : sfsIo f u = .ok (result, u', f')) :
      Growth f len f' u.offset

/-- Every byte of the range that a read moves is zero. -/
def SfsFile.ReadsZero (f : SfsFile) (start stop : Nat) : Prop :=
  ∀ r result r' f', r.rw = .read → sfsIo f r = .ok (result, r', f') →
    ∀ i, r.position + i < r'.position → start ≤ r.offset + i → r.offset + i < stop →
      r'.buffer (r.position + i) = 0

theorem SfsFile.Sound.readsZero {f : SfsFile} (sound : f.Sound)
    (zero : ∀ pos, start ≤ pos → pos < stop → f.content pos = 0) :
    f.ReadsZero start stop := by
  intro r res r' f' read ran i moved above below
  obtain ⟨code, count, done, _⟩ := sfsIo_read sound read
  rw [done] at ran
  cases ran
  have within : i < count := Nat.lt_of_add_lt_add_left moved
  change copy f.content r.offset r.buffer r.position count (r.position + i) = 0
  rw [copy_inside _ _ _ _ within]
  exact zero _ above below

theorem SfsFile.ReadsZero.content {f : SfsFile} (zero : f.ReadsZero start stop) (sound : f.Sound)
    (size : f.sv.inode.size.toNat ≤ 143 * 512) (inside : position < f.sv.inode.size.toNat)
    (above : start ≤ position) (below : position < stop) : f.content position = 0 := by
  let r : Uio :=
    { offset := position, resid := 1, rw := .read, buffer := fun _ => 0, position := 0, reach := none }
  obtain ⟨res, count, finished, _, complete, success⟩ := sfsIo_read sound (show r.rw = .read from rfl)
  obtain rfl := success rfl size
  obtain rfl : count = 1 := by
    rw [complete rfl]
    change min 1 (f.sv.inode.size.toNat - position) = 1
    omega
  have byte := zero r _ _ _ rfl finished 0 Nat.one_pos above below
  exact (copy_inside f.content position (fun _ => 0) 0 Nat.one_pos).symm.trans byte

theorem SfsFile.Drops.content_past {f : SfsFile} (drops : f.Drops (f.past blocks) g) (sound : f.Sound)
    (length : (len + 511) / 512 = blocks) (behind : len ≤ pos) :
    g.content pos =
      if pos < 512 * blocks ∨ 15 ≤ blocks ∧ pos / 512 = blocks then f.content pos else 0 := by
  obtain ⟨gone, stays⟩ := drops.content sound pos
  simp only [SfsFile.past] at gone stays
  split
  · refine stays ?_
    split <;> omega
  · by_cases far : 143 ≤ pos / 512
    · exact if_pos (dataBlock_beyond g far)
    · refine gone ?_
      split <;> omega

theorem Growth.readsZero (growth : Growth f len f' stop) (sound : f.Sound)
    (zero : ∀ pos, len ≤ pos → f.content pos = 0) : f'.ReadsZero len stop := by
  cases growth with
  | truncate behind done =>
    obtain ⟨g, finished, drops⟩ := sfsTruncate_drops sound stop
    rw [finished] at done
    cases done
    refine ((drops.sound sound).setSize_evolves stop).sound.readsZero ?_
    intro pos above _
    obtain ⟨gone, stays⟩ := drops.content sound pos
    by_cases mem : f.past (blocklenOf stop) (.data (pos / 512))
    · exact gone mem
    · exact (stays mem).trans (zero pos above)
  | write write behind near done =>
    obtain ⟨res, moved, g, finished, within, wrote, _⟩ := sfsIo_write sound write
    rw [finished] at done
    cases done
    refine (wrote.evolves.sound.adjust_evolves _).sound.readsZero ?_
    intro pos above below
    rw [adjust_content, wrote.content (by omega), copy_outside _ _ _ (.inl below)]
    exact zero pos above

/-- A growth shows zeros exactly when the kept bytes behind the end are zero. -/
theorem truncated_zeros_iff {f g : SfsFile} (sound : f.Sound) {len : Nat}
    (below : len < f.sv.inode.size.toNat) (truncated : sfsTruncate f len = .ok g) :
    (∀ f' stop, Growth g len f' stop → f'.ReadsZero len stop) ↔
      (∀ position, len ≤ position → position < 512 * ((len + 511) / 512) → f.content position = 0) ∧
      (15 ≤ (len + 511) / 512 →
        ∀ position, position / 512 = (len + 511) / 512 → f.content position = 0) := by
  obtain ⟨cut, finished, drops⟩ := sfsTruncate_drops sound len
  rw [finished] at truncated
  cases truncated
  obtain ⟨blocks, length⟩ : ∃ blocks, (len + 511) / 512 = blocks := ⟨_, rfl⟩
  rw [blocklenOf, length, Nat.mod_eq_of_lt (by omega)] at drops
  rw [length]
  have cutSound := ((drops.sound sound).setSize_evolves len).sound
  have content {position : Nat} (behind : len ≤ position) := drops.content_past sound length behind
  constructor
  · intro shown
    have zero (position : Nat) (behind : len ≤ position)
        (kept : position < 512 * blocks ∨ 15 ≤ blocks ∧ position / 512 = blocks) :
        f.content position = 0 := by
      by_contra stale
      have near : position < 143 * 512 := by
        by_contra far
        exact stale (if_pos (dataBlock_beyond f (by omega)))
      obtain ⟨grown, done, drops'⟩ := sfsTruncate_drops cutSound (position + 1)
      have stays : ¬ (cut.setSize len).past (blocklenOf (position + 1)) (.data (position / 512)) := by
        simp only [SfsFile.past, blocklenOf]
        split <;> omega
      have size : (grown.setSize (position + 1)).sv.inode.size.toNat = position + 1 := by
        change (BitVec.ofNat 32 (position + 1)).toNat = _
        rw [BitVec.toNat_ofNat]
        omega
      have byte := (shown _ _ (.truncate (Nat.le_succ_of_le behind) done)).content
        ((drops'.sound cutSound).setSize_evolves _).sound (by omega) (by omega) behind
        (Nat.lt_succ_self position)
      rw [setSize_content, (drops'.content cutSound position).2 stays, setSize_content,
        content behind, if_pos kept] at byte
      exact stale byte
    refine ⟨fun position behind inside => zero position behind (.inl inside), ?_⟩
    intro high position inside
    exact zero position (by omega) (.inr ⟨high, inside⟩)
  · rintro ⟨last, next⟩ f' stop growth
    refine growth.readsZero cutSound ?_
    intro position behind
    rw [setSize_content, content behind]
    split
    · rename_i kept
      rcases kept with inside | ⟨high, inside⟩
      · exact last position behind inside
      · exact next high position inside
    · rfl

/-- Truncation to sixteen blocks leaves nothing that a growth could show. -/
theorem truncated_zeros_tail : ∃ g, sfsTruncate tailFile (16 * 512) = .ok g ∧
    ∀ f' stop, Growth g (16 * 512) f' stop → f'.ReadsZero (16 * 512) stop := by
  obtain ⟨g, truncated, _⟩ := sfsTruncate_drops tailFile_sound (16 * 512)
  refine ⟨_, truncated, (truncated_zeros_iff tailFile_sound (by decide) truncated).mpr ⟨?_, ?_⟩⟩
  · intro position behind inside
    exact absurd inside (not_lt.mpr behind)
  · intro _ position here
    refine if_pos ?_
    rw [here]
    exact tailFile_dataBlock 16

/-- Truncation to fifteen blocks and then to sixteen shows the old bytes. -/
theorem truncated_sevens_shown : ∃ g f' r, sfsTruncate tailFile (15 * 512) = .ok g ∧
    sfsTruncate g (16 * 512) = .ok f' ∧ r.rw = .read ∧ r.offset = 15 * 512 ∧ r.position = 0 ∧
    sfsIo f' r = .ok (0, r.filled f'.content 1, f') ∧ (r.filled f'.content 1).buffer 0 = 7 := by
  obtain ⟨g, truncated, drops⟩ := sfsTruncate_drops tailFile_sound (15 * 512)
  have cutSound := ((drops.sound tailFile_sound).setSize_evolves (15 * 512)).sound
  obtain ⟨grown, done, drops'⟩ := sfsTruncate_drops cutSound (16 * 512)
  have sound := ((drops'.sound cutSound).setSize_evolves (16 * 512)).sound
  have stays : ¬ tailFile.past (blocklenOf (15 * 512)) (.data (15 * 512 / 512)) :=
    fun member => absurd member.2 (by decide)
  have later : ¬ (g.setSize (15 * 512)).past (blocklenOf (16 * 512)) (.data (15 * 512 / 512)) :=
    fun member => absurd member.2 (by decide)
  have byte : grown.content (15 * 512) = 7 := by
    rw [(drops'.content cutSound (15 * 512)).2 later, setSize_content,
      (drops.content tailFile_sound (15 * 512)).2 stays]
    rfl
  let r : Uio :=
    { offset := 15 * 512, resid := 1, rw := .read, buffer := fun _ => 0, position := 0, reach := none }
  obtain ⟨result, count, finished, _, complete, success⟩ := sfsIo_read sound (show r.rw = .read from rfl)
  obtain rfl := success rfl (show (BitVec.ofNat 32 (16 * 512)).toNat ≤ 143 * 512 by decide)
  have single : count = min 1 ((BitVec.ofNat 32 (16 * 512)).toNat - 15 * 512) := complete rfl
  obtain rfl : count = 1 := single.trans (by decide)
  refine ⟨_, _, r, truncated, done, rfl, rfl, rfl, finished, ?_⟩
  exact (copy_inside grown.content (15 * 512) (fun _ => 0) 0 Nat.one_pos).trans byte

end Os161.Sfs
