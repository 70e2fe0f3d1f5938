import Os161.Lib.Tiling
import Os161.User.Malloc

namespace Os161.User
open Outcome Tiling Function List

/-- A block: its length with the header, and for a block in use the size that was asked for -/
abbrev Block := Piece (Option Nat)

/-- The header of a block behind a block of this length -/
def cell (before : Nat) (block : Block) : Mheader :=
  ⟨mkfield before, false, mMagic, mkfield block.length, block.tag.isSome, mMagic⟩

/-- A block consists of whole cells and has room for what was asked for. -/
structure Whole (block : Block) : Prop where
  cells : block.length % 8 = 0
  header : 8 ≤ block.length
  room : ∀ size, block.tag = some size → size + 8 ≤ block.length

theorem mkfield_toNat (cells : off % 8 = 0) (below : off < 2 ^ 32) : (mkfield off).toNat * 8 = off := by
  rw [mkfield, BitVec.toNat_ofNat]
  omega

section

variable {block : Block}

theorem cell_ok (prev : Nat) (block : Block) : (cell prev block).Ok := ⟨rfl, rfl⟩

@[simp] theorem cell_prevblock (prev : Nat) (block : Block) :
    (cell prev block).prevblock = mkfield prev := rfl

@[simp] theorem cell_nextblock (prev : Nat) (block : Block) :
    (cell prev block).nextblock = mkfield block.length := rfl

@[simp] theorem cell_inuse (prev : Nat) (block : Block) :
    (cell prev block).inuse = block.tag.isSome := rfl

theorem Whole.nextoff (whole : Whole block) (prev : Nat) (below : block.length < 2 ^ 32) :
    (cell prev block).nextoff = block.length := mkfield_toNat whole.cells below

theorem Whole.size (whole : Whole block) (prev : Nat) (below : block.length < 2 ^ 32) :
    (cell prev block).size = block.length - 8 := by
  have header := whole.header
  rw [Mheader.size, whole.nextoff _ below]
  omega

end

/-- The heap is tiled by these blocks, and the links of neighbours agree. -/
structure Heap.Laid (h : Heap) (blocks : List Block) : Prop where
  positive : 0 < h.heapbase
  aligned : h.heapbase % 8 = 0
  top : h.heaptop = h.heapbase + span blocks
  brk : h.brk = h.heaptop
  below : h.heaptop < 2 ^ 32
  whole : ∀ block ∈ blocks, Whole block
  linked : Linked cell h.mem h.heapbase 0 blocks

namespace Heap

variable {h h' : Heap} {blocks front mid back : List Block} {block : Block}

theorem Laid.length_pos (laid : h.Laid blocks) (mem : block ∈ blocks) :
    0 < block.length := Nat.lt_of_lt_of_le (by decide) (laid.whole block mem).header

theorem span_mod (whole : ∀ block ∈ blocks, Whole block) : span blocks % 8 = 0 := by
  induction blocks with
  | nil => rfl
  | cons block rest ih =>
    have cells := (whole block mem_cons_self).cells
    have others := ih fun other mem => whole other (mem_cons_of_mem _ mem)
    rw [span_cons]
    omega

theorem Laid.at (laid : h.Laid (front ++ block :: back)) :
    h.mem (h.heapbase + span front) = cell (lastLength 0 front) block ∧ Whole block ∧
      block.length < 2 ^ 32 := by
  have parts := linked_append.mp laid.linked
  have top := laid.top
  have below := laid.below
  rw [span_append, span_cons] at top
  exact ⟨parts.2.1, laid.whole block (by simp), by omega⟩

theorem Laid.exchange {mem : Nat → Mheader} (mid mid' : List Block) (laid : h.Laid (front ++ (mid ++ back)))
    (same : span mid' = span mid) (whole : ∀ block ∈ mid', Whole block)
    (below : ∀ addr, addr < h.heapbase + span front → mem addr = h.mem addr)
    (inside : Linked cell mem (h.heapbase + span front) (lastLength 0 front) mid')
    (above : Linked cell mem (h.heapbase + span front + span mid) (lastLength (lastLength 0 front) mid') back) :
    Laid { h with mem := mem } (front ++ (mid' ++ back)) :=
  { laid with
    top := by
      rw [laid.top]
      simp only [span_append, same]
    whole := by
      intro block member
      rcases mem_append.mp member with prev | later
      · exact laid.whole block (mem_append_left _ prev)
      · rcases mem_append.mp later with here | after
        · exact whole block here
        · exact laid.whole block (mem_append_right _ (mem_append_right _ after))
    linked := by
      refine linked_append.mpr ⟨?_, linked_append.mpr ⟨inside, same ▸ above⟩⟩
      refine (linked_append.mp laid.linked).1.frame ?_ fun addr _ high => below addr high
      intro block member
      exact laid.length_pos (mem_append_left _ member) }

theorem Laid.above (laid : h.Laid (front ++ block :: back)) :
    Linked cell h.mem (h.heapbase + span front + block.length) block.length back ∧
      (∀ other ∈ back, 0 < other.length) ∧ h.heaptop = h.heapbase + span front + block.length + span back := by
  refine ⟨(linked_append.mp laid.linked).2.2, fun other member => laid.length_pos (by simp [member]), ?_⟩
  rw [laid.top, span_append, span_cons]
  omega

theorem set_eq (addr : Nat) (mh : Mheader) :
    h.set addr mh = { h with mem := update h.mem addr mh } := rfl

theorem linkBack_end (below : Nat) (linked : Linked cell h.mem place before back)
    (top : h.heaptop = place + span back) (pos : ∀ block ∈ back, 0 < block.length) :
    ∃ mem, h.linkBack place (mkfield below) = { h with mem := mem } ∧ Linked cell mem place below back ∧
      ∀ addr, addr ≠ place → mem addr = h.mem addr := by
  cases back with
  | nil =>
    have last : place = h.heaptop := by rw [top, span_nil, Nat.add_zero]
    exact ⟨h.mem, if_neg (not_not.mpr last), trivial, fun _ _ => rfl⟩
  | cons block rest =>
    have long := pos block mem_cons_self
    have inside : place ≠ h.heaptop := by
      rw [top, span_cons]
      omega
    refine ⟨_, if_pos inside, ⟨?_, ?_⟩, fun addr apart => update_of_ne apart _ _⟩
    · rw [update_self, linked.1]
      rfl
    · refine linked.2.update (fun other member => pos other (mem_cons_of_mem _ member)) _ ?_
      exact .inl (Nat.lt_add_of_pos_right long)

/-- How the search of `malloc` ends -/
inductive SearchEnd (base : Nat) (blocks : List Block) (size : Nat) : Option Nat × BitVec 29 → Prop where
  | found {front back : List Block} {block : Block} {field : BitVec 29} (split : blocks = front ++ block :: back)
      (free : block.tag = none) (fits : size + 8 ≤ block.length) :
      SearchEnd base blocks size (some (base + span front), field)
  | none (small : ∀ block ∈ blocks, block.tag = none → block.length < size + 8) :
      SearchEnd base blocks size (none, mkfield (lastLength 0 blocks))

theorem Laid.search (laid : h.Laid (front ++ back)) (size : Nat) (enough : back.length ≤ fuel)
    (passed : ∀ block ∈ front, block.tag = none → block.length < size + 8) :
    ∃ res, h.search size fuel (h.heapbase + span front) (mkfield (lastLength 0 front)) = .ok res ∧
      SearchEnd h.heapbase (front ++ back) size res := by
  induction back generalizing front fuel with
  | nil =>
    have top := laid.top
    rw [append_nil] at top
    have done : h.searchDone (h.heapbase + span front) (mkfield (lastLength 0 front)) =
        .ok (none, mkfield (lastLength 0 (front ++ []))) := by
      rw [Heap.searchDone, if_neg (by omega), if_neg (by omega), append_nil]
    refine ⟨_, ?_, .none (by rwa [append_nil])⟩
    cases fuel with
    | zero => exact done
    | succ fuel => rw [Heap.search, if_neg (by omega), done]
  | cons block rest ih =>
    obtain ⟨header, whole, below⟩ := laid.at
    have top := laid.top
    have limit := laid.below
    have long := whole.header
    rw [span_append, span_cons] at top
    cases fuel with
    | zero => exact absurd enough (by simp)
    | succ fuel =>
      rw [Heap.search, if_pos (by omega)]
      simp only [header, cell_ok, cell_prevblock, whole.nextoff _ below,
        whole.size _ below, ne_eq, not_true, if_false]
      split_ifs with unfit
      · have laid' : h.Laid ((front ++ [block]) ++ rest) := by simpa using laid
        have next := ih laid' (Nat.le_of_succ_le_succ enough) (by
          simp only [mem_append, mem_singleton]
          rintro other (prev | rfl) free
          · exact passed other prev free
          · rcases unfit with used | short
            · rw [cell_inuse, free] at used
              cases used
            · omega)
        have place : (h.heapbase + span front + block.length) % 2 ^ 32 =
            h.heapbase + span (front ++ [block]) := by
          rw [Nat.mod_eq_of_lt (by omega)]
          simp [Nat.add_assoc]
        rw [place]
        simpa using next
      · push Not at unfit
        refine ⟨_, rfl, .found rfl ?_ (by omega)⟩
        simpa using unfit.1

theorem Laid.mark (laid : h.Laid (front ++ block :: back)) (tag : Option Nat)
    (room : ∀ size, tag = some size → size + 8 ≤ block.length) :
    Laid (h.set (h.heapbase + span front)
        { h.mem (h.heapbase + span front) with inuse := tag.isSome })
      (front ++ ⟨block.length, tag⟩ :: back) := by
  obtain ⟨header, whole, _⟩ := laid.at
  obtain ⟨after, pos, _⟩ := laid.above
  have long := whole.header
  refine Laid.exchange [block] [⟨block.length, tag⟩] laid rfl ?_ ?_ ⟨?_, trivial⟩ ?_
  · simp only [mem_singleton, forall_eq]
    exact ⟨whole.cells, whole.header, room⟩
  · intro addr low
    exact update_of_ne (by omega) _ _
  · rw [update_self, header]
    rfl
  · refine Linked.update (by simpa using after) pos _ (.inl ?_)
    simp only [span_cons]
    omega

/-- The two blocks that a free block is split into; a rest of less than two cells is not split off. -/
def splitUp (block : Block) (size : Nat) : List Block :=
  if block.length - 8 - size < 16 then [block]
  else [⟨size + 8, none⟩, ⟨block.length - 8 - size, none⟩]

theorem Laid.split (laid : h.Laid (front ++ block :: back)) (free : block.tag = none) (cells : size % 8 = 0)
    (fits : size + 8 ≤ block.length) :
    ∃ mem, h.mallocSplit (h.heapbase + span front) size = .ok { h with mem := mem } ∧
      Laid { h with mem := mem } (front ++ (splitUp block size ++ back)) := by
  obtain ⟨header, whole, below⟩ := laid.at
  obtain ⟨after, pos, top⟩ := laid.above
  have blockCells := whole.cells
  have room : ((cell (lastLength 0 front) block).size + (2 ^ 32 - size)) % 2 ^ 32 = block.length - 8 - size := by
    rw [whole.size _ below]
    omega
  by_cases small : block.length - 8 - size < 16
  · refine ⟨h.mem, ?_, ?_⟩
    · rw [mallocSplit, if_neg (not_not.mpr cells), header, room, if_pos small]
    · rw [splitUp, if_pos small]
      exact laid
  have lower : { cell (lastLength 0 front) block with nextblock := mkfield (size + 8) } =
      cell (lastLength 0 front) ⟨size + 8, none⟩ := by
    rw [cell, free]
    rfl
  have wholeLower : Whole ⟨size + 8, none⟩ := ⟨by dsimp only; omega, by dsimp only; omega, nofun⟩
  have wholeUpper : Whole ⟨block.length - 8 - size, none⟩ := ⟨by dsimp only; omega, by dsimp only; omega, nofun⟩
  have lowerOff : (cell (lastLength 0 front) ⟨size + 8, none⟩).nextoff = size + 8 :=
    wholeLower.nextoff _ (by dsimp only; omega)
  -- The two headers are written, and then the block above is linked to the second one.
  let h₁ := h.set (h.heapbase + span front) (cell (lastLength 0 front) ⟨size + 8, none⟩)
  let h₂ := h₁.set (h.heapbase + span front + (size + 8)) (cell (size + 8) ⟨block.length - 8 - size, none⟩)
  have after₂ : Linked cell h₂.mem (h.heapbase + span front + block.length) block.length back :=
    (after.update pos _ (.inl (by omega))).update pos _ (.inl (by omega))
  obtain ⟨mem, linked, above, kept⟩ := linkBack_end (block.length - 8 - size) after₂ top pos
  refine ⟨mem, ?_, ?_⟩
  · rw [mallocSplit, if_neg (not_not.mpr cells), header, room, if_neg small]
    simp only [whole.nextoff _ below, whole.size _ below, lower, set_eq, update_self, lowerOff]
    rw [if_neg (by omega)]
    exact congrArg Except.ok linked
  · rw [splitUp, if_neg small]
    refine Laid.exchange [block] _ laid ?_ ?_ ?_ ⟨?_, ?_, trivial⟩ ?_
    · simp only [span_cons]
      omega
    · simp only [mem_cons, not_mem_nil, or_false, forall_eq_or_imp, forall_eq]
      exact ⟨wholeLower, wholeUpper⟩
    · intro addr low
      rw [kept addr (by omega)]
      exact (update_of_ne (by omega) _ _).trans (update_of_ne (by omega) _ _)
    · rw [kept _ (by omega)]
      exact (update_of_ne (by omega) _ _).trans (update_self _ _ _)
    · rw [kept _ (by dsimp only; omega)]
      exact update_self _ _ _
    · exact above

theorem Laid.wipe (laid : h.Laid (front ++ block :: back)) :
    Laid (h.mallocDeadbeef (h.heapbase + span front + 8) (block.length - 8)) (front ++ block :: back) := by
  obtain ⟨header, whole, _⟩ := laid.at
  obtain ⟨after, pos, _⟩ := laid.above
  refine Laid.exchange [block] [block] laid rfl ?_ ?_ ⟨?_, trivial⟩ ?_
  · simpa using whole
  · intro addr low
    exact if_neg (by omega)
  · exact (if_neg (by omega)).trans header
  · refine after.frame pos fun addr low _ => if_neg ?_
    omega

theorem Laid.merge (laid : h.Laid (front ++ low :: high :: back)) (lowFree : low.tag = none)
    (highFree : high.tag = none) :
    ∃ mem, h.mallocTrymerge (h.heapbase + span front) (h.heapbase + span front + low.length) =
        .ok { h with mem := mem } ∧
      Laid { h with mem := mem } (front ++ ⟨low.length + high.length, none⟩ :: back) := by
  obtain ⟨lowHeader, lowWhole, lowBelow⟩ := laid.at
  have shifted : h.Laid ((front ++ [low]) ++ high :: back) := by simpa using laid
  obtain ⟨highHeader, highWhole, highBelow⟩ := shifted.at
  obtain ⟨after, pos, top⟩ := shifted.above
  have limit := laid.below
  have lowCells := lowWhole.cells
  have lowLong := lowWhole.header
  have highCells := highWhole.cells
  have highLong := highWhole.header
  simp only [span_append, span_cons, span_nil, Nat.add_zero, lastLength_append, lastLength_cons, lastLength_nil,
    ← Nat.add_assoc] at highHeader after top
  have merged : { cell (lastLength 0 front) low with nextblock := mkfield (low.length + high.length) } =
      cell (lastLength 0 front) ⟨low.length + high.length, none⟩ := by
    rw [cell, lowFree]
    rfl
  let h₁ := h.set (h.heapbase + span front) (cell (lastLength 0 front) ⟨low.length + high.length, none⟩)
  have after₁ : Linked cell h₁.mem (h.heapbase + span front + low.length + high.length) high.length back :=
    after.update pos _ (.inl (by omega))
  obtain ⟨mem, linked, above, kept⟩ := linkBack_end (low.length + high.length) after₁ top pos
  refine ⟨({ h with mem := mem }.mallocDeadbeef (h.heapbase + span front + low.length) 8).mem, ?_, ?_⟩
  · have total : (8 + (low.length - 8) + (8 + (high.length - 8))) % 2 ^ 32 = low.length + high.length := by
      omega
    rw [mallocTrymerge, lowHeader, highHeader, cell_nextblock, cell_prevblock, if_neg (not_not.mpr rfl),
      if_neg (by simp [lowFree, highFree])]
    simp only [highWhole.nextoff _ highBelow, lowWhole.size _ lowBelow, highWhole.size _ highBelow, total, merged]
    exact congrArg (fun heap => Except.ok (heap.mallocDeadbeef (h.heapbase + span front + low.length) 8)) linked
  · refine Laid.exchange [low, high] [⟨low.length + high.length, none⟩] laid ?_ ?_ ?_ ⟨?_, trivial⟩ ?_
    · simp [span_cons]
    · simp only [mem_singleton, forall_eq]
      exact ⟨by dsimp only; omega, by dsimp only; omega, nofun⟩
    · intro addr under
      refine (if_neg (by omega)).trans ((kept addr (by omega)).trans ?_)
      exact update_of_ne (by omega) _ _
    · refine (if_neg (by omega)).trans ((kept _ (by omega)).trans ?_)
      exact update_self _ _ _
    · simp only [span_cons, ← Nat.add_assoc]
      exact above.frame pos fun addr beyond _ => if_neg (by omega)

theorem Laid.keep (laid : h.Laid (front ++ low :: high :: back)) (used : low.tag ≠ none ∨ high.tag ≠ none) :
    h.mallocTrymerge (h.heapbase + span front) (h.heapbase + span front + low.length) = .ok h := by
  obtain ⟨lowHeader, _, _⟩ := laid.at
  have shifted : h.Laid ((front ++ [low]) ++ high :: back) := by simpa using laid
  obtain ⟨highHeader, _, _⟩ := shifted.at
  simp only [span_append, span_cons, span_nil, Nat.add_zero, lastLength_append, lastLength_cons, lastLength_nil,
    ← Nat.add_assoc] at highHeader
  rw [mallocTrymerge, lowHeader, highHeader, cell_nextblock, cell_prevblock, if_neg (not_not.mpr rfl), if_pos]
  simpa only [cell_inuse, Option.isSome_iff_ne_none] using used

/-- A block that has become free takes in a free block above it. -/
inductive MergedAbove (block : Block) : List Block → Block → List Block → Prop where
  | last : MergedAbove block [] block []
  | used {high : Block} {back : List Block} (used : high.tag ≠ none) :
      MergedAbove block (high :: back) block (high :: back)
  | merged {high : Block} {back : List Block} (free : high.tag = none) :
      MergedAbove block (high :: back) ⟨block.length + high.length, none⟩ back

theorem Laid.mergeAbove (laid : h.Laid (front ++ block :: back)) (free : block.tag = none) :
    ∃ mem block' back', h.mergeAbove (h.heapbase + span front) = .ok { h with mem := mem } ∧
      MergedAbove block back block' back' ∧ Laid { h with mem := mem } (front ++ block' :: back') := by
  obtain ⟨header, whole, below⟩ := laid.at
  obtain ⟨_, pos, top⟩ := laid.above
  unfold Heap.mergeAbove
  simp only [header, whole.nextoff _ below]
  cases back with
  | nil =>
    have last : h.heapbase + span front + block.length = h.heaptop := by rw [top, span_nil, Nat.add_zero]
    exact ⟨h.mem, block, [], if_neg (not_not.mpr last), .last, laid⟩
  | cons high back =>
    have long := pos high mem_cons_self
    rw [span_cons] at top
    rw [if_pos (by omega)]
    by_cases used : high.tag = none
    · obtain ⟨mem, merged, laid'⟩ := laid.merge free used
      exact ⟨mem, _, _, merged, .merged used, laid'⟩
    · exact ⟨h.mem, _, _, laid.keep (.inr used), .used used, laid⟩

/-- A free block is taken in by a free block below it. -/
inductive MergedBelow (block : Block) : List Block → List Block → Block → Prop where
  | first : MergedBelow block [] [] block
  | used {low : Block} {front : List Block} (used : low.tag ≠ none) :
      MergedBelow block (front ++ [low]) (front ++ [low]) block
  | merged {low : Block} {front : List Block} (free : low.tag = none) :
      MergedBelow block (front ++ [low]) front ⟨low.length + block.length, none⟩

theorem Laid.mergeBelow (laid : h.Laid (front ++ block :: back)) (free : block.tag = none) :
    ∃ mem front' block', h.mergeBelow (h.heapbase + span front) = .ok { h with mem := mem } ∧
      MergedBelow block front front' block' ∧ Laid { h with mem := mem } (front' ++ block' :: back) := by
  obtain ⟨header, _, _⟩ := laid.at
  unfold Heap.mergeBelow
  rcases eq_nil_or_concat front with rfl | ⟨front, low, rfl⟩
  · exact ⟨h.mem, [], block, if_neg (not_not.mpr rfl), .first, laid⟩
  · rw [concat_eq_append] at *
    have split : h.Laid (front ++ low :: block :: back) := by simpa using laid
    obtain ⟨_, whole, below⟩ := split.at
    have long := whole.header
    have place : h.heapbase + span (front ++ [low]) = h.heapbase + span front + low.length := by
      simp [Nat.add_assoc]
    have off : (cell (lastLength 0 (front ++ [low])) block).prevoff = low.length := by
      rw [lastLength_append]
      exact mkfield_toNat whole.cells below
    rw [if_pos (by omega), header, off, place, Nat.add_sub_cancel]
    by_cases used : low.tag = none
    · obtain ⟨mem, merged, laid'⟩ := split.merge used free
      exact ⟨mem, _, _, merged, .merged used, laid'⟩
    · exact ⟨h.mem, _, _, split.keep (.inl used), .used used, laid⟩

theorem Laid.release (laid : h.Laid (front ++ block :: back)) (used : block.tag ≠ none) :
    ∃ mem block₁ back' front' block',
      h.release (h.heapbase + span front + 8) = .ok { h with mem := mem } ∧
      MergedAbove ⟨block.length, none⟩ back block₁ back' ∧ MergedBelow block₁ front front' block' ∧
      Laid { h with mem := mem } (front' ++ block' :: back') := by
  obtain ⟨header, whole, below⟩ := laid.at
  have inuse : (cell (lastLength 0 front) block).inuse = true := Option.isSome_iff_ne_none.mpr used
  let h₁ := h.set (h.heapbase + span front) { h.mem (h.heapbase + span front) with inuse := false }
  let h₂ := h₁.mallocDeadbeef (h.heapbase + span front + 8) (block.length - 8)
  have marked : h₂.Laid (front ++ ⟨block.length, none⟩ :: back) := (laid.mark none nofun).wipe
  obtain ⟨mem₁, block₁, back', first, mergedAbove, laid₁⟩ := marked.mergeAbove rfl
  have free₁ : block₁.tag = none := by
    cases mergedAbove with
    | last | used | merged => rfl
  obtain ⟨mem₂, front', block', second, mergedBelow, laid₂⟩ := laid₁.mergeBelow free₁
  refine ⟨mem₂, block₁, back', front', block', ?_, mergedAbove, mergedBelow, laid₂⟩
  have size : (h₁.mem (h.heapbase + span front)).size = block.length - 8 := by
    have same : h₁.mem (h.heapbase + span front) = { cell (lastLength 0 front) block with inuse := false } := by
      rw [← header]
      exact update_self _ _ _
    rw [same]
    exact whole.size (lastLength 0 front) below
  have checked : h.release (h.heapbase + span front + 8) =
      (h₁.mallocDeadbeef (h.heapbase + span front + 8) (h₁.mem (h.heapbase + span front)).size).mergeAbove
        (h.heapbase + span front) >>= fun heap => heap.mergeBelow (h.heapbase + span front) := by
    simp only [Heap.release, Nat.add_sub_cancel, header, cell_ok, not_true, if_false, inuse, Bool.true_eq_false]
    simp only [h₁, header]
  rw [checked, size, show h₂.mergeAbove (h.heapbase + span front) = _ from first]
  exact second

/-- The block that `malloc` takes from a free block, with what is split off -/
def takeFrom (block : Block) (size asked : Nat) : List Block :=
  if block.length - 8 - size < 16 then [⟨block.length, some asked⟩]
  else [⟨size + 8, some asked⟩, ⟨block.length - 8 - size, none⟩]

theorem Laid.allocate (laid : h.Laid (front ++ block :: back)) (free : block.tag = none)
    (cells : size % 8 = 0) (fits : size + 8 ≤ block.length) (enough : asked ≤ size) :
    ∃ mem, h.allocate (h.heapbase + span front) size =
        .ok (h.heapbase + span front + 8, { h with mem := mem }) ∧
      Laid { h with mem := mem } (front ++ (takeFrom block size asked ++ back)) := by
  obtain ⟨mem, split, laid₁⟩ := laid.split free cells fits
  simp only [Heap.allocate, split]
  refine ⟨_, rfl, ?_⟩
  unfold splitUp at laid₁
  unfold takeFrom
  split_ifs at laid₁ ⊢ with small
  · refine laid₁.mark (some asked) ?_
    rintro _ ⟨⟩
    omega
  · refine laid₁.mark (some asked) ?_
    rintro _ ⟨⟩
    dsimp only
    omega

theorem sbrk_cases {answer : Answer} (forward : answer.Extends size) :
    ¬ (answer ≠ .refused ∧ h.brk + size < 2 ^ 32) ∧ h.sbrk size answer = (sbrkFailed, h) ∨
      answer ≠ .refused ∧ h.brk + size < 2 ^ 32 ∧ h.sbrk size answer = (h.brk, { h with brk := h.brk + size }) := by
  cases answer with
  | refused => exact .inl ⟨fun both => both.1 rfl, rfl⟩
  | extended =>
    rw [sbrk]
    split_ifs with room
    · exact .inr ⟨nofun, room, rfl⟩
    · exact .inl ⟨fun both => room both.2, rfl⟩
  | moved =>
    have small := forward rfl
    rw [sbrk]
    split_ifs with movable
    · have room : h.brk + size < 2 ^ 32 := by
        rcases movable with ⟨_, room⟩ | ⟨large, _⟩
        · exact room
        · omega
      rw [Nat.mod_eq_of_lt room]
      exact .inr ⟨nofun, room, rfl⟩
    · exact .inl ⟨fun both => movable (.inl ⟨small, both.2⟩), rfl⟩

theorem Laid.top_valid (laid : h.Laid blocks) : h.heaptop ≠ sbrkFailed := by
  have top := laid.top
  have whole := span_mod laid.whole
  have aligned := laid.aligned
  unfold sbrkFailed
  omega

theorem Laid.mallocSbrk {answer : Answer} (laid : h.Laid blocks) (forward : answer.Extends size) :
    h.mallocSbrk size answer = .ok (none, h) ∨
      h.heaptop + size < 2 ^ 32 ∧ h.mallocSbrk size answer =
        .ok (some h.heaptop, { h with heaptop := h.heaptop + size, brk := h.heaptop + size }) := by
  rcases sbrk_cases (h := h) forward with ⟨_, failed⟩ | ⟨_, room, called⟩
  · left
    rw [Heap.mallocSbrk, failed]
    exact if_pos rfl
  · rw [laid.brk] at room called
    refine .inr ⟨room, ?_⟩
    rw [Heap.mallocSbrk, called]
    dsimp only
    rw [if_neg laid.top_valid, if_neg (not_not.mpr rfl), Nat.mod_eq_of_lt room]

theorem Laid.mallocSbrk_moved (laid : h.Laid blocks) (size : Nat) :
    h.mallocSbrk size .moved = .ok (if h.Movable size then (some h.heaptop,
      { h with heaptop := (h.heaptop + size) % 2 ^ 32, brk := (h.heaptop + size) % 2 ^ 32 }) else (none, h)) := by
  rw [Heap.mallocSbrk, sbrk]
  split_ifs with movable
  · rw [laid.brk]
    dsimp only
    rw [if_neg laid.top_valid, if_neg (not_not.mpr rfl)]
  · exact if_pos rfl

theorem Laid.expand {answer : Answer} (laid : h.Laid blocks) (cells : size % 8 = 0) (small : size + 8 < 2 ^ 32)
    (enough : asked ≤ size) (forward : answer.Extends (size + 8)) :
    h.expand size (mkfield (lastLength 0 blocks)) answer = .ok (0, h) ∨
      ∃ h', h.expand size (mkfield (lastLength 0 blocks)) answer = .ok (h.heaptop + 8, h') ∧
        h'.heapbase = h.heapbase ∧ h'.Laid (blocks ++ [⟨size + 8, some asked⟩]) := by
  have top := laid.top
  have total : (size + 8) % 2 ^ 32 = size + 8 := Nat.mod_eq_of_lt small
  unfold Heap.expand
  rw [total]
  rcases laid.mallocSbrk forward with failed | ⟨limit, grown⟩
  · left
    rw [failed]
    rfl
  · rw [grown]
    refine .inr ⟨_, rfl, rfl, laid.positive, laid.aligned, ?_, rfl, limit, ?_, ?_⟩
    · rw [span_append]
      change h.heaptop + (size + 8) = h.heapbase + (span blocks + (size + 8 + 0))
      omega
    · intro block member
      rcases mem_append.mp member with prev | here
      · exact laid.whole block prev
      · rw [mem_singleton.mp here]
        refine ⟨by dsimp only; omega, by dsimp only; omega, ?_⟩
        rintro _ ⟨⟩
        dsimp only
        omega
    · refine linked_append.mpr ⟨?_, ?_, trivial⟩
      · exact laid.linked.update (fun block member => laid.length_pos member) _ (.inr (by omega))
      · change update h.mem h.heaptop _ (h.heapbase + span blocks) = _
        rw [← top, update_self]
        rfl

end Heap

end Os161.User
