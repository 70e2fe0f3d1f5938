import Mathlib.Data.List.Chain
import Os161.User.HeapTiling

namespace Os161.User
open Outcome Tiling List Function

/-- Of two neighbours at most one is free. -/
def Apart (blocks : List Block) : Prop := blocks.IsChain fun low high => low.tag ≠ none ∨ high.tag ≠ none

/-- At this place a block is in use for a request of this size. -/
def InUse (base : Nat) (blocks : List Block) (pointer size : Nat) : Prop :=
  ∃ start block, (start, block) ∈ starts base blocks ∧ pointer = start + 8 ∧ block.tag = some size

section

variable {base pointer size asked : Nat} {front back front' back' : List Block} {block block' : Block}

theorem apart_join : Apart (front ++ block :: back) ↔ Apart front ∧ Apart back ∧
    (block.tag = none → (∀ low ∈ front.getLast?, low.tag ≠ none) ∧ ∀ high ∈ back.head?, high.tag ≠ none) := by
  simp only [Apart, isChain_append, isChain_cons, List.head?_cons, Option.mem_def, Option.some.injEq,
    forall_eq']
  by_cases free : block.tag = none
  · simp only [free, ne_eq, not_true, false_or, or_false, forall_const]
    exact ⟨fun ⟨first, ⟨high, second⟩, low⟩ => ⟨first, second, low, high⟩,
      fun ⟨first, second, low, high⟩ => ⟨first, ⟨high, second⟩, low⟩⟩
  · simp only [free, ne_eq, not_false_eq_true, true_or, or_true, implies_true, true_and, false_imp_iff]

theorem apart_grow (apart : Apart front) (len : Nat) : Apart (front ++ [⟨len, some size⟩]) :=
  apart_join.mpr ⟨apart, isChain_nil, nofun⟩

theorem apart_take (apart : Apart (front ++ block :: back)) (free : block.tag = none) :
    Apart (front ++ (Heap.takeFrom block size asked ++ back)) := by
  obtain ⟨first, second, neighbours⟩ := apart_join.mp apart
  unfold Heap.takeFrom
  split_ifs
  · exact apart_join.mpr ⟨first, second, nofun⟩
  · have rest : Apart ([] ++ ⟨block.length - 8 - size, none⟩ :: back) :=
      apart_join.mpr ⟨isChain_nil, second, fun _ => ⟨nofun, (neighbours free).2⟩⟩
    exact apart_join.mpr ⟨first, rest, nofun⟩

theorem MergedAbove.apart {block₁ : Block} (merged : Heap.MergedAbove block back block₁ back')
    (apart : Apart back) : Apart back' ∧ ∀ high ∈ back'.head?, high.tag ≠ none := by
  cases merged with
  | last => exact ⟨apart, nofun⟩
  | used used =>
    refine ⟨apart, ?_⟩
    rintro high ⟨⟩
    exact used
  | @merged high _ free =>
    obtain ⟨_, second, neighbours⟩ := apart_join.mp (show Apart ([] ++ high :: back') from apart)
    exact ⟨second, (neighbours free).2⟩

theorem MergedBelow.apart (merged : Heap.MergedBelow block front front' block') (apart : Apart front) :
    Apart front' ∧ ∀ low ∈ front'.getLast?, low.tag ≠ none := by
  cases merged with
  | first => exact ⟨apart, nofun⟩
  | used used =>
    refine ⟨apart, ?_⟩
    intro low last
    rw [List.getLast?_concat] at last
    cases last
    exact used
  | merged free =>
    obtain ⟨first, _, neighbours⟩ := apart_join.mp apart
    exact ⟨first, (neighbours free).1⟩

theorem inUse_append : InUse base (front ++ back) pointer size ↔
    InUse base front pointer size ∨ InUse (base + span front) back pointer size := by
  simp only [InUse, starts_append, mem_append, or_and_right, exists_or]

theorem inUse_cons : InUse base (block :: back) pointer size ↔
    pointer = base + 8 ∧ block.tag = some size ∨ InUse (base + block.length) back pointer size := by
  simp only [InUse, starts_cons, mem_cons, Prod.mk.injEq, or_and_right, exists_or]
  refine or_congr_left ⟨?_, ?_⟩
  · rintro ⟨_, _, ⟨rfl, rfl⟩, found⟩
    exact found
  · rintro found
    exact ⟨base, block, ⟨rfl, rfl⟩, found⟩

@[simp] theorem inUse_nil : ¬ InUse base [] pointer size := by
  rintro ⟨_, _, mem, _⟩
  cases mem

theorem inUse_take (free : block.tag = none) (fits : size + 8 ≤ block.length) {other : Nat} :
    InUse base (front ++ (Heap.takeFrom block size asked ++ back)) pointer other ↔
      pointer = base + span front + 8 ∧ asked = other ∨ InUse base (front ++ block :: back) pointer other := by
  have len : size + (8 + (block.length - 8 - size)) = block.length := by omega
  unfold Heap.takeFrom
  split_ifs
  · simp only [inUse_append, inUse_cons, free, cons_append, nil_append, Option.some.injEq,
      reduceCtorEq, and_false, false_or]
    exact or_left_comm
  · simp only [inUse_append, inUse_cons, free, cons_append, nil_append, Option.some.injEq,
      reduceCtorEq, and_false, Nat.add_assoc, len]
    exact or_left_comm

theorem inUse_grow {len : Nat} {other : Nat} : InUse base (front ++ [⟨len, some asked⟩]) pointer other ↔
    pointer = base + span front + 8 ∧ asked = other ∨ InUse base front pointer other := by
  simp only [inUse_append, inUse_cons, inUse_nil, Option.some.injEq, or_false]
  exact or_comm

theorem MergedAbove.free {block₁ : Block} (merged : Heap.MergedAbove block back block₁ back')
    (free : block.tag = none) : block₁.tag = none := by
  cases merged with
  | last => exact free
  | used _ => exact free
  | merged _ => rfl

theorem MergedAbove.inUse (merged : Heap.MergedAbove block back block₁ back') (free : block.tag = none) :
    InUse base (block₁ :: back') pointer size ↔ InUse base (block :: back) pointer size := by
  cases merged with
  | last => rfl
  | used _ => rfl
  | merged other =>
    simp only [inUse_cons, free, other, reduceCtorEq, and_false, false_or, Nat.add_assoc]

theorem MergedBelow.inUse (merged : Heap.MergedBelow block front front' block') (free : block.tag = none) :
    InUse base (front' ++ block' :: back) pointer size ↔ InUse base (front ++ block :: back) pointer size := by
  cases merged with
  | first => rfl
  | used _ => rfl
  | merged other =>
    simp only [inUse_append, inUse_cons, free, other, inUse_nil, reduceCtorEq, and_false, or_false,
      span_append, span_cons, span_nil, Nat.add_assoc, Nat.add_zero]

theorem inUse_free (whole : ∀ other ∈ front ++ block :: back, 0 < other.length) :
    InUse base (front ++ ⟨block.length, none⟩ :: back) pointer size ↔
      InUse base (front ++ block :: back) pointer size ∧ pointer ≠ base + span front + 8 := by
  have long := whole block (by simp)
  have low : InUse base front pointer size → pointer ≠ base + span front + 8 := by
    rintro ⟨start, other, mem, rfl, _⟩
    have inside := le_of_mem_starts mem
    obtain ⟨_, _, split, _⟩ := mem_starts.mp mem
    have other := whole other (by simp [split])
    omega
  have high : InUse (base + span front + block.length) back pointer size → pointer ≠ base + span front + 8 := by
    rintro ⟨start, other, mem, rfl, _⟩
    have inside := le_of_mem_starts mem
    omega
  simp only [inUse_append, inUse_cons, reduceCtorEq, and_false, false_or]
  constructor
  · rintro (prev | after)
    · exact ⟨.inl prev, low prev⟩
    · exact ⟨.inr (.inr after), high after⟩
  · rintro ⟨prev | ⟨here, _⟩ | after, apart⟩
    · exact .inl prev
    · exact absurd here apart
    · exact .inr after

end

namespace Heap

variable {h h' : Heap} {blocks : List Block} {size asked : Nat}

/-- How `malloc` ends: with no block, or with one more block in use at its pointer -/
inductive MallocEnd (h : Heap) (blocks : List Block) (asked : Nat) : Nat × Heap → Prop where
  | null : MallocEnd h blocks asked (0, h)
  | allocated {pointer : Nat} {h' : Heap} {blocks' : List Block} (base : h'.heapbase = h.heapbase)
      (laid : h'.Laid blocks') (apart : Apart blocks → Apart blocks')
      (fresh : ∀ size, ¬ InUse h.heapbase blocks pointer size)
      (inUse : ∀ other size, InUse h.heapbase blocks' other size ↔
        other = pointer ∧ asked = size ∨ InUse h.heapbase blocks other size) :
      MallocEnd h blocks asked (pointer, h')

theorem Laid.length_le (laid : h.Laid blocks) : blocks.length ≤ (h.heaptop - h.heapbase) / 8 := by
  have counted : ∀ list : List Block, (∀ block ∈ list, Whole block) → 8 * list.length ≤ span list := by
    intro list whole
    induction list with
    | nil => exact Nat.zero_le _
    | cons block rest ih =>
      have header := (whole block mem_cons_self).header
      have others := ih fun other mem => whole other (mem_cons_of_mem _ mem)
      rw [span_cons, length_cons]
      omega
  have all := counted blocks laid.whole
  have top := laid.top
  omega

theorem Laid.not_inUse {front back : List Block} {block : Block} (laid : h.Laid (front ++ block :: back))
    (free : block.tag = none) : ¬ InUse h.heapbase (front ++ block :: back) (h.heapbase + span front + 8) size := by
  intro used
  obtain ⟨len, tag⟩ := block
  obtain rfl : tag = none := free
  exact ((inUse_free fun other mem => laid.length_pos mem).mp used).2 rfl

theorem Laid.not_inUse_top (laid : h.Laid blocks) : ¬ InUse h.heapbase blocks (h.heaptop + 8) size := by
  rintro ⟨start, block, mem, place, _⟩
  have inside := le_of_mem_starts mem
  obtain ⟨front, back, rfl, _⟩ := mem_starts.mp mem
  have long : 0 < block.length := laid.length_pos (by simp)
  have top := laid.top
  omega

/-- The search decides between a free block and an extension of the heap. -/
theorem Laid.searched (laid : h.Laid blocks) (size : Nat) :
    ∃ res, SearchEnd h.heapbase blocks (roundUp size) res ∧ ∀ grants,
      h.mallocFrom size grants = match res with
        | (some mh, _) => h.allocate mh (roundUp size)
        | (none, rightprevblock) => h.expand (roundUp size) rightprevblock grants.grow := by
  have pos := laid.positive
  have top := laid.top
  have sane : ¬ (h.heapbase = 0 ∨ h.heaptop = 0 ∨ h.heaptop < h.heapbase) := by omega
  obtain ⟨res, searched, ended⟩ :=
    Laid.search (show h.Laid ([] ++ blocks) from laid) (roundUp size) laid.length_le nofun
  have start : h.search (roundUp size) ((h.heaptop - h.heapbase) / 8) h.heapbase 0 = .ok res := searched
  refine ⟨res, ended, fun grants => ?_⟩
  simp only [Heap.mallocFrom, if_neg sane, start]
  rfl

theorem Laid.mallocFrom (laid : h.Laid blocks) (fits : size + 16 ≤ 2 ^ 32)
    (forward : grants.grow.Extends (roundUp size + 8)) :
    ∃ res, h.mallocFrom size grants = .ok res ∧ MallocEnd h blocks size res := by
  have top := laid.top
  obtain ⟨rounded, round, cells, enough, small⟩ : ∃ rounded, roundUp size = rounded ∧
      rounded % 8 = 0 ∧ size ≤ rounded ∧ rounded + 8 < 2 ^ 32 := by
    unfold roundUp
    exact ⟨_, rfl, by omega, by omega, by omega⟩
  obtain ⟨res, ended, called⟩ := laid.searched size
  rw [called]
  rw [round] at ended forward ⊢
  cases ended with
  | @found front back block field split free room =>
    obtain rfl : blocks = front ++ block :: back := split
    obtain ⟨mem, taken, laid'⟩ := laid.allocate free cells room enough
    exact ⟨_, taken, .allocated rfl laid' (fun apart => apart_take apart free)
      (fun _ => laid.not_inUse free) fun _ _ => inUse_take free room⟩
  | none _ =>
    rcases laid.expand cells small enough forward with failed | ⟨h', grown, base, laid'⟩
    · exact ⟨_, failed, .null⟩
    · refine ⟨_, grown, .allocated base laid' (fun apart => apart_grow apart _)
        (fun _ => laid.not_inUse_top) fun _ _ => ?_⟩
      rw [top]
      exact inUse_grow

/-- The heap as `__malloc_init` leaves it -/
def setUp (h : Heap) : Heap :=
  let base := (h.brk + 7) / 8 * 8
  ⟨h.mem, base, base, h.start, base⟩

/-- How the heap is set up -/
inductive InitEnd (h : Heap) (grants : Grants) : Program Heap → Prop where
  | probe (failed : grants.probe ≠ .refused → 2 ^ 32 ≤ h.brk + 1) :
      InitEnd h grants (.error (.err "malloc: initial sbrk failed"))
  | align (began : h.brk ≠ 0) (failed : grants.align ≠ .refused → 2 ^ 32 < h.brk + 8) :
      InitEnd h grants (.error (.err "malloc: sbrk failed aligning heap base"))
  | zero (granted : grants.probe ≠ .refused) (began : h.brk = 0) :
      InitEnd h grants (.error (.errx "malloc: Internal error - heap began at 0"))
  | done {h' : Heap} (began : h.brk ≠ 0) (laid : h'.Laid []) (set : h' = h.setUp) : InitEnd h grants (.ok h')

theorem laid_empty (mem : Nat → Mheader) (start : Nat) (pos : 0 < base) (aligned : base % 8 = 0)
    (below : base < 2 ^ 32) : Laid ⟨mem, base, base, start, base⟩ [] :=
  ⟨pos, aligned, rfl, rfl, below, nofun, trivial⟩

theorem mallocInit_end (base : h.heapbase = 0) (top : h.heaptop = 0) (grants : Grants) :
    InitEnd h grants (h.mallocInit grants) := by
  rw [mallocInit, if_neg (by simp [base, top])]
  rcases sbrk_cases (show grants.probe.Extends 0 from fun _ => by decide) with
    ⟨refused, failed⟩ | ⟨probe, below, granted⟩
  · rw [failed]
    exact .probe fun granted => Nat.le_succ_of_le (Nat.not_lt.mp fun room => refused ⟨granted, room⟩)
  rw [show h.sbrk 0 grants.probe = (h.brk, h) from granted]
  dsimp only
  by_cases failed : h.brk = sbrkFailed
  · rw [if_pos failed]
    exact .probe fun _ => by rw [failed]; decide
  rw [if_neg failed]
  by_cases zero : h.brk = 0
  · rw [if_pos zero]
    exact .zero probe zero
  rw [if_neg zero]
  by_cases aligned : h.brk % 8 = 0
  · rw [if_neg (not_not.mpr aligned)]
    have base : (h.brk + 7) / 8 * 8 = h.brk := by omega
    refine .done zero (laid_empty _ h.start (Nat.pos_of_ne_zero zero) aligned below) ?_
    rw [setUp, base]
  rw [if_pos aligned]
  rcases sbrk_cases (show grants.align.Extends (8 - h.brk % 8) from fun _ => by omega) with
    ⟨small, refused⟩ | ⟨_, room, extended⟩
  · rw [refused]
    refine .align zero fun granted => ?_
    have large := Nat.not_lt.mp fun room => small ⟨granted, room⟩
    omega
  · rw [extended]
    rw [if_neg failed, if_neg (not_not.mpr rfl)]
    have base : (h.brk + 7) / 8 * 8 = h.brk + (8 - h.brk % 8) := by omega
    refine .done zero (laid_empty _ h.start (by omega) (by omega) room) ?_
    rw [setUp, base]

/-- A heap that is tiled, or not set up yet -/
def Usable (h : Heap) (blocks : List Block) : Prop :=
  h.Laid blocks ∨ h.heapbase = 0 ∧ h.heaptop = 0 ∧ blocks = []

/-- The ends of a call of `malloc` -/
inductive CallEnd (h : Heap) (blocks : List Block) (asked : Nat) (grants : Grants) :
    Program (Nat × Heap) → Prop where
  | init (unset : h.heapbase = 0) (ended : InitEnd h grants (.error exit)) :
      CallEnd h blocks asked grants (.error exit)
  | returned {h₁ : Heap} {result : Nat × Heap} (began : h.heapbase = 0 → h.brk ≠ 0) (laid : h₁.Laid blocks)
      (same : h.Laid blocks → h₁ = h) (ended : MallocEnd h₁ blocks asked result) :
      CallEnd h blocks asked grants (.ok result)

theorem Usable.malloc (usable : h.Usable blocks) (fits : size + 16 ≤ 2 ^ 32)
    (forward : grants.grow.Extends (roundUp size + 8)) :
    CallEnd h blocks size grants (h.malloc size grants) := by
  unfold Heap.malloc
  rcases usable with laid | ⟨base, top, rfl⟩
  · have pos := laid.positive
    rw [if_neg (by omega)]
    obtain ⟨res, ran, ended⟩ := laid.mallocFrom fits forward
    rw [ran]
    exact .returned (fun unset => absurd unset (by omega)) laid (fun _ => rfl) ended
  · rw [if_pos base]
    have ended := mallocInit_end base top grants
    generalize outcome : h.mallocInit grants = res at ended
    cases res with
    | error exit => exact .init base ended
    | ok h₁ =>
      cases ended with
      | done began laid _ =>
        obtain ⟨res, ran, ended⟩ := laid.mallocFrom fits forward
        rw [ok_bind, ran]
        refine .returned (fun _ => began) laid (fun other => ?_) ended
        exact absurd other.positive (by omega)

/-- `free` refuses a pointer to the top of the heap, and takes every other block in use back. -/
inductive FreeEnd (h : Heap) (blocks : List Block) (pointer : Nat) : Program Heap → Prop where
  | refused (top : pointer = h.heaptop) :
      FreeEnd h blocks pointer (.error (.errx s!"free: Invalid pointer 0x{hex pointer} freed (out of range)"))
  | freed {mem : Nat → Mheader} {blocks' : List Block} (inside : pointer ≠ h.heaptop)
      (laid : Laid { h with mem := mem } blocks') (apart : Apart blocks → Apart blocks')
      (inUse : ∀ other size, InUse h.heapbase blocks' other size ↔
        InUse h.heapbase blocks other size ∧ other ≠ pointer) :
      FreeEnd h blocks pointer (.ok { h with mem := mem })

theorem Laid.free {pointer : Nat} (laid : h.Laid blocks) (used : InUse h.heapbase blocks pointer size) :
    FreeEnd h blocks pointer (h.free pointer) := by
  obtain ⟨start, block, member, rfl, tag⟩ := used
  obtain ⟨front, back, rfl, rfl⟩ := mem_starts.mp member
  obtain ⟨_, whole, _⟩ := laid.at
  obtain ⟨_, _, top⟩ := laid.above
  have pos := laid.positive
  have header := whole.header
  rw [Heap.free, if_neg (by omega), if_neg (by omega)]
  by_cases last : h.heapbase + span front + 8 = h.heaptop
  · rw [if_pos (by omega)]
    exact .refused last
  · rw [if_neg (by omega)]
    obtain ⟨mem, block₁, back', front', block', released, above, below, laid'⟩ :=
      laid.release (tag.symm ▸ nofun)
    have free₁ := MergedAbove.free above rfl
    rw [released]
    refine .freed last laid' ?_ ?_
    · intro apart
      obtain ⟨first, second, _⟩ := apart_join.mp apart
      obtain ⟨back, high⟩ := MergedAbove.apart above second
      obtain ⟨front, low⟩ := MergedBelow.apart below first
      exact apart_join.mpr ⟨front, back, fun _ => ⟨low, high⟩⟩
    · intro other size
      rw [MergedBelow.inUse below free₁, inUse_append, MergedAbove.inUse above rfl, ← inUse_append]
      exact inUse_free fun other member => laid.length_pos member

theorem Laid.area (laid : h.Laid blocks) (used : InUse h.heapbase blocks pointer size) :
    ∃ block, (pointer - 8, block) ∈ starts h.heapbase blocks ∧ 8 ≤ pointer ∧ pointer % 8 = 0 ∧
      (h.mem (pointer - 8)).nextoff = block.length ∧ (h.mem (pointer - 8)).size = block.length - 8 ∧
      size + 8 ≤ block.length ∧ pointer - 8 + block.length ≤ h.heaptop := by
  obtain ⟨start, block, member, rfl, tag⟩ := used
  refine ⟨block, member, Nat.le_add_left 8 start, ?_⟩
  rw [Nat.add_sub_cancel]
  obtain ⟨front, back, rfl, rfl⟩ := mem_starts.mp member
  obtain ⟨header, whole, below⟩ := laid.at
  rw [header, whole.nextoff _ below, whole.size _ below]
  have room := whole.room size tag
  have top := laid.above.2.2
  have aligned := laid.aligned
  have cells : span front % 8 = 0 := span_mod fun other prev => laid.whole other (mem_append_left _ prev)
  omega

theorem Laid.store (laid : h.Laid blocks) (used : InUse h.heapbase blocks pointer size)
    (low : pointer ≤ addr) (high : addr < pointer + size) (value : Mheader) :
    (h.set addr value).Laid blocks := by
  obtain ⟨start, block, mem, rfl, tag⟩ := used
  obtain ⟨front, back, rfl, rfl⟩ := mem_starts.mp mem
  obtain ⟨header, whole, _⟩ := laid.at
  obtain ⟨after, pos, _⟩ := laid.above
  have room := whole.room size tag
  refine Laid.exchange [block] [block] laid rfl ?_ ?_ ⟨?_, trivial⟩ ?_
  · simpa using whole
  · intro other under
    exact update_of_ne (by omega) _ _
  · exact (update_of_ne (by omega) _ _).trans header
  · exact after.update pos value (.inl (by omega))

/-- The block with this pointer has room for this size before the next header and the end of the heap. -/
def Ample (h : Heap) (pointer size : Nat) : Prop :=
  pointer + size ≤ pointer - 8 + (h.mem (pointer - 8)).nextoff ∧
    pointer - 8 + (h.mem (pointer - 8)).nextoff ≤ h.heaptop

/-- Whatever calls of `sbrk` fail, `malloc` returns no block or an ample one. -/
def Roomy (h : Heap) (size : Nat) : Prop :=
  ∀ grants pointer h', Grants.Specified grants → h.malloc size grants = .ok (pointer, h') →
    pointer = 0 ∨ h'.Ample pointer size

/-- The heap that `malloc` works on, which it sets up if need be -/
def ready (h : Heap) : Heap := if h.heapbase = 0 then h.setUp else h

/-- The heap can be set up. -/
def Begins (h : Heap) : Prop := h.heapbase = 0 → 0 < h.brk ∧ h.brk + 8 ≤ 2 ^ 32

/-- `malloc` may return less: the size is rounded up to zero, or the break is not moved upwards by it. -/
inductive Short (h : Heap) (blocks : List Block) (size : Nat) : Prop where
  | found {block : Block} (mem : block ∈ blocks) (free : block.tag = none) (wraps : 2 ^ 32 < size + 8)
  | grown (wraps : 2 ^ 32 < size + 8) (room : h.brk + 8 < 2 ^ 32)
  | lowered (large : 2 ^ 31 < size + 16) (rounds : size + 8 ≤ 2 ^ 32)
      (unfit : ∀ block ∈ blocks, block.tag = none → block.length < roundUp size + 8)
      (movable : h.Movable ((roundUp size + 8) % 2 ^ 32))

theorem Laid.ample_small (laid : h.Laid blocks) (fits : size + 16 ≤ 2 ^ 32)
    (forward : grants.grow.Extends (roundUp size + 8)) (ran : h.mallocFrom size grants = .ok (pointer, h')) :
    pointer = 0 ∨ h'.Ample pointer size := by
  obtain ⟨_, called, ended⟩ := laid.mallocFrom fits forward
  cases ran.symm.trans called
  cases ended with
  | null => exact .inl rfl
  | @allocated _ _ blocks' base laid' _ _ inUse =>
    have used : InUse h'.heapbase blocks' pointer size := base ▸ (inUse pointer size).mpr (.inl ⟨rfl, rfl⟩)
    obtain ⟨block, _, high, _, next, _, room, top⟩ := laid'.area used
    rw [Ample, next]
    exact .inr ⟨by omega, top⟩

theorem Laid.expand_moved (laid : h.Laid blocks) (size : Nat) (field : BitVec 29) :
    ¬ h.Movable ((size + 8) % 2 ^ 32) ∧ h.expand size field .moved = .ok (0, h) ∨
      h.Movable ((size + 8) % 2 ^ 32) ∧ ∃ h', h.expand size field .moved = .ok (h.heaptop + 8, h') ∧
        h'.heaptop = (h.heaptop + (size + 8) % 2 ^ 32) % 2 ^ 32 := by
  rw [Heap.expand, laid.mallocSbrk_moved]
  by_cases movable : h.Movable ((size + 8) % 2 ^ 32)
  · rw [if_pos movable]
    exact .inr ⟨movable, _, rfl, rfl⟩
  · rw [if_neg movable]
    exact .inl ⟨movable, rfl⟩

theorem Laid.ample (laid : h.Laid blocks) (sound : ¬ h.Short blocks size) (below : size < 2 ^ 32)
    (specified : Grants.Specified grants) (ran : h.mallocFrom size grants = .ok (pointer, h')) :
    pointer = 0 ∨ h'.Ample pointer size := by
  obtain ⟨res, ended, called⟩ := laid.searched size
  cases ended with
  | @found front back block field split free fits =>
    have mem : block ∈ blocks := by simp [split]
    have rounds : ¬ 2 ^ 32 < size + 8 := fun wraps => sound (.found mem free wraps)
    obtain ⟨_, _, below⟩ := (split ▸ laid).at
    -- The answers do not matter.
    have same : h.mallocFrom size ⟨.refused, .refused, .refused⟩ = .ok (pointer, h') := by
      rw [called] at ran ⊢
      exact ran
    refine laid.ample_small ?_ (fun moved => by cases moved) same
    unfold roundUp at fits
    omega
  | none unfit =>
    by_cases small : size + 16 ≤ 2 ^ 31
    · refine laid.ample_small (by omega) (fun _ => ?_) ran
      unfold roundUp
      omega
    rw [called] at ran
    obtain ⟨_, _, grow⟩ := specified
    generalize grants.grow = answer at grow ran
    cases answer with
    | refused =>
      cases ran
      exact .inl rfl
    | extended => exact absurd rfl grow
    | moved =>
      rcases laid.expand_moved (roundUp size) (mkfield (lastLength 0 blocks)) with
        ⟨_, failed⟩ | ⟨movable, _⟩
      · cases ran.symm.trans failed
        exact .inl rfl
      · refine absurd ?_ sound
        by_cases wraps : 2 ^ 32 < size + 8
        · refine .grown wraps ?_
          unfold Movable roundUp at movable
          omega
        · exact .lowered (by omega) (by omega) unfit movable

theorem Laid.not_ample (laid : h.Laid blocks) (short : h.Short blocks size) (below : size < 2 ^ 32) :
    ∃ pointer h', h.mallocFrom size ⟨.moved, .moved, .moved⟩ = .ok (pointer, h') ∧
      ¬ (pointer = 0 ∨ h'.Ample pointer size) := by
  suffices ∃ pointer h', h.mallocFrom size ⟨.moved, .moved, .moved⟩ = .ok (pointer, h') ∧
      0 < pointer ∧ h'.heaptop < pointer + size by
    obtain ⟨pointer, h', ran, positive, top⟩ := this
    refine ⟨pointer, h', ran, ?_⟩
    rintro (rfl | ⟨room, inside⟩)
    · exact Nat.lt_irrefl 0 positive
    · omega
  have limit := laid.below
  have zero (wraps : 2 ^ 32 < size + 8) : roundUp size = 0 := by
    unfold roundUp
    omega
  obtain ⟨res, ended, called⟩ := laid.searched size
  rw [called]
  cases ended with
  | @found front back block field split free fits =>
    obtain rfl : blocks = front ++ block :: back := split
    have wraps : 2 ^ 32 < size + 8 := by
      cases short with
      | found _ _ wraps => exact wraps
      | grown wraps _ => exact wraps
      | lowered _ _ unfit _ => exact absurd fits (Nat.not_le.mpr (unfit block (by simp) free))
    obtain ⟨mem, taken, _⟩ := laid.allocate free (by rw [zero wraps]) fits (Nat.zero_le _)
    exact ⟨_, _, taken, Nat.succ_pos _, by dsimp only; omega⟩
  | none unfit =>
    have movable : h.Movable ((roundUp size + 8) % 2 ^ 32) := by
      cases short with
      | found mem free wraps =>
        have header := (laid.whole _ mem).header
        have small := unfit _ mem free
        omega
      | grown wraps room =>
        rw [zero wraps]
        exact .inl ⟨by decide, room⟩
      | lowered _ _ _ movable => exact movable
    rcases laid.expand_moved (roundUp size) (mkfield (lastLength 0 blocks)) with
      ⟨refused, _⟩ | ⟨_, h', grown, top⟩
    · exact absurd movable refused
    · refine ⟨_, _, grown, Nat.succ_pos _, ?_⟩
      rw [top]
      have brk := laid.brk
      cases short with
      | found _ _ wraps => omega
      | grown wraps _ => omega
      | lowered large rounds _ _ =>
        unfold Movable roundUp at movable
        unfold roundUp
        omega

theorem Begins.mallocInit (begins : h.Begins) (base : h.heapbase = 0) (top : h.heaptop = 0) :
    h.mallocInit ⟨.moved, .moved, .moved⟩ = .ok h.setUp ∧ h.setUp.Laid [] := by
  obtain ⟨pos, room⟩ := begins base
  have ended := mallocInit_end base top ⟨.moved, .moved, .moved⟩
  generalize h.mallocInit ⟨.moved, .moved, .moved⟩ = res at ended
  cases ended with
  | probe failed =>
    have large := failed (by decide)
    omega
  | align _ failed =>
    have large := failed (by decide)
    omega
  | zero _ began => omega
  | done _ laid same =>
    subst same
    exact ⟨rfl, laid⟩

/-- `malloc` is ample unless the size wraps around or lowers the break. -/
theorem malloc_roomy_iff (usable : h.Usable blocks) (below : size < 2 ^ 32) :
    h.Roomy size ↔ ¬ (h.Begins ∧ h.ready.Short blocks size) := by
  rcases usable with laid | ⟨base, top, rfl⟩
  · have set : h.heapbase ≠ 0 := Nat.ne_of_gt laid.positive
    have started : h.Begins := fun unset => absurd unset set
    have called (grants : Grants) : h.malloc size grants = h.mallocFrom size grants := if_neg set
    rw [ready, if_neg set]
    constructor
    · rintro roomy ⟨_, short⟩
      obtain ⟨pointer, h', ran, small⟩ := laid.not_ample short below
      exact small (roomy _ pointer h' ⟨by decide, by decide, by decide⟩ ((called _).trans ran))
    · intro sound grants pointer h' specified ran
      exact laid.ample (fun short => sound ⟨started, short⟩) below specified ((called grants).symm.trans ran)
  · have called (grants : Grants) : h.malloc size grants =
        h.mallocInit grants >>= fun h => h.mallocFrom size grants := if_pos base
    rw [ready, if_pos base]
    constructor
    · rintro roomy ⟨begins, short⟩
      obtain ⟨set, laid⟩ := begins.mallocInit base top
      obtain ⟨pointer, h', ran, small⟩ := laid.not_ample short below
      refine small (roomy ⟨.moved, .moved, .moved⟩ pointer h' ⟨by decide, by decide, by decide⟩ ?_)
      rw [called, set, ok_bind, ran]
    · intro sound grants pointer h' specified ran
      have ended := mallocInit_end base top grants
      rw [called] at ran
      obtain ⟨h₁, set, ran⟩ := bind_ok.mp ran
      rw [set] at ended
      cases ended with
      | done began laid same =>
        subst same
        have last := laid.below
        refine laid.ample (fun short => sound ⟨fun _ => ⟨Nat.pos_of_ne_zero began, ?_⟩, short⟩) below specified ran
        change (h.brk + 7) / 8 * 8 < 2 ^ 32 at last
        omega

/-- A program whose heap will begin at 4096 -/
def started : Heap := ⟨fun _ => .deadbeef, 0, 0, 4096, 4096⟩

/-- The heap with one block in use -/
def oneBlock : Heap := ⟨update (fun _ => .deadbeef) 4096 (cell 0 ⟨16, some 8⟩), 4096, 4112, 4096, 4112⟩

theorem oneBlock_laid : oneBlock.Laid [⟨16, some 8⟩] where
  positive := by decide
  aligned := rfl
  top := rfl
  brk := rfl
  below := by decide
  whole := by
    simp only [mem_singleton, forall_eq]
    refine ⟨rfl, by decide, ?_⟩
    rintro _ ⟨⟩
    decide
  linked := ⟨rfl, trivial⟩

theorem oneBlock_short : oneBlock.Short [⟨16, some 8⟩] (2 ^ 32 - 24) := by
  refine .lowered (by decide) (by decide) ?_ (.inr ⟨by decide, by decide⟩)
  simp

/-- At the start 2^31 bytes are refused, and later a size lowers the break. -/
theorem malloc_roomy_iff_oneBlock :
    started.Roomy (2 ^ 31) ∧ oneBlock.Roomy 4096 ∧ ¬ oneBlock.Roomy (2 ^ 32 - 24) := by
  refine ⟨(malloc_roomy_iff (.inr ⟨rfl, rfl, rfl⟩) (by decide)).mpr ?_,
    (malloc_roomy_iff (.inl oneBlock_laid) (by decide)).mpr ?_, fun roomy => ?_⟩
  · rintro ⟨_, short⟩
    cases short with
    | found mem => cases mem
    | grown wraps => exact absurd wraps (by decide)
    | lowered _ _ _ movable => exact absurd movable (by decide)
  · rintro ⟨_, short⟩
    cases short with
    | found _ _ wraps => exact absurd wraps (by decide)
    | grown wraps => exact absurd wraps (by decide)
    | lowered large => exact absurd large (by decide)
  · exact (malloc_roomy_iff (.inl oneBlock_laid) (by decide)).mp roomy ⟨nofun, oneBlock_short⟩

/-- One size gets an empty block, and another lowers the break. -/
theorem malloc_returns_short :
    (∃ h', started.malloc (2 ^ 32 - 1) ⟨.moved, .moved, .moved⟩ = .ok (4104, h') ∧
      (h'.mem 4096).nextoff = 8 ∧ h'.heaptop = 4104) ∧
    started.malloc 8 ⟨.moved, .moved, .moved⟩ = .ok (4104, oneBlock) ∧
    ∃ pointer h', oneBlock.malloc (2 ^ 32 - 24) ⟨.moved, .moved, .moved⟩ = .ok (pointer, h') ∧
      ¬ (pointer = 0 ∨ h'.Ample pointer (2 ^ 32 - 24)) :=
  ⟨⟨_, rfl, rfl, rfl⟩, rfl, oneBlock_laid.not_ample oneBlock_short (by decide)⟩

end Heap

end Os161.User
