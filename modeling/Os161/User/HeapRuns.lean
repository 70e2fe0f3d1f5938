import Os161.Lib.Transition
import Os161.User.HeapSafety

namespace Os161.User
open Outcome Tiling Transition List

/-- A heap with the pointers and sizes of the blocks that the program has -/
structure UserHeap where
  heap : Heap
  live : List (Nat × Nat)

/-- The calls, and a write of the program to a cell -/
inductive HeapCall where
  | malloc (size : Nat) (grants : Grants)
  | free (pointer : Nat)
  | store (address : Nat) (value : Mheader)

namespace UserHeap

variable {s s' : UserHeap} {call : HeapCall} {blocks : List Block} {pointer size : Nat}

/-- A request is below 2^31, `sbrk` fails or extends the heap, only live blocks are freed, and the program
writes only inside of them. -/
def Allows (s : UserHeap) : HeapCall → Prop
  | .malloc size grants => size < 2 ^ 31 ∧ grants.probe ≠ .moved ∧ grants.align ≠ .moved ∧ grants.grow ≠ .moved
  | .free pointer => pointer = 0 ∨ ∃ size, (pointer, size) ∈ s.live
  | .store address _ =>
    ∃ pointer size, (pointer, size) ∈ s.live ∧ pointer ≤ address ∧ address < pointer + size

def perform (s : UserHeap) : HeapCall → Program UserHeap
  | .malloc size grants => do
    let (pointer, heap) ← s.heap.malloc size grants
    return ⟨heap, if pointer = 0 then s.live else (pointer, size) :: s.live⟩
  | .free pointer => do
    let heap ← s.heap.free pointer
    return ⟨heap, s.live.filter fun block => block.1 ≠ pointer⟩
  | .store address value => .ok ⟨s.heap.set address value, s.live⟩

def Step (s : UserHeap) (call : HeapCall) (s' : UserHeap) : Prop :=
  s.Allows call ∧ s.perform call = .ok s'

/-- The program has not called `malloc` yet. -/
structure Unused (s : UserHeap) : Prop where
  base : s.heap.heapbase = 0
  top : s.heap.heaptop = 0
  live : s.live = []

/-- A check of the library ends the program, or a loop does not end; that `sbrk` fails is no check. -/
def Fails (s : UserHeap) (call : HeapCall) : Prop :=
  ∃ exit, s.perform call = .error exit ∧ exit ≠ .err "malloc: initial sbrk failed" ∧
    exit ≠ .err "malloc: sbrk failed aligning heap base"

/-- No pointer to the top of the heap is freed, and a heap that is set up does not begin at 0. -/
def Meets (s : UserHeap) : HeapCall → Prop
  | .malloc _ grants => s.heap.heapbase = 0 → grants.probe ≠ .refused → s.heap.brk ≠ 0
  | .free pointer => pointer = 0 ∨ pointer ≠ s.heap.heaptop
  | .store _ _ => True

/-- The data area of a block by its header -/
def dataSize (s : UserHeap) (pointer : Nat) : Nat := (s.heap.mem (pointer - 8)).size

/-- The heap is tiled by blocks whose links agree, no two neighbours are free, and the data areas of the live
blocks are aligned, large enough and disjoint. -/
structure Safe (s : UserHeap) (blocks : List Block) : Prop where
  tiles : s.heap.heaptop = s.heap.heapbase + span blocks
  whole : ∀ block ∈ blocks, Whole block
  linked : Linked cell s.heap.mem s.heap.heapbase 0 blocks
  apart : Apart blocks
  used : ∀ pointer size, (pointer, size) ∈ s.live ↔ InUse s.heap.heapbase blocks pointer size
  aligned : ∀ pointer size, (pointer, size) ∈ s.live → pointer % 8 = 0
  room : ∀ pointer size, (pointer, size) ∈ s.live →
    size ≤ s.dataSize pointer ∧ pointer + s.dataSize pointer ≤ s.heap.heaptop
  disjoint : s.live.Pairwise fun first second =>
    first.1 + s.dataSize first.1 ≤ second.1 - 8 ∨ second.1 + s.dataSize second.1 ≤ first.1 - 8

/-- What the calls keep -/
structure Sound (s : UserHeap) (blocks : List Block) : Prop where
  usable : s.heap.Usable blocks
  apart : Apart blocks
  used : ∀ pointer size, (pointer, size) ∈ s.live ↔ InUse s.heap.heapbase blocks pointer size
  nodup : (s.live.map Prod.fst).Nodup

theorem Unused.sound (unused : s.Unused) : s.Sound [] where
  usable := .inr ⟨unused.base, unused.top, rfl⟩
  apart := isChain_nil
  used := by simp [unused.live]
  nodup := by simp [unused.live]

section

variable (sound : s.Sound blocks)
include sound

theorem Sound.laid (live : (pointer, size) ∈ s.live) : s.heap.Laid blocks := by
  rcases sound.usable with laid | ⟨_, _, rfl⟩
  · exact laid
  · exact absurd ((sound.used _ _).mp live) inUse_nil

theorem Sound.malloc (small : size < 2 ^ 31) (forward : grants.grow ≠ .moved)
    (done : s.perform (.malloc size grants) = .ok s') : ∃ blocks', s'.Sound blocks' := by
  have ended : Heap.CallEnd s.heap blocks size grants (s.heap.malloc size grants) :=
    sound.usable.malloc (by omega) fun moved => absurd moved forward
  obtain ⟨⟨pointer, heap⟩, called, ran⟩ := bind_ok.mp done
  cases ran
  rw [called] at ended
  cases ended with
  | @returned h₁ _ _ laid same ended =>
    have used (other size : Nat) : (other, size) ∈ s.live ↔ InUse h₁.heapbase blocks other size := by
      rw [sound.used]
      rcases sound.usable with prev | ⟨_, _, rfl⟩
      · rw [same prev]
      · simp only [inUse_nil]
    cases ended with
    | null => exact ⟨blocks, .inl laid, sound.apart, used, sound.nodup⟩
    | @allocated _ _ blocks' base laid' apart fresh inUse =>
      obtain ⟨start, _, _, place, _⟩ := (inUse pointer size).mpr (.inl ⟨rfl, rfl⟩)
      simp only [if_neg (show pointer ≠ 0 by omega)]
      refine ⟨blocks', .inl laid', apart sound.apart, ?_, ?_⟩
      · intro other asked
        rw [base, inUse, ← used, mem_cons, Prod.mk.injEq, eq_comm (a := asked)]
      · rw [map_cons, nodup_cons]
        refine ⟨?_, sound.nodup⟩
        rw [mem_map]
        rintro ⟨⟨_, other⟩, mem, rfl⟩
        exact fresh other ((used _ _).mp mem)

theorem Sound.free (live : pointer = 0 ∨ ∃ size, (pointer, size) ∈ s.live)
    (done : s.perform (.free pointer) = .ok s') : ∃ blocks', s'.Sound blocks' := by
  obtain ⟨heap, called, ran⟩ := bind_ok.mp done
  cases ran
  have nodup : ((s.live.filter fun block => block.1 ≠ pointer).map Prod.fst).Nodup :=
    sound.nodup.sublist (filter_sublist.map _)
  rcases live with rfl | ⟨size, mem⟩
  · obtain rfl : s.heap = heap := Except.ok.inj called
    refine ⟨blocks, sound.usable, sound.apart, ?_, nodup⟩
    intro other size
    rw [mem_filter, sound.used]
    refine ⟨And.left, fun used => ⟨used, ?_⟩⟩
    obtain ⟨start, _, _, rfl, _⟩ := used
    simp
  · have ended := (sound.laid mem).free ((sound.used _ _).mp mem)
    rw [called] at ended
    cases ended with
    | freed _ laid apart inUse =>
      refine ⟨_, .inl laid, apart sound.apart, ?_, nodup⟩
      intro other size
      rw [mem_filter, sound.used, inUse, decide_eq_true_eq]

theorem Sound.step (step : s.Step call s') : ∃ blocks', s'.Sound blocks' := by
  obtain ⟨allowed, done⟩ := step
  cases call with
  | malloc size grants => exact sound.malloc allowed.1 allowed.2.2.2 done
  | free pointer => exact sound.free allowed done
  | store addr value =>
    cases done
    obtain ⟨pointer, size, mem, low, high⟩ := allowed
    have laid := (sound.laid mem).store ((sound.used _ _).mp mem) low high value
    exact ⟨blocks, .inl laid, sound.apart, sound.used, sound.nodup⟩

theorem Sound.area (live : (pointer, size) ∈ s.live) :
    ∃ block, (pointer - 8, block) ∈ starts s.heap.heapbase blocks ∧ 8 ≤ pointer ∧ pointer % 8 = 0 ∧
      block.length = 8 + s.dataSize pointer ∧ size ≤ s.dataSize pointer ∧
      pointer + s.dataSize pointer ≤ s.heap.heaptop := by
  obtain ⟨block, mem, high, aligned, _, data, room, top⟩ :=
    (sound.laid live).area ((sound.used _ _).mp live)
  rw [dataSize]
  exact ⟨block, mem, high, aligned, by omega⟩

theorem Sound.safe : s.Safe blocks where
  tiles := by
    rcases sound.usable with laid | ⟨base, top, rfl⟩
    · exact laid.top
    · rw [base, top, span_nil]
  whole := by
    rcases sound.usable with laid | ⟨_, _, rfl⟩
    · exact laid.whole
    · exact nofun
  linked := by
    rcases sound.usable with laid | ⟨_, _, rfl⟩
    · exact laid.linked
    · exact trivial
  apart := sound.apart
  used := sound.used
  aligned := by
    intro pointer size live
    obtain ⟨_, _, _, aligned, _⟩ := sound.area live
    exact aligned
  room := by
    intro pointer size live
    obtain ⟨_, _, _, _, _, room⟩ := sound.area live
    exact room
  disjoint := by
    refine (pairwise_map.mp sound.nodup).imp_of_mem ?_
    intro ⟨first, size⟩ ⟨second, size'⟩ one other distinct
    obtain ⟨low, here, high, _, len, _⟩ := sound.area one
    obtain ⟨low', there, high', _, length', _⟩ := sound.area other
    have apart := starts_apart here there (show first - 8 ≠ second - 8 by have := distinct; omega)
    dsimp only
    omega

theorem Sound.malloc_fails (small : size < 2 ^ 31) (forward : grants.grow ≠ .moved) :
    s.Fails (.malloc size grants) ↔ ¬ s.Meets (.malloc size grants) := by
  have ended : Heap.CallEnd s.heap blocks size grants (s.heap.malloc size grants) :=
    sound.usable.malloc (by omega) fun moved => absurd moved forward
  simp only [Fails, perform]
  generalize s.heap.malloc size grants = outcome at ended
  cases ended with
  | init unset ended =>
    cases ended with
    | probe failed =>
      refine iff_of_false ?_ (not_not.mpr fun _ granted => ?_)
      · rintro ⟨_, ⟨⟩, other, _⟩
        exact other rfl
      · have large := failed granted
        omega
    | align began _ =>
      refine iff_of_false ?_ (not_not.mpr fun _ _ => began)
      rintro ⟨_, ⟨⟩, _, other⟩
      exact other rfl
    | zero granted began => exact iff_of_true ⟨_, rfl, nofun, nofun⟩ fun meets => meets unset granted began
  | returned began laid same ended =>
    refine iff_of_false ?_ (not_not.mpr fun unset _ => began unset)
    rintro ⟨_, failed, _⟩
    cases failed

theorem Sound.free_fails (live : pointer = 0 ∨ ∃ size, (pointer, size) ∈ s.live) :
    s.Fails (.free pointer) ↔ ¬ s.Meets (.free pointer) := by
  rcases live with rfl | ⟨size, mem⟩
  · refine iff_of_false ?_ (not_not.mpr (.inl rfl))
    rintro ⟨_, failed, _⟩
    cases failed
  · obtain ⟨_, _, pos, _⟩ := sound.area mem
    have ended := (sound.laid mem).free ((sound.used _ _).mp mem)
    simp only [Fails, Meets, perform]
    generalize s.heap.free pointer = outcome at ended
    cases ended with
    | refused top =>
      refine iff_of_true ⟨_, rfl, nofun, nofun⟩ ?_
      omega
    | freed inside laid apart inUse =>
      refine iff_of_false ?_ (not_not.mpr (.inr inside))
      rintro ⟨_, failed, _⟩
      cases failed

theorem Sound.fails (allowed : s.Allows call) : s.Fails call ↔ ¬ s.Meets call := by
  cases call with
  | malloc size grants => exact sound.malloc_fails allowed.1 allowed.2.2.2
  | free pointer => exact sound.free_fails allowed
  | store addr value =>
    refine iff_of_false ?_ (not_not.mpr trivial)
    rintro ⟨_, failed, _⟩
    cases failed

end

/-- The heap stays tiled, and a check stops exactly the calls outside the condition. -/
theorem heap_runs_safe {first last : UserHeap} {calls : List HeapCall} (unused : first.Unused)
    (reached : Run Step first calls last) :
    (∃ blocks, last.Safe blocks) ∧ ∀ call, last.Allows call → (last.Fails call ↔ ¬ last.Meets call) := by
  have keeps (s : UserHeap) (call : HeapCall) (s' : UserHeap) (before : ∃ blocks, s.Sound blocks)
      (step : s.Step call s') : ∃ blocks, s'.Sound blocks := by
    obtain ⟨blocks, sound⟩ := before
    exact sound.step step
  obtain ⟨blocks, sound⟩ := reached.invariant keeps ⟨[], unused.sound⟩
  exact ⟨⟨blocks, sound.safe⟩, fun call allowed => sound.fails allowed⟩

/-- A program whose heap will begin at 4096 -/
def started : UserHeap := ⟨Heap.started, []⟩

/-- Every call of `sbrk` extends the heap. -/
abbrev granted : Grants := ⟨.extended, .extended, .extended⟩

/-- The program after `malloc(0)` -/
def afterMalloc : UserHeap where
  heap := ⟨Function.update (fun _ => .deadbeef) 4096 (cell 0 ⟨8, some 0⟩), 4096, 4104, 4096, 4104⟩
  live := [(4104, 0)]

theorem started_runs : Run Step started [.malloc 0 granted] afterMalloc :=
  .single ⟨⟨by decide, nofun, nofun, nofun⟩, rfl⟩

/-- A block is split off from a freed one, and three are in use. -/
theorem heap_runs_safe_split : ∃ s blocks, Run Step started [.malloc 100 granted, .malloc 20 granted, .free 4104,
      .malloc 40 granted, .malloc 30 granted, .store 4112 .deadbeef] s ∧ s.Safe blocks ∧
    s.live = [(4152, 30), (4104, 40), (4216, 20)] ∧ (s.Fails (.free 4152) ↔ ¬ s.Meets (.free 4152)) := by
  obtain ⟨s, run, live⟩ : ∃ s, Run Step started [.malloc 100 granted, .malloc 20 granted, .free 4104,
      .malloc 40 granted, .malloc 30 granted, .store 4112 .deadbeef] s ∧
      s.live = [(4152, 30), (4104, 40), (4216, 20)] := by
    refine ⟨_, .cons ⟨⟨by decide, nofun, nofun, nofun⟩, rfl⟩ (.cons ⟨⟨by decide, nofun, nofun, nofun⟩, rfl⟩
      (.cons ⟨.inr ⟨100, by decide⟩, rfl⟩ (.cons ⟨⟨by decide, nofun, nofun, nofun⟩, rfl⟩
      (.cons ⟨⟨by decide, nofun, nofun, nofun⟩, rfl⟩
        (.single ⟨⟨4104, 40, by decide, by decide, by decide⟩, rfl⟩))))), rfl⟩
  obtain ⟨⟨blocks, safe⟩, fails⟩ := heap_runs_safe (show started.Unused from ⟨rfl, rfl, rfl⟩) run
  exact ⟨s, blocks, run, safe, live, fails _ (.inr ⟨30, by simp [live]⟩)⟩

/-- `free(malloc(0))` is refused as out of range. -/
theorem free_malloc_zero_refused :
    started.Unused ∧ Run Step started [.malloc 0 granted] afterMalloc ∧ afterMalloc.Allows (.free 4104) ∧
      afterMalloc.perform (.free 4104) = .error (.errx "free: Invalid pointer 0x1008 freed (out of range)") :=
  ⟨⟨rfl, rfl, rfl⟩, started_runs, .inr ⟨0, mem_cons_self⟩, rfl⟩

end UserHeap

end Os161.User
