import Os161.Vm.AddrSpaceSpec
import Os161.Vm.FrameLifetime
import Os161.Vm.SwapTransfer

namespace Os161.Vm
open Word Outcome Transition List AddrSpace Function

/-- `swap_partition` with the slots that callers have been given and have not read back. -/
structure SwapTable where
  partition : Nat → Bool
  held : List Nat

/-- A call of `write_to_swap`, or of `read_from_swap` for a slot -/
inductive SwapCall where
  | write
  | read (pfn index : Nat)

/-- A call that returns. It is made by any process or by the kernel, and from one call to the next everything but
the table may change. -/
inductive SwapStep : SwapTable → SwapCall → SwapTable → Prop where
  | write {t : SwapTable} {w out : SwapWorld} {slot : Nat} (table : w.machine.swapPartition = t.partition)
      (returned : w.writeToSwap = .ok (slot, out)) :
      SwapStep t .write ⟨out.machine.swapPartition, slot :: t.held⟩
  | read {t : SwapTable} {w out : SwapWorld} {pfn index : Nat} (table : w.machine.swapPartition = t.partition)
      (member : index ∈ t.held) (returned : w.readFromSwap pfn index = .ok out) :
      SwapStep t (.read pfn index) ⟨out.machine.swapPartition, t.held.erase index⟩

/-- `swap_initialize`, with the open swap file that it should leave -/
def swapInitialize (partition : Nat → Bool) : SwapTable where
  partition := fun i => if i < swapNum then false else partition i
  held := []

def SwapTable.HasFree (t : SwapTable) : Prop := ∃ i < swapNum, t.partition i = false

/-- Every slot that a caller holds is a slot of the file and held once. -/
def SwapTable.Exclusive (t : SwapTable) : Prop := t.held.Nodup ∧ ∀ slot ∈ t.held, slot < swapNum

/-- The held slots are exclusive and taken in the table. -/
structure SwapTable.Inv (t : SwapTable) : Prop where
  exclusive : t.Exclusive
  taken : ∀ slot ∈ t.held, t.partition slot = true

variable {t next : SwapTable} {call : SwapCall} {calls : List SwapCall}

theorem writeToSwap_cases {w : SwapWorld} (ran : w.writeToSwap = .ok (slot, out)) :
    ((∀ i < swapNum, w.machine.swapPartition i = true) ∧ slot = swapNum ∧
        out.machine.swapPartition = w.machine.swapPartition) ∨
      slot < swapNum ∧ w.machine.swapPartition slot = false ∧
        out.machine.swapPartition = update w.machine.swapPartition slot true := by
  obtain ⟨⟨i, done⟩, looped, counted⟩ := bind_ok.mp ran
  cases counted
  rcases w.writeLoop_end swapNum 0 (by omega) with ⟨full, ended⟩ | ⟨j, below, free, ended⟩
  · cases looped.symm.trans ended
    exact .inl ⟨fun i small => full i (Nat.zero_le i) (by omega), Nat.zero_add _, rfl⟩
  · rw [ended] at looped
    split_ifs at looped
    cases looped
    exact .inr ⟨by omega, free, rfl⟩

theorem SwapTable.Inv.step (inv : t.Inv) (moved : SwapStep t call next) (room : call = .write → t.HasFree) :
    next.Inv := by
  cases moved with
  | @write w out slot table ran =>
    rcases writeToSwap_cases ran with ⟨full, _⟩ | ⟨inside, free, after⟩
    · obtain ⟨i, small, empty⟩ := room rfl
      rw [← table, full i small] at empty
      cases empty
    · rw [table] at free after
      have fresh : slot ∉ t.held := by
        intro mem
        rw [inv.taken slot mem] at free
        cases free
      refine ⟨⟨nodup_cons.mpr ⟨fresh, inv.exclusive.1⟩, ?_⟩, ?_⟩
      · intro other mem
        rcases mem_cons.mp mem with rfl | old
        · exact inside
        · exact inv.exclusive.2 other old
      · intro other mem
        change out.machine.swapPartition other = true
        rw [after, update_apply]
        rcases mem_cons.mp mem with rfl | old
        · exact if_pos rfl
        · rw [inv.taken other old, ite_self]
  | read table mem ran => cases ran

/-- The call returns, and a write finds a free slot. -/
def SwapServed (t : SwapTable) (call : SwapCall) (next : SwapTable) : Prop :=
  SwapStep t call next ∧ (call = .write → t.HasFree)

/-- Held slots are exclusive while every write finds a free one. -/
theorem swap_slots_exclusive_iff (partition : Nat → Bool)
    (reached : Run SwapServed (swapInitialize partition) calls t) :
    t.Exclusive ∧ ∀ {w out : SwapWorld} {slot : Nat}, w.machine.swapPartition = t.partition →
      w.writeToSwap = .ok (slot, out) → (slot < swapNum ∧ slot ∉ t.held ↔ t.HasFree) := by
  have inv : t.Inv := by
    refine reached.invariant (fun _ _ _ before moved => before.step moved.1 moved.2) ⟨⟨nodup_nil, ?_⟩, ?_⟩
    · exact fun _ member => absurd member not_mem_nil
    · exact fun _ member => absurd member not_mem_nil
  refine ⟨inv.exclusive, ?_⟩
  intro w out slot table returned
  rcases writeToSwap_cases returned with ⟨full, rfl, _⟩ | ⟨inside, free, _⟩
  · refine iff_of_false (fun found => absurd found.1 (Nat.lt_irrefl _)) ?_
    rintro ⟨i, small, empty⟩
    rw [← table, full i small] at empty
    cases empty
  · rw [table] at free
    refine iff_of_true ⟨inside, fun member => ?_⟩ ⟨slot, inside, free⟩
    rw [inv.taken slot member] at free
    cases free

theorem SwapTable.write_returns (t : SwapTable) : ∃ slot partition, SwapStep t .write ⟨partition, slot :: t.held⟩ := by
  let w := SwapWorld.emptySwap (booted eightFrames fun _ => 0) none
  let seen : SwapWorld := { w with machine := { w.machine with swapPartition := t.partition } }
  have ran : ∃ slot out, seen.writeToSwap = .ok (slot, out) := by
    rw [SwapWorld.writeToSwap]
    rcases seen.writeLoop_end swapNum 0 (by omega) with ⟨_, ended⟩ | ⟨j, _, _, ended⟩
    · rw [ended]
      exact ⟨_, _, rfl⟩
    · rw [ended]
      exact ⟨_, _, rfl⟩
  obtain ⟨slot, out, ran⟩ := ran
  exact ⟨slot, _, .write (show seen.machine.swapPartition = t.partition from rfl) ran⟩

theorem SwapTable.hasFree_of_marked (marked : ∀ i < swapNum, t.partition i = true → i ∈ t.held)
    (room : t.held.length < swapNum) : t.HasFree := by
  by_contra full
  have all : Finset.range swapNum ⊆ t.held.toFinset := by
    intro i inside
    have small := Finset.mem_range.mp inside
    refine mem_toFinset.mpr (marked i small ?_)
    by_contra empty
    exact full ⟨i, small, Bool.eq_false_iff.mpr empty⟩
  have few := (Finset.card_le_card all).trans t.held.toFinset_card_le
  rw [Finset.card_range] at few
  omega

theorem SwapTable.writes_served (count : Nat) (marked : ∀ i < swapNum, t.partition i = true → i ∈ t.held)
    (room : t.held.length + count ≤ swapNum) :
    ∃ last, Run SwapServed t (List.replicate count .write) last := by
  induction count generalizing t with
  | zero => exact ⟨t, .nil t⟩
  | succ count ih =>
    have free := hasFree_of_marked marked (by omega)
    obtain ⟨slot, partition, moved⟩ := t.write_returns
    have next : ∀ i < swapNum, partition i = true → i ∈ slot :: t.held := by
      intro i small taken
      cases moved with
      | write table ran =>
        rcases writeToSwap_cases ran with ⟨_, _, same⟩ | ⟨_, _, after⟩
        · rw [same, table] at taken
          exact mem_cons_of_mem _ (marked i small taken)
        · rw [after, table, update_apply] at taken
          split_ifs at taken with here
          · exact here ▸ mem_cons_self
          · exact mem_cons_of_mem _ (marked i small taken)
    have fits : (slot :: t.held).length + count ≤ swapNum := by
      rw [length_cons]
      omega
    obtain ⟨last, rest⟩ := ih (t := ⟨partition, slot :: t.held⟩) next fits
    exact ⟨last, .cons ⟨moved, fun _ => free⟩ rest⟩

/-- After `swap_initialize` every slot can be handed out once. -/
theorem swap_slots_exclusive_all : ∃ t,
    Run SwapServed (swapInitialize fun _ => true) (List.replicate swapNum .write) t ∧ t.Exclusive := by
  obtain ⟨t, reached⟩ := (swapInitialize fun _ => true).writes_served swapNum (by
    intro i small taken
    exact absurd ((if_pos small).symm.trans taken) Bool.false_ne_true) (Nat.le_of_eq (Nat.zero_add _))
  exact ⟨t, reached, (swap_slots_exclusive_iff _ reached).1⟩

theorem SwapTable.writes_return (t : SwapTable) (count : Nat) :
    ∃ last, Run SwapStep t (List.replicate count .write) last ∧ last.held.length = t.held.length + count := by
  induction count generalizing t with
  | zero => exact ⟨t, .nil t, rfl⟩
  | succ count ih =>
    obtain ⟨slot, partition, moved⟩ := t.write_returns
    obtain ⟨last, rest, len⟩ := ih ⟨partition, slot :: t.held⟩
    refine ⟨last, .cons moved rest, len.trans ?_⟩
    rw [length_cons]
    omega

/-- One write more than slots returns a bad or repeated index. -/
theorem swap_hands_out_too_much : ∃ last,
    Run SwapStep (swapInitialize fun _ => true) (List.replicate (swapNum + 1) .write) last ∧ ¬ last.Exclusive := by
  obtain ⟨last, reached, length⟩ := (swapInitialize fun _ => true).writes_return (swapNum + 1)
  refine ⟨last, reached, ?_⟩
  rintro ⟨once, inside⟩
  have within : last.held.toFinset ⊆ Finset.range swapNum := fun slot member =>
    Finset.mem_range.mpr (inside slot (mem_toFinset.mp member))
  have few := Finset.card_le_card within
  rw [toFinset_card_of_nodup once, Finset.card_range, length] at few
  exact absurd few (by decide)

/-- The entry of this page table is valid and maps the frame. -/
def Maps {P : Type} (spaces : P → AddrSpace) (pa : Paddr) (owner : P) (region : Region) (vpn : Nat) : Prop :=
  ∃ entry, (spaces owner).pteAt region vpn = .ok entry ∧ entry.valid = true ∧ entry.pfn = pa

theorem findPteLoop_ok {table : PageTable} {pa : Paddr} {todo i index : Nat} :
    findPteLoop table pa todo i = .ok index ↔
      (i ≤ index ∧ index < i + todo) ∧ (table.entry index).pfn = pa ∧
        ∀ prior, i ≤ prior → prior < index → (table.entry prior).pfn ≠ pa := by
  induction todo generalizing i with
  | zero =>
    refine iff_of_false (by simp [findPteLoop]) ?_
    rintro ⟨bounds, _⟩
    omega
  | succ todo ih =>
    rw [findPteLoop]
    split
    · rename_i here
      constructor
      · rintro ⟨⟩
        exact ⟨⟨Nat.le_refl _, by omega⟩, here, fun prior low high => absurd low (by omega)⟩
      · rintro ⟨⟨low, _⟩, _, first⟩
        rcases Nat.eq_or_lt_of_le low with rfl | later
        · rfl
        · exact absurd here (first i (Nat.le_refl i) later)
    · rename_i elsewhere
      rw [ih]
      constructor
      · rintro ⟨⟨low, high⟩, found, first⟩
        refine ⟨⟨by omega, by omega⟩, found, fun prior above below => ?_⟩
        rcases Nat.eq_or_lt_of_le above with rfl | later
        · exact elsewhere
        · exact first prior later below
      · rintro ⟨⟨low, high⟩, found, first⟩
        have apart : i ≠ index := by
          rintro rfl
          exact elsewhere found
        exact ⟨⟨by omega, by omega⟩, found, fun prior above below => first prior (by omega) below⟩

/-- The search takes an older entry for the frame for the entry itself. -/
theorem victim_lookup_iff {P : Type} {spaces : P → AddrSpace} {pa : Paddr} {owner : P} {home : Region} {place : Nat}
    (mapped : Maps spaces pa owner home place)
    (only : ∀ other region vpn, Maps spaces pa other region vpn → other = owner ∧ region = home ∧ vpn = place)
    (faulting : P) (region : Region) :
    (∃ index, findPte (spaces faulting) pa region = .ok index ∧ Maps spaces pa faulting region index) ↔
      faulting = owner ∧ region = home ∧
        ∀ earlier < place, ∀ entry, (spaces owner).pteAt home earlier = .ok entry → entry.pfn ≠ pa := by
  constructor
  · rintro ⟨index, returned, found⟩
    obtain ⟨rfl, rfl, rfl⟩ := only _ _ _ found
    refine ⟨rfl, rfl, fun earlier before entry seen => ?_⟩
    obtain ⟨_, there, _⟩ := found
    obtain ⟨table, present, _, _⟩ := pteAt_ok.mp there
    obtain ⟨_, same, _, rfl⟩ := pteAt_ok.mp seen
    cases present.symm.trans same
    rw [findPte, present] at returned
    exact (findPteLoop_ok.mp returned).2.2 earlier (Nat.zero_le _) before
  · rintro ⟨rfl, rfl, first⟩
    refine ⟨place, ?_, mapped⟩
    obtain ⟨entry, there, _, frame⟩ := mapped
    obtain ⟨table, present, inside, rfl⟩ := pteAt_ok.mp there
    rw [findPte, present]
    refine findPteLoop_ok.mpr ⟨⟨Nat.zero_le _, by omega⟩, frame, fun earlier _ before => ?_⟩
    exact first earlier before _ (pteAt_ok.mpr ⟨table, present, by omega, rfl⟩)

/-- An address space with a stack whose first page may be mapped -/
def stackOnly (first : Pte) : AddrSpace where
  seg1 := ⟨0x400000, 0, 0, 0, 0, none⟩
  seg2 := ⟨0x500000, 0, 0, 0, 0, none⟩
  vn := 0
  pt3 := some { length := stackPages, entry := fun vpn => if vpn = 0 then first else pteCreate 0 false false }

/-- Two processes, of which one has the frame in its stack -/
def twoStacks (process : Bool) : AddrSpace :=
  stackOnly (if process then pteCreate 0x11000 true true else pteCreate 0 false false)

theorem twoStacks_maps : Maps twoStacks 0x11000 true .stack 0 := ⟨_, rfl, rfl, rfl⟩

theorem twoStacks_only (process : Bool) (region : Region) (vpn : Nat)
    (mapped : Maps twoStacks 0x11000 process region vpn) : process = true ∧ region = .stack ∧ vpn = 0 := by
  obtain ⟨entry, found, valid, _⟩ := mapped
  obtain ⟨table, present, _, rfl⟩ := pteAt_ok.mp found
  cases region with
  | first => cases present
  | second => cases present
  | stack =>
    cases present
    by_cases first : vpn = 0
    · subst first
      cases process with
      | false => cases valid
      | true => exact ⟨rfl, rfl, rfl⟩
    · dsimp only at valid
      rw [if_neg first] at valid
      cases valid

/-- The process that owns the frame finds it. -/
theorem victim_lookup_twoStacks :
    ∃ index, findPte (twoStacks true) 0x11000 .stack = .ok index ∧ Maps twoStacks 0x11000 true .stack index :=
  (victim_lookup_iff twoStacks_maps twoStacks_only true .stack).mpr
    ⟨rfl, rfl, fun _ before => absurd before (Nat.not_lt_zero _)⟩

/-- The other process runs off its own table. -/
theorem victim_lookup_runs_off : (∃ vpn, Maps twoStacks 0x11000 true .stack vpn) ∧
    (∀ process region vpn, Maps twoStacks 0x11000 process region vpn →
      process = true ∧ region = .stack ∧ vpn = 0) ∧
    findPte (twoStacks false) 0x11000 .stack = .error (.badIndex 12) :=
  ⟨⟨0, twoStacks_maps⟩, twoStacks_only, rfl⟩

end Os161.Vm
