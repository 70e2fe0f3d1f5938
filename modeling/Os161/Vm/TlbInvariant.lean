import Os161.Vm.FaultSpec
import Os161.Vm.FrameLifetime

namespace Os161.Vm
open Word Outcome Transition Function Machine

variable {tlb : Nat → TlbEntry} {page : Vaddr} {remaining i : Nat}

theorem probe_hit (found : probe tlb page remaining i = .hit) :
    ∃ slot, i ≤ slot ∧ slot < i + remaining ∧ (tlb slot).Valid ∧ (tlb slot).ehi = page := by
  induction remaining generalizing i with
  | zero => cases found
  | succ remaining ih =>
    rw [probe] at found
    split at found
    · rename_i valid
      split at found
      · rename_i same
        exact ⟨i, Nat.le_refl _, by omega, valid, same⟩
      · obtain ⟨slot, lower, upper, rest⟩ := ih found
        exact ⟨slot, by omega, by omega, rest⟩
    · cases found

variable {slot : Nat}

theorem probe_free (found : probe tlb page remaining i = .free slot) :
    i ≤ slot ∧ slot < i + remaining ∧ ¬ (tlb slot).Valid ∧
      ∀ prior, i ≤ prior → prior < slot → (tlb prior).Valid ∧ (tlb prior).ehi ≠ page := by
  induction remaining generalizing i with
  | zero => cases found
  | succ remaining ih =>
    rw [probe] at found
    split at found
    · rename_i valid
      split at found
      · cases found
      · rename_i differ
        obtain ⟨lower, upper, bad, prev⟩ := ih found
        refine ⟨by omega, by omega, bad, ?_⟩
        intro prior above below
        by_cases here : prior = i
        · rw [here]
          exact ⟨valid, differ⟩
        · exact prev prior (by omega) below
    · rename_i bad
      cases found
      exact ⟨Nat.le_refl _, by omega, bad, fun prior above below => by omega⟩

theorem probe_full (found : probe tlb page remaining i = .full) :
    ∀ slot, i ≤ slot → slot < i + remaining → (tlb slot).Valid ∧ (tlb slot).ehi ≠ page := by
  induction remaining generalizing i with
  | zero => exact fun slot lower upper => by omega
  | succ remaining ih =>
    rw [probe] at found
    split at found
    · rename_i valid
      split at found
      · cases found
      · rename_i differ
        intro slot lower upper
        by_cases here : slot = i
        · rw [here]
          exact ⟨valid, differ⟩
        · exact ih found slot (by omega) (by omega)
    · cases found

theorem invalidateLoop_eq (remaining i : Nat) (m : Machine) :
    invalidateLoop remaining i m = { m with
      tlb := fun slot =>
        if i ≤ slot ∧ slot < i + remaining then { ehi := tlbhiInvalid slot, elo := 0 }
        else m.tlb slot } := by
  induction remaining generalizing i m with
  | zero =>
    have out (slot : Nat) : ¬ (i ≤ slot ∧ slot < i + 0) := by omega
    simp only [invalidateLoop, out, if_false]
  | succ remaining ih =>
    rw [invalidateLoop, ih]
    simp only [tlbWrite, mk.injEq, true_and, and_true]
    funext slot
    by_cases here : slot = i
    · subst slot
      have later : ¬ (i + 1 ≤ i ∧ i < i + 1 + remaining) := by omega
      have now : i ≤ i ∧ i < i + (remaining + 1) := by omega
      rw [if_neg later, if_pos now, update_self]
    · have same : (i + 1 ≤ slot ∧ slot < i + 1 + remaining) ↔
          (i ≤ slot ∧ slot < i + (remaining + 1)) := by omega
      simp only [same, update_of_ne here]

theorem invalid_slot (slot : Nat) : ¬ ({ ehi := tlbhiInvalid slot, elo := 0 } : TlbEntry).Valid := by
  simp [TlbEntry.Valid]

theorem valid_of_or (page : Vaddr) (word : Word32) :
    ({ ehi := page, elo := word ||| tlbloValid } : TlbEntry).Valid := by
  have kept : (word ||| tlbloValid) &&& tlbloValid = tlbloValid := by
    ext index small
    simp only [BitVec.getElem_and, BitVec.getElem_or]
    cases word[index] <;> cases tlbloValid[index] <;> rfl
  rw [TlbEntry.Valid, kept]
  decide

theorem finalElo_valid (page : Vaddr) (as : AddrSpace) (region : Region) (paddr : Paddr) :
    ({ ehi := page, elo := finalElo as region paddr } : TlbEntry).Valid := by
  unfold finalElo
  split
  · exact valid_of_or page paddr
  · exact valid_of_or page (paddr ||| tlbloDirty)

variable {m : Machine}

theorem vmFault_tlb (ran : vmFault files kind fault current m = .ok (code, after, next)) :
    (next.tlb = m.tlb ∧ next.nextVictim = m.nextVictim) ∨
      ∃ slot elo, SlotChoice m (pageMask fault) slot next.nextVictim ∧
        ({ ehi := pageMask fault, elo := elo } : TlbEntry).Valid ∧
        next.tlb = update m.tlb slot { ehi := pageMask fault, elo := elo } := by
  have inserted {region : Region} {vpn : Nat} {paddr : Paddr} {load : Bool} {as : AddrSpace}
      {core : CoreState}
      (filled : fillTlb files region vpn (pageMask fault) paddr load as
        { m with core := core } = .ok (code, next)) :
      (next.tlb = m.tlb ∧ next.nextVictim = m.nextVictim) ∨
        ∃ slot elo, SlotChoice m (pageMask fault) slot next.nextVictim ∧
          ({ ehi := pageMask fault, elo := elo } : TlbEntry).Valid ∧
          next.tlb = update m.tlb slot { ehi := pageMask fault, elo := elo } := by
    obtain ⟨res, last, same, found⟩ := fillTlb_cases files region vpn (pageMask fault)
      paddr load as { m with core := core }
    rw [filled] at same
    cases same
    obtain ⟨_, _, tlb, _, victim, _⟩ | ⟨slot, victim, chosen, entry⟩ := found
    · exact .inl ⟨tlb, victim⟩
    · refine .inr ⟨slot, _, ?_, ?_, entry.tlb⟩
      · rw [entry.victim]
        cases chosen with
        | free found => exact .free found
        | full found => exact .full found
      · split
        · exact finalElo_valid _ as region paddr
        · exact valid_of_or _ (paddr ||| tlbloDirty)
  cases current with
  | none =>
    obtain ⟨_, _, rfl⟩ := vmFault_none ran
    exact .inl ⟨rfl, rfl⟩
  | some as =>
    obtain ⟨_, _, _, rfl⟩ | ⟨_, space, _, _, outcome⟩ := vmFault_outcome ran
    · exact .inl ⟨rfl, rfl⟩
    · cases outcome with
      | unmapped nowhere | readOnly spot found valid program clean write
      | noMemory spot found bad resident refused => exact .inl ⟨rfl, rfl⟩
      | present spot found valid allowed nonzero aligned filled => exact inserted filled
      | fresh spot found bad resident served nonzero aligned filled => exact inserted filled

/-- The valid entries fill the first slots and belong to different pages. -/
structure TlbShape (tlb : Nat → TlbEntry) (count : Nat) : Prop where
  bounded : count ≤ numTlb
  initial : ∀ slot < numTlb, (tlb slot).Valid ↔ slot < count
  aligned : ∀ slot < count, Aligned (tlb slot).ehi
  distinct : ∀ left < count, ∀ right < count, (tlb left).ehi = (tlb right).ehi → left = right

theorem TlbShape.empty (bad : ∀ slot < numTlb, ¬ (tlb slot).Valid) :
    TlbShape tlb 0 where
  bounded := Nat.zero_le _
  initial := fun slot small => iff_of_false (bad slot small) (Nat.not_lt_zero slot)
  aligned := fun slot small => absurd small (Nat.not_lt_zero slot)
  distinct := fun slot small => absurd small (Nat.not_lt_zero slot)

variable {count : Nat}

theorem TlbShape.write {entry : TlbEntry} (shape : TlbShape tlb count) (reachable : slot ≤ count)
    (inside : slot < numTlb) (valid : entry.Valid) (aligned : Aligned entry.ehi)
    (fresh : ∀ other < count, other ≠ slot → (tlb other).ehi ≠ entry.ehi) :
    TlbShape (update tlb slot entry) (max count (slot + 1)) where
  bounded := by
    have := shape.bounded
    omega
  initial := by
    intro other small
    by_cases here : other = slot
    · rw [here, update_self]
      exact iff_of_true valid (by omega)
    · rw [update_of_ne here, shape.initial other small]
      omega
  aligned := by
    intro other small
    by_cases here : other = slot
    · rw [here, update_self]
      exact aligned
    · rw [update_of_ne here]
      exact shape.aligned other (by omega)
  distinct := by
    intro left leftSmall right rightSmall same
    by_cases leftHere : left = slot
    · by_cases rightHere : right = slot
      · exact leftHere.trans rightHere.symm
      · rw [leftHere, update_self, update_of_ne rightHere] at same
        exact absurd same.symm (fresh right (by omega) rightHere)
    · by_cases rightHere : right = slot
      · rw [rightHere, update_self, update_of_ne leftHere] at same
        exact absurd same (fresh left (by omega) leftHere)
      · rw [update_of_ne leftHere, update_of_ne rightHere] at same
        exact shape.distinct left (by omega) right (by omega) same

theorem SlotChoice.shape (chosen : SlotChoice m page slot victim) (shape : TlbShape m.tlb count)
    (cursor : m.nextVictim < numTlb) (valid : ({ ehi := page, elo := elo } : TlbEntry).Valid)
    (aligned : Aligned page) :
    TlbShape (update m.tlb slot { ehi := page, elo := elo }) (max count (slot + 1)) ∧
      victim < numTlb := by
  cases chosen with
  | free found =>
    obtain ⟨_, inside, bad, prev⟩ := probe_free found
    have last : count ≤ slot := by
      by_contra later
      exact bad ((shape.initial slot (by omega)).mpr (by omega))
    have first : slot ≤ count := by
      by_contra later
      have valid := (prev count (Nat.zero_le _) (by omega)).1
      exact absurd ((shape.initial count (by omega)).mp valid) (Nat.lt_irrefl _)
    refine ⟨shape.write first (by omega) valid aligned ?_, cursor⟩
    intro other small _
    exact (prev other (Nat.zero_le _) (by omega)).2
  | full found =>
    have entries := probe_full found
    have whole : count = numTlb := by
      by_contra short
      have bounded := shape.bounded
      have valid := (entries count (Nat.zero_le _) (by omega)).1
      exact absurd ((shape.initial count (by omega)).mp valid) (Nat.lt_irrefl _)
    refine ⟨shape.write (by omega) cursor valid aligned ?_, Nat.mod_lt _ (by decide)⟩
    intro other small _
    exact (entries other (Nat.zero_le _) (by omega)).2

theorem TlbShape.probe_hit_iff (shape : TlbShape tlb count) (page : Vaddr) :
    probe tlb page numTlb 0 = .hit ↔
      ∃ slot < numTlb, (tlb slot).Valid ∧ (tlb slot).ehi = page := by
  constructor
  · intro hit
    obtain ⟨slot, _, inside, valid, same⟩ := probe_hit hit
    exact ⟨slot, by omega, valid, same⟩
  · rintro ⟨slot, inside, valid, same⟩
    have small := (shape.initial slot inside).mp valid
    cases found : probe tlb page numTlb 0 with
    | hit => rfl
    | free place =>
      obtain ⟨_, bound, bad, prev⟩ := probe_free found
      have later : ¬ place < count := fun early => bad ((shape.initial place (by omega)).mpr early)
      exact absurd same (prev slot (Nat.zero_le _) (by omega)).2
    | full => exact absurd same (probe_full found slot (Nat.zero_le _) (by omega)).2

/-- The calls that a processor makes on its translation buffer. -/
inductive TlbOp where
  | fault (faulttype : FaultType) (faultaddress : Vaddr)
  | activate
  | kernel

/-- Each `vm_fault` returns, for any address space and files. The rest of the kernel may change
everything but the translation buffer and the round-robin cursor. -/
inductive TlbStep : Machine → TlbOp → Machine → Prop where
  | fault {files : Files} {faulttype : FaultType} {faultaddress : Vaddr}
      {current after : Option AddrSpace} {m next : Machine} {code : Errno}
      (returned : vmFault files faulttype faultaddress current m = .ok (code, after, next)) :
      TlbStep m (.fault faulttype faultaddress) next
  | activate (current : Option AddrSpace) (m : Machine) :
      TlbStep m .activate (asActivate current m)
  | kernel {m next : Machine} (tlb : next.tlb = m.tlb) (victim : next.nextVictim = m.nextVictim) :
      TlbStep m .kernel next

/-- The buffer has the shape and the cursor names a slot. -/
def Machine.TlbInv (m : Machine) : Prop := (∃ count, TlbShape m.tlb count) ∧ m.nextVictim < numTlb

theorem asActivate_tlb (as : AddrSpace) (m : Machine) (inside : slot < numTlb) :
    (asActivate (some as) m).tlb slot = { ehi := tlbhiInvalid slot, elo := 0 } := by
  simp only [asActivate, invalidateLoop_eq]
  exact if_pos ⟨Nat.zero_le _, by omega⟩

theorem asActivate_core (as : AddrSpace) (m : Machine) :
    (asActivate (some as) m).core = m.core := by
  simp only [asActivate, splhigh, vmstatsInc, splx, invalidateLoop_eq]

theorem TlbStep.inv (step : TlbStep m op next) (inv : m.TlbInv) : next.TlbInv := by
  obtain ⟨⟨count, shape⟩, cursor⟩ := inv
  cases step with
  | fault ran =>
    obtain ⟨tlb, victim⟩ | ⟨slot, elo, chosen, valid, tlb⟩ := vmFault_tlb ran
    · rw [Machine.TlbInv, tlb, victim]
      exact ⟨⟨count, shape⟩, cursor⟩
    · rw [Machine.TlbInv, tlb]
      have kept := chosen.shape shape cursor valid (pageMask_aligned _)
      exact ⟨⟨_, kept.1⟩, kept.2⟩
  | activate current =>
    cases current with
    | none => exact ⟨⟨count, shape⟩, cursor⟩
    | some as =>
      refine ⟨⟨0, TlbShape.empty ?_⟩, ?_⟩
      · intro slot inside
        rw [asActivate_tlb as m inside]
        exact invalid_slot slot
      · simpa only [asActivate, splhigh, vmstatsInc, splx,
          invalidateLoop_eq] using cursor
  | kernel tlb victim =>
    rw [Machine.TlbInv, tlb, victim]
    exact ⟨⟨count, shape⟩, cursor⟩

/-- Valid entries fill the first slots and translate different pages. -/
theorem tlb_wellFormed {first last : Machine} {ops : List TlbOp}
    (empty : ∀ slot < numTlb, ¬ (first.tlb slot).Valid) (cursor : first.nextVictim < numTlb)
    (reached : Run TlbStep first ops last) :
    (∃ count, ∀ slot < numTlb, (last.tlb slot).Valid ↔ slot < count) ∧
      ∀ left < numTlb, ∀ right < numTlb, (last.tlb left).Valid → (last.tlb right).Valid →
        pageMask (last.tlb left).ehi = pageMask (last.tlb right).ehi → left = right := by
  obtain ⟨⟨count, shape⟩, _⟩ := reached.invariant (fun _ _ _ inv step => TlbStep.inv step inv)
    ⟨⟨0, TlbShape.empty empty⟩, cursor⟩
  refine ⟨⟨count, shape.initial⟩, ?_⟩
  intro left leftInside right rightInside leftValid rightValid same
  have leftSmall := (shape.initial left leftInside).mp leftValid
  have rightSmall := (shape.initial right rightInside).mp rightValid
  rw [pageMask_of_aligned (shape.aligned left leftSmall),
    pageMask_of_aligned (shape.aligned right rightSmall)] at same
  exact shape.distinct left leftSmall right rightSmall same

/-- A machine with an empty translation buffer. -/
def Machine.idle (core : CoreState) : Machine where
  core := core
  tlb := fun slot => { ehi := tlbhiInvalid slot, elo := 0 }
  nextVictim := 0
  curspl := .none
  stats := fun _ => 0
  swapPartition := fun _ => false

/-- A program with one page of code and one page of data before its first fault. -/
def smallProgram : AddrSpace where
  seg1 :=
    { vbase := 0x400000, npages := 1, flag := pfR ||| pfX, offset := 0, filesz := 16
      pt := some (PageTable.create 1) }
  seg2 :=
    { vbase := 0x10000000, npages := 1, flag := pfR ||| pfW, offset := 16, filesz := 0
      pt := some (PageTable.create 1) }
  vn := 0
  pt3 := some (PageTable.create stackPages)

/-- A file system that answers every read with zeros. -/
def zeroFiles : Files where
  read := fun _ _ length => { result := 0, data := List.replicate length 0 }
  write := fun _ _ _ => 0
  swapfile := 1
  strayOffset := 0

/-- A code page and a stack page take the first two slots. -/
theorem tlb_wellFormed_smallProgram :
    ∃ last, Run TlbStep (Machine.idle (booted eightFrames fun _ => 0))
        [.activate, .fault .read 0x400004, .fault .write 0x7fffff00] last ∧
      (last.tlb 0).ehi = 0x400000 ∧ (last.tlb 1).ehi = 0x7ffff000 ∧
      (∃ count, ∀ slot < numTlb, (last.tlb slot).Valid ↔ slot < count) ∧
      ∀ left < numTlb, ∀ right < numTlb, (last.tlb left).Valid → (last.tlb right).Valid →
        pageMask (last.tlb left).ehi = pageMask (last.tlb right).ehi → left = right := by
  have code : vmFault zeroFiles .read 0x400004 (some smallProgram)
    (asActivate none (idle (booted eightFrames fun _ => 0))) = .ok (0, _, _) := rfl
  have reached : Run TlbStep (idle (booted eightFrames fun _ => 0))
      [.activate, .fault .read 0x400004, .fault .write 0x7fffff00] _ :=
    .cons (.activate none _) (.cons (.fault code) (.cons (.fault
      (show vmFault zeroFiles .write 0x7fffff00 (some smallProgram) _ = .ok (0, _, _) from rfl))
      (.nil _)))
  exact ⟨_, reached, rfl, rfl, tlb_wellFormed (fun slot _ => invalid_slot slot) (by decide) reached⟩

end Os161.Vm
