import Mathlib.Logic.Function.Basic
import Os161.Base
import Os161.Lib.Transition

namespace Os161.Threads
open Outcome Transition Function List

/-- `struct tlbshootdown` -/
structure Tlbshootdown where
  addrspace : Nat
  vaddr : Vaddr
deriving DecidableEq

abbrev tlbshootdownMax : Nat := 16

abbrev tlbshootdownAll : Int := -1

abbrev ipiPanic : Nat := 0
abbrev ipiOffline : Nat := 1
abbrev ipiTlbshootdown : Nat := 3

/-- The fields of a processor that its IPI lock protects -/
structure IpiBox where
  ipiPending : BitVec 32
  shootdown : Fin tlbshootdownMax → Tlbshootdown
  numshootdown : Int

/-- What the handler does with the TLB -/
inductive Shot where
  | one (mapping : Tlbshootdown)
  | all
deriving DecidableEq

/-- The handler returns, or the processor halts in it. -/
inductive Handled where
  | halted
  | returned (shots : List Shot) (box : IpiBox)

namespace IpiBox

variable (c : IpiBox)

/-- `cpu_create` leaves the array as it is. -/
def create (shootdown : Fin tlbshootdownMax → Tlbshootdown) : IpiBox := ⟨0, shootdown, 0⟩

/-- A read of `c_shootdown` -/
def load (i : Int) : Kernel Tlbshootdown :=
  if inside : 0 ≤ i ∧ i < tlbshootdownMax then .ok (c.shootdown ⟨i.toNat, by omega⟩) else .error (.badIndex i)

/-- A write to `c_shootdown` -/
def store (i : Int) (mapping : Tlbshootdown) : Kernel IpiBox :=
  if inside : 0 ≤ i ∧ i < tlbshootdownMax then
    .ok { c with shootdown := update c.shootdown ⟨i.toNat, by omega⟩ mapping }
  else .error (.badIndex i)

def raise (code : Nat) : IpiBox := { c with ipiPending := c.ipiPending ||| BitVec.twoPow 32 code }

def isPending (code : Nat) : Bool := c.ipiPending.getLsbD code

/-- `ipi_send` -/
def send (code : Int) : Kernel IpiBox := do
  kassert (0 ≤ code ∧ code < 32) "code >= 0 && code < 32"
  return c.raise code.toNat

/-- `ipi_tlbshootdown` -/
def tlbshootdown (mapping : Tlbshootdown) : Kernel IpiBox := do
  let n := c.numshootdown
  if n = tlbshootdownMax then return ({ c with numshootdown := tlbshootdownAll }).raise ipiTlbshootdown
  else
    let c ← c.store n mapping
    return ({ c with numshootdown := n + 1 }).raise ipiTlbshootdown

/-- The loop of the handler -/
def shootFrom : (i : Int) → (left : Nat) → Kernel (List Shot)
  | _, 0 => .ok []
  | i, left + 1 => do
    let mapping ← c.load i
    let rest ← shootFrom (i + 1) left
    return .one mapping :: rest

def shoot : Kernel (List Shot) :=
  if c.isPending ipiTlbshootdown then
    if c.numshootdown = tlbshootdownAll then .ok [.all] else c.shootFrom 0 c.numshootdown.toNat
  else .ok []

def interprocessorInterrupt : Kernel Handled := do
  if c.isPending ipiPanic ∨ c.isPending ipiOffline then return .halted
  else
    let shots ← c.shoot
    let left := if c.isPending ipiTlbshootdown then 0 else c.numshootdown
    return .returned shots ⟨0, c.shootdown, left⟩

variable {c} {c' : IpiBox} {mapping : Tlbshootdown}

theorem raise_isPending (small : code < 32) (other : Nat) :
    (c.raise code).isPending other = (c.isPending other || decide (code = other)) := by
  rw [isPending, raise, BitVec.getLsbD_or]
  simp [small, isPending]

theorem send_ok (sent : c.send code = .ok c') : c' = c.raise code.toNat ∧ code.toNat < 32 := by
  obtain ⟨range, ran⟩ := kassert_bind.mp sent
  cases ran
  exact ⟨rfl, by omega⟩

theorem store_ok : c.store i mapping = .ok c' ↔ ∃ j : Fin tlbshootdownMax, i = j.val ∧
    c' = { c with shootdown := update c.shootdown j mapping } := by
  unfold store
  split_ifs with inside
  · rw [Except.ok.injEq]
    constructor
    · rintro rfl
      exact ⟨⟨i.toNat, by omega⟩, by simp; omega, rfl⟩
    · rintro ⟨j, rfl, rfl⟩
      rfl
  · refine iff_of_false nofun ?_
    rintro ⟨j, rfl, _⟩
    exact inside ⟨by omega, by omega⟩

theorem load_val (j : Fin tlbshootdownMax) : c.load j.val = .ok (c.shootdown j) := by
  unfold load
  rw [dif_pos ⟨by omega, by omega⟩]
  rfl

end IpiBox

/-- A processor with the mappings that have been requested since its handler last ran -/
structure Mail where
  box : IpiBox
  requested : List Tlbshootdown

/-- What other processors do, and the interrupt -/
inductive IpiEvent where
  | send (code : Int)
  | tlbshootdown (mapping : Tlbshootdown)
  | interrupt

namespace Mail

/-- A step that returns; a processor that halts takes no more interrupts. -/
inductive Step : Mail → IpiEvent → Mail → Prop where
  | send {m : Mail} {box : IpiBox} {code : Int} (sent : m.box.send code = .ok box) :
      Step m (.send code) ⟨box, m.requested⟩
  | tlbshootdown {m : Mail} {box : IpiBox} {mapping : Tlbshootdown}
      (posted : m.box.tlbshootdown mapping = .ok box) :
      Step m (.tlbshootdown mapping) ⟨box, m.requested ++ [mapping]⟩
  | interrupt {m : Mail} {box : IpiBox} {shots : List Shot}
      (handled : m.box.interprocessorInterrupt = .ok (.returned shots box)) : Step m .interrupt ⟨box, []⟩

/-- The array holds the requests, or their number stands for all mappings. -/
structure Inv (m : Mail) : Prop where
  count : m.requested.length ≤ tlbshootdownMax ∧ m.box.numshootdown = m.requested.length ∨
    m.requested.length = tlbshootdownMax + 1 ∧ m.box.numshootdown = tlbshootdownAll
  stored : m.requested.length ≤ tlbshootdownMax →
    ∀ (i : Nat) mapping, m.requested[i]? = some mapping → m.box.load i = .ok mapping
  pending : m.requested ≠ [] → m.box.isPending ipiTlbshootdown

/-- Every requested mapping is shot down, unless the processor was told to stop. -/
def Covers (m : Mail) : Handled → Prop
  | .halted => m.box.isPending ipiPanic ∨ m.box.isPending ipiOffline
  | .returned shots _ => ∀ mapping ∈ m.requested, .all ∈ shots ∨ .one mapping ∈ shots

variable {m m' : Mail} {event : IpiEvent}

theorem inv_create (shootdown : Fin tlbshootdownMax → Tlbshootdown) : Inv ⟨.create shootdown, []⟩ where
  count := .inl ⟨Nat.zero_le _, rfl⟩
  stored := by
    intro _ i mapping found
    cases found
  pending := nofun

theorem Inv.send {box : IpiBox} {code : Int} (inv : m.Inv) (sent : m.box.send code = .ok box) :
    Inv ⟨box, m.requested⟩ := by
  obtain ⟨rfl, small⟩ := IpiBox.send_ok sent
  refine ⟨inv.count, inv.stored, ?_⟩
  intro some
  rw [IpiBox.raise_isPending small, inv.pending some, Bool.true_or]

theorem raised_isPending (box : IpiBox) : (box.raise ipiTlbshootdown).isPending ipiTlbshootdown = true := by
  rw [IpiBox.raise_isPending (by decide)]
  simp

theorem Inv.tlbshootdown (inv : m.Inv) (mapping : Tlbshootdown) :
    (m.requested.length ≤ tlbshootdownMax ∧
      ∃ box, m.box.tlbshootdown mapping = .ok box ∧ Inv ⟨box, m.requested ++ [mapping]⟩) ∨
    m.requested.length = tlbshootdownMax + 1 ∧ m.box.tlbshootdown mapping = .error (.badIndex (-1)) := by
  have longer : (m.requested ++ [mapping]).length = m.requested.length + 1 := by simp
  unfold IpiBox.tlbshootdown
  rcases inv.count with ⟨small, number⟩ | ⟨full, number⟩
  · refine .inl ⟨small, ?_⟩
    rw [number]
    by_cases last : m.requested.length = tlbshootdownMax
    · rw [if_pos (by omega)]
      refine ⟨_, rfl, .inr ⟨?_, rfl⟩, ?_, fun _ => raised_isPending _⟩
      · rw [longer, last]
      · intro many
        change (m.requested ++ [mapping]).length ≤ tlbshootdownMax at many
        omega
    · let j : Fin tlbshootdownMax := ⟨m.requested.length, by omega⟩
      have stored : m.box.store j.val mapping = .ok _ := IpiBox.store_ok.mpr ⟨j, rfl, rfl⟩
      rw [if_neg (by omega), show m.box.store m.requested.length mapping = _ from stored]
      refine ⟨_, rfl, .inl ⟨?_, ?_⟩, ?_, fun _ => raised_isPending _⟩
      · change (m.requested ++ [mapping]).length ≤ tlbshootdownMax
        omega
      · exact (congrArg Int.ofNat longer).symm
      · intro _ i other found
        have inside : i < (m.requested ++ [mapping]).length := (List.getElem?_eq_some_iff.mp found).1
        let k : Fin tlbshootdownMax := ⟨i, by omega⟩
        refine (IpiBox.load_val k).trans (congrArg Except.ok ?_)
        by_cases new : k = j
        · have here : i = m.requested.length := congrArg Fin.val new
          rw [here, List.getElem?_concat_length] at found
          cases found
          exact new ▸ update_self ..
        · have low : i < m.requested.length := by
            have differs : i ≠ m.requested.length := fun same => new (Fin.ext same)
            omega
          rw [List.getElem?_append_left low] at found
          have prev := (IpiBox.load_val k).symm.trans (inv.stored small i other found)
          exact (update_of_ne new ..).trans (Except.ok.inj prev)
  · refine .inr ⟨full, ?_⟩
    rw [number]
    rfl

theorem Inv.shootFrom (inv : m.Inv) (small : m.requested.length ≤ tlbshootdownMax)
    (split : m.requested = front ++ back) : m.box.shootFrom front.length back.length = .ok (back.map .one) := by
  induction back generalizing front with
  | nil => rfl
  | cons mapping rest ih =>
    have found : m.requested[front.length]? = some mapping := by simp [split]
    have next := ih (show m.requested = (front ++ [mapping]) ++ rest by simp [split])
    rw [length_append] at next
    rw [length_cons, IpiBox.shootFrom, inv.stored small _ _ found]
    rw [show ((front.length : Int) + 1) = ((front.length + [mapping].length : Nat) : Int) from rfl, next]
    rfl

theorem Inv.shoot (inv : m.Inv) :
    ∃ shots, m.box.shoot = .ok shots ∧ ∀ mapping ∈ m.requested, .all ∈ shots ∨ .one mapping ∈ shots := by
  unfold IpiBox.shoot
  split_ifs with pending all
  · exact ⟨_, rfl, fun _ _ => .inl mem_cons_self⟩
  · rcases inv.count with ⟨small, number⟩ | ⟨_, number⟩
    · rw [number]
      refine ⟨_, inv.shootFrom small (nil_append _).symm, fun mapping mem => .inr ?_⟩
      exact mem_map_of_mem mem
    · exact absurd number all
  · have none : m.requested = [] := by
      by_contra some
      exact pending (inv.pending some)
    refine ⟨_, rfl, ?_⟩
    rw [none]
    exact nofun

theorem Inv.interrupt (inv : m.Inv) :
    ∃ handled, m.box.interprocessorInterrupt = .ok handled ∧ m.Covers handled := by
  unfold IpiBox.interprocessorInterrupt
  by_cases stop : m.box.isPending ipiPanic ∨ m.box.isPending ipiOffline
  · rw [if_pos stop]
    exact ⟨_, rfl, stop⟩
  · rw [if_neg stop]
    obtain ⟨shots, shot, covers⟩ := inv.shoot
    rw [shot]
    exact ⟨_, rfl, covers⟩

theorem Inv.interrupted {box : IpiBox} {shots : List Shot} (inv : m.Inv)
    (handled : m.box.interprocessorInterrupt = .ok (.returned shots box)) : Inv ⟨box, []⟩ := by
  have number : box.numshootdown = 0 := by
    unfold IpiBox.interprocessorInterrupt at handled
    split_ifs at handled with _ pending
    · cases handled
    · obtain ⟨_, _, ran⟩ := bind_ok.mp handled
      cases ran
      rfl
    · obtain ⟨_, _, ran⟩ := bind_ok.mp handled
      cases ran
      have none : m.requested = [] := by
        by_contra some
        exact pending (inv.pending some)
      rcases inv.count with ⟨_, number⟩ | ⟨full, _⟩
      · rw [number, none]
        rfl
      · rw [none] at full
        cases full
  refine ⟨.inl ⟨Nat.zero_le _, number⟩, ?_, nofun⟩
  intro _ i mapping found
  cases found

theorem Inv.step (inv : m.Inv) (step : Step m event m') : m'.Inv := by
  cases step with
  | send sent => exact inv.send sent
  | @tlbshootdown box mapping posted =>
    rcases inv.tlbshootdown mapping with ⟨_, box', stored, inv'⟩ | ⟨_, failed⟩
    · cases posted.symm.trans stored
      exact inv'
    · cases posted.symm.trans failed
  | interrupt handled => exact inv.interrupted handled

/-- The handler covers all requests, and indices are right up to 16 of them. -/
theorem shootdowns_kept {shootdown : Fin tlbshootdownMax → Tlbshootdown} {events : List IpiEvent}
    (reached : Run Step ⟨.create shootdown, []⟩ events m) :
    (∃ handled, m.box.interprocessorInterrupt = .ok handled ∧ m.Covers handled) ∧
      ∀ mapping, (∃ box, m.box.tlbshootdown mapping = .ok box) ↔ m.requested.length ≤ tlbshootdownMax := by
  have inv : m.Inv := reached.invariant (fun _ _ _ inv step => Inv.step inv step) (inv_create shootdown)
  refine ⟨inv.interrupt, fun mapping => ?_⟩
  rcases inv.tlbshootdown mapping with ⟨small, box, posted, _⟩ | ⟨full, failed⟩
  · exact iff_of_true ⟨box, posted⟩ small
  · rw [failed, full]
    exact iff_of_false nofun (by decide)

/-- A processor with this many requests for one mapping -/
def postedTimes : Nat → Kernel IpiBox
  | 0 => .ok (.create fun _ => ⟨0, 0⟩)
  | times + 1 => do
    let box ← postedTimes times
    box.tlbshootdown ⟨1, 0x400000⟩

/-- Requests on both sides of an interrupt, with another signal between them -/
theorem shootdowns_kept_three : ∃ m : Mail,
    Run Step ⟨.create fun _ => ⟨0, 0⟩, []⟩ [.tlbshootdown ⟨1, 0x400000⟩, .interrupt, .tlbshootdown ⟨1, 0x401000⟩,
      .send 2, .tlbshootdown ⟨2, 0x400000⟩, .tlbshootdown ⟨1, 0x402000⟩] m ∧
    m.requested = [⟨1, 0x401000⟩, ⟨2, 0x400000⟩, ⟨1, 0x402000⟩] ∧
    (∃ handled, m.box.interprocessorInterrupt = .ok handled ∧ m.Covers handled) ∧
    ∀ mapping, ∃ box, m.box.tlbshootdown mapping = .ok box := by
  have run : Run Step ⟨.create fun _ => ⟨0, 0⟩, []⟩ [.tlbshootdown ⟨1, 0x400000⟩, .interrupt,
      .tlbshootdown ⟨1, 0x401000⟩, .send 2, .tlbshootdown ⟨2, 0x400000⟩, .tlbshootdown ⟨1, 0x402000⟩] _ :=
    .cons (.tlbshootdown rfl) (.cons (.interrupt rfl) (.cons (.tlbshootdown rfl) (.cons (.send rfl)
      (.cons (.tlbshootdown rfl) (.single (.tlbshootdown rfl))))))
  obtain ⟨covered, inside⟩ := shootdowns_kept run
  exact ⟨_, run, rfl, covered, fun mapping => (inside mapping).mpr (by decide)⟩

/-- The eighteenth request is written in front of the array. -/
theorem eighteenth_request_out_of_bounds :
    (∃ box, postedTimes 17 = .ok box) ∧ postedTimes 18 = .error (.badIndex (-1)) :=
  ⟨⟨_, rfl⟩, rfl⟩

end Mail

end Os161.Threads
