import Os161.Base
import Os161.Lib.Ring
import Os161.Lib.Transition

namespace Os161.Klib
open Outcome Function Transition Ring

variable {A : Type}

/-- `struct queue`, with the number of pointers that its block has room for -/
structure Queue (A : Type) where
  size : Nat
  room : Nat
  nextwrite : Nat
  nextread : Nat
  data : Nat → A

namespace Queue

/-- A queue in a new block, with what was in memory before -/
def fresh (size : Nat) (before : Nat → A) : Queue A := ⟨size, size * 4 % 2 ^ 32 / 4, 0, 0, before⟩

def qCreate (memory : Bool) (block : Option (Nat → A)) (size : Nat) : Option (Queue A) :=
  if memory then block.map (fresh size) else none

def load (q : Queue A) (index : Nat) : Kernel A :=
  if index < q.room then .ok (q.data index) else .error (.badIndex index)

def write (q : Queue A) (ptr : A) : Kernel (Errno × Queue A) :=
  if q.nextwrite < q.room then
    .ok (0, { q with data := update q.data q.nextwrite ptr, nextwrite := (q.nextwrite + 1) % q.size })
  else .error (.badIndex q.nextwrite)

/-- `q_addtail` with this function for `q_grow` -/
def addtailWith (grow : Queue A → ℤ → Kernel (Errno × Queue A)) (q : Queue A) (ptr : A) :
    Kernel (Errno × Queue A) := do
  kassert (0 < q.size) "q->size > 0"
  if (q.nextwrite + 1) % q.size = q.nextread then
    let (result, q) ← grow q ((q.size + 1 : ℤ).bmod (2 ^ 32))
    if result ≠ 0 then return (result, q)
    q.write ptr
  else q.write ptr

/-- The loop that doubles `nsize`. From 2^31 on an `int` is negative. -/
def growLoop (target : ℤ) : (fuel nsize : Nat) → Kernel Nat
  | 0, _ => .error .endless
  | fuel + 1, nsize =>
    if nsize < target then do
      kassert (2 * nsize < 2 ^ 31) "nsize > 0"
      growLoop target fuel (2 * nsize)
    else .ok nsize

/-- The loop of `q_grow` over the old data -/
def refill (addtail : Queue A → A → Kernel (Errno × Queue A)) (old : Queue A) :
    (fuel i : Nat) → Queue A → Kernel (Queue A)
  | 0, _, _ => .error .endless
  | fuel + 1, i, q =>
    if i = old.nextwrite then .ok q
    else do
      let (result, q) ← addtail q (← old.load i)
      kassert (result = 0) "result==0"
      refill addtail old fuel ((i + 1) % old.size) q

/-- `q_grow` with this function for `q_addtail` -/
def growWith (addtail : Queue A → A → Kernel (Errno × Queue A)) (block : Option (Nat → A)) (q : Queue A)
    (target : ℤ) : Kernel (Errno × Queue A) := do
  let nsize ← growLoop target 32 q.size
  match block with
  | none => return (eNoMem, q)
  | some before => return (0, ← refill addtail q q.size q.nextread (fresh nsize before))

/-- `q_grow` as long as it does not lead to another growth -/
def qGrow : Option (Nat → A) → Queue A → ℤ → Kernel (Errno × Queue A) :=
  growWith (addtailWith fun _ _ => .error .endless)

def qAddtail (block : Option (Nat → A)) : Queue A → A → Kernel (Errno × Queue A) := addtailWith (qGrow block)

def qPreallocate (block : Option (Nat → A)) (q : Queue A) (size : ℤ) : Kernel (Errno × Queue A) := do
  kassert (0 < q.size) "q->size > 0"
  if q.size < size then q.qGrow block size else return (0, q)

def qRemhead (q : Queue A) : Kernel (A × Queue A) := do
  kassert (0 < q.size) "q->size > 0"
  kassert (q.nextwrite ≠ q.nextread) "!q_empty(q)"
  return (← q.load q.nextread, { q with nextread := (q.nextread + 1) % q.size })

def qPeek (q : Queue A) : Kernel (Option A) := do
  kassert (0 < q.size) "q->size > 0"
  if q.nextwrite = q.nextread then return none else return some (← q.load q.nextread)

/-- The loop of `q_len` -/
def lenLoop (q : Queue A) : (fuel tmp count : Nat) → Kernel Nat
  | 0, _, _ => .error .endless
  | fuel + 1, tmp, count =>
    if tmp = q.nextwrite then .ok count else lenLoop q fuel ((tmp + 1) % q.size) (count + 1)

def qLen (q : Queue A) : Kernel Nat := lenLoop q q.size q.nextread 0

inductive Op (A : Type) where
  | addtail (ptr : A)
  | remhead
  | preallocate (size : ℤ)
  | peek
  | len

inductive Reply (A : Type) where
  | code (result : Errno)
  | pointer (ptr : Option A)
  | count (len : Nat)

def perform (block : Option (Nat → A)) (q : Queue A) : Op A → Kernel (Reply A × Queue A)
  | .addtail ptr => do
    let (result, q) ← q.qAddtail block ptr
    return (.code result, q)
  | .remhead => do
    let (ptr, q) ← q.qRemhead
    return (.pointer (some ptr), q)
  | .preallocate size => do
    let (result, q) ← q.qPreallocate block size
    return (.code result, q)
  | .peek => do return (.pointer (← q.qPeek), q)
  | .len => do return (.count (← q.qLen), q)

/-- No call asks for more than 2^29 pointers, and only a queue with something in it loses its head. -/
def Fits (q : Queue A) : Op A → Prop
  | .addtail _ => (q.nextwrite + 1) % q.size = q.nextread → q.size < 2 ^ 29
  | .remhead => q.nextwrite ≠ q.nextread
  | .preallocate size => size ≤ 2 ^ 29
  | _ => True

/-- What the calls do to a list and to the number of pointers that there is room for -/
inductive Fifo : List A × Nat → Option (Nat → A) × Op A × Reply A → List A × Nat → Prop
  | added {ptr : A} (roomy : l.length + 1 < cap) :
    Fifo (l, cap) (block, .addtail ptr, .code 0) (l ++ [ptr], cap)
  | grown {ptr : A} {prev : Nat → A} (full : l.length + 1 = cap) (more : cap < cap') :
    Fifo (l, cap) (some prev, .addtail ptr, .code 0) (l ++ [ptr], cap')
  | notAdded {ptr : A} (full : l.length + 1 = cap) : Fifo (l, cap) (none, .addtail ptr, .code eNoMem) (l, cap)
  | removed {ptr : A} : Fifo (ptr :: l, cap) (block, .remhead, .pointer (some ptr)) (l, cap)
  | roomy {cap : Nat} {wanted : ℤ} (enough : wanted ≤ cap) :
      Fifo (l, cap) (block, .preallocate wanted, .code 0) (l, cap)
  | extended {cap cap' : Nat} {wanted : ℤ} {prev : Nat → A} (less : cap < wanted) (enough : wanted ≤ cap') :
    Fifo (l, cap) (some prev, .preallocate wanted, .code 0) (l, cap')
  | notExtended {cap : Nat} {wanted : ℤ} (less : cap < wanted) :
    Fifo (l, cap) (none, .preallocate wanted, .code eNoMem) (l, cap)
  | peeked : Fifo (l, cap) (block, .peek, .pointer l.head?) (l, cap)
  | counted : Fifo (l, cap) (block, .len, .count l.length) (l, cap)

/-- The queue has room for its size and holds the list. -/
structure Contains (q : Queue A) (l : List A) : Prop where
  ring : Holds q.size q.data q.nextread q.nextwrite l
  room : q.room = q.size
  small : q.size < 2 ^ 30

variable {q : Queue A} {l : List A} {size nsize : Nat} {target : ℤ}

theorem Contains.fresh (prev : Nat → A) (pos : 0 < size) (small : size < 2 ^ 30) :
    (Queue.fresh size prev).Contains [] :=
  ⟨.init _ pos, show size * 4 % 2 ^ 32 / 4 = size by omega, small⟩

theorem growLoop_ok (small : nsize < 2 ^ 30) (bounded : target ≤ 2 ^ 29) (long : 2 ^ 29 ≤ nsize * 2 ^ fuel) :
    ∃ n, growLoop target (fuel + 1) nsize = .ok n ∧ nsize ≤ n ∧ target ≤ n ∧ n < 2 ^ 30 := by
  induction fuel generalizing nsize with
  | zero => exact ⟨nsize, if_neg (by omega), Nat.le_refl _, by omega, small⟩
  | succ fuel ih =>
    rw [growLoop]
    by_cases less : nsize < target
    · have twice : nsize * 2 ^ (fuel + 1) = 2 * nsize * 2 ^ fuel := by ring
      obtain ⟨n, looped, more, enough, bound⟩ := ih (by omega) (twice ▸ long)
      rw [if_pos less, kassert_ok.mpr (by omega)]
      exact ⟨n, looped, by omega, enough, bound⟩
    · exact ⟨nsize, if_neg less, Nat.le_refl _, by omega, small⟩

section

variable (contains : q.Contains l)
include contains

theorem Contains.positive : 0 < q.size := Nat.zero_lt_of_lt contains.ring.inside

theorem Contains.write (roomy : l.length + 1 < q.size) (ptr : A) :
    ∃ q', q.write ptr = .ok (0, q') ∧ q'.Contains (l ++ [ptr]) ∧ q'.size = q.size := by
  have inside := contains.ring.next_lt
  refine ⟨_, if_pos (by rwa [contains.room]), ⟨contains.ring.push roomy ptr, contains.room, contains.small⟩, rfl⟩

theorem Contains.addtail (grow : Queue A → ℤ → Kernel (Errno × Queue A)) (roomy : l.length + 1 < q.size) (ptr : A) :
    ∃ q', addtailWith grow q ptr = .ok (0, q') ∧ q'.Contains (l ++ [ptr]) ∧ q'.size = q.size := by
  have free : (q.nextwrite + 1) % q.size ≠ q.nextread := fun full => by
    have := contains.ring.full_iff.mp full
    omega
  rw [addtailWith, kassert_ok.mpr contains.positive, if_neg free]
  exact contains.write roomy ptr

omit contains

theorem refill_ok {old : Queue A} (grow : Queue A → ℤ → Kernel (Errno × Queue A)) (room : old.room = old.size)
    {done rest : List A} (ring : Holds old.size old.data i old.nextwrite rest) (contains : q.Contains done)
    (fits : done.length + rest.length < q.size) (long : rest.length < fuel) :
    ∃ q', refill (addtailWith grow) old fuel i q = .ok q' ∧ q'.Contains (done ++ rest) ∧ q'.size = q.size := by
  induction rest generalizing i q done fuel with
  | nil =>
    obtain ⟨fuel, rfl⟩ := Nat.exists_eq_add_of_lt long
    rw [List.append_nil]
    exact ⟨q, if_pos (ring.next_eq_first.mpr rfl).symm, contains, rfl⟩
  | cons ptr rest ih =>
    obtain ⟨fuel, rfl⟩ := Nat.exists_eq_add_of_lt (Nat.zero_lt_of_lt long)
    rw [List.length_cons] at fits long
    obtain ⟨here, ring'⟩ := ring.pop
    have busy : i ≠ old.nextwrite := fun same => nomatch ring.next_eq_first.mp same.symm
    have loaded : old.load i = .ok ptr := by rw [load, if_pos (by rw [room]; exact ring.inside), here]
    obtain ⟨q', added, contains', size⟩ := contains.addtail grow (by omega) ptr
    obtain ⟨last, filled, final, same⟩ := ih ring' contains' (by simp; omega) (show rest.length < 0 + fuel by omega)
    rw [refill, if_neg busy, loaded, ok_bind, added]
    dsimp only
    exact ⟨last, filled, by rwa [List.append_assoc] at final, same.trans size⟩

theorem lenLoop_ok {rest : List A} (ring : Holds q.size q.data tmp q.nextwrite rest) (long : rest.length < fuel) :
    lenLoop q fuel tmp count = .ok (count + rest.length) := by
  induction rest generalizing tmp fuel count with
  | nil =>
    obtain ⟨fuel, rfl⟩ := Nat.exists_eq_add_of_lt long
    exact if_pos (ring.next_eq_first.mpr rfl).symm
  | cons ptr rest ih =>
    obtain ⟨fuel, rfl⟩ := Nat.exists_eq_add_of_lt (Nat.zero_lt_of_lt long)
    rw [List.length_cons] at long
    have busy : tmp ≠ q.nextwrite := fun same => nomatch ring.next_eq_first.mp same.symm
    rw [lenLoop, if_neg busy, ih ring.pop.2 (show rest.length < 0 + fuel by omega), List.length_cons,
      Nat.add_right_comm, Nat.add_assoc]

include contains

theorem Contains.grow (block : Option (Nat → A)) (bounded : target ≤ 2 ^ 29) :
    block = none ∧ q.qGrow block target = .ok (eNoMem, q) ∨
      ∃ prev q', block = some prev ∧ q.qGrow block target = .ok (0, q') ∧ q'.Contains l ∧ target ≤ q'.size := by
  have short := contains.ring.short
  obtain ⟨n, looped, more, enough, small⟩ :=
    growLoop_ok contains.small bounded (show 2 ^ 29 ≤ q.size * 2 ^ 31 by omega)
  rw [qGrow, growWith, looped, ok_bind]
  cases block with
  | none => exact .inl ⟨rfl, rfl⟩
  | some prev =>
    obtain ⟨q', filled, contains', size⟩ := refill_ok (fun _ _ => .error .endless) contains.room contains.ring
      (.fresh prev (by omega) small) (show 0 + l.length < n by omega) short
    refine .inr ⟨prev, q', rfl, ?_, contains', size ▸ enough⟩
    dsimp only
    rw [filled, ok_bind, pure_ok]

theorem Contains.load (more : l = ptr :: rest) : q.load q.nextread = .ok ptr := by
  subst more
  rw [Queue.load, if_pos (by rw [contains.room]; exact contains.ring.inside), contains.ring.pop.1]

theorem Contains.addtail_call (block : Option (Nat → A)) {ptr : A} (fits : q.Fits (.addtail ptr)) :
    ∃ result q' l', q.qAddtail block ptr = .ok (result, q') ∧ q'.Contains l' ∧
      Fifo (l, q.size) (block, .addtail ptr, .code result) (l', q'.size) := by
  have short := contains.ring.short
  by_cases full : (q.nextwrite + 1) % q.size = q.nextread
  · have small := fits full
    have target : (q.size + 1 : ℤ).bmod (2 ^ 32) = q.size + 1 := Int.bmod_eq_of_le (by omega) (by omega)
    have all := contains.ring.full_iff.mp full
    rw [qAddtail, addtailWith, kassert_ok.mpr contains.positive, if_pos full, target]
    rcases contains.grow block (show (q.size + 1 : ℤ) ≤ 2 ^ 29 by omega) with
      ⟨rfl, failed⟩ | ⟨prev, q', rfl, grown, contains', enough⟩
    · rw [failed]
      exact ⟨_, _, _, rfl, contains, .notAdded all⟩
    · obtain ⟨last, written, final, size⟩ := contains'.write (by omega) ptr
      rw [grown]
      exact ⟨_, _, _, written, final, .grown all (by omega)⟩
  · have less : l.length + 1 ≠ q.size := fun all => full (contains.ring.full_iff.mpr all)
    obtain ⟨q', added, contains', size⟩ := contains.addtail (qGrow block) (by omega) ptr
    refine ⟨_, q', _, added, contains', ?_⟩
    rw [size]
    exact .added (by omega)

theorem Contains.perform (block : Option (Nat → A)) {op : Op A} (fits : q.Fits op) :
    ∃ reply q' l', q.perform block op = .ok (reply, q') ∧ q'.Contains l' ∧
      Fifo (l, q.size) (block, op, reply) (l', q'.size) := by
  have pos : kassert (0 < q.size) "q->size > 0" = .ok () := kassert_ok.mpr contains.positive
  cases op with
  | addtail ptr =>
    obtain ⟨_, _, _, added, contains', effect⟩ := contains.addtail_call block fits
    rw [Queue.perform, added]
    exact ⟨_, _, _, rfl, contains', effect⟩
  | remhead =>
    have busy : q.nextwrite ≠ q.nextread := fits
    cases l with
    | nil => exact absurd (contains.ring.next_eq_first.mpr rfl) busy
    | cons ptr rest =>
      simp only [Queue.perform, qRemhead, pos, kassert_ok.mpr busy, contains.load rfl]
      exact ⟨_, _, _, rfl, ⟨contains.ring.pop.2, contains.room, contains.small⟩, .removed⟩
  | preallocate size =>
    simp only [Queue.perform, qPreallocate, pos]
    by_cases less : q.size < size
    · rw [if_pos less]
      rcases contains.grow block fits with ⟨rfl, failed⟩ | ⟨prev, q', rfl, grown, contains', enough⟩
      · rw [failed]
        exact ⟨_, _, _, rfl, contains, .notExtended less⟩
      · rw [grown]
        exact ⟨_, _, _, rfl, contains', .extended less enough⟩
    · rw [if_neg less]
      exact ⟨_, _, _, rfl, contains, .roomy (Int.not_lt.mp less)⟩
  | peek =>
    have peeked : q.qPeek = .ok l.head? := by
      rw [qPeek, pos, ok_bind]
      cases l with
      | nil => rw [if_pos (contains.ring.next_eq_first.mpr rfl), List.head?_nil, pure_ok]
      | cons ptr rest =>
        rw [if_neg (fun same => nomatch contains.ring.next_eq_first.mp same), contains.load rfl, ok_bind]
        rfl
    rw [Queue.perform, peeked]
    exact ⟨_, _, _, rfl, contains, .peeked⟩
  | len =>
    rw [Queue.perform, qLen, lenLoop_ok contains.ring contains.ring.short, Nat.zero_add]
    exact ⟨_, _, _, rfl, contains, .counted⟩

end

/-- One call that fits, with or without memory -/
def Step (q : Queue A) (call : Option (Nat → A) × Op A × Reply A) (q' : Queue A) : Prop :=
  q.Fits call.2.1 ∧ q.perform call.1 call.2.1 = .ok (call.2.2, q')

/-- Calls that fit have the replies of a list that memory lets grow. -/
theorem queue_is_fifo {memory : Bool} {block : Option (Nat → A)} {first : Queue A}
    {calls : List (Option (Nat → A) × Op A × Reply A)} (positive : 1 ≤ size) (small : size < 2 ^ 30)
    (created : qCreate memory block size = some first) (run : Run Step first calls q) :
    ∃ l, Run Fifo ([], size) calls (l, q.size) ∧ (l = [] ↔ q.nextwrite = q.nextread) ∧
      ∀ block op, q.Fits op → ∃ reply q', q.perform block op = .ok (reply, q') := by
  unfold qCreate at created
  split at created
  · obtain ⟨before, _, rfl⟩ := Option.map_eq_some_iff.mp created
    obtain ⟨⟨l, _⟩, fifo, contains, rfl⟩ := run.simulate Fifo (fun q state => q.Contains state.1 ∧ q.size = state.2)
      id (by
        rintro q ⟨l, _⟩ ⟨block, op, reply⟩ next ⟨contains, rfl⟩ ⟨fits, ran⟩
        obtain ⟨_, _, l', performed, contains', effect⟩ := contains.perform block fits
        cases performed.symm.trans ran
        exact ⟨(l', next.size), effect, contains', rfl⟩) ([], size) ⟨.fresh before positive small, rfl⟩
    rw [List.map_id] at fifo
    refine ⟨l, fifo, contains.ring.next_eq_first.symm, fun block op fits => ?_⟩
    obtain ⟨reply, q', _, performed, _⟩ := contains.perform block fits
    exact ⟨reply, q', performed⟩
  · cases created

/-- An addition fails without memory, and the queue grows while its contents wrap around. -/
def wrappingCalls : List (Option (Nat → Nat) × Op Nat × Reply Nat) :=
  [(none, .addtail 7, .code 0), (none, .addtail 8, .code 0), (none, .addtail 9, .code eNoMem),
    (none, .remhead, .pointer (some 7)), (none, .addtail 9, .code 0), (some fun _ => 0, .addtail 10, .code 0),
    (none, .peek, .pointer (some 8)), (none, .len, .count 3), (none, .preallocate 7, .code eNoMem)]

theorem queue_is_fifo_wrapping : ∃ (q : Queue Nat) (l : List Nat),
    Run Step (Queue.fresh 3 fun _ => 0) wrappingCalls q ∧ Run Fifo ([], 3) wrappingCalls (l, 6) ∧
    (l = [] ↔ q.nextwrite = q.nextread) := by
  obtain ⟨q, run, six⟩ : ∃ q, Run Step (Queue.fresh 3 fun _ => 0) wrappingCalls q ∧ q.size = 6 :=
    ⟨_, .cons ⟨fun _ => by decide, rfl⟩ (.cons ⟨fun _ => by decide, rfl⟩ (.cons ⟨fun _ => by decide, rfl⟩
      (.cons ⟨show _ ≠ _ by decide, rfl⟩ (.cons ⟨fun _ => by decide, rfl⟩ (.cons ⟨fun _ => by decide, rfl⟩
      (.cons ⟨trivial, rfl⟩ (.cons ⟨trivial, rfl⟩ (.single ⟨show _ ≤ _ by decide, rfl⟩)))))))), rfl⟩
  obtain ⟨l, fifo, empty, _⟩ := queue_is_fifo (by decide) (by decide)
    (show qCreate true (some fun _ => 0) 3 = some _ from rfl) run
  exact ⟨q, l, run, six ▸ fifo, empty⟩

/-- `q_preallocate` for 2^30 + 1 pointers stops the kernel. -/
theorem preallocate_overflows : (Queue.fresh 1 fun _ => true).perform (some fun _ => true)
    (.preallocate (2 ^ 30 + 1)) = .error (.assertion "nsize > 0") := rfl

end Queue

end Os161.Klib
