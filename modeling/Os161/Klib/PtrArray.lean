import Os161.Base
import Os161.Lib.Transition

namespace Os161.Klib
open Outcome List Transition

variable {A : Type}

/-- A block of pointers from `kmalloc`, if there is memory: as many as the bytes have room for, with
what was in memory before -/
def kmallocPtrs (memory : Option (Nat → A)) (bytes : Nat) : Option (List A) :=
  memory.map fun before => (range (bytes / 4)).map before

/-- `v[index]` -/
def load (v : List A) (index : Nat) : Kernel A :=
  match v[index]? with
  | some ptr => .ok ptr
  | none => .error (.badIndex index)

/-- `v[index] = ptr` -/
def save (v : List A) (index : Nat) (ptr : A) : Kernel (List A) :=
  if index < v.length then .ok (v.set index ptr) else .error (.badIndex index)

/-- `memmove` or `memcpy` of pointers into a block -/
def movePtrs (dst : List A) (place : Nat) (src : List A) (start count : Nat) : Kernel (List A) :=
  if place + count ≤ dst.length ∧ start + count ≤ src.length then
    .ok (dst.take place ++ (src.drop start).take count ++ dst.drop (place + count))
  else .error (.badIndex count)

/-- `struct array` -/
structure PtrArray (A : Type) where
  v : List A
  num : Nat
  max : Nat

namespace PtrArray

/-- `array_init` -/
def init : PtrArray A := ⟨[], 0, 0⟩

def arrayNum (a : PtrArray A) : Nat := a.num

def arrayGet (a : PtrArray A) (index : Nat) : Kernel A := do
  kassert (index < a.num) "index < a->num"
  load a.v index

def arraySet (a : PtrArray A) (index : Nat) (val : A) : Kernel (PtrArray A) := do
  kassert (index < a.num) "index < a->num"
  return { a with v := ← save a.v index val }

/-- The loop of `array_setsize`. After 32 doublings it has been at zero. -/
def newmaxLoop (num : Nat) : (fuel newmax : Nat) → Kernel Nat
  | 0, _ => .error .endless
  | fuel + 1, newmax =>
    if newmax < num then newmaxLoop num fuel (if newmax ≠ 0 then newmax * 2 % 2 ^ 32 else 4) else .ok newmax

def arraySetsize (memory : Option (Nat → A)) (a : PtrArray A) (num : Nat) : Kernel (Errno × PtrArray A) :=
  if a.max < num then do
    let newmax ← newmaxLoop num 64 a.max
    match kmallocPtrs memory (newmax * 4 % 2 ^ 32) with
    | none => return (eNoMem, a)
    | some newptr => return (0, ⟨← movePtrs newptr 0 a.v 0 a.num, num, newmax⟩)
  else return (0, { a with num := num })

/-- `array_add` with what it stores in `index_ret` -/
def arrayAdd (memory : Option (Nat → A)) (a : PtrArray A) (val : A) : Kernel (Errno × Option Nat × PtrArray A) := do
  let index := a.num
  let (ret, a) ← arraySetsize memory a ((index + 1) % 2 ^ 32)
  if ret ≠ 0 then return (ret, none, a)
  return (0, some index, { a with v := ← save a.v index val })

def arrayRemove (a : PtrArray A) (index : Nat) : Kernel (PtrArray A) := do
  kassert (a.num ≤ a.max) "a->num <= a->max"
  kassert (index < a.num) "index < a->num"
  let numToMove := a.num - (index + 1)
  return { a with v := ← movePtrs a.v index a.v (index + 1) numToMove, num := a.num - 1 }

/-- The calls that change an array -/
inductive Op (A : Type) where
  | add (val : A)
  | set (index : Nat) (val : A)
  | remove (index : Nat)
  | setsize (num : Nat)

def perform (memory : Option (Nat → A)) (a : PtrArray A) : Op A → Kernel (Errno × PtrArray A)
  | .add val => do
    let (ret, _, a) ← a.arrayAdd memory val
    return (ret, a)
  | .set index val => do return (0, ← a.arraySet index val)
  | .remove index => do return (0, ← a.arrayRemove index)
  | .setsize num => a.arraySetsize memory num

/-- The indices are inside, and there are fewer than 2^29 elements. -/
def Allowed (a : PtrArray A) : Op A → Prop
  | .add _ => a.num + 1 < 2 ^ 29
  | .set index _ => index < a.num
  | .remove index => index < a.num
  | .setsize num => num < 2 ^ 29

/-- What the calls do to a list -/
inductive Effect : List A → Op A × Errno → List A → Prop
  | add (l : List A) (val : A) : Effect l (.add val, 0) (l ++ [val])
  | set (l : List A) (index : Nat) (val : A) : Effect l (.set index val, 0) (l.set index val)
  | remove (l : List A) (index : Nat) : Effect l (.remove index, 0) (l.eraseIdx index)
  | truncate {l : List A} {num : Nat} (less : num ≤ l.length) : Effect l (.setsize num, 0) (l.take num)
  | grow (l more : List A) : Effect l (.setsize (l.length + more.length), 0) (l ++ more)
  | addFails (l : List A) (val : A) : Effect l (.add val, eNoMem) l
  | growFails {l : List A} {num : Nat} (more : l.length < num) : Effect l (.setsize num, eNoMem) l

/-- The elements in use -/
def contents (a : PtrArray A) : List A := a.v.take a.num

structure Valid (a : PtrArray A) : Prop where
  block : a.v.length = a.max
  within : a.num ≤ a.max
  size : a.max = 0 ∨ ∃ k ≤ 29, a.max = 2 ^ k

variable {num : Nat}

theorem newmaxLoop_ok (few : num < 2 ^ 29) (small : k ≤ 29) (long : 30 ≤ fuel + k) :
    ∃ m ≤ 29, num ≤ 2 ^ m ∧ newmaxLoop num fuel (2 ^ k) = .ok (2 ^ m) := by
  induction fuel generalizing k with
  | zero => omega
  | succ fuel ih =>
    rw [newmaxLoop]
    by_cases short : 2 ^ k < num
    · have below : k < 29 := by
        by_contra
        obtain rfl : k = 29 := by omega
        omega
      have double : 2 ^ k * 2 % 2 ^ 32 = 2 ^ (k + 1) := by
        rw [← pow_succ]
        exact Nat.mod_eq_of_lt (Nat.pow_lt_pow_right (by decide) (by omega))
      rw [if_pos short, if_pos (by positivity), double]
      exact ih (by omega) (by omega)
    · exact ⟨k, small, by omega, if_neg short⟩

section

variable {a : PtrArray A} (valid : a.Valid)
include valid

theorem Valid.length_contents : a.contents.length = a.num := by
  have within := valid.within
  rw [contents, length_take, valid.block]
  omega

theorem Valid.newmax (few : num < 2 ^ 29) (more : a.max < num) :
    ∃ m ≤ 29, num ≤ 2 ^ m ∧ newmaxLoop num 64 a.max = .ok (2 ^ m) := by
  rcases valid.size with zero | ⟨k, small, power⟩
  · rw [zero, newmaxLoop, if_pos (by omega)]
    exact newmaxLoop_ok (k := 2) few (by decide) (by decide)
  · rw [power]
    exact newmaxLoop_ok few small (by omega)

theorem Valid.setsize (memory : Option (Nat → A)) (few : num < 2 ^ 29) :
    (∃ a', a.arraySetsize memory num = .ok (0, a') ∧ a'.Valid ∧ a'.num = num ∧
        a'.v.take (min a.num num) = a.contents.take num) ∨
      memory = none ∧ a.max < num ∧ a.arraySetsize memory num = .ok (eNoMem, a) := by
  have within := valid.within
  have block := valid.block
  unfold arraySetsize
  by_cases more : a.max < num
  · obtain ⟨m, small, room, looped⟩ := valid.newmax few more
    have bytes : 2 ^ m * 4 % 2 ^ 32 / 4 = 2 ^ m := by
      have bound : 2 ^ m ≤ 2 ^ 29 := Nat.pow_le_pow_right (by decide) small
      omega
    rw [if_pos more, looped, ok_bind]
    cases memory with
    | none => exact .inr ⟨rfl, more, rfl⟩
    | some prev =>
      simp only [kmallocPtrs, Option.map_some, movePtrs, length_map, length_range]
      rw [if_pos (by omega)]
      refine .inl ⟨_, rfl, ⟨?_, room, .inr ⟨m, small, rfl⟩⟩, rfl, ?_⟩
      · simp
        omega
      · simp only [contents, take_zero, nil_append, take_take]
        rw [take_append_of_le_length (by simp; omega), take_take]
        congr 1
        omega
  · rw [if_neg more]
    refine .inl ⟨_, rfl, ⟨block, Nat.le_of_not_lt more, valid.size⟩, rfl, ?_⟩
    rw [contents, take_take, Nat.min_comm]

theorem Valid.add (memory : Option (Nat → A)) (val : A) (few : a.num + 1 < 2 ^ 29) :
    ∃ code a', a.perform memory (.add val) = .ok (code, a') ∧ a'.Valid ∧
      Effect a.contents (.add val, code) a'.contents ∧ (memory ≠ none → code = 0) := by
  have next : (a.num + 1) % 2 ^ 32 = a.num + 1 := by omega
  simp only [perform, arrayAdd, next]
  rcases valid.setsize memory few with ⟨a', grown, valid', num, same⟩ | ⟨none, _, failed⟩
  · have inside : a.num < a'.v.length := by
      have within := valid'.within
      rw [valid'.block]
      omega
    have whole : a.contents.take (a.num + 1) = a.contents := take_of_length_le (by rw [valid.length_contents]; omega)
    rw [Nat.min_eq_left (Nat.le_succ _), whole] at same
    simp only [grown, ok_bind, save, if_pos inside]
    refine ⟨_, _, rfl, ⟨(length_set ..).trans valid'.block, valid'.within, valid'.size⟩, ?_, fun _ => rfl⟩
    have appended : (a'.v.set a.num val).take a'.num = a.contents ++ [val] := by
      rw [num, take_add_one, take_set, set_eq_of_length_le (length_take_le _ _), same,
        getElem?_set_self inside, Option.toList_some]
    show Effect _ _ ((a'.v.set a.num val).take a'.num)
    rw [appended]
    exact .add _ val
  · rw [failed]
    exact ⟨_, _, rfl, valid, .addFails _ val, fun some => absurd none some⟩

theorem Valid.remove {index : Nat} (inside : index < a.num) :
    ∃ a', a.arrayRemove index = .ok a' ∧ a'.Valid ∧ a'.contents = a.contents.eraseIdx index := by
  have within := valid.within
  have block := valid.block
  have moved : movePtrs a.v index a.v (index + 1) (a.num - (index + 1)) = .ok (a.v.take index ++
      (a.v.drop (index + 1)).take (a.num - (index + 1)) ++ a.v.drop (index + (a.num - (index + 1)))) :=
    if_pos (by omega)
  simp only [arrayRemove, within, inside, moved]
  refine ⟨_, rfl, ⟨?_, by dsimp only; omega, valid.size⟩, ?_⟩
  · simp
    omega
  · rw [eraseIdx_eq_take_drop_succ, contents, contents, take_take, drop_take, Nat.min_eq_left (by omega)]
    exact take_left' (by simp; omega)

theorem Valid.perform (memory : Option (Nat → A)) {op : Op A} (allowed : a.Allowed op) :
    ∃ code a', a.perform memory op = .ok (code, a') ∧ a'.Valid ∧ Effect a.contents (op, code) a'.contents ∧
      (memory ≠ none → code = 0) := by
  cases op with
  | add val => exact valid.add memory val allowed
  | set index val =>
    have inside : index < a.num := allowed
    have room : index < a.v.length := by
      have within := valid.within
      rw [valid.block]
      omega
    simp only [PtrArray.perform, arraySet, inside, save, room]
    refine ⟨_, _, rfl, ⟨(length_set ..).trans valid.block, valid.within, valid.size⟩, ?_, fun _ => rfl⟩
    show Effect _ _ ((a.v.set index val).take a.num)
    rw [take_set]
    exact .set _ index val
  | remove index =>
    obtain ⟨a', removed, valid', erased⟩ := valid.remove allowed
    simp only [PtrArray.perform, removed]
    refine ⟨_, _, rfl, valid', ?_, fun _ => rfl⟩
    rw [erased]
    exact .remove _ index
  | setsize num =>
    rcases valid.setsize memory allowed with ⟨a', set, valid', size, same⟩ | ⟨none, more, failed⟩
    · refine ⟨_, _, set, valid', ?_, fun _ => rfl⟩
      have len := valid.length_contents
      by_cases less : num ≤ a.num
      · rw [Nat.min_eq_right less, ← size] at same
        rw [show a'.contents = _ from same, size]
        exact .truncate (by omega)
      · have whole : a.contents.take num = a.contents := take_of_length_le (by omega)
        rw [Nat.min_eq_left (by omega), whole] at same
        have split : a'.contents = a.contents ++ (a'.v.drop a.num).take (num - a.num) := by
          rw [contents, size, ← same, ← take_add, Nat.add_sub_cancel' (by omega)]
        have total : num = a.contents.length + ((a'.v.drop a.num).take (num - a.num)).length := by
          rw [← length_append, ← split, valid'.length_contents, size]
        rw [split]
        nth_rewrite 1 [total]
        exact .grow _ _
    · have within := valid.within
      exact ⟨_, _, failed, valid, .growFails (by rw [valid.length_contents]; omega), fun some => absurd none some⟩

end

/-- One call with or without memory -/
def Step (a : PtrArray A) (call : Option (Nat → A) × Op A × Errno) (a' : PtrArray A) : Prop :=
  a.Allowed call.2.1 ∧ a.perform call.1 call.2.1 = .ok (call.2.2, a')

theorem Step.effect {a a' : PtrArray A} {call : Option (Nat → A) × Op A × Errno} (valid : a.Valid)
    (step : Step a call a') : a'.Valid ∧ Effect a.contents call.2 a'.contents := by
  obtain ⟨memory, op, code⟩ := call
  obtain ⟨allowed, did⟩ := step
  obtain ⟨_, _, ran, valid', effect, _⟩ := valid.perform memory allowed
  cases did.symm.trans ran
  exact ⟨valid', effect⟩

/-- Every sequence of calls does to the elements what it does to a list. -/
theorem array_refines_list {calls : List (Option (Nat → A) × Op A × Errno)} {a : PtrArray A}
    (run : Run Step init calls a) : ∃ l, Run Effect [] (calls.map Prod.snd) l ∧ a.arrayNum = l.length ∧
      (∀ index, (inside : index < l.length) → a.arrayGet index = .ok l[index]) ∧ a.num ≤ a.max ∧
      ∀ memory op, a.Allowed op → ∃ code a', a.perform memory op = .ok (code, a') ∧ (memory ≠ none → code = 0) := by
  have start : (init : PtrArray A).Valid ∧ init.contents = ([] : List A) :=
    ⟨⟨rfl, Nat.le_refl _, .inl rfl⟩, rfl⟩
  obtain ⟨l, effects, valid, rfl⟩ := run.simulate Effect (fun a l => a.Valid ∧ a.contents = l) Prod.snd
    (fun a l call a' ⟨valid, same⟩ step => by
      obtain ⟨valid', effect⟩ := step.effect valid
      exact ⟨a'.contents, same ▸ effect, valid', rfl⟩) [] start
  have length := valid.length_contents
  refine ⟨a.contents, effects, length.symm, fun index inside => ?_, valid.within, fun memory op allowed => ?_⟩
  · rw [length] at inside
    have held : a.v[index]? = some a.contents[index] := by
      rw [← getElem?_eq_getElem, contents, getElem?_take_of_lt inside]
    simp only [arrayGet, kassert, inside, if_true, ok_bind, load, held]
  · obtain ⟨code, a', performed, _, _, succeeds⟩ := valid.perform memory allowed
    exact ⟨code, a', performed, succeeds⟩

/-- Additions with and without memory up to a second block, a removal and a change -/
def mixedCalls : List (Option (Nat → Nat) × Op Nat × Errno) :=
  [(none, .add 7, eNoMem), (some id, .add 7, 0), (none, .add 8, 0), (none, .add 9, 0), (none, .add 10, 0),
    (none, .add 11, eNoMem), (some id, .add 11, 0), (none, .remove 1, 0), (none, .set 0 5, 0)]

theorem array_refines_list_mixed : ∃ a, Run Step init mixedCalls a ∧ a.max = 8 ∧ a.contents = [5, 9, 10, 11] ∧
    ∃ l, Run Effect [] (mixedCalls.map Prod.snd) l ∧ a.arrayNum = l.length ∧
      ∀ index, (inside : index < l.length) → a.arrayGet index = .ok l[index] := by
  have few {count : Nat} (small : count < 8) : count + 1 < 2 ^ 29 := by omega
  have run : Run Step init mixedCalls _ :=
    .cons ⟨few (by decide), rfl⟩ (.cons ⟨few (by decide), rfl⟩ (.cons ⟨few (by decide), rfl⟩
      (.cons ⟨few (by decide), rfl⟩ (.cons ⟨few (by decide), rfl⟩ (.cons ⟨few (by decide), rfl⟩
      (.cons ⟨few (by decide), rfl⟩ (.cons ⟨show 1 < 5 by decide, rfl⟩
      (.single ⟨show 0 < 4 by decide, rfl⟩))))))))
  obtain ⟨l, effects, num, elements, _⟩ := array_refines_list run
  exact ⟨_, run, rfl, rfl, l, effects, num, elements⟩

end PtrArray

end Os161.Klib
