import Mathlib.Tactic
import Os161.Lib.Outcome

namespace Os161.User
open Outcome

/-- How a program ends early: by `err` after a failed system call, by `errx` after a failed check, or not
at all. -/
inductive Exit where
  | err (text : String)
  | errx (text : String)
  | endless
deriving DecidableEq

/-- Code of the C library returns a value or ends the program. -/
abbrev Program := Except Exit

/-- `%lx` -/
def hex (value : Nat) : String := String.ofList (Nat.toDigits 16 value)

/-- `struct mheader` on a 32-bit platform -/
structure Mheader where
  prevblock : BitVec 29
  pad : Bool
  magic1 : BitVec 2
  nextblock : BitVec 29
  inuse : Bool
  magic2 : BitVec 2
deriving DecidableEq

abbrev mMagic : BitVec 2 := 2

namespace Mheader

variable (mh : Mheader)

/-- `M_NEXTOFF` -/
def nextoff : Nat := mh.nextblock.toNat * 8

/-- `M_PREVOFF` -/
def prevoff : Nat := mh.prevblock.toNat * 8

/-- `M_SIZE`, in 32 bits -/
def size : Nat := (mh.nextoff + (2 ^ 32 - 8)) % 2 ^ 32

/-- `M_OK` -/
def Ok : Prop := mh.magic1 = mMagic ∧ mh.magic2 = mMagic

instance : Decidable mh.Ok := inferInstanceAs (Decidable (_ ∧ _))

/-- Eight bytes of `0xdeadbeef` -/
def deadbeef : Mheader where
  prevblock := BitVec.ofNat 29 (0xdeadbeef / 8)
  pad := true
  magic1 := 3
  nextblock := BitVec.ofNat 29 (0xdeadbeef / 8)
  inuse := true
  magic2 := 3

end Mheader

/-- `M_MKFIELD` -/
def mkfield (off : Nat) : BitVec 29 := BitVec.ofNat 29 (off / 8)

/-- The memory of the program in cells of eight bytes, by their addresses, the variables of `malloc`, and
the break that the kernel keeps with its first value. -/
structure Heap where
  mem : Nat → Mheader
  heapbase : Nat
  heaptop : Nat
  start : Nat
  brk : Nat

/-- The kernel refuses a call of `sbrk`, extends the heap by the amount, or moves the break by it as an `int`. -/
inductive Answer where
  | refused
  | extended
  | moved
deriving DecidableEq

/-- The break is not moved by a negative amount. -/
def Answer.Extends (size : Nat) (answer : Answer) : Prop := answer = .moved → size < 2 ^ 31

/-- The answers to the calls of `sbrk` by one call of `malloc` -/
structure Grants where
  probe : Answer
  align : Answer
  grow : Answer

/-- The kernel moves the break as `sbrk` is specified. -/
def Grants.Specified (grants : Grants) : Prop :=
  grants.probe ≠ .extended ∧ grants.align ≠ .extended ∧ grants.grow ≠ .extended

namespace Heap

variable (h : Heap)

def set (address : Nat) (mh : Mheader) : Heap := { h with mem := Function.update h.mem address mh }

/-- The block at this address, if there is one, is told the size of the block below it. -/
def linkBack (address : Nat) (field : BitVec 29) : Heap :=
  if address ≠ h.heaptop then h.set address { h.mem address with prevblock := field } else h

/-- The result of `sbrk` for failure -/
abbrev sbrkFailed : Nat := 2 ^ 32 - 1

/-- An `int` from 2^31 on is negative, and the break does not go below its first value. -/
def Movable (size : Nat) : Prop :=
  size < 2 ^ 31 ∧ h.brk + size < 2 ^ 32 ∨ 2 ^ 31 ≤ size ∧ h.start + 2 ^ 32 ≤ h.brk + size

instance (size : Nat) : Decidable (h.Movable size) := inferInstanceAs (Decidable (_ ∨ _))

/-- `sbrk` fails, or it returns the old break and moves the break. -/
def sbrk (size : Nat) : Answer → Nat × Heap
  | .refused => (sbrkFailed, h)
  | .extended => if h.brk + size < 2 ^ 32 then (h.brk, { h with brk := h.brk + size }) else (sbrkFailed, h)
  | .moved => if h.Movable size then (h.brk, { h with brk := (h.brk + size) % 2 ^ 32 }) else (sbrkFailed, h)

/-- `__malloc_init` -/
def mallocInit (grants : Grants) : Program Heap :=
  if h.heapbase ≠ 0 ∨ h.heaptop ≠ 0 then .error (.errx "malloc: Internal error - bad init call")
  else
    let (x, h) := h.sbrk 0 grants.probe
    if x = sbrkFailed then .error (.err "malloc: initial sbrk failed")
    else if x = 0 then .error (.errx "malloc: Internal error - heap began at 0")
    else if x % 8 ≠ 0 then
      let adjust := 8 - x % 8
      let (y, h) := h.sbrk adjust grants.align
      if y = sbrkFailed then .error (.err "malloc: sbrk failed aligning heap base")
      else if y ≠ x then .error (.err "malloc: heap base moved during init")
      else .ok { h with heapbase := x + adjust, heaptop := x + adjust }
    else .ok { h with heapbase := x, heaptop := x }

/-- `__malloc_sbrk` -/
def mallocSbrk (size : Nat) (answer : Answer) : Program (Option Nat × Heap) :=
  let (x, h) := h.sbrk size answer
  if x = sbrkFailed then .ok (none, h)
  else if x ≠ h.heaptop then
    .error (.errx s!"malloc: Internal error - heap top moved itself from 0x{hex h.heaptop} to 0x{hex x}")
  else .ok (some x, { h with heaptop := (h.heaptop + size) % 2 ^ 32 })

/-- `__malloc_split` -/
def mallocSplit (mh size : Nat) : Program Heap :=
  if size % 8 ≠ 0 then .error (.errx s!"malloc: Internal error (size {size} passed to split)")
  else if ((h.mem mh).size + (2 ^ 32 - size)) % 2 ^ 32 < 16 then .ok h
  else
    let mhnext := mh + (h.mem mh).nextoff
    let oldsize := (h.mem mh).size
    let h := h.set mh { h.mem mh with nextblock := mkfield (size + 8) }
    let mhnew := mh + (h.mem mh).nextoff
    if mhnew = mhnext then .error (.errx "malloc: Internal error (split screwed up?)")
    else
      let field := mkfield (oldsize - size)
      let h := h.set mhnew ⟨mkfield (size + 8), false, mMagic, field, false, mMagic⟩
      .ok (h.linkBack mhnext field)

/-- The search of `malloc` after its last round; a loop that makes no progress does not end. -/
def searchDone (i : Nat) (rightprevblock : BitVec 29) : Program (Option Nat × BitVec 29) :=
  if i < h.heaptop then .error .endless
  else if i ≠ h.heaptop then .error (.errx "malloc: Heap corrupt; ran off end")
  else .ok (none, rightprevblock)

/-- The search of `malloc`: the first block that is free and big enough, or none and the size of the last
block -/
def search (size : Nat) : (fuel i : Nat) → (rightprevblock : BitVec 29) → Program (Option Nat × BitVec 29)
  | 0, i, rightprevblock => h.searchDone i rightprevblock
  | fuel + 1, i, rightprevblock =>
    if i < h.heaptop then
      let mh := h.mem i
      if ¬ mh.Ok then .error (.errx s!"malloc: Heap corrupt; header at 0x{hex i} has bad magic bits")
      else if mh.prevblock ≠ rightprevblock then
        .error (.errx (s!"malloc: Heap corrupt; header at 0x{hex i} has bad previous-block size " ++
          s!"{mh.prevoff} (should be {rightprevblock.toNat * 8})"))
      else if mh.inuse ∨ mh.size < size then search size fuel ((i + mh.nextoff) % 2 ^ 32) mh.nextblock
      else .ok (some i, mh.nextblock)
    else h.searchDone i rightprevblock

/-- `malloc` takes a block that it has found. -/
def allocate (mh size : Nat) : Program (Nat × Heap) := do
  let h ← h.mallocSplit mh size
  return (mh + 8, h.set mh { h.mem mh with inuse := true })

/-- `malloc` expands the heap. -/
def expand (size : Nat) (rightprevblock : BitVec 29) (answer : Answer) : Program (Nat × Heap) := do
  match ← h.mallocSbrk ((size + 8) % 2 ^ 32) answer with
  | (none, h) => return (0, h)
  | (some mh, h) =>
    return (mh + 8, h.set mh ⟨rightprevblock, false, mMagic, mkfield ((size + 8) % 2 ^ 32), true, mMagic⟩)

abbrev localData (name : String) (h : Heap) : Exit :=
  .errx s!"{name}: heapbase 0x{hex h.heapbase}; heaptop 0x{hex h.heaptop}"

/-- The size of a request in whole cells, in 32 bits -/
def roundUp (size : Nat) : Nat := (size + 7) % 2 ^ 32 / 8 * 8

/-- `malloc` after the heap has been set up -/
def mallocFrom (size : Nat) (grants : Grants) : Program (Nat × Heap) := do
  if h.heapbase = 0 ∨ h.heaptop = 0 ∨ h.heaptop < h.heapbase then .error (localData "malloc" h)
  else
    let size := roundUp size
    match ← h.search size ((h.heaptop - h.heapbase) / 8) h.heapbase 0 with
    | (some mh, _) => h.allocate mh size
    | (none, rightprevblock) => h.expand size rightprevblock grants.grow

def malloc (size : Nat) (grants : Grants) : Program (Nat × Heap) := do
  if h.heapbase = 0 then
    let h ← h.mallocInit grants
    h.mallocFrom size grants
  else h.mallocFrom size grants

/-- `__malloc_deadbeef` -/
def mallocDeadbeef (ptr size : Nat) : Heap :=
  { h with mem := fun address => if ptr ≤ address ∧ address < ptr + size then .deadbeef else h.mem address }

/-- `__malloc_trymerge` -/
def mallocTrymerge (mh mhnext : Nat) : Program Heap :=
  if (h.mem mh).nextblock ≠ (h.mem mhnext).prevblock then
    .error (.errx s!"free: Heap corrupt (0x{hex mh} and 0x{hex mhnext} inconsistent)")
  else if (h.mem mh).inuse ∨ (h.mem mhnext).inuse then .ok h
  else
    let mhnextnext := mhnext + (h.mem mhnext).nextoff
    let field := mkfield ((8 + (h.mem mh).size + (8 + (h.mem mhnext).size)) % 2 ^ 32)
    let h := h.set mh { h.mem mh with nextblock := field }
    let h := h.linkBack mhnextnext field
    .ok (h.mallocDeadbeef mhnext 8)

/-- `free` merges the block with the one above, if there is one. -/
def mergeAbove (mh : Nat) : Program Heap :=
  let mhnext := mh + (h.mem mh).nextoff
  if mhnext ≠ h.heaptop then h.mallocTrymerge mh mhnext else .ok h

/-- `free` merges the block with the one below, if there is one. -/
def mergeBelow (mh : Nat) : Program Heap :=
  if mh ≠ h.heapbase then h.mallocTrymerge (mh - (h.mem mh).prevoff) mh else .ok h

/-- `free` for a pointer into the heap -/
def release (x : Nat) : Program Heap := do
  let mh := x - 8
  if ¬ (h.mem mh).Ok then .error (.errx s!"free: Invalid pointer 0x{hex x} freed (corrupt header)")
  else if (h.mem mh).inuse = false then
    .error (.errx s!"free: Invalid pointer 0x{hex x} freed (already free)")
  else
    let h := h.set mh { h.mem mh with inuse := false }
    let h := h.mallocDeadbeef (mh + 8) (h.mem mh).size
    let h ← h.mergeAbove mh
    h.mergeBelow mh

def free (x : Nat) : Program Heap :=
  if x = 0 then .ok h
  else if h.heapbase = 0 ∨ h.heaptop = 0 ∨ h.heaptop < h.heapbase then .error (localData "free" h)
  else if x < h.heapbase ∨ h.heaptop ≤ x then
    .error (.errx s!"free: Invalid pointer 0x{hex x} freed (out of range)")
  else h.release x

end Heap

end Os161.User
