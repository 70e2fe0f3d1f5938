import Os161.Lib.Outcome
import Os161.Lib.Word

namespace Os161
open Word

/-- A virtual address has 32 bits. -/
abbrev Vaddr := Word32

/-- A physical address has 32 bits. -/
abbrev Paddr := Word32

abbrev Byte := BitVec 8

/-- `PAGE_SIZE` in bytes. -/
abbrev pageSize : Nat := 4096

/-- The kernel stops in one of these ways instead of returning. -/
inductive Panic where
  | deadlock
  | assertion (text : String)
  | message (text : String)
  | badIndex (index : Int)
  | nullPointer
  | endless
deriving DecidableEq, Repr

/-- Kernel code returns a value or stops the machine. -/
abbrev Kernel := Except Panic

/-- A `KASSERT` stops the kernel when its condition fails. -/
def kassert (condition : Prop) [Decidable condition] (text : String) : Kernel Unit :=
  if condition then .ok () else .error (.assertion text)

@[simp] theorem kassert_ok {condition : Prop} [Decidable condition] :
    kassert condition text = .ok () ↔ condition := by
  unfold kassert
  split <;> simp_all

theorem kassert_bind {condition : Prop} [Decidable condition] {text : String} {A : Type}
    {next : Unit → Kernel A} {res : A} :
    (kassert condition text >>= next) = .ok res ↔ condition ∧ next () = .ok res := by
  by_cases met : condition
  · simp [kassert, met]
  · simp [kassert, met]

/-- An error number; zero reports success. -/
abbrev Errno := Nat

abbrev eNoSys : Errno := 1
abbrev eUnimp : Errno := 2
abbrev eNoMem : Errno := 3
abbrev eFault : Errno := 6
abbrev eInval : Errno := 8
abbrev ePerm : Errno := 9
abbrev eMproc : Errno := 11
abbrev eNoExec : Errno := 13
abbrev eSrch : Errno := 15
abbrev eNotDir : Errno := 17
abbrev eBusy : Errno := 27

end Os161
