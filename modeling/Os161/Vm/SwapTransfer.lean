import Os161.Syscall.CopyInOut
import Os161.Vm.Swap

namespace Os161.Vm
open Word Outcome Syscall BitVec

/-- `enum uio_seg` without instruction space -/
inductive Segflg where
  | userspace
  | sysspace
deriving DecidableEq

/-- A `struct uio` with one `struct iovec` for the whole transfer -/
structure PageUio where
  base : Vaddr
  resid : Nat
  offset : Int
  rw : UioRw
  segflg : Segflg
  space : Option Nat

/-- The machine with an open swap file and the current process. The boot order never opens the file; an open one
is assumed here. The last field is what an uninitialised `uio_offset` holds. -/
structure SwapWorld where
  machine : Machine
  file : Nat → Byte
  user : UserMem
  curas : Option Nat
  strayOffset : Int

/-- `MIPS_KSEG0` -/
abbrev kseg0 : Vaddr := 0x80000000

def paddrToKvaddr (paddr : Nat) : Vaddr := BitVec.ofNat 32 paddr + kseg0

namespace SwapWorld

variable (w : SwapWorld)

/-- The bytes of physical memory at an address of the kernel -/
def kernelBytes (base : Vaddr) (length : Nat) : List Byte :=
  (List.range length).map fun offset => w.machine.core.mem ((base - kseg0).toNat + offset)

/-- `uiomove` to a buffer of the kernel -/
def uiomoveFrom (u : PageUio) : Kernel (Errno × List Byte) :=
  match u.segflg with
  | .sysspace => do
    kassert (u.space = none) "uio->uio_space == NULL"
    return (0, w.kernelBytes u.base u.resid)
  | .userspace => do
    kassert (u.space = w.curas) "uio->uio_space == curproc_getas()"
    return copyin w.user u.base (BitVec.ofNat 32 u.resid)

/-- `uiomove` from a buffer of the kernel -/
def uiomoveTo (data : List Byte) (u : PageUio) : Kernel (Errno × SwapWorld) :=
  match u.segflg with
  | .sysspace => do
    kassert (u.space = none) "uio->uio_space == NULL"
    let mem := Bytes.store (u.base - kseg0).toNat data w.machine.core.mem
    return (0, { w with machine := w.machine.setMem mem })
  | .userspace => do
    kassert (u.space = w.curas) "uio->uio_space == curproc_getas()"
    let (result, user) := copyout w.user data u.base
    return (result, { w with user := user })

/-- `VOP_WRITE` of the swap file. A page is less than what the device takes at once. -/
def vopWrite (u : PageUio) : Kernel (Errno × SwapWorld) := do
  kassert (u.rw = .write) "uio->uio_rw==UIO_WRITE"
  let (result, data) ← w.uiomoveFrom u
  if result ≠ 0 then return (result, w)
  else return (0, { w with file := Bytes.store u.offset.toNat data w.file })

/-- `VOP_READ` of the swap file -/
def vopRead (u : PageUio) : Kernel (Errno × SwapWorld) := do
  kassert (u.rw = .read) "uio->uio_rw==UIO_READ"
  w.uiomoveTo ((List.range u.resid).map fun offset => w.file (u.offset.toNat + offset)) u

def setSlot (index : Nat) (taken : Bool) : SwapWorld :=
  { w with machine := { w.machine with swapPartition := Function.update w.machine.swapPartition index taken } }

def vmstatsInc (index : Nat) : SwapWorld := { w with machine := w.machine.vmstatsInc index }

/-- The transfer that both functions set up for the page at an address -/
def pageUio (paddr : Nat) : PageUio where
  base := paddrToKvaddr paddr
  resid := pageSize
  offset := w.strayOffset
  rw := .write
  segflg := .userspace
  space := none

def readFromSwap (pfn : Nat) (index : Int) : Kernel SwapWorld := do
  let (_, w) ← w.vopRead (w.pageUio (pfn * pageSize))
  if 0 ≤ index ∧ index < swapNum then return (w.setSlot index.toNat false).vmstatsInc 8
  else .error (.badIndex index)

/-- The loop of `write_to_swap` -/
def writeLoop : (remaining i : Nat) → Kernel (Nat × SwapWorld)
  | 0, i => .ok (i, w)
  | remaining + 1, i =>
    if w.machine.swapPartition i then writeLoop remaining (i + 1)
    else do
      let (result, w) ← (w.setSlot i true).vopWrite (w.pageUio (i * pageSize))
      if (result : Int) < 0 then .error (.message "Out of swap space") else return (i, w)

def writeToSwap : Kernel (Nat × SwapWorld) := do
  let (i, w) ← w.writeLoop swapNum 0
  return (i, w.vmstatsInc 9)

def FreeSlot : Prop := ∃ i < swapNum, w.machine.swapPartition i = false

/-- The bytes of a page of physical memory -/
def page (frame : Nat) (offset : Nat) : Byte := w.machine.core.mem (frame * pageSize + offset)

/-- A page that is written out can be brought back into any frame, whatever happens to physical memory. -/
def RoundTrip (victim frame : Nat) : Prop :=
  ∃ slot out, w.writeToSwap = .ok (slot, out) ∧ ∀ mem, ∃ back : SwapWorld,
    { out with machine := out.machine.setMem mem }.readFromSwap frame slot = .ok back ∧
      ∀ offset < pageSize, back.page frame offset = w.page victim offset

variable {w} {w' : SwapWorld}

theorem copyin_kernel (mem : UserMem) (low : paddr < 2 ^ 31) (len : Word32) :
    copyin mem (paddrToKvaddr paddr) len = (eFault, []) := by
  have addr : (paddrToKvaddr paddr).toNat = paddr + 2 ^ 31 := by
    rw [paddrToKvaddr, toNat_add, toNat_ofNat, show kseg0.toNat = 2 ^ 31 from rfl]
    omega
  have high : userStack ≤ paddrToKvaddr paddr := by
    rw [le_def, addr]
    exact Nat.le_add_left _ _
  have refused : copycheck (paddrToKvaddr paddr) len = none := by
    unfold copycheck
    dsimp only
    rw [if_pos high, ite_self]
  rw [copyin, refused]

theorem vopWrite_pageUio (low : paddr < 2 ^ 31) (same : w'.curas = w.curas) :
    w'.vopWrite (w.pageUio paddr) =
      if w.curas = none then .ok (eFault, w')
      else .error (.assertion "uio->uio_space == curproc_getas()") := by
  simp only [vopWrite, uiomoveFrom, pageUio, copyin_kernel _ low, same]
  by_cases kernel : w.curas = none
  · rw [kernel]
    rfl
  · rw [if_neg kernel, kassert, kassert, if_neg (Ne.symm kernel)]
    rfl

theorem slot_low (inside : i < swapNum) : i * pageSize < 2 ^ 31 := by
  have slots : swapNum = 2304 := rfl
  change i * 4096 < 2 ^ 31
  omega

theorem writeLoop_end (todo i : Nat) (inside : i + todo ≤ swapNum) :
    ((∀ j, i ≤ j → j < i + todo → w.machine.swapPartition j = true) ∧
        w.writeLoop todo i = .ok (i + todo, w)) ∨
      ∃ j < i + todo, w.machine.swapPartition j = false ∧
        w.writeLoop todo i = if w.curas = none then .ok (j, w.setSlot j true)
          else .error (.assertion "uio->uio_space == curproc_getas()") := by
  induction todo generalizing i with
  | zero => exact .inl ⟨fun j low high => absurd low (by omega), rfl⟩
  | succ todo ih =>
    rw [writeLoop]
    cases taken : w.machine.swapPartition i with
    | true =>
      rcases ih (i + 1) (by omega) with ⟨full, ended⟩ | ⟨j, below, free, ended⟩
      · refine .inl ⟨?_, ended.trans (by rw [Nat.add_right_comm, Nat.add_assoc])⟩
        intro j low high
        rcases Nat.eq_or_lt_of_le low with rfl | later
        · exact taken
        · exact full j later (by omega)
      · exact .inr ⟨j, by omega, free, ended⟩
    | false =>
      refine .inr ⟨i, by omega, taken, ?_⟩
      have low : i * pageSize < 2 ^ 31 := slot_low (by omega)
      rw [if_neg Bool.false_ne_true, vopWrite_pageUio low (show (w.setSlot i true).curas = w.curas from rfl)]
      split_ifs <;> rfl

theorem writeToSwap_unchanged (ran : w.writeToSwap = .ok (slot, w')) :
    w'.file = w.file ∧ w'.machine.core = w.machine.core := by
  obtain ⟨⟨i, out⟩, looped, counted⟩ := bind_ok.mp ran
  cases counted
  rcases w.writeLoop_end swapNum 0 (by omega) with ⟨_, ended⟩ | ⟨j, _, _, ended⟩
  · cases looped.symm.trans ended
    exact ⟨rfl, rfl⟩
  · rw [ended] at looped
    split_ifs at looped
    cases looped
    exact ⟨rfl, rfl⟩

theorem writeLoop_refines {files : Files} (kernel : w.curas = none)
    (refuses : ∀ offset len, 0 ≤ files.write files.swapfile offset len) (todo i : Nat)
    (inside : i + todo ≤ swapNum) :
    (w.writeLoop todo i).map (fun done => (done.1, done.2.machine)) =
      Vm.writeLoop files todo i w.machine := by
  induction todo generalizing i with
  | zero => rfl
  | succ todo ih =>
    have low : i * pageSize < 2 ^ 31 := slot_low (by omega)
    rw [writeLoop, Vm.writeLoop]
    cases taken : w.machine.swapPartition i with
    | true =>
      exact ih (i + 1) (by omega)
    | false =>
      rw [vopWrite_pageUio low (show (w.setSlot i true).curas = w.curas from rfl), if_pos kernel]
      simp only [Vm.vopWrite, kassert, if_pos, ok_bind, pure_ok, if_neg (not_lt.mpr (refuses _ _))]
      rfl

theorem writeToSwap_refines {files : Files} (kernel : w.curas = none)
    (refuses : ∀ offset len, 0 ≤ files.write files.swapfile offset len) :
    w.writeToSwap.map (fun done => (done.1, done.2.machine)) = Vm.writeToSwap files w.machine := by
  rw [Vm.writeToSwap, ← writeLoop_refines kernel refuses swapNum 0 (by omega), writeToSwap]
  cases w.writeLoop swapNum 0 with
  | error | ok => rfl

/-- A page never comes back from the swap file. -/
theorem swap_roundTrip_iff (w : SwapWorld) (victim frame : Nat) :
    ((w.FreeSlot → w.RoundTrip victim frame) ↔ ¬ w.FreeSlot) ∧
      ∀ slot out, w.writeToSwap = .ok (slot, out) → out.file = w.file := by
  have never : ¬ w.RoundTrip victim frame := by
    rintro ⟨slot, out, _, back⟩
    obtain ⟨_, returned, _⟩ := back out.machine.core.mem
    cases returned
  exact ⟨⟨fun trip free => never (trip free), fun full free => absurd free full⟩,
    fun _ _ returned => (writeToSwap_unchanged returned).1⟩

/-- A machine with every slot free, seen from a process or from the kernel -/
def emptySwap (core : CoreState) (curas : Option Nat) : SwapWorld where
  machine := ⟨core, fun _ => ⟨0, 0⟩, 0, .none, fun _ => 0, fun _ => false⟩
  file := fun _ => 0
  user := ⟨fun _ => none, fun _ => false⟩
  curas := curas
  strayOffset := 0

/-- A slot is taken for a page that is never written. -/
theorem swap_loses_page : ∃ core : CoreState,
    (emptySwap core none).FreeSlot ∧
      (emptySwap core none).writeToSwap =
        .ok (0, ((emptySwap core none).setSlot 0 true).vmstatsInc 9) ∧
      (((emptySwap core none).setSlot 0 true).vmstatsInc 9).readFromSwap 0 0 =
        .error (.assertion "uio->uio_rw==UIO_READ") ∧
      (emptySwap core (some 1)).writeToSwap = .error (.assertion "uio->uio_space == curproc_getas()") := by
  refine ⟨⟨fun _ => ⟨0, .free, .no, 0⟩, 0, 0, 0, 0, 0, false, 0, false, 0, 0, fun _ => 0⟩, ⟨0, by decide, rfl⟩,
    rfl, rfl, rfl⟩

end SwapWorld

end Os161.Vm
