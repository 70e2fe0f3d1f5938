import Os161.Vm.Tlb

namespace Os161.Vm
open Word Outcome Function

/-- `swap_num`: `MAX_SIZE / PAGE_SIZE` with the unparenthesised product of the macro. -/
abbrev swapNum : Nat := 9 * 1024 * 1024 / pageSize

/-- `read_from_swap` asks `VOP_READ` to perform a transfer in the write direction. -/
def readFromSwap (files : Files) (index : Int) (m : Machine) : Kernel Machine := do
  let u : Uio := { offset := files.strayOffset, resid := pageSize, rw := .write }
  let _ ← vopRead files files.swapfile u
  if 0 ≤ index ∧ index < swapNum then
    return { m with swapPartition := update m.swapPartition index.toNat false }.vmstatsInc 8
  else .error (.badIndex index)

/-- The loop of `write_to_swap` takes the first free slot and ends at `swap_num` without one. -/
def writeLoop (files : Files) : (remaining i : Nat) → Machine → Kernel (Nat × Machine)
  | 0, i, m => .ok (i, m)
  | remaining + 1, i, m =>
    if m.swapPartition i then writeLoop files remaining (i + 1) m
    else do
      let m := { m with swapPartition := update m.swapPartition i true }
      let u : Uio := { offset := files.strayOffset, resid := pageSize, rw := .write }
      let result ← vopWrite files files.swapfile u
      if result < 0 then .error (.message "Out of swap space") else .ok (i, m)

def writeToSwap (files : Files) (m : Machine) : Kernel (Nat × Machine) := do
  let (i, m) ← writeLoop files swapNum 0 m
  return (i, m.vmstatsInc 9)

/-- The branch of `vm_fault` for a page that was swapped out. -/
def swapIn (files : Files) (region : Region) (vpn : Nat) (entry : Pte) (as : AddrSpace)
    (m : Machine) : Kernel (AddrSpace × Machine) := do
  let m ← readFromSwap files entry.sw m
  let (as, m) ←
    if m.core.pvictim ≠ 0 then do
      let index ← findPte as m.core.pvictim region
      let m := { m with core := { m.core with pvictim := 0 } }
      let _ ← as.pteAt region index
      let (sw, m) ← writeToSwap files m
      pure (as.modifyPte region index fun pte =>
        { pte with valid := false, dirty := false, sw := sw }, m)
    else pure (as, m)
  return (as.modifyPte region vpn fun pte => { pte with sw := -1 }, m)

theorem swapIn_panics (files : Files) (region : Region) (vpn : Nat) (entry : Pte) (as : AddrSpace)
    (m : Machine) :
    swapIn files region vpn entry as m = .error (.assertion "uio->uio_rw==UIO_READ") := by
  simp [swapIn, readFromSwap, vopRead, kassert]

end Os161.Vm
