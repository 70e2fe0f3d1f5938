import Os161.Vm.Swap

namespace Os161.Vm
open Word Outcome

/-- `load_segment` of the fault handler reads into the kernel address of a frame. -/
def loadSegment (files : Files) (vn : Vnode) (offset : Int) (paddr : Paddr)
    (memsize filesize : Nat) (m : Machine) : Kernel (Errno × Machine) := do
  let filesize := if memsize < filesize then memsize else filesize
  let u : Uio := { offset := offset, resid := filesize, rw := .read }
  let (result, moved, u) ← vopRead files vn u
  let m := m.setMem (Bytes.store paddr.toNat moved m.core.mem)
  if result ≠ 0 then return (result, m)
  if u.resid ≠ 0 then return (eNoExec, m)
  return (result, m)

/-- The load of one page of a program segment: a full page of the file, the last part of the file
or a page of zeros. The handler sets the dirty field of the entry during the load and restores it. -/
def loadPage (files : Files) (vn : Vnode) (segment : Segment) (vpn : Nat) (page : Vaddr)
    (paddr : Paddr) (m : Machine) : Kernel (Errno × Machine) :=
  let off : Int := page.toNat - segment.vbase.toNat + segment.offset
  let index := segment.filesz.toNat / pageSize
  let r := segment.filesz.toNat % pageSize
  if vpn < index then loadSegment files vn off paddr pageSize pageSize (m.vmstatsInc 7)
  else if index = vpn ∧ r ≠ 0 then loadSegment files vn off paddr pageSize r (m.vmstatsInc 7)
  else .ok (0, (m.vmstatsInc 5).setMem (bzeroPage paddr m.core.mem))

/-- The three loads of `vm_fault`; a stack page is only cleared. -/
def loadRegion (files : Files) (region : Region) (vpn : Nat) (page : Vaddr) (paddr : Paddr)
    (as : AddrSpace) (m : Machine) : Kernel (Errno × Machine) :=
  match region with
  | .first => loadPage files as.vn as.seg1 vpn page paddr m
  | .second => loadPage files as.vn as.seg2 vpn page paddr m
  | .stack => .ok (0, (m.vmstatsInc 5).setMem (bzeroPage paddr m.core.mem))

/-- The branch of `vm_fault` for an invalid entry. -/
def pageIn (files : Files) (region : Region) (vpn : Nat) (entry : Pte) (as : AddrSpace)
    (m : Machine) : Kernel (Except Errno Paddr × AddrSpace × Machine) := do
  let (paddr, core) ← getppages 1 .user m.core
  let m := { m with core := core }
  let (as, m) ← if entry.sw ≠ -1 then swapIn files region vpn entry as m else pure (as, m)
  if paddr = 0 then return (.error eNoMem, as, m)
  return (.ok paddr, as.mapPage region vpn paddr, m)

/-- The fault codes of `vm_fault`. -/
inductive FaultType where
  | read
  | write
  | readonly
  | other
deriving DecidableEq, Repr

/-- The program segment branches of `vm_fault` return the frame and the value of `load`. -/
def segmentPage (files : Files) (faulttype : FaultType) (region : Region) (vpn : Nat)
    (as : AddrSpace) (m : Machine) : Kernel (Except Errno (Paddr × Bool) × AddrSpace × Machine) := do
  let entry ← as.pteAt region vpn
  if entry.valid = false then
    let (paddr, as, m) ← pageIn files region vpn entry as m
    return (paddr.map (·, true), as, m)
  else if entry.dirty = false ∧ faulttype = .write then return (.error ePerm, as, m)
  else return (.ok (entry.pfn, false), as, m)

/-- The stack branch of `vm_fault` sets `load` for a valid entry too. -/
def stackPage (files : Files) (vpn : Nat) (as : AddrSpace) (m : Machine) :
    Kernel (Except Errno (Paddr × Bool) × AddrSpace × Machine) := do
  let entry ← as.pteAt .stack vpn
  if entry.valid = false then
    let (paddr, as, m) ← pageIn files .stack vpn entry as m
    return (paddr.map (·, true), as, m)
  else return (.ok (entry.pfn, true), as, m)

/-- The branch of `vm_fault` for the region of the page. -/
def resolvePage (files : Files) (faulttype : FaultType) (region : Region) (vpn : Nat)
    (as : AddrSpace) (m : Machine) : Kernel (Except Errno (Paddr × Bool) × AddrSpace × Machine) :=
  match region with
  | .first => segmentPage files faulttype .first vpn as m
  | .second => segmentPage files faulttype .second vpn as m
  | .stack => stackPage files vpn as m

/-- The common body of the two insertion paths. A failed load returns before the final entry is
written and before the interrupt level is restored. -/
def install (files : Files) (region : Region) (vpn : Nat) (page : Vaddr) (paddr : Paddr)
    (load : Bool) (slot : Nat) (spl : Ipl) (as : AddrSpace) (m : Machine) :
    Kernel (Errno × Machine) := do
  let elo := if as.flag region &&& 2 = 0 then paddr ||| tlbloValid
    else paddr ||| tlbloDirty ||| tlbloValid
  if load then
    let m := m.tlbWrite page (paddr ||| tlbloDirty ||| tlbloValid) slot
    let (result, m) ← loadRegion files region vpn page paddr as m
    if result ≠ 0 then return (result, m)
    return (0, (m.tlbWrite page elo slot).splx spl)
  else return (0, ((m.vmstatsInc 4).tlbWrite page elo slot).splx spl)

/-- The second half of `vm_fault` works on the translation buffer with interrupts off. A matching
entry makes it return without restoring the level. -/
def fillTlb (files : Files) (region : Region) (vpn : Nat) (page : Vaddr) (paddr : Paddr)
    (load : Bool) (as : AddrSpace) (m : Machine) : Kernel (Errno × Machine) :=
  let (spl, m) := m.splhigh
  match probe m.tlb page numTlb 0 with
  | .hit => .ok (0, m.vmstatsInc 4)
  | .free slot =>
    install files region vpn page paddr load slot spl as ((m.vmstatsInc 0).vmstatsInc 1)
  | .full =>
    let (victim, m) := ((m.vmstatsInc 0).vmstatsInc 2).tlbGetRrVictim
    install files region vpn page paddr load victim spl as m

/-- The assertions that `vm_fault` makes about the address space. -/
def AddrSpace.check (as : AddrSpace) : Kernel Unit := do
  kassert (as.seg1.vbase ≠ 0) "as->as_vbase1 != 0"
  kassert (as.seg1.npages ≠ 0) "as->as_npages1 != 0"
  kassert (as.seg2.vbase ≠ 0) "as->as_vbase2 != 0"
  kassert (as.seg2.npages ≠ 0) "as->as_npages2 != 0"
  kassert (pageMask as.seg1.vbase = as.seg1.vbase) "(as->as_vbase1 & PAGE_FRAME) == as->as_vbase1"
  kassert (pageMask as.seg2.vbase = as.seg2.vbase) "(as->as_vbase2 & PAGE_FRAME) == as->as_vbase2"

/-- `vm_fault` after the fault type and the current address space have been checked. -/
def handleFault (files : Files) (faulttype : FaultType) (page : Vaddr) (as : AddrSpace)
    (m : Machine) : Kernel (Errno × AddrSpace × Machine) := do
  as.check
  match as.locate page with
  | none => return (eFault, as, m)
  | some (region, vpn) =>
    let (resolved, as, m) ← resolvePage files faulttype region vpn as m
    match resolved with
    | .error code => return (code, as, m)
    | .ok (paddr, load) =>
      kassert (paddr ≠ 0) "paddr != 0"
      kassert (pageMask paddr = paddr) "(paddr & PAGE_FRAME) == paddr"
      let (code, m) ← fillTlb files region vpn page paddr load as m
      return (code, as, m)

/-- `vm_fault`; the current address space is missing without a process too. -/
def vmFault (files : Files) (faulttype : FaultType) (faultaddress : Vaddr)
    (current : Option AddrSpace) (m : Machine) : Kernel (Errno × Option AddrSpace × Machine) :=
  let page := pageMask faultaddress
  match faulttype with
  | .readonly => .ok (eInval, current, m)
  | .other => .ok (eInval, current, m)
  | faulttype =>
    match current with
    | none => .ok (eFault, none, m)
    | some as => do
      let (code, as, m) ← handleFault files faulttype page as m
      return (code, some as, m)

end Os161.Vm
