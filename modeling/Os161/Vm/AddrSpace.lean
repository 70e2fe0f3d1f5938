import Os161.Vm.Coremap

namespace Os161.Vm
open Word

/-- `struct pte` -/
structure Pte where
  pfn : Paddr
  valid : Bool
  dirty : Bool
  sw : Int
deriving DecidableEq

/-- `pte_create` records that the page is not in the swap file. -/
def pteCreate (pfn : Paddr) (valid dirty : Bool) : Pte :=
  { pfn := pfn, valid := valid, dirty := dirty, sw := -1 }

/-- A page table with one entry for each page of its region. -/
structure PageTable where
  length : Nat
  entry : Nat → Pte

/-- The loops of `as_create` and `as_define_region` create every entry of a new table. -/
def PageTable.create (length : Nat) : PageTable :=
  { length := length, entry := fun _ => pteCreate 0 false false }

/-- A reference to an open file. -/
abbrev Vnode := Nat

/-- The fields of `struct addrspace` that describe one program segment. -/
structure Segment where
  vbase : Vaddr
  npages : Word32
  flag : Word32
  offset : Int
  filesz : Word32
  pt : Option PageTable

/-- `struct addrspace` -/
structure AddrSpace where
  seg1 : Segment
  seg2 : Segment
  vn : Vnode
  pt3 : Option PageTable

/-- `STACKPAGES` and `DUMBVM_STACKPAGES` -/
abbrev stackPages : Nat := 12

abbrev userStack : Vaddr := 0x80000000

/-- The lowest address of the user stack. -/
abbrev stackBase : Vaddr := 0x7fff4000

/-- `PF_R`, `PF_W` and `PF_X` -/
abbrev pfR : Word32 := 4

@[inherit_doc pfR] abbrev pfW : Word32 := 2

@[inherit_doc pfR] abbrev pfX : Word32 := 1

/-- The variable `seg` of `vm_fault` names the page table of the faulting page. -/
inductive Region where
  | first
  | second
  | stack
deriving DecidableEq, Repr

/-- The range check of `vm_fault` computes the end of the segment in 32 bits. -/
def Segment.Contains (segment : Segment) (page : Vaddr) : Prop :=
  segment.vbase ≤ page ∧ page < segment.vbase + segment.npages * 4096#32

instance (segment : Segment) (page : Vaddr) : Decidable (segment.Contains page) :=
  inferInstanceAs (Decidable (_ ∧ _))

/-- `vm_fault` tries the first segment, the second segment and the stack in this order. -/
def AddrSpace.locate (as : AddrSpace) (page : Vaddr) : Option (Region × Nat) :=
  if as.seg1.Contains page then some (.first, ((page - as.seg1.vbase) / 4096#32).toNat)
  else if as.seg2.Contains page then some (.second, ((page - as.seg2.vbase) / 4096#32).toNat)
  else if stackBase ≤ page ∧ page < userStack then
    some (.stack, ((page - stackBase) / 4096#32).toNat)
  else none

/-- The permissions of a region. -/
def AddrSpace.flag (as : AddrSpace) : Region → Word32
  | .first => as.seg1.flag
  | .second => as.seg2.flag
  | .stack => pfR ||| pfW

/-- The page table of a region. -/
def AddrSpace.table (as : AddrSpace) : Region → Option PageTable
  | .first => as.seg1.pt
  | .second => as.seg2.pt
  | .stack => as.pt3

/-- The address space with another table for one region. -/
def AddrSpace.setTable (as : AddrSpace) (table : Option PageTable) : Region → AddrSpace
  | .first => { as with seg1 := { as.seg1 with pt := table } }
  | .second => { as with seg2 := { as.seg2 with pt := table } }
  | .stack => { as with pt3 := table }

/-- A page table access through a null pointer or past the table stops the kernel. -/
def AddrSpace.pteAt (as : AddrSpace) (region : Region) (vpn : Nat) : Kernel Pte :=
  match as.table region with
  | none => .error .nullPointer
  | some table => if vpn < table.length then .ok (table.entry vpn) else .error (.badIndex vpn)

/-- A write through `PTEAddr` changes one entry. -/
def AddrSpace.modifyPte (as : AddrSpace) (region : Region) (vpn : Nat) (change : Pte → Pte) :
    AddrSpace :=
  as.setTable ((as.table region).map fun table =>
    { table with entry := Function.update table.entry vpn (change (table.entry vpn)) }) region

/-- The writes that make an entry valid give it the permissions of its region. -/
def AddrSpace.mapPage (as : AddrSpace) (region : Region) (vpn : Nat) (paddr : Paddr) : AddrSpace :=
  as.modifyPte region vpn fun pte =>
    { pte with pfn := paddr, valid := true, dirty := as.flag region &&& 2 ≠ 0 }

/-- `find_pte` searches without a bound, so a missing frame runs off the table. -/
def findPteLoop (table : PageTable) (pa : Paddr) : (remaining i : Nat) → Kernel Nat
  | 0, i => .error (.badIndex i)
  | remaining + 1, i =>
    if (table.entry i).pfn = pa then .ok i else findPteLoop table pa remaining (i + 1)

def findPte (as : AddrSpace) (pa : Paddr) (region : Region) : Kernel Nat :=
  match as.table region with
  | none => .ok 0
  | some table => findPteLoop table pa table.length 0

/-- The results of the two `kmalloc` calls of `as_create`. A new block keeps the contents that it
had before, and `as_create` does not set every field. -/
structure HeapReply where
  block : Option AddrSpace
  stackTable : Bool

/-- `as_create` does not check the second allocation. -/
def asCreate (heap : HeapReply) : Kernel (Option AddrSpace) :=
  match heap.block with
  | none => .ok none
  | some block =>
    if heap.stackTable then
      .ok (some
        { seg1 := { block.seg1 with vbase := 0, npages := 0, pt := none }
          seg2 := { block.seg2 with vbase := 0, npages := 0, pt := none }
          vn := block.vn
          pt3 := some (PageTable.create stackPages) })
    else .error .nullPointer

/-- `as_copy` copies the bounds of the two segments. `as_prepare_load` does nothing. -/
def asCopy (heap : HeapReply) (old : AddrSpace) : Kernel (Errno × Option AddrSpace) := do
  match ← asCreate heap with
  | none => return (eNoMem, none)
  | some new =>
    return (0, some
      { new with
        seg1 := { new.seg1 with vbase := old.seg1.vbase, npages := old.seg1.npages }
        seg2 := { new.seg2 with vbase := old.seg2.vbase, npages := old.seg2.npages } })

/-- `sizeof(struct pte)`: five 32-bit fields. -/
abbrev pteBytes : Word32 := 20

/-- `alloc_kpages` returns a null pointer when `getppages` refuses the request. -/
def allocKpages (npages : Word32) (s : CoreState) : Kernel (Vaddr × CoreState) := do
  let (pa, s) ← getppages npages .kernel s
  if pa = 0 then return (0, s) else return (pa + 0x80000000#32, s)

/-- The part of `as_define_region` that fills one of the two slots. Entries are created without a
check of the allocation. -/
def Segment.define (segment : Segment) (vaddr : Vaddr) (npages flag : Word32) (s : CoreState) :
    Kernel (Segment × CoreState) := do
  let bytes := npages * pteBytes
  let pnum := if bytes % 4096#32 ≠ 0 then bytes / 4096#32 + 1 else bytes / 4096#32
  let (pt, s) ← allocKpages pnum s
  let segment := { segment with vbase := vaddr, npages := npages, flag := flag }
  if pt = 0 then
    if npages = 0 then return ({ segment with pt := none }, s) else .error .nullPointer
  else return ({ segment with pt := some (PageTable.create npages.toNat) }, s)

/-- `as_define_region` uses a slot as long as its base is zero. -/
def asDefineRegion (as : AddrSpace) (vaddr : Vaddr) (sz readable writeable executable : Word32)
    (s : CoreState) : Kernel (Errno × AddrSpace × CoreState) := do
  let sz := sz + (vaddr &&& ~~~0xfffff000#32)
  let vaddr := pageMask vaddr
  let sz := pageMask (sz + 4096#32 - 1#32)
  let npages := sz / 4096#32
  let flag := readable ||| writeable ||| executable
  if as.seg1.vbase = 0 then
    let (segment, s) ← as.seg1.define vaddr npages flag s
    return (0, { as with seg1 := segment }, s)
  else if as.seg2.vbase = 0 then
    let (segment, s) ← as.seg2.define vaddr npages flag s
    return (0, { as with seg2 := segment }, s)
  else return (eUnimp, as, s)

end Os161.Vm
