import Os161.Base

namespace Os161.Vm
open Word Function

inductive FrameState where
  | free
  | used
deriving DecidableEq, Repr

inductive FrameOwner where
  | no
  | kernel
  | user
deriving DecidableEq, Repr

/-- `struct coremap` describes one physical frame. -/
structure Coremap where
  pa : Paddr
  state : FrameState
  owner : FrameOwner
  pageNum : Int
deriving DecidableEq

/-- The globals of `coremap.c` and `ram.c` together with the physical memory. -/
structure CoreState where
  coremaps : Nat → Coremap
  coremapSize : Nat
  pageStart : Paddr
  paddrMax : Paddr
  freeaddr : Paddr
  ref : Int
  afterInit : Bool
  pvictim : Paddr
  stealmemLock : Bool
  firstpaddr : Paddr
  lastpaddr : Paddr
  mem : Nat → Byte

/-- `bzero` clears one page of physical memory. -/
def bzeroPage (pa : Paddr) (mem : Nat → Byte) : Nat → Byte :=
  fun address => if pa.toNat ≤ address ∧ address < pa.toNat + pageSize then 0 else mem address

/-- A table access outside the allocated entries is a stray kernel access. -/
def CoreState.coremapAt (s : CoreState) (index : Int) : Kernel Coremap :=
  if 0 ≤ index ∧ index < s.coremapSize then .ok (s.coremaps index.toNat)
  else .error (.badIndex index)

/-- `spinlock_acquire` panics when this processor already holds the lock. -/
def CoreState.spinlockAcquire (s : CoreState) : Kernel CoreState :=
  if s.stealmemLock then .error .deadlock else .ok { s with stealmemLock := true }

def CoreState.spinlockRelease (s : CoreState) : CoreState := { s with stealmemLock := false }

/-- The loop body of `freeppages` frees and clears one frame. -/
def CoreState.freeFrame (s : CoreState) (index : Nat) : CoreState :=
  let frame := s.coremaps index
  { s with
    coremaps := update s.coremaps index
      { frame with state := .free, pageNum := 0, owner := .no }
    mem := bzeroPage frame.pa s.mem }

/-- The loop of `freeppages` runs `i` from its current value to `psize`. -/
def freeLoop (index : Nat) : (remaining i : Nat) → CoreState → Kernel CoreState
  | 0, _, s => .ok s
  | remaining + 1, i, s =>
    if i + index < s.coremapSize then freeLoop index remaining (i + 1) (s.freeFrame (i + index))
    else .error (.badIndex (i + index))

/-- `freeppages` takes the run length from the entry of the first frame. -/
def freeppages (paddr : Paddr) (s : CoreState) : Kernel CoreState := do
  let index := ((paddr - s.pageStart) / 4096#32).toNat
  let frame ← s.coremapAt index
  let s ← s.spinlockAcquire
  let s ← freeLoop index frame.pageNum.toNat 0 s
  return s.spinlockRelease

/-- The search loop of `find_free_frame` returns the last index of the run it found. -/
def scanLoop (coremaps : Nat → Coremap) (npages : Int) :
    (remaining i currentSize : Nat) → Paddr → Option Nat × Paddr
  | 0, _, _, rpa => (none, rpa)
  | remaining + 1, i, currentSize, rpa =>
    if (coremaps i).state = .free then
      let rpa := if currentSize = 0 then (coremaps i).pa else rpa
      if ((currentSize + 1 : Nat) : Int) = npages then (some i, rpa)
      else scanLoop coremaps npages remaining (i + 1) (currentSize + 1) rpa
    else scanLoop coremaps npages remaining (i + 1) 0 rpa

/-- The marking loop stores the run length and the owner in the entry `i` of the last frame. -/
def markLoop (npages : Int) (owner : FrameOwner) (i : Nat) :
    (remaining j : Nat) → (Nat → Coremap) → Nat → Coremap
  | 0, _, coremaps => coremaps
  | remaining + 1, j, coremaps =>
    let marked := update coremaps (i - j) { coremaps (i - j) with state := .used }
    let sized := update marked i { marked i with pageNum := npages, owner := owner }
    markLoop npages owner i remaining (j + 1) sized

/-- The circular search for the next used frame visits every index once before it repeats. -/
def nextUsed (s : CoreState) : (fuel index : Nat) → Kernel Nat
  | 0, _ => .error .endless
  | fuel + 1, index => do
    let index := if s.coremapSize ≤ index then 0 else index
    let frame ← s.coremapAt index
    if frame.state = .used then .ok index else nextUsed s fuel (index + 1)

def findFreeFrame (npages : Int) (owner : FrameOwner) (s : CoreState) :
    Kernel (Paddr × CoreState) :=
  match scanLoop s.coremaps npages s.coremapSize 0 0 0 with
  | (some i, rpa) =>
    .ok (rpa, { s with
      coremaps := markLoop npages owner i npages.toNat 0 s.coremaps
      ref := if s.ref = -1 then i else s.ref })
  | (none, rpa) =>
    if s.afterInit then do
      let victim ← s.coremapAt s.ref
      let s ← freeppages victim.pa { s with pvictim := victim.pa }
      let ref ← nextUsed s (s.coremapSize + 1) s.ref.toNat
      return (victim.pa, { s with ref := ref })
    else .ok (rpa, s)

def CoreState.ramStealmem (npages : Word32) (s : CoreState) : Paddr × CoreState :=
  let size := npages * 4096#32
  if s.lastpaddr < s.firstpaddr + size then (0, s)
  else (s.firstpaddr, { s with firstpaddr := s.firstpaddr + size })

/-- `getppages` converts its unsigned request to the signed argument of `find_free_frame`. -/
def getppages (npages : Word32) (owner : FrameOwner) (s : CoreState) :
    Kernel (Paddr × CoreState) := do
  let s ← s.spinlockAcquire
  let (addr, s) ← if npages = 0 then .ok (0, s) else findFreeFrame npages.toInt owner s
  if npages ≠ 0 ∧ s.paddrMax - 4096#32 ≤ addr then
    return (0, s.spinlockRelease)
  else if addr = 0 ∧ s.afterInit = false then
    let (addr, s) := s.ramStealmem npages
    return (addr, s.spinlockRelease)
  else
    return (addr, s.spinlockRelease)

def initCoremap (freeaddr : Paddr) (s : CoreState) : CoreState :=
  { s with
    pageStart := freeaddr
    coremaps := fun i =>
      if i < s.coremapSize then
        { pa := freeaddr + BitVec.ofNat 32 (i * pageSize), state := .free, owner := .no, pageNum := 0 }
      else s.coremaps i
    afterInit := true
    pvictim := 0 }

/-- `sizeof(struct coremap)`: a pointer and four 32-bit fields. -/
abbrev coremapBytes : Word32 := 20

/-- `vm_bootstrap` places the table at the bottom of the reported memory. The kernel heap calls
that follow `init_coremap` there are ordinary `getppages` requests. -/
def vmBootstrap (s : CoreState) : CoreState :=
  let lo := s.firstpaddr
  let hi := s.lastpaddr
  let pageNum := (hi - lo) / 4096#32
  let table := pageNum * coremapBytes
  let freeaddr :=
    if table % 4096#32 ≠ 0 then lo + (4096#32 + pageMask table) else lo + pageMask table
  initCoremap freeaddr
    { s with
      firstpaddr := 0
      lastpaddr := 0
      freeaddr := freeaddr
      paddrMax := hi
      coremapSize := pageNum.toNat }

/-- The bounds that `ram_getsize` reports are page-aligned, and `ram_bootstrap` caps the memory. -/
structure RamSize where
  lo : Paddr
  hi : Paddr
  loAligned : Aligned lo
  hiAligned : Aligned hi
  nonempty : lo < hi
  capped : hi.toNat ≤ 508 * 1024 * 1024

/-- The static initial values of the globals before `vm_bootstrap`. -/
def beforeBoot (ram : RamSize) (mem : Nat → Byte) : CoreState where
  coremaps := fun _ => { pa := 0, state := .free, owner := .no, pageNum := 0 }
  coremapSize := 0
  pageStart := 0
  paddrMax := 0
  freeaddr := 0
  ref := -1
  afterInit := false
  pvictim := 0
  stealmemLock := false
  firstpaddr := ram.lo
  lastpaddr := ram.hi
  mem := mem

/-- The coremap as `vm_bootstrap` leaves it. -/
def booted (ram : RamSize) (mem : Nat → Byte) : CoreState := vmBootstrap (beforeBoot ram mem)

/-- A caller of the frame allocator requests frames, gives back an address or writes a byte. -/
inductive CoreOp where
  | getppages (npages : Word32) (owner : FrameOwner)
  | freeppages (paddr : Paddr)
  | store (address : Nat) (byte : Byte)
deriving DecidableEq

/-- The allocator with the ghost list of the addresses that callers hold and their sizes. -/
structure CoreConf where
  state : CoreState
  live : List (Paddr × Word32)

/-- Each call returns. Callers free only addresses that they hold and write only to their frames. -/
inductive CoreStep : CoreConf → CoreOp → CoreConf → Prop where
  | getppages {conf : CoreConf} {npages : Word32} {owner : FrameOwner} {addr : Paddr}
      {next : CoreState} (returned : getppages npages owner conf.state = .ok (addr, next)) :
      CoreStep conf (.getppages npages owner)
        ⟨next, if addr = 0 then conf.live else (addr, npages) :: conf.live⟩
  | freeppages {conf : CoreConf} {paddr : Paddr} {npages : Word32} {next : CoreState}
      (held : (paddr, npages) ∈ conf.live) (returned : freeppages paddr conf.state = .ok next) :
      CoreStep conf (.freeppages paddr) ⟨next, conf.live.erase (paddr, npages)⟩
  | store {conf : CoreConf} {paddr : Paddr} {npages : Word32} {address : Nat} {byte : Byte}
      (held : (paddr, npages) ∈ conf.live) (above : paddr.toNat ≤ address)
      (below : address < paddr.toNat + npages.toNat * pageSize) :
      CoreStep conf (.store address byte)
        ⟨{ conf.state with mem := update conf.state.mem address byte }, conf.live⟩

end Os161.Vm
