import Os161.Vm.Uio

namespace Os161.Vm
open Word Function

abbrev numTlb : Nat := 64

/-- `TLBLO_DIRTY` and `TLBLO_VALID` -/
abbrev tlbloDirty : Word32 := 0x400

@[inherit_doc tlbloDirty] abbrev tlbloValid : Word32 := 0x200

/-- One slot of the translation buffer. -/
structure TlbEntry where
  ehi : Word32
  elo : Word32
deriving DecidableEq

/-- The slot holds a translation. -/
def TlbEntry.Valid (entry : TlbEntry) : Prop := entry.elo &&& tlbloValid ≠ 0

instance (entry : TlbEntry) : Decidable entry.Valid := inferInstanceAs (Decidable (¬ _))

/-- The slot allows writes. -/
def TlbEntry.Dirty (entry : TlbEntry) : Prop := entry.elo &&& tlbloDirty ≠ 0

instance (entry : TlbEntry) : Decidable entry.Dirty := inferInstanceAs (Decidable (¬ _))

/-- The interrupt priority levels. -/
inductive Ipl where
  | none
  | high
deriving DecidableEq, Repr

/-- The state of the processor and of the kernel globals that the fault handler uses. -/
structure Machine where
  core : CoreState
  tlb : Nat → TlbEntry
  nextVictim : Nat
  curspl : Ipl
  stats : Nat → Word32
  swapPartition : Nat → Bool

def Machine.tlbWrite (m : Machine) (ehi elo : Word32) (slot : Nat) : Machine :=
  { m with tlb := update m.tlb slot { ehi := ehi, elo := elo } }

def Machine.vmstatsInc (m : Machine) (index : Nat) : Machine :=
  { m with stats := update m.stats index (m.stats index + 1) }

/-- `splhigh` returns the old level. -/
def Machine.splhigh (m : Machine) : Ipl × Machine := (m.curspl, { m with curspl := .high })

def Machine.splx (m : Machine) (spl : Ipl) : Machine := { m with curspl := spl }

/-- The machine with other contents of physical memory. -/
def Machine.setMem (m : Machine) (mem : Nat → Byte) : Machine :=
  { m with core := { m.core with mem := mem } }

def Machine.tlbGetRrVictim (m : Machine) : Nat × Machine :=
  (m.nextVictim, { m with nextVictim := (m.nextVictim + 1) % numTlb })

/-- The outcome of the search loop over the translation buffer. -/
inductive Probe where
  | hit
  | free (slot : Nat)
  | full
deriving DecidableEq, Repr

/-- The search loop of `vm_fault` stops at a matching entry and at the first invalid slot. -/
def probe (tlb : Nat → TlbEntry) (page : Vaddr) : (remaining i : Nat) → Probe
  | 0, _ => .full
  | remaining + 1, i =>
    if (tlb i).Valid then
      if (tlb i).ehi = page then .hit else probe tlb page remaining (i + 1)
    else .free i

def tlbhiInvalid (slot : Nat) : Word32 := BitVec.ofNat 32 ((0x80000 + slot) * 4096)

/-- The loop of `as_activate` writes an invalid entry to each slot. -/
def invalidateLoop : (remaining i : Nat) → Machine → Machine
  | 0, _, m => m
  | remaining + 1, i, m => invalidateLoop remaining (i + 1) (m.tlbWrite (tlbhiInvalid i) 0 i)

/-- `as_activate` does nothing for a thread without an address space. -/
def asActivate (current : Option AddrSpace) (m : Machine) : Machine :=
  match current with
  | none => m
  | some _ =>
    let (spl, m) := m.splhigh
    let m := m.vmstatsInc 3
    let m := invalidateLoop numTlb 0 m
    m.splx spl

end Os161.Vm
