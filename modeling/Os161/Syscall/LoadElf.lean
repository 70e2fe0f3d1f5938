import Os161.Vm.Uio

namespace Os161.Syscall
open Word Vm Outcome

/-- A 16-bit field of a big-endian header. -/
def be16 (bytes : List Byte) (position : Nat) : BitVec 16 :=
  bytes.getD position 0 ++ bytes.getD (position + 1) 0

/-- A 32-bit field of a big-endian header. -/
def be32 (bytes : List Byte) (position : Nat) : Word32 :=
  be16 bytes position ++ be16 bytes (position + 2)

/-- The fields of `Elf32_Ehdr` that `load_elf` uses. -/
structure Ehdr where
  ident : List Byte
  etype : BitVec 16
  machine : BitVec 16
  version : Word32
  entry : Word32
  phoff : Word32
  phentsize : BitVec 16
  phnum : BitVec 16
deriving DecidableEq

/-- `sizeof(Elf32_Ehdr)` -/
abbrev ehdrBytes : Nat := 52

/-- The header as it lies in memory after the read. -/
def Ehdr.parse (bytes : List Byte) : Ehdr where
  ident := bytes.take 16
  etype := be16 bytes 16
  machine := be16 bytes 18
  version := be32 bytes 20
  entry := be32 bytes 24
  phoff := be32 bytes 28
  phentsize := be16 bytes 42
  phnum := be16 bytes 44

/-- The file is a 32-bit big-endian executable for this processor. -/
def Ehdr.Accepted (eh : Ehdr) : Prop :=
  eh.ident.getD 0 0 = 0x7f ∧ eh.ident.getD 1 0 = 0x45 ∧ eh.ident.getD 2 0 = 0x4c ∧
    eh.ident.getD 3 0 = 0x46 ∧ eh.ident.getD 4 0 = 1 ∧ eh.ident.getD 5 0 = 2 ∧
    eh.ident.getD 6 0 = 1 ∧ eh.version = 1 ∧ eh.etype = 2 ∧ eh.machine = 8

instance (eh : Ehdr) : Decidable eh.Accepted := inferInstanceAs (Decidable (_ ∧ _))

/-- The fields of `Elf32_Phdr` that `load_elf` uses. -/
structure Phdr where
  ptype : Word32
  offset : Word32
  vaddr : Vaddr
  filesz : Word32
  memsz : Word32
  flags : Word32
deriving DecidableEq

/-- `sizeof(Elf32_Phdr)` -/
abbrev phdrBytes : Nat := 32

/-- The program header as it lies in memory after the read. -/
def Phdr.parse (bytes : List Byte) : Phdr where
  ptype := be32 bytes 0
  offset := be32 bytes 4
  vaddr := be32 bytes 8
  filesz := be32 bytes 16
  memsz := be32 bytes 20
  flags := be32 bytes 24

abbrev ptLoad : Word32 := 1

/-- `PT_NULL`, `PT_PHDR` and `PT_MIPS_REGINFO` are skipped. -/
def Phdr.Skipped (ph : Phdr) : Prop := ph.ptype = 0 ∨ ph.ptype = 6 ∨ ph.ptype = 0x70000000

instance (ph : Phdr) : Decidable ph.Skipped := inferInstanceAs (Decidable (_ ∨ _))

/-- A read of a whole header into kernel memory. A short read reports `ENOEXEC`. -/
def readHeader (files : Files) (vn : Vnode) (offset : Int) (length : Nat) :
    Kernel (Except Errno (List Byte)) := do
  let (result, moved, ku) ← vopRead files vn { offset := offset, resid := length, rw := .read }
  if result ≠ 0 then return .error result
  if ku.resid ≠ 0 then return .error eNoExec
  return .ok moved

/-- The file position of a program header, computed in 32 bits. -/
def Ehdr.phdrOffset (eh : Ehdr) (i : Nat) : Nat :=
  (eh.phoff + BitVec.ofNat 32 i * eh.phentsize.setWidth 32).toNat

/-- The loops of `load_elf` over the program headers share the read and the type switch. -/
def phdrLoop {S : Type} (files : Files) (vn : Vnode) (eh : Ehdr)
    (body : Nat → Phdr → S → Kernel (Errno × S)) : (remaining i : Nat) → S → Kernel (Errno × S)
  | 0, _, state => .ok (0, state)
  | remaining + 1, i, state => do
    match ← readHeader files vn (eh.phdrOffset i) phdrBytes with
    | .error code => return (code, state)
    | .ok bytes =>
      let ph := Phdr.parse bytes
      if ph.Skipped then phdrLoop files vn eh body remaining (i + 1) state
      else if ph.ptype ≠ ptLoad then return (eNoExec, state)
      else
        let (code, state) ← body i ph state
        if code ≠ 0 then return (code, state)
        phdrLoop files vn eh body remaining (i + 1) state

/-- The first loop defines a region for each loadable header. -/
def defineRegion (_ : Nat) (ph : Phdr) (state : AddrSpace × CoreState) :
    Kernel (Errno × AddrSpace × CoreState) :=
  asDefineRegion state.1 ph.vaddr ph.memsz (ph.flags &&& pfR) (ph.flags &&& pfW) (ph.flags &&& pfX)
    state.2

/-- The second loop records the file range of headers 1 and 2 in the first and second slot. -/
def recordSegment (vn : Vnode) (i : Nat) (ph : Phdr) (as : AddrSpace) :
    Kernel (Errno × AddrSpace) :=
  let as :=
    if i = 1 then
      { as with seg1 := { as.seg1 with offset := ph.offset.toNat, filesz := ph.filesz } }
    else if i = 2 then
      { as with seg2 := { as.seg2 with offset := ph.offset.toNat, filesz := ph.filesz } }
    else as
  .ok (0, { as with vn := vn })

/-- `load_elf` returns the entry point on success. -/
def loadElf (files : Files) (vn : Vnode) (as : AddrSpace) (s : CoreState) :
    Kernel (Errno × Option Vaddr × AddrSpace × CoreState) := do
  match ← readHeader files vn 0 ehdrBytes with
  | .error code => return (code, none, as, s)
  | .ok bytes =>
    let eh := Ehdr.parse bytes
    if ¬ eh.Accepted then return (eNoExec, none, as, s)
    let (code, as, s) ← phdrLoop files vn eh defineRegion eh.phnum.toNat 0 (as, s)
    if code ≠ 0 then return (code, none, as, s)
    let (code, as) ← phdrLoop files vn eh (recordSegment vn) eh.phnum.toNat 0 as
    if code ≠ 0 then return (code, none, as, s)
    return (0, some eh.entry, as, s)

/-- `load_segment` without `OPT_A3` reads a whole segment into user memory, which starts as zeros.
The copy to user memory refuses kernel addresses. -/
def loadSegmentEager (files : Files) (vn : Vnode) (_ : Nat) (ph : Phdr) (image : Nat → Byte) :
    Kernel (Errno × (Nat → Byte)) := do
  let filesize := if ph.memsz.toNat < ph.filesz.toNat then ph.memsz.toNat else ph.filesz.toNat
  let (result, moved, u) ← vopRead files vn
    { offset := ph.offset.toNat, resid := filesize, rw := .read }
  if userStack.toNat < ph.vaddr.toNat + moved.length ∧ moved ≠ [] then return (eFault, image)
  let image := Bytes.store ph.vaddr.toNat moved image
  if result ≠ 0 then return (result, image)
  if u.resid ≠ 0 then return (eNoExec, image)
  return (result, image)

/-- The memory that `load_elf` without `OPT_A3` builds after its headers are accepted. -/
def eagerImage (files : Files) (vn : Vnode) : Kernel (Errno × (Nat → Byte)) := do
  match ← readHeader files vn 0 ehdrBytes with
  | .error code => return (code, fun _ => 0)
  | .ok bytes =>
    let eh := Ehdr.parse bytes
    if ¬ eh.Accepted then return (eNoExec, fun _ => 0)
    phdrLoop files vn eh (loadSegmentEager files vn) eh.phnum.toNat 0 fun _ => 0

end Os161.Syscall
