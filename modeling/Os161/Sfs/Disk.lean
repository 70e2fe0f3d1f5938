import Os161.File.Transfer

namespace Os161.Sfs
open Word Outcome Bytes Function

abbrev eAgain : Errno := 4

/-- The bytes of a block, of which only the first `SFS_BLOCKSIZE` = 512 count. -/
abbrev Block := Nat → Byte

/-- Two blocks hold the same bytes. -/
def Block.Same (left right : Block) : Prop := ∀ offset < 512, left offset = right offset

/-- `struct uio` with one buffer, of which `uio_resid` bytes remain behind the position. The kernel
reaches all of its own memory, but of a user buffer only the first bytes. -/
structure Uio where
  offset : Nat
  resid : Nat
  rw : Vm.UioRw
  buffer : Nat → Byte
  position : Nat
  reach : Option Nat

/-- The next bytes of the buffer can be used. -/
def Uio.reaches (u : Uio) (size : Nat) : Bool :=
  match u.reach with
  | none => true
  | some limit => u.position + size ≤ limit

def Uio.advance (u : Uio) (size : Nat) : Uio :=
  { u with offset := u.offset + size, resid := u.resid - size, position := u.position + size }

/-- `uiomove` between the kernel memory behind `skip` and the buffer. A failed copy moves nothing that
the `uio` counts. -/
def uiomove (ptr : Block) (skip n : Nat) (u : Uio) : Errno × Block × Uio :=
  let size := min n u.resid
  if size = 0 then (0, ptr, u)
  else if u.reaches size = false then (eFault, ptr, u)
  else
    match u.rw with
    | .read => (0, ptr, { u.advance size with buffer := copy ptr skip u.buffer u.position size })
    | .write => (0, copy u.buffer u.position ptr skip size, u.advance size)

/-- How the disk ends a sector operation. A media error may leave anything in a sector that was to be
written. -/
inductive Status where
  | ok
  | invsect
  | media (left : Block)
  | unknown

/-- `lhd_code_to_errno` -/
def Status.errno : Status → Errno
  | .ok => 0
  | .invsect => eInval
  | .media _ => File.eIo
  | .unknown => eAgain

/-- `struct lhd_softc` with the disk behind it: the sectors, the answers to the operations in the order
of their issue, the semaphore `lh_clear` and the buffer on the card. -/
structure Lhd where
  blocks : Word32
  sectors : Word32 → Block
  answers : Nat → Status
  issued : Nat
  clear : Nat
  buf : Block

/-- `P(lh_clear)` by the only thread that uses the disk -/
def Lhd.down (lh : Lhd) : Kernel Lhd :=
  if lh.clear = 0 then .error .deadlock else .ok { lh with clear := lh.clear - 1 }

/-- `V(lh_clear)` -/
def Lhd.up (lh : Lhd) : Lhd := { lh with clear := lh.clear + 1 }

/-- The disk performs one operation between the buffer on the card and a sector. -/
def Lhd.operate (lh : Lhd) (rw : Vm.UioRw) (sector : Word32) : Status × Lhd :=
  let next := { lh with issued := lh.issued + 1 }
  if lh.blocks ≤ sector then (.invsect, next)
  else
    match lh.answers lh.issued, rw with
    | .ok, .write => (.ok, { next with sectors := update lh.sectors sector lh.buf })
    | .ok, .read => (.ok, { next with buf := lh.sectors sector })
    | .media left, .write =>
      (.media left, { next with sectors := update lh.sectors sector left })
    | status, _ => (status, next)

/-- What the copy to or from a user buffer makes the kernel do first. -/
def Uio.touch (touch : Lhd → Kernel Lhd) (u : Uio) (lh : Lhd) : Kernel Lhd :=
  if u.reach.isSome then touch lh else .ok lh

/-- The user buffer is resident, so that its use causes no fault. -/
def resident (lh : Lhd) : Kernel Lhd := .ok lh

/-- One round of the loop of `lhd_io` between `P(lh_clear)` and `V(lh_clear)` -/
def lhdSector (touch : Lhd → Kernel Lhd) (sector : Word32) (lh : Lhd) (u : Uio) :
    Kernel (Errno × Uio × Lhd) :=
  match u.rw with
  | .write => do
    let lh ← u.touch touch lh
    let (result, buf, u) := uiomove lh.buf 0 512 u
    if result ≠ 0 then return (result, u, lh)
    let (status, lh) := { lh with buf := buf }.operate .write sector
    return (status.errno, u, lh)
  | .read => do
    let (status, lh) := lh.operate .read sector
    if status.errno ≠ 0 then return (status.errno, u, lh)
    let lh ← u.touch touch lh
    let (result, _, u) := uiomove lh.buf 0 512 u
    return (result, u, lh)

/-- The loop of `lhd_io` -/
def lhdSectors (touch : Lhd → Kernel Lhd) :
    (len : Nat) → Word32 → Lhd → Uio → Kernel (Errno × Uio × Lhd)
  | 0, _, lh, u => .ok (0, u, lh)
  | len + 1, sector, lh, u => do
    let lh ← lh.down
    let (result, u, lh) ← lhdSector touch sector lh u
    let lh := lh.up
    if result ≠ 0 then return (result, u, lh)
    lhdSectors touch len (sector + 1) lh u

def lhdIo (touch : Lhd → Kernel Lhd) (lh : Lhd) (u : Uio) : Kernel (Errno × Uio × Lhd) :=
  let sector := BitVec.ofNat 32 (u.offset / 512)
  let len := BitVec.ofNat 32 (u.resid / 512)
  if u.offset % 512 ≠ 0 ∨ u.resid % 512 ≠ 0 then .ok (eInval, u, lh)
  else if lh.blocks < sector + len then .ok (eInval, u, lh)
  else lhdSectors touch len.toNat sector lh u

/-- The loop of `sfs_rwblock` with the number of retries that are left -/
def rwblockTries (touch : Lhd → Kernel Lhd) : (retries : Nat) → Lhd → Uio → Kernel (Errno × Uio × Lhd)
  | 0, lh, u => do
    let (result, u, lh) ← lhdIo touch lh u
    if result = eInval then .error (.message "sfs: d_io returned EINVAL\n")
    else return (result, u, lh)
  | retries + 1, lh, u => do
    let (result, u, lh) ← lhdIo touch lh u
    if result = eInval then .error (.message "sfs: d_io returned EINVAL\n")
    else if result = File.eIo then rwblockTries touch retries lh u
    else return (result, u, lh)

/-- `sfs_rwblock` tries an operation eleven times, always with the same `uio`. -/
def sfsRwblock (touch : Lhd → Kernel Lhd) (lh : Lhd) (u : Uio) : Kernel (Errno × Uio × Lhd) :=
  rwblockTries touch 10 lh u

/-- The `uio` describes one whole block of the disk. -/
structure Uio.OneBlock (u : Uio) (block : Word32) : Prop where
  offset : u.offset = block.toNat * 512
  resid : u.resid = 512

/-- The sector operations end well or with a media error. -/
def Lhd.OnlyMedia (lh : Lhd) : Prop :=
  ∀ n, lh.answers n = .ok ∨ ∃ left, lh.answers n = .media left

variable {u : Uio} {block : Word32}

theorem Uio.OneBlock.sector (one : u.OneBlock block) :
    BitVec.ofNat 32 (u.offset / 512) = block := by
  rw [one.offset, Nat.mul_div_cancel _ (by decide), BitVec.ofNat_toNat, BitVec.setWidth_eq]

theorem Uio.OneBlock.lhdIo_eq (one : u.OneBlock block) (touch : Lhd → Kernel Lhd) (lh : Lhd) :
    lhdIo touch lh u =
      if lh.blocks < block + 1 then .ok (eInval, u, lh) else lhdSectors touch 1 block lh u := by
  have aligned : ¬ (u.offset % 512 ≠ 0 ∨ u.resid % 512 ≠ 0) := by
    rw [one.offset, one.resid, Nat.mul_mod_left]
    decide
  have single : BitVec.ofNat 32 (u.resid / 512) = 1 := by
    rw [one.resid]
    rfl
  simp only [lhdIo, if_neg aligned, one.sector, single]
  rfl

theorem Uio.OneBlock.uiomove_eq (one : u.OneBlock block) (ptr : Block) :
    uiomove ptr 0 512 u =
      if u.reaches 512 = false then (eFault, ptr, u)
      else
        match u.rw with
        | .read =>
          (0, ptr, { u.advance 512 with
            buffer := copy ptr 0 u.buffer u.position 512 })
        | .write => (0, copy u.buffer u.position ptr 0 512, u.advance 512) := by
  simp only [uiomove, one.resid]
  rfl

/-- The bytes that a write takes from the buffer. -/
def Uio.source (u : Uio) : Block := fun offset => u.buffer (u.position + offset)

variable {lh : Lhd}

theorem lhdIo_consumed (offset : u.offset = block.toNat * 512 + 512) (resid : u.resid = 0)
    (touch : Lhd → Kernel Lhd) (inside : ¬ lh.blocks < block + 1) :
    lhdIo touch lh u = .ok (0, u, lh) := by
  have next : BitVec.ofNat 32 (u.offset / 512) = block + 1 := by
    rw [offset, ← Nat.succ_mul, Nat.mul_div_cancel _ (by decide), Nat.succ_eq_add_one,
      BitVec.ofNat_add, BitVec.ofNat_toNat]
    rfl
  have aligned : ¬ (u.offset % 512 ≠ 0 ∨ u.resid % 512 ≠ 0) := by
    rw [offset, resid, ← Nat.succ_mul, Nat.mul_mod_left]
    decide
  have none : BitVec.ofNat 32 (u.resid / 512) = 0#32 := by
    rw [resid]
  simp only [lhdIo, if_neg aligned, next, none, BitVec.add_zero, if_neg inside]
  rfl

/-- What one attempt to write a block does on a disk that has no error but media errors. -/
inductive WriteTry (lh : Lhd) (u : Uio) (block : Word32) : Errno → Uio → Lhd → Prop where
  | invalid : WriteTry lh u block eInval u lh'
  | consumed : WriteTry lh u block eInval (u.advance 512) lh'
  | fault : WriteTry lh u block eFault u lh'
  | done {lh' : Lhd} (answer : lh.answers lh.issued = .ok)
      (held : (lh'.sectors block).Same u.source) : WriteTry lh u block 0 (u.advance 512) lh'
  | failed {lh' : Lhd} {left : Block} (answer : lh.answers lh.issued = .media left)
      (held : lh'.sectors block = left) (inside : ¬ lh'.blocks < block + 1) :
      WriteTry lh u block File.eIo (u.advance 512) lh'

theorem lhdIo_write (one : u.OneBlock block) (write : u.rw = .write) (clear : lh.clear ≠ 0)
    (media : lh.OnlyMedia) :
    ∃ res u' lh', lhdIo resident lh u = .ok (res, u', lh') ∧ WriteTry lh u block res u' lh' := by
  rw [one.lhdIo_eq]
  by_cases inside : lh.blocks < block + 1
  · rw [if_pos inside]
    exact ⟨_, _, _, rfl, .invalid⟩
  rw [if_neg inside]
  have moved := one.uiomove_eq lh.buf
  by_cases run : u.reaches 512 = false
  · rw [if_pos run] at moved
    simp only [lhdSectors, Lhd.down, if_neg clear, ok_bind, lhdSector, write, Uio.touch, resident,
      ite_self, moved]
    exact ⟨_, _, _, rfl, .fault⟩
  rw [if_neg run] at moved
  simp only [lhdSectors, Lhd.down, if_neg clear, ok_bind, lhdSector, write, Uio.touch, resident,
    ite_self, moved, Lhd.operate]
  by_cases beyond : lh.blocks ≤ block
  · simp only [if_pos beyond]
    exact ⟨_, _, _, rfl, .consumed⟩
  simp only [if_neg beyond]
  rcases media lh.issued with answer | ⟨left, answer⟩
  · simp only [answer]
    refine ⟨_, _, _, rfl, .done answer ?_⟩
    intro offset small
    have byte := copy_inside u.buffer u.position lh.buf 0 small
    rw [Nat.zero_add] at byte
    simpa only [Lhd.up, Uio.source, update_self] using byte
  · simp only [answer]
    refine ⟨_, _, _, rfl, .failed answer ?_ inside⟩
    simp [Lhd.up]

theorem sfsRwblock_write (one : u.OneBlock block) (write : u.rw = .write) (clear : lh.clear ≠ 0)
    (media : lh.OnlyMedia) (ran : sfsRwblock resident lh u = .ok (0, u', lh')) :
    (lh.answers lh.issued = .ok ∧ (lh'.sectors block).Same u.source) ∨
      ∃ left, lh.answers lh.issued = .media left ∧ lh'.sectors block = left := by
  obtain ⟨res, v, middle, attempt, tried⟩ := lhdIo_write one write clear media
  rw [sfsRwblock, rwblockTries, attempt, ok_bind] at ran
  cases tried with
  | invalid | consumed | fault => simp at ran
  | done answer held =>
    cases ran
    exact .inl ⟨answer, held⟩
  | failed answer held inside =>
    have consumed : lhdIo resident middle (u.advance 512) =
        .ok (0, u.advance 512, middle) :=
      lhdIo_consumed (by rw [Uio.advance, one.offset])
        (by rw [Uio.advance, one.resid]) _ inside
    change rwblockTries resident 9 middle (u.advance 512) = _ at ran
    rw [rwblockTries, consumed] at ran
    cases ran
    exact .inr ⟨_, answer, held⟩

theorem lhdIo_read (one : u.OneBlock block) (read : u.rw = .read) (clear : lh.clear ≠ 0)
    (media : lh.OnlyMedia) :
    ∃ res u' lh', lhdIo resident lh u = .ok (res, u', lh') ∧ lh'.clear ≠ 0 ∧ lh'.OnlyMedia ∧
      (res = 0 ∧ (lh'.sectors block).Same (fun i => u'.buffer (u.position + i)) ∨
        res ≠ 0 ∧ u' = u) := by
  rw [one.lhdIo_eq]
  by_cases inside : lh.blocks < block + 1
  · rw [if_pos inside]
    exact ⟨_, _, _, rfl, clear, media, .inr ⟨by decide, rfl⟩⟩
  rw [if_neg inside]
  simp only [lhdSectors, Lhd.down, if_neg clear, ok_bind, lhdSector, read, Lhd.operate]
  by_cases beyond : lh.blocks ≤ block
  · simp only [if_pos beyond]
    exact ⟨_, _, _, rfl, Nat.succ_ne_zero _, media, .inr ⟨Nat.succ_ne_zero 7, rfl⟩⟩
  simp only [if_neg beyond]
  rcases media lh.issued with answer | ⟨left, answer⟩
  · have moved := one.uiomove_eq (lh.sectors block)
    simp only [read] at moved
    simp only [answer, Status.errno, ne_eq, not_true, if_false, Uio.touch, resident, ite_self, ok_bind,
      moved, pure_ok]
    by_cases run : u.reaches 512 = false
    · simp only [if_pos run]
      exact ⟨_, _, _, rfl, Nat.succ_ne_zero _, media, .inr ⟨by decide, rfl⟩⟩
    · simp only [if_neg run]
      refine ⟨_, _, _, rfl, Nat.succ_ne_zero _, media, .inl ⟨rfl, ?_⟩⟩
      intro offset small
      have byte := copy_inside (lh.sectors block) 0 u.buffer u.position small
      rw [Nat.zero_add] at byte
      exact byte.symm
  · simp only [answer]
    exact ⟨_, _, _, rfl, Nat.succ_ne_zero _, media, .inr ⟨Nat.succ_ne_zero 31, rfl⟩⟩

theorem rwblockTries_read (one : u.OneBlock block) (read : u.rw = .read) (clear : lh.clear ≠ 0)
    (media : lh.OnlyMedia) (ran : rwblockTries resident retries lh u = .ok (0, u', lh')) :
    (lh'.sectors block).Same fun i => u'.buffer (u.position + i) := by
  induction retries generalizing lh with
  | zero =>
    obtain ⟨res, v, middle, attempt, _, _, filled | ⟨failed, rfl⟩⟩ := lhdIo_read one read clear media
    · simp only [rwblockTries, attempt, filled.1] at ran
      cases ran
      exact filled.2
    · simp only [rwblockTries, attempt, ok_bind] at ran
      split at ran
      · cases ran
      · cases ran
        exact absurd rfl failed
  | succ retries ih =>
    obtain ⟨res, v, middle, attempt, clear, media, filled | ⟨failed, rfl⟩⟩ :=
      lhdIo_read one read clear media
    · simp only [rwblockTries, attempt, filled.1] at ran
      cases ran
      exact filled.2
    · simp only [rwblockTries, attempt, ok_bind] at ran
      split at ran
      · cases ran
      · split at ran
        · exact ih clear media ran
        · cases ran
          exact absurd rfl failed

/-- The transfer of a block has happened: the sector holds the bytes of the caller, or the caller's
buffer holds the bytes of the sector. -/
def Transferred (lh' : Lhd) (u u' : Uio) (block : Word32) : Prop :=
  match u.rw with
  | .write => (lh'.sectors block).Same u.source
  | .read => (lh'.sectors block).Same fun i => u'.buffer (u.position + i)

/-- The first attempt to write does not fail, or it fails and still leaves the right bytes. -/
def Lhd.WritesFirst (lh : Lhd) (u : Uio) : Prop :=
  match lh.answers lh.issued with
  | .media left => left.Same u.source
  | _ => True

/-- A successful transfer moved its block exactly when a write succeeds at once. -/
theorem rwblock_success_iff {lh lh' : Lhd} {u u' : Uio} {block : Word32} (one : u.OneBlock block)
    (clear : lh.clear ≠ 0) (media : lh.OnlyMedia)
    (returned : sfsRwblock resident lh u = .ok (0, u', lh')) :
    Transferred lh' u u' block ↔ (u.rw = .write → lh.WritesFirst u) := by
  cases direction : u.rw with
  | read =>
    simp only [Transferred, direction]
    exact iff_of_true (rwblockTries_read one direction clear media returned) nofun
  | write =>
    simp only [Transferred, direction, forall_const, Lhd.WritesFirst]
    rcases sfsRwblock_write one direction clear media returned with ⟨answer, held⟩ | ⟨left, answer, held⟩
    · simp only [answer]
      exact iff_of_true held trivial
    · simp only [answer, held]

/-- A disk of four blocks of zeros. -/
def zeroDisk (answers : Nat → Status) : Lhd where
  blocks := 4
  sectors := fun _ _ => 0
  answers := answers
  issued := 0
  clear := 1
  buf := fun _ => 0

/-- The request to write a block of ones to block 2. -/
def writeOnes : Uio where
  offset := 1024
  resid := 512
  rw := .write
  buffer := fun _ => 1
  position := 0
  reach := none

theorem rwblock_success_healthy : ∃ u' lh',
    sfsRwblock resident (zeroDisk fun _ => .ok) writeOnes = .ok (0, u', lh') ∧
      Transferred lh' writeOnes u' 2 := by
  have media : (zeroDisk fun _ => .ok).OnlyMedia := fun _ => .inl rfl
  have clear : (zeroDisk fun _ => .ok).clear ≠ 0 := Nat.one_ne_zero
  have one : writeOnes.OneBlock 2 := ⟨rfl, rfl⟩
  exact ⟨_, _, rfl, (rwblock_success_iff one clear media rfl).mpr fun _ => trivial⟩

/-- The disk fails its first operation and leaves the sector alone. -/
def flakyAnswers : Nat → Status
  | 0 => .media fun _ => 0
  | _ + 1 => .ok

/-- The write reports success, and the sector still holds zeros. -/
theorem rwblock_success_lost : ∃ u' lh',
    sfsRwblock resident (zeroDisk flakyAnswers) writeOnes = .ok (0, u', lh') ∧
      ¬ Transferred lh' writeOnes u' 2 := by
  refine ⟨_, _, rfl, ?_⟩
  intro transferred
  have byte := transferred 0 (by decide)
  exact absurd byte (by decide)

end Os161.Sfs
