import Os161.File.OpenFile

namespace Os161.File
open Word Vm Outcome Syscall Transition List Function

abbrev eIo : Errno := 32
abbrev eNoSpc : Errno := 36

/-- What `sys_read` and `sys_write` share: the handle, the buffer, the allocations of `as_create`, the
answers for the console, the offset that they find for it and the contents of their uninitialised
vnode pointer. -/
structure IoCall where
  fd : Int
  buf : Vaddr
  heap : HeapReply
  console : VfsEnv
  consoleOffset : Int
  stray : Option Vnode

structure ReadCall extends IoCall where
  buflen : Nat
  files : Files

/-- A call of `sys_write` with the bytes in the buffer. The file system writes some of them. -/
structure WriteCall extends IoCall where
  bytes : List Byte
  written : Vnode → (offset : Int) → (bytes : List Byte) → Nat

/-- The bytes that `VOP_READ` or `VOP_WRITE` has moved, and where in the file. -/
structure Transfer where
  start : Int
  moved : List Byte
deriving DecidableEq

/-- The position behind the transfer. -/
def Transfer.stop (t : Transfer) : Int := t.start + t.moved.length

/-- The check of the buffer. -/
def IoCall.badBuffer (call : IoCall) (as : AddrSpace) : Bool :=
  call.buf = 0 ∨ Filesystem.validAddressCheck as call.buf = false

/-- `VOP_READ` and the rest of `sys_read`. Its result is not negative. -/
def readVnode (call : ReadCall) (vn : Vnode) (offset : Int) (f : FileState) :
    Kernel (FileReply × Option Transfer × FileState) := do
  let (retval, moved, u) ← vopRead call.files vn
    { offset := offset, resid := call.buflen, rw := .read }
  if (retval : Int) < 0 then return (.failed eIo, some ⟨offset, moved⟩, f)
  return (.returned (call.buflen - u.resid), some ⟨offset, moved⟩, f)

/-- The console is opened for every call and never closed. -/
def openConsole (call : IoCall) (openflags : Word32) (f : FileState) : Kernel (Vnode × FileState) := do
  let (_, vn, vnodes) ← vfsOpen call.console openflags call.stray f.vnodes
  match vn with
  | none => .error (.message "vnode_check: null vnode")
  | some vn => return (vn, { f with vnodes := vnodes })

/-- `sys_read` does not change the offset of the descriptor. For handle 0 the source reads an offset through an
uninitialised pointer, which is taken to answer with any value. -/
def sysRead (call : ReadCall) (as : AddrSpace) (d : Descriptors) (f : FileState) :
    Kernel (FileReply × Option Transfer × FileState) := do
  if call.badBuffer as then return (.failed eFault, none, f)
  if call.fd < 0 ∨ maxFdTable ≤ call.fd then return (.failed eBadf, none, f)
  if call.fd = 1 ∨ call.fd = 2 then return (.failed eIo, none, f)
  if call.fd = 0 then
    let _ ← asCreate call.heap
    let (vn, f) ← openConsole call.toIoCall 0 f
    readVnode call vn call.consoleOffset f
  else
    match d.fdTable call.fd.toNat with
    | none => return (.failed eBadf, none, f)
    | some ref =>
      let tmp ← f.fetch ref
      if tmp.fileFlag &&& oWronly ≠ 0 then return (.failed eBadf, none, f)
      let _ ← asCreate call.heap
      readVnode call tmp.file tmp.offset f

/-- The bytes that `VOP_WRITE` moves. -/
def WriteCall.moved (call : WriteCall) (vn : Vnode) (offset : Int) : List Byte :=
  call.bytes.take (call.written vn offset call.bytes)

/-- `sys_write` moves the offset of the descriptor only behind a complete transfer. -/
def sysWrite (call : WriteCall) (as : AddrSpace) (d : Descriptors) (f : FileState) :
    Kernel (FileReply × Option Transfer × FileState) := do
  if call.badBuffer as then return (.failed eFault, none, f)
  if call.fd < 0 ∨ maxFdTable ≤ call.fd then return (.failed eBadf, none, f)
  if call.fd = 0 then return (.failed eIo, none, f)
  if call.fd = 1 ∨ call.fd = 2 then
    let _ ← asCreate call.heap
    let (vn, f) ← openConsole call.toIoCall oWronly f
    let moved := call.moved vn call.consoleOffset
    return (.returned moved.length, some ⟨call.consoleOffset, moved⟩, f)
  else
    match d.fdTable call.fd.toNat with
    | none => return (.failed eBadf, none, f)
    | some ref =>
      let tmp ← f.fetch ref
      if ¬ (tmp.fileFlag &&& oAccmode = 1 ∨ tmp.fileFlag &&& oAccmode = 2) then
        return (.failed eBadf, none, f)
      let _ ← asCreate call.heap
      let moved := call.moved tmp.file tmp.offset
      let resid := call.bytes.length - moved.length
      if resid ≠ 0 then return (.failed eNoSpc, some ⟨tmp.offset, moved⟩, f)
      let count := call.bytes.length - resid
      let tmp' := { tmp with
        offset := tmp.offset + count
        buflen := tmp.buflen + BitVec.ofNat 32 count }
      return (.returned count, some ⟨tmp.offset, moved⟩,
        { f with fds := update f.fds ref (some tmp') })

/-- The bytes that `VOP_READ` moves. -/
def ReadCall.moved (call : ReadCall) (vn : Vnode) (offset : Int) : List Byte :=
  (call.files.read vn offset call.buflen).data.take call.buflen

theorem readVnode_eq (call : ReadCall) (vn : Vnode) (offset : Int) (f : FileState) :
    readVnode call vn offset f = .ok
      (.returned (call.moved vn offset).length, some ⟨offset, call.moved vn offset⟩, f) := by
  have count : (call.moved vn offset).length ≤ call.buflen := length_take_le ..
  have nonnegative : ¬ ((call.files.read vn offset call.buflen).result : Int) < 0 := by omega
  exact congrArg (fun moved => Except.ok (FileReply.returned moved, _, f)) (Nat.sub_sub_self count)

/-- The handle belongs to an open file of the process. -/
structure OpenHandle (d : Descriptors) (fd : Int) (ref : FdRef) : Prop where
  low : 3 ≤ fd
  high : fd < maxFdTable
  held : d.fdTable fd.toNat = some ref

/-- The access mode is `O_RDWR`. -/
def Fd.ReadWrite (fd : Fd) : Prop := fd.fileFlag &&& oAccmode = 2

theorem Fd.ReadWrite.readable {fd : Fd} (mode : fd.ReadWrite) : fd.fileFlag &&& oWronly = 0 := by
  have masked : fd.fileFlag &&& oAccmode &&& oWronly = 0 := by
    rw [show fd.fileFlag &&& oAccmode = 2 from mode]
    rfl
  rwa [BitVec.and_assoc] at masked

theorem sysRead_handle {call : ReadCall} {f : FileState} (handle : OpenHandle d call.fd ref)
    (allocated : f.fds ref = some fd) (mode : fd.ReadWrite) (as : AddrSpace) :
    sysRead call as d f =
      if call.badBuffer as then .ok (.failed eFault, none, f)
      else asCreate call.heap >>= fun _ =>
        .ok (.returned (call.moved fd.file fd.offset).length,
          some ⟨fd.offset, call.moved fd.file fd.offset⟩, f) := by
  have low := handle.low
  have high := handle.high
  have fetched := FileState.fetch_ok.mpr allocated
  unfold sysRead
  by_cases bad : call.badBuffer as = true
  · rw [if_pos bad, if_pos bad]
    rfl
  · rw [if_neg bad, if_neg bad, if_neg (by omega), if_neg (by omega), if_neg (by omega)]
    simp only [handle.held, fetched, ok_bind, mode.readable, ne_eq, not_true_eq_false, if_false,
      readVnode_eq]

/-- The descriptor behind a complete write. -/
def Fd.advance (fd : Fd) (count : Nat) : Fd :=
  { fd with offset := fd.offset + count, buflen := fd.buflen + BitVec.ofNat 32 count }

/-- A complete write of an open file advances the offset of its descriptor. -/
theorem sysWrite_handle {call : WriteCall} {f : FileState} (handle : OpenHandle d call.fd ref)
    (allocated : f.fds ref = some fd) (mode : fd.ReadWrite) (as : AddrSpace) :
    sysWrite call as d f =
      if call.badBuffer as then .ok (.failed eFault, none, f)
      else asCreate call.heap >>= fun _ =>
        if (call.moved fd.file fd.offset).length < call.bytes.length then
          .ok (.failed eNoSpc, some ⟨fd.offset, call.moved fd.file fd.offset⟩, f)
        else .ok (.returned call.bytes.length, some ⟨fd.offset, call.moved fd.file fd.offset⟩,
          { f with fds := update f.fds ref (some (fd.advance call.bytes.length)) }) := by
  have low := handle.low
  have high := handle.high
  have fetched := FileState.fetch_ok.mpr allocated
  have access : fd.fileFlag &&& oAccmode = 1 ∨ fd.fileFlag &&& oAccmode = 2 := .inr mode
  unfold sysWrite
  by_cases bad : call.badBuffer as = true
  · rw [if_pos bad, if_pos bad]
    rfl
  · rw [if_neg bad, if_neg bad, if_neg (by omega), if_neg (by omega), if_neg (by omega)]
    simp only [handle.held, fetched, ok_bind, access]
    refine congrArg (asCreate call.heap >>= ·) (funext fun _ => ?_)
    by_cases short : (call.moved fd.file fd.offset).length < call.bytes.length
    · rw [if_pos short, if_pos (by omega)]
      rfl
    · have complete : call.bytes.length - (call.moved fd.file fd.offset).length = 0 := by omega
      rw [if_neg short, complete]
      rfl

/-- A call on a handle. -/
inductive TransferOp where
  | read (call : ReadCall)
  | write (call : WriteCall)

def TransferOp.fd : TransferOp → Int
  | .read call => call.fd
  | .write call => call.fd

def TransferOp.run : TransferOp → AddrSpace → Descriptors → FileState →
    Kernel (FileReply × Option Transfer × FileState)
  | .read call => sysRead call
  | .write call => sysWrite call

/-- The files of the kernel, and the position in a file where the last call on its handle stopped. -/
structure Progress where
  files : FileState
  position : Int

/-- The position behind a call. -/
def Progress.after (position : Int) : Option Transfer → Int
  | none => position
  | some transfer => transfer.stop

/-- One call on the handle that returns. -/
def TransferStep (as : AddrSpace) (d : Descriptors) (handle : Int) (s : Progress) (op : TransferOp)
    (next : Progress) : Prop :=
  op.fd = handle ∧ ∃ reply transfer, op.run as d s.files = .ok (reply, transfer, next.files) ∧
    next.position = Progress.after s.position transfer

/-- The descriptor stands where the last call has stopped. -/
def Progress.Sequential (s : Progress) (ref : FdRef) : Prop :=
  ∃ fd, s.files.fds ref = some fd ∧ fd.ReadWrite ∧ fd.offset = s.position

/-- The call moves no byte, or it is a write that moves all bytes. -/
def TransferOp.Safe (op : TransferOp) (as : AddrSpace) (fd : Fd) : Prop :=
  match op with
  | .read call => call.badBuffer as = false → call.moved fd.file fd.offset = []
  | .write call => call.badBuffer as = false →
      call.moved fd.file fd.offset = [] ∨ call.moved fd.file fd.offset = call.bytes

/-- A step that meets the condition. -/
structure SafeTransferStep (as : AddrSpace) (d : Descriptors) (handle : Int) (ref : FdRef)
    (s : Progress) (op : TransferOp) (next : Progress) : Prop where
  step : TransferStep as d handle s op next
  safe : ∀ fd, s.files.fds ref = some fd → op.Safe as fd

theorem Progress.sequential_iff {files : FileState} {pos : Int} {ref : FdRef} {fd : Fd}
    (allocated : files.fds ref = some fd) (mode : fd.ReadWrite) :
    (Progress.mk files pos).Sequential ref ↔ fd.offset = pos := by
  constructor
  · rintro ⟨other, again, _, offset⟩
    cases allocated.symm.trans again
    exact offset
  · intro offset
    exact ⟨fd, allocated, mode, offset⟩

theorem WriteCall.moved_complete {call : WriteCall}
    (complete : ¬ (call.moved vn offset).length < call.bytes.length) : call.moved vn offset = call.bytes := by
  rw [WriteCall.moved, length_take] at complete
  exact take_of_length_le (by omega)

section

variable {as : AddrSpace} {d : Descriptors} {handle : Int} {ref : FdRef}
  (opened : OpenHandle d handle ref)
include opened

theorem Progress.Sequential.start {s : Progress} (sequential : s.Sequential ref) {op : TransferOp}
    (here : op.fd = handle) {reply : FileReply} {transfer : Transfer} {after : FileState}
    (ran : op.run as d s.files = .ok (reply, some transfer, after)) :
    transfer.start = s.position := by
  obtain ⟨fd, allocated, mode, offset⟩ := sequential
  subst here
  cases op with
  | read call =>
    have effect := (sysRead_handle opened allocated mode as).symm.trans ran
    split at effect
    · cases effect
    · obtain ⟨_, _, same⟩ := bind_ok.mp effect
      cases same
      exact offset
  | write call =>
    have effect := (sysWrite_handle opened allocated mode as).symm.trans ran
    split at effect
    · cases effect
    · obtain ⟨_, _, same⟩ := bind_ok.mp effect
      split at same
      · cases same
        exact offset
      · cases same
        exact offset

theorem TransferStep.sequential_iff {s next : Progress} {op : TransferOp}
    (step : TransferStep as d handle s op next) {fd : Fd} (allocated : s.files.fds ref = some fd)
    (mode : fd.ReadWrite) (offset : fd.offset = s.position) :
    next.Sequential ref ↔ op.Safe as fd := by
  obtain ⟨rfl, reply, transfer, ran, pos⟩ := step
  obtain ⟨files, stop⟩ := next
  subst pos
  -- a call that keeps the descriptor stops at its offset exactly when it has moved nothing
  have stays (moved : List Byte) :
      (Progress.mk s.files (Progress.after s.position (some ⟨fd.offset, moved⟩))).Sequential ref ↔
        moved = [] := by
    rw [Progress.sequential_iff allocated mode, ← length_eq_zero_iff]
    change fd.offset = fd.offset + moved.length ↔ _
    omega
  cases op with
  | read call =>
    have effect := (sysRead_handle opened allocated mode as).symm.trans ran
    split at effect
    · rename_i bad
      cases effect
      exact iff_of_true ⟨fd, allocated, mode, offset⟩ fun good => absurd (bad.symm.trans good) (by decide)
    · rename_i good
      obtain ⟨_, _, same⟩ := bind_ok.mp effect
      cases same
      rw [stays]
      exact ⟨fun nothing _ => nothing, fun safe => safe (Bool.eq_false_of_not_eq_true good)⟩
  | write call =>
    have effect := (sysWrite_handle opened allocated mode as).symm.trans ran
    split at effect
    · rename_i bad
      cases effect
      exact iff_of_true ⟨fd, allocated, mode, offset⟩ fun good => absurd (bad.symm.trans good) (by decide)
    · rename_i good
      obtain ⟨_, _, same⟩ := bind_ok.mp effect
      split at same
      · rename_i short
        cases same
        rw [stays]
        refine ⟨fun nothing _ => .inl nothing, fun safe => ?_⟩
        obtain nothing | all := safe (Bool.eq_false_of_not_eq_true good)
        · exact nothing
        · rw [all] at short
          exact absurd short (Nat.lt_irrefl _)
      · rename_i complete
        have all := WriteCall.moved_complete complete
        cases same
        refine iff_of_true ⟨_, update_self .., mode, ?_⟩ fun _ => .inr all
        rw [all]
        rfl

end

/-- Two reads one after the other move the same bytes as one read of both lengths. -/
def ReadsTogether (call : ReadCall) (as : AddrSpace) (d : Descriptors) (f : FileState) (n₁ n₂ : Nat) :
    Prop :=
  ∃ first second whole middle, (∃ reply, sysRead { call with buflen := n₁ } as d f =
      .ok (reply, some first, middle)) ∧
    (∃ reply after, sysRead { call with buflen := n₂ } as d middle = .ok (reply, some second, after)) ∧
    (∃ reply after, sysRead { call with buflen := n₁ + n₂ } as d f = .ok (reply, some whole, after)) ∧
    first.moved ++ second.moved = whole.moved

theorem readsTogether_iff {call : ReadCall} {as : AddrSpace} {d : Descriptors} {f : FileState}
    {ref : FdRef} {fd : Fd} (handle : OpenHandle d call.fd ref) (allocated : f.fds ref = some fd)
    (mode : fd.ReadWrite) (good : call.badBuffer as = false) {space : Option AddrSpace}
    (memory : asCreate call.heap = .ok space) {file : List Byte}
    (honest : call.files.Honest fd.file file) {pos : Nat} (offset : fd.offset = pos) :
    (∀ n₁ n₂, ReadsTogether call as d f n₁ n₂) ↔ file.length ≤ pos := by
  have read (n : Nat) : sysRead { call with buflen := n } as d f =
      .ok (.returned ((file.drop pos).take n).length,
        some ⟨fd.offset, (file.drop pos).take n⟩, f) := by
    have moved : ReadCall.moved { call with buflen := n } fd.file fd.offset =
        (file.drop pos).take n := by
      simp only [ReadCall.moved, offset, honest pos n, take_take, Nat.min_self]
    have here : OpenHandle d ({ call with buflen := n } : ReadCall).fd ref := handle
    have effect := sysRead_handle here allocated mode as
    rw [moved, if_neg (by simpa using good), memory] at effect
    exact effect
  constructor
  · intro together
    obtain ⟨first, second, whole, middle, ⟨_, one⟩, ⟨_, _, two⟩, ⟨_, _, both⟩, same⟩ :=
      together (file.drop pos).length (file.drop pos).length
    rw [read] at one both
    cases one
    cases both
    rw [read] at two
    cases two
    have lengths := congrArg List.length same
    simp only [length_append, length_take, length_drop] at lengths
    omega
  · intro ended n₁ n₂
    have nothing : file.drop pos = [] := drop_of_length_le ended
    simp only [nothing, take_nil] at read
    exact ⟨_, _, _, _, ⟨_, read n₁⟩, ⟨_, _, read n₂⟩, ⟨_, _, read (n₁ + n₂)⟩, rfl⟩

/-- While the calls are safe, each one starts where the last one stopped. -/
theorem sequential_access_iff {as : AddrSpace} {d : Descriptors} {handle : Int} {ref : FdRef}
    (opened : OpenHandle d handle ref) {start s : Progress} (sequential : start.Sequential ref)
    {ops : List TransferOp} (reached : Run (SafeTransferStep as d handle ref) start ops s) :
    s.Sequential ref ∧
      (∀ (op : TransferOp) (reply : FileReply) (transfer : Transfer) (after : FileState),
        op.fd = handle → op.run as d s.files = .ok (reply, some transfer, after) →
          transfer.start = s.position) ∧
      ∃ fd, s.files.fds ref = some fd ∧
        (∀ (op : TransferOp) (next : Progress), TransferStep as d handle s op next →
          (next.Sequential ref ↔ op.Safe as fd)) ∧
        ∀ (call : ReadCall) (space : Option AddrSpace) (file : List Byte) (position : Nat),
          call.fd = handle → call.badBuffer as = false → asCreate call.heap = .ok space →
          call.files.Honest fd.file file → s.position = position →
            ((∀ n₁ n₂, ReadsTogether call as d s.files n₁ n₂) ↔ file.length ≤ position) := by
  have kept : s.Sequential ref := by
    refine reached.invariant (fun (state : Progress) _ _ (before : state.Sequential ref) step => ?_)
      sequential
    obtain ⟨fd, allocated, mode, offset⟩ := before
    exact (step.step.sequential_iff opened allocated mode offset).mpr (step.safe fd allocated)
  refine ⟨kept, fun op reply transfer after here returned => kept.start opened here returned, ?_⟩
  obtain ⟨fd, allocated, mode, offset⟩ := kept
  refine ⟨fd, allocated, fun op next step => step.sequential_iff opened allocated mode offset, ?_⟩
  rintro call space file position rfl good memory honest here
  exact readsTogether_iff opened allocated mode good memory honest (offset.trans here)

/-- A process with handle 3 open for reading and writing on vnode 7. -/
def oneHandle : Descriptors where
  fdTable := update (fun _ => none) 3 (some 0)
  openNum := 1

def oneFile : FileState where
  vnodes := { refcount := fun _ => 1, opencount := fun _ => 1 }
  fds := update (fun _ => none) 0
    (some { fileFlag := 2, filename := 0x10000000, file := 7, offset := 0, buflen := 0 })
  allocated := 1

/-- A call of the small program on handle 3, with the buffer in its data. -/
def smallIo : IoCall where
  fd := 3
  buf := 0x10000000
  heap := ⟨some newSpace, true⟩
  console := existingFile
  consoleOffset := 0
  stray := none

/-- A write of four bytes that the file system completes. -/
def fourBytes : WriteCall where
  toIoCall := smallIo
  bytes := [1, 2, 3, 4]
  written := fun _ _ _ => 4

/-- A read of a file with four bytes. -/
def readFour (buflen : Nat) : ReadCall where
  toIoCall := smallIo
  buflen := buflen
  files := fileOf [1, 2, 3, 4]

/-- A read behind a complete write starts behind its bytes. -/
theorem sequential_access_fourBytes :
    ∃ s, Run (SafeTransferStep smallLoaded.1 oneHandle 3 0) ⟨oneFile, 0⟩ [.write fourBytes] s ∧
      s.position = 4 ∧
      (∃ reply transfer after, sysRead (readFour 2) smallLoaded.1 oneHandle s.files =
        .ok (reply, some transfer, after) ∧ transfer.start = 4) ∧
      s.Sequential 0 := by
  have opened : OpenHandle oneHandle 3 0 := ⟨by decide, by decide, rfl⟩
  have sequential : (Progress.mk oneFile 0).Sequential 0 := ⟨_, rfl, rfl, rfl⟩
  have written : sysWrite fourBytes smallLoaded.1 oneHandle oneFile =
    .ok (.returned 4, some ⟨0, [1, 2, 3, 4]⟩, _) := rfl
  have safe (fd : Fd) (held : oneFile.fds 0 = some fd) :
      (TransferOp.write fourBytes).Safe smallLoaded.1 fd := by
    cases held
    exact fun _ => .inr rfl
  have reached : Run (SafeTransferStep smallLoaded.1 oneHandle 3 0) ⟨oneFile, 0⟩ [.write fourBytes]
      ⟨_, 4⟩ := .single ⟨⟨rfl, _, _, written, rfl⟩, safe⟩
  obtain ⟨kept, starts, _⟩ := sequential_access_iff opened sequential reached
  exact ⟨_, reached, rfl, ⟨_, _, _, rfl, starts (.read (readFour 2)) _ _ _ rfl rfl⟩, kept⟩

/-- Two reads of two bytes both return the first two bytes. -/
theorem reads_repeat :
    sysRead (readFour 2) smallLoaded.1 oneHandle oneFile =
        .ok (.returned 2, some ⟨0, [1, 2]⟩, oneFile) ∧
      sysRead (readFour 4) smallLoaded.1 oneHandle oneFile =
        .ok (.returned 4, some ⟨0, [1, 2, 3, 4]⟩, oneFile) :=
  ⟨rfl, rfl⟩

end Os161.File
