import Os161.Lib.Strings
import Os161.Vm.AddrSpace

namespace Os161.Syscall
open Word Vm Strings BitVec List

abbrev eNameTooLong : Errno := 7

/-- User memory as kernel code sees it. An access to an empty cell faults, as does a write to a cell that
is not writable, and the copy functions then return `EFAULT`. -/
structure UserMem where
  cell : Nat → Option Byte
  writable : Nat → Bool

/-- User space ends at `USERSPACETOP`. -/
def UserMem.read (mem : UserMem) (address : Nat) : Option Byte :=
  if address < userStack.toNat then mem.cell address else none

/-- `copycheck` fails or returns how much can be copied. -/
def copycheck (userptr : Vaddr) (len : Word32) : Option Word32 :=
  let top := userptr + len - 1
  if top < userptr then none
  else if userStack ≤ userptr then none
  else if userStack ≤ top then some (userStack - userptr)
  else some len

/-- `copyin` with the bytes that it has copied when it returns. -/
def copyin (mem : UserMem) (usersrc : Vaddr) (len : Word32) : Errno × List Byte :=
  match copycheck usersrc len with
  | none => (eFault, [])
  | some stoplen =>
    if stoplen ≠ len then (eFault, [])
    else
      let moved := fetch mem.read len.toNat usersrc.toNat
      (if moved.length = len.toNat then 0 else eFault, moved)

/-- `memcpy` to user memory stops at the first address that is not writable. -/
def UserMem.store (mem : UserMem) : (data : List Byte) → (address : Nat) → Bool × UserMem
  | [], _ => (true, mem)
  | byte :: rest, address =>
    if mem.writable address then
      UserMem.store { mem with cell := Function.update mem.cell address (some byte) } rest (address + 1)
    else (false, mem)

def copyout (mem : UserMem) (src : List Byte) (userdest : Vaddr) : Errno × UserMem :=
  let len := BitVec.ofNat 32 src.length
  match copycheck userdest len with
  | none => (eFault, mem)
  | some stoplen =>
    if stoplen ≠ len then (eFault, mem)
    else
      let (done, mem) := mem.store src userdest.toNat
      (if done then 0 else eFault, mem)

/-- `copyinstr` and `copystr`, with the bytes that they have copied and the length that they store. -/
def copyinstr (mem : UserMem) (usersrc : Vaddr) (len : Word32) : Errno × List Byte × Option Word32 :=
  match copycheck usersrc len with
  | none => (eFault, [], none)
  | some stoplen =>
    match scan 0 mem.read (min len.toNat stoplen.toNat) usersrc.toNat with
    | (bytes, .terminated) => (0, bytes, some (BitVec.ofNat 32 bytes.length))
    | (bytes, .empty) => (eFault, bytes, none)
    | (bytes, .limit) => (if stoplen < len then eFault else eNameTooLong, bytes, none)

variable {mem : UserMem} {address : Nat}

theorem UserMem.read_lt (readable : mem.read address = some byte) : address < userStack.toNat := by
  unfold read at readable
  split at readable
  · assumption
  · cases readable

variable {data : List Byte}

theorem UserMem.holds_le (held : Strings.Holds mem.read address data) (filled : data ≠ []) :
    address + data.length ≤ userStack.toNat := by
  have pos := length_pos_iff.mpr filled
  have last := held (data.length - 1) (by omega)
  rw [List.getElem?_eq_getElem (by omega)] at last
  have bound := UserMem.read_lt last
  omega

variable {userptr usersrc : Vaddr} {len : Word32}

theorem copycheck_stops (pos : 1 ≤ len.toNat) (checked : copycheck userptr len = some stoplen) :
    userptr.toNat < userStack.toNat ∧ stoplen.toNat = min len.toNat (userStack.toNat - userptr.toNat) := by
  unfold copycheck at checked
  dsimp only at checked
  split_ifs at checked with wraps above reaches
  all_goals
    have straight : (userptr + len - 1).toNat = userptr.toNat + len.toNat - 1 := by bv_omega
    rw [le_def] at above reaches
    rw [← Option.some.inj checked]
  · rw [toNat_sub_of_le (by rw [le_def]; omega)]
    omega
  · omega

theorem copycheck_passes (pos : 1 ≤ len.toNat) (straight : userptr.toNat + len.toNat ≤ 2 ^ 32)
    (user : userptr.toNat < userStack.toNat) : ∃ stoplen, copycheck userptr len = some stoplen := by
  have last : (userptr + len - 1).toNat = userptr.toNat + len.toNat - 1 := by bv_omega
  unfold copycheck
  rw [if_neg (by rw [lt_def]; omega), if_neg (by rw [le_def]; omega)]
  split
  · exact ⟨_, rfl⟩
  · exact ⟨_, rfl⟩

theorem copycheck_inside (pos : 1 ≤ len.toNat) (fits : userptr.toNat + len.toNat ≤ userStack.toNat) :
    copycheck userptr len = some len := by
  obtain ⟨stoplen, checked⟩ := @copycheck_passes userptr len pos (by omega) (by omega)
  have stops := (copycheck_stops pos checked).2
  rw [checked, eq_of_toNat_eq (show stoplen.toNat = len.toNat by omega)]

theorem copyin_holds (held : Strings.Holds mem.read usersrc.toNat data)
    (length : data.length = len.toNat) (filled : data ≠ []) :
    copyin mem usersrc len = (0, data) := by
  have pos := length_pos_iff.mpr filled
  have inside := copycheck_inside (by omega) (length ▸ UserMem.holds_le held filled)
  simp only [copyin, inside, ne_eq, not_true_eq_false, if_false]
  rw [← length, held.fetch, if_pos rfl]

theorem copyin_unreadable (empty : mem.read usersrc.toNat = none) :
    (copyin mem usersrc len).2 = [] := by
  unfold copyin
  split
  · rfl
  · split
    · rfl
    · cases len.toNat with
      | zero => rfl
      | succ n => simp [fetch, empty]

theorem copyinstr_string (string : StringAt 0 mem.read usersrc.toNat text) (fits : text.length < len.toNat)
    (straight : usersrc.toNat + len.toNat ≤ 2 ^ 32) :
    copyinstr mem usersrc len = (0, text ++ [0], some (BitVec.ofNat 32 (text.length + 1))) := by
  have within := UserMem.holds_le string.held (by simp)
  rw [length_append, length_singleton] at within
  obtain ⟨stoplen, checked⟩ := copycheck_passes (by omega) straight (by omega)
  have stops := (copycheck_stops (by omega) checked).2
  simp only [copyinstr, checked]
  rw [string.scan (by omega)]
  simp

theorem copyinstr_truncated (string : StringAt 0 mem.read usersrc.toNat text) (pos : 1 ≤ len.toNat)
    (long : len.toNat ≤ text.length) (straight : usersrc.toNat + len.toNat ≤ 2 ^ 32) :
    copyinstr mem usersrc len = (eNameTooLong, text.take len.toNat, none) := by
  have within := UserMem.holds_le string.held (by simp)
  rw [length_append, length_singleton] at within
  obtain ⟨stoplen, checked⟩ := copycheck_passes pos straight (by omega)
  have stops := (copycheck_stops pos checked).2
  have whole : stoplen = len := eq_of_toNat_eq (by omega)
  simp only [copyinstr, checked, whole, Nat.min_self]
  rw [string.scan_long long]
  simp

theorem UserMem.store_ok (writable : ∀ offset < data.length, mem.writable (address + offset) = true) :
    mem.store data address = (true, { mem with cell := write mem.cell address data }) := by
  induction data generalizing mem address with
  | nil =>
    rw [write_nil]
    rfl
  | cons byte rest ih =>
    have here : mem.writable address = true := writable 0 (by simp)
    have later (offset : Nat) (small : offset < rest.length) :
        mem.writable (address + 1 + offset) = true := by
      have next := writable (offset + 1) (by simpa using small)
      rwa [← Nat.add_assoc, Nat.add_right_comm] at next
    rw [UserMem.store, if_pos here, ← write_cons]
    exact ih later

variable {src : List Byte} {userdest : Vaddr}

theorem copyout_ok (filled : src ≠ []) (fits : userdest.toNat + src.length ≤ userStack.toNat)
    (writable : ∀ offset < src.length, mem.writable (userdest.toNat + offset) = true) :
    copyout mem src userdest = (0, { mem with cell := write mem.cell userdest.toNat src }) := by
  have length : (BitVec.ofNat 32 src.length).toNat = src.length := by
    rw [toNat_ofNat]
    omega
  have pos := length_pos_iff.mpr filled
  have inside := @copycheck_inside userdest (BitVec.ofNat 32 src.length) (by omega) (by omega)
  simp only [copyout, inside, ne_eq, not_true_eq_false, if_false, UserMem.store_ok writable, if_true]

theorem copyout_memory (fits : userdest.toNat + src.length ≤ userStack.toNat)
    (writable : ∀ offset < src.length, mem.writable (userdest.toNat + offset) = true) :
    (copyout mem src userdest).2 = { mem with cell := write mem.cell userdest.toNat src } := by
  cases src with
  | nil =>
    rw [write_nil, copyout]
    split
    · rfl
    · split
      · rfl
      · rfl
  | cons byte rest => rw [copyout_ok (by simp) fits writable]

theorem UserMem.holds_read_write (mem : UserMem) (fits : address + data.length ≤ userStack.toNat) :
    Strings.Holds (UserMem.read { mem with cell := write mem.cell address data }) address data := by
  intro offset small
  rw [UserMem.read, if_pos (by omega)]
  exact holds_write mem.cell address data offset small

theorem copyout_holds (fits : userdest.toNat + src.length ≤ userStack.toNat)
    (writable : ∀ offset < src.length, mem.writable (userdest.toNat + offset) = true) :
    (copyout mem src userdest).2.writable = mem.writable ∧
      Strings.Holds (copyout mem src userdest).2.read userdest.toNat src := by
  rw [copyout_memory fits writable]
  exact ⟨rfl, mem.holds_read_write fits⟩

theorem UserMem.holds_read_apart {written : List Byte} (held : Strings.Holds mem.read address data)
    (apart : address + data.length ≤ other ∨ other + written.length ≤ address) :
    Strings.Holds (UserMem.read { mem with cell := write mem.cell other written }) address data := by
  intro offset small
  have prev := held offset small
  unfold UserMem.read at prev ⊢
  split
  · rename_i user
    rw [if_pos user] at prev
    rw [← prev]
    exact if_neg (by omega)
  · rename_i kernel
    rw [if_neg kernel] at prev
    exact prev

end Os161.Syscall
