import Os161.Syscall.CopyInOut

namespace Os161.Syscall
open Word Vm Strings List

variable {S : Type}

/-- A loop along user memory with the addresses that it touches. An access faults, or it gives the next state and
whether the loop is over. -/
def sweep (access : Nat → S → Option (S × Bool)) : (count address : Nat) → S → List Nat × S × Ending
  | 0, _, s => ([], s, .limit)
  | count + 1, address, s =>
    match access address s with
    | none => ([address], s, .empty)
    | some (s, true) => ([address], s, .terminated)
    | some (s, false) =>
      let (touched, last) := sweep access count (address + 1) s
      (address :: touched, last)

/-- What a copy function returns, the user addresses that it has touched, what it has copied, and the length that
`copystr` stores -/
structure Copied (S : Type) where
  code : Errno
  touched : List Nat
  result : S
  gotlen : Option Word32

/-- `copyin` and `copyout`, which copy the block in one `memcpy` -/
def copyBlock (access : Nat → S → Option (S × Bool)) (userptr : Vaddr) (len : Word32) (s : S) : Copied S :=
  match copycheck userptr len with
  | none => ⟨eFault, [], s, none⟩
  | some stoplen =>
    if stoplen ≠ len then ⟨eFault, [], s, none⟩
    else
      let (touched, s, ending) := sweep access len.toNat userptr.toNat s
      ⟨if ending = .limit then 0 else eFault, touched, s, none⟩

/-- `copyinstr` and `copyoutstr`, with the loop of `copystr` -/
def copyString (access : Nat → S → Option (S × Bool)) (userptr : Vaddr) (maxlen : Word32) (s : S) : Copied S :=
  match copycheck userptr maxlen with
  | none => ⟨eFault, [], s, none⟩
  | some stoplen =>
    match sweep access (min maxlen.toNat stoplen.toNat) userptr.toNat s with
    | (touched, s, .terminated) => ⟨0, touched, s, some (BitVec.ofNat 32 touched.length)⟩
    | (touched, s, .empty) => ⟨eFault, touched, s, none⟩
    | (touched, s, .limit) => ⟨if stoplen < maxlen then eFault else eNameTooLong, touched, s, none⟩

namespace Traced

/-- A load from memory that need not end where user space does -/
def load (mem : UserMem) (ends : Byte → Bool) (address : Nat) (bytes : List Byte) : Option (List Byte × Bool) :=
  (mem.cell address).map fun byte => (bytes ++ [byte], ends byte)

/-- A store of the next byte of the source -/
def store (src : Nat → Byte) (ends : Byte → Bool) (userdest address : Nat) (mem : UserMem) : Option (UserMem × Bool) :=
  let byte := src (address - userdest)
  if mem.writable address then some ({ mem with cell := Function.update mem.cell address (some byte) }, ends byte)
  else none

def copyin (mem : UserMem) (usersrc : Vaddr) (len : Word32) : Copied (List Byte) :=
  copyBlock (load mem fun _ => false) usersrc len []

def copyout (mem : UserMem) (src : Nat → Byte) (userdest : Vaddr) (len : Word32) : Copied UserMem :=
  copyBlock (store src (fun _ => false) userdest.toNat) userdest len mem

def copyinstr (mem : UserMem) (usersrc : Vaddr) (len : Word32) : Copied (List Byte) :=
  copyString (load mem (· = 0)) usersrc len []

def copyoutstr (mem : UserMem) (src : Nat → Byte) (userdest : Vaddr) (len : Word32) : Copied UserMem :=
  copyString (store src (· = 0) userdest.toNat) userdest len mem

end Traced

variable {access : Nat → S → Option (S × Bool)} {count address a : Nat} {s : S} {userptr : Vaddr} {len : Word32}

theorem sweep_touched (member : a ∈ (sweep access count address s).1) : address ≤ a ∧ a < address + count := by
  induction count generalizing address s with
  | zero => cases member
  | succ count ih =>
    have here (single : a ∈ [address]) : address ≤ a ∧ a < address + (count + 1) := by
      rw [mem_singleton.mp single]
      omega
    unfold sweep at member
    split at member
    · exact here member
    · exact here member
    · rcases mem_cons.mp member with rfl | later
      · omega
      · have := ih later
        omega

theorem sweep_range (access : Nat → S → Option (S × Bool)) (count address : Nat) (s : S) :
    (sweep access count address s).1 = range' address (sweep access count address s).1.length := by
  induction count generalizing address s with
  | zero => rfl
  | succ count ih =>
    unfold sweep
    split
    · rfl
    · rfl
    · rw [length_cons, range'_succ, ← ih]

theorem copyBlock_range (member : a ∈ (copyBlock access userptr len s).touched) :
    userptr.toNat ≤ a ∧ a < userptr.toNat + len.toNat := by
  unfold copyBlock at member
  split at member
  · cases member
  · split at member
    · cases member
    · exact sweep_touched member

theorem copyBlock_touched (pos : 1 ≤ len.toNat) (member : a ∈ (copyBlock access userptr len s).touched) :
    a < userStack.toNat := by
  unfold copyBlock at member
  split at member
  · cases member
  · rename_i stoplen checked
    split at member
    · cases member
    · rename_i same
      have stops := copycheck_stops pos checked
      have := sweep_touched member
      rw [not_not.mp same] at stops
      omega

theorem copyString_touched (pos : 1 ≤ len.toNat) (member : a ∈ (copyString access userptr len s).touched) :
    a < userStack.toNat := by
  unfold copyString at member
  split at member
  · cases member
  · rename_i stoplen checked
    have stops := copycheck_stops pos checked
    have inside : a ∈ (sweep access (min len.toNat stoplen.toNat) userptr.toNat s).1 := by
      split at member
      all_goals
        rename_i swept
        rw [swept]
        exact member
    have := sweep_touched inside
    omega

variable {mem : UserMem}

theorem sweep_scan (bounded : address + count ≤ userStack.toNat) (bytes : List Byte) :
    ∃ touched, sweep (Traced.load mem (· = 0)) count address bytes =
        (touched, bytes ++ (scan 0 mem.read count address).1, (scan 0 mem.read count address).2) ∧
      touched.length = (scan 0 mem.read count address).1.length +
        if (scan 0 mem.read count address).2 = .empty then 1 else 0 := by
  induction count generalizing address bytes with
  | zero => exact ⟨[], by simp [sweep, scan], rfl⟩
  | succ count ih =>
    have user : mem.read address = mem.cell address := if_pos (by omega)
    have loaded : Traced.load mem (· = 0) address bytes =
        (mem.cell address).map fun byte => (bytes ++ [byte], decide (byte = 0)) := rfl
    rw [sweep, scan, user, loaded]
    cases mem.cell address with
    | none => exact ⟨[address], by simp, rfl⟩
    | some byte =>
      by_cases zero : byte = 0
      · exact ⟨[address], by simp [zero], by simp [zero]⟩
      · obtain ⟨touched, swept, length⟩ := ih (show address + 1 + count ≤ _ by omega) (bytes ++ [byte])
        refine ⟨address :: touched, ?_, ?_⟩
        · simp only [Option.map_some, zero, decide_false, swept, if_false, append_assoc, singleton_append]
        · simp only [zero, if_false, length_cons]
          omega

theorem sweep_block {data : List Byte} (held : Strings.Holds mem.read address data) (bytes : List Byte) :
    sweep (Traced.load mem fun _ => false) data.length address bytes =
      (range' address data.length, bytes ++ data, .limit) := by
  induction data generalizing address bytes with
  | nil => simp [sweep]
  | cons byte rest ih =>
    obtain ⟨here, after⟩ := holds_cons.mp held
    have user : mem.cell address = some byte := (if_pos (UserMem.read_lt here)).symm.trans here
    simp only [length_cons, sweep, Traced.load, user, Option.map_some, ih after, append_assoc, singleton_append,
      range'_succ]

theorem Traced.copyin_touched {data : List Byte} (held : Strings.Holds mem.read userptr.toNat data)
    (length : data.length = len.toNat) (filled : data ≠ []) :
    (Traced.copyin mem userptr len).touched = range' userptr.toNat data.length := by
  have pos := length_pos_iff.mpr filled
  have inside := copycheck_inside (by omega) (length ▸ UserMem.holds_le held filled)
  simp only [Traced.copyin, copyBlock, inside, ne_eq, not_true_eq_false, if_false]
  rw [← length, sweep_block held]

theorem Traced.copyinstr_touched {text : List Byte} (string : StringAt 0 mem.read userptr.toNat text)
    (fits : text.length < len.toNat) (straight : userptr.toNat + len.toNat ≤ 2 ^ 32) :
    (Traced.copyinstr mem userptr len).touched = range' userptr.toNat (text.length + 1) := by
  have within := UserMem.holds_le string.held (by simp)
  rw [length_append, length_singleton] at within
  obtain ⟨stoplen, checked⟩ := copycheck_passes (by omega) straight (by omega)
  have stops := (copycheck_stops (by omega) checked).2
  obtain ⟨touched, swept, length⟩ :=
    @sweep_scan (min len.toNat stoplen.toNat) userptr.toNat mem (by omega) []
  rw [string.scan (by omega)] at swept length
  have range : touched = range' userptr.toNat touched.length := by
    have first : _ = touched := congrArg Prod.fst swept
    rw [← first]
    exact sweep_range ..
  have ends : touched.length = text.length + 1 := by simpa using length
  rw [ends] at range
  simp only [Traced.copyinstr, copyString, checked, swept, range]

theorem copyinstr_traced (pos : 1 ≤ len.toNat) :
    copyinstr mem userptr len = ((Traced.copyinstr mem userptr len).code,
      (Traced.copyinstr mem userptr len).result, (Traced.copyinstr mem userptr len).gotlen) := by
  unfold copyinstr Traced.copyinstr copyString
  cases checked : copycheck userptr len with
  | none => rfl
  | some stoplen =>
    have stops := copycheck_stops pos checked
    obtain ⟨touched, swept, length⟩ :=
      @sweep_scan (min len.toNat stoplen.toNat) userptr.toNat mem (by omega) []
    dsimp only
    split
    all_goals
      simp_all

theorem copyinstr_long (pos : 1 ≤ len.toNat) (straight : userptr.toNat + len.toNat ≤ 2 ^ 32)
    (readable : ∀ a < userStack.toNat, mem.cell a ≠ none)
    (long : ∀ text, StringAt 0 mem.read userptr.toNat text → len.toNat ≤ text.length) :
    (copyinstr mem userptr len).1 =
      if userStack.toNat < userptr.toNat + len.toNat then eFault else eNameTooLong := by
  by_cases above : userStack.toNat ≤ userptr.toNat
  · cases checked : copycheck userptr len with
    | none => simp only [copyinstr, checked, if_pos (show userStack.toNat < userptr.toNat + len.toNat by omega)]
    | some stoplen => exact absurd (copycheck_stops pos checked).1 (by omega)
  · obtain ⟨stoplen, checked⟩ := copycheck_passes pos straight (by omega)
    have stops := copycheck_stops pos checked
    have limit : (scan 0 mem.read (min len.toNat stoplen.toNat) userptr.toNat).2 = .limit := by
      refine scan_limit (fun offset small => ?_) fun text string => (Nat.min_le_left ..).trans (long text string)
      rw [UserMem.read, if_pos (by omega)]
      exact readable _ (by omega)
    have ends : stoplen < len ↔ userStack.toNat < userptr.toNat + len.toNat := by
      rw [BitVec.lt_def]
      omega
    simp only [copyinstr, checked, ends]
    split
    · simp_all
    · simp_all
    · rfl

/-- User copies stay in user space, and `copyinstr` is exact. -/
theorem user_copies_stay (mem : UserMem) (src : Nat → Byte) (userptr : Vaddr) (len : Word32) (positive : 1 ≤ len.toNat) :
    let copied := Traced.copyinstr mem userptr len
    (∀ a, a ∈ (Traced.copyin mem userptr len).touched ∨ a ∈ (Traced.copyout mem src userptr len).touched ∨
        a ∈ copied.touched ∨ a ∈ (Traced.copyoutstr mem src userptr len).touched → a < userStack.toNat) ∧
    (userptr.toNat + len.toNat ≤ 2 ^ 32 → (∀ a < userStack.toNat, mem.cell a ≠ none) →
      (∀ text, StringAt 0 mem.read userptr.toNat text → text.length < len.toNat →
        (copied.code, copied.result, copied.gotlen) = (0, text ++ [0], some (BitVec.ofNat 32 (text.length + 1)))) ∧
      ((∀ text, StringAt 0 mem.read userptr.toNat text → len.toNat ≤ text.length) →
        copied.code = if userStack.toNat < userptr.toNat + len.toNat then eFault else eNameTooLong)) := by
  refine ⟨?_, fun straight readable => ⟨fun text string fits => ?_, fun long => ?_⟩⟩
  · rintro a (member | member | member | member)
    · exact copyBlock_touched positive member
    · exact copyBlock_touched positive member
    · exact copyString_touched positive member
    · exact copyString_touched positive member
  · exact (copyinstr_traced positive).symm.trans (copyinstr_string string fits straight)
  · rw [← copyinstr_long positive straight readable long, copyinstr_traced positive]

/-- Memory without a terminator -/
def letters : UserMem := ⟨fun _ => some 65, fun _ => true⟩

/-- A string that runs into the end of user space -/
theorem user_copies_stay_letters : (Traced.copyinstr letters 0x7ffffffe 4).code = eFault ∧
    (Traced.copyinstr letters 0x7ffffffe 4).touched = [0x7ffffffe, 0x7fffffff] := by
  refine ⟨((user_copies_stay letters (fun _ => 0) 0x7ffffffe 4 (by decide)).2 (by decide) nofun).2 ?_, rfl⟩
  intro text string
  have last := string.held text.length (by simp)
  unfold UserMem.read at last
  split at last <;> simp [letters] at last

end Os161.Syscall
