import Os161.Syscall.ExecvArguments
import Os161.Syscall.UserCopies

namespace Os161.Syscall
open Word Vm Strings Outcome List BitVec

/-- `len` in `runprogram`, a multiple of four -/
def argumentLength (arg : List Byte) : Word32 :=
  let len := BitVec.ofNat 32 (arg.length + 1)
  if len % 4 ≠ 0 then len - len % 4 + 4 else len

/-- `offsets`, `length` and `offval` -/
structure ArgSizes where
  offsets : List Word32
  length : List Word32
  offval : Word32

/-- The first loop, with arrays of `NARG_MAX` entries -/
def sizeLoop : List (List Byte) → ArgSizes → Kernel ArgSizes
  | [], sizes => .ok sizes
  | arg :: rest, sizes =>
    if nargMax ≤ sizes.offsets.length then .error (.badIndex sizes.offsets.length)
    else
      let len := argumentLength arg
      sizeLoop rest ⟨sizes.offsets ++ [sizes.offval], sizes.length ++ [len], sizes.offval + len⟩

/-- The second loop, which moves `argbase` up again -/
def stringLoop (mem : UserMem) (argbase : Vaddr) : List (List Byte × Word32) → UserMem × Vaddr
  | [] => (mem, argbase)
  | (arg, len) :: rest =>
    stringLoop (Traced.copyoutstr mem ((arg ++ [0]).getD · 0) argbase len).result (argbase + len) rest

/-- `runprogram` behind the definition of the stack, up to the stack that the program starts with. Without memory
for the arrays the first loop uses a null pointer. -/
def pushArguments (arrays : Bool) (argv : List (List Byte)) (stackptr : Vaddr) (mem : UserMem) :
    Kernel (Vaddr × UserMem) := do
  if arrays = false ∧ argv ≠ [] then .error .nullPointer
  else
    let sizes ← sizeLoop argv ⟨[], [], 0⟩
    let (mem, argbase) := stringLoop mem (stackptr - sizes.offval) (argv.zip sizes.length)
    let argbase := argbase - sizes.offval
    let stack := argbase - (BitVec.ofNat 32 argv.length + 1) * 4
    return (stack, pointerLoop mem argbase stack sizes.offsets)

/-- Pointers at the address to strings above `low`, one behind the other below the end of the stack, and a null
pointer behind them. -/
inductive ArgumentsAt (read : Nat → Option Byte) : (address low : Nat) → List (List Byte) → Prop where
  | nil {address low : Nat} (null : Strings.Holds read address (wordBytes 0)) (below : low ≤ userStack.toNat) :
      ArgumentsAt read address low []
  | cons {address low : Nat} {pointer : Vaddr} {arg : List Byte} {rest : List (List Byte)}
      (word : Strings.Holds read address (wordBytes pointer)) (above : low ≤ pointer.toNat)
      (string : StringAt 0 read pointer.toNat arg)
      (tail : ArgumentsAt read (address + 4) (pointer.toNat + (arg.length + 1)) rest) :
      ArgumentsAt read address low (arg :: rest)

/-- The size of an argument on the stack -/
def argumentSize (arg : List Byte) : Nat := (arg.length + 4) / 4 * 4

/-- The size of all arguments on the stack -/
def argumentsSize (argv : List (List Byte)) : Nat := (argv.map argumentSize).sum

/-- The offsets of the arguments when the first one is at the given offset -/
def argumentStarts : Nat → List (List Byte) → List Word32
  | _, [] => []
  | base, arg :: rest => BitVec.ofNat 32 base :: argumentStarts (base + argumentSize arg) rest

/-- The strings lie at their offsets. -/
def TextsAt (read : Nat → Option Byte) : Nat → List (List Byte) → Prop
  | _, [] => True
  | address, arg :: rest => StringAt 0 read address arg ∧ TextsAt read (address + argumentSize arg) rest

variable {arg : List Byte} {argv : List (List Byte)} {mem : UserMem} {address : Nat}

theorem argumentLength_eq (arg : List Byte) : argumentLength arg = BitVec.ofNat 32 (argumentSize arg) := by
  have rest : (BitVec.ofNat 32 (arg.length + 1) % 4).toNat = (arg.length + 1) % 4 := by
    exact Nat.mod_mod_of_dvd _ (by decide)
  unfold argumentLength argumentSize
  dsimp only
  generalize BitVec.ofNat 32 (arg.length + 1) % 4 = last at *
  split
  · bv_omega
  · bv_omega

theorem argumentStarts_length (base : Nat) (argv : List (List Byte)) :
    (argumentStarts base argv).length = argv.length := by
  induction argv generalizing base with
  | nil => rfl
  | cons arg rest ih => rw [argumentStarts, length_cons, ih, length_cons]

theorem sizeLoop_ok {offsets lengths : List Word32} {base : Nat} (few : offsets.length + argv.length ≤ nargMax) :
    sizeLoop argv ⟨offsets, lengths, BitVec.ofNat 32 base⟩ =
      .ok ⟨offsets ++ argumentStarts base argv, lengths ++ argv.map argumentLength,
        BitVec.ofNat 32 (base + argumentsSize argv)⟩ := by
  induction argv generalizing offsets lengths base with
  | nil => simp [sizeLoop, argumentStarts, argumentsSize]
  | cons arg rest ih =>
    rw [length_cons] at few
    rw [sizeLoop, if_neg (show ¬ nargMax ≤ offsets.length by omega)]
    dsimp only
    rw [argumentLength_eq, ← ofNat_add, ih (by simp; omega)]
    simp [argumentStarts, argumentsSize, argumentLength_eq, Nat.add_assoc]

theorem sweep_store {src : Nat → Byte} {base count : Nat} (plain : (0 : Byte) ∉ arg) (above : base ≤ address)
    (source : ∀ i, src (address - base + i) = (arg ++ [0]).getD i 0) (enough : arg.length < count)
    (writable : ∀ a, address ≤ a → a < address + count → mem.writable a = true) :
    ∃ touched, sweep (Traced.store src (· = 0) base) count address mem =
      (touched, { mem with cell := write mem.cell address (arg ++ [0]) }, .terminated) := by
  induction arg generalizing address mem count with
  | nil =>
    obtain ⟨count, rfl⟩ := Nat.exists_eq_succ_of_ne_zero (Nat.ne_zero_of_lt enough)
    have byte : src (address - base) = 0 := source 0
    have here := writable address (Nat.le_refl _) (by omega)
    refine ⟨[address], ?_⟩
    rw [sweep, Traced.store, byte, if_pos here, nil_append, ← write_cons, write_nil]
    rfl
  | cons first rest ih =>
    obtain ⟨count, rfl⟩ := Nat.exists_eq_succ_of_ne_zero (Nat.ne_zero_of_lt enough)
    have byte : src (address - base) = first := source 0
    have here := writable address (Nat.le_refl _) (by omega)
    have other : first ≠ 0 := fun zero => plain (zero ▸ mem_cons_self)
    have stored : ∀ a, address + 1 ≤ a → a < address + 1 + count →
        UserMem.writable { mem with cell := Function.update mem.cell address (some first) } a = true :=
      fun a low high => writable a (by omega) (by omega)
    have next (i : Nat) : src (address + 1 - base + i) = (rest ++ [0]).getD i 0 := by
      rw [Nat.sub_add_comm above, Nat.add_assoc, Nat.add_comm 1]
      exact source (i + 1)
    obtain ⟨touched, swept⟩ := ih (fun member => plain (mem_cons_of_mem _ member))
      (Nat.le_succ_of_le above) next (Nat.lt_of_succ_lt_succ enough) stored
    refine ⟨address :: touched, ?_⟩
    rw [sweep, Traced.store, byte, if_pos here, decide_eq_false other]
    dsimp only
    rw [swept, List.cons_append, ← write_cons]

theorem copyoutstr_ok {userdest : Vaddr} {len : Word32} (plain : (0 : Byte) ∉ arg) (enough : arg.length < len.toNat)
    (fits : userdest.toNat + len.toNat ≤ userStack.toNat)
    (writable : ∀ a, userdest.toNat ≤ a → a < userStack.toNat → mem.writable a = true) :
    (Traced.copyoutstr mem ((arg ++ [0]).getD · 0) userdest len).result =
      { mem with cell := write mem.cell userdest.toNat (arg ++ [0]) } := by
  obtain ⟨touched, swept⟩ := sweep_store plain (Nat.le_refl userdest.toNat)
    (fun i => by rw [Nat.sub_self, Nat.zero_add]) (show arg.length < min len.toNat len.toNat by omega)
    (fun a low high => writable a low (by omega))
  simp only [Traced.copyoutstr, copyString, copycheck_inside (by omega) fits, swept]

theorem TextsAt.apart {other : Nat} {data : List Byte} (texts : TextsAt mem.read address argv)
    (below : other + data.length ≤ address) :
    TextsAt (UserMem.read { mem with cell := write mem.cell other data }) address argv := by
  induction argv generalizing address with
  | nil => trivial
  | cons arg rest ih =>
    obtain ⟨⟨plain, held⟩, tail⟩ := texts
    exact ⟨⟨plain, UserMem.holds_read_apart held (.inr below)⟩, ih tail (by omega)⟩

theorem stringLoop_texts {argbase : Vaddr} (plain : ∀ arg ∈ argv, (0 : Byte) ∉ arg)
    (ends : argbase.toNat + argumentsSize argv = userStack.toNat)
    (writable : ∀ a, argbase.toNat ≤ a → a < userStack.toNat → mem.writable a = true) :
    ∃ filled, stringLoop mem argbase (argv.zip (argv.map argumentLength)) = (filled, userStack) ∧
      filled.writable = mem.writable ∧ (∀ a < argbase.toNat, filled.cell a = mem.cell a) ∧
      TextsAt filled.read argbase.toNat argv := by
  induction argv generalizing mem argbase with
  | nil => exact ⟨mem, Prod.ext rfl (eq_of_toNat_eq ends), rfl, fun _ _ => rfl, trivial⟩
  | cons arg rest ih =>
    have size : argumentsSize (arg :: rest) = argumentSize arg + argumentsSize rest := sum_cons
    have room : arg.length + 1 ≤ argumentSize arg := by
      unfold argumentSize
      omega
    have len : (argumentLength arg).toNat = argumentSize arg := by
      rw [argumentLength_eq, toNat_ofNat]
      omega
    have next : (argbase + argumentLength arg).toNat = argbase.toNat + argumentSize arg := by
      rw [toNat_add]
      omega
    have copied := copyoutstr_ok (plain arg mem_cons_self) (show arg.length < (argumentLength arg).toNat by omega)
      (show argbase.toNat + (argumentLength arg).toNat ≤ userStack.toNat by omega) writable
    have stored : ∀ a, (argbase + argumentLength arg).toNat ≤ a → a < userStack.toNat →
        UserMem.writable { mem with cell := write mem.cell argbase.toNat (arg ++ [0]) } a = true :=
      fun a above below => writable a (by omega) below
    obtain ⟨filled, looped, kept, low, texts⟩ :=
      ih (fun other member => plain other (mem_cons_of_mem _ member)) (by omega) stored
    refine ⟨filled, ?_, kept, fun a below => ?_, ⟨plain arg mem_cons_self, ?_⟩, next ▸ texts⟩
    · rw [map_cons, zip_cons_cons, stringLoop, copied, looped]
    · rw [low a (by omega)]
      exact if_neg (by omega)
    · intro offset small
      have inside : offset < arg.length + 1 := by simpa using small
      rw [UserMem.read, if_pos (by omega), low _ (by omega)]
      exact holds_write mem.cell argbase.toNat (arg ++ [0]) offset small

theorem ArgumentsAt.of_texts {read : Nat → Option Byte} {argbase : Vaddr} {base : Nat}
    (ends : argbase.toNat + base + argumentsSize argv = userStack.toNat)
    (words : Strings.Holds read address (pointerBytes argbase (argumentStarts base argv)))
    (texts : TextsAt read (argbase.toNat + base) argv) {low : Nat} (above : low ≤ argbase.toNat + base) :
    ArgumentsAt read address low argv := by
  induction argv generalizing address base low with
  | nil =>
    exact .nil words (by omega)
  | cons arg rest ih =>
    have size : argumentsSize (arg :: rest) = argumentSize arg + argumentsSize rest := sum_cons
    rw [argumentStarts, pointerBytes_cons, holds_append] at words
    have ptr : (argbase + BitVec.ofNat 32 base).toNat = argbase.toNat + base := by
      rw [toNat_add, toNat_ofNat]
      omega
    refine .cons words.1 (by omega) (ptr ▸ texts.1) (ih (by omega) words.2 ?_ ?_)
    · rw [← Nat.add_assoc]
      exact texts.2
    · unfold argumentSize
      omega

theorem argumentsSize_mod (argv : List (List Byte)) : argumentsSize argv % 4 = 0 := by
  induction argv with
  | nil => rfl
  | cons arg rest ih =>
    have size : argumentsSize (arg :: rest) = argumentSize arg + argumentsSize rest := sum_cons
    rw [size, argumentSize]
    omega

/-- A program starts with its arguments on an aligned stack. -/
theorem initial_stack_layout {arrays : Bool} {sp : Vaddr} {started : UserMem}
    (plain : ∀ arg ∈ argv, (0 : Byte) ∉ arg) (few : argv.length ≤ nargMax)
    (fits : argumentsSize argv + 4 * (argv.length + 1) ≤ stackPages * pageSize)
    (writable : ∀ a, userStack.toNat - (argumentsSize argv + 4 * (argv.length + 1)) ≤ a → a < userStack.toNat →
      mem.writable a = true)
    (entered : pushArguments arrays argv userStack mem = .ok (sp, started)) :
    sp.toNat % 4 = 0 ∧ ArgumentsAt started.read sp.toNat (sp.toNat + 4 * (argv.length + 1)) argv := by
  have bound : userStack.toNat = 2147483648 := rfl
  have pages : stackPages * pageSize = 49152 := rfl
  have multiple := argumentsSize_mod argv
  obtain ⟨argbase, there⟩ : ∃ argbase, userStack - BitVec.ofNat 32 (argumentsSize argv) = argbase := ⟨_, rfl⟩
  have base : argbase.toNat = userStack.toNat - argumentsSize argv := by
    rw [← there, toNat_sub, toNat_ofNat]
    omega
  obtain ⟨filled, looped, kept, low, texts⟩ := stringLoop_texts plain (show argbase.toNat + _ = _ by omega)
    (fun a above below => writable a (by omega) below)
  unfold pushArguments at entered
  split at entered
  · cases entered
  rw [show (0 : Word32) = BitVec.ofNat 32 0 from rfl, sizeLoop_ok (by simpa using few), ok_bind] at entered
  dsimp only [nil_append] at entered
  rw [Nat.zero_add, there, looped] at entered
  rw [there] at entered
  obtain ⟨rfl, rfl⟩ := Prod.mk.inj (Except.ok.inj entered)
  have words := pointerBytes_length argbase (argumentStarts 0 argv)
  rw [argumentStarts_length] at words
  have stack := pointers_toNat (show 4 * (argv.length + 1) ≤ argbase.toNat by omega)
  rw [pointerLoop_eq filled (by omega) fun offset small => by rw [kept]; exact writable _ (by omega) (by omega)]
  exact ⟨by omega, .of_texts (show _ + 0 + _ = _ by omega) (filled.holds_read_write (by omega))
    (texts.apart (by omega)) (by omega)⟩

/-- The arguments of `p testbin/add 2` on a writable stack -/
theorem initial_stack_layout_add : ∃ sp started,
    pushArguments true [[97, 100, 100], [50]] userStack letters = .ok (sp, started) ∧
    ArgumentsAt started.read sp.toNat (sp.toNat + 12) [[97, 100, 100], [50]] := by
  have entered : pushArguments true [[97, 100, 100], [50]] userStack letters = .ok (_, _) := rfl
  exact ⟨_, _, entered,
    (initial_stack_layout (by decide) (by decide) (by decide) (fun _ _ _ => by simp [letters]) entered).2⟩

end Os161.Syscall
