import Os161.Syscall.Execv

namespace Os161.Syscall
open Word Vm File Outcome Strings List BitVec ArgState

variable {address : Nat} {space : AddrSpace}

/-- A vector of pointers to strings, with a null pointer at its end. -/
inductive VectorAt (read : Nat → Option Byte) : Nat → List (List Byte) → Prop where
  | nil {address : Nat} (null : Strings.Holds read address (wordBytes 0)) : VectorAt read address []
  | cons {address : Nat} {pointer : Vaddr} {text : List Byte} {rest : List (List Byte)}
      (nonzero : pointer ≠ 0) (word : Strings.Holds read address (wordBytes pointer))
      (string : StringAt 0 read pointer.toNat text) (tail : VectorAt read (address + 4) rest) :
      VectorAt read address (text :: rest)

/-- The strings that a loop of at most `todo` rounds finds behind the pointers. -/
inductive FetchedAt (read : Nat → Option Byte) : (todo address : Nat) → List (List Byte) → Prop where
  | limit {address : Nat} : FetchedAt read 0 address []
  | nil {todo address : Nat} (null : Strings.Holds read address (wordBytes 0)) :
      FetchedAt read (todo + 1) address []
  | cons {todo address : Nat} {pointer : Vaddr} {text : List Byte} {rest : List (List Byte)}
      (nonzero : pointer ≠ 0) (word : Strings.Holds read address (wordBytes pointer))
      (string : StringAt 0 read pointer.toNat text) (tail : FetchedAt read todo (address + 4) rest) :
      FetchedAt read (todo + 1) address (text :: rest)

/-- The memory outside the closed pages. -/
def loadable (read : Nat → Option Byte) (closed : Nat → Bool) (address : Nat) : Option Byte :=
  if closed address then none else read address

/-- The strings one behind the other, each with its terminator. -/
def flatten (strings : List (List Byte)) : List Byte := strings.flatMap (· ++ [0])

/-- The size of the strings with their terminators. -/
def total (strings : List (List Byte)) : Nat := (flatten strings).length

/-- The offsets of the strings when the first one is at the given offset. -/
def starts : Nat → List (List Byte) → List Word32
  | _, [] => []
  | base, text :: rest => BitVec.ofNat 32 base :: starts (base + (text.length + 1)) rest

/-- The limits for an argument vector: `NARG_MAX` strings of `ARG_MAX` bytes that fit the stack with
their pointers. -/
structure Passable (strings : List (List Byte)) : Prop where
  count : strings.length ≤ nargMax
  size : total strings ≤ argMax.toNat
  stack : (total strings + 3) / 4 * 4 + 4 * (strings.length + 1) ≤ stackPages * pageSize

/-- The new program has the strings as its arguments, and the kernel has stayed inside its buffer. -/
structure Started.Delivered (program : Started) (strings : List (List Byte)) : Prop where
  argc : program.argc = strings.length
  argv : VectorAt program.mem.read program.argv.toNat strings
  buffer : program.extent ≤ bufferBytes

@[simp] theorem wordBytes_length (word : Word32) : (wordBytes word).length = 4 := rfl

theorem wordBytes_ne_nil (word : Word32) : wordBytes word ≠ [] :=
  ne_nil_of_length_pos (by rw [wordBytes_length]; decide)

theorem be32_wordBytes (word : Word32) : be32 (wordBytes word) 0 = word :=
  (be32_encode (halves word) 0).trans (halves_join word)

theorem wordBytes_injective (same : wordBytes left = wordBytes right) : left = right := by
  rw [← be32_wordBytes left, same, be32_wordBytes]

@[simp] theorem flatten_cons (text : List Byte) (rest : List (List Byte)) :
    flatten (text :: rest) = text ++ [0] ++ flatten rest := rfl

@[simp] theorem total_cons (text : List Byte) (rest : List (List Byte)) :
    total (text :: rest) = text.length + 1 + total rest := by
  simp only [total, flatten_cons, length_append, length_singleton]

@[simp] theorem starts_length (base : Nat) (strings : List (List Byte)) :
    (starts base strings).length = strings.length := by
  induction strings generalizing base with
  | nil => rfl
  | cons text rest ih => rw [starts, length_cons, ih, length_cons]

variable {read : Nat → Option Byte}

theorem VectorAt.unique (first : VectorAt read address left) (second : VectorAt read address right) :
    left = right := by
  induction first generalizing right with
  | nil null =>
    cases second with
    | nil _ => rfl
    | cons nonzero word _ _ =>
      exact absurd (wordBytes_injective (word.unique null rfl)) nonzero
  | cons nonzero word string _ ih =>
    cases second with
    | nil null => exact absurd (wordBytes_injective (word.unique null rfl)) nonzero
    | cons _ again other tail =>
      cases wordBytes_injective (word.unique again rfl)
      rw [string.unique other, ih tail]

variable {strings : List (List Byte)}

theorem FetchedAt.plain (vector : FetchedAt read todo address strings) :
    ∀ text ∈ strings, (0 : Byte) ∉ text := by
  induction vector with
  | limit | nil _ => simp
  | cons _ _ string _ ih =>
    intro text member
    obtain rfl | later := mem_cons.mp member
    · exact string.plain
    · exact ih text later

theorem length_le_total (strings : List (List Byte)) : strings.length ≤ total strings := by
  induction strings with
  | nil => exact Nat.zero_le _
  | cons text rest ih =>
    rw [length_cons, total_cons]
    omega

theorem Passable.of_small (small : total strings ≤ bufferBytes) : Passable strings := by
  have few := (length_le_total strings).trans small
  have size : argMax.toNat = 65536 := rfl
  have most : nargMax = 1024 := rfl
  have four : bufferBytes = 4 := rfl
  refine ⟨?_, ?_, ?_⟩
  · omega
  · omega
  · simp only [stackPages, pageSize]
    omega

variable {closed : Nat → Bool} {touched : List Nat}

theorem vnodeCheck_ok : vnodeCheck closed touched = .ok () ↔ ∀ place ∈ touched, closed place = false := by
  unfold vnodeCheck
  split
  · rename_i stops
    obtain ⟨place, member, hit⟩ := any_eq_true.mp stops
    exact ⟨nofun, fun clear => absurd ((clear place member).symm.trans hit) (by decide)⟩
  · rename_i clear
    refine ⟨fun _ place member => ?_, fun _ => rfl⟩
    exact Bool.eq_false_of_not_eq_true fun hit => clear (any_eq_true.mpr ⟨place, member, hit⟩)

theorem holds_loadable {data : List Byte} : Strings.Holds (loadable read closed) address data ↔
    Strings.Holds read address data ∧ ∀ place ∈ range' address data.length, closed place = false := by
  have cell {place : Nat} {byte : Byte} : loadable read closed place = some byte ↔
      read place = some byte ∧ closed place = false := by
    unfold loadable
    split
    · simp_all
    · simp_all
  constructor
  · intro held
    have both (offset : Nat) (small : offset < data.length) := cell.mp
      ((held offset small).trans (List.getElem?_eq_getElem small))
    refine ⟨fun offset small => ?_, fun place member => ?_⟩
    · rw [(both offset small).1, List.getElem?_eq_getElem small]
    · obtain ⟨offset, small, rfl⟩ := mem_range'.mp member
      rw [Nat.one_mul]
      exact (both offset small).2
  · rintro ⟨held, clear⟩ offset small
    rw [List.getElem?_eq_getElem small]
    refine cell.mpr ⟨(held offset small).trans (List.getElem?_eq_getElem small), clear _ ?_⟩
    exact mem_range'.mpr ⟨offset, small, by rw [Nat.one_mul]⟩

theorem stringAt_loadable {text : List Byte} : StringAt 0 (loadable read closed) address text ↔
    StringAt 0 read address text ∧ ∀ place ∈ range' address (text.length + 1), closed place = false := by
  have size : (text ++ [(0 : Byte)]).length = text.length + 1 := by simp
  constructor
  · intro string
    obtain ⟨held, clear⟩ := holds_loadable.mp string.held
    exact ⟨⟨string.plain, held⟩, size ▸ clear⟩
  · rintro ⟨string, clear⟩
    exact ⟨string.plain, holds_loadable.mpr ⟨string.held, size.symm ▸ clear⟩⟩

variable {mem : UserMem}

theorem ArgState.fetchKarg_holds {s : ArgState}
    (word : Strings.Holds mem.read s.args.toNat (wordBytes ptr)) : s.fetchKarg mem = ptr := by
  have moved : copyin mem s.args 4 = (0, wordBytes ptr) :=
    copyin_holds word rfl (wordBytes_ne_nil ptr)
  have rest : (wordBytes s.karg).drop (wordBytes ptr).length = [] := rfl
  rw [fetchKarg, moved]
  rw [rest, append_nil, be32_wordBytes]

/-- After the first strings: how much of the buffer is used. -/
structure ArgState.Used (s : ArgState) (used : Nat) : Prop where
  bufend : s.bufend = BitVec.ofNat 32 used
  resid : s.resid = BitVec.ofNat 32 (argMax.toNat - used)
  extent : s.extent = used

theorem ArgState.copyString_used {s : ArgState} (progress : s.Used used) {ptr : Vaddr}
    (string : StringAt 0 mem.read ptr.toNat text) (fits : used + (text.length + 1) ≤ argMax.toNat) :
    (s.copyString mem ptr).Used (used + (text.length + 1)) ∧
      (s.copyString mem ptr).args = s.args + 4 ∧
      (s.copyString mem ptr).offsets = s.offsets ++ [BitVec.ofNat 32 used] ∧
      (s.copyString mem ptr).buffer = Bytes.store used (text ++ [0]) s.buffer := by
  have size : argMax.toNat = 65536 := rfl
  have bound : userStack.toNat = 2147483648 := rfl
  have resid : s.resid.toNat = 65536 - used := by
    rw [progress.resid, toNat_ofNat]
    omega
  have bufend : s.bufend.toNat = used := by
    rw [progress.bufend, toNat_ofNat]
    omega
  have within := UserMem.holds_le string.held (by simp)
  have copied := copyinstr_string string (show text.length < s.resid.toNat by omega) (by omega)
  have round : s.copyString mem ptr =
      { args := s.args + 4
        karg := ptr
        alen := BitVec.ofNat 32 (text.length + 1)
        bufend := s.bufend + BitVec.ofNat 32 (text.length + 1)
        resid := s.resid - BitVec.ofNat 32 (text.length + 1)
        offsets := s.offsets ++ [argMax - s.resid]
        buffer := Bytes.store s.bufend.toNat (text ++ [0]) s.buffer
        extent := max s.extent (s.bufend.toNat + (text ++ [0]).length) } := by
    unfold copyString
    rw [copied]
    dsimp only
    rw [if_neg (by simp), Option.getD_some]
  have offset : argMax - s.resid = BitVec.ofNat 32 used := by
    apply eq_of_toNat_eq
    rw [toNat_sub, toNat_ofNat]
    omega
  rw [round, bufend, offset]
  refine ⟨⟨?_, ?_, ?_⟩, rfl, rfl, rfl⟩
  · rw [progress.bufend, ← ofNat_add]
  · apply eq_of_toNat_eq
    rw [toNat_sub, toNat_ofNat, toNat_ofNat]
    omega
  · dsimp only
    rw [progress.extent, length_append, length_singleton]
    omega

theorem ArgState.word_touched {s : ArgState} (word : Strings.Holds mem.read s.args.toNat (wordBytes ptr)) :
    (Traced.copyin mem s.args 4).touched = range' s.args.toNat (wordBytes ptr).length :=
  Traced.copyin_touched word rfl (wordBytes_ne_nil ptr)

theorem ArgState.Used.string_touched {s : ArgState} (progress : s.Used used) {ptr : Vaddr}
    (string : StringAt 0 mem.read ptr.toNat text) (fits : used + (text.length + 1) ≤ argMax.toNat) :
    (Traced.copyinstr mem ptr s.resid).touched = range' ptr.toNat (text.length + 1) := by
  have size : argMax.toNat = 65536 := rfl
  have bound : userStack.toNat = 2147483648 := rfl
  have resid : s.resid.toNat = 65536 - used := by
    rw [progress.resid, toNat_ofNat]
    omega
  have within := UserMem.holds_le string.held (by simp)
  exact Traced.copyinstr_touched string (by omega) (by omega)

theorem argLoop_vector {todo used : Nat} {s : ArgState}
    (vector : FetchedAt (loadable mem.read closed) todo s.args.toNat strings) (progress : s.Used used)
    (fits : used + total strings ≤ argMax.toNat) :
    ∃ s', argLoop mem closed todo s = .ok s' ∧ s'.Used (used + total strings) ∧
      s'.offsets = s.offsets ++ starts used strings ∧
      s'.buffer = Bytes.store used (flatten strings) s.buffer := by
  induction todo generalizing s used strings with
  | zero =>
    cases vector
    exact ⟨s, rfl, progress, (append_nil _).symm, rfl⟩
  | succ todo ih =>
    cases vector with
    | nil null =>
      obtain ⟨held, clear⟩ := holds_loadable.mp null
      rw [argLoop, word_touched held, vnodeCheck_ok.mpr clear, ok_bind, fetchKarg_holds held]
      exact ⟨_, rfl, ⟨progress.bufend, progress.resid, progress.extent⟩, (append_nil _).symm, rfl⟩
    | @cons _ _ ptr text rest nonzero word string tail =>
      obtain ⟨word, clear⟩ := holds_loadable.mp word
      obtain ⟨string, opened⟩ := stringAt_loadable.mp string
      have inside := UserMem.holds_le word (wordBytes_ne_nil ptr)
      rw [total_cons] at fits
      have room : used + (text.length + 1) ≤ argMax.toNat := by omega
      obtain ⟨next, args, offsets, buffer⟩ := copyString_used progress string room
      have address : (s.copyString mem ptr).args.toNat = s.args.toNat + 4 := by
        bv_omega
      obtain ⟨s', later, final, list, stored⟩ := ih (address ▸ tail) next (by omega)
      rw [argLoop, word_touched word, vnodeCheck_ok.mpr clear, ok_bind, fetchKarg_holds word]
      rw [if_neg nonzero, progress.string_touched string room, vnodeCheck_ok.mpr opened, ok_bind, later]
      refine ⟨s', rfl, ?_, ?_, ?_⟩
      · rw [total_cons, ← Nat.add_assoc]
        exact final
      · rw [list, offsets, List.append_assoc]
        rfl
      · have joined := Bytes.store_append used (text ++ [0]) (flatten rest) s.buffer
        rw [length_append] at joined
        rw [stored, buffer]
        exact joined

theorem ArgState.copyString_grows (s : ArgState) (mem : UserMem) (karg : Vaddr) :
    (s.copyString mem karg).offsets = s.offsets ++ [argMax - s.resid] ∧
      s.extent ≤ (s.copyString mem karg).extent := by
  unfold copyString
  generalize copyinstr mem karg s.resid = reply
  refine ⟨rfl, ?_⟩
  dsimp only
  split
  · exact Nat.le_refl _
  · exact Nat.le_max_left _ _

theorem argLoop_grows {s s' : ArgState} (ran : argLoop mem closed todo s = .ok s') :
    s.offsets.length ≤ s'.offsets.length ∧ s.extent ≤ s'.extent := by
  induction todo generalizing s with
  | zero =>
    cases ran
    exact ⟨Nat.le_refl _, Nat.le_refl _⟩
  | succ todo ih =>
    obtain ⟨_, _, fetched⟩ := bind_ok.mp ran
    dsimp only at fetched
    split at fetched
    · cases fetched
      exact ⟨Nat.le_refl _, Nat.le_refl _⟩
    · obtain ⟨_, _, rest⟩ := bind_ok.mp fetched
      obtain ⟨offsets, extent⟩ := s.copyString_grows mem (s.fetchKarg mem)
      obtain ⟨more, further⟩ := ih rest
      rw [offsets, length_append] at more
      exact ⟨(Nat.le_add_right _ _).trans more, extent.trans further⟩

theorem ArgState.copyString_long {s : ArgState} (progress : s.Used used) {ptr : Vaddr}
    (string : StringAt 0 mem.read ptr.toNat text) (small : used ≤ bufferBytes)
    (long : bufferBytes < used + (text.length + 1)) : bufferBytes < (s.copyString mem ptr).extent := by
  have size : argMax.toNat = 65536 := rfl
  have bound : userStack.toNat = 2147483648 := rfl
  by_cases fits : used + (text.length + 1) ≤ argMax.toNat
  · rw [(copyString_used progress string fits).1.extent]
    exact long
  · have four : bufferBytes = 4 := rfl
    have resid : s.resid.toNat = 65536 - used := by
      rw [progress.resid, toNat_ofNat]
      omega
    have within := UserMem.holds_le string.held (by simp)
    have cut := copyinstr_truncated string (show 1 ≤ s.resid.toNat by omega) (by omega) (by omega)
    have taken : (text.take s.resid.toNat).length = 65536 - used := by
      rw [length_take, resid]
      omega
    unfold copyString
    rw [cut]
    dsimp only
    rw [if_neg (ne_nil_of_length_pos (by omega)), taken, bufend]
    omega

/-- A run inside the buffer has read the vector outside the closed pages. -/
theorem argLoop_fetched {todo used : Nat} {s s' : ArgState}
    (found : FetchedAt mem.read todo s.args.toNat strings) (progress : s.Used used)
    (ran : argLoop mem closed todo s = .ok s') (small : s'.extent ≤ bufferBytes) :
    FetchedAt (loadable mem.read closed) todo s.args.toNat strings ∧ used + total strings ≤ bufferBytes := by
  have few : used ≤ bufferBytes := progress.extent ▸ (argLoop_grows ran).2.trans small
  induction todo generalizing s used strings with
  | zero =>
    cases found
    exact ⟨.limit, few⟩
  | succ todo ih =>
    obtain ⟨_, clear, fetched⟩ := bind_ok.mp ran
    rw [vnodeCheck_ok] at clear
    cases found with
    | nil null =>
      rw [word_touched null] at clear
      exact ⟨.nil (holds_loadable.mpr ⟨null, clear⟩), few⟩
    | @cons _ _ ptr text rest nonzero word string tail =>
      have inside := UserMem.holds_le word (wordBytes_ne_nil ptr)
      rw [word_touched word] at clear
      rw [fetchKarg_holds word, if_neg nonzero] at fetched
      obtain ⟨_, opened, looped⟩ := bind_ok.mp fetched
      rw [vnodeCheck_ok] at opened
      have grown := (argLoop_grows looped).2.trans small
      by_cases long : bufferBytes < used + (text.length + 1)
      · exact absurd (copyString_long progress string few long) (Nat.not_lt.mpr grown)
      · have room : used + (text.length + 1) ≤ argMax.toNat := (Nat.not_lt.mp long).trans (by decide)
        rw [progress.string_touched string room] at opened
        obtain ⟨next, args, _, _⟩ := copyString_used progress string room
        have address : (s.copyString mem ptr).args.toNat = s.args.toNat + 4 := by
          bv_omega
        obtain ⟨later, fits⟩ := ih (address.symm ▸ tail) next looped (Nat.not_lt.mp long)
        refine ⟨.cons nonzero (holds_loadable.mpr ⟨word, clear⟩) (stringAt_loadable.mpr ⟨string, opened⟩) ?_, ?_⟩
        · rw [← address]
          exact later
        · rw [total_cons, ← Nat.add_assoc]
          exact fits

/-- The words that the second loop writes. -/
def pointerBytes (argbase : Vaddr) (offsets : List Word32) : List Byte :=
  offsets.flatMap (fun offset => wordBytes (argbase + offset)) ++ wordBytes 0

theorem pointerBytes_cons (argbase : Vaddr) (offset : Word32) (rest : List Word32) :
    pointerBytes argbase (offset :: rest) =
      wordBytes (argbase + offset) ++ pointerBytes argbase rest := by
  rfl

theorem pointerBytes_length (argbase : Vaddr) (offsets : List Word32) :
    (pointerBytes argbase offsets).length = 4 * (offsets.length + 1) := by
  induction offsets with
  | nil => rfl
  | cons offset rest ih =>
    rw [pointerBytes_cons, length_append, wordBytes_length, length_cons]
    omega

variable {argbase : Vaddr}

theorem pointerLoop_eq (mem : UserMem) {uargs : Vaddr} {offsets : List Word32}
    (fits : uargs.toNat + (pointerBytes argbase offsets).length ≤ userStack.toNat)
    (writable : ∀ offset < (pointerBytes argbase offsets).length,
      mem.writable (uargs.toNat + offset) = true) :
    pointerLoop mem argbase uargs offsets =
      { mem with cell := write mem.cell uargs.toNat (pointerBytes argbase offsets) } := by
  induction offsets generalizing mem uargs with
  | nil => rw [pointerLoop, copyout_ok (wordBytes_ne_nil 0) fits writable]; rfl
  | cons offset rest ih =>
    rw [pointerBytes_cons, length_append, wordBytes_length] at fits writable
    have next : (uargs + 4).toNat = uargs.toNat + 4 := by
      bv_omega
    have first := copyout_ok (wordBytes_ne_nil (argbase + offset))
      (show uargs.toNat + (wordBytes (argbase + offset)).length ≤ userStack.toNat by
        rw [wordBytes_length]; omega)
      (fun pos small => writable pos (by rw [wordBytes_length] at small; omega))
    rw [pointerLoop, first, ih _ (by omega)]
    · rw [next, pointerBytes_cons, ← write_append, wordBytes_length]
    · intro pos small
      rw [next, Nat.add_assoc]
      exact writable _ (by omega)

theorem VectorAt.of_holds {base : Nat} (plain : ∀ text ∈ strings, (0 : Byte) ∉ text)
    (pos : 0 < argbase.toNat) (fits : argbase.toNat + base + total strings < 2 ^ 32)
    (words : Strings.Holds read address (pointerBytes argbase (starts base strings)))
    (texts : Strings.Holds read (argbase.toNat + base) (flatten strings)) :
    VectorAt read address strings := by
  induction strings generalizing address base with
  | nil => exact .nil words
  | cons text rest ih =>
    rw [total_cons] at fits
    rw [starts, pointerBytes_cons, holds_append] at words
    rw [flatten_cons, holds_append, length_append] at texts
    have ptr : (argbase + BitVec.ofNat 32 base).toNat = argbase.toNat + base := by
      rw [toNat_add, toNat_ofNat]
      omega
    have nonzero : argbase + BitVec.ofNat 32 base ≠ 0 := by
      intro null
      have zero : (0 : Vaddr).toNat = 0 := rfl
      rw [null] at ptr
      omega
    refine .cons nonzero words.1 ⟨plain text mem_cons_self, ?_⟩ ?_
    · rw [ptr]
      exact texts.1
    · refine ih (fun text member => plain text (mem_cons_of_mem _ member)) ?_ words.2 ?_
      · omega
      · rw [← Nat.add_assoc]
        exact texts.2

theorem range_store (data : List Byte) (memory : Nat → Byte) :
    (List.range data.length).map (Bytes.store 0 data memory) = data := by
  apply ext_getElem
  · simp
  · intro pos _ small
    have stored := Bytes.store_inside 0 memory small
    rw [Nat.zero_add] at stored
    rw [getElem_map, getElem_range, stored]

theorem align_toNat (stack : Vaddr) : (stack - (stack &&& 3)).toNat = stack.toNat / 4 * 4 := by
  have low : (stack &&& 3).toNat = stack.toNat % 4 := by
    exact Nat.and_two_pow_sub_one_eq_mod stack.toNat 2
  rw [toNat_sub_of_le (by rw [le_def]; omega)]
  omega

theorem pointers_toNat {count : Nat} (room : 4 * (count + 1) ≤ argbase.toNat) :
    (argbase - (BitVec.ofNat 32 count + 1) * 4).toNat = argbase.toNat - 4 * (count + 1) := by
  have small : count < 2 ^ 32 := by omega
  have words : ((BitVec.ofNat 32 count + 1) * 4).toNat = 4 * (count + 1) := by
    rw [toNat_mul, toNat_add, toNat_ofNat, Nat.mod_eq_of_lt small]
    change (count + 1) % 4294967296 * 4 % 4294967296 = _
    omega
  rw [toNat_sub_of_le (by rw [le_def, words]; exact room), words]

theorem pushed_vector {uargs : Vaddr} (plain : ∀ text ∈ strings, (0 : Byte) ∉ text)
    (texts : argbase.toNat + (flatten strings).length ≤ userStack.toNat)
    (words : uargs.toNat + (pointerBytes argbase (starts 0 strings)).length = argbase.toNat)
    (lower : stackBase.toNat ≤ uargs.toNat)
    (stack : ∀ address, stackBase.toNat ≤ address → address < userStack.toNat →
      mem.writable address = true) :
    VectorAt (pointerLoop (copyout mem (flatten strings) argbase).2 argbase uargs
      (starts 0 strings)).read uargs.toNat strings := by
  have bottom : stackBase.toNat = 2147434496 := rfl
  have inside : uargs.toNat + (pointerBytes argbase (starts 0 strings)).length ≤ userStack.toNat := by
    omega
  obtain ⟨writable, held⟩ := copyout_holds texts
    (fun offset small => stack (argbase.toNat + offset) (by omega) (by omega))
  generalize (copyout mem (flatten strings) argbase).2 = filled at writable held ⊢
  have linked := pointerLoop_eq filled inside (fun offset small => by
    rw [writable]
    exact stack (uargs.toNat + offset) (by omega) (by omega))
  rw [linked]
  have below := UserMem.holds_read_apart held (.inr words.le)
  refine VectorAt.of_holds plain ?_ ?_ (filled.holds_read_write inside) ?_
  · omega
  · rw [total]
    omega
  · exact below

variable {args : Vaddr}

theorem pointersTouched_range {uargs : Vaddr} {count : Nat} (fits : uargs.toNat + 4 * count ≤ userStack.toNat)
    (member : place ∈ pointersTouched mem uargs count) :
    uargs.toNat ≤ place ∧ place < uargs.toNat + 4 * count := by
  induction count generalizing uargs with
  | zero => cases member
  | succ count ih =>
    rcases mem_append.mp member with here | later
    · have inside := copyBlock_range here
      have four : (4 : Word32).toNat = 4 := rfl
      omega
    · have next : (uargs + 4).toNat = uargs.toNat + 4 := by
        bv_omega
      have inside := ih (by omega) later
      omega

/-- A vector in the new memory becomes the arguments of the new program. -/
theorem copyArguments_vector (env : ExecEnv) (mem : UserMem) (entrypoint : Vaddr)
    (vector : FetchedAt (loadable mem.read closed) nargMax args.toNat strings) (passable : Passable strings)
    (stack : ∀ address, stackBase.toNat ≤ address → address < userStack.toNat →
      mem.writable address = true ∧ closed address = false) :
    ∃ program, copyArguments env mem closed args userStack entrypoint = .ok program ∧
      program.argc = strings.length ∧ VectorAt program.mem.read program.argv.toNat strings ∧
      program.extent = total strings := by
  have bound : userStack.toNat = 2147483648 := rfl
  have bottom : stackBase.toNat = 2147434496 := rfl
  have room : (total strings + 3) / 4 * 4 + 4 * (strings.length + 1) ≤ 49152 := passable.stack
  obtain ⟨s, looped, used, offsets, buffer⟩ := argLoop_vector (s := env.argStart args) vector ⟨rfl, rfl, rfl⟩
    ((Nat.zero_add _).trans_le passable.size)
  rw [Nat.zero_add] at used
  rw [copyArguments, looped, ok_bind]
  dsimp only
  rw [show (env.argStart args).offsets = [] from rfl, nil_append] at offsets
  have len : s.bufend.toNat = (flatten strings).length := by
    rw [used.bufend, toNat_ofNat, ← total]
    omega
  have copied : (List.range s.bufend.toNat).map s.buffer = flatten strings := by
    rw [len, buffer, range_store]
  rw [copied, offsets, starts_length]
  -- the strings end at the top of the stack, with the pointers below them
  have top : (userStack - s.bufend).toNat = userStack.toNat - total strings := by
    rw [toNat_sub_of_le (by rw [le_def, len, ← total]; omega), len, total]
  have base := align_toNat (userStack - s.bufend)
  generalize userStack - s.bufend - ((userStack - s.bufend) &&& 3) = argbase at base ⊢
  have pointers := pointers_toNat (show 4 * (strings.length + 1) ≤ argbase.toNat by omega)
  generalize argbase - (BitVec.ofNat 32 strings.length + 1) * 4 = uargs at pointers ⊢
  have texts (place : Nat) (member : place ∈ (Traced.copyout mem s.buffer argbase s.bufend).touched) :
      closed place = false := by
    have inside := copyBlock_range member
    rw [len, ← total] at inside
    exact (stack place (by omega) (by omega)).2
  have words (place : Nat) (member : place ∈
      pointersTouched (copyout mem (flatten strings) argbase).2 uargs (strings.length + 1)) :
      closed place = false := by
    have inside := pointersTouched_range (by omega) member
    exact (stack place (by omega) (by omega)).2
  rw [vnodeCheck_ok.mpr texts, ok_bind, vnodeCheck_ok.mpr words, ok_bind]
  refine ⟨_, rfl, rfl, pushed_vector vector.plain ?_ ?_ ?_ fun place above below => (stack place above below).1,
    used.extent⟩
  · rw [← total]
    omega
  · rw [pointerBytes_length, starts_length]
    omega
  · omega

theorem copyArguments_loop (ran : copyArguments env mem closed args stackptr entrypoint = .ok program) :
    ∃ s, argLoop mem closed nargMax (env.argStart args) = .ok s ∧ program.argc = s.offsets.length ∧
      program.extent = s.extent := by
  obtain ⟨s, looped, rest⟩ := bind_ok.mp ran
  obtain ⟨_, _, rest⟩ := bind_ok.mp rest
  obtain ⟨_, _, rest⟩ := bind_ok.mp rest
  cases rest
  exact ⟨s, looped, rfl, rfl⟩

variable {env : ExecEnv}

theorem fetchKarg_unreadable (empty : mem.read args.toNat = none) :
    (env.argStart args).fetchKarg mem = env.karg := by
  have moved : (copyin mem (env.argStart args).args 4).2 = [] := copyin_unreadable empty
  rw [fetchKarg, moved]
  exact be32_wordBytes env.karg

theorem argLoop_unreadable {s : ArgState} (empty : mem.read args.toNat = none)
    (ran : argLoop mem closed (todo + 1) (env.argStart args) = .ok s) : s.offsets.length = 0 ↔ env.karg = 0 := by
  obtain ⟨_, _, fetched⟩ := bind_ok.mp ran
  rw [fetchKarg_unreadable empty] at fetched
  by_cases null : env.karg = 0
  · rw [if_pos null] at fetched
    cases fetched
    exact ⟨fun _ => null, fun _ => rfl⟩
  · rw [if_neg null] at fetched
    obtain ⟨_, _, looped⟩ := bind_ok.mp fetched
    obtain ⟨grown, _⟩ := argLoop_grows looped
    have one : ((env.argStart args).copyString mem env.karg).offsets.length = 1 := by
      rfl
    exact ⟨fun zero => by omega, fun zero => absurd zero null⟩

theorem argc_unreadable (empty : mem.read args.toNat = none)
    (ran : copyArguments env mem closed args stackptr entrypoint = .ok program) :
    program.argc = 0 ↔ env.karg = 0 := by
  obtain ⟨s, looped, argc, _⟩ := copyArguments_loop ran
  rw [argc]
  exact argLoop_unreadable empty looped

/-- A call of `sys_execv` on a path that loads, with the memory that it needs. -/
structure PathLoads (env : ExecEnv) (as : Option AddrSpace) (old : UserMem) (progname args : Vaddr)
    (s : ExecState) (entrypoint : Vaddr) (space : AddrSpace) (core : CoreState) : Prop where
  memory : env.path = true ∧ env.buffer = true ∧ env.offsets = true
  argsAccepted : execvRefuses as args = false
  pathAccepted : execvRefuses as progname = false
  path : ∃ bytes, execvPath env old progname = (0, bytes) ∧ bytes.head? ≠ some 0
  opened : env.vfs.result 0 = 0
  loaded : ∃ new, asCreate env.heap = .ok (some new) ∧
    loadElf env.files (env.vfs.found 0).2 new s.core = .ok (0, some entrypoint, space, core)

variable {s : ExecState} {as : Option AddrSpace} {old : UserMem} {progname entrypoint : Vaddr}
  {core : CoreState}

section

variable (loads : PathLoads env as old progname args s entrypoint space core)
include loads

theorem PathLoads.sysExecv_eq :
    ∃ after, sysExecv env as old progname args s = space.check >>= fun _ =>
      copyArguments env (newMemory env.files space) (fileClosed space s.vnodes) args userStack entrypoint >>=
        fun program => .ok (.started program after) := by
  obtain ⟨path, buffer, offsets⟩ := loads.memory
  obtain ⟨bytes, copied, filled⟩ := loads.path
  obtain ⟨new, made, loaded⟩ := loads.loaded
  simp only [sysExecv, path, if_true, loads.argsAccepted, loads.pathAccepted, copied, if_neg filled, vfsOpen_eq,
    if_pos loads.opened, ok_bind,
    execvLoad, made, ExecState.allocate, loaded, vfsClose_opened, buffer, offsets]
  exact ⟨_, rfl⟩

theorem PathLoads.starts (usable : space.Usable) (ran : copyArguments env (newMemory env.files space)
    (fileClosed space s.vnodes) args userStack entrypoint = .ok program) :
    ∃ after, sysExecv env as old progname args s = .ok (.started program after) := by
  obtain ⟨after, same⟩ := loads.sysExecv_eq
  rw [space.check_ok.mpr usable, ok_bind, ran, ok_bind] at same
  exact ⟨after, same⟩

theorem PathLoads.started {after : ExecState}
    (entered : sysExecv env as old progname args s = .ok (.started program after)) :
    copyArguments env (newMemory env.files space) (fileClosed space s.vnodes) args userStack entrypoint =
      .ok program := by
  obtain ⟨_, same⟩ := loads.sysExecv_eq
  rw [same] at entered
  obtain ⟨_, _, rest⟩ := bind_ok.mp entered
  obtain ⟨_, ran, rest⟩ := bind_ok.mp rest
  cases rest
  exact ran

theorem PathLoads.stops (broken : ¬ space.Usable) :
    ∃ problem, sysExecv env as old progname args s = .error problem := by
  obtain ⟨after, same⟩ := loads.sysExecv_eq
  cases checked : space.check with
  | ok value => exact absurd (space.check_ok.mp checked) broken
  | error problem =>
    rw [checked] at same
    exact ⟨problem, same⟩

end

/-- Arguments arrive exactly when the program's own loadable memory holds them in four bytes. -/
theorem execv_delivers_iff (env : ExecEnv) (as : Option AddrSpace) (old : UserMem)
    (progname args : Vaddr) (s : ExecState) (entrypoint : Vaddr) (space : AddrSpace) (core : CoreState)
    (loads : PathLoads env as old progname args s entrypoint space core)
    (strings : List (List Byte)) (_ : VectorAt old.read args.toNat strings) (_ : Passable strings) :
    (space.Usable →
      (∀ address, stackBase.toNat ≤ address → address < userStack.toNat →
        (newMemory env.files space).writable address = true ∧ fileClosed space s.vnodes address = false) →
      (∃ found, FetchedAt (newMemory env.files space).read nargMax args.toNat found) →
      ((∃ program after, sysExecv env as old progname args s = .ok (.started program after) ∧
          program.Delivered strings) ↔
        FetchedAt (loadable (newMemory env.files space).read (fileClosed space s.vnodes)) nargMax args.toNat
          strings ∧ total strings ≤ bufferBytes)) ∧
    ((newMemory env.files space).read args.toNat = none →
      ∃ karg, ¬ ∃ program after,
        sysExecv { env with karg := karg } as old progname args s = .ok (.started program after) ∧
          program.Delivered strings) ∧
    (¬ space.Usable → ∃ problem, sysExecv env as old progname args s = .error problem) := by
  refine ⟨?_, ?_, loads.stops⟩
  · rintro usable stack ⟨found, vector⟩
    constructor
    · rintro ⟨program, after, entered, delivered⟩
      have ran := loads.started entered
      obtain ⟨_, looped, _, extent⟩ := copyArguments_loop ran
      obtain ⟨opened, small⟩ := argLoop_fetched (s := env.argStart args) vector ⟨rfl, rfl, rfl⟩ looped
        (extent ▸ delivered.buffer)
      rw [Nat.zero_add] at small
      obtain ⟨_, same, _, argv, _⟩ := copyArguments_vector env _ entrypoint opened (.of_small small) stack
      cases same.symm.trans ran
      obtain rfl := argv.unique delivered.argv
      exact ⟨opened, small⟩
    · rintro ⟨opened, small⟩
      obtain ⟨program, ran, argc, argv, extent⟩ :=
        copyArguments_vector env _ entrypoint opened (.of_small small) stack
      obtain ⟨after, entered⟩ := loads.starts usable ran
      exact ⟨program, after, entered, argc, argv, extent.symm ▸ small⟩
  · intro empty
    -- the uninitialised pointer gives the wrong number of arguments
    let karg : Vaddr := if strings = [] then 1 else 0
    have again : PathLoads { env with karg := karg } as old progname args s entrypoint space core :=
      ⟨loads.memory, loads.argsAccepted, loads.pathAccepted, loads.path, loads.opened, loads.loaded⟩
    refine ⟨karg, fun ⟨program, after, entered, delivered⟩ => ?_⟩
    have zero := argc_unreadable empty (again.started entered)
    rw [delivered.argc, length_eq_zero_iff] at zero
    by_cases none : strings = []
    · have one : karg = 1 := if_pos none
      exact absurd (one.symm.trans (zero.mp none)) (by decide)
    · exact none (zero.mpr (if_neg none))

theorem newMemory_stack {as : AddrSpace} (first : as.seg1.vbase + as.seg1.npages * 4096#32 ≤ stackBase)
    (second : as.seg2.vbase + as.seg2.npages * 4096#32 ≤ stackBase) (above : stackBase.toNat ≤ address)
    (below : address < userStack.toNat) :
    ((newMemory files as).writable address = true ∧ fileClosed as vnodes address = false) ∧
      (newMemory files as).read address = some 0 := by
  have bottom : stackBase.toNat = 2147434496 := rfl
  have page : (pageMask (BitVec.ofNat 32 address)).toNat = address / 4096 * 4096 := by
    rw [pageMask_toNat, toNat_ofNat]
    omega
  have inside : stackBase ≤ pageMask (BitVec.ofNat 32 address) ∧
      pageMask (BitVec.ofNat 32 address) < userStack := by
    rw [le_def, lt_def]
    omega
  have out {seg : Segment} (ends : seg.vbase + seg.npages * 4096#32 ≤ stackBase) :
      ¬ seg.Contains (pageMask (BitVec.ofNat 32 address)) := by
    rintro ⟨_, run⟩
    rw [lt_def] at run
    rw [le_def] at ends
    omega
  obtain ⟨vpn, spot⟩ :
      ∃ vpn, as.locate (pageMask (BitVec.ofNat 32 address)) = some (.stack, vpn) := by
    rw [AddrSpace.locate, if_neg (out first), if_neg (out second), if_pos inside]
    exact ⟨_, rfl⟩
  refine ⟨⟨?_, ?_⟩, ?_⟩
  · simp only [newMemory, spot]
    exact decide_eq_true (show (pfR ||| pfW) &&& 2 ≠ 0 by decide)
  · simp only [fileClosed, spot]
    exact decide_eq_false And.right
  · have zero (place : Nat) : (List.replicate pageSize (0 : Byte)).getD place 0 = 0 := by
      rw [getD_eq_getElem?_getD, List.getElem?_replicate]
      split
      · rfl
      · rfl
    rw [UserMem.read, if_pos below]
    simp only [newMemory, spot, regionLoad, zeroLoad, ne_eq, not_true_eq_false, if_false, zero]

theorem PathLoads.of_execOf (argsAccepted : execvRefuses as args = false)
    (pathAccepted : execvRefuses as progname = false)
    (path : execvPath (execOf contents) old progname = (0, bytes)) (filled : bytes.head? ≠ some 0)
    (loaded : loadElf (fileOf contents) 0 newSpace (booted eightFrames fun _ => 0) =
      .ok (0, some entrypoint, space, core)) :
    PathLoads (execOf contents) as old progname args { execStart with vnodes := vnodes } entrypoint space core where
  memory := ⟨rfl, rfl, rfl⟩
  argsAccepted := argsAccepted
  pathAccepted := pathAccepted
  path := ⟨bytes, path, filled⟩
  opened := rfl
  loaded := ⟨newSpace, rfl, loaded⟩

/-- The data of a program that calls itself: a vector of two letters and a path. -/
def selfBody : List Byte := [0, 0x40, 0, 12, 0, 0x40, 0, 14, 0, 0, 0, 0, 97, 0, 98, 0, 112, 0]

/-- An executable with this data at the start of its code. -/
def selfElf : List Byte :=
  elfFile 0x400000 [reginfo, { smallCode with filesz := 18, memsz := 18 },
    { smallData with offset := 166 }] selfBody

/-- The address space and the allocator after `load_elf` of this executable. -/
def selfLoaded : AddrSpace × CoreState :=
  match loadElf (fileOf selfElf) 0 newSpace (booted eightFrames fun _ => 0) with
  | .ok (_, _, space, core) => (space, core)
  | .error _ => (newSpace, booted eightFrames fun _ => 0)

theorem selfLoaded_eq : loadElf (fileOf selfElf) 0 newSpace (booted eightFrames fun _ => 0) =
    .ok (0, some 0x400000, selfLoaded.1, selfLoaded.2) := rfl

theorem selfMemory_holds : Strings.Holds (newMemory (fileOf selfElf) selfLoaded.1).read 0x400000
    selfBody := by
  unfold selfBody
  repeat rw [holds_cons]
  exact ⟨rfl, rfl, rfl, rfl, rfl, rfl, rfl, rfl, rfl, rfl, rfl, rfl, rfl, rfl, rfl, rfl, rfl, rfl, holds_nil _ _⟩

theorem selfMemory_vector (todo : Nat) :
    VectorAt (newMemory (fileOf selfElf) selfLoaded.1).read 0x400000 [[97], [98]] ∧
      FetchedAt (newMemory (fileOf selfElf) selfLoaded.1).read (todo + 3) 0x400000 [[97], [98]] := by
  have held := selfMemory_holds
  rw [show selfBody = wordBytes 0x40000c ++ (wordBytes 0x40000e ++ (wordBytes 0 ++ ([97, 0] ++ ([98, 0] ++ [112, 0]))))
    from rfl, holds_append, holds_append, holds_append, holds_append, holds_append] at held
  obtain ⟨first, second, null, a, b, _⟩ := held
  exact ⟨.cons (by decide) first ⟨by decide, a⟩ (.cons (by decide) second ⟨by decide, b⟩ (.nil null)),
    .cons (by decide) first ⟨by decide, a⟩ (.cons (by decide) second ⟨by decide, b⟩ (.nil null))⟩

/-- The kernel while `runprogram` keeps every file open. -/
def execHeld : ExecState := { execStart with vnodes := { refcount := fun _ => 1, opencount := fun _ => 1 } }

theorem loadable_held (read : Nat → Option Byte) (as : AddrSpace) :
    loadable read (fileClosed as execHeld.vnodes) = read := by
  funext address
  refine if_neg ?_
  unfold fileClosed
  split
  · exact Bool.false_ne_true
  · exact fun closed => Nat.one_ne_zero (of_decide_eq_true closed).1

/-- A program calls itself with a vector in its own data. -/
theorem execv_delivers_self :
    ∃ program after,
      sysExecv (execOf selfElf) (some selfLoaded.1) (newMemory (fileOf selfElf) selfLoaded.1) 0x400010
        0x400000 execHeld = .ok (.started program after) ∧ program.Delivered [[97], [98]] := by
  have loads : PathLoads (execOf selfElf) (some selfLoaded.1)
      (newMemory (fileOf selfElf) selfLoaded.1) 0x400010 0x400000 execHeld 0x400000 selfLoaded.1
      selfLoaded.2 :=
    have path : execvPath (execOf selfElf) _ _ = (0, [112, 0]) := rfl
    .of_execOf rfl rfl path (by decide) selfLoaded_eq
  obtain ⟨vector, fetched⟩ := selfMemory_vector 1021
  have small : total [[97], [98]] ≤ bufferBytes := by decide
  have delivers := execv_delivers_iff _ _ _ _ _ _ _ _ _ loads [[97], [98]] vector (.of_small small)
  refine (delivers.1 (selfLoaded.1.check_ok.mp rfl) (fun _ above below => ?_) ⟨_, fetched⟩).mpr ⟨?_, small⟩
  · exact (newMemory_stack (by decide) (by decide) above below).1
  · rw [loadable_held]
    exact fetched

/-- A caller with a path in its code and a vector of one string of one letter on its stack. -/
def stackCaller : UserMem where
  cell address := some (
    if address = 0x400000 then 112
    else if 0x7fffff00 ≤ address ∧ address < 0x7fffff0a then
      [0x7f, 0xff, 0xff, 0x08, 0, 0, 0, 0, 97, 0].getD (address - 0x7fffff00) 0
    else 0)
  writable _ := true

/-- The caller's stack is gone when the vector is read. -/
theorem execv_loses_arguments :
    VectorAt stackCaller.read 0x7fffff00 [[97]] ∧ Passable [[97]] ∧
      ∃ program after,
        sysExecv (execOf smallElf) (some smallLoaded.1) stackCaller 0x400000 0x7fffff00 execStart =
          .ok (.started program after) ∧ program.argc = 0 ∧ ¬ program.Delivered [[97]] := by
  have passed : Strings.Holds stackCaller.read 0x7fffff00
      [0x7f, 0xff, 0xff, 0x08, 0, 0, 0, 0, 97, 0] := by
    repeat rw [holds_cons]
    exact ⟨rfl, rfl, rfl, rfl, rfl, rfl, rfl, rfl, rfl, rfl, holds_nil _ _⟩
  rw [show ([0x7f, 0xff, 0xff, 0x08, 0, 0, 0, 0, 97, 0] : List Byte) =
    wordBytes 0x7fffff08 ++ (wordBytes 0 ++ [97, 0]) from rfl, holds_append, holds_append] at passed
  have zero {address : Nat} (above : stackBase.toNat ≤ address) (below : address < userStack.toNat) :
      (newMemory (fileOf smallElf) smallLoaded.1).read address = some 0 :=
    (@newMemory_stack _ _ execStart.vnodes _ (by decide) (by decide) above below).2
  have zeros : Strings.Holds (newMemory (fileOf smallElf) smallLoaded.1).read 0x7fffff00
      [0, 0, 0, 0] := by
    repeat rw [holds_cons]
    exact ⟨zero (by decide) (by decide), zero (by decide) (by decide), zero (by decide) (by decide),
      zero (by decide) (by decide), holds_nil _ _⟩
  have stack {address : Nat} (above : stackBase.toNat ≤ address) (below : address < userStack.toNat) :
      (newMemory (fileOf smallElf) smallLoaded.1).writable address = true ∧
        fileClosed smallLoaded.1 execStart.vnodes address = false :=
    (newMemory_stack (by decide) (by decide) above below).1
  have empty : FetchedAt (loadable (newMemory (fileOf smallElf) smallLoaded.1).read
      (fileClosed smallLoaded.1 execStart.vnodes)) nargMax (0x7fffff00 : Vaddr).toNat [] := by
    refine .nil (holds_loadable.mpr ⟨zeros, fun place member => ?_⟩)
    obtain ⟨low, high⟩ := mem_range'_1.mp member
    exact (stack (le_trans (by decide) low) (high.trans_le (by decide))).2
  have loads : PathLoads (execOf smallElf) (some smallLoaded.1) stackCaller 0x400000 0x7fffff00
      execStart 0x400000 smallLoaded.1 smallLoaded.2 :=
    have path : execvPath (execOf smallElf) _ _ = (0, [112, 0]) := rfl
    .of_execOf rfl rfl path (by decide) smallLoaded_eq
  refine ⟨.cons (by decide) passed.1 ⟨by decide, passed.2.2⟩ (.nil passed.2.1), .of_small (by decide), ?_⟩
  obtain ⟨program, ran, argc, _, _⟩ := copyArguments_vector (execOf smallElf)
    (newMemory (fileOf smallElf) smallLoaded.1) 0x400000 empty (.of_small (by decide))
    (fun _ above below => stack above below)
  obtain ⟨after, entered⟩ := loads.starts (smallLoaded.1.check_ok.mp rfl) ran
  exact ⟨program, after, entered, argc, fun delivered => absurd (argc.symm.trans delivered.argc) (by decide)⟩

end Os161.Syscall
