import Os161.Syscall.ElfSpec

namespace Os161.Syscall
open Word Vm Outcome List

/-- The program headers of an executable. -/
def programHeaders (file : List Byte) : List Phdr :=
  let eh := Ehdr.parse (file.take ehdrBytes)
  (List.range eh.phnum.toNat).map fun i =>
    Phdr.parse ((file.drop (eh.phdrOffset i)).take phdrBytes)

variable {files : Files} {vn : Vnode} {file : List Byte}

theorem readHeader_honest (honest : files.Honest vn file) {offset len : Nat} {bytes : List Byte}
    (read : readHeader files vn offset len = .ok (.ok bytes)) :
    bytes = (file.drop offset).take len := by
  simp only [readHeader, vopRead, kassert, if_true, ok_bind, pure_ok, honest offset len,
    take_take, Nat.min_self] at read
  split at read
  · cases read
  · split at read
    · cases read
    · cases read
      rfl

variable {i : Nat} {headers : List Phdr}

theorem ReadsHeaders.honest (honest : files.Honest vn file) {eh : Ehdr}
    (reads : ReadsHeaders files vn eh i headers) :
    headers = (List.range' i headers.length).map fun i =>
      Phdr.parse ((file.drop (eh.phdrOffset i)).take phdrBytes) := by
  induction reads with
  | nil i => rfl
  | cons read tail ih =>
    rw [length_cons, List.range'_succ, map_cons, ← ih, readHeader_honest honest read]

theorem Loaded.headers_eq (honest : files.Honest vn file) {as space : AddrSpace}
    {s core : CoreState} (loaded : Loaded files vn as s headers space core) :
    headers = programHeaders file := by
  obtain ⟨bytes, read, _, len, reads⟩ := loaded.accepted
  have whole : bytes = file.take ehdrBytes := readHeader_honest honest read
  rw [reads.honest honest, len, whole, programHeaders, range_eq_range']

/-- The bytes of 16-bit fields, most significant first. -/
def encode (fields : List (BitVec 16)) : List Byte :=
  fields.flatMap fun field => [field.extractLsb' 8 8, field.extractLsb' 0 8]

/-- The two halves of a 32-bit field. -/
def halves (word : Word32) : List (BitVec 16) := [word.extractLsb' 16 16, word.extractLsb' 0 16]

theorem halves_join (word : Word32) :
    (word.extractLsb' 16 16 ++ word.extractLsb' 0 16 : Word32) = word :=
  (BitVec.extractLsb'_append_extractLsb'_eq_extractLsb' (show 16 = 0 + 16 from rfl)).trans
    BitVec.extractLsb'_eq_self

theorem be16_encode (fields : List (BitVec 16)) (index : Nat) :
    be16 (encode fields) (2 * index) = fields.getD index 0 := by
  induction fields generalizing index with
  | nil => simp [be16, encode]
  | cons field rest ih =>
    cases index with
    | zero =>
      exact (BitVec.extractLsb'_append_extractLsb'_eq_extractLsb' (show 8 = 0 + 8 from rfl)).trans
        BitVec.extractLsb'_eq_self
    | succ index =>
      rw [getD_cons_succ, ← ih]
      rfl

theorem be32_encode (fields : List (BitVec 16)) (index : Nat) :
    be32 (encode fields) (2 * index) = fields.getD index 0 ++ fields.getD (index + 1) 0 := by
  rw [be32, be16_encode, show 2 * index + 2 = 2 * (index + 1) from rfl, be16_encode]

/-- A program header as the linker writes it. -/
def Phdr.encode (ph : Phdr) : List Byte :=
  Syscall.encode (halves ph.ptype ++ halves ph.offset ++ halves ph.vaddr ++ halves ph.vaddr ++
    halves ph.filesz ++ halves ph.memsz ++ halves ph.flags ++ halves 4096)

theorem Phdr.parse_encode (ph : Phdr) : Phdr.parse ph.encode = ph := by
  unfold Phdr.parse Phdr.encode
  rw [be32_encode _ 0, be32_encode _ 2, be32_encode _ 4, be32_encode _ 8, be32_encode _ 10,
    be32_encode _ 12]
  simp only [halves, cons_append, nil_append, getD_cons_zero, getD_cons_succ,
    halves_join]

/-- The executable header for a table of program headers that follows it. -/
def elfHeader (entry : Vaddr) (phnum : BitVec 16) : List Byte :=
  encode ([0x7f45, 0x4c46, 0x0102, 0x0100, 0, 0, 0, 0, 2, 8] ++ halves 1 ++ halves entry ++
    halves 52 ++ halves 0 ++ halves 0 ++ [52, 32, phnum, 0, 0, 0])

/-- An executable with its header, its program headers and the contents of its segments. -/
def elfFile (entry : Vaddr) (headers : List Phdr) (body : List Byte) : List Byte :=
  elfHeader entry (BitVec.ofNat 16 headers.length) ++ (headers.flatMap Phdr.encode ++ body)

theorem Ehdr.parse_elfHeader (entry : Vaddr) (phnum : BitVec 16) :
    Ehdr.parse (elfHeader entry phnum) =
      { ident := [0x7f, 0x45, 0x4c, 0x46, 1, 2, 1, 0, 0, 0, 0, 0, 0, 0, 0, 0]
        etype := 2, machine := 8, version := 1, entry := entry, phoff := 52, phentsize := 32
        phnum := phnum } := by
  unfold Ehdr.parse elfHeader
  rw [be16_encode _ 8, be16_encode _ 9, be32_encode _ 10, be32_encode _ 12, be32_encode _ 14,
    be16_encode _ 21, be16_encode _ 22]
  simp only [halves, cons_append, nil_append, getD_cons_zero, getD_cons_succ,
    halves_join]
  rfl

theorem phdrOffset_elfHeader (entry : Vaddr) (phnum : BitVec 16) (small : i < 2 ^ 16) :
    (Ehdr.parse (elfHeader entry phnum)).phdrOffset i = ehdrBytes + i * phdrBytes := by
  rw [Ehdr.parse_elfHeader, Ehdr.phdrOffset, BitVec.toNat_add, BitVec.toNat_mul, BitVec.toNat_ofNat]
  change (52 + i % 2 ^ 32 * 32 % 2 ^ 32) % 2 ^ 32 = 52 + i * 32
  omega

theorem table_take (headers : List Phdr) (body : List Byte) (inside : i < headers.length) :
    ((headers.flatMap Phdr.encode ++ body).drop (i * phdrBytes)).take phdrBytes =
      headers[i].encode := by
  induction headers generalizing i with
  | nil => cases inside
  | cons ph rest ih =>
    have len : ph.encode.length = phdrBytes := rfl
    rw [flatMap_cons, append_assoc]
    cases i with
    | zero =>
      rw [Nat.zero_mul, drop_zero, getElem_cons_zero, ← len, take_left]
    | succ i =>
      rw [show (i + 1) * phdrBytes = ph.encode.length + i * phdrBytes by rw [len]; ring,
        ← drop_drop, drop_left, getElem_cons_succ]
      exact ih (Nat.lt_of_succ_lt_succ inside)

theorem programHeaders_elfFile (entry : Vaddr) (few : headers.length < 2 ^ 16) (body : List Byte) :
    programHeaders (elfFile entry headers body) = headers := by
  have head : (elfFile entry headers body).take ehdrBytes =
      elfHeader entry (BitVec.ofNat 16 headers.length) :=
    take_left' rfl
  have phnum : (Ehdr.parse (elfHeader entry (BitVec.ofNat 16 headers.length))).phnum =
      BitVec.ofNat 16 headers.length := by
    rw [Ehdr.parse_elfHeader]
  have count : (BitVec.ofNat 16 headers.length).toNat = headers.length := by
    rw [BitVec.toNat_ofNat, Nat.mod_eq_of_lt few]
  rw [programHeaders, head]
  apply ext_getElem
  · rw [length_map, length_range, phnum, count]
  · intro i inside bound
    have table : (elfFile entry headers body).drop (ehdrBytes + i * phdrBytes) =
        (headers.flatMap Phdr.encode ++ body).drop (i * phdrBytes) := by
      rw [← drop_drop]
      congr 1
    rw [getElem_map, getElem_range, phdrOffset_elfHeader _ _ (Nat.lt_trans bound few), table,
      table_take headers body bound, Phdr.parse_encode]

end Os161.Syscall
