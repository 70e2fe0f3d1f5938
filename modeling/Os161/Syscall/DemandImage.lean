import Os161.Syscall.Segments

namespace Os161.Syscall
open Word Vm Outcome Transition List BitVec Phdr AddrSpace

/-- The address lies in the segment that the header describes. -/
def Phdr.Covers (ph : Phdr) (va : Vaddr) : Prop :=
  ph.vaddr.toNat ≤ va.toNat ∧ va.toNat < ph.vaddr.toNat + ph.memsz.toNat

/-- The first page of a segment, counted from address zero, and the first page after it. -/
def Phdr.firstPage (ph : Phdr) : Nat := ph.vaddr.toNat / pageSize

@[inherit_doc Phdr.firstPage] def Phdr.endPage (ph : Phdr) : Nat :=
  (ph.vaddr.toNat + ph.memsz.toNat + (pageSize - 1)) / pageSize

/-- The page, counted from address zero, belongs to the segment. -/
def Phdr.HasPage (ph : Phdr) (page : Nat) : Prop := ph.firstPage ≤ page ∧ page < ph.endPage

instance (ph : Phdr) (page : Nat) : Decidable (ph.HasPage page) := inferInstanceAs (Decidable (_ ∧ _))

/-- The bytes of a segment in the executable, with zeros after them. -/
def Phdr.fileByte (ph : Phdr) (file : List Byte) (k : Nat) : Byte :=
  if k < ph.filesz.toNat then file.getD (ph.offset.toNat + k) 0 else 0

/-- The executable has the bytes of one page, counted from the offset of the header. -/
def Phdr.Readable (ph : Phdr) (file : List Byte) (vpn : Nat) : Prop :=
  vpn * pageSize < ph.filesz.toNat →
    ph.offset.toNat + min ph.filesz.toNat ((vpn + 1) * pageSize) ≤ file.length

/-- The byte at an address after the eager load of one more header. -/
def overwrite (file : List Byte) (addr : Nat) (byte : Byte) (ph : Phdr) : Byte :=
  if ph.ptype = ptLoad ∧ ph.vaddr.toNat ≤ addr ∧
      addr < ph.vaddr.toNat + min ph.filesz.toNat ph.memsz.toNat then
    ph.fileByte file (addr - ph.vaddr.toNat)
  else byte

/-- The byte that the last header with file contents for the address has there. -/
def eagerByte (headers : List Phdr) (file : List Byte) (addr : Nat) : Byte :=
  headers.foldl (overwrite file addr) 0

/-- The header with this index has the byte of the address, counted from the page `base`. -/
def Noted (headers : List Phdr) (file : List Byte) (index base : Nat) (va : Vaddr) : Prop :=
  ∃ ph, headers[index]? = some ph ∧ ph.ptype = ptLoad ∧ ph.Readable file (va.toNat / pageSize - base) ∧
    ph.fileByte file (va.toNat - base * pageSize) = eagerByte headers file va.toNat

/-- Two headers keep a slot, and headers 1 and 2 have the bytes of the pages in these slots. -/
structure Faithful (headers : List Phdr) (file : List Byte) (first second : Phdr) : Prop where
  placed : placedHeaders headers = [first, second]
  pages1 : regionPages first.vaddr first.memsz ≠ 0
  pages2 : regionPages second.vaddr second.memsz ≠ 0
  bounded : ∀ ph ∈ headers, ph.ptype = ptLoad → ph.memsz ≠ 0 →
    pageSize ≤ ph.vaddr.toNat ∧ ph.vaddr.toNat + ph.memsz.toNat ≤ 0xfffff000
  bytes : ∀ ph ∈ headers, ph.ptype = ptLoad → ∀ va, ph.Covers va →
    if first.HasPage (va.toNat / pageSize) then Noted headers file 1 first.firstPage va
    else Noted headers file 2 second.firstPage va

/-- Whatever faults have happened, the addresses of the segments show the image. -/
def DemandAgrees (files : Files) (headers : List Phdr) (image : Nat → Byte) (start : UserState) : Prop :=
  ∀ ops t, Run (LoadStep files) start ops t → ∀ ph ∈ headers, ph.ptype = ptLoad → ∀ va, ph.Covers va →
    (t.machine.core.FrameAvailable →
      ∃ region vpn space next entry, t.space.locate (pageMask va) = some (region, vpn) ∧
        vmFault files .read va (some t.space) t.machine = .ok (0, some space, next) ∧
        space.pteAt region vpn = .ok entry ∧ entry.valid = true) ∧
    ∀ region vpn entry, t.space.locate (pageMask va) = some (region, vpn) →
      t.space.pteAt region vpn = .ok entry → entry.valid = true →
        t.machine.core.mem (entry.pfn.toNat + va.toNat % pageSize) = image va.toNat

section

variable {files : Files} {vn : Vnode} {file : List Byte} {ph : Phdr} {image : Nat → Byte}

theorem loadSegmentEager_ok (honest : files.Honest vn file) {next : Nat → Byte}
    (ran : loadSegmentEager files vn i ph image = .ok (0, next)) (addr : Nat) :
    next addr =
      if ph.vaddr.toNat ≤ addr ∧ addr < ph.vaddr.toNat + min ph.filesz.toNat ph.memsz.toNat then
        ph.fileByte file (addr - ph.vaddr.toNat)
      else image addr := by
  have clamp : (if ph.memsz.toNat < ph.filesz.toNat then ph.memsz.toNat else ph.filesz.toNat) =
      min ph.filesz.toNat ph.memsz.toNat := by
    split
    · omega
    · omega
  have len : ((file.drop ph.offset.toNat).take (min ph.filesz.toNat ph.memsz.toNat)).length =
      min (min ph.filesz.toNat ph.memsz.toNat) (file.length - ph.offset.toNat) := by
    rw [length_take, length_drop]
  simp only [loadSegmentEager, clamp, vopRead, kassert, if_true, ok_bind, pure_ok,
    honest ph.offset.toNat (min ph.filesz.toNat ph.memsz.toNat), take_take, Nat.min_self, ne_eq,
    not_true_eq_false, if_false] at ran
  split at ran
  · cases ran
  · split at ran
    · cases ran
    · cases ran
      split
      · rename_i inside
        rw [fileByte, if_pos (by omega), Bytes.store_apply, if_pos inside.1,
          List.getElem?_take_of_lt (by omega), List.getElem?_drop, getD_eq_getElem?_getD,
          List.getElem?_eq_getElem (by omega), Option.getD_some, Option.getD_some]
      · rw [Bytes.store_outside]
        omega

theorem Applied.eager (honest : files.Honest vn file)
    (applied : Applied (loadSegmentEager files vn) i headers image last) (addr : Nat) :
    last addr = headers.foldl (overwrite file addr) (image addr) := by
  induction applied with
  | nil i image => rfl
  | @skip i ph rest image last skipped tail ih =>
    have same : overwrite file addr (image addr) ph = image addr :=
      if_neg fun loads => not_skipped loads.1 skipped
    rw [foldl_cons, same, ih]
  | @load i ph rest image next last loadable done tail ih =>
    have written : overwrite file addr (image addr) ph = next addr := by
      rw [loadSegmentEager_ok honest done addr]
      simp only [overwrite, loadable, true_and]
    rw [foldl_cons, written, ih]

end

section

variable {as space : AddrSpace} {s core : CoreState} {headers : List Phdr} {ph : Phdr}

/-- The place in the file that a slot records, or what `kmalloc` left there. -/
def slotRange (as : AddrSpace) : (index : Nat) → Int × Word32
  | 1 => (as.seg1.offset, as.seg1.filesz)
  | _ => (as.seg2.offset, as.seg2.filesz)

/-- What `load_elf` records in a slot. -/
def recordedRange (headers : List Phdr) (index : Nat) (stale : Int × Word32) : Int × Word32 :=
  match headers[index]? with
  | some ph => if ph.ptype = ptLoad then (ph.offset.toNat, ph.filesz) else stale
  | none => stale

theorem recordSegment_range {vn : Vnode} {i k : Nat} (slot : k = 1 ∨ k = 2)
    (done : recordSegment vn i ph as = .ok (0, space)) :
    slotRange space k = if i = k then ((ph.offset.toNat : Int), ph.filesz) else slotRange as k := by
  cases done
  rcases slot with rfl | rfl
  · by_cases one : i = 1
    · simp [slotRange, one]
    · by_cases two : i = 2
      · simp [slotRange, two]
      · simp [slotRange, one, two]
  · by_cases one : i = 1
    · simp [slotRange, one]
    · by_cases two : i = 2
      · simp [slotRange, two]
      · simp [slotRange, one, two]

theorem recordedRange_later {i k : Nat} (other : i ≠ k) (stale : Int × Word32) :
    (if i + 1 ≤ k then recordedRange rest (k - (i + 1)) stale else stale) =
      if i ≤ k then recordedRange (ph :: rest) (k - i) stale else stale := by
  by_cases later : i ≤ k
  · rw [if_pos (by omega), if_pos later, show k - i = k - (i + 1) + 1 by omega]
    rfl
  · rw [if_neg (by omega), if_neg later]

theorem Applied.recorded {vn : Vnode} {i k : Nat} (slot : k = 1 ∨ k = 2)
    (applied : Applied (recordSegment vn) i headers as space) :
    slotRange space k = if i ≤ k then recordedRange headers (k - i) (slotRange as k) else slotRange as k := by
  induction applied with
  | nil i as => split <;> rfl
  | @skip i ph rest as space skipped tail ih =>
    rw [ih]
    by_cases here : i = k
    · subst here
      have skip : ph.ptype ≠ ptLoad := fun loadable => not_skipped loadable skipped
      rw [if_neg (by omega), if_pos (Nat.le_refl _), Nat.sub_self]
      exact (if_neg skip).symm
    · exact recordedRange_later here _
  | @load i ph rest as next space loadable done tail ih =>
    rw [ih, recordSegment_range slot done]
    by_cases here : i = k
    · subst here
      rw [if_neg (by omega), if_pos rfl, if_pos (Nat.le_refl _), Nat.sub_self]
      exact (if_pos loadable).symm
    · rw [if_neg here]
      exact recordedRange_later here _

/-- The same address space with other file ranges in its slots. -/
def restale (as : AddrSpace) (range : Nat → Int × Word32) : AddrSpace :=
  { as with
    seg1 := { as.seg1 with offset := (range 1).1, filesz := (range 1).2 }
    seg2 := { as.seg2 with offset := (range 2).1, filesz := (range 2).2 } }

theorem restale_range (as : AddrSpace) : restale as (slotRange as) = as := rfl

variable {range : Nat → Int × Word32}

theorem Segment.define_range {segment next : Segment} {base : Vaddr} {flag : Word32} (offset : Int) (filesz : Word32)
    (ran : segment.define base npages flag s = .ok (next, core)) :
    Segment.define { segment with offset := offset, filesz := filesz } base npages flag s =
      .ok ({ next with offset := offset, filesz := filesz }, core) := by
  obtain ⟨⟨pt, after⟩, allocated, rest⟩ := bind_ok.mp ran
  simp only [Segment.define, allocated, ok_bind]
  dsimp only at rest
  split at rest
  · rename_i null
    split at rest
    · rename_i empty
      cases rest
      rw [if_pos null, if_pos empty]
      rfl
    · cases rest
  · rename_i made
    cases rest
    rw [if_neg made]
    rfl

theorem defineRegion_range {state next : AddrSpace × CoreState} (range : Nat → Int × Word32)
    (done : defineRegion i ph state = .ok (code, next)) :
    defineRegion i ph (restale state.1 range, state.2) = .ok (code, restale next.1 range, next.2) := by
  unfold defineRegion asDefineRegion at done ⊢
  dsimp only [restale] at done ⊢
  split at done
  · rename_i unused
    obtain ⟨⟨segment, after⟩, defined, rest⟩ := bind_ok.mp done
    cases rest
    refine (if_pos unused).trans ?_
    rw [Segment.define_range _ _ defined]
    rfl
  · rename_i used
    refine (if_neg used).trans ?_
    split at done
    · rename_i unused
      obtain ⟨⟨segment, after⟩, defined, rest⟩ := bind_ok.mp done
      cases rest
      refine (if_pos unused).trans ?_
      rw [Segment.define_range _ _ defined]
      rfl
    · rename_i full
      cases done
      exact if_neg full

theorem recordSegment_restale {vn : Vnode} {next : AddrSpace} (range : Nat → Int × Word32)
    (done : recordSegment vn i ph as = .ok (code, next)) :
    ∃ range', recordSegment vn i ph (restale as range) = .ok (code, restale next range') := by
  cases done
  refine ⟨slotRange (if i = 1 then
      { restale as range with seg1 := { as.seg1 with offset := ph.offset.toNat, filesz := ph.filesz } }
    else if i = 2 then
      { restale as range with seg2 := { as.seg2 with offset := ph.offset.toNat, filesz := ph.filesz } }
    else restale as range), ?_⟩
  unfold recordSegment
  by_cases one : i = 1
  · simp [one, restale, slotRange]
  · by_cases two : i = 2
    · simp [two, restale, slotRange]
    · simp [one, two, restale, slotRange]

theorem phdrLoop_simulate {S : Type} {files : Files} {vn : Vnode} {eh : Ehdr}
    {body : Nat → Phdr → S → Kernel (Errno × S)} {R : S → S → Prop}
    (preserved : ∀ i ph state other code next, R state other → body i ph state = .ok (code, next) →
      ∃ next', body i ph other = .ok (code, next') ∧ R next next')
    {todo i : Nat} {state o last : S} {code : Errno}
    (ran : phdrLoop files vn eh body todo i state = .ok (code, last)) (start : R state o) :
    ∃ last', phdrLoop files vn eh body todo i o = .ok (code, last') ∧ R last last' := by
  induction todo generalizing i state o with
  | zero =>
    cases ran
    exact ⟨o, rfl, start⟩
  | succ todo ih =>
    obtain ⟨reply, read, went⟩ := bind_ok.mp ran
    rw [phdrLoop, read, ok_bind]
    cases reply with
    | error refused =>
      cases went
      exact ⟨o, rfl, start⟩
    | ok bytes =>
      dsimp only at went ⊢
      split at went
      · rename_i skipped
        rw [if_pos skipped]
        exact ih went start
      · rename_i kept
        rw [if_neg kept]
        split at went
        · rename_i unknown
          rw [if_pos unknown]
          cases went
          exact ⟨o, rfl, start⟩
        · rename_i loadable
          rw [if_neg loadable]
          obtain ⟨⟨res, next⟩, done, rest⟩ := bind_ok.mp went
          obtain ⟨next', again, follows⟩ := preserved _ _ _ _ _ _ start done
          rw [again, ok_bind]
          split at rest
          · rename_i failed
            rw [if_pos failed]
            cases rest
            exact ⟨next', rfl, follows⟩
          · rename_i good
            rw [if_neg good]
            exact ih rest follows

/-- What the heap block held does not matter for the result of `load_elf`. -/
theorem loadElf_restale {files : Files} {vn : Vnode} (range : Nat → Int × Word32)
    (ran : loadElf files vn as s = .ok (0, entrypoint, space, core)) :
    ∃ space', loadElf files vn (restale as range) s = .ok (0, entrypoint, space', core) := by
  obtain ⟨reply, read, went⟩ := bind_ok.mp ran
  rw [loadElf, read, ok_bind]
  cases reply with
  | error code =>
    cases went
    exact absurd rfl (readHeader_error read)
  | ok bytes =>
    dsimp only at went ⊢
    split at went
    · cases went
    · rename_i accepted
      rw [if_neg accepted]
      obtain ⟨⟨code, middle, after⟩, first, rest⟩ := bind_ok.mp went
      obtain ⟨⟨middle', after'⟩, again, sameSpace, sameCore⟩ := phdrLoop_simulate
        (R := fun state other => other.1 = restale state.1 range ∧ other.2 = state.2)
        (by
          rintro i ph state ⟨_, _⟩ code next ⟨rfl, rfl⟩ done
          exact ⟨_, defineRegion_range range done, rfl, rfl⟩)
        first (o := (restale as range, s)) ⟨rfl, rfl⟩
      dsimp only at sameSpace sameCore
      subst sameSpace sameCore
      rw [again, ok_bind]
      split at rest
      · rename_i failed
        cases rest
        exact absurd rfl failed
      · rename_i good
        rw [if_neg good]
        obtain ⟨⟨code, last⟩, second, final⟩ := bind_ok.mp rest
        obtain ⟨last', twice, _⟩ := phdrLoop_simulate
          (R := fun state other => ∃ range, other = restale state range)
          (by
            rintro i ph state _ code next ⟨range, rfl⟩ done
            obtain ⟨range', noted⟩ := recordSegment_restale range done
            exact ⟨_, noted, range', rfl⟩)
          second ⟨range, rfl⟩
        rw [twice, ok_bind]
        split at final
        · rename_i failed
          cases final
          exact absurd rfl failed
        · rename_i recorded
          rw [if_neg recorded]
          cases final
          exact ⟨last', rfl⟩

theorem asCreate_restale {heap : HeapReply} (range : Nat → Int × Word32) (made : asCreate heap = .ok (some as)) :
    asCreate { heap with block := heap.block.map (restale · range) } = .ok (some (restale as range)) := by
  unfold asCreate at made ⊢
  split at made
  · cases made
  · rename_i block present
    rw [present]
    split at made
    · rename_i table
      cases made
      simp only [Option.map_some, table, if_true]
      rfl
    · cases made

theorem Loaded.recorded {files : Files} {vn : Vnode} {k : Nat} (slot : k = 1 ∨ k = 2)
    (loaded : Loaded files vn as s headers space core) :
    slotRange space k = recordedRange headers k (slotRange as k) := by
  obtain ⟨middle, defined, noted⟩ := loaded.regions
  have kept : slotRange middle = slotRange as :=
    defined.invariant (fun i ph (state next : AddrSpace × CoreState) (before : slotRange state.1 = slotRange as)
      done => by
        have same := defineRegion_range (slotRange state.1) done
        have equal : restale next.1 (slotRange state.1) = next.1 :=
          (congrArg (fun reply => reply.2.1) (Except.ok.inj (same.symm.trans done)))
        rw [← before, ← equal]
        rfl) rfl
  rw [noted.recorded slot, if_pos (Nat.zero_le k), Nat.sub_zero, kept]

theorem recordSegment_vnode {vn : Vnode} (done : recordSegment vn i ph as = .ok (0, space)) : space.vn = vn := by
  cases done
  rfl

theorem Applied.vnode {vn : Vnode} (noted : Applied (recordSegment vn) i headers as space)
    (member : ph ∈ headers) (loadable : ph.ptype = ptLoad) : space.vn = vn := by
  induction noted with
  | nil i as => cases member
  | skip skipped tail ih =>
    rcases mem_cons.mp member with rfl | later
    · exact absurd skipped (not_skipped loadable)
    · exact ih later
  | load _ done tail ih =>
    exact tail.invariant (fun _ _ (state next : AddrSpace) (_ : state.vn = vn) again => recordSegment_vnode again)
      (recordSegment_vnode done)

end

section

variable {ph first second : Phdr} {seg : Segment} {va : Vaddr} {space : AddrSpace} {headers : List Phdr}
  {file : List Byte} {files : Files} {vn : Vnode}

theorem Defines.contains_iff (defined : Defines ph seg)
    (bounded : ph.memsz = 0 ∨ ph.vaddr.toNat + ph.memsz.toNat ≤ 0xfffff000) (low : va.toNat < 0xfffff000) :
    seg.Contains (pageMask va) ↔ ph.HasPage (va.toNat / pageSize) := by
  have size : ph.memsz.toNat = 0 ∨ ph.vaddr.toNat + ph.memsz.toNat ≤ 0xfffff000 :=
    bounded.imp_left (congrArg BitVec.toNat)
  have pages := @regionPages_toNat ph.vaddr ph.memsz (by simp only [pageSize]; omega)
  rw [Segment.Contains, le_def, lt_def, toNat_add, toNat_mul, defined.base, defined.pages, pageMask_toNat,
    pageMask_toNat]
  simp only [HasPage, firstPage, endPage, pageSize, toNat_ofNat] at *
  omega

theorem Defines.vpn_eq (defined : Defines ph seg) (inside : seg.Contains (pageMask va)) :
    ((pageMask va - seg.vbase) / 4096#32).toNat = va.toNat / pageSize - ph.firstPage := by
  have above := inside.1
  rw [toNat_udiv, toNat_sub_of_le above, defined.base, pageMask_toNat, pageMask_toNat]
  simp only [firstPage, pageSize, toNat_ofNat, Nat.reducePow, Nat.reduceMod]
  omega

theorem Phdr.Covers.page (covers : ph.Covers va) : ph.HasPage (va.toNat / pageSize) := by
  obtain ⟨above, below⟩ := covers
  simp only [HasPage, firstPage, endPage, pageSize] at *
  omega

theorem Phdr.Covers.nonempty (covers : ph.Covers va) : ph.memsz ≠ 0 := by
  rintro zero
  obtain ⟨above, below⟩ := covers
  rw [zero, show (0 : Word32).toNat = 0 from rfl] at below
  omega

theorem Phdr.Covers.other_page (covers : ph.Covers va) (member : ph ∈ [first, second])
    (has : ¬ first.HasPage (va.toNat / pageSize)) : second.HasPage (va.toNat / pageSize) := by
  rcases mem_pair.mp member with rfl | rfl
  · exact absurd covers.page has
  · exact covers.page

/-- The slot in which the handler finds a page, and the number of the page there. -/
def slotOf (first second : Phdr) (page : Nat) : Region × Nat :=
  if first.HasPage page then (.first, page - first.firstPage) else (.second, page - second.firstPage)

theorem locate_slot (defined1 : Defines first space.seg1) (defined2 : Defines second space.seg2)
    (bounded : ∀ ph ∈ [first, second], ph.memsz = 0 ∨ ph.vaddr.toNat + ph.memsz.toNat ≤ 0xfffff000)
    (covers : ph.Covers va) (member : ph ∈ [first, second]) :
    space.locate (pageMask va) = some (slotOf first second (va.toNat / pageSize)) := by
  have low : va.toNat < 0xfffff000 := by
    have fits := (bounded ph member).resolve_left covers.nonempty
    have below := covers.2
    omega
  have inside1 := defined1.contains_iff (bounded first (by simp)) low
  have inside2 := defined2.contains_iff (bounded second (by simp)) low
  unfold slotOf
  split
  · rename_i has
    rw [locate, if_pos (inside1.mpr has), defined1.vpn_eq (inside1.mpr has)]
  · rename_i has
    have other := covers.other_page member has
    rw [locate, if_neg (mt inside1.mp has), if_pos (inside2.mpr other), defined2.vpn_eq (inside2.mpr other)]

theorem locate_bounds {page : Vaddr} (usable : space.Usable)
    (spot : space.locate page = some place) : page.toNat ≠ 0 ∧ page.toNat ≠ 0xfffff000 := by
  have inside {seg : Segment} (base : seg.vbase ≠ 0) (aligned : Aligned seg.vbase) (inside : seg.Contains page) :
      page.toNat ≠ 0 ∧ page.toNat ≠ 0xfffff000 := by
    obtain ⟨above, below⟩ := inside
    have pos : seg.vbase.toNat ≠ 0 := fun zero => base (eq_of_toNat_eq zero)
    rw [le_def] at above
    rw [lt_def, toNat_add, toNat_mul] at below
    simp only [Aligned, toNat_ofNat, Nat.reducePow, Nat.reduceMod] at *
    omega
  unfold locate at spot
  split at spot
  · rename_i contained
    exact inside usable.base1 usable.aligned1 contained
  · split at spot
    · rename_i contained
      exact inside usable.base2 usable.aligned2 contained
    · split at spot
      · rename_i stack
        obtain ⟨above, below⟩ := stack
        rw [le_def] at above
        rw [lt_def] at below
        have bottom : stackBase.toNat = 2147434496 := rfl
        have top : userStack.toNat = 2147483648 := rfl
        omega
      · cases spot

theorem segment_place (base : seg.vbase = pageMask ph.vaddr) (above : ph.firstPage ≤ va.toNat / pageSize) :
    (pageMask va).toNat = seg.vbase.toNat + (va.toNat / pageSize - ph.firstPage) * pageSize := by
  rw [base, pageMask_toNat, pageMask_toNat]
  simp only [firstPage, pageSize] at *
  omega

theorem pageByte_eq {vpn start : Nat} (position : vpn * pageSize + va.toNat % pageSize = k)
    (filesz : seg.filesz = ph.filesz) (offset : start = ph.offset.toNat) :
    seg.pageByte file start vpn (va.toNat % pageSize) = ph.fileByte file k := by
  rw [Segment.pageByte, fileByte, Nat.add_assoc, position, filesz, offset]

theorem Noted.loads (honest : files.Honest vn file) {index : Nat} (base : seg.vbase = pageMask ph.vaddr)
    (above : ph.firstPage ≤ va.toNat / pageSize)
    (range : (seg.offset, seg.filesz) = recordedRange headers index stale)
    (noted : Noted headers file index ph.firstPage va) :
    (segmentLoad files vn seg (va.toNat / pageSize - ph.firstPage) (pageMask va)).code = 0 ∧
      (segmentLoad files vn seg (va.toNat / pageSize - ph.firstPage) (pageMask va)).data[va.toNat % pageSize]?.getD 0 =
        eagerByte headers file va.toNat := by
  obtain ⟨source, present, loadable, readable, byte⟩ := noted
  simp only [recordedRange, present, loadable, if_true] at range
  obtain ⟨offset, filesz⟩ := Prod.mk.inj range
  have loads := segmentLoad_honest honest offset (show seg.Readable file _ _ by
    unfold Segment.Readable
    rw [filesz]
    exact readable) (segment_place base above)
  refine ⟨loads.1, (loads.2 _ (Nat.mod_lt _ (by decide))).trans ?_⟩
  rw [← byte]
  refine pageByte_eq ?_ filesz rfl
  simp only [firstPage, pageSize] at *
  omega

/-- A slot with a stale range loads only what a header has recorded. -/
theorem Noted.of_loads (honest : files.Honest vn file) {index : Nat} (base : seg.vbase = pageMask ph.vaddr)
    (above : ph.firstPage ≤ va.toNat / pageSize)
    (range : (seg.offset, seg.filesz) = recordedRange headers index ((file.length : Int), 0xffffffff#32))
    (loads : (segmentLoad files vn seg (va.toNat / pageSize - ph.firstPage) (pageMask va)).code = 0)
    (byte : (segmentLoad files vn seg (va.toNat / pageSize - ph.firstPage)
      (pageMask va)).data[va.toNat % pageSize]?.getD 0 = eagerByte headers file va.toNat) :
    Noted headers file index ph.firstPage va := by
  have place := segment_place base above
  by_cases some : ∃ source, headers[index]? = some source ∧ source.ptype = ptLoad
  · obtain ⟨source, present, loadable⟩ := some
    simp only [recordedRange, present, loadable, if_true] at range
    obtain ⟨offset, filesz⟩ := Prod.mk.inj range
    have readable := segmentLoad_readable honest offset place loads
    refine ⟨source, present, loadable, ?_, ?_⟩
    · unfold Segment.Readable at readable
      rw [filesz] at readable
      exact readable
    · have data := (segmentLoad_honest honest offset readable place).2 _ (Nat.mod_lt va.toNat (by decide))
      rw [← byte, data]
      refine (pageByte_eq ?_ filesz rfl).symm
      simp only [firstPage, pageSize] at *
      omega
  · have unset : recordedRange headers index ((file.length : Int), 0xffffffff#32) =
        ((file.length : Int), 0xffffffff#32) := by
      unfold recordedRange
      split
      · rename_i source present
        exact if_neg fun loadable => some ⟨source, present, loadable⟩
      · rfl
    obtain ⟨offset, filesz⟩ := Prod.mk.inj (range.trans unset)
    have readable := segmentLoad_readable honest offset place loads
    unfold Segment.Readable at readable
    rw [filesz, show (0xffffffff#32).toNat = 4294967295 from rfl] at readable
    simp only [pageSize] at *
    omega

variable {as : AddrSpace} {s core : CoreState}

/-- The slots of a loaded program with two headers that keep theirs. -/
structure Filled (files : Files) (vn : Vnode) (headers : List Phdr) (as space : AddrSpace)
    (first second : Phdr) : Prop where
  vnode : space.vn = vn
  defined1 : Defines first space.seg1
  defined2 : Defines second space.seg2
  range1 : (space.seg1.offset, space.seg1.filesz) = recordedRange headers 1 (slotRange as 1)
  range2 : (space.seg2.offset, space.seg2.filesz) = recordedRange headers 2 (slotRange as 2)

theorem Loaded.filled (loaded : Loaded files vn as s headers space core) (made : asCreate heap = .ok (some as))
    (placed : placedHeaders headers = [first, second]) : Filled files vn headers as space first second := by
  have slots := loaded.placed made
  rw [placed] at slots
  have member : first ∈ placedHeaders headers := by
    rw [placed]
    exact mem_cons_self
  have loadable := of_decide_eq_true (mem_filter.mp member).2
  obtain ⟨_, _, noted⟩ := loaded.regions
  cases slots with
  | full _ defined1 _ defined2 =>
    exact ⟨noted.vnode (mem_filter.mp member).1 loadable.1, defined1, defined2, loaded.recorded (.inl rfl),
      loaded.recorded (.inr rfl)⟩

theorem mem_placed (placed : placedHeaders headers = [first, second]) (member : ph ∈ headers)
    (loadable : ph.ptype = ptLoad) (base : pageSize ≤ ph.vaddr.toNat) : ph ∈ [first, second] := by
  rw [← placed]
  refine mem_filter.mpr ⟨member, decide_eq_true ⟨loadable, fun zero => ?_⟩⟩
  have masked := pageMask_toNat ph.vaddr
  rw [zero, show (0 : Word32).toNat = 0 from rfl] at masked
  simp only [pageSize] at base
  omega

theorem placed_bound (placed : placedHeaders headers = [first, second])
    (bounded : ∀ ph ∈ headers, ph.ptype = ptLoad → ph.memsz ≠ 0 →
      pageSize ≤ ph.vaddr.toNat ∧ ph.vaddr.toNat + ph.memsz.toNat ≤ 0xfffff000) :
    ∀ ph ∈ [first, second], ph.memsz = 0 ∨ ph.vaddr.toNat + ph.memsz.toNat ≤ 0xfffff000 := by
  intro ph member
  rw [← placed] at member
  have loadable := (of_decide_eq_true (mem_filter.mp member).2).1
  by_cases empty : ph.memsz = 0
  · exact .inl empty
  · exact .inr (bounded ph (mem_filter.mp member).1 loadable empty).2

/-- The page of a covered address can be loaded with the eager byte. -/
theorem Faithful.page (faithful : Faithful headers file first second) (honest : files.Honest vn file)
    (filled : Filled files vn headers as space first second) (member : ph ∈ headers) (loadable : ph.ptype = ptLoad)
    (covers : ph.Covers va) :
    ∃ region vpn, space.locate (pageMask va) = some (region, vpn) ∧ region ≠ .stack ∧
      (regionLoad files space region vpn (pageMask va)).code = 0 ∧
      (regionLoad files space region vpn (pageMask va)).data[va.toNat % pageSize]?.getD 0 =
        eagerByte headers file va.toNat := by
  have kept := mem_placed faithful.placed member loadable (faithful.bounded ph member loadable covers.nonempty).1
  have spot := locate_slot filled.defined1 filled.defined2 (placed_bound faithful.placed faithful.bounded) covers kept
  have bytes := faithful.bytes ph member loadable va covers
  have vnode := filled.vnode
  unfold slotOf at spot
  split at spot
  · rename_i has
    rw [if_pos has] at bytes
    have loads := bytes.loads honest filled.defined1.base has.1 filled.range1
    rw [← vnode] at loads
    exact ⟨_, _, spot, nofun, loads⟩
  · rename_i has
    rw [if_neg has] at bytes
    have loads := bytes.loads honest filled.defined2.base (covers.other_page kept has).1 filled.range2
    rw [← vnode] at loads
    exact ⟨_, _, spot, nofun, loads⟩

/-- What the heap block holds when a slot that nothing records cannot be loaded. -/
def behindFile (file : List Byte) : Nat → Int × Word32 := fun _ => (file.length, 0xffffffff)

theorem Faithful.of_pages (honest : files.Honest vn file)
    (filled : Filled files vn headers (restale as (behindFile file)) space first second)
    (placed : placedHeaders headers = [first, second]) (usable : space.Usable)
    (pages1 : regionPages first.vaddr first.memsz ≠ 0) (pages2 : regionPages second.vaddr second.memsz ≠ 0)
    (pages : ∀ ph ∈ headers, ph.ptype = ptLoad → ∀ va, ph.Covers va →
      ∃ region vpn, space.locate (pageMask va) = some (region, vpn) ∧
        (regionLoad files space region vpn (pageMask va)).code = 0 ∧
        (regionLoad files space region vpn (pageMask va)).data[va.toNat % pageSize]?.getD 0 =
          eagerByte headers file va.toNat) : Faithful headers file first second := by
  have bounded (ph : Phdr) (member : ph ∈ headers) (loadable : ph.ptype = ptLoad) (some : ph.memsz ≠ 0) :
      pageSize ≤ ph.vaddr.toNat ∧ ph.vaddr.toNat + ph.memsz.toNat ≤ 0xfffff000 := by
    have size : ph.memsz.toNat ≠ 0 := fun zero => some (eq_of_toNat_eq zero)
    have limits (va : Vaddr) (covers : ph.Covers va) :
        va.toNat / 4096 * 4096 ≠ 0 ∧ va.toNat / 4096 * 4096 ≠ 0xfffff000 := by
      obtain ⟨_, _, spot, _⟩ := pages ph member loadable va covers
      rw [← pageMask_toNat]
      exact locate_bounds usable spot
    have low := limits ph.vaddr ⟨Nat.le_refl _, by omega⟩
    refine ⟨by simp only [pageSize]; omega, ?_⟩
    by_contra beyond
    -- the last page below the end of the address space is in no region
    have last : (0xfffff000 : Vaddr).toNat = 0xfffff000 := rfl
    have high := limits 0xfffff000 ⟨by omega, by omega⟩
    exact high.2 rfl
  refine ⟨placed, pages1, pages2, bounded, fun ph member loadable va covers => ?_⟩
  have kept := mem_placed placed member loadable (bounded ph member loadable covers.nonempty).1
  have spot := locate_slot filled.defined1 filled.defined2 (placed_bound placed bounded) covers kept
  obtain ⟨region, vpn, there, code, data⟩ := pages ph member loadable va covers
  rw [spot, Option.some.injEq] at there
  have vnode := filled.vnode
  unfold slotOf at there
  split
  · rename_i has
    rw [if_pos has] at there
    cases there
    rw [regionLoad, vnode] at code data
    exact .of_loads honest filled.defined1.base has.1 filled.range1 code data
  · rename_i has
    rw [if_neg has] at there
    cases there
    rw [regionLoad, vnode] at code data
    exact .of_loads honest filled.defined2.base (covers.other_page kept has).1 filled.range2 code data

/-- A page that was faulted in has the bytes of its load. -/
theorem fault_shows {ram : RamSize} {m next : Machine} {after : AddrSpace} {region : Region} {vpn : Nat} {entry : Pte}
    (fresh : UserState.Fresh ram (fun _ => 0) ⟨space, m⟩) (complete : space.Complete)
    (spot : space.locate (pageMask va) = some (region, vpn))
    (ran : vmFault files .read va (some space) m = .ok (0, some after, next))
    (found : after.pteAt region vpn = .ok entry) :
    space.Usable ∧ (regionLoad files space region vpn (pageMask va)).code = 0 ∧
      next.core.mem (entry.pfn.toNat + va.toNat % pageSize) =
        (regionLoad files space region vpn (pageMask va)).data[va.toNat % pageSize]?.getD 0 := by
  obtain ⟨old, was⟩ := complete.entries _ _ _ spot
  have invalid : old.valid = false := by
    rw [fresh.untouched region vpn old was]
    rfl
  obtain ⟨live, allocator⟩ := fresh.allocator
  obtain ⟨usable, code, loaded, again, _, bytes⟩ := fault_loads_region allocator rfl spot was invalid
    (fun slot inside valid => absurd valid (fresh.empty slot inside)) ran
  rw [again, Except.ok.injEq] at found
  subst found
  exact ⟨usable, code, bytes _ (Nat.mod_lt _ (by decide))⟩

/-- After any faults each covered address shows the eager byte. -/
theorem Faithful.agrees {ram : RamSize} {heap : HeapReply} {image : Nat → Byte} {m : Machine}
    (faithful : Faithful headers file first second) (honest : files.Honest vn file)
    (created : asCreate heap = .ok (some as)) (loaded : Loaded files vn as s headers space core)
    (shown : ∀ addr, image addr = eagerByte headers file addr)
    (fresh : UserState.Fresh ram (fun _ => 0) ⟨space, m⟩) : DemandAgrees files headers image ⟨space, m⟩ := by
  intro ops t run ph member loadable va covers
  have prepared := loaded.prepared (asCreate_ok created).1
  have usable : space.Usable := (loaded.placed created).usable_iff.mpr
    ⟨first, second, faithful.placed, faithful.pages1, faithful.pages2⟩
  have initially : UserState.Loading ram files ⟨space, m⟩ := by
    refine ⟨fresh.inv, prepared.complete, ?_⟩
    intro page region vpn entry _ _ _ found valid
    rw [prepared.untouched region vpn entry found] at valid
    cases valid
  obtain ⟨loading, layout⟩ := initially.run run
  obtain ⟨region, vpn, spot, program, code, byte⟩ :=
    faithful.page honest (loaded.filled created faithful.placed) member loadable covers
  rw [← locate_layout layout] at spot
  rw [← regionLoad_layout files layout] at code byte
  refine ⟨fun frame => ?_, fun other place entry there found valid => ?_⟩
  · obtain ⟨after, next, entry, success, found, valid⟩ :=
      loading.fault_succeeds (usable.layout layout.symm) frame spot code
    exact ⟨region, vpn, after, next, entry, spot, success, found, valid⟩
  · rw [spot] at there
    cases there
    rw [loading.image _ region vpn entry (pageMask_aligned va) spot program found valid code _
      (Nat.mod_lt _ (by decide)), byte, shown]

end

/-- Demand loading agrees with eager loading exactly when the two headers record these bytes. -/
theorem demand_image_agrees_iff {files : Files} {vn : Vnode} {file : List Byte}
    (honest : files.Honest vn file) {heap : HeapReply} {as start : AddrSpace}
    (created : asCreate heap = .ok (some as)) {ram : RamSize} {live : List (Paddr × Word32)}
    {s core : CoreState} (allocator : CoreConf.Reachable ram (fun _ => 0) ⟨s, live⟩)
    {entrypoint : Option Vaddr} (returned : loadElf files vn as s = .ok (0, entrypoint, start, core))
    (available : core.FrameAvailable) {image : Nat → Byte} (eager : eagerImage files vn = .ok (0, image)) :
    (∀ heap as entrypoint start core m, asCreate heap = .ok (some as) →
      loadElf files vn as s = .ok (0, entrypoint, start, core) → m.core = core →
      (∀ slot < numTlb, ¬ (m.tlb slot).Valid) → m.nextVictim < numTlb →
        DemandAgrees files (programHeaders file) image ⟨start, m⟩) ↔
      (∀ ph ∈ programHeaders file, ph.ptype = ptLoad → ph.memsz = 0) ∨
        ∃ first second, Faithful (programHeaders file) file first second := by
  have shown {as space : AddrSpace} {core : CoreState} {headers : List Phdr}
      (loaded : Loaded files vn as s headers space core) (addr : Nat) : image addr = eagerByte headers file addr :=
    (eagerImage_ok eager loaded).eager honest addr
  constructor
  · intro agrees
    by_cases empty : ∀ ph ∈ programHeaders file, ph.ptype = ptLoad → ph.memsz = 0
    · exact .inl empty
    -- the heap block is chosen so that a slot that no header records cannot be loaded
    obtain ⟨space, ran⟩ := loadElf_restale (behindFile file) returned
    have made := asCreate_restale (behindFile file) created
    obtain ⟨headers, loaded⟩ := loadElf_ok ran
    obtain rfl := loaded.headers_eq honest
    have prepared := loaded.prepared (asCreate_ok made).1
    have cursor : (Machine.idle core).nextVictim < numTlb := (by decide : 0 < numTlb)
    have fresh : UserState.Fresh ram (fun _ => 0) ⟨space, Machine.idle core⟩ :=
      ⟨loaded.reachable allocator, prepared.untouched, fun slot _ => invalid_slot slot, cursor⟩
    have both := agrees _ _ _ _ _ (Machine.idle core) made ran rfl (fun slot _ => invalid_slot slot) cursor
    have pages (ph : Phdr) (member : ph ∈ programHeaders file) (loadable : ph.ptype = ptLoad) (va : Vaddr)
        (covers : ph.Covers va) : space.Usable ∧
        ∃ region vpn, space.locate (pageMask va) = some (region, vpn) ∧
          (regionLoad files space region vpn (pageMask va)).code = 0 ∧
          (regionLoad files space region vpn (pageMask va)).data[va.toNat % pageSize]?.getD 0 =
            eagerByte (programHeaders file) file va.toNat := by
      obtain ⟨region, vpn, after, next, entry, spot, success, found, valid⟩ :=
        (both [] _ (.nil _) ph member loadable va covers).1 available
      obtain ⟨usable, code, byte⟩ := fault_shows fresh prepared.complete spot success found
      have kept : after.locate (pageMask va) = some (region, vpn) :=
        (locate_layout (vmFault_effect success).layout _).trans spot
      have same := (both [.fault .read va] ⟨after, next⟩ (.single (.fault success)) ph member loadable va covers).2
        region vpn entry kept found valid
      exact ⟨usable, region, vpn, spot, code, byte.symm.trans (same.trans (shown loaded va.toNat))⟩
    obtain ⟨ph, member, loadable, some⟩ : ∃ ph ∈ programHeaders file, ph.ptype = ptLoad ∧ ph.memsz ≠ 0 := by
      simpa using empty
    have size : ph.memsz.toNat ≠ 0 := fun zero => some (eq_of_toNat_eq zero)
    have usable := (pages ph member loadable ph.vaddr ⟨Nat.le_refl _, by omega⟩).1
    obtain ⟨first, second, placed, pages1, pages2⟩ := (loaded.placed made).usable_iff.mp usable
    exact .inr ⟨first, second, .of_pages honest (loaded.filled made placed) placed usable pages1 pages2
      fun ph member loadable va covers => (pages ph member loadable va covers).2⟩
  · intro condition heap as entrypoint start core m created returned state empty cursor
    obtain none | ⟨first, second, faithful⟩ := condition
    · intro ops t run ph member loadable va covers
      exact absurd (none ph member loadable) covers.nonempty
    obtain ⟨headers, loaded⟩ := loadElf_ok returned
    obtain rfl := loaded.headers_eq honest
    subst state
    have prepared := loaded.prepared (asCreate_ok created).1
    exact faithful.agrees honest created loaded (shown loaded)
      ⟨loaded.reachable allocator, prepared.untouched, empty, cursor⟩

/-- A header for data in the page of the code. -/
def sharedData : Phdr := { smallData with vaddr := 0x400800 }

/-- The small executable with its data in the page of its code. -/
def sharedElf : List Byte := elfFile 0x400000 [reginfo, smallCode, sharedData] [1, 2, 3, 4]

theorem sharedElf_byte (addr : Nat) : eagerByte [reginfo, smallCode, sharedData] sharedElf addr =
    if 4194304 ≤ addr ∧ addr < 4194308 then smallCode.fileByte sharedElf (addr - 4194304) else 0 := by
  have skipped (byte : Byte) : overwrite sharedElf addr byte reginfo = byte :=
    if_neg fun loads => absurd loads.1 (by decide)
  have zeros (byte : Byte) : overwrite sharedElf addr byte sharedData = byte := by
    refine if_neg fun loads => ?_
    obtain ⟨_, above, below⟩ := loads
    exact absurd below (Nat.not_lt.mpr above)
  have code (byte : Byte) : overwrite sharedElf addr byte smallCode =
      if 4194304 ≤ addr ∧ addr < 4194308 then smallCode.fileByte sharedElf (addr - 4194304) else byte :=
    if_congr (and_iff_right rfl) rfl rfl
  rw [eagerByte, foldl_cons, foldl_cons, foldl_cons, foldl_nil, skipped, code, zeros]

theorem sharedElf_faithful : Faithful [reginfo, smallCode, sharedData] sharedElf smallCode sharedData := by
  refine ⟨rfl, by decide, by decide, by decide, ?_⟩
  intro ph member loadable va covers
  have page : 4194304 ≤ va.toNat ∧ va.toNat < 4198400 := by
    obtain ⟨above, below⟩ := covers
    simp only [mem_cons, not_mem_nil, or_false] at member
    rcases member with rfl | rfl | rfl
    · exact absurd loadable (by decide)
    · exact ⟨above, Nat.lt_trans below (by decide)⟩
    · exact ⟨Nat.le_trans (by decide) above, Nat.lt_trans below (by decide)⟩
  have first : smallCode.firstPage = 1024 := rfl
  have last : smallCode.endPage = 1025 := rfl
  have size : smallCode.filesz.toNat = 4 := rfl
  have long : sharedElf.length = 152 := rfl
  rw [if_pos (show smallCode.HasPage _ by simp only [HasPage, first, last, pageSize]; omega)]
  refine ⟨smallCode, rfl, rfl, ?_, ?_⟩
  · intro _
    rw [size, long, show smallCode.offset.toNat = 148 from rfl]
    omega
  · rw [sharedElf_byte, first, show 1024 * pageSize = 4194304 from rfl]
    split
    · rfl
    · rw [fileByte, size, if_neg (by omega)]

/-- The segments of the executable share a page, and all its bytes are loaded. -/
theorem demand_image_agrees_shared :
    ∃ start core image, loadElf (fileOf sharedElf) 0 newSpace (booted eightFrames fun _ => 0) =
        .ok (0, some 0x400000, start, core) ∧
      eagerImage (fileOf sharedElf) 0 = .ok (0, image) ∧ image 0x400001 = 2 ∧
      DemandAgrees (fileOf sharedElf) [reginfo, smallCode, sharedData] image ⟨start, Machine.idle core⟩ := by
  obtain ⟨start, core, rest, ran, served⟩ : ∃ start core rest, loadElf (fileOf sharedElf) 0 newSpace
      (booted eightFrames fun _ => 0) = .ok (0, some 0x400000, start, core) ∧
      getppages 1 .user core = .ok (0x13000, rest) := ⟨_, _, _, rfl, rfl⟩
  obtain ⟨image, eager, byte⟩ : ∃ image, eagerImage (fileOf sharedElf) 0 = .ok (0, image) ∧ image 0x400001 = 2 :=
    ⟨_, rfl, rfl⟩
  have table : programHeaders sharedElf = [reginfo, smallCode, sharedData] :=
    programHeaders_elfFile 0x400000 (by decide) _
  have created : asCreate ⟨some newSpace, true⟩ = .ok (some newSpace) := rfl
  obtain ⟨headers, loaded⟩ := loadElf_ok ran
  obtain ⟨live, reachable⟩ := loaded.reachable eightFrames_reachable
  have available := (reachable.inv.formed.frameAvailable_iff .user).mpr ⟨_, _, served, by decide⟩
  have agrees := (demand_image_agrees_iff (fileOf_honest sharedElf 0) created eightFrames_reachable ran available
    eager).mpr (.inr ⟨smallCode, sharedData, table.symm ▸ sharedElf_faithful⟩)
  exact ⟨start, core, image, ran, eager, byte, agrees _ _ _ _ _ _ created ran rfl
    (fun slot _ => invalid_slot slot) (by decide : 0 < numTlb)⟩

/-- The small executable with its code 16 bytes behind the start of a page. -/
def unalignedElf : List Byte :=
  elfFile 0x400010 [reginfo, { smallCode with vaddr := 0x400010 }, smallData] [1, 2, 3, 4]

/-- The small executable without the leading skipped header. -/
def leadingElf : List Byte :=
  elfFile 0x400000 [{ smallCode with offset := 116 }, smallData] [1, 2, 3, 4]

/-- The code begins with 1 in the eager image and 0 in memory. -/
theorem demand_image_differs :
    (∃ start core image space next, loadElf (fileOf unalignedElf) 0 newSpace
        (booted eightFrames fun _ => 0) = .ok (0, some 0x400010, start, core) ∧
      eagerImage (fileOf unalignedElf) 0 = .ok (0, image) ∧
      vmFault (fileOf unalignedElf) .read 0x400010 (some start) (Machine.idle core) =
        .ok (0, some space, next) ∧ (next.Translates 0 0x400010 0x13010) ∧
      next.core.mem 0x13010 = 0 ∧ image 0x400010 = 1) ∧
    ∃ start core image space next, loadElf (fileOf leadingElf) 0 newSpace
        (booted eightFrames fun _ => 0) = .ok (0, some 0x400000, start, core) ∧
      eagerImage (fileOf leadingElf) 0 = .ok (0, image) ∧
      vmFault (fileOf leadingElf) .read 0x400000 (some start) (Machine.idle core) =
        .ok (0, some space, next) ∧ (next.Translates 0 0x400000 0x13000) ∧
      next.core.mem 0x13000 = 0 ∧ image 0x400000 = 1 := by
  refine ⟨⟨_, _, _, _, _, rfl, rfl, rfl, ⟨by decide, ?_, rfl, rfl⟩, rfl, rfl⟩,
    ⟨_, _, _, _, _, rfl, rfl, rfl, ⟨by decide, ?_, rfl, rfl⟩, rfl, rfl⟩⟩
  · decide
  · decide

end Os161.Syscall
