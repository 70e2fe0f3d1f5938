import Os161.Syscall.LoadElf
import Os161.Vm.AddrSpaceSpec
import Os161.Vm.Allocation

namespace Os161.Syscall
open Word Vm Outcome Transition

/-- The program headers that the loops of `load_elf` read from one index on. -/
inductive ReadsHeaders (files : Files) (vn : Vnode) (eh : Ehdr) : Nat → List Phdr → Prop where
  | nil (i : Nat) : ReadsHeaders files vn eh i []
  | cons {i : Nat} {bytes : List Byte} {rest : List Phdr}
      (read : readHeader files vn (eh.phdrOffset i) phdrBytes = .ok (.ok bytes))
      (tail : ReadsHeaders files vn eh (i + 1) rest) :
      ReadsHeaders files vn eh i (Phdr.parse bytes :: rest)

variable {files : Files} {vn : Vnode} {eh : Ehdr} {i : Nat}

theorem ReadsHeaders.unique (first : ReadsHeaders files vn eh i left)
    (second : ReadsHeaders files vn eh i right) (len : left.length = right.length) : left = right := by
  induction first generalizing right with
  | nil i =>
    cases second with
    | nil => rfl
    | cons read tail => cases len
  | cons read tail ih =>
    cases second with
    | nil => cases len
    | cons again rest =>
      rw [read, Except.ok.injEq, Except.ok.injEq] at again
      rw [again, ih rest (Nat.succ.inj len)]

/-- A loop over the headers runs its body on every loadable one. -/
inductive Applied {S : Type} (body : Nat → Phdr → S → Kernel (Errno × S)) :
    Nat → List Phdr → S → S → Prop where
  | nil (i : Nat) (state : S) : Applied body i [] state state
  | skip {i : Nat} {ph : Phdr} {rest : List Phdr} {state last : S} (skipped : ph.Skipped)
      (tail : Applied body (i + 1) rest state last) : Applied body i (ph :: rest) state last
  | load {i : Nat} {ph : Phdr} {rest : List Phdr} {state next last : S}
      (loadable : ph.ptype = ptLoad) (done : body i ph state = .ok (0, next))
      (tail : Applied body (i + 1) rest next last) : Applied body i (ph :: rest) state last

variable {S : Type} {headers : List Phdr} {body : Nat → Phdr → S → Kernel (Errno × S)}
  {state last : S}

theorem Applied.invariant {S : Type} {body : Nat → Phdr → S → Kernel (Errno × S)}
    {property : S → Prop}
    (preserved : ∀ i ph state next, property state → body i ph state = .ok (0, next) → property next)
    {i : Nat} {headers : List Phdr} {state last : S} (applied : Applied body i headers state last)
    (initially : property state) : property last := by
  induction applied with
  | nil i state => exact initially
  | skip skipped tail ih => exact ih initially
  | load loadable done tail ih => exact ih (preserved _ _ _ _ initially done)

variable {ph : Phdr}

theorem Phdr.not_skipped (loadable : ph.ptype = ptLoad) : ¬ ph.Skipped := by
  rw [Phdr.Skipped, loadable]
  decide

theorem Applied.skipped (applied : Applied body i headers state last)
    (all : ∀ ph ∈ headers, ph.Skipped) : last = state := by
  induction applied with
  | nil i state => rfl
  | skip skipped tail ih => exact ih fun ph mem => all ph (List.mem_cons_of_mem _ mem)
  | load loadable done tail ih =>
    exact absurd (all _ List.mem_cons_self) (Phdr.not_skipped loadable)

theorem readHeader_error (read : readHeader files vn offset len = .ok (.error code)) : code ≠ 0 := by
  simp only [readHeader, vopRead, kassert, if_true, ok_bind, pure_ok] at read
  split at read
  · rename_i failed
    cases read
    exact failed
  · split at read
    · cases read
      decide
    · cases read

theorem phdrLoop_invariant {S : Type} {files : Files} {vn : Vnode} {eh : Ehdr}
    {body : Nat → Phdr → S → Kernel (Errno × S)} {property : S → Prop}
    (preserved : ∀ i ph state code next, property state → body i ph state = .ok (code, next) →
      property next) {todo i : Nat} {state last : S} {code : Errno}
    (ran : phdrLoop files vn eh body todo i state = .ok (code, last))
    (initially : property state) : property last := by
  induction todo generalizing i state with
  | zero =>
    cases ran
    exact initially
  | succ todo ih =>
    obtain ⟨reply, _, went⟩ := bind_ok.mp ran
    cases reply with
    | error refused =>
      cases went
      exact initially
    | ok bytes =>
      dsimp only at went
      split at went
      · exact ih went initially
      · split at went
        · cases went
          exact initially
        · obtain ⟨⟨res, next⟩, done, rest⟩ := bind_ok.mp went
          have kept := preserved _ _ _ _ _ initially done
          split at rest
          · cases rest
            exact kept
          · exact ih rest kept

theorem phdrLoop_ok (ran : phdrLoop files vn eh body todo i state = .ok (0, last)) :
    ∃ headers, headers.length = todo ∧ ReadsHeaders files vn eh i headers ∧
      Applied body i headers state last := by
  induction todo generalizing i state with
  | zero =>
    cases ran
    exact ⟨[], rfl, .nil i, .nil i _⟩
  | succ todo ih =>
    obtain ⟨reply, read, went⟩ := bind_ok.mp ran
    cases reply with
    | error code =>
      cases went
      exact absurd rfl (readHeader_error read)
    | ok bytes =>
      dsimp only at went
      split at went
      · rename_i skipped
        obtain ⟨headers, len, tail, applied⟩ := ih went
        exact ⟨_ :: headers, by rw [List.length_cons, len], .cons read tail,
          .skip skipped applied⟩
      · split at went
        · cases went
        · rename_i loadable
          obtain ⟨⟨code, next⟩, done, rest⟩ := bind_ok.mp went
          split at rest
          · rename_i failed
            cases rest
            exact absurd rfl failed
          · rename_i good
            obtain rfl : code = 0 := by simpa using good
            obtain ⟨headers, len, tail, applied⟩ := ih rest
            exact ⟨_ :: headers, by rw [List.length_cons, len], .cons read tail,
              .load (by simpa using loadable) done applied⟩

/-- A successful `load_elf` accepted the header and ran its two loops over the same table. -/
structure Loaded (files : Files) (vn : Vnode) (as : AddrSpace) (s : CoreState)
    (headers : List Phdr) (space : AddrSpace) (core : CoreState) : Prop where
  accepted : ∃ bytes, readHeader files vn 0 ehdrBytes = .ok (.ok bytes) ∧
    (Ehdr.parse bytes).Accepted ∧ headers.length = (Ehdr.parse bytes).phnum.toNat ∧
    ReadsHeaders files vn (Ehdr.parse bytes) 0 headers
  regions : ∃ middle, Applied defineRegion 0 headers (as, s) (middle, core) ∧
    Applied (recordSegment vn) 0 headers middle space

theorem loadElf_ok (ran : loadElf files vn as s = .ok (0, entrypoint, space, core)) :
    ∃ headers, Loaded files vn as s headers space core := by
  obtain ⟨reply, read, went⟩ := bind_ok.mp ran
  cases reply with
  | error code =>
    cases went
    exact absurd rfl (readHeader_error read)
  | ok bytes =>
    dsimp only at went
    split at went
    · cases went
    · rename_i accepted
      obtain ⟨⟨code, middle, after⟩, first, rest⟩ := bind_ok.mp went
      split at rest
      · rename_i failed
        cases rest
        exact absurd rfl failed
      · rename_i good
        obtain rfl : code = 0 := by simpa using good
        obtain ⟨⟨code, last⟩, second, final⟩ := bind_ok.mp rest
        split at final
        · rename_i failed
          cases final
          exact absurd rfl failed
        · rename_i recorded
          obtain rfl : code = 0 := by simpa using recorded
          cases final
          obtain ⟨headers, len, reads, defined⟩ := phdrLoop_ok first
          obtain ⟨again, same, rereads, noted⟩ := phdrLoop_ok second
          obtain rfl := reads.unique rereads (len.trans same.symm)
          exact ⟨headers, ⟨bytes, read, not_not.mp accepted, len, reads⟩, middle, defined, noted⟩

theorem eagerImage_ok (ran : eagerImage files vn = .ok (0, image))
    (loaded : Loaded files vn as s headers space core) :
    Applied (loadSegmentEager files vn) 0 headers (fun _ => 0) image := by
  obtain ⟨bytes, read, accepted, len, reads⟩ := loaded.accepted
  rw [eagerImage, read, ok_bind] at ran
  dsimp only at ran
  rw [if_neg (not_not.mpr accepted)] at ran
  obtain ⟨again, same, rereads, applied⟩ := phdrLoop_ok ran
  obtain rfl := reads.unique rereads (len.trans same.symm)
  exact applied

end Os161.Syscall
