import Os161.Libc.Memmove
import Os161.Sfs.Disk

namespace Os161.Klib
open Outcome Bytes Libc List Function
open Vm (UioRw)

/-- `enum uio_seg` -/
inductive UioSeg where
  | userispace
  | userspace
  | sysspace
deriving DecidableEq

/-- `struct iovec`, with an address of the user or of the kernel -/
structure Iovec where
  base : Nat
  len : Nat
deriving DecidableEq

/-- `struct uio`. The length of the list is `uio_iovcnt`. -/
structure Uio where
  iov : List Iovec
  offset : Int
  resid : Word.Word32
  segflg : UioSeg
  rw : UioRw
  space : Option Nat
deriving DecidableEq

/-- `copyout` or `copyin` from an address to another, with what it leaves when it fails -/
abbrev UserCopy := (dst src size : Nat) → Memory → Errno × Memory

/-- The transfer of one chunk between the buffer at `base` and `ptr` -/
def Uio.transfer (copyUser : UserCopy) (u : Uio) (base ptr size : Nat) (mem : Memory) : Errno × Memory :=
  let (dst, src) := match u.rw with
    | .read => (base, ptr)
    | .write => (ptr, base)
  match u.segflg with
  | .sysspace => (0, (memmove dst src size mem).2)
  | .userspace | .userispace => copyUser dst src size mem

/-- The fields behind the transfer of a chunk of the first buffer -/
def Uio.advance (u : Uio) (first : Iovec) (rest : List Iovec) (size : Nat) : Uio :=
  { u with
    iov := ⟨first.base + size, first.len - size⟩ :: rest
    resid := u.resid - BitVec.ofNat 32 size
    offset := u.offset + size }

/-- The loop of `uiomove` -/
def uiomoveLoop (copyUser : UserCopy) (ptr n : Nat) (u : Uio) (mem : Memory) : Kernel (Errno × Uio × Memory) :=
  if n = 0 ∨ u.resid = 0 then .ok (0, u, mem)
  else match _found : u.iov with
    | [] => .error .nullPointer
    | first :: rest =>
      let size := min first.len n
      if size = 0 then
        if rest = [] then .error (.message "uiomove: ran out of buffers\n")
        else uiomoveLoop copyUser ptr n { u with iov := rest } mem
      else
        let (result, mem) := u.transfer copyUser first.base ptr size mem
        if result ≠ 0 then .ok (result, u, mem)
        else uiomoveLoop copyUser (ptr + size) (n - size) (u.advance first rest size) mem
termination_by n + u.iov.length
decreasing_by
  · simp [_found]
  · simp only [Uio.advance, length_cons, _found]
    omega

/-- `uiomove`. The address space is the one of the current process. -/
def uiomove (copyUser : UserCopy) (getas : Option Nat) (ptr n : Nat) (u : Uio) (mem : Memory) :
    Kernel (Errno × Uio × Memory) := do
  if u.segflg = .sysspace then kassert (u.space = none) "uio->uio_space == NULL"
  else kassert (u.space = getas) "uio->uio_space == curproc_getas()"
  uiomoveLoop copyUser ptr n u mem

/-- The addresses of the bytes of some buffers, in order -/
def addresses (iov : List Iovec) : List Nat := iov.flatMap fun v => range' v.base v.len

/-- The bytes at some addresses go to others, one after the other. -/
def moveBytes (dst src : List Nat) (mem : Memory) : Memory :=
  (dst.zip (src.map mem)).foldl (fun mem p => update mem p.1 p.2) mem

/-- The bytes of a buffer are filled from kernel memory, or go there. -/
def moveBuffer (buffer memory : List Nat) : UioRw → Memory → Memory
  | .read => moveBytes buffer memory
  | .write => moveBytes memory buffer

/-- The call returns, and has moved as many bytes as the residue and the length allow. -/
def Moved (u : Uio) (ptr n : Nat) (mem : Memory) (result : Kernel (Errno × Uio × Memory)) : Prop :=
  let count := min n u.resid.toNat
  ∃ u', result = .ok (0, u', moveBuffer ((addresses u.iov).take count) (range' ptr count) u.rw mem) ∧
    u'.resid.toNat = u.resid.toNat - count ∧ u'.offset = u.offset + count ∧
    addresses u'.iov = (addresses u.iov).drop count ∧
    u'.segflg = u.segflg ∧ u'.rw = u.rw ∧ u'.space = u.space

/-- The length is within the residue, or the residue ends with one of the buffers. -/
def Fits (u : Uio) (n : Nat) : Prop :=
  n ≤ u.resid.toNat ∨ ∃ k, (addresses (u.iov.take k)).length = u.resid.toNat

theorem addresses_cons (v : Iovec) (iov : List Iovec) :
    addresses (v :: iov) = range' v.base v.len ++ addresses iov := rfl

theorem length_addresses_cons (v : Iovec) (iov : List Iovec) :
    (addresses (v :: iov)).length = v.len + (addresses iov).length := by
  rw [addresses_cons, length_append, length_range']

theorem store_range (base : Nat) (data : List Byte) (mem : Memory) :
    ((range' base data.length).zip data).foldl (fun mem p => update mem p.1 p.2) mem = store base data mem := by
  induction data generalizing base mem with
  | nil => rfl
  | cons value data ih =>
    rw [length_cons, range'_succ, zip_cons_cons, foldl_cons, ih, store]

theorem moveBytes_range (dst src size : Nat) (mem : Memory) :
    moveBytes (range' dst size) (range' src size) mem = copy mem src mem dst size := by
  have stored := store_range dst ((range' src size).map mem) mem
  rw [length_map, length_range'] at stored
  rw [moveBytes, stored]
  funext a
  rw [store_apply, copy]
  by_cases above : dst ≤ a
  · by_cases below : a < dst + size
    · rw [if_pos above, if_pos ⟨above, below⟩, getElem?_map, getElem?_range' (by omega)]
      simp
    · rw [if_pos above, if_neg (by omega), getElem?_eq_none (by simp; omega), Option.getD_none]
  · rw [if_neg above, if_neg (by omega)]

theorem moveBytes_outside {a : Nat} {dst : List Nat} (outside : a ∉ dst) (src : List Nat) (mem : Memory) :
    moveBytes dst src mem a = mem a := by
  unfold moveBytes
  generalize src.map mem = data
  induction dst generalizing data mem with
  | nil => rfl
  | cons d dst ih =>
    obtain ⟨other, outside⟩ := not_or.mp (mt mem_cons.mpr outside)
    cases data with
    | nil => rfl
    | cons value data => rw [zip_cons_cons, foldl_cons, ih outside, update_of_ne other]

theorem moveBytes_append (same : dst.length = src.length) (apart : ∀ a ∈ src', a ∉ dst) (mem : Memory) :
    moveBytes (dst ++ dst') (src ++ src') mem = moveBytes dst' src' (moveBytes dst src mem) := by
  have kept : src'.map (moveBytes dst src mem) = src'.map mem :=
    map_congr_left fun a inside => moveBytes_outside (apart a inside) src mem
  rw [moveBytes, map_append, zip_append (by simpa using same), foldl_append, ← kept]
  rfl

theorem moveBuffer_append (way : UioRw) (same : buffer.length = memory.length)
    (apart : ∀ a ∈ buffer ++ buffer', a ∉ memory ++ memory') (mem : Memory) :
    moveBuffer (buffer ++ buffer') (memory ++ memory') way mem =
      moveBuffer buffer' memory' way (moveBuffer buffer memory way mem) := by
  cases way with
  | read =>
    refine moveBytes_append same (fun a inside also => ?_) mem
    exact apart a (mem_append_left _ also) (mem_append_right _ inside)
  | write =>
    refine moveBytes_append same.symm (fun a inside also => ?_) mem
    exact apart a (mem_append_right _ inside) (mem_append_left _ also)

section

variable {copyUser : UserCopy} {u : Uio} {ptr n : Nat} {mem : Memory}

theorem advance_addresses (found : u.iov = first :: rest) (small : size ≤ first.len) :
    addresses (u.advance first rest size).iov = (addresses u.iov).drop size := by
  rw [found]
  simp [addresses_cons, Uio.advance, drop_append_of_le_length, small]

theorem take_addresses (found : u.iov = first :: rest) (small : size ≤ first.len) (k : Nat) :
    (addresses u.iov).take (size + k) =
      range' first.base size ++ (addresses (u.advance first rest size).iov).take k := by
  rw [take_add, advance_addresses found small, found, addresses_cons,
    take_append_of_le_length (by simpa using small), take_range'_of_length_ge small]

theorem fits_cons (found : u.iov = first :: rest) (more : u.resid ≠ 0) :
    Fits u n ↔ n ≤ u.resid.toNat ∨ ∃ k, first.len + (addresses (rest.take k)).length = u.resid.toNat := by
  refine or_congr .rfl ⟨fun ⟨k, ends⟩ => ?_, fun ⟨k, ends⟩ => ⟨k + 1, ?_⟩⟩
  · cases k with
    | zero => exact absurd (BitVec.eq_of_toNat_eq ends.symm) more
    | succ k =>
      rw [found, take_succ_cons, length_addresses_cons] at ends
      exact ⟨k, ends⟩
  · rw [found, take_succ_cons, length_addresses_cons]
    exact ends

theorem fits_skip (found : u.iov = first :: rest) (more : u.resid ≠ 0) (empty : first.len = 0) :
    Fits { u with iov := rest } n ↔ Fits u n := by
  rw [fits_cons found more, empty]
  simp only [Nat.zero_add]
  rfl

theorem resid_advance (within : size ≤ u.resid.toNat) :
    (u.advance first rest size).resid.toNat = u.resid.toNat - size := by
  simp only [Uio.advance, BitVec.toNat_sub, BitVec.toNat_ofNat]
  omega

theorem fits_advance (found : u.iov = first :: rest) (more : u.resid ≠ 0)
    (within : min first.len n ≤ u.resid.toNat) :
    Fits (u.advance first rest (min first.len n)) (n - min first.len n) ↔ Fits u n := by
  have left := @resid_advance u _ first rest within
  rw [fits_cons found more]
  rcases Nat.eq_or_lt_of_le within with all | before
  · refine iff_of_true (.inr ⟨0, by rw [left, all, Nat.sub_self]; rfl⟩) ?_
    by_cases long : n ≤ u.resid.toNat
    · exact .inl long
    · refine .inr ⟨0, ?_⟩
      exact (show first.len = u.resid.toNat by omega)
  · have later : (u.advance first rest (min first.len n)).resid ≠ 0 := fun none => by
      rw [none] at left
      exact absurd left.symm (Nat.sub_ne_zero_of_lt before)
    rw [fits_cons rfl later, left]
    refine or_congr (by omega) (exists_congr fun k => ?_)
    dsimp only
    omega

theorem Fits.within (fits : Fits u n) (found : u.iov = first :: rest) (more : u.resid ≠ 0) :
    min first.len n ≤ u.resid.toNat := by
  rcases (fits_cons found more).mp fits with short | ⟨k, ends⟩ <;> omega

theorem transfer_sysspace (kernel : u.segflg = .sysspace) (base size : Nat) :
    u.transfer copyUser base ptr size mem = (0, moveBuffer (range' base size) (range' ptr size) u.rw mem) := by
  unfold Uio.transfer moveBuffer
  cases u.rw <;> simp [kernel, memmove_eq, moveBytes_range]

theorem loop_moved (kernel : u.segflg = .sysspace) (enough : u.resid.toNat ≤ (addresses u.iov).length)
    (apart : ∀ a ∈ addresses u.iov, a < ptr ∨ ptr + n ≤ a) (fits : Fits u n) :
    Moved u ptr n mem (uiomoveLoop copyUser ptr n u mem) := by
  fun_induction uiomoveLoop copyUser ptr n u mem with
  | case1 ptr n u mem stop =>
    have nothing : min n u.resid.toNat = 0 := by
      rcases stop with rfl | none
      · exact Nat.zero_min _
      · simp [none]
    simp only [Moved, nothing]
    exact ⟨u, by cases u.rw <;> rfl, rfl, (Int.add_zero _).symm, rfl, rfl, rfl, rfl⟩
  | case2 ptr n u mem more found =>
    rw [found] at enough
    exact absurd (BitVec.eq_of_toNat_eq (Nat.le_zero.mp enough)) (not_or.mp more).2
  | case3 ptr n u mem more first size empty found =>
    have none : first.len = 0 := by omega
    rw [found, length_addresses_cons, none] at enough
    exact absurd (BitVec.eq_of_toNat_eq (Nat.le_zero.mp enough)) (not_or.mp more).2
  | case4 ptr n u mem more first rest found size empty others ih =>
    have none : first.len = 0 := by omega
    have same : addresses u.iov = addresses rest := by rw [found, addresses_cons, none]; rfl
    rw [same] at enough apart
    simp only [Moved, same]
    exact ih kernel enough apart ((fits_skip found (not_or.mp more).2 none).mpr fits)
  | case5 ptr n u mem more first rest found size some result mem' moved failed =>
    rw [transfer_sysspace kernel] at moved
    cases moved
    exact absurd rfl failed
  | case6 ptr n u mem more first rest found size some result mem' moved done ih =>
    have within := fits.within found (not_or.mp more).2
    have small : size ≤ first.len := Nat.min_le_left _ _
    have left := advance_addresses found small
    rw [transfer_sysspace kernel] at moved
    obtain ⟨-, rfl⟩ := Prod.mk.inj moved
    obtain ⟨u', ran, resid, offset, later, kept⟩ := ih kernel
      (by rw [resid_advance within, left, length_drop]; omega)
      (fun a inside => by
        have outside := apart a (mem_of_mem_drop (left ▸ inside))
        omega)
      ((fits_advance found (not_or.mp more).2 within).mpr fits)
    obtain ⟨k, count⟩ : ∃ k, k = min (n - size) (u.advance first rest size).resid.toNat := ⟨_, rfl⟩
    have total : min n u.resid.toNat = size + k := by
      rw [count, resid_advance within]
      omega
    rw [← count] at ran resid offset later
    rw [resid_advance within] at resid
    simp only [Moved, total]
    refine ⟨u', ?_, by omega, ?_, ?_, kept⟩
    -- the chunk and what the rest of the loop moves are one list of addresses
    · rw [ran, take_addresses found small, ← range'_append_1, moveBuffer_append u.rw (by simp)]
      · rfl
      · intro a inside
        rw [← take_addresses found small] at inside
        have outside := apart a (mem_of_mem_take inside)
        simp
        omega
    · rw [offset, Uio.advance]
      push_cast
      omega
    · rw [later, left, drop_drop]

theorem loop_offset_le (ran : uiomoveLoop copyUser ptr n u mem = .ok (error, u', mem')) : u.offset ≤ u'.offset := by
  fun_induction uiomoveLoop copyUser ptr n u mem with
  | case1 ptr n u mem stop =>
    cases ran
    exact Int.le_refl _
  | case2 => cases ran
  | case3 => cases ran
  | case4 ptr n u mem more first rest found size empty others ih => exact ih ran
  | case5 =>
    cases ran
    exact Int.le_refl _
  | case6 ptr n u mem more first rest found size some result mem' moved done ih =>
    have later := ih ran
    simp only [Uio.advance] at later
    omega

theorem loop_over (kernel : u.segflg = .sysspace) (beyond : ¬ Fits u n)
    (ran : uiomoveLoop copyUser ptr n u mem = .ok (error, u', mem')) : u.offset + u.resid.toNat < u'.offset := by
  fun_induction uiomoveLoop copyUser ptr n u mem with
  | case1 ptr n u mem stop =>
    refine absurd ?_ beyond
    rcases stop with rfl | none
    · exact .inl (Nat.zero_le _)
    · exact .inr ⟨0, by simp [none, addresses]⟩
  | case2 => cases ran
  | case3 => cases ran
  | case4 ptr n u mem more first rest found size empty others ih =>
    exact ih kernel (mt (fits_skip found (not_or.mp more).2 (by omega)).mp beyond) ran
  | case5 ptr n u mem more first rest found size some result mem' moved failed =>
    rw [transfer_sysspace kernel] at moved
    cases moved
    exact absurd rfl failed
  | case6 ptr n u mem more first rest found size some result mem' moved done ih =>
    by_cases within : size ≤ u.resid.toNat
    · have later := ih kernel (mt (fits_advance found (not_or.mp more).2 within).mp beyond) ran
      rw [resid_advance within] at later
      simp only [Uio.advance] at later
      omega
    · have later := loop_offset_le ran
      simp only [Uio.advance] at later
      omega

theorem uiomove_loop (kernel : u.segflg = .sysspace) (nowhere : u.space = none) (getas : Option Nat) :
    uiomove copyUser getas ptr n u mem = uiomoveLoop copyUser ptr n u mem := by
  simp [uiomove, kernel, nowhere, kassert, ok_bind]

/-- The smaller of length and residue is moved exactly under this condition. -/
theorem uiomove_moves_iff {getas : Option Nat} (kernel : u.segflg = .sysspace) (nowhere : u.space = none)
    (enough : u.resid.toNat ≤ (addresses u.iov).length) (apart : ∀ a ∈ addresses u.iov, a < ptr ∨ ptr + n ≤ a) :
    Moved u ptr n mem (uiomove copyUser getas ptr n u mem) ↔ Fits u n := by
  rw [uiomove_loop kernel nowhere]
  refine ⟨fun moved => by_contra fun beyond => ?_, loop_moved kernel enough apart⟩
  obtain ⟨u', ran, -, offset, -⟩ := moved
  have later := loop_over kernel beyond ran
  omega

end

/-- A read with three buffers of which one is empty -/
def threeBuffers : Uio := ⟨[⟨4096, 3⟩, ⟨5000, 0⟩, ⟨6000, 5⟩], 10, 6, .sysspace, .read, none⟩

theorem uiomove_moves_four : Moved threeBuffers 100 4 (fun a => BitVec.ofNat 8 a)
    (uiomove (fun _ _ _ mem => (eFault, mem)) none 100 4 threeBuffers fun a => BitVec.ofNat 8 a) :=
  (uiomove_moves_iff rfl rfl (by decide) (by decide)).mpr (.inl (by decide))

/-- A buffer of eight bytes of which two are wanted -/
def shortRead : Uio := ⟨[⟨4096, 8⟩], 0, 2, .sysspace, .read, none⟩

theorem shortRead_overruns :
    shortRead.resid.toNat ≤ (addresses shortRead.iov).length ∧ (∀ a ∈ addresses shortRead.iov, a < 0 ∨ 0 + 6 ≤ a) ∧
      (∃ u' mem', uiomove (fun _ _ _ mem => (eFault, mem)) none 0 6 shortRead (fun a => BitVec.ofNat 8 a) =
          .ok (0, u', mem') ∧ u'.resid = 0xfffffffc ∧ mem' 4101 = 5) ∧
      ¬ Moved shortRead 0 6 (fun a => BitVec.ofNat 8 a)
        (uiomove (fun _ _ _ mem => (eFault, mem)) none 0 6 shortRead fun a => BitVec.ofNat 8 a) := by
  have ran : uiomove (fun _ _ _ mem => (eFault, mem)) none 0 6 shortRead (fun a => BitVec.ofNat 8 a) =
      .ok (0, ⟨[⟨4102, 2⟩], 6, 0xfffffffc, .sysspace, .read, none⟩,
        copy (fun a => BitVec.ofNat 8 a) 0 (fun a => BitVec.ofNat 8 a) 4096 6) := by
    simp [uiomove, uiomoveLoop, shortRead, Uio.transfer, Uio.advance, memmove_eq, kassert, ok_bind]
  refine ⟨by decide, by decide, ⟨_, _, ran, rfl, by decide⟩, ?_⟩
  rw [ran]
  rintro ⟨u', same, -, offset, -⟩
  rw [← (Prod.mk.inj (Prod.mk.inj (Except.ok.inj same)).2).1] at offset
  exact absurd offset (by decide)

/-- The `uio` of the file system has one buffer of the kernel, at an address, which ends with the residue. -/
structure Uio.Has (u : Uio) (mem : Memory) (base : Nat) (w : Sfs.Uio) : Prop where
  kernel : u.segflg = .sysspace
  nowhere : u.space = none
  reach : w.reach = none
  rw : u.rw = w.rw
  offset : u.offset = w.offset
  resid : u.resid.toNat = w.resid
  iov : addresses u.iov = range' (base + w.position) w.resid
  buffer : ∀ k < w.position + w.resid, w.buffer k = mem (base + k)

theorem sfs_uiomove {w : Sfs.Uio} (reach : w.reach = none) (block : Sfs.Block) (skip n : Nat) :
    Sfs.uiomove block skip n w = match w.rw with
      | .read => (0, block, { w.advance (min n w.resid) with
          buffer := copy block skip w.buffer w.position (min n w.resid) })
      | .write => (0, copy w.buffer w.position block skip (min n w.resid), w.advance (min n w.resid)) := by
  simp only [Sfs.uiomove, Sfs.Uio.reaches, reach]
  by_cases none : min n w.resid = 0
  · cases w.rw <;> simp [none, Sfs.Uio.advance]
  · cases w.rw <;> simp [none]

/-- On such a `uio` the call does what the file system takes it to do. -/
theorem Uio.Has.uiomove {copyUser : UserCopy} {getas : Option Nat} {block : Sfs.Block} (has : Uio.Has u mem base w)
    (held : ∀ k < n, block (skip + k) = mem (ptr + k))
    (apart : ∀ k < w.position + w.resid, base + k < ptr ∨ ptr + n ≤ base + k) :
    ∃ u' mem' block' w', uiomove copyUser getas ptr n u mem = .ok (0, u', mem') ∧
      Sfs.uiomove block skip n w = (0, block', w') ∧ u'.Has mem' base w' ∧
      ∀ k < n, block' (skip + k) = mem' (ptr + k) := by
  obtain ⟨count, counted⟩ : ∃ count, min n w.resid = count := ⟨_, rfl⟩
  have length : (addresses u.iov).length = u.resid.toNat := by rw [has.iov, length_range', has.resid]
  obtain ⟨u', ran, resid, offset, iov, segflg, way, space⟩ := @loop_moved copyUser u ptr n mem has.kernel
    (Nat.le_of_eq length.symm)
    (fun a inside => by
      rw [has.iov, mem_range'_1] at inside
      have outside := apart (a - base) (by omega)
      omega)
    (.inr ⟨u.iov.length, by rw [take_length, length]⟩)
  rw [← uiomove_loop has.kernel has.nowhere getas, has.resid, counted, has.iov, has.rw,
    take_range'_of_length_ge (by omega)] at ran
  rw [has.resid, counted] at resid
  rw [has.resid, counted, has.offset] at offset
  rw [has.resid, counted, has.iov, drop_range', Nat.mul_one, Nat.add_assoc] at iov
  have sfs := sfs_uiomove has.reach block skip n
  rw [counted] at sfs
  have inside {k : Nat} (below : k < w.position + count + (w.resid - count)) : k < w.position + w.resid := by
    omega
  cases direction : w.rw with
  | read =>
    rw [direction] at ran sfs
    rw [moveBuffer, moveBytes_range] at ran
    refine ⟨u', _, _, _, ran, sfs, ⟨segflg.trans has.kernel, space.trans has.nowhere, has.reach, way.trans has.rw,
      offset, resid, iov, fun k below => ?_⟩, fun k below => ?_⟩
    · simp only [copy]
      by_cases filled : w.position ≤ k ∧ k < w.position + count
      · rw [if_pos filled, if_pos (by omega), held _ (by omega)]
        congr 1
        omega
      · rw [if_neg filled, if_neg (by omega), has.buffer k (inside below)]
    · rw [copy_outside, held k below]
      have outside := apart (ptr + k - base)
      omega
  | write =>
    rw [direction] at ran sfs
    rw [moveBuffer, moveBytes_range] at ran
    refine ⟨u', _, _, _, ran, sfs, ⟨segflg.trans has.kernel, space.trans has.nowhere, has.reach, way.trans has.rw,
      offset, resid, iov, fun k below => ?_⟩, fun k below => ?_⟩
    · have outside := apart k (inside below)
      rw [copy_outside _ _ _ (by omega)]
      exact has.buffer k (inside below)
    · by_cases moved : k < count
      · rw [copy_inside _ _ _ _ moved, copy_inside _ _ _ _ moved, has.buffer _ (by omega), Nat.add_assoc]
      · rw [copy_outside _ _ _ (by omega), copy_outside _ _ _ (by omega), held k below]

end Os161.Klib
