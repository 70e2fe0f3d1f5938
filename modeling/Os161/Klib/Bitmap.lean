import Os161.Sfs.Mksfs

namespace Os161.Klib
open Word Outcome Function BitVec
open Sfs (bitAt setBit)

/-- `struct bitmap` with its bytes -/
structure Bytemap where
  nbits : Word32
  v : Nat → Byte

namespace Bytemap

/-- `DIVROUNDUP(nbits, BITS_PER_WORD)` in 32 bits -/
def words (nbits : Word32) : Nat := (nbits + 7).toNat / 8

/-- `bitmap_create`, with memory for both blocks -/
def bitmapCreate (nbits : Word32) : Kernel Bytemap :=
  if nbits.toNat / 8 < words nbits then do
    let ix := words nbits - 1
    let overbits := (nbits - BitVec.ofNat 32 (ix * 8)).toNat
    kassert (nbits.toNat / 8 = ix) "nbits / BITS_PER_WORD == words-1"
    kassert (0 < overbits ∧ overbits < 8) "overbits > 0 && overbits < BITS_PER_WORD"
    return ⟨nbits, (List.range' (ix * 8 + overbits) (8 - overbits)).foldl setBit fun _ => 0⟩
  else return ⟨nbits, fun _ => 0⟩

/-- The loop of `bitmap_alloc` over the bits of a byte, which is not to end without a bit -/
def allocBit (b : Bytemap) (ix : Nat) : (todo offset : Nat) → Kernel (Except Errno Nat × Bytemap)
  | 0, _ => .error (.assertion "0")
  | todo + 1, offset =>
    if bitAt b.v (ix * 8 + offset) = false then do
      kassert (ix * 8 + offset < b.nbits.toNat) "*index < b->nbits"
      return (.ok (ix * 8 + offset), { b with v := setBit b.v (ix * 8 + offset) })
    else allocBit b ix todo (offset + 1)

/-- The loop of `bitmap_alloc` over the bytes -/
def allocWord (b : Bytemap) : (todo ix : Nat) → Kernel (Except Errno Nat × Bytemap)
  | 0, _ => .ok (.error File.eNoSpc, b)
  | todo + 1, ix => if b.v ix ≠ 0xff then allocBit b ix 8 0 else allocWord b todo (ix + 1)

def bitmapAlloc (b : Bytemap) : Kernel (Except Errno Nat × Bytemap) := allocWord b (words b.nbits) 0

def bitmapMark (b : Bytemap) (index : Word32) : Kernel Bytemap := do
  kassert (index < b.nbits) "index < b->nbits"
  kassert (bitAt b.v index.toNat = false) "(b->v[ix] & mask)==0"
  return { b with v := setBit b.v index.toNat }

/-- `b->v[ix] &= ~mask` -/
def clearBit (bytes : Nat → Byte) (bit : Nat) : Nat → Byte :=
  update bytes (bit / 8) (bytes (bit / 8) &&& ~~~(1 <<< (bit % 8) : Byte))

def bitmapUnmark (b : Bytemap) (index : Word32) : Kernel Bytemap := do
  kassert (index < b.nbits) "index < b->nbits"
  kassert (bitAt b.v index.toNat = true) "(b->v[ix] & mask)!=0"
  return { b with v := clearBit b.v index.toNat }

def bitmapIsset (b : Bytemap) (index : Word32) : Bool := bitAt b.v index.toNat

inductive Op where
  | alloc
  | mark (index : Word32)
  | unmark (index : Word32)
  | isset (index : Word32)

inductive Reply where
  | index (result : Except Errno Nat)
  | done
  | bit (answer : Bool)

def perform (b : Bytemap) : Op → Kernel (Reply × Bytemap)
  | .alloc => do
    let (result, b) ← b.bitmapAlloc
    return (.index result, b)
  | .mark index => return (.done, ← b.bitmapMark index)
  | .unmark index => return (.done, ← b.bitmapUnmark index)
  | .isset index => return (.bit (b.bitmapIsset index), b)

/-- Only indices of the map are used; a clear one is marked, and one that is set is unmarked. -/
def Allowed (nbits : Word32) (s : Set Nat) : Op → Prop
  | .alloc => True
  | .mark index => index < nbits ∧ index.toNat ∉ s
  | .unmark index => index < nbits ∧ index.toNat ∈ s
  | .isset index => index < nbits

/-- What the calls do to a set of numbers below `nbits` -/
inductive Effect (nbits : Word32) (s : Set Nat) : Op → Reply → Set Nat → Prop where
  | full (all : ∀ i < nbits.toNat, i ∈ s) : Effect nbits s .alloc (.index (.error File.eNoSpc)) s
  | smallest (inside : i < nbits.toNat) (absent : i ∉ s) (least : ∀ j < i, j ∈ s) :
      Effect nbits s .alloc (.index (.ok i)) (insert i s)
  | mark : Effect nbits s (.mark index) .done (insert index.toNat s)
  | unmark : Effect nbits s (.unmark index) .done (s \ {index.toNat})
  | isset (tells : answer = true ↔ index.toNat ∈ s) : Effect nbits s (.isset index) (.bit answer) s

/-- The allowed calls of this list, in their order, do what they do to the set. -/
def Tracks (b : Bytemap) (s : Set Nat) : List Op → Prop
  | [] => True
  | op :: rest => Allowed b.nbits s op → ∃ reply b' s',
      b.perform op = .ok (reply, b') ∧ Effect b.nbits s op reply s' ∧ Tracks b' s' rest

/-- The indices that are set -/
def members (b : Bytemap) : Set Nat := {i | i < b.nbits.toNat ∧ bitAt b.v i = true}

/-- The bits behind the map are set. -/
def Padded (b : Bytemap) : Prop := ∀ i < words b.nbits * 8, bitAt b.v i = false → i < b.nbits.toNat

theorem words_eq {nbits : Word32} (fits : nbits.toNat + 7 < 2 ^ 32) :
    words nbits = (nbits.toNat + 7) / 8 :=
  congrArg (· / 8) ((toNat_add ..).trans (Nat.mod_eq_of_lt fits))

@[simp] theorem bitAt_clearBit (bytes : Nat → Byte) (bit other : Nat) :
    bitAt (clearBit bytes bit) other = (bitAt bytes other && decide (other ≠ bit)) := by
  have shifted : ∀ k j : Fin 8, (~~~(1 <<< k.val) : Byte).getLsbD j.val = decide (j.val ≠ k.val) := by decide
  unfold bitAt clearBit
  by_cases same : other / 8 = bit / 8
  · have mask := shifted ⟨bit % 8, by omega⟩ ⟨other % 8, by omega⟩
    rw [same, update_self, getLsbD_and, mask]
    congr 2
    rw [eq_iff_iff]
    dsimp only
    omega
  · rw [update_of_ne same]
    have apart : other ≠ bit := fun equal => same (by rw [equal])
    simp [apart]

theorem bitAt_setBits (bits : List Nat) (v : Nat → Byte) (i : Nat) :
    bitAt (bits.foldl setBit v) i = (bitAt v i || decide (i ∈ bits)) := by
  induction bits generalizing v with
  | nil => simp
  | cons bit bits ih => simp [ih, Bool.or_assoc]

theorem allBits_iff (v : Nat → Byte) (ix : Nat) :
    v ix = 0xff ↔ ∀ j < 8, bitAt v (ix * 8 + j) = true := by
  have all : ∀ j : Fin 8, (0xff : Byte).getLsbD j.val = true := by decide
  have place {j : Nat} (low : j < 8) : bitAt v (ix * 8 + j) = (v ix).getLsbD j := by
    rw [bitAt, show (ix * 8 + j) / 8 = ix by omega, show (ix * 8 + j) % 8 = j by omega]
  constructor
  · intro full j low
    rw [place low, full, all ⟨j, low⟩]
  · intro set
    apply eq_of_getLsbD_eq
    intro j low
    rw [← place low, set j low, all ⟨j, low⟩]

/-- The bit is clear, and no earlier one is. -/
def First (b : Bytemap) (i : Nat) : Prop := bitAt b.v i = false ∧ ∀ j < i, bitAt b.v j = true

variable {b : Bytemap} {ix todo offset : Nat}

theorem allocBit_first (sum : offset + todo = 8) (prev : ∀ j < ix * 8 + offset, bitAt b.v j = true)
    (some : ¬ ∀ j < 8, bitAt b.v (ix * 8 + j) = true)
    (inside : ∀ i < (ix + 1) * 8, bitAt b.v i = false → i < b.nbits.toNat) :
    ∃ i, First b i ∧ i < b.nbits.toNat ∧
      allocBit b ix todo offset = .ok (.ok i, { b with v := setBit b.v i }) := by
  induction todo generalizing offset with
  | zero =>
    refine absurd (fun j low => prev _ ?_) some
    omega
  | succ todo ih =>
    rw [allocBit]
    by_cases clear : bitAt b.v (ix * 8 + offset) = false
    · have below := inside _ (by omega) clear
      refine ⟨_, ⟨clear, prev⟩, below, ?_⟩
      rw [if_pos clear, kassert_ok.mpr below, ok_bind, pure_ok]
    · rw [if_neg clear]
      refine ih (by omega) ?_
      intro j low
      rcases Nat.lt_succ_iff_lt_or_eq.mp low with lower | rfl
      · exact prev j lower
      · exact eq_true_of_ne_false clear

theorem allocWord_first (prev : ∀ j < ix * 8, bitAt b.v j = true)
    (inside : ∀ i < (ix + todo) * 8, bitAt b.v i = false → i < b.nbits.toNat) :
    (allocWord b todo ix = .ok (.error File.eNoSpc, b) ∧ ∀ j < (ix + todo) * 8, bitAt b.v j = true) ∨
      ∃ i, First b i ∧ i < b.nbits.toNat ∧
        allocWord b todo ix = .ok (.ok i, { b with v := setBit b.v i }) := by
  induction todo generalizing ix with
  | zero => exact .inl ⟨rfl, prev⟩
  | succ todo ih =>
    rw [allocWord]
    by_cases full : b.v ix = 0xff
    · rw [show ix + (todo + 1) = ix + 1 + todo by omega] at inside ⊢
      rw [if_neg (not_not.mpr full)]
      refine ih ?_ inside
      intro j low
      by_cases earlier : j < ix * 8
      · exact prev j earlier
      · have set := (allBits_iff b.v ix).mp full (j - ix * 8) (by omega)
        rwa [Nat.add_sub_cancel' (Nat.le_of_not_lt earlier)] at set
    · rw [if_pos full]
      rw [allBits_iff] at full
      exact .inr (allocBit_first rfl prev full fun i low => inside i (by omega))

theorem members_setBit (below : i < b.nbits.toNat) :
    members { b with v := setBit b.v i } = insert i b.members := by
  ext j
  by_cases same : j = i
  · simp [members, same, below]
  · simp [members, same]

theorem Padded.tracks (fits : b.nbits.toNat + 7 < 2 ^ 32) (padded : b.Padded) (ops : List Op) :
    b.Tracks b.members ops := by
  induction ops generalizing b with
  | nil => trivial
  | cons op ops ih =>
    have size := words_eq fits
    have within {i : Nat} (below : i < b.nbits.toNat) : i < words b.nbits * 8 := by omega
    have marked {i : Nat} (below : i < b.nbits.toNat) :
        Tracks { b with v := setBit b.v i } (insert i b.members) ops := by
      rw [← members_setBit below]
      refine ih fits fun j low clear => padded j low ?_
      simp_all
    intro allowed
    cases op with
    | alloc =>
      rcases allocWord_first (show ∀ j < 0 * 8, bitAt b.v j = true by omega) (by rwa [Nat.zero_add]) with
        ⟨full, all⟩ | ⟨i, ⟨clear, least⟩, below, found⟩
      · refine ⟨_, b, _, by rw [perform, bitmapAlloc, full]; rfl, .full fun i below => ?_, ih fits padded⟩
        exact ⟨below, all i (by simpa using within below)⟩
      · refine ⟨_, _, _, by rw [perform, bitmapAlloc, found]; rfl, .smallest below ?_ ?_, marked below⟩
        · simp [members, clear]
        · exact fun j lower => ⟨lower.trans below, least j lower⟩
    | mark index =>
      have clear : bitAt b.v index.toNat = false := by
        by_contra set
        exact allowed.2 ⟨allowed.1, eq_true_of_ne_false set⟩
      refine ⟨.done, _, _, ?_, .mark, marked allowed.1⟩
      rw [perform, bitmapMark, kassert_ok.mpr allowed.1, kassert_ok.mpr clear]
      rfl
    | unmark index =>
      refine ⟨.done, { b with v := clearBit b.v index.toNat }, b.members \ {index.toNat}, ?_, .unmark, ?_⟩
      · rw [perform, bitmapUnmark, kassert_ok.mpr allowed.1, kassert_ok.mpr allowed.2.2]
        rfl
      · have left : members { b with v := clearBit b.v index.toNat } = b.members \ {index.toNat} := by
          ext j
          simp [members]
          tauto
        rw [← left]
        refine ih fits fun j low clear => ?_
        by_cases same : j = index.toNat
        · rw [same]
          exact allowed.1
        · exact padded j low (by simpa [same] using clear)
    | isset index =>
      exact ⟨_, b, _, rfl, .isset (and_iff_right allowed).symm, ih fits padded⟩

theorem bitmapCreate_padded {nbits : Word32} (fits : nbits.toNat + 7 < 2 ^ 32) :
    ∃ v, bitmapCreate nbits = .ok ⟨nbits, v⟩ ∧ Padded ⟨nbits, v⟩ ∧ members ⟨nbits, v⟩ = ∅ := by
  have size := words_eq fits
  have zero (i : Nat) : bitAt (fun _ => 0#8) i = false := getLsbD_zero
  unfold bitmapCreate
  by_cases spare : nbits.toNat / 8 < words nbits
  · obtain ⟨ix, same⟩ : ∃ ix, words nbits - 1 = ix := ⟨_, rfl⟩
    have bits : (nbits - BitVec.ofNat 32 (ix * 8)).toNat = nbits.toNat - ix * 8 := by
      rw [toNat_sub_of_le] <;> simp [le_def] <;> omega
    rw [if_pos spare, same]
    dsimp only
    rw [kassert_ok.mpr (by omega), kassert_ok.mpr (by omega)]
    refine ⟨_, rfl, fun i low clear => ?_, Set.eq_empty_of_forall_notMem ?_⟩
    · simp [bitAt_setBits] at clear
      dsimp only at low ⊢
      omega
    · rintro i ⟨below, set⟩
      simp [bitAt_setBits, zero] at set
      dsimp only at below
      omega
  · rw [if_neg spare]
    refine ⟨_, rfl, fun i low _ => ?_, Set.eq_empty_of_forall_notMem ?_⟩
    · dsimp only at low ⊢
      omega
    · rintro i ⟨_, set⟩
      cases (zero i).symm.trans set

/-- A map behaves like a set exactly when its size has no carry. -/
theorem bitmap_refines_set_iff (nbits : Word32) :
    (∃ b, bitmapCreate nbits = .ok b ∧ ∀ ops, b.Tracks ∅ ops) ↔ nbits.toNat + 7 < 2 ^ 32 := by
  constructor
  · rintro ⟨b, created, tracks⟩
    by_contra carry
    have none : words nbits = 0 := by
      have sum : (nbits + 7).toNat = (nbits.toNat + 7) % 2 ^ 32 := toNat_add ..
      rw [words]
      omega
    rw [bitmapCreate, none] at created
    cases created
    obtain ⟨_, _, _, full, effect, _⟩ := tracks [.alloc] trivial
    rw [perform, bitmapAlloc, none] at full
    cases full
    cases effect with
    | full all => exact all 0 (by dsimp only; omega)
  · intro fits
    obtain ⟨v, created, padded, empty⟩ := bitmapCreate_padded fits
    refine ⟨_, created, fun ops => ?_⟩
    rw [← empty]
    exact padded.tracks fits ops

/-- The largest map has no bytes, and its first allocation fails. -/
theorem largest_map_full : ∃ b, bitmapCreate 0xffffffff = .ok b ∧
    b.bitmapAlloc = .ok (.error File.eNoSpc, b) :=
  ⟨_, rfl, rfl⟩

end Bytemap

end Os161.Klib
