import Mathlib.Data.List.GetD
import Mathlib.Data.List.TakeWhile
import Os161.Lib.SlotMap
import Os161.Syscall.Execv
import Os161.Sfs.FileIo

namespace Os161.Sfs
open Word Outcome Bytes SlotMap List SfsFile

/-- A file name: a string without its terminator -/
abbrev Name := { text : List Byte // 0 ∉ text }

/-- `struct sfs_dir`, with `SFS_NAMELEN` = 60 bytes for the name -/
structure Dirent where
  ino : Word32
  name : Nat → Byte

def Dirent.decode (bytes : Nat → Byte) : Dirent where
  ino := Block.word bytes 0
  name i := if i < 60 then bytes (4 + i) else 0

def Dirent.encode (d : Dirent) : Nat → Byte :=
  fun i => if i < 4 then wordByte d.ino i else d.name (i - 4)

/-- The bytes of the name in an entry. The last one is taken for a terminator. -/
def Dirent.string (d : Dirent) : List Byte := ((List.range 59).map d.name).takeWhile (· ≠ 0)

def Dirent.text (d : Dirent) : Name :=
  ⟨d.string, fun member => by simpa using mem_takeWhile_imp member⟩

/-- What an entry says; `SFS_NOINO` is in a free slot. -/
def Dirent.entry (d : Dirent) : Option (Name × Word32) := if d.ino = 0 then none else some (d.text, d.ino)

/-- The cleared entry with a name copied into it -/
def Dirent.named (ino : Word32) (name : Name) : Dirent := ⟨ino, fun i => name.1.getD i 0⟩

def Dirent.vacant : Dirent := ⟨0, fun _ => 0⟩

def direntUio (slot : Nat) (rw : Vm.UioRw) (buffer : Nat → Byte) : Uio where
  offset := 64 * slot
  resid := 64
  rw := rw
  buffer := buffer
  position := 0
  reach := none

abbrev shortEntryPanic (ino : Nat) : Panic := .message s!"sfs: readdir: Short entry (inode {ino})\n"

def sfsReaddir (f : SfsFile) (slot : Nat) : Kernel (Except Errno Dirent × SfsFile) := do
  let (result, ku, f) ← sfsIo f (direntUio slot .read fun _ => 0)
  if result ≠ 0 then return (.error result, f)
  else if 0 < ku.resid then .error (shortEntryPanic f.sv.ino.toNat)
  else return (.ok (.decode ku.buffer), f)

abbrev shortWritePanic (ino : Nat) : Panic := .message s!"sfs: writedir: Short write (ino {ino})\n"

def sfsWritedir (f : SfsFile) (sd : Dirent) (slot : Nat) : Kernel (Errno × SfsFile) := do
  let (result, ku, f) ← sfsIo f (direntUio slot .write sd.encode)
  if result ≠ 0 then return (result, f)
  else if 0 < ku.resid then .error (shortWritePanic f.sv.ino.toNat)
  else return (0, f)

abbrev invalidSizePanic (ino size : Nat) : Panic :=
  .message s!"sfs: directory {ino}: Invalid size {size}\n"

def sfsDirNentries (f : SfsFile) : Kernel Nat := do
  kassert (f.sv.inode.type = typeDir) "sv->sv_i.sfi_type == SFS_TYPE_DIR"
  let size := f.sv.inode.size.toNat
  if size % 64 ≠ 0 then .error (invalidSizePanic f.sv.ino.toNat size) else return size / 64

/-- What `sfs_dir_findname` has found so far -/
structure Findname where
  found : Bool
  slot : Nat
  ino : Word32
  emptyslot : Option Nat

def Findname.start : Findname := ⟨false, 0, 0, none⟩

/-- The loop of `sfs_dir_findname` at one entry -/
def findEntry (name : Name) (s : Findname) (i : Nat) (tsd : Dirent) : Kernel Findname := do
  if tsd.ino = 0 then return { s with emptyslot := some i }
  else if tsd.text = name then
    kassert (s.found = false) "found==0"
    return { s with found := true, slot := i, ino := tsd.ino }
  else return s

def findLoop (name : Name) : (remaining i : Nat) → SfsFile → Findname →
    Kernel (Except Errno Findname × SfsFile)
  | 0, _, f, s => return (.ok s, f)
  | remaining + 1, i, f, s => do
    match ← sfsReaddir f i with
    | (.error result, f) => return (.error result, f)
    | (.ok tsd, f) =>
      let s ← findEntry name s i tsd
      findLoop name remaining (i + 1) f s

def sfsDirFindname (f : SfsFile) (name : Name) : Kernel (Errno × Findname × SfsFile) := do
  let nentries ← sfsDirNentries f
  match ← findLoop name nentries 0 f .start with
  | (.error result, f) => return (result, .start, f)
  | (.ok s, f) => return (if s.found then 0 else File.eNoEnt, s, f)

/-- An entry goes to a slot that was found empty, or to the end. -/
def linkSlot (f : SfsFile) : Option Nat → Kernel Nat
  | some emptyslot => .ok emptyslot
  | none => sfsDirNentries f

/-- `sfs_dir_link` with the slot that it hands back -/
def sfsDirLink (f : SfsFile) (name : Name) (ino : Word32) : Kernel (Errno × Nat × SfsFile) := do
  let (result, s, f) ← sfsDirFindname f name
  if result ≠ 0 ∧ result ≠ File.eNoEnt then return (result, 0, f)
  else if result = 0 then return (File.eExist, 0, f)
  else if name.1.length + 1 > 60 then return (Syscall.eNameTooLong, 0, f)
  else
    let slot ← linkSlot f s.emptyslot
    let (result, f) ← sfsWritedir f (.named ino name) slot
    return (result, slot, f)

def sfsDirUnlink (f : SfsFile) (slot : Nat) : Kernel (Errno × SfsFile) := sfsWritedir f .vacant slot

/-- The entry in a slot of a directory file -/
def SfsFile.dirent (f : SfsFile) (slot : Nat) : Dirent := .decode fun i => f.content (64 * slot + i)

/-- The slots of a directory -/
def SfsFile.listing (f : SfsFile) : Table Name Word32 :=
  (List.range (f.sv.inode.size.toNat / 64)).map fun slot => (f.dirent slot).entry

/-- A directory file holds whole entries without holes. -/
structure SfsFile.DirFile (f : SfsFile) : Prop where
  sound : f.Sound
  type : f.sv.inode.type = typeDir
  whole : f.sv.inode.size.toNat % 64 = 0
  small : f.sv.inode.size.toNat ≤ 143 * 512
  mapped : ∀ k, 512 * k < f.sv.inode.size.toNat → f.dataBlock k ≠ 0

section

theorem Dirent.text_congr {d d' : Dirent} (same : ∀ i < 59, d'.name i = d.name i) : d'.text = d.text := by
  have names : (List.range 59).map d'.name = (List.range 59).map d.name :=
    map_congr_left fun i mem => same i (mem_range.mp mem)
  refine Subtype.ext (show d'.string = d.string from ?_)
  rw [Dirent.string, Dirent.string, names]

theorem Dirent.text_named (ino : Word32) {name : Name} (short : name.1.length ≤ 59) :
    (Dirent.named ino name).text = name := by
  refine Subtype.ext (show (Dirent.named ino name).string = name.1 from ?_)
  have padded : (List.range 59).map (Dirent.named ino name).name =
      name.1 ++ List.replicate (59 - name.1.length) 0 := by
    refine ext_getElem (by simp; omega) ?_
    intro i first second
    rw [getElem_map, getElem_range, getElem_append]
    split
    · rename_i inside
      exact (getD_eq_getElem _ _ inside)
    · rw [getElem_replicate]
      exact getD_eq_default _ _ (by omega)
  have nonzero : ∀ byte ∈ name.1, decide (byte ≠ 0) = true := by
    intro byte mem
    refine decide_eq_true ?_
    rintro rfl
    exact name.2 mem
  rw [Dirent.string, padded, takeWhile_append_of_pos nonzero]
  simp

theorem Dirent.entry_named {ino : Word32} (present : ino ≠ 0) {name : Name} (short : name.1.length ≤ 59) :
    (Dirent.named ino name).entry = some (name, ino) := by
  rw [Dirent.entry, if_neg (show (Dirent.named ino name).ino ≠ 0 from present), Dirent.text_named ino short]
  rfl

theorem Dirent.decode_congr {bytes bytes' : Nat → Byte} (same : ∀ i < 64, bytes' i = bytes i) :
    Dirent.decode bytes' = Dirent.decode bytes := by
  unfold Dirent.decode
  congr 1
  · simp only [Block.word]
    rw [same _ (by decide), same _ (by decide), same _ (by decide), same _ (by decide)]
  · funext i
    split
    · exact same _ (by omega)
    · rfl

theorem Dirent.entry_decode (d : Dirent) : (Dirent.decode d.encode).entry = d.entry := by
  have ino : (Dirent.decode d.encode).ino = d.ino := wordByte_join d.ino
  have text : (Dirent.decode d.encode).text = d.text := by
    refine Dirent.text_congr fun i small => ?_
    change (if i < 60 then d.encode (4 + i) else 0) = _
    rw [if_pos (by omega), Dirent.encode, if_neg (by omega), Nat.add_sub_cancel_left]
  rw [Dirent.entry, Dirent.entry, ino, text]

end

section

variable {f : SfsFile}

theorem SfsFile.listing_length (f : SfsFile) : f.listing.length = f.sv.inode.size.toNat / 64 := by
  rw [listing, length_map, length_range]

theorem SfsFile.listing_getElem? (f : SfsFile) (slot : Nat) :
    f.listing[slot]? =
      if slot < f.sv.inode.size.toNat / 64 then some (f.dirent slot).entry else none := by
  rw [listing, List.getElem?_map]
  split
  · rename_i inside
    rw [List.getElem?_range inside]
    rfl
  · rw [List.getElem?_eq_none (by simp; omega)]
    rfl

theorem SfsFile.listing_congr {f' : SfsFile} (content : f'.content = f.content)
    (size : f'.sv.inode.size = f.sv.inode.size) : f'.listing = f.listing := by
  simp only [listing, dirent, content, size]

theorem SfsFile.DirFile.nentries (dir : f.DirFile) :
    sfsDirNentries f = .ok (f.sv.inode.size.toNat / 64) := by
  simp only [sfsDirNentries, kassert_ok.mpr dir.type, ok_bind, dir.whole, ne_eq, not_true, if_false,
    pure_ok]

theorem SfsFile.DirFile.readdir (dir : f.DirFile) (inside : slot < f.sv.inode.size.toNat / 64) :
    sfsReaddir f slot = .ok (.ok (f.dirent slot), f) := by
  have read : (direntUio slot .read fun _ => 0).rw = .read := rfl
  obtain ⟨res, moved, done, _, complete, good⟩ := sfsIo_read dir.sound read
  obtain rfl := good rfl dir.small
  have all : moved = min 64 (f.sv.inode.size.toNat - 64 * slot) := complete rfl
  obtain rfl : moved = 64 := by omega
  have bytes : Dirent.decode ((direntUio slot .read fun _ => 0).filled f.content 64).buffer = f.dirent slot := by
    refine Dirent.decode_congr fun i small => ?_
    exact (congrArg _ (Nat.zero_add i).symm).trans (copy_inside f.content (64 * slot) (fun _ => 0) 0 small)
  have rest : ((direntUio slot .read fun _ => 0).filled f.content 64).resid = 0 := rfl
  simp only [sfsReaddir, done, ok_bind, ne_eq, not_true, if_false, rest, Nat.lt_irrefl, bytes, pure_ok]

/-- What the search has found in the slots before an index -/
structure Found (f : SfsFile) (name : Name) (i : Nat) (s : Findname) : Prop where
  found : s.found = true → s.slot < i ∧ f.listing[s.slot]? = some (some (name, s.ino))
  absent : s.found = false → ∀ slot < i, ∀ ino, f.listing[slot]? ≠ some (some (name, ino))
  empty : ∀ slot, s.emptyslot = some slot → f.listing[slot]? = some none
  taken : s.emptyslot = none → ∀ slot < i, f.listing[slot]? ≠ some none

theorem Found.start (f : SfsFile) (name : Name) : Found f name 0 .start where
  found impossible := by cases impossible
  absent _ slot small := absurd small (Nat.not_lt_zero slot)
  empty _ impossible := by cases impossible
  taken _ slot small := absurd small (Nat.not_lt_zero slot)

theorem Found.step (found : Found f name i s) (unique : Unique f.listing)
    (inside : i < f.sv.inode.size.toNat / 64) :
    ∃ s', findEntry name s i (f.dirent i) = .ok s' ∧ Found f name (i + 1) s' := by
  have here : f.listing[i]? = some (f.dirent i).entry := by rw [f.listing_getElem?, if_pos inside]
  unfold findEntry
  by_cases free : (f.dirent i).ino = 0
  · have entry : f.listing[i]? = some none := by rw [here, Dirent.entry, if_pos free]
    rw [if_pos free]
    refine ⟨_, rfl, ?_, ?_, ?_, ?_⟩
    · intro prev
      obtain ⟨below, bound⟩ := found.found prev
      exact ⟨Nat.lt_succ_of_lt below, bound⟩
    · intro none slot below ino bound
      rcases Nat.lt_succ_iff_lt_or_eq.mp below with prior | rfl
      · exact found.absent none slot prior ino bound
      · rw [entry] at bound
        cases bound
    · intro slot same
      obtain rfl := Option.some.inj same
      exact entry
    · intro impossible
      cases impossible
  · have entry : f.listing[i]? = some (some ((f.dirent i).text, (f.dirent i).ino)) := by
      rw [here, Dirent.entry, if_neg free]
    rw [if_neg free]
    have taken : s.emptyslot = none → ∀ slot < i + 1, f.listing[slot]? ≠ some none := by
      intro none slot below
      rcases Nat.lt_succ_iff_lt_or_eq.mp below with prior | rfl
      · exact found.taken none slot prior
      · rw [entry]
        exact nofun
    by_cases same : (f.dirent i).text = name
    · rw [same] at entry
      have first : s.found = false := by
        by_contra prev
        obtain ⟨below, bound⟩ := found.found (by simpa using prev)
        exact Nat.ne_of_lt below (unique bound entry)
      rw [if_pos same, kassert_ok.mpr first]
      refine ⟨_, rfl, fun _ => ⟨Nat.lt_succ_self i, entry⟩, ?_, found.empty, taken⟩
      intro impossible
      cases impossible
    · rw [if_neg same]
      refine ⟨_, rfl, ?_, ?_, found.empty, taken⟩
      · intro prev
        obtain ⟨below, bound⟩ := found.found prev
        exact ⟨Nat.lt_succ_of_lt below, bound⟩
      · intro none slot below ino bound
        rcases Nat.lt_succ_iff_lt_or_eq.mp below with prior | rfl
        · exact found.absent none slot prior ino bound
        · rw [entry] at bound
          cases bound
          exact same rfl

theorem findLoop_found (dir : f.DirFile) (unique : Unique f.listing)
    (all : i + todo = f.sv.inode.size.toNat / 64) (found : Found f name i s) :
    ∃ s', findLoop name todo i f s = .ok (.ok s', f) ∧
      Found f name (f.sv.inode.size.toNat / 64) s' := by
  induction todo generalizing i s with
  | zero =>
    exact ⟨s, rfl, all ▸ found⟩
  | succ todo ih =>
    obtain ⟨s', step, later⟩ := found.step unique (by omega)
    obtain ⟨s'', loop, done⟩ := ih (by omega) later
    refine ⟨s'', ?_, done⟩
    rw [findLoop, dir.readdir (by omega)]
    simp only [step, ok_bind, loop]

theorem SfsFile.DirFile.findname (dir : f.DirFile) (unique : Unique f.listing) (name : Name) :
    (∃ s, sfsDirFindname f name = .ok (0, s, f) ∧ f.listing[s.slot]? = some (some (name, s.ino))) ∨
      ∃ s, sfsDirFindname f name = .ok (File.eNoEnt, s, f) ∧ lookup f.listing name = none ∧
        (∀ slot, s.emptyslot = some slot → f.listing[slot]? = some none) ∧
        (s.emptyslot = none → none ∉ f.listing) := by
  obtain ⟨s, loop, found⟩ := findLoop_found dir unique (Nat.zero_add _) (.start f name)
  have searched : sfsDirFindname f name = .ok (if s.found then 0 else File.eNoEnt, s, f) := by
    simp only [sfsDirFindname, dir.nentries, ok_bind, loop, pure_ok]
  cases hit : s.found with
  | true =>
    rw [hit] at searched
    exact .inl ⟨s, searched, (found.found hit).2⟩
  | false =>
    rw [hit] at searched
    have inside {slot : Nat} {entry : Option (Name × Word32)} (here : f.listing[slot]? = some entry) :
        slot < f.sv.inode.size.toNat / 64 := by
      rw [← f.listing_length]
      exact (List.getElem?_eq_some_iff.mp here).1
    refine .inr ⟨s, searched, ?_, found.empty, ?_⟩
    · rw [lookup_eq_none]
      intro ino mem
      obtain ⟨slot, bound⟩ := mem_iff_getElem?.mp mem
      exact found.absent hit slot (inside bound) ino bound
    · intro none mem
      obtain ⟨slot, vacant⟩ := mem_iff_getElem?.mp mem
      exact found.taken none slot (inside vacant) vacant

end

section

variable {f : SfsFile}

theorem sfsIo_chunk {u : Uio} (sound : f.Sound) (write : u.rw = .write) (some : 0 < u.resid)
    (inside : u.offset % 512 + u.resid < 512 ∨ u.offset % 512 + u.resid = 512 ∧ u.offset % 512 ≠ 0) :
    ∃ res u' f', sfsIo f u = .ok (res, u', f'.adjust u'.offset) ∧
      ChunkEnd f u u.resid res u' f' := by
  obtain ⟨res, u', f', chunk, ended⟩ := sfsPartialio_write sound write rfl
    (show u.offset % 512 + u.resid ≤ 512 by omega) (Nat.le_refl _)
  have transfer : ioTransfer f u = .ok (res, u', f') := by
    by_cases aligned : u.offset % 512 = 0
    · rw [aligned] at chunk
      simp only [ioTransfer, if_pos aligned, ioBlocks, if_neg (Nat.ne_of_gt some), kassert_ok.mpr aligned,
        ok_bind, Nat.div_eq_of_lt (show u.resid < 512 by omega), ioWhole, ne_eq, not_true, if_false,
        kassert_ok.mpr (show u.resid < 512 by omega), if_pos some, chunk]
    · have whole : min (512 - u.offset % 512) u.resid = u.resid := by omega
      simp only [ioTransfer, if_neg aligned, whole, chunk, ok_bind]
      cases ended with
      | failed problem _ _ => rw [if_pos problem, pure_ok]
      | done wrote =>
        have rest : (u.advance u.resid).resid = 0 := by rw [Uio.advance_resid, Nat.sub_self]
        simp only [ne_eq, not_true, if_false, ioBlocks, rest, if_true, pure_ok]
  refine ⟨res, u', f', ?_, ended⟩
  simp only [sfsIo, write, transfer, ok_bind, pure_ok]

theorem SfsFile.adjust_inside (inside : offset ≤ f.sv.inode.size.toNat) :
    f.adjust offset = f := if_neg (by omega)

theorem SfsFile.listing_write {f' : SfsFile} (sd : Dirent) (whole : f.sv.inode.size.toNat % 64 = 0)
    (near : 64 * slot ≤ f.sv.inode.size.toNat)
    (content : f'.content = copy sd.encode 0 f.content (64 * slot) 64)
    (size : f'.sv.inode.size.toNat = max f.sv.inode.size.toNat (64 * slot + 64)) :
    f'.listing = place f.listing slot sd.entry := by
  refine ext_getElem? fun j => ?_
  rw [place_getElem? _ (by rw [f.listing_length]; omega), f'.listing_getElem?, f.listing_getElem?]
  by_cases here : j = slot
  · subst here
    rw [if_pos (by omega), if_pos rfl, ← sd.entry_decode]
    refine congrArg (fun d => Option.some (Dirent.entry d)) (Dirent.decode_congr fun i small => ?_)
    rw [content, copy_inside _ _ _ _ small, Nat.zero_add]
  · have entry : f'.dirent j = f.dirent j := by
      refine Dirent.decode_congr fun i small => ?_
      rw [content, copy_outside _ _ _ (by omega)]
    rw [if_neg here, entry]
    by_cases inside : j < f.sv.inode.size.toNat / 64
    · rw [if_pos inside, if_pos (by omega)]
    · rw [if_neg inside, if_neg (by omega)]

/-- An entry of a directory is written as a whole or not at all, and only a new one can be refused. -/
inductive WritedirEnd (f : SfsFile) (sd : Dirent) (slot : Nat) : Errno → SfsFile → Prop where
  | done (evolves : f.Evolves f') (dir : f'.DirFile) (listing : f'.listing = place f.listing slot sd.entry)
      (places : ∀ slot, f.blockAt slot ≠ 0 → f'.blockAt slot = f.blockAt slot) : WritedirEnd f sd slot 0 f'
  | refused (evolves : f.Evolves f') (dir : f'.DirFile) (listing : f'.listing = f.listing)
      (last : 64 * slot = f.sv.inode.size.toNat)
      (cause : Refused f (f.sv.inode.size.toNat / 512) result f') : WritedirEnd f sd slot result f'

theorem SfsFile.DirFile.writedir (dir : f.DirFile) (near : 64 * slot ≤ f.sv.inode.size.toNat) (sd : Dirent) :
    ∃ res f', sfsWritedir f sd slot = .ok (res, f') ∧
      WritedirEnd f sd slot res f' := by
  have whole := dir.whole
  have small := dir.small
  have offset : (direntUio slot .write sd.encode).offset = 64 * slot := rfl
  obtain ⟨res, u', g, finished, ended⟩ := sfsIo_chunk dir.sound
    (show (direntUio slot .write sd.encode).rw = .write from rfl) (show 0 < 64 by decide)
    (show 64 * slot % 512 + 64 < 512 ∨ 64 * slot % 512 + 64 = 512 ∧ 64 * slot % 512 ≠ 0 by omega)
  have index : (BitVec.ofNat 32 (64 * slot / 512)).toNat = 64 * slot / 512 := fileblock_toNat (by omega)
  cases ended with
  | failed problem wrote cause =>
    have cause := cause rfl
    rw [offset, index] at cause
    rw [adjust_inside (by rw [wrote.size]; exact near)] at finished
    have last : 64 * slot = f.sv.inode.size.toNat := by
      by_contra inside
      exact dir.mapped (64 * slot / 512) (by omega) cause.1
    have content := wrote.nothing rfl
    simp only [sfsWritedir, finished, ok_bind, if_pos problem]
    refine ⟨_, _, rfl, .refused wrote.evolves ⟨wrote.evolves.sound, ?_, ?_, ?_, ?_⟩
      (listing_congr content wrote.size) last (last ▸ cause)⟩
    · rw [wrote.evolves.vnode.type, dir.type]
    · rw [wrote.size, whole]
    · rw [wrote.size]
      exact small
    · intro k below
      rw [wrote.size] at below
      have taken := dir.mapped k below
      exact fun hole => taken ((wrote.places (.data k) taken).symm.trans hole)
  | done wrote =>
    have moved : (direntUio slot .write sd.encode).resid = 64 := rfl
    rw [moved] at wrote finished
    have near41 : (direntUio slot .write sd.encode).offset + 64 ≤ 2 ^ 41 := by
      omega
    have taken := wrote.mapped near41 (64 * slot) (Nat.le_refl _) (Nat.lt_add_of_pos_right (by decide))
    have low : 64 * slot / 512 < 143 := by
      by_contra far
      exact taken (dataBlock_beyond g (by omega))
    have content := wrote.content near41
    have size : (g.adjust (64 * slot + 64)).sv.inode.size.toNat =
        max f.sv.inode.size.toNat (64 * slot + 64) := by
      rw [adjust_size, wrote.size]
      split
      · rw [BitVec.toNat_ofNat]
        omega
      · omega
    have evolves := wrote.evolves.trans (wrote.evolves.sound.adjust_evolves (64 * slot + 64))
    have rest : ((direntUio slot .write sd.encode).advance 64).resid = 0 := rfl
    rw [Uio.advance_offset, offset] at finished
    simp only [sfsWritedir, finished, ok_bind, rest]
    refine ⟨_, _, rfl, .done evolves ?_ (listing_write sd whole near ?_ size) ?_⟩
    · refine ⟨evolves.sound, ?_, ?_, ?_, ?_⟩
      · rw [evolves.vnode.type, dir.type]
      · omega
      · omega
      · intro k below
        have same := g.adjust_blockAt (64 * slot + 64) (.data k)
        simp only [blockAt] at same
        rw [same]
        by_cases old : 512 * k < f.sv.inode.size.toNat
        · have prev := dir.mapped k old
          exact fun hole => prev ((wrote.places (.data k) prev).symm.trans hole)
        · have written := wrote.mapped near41 (512 * k) (by rw [offset]; omega) (by rw [offset]; omega)
          rwa [Nat.mul_div_cancel_left k (by decide)] at written
    · rw [adjust_content, content]
      rfl
    · intro slot taken
      rw [adjust_blockAt, wrote.places slot taken]

/-- How `sfs_dir_link` ends -/
inductive DirLinkEnd (f : SfsFile) (name : Name) (ino : Word32) : Errno → Nat → SfsFile → Prop where
  | bound (present : lookup f.listing name ≠ none) : DirLinkEnd f name ino File.eExist slot f
  | long (absent : lookup f.listing name = none) (long : 59 < name.1.length) :
      DirLinkEnd f name ino Syscall.eNameTooLong slot f
  | refused {f' : SfsFile} {slot : Nat} {result : Errno} (absent : lookup f.listing name = none)
      (short : name.1.length ≤ 59) (evolves : f.Evolves f') (dir : f'.DirFile)
      (listing : f'.listing = f.listing) (crowded : none ∉ f.listing)
      (cause : Refused f (f.sv.inode.size.toNat / 512) result f') : DirLinkEnd f name ino result slot f'
  | done (absent : lookup f.listing name = none) (short : name.1.length ≤ 59) (evolves : f.Evolves f')
      (dir : f'.DirFile) (near : slot ≤ f.listing.length)
      (vacant : ∀ binding, f.listing[slot]? ≠ some (some binding))
      (listing : f'.listing = place f.listing slot (some (name, ino)))
      (places : ∀ slot, f.blockAt slot ≠ 0 → f'.blockAt slot = f.blockAt slot) :
      DirLinkEnd f name ino 0 slot f'

theorem SfsFile.DirFile.dirLink (dir : f.DirFile) (unique : Unique f.listing) (name : Name) {ino : Word32}
    (present : ino ≠ 0) : ∃ res slot f', sfsDirLink f name ino = .ok (res, slot, f') ∧
      DirLinkEnd f name ino res slot f' := by
  unfold sfsDirLink
  rcases dir.findname unique name with ⟨s, searched, bound⟩ | ⟨s, searched, gone, empty, crowded⟩
  · simp only [searched, ok_bind, ne_eq, if_true, pure_ok]
    refine ⟨_, _, _, rfl, .bound ?_⟩
    rw [unique.lookup_getElem? bound]
    exact nofun
  simp only [searched, ok_bind, ne_eq, pure_ok]
  by_cases long : name.1.length + 1 > 60
  · rw [if_pos long]
    exact ⟨_, _, _, rfl, .long gone (by omega)⟩
  rw [if_neg long]
  obtain ⟨slot, chosen, near, vacant, full⟩ : ∃ slot, linkSlot f s.emptyslot = .ok slot ∧
      slot ≤ f.listing.length ∧ (∀ binding, f.listing[slot]? ≠ some (some binding)) ∧
      (slot = f.listing.length → none ∉ f.listing) := by
    cases found : s.emptyslot with
    | some slot =>
      have free := empty slot found
      have inside := (List.getElem?_eq_some_iff.mp free).1
      refine ⟨slot, rfl, Nat.le_of_lt inside, ?_, fun last => absurd last (Nat.ne_of_lt inside)⟩
      intro binding bound
      rw [free] at bound
      cases bound
    | none =>
      refine ⟨f.listing.length, ?_, Nat.le_refl _, ?_, fun _ => crowded found⟩
      · rw [f.listing_length]
        exact dir.nentries
      · intro binding bound
        rw [List.getElem?_eq_none (Nat.le_refl _)] at bound
        cases bound
  have offset : 64 * slot ≤ f.sv.inode.size.toNat := by
    rw [f.listing_length] at near
    omega
  obtain ⟨res, f', written, ended⟩ := dir.writedir offset (.named ino name)
  simp only [chosen, ok_bind, written]
  cases ended with
  | done evolves after listing places =>
    rw [Dirent.entry_named present (by omega)] at listing
    exact ⟨_, _, _, rfl, .done gone (by omega) evolves after near vacant listing places⟩
  | refused evolves after listing last cause =>
    have last : slot = f.listing.length := by
      rw [f.listing_length]
      omega
    exact ⟨_, _, _, rfl, .refused gone (by omega) evolves after listing (full last) cause⟩

theorem SfsFile.DirFile.dirUnlink (dir : f.DirFile) (inside : slot < f.listing.length) :
    ∃ f', sfsDirUnlink f slot = .ok (0, f') ∧ f.Evolves f' ∧ f'.DirFile ∧
      f'.listing = place f.listing slot none := by
  rw [f.listing_length] at inside
  obtain ⟨res, f', written, ended⟩ := dir.writedir (show 64 * slot ≤ _ by omega) .vacant
  cases ended with
  | done evolves after listing _ => exact ⟨f', written, evolves, after, listing⟩
  | refused _ _ _ last _ => omega

end

end Os161.Sfs
