import Os161.File.VfsPath

namespace Os161.File.VfsCalls
open Word List

/-- The scan of `getdevice` at index `i`, with this text ahead: the values of `colon` and `slash` at its end. -/
def scan : CString → (i : Nat) → ℤ × ℤ
  | [], _ => (-1, -1)
  | byte :: ahead, i =>
    if byte = colon then (i, -1) else if byte = slash then (-1, i) else scan ahead (i + 1)

/-- Both loops over slashes: the last index of the row of slashes behind index `i`. -/
def skipRow (path : CString) (i : Nat) : Nat :=
  if path[i + 1]? = some slash then skipRow path (i + 1) else i
termination_by path.length - i
decreasing_by grind

variable {S V : Type} (vfs : VfsCalls S V)

/-- `getdevice` behind its scan -/
def getdeviceMarked (path : CString) : ℤ × ℤ → Action S (Except Errno (CString × V))
  | (colonAt, slashAt) => do
    if colonAt < 0 ∧ slashAt ≠ 0 then return (← vfs.vfsGetcurdir).map (path, ·)
    else if 0 < colonAt then
      -- `path[colon]=0` ends the string that names the device.
      return (← vfs.getroot (path.take colonAt.toNat)).map (path.drop (skipRow path colonAt.toNat + 1), ·)
    else
      kassert (colonAt = 0 ∨ slashAt = 0) "colon==0 || slash==0"
      kassert (path.head? = some slash ∨ path.head? = some colon) "path[0]==':'"
      return (← vfs.getdeviceRooted (path.headD 0)).map (path.drop (skipRow path 0 + 1), ·)

/-- `getdevice` with its loops -/
def getdeviceScan (path : CString) : Action S (Except Errno (CString × V)) := do
  let held ← vfs.biglockDoIHold
  kassert held "vfs_biglock_do_i_hold()"
  vfs.getdeviceMarked path (scan path 0)

/-- Where a path begins -/
inductive Start where
  | device (name : CString)
  | currentFs
  | bootFs
  | currentDir

/-- What `getdevice` calls for a beginning -/
def begin : Start → Action S (Except Errno V)
  | .device name => vfs.getroot name
  | .currentFs => vfs.getdeviceRooted colon
  | .bootFs => vfs.getdeviceRooted slash
  | .currentDir => vfs.vfsGetcurdir

/-- A text without colon and slash -/
def Plain (name : CString) : Prop := ∀ byte ∈ name, byte ≠ colon ∧ byte ≠ slash

/-- The beginning of a path and the rest of it, as they are documented -/
inductive Documented : CString → Start → CString → Prop
  | device (rest : CString) (plain : Plain name) (named : name ≠ []) :
      Documented (name ++ colon :: rest) (.device name) (skipSlashes rest)
  | currentFs (rest : CString) : Documented (colon :: rest) .currentFs (skipSlashes rest)
  | bootFs (rest : CString) : Documented (slash :: rest) .bootFs (skipSlashes rest)
  | currentDir {name rest : CString} (plain : Plain name)
    (ends : rest = [] ∨ name ≠ [] ∧ ∃ more, rest = slash :: more) :
    Documented (name ++ rest) .currentDir (name ++ rest)

theorem documented_total (path : CString) : ∃ start rest, Documented path start rest := by
  have empty : Plain [] := forall_mem_nil _
  induction path with
  | nil => exact ⟨_, _, .currentDir empty (.inl rfl)⟩
  | cons byte path ih =>
    by_cases isColon : byte = colon
    · subst isColon
      exact ⟨_, _, .currentFs path⟩
    by_cases isSlash : byte = slash
    · subst isSlash
      exact ⟨_, _, .bootFs path⟩
    have plain {name : CString} (plain : Plain name) : Plain (byte :: name) :=
      forall_mem_cons.mpr ⟨⟨isColon, isSlash⟩, plain⟩
    obtain ⟨_, _, documented⟩ := ih
    cases documented with
    | device rest prev => exact ⟨_, _, .device rest (plain prev) (cons_ne_nil _ _)⟩
    | currentFs rest => exact ⟨_, _, .device rest (plain empty) (cons_ne_nil byte [])⟩
    | bootFs => exact ⟨_, _, .currentDir (plain empty) (.inr ⟨cons_ne_nil byte [], _, rfl⟩)⟩
    | currentDir prev ends =>
      exact ⟨_, _, .currentDir (plain prev) (ends.imp_right fun ends => ⟨cons_ne_nil _ _, ends.2⟩)⟩

theorem scan_append (plain : Plain name) (rest : CString) (i : Nat) :
    scan (name ++ rest) i = scan rest (i + name.length) := by
  induction name generalizing i with
  | nil => rfl
  | cons byte name ih =>
    obtain ⟨here, plain⟩ := forall_mem_cons.mp plain
    rw [cons_append, scan, if_neg here.1, if_neg here.2, ih plain, length_cons, Nat.add_right_comm, Nat.add_assoc]

theorem drop_skipRow (path : CString) (i : Nat) :
    path.drop (skipRow path i + 1) = skipSlashes (path.drop (i + 1)) := by
  induction i using skipRow.induct path with
  | case1 i more ih =>
    rw [skipRow, if_pos more, ih, drop_eq_getElem?_toList_append (i := i + 1), more]
    rfl
  | case2 i last =>
    rw [skipRow, if_neg last]
    rw [← head?_drop] at last
    generalize path.drop (i + 1) = ahead at last
    cases ahead with
    | nil => rfl
    | cons byte rest => exact (dropWhile_cons_of_neg (by simpa using last)).symm

theorem Documented.marked (documented : Documented path start rest) :
    vfs.getdeviceMarked path (scan path 0) = do return (← vfs.begin start).map (rest, ·) := by
  cases documented with
  | @device name rest plain named =>
    have pos : 0 < name.length := length_pos_iff.mpr named
    simp [scan_append plain, scan, drop_skipRow, pos, begin, getdeviceMarked]
  | currentFs rest | bootFs rest =>
    rw [← show (_ :: rest).drop (skipRow (_ :: rest) 0 + 1) = skipSlashes rest from drop_skipRow _ 0]
    rfl
  | @currentDir name rest plain ends =>
    rw [scan_append plain]
    rcases ends with rfl | ⟨named, more, rfl⟩
    · rfl
    · simp [scan, begin, getdeviceMarked, named]

theorem takeWhile_plain (plain : Plain name) (rest : CString) :
    (name ++ rest).takeWhile (fun byte => byte ≠ colon ∧ byte ≠ slash) =
      name ++ rest.takeWhile fun byte => byte ≠ colon ∧ byte ≠ slash :=
  takeWhile_append_of_pos fun byte mem => decide_eq_true (plain byte mem)

theorem getdeviceScan_eq (path : CString) : vfs.getdeviceScan path = vfs.getdevice path := by
  obtain ⟨_, _, documented⟩ := documented_total path
  rw [getdeviceScan, documented.marked, getdevice]
  cases documented with
  | device rest plain named =>
    simp only [takeWhile_plain plain]
    simp [named, begin]
  | currentFs | bootFs => rfl
  | currentDir plain ends =>
    simp only [takeWhile_plain plain]
    rcases ends with rfl | ⟨named, more, rfl⟩
    · simp [begin]
    · simp [named, begin]

section

variable (knowndevs : Knowndevs) (getroot : Fs → Action S V) (vnode : Vm.Vnode → V)

/-- `vfs_getroot` on this table, with `FSOP_GETROOT` and the vnodes of the devices -/
def vfsGetroot (devname : CString) : Action S (Except Errno V) := do
  let held ← vfs.biglockDoIHold
  kassert held "vfs_biglock_do_i_hold()"
  match ← File.vfsGetroot knowndevs devname with
  | .error result => return .error result
  | .ok (.root fs) => return .ok (← getroot fs)
  | .ok (.device id) =>
    vfs.incref (vnode id)
    return .ok (vnode id)

end

end Os161.File.VfsCalls
