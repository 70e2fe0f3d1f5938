import Os161.Process.Table
import Mathlib.Data.List.Nodup
import Mathlib.Data.List.Range
import Mathlib.Data.List.Perm.Basic

namespace Os161.Process
open Word Transition List ProcTable

/-- Pids are unique and in range. -/
structure ProcTable.Sound (t : ProcTable) : Prop where
  unique : (t.procarr.map Proc.pid).Nodup
  range : ∀ proc ∈ t.procarr, pidMin ≤ proc.pid ∧ proc.pid ≤ pidMax

/-- No pid is free. -/
def ProcTable.Full (t : ProcTable) : Prop :=
  ∀ pid, pidMin ≤ pid → pid ≤ pidMax → t.findProc pid ≠ none

def ProcOp.Creates : ProcOp → Prop
  | .create _ _ => True
  | .fork _ _ => True
  | .exit _ _ => False

/-- A call that creates no process while no pid is free. -/
structure GuardedStep (t : ProcTable) (op : ProcOp) (u : ProcTable) : Prop where
  step : ProcStep t op u
  free : ¬ (op.Creates ∧ t.Full)

variable {t : ProcTable}

theorem ProcTable.findProc_eq_none : t.findProc pid = none ↔ ∀ proc ∈ t.procarr, proc.pid ≠ pid := by
  simp [findProc]

variable {remaining : Nat} {curid : Int}

theorem ProcTable.pidLoop_some (found : t.pidLoop remaining curid = some pid) :
    t.findProc pid = none ∧ curid ≤ pid ∧ pid < curid + remaining := by
  induction remaining generalizing curid with
  | zero => cases found
  | succ remaining ih =>
    rw [pidLoop] at found
    split at found
    · rename_i free
      cases found
      exact ⟨free, le_refl _, by omega⟩
    · obtain ⟨free, above, below⟩ := ih found
      exact ⟨free, by omega, by omega⟩

theorem ProcTable.pidLoop_none (failed : t.pidLoop remaining curid = none) (pid : Int)
    (above : curid ≤ pid) (below : pid < curid + remaining) : t.findProc pid ≠ none := by
  induction remaining generalizing curid with
  | zero => omega
  | succ remaining ih =>
    rw [pidLoop] at failed
    split at failed
    · cases failed
    · rename_i used
      by_cases here : pid = curid
      · rw [here]
        exact used
      · exact ih failed (by omega) (by omega)

theorem ProcTable.newPid_free (free : ¬ t.Full) (stray : Int) :
    t.findProc (t.newPid stray) = none ∧ pidMin ≤ t.newPid stray ∧ t.newPid stray ≤ pidMax := by
  unfold newPid
  cases found : t.pidLoop (pidMax - pidMin + 1).toNat pidMin with
  | none =>
    refine absurd ?_ free
    intro pid above below
    exact pidLoop_none found pid above (Int.lt_add_one_of_le below)
  | some pid =>
    obtain ⟨unused, above, below⟩ := pidLoop_some found
    exact ⟨unused, above, Int.le_of_lt_add_one below⟩

theorem ProcTable.newPid_full (full : t.Full) (stray : Int) : t.newPid stray = stray := by
  unfold newPid
  cases found : t.pidLoop (pidMax - pidMin + 1).toNat pidMin with
  | none => rfl
  | some pid =>
    obtain ⟨unused, above, below⟩ := pidLoop_some found
    exact absurd unused (full pid above (Int.le_of_lt_add_one below))

theorem ProcTable.newPid_pos_iff (t : ProcTable) (stray : Int) :
    0 < t.newPid stray ↔ ¬ t.Full ∨ 0 < stray := by
  by_cases full : t.Full
  · rw [newPid_full full]
    exact (or_iff_right (not_not.mpr full)).symm
  · have least : 2 ≤ t.newPid stray := (newPid_free full stray).2.1
    exact iff_of_true (by omega) (.inl full)

theorem ProcTable.Sound.add (sound : t.Sound) {proc : Proc} (unused : t.findProc proc.pid = none)
    (inside : pidMin ≤ proc.pid ∧ proc.pid ≤ pidMax) : (t.add proc).Sound := by
  constructor
  · rw [ProcTable.add, map_append, nodup_append]
    refine ⟨sound.unique, nodup_singleton _, ?_⟩
    intro pid mem other same equal
    obtain ⟨prior, here, rfl⟩ := mem_map.mp mem
    rw [mem_singleton.mp same] at equal
    exact findProc_eq_none.mp unused prior here equal
  · intro other mem
    rcases mem_append.mp mem with prior | last
    · exact sound.range other prior
    · rw [mem_singleton.mp last]
      exact inside

theorem ProcTable.Full.spoiled (full : t.Full) (proc : Proc) : ¬ (t.add proc).Sound := by
  intro sound
  have inside := sound.range proc (mem_append_right _ (mem_singleton_self _))
  have used := full proc.pid inside.1 inside.2
  have unique := sound.unique
  rw [ProcTable.add, map_append, nodup_append] at unique
  refine used (findProc_eq_none.mpr ?_)
  intro prior mem same
  exact unique.2.2 _ (mem_map_of_mem mem) _ (mem_singleton_self _) same

theorem ProcTable.Full.length (full : t.Full) : pidMax - pidMin < t.procarr.length := by
  have pids : (List.range 32766).map (fun n : Nat => (n : Int) + pidMin) ⊆
      t.procarr.map Proc.pid := by
    intro pid mem
    obtain ⟨n, small, rfl⟩ := mem_map.mp mem
    have bound := mem_range.mp small
    have used := full (n + pidMin) (by omega) (by simp only [pidMin, pidMax]; omega)
    rw [ne_eq, findProc_eq_none] at used
    push Not at used
    obtain ⟨proc, here, same⟩ := used
    exact mem_map.mpr ⟨proc, here, same⟩
  have distinct : ((List.range 32766).map (fun n : Nat => (n : Int) + pidMin)).Nodup :=
    nodup_range.map fun left right same => by simpa using same
  have count := (distinct.subperm pids).length_le
  simp only [length_map, length_range] at count
  simp only [pidMin, pidMax]
  omega

theorem ProcTable.Sound.exit (sound : t.Sound) (curproc : Proc) (exitcode : Word32) :
    (t.sysExit curproc exitcode).Sound := by
  have shorter : (t.sysExit curproc exitcode).procarr.Sublist t.procarr := eraseP_sublist
  exact ⟨sound.unique.sublist (shorter.map _), fun proc mem =>
    sound.range proc (shorter.subset mem)⟩

theorem ProcStep.sound_iff (step : ProcStep t op u) (sound : t.Sound) :
    u.Sound ↔ ¬ (op.Creates ∧ t.Full) := by
  cases step with
  | @create addr stray fresh =>
    by_cases full : t.Full
    · exact iff_of_false (full.spoiled _) fun free => free ⟨trivial, full⟩
    · obtain ⟨unused, inside⟩ := newPid_free full stray
      exact iff_of_true (sound.add unused inside) fun both => full both.2
  | @fork addr stray fresh =>
    by_cases full : t.Full
    · refine iff_of_false ?_ fun free => free ⟨trivial, full⟩
      rw [ProcTable.sysFork, if_neg full.length.ne']
      exact full.spoiled _
    · refine iff_of_true ?_ fun both => full both.2
      unfold ProcTable.sysFork
      split
      · exact sound
      · obtain ⟨unused, inside⟩ := newPid_free full stray
        exact sound.add unused inside
  | @exit curproc exitcode running =>
    exact iff_of_true (sound.exit curproc exitcode) fun both => both.1

/-- A call keeps pids unique exactly when it creates nothing in a full table. -/
theorem pids_sound_iff {s t : ProcTable} (sound : s.Sound) {ops : List ProcOp}
    (reached : Run GuardedStep s ops t) :
    t.Sound ∧ ∀ op u, ProcStep t op u →
      ((u.Sound ∧ (op.Creates → t.Full → u = t)) ↔ ¬ (op.Creates ∧ t.Full)) := by
  have kept : t.Sound := reached.invariant
    (fun (state : ProcTable) _ _ (before : state.Sound) moved =>
      (moved.step.sound_iff before).mpr moved.free) sound
  refine ⟨kept, ?_⟩
  intro op u step
  constructor
  · intro good
    exact (step.sound_iff kept).mp good.1
  · intro free
    exact ⟨(step.sound_iff kept).mpr free, fun creates full => absurd ⟨creates, full⟩ free⟩

/-- The table after `proc_bootstrap`, which creates the kernel's process. -/
def bootTable : ProcTable where
  procarr := [⟨0, 2⟩]
  codes := [⟨2, -1⟩]

/-- After boot the first program gets pid 3. -/
theorem pids_sound_bootTable :
    ∃ t, Run GuardedStep bootTable [.create 1 0] t ∧ t.procarr.map Proc.pid = [2, 3] ∧
      ∀ op u, ProcStep t op u →
        ((u.Sound ∧ (op.Creates → t.Full → u = t)) ↔ ¬ (op.Creates ∧ t.Full)) := by
  have free : ¬ bootTable.Full := fun full => full 3 (by decide) (by decide) rfl
  have reached : Run GuardedStep bootTable [.create 1 0] _ :=
    .single ⟨.create (by decide), fun both => free both.2⟩
  exact ⟨_, reached, by decide, (pids_sound_iff ⟨by decide, by decide⟩ reached).2⟩

theorem ProcTable.pidLoop_first (small : skipped < remaining)
    (used : ∀ n < skipped, t.findProc (curid + n) ≠ none) (free : t.findProc (curid + skipped) = none) :
    t.pidLoop remaining curid = some (curid + skipped) := by
  induction skipped generalizing remaining curid with
  | zero =>
    obtain ⟨rest, rfl⟩ := Nat.exists_eq_succ_of_ne_zero small.ne'
    rw [Nat.cast_zero, add_zero] at free ⊢
    rw [pidLoop, if_pos free]
  | succ skipped ih =>
    obtain ⟨rest, rfl⟩ := Nat.exists_eq_succ_of_ne_zero (Nat.ne_zero_of_lt small)
    have taken := used 0 (Nat.succ_pos _)
    rw [Nat.cast_zero, add_zero] at taken
    have shift (n : Nat) : curid + 1 + n = curid + (n + 1 : Nat) := by omega
    rw [pidLoop, if_neg taken, ← shift]
    refine ih (Nat.lt_of_succ_lt_succ small) ?_ ?_
    · intro n below
      rw [shift]
      exact used (n + 1) (Nat.succ_lt_succ below)
    · rw [shift]
      exact free

/-- The table after a number of creations and no exit. -/
def populated (count : Nat) : ProcTable where
  procarr := (List.range count).map fun n : Nat => ⟨n, n + 2⟩
  codes := (List.range count).map fun n : Nat => ⟨n + 2, -1⟩

theorem populated_length (count : Nat) : (populated count).procarr.length = count := by
  simp [populated]

variable {count : Nat}

theorem populated_mem (small : n < count) : ⟨n, n + 2⟩ ∈ (populated count).procarr :=
  mem_map.mpr ⟨n, mem_range.mpr small, rfl⟩

theorem populated_fresh (count : Nat) : ∀ proc ∈ (populated count).procarr, proc.address ≠ count := by
  intro proc mem
  obtain ⟨n, inside, rfl⟩ := mem_map.mp mem
  exact (mem_range.mp inside).ne

theorem populated_used (small : n < count) : (populated count).findProc (pidMin + n) ≠ none := by
  rw [ne_eq, findProc_eq_none]
  intro free
  exact free ⟨n, n + 2⟩ (populated_mem small) (add_comm _ _)

theorem populated_free (count : Nat) : (populated count).findProc (pidMin + count) = none := by
  rw [findProc_eq_none]
  intro proc mem same
  obtain ⟨n, small, rfl⟩ := mem_map.mp mem
  have bound := mem_range.mp small
  dsimp only [pidMin] at same
  omega

theorem populated_reached (small : count ≤ 32766) :
    Run ProcStep (populated 0) ((List.range count).map fun n => .create n 0) (populated count) := by
  induction count with
  | zero => exact .nil _
  | succ count ih =>
    have pid : (populated count).newPid 0 = pidMin + count := by
      have found := pidLoop_first (show count < (pidMax - pidMin + 1).toNat from small)
        (fun n below => populated_used below) (populated_free count)
      rw [ProcTable.newPid, found]
      rfl
    have next : ((populated count).procCreate count 0).2 = populated (count + 1) := by
      rw [ProcTable.procCreate, pid, add_comm]
      simp only [ProcTable.add, populated, range_succ, map_append, map_singleton]
    rw [range_succ, map_append]
    exact (ih (Nat.le_of_succ_le small)).append (.single (next ▸ .create (populated_fresh count)))

/-- When all pids are in use, a new process gets a stray one. -/
theorem pids_spoiled :
    ∃ t u v, Run ProcStep (populated 0) ((List.range 32766).map fun n => .create n 0) t ∧
      ProcStep t (.create 32766 0) u ∧ ⟨32766, 0⟩ ∈ u.procarr ∧
      ProcStep t (.fork 32766 2) v ∧ ⟨0, 2⟩ ∈ v.procarr ∧ ⟨32766, 2⟩ ∈ v.procarr := by
  have full : (populated 32766).Full := by
    intro pid above below
    obtain ⟨n, rfl⟩ : ∃ n : Nat, pid = pidMin + n := ⟨(pid - pidMin).toNat, by omega⟩
    exact populated_used (by simp only [pidMin, pidMax] at below; omega)
  have fresh := populated_fresh 32766
  have created (stray : Int) :
      ⟨32766, stray⟩ ∈ ((populated 32766).procCreate 32766 stray).2.procarr := by
    rw [ProcTable.procCreate, newPid_full full]
    exact mem_append_right _ (mem_singleton_self _)
  have forked : (populated 32766).sysFork 32766 2 =
      (some ⟨32766, 2⟩, ((populated 32766).procCreate 32766 2).2) := by
    rw [ProcTable.sysFork, if_neg full.length.ne', ProcTable.procCreate, newPid_full full]
  refine ⟨_, _, _, populated_reached (le_refl _), .create fresh, created 0, .fork fresh, ?_, ?_⟩
  · rw [forked]
    exact mem_append_left _ (populated_mem (Nat.succ_pos 32765))
  · rw [forked]
    exact created 2

end Os161.Process
