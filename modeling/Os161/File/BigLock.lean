import Os161.Base
import Os161.Threads.Lock

namespace Os161.File
open Word Monitor Roster Threads Transition Function BitVec

/-- Where a thread is in `vfs_biglock_acquire` and `vfs_biglock_release`, by what it does next. The counter
is read and written in two steps. -/
inductive BigPc where
  | outside
  /-- asks `lock_do_i_hold` -/
  | test
  /-- is in `lock_acquire` -/
  | lock
  | load
  | store (depth : Word32)
  | assertHeld
  | assertDepth
  | loadDown
  | storeDown (depth : Word32)
  /-- compares the depth with zero -/
  | compare
  /-- is in `lock_release` -/
  | unlock
deriving DecidableEq

/-- The thread is in `vfs_biglock_acquire`. -/
def BigPc.acquires : BigPc → Bool
  | .test | .lock | .load | .store _ => true
  | _ => false

/-- `vfs_biglock`, `vfs_biglock_depth` and the threads. A call of one of the two functions counts for the
nesting of its thread from the moment at which it writes the depth. -/
structure BigLock (T : Type) where
  lock : State (Option T) T
  depth : Word32
  pc : T → BigPc
  nesting : T → Nat

inductive BigAct (T : Type) where
  | acquire (t : T)
  | release (t : T)
  | step (t : T)

variable {T : Type} [DecidableEq T]

def BigLock.move (s : BigLock T) (t : T) (pc : BigPc) : BigLock T :=
  { s with pc := update s.pc t pc }

theorem BigLock.move_self (s : BigLock T) (t : T) (pc : BigPc) : (s.move t pc).pc t = pc :=
  update_self ..

/-- A thread writes the depth, which changes its nesting. -/
def BigLock.write (s : BigLock T) (t : T) (pc : BigPc) (depth : Word32) (nesting : Nat) : BigLock T :=
  { s.move t pc with depth := depth, nesting := update s.nesting t nesting }

/-- One step of one thread. A thread releases what it has acquired. -/
inductive BigStep : BigLock T → BigAct T → BigLock T → Prop where
  | acquire {s : BigLock T} {t : T} (here : s.pc t = .outside) : BigStep s (.acquire t) (s.move t .test)
  | release {s : BigLock T} {t : T} (here : s.pc t = .outside) (nested : 0 < s.nesting t) :
      BigStep s (.release t) (s.move t .assertHeld)
  | mine {s : BigLock T} {t : T} (here : s.pc t = .test) (held : lockDoIHold s.lock.data t = true) :
      BigStep s (.step t) (s.move t .load)
  | other {s : BigLock T} {t : T} {lock : State (Option T) T} (here : s.pc t = .test)
      (free : lockDoIHold s.lock.data t = false) (step : Step lockGate s.lock (.enter t) lock) :
      BigStep s (.step t) { s.move t .lock with lock := lock }
  | inLock {s : BigLock T} {t : T} {lock : State (Option T) T} (here : s.pc t = .lock ∨ s.pc t = .unlock)
      (step : Step lockGate s.lock (.step t) lock) : BigStep s (.step t) { s with lock := lock }
  | acquired {s : BigLock T} {t : T} (here : s.pc t = .lock) (idle : s.lock.pc t = .idle) :
      BigStep s (.step t) (s.move t .load)
  | load {s : BigLock T} {t : T} (here : s.pc t = .load) : BigStep s (.step t) (s.move t (.store s.depth))
  | store {s : BigLock T} {t : T} {depth : Word32} (here : s.pc t = .store depth) :
      BigStep s (.step t) (s.write t .outside (depth + 1) (s.nesting t + 1))
  | assertHeld {s : BigLock T} {t : T} (here : s.pc t = .assertHeld)
      (held : lockDoIHold s.lock.data t = true) : BigStep s (.step t) (s.move t .assertDepth)
  | assertDepth {s : BigLock T} {t : T} (here : s.pc t = .assertDepth) (positive : 0 < s.depth) :
      BigStep s (.step t) (s.move t .loadDown)
  | loadDown {s : BigLock T} {t : T} (here : s.pc t = .loadDown) :
      BigStep s (.step t) (s.move t (.storeDown s.depth))
  | storeDown {s : BigLock T} {t : T} {depth : Word32} (here : s.pc t = .storeDown depth) :
      BigStep s (.step t) (s.write t .compare (depth - 1) (s.nesting t - 1))
  | last {s : BigLock T} {t : T} {lock : State (Option T) T} (here : s.pc t = .compare) (zero : s.depth = 0)
      (step : Step lockGate s.lock (.leave t) lock) :
      BigStep s (.step t) { s.move t .unlock with lock := lock }
  | inner {s : BigLock T} {t : T} (here : s.pc t = .compare) (more : s.depth ≠ 0) :
      BigStep s (.step t) (s.move t .outside)
  | released {s : BigLock T} {t : T} (here : s.pc t = .unlock) (idle : s.lock.pc t = .idle) :
      BigStep s (.step t) (s.move t .outside)

/-- The thread is at an assertion of `vfs_biglock_release` that fails. -/
def BigLock.Fails (s : BigLock T) (t : T) : Prop :=
  (s.pc t = .assertHeld ∧ lockDoIHold s.lock.data t = false) ∨ (s.pc t = .assertDepth ∧ s.depth = 0)

def BigLock.start : BigLock T where
  lock := State.start none
  depth := 0
  pc _ := .outside
  nesting _ := 0

/-- The depth of a thread that acquires the lock once more still fits into the counter. -/
def BigLock.Fits (s : BigLock T) : BigAct T → Prop
  | .acquire t => s.nesting t + 1 < 2 ^ 32
  | _ => True

/-- One step of a thread whose nesting fits into the counter -/
structure FittingStep (s : BigLock T) (act : BigAct T) (next : BigLock T) : Prop where
  step : BigStep s act next
  fits : s.Fits act

/-- What the place of a thread says about the lock, the nesting and the depth that it has read -/
def BigLock.Placed (s : BigLock T) (t : T) : Prop :=
  match s.pc t with
  | .outside | .test => s.lock.balance t = 1 ↔ 0 < s.nesting t
  | .lock => s.nesting t = 0 ∧ (s.lock.pc t).leaves = false ∧
      ((s.lock.pc t).enters = true ∨ s.lock.balance t = 1)
  | .load | .compare => s.lock.balance t = 1
  | .store depth => s.lock.balance t = 1 ∧ depth = s.depth
  | .assertHeld | .assertDepth | .loadDown => s.lock.balance t = 1 ∧ 0 < s.nesting t
  | .storeDown depth => s.lock.balance t = 1 ∧ 0 < s.nesting t ∧ depth = s.depth
  | .unlock => s.nesting t = 0 ∧ (s.lock.pc t).enters = false ∧
      ((s.lock.pc t).leaves = true ∨ s.lock.balance t = 0)

structure BigInv (s : BigLock T) : Prop where
  lock : LockInv s.lock
  placed : ∀ t, s.Placed t
  depth : ∀ t, s.lock.balance t = 1 → s.depth.toNat = s.nesting t
  free : s.lock.data = none → s.depth = 0
  small : ∀ t, (s.pc t).acquires = true → s.nesting t + 1 < 2 ^ 32

theorem bigInv_start : BigInv (BigLock.start (T := T)) where
  lock := lockInv_start
  placed _ := by simp [BigLock.Placed, BigLock.start, State.start]
  depth _ held := by simp [BigLock.start, State.start] at held
  free _ := rfl
  small _ acquires := by cases acquires

section

variable {s : BigLock T} {t u : T} {pc : BigPc}

theorem BigInv.holds (inv : BigInv s) (nested : 0 < s.nesting t) : s.lock.balance t = 1 := by
  have placed := inv.placed t
  unfold BigLock.Placed at placed
  split at placed <;> first | exact placed | exact placed.1 | exact placed.mpr nested | omega

theorem BigInv.unique (inv : BigInv s) (first : s.lock.balance t = 1) (second : s.lock.balance u = 1) :
    t = u := by
  have mine := inv.lock.held.balance_one.mp first
  rw [inv.lock.held.balance_one.mp second] at mine
  exact (Option.some.inj mine).symm

theorem BigInv.do_i_hold (inv : BigInv s) : lockDoIHold s.lock.data t = true ↔ s.lock.balance t = 1 := by
  rw [inv.lock.held.balance_one, lockDoIHold, decide_eq_true_iff]

theorem BigInv.move (inv : BigInv s) (placed : (s.move t pc).Placed t)
    (small : pc.acquires = true → s.nesting t + 1 < 2 ^ 32) : BigInv (s.move t pc) where
  lock := inv.lock
  placed u := by
    obtain ⟨rfl, _⟩ | ⟨_, same⟩ := update_cases s.pc t pc u
    · exact placed
    · have prev := inv.placed u
      simp only [BigLock.Placed, BigLock.move, same] at prev ⊢
      exact prev
  depth := inv.depth
  free := inv.free
  small u acquires := by
    obtain ⟨rfl, same⟩ | ⟨_, same⟩ := update_cases s.pc t pc u
    · exact small (same ▸ acquires)
    · exact inv.small u (same ▸ acquires)

theorem BigLock.Placed.write (placed : s.Placed u) (apart : u ≠ t) (out : s.lock.balance u ≠ 1)
    (depth : Word32) (nesting : Nat) : (s.write t pc depth nesting).Placed u := by
  simp only [BigLock.Placed, BigLock.write, BigLock.move, update_of_ne apart] at placed ⊢
  cases place : s.pc u <;> simp only [place] at placed ⊢ <;> first | exact placed | exact absurd placed out |
    exact absurd placed.1 out

theorem BigInv.write (inv : BigInv s) (held : s.lock.balance t = 1) {depth : Word32}
    (written : depth.toNat = nesting) (placed : (s.write t pc depth nesting).Placed t)
    (out : pc.acquires = false) : BigInv (s.write t pc depth nesting) where
  lock := inv.lock
  placed u := by
    by_cases same : u = t
    · exact same ▸ placed
    · exact (inv.placed u).write same (fun also => same (inv.unique also held)) depth nesting
  depth u also := by
    obtain rfl := inv.unique also held
    simpa [BigLock.write] using written
  free none := by
    have mine := inv.lock.held.balance_one.mp held
    cases mine.symm.trans none
  small u acquires := by
    by_cases same : u = t
    · subst same
      simp [BigLock.write, BigLock.move, out] at acquires
    · have prev : (s.pc u).acquires = true := by
        simpa [BigLock.write, BigLock.move, same] using acquires
      simpa [BigLock.write, same] using inv.small u prev

theorem BigInv.placed_lock (inv : BigInv s) {act : Act T} {lock : State (Option T) T}
    (step : LockStep s.lock act lock) (enters : act ≠ .enter u) (leaves : act ≠ .leave u)
    (uses : act = .step u → s.pc u = .lock ∨ s.pc u = .unlock) :
    BigLock.Placed { s with lock := lock } u := by
  have placed := inv.placed u
  have balance (away : s.pc u ≠ .lock ∧ s.pc u ≠ .unlock) : lock.balance u = s.lock.balance u := by
    refine step.balance_of_ne fun acts => ?_
    rcases uses acts with here | here
    · exact away.1 here
    · exact away.2 here
  unfold BigLock.Placed at placed ⊢
  cases place : s.pc u
  case lock =>
    simp only [place] at placed ⊢
    obtain ⟨zero, stays, reached⟩ := placed
    exact ⟨zero, step.not_leaves inv.lock leaves stays, step.acquires inv.lock stays reached⟩
  case unlock =>
    simp only [place] at placed ⊢
    obtain ⟨zero, stays, reached⟩ := placed
    refine ⟨zero, step.not_enters inv.lock enters stays, ?_⟩
    obtain leaving | out := reached
    · obtain still | returned := step.step.leaves_or_puts inv.lock.inv.formed leaving
      · exact .inl still
      · refine .inr (returned.trans ?_)
        rw [inv.lock.held.leaves u leaving]
        rfl
    · exact .inr (step.stays_out inv.lock.held out stays)
  all_goals
    simp only [place] at placed ⊢
    rw [balance (by simp [place])]
    exact placed

theorem BigInv.depth_lock (inv : BigInv s) {act : Act T} {lock : State (Option T) T}
    (step : LockStep s.lock act lock) (uses : ∀ u, act = .step u → s.pc u = .lock ∨ s.pc u = .unlock) :
    (∀ u, lock.balance u = 1 → s.depth.toNat = s.nesting u) ∧ (lock.data = none → s.depth = 0) := by
  have held := inv.lock.held
  have nested {u : T} (acts : act = .step u) : s.nesting u = 0 := by
    have placed := inv.placed u
    rcases uses u acts with here | here
    · simp only [BigLock.Placed, here] at placed
      exact placed.1
    · simp only [BigLock.Placed, here] at placed
      exact placed.1
  cases step.step.effect with
  | none data balance _ _ =>
    rw [data, balance]
    exact ⟨inv.depth, inv.free⟩
  | @take t acts here there taken balance _ _ =>
    have other := held.balance_zero.mp (held.enters t (by rw [here]; rfl))
    have free := free_of_passed (inv.lock.inv.formed.passed t here) other
    have zero := inv.free free
    refine ⟨fun u also => ?_, fun _ => zero⟩
    obtain ⟨rfl, _⟩ | ⟨_, same⟩ := update_cases s.lock.balance t (s.lock.balance t + 1) u
    · rw [zero, nested acts]
      rfl
    · rw [balance, same] at also
      exact inv.depth u also
  | @put t acts here there ran balance _ _ =>
    have mine := held.leaves t (by rw [here]; rfl)
    have zero : s.depth = 0 := eq_of_toNat_eq ((inv.depth t mine).trans (nested acts))
    refine ⟨fun u also => ?_, fun _ => zero⟩
    obtain ⟨rfl, same⟩ | ⟨apart, same⟩ := update_cases s.lock.balance t (s.lock.balance t - 1) u
    · rw [balance, same, mine] at also
      cases also
    · rw [balance, same] at also
      exact absurd (inv.unique also mine) apart

theorem BigInv.inLock (inv : BigInv s) {lock : State (Option T) T}
    (here : s.pc t = .lock ∨ s.pc t = .unlock) (step : LockStep s.lock (.step t) lock) :
    BigInv { s with lock := lock } := by
  have uses (u : T) (acts : Act.step t = .step u) : s.pc u = .lock ∨ s.pc u = .unlock := by
    cases acts
    exact here
  obtain ⟨depth, free⟩ := inv.depth_lock step uses
  exact ⟨step.inv inv.lock, fun u => inv.placed_lock step nofun nofun (uses u), depth, free, inv.small⟩

theorem BigInv.callLock (inv : BigInv s) {act : Act T} {lock : State (Option T) T}
    (calls : act = .enter t ∨ act = .leave t) (step : LockStep s.lock act lock)
    (placed : BigLock.Placed { s.move t pc with lock := lock } t)
    (small : pc.acquires = true → s.nesting t + 1 < 2 ^ 32) : BigInv { s.move t pc with lock := lock } := by
  have uses (u : T) (acts : act = .step u) : s.pc u = .lock ∨ s.pc u = .unlock := by
    rcases calls with call | call <;> rw [call] at acts <;> cases acts
  obtain ⟨depth, free⟩ := inv.depth_lock step uses
  refine ⟨step.inv inv.lock, fun u => ?_, depth, free, fun u acquires => ?_⟩
  · obtain ⟨rfl, _⟩ | ⟨apart, same⟩ := update_cases s.pc t pc u
    · exact placed
    · have kept := inv.placed_lock (u := u) step ?_ ?_ (uses u)
      · simp only [BigLock.Placed, BigLock.move, same] at kept ⊢
        exact kept
      · rcases calls with rfl | rfl
        · simpa using apart.symm
        · exact nofun
      · rcases calls with rfl | rfl
        · exact nofun
        · simpa using apart.symm
  · obtain ⟨rfl, same⟩ | ⟨_, same⟩ := update_cases s.pc t pc u
    · exact small (same ▸ acquires)
    · exact inv.small u (same ▸ acquires)

theorem FittingStep.inv {next : BigLock T} {act : BigAct T} (fitting : FittingStep s act next)
    (inv : BigInv s) : BigInv next := by
  have fits := fitting.fits
  cases fitting.step with
  | @acquire t here =>
    have placed := inv.placed t
    simp only [BigLock.Placed, here] at placed
    refine inv.move ?_ fun _ => fits
    simpa [BigLock.Placed, BigLock.move] using placed
  | @release t here nested =>
    refine inv.move ?_ nofun
    simpa [BigLock.Placed, BigLock.move] using ⟨inv.holds nested, nested⟩
  | @mine t here held =>
    refine inv.move ?_ fun _ => inv.small t (by rw [here]; rfl)
    simpa [BigLock.Placed, BigLock.move] using inv.do_i_hold.mp held
  | @other t lock here free step =>
    have out : s.lock.balance t = 0 := by
      rw [inv.lock.held.balance_zero]
      exact of_decide_eq_false free
    have placed := inv.placed t
    simp only [BigLock.Placed, here, out] at placed
    refine inv.callLock (.inl rfl) ⟨step, out⟩ ?_ fun _ => inv.small t (by rw [here]; rfl)
    cases step with
    | enter idle =>
      simp only [BigLock.Placed, BigLock.move, update_self, State.move_self]
      exact ⟨by simpa using placed, rfl, .inl rfl⟩
  | inLock here step => exact inv.inLock here ⟨step, trivial⟩
  | @acquired t here idle =>
    have placed := inv.placed t
    simp only [BigLock.Placed, here, idle] at placed
    refine inv.move ?_ fun _ => inv.small t (by rw [here]; rfl)
    have mine := placed.2.2.resolve_left Bool.false_ne_true
    simpa [BigLock.Placed, BigLock.move] using mine
  | @load t here =>
    have placed := inv.placed t
    simp only [BigLock.Placed, here] at placed
    refine inv.move ?_ fun _ => inv.small t (by rw [here]; rfl)
    simpa [BigLock.Placed, BigLock.move] using placed
  | @store t depth here =>
    have placed := inv.placed t
    simp only [BigLock.Placed, here] at placed
    obtain ⟨held, rfl⟩ := placed
    have counted := inv.depth t held
    have room := inv.small t (by rw [here]; rfl)
    refine inv.write held ?_ ?_ rfl
    · rw [toNat_add, counted]
      exact Nat.mod_eq_of_lt room
    · simpa [BigLock.Placed, BigLock.write, BigLock.move] using held
  | @assertHeld t here held | @assertDepth t here pos | @loadDown t here =>
    have placed := inv.placed t
    simp only [BigLock.Placed, here] at placed
    refine inv.move ?_ nofun
    simpa [BigLock.Placed, BigLock.move] using placed
  | @storeDown t depth here =>
    have placed := inv.placed t
    simp only [BigLock.Placed, here] at placed
    obtain ⟨held, nested, rfl⟩ := placed
    have counted := inv.depth t held
    refine inv.write held ?_ ?_ rfl
    · rw [toNat_sub, counted]
      change (2 ^ 32 - 1 + s.nesting t) % 2 ^ 32 = s.nesting t - 1
      omega
    · simpa [BigLock.Placed, BigLock.write, BigLock.move] using held
  | @last t lock here zero step =>
    have placed := inv.placed t
    simp only [BigLock.Placed, here] at placed
    have counted := inv.depth t placed
    rw [zero] at counted
    refine inv.callLock (.inr rfl) ⟨step, placed⟩ ?_ nofun
    cases step with
    | leave idle =>
      simp only [BigLock.Placed, BigLock.move, update_self, State.move_self]
      exact ⟨counted.symm, rfl, .inl rfl⟩
  | @inner t here more =>
    have placed := inv.placed t
    simp only [BigLock.Placed, here] at placed
    have counted := inv.depth t placed
    have nested : 0 < s.nesting t := by
      rw [← counted]
      exact Nat.pos_of_ne_zero fun zero => more (eq_of_toNat_eq zero)
    refine inv.move ?_ nofun
    simp only [BigLock.Placed, BigLock.move, update_self]
    exact iff_of_true placed nested
  | @released t here idle =>
    have placed := inv.placed t
    simp only [BigLock.Placed, here, idle] at placed
    have out := placed.2.2.resolve_left Bool.false_ne_true
    refine inv.move ?_ nofun
    simp only [BigLock.Placed, BigLock.move, update_self]
    refine iff_of_false ?_ ?_
    · rw [out]
      decide
    · rw [placed.1]
      exact Nat.lt_irrefl 0

theorem BigInv.not_fails (inv : BigInv s) (t : T) : ¬ s.Fails t := by
  rintro (⟨here, failed⟩ | ⟨here, zero⟩)
  · have placed := inv.placed t
    simp only [BigLock.Placed, here] at placed
    rw [inv.do_i_hold.mpr placed.1] at failed
    cases failed
  · have placed := inv.placed t
    simp only [BigLock.Placed, here] at placed
    have counted := inv.depth t placed.1
    rw [zero] at counted
    exact Nat.ne_of_gt placed.2 counted.symm

end

/-- At most one thread is inside, and the depth is its nesting. -/
theorem biglock_recursive {acts : List (BigAct T)} {s : BigLock T}
    (reached : Run FittingStep BigLock.start acts s) :
    (∀ t u, 0 < s.nesting t → 0 < s.nesting u → t = u) ∧
    (∀ t, 0 < s.nesting t → s.depth.toNat = s.nesting t) ∧
    ((∀ t, s.nesting t = 0) → s.depth = 0) ∧ ∀ t, ¬ s.Fails t := by
  have inv : BigInv s := reached.invariant
    (fun (state : BigLock T) _ _ (before : BigInv state) step => step.inv before) bigInv_start
  refine ⟨fun t u first second => inv.unique (inv.holds first) (inv.holds second),
    fun t nested => inv.depth t (inv.holds nested), fun none => ?_, inv.not_fails⟩
  cases holder : s.lock.data with
  | none => exact inv.free holder
  | some t =>
    have counted := inv.depth t (inv.lock.held.balance_one.mpr holder)
    rw [none t] at counted
    exact BitVec.eq_of_toNat_eq counted

theorem acquired_once : ∃ s : BigLock Nat,
    Run FittingStep BigLock.start (.acquire 0 :: List.replicate 8 (.step 0)) s ∧
      (s.pc 0 = .outside ∧ s.lock.data = some 0 ∧ s.nesting 0 = 1 ∧ s.depth = 1) ∧
      s.pc 1 = .outside ∧ s.lock.pc 1 = .idle ∧ s.nesting 1 = 0 := by
  refine ⟨_, .cons ⟨.acquire rfl, show 0 + 1 < 2 ^ 32 by decide⟩ (.cons ⟨.other rfl rfl (.enter rfl), trivial⟩
    (.cons ⟨.inLock (.inl rfl) (.lock rfl rfl), trivial⟩
    (.cons ⟨.inLock (.inl rfl) (.pass (.inl rfl) rfl), trivial⟩
    (.cons ⟨.inLock (.inl rfl) (.take rfl rfl), trivial⟩
    (.cons ⟨.inLock (.inl rfl) (.unlock (.inl rfl)), trivial⟩
    (.cons ⟨.acquired rfl rfl, trivial⟩ (.cons ⟨.load rfl, trivial⟩
    (.single ⟨.store rfl, trivial⟩)))))))), ⟨rfl, rfl, rfl, rfl⟩, rfl, rfl, rfl⟩

/-- One thread nests two calls while another one is in `lock_acquire`. -/
theorem biglock_recursive_nested : ∃ s : BigLock Nat,
    Run FittingStep BigLock.start ((.acquire 0 :: List.replicate 8 (.step 0)) ++
      [.acquire 1, .step 1, .acquire 0, .step 0, .step 0, .step 0]) s ∧
    s.pc 1 = .lock ∧ s.nesting 0 = 2 ∧ s.depth.toNat = s.nesting 0 := by
  obtain ⟨s, reached, ⟨here, holder, nested, _⟩, there, idle, none⟩ := acquired_once
  have mine : lockDoIHold s.lock.data 0 = true := decide_eq_true holder
  have foreign : lockDoIHold s.lock.data 1 = false := by
    rw [holder]
    rfl
  have run := reached.append
    (.cons ⟨.acquire there, show s.nesting 1 + 1 < 2 ^ 32 by omega⟩
    (.cons ⟨.other (s.move_self ..) foreign (.enter idle), trivial⟩
    (.cons ⟨.acquire (t := 0) (by simpa [BigLock.move] using here), show s.nesting 0 + 1 < 2 ^ 32 by omega⟩
    (.cons ⟨.mine (BigLock.move_self ..) mine, trivial⟩
    (.cons ⟨.load (BigLock.move_self ..), trivial⟩ (.single ⟨.store (BigLock.move_self ..), trivial⟩))))))
  refine ⟨_, run, ?_, ?_, (biglock_recursive run).2.1 0 ?_⟩
  · simp [BigLock.write, BigLock.move]
  · simp [BigLock.write, BigLock.move, nested]
  · simp [BigLock.write, BigLock.move, nested]

theorem acquired_again (count : Nat) : ∃ acts, ∃ s : BigLock Nat, Run BigStep BigLock.start acts s ∧
    s.pc 0 = .outside ∧ s.lock.data = some 0 ∧ s.nesting 0 = count + 1 ∧
      s.depth = BitVec.ofNat 32 (count + 1) := by
  induction count with
  | zero =>
    obtain ⟨s, reached, ⟨here, holder, nested, depth⟩, _⟩ := acquired_once
    obtain ⟨_, run, rfl⟩ := reached.simulate BigStep Eq id
      (fun state image act next same step => ⟨next, same ▸ step.step, rfl⟩) _ rfl
    exact ⟨_, s, run, here, holder, nested, depth⟩
  | succ count ih =>
    obtain ⟨acts, s, reached, here, holder, nested, depth⟩ := ih
    have mine : lockDoIHold s.lock.data 0 = true := decide_eq_true holder
    refine ⟨_, _, reached.append (.cons (.acquire here) (.cons (.mine (s.move_self ..) mine)
      (.cons (.load (BigLock.move_self ..)) (.single (.store (BigLock.move_self ..)))))),
      ?_, holder, ?_, ?_⟩
    · simp [BigLock.write, BigLock.move]
    · simp [BigLock.write, BigLock.move, nested]
    · simp [BigLock.write, BigLock.move, depth, ofNat_add]

/-- After 2^32 nested calls the counter is zero, and a release fails. -/
theorem biglock_overflows : ∃ acts, ∃ s : BigLock Nat, Run BigStep BigLock.start acts s ∧
    s.nesting 0 = 2 ^ 32 ∧ s.depth = 0 ∧
      ∃ s', Run BigStep s [.release 0, .step 0] s' ∧ s'.Fails 0 := by
  obtain ⟨acts, s, reached, here, holder, nested, depth⟩ := acquired_again (2 ^ 32 - 1)
  have zero : s.depth = 0 := depth
  refine ⟨acts, s, reached, nested, zero, _, .cons (.release here ?_)
    (.single (.assertHeld (s.move_self ..) (decide_eq_true holder))), .inr ⟨BigLock.move_self .., zero⟩⟩
  rw [nested]
  decide

end Os161.File
