import Os161.Threads.Placement

namespace Os161.Threads
open Outcome Transition Function List

/-- The thread is not in the timer's interrupt. -/
def Thread.Normal (thread : Thread) : Prop := thread.inInterrupt = false ∧ thread.oldIn = none

/-- The thread is not in the timer's interrupt, or it is there and has no address space. -/
def Thread.Calm (thread : Thread) : Prop :=
  thread.Normal ∨ thread.inInterrupt = true ∧ thread.oldIn = some false ∧ thread.space = none

/-- Every thread is calm and the current threads are not in the timer's interrupt. -/
structure Sched.Quiet (s : Sched) : Prop where
  threads : ∀ id, (s.threads id).Calm
  current : ∀ cpu, (s.threads (s.curthread cpu)).Normal

/-- The state in which a thread continues behind `switchframe_switch` on one processor. -/
structure Sched.Resuming (s : Sched) (cpu : CpuId) : Prop where
  threads : ∀ id, (s.threads id).Calm
  current : ∀ other, other ≠ cpu → (s.threads (s.curthread other)).Normal

/-- The timer preempts a thread with an address space: another thread waits for the processor. -/
def ThreadOp.Preempts (s : Sched) : ThreadOp → Prop
  | .timer cpu => (s.cpus cpu).isidle = false ∧ (s.cpus cpu).runqueue ≠ [] ∧
      (s.threads (s.curthread cpu)).space ≠ none
  | _ => False

/-- The operations sooner or later execute `lock_acquire` in an interrupt. -/
inductive Trips : Sched → List ThreadOp → Prop where
  | here {s : Sched} {op : ThreadOp} {rest : List ThreadOp} (enabled : op.Enabled s)
      (stopped : op.exec s = .error (.assertion "curthread->t_in_interrupt == false")) :
      Trips s (op :: rest)
  | later {s t : Sched} {op : ThreadOp} {rest : List ThreadOp} (step : ThreadStep s op t)
      (tripped : Trips t rest) : Trips s (op :: rest)

variable {s : Sched} {id : ThreadId}

theorem Thread.Calm.trapReturn (calm : (s.threads id).Calm) :
    ((s.trapReturn id).threads id).Normal := by
  unfold Sched.trapReturn
  obtain ⟨free, out⟩ | ⟨_, inside, _⟩ := calm
  · rw [out]
    exact ⟨free, out⟩
  · rw [inside]
    rw [setThread_self]
    exact ⟨rfl, rfl⟩

theorem Sched.Quiet.setThread (quiet : s.Quiet) {thread : Thread} (calm : thread.Calm)
    (normal : ∀ cpu, s.curthread cpu = id → thread.Normal) : (s.setThread id thread).Quiet := by
  constructor
  · intro other
    by_cases here : other = id
    · rw [here, setThread_self]
      exact calm
    · rw [setThread_of_ne _ _ _ _ here]
      exact quiet.threads other
  · intro cpu
    rw [setThread_curthread]
    by_cases here : s.curthread cpu = id
    · rw [here, setThread_self]
      exact normal cpu here
    · rw [setThread_of_ne _ _ _ _ here]
      exact quiet.current cpu

variable {cpu : CpuId}

theorem Sched.Resuming.quiet (inv : s.Inv) (resuming : s.Resuming cpu) :
    (s.trapReturn (s.curthread cpu)).Quiet := by
  have back := (resuming.threads (s.curthread cpu)).trapReturn
  constructor
  · intro id
    by_cases here : id = s.curthread cpu
    · exact .inl (here ▸ back)
    · rw [trapReturn_of_ne s here]
      exact resuming.threads id
  · intro other
    rw [trapReturn_curthread]
    by_cases here : other = cpu
    · exact here ▸ back
    · rw [trapReturn_of_ne s (inv.curthread_ne here)]
      exact resuming.current other here

theorem Sched.Quiet.resuming (quiet : s.Quiet) (cpu : CpuId) : s.Resuming cpu :=
  ⟨quiet.threads, fun other _ => quiet.current other⟩

variable {t : Sched}

theorem Sched.Quiet.stays (quiet : s.Quiet) (stays : s.Stays t) : t.Quiet := by
  constructor
  · intro id
    rw [stays.threads]
    exact quiet.threads id
  · intro cpu
    rw [stays.threads, stays.current]
    exact quiet.current cpu

theorem Sched.Resuming.continues {next : ThreadId} (resuming : s.Resuming cpu)
    (continues : s.Continues cpu t next) : t.Resuming cpu := by
  have kept {property : Thread → Prop} (id : ThreadId) (holds : property (s.threads id))
      (same : ∀ thread : Thread, property thread → property { thread with next := some next }) :
      property (t.threads id) := by
    rw [continues.threads]
    by_cases here : id = s.curthread cpu
    · rw [here] at holds ⊢
      rw [update_self]
      exact same _ holds
    · rw [update_of_ne here]
      exact holds
  constructor
  · intro id
    exact kept id (resuming.threads id) fun _ calm => calm
  · intro other differ
    rw [continues.others other differ]
    exact kept _ (resuming.current other differ) fun _ normal => normal

/-- What an operation leaves: a quiet state, or a thread that continues in a quiet environment. -/
inductive QuietResult : Sched × Option ThreadId → Prop where
  | stays {t : Sched} (quiet : t.Quiet) : QuietResult (t, none)
  | continues {t : Sched} {cpu : CpuId} (resuming : t.Resuming cpu) :
      QuietResult (t, some (t.curthread cpu))

theorem Sched.Quiet.getNext (quiet : s.Quiet) (cpu : CpuId) : QuietResult (s.getNext cpu) := by
  obtain waiting | ⟨t, next, chosen, continues⟩ := s.getNext_cases cpu
  · rw [waiting]
    exact .stays quiet
  · rw [chosen, ← continues.current]
    exact .continues ((quiet.resuming cpu).continues continues)

theorem Sched.Quiet.threadSwitch (quiet : s.Quiet) (newstate : ThreadState) (cpu : CpuId) :
    QuietResult (s.threadSwitch newstate cpu) := by
  obtain ⟨t, ran, stays⟩ | ⟨t, next, chosen, continues⟩ := s.threadSwitch_cases newstate cpu
  · rw [ran]
    exact .stays (quiet.stays stays)
  · rw [chosen, ← continues.current]
    exact .continues ((quiet.resuming cpu).continues continues)

theorem Sched.Quiet.timer_returns (quiet : s.Quiet)
    (unswitched : (s.cpus cpu).isidle = true ∨ (s.cpus cpu).runqueue = []) :
    ThreadOp.effect s (.timer cpu) = (s, none) := by
  have ran : (s.trapEnter (s.curthread cpu)).threadSwitch .ready cpu =
      (s.trapEnter (s.curthread cpu), none) := by
    unfold Sched.threadSwitch Sched.trapEnter
    simp only [setThread_cpus]
    obtain idle | empty := unswitched
    · rw [if_pos idle]
    · rw [if_pos (⟨trivial, empty⟩ : True ∧ _), ite_self]
  obtain ⟨free, out⟩ := quiet.current cpu
  simp only [ThreadOp.effect, ran]
  simp only [Sched.trapEnter, setThread_curthread, Sched.trapReturn, setThread_self, setThread_twice]
  have same : ({ s.threads (s.curthread cpu) with
      inInterrupt := (s.threads (s.curthread cpu)).inInterrupt, oldIn := none } : Thread) =
        s.threads (s.curthread cpu) := by
    rw [← out]
  rw [same, setThread_same]

theorem Sched.Quiet.timer_switches (inv : s.Inv) (quiet : s.Quiet)
    (kernel : (s.threads (s.curthread cpu)).space = none) (busy : (s.cpus cpu).isidle = false)
    (waiting : (s.cpus cpu).runqueue ≠ []) : QuietResult (ThreadOp.effect s (.timer cpu)) := by
  obtain ⟨free, out⟩ := quiet.current cpu
  have entered : (s.trapEnter (s.curthread cpu)).Resuming cpu := by
    constructor
    · intro id
      unfold Sched.trapEnter
      by_cases here : id = s.curthread cpu
      · rw [here, setThread_self]
        exact .inr ⟨rfl, congrArg some free, kernel⟩
      · rw [setThread_of_ne _ _ _ _ here]
        exact quiet.threads id
    · intro other differ
      unfold Sched.trapEnter
      rw [setThread_curthread, setThread_of_ne _ _ _ _ (inv.curthread_ne differ)]
      exact quiet.current other
  obtain ⟨next, rest, queue⟩ := exists_cons_of_ne_nil waiting
  have home : ((s.trapEnter (s.curthread cpu)).threads
      ((s.trapEnter (s.curthread cpu)).curthread cpu)).cpu = cpu := by
    unfold Sched.trapEnter
    rw [setThread_curthread, setThread_self]
    exact inv.current cpu
  obtain ⟨t, chosen, continues, _⟩ := Sched.threadSwitch_ready home busy queue
  simp only [ThreadOp.effect, chosen]
  rw [← continues.current]
  exact .continues (entered.continues continues)

theorem Sched.Quiet.effect (inv : s.Inv) (quiet : s.Quiet) {op : ThreadOp} (enabled : op.Enabled s)
    (kernel : ¬ op.Preempts s) : QuietResult (op.effect s) := by
  cases op with
  | timer cpu =>
    by_cases switches : (s.cpus cpu).isidle = false ∧ (s.cpus cpu).runqueue ≠ []
    · refine quiet.timer_switches inv ?_ switches.1 switches.2
      by_contra space
      exact kernel ⟨switches.1, switches.2, space⟩
    · rw [quiet.timer_returns (by
        rw [not_and_or, Bool.not_eq_false, not_not] at switches
        exact switches)]
      exact .stays quiet
  | yield cpu => exact quiet.threadSwitch .ready cpu
  | sleep cpu => exact quiet.threadSwitch .sleep cpu
  | exit cpu =>
    have normal := quiet.current cpu
    have detached : (s.setThread (s.curthread cpu)
        { s.threads (s.curthread cpu) with space := none }).Quiet :=
      quiet.setThread (.inl normal) fun _ _ => normal
    exact detached.threadSwitch .zombie cpu
  | unidle cpu => exact quiet.getNext cpu
  | fork cpu child space =>
    have made : (Thread.create (s.threads (s.curthread cpu)).cpu space).Normal := ⟨rfl, rfl⟩
    have added := quiet.setThread (.inl made) fun cpu (_ : s.curthread cpu = child) => made
    exact .stays (added.stays (makeRunnable_stays _ child))
  | setas cpu space =>
    have normal := quiet.current cpu
    exact .stays (quiet.setThread (.inl normal) fun _ _ => normal)
  | wake id =>
    have woken := makeRunnable_stays { s with sleepers := s.sleepers.erase id } id
    exact .stays (quiet.stays ⟨woken.current, woken.threads⟩)
  | migrate cpu id target =>
    have left := quiet.stays (s.setQueue_stays cpu ((s.cpus cpu).runqueue.erase id))
    have moved : ({ s.threads id with cpu := target } : Thread).Calm := quiet.threads id
    have changed : (Sched.setThread _ id { s.threads id with cpu := target }).Quiet :=
      left.setThread moved fun other here => here ▸ left.current other
    exact .stays (changed.stays (makeRunnable_stays _ id))
  | shuffle cpu queue => exact .stays (quiet.stays (s.setQueue_stays cpu queue))

/-- The thread executes `lock_acquire` in an interrupt when it continues. -/
structure Sched.Trapped (s : Sched) (id : ThreadId) : Prop where
  activates : s.activates id
  space : (s.threads id).space ≠ none
  inside : (s.threads id).inInterrupt = true

theorem Sched.Trapped.continues {next victim : ThreadId} (trapped : s.Trapped victim)
    (continues : s.Continues cpu t next) (other : victim ≠ s.curthread cpu) : t.Trapped victim := by
  have same : t.threads victim = s.threads victim := by
    rw [continues.threads, update_of_ne other]
  refine ⟨?_, same ▸ trapped.space, same ▸ trapped.inside⟩
  rw [Sched.activates, same]
  exact trapped.activates

theorem Sched.Trapped.trapReturn {victim : ThreadId} (trapped : s.Trapped victim)
    (other : victim ≠ id) : (s.trapReturn id).Trapped victim := by
  have same := trapReturn_of_ne s other
  refine ⟨?_, same ▸ trapped.space, same ▸ trapped.inside⟩
  rw [Sched.activates, same]
  exact trapped.activates

theorem ThreadOp.exec_eq (op : ThreadOp) (checked : op.check s = .ok ())
    (chosen : op.effect s = (t, some id)) :
    (t.Trapped id ∧ op.exec s = .error (.assertion "curthread->t_in_interrupt == false")) ∨
      (¬ t.Trapped id ∧ op.exec s = .ok (t.trapReturn id)) := by
  have body : op.exec s = (do
      if t.activates id then t.asActivate id
      return t.trapReturn id) := by
    rw [ThreadOp.exec, checked, ok_bind, chosen]
  rw [body]
  by_cases activates : t.activates id
  · rw [if_pos activates]
    unfold Sched.asActivate
    cases space : (t.threads id).space with
    | none =>
      refine .inr ⟨fun trapped => trapped.space space, ?_⟩
      rfl
    | some present =>
      cases inside : (t.threads id).inInterrupt with
      | true => exact .inl ⟨⟨activates, by simp [space], inside⟩, by simp [kassert]⟩
      | false =>
        refine .inr ⟨fun trapped => ?_, by simp [kassert]⟩
        rw [trapped.inside] at inside
        cases inside
  · exact .inr ⟨fun trapped => activates trapped.activates, by rw [if_neg activates]; rfl⟩

theorem ThreadOp.exec_quiet (inv : s.Inv) (quiet : s.Quiet) {op : ThreadOp} (enabled : op.Enabled s)
    (kernel : ¬ op.Preempts s) : ∃ t, op.exec s = .ok t ∧ t.Quiet := by
  have checked : op.check s = .ok () := by
    cases op with
    | sleep cpu => exact kassert_ok.mpr (quiet.current cpu).1
    | _ => rfl
  have kept := op.effect_inv inv enabled
  have res := quiet.effect inv enabled kernel
  generalize chosen : op.effect s = outcome at kept res
  cases res with
  | @stays t quiet =>
    refine ⟨t, ?_, quiet⟩
    rw [ThreadOp.exec, checked, chosen]
    rfl
  | @continues t cpu resuming =>
    refine ⟨_, ?_, resuming.quiet kept⟩
    obtain ⟨trapped, _⟩ | ⟨_, ran⟩ := op.exec_eq checked chosen
    · obtain ⟨free, _⟩ | ⟨_, _, gone⟩ := resuming.threads (t.curthread cpu)
      · rw [trapped.inside] at free
        cases free
      · exact absurd gone trapped.space
    · exact ran

theorem trips_of_queued (victim : ThreadId) (prev : List ThreadId) :
    ∀ (after : List ThreadId) {s : Sched}, s.Inv → (s.cpus cpu).isidle = false →
      (s.cpus cpu).runqueue = prev ++ victim :: after → s.Trapped victim →
      s.curthread cpu ≠ victim →
      Trips s (List.replicate (prev.length + 1) (.yield cpu)) := by
  induction prev with
  | nil =>
    intro after s inv busy queue trapped other
    obtain ⟨t, chosen, continues, _⟩ := Sched.threadSwitch_ready (inv.current cpu) busy queue
    obtain ⟨_, stopped⟩ | ⟨free, _⟩ := ThreadOp.exec_eq (.yield cpu) rfl chosen
    · exact .here busy stopped
    · exact absurd (trapped.continues continues other.symm) free
  | cons next prev ih =>
    intro after s inv busy queue trapped other
    obtain ⟨t, chosen, continues, here⟩ := Sched.threadSwitch_ready (inv.current cpu) busy queue
    obtain ⟨_, stopped⟩ | ⟨_, ran⟩ := ThreadOp.exec_eq (.yield cpu) rfl chosen
    · exact .here busy stopped
    · have step : ThreadStep s (.yield cpu) (t.trapReturn next) := ⟨busy, ran⟩
      have distinct := inv.queues cpu
      rw [queue, cons_append, nodup_cons] at distinct
      have differ : victim ≠ next := fun same => distinct.1 (same ▸ by simp)
      refine .later step (ih (after ++ [s.curthread cpu]) (step.inv inv) ?_ ?_ ?_ ?_)
      · rw [trapReturn_cpus, here]
      · rw [trapReturn_cpus, here]
        exact append_assoc prev (victim :: after) [s.curthread cpu]
      · exact (trapped.continues continues other.symm).trapReturn differ
      · rw [trapReturn_curthread, continues.current]
        exact differ.symm

theorem ThreadOp.Preempts.trips (inv : s.Inv) (preempts : ThreadOp.Preempts s (.timer cpu)) :
    Trips s (.timer cpu :: List.replicate (s.cpus cpu).runqueue.length (.yield cpu)) := by
  obtain ⟨busy, waiting, space⟩ := preempts
  obtain ⟨next, rest, queue⟩ := exists_cons_of_ne_nil waiting
  have differ : s.curthread cpu ≠ next := by
    intro same
    have out := (inv.running cpu busy).1
    rw [queue] at out
    exact out (same ▸ mem_cons_self)
  have home : ((s.trapEnter (s.curthread cpu)).threads
      ((s.trapEnter (s.curthread cpu)).curthread cpu)).cpu = cpu := by
    unfold Sched.trapEnter
    rw [setThread_curthread, setThread_self]
    exact inv.current cpu
  obtain ⟨t, switched, continues, here⟩ := Sched.threadSwitch_ready home busy queue
  have chosen : ThreadOp.effect s (.timer cpu) = (t, some next) := by
    simp only [ThreadOp.effect, switched]
  obtain ⟨_, stopped⟩ | ⟨_, ran⟩ := ThreadOp.exec_eq (.timer cpu) rfl chosen
  · exact .here trivial stopped
  · have step : ThreadStep s (.timer cpu) (t.trapReturn next) := ⟨trivial, ran⟩
    have victim : t.threads (s.curthread cpu) = { s.threads (s.curthread cpu) with
        inInterrupt := true, oldIn := some (s.threads (s.curthread cpu)).inInterrupt
        next := some next } := by
      rw [continues.threads]
      simp only [Sched.trapEnter, setThread_curthread, setThread_self, update_self]
    have trapped : t.Trapped (s.curthread cpu) := by
      refine ⟨?_, ?_, ?_⟩
      · rw [Sched.activates, victim]
        exact fun same => differ (Option.some.inj same).symm
      · rw [victim]
        exact space
      · rw [victim]
    rw [queue]
    refine .later step (trips_of_queued (s.curthread cpu) rest [] (step.inv inv) ?_ ?_ ?_ ?_)
    · rw [trapReturn_cpus, here]
    · rw [trapReturn_cpus, here]
      rfl
    · exact trapped.trapReturn differ
    · rw [trapReturn_curthread, continues.current]
      exact differ.symm

/-- One operation that preempts no thread with an address space. -/
structure QuietStep (s : Sched) (op : ThreadOp) (t : Sched) : Prop where
  step : ThreadStep s op t
  kernel : ¬ op.Preempts s

/-- Every operation returns until the timer preempts a thread with an address space. -/
theorem preemption_safe_between_programs {s : Sched} (inv : s.Inv)
    (fresh : ∀ id, (s.threads id).inInterrupt = false ∧ (s.threads id).oldIn = none) :
    (∀ ops t (op : ThreadOp), Run QuietStep s ops t → op.Enabled t → ¬ op.Preempts t →
        ∃ u, op.exec t = .ok u) ∧
      ∀ ops t cpu, Run ThreadStep s ops t → ThreadOp.Preempts t (.timer cpu) →
        Trips t (.timer cpu :: List.replicate (t.cpus cpu).runqueue.length (.yield cpu)) := by
  constructor
  · intro ops t op reached enabled kernel
    have invariant : t.Inv ∧ t.Quiet := by
      refine reached.invariant (fun (state : Sched) action next (before : state.Inv ∧ state.Quiet)
        moved => ?_) ⟨inv, fun id => .inl (fresh id), fun cpu => fresh _⟩
      obtain ⟨last, returned, quiet⟩ :=
        action.exec_quiet before.1 before.2 moved.step.enabled moved.kernel
      rw [moved.step.returned, Except.ok.injEq] at returned
      exact ⟨moved.step.inv before.1, returned ▸ quiet⟩
    obtain ⟨u, returned, _⟩ := op.exec_quiet invariant.1 invariant.2 enabled kernel
    exact ⟨u, returned⟩
  · intro ops t cpu reached preempts
    have invariant : t.Inv := reached.invariant
      (fun (state : Sched) _ _ (before : state.Inv) moved => moved.inv before) inv
    exact preempts.trips invariant

/-- Two programs on processor 0, of which the first runs. The other processors are idle. -/
def twoPrograms : Sched where
  threads := fun id => Thread.create (id - 1) (if id < 2 then some id else none)
  cpus := fun cpu =>
    if cpu = 0 then { curthread := 0, runqueue := [1], isidle := false }
    else { curthread := cpu + 1, runqueue := [], isidle := true }
  sleepers := []

theorem twoPrograms_inv : twoPrograms.Inv := by
  constructor
  · intro cpu
    by_cases first : cpu = 0
    · subst first
      rfl
    · simp [twoPrograms, Sched.curthread, Thread.create, first]
  · intro cpu id mem
    by_cases first : cpu = 0
    · subst first
      rw [mem_singleton.mp mem]
      rfl
    · simp [twoPrograms, first] at mem
  · intro cpu busy
    by_cases first : cpu = 0
    · subst first
      decide
    · simp [twoPrograms, first] at busy
  · exact fun id mem => absurd mem not_mem_nil
  · intro cpu
    by_cases first : cpu = 0
    · subst first
      decide
    · simp [twoPrograms, first]
  · decide

/-- Two programs may yield to each other until one is preempted. -/
theorem preemption_safe_twoPrograms :
    (∃ t, ThreadOp.exec twoPrograms (.yield 0) = .ok t) ∧
      Trips twoPrograms [.timer 0, .yield 0] := by
  obtain ⟨returns, trips⟩ :=
    preemption_safe_between_programs twoPrograms_inv fun _ => ⟨rfl, rfl⟩
  exact ⟨returns [] _ (.yield 0) (.nil _) rfl not_false,
    trips [] _ 0 (.nil _) ⟨rfl, by decide, by decide⟩⟩

/-- The preempted program continues in its interrupt and fails an assertion. -/
theorem preemption_trips_lock : ∃ t, ThreadStep twoPrograms (.timer 0) t ∧
    ThreadOp.Enabled t (.yield 0) ∧
    ThreadOp.exec t (.yield 0) = .error (.assertion "curthread->t_in_interrupt == false") :=
  ⟨_, ⟨trivial, rfl⟩, rfl, rfl⟩

end Os161.Threads
