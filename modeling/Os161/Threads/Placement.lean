import Os161.Threads.Switch
import Os161.Lib.Transition
import Mathlib.Data.List.Perm.Basic

namespace Os161.Threads
open Outcome Transition Function List

section

variable (s : Sched) (id other : ThreadId) (thread : Thread) (cpu : CpuId) (c : Cpu)

@[simp] theorem setThread_self : (s.setThread id thread).threads id = thread :=
  update_self ..

theorem setThread_of_ne (differ : other ≠ id) :
    (s.setThread id thread).threads other = s.threads other :=
  update_of_ne differ ..

@[simp] theorem setThread_cpus : (s.setThread id thread).cpus = s.cpus := rfl

@[simp] theorem setThread_curthread : (s.setThread id thread).curthread cpu = s.curthread cpu := rfl

@[simp] theorem setThread_same : s.setThread id (s.threads id) = s := by
  simp [Sched.setThread]

@[simp] theorem setThread_twice (again : Thread) :
    (s.setThread id thread).setThread id again = s.setThread id again := by
  simp [Sched.setThread]

@[simp] theorem setCpu_self : (s.setCpu cpu c).cpus cpu = c := update_self ..

theorem setCpu_of_ne (differ : processor ≠ cpu) : (s.setCpu cpu c).cpus processor = s.cpus processor :=
  update_of_ne differ ..

theorem setCpu_curthread_of_ne (differ : processor ≠ cpu) :
    (s.setCpu cpu c).curthread processor = s.curthread processor := by
  rw [Sched.curthread, setCpu_of_ne _ _ _ differ, Sched.curthread]

end

variable {id : ThreadId}

theorem trapReturn_of_ne (s : Sched) (differ : other ≠ id) :
    (s.trapReturn id).threads other = s.threads other := by
  unfold Sched.trapReturn
  split
  · rfl
  · exact setThread_of_ne _ _ _ _ differ

@[simp] theorem trapReturn_cpus (s : Sched) (id : ThreadId) : (s.trapReturn id).cpus = s.cpus := by
  unfold Sched.trapReturn
  split <;> rfl

@[simp] theorem trapReturn_curthread (s : Sched) (id : ThreadId) (cpu : CpuId) :
    (s.trapReturn id).curthread cpu = s.curthread cpu := by
  unfold Sched.trapReturn
  split <;> rfl

/-- No thread has continued behind `switchframe_switch`. -/
structure Sched.Stays (s t : Sched) : Prop where
  current : ∀ cpu, t.curthread cpu = s.curthread cpu
  threads : t.threads = s.threads

/-- The processor has left its current thread and continues with the next one. -/
structure Sched.Continues (s : Sched) (cpu : CpuId) (t : Sched) (next : ThreadId) : Prop where
  current : t.curthread cpu = next
  others : ∀ other, other ≠ cpu → t.curthread other = s.curthread other
  threads : t.threads = update s.threads (s.curthread cpu)
    { s.threads (s.curthread cpu) with next := some next }

variable {s : Sched} {cpu : CpuId}

theorem Sched.Continues.of_stays {middle t : Sched} {next : ThreadId}
    (continues : middle.Continues cpu t next) (stays : s.Stays middle) :
    s.Continues cpu t next := by
  refine ⟨continues.current, ?_, ?_⟩
  · intro other differ
    exact (continues.others other differ).trans (stays.current other)
  · rw [continues.threads, stays.current, stays.threads]

/-- The processor continues with the head of its queue if there is one. -/
theorem Sched.getNext_cases (s : Sched) (cpu : CpuId) :
    s.getNext cpu = (s, none) ∨
      ∃ t next, s.getNext cpu = (t, some next) ∧ s.Continues cpu t next := by
  unfold Sched.getNext
  split
  · exact .inl rfl
  · rename_i next rest queue
    refine .inr ⟨_, next, rfl, ?_, ?_, rfl⟩
    · rw [Sched.curthread, setCpu_self]
    · intro other differ
      rw [setCpu_curthread_of_ne _ _ _ differ, setThread_curthread]

@[simp] theorem makeRunnable_curthread (s : Sched) (target : ThreadId) (cpu : CpuId) :
    (s.makeRunnable target).curthread cpu = s.curthread cpu := by
  unfold Sched.makeRunnable
  by_cases here : cpu = (s.threads target).cpu
  · rw [here, Sched.curthread, setCpu_self, Sched.curthread]
  · rw [setCpu_curthread_of_ne _ _ _ here]

theorem makeRunnable_stays (s : Sched) (target : ThreadId) : s.Stays (s.makeRunnable target) :=
  ⟨makeRunnable_curthread s target, rfl⟩

theorem Sched.setQueue_stays (s : Sched) (cpu : CpuId) (queue : List ThreadId) :
    s.Stays (s.setCpu cpu { s.cpus cpu with runqueue := queue }) := by
  refine ⟨?_, rfl⟩
  intro other
  by_cases here : other = cpu
  · rw [here, Sched.curthread, setCpu_self, Sched.curthread]
  · rw [setCpu_curthread_of_ne _ _ _ here]

theorem Sched.place_stays (s : Sched) (cur : ThreadId) (newstate : ThreadState) (cpu : CpuId) :
    s.Stays ((s.place cur newstate).setCpu cpu
      { (s.place cur newstate).cpus cpu with isidle := true }) := by
  have placed : s.Stays (s.place cur newstate) := by
    cases newstate with
    | ready => exact makeRunnable_stays s cur
    | sleep | zombie => exact ⟨fun _ => rfl, rfl⟩
  refine ⟨?_, placed.threads⟩
  intro other
  rw [← placed.current other]
  by_cases here : other = cpu
  · rw [here, Sched.curthread, setCpu_self, Sched.curthread]
  · rw [setCpu_curthread_of_ne _ _ _ here]

/-- A switch stays with its thread or continues with the next one. -/
theorem Sched.threadSwitch_cases (s : Sched) (newstate : ThreadState) (cpu : CpuId) :
    (∃ t, s.threadSwitch newstate cpu = (t, none) ∧ s.Stays t) ∨
      ∃ t next, s.threadSwitch newstate cpu = (t, some next) ∧ s.Continues cpu t next := by
  unfold Sched.threadSwitch
  dsimp only
  split
  · exact .inl ⟨s, rfl, fun _ => rfl, rfl⟩
  · split
    · exact .inl ⟨s, rfl, fun _ => rfl, rfl⟩
    · have placed := s.place_stays (s.curthread cpu) newstate cpu
      obtain waiting | ⟨t, next, chosen, continues⟩ := Sched.getNext_cases _ cpu
      · exact .inl ⟨_, waiting, placed⟩
      · exact .inr ⟨t, next, chosen, continues.of_stays placed⟩

theorem Sched.threadSwitch_ready {next : ThreadId} {rest : List ThreadId}
    (home : (s.threads (s.curthread cpu)).cpu = cpu) (busy : (s.cpus cpu).isidle = false)
    (queue : (s.cpus cpu).runqueue = next :: rest) :
    ∃ t, s.threadSwitch .ready cpu = (t, some next) ∧ s.Continues cpu t next ∧
      t.cpus cpu =
        { curthread := next, runqueue := rest ++ [s.curthread cpu], isidle := false } := by
  have placed : s.place (s.cpus cpu).curthread .ready = s.setCpu cpu
      { s.cpus cpu with runqueue := next :: (rest ++ [s.curthread cpu]) } := by
    show s.makeRunnable (s.curthread cpu) = _
    simp only [Sched.makeRunnable, home, queue, cons_append]
  obtain ⟨t, chosen, here⟩ : ∃ t, s.threadSwitch .ready cpu = (t, some next) ∧ t.cpus cpu =
      { curthread := next, runqueue := rest ++ [s.curthread cpu], isidle := false } := by
    unfold Sched.threadSwitch
    rw [if_neg (by simp [busy]), if_neg (by simp [queue]), placed]
    simp only [Sched.getNext, setCpu_self]
    exact ⟨_, rfl, setCpu_self ..⟩
  refine ⟨t, chosen, ?_, here⟩
  obtain ⟨t, ran, _⟩ | ⟨t, other, switched, continues⟩ := s.threadSwitch_cases .ready cpu
  · rw [chosen] at ran
    cases ran
  · rw [chosen] at switched
    cases switched
    exact continues

/-- A thread is in one place: it runs on its processor, waits in the run queue of its processor or
sleeps. -/
structure Sched.Inv (s : Sched) : Prop where
  current : ∀ cpu, (s.threads (s.curthread cpu)).cpu = cpu
  queued : ∀ cpu, ∀ id ∈ (s.cpus cpu).runqueue, (s.threads id).cpu = cpu
  running : ∀ cpu, (s.cpus cpu).isidle = false →
    s.curthread cpu ∉ (s.cpus cpu).runqueue ∧ s.curthread cpu ∉ s.sleepers
  asleep : ∀ id ∈ s.sleepers, ∀ cpu, id ∉ (s.cpus cpu).runqueue
  queues : ∀ cpu, (s.cpus cpu).runqueue.Nodup
  channels : s.sleepers.Nodup

section

variable (inv : s.Inv)
include inv

theorem Sched.Inv.curthread_ne (differ : other ≠ cpu) : s.curthread other ≠ s.curthread cpu := by
  intro same
  have place := inv.current other
  rw [same, inv.current cpu] at place
  exact differ place.symm

theorem Sched.Inv.setThread {thread : Thread} (same : thread.cpu = (s.threads id).cpu) :
    (s.setThread id thread).Inv := by
  have kept (other : ThreadId) :
      ((s.setThread id thread).threads other).cpu = (s.threads other).cpu := by
    by_cases here : other = id
    · rw [here, setThread_self, same]
    · rw [setThread_of_ne _ _ _ _ here]
  constructor
  · intro cpu
    rw [kept]
    exact inv.current cpu
  · intro cpu other mem
    rw [kept]
    exact inv.queued cpu other mem
  · exact inv.running
  · exact inv.asleep
  · exact inv.queues
  · exact inv.channels

theorem Sched.Inv.setAbsent (gone : ∀ cpu, id ≠ s.curthread cpu ∧ id ∉ (s.cpus cpu).runqueue)
    (thread : Thread) : (s.setThread id thread).Inv := by
  constructor
  · intro cpu
    rw [setThread_curthread, setThread_of_ne _ _ _ _ (gone cpu).1.symm]
    exact inv.current cpu
  · intro cpu other mem
    have differ : other ≠ id := fun same => (gone cpu).2 (same ▸ mem)
    rw [setThread_of_ne _ _ _ _ differ]
    exact inv.queued cpu other mem
  · exact inv.running
  · exact inv.asleep
  · exact inv.queues
  · exact inv.channels

theorem Sched.Inv.setCpu {c : Cpu} (current : (s.threads c.curthread).cpu = cpu)
    (queued : ∀ id ∈ c.runqueue, (s.threads id).cpu = cpu)
    (running : c.isidle = false → c.curthread ∉ c.runqueue ∧ c.curthread ∉ s.sleepers)
    (asleep : ∀ id ∈ s.sleepers, id ∉ c.runqueue) (distinct : c.runqueue.Nodup) : (s.setCpu cpu c).Inv := by
  constructor
  · intro other
    by_cases here : other = cpu
    · subst here
      rw [Sched.curthread, setCpu_self]
      exact current
    · rw [Sched.curthread, setCpu_of_ne _ _ _ here]
      exact inv.current other
  · intro other
    by_cases here : other = cpu
    · subst here
      rw [setCpu_self]
      exact queued
    · rw [setCpu_of_ne _ _ _ here]
      exact inv.queued other
  · intro other
    rw [Sched.curthread]
    by_cases here : other = cpu
    · subst here
      rw [setCpu_self]
      exact running
    · rw [setCpu_of_ne _ _ _ here]
      exact inv.running other
  · intro id mem other
    by_cases here : other = cpu
    · subst here
      rw [setCpu_self]
      exact asleep id mem
    · rw [setCpu_of_ne _ _ _ here]
      exact inv.asleep id mem other
  · intro other
    by_cases here : other = cpu
    · subst here
      rw [setCpu_self]
      exact distinct
    · rw [setCpu_of_ne _ _ _ here]
      exact inv.queues other
  · exact inv.channels

theorem Sched.Inv.setIdle (cpu : CpuId) : (s.setCpu cpu { s.cpus cpu with isidle := true }).Inv :=
  inv.setCpu (inv.current cpu) (inv.queued cpu) nofun (fun id mem => inv.asleep id mem cpu)
    (inv.queues cpu)

theorem Sched.Inv.makeRunnable (unqueued : ∀ cpu, id ∉ (s.cpus cpu).runqueue) (awake : id ∉ s.sleepers)
    (stopped : ∀ cpu, (s.cpus cpu).isidle = false → id ≠ s.curthread cpu) : (s.makeRunnable id).Inv := by
  refine inv.setCpu (inv.current _) ?_ ?_ ?_ ?_
  · intro other mem
    rcases mem_append.mp mem with prev | last
    · exact inv.queued _ other prev
    · rw [mem_singleton.mp last]
  · intro busy
    obtain ⟨gone, sleepless⟩ := inv.running _ busy
    refine ⟨?_, sleepless⟩
    intro mem
    rcases mem_append.mp mem with prev | last
    · exact gone prev
    · exact stopped _ busy (mem_singleton.mp last).symm
  · intro other mem found
    rcases mem_append.mp found with prev | last
    · exact inv.asleep other mem _ prev
    · exact awake (mem_singleton.mp last ▸ mem)
  · exact nodup_append.mpr ⟨inv.queues _, nodup_singleton id, fun first mem last same =>
      fun equal => unqueued _ (mem_singleton.mp same ▸ equal ▸ mem)⟩

theorem Sched.Inv.getNext (cpu : CpuId) : (s.getNext cpu).1.Inv := by
  unfold Sched.getNext
  split
  · exact inv
  · rename_i next rest queue
    have queued := inv.queued cpu
    have distinct := inv.queues cpu
    rw [queue] at queued distinct
    have awake (id : ThreadId) (mem : id ∈ s.sleepers) : id ∉ next :: rest :=
      queue ▸ inv.asleep id mem cpu
    have renamed : (s.setThread (s.curthread cpu)
        { s.threads (s.curthread cpu) with next := some next }).Inv := inv.setThread rfl
    have kept (id : ThreadId) : ((s.setThread (s.curthread cpu)
        { s.threads (s.curthread cpu) with next := some next }).threads id).cpu =
          (s.threads id).cpu := by
      by_cases here : id = s.curthread cpu
      · rw [here, setThread_self]
      · rw [setThread_of_ne _ _ _ _ here]
    refine renamed.setCpu ?_ ?_ ?_ ?_ ?_
    · rw [kept]
      exact queued next mem_cons_self
    · intro id mem
      rw [kept]
      exact queued id (mem_cons_of_mem _ mem)
    · intro _
      exact ⟨(nodup_cons.mp distinct).1, fun mem => awake next mem mem_cons_self⟩
    · intro id mem found
      exact awake id mem (mem_cons_of_mem _ found)
    · exact (nodup_cons.mp distinct).2

/-- The thread that is left goes to the queue, to sleep or away. -/
theorem Sched.Inv.place (busy : (s.cpus cpu).isidle = false) (newstate : ThreadState) :
    ((s.place (s.curthread cpu) newstate).setCpu cpu
      { (s.place (s.curthread cpu) newstate).cpus cpu with isidle := true }).Inv := by
  obtain ⟨gone, sleepless⟩ := inv.running cpu busy
  have idle := inv.setIdle cpu
  have unqueued (other : CpuId) : s.curthread cpu ∉ (s.cpus other).runqueue := by
    intro mem
    have here := inv.queued other _ mem
    rw [inv.current] at here
    exact gone (here ▸ mem)
  cases newstate with
  | ready =>
    have same : (s.makeRunnable (s.curthread cpu)).setCpu cpu
        { (s.makeRunnable (s.curthread cpu)).cpus cpu with isidle := true } =
          (s.setCpu cpu { s.cpus cpu with isidle := true }).makeRunnable (s.curthread cpu) := by
      simp [Sched.makeRunnable, Sched.setCpu, inv.current]
    rw [Sched.place, same]
    refine idle.makeRunnable ?_ sleepless ?_
    · intro other
      by_cases here : other = cpu
      · rw [here, setCpu_self]
        exact gone
      · rw [setCpu_of_ne _ _ _ here]
        exact unqueued other
    · intro other running
      by_cases here : other = cpu
      · rw [here, setCpu_self] at running
        cases running
      · rw [setCpu_curthread_of_ne _ _ _ here]
        exact (inv.curthread_ne here).symm
  | sleep =>
    constructor
    · exact idle.current
    · exact idle.queued
    · intro other running
      obtain ⟨out, prev⟩ := idle.running other running
      refine ⟨out, ?_⟩
      intro mem
      rcases mem_append.mp mem with older | last
      · exact prev older
      · by_cases here : other = cpu
        · subst here
          rw [setCpu_self] at running
          cases running
        · rw [setCpu_curthread_of_ne _ _ _ here] at last
          exact inv.curthread_ne here (mem_singleton.mp last)
    · intro id mem other
      rcases mem_append.mp mem with older | last
      · exact idle.asleep id older other
      · rw [mem_singleton.mp last]
        by_cases here : other = cpu
        · rw [here, setCpu_self]
          exact gone
        · rw [setCpu_of_ne _ _ _ here]
          exact unqueued other
    · exact idle.queues
    · exact nodup_append.mpr ⟨inv.channels, nodup_singleton _, fun first mem last same =>
        fun equal => sleepless (mem_singleton.mp same ▸ equal ▸ mem)⟩
  | zombie => exact idle

theorem Sched.Inv.threadSwitch (newstate : ThreadState) (cpu : CpuId) :
    (s.threadSwitch newstate cpu).1.Inv := by
  unfold Sched.threadSwitch
  dsimp only
  split
  · exact inv
  · rename_i busy
    split
    · exact inv
    · exact (inv.place (Bool.eq_false_of_not_eq_true busy) newstate).getNext cpu

theorem Sched.Inv.trapReturn (id : ThreadId) : (s.trapReturn id).Inv := by
  unfold Sched.trapReturn
  split
  · exact inv
  · exact inv.setThread rfl

/-- One case for every operation of a thread. -/
theorem ThreadOp.effect_inv {op : ThreadOp} (enabled : op.Enabled s) : (op.effect s).1.Inv := by
  cases op with
  | timer cpu =>
    have entered : (s.trapEnter (s.curthread cpu)).Inv := inv.setThread rfl
    have switched := entered.threadSwitch .ready cpu
    unfold ThreadOp.effect
    dsimp only
    split
    · rename_i t same
      rw [same] at switched
      exact switched.trapReturn _
    · rename_i t id same
      rw [same] at switched
      exact switched
  | yield cpu => exact inv.threadSwitch .ready cpu
  | sleep cpu => exact inv.threadSwitch .sleep cpu
  | exit cpu =>
    have detached : (s.setThread (s.curthread cpu)
      { s.threads (s.curthread cpu) with space := none }).Inv := inv.setThread rfl
    exact detached.threadSwitch .zombie cpu
  | unidle cpu => exact inv.getNext cpu
  | fork cpu child space =>
    obtain ⟨_, awake, gone⟩ := enabled
    exact (inv.setAbsent gone _).makeRunnable (fun other => (gone other).2) awake
      fun other _ => (gone other).1
  | setas cpu space => exact inv.setThread rfl
  | wake id =>
    have woken : ({ s with sleepers := s.sleepers.erase id } : Sched).Inv := by
      constructor
      · exact inv.current
      · exact inv.queued
      · intro cpu busy
        exact ⟨(inv.running cpu busy).1, fun mem =>
          (inv.running cpu busy).2 (mem_of_mem_erase mem)⟩
      · intro other mem
        exact inv.asleep other (mem_of_mem_erase mem)
      · exact inv.queues
      · exact inv.channels.erase id
    refine woken.makeRunnable (inv.asleep id enabled) ?_ ?_
    · exact inv.channels.not_mem_erase
    · intro cpu busy same
      exact (inv.running cpu busy).2 (same ▸ enabled)
  | migrate cpu id target =>
    obtain ⟨mem, spared, _⟩ := enabled
    have place := inv.queued cpu id mem
    have left : (s.setCpu cpu
        { s.cpus cpu with runqueue := (s.cpus cpu).runqueue.erase id }).Inv := by
      refine inv.setCpu (inv.current cpu) ?_ ?_ ?_ ((inv.queues cpu).erase id)
      · intro other found
        exact inv.queued cpu other (mem_of_mem_erase found)
      · intro busy
        exact ⟨fun found => (inv.running cpu busy).1 (mem_of_mem_erase found),
          (inv.running cpu busy).2⟩
      · intro other asleep found
        exact inv.asleep other asleep cpu (mem_of_mem_erase found)
    have gone (other : CpuId) : id ≠ (s.setCpu cpu
        { s.cpus cpu with runqueue := (s.cpus cpu).runqueue.erase id }).curthread other ∧
        id ∉ ((s.setCpu cpu
          { s.cpus cpu with runqueue := (s.cpus cpu).runqueue.erase id }).cpus other).runqueue := by
      by_cases here : other = cpu
      · subst here
        rw [Sched.curthread, setCpu_self]
        exact ⟨spared, (inv.queues other).not_mem_erase⟩
      · rw [setCpu_curthread_of_ne _ _ _ here, setCpu_of_ne _ _ _ here]
        refine ⟨fun same => here ?_, fun found => here ?_⟩
        · rw [← inv.current other, ← same, place]
        · rw [← inv.queued other id found, place]
    exact (left.setAbsent gone _).makeRunnable (fun other => (gone other).2)
      (fun asleep => inv.asleep id asleep cpu mem) fun other _ => (gone other).1
  | shuffle cpu queue =>
    have members (id : ThreadId) : id ∈ queue ↔ id ∈ (s.cpus cpu).runqueue := enabled.mem_iff.symm
    refine inv.setCpu (inv.current cpu) ?_ ?_ ?_ ?_
    · intro id mem
      exact inv.queued cpu id ((members id).mp mem)
    · intro busy
      exact ⟨fun mem => (inv.running cpu busy).1 ((members _).mp mem),
        (inv.running cpu busy).2⟩
    · intro id asleep mem
      exact inv.asleep id asleep cpu ((members id).mp mem)
    · exact enabled.nodup_iff.mp (inv.queues cpu)

end

theorem ThreadStep.inv (step : ThreadStep s op t) (inv : s.Inv) : t.Inv := by
  have kept := op.effect_inv inv step.enabled
  have ran := step.returned
  rw [ThreadOp.exec, bind_ok] at ran
  obtain ⟨_, _, ran⟩ := ran
  split at ran
  · rename_i next same
    rw [same] at kept
    cases ran
    exact kept
  · rename_i next id same
    rw [same] at kept
    split at ran
    · obtain ⟨_, _, ran⟩ := bind_ok.mp ran
      cases ran
      exact kept.trapReturn id
    · cases ran
      exact kept.trapReturn id

end Os161.Threads
