import Os161.Threads.Placement
import Os161.Vm.Copy

namespace Os161.Threads
open Word Vm Transition Function

/-- One processor with its translation buffer, the address spaces and, for every thread, how many of
its calls of `as_activate` have still to write the buffer. Each slot of the buffer has the owner for
which `vm_fault` wrote it. -/
structure System where
  sched : Sched
  machine : Machine
  spaces : SpaceId → AddrSpace
  loaded : SpaceId → Bool
  pending : ThreadId → Nat
  owner : Nat → SpaceId

def System.cur (s : System) : ThreadId := s.sched.curthread 0

def System.space (s : System) : Option SpaceId := (s.sched.threads s.cur).space

/-- The operations of the only processor. -/
def ThreadOp.Single : ThreadOp → Prop
  | .timer cpu => cpu = 0
  | .yield cpu => cpu = 0
  | .sleep cpu => cpu = 0
  | .exit cpu => cpu = 0
  | .unidle cpu => cpu = 0
  | .fork cpu _ _ => cpu = 0
  | .wake _ => True
  | .shuffle cpu _ => cpu = 0
  | .setas _ _ => False
  | .migrate _ _ _ => False

/-- The thread behind `switchframe_switch` calls `as_activate` unless it has switched to itself. -/
def System.resume (s : System) : Sched × Option ThreadId → System
  | (t, none) => { s with sched := t }
  | (t, some id) =>
    { s with
      sched := t.trapReturn id
      pending :=
        if t.activates id then update s.pending id (s.pending id + 1) else s.pending }

inductive SystemOp where
  | switch (op : ThreadOp)
  | setas (id : SpaceId)
  | activate
  | prepare (id : SpaceId)
  | fault (faulttype : FaultType) (faultaddress : Vaddr)
  | kernel

/-- One step of the processor. The kernel calls `as_activate` after `curproc_setas`; a thread may
sleep on the lock in `as_activate` before it writes the buffer. What `as_create`, `load_elf` and
`as_copy` write is arbitrary, but they write only to an address space that no thread uses yet. -/
inductive SystemStep : System → SystemOp → System → Prop where
  | switch {s : System} {op : ThreadOp} (single : op.Single) (enabled : op.Enabled s.sched) :
      SystemStep s (.switch op) (s.resume (op.effect s.sched))
  | setas {s : System} {id : SpaceId} (running : (s.sched.cpus 0).isidle = false) :
      SystemStep s (.setas id)
        { s with
          sched := (ThreadOp.effect s.sched (.setas 0 id)).1
          pending := update s.pending s.cur (s.pending s.cur + 1) }
  | activate {s : System} (running : (s.sched.cpus 0).isidle = false)
      (called : s.pending s.cur ≠ 0) :
      SystemStep s .activate
        { s with
          machine := asActivate (s.space.map s.spaces) s.machine
          pending := update s.pending s.cur (s.pending s.cur - 1) }
  | prepare {s : System} {id : SpaceId} {space : AddrSpace} {done : Bool}
      (unused : s.loaded id = false) :
      SystemStep s (.prepare id)
        { s with
          spaces := update s.spaces id space
          loaded := update s.loaded id done }
  | fault {s : System} {id : SpaceId} {files : Files} {faulttype : FaultType} {faultaddress : Vaddr}
      {space : AddrSpace} {next : Machine} (running : (s.sched.cpus 0).isidle = false)
      (activated : s.pending s.cur = 0) (current : s.space = some id) (ready : s.loaded id = true)
      (returned : vmFault files faulttype faultaddress (some (s.spaces id)) s.machine =
        .ok (0, some space, next)) :
      SystemStep s (.fault faulttype faultaddress)
        { s with
          machine := next
          spaces := update s.spaces id space
          owner := fun slot => if next.tlb slot = s.machine.tlb slot then s.owner slot else id }
  | kernel {s : System} {next : Machine} (tlb : next.tlb = s.machine.tlb) :
      SystemStep s .kernel { s with machine := next }

/-- The entry translates a page of the address space to the frame of its valid entry there. -/
def Backs (as : AddrSpace) (entry : TlbEntry) : Prop :=
  ∃ region vpn pte, as.locate entry.ehi = some (region, vpn) ∧ as.pteAt region vpn = .ok pte ∧
    pte.valid = true ∧ pageMask entry.elo = pte.pfn

/-- A thread that is not the current one did not switch to itself. -/
def Sched.Away (s : Sched) : Prop :=
  ∀ id, id ≠ s.curthread 0 → (s.threads id).next ≠ some id

/-- What an operation does to the current thread of the only processor. -/
inductive Switched (s : Sched) : Sched × Option ThreadId → Prop where
  | stays {t : Sched} (away : t.Away) (current : t.curthread 0 = s.curthread 0)
      (space : ∀ id, (t.threads (s.curthread 0)).space = some id →
        (s.threads (s.curthread 0)).space = some id) : Switched s (t, none)
  | continues {t : Sched} {next : ThreadId} (away : t.Away) (current : t.curthread 0 = next)
      (unswitched : ¬ t.activates next → next = s.curthread 0 ∧
        ∀ id, (t.threads next).space = some id → (s.threads next).space = some id) :
      Switched s (t, some next)

theorem Sched.Continues.switched {s t : Sched} {next : ThreadId} (continues : s.Continues 0 t next)
    (away : s.Away) : Switched s (t, some next) := by
  have changed {id : ThreadId} (other : id ≠ s.curthread 0) : t.threads id = s.threads id := by
    rw [continues.threads, update_of_ne other]
  have left : t.threads (s.curthread 0) =
      { s.threads (s.curthread 0) with next := some next } := by
    rw [continues.threads, update_self]
  refine .continues ?_ continues.current ?_
  · intro id other
    rw [continues.current] at other
    by_cases here : id = s.curthread 0
    · rw [here, left]
      exact fun same => other (here ▸ (Option.some.inj same).symm)
    · rw [changed here]
      exact away id here
  · intro silent
    have here : next = s.curthread 0 := by
      by_contra other
      rw [Sched.activates, changed other, not_not] at silent
      exact away next other silent
    refine ⟨here, ?_⟩
    rw [here, left]
    exact fun _ same => same

theorem Sched.Stays.switched {s t : Sched} (stays : s.Stays t) (away : s.Away) :
    Switched s (t, none) := by
  refine .stays ?_ (stays.current 0) ?_
  · intro id other
    rw [stays.current] at other
    rw [stays.threads]
    exact away id other
  · rw [stays.threads]
    exact fun _ same => same

theorem Sched.Away.threadSwitch {s : Sched} (away : s.Away) (newstate : ThreadState) :
    Switched s (s.threadSwitch newstate 0) := by
  obtain ⟨t, ran, stays⟩ | ⟨t, next, chosen, continues⟩ := s.threadSwitch_cases newstate 0
  · rw [ran]
    exact stays.switched away
  · rw [chosen]
    exact continues.switched away

theorem Switched.of_setThread {s : Sched} {id : ThreadId} {thread : Thread}
    {res : Sched × Option ThreadId}
    (space : ∀ other, thread.space = some other → (s.threads id).space = some other)
    (switched : Switched (s.setThread id thread) res) : Switched s res := by
  have kept (place : ThreadId) (other : SpaceId)
      (same : ((s.setThread id thread).threads place).space = some other) :
      (s.threads place).space = some other := by
    by_cases here : place = id
    · subst here
      rw [setThread_self] at same
      exact space other same
    · rw [setThread_of_ne _ _ _ _ here] at same
      exact same
  cases switched with
  | stays away current same => exact .stays away current fun other here => kept _ _ (same other here)
  | continues away current unswitched =>
    refine .continues away current fun silent => ?_
    obtain ⟨here, same⟩ := unswitched silent
    exact ⟨here, fun other present => kept _ _ (same other present)⟩

theorem Sched.Away.setThread {s : Sched} (away : s.Away) {id : ThreadId} {thread : Thread}
    (same : thread.next = (s.threads id).next) : (s.setThread id thread).Away := by
  intro other differ
  by_cases here : other = id
  · subst here
    rw [setThread_self, same]
    exact away other differ
  · rw [setThread_of_ne _ _ _ _ here]
    exact away other differ

theorem Sched.Away.trapReturn {s : Sched} (away : s.Away) (id : ThreadId) :
    (s.trapReturn id).Away := by
  unfold Sched.trapReturn
  split
  · exact away
  · exact away.setThread rfl

theorem trapReturn_space (s : Sched) (id other : ThreadId) :
    ((s.trapReturn id).threads other).space = (s.threads other).space := by
  unfold Sched.trapReturn
  split
  · rfl
  · by_cases here : other = id
    · rw [here, setThread_self]
    · rw [setThread_of_ne _ _ _ _ here]

theorem Sched.Away.effect {s : Sched} (away : s.Away) {op : ThreadOp} (single : op.Single)
    (enabled : op.Enabled s) : Switched s (op.effect s) := by
  cases op with
  | timer cpu =>
    cases single
    have entered : (s.trapEnter (s.curthread 0)).Away := away.setThread rfl
    have switched := entered.threadSwitch .ready
    generalize chosen : (s.trapEnter (s.curthread 0)).threadSwitch .ready 0 = res at switched
    have prev : Switched s res := by
      refine switched.of_setThread ?_
      exact fun _ same => same
    simp only [ThreadOp.effect, chosen]
    cases prev with
    | stays away current space =>
      refine .stays (away.trapReturn _) (trapReturn_curthread ..|>.trans current) ?_
      intro id same
      rw [trapReturn_space] at same
      exact space id same
    | continues away current unswitched => exact .continues away current unswitched
  | yield cpu =>
    cases single
    exact away.threadSwitch .ready
  | sleep cpu =>
    cases single
    exact away.threadSwitch .sleep
  | exit cpu =>
    cases single
    have detached : (s.setThread (s.curthread 0)
      { s.threads (s.curthread 0) with space := none }).Away := away.setThread rfl
    refine (detached.threadSwitch .zombie).of_setThread ?_
    intro other present
    cases present
  | unidle cpu =>
    cases single
    obtain waiting | ⟨t, next, chosen, continues⟩ := s.getNext_cases 0
    · rw [ThreadOp.effect, waiting]
      exact Sched.Stays.switched ⟨fun _ => rfl, rfl⟩ away
    · rw [ThreadOp.effect, chosen]
      exact continues.switched away
  | fork cpu child space =>
    cases single
    obtain ⟨_, _, gone⟩ := enabled
    have other : s.curthread 0 ≠ child := (gone 0).1.symm
    refine .stays ?_ (makeRunnable_curthread ..) ?_
    · intro id differ
      rw [makeRunnable_curthread] at differ
      rw [(makeRunnable_stays _ child).threads]
      by_cases here : id = child
      · rw [here, setThread_self]
        exact nofun
      · rw [setThread_of_ne _ _ _ _ here]
        exact away id differ
    · intro id same
      rw [(makeRunnable_stays _ child).threads, setThread_of_ne _ _ _ _ other] at same
      exact same
  | wake id =>
    have woken := makeRunnable_stays { s with sleepers := s.sleepers.erase id } id
    exact Sched.Stays.switched ⟨woken.current, woken.threads⟩ away
  | shuffle cpu queue => exact (s.setQueue_stays cpu queue).switched away
  | setas | migrate => cases single

/-- Every valid slot translates a page of its owner, and the owner is the address space of the
current thread once this thread has activated it. -/
structure System.Inv (s : System) : Prop where
  away : s.sched.Away
  entries : ∀ slot < numTlb, (s.machine.tlb slot).Valid →
    s.loaded (s.owner slot) = true ∧ Backs (s.spaces (s.owner slot)) (s.machine.tlb slot)
  current : s.pending s.cur = 0 → ∀ id, s.space = some id →
    ∀ slot < numTlb, (s.machine.tlb slot).Valid → s.owner slot = id

theorem System.Inv.resume {s : System} (inv : s.Inv) (switched : Switched s.sched res) :
    (s.resume res).Inv := by
  cases switched with
  | @stays t away current space =>
    refine ⟨away, inv.entries, ?_⟩
    intro activated id present
    have here : (s.resume (t, none)).cur = s.cur := current
    rw [here] at activated
    rw [System.space, here] at present
    exact inv.current activated id (space id present)
  | @continues t next away current unswitched =>
    refine ⟨away.trapReturn next, inv.entries, ?_⟩
    intro activated id present
    have here : (s.resume (t, some next)).cur = next :=
      (trapReturn_curthread t next 0).trans current
    rw [here] at activated
    rw [System.space, here] at present
    by_cases activates : t.activates next
    · simp [System.resume, activates] at activated
    · obtain ⟨same, space⟩ := unswitched activates
      simp only [System.resume, activates] at activated
      have prev : (t.threads next).space = some id := (trapReturn_space t next next) ▸ present
      have idle : s.pending s.cur = 0 := by
        rw [System.cur, ← same]
        exact activated
      refine inv.current idle id ?_
      rw [System.space, System.cur, ← same]
      exact space id prev

theorem FaultEffect.backs (effect : FaultEffect files page as m space core) (backs : Backs as entry) :
    Backs space entry := by
  obtain ⟨region, vpn, pte, spot, found, valid, frame⟩ := backs
  exact ⟨region, vpn, pte, (AddrSpace.locate_layout effect.layout _).trans spot,
    effect.kept found valid, valid, frame⟩

theorem SystemStep.inv {s t : System} {op : SystemOp} (step : SystemStep s op t) (inv : s.Inv) :
    t.Inv := by
  cases step with
  | switch single enabled => exact inv.resume (inv.away.effect single enabled)
  | @setas id running =>
    refine ⟨inv.away.setThread rfl, inv.entries, ?_⟩
    intro activated
    have pending := update_self s.cur (s.pending s.cur + 1) s.pending
    exact absurd (pending.symm.trans activated) (Nat.succ_ne_zero _)
  | activate running called =>
    cases present : s.space with
    | none =>
      refine ⟨inv.away, inv.entries, ?_⟩
      intro _ id same
      cases present.symm.trans same
    | some id =>
      have empty := asActivate_empty (s.spaces id) s.machine
      refine ⟨inv.away, ?_, ?_⟩
      · intro slot inside valid
        exact absurd valid (empty slot inside)
      · intro _ _ _ slot inside valid
        exact absurd valid (empty slot inside)
  | @prepare id space done unused =>
    refine ⟨inv.away, ?_, inv.current⟩
    intro slot inside valid
    obtain ⟨ready, backs⟩ := inv.entries slot inside valid
    have other : s.owner slot ≠ id := by
      intro same
      rw [same, unused] at ready
      cases ready
    dsimp only
    rw [update_of_ne other, update_of_ne other]
    exact ⟨ready, backs⟩
  | @fault id files kind faultaddress space next running activated current ready ran =>
    have effect := vmFault_effect ran
    have older {slot : Nat} (inside : slot < numTlb) (valid : (s.machine.tlb slot).Valid) :
        s.owner slot = id ∧ Backs space (s.machine.tlb slot) := by
      have mine := inv.current activated id current slot inside valid
      obtain ⟨_, backs⟩ := inv.entries slot inside valid
      rw [mine] at backs
      exact ⟨mine, FaultEffect.backs effect backs⟩
    have translated : ∀ slot < numTlb, (next.tlb slot).Valid →
        (if next.tlb slot = s.machine.tlb slot then s.owner slot else id) = id ∧
          Backs space (next.tlb slot) := by
      intro slot inside valid
      by_cases same : next.tlb slot = s.machine.tlb slot
      · rw [if_pos same]
        rw [same] at valid ⊢
        exact older inside valid
      · rw [if_neg same]
        refine ⟨rfl, ?_⟩
        obtain unchanged | ⟨elo, region, vpn, entry, new, _, spot, found, present, frame, _⟩ :=
          vmFault_slot ran slot
        · exact absurd unchanged same
        · rw [new]
          exact ⟨region, vpn, entry, spot, found, present, frame⟩
    refine ⟨inv.away, ?_, ?_⟩
    · intro slot inside valid
      obtain ⟨mine, backs⟩ := translated slot inside valid
      dsimp only
      rw [mine, update_self]
      exact ⟨ready, backs⟩
    · intro _ other present slot inside valid
      cases current.symm.trans present
      exact (translated slot inside valid).1
  | kernel tlb =>
    refine ⟨inv.away, ?_, ?_⟩
    · rw [tlb]
      exact inv.entries
    · rw [tlb]
      exact inv.current

/-- After `as_activate` every valid slot belongs to the current address space. -/
theorem translations_follow_switches {s t : System}
    (empty : ∀ slot < numTlb, ¬ (s.machine.tlb slot).Valid)
    (unswitched : ∀ id, (s.sched.threads id).next = none) {ops : List SystemOp}
    (reached : Run SystemStep s ops t) (activated : t.pending t.cur = 0) {id : SpaceId}
    (current : t.space = some id) :
    ∀ slot < numTlb, (t.machine.tlb slot).Valid →
      t.owner slot = id ∧ ∃ region vpn pte,
        (t.spaces id).locate (t.machine.tlb slot).ehi = some (region, vpn) ∧
        (t.spaces id).pteAt region vpn = .ok pte ∧ pte.valid = true ∧
        pageMask (t.machine.tlb slot).elo = pte.pfn := by
  have start : s.Inv := by
    refine ⟨?_, ?_, ?_⟩
    · intro id _
      rw [unswitched id]
      exact nofun
    · intro slot inside valid
      exact absurd valid (empty slot inside)
    · intro _ _ _ slot inside valid
      exact absurd valid (empty slot inside)
  have inv : t.Inv :=
    reached.invariant (fun (state : System) _ _ (before : state.Inv) step => step.inv before) start
  intro slot inside valid
  have mine := inv.current activated id current slot inside valid
  obtain ⟨_, backs⟩ := inv.entries slot inside valid
  rw [mine] at backs
  exact ⟨mine, backs⟩

/-- Two processes on one processor with eight free frames. -/
def twoProcesses : System where
  sched := {
    threads := fun id => Thread.create 0 (some id)
    cpus := fun _ => { curthread := 0, runqueue := [1], isidle := false }
    sleepers := [] }
  machine := Machine.idle (booted eightFrames fun _ => 0)
  spaces := fun _ => smallProgram
  loaded := fun _ => true
  pending := fun _ => 0
  owner := fun _ => 0

/-- After a switch and a fault only the second process has a translation. -/
theorem translations_follow_yield :
    ∃ t, Run SystemStep twoProcesses [.switch (.yield 0), .activate, .fault .read 0x400000] t ∧
      (t.machine.tlb 0).Valid ∧ t.space = some 1 ∧ t.owner 0 = 1 := by
  have returned : vmFault zeroFiles .read 0x400000 (some smallProgram)
    (asActivate (some smallProgram) twoProcesses.machine) = .ok (0, some _, _) := rfl
  have reached : Run SystemStep twoProcesses
      [.switch (.yield 0), .activate, .fault .read 0x400000] _ :=
    .cons (.switch rfl rfl) (.cons (.activate rfl (by decide))
      (.single (.fault rfl rfl rfl rfl returned)))
  have mine := translations_follow_switches (fun slot _ => invalid_slot slot) (fun _ => rfl) reached
    rfl rfl 0 (by decide) (by decide)
  exact ⟨_, reached, by decide, rfl, mine.1⟩

end Os161.Threads
