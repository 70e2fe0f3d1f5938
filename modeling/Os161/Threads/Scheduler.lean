import Os161.Base
import Os161.Lib.Places
import Os161.Lib.Transition

namespace Os161.Scheduler
open Outcome Places Transition Function List

abbrev ThreadId := Nat

/-- A wait channel -/
abbrev ChannelId := Nat

/-- A call that may hold threads while it is in progress -/
abbrev CallId := Nat

/-- The threads that a call in progress holds in its local variables: what `wchan_wakeone` and
`wchan_wakeall` have taken from a channel, the new thread of `thread_fork`, the thread that `exorcise`
destroys -/
inductive Work where
  | wake (targets : List ThreadId)
  | fork (child : ThreadId)
  | cleanup (zombie : ThreadId)

def Work.threads : Work → List ThreadId
  | .wake targets => targets
  | .fork child => [child]
  | .cleanup zombie => [zombie]

/-- Where `thread_consider_migration` is: in its loop over the lengths of the run queues, or behind the
choice of its victims -/
inductive Migration where
  | counting (i mine total : Nat)
  | sending (share toSend i : Nat) (victims : List ThreadId)

def Migration.victims : Migration → List ThreadId
  | .counting _ _ _ => []
  | .sending _ _ _ victims => victims

/-- The processors, the threads and the lists that threads are on. A processor has left its thread from
the moment at which `thread_switch` has put that on a list until it takes the next one. -/
structure Sched (n : Nat) where
  cpu : ThreadId → Fin n
  alive : ThreadId → Bool
  curthread : Fin n → ThreadId
  left : Fin n → Bool
  isidle : Fin n → Bool
  runqueue : Fin n → List ThreadId
  zombies : Fin n → List ThreadId
  channel : ChannelId → List ThreadId
  work : CallId → Work
  migration : Fin n → Option Migration

/-- Where a thread can be -/
inductive Place (n : Nat) where
  | running (c : Fin n)
  | runqueue (c : Fin n)
  | zombies (c : Fin n)
  | channel (w : ChannelId)
  | operation (o : CallId)
  | victims (c : Fin n)
deriving DecidableEq

/-- What happens in one step -/
inductive Event (n : Nat) where
  | fork (o : CallId) (c : Fin n) (child : ThreadId)
  | forkFails (o : CallId)
  | makeRunnable (o : CallId)
  | wakeone (o : CallId) (w : ChannelId)
  | wakeall (o : CallId) (w : ChannelId)
  | ready (c : Fin n)
  | sleep (c : Fin n) (w : ChannelId)
  | exit (c : Fin n)
  | idle (c : Fin n)
  | next (c : Fin n)
  | exorcise (o : CallId) (c : Fin n)
  | destroy (o : CallId)
  | considerMigration (c : Fin n)
  | count (c : Fin n)
  | choose (c : Fin n)
  | send (c : Fin n)
  | putBack (c : Fin n)

/-- The loop that takes the victims from the tail of the run queue -/
def takeVictims : (toSend : Nat) → (queue victims : List ThreadId) → Kernel (List ThreadId × List ThreadId)
  | 0, queue, victims => .ok (queue, victims)
  | toSend + 1, queue, victims =>
    match queue.getLast? with
    | none => .error .nullPointer
    | some t => takeVictims toSend queue.dropLast (t :: victims)

namespace Sched

variable {n : Nat}

section

variable (s : Sched n)

def setQueue (c : Fin n) (queue : List ThreadId) : Sched n :=
  { s with runqueue := update s.runqueue c queue }

def setZombies (c : Fin n) (zombies : List ThreadId) : Sched n :=
  { s with zombies := update s.zombies c zombies }

def setChannel (w : ChannelId) (threads : List ThreadId) : Sched n :=
  { s with channel := update s.channel w threads }

def setWork (o : CallId) (work : Work) : Sched n := { s with work := update s.work o work }

def setMigration (c : Fin n) (migration : Option Migration) : Sched n :=
  { s with migration := update s.migration c migration }

def setCpu (t : ThreadId) (c : Fin n) : Sched n := { s with cpu := update s.cpu t c }

def setAlive (t : ThreadId) (alive : Bool) : Sched n := { s with alive := update s.alive t alive }

/-- The processor has put its thread on a list. -/
def leave (c : Fin n) : Sched n := { s with left := update s.left c true }

def setIdle (c : Fin n) (isidle : Bool) : Sched n :=
  { s with isidle := update s.isidle c isidle }

/-- The processor continues with a thread. -/
def resume (c : Fin n) (next : ThreadId) : Sched n :=
  { s with
    curthread := update s.curthread c next
    left := update s.left c false }

/-- `thread_make_runnable` -/
def enqueue (target : ThreadId) : Sched n :=
  s.setQueue (s.cpu target) (s.runqueue (s.cpu target) ++ [target])

end

variable (s : Sched n)

/-- `thread_switch` can be called: the processor runs a thread, and no interrupt handler is in the way. -/
def Running (c : Fin n) : Prop := s.left c = false ∧ (s.migration c).isNone

instance (c : Fin n) : Decidable (s.Running c) := inferInstanceAs (Decidable (_ ∧ _))

/-- `thread_switch` up to the loop that looks for the next thread -/
def switchAway (c : Fin n) (place : Sched n → ThreadId → Kernel (Sched n)) :
    Option (Kernel (Sched n)) :=
  if s.Running c then some (do
    let s ← place s (s.curthread c)
    return s.leave c)
  else none

/-- One step of `thread_consider_migration` behind the choice of the victims -/
def sendVictim (c : Fin n) (share toSend i : Nat) (victims : List ThreadId) : Option (Kernel (Sched n)) :=
  if inside : i < n ∧ 0 < toSend then
    let target : Fin n := ⟨i, inside.1⟩
    if target = c then some (.ok (s.setMigration c (some (.sending share toSend (i + 1) victims))))
    else if (s.runqueue target).length < share then
      match victims with
      | [] => some (.error .nullPointer)
      | t :: rest =>
        -- The thread that the processor has left must not go to another one.
        if t = s.curthread c then
          some (.ok (s.setMigration c (some (.sending share (toSend - 1) i (rest ++ [t])))))
        else
          some (.ok (((s.setCpu t target).setQueue target (s.runqueue target ++ [t])).setMigration c
            (some (.sending share (toSend - 1) i rest))))
    else some (.ok (s.setMigration c (some (.sending share toSend (i + 1) victims))))
  else none

/-- What a step does, if it can happen -/
def step : Event n → Option (Kernel (Sched n))
  | .fork o c child =>
    match s.work o with
    | .wake [] =>
      if s.Running c ∧ s.alive child = false then
        some (.ok (((s.setAlive child true).setCpu child (s.cpu (s.curthread c))).setWork o (.fork child)))
      else none
    | _ => none
  | .forkFails o =>
    match s.work o with
    | .fork child => some (.ok ((s.setAlive child false).setWork o (.wake [])))
    | _ => none
  | .makeRunnable o =>
    match s.work o with
    | .wake (target :: rest) => some (.ok ((s.enqueue target).setWork o (.wake rest)))
    | .fork child => some (.ok ((s.enqueue child).setWork o (.wake [])))
    | _ => none
  | .wakeone o w =>
    match s.work o, s.channel w with
    | .wake [], target :: rest => some (.ok ((s.setChannel w rest).setWork o (.wake [target])))
    | _, _ => none
  | .wakeall o w =>
    match s.work o with
    | .wake [] => some (.ok ((s.setChannel w []).setWork o (.wake (s.channel w))))
    | _ => none
  | .ready c =>
    if s.runqueue c = [] then none
    else s.switchAway c fun s cur => do
      -- The lock of this processor's run queue is the one that is held.
      kassert (s.cpu cur = c) "spinlock_do_i_hold(&targetcpu->c_runqueue_lock)"
      return s.enqueue cur
  | .sleep c w => s.switchAway c fun s cur => .ok (s.setChannel w (s.channel w ++ [cur]))
  | .exit c => s.switchAway c fun s cur => .ok (s.setZombies c (s.zombies c ++ [cur]))
  | .idle c => if s.left c then some (.ok (s.setIdle c true)) else none
  | .next c =>
    match s.runqueue c with
    | [] => none
    | next :: rest =>
      if s.left c ∧ s.isidle c ∧ (s.migration c).isNone then
        some (.ok (((s.setQueue c rest).resume c next).setIdle c false))
      else none
  | .exorcise o c =>
    match s.work o, s.zombies c with
    | .wake [], z :: rest =>
      if s.Running c then some (do
        kassert (z ≠ s.curthread c) "z != curthread"
        return (s.setZombies c rest).setWork o (.cleanup z))
      else none
    | _, _ => none
  | .destroy o =>
    match s.work o with
    | .cleanup z => some (.ok ((s.setAlive z false).setWork o (.wake [])))
    | _ => none
  | .considerMigration c =>
    -- Interrupts are off between the placement of a thread and the idle loop.
    if (s.migration c).isNone ∧ (s.left c → s.isidle c) then
      some (.ok (s.setMigration c (some (.counting 0 0 0))))
    else none
  | .count c =>
    match s.migration c with
    | some (.counting i mine total) =>
      if inside : i < n then
        let length := (s.runqueue ⟨i, inside⟩).length
        some (.ok (s.setMigration c
          (some (.counting (i + 1) (if i = c then length else mine) (total + length)))))
      else none
    | _ => none
  | .choose c =>
    match s.migration c with
    | some (.counting i mine total) =>
      if i < n then none
      else
        let share := (total + n - 1) / n
        if mine < share then some (.ok (s.setMigration c none))
        else some (do
          let (queue, victims) ← takeVictims (mine - share) (s.runqueue c) []
          return (s.setQueue c queue).setMigration c (some (.sending share (mine - share) 0 victims)))
    | _ => none
  | .send c =>
    match s.migration c with
    | some (.sending share toSend i victims) => s.sendVictim c share toSend i victims
    | _ => none
  | .putBack c =>
    match s.migration c with
    | some (.sending _ toSend i victims) =>
      if i < n ∧ 0 < toSend then none
      else some (.ok ((s.setQueue c (s.runqueue c ++ victims)).setMigration c none))
    | _ => none

/-- One step that returns -/
abbrev Step (s : Sched n) (event : Event n) (s' : Sched n) : Prop := s.step event = some (.ok s')

/-- The threads in a place -/
def content : Place n → List ThreadId
  | .running c => bif s.left c then [] else [s.curthread c]
  | .runqueue c => s.runqueue c
  | .zombies c => s.zombies c
  | .channel w => s.channel w
  | .operation o => (s.work o).threads
  | .victims c => ((s.migration c).elim [] Migration.victims)

/-- Every processor runs its first thread, and there are no others. -/
structure Booted (s : Sched n) : Prop where
  own : ∀ c, s.cpu (s.curthread c) = c
  alive : ∀ t, s.alive t = true ↔ ∃ c, s.curthread c = t
  runs : ∀ c, s.left c = false
  awake : ∀ c, s.isidle c = false
  runqueue : ∀ c, s.runqueue c = []
  zombies : ∀ c, s.zombies c = []
  channel : ∀ w, s.channel w = []
  work : ∀ o, s.work o = .wake []
  migration : ∀ c, s.migration c = none

section

variable {s} {c : Fin n}

theorem content_setQueue (queue : List ThreadId) :
    (s.setQueue c queue).content = update s.content (.runqueue c) queue := by
  funext place
  cases place <;> simp [content, setQueue, update_apply]

theorem content_setZombies (zombies : List ThreadId) :
    (s.setZombies c zombies).content = update s.content (.zombies c) zombies := by
  funext place
  cases place <;> simp [content, setZombies, update_apply]

theorem content_setChannel (w : ChannelId) (threads : List ThreadId) :
    (s.setChannel w threads).content = update s.content (.channel w) threads := by
  funext place
  cases place <;> simp [content, setChannel, update_apply]

theorem content_setWork (o : CallId) (work : Work) :
    (s.setWork o work).content = update s.content (.operation o) work.threads := by
  funext place
  cases place with
  | operation o' => by_cases here : o' = o <;> simp [content, setWork, here]
  | _ => simp [content, setWork]

theorem content_setMigration (migration : Option Migration) :
    (s.setMigration c migration).content =
      update s.content (.victims c) (migration.elim [] Migration.victims) := by
  funext place
  cases place with
  | victims c' => by_cases here : c' = c <;> simp [content, setMigration, here]
  | _ => simp [content, setMigration]

theorem content_leave : (s.leave c).content = update s.content (.running c) [] := by
  funext place
  cases place with
  | running c' => by_cases here : c' = c <;> simp [content, leave, here]
  | _ => simp [content, leave]

theorem content_resume (next : ThreadId) :
    (s.resume c next).content = update s.content (.running c) [next] := by
  funext place
  cases place with
  | running c' => by_cases here : c' = c <;> simp [content, resume, here]
  | _ => simp [content, resume]

end

/-- Every thread is in one place. A processor's own threads know it: its current thread, even if it has left
it, and those on its lists. -/
structure Inv (s : Sched n) : Prop where
  placed : Placed s.content fun t => s.alive t = true
  own : ∀ c, s.cpu (s.curthread c) = c
  lives : ∀ c, s.alive (s.curthread c) = true
  queued : ∀ c, ∀ t ∈ s.runqueue c, s.cpu t = c
  buried : ∀ c, ∀ t ∈ s.zombies c, s.cpu t = c
  chosen : ∀ c, ∀ t ∈ s.content (.victims c), s.cpu t = c
  apart : ∀ o t, s.work o = .fork t ∨ s.work o = .cleanup t → ∀ c, s.curthread c ≠ t
  idles : ∀ c, s.isidle c = true → s.left c = true
  counted : ∀ c i mine total, s.migration c = some (.counting i mine total) → mine ≤ (s.runqueue c).length
  enough : ∀ c share toSend i victims, s.migration c = some (.sending share toSend i victims) →
    toSend ≤ victims.length

section

variable {s} {c : Fin n} {o : CallId} {w : ChannelId} {t : ThreadId} {rest : List ThreadId}

theorem Booted.inv (booted : s.Booted) : s.Inv where
  placed := by
    have nothing (place : Place n) (there : ∀ c, place ≠ .running c) : s.content place = [] := by
      cases place with
      | running c => exact absurd rfl (there c)
      | runqueue c => exact booted.runqueue c
      | zombies c => exact booted.zombies c
      | channel w => exact booted.channel w
      | operation o => simp [content, booted.work, Work.threads]
      | victims c => simp [content, booted.migration]
    have first (c : Fin n) : s.content (.running c) = [s.curthread c] := by simp [content, booted.runs]
    have only {place : Place n} {t : ThreadId} (inside : t ∈ s.content place) :
        ∃ c, place = .running c ∧ s.curthread c = t := by
      by_cases running : ∃ c, place = .running c
      · obtain ⟨c, rfl⟩ := running
        rw [first, mem_singleton] at inside
        exact ⟨c, rfl, inside.symm⟩
      · push Not at running
        rw [nothing place running] at inside
        cases inside
    refine ⟨fun place => ?_, fun here there => ?_, fun t => ?_⟩
    · by_cases running : ∃ c, place = .running c
      · obtain ⟨c, rfl⟩ := running
        rw [first]
        exact nodup_singleton _
      · push Not at running
        rw [nothing place running]
        exact nodup_nil
    · obtain ⟨c, rfl, same⟩ := only here
      obtain ⟨c', rfl, same'⟩ := only there
      rw [← booted.own c, ← booted.own c', same, same']
    · rw [booted.alive]
      constructor
      · rintro ⟨c, rfl⟩
        exact ⟨.running c, by rw [first]; exact mem_singleton_self _⟩
      · rintro ⟨place, inside⟩
        obtain ⟨c, _, same⟩ := only inside
        exact ⟨c, same⟩
  own := booted.own
  lives c := (booted.alive _).mpr ⟨c, rfl⟩
  queued c t inside := by
    rw [booted.runqueue] at inside
    cases inside
  buried c t inside := by
    rw [booted.zombies] at inside
    cases inside
  chosen c t inside := by simp [content, booted.migration] at inside
  apart o t held := by
    rw [booted.work] at held
    rcases held with held | held <;> cases held
  idles c idle := by
    rw [booted.awake] at idle
    cases idle
  counted c i mine total started := by
    rw [booted.migration] at started
    cases started
  enough c share toSend i victims started := by
    rw [booted.migration] at started
    cases started

theorem Inv.not_current (inv : s.Inv) (inside : t ∈ s.content place) (other : ∀ c, place ≠ .running c)
    (runs : s.left c = false) : s.curthread c ≠ t := by
  rintro rfl
  have running : s.curthread c ∈ s.content (.running c) := by simp [content, runs]
  exact other c (inv.placed.apart inside running)

theorem Inv.queued_update {queue : List ThreadId} (inv : s.Inv) (mine : ∀ t ∈ queue, s.cpu t = c) :
    ∀ c', ∀ t ∈ update s.runqueue c queue c', s.cpu t = c' :=
  (forall_update_iff _ fun c' queue => ∀ t ∈ queue, s.cpu t = c').mpr ⟨mine, fun c' _ => inv.queued c'⟩

theorem Inv.counted_grow {queue : List ThreadId} (inv : s.Inv) (longer : (s.runqueue c).length ≤ queue.length) :
    ∀ c' i mine total, s.migration c' = some (.counting i mine total) →
      mine ≤ (update s.runqueue c queue c').length := by
  refine (forall_update_iff s.runqueue fun c' queue => ∀ i mine total,
    s.migration c' = some (.counting i mine total) → mine ≤ queue.length).mpr
      ⟨fun i mine total started => ?_, fun c' _ => inv.counted c'⟩
  exact (inv.counted c i mine total started).trans longer

theorem Inv.apart_update {work : Work} (inv : s.Inv)
    (off : ∀ t, work = .fork t ∨ work = .cleanup t → ∀ c, s.curthread c ≠ t) :
    ∀ o' t, update s.work o work o' = .fork t ∨ update s.work o work o' = .cleanup t →
      ∀ c, s.curthread c ≠ t :=
  (forall_update_iff s.work fun _ work => ∀ t, work = .fork t ∨ work = .cleanup t →
    ∀ c, s.curthread c ≠ t).mpr ⟨off, fun o' _ => inv.apart o'⟩

theorem Inv.makeRunnable (inv : s.Inv) (held : (s.work o).threads = t :: rest) :
    ((s.enqueue t).setWork o (.wake rest)).Inv :=
  { inv with
    placed := by
      rw [content_setWork, enqueue, content_setQueue,
        update_comm (show Place.runqueue (s.cpu t) ≠ .operation o from nofun)]
      exact inv.placed.moveOne nofun (.of_eq held) (perm_append_singleton _ _)
    queued := by
      refine inv.queued_update fun u inside => ?_
      rcases mem_append.mp inside with prev | new
      · exact inv.queued _ u prev
      · rw [mem_singleton.mp new]
    apart := inv.apart_update nofun
    counted := inv.counted_grow (by simp) }

theorem Inv.wake (inv : s.Inv) (free : s.work o = .wake []) {targets : List ThreadId}
    (taken : s.channel w = targets ++ rest) : ((s.setChannel w rest).setWork o (.wake targets)).Inv :=
  { inv with
    placed := by
      have nothing : s.content (.operation o) = [] := by simp [content, free, Work.threads]
      rw [content_setWork, content_setChannel]
      refine inv.placed.move nofun (.of_eq taken) ?_
      rw [nothing, append_nil]
      exact .refl _
    apart := inv.apart_update nofun }

theorem alive_created :
    (fun u => s.alive u = true ∨ u = t) = fun u => update s.alive t true u = true := by
  funext u
  by_cases here : u = t <;> simp [here]

theorem alive_destroyed :
    (fun u => s.alive u = true ∧ u ≠ t) = fun u => update s.alive t false u = true := by
  funext u
  by_cases here : u = t <;> simp [here]

theorem Inv.nowhere (inv : s.Inv) (gone : s.alive t = false) (place : Place n) : t ∉ s.content place := by
  intro inside
  have there := (inv.placed.somewhere t).mpr ⟨place, inside⟩
  rw [gone] at there
  cases there

theorem Inv.curthread_ne (inv : s.Inv) (gone : s.alive t = false) (c : Fin n) : s.curthread c ≠ t := by
  rintro rfl
  have there := inv.lives c
  rw [gone] at there
  cases there

theorem Inv.differ (inv : s.Inv) (inside : t ∈ s.content place) (also : u ∈ s.content other)
    (apart : other ≠ place) : u ≠ t := by
  rintro rfl
  exact apart (inv.placed.apart also inside)

theorem cpu_update (other : u ≠ t) (known : s.cpu u = c) : update s.cpu t target u = c := by
  rw [update_of_ne other]
  exact known

theorem Inv.fork {child : ThreadId} {target : Fin n} (inv : s.Inv) (free : s.work o = .wake [])
    (gone : s.alive child = false) :
    (((s.setAlive child true).setCpu child target).setWork o (.fork child)).Inv :=
  { inv with
    placed := by
      have nothing : s.content (.operation o) = [] := by simp [content, free, Work.threads]
      have born := inv.placed.insert (p := .operation o) (t := child) (by simp [gone])
        (.of_eq (congrArg (List.cons child) nothing.symm))
      rw [alive_created] at born
      rw [content_setWork]
      exact born
    own c := cpu_update (inv.curthread_ne gone c) (inv.own c)
    lives c := by simpa [setWork, setCpu, setAlive, inv.curthread_ne gone c] using inv.lives c
    queued c t inside := by
      refine cpu_update ?_ (inv.queued c t inside)
      rintro rfl
      exact inv.nowhere gone (.runqueue c) inside
    buried c t inside := by
      refine cpu_update ?_ (inv.buried c t inside)
      rintro rfl
      exact inv.nowhere gone (.zombies c) inside
    chosen c t inside := by
      refine cpu_update ?_ (inv.chosen c t inside)
      rintro rfl
      exact inv.nowhere gone (.victims c) inside
    apart := by
      refine inv.apart_update fun t held c same => ?_
      obtain rfl : child = t := by
        rcases held with held | held <;> cases held
        rfl
      exact inv.curthread_ne gone c same }

theorem Inv.discard (inv : s.Inv) (held : s.work o = .fork t ∨ s.work o = .cleanup t) :
    ((s.setAlive t false).setWork o (.wake [])).Inv :=
  { inv with
    placed := by
      have only : s.content (.operation o) = [t] := by
        rcases held with held | held <;> simp [content, held, Work.threads]
      have gone := inv.placed.remove (.of_eq only)
      rw [alive_destroyed] at gone
      rw [content_setWork]
      exact gone
    lives c := by
      have other := inv.apart o t held c
      simpa [setWork, setAlive, other] using inv.lives c
    apart := inv.apart_update nofun }

theorem content_running (runs : s.left c = false) : s.content (.running c) = [s.curthread c] := by
  simp [content, runs]

section

variable (inv : s.Inv)
include inv

theorem Inv.idles_leave : ∀ c', s.isidle c' = true → update s.left c true c' = true :=
  (forall_update_iff s.left fun c' left => s.isidle c' = true → left = true).mpr
    ⟨fun _ => rfl, fun c' _ => inv.idles c'⟩

theorem Inv.ready (runs : s.left c = false) : ((s.enqueue (s.curthread c)).leave c).Inv :=
  { inv with
    placed := by
      rw [content_leave, enqueue, content_setQueue,
        update_comm (show Place.runqueue (s.cpu (s.curthread c)) ≠ .running c from nofun)]
      exact inv.placed.moveOne nofun (.of_eq (content_running runs)) (perm_append_singleton _ _)
    queued := by
      refine inv.queued_update fun u inside => ?_
      rcases mem_append.mp inside with prev | new
      · exact inv.queued _ u prev
      · rw [mem_singleton.mp new]
    idles := inv.idles_leave
    counted := inv.counted_grow (by simp) }

theorem Inv.sleep (runs : s.left c = false) : ((s.setChannel w (s.channel w ++ [s.curthread c])).leave c).Inv :=
  { inv with
    placed := by
      rw [content_leave, content_setChannel,
        update_comm (show Place.channel w ≠ .running c from nofun)]
      exact inv.placed.moveOne nofun (.of_eq (content_running runs)) (perm_append_singleton _ _)
    idles := inv.idles_leave }

theorem Inv.exit (runs : s.left c = false) : ((s.setZombies c (s.zombies c ++ [s.curthread c])).leave c).Inv :=
  { inv with
    placed := by
      rw [content_leave, content_setZombies,
        update_comm (show Place.zombies c ≠ .running c from nofun)]
      exact inv.placed.moveOne nofun (.of_eq (content_running runs)) (perm_append_singleton _ _)
    buried c' u inside := by
      by_cases here : c' = c
      · subst here
        have known : u ∈ s.zombies c' ++ [s.curthread c'] := by
          simpa [leave, setZombies] using inside
        rcases mem_append.mp known with prev | new
        · exact inv.buried c' u prev
        · rw [mem_singleton.mp new]
          exact inv.own c'
      · exact inv.buried c' u (by simpa [leave, setZombies, here] using inside)
    idles := inv.idles_leave }

theorem Inv.next {next : ThreadId} (queue : s.runqueue c = next :: rest) (away : s.left c = true)
    (idle : s.migration c = none) : (((s.setQueue c rest).resume c next).setIdle c false).Inv where
  placed := by
    have nobody : s.content (.running c) = [] := by simp [content, away]
    have moved := inv.placed.moveOne (p := .runqueue c) (q := .running c) nofun (.of_eq queue)
      (.of_eq (congrArg (List.cons next) nobody.symm))
    show Placed ((s.setQueue c rest).resume c next).content _
    rw [content_resume, content_setQueue]
    exact moved
  own c' := by
    by_cases here : c' = c
    · subst here
      have mine : s.cpu next = c' := inv.queued c' next (by simp [queue])
      simpa [setIdle, resume, setQueue] using mine
    · simpa [setIdle, resume, setQueue, here] using inv.own c'
  lives c' := by
    by_cases here : c' = c
    · subst here
      have there := (inv.placed.somewhere next).mpr ⟨.runqueue c', by simp [content, queue]⟩
      simpa [setIdle, resume, setQueue] using there
    · simpa [setIdle, resume, setQueue, here] using inv.lives c'
  queued := by
    refine inv.queued_update fun u inside => ?_
    exact inv.queued c u (by simp [queue, inside])
  buried := inv.buried
  chosen := inv.chosen
  apart o t held c' := by
    by_cases here : c' = c
    · subst here
      have inside : t ∈ s.content (.operation o) := by
        have known : s.work o = .fork t ∨ s.work o = .cleanup t := held
        rcases known with known | known <;> simp [content, known, Work.threads]
      have waits : next ∈ s.content (.runqueue c') := by simp [content, queue]
      simpa [setIdle, resume] using inv.differ inside waits nofun
    · simpa [setIdle, resume, setQueue, here] using inv.apart o t held c'
  idles c' idle := by
    have other : c' ≠ c := by
      rintro rfl
      simp [setIdle] at idle
    have prev := inv.idles c' (by simpa [setIdle, resume, setQueue, other] using idle)
    simpa [setIdle, resume, setQueue, other] using prev
  counted c' i mine total started := by
    have other : c' ≠ c := by
      rintro rfl
      rw [show s.migration c' = some (.counting i mine total) from started] at idle
      cases idle
    simpa [setIdle, resume, setQueue, other] using inv.counted c' i mine total started
  enough := inv.enough

theorem Inv.zombie_left (runs : s.left c = false) (dead : z ∈ s.zombies c) (c' : Fin n) :
    s.curthread c' ≠ z := by
  intro same
  have here : c' = c := by
    rw [← inv.own c', same]
    exact inv.buried c z dead
  rw [here] at same
  exact inv.not_current (show z ∈ s.content (.zombies c) from dead) nofun runs same

theorem Inv.exorcise {z : ThreadId} (free : s.work o = .wake []) (dead : s.zombies c = z :: rest)
    (runs : s.left c = false) : ((s.setZombies c rest).setWork o (.cleanup z)).Inv :=
  { inv with
    placed := by
      have nothing : s.content (.operation o) = [] := by simp [content, free, Work.threads]
      rw [content_setWork, content_setZombies]
      exact inv.placed.moveOne nofun (.of_eq dead) (.of_eq (congrArg (List.cons z) nothing.symm))
    buried c' u inside := by
      by_cases here : c' = c
      · subst here
        have known : u ∈ rest := by simpa [setWork, setZombies] using inside
        exact inv.buried c' u (by simp [dead, known])
      · exact inv.buried c' u (by simpa [setWork, setZombies, here] using inside)
    apart := by
      refine inv.apart_update fun t held => ?_
      obtain rfl : z = t := by
        rcases held with held | held <;> cases held
        rfl
      exact inv.zombie_left runs (by simp [dead]) }

theorem Inv.requeue {queue : List ThreadId} {migration : Option Migration}
    (placed : Placed ((s.setQueue c queue).setMigration c migration).content fun t => s.alive t = true)
    (queued : ∀ t ∈ queue, s.cpu t = c) (chosen : ∀ t ∈ migration.elim [] Migration.victims, s.cpu t = c)
    (counted : ∀ i mine total, migration = some (.counting i mine total) → mine ≤ queue.length)
    (enough : ∀ share toSend i victims, migration = some (.sending share toSend i victims) → toSend ≤ victims.length) :
    ((s.setQueue c queue).setMigration c migration).Inv :=
  { inv with
    placed := placed
    queued := inv.queued_update queued
    chosen := (forall_update_iff s.migration fun c' migration =>
      ∀ t ∈ migration.elim [] Migration.victims, s.cpu t = c').mpr ⟨chosen, fun c' _ => inv.chosen c'⟩
    counted := by
      intro c' i mine total started
      by_cases here : c' = c
      · subst here
        simpa [setMigration, setQueue] using counted i mine total (by simpa [setMigration] using started)
      · have prev : s.migration c' = some (.counting i mine total) := by
          simpa [setMigration, setQueue, here] using started
        simpa [setMigration, setQueue, here] using inv.counted c' i mine total prev
    enough := (forall_update_iff s.migration fun _ migration => ∀ share toSend i victims,
      migration = some (.sending share toSend i victims) → toSend ≤ victims.length).mpr
        ⟨enough, fun c' _ => inv.enough c'⟩ }

theorem Inv.migrate {migration : Option Migration}
    (same : (migration.elim [] Migration.victims).Perm (s.content (.victims c)))
    (counted : ∀ i mine total, migration = some (.counting i mine total) → mine ≤ (s.runqueue c).length)
    (enough : ∀ share toSend i victims, migration = some (.sending share toSend i victims) → toSend ≤ victims.length) :
    (s.setMigration c migration).Inv := by
  have queue : s.setQueue c (s.runqueue c) = s := by simp [setQueue]
  rw [← queue]
  refine inv.requeue ?_ (inv.queued c) (fun t inside => inv.chosen c t (same.mem_iff.mp inside)) counted enough
  rw [queue, content_setMigration]
  exact inv.placed.perm same

end

theorem takeVictims_ok {queue : List ThreadId} (victims : List ThreadId) (long : toSend ≤ queue.length) :
    ∃ front back, queue = front ++ back ∧ back.length = toSend ∧
      takeVictims toSend queue victims = .ok (front, back ++ victims) := by
  induction toSend generalizing queue victims with
  | zero => exact ⟨queue, [], by simp, rfl, rfl⟩
  | succ toSend ih =>
    have filled : queue ≠ [] := by
      rintro rfl
      simp at long
    obtain ⟨front, back, split, len, taken⟩ :=
      ih (queue.getLast filled :: victims) (show toSend ≤ queue.dropLast.length by simp; omega)
    refine ⟨front, back ++ [queue.getLast filled], ?_, by simp [len], ?_⟩
    · rw [← append_assoc, ← split, dropLast_append_getLast]
    · simp [takeVictims, List.getLast?_eq_some_getLast filled, taken]

theorem Inv.choose {front back : List ThreadId} {share : Nat} (inv : s.Inv)
    (none : s.content (.victims c) = []) (split : s.runqueue c = front ++ back) :
    ((s.setQueue c front).setMigration c (some (.sending share back.length 0 back))).Inv := by
  have mine (t : ThreadId) (inside : t ∈ front ++ back) : s.cpu t = c := inv.queued c t (split ▸ inside)
  refine inv.requeue ?_ (fun t inside => mine t (mem_append_left _ inside))
    (fun t inside => mine t (mem_append_right _ inside)) nofun ?_
  · rw [content_setMigration, content_setQueue]
    refine inv.placed.move nofun ((List.Perm.of_eq split).trans perm_append_comm) ?_
    rw [none, append_nil]
    exact .refl _
  · rintro _ _ _ _ ⟨⟩
    exact Nat.le_refl _

theorem Inv.putBack {victims : List ThreadId} (inv : s.Inv) (held : s.content (.victims c) = victims) :
    ((s.setQueue c (s.runqueue c ++ victims)).setMigration c none).Inv := by
  refine inv.requeue ?_ (fun t inside => ?_) nofun nofun nofun
  · rw [content_setMigration, content_setQueue,
      update_comm (show Place.runqueue c ≠ .victims c from nofun)]
    exact inv.placed.move nofun (.of_eq (held.trans (append_nil _).symm)) perm_append_comm
  · rcases mem_append.mp inside with prev | back
    · exact inv.queued c t prev
    · exact inv.chosen c t (held ▸ back)

theorem Inv.send (inv : s.Inv) (started : s.migration c = some (.sending share toSend i (t :: rest)))
    (other : t ≠ s.curthread c) :
    (((s.setCpu t target).setQueue target (s.runqueue target ++ [t])).setMigration c
      (some (.sending share (toSend - 1) i rest))).Inv := by
  have held : s.content (.victims c) = t :: rest := by simp [content, started, Migration.victims]
  have inside : t ∈ s.content (.victims c) := by simp [held]
  have fresh : t ∉ rest := by
    have once := inv.placed.once (.victims c)
    rw [held] at once
    exact (nodup_cons.mp once).1
  have enough := inv.enough c share toSend i (t :: rest) started
  constructor
  case placed =>
    rw [content_setMigration, content_setQueue,
      update_comm (show Place.runqueue target ≠ .victims c from nofun)]
    exact inv.placed.moveOne nofun (.of_eq held) (perm_append_singleton _ _)
  case own =>
    intro c'
    refine cpu_update ?_ (inv.own c')
    intro same
    have here : c' = c := by
      rw [← inv.own c', show s.curthread c' = t from same]
      exact inv.chosen c t inside
    exact other (here ▸ same.symm)
  case lives => exact inv.lives
  case queued =>
    intro c' u mem
    by_cases new : u = t
    · subst new
      have here : c' = target := by
        by_contra elsewhere
        have also : u ∈ s.runqueue c' := by
          simpa [setMigration, setQueue, setCpu, elsewhere] using mem
        exact inv.differ inside (show u ∈ s.content (.runqueue c') from also) nofun rfl
      simp [setMigration, setQueue, setCpu, here]
    · refine cpu_update new (inv.queued c' u ?_)
      by_cases here : c' = target
      · subst here
        simpa [setMigration, setQueue, new] using mem
      · simpa [setMigration, setQueue, setCpu, here] using mem
  case buried =>
    intro c' u mem
    have also : u ∈ s.content (.zombies c') := mem
    exact cpu_update (inv.differ inside also nofun) (inv.buried c' u also)
  case chosen =>
    intro c' u mem
    rw [content_setMigration] at mem
    by_cases here : c' = c
    · subst here
      rw [update_self] at mem
      have remains : u ∈ rest := mem
      refine cpu_update (fun same => fresh (same ▸ remains)) (inv.chosen c' u ?_)
      simp [held, remains]
    · have apart : Place.victims c' ≠ .victims c := by simpa using here
      rw [update_of_ne apart] at mem
      have also : u ∈ s.content (.victims c') := mem
      exact cpu_update (inv.differ inside also apart) (inv.chosen c' u also)
  case apart => exact inv.apart
  case idles => exact inv.idles
  case counted =>
    intro c' j mine total counting
    have elsewhere : c' ≠ c := by
      rintro rfl
      simp [setMigration] at counting
    have prev : s.migration c' = some (.counting j mine total) := by
      simpa [setMigration, setQueue, setCpu, elsewhere] using counting
    exact inv.counted_grow (c := target) (by simp) c' j mine total prev
  case enough =>
    intro c' share' toSend' i' victims sending
    by_cases here : c' = c
    · subst here
      have same : some (Migration.sending share (toSend - 1) i rest) =
          some (.sending share' toSend' i' victims) := by simpa [setMigration] using sending
      cases same
      simp only [length_cons] at enough
      omega
    · exact inv.enough c' share' toSend' i' victims
        (by simpa [setMigration, setQueue, setCpu, here] using sending)

theorem Inv.idle (inv : s.Inv) (away : s.left c = true) : (s.setIdle c true).Inv :=
  { inv with
    idles c' idle := by
      by_cases here : c' = c
      · rw [here]
        exact away
      · exact inv.idles c' (by simpa [setIdle, here] using idle) }

theorem Inv.sendVictim (inv : s.Inv) (started : s.migration c = some (.sending share toSend i victims))
    (can : s.sendVictim c share toSend i victims = some res) : ∃ s', res = .ok s' ∧ s'.Inv := by
  have held : s.content (.victims c) = victims := by simp [content, started, Migration.victims]
  have enough := inv.enough c share toSend i victims started
  have skip : (s.setMigration c (some (.sending share toSend (i + 1) victims))).Inv := by
    refine inv.migrate (.of_eq held.symm) nofun ?_
    rintro _ _ _ _ ⟨⟩
    exact enough
  unfold Sched.sendVictim at can
  split at can
  case isFalse => cases can
  case isTrue inside =>
    dsimp only at can
    split at can
    · cases can
      exact ⟨_, rfl, skip⟩
    · split at can
      case isFalse =>
        cases can
        exact ⟨_, rfl, skip⟩
      case isTrue =>
        split at can
        · -- There are as many victims as are to be sent.
          simp only [length_nil] at enough
          omega
        · split at can
          · cases can
            refine ⟨_, rfl, inv.migrate ?_ nofun ?_⟩
            · rw [held]
              exact perm_append_singleton _ _
            · rintro _ _ _ _ ⟨⟩
              simp only [length_append, length_cons] at enough ⊢
              omega
          · rename_i other
            cases can
            exact ⟨_, rfl, inv.send started other⟩

theorem Inv.switchAway {place : Sched n → ThreadId → Kernel (Sched n)}
    (can : s.switchAway c place = some res) (put : place s (s.curthread c) = .ok s')
    (kept : s.left c = false → (s'.leave c).Inv) : ∃ s', res = .ok s' ∧ s'.Inv := by
  unfold Sched.switchAway at can
  split at can
  case isFalse => cases can
  case isTrue running =>
    rw [put] at can
    cases can
    exact ⟨_, rfl, kept running.1⟩

theorem Inv.step {event : Event n} {res : Kernel (Sched n)} (inv : s.Inv)
    (can : s.step event = some res) : ∃ s', res = .ok s' ∧ s'.Inv := by
  cases event <;> simp only [Sched.step] at can
  case fork o c child =>
    split at can
    · rename_i free
      split at can
      · rename_i allowed
        cases can
        exact ⟨_, rfl, inv.fork free allowed.2⟩
      · cases can
    · cases can
  case forkFails o =>
    split at can
    · rename_i child held
      cases can
      exact ⟨_, rfl, inv.discard (.inl held)⟩
    · cases can
  case makeRunnable o =>
    split at can
    · rename_i target rest held
      cases can
      exact ⟨_, rfl, inv.makeRunnable (by simp [held, Work.threads])⟩
    · rename_i child held
      cases can
      exact ⟨_, rfl, inv.makeRunnable (by simp [held, Work.threads])⟩
    · cases can
  case wakeone o w =>
    split at can
    · rename_i target rest free waiting
      cases can
      exact ⟨_, rfl, inv.wake free waiting⟩
    · cases can
  case wakeall o w =>
    split at can
    · rename_i free
      cases can
      exact ⟨_, rfl, inv.wake free (append_nil _).symm⟩
    · cases can
  case ready c =>
    split at can
    · cases can
    · refine Inv.switchAway can (show _ = Except.ok (s.enqueue (s.curthread c)) from ?_) inv.ready
      simp [kassert, inv.own]
  case sleep c w =>
    exact Inv.switchAway can rfl inv.sleep
  case exit c =>
    exact Inv.switchAway can rfl inv.exit
  case idle c =>
    split at can
    · rename_i away
      cases can
      exact ⟨_, rfl, inv.idle away⟩
    · cases can
  case next c =>
    split at can
    · cases can
    · rename_i next rest queue
      split at can
      · rename_i ready
        cases can
        exact ⟨_, rfl, inv.next queue ready.1 (Option.isNone_iff_eq_none.mp ready.2.2)⟩
      · cases can
  case exorcise o c =>
    split at can
    · rename_i z rest free dead
      split at can
      · rename_i running
        have other : z ≠ s.curthread c := (inv.zombie_left running.1 (by simp [dead]) c).symm
        rw [kassert_ok.mpr other] at can
        cases can
        exact ⟨_, rfl, inv.exorcise free dead running.1⟩
      · cases can
    · cases can
  case destroy o =>
    split at can
    · rename_i z held
      cases can
      exact ⟨_, rfl, inv.discard (.inr held)⟩
    · cases can
  case considerMigration c =>
    split at can
    · rename_i allowed
      have none : s.migration c = none := Option.isNone_iff_eq_none.mp allowed.1
      cases can
      refine ⟨_, rfl, inv.migrate ?_ ?_ (by simp)⟩
      · simp [content, none, Migration.victims]
      · rintro _ _ _ ⟨⟩
        exact Nat.zero_le _
    · cases can
  case count c =>
    split at can
    · rename_i i mine total started
      split at can
      · have prev := inv.counted c i mine total started
        cases can
        refine ⟨_, rfl, inv.migrate ?_ ?_ (by simp)⟩
        · simp [content, started, Migration.victims]
        · rintro _ _ _ ⟨⟩
          by_cases here : i = c
          · simp [here]
          · simpa [here] using prev
      · cases can
    · cases can
  case choose c =>
    split at can
    · rename_i i mine total started
      have prev := inv.counted c i mine total started
      have none : s.content (.victims c) = [] := by simp [content, started, Migration.victims]
      split at can
      · cases can
      · split at can
        · cases can
          exact ⟨_, rfl, inv.migrate (.of_eq none.symm) (by simp) (by simp)⟩
        · generalize (total + n - 1) / n = share at can
          obtain ⟨front, back, split, len, taken⟩ :=
            takeVictims_ok [] (show mine - share ≤ (s.runqueue c).length by omega)
          rw [taken, ← len, append_nil] at can
          cases can
          exact ⟨_, rfl, inv.choose none split⟩
    · cases can
  case send c =>
    split at can
    · rename_i started
      exact inv.sendVictim started can
    · cases can
  case putBack c =>
    split at can
    · rename_i share toSend i victims started
      split at can
      · cases can
      · cases can
        exact ⟨_, rfl, inv.putBack (by simp [content, started, Migration.victims])⟩
    · cases can

theorem Inv.run (inv : s.Inv) (reached : Run Step s events s') : s'.Inv := by
  have keeps (s : Sched n) (event : Event n) (s' : Sched n) (inv : s.Inv) (moved : Step s event s') :
      s'.Inv := by
    obtain ⟨_, same, kept⟩ := inv.step moved
    cases same
    exact kept
  exact reached.invariant keeps inv

end

/-- After every run from boot each thread is in one place and once. -/
theorem threads_in_one_place {s s' : Sched n} {events : List (Event n)} (booted : s.Booted)
    (reached : Run Step s events s') :
    (∀ t, s'.alive t = true → ∃! place, t ∈ s'.content place) ∧
    (∀ place, (s'.content place).Nodup ∧ ∀ t ∈ s'.content place, s'.alive t = true) ∧
    (∀ c, ∀ t ∈ s'.runqueue c, s'.cpu t = c) ∧
    (∀ c, s'.alive (s'.curthread c) = true ∧ (∀ c', s'.curthread c' = s'.curthread c → c' = c) ∧
      (s'.isidle c = true → s'.left c = true) ∧
      ∀ place, s'.curthread c ∈ s'.content place → place = .running c ∨ s'.left c = true) ∧
    ∀ event result, s'.step event = some result → ∃ s'', result = .ok s'' := by
  have inv := booted.inv.run reached
  refine ⟨fun t there => inv.placed.unique there, fun place => ⟨inv.placed.once place, fun t inside => ?_⟩,
    inv.queued, fun c => ⟨inv.lives c, fun c' same => ?_, inv.idles c, fun place inside => ?_⟩,
    fun event result can => ?_⟩
  · exact (inv.placed.somewhere t).mpr ⟨place, inside⟩
  · rw [← inv.own c', same, inv.own]
  · cases away : s'.left c with
    | true => exact .inr rfl
    | false =>
      have running : s'.curthread c ∈ s'.content (.running c) := by simp [content, away]
      exact .inl (inv.placed.apart inside running)
  · obtain ⟨s'', same, _⟩ := inv.step can
    exact ⟨s'', same⟩

/-- Two processors, each with its first thread -/
def twoProcessors : Sched 2 where
  cpu t := if t = 0 then 0 else 1
  alive t := decide (t < 2)
  curthread c := c
  left _ := false
  isidle _ := false
  runqueue _ := []
  zombies _ := []
  channel _ := []
  work _ := .wake []
  migration _ := none

theorem twoProcessors_booted : twoProcessors.Booted where
  own := by decide
  alive t := by
    simp only [twoProcessors, decide_eq_true_eq]
    constructor
    · intro small
      exact ⟨⟨t, small⟩, rfl⟩
    · rintro ⟨c, rfl⟩
      exact c.isLt
  runs _ := rfl
  awake _ := rfl
  runqueue _ := rfl
  zombies _ := rfl
  channel _ := rfl
  work _ := rfl
  migration _ := rfl

theorem threads_in_one_place_forked :
    ∃ s' : Sched 2, Run Step twoProcessors
        [.fork 0 0 2, .makeRunnable 0, .sleep 0 7, .idle 0, .wakeone 1 7, .makeRunnable 1, .next 0] s' ∧
      s'.curthread 0 = 2 ∧ s'.runqueue 0 = [0] ∧ ∃! place, 0 ∈ s'.content place := by
  obtain ⟨s', reached, now, waits, there⟩ : ∃ s' : Sched 2, Run Step twoProcessors
      [.fork 0 0 2, .makeRunnable 0, .sleep 0 7, .idle 0, .wakeone 1 7, .makeRunnable 1, .next 0] s' ∧
      s'.curthread 0 = 2 ∧ s'.runqueue 0 = [0] ∧ s'.alive 0 = true :=
    ⟨_, .cons rfl (.cons rfl (.cons rfl (.cons rfl (.cons rfl (.cons rfl (.single rfl)))))), rfl, rfl, rfl⟩
  exact ⟨s', reached, now, waits, (threads_in_one_place twoProcessors_booted reached).1 0 there⟩

end Sched

end Os161.Scheduler
