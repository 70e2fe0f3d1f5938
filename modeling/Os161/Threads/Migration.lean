import Os161.Threads.Scheduler

namespace Os161.Scheduler
open Outcome Transition Function List

namespace Sched

variable {n : Nat}

/-- What a step does to the threads that `thread_consider_migration` has taken from the run queue of a
processor. It takes as many as there are above an equal share. -/
inductive VictimStep (c : Fin n) (s s' : Sched n) : Event n → Prop where
  | kept (same : (s'.content (.victims c)).Perm (s.content (.victims c))) : VictimStep c s s' event
  | chosen (counted : s.migration c = some (.counting i mine total))
      (taken : s.runqueue c = s'.runqueue c ++ s'.content (.victims c))
      (number : (s'.content (.victims c)).length = mine - (total + n - 1) / n) : VictimStep c s s' (.choose c)
  | sent (first : s.content (.victims c) = t :: s'.content (.victims c)) (other : t ≠ s.curthread c)
      (queued : t ∈ s'.runqueue (s'.cpu t)) (away : s'.cpu t ≠ c) : VictimStep c s s' (.send c)
  | back (nobody : s'.content (.victims c) = [])
      (own : s'.runqueue c = s.runqueue c ++ s.content (.victims c)) : VictimStep c s s' (.putBack c)

variable {s s' : Sched n} {c : Fin n} {event : Event n}

theorem VictimStep.of_apart {migration : Option Migration} (apart : c ≠ d)
    (set : s'.migration = update s.migration d migration) : VictimStep c s s' event :=
  .kept (.of_eq (by simp [content, set, apart]))

theorem VictimStep.migrate {migration : Option Migration} (set : s'.migration = update s.migration d migration)
    (same : (migration.elim [] Migration.victims).Perm (s.content (.victims d))) : VictimStep c s s' event := by
  by_cases here : c = d
  · subst here
    exact .kept (by simpa [content, set] using same)
  · exact .of_apart here set

theorem sendVictim_victims (started : s.migration d = some (.sending share toSend i victims))
    (can : s.sendVictim d share toSend i victims = some (.ok s')) : VictimStep c s s' (.send d) := by
  have held : s.content (.victims d) = victims := by simp [content, started, Migration.victims]
  have skip : VictimStep c s (s.setMigration d (some (.sending share toSend (i + 1) victims))) (.send d) :=
    .migrate rfl (.of_eq held.symm)
  unfold sendVictim at can
  split at can
  case isFalse => cases can
  case isTrue =>
    dsimp only at can
    split at can
    case isTrue =>
      cases can
      exact skip
    case isFalse away =>
      split at can
      case isFalse =>
        cases can
        exact skip
      case isTrue =>
        split at can
        · cases can
        · rename_i t rest
          split at can
          · cases can
            refine .migrate rfl ?_
            rw [held]
            exact perm_append_singleton _ _
          · rename_i other
            cases can
            by_cases here : c = d
            · subst here
              refine .sent (t := t) ?_ other ?_ ?_
              · simp [content_setMigration, held, Migration.victims]
              · simp [setMigration, setQueue, setCpu]
              · simpa [setMigration, setQueue, setCpu] using away
            · exact .of_apart here rfl

theorem Inv.victimStep (inv : s.Inv) (moved : Step s event s') (c : Fin n) : VictimStep c s s' event := by
  have counting {d : Fin n} {i mine total : Nat} (started : s.migration d = some (.counting i mine total)) :
      s.content (.victims d) = [] := by simp [content, started, Migration.victims]
  cases event <;> simp only [Step, Sched.step, Sched.switchAway, kassert] at moved
  case considerMigration d =>
    split at moved
    · rename_i allowed
      cases moved
      refine .migrate rfl (.of_eq ?_)
      simp [content, Option.isNone_iff_eq_none.mp allowed.1, Migration.victims]
    · cases moved
  case count d =>
    split at moved
    · rename_i started
      split at moved
      · cases moved
        exact .migrate rfl (.of_eq (counting started).symm)
      · cases moved
    · cases moved
  case choose d =>
    split at moved
    · rename_i i mine total started
      have prev := inv.counted d i mine total started
      split at moved
      · cases moved
      · split at moved
        · cases moved
          exact .migrate rfl (.of_eq (counting started).symm)
        · obtain ⟨front, back, split, len, taken⟩ := takeVictims_ok []
            ((Nat.sub_le mine ((total + n - 1) / n)).trans prev)
          rw [taken, append_nil] at moved
          cases moved
          by_cases here : c = d
          · subst here
            refine .chosen started ?_ ?_
            · simpa [content, setMigration, setQueue, Migration.victims] using split
            · simpa [content, setMigration, setQueue, Migration.victims] using len
          · exact .of_apart here rfl
    · cases moved
  case send d =>
    split at moved
    · exact sendVictim_victims ‹_› moved
    · cases moved
  case putBack d =>
    split at moved
    · rename_i started
      split at moved
      · cases moved
      · cases moved
        by_cases here : c = d
        · subst here
          refine .back ?_ ?_
          · simp [content, setMigration]
          · simp [content, setMigration, setQueue, started, Migration.victims]
        · exact .of_apart here rfl
    · cases moved
  all_goals repeat' split at moved
  all_goals cases moved
  all_goals exact .kept (.refl _)

theorem Inv.victims_run (inv : s.Inv) (reached : Run Step s events s') (once : .choose c ∉ events) :
    (s'.content (.victims c)).Subperm (s.content (.victims c)) := by
  induction reached with
  | nil s => exact .refl _
  | @cons s mid s' event events moved rest ih =>
    obtain ⟨_, same, kept⟩ := inv.step moved
    cases same
    refine (ih kept fun later => once (mem_cons_of_mem _ later)).trans ?_
    cases inv.victimStep moved c with
    | kept same => exact same.subperm
    | chosen => exact absurd mem_cons_self once
    | sent first => rw [first]; exact (sublist_cons_self ..).subperm
    | back nobody => rw [nobody]; exact nil_subperm

theorem sendVictim_progress (s : Sched n) (c : Fin n) (share : Nat) (victims : List ThreadId)
    (inside : i < n ∧ 0 < toSend) : ∃ res, s.sendVictim c share toSend i victims = some res ∧ ∀ s', res = .ok s' →
      ∃ toSend' i' victims', s'.migration c = some (.sending share toSend' i' victims') ∧
        n - i' + toSend' < n - i + toSend := by
  rw [sendVictim, dif_pos inside]
  dsimp only
  split
  · exact ⟨_, rfl, by rintro _ ⟨⟩; exact ⟨_, _, _, update_self .., by omega⟩⟩
  · split
    · split
      · exact ⟨_, rfl, nofun⟩
      · split
        · exact ⟨_, rfl, by rintro _ ⟨⟩; exact ⟨_, _, _, update_self .., by omega⟩⟩
        · exact ⟨_, rfl, by rintro _ ⟨⟩; exact ⟨_, _, _, update_self .., by omega⟩⟩
    · exact ⟨_, rfl, by rintro _ ⟨⟩; exact ⟨_, _, _, update_self .., by omega⟩⟩

theorem Inv.sending_finishes (inv : s.Inv) (started : s.migration c = some (.sending share toSend i victims)) :
    ∃ own s', (∀ event ∈ own, event = .send c ∨ event = .putBack c) ∧ Run Step s own s' ∧
      s'.content (.victims c) = [] := by
  induction left : n - i + toSend using Nat.strong_induction_on generalizing s toSend i victims with
  | _ left ih =>
    by_cases inside : i < n ∧ 0 < toSend
    · obtain ⟨res, sends, progress⟩ := sendVictim_progress s c share victims inside
      have can : s.step (.send c) = some res := by simp only [Sched.step, started, sends]
      obtain ⟨mid, rfl, kept⟩ := inv.step can
      obtain ⟨toSend', i', victims', later, less⟩ := progress mid rfl
      obtain ⟨own, s', mine, run, done⟩ := ih _ (by omega) kept later rfl
      exact ⟨.send c :: own, s', forall_mem_cons.mpr ⟨.inl rfl, mine⟩, .cons can run, done⟩
    · refine ⟨[.putBack c], _, by simp, .single (by simp only [Step, Sched.step, started, if_neg inside]; rfl), ?_⟩
      simp [content, setMigration]

theorem Inv.finishes (inv : s.Inv) (c : Fin n) :
    ∃ own s', (∀ event ∈ own, event = .send c ∨ event = .putBack c) ∧ Run Step s own s' ∧
      s'.content (.victims c) = [] := by
  match started : s.migration c with
  | none => exact ⟨[], s, nofun, .nil s, by simp [content, started]⟩
  | some (.counting i mine total) => exact ⟨[], s, nofun, .nil s, by simp [content, started, Migration.victims]⟩
  | some (.sending share toSend i victims) => exact inv.sending_finishes started

/-- Migration loses no thread, moves no current one, and sends at most the surplus. -/
theorem migration_conservative {events : List (Event n)} {result : Kernel (Sched n)} (inv : s.Inv)
    (reached : Run Step s events s') (can : s'.step event = some result) : ∃ s'', result = .ok s'' ∧
      (∀ c, s''.cpu (s''.curthread c) = c) ∧
      (∀ c, (s''.runqueue c).Nodup ∧ ∀ t ∈ s''.runqueue c, s''.cpu t = c) ∧
      ∀ c, VictimStep c s' s'' event ∧
        (∀ later y, Run Step s'' later y → .choose c ∉ later →
          (y.content (.victims c)).Subperm (s''.content (.victims c))) ∧
        ∃ own y, (∀ event ∈ own, event = .send c ∨ event = .putBack c) ∧ Run Step s'' own y ∧
          y.content (.victims c) = [] := by
  have prev := inv.run reached
  obtain ⟨s'', rfl, kept⟩ := prev.step can
  exact ⟨s'', rfl, kept.own, fun c => ⟨kept.placed.once (.runqueue c), kept.queued c⟩, fun c =>
    ⟨prev.victimStep can c, fun later y run once => kept.victims_run run once, kept.finishes c⟩⟩

/-- A processor forks two threads, counts two queues and chooses one victim. -/
def oneVictim (c : Fin n) : List (Event n) :=
  [.fork 0 c 2, .makeRunnable 0, .fork 0 c 3, .makeRunnable 0, .considerMigration c, .count c, .count c,
    .choose c, .send c]

/-- The victim goes to the other processor. -/
theorem migration_conservative_two : ∃ s' s'' : Sched 2, Run Step twoProcessors (oneVictim 0) s' ∧
    s'.step (.send 0) = some (.ok s'') ∧ s''.runqueue 1 = [3] ∧ s''.cpu 3 = 1 := by
  obtain ⟨s', s'', reached, can, there⟩ : ∃ s' s'' : Sched 2, Run Step twoProcessors (oneVictim 0) s' ∧
      s'.step (.send 0) = some (.ok s'') ∧ s''.runqueue 1 = [3] :=
    ⟨_, _, .cons rfl (.cons rfl (.cons rfl (.cons rfl (.cons rfl (.cons rfl (.cons rfl (.cons rfl
      (.single rfl)))))))), rfl, rfl⟩
  obtain ⟨_, same, _, queues, _⟩ := migration_conservative twoProcessors_booted.inv reached can
  cases same
  exact ⟨s', s'', reached, can, there, (queues 1).2 3 (by simp [there])⟩

end Sched

end Os161.Scheduler
