import Os161.Lib.Outcome

/-- Started in this state the action returns, with this property of its value and of the last state. -/
def Returns {S E A : Type} (action : StateT S (Except E) A) (first : S) (post : A → S → Prop) : Prop :=
  ∃ value last, action.run first = .ok (value, last) ∧ post value last

namespace Returns

variable {S E A B : Type} {action : StateT S (Except E) A} {first : S} {post : A → S → Prop}

variable {value : A}

theorem of_run (ran : action.run first = .ok (value, last)) (holds : post value last) :
    Returns action first post :=
  ⟨value, last, ran, holds⟩

theorem pure (holds : post value first) :
    Returns (Pure.pure value : StateT S (Except E) A) first post :=
  .of_run rfl holds

variable {rest : A → StateT S (Except E) B} {final : B → S → Prop}

/-- A sequence returns if the rest returns from every state in between. -/
theorem bind (prev : Returns action first post)
    (after : ∀ value last, post value last → Returns (rest value) last final) :
    Returns (action >>= rest) first final := by
  obtain ⟨value, middle, start, holds⟩ := prev
  obtain ⟨res, last, finish, done⟩ := after value middle holds
  refine .of_run ?_ done
  rw [StateT.run_bind, start, Outcome.ok_bind, finish]

/-- A first action that is known to return hands on its value. -/
theorem bind_run (ran : action.run first = .ok (value, middle))
    (after : Returns (rest value) middle final) : Returns (action >>= rest) first final :=
  have start : Returns action first fun res last => Returns (rest res) last final :=
    .of_run ran after
  start.bind fun _ _ holds => holds

theorem mono {weaker : A → S → Prop} (returns : Returns action first post)
    (weaken : ∀ value last, post value last → weaker value last) : Returns action first weaker := by
  obtain ⟨value, last, ran, holds⟩ := returns
  exact .of_run ran (weaken value last holds)

/-- A computation outside the state that returns leaves the state as it is. -/
theorem bind_lift {outcome : Except E A} (ran : outcome = .ok value)
    (after : Returns (rest value) first final) : Returns (liftM outcome >>= rest) first final := by
  subst ran
  exact bind_run rfl after

end Returns
