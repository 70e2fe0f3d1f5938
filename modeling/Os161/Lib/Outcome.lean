import Mathlib.Logic.Basic

namespace Outcome

/-- A sequence returns exactly when both parts return. -/
theorem bind_ok {E A B : Type} {first : Except E A} {next : A → Except E B} {res : B} :
    (first >>= next) = .ok res ↔ ∃ value, first = .ok value ∧ next value = .ok res := by
  cases first with
  | error problem | ok value => simp [bind, Except.bind]

@[simp] theorem ok_bind {E A B : Type} (value : A) (next : A → Except E B) :
    ((.ok value : Except E A) >>= next) = next value := rfl

@[simp] theorem error_bind {E A B : Type} (problem : E) (next : A → Except E B) :
    ((.error problem : Except E A) >>= next) = .error problem := rfl

@[simp] theorem pure_ok {E A : Type} (value : A) : (pure value : Except E A) = .ok value := rfl

/-- A loop returns with what every pass carries on. -/
theorem foldlM_range {E S : Type} {step : S → Nat → Except E S} {count : Nat} {first : S}
    (inv : Nat → S → Prop) (start : inv 0 first)
    (pass : ∀ n < count, ∀ s, inv n s → ∃ t, step s n = .ok t ∧ inv (n + 1) t) :
    ∃ last, (List.range count).foldlM step first = .ok last ∧ inv count last := by
  induction count with
  | zero => exact ⟨first, rfl, start⟩
  | succ count ih =>
    obtain ⟨s, done, held⟩ := ih fun n small => pass n (by omega)
    obtain ⟨t, moved, next⟩ := pass count (Nat.lt_succ_self count) s held
    exact ⟨t, by rw [List.range_succ, List.foldlM_append, done, ok_bind, List.foldlM_cons, moved]; rfl, next⟩

end Outcome
