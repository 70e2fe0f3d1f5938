import Mathlib.Data.List.Basic

namespace Transition

/-- A run applies one labelled step after another. -/
inductive Run {S L : Type*} (step : S → L → S → Prop) : S → List L → S → Prop where
  | nil (state : S) : Run step state [] state
  | cons {first middle last : S} {label : L} {labels : List L} :
      step first label middle → Run step middle labels last →
        Run step first (label :: labels) last

/-- One step is a run of length one. -/
theorem Run.single {S L : Type*} {step : S → L → S → Prop} {first last : S} {label : L}
    (moved : step first label last) : Run step first [label] last :=
  .cons moved (.nil last)

/-- Two runs that meet in one state form a longer run. -/
theorem Run.append {S L : Type*} {step : S → L → S → Prop} {first middle last : S}
    {front back : List L} (prev : Run step first front middle)
    (after : Run step middle back last) : Run step first (front ++ back) last := by
  induction prev with
  | nil state => exact after
  | cons moved rest ih => exact .cons moved (ih after)

/-- A property that every step keeps holds at the end of every run. -/
theorem Run.invariant {S L : Type*} {step : S → L → S → Prop} {property : S → Prop}
    (preserved : ∀ state label next, property state → step state label next → property next)
    {first last : S} {labels : List L} (run : Run step first labels last)
    (initially : property first) : property last := by
  induction run with
  | nil state => exact initially
  | cons moved rest ih => exact ih (preserved _ _ _ initially moved)

/-- A run changes what its steps change by their labels in turn. -/
theorem Run.foldl {S T L : Type*} {step : S → L → S → Prop} {property : S → Prop} {first last : S}
    {labels : List L} (run : Run step first labels last) (count : S → T) (change : T → L → T)
    (counted : ∀ state label next, property state → step state label next →
      property next ∧ count next = change (count state) label) (initially : property first) :
    count last = labels.foldl change (count first) := by
  induction run with
  | nil state => rfl
  | cons moved rest ih =>
    obtain ⟨kept, same⟩ := counted _ _ _ initially moved
    rw [List.foldl_cons, ← same]
    exact ih kept

/-- A run is a run of every relation that has its steps. -/
theorem Run.mono {S L : Type*} {step larger : S → L → S → Prop}
    (implied : ∀ state label next, step state label next → larger state label next) {first last : S}
    {labels : List L} (run : Run step first labels last) : Run larger first labels last := by
  induction run with
  | nil state => exact .nil state
  | cons moved rest ih => exact .cons (implied _ _ _ moved) ih

/-- A run of good labels is a run of good steps. -/
theorem Run.restrict {S L : Type*} {step : S → L → S → Prop} {good : L → Prop} {first last : S}
    {labels : List L} (run : Run step first labels last) (all : ∀ label ∈ labels, good label) :
    Run (fun state label next => step state label next ∧ good label) first labels last := by
  induction run with
  | nil state => exact .nil state
  | cons moved rest ih =>
    have head := all _ List.mem_cons_self
    exact .cons ⟨moved, head⟩ (ih fun label mem => all label (List.mem_cons_of_mem _ mem))

/-- A relation that every step keeps relates the two ends of a simulated run. -/
theorem Run.simulate {S T L M : Type*} {step : S → L → S → Prop} (abstract : T → M → T → Prop)
    (related : S → T → Prop) (label : L → M)
    (simulated : ∀ state image action next, related state image → step state action next →
      ∃ moved, abstract image (label action) moved ∧ related next moved)
    {first last : S} {labels : List L} (run : Run step first labels last)
    (image : T) (start : related first image) :
    ∃ final, Run abstract image (labels.map label) final ∧ related last final := by
  induction run generalizing image with
  | nil state => exact ⟨image, .nil image, start⟩
  | cons moved rest ih =>
    obtain ⟨middle, taken, matched⟩ := simulated _ _ _ _ start moved
    obtain ⟨final, tail, agreed⟩ := ih middle matched
    exact ⟨final, .cons taken tail, agreed⟩

/-- The state after some labels, for steps that can be computed -/
def play {S L : Type*} (move : S → L → Option S) : List L → S → Option S
  | [], state => some state
  | label :: rest, state => (move state label).bind (play move rest)

theorem play_run {S L : Type*} {move : S → L → Option S} {labels : List L} {first last : S}
    (played : play move labels first = some last) :
    Run (fun state label next => move state label = some next) first labels last := by
  induction labels generalizing first with
  | nil =>
    cases played
    exact .nil _
  | cons label rest ih =>
    obtain ⟨middle, moved, tail⟩ := Option.bind_eq_some_iff.mp played
    exact .cons moved (ih tail)

end Transition
