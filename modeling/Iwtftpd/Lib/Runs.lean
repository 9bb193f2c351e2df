import Mathlib.Logic.Relation

/-!
# Runs of a deterministic machine under admissible events

A machine is a total step function on states and events together with a
predicate that says which events may occur in a state. A run is any finite
sequence of admissible steps. Restricting the predicate restricts the runs;
every invariant below is proved for one predicate and used for the narrower
ones by monotonicity.
-/

namespace Runs

universe u v
variable {σ : Type u} {ε : Type v}

/-- One admissible step, the event left implicit. -/
def Step (step : σ → ε → σ) (ok : σ → ε → Prop) (s t : σ) : Prop :=
  ∃ e, ok s e ∧ step s e = t

/-- Any finite number of admissible steps. -/
def Reaches (step : σ → ε → σ) (ok : σ → ε → Prop) : σ → σ → Prop :=
  Relation.ReflTransGen (Step step ok)

variable {step : σ → ε → σ} {ok ok' : σ → ε → Prop}

theorem Reaches.refl (s : σ) : Reaches step ok s s := Relation.ReflTransGen.refl

theorem Reaches.snoc {s t : σ} {e : ε} (before : Reaches step ok s t) (may : ok t e) :
    Reaches step ok s (step t e) := Relation.ReflTransGen.tail before ⟨e, may, rfl⟩

theorem Reaches.trans {s t r : σ} (first : Reaches step ok s t) (second : Reaches step ok t r) :
    Reaches step ok s r := Relation.ReflTransGen.trans first second

/-- A run under a narrower predicate is one under a wider. -/
theorem Reaches.weaken {s t : σ} (run : Reaches step ok s t) (wider : ∀ s e, ok s e → ok' s e) :
    Reaches step ok' s t := by
  induction run with
  | refl => exact .refl s
  | tail _ last inductionHypothesis =>
    obtain ⟨e, may, rfl⟩ := last
    exact inductionHypothesis.snoc (wider _ e may)

/-- What one admissible step preserves, every run preserves. -/
theorem Reaches.invariant {inv : σ → Prop} {s t : σ} (run : Reaches step ok s t)
    (preserved : ∀ s e, inv s → ok s e → inv (step s e)) (start : inv s) : inv t := by
  induction run with
  | refl => exact start
  | tail _ last inductionHypothesis =>
    obtain ⟨e, may, rfl⟩ := last
    exact preserved _ e inductionHypothesis may

/-- Apply a list of events from the left. -/
def exec (step : σ → ε → σ) (s : σ) (events : List ε) : σ := events.foldl step s

/-- Every event of the list may occur in the state where it is applied. -/
def Admits (step : σ → ε → σ) (ok : σ → ε → Prop) : σ → List ε → Prop
  | _, [] => True
  | s, e :: rest => ok s e ∧ Admits step ok (step s e) rest

instance Admits.decidable [∀ s e, Decidable (ok s e)] :
    ∀ (s : σ) (events : List ε), Decidable (Admits step ok s events)
  | _, [] => isTrue trivial
  | s, e :: rest =>
    have := Admits.decidable (step s e) rest
    inferInstanceAs (Decidable (ok s e ∧ Admits step ok (step s e) rest))

/-- A list of events that is admitted step by step is a run. -/
theorem reaches_exec {s : σ} {events : List ε} (admitted : Admits step ok s events) :
    Reaches step ok s (exec step s events) := by
  induction events generalizing s with
  | nil => exact .refl s
  | cons e rest inductionHypothesis =>
    obtain ⟨may, following⟩ := admitted
    exact Relation.ReflTransGen.head ⟨e, may, rfl⟩ (inductionHypothesis following)

theorem exec_append (s : σ) (before after : List ε) :
    exec step s (before ++ after) = exec step (exec step s before) after := List.foldl_append

/-- The beginning of an admitted list is admitted. -/
theorem Admits.before {s : σ} {before after : List ε}
    (admitted : Admits step ok s (before ++ after)) : Admits step ok s before := by
  induction before generalizing s with
  | nil => trivial
  | cons e rest inductionHypothesis => exact ⟨admitted.1, inductionHypothesis admitted.2⟩

/-- The end of an admitted list is admitted where the beginning has led. -/
theorem Admits.after {s : σ} {before after : List ε}
    (admitted : Admits step ok s (before ++ after)) : Admits step ok (exec step s before) after := by
  induction before generalizing s with
  | nil => exact admitted
  | cons e rest inductionHypothesis => exact inductionHypothesis admitted.2

/-- Predicates that agree along a run hold of all its steps together. -/
theorem Admits.agree {left right : σ → ε → Prop} {s : σ} {events : List ε}
    (admitted : Admits step ok s events)
    (same : ∀ t e, Reaches step ok s t → ok t e → (left t e ↔ right t e)) :
    Admits step left s events ↔ Admits step right s events := by
  induction events generalizing s with
  | nil => exact Iff.rfl
  | cons e rest inductionHypothesis =>
    obtain ⟨may, following⟩ := admitted
    refine and_congr (same s e (.refl s) may) (inductionHypothesis following ?_)
    intro t e' run
    exact same t e' (Relation.ReflTransGen.head ⟨e, may, rfl⟩ run)

/-- The same where the predicates agree only under what the first of them preserves. -/
theorem Admits.agree_under (inv : σ → Prop) {left right : σ → ε → Prop} {s : σ} {events : List ε}
    (admitted : Admits step ok s events) (start : inv s)
    (preserved : ∀ t e, inv t → ok t e → left t e → inv (step t e))
    (same : ∀ t e, Reaches step ok s t → inv t → ok t e → (left t e ↔ right t e)) :
    Admits step left s events ↔ Admits step right s events := by
  induction events generalizing s with
  | nil => exact Iff.rfl
  | cons e rest inductionHypothesis =>
    obtain ⟨may, following⟩ := admitted
    have first := same s e (.refl s) start may
    have later (here : left s e) := inductionHypothesis following (preserved s e start may here)
      fun t e' run => same t e' (Relation.ReflTransGen.head ⟨e, may, rfl⟩ run)
    constructor
    · rintro ⟨here, there⟩
      exact ⟨first.mp here, (later here).mp there⟩
    · rintro ⟨here, there⟩
      exact ⟨first.mpr here, (later (first.mpr here)).mpr there⟩

end Runs
