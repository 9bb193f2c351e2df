import Mathlib.Data.List.Infix

/-!
# Paths below a root

A place in a tree of directories is the list of names that lead to it. A path is
a list of steps, and the step to the parent leads nowhere from the root of the
process. A name may be a link, whose own steps are taken instead, from the root
when it is absolute. So no path leads out of the root, wherever the links point.
-/

namespace Paths

universe u
variable {ν : Type u} [DecidableEq ν]

/-- A component of a path. -/
inductive Step (ν : Type u) where
  | stay
  | up
  | down (name : ν)
deriving DecidableEq

/-- What a link holds. -/
structure Link (ν : Type u) where
  absolute : Bool
  steps : List (Step ν)

/-- Where a path leads from a place, for a process with the given root; `none` when more
than `fuel` steps would have to be taken. -/
def follow (root : List ν) (links : List ν → Option (Link ν)) :
    Nat → List ν → List (Step ν) → Option (List ν)
  | 0, _, _ => none
  | _ + 1, here, [] => some here
  | fuel + 1, here, .stay :: rest => follow root links fuel here rest
  | fuel + 1, here, .up :: rest => follow root links fuel (if here = root then here else here.dropLast) rest
  | fuel + 1, here, .down name :: rest =>
    match links (here ++ [name]) with
    | none => follow root links fuel (here ++ [name]) rest
    | some link => follow root links fuel (if link.absolute then root else here) (link.steps ++ rest)

/-- A path that starts below the root stays there. -/
theorem follow_below {root here there : List ν} {links : List ν → Option (Link ν)} {fuel : Nat}
    {steps : List (Step ν)} (below : root <+: here) (found : follow root links fuel here steps = some there) :
    root <+: there := by
  induction fuel generalizing here steps with
  | zero => cases found
  | succ fuel inductionHypothesis =>
    cases steps with
    | nil =>
      obtain rfl := Option.some.inj found
      exact below
    | cons first rest =>
      cases first with
      | stay => exact inductionHypothesis below found
      | up =>
        apply inductionHypothesis _ found
        split
        · exact below
        · rename_i apart
          obtain ⟨names, rfl⟩ := below
          have more : names ≠ [] := by
            rintro rfl
            exact apart (List.append_nil root)
          rw [List.dropLast_append_of_ne_nil more]
          exact List.prefix_append root names.dropLast
      | down name =>
        rw [follow] at found
        split at found
        · exact inductionHypothesis (below.trans (List.prefix_append here [name])) found
        · apply inductionHypothesis _ found
          split
          · exact List.prefix_rfl
          · exact below

/-- Where nothing on the way is a link, names lead to where they say. -/
theorem follow_downs {root : List ν} {links : List ν → Option (Link ν)} {names : List ν} {fuel : Nat}
    (here : List ν) (plain : ∀ before, before <+: names → links (here ++ before) = none)
    (enough : names.length < fuel) :
    follow root links fuel here (names.map .down) = some (here ++ names) := by
  induction names generalizing here fuel with
  | nil =>
    obtain ⟨fuel, rfl⟩ : ∃ n, fuel = n + 1 := ⟨fuel - 1, by simp at enough; omega⟩
    rw [List.append_nil]
    rfl
  | cons name names inductionHypothesis =>
    obtain ⟨fuel, rfl⟩ : ∃ n, fuel = n + 1 := ⟨fuel - 1, by omega⟩
    have first := plain [name] (by simp)
    have rest := inductionHypothesis (here ++ [name])
      (by
        intro before inside
        rw [List.append_assoc]
        exact plain (name :: before) (List.cons_prefix_cons.mpr ⟨rfl, inside⟩))
      (by simpa using enough)
    rw [List.map_cons, follow, first]
    simpa using rest

end Paths
