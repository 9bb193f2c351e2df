import Mathlib.Data.List.Basic

/-!
# The files behind descriptors

The descriptor table of a process as a program sees it that opens, closes and
duplicates descriptors by number: a new descriptor is the lowest one that is
free, closing frees a number, and `dup2` makes one number stand for the file of
another. What each operation does is stated for every number at once.
-/

namespace FileTable

universe u
variable {φ : Type u}

/-- The files, by descriptor. -/
structure Files (φ : Type u) where
  slots : List (Option φ)

/-- What a descriptor stands for. -/
def Files.at (t : Files φ) (fd : Nat) : Option φ := t.slots.getD fd none

/-- The table with another file at a descriptor, longer if need be. -/
def Files.put (t : Files φ) (fd : Nat) (f : Option φ) : Files φ where
  slots := (t.slots ++ List.replicate (fd + 1 - t.slots.length) none).set fd f

/-- The table without a descriptor. -/
def Files.close (t : Files φ) (fd : Nat) : Files φ := t.put fd none

/-- The lowest number that is free. -/
def Files.lowest (t : Files φ) : Nat := t.slots.findIdx Option.isNone

/-- A new descriptor, and the table with it. -/
def Files.openNew (t : Files φ) (f : φ) : Nat × Files φ := (t.lowest, t.put t.lowest (some f))

/-- `dup2` fails for a descriptor that is not open. -/
def Files.dup2 (t : Files φ) (old new : Nat) : Option (Files φ) :=
  (t.at old).map fun f => t.put new (some f)

/-- Make several numbers stand for one file; where the kernel refuses, that is the end. -/
def Files.dupAll (t : Files φ) (ok : Nat → Bool) (old : Nat) : List Nat → Option (Files φ)
  | [] => some t
  | new :: rest =>
    if ok new then
      match t.dup2 old new with
      | none => none
      | some t => t.dupAll ok old rest
    else none

/-- Close the numbers below a bound but for those that are kept. -/
def Files.closeBelow (t : Files φ) (bound : Nat) (keep : Nat → Bool) : Files φ :=
  (List.range bound).foldl (fun t fd => if keep fd then t else t.close fd) t

/-! ## What stands behind a number -/

/-- What a descriptor stands for after another file was put somewhere. This is the one lemma from
which the others read the table. -/
@[simp] theorem at_put (t : Files φ) (fd : Nat) (f : Option φ) (i : Nat) :
    (t.put fd f).at i = if i = fd then f else t.at i := by
  have inside : fd < (t.slots ++ List.replicate (fd + 1 - t.slots.length) (none : Option φ)).length := by
    rw [List.length_append, List.length_replicate]
    omega
  rw [Files.at, Files.put, List.getD_eq_getElem?_getD]
  by_cases same : i = fd
  · rw [same, List.getElem?_set_self inside, if_pos rfl]
    rfl
  · rw [List.getElem?_set_ne (Ne.symm same), if_neg same, Files.at, List.getD_eq_getElem?_getD, List.getElem?_append]
    by_cases below : i < t.slots.length
    · rw [if_pos below]
    · rw [if_neg below, List.getElem?_replicate, List.getElem?_eq_none (by omega)]
      split <;> rfl

/-- What a descriptor stands for after one was closed. -/
@[simp] theorem at_close (t : Files φ) (fd i : Nat) : (t.close fd).at i = if i = fd then none else t.at i :=
  at_put t fd none i

/-- The lowest free descriptor is free. -/
theorem at_lowest (t : Files φ) : t.at t.lowest = none := by
  rw [Files.at, Files.lowest, List.getD_eq_getElem?_getD]
  by_cases found : t.slots.findIdx Option.isNone < t.slots.length
  · have free := List.findIdx_getElem (p := Option.isNone) (w := found)
    rw [List.getElem?_eq_getElem found]
    exact Option.isNone_iff_eq_none.mp free
  · rw [List.getElem?_eq_none (by omega)]
    rfl

/-- Every descriptor below it is taken. -/
theorem at_below {t : Files φ} {i : Nat} (below : i < t.lowest) : t.at i ≠ none := by
  intro free
  have inside : i < t.slots.length := Nat.lt_of_lt_of_le below List.findIdx_le_length
  have taken := List.not_of_lt_findIdx (p := Option.isNone) below
  rw [Files.at, List.getD_eq_getElem?_getD, List.getElem?_eq_getElem inside] at free
  rw [Option.getD_some] at free
  rw [free] at taken
  exact Bool.noConfusion taken

/-- After `dup2` the new descriptor stands for what the old one does. -/
theorem at_dup2 {t t' : Files φ} {old new : Nat} (done : t.dup2 old new = some t') (i : Nat) :
    t'.at i = if i = new then t.at old else t.at i := by
  obtain ⟨f, found, rfl⟩ := Option.map_eq_some_iff.mp done
  rw [at_put, found]

/-- So do all the new ones, when none of the calls failed.

Proof: by induction over them. The old one is not lost on the way, since it stands for itself
where it is one of them. -/
theorem at_dupAll {ok : Nat → Bool} {old : Nat} {news : List Nat} {t t' : Files φ}
    (done : t.dupAll ok old news = some t') (i : Nat) : t'.at i = if i ∈ news then t.at old else t.at i := by
  induction news generalizing t with
  | nil =>
    obtain rfl := Option.some.inj done
    exact (if_neg List.not_mem_nil).symm
  | cons new rest inductionHypothesis =>
    unfold Files.dupAll at done
    split at done
    · split at done
      · cases done
      · rename_i t₁ first
        have source := at_dup2 first old
        rw [ite_self] at source
        rw [inductionHypothesis done, source, at_dup2 first]
        by_cases here : i = new <;> by_cases later : i ∈ rest <;> simp [here, later]
    · cases done

/-- The numbers of an open file are given to others unless the kernel refuses one. -/
theorem exists_dupAll_iff {ok : Nat → Bool} {old : Nat} {news : List Nat} {t : Files φ}
    (source : t.at old ≠ none) : (∃ t', t.dupAll ok old news = some t') ↔ ∀ new ∈ news, ok new = true := by
  induction news generalizing t with
  | nil => simp [Files.dupAll]
  | cons new rest inductionHypothesis =>
    obtain ⟨f, found⟩ := Option.ne_none_iff_exists'.mp source
    have first : t.dup2 old new = some (t.put new (some f)) := by
      rw [Files.dup2, found]
      rfl
    have still : (t.put new (some f)).at old ≠ none := by
      rw [at_dup2 first old, ite_self]
      exact source
    rw [Files.dupAll, List.forall_mem_cons, first]
    cases ok new with
    | false => simp
    | true => simpa using inductionHypothesis still

/-- Closing all but some below a bound leaves those and everything from the bound on. -/
theorem at_closeBelow (t : Files φ) (bound : Nat) (keep : Nat → Bool) (i : Nat) :
    (t.closeBelow bound keep).at i = if i < bound ∧ keep i = false then none else t.at i := by
  induction bound with
  | zero => simp [Files.closeBelow]
  | succ bound inductionHypothesis =>
    have next : t.closeBelow (bound + 1) keep =
        if keep bound then t.closeBelow bound keep else (t.closeBelow bound keep).close bound := by
      rw [Files.closeBelow, List.range_succ, List.foldl_append]
      rfl
    rw [next]
    cases kept : keep bound with
    | true =>
      rw [if_pos rfl, inductionHypothesis]
      by_cases here : i = bound
      · simp [here, kept]
      · have same : i < bound + 1 ↔ i < bound := by omega
        simp only [same]
    | false =>
      rw [if_neg Bool.false_ne_true, at_close, inductionHypothesis]
      by_cases here : i = bound
      · simp [here, kept]
      · have same : i < bound + 1 ↔ i < bound := by omega
        rw [if_neg here]
        simp only [same]

end FileTable
