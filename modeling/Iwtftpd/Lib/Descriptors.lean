import Mathlib.Data.Finset.Basic
import Mathlib.Data.Finset.Dedup
import Mathlib.Data.Finset.Lattice.Lemmas

/-!
# Descriptors of a process

The descriptors that a process has open, those of them that one event poll
watches, and the closes that hit nothing. The kernel stops watching a
descriptor that is closed, so what is watched is always open. A descriptor that
was closed may be given out again.
-/

namespace Descriptors

universe u
variable {δ : Type u} [DecidableEq δ]

/-- The descriptor table of a process with one event poll. -/
@[ext] structure Fds (δ : Type u) [DecidableEq δ] where
  opened : Finset δ
  watched : Finset δ
  stray : List δ
  within : watched ⊆ opened

/-- A descriptor that the kernel may give out. -/
def Fds.Free (t : Fds δ) (fd : δ) : Prop := fd ∉ t.opened

instance (t : Fds δ) (fd : δ) : Decidable (t.Free fd) := inferInstanceAs (Decidable (fd ∉ t.opened))

/-- The kernel gives out a descriptor. -/
def Fds.grant (t : Fds δ) (fd : δ) : Fds δ where
  opened := insert fd t.opened
  watched := t.watched
  stray := t.stray
  within := t.within.trans (Finset.subset_insert fd t.opened)

/-- `close`: what is not open is noted as a stray close. -/
def Fds.close (t : Fds δ) (fd : δ) : Fds δ :=
  if fd ∈ t.opened then
    { opened := t.opened.erase fd
      watched := t.watched.erase fd
      stray := t.stray
      within := Finset.erase_subset_erase fd t.within }
  else { t with stray := fd :: t.stray }

/-- Close one descriptor after the other. -/
def Fds.closeAll (t : Fds δ) (fds : List δ) : Fds δ := fds.foldl Fds.close t

/-- Start watching a descriptor. It fails for a descriptor that is not open or
watched already, and where the kernel has no room. -/
def Fds.watch (t : Fds δ) (room : Bool) (fd : δ) : Bool × Fds δ :=
  if inside : fd ∈ t.opened ∧ fd ∉ t.watched ∧ room = true then
    (true,
      { opened := t.opened
        watched := insert fd t.watched
        stray := t.stray
        within := Finset.insert_subset inside.1 t.within })
  else (false, t)

/-- Stop watching a descriptor. -/
def Fds.unwatch (t : Fds δ) (fd : δ) : Bool × Fds δ :=
  if fd ∈ t.watched then
    (true,
      { opened := t.opened
        watched := t.watched.erase fd
        stray := t.stray
        within := (Finset.erase_subset fd t.watched).trans t.within })
  else (false, t)

/-- Granting a descriptor opens it and does nothing else. -/
@[simp] theorem grant_opened (t : Fds δ) (fd : δ) : (t.grant fd).opened = insert fd t.opened := rfl

@[simp] theorem grant_watched (t : Fds δ) (fd : δ) : (t.grant fd).watched = t.watched := rfl

@[simp] theorem grant_stray (t : Fds δ) (fd : δ) : (t.grant fd).stray = t.stray := rfl

@[simp] theorem closeAll_nil (t : Fds δ) : t.closeAll [] = t := rfl

@[simp] theorem closeAll_cons (t : Fds δ) (fd : δ) (fds : List δ) :
    t.closeAll (fd :: fds) = (t.close fd).closeAll fds := rfl

/-- Closing two lists is closing one after the other. -/
theorem closeAll_append (t : Fds δ) (before after : List δ) :
    t.closeAll (before ++ after) = (t.closeAll before).closeAll after := List.foldl_append

/-! ## One close -/

/-- Closing a descriptor takes it out of the table and out of the watched set. -/
@[simp] theorem close_opened (t : Fds δ) (fd : δ) : (t.close fd).opened = t.opened.erase fd := by
  by_cases inside : fd ∈ t.opened
  · simp [Fds.close, inside]
  · simp [Fds.close, inside, Finset.erase_eq_of_notMem]

@[simp] theorem close_watched (t : Fds δ) (fd : δ) : (t.close fd).watched = t.watched.erase fd := by
  by_cases inside : fd ∈ t.opened
  · simp [Fds.close, inside]
  · have outside : fd ∉ t.watched := fun member => inside (t.within member)
    simp [Fds.close, inside, Finset.erase_eq_of_notMem outside]

/-- Closing what is open is not stray. -/
theorem close_stray_of_mem {t : Fds δ} {fd : δ} (inside : fd ∈ t.opened) :
    (t.close fd).stray = t.stray := by
  simp [Fds.close, inside]

/-- Closing what is not open is recorded. -/
theorem close_stray_of_notMem {t : Fds δ} {fd : δ} (outside : fd ∉ t.opened) :
    (t.close fd).stray = fd :: t.stray := by
  simp [Fds.close, outside]

/-- Closing what has just been given out restores the table. -/
theorem close_grant {t : Fds δ} {fd : δ} (free : t.Free fd) : (t.grant fd).close fd = t := by
  have unwatched : fd ∉ t.watched := fun member => free (t.within member)
  ext1
  · rw [close_opened, grant_opened, Finset.erase_insert free]
  · rw [close_watched, grant_watched, Finset.erase_eq_of_notMem unwatched]
  · rw [close_stray_of_mem (Finset.mem_insert_self fd t.opened), grant_stray]

/-! ## Many closes -/

/-- What is left open after a list is closed. -/
@[simp] theorem closeAll_opened (t : Fds δ) (fds : List δ) :
    (t.closeAll fds).opened = t.opened \ fds.toFinset := by
  induction fds generalizing t with
  | nil => simp
  | cons fd rest inductionHypothesis =>
    rw [closeAll_cons, inductionHypothesis, close_opened, List.toFinset_cons,
      Finset.sdiff_insert, Finset.erase_sdiff_comm]

/-- What is left watched after a list is closed. -/
@[simp] theorem closeAll_watched (t : Fds δ) (fds : List δ) :
    (t.closeAll fds).watched = t.watched \ fds.toFinset := by
  induction fds generalizing t with
  | nil => simp
  | cons fd rest inductionHypothesis =>
    rw [closeAll_cons, inductionHypothesis, close_watched, List.toFinset_cons,
      Finset.sdiff_insert, Finset.erase_sdiff_comm]

/-- Where the open descriptors of a list are met once each, the stray closes of it are its
members that are not open. -/
theorem closeAll_stray (t : Fds δ) (fds : List δ)
    (once : (fds.filter (fun fd => fd ∈ t.opened)).Nodup) :
    (t.closeAll fds).stray = (fds.filter (fun fd => fd ∉ t.opened)).reverse ++ t.stray := by
  induction fds generalizing t with
  | nil => rfl
  | cons fd rest inductionHypothesis =>
    by_cases inside : fd ∈ t.opened
    · have split : fd ∉ rest.filter (fun fd => fd ∈ t.opened) ∧
          (rest.filter (fun fd => fd ∈ t.opened)).Nodup := by
        simpa [inside] using once
      have absent : fd ∉ rest := fun member => split.1 (List.mem_filter.mpr ⟨member, by simpa⟩)
      have agree : ∀ x ∈ rest, (x ∈ (t.close fd).opened ↔ x ∈ t.opened) := by
        intro x member
        have different : x ≠ fd := fun equal => absent (equal ▸ member)
        simp [different]
      have opens : rest.filter (fun x => x ∈ (t.close fd).opened) =
          rest.filter (fun x => x ∈ t.opened) :=
        List.filter_congr fun x member => decide_eq_decide.mpr (agree x member)
      have others : rest.filter (fun x => x ∉ (t.close fd).opened) =
          rest.filter (fun x => x ∉ t.opened) :=
        List.filter_congr fun x member => decide_eq_decide.mpr (not_congr (agree x member))
      rw [closeAll_cons, inductionHypothesis (t.close fd) (opens ▸ split.2),
        close_stray_of_mem inside, others]
      simp [inside]
    · have unchanged : (t.close fd).opened = t.opened := by
        rw [close_opened, Finset.erase_eq_of_notMem inside]
      have next := inductionHypothesis (t.close fd) (by simpa [inside, unchanged] using once)
      rw [closeAll_cons, next, close_stray_of_notMem inside, unchanged]
      simp [inside]

/-! ## Watching -/

/-- Watching opens and closes nothing. -/
@[simp] theorem watch_opened (t : Fds δ) (room : Bool) (fd : δ) :
    (t.watch room fd).2.opened = t.opened := by
  unfold Fds.watch
  split <;> rfl

@[simp] theorem watch_stray (t : Fds δ) (room : Bool) (fd : δ) :
    (t.watch room fd).2.stray = t.stray := by
  unfold Fds.watch
  split <;> rfl

/-- Watching an open descriptor that is not watched yet goes through where there is room. -/
theorem watch_of_room {t : Fds δ} {fd : δ} (inside : fd ∈ t.opened) (unwatched : fd ∉ t.watched) :
    (t.watch true fd).1 = true ∧ (t.watch true fd).2.watched = insert fd t.watched := by
  simp [Fds.watch, inside, unwatched]

/-- Watching a descriptor adds at most that. -/
theorem watch_watched_subset (t : Fds δ) (room : Bool) (fd : δ) :
    (t.watch room fd).2.watched ⊆ insert fd t.watched := by
  unfold Fds.watch
  split
  · exact Finset.Subset.refl _
  · exact Finset.subset_insert fd t.watched

/-- Watching a descriptor takes nothing out. -/
theorem watch_watched_mono (t : Fds δ) (room : Bool) (fd : δ) :
    t.watched ⊆ (t.watch room fd).2.watched := by
  unfold Fds.watch
  split
  · exact Finset.subset_insert fd t.watched
  · exact Finset.Subset.refl _

/-- Taking a descriptor out of the watched set leaves it open. -/
@[simp] theorem unwatch_opened (t : Fds δ) (fd : δ) : (t.unwatch fd).2.opened = t.opened := by
  unfold Fds.unwatch
  split <;> rfl

@[simp] theorem unwatch_stray (t : Fds δ) (fd : δ) : (t.unwatch fd).2.stray = t.stray := by
  unfold Fds.unwatch
  split <;> rfl

@[simp] theorem unwatch_watched (t : Fds δ) (fd : δ) :
    (t.unwatch fd).2.watched = t.watched.erase fd := by
  by_cases inside : fd ∈ t.watched
  · simp [Fds.unwatch, inside]
  · simp [Fds.unwatch, inside, Finset.erase_eq_of_notMem]

end Descriptors
