import Mathlib.Data.List.Nodup
import Mathlib.Logic.Function.Basic

/-!
# Lists of records found by a key

A linked list whose nodes carry a key, searched from its head, updated through
the node that a search returned and unlinked by key. The three operations act
on the first record of a key. Under distinct keys they are the operations of a
finite map, and every law below that needs distinctness says so.
-/

namespace Keyed

universe u v
variable {α : Type u} {κ : Type v} [DecidableEq κ] (key : α → κ)

/-- Search from the head for the first record with the key. -/
def lookup (k : κ) (records : List α) : Option α := records.find? (fun a => key a = k)

/-- Overwrite the first record that has the key of the new one. Nothing is
added when no record has it. -/
def store (a : α) : List α → List α
  | [] => []
  | b :: rest => if key b = key a then a :: rest else b :: store a rest

/-- Unlink the first record with the key. -/
def remove (k : κ) : List α → List α
  | [] => []
  | b :: rest => if key b = k then rest else b :: remove k rest

@[simp] theorem lookup_nil (k : κ) : lookup key k [] = none := rfl

/-- A search looks at the first record, and then at the rest. -/
theorem lookup_cons (k : κ) (a : α) (rest : List α) :
    lookup key k (a :: rest) = if key a = k then some a else lookup key k rest := by
  by_cases same : key a = k <;> simp [lookup, same]

/-- A record that a search returns has the key and is in the list. -/
theorem lookup_some {k : κ} {records : List α} {a : α} (found : lookup key k records = some a) :
    key a = k ∧ a ∈ records := by
  refine ⟨?_, List.mem_of_find?_eq_some found⟩
  simpa using List.find?_some found

/-- Nothing is found when no record has the key. -/
theorem lookup_none_iff {k : κ} {records : List α} :
    lookup key k records = none ↔ ∀ a ∈ records, key a ≠ k := by
  simp [lookup, List.find?_eq_none]

/-- Distinct keys make membership and search the same thing. -/
theorem lookup_of_mem {records : List α} {a : α} (distinct : (records.map key).Nodup)
    (member : a ∈ records) : lookup key (key a) records = some a := by
  induction records with
  | nil => cases member
  | cons b rest inductionHypothesis =>
    have split : key b ∉ rest.map key ∧ (rest.map key).Nodup := by
      simpa only [List.map_cons, List.nodup_cons] using distinct
    rw [lookup_cons]
    rcases List.mem_cons.mp member with rfl | inRest
    · simp
    · have different : key b ≠ key a := fun same =>
        split.1 (same ▸ List.mem_map_of_mem inRest)
      simpa [different] using inductionHypothesis split.2 inRest

/-- Overwriting a record keeps the sequence of keys. -/
@[simp] theorem store_keys (a : α) (records : List α) :
    (store key a records).map key = records.map key := by
  induction records with
  | nil => rfl
  | cons b rest inductionHypothesis =>
    by_cases same : key b = key a <;> simp [store, same, inductionHypothesis]

/-- Overwriting a record with itself changes nothing. -/
theorem store_same {a : α} {records : List α} (found : lookup key (key a) records = some a) :
    store key a records = records := by
  induction records with
  | nil => rfl
  | cons b rest inductionHypothesis =>
    rw [lookup_cons] at found
    by_cases same : key b = key a
    · rw [if_pos same] at found
      rw [store, if_pos same, Option.some.inj found]
    · rw [if_neg same] at found
      rw [store, if_neg same, inductionHypothesis found]

/-- After a store there is the new record, and what was there before. -/
theorem mem_of_mem_store {a b : α} {records : List α} (member : b ∈ store key a records) :
    b = a ∨ b ∈ records := by
  induction records with
  | nil => cases member
  | cons c rest inductionHypothesis =>
    by_cases same : key c = key a
    · rw [store, if_pos same] at member
      rcases List.mem_cons.mp member with isNew | inRest
      · exact .inl isNew
      · exact .inr (List.mem_cons_of_mem c inRest)
    · rw [store, if_neg same] at member
      rcases List.mem_cons.mp member with isHead | inRest
      · exact .inr (isHead ▸ List.mem_cons_self)
      · exact (inductionHypothesis inRest).imp id (List.mem_cons_of_mem c)

/-- Under distinct keys the record overwritten is gone: what remains besides the
new one has another key. -/
theorem mem_store_ne {a b : α} {records : List α} (distinct : (records.map key).Nodup)
    (member : b ∈ store key a records) : b = a ∨ (b ∈ records ∧ key b ≠ key a) := by
  rcases mem_of_mem_store key member with isNew | old
  · exact .inl isNew
  · by_cases same : key b = key a
    · have unique : ((store key a records).map key).Nodup := by simpa using distinct
      have found : lookup key (key a) records = some b := same ▸ lookup_of_mem key distinct old
      have present : a ∈ store key a records := by
        clear member unique distinct
        induction records with
        | nil => cases old
        | cons c rest inductionHypothesis =>
          by_cases here : key c = key a
          · rw [store, if_pos here]
            exact List.mem_cons_self
          · rw [store, if_neg here]
            rw [lookup_cons, if_neg here] at found
            exact List.mem_cons_of_mem c
              (inductionHypothesis (lookup_some key found).2 found)
      exact .inl (List.inj_on_of_nodup_map unique member present same)
    · exact .inr ⟨old, same⟩

/-- A record with another key survives an overwrite. -/
theorem mem_store_of_ne {a b : α} {records : List α} (member : b ∈ records)
    (different : key b ≠ key a) : b ∈ store key a records := by
  induction records with
  | nil => cases member
  | cons c rest inductionHypothesis =>
    by_cases same : key c = key a
    · rw [store, if_pos same]
      rcases List.mem_cons.mp member with rfl | inRest
      · exact absurd same different
      · exact List.mem_cons_of_mem a inRest
    · rw [store, if_neg same]
      rcases List.mem_cons.mp member with rfl | inRest
      · exact List.mem_cons_self
      · exact List.mem_cons_of_mem c (inductionHypothesis inRest)

/-- A record that is stored over another is found under its key. -/
theorem lookup_store_self {a b : α} {records : List α}
    (found : lookup key (key a) records = some b) :
    lookup key (key a) (store key a records) = some a := by
  induction records with
  | nil => cases found
  | cons c rest inductionHypothesis =>
    by_cases same : key c = key a
    · simp [store, same, lookup_cons]
    · rw [lookup_cons, if_neg same] at found
      rw [store, if_neg same, lookup_cons, if_neg same]
      exact inductionHypothesis found

/-- A store is not seen under other keys. -/
theorem lookup_store_other {a : α} {k : κ} (records : List α) (different : key a ≠ k) :
    lookup key k (store key a records) = lookup key k records := by
  induction records with
  | nil => rfl
  | cons c rest inductionHypothesis =>
    by_cases same : key c = key a
    · have other : key c ≠ k := same ▸ different
      simp [store, same, lookup_cons, different]
    · rw [store, if_neg same, lookup_cons, lookup_cons, inductionHypothesis]

/-- A removal adds nothing. -/
theorem mem_of_mem_remove {k : κ} {a : α} {records : List α}
    (member : a ∈ remove key k records) : a ∈ records := by
  induction records with
  | nil => cases member
  | cons c rest inductionHypothesis =>
    by_cases same : key c = k
    · rw [remove, if_pos same] at member
      exact List.mem_cons_of_mem c member
    · rw [remove, if_neg same] at member
      rcases List.mem_cons.mp member with rfl | inRest
      · exact List.mem_cons_self
      · exact List.mem_cons_of_mem c (inductionHypothesis inRest)

/-- A removal takes out only records with its key. -/
theorem mem_remove_of_ne {k : κ} {a : α} {records : List α} (member : a ∈ records)
    (different : key a ≠ k) : a ∈ remove key k records := by
  induction records with
  | nil => cases member
  | cons c rest inductionHypothesis =>
    by_cases same : key c = k
    · rw [remove, if_pos same]
      rcases List.mem_cons.mp member with rfl | inRest
      · exact absurd same different
      · exact inRest
    · rw [remove, if_neg same]
      rcases List.mem_cons.mp member with rfl | inRest
      · exact List.mem_cons_self
      · exact List.mem_cons_of_mem c (inductionHypothesis inRest)

/-- A removal keeps the order. -/
theorem remove_sublist (k : κ) (records : List α) :
    (remove key k records).Sublist records := by
  induction records with
  | nil => exact List.Sublist.refl []
  | cons c rest inductionHypothesis =>
    by_cases same : key c = k
    · rw [remove, if_pos same]
      exact List.sublist_cons_self c rest
    · rw [remove, if_neg same]
      exact inductionHypothesis.cons_cons c

/-- A removal keeps keys distinct. -/
theorem remove_distinct {k : κ} {records : List α} (distinct : (records.map key).Nodup) :
    ((remove key k records).map key).Nodup :=
  distinct.sublist ((remove_sublist key k records).map key)

/-- Unlinking under distinct keys leaves no record of the key. -/
theorem key_ne_of_mem_remove {k : κ} {a : α} {records : List α}
    (distinct : (records.map key).Nodup) (member : a ∈ remove key k records) : key a ≠ k := by
  induction records with
  | nil => cases member
  | cons c rest inductionHypothesis =>
    have split : key c ∉ rest.map key ∧ (rest.map key).Nodup := by
      simpa only [List.map_cons, List.nodup_cons] using distinct
    by_cases same : key c = k
    · rw [remove, if_pos same] at member
      intro again
      exact split.1 (same.trans again.symm ▸ List.mem_map_of_mem member)
    · rw [remove, if_neg same] at member
      rcases List.mem_cons.mp member with rfl | inRest
      · exact same
      · exact inductionHypothesis split.2 inRest

/-- A key is gone after its removal, as long as keys are distinct. -/
theorem lookup_remove_self {k : κ} {records : List α} (distinct : (records.map key).Nodup) :
    lookup key k (remove key k records) = none :=
  (lookup_none_iff key).mpr fun _ member => key_ne_of_mem_remove key distinct member

/-- A removal is not seen under other keys. -/
theorem lookup_remove_other {k other : κ} (records : List α) (different : other ≠ k) :
    lookup key k (remove key other records) = lookup key k records := by
  induction records with
  | nil => rfl
  | cons c rest inductionHypothesis =>
    by_cases same : key c = other
    · have not : key c ≠ k := same ▸ different
      rw [remove, if_pos same, lookup_cons, if_neg not]
    · rw [remove, if_neg same, lookup_cons, lookup_cons, inductionHypothesis]

/-- Unlinking a record behind records of other keys. -/
theorem remove_append {a : α} {before after : List α} (apart : ∀ b ∈ before, key b ≠ key a) :
    remove key (key a) (before ++ a :: after) = before ++ after := by
  induction before with
  | nil => simp [remove]
  | cons b rest inductionHypothesis =>
    have here : key b ≠ key a := apart b List.mem_cons_self
    rw [List.cons_append, remove, if_neg here,
      inductionHypothesis fun c member => apart c (List.mem_cons_of_mem b member)]
    rfl

/-- A search passes records of other keys. -/
theorem lookup_append {a : α} {before after : List α} (apart : ∀ b ∈ before, key b ≠ key a) :
    lookup key (key a) (before ++ a :: after) = some a := by
  induction before with
  | nil => simp [lookup]
  | cons b rest inductionHypothesis =>
    rw [List.cons_append, lookup_cons, if_neg (apart b List.mem_cons_self)]
    exact inductionHypothesis fun c member => apart c (List.mem_cons_of_mem b member)

/-- Overwriting a record behind records of other keys. -/
theorem store_append {a a' : α} {before after : List α} (same : key a' = key a)
    (apart : ∀ b ∈ before, key b ≠ key a) :
    store key a' (before ++ a :: after) = before ++ a' :: after := by
  induction before with
  | nil => simp [store, same]
  | cons b rest inductionHypothesis =>
    have here : key b ≠ key a' := same ▸ apart b List.mem_cons_self
    rw [List.cons_append, store, if_neg here,
      inductionHypothesis fun c member => apart c (List.mem_cons_of_mem b member)]
    rfl

/-- A key that a search misses is missed by a removal too. -/
theorem remove_absent {k : κ} {records : List α} (absent : lookup key k records = none) :
    remove key k records = records := by
  induction records with
  | nil => rfl
  | cons c rest inductionHypothesis =>
    have all := (lookup_none_iff key).mp absent
    have here : key c ≠ k := all c List.mem_cons_self
    rw [remove, if_neg here, inductionHypothesis]
    exact (lookup_none_iff key).mpr fun a member => all a (List.mem_cons_of_mem c member)

/-- Under distinct keys, a search after a map that keeps keys, or drops records, is the map of the
record found before. -/
theorem lookup_filterMap {f : α → Option α} {k : κ} {records : List α}
    (keeps : ∀ a b, f a = some b → key b = key a) (distinct : (records.map key).Nodup) :
    lookup key k (records.filterMap f) = (lookup key k records).bind f := by
  induction records with
  | nil => rfl
  | cons a rest inductionHypothesis =>
    rw [List.map_cons, List.nodup_cons] at distinct
    have next := inductionHypothesis distinct.2
    rw [List.filterMap_cons, lookup_cons]
    by_cases here : key a = k
    · have absent : lookup key k rest = none := (lookup_none_iff key).mpr fun b member same =>
        distinct.1 (here.trans same.symm ▸ List.mem_map_of_mem member)
      rw [if_pos here]
      cases image : f a with
      | none =>
        rw [absent] at next
        exact next.trans image.symm
      | some b =>
        dsimp only
        rw [lookup_cons, if_pos ((keeps a b image).trans here)]
        exact image.symm
    · rw [if_neg here]
      cases image : f a with
      | none => exact next
      | some b =>
        dsimp only
        rw [lookup_cons, if_neg fun same => here ((keeps a b image).symm.trans same)]
        exact next

/-- Overwriting a record leaves the records of other keys and their order. -/
theorem filter_store (a : α) (records : List α) :
    (store key a records).filter (fun b => key b ≠ key a) = records.filter (fun b => key b ≠ key a) := by
  induction records with
  | nil => rfl
  | cons b rest inductionHypothesis =>
    by_cases same : key b = key a
    · simp [store, same]
    · simp only [store, if_neg same, List.filter_cons, inductionHypothesis]

/-- Unlinking a record leaves the records of other keys and their order. -/
theorem filter_remove (k : κ) (records : List α) :
    (remove key k records).filter (fun b => key b ≠ k) = records.filter (fun b => key b ≠ k) := by
  induction records with
  | nil => rfl
  | cons b rest inductionHypothesis =>
    by_cases same : key b = k
    · simp [remove, same]
    · simp only [remove, if_neg same, List.filter_cons, inductionHypothesis]

/-! ## The finite map that a list is -/

/-- A record before the others is an update of the map. -/
theorem lookup_cons_update (a : α) (records : List α) :
    (fun k => lookup key k (a :: records)) =
      Function.update (fun k => lookup key k records) (key a) (some a) := by
  funext k
  by_cases same : k = key a
  · subst same
    simp [lookup_cons]
  · rw [lookup_cons, if_neg fun other => same other.symm, Function.update_of_ne same]

/-- Overwriting a record is an update of the map. -/
theorem lookup_store_update {a b : α} {records : List α} (found : lookup key (key a) records = some b) :
    (fun k => lookup key k (store key a records)) =
      Function.update (fun k => lookup key k records) (key a) (some a) := by
  funext k
  by_cases same : k = key a
  · subst same
    rw [lookup_store_self key found, Function.update_self]
  · rw [lookup_store_other key records fun other => same other.symm, Function.update_of_ne same]

/-- Unlinking under distinct keys is an update of the map. -/
theorem lookup_remove_update {records : List α} (k : κ) (distinct : (records.map key).Nodup) :
    (fun k' => lookup key k' (remove key k records)) =
      Function.update (fun k' => lookup key k' records) k none := by
  funext k'
  by_cases same : k' = k
  · subst same
    rw [lookup_remove_self key distinct, Function.update_self]
  · rw [lookup_remove_other key records fun other => same other.symm, Function.update_of_ne same]

/-! ## Two lists side by side -/

/-- Related records are found together. -/
theorem lookup_beside {R : α → α → Prop} (keeps : ∀ a b, R a b → key b = key a) (k : κ)
    {left right : List α} (beside : List.Forall₂ R left right) :
    Option.Rel R (lookup key k left) (lookup key k right) := by
  induction beside with
  | nil => exact .none
  | @cons a b left right one rest inductionHypothesis =>
    rw [lookup_cons, lookup_cons, keeps a b one]
    split
    · exact .some one
    · exact inductionHypothesis

/-- Related records are overwritten by related records. -/
theorem store_beside {R : α → α → Prop} (keeps : ∀ a b, R a b → key b = key a) {a b : α}
    {left right : List α} (beside : List.Forall₂ R left right) (one : R a b) :
    List.Forall₂ R (store key a left) (store key b right) := by
  induction beside with
  | nil => exact .nil
  | @cons c d left right first rest inductionHypothesis =>
    have same : key d = key b ↔ key c = key a := by rw [keeps a b one, keeps c d first]
    rw [store, store]
    by_cases here : key c = key a
    · rw [if_pos here, if_pos (same.mpr here)]
      exact .cons one rest
    · rw [if_neg here, if_neg fun there => here (same.mp there)]
      exact .cons first inductionHypothesis

/-! ## Records inside larger ones -/

section Carried

universe w
variable {β : Type w} (outer : β → κ) {carry : β → α}

/-- Change the first record of a key. -/
def modify (k : κ) (f : β → β) : List β → List β
  | [] => []
  | b :: rest => if outer b = k then f b :: rest else b :: modify k f rest

/-- A search among the larger records finds what a search among the smaller ones finds. -/
theorem lookup_map (keys : ∀ b, outer b = key (carry b)) (k : κ) (records : List β) :
    lookup key k (records.map carry) = (lookup outer k records).map carry := by
  induction records with
  | nil => rfl
  | cons b rest inductionHypothesis =>
    rw [List.map_cons, lookup_cons, lookup_cons, keys b, inductionHypothesis]
    split <;> rfl

/-- Unlinking a larger record unlinks the smaller one in it. -/
theorem remove_map (keys : ∀ b, outer b = key (carry b)) (k : κ) (records : List β) :
    remove key k (records.map carry) = (remove outer k records).map carry := by
  induction records with
  | nil => rfl
  | cons b rest inductionHypothesis =>
    rw [List.map_cons, remove, remove, keys b, inductionHypothesis]
    split <;> rfl

/-- Putting a smaller record into the larger one of its key overwrites it. -/
theorem modify_map (keys : ∀ b, outer b = key (carry b)) {a : α} {f : β → β}
    (puts : ∀ b, carry (f b) = a) (records : List β) :
    (modify outer (key a) f records).map carry = store key a (records.map carry) := by
  induction records with
  | nil => rfl
  | cons b rest inductionHypothesis =>
    rw [List.map_cons, modify, store, ← keys b]
    split
    · rw [List.map_cons, puts]
    · rw [List.map_cons, inductionHypothesis]

/-- A change that keeps a part of the record it meets keeps that part of every record. -/
theorem modify_keeps {γ : Type*} {k : κ} {f : β → β} {part : β → γ} {b : β} {records : List β}
    (found : lookup outer k records = some b) (keeps : part (f b) = part b) :
    (modify outer k f records).map part = records.map part := by
  induction records with
  | nil => rfl
  | cons c rest inductionHypothesis =>
    rw [lookup_cons] at found
    by_cases same : outer c = k
    · rw [if_pos same] at found
      rw [modify, if_pos same, List.map_cons, List.map_cons, Option.some.inj found, keeps]
    · rw [if_neg same] at found
      rw [modify, if_neg same, List.map_cons, List.map_cons, inductionHypothesis found]

end Carried

end Keyed
