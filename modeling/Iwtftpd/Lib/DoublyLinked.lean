import Mathlib.Data.List.Perm.Subperm
import Mathlib.Logic.Function.Basic
import Iwtftpd.Lib.Keyed

/-!
# Doubly linked lists in memory

A memory holds nodes at addresses, each with a pointer to the next and to the
previous node, and a pointer to the first. Some of the addresses are allocated;
an address that was released keeps what it held until it is allocated again.
The operations are those of a program: link a new node before the head, walk
along the next pointers, overwrite the value of a node, unlink a node and
release it. A memory represents a list of addresses and values, and each
operation is the one of lists that it should be.
-/

namespace DoublyLinked

universe u v
variable {A : Type u} {α : Type v}

/-- What an address holds. -/
structure Node (A : Type u) (α : Type v) where
  next : Option A
  prev : Option A
  val : α

/-- The nodes, the addresses that are allocated, and the pointer to the first node. -/
structure Mem (A : Type u) (α : Type v) where
  node : A → Option (Node A α)
  live : List A
  head : Option A

/-- The link of a node to the one behind it. -/
def Mem.next (m : Mem A α) (a : A) : Option A := (m.node a).bind Node.next

/-- The link of a node to the one before it. -/
def Mem.prev (m : Mem A α) (a : A) : Option A := (m.node a).bind Node.prev

/-- What a node holds. -/
def Mem.val (m : Mem A α) (a : A) : Option α := (m.node a).map Node.val

/-! ## Operations -/

section Operations

variable [DecidableEq A]

/-- A store to the link of a node to the one behind it. -/
def Mem.setNext (m : Mem A α) (a : A) (next : Option A) : Mem A α :=
  { m with node := Function.update m.node a ((m.node a).map fun n => { n with next := next }) }

/-- A store to the link of a node to the one before it. -/
def Mem.setPrev (m : Mem A α) (a : A) (prev : Option A) : Mem A α :=
  { m with node := Function.update m.node a ((m.node a).map fun n => { n with prev := prev }) }

/-- A store to what a node holds. -/
def Mem.setVal (m : Mem A α) (a : A) (v : α) : Mem A α :=
  { m with node := Function.update m.node a ((m.node a).map fun n => { n with val := v }) }

/-- A node at an address that was free. -/
def Mem.alloc (m : Mem A α) (a : A) (n : Node A α) : Mem A α :=
  { m with node := Function.update m.node a (some n), live := a :: m.live }

/-- The node stays as it is; its address may be allocated again. -/
def Mem.release (m : Mem A α) (a : A) : Mem A α := { m with live := m.live.filter (· ≠ a) }

/-- A new node before the head. -/
def Mem.push (m : Mem A α) (a : A) (v : α) : Mem A α :=
  let linked := m.alloc a { next := m.head, prev := none, val := v }
  match m.head with
  | none => { linked with head := some a }
  | some h => { linked.setPrev h (some a) with head := some a }

/-- Make what follows the previous node, or the head, the next one. -/
def Mem.bridgeNext (m : Mem A α) (prev next : Option A) : Mem A α :=
  match prev with
  | none => { m with head := next }
  | some p => m.setNext p next

/-- The node behind a gap is linked to the one before it, if there is one behind it. -/
def Mem.bridgePrev (m : Mem A α) (prev next : Option A) : Mem A α :=
  match next with
  | none => m
  | some n => m.setPrev n prev

/-- Link the neighbours of a node with each other. -/
def Mem.unlink (m : Mem A α) (a : A) : Mem A α :=
  (m.bridgeNext (m.prev a) (m.next a)).bridgePrev (m.prev a) (m.next a)

end Operations

/-- The first node from an address on whose value satisfies the predicate. -/
def Mem.findFrom (m : Mem A α) (p : α → Bool) : Nat → Option A → Option A
  | 0, _ => none
  | _ + 1, none => none
  | fuel + 1, some a =>
    match m.node a with
    | none => none
    | some n => if p n.val then some a else m.findFrom p fuel n.next

/-- A walk from the head. No list is longer than the memory that is allocated. -/
def Mem.find (m : Mem A α) (p : α → Bool) : Option A := m.findFrom p m.live.length m.head

/-! ## The list that a memory represents -/

/-- The address of the first node, or of what follows. -/
def front (nodes : List (A × α)) (next : Option A) : Option A :=
  match nodes with
  | [] => next
  | (a, _) :: _ => some a

/-- The address of the last node, or of what comes before. -/
def back (prev : Option A) : List (A × α) → Option A
  | [] => prev
  | (a, _) :: rest => back (some a) rest

/-- The nodes are linked with each other, and with what stands before and behind them. -/
def Seg (m : Mem A α) : Option A → List (A × α) → Option A → Prop
  | _, [], _ => True
  | prev, (a, v) :: rest, next =>
    a ∈ m.live ∧ m.node a = some { next := front rest next, prev := prev, val := v } ∧
      Seg m (some a) rest next

/-- The list of the addresses and the values. -/
structure Represents (m : Mem A α) (nodes : List (A × α)) : Prop where
  head : m.head = front nodes none
  seg : Seg m none nodes none
  distinct : (nodes.map Prod.fst).Nodup

/-- The first address of two lists after each other. -/
@[simp] theorem front_append (xs ys : List (A × α)) (next : Option A) :
    front (xs ++ ys) next = front xs (front ys next) := by
  cases xs <;> rfl

/-- The last address of two lists after each other. -/
@[simp] theorem back_append (prev : Option A) (xs ys : List (A × α)) :
    back prev (xs ++ ys) = back (back prev xs) ys := by
  induction xs generalizing prev with
  | nil => rfl
  | cons x rest inductionHypothesis => exact inductionHypothesis (some x.1)

/-- A segment of a list is cut anywhere into two that meet there. -/
theorem seg_append {m : Mem A α} {prev next : Option A} {xs ys : List (A × α)} :
    Seg m prev (xs ++ ys) next ↔ Seg m prev xs (front ys next) ∧ Seg m (back prev xs) ys next := by
  induction xs generalizing prev with
  | nil => simp [Seg, back]
  | cons x rest inductionHypothesis =>
    simp only [List.cons_append, Seg, back, front_append, inductionHypothesis, and_assoc]

/-- A segment depends on its own nodes only. -/
theorem Seg.congr {m m' : Mem A α} {prev next : Option A} {nodes : List (A × α)}
    (seg : Seg m prev nodes next)
    (same : ∀ a ∈ nodes.map Prod.fst, m'.node a = m.node a ∧ (a ∈ m.live → a ∈ m'.live)) :
    Seg m' prev nodes next := by
  induction nodes generalizing prev with
  | nil => trivial
  | cons x rest inductionHypothesis =>
    obtain ⟨live, node, tail⟩ := seg
    obtain ⟨node', live'⟩ := same x.1 (by simp)
    refine ⟨live' live, node'.trans node, inductionHypothesis tail fun a member => same a ?_⟩
    simp only [List.map_cons, List.mem_cons]
    exact .inr member

/-- Every node of a segment holds its value. -/
theorem Seg.node {m : Mem A α} {prev next : Option A} {nodes : List (A × α)} {a : A} {v : α}
    (seg : Seg m prev nodes next) (member : (a, v) ∈ nodes) : a ∈ m.live ∧ m.val a = some v := by
  induction nodes generalizing prev with
  | nil => cases member
  | cons x rest inductionHypothesis =>
    obtain ⟨live, node, tail⟩ := seg
    obtain rfl | inRest := List.mem_cons.mp member
    · exact ⟨live, by simp [Mem.val, node]⟩
    · exact inductionHypothesis tail inRest

/-- The last address of a segment is one of its own, or stands before it. -/
theorem back_mem {prev : Option A} {nodes : List (A × α)} {a : A} (last : back prev nodes = some a) :
    prev = some a ∨ a ∈ nodes.map Prod.fst := by
  induction nodes generalizing prev with
  | nil => exact .inl last
  | cons x rest inductionHypothesis =>
    obtain own | later := inductionHypothesis last
    · exact .inr (by simp [Option.some.inj own])
    · exact .inr (by simp only [List.map_cons, List.mem_cons]; exact .inr later)

/-- The first address is that of the list, or what lies behind it when that is empty. -/
theorem front_mem {next : Option A} {nodes : List (A × α)} {a : A} (first : front nodes next = some a) :
    next = some a ∨ a ∈ nodes.map Prod.fst := by
  cases nodes with
  | nil => exact .inl first
  | cons x rest => exact .inr (by simp [Option.some.inj first])

/-- The nodes of a list are allocated. -/
theorem Represents.live {m : Mem A α} {nodes : List (A × α)} {a : A} (rep : Represents m nodes)
    (member : a ∈ nodes.map Prod.fst) : a ∈ m.live := by
  obtain ⟨⟨b, v⟩, inside, rfl⟩ := List.mem_map.mp member
  exact (rep.seg.node inside).1

/-- The node in the middle of what is represented. -/
theorem Represents.middle {m : Mem A α} {xs ys : List (A × α)} {a : A} {v : α}
    (rep : Represents m (xs ++ (a, v) :: ys)) :
    Seg m none xs (some a) ∧ a ∈ m.live ∧
      m.node a = some { next := front ys none, prev := back none xs, val := v } ∧ Seg m (some a) ys none := by
  obtain ⟨before, live, node, after⟩ := seg_append.mp rep.seg
  exact ⟨before, live, node, after⟩

/-! ## Walking -/

/-- A search along the links finds the first node that is looked for.

Proof: by induction over the segment. -/
theorem Seg.findFrom {m : Mem A α} {prev : Option A} {nodes : List (A × α)} (p : α → Bool) {fuel : Nat}
    (seg : Seg m prev nodes none) (enough : nodes.length ≤ fuel) :
    m.findFrom p fuel (front nodes none) = (nodes.find? fun x => p x.2).map Prod.fst := by
  induction nodes generalizing prev fuel with
  | nil => cases fuel <;> rfl
  | cons x rest inductionHypothesis =>
    obtain ⟨-, node, tail⟩ := seg
    cases fuel with
    | zero => cases enough
    | succ fuel =>
      have later := inductionHypothesis tail (Nat.le_of_succ_le_succ enough)
      have step : m.findFrom p (fuel + 1) (some x.1) =
          if p x.2 = true then some x.1 else m.findFrom p fuel (front rest none) := by
        simp only [Mem.findFrom, node]
      have here : front (x :: rest) none = some x.1 := rfl
      rw [here, step, later, List.find?_cons]
      cases p x.2 <;> simp

/-- A list is no longer than the memory that is allocated. -/
theorem Represents.length_le {m : Mem A α} {nodes : List (A × α)} (rep : Represents m nodes) :
    nodes.length ≤ m.live.length := by
  have within : (nodes.map Prod.fst).length ≤ m.live.length :=
    (List.subperm_of_subset rep.distinct fun _ member => rep.live member).length_le
  rwa [List.length_map] at within

/-- A search finds the address of the first node that it should. -/
theorem Represents.find {m : Mem A α} {nodes : List (A × α)} (rep : Represents m nodes) (p : α → Bool) :
    m.find p = (nodes.find? fun x => p x.2).map Prod.fst := by
  rw [Mem.find, rep.head]
  exact rep.seg.findFrom p rep.length_le

/-- A search fails, or splits the list at the first node that it should find. -/
theorem Represents.find_cases {m : Mem A α} {nodes : List (A × α)} (rep : Represents m nodes) (p : α → Bool) :
    (m.find p = none ∧ ∀ x ∈ nodes, p x.2 = false) ∨
      ∃ xs a v ys, nodes = xs ++ (a, v) :: ys ∧ (∀ x ∈ xs, p x.2 = false) ∧ p v = true ∧ m.find p = some a := by
  have walked := rep.find p
  cases found : nodes.find? fun x => p x.2 with
  | none =>
    rw [found] at walked
    exact .inl ⟨walked, by simpa using found⟩
  | some x =>
    obtain ⟨a, v⟩ := x
    obtain ⟨holds, xs, ys, split, before⟩ := List.find?_eq_some_iff_append.mp found
    rw [found] at walked
    exact .inr ⟨xs, a, v, ys, split, by simpa using before, holds, walked⟩

/-- A search by a key is the search of the records in the list. Where it succeeds, it splits the
list at the first node of the key. -/
theorem Represents.lookup_cases {β κ : Type*} [DecidableEq κ] (key : β → κ) (f : α → β) {m : Mem A α}
    {nodes : List (A × α)} (rep : Represents m nodes) (k : κ) :
    (m.find (fun v => key (f v) = k) = none ∧ Keyed.lookup key k (nodes.map fun x => f x.2) = none) ∨
      ∃ xs a v ys, nodes = xs ++ (a, v) :: ys ∧ (∀ b ∈ xs.map (fun x => f x.2), key b ≠ key (f v)) ∧
        key (f v) = k ∧ m.find (fun v => key (f v) = k) = some a ∧
        Keyed.lookup key k (nodes.map fun x => f x.2) = some (f v) := by
  obtain ⟨missing, none⟩ | ⟨xs, a, v, ys, rfl, before, here, found⟩ :=
    rep.find_cases fun v => decide (key (f v) = k)
  · refine .inl ⟨missing, (Keyed.lookup_none_iff key).mpr fun b member => ?_⟩
    obtain ⟨x, inside, rfl⟩ := List.mem_map.mp member
    simpa using none x inside
  · obtain rfl : key (f v) = k := by simpa using here
    have others : ∀ b ∈ xs.map (fun x => f x.2), key b ≠ key (f v) := by
      intro b member
      obtain ⟨x, inside, rfl⟩ := List.mem_map.mp member
      simpa using before x inside
    refine .inr ⟨xs, a, v, ys, rfl, others, rfl, found, ?_⟩
    rw [List.map_append, List.map_cons]
    exact Keyed.lookup_append key others

/-! ## Well-formed lists -/

/-- Following the next pointers visits these addresses, and then the list ends. -/
def Mem.Path (m : Mem A α) : Option A → List A → Prop
  | a, [] => a = none
  | a, b :: rest => a = some b ∧ m.Path (m.next b) rest

/-- A list without a cycle, doubly linked. -/
structure WellLinked (m : Mem A α) (addrs : List A) : Prop where
  live : ∀ a ∈ addrs, a ∈ m.live
  path : m.Path m.head addrs
  acyclic : addrs.Nodup
  inverse : ∀ a ∈ addrs, ∀ b, m.next a = some b ↔ b ∈ addrs ∧ m.prev b = some a
  first : ∀ a, m.head = some a → m.prev a = none

/-- The links of a segment are a path through its addresses. -/
theorem Seg.path {m : Mem A α} {prev : Option A} {nodes : List (A × α)} (seg : Seg m prev nodes none) :
    m.Path (front nodes none) (nodes.map Prod.fst) := by
  induction nodes generalizing prev with
  | nil => rfl
  | cons x rest inductionHypothesis =>
    obtain ⟨-, node, tail⟩ := seg
    refine ⟨rfl, ?_⟩
    have next : m.next x.1 = front rest none := by simp [Mem.next, node]
    rw [next]
    exact inductionHypothesis tail

/-- What is represented is well linked. -/
theorem Represents.wellLinked {m : Mem A α} {nodes : List (A × α)} (rep : Represents m nodes) :
    WellLinked m (nodes.map Prod.fst) where
  live := fun _ member => rep.live member
  path := by
    rw [rep.head]
    exact rep.seg.path
  acyclic := rep.distinct
  inverse := by
    intro a member b
    constructor
    · intro next
      obtain ⟨⟨a, v⟩, inside, rfl⟩ := List.mem_map.mp member
      obtain ⟨xs, ys, rfl⟩ := List.append_of_mem inside
      obtain ⟨-, -, node, after⟩ := rep.middle
      rw [Mem.next, node] at next
      cases ys with
      | nil => cases next
      | cons y rest =>
        obtain ⟨-, node', -⟩ := after
        obtain rfl : y.1 = b := Option.some.inj next
        exact ⟨by simp, by simp [Mem.prev, node']⟩
    · rintro ⟨member', prev⟩
      obtain ⟨⟨b, w⟩, inside, rfl⟩ := List.mem_map.mp member'
      obtain ⟨xs, ys, rfl⟩ := List.append_of_mem inside
      obtain ⟨before, -, node, -⟩ := rep.middle
      rw [Mem.prev, node] at prev
      obtain rfl | ⟨zs, ⟨z, u⟩, rfl⟩ := xs.eq_nil_or_concat'
      · cases prev
      · rw [Option.bind_some, back_append] at prev
        obtain rfl : z = a := Option.some.inj prev
        obtain ⟨-, -, node', -⟩ := seg_append.mp before
        simp [Mem.next, node', front]
  first := by
    intro a head
    rw [rep.head] at head
    cases nodes with
    | nil => cases head
    | cons x rest =>
      obtain rfl : x.1 = a := Option.some.inj head
      obtain ⟨-, node, -⟩ := rep.seg
      simp [Mem.prev, node]

/-- A path through nodes that are allocated, hold what they should and have inverse links is a
segment. -/
private theorem seg_of_path {m : Mem A α} {prev : Option A} {nodes : List (A × α)}
    (path : m.Path (front nodes none) (nodes.map Prod.fst))
    (held : ∀ x ∈ nodes, x.1 ∈ m.live ∧ m.val x.1 = some x.2)
    (before : ∀ a, front nodes none = some a → m.prev a = prev)
    (inverse : ∀ a ∈ nodes.map Prod.fst, ∀ b, m.next a = some b → m.prev b = some a) :
    Seg m prev nodes none := by
  induction nodes generalizing prev with
  | nil => trivial
  | cons x rest inductionHypothesis =>
    obtain ⟨a, v⟩ := x
    obtain ⟨-, onward⟩ := path
    obtain ⟨live, value⟩ := held (a, v) List.mem_cons_self
    have next : m.next a = front rest none := by
      cases rest with
      | nil => exact onward
      | cons y more => exact onward.1
    have back : m.prev a = prev := before a rfl
    refine ⟨live, ?_, ?_⟩
    · cases node : m.node a with
      | none => simp [Mem.val, node] at value
      | some n =>
        simp only [Mem.val, Mem.next, Mem.prev, node, Option.map_some, Option.bind_some, Option.some.injEq]
          at value next back
        rw [← value, ← next, ← back]
    · have nexts : ∀ b, front rest none = some b → m.prev b = some a := fun b first =>
        inverse a (by simp) b (next.trans first)
      apply inductionHypothesis (next ▸ onward) (fun y member => held y (List.mem_cons_of_mem _ member)) nexts
      intro b member
      apply inverse
      exact List.mem_cons_of_mem _ member

/-- A memory represents exactly the well linked lists of it, with the values that they hold. -/
theorem represents_iff {m : Mem A α} {nodes : List (A × α)} :
    Represents m nodes ↔
      WellLinked m (nodes.map Prod.fst) ∧ ∀ x ∈ nodes, m.val x.1 = some x.2 := by
  constructor
  · intro rep
    exact ⟨rep.wellLinked, fun _ member => (rep.seg.node member).2⟩
  · rintro ⟨linked, values⟩
    have head : m.head = front nodes none := by
      have path := linked.path
      cases nodes with
      | nil => exact path
      | cons x rest => exact path.1
    have path := linked.path
    rw [head] at path
    refine ⟨head, seg_of_path path ?_ ?_ ?_, linked.acyclic⟩
    · exact fun x member => ⟨linked.live x.1 (List.mem_map_of_mem member), values x member⟩
    · exact fun a first => linked.first a (head.trans first)
    · exact fun a member b next => ((linked.inverse a member b).mp next).2

section Laws

variable [DecidableEq A]

/-! ## Relinking -/

/-- Each of the three stores changes one member of one node. -/
@[simp] theorem setNext_node_self (m : Mem A α) (a : A) (next : Option A) :
    (m.setNext a next).node a = (m.node a).map fun n => { n with next := next } :=
  Function.update_self _ _ _

@[simp] theorem setPrev_node_self (m : Mem A α) (a : A) (prev : Option A) :
    (m.setPrev a prev).node a = (m.node a).map fun n => { n with prev := prev } :=
  Function.update_self _ _ _

@[simp] theorem setVal_node_self (m : Mem A α) (a : A) (v : α) :
    (m.setVal a v).node a = (m.node a).map fun n => { n with val := v } :=
  Function.update_self _ _ _

/-- Each of the three stores leaves every other node as it is. -/
theorem setNext_node_of_ne (m : Mem A α) {a b : A} (next : Option A) (different : b ≠ a) :
    (m.setNext a next).node b = m.node b := Function.update_of_ne different _ _

theorem setPrev_node_of_ne (m : Mem A α) {a b : A} (prev : Option A) (different : b ≠ a) :
    (m.setPrev a prev).node b = m.node b := Function.update_of_ne different _ _

theorem setVal_node_of_ne (m : Mem A α) {a b : A} (v : α) (different : b ≠ a) :
    (m.setVal a v).node b = m.node b := Function.update_of_ne different _ _

/-- Bridging a gap allocates and frees nothing. -/
theorem bridgeNext_live (m : Mem A α) (prev next : Option A) : (m.bridgeNext prev next).live = m.live := by
  cases prev <;> rfl

theorem bridgePrev_live (m : Mem A α) (prev next : Option A) : (m.bridgePrev prev next).live = m.live := by
  cases next <;> rfl

/-- Bridging a gap changes no node but those beside it. -/
theorem bridgeNext_node (m : Mem A α) {prev : Option A} (next : Option A) {b : A} (apart : prev ≠ some b) :
    (m.bridgeNext prev next).node b = m.node b := by
  cases prev with
  | none => rfl
  | some p => exact setNext_node_of_ne m next fun same => apart (same ▸ rfl)

theorem bridgePrev_node (m : Mem A α) (prev : Option A) {next : Option A} {b : A} (apart : next ≠ some b) :
    (m.bridgePrev prev next).node b = m.node b := by
  cases next with
  | none => rfl
  | some n => exact setPrev_node_of_ne m prev fun same => apart (same ▸ rfl)

/-- What follows a segment is changed in its last node. -/
theorem Seg.bridgeNext {m : Mem A α} {prev next : Option A} {nodes : List (A × α)} (next' : Option A)
    (seg : Seg m prev nodes next) (distinct : (nodes.map Prod.fst).Nodup) :
    Seg (m.bridgeNext (back none nodes) next') prev nodes next' := by
  obtain rfl | ⟨xs, ⟨p, w⟩, rfl⟩ := nodes.eq_nil_or_concat'
  · trivial
  · have last : back none (xs ++ [(p, w)]) = some p := by simp [back]
    rw [List.map_append, List.nodup_append] at distinct
    rw [seg_append] at seg
    rw [last, seg_append]
    obtain ⟨first, live, node, -⟩ := seg
    constructor
    · refine first.congr fun a member => ⟨setNext_node_of_ne m next' ?_, id⟩
      exact distinct.2.2 a member p (by simp)
    · refine ⟨live, ?_, trivial⟩
      show (m.setNext p next').node p = _
      simp [node, front]

/-- What stands before a segment is changed in its first node. -/
theorem Seg.bridgePrev {m : Mem A α} {prev next : Option A} {nodes : List (A × α)} (prev' : Option A)
    (seg : Seg m prev nodes next) (distinct : (nodes.map Prod.fst).Nodup) :
    Seg (m.bridgePrev prev' (front nodes none)) prev' nodes next := by
  cases nodes with
  | nil => trivial
  | cons x rest =>
    obtain ⟨live, node, tail⟩ := seg
    rw [List.map_cons, List.nodup_cons] at distinct
    refine ⟨live, ?_, ?_⟩
    · show (m.setPrev x.1 prev').node x.1 = _
      simp [node]
    · refine tail.congr fun a member => ⟨setPrev_node_of_ne m prev' ?_, id⟩
      rintro rfl
      exact distinct.1 member

/-! ## The operations on what is represented -/

/-- A node linked before the head. -/
theorem Represents.push {m : Mem A α} {nodes : List (A × α)} {a : A} (v : α) (rep : Represents m nodes)
    (fresh : a ∉ m.live) : Represents (m.push a v) ((a, v) :: nodes) := by
  have apart : a ∉ nodes.map Prod.fst := fun member => fresh (rep.live member)
  have other (b : A) (member : b ∈ nodes.map Prod.fst) : b ≠ a := fun same => apart (same ▸ member)
  let linked := m.alloc a { next := m.head, prev := none, val := v }
  have own : linked.node a = some { next := m.head, prev := none, val := v } := Function.update_self _ _ _
  have rest : Seg linked none nodes none := rep.seg.congr fun b member =>
    ⟨Function.update_of_ne (other b member) _ _, List.mem_cons_of_mem a⟩
  have distinct : (((a, v) :: nodes).map Prod.fst).Nodup := List.nodup_cons.mpr ⟨apart, rep.distinct⟩
  cases nodes with
  | nil =>
    have empty : m.head = none := rep.head
    have pushed : m.push a v = { linked with head := some a } := by
      simp only [Mem.push, empty, linked]
    rw [pushed]
    refine ⟨rfl, ⟨List.mem_cons_self, ?_, trivial⟩, distinct⟩
    rw [empty] at own
    exact own
  | cons x tail =>
    have first : m.head = some x.1 := rep.head
    have pushed : m.push a v = { linked.setPrev x.1 (some a) with head := some a } := by
      simp only [Mem.push, first, linked]
    rw [pushed]
    refine ⟨rfl, ⟨List.mem_cons_self, ?_, ?_⟩, distinct⟩
    · rw [first] at own
      exact (setPrev_node_of_ne linked (some a) (Ne.symm (other x.1 (by simp)))).trans own
    · exact (rest.bridgePrev (some a) rep.distinct).congr fun _ _ => ⟨rfl, id⟩

/-- A node that is unlinked and released. -/
theorem Represents.unlink {m : Mem A α} {xs ys : List (A × α)} {a : A} {v : α}
    (rep : Represents m (xs ++ (a, v) :: ys)) : Represents ((m.unlink a).release a) (xs ++ ys) := by
  obtain ⟨before, -, node, after⟩ := rep.middle
  have distinct := rep.distinct
  rw [List.map_append, List.map_cons, List.nodup_append, List.nodup_cons] at distinct
  obtain ⟨left, ⟨outside, right⟩, apart⟩ := distinct
  have prev : m.prev a = back none xs := by simp [Mem.prev, node]
  have next : m.next a = front ys none := by simp [Mem.next, node]
  have notLast {b : A} (member : b ∈ ys.map Prod.fst) : back none xs ≠ some b := by
    intro last
    obtain none | inside := back_mem last
    · cases none
    · exact apart b inside b (List.mem_cons_of_mem a member) rfl
  have notFirst {b : A} (member : b ∈ xs.map Prod.fst) : front ys none ≠ some b := by
    intro first
    obtain none | inside := front_mem first
    · cases none
    · exact apart b member b (List.mem_cons_of_mem a inside) rfl
  -- The left neighbour is linked to the right one, and then the right one to the left.
  let half := m.bridgeNext (back none xs) (front ys none)
  have left₁ : Seg half none xs (front ys none) := before.bridgeNext (front ys none) left
  have right₁ : Seg half (some a) ys none := after.congr fun b member =>
    ⟨bridgeNext_node m (front ys none) (notLast member), by simp [half, bridgeNext_live]⟩
  let whole := half.bridgePrev (back none xs) (front ys none)
  have left₂ : Seg whole none xs (front ys none) := left₁.congr fun b member =>
    ⟨bridgePrev_node half (back none xs) (notFirst member), by simp [whole, bridgePrev_live]⟩
  have right₂ : Seg whole (back none xs) ys none := right₁.bridgePrev (back none xs) right
  have unlinked : m.unlink a = whole := by rw [Mem.unlink, prev, next]
  rw [unlinked]
  have seg : Seg whole none (xs ++ ys) none := seg_append.mpr ⟨left₂, right₂⟩
  refine ⟨?_, ?_, ?_⟩
  · have kept : whole.head = half.head := by
      simp only [whole]
      cases front ys none <;> rfl
    show whole.head = _
    rw [kept]
    cases xs with
    | nil => rfl
    | cons x tail =>
      obtain ⟨p, last⟩ : ∃ p, back none (x :: tail) = some p := by
        have some (o : Option A) (rest : List (A × α)) (b : A) : ∃ p, back (some b) rest = some p := by
          induction rest generalizing b with
          | nil => exact ⟨b, rfl⟩
          | cons y more inductionHypothesis => exact inductionHypothesis y.1
        exact some none tail x.1
      have unmoved : half.head = m.head := by
        simp only [half, last]
        rfl
      rw [unmoved, rep.head]
      rfl
  · refine seg.congr fun b member => ⟨rfl, fun live => ?_⟩
    refine List.mem_filter.mpr ⟨live, decide_eq_true ?_⟩
    rintro rfl
    rw [List.map_append, List.mem_append] at member
    obtain inLeft | inRight := member
    · exact apart b inLeft b List.mem_cons_self rfl
    · exact outside inRight
  · rw [List.map_append, List.nodup_append]
    exact ⟨left, right, fun b inLeft c inRight => apart b inLeft c (List.mem_cons_of_mem a inRight)⟩

/-- What is unlinked and released keeps its own links. -/
theorem Represents.unlinked {m : Mem A α} {xs ys : List (A × α)} {a : A} {v : α}
    (rep : Represents m (xs ++ (a, v) :: ys)) : ((m.unlink a).release a).node a = m.node a := by
  obtain ⟨-, -, node, -⟩ := rep.middle
  have distinct := rep.distinct
  rw [List.map_append, List.map_cons, List.nodup_append, List.nodup_cons] at distinct
  obtain ⟨-, ⟨outside, -⟩, apart⟩ := distinct
  have prev : m.prev a ≠ some a := by
    intro last
    simp only [Mem.prev, node, Option.bind_some] at last
    obtain none | inside := back_mem last
    · cases none
    · exact apart a inside a List.mem_cons_self rfl
  have next : m.next a ≠ some a := by
    intro first
    simp only [Mem.next, node, Option.bind_some] at first
    obtain none | inside := front_mem first
    · cases none
    · exact outside inside
  exact (bridgePrev_node _ (m.prev a) next).trans (bridgeNext_node m (m.next a) prev)

/-- Taking a node out of the list changes links only. -/
theorem unlink_val (m : Mem A α) (a b : A) : (m.unlink a).val b = m.val b := by
  have linkedNext (m : Mem A α) (prev next : Option A) : (m.bridgeNext prev next).val b = m.val b := by
    cases prev with
    | none => rfl
    | some c =>
      by_cases same : b = c
      · rw [same, Mem.bridgeNext, Mem.val, setNext_node_self, Option.map_map]
        rfl
      · rw [Mem.val, bridgeNext_node m next fun h => same (Option.some.inj h).symm, ← Mem.val]
  have linkedPrev (m : Mem A α) (prev next : Option A) : (m.bridgePrev prev next).val b = m.val b := by
    cases next with
    | none => rfl
    | some c =>
      by_cases same : b = c
      · rw [same, Mem.bridgePrev, Mem.val, setPrev_node_self, Option.map_map]
        rfl
      · rw [Mem.val, bridgePrev_node m prev fun h => same (Option.some.inj h).symm, ← Mem.val]
  rw [Mem.unlink, linkedPrev, linkedNext]

/-- A node that is allocated for itself is in no list. -/
theorem Represents.alloc {m : Mem A α} {nodes : List (A × α)} {a : A} (n : Node A α)
    (rep : Represents m nodes) (fresh : a ∉ m.live) : Represents (m.alloc a n) nodes := by
  refine ⟨rep.head, rep.seg.congr fun b member => ⟨?_, List.mem_cons_of_mem a⟩, rep.distinct⟩
  have other : b ≠ a := by
    rintro rfl
    exact fresh (rep.live member)
  exact Function.update_of_ne other _ _

/-- A value that is overwritten. -/
theorem Represents.setVal {m : Mem A α} {xs ys : List (A × α)} {a : A} {v : α} (w : α)
    (rep : Represents m (xs ++ (a, v) :: ys)) : Represents (m.setVal a w) (xs ++ (a, w) :: ys) := by
  obtain ⟨before, live, node, after⟩ := rep.middle
  have distinct := rep.distinct
  have same : (xs ++ (a, w) :: ys).map Prod.fst = (xs ++ (a, v) :: ys).map Prod.fst := by simp
  rw [List.map_append, List.map_cons, List.nodup_append, List.nodup_cons] at distinct
  obtain ⟨-, ⟨outside, -⟩, apart⟩ := distinct
  refine ⟨?_, ?_, same ▸ rep.distinct⟩
  · have head : m.head = _ := rep.head
    rw [front_append] at head ⊢
    exact head
  · rw [seg_append]
    refine ⟨before.congr fun b member => ⟨setVal_node_of_ne m w ?_, id⟩, live, ?_,
      after.congr fun b member => ⟨setVal_node_of_ne m w ?_, id⟩⟩
    · exact apart b member a List.mem_cons_self
    · simp [node]
    · rintro rfl
      exact outside member

/-- A store to what the first node holds is one to the first entry of the list. -/
theorem Represents.setFirst {m : Mem A α} {nodes : List (A × α)} {a : A} {v : α} (w : α)
    (rep : Represents m ((a, v) :: nodes)) : Represents (m.setVal a w) ((a, w) :: nodes) := by
  have whole : Represents m ([] ++ (a, v) :: nodes) := rep
  exact whole.setVal w

end Laws

end DoublyLinked
