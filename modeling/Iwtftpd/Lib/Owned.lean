import Iwtftpd.Lib.DoublyLinked

/-!
# Lists that own their memory

Nothing is allocated but the nodes of the list that a memory represents and those
that were lost: allocated and never linked. Linking a fresh node, overwriting a
value and unlinking with a release keep it so, whichever node they are about. The
last operation of such a list is the loop that releases it: it reads the link of a
node, releases the node and goes on. Under this invariant nothing is left of the
list, only what was lost, and no link is read too late.
-/

namespace DoublyLinked

universe u v
variable {A : Type u} {α : Type v} {m : Mem A α} {nodes : List (A × α)} {lost : List A}

/-- A memory represents one list at most. -/
theorem Seg.unique {prev next : Option A} {xs ys : List (A × α)} (seg : Seg m prev xs none)
    (seg' : Seg m prev ys none) (front_xs : front xs none = next) (front_ys : front ys none = next) :
    xs = ys := by
  induction xs generalizing prev next ys with
  | nil =>
    cases ys with
    | nil => rfl
    | cons y rest => cases front_xs.trans front_ys.symm
  | cons x xs inductionHypothesis =>
    cases ys with
    | nil => cases front_ys.trans front_xs.symm
    | cons y ys =>
      obtain ⟨a, v⟩ := x
      obtain ⟨b, w⟩ := y
      obtain rfl : a = b := Option.some.inj (front_xs.trans front_ys.symm)
      obtain ⟨-, node, tail⟩ := seg
      obtain ⟨-, node', tail'⟩ := seg'
      have same := Option.some.inj (node.symm.trans node')
      have value : v = w := congrArg Node.val same
      have link : front xs none = front ys none := congrArg Node.next same
      rw [value, inductionHypothesis tail tail' link rfl]

/-- A memory represents one list at most. -/
theorem Represents.unique {xs ys : List (A × α)} (rep : Represents m xs) (rep' : Represents m ys) : xs = ys :=
  rep.seg.unique rep'.seg rep.head.symm rep'.head.symm

/-- The list that the memory represents is all that is allocated, but for what was lost. -/
structure Owns (m : Mem A α) (nodes : List (A × α)) (lost : List A) : Prop where
  represents : Represents m nodes
  live : m.live.Perm (nodes.map Prod.fst ++ lost)
  apart : ∀ a ∈ lost, a ∉ nodes.map Prod.fst

/-- Nothing is allocated but the nodes of a list and what was lost. -/
def Owned (m : Mem A α) (lost : List A) : Prop := ∃ nodes, Owns m nodes lost

/-- An empty memory is owned. -/
theorem Owned.empty (head : m.head = none) (live : m.live = []) : Owned m [] :=
  ⟨[], ⟨head, trivial, List.nodup_nil⟩, by rw [live]; exact .nil, nofun⟩

/-- What is represented is what is owned. -/
theorem Owned.owns (owned : Owned m lost) (rep : Represents m nodes) : Owns m nodes lost := by
  obtain ⟨others, owns⟩ := owned
  exact owns.represents.unique rep ▸ owns

/-- A search finds a node that is allocated and was not lost. -/
theorem Owned.found (owned : Owned m lost) {p : α → Bool} {a : A} (found : m.find p = some a) :
    (a ∈ m.live ∧ a ∉ lost) ∧ ∃ v, m.val a = some v := by
  obtain ⟨nodes, rep, -, apart⟩ := owned
  obtain ⟨missing, -⟩ | ⟨xs, b, v, ys, rfl, -, -, there⟩ := rep.find_cases p
  · cases missing.symm.trans found
  · obtain rfl := Option.some.inj (there.symm.trans found)
    have member : (b, v) ∈ xs ++ (b, v) :: ys := by simp
    obtain ⟨live, value⟩ := rep.seg.node member
    exact ⟨⟨live, fun gone => apart b gone (List.mem_map_of_mem member)⟩, v, value⟩

section Operations

variable [DecidableEq A]

/-! ## What keeps a list the owner -/

/-- A node that is pushed is allocated. -/
theorem push_live (m : Mem A α) (a : A) (v : α) : (m.push a v).live = a :: m.live := by
  unfold Mem.push
  cases m.head <;> rfl

/-- A node that is unlinked is still allocated. -/
theorem unlink_live (m : Mem A α) (a : A) : (m.unlink a).live = m.live := by
  rw [Mem.unlink, bridgePrev_live, bridgeNext_live]

/-- A node that is pushed is owned, provided that its address was free. -/
theorem Owned.push (owned : Owned m lost) {a : A} (v : α) (fresh : a ∉ m.live) : Owned (m.push a v) lost := by
  obtain ⟨nodes, rep, live, apart⟩ := owned
  refine ⟨(a, v) :: nodes, rep.push v fresh, ?_, fun b gone => ?_⟩
  · rw [push_live]
    exact live.cons a
  · have there : b ∈ m.live := live.mem_iff.mpr (List.mem_append_right _ gone)
    rw [List.map_cons, List.mem_cons, not_or]
    refine ⟨?_, apart b gone⟩
    rintro rfl
    exact fresh there

/-- A node that is allocated and not linked is lost. -/
theorem Owned.alloc (owned : Owned m lost) {a : A} (n : Node A α) (fresh : a ∉ m.live) :
    Owned (m.alloc a n) (a :: lost) := by
  obtain ⟨nodes, rep, live, apart⟩ := owned
  refine ⟨nodes, rep.alloc n fresh, (live.cons a).trans List.perm_middle.symm, fun b gone => ?_⟩
  obtain rfl | before := List.mem_cons.mp gone
  · exact fun member => fresh (rep.live member)
  · exact apart b before

/-- Overwriting the value of an address, be it of the list or not. -/
theorem Owned.setVal (owned : Owned m lost) (a : A) (v : α) : Owned (m.setVal a v) lost := by
  obtain ⟨nodes, rep, live, apart⟩ := owned
  by_cases member : a ∈ nodes.map Prod.fst
  · obtain ⟨⟨a, w⟩, inside, rfl⟩ := List.mem_map.mp member
    obtain ⟨xs, ys, rfl⟩ := List.append_of_mem inside
    have same : (xs ++ (a, v) :: ys).map Prod.fst = (xs ++ (a, w) :: ys).map Prod.fst := by simp
    refine ⟨xs ++ (a, v) :: ys, rep.setVal v, ?_, ?_⟩ <;> rw [same]
    · exact live
    · exact apart
  · refine ⟨nodes, ⟨rep.head, ?_, rep.distinct⟩, live, apart⟩
    refine rep.seg.congr fun b own => ⟨setVal_node_of_ne m v ?_, id⟩
    rintro rfl
    exact member own

/-- Unlinking a node of the list and releasing it. -/
theorem Owned.unlink (owned : Owned m lost) {a : A} (live : a ∈ m.live) (kept : a ∉ lost) :
    Owned ((m.unlink a).release a) lost := by
  obtain ⟨nodes, rep, perm, apart⟩ := owned
  have linked := (List.mem_append.mp (perm.mem_iff.mp live)).resolve_right kept
  obtain ⟨⟨a, v⟩, inside, rfl⟩ := List.mem_map.mp linked
  obtain ⟨xs, ys, rfl⟩ := List.append_of_mem inside
  have fewer : ∀ b ∈ lost, b ∉ (xs ++ ys).map Prod.fst := by
    intro b gone member
    refine apart b gone ?_
    simp only [List.map_append, List.map_cons, List.mem_append, List.mem_cons] at member ⊢
    exact member.imp_right .inr
  refine ⟨xs ++ ys, rep.unlink, ?_, fewer⟩
  have distinct := rep.distinct
  have others : ((xs ++ (a, v) :: ys).map Prod.fst).filter (· ≠ a) = (xs ++ ys).map Prod.fst := by
    rw [List.map_append, List.map_cons, List.nodup_append, List.nodup_cons] at distinct
    obtain ⟨-, ⟨behind, -⟩, before⟩ := distinct
    have left : ∀ b ∈ xs.map Prod.fst, decide (b ≠ a) = true := fun b member =>
      decide_eq_true (before b member a List.mem_cons_self)
    have right : ∀ b ∈ ys.map Prod.fst, decide (b ≠ a) = true := by
      intro b member
      refine decide_eq_true ?_
      rintro rfl
      exact behind member
    rw [List.map_append, List.map_cons, List.filter_append, List.filter_cons_of_neg (by simp),
      List.filter_eq_self.mpr left, List.filter_eq_self.mpr right, List.map_append]
  have stays : lost.filter (· ≠ a) = lost :=
    List.filter_eq_self.mpr fun b gone => decide_eq_true fun same => kept (same ▸ gone)
  rw [← others, ← stays, ← List.filter_append]
  simp only [Mem.release, unlink_live]
  exact perm.filter _

/-! ## Releasing the list -/

/-- What a loop that releases the nodes leaves behind: the memory, the nodes in the order in which
they went, and those that had gone before their link was read. -/
structure Drained (A : Type u) (α : Type v) where
  mem : Mem A α
  gone : List (A × α)
  stale : List A

/-- The loop from an address on. -/
def Mem.drainFrom (m : Mem A α) : Nat → Option A → Drained A α
  | 0, _ => { mem := m, gone := [], stale := [] }
  | _ + 1, none => { mem := m, gone := [], stale := [] }
  | fuel + 1, some a =>
    match m.node a with
    | none => { mem := m, gone := [], stale := [] }
    | some n =>
      let r := (m.release a).drainFrom fuel n.next
      { mem := r.mem
        gone := (a, n.val) :: r.gone
        stale := if a ∈ m.live then r.stale else a :: r.stale }

/-- The loop from the head on. -/
def Mem.drain (m : Mem A α) : Drained A α := m.drainFrom m.live.length m.head

/-- The loop goes along a segment, each node once, and releases exactly its nodes. -/
theorem Seg.drainFrom {prev : Option A} {fuel : Nat} (seg : Seg m prev nodes none)
    (distinct : (nodes.map Prod.fst).Nodup) (enough : nodes.length ≤ fuel) :
    let r := m.drainFrom fuel (front nodes none)
    r.gone = nodes ∧ r.stale = [] ∧ r.mem.live = m.live.filter (· ∉ nodes.map Prod.fst) := by
  induction nodes generalizing m prev fuel with
  | nil =>
    have all : m.live = m.live.filter (· ∉ ([] : List (A × α)).map Prod.fst) := by simp
    cases fuel <;> exact ⟨rfl, rfl, all⟩
  | cons x rest inductionHypothesis =>
    obtain ⟨a, v⟩ := x
    obtain ⟨live, node, tail⟩ := seg
    rw [List.map_cons, List.nodup_cons] at distinct
    obtain ⟨apart, distinct⟩ := distinct
    cases fuel with
    | zero => cases enough
    | succ fuel =>
      -- What is still ahead does not stand on the node that goes.
      have ahead : Seg (m.release a) (some a) rest none := tail.congr fun b member => by
        refine ⟨rfl, fun there => List.mem_filter.mpr ⟨there, decide_eq_true ?_⟩⟩
        rintro rfl
        exact apart member
      obtain ⟨gone, stale, left⟩ := inductionHypothesis ahead distinct (Nat.le_of_succ_le_succ enough)
      have here : front ((a, v) :: rest) none = some a := rfl
      dsimp only
      rw [here]
      simp only [Mem.drainFrom, node, live, if_true]
      refine ⟨congrArg _ gone, stale, left.trans ?_⟩
      simp only [Mem.release, List.filter_filter, List.map_cons, List.mem_cons, not_or]
      refine List.filter_congr fun b _ => ?_
      by_cases same : b = a <;> simp [same]

/-- Releasing a list that owns its memory leaves nothing allocated but what was lost. -/
theorem Owns.drain (owns : Owns m nodes lost) :
    m.drain.gone = nodes ∧ m.drain.stale = [] ∧ m.drain.mem.live.Perm lost := by
  obtain ⟨rep, live, apart⟩ := owns
  have released := rep.seg.drainFrom rep.distinct rep.length_le
  rw [← rep.head] at released
  obtain ⟨gone, stale, left⟩ := released
  refine ⟨gone, stale, ?_⟩
  have released : (nodes.map Prod.fst).filter (· ∉ nodes.map Prod.fst) = [] :=
    List.filter_eq_nil_iff.mpr fun a member => by simpa using member
  have stays : lost.filter (· ∉ nodes.map Prod.fst) = lost :=
    List.filter_eq_self.mpr fun a gone => decide_eq_true (apart a gone)
  have both := live.filter (· ∉ nodes.map Prod.fst)
  rw [List.filter_append, released, stays, List.nil_append] at both
  exact left.symm ▸ both

end Operations

end DoublyLinked
