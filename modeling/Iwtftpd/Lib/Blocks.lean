import Mathlib.Data.List.Basic

/-!
# A list cut into blocks

A list is cut into blocks of one size, numbered from 0. The block whose number
is the quotient of the length by the size is the first that is shorter; it may
be empty, and the blocks up to it make up the list. That block is where a
stop-and-wait transfer ends. A receiver that takes the blocks in order has the
whole list once it has taken a short one.
-/

namespace Blocks

universe u
variable {α : Type u}

/-- The block of a number. -/
def block (size : Nat) (content : List α) (i : Nat) : List α :=
  (content.drop (size * i)).take size

theorem block_length (size : Nat) (content : List α) (i : Nat) :
    (block size content i).length = min size (content.length - size * i) := by
  simp [block]

/-- A block is short exactly from the last one on. -/
theorem block_short {size : Nat} (positive : 0 < size) (content : List α) (i : Nat) :
    (block size content i).length < size ↔ content.length / size ≤ i := by
  rw [block_length]
  have quotient := Nat.div_lt_iff_lt_mul positive (x := content.length) (y := i + 1)
  rw [Nat.mul_comm, Nat.mul_add, Nat.mul_one] at quotient
  omega

/-- The first blocks are a prefix of the list. -/
theorem flatten_blocks (size : Nat) (content : List α) (count : Nat) :
    ((List.range count).map (block size content)).flatten = content.take (size * count) := by
  induction count with
  | zero => simp
  | succ count inductionHypothesis =>
    rw [List.range_succ, List.map_append, List.flatten_append, inductionHypothesis, Nat.mul_succ,
      List.take_add]
    simp [block]

/-- The blocks up to the first short one are the list. -/
theorem flatten_all {size : Nat} (positive : 0 < size) (content : List α) :
    ((List.range (content.length / size + 1)).map (block size content)).flatten = content := by
  rw [flatten_blocks, List.take_of_length_le]
  exact Nat.le_of_lt (Nat.lt_mul_div_succ content.length positive)

/-- Lists whose blocks agree up to the first short one are equal. -/
theorem eq_of_blocks {size : Nat} (positive : 0 < size) {left right : List α}
    (agree : ∀ i, i ≤ left.length / size → block size left i = block size right i) :
    left = right := by
  have short : (block size right (left.length / size)).length < size := by
    rw [← agree _ (Nat.le_refl _)]
    exact (block_short positive left _).mpr (Nat.le_refl _)
  have bound : right.length ≤ size * (left.length / size + 1) := by
    have quotient := (block_short positive right _).mp short
    have below := Nat.lt_mul_div_succ right.length positive
    have mono : size * (right.length / size + 1) ≤ size * (left.length / size + 1) :=
      Nat.mul_le_mul_left size (Nat.succ_le_succ quotient)
    omega
  calc left = ((List.range (left.length / size + 1)).map (block size left)).flatten :=
        (flatten_all positive left).symm
    _ = ((List.range (left.length / size + 1)).map (block size right)).flatten := by
        congr 1
        exact List.map_congr_left fun i member => agree i (Nat.le_of_lt_succ (List.mem_range.mp member))
    _ = right.take (size * (left.length / size + 1)) := flatten_blocks size right _
    _ = right := List.take_of_length_le bound

/-- A whole block does not depend on what follows. -/
theorem block_append {size i : Nat} {content : List α} (whole : size * (i + 1) ≤ content.length) (more : List α) :
    block size (content ++ more) i = block size content i := by
  rw [Nat.mul_succ] at whole
  rw [block, block, List.drop_append_of_le_length (by omega), List.take_append_of_le_length]
  rw [List.length_drop]
  omega

/-! ## A receiver in order -/

/-- A receiver has taken the first blocks one after the other, and nothing else; it is through when
the last of them was short. -/
structure Received (size : Nat) (content : List α) (count : Nat) (got : List α) (through : Bool) :
    Prop where
  front : got = content.take (size * count)
  ended : through = true ↔ content.length < size * count

theorem Received.nothing (size : Nat) (content : List α) : Received size content 0 [] false where
  front := by simp
  ended := by simp

/-- Until a short block came, all that was taken is there. -/
theorem Received.within {size count : Nat} {content got : List α}
    (received : Received size content count got false) : size * count ≤ content.length := by
  apply Nat.le_of_not_lt
  intro past
  have through := received.ended.mpr past
  cases through

theorem Received.more {size count : Nat} {content got : List α} (positive : 0 < size)
    (received : Received size content count got false) : count ≤ content.length / size := by
  apply (Nat.le_div_iff_mul_le positive).mpr
  rw [Nat.mul_comm]
  exact received.within

/-- The next block. -/
theorem Received.next {size count : Nat} {content got : List α}
    (received : Received size content count got false) :
    Received size content (count + 1) (got ++ block size content count)
      (decide ((block size content count).length < size)) where
  front := by rw [received.front, Nat.mul_succ, List.take_add, block]
  ended := by
    have within := received.within
    rw [decide_eq_true_iff, block_length, Nat.mul_succ]
    constructor
    · intro short
      omega
    · intro past
      omega

/-- After a short block the receiver has the whole list. -/
theorem Received.whole {size count : Nat} {content got : List α}
    (received : Received size content count got true) : got = content := by
  have past := received.ended.mp rfl
  rw [received.front]
  exact List.take_of_length_le (Nat.le_of_lt past)

end Blocks
