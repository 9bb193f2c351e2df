import Mathlib.Data.List.TakeWhile
import Mathlib.Logic.Function.Basic

/-!
# Buffers with a record of their stores

The memory that begins at the first cell of a buffer, together with every index
that was stored at. Memory goes on behind the buffer: a store past its end takes
effect, and the record tells that it happened. What a buffer holds and where it
was written are therefore two questions, each with laws for the three ways of
writing, a single store, a copy of a list and a padded copy of a string.

A string is the cells before the first terminator.
-/

namespace Buffers

universe u
variable {α : Type u}

/-- Cells from the first of the buffer on, and the indices stored at, newest first. -/
structure Buffer (α : Type u) where
  cells : Nat → α
  stored : List Nat

/-- A buffer that nothing was stored into yet, over memory of any content. -/
def fresh (cells : Nat → α) : Buffer α := { cells := cells, stored := [] }

namespace Buffer

/-- A store of one cell. -/
def put (m : Buffer α) (i : Nat) (a : α) : Buffer α :=
  { cells := Function.update m.cells i a, stored := i :: m.stored }

/-- A copy of a list to consecutive cells. -/
def copy (m : Buffer α) (i : Nat) : List α → Buffer α
  | [] => m
  | a :: rest => copy (m.put i a) (i + 1) rest

/-- The cells from an index on. -/
def read (m : Buffer α) (i : Nat) : Nat → List α
  | 0 => []
  | n + 1 => m.cells i :: read m (i + 1) n

/-- No store was at or behind the given size. -/
def Inside (m : Buffer α) (size : Nat) : Prop := ∀ i ∈ m.stored, i < size

instance (m : Buffer α) (size : Nat) : Decidable (m.Inside size) :=
  inferInstanceAs (Decidable (∀ i ∈ m.stored, i < size))

/-! ## Reading -/

/-- As many cells are read as asked for. -/
@[simp] theorem read_length (m : Buffer α) (i n : Nat) : (m.read i n).length = n := by
  induction n generalizing i with
  | zero => rfl
  | succ n inductionHypothesis => simp [read, inductionHypothesis]

/-- Two stretches that follow one another. -/
theorem read_add (m : Buffer α) (i n k : Nat) :
    m.read i (n + k) = m.read i n ++ m.read (i + n) k := by
  induction n generalizing i with
  | zero => simp [read]
  | succ n inductionHypothesis =>
    have next : i + (n + 1) = i + 1 + n := by omega
    rw [Nat.succ_add, read, inductionHypothesis, read, List.cons_append, next]

theorem read_one (m : Buffer α) (i : Nat) : m.read i 1 = [m.cells i] := rfl

/-- The stretch grows by one cell at its end. -/
theorem read_succ (m : Buffer α) (i n : Nat) :
    m.read i (n + 1) = m.read i n ++ [m.cells (i + n)] := by
  rw [read_add, read_one]

/-- Reading a buffer cell by cell. -/
theorem read_getElem? (m : Buffer α) {i n k : Nat} (below : k < n) : (m.read i n)[k]? = some (m.cells (i + k)) := by
  induction n generalizing i k with
  | zero => omega
  | succ n inductionHypothesis =>
    cases k with
    | zero => rfl
    | succ k =>
      have shifted : i + (k + 1) = i + 1 + k := by omega
      rw [read, List.getElem?_cons_succ, inductionHypothesis (by omega), shifted]

/-- Equal cells read equally. -/
theorem read_congr {m m' : Buffer α} {i n : Nat}
    (same : ∀ j, i ≤ j → j < i + n → m.cells j = m'.cells j) : m.read i n = m'.read i n := by
  induction n generalizing i with
  | zero => rfl
  | succ n inductionHypothesis =>
    have later : ∀ j, i + 1 ≤ j → j < i + 1 + n → m.cells j = m'.cells j := by
      intro j above below
      exact same j (by omega) (by omega)
    rw [read, read, same i (by omega) (by omega), inductionHypothesis later]

/-! ## Single stores -/

@[simp] theorem put_stored (m : Buffer α) (i : Nat) (a : α) : (m.put i a).stored = i :: m.stored := rfl

/-- A cell holds what was stored there. -/
@[simp] theorem put_cell (m : Buffer α) (i : Nat) (a : α) : (m.put i a).cells i = a := by
  simp [put]

/-- A store is not seen in other cells. -/
theorem put_beside (m : Buffer α) {i j : Nat} (a : α) (beside : j ≠ i) :
    (m.put i a).cells j = m.cells j := by
  simp [put, beside]

/-- A store is not seen by a read beside it. -/
theorem read_put_beside (m : Buffer α) {i j n : Nat} (a : α) (beside : j < i ∨ i + n ≤ j) :
    (m.put j a).read i n = m.read i n := by
  apply read_congr
  intro k above below
  exact put_beside m a (by omega)

/-- A store at the end of a stretch makes it longer. -/
theorem read_put_end (m : Buffer α) (i n : Nat) (a : α) :
    (m.put (i + n) a).read i (n + 1) = m.read i n ++ [a] := by
  rw [read_succ, put_cell, read_put_beside m a (by omega)]

/-- In a fresh buffer nothing was stored. -/
@[simp] theorem inside_fresh (cells : Nat → α) (size : Nat) : (fresh cells).Inside size := by
  simp [Inside, fresh]

/-- A store is inside when its index is. -/
@[simp] theorem inside_put {m : Buffer α} {i size : Nat} {a : α} :
    (m.put i a).Inside size ↔ i < size ∧ m.Inside size := by
  simp [Inside]

/-! ## Copies -/

/-- A copy is not seen in cells beside it. -/
theorem copy_beside (m : Buffer α) {i j : Nat} (xs : List α) (beside : j < i ∨ i + xs.length ≤ j) :
    (m.copy i xs).cells j = m.cells j := by
  induction xs generalizing m i with
  | nil => rfl
  | cons a rest inductionHypothesis =>
    rw [List.length_cons] at beside
    rw [copy, inductionHypothesis (m.put i a) (by omega)]
    exact put_beside m a (by omega)

/-- A copy is not seen by a read beside it. -/
theorem read_copy_beside (m : Buffer α) {i j n : Nat} (xs : List α)
    (beside : i + n ≤ j ∨ j + xs.length ≤ i) : (m.copy j xs).read i n = m.read i n := by
  apply read_congr
  intro k above below
  exact copy_beside m xs (by omega)

/-- What was copied is read back. -/
theorem read_copy (m : Buffer α) (i : Nat) (xs : List α) : (m.copy i xs).read i xs.length = xs := by
  induction xs generalizing m i with
  | nil => rfl
  | cons a rest inductionHypothesis =>
    have first : ((m.put i a).copy (i + 1) rest).cells i = a := by
      rw [copy_beside (m.put i a) rest (by omega), put_cell]
    rw [List.length_cons, read, copy, inductionHypothesis, first]

/-- A copy behind a stretch makes it longer. -/
theorem read_copy_end (m : Buffer α) (i n : Nat) (xs : List α) :
    (m.copy (i + n) xs).read i (n + xs.length) = m.read i n ++ xs := by
  rw [read_add, read_copy, read_copy_beside m xs (by omega)]

/-- Where a copy has stored. -/
theorem mem_copy_stored (m : Buffer α) (i : Nat) (xs : List α) (j : Nat) :
    j ∈ (m.copy i xs).stored ↔ (i ≤ j ∧ j < i + xs.length) ∨ j ∈ m.stored := by
  induction xs generalizing m i with
  | nil =>
    have nowhere : ¬ (i ≤ j ∧ j < i + ([] : List α).length) := by
      rw [List.length_nil]
      omega
    exact ⟨Or.inr, fun stored => stored.resolve_left nowhere⟩
  | cons a rest inductionHypothesis =>
    rw [copy, inductionHypothesis, put_stored, List.mem_cons, List.length_cons]
    by_cases before : j ∈ m.stored
    · simp [before]
    · simp only [before, or_false]
      omega

/-- A copy is inside when it ends within the buffer. -/
theorem inside_copy {m : Buffer α} {i size : Nat} {xs : List α} (ends : i + xs.length ≤ size)
    (inside : m.Inside size) : (m.copy i xs).Inside size := by
  intro j stored
  rcases (mem_copy_stored m i xs j).mp stored with here | before
  · omega
  · exact inside j before

/-! ## Buffers filled from the front -/

/-- Exactly the given cells were stored at, from the first on, and hold the given list. -/
structure Filled (m : Buffer α) (xs : List α) : Prop where
  held : m.read 0 xs.length = xs
  cover : ∀ i, i ∈ m.stored ↔ i < xs.length

/-- A fresh buffer is filled with nothing. -/
theorem filled_fresh (cells : Nat → α) : (fresh cells).Filled [] := by
  constructor
  · rfl
  · simp [fresh]

/-- A copy behind what was stored. -/
theorem Filled.copy_end {m : Buffer α} {xs : List α} (filled : m.Filled xs) (ys : List α) :
    (m.copy xs.length ys).Filled (xs ++ ys) := by
  constructor
  · have longer := read_copy_end m 0 xs.length ys
    rw [Nat.zero_add, filled.held] at longer
    rwa [List.length_append]
  · intro i
    rw [mem_copy_stored, filled.cover, List.length_append]
    omega

/-- One more element behind what fills a buffer. -/
theorem Filled.put_end {m : Buffer α} {xs : List α} (filled : m.Filled xs) (a : α) :
    (m.put xs.length a).Filled (xs ++ [a]) := filled.copy_end [a]

/-- What fills a buffer can be read in part. -/
theorem Filled.front {m : Buffer α} {xs ys : List α} (filled : m.Filled (xs ++ ys)) :
    m.read 0 xs.length = xs := by
  have held := filled.held
  rw [List.length_append, read_add] at held
  exact (List.append_inj held (read_length m 0 xs.length)).1

/-- The cell stored last. -/
theorem Filled.last {m : Buffer α} {xs : List α} {a : α} (filled : m.Filled (xs ++ [a])) :
    m.cells xs.length = a := by
  have held := filled.held
  rw [List.length_append, List.length_singleton, read_succ, Nat.zero_add] at held
  exact List.singleton_inj.mp (List.append_inj' held rfl).2

/-- A store over the cell stored last. -/
theorem Filled.put_last {m : Buffer α} {xs : List α} {b : α} (filled : m.Filled (xs ++ [b])) (a : α) :
    (m.put xs.length a).Filled (xs ++ [a]) := by
  constructor
  · have ended := read_put_end m 0 xs.length a
    rw [Nat.zero_add, filled.front] at ended
    rwa [List.length_append, List.length_singleton]
  · intro i
    rw [put_stored, List.mem_cons, filled.cover, List.length_append, List.length_append,
      List.length_singleton, List.length_singleton]
    omega

/-- A buffer filled from the front is as large as what it holds. -/
theorem Filled.inside_iff {m : Buffer α} {xs : List α} (filled : m.Filled xs) (size : Nat) :
    m.Inside size ↔ xs.length ≤ size := by
  constructor
  · intro inside
    by_contra short
    exact absurd (inside size ((filled.cover size).mpr (by omega))) (Nat.lt_irrefl size)
  · intro fits i stored
    have below := (filled.cover i).mp stored
    omega

/-! ## Strings -/

section Strings

variable (nul : α)

/-- `strlen` of the string that begins at the first cell, found within `size` cells. -/
def strlen [DecidableEq α] (m : Buffer α) (size : Nat) : Nat := ((m.read 0 size).takeWhile (· ≠ nul)).length

/-- `strncpy`: exactly `n` cells are stored, the string cut or padded to fill them. -/
def strncpy [DecidableEq α] (m : Buffer α) (i : Nat) (src : List α) (n : Nat) : Buffer α :=
  let text := (src.take n).takeWhile (· ≠ nul)
  m.copy i (text ++ List.replicate (n - text.length) nul)

/-- The first `size` cells are a string and terminators from its end on. -/
structure Padded (m : Buffer α) (size : Nat) (s : List α) : Prop where
  held : m.read 0 size = s ++ List.replicate (size - s.length) nul
  free : nul ∉ s

variable {nul} {m : Buffer α} {size : Nat} {s : List α}

/-- A padded string fits its field. -/
theorem Padded.fits (padded : Padded nul m size s) : s.length ≤ size := by
  have lengths := congrArg List.length padded.held
  rw [read_length, List.length_append] at lengths
  omega

/-- Within the string there is no terminator. -/
theorem Padded.cell_plain (padded : Padded nul m size s) {i : Nat} (inside : i < s.length) :
    m.cells i ≠ nul := by
  intro ended
  have fits := padded.fits
  have here := read_getElem? m (i := 0) (show i < size by omega)
  rw [padded.held, List.getElem?_append_left inside, Nat.zero_add, ended] at here
  exact padded.free (List.mem_of_getElem? here)

/-- Behind it there are terminators only. -/
theorem Padded.cell_nul (padded : Padded nul m size s) {i : Nat} (behind : s.length ≤ i)
    (inside : i < size) : m.cells i = nul := by
  have here := read_getElem? m (i := 0) inside
  rw [padded.held, List.getElem?_append_right behind, List.getElem?_replicate_of_lt (by omega),
    Nat.zero_add] at here
  exact (Option.some.inj here).symm

/-- The string itself. -/
theorem Padded.read_eq (padded : Padded nul m size s) : m.read 0 s.length = s := by
  have fits := padded.fits
  have parts : size = s.length + (size - s.length) := by omega
  have held := padded.held
  rw [parts, read_add] at held
  exact (List.append_inj held (read_length m 0 s.length)).1

/-- `strlen` finds the length of a padded string. -/
theorem Padded.strlen_eq [DecidableEq α] (padded : Padded nul m size s) : strlen nul m size = s.length := by
  have plain : ∀ a ∈ s, decide (a ≠ nul) = true := by
    intro a member
    exact decide_eq_true (fun same => padded.free (same ▸ member))
  rw [strlen, padded.held, List.takeWhile_append_of_pos plain]
  simp

/-- A copy over the first terminators makes the string longer. -/
theorem Padded.copy (padded : Padded nul m size s) {t : List α} (free : nul ∉ t)
    (fits : s.length + t.length ≤ size) : Padded nul (m.copy s.length t) size (s ++ t) := by
  constructor
  · have behind : (m.copy s.length t).read (s.length + t.length) (size - (s.length + t.length)) =
        List.replicate (size - (s.length + t.length)) nul := by
      rw [List.eq_replicate_iff]
      constructor
      · exact read_length _ _ _
      · intro a member
        obtain ⟨k, below, rfl⟩ := List.mem_iff_getElem.mp member
        rw [read_length] at below
        have here := read_getElem? (m.copy s.length t) (i := s.length + t.length) below
        rw [List.getElem?_eq_getElem (by rw [read_length]; exact below)] at here
        rw [Option.some.inj here, copy_beside m t (by omega)]
        exact padded.cell_nul (by omega) (by omega)
    have longer := read_copy_end m 0 s.length t
    rw [Nat.zero_add, padded.read_eq] at longer
    have parts : size = s.length + t.length + (size - (s.length + t.length)) := by omega
    rw [parts, read_add, longer, Nat.zero_add, behind, List.length_append]
    congr 2
    omega
  · simp [padded.free, free]

/-- A store over the first terminator makes the string longer. -/
theorem Padded.put (padded : Padded nul m size s) {a : α} (plain : a ≠ nul) (room : s.length < size) :
    Padded nul (m.put s.length a) size (s ++ [a]) := by
  have single : nul ∉ [a] := by simpa using Ne.symm plain
  exact padded.copy single room

/-- A terminator more, among the others or behind them, changes nothing. -/
theorem Padded.put_nul (padded : Padded nul m size s) {i : Nat} (behind : s.length ≤ i) :
    Padded nul (m.put i nul) size s := by
  constructor
  · rw [← padded.held]
    apply read_congr
    intro j above below
    by_cases here : j = i
    · rw [here, put_cell, padded.cell_nul behind (by omega)]
    · exact put_beside m nul here
  · exact padded.free

/-- `strncpy` of a string without terminators copies as much of it as it may. -/
theorem strncpy_plain [DecidableEq α] (m : Buffer α) (i : Nat) {src : List α} (n : Nat) (free : nul ∉ src) :
    strncpy nul m i src n = m.copy i (src.take n ++ List.replicate (n - src.length) nul) := by
  have whole : (src.take n).takeWhile (· ≠ nul) = src.take n := by
    rw [List.takeWhile_eq_self_iff]
    intro a member
    exact decide_eq_true (fun same => free (same ▸ List.mem_of_mem_take member))
  have pad : n - (src.take n).length = n - src.length := by
    rw [List.length_take]
    omega
  simp only [strncpy, whole, pad]

/-- `strncpy` stores within the field that it is told of, whatever the string. -/
theorem inside_strncpy [DecidableEq α] (m : Buffer α) {i n limit : Nat} (src : List α)
    (ends : i + n ≤ limit) (inside : m.Inside limit) : (strncpy nul m i src n).Inside limit := by
  have short : ((src.take n).takeWhile (· ≠ nul)).length ≤ n := by
    apply (List.takeWhile_sublist _).length_le.trans
    rw [List.length_take]
    omega
  apply inside_copy _ inside
  rw [List.length_append, List.length_replicate]
  omega

/-- `strncpy` to the whole of a buffer leaves the string and zeros behind it, whatever the
buffer held. -/
theorem padded_strncpy [DecidableEq α] (m : Buffer α) {src : List α} (free : nul ∉ src) (fits : src.length ≤ size) :
    Padded nul (strncpy nul m 0 src size) size src := by
  have whole : src.take size = src := List.take_of_length_le fits
  have all : size = (src ++ List.replicate (size - src.length) nul).length := by
    rw [List.length_append, List.length_replicate]
    omega
  constructor
  · rw [strncpy_plain m 0 size free, whole]
    have copied := read_copy m 0 (src ++ List.replicate (size - src.length) nul)
    rwa [← all] at copied
  · exact free

/-- A string with its terminator inside the buffer, whatever lies behind the terminator. -/
structure Holds (nul : α) (m : Buffer α) (size : Nat) (s : List α) : Prop where
  held : m.read 0 s.length = s
  ends : m.cells s.length = nul
  free : nul ∉ s
  fits : s.length < size

/-- The string and its terminator, cell by cell. -/
theorem Holds.of_read (held : m.read 0 (s.length + 1) = s ++ [nul]) (free : nul ∉ s)
    (fits : s.length < size) : Holds nul m size s := by
  rw [read_succ, Nat.zero_add] at held
  obtain ⟨text, ended⟩ := List.append_inj held (read_length m 0 s.length)
  exact ⟨text, List.singleton_inj.mp ended, free, fits⟩

/-- `strlen` finds the length of a string that is terminated. -/
theorem Holds.strlen_eq [DecidableEq α] (holds : Holds nul m size s) :
    strlen nul m size = s.length := by
  have plain : ∀ a ∈ s, decide (a ≠ nul) = true := by
    intro a member
    exact decide_eq_true (fun same => holds.free (same ▸ member))
  have parts : size = s.length + 1 + (size - (s.length + 1)) := by
    have fits := holds.fits
    omega
  rw [strlen, parts, read_add, read_succ, holds.held, Nat.zero_add, holds.ends, List.append_assoc,
    List.takeWhile_append_of_pos plain]
  simp

/-- What a buffer holds depends on the cells up to the terminator only. -/
theorem Holds.congr {m' : Buffer α} (holds : Holds nul m size s)
    (same : ∀ i, i ≤ s.length → m'.cells i = m.cells i) : Holds nul m' size s := by
  constructor
  · rw [← holds.held, read_length]
    apply read_congr
    intro i _ below
    exact same i (by omega)
  · rw [same s.length (Nat.le_refl _), holds.ends]
  · exact holds.free
  · exact holds.fits

/-- A copy of a string with its terminator, over whatever the buffer held. -/
theorem holds_copy (m : Buffer α) (free : nul ∉ s) (fits : s.length < size) :
    Holds nul (m.copy 0 (s ++ [nul])) size s := by
  apply Holds.of_read _ free fits
  have copied := read_copy m 0 (s ++ [nul])
  rwa [List.length_append, List.length_singleton] at copied

/-- A copy of a string with its terminator over the terminator of a string appends it. -/
theorem Holds.append (holds : Holds nul m size s) {t : List α} (free : nul ∉ t)
    (fits : s.length + t.length < size) :
    Holds nul (m.copy s.length (t ++ [nul])) size (s ++ t) := by
  apply Holds.of_read
  · have copied := read_copy_end m 0 s.length (t ++ [nul])
    rw [Nat.zero_add, holds.held] at copied
    rw [List.length_append, Nat.add_assoc, List.append_assoc, ← copied]
    congr 1
    simp
  · rw [List.mem_append, not_or]
    exact ⟨holds.free, free⟩
  · rwa [List.length_append]

/-- A store over the last cell of a string. -/
theorem Holds.put_last {b : α} (holds : Holds nul m size (s ++ [b])) {a : α} (plain : a ≠ nul) :
    Holds nul (m.put s.length a) size (s ++ [a]) := by
  obtain ⟨held, ends, free, fits⟩ := holds
  rw [List.length_append, List.length_singleton] at held ends fits
  rw [read_succ] at held
  have front := (List.append_inj held (read_length m 0 s.length)).1
  constructor
  · have stored := read_put_end m 0 s.length a
    rw [Nat.zero_add, front] at stored
    rwa [List.length_append, List.length_singleton]
  · rw [List.length_append, List.length_singleton, put_beside m a (by omega), ends]
  · simp only [List.mem_append, List.mem_singleton, not_or] at free ⊢
    exact ⟨free.1, Ne.symm plain⟩
  · rwa [List.length_append, List.length_singleton]

/-- A padded string that is shorter than its field is terminated. -/
theorem Padded.holds (padded : Padded nul m size s) (room : s.length < size) : Holds nul m size s :=
  ⟨padded.read_eq, padded.cell_nul (Nat.le_refl _) room, padded.free, room⟩

end Strings

end Buffer

end Buffers
