import Iwtftpd.Lib.Buffers
import Iwtftpd.Util

/-!
# `join_path` over memory

The loops of `join_path` as they store into `buf`, with the pointer `pm` apart
from the counter `len`: the delimiter moves the pointer and is not counted. The
summary in `Util` is what these loops amount to, and where the delimiter is
inserted every one of the function's promises breaks.
-/

namespace Iwtftpd

open Buffers

/-- A buffer of bytes. -/
abbrev Buf := Buffer UInt8

/-- The local state of `join_path`. -/
structure Cursor where
  buf : Buf
  pm : Nat
  len : Nat

/-- `*pm++ = c`. -/
def Cursor.put (w : Cursor) (c : UInt8) : Cursor :=
  { w with buf := w.buf.put w.pm c, pm := w.pm + 1 }

/-- Copy a string while `len` is below `bufsize`, counting every byte. -/
def Cursor.copy (bufsize : Nat) : Bytes → Cursor → Cursor
  | [], w => w
  | c :: src, w => if w.len < bufsize then copy bufsize src { w.put c with len := w.len + 1 } else w

/-- `*(pm - 1) = '\0'`. -/
def Cursor.cut (w : Cursor) : Buf := w.buf.put (w.pm - 1) 0

/-- Add the delimiter unless the byte before `pm` is one. -/
def Cursor.delimit (w : Cursor) : Cursor :=
  if w.buf.cells (w.pm - 1) = slash then w else w.put slash

/-- `join_path` into memory of any content: what it returns (`none` for -1) and the
buffer. -/
def Buf.joinPath (memory : Nat → UInt8) (head tail : Bytes) (bufsize : Nat) : Option Nat × Buf :=
  let w := Cursor.copy bufsize head { buf := fresh memory, pm := 0, len := 0 }
  if w.len = bufsize then (none, w.cut)
  else
    let w := Cursor.copy bufsize (tail.dropWhile (· = slash)) w.delimit
    if w.len = bufsize then (none, w.cut)
    else (some w.len, w.buf.put w.pm 0)

/-! ## What the loops store -/

/-- Everything stored so far lies before `pm`, in order. -/
structure Cursor.Wrote (w : Cursor) (bytes : Bytes) : Prop where
  filled : w.buf.Filled bytes
  pm : w.pm = bytes.length

theorem Cursor.Wrote.put {w : Cursor} {bytes : Bytes} (wrote : w.Wrote bytes) (c : UInt8) :
    (w.put c).Wrote (bytes ++ [c]) := by
  constructor
  · rw [Cursor.put, wrote.pm]
    exact wrote.filled.put_end c
  · rw [Cursor.put, wrote.pm, List.length_append, List.length_singleton]

/-- A loop that copies stops at the end of the string or when `len` is at `bufsize`. -/
theorem Cursor.Wrote.copy (bufsize : Nat) (src : Bytes) {w : Cursor} {bytes : Bytes}
    (wrote : w.Wrote bytes) :
    (Cursor.copy bufsize src w).Wrote (bytes ++ src.take (bufsize - w.len)) ∧
      (Cursor.copy bufsize src w).len = w.len + (src.take (bufsize - w.len)).length := by
  induction src generalizing w bytes with
  | nil => simpa [Cursor.copy] using wrote
  | cons c src inductionHypothesis =>
    by_cases room : w.len < bufsize
    · have counted : ({ w.put c with len := w.len + 1 } : Cursor).Wrote (bytes ++ [c]) :=
        ⟨(wrote.put c).filled, (wrote.put c).pm⟩
      have rest := inductionHypothesis counted
      have more : bufsize - w.len = bufsize - (w.len + 1) + 1 := by omega
      rw [Cursor.copy, if_pos room, more, List.take_succ_cons]
      simp only [List.append_assoc, List.singleton_append] at rest
      constructor
      · exact rest.1
      · rw [rest.2, List.length_cons]
        omega
    · have full : bufsize - w.len = 0 := by omega
      rw [Cursor.copy, if_neg room, full]
      simpa using wrote

/-- What goes between two parts of a path. -/
def delimiter (head : Bytes) : Bytes := if head.getLast? = some slash then [] else [slash]

/-- The delimiter is stored and not counted. -/
theorem Cursor.Wrote.delimit {w : Cursor} {bytes : Bytes} (wrote : w.Wrote bytes) (nonempty : bytes ≠ []) :
    w.delimit.Wrote (bytes ++ delimiter bytes) ∧ w.delimit.len = w.len := by
  obtain ⟨front, last, rfl⟩ : ∃ front last, bytes = front ++ [last] :=
    ⟨_, _, (List.dropLast_concat_getLast nonempty).symm⟩
  have before : w.pm - 1 = front.length := by
    rw [wrote.pm, List.length_append, List.length_singleton]
    omega
  rw [Cursor.delimit, before, wrote.filled.last, delimiter, List.getLast?_concat]
  by_cases isSlash : last = slash
  · simpa [isSlash] using wrote
  · simp only [if_neg isSlash, Option.some.injEq]
    exact ⟨wrote.put slash, rfl⟩

/-- The terminator behind everything stored. -/
theorem Cursor.Wrote.ended {w : Cursor} {bytes : Bytes} (wrote : w.Wrote bytes) :
    (w.buf.put w.pm 0).Filled (bytes ++ [0]) := (wrote.put 0).filled

/-- The terminator in the place of the last byte stored. -/
theorem Cursor.Wrote.cut {w : Cursor} {bytes : Bytes} (wrote : w.Wrote bytes) (nonempty : bytes ≠ []) :
    w.cut.Filled (bytes.dropLast ++ [0]) := by
  have before : w.pm - 1 = bytes.dropLast.length := by
    rw [wrote.pm, List.length_dropLast]
  have filled := wrote.filled
  rw [← List.dropLast_concat_getLast nonempty] at filled
  rw [Cursor.cut, before]
  exact filled.put_last 0

/-- The loops return what the summary says, and store its bytes in order. -/
theorem Buf.joinPath_joined (memory : Nat → UInt8) {head : Bytes} (tail : Bytes) {bufsize : Nat}
    (nonempty : head ≠ []) (room : 0 < bufsize) :
    (Buf.joinPath memory head tail bufsize).1 = (Iwtftpd.joinPath head tail bufsize).ret ∧
      (Buf.joinPath memory head tail bufsize).2.Filled (Iwtftpd.joinPath head tail bufsize).stored := by
  have start : Cursor.Wrote { buf := fresh memory, pm := 0, len := 0 } [] :=
    ⟨Buffer.filled_fresh memory, rfl⟩
  obtain ⟨wroteHead, lenHead⟩ := start.copy bufsize head
  have someHead : head.take bufsize ≠ [] := by
    intro none
    rcases List.take_eq_nil_iff.mp none with none | none
    · omega
    · exact nonempty none
  simp only [Nat.sub_zero, Nat.zero_add, List.nil_append] at wroteHead lenHead
  simp only [Buf.joinPath, Iwtftpd.joinPath, lenHead]
  by_cases full : (head.take bufsize).length = bufsize
  · simp only [if_pos full]
    exact ⟨trivial, wroteHead.cut someHead⟩
  · simp only [if_neg full]
    have delimited : (if (head.take bufsize).getLast? = some slash then head.take bufsize
        else head.take bufsize ++ [slash]) = head.take bufsize ++ delimiter (head.take bufsize) := by
      rw [delimiter]
      split <;> simp
    obtain ⟨wroteDelim, lenDelim⟩ := wroteHead.delimit someHead
    obtain ⟨wroteTail, lenTail⟩ := wroteDelim.copy bufsize (tail.dropWhile (· = slash))
    rw [lenDelim, lenHead] at wroteTail lenTail
    rw [delimited, lenTail]
    split
    · exact ⟨rfl, wroteTail.cut (by simp [someHead])⟩
    · exact ⟨rfl, wroteTail.ended⟩

/-! ## What the summary comes to -/

/-- The path that a head and a tail make. -/
def pathOf (head tail : Bytes) : Bytes := head ++ delimiter head ++ tail.dropWhile (· = slash)

theorem pathOf_length (head tail : Bytes) :
    (pathOf head tail).length =
      head.length + (delimiter head).length + (tail.dropWhile (· = slash)).length := by
  rw [pathOf, List.length_append, List.length_append]

theorem delimiter_length (head : Bytes) :
    (delimiter head).length = if head.getLast? = some slash then 0 else 1 := by
  rw [delimiter]
  split <;> rfl

/-- The head alone reaches the size of the buffer. -/
theorem joinPath_longHead {head : Bytes} (tail : Bytes) {bufsize : Nat} (long : bufsize ≤ head.length) :
    joinPath head tail bufsize = { ret := none, stored := (head.take bufsize).dropLast ++ [0] } := by
  have full : (head.take bufsize).length = bufsize := by
    rw [List.length_take]
    omega
  simp only [joinPath, if_pos full]

/-- What `join_path` has before it copies the tail, when the head leaves room. -/
theorem joinPath_shortHead {head : Bytes} (tail : Bytes) {bufsize : Nat} (short : head.length < bufsize) :
    joinPath head tail bufsize =
      let fromTail := (tail.dropWhile (· = slash)).take (bufsize - head.length)
      if head.length + fromTail.length = bufsize then
        { ret := none, stored := (head ++ delimiter head ++ fromTail).dropLast ++ [0] }
      else
        { ret := some (head.length + fromTail.length), stored := head ++ delimiter head ++ fromTail ++ [0] } := by
  have whole : head.take bufsize = head := List.take_of_length_le (by omega)
  have delimited : (if head.getLast? = some slash then head else head ++ [slash]) =
      head ++ delimiter head := by
    rw [delimiter]
    split <;> simp
  simp only [joinPath, whole, delimited]
  rw [if_neg (by omega)]

/-- What was counted fits: the whole path is stored, and the count is returned. -/
theorem joinPath_counted {head tail : Bytes} {bufsize : Nat}
    (fits : head.length + (tail.dropWhile (· = slash)).length < bufsize) :
    joinPath head tail bufsize =
      { ret := some (head.length + (tail.dropWhile (· = slash)).length), stored := pathOf head tail ++ [0] } := by
  have whole : (tail.dropWhile (· = slash)).take (bufsize - head.length) = tail.dropWhile (· = slash) :=
    List.take_of_length_le (by omega)
  rw [joinPath_shortHead tail (by omega)]
  simp only [whole, pathOf]
  rw [if_neg (by omega)]

/-- The count reaches the size of the buffer within the tail. By then the delimiter has
moved everything one byte on. -/
theorem joinPath_longTail {head tail : Bytes} {bufsize : Nat} (short : head.length < bufsize)
    (long : bufsize ≤ head.length + (tail.dropWhile (· = slash)).length) :
    (joinPath head tail bufsize).ret = none ∧
      (joinPath head tail bufsize).stored.length = bufsize + (delimiter head).length := by
  have part : ((tail.dropWhile (· = slash)).take (bufsize - head.length)).length =
      bufsize - head.length := by
    rw [List.length_take]
    omega
  rw [joinPath_shortHead tail short]
  simp only [part]
  rw [if_pos (by omega)]
  constructor
  · rfl
  · simp only [List.length_append, List.length_dropLast, List.length_singleton, part]
    omega

/-- What is asked of `join_path`: it stores inside the buffer, returns -1 exactly when the
path does not fit with its terminator, and otherwise leaves the path and returns its length. -/
structure Joins (memory : Nat → UInt8) (head tail : Bytes) (bufsize : Nat) : Prop where
  inside : (Buf.joinPath memory head tail bufsize).2.Inside bufsize
  refused : (Buf.joinPath memory head tail bufsize).1 = none ↔
    bufsize < (pathOf head tail).length + 1
  joined : ∀ len, (Buf.joinPath memory head tail bufsize).1 = some len →
    (Buf.joinPath memory head tail bufsize).2.read 0 ((pathOf head tail).length + 1) =
      pathOf head tail ++ [0] ∧ len = (pathOf head tail).length

variable (memory : Nat → UInt8) {head : Bytes} {bufsize : Nat}

/-- A head that fills the buffer is refused, rightly. -/
theorem joins_longHead (tail : Bytes) (nonempty : head ≠ []) (room : 0 < bufsize)
    (long : bufsize ≤ head.length) : Joins memory head tail bufsize := by
  obtain ⟨ret, filled⟩ := Buf.joinPath_joined memory tail nonempty room
  have size := pathOf_length head tail
  rw [joinPath_longHead tail long] at ret filled
  constructor
  · rw [filled.inside_iff]
    simp only [List.length_append, List.length_dropLast, List.length_take, List.length_singleton]
    omega
  · simp only [ret, true_iff]
    omega
  · intro len returned
    rw [ret] at returned
    cases returned

/-- Without a delimiter the count is the number of bytes stored. -/
theorem joins_slash (tail : Bytes) (nonempty : head ≠ []) (room : 0 < bufsize)
    (ends : head.getLast? = some slash) (short : head.length < bufsize) :
    Joins memory head tail bufsize := by
  obtain ⟨ret, filled⟩ := Buf.joinPath_joined memory tail nonempty room
  have size := pathOf_length head tail
  have delim := delimiter_length head
  rw [if_pos ends] at delim
  rcases Nat.lt_or_ge (head.length + (tail.dropWhile (· = slash)).length) bufsize with fits | long
  · have whole : (pathOf head tail ++ [0]).length = (pathOf head tail).length + 1 := by
      rw [List.length_append, List.length_singleton]
    rw [joinPath_counted fits] at ret filled
    have held := filled.held
    rw [whole] at held
    constructor
    · rw [filled.inside_iff, whole]
      omega
    · rw [ret]
      simp only [reduceCtorEq, false_iff]
      omega
    · intro len returned
      rw [ret] at returned
      have counted := Option.some.inj returned
      exact ⟨held, by omega⟩
  · obtain ⟨refused, stored⟩ := joinPath_longTail short long
    rw [refused] at ret
    constructor
    · rw [filled.inside_iff, stored]
      omega
    · simp only [ret, true_iff]
      omega
    · intro len returned
      rw [ret] at returned
      cases returned

/-- With a delimiter either the returned length is one too small or a byte lands behind
the buffer. -/
theorem not_joins_delimited (tail : Bytes) (nonempty : head ≠ []) (room : 0 < bufsize)
    (inserted : head.getLast? ≠ some slash) (short : head.length < bufsize) :
    ¬ Joins memory head tail bufsize := by
  intro joins
  obtain ⟨ret, filled⟩ := Buf.joinPath_joined memory tail nonempty room
  have size := pathOf_length head tail
  have delim := delimiter_length head
  rw [if_neg inserted] at delim
  rcases Nat.lt_or_ge (head.length + (tail.dropWhile (· = slash)).length) bufsize with fits | long
  · have returned := (joins.joined _ (by rw [ret, joinPath_counted fits])).2
    omega
  · have last := (filled.inside_iff bufsize).mp joins.inside
    have stored := (joinPath_longTail short long).2
    omega

/-- `join_path` does what is asked of it only where it inserts no delimiter.

Proof: the path is written piece by piece, and its length is counted without the delimiter.
Without one the count is right, and with one it is short by one, in the bound and in the value. -/
theorem joins_iff (tail : Bytes) (nonempty : head ≠ []) (room : 0 < bufsize) :
    Joins memory head tail bufsize ↔ bufsize ≤ head.length ∨ head.getLast? = some slash := by
  constructor
  · intro joins
    by_contra inserted
    rw [not_or] at inserted
    exact not_joins_delimited memory tail nonempty room inserted.2 (by omega) joins
  · intro plain
    rcases Nat.lt_or_ge head.length bufsize with short | long
    · exact joins_slash memory tail nonempty room (plain.resolve_left (by omega)) short
    · exact joins_longHead memory tail nonempty room long

theorem joins_sample :
    Joins (fun _ => 0) (ascii "/srv/") (ascii "f") 7 ∧ ¬ Joins (fun _ => 0) (ascii "/srv") (ascii "f") 7 :=
  ⟨(joins_iff (fun _ => 0) (ascii "f") (by decide) (by decide)).mpr (by decide),
    fun joins => absurd ((joins_iff (fun _ => 0) (ascii "f") (by decide) (by decide)).mp joins) (by decide)⟩

/-- "/srv" and "f" need seven bytes. In a buffer of six `join_path` stores the terminator
behind it and returns 5. -/
theorem not_always_joins :
    ¬ ∀ (memory : Nat → UInt8) (head tail : Bytes) (bufsize : Nat), head ≠ [] → 0 < bufsize →
      Joins memory head tail bufsize := by
  intro always
  have inside := (always (fun _ => 0) (ascii "/srv") (ascii "f") 6 (by decide) (by decide)).inside
  exact absurd inside (by decide)

/-- The buffers of the datastore have room for the delimiter that is not counted. -/
theorem joinPath_allocated (tail : Bytes) (nonempty : head ≠ []) :
    (Buf.joinPath memory head tail (head.length + tail.length + 2)).2.Inside
      (head.length + tail.length + 2) := by
  have shorter : (tail.dropWhile (· = slash)).length ≤ tail.length := List.length_dropWhile_le _ _
  have size := pathOf_length head tail
  have delim : (delimiter head).length ≤ 1 := by
    rw [delimiter_length]
    split <;> omega
  obtain ⟨ret, filled⟩ := Buf.joinPath_joined memory tail nonempty
    (Nat.succ_pos (head.length + tail.length + 1))
  rw [joinPath_counted (by omega)] at filled
  rw [filled.inside_iff, List.length_append, List.length_singleton]
  omega

end Iwtftpd
