import Mathlib.Data.List.TakeWhile

/-!
# Bytes, C strings and `join_path`

Memory is a list of bytes. A C string is the bytes before its first NUL.
Numbers on the wire are big-endian; `htons` and `ntohs` are the pair
`be16`, `ofBe16`.

`join_path` counts in `len` the bytes it copies from `head` and `tail`, but not
the delimiter it may insert, and every bound it checks is on `len`. The model
keeps that count apart from the bytes stored.
-/

namespace Iwtftpd

abbrev Bytes := List UInt8

/-- The text of a C string literal, without its NUL. -/
def ascii (text : String) : Bytes := text.toList.map (fun c => UInt8.ofNat c.toNat)

/-- The string that starts at the given memory. -/
def cstr (memory : Bytes) : Bytes := memory.takeWhile (· ≠ 0)

/-- `htons`: the two bytes of a number, high byte first. -/
def be16 (n : UInt16) : Bytes := [UInt8.ofNat (n.toNat / 256), UInt8.ofNat n.toNat]

/-- `ntohs` of the two bytes that start at the given memory. -/
def ofBe16 (memory : Bytes) : UInt16 :=
  UInt16.ofNat ((memory.getD 0 0).toNat * 256 + (memory.getD 1 0).toNat)

@[simp] theorem be16_length (n : UInt16) : (be16 n).length = 2 := rfl

/-- Reading back what was written, whatever follows it. -/
@[simp] theorem ofBe16_be16 (n : UInt16) (rest : Bytes) : ofBe16 (be16 n ++ rest) = n := by
  have bound : n.toNat < 65536 := n.toNat_lt
  apply UInt16.toNat_inj.mp
  simp only [ofBe16, be16, List.cons_append, List.nil_append, List.getD_cons_zero,
    List.getD_cons_succ, UInt8.toNat_ofNat', UInt16.toNat_ofNat']
  omega

/-- Only the first two bytes count. -/
theorem ofBe16_congr {left right : Bytes} (same : left.take 2 = right.take 2) :
    ofBe16 left = ofBe16 right := by
  have first : left.getD 0 0 = right.getD 0 0 := by
    have := congrArg (fun l => l.getD 0 0) same
    simpa [List.getD_eq_getElem?_getD, List.getElem?_take] using this
  have second : left.getD 1 0 = right.getD 1 0 := by
    have := congrArg (fun l => l.getD 1 0) same
    simpa [List.getD_eq_getElem?_getD, List.getElem?_take] using this
  rw [ofBe16, ofBe16, first, second]

/-- `memcpy` out of memory: `len` bytes from `pos` on. Bytes past the end of the
memory read as zero; what the source would find there is not known. -/
def readAt (memory : Bytes) (pos len : Nat) : Bytes :=
  (memory.drop pos ++ List.replicate len 0).take len

/-- `memcpy` into memory of a fixed size: bytes that would land past its end are
dropped. -/
def writeAt (memory : Bytes) (pos : Nat) (src : Bytes) : Bytes :=
  (memory.take pos ++ src ++ memory.drop (pos + src.length)).take memory.length

@[simp] theorem readAt_length (memory : Bytes) (pos len : Nat) :
    (readAt memory pos len).length = len := by
  simp [readAt]

/-- A read that stays inside the memory. -/
theorem readAt_inside {memory : Bytes} {pos len : Nat} (inside : pos + len ≤ memory.length) :
    readAt memory pos len = (memory.drop pos).take len := by
  rw [readAt, List.take_append_of_le_length]
  rw [List.length_drop]
  omega

@[simp] theorem writeAt_length {memory : Bytes} {pos : Nat} {src : Bytes} :
    (writeAt memory pos src).length = memory.length := by
  simp only [writeAt, List.length_take, List.length_append, List.length_drop]
  omega

/-- A write that stays inside the memory. -/
theorem writeAt_inside {memory : Bytes} {pos : Nat} {src : Bytes}
    (inside : pos + src.length ≤ memory.length) :
    writeAt memory pos src = memory.take pos ++ src ++ memory.drop (pos + src.length) := by
  rw [writeAt, List.take_of_length_le]
  simp only [List.length_append, List.length_take, List.length_drop]
  omega

/-- Appending to the bytes before `pos`. -/
theorem take_writeAt {memory : Bytes} {pos : Nat} {src : Bytes}
    (inside : pos + src.length ≤ memory.length) :
    (writeAt memory pos src).take (pos + src.length) = memory.take pos ++ src := by
  rw [writeAt_inside inside, List.take_append_of_le_length]
  · rw [List.take_of_length_le]
    simp only [List.length_append, List.length_take]
    omega
  · simp only [List.length_append, List.length_take]
    omega

/-- Reading back what was just written. -/
theorem readAt_writeAt {memory : Bytes} {src : Bytes} (inside : src.length ≤ memory.length) :
    (writeAt memory 0 src).take src.length = src := by
  have exactly : (writeAt memory 0 src).take (0 + src.length) = memory.take 0 ++ src :=
    take_writeAt (by omega)
  simpa using exactly

/-- The delimiter of paths. -/
def slash : UInt8 := 47

/-- What a call of `join_path` returns (`none` for -1) and the bytes it leaves in
`buf`, in order from `buf[0]`. -/
structure Joined where
  ret : Option Nat
  stored : Bytes
deriving DecidableEq

/-- To join head and tail. -/
def joinPath (head tail : Bytes) (bufsize : Nat) : Joined :=
  let fromHead := head.take bufsize
  if fromHead.length = bufsize then
    { ret := none, stored := fromHead.dropLast ++ [0] }
  else
    let buf := if fromHead.getLast? = some slash then fromHead else fromHead ++ [slash]
    let fromTail := (tail.dropWhile (· = slash)).take (bufsize - fromHead.length)
    let len := fromHead.length + fromTail.length
    if len = bufsize then
      { ret := none, stored := (buf ++ fromTail).dropLast ++ [0] }
    else
      { ret := some len, stored := buf ++ fromTail ++ [0] }

/-- The buffer the datastore allocates always suffices for the count that is
checked. -/
theorem joinPath_fits (head tail : Bytes) :
    (joinPath head tail (head.length + tail.length + 2)).ret ≠ none := by
  have shorter : (tail.dropWhile (· = slash)).length ≤ tail.length :=
    List.length_dropWhile_le _ _
  have whole : head.take (head.length + tail.length + 2) = head :=
    List.take_of_length_le (by omega)
  simp only [joinPath, whole]
  split
  · omega
  · split
    · rename_i full
      simp only [List.length_take] at full
      omega
    · simp

end Iwtftpd
