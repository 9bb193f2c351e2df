import Iwtftpd.JoinPath

/-!
# The log

`iwlog_print_msg` over the buffer of `struct iwlog`, which still holds what
earlier records left in it. The first `strncpy` fills the whole buffer with
zeros behind the time stamp, and all that follows finds its terminators there.
The last store of the function is one cell behind the newline; for a message
that has to be cut that cell is behind the buffer.
-/

namespace Iwtftpd

open Buffers

/-- Max length of date time. -/
abbrev timestrlenMax : Nat := 24

/-- Max length of the log message. -/
abbrev iwLogmsglenMax : Nat := 256

/-- Buffer size of the log message. -/
abbrev logmsgbufSize : Nat := timestrlenMax + iwLogmsglenMax

abbrev space : UInt8 := 32
abbrev newline : UInt8 := 10

/-- A call of `iwlog_print_msg`: the buffer afterwards and the record written. -/
structure Logged where
  msgbuf : Buf
  record : Bytes

/-- The loop that puts a space in the place of the first terminator; `n` cells are left. -/
def putSpace (m : Buf) : Nat → Nat → Buf × Nat
  | 0, pb => (m, pb)
  | n + 1, pb => if m.cells pb = 0 then (m.put pb space, pb + 1) else putSpace m n (pb + 1)

/-- The second `strncpy` of `iwlog_print_msg`: the message, cut where the newline would
not fit. -/
def putMsg (m : Buf) (timelen : Nat) (msg : Bytes) (msglen : Nat) : Buf :=
  if timelen + msglen < logmsgbufSize - 2 then m.strncpy 0 timelen msg msglen
  else m.strncpy 0 timelen msg (logmsgbufSize - timelen - 2)

/-- `iwlog_print_msg`, given the string that `strftime` has made. -/
def iwlogPrintMsg (memory : Nat → UInt8) (timebuf msg : Bytes) (msglen : Nat) : Logged :=
  let buf := (fresh memory).strncpy 0 0 timebuf logmsgbufSize
  let (buf, pb) := putSpace buf (logmsgbufSize - 1) 0
  let buf := buf.put pb 0
  let buf := putMsg buf pb msg msglen
  let buf := buf.put (buf.strlen 0 logmsgbufSize) newline
  let buf := buf.put (buf.strlen 0 logmsgbufSize + 1) 0
  { msgbuf := buf, record := buf.read 0 (buf.strlen 0 logmsgbufSize) }

/-! ## One record -/

/-- The space takes the place of the first terminator. -/
theorem putSpace_padded {m : Buf} {s : Bytes} (padded : m.Padded 0 logmsgbufSize s) (n pb : Nat)
    (before : pb ≤ s.length) (room : s.length < pb + n) (ends : pb + n ≤ logmsgbufSize) :
    putSpace m n pb = (m.put s.length space, s.length + 1) := by
  induction n generalizing pb with
  | zero => omega
  | succ n inductionHypothesis =>
    rcases Nat.lt_or_ge pb s.length with inside | atEnd
    · rw [putSpace, if_neg (padded.cell_plain inside)]
      exact inductionHypothesis (pb + 1) (by omega) (by omega) (by omega)
    · have here : pb = s.length := by omega
      rw [putSpace, if_pos (padded.cell_nul atEnd (by omega)), here]

variable (memory : Nat → UInt8) {timebuf msg : Bytes}

/-- The part of a message that a record has room for. -/
def logged (timebuf msg : Bytes) : Bytes := msg.take (logmsgbufSize - timebuf.length - 3)

/-- The text of a record. -/
def recordOf (timebuf msg : Bytes) : Bytes := timebuf ++ [space] ++ logged timebuf msg

theorem recordOf_length :
    (recordOf timebuf msg).length =
      timebuf.length + 1 + min (logmsgbufSize - timebuf.length - 3) msg.length := by
  simp only [recordOf, logged, List.length_append, List.length_singleton, List.length_take]

/-- The buffer up to the message. -/
def stamped (timebuf : Bytes) : Buf :=
  (((fresh memory).strncpy 0 0 timebuf logmsgbufSize).put timebuf.length space).put
    (timebuf.length + 1) 0

/-- The buffer up to the newline. -/
def filledIn (timebuf msg : Bytes) : Buf :=
  (stamped memory timebuf).copy (timebuf.length + 1) (logged timebuf msg)

/-- The message is stored as far as there is room, and no terminator with it. -/
theorem putMsg_eq (m : Buf) (free : (0 : UInt8) ∉ msg) :
    putMsg m (timebuf.length + 1) msg msg.length = m.copy (timebuf.length + 1) (logged timebuf msg) := by
  rw [putMsg, logged]
  by_cases fits : timebuf.length + 1 + msg.length < logmsgbufSize - 2
  · have whole : msg.length ≤ logmsgbufSize - timebuf.length - 3 := by omega
    rw [if_pos fits, Buffer.strncpy_plain m _ _ free, Nat.sub_self, List.replicate_zero, List.append_nil,
      List.take_of_length_le (Nat.le_refl _), List.take_of_length_le whole]
  · have room : logmsgbufSize - (timebuf.length + 1) - 2 = logmsgbufSize - timebuf.length - 3 := by omega
    have none : logmsgbufSize - timebuf.length - 3 - msg.length = 0 := by omega
    rw [if_neg fits, Buffer.strncpy_plain m _ _ free, room, none, List.replicate_zero, List.append_nil]

/-- What is asked of a time stamp: a string that fits `timebuf`. -/
structure Stamp (timebuf : Bytes) : Prop where
  free : (0 : UInt8) ∉ timebuf
  short : timebuf.length < timestrlenMax

theorem Stamp.room (stamp : Stamp timebuf) : timebuf.length + 4 ≤ logmsgbufSize := by
  have short : timebuf.length < 24 := stamp.short
  have size : logmsgbufSize = 280 := rfl
  omega

/-- The time stamp, with zeros in all the rest of the buffer. -/
theorem Stamp.start (stamp : Stamp timebuf) :
    Buffer.Padded 0 ((fresh memory).strncpy 0 0 timebuf logmsgbufSize) logmsgbufSize timebuf := by
  have room := stamp.room
  exact Buffer.padded_strncpy (fresh memory) stamp.free (by omega)

/-- What the buffer holds before the newline, whatever it held at the start. -/
theorem Stamp.filledIn (stamp : Stamp timebuf) (free : (0 : UInt8) ∉ msg) :
    Buffer.Padded 0 (filledIn memory timebuf msg) logmsgbufSize (recordOf timebuf msg) := by
  have room := stamp.room
  have length : (recordOf timebuf msg).length = _ := recordOf_length
  have spacedLength : (timebuf ++ [space]).length = timebuf.length + 1 := by
    rw [List.length_append, List.length_singleton]
  have spaced := (stamp.start memory).put (a := space) (by decide) (by omega)
  have ended : Buffer.Padded 0 (stamped memory timebuf) logmsgbufSize (timebuf ++ [space]) :=
    spaced.put_nul (Nat.le_of_eq spacedLength)
  have cutFree : (0 : UInt8) ∉ logged timebuf msg := fun member => free (List.mem_of_mem_take member)
  have cutFits : (timebuf ++ [space]).length + (logged timebuf msg).length ≤ logmsgbufSize := by
    rw [← List.length_append]
    change (recordOf timebuf msg).length ≤ logmsgbufSize
    omega
  have whole := ended.copy cutFree cutFits
  rwa [spacedLength] at whole

/-- A call of `iwlog_print_msg`, store by store. -/
theorem Stamp.logs (stamp : Stamp timebuf) (free : (0 : UInt8) ∉ msg) :
    iwlogPrintMsg memory timebuf msg msg.length =
      { msgbuf := ((Iwtftpd.filledIn memory timebuf msg).put (recordOf timebuf msg).length newline).put
          ((recordOf timebuf msg).length + 2) 0
        record := recordOf timebuf msg ++ [newline] } := by
  have room := stamp.room
  have length : (recordOf timebuf msg).length = _ := recordOf_length
  have endedLength : (recordOf timebuf msg ++ [newline]).length = (recordOf timebuf msg).length + 1 := by
    rw [List.length_append, List.length_singleton]
  have spaced := putSpace_padded (stamp.start memory) (logmsgbufSize - 1) 0 (by omega) (by omega) (by omega)
  have text := stamp.filledIn memory free
  have ended := text.put (a := newline) (by decide) (by omega)
  have closed := ended.put_nul (i := (recordOf timebuf msg).length + 2) (by omega)
  have message : putMsg (stamped memory timebuf) (timebuf.length + 1) msg msg.length =
      Iwtftpd.filledIn memory timebuf msg := putMsg_eq (stamped memory timebuf) free
  rw [iwlogPrintMsg]
  simp only [spaced]
  rw [← stamped, message, text.strlen_eq, ended.strlen_eq, endedLength, closed.strlen_eq, closed.read_eq]

/-! ## Where the stores land -/

/-- What is asked of `iwlog_print_msg`: it stores inside the buffer and writes the time
stamp, a space, the message and a newline. The message is cut when the record does not fit
with its terminator, and only then. -/
structure Logs (memory : Nat → UInt8) (timebuf msg : Bytes) : Prop where
  inside : (iwlogPrintMsg memory timebuf msg msg.length).msgbuf.Inside logmsgbufSize
  cut : (iwlogPrintMsg memory timebuf msg msg.length).record =
    timebuf ++ [space] ++ msg.take (logmsgbufSize - timebuf.length - 3) ++ [newline]
  whole : (timebuf ++ [space] ++ msg ++ [newline]).length < logmsgbufSize →
    (iwlogPrintMsg memory timebuf msg msg.length).record = timebuf ++ [space] ++ msg ++ [newline]

/-- All but the last terminator is stored inside the buffer. -/
theorem Stamp.filledIn_inside (stamp : Stamp timebuf) :
    (Iwtftpd.filledIn memory timebuf msg).Inside logmsgbufSize := by
  have room := stamp.room
  have length : (logged timebuf msg).length = min _ msg.length := List.length_take
  have start : ((fresh memory).strncpy 0 0 timebuf logmsgbufSize).Inside logmsgbufSize :=
    Buffer.inside_strncpy (fresh memory) timebuf (by omega) (Buffer.inside_fresh memory logmsgbufSize)
  have ended : (stamped memory timebuf).Inside logmsgbufSize := by
    rw [stamped, Buffer.inside_put, Buffer.inside_put]
    exact ⟨by omega, by omega, start⟩
  exact Buffer.inside_copy (by omega) ended

/-- The last terminator is stored one cell behind the one that ends the record. -/
theorem Stamp.inside_iff (stamp : Stamp timebuf) (free : (0 : UInt8) ∉ msg) :
    (iwlogPrintMsg memory timebuf msg msg.length).msgbuf.Inside logmsgbufSize ↔
      msg.length < logmsgbufSize - timebuf.length - 3 := by
  have room := stamp.room
  have length : (recordOf timebuf msg).length = _ := recordOf_length
  have before : (Iwtftpd.filledIn memory timebuf msg).Inside logmsgbufSize := stamp.filledIn_inside memory
  rw [stamp.logs memory free, Buffer.inside_put, Buffer.inside_put]
  constructor
  · intro stores
    omega
  · intro short
    exact ⟨by omega, by omega, before⟩

/-- The record is right for messages of every length. -/
theorem Stamp.whole (stamp : Stamp timebuf) (free : (0 : UInt8) ∉ msg)
    (fits : (timebuf ++ [space] ++ msg ++ [newline]).length < logmsgbufSize) :
    (iwlogPrintMsg memory timebuf msg msg.length).record = timebuf ++ [space] ++ msg ++ [newline] := by
  simp only [List.length_append, List.length_singleton] at fits
  have whole : logged timebuf msg = msg := List.take_of_length_le (by omega)
  rw [stamp.logs memory free, recordOf, whole]

/-- Messages as the callers make them, in `char buf[IW_LOGMSGLEN_MAX]`, do not come near
the end of the buffer. -/
theorem Stamp.callers (stamp : Stamp timebuf) (free : (0 : UInt8) ∉ msg)
    (dated : timebuf.length ≤ 19) (short : msg.length < iwLogmsglenMax) :
    (iwlogPrintMsg memory timebuf msg msg.length).msgbuf.Inside logmsgbufSize := by
  have size : logmsgbufSize = iwLogmsglenMax + 24 := rfl
  rw [stamp.inside_iff memory free]
  omega

/-- `iwlog_print_msg` does what is asked of it as long as there is room for one terminator more
than the record needs.

Proof: the record is put together with the string functions of C, each of which keeps a terminated
string. Only the last terminator, behind the newline, can be outside, and where it is outside is
known. -/
theorem logs_iff (stamp : Stamp timebuf) (free : (0 : UInt8) ∉ msg) :
    Logs memory timebuf msg ↔ msg.length < logmsgbufSize - timebuf.length - 3 := by
  rw [← stamp.inside_iff memory free]
  constructor
  · intro logs
    exact logs.inside
  · intro inside
    constructor
    · exact inside
    · rw [stamp.logs memory free, recordOf, logged]
    · exact stamp.whole memory free

/-- A time stamp as `strftime` makes it. -/
def someStamp : Bytes := ascii "2012-01-01 12:00:00"

theorem someStamp_stamp : Stamp someStamp := ⟨by decide, by decide⟩

theorem logs_sample : Logs (fun _ => 255) someStamp (ascii "started") :=
  (logs_iff (fun _ => 255) someStamp_stamp (by decide)).mpr (by decide)

/-- A message of 258 bytes still fits its record, and a zero is stored behind the buffer. -/
theorem not_always_logs :
    ¬ ∀ (memory : Nat → UInt8) (timebuf msg : Bytes), (0 : UInt8) ∉ timebuf → timebuf.length = 19 →
      (0 : UInt8) ∉ msg → Logs memory timebuf msg := by
  intro always
  have free : (0 : UInt8) ∉ List.replicate 258 97 := by
    rw [List.mem_replicate]
    decide
  have inside := (always (fun _ => 0) someStamp (List.replicate 258 97) someStamp_stamp.free (by decide)
    free).inside
  rw [someStamp_stamp.inside_iff (fun _ => 0) free, List.length_replicate] at inside
  exact absurd inside (by decide)

end Iwtftpd
