import Iwtftpd.Logging
import Iwtftpd.Startup
import Iwtftpd.Wire

/-!
# Reports

The function `pmsg`, of which every module has its own over its own tables: it
makes a line of a status code and arguments in a buffer on the stack, and hands it
to the log, or to standard error as long as there is no log. Codes from 64 on are
for verbose mode, where the line begins with the name of the module. The tables
list the codes of their enumerations in order.

Only the log's own `pmsg` asks its object for the mode without looking whether
there is one, and it never writes to the log. A call whose arguments do not fit
the format of its code is undefined; that of `EV_FAIL_FCLOSE` is one, with a
format for two strings and one to print.
-/

namespace Iwtftpd

open Buffers

/-! ## The tables -/

/-- A table of messages, with codes from the first on. -/
def numbered (first : Nat) (texts : List String) : List (Nat × Bytes) :=
  (texts.zipIdx first).map fun entry => (entry.2, ascii entry.1)

/-- Codes of `enum T_STATCODE`. -/
def iwtftpStatmsgs : List (Nat × Bytes) :=
  numbered 1 [
    "error: failed to read the data from datastore, %s",
    "error: failed to write the data to datastore, %s",
    "error: failed to close the session on datastore, %s",
    "error: events nothing",
    "error: failed to convert ip address",
    "error: failed to create socket, ipv%d, %s, %s",
    "error: failed to get addresses of interface '%s'",
    "error: could not load the file, '%s'",
    "error: could not make TFTP ACK message, for '%s:%d'",
    "error: could not make TFTP ERROR message, for '%s:%d'",
    "error: failed memory allocation, %s",
    "error: failed to recv",
    "error: failed to resend, to '%s:%d'",
    "error: could not save the file, '%s'",
    "error: failed TFTP processing",
    "error: error of updating events",
    "error: interface '%s' has no ipv%d address",
    "error: interface '%s' not found",
    "error: server error",
    "info: '%s' already exists",
    "info: '%s' not found",
    "info: invalid block number in TFTP %s message, from '%s:%d'",
    "info: invalid TFTP %s message, from '%s:%d'",
    "info: incorrect TFTP ACK format, from '%s:%d'",
    "info: incorrect TFTP DATA format, from '%s:%d'",
    "info: incorrect TFTP ERROR format, from '%s:%d'",
    "info: received TFTP ERROR, code %d, %s, from '%s:%d'",
    "info: get request '%s', by '%s:%d'",
    "info: incorrect TFTP request format, from '%s:%d'",
    "info: put request '%s', by '%s:%d'",
    "info: '%s' completed, with '%s:%d'"]

/-- Codes of `enum T_STATCODE_VERBOSE`. -/
def iwtftpStatvmsgs : List (Nat × Bytes) :=
  numbered 65 [
    "error: buffer of %s has shortage",
    "error: TFTP error message is too long",
    "error: failed to add the session, '%s:%d'",
    "error: bind: failed: %s",
    "error: could not create a new session",
    "error: epoll_create: failed: %s",
    "error: epoll_ctl: failed to %s event of '%s:%d': %s",
    "error: epoll_wait: failed: %s",
    "error: getaddrinfo: failed: %s",
    "error: getifaddrs: '%s': %s",
    "error: getnameinfo: failed: %s",
    "error: getsockname: failed: %s",
    "error: inet_ntop: ipv%d '%s': %s",
    "error: recvfrom: failed: %s",
    "error: sendto: failed to send to '%s:%d': %s",
    "error: setsockopt: failed: %s",
    "error: socket: failed to create a socket: %s",
    "error: invalid object",
    "error: session not found, '%s:%d'",
    "error: failed to get the data from the session buffer, '%s:%d'",
    "error: failed to put the data to the session buffer, '%s:%d'",
    "info: ack filed is incorrect",
    "info: data filed is too long",
    "info: errormsg filed is incorrect",
    "info: length of TFTP ERROR message is too short",
    "info: filename field is incorrect",
    "info: mode field is incorrect",
    "info: opcode filed is incorrect",
    "info: length of TFTP request message is too short",
    "info: unknown message, from '%s:%d'"]

/-- Codes of `enum D_STATCODE`. -/
def iwdsStatmsgs : List (Nat × Bytes) :=
  numbered 1 [
    "error: datastore path '%s' is incorrect",
    "error: failed to check the file of datastore, '%s'",
    "error: failed to read from datastore, '%s'",
    "error: failed to write to datastore, '%s'",
    "error: failed memory allocation, %s",
    "error: '%s' already exists on datastore",
    "error: '%s' does not exist on datastore"]

/-- Codes of `enum D_STATCODE_VERBOSE`. -/
def iwdsStatvmsgs : List (Nat × Bytes) :=
  numbered 65 [
    "error: datastore session not found, '%d', '%s'",
    "error: faild to add a datastore session",
    "error: could not create a new session of datastore, '%d', '%s'",
    "error: fclose: failed, %s: %s",
    "error: fopen: failed, '%s': %s",
    "error: failed to join path '%s' and '%s'",
    "error: realpath: failed to convert '%s': %s",
    "error: request was not passed",
    "error: invalid object"]

/-- Codes of `enum STATCODE`. -/
def statmsgs : List (Nat × Bytes) :=
  numbered 1 [
    "error: iwds initialization failed",
    "error: failed to set the root directory to datastore",
    "error: could not start daemon",
    "error: could not change the root directory to '%s'",
    "error: signal initialization failed",
    "error: failed memory allocation, %s",
    "error: failed to start the service",
    "error: could not change the credential to '%s'",
    "error: fatal error",
    "error: iwlog initialization failed",
    "error: iwlog module error",
    "error: bad option: '%s': %s",
    "error: iwtftp initialization failed",
    "error: unknown user '%s'",
    "info: must be run as root",
    "info: starting server",
    "info: exiting server",
    "iwtftpd v1.0"]

/-- Codes of `enum STATCODE_VERBOSE`. -/
def statvmsgs : List (Nat × Bytes) :=
  numbered 65 [
    "error: chdir: failed, '%s': %s",
    "error: chroot: failed, '%s': %s",
    "error: could not create a configuration object",
    "error: dup2: failed to duplicate fd '%d': %s",
    "error: fork: failed: %s",
    "error: initgroups: failed, '%s': %s",
    "error: open: failed, '%s': %s",
    "error: setgid: failed, '%d': %s",
    "error: setsid: failed: %s",
    "error: setuid: failed, '%d': %s",
    "error: sigaction: failed to '%s' action: %s"]

/-- Codes of `enum L_STATCODE`. -/
def iwlogStatmsgs : List (Nat × Bytes) :=
  numbered 1 [
    "error: failed memory allocation, %s"]

/-- Codes of `enum L_STATCODE_VERBOSE`. -/
def iwlogStatvmsgs : List (Nat × Bytes) :=
  numbered 65 [
    "error: close: failed, 'fd=%d': %s",
    "error: localtime_r: failed to convert: %s",
    "error: open: failed, '%s': %s",
    "error: strftime: failed to convert: %s",
    "error: write: failed write to log, fd=%d msglen=%d: %s",
    "error: invalid object"]

/-- The tables of a module and the name that its verbose lines begin with. -/
structure Reporter where
  tag : Bytes
  msgs : List (Nat × Bytes)
  vmsgs : List (Nat × Bytes)
  plain : (0 : UInt8) ∉ tag
  short : tag.length < iwLogmsglenMax

/-- The loop over a table, up to its end, and the string found. -/
def statmsg (table : List (Nat × Bytes)) (statcode : Nat) : Option Bytes :=
  (table.find? fun entry => entry.1 == statcode).map fun entry => cstr entry.2

/-! ## Formats -/

/-- An argument of a report. -/
inductive Arg where
  | str (text : Bytes)
  | int (n : Int)

/-- What `%d` prints. -/
def decimal (n : Int) : Bytes :=
  let digits := (Nat.toDigits 10 n.natAbs).map fun c => UInt8.ofNat c.toNat
  if n < 0 then 45 :: digits else digits

/-- The text of a format with its arguments, before it is cut. What a conversion reads that
has no argument left, or one of another type, is undefined: there is no text. Arguments that
no conversion asks for are ignored. -/
def formatted : Bytes → List Arg → Option Bytes
  | [], _ => some []
  | 37 :: 115 :: rest, args =>
    match args with
    | .str text :: args => (formatted rest args).map (text ++ ·)
    | _ => none
  | 37 :: 100 :: rest, args =>
    match args with
    | .int n :: args => (formatted rest args).map (decimal n ++ ·)
    | _ => none
  | c :: rest, args => (formatted rest args).map (c :: ·)

/-- `vsnprintf` into `n` cells. -/
def vsnprintf (m : Buf) (i n : Nat) (text : Bytes) : Buf := m.copy i (text.take (n - 1) ++ [0])

/-! ## `pmsg` -/

/-- What a call of `pmsg` does. It may read through a NULL pointer, and it is undefined where
the arguments do not fit the format. -/
inductive Report where
  | silent
  | segv
  | undefined
  | log (buf : Buf) (entry : Logged)
  | stderr (buf : Buf) (line : Bytes)

/-- The text in `buf`. -/
def Reporter.fill (r : Reporter) (memory : Nat → UInt8) (statcode : Nat) (text : Bytes) : Buf :=
  if statcode < 64 then vsnprintf (fresh memory) 0 iwLogmsglenMax text
  else
    let buf := (fresh memory).copy 0 (r.tag ++ [0])
    let mlen := buf.strlen 0 iwLogmsglenMax
    vsnprintf buf mlen (iwLogmsglenMax - mlen) text

/-- The newline for standard error, over the last character where there is no room. -/
def endLine (buf : Buf) : Buf :=
  let mlen := buf.strlen 0 iwLogmsglenMax
  if 2 ≤ iwLogmsglenMax - mlen then (buf.put mlen newline).put (mlen + 1) 0
  else buf.put (mlen - 1) newline

/-- The text as a line on standard error. -/
def toStderr (buf : Buf) : Report :=
  let buf := endLine buf
  .stderr buf (buf.read 0 (buf.strlen 0 iwLogmsglenMax))

/-- `pmsg` up to the place where the line goes. -/
def Reporter.report (r : Reporter) (verbose : Bool) (memory : Nat → UInt8) (statcode : Nat)
    (args : List Arg) (deliver : Buf → Report) : Report :=
  if 64 ≤ statcode ∧ verbose = false then .silent
  else
    match statmsg (if statcode < 64 then r.msgs else r.vmsgs) statcode with
    | none => .silent
    | some format =>
      match formatted format args with
      | none => .undefined
      | some text => deliver (r.fill memory statcode text)

def iwlogReporter : Reporter where
  tag := ascii "[iwlog] "
  msgs := iwlogStatmsgs
  vmsgs := iwlogStatvmsgs
  plain := by decide
  short := by decide

/-- `pmsg` of logging.c. -/
def iwlogPmsg (alog : Option IwLog) (memory : Nat → UInt8) (statcode : Nat) (args : List Arg) : Report :=
  match alog with
  | none =>
    if statcode < 64 then iwlogReporter.report false memory statcode args toStderr else .segv
  | some alog => iwlogReporter.report alog.fverbose memory statcode args toStderr

/-- The text as an entry of the log, over the buffer of the log. Without an object `iwlog_print_msg`
reports that (`EV_NULL_OBJ`) and does nothing else. -/
def toLog (alog : Option IwLog) (memory logbuf : Nat → UInt8) (timebuf : Bytes) (buf : Buf) : Report :=
  match alog with
  | none => iwlogPmsg none memory 70 []
  | some _ =>
    let mlen := buf.strlen 0 iwLogmsglenMax
    .log buf (iwlogPrintMsg logbuf timebuf (buf.read 0 mlen) mlen)

/-- `iwlog_is_verbose`. -/
def iwlogIsVerbose (alog : Option IwLog) : Bool :=
  match alog with
  | none => false
  | some alog => alog.fverbose

/-- `pmsg` of the modules but the log, once the log is there (`g_iw_logready`) or before. -/
def Reporter.pmsg (r : Reporter) (alog : Option IwLog) (logready : Bool) (memory logbuf : Nat → UInt8)
    (timebuf : Bytes) (statcode : Nat) (args : List Arg) : Report :=
  r.report (iwlogIsVerbose alog) memory statcode args fun buf =>
    if logready then toLog alog memory logbuf timebuf buf else toStderr buf

/-- `pmsg` of tftp.c. -/
def iwtftpReporter : Reporter where
  tag := ascii "[iwtftp] "
  msgs := iwtftpStatmsgs
  vmsgs := iwtftpStatvmsgs
  plain := by decide
  short := by decide

/-- `pmsg` of datastore.c. -/
def iwdsReporter : Reporter where
  tag := ascii "[iwds] "
  msgs := iwdsStatmsgs
  vmsgs := iwdsStatvmsgs
  plain := by decide
  short := by decide

/-- `pmsg` of iwtftpd.c. -/
def mainReporter : Reporter where
  tag := ascii "[main] "
  msgs := statmsgs
  vmsgs := statvmsgs
  plain := by decide
  short := by decide

/-! ## The line in `buf` -/

/-- The format of a report, when it is made. -/
def Reporter.shows (r : Reporter) (verbose : Bool) (statcode : Nat) : Option Bytes :=
  if 64 ≤ statcode ∧ verbose = false then none
  else statmsg (if statcode < 64 then r.msgs else r.vmsgs) statcode

/-- The line of a report, cut where `buf` ends. -/
def Reporter.line (r : Reporter) (statcode : Nat) (text : Bytes) : Bytes :=
  ((if statcode < 64 then [] else r.tag) ++ text).take (iwLogmsglenMax - 1)

/-- Arguments are strings. -/
def Arg.Plain : Arg → Prop
  | .str text => (0 : UInt8) ∉ text
  | .int _ => True

theorem decimal_free (n : Int) : (0 : UInt8) ∉ decimal n := by
  have digits : (0 : UInt8) ∉ (Nat.toDigits 10 n.natAbs).map fun c => UInt8.ofNat c.toNat := by
    intro member
    obtain ⟨c, digit, zero⟩ := List.mem_map.mp member
    have range := Nat.isDigit_of_mem_toDigits (by decide) (by decide) digit
    have value := congrArg UInt8.toNat zero
    simp only [Char.isDigit, Bool.and_eq_true, decide_eq_true_eq, UInt32.le_iff_toNat_le, ge_iff_le] at range
    simp only [UInt8.toNat_ofNat', Char.toNat] at value
    change 48 ≤ c.val.toNat ∧ c.val.toNat ≤ 57 at range
    have none : c.val.toNat % 256 = 0 := value
    omega
  rw [decimal]
  split
  · simpa using digits
  · exact digits

/-- No text has a terminator that neither the format nor an argument has.

Proof: by the recursion over the format. A conversion puts its argument before the rest, any
other character itself; both are free of it. -/
theorem formatted_free {format : Bytes} {args : List Arg} {text : Bytes} (plain : (0 : UInt8) ∉ format)
    (strings : ∀ a ∈ args, a.Plain) (made : formatted format args = some text) : (0 : UInt8) ∉ text := by
  induction format, args using formatted.induct generalizing text with
  | case1 args =>
    cases made
    exact List.not_mem_nil
  | case2 rest argument args inductionHypothesis =>
    obtain ⟨after, ends, rfl⟩ := Option.map_eq_some_iff.mp made
    have inside : (0 : UInt8) ∉ rest := by simp_all
    have here : (0 : UInt8) ∉ argument := strings (.str argument) List.mem_cons_self
    rw [List.mem_append, not_or]
    exact ⟨here, inductionHypothesis inside (fun a member => strings a (List.mem_cons_of_mem _ member)) ends⟩
  | case3 rest args notString =>
    rw [formatted] at made
    · cases made
    · exact notString
  | case4 rest n args inductionHypothesis =>
    obtain ⟨after, ends, rfl⟩ := Option.map_eq_some_iff.mp made
    have inside : (0 : UInt8) ∉ rest := by simp_all
    rw [List.mem_append, not_or]
    exact ⟨decimal_free n, inductionHypothesis inside (fun a member => strings a (List.mem_cons_of_mem _ member)) ends⟩
  | case5 rest args notNumber =>
    rw [formatted] at made
    · cases made
    · exact notNumber
  | case6 c rest args notString notNumber inductionHypothesis =>
    rw [formatted] at made
    · obtain ⟨after, ends, rfl⟩ := Option.map_eq_some_iff.mp made
      have inside : (0 : UInt8) ∉ rest := fun member => plain (List.mem_cons_of_mem c member)
      have here : (0 : UInt8) ≠ c := fun same => plain (same ▸ List.mem_cons_self)
      rw [List.mem_cons, not_or]
      exact ⟨here, inductionHypothesis inside strings ends⟩
    · exact notString
    · exact notNumber

variable {r : Reporter} {memory logbuf : Nat → UInt8} {timebuf text line : Bytes} {statcode : Nat} {buf : Buf}

/-- `buf` holds the line, and no store was outside it. -/
structure Kept (buf : Buf) (line : Bytes) : Prop where
  holds : Buffer.Holds 0 buf iwLogmsglenMax line
  inside : buf.Inside iwLogmsglenMax

/-- What `vsnprintf` puts behind a string, and a terminator. -/
theorem Kept.vsnprintf (kept : Kept buf line) (free : (0 : UInt8) ∉ text) :
    Kept (Iwtftpd.vsnprintf buf line.length (iwLogmsglenMax - line.length) text)
      (line ++ text.take (iwLogmsglenMax - line.length - 1)) := by
  have fits := kept.holds.fits
  have cut : (text.take (iwLogmsglenMax - line.length - 1)).length ≤ iwLogmsglenMax - line.length - 1 :=
    List.length_take_le _ _
  constructor
  · exact kept.holds.append (fun member => free (List.mem_of_mem_take member)) (by omega)
  · apply Buffer.inside_copy _ kept.inside
    rw [List.length_append, List.length_singleton]
    omega

theorem Reporter.fill_kept (r : Reporter) (memory : Nat → UInt8) (statcode : Nat)
    (free : (0 : UInt8) ∉ text) : Kept (r.fill memory statcode text) (r.line statcode text) := by
  have short := r.short
  rw [Reporter.fill, Reporter.line]
  by_cases loud : statcode < 64
  · have cut : (text.take (iwLogmsglenMax - 1)).length ≤ iwLogmsglenMax - 1 := List.length_take_le _ _
    rw [if_pos loud, if_pos loud, List.nil_append]
    constructor
    · exact Buffer.holds_copy _ (fun member => free (List.mem_of_mem_take member)) (by omega)
    · apply Buffer.inside_copy _ (Buffer.inside_fresh memory iwLogmsglenMax)
      rw [List.length_append, List.length_singleton]
      omega
  · have tagged : Kept ((Buffers.fresh memory).copy 0 (r.tag ++ [0])) r.tag := by
      constructor
      · exact Buffer.holds_copy _ r.plain short
      · apply Buffer.inside_copy _ (Buffer.inside_fresh memory iwLogmsglenMax)
        rw [List.length_append, List.length_singleton]
        omega
    have whole : (r.tag ++ text).take (iwLogmsglenMax - 1) =
        r.tag ++ text.take (iwLogmsglenMax - r.tag.length - 1) := by
      rw [List.take_append, List.take_of_length_le (by omega)]
      congr 2
      omega
    rw [if_neg loud, if_neg loud, whole]
    simp only [tagged.holds.strlen_eq]
    exact tagged.vsnprintf free

/-- A line for standard error ends in a newline, also when it fills `buf`. -/
theorem Kept.endLine (kept : Kept buf line) :
    Kept (Iwtftpd.endLine buf) (line.take (iwLogmsglenMax - 2) ++ [newline]) := by
  have fits := kept.holds.fits
  simp only [Iwtftpd.endLine, kept.holds.strlen_eq]
  by_cases room : 2 ≤ iwLogmsglenMax - line.length
  · rw [if_pos room, List.take_of_length_le (by omega)]
    constructor
    · exact kept.holds.append (t := [newline]) (by decide) (by rw [List.length_singleton]; omega)
    · rw [Buffer.inside_put, Buffer.inside_put]
      exact ⟨by omega, by omega, kept.inside⟩
  · -- The last character gives way.
    have some : line ≠ [] := by
      rintro rfl
      exact room (by decide)
    obtain ⟨front, last, rfl⟩ : ∃ front last, line = front ++ [last] :=
      ⟨_, _, (List.dropLast_concat_getLast some).symm⟩
    rw [List.length_append, List.length_singleton] at fits room ⊢
    have whole : (front ++ [last]).take (iwLogmsglenMax - 2) = front := by
      rw [List.take_append_of_le_length (by omega), List.take_of_length_le (by omega)]
    rw [if_neg room, Nat.add_sub_cancel, whole]
    constructor
    · exact kept.holds.put_last (by decide)
    · rw [Buffer.inside_put]
      exact ⟨by omega, kept.inside⟩

/-! ## Where the line goes -/

theorem Kept.read (kept : Kept buf line) : buf.read 0 (buf.strlen 0 iwLogmsglenMax) = line := by
  rw [kept.holds.strlen_eq, kept.holds.held]

theorem shows_free {verbose : Bool} {format : Bytes} (shown : r.shows verbose statcode = some format) :
    (0 : UInt8) ∉ format := by
  rw [Reporter.shows] at shown
  split at shown
  · cases shown
  · obtain ⟨entry, _, rfl⟩ := Option.map_eq_some_iff.mp shown
    intro member
    simpa using List.mem_takeWhile_imp member

/-- A line on standard error. -/
def OnStderr (line : Bytes) (told : Report) : Prop :=
  ∃ buf, told = .stderr buf (line.take (iwLogmsglenMax - 2) ++ [newline]) ∧ buf.Inside iwLogmsglenMax

/-- A record of the log. -/
def OnLog (timebuf line : Bytes) (told : Report) : Prop :=
  ∃ buf entry, told = .log buf entry ∧ buf.Inside iwLogmsglenMax ∧ entry.msgbuf.Inside logmsgbufSize ∧
    entry.record = timebuf ++ [space] ++ line ++ [newline]

/-- Where the lines of the modules but the log go. The log that is marked ready without an object
has the report crash; `main` marks it once it has one. -/
def HandedOn (alog : Option IwLog) (logready : Bool) (timebuf line : Bytes) (told : Report) : Prop :=
  match logready, alog with
  | false, _ => OnStderr line told
  | true, some _ => OnLog timebuf line told
  | true, none => told = .segv

theorem Kept.toStderr (kept : Kept buf line) : OnStderr line (Iwtftpd.toStderr buf) :=
  ⟨_, by rw [Iwtftpd.toStderr, kept.endLine.read], kept.endLine.inside⟩

theorem Kept.toLog (kept : Kept buf line) (alog : IwLog) (memory logbuf : Nat → UInt8) (stamp : Stamp timebuf)
    (dated : timebuf.length ≤ 19) : OnLog timebuf line (Iwtftpd.toLog (some alog) memory logbuf timebuf buf) := by
  have short := kept.holds.fits
  have free := kept.holds.free
  have length : buf.strlen 0 iwLogmsglenMax = line.length := kept.holds.strlen_eq
  refine ⟨buf, iwlogPrintMsg logbuf timebuf line line.length, ?_, kept.inside, ?_, ?_⟩
  · simp only [Iwtftpd.toLog]
    rw [kept.read, length]
  · exact stamp.callers logbuf free dated short
  · apply stamp.whole logbuf free
    have size : logmsgbufSize = iwLogmsglenMax + 24 := rfl
    simp only [List.length_append, List.length_singleton]
    omega

/-- What the call of a report comes to. A code without a format is passed over. Where the
arguments do not fit the format the call is undefined. Otherwise its line, cut to `buf`, ends up
as `Ends` says. -/
def Reporter.Tells (r : Reporter) (verbose : Bool) (statcode : Nat) (args : List Arg)
    (Ends : Bytes → Report → Prop) (told : Report) : Prop :=
  match r.shows verbose statcode with
  | none => told = .silent
  | some format =>
    match formatted format args with
    | none => told = .undefined
    | some text => Ends (r.line statcode text) told

theorem Reporter.Tells.shown {verbose : Bool} {args : List Arg} {Ends : Bytes → Report → Prop} {told : Report}
    {format : Bytes} (tells : r.Tells verbose statcode args Ends told) (shown : r.shows verbose statcode = some format)
    (made : formatted format args = some text) : Ends (r.line statcode text) told := by
  rw [Reporter.Tells, shown] at tells
  simp only [made] at tells
  exact tells

/-- Every module that hands its lines on does with them what the place they are handed to
does: `buf` holds the line there, within its bounds. -/
theorem Reporter.report_tells (r : Reporter) (verbose : Bool) (memory : Nat → UInt8) (statcode : Nat)
    {args : List Arg} (strings : ∀ a ∈ args, a.Plain) {deliver : Buf → Report} {Ends : Bytes → Report → Prop}
    (delivers : ∀ {buf line}, Kept buf line → Ends line (deliver buf)) :
    r.Tells verbose statcode args Ends (r.report verbose memory statcode args deliver) := by
  have free : ∀ format, r.shows verbose statcode = some format → (0 : UInt8) ∉ format :=
    fun format shown => shows_free shown
  rw [Reporter.Tells, Reporter.report]
  rw [Reporter.shows] at free ⊢
  by_cases muted : 64 ≤ statcode ∧ verbose = false
  · rw [if_pos muted, if_pos muted]
  · rw [if_neg muted] at free
    rw [if_neg muted, if_neg muted]
    cases found : statmsg (if statcode < 64 then r.msgs else r.vmsgs) statcode with
    | none => rfl
    | some format =>
      cases made : formatted format args with
      | none => simp only [made]
      | some text =>
        simp only [made]
        exact delivers (r.fill_kept memory statcode (formatted_free (free format found) strings made))

/-- The log's own reports never reach the log. Before there is one, a report for verbose mode
looks for the mode in it, and is a crash. -/
theorem iwlogPmsg_tells (alog : Option IwLog) (memory : Nat → UInt8) (statcode : Nat) {args : List Arg}
    (strings : ∀ a ∈ args, a.Plain) :
    if alog = none ∧ 64 ≤ statcode then iwlogPmsg alog memory statcode args = .segv
    else iwlogReporter.Tells (iwlogIsVerbose alog) statcode args OnStderr (iwlogPmsg alog memory statcode args) := by
  have tells := fun verbose => iwlogReporter.report_tells verbose memory statcode strings Kept.toStderr
  cases alog with
  | some alog =>
    rw [if_neg (by rintro ⟨⟨⟩, _⟩)]
    exact tells alog.fverbose
  | none =>
    by_cases early : 64 ≤ statcode
    · rw [if_pos ⟨rfl, early⟩, iwlogPmsg, if_neg (by omega)]
    · rw [if_neg fun both => early both.2, iwlogPmsg, if_pos (by omega)]
      exact tells false

/-- Every report whose arguments fit its format stays inside its buffers. With the log there it
becomes one record, which is never cut a second time; before that it is a line on standard error.
The log's own reports are always lines on standard error, but for those that crash.

Proof: `buf` holds the line when it is handed on, and no store was outside it. On standard error
a newline is put behind it, or over its last character where it fills `buf`. For the log it is
shorter than what `iwlog_print_msg` cuts. -/
theorem pmsg_reports (r : Reporter) (alog : Option IwLog) (logready : Bool) (memory logbuf : Nat → UInt8)
    (stamp : Stamp timebuf) (dated : timebuf.length ≤ 19) (statcode : Nat) {args : List Arg}
    (strings : ∀ a ∈ args, a.Plain) :
    r.Tells (iwlogIsVerbose alog) statcode args (HandedOn alog logready timebuf)
      (r.pmsg alog logready memory logbuf timebuf statcode args) ∧
    if alog = none ∧ 64 ≤ statcode then iwlogPmsg alog memory statcode args = .segv
    else iwlogReporter.Tells (iwlogIsVerbose alog) statcode args OnStderr
      (iwlogPmsg alog memory statcode args) := by
  refine ⟨?_, iwlogPmsg_tells alog memory statcode strings⟩
  apply r.report_tells (iwlogIsVerbose alog) memory statcode strings
  intro buf line kept
  cases logready with
  | false => exact kept.toStderr
  | true =>
    cases alog with
    | none => rfl
    | some alog => exact kept.toLog alog memory logbuf stamp dated

/-- A file that the datastore does not have, once the log is there, in verbose mode; the log's
own report that it has no object, before the log is there. -/
theorem pmsg_reports_sample :
    OnLog someStamp (iwdsReporter.line 7 (ascii "error: 'f' does not exist on datastore"))
      (iwdsReporter.pmsg (some { logfd := 3, fverbose := true }) true (fun _ => 0) (fun _ => 0) someStamp 7
        [.str (ascii "f")]) ∧
    iwlogPmsg none (fun _ => 0) 70 [] = .segv :=
  ⟨(pmsg_reports iwdsReporter (some { logfd := 3, fverbose := true }) true (fun _ => 0) (fun _ => 0) someStamp_stamp
      (by decide) 7 (show ∀ a ∈ [Arg.str (ascii "f")], a.Plain by simp [Arg.Plain]; decide)).1.shown
      (show iwdsReporter.shows true 7 = some (ascii "error: '%s' does not exist on datastore") by decide) (by decide),
    (pmsg_reports iwdsReporter none true (fun _ => 0) (fun _ => 0) someStamp_stamp (by decide) 70
      (List.forall_mem_nil _)).2⟩

/-- The report that a stream could not be closed is undefined in verbose mode: its format asks
for two strings, and `del_dsession` and `iwds_exit` hand it the name of the file alone. -/
theorem fclose_undefined (alog : IwLog) (verbose : alog.fverbose = true) (logready : Bool)
    (memory logbuf : Nat → UInt8) (timebuf filename : Bytes) :
    iwdsReporter.pmsg (some alog) logready memory logbuf timebuf 68 [.str filename] = .undefined := by
  have shown : statmsg iwdsStatvmsgs 68 = some (ascii "error: fclose: failed, %s: %s") := by decide
  have format : statmsg (if 68 < 64 then iwdsReporter.msgs else iwdsReporter.vmsgs) 68 =
      some (ascii "error: fclose: failed, %s: %s") := shown
  have short : formatted (ascii "error: fclose: failed, %s: %s") [.str filename] = none := rfl
  rw [Reporter.pmsg, Reporter.report, if_neg fun muted => by simp [iwlogIsVerbose, verbose] at muted, format]
  simp only [short]

/-! ## Requests in the log -/

/-- The report of `tftp_proc` for a request that was parsed: `I_TFTPREQ_GET` or
`I_TFTPREQ_PUT`, the name and the client. -/
def requestReport (opcode : UInt16) (req : TftpReq) (clip : Bytes) (clport : UInt16) : Nat × List Arg :=
  (if opcode = opRrq then 28 else 30, [.str req.filename, .str clip, .int clport.toNat])

theorem mem_lines {line : Bytes} (plain : newline ∉ line) (before after : Bytes) :
    line ∈ (before ++ newline :: (line ++ newline :: after)).splitOn newline := by
  rw [List.splitOn_append_cons_self, List.splitOn_append_cons_self_of_not_mem plain]
  exact List.mem_append_right _ List.mem_cons_self

/-- The line of a request: a few words, the name, and the client. -/
theorem requestReport_line (opcode : UInt16) (req : TftpReq) (clip : Bytes) (clport : UInt16) (verbose : Bool) :
    ∃ format words client, words.length = 19 ∧
      iwtftpReporter.shows verbose (requestReport opcode req clip clport).1 = some format ∧
      formatted format (requestReport opcode req clip clport).2 = some (words ++ (req.filename ++ client)) ∧
      ∀ text, iwtftpReporter.line (requestReport opcode req clip clport).1 text =
        text.take (iwLogmsglenMax - 1) := by
  rw [requestReport]
  by_cases get : opcode = opRrq
  · rw [if_pos get]
    refine ⟨cstr (ascii "info: get request '%s', by '%s:%d'"), ascii "info: get request '", _, by decide, ?_, rfl, ?_⟩
    · show iwtftpReporter.shows verbose 28 = _
      cases verbose <;> decide
    · intro text
      rfl
  · rw [if_neg get]
    refine ⟨cstr (ascii "info: put request '%s', by '%s:%d'"), ascii "info: put request '", _, by decide, ?_, rfl, ?_⟩
    · show iwtftpReporter.shows verbose 30 = _
      cases verbose <;> decide
    · intro text
      rfl

/-- The name of a request goes into the log as it is. So a client can have any line written there,
under no time stamp, that leaves the record room for it.

Proof: the client asks for the line between two newlines. The parser takes that for a name, the
report has 19 characters before it, and what `pmsg` cuts off lies behind it. -/
theorem request_forges {forged : Bytes} (free : (0 : UInt8) ∉ forged) (plain : newline ∉ forged)
    (short : forged.length ≤ 234) (opcode : UInt16) (request : opcode = opRrq ∨ opcode = opWrq)
    (alog : IwLog) (memory logbuf : Nat → UInt8) (stamp : Stamp timebuf) (dated : timebuf.length ≤ 19)
    {clip : Bytes} (client : (0 : UInt8) ∉ clip) (clport : UInt16) :
    ∃ msg req, parseTftpreq msg msg.length = some req ∧ ∃ buf entry,
      iwtftpReporter.pmsg (some alog) true memory logbuf timebuf (requestReport opcode req clip clport).1
        (requestReport opcode req clip clport).2 = .log buf entry ∧
      forged ∈ entry.record.splitOn newline := by
  have nameFree : (0 : UInt8) ∉ newline :: (forged ++ [newline]) := by
    simpa [newline] using free
  have nameShort : (newline :: (forged ++ [newline])).length < tftpFilenameMax := by
    have limit : tftpFilenameMax = 256 := rfl
    simp only [List.length_cons, List.length_append, List.length_nil]
    omega
  have long : 10 ≤ (reqMsg opcode (newline :: (forged ++ [newline])) .octet).length := by
    have mode : TftpMode.octet.name.length = 5 := by decide
    rw [reqMsg_length, mode, List.length_cons, List.length_append, List.length_singleton]
    omega
  have parsed := parseTftpreq_reqMsg opcode .octet [] request long nameFree nameShort
  rw [List.append_nil] at parsed
  refine ⟨_, _, parsed, ?_⟩
  obtain ⟨format, words, rest, size, shown, text, line⟩ := requestReport_line opcode
    { filename := newline :: (forged ++ [newline]), mode := .octet } clip clport (iwlogIsVerbose (some alog))
  have strings : ∀ a ∈ (requestReport opcode { filename := newline :: (forged ++ [newline]), mode := .octet }
      clip clport).2, a.Plain := by
    rw [requestReport]
    simp [Arg.Plain, client, free, newline]
  obtain ⟨buf, entry, logged, _, _, record⟩ := (iwtftpReporter.report_tells (iwlogIsVerbose (some alog)) memory _ strings
    fun kept => kept.toLog alog memory logbuf stamp dated).shown shown text
  refine ⟨buf, entry, logged, ?_⟩
  · -- The forged line with its two newlines is within what is kept of the text.
    have parts : (words ++ ((newline :: (forged ++ [newline])) ++ rest)).take (iwLogmsglenMax - 1) =
        words ++ newline :: (forged ++ newline :: rest.take (iwLogmsglenMax - 22 - forged.length)) := by
      have limit : iwLogmsglenMax = 256 := rfl
      have name : (newline :: (forged ++ [newline])).length = forged.length + 2 := by simp
      have left : iwLogmsglenMax - 1 - words.length - (forged.length + 2) = iwLogmsglenMax - 22 - forged.length := by
        omega
      rw [List.take_append, List.take_of_length_le (by omega), List.take_append, name,
        List.take_of_length_le (by omega), left]
      simp
    rw [record, line, parts]
    have whole := mem_lines plain (timebuf ++ [space] ++ words)
      (rest.take (iwLogmsglenMax - 22 - forged.length) ++ [newline])
    simpa using whole

/-- A start of the server that never took place. -/
theorem request_forges_sample :
    ∃ msg req, parseTftpreq msg msg.length = some req ∧ ∃ buf entry,
      iwtftpReporter.pmsg (some { logfd := 3, fverbose := false }) true (fun _ => 0) (fun _ => 0) someStamp
        (requestReport opRrq req (ascii "127.0.0.1") 2000).1 (requestReport opRrq req (ascii "127.0.0.1") 2000).2 =
        .log buf entry ∧
      ascii "2012-01-01 12:00:00 info: starting server" ∈ entry.record.splitOn newline :=
  request_forges (by decide) (by decide) (by decide) opRrq (.inl rfl) { logfd := 3, fverbose := false }
    (fun _ => 0) (fun _ => 0) someStamp_stamp (by decide) (by decide) 2000

end Iwtftpd
