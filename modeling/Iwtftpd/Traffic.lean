import Iwtftpd.Encoders
import Iwtftpd.Lib.Outputs
import Iwtftpd.Readable
import Iwtftpd.StaleReplies
import Iwtftpd.Timer

/-!
# What the server sends, and how much

Every message that leaves the server is in one of the formats of TFTP, or empty,
or what the stack held where `sinfo` lies. A session that never made a message
answers a repeated request with an empty datagram.

How much is sent is bounded by what is received: a datagram has at most one reply
and gives one session three retries, and each message of the timer uses up one.
-/

namespace Iwtftpd

variable {host : Host} {vol : Volume}

/-! ## Formats -/

/-- A message in one of the formats that the server makes. -/
inductive Formatted : Bytes → Prop where
  | data (blknum : UInt16) (data : Bytes) (short : data.length ≤ tftpDatalenMax) :
      Formatted (dataMsg blknum data)
  | ack (blknum : UInt16) : Formatted (ackMsg blknum)
  | error (ecode : TftpErrorcode) (emsg : Bytes) (free : (0 : UInt8) ∉ emsg)
      (short : emsg.length < tftpEmsglenMax) : Formatted (errorMsg ecode emsg)

/-- A message of one of the three formats fits the buffer of a message. -/
theorem Formatted.fits {msg : Bytes} (formatted : Formatted msg) : msg.length ≤ tftpMsglenMax := by
  have size : tftpMsglenMax = 516 := rfl
  cases formatted with
  | data blknum data short =>
    have data : data.length ≤ 512 := short
    rw [dataMsg_length]
    omega
  | ack blknum =>
    rw [ackMsg_length]
    omega
  | error ecode emsg free short =>
    have text : emsg.length < 256 := short
    rw [errorMsg_length]
    omega

/-- The parser of the format takes the message. -/
theorem Formatted.parsed {msg : Bytes} (formatted : Formatted msg) :
    (parseTftpdata msg msg.length).isSome ∨ (parseTftpack msg msg.length).isSome ∨
      (parseTftperror msg msg.length).isSome := by
  cases formatted with
  | data blknum data short =>
    have read := parseTftpdata_dataMsg blknum [] short
    rw [List.append_nil] at read
    exact .inl (by rw [read]; rfl)
  | ack blknum =>
    have read := parseTftpack_ackMsg blknum []
    rw [List.append_nil] at read
    exact .inr (.inl (by rw [read]; rfl))
  | error ecode emsg free short =>
    have read := parseTftperror_errorMsg ecode [] free short
    rw [List.append_nil] at read
    exact .inr (.inr (by rw [read]; rfl))

/-- What may leave the server: a message in a format, nothing, or what `sinfo` held at the start. -/
def Sendable (stack msg : Bytes) : Prop := Formatted msg ∨ msg = [] ∨ msg = stack

/-- So does everything that can be sent, if what was on the stack does. -/
theorem Sendable.fits {stack msg : Bytes} (sendable : Sendable stack msg)
    (short : stack.length ≤ tftpMsglenMax) : msg.length ≤ tftpMsglenMax := by
  rcases sendable with formatted | rfl | rfl
  · exact formatted.fits
  · exact Nat.zero_le _
  · exact short

/-! ## One call of `tftp_proc` -/

/-- What a call puts into `sinfo` and what it keeps for resending. -/
structure Makes (stack : Bytes) (p : Proc) : Prop where
  fill : ∀ msg ∈ p.fill, Sendable stack msg
  kept : ∀ s, p.edit = .update s ∨ p.edit = .insert s → Sendable stack s.lastmsg

variable {stack : Bytes}

/-- An ERROR is formatted, whichever its code and text. -/
theorem errsendNone_makes {edit : Edit} (ds : IWDS) (ecode : TftpErrorcode) {emsg : Bytes}
    (free : (0 : UInt8) ∉ emsg) (short : emsg.length < tftpEmsglenMax)
    (kept : ∀ s, edit = .update s ∨ edit = .insert s → Sendable stack s.lastmsg) :
    Makes stack (errsendNone edit ds ecode emsg) := by
  rw [errsendNone_eq edit ds ecode short]
  refine ⟨?_, kept⟩
  intro msg made
  cases made
  refine .inl (.error ecode _ ?_ ?_)
  · split
    · exact free
    · cases ecode <;> decide
  · split
    · exact short
    · exact errmsgs_fit ecode

/-- An ERROR for a session is, too, and the session keeps a last message that can be sent. -/
theorem errsend_makes {place : Session → Edit} {s : Session} (ds : IWDS) (ecode : TftpErrorcode)
    {emsg : Bytes} (free : (0 : UInt8) ∉ emsg) (short : emsg.length < tftpEmsglenMax)
    (places : place = .update ∨ place = .insert) (kept : Sendable stack s.lastmsg) :
    Makes stack (errsend place s ds ecode emsg) := by
  have none : Makes stack (errsendNone .keep ds ecode emsg) :=
    errsendNone_makes ds ecode free short (by simp)
  rw [errsendNone_eq .keep ds ecode short] at none
  rw [errsend_eq place s ds ecode short]
  refine ⟨none.fill, ?_⟩
  rcases places with rfl | rfl
  · rintro _ (same | same)
    · cases same
      exact kept
    · cases same
  · rintro _ (same | same)
    · cases same
    · cases same
      exact kept

/-- What is sent again could be sent before. -/
theorem resend_makes {s : Session} (ds : IWDS) (now : Int) (kept : Sendable stack s.lastmsg) :
    Makes stack (resend s ds now) := by
  unfold resend
  split
  · refine ⟨?_, ?_⟩
    · intro msg made
      cases made
      exact kept
    · rintro _ (same | same) <;> cases same
      exact kept
  · refine ⟨by simp, ?_⟩
    rintro _ (same | same) <;> cases same
    exact kept

/-- A DATA that is made is kept; a failure keeps what was kept before. -/
theorem makeTftpdataMsg_kept (vol : Volume) {s : Session} (ds : IWDS) (now : Int) (kept : Sendable stack s.lastmsg) :
    (∀ msg ∈ (makeTftpdataMsg vol s ds tftpMsglenMax now).1, Sendable stack msg) ∧
      Sendable stack (makeTftpdataMsg vol s ds tftpMsglenMax now).2.1.lastmsg := by
  cases made : (makeTftpdataMsg vol s ds tftpMsglenMax now).1 with
  | none =>
    have same := congrArg Session.lastmsg (makeTftpdataMsg_none made)
    refine ⟨by simp, ?_⟩
    rw [same]
    exact kept
  | some msg =>
    have last := (makeTftpdataMsg_made made).2.1
    have formatted : Formatted msg := by
      have short := getLoop_short vol (tftpDatalenMax + 1) { s with blknum := nextBlk s.blknum } ds
        tftpDatalenMax []
      rw [makeTftpdataMsg, if_neg (lt_irrefl _)] at made
      dsimp only at made
      rw [getSessionData] at made
      generalize getLoop vol (tftpDatalenMax + 1) { s with blknum := nextBlk s.blknum } ds
        tftpDatalenMax [] = r at made short
      cases status : r.status with
      | done =>
        rw [status] at made
        obtain rfl := Option.some.inj made
        exact .data _ _ (by simpa using short)
      | err | running =>
        rw [status] at made
        cases made
    rw [last]
    refine ⟨?_, .inl formatted⟩
    intro msg' same
    cases same
    exact .inl formatted

/-- The first DATA of a download and the ACK of an upload are formatted, and so is the ERROR when
the first block cannot be made. -/
theorem startTransfer_makes {s : Session} (ds : IWDS) (opcode : UInt16) (now : Int)
    (kept : Sendable stack s.lastmsg) : Makes stack (startTransfer vol s ds opcode now) := by
  unfold startTransfer
  split
  · obtain ⟨fill, last⟩ := makeTftpdataMsg_kept vol ds now kept
    generalize makeTftpdataMsg vol s ds tftpMsglenMax now = r at fill last
    obtain ⟨_ | msg, s', ds'⟩ := r
    · exact errsend_makes ds' .seeMsg (by decide) serverError_short (.inr rfl) last
    · refine ⟨fill, ?_⟩
      rintro _ (same | same) <;> cases same
      exact last
  · simp only [makeTftpackMsg_eq]
    refine ⟨?_, ?_⟩
    · intro msg made
      cases made
      exact .inl (.ack 0)
    · rintro _ (same | same) <;> cases same
      exact .inl (.ack 0)

/-- A request is answered by a formatted message or by what is left in `sinfo`. -/
theorem opReq_makes (ds : IWDS) (rbuf : Bytes) (dlen : Nat) (opcode : UInt16) (client : Client)
    (now : Int) (newsock : Option Int) :
    Makes stack (opReq vol ds rbuf dlen opcode client now newsock) := by
  have nothing : ∀ s : Session, Edit.keep = .update s ∨ Edit.keep = .insert s → Sendable stack s.lastmsg := by
    rintro _ (same | same) <;> cases same
  unfold opReq
  split
  · exact errsendNone_makes ds .illegalOpe (by decide) empty_short nothing
  · split
    · exact errsendNone_makes ds .fileExist (by decide) empty_short nothing
    · exact errsendNone_makes ds .notFound (by decide) empty_short nothing
    · split
      · apply errsendNone_makes ds .seeMsg (by decide) serverError_short
        rintro _ (same | same) <;> cases same
        exact .inr (.inl rfl)
      · exact startTransfer_makes ds opcode now (.inr (.inl rfl))

/-- A block is answered by the ACK of its number or by an ERROR. -/
theorem storeBlock_makes {s : Session} (ds : IWDS) (dat : TftpData) (dlen : Nat) (now : Int)
    (kept : Sendable stack s.lastmsg) : Makes stack (storeBlock vol s ds dat dlen now) := by
  unfold storeBlock
  dsimp only
  have started : (if dlen - 4 < tftpDatalenMax then { s with fin := true } else s).lastmsg =
      s.lastmsg := by
    split <;> rfl
  generalize (if dlen - 4 < tftpDatalenMax then { s with fin := true } else s) = start at started ⊢
  have only := (putSessionData_steps vol start ds dat.data).2.1
  generalize putSessionData vol start ds dat.data = r at only ⊢
  split
  · simp only [makeTftpackMsg_eq]
    refine ⟨?_, ?_⟩
    · intro msg made
      cases made
      exact .inl (.ack dat.blknum)
    · rintro _ (same | same) <;> cases same
      exact .inl (.ack dat.blknum)
  · apply errsend_makes r.ds .accessDeny (by decide) empty_short (.inl rfl)
    rw [only.lastmsg, started]
    exact kept

/-- An ACK is answered by the next DATA, by an ERROR, or by nothing behind the last block. -/
theorem nextData_makes {s : Session} (ds : IWDS) (now : Int) (kept : Sendable stack s.lastmsg) :
    Makes stack (nextData vol s ds now) := by
  unfold nextData
  split
  · refine ⟨by simp, ?_⟩
    rintro _ (same | same) <;> cases same
    exact kept
  · obtain ⟨fill, last⟩ := makeTftpdataMsg_kept vol ds now kept
    generalize makeTftpdataMsg vol s ds tftpMsglenMax now = r at fill last
    obtain ⟨_ | msg, s', ds'⟩ := r
    · exact errsend_makes ds' .seeMsg (by decide) serverError_short (.inl rfl) last
    · refine ⟨fill, ?_⟩
      rintro _ (same | same) <;> cases same
      exact last

/-- Every call of `tftp_proc`. -/
theorem tftpProc_makes (ses : Option Session) (ds : IWDS) (rbuf : Bytes) (dlen : Nat) (client : Client)
    (now : Int) (newsock : Option Int) (kept : ∀ s ∈ ses, Sendable stack s.lastmsg) :
    Makes stack (tftpProc vol ses ds rbuf dlen client now newsock) := by
  have nothing : ∀ s : Session, Edit.keep = .update s ∨ Edit.keep = .insert s → Sendable stack s.lastmsg := by
    rintro _ (same | same) <;> cases same
  unfold tftpProc
  dsimp only
  cases ses with
  | none =>
    split
    · exact opReq_makes ds rbuf dlen _ client now newsock
    · split
      · exact errsendNone_makes ds .unknownId (by decide) empty_short nothing
      · split
        · exact errsendNone_makes ds .unknownId (by decide) empty_short nothing
        · split
          · exact ⟨by simp, nothing⟩
          · exact ⟨by simp, nothing⟩
  | some s =>
    have kept := kept s rfl
    split
    · exact resend_makes ds now kept
    · split
      · dsimp only
        unfold opDataProc
        split
        · exact errsend_makes ds .illegalOpe (by decide) empty_short (.inl rfl) kept
        · split
          · exact resend_makes ds now kept
          · split
            · exact storeBlock_makes ds _ dlen now kept
            · exact errsend_makes ds .illegalOpe (by decide) empty_short (.inl rfl) kept
      · split
        · dsimp only
          unfold opAckProc
          split
          · exact errsend_makes ds .illegalOpe (by decide) empty_short (.inl rfl) kept
          · split
            · exact resend_makes ds now kept
            · split
              · exact nextData_makes ds now kept
              · exact ⟨by simp, nothing⟩
        · split
          · refine ⟨by simp [opErrorProc], ?_⟩
            rintro _ (same | same) <;> cases same
            exact kept
          · exact ⟨by simp, nothing⟩

/-! ## Every message of a run -/

/-- What the server keeps may be sent. -/
structure Keeping (stack : Bytes) (st : Server) : Prop where
  msg : Sendable stack st.msg
  lastmsgs : ∀ s ∈ st.seshead, Sendable stack s.lastmsg

/-- A datagram keeps the last messages and `sinfo` sendable, and sends nothing else. -/
theorem Keeping.recv {st : Server} (keeping : Keeping stack st) (d : Datagram) :
    Keeping stack (recv host st d).1 ∧ ∀ m ∈ (recv host st d).2, Sendable stack m.msg := by
  cases named : host.client d.src with
  | none =>
    rw [recv_ignored named]
    exact ⟨⟨keeping.msg, keeping.lastmsgs⟩, by simp⟩
  | some c =>
    have makes : Makes stack (st.proc host d c) := by
      apply tftpProc_makes
      intro s found
      exact keeping.lastmsgs s (session_mem found)
    rw [recv_eq named]
    generalize st.proc host d c = p at makes
    have msg : Sendable stack (p.fill.getD st.msg) := by
      cases fill : p.fill with
      | none => exact keeping.msg
      | some msg => exact makes.fill msg fill
    refine ⟨⟨msg, ?_⟩, ?_⟩
    · intro s member
      cases edit : p.edit with
      | keep =>
        dsimp only at member
        rw [edit] at member
        exact keeping.lastmsgs s member
      | update s' =>
        dsimp only at member
        rw [edit] at member
        rcases Keyed.mem_of_mem_store Session.key member with rfl | old
        · exact makes.kept s (.inl edit)
        · exact keeping.lastmsgs s old
      | insert s' =>
        dsimp only at member
        rw [edit] at member
        rcases List.mem_cons.mp member with rfl | old
        · exact makes.kept s (.inr edit)
        · exact keeping.lastmsgs s old
    · intro m member
      rw [replyOf_msg member]
      exact msg

/-- A tick sends last messages and changes none of them. -/
theorem Keeping.tick {st : Server} (keeping : Keeping stack st) (inv : WellFormed vol st) (t : Tick) :
    Keeping stack (endIteration st t).1 ∧ ∀ m ∈ (endIteration st t).2, Sendable stack m.msg := by
  refine ⟨⟨keeping.msg, ?_⟩, ?_⟩
  · intro s' member
    rw [endIteration_rounds t inv] at member
    obtain ⟨s, old, round⟩ := List.mem_filterMap.mp member
    have same : s'.lastmsg = s.lastmsg := by
      rw [round_some round, Session.timed]
      split
      · rfl
      · split <;> rfl
    rw [same]
    exact keeping.lastmsgs s old
  · intro m member
    obtain ⟨s, old, _, msg, _⟩ := (resendAllsession_steps t st.seshead
      { st.ads with faults := t.faults, trace := [] } t.addr sockaddrStorage).2.2.2.2.2 m member
    rw [msg]
    exact keeping.lastmsgs s old

/-- So does every step of the service. -/
theorem Keeping.serve {st : Server} (keeping : Keeping stack st) (inv : WellFormed host.toVolume st)
    (e : Event) :
    Keeping stack (step host st e) ∧ ∀ m ∈ outputs host st e, Sendable stack m.msg := by
  cases e with
  | datagram d => exact keeping.recv d
  | tick t => exact keeping.tick inv t

/-- At the start there is no session, and `sinfo` has what the stack held. -/
theorem Initial.keeping {start : Server} (initial : Initial start) : Keeping start.msg start := by
  refine ⟨.inr (.inr rfl), ?_⟩
  rw [initial.1]
  intro s impossible
  cases impossible

/-- Everything that is sent in a run can be sent.

Proof: every step keeps the last messages and `sinfo` sendable, and sends nothing but these. -/
theorem sent_sendable {start : Server} {events : List Event} (initial : Initial start)
    (admitted : Runs.Admits (step host) Admissible start events) :
    ∀ m ∈ Runs.outs (step host) (outputs host) start events, Sendable start.msg m.msg :=
  admitted.outs_all (fun st => WellFormed host.toVolume st ∧ Keeping start.msg st)
    ⟨initial.wellFormed, initial.keeping⟩
    (fun _ e inv may => ⟨inv.1.step may, (inv.2.serve inv.1 e).1⟩)
    (fun _ e inv _ => (inv.2.serve inv.1 e).2)

/-- Every message of every run is one that the parsers of its format take, or empty, or what the
stack held.

Proof: the last messages and `sinfo` are sendable in every state, and a step sends nothing but
these. -/
theorem sent_formatted {start : Server} {events : List Event} (initial : Initial start)
    (admitted : Runs.Admits (step host) Admissible start events) :
    ∀ m ∈ Runs.outs (step host) (outputs host) start events,
      m.msg = [] ∨ m.msg = start.msg ∨
        m.msg.length ≤ tftpMsglenMax ∧ ((parseTftpdata m.msg m.msg.length).isSome ∨
          (parseTftpack m.msg m.msg.length).isSome ∨ (parseTftperror m.msg m.msg.length).isSome) := by
  intro m member
  rcases sent_sendable initial admitted m member with formatted | empty | stack
  · exact .inr (.inr ⟨formatted.fits, formatted.parsed⟩)
  · exact .inl empty
  · exact .inr (.inl stack)

/-! ## How much is sent -/

open Runs (total)

/-- The retries that a session has left. -/
def Session.spare (s : Session) : Nat := resendCountmax - s.retrycount

/-- The retries that all sessions have left. -/
def Server.spare (st : Server) : Nat := total Session.spare st.seshead

/-- What an event is worth when a datagram is worth `n`. -/
def Event.worth (n : Nat) : Event → Nat
  | .datagram _ => n
  | .tick _ => 0

/-- The datagrams among the events. -/
def arrived (events : List Event) : Nat := total (Event.worth 1) events

/-- Every datagram is worth the same. -/
theorem total_worth (n : Nat) (events : List Event) : total (Event.worth n) events = n * arrived events := by
  induction events with
  | nil => rfl
  | cons e rest inductionHypothesis =>
    have here : arrived (e :: rest) = e.worth 1 + arrived rest := Runs.total_cons _ e rest
    rw [Runs.total_cons, inductionHypothesis, here, Nat.mul_add]
    cases e <;> simp [Event.worth]

/-- The messages of the timer. -/
def timerOutputs (host : Host) (st : Server) : Event → List Sent
  | .datagram _ => []
  | .tick t => outputs host st (.tick t)

/-- A session has at most as many retries left as a new one. -/
theorem spare_le (s : Session) : s.spare ≤ resendCountmax := Nat.sub_le _ _

/-- Storing a session adds at most its own retries to those that are left. -/
theorem total_store (s : Session) (head : List Session) :
    total Session.spare (Keyed.store Session.key s head) ≤ total Session.spare head + s.spare := by
  induction head with
  | nil => simp [Keyed.store]
  | cons t rest inductionHypothesis =>
    rw [Keyed.store]
    split
    · rw [Runs.total_cons, Runs.total_cons]
      omega
    · rw [Runs.total_cons, Runs.total_cons]
      omega

/-- A datagram has at most one reply and gives at most three retries to one session. -/
theorem recv_spare (st : Server) (d : Datagram) :
    (recv host st d).2.length ≤ 1 ∧ (recv host st d).1.spare ≤ st.spare + resendCountmax := by
  cases named : host.client d.src with
  | none =>
    rw [recv_ignored named]
    exact ⟨Nat.zero_le _, Nat.le_add_right _ _⟩
  | some c =>
    rw [recv_eq named]
    generalize st.proc host d c = p
    constructor
    · unfold replyOf
      split
      · exact Nat.zero_le _
      · split
        · split
          · exact Nat.zero_le _
          · exact Nat.le_refl _
        · exact Nat.le_refl _
    · rw [Server.spare, Server.spare]
      dsimp only
      cases p.edit with
      | keep => exact Nat.le_add_right _ _
      | update s => exact (total_store s st.seshead).trans (Nat.add_le_add_left (spare_le s) _)
      | insert s =>
        show total Session.spare (s :: st.seshead) ≤ _
        have bound := spare_le s
        rw [Runs.total_cons]
        omega

/-- Every message of the timer uses up a retry. -/
theorem timed_spare (t : Tick) (head : List Session) :
    (head.filter (fun s => s.Due t)).length + total Session.spare (head.map (Session.timed t)) ≤
      total Session.spare head := by
  induction head with
  | nil => exact Nat.le_refl _
  | cons s rest inductionHypothesis =>
    rw [List.map_cons, Runs.total_cons, Runs.total_cons]
    by_cases due : s.Due t
    · have left : s.retrycount < resendCountmax := due.2.2.1
      have used : (s.timed t).spare + 1 = s.spare := by
        rw [Session.timed, if_pos due, Session.spare, Session.spare]
        dsimp only
        omega
      rw [List.filter_cons_of_pos (by simpa using due), List.length_cons]
      omega
    · have same : (s.timed t).spare = s.spare := by
        rw [Session.timed, if_neg due]
        split <;> rfl
      rw [List.filter_cons_of_neg (by simpa using due), same]
      omega

/-- Every message of the timer costs one of the retries that are left. -/
theorem tick_spare {st : Server} (inv : WellFormed vol st) (t : Tick) :
    (endIteration st t).2.length + (endIteration st t).1.spare ≤ st.spare := by
  obtain ⟨list, sent⟩ := resendAllsession_map t st.seshead
    { st.ads with faults := t.faults, trace := [] } t.addr sockaddrStorage
  have count : (endIteration st t).2.length = (st.seshead.filter (fun s => s.Due t)).length := by
    have lengths := congrArg List.length sent
    rw [List.length_map, List.length_map] at lengths
    exact lengths
  have fewer : (endIteration st t).1.spare ≤ total Session.spare (st.seshead.map (Session.timed t)) := by
    have pairs := (resendAllsession_steps t st.seshead
      { st.ads with faults := t.faults, trace := [] } t.addr sockaddrStorage).1
    have cleaned : (endIteration st t).1.seshead = _ :=
      cleanupSession_eq (forall₂_keys pairs ▸ inv.clients)
    rw [Server.spare, cleaned, list]
    exact Runs.total_sublist Session.spare List.filter_sublist
  rw [count]
  exact (Nat.add_le_add_left fewer _).trans (timed_spare t st.seshead)

/-- What a step sends is paid for by the datagram or by retries. -/
theorem serve_spare {st : Server} (inv : WellFormed host.toVolume st) (e : Event) :
    (outputs host st e).length + (step host st e).spare ≤ st.spare + e.worth (resendCountmax + 1) ∧
      (timerOutputs host st e).length + (step host st e).spare ≤
        st.spare + e.worth resendCountmax := by
  cases e with
  | datagram d =>
    obtain ⟨one, spare⟩ : (recv host st d).2.length ≤ 1 ∧ (recv host st d).1.spare ≤ st.spare + resendCountmax :=
      recv_spare st d
    have reply : (outputs host st (.datagram d)).length ≤ 1 := one
    have after : (step host st (.datagram d)).spare ≤ st.spare + resendCountmax := spare
    simp only [Event.worth, timerOutputs, List.length_nil]
    omega
  | tick t =>
    have paid : (outputs host st (.tick t)).length + (step host st (.tick t)).spare ≤ st.spare :=
      tick_spare inv t
    exact ⟨paid, paid⟩

section Bounds

variable {start : Server} {events : List Event} (initial : Initial start)
  (admitted : Runs.Admits (step host) Admissible start events)

include initial in

/-- At the start nobody has retries left. -/
theorem initial_spare : start.spare = 0 := by
  rw [Server.spare, initial.1]
  rfl

include initial admitted in
/-- A run sends at most four messages for every datagram that arrives, the timer at most three of
them; with a `sinfo` that held a length within its buffer, 2064 bytes.

Proof: every session has retries left that pay for the messages of the timer, and only a datagram
gives it new ones; so the messages are paid for by the datagrams. -/
theorem sends_bounded :
    (Runs.outs (step host) (outputs host) start events).length ≤ 4 * arrived events ∧
      (Runs.outs (step host) (timerOutputs host) start events).length ≤ 3 * arrived events ∧
      (start.msg.length ≤ tftpMsglenMax →
        total (fun m => m.msg.length) (Runs.outs (step host) (outputs host) start events) ≤
          4 * tftpMsglenMax * arrived events) := by
  have all := admitted.amortized (outputs host) (WellFormed host.toVolume) (fun _ => 1)
    Server.spare (Event.worth (resendCountmax + 1)) initial.wellFormed (fun _ _ inv may => inv.step may)
    (by
      intro st e inv _
      rw [Runs.total_const, Nat.one_mul]
      exact (serve_spare inv e).1)
  have timer := admitted.amortized (timerOutputs host) (WellFormed host.toVolume) (fun _ => 1)
    Server.spare (Event.worth resendCountmax) initial.wellFormed (fun _ _ inv may => inv.step may)
    (by
      intro st e inv _
      rw [Runs.total_const, Nat.one_mul]
      exact (serve_spare inv e).2)
  rw [Runs.total_const, total_worth, initial_spare initial, Nat.zero_add, Nat.one_mul] at all timer
  have few : (Runs.outs (step host) (outputs host) start events).length ≤ 4 * arrived events :=
    (Nat.le_add_right _ _).trans all
  refine ⟨few, (Nat.le_add_right _ _).trans timer, ?_⟩
  intro short
  have each := Runs.total_le_length (fun m : Sent => m.msg.length)
    fun m member => (sent_sendable initial admitted m member).fits short
  calc total (fun m => m.msg.length) (Runs.outs (step host) (outputs host) start events)
      ≤ tftpMsglenMax * (Runs.outs (step host) (outputs host) start events).length := each
    _ ≤ tftpMsglenMax * (4 * arrived events) := Nat.mul_le_mul_left _ few
    _ = 4 * tftpMsglenMax * arrived events := by rw [← Nat.mul_assoc, Nat.mul_comm tftpMsglenMax 4]

end Bounds

/-- A write request that nobody follows up. -/
def forsaken : List Event :=
  [.datagram (arrival [7] (reqMsg opWrq [102] .octet) (some 5)), .tick (tickAt 11), .tick (tickAt 22),
    .tick (tickAt 33)]

/-- The run is one of the service. -/
theorem forsaken_admits :
    Runs.Admits (step smallHost) Admissible (startOn fun _ => .absent) forsaken :=
  ⟨admissible_first rfl rfl (by decide), trivial, trivial, trivial, trivial⟩

/-- The bound is met. -/
example : (Runs.outs (step smallHost) (outputs smallHost) (startOn fun _ => .absent) forsaken).length =
    4 * arrived forsaken := by rfl

/-- The messages of that run, those of the timer included. -/
theorem sent_formatted_sample :
    (Runs.outs (step smallHost) (outputs smallHost) (startOn fun _ => .absent) forsaken).Forall fun m =>
      m.msg = [] ∨ m.msg = (startOn fun _ => .absent).msg ∨
        m.msg.length ≤ tftpMsglenMax ∧ ((parseTftpdata m.msg m.msg.length).isSome ∨
          (parseTftpack m.msg m.msg.length).isSome ∨ (parseTftperror m.msg m.msg.length).isSome) :=
  List.forall_iff_forall_mem.mpr (sent_formatted (startOn_initial fun _ => .absent) forsaken_admits)

/-- The run has one datagram, and four messages at most. -/
theorem sends_bounded_sample :
    (Runs.outs (step smallHost) (outputs smallHost) (startOn fun _ => .absent) forsaken).length ≤
      4 * arrived forsaken :=
  (sends_bounded (startOn_initial fun _ => .absent) forsaken_admits).1

end Iwtftpd
