import Iwtftpd.Download
import Iwtftpd.Encoding
import Iwtftpd.Undoing

/-!
# Answers to requests

The branch for requests looks at one thing first: whether the client has a
session. While it has one, whatever became of that transfer, a request is taken
for a repetition and the last message is sent again. Once the session is gone,
a request is answered by the first message of its own transfer or by ERROR.
-/

namespace Iwtftpd

variable {host : Host} {vol : Volume}

/-- A request of the client as the protocol lays it out, with any name and any mode. -/
structure Asks (host : Host) (c : Client) (opcode : UInt16) (filename modename : Bytes)
    (d : Datagram) : Prop where
  named : host.client d.src = some c
  request : opcode = opRrq ∨ opcode = opWrq
  bytes : d.bytes = be16 opcode ++ filename ++ [0] ++ modename ++ [0]
  freeName : (0 : UInt8) ∉ filename
  freeMode : (0 : UInt8) ∉ modename

/-- The first message of the transfer that was asked for, or ERROR. -/
def Serves (vol : Volume) (disk : Bytes → FileNode) (opcode : UInt16) (filename modename msg : Bytes) :
    Prop :=
  opcodeOf msg = opError ∨
    (opcode = opRrq ∧ ∃ (mode : TftpMode) (content : Bytes), mode.name = modename ∧
      disk (vol.node filename) = .regular content ∧
      msg = dataMsg 1 ((mode.encode content).take tftpDatalenMax)) ∨
    (opcode = opWrq ∧ msg = ackMsg 0)

/-- Under the new descriptor and the file's name no stream is left that a read would continue,
unless from the beginning of the file. -/
def Unread (vol : Volume) (st : Server) (d : Datagram) (filename : Bytes) : Prop :=
  ∀ fd n content, d.newsock = some fd → st.ads.at (fd, filename) = some n →
    st.ads.disk (vol.node filename) = .regular content → n.fp.mode = .write ∨ n.fp.AtStart content

/-- Sending the last message again, while there are retries left. -/
def retransmission (s : Session) (d : Datagram) : List Sent :=
  if s.disabled = true ∨ resendCountmax ≤ s.retrycount then []
  else [{ sock := s.clsock, dest := d.src, msg := s.lastmsg, ses := some s.key }]

/-! ## Without a session -/

/-- A new session has the whole file to deliver, or cannot read it. -/
theorem newSession_delivering {st : Server} {d : Datagram} {c : Client} {req : TftpReq} {fd : Int}
    {content msg : Bytes} (inv : Consistent vol (st.receive d).ads)
    (unread : Unread vol st d req.filename) (socket : d.newsock = some fd)
    (file : st.ads.disk (vol.node req.filename) = .regular content)
    (made : (makeTftpdataMsg vol (newSession c req fd) (st.receive d).ads tftpMsglenMax d.now).1 =
      some msg) : Delivering vol content (newSession c req fd) (st.receive d).ads content := by
  have fits := newSession_fits c req fd
  have none : (newSession c req fd).unread = [] := List.take_zero
  have start : ((newSession c req fd).reader vol (st.receive d).ads).fp.AtStart content := by
    rw [Session.reader]
    cases found : (st.receive d).ads.at (newSession c req fd).dkey with
    | none => exact ⟨rfl, rfl⟩
    | some n =>
      apply (unread fd n content socket found file).resolve_left
      intro mode
      rw [(makeTftpdataMsg_writer (newSession c req fd) d.now inv rfl found mode).1] at made
      cases made
  refine ⟨⟨fits, Nat.zero_le _, start.1, ?_⟩, (by rintro ⟨⟩)⟩
  rw [none, List.nil_append]
  exact start.2.symm

/-- A request of a client without a session is answered. -/
theorem fresh_answered {st : Server} {d : Datagram} {c : Client} {opcode : UInt16}
    {filename modename : Bytes} (inv : WellFormed host.toVolume st)
    (asks : Asks host c opcode filename modename d) (fresh : getSession st.seshead c = none)
    (unread : opcode = opRrq → Unread host.toVolume st d filename) :
    ∃ m, (recv host st d).2 = [m] ∧
      Serves host.toVolume st.ads.disk opcode filename modename m.msg := by
  have named := asks.named
  have received : Consistent host.toVolume (st.receive d).ads := inv.ads.congr rfl rfl
  have buffer : (st.receive d).rbuf = (be16 opcode ++ filename ++ [0] ++ modename ++ [0]).take nwbufSize ++
      st.rbuf.drop d.bytes.length := by
    rw [receive_rbuf_eq, Datagram.delivered, asks.bytes]
  have number : ofBe16 (st.receive d).rbuf = opcode := by
    rw [buffer]
    exact ofBe16_be16 opcode _
  -- An answer without a session goes out on the socket of the datagram.
  have error {edit : Edit} (ecode : TftpErrorcode) {emsg : Bytes}
      (short : emsg.length < tftpEmsglenMax)
      (call : st.proc host d c = errsendNone edit (st.receive d).ads ecode emsg) :
      ∃ m, (recv host st d).2 = [m] ∧
        Serves host.toVolume st.ads.disk opcode filename modename m.msg := by
    rw [recv_eq named, call, errsendNone_eq edit _ ecode short]
    exact ⟨_, rfl, .inl (opcodeOf_errorMsg _ _)⟩
  by_cases accepted : Accepted host st d
  · obtain ⟨req, parsed, call⟩ := proc_accepted fresh accepted
    obtain ⟨req', parsed', kind⟩ := accepted
    obtain rfl := Option.some.inj (parsed.symm.trans parsed')
    rw [number] at call kind
    rw [buffer] at parsed
    obtain ⟨rfl, rfl⟩ := parseTftpreq_meant asks.freeName asks.freeMode (by decide) parsed
    cases newsock : d.newsock with
    | none =>
      rw [newsock] at call
      exact error .seeMsg serverError_short call
    | some fd =>
      rw [newsock] at call
      dsimp only at call
      obtain ⟨s, linked⟩ := startTransfer_linked host.toVolume c req fd (st.receive d).ads opcode d.now
      rw [← call] at linked
      have reply : (recv host st d).2 =
          [{ sock := s.clsock, dest := d.src, msg := (st.proc host d c).fill.getD st.msg,
             ses := some s.key }] := by
        rw [recv_eq named]
        dsimp only
        rw [replyOf, linked.ok, linked.pointer]
        simp [linked.enabled]
      refine ⟨_, reply, ?_⟩
      dsimp only
      obtain ⟨rfl, content, file⟩ | ⟨rfl, _⟩ := kind
      · rw [startTransfer_rrq] at call
        rw [call]
        dsimp only
        rw [Option.getD_some]
        cases made : (makeTftpdataMsg host.toVolume (newSession c req fd) (st.receive d).ads
            tftpMsglenMax d.now).1 with
        | none => exact .inl (opcodeOf_errorMsg _ _)
        | some msg =>
          have delivering := newSession_delivering received (unread rfl) newsock file made
          have block := (delivering.makeTftpdataMsg received file made).1
          exact .inr (.inl ⟨rfl, req.mode, content, rfl, file, block⟩)
      · rw [startTransfer_wrq] at call
        rw [call]
        exact .inr (.inr ⟨rfl, rfl⟩)
  · have request : ofBe16 (st.receive d).rbuf = opRrq ∨ ofBe16 (st.receive d).rbuf = opWrq := by
      rw [number]
      exact asks.request
    obtain ⟨ecode, call⟩ := proc_denied fresh accepted request
    exact error ecode empty_short call

/-! ## With a session -/

/-- A request of a client with a session has its last message sent again, and leaves the transfer
where it is. -/
theorem request_resent {st : Server} {d : Datagram} {c : Client} {s : Session}
    (named : host.client d.src = some c) (found : getSession st.seshead c = some s)
    (request : ofBe16 (st.receive d).rbuf = opRrq ∨ ofBe16 (st.receive d).rbuf = opWrq) :
    (recv host st d).2 = retransmission s d ∧
      ∃ sending count off, getSession (recv host st d).1.seshead c =
        some { s with lastsending := sending, retrycount := count, disabled := off } := by
  have move : st.move d s = .resend := by
    rw [Server.move, Session.move]
    exact if_pos request
  have call : st.proc host d c = resend s (st.receive d).ads d.now := by
    rw [proc_move found, move]
    rfl
  have after := getSession_recv named found
  have sends : (recv host st d).2 = replyOf (st.proc host d c) d ((st.proc host d c).fill.getD st.msg) := by
    rw [recv_eq named]
  rw [call] at after sends
  rw [sends, after, resend, retransmission]
  by_cases left : s.retrycount < resendCountmax
  · rw [if_pos left]
    refine ⟨?_, d.now, s.retrycount + 1, s.disabled, rfl⟩
    cases enabled : s.disabled with
    | true =>
      rw [if_pos (.inl rfl), replyOf]
      simp
    | false =>
      have live : ¬ (false = true ∨ resendCountmax ≤ s.retrycount) := by
        rintro (off | spent)
        · cases off
        · exact absurd left (Nat.not_lt_of_le spent)
      rw [if_neg live, replyOf]
      simp [Session.key]
  · rw [if_neg left, if_pos (.inr (Nat.le_of_not_lt left))]
    exact ⟨rfl, s.lastsending, s.retrycount, true, rfl⟩

/-- A request is answered for itself once the client has no session any more; until then it has
the last message of the session sent again.

Proof: with a session the request takes the jump to `resend`. Without one it goes through the
branches of `OP_RRQ` and `OP_WRQ`, and the parser reads what the client wrote. -/
theorem request_answered {st : Server} {d : Datagram} {c : Client} {opcode : UInt16}
    {filename modename : Bytes} (reachable : Reachable host st)
    (asks : Asks host c opcode filename modename d)
    (unread : opcode = opRrq → Unread host.toVolume st d filename) :
    (getSession st.seshead c = none →
      ∃ m, (recv host st d).2 = [m] ∧
        Serves host.toVolume st.ads.disk opcode filename modename m.msg) ∧
    ∀ s, getSession st.seshead c = some s →
      (recv host st d).2 = retransmission s d ∧
        ∃ sending count off, getSession (recv host st d).1.seshead c =
          some { s with lastsending := sending, retrycount := count, disabled := off } := by
  constructor
  · intro fresh
    exact fresh_answered reachable.wellFormed asks fresh unread
  · intro s found
    apply request_resent asks.named found
    have number : ofBe16 (st.receive d).rbuf = opcode := by
      rw [receive_rbuf_eq, Datagram.delivered, asks.bytes]
      exact ofBe16_be16 opcode _
    rw [number]
    exact asks.request

/-- A client asks to upload a file. -/
def askUpload : Datagram := arrival [1] (reqMsg opWrq [103] .octet) (some 6)

/-- A server that has just sent a file of two bytes to the client. -/
def briefServed : Server :=
  step smallHost (startOn (diskWith [102] [7, 8]))
    (.datagram (arrival [1] (reqMsg opRrq [102] .octet) (some 5)))

theorem briefServed_reachable : Reachable smallHost briefServed :=
  (startOn_reachable smallHost _).step (admissible_first rfl rfl (by decide))

theorem askUpload_asks : Asks smallHost ([1], 2000) opWrq [103] TftpMode.octet.name askUpload :=
  ⟨rfl, .inr rfl, rfl, by decide, by decide⟩

theorem request_answered_sample :
    (getSession briefServed.seshead ([1], 2000) = none →
      ∃ m, (recv smallHost briefServed askUpload).2 = [m] ∧
        Serves smallHost.toVolume briefServed.ads.disk opWrq [103] TftpMode.octet.name m.msg) ∧
    ∀ s, getSession briefServed.seshead ([1], 2000) = some s →
      (recv smallHost briefServed askUpload).2 = retransmission s askUpload ∧
        ∃ sending count off, getSession (recv smallHost briefServed askUpload).1.seshead ([1], 2000) =
          some { s with lastsending := sending, retrycount := count, disabled := off } :=
  request_answered briefServed_reachable askUpload_asks nofun

/-- The client is sent the DATA of the file it has got already. -/
theorem requests_not_answered :
    ∃ st d c opcode filename modename s, Reachable smallHost st ∧ Admissible st (.datagram d) ∧
      Asks smallHost c opcode filename modename d ∧ getSession st.seshead c = some s ∧
      s.fin = true ∧ s.filename ≠ filename ∧
      ∃ m ∈ (recv smallHost st d).2, m.msg = s.lastmsg ∧
        ¬ Serves smallHost.toVolume st.ads.disk opcode filename modename m.msg := by
  have apart : ∀ s ∈ briefServed.seshead, s.clsock ≠ 6 := by decide +kernel
  have holds : (getSession briefServed.seshead ([1], 2000)).map
      (fun s => (s.fin, s.filename, s.lastmsg)) = some (true, [102], dataMsg 1 [7, 8]) := by
    decide +kernel
  have sends : (recv smallHost briefServed askUpload).2.map Sent.msg = [dataMsg 1 [7, 8]] := by
    decide +kernel
  obtain ⟨s, found, fields⟩ := Option.map_eq_some_iff.mp holds
  obtain ⟨m, sent, msg⟩ := List.map_eq_singleton_iff.mp sends
  obtain ⟨fin, filename, last⟩ : s.fin = true ∧ s.filename = [102] ∧ s.lastmsg = dataMsg 1 [7, 8] := by
    simpa using fields
  have admissible : Admissible briefServed (.datagram askUpload) := by
    rintro fd ⟨⟩
    exact ⟨by decide, apart⟩
  refine ⟨briefServed, askUpload, ([1], 2000), opWrq, [103], TftpMode.octet.name, s,
    briefServed_reachable, admissible, askUpload_asks, found, fin, ?_, m, ?_, ?_, ?_⟩
  · rw [filename]
    decide
  · rw [sent]
    exact List.mem_singleton_self m
  · rw [msg, last]
  · rw [msg, Serves, opcodeOf_dataMsg]
    rintro (error | ⟨rrq, _⟩ | ⟨_, ack⟩)
    · exact absurd error (by decide)
    · exact absurd rrq (by decide)
    · exact absurd ack (by decide)

end Iwtftpd
