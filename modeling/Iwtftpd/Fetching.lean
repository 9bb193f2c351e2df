import Iwtftpd.Addresses
import Iwtftpd.Answering
import Iwtftpd.Readable
import Iwtftpd.StaleReplies

/-!
# Serving clients that only download

A client that downloads sends two things: its request, and ACK of a block. For
such a client an enabled session either has no socket, and then nothing moves
it, or holds the file from the block that it waits on. Whatever it sends is
DATA of the right block under the right number, or no DATA at all, except where
`tftp_proc` leaves in `sinfo` what another session put there, where a stream was
left behind under the new descriptor, and where the timer cuts an address off.
-/

namespace Iwtftpd

variable {host : Host} {vol : Volume}

/-- What a client is after, and the address it asks from. -/
structure Job where
  src : SockAddr
  filename : Bytes
  mode : TftpMode

def Job.request (job : Job) : Bytes := reqMsg opRrq job.filename job.mode

/-- The messages of a client: its request, and ACK of a block. -/
def Job.Sends (job : Job) (bytes : Bytes) : Prop :=
  bytes = job.request ∨ ∃ i, 0 < i ∧ i < 65535 ∧ bytes = ackMsg (UInt16.ofNat i)

/-- DATA of a block of the file, as the mode has it sent. -/
def Job.Piece (vol : Volume) (disk : Bytes → FileNode) (job : Job) (msg : Bytes) : Prop :=
  ∃ content i, disk (vol.node job.filename) = .regular content ∧
    i ≤ (job.mode.encode content).length / tftpDatalenMax ∧
    msg = dataMsg (UInt16.ofNat (i + 1))
      (Blocks.block tftpDatalenMax (job.mode.encode content) i)

/-- What may be sent to the client: DATA is a block of its file. -/
def Job.Fine (vol : Volume) (disk : Bytes → FileNode) (job : Job) (msg : Bytes) : Prop :=
  opcodeOf msg = opData → job.Piece vol disk msg

/-- The session holds the file from the block that it waits on. -/
def Job.Holds (vol : Volume) (job : Job) (s : Session) (ads : IWDS) : Prop :=
  ∃ content rest i, ads.disk (vol.node job.filename) = .regular content ∧
    tftpDatalenMax * i ≤ (job.mode.encode content).length ∧ s.blknum = UInt16.ofNat i ∧
    Delivering vol content s ads rest ∧
    s.pending rest = (job.mode.encode content).drop (tftpDatalenMax * i)

/-- A session that serves the client. Without a socket it waits on block 0 for ever. -/
structure Ready (vol : Volume) (job : Job) (s : Session) (ads : IWDS) : Prop where
  mode : s.tftpmode = job.mode
  name : s.filename = job.filename
  last : job.Fine vol ads.disk s.lastmsg
  idle : s.clsock < 0 → s.blknum = 0
  holds : 0 ≤ s.clsock → s.fin = false → job.Holds vol s ads

/-- What concerns the session is as it was. -/
theorem Ready.congr {job : Job} {s s' : Session} {ads ads' : IWDS} (ready : Ready vol job s ads)
    (ident : s'.ident = s.ident) (lastmsg : s'.lastmsg = s.lastmsg) (blknum : s'.blknum = s.blknum)
    (sesbuf : s'.sesbuf = s.sesbuf) (fin : s'.fin = false → s.fin = false)
    (disk : ads'.disk = ads.disk) (node : 0 ≤ s.clsock → ads'.at s.dkey = ads.at s.dkey) :
    Ready vol job s' ads' where
  mode := (mode_of_ident ident).trans ready.mode
  name := (filename_of_ident ident).trans ready.name
  last := by
    rw [lastmsg, disk]
    exact ready.last
  idle := by
    rw [clsock_of_ident ident, blknum]
    exact ready.idle
  holds := by
    rw [clsock_of_ident ident]
    intro socket running
    obtain ⟨content, rest, i, file, within, number, delivering, pending⟩ :=
      ready.holds socket (fin running)
    refine ⟨content, rest, i, ?_, within, blknum.trans number,
      delivering.congr sesbuf ident (node socket), ?_⟩
    · rw [disk]
      exact file
    · rw [pending_congr rest sesbuf ident]
      exact pending

/-- Whether a block that was made is the last one. -/
theorem makeTftpdataMsg_ended {s : Session} {ads : IWDS} {now : Int} {blk : UInt16} {data : Bytes}
    (made : (makeTftpdataMsg vol s ads tftpMsglenMax now).1 = some (dataMsg blk data)) :
    (makeTftpdataMsg vol s ads tftpMsglenMax now).2.1.fin =
      (s.fin || decide (data.length < tftpDatalenMax)) := by
  have only := (getSessionData_steps vol { s with blknum := nextBlk s.blknum } ads tftpDatalenMax).2.1
  rw [makeTftpdataMsg, if_neg (Nat.lt_irrefl _)] at made ⊢
  dsimp only at made ⊢
  generalize getSessionData vol { s with blknum := nextBlk s.blknum } ads tftpDatalenMax = r
    at made only ⊢
  cases status : r.status with
  | done =>
    rw [status] at made
    have payload : r.out = data := congrArg (List.drop 4) (Option.some.inj made)
    dsimp only
    rw [(finIfShort_steps vol r.ses r.ds r.out).2, payload]
    exact congrArg (· || _) only.fin
  | err | running =>
    rw [status] at made
    cases made

/-- A session that holds the file from some block makes that block, if it makes one. -/
theorem Job.Holds.make {job : Job} {s : Session} {ads : IWDS} {now : Int} {msg : Bytes}
    (holds : job.Holds vol s ads) (mode : s.tftpmode = job.mode) (name : s.filename = job.filename)
    (socket : 0 ≤ s.clsock) (inv : Consistent vol ads)
    (made : (makeTftpdataMsg vol s ads tftpMsglenMax now).1 = some msg) :
    job.Piece vol ads.disk msg ∧
      Ready vol job (makeTftpdataMsg vol s ads tftpMsglenMax now).2.1
        (makeTftpdataMsg vol s ads tftpMsglenMax now).2.2 := by
  obtain ⟨content, rest, i, file, within, number, delivering, pending⟩ := holds
  have block := delivering.makeTftpdataMsg inv (name ▸ file) made
  have disk := makeTftpdataMsg_disk s tftpMsglenMax now inv
  have ident := (makeTftpdataMsg_steps vol s ads tftpMsglenMax now).2.1
  have lastmsg := (makeTftpdataMsg_made made).2.1
  obtain ⟨rfl, next⟩ := block
  have ended := makeTftpdataMsg_ended made
  obtain ⟨_, _, _, blknum⟩ := makeTftpdataMsg_data made
  generalize makeTftpdataMsg vol s ads tftpMsglenMax now = r at *
  have inside : i ≤ (job.mode.encode content).length / tftpDatalenMax := by
    apply (Nat.le_div_iff_mul_le (by decide : 0 < tftpDatalenMax)).mpr
    rw [Nat.mul_comm]
    exact within
  have piece : job.Piece vol ads.disk
      (dataMsg (nextBlk s.blknum) ((s.pending rest).take tftpDatalenMax)) := by
    refine ⟨content, i, file, inside, ?_⟩
    rw [number, nextBlk_ofNat, pending]
    rfl
  refine ⟨piece, (mode_of_ident ident).trans mode, (filename_of_ident ident).trans name, ?_, ?_, ?_⟩
  · rw [lastmsg, disk]
    exact fun _ => piece
  · rw [clsock_of_ident ident]
    intro none
    omega
  · intro _ running
    rw [ended, Bool.or_eq_false_iff, decide_eq_false_iff_not, List.length_take] at running
    have long : ¬ (s.pending rest).length < tftpDatalenMax := by omega
    obtain ⟨rest', delivering', pending'⟩ := next.resolve_left long
    refine ⟨content, rest', i + 1, ?_, ?_, ?_, delivering', ?_⟩
    · rw [disk]
      exact file
    · rw [pending, List.length_drop] at long
      rw [Nat.mul_succ]
      omega
    · rw [blknum, number, nextBlk_ofNat]
    · rw [pending', pending, List.drop_drop, Nat.mul_succ]

/-- A block that could not be made ends the session. -/
theorem Ready.unmade {job : Job} {s : Session} {ads : IWDS} {now : Int}
    (mode : s.tftpmode = job.mode) (name : s.filename = job.filename)
    (last : job.Fine vol ads.disk s.lastmsg) (socket : 0 ≤ s.clsock) (inv : Consistent vol ads)
    (failed : (makeTftpdataMsg vol s ads tftpMsglenMax now).1 = none) :
    Ready vol job { (makeTftpdataMsg vol s ads tftpMsglenMax now).2.1 with fin := true }
      (makeTftpdataMsg vol s ads tftpMsglenMax now).2.2 := by
  have disk := makeTftpdataMsg_disk s tftpMsglenMax now inv
  rw [makeTftpdataMsg_none failed]
  refine ⟨mode, name, ?_, ?_, nofun⟩
  · rw [disk]
    exact last
  · intro none
    have none : s.clsock < 0 := none
    omega

/-! ## Datagrams of the client -/

/-- The number of a request is RRQ. -/
theorem request_opcode (st : Server) {d : Datagram} {job : Job} (bytes : d.bytes = job.request) :
    ofBe16 (st.receive d).rbuf = opRrq := by
  rw [receive_rbuf_eq, Datagram.delivered, bytes]
  exact ofBe16_be16 opRrq _

/-- What a client that downloads makes of its session. -/
theorem sends_moves (st : Server) {d : Datagram} {job : Job} (s : Session) (sends : job.Sends d.bytes) :
    st.move d s = .resend ∨ st.move d s = .pass ∨ (st.move d s = .advance ∧ s.blknum ≠ 0) := by
  obtain bytes | ⟨i, positive, below, bytes⟩ := sends
  · left
    rw [Server.move, Session.move]
    exact if_pos (.inl (request_opcode st bytes))
  · rw [move_ackMsg st s bytes]
    split
    · exact .inl rfl
    · split
      · rename_i same
        refine .inr (.inr ⟨rfl, ?_⟩)
        rw [← same]
        intro zero
        have none : i = 0 := ofNat_inj (by omega) (by decide) zero
        omega
      · exact .inr (.inl rfl)

/-- Only DATA changes files. -/
theorem run_disk {s : Session} {ads : IWDS} (dlen : Nat) (now : Int) {move : Move}
    (inv : Consistent vol ads) (reads : ∀ dat, move ≠ .store dat) :
    (move.run vol s ads dlen now).ds.disk = ads.disk := by
  cases move with
  | resend =>
    rw [Move.run, resend]
    split
    · rfl
    · exact closeData_disk _ _
  | refuse => rw [Move.run, errsend_eq .update s ads .illegalOpe empty_short]
  | store dat => exact absurd rfl (reads dat)
  | advance =>
    cases running : s.fin with
    | true => rw [Move.run, nextData, if_pos running]
    | false =>
      have disk := makeTftpdataMsg_disk s tftpMsglenMax now inv
      show (nextData vol s ads now).ds.disk = ads.disk
      obtain ⟨_, _, _, _, same⟩ | ⟨_, _, _, same⟩ := nextData_cases vol ads now running
      · rw [same, disk]
      · rw [same, disk]
  | abort => exact closeData_disk _ _
  | pass => rfl

/-- A session that is still enabled after a move is ready, and was enabled before; what was put
into the send buffer is fine. -/
theorem Ready.run {job : Job} {s : Session} {ads : IWDS} (dlen : Nat) (now : Int) {move : Move}
    (ready : Ready vol job s ads) (inv : Consistent vol ads)
    (moves : move = .resend ∨ move = .pass ∨ (move = .advance ∧ 0 ≤ s.clsock))
    (enabled : ((move.run vol s ads dlen now).after s).disabled = false) :
    Ready vol job ((move.run vol s ads dlen now).after s) (move.run vol s ads dlen now).ds ∧
      ∀ msg, (move.run vol s ads dlen now).fill = some msg → job.Fine vol ads.disk msg := by
  obtain rfl | rfl | ⟨rfl, socket⟩ := moves
  · rw [Move.run, resend] at enabled ⊢
    by_cases left : s.retrycount < resendCountmax
    · rw [if_pos left]
      refine ⟨ready.congr rfl rfl rfl rfl id rfl fun _ => rfl, ?_⟩
      rintro _ ⟨⟩
      exact ready.last
    · rw [if_neg left] at enabled
      cases enabled
  · refine ⟨ready, ?_⟩
    rintro _ ⟨⟩
  · cases running : s.fin with
    | true =>
      rw [Move.run, nextData, if_pos running] at enabled
      cases enabled
    | false =>
      show Ready vol job ((nextData vol s ads now).after s) (nextData vol s ads now).ds ∧
        ∀ msg, (nextData vol s ads now).fill = some msg → job.Fine vol ads.disk msg
      obtain ⟨msg, made, fill, after, same⟩ | ⟨failed, fill, after, same⟩ :=
        nextData_cases vol ads now running
      · obtain ⟨piece, next⟩ := (ready.holds socket running).make ready.mode ready.name socket inv made
        rw [after, same, fill]
        refine ⟨next, ?_⟩
        rintro _ ⟨⟩
        exact fun _ => piece
      · rw [after, same, fill]
        refine ⟨.unmade ready.mode ready.name ready.last socket inv failed, ?_⟩
        rintro _ ⟨⟩ data
        rw [opcodeOf_errorMsg] at data
        cases data

/-- Only a foreign ACK leaves the send buffer as it was and the session enabled. -/
theorem run_unfilled {s : Session} {ads : IWDS} (dlen : Nat) (now : Int) {move : Move}
    (moves : move = .resend ∨ move = .pass ∨ move = .advance)
    (enabled : ((move.run vol s ads dlen now).after s).disabled = false)
    (unfilled : (move.run vol s ads dlen now).fill = none) : move = .pass := by
  obtain rfl | rfl | rfl := moves
  · rw [Move.run, resend] at enabled unfilled
    split at unfilled
    · cases unfilled
    · rename_i spent
      rw [if_neg spent] at enabled
      cases enabled
  · rfl
  · cases running : s.fin with
    | true =>
      rw [Move.run, nextData, if_pos running] at enabled
      cases enabled
    | false =>
      have unfilled : (nextData vol s ads now).fill = none := unfilled
      obtain ⟨_, _, some, _⟩ | ⟨_, some, _⟩ := nextData_cases vol ads now running
      · rw [some] at unfilled
        cases unfilled
      · rw [some] at unfilled
        cases unfilled

/-- The names of the sockets that a tick sends on do not get longer, so that none is cut off to the
length of the one before. -/
def Tick.Uncut (t : Tick) (head : List Session) : Prop :=
  ((head.filter fun s => s.Due t).filterMap fun s => t.getsockname s.clsock).Pairwise
    fun before after => after.length ≤ before.length

/-- What is wrong is not met. No ACK of a foreign block finds DATA in the send buffer that is not
the session's own; no request opens a session where a stream was left behind; and the timer cuts
no address off. -/
structure Sound (host : Host) (st : Server) (e : Event) : Prop where
  own : ∀ d c s, e = .datagram d → host.client d.src = some c → getSession st.seshead c = some s →
    s.disabled = false → 0 ≤ s.clsock → st.move d s = .pass → opcodeOf st.msg = opData →
    st.msg = s.lastmsg
  unread : ∀ d c req, e = .datagram d → host.client d.src = some c →
    getSession st.seshead c = none → ofBe16 (st.receive d).rbuf = opRrq →
    parseTftpreq (st.receive d).rbuf d.len = some req → Unread host.toVolume st d req.filename
  uncut : ∀ t, e = .tick t → t.Uncut st.seshead

/-- What a datagram of the client leaves and sends. -/
structure Attended (host : Host) (job : Job) (c : Client) (st : Server) (d : Datagram) : Prop where
  ready : ∀ s, getSession (recv host st d).1.seshead c = some s → s.disabled = false →
    Ready host.toVolume job s (recv host st d).1.ads
  fine : ∀ m ∈ (recv host st d).2, 0 ≤ m.sock → job.Fine host.toVolume st.ads.disk m.msg
  disk : (recv host st d).1.ads.disk = st.ads.disk

/-- A datagram for a session. -/
theorem Attended.session {st : Server} {d : Datagram} {c : Client} {job : Job} {s : Session}
    (inv : WellFormed host.toVolume st) (named : host.client d.src = some c)
    (found : getSession st.seshead c = some s) (sends : job.Sends d.bytes)
    (ready : s.disabled = false → Ready host.toVolume job s st.ads)
    (sound : Sound host st (.datagram d)) : Attended host job c st d := by
  have received : Consistent host.toVolume (st.receive d).ads := inv.ads.congr rfl rfl
  have handled := proc_handled host d found
  have found' := getSession_recv named found
  have call : st.proc host d c = _ := proc_move found
  have moves := sends_moves st s sends
  -- A session that is enabled afterwards was enabled before.
  have before (enabled : ((st.proc host d c).after s).disabled = false) : s.disabled = false := by
    cases off : s.disabled with
    | false => rfl
    | true =>
      rw [handled.disabled off] at enabled
      cases enabled
  have runs (enabled : ((st.proc host d c).after s).disabled = false) :
      Ready host.toVolume job ((st.proc host d c).after s) (st.proc host d c).ds ∧
        ∀ msg, (st.proc host d c).fill = some msg → job.Fine host.toVolume st.ads.disk msg := by
    have here : Ready host.toVolume job s (st.receive d).ads :=
      (ready (before enabled)).congr rfl rfl rfl rfl id rfl fun _ => rfl
    have onward : st.move d s = .resend ∨ st.move d s = .pass ∨
        (st.move d s = .advance ∧ 0 ≤ s.clsock) := by
      obtain resend | pass | ⟨advance, waiting⟩ := moves
      · exact .inl resend
      · exact .inr (.inl pass)
      · refine .inr (.inr ⟨advance, ?_⟩)
        by_contra none
        exact waiting (here.idle (by omega))
    rw [call] at enabled ⊢
    exact here.run d.len d.now received onward enabled
  constructor
  · intro s' found'' enabled
    obtain rfl := Option.some.inj (found'.symm.trans found'')
    rw [recv_eq named]
    exact (runs enabled).1
  · intro m member socket
    rw [recv_eq named] at member
    dsimp only at member
    cases enabled : ((st.proc host d c).after s).disabled with
    | true =>
      rw [replyOf, handled.ok, handled.pointer] at member
      simp [enabled] at member
    | false =>
      rw [replyOf_handled d _ handled enabled, List.mem_singleton] at member
      subst member
      have off := before enabled
      cases fill : (st.proc host d c).fill with
      | some msg => exact (runs enabled).2 msg fill
      | none =>
        have clsock : ((st.proc host d c).after s).clsock = s.clsock := clsock_of_ident handled.ident
        have socket : 0 ≤ s.clsock := clsock ▸ socket
        rw [call] at fill enabled
        have pass := run_unfilled d.len d.now (moves.imp_right (Or.imp_right And.left)) enabled fill
        intro data
        have same := sound.own d c s rfl named found off socket pass data
        exact same ▸ (ready off).last (same ▸ data)
  · rw [recv_eq named]
    dsimp only
    rw [call]
    apply run_disk d.len d.now received
    rintro dat stores
    rw [stores] at moves
    obtain resend | pass | ⟨advance, _⟩ := moves
    · cases resend
    · cases pass
    · cases advance

/-! ## A client without a session -/

theorem modename_inj {left right : TftpMode} (same : left.name = right.name) : left = right := by
  cases left <;> cases right <;> first | rfl | exact absurd same (by decide)

/-- An ERROR without a session. -/
theorem Attended.denied {st : Server} {d : Datagram} {c : Client} {job : Job} {edit : Edit}
    {ecode : TftpErrorcode} {emsg : Bytes} (named : host.client d.src = some c)
    (short : emsg.length < tftpEmsglenMax)
    (call : st.proc host d c = errsendNone edit (st.receive d).ads ecode emsg)
    (ready : ∀ s, getSession (edit.apply st.seshead) c = some s → Ready host.toVolume job s st.ads) :
    Attended host job c st d := by
  have after : recv host st d = _ := recv_eq named
  rw [call, errsendNone_eq edit _ ecode short] at after
  constructor
  · intro s found _
    rw [after] at found ⊢
    exact (ready s found).congr rfl rfl rfl rfl id rfl fun _ => rfl
  · intro m member _ data
    rw [after] at member
    have error : m.msg = _ := congrArg Sent.msg (List.mem_singleton.mp member)
    rw [error] at data
    exact absurd ((opcodeOf_errorMsg _ _).symm.trans data) (by decide)
  · rw [after]
    rfl

/-- A new session holds the whole file, if it can make the first block. -/
theorem newSession_holds {st : Server} {d : Datagram} {c : Client} {job : Job} {req : TftpReq} {fd : Int}
    {content msg : Bytes} (inv : Consistent vol (st.receive d).ads)
    (unread : Unread vol st d req.filename) (socket : d.newsock = some fd)
    (file : st.ads.disk (vol.node req.filename) = .regular content)
    (name : req.filename = job.filename) (mode : req.mode = job.mode)
    (made : (makeTftpdataMsg vol (newSession c req fd) (st.receive d).ads tftpMsglenMax d.now).1 =
      some msg) : job.Holds vol (newSession c req fd) (st.receive d).ads := by
  refine ⟨content, content, 0, name ▸ file, Nat.zero_le _, rfl,
    newSession_delivering inv unread socket file made, ?_⟩
  rw [← mode]
  rfl

/-- A session with a socket is opened. -/
theorem Attended.opened {st : Server} {d : Datagram} {c : Client} {job : Job} {req : TftpReq}
    {fd : Int} {content : Bytes} (inv : WellFormed host.toVolume st)
    (named : host.client d.src = some c) (newsock : d.newsock = some fd) (socket : 0 ≤ fd)
    (unread : Unread host.toVolume st d req.filename)
    (file : st.ads.disk (host.toVolume.node req.filename) = .regular content)
    (name : req.filename = job.filename) (mode : req.mode = job.mode)
    (call : st.proc host d c = startTransfer host.toVolume (newSession c req fd) (st.receive d).ads
      opRrq d.now) : Attended host job c st d := by
  have received : Consistent host.toVolume (st.receive d).ads := inv.ads.congr rfl rfl
  have silent : job.Fine host.toVolume st.ads.disk [] := fun data => absurd data (by decide)
  rw [startTransfer_rrq] at call
  have key : (startReader host.toVolume c req fd (st.receive d).ads d.now).key = c :=
    startReader_key c req fd (st.receive d).ads d.now
  have found := getSession_opened named (by rw [call]) key
  have disk := makeTftpdataMsg_disk (newSession c req fd) tftpMsglenMax d.now received
  have after : recv host st d = _ := recv_eq named
  rw [call] at after
  have ready : Ready host.toVolume job (startReader host.toVolume c req fd (st.receive d).ads d.now)
      (makeTftpdataMsg host.toVolume (newSession c req fd) (st.receive d).ads tftpMsglenMax d.now).2.2 ∧
      job.Fine host.toVolume st.ads.disk
        ((makeTftpdataMsg host.toVolume (newSession c req fd) (st.receive d).ads tftpMsglenMax
          d.now).1.getD (errorMsg .seeMsg serverError)) := by
    rw [startReader]
    dsimp only
    cases made : (makeTftpdataMsg host.toVolume (newSession c req fd) (st.receive d).ads
        tftpMsglenMax d.now).1 with
    | none =>
      rw [if_pos rfl]
      refine ⟨.unmade mode name silent socket received made, fun data => ?_⟩
      exact absurd ((opcodeOf_errorMsg _ _).symm.trans data) (by decide)
    | some msg =>
      have holds := newSession_holds received unread newsock file name mode made
      obtain ⟨piece, next⟩ := holds.make mode name socket received made
      rw [if_neg (Option.some_ne_none msg)]
      exact ⟨next, fun _ => piece⟩
  constructor
  · intro s found' _
    obtain rfl := Option.some.inj (found.symm.trans found')
    rw [after]
    exact ready.1
  · intro m member _
    rw [after] at member
    dsimp only at member
    rw [replyOf_msg member]
    exact ready.2
  · rw [after]
    exact disk

theorem Attended.fresh {st : Server} {d : Datagram} {c : Client} {job : Job}
    (inv : WellFormed host.toVolume st) (admissible : Admissible st (.datagram d)) (named : host.client d.src = some c)
    (fresh : getSession st.seshead c = none) (sends : job.Sends d.bytes)
    (free : (0 : UInt8) ∉ job.filename) (sound : Sound host st (.datagram d)) :
    Attended host job c st d := by
  have list : getSession (st.receive d).seshead c = none := fresh
  have received : Consistent host.toVolume (st.receive d).ads := inv.ads.congr rfl rfl
  have none_ready (s : Session) (found : getSession st.seshead c = some s) :
      Ready host.toVolume job s st.ads := by
    rw [fresh] at found
    cases found
  obtain bytes | ⟨i, _, _, bytes⟩ := sends
  · have rrq := request_opcode st bytes
    by_cases accepted : Accepted host st d
    · obtain ⟨req, parsed, call⟩ := proc_accepted fresh accepted
      obtain ⟨req', parsed', kind⟩ := accepted
      obtain rfl := Option.some.inj (parsed.symm.trans parsed')
      have unread := sound.unread d c req rfl named fresh rrq parsed
      have meant : req.filename = job.filename ∧ req.mode.name = job.mode.name := by
        rw [receive_rbuf_eq, Datagram.delivered, bytes] at parsed
        exact parseTftpreq_meant free (modename_free job.mode) (by decide) parsed
      obtain ⟨name, modename⟩ := meant
      have mode := modename_inj modename
      have file : ∃ content, st.ads.disk (host.toVolume.node req.filename) = .regular content := by
        obtain ⟨_, file⟩ | ⟨wrq, _⟩ := kind
        · exact file
        · exact absurd (rrq.symm.trans wrq) (by decide)
      obtain ⟨content, file⟩ := file
      rw [rrq] at call
      have silent : job.Fine host.toVolume st.ads.disk [] := fun data => absurd data (by decide)
      cases newsock : d.newsock with
      | none =>
        rw [newsock] at call
        refine .denied named serverError_short call fun s found => ?_
        have first : getSession (newSession c req (-1) :: st.seshead) c = some (newSession c req (-1)) :=
          (Keyed.lookup_cons Session.key c _ _).trans (if_pos rfl)
        obtain rfl := Option.some.inj (first.symm.trans found)
        refine ⟨mode, name, silent, fun _ => rfl, fun socket => ?_⟩
        have negative : (0 : Int) ≤ -1 := socket
        omega
      | some fd =>
        rw [newsock] at call
        dsimp only at call
        exact .opened inv named newsock (admissible fd newsock).1 unread file name mode call
    · obtain ⟨ecode, call⟩ := proc_denied fresh accepted (.inl rrq)
      exact .denied named empty_short call none_ready
  · have call : st.proc host d c = errsendNone .keep (st.receive d).ads .unknownId [] := by
      have opcode : ofBe16 (st.receive d).rbuf = opAck := by
        rw [receive_rbuf_eq, Datagram.delivered, bytes]
        exact ofBe16_be16 opAck _
      rw [Server.proc, list, tftpProc, opcode]
      rfl
    exact .denied named empty_short call none_ready

/-! ## The timer -/

/-- When no name is cut off, the timer sends the last messages to the names of their sockets. -/
theorem resendAllsession_uncut (t : Tick) {head : List Session} (ads : IWDS) (addr : Bytes)
    {addrlen : Nat} (uncut : t.Uncut head)
    (fits : ∀ s ∈ head, ∀ name, t.getsockname s.clsock = some name → s.Due t →
      name.length ≤ addrlen) :
    ∀ m ∈ (resendAllsession t head ads addr addrlen).sent, ∃ s ∈ head,
      t.getsockname s.clsock = some m.dest := by
  induction head generalizing ads addr addrlen with
  | nil => nofun
  | cons pm rest inductionHypothesis =>
    by_cases due : pm.Due t
    · obtain ⟨name, named, pass⟩ := resendAllsession_due t rest ads addr addrlen due
      have within := fits pm List.mem_cons_self name named due
      have names (tail : List Session) : (pm :: tail).filterMap (fun s => t.getsockname s.clsock) =
          name :: tail.filterMap (fun s => t.getsockname s.clsock) := List.filterMap_cons_some named
      rw [Tick.Uncut, List.filter_cons_of_pos (by simpa using due), names, List.pairwise_cons] at uncut
      rw [pass, List.take_of_length_le within, List.take_left]
      rintro m (_ | ⟨_, member⟩)
      · exact ⟨pm, List.mem_cons_self, named⟩
      · obtain ⟨s, inRest, dest⟩ := inductionHypothesis ads _ uncut.2 (fun s inRest name' named' due' =>
          uncut.1 name' (List.mem_filterMap.mpr
            ⟨s, List.mem_filter.mpr ⟨inRest, by simpa using due'⟩, named'⟩)) m member
        exact ⟨s, List.mem_cons_of_mem pm inRest, dest⟩
    · rw [Tick.Uncut, List.filter_cons_of_neg (by simpa using due)] at uncut
      rw [resendAllsession_idle t rest ads addr addrlen due]
      intro m member
      obtain ⟨s, inRest, dest⟩ := inductionHypothesis (pm.release t.now ads) addr uncut
        (fun s inRest => fits s (List.mem_cons_of_mem pm inRest)) m member
      exact ⟨s, List.mem_cons_of_mem pm inRest, dest⟩

/-! ## A group of clients -/

variable {ι : Type}

/-- Clients at different addresses, each after a file with a name. -/
structure Group (host : Host) (jobs : ι → Job) : Prop where
  apart : ∀ i j c, host.client (jobs i).src = some c → host.client (jobs j).src = some c → i = j
  free : ∀ i, (0 : UInt8) ∉ (jobs i).filename

/-- A datagram of somebody else, who asks for nothing. What the timer sends to the server's own
sockets comes back like this. -/
def Stray (host : Host) (jobs : ι → Job) (d : Datagram) : Prop :=
  (∀ i c, host.client (jobs i).src = some c → host.client d.src ≠ some c) ∧ 2 ≤ d.bytes.length ∧
    opcodeOf d.bytes ≠ opRrq ∧ opcodeOf d.bytes ≠ opWrq

/-- The events of a server that a group of clients downloads from. The name of a socket fits, and
is no client's address. -/
def Comes (host : Host) (jobs : ι → Job) (st : Server) : Event → Prop
  | .datagram d => Stray host jobs d ∨ ∃ i, d.src = (jobs i).src ∧ (jobs i).Sends d.bytes
  | .tick t => ∀ s ∈ st.seshead, ∀ name, t.getsockname s.clsock = some name →
      name.length ≤ sockaddrStorage ∧ ∀ i, name ≠ (jobs i).src

/-- Every session is that of a client of the group, and is ready for it while it is enabled. -/
structure InService (host : Host) (jobs : ι → Job) (disk : Bytes → FileNode) (st : Server) : Prop where
  wellFormed : WellFormed host.toVolume st
  disk : st.ads.disk = disk
  owned : ∀ c s, getSession st.seshead c = some s → ∃ i, host.client (jobs i).src = some c
  ready : ∀ i c s, host.client (jobs i).src = some c → getSession st.seshead c = some s →
    s.disabled = false → Ready host.toVolume (jobs i) s st.ads

/-- What is sent to the clients of the group in a step is fine. -/
def SendsFine (host : Host) (jobs : ι → Job) (st : Server) (e : Event) : Prop :=
  ∀ m ∈ outputs host st e, ∀ i, 0 ≤ m.sock → m.dest = (jobs i).src →
    (jobs i).Fine host.toVolume st.ads.disk m.msg

/-- Only a request is parsed as one. -/
theorem parseTftpreq_opcode {msg : Bytes} {msglen : Nat} {req : TftpReq}
    (parsed : parseTftpreq msg msglen = some req) : ofBe16 msg = opRrq ∨ ofBe16 msg = opWrq := by
  rw [parseTftpreq] at parsed
  split at parsed
  · cases parsed
  · split at parsed
    · cases parsed
    · rename_i request
      by_contra other
      exact request (not_or.mp other)

/-- Between the datagrams of its client, a session that serves it stays ready. -/
theorem Ready.between {job : Job} {st : Server} {e : Event} {c : Client} {s' : Session}
    (inv : WellFormed host.toVolume st) (admissible : Admissible st e)
    (between : e.From host c = false) (disk : (step host st e).ads.disk = st.ads.disk)
    (ready : ∀ s, getSession st.seshead c = some s → s.disabled = false →
      Ready host.toVolume job s st.ads)
    (found' : getSession (step host st e).seshead c = some s') (enabled' : s'.disabled = false) :
    Ready host.toVolume job s' (step host st e).ads := by
  obtain ⟨now, s, found, aged, enabled, undisturbed⟩ :=
    step_between inv admissible between found' enabled'
  refine (ready s found enabled).congr aged.ident aged.lastmsg aged.blknum aged.sesbuf ?_ disk
    fun socket => (undisturbed socket).node
  rw [aged.fin]
  exact id

/-- A datagram of a client of the group. -/
theorem InService.client {jobs : ι → Job} {disk : Bytes → FileNode} {st : Server} {d : Datagram}
    {i : ι} {c : Client} (group : Group host jobs) (service : InService host jobs disk st)
    (admissible : Admissible st (.datagram d)) (sound : Sound host st (.datagram d))
    (named : host.client d.src = some c) (from_ : d.src = (jobs i).src)
    (sends : (jobs i).Sends d.bytes) :
    InService host jobs disk (step host st (.datagram d)) ∧ SendsFine host jobs st (.datagram d) := by
  have known : host.client (jobs i).src = some c := from_ ▸ named
  have attended : Attended host (jobs i) c st d := by
    cases found : getSession st.seshead c with
    | none => exact .fresh service.wellFormed admissible named found sends (group.free i) sound
    | some s =>
      exact .session service.wellFormed named found sends
        (service.ready i c s known found) sound
  have same : (step host st (.datagram d)).ads.disk = st.ads.disk := attended.disk
  refine ⟨⟨service.wellFormed.step admissible, same.trans service.disk, ?_, ?_⟩, ?_⟩
  · intro x s found
    by_cases own : x = c
    · exact ⟨i, own ▸ known⟩
    · exact service.owned x s ((getSession_recv_other named own).symm.trans found)
  · intro j x s known' found enabled
    by_cases own : x = c
    · subst own
      obtain rfl := group.apart i j x known known'
      exact attended.ready s found enabled
    · have between : (Event.datagram d).From host x = false := by
        apply decide_eq_false
        rw [named]
        rintro ⟨⟩
        exact own rfl
      exact Ready.between service.wellFormed admissible between same
        (service.ready j x · known') found enabled
  · intro m member j socket dest
    have member : m ∈ (recv host st d).2 := member
    have mine : m.dest = d.src := by
      rw [recv_eq named] at member
      exact replyOf_dest member
    have equal : i = j := by
      apply group.apart i j c known
      rw [← dest, mine]
      exact named
    exact equal ▸ attended.fine m member socket

/-- A datagram that changes nothing and is not answered to the group. -/
theorem InService.unchanged {jobs : ι → Job} {disk : Bytes → FileNode} {st : Server} {d : Datagram}
    (service : InService host jobs disk st) (admissible : Admissible st (.datagram d))
    (list : (recv host st d).1.seshead = st.seshead)
    (dhead : (recv host st d).1.ads.dhead = st.ads.dhead)
    (same : (recv host st d).1.ads.disk = st.ads.disk)
    (elsewhere : ∀ m ∈ (recv host st d).2, ∀ i, m.dest ≠ (jobs i).src) :
    InService host jobs disk (step host st (.datagram d)) ∧ SendsFine host jobs st (.datagram d) := by
  refine ⟨⟨service.wellFormed.step admissible, same.trans service.disk, ?_, ?_⟩, ?_⟩
  · intro c s found
    have found : getSession (recv host st d).1.seshead c = some s := found
    rw [list] at found
    exact service.owned c s found
  · intro i c s known found enabled
    have found : getSession (recv host st d).1.seshead c = some s := found
    rw [list] at found
    apply (service.ready i c s known found enabled).congr rfl rfl rfl rfl id same
    intro _
    exact congrArg (Keyed.lookup DSession.key s.dkey) dhead
  · intro m member i _ dest
    exact absurd dest (elsewhere m member i)

/-- A stray datagram opens no session and is answered elsewhere. -/
theorem InService.stray {jobs : ι → Job} {disk : Bytes → FileNode} {st : Server} {d : Datagram}
    {c : Client} (service : InService host jobs disk st) (admissible : Admissible st (.datagram d))
    (named : host.client d.src = some c) (stray : Stray host jobs d) :
    InService host jobs disk (step host st (.datagram d)) ∧ SendsFine host jobs st (.datagram d) := by
  obtain ⟨apart, long, notRrq, notWrq⟩ := stray
  have elsewhere (m : Sent) (member : m ∈ (recv host st d).2) (i : ι) : m.dest ≠ (jobs i).src := by
    intro dest
    rw [recv_eq named] at member
    rw [replyOf_dest member] at dest
    exact apart i c (dest ▸ named) named
  have fresh : getSession st.seshead c = none := by
    cases found : getSession st.seshead c with
    | none => rfl
    | some s =>
      obtain ⟨i, known⟩ := service.owned c s found
      exact absurd named (apart i c known)
  have number : ofBe16 (st.receive d).rbuf = opcodeOf d.bytes := by
    have two : 2 ≤ d.delivered.length := by
      rw [d.delivered_length, Datagram.len]
      exact le_min long (by decide)
    apply ofBe16_congr
    rw [receive_rbuf_eq, List.take_append_of_le_length two, Datagram.delivered, List.take_take]
    rfl
  have other : ¬ (ofBe16 (st.receive d).rbuf = opRrq ∨ ofBe16 (st.receive d).rbuf = opWrq) := by
    rw [number]
    exact not_or.mpr ⟨notRrq, notWrq⟩
  have after : recv host st d = _ := recv_eq named
  have opening := proc_opening host d fresh
  generalize st.proc host d c = p at opening after
  cases opening with
  | nothing edit _ same =>
    rw [edit, same] at after
    refine service.unchanged admissible ?_ ?_ ?_ elsewhere
    · rw [after]
      rfl
    · rw [after]
      rfl
    · rw [after]
      rfl
  | socketless req parsed | reader req _ _ parsed | writer req _ parsed =>
    exact absurd (parseTftpreq_opcode parsed) other

/-- A tick. -/
theorem InService.tick {jobs : ι → Job} {disk : Bytes → FileNode} {st : Server} {t : Tick}
    (service : InService host jobs disk st) (comes : Comes host jobs st (.tick t))
    (sound : Sound host st (.tick t)) :
    InService host jobs disk (step host st (.tick t)) ∧ SendsFine host jobs st (.tick t) := by
  have admissible : Admissible st (.tick t) := trivial
  obtain ⟨_, same, _⟩ := resendAllsession_steps t st.seshead
    { st.ads with faults := t.faults, trace := [] } t.addr sockaddrStorage
  have same : (step host st (.tick t)).ads.disk = st.ads.disk := same
  refine ⟨⟨service.wellFormed.step admissible, same.trans service.disk, ?_, ?_⟩, ?_⟩
  · intro c s' found
    obtain ⟨s, found, _⟩ := getSession_tick service.wellFormed found
    exact service.owned c s found
  · intro i c s known found enabled
    exact Ready.between service.wellFormed admissible rfl same
      (service.ready i c · known) found enabled
  · intro m member i _ dest
    obtain ⟨s, listed, named⟩ := resendAllsession_uncut t _ t.addr (sound.uncut t rfl)
      (fun s listed name named _ => (comes s listed name named).1) m member
    exact absurd dest ((comes s listed m.dest named).2 i)

/-- In every sound step the clients of the group are served, and are sent nothing but blocks of
their files. -/
theorem InService.step {jobs : ι → Job} {disk : Bytes → FileNode} {st : Server} {e : Event}
    (group : Group host jobs) (service : InService host jobs disk st) (admissible : Admissible st e)
    (comes : Comes host jobs st e) (sound : Sound host st e) :
    InService host jobs disk (Iwtftpd.step host st e) ∧ SendsFine host jobs st e := by
  cases e with
  | tick t => exact service.tick comes sound
  | datagram d =>
    cases named : host.client d.src with
    | none =>
      have after : recv host st d = _ := recv_ignored named
      apply service.unchanged admissible
      · rw [after]
        rfl
      · rw [after]
        rfl
      · rw [after]
        rfl
      · rw [after]
        nofun
    | some c =>
      obtain stray | ⟨i, from_, sends⟩ := comes
      · exact service.stray admissible named stray
      · exact service.client group admissible sound named from_ sends

end Iwtftpd
