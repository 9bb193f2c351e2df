import Iwtftpd.Acks
import Iwtftpd.Fetching
import Iwtftpd.Payloads
import Iwtftpd.Timer

/-!
# A download between two ACKs

A session that has sent a block of a file waits for its ACK. That ACK brings the
next block, or the end behind the last one. The ACK of the block before has the
block sent again, whatever its number; that an ACK is one too many does not
show. Ticks that come before anything has timed out change nothing.
-/

namespace Iwtftpd

variable {host : Host} {vol : Volume}

/-! ## The server between two ACKs -/

/-- The number of blocks of an encoded file. -/
def blocksOf (encoded : Bytes) : Nat := encoded.length / tftpDatalenMax + 1

/-- DATA of a block, numbered from 1. -/
def blockMsg (encoded : Bytes) (b : Nat) : Bytes :=
  dataMsg (UInt16.ofNat b) (Blocks.block tftpDatalenMax encoded (b - 1))

/-- A session that waits for the ACK of the block it has sent. -/
structure Sending (vol : Volume) (content : Bytes) (b : Nat) (s : Session) (ds : IWDS) : Prop where
  enabled : s.disabled = false
  file : ds.disk (vol.node s.filename) = .regular content
  number : s.blknum = UInt16.ofNat b
  lastmsg : s.lastmsg = blockMsg (s.tftpmode.encode content) b
  positive : 0 < b
  within : b ≤ blocksOf (s.tftpmode.encode content)
  fin : s.fin = decide (b = blocksOf (s.tftpmode.encode content))
  pending : s.fin = false → ∃ rest, Delivering vol content s ds rest ∧
    s.pending rest = (s.tftpmode.encode content).drop (tftpDatalenMax * b)

/-- What the session sends is what it was. -/
theorem Sending.congr {content : Bytes} {b : Nat} {s s' : Session} {ds ds' : IWDS}
    (sending : Sending vol content b s ds) (ident : s'.ident = s.ident)
    (sesbuf : s'.sesbuf = s.sesbuf) (lastmsg : s'.lastmsg = s.lastmsg) (blknum : s'.blknum = s.blknum)
    (fin : s'.fin = s.fin) (enabled : s'.disabled = false) (disk : ds'.disk = ds.disk)
    (node : ds'.at s.dkey = ds.at s.dkey) : Sending vol content b s' ds' := by
  have mode := mode_of_ident ident
  refine ⟨enabled, ?_, blknum.trans sending.number, ?_, sending.positive, ?_, ?_, ?_⟩
  · rw [disk, filename_of_ident ident]
    exact sending.file
  · rw [lastmsg, mode]
    exact sending.lastmsg
  · rw [mode]
    exact sending.within
  · rw [fin, mode]
    exact sending.fin
  · rw [fin]
    intro running
    obtain ⟨rest, delivering, left⟩ := sending.pending running
    refine ⟨rest, delivering.congr sesbuf ident node, ?_⟩
    rw [pending_congr rest sesbuf ident, mode]
    exact left

/-- A block that is made is the next one. -/
theorem sending_made {content rest : Bytes} {b : Nat} {s : Session} {ds : IWDS} (now : Int)
    (inv : Consistent vol ds) (file : ds.disk (vol.node s.filename) = .regular content)
    (number : s.blknum = UInt16.ofNat b) (running : s.fin = false) (enabled : s.disabled = false)
    (delivering : Delivering vol content s ds rest)
    (left : s.pending rest = (s.tftpmode.encode content).drop (tftpDatalenMax * b))
    (within : b < blocksOf (s.tftpmode.encode content)) (faultless : ds.faults = []) :
    let r := makeTftpdataMsg vol s ds tftpMsglenMax now
    r.1 = some (blockMsg (s.tftpmode.encode content) (b + 1)) ∧ r.2.1.ident = s.ident ∧
      r.2.1.retrycount = 0 ∧ r.2.2.disk = ds.disk ∧ Sending vol content (b + 1) r.2.1 r.2.2 := by
  have readable : Readable vol s ds :=
    .inr ⟨content, file, delivering.mode, clear_nil _ faultless⟩
  have made := (makeTftpdataMsg_made_iff now inv delivering.fits).mpr readable
  obtain ⟨msg, made⟩ := Option.ne_none_iff_exists'.mp made
  obtain ⟨rfl, next⟩ := delivering.makeTftpdataMsg inv file made
  have ended := makeTftpdataMsg_ended made
  have disk := makeTftpdataMsg_disk s tftpMsglenMax now inv
  obtain ⟨-, lastmsg, retries⟩ := makeTftpdataMsg_made made
  obtain ⟨-, ident, disabled, -⟩ := makeTftpdataMsg_steps vol s ds tftpMsglenMax now
  obtain ⟨_, _, _, blknum⟩ := makeTftpdataMsg_data made
  have short := Blocks.block_short (by decide : 0 < tftpDatalenMax) (s.tftpmode.encode content) b
  have block : (s.pending rest).take tftpDatalenMax =
      Blocks.block tftpDatalenMax (s.tftpmode.encode content) b := by
    rw [left]
    rfl
  have msg : dataMsg (nextBlk s.blknum) ((s.pending rest).take tftpDatalenMax) =
      blockMsg (s.tftpmode.encode content) (b + 1) := by
    rw [number, nextBlk_ofNat, block]
    rfl
  rw [msg] at made lastmsg
  rw [running, block, Bool.false_or] at ended
  dsimp only
  generalize makeTftpdataMsg vol s ds tftpMsglenMax now = r at *
  have mode := mode_of_ident ident
  have last : r.2.1.fin = decide (b + 1 = blocksOf (s.tftpmode.encode content)) := by
    rw [ended]
    apply decide_eq_decide.mpr
    rw [short, blocksOf]
    rw [blocksOf] at within
    omega
  refine ⟨made, ident, retries, disk, disabled.trans enabled, ?_, ?_, ?_, b.succ_pos, ?_, ?_, ?_⟩
  · rw [disk, filename_of_ident ident]
    exact file
  · rw [blknum, number, nextBlk_ofNat]
  · rw [lastmsg, mode]
  · rw [mode]
    exact within
  · rw [mode, last]
  · intro running
    rw [last, decide_eq_false_iff_not] at running
    have long : ¬ (s.pending rest).length < tftpDatalenMax := by
      intro few
      apply running
      have whole : (Blocks.block tftpDatalenMax (s.tftpmode.encode content) b).length <
          tftpDatalenMax := by
        rw [← block, List.length_take]
        omega
      rw [short] at whole
      rw [blocksOf] at within ⊢
      omega
    obtain ⟨rest', delivering', left'⟩ := next.resolve_left long
    refine ⟨rest', delivering', ?_⟩
    rw [left', left, mode, List.drop_drop, Nat.mul_succ]

/-- The client's session waits for the ACK of the block, what it sent last is what the server made
last, and it was resent so many times at most. -/
structure Awaiting (host : Host) (c : Client) (content encoded : Bytes) (b retries : Nat) (st : Server) :
    Prop where
  wellFormed : WellFormed host.toVolume st
  session : ∃ s, getSession st.seshead c = some s ∧ s.tftpmode.encode content = encoded ∧
    s.retrycount ≤ retries ∧ st.msg = s.lastmsg ∧ Sending host.toVolume content b s st.ads

/-- The client has no session but a disabled one. -/
structure Ended (host : Host) (c : Client) (st : Server) : Prop where
  wellFormed : WellFormed host.toVolume st
  session : ∀ s, getSession st.seshead c = some s → s.disabled = true

/-- A datagram of the client for which no call of stdio fails. -/
structure Smooth (host : Host) (c : Client) (st : Server) (d : Datagram) : Prop where
  named : host.client d.src = some c
  admissible : Admissible st (.datagram d)
  faultless : d.faults = []

theorem msgs_eq {st : Server} {d : Datagram} {c : Client} {sent : List Sent} {after : Option Session}
    (same : answer host st d c = (sent, after)) :
    outputs host st (.datagram d) = sent ∧ getSession (step host st (.datagram d)).seshead c = after :=
  ⟨congrArg Prod.fst same, congrArg Prod.snd same⟩

/-- The ACK of the block brings the next one. -/
theorem Awaiting.advance {c : Client} {content encoded : Bytes} {b retries : Nat} {st : Server}
    {d : Datagram} (awaiting : Awaiting host c content encoded b retries st)
    (delivered : Smooth host c st d) (bytes : d.bytes = ackMsg (UInt16.ofNat b))
    (more : b < blocksOf encoded) :
    (outputs host st (.datagram d)).map Sent.msg = [blockMsg encoded (b + 1)] ∧
      Awaiting host c content encoded (b + 1) 0 (step host st (.datagram d)) := by
  obtain ⟨inv, s, found, rfl, -, -, sending⟩ := awaiting
  have number := sending.number
  have running : s.fin = false := by
    rw [sending.fin, decide_eq_false_iff_not]
    omega
  obtain ⟨rest, delivering, left⟩ := sending.pending running
  have move : st.move d s = .advance := by
    rw [move_ack st s bytes, number, if_neg fun both => previous_ne _ both.1.symm, if_pos rfl]
  have received : Consistent host.toVolume (st.receive d).ads := inv.ads.congr rfl rfl
  obtain ⟨made, ident, retries, disk, next⟩ := sending_made d.now received sending.file number running
    sending.enabled (delivering.congr rfl rfl rfl) left more delivered.faultless
  obtain ⟨msg, made', fill, after, ds⟩ | ⟨failed, -⟩ :=
    nextData_cases host.toVolume (st.receive d).ads d.now running
  · obtain rfl := Option.some.inj (made'.symm.trans made)
    have call : st.proc host d c = _ := proc_move found
    have result : answer host st d c = _ := answer_eq delivered.named found
    rw [move] at call result
    rw [Move.run] at call result
    rw [after, fill, next.enabled, if_neg Bool.noConfusion] at result
    obtain ⟨sent, found'⟩ := msgs_eq result
    have state : step host st (.datagram d) = _ := congrArg Prod.fst (recv_eq delivered.named)
    have ads : (step host st (.datagram d)).ads = (nextData host.toVolume s (st.receive d).ads d.now).ds := by
      rw [state, call]
    have last : (step host st (.datagram d)).msg = blockMsg (s.tftpmode.encode content) (b + 1) := by
      rw [state, call]
      dsimp only
      rw [fill]
      rfl
    refine ⟨by rw [sent]; rfl, inv.step delivered.admissible, _, found', ?_, ?_, ?_, ?_⟩
    · rw [mode_of_ident ident]
    · rw [retries]
    · rw [last, next.lastmsg, mode_of_ident ident]
    · rw [ads, ds]
      exact next
  · rw [failed] at made
    cases made

/-- The ACK of the block before has the block sent again, also where its number is not one less. -/
theorem Awaiting.again {c : Client} {content encoded : Bytes} {b retries : Nat} {st : Server}
    {d : Datagram} (awaiting : Awaiting host c content encoded (b + 1) retries st)
    (delivered : Smooth host c st d) (bytes : d.bytes = ackMsg (UInt16.ofNat b))
    (few : retries < resendCountmax) :
    (outputs host st (.datagram d)).map Sent.msg = [blockMsg encoded (b + 1)] ∧
      Awaiting host c content encoded (b + 1) (retries + 1) (step host st (.datagram d)) := by
  obtain ⟨inv, s, found, rfl, bound, shared, sending⟩ := awaiting
  have number := sending.number
  have before : s.blknum - 1 = UInt16.ofNat b := by
    rw [number, UInt16.ofNat_add]
    exact UInt16.add_sub_cancel _ 1
  have state : step host st (.datagram d) = _ := congrArg Prod.fst (recv_eq delivered.named)
  have call : st.proc host d c = _ := proc_move found
  have move := move_ack st s bytes
  have inv' := inv.step delivered.admissible
  have apart : UInt16.ofNat b ≠ s.blknum := before ▸ previous_ne s.blknum
  rw [before, if_neg apart] at move
  by_cases first : s.blknum = 0
  · rw [if_neg fun both => both.2 first] at move
    have result : answer host st d c = _ := answer_pass delivered.named found move
    rw [sending.enabled, if_neg Bool.noConfusion] at result
    obtain ⟨sent, found'⟩ := msgs_eq result
    rw [move] at call
    have ads : (step host st (.datagram d)).ads = (st.receive d).ads := by
      rw [state, call]
      rfl
    have last : (step host st (.datagram d)).msg = st.msg := by
      rw [state, call]
      rfl
    refine ⟨?_, inv', s, found', rfl, Nat.le_succ_of_le bound, last.trans shared, ?_⟩
    · rw [sent, shared, sending.lastmsg]
      rfl
    · rw [ads]
      exact sending.congr rfl rfl rfl rfl rfl sending.enabled rfl rfl
  · rw [if_pos ⟨rfl, first⟩] at move
    have left : s.retrycount < resendCountmax := Nat.lt_of_le_of_lt bound few
    have result : answer host st d c = _ := answer_resend delivered.named found left move
    rw [sending.enabled, if_neg Bool.noConfusion] at result
    obtain ⟨sent, found'⟩ := msgs_eq result
    rw [move, Move.run, resend, if_pos left] at call
    have ads : (step host st (.datagram d)).ads = (st.receive d).ads := by
      rw [state, call]
    have last : (step host st (.datagram d)).msg = s.lastmsg := by
      rw [state, call]
      rfl
    refine ⟨?_, inv', _, found', rfl, Nat.succ_le_succ bound, last, ?_⟩
    · rw [sent, sending.lastmsg]
      rfl
    · rw [ads]
      exact sending.congr rfl rfl rfl rfl rfl rfl rfl rfl

/-- The ACK of the last block ends the session. -/
theorem Awaiting.finish {c : Client} {content encoded : Bytes} {retries : Nat} {st : Server}
    {d : Datagram} (awaiting : Awaiting host c content encoded (blocksOf encoded) retries st)
    (delivered : Smooth host c st d) (bytes : d.bytes = ackMsg (UInt16.ofNat (blocksOf encoded))) :
    outputs host st (.datagram d) = [] ∧ Ended host c (step host st (.datagram d)) := by
  obtain ⟨inv, s, found, rfl, -, -, sending⟩ := awaiting
  have fin : s.fin = true := by rw [sending.fin, decide_eq_true rfl]
  have move : st.move d s = .advance := by
    rw [move_ack st s bytes, sending.number, if_neg fun both => previous_ne _ both.1.symm, if_pos rfl]
  have result : answer host st d c = _ := answer_end delivered.named found move fin
  obtain ⟨sent, found'⟩ := msgs_eq result
  refine ⟨sent, inv.step delivered.admissible, ?_⟩
  intro s' there
  rw [found'] at there
  exact Option.some.inj there ▸ rfl

/-- Nothing that is sent is DATA. -/
def Dataless (sent : List Sent) : Prop := ∀ m ∈ sent, opcodeOf m.msg ≠ opData

/-- An ACK that comes later is answered with ERROR or not at all. -/
theorem Ended.ack {c : Client} {st : Server} {d : Datagram} {k : UInt16} (ended : Ended host c st)
    (delivered : Smooth host c st d) (bytes : d.bytes = ackMsg k) :
    Dataless (outputs host st (.datagram d)) ∧ Ended host c (step host st (.datagram d)) := by
  obtain ⟨inv, gone⟩ := ended
  have inv' := inv.step delivered.admissible
  have state : recv host st d = _ := recv_eq delivered.named
  cases found : getSession st.seshead c with
  | some s =>
    have handled := proc_handled host d found
    have disabled := handled.disabled (gone s found)
    have sent : (recv host st d).2 = [] := by
      rw [state]
      dsimp only
      rw [replyOf, handled.ok, handled.pointer]
      simp [disabled]
    constructor
    · intro m member
      have member : m ∈ (recv host st d).2 := member
      rw [sent] at member
      cases member
    · refine ⟨inv', ?_⟩
      intro s' there
      have after : getSession (recv host st d).1.seshead c = _ := getSession_recv delivered.named found
      obtain rfl := Option.some.inj (after.symm.trans there)
      exact disabled
  | none =>
    have opcode : ofBe16 (st.receive d).rbuf = opAck := by
      rw [receive_rbuf_eq, Datagram.delivered, bytes]
      exact ofBe16_be16 opAck _
    have call : st.proc host d c = errsendNone .keep (st.receive d).ads .unknownId [] := by
      have none : getSession (st.receive d).seshead c = Option.none := found
      rw [Server.proc, none, tftpProc, opcode]
      rfl
    rw [call, errsendNone_eq _ _ _ empty_short] at state
    constructor
    · intro m member
      have member : m ∈ (recv host st d).2 := member
      rw [state] at member
      have error : m.msg = _ := congrArg Sent.msg (List.mem_singleton.mp member)
      rw [error]
      intro data
      exact absurd ((opcodeOf_errorMsg _ _).symm.trans data) (by decide)
    · refine ⟨inv', ?_⟩
      intro s' there
      have there : getSession (recv host st d).1.seshead c = some s' := there
      rw [state] at there
      exact gone s' there

/-! ## No timeouts -/

/-- No session has waited for longer than the interval of resending. -/
def Tick.Quiet (t : Tick) (head : List Session) : Prop :=
  ∀ s ∈ head, difftime t.now s.lastsending ≤ resendInterval

theorem resendAllsession_quiet (t : Tick) {head : List Session} (ads : IWDS) (addr : Bytes)
    (addrlen : Nat) (quiet : t.Quiet head) :
    resendAllsession t head ads addr addrlen = { seshead := head, ads := ads, sent := [] } := by
  induction head with
  | nil => rfl
  | cons pm rest inductionHypothesis =>
    have early : difftime t.now pm.lastsending ≤ resendInterval := quiet pm List.mem_cons_self
    have later := inductionHypothesis fun s member => quiet s (List.mem_cons_of_mem pm member)
    rw [resendAllsession, if_pos early, later]
    rfl

/-- Such a tick removes disabled sessions, and that is all. -/
theorem getSession_quiet {st : Server} {t : Tick} (c : Client) (inv : WellFormed vol st)
    (quiet : t.Quiet st.seshead) :
    getSession (endIteration st t).1.seshead c =
      (getSession st.seshead c).bind fun s => if s.disabled = true then none else some s := by
  rw [getSession_rounds t c inv]
  cases found : getSession st.seshead c with
  | none => rfl
  | some s =>
    have early := quiet s (session_mem found)
    have notDue : ¬ s.Due t := fun due => absurd due.1 (by omega)
    have spared : ¬ s.exhausted t.now := fun exhausted => absurd exhausted.1 (by omega)
    have soon : ¬ sessionClosewait < difftime t.now s.lastsending := by
      have wait : sessionClosewait = 15 := rfl
      have interval : resendInterval = 10 := rfl
      omega
    have same : s.timed t = s := by rw [Session.timed, if_neg notDue, if_neg spared]
    show Session.round t s = _
    rw [Session.round, same, Session.expired, decide_eq_false soon, Bool.and_false, Bool.or_false]
    rfl

theorem quiet_tick (host : Host) {st : Server} {t : Tick} (quiet : t.Quiet st.seshead) :
    outputs host st (.tick t) = [] ∧ (step host st (.tick t)).msg = st.msg ∧
      (step host st (.tick t)).ads = { st.ads with faults := t.faults, trace := [] } := by
  have pass := resendAllsession_quiet t { st.ads with faults := t.faults, trace := [] } t.addr
    sockaddrStorage quiet
  have sent : outputs host st (.tick t) = (endIteration st t).2 := rfl
  have state : step host st (.tick t) = (endIteration st t).1 := rfl
  rw [sent, state, endIteration, pass]
  exact ⟨rfl, rfl, rfl⟩

theorem Awaiting.tick {c : Client} {content encoded : Bytes} {b retries : Nat} {st : Server} {t : Tick}
    (awaiting : Awaiting host c content encoded b retries st) (quiet : t.Quiet st.seshead) :
    Awaiting host c content encoded b retries (step host st (.tick t)) := by
  obtain ⟨inv, s, found, same, bound, shared, sending⟩ := awaiting
  obtain ⟨-, msg, ads⟩ := quiet_tick host quiet
  have there : getSession (step host st (.tick t)).seshead c = _ := getSession_quiet c inv quiet
  have inv' : WellFormed host.toVolume (step host st (.tick t)) := WellFormed.step inv trivial
  rw [found] at there
  refine ⟨inv', s, ?_, same, bound, msg.trans shared, ?_⟩
  · rw [there]
    show (if s.disabled = true then none else some s) = some s
    rw [sending.enabled, if_neg Bool.noConfusion]
  · rw [ads]
    exact sending.congr rfl rfl rfl rfl rfl sending.enabled rfl rfl

theorem Ended.tick {c : Client} {st : Server} {t : Tick} (ended : Ended host c st)
    (quiet : t.Quiet st.seshead) : Ended host c (step host st (.tick t)) := by
  obtain ⟨inv, gone⟩ := ended
  refine ⟨WellFormed.step inv trivial, ?_⟩
  have there : getSession (step host st (.tick t)).seshead c = _ := getSession_quiet c inv quiet
  intro s' found'
  rw [there] at found'
  obtain ⟨s, found, kept⟩ := Option.bind_eq_some_iff.mp found'
  rw [if_pos (gone s found)] at kept
  cases kept

/-! ## The request -/

/-- The request opens a session that reads the file from its beginning. -/
structure Opens (host : Host) (c : Client) (req : TftpReq) (content : Bytes) (fd : Int) (st : Server)
    (d : Datagram) : Prop extends Smooth host c st d where
  fresh : getSession st.seshead c = none
  rrq : ofBe16 (st.receive d).rbuf = opRrq
  parsed : parseTftpreq (st.receive d).rbuf d.len = some req
  file : st.ads.disk (host.toVolume.node req.filename) = .regular content
  socket : d.newsock = some fd
  unopened : st.ads.at (fd, req.filename) = none

theorem Opens.awaiting {c : Client} {req : TftpReq} {content : Bytes} {fd : Int} {st : Server}
    {d : Datagram} (opens : Opens host c req content fd st d) (inv : WellFormed host.toVolume st) :
    (outputs host st (.datagram d)).map Sent.msg = [blockMsg (req.mode.encode content) 1] ∧
      Awaiting host c content (req.mode.encode content) 1 0 (step host st (.datagram d)) := by
  have received : Consistent host.toVolume (st.receive d).ads := inv.ads.congr rfl rfl
  have partway : Partway host.toVolume content 0 (newSession c req fd) (st.receive d).ads :=
    Partway.fresh received opens.unopened opens.file
  obtain ⟨rest, delivering, left⟩ := partway.pending
  obtain ⟨made, ident, retries, -, sending⟩ := sending_made (b := 0) d.now received partway.file rfl rfl
    rfl delivering left (Nat.succ_pos _) opens.faultless
  have call := proc_reader host opens.fresh opens.rrq opens.parsed opens.file opens.socket
  have reader : startReader host.toVolume c req fd (st.receive d).ads d.now =
      (makeTftpdataMsg host.toVolume (newSession c req fd) (st.receive d).ads tftpMsglenMax d.now).2.1 := by
    rw [startReader]
    dsimp only
    rw [made, if_neg (Option.some_ne_none _)]
  rw [startTransfer_rrq, reader, made] at call
  have found := getSession_opened opens.named (by rw [call]) (key_of_ident ident)
  have state : recv host st d = _ := recv_eq opens.named
  rw [call] at state
  have sent : (outputs host st (.datagram d)).map Sent.msg =
      [blockMsg (req.mode.encode content) 1] := by
    show (recv host st d).2.map Sent.msg = _
    rw [state]
    dsimp only
    rw [replyOf, if_neg Bool.noConfusion]
    dsimp only
    rw [sending.enabled, if_neg Bool.noConfusion]
    rfl
  have ads : (step host st (.datagram d)).ads = _ := congrArg (fun r => r.1.ads) state
  have msg : (step host st (.datagram d)).msg = _ := congrArg (fun r => r.1.msg) state
  refine ⟨sent, inv.step opens.admissible, _, found, ?_, Nat.le_of_eq retries, ?_, ?_⟩
  · rw [mode_of_ident ident]
    rfl
  · rw [msg, sending.lastmsg, mode_of_ident ident]
    rfl
  · rw [ads]
    exact sending

end Iwtftpd
