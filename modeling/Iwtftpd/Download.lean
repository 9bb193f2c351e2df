import Iwtftpd.Directions
import Iwtftpd.Isolation
import Iwtftpd.Reading

/-!
# A download block by block

A client asks for a file in octet mode and acknowledges every block. What it is
sent is the file from where the stream under its descriptor and the file's name
stands, block by block. For a new descriptor that is the beginning, unless an
earlier session with the same descriptor left its node behind.
-/

namespace Iwtftpd

variable {host : Host} {vol : Volume}

/-- The messages that answer the datagrams of the client. -/
def answers (host : Host) (c : Client) : Server → List Event → List Bytes
  | _, [] => []
  | st, e :: rest =>
    (if e.From host c then (outputs host st e).map Sent.msg else []) ++
      answers host c (step host st e) rest

/-- Whatever the others do, the file keeps its content, and what the client sends is the
ACK of the block that its session waits on. No read for it fails. -/
def Acknowledging (host : Host) (c : Client) (place content : Bytes) (st : Server) (e : Event) :
    Prop :=
  Admissible st e ∧ st.ads.disk place = .regular content ∧
    ∀ d, e = .datagram d → host.client d.src = some c →
      d.faults = [] ∧ ∃ s, getSession st.seshead c = some s ∧ s.Active ∧ d.bytes = ackMsg s.blknum

/-- The answers of a run are the blocks of the content in order; the transfer is at its end
exactly when the last, the short one, was sent; their payloads make up the content then. -/
structure Delivered (host : Host) (c : Client) (content : Bytes) (st : Server)
    (events : List Event) : Prop where
  messages : answers host c st events = (List.range (events.countP (Event.From host c))).map
    fun i => dataMsg (UInt16.ofNat (i + 1)) (Blocks.block tftpDatalenMax content i)
  count : events.countP (Event.From host c) ≤ content.length / tftpDatalenMax + 1
  ended : ∀ s, getSession (Runs.exec (step host) st events).seshead c = some s →
    s.disabled = false →
    (s.fin = true ↔ events.countP (Event.From host c) = content.length / tftpDatalenMax + 1)
  whole : events.countP (Event.From host c) = content.length / tftpDatalenMax + 1 →
    ((answers host c st events).map (List.drop 4)).flatten = content

/-- However the client goes on acknowledging, it is delivered the content. -/
def Delivers (host : Host) (c : Client) (place content : Bytes) (st : Server) (d : Datagram) :
    Prop :=
  ∀ events, Runs.Admits (step host) (Acknowledging host c place content)
      (step host st (.datagram d)) events →
    Delivered host c content st (.datagram d :: events)

/-- A request to read the file, for a client without a session and with a socket to be had. -/
structure Requests (host : Host) (c : Client) (filename content : Bytes) (fd : Int) (st : Server)
    (d : Datagram) : Prop where
  named : host.client d.src = some c
  fresh : getSession st.seshead c = none
  rrq : ofBe16 (st.receive d).rbuf = opRrq
  parsed : parseTftpreq (st.receive d).rbuf d.len = some { filename := filename, mode := .octet }
  file : st.ads.disk (host.toVolume.node filename) = .regular content
  socket : d.newsock = some fd
  faultless : d.faults = []

/-! ## A session that serves a file -/

/-- The session of the client has sent the first blocks of the total, and reads the rest. -/
structure Serving (host : Host) (c : Client) (place content total : Bytes) (i : Nat)
    (st : Server) : Prop where
  wellFormed : WellFormed host.toVolume st
  session : ∀ s, getSession st.seshead c = some s → s.disabled = false →
    s.tftpmode = .octet ∧ 0 ≤ s.clsock ∧ host.toVolume.node s.filename = place ∧
      s.blknum = UInt16.ofNat i ∧ s.fin = decide (total.length < tftpDatalenMax * i) ∧
      (s.fin = false →
        Reading host.toVolume content s st.ads (total.drop (tftpDatalenMax * i)))

/-- The next block, counted from those sent. -/
theorem rest_short {total : Bytes} {i : Nat} (unsent : tftpDatalenMax * i ≤ total.length) :
    (total.drop (tftpDatalenMax * i)).length < tftpDatalenMax ↔
      total.length < tftpDatalenMax * (i + 1) := by
  rw [List.length_drop, Nat.mul_succ]
  omega

/-- An ACK is answered with the next block. -/
theorem Serving.ack {c : Client} {place content total : Bytes} {i : Nat} {st : Server}
    {d : Datagram} (serving : Serving host c place content total i st)
    (named : host.client d.src = some c)
    (acks : Acknowledging host c place content st (.datagram d)) :
    tftpDatalenMax * i ≤ total.length ∧
      Serving host c place content total (i + 1) (recv host st d).1 ∧
      (recv host st d).2.map Sent.msg =
        [dataMsg (UInt16.ofNat (i + 1)) (Blocks.block tftpDatalenMax total i)] ∧
      (recv host st d).1.ads.disk = st.ads.disk ∧
      ∃ s, getSession (recv host st d).1.seshead c = some s ∧ s.disabled = false := by
  obtain ⟨admissible, file, own⟩ := acks
  obtain ⟨faultless, s, found, ⟨running, enabled⟩, bytes⟩ := own d rfl named
  obtain ⟨octet, socket, name, number, fin, reading⟩ := serving.session s found enabled
  have unsent : tftpDatalenMax * i ≤ total.length := by
    rw [running] at fin
    exact Nat.le_of_not_lt (decide_eq_false_iff_not.mp fin.symm)
  have move : st.move d s = .advance := by
    rw [move_ackMsg st s bytes, if_neg (by omega), if_pos rfl]
  have received : Consistent host.toVolume (st.receive d).ads := serving.wellFormed.ads.congr rfl rfl
  have reading' : Reading host.toVolume content s (st.receive d).ads
      (total.drop (tftpDatalenMax * i)) := (reading running).congr rfl rfl rfl
  obtain ⟨made, blknum, ident, disabled, fin', disk, next⟩ := reading'.makeTftpdataMsg d.now octet
    received faultless (by rw [name]; exact file)
  have call : st.proc host d c = nextData host.toVolume s (st.receive d).ads d.now := by
    rw [proc_move found, move]
    rfl
  have handled := proc_handled host d found
  obtain ⟨msg, some, fill, after, same⟩ | ⟨none, _⟩ :=
    nextData_cases host.toVolume (st.receive d).ads d.now running
  · obtain rfl := Option.some.inj (some.symm.trans made)
    rw [← call] at fill after same
    have found' := getSession_recv named found
    have wellFormed' := serving.wellFormed.step admissible
    rw [after] at found'
    have replied := replyOf_handled d ((st.proc host d c).fill.getD st.msg) handled (by
      rw [after]
      exact disabled.trans enabled)
    generalize makeTftpdataMsg host.toVolume s (st.receive d).ads tftpMsglenMax d.now = r at *
    refine ⟨unsent, ⟨wellFormed', ?_⟩, ?_, ?_, r.2.1, found', disabled.trans enabled⟩
    · intro s' found'' _
      obtain rfl := Option.some.inj (found'.symm.trans found'')
      refine ⟨(mode_of_ident ident).trans octet, clsock_of_ident ident ▸ socket,
        filename_of_ident ident ▸ name, ?_, ?_, ?_⟩
      · rw [blknum, number, nextBlk_ofNat]
      · rw [fin', running, Bool.false_or]
        exact decide_eq_decide.mpr (rest_short unsent)
      · intro unfinished
        have long : ¬ (total.drop (tftpDatalenMax * i)).length < tftpDatalenMax := by
          rw [fin', running, Bool.false_or] at unfinished
          exact decide_eq_false_iff_not.mp unfinished
        have onwards := next.resolve_left long
        rw [List.drop_drop, ← Nat.mul_succ] at onwards
        apply onwards.congr rfl rfl
        rw [recv_eq named]
        dsimp only
        rw [same]
    · rw [recv_eq named]
      dsimp only
      rw [replied, fill, number, nextBlk_ofNat]
      rfl
    · rw [recv_eq named]
      dsimp only
      rw [same, disk]
      rfl
  · rw [made] at none
    cases none

/-- Every other step leaves the session serving. -/
theorem Serving.other {c : Client} {place content total : Bytes} {i : Nat} {st : Server}
    {e : Event} (serving : Serving host c place content total i st)
    (admissible : Admissible st e) (other : e.From host c = false) :
    Serving host c place content total i (step host st e) := by
  refine ⟨serving.wellFormed.step admissible, ?_⟩
  intro s' found' enabled'
  obtain ⟨_, s, found, aged, enabled, undisturbed⟩ :=
    step_between serving.wellFormed admissible other found' enabled'
  obtain ⟨octet, socket, name, number, fin, reading⟩ := serving.session s found enabled
  refine ⟨(mode_of_ident aged.ident).trans octet, clsock_of_ident aged.ident ▸ socket,
    filename_of_ident aged.ident ▸ name, aged.blknum.trans number, aged.fin.trans fin, ?_⟩
  intro unfinished
  exact (reading (aged.fin.symm.trans unfinished)).congr aged.sesbuf (dkey_of_ident aged.ident)
    (undisturbed socket).node

/-! ## The whole transfer -/

/-- From a serving session on, the answers of a run are the blocks that follow. -/
theorem Serving.run {c : Client} {place content total : Bytes} {i : Nat} {st : Server}
    (events : List Event) (serving : Serving host c place content total i st)
    (started : i ≤ total.length / tftpDatalenMax + 1)
    (admits : Runs.Admits (step host) (Acknowledging host c place content) st events) :
    Serving host c place content total (i + events.countP (Event.From host c))
        (Runs.exec (step host) st events) ∧
      i + events.countP (Event.From host c) ≤ total.length / tftpDatalenMax + 1 ∧
      answers host c st events = (List.range' i (events.countP (Event.From host c))).map
        fun j => dataMsg (UInt16.ofNat (j + 1)) (Blocks.block tftpDatalenMax total j) := by
  induction events generalizing i st with
  | nil => exact ⟨serving, started, rfl⟩
  | cons e rest inductionHypothesis =>
    obtain ⟨acks, later⟩ := admits
    by_cases own : e.From host c = true
    · cases e with
      | tick t => cases own
      | datagram d =>
        have named : host.client d.src = some c := of_decide_eq_true own
        obtain ⟨unsent, next, answer, _⟩ := serving.ack named acks
        have bound : i ≤ total.length / tftpDatalenMax := by
          rw [Nat.le_div_iff_mul_le (by decide), Nat.mul_comm]
          exact unsent
        obtain ⟨end', count, following⟩ := inductionHypothesis next (by omega) later
        have counted : (Event.datagram d :: rest).countP (Event.From host c) =
            rest.countP (Event.From host c) + 1 := List.countP_cons_of_pos own
        rw [counted]
        have sum : i + (rest.countP (Event.From host c) + 1) =
            i + 1 + rest.countP (Event.From host c) := by omega
        rw [sum]
        refine ⟨end', count, ?_⟩
        have answer : (outputs host st (.datagram d)).map Sent.msg =
          [dataMsg (UInt16.ofNat (i + 1)) (Blocks.block tftpDatalenMax total i)] := answer
        have following : answers host c (step host st (.datagram d)) rest = _ := following
        rw [answers, if_pos own, answer, following, List.range'_succ, List.map_cons]
        rfl
    · have next := serving.other acks.1 (by simpa using own)
      obtain ⟨end', count, following⟩ := inductionHypothesis next started later
      have counted : (e :: rest).countP (Event.From host c) = rest.countP (Event.From host c) :=
        List.countP_cons_of_neg own
      rw [counted]
      refine ⟨end', count, ?_⟩
      rw [answers, if_neg own, List.nil_append]
      exact following

/-- What a new session with the descriptor reads: what is left of the stream that is open
under its key, or the file from its beginning. -/
def Server.ahead (host : Host) (st : Server) (fd : Int) (filename content : Bytes) : Bytes :=
  ((newSession ([], 0) { filename := filename, mode := .octet } fd).reader host.toVolume
    st.ads).fp.left content

/-- The request is answered with the first block, if the stream can be read. -/
theorem Requests.first {c : Client} {filename content : Bytes} {fd : Int} {st : Server}
    {d : Datagram} (requests : Requests host c filename content fd st d)
    (inv : WellFormed host.toVolume st) (admissible : Admissible st (.datagram d))
    (readable : ∀ n, st.ads.at (fd, filename) = some n → n.fp.mode = .read) :
    Serving host c (host.toVolume.node filename) content (st.ahead host fd filename content) 1
        (recv host st d).1 ∧
      (recv host st d).2.map Sent.msg = [dataMsg (UInt16.ofNat 1)
        (Blocks.block tftpDatalenMax (st.ahead host fd filename content) 0)] ∧
      (recv host st d).1.ads.disk = st.ads.disk ∧
      ∃ s, getSession (recv host st d).1.seshead c = some s ∧ s.disabled = false := by
  obtain ⟨named, fresh, rrq, parsed, file, socket, faultless⟩ := requests
  let req : TftpReq := { filename := filename, mode := .octet }
  have received : Consistent host.toVolume (st.receive d).ads := inv.ads.congr rfl rfl
  have reading : Reading host.toVolume content (newSession c req fd) (st.receive d).ads
      (st.ahead host fd filename content) := by
    refine ⟨newSession_fits c req fd, Nat.zero_le _, ?_, rfl⟩
    show ((st.ads.at (fd, filename)).getD (opened host.toVolume (fd, filename) .read)).fp.mode = .read
    cases node : st.ads.at (fd, filename) with
    | none => rfl
    | some n => exact readable n node
  obtain ⟨made, blknum, ident, disabled, fin, disk, next⟩ :=
    reading.makeTftpdataMsg d.now rfl received faultless file
  have call := (proc_reader host fresh rrq parsed file socket).trans
    (startTransfer_rrq c req fd (st.receive d).ads d.now)
  have reader : startReader host.toVolume c req fd (st.receive d).ads d.now =
      (makeTftpdataMsg host.toVolume (newSession c req fd) (st.receive d).ads tftpMsglenMax d.now).2.1 := by
    rw [startReader, made]
    rfl
  rw [reader] at call
  have key : (makeTftpdataMsg host.toVolume (newSession c req fd) (st.receive d).ads tftpMsglenMax
      d.now).2.1.key = c := key_of_ident ident
  have found := getSession_opened named (by rw [call]) key
  have wellFormed := inv.step admissible
  generalize makeTftpdataMsg host.toVolume (newSession c req fd) (st.receive d).ads tftpMsglenMax
    d.now = r at *
  refine ⟨⟨wellFormed, ?_⟩, ?_, ?_, r.2.1, found, disabled⟩
  · intro s found' _
    obtain rfl := Option.some.inj (found.symm.trans found')
    refine ⟨mode_of_ident ident, ?_, ?_, blknum, ?_, ?_⟩
    · rw [clsock_of_ident ident]
      exact (admissible fd socket).1
    · rw [filename_of_ident ident]
      rfl
    · rw [fin, Nat.mul_one]
      rfl
    · intro unfinished
      have long : ¬ (st.ahead host fd filename content).length < tftpDatalenMax := by
        rw [fin] at unfinished
        exact decide_eq_false_iff_not.mp unfinished
      apply (next.resolve_left long).congr rfl rfl
      rw [recv_eq named, call]
  · rw [recv_eq named, call, made]
    dsimp only
    rw [replyOf]
    dsimp only
    rw [if_neg Bool.noConfusion, if_neg (by rw [disabled]; exact Bool.noConfusion)]
    rfl
  · rw [recv_eq named, call]
    exact disk

/-- What a client may send to go on to the end of the total. -/
theorem Serving.finish {c : Client} {place content total : Bytes} {i : Nat} {st : Server}
    {src : SockAddr} (remaining : Nat) (serving : Serving host c place content total i st)
    (named : host.client src = some c) (file : st.ads.disk place = .regular content)
    (present : ∃ s, getSession st.seshead c = some s ∧ s.disabled = false)
    (sum : i + remaining = total.length / tftpDatalenMax + 1) :
    ∃ events, Runs.Admits (step host) (Acknowledging host c place content) st events ∧
      events.countP (Event.From host c) = remaining := by
  induction remaining generalizing i st with
  | zero => exact ⟨[], trivial, rfl⟩
  | succ remaining inductionHypothesis =>
    obtain ⟨s, found, enabled⟩ := present
    have unsent : tftpDatalenMax * i ≤ total.length := by
      rw [Nat.mul_comm, ← Nat.le_div_iff_mul_le (by decide)]
      omega
    have running : s.fin = false := by
      rw [(serving.session s found enabled).2.2.2.2.1]
      exact decide_eq_false (Nat.not_lt.mpr unsent)
    let d : Datagram :=
      { sock := 0, src := src, bytes := ackMsg s.blknum, now := 0, newsock := none, faults := [] }
    have quiet : (Event.datagram d).Quiet := rfl
    have acks : Acknowledging host c place content st (.datagram d) := by
      refine ⟨quiet.admissible st, file, ?_⟩
      intro d' same _
      cases same
      exact ⟨rfl, s, found, ⟨running, enabled⟩, rfl⟩
    obtain ⟨_, next, _, disk, present'⟩ := serving.ack named acks
    obtain ⟨events, admits, count⟩ := inductionHypothesis next (by rw [disk]; exact file) present'
      (by omega)
    have own : (Event.datagram d).From host c = true := Event.from_datagram named
    refine ⟨.datagram d :: events, ⟨acks, admits⟩, ?_⟩
    rw [List.countP_cons_of_pos own, count]

/-- A stream that is open for writing cannot be read, and is closed by the attempt. -/
theorem makeTftpdataMsg_writer (ses : Session) {ds : IWDS} {n : DSession} (now : Int)
    (inv : Consistent vol ds) (empty : ses.sesbuf.datalen = 0) (node : ds.at ses.dkey = some n)
    (mode : n.fp.mode = .write) :
    (makeTftpdataMsg vol ses ds tftpMsglenMax now).1 = none ∧
      (makeTftpdataMsg vol ses ds tftpMsglenMax now).2.2.at ses.dkey = none := by
  have load := loadData_cases { ses with blknum := nextBlk ses.blknum } inv
  have refilled : ∃ s ds', refill vol { ses with blknum := nextBlk ses.blknum } ds = (.failed, s, ds') ∧
      ds'.at ses.dkey = none := by
    rw [refill, if_pos empty]
    generalize loadData vol { ses with blknum := nextBlk ses.blknum } ds = result at load ⊢
    cases load with
    | failed s ds' _ closed _ => exact ⟨s, ds', rfl, closed⟩
    | filled _ _ _ reads _ _ _ _ =>
      have node' : ds.at ({ ses with blknum := nextBlk ses.blknum } : Session).dkey = some n := node
      rw [Session.reader, node', Option.getD_some, mode] at reads
      cases reads
  obtain ⟨s, ds', failed, closed⟩ := refilled
  rw [makeTftpdataMsg, if_neg (Nat.lt_irrefl _), getSessionData, getLoop_failed failed]
  exact ⟨rfl, closed⟩

/-- The answer to a request whose stream cannot be read. -/
theorem Requests.unreadable {c : Client} {filename content : Bytes} {fd : Int} {st : Server}
    {d : Datagram} {n : DSession} (requests : Requests host c filename content fd st d)
    (inv : WellFormed host.toVolume st) (node : st.ads.at (fd, filename) = some n)
    (mode : n.fp.mode = .write) :
    ∃ ecode emsg, ∀ m ∈ (recv host st d).2, m.msg = errorMsg ecode emsg := by
  obtain ⟨named, fresh, rrq, parsed, file, socket, _⟩ := requests
  have received : Consistent host.toVolume (st.receive d).ads := inv.ads.congr rfl rfl
  have failed := (makeTftpdataMsg_writer (newSession c { filename := filename, mode := .octet } fd)
    d.now received rfl node mode).1
  have call := (proc_reader host fresh rrq parsed file socket).trans
    (startTransfer_rrq c { filename := filename, mode := .octet } fd (st.receive d).ads d.now)
  refine ⟨.seeMsg, serverError, ?_⟩
  intro m member
  rw [recv_eq named, call, failed] at member
  dsimp only at member
  rw [replyOf] at member
  dsimp only at member
  rw [if_neg Bool.noConfusion] at member
  split at member
  · cases member
  · rw [List.mem_singleton.mp member]
    rfl

/-- A stream stands at the beginning of the content: it is open for reading, and nothing
of the content was read from it yet. -/
def Stream.AtStart (fp : Stream) (content : Bytes) : Prop :=
  fp.mode = .read ∧ fp.left content = content

/-- The client is delivered the file exactly when no stream is open under the new descriptor and
the file's name, or one that stands at the beginning of the file.

Proof: the session that the request opens reads on from the stream that it finds, or from a new
one at the beginning. Every ACK moves it on by a block of what lies ahead, and what lies ahead is
the file exactly when the stream is at its start. -/
theorem download_delivers_iff {c : Client} {filename content : Bytes} {fd : Int} {st : Server}
    {d : Datagram} (reachable : Reachable host st) (admissible : Admissible st (.datagram d))
    (requests : Requests host c filename content fd st d) :
    Delivers host c (host.toVolume.node filename) content st d ↔
      ∀ n, st.ads.at (fd, filename) = some n → n.fp.AtStart content := by
  have inv := reachable.wellFormed
  have named := requests.named
  have own : (Event.datagram d).From host c = true := Event.from_datagram named
  have runs (readable : ∀ n, st.ads.at (fd, filename) = some n → n.fp.mode = .read)
      (events : List Event) (admits : Runs.Admits (step host)
        (Acknowledging host c (host.toVolume.node filename) content)
        (step host st (.datagram d)) events) :
      let total := st.ahead host fd filename content
      let count := (Event.datagram d :: events).countP (Event.From host c)
      Serving host c (host.toVolume.node filename) content total count
          (Runs.exec (step host) st (.datagram d :: events)) ∧
        count ≤ total.length / tftpDatalenMax + 1 ∧
        answers host c st (.datagram d :: events) = (List.range count).map
          fun i => dataMsg (UInt16.ofNat (i + 1)) (Blocks.block tftpDatalenMax total i) := by
    obtain ⟨serving, first, _, _⟩ := requests.first inv admissible readable
    obtain ⟨end', count, following⟩ := serving.run events (Nat.le_add_left 1 _) admits
    dsimp only
    rw [List.countP_cons_of_pos own, Nat.add_comm]
    refine ⟨end', count, ?_⟩
    have first : (outputs host st (.datagram d)).map Sent.msg =
      [dataMsg (UInt16.ofNat 1) (Blocks.block tftpDatalenMax (st.ahead host fd filename content) 0)] := first
    have following : answers host c (step host st (.datagram d)) events = _ := following
    rw [answers, if_pos own, first, following, List.range_eq_range', Nat.add_comm,
      List.range'_succ, List.map_cons]
    rfl
  constructor
  · intro delivers n node
    have readable : ∀ n, st.ads.at (fd, filename) = some n → n.fp.mode = .read := by
      intro n node
      cases mode : n.fp.mode with
      | read => rfl
      | write =>
        obtain ⟨ecode, emsg, errors⟩ := requests.unreadable inv node mode
        have first := (delivers [] trivial).messages
        rw [List.countP_cons_of_pos own, answers, if_pos own] at first
        have one : (recv host st d).2.map Sent.msg =
            [dataMsg (UInt16.ofNat 1) (Blocks.block tftpDatalenMax content 0)] := by
          simpa [answers, outputs, serve] using first
        obtain ⟨m, member, same⟩ := List.mem_map.mp (one ▸ List.mem_singleton_self _)
        have opcode := congrArg opcodeOf ((errors m member).symm.trans same)
        rw [opcodeOf_errorMsg, opcodeOf_dataMsg] at opcode
        exact absurd opcode (by decide)
    refine ⟨readable n node, ?_⟩
    have total : st.ahead host fd filename content = n.fp.left content := by
      have node' : st.ads.at (newSession ([], 0) { filename := filename, mode := .octet } fd).dkey =
        some n := node
      rw [Server.ahead, Session.reader, node', Option.getD_some]
    -- Acknowledge every block up to the short one: the blocks of the two lists agree.
    obtain ⟨serving, _, disk, present⟩ := requests.first inv admissible readable
    obtain ⟨events, admits, counted⟩ := serving.finish
      ((st.ahead host fd filename content).length / tftpDatalenMax) named
      (by rw [disk]; exact requests.file) present (Nat.add_comm 1 _)
    obtain ⟨_, _, sent⟩ := runs readable events admits
    have expected := (delivers events admits).messages
    rw [sent] at expected
    rw [← total]
    apply Blocks.eq_of_blocks (by decide : 0 < tftpDatalenMax)
    intro i within
    have inside : i < (Event.datagram d :: events).countP (Event.From host c) := by
      rw [List.countP_cons_of_pos own, counted]
      omega
    have same := congrArg (fun l => l[i]?) expected
    simp only [List.getElem?_map, List.getElem?_range inside, Option.map_some,
      Option.some.injEq] at same
    exact congrArg (List.drop 4) same
  · intro atStart events admits
    have total : st.ahead host fd filename content = content := by
      have key : (newSession ([], 0) { filename := filename, mode := .octet } fd).dkey =
        (fd, filename) := rfl
      rw [Server.ahead, Session.reader, key]
      cases node : st.ads.at (fd, filename) with
      | none => rfl
      | some n => exact (atStart n node).2
    obtain ⟨serving, count, messages⟩ := runs (fun n node => (atStart n node).1) events admits
    rw [total] at serving count messages
    refine ⟨messages, count, ?_, ?_⟩
    · intro s found enabled
      rw [(serving.session s found enabled).2.2.2.2.1, decide_eq_true_iff]
      have quotient := Nat.div_lt_iff_lt_mul (x := content.length)
        (y := (Event.datagram d :: events).countP (Event.From host c)) (by decide : 0 < tftpDatalenMax)
      rw [Nat.mul_comm] at quotient
      omega
    · intro all
      have payloads : (List.drop 4 ∘ fun i =>
          dataMsg (UInt16.ofNat (i + 1)) (Blocks.block tftpDatalenMax content i)) =
          Blocks.block tftpDatalenMax content := rfl
      rw [messages, all, List.map_map, payloads]
      exact Blocks.flatten_all (by decide) content

/-- The file of the runs below. -/
def servedFile : Bytes := List.replicate 600 1

/-- A request for it from a client, with the descriptor of the new socket. -/
def fileRequest (src : SockAddr) : Datagram := arrival src (reqMsg opRrq [102] .octet) (some 5)

/-- The first client of a server is delivered the file. -/
theorem download_delivers_sample :
    Delivers smallHost ([1], 2000) (smallHost.toVolume.node [102]) servedFile
      (startOn (diskWith [102] servedFile)) (fileRequest [1]) := by
  have requests : Requests smallHost ([1], 2000) [102] servedFile 5
      (startOn (diskWith [102] servedFile)) (fileRequest [1]) :=
    ⟨rfl, rfl, by decide +kernel, by decide +kernel, by decide +kernel, rfl, rfl⟩
  exact (download_delivers_iff (startOn_reachable _ _) (admissible_first rfl rfl (by decide))
    requests).mpr (fun n node => by cases node)

/-- Whoever asks for a file that no upload is writing is delivered the file. -/
def DownloadsDelivered (host : Host) : Prop :=
  ∀ c filename content fd st d, Reachable host st → Admissible st (.datagram d) →
    Requests host c filename content fd st d →
    (∀ n ∈ st.ads.dhead, n.fp.mode = .write → n.fp.node ≠ host.toVolume.node filename) →
    Delivers host c (host.toVolume.node filename) content st d

/-- The first client's malformed ACK, and the end of an iteration late enough for its session. -/
def malformedThenTick : List Event :=
  [.datagram (arrival [1] [0, 4] none),
    .tick { now := 20, sockname := fun _ => none, addr := [], faults := [] }]

/-- The first client has asked for the file. -/
def fileAsked : Server :=
  step smallHost (startOn (diskWith [102] servedFile)) (.datagram (fileRequest [1]))

/-- Its session is gone, its descriptor is closed, its stream is not. -/
def descriptorClosed : Server := Runs.exec (step smallHost) fileAsked malformedThenTick

/-- The next client that gets the same descriptor reads on where the first one stopped. -/
theorem downloads_not_delivered : ¬ DownloadsDelivered smallHost := by
  intro delivered
  have asked : Reachable smallHost fileAsked :=
    (startOn_reachable smallHost (diskWith [102] servedFile)).step
      (admissible_first rfl rfl (by decide))
  have closed : Reachable smallHost descriptorClosed := by
    apply asked.exec malformedThenTick
    intro e member
    obtain rfl | inRest := List.mem_cons.mp member
    · rfl
    · rw [List.mem_singleton.mp inRest]
      trivial
  have requests : Requests smallHost ([2], 2000) [102] servedFile 5 descriptorClosed
      (fileRequest [2]) :=
    ⟨rfl, by decide +kernel, by decide +kernel, by decide +kernel, by decide +kernel, rfl, rfl⟩
  have messages := (delivered ([2], 2000) [102] servedFile 5 descriptorClosed (fileRequest [2]) closed
    (admissible_first (by decide +kernel) rfl (by decide)) requests (by decide +kernel) []
    trivial).messages
  have differ : answers smallHost ([2], 2000) descriptorClosed [.datagram (fileRequest [2])] ≠
      (List.range 1).map fun i =>
        dataMsg (UInt16.ofNat (i + 1)) (Blocks.block tftpDatalenMax servedFile i) := by
    decide +kernel
  exact differ messages

end Iwtftpd
