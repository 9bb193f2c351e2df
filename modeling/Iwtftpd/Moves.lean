import Iwtftpd.ServiceLaws
import Iwtftpd.Wire

/-!
# The moves of a session

What a datagram makes the server do for a session that is in the list is one of
six moves, decided by the receive buffer, the block number and nothing else.
Properties of sessions are case analyses over the moves.
-/

namespace Iwtftpd

variable {host : Host} {vol : Volume}

/-- Neither finished nor disabled. -/
def Session.Active (s : Session) : Prop := s.fin = false ∧ s.disabled = false

/-- What `tftp_proc` does with a datagram of a client who has a session. -/
inductive Move where
  /-- A request or the neighbour of the current block: send the last message again. -/
  | resend
  /-- A malformed message or DATA out of sequence: answer ERROR. -/
  | refuse
  /-- DATA in sequence. -/
  | store (dat : TftpData)
  /-- ACK of the current block. -/
  | advance
  /-- ERROR. -/
  | abort
  /-- An unknown opcode or ACK of a foreign block: reach `done` with `sinfo` as it was. -/
  | pass
deriving DecidableEq

/-- The move that `tftp_proc` chooses for a session. -/
def Session.move (ses : Session) (rbuf : Bytes) (dlen : Nat) : Move :=
  let opcode := ofBe16 rbuf
  if opcode = opRrq ∨ opcode = opWrq then .resend
  else if opcode = opData then
    match parseTftpdata rbuf dlen with
    | none => .refuse
    | some dat =>
      if dat.blknum = ses.blknum then .resend
      else if dat.blknum = nextBlk ses.blknum then .store dat
      else .refuse
  else if opcode = opAck then
    match parseTftpack rbuf dlen with
    | none => .refuse
    | some blk =>
      if (blk.toNat : Int) = ses.blknum.toNat - 1 then .resend
      else if blk = ses.blknum then .advance
      else .pass
  else if opcode = opError then .abort
  else .pass

/-- Block numbers count along the blocks. -/
theorem nextBlk_ofNat (i : Nat) : nextBlk (UInt16.ofNat i) = UInt16.ofNat (i + 1) := by
  apply UInt16.toNat_inj.mp
  rw [nextBlk]
  split
  · simp
  · rename_i last
    have full : ¬ i % 65536 < 65535 := by
      intro less
      have top : tftpBlknumMax.toNat = 65535 := rfl
      refine last (UInt16.lt_iff_toNat_lt.mpr ?_)
      rw [top, UInt16.toNat_ofNat']
      exact less
    simp
    omega

/-- A block is not the one behind it. -/
theorem nextBlk_ne (blk : UInt16) : nextBlk blk ≠ blk := by
  rw [nextBlk]
  split
  · intro same
    have values := congrArg UInt16.toNat same
    rw [UInt16.toNat_add] at values
    have below := blk.toNat_lt
    have one : (1 : UInt16).toNat = 1 := rfl
    omega
  · rename_i last
    rintro rfl
    exact last (by decide)

/-- What a move does. -/
def Move.run (vol : Volume) (ses : Session) (ds : IWDS) (dlen : Nat) (now : Int) : Move → Proc
  | .resend => Iwtftpd.resend ses ds now
  | .refuse => errsend .update ses ds .illegalOpe []
  | .store dat => storeBlock vol ses ds dat dlen now
  | .advance => nextData vol ses ds now
  | .abort => opErrorProc ses ds
  | .pass => { edit := .keep, ses := some ses, fill := none, ok := true, ds := ds }

/-- With a session, `tftp_proc` is the run of the move. -/
theorem tftpProc_move (ses : Session) (ds : IWDS) (rbuf : Bytes) (dlen : Nat) (client : Client)
    (now : Int) (newsock : Option Int) :
    tftpProc vol (some ses) ds rbuf dlen client now newsock =
      (ses.move rbuf dlen).run vol ses ds dlen now := by
  unfold tftpProc Session.move
  dsimp only
  split
  · rfl
  split
  · unfold opDataProc
    cases parseTftpdata rbuf dlen with
    | none => rfl
    | some dat =>
      dsimp only
      split
      · rfl
      split <;> rfl
  split
  · unfold opAckProc
    cases parseTftpack rbuf dlen with
    | none => rfl
    | some blk =>
      dsimp only
      split
      · rfl
      split <;> rfl
  split <;> rfl

/-- No move concerns anything but its session and the stream of that. -/
theorem run_handled (vol : Volume) (ses : Session) (ds : IWDS) (dlen : Nat) (now : Int) (move : Move) :
    Handled vol ses ds (move.run vol ses ds dlen now) := by
  cases move with
  | resend => exact handled_resend ses ds now
  | refuse => exact handled_errsend .illegalOpe empty_short rfl .refl id id
  | store dat => exact handled_storeBlock ses ds dat dlen now
  | advance => exact handled_nextData ses ds now
  | abort => exact handled_opError ses ds
  | pass => exact ⟨.inl rfl, rfl, rfl, rfl, .refl, id, id, id⟩

/-- The move of a session for a datagram. -/
def Server.move (st : Server) (d : Datagram) (ses : Session) : Move :=
  ses.move (st.receive d).rbuf d.len

/-- For a client with a session `tftp_proc` is the move of the datagram. -/
theorem proc_move {st : Server} {d : Datagram} {c : Client} {s : Session}
    (found : getSession st.seshead c = some s) :
    st.proc host d c =
      (st.move d s).run host.toVolume s (st.receive d).ads d.len d.now := by
  have same : getSession (st.receive d).seshead c = some s := found
  simp only [Server.proc, same, tftpProc_move]
  rfl

/-- The move for a datagram that `recvfrom` delivers whole. -/
theorem move_of_bytes (st : Server) {d : Datagram} (ses : Session)
    (whole : d.bytes.length ≤ nwbufSize) :
    ∃ rest, (st.receive d).rbuf = d.bytes ++ rest ∧ d.len = d.bytes.length ∧
      st.move d ses = ses.move (d.bytes ++ rest) d.bytes.length := by
  have delivered : d.delivered = d.bytes := List.take_of_length_le whole
  have length : d.len = d.bytes.length := Nat.min_eq_left whole
  refine ⟨st.rbuf.drop d.bytes.length, ?_, length, ?_⟩
  · rw [receive_rbuf_eq, delivered]
  · rw [Server.move, receive_rbuf_eq, delivered, length]

/-- The move of an ACK. -/
theorem move_ackMsg (st : Server) {d : Datagram} {blk : UInt16} (ses : Session)
    (bytes : d.bytes = ackMsg blk) :
    st.move d ses =
      if (blk.toNat : Int) = ses.blknum.toNat - 1 then .resend
      else if blk = ses.blknum then .advance else .pass := by
  obtain ⟨rest, _, _, move⟩ := move_of_bytes st ses (d := d) (by
    rw [bytes, ackMsg_length]
    decide)
  have opcode : ofBe16 (ackMsg blk ++ rest) = opAck := by
    rw [ofBe16_append rest (by rw [ackMsg_length]; decide)]
    exact opcodeOf_ackMsg blk
  rw [move, bytes, Session.move, opcode, parseTftpack_ackMsg]
  rfl

/-- The move of a DATA. -/
theorem move_dataMsg (st : Server) {d : Datagram} {blk : UInt16} {data : Bytes} (ses : Session)
    (bytes : d.bytes = dataMsg blk data) (short : data.length ≤ tftpDatalenMax) :
    st.move d ses =
      if blk = ses.blknum then .resend
      else if blk = nextBlk ses.blknum then .store { blknum := blk, data := data } else .refuse := by
  have whole : d.bytes.length ≤ nwbufSize := by
    have sizes : tftpDatalenMax = 512 ∧ nwbufSize = 1024 := ⟨rfl, rfl⟩
    rw [bytes, dataMsg_length]
    omega
  obtain ⟨rest, _, _, move⟩ := move_of_bytes st ses whole
  have opcode : ofBe16 (dataMsg blk data ++ rest) = opData := by
    rw [ofBe16_append rest (by rw [dataMsg_length]; omega)]
    exact opcodeOf_dataMsg blk data
  rw [move, bytes, Session.move, opcode, parseTftpdata_dataMsg blk rest short]
  rfl

/-- The payload of DATA is as long as the datagram says. -/
theorem move_store {ses : Session} {rbuf : Bytes} {dlen : Nat} {dat : TftpData}
    (store : ses.move rbuf dlen = .store dat) :
    parseTftpdata rbuf dlen = some dat ∧ dat.blknum = nextBlk ses.blknum := by
  unfold Session.move at store
  dsimp only at store
  repeat' split at store
  all_goals simp_all

/-- What a DATA has that `parse_tftpdata` accepts. -/
theorem parseTftpdata_some {msg : Bytes} {msglen : Nat} {dat : TftpData}
    (parsed : parseTftpdata msg msglen = some dat) :
    4 ≤ msglen ∧ msglen - 4 ≤ tftpDatalenMax ∧ ofBe16 msg = opData ∧
      dat = { blknum := ofBe16 (msg.drop 2), data := (msg.drop 4).take (msglen - 4) } := by
  unfold parseTftpdata at parsed
  split at parsed
  · cases parsed
  · split at parsed
    · cases parsed
    · rename_i sized opcode
      exact ⟨by omega, by omega, not_not.mp opcode, (Option.some.inj parsed).symm⟩

/-- The payload that is stored has the length that decides on `fin`. -/
theorem payload_length {st : Server} {d : Datagram} {dat : TftpData}
    (full : st.rbuf.length = nwbufSize)
    (parsed : parseTftpdata (st.receive d).rbuf d.len = some dat) :
    dat.data.length = d.len - 4 ∧ dat.data.length ≤ tftpDatalenMax := by
  obtain ⟨long, short, _, rfl⟩ := parseTftpdata_some parsed
  have size := receive_rbuf d full
  have bound : d.len ≤ nwbufSize := Nat.min_le_right _ _
  simp only [List.length_take, List.length_drop, size]
  omega

/-! ## What the moves leave -/

/-- The session once the length of a block has been looked at. -/
def Session.noticed (ses : Session) (dlen : Nat) : Session :=
  { ses with fin := ses.fin || decide (dlen - 4 < tftpDatalenMax) }

/-- A block in sequence is stored; then the ACK is made and the last block closes the stream, or
an ERROR is sent and `fin` is set. -/
theorem storeBlock_eq (ses : Session) (ds : IWDS) (dat : TftpData) (dlen : Nat) (now : Int) :
    storeBlock vol ses ds dat dlen now =
      let r := putSessionData vol (ses.noticed dlen) ds dat.data
      if r.status = .done then
        let s := { r.ses with blknum := dat.blknum }.sent (ackMsg dat.blknum) now
        { edit := .update s, ses := some s, fill := some (ackMsg dat.blknum), ok := true,
          ds := if r.ses.fin then closeData r.ses r.ds else r.ds }
      else
        { edit := .update { r.ses with fin := true }, ses := some { r.ses with fin := true },
          fill := some (errorMsg .accessDeny (errmsgs .accessDeny)), ok := true, ds := r.ds } := by
  have start : (if dlen - 4 < tftpDatalenMax then { ses with fin := true } else ses) =
      ses.noticed dlen := by
    unfold Session.noticed
    split
    · rename_i short
      simp [short]
    · rename_i long
      simp [long]
  unfold storeBlock
  dsimp only
  rw [start]
  generalize putSessionData vol (ses.noticed dlen) ds dat.data = r
  cases status : r.status with
  | done => simp only [makeTftpackMsg_eq, if_true]
  | err | running =>
    simp only [errsend_eq .update r.ses r.ds .accessDeny empty_short, reduceCtorEq, if_false]

/-- A block is answered with its ACK or with an ERROR that ends the session. -/
theorem storeBlock_cases (vol : Volume) (ses : Session) (ds : IWDS) (dat : TftpData) (dlen : Nat) (now : Int) :
    let r := putSessionData vol (ses.noticed dlen) ds dat.data
    let p := storeBlock vol ses ds dat dlen now
    (p.after ses).sesbuf = r.ses.sesbuf ∧
      ((r.status = .done ∧ p.fill = some (ackMsg dat.blknum) ∧
          (p.after ses).lastmsg = ackMsg dat.blknum ∧ (p.after ses).blknum = dat.blknum) ∨
        (r.status ≠ .done ∧ p.fill = some (errorMsg .accessDeny (errmsgs .accessDeny)) ∧
          (p.after ses).lastmsg = ses.lastmsg ∧ (p.after ses).blknum = ses.blknum ∧
          (p.after ses).fin = true)) := by
  dsimp only
  have only := (putSessionData_steps vol (ses.noticed dlen) ds dat.data).2.1
  rw [storeBlock_eq]
  dsimp only
  generalize putSessionData vol (ses.noticed dlen) ds dat.data = r at only ⊢
  split
  · rename_i done
    exact ⟨rfl, .inl ⟨done, rfl, rfl, rfl⟩⟩
  · rename_i failed
    exact ⟨rfl, .inr ⟨failed, rfl, only.lastmsg, only.blknum, rfl⟩⟩

/-- The next block is answered to an ACK, or an ERROR that ends the session. -/
theorem nextData_cases (vol : Volume) {ses : Session} (ds : IWDS) (now : Int) (running : ses.fin = false) :
    let r := makeTftpdataMsg vol ses ds tftpMsglenMax now
    let p := nextData vol ses ds now
    (∃ msg, r.1 = some msg ∧ p.fill = some msg ∧ p.after ses = r.2.1 ∧ p.ds = r.2.2) ∨
      (r.1 = none ∧ p.fill = some (errorMsg .seeMsg serverError) ∧
        p.after ses = { r.2.1 with fin := true } ∧ p.ds = r.2.2) := by
  dsimp only
  have going : ¬ ses.fin = true := by simp [running]
  unfold nextData
  rw [if_neg going]
  generalize makeTftpdataMsg vol ses ds tftpMsglenMax now = r
  obtain ⟨_ | msg, s, ds'⟩ := r
  · dsimp only
    rw [errsend_eq .update s ds' .seeMsg serverError_short]
    exact .inr ⟨rfl, rfl, rfl, rfl⟩
  · exact .inl ⟨msg, rfl, rfl, rfl, rfl⟩

/-- The moves that leave the buffer alone keep the last message too. -/
def Move.Still (ses : Session) : Move → Prop
  | .store _ => False
  | .advance => ses.fin = true
  | _ => True

/-- A move that is still changes neither the buffer, nor the last message, nor the number. -/
theorem run_still (vol : Volume) {ses : Session} (ds : IWDS) (dlen : Nat) (now : Int) {move : Move}
    (still : move.Still ses) :
    ((move.run vol ses ds dlen now).after ses).sesbuf = ses.sesbuf ∧
      ((move.run vol ses ds dlen now).after ses).lastmsg = ses.lastmsg ∧
      ((move.run vol ses ds dlen now).after ses).blknum = ses.blknum := by
  cases move with
  | resend =>
    unfold Move.run Iwtftpd.resend
    dsimp only
    split <;> exact ⟨rfl, rfl, rfl⟩
  | refuse =>
    unfold Move.run
    dsimp only
    rw [errsend_eq .update ses ds .illegalOpe empty_short]
    exact ⟨rfl, rfl, rfl⟩
  | store => exact still.elim
  | advance =>
    have fin : ses.fin = true := still
    unfold Move.run nextData
    dsimp only
    rw [if_pos fin]
    exact ⟨rfl, rfl, rfl⟩
  | abort => exact ⟨rfl, rfl, rfl⟩
  | pass => exact ⟨rfl, rfl, rfl⟩

/-! ## New sessions -/

/-- The session that RRQ links once it has a socket. -/
def startReader (vol : Volume) (client : Client) (req : TftpReq) (fd : Int) (ds : IWDS)
    (now : Int) : Session :=
  let r := makeTftpdataMsg vol (newSession client req fd) ds tftpMsglenMax now
  if r.1 = none then { r.2.1 with fin := true } else r.2.1

/-- It is the session of its request. -/
theorem startReader_ident (client : Client) (req : TftpReq) (fd : Int) (ds : IWDS) (now : Int) :
    (startReader vol client req fd ds now).ident = (newSession client req fd).ident := by
  have ident := (makeTftpdataMsg_steps vol (newSession client req fd) ds tftpMsglenMax
    now).2.1
  unfold startReader
  dsimp only
  split <;> exact ident

/-- The reader that a request opens is the client's. -/
theorem startReader_key (client : Client) (req : TftpReq) (fd : Int) (ds : IWDS) (now : Int) :
    (startReader vol client req fd ds now).key = client :=
  key_of_ident (startReader_ident client req fd ds now)

/-- The session that WRQ links once it has a socket. -/
def startWriter (client : Client) (req : TftpReq) (fd : Int) (now : Int) : Session :=
  { newSession client req fd with blknum := 0 }.sent (ackMsg 0) now

/-- An RRQ links its session, which is answered by the first DATA or by an ERROR. -/
theorem startTransfer_rrq (client : Client) (req : TftpReq) (fd : Int) (ds : IWDS) (now : Int) :
    startTransfer vol (newSession client req fd) ds opRrq now =
      { edit := .insert (startReader vol client req fd ds now)
        ses := some (startReader vol client req fd ds now)
        fill := some ((makeTftpdataMsg vol (newSession client req fd) ds tftpMsglenMax now).1.getD
          (errorMsg .seeMsg serverError))
        ok := true
        ds := (makeTftpdataMsg vol (newSession client req fd) ds tftpMsglenMax now).2.2 } := by
  unfold startTransfer startReader
  rw [if_pos rfl]
  generalize makeTftpdataMsg vol (newSession client req fd) ds tftpMsglenMax now = r
  obtain ⟨_ | msg, s, ds'⟩ := r
  · simp only [errsend_eq .insert s ds' .seeMsg serverError_short]
    rfl
  · rfl

/-- A WRQ links its session, which is answered by ACK 0. -/
theorem startTransfer_wrq (client : Client) (req : TftpReq) (fd : Int) (ds : IWDS) (now : Int) :
    startTransfer vol (newSession client req fd) ds opWrq now =
      { edit := .insert (startWriter client req fd now)
        ses := some (startWriter client req fd now)
        fill := some (ackMsg 0), ok := true, ds := ds } := by
  have other : opWrq ≠ opRrq := by decide
  unfold startTransfer startWriter
  rw [if_neg other]
  rfl

/-- The ways a call ends that had no session, with all that a new session starts from. -/
inductive Opening (vol : Volume) (ds : IWDS) (rbuf : Bytes) (dlen : Nat) (client : Client)
    (now : Int) (newsock : Option Int) : Proc → Prop where
  | nothing {p : Proc} (edit : p.edit = .keep) (pointer : p.ses = none) (same : p.ds = ds) :
      Opening vol ds rbuf dlen client now newsock p
  | socketless (req : TftpReq) (parsed : parseTftpreq rbuf dlen = some req)
      (refused : newsock = none) :
      Opening vol ds rbuf dlen client now newsock
        { edit := .insert (newSession client req (-1)), ses := none
          fill := some (errorMsg .seeMsg serverError), ok := true, ds := ds }
  | reader (req : TftpReq) (fd : Int) (content : Bytes)
      (parsed : parseTftpreq rbuf dlen = some req) (socket : newsock = some fd)
      (rrq : ofBe16 rbuf = opRrq) (file : ds.disk (vol.node req.filename) = .regular content) :
      Opening vol ds rbuf dlen client now newsock
        { edit := .insert (startReader vol client req fd ds now)
          ses := some (startReader vol client req fd ds now)
          fill := some ((makeTftpdataMsg vol (newSession client req fd) ds tftpMsglenMax now).1.getD
            (errorMsg .seeMsg serverError))
          ok := true
          ds := (makeTftpdataMsg vol (newSession client req fd) ds tftpMsglenMax now).2.2 }
  | writer (req : TftpReq) (fd : Int) (parsed : parseTftpreq rbuf dlen = some req)
      (socket : newsock = some fd) (wrq : ofBe16 rbuf = opWrq)
      (free : ∀ content, ds.disk (vol.node req.filename) ≠ .regular content) :
      Opening vol ds rbuf dlen client now newsock
        { edit := .insert (startWriter client req fd now)
          ses := some (startWriter client req fd now)
          fill := some (ackMsg 0), ok := true, ds := ds }

private theorem opening_error {ds : IWDS} {rbuf : Bytes} {dlen : Nat} {client : Client}
    {now : Int} {newsock : Option Int} (ecode : TftpErrorcode) :
    Opening vol ds rbuf dlen client now newsock (errsendNone .keep ds ecode []) := by
  rw [errsendNone_eq .keep ds ecode empty_short]
  exact .nothing rfl rfl rfl

/-- The ways in which a request without a session goes, one constructor for each. -/
theorem opReq_opening {ds : IWDS} {rbuf : Bytes} {dlen : Nat} {client : Client} {now : Int}
    {newsock : Option Int} (request : ofBe16 rbuf = opRrq ∨ ofBe16 rbuf = opWrq) :
    Opening vol ds rbuf dlen client now newsock
      (opReq vol ds rbuf dlen (ofBe16 rbuf) client now newsock) := by
  have other : opRrq ≠ opWrq := by decide
  unfold opReq
  cases parsed : parseTftpreq rbuf dlen with
  | none => exact opening_error .illegalOpe
  | some req =>
    dsimp only
    cases file : iwdsIsfile vol ds req.filename with
    | err => exact absurd file (isDsfile_ne_err vol ds req.filename)
    | yes =>
      rcases request with rrq | wrq
      · rw [rrq, decide_eq_false other]
        dsimp only
        cases newsock with
        | none =>
          dsimp only
          rw [errsendNone_eq _ ds .seeMsg serverError_short]
          exact .socketless req parsed rfl
        | some fd =>
          obtain ⟨content, held⟩ := (isDsfile_yes_iff vol ds req.filename).mp file
          dsimp only
          rw [startTransfer_rrq]
          exact .reader req fd content parsed rfl rrq held
      · rw [wrq, decide_eq_true rfl]
        exact opening_error .fileExist
    | no =>
      rcases request with rrq | wrq
      · rw [rrq, decide_eq_false other]
        exact opening_error .notFound
      · rw [wrq, decide_eq_true rfl]
        dsimp only
        cases newsock with
        | none =>
          dsimp only
          rw [errsendNone_eq _ ds .seeMsg serverError_short]
          exact .socketless req parsed rfl
        | some fd =>
          dsimp only
          rw [startTransfer_wrq]
          exact .writer req fd parsed rfl wrq ((isDsfile_no_iff vol ds req.filename).mp file)

/-- The same of any datagram without a session: all others are an ERROR, or nothing. -/
theorem tftpProc_opening {ds : IWDS} {rbuf : Bytes} {dlen : Nat} {client : Client} {now : Int}
    {newsock : Option Int} :
    Opening vol ds rbuf dlen client now newsock
      (tftpProc vol none ds rbuf dlen client now newsock) := by
  unfold tftpProc
  dsimp only
  split
  · rename_i request
    exact opReq_opening request
  · split
    · exact opening_error .unknownId
    · split
      · exact opening_error .unknownId
      · split <;> exact .nothing rfl rfl rfl

/-- The same of a datagram at the service. -/
theorem proc_opening (host : Host) {st : Server} (d : Datagram) {c : Client}
    (found : getSession st.seshead c = none) :
    Opening host.toVolume (st.receive d).ads (st.receive d).rbuf d.len c d.now d.newsock
      (st.proc host d c) := by
  have list : getSession (st.receive d).seshead c = none := found
  simp only [Server.proc, list]
  exact tftpProc_opening

/-! ## The session after a datagram -/

/-- The session of a client after a datagram of that client. -/
theorem getSession_recv {st : Server} {d : Datagram} {c : Client} {s : Session}
    (named : host.client d.src = some c) (found : getSession st.seshead c = some s) :
    getSession (recv host st d).1.seshead c = some ((st.proc host d c).after s) := by
  have handled := proc_handled host d found
  have key : ((st.proc host d c).after s).key = c :=
    (key_of_ident handled.ident).trans (session_key found)
  rw [recv_eq named]
  dsimp only
  rw [handled_apply found handled]
  generalize (st.proc host d c).after s = s' at key ⊢
  subst key
  exact Keyed.lookup_store_self Session.key found

/-- The session of another client after a datagram. -/
theorem getSession_recv_other {st : Server} {d : Datagram} {c x : Client}
    (named : host.client d.src = some c) (other : x ≠ c) :
    getSession (recv host st d).1.seshead x = getSession st.seshead x := by
  rw [recv_eq named]
  dsimp only
  cases found : getSession st.seshead c with
  | some s =>
    have handled := proc_handled host d found
    have key : ((st.proc host d c).after s).key = c :=
      (key_of_ident handled.ident).trans (session_key found)
    have apart : ((st.proc host d c).after s).key ≠ x := fun same => other (same.symm.trans key)
    rw [handled_apply found handled]
    exact Keyed.lookup_store_other Session.key st.seshead apart
  | none =>
    cases proc_fresh host d found with
    | nothing edit _ _ => rw [edit]; rfl
    | socketless req _ edit _ _ _ =>
      rw [edit]
      have key : (newSession c req (-1)).key ≠ x := other.symm
      exact (Keyed.lookup_cons Session.key x _ _).trans (if_neg key)
    | linked req fd s linked =>
      rw [linked.edit]
      have key : s.key ≠ x := linked_key linked ▸ other.symm
      exact (Keyed.lookup_cons Session.key x _ _).trans (if_neg key)

/-- The session of a client after a tick. -/
theorem getSession_tick {st : Server} {t : Tick} {c : Client} {s' : Session}
    (inv : WellFormed vol st) (found : getSession (endIteration st t).1.seshead c = some s') :
    ∃ s, getSession st.seshead c = some s ∧ Aged t.now s s' ∧ s'.expired t.now = false := by
  obtain ⟨after, pairs, list⟩ := endIteration_seshead (t := t) inv
  have member := session_mem found
  rw [list, List.mem_filter] at member
  obtain ⟨s, old, aged⟩ := forall₂_mem pairs member.1
  refine ⟨s, ?_, aged, by simpa using member.2⟩
  have key : s.key = c := (key_of_ident aged.ident).symm.trans (session_key found)
  exact key ▸ Keyed.lookup_of_mem Session.key inv.clients old

/-- The session that a datagram opens. -/
theorem getSession_opened {st : Server} {d : Datagram} {c : Client} {s : Session}
    (named : host.client d.src = some c) (edit : (st.proc host d c).edit = .insert s)
    (key : s.key = c) : getSession (recv host st d).1.seshead c = some s := by
  rw [recv_eq named, edit]
  exact (Keyed.lookup_cons Session.key c _ _).trans (if_pos key)

/-- A session that was not there before was opened. -/
theorem edit_of_opened {st : Server} {d : Datagram} {c : Client} {s : Session}
    (named : host.client d.src = some c) (absent : getSession st.seshead c = none)
    (found : getSession (recv host st d).1.seshead c = some s) :
    (st.proc host d c).edit = .insert s := by
  -- The session found is the one linked before the head.
  have first {t : Session} (edit : (st.proc host d c).edit = .insert t) (key : t.key = c) :
      (st.proc host d c).edit = .insert s := by
    rw [getSession_opened named edit key] at found
    rw [edit, Option.some.inj found]
  cases proc_fresh host d absent with
  | nothing edit _ _ =>
    have same : getSession (recv host st d).1.seshead c = getSession st.seshead c := by
      rw [recv_eq named, edit]
      rfl
    rw [same, absent] at found
    cases found
  | socketless req _ edit _ _ _ => exact first edit rfl
  | linked req fd t linked => exact first linked.edit (linked_key linked)

/-! ## Frames of a step -/

/-- The datagrams of other clients work under other keys than that of a session with a
socket. -/
theorem recv_chain_other {st : Server} {d : Datagram} {x c : Client} {s : Session}
    (inv : WellFormed host.toVolume st) (admissible : Admissible st (.datagram d))
    (named : host.client d.src = some x) (other : c ≠ x)
    (found : getSession st.seshead c = some s) (socket : 0 ≤ s.clsock) :
    ∃ k, s.dkey ≠ k ∧ Chain host.toVolume k (st.receive d).ads (recv host st d).1.ads := by
  rw [recv_eq named]
  cases theirs : getSession st.seshead x with
  | some t =>
    refine ⟨t.dkey, ?_, (proc_handled host d theirs).chain⟩
    intro same
    have sameSock : s.clsock = t.clsock := congrArg Prod.fst same
    have equal := inv.sockets s (session_mem found) t (session_mem theirs) sameSock socket
    exact other ((session_key found).symm.trans (equal ▸ session_key theirs))
  | none =>
    have elsewhere : s.dkey ≠ (-2, []) := by
      intro same
      have negative : s.clsock = -2 := congrArg Prod.fst same
      omega
    cases proc_fresh host d theirs with
    | nothing _ _ same | socketless _ _ _ _ _ same =>
      refine ⟨_, elsewhere, ?_⟩
      rw [same]
    | linked req fd t linked =>
      refine ⟨(fd, req.filename), ?_, linked.chain⟩
      intro same
      exact (admissible fd linked.socket).2 s (session_mem found) (congrArg Prod.fst same)

/-- A tick leaves the node of a session that it does not give up. -/
theorem tick_at {st : Server} {t : Tick} {s : Session} (inv : WellFormed vol st)
    (member : s ∈ st.seshead) (socket : 0 ≤ s.clsock) (kept : ¬ s.exhausted t.now) :
    (endIteration st t).1.ads.at s.dkey = st.ads.at s.dkey := by
  obtain ⟨_, _, _, others, _, _⟩ := resendAllsession_steps t st.seshead
    { st.ads with faults := t.faults, trace := [] } t.addr sockaddrStorage
  apply others s.dkey
  intro r rMember exhausted same
  have sameSock : s.clsock = r.clsock := (congrArg Prod.fst same).symm
  have equal := inv.sockets s member r rMember sameSock socket
  exact kept (equal ▸ exhausted)

/-- What a call for a session sends while the session is enabled. -/
theorem replyOf_handled {ses : Session} {ds : IWDS} {p : Proc} (d : Datagram) (msg : Bytes)
    (handled : Handled vol ses ds p) (enabled : (p.after ses).disabled = false) :
    replyOf p d msg =
      [{ sock := (p.after ses).clsock, dest := d.src, msg := msg, ses := some (p.after ses).key }] := by
  rw [replyOf, handled.ok, handled.pointer]
  simp [enabled]

/-- What `tftp_proc` sends for a session goes out on the session's socket, unless it is
disabled. -/
theorem replyOf_session {proc : Proc} {d : Datagram} {msg : Bytes} {m : Sent} {c : Client}
    (member : m ∈ replyOf proc d msg) (ses : m.ses = some c) :
    m.msg = msg ∧ ∃ s, proc.ses = some s ∧ s.disabled = false ∧ m.sock = s.clsock ∧ s.key = c := by
  unfold replyOf at member
  split at member
  · cases member
  · split at member
    · rename_i s pointer
      split at member
      · cases member
      · rename_i enabled
        rw [List.mem_singleton.mp member] at ses ⊢
        exact ⟨rfl, s, pointer, by simpa using enabled, rfl, Option.some.inj ses⟩
    · rw [List.mem_singleton.mp member] at ses
      cases ses

/-- A datagram of one client has nothing sent for the session of another. -/
theorem replyOf_other {st : Server} {d : Datagram} {x c : Client} {m : Sent}
    (named : host.client d.src = some x) (other : c ≠ x) (member : m ∈ (recv host st d).2) :
    m.ses ≠ some c := by
  intro ses
  rw [recv_eq named] at member
  obtain ⟨_, s', pointer, _, _, key⟩ := replyOf_session member ses
  cases found : getSession st.seshead x with
  | some s =>
    have handled := proc_handled host d found
    obtain rfl : (st.proc host d x).after s = s' :=
      Option.some.inj (handled.pointer.symm.trans pointer)
    exact other (key.symm.trans ((key_of_ident handled.ident).trans (session_key found)))
  | none =>
    cases proc_fresh host d found with
    | nothing _ none _ | socketless _ _ _ none _ _ =>
      rw [none] at pointer
      cases pointer
    | linked req fd s linked =>
      obtain rfl : s = s' := Option.some.inj (linked.pointer.symm.trans pointer)
      exact other (key.symm.trans (linked_key linked))

/-- A request to read a file that is there, with a socket to be had. -/
theorem proc_reader (host : Host) {st : Server} {d : Datagram} {c : Client} {req : TftpReq} {fd : Int}
    {content : Bytes} (found : getSession st.seshead c = none)
    (rrq : ofBe16 (st.receive d).rbuf = opRrq)
    (parsed : parseTftpreq (st.receive d).rbuf d.len = some req)
    (file : st.ads.disk (host.toVolume.node req.filename) = .regular content)
    (socket : d.newsock = some fd) :
    st.proc host d c = startTransfer host.toVolume (newSession c req fd) (st.receive d).ads opRrq
      d.now := by
  have list : getSession (st.receive d).seshead c = none := found
  have yes : iwdsIsfile host.toVolume (st.receive d).ads req.filename = .yes :=
    (isDsfile_yes_iff host.toVolume _ req.filename).mpr ⟨content, file⟩
  have other : opRrq ≠ opWrq := by decide
  rw [Server.proc, list, tftpProc, rrq]
  rw [if_pos (.inl rfl), opReq, parsed]
  dsimp only
  rw [yes, decide_eq_false other, socket]

/-! ## What is acknowledged -/

/-- No ERROR is an ACK. -/
theorem ackMsg_ne_errorMsg (blk : UInt16) (ecode : TftpErrorcode) (emsg : Bytes) :
    errorMsg ecode emsg ≠ ackMsg blk := by
  intro same
  have opcode := congrArg opcodeOf same
  rw [opcodeOf_errorMsg, opcodeOf_ackMsg] at opcode
  exact absurd opcode (by decide)

/-- Without a session, or with one that is disabled, a block is not acknowledged. -/
theorem acked_enabled {st : Server} {d : Datagram} {c : Client} {blk : UInt16} {data : Bytes}
    (named : host.client d.src = some c) (bytes : d.bytes = dataMsg blk data)
    (short : data.length ≤ tftpDatalenMax) (acked : ∃ m ∈ (recv host st d).2, m.msg = ackMsg blk) :
    ∃ s, getSession st.seshead c = some s ∧ s.disabled = false := by
  obtain ⟨m, member, ack⟩ := acked
  cases found : getSession st.seshead c with
  | none =>
    have whole : d.bytes.length ≤ nwbufSize := by
      have sizes : tftpDatalenMax = 512 ∧ nwbufSize = 1024 := ⟨rfl, rfl⟩
      rw [bytes, dataMsg_length]
      omega
    obtain ⟨rest, rbuf, _, _⟩ := move_of_bytes st (newSession c ⟨[], .octet⟩ 0) whole
    have opcode : ofBe16 (st.receive d).rbuf = opData := by
      rw [rbuf, bytes, ofBe16_append rest (by rw [dataMsg_length]; omega)]
      exact opcodeOf_dataMsg _ _
    have list : getSession (st.receive d).seshead c = none := found
    have call : st.proc host d c = errsendNone .keep (st.receive d).ads .unknownId [] := by
      rw [Server.proc, list, tftpProc, opcode]
      rfl
    rw [errsendNone_eq .keep _ .unknownId empty_short] at call
    rw [recv_eq named, call, replyOf] at member
    dsimp only at member
    rw [if_neg Bool.noConfusion, List.mem_singleton] at member
    rw [member] at ack
    exact absurd ack (ackMsg_ne_errorMsg blk .unknownId _)
  | some s =>
    refine ⟨s, rfl, ?_⟩
    cases disabled : s.disabled with
    | false => rfl
    | true =>
      have handled := proc_handled host d found
      rw [recv_eq named, replyOf, handled.ok, handled.pointer] at member
      simp [handled.disabled disabled] at member

/-- A block in sequence is acknowledged exactly when it is stored. -/
theorem acked_iff_stored {st : Server} {d : Datagram} {c : Client} {s : Session} {dat : TftpData}
    (named : host.client d.src = some c) (found : getSession st.seshead c = some s)
    (enabled : s.disabled = false) (move : st.move d s = .store dat) :
    (∃ m ∈ (recv host st d).2, m.msg = ackMsg dat.blknum) ↔
      (putSessionData host.toVolume (s.noticed d.len) (st.receive d).ads dat.data).status = .done := by
  have call : st.proc host d c = storeBlock host.toVolume s (st.receive d).ads dat d.len d.now := by
    rw [proc_move found, move]
    rfl
  have handled := proc_handled host d found
  have only := (putSessionData_steps host.toVolume (s.noticed d.len) (st.receive d).ads dat.data).2.1
  have still : ((st.proc host d c).after s).disabled = false := by
    rw [call, storeBlock_eq]
    dsimp only
    split <;> exact only.disabled.trans enabled
  have replies : (recv host st d).2 =
      replyOf (st.proc host d c) d ((st.proc host d c).fill.getD st.msg) := by rw [recv_eq named]
  rw [replies, replyOf_handled d _ handled still, call]
  obtain ⟨_, ⟨done, fill, _⟩ | ⟨failed, fill, _⟩⟩ :=
    storeBlock_cases host.toVolume s (st.receive d).ads dat d.len d.now
  · rw [fill]
    exact ⟨fun _ => done, fun _ => ⟨_, List.mem_singleton.mpr rfl, rfl⟩⟩
  · rw [fill]
    refine ⟨?_, fun done => absurd done failed⟩
    rintro ⟨m, member, ack⟩
    rw [List.mem_singleton.mp member] at ack
    exact absurd ack (ackMsg_ne_errorMsg _ .accessDeny _)

end Iwtftpd
