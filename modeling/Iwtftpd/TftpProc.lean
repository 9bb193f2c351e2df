import Iwtftpd.Session

/-!
# TFTP process

`tftp_proc` on the receive buffer, for the session that `get_session` retrieved.
It changes at most that session, or links one new session before the head, and
it reads no other; so it is written as a function of that session alone, which
reports what becomes of the list. Its labels `resend` and `errsend` are
functions of their own.

The buffer `sinfo` outlives the call. A path that reaches `done` without having
made a message leaves `msgbuf` and `msglen` as some earlier call left them.
-/

namespace Iwtftpd

/-- Maximum number of resending counts. -/
abbrev resendCountmax : Nat := 3

/-- What becomes of the session list. -/
inductive Edit where
  | keep
  | update (s : Session)
  | insert (s : Session)
deriving DecidableEq

/-- The end of a call: the session list, `sinfo->ses`, the message put into `sinfo`
(`none` when it is left as it was), `IW_OK` or `IW_ERR`, and the datastore. -/
structure Proc where
  edit : Edit
  ses : Option Session
  fill : Option Bytes
  ok : Bool
  ds : IWDS

/-- The label `resend`. -/
def resend (ses : Session) (ds : IWDS) (now : Int) : Proc :=
  if ses.retrycount < resendCountmax then
    let ses := { ses with lastsending := now, retrycount := ses.retrycount + 1 }
    { edit := .update ses, ses := some ses, fill := some ses.lastmsg, ok := true, ds := ds }
  else
    let ses := { ses with disabled := true }
    { edit := .update ses, ses := some ses, fill := none, ok := true, ds := closeData ses ds }

/-- The label `errsend` without a session. -/
def errsendNone (edit : Edit) (ds : IWDS) (ecode : TftpErrorcode) (emsg : Bytes) : Proc :=
  match makeTftperrMsg ecode tftpMsglenMax emsg with
  | some msg => { edit := edit, ses := none, fill := some msg, ok := true, ds := ds }
  | none => { edit := edit, ses := none, fill := none, ok := false, ds := ds }

/-- The label `errsend` with a session, which `place` puts into the list. -/
def errsend (place : Session → Edit) (ses : Session) (ds : IWDS) (ecode : TftpErrorcode)
    (emsg : Bytes) : Proc :=
  let ses := { ses with fin := true }
  match makeTftperrMsg ecode tftpMsglenMax emsg with
  | some msg => { edit := place ses, ses := some ses, fill := some msg, ok := true, ds := ds }
  | none => { edit := place ses, ses := none, fill := none, ok := false, ds := ds }

/-- `create_session` with the fields that `add_newsession` sets. Without a client
socket the descriptor stays -1. -/
def newSession (client : Client) (req : TftpReq) (clsock : Int) : Session where
  clip := client.1
  clport := client.2
  clsock := clsock
  tftpmode := req.mode
  sesbuf := { pos := 0, fopt := false, datalen := 0, storage := List.replicate sessionBufsize 0 }
  filename := req.filename
  blknum := 0
  fin := false
  lastmsg := []
  lastsending := 0
  retrycount := 0
  disabled := false

/-- `OP_RRQ` and `OP_WRQ` after `add_newsession` returned a session. -/
def startTransfer (vol : Volume) (ses : Session) (ds : IWDS) (opcode : UInt16) (now : Int) :
    Proc :=
  if opcode = opRrq then
    match makeTftpdataMsg vol ses ds tftpMsglenMax now with
    | (some msg, ses, ds) =>
      { edit := .insert ses, ses := some ses, fill := some msg, ok := true, ds := ds }
    | (none, ses, ds) => errsend .insert ses ds .seeMsg serverError
  else
    match makeTftpackMsg ses 0 tftpMsglenMax now with
    | (some msg, ses) =>
      { edit := .insert ses, ses := some ses, fill := some msg, ok := true, ds := ds }
    | (none, ses) => errsend .insert ses ds .seeMsg serverError

/-- `OP_RRQ` and `OP_WRQ` without a session. The session is linked before the steps
of `add_newsession` that can fail, here summed up in `newsock`: the descriptor
that `create_socket` returns, or `none` when it or a step before it fails. -/
def opReq (vol : Volume) (ds : IWDS) (rbuf : Bytes) (dlen : Nat) (opcode : UInt16)
    (client : Client) (now : Int) (newsock : Option Int) : Proc :=
  match parseTftpreq rbuf dlen with
  | none => errsendNone .keep ds .illegalOpe []
  | some req =>
    match iwdsIsfile vol ds req.filename, decide (opcode = opWrq) with
    | .yes, true => errsendNone .keep ds .fileExist []
    | .no, false => errsendNone .keep ds .notFound []
    | _, _ =>
      match newsock with
      | none => errsendNone (.insert (newSession client req (-1))) ds .seeMsg serverError
      | some fd => startTransfer vol (newSession client req fd) ds opcode now

/-- `OP_DATA` for a block in sequence. -/
def storeBlock (vol : Volume) (ses : Session) (ds : IWDS) (dat : TftpData) (dlen : Nat)
    (now : Int) : Proc :=
  let ses := if dlen - 4 < tftpDatalenMax then { ses with fin := true } else ses
  let r := putSessionData vol ses ds dat.data
  match r.status with
  | .done =>
    let ds := if r.ses.fin then closeData r.ses r.ds else r.ds
    match makeTftpackMsg r.ses dat.blknum tftpMsglenMax now with
    | (some msg, ses) =>
      { edit := .update ses, ses := some ses, fill := some msg, ok := true, ds := ds }
    | (none, ses) => errsend .update ses ds .seeMsg serverError
  | _ => errsend .update r.ses r.ds .accessDeny []

/-- `OP_DATA`. -/
def opDataProc (vol : Volume) (ses : Session) (ds : IWDS) (rbuf : Bytes) (dlen : Nat)
    (now : Int) : Proc :=
  match parseTftpdata rbuf dlen with
  | none => errsend .update ses ds .illegalOpe []
  | some dat =>
    if dat.blknum = ses.blknum then resend ses ds now
    else if dat.blknum = nextBlk ses.blknum then storeBlock vol ses ds dat dlen now
    else errsend .update ses ds .illegalOpe []

/-- `OP_ACK` for the block the session waits on. -/
def nextData (vol : Volume) (ses : Session) (ds : IWDS) (now : Int) : Proc :=
  if ses.fin then
    let ses := { ses with disabled := true }
    { edit := .update ses, ses := some ses, fill := none, ok := true, ds := ds }
  else
    match makeTftpdataMsg vol ses ds tftpMsglenMax now with
    | (some msg, ses, ds) =>
      { edit := .update ses, ses := some ses, fill := some msg, ok := true, ds := ds }
    | (none, ses, ds) => errsend .update ses ds .seeMsg serverError

/-- `OP_ACK`. The previous block is computed in `int`, so block 0 has none. -/
def opAckProc (vol : Volume) (ses : Session) (ds : IWDS) (rbuf : Bytes) (dlen : Nat)
    (now : Int) : Proc :=
  match parseTftpack rbuf dlen with
  | none => errsend .update ses ds .illegalOpe []
  | some blk =>
    if (blk.toNat : Int) = ses.blknum.toNat - 1 then resend ses ds now
    else if blk = ses.blknum then nextData vol ses ds now
    else { edit := .keep, ses := some ses, fill := none, ok := true, ds := ds }

/-- `OP_ERROR`. What `parse_tftperror` makes of the message is only logged. -/
def opErrorProc (ses : Session) (ds : IWDS) : Proc :=
  let ses := { ses with disabled := true }
  { edit := .update ses, ses := some ses, fill := none, ok := true, ds := closeData ses ds }

/-- `tftp_proc` for the session that `get_session` retrieved. -/
def tftpProc (vol : Volume) (clses : Option Session) (ds : IWDS) (rbuf : Bytes) (dlen : Nat)
    (client : Client) (now : Int) (newsock : Option Int) : Proc :=
  let opcode := ofBe16 rbuf
  if opcode = opRrq ∨ opcode = opWrq then
    match clses with
    | some ses => resend ses ds now
    | none => opReq vol ds rbuf dlen opcode client now newsock
  else if opcode = opData then
    match clses with
    | some ses => opDataProc vol ses ds rbuf dlen now
    | none => errsendNone .keep ds .unknownId []
  else if opcode = opAck then
    match clses with
    | some ses => opAckProc vol ses ds rbuf dlen now
    | none => errsendNone .keep ds .unknownId []
  else if opcode = opError then
    match clses with
    | some ses => opErrorProc ses ds
    | none => { edit := .keep, ses := none, fill := none, ok := false, ds := ds }
  else { edit := .keep, ses := clses, fill := none, ok := true, ds := ds }

end Iwtftpd
