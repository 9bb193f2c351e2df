import Iwtftpd.Datastore
import Iwtftpd.Message

/-!
# A session, its buffer and the messages made for it

`struct session` with its `struct datastorage`, the transfer of bytes between
the buffer, the datastore and messages, and the encoders of DATA and ACK. A
pointer into `storage` is the index it points to. A session records no
direction: the same buffer serves reading and writing, and the functions below
interpret `pos` and `datalen` each in its own way.

The two transfer loops run on fuel. The fuel their callers give is never used
up; that is a theorem, so `running` is no outcome of the program.
-/

namespace Iwtftpd

/-- Size of the session buffer. -/
abbrev sessionBufsize : Nat := 8192

abbrev lf : UInt8 := 10
abbrev cr : UInt8 := 13

/-- Data storage for the session. -/
structure DataStorage where
  pos : Nat
  fopt : Bool
  datalen : Nat
  storage : Bytes
deriving DecidableEq

/-- IP address and port of a client. -/
abbrev Client := Bytes × UInt16

/-- `struct session`. The field `lastmsg` holds the first `lastmsglen` bytes of the
source's array. -/
structure Session where
  clip : Bytes
  clport : UInt16
  clsock : Int
  tftpmode : TftpMode
  sesbuf : DataStorage
  filename : Bytes
  blknum : UInt16
  fin : Bool
  lastmsg : Bytes
  lastsending : Int
  retrycount : Nat
  disabled : Bool
deriving DecidableEq

/-- What `get_session` compares. -/
def Session.key (s : Session) : Client := (s.clip, s.clport)

/-- The key of the session's datastore session. -/
def Session.dkey (s : Session) : Int × Bytes := (s.clsock, s.filename)

/-! ## I/O between the datastore -/

def closeData (ses : Session) (ds : IWDS) : IWDS := iwdsClose ds ses.clsock ses.filename

/-- `load_data`: whether it returns `IW_OK`. The length read is stored before the
error is looked at. -/
def loadData (vol : Volume) (ses : Session) (ds : IWDS) : Bool × Session × IWDS :=
  let r := iwdsRead vol ds ses.clsock ses.filename sessionBufsize
  let sb := { ses.sesbuf with
    storage := writeAt ses.sesbuf.storage 0 r.data
    datalen := r.data.length }
  match r.derr with
  | some _ => (false, { ses with sesbuf := sb }, closeData ses r.ds)
  | none => (true, { ses with sesbuf := { sb with pos := 0 } }, r.ds)

def saveData (vol : Volume) (ses : Session) (ds : IWDS) : Bool × Session × IWDS :=
  let w := iwdsWrite vol ds ses.clsock ses.filename
    (readAt ses.sesbuf.storage 0 ses.sesbuf.datalen)
  if w.derr ≠ none ∨ w.wlen ≠ ses.sesbuf.datalen then
    (false, ses, closeData ses w.ds)
  else
    (true, { ses with sesbuf := { ses.sesbuf with datalen := 0, pos := 0 } }, w.ds)

/-! ## Netascii -/

/-- `netascii_to_local`: the length consumed. Bytes are copied up to a CR, the end
of the payload or the end of the room left in the buffer; a CR found is skipped. -/
def netasciiToLocal (sb : DataStorage) (src : Bytes) : Nat × DataStorage × List Effect :=
  let window := src.take (sessionBufsize - sb.datalen)
  let plain := window.takeWhile (· ≠ cr)
  let sb' := { sb with
    storage := writeAt sb.storage sb.pos plain
    pos := sb.pos + plain.length
    datalen := sb.datalen + plain.length }
  (plain.length + (if plain.length < window.length then 1 else 0), sb',
    [.copyIn sb.pos plain.length])

/-- `local_to_netascii`: the bytes put into the destination. An LF becomes CR LF;
when only the CR fits, `fopt` records that the LF is still to come. -/
def localToNetascii (bufsize : Nat) (sb : DataStorage) : Bytes × DataStorage × List Effect :=
  let ahead := readAt sb.storage sb.pos (min bufsize sb.datalen)
  let plain := ahead.takeWhile (· ≠ lf)
  let sb' := { sb with pos := sb.pos + plain.length, datalen := sb.datalen - plain.length }
  let copied : Effect := .copyOut sb.pos plain.length
  let copiedLf : Effect := .copyOut (sb.pos + plain.length) 1
  if plain.length = ahead.length then (plain, sb', [copied])
  else if 2 ≤ bufsize - plain.length then
    let sb'' := { sb' with pos := sb'.pos + 1, datalen := sb'.datalen - 1 }
    if sb.fopt then (plain ++ [lf], { sb'' with fopt := false }, [copiedLf, copied])
    else (plain ++ [cr, lf], sb'', [copiedLf, copied])
  else (plain ++ [cr], { sb' with fopt := true }, [copied])

/-! ## The session buffer -/

/-- How a transfer loop ends. `running` means that the fuel is used up. -/
inductive Loop where
  | done
  | err
  | running
deriving DecidableEq

def IWDS.noteAll (ds : IWDS) (es : List Effect) : IWDS := { ds with trace := es ++ ds.trace }

inductive Refill where
  | failed
  | eof
  | ready
deriving DecidableEq

/-- The check of the session buffer at the head of the loop of `get_session_data`. -/
def refill (vol : Volume) (ses : Session) (ds : IWDS) : Refill × Session × IWDS :=
  if ses.sesbuf.datalen = 0 then
    match loadData vol ses ds with
    | (false, ses, ds) => (.failed, ses, ds)
    | (true, ses, ds) => (if ses.sesbuf.datalen = 0 then .eof else .ready, ses, ds)
  else (.ready, ses, ds)

/-- One copy out of the buffer, in the mode of the session. -/
def takePiece (ses : Session) (ds : IWDS) (dstbufsize : Nat) : Bytes × Session × IWDS :=
  let sb := ses.sesbuf
  match ses.tftpmode with
  | .octet =>
    let len := if sb.datalen < dstbufsize then sb.datalen else dstbufsize
    (readAt sb.storage sb.pos len,
      { ses with sesbuf := { sb with pos := sb.pos + len, datalen := sb.datalen - len } },
      ds.noteAll [.copyOut sb.pos len])
  | .netascii =>
    let (piece, sb, effects) := localToNetascii dstbufsize sb
    (piece, { ses with sesbuf := sb }, ds.noteAll effects)

/-- The end of `get_session_data`: how it ended, what it put into the destination,
the session and the datastore. -/
structure GetReply where
  status : Loop
  out : Bytes
  ses : Session
  ds : IWDS

/-- The loop of `get_session_data`. -/
def getLoop (vol : Volume) : Nat → Session → IWDS → Nat → Bytes → GetReply
  | 0, ses, ds, _, out => { status := .running, out := out, ses := ses, ds := ds }
  | fuel + 1, ses, ds, dstbufsize, out =>
    match refill vol ses ds with
    | (.failed, ses, ds) => { status := .err, out := out, ses := ses, ds := ds }
    | (.eof, ses, ds) => { status := .done, out := out, ses := ses, ds := ds }
    | (.ready, ses, ds) =>
      match takePiece ses ds dstbufsize with
      | (piece, ses, ds) =>
        if piece.length < dstbufsize then
          getLoop vol fuel ses ds (dstbufsize - piece.length) (out ++ piece)
        else
          { status := .done, out := out ++ piece, ses := ses, ds := ds }

def getSessionData (vol : Volume) (ses : Session) (ds : IWDS) (dstbufsize : Nat) : GetReply :=
  getLoop vol (dstbufsize + 1) ses ds dstbufsize []

/-- One copy into the buffer, in the mode of the session: the length consumed. -/
def putPiece (ses : Session) (ds : IWDS) (data : Bytes) : Nat × Session × IWDS :=
  let sb := ses.sesbuf
  match ses.tftpmode with
  | .octet =>
    let src := data.take (sessionBufsize - sb.datalen)
    (src.length,
      { ses with sesbuf := { sb with
          storage := writeAt sb.storage sb.pos src
          pos := sb.pos + src.length
          datalen := sb.datalen + src.length } },
      ds.noteAll [.copyIn sb.pos src.length])
  | .netascii =>
    let (len, sb, effects) := netasciiToLocal sb data
    (len, { ses with sesbuf := sb }, ds.noteAll effects)

/-- The end of `put_session_data`. -/
structure PutReply where
  status : Loop
  ses : Session
  ds : IWDS

/-- The check at the foot of the loop of `put_session_data`: the buffer is full, or
the transfer is at its end. -/
def flush (vol : Volume) (ses : Session) (ds : IWDS) : Bool × Session × IWDS :=
  if ses.sesbuf.datalen = sessionBufsize ∨ ses.fin = true then saveData vol ses ds
  else (true, ses, ds)

/-- The loop of `put_session_data`. -/
def putLoop (vol : Volume) : Nat → Session → IWDS → Bytes → PutReply
  | 0, ses, ds, _ => { status := .running, ses := ses, ds := ds }
  | fuel + 1, ses, ds, data =>
    match putPiece ses ds data with
    | (len, ses, ds) =>
      match flush vol ses ds with
      | (false, ses, ds) => { status := .err, ses := ses, ds := ds }
      | (true, ses, ds) =>
        if len < data.length then putLoop vol fuel ses ds (data.drop len)
        else { status := .done, ses := ses, ds := ds }

def putSessionData (vol : Volume) (ses : Session) (ds : IWDS) (data : Bytes) : PutReply :=
  if ses.sesbuf.datalen = 0 ∧ data.length = 0 then { status := .done, ses := ses, ds := ds }
  else putLoop vol (data.length + 2) ses ds data

/-! ## Messages for a session -/

/-- The block number that follows. -/
def nextBlk (blknum : UInt16) : UInt16 := if blknum < tftpBlknumMax then blknum + 1 else 0

/-- Keep a message for resending. -/
def Session.sent (ses : Session) (msg : Bytes) (now : Int) : Session :=
  { ses with lastmsg := msg, lastsending := now, retrycount := 0 }

/-- The check for the end of a file in `make_tftpdata_msg`. -/
def finIfShort (ses : Session) (ds : IWDS) (data : Bytes) : Session × IWDS :=
  if data.length < tftpDatalenMax then ({ ses with fin := true }, closeData ses ds)
  else (ses, ds)

/-- `make_tftpdata_msg`: the message, or `none` for `IW_ERR`. -/
def makeTftpdataMsg (vol : Volume) (ses : Session) (ds : IWDS) (bufsize : Nat) (now : Int) :
    Option Bytes × Session × IWDS :=
  if bufsize < tftpMsglenMax then (none, ses, ds)
  else
    let r := getSessionData vol { ses with blknum := nextBlk ses.blknum } ds tftpDatalenMax
    match r.status with
    | .done =>
      let (ses, ds) := finIfShort r.ses r.ds r.out
      let msg := dataMsg ses.blknum r.out
      (some msg, ses.sent msg now, ds)
    | _ => (none, r.ses, r.ds)

/-- `make_tftpack_msg`. -/
def makeTftpackMsg (ses : Session) (blk : UInt16) (bufsize : Nat) (now : Int) :
    Option Bytes × Session :=
  if bufsize < 2 + 2 then (none, ses)
  else (some (ackMsg blk), { ses with blknum := blk }.sent (ackMsg blk) now)

end Iwtftpd
