import Iwtftpd.Util

/-!
# TFTP messages

The formats of `tftp.h` with their parsers and the encoder of ERROR. A parser is
given the whole receive buffer and the length of the datagram. The parsers of
requests and errors look for the terminators of their fields up to the maximum
size of a field, not up to the end of the datagram.
-/

namespace Iwtftpd

/-! ## Constants of the protocol -/

abbrev tftpBlknumMax : UInt16 := 65535
abbrev tftpFilenameMax : Nat := 256
abbrev tftpModenameMax : Nat := 9
abbrev tftpDatalenMax : Nat := 512
abbrev tftpEmsglenMax : Nat := 256

/-- Opcode, block number and data. -/
abbrev tftpMsglenMax : Nat := 2 + 2 + tftpDatalenMax

/-! `enum TFTP_OPCODE` -/

abbrev opRrq : UInt16 := 1
abbrev opWrq : UInt16 := 2
abbrev opData : UInt16 := 3
abbrev opAck : UInt16 := 4
abbrev opError : UInt16 := 5

/-- `enum TFTP_ERRORCODE`. -/
inductive TftpErrorcode where
  | seeMsg
  | notFound
  | accessDeny
  | diskFull
  | illegalOpe
  | unknownId
  | fileExist
  | noUser
deriving DecidableEq

/-- The codes as RFC 1350 numbers them. -/
def TftpErrorcode.code : TftpErrorcode → UInt16
  | .seeMsg => 0
  | .notFound => 1
  | .accessDeny => 2
  | .diskFull => 3
  | .illegalOpe => 4
  | .unknownId => 5
  | .fileExist => 6
  | .noUser => 7

/-- TFTP error messages. -/
def errmsgs : TftpErrorcode → Bytes
  | .seeMsg => ascii ""
  | .notFound => ascii "file not found"
  | .accessDeny => ascii "access violation"
  | .diskFull => ascii "disk full or allocation exceeded"
  | .illegalOpe => ascii "illegal tftp operation"
  | .unknownId => ascii "unknown transfer id"
  | .fileExist => ascii "file already exists"
  | .noUser => ascii "no such user"

/-- What `emsgbuf` holds where the code fills it. -/
def serverError : Bytes := ascii "server error"

/-- TFTP modes. -/
inductive TftpMode where
  | netascii
  | octet
deriving DecidableEq

/-- `IS_NETASCII` and `IS_OCTET`, the only names of modes. -/
def TftpMode.name : TftpMode → Bytes
  | .netascii => ascii "netascii"
  | .octet => ascii "octet"

/-! ## Parsing -/

/-- The C string that starts at an offset, when its NUL is among the first
`fieldmax` bytes. -/
def parseField (msg : Bytes) (start fieldmax : Nat) : Option Bytes :=
  let field := (msg.drop start).take fieldmax
  if (0 : UInt8) ∈ field then some (cstr field) else none

/-- TFTP request format. -/
structure TftpReq where
  filename : Bytes
  mode : TftpMode
deriving DecidableEq

/-- `parse_tftpreq`: opcode, name and mode. The two strings are looked for up to the length of
their fields, and not up to the end of the message. -/
def parseTftpreq (msg : Bytes) (msglen : Nat) : Option TftpReq :=
  if msglen < 2 + 2 + 5 + 1 then none
  else if ofBe16 msg ≠ opRrq ∧ ofBe16 msg ≠ opWrq then none
  else
    match parseField msg 2 tftpFilenameMax with
    | none => none
    | some filename =>
      match parseField msg (2 + filename.length + 1) tftpModenameMax with
      | none => none
      | some mode =>
        if mode = TftpMode.netascii.name then some { filename := filename, mode := .netascii }
        else if mode = TftpMode.octet.name then some { filename := filename, mode := .octet }
        else none

/-- TFTP DATA format. -/
structure TftpData where
  blknum : UInt16
  data : Bytes
deriving DecidableEq

/-- `parse_tftpdata`: the payload is what lies between the four bytes of the header and the end of
the message, at most 512 bytes of it. -/
def parseTftpdata (msg : Bytes) (msglen : Nat) : Option TftpData :=
  if msglen < 4 ∨ tftpDatalenMax < msglen - 4 then none
  else if ofBe16 msg ≠ opData then none
  else some { blknum := ofBe16 (msg.drop 2), data := (msg.drop 4).take (msglen - 4) }

/-- The block number of an ACK. -/
def parseTftpack (msg : Bytes) (msglen : Nat) : Option UInt16 :=
  if msglen ≠ 4 then none
  else if ofBe16 msg ≠ opAck then none
  else some (ofBe16 (msg.drop 2))

/-- TFTP ERROR format. -/
structure TftpError where
  errcode : UInt16
  errmsg : Bytes
deriving DecidableEq

/-- `parse_tftperror`: code and text. The text has to end within the message. -/
def parseTftperror (msg : Bytes) (msglen : Nat) : Option TftpError :=
  if msglen < 5 then none
  else if ofBe16 msg ≠ opError then none
  else
    match parseField msg 4 tftpEmsglenMax with
    | none => none
    | some errmsg => some { errcode := ofBe16 (msg.drop 2), errmsg := errmsg }

/-! ## Messages as they are sent -/

/-- A DATA of a block. -/
def dataMsg (blknum : UInt16) (data : Bytes) : Bytes := be16 opData ++ be16 blknum ++ data

/-- An ACK of a block. -/
def ackMsg (blknum : UInt16) : Bytes := be16 opAck ++ be16 blknum

/-- An ERROR with its text and terminator. -/
def errorMsg (ecode : TftpErrorcode) (emsg : Bytes) : Bytes :=
  be16 opError ++ be16 ecode.code ++ emsg ++ [0]

/-- A request as a client sends it. -/
def reqMsg (opcode : UInt16) (filename : Bytes) (mode : TftpMode) : Bytes :=
  be16 opcode ++ filename ++ [0] ++ mode.name ++ [0]

/-- `make_tftperr_msg`: the table's text unless the code is `TFTP_ERR_SEEMSG`. -/
def makeTftperrMsg (ecode : TftpErrorcode) (bufsize : Nat) (emsg : Bytes) : Option Bytes :=
  let emsg := if ecode = .seeMsg then emsg else errmsgs ecode
  if bufsize - 4 < emsg.length + 1 then none else some (errorMsg ecode emsg)

/-- The opcode of a message. -/
def opcodeOf (msg : Bytes) : UInt16 := ofBe16 msg

/-- The opcode is read back from each of the three messages. -/
@[simp] theorem opcodeOf_dataMsg (blknum : UInt16) (data : Bytes) :
    opcodeOf (dataMsg blknum data) = opData := by
  simp [opcodeOf, dataMsg]

@[simp] theorem opcodeOf_ackMsg (blknum : UInt16) : opcodeOf (ackMsg blknum) = opAck := by
  simp [opcodeOf, ackMsg]

@[simp] theorem opcodeOf_errorMsg (ecode : TftpErrorcode) (emsg : Bytes) :
    opcodeOf (errorMsg ecode emsg) = opError := by
  simp [opcodeOf, errorMsg]

/-- Every text of the table fits a message. -/
theorem errmsgs_fit (ecode : TftpErrorcode) : (errmsgs ecode).length + 1 ≤ tftpEmsglenMax := by
  cases ecode <;> decide

/-- The texts that `tftp_proc` passes always fit its buffer. -/
theorem makeTftperrMsg_eq {ecode : TftpErrorcode} {emsg : Bytes}
    (short : emsg.length < tftpEmsglenMax) :
    makeTftperrMsg ecode tftpMsglenMax emsg =
      some (errorMsg ecode (if ecode = .seeMsg then emsg else errmsgs ecode)) := by
  have fits := errmsgs_fit ecode
  simp only [tftpEmsglenMax] at short fits
  simp only [makeTftperrMsg, tftpMsglenMax, tftpDatalenMax]
  rw [if_neg]
  split <;> omega

end Iwtftpd
