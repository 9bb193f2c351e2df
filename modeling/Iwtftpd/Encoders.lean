import Iwtftpd.Acks
import Iwtftpd.JoinPath
import Iwtftpd.Transfers

/-!
# The encoders over memory

`make_tftpdata_msg`, `make_tftpack_msg` and `make_tftperr_msg` as they store into
the buffer they are given, with the room of `make_tftperr_msg` computed in
unsigned arithmetic. What they leave there is read back by the parser of its
kind, whatever lies behind it in the buffer, and by neither of the others.
-/

namespace Iwtftpd

open Buffers

/-! ## Storing -/

/-- `make_tftpdata_msg`: the length it returns (`none` for `IW_ERR`), the buffer, the session
and the datastore. `get_session_data` stores at the data field what it delivers, also when it
fails later. -/
def Buf.makeTftpdataMsg (memory : Nat → UInt8) (vol : Volume) (ses : Session) (ds : IWDS)
    (bufsize : UInt64) (now : Int) : Option Nat × Buf × Session × IWDS :=
  if bufsize.toNat < tftpMsglenMax then (none, fresh memory, ses, ds)
  else
    let buf := (fresh memory).copy 0 (be16 opData)
    let ses := { ses with blknum := nextBlk ses.blknum }
    let buf := buf.copy 2 (be16 ses.blknum)
    let r := getSessionData vol ses ds tftpDatalenMax
    let buf := buf.copy 4 r.out
    match r.status with
    | .done =>
      let (ses, ds) := finIfShort r.ses r.ds r.out
      let msglen := 2 * 2 + r.out.length
      (some msglen, buf, ses.sent (buf.read 0 msglen) now, ds)
    | _ => (none, buf, r.ses, r.ds)

/-- `make_tftpack_msg`. -/
def Buf.makeTftpackMsg (memory : Nat → UInt8) (ses : Session) (blk : UInt16) (bufsize : UInt64)
    (now : Int) : Option Nat × Buf × Session :=
  if bufsize.toNat < 2 + 2 then (none, fresh memory, ses)
  else
    let buf := (fresh memory).copy 0 (be16 opAck)
    let ses := { ses with blknum := blk }
    let buf := buf.copy 2 (be16 ses.blknum)
    let msglen := 2 * 2
    (some msglen, buf, ses.sent (buf.read 0 msglen) now)

/-- `make_tftperr_msg`. The difference is unsigned. -/
def Buf.makeTftperrMsg (memory : Nat → UInt8) (ecode : TftpErrorcode) (bufsize : UInt64) (emsg : Bytes) :
    Option Nat × Buf :=
  let buf := (fresh memory).copy 0 (be16 opError)
  let buf := buf.copy 2 (be16 ecode.code)
  let emsg := if ecode ≠ .seeMsg then errmsgs ecode else emsg
  if (bufsize - 2 * 2).toNat < emsg.length + 1 then (none, buf)
  else (some (2 * 2 + emsg.length + 1), buf.copy 4 (emsg ++ [0]))

/-! ## What is stored -/

/-- The first four bytes of a message. -/
theorem header_filled (memory : Nat → UInt8) (opcode number : UInt16) :
    Buffer.Filled (((fresh memory).copy 0 (be16 opcode)).copy 2 (be16 number))
      (be16 opcode ++ be16 number) :=
  ((Buffer.filled_fresh memory).copy_end (be16 opcode)).copy_end (be16 number)

/-- A message and what follows its header. -/
theorem message_filled (memory : Nat → UInt8) (opcode number : UInt16) (rest : Bytes) :
    Buffer.Filled ((((fresh memory).copy 0 (be16 opcode)).copy 2 (be16 number)).copy 4 rest)
      (be16 opcode ++ be16 number ++ rest) :=
  (header_filled memory opcode number).copy_end rest

/-- Store by store, `make_tftpdata_msg` is what its summary says. -/
theorem Buf.makeTftpdataMsg_eq (memory : Nat → UInt8) (vol : Volume) (ses : Session) (ds : IWDS)
    (bufsize : UInt64) (now : Int) :
    let r := Buf.makeTftpdataMsg memory vol ses ds bufsize now
    (r.1.map (r.2.1.read 0), r.2.2) = Iwtftpd.makeTftpdataMsg vol ses ds bufsize.toNat now := by
  rw [Buf.makeTftpdataMsg, Iwtftpd.makeTftpdataMsg]
  by_cases short : bufsize.toNat < tftpMsglenMax
  · rw [if_pos short, if_pos short]
    rfl
  · rw [if_neg short, if_neg short]
    have only := (getSessionData_steps vol { ses with blknum := nextBlk ses.blknum } ds tftpDatalenMax).2.1
    dsimp only
    generalize getSessionData vol { ses with blknum := nextBlk ses.blknum } ds tftpDatalenMax = r at only ⊢
    have blknum : r.ses.blknum = nextBlk ses.blknum := only.blknum
    have held := (message_filled memory opData (nextBlk ses.blknum) r.out).held
    rw [← dataMsg, dataMsg_length, Nat.add_comm] at held
    cases status : r.status with
    | done =>
      have same := (finIfShort_steps vol r.ses r.ds r.out).2
      dsimp only
      rw [Option.map_some, held, same]
      dsimp only
      rw [blknum]
    | err | running => rfl

/-- Store by store, `make_tftpack_msg` is what its summary says. -/
theorem Buf.makeTftpackMsg_eq (memory : Nat → UInt8) (ses : Session) (blk : UInt16) (bufsize : UInt64)
    (now : Int) :
    let r := Buf.makeTftpackMsg memory ses blk bufsize now
    (r.1.map (r.2.1.read 0), r.2.2) = Iwtftpd.makeTftpackMsg ses blk bufsize.toNat now := by
  have held := (header_filled memory opAck blk).held
  rw [← ackMsg, ackMsg_length] at held
  rw [Buf.makeTftpackMsg, Iwtftpd.makeTftpackMsg]
  by_cases short : bufsize.toNat < 2 + 2
  · rw [if_pos short, if_pos short]
    rfl
  · rw [if_neg short, if_neg short]
    dsimp only
    rw [Option.map_some, held]

/-- The room that `make_tftperr_msg` computes, when there is room for a header. -/
theorem room_toNat {bufsize : UInt64} (room : 4 ≤ bufsize.toNat) :
    (bufsize - 2 * 2).toNat = bufsize.toNat - 4 := by
  have four : (2 * 2 : UInt64) ≤ bufsize := UInt64.le_iff_toNat_le.mpr room
  rw [UInt64.toNat_sub_of_le bufsize (2 * 2) four]
  rfl

/-- The text of an ERROR message: the given one for code 0, otherwise the table's. -/
def errorText (ecode : TftpErrorcode) (emsg : Bytes) : Bytes :=
  if ecode = .seeMsg then emsg else errmsgs ecode

/-- The length of an ERROR. -/
theorem errorMsg_length (ecode : TftpErrorcode) (text : Bytes) :
    (errorMsg ecode text).length = 2 * 2 + text.length + 1 := by
  simp only [errorMsg, List.length_append, be16_length, List.length_singleton]

/-- Store by store, `make_tftperr_msg` is what its summary says. -/
theorem Buf.makeTftperrMsg_eq (memory : Nat → UInt8) (ecode : TftpErrorcode) {bufsize : UInt64} (emsg : Bytes)
    (room : 4 ≤ bufsize.toNat) :
    let r := Buf.makeTftperrMsg memory ecode bufsize emsg
    r.1.map (r.2.read 0) = Iwtftpd.makeTftperrMsg ecode bufsize.toNat emsg := by
  have held := (message_filled memory opError ecode.code (errorText ecode emsg ++ [0])).held
  rw [← List.append_assoc, ← errorMsg, errorMsg_length] at held
  rw [Buf.makeTftperrMsg, Iwtftpd.makeTftperrMsg, ite_not, ← errorText, room_toNat room]
  dsimp only
  by_cases long : bufsize.toNat - 4 < (errorText ecode emsg).length + 1
  · rw [if_pos long, if_pos long]
    rfl
  · rw [if_neg long, if_neg long, Option.map_some, held]

/-! ## Parsing -/

/-- The opcode is read from the message. -/
theorem opcodeOf_append {msg : Bytes} (rest : Bytes) (long : 2 ≤ msg.length) :
    opcodeOf (msg ++ rest) = opcodeOf msg := ofBe16_append rest long

/-- A parser turns away what has another opcode. -/
theorem parseTftpdata_other {msg : Bytes} (msglen : Nat) (other : opcodeOf msg ≠ opData) :
    parseTftpdata msg msglen = none := by
  rw [parseTftpdata]
  split
  · rfl
  · exact if_pos other

theorem parseTftpack_other {msg : Bytes} (msglen : Nat) (other : opcodeOf msg ≠ opAck) :
    parseTftpack msg msglen = none := by
  rw [parseTftpack]
  split
  · rfl
  · exact if_pos other

theorem parseTftperror_other {msg : Bytes} (msglen : Nat) (other : opcodeOf msg ≠ opError) :
    parseTftperror msg msglen = none := by
  rw [parseTftperror]
  split
  · rfl
  · exact if_pos other

/-- An ERROR message is read back, whatever lies behind it. -/
theorem parseTftperror_errorMsg (ecode : TftpErrorcode) {text : Bytes} (rest : Bytes)
    (free : (0 : UInt8) ∉ text) (short : text.length < tftpEmsglenMax) :
    parseTftperror (errorMsg ecode text ++ rest) (errorMsg ecode text).length =
      some { errcode := ecode.code, errmsg := text } := by
  have laid : errorMsg ecode text ++ rest = (be16 opError ++ be16 ecode.code) ++ (text ++ 0 :: rest) := by
    simp only [errorMsg, List.append_assoc, List.singleton_append]
  have opcode : ofBe16 (errorMsg ecode text ++ rest) = opError := by
    rw [laid, List.append_assoc]
    exact ofBe16_be16 opError _
  have code : ofBe16 ((errorMsg ecode text ++ rest).drop 2) = ecode.code := by
    rw [laid]
    exact ofBe16_be16 ecode.code _
  have field : parseField (errorMsg ecode text ++ rest) 4 tftpEmsglenMax = some text := by
    rw [laid]
    exact parseField_laid (be16 opError ++ be16 ecode.code) rest free short
  rw [parseTftperror, opcode, code, field, errorMsg_length, if_neg (by omega), if_neg (not_not.mpr rfl)]

/-- What the three parsers make of a message, whatever lies behind it in the buffer. -/
structure Parsed (msg : Bytes) (data : Option TftpData) (ack : Option UInt16) (error : Option TftpError) :
    Prop where
  data : ∀ rest, parseTftpdata (msg ++ rest) msg.length = data
  ack : ∀ rest, parseTftpack (msg ++ rest) msg.length = ack
  error : ∀ rest, parseTftperror (msg ++ rest) msg.length = error

/-- A DATA is read back by the parser for DATA, and by no other. -/
theorem dataMsg_parsed (blk : UInt16) {data : Bytes} (short : data.length ≤ tftpDatalenMax) :
    Parsed (dataMsg blk data) (some { blknum := blk, data := data }) none none := by
  have opcode (rest : Bytes) : opcodeOf (dataMsg blk data ++ rest) = opData := by
    rw [opcodeOf_append rest (by rw [dataMsg_length]; omega), opcodeOf_dataMsg]
  constructor
  · exact fun rest => parseTftpdata_dataMsg blk rest short
  · exact fun rest => parseTftpack_other _ (by rw [opcode]; decide)
  · exact fun rest => parseTftperror_other _ (by rw [opcode]; decide)

/-- An ACK is read back by the parser for ACK, and by no other. -/
theorem ackMsg_parsed (blk : UInt16) : Parsed (ackMsg blk) none (some blk) none := by
  have opcode (rest : Bytes) : opcodeOf (ackMsg blk ++ rest) = opAck := by
    rw [opcodeOf_append rest (by rw [ackMsg_length]; decide), opcodeOf_ackMsg]
  constructor
  · exact fun rest => parseTftpdata_other _ (by rw [opcode]; decide)
  · exact fun rest => parseTftpack_ackMsg blk rest
  · exact fun rest => parseTftperror_other _ (by rw [opcode]; decide)

/-- An ERROR is read back by the parser for ERROR, and by no other. -/
theorem errorMsg_parsed (ecode : TftpErrorcode) {text : Bytes} (free : (0 : UInt8) ∉ text)
    (short : text.length < tftpEmsglenMax) :
    Parsed (errorMsg ecode text) none none (some { errcode := ecode.code, errmsg := text }) := by
  have opcode (rest : Bytes) : opcodeOf (errorMsg ecode text ++ rest) = opError := by
    rw [opcodeOf_append rest (by rw [errorMsg_length]; omega), opcodeOf_errorMsg]
  constructor
  · exact fun rest => parseTftpdata_other _ (by rw [opcode]; decide)
  · exact fun rest => parseTftpack_other _ (by rw [opcode]; decide)
  · exact fun rest => parseTftperror_errorMsg ecode rest free short

/-- The texts of the table are strings. -/
theorem errmsgs_free (ecode : TftpErrorcode) : (0 : UInt8) ∉ errmsgs ecode := by
  cases ecode <;> decide

/-! ## Encoders and parsers -/

/-- What is asked of an encoder: it stores inside its buffer, and the length it returns, if any,
is one for which the parsers read what is given. -/
structure Encodes (bufsize : UInt64) (made : Option Nat) (buf : Buf) (data : Option TftpData)
    (ack : Option UInt16) (error : Option TftpError) : Prop where
  inside : buf.Inside bufsize.toNat
  fits : ∀ n, made = some n → n ≤ bufsize.toNat
  parsed : ∀ n, made = some n → Parsed (buf.read 0 n) data ack error

variable {bufsize : UInt64} {buf : Buf} {data : Option TftpData} {ack : Option UInt16}
  {error : Option TftpError}

/-- An encoder that fails has only to stay inside its buffer. -/
theorem encodes_none {stored : Bytes} (filled : buf.Filled stored) (fits : stored.length ≤ bufsize.toNat) :
    Encodes bufsize none buf data ack error :=
  ⟨(filled.inside_iff bufsize.toNat).mpr fits, nofun, nofun⟩

/-- An encoder that leaves a whole message and returns its length. -/
theorem encodes_some {n : Nat} {msg : Bytes} (filled : buf.Filled msg) (length : msg.length = n)
    (fits : n ≤ bufsize.toNat) (parsed : Parsed msg data ack error) :
    Encodes bufsize (some n) buf data ack error := by
  subst length
  refine ⟨(filled.inside_iff bufsize.toNat).mpr fits, ?_, ?_⟩
  · rintro _ ⟨⟩
    exact fits
  · rintro _ ⟨⟩
    rw [filled.held]
    exact parsed

variable (memory : Nat → UInt8) (vol : Volume) (ses : Session) (ds : IWDS) (bufsize : UInt64) (now : Int)

/-- What `get_session_data` delivers for the next block. -/
def payload (vol : Volume) (ses : Session) (ds : IWDS) : GetReply :=
  getSessionData vol { ses with blknum := nextBlk ses.blknum } ds tftpDatalenMax

/-- `get_session_data` stays inside the data field, and reports a length or a failed load. -/
theorem payload_ends :
    (payload vol ses ds).out.length ≤ tftpDatalenMax ∧
      ((payload vol ses ds).status = .done ∨ (payload vol ses ds).status = .err) := by
  obtain ⟨how, run⟩ := getSessionData_runs vol { ses with blknum := nextBlk ses.blknum } ds
    (by decide : 0 < tftpDatalenMax)
  have length := run.length.1
  have status := run.status
  rw [List.length_nil, Nat.zero_add] at length
  refine ⟨length, ?_⟩
  rw [payload, status]
  split
  · exact .inr rfl
  · exact .inl rfl

/-- `make_tftpdata_msg` stores within its buffer, and what it has made is read back. -/
theorem Buf.makeTftpdataMsg_encodes :
    Encodes bufsize (Buf.makeTftpdataMsg memory vol ses ds bufsize now).1
      (Buf.makeTftpdataMsg memory vol ses ds bufsize now).2.1
      (some { blknum := nextBlk ses.blknum, data := (payload vol ses ds).out }) none none := by
  rw [Buf.makeTftpdataMsg]
  by_cases short : bufsize.toNat < tftpMsglenMax
  · rw [if_pos short]
    exact encodes_none (Buffer.filled_fresh memory) (Nat.zero_le _)
  · obtain ⟨length, -⟩ := payload_ends vol ses ds
    rw [if_neg short]
    dsimp only
    rw [← payload]
    generalize payload vol ses ds = r at length ⊢
    have filled := message_filled memory opData (nextBlk ses.blknum) r.out
    have room : (dataMsg (nextBlk ses.blknum) r.out).length ≤ bufsize.toNat := by
      have size : tftpMsglenMax = tftpDatalenMax + 4 := rfl
      rw [dataMsg_length]
      omega
    cases status : r.status with
    | done =>
      have returned : (dataMsg (nextBlk ses.blknum) r.out).length = 2 * 2 + r.out.length := by
        rw [dataMsg_length, Nat.add_comm]
      exact encodes_some filled returned (returned ▸ room) (dataMsg_parsed (nextBlk ses.blknum) length)
    | err | running => exact encodes_none filled room

/-- With room for a whole message only a load that fails keeps it from making one. -/
theorem Buf.makeTftpdataMsg_made (room : tftpMsglenMax ≤ bufsize.toNat) :
    (Buf.makeTftpdataMsg memory vol ses ds bufsize now).1 = none ↔ (payload vol ses ds).status = .err := by
  obtain ⟨-, ends⟩ := payload_ends vol ses ds
  rw [Buf.makeTftpdataMsg, if_neg (Nat.not_lt.mpr room)]
  dsimp only
  rw [← payload]
  obtain done | err := ends
  · rw [done]
    exact iff_of_false nofun nofun
  · rw [err]
    exact iff_of_true rfl rfl

/-- `make_tftpack_msg` stores within its buffer, and what it has made is read back. -/
theorem Buf.makeTftpackMsg_encodes (blk : UInt16) :
    Encodes bufsize (Buf.makeTftpackMsg memory ses blk bufsize now).1
      (Buf.makeTftpackMsg memory ses blk bufsize now).2.1 none (some blk) none := by
  rw [Buf.makeTftpackMsg]
  by_cases short : bufsize.toNat < 2 + 2
  · rw [if_pos short]
    exact encodes_none (Buffer.filled_fresh memory) (Nat.zero_le _)
  · rw [if_neg short]
    exact encodes_some (header_filled memory opAck blk) (ackMsg_length blk) (Nat.not_lt.mp short)
      (ackMsg_parsed blk)

/-- `make_tftperr_msg` stores within its buffer, and what it has made is read back. The room for
the text is a difference in `size_t`, so the buffer must hold a header. -/
theorem Buf.makeTftperrMsg_encodes (ecode : TftpErrorcode) {emsg : Bytes} (room : 4 ≤ bufsize.toNat)
    (free : (0 : UInt8) ∉ errorText ecode emsg) (short : (errorText ecode emsg).length < tftpEmsglenMax) :
    Encodes bufsize (Buf.makeTftperrMsg memory ecode bufsize emsg).1
      (Buf.makeTftperrMsg memory ecode bufsize emsg).2 none none
      (some { errcode := ecode.code, errmsg := errorText ecode emsg }) := by
  have filled := message_filled memory opError ecode.code (errorText ecode emsg ++ [0])
  rw [← List.append_assoc, ← errorMsg] at filled
  rw [Buf.makeTftperrMsg, ite_not, ← errorText, room_toNat room]
  by_cases long : bufsize.toNat - 4 < (errorText ecode emsg).length + 1
  · rw [if_pos long]
    exact encodes_none (header_filled memory opError ecode.code) room
  · rw [if_neg long]
    exact encodes_some filled (errorMsg_length _ _) (by omega) (errorMsg_parsed ecode free short)

/-- Every block number occurs with every payload that fits, in a session that reads a file with
just that content. -/
theorem payload_reached (blk : UInt16) {contents : Bytes} (short : contents.length ≤ tftpDatalenMax) :
    ∃ vol ses ds, nextBlk ses.blknum = blk ∧ (payload vol ses ds).status = .done ∧
      (payload vol ses ds).out = contents := by
  let ses : Session := { newSession ([1], 2000) ⟨ascii "f", .octet⟩ 5 with blknum := blk - 1 }
  let ds : IWDS := { dhead := [], disk := fun _ => .regular contents, faults := [], trace := [] }
  have next : nextBlk ses.blknum = blk := by
    rw [nextBlk_eq]
    exact UInt16.sub_add_cancel blk 1
  have reading : Reading srvVolume contents { ses with blknum := nextBlk ses.blknum } ds contents :=
    ⟨newSession_fits ([1], 2000) ⟨ascii "f", .octet⟩ 5, Nat.zero_le _, rfl, rfl⟩
  obtain ⟨status, out, -⟩ := reading.getLoop (tftpDatalenMax + 1) [] rfl (consistent_nil rfl) rfl rfl
    (by decide : 0 < tftpDatalenMax) (Nat.lt_succ_self _)
  rw [List.nil_append, List.take_of_length_le short] at out
  exact ⟨srvVolume, ses, ds, next, status, out⟩

/-- Every encoder and its parser agree, over all contents and all sizes of the buffer that hold a
header, and the other two parsers turn its messages away. In a buffer of the size that the daemon
uses none of them fails for want of room.

Proof: each encoder fills its buffer from the front with the header and the text or payload; the
parsers read a message so filled, whatever lies behind it. -/
theorem encoders_parsed (blk : UInt16) (ecode : TftpErrorcode) {emsg : Bytes} (room : 4 ≤ bufsize.toNat)
    (free : (0 : UInt8) ∉ emsg) (short : emsg.length ≤ 255) :
    let data := Buf.makeTftpdataMsg memory vol ses ds bufsize now
    let ack := Buf.makeTftpackMsg memory ses blk bufsize now
    let error := Buf.makeTftperrMsg memory ecode bufsize emsg
    Encodes bufsize data.1 data.2.1
        (some { blknum := nextBlk ses.blknum, data := (payload vol ses ds).out }) none none ∧
      Encodes bufsize ack.1 ack.2.1 none (some blk) none ∧
      Encodes bufsize error.1 error.2 none none
        (some { errcode := ecode.code, errmsg := if ecode = .seeMsg then emsg else errmsgs ecode }) ∧
      (bufsize.toNat = tftpMsglenMax →
        (data.1 = none ↔ (payload vol ses ds).status = .err) ∧ ack.1 ≠ none ∧ error.1 ≠ none) := by
  have textFree : (0 : UInt8) ∉ errorText ecode emsg := by
    rw [errorText]
    split
    · exact free
    · exact errmsgs_free ecode
  have textShort : (errorText ecode emsg).length < tftpEmsglenMax := by
    rw [errorText]
    split
    · exact Nat.lt_succ_of_le short
    · exact errmsgs_fit ecode
  refine ⟨?_, ?_, ?_, ?_⟩
  · exact Buf.makeTftpdataMsg_encodes memory vol ses ds bufsize now
  · exact Buf.makeTftpackMsg_encodes memory ses bufsize now blk
  · exact Buf.makeTftperrMsg_encodes memory bufsize ecode room textFree textShort
  · intro size
    refine ⟨?_, ?_, ?_⟩
    · exact Buf.makeTftpdataMsg_made memory vol ses ds bufsize now (Nat.le_of_eq size.symm)
    · rw [Buf.makeTftpackMsg, if_neg (by rw [size]; decide)]
      nofun
    · have enough : ¬ tftpMsglenMax - 4 < (errorText ecode emsg).length + 1 := by
        have fits : tftpEmsglenMax ≤ tftpMsglenMax - 4 := by decide
        omega
      rw [Buf.makeTftperrMsg, ite_not, ← errorText, room_toNat room, size, if_neg enough]
      nofun

/-- A disk with one file of one byte. -/
def oneByte : IWDS where
  dhead := []
  disk := fun _ => .regular [7]
  faults := []
  trace := []

/-- A block of one byte and an ERROR, in buffers of the size of a message. -/
theorem encoders_parsed_sample :
    let ses := newSession ([1], 2000) ⟨ascii "f", .octet⟩ 5
    let data := Buf.makeTftpdataMsg (fun _ => 255) srvVolume ses oneByte 516 0
    let error := Buf.makeTftperrMsg (fun _ => 255) .seeMsg 516 serverError
    data.1 = some 5 ∧ error.1 = some 17 ∧
      Encodes 516 data.1 data.2.1 (some { blknum := 1, data := [7] }) none none ∧
      Encodes 516 error.1 error.2 none none (some { errcode := 0, errmsg := serverError }) := by
  have all := encoders_parsed (fun _ => 255) srvVolume (newSession ([1], 2000) ⟨ascii "f", .octet⟩ 5)
    oneByte 516 0 7 .seeMsg (by decide) (by decide : (0 : UInt8) ∉ serverError) (by decide)
  have delivered : (payload srvVolume (newSession ([1], 2000) ⟨ascii "f", .octet⟩ 5) oneByte).out = [7] := by
    decide +kernel
  rw [delivered] at all
  exact ⟨by decide +kernel, by decide +kernel, all.1, all.2.2.1⟩

end Iwtftpd
