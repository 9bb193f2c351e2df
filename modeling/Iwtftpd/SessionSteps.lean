import Iwtftpd.DatastoreLaws
import Iwtftpd.Session

/-!
# What the functions of a session change

The transfer functions work on the datastore only through calls for the key of
their session, and on the session only through its buffer; the encoders add the
fields of the last message. These two facts are proved here once for every
function, with the bounds on the length of the buffered data.
-/

namespace Iwtftpd

variable (vol : Volume)

/-- What identifies a session throughout its life. -/
def Session.ident (s : Session) : Client × Int × TftpMode × Bytes :=
  (s.key, s.clsock, s.tftpmode, s.filename)

/-- Sessions that are identified alike belong to one client. -/
theorem key_of_ident {s t : Session} (same : s.ident = t.ident) : s.key = t.key :=
  congrArg Prod.fst same

/-- Sessions that are identified alike have the same socket. -/
theorem clsock_of_ident {s t : Session} (same : s.ident = t.ident) : s.clsock = t.clsock :=
  congrArg (fun i => i.2.1) same

/-- Sessions that are identified alike transfer in the same mode. -/
theorem mode_of_ident {s t : Session} (same : s.ident = t.ident) : s.tftpmode = t.tftpmode :=
  congrArg (fun i => i.2.2.1) same

/-- Sessions that are identified alike transfer files of one name. -/
theorem filename_of_ident {s t : Session} (same : s.ident = t.ident) :
    s.filename = t.filename :=
  congrArg (fun i => i.2.2.2) same

/-- Sessions that are identified alike have their stream in the datastore under one key, which is
made of the socket and the name. -/
theorem dkey_of_ident {s t : Session} (same : s.ident = t.ident) : s.dkey = t.dkey := by
  rw [Session.dkey, Session.dkey, clsock_of_ident same, filename_of_ident same]

/-- Everything but the buffer is as before. -/
def OnlyBuffer (s t : Session) : Prop := t = { s with sesbuf := t.sesbuf }

theorem OnlyBuffer.refl (s : Session) : OnlyBuffer s s := rfl

/-- An update of the buffer changes only the buffer. This is how the functions of tftp.c that fill
or empty it are written in the model. -/
theorem OnlyBuffer.of_eq {s t : Session} (sb : DataStorage) (same : t = { s with sesbuf := sb }) :
    OnlyBuffer s t := by
  subst same
  rfl

/-- Two changes of the buffer after each other are one. -/
theorem OnlyBuffer.trans {r s t : Session} (first : OnlyBuffer r s) (second : OnlyBuffer s t) :
    OnlyBuffer r t := by
  unfold OnlyBuffer at *
  rw [second, first]

/-- A change of the buffer leaves alone what identifies the session. The lemmas after this one say
the same of one member each. -/
theorem OnlyBuffer.ident {s t : Session} (only : OnlyBuffer s t) : t.ident = s.ident := by
  rw [only]
  rfl

theorem OnlyBuffer.dkey {s t : Session} (only : OnlyBuffer s t) : t.dkey = s.dkey :=
  dkey_of_ident only.ident

theorem OnlyBuffer.fin {s t : Session} (only : OnlyBuffer s t) : t.fin = s.fin := by rw [only]

theorem OnlyBuffer.disabled {s t : Session} (only : OnlyBuffer s t) :
    t.disabled = s.disabled := by rw [only]

theorem OnlyBuffer.blknum {s t : Session} (only : OnlyBuffer s t) : t.blknum = s.blknum := by
  rw [only]

theorem OnlyBuffer.lastmsg {s t : Session} (only : OnlyBuffer s t) : t.lastmsg = s.lastmsg := by
  rw [only]

theorem OnlyBuffer.tftpmode {s t : Session} (only : OnlyBuffer s t) :
    t.tftpmode = s.tftpmode := mode_of_ident only.ident

/-- The length field never exceeds the buffer, and the buffer has its size. -/
structure DataStorage.Fits (sb : DataStorage) : Prop where
  size : sb.storage.length = sessionBufsize
  short : sb.datalen ≤ sessionBufsize

/-! ## Calls of the datastore -/

/-- `close_data` is one call of the datastore, under the key of the session. -/
theorem closeData_chain (ses : Session) (ds : IWDS) :
    Chain vol ses.dkey ds (closeData ses ds) := iwdsClose_chain vol ds _ _

/-- `close_data` removes the session's own node, if there is one, and no other. -/
@[simp] theorem closeData_dhead (ses : Session) (ds : IWDS) :
    (closeData ses ds).dhead = Keyed.remove DSession.key ses.dkey ds.dhead := by
  simp [closeData, iwdsClose, Session.dkey]

/-- `close_data` changes no byte of a file. What was written is in the file before the stream is
closed. -/
@[simp] theorem closeData_disk (ses : Session) (ds : IWDS) : (closeData ses ds).disk = ds.disk := by
  simp [closeData, iwdsClose]

/-- After `close_data` the key has no node. -/
theorem closeData_closed (ses : Session) {ds : IWDS}
    (distinct : (ds.dhead.map DSession.key).Nodup) : (closeData ses ds).at ses.dkey = none := by
  rw [IWDS.at, closeData_dhead]
  exact Keyed.lookup_remove_self DSession.key distinct

/-- `load_data` is one call of the datastore, under the key of the session. -/
theorem loadData_chain (ses : Session) (ds : IWDS) :
    Chain vol ses.dkey ds (loadData vol ses ds).2.2 := by
  have chain : Chain vol ses.dkey ds _ :=
    iwdsRead_chain vol ds ses.clsock ses.filename sessionBufsize
  unfold loadData
  dsimp only
  split
  · exact chain.trans (closeData_chain vol ses _)
  · exact chain

/-- Of the session it changes the buffer: the bytes read are stored at its beginning. -/
theorem loadData_only (ses : Session) (ds : IWDS) : OnlyBuffer ses (loadData vol ses ds).2.1 := by
  unfold loadData
  dsimp only
  split <;> rfl

/-- `save_data` is one call of the datastore, under the key of the session. -/
theorem saveData_chain (ses : Session) (ds : IWDS) :
    Chain vol ses.dkey ds (saveData vol ses ds).2.2 := by
  have chain : Chain vol ses.dkey ds _ :=
    iwdsWrite_chain vol ds ses.clsock ses.filename (readAt ses.sesbuf.storage 0 ses.sesbuf.datalen)
  unfold saveData
  dsimp only
  split
  · exact chain.trans (closeData_chain vol ses _)
  · exact chain

/-- Of the session it changes the buffer, which is empty after it. -/
theorem saveData_only (ses : Session) (ds : IWDS) : OnlyBuffer ses (saveData vol ses ds).2.1 := by
  unfold saveData
  dsimp only
  split <;> rfl

/-- A read delivers no more than it was asked for. -/
theorem fread_length (ds : IWDS) (fp : Stream) (dlen : Nat) :
    (fread ds fp dlen).data.length ≤ dlen := by
  have ahead : (if fp.eof then [] else ((ds.disk fp.node).bytes.drop fp.off).take dlen).length ≤
      dlen := by
    split
    · exact Nat.zero_le _
    · exact List.length_take_le _ _
  rw [fread]
  dsimp only
  split
  · exact Nat.zero_le _
  · exact ahead
  · exact (List.length_take_le' _ _).trans ahead

/-- `iwds_read` never returns more than it was asked for, whether it opens a stream or goes on
with one, and nothing at all when it fails. -/
theorem iwdsRead_length (ds : IWDS) (id : Int) (file : Bytes) (dlen : Nat) :
    (iwdsRead vol ds id file dlen).data.length ≤ dlen := by
  have bound (ds : IWDS) (d : DSession) : (readFrom ds d dlen).data.length ≤ dlen := by
    unfold readFrom
    dsimp only
    split <;> exact fread_length ds d.fp dlen
  unfold iwdsRead
  dsimp only
  split
  · exact Nat.zero_le _
  · exact Nat.zero_le _
  · split
    · exact bound _ _
    · split
      · exact Nat.zero_le _
      · exact bound _ _

/-- A load fits the buffer, because it asks for no more than that holds. -/
theorem loadData_fits {ses : Session} (ds : IWDS) (fits : ses.sesbuf.Fits) :
    (loadData vol ses ds).2.1.sesbuf.Fits := by
  have bound := iwdsRead_length vol ds ses.clsock ses.filename sessionBufsize
  unfold loadData
  dsimp only
  split <;> exact ⟨by simp [fits.size], bound⟩

/-- A save leaves a buffer that fits: it is emptied, or left as it is when the save fails. -/
theorem saveData_fits {ses : Session} (ds : IWDS) (fits : ses.sesbuf.Fits) :
    (saveData vol ses ds).2.1.sesbuf.Fits := by
  unfold saveData
  dsimp only
  split
  · exact fits
  · exact ⟨fits.size, Nat.zero_le _⟩

/-! ## The transfer loops -/

/-- The record of a step is no call of the datastore. -/
theorem noteAll_chain (ds : IWDS) (k : Int × Bytes) (es : List Effect) :
    Chain vol k ds (ds.noteAll es) := .single (.idle rfl rfl)

/-- `refill` loads when the buffer has run empty, and does nothing otherwise. -/
theorem refill_chain (ses : Session) (ds : IWDS) :
    Chain vol ses.dkey ds (refill vol ses ds).2.2 := by
  have loaded := loadData_chain vol ses ds
  unfold refill
  split
  · split <;> rename_i result <;> rw [result] at loaded <;> exact loaded
  · exact .refl

/-- `refill` changes nothing of the session but its buffer. -/
theorem refill_only (ses : Session) (ds : IWDS) : OnlyBuffer ses (refill vol ses ds).2.1 := by
  have loaded := loadData_only vol ses ds
  unfold refill
  split
  · split <;> rename_i result <;> rw [result] at loaded <;> exact loaded
  · rfl

/-- `refill` leaves a buffer that fits, loaded or not. -/
theorem refill_fits {ses : Session} (ds : IWDS) (fits : ses.sesbuf.Fits) :
    (refill vol ses ds).2.1.sesbuf.Fits := by
  have loaded := loadData_fits vol ds fits
  unfold refill
  split
  · split <;> rename_i result <;> rw [result] at loaded <;> exact loaded
  · exact fits

/-- What a pass of `get_session_data` copies out of the buffer does not concern the datastore. -/
theorem takePiece_chain (ses : Session) (ds : IWDS) (room : Nat) (k : Int × Bytes) :
    Chain vol k ds (takePiece ses ds room).2.2 := by
  unfold takePiece
  dsimp only
  split <;> exact noteAll_chain vol _ _ _

/-- A pass of `get_session_data` changes nothing of the session but its buffer. -/
theorem takePiece_only (ses : Session) (ds : IWDS) (room : Nat) :
    OnlyBuffer ses (takePiece ses ds room).2.1 := by
  unfold takePiece
  dsimp only
  split <;> rfl

/-- The encoder takes from the buffer and leaves the storage alone. -/
theorem localToNetascii_storage (room : Nat) (sb : DataStorage) :
    (localToNetascii room sb).2.1.storage = sb.storage ∧
      (localToNetascii room sb).2.1.datalen ≤ sb.datalen := by
  unfold localToNetascii
  dsimp only
  split
  · exact ⟨rfl, Nat.sub_le _ _⟩
  · split
    · split <;> exact ⟨rfl, (Nat.sub_le _ _).trans (Nat.sub_le _ _)⟩
    · exact ⟨rfl, Nat.sub_le _ _⟩

/-- A pass of `get_session_data` leaves a buffer that fits, because it takes from what the buffer
has. -/
theorem takePiece_fits {ses : Session} (ds : IWDS) (room : Nat) (fits : ses.sesbuf.Fits) :
    (takePiece ses ds room).2.1.sesbuf.Fits := by
  have encoder := localToNetascii_storage room ses.sesbuf
  unfold takePiece
  dsimp only
  split
  · exact ⟨fits.size, (Nat.sub_le _ _).trans fits.short⟩
  · exact ⟨encoder.1.symm ▸ fits.size, encoder.2.trans fits.short⟩

/-- `local_to_netascii` takes no byte from the buffer without writing at least one: a line end
becomes two bytes, of which the second may wait. -/
theorem localToNetascii_consumes (room : Nat) (sb : DataStorage) :
    sb.datalen ≤ (localToNetascii room sb).2.1.datalen + (localToNetascii room sb).1.length := by
  unfold localToNetascii
  dsimp only
  split
  · dsimp only
    omega
  · split
    · split <;> simp only [List.length_append, List.length_cons, List.length_nil] <;> omega
    · simp only [List.length_append, List.length_cons, List.length_nil]
      omega

/-- Taking consumes no more than it delivers. -/
theorem takePiece_consumes (ses : Session) (ds : IWDS) (room : Nat) :
    ses.sesbuf.datalen ≤
      (takePiece ses ds room).2.1.sesbuf.datalen + (takePiece ses ds room).1.length := by
  unfold takePiece
  cases ses.tftpmode with
  | octet =>
    simp only [readAt_length]
    split <;> omega
  | netascii => exact localToNetascii_consumes room ses.sesbuf

/-! One pass of `get_session_data`. -/

variable {vol} in

/-- A load that fails ends the loop of `get_session_data` with an error. What was copied so far is
lost on the caller. -/
theorem getLoop_failed {fuel : Nat} {ses ses' : Session} {ds ds' : IWDS} {room : Nat} {out : Bytes}
    (refilled : refill vol ses ds = (.failed, ses', ds')) :
    getLoop vol (fuel + 1) ses ds room out =
      { status := .err, out := out, ses := ses', ds := ds' } := by
  simp only [getLoop, refilled]

variable {vol} in

/-- The end of the file ends the loop well, with what was copied so far. -/
theorem getLoop_eof {fuel : Nat} {ses ses' : Session} {ds ds' : IWDS} {room : Nat} {out : Bytes}
    (refilled : refill vol ses ds = (.eof, ses', ds')) :
    getLoop vol (fuel + 1) ses ds room out =
      { status := .done, out := out, ses := ses', ds := ds' } := by
  simp only [getLoop, refilled]

variable {vol} in

/-- With bytes in the buffer a piece is copied, and the loop goes on until the block is full. -/
theorem getLoop_ready {fuel : Nat} {ses ses' : Session} {ds ds' : IWDS} {room : Nat} {out : Bytes}
    (refilled : refill vol ses ds = (.ready, ses', ds')) :
    getLoop vol (fuel + 1) ses ds room out =
      if (takePiece ses' ds' room).1.length < room then
        getLoop vol fuel (takePiece ses' ds' room).2.1 (takePiece ses' ds' room).2.2
          (room - (takePiece ses' ds' room).1.length) (out ++ (takePiece ses' ds' room).1)
      else
        { status := .done, out := out ++ (takePiece ses' ds' room).1,
          ses := (takePiece ses' ds' room).2.1, ds := (takePiece ses' ds' room).2.2 } := by
  simp only [getLoop, refilled]

/-- What the loop of `get_session_data` can do to the datastore, the session and its buffer,
whatever the fuel.

Proof: by induction on the fuel. A pass refills and takes a piece, each of which keeps to this;
the passes after it start from where it ends. -/
theorem getLoop_steps (fuel : Nat) (ses : Session) (ds : IWDS) (room : Nat) (out : Bytes) :
    Chain vol ses.dkey ds (getLoop vol fuel ses ds room out).ds ∧
      OnlyBuffer ses (getLoop vol fuel ses ds room out).ses ∧
      (ses.sesbuf.Fits → (getLoop vol fuel ses ds room out).ses.sesbuf.Fits) := by
  induction fuel generalizing ses ds room out with
  | zero => exact ⟨.refl, rfl, id⟩
  | succ fuel inductionHypothesis =>
    have refilled := refill_chain vol ses ds
    have only := refill_only vol ses ds
    have fits : ses.sesbuf.Fits → _ := refill_fits vol ds
    rw [getLoop]
    split <;> rename_i result <;> rw [result] at refilled only fits
    · exact ⟨refilled, only, fits⟩
    · exact ⟨refilled, only, fits⟩
    · rename_i ses' ds'
      have taken := takePiece_chain vol ses' ds' room ses.dkey
      have onlyTaken := takePiece_only ses' ds' room
      have fitsTaken : ses'.sesbuf.Fits → _ := takePiece_fits ds' room
      generalize takePiece ses' ds' room = result at taken onlyTaken fitsTaken ⊢
      obtain ⟨piece, ses'', ds''⟩ := result
      dsimp only at taken onlyTaken fitsTaken refilled only fits ⊢
      split
      · obtain ⟨chain, buffer, bound⟩ :=
          inductionHypothesis ses'' ds'' (room - piece.length) (out ++ piece)
        rw [onlyTaken.dkey, only.dkey] at chain
        exact ⟨refilled.trans (taken.trans chain), only.trans (onlyTaken.trans buffer),
          fun start => bound (fitsTaken (fits start))⟩
      · exact ⟨refilled.trans taken, only.trans onlyTaken, fun start => fitsTaken (fits start)⟩

/-- What a pass of `put_session_data` copies into the buffer does not concern the datastore. -/
theorem putPiece_chain (ses : Session) (ds : IWDS) (data : Bytes) (k : Int × Bytes) :
    Chain vol k ds (putPiece ses ds data).2.2 := by
  unfold putPiece
  dsimp only
  split <;> exact noteAll_chain vol _ _ _

/-- A pass of `put_session_data` changes nothing of the session but its buffer. -/
theorem putPiece_only (ses : Session) (ds : IWDS) (data : Bytes) :
    OnlyBuffer ses (putPiece ses ds data).2.1 := by
  unfold putPiece
  dsimp only
  split <;> rfl

/-- A pass of `put_session_data` leaves a buffer that fits, because the piece is cut to the room
that is left. -/
theorem putPiece_fits {ses : Session} (ds : IWDS) (data : Bytes) (fits : ses.sesbuf.Fits) :
    (putPiece ses ds data).2.1.sesbuf.Fits := by
  have room := fits.short
  unfold putPiece
  dsimp only
  split
  · refine ⟨by simp [fits.size], ?_⟩
    simp only [List.length_take]
    omega
  · unfold netasciiToLocal
    dsimp only
    refine ⟨by simp [fits.size], ?_⟩
    have window := ((data.take (sessionBufsize - ses.sesbuf.datalen)).takeWhile_sublist
      (fun b => decide (b ≠ cr))).length_le
    simp only [List.length_take] at window ⊢
    omega

/-- The check at the foot of the loop is a save or nothing. -/
theorem flush_chain (ses : Session) (ds : IWDS) :
    Chain vol ses.dkey ds (flush vol ses ds).2.2 := by
  unfold flush
  split
  · exact saveData_chain vol ses ds
  · exact .refl

/-- The check at the foot of the loop changes nothing of the session but its buffer. -/
theorem flush_only (ses : Session) (ds : IWDS) : OnlyBuffer ses (flush vol ses ds).2.1 := by
  unfold flush
  split
  · exact saveData_only vol ses ds
  · rfl

/-- The check at the foot of the loop leaves a buffer that fits, saved or not. -/
theorem flush_fits {ses : Session} (ds : IWDS) (fits : ses.sesbuf.Fits) :
    (flush vol ses ds).2.1.sesbuf.Fits := by
  unfold flush
  split
  · exact saveData_fits vol ds fits
  · exact fits

/-- One pass of `put_session_data`. -/
theorem putLoop_succ (fuel : Nat) (ses : Session) (ds : IWDS) (data : Bytes) :
    putLoop vol (fuel + 1) ses ds data =
      let p := putPiece ses ds data
      let f := flush vol p.2.1 p.2.2
      if f.1 = false then { status := .err, ses := f.2.1, ds := f.2.2 }
      else if p.1 < data.length then putLoop vol fuel f.2.1 f.2.2 (data.drop p.1)
      else { status := .done, ses := f.2.1, ds := f.2.2 } := by
  rw [putLoop]
  generalize putPiece ses ds data = p
  obtain ⟨len, ses', ds'⟩ := p
  dsimp only
  generalize flush vol ses' ds' = f
  obtain ⟨_ | _, ses'', ds''⟩ := f <;> simp

/-- What the loop of `put_session_data` can do to the datastore, the session and its buffer,
whatever the fuel.

Proof: by induction on the fuel. A pass copies a piece and saves when it is time; a save that
fails ends the loop there, and one that does not is followed by the rest of the data. -/
theorem putLoop_steps (fuel : Nat) (ses : Session) (ds : IWDS) (data : Bytes) :
    Chain vol ses.dkey ds (putLoop vol fuel ses ds data).ds ∧
      OnlyBuffer ses (putLoop vol fuel ses ds data).ses ∧
      (ses.sesbuf.Fits → (putLoop vol fuel ses ds data).ses.sesbuf.Fits) := by
  induction fuel generalizing ses ds data with
  | zero => exact ⟨.refl, rfl, id⟩
  | succ fuel inductionHypothesis =>
    have put := putPiece_chain vol ses ds data ses.dkey
    have only := putPiece_only ses ds data
    have fits : ses.sesbuf.Fits → _ := putPiece_fits ds data
    rw [putLoop]
    generalize putPiece ses ds data = result at put only fits ⊢
    obtain ⟨len, ses', ds'⟩ := result
    dsimp only at put only fits ⊢
    have flushed := flush_chain vol ses' ds'
    have onlyFlushed := flush_only vol ses' ds'
    have fitsFlushed : ses'.sesbuf.Fits → _ := flush_fits vol ds'
    rw [only.dkey] at flushed
    generalize flush vol ses' ds' = result at flushed onlyFlushed fitsFlushed ⊢
    obtain ⟨_ | _, ses'', ds''⟩ := result
    · exact ⟨put.trans flushed, only.trans onlyFlushed, fun start => fitsFlushed (fits start)⟩
    · dsimp only at flushed onlyFlushed fitsFlushed ⊢
      split
      · obtain ⟨chain, buffer, bound⟩ := inductionHypothesis ses'' ds'' (data.drop len)
        rw [onlyFlushed.dkey, only.dkey] at chain
        exact ⟨put.trans (flushed.trans chain), only.trans (onlyFlushed.trans buffer),
          fun start => bound (fitsFlushed (fits start))⟩
      · exact ⟨put.trans flushed, only.trans onlyFlushed, fun start => fitsFlushed (fits start)⟩

/-- What `get_session_data` can do as a whole, which is its loop with enough fuel. -/
theorem getSessionData_steps (ses : Session) (ds : IWDS) (room : Nat) :
    Chain vol ses.dkey ds (getSessionData vol ses ds room).ds ∧
      OnlyBuffer ses (getSessionData vol ses ds room).ses ∧
      (ses.sesbuf.Fits → (getSessionData vol ses ds room).ses.sesbuf.Fits) :=
  getLoop_steps vol _ ses ds room []

/-- What `put_session_data` can do as a whole. It does nothing at all when there is nothing in the
buffer and nothing to put into it. -/
theorem putSessionData_steps (ses : Session) (ds : IWDS) (data : Bytes) :
    Chain vol ses.dkey ds (putSessionData vol ses ds data).ds ∧
      OnlyBuffer ses (putSessionData vol ses ds data).ses ∧
      (ses.sesbuf.Fits → (putSessionData vol ses ds data).ses.sesbuf.Fits) := by
  unfold putSessionData
  split
  · exact ⟨.refl, rfl, id⟩
  · exact putLoop_steps vol _ ses ds data

/-! ## The encoders -/

/-- A short block ends the transfer: the session is finished and its stream is closed. A full one
changes nothing. -/
theorem finIfShort_steps (ses : Session) (ds : IWDS) (data : Bytes) :
    Chain vol ses.dkey ds (finIfShort ses ds data).2 ∧
      (finIfShort ses ds data).1 = { ses with fin := ses.fin || decide (data.length < tftpDatalenMax) } := by
  unfold finIfShort
  split
  · rename_i short
    exact ⟨closeData_chain vol ses ds, by simp [short]⟩
  · rename_i long
    exact ⟨.refl, by simp [long]⟩

/-- `make_tftpdata_msg` keeps what identifies the session, its `disabled` flag and
the bounds of its buffer. -/
theorem makeTftpdataMsg_steps (ses : Session) (ds : IWDS) (bufsize : Nat) (now : Int) :
    Chain vol ses.dkey ds (makeTftpdataMsg vol ses ds bufsize now).2.2 ∧
      (makeTftpdataMsg vol ses ds bufsize now).2.1.ident = ses.ident ∧
      (makeTftpdataMsg vol ses ds bufsize now).2.1.disabled = ses.disabled ∧
      (ses.sesbuf.Fits → (makeTftpdataMsg vol ses ds bufsize now).2.1.sesbuf.Fits) := by
  unfold makeTftpdataMsg
  split
  · exact ⟨.refl, rfl, rfl, id⟩
  · obtain ⟨chain, only, fits⟩ := getSessionData_steps vol
      { ses with blknum := nextBlk ses.blknum } ds tftpDatalenMax
    dsimp only
    generalize getSessionData vol { ses with blknum := nextBlk ses.blknum } ds tftpDatalenMax = r
      at chain only fits ⊢
    have ident : r.ses.ident = ses.ident := only.ident
    have disabled : r.ses.disabled = ses.disabled := only.disabled
    cases status : r.status with
    | done =>
      obtain ⟨closing, same⟩ := finIfShort_steps vol r.ses r.ds r.out
      rw [dkey_of_ident ident] at closing
      refine ⟨chain.trans closing, ?_, ?_, ?_⟩
      · simp only [same]
        exact ident
      · simp only [same]
        exact disabled
      · intro start
        simp only [same]
        exact fits start
    | err | running => exact ⟨chain, ident, disabled, fits⟩

variable {vol} in
/-- A message made is a DATA of the next block, kept for resending. -/
theorem makeTftpdataMsg_some {ses s : Session} {ds ds' : IWDS} {bufsize : Nat} {now : Int}
    {msg : Bytes} (made : makeTftpdataMsg vol ses ds bufsize now = (some msg, s, ds')) :
    s.blknum = nextBlk ses.blknum ∧ s.lastmsg = msg ∧ ∃ data, msg = dataMsg s.blknum data := by
  unfold makeTftpdataMsg at made
  split at made
  · cases made
  · have only := (getSessionData_steps vol { ses with blknum := nextBlk ses.blknum } ds
      tftpDatalenMax).2.1
    dsimp only at made
    generalize getSessionData vol { ses with blknum := nextBlk ses.blknum } ds tftpDatalenMax = r
      at only made
    have blknum : r.ses.blknum = nextBlk ses.blknum := only.blknum
    split at made
    · have same := (finIfShort_steps vol r.ses r.ds r.out).2
      simp only [same, Prod.mk.injEq, Option.some.injEq] at made
      obtain ⟨rfl, rfl, -⟩ := made
      exact ⟨blknum, rfl, _, rfl⟩
    · cases made

variable {vol} in
/-- A message made is DATA, it is kept as the last one, and it starts without retries. -/
theorem makeTftpdataMsg_made {ses : Session} {ds : IWDS} {now : Int} {msg : Bytes}
    (made : (makeTftpdataMsg vol ses ds tftpMsglenMax now).1 = some msg) :
    opcodeOf msg = opData ∧ (makeTftpdataMsg vol ses ds tftpMsglenMax now).2.1.lastmsg = msg ∧
      (makeTftpdataMsg vol ses ds tftpMsglenMax now).2.1.retrycount = 0 := by
  rw [makeTftpdataMsg, if_neg (lt_irrefl _)] at made ⊢
  dsimp only at made ⊢
  generalize getSessionData vol { ses with blknum := nextBlk ses.blknum } ds tftpDatalenMax = r
    at made ⊢
  cases status : r.status with
  | done =>
    rw [status] at made
    obtain rfl := Option.some.inj made
    exact ⟨opcodeOf_dataMsg _ _, rfl, rfl⟩
  | err | running =>
    rw [status] at made
    cases made

variable {vol} in
/-- A failure has moved to the next block all the same; nothing else but the buffer is touched. -/
theorem makeTftpdataMsg_none {ses : Session} {ds : IWDS} {now : Int}
    (failed : (makeTftpdataMsg vol ses ds tftpMsglenMax now).1 = none) :
    (makeTftpdataMsg vol ses ds tftpMsglenMax now).2.1 =
      { ses with
        blknum := nextBlk ses.blknum
        sesbuf := (makeTftpdataMsg vol ses ds tftpMsglenMax now).2.1.sesbuf } := by
  have only := (getSessionData_steps vol { ses with blknum := nextBlk ses.blknum } ds
    tftpDatalenMax).2.1
  rw [makeTftpdataMsg, if_neg (lt_irrefl _)] at failed ⊢
  dsimp only at failed ⊢
  generalize getSessionData vol { ses with blknum := nextBlk ses.blknum } ds tftpDatalenMax = r
    at only failed ⊢
  cases status : r.status with
  | done =>
    rw [status] at failed
    cases failed
  | err | running => exact only

/-- An ACK never fails for lack of room: every caller has the buffer of a whole message. -/
@[simp] theorem makeTftpackMsg_eq (ses : Session) (blk : UInt16) (now : Int) :
    makeTftpackMsg ses blk tftpMsglenMax now =
      (some (ackMsg blk), { ses with blknum := blk }.sent (ackMsg blk) now) := rfl

end Iwtftpd
