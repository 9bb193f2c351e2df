import Iwtftpd.SessionSteps
import Iwtftpd.TftpProc

/-!
# What `tftp_proc` can do

With a session, a call changes that session and touches the datastore only for
its key. Without one, it changes nothing, or links a session whose socket could
not be made, or links one with a socket and touches the datastore only for the
key of the new session.
-/

namespace Iwtftpd

variable {vol : Volume}

/-- The session as the call leaves it. -/
def Proc.after (p : Proc) (ses : Session) : Session :=
  match p.edit with
  | .update s => s
  | _ => ses

/-- A call for a session that is in the list. -/
structure Handled (vol : Volume) (ses : Session) (ds : IWDS) (p : Proc) : Prop where
  edit : p.edit = .keep ∨ p.edit = .update (p.after ses)
  pointer : p.ses = some (p.after ses)
  ok : p.ok = true
  ident : (p.after ses).ident = ses.ident
  chain : Chain vol ses.dkey ds p.ds
  fits : ses.sesbuf.Fits → (p.after ses).sesbuf.Fits
  disabled : ses.disabled = true → (p.after ses).disabled = true
  fin : ses.fin = true → (p.after ses).fin = true

/-- The texts of errors are short. -/
theorem errsend_eq (place : Session → Edit) (ses : Session) (ds : IWDS) (ecode : TftpErrorcode)
    {emsg : Bytes} (short : emsg.length < tftpEmsglenMax) :
    errsend place ses ds ecode emsg =
      { edit := place { ses with fin := true }
        ses := some { ses with fin := true }
        fill := some (errorMsg ecode (if ecode = .seeMsg then emsg else errmsgs ecode))
        ok := true
        ds := ds } := by
  simp only [errsend, makeTftperrMsg_eq short]

/-- An ERROR without a session: the text is the caller's for code 0 and that of the table
otherwise, and it always fits the buffer. -/
theorem errsendNone_eq (edit : Edit) (ds : IWDS) (ecode : TftpErrorcode) {emsg : Bytes}
    (short : emsg.length < tftpEmsglenMax) :
    errsendNone edit ds ecode emsg =
      { edit := edit, ses := none
        fill := some (errorMsg ecode (if ecode = .seeMsg then emsg else errmsgs ecode))
        ok := true, ds := ds } := by
  simp only [errsendNone, makeTftperrMsg_eq short]

/-- The callers of `errsend` that give no text give the empty one. -/
theorem empty_short : ([] : Bytes).length < tftpEmsglenMax := by decide

/-- The only text that is given fits. -/
theorem serverError_short : serverError.length < tftpEmsglenMax := by decide

/-- An ERROR for a session: it is marked with `fin`, and whatever the datastore was asked for
until then was asked under its key. -/
theorem handled_errsend {ses s : Session} {ds ds' : IWDS} (ecode : TftpErrorcode) {emsg : Bytes}
    (short : emsg.length < tftpEmsglenMax) (ident : s.ident = ses.ident)
    (chain : Chain vol ses.dkey ds ds') (fits : ses.sesbuf.Fits → s.sesbuf.Fits)
    (disabled : ses.disabled = true → s.disabled = true) :
    Handled vol ses ds (errsend .update s ds' ecode emsg) := by
  rw [errsend_eq .update s ds' ecode short]
  exact ⟨.inr rfl, rfl, rfl, ident, chain, fits, disabled, fun _ => rfl⟩

/-- A message that is sent again changes the pace of its session, or disables it and closes its
stream. -/
theorem handled_resend (ses : Session) (ds : IWDS) (now : Int) :
    Handled vol ses ds (resend ses ds now) := by
  unfold resend
  split
  · exact ⟨.inr rfl, rfl, rfl, rfl, .refl, id, id, id⟩
  · exact ⟨.inr rfl, rfl, rfl, rfl, closeData_chain vol _ ds, id, fun _ => rfl, id⟩

/-- A block that is stored concerns nothing but its session and the stream under its key. That is
so on the path that answers ERROR, too. -/
theorem handled_storeBlock (ses : Session) (ds : IWDS) (dat : TftpData) (dlen : Nat)
    (now : Int) : Handled vol ses ds (storeBlock vol ses ds dat dlen now) := by
  let start := if dlen - 4 < tftpDatalenMax then { ses with fin := true } else ses
  have startIdent : start.ident = ses.ident := by
    simp only [start]
    split <;> rfl
  have startFits : ses.sesbuf.Fits → start.sesbuf.Fits := by
    simp only [start]
    split <;> exact id
  have startDisabled : start.disabled = ses.disabled := by
    simp only [start]
    split <;> rfl
  have startFin : ses.fin = true → start.fin = true := by
    simp only [start]
    split
    · exact fun _ => rfl
    · exact id
  obtain ⟨chain, only, fits⟩ := putSessionData_steps vol start ds dat.data
  rw [dkey_of_ident startIdent] at chain
  unfold storeBlock
  dsimp only
  generalize putSessionData vol start ds dat.data = r at chain only fits ⊢
  have ident : r.ses.ident = ses.ident := only.ident.trans startIdent
  cases r.status with
  | err | running =>
    exact handled_errsend .accessDeny empty_short ident chain (fun h => fits (startFits h))
      (fun h => only.disabled.trans (startDisabled.trans h))
  | done =>
    dsimp only
    simp only [makeTftpackMsg_eq]
    refine ⟨.inr rfl, rfl, rfl, ident, ?_, fun h => fits (startFits h),
      fun h => only.disabled.trans (startDisabled.trans h),
      fun h => only.fin.trans (startFin h)⟩
    have closing := closeData_chain vol r.ses r.ds
    rw [dkey_of_ident ident] at closing
    dsimp only
    split
    · exact chain.trans closing
    · exact chain

/-- DATA with a session: a block in sequence is stored, that of before is acknowledged again, and
any other is an ERROR. -/
theorem handled_opData (ses : Session) (ds : IWDS) (rbuf : Bytes) (dlen : Nat) (now : Int) :
    Handled vol ses ds (opDataProc vol ses ds rbuf dlen now) := by
  unfold opDataProc
  split
  · exact handled_errsend .illegalOpe empty_short rfl .refl id id
  · split
    · exact handled_resend ses ds now
    · split
      · exact handled_storeBlock ses ds _ dlen now
      · exact handled_errsend .illegalOpe empty_short rfl .refl id id

/-- Once a block is made, `fin` is never taken back. -/
theorem makeTftpdataMsg_fin (vol : Volume) (ses : Session) (ds : IWDS) (bufsize : Nat) (now : Int)
    (fin : ses.fin = true) : (makeTftpdataMsg vol ses ds bufsize now).2.1.fin = true := by
  unfold makeTftpdataMsg
  split
  · exact fin
  · obtain ⟨_, only, _⟩ := getSessionData_steps vol
      { ses with blknum := nextBlk ses.blknum } ds tftpDatalenMax
    dsimp only
    generalize getSessionData vol { ses with blknum := nextBlk ses.blknum } ds tftpDatalenMax = r
      at only ⊢
    have same : r.ses.fin = true := only.fin.trans fin
    cases r.status with
    | done =>
      simp only [(finIfShort_steps vol r.ses r.ds r.out).2, Session.sent, same, Bool.true_or]
    | err | running => exact same

/-- The next block of a session concerns nothing but the session and its stream. -/
theorem handled_nextData (ses : Session) (ds : IWDS) (now : Int) :
    Handled vol ses ds (nextData vol ses ds now) := by
  unfold nextData
  split
  · exact ⟨.inr rfl, rfl, rfl, rfl, .refl, id, fun _ => rfl, id⟩
  · obtain ⟨chain, ident, disabled, fits⟩ := makeTftpdataMsg_steps vol ses ds
      tftpMsglenMax now
    have fin := makeTftpdataMsg_fin vol ses ds tftpMsglenMax now
    generalize makeTftpdataMsg vol ses ds tftpMsglenMax now = r at chain ident disabled fits fin ⊢
    obtain ⟨_ | msg, s, ds'⟩ := r
    · exact handled_errsend .seeMsg serverError_short ident chain fits (fun h => disabled.trans h)
    · exact ⟨.inr rfl, rfl, rfl, ident, chain, fits, fun h => disabled.trans h, fin⟩

/-- ACK with a session: of the block it waits on, of the one before, or of a foreign one. -/
theorem handled_opAck (ses : Session) (ds : IWDS) (rbuf : Bytes) (dlen : Nat) (now : Int) :
    Handled vol ses ds (opAckProc vol ses ds rbuf dlen now) := by
  unfold opAckProc
  split
  · exact handled_errsend .illegalOpe empty_short rfl .refl id id
  · split
    · exact handled_resend ses ds now
    · split
      · exact handled_nextData ses ds now
      · exact ⟨.inl rfl, rfl, rfl, rfl, .refl, id, id, id⟩

/-- ERROR with a session disables it and closes its stream. -/
theorem handled_opError (ses : Session) (ds : IWDS) : Handled vol ses ds (opErrorProc ses ds) :=
  ⟨.inr rfl, rfl, rfl, rfl, closeData_chain vol _ ds, id, fun _ => rfl, id⟩

/-- Every call for a session of the list. -/
theorem tftpProc_handled (ses : Session) (ds : IWDS) (rbuf : Bytes) (dlen : Nat)
    (client : Client) (now : Int) (newsock : Option Int) :
    Handled vol ses ds (tftpProc vol (some ses) ds rbuf dlen client now newsock) := by
  unfold tftpProc
  dsimp only
  split
  · exact handled_resend ses ds now
  · split
    · exact handled_opData ses ds rbuf dlen now
    · split
      · exact handled_opAck ses ds rbuf dlen now
      · split
        · exact handled_opError ses ds
        · exact ⟨.inl rfl, rfl, rfl, rfl, .refl, id, id, id⟩

/-- A session that a call links before the head. -/
structure Linked (vol : Volume) (client : Client) (newsock : Option Int) (ds : IWDS) (p : Proc)
    (req : TftpReq) (fd : Int) (s : Session) : Prop where
  socket : newsock = some fd
  edit : p.edit = .insert s
  pointer : p.ses = some s
  ok : p.ok = true
  ident : s.ident = (newSession client req fd).ident
  chain : Chain vol (fd, req.filename) ds p.ds
  fits : s.sesbuf.Fits
  enabled : s.disabled = false

/-- The buffer of a new session is empty. -/
theorem newSession_fits (client : Client) (req : TftpReq) (fd : Int) :
    (newSession client req fd).sesbuf.Fits :=
  ⟨List.length_replicate, Nat.zero_le _⟩

/-- A transfer that starts links one session, that of the request, under the client and the new
socket. It does so also when the first block fails. -/
theorem startTransfer_linked (vol : Volume) (client : Client) (req : TftpReq) (fd : Int) (ds : IWDS)
    (opcode : UInt16) (now : Int) :
    ∃ s, Linked vol client (some fd) ds
      (startTransfer vol (newSession client req fd) ds opcode now) req fd s := by
  have start := newSession_fits client req fd
  unfold startTransfer
  split
  · obtain ⟨chain, ident, disabled, fits⟩ := makeTftpdataMsg_steps vol
      (newSession client req fd) ds tftpMsglenMax now
    generalize makeTftpdataMsg vol (newSession client req fd) ds tftpMsglenMax now = r
      at chain ident disabled fits ⊢
    obtain ⟨_ | msg, s, ds'⟩ := r
    · refine ⟨{ s with fin := true }, ?_⟩
      dsimp only
      rw [errsend_eq .insert s ds' .seeMsg serverError_short]
      exact ⟨rfl, rfl, rfl, rfl, ident, chain, fits start, disabled⟩
    · exact ⟨s, rfl, rfl, rfl, rfl, ident, chain, fits start, disabled⟩
  · simp only [makeTftpackMsg_eq]
    exact ⟨_, rfl, rfl, rfl, rfl, rfl, .refl, start, rfl⟩

/-- The ways a call ends that had no session to work on. -/
inductive Fresh (vol : Volume) (client : Client) (newsock : Option Int) (ds : IWDS) (p : Proc) :
    Prop where
  | nothing (edit : p.edit = .keep) (pointer : p.ses = none) (same : p.ds = ds)
  | socketless (req : TftpReq) (newsock : newsock = none)
      (edit : p.edit = .insert (newSession client req (-1))) (pointer : p.ses = none)
      (ok : p.ok = true) (same : p.ds = ds)
  | linked (req : TftpReq) (fd : Int) (s : Session)
      (linked : Linked vol client newsock ds p req fd s)

/-- An ERROR without a session leaves list and datastore as they are. -/
theorem fresh_error (client : Client) (newsock : Option Int) (ds : IWDS)
    (ecode : TftpErrorcode) : Fresh vol client newsock ds (errsendNone .keep ds ecode []) := by
  rw [errsendNone_eq .keep ds ecode empty_short]
  exact .nothing rfl rfl rfl

/-- A request without a session opens one session for the client or none.

Proof: by the branches of `OP_RRQ` and `OP_WRQ`. The request is malformed, the file is not as it
has to be, there is no socket, or the transfer starts. -/
theorem opReq_fresh (ds : IWDS) (rbuf : Bytes) (dlen : Nat) (opcode : UInt16) (client : Client)
    (now : Int) (newsock : Option Int) :
    Fresh vol client newsock ds (opReq vol ds rbuf dlen opcode client now newsock) := by
  unfold opReq
  split
  · exact fresh_error client newsock ds .illegalOpe
  · rename_i req parsed
    split
    · exact fresh_error client newsock ds .fileExist
    · exact fresh_error client newsock ds .notFound
    · split
      · rw [errsendNone_eq _ ds .seeMsg serverError_short]
        exact .socketless req rfl rfl rfl rfl rfl
      · rename_i fd
        obtain ⟨s, linked⟩ := startTransfer_linked vol client req fd ds opcode now
        exact .linked req fd s linked

/-- Every call without a session. -/
theorem tftpProc_fresh (ds : IWDS) (rbuf : Bytes) (dlen : Nat) (client : Client) (now : Int)
    (newsock : Option Int) :
    Fresh vol client newsock ds (tftpProc vol none ds rbuf dlen client now newsock) := by
  unfold tftpProc
  dsimp only
  split
  · exact opReq_fresh ds rbuf dlen _ client now newsock
  · split
    · exact fresh_error client newsock ds .unknownId
    · split
      · exact fresh_error client newsock ds .unknownId
      · split <;> exact .nothing rfl rfl rfl

end Iwtftpd
