import Iwtftpd.ServiceLaws
import Iwtftpd.Wire

/-!
# What a reply depends on

The reply to a client should be a function of its datagram, its session and the
datastore. Two things of the loop outlive a datagram and are shared by all
clients: the message in `sinfo`, which is sent again where `tftp_proc` reaches
`done` without making one, and the bytes of `rbuf` past the end of the datagram,
which the opcode and the fields of a request are read from. A datagram is
self-contained for a session when it meets neither.
-/

namespace Iwtftpd

variable {host : Host} {vol : Volume}

/-- Two states that agree on all that a reply to the client may depend on. -/
structure SameView (c : Client) (st st' : Server) : Prop where
  session : getSession st'.seshead c = getSession st.seshead c
  dhead : st'.ads.dhead = st.ads.dhead
  disk : st'.ads.disk = st.ads.disk

/-- Replies are determined by the datagram, the session of its client, the datastore
and what the kernel answers. -/
def RepliesDetermined (host : Host) : Prop :=
  ∀ st st' d c, Reachable host st → Reachable host st' → Admissible st (.datagram d) →
    Admissible st' (.datagram d) → host.client d.src = some c → SameView c st st' →
    (recv host st' d).2 = (recv host st d).2

/-- An opcode of the protocol. -/
def KnownOpcode (opcode : UInt16) : Prop :=
  opcode = opRrq ∨ opcode = opWrq ∨ opcode = opData ∨ opcode = opAck ∨ opcode = opError

instance (opcode : UInt16) : Decidable (KnownOpcode opcode) := by
  unfold KnownOpcode
  infer_instance

/-- An ACK of a block that the session is not about. -/
def ForeignAck (ses : Session) (msg : Bytes) : Prop :=
  opcodeOf msg = opAck ∧ msg.length = 4 ∧ ofBe16 (msg.drop 2) ≠ ses.blknum ∧
    ((ofBe16 (msg.drop 2)).toNat : Int) ≠ ses.blknum.toNat - 1

instance (ses : Session) (msg : Bytes) : Decidable (ForeignAck ses msg) := by
  unfold ForeignAck
  infer_instance

/-- The call reaches `done` without having filled `sinfo`. -/
def Unfilled (ses : Option Session) (msg : Bytes) : Prop :=
  ¬ KnownOpcode (opcodeOf msg) ∨ ∃ s, ses = some s ∧ ForeignAck s msg

/-- Whether the request is well formed does not depend on bytes past its end. -/
def RequestClosed (msg : Bytes) : Prop :=
  msg.length < 2 + 2 + 5 + 1 ∨
    match parseField msg 2 tftpFilenameMax with
    | none => 2 + tftpFilenameMax ≤ msg.length
    | some filename => ∀ mode : TftpMode, ¬ msg.drop (2 + filename.length + 1) <+: mode.name

/-- The reply to a message depends on the message and the session only. -/
def SelfContained (ses : Option Session) (msg : Bytes) : Prop :=
  match ses with
  | some s => s.disabled = true ∨ (2 ≤ msg.length ∧ ¬ Unfilled (some s) msg)
  | none =>
    2 ≤ msg.length ∧ ¬ Unfilled none msg ∧
      (opcodeOf msg = opRrq ∨ opcodeOf msg = opWrq → RequestClosed msg)

/-! ## Reading past the end of the datagram -/

/-- A closed request is parsed alike whatever follows it. -/
theorem parseTftpreq_append {msg : Bytes} (rest rest' : Bytes) (long : 2 ≤ msg.length)
    (closed : RequestClosed msg) :
    parseTftpreq (msg ++ rest) msg.length = parseTftpreq (msg ++ rest') msg.length := by
  unfold parseTftpreq
  rw [ofBe16_append rest long, ofBe16_append rest' long]
  rcases closed with short | closed
  · rw [if_pos short, if_pos short]
  split
  · rfl
  split
  · rfl
  cases filenameField : parseField msg 2 tftpFilenameMax with
  | none =>
    rw [filenameField] at closed
    rw [parseField_overlong rest filenameField closed, parseField_overlong rest' filenameField closed]
  | some filename =>
    rw [filenameField] at closed
    dsimp only at closed
    rw [parseField_append rest filenameField, parseField_append rest' filenameField]
    dsimp only
    have inside := (parseField_inside filenameField).1
    generalize start_eq : 2 + filename.length + 1 = start at closed inside ⊢
    cases modeField : parseField msg start tftpModenameMax with
    | some mode => rw [parseField_append rest modeField, parseField_append rest' modeField]
    | none =>
      -- The message holds a beginning of the field that starts no name of a mode.
      have rejected (tail : Bytes) (mode : Bytes)
          (found : parseField (msg ++ tail) start tftpModenameMax = some mode) :
          mode ≠ TftpMode.netascii.name ∧ mode ≠ TftpMode.octet.name := by
        have endless : (0 : UInt8) ∉ msg.drop start := by
          intro zero
          have short : start + tftpModenameMax ≤ msg.length := by
            by_contra fewer
            apply parseField_none_iff.mp modeField
            rwa [List.take_of_length_le]
            rw [List.length_drop]
            omega
          rw [parseField_overlong tail modeField short] at found
          cases found
        have starts := parseField_starts tail (by omega) endless found
        exact ⟨fun same => closed _ (same ▸ starts), fun same => closed _ (same ▸ starts)⟩
      cases left : parseField (msg ++ rest) start tftpModenameMax <;>
        cases right : parseField (msg ++ rest') start tftpModenameMax
      · rfl
      · obtain ⟨notNetascii, notOctet⟩ := rejected _ _ right
        simp only [if_neg notNetascii, if_neg notOctet]
      · obtain ⟨notNetascii, notOctet⟩ := rejected _ _ left
        simp only [if_neg notNetascii, if_neg notOctet]
      · obtain ⟨notNetascii, notOctet⟩ := rejected _ _ left
        obtain ⟨notNetascii', notOctet'⟩ := rejected _ _ right
        simp only [if_neg notNetascii, if_neg notOctet, if_neg notNetascii', if_neg notOctet']

/-! ## Self-contained messages -/

/-- The call for a self-contained message is the same whatever `rbuf` holds past it. -/
theorem tftpProc_append (ses : Option Session) (ds : IWDS) {msg : Bytes} (rest rest' : Bytes)
    (client : Client) (now : Int) (newsock : Option Int) (long : 2 ≤ msg.length)
    (closed : ses = none → opcodeOf msg = opRrq ∨ opcodeOf msg = opWrq → RequestClosed msg) :
    tftpProc vol ses ds (msg ++ rest) msg.length client now newsock =
      tftpProc vol ses ds (msg ++ rest') msg.length client now newsock := by
  unfold tftpProc
  rw [ofBe16_append rest long, ofBe16_append rest' long]
  cases ses with
  | some s =>
    simp only [opDataProc, opAckProc, parseTftpdata_append rest long,
      parseTftpdata_append rest' long, parseTftpack_append rest long,
      parseTftpack_append rest' long]
  | none =>
    dsimp only
    split
    · rename_i request
      simp only [opReq, parseTftpreq_append rest rest' long (closed rfl request)]
    · rfl

/-- What is sent after the call does not depend on what `sinfo` held before. -/
def Proc.Decided (p : Proc) : Prop :=
  p.fill ≠ none ∨ p.ok = false ∨ ∃ s, p.ses = some s ∧ s.disabled = true

theorem replyOf_decided {p : Proc} (decided : p.Decided) (d : Datagram) (old old' : Bytes) :
    replyOf p d (p.fill.getD old) = replyOf p d (p.fill.getD old') := by
  rcases decided with filled | failed | ⟨s, pointer, disabled⟩
  · cases fill : p.fill with
    | none => exact absurd fill filled
    | some msg => rfl
  · simp only [replyOf, failed, if_true]
  · simp only [replyOf, pointer, disabled, if_true]

theorem errsend_decided (place : Session → Edit) (ses : Session) (ds : IWDS)
    (ecode : TftpErrorcode) {emsg : Bytes} (short : emsg.length < tftpEmsglenMax) :
    (errsend place ses ds ecode emsg).Decided := by
  rw [errsend_eq place ses ds ecode short]
  exact .inl (Option.some_ne_none _)

theorem errsendNone_decided (edit : Edit) (ds : IWDS) (ecode : TftpErrorcode) {emsg : Bytes}
    (short : emsg.length < tftpEmsglenMax) : (errsendNone edit ds ecode emsg).Decided := by
  rw [errsendNone_eq edit ds ecode short]
  exact .inl (Option.some_ne_none _)

theorem resend_decided (ses : Session) (ds : IWDS) (now : Int) : (resend ses ds now).Decided := by
  unfold resend
  split
  · exact .inl (Option.some_ne_none _)
  · exact .inr (.inr ⟨_, rfl, rfl⟩)

theorem startTransfer_decided (ses : Session) (ds : IWDS) (opcode : UInt16) (now : Int) :
    (startTransfer vol ses ds opcode now).Decided := by
  unfold startTransfer
  split
  · generalize makeTftpdataMsg vol ses ds tftpMsglenMax now = r
    obtain ⟨_ | msg, s, ds'⟩ := r
    · exact errsend_decided .insert s ds' .seeMsg serverError_short
    · exact .inl (Option.some_ne_none _)
  · exact .inl (Option.some_ne_none _)

theorem opReq_decided (ds : IWDS) (rbuf : Bytes) (dlen : Nat) (opcode : UInt16) (client : Client)
    (now : Int) (newsock : Option Int) :
    (opReq vol ds rbuf dlen opcode client now newsock).Decided := by
  unfold opReq
  split
  · exact errsendNone_decided .keep ds .illegalOpe empty_short
  · split
    · exact errsendNone_decided .keep ds .fileExist empty_short
    · exact errsendNone_decided .keep ds .notFound empty_short
    · split
      · exact errsendNone_decided _ ds .seeMsg serverError_short
      · exact startTransfer_decided _ ds opcode now

theorem opDataProc_decided (ses : Session) (ds : IWDS) (rbuf : Bytes) (dlen : Nat) (now : Int) :
    (opDataProc vol ses ds rbuf dlen now).Decided := by
  unfold opDataProc
  split
  · exact errsend_decided .update ses ds .illegalOpe empty_short
  · split
    · exact resend_decided ses ds now
    · split
      · unfold storeBlock
        dsimp only
        split
        · exact .inl (Option.some_ne_none _)
        · exact errsend_decided .update _ _ .accessDeny empty_short
      · exact errsend_decided .update ses ds .illegalOpe empty_short

theorem nextData_decided (ses : Session) (ds : IWDS) (now : Int) :
    (nextData vol ses ds now).Decided := by
  unfold nextData
  split
  · exact .inr (.inr ⟨_, rfl, rfl⟩)
  · generalize makeTftpdataMsg vol ses ds tftpMsglenMax now = r
    obtain ⟨_ | msg, s, ds'⟩ := r
    · exact errsend_decided .update s ds' .seeMsg serverError_short
    · exact .inl (Option.some_ne_none _)

/-- Only an ACK of a foreign block gets past all the branches that make a message. -/
theorem opAckProc_decided {ses : Session} {msg : Bytes} (ds : IWDS) (rest : Bytes) (now : Int)
    (long : 2 ≤ msg.length) (native : ¬ ForeignAck ses msg) :
    (opAckProc vol ses ds (msg ++ rest) msg.length now).Decided := by
  unfold opAckProc
  rw [parseTftpack_append rest long]
  split
  · exact errsend_decided .update ses ds .illegalOpe empty_short
  · rename_i blk parsed
    unfold parseTftpack at parsed
    split at parsed
    · cases parsed
    rename_i sized
    split at parsed
    · cases parsed
    rename_i opcode
    split
    · exact resend_decided ses ds now
    · rename_i notPrevious
      split
      · exact nextData_decided ses ds now
      · rename_i notCurrent
        obtain rfl := Option.some.inj parsed
        exact absurd ⟨not_not.mp opcode, not_not.mp sized, notCurrent, notPrevious⟩ native

/-- Every path but the unfilled ones makes a message or sends none. -/
theorem tftpProc_decided {ses : Option Session} {msg : Bytes} (ds : IWDS) (rest : Bytes)
    (client : Client) (now : Int) (newsock : Option Int) (long : 2 ≤ msg.length)
    (filled : ¬ Unfilled ses msg) :
    (tftpProc vol ses ds (msg ++ rest) msg.length client now newsock).Decided := by
  have known : KnownOpcode (opcodeOf msg) := by
    by_contra unknown
    exact filled (.inl unknown)
  unfold tftpProc
  rw [ofBe16_append rest long]
  dsimp only
  split
  · cases ses with
    | some s => exact resend_decided s ds now
    | none => exact opReq_decided ds _ _ _ client now newsock
  rename_i notRequest
  split
  · cases ses with
    | some s => exact opDataProc_decided s ds _ _ now
    | none => exact errsendNone_decided .keep ds .unknownId empty_short
  rename_i notData
  split
  · cases ses with
    | some s => exact opAckProc_decided ds rest now long fun foreign => filled (.inr ⟨s, rfl, foreign⟩)
    | none => exact errsendNone_decided .keep ds .unknownId empty_short
  rename_i notAck
  split
  · cases ses with
    | some s => exact .inr (.inr ⟨_, rfl, rfl⟩)
    | none => exact .inr (.inl rfl)
  rename_i notError
  rcases known with h | h | h | h | h
  · exact absurd (.inl h) notRequest
  · exact absurd (.inr h) notRequest
  · exact absurd h notData
  · exact absurd h notAck
  · exact absurd h notError

/-- Nothing is ever sent for a disabled session. -/
theorem replyOf_disabled {ses : Session} {ds : IWDS} {p : Proc} (handled : Handled vol ses ds p)
    (disabled : ses.disabled = true) (d : Datagram) (msg : Bytes) : replyOf p d msg = [] := by
  simp only [replyOf, handled.ok, handled.pointer, handled.disabled disabled, if_true]
  rfl

theorem SameView.receive {c : Client} {st st' : Server} (view : SameView c st st') (d : Datagram) :
    (st'.receive d).ads = (st.receive d).ads := by
  simp only [Server.receive, view.dhead, view.disk]

/-- States that agree on what a reply may depend on give the same reply to a
self-contained message. -/
theorem selfContained_determined {st st' : Server} {d : Datagram} {c : Client}
    (named : host.client d.src = some c) (view : SameView c st st')
    (closed : SelfContained (getSession st.seshead c) d.delivered) :
    (recv host st' d).2 = (recv host st d).2 := by
  have same : getSession st'.seshead c = getSession st.seshead c := view.session
  rw [recv_eq named, recv_eq named]
  by_cases silent : ∃ s, getSession st.seshead c = some s ∧ s.disabled = true
  · obtain ⟨s, found, disabled⟩ := silent
    have left := proc_handled host d (same.trans found)
    have right := proc_handled host d found
    exact (replyOf_disabled left disabled d _).trans (replyOf_disabled right disabled d _).symm
  · have clear : 2 ≤ d.delivered.length ∧ ¬ Unfilled (getSession st.seshead c) d.delivered ∧
        (getSession st.seshead c = none →
          opcodeOf d.delivered = opRrq ∨ opcodeOf d.delivered = opWrq →
          RequestClosed d.delivered) := by
      cases found : getSession st.seshead c with
      | some s =>
        rw [found] at closed silent
        rcases closed with disabled | ⟨long, filled⟩
        · exact absurd ⟨s, rfl, disabled⟩ silent
        · exact ⟨long, filled, fun impossible => by cases impossible⟩
      | none =>
        rw [found] at closed
        exact ⟨closed.1, closed.2.1, fun _ => closed.2.2⟩
    obtain ⟨long, filled, request⟩ := clear
    have call : st'.proc host d c = st.proc host d c := by
      simp only [Server.proc]
      rw [receive_rbuf_eq, receive_rbuf_eq, view.receive, ← d.delivered_length]
      have list : getSession (st'.receive d).seshead c = getSession (st.receive d).seshead c := same
      rw [list]
      exact tftpProc_append _ _ _ _ c d.now d.newsock long request
    have decided : (st.proc host d c).Decided := by
      simp only [Server.proc]
      rw [receive_rbuf_eq, ← d.delivered_length]
      exact tftpProc_decided _ _ c d.now d.newsock long filled
    dsimp only
    rw [call]
    exact replyOf_decided decided d _ _

/-! ## What other clients leave behind -/

/-- A datagram of a client that has no session. -/
def stray (src : SockAddr) (bytes : Bytes) : Datagram where
  sock := 0
  src := src
  bytes := bytes
  now := 0
  newsock := none
  faults := []

/-- What the message of the table looks like for a request that is not understood. -/
abbrev illegalMsg : Bytes := errorMsg .illegalOpe (errmsgs .illegalOpe)

abbrev unknownMsg : Bytes := errorMsg .unknownId (errmsgs .unknownId)

/-- The state after a datagram that changes no session. -/
def Server.strayed (st : Server) (bytes msg : Bytes) : Server :=
  { st with
    ads := { st.ads with faults := [], trace := [] }
    rbuf := bytes.take nwbufSize ++ st.rbuf.drop bytes.length
    msg := msg }

theorem strayed_view (c : Client) (st : Server) (bytes msg : Bytes) :
    SameView c st (st.strayed bytes msg) := ⟨rfl, rfl, rfl⟩

private theorem stray_opcode (opcode : UInt16) (tail rest : Bytes) :
    ofBe16 ((be16 opcode ++ tail).take nwbufSize ++ rest) = opcode := by
  have start : (be16 opcode ++ tail).take nwbufSize = be16 opcode ++ tail.take (nwbufSize - 2) := by
    rw [List.take_append, List.take_of_length_le (by rw [be16_length]; decide), be16_length]
  rw [start, List.append_assoc, ofBe16_be16]

section
variable {st : Server} {src : SockAddr} {x : Client}

/-- DATA without a session leaves the message about an unknown transfer. -/
theorem step_strayData (named : host.client src = some x) (absent : getSession st.seshead x = none)
    (tail : Bytes) :
    step host st (.datagram (stray src (be16 opData ++ tail))) =
      st.strayed (be16 opData ++ tail) unknownMsg := by
  have named' : host.client (stray src (be16 opData ++ tail)).src = some x := named
  have absent' : getSession (st.receive (stray src (be16 opData ++ tail))).seshead x = none := absent
  have opcode : ofBe16 (st.receive (stray src (be16 opData ++ tail))).rbuf = opData :=
    stray_opcode opData tail _
  simp only [step, serve, recv_eq named', Server.proc, absent', tftpProc, opcode,
    errsendNone_eq .keep _ .unknownId empty_short]
  rfl

/-- ERROR without a session leaves `sinfo` as it is. -/
theorem step_strayError (named : host.client src = some x) (absent : getSession st.seshead x = none)
    (tail : Bytes) :
    step host st (.datagram (stray src (be16 opError ++ tail))) =
      st.strayed (be16 opError ++ tail) st.msg := by
  have named' : host.client (stray src (be16 opError ++ tail)).src = some x := named
  have absent' : getSession (st.receive (stray src (be16 opError ++ tail))).seshead x = none := absent
  have opcode : ofBe16 (st.receive (stray src (be16 opError ++ tail))).rbuf = opError :=
    stray_opcode opError tail _
  simp only [step, serve, recv_eq named', Server.proc, absent', tftpProc, opcode]
  rfl

/-- A request cut short leaves the message about an illegal operation. -/
theorem step_strayRequest (named : host.client src = some x)
    (absent : getSession st.seshead x = none) :
    step host st (.datagram (stray src (be16 opRrq))) = st.strayed (be16 opRrq) illegalMsg := by
  have named' : host.client (stray src (be16 opRrq)).src = some x := named
  have absent' : getSession (st.receive (stray src (be16 opRrq))).seshead x = none := absent
  have opcode : ofBe16 (st.receive (stray src (be16 opRrq))).rbuf = opRrq :=
    stray_opcode opRrq [] _
  have short : (stray src (be16 opRrq)).len < 2 + 2 + 5 + 1 := by
    show min 2 1024 < 10
    omega
  simp only [step, serve, recv_eq named', Server.proc, absent', tftpProc, opcode, opReq,
    parseTftpreq, short, errsendNone_eq .keep _ .illegalOpe empty_short]
  rfl

end

/-- A state that a stranger's datagram can turn the given one into. -/
structure Strayed (host : Host) (c : Client) (st st' : Server) : Prop where
  reachable : Reachable host st'
  view : SameView c st st'
  seshead : st'.seshead = st.seshead

theorem strayed_of_step {st : Server} {src : SockAddr} {bytes msg : Bytes} (c : Client)
    (reachable : Reachable host st)
    (after : step host st (.datagram (stray src bytes)) = st.strayed bytes msg) :
    Strayed host c st (st.strayed bytes msg) := by
  refine ⟨?_, strayed_view c st bytes msg, rfl⟩
  rw [← after]
  exact reachable.step fun fd impossible => by cases impossible

theorem Strayed.admissible {c : Client} {st st' : Server} {d : Datagram}
    (strayed : Strayed host c st st') (admissible : Admissible st (.datagram d)) :
    Admissible st' (.datagram d) := by
  intro fd newsock
  rw [strayed.seshead]
  exact admissible fd newsock

/-- An opcode above those of the protocol changes nothing and reports success. -/
theorem tftpProc_unknown (ses : Option Session) (ds : IWDS) {rbuf : Bytes} (dlen : Nat)
    (client : Client) (now : Int) (newsock : Option Int) (unknown : ¬ KnownOpcode (ofBe16 rbuf)) :
    tftpProc vol ses ds rbuf dlen client now newsock =
      { edit := .keep, ses := ses, fill := none, ok := true, ds := ds } := by
  simp only [KnownOpcode, not_or] at unknown
  obtain ⟨notRrq, notWrq, notData, notAck, notError⟩ := unknown
  simp only [tftpProc, notRrq, notWrq, notData, notAck, notError, or_self, if_false]

/-- So does an ACK of a foreign block. -/
theorem tftpProc_foreign {ses : Session} {msg : Bytes} (ds : IWDS) (rest : Bytes)
    (client : Client) (now : Int) (newsock : Option Int) (foreign : ForeignAck ses msg) :
    tftpProc vol (some ses) ds (msg ++ rest) msg.length client now newsock =
      { edit := .keep, ses := some ses, fill := none, ok := true, ds := ds } := by
  obtain ⟨opcode, sized, notCurrent, notPrevious⟩ := foreign
  have read : ofBe16 (msg ++ rest) = opAck := (ofBe16_append rest (by omega)).trans opcode
  have parsed : parseTftpack (msg ++ rest) msg.length = some (ofBe16 (msg.drop 2)) := by
    rw [parseTftpack_append rest (by omega)]
    have opcode' : ofBe16 msg = opAck := opcode
    simp only [parseTftpack, sized, opcode', ne_eq, not_true, if_false]
  have notRequest : ¬ (opAck = opRrq ∨ opAck = opWrq) := by decide
  have notData : opAck ≠ opData := by decide
  simp only [tftpProc, read, opAckProc, parsed, notRequest, notData, if_false, if_true,
    notCurrent, notPrevious]

theorem tftpProc_unfilled {ses : Option Session} {msg : Bytes} (ds : IWDS) (rest : Bytes)
    (client : Client) (now : Int) (newsock : Option Int) (long : 2 ≤ msg.length)
    (unfilled : Unfilled ses msg) :
    tftpProc vol ses ds (msg ++ rest) msg.length client now newsock =
      { edit := .keep, ses := ses, fill := none, ok := true, ds := ds } := by
  rcases unfilled with unknown | ⟨s, rfl, foreign⟩
  · apply tftpProc_unknown ses ds _ client now newsock
    rwa [ofBe16_append rest long]
  · exact tftpProc_foreign ds rest client now newsock foreign

theorem opReq_unparsed {ds : IWDS} {rbuf : Bytes} {dlen : Nat} {opcode : UInt16}
    {client : Client} {now : Int} {newsock : Option Int}
    (unparsed : parseTftpreq rbuf dlen = none) :
    opReq vol ds rbuf dlen opcode client now newsock =
      { edit := .keep, ses := none, fill := some illegalMsg, ok := true, ds := ds } := by
  simp only [opReq, unparsed, errsendNone_eq .keep ds .illegalOpe empty_short]
  rfl

/-- A request that passes the parser is never answered as an illegal one. -/
theorem opReq_parsed (vol : Volume) (ds : IWDS) {rbuf : Bytes} {dlen : Nat} (opcode : UInt16)
    (client : Client) (now : Int) (newsock : Option Int) {req : TftpReq} (parsed : parseTftpreq rbuf dlen = some req) :
    ∃ msg, (opReq vol ds rbuf dlen opcode client now newsock).fill = some msg ∧
      msg ≠ illegalMsg := by
  simp only [opReq, parsed]
  split
  · rw [errsendNone_eq .keep ds .fileExist empty_short]
    exact ⟨_, rfl, by decide⟩
  · rw [errsendNone_eq .keep ds .notFound empty_short]
    exact ⟨_, rfl, by decide⟩
  · split
    · rw [errsendNone_eq _ ds .seeMsg serverError_short]
      exact ⟨_, rfl, by decide⟩
    · rename_i fd
      unfold startTransfer
      split
      · cases made : makeTftpdataMsg vol (newSession client req fd) ds tftpMsglenMax now with
        | mk message rest =>
          obtain ⟨s, ds'⟩ := rest
          cases message with
          | none =>
            dsimp only
            rw [errsend_eq .insert s ds' .seeMsg serverError_short]
            exact ⟨_, rfl, by decide⟩
          | some msg =>
            refine ⟨msg, rfl, ?_⟩
            intro same
            obtain ⟨_, _, data, rfl⟩ := makeTftpdataMsg_some made
            have opcode := congrArg opcodeOf same
            rw [opcodeOf_dataMsg, opcodeOf_errorMsg] at opcode
            exact absurd opcode (by decide)
      · refine ⟨ackMsg 0, rfl, ?_⟩
        intro same
        have opcode := congrArg opcodeOf same
        rw [opcodeOf_ackMsg, opcodeOf_errorMsg] at opcode
        exact absurd opcode (by decide)

/-- The fields of an open request can be completed, and can be left without an end. -/
theorem open_request {msg : Bytes} (request : opcodeOf msg = opRrq ∨ opcodeOf msg = opWrq)
    (unclosed : ¬ RequestClosed msg) :
    2 ≤ msg.length ∧ msg.length ≤ 300 ∧
      (∀ rest, (0 : UInt8) ∉ rest → parseTftpreq (msg ++ rest) msg.length = none) ∧
      ∃ completion, completion.length ≤ 300 ∧
        ∀ rest, ∃ req, parseTftpreq (msg ++ (completion ++ rest)) msg.length = some req := by
  simp only [RequestClosed, not_or, Nat.not_lt] at unclosed
  obtain ⟨long, unclosed⟩ := unclosed
  have legal (rest : Bytes) : ¬ (ofBe16 (msg ++ rest) ≠ opRrq ∧ ofBe16 (msg ++ rest) ≠ opWrq) := by
    rw [ofBe16_append rest (by omega)]
    rintro ⟨notRrq, notWrq⟩
    exact request.elim notRrq notWrq
  have sized : ¬ msg.length < 2 + 2 + 5 + 1 := by omega
  have filenameMax : tftpFilenameMax = 256 := rfl
  have modenameMax : tftpModenameMax = 9 := rfl
  have accepted (mode : TftpMode) (filename : Bytes) :
      ∃ req, (if mode.name = TftpMode.netascii.name then
          some { filename := filename, mode := TftpMode.netascii }
        else if mode.name = TftpMode.octet.name then
          some { filename := filename, mode := TftpMode.octet }
        else none : Option TftpReq) = some req := by
    cases mode
    · exact ⟨_, if_pos rfl⟩
    · exact ⟨_, (if_neg (by decide)).trans (if_pos rfl)⟩
  cases filenameField : parseField msg 2 tftpFilenameMax with
  | none =>
    rw [filenameField] at unclosed
    dsimp only at unclosed
    have endless : (0 : UInt8) ∉ msg.drop 2 := by
      have := parseField_none_iff.mp filenameField
      rwa [List.take_of_length_le] at this
      rw [List.length_drop]
      omega
    refine ⟨by omega, by omega, ?_, 0 :: (TftpMode.octet.name ++ [0]), by decide, ?_⟩
    · intro rest free
      have missing : parseField (msg ++ rest) 2 tftpFilenameMax = none := by
        rw [parseField_none_iff, List.drop_append_of_le_length (by omega)]
        intro zero
        rcases List.mem_append.mp (List.mem_of_mem_take zero) with inside | beyond
        · exact endless inside
        · exact free beyond
      simp only [parseTftpreq, sized, legal, missing, if_false]
    · intro rest
      have whole : msg ++ (0 :: (TftpMode.octet.name ++ [0]) ++ rest) =
          msg.take 2 ++ (msg.drop 2 ++ 0 :: (TftpMode.octet.name ++ [0] ++ rest)) := by
        rw [← List.append_assoc (msg.take 2), List.take_append_drop, List.cons_append]
      have filename : parseField (msg ++ (0 :: (TftpMode.octet.name ++ [0]) ++ rest)) 2
          tftpFilenameMax = some (msg.drop 2) := by
        have short : (msg.drop 2).length < tftpFilenameMax := by
          rw [List.length_drop]
          omega
        have laid := parseField_laid (msg.take 2) (TftpMode.octet.name ++ [0] ++ rest) endless short
        rw [List.length_take, Nat.min_eq_left (by omega)] at laid
        rw [whole]
        exact laid
      have mode : parseField (msg ++ (0 :: (TftpMode.octet.name ++ [0]) ++ rest))
          (2 + (msg.drop 2).length + 1) tftpModenameMax = some TftpMode.octet.name := by
        have laid := parseField_laid (msg ++ [0]) rest (modename_free .octet) (modename_short .octet)
        have place : (msg ++ [(0 : UInt8)]).length = 2 + (msg.drop 2).length + 1 := by
          simp only [List.length_append, List.length_drop, List.length_singleton]
          omega
        rw [place] at laid
        simpa using laid
      simp only [parseTftpreq, sized, legal, filename, mode, if_false]
      exact accepted .octet (msg.drop 2)
  | some filename =>
    rw [filenameField] at unclosed
    dsimp only at unclosed
    obtain ⟨inside, _, short, _⟩ := parseField_inside filenameField
    push Not at unclosed
    obtain ⟨mode, more, name⟩ := unclosed
    have nameShort := modename_short mode
    have nameFree := modename_free mode
    have lengths := congrArg List.length name
    rw [List.length_append, List.length_drop] at lengths
    have endless : (0 : UInt8) ∉ msg.drop (2 + filename.length + 1) := fun zero =>
      nameFree (name ▸ List.mem_append_left more zero)
    refine ⟨by omega, by omega, ?_, more ++ [0], by
      rw [List.length_append, List.length_singleton]
      omega, ?_⟩
    · intro rest free
      have missing : parseField (msg ++ rest) (2 + filename.length + 1) tftpModenameMax = none := by
        rw [parseField_none_iff, List.drop_append_of_le_length inside]
        intro zero
        rcases List.mem_append.mp (List.mem_of_mem_take zero) with within | beyond
        · exact endless within
        · exact free beyond
      simp only [parseTftpreq, sized, legal, parseField_append rest filenameField, missing, if_false]
    · intro rest
      have modeField : parseField (msg ++ (more ++ [0] ++ rest)) (2 + filename.length + 1)
          tftpModenameMax = some mode.name := by
        have laid := parseField_laid (msg.take (2 + filename.length + 1)) rest nameFree nameShort
        rw [List.length_take, Nat.min_eq_left inside, ← name, List.append_assoc (msg.drop _),
          ← List.append_assoc (msg.take _), List.take_append_drop] at laid
        rw [← name]
        simpa using laid
      simp only [parseTftpreq, sized, legal, parseField_append _ filenameField, modeField, if_false]
      exact accepted mode filename

/-- A reply that is sent shows the message. -/
theorem replyOf_shows {p : Proc} {d : Datagram} {msg msg' : Bytes} (ok : p.ok = true)
    (enabled : ∀ s, p.ses = some s → s.disabled = false)
    (same : replyOf p d msg = replyOf p d msg') : msg = msg' := by
  have sent : ¬ p.ok = false := by simp [ok]
  simp only [replyOf, if_neg sent] at same
  cases pointer : p.ses with
  | none => simpa [pointer] using same
  | some s =>
    have notDisabled : s.disabled = false := enabled s pointer
    simpa [pointer, notDisabled] using same

theorem replyOf_msg {p : Proc} {d : Datagram} {msg : Bytes} {m : Sent} (member : m ∈ replyOf p d msg) :
    m.msg = msg := by
  unfold replyOf at member
  split at member
  · cases member
  · split at member
    · split at member
      · cases member
      · rw [List.mem_singleton.mp member]
    · rw [List.mem_singleton.mp member]

theorem replyOf_ne {p : Proc} {d : Datagram} {msg : Bytes} {m : Sent} (different : m.msg ≠ msg) :
    [m] ≠ replyOf p d msg := fun same =>
  different (replyOf_msg (same ▸ List.mem_singleton_self m : m ∈ replyOf p d msg))

/-- A reply that is sent is not no reply. -/
theorem replyOf_sent {p : Proc} {d : Datagram} {msg : Bytes} (ok : p.ok = true)
    (enabled : ∀ s, p.ses = some s → s.disabled = false) : replyOf p d msg ≠ [] := by
  have sent : ¬ p.ok = false := by simp [ok]
  simp only [replyOf, if_neg sent]
  cases pointer : p.ses with
  | none => simp
  | some s =>
    have notDisabled : s.disabled = false := enabled s pointer
    simp [notDisabled]

/-- Bytes that are too few for an opcode are completed from the leftovers. -/
theorem opcode_completed {msg : Bytes} (few : msg = [] ∨ msg = [0]) (low : UInt8)
    (rest : Bytes) :
    ofBe16 (msg ++ ([0, low] ++ rest).drop msg.length) = UInt16.ofNat low.toNat := by
  rcases few with rfl | rfl <;> simp [ofBe16]

/-- A first byte other than 0 is no opcode of the protocol. -/
theorem opcode_high {b : UInt8} (rest : Bytes) (high : b ≠ 0) :
    ¬ KnownOpcode (ofBe16 (b :: rest)) := by
  have positive : b.toNat ≠ 0 := fun zero => high (UInt8.toNat_inj.mp zero)
  have bound := b.toNat_lt
  have value : 256 ≤ (ofBe16 (b :: rest)).toNat := by
    have next := (rest.getD 0 0).toNat_lt
    simp only [ofBe16, List.getD_cons_zero, List.getD_cons_succ, UInt16.toNat_ofNat']
    omega
  rintro (h | h | h | h | h) <;> rw [h] at value <;> exact absurd value (by decide)

/-- DATA too short to be parsed is answered whether or not there is a session. -/
theorem tftpProc_shortData (vol : Volume) {ses : Option Session} (ds : IWDS) {rbuf : Bytes}
    {dlen : Nat} (client : Client) (now : Int) (newsock : Option Int)
    (opcode : ofBe16 rbuf = opData) (short : dlen < 4) (enabled : ∀ s, ses = some s → s.disabled = false) :
    (tftpProc vol ses ds rbuf dlen client now newsock).ok = true ∧
      ∀ s, (tftpProc vol ses ds rbuf dlen client now newsock).ses = some s →
        s.disabled = false := by
  have notRequest : ¬ (opData = opRrq ∨ opData = opWrq) := by decide
  simp only [tftpProc, opcode, notRequest, if_false, if_true]
  cases ses with
  | none =>
    dsimp only
    rw [errsendNone_eq .keep ds .unknownId empty_short]
    exact ⟨rfl, fun s impossible => by cases impossible⟩
  | some s =>
    have unparsed : parseTftpdata rbuf dlen = none := if_pos (.inl short)
    simp only [opDataProc, unparsed, errsend_eq .update s ds .illegalOpe empty_short]
    refine ⟨trivial, fun t same => ?_⟩
    cases same
    exact enabled s rfl

/-- ERROR is never answered. -/
theorem replyOf_error {ses : Option Session} {ds : IWDS} {rbuf : Bytes} {dlen : Nat}
    {client : Client} {now : Int} {newsock : Option Int} (opcode : ofBe16 rbuf = opError)
    (d : Datagram) (msg : Bytes) :
    replyOf (tftpProc vol ses ds rbuf dlen client now newsock) d msg = [] := by
  have notRequest : ¬ (opError = opRrq ∨ opError = opWrq) := by decide
  have notData : opError ≠ opData := by decide
  have notAck : opError ≠ opAck := by decide
  simp only [tftpProc, opcode, notRequest, notData, notAck, if_false, if_true]
  cases ses <;> rfl

/-- The call for a client on a datagram that is followed in `rbuf` by the given bytes. -/
def Server.procOn (host : Host) (st : Server) (d : Datagram) (c : Client) (rest : Bytes) : Proc :=
  tftpProc host.toVolume (getSession st.seshead c) (st.receive d).ads (d.delivered ++ rest)
    d.delivered.length c d.now d.newsock

section
variable {st : Server} {d : Datagram} {c : Client} {src : SockAddr} {x : Client}

theorem reply_procOn (named : host.client d.src = some c) {st' : Server}
    (view : SameView c st st') :
    (recv host st' d).2 = replyOf (st.procOn host d c (st'.rbuf.drop d.bytes.length)) d
      ((st.procOn host d c (st'.rbuf.drop d.bytes.length)).fill.getD st'.msg) := by
  have list : getSession (st'.receive d).seshead c = getSession st.seshead c := view.session
  rw [recv_eq named]
  simp only [Server.proc, Server.procOn, receive_rbuf_eq, ← d.delivered_length, view.receive, list]

/-- Where the call leaves `sinfo` alone, two strangers leave two replies behind. -/
private theorem differs_unfilled (reachable : Reachable host st)
    (named : host.client d.src = some c) (stranger : host.client src = some x)
    (absent : getSession st.seshead x = none)
    (enabled : ∀ s, getSession st.seshead c = some s → s.disabled = false)
    (still : ∀ rest, st.procOn host d c rest =
      { edit := .keep, ses := getSession st.seshead c, fill := none, ok := true,
        ds := (st.receive d).ads }) :
    ∃ st₁ st₂, Strayed host c st st₁ ∧ Strayed host c st st₂ ∧
      (recv host st₁ d).2 ≠ (recv host st₂ d).2 := by
  have first := strayed_of_step c reachable (step_strayData stranger absent [])
  have second := strayed_of_step c reachable (step_strayRequest stranger absent)
  refine ⟨_, _, first, second, ?_⟩
  rw [reply_procOn named first.view, reply_procOn named second.view, still, still]
  intro same
  have shown : unknownMsg = illegalMsg := replyOf_shows rfl enabled same
  exact absurd shown (by decide)

/-- Where the leftovers decide on the opcode, DATA is answered and ERROR is not. -/
private theorem differs_opcode (reachable : Reachable host st)
    (named : host.client d.src = some c) (stranger : host.client src = some x)
    (absent : getSession st.seshead x = none)
    (enabled : ∀ s, getSession st.seshead c = some s → s.disabled = false)
    (few : d.delivered = [] ∨ d.delivered = [0]) :
    ∃ st₁ st₂, Strayed host c st st₁ ∧ Strayed host c st st₂ ∧
      (recv host st₁ d).2 ≠ (recv host st₂ d).2 := by
  have first := strayed_of_step c reachable (step_strayData stranger absent [])
  have second := strayed_of_step c reachable (step_strayError stranger absent [])
  have short : d.delivered.length < 2 := by
    rcases few with none | one
    · simp [none]
    · simp [one]
  have whole : d.bytes.length = d.delivered.length := by
    have size : d.delivered.length = min 1024 d.bytes.length := List.length_take
    omega
  have reads (low : UInt8) (msg : Bytes) (rest : Bytes) :
      ofBe16 (d.delivered ++ (st.strayed [0, low] msg).rbuf.drop d.bytes.length) =
        UInt16.ofNat low.toNat := by
    rw [whole]
    exact opcode_completed few low _
  refine ⟨_, _, first, second, ?_⟩
  rw [reply_procOn named first.view, reply_procOn named second.view]
  have tooShort : d.delivered.length < 4 := by omega
  have answered := tftpProc_shortData host.toVolume (st.receive d).ads c d.now d.newsock
    (reads 3 unknownMsg []) tooShort enabled
  intro same
  refine replyOf_sent answered.1 answered.2 (same.trans ?_)
  exact replyOf_error (reads 5 st.msg []) d _

/-- What a stranger's datagram leaves past a shorter one. -/
private theorem strayed_left (st : Server) {before after : Bytes} (msg : Bytes)
    (fits : (before ++ after).length ≤ nwbufSize) :
    (st.strayed (before ++ after) msg).rbuf.drop before.length =
      after ++ st.rbuf.drop (before ++ after).length := by
  simp only [Server.strayed]
  rw [List.take_of_length_le fits, List.append_assoc, List.drop_left]

/-- Where the fields of a request are not ended, the leftovers decide on it. -/
private theorem differs_request (reachable : Reachable host st)
    (named : host.client d.src = some c) (stranger : host.client src = some x)
    (absent : getSession st.seshead x = none) (new : getSession st.seshead c = none)
    (request : opcodeOf d.delivered = opRrq ∨ opcodeOf d.delivered = opWrq)
    (unclosed : ¬ RequestClosed d.delivered) :
    ∃ st₁ st₂, Strayed host c st st₁ ∧ Strayed host c st st₂ ∧
      (recv host st₁ d).2 ≠ (recv host st₂ d).2 := by
  obtain ⟨long, short, rejected, completion, fits, accepted⟩ := open_request request unclosed
  have bufsize : nwbufSize = 1024 := rfl
  have whole : d.bytes.length = d.delivered.length := by
    have size : d.delivered.length = min nwbufSize d.bytes.length := List.length_take
    omega
  let ones (n : Nat) : Bytes := List.replicate n 1
  let before : Bytes := be16 opData ++ ones (d.delivered.length - 2)
  have size : before.length = d.delivered.length := by
    simp only [before, ones, List.length_append, be16_length, List.length_replicate]
    omega
  have sent (after : Bytes) : Strayed host c st (st.strayed (before ++ after) unknownMsg) := by
    have step := step_strayData stranger absent (ones (d.delivered.length - 2) ++ after)
    rw [← List.append_assoc] at step
    exact strayed_of_step c reachable step
  have left (after : Bytes) (short : after.length ≤ nwbufSize - d.delivered.length) :
      (st.strayed (before ++ after) unknownMsg).rbuf.drop d.bytes.length =
        after ++ st.rbuf.drop (before ++ after).length := by
    rw [whole, ← size]
    apply strayed_left st unknownMsg
    rw [List.length_append]
    omega
  have opcode (rest : Bytes) : ofBe16 (d.delivered ++ rest) = opRrq ∨
      ofBe16 (d.delivered ++ rest) = opWrq := by
    rw [ofBe16_append rest long]
    exact request
  have call (rest : Bytes) : st.procOn host d c rest = opReq host.toVolume (st.receive d).ads
      (d.delivered ++ rest) d.delivered.length (ofBe16 (d.delivered ++ rest)) c d.now d.newsock := by
    simp only [Server.procOn, new, tftpProc, if_pos (opcode rest)]
  refine ⟨_, _, sent (ones (nwbufSize - d.delivered.length)), sent completion, ?_⟩
  rw [reply_procOn named (sent _).view, reply_procOn named (sent _).view,
    left _ (by simp [ones]), left completion (by omega), call, call]
  have endless : st.rbuf.drop (before ++ ones (nwbufSize - d.delivered.length)).length = [] := by
    apply List.drop_of_length_le
    have full := reachable.wellFormed.rbuf
    rw [List.length_append, size]
    simp only [ones, List.length_replicate]
    omega
  have plain : (0 : UInt8) ∉ ones (nwbufSize - d.delivered.length) := fun zero =>
    absurd (List.eq_of_mem_replicate zero) (by decide)
  rw [endless, List.append_nil]
  obtain ⟨req, parsed⟩ := accepted (st.rbuf.drop (before ++ completion).length)
  obtain ⟨msg, filled, legal⟩ := opReq_parsed host.toVolume (st.receive d).ads
    (ofBe16 (d.delivered ++ (completion ++ st.rbuf.drop (before ++ completion).length)))
    c d.now d.newsock parsed
  rw [filled, opReq_unparsed (rejected _ plain)]
  exact replyOf_ne (m := { sock := d.sock, dest := d.src, msg := illegalMsg, ses := none }) legal.symm

/-- A datagram that is not self-contained is answered in two ways, depending on what a
stranger sent before. -/
theorem not_selfContained_differs (reachable : Reachable host st)
    (named : host.client d.src = some c) (stranger : host.client src = some x)
    (absent : getSession st.seshead x = none)
    (dependent : ¬ SelfContained (getSession st.seshead c) d.delivered) :
    ∃ st₁ st₂, Strayed host c st st₁ ∧ Strayed host c st st₂ ∧
      (recv host st₁ d).2 ≠ (recv host st₂ d).2 := by
  have enabled : ∀ s, getSession st.seshead c = some s → s.disabled = false := by
    intro s found
    rw [found] at dependent
    by_contra disabled
    exact dependent (.inl (by simpa using disabled))
  by_cases long : 2 ≤ d.delivered.length
  · by_cases unfilled : Unfilled (getSession st.seshead c) d.delivered
    · exact differs_unfilled reachable named stranger absent enabled fun rest =>
        tftpProc_unfilled _ rest c d.now d.newsock long unfilled
    · cases found : getSession st.seshead c with
      | some s =>
        rw [found] at dependent unfilled
        exact absurd (.inr ⟨long, unfilled⟩) dependent
      | none =>
        rw [found] at dependent unfilled
        by_cases request : opcodeOf d.delivered = opRrq ∨ opcodeOf d.delivered = opWrq
        · apply differs_request reachable named stranger absent found request
          exact fun closed => dependent ⟨long, unfilled, fun _ => closed⟩
        · exact absurd ⟨long, unfilled, fun is => absurd is request⟩ dependent
  · cases bytes : d.delivered with
    | nil => exact differs_opcode reachable named stranger absent enabled (.inl bytes)
    | cons b rest =>
      have single : rest = [] := by
        rw [bytes] at long
        cases rest with
        | nil => rfl
        | cons => simp at long
      subst single
      by_cases zero : b = 0
      · subst zero
        exact differs_opcode reachable named stranger absent enabled (.inr bytes)
      · apply differs_unfilled reachable named stranger absent enabled
        intro rest
        simp only [Server.procOn, bytes]
        exact tftpProc_unknown _ _ _ c d.now d.newsock (opcode_high rest zero)

/-- The reply to a datagram is determined by the datagram, the session of its client and the
datastore exactly when the datagram is self-contained for that session.

Proof: `tftp_proc` reads the datagram, the session and the datastore, and fills `sinfo` on every
path but two. For a datagram that is not self-contained two states are made that differ in what an
earlier datagram left in `rbuf` or `sinfo`. -/
theorem reply_determined_iff (reachable : Reachable host st)
    (admissible : Admissible st (.datagram d)) (named : host.client d.src = some c)
    (stranger : ∃ src x, host.client src = some x ∧ x ≠ c ∧ getSession st.seshead x = none) :
    (∀ st', Reachable host st' → Admissible st' (.datagram d) → SameView c st st' →
      (recv host st' d).2 = (recv host st d).2) ↔
      SelfContained (getSession st.seshead c) d.delivered := by
  refine ⟨?_, fun closed st' _ _ view => selfContained_determined named view closed⟩
  intro determined
  by_contra dependent
  obtain ⟨src, x, isNamed, _, absent⟩ := stranger
  obtain ⟨st₁, st₂, first, second, differ⟩ :=
    not_selfContained_differs reachable named isNamed absent dependent
  apply differ
  rw [determined st₁ first.reachable (first.admissible admissible) first.view,
    determined st₂ second.reachable (second.admissible admissible) second.view]

end

/-- A client without a session sends an opcode that does not exist, and another client
could have sent something before. -/
theorem reply_determined_iff_sample :
    (∀ st', Reachable smallHost st' →
      Admissible st' (.datagram (arrival [1] (be16 9) none)) →
      SameView ([1], 2000) (startOn fun _ => .absent) st' →
      (recv smallHost st' (arrival [1] (be16 9) none)).2 =
        (recv smallHost (startOn fun _ => .absent) (arrival [1] (be16 9) none)).2) ↔
      SelfContained none (be16 9) :=
  reply_determined_iff (startOn_reachable smallHost _) (fun fd impossible => by cases impossible)
    rfl ⟨[2], ([2], 2000), rfl, by decide, rfl⟩

/-- One stranger leaves the message about an unknown transfer in `sinfo`, another the
message about an illegal operation; the next client gets the one or the other. -/
theorem replies_not_determined : ¬ RepliesDetermined smallHost := by
  intro determined
  have reachable := startOn_reachable smallHost fun _ => .absent
  have quiet (st : Server) (d : Datagram) (none : d.newsock = none) : Admissible st (.datagram d) := by
    intro fd some
    rw [none] at some
    cases some
  have same := determined _ _ (arrival [1] (be16 9) none) ([1], 2000)
    (reachable.step (quiet _ (stray [2] (be16 opData)) rfl))
    (reachable.step (quiet _ (stray [2] (be16 opRrq)) rfl))
    (quiet _ _ rfl) (quiet _ _ rfl) rfl ⟨rfl, rfl, rfl⟩
  exact absurd same (by decide +kernel)

end Iwtftpd
