import Iwtftpd.Lib.Blocks
import Iwtftpd.Lifecycle
import Iwtftpd.Storing

/-!
# An upload over a network that loses, repeats and reorders

A client uploads one file in octet mode. Whatever datagrams of that upload reach
the server, in whatever order and number, and whatever the other clients do, an
ACK of the last block is sent only when the file holds the whole content. Up to
the first mistake of the network the session writes the file; after that it
either completes it, or finds the file closed and refuses every further block.
A name that leads to a device is no file: there the ACK comes all the same, and
nothing is kept.
-/

namespace Iwtftpd

variable {host : Host} {vol : Volume}

/-! ## Between two datagrams of the client -/

theorem Writing.undisturbed {total : Bytes} {s s' : Session} {ds ds' : IWDS} {now : Int}
    (writing : Writing vol total s ds) (inv : Consistent vol ds) (aged : Aged now s s')
    (frame : Undisturbed s.dkey ds ds') : Writing vol total s' ds' := by
  have node : ds'.at s'.dkey = ds.at s.dkey := by
    rw [dkey_of_ident aged.ident]
    exact frame.node
  apply writing.congr aged.sesbuf (filename_of_ident aged.ident) node
  · intro d found mode
    rw [← place_of_found inv found]
    exact frame.file d found mode
  · exact (frame.device _).mpr

theorem Closed.undisturbed {total : Bytes} {s s' : Session} {ds ds' : IWDS} {now : Int}
    (closed : Closed vol total s ds) (aged : Aged now s s') (frame : Undisturbed s.dkey ds ds') :
    Closed vol total s' ds' := by
  refine ⟨?_, ?_, by rw [aged.sesbuf]; exact closed.empty⟩
  · rw [dkey_of_ident aged.ident, frame.node]
    exact closed.absent
  · rw [filename_of_ident aged.ident]
    exact frame.settled _ _ closed.settled

theorem Stuck.undisturbed {s s' : Session} {ds ds' : IWDS} {now : Int} (stuck : Stuck vol s ds)
    (aged : Aged now s s') (frame : Undisturbed s.dkey ds ds') : Stuck vol s' ds' := by
  constructor
  · rw [dkey_of_ident aged.ident, frame.node]
    exact stuck.absent
  · rw [filename_of_ident aged.ident]
    exact frame.taken _ stuck.taken

/-! ## The client -/

/-- A file that a client uploads, under a name that a request can carry. -/
structure Upload where
  filename : Bytes
  content : Bytes
  named : filename ≠ []
  free : (0 : UInt8) ∉ filename
  short : filename.length < tftpFilenameMax

/-- The number of blocks, which is the number of the last one. -/
def Upload.blocks (u : Upload) : Nat := u.content.length / tftpDatalenMax + 1

/-- What the client ever hands to the network. -/
inductive Upload.Sends (u : Upload) : Bytes → Prop where
  | request : u.Sends (reqMsg opWrq u.filename .octet)
  | block (i : Nat) (within : i < u.blocks) :
      u.Sends (dataMsg (UInt16.ofNat (i + 1)) (Blocks.block tftpDatalenMax u.content i))

/-- Of the client nothing arrives but datagrams of the upload, and for them no call of stdio
and no socket fails. The others do what they like. -/
def Uploading (host : Host) (c : Client) (u : Upload) (st : Server) (e : Event) : Prop :=
  Admissible st e ∧ ∀ d, e = .datagram d → host.client d.src = some c →
    u.Sends d.bytes ∧ d.faults = [] ∧ d.newsock ≠ none

/-- In the step the client is sent the ACK of the block: in answer to its datagram, or for
its session. -/
def Acked (host : Host) (c : Client) (blk : UInt16) (st : Server) (e : Event) : Prop :=
  ∃ m ∈ outputs host st e, m.msg = ackMsg blk ∧ (e.From host c = true ∨ m.ses = some c)

/-! ## The session -/

/-- What the first blocks, and with them the beginning of the content, have come to. -/
inductive Stage (vol : Volume) (u : Upload) (b : Nat) (s : Session) (ds : IWDS) : Prop where
  | writing (writing : Writing vol (u.content.take (tftpDatalenMax * b)) s ds)
      (more : b < u.blocks)
  | closed (closed : Closed vol (u.content.take (tftpDatalenMax * b)) s ds) (fin : s.fin = true)
  | stuck (stuck : Stuck vol s ds) (fin : s.fin = true) (left : s.sesbuf.datalen ≠ 0)
      (more : b < u.blocks)

/-- The session of the upload has acknowledged so many blocks. -/
structure Progress (vol : Volume) (u : Upload) (b : Nat) (s : Session) (ds : IWDS) : Prop where
  octet : s.tftpmode = .octet
  socket : 0 ≤ s.clsock
  name : s.filename = u.filename
  within : b ≤ u.blocks
  number : s.blknum = UInt16.ofNat b
  last : s.lastmsg = ackMsg s.blknum
  stage : Stage vol u b s ds

theorem Progress.undisturbed {u : Upload} {b : Nat} {s s' : Session} {ds ds' : IWDS} {now : Int}
    (progress : Progress vol u b s ds) (inv : Consistent vol ds) (aged : Aged now s s')
    (frame : Undisturbed s.dkey ds ds') : Progress vol u b s' ds' := by
  obtain ⟨octet, socket, name, within, number, last, stage⟩ := progress
  refine ⟨(mode_of_ident aged.ident).trans octet, clsock_of_ident aged.ident ▸ socket,
    (filename_of_ident aged.ident).trans name, within, aged.blknum.trans number, ?_, ?_⟩
  · rw [aged.lastmsg, aged.blknum]
    exact last
  · cases stage with
    | writing writing more => exact .writing (writing.undisturbed inv aged frame) more
    | closed closed fin => exact .closed (closed.undisturbed aged frame) (aged.fin.trans fin)
    | stuck stuck fin left more =>
      exact .stuck (stuck.undisturbed aged frame) (aged.fin.trans fin)
        (by rw [aged.sesbuf]; exact left) more

theorem Stage.congr {u : Upload} {b : Nat} {s s' : Session} {ds ds' : IWDS}
    (stage : Stage vol u b s ds) (sesbuf : s'.sesbuf = s.sesbuf) (dkey : s'.dkey = s.dkey)
    (fin : s.fin = true → s'.fin = true) (dhead : ds'.dhead = ds.dhead) (disk : ds'.disk = ds.disk) :
    Stage vol u b s' ds' := by
  have filename : s'.filename = s.filename := congrArg Prod.snd dkey
  have node : ds'.at s'.dkey = ds.at s.dkey := by rw [dkey, IWDS.at, dhead, IWDS.at]
  have left : s'.sesbuf.datalen = s.sesbuf.datalen := by rw [sesbuf]
  cases stage with
  | writing writing more =>
    exact .writing (writing.same sesbuf filename node disk) more
  | closed closed ends =>
    obtain ⟨absent, ⟨file, unwritten⟩, empty⟩ := closed
    refine .closed ⟨node.trans absent, ⟨?_, ?_⟩, left.trans empty⟩ (fin ends)
    · rw [disk, filename, file]
    · rw [dhead, filename]
      exact unwritten
  | stuck stuck ends loaded more =>
    refine .stuck ⟨node.trans stuck.absent, ?_⟩ (fin ends) (left ▸ loaded) more
    rw [disk, filename]
    exact stuck.taken

/-- With the last block acknowledged, the file is complete. -/
theorem Progress.complete {u : Upload} {s : Session} {ds : IWDS}
    (progress : Progress vol u u.blocks s ds) :
    ds.disk (vol.node u.filename) = .regular u.content := by
  have all : u.content.take (tftpDatalenMax * u.blocks) = u.content := by
    apply List.take_of_length_le
    exact Nat.le_of_lt (Nat.lt_mul_div_succ u.content.length (by decide))
  cases progress.stage with
  | writing _ more => exact absurd more (Nat.lt_irrefl _)
  | stuck _ _ _ more => exact absurd more (Nat.lt_irrefl _)
  | closed closed _ =>
    have file := closed.settled.1
    rw [progress.name, all] at file
    exact file

/-! ## A block in sequence -/

/-- The bytes up to a block, and the block. -/
theorem take_block (content : Bytes) (b : Nat) :
    content.take (tftpDatalenMax * b) ++ Blocks.block tftpDatalenMax content b =
      content.take (tftpDatalenMax * (b + 1)) := by
  rw [Nat.mul_succ, List.take_add]
  rfl

/-- The buffer takes the next block, and the stream is closed when it is the last; or the
session is stuck. -/
theorem Stage.put {u : Upload} {b : Nat} {s : Session} {ds : IWDS} (stage : Stage vol u b s ds)
    (octet : s.tftpmode = .octet) (keeps : s.Keeps vol ds) (nonempty : u.content ≠ [])
    (inv : Consistent vol ds) (faultless : ds.faults = []) (ends : s.fin = false → b + 1 < u.blocks) :
    let r := putSessionData vol s ds (Blocks.block tftpDatalenMax u.content b)
    (r.status = .done ∧
        Stage vol u (b + 1) r.ses (if r.ses.fin then closeData r.ses r.ds else r.ds)) ∨
      (r.status = .err ∧ Stuck vol r.ses r.ds ∧ r.ses.sesbuf.datalen ≠ 0) := by
  have total := take_block u.content b
  have only := (putSessionData_steps vol s ds (Blocks.block tftpDatalenMax u.content b)).2.1
  dsimp only
  generalize Blocks.block tftpDatalenMax u.content b = data at total only ⊢
  have kept : s.tftpmode.kept data = data := by rw [octet]; rfl
  have refused (fin : s.fin = true) (loaded : s.Loaded data) (stuck : Stuck vol s ds) :
      (putSessionData vol s ds data).status = .err ∧
        Stuck vol (putSessionData vol s ds data).ses (putSessionData vol s ds data).ds ∧
        (putSessionData vol s ds data).ses.sesbuf.datalen ≠ 0 := by
    obtain ⟨err, same, stuck'⟩ := stuck.refuses inv fin loaded
    exact ⟨err, stuck', by rw [same]; exact behind_loaded octet loaded⟩
  cases stage with
  | writing writing more =>
    have taken := writing.taken data inv faultless
    generalize putSessionData vol s ds data = r at taken only ⊢
    cases taken with
    | onwards done running writing' =>
      rw [kept, total] at writing'
      rw [only.fin, running]
      exact .inl ⟨done, .writing writing' (ends running)⟩
    | complete done fin closed =>
      rw [kept, total] at closed
      rw [only.fin, fin]
      exact .inl ⟨done, .closed closed (only.fin.trans fin)⟩
    | nothing _ _ _ empty _ =>
      rw [empty.1, empty.2] at total
      obtain none | zero := List.take_eq_nil_iff.mp total.symm
      · exact absurd none (Nat.mul_ne_zero (by decide) (Nat.succ_ne_zero b))
      · exact absurd zero nonempty
    | stuck err stuck left => exact .inr ⟨err, stuck, left octet⟩
    | discarded _ _ device => exact absurd device keeps
  | closed closed fin =>
    by_cases none : data = []
    · have same : putSessionData vol s ds data = { status := .done, ses := s, ds := ds } := by
        rw [putSessionData, if_pos ⟨closed.empty, by rw [none]; rfl⟩]
      rw [none, List.append_nil] at total
      rw [total] at closed
      rw [same]
      dsimp only
      rw [fin]
      exact .inl ⟨rfl, .closed (closed.close inv) fin⟩
    · exact .inr (refused fin (.inr none) closed.stuck)
  | stuck stuck fin left _ => exact .inr (refused fin (.inl left) stuck)

/-- The block that comes next is acknowledged, or refused with an ERROR. -/
theorem Progress.store {u : Upload} {b : Nat} {s : Session} {ds : IWDS} (now : Int)
    (progress : Progress vol u b s ds) (ordinary : ds.disk (vol.node u.filename) ≠ .device)
    (nonempty : u.content ≠ []) (inv : Consistent vol ds) (faultless : ds.faults = []) (within : b < u.blocks) :
    let data := Blocks.block tftpDatalenMax u.content b
    let blk := UInt16.ofNat (b + 1)
    let p := storeBlock vol s ds { blknum := blk, data := data } (data.length + 4) now
    (p.fill = some (ackMsg blk) ∧ Progress vol u (b + 1) (p.after s) p.ds) ∨
      (p.fill = some (errorMsg .accessDeny (errmsgs .accessDeny)) ∧
        Progress vol u b (p.after s) p.ds) := by
  obtain ⟨octet, socket, name, _, number, last, stage⟩ := progress
  have marked : Stage vol u b (s.noticed ((Blocks.block tftpDatalenMax u.content b).length + 4)) ds := by
    cases mark : decide ((Blocks.block tftpDatalenMax u.content b).length + 4 - 4 < tftpDatalenMax) with
    | false =>
      rw [Session.noticed, mark, Bool.or_false]
      exact stage
    | true =>
      rw [Session.noticed, mark, Bool.or_true]
      exact stage.congr rfl rfl (fun _ => rfl) rfl rfl
  have ends : (s.noticed ((Blocks.block tftpDatalenMax u.content b).length + 4)).fin = false →
      b + 1 < u.blocks := by
    intro running
    have long := (Bool.or_eq_false_iff.mp running).2
    rw [Nat.add_sub_cancel, decide_eq_false_iff_not,
      Blocks.block_short (by decide : 0 < tftpDatalenMax)] at long
    rw [Upload.blocks]
    omega
  have keeps : (s.noticed ((Blocks.block tftpDatalenMax u.content b).length + 4)).Keeps vol ds := by
    rw [← name] at ordinary
    exact ordinary
  have put := marked.put octet keeps nonempty inv faultless ends
  have only := (putSessionData_steps vol
    (s.noticed ((Blocks.block tftpDatalenMax u.content b).length + 4)) ds
    (Blocks.block tftpDatalenMax u.content b)).2.1
  dsimp only at put ⊢
  rw [storeBlock_eq]
  dsimp only
  generalize putSessionData vol (s.noticed ((Blocks.block tftpDatalenMax u.content b).length + 4)) ds
    (Blocks.block tftpDatalenMax u.content b) = r at put only ⊢
  have ident : r.ses.ident = s.ident := only.ident
  obtain ⟨done, stage'⟩ | ⟨err, stuck, left⟩ := put
  · rw [if_pos done]
    exact .inl ⟨rfl, (mode_of_ident ident).trans octet, clsock_of_ident ident ▸ socket,
      (filename_of_ident ident).trans name, within, rfl, rfl,
      stage'.congr rfl rfl id rfl rfl⟩
  · rw [if_neg (by rw [err]; nofun)]
    refine .inr ⟨rfl, (mode_of_ident ident).trans octet, clsock_of_ident ident ▸ socket,
      (filename_of_ident ident).trans name, within.le, only.blknum.trans number, ?_, ?_⟩
    · rw [only.lastmsg, only.blknum]
      exact last
    · exact .stuck ⟨stuck.absent, stuck.taken⟩ rfl left within

/-! ## A datagram of the client -/

theorem reqMsg_whole (u : Upload) : (reqMsg opWrq u.filename .octet).length ≤ nwbufSize := by
  have short := u.short
  have mode : TftpMode.octet.name.length = 5 := by decide
  have length := reqMsg_length opWrq u.filename .octet
  have sizes : nwbufSize = 1024 ∧ tftpFilenameMax = 256 := ⟨rfl, rfl⟩
  omega

theorem Upload.request_long (u : Upload) : 10 ≤ (reqMsg opWrq u.filename .octet).length := by
  have named := List.length_pos_iff.mpr u.named
  have mode : TftpMode.octet.name.length = 5 := by decide
  rw [reqMsg_length, mode]
  omega

theorem block_fits (u : Upload) (i : Nat) :
    (Blocks.block tftpDatalenMax u.content i).length ≤ tftpDatalenMax := by
  rw [Blocks.block_length]
  exact Nat.min_le_left _ _

/-- What the client sends makes its session send again, store the next block, or refuse. -/
theorem Upload.Sends.move (st : Server) {u : Upload} {d : Datagram} {s : Session} {b : Nat}
    (sends : u.Sends d.bytes) (few : u.blocks < 65535) (number : s.blknum = UInt16.ofNat b)
    (within : b ≤ u.blocks) :
    st.move d s = .resend ∨ st.move d s = .refuse ∨
      (b < u.blocks ∧ d.len = (Blocks.block tftpDatalenMax u.content b).length + 4 ∧
        st.move d s = .store
          { blknum := UInt16.ofNat (b + 1), data := Blocks.block tftpDatalenMax u.content b }) := by
  generalize bytes : d.bytes = sent at sends
  cases sends with
  | request =>
    obtain ⟨rest, _, _, move⟩ := move_of_bytes st s (d := d) (by rw [bytes]; exact reqMsg_whole u)
    have opcode : ofBe16 (reqMsg opWrq u.filename .octet ++ rest) = opWrq := by
      simp [reqMsg]
    left
    rw [move, bytes, Session.move, opcode]
    rfl
  | block i inside =>
    rw [move_dataMsg st s bytes (block_fits u i)]
    by_cases again : UInt16.ofNat (i + 1) = s.blknum
    · exact .inl (if_pos again)
    · rw [if_neg again]
      by_cases next : UInt16.ofNat (i + 1) = nextBlk s.blknum
      · rw [if_pos next]
        rw [number, nextBlk_ofNat] at next
        obtain rfl : i = b := by
          have same := ofNat_inj (by omega) (by omega) next
          omega
        refine .inr (.inr ⟨inside, ?_, rfl⟩)
        have whole : d.bytes.length ≤ nwbufSize := by
          have fits := block_fits u i
          have sizes : tftpDatalenMax = 512 ∧ nwbufSize = 1024 := ⟨rfl, rfl⟩
          rw [bytes, dataMsg_length]
          omega
        rw [Datagram.len, Nat.min_eq_left whole, bytes, dataMsg_length]
      · exact .inr (.inl (if_neg next))

/-- The message of a call for the upload: the ACK of the last block stored, or an ERROR. -/
def Answers (b : Nat) (fill : Option Bytes) : Prop :=
  fill = some (ackMsg (UInt16.ofNat b)) ∨ ∃ ecode emsg, fill = some (errorMsg ecode emsg)

/-- A datagram of the client for its session. -/
theorem Progress.own {u : Upload} {c : Client} {b : Nat} {s : Session} {st : Server} {d : Datagram}
    (progress : Progress host.toVolume u b s st.ads) (found : getSession st.seshead c = some s)
    (ordinary : st.ads.disk (host.toVolume.node u.filename) ≠ .device)
    (inv : WellFormed host.toVolume st) (nonempty : u.content ≠ []) (few : u.blocks < 65535)
    (sends : u.Sends d.bytes) (faultless : d.faults = []) :
    let p := st.proc host d c
    (p.after s).disabled = true ∨
      ∃ b', Progress host.toVolume u b' (p.after s) p.ds ∧ Answers b' p.fill := by
  have received : Consistent host.toVolume (st.receive d).ads := inv.ads.congr rfl rfl
  have progress : Progress host.toVolume u b s (st.receive d).ads :=
    { progress with stage := progress.stage.congr rfl rfl id rfl rfl }
  dsimp only
  rw [proc_move found]
  obtain resend | refuse | ⟨more, length, store⟩ := sends.move st few progress.number progress.within
  · rw [resend]
    show ((Iwtftpd.resend s _ d.now).after s).disabled = true ∨ _
    by_cases retries : s.retrycount < resendCountmax
    · have same : Iwtftpd.resend s (st.receive d).ads d.now =
          { edit := .update { s with lastsending := d.now, retrycount := s.retrycount + 1 }
            ses := some { s with lastsending := d.now, retrycount := s.retrycount + 1 }
            fill := some s.lastmsg, ok := true, ds := (st.receive d).ads } := if_pos retries
      refine .inr ⟨b, ?_, .inl ?_⟩
      · show Progress _ u b ((Iwtftpd.resend s _ d.now).after s) (Iwtftpd.resend s _ d.now).ds
        rw [same]
        obtain ⟨octet, socket, name, within, number, last, stage⟩ := progress
        exact ⟨octet, socket, name, within, number, last, stage.congr rfl rfl id rfl rfl⟩
      · show (Iwtftpd.resend s _ d.now).fill = _
        rw [same, ← progress.number]
        exact congrArg some progress.last
    · left
      rw [Iwtftpd.resend, if_neg retries]
      rfl
  · rw [refuse]
    refine .inr ⟨b, ?_, .inr ⟨.illegalOpe, errmsgs .illegalOpe, ?_⟩⟩
    · have call : Move.refuse.run host.toVolume s (st.receive d).ads d.len d.now =
          errsend .update s (st.receive d).ads .illegalOpe [] := rfl
      rw [call, errsend_eq .update s _ .illegalOpe empty_short]
      obtain ⟨octet, socket, name, within, number, last, stage⟩ := progress
      exact ⟨octet, socket, name, within, number, last,
        stage.congr rfl rfl (fun _ => rfl) rfl rfl⟩
    · show (errsend .update s (st.receive d).ads .illegalOpe []).fill = _
      rw [errsend_eq .update s _ .illegalOpe empty_short]
      rfl
  · rw [store, length]
    right
    obtain ⟨fill, next⟩ | ⟨fill, same⟩ := progress.store d.now ordinary nonempty received faultless more
    · exact ⟨b + 1, next, .inl fill⟩
    · exact ⟨b, same, .inr ⟨.accessDeny, errmsgs .accessDeny, fill⟩⟩

/-- The request as the server reads it. -/
def Upload.request (u : Upload) : TftpReq := { filename := u.filename, mode := .octet }

/-- Without a session, the client is sent an ERROR, or its request opens one. -/
theorem Upload.Sends.fresh (host : Host) {u : Upload} {st : Server} {d : Datagram} {c : Client}
    (sends : u.Sends d.bytes) (absent : getSession st.seshead c = none)
    (socket : d.newsock ≠ none) :
    let p := st.proc host d c
    (∃ ecode, p = errsendNone .keep (st.receive d).ads ecode []) ∨
      ∃ fd, d.newsock = some fd ∧
        (∀ content, st.ads.disk (host.toVolume.node u.filename) ≠ .regular content) ∧
        p = { edit := .insert (startWriter c u.request fd d.now)
              ses := some (startWriter c u.request fd d.now)
              fill := some (ackMsg 0), ok := true, ds := (st.receive d).ads } := by
  have list : getSession (st.receive d).seshead c = none := absent
  dsimp only
  rw [Server.proc, list]
  generalize bytes : d.bytes = sent at sends
  cases sends with
  | request =>
    have whole : d.bytes.length ≤ nwbufSize := by
      rw [bytes]
      exact reqMsg_whole u
    obtain ⟨rest, rbuf, length, _⟩ := move_of_bytes st (newSession c u.request 0) whole
    have parsed := parseTftpreq_reqMsg opWrq .octet rest (.inr rfl) u.request_long u.free u.short
    have opcode : ofBe16 (reqMsg opWrq u.filename .octet ++ rest) = opWrq := by
      simp [reqMsg]
    rw [← bytes, ← rbuf, ← length] at parsed
    rw [← bytes, ← rbuf] at opcode
    rw [tftpProc, opcode]
    rw [if_pos (.inr rfl), opReq, parsed, decide_eq_true rfl]
    dsimp only
    cases file : iwdsIsfile host.toVolume (st.receive d).ads u.filename with
    | err => exact absurd file (isDsfile_ne_err host.toVolume (st.receive d).ads u.filename)
    | yes => exact .inl ⟨.fileExist, rfl⟩
    | no =>
      cases newsock : d.newsock with
      | none => exact absurd newsock socket
      | some fd =>
        refine .inr ⟨fd, rfl, (isDsfile_no_iff host.toVolume _ u.filename).mp file, ?_⟩
        exact startTransfer_wrq c u.request fd (st.receive d).ads d.now
  | block i inside =>
    have fits := block_fits u i
    have whole : d.bytes.length ≤ nwbufSize := by
      have sizes : tftpDatalenMax = 512 ∧ nwbufSize = 1024 := ⟨rfl, rfl⟩
      rw [bytes, dataMsg_length]
      omega
    obtain ⟨rest, rbuf, _, _⟩ := move_of_bytes st (newSession c u.request 0) whole
    have opcode : ofBe16 (st.receive d).rbuf = opData := by
      rw [rbuf, bytes, ofBe16_append rest (by rw [dataMsg_length]; omega)]
      exact opcodeOf_dataMsg _ _
    rw [tftpProc, opcode]
    exact .inl ⟨.unknownId, rfl⟩

/-- A new session has acknowledged the request. -/
theorem Progress.start {u : Upload} {c : Client} {fd : Int} {ds : IWDS} (now : Int)
    (inv : Consistent vol ds) (socket : 0 ≤ fd) (ordinary : ds.disk (vol.node u.filename) ≠ .device)
    (free : ∀ content, ds.disk (vol.node u.filename) ≠ .regular content) :
    Progress vol u 0 (startWriter c u.request fd now) ds := by
  refine ⟨rfl, socket, rfl, Nat.zero_le _, rfl, rfl, .writing ⟨?_, rfl, ?_⟩ (Nat.succ_pos _)⟩
  · exact newSession_fits c u.request fd
  · refine .buffered ?_ rfl
    by_contra there
    obtain ⟨d, found⟩ := Option.ne_none_iff_exists'.mp there
    have place : d.fp.node = vol.node u.filename := place_of_found inv found
    obtain ⟨content, present⟩ := inv.regular (at_mem found) (place ▸ ordinary)
    rw [place] at present
    exact free content present

/-! ## Runs -/

/-- While only the upload is heard of the client, its session is in progress. -/
structure Underway (host : Host) (c : Client) (u : Upload) (st : Server) : Prop where
  wellFormed : WellFormed host.toVolume st
  ordinary : st.ads.disk (host.toVolume.node u.filename) ≠ .device
  session : ∀ s, getSession st.seshead c = some s → s.disabled = false →
    ∃ b, Progress host.toVolume u b s st.ads

/-- What a datagram of the client leaves behind, and what it is answered with. -/
theorem Underway.own {u : Upload} {c : Client} {st : Server} {d : Datagram}
    (underway : Underway host c u st) (nonempty : u.content ≠ []) (few : u.blocks < 65535)
    (named : host.client d.src = some c) (uploading : Uploading host c u st (.datagram d)) :
    Underway host c u (recv host st d).1 ∧
      ∀ m ∈ (recv host st d).2, m.msg = ackMsg (UInt16.ofNat u.blocks) →
        (recv host st d).1.ads.disk (host.toVolume.node u.filename) = .regular u.content := by
  obtain ⟨admissible, own⟩ := uploading
  obtain ⟨sends, faultless, socket⟩ := own d rfl named
  have inv := underway.wellFormed
  have ordinary := underway.ordinary
  have wellFormed : WellFormed host.toVolume (recv host st d).1 := inv.step (e := .datagram d) admissible
  have ordinary' : (recv host st d).1.ads.disk (host.toVolume.node u.filename) ≠ .device :=
    (step_effects host st (.datagram d)).ordinary ordinary
  have after : (recv host st d).1.ads = (st.proc host d c).ds := by rw [recv_eq named]
  have replies : (recv host st d).2 =
      replyOf (st.proc host d c) d ((st.proc host d c).fill.getD st.msg) := by rw [recv_eq named]
  -- What is answered while the session is in progress.
  have complete {b : Nat} {s : Session} {ds : IWDS} (progress : Progress host.toVolume u b s ds)
      (same : ackMsg (UInt16.ofNat b) = ackMsg (UInt16.ofNat u.blocks)) :
      ds.disk (host.toVolume.node u.filename) = .regular u.content := by
    have within := progress.within
    obtain rfl : b = u.blocks := ofNat_inj (by omega) (by omega) (ackMsg_inj same)
    exact progress.complete
  cases found : getSession st.seshead c with
  | some s =>
    have found' := getSession_recv named found
    have handled := proc_handled host d found
    by_cases disabled : ((st.proc host d c).after s).disabled = true
    · refine ⟨⟨wellFormed, ordinary', ?_⟩, ?_⟩
      · intro s' same enabled
        obtain rfl := Option.some.inj (found'.symm.trans same)
        rw [disabled] at enabled
        cases enabled
      · rw [replies, replyOf, handled.ok, handled.pointer]
        simp [disabled]
    · have enabled : s.disabled = false := by
        cases was : s.disabled with
        | false => rfl
        | true => exact absurd (handled.disabled was) disabled
      obtain ⟨b, progress⟩ := underway.session s found enabled
      obtain ⟨b', progress', answers⟩ :=
        (progress.own found ordinary inv nonempty few sends faultless).resolve_left disabled
      rw [← after] at progress'
      refine ⟨⟨wellFormed, ordinary', ?_⟩, ?_⟩
      · intro s' same _
        obtain rfl := Option.some.inj (found'.symm.trans same)
        exact ⟨b', progress'⟩
      · intro m member ack
        rw [replies, replyOf_handled d _ handled (Bool.not_eq_true _ ▸ disabled),
          List.mem_singleton] at member
        rw [member] at ack
        obtain fill | ⟨ecode, emsg, fill⟩ := answers
        · rw [fill] at ack
          exact complete progress' ack
        · rw [fill] at ack
          exact absurd ack (ackMsg_ne_errorMsg _ ecode emsg)
  | none =>
    obtain ⟨ecode, call⟩ | ⟨fd, newsock, free, call⟩ := sends.fresh host found socket
    · rw [errsendNone_eq .keep _ ecode empty_short] at call
      refine ⟨⟨wellFormed, ordinary', ?_⟩, ?_⟩
      · intro s' same
        have list : (recv host st d).1.seshead = st.seshead := by
          rw [recv_eq named, call]
          rfl
        rw [list, found] at same
        cases same
      · intro m member ack
        rw [replies, call] at member
        rw [List.mem_singleton.mp member] at ack
        exact absurd ack (ackMsg_ne_errorMsg _ ecode _)
    · have progress : Progress host.toVolume u 0 (startWriter c u.request fd d.now) st.ads :=
        Progress.start d.now inv.ads (admissible fd newsock).1 ordinary free
      have progress' : Progress host.toVolume u 0 (startWriter c u.request fd d.now)
          (recv host st d).1.ads := by
        rw [after, call]
        exact { progress with stage := progress.stage.congr rfl rfl id rfl rfl }
      have found' := getSession_opened named (by rw [call]) rfl
      refine ⟨⟨wellFormed, ordinary', ?_⟩, ?_⟩
      · intro s' same _
        obtain rfl := Option.some.inj (found'.symm.trans same)
        exact ⟨0, progress'⟩
      · intro m member ack
        rw [replies, call] at member
        rw [List.mem_singleton.mp member] at ack
        exact complete progress' ack

theorem Underway.step {u : Upload} {c : Client} {st : Server} {e : Event}
    (underway : Underway host c u st) (nonempty : u.content ≠ []) (few : u.blocks < 65535)
    (uploading : Uploading host c u st e) :
    Underway host c u (step host st e) := by
  by_cases own : e.From host c = true
  · cases e with
    | tick t => cases own
    | datagram d =>
      exact (underway.own nonempty few (of_decide_eq_true own) uploading).1
  · refine ⟨underway.wellFormed.step uploading.1,
      (step_effects host st e).ordinary underway.ordinary, ?_⟩
    intro s' found' enabled'
    obtain ⟨_, s, found, aged, enabled, frame⟩ := step_between underway.wellFormed uploading.1
      (Bool.not_eq_true _ ▸ own) found' enabled'
    obtain ⟨b, progress⟩ := underway.session s found enabled
    exact ⟨b, progress.undisturbed underway.wellFormed.ads aged (frame progress.socket)⟩

/-- At a name that leads to no device, the ACK of the last block is sent only when the file holds
the content. -/
theorem acked_complete {c : Client} {u : Upload} {start st : Server} {e : Event}
    (nonempty : u.content ≠ []) (few : u.blocks < 65535) (reachable : Reachable host start)
    (fresh : getSession start.seshead c = none)
    (ordinary : start.ads.disk (host.toVolume.node u.filename) ≠ .device)
    (run : Runs.Reaches (step host) (Uploading host c u) start st)
    (uploading : Uploading host c u st e) (acked : Acked host c (UInt16.ofNat u.blocks) st e) :
    (step host st e).ads.disk (host.toVolume.node u.filename) = .regular u.content := by
  have begun : Underway host c u start := by
    refine ⟨reachable.wellFormed, ordinary, fun s found => ?_⟩
    rw [fresh] at found
    cases found
  have underway : Underway host c u st :=
    run.invariant (fun _ _ underway may => underway.step nonempty few may) begun
  obtain ⟨m, member, ack, whose⟩ := acked
  cases e with
  | datagram d =>
    by_cases named : host.client d.src = some c
    · exact (underway.own nonempty few named uploading).2 m member ack
    · have ses : m.ses = some c := whose.resolve_left fun own => named (of_decide_eq_true own)
      cases other : host.client d.src with
      | none =>
        have member : m ∈ (recv host st d).2 := member
        rw [recv_ignored other] at member
        cases member
      | some x =>
        have apart : c ≠ x := by
          rintro rfl
          exact named other
        exact absurd ses (replyOf_other other apart member)
  | tick t =>
    -- The timer sends for unfinished sessions only, and those have not stored the last block.
    obtain ⟨_, disk, _, _, _, sent⟩ := resendAllsession_steps t st.seshead
      { st.ads with faults := t.faults, trace := [] } t.addr sockaddrStorage
    obtain ⟨s, inList, key, text, _, fin, enabled⟩ := sent m member
    have ses : m.ses = some c := whose.resolve_left nofun
    have sameKey : s.key = c := Option.some.inj (key.symm.trans ses)
    have found : getSession st.seshead c = some s :=
      sameKey ▸ Keyed.lookup_of_mem Session.key underway.wellFormed.clients inList
    obtain ⟨b, progress⟩ := underway.session s found enabled
    have within := progress.within
    rw [text, progress.last, progress.number] at ack
    obtain rfl : b = u.blocks := ofNat_inj (by omega) (by omega) (ackMsg_inj ack)
    have same : (step host st (.tick t)).ads.disk = st.ads.disk := disk
    rw [same]
    exact progress.complete

/-- The ACK of the last block means that the file holds the content, unless the name leads to a
device.

Proof: up to the first mistake of the network the session writes the file, with the beginning of
the content in the file and the buffer together. A datagram of the client moves that on by the
next block, has the last message sent again, or marks the session with `fin`; what others send
does not disturb it. A device stays one and holds no file. -/
theorem upload_complete_iff {c : Client} {u : Upload} {start st : Server} {e : Event}
    (nonempty : u.content ≠ []) (few : u.blocks < 65535) (reachable : Reachable host start)
    (fresh : getSession start.seshead c = none)
    (run : Runs.Reaches (step host) (Uploading host c u) start st)
    (uploading : Uploading host c u st e) (acked : Acked host c (UInt16.ofNat u.blocks) st e) :
    (step host st e).ads.disk (host.toVolume.node u.filename) = .regular u.content ↔
      start.ads.disk (host.toVolume.node u.filename) ≠ .device := by
  constructor
  · intro file device
    have effects : Effects host.toVolume start.ads (step host st e).ads :=
      (run_effects (run.weaken fun _ _ may => may.1)).trans (step_effects host st e)
    have stays := (effects.device_iff reachable.wellFormed.ads).mpr device
    rw [file] at stays
    cases stays
  · intro ordinary
    exact acked_complete nonempty few reachable fresh ordinary run uploading acked

/-- A file of one block. -/
def oneBlock : Upload where
  filename := [102]
  content := [1, 2, 3]
  named := by decide
  free := by decide
  short := by decide

/-- Its only block. -/
def oneBlockData : Datagram := arrival [1] (dataMsg 1 [1, 2, 3]) (some 6)

/-- A server that was asked to store that file. -/
def storing (disk : Bytes → FileNode) : Server :=
  step smallHost (startOn disk) (.datagram (uploadRequest [1] 5))

theorem storing_run (disk : Bytes → FileNode) :
    Runs.Reaches (step smallHost) (Uploading smallHost ([1], 2000) oneBlock) (startOn disk)
      (storing disk) := by
  refine (Runs.Reaches.refl _).snoc ⟨admissible_first rfl rfl (by decide), ?_⟩
  intro d same _
  cases same
  exact ⟨.request, rfl, nofun⟩

theorem storing_block {disk : Bytes → FileNode}
    (free : ∀ s ∈ (storing disk).seshead, s.clsock ≠ 6) :
    Uploading smallHost ([1], 2000) oneBlock (storing disk) (.datagram oneBlockData) := by
  constructor
  · intro fd same
    cases same
    exact ⟨by decide, free⟩
  · intro d same _
    cases same
    exact ⟨.block 0 (by decide), rfl, nofun⟩

/-- The block is stored when its ACK goes out. -/
theorem upload_complete_sample :
    (step smallHost (storing fun _ => .absent) (.datagram oneBlockData)).ads.disk
      (smallHost.toVolume.node oneBlock.filename) = .regular oneBlock.content := by
  have acked : Acked smallHost ([1], 2000) (UInt16.ofNat oneBlock.blocks) (storing fun _ => .absent)
      (.datagram oneBlockData) := by
    unfold Acked
    decide +kernel
  exact (upload_complete_iff (by decide) (by decide) (startOn_reachable smallHost _) rfl
    (storing_run _) (storing_block (by decide +kernel)) acked).mpr nofun

/-- Every upload whose last block is acknowledged is in its file. -/
def UploadsComplete (host : Host) : Prop :=
  ∀ c u start st e, u.content ≠ [] → u.blocks < 65535 → Reachable host start →
    getSession start.seshead c = none → Runs.Reaches (step host) (Uploading host c u) start st →
    Uploading host c u st e → Acked host c (UInt16.ofNat u.blocks) st e →
    (step host st e).ads.disk (host.toVolume.node u.filename) = .regular u.content

/-- An upload to a device is acknowledged to its end, and no file holds it. -/
theorem uploads_not_complete : ¬ UploadsComplete smallHost := by
  intro complete
  have acked : Acked smallHost ([1], 2000) (UInt16.ofNat oneBlock.blocks) (storing (deviceOn [102]))
      (.datagram oneBlockData) := by
    unfold Acked
    decide +kernel
  have file := complete ([1], 2000) oneBlock _ _ _ (by decide) (by decide)
    (startOn_reachable smallHost (deviceOn [102])) rfl (storing_run _)
    (storing_block (by decide +kernel)) acked
  have device : (step smallHost (storing (deviceOn [102])) (.datagram oneBlockData)).ads.disk
      (smallHost.toVolume.node oneBlock.filename) = .device := by
    decide +kernel
  rw [device] at file
  cases file

end Iwtftpd
