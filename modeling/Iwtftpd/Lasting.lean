import Iwtftpd.Download
import Iwtftpd.Failures
import Iwtftpd.Lifecycle
import Iwtftpd.Undoing
import Iwtftpd.Waiting

/-!
# What the last ACK of an upload promises

When the last block of an upload is acknowledged, its file should be there and
stay as it is. A file changes only through a stream that writes it, and a stream
is used by the session that has its key. So a file stays as it is exactly when no
session of the list has a stream that writes it, and none can get one: a stream
left behind under the descriptor of a socket is closed before it is used again,
one left by a session without a socket is not. An upload that stored nothing has
made no file, and neither has one whose name leads to a device.
-/

namespace Iwtftpd

variable {host : Host} {vol : Volume}

/-! ## A file that nobody can change -/

/-- The file is there, and it is there with the same bytes after any further run. -/
def Lasts (host : Host) (st : Server) (place : Bytes) : Prop :=
  ∃ content, ∀ st', Runs.Reaches (step host) Admissible st st' →
    st'.ads.disk place = .regular content

/-- The file is there, and a stream that writes it is no session's and will be none's. -/
structure Unclaimed (st : Server) (place content : Bytes) : Prop where
  file : st.ads.disk place = .regular content
  nobody : ∀ n ∈ st.ads.dhead, n.Writes place → n.clid ≠ -1 ∧ ∀ x ∈ st.seshead, x.dkey ≠ n.key

theorem Unclaimed.of_settled {st : Server} {place content : Bytes}
    (settled : Settled st.ads place content) : Unclaimed st place content := by
  obtain ⟨file, unwritten⟩ := settled
  constructor
  · exact file
  · intro n member writes
    exact absurd writes.2 (unwritten n member writes.1)

/-- The stream of a session does not write the file. -/
theorem Unclaimed.unwritten {st : Server} {place content : Bytes} {s : Session}
    (unclaimed : Unclaimed st place content) (member : s ∈ st.seshead) :
    Unwritten s.dkey st.ads place := by
  intro n found writes
  have other := (unclaimed.nobody n (at_mem found) writes).2 s member
  exact other (lookup_key found).symm

/-- A call for a key whose stream does not write the file, and a list without new keys. -/
theorem Unclaimed.chain {st st' : Server} {place content : Bytes} {k : Int × Bytes}
    (unclaimed : Unclaimed st place content) (inv : Consistent vol st.ads)
    (chain : Chain vol k st.ads st'.ads)
    (file : st'.ads.disk place = .regular content) (unwritten : Unwritten k st'.ads place)
    (keys : ∀ x ∈ st'.seshead, x.dkey = k ∨ ∃ y ∈ st.seshead, y.dkey = x.dkey) :
    Unclaimed st' place content := by
  refine ⟨file, ?_⟩
  intro n member writes
  have apart : n.key ≠ k := by
    rintro rfl
    exact unwritten n (Keyed.lookup_of_mem DSession.key (chain.consistent inv).distinct member) writes
  have old := chain.mem_old apart member
  obtain ⟨socket, others⟩ := unclaimed.nobody n old writes
  refine ⟨socket, ?_⟩
  intro x inList same
  obtain own | ⟨y, before, key⟩ := keys x inList
  · exact apart (same.symm.trans own)
  · exact others y before (key.trans same)

theorem Unclaimed.recv {st : Server} {d : Datagram} {c : Client} {place content : Bytes}
    (unclaimed : Unclaimed st place content) (inv : WellFormed host.toVolume st)
    (named : host.client d.src = some c) : Unclaimed (recv host st d).1 place content := by
  have received : Consistent host.toVolume (st.receive d).ads := inv.ads.congr rfl rfl
  have start : Unclaimed (st.receive d) place content := ⟨unclaimed.file, unclaimed.nobody⟩
  rw [recv_eq named]
  cases found : getSession st.seshead c with
  | some s =>
    have handled := proc_handled host d found
    obtain ⟨file, unwritten⟩ := handled.chain.unwritten received unclaimed.file
      (start.unwritten (session_mem found))
    apply start.chain received handled.chain file unwritten
    intro x member
    dsimp only at member
    rw [handled_apply found handled] at member
    obtain rfl | old := Keyed.mem_of_mem_store Session.key member
    · exact .inl (dkey_of_ident handled.ident)
    · exact .inr ⟨x, old, rfl⟩
  | none =>
    have opening := proc_opening host d found
    generalize st.proc host d c = p at opening
    cases opening with
    | nothing edit _ same =>
      rw [edit, same]
      exact ⟨start.file, start.nobody⟩
    | socketless req =>
      refine ⟨start.file, ?_⟩
      intro n member writes
      obtain ⟨socket, others⟩ := start.nobody n member writes
      refine ⟨socket, ?_⟩
      intro x inList same
      obtain rfl | old := List.mem_cons.mp inList
      · exact socket (congrArg Prod.fst same).symm
      · exact others x old same
    | reader req fd =>
      let ses := newSession c req fd
      have chain := (makeTftpdataMsg_steps host.toVolume ses (st.receive d).ads tftpMsglenMax d.now).1
      have disk := makeTftpdataMsg_disk ses tftpMsglenMax d.now received
      have unwritten : Unwritten ses.dkey
          (makeTftpdataMsg host.toVolume ses (st.receive d).ads tftpMsglenMax d.now).2.2 place := by
        by_cases writer : ∃ m, (st.receive d).ads.at ses.dkey = some m ∧ m.fp.mode = .write
        · obtain ⟨m, node, mode⟩ := writer
          have closed := (makeTftpdataMsg_writer ses d.now received rfl node mode).2
          intro n left
          rw [closed] at left
          cases left
        · refine (chain.unwritten received start.file ?_).2
          intro n node writes
          exact writer ⟨n, node, writes.1⟩
      refine start.chain received chain ?_ unwritten ?_
      · rw [disk]
        exact start.file
      · intro x member
        obtain rfl | old := List.mem_cons.mp member
        · exact .inl (dkey_of_ident (startReader_ident c req fd (st.receive d).ads d.now))
        · exact .inr ⟨x, old, rfl⟩
    | writer req fd _ _ _ free =>
      refine ⟨start.file, ?_⟩
      intro n member writes
      obtain ⟨socket, others⟩ := start.nobody n member writes
      refine ⟨socket, ?_⟩
      intro x inList same
      obtain rfl | old := List.mem_cons.mp inList
      · -- The file would be the one that is asked for, and it is there.
        have name : n.filename = req.filename := (congrArg Prod.snd same).symm
        have here := received.placed n member
        rw [name] at here
        apply free content
        rw [← here, writes.2]
        exact start.file
      · exact others x old same

theorem Unclaimed.tick {st : Server} {t : Tick} {place content : Bytes}
    (unclaimed : Unclaimed st place content) (inv : WellFormed vol st) :
    Unclaimed (endIteration st t).1 place content := by
  obtain ⟨_, disk, fewer, _⟩ := resendAllsession_steps t st.seshead
    { st.ads with faults := t.faults, trace := [] } t.addr sockaddrStorage
  obtain ⟨after, pairs, list⟩ := endIteration_seshead (t := t) inv
  have disk : (endIteration st t).1.ads.disk = st.ads.disk := disk
  constructor
  · rw [disk]
    exact unclaimed.file
  · intro n member writes
    obtain ⟨socket, others⟩ := unclaimed.nobody n (fewer.subset member) writes
    refine ⟨socket, ?_⟩
    intro x inList
    rw [list] at inList
    obtain ⟨s, old, aged⟩ := forall₂_mem pairs (List.mem_filter.mp inList).1
    rw [dkey_of_ident aged.ident]
    exact others s old

theorem Unclaimed.step {st : Server} {e : Event} {place content : Bytes}
    (unclaimed : Unclaimed st place content) (inv : WellFormed host.toVolume st) :
    Unclaimed (Iwtftpd.step host st e) place content := by
  cases e with
  | tick t => exact unclaimed.tick inv
  | datagram d =>
    cases named : host.client d.src with
    | none =>
      have ignored : Iwtftpd.step host st (.datagram d) = st.receive d := by
        rw [Iwtftpd.step, serve, recv_ignored named]
      rw [ignored]
      exact ⟨unclaimed.file, unclaimed.nobody⟩
    | some c => exact unclaimed.recv inv named

/-- So the file stays as it is. -/
theorem Unclaimed.lasts {st : Server} {place content : Bytes}
    (unclaimed : Unclaimed st place content) (inv : WellFormed host.toVolume st) :
    Lasts host st place := by
  refine ⟨content, ?_⟩
  intro st' run
  let kept (x : Server) : Prop := WellFormed host.toVolume x ∧ Unclaimed x place content
  have both : kept st' := by
    refine run.invariant ?_ ⟨inv, unclaimed⟩
    rintro x e ⟨wellFormed, before⟩ may
    exact ⟨wellFormed.step may, before.step wellFormed⟩
  exact both.2.file

/-! ## A block that changes a file -/

/-- A block of one byte is never skipped. -/
theorem behind_byte {s : Session} (fits : s.sesbuf.Fits) : (s.behind [0]).sesbuf.datalen ≠ 0 := by
  have bufsize : sessionBufsize = 8192 := rfl
  have short := fits.short
  have sum : (s.behind [0]).sesbuf.datalen =
      s.sesbuf.datalen + (s.tftpmode.piece (sessionBufsize - s.sesbuf.datalen) [0]).length := rfl
  rw [sum]
  by_cases full : s.sesbuf.datalen = sessionBufsize
  · omega
  · obtain ⟨room, some⟩ : ∃ room, sessionBufsize - s.sesbuf.datalen = room + 1 :=
      ⟨sessionBufsize - s.sesbuf.datalen - 1, by omega⟩
    rw [some]
    cases s.tftpmode <;> simp [TftpMode.piece, cr]

/-- The last block for a session that writes a file makes the file longer. -/
theorem storeBlock_grows {s : Session} {ds : IWDS} {n : DSession} {place content : Bytes} (blk : UInt16)
    (now : Int) (inv : Consistent vol ds) (fits : s.sesbuf.Fits) (clean : ds.faults = [])
    (node : ds.at s.dkey = some n) (writes : n.Writes place) (held : ds.disk place = .regular content) :
    (storeBlock vol s ds { blknum := blk, data := [0] } 5 now).ds.disk place ≠ .regular content := by
  have fin : (s.noticed 5).fin = true := Bool.or_true _
  have loop : putSessionData vol (s.noticed 5) ds [0] = putLoop vol 3 (s.noticed 5) ds [0] :=
    if_neg fun idle => absurd idle.2 (by decide)
  obtain ⟨ds₁, dhead, disk, faults, pass⟩ := putLoop_pass vol 2 (s.noticed 5) ds [0]
  have inv₁ : Consistent vol ds₁ := inv.congr dhead disk
  have node₁ : ds₁.at ((s.noticed 5).behind [0]).dkey = some n := by
    rw [IWDS.at, dhead]
    exact node
  have held₁ : ds₁.disk place = .regular content := by rw [disk, held]
  have loaded : ((s.noticed 5).behind [0]).sesbuf.datalen ≠ 0 := behind_byte fits
  have clean₁ : ds₁.fault = .none := by
    rw [IWDS.fault, faults, clean]
    rfl
  have due : flush vol ((s.noticed 5).behind [0]) ds₁ = saveData vol ((s.noticed 5).behind [0]) ds₁ :=
    flush_due _ _ (.inr fin)
  have chain := saveData_chain vol ((s.noticed 5).behind [0]) ds₁
  have save := saveData_cases ((s.noticed 5).behind [0]) inv₁
  -- The first save appends the buffer, and what follows appends too.
  have longer : ∃ data, data ≠ [] ∧
      (putSessionData vol (s.noticed 5) ds [0]).ds.disk place = .regular (content ++ data) := by
    rw [loop, pass, due]
    dsimp only
    generalize saveData vol ((s.noticed 5).behind [0]) ds₁ = f at save chain ⊢
    obtain ⟨ok, s₂, ds₂⟩ := f
    dsimp only at save chain ⊢
    cases save with
    | appended d _ found mode _ _ _ _ file =>
      obtain rfl : d = n := Option.some.inj (found.symm.trans node₁)
      have ordinary : ds₁.disk d.fp.node ≠ .device := by
        rw [writes.2, held₁]
        exact FileNode.noConfusion
      have atEnd := inv₁.atEnd d (at_mem found) ordinary mode
      rw [writes.2, held₁] at atEnd
      have file : ds₂.disk place = .regular (content ++ ((s.noticed 5).behind [0]).buffered) := by
        rw [file, writes.2, Function.update_self, held₁, atEnd]
        exact congrArg _ (overlay_end content _)
      have some : ((s.noticed 5).behind [0]).buffered ≠ [] := by
        intro nothing
        rw [← buffered_length, nothing] at loaded
        exact loaded rfl
      rw [if_neg Bool.noConfusion]
      split
      · have rest := (putLoop_steps vol 2 s₂ ds₂ ([0].drop ((s.noticed 5).consumed [0]))).1
        obtain ⟨more, grown⟩ := rest.grows (chain.consistent inv₁) file
        exact ⟨_, List.append_ne_nil_of_left_ne_nil some more, by rw [grown, List.append_assoc]⟩
      · exact ⟨_, some, file⟩
    | finished _ _ empty => exact absurd empty loaded
    | created absent | started _ absent | refused absent | cut absent =>
      rw [node₁] at absent
      cases absent
    | short d found why =>
      obtain rfl : d = n := Option.some.inj (found.symm.trans node₁)
      obtain reads | faulty := why
      · rw [writes.1] at reads
        cases reads
      · exact absurd clean₁ faulty
  obtain ⟨data, some, grown⟩ := longer
  have final : (storeBlock vol s ds { blknum := blk, data := [0] } 5 now).ds.disk =
      (putSessionData vol (s.noticed 5) ds [0]).ds.disk := by
    rw [storeBlock_eq]
    dsimp only
    split
    · dsimp only
      split
      · exact closeData_disk _ _
      · rfl
    · rfl
  rw [final, grown]
  intro same
  exact some (List.append_right_eq_self.mp (FileNode.regular.inj same))

/-! ## Clients and names -/

/-- A file name that a request can carry. -/
def Nameable (file : Bytes) : Prop := (0 : UInt8) ∉ file ∧ file.length < tftpFilenameMax

theorem parseTftpreq_nameable {msg : Bytes} {msglen : Nat} {req : TftpReq}
    (parsed : parseTftpreq msg msglen = some req) : Nameable req.filename := by
  rw [parseTftpreq] at parsed
  split at parsed
  · cases parsed
  split at parsed
  · cases parsed
  split at parsed
  · cases parsed
  · rename_i name found
    obtain ⟨_, free, short, _⟩ := parseField_inside found
    have named : req.filename = name := by
      split at parsed
      · cases parsed
      · split at parsed
        · cases parsed
          rfl
        · split at parsed
          · cases parsed
            rfl
          · cases parsed
    rw [named]
    exact ⟨free, short⟩

/-- Clients have addresses, and names come from requests. -/
structure Known (host : Host) (st : Server) : Prop where
  address : ∀ s ∈ st.seshead, ∃ src, host.client src = some s.key
  sessions : ∀ s ∈ st.seshead, Nameable s.filename
  nodes : ∀ n ∈ st.ads.dhead, Nameable n.filename

/-- A call for a key with a name, and a list without new clients and names. -/
theorem Known.chain {st st' : Server} {k : Int × Bytes} (known : Known host st)
    (chain : Chain vol k st.ads st'.ads) (name : Nameable k.2)
    (list : ∀ x ∈ st'.seshead, (∃ src, host.client src = some x.key) ∧ Nameable x.filename) :
    Known host st' := by
  refine ⟨fun x member => (list x member).1, fun x member => (list x member).2, ?_⟩
  intro n member
  by_cases own : n.key = k
  · rw [← own] at name
    exact name
  · exact known.nodes n (chain.mem_old own member)

theorem Known.recv {st : Server} {d : Datagram} {c : Client} (known : Known host st)
    (named : host.client d.src = some c) : Known host (recv host st d).1 := by
  have start : Known host (st.receive d) := ⟨known.address, known.sessions, known.nodes⟩
  have before (x : Session) (old : x ∈ st.seshead) :
      (∃ src, host.client src = some x.key) ∧ Nameable x.filename :=
    ⟨known.address x old, known.sessions x old⟩
  -- A new session is the client's, under the name of its request.
  have opened {ses : Session} {req : TftpReq} {fd : Int}
      (parsed : parseTftpreq (st.receive d).rbuf d.len = some req)
      (ident : ses.ident = (newSession c req fd).ident) :
      (∃ src, host.client src = some ses.key) ∧ Nameable ses.filename := by
    refine ⟨⟨d.src, ?_⟩, ?_⟩
    · rw [key_of_ident ident]
      exact named
    · rw [filename_of_ident ident]
      exact parseTftpreq_nameable parsed
  rw [recv_eq named]
  cases found : getSession st.seshead c with
  | some s =>
    have handled := proc_handled host d found
    apply start.chain handled.chain (known.sessions s (session_mem found))
    intro x member
    dsimp only at member
    rw [handled_apply found handled] at member
    obtain rfl | old := Keyed.mem_of_mem_store Session.key member
    · rw [key_of_ident handled.ident, filename_of_ident handled.ident]
      exact before s (session_mem found)
    · exact before x old
  | none =>
    have opening := proc_opening host d found
    generalize st.proc host d c = p at opening
    cases opening with
    | nothing edit _ same =>
      rw [edit, same]
      exact ⟨start.address, start.sessions, start.nodes⟩
    | socketless req parsed =>
      refine start.chain (.refl : Chain host.toVolume (-1, req.filename) _ _)
        (parseTftpreq_nameable parsed) ?_
      intro x member
      obtain rfl | old := List.mem_cons.mp member
      · exact opened parsed rfl
      · exact before x old
    | reader req fd _ parsed =>
      refine start.chain (makeTftpdataMsg_steps host.toVolume (newSession c req fd) (st.receive d).ads
        tftpMsglenMax d.now).1 (parseTftpreq_nameable parsed) ?_
      intro x member
      obtain rfl | old := List.mem_cons.mp member
      · exact opened parsed (startReader_ident c req fd (st.receive d).ads d.now)
      · exact before x old
    | writer req fd parsed =>
      refine start.chain (.refl : Chain host.toVolume (fd, req.filename) _ _)
        (parseTftpreq_nameable parsed) ?_
      intro x member
      obtain rfl | old := List.mem_cons.mp member
      · exact opened parsed rfl
      · exact before x old

theorem Known.tick {st : Server} {t : Tick} (known : Known host st) (inv : WellFormed vol st) :
    Known host (endIteration st t).1 := by
  obtain ⟨_, _, fewer, _⟩ := resendAllsession_steps t st.seshead
    { st.ads with faults := t.faults, trace := [] } t.addr sockaddrStorage
  obtain ⟨after, pairs, list⟩ := endIteration_seshead (t := t) inv
  have old (x : Session) (member : x ∈ (endIteration st t).1.seshead) :
      ∃ s ∈ st.seshead, x.ident = s.ident := by
    rw [list] at member
    obtain ⟨s, before, aged⟩ := forall₂_mem pairs (List.mem_filter.mp member).1
    exact ⟨s, before, aged.ident⟩
  refine ⟨?_, ?_, fun n member => known.nodes n (fewer.subset member)⟩
  · intro x member
    obtain ⟨s, before, ident⟩ := old x member
    rw [key_of_ident ident]
    exact known.address s before
  · intro x member
    obtain ⟨s, before, ident⟩ := old x member
    rw [filename_of_ident ident]
    exact known.sessions s before

theorem Known.step {st : Server} {e : Event} (known : Known host st)
    (inv : WellFormed host.toVolume st) : Known host (Iwtftpd.step host st e) := by
  cases e with
  | tick t => exact known.tick inv
  | datagram d =>
    cases named : host.client d.src with
    | none =>
      have ignored : Iwtftpd.step host st (.datagram d) = st.receive d := by
        rw [Iwtftpd.step, serve, recv_ignored named]
      rw [ignored]
      exact ⟨known.address, known.sessions, known.nodes⟩
    | some c => exact known.recv named

theorem Reachable.known {st : Server} (reachable : Reachable host st) : Known host st := by
  obtain ⟨start, ⟨noSessions, noNodes, full⟩, run⟩ := reachable
  let kept (x : Server) : Prop := WellFormed host.toVolume x ∧ Known host x
  have both : kept st := by
    refine run.invariant ?_ ⟨Initial.wellFormed ⟨noSessions, noNodes, full⟩, ?_⟩
    · rintro x e ⟨inv, known⟩ may
      exact ⟨inv.step may, known.step inv⟩
    · constructor
      · rw [noSessions]
        nofun
      · rw [noSessions]
        nofun
      · rw [noNodes]
        nofun
  exact both.2

/-! ## A file that somebody can change -/

/-- A session with a stream that writes a file can be sent a block for it. -/
theorem grown_by_session {st : Server} {x : Session} {n : DSession} {place content : Bytes}
    (inv : WellFormed host.toVolume st) (known : Known host st) (member : x ∈ st.seshead)
    (node : n ∈ st.ads.dhead) (own : x.dkey = n.key) (writes : n.Writes place)
    (held : st.ads.disk place = .regular content) :
    ∃ e, Admissible st e ∧ (step host st e).ads.disk place ≠ .regular content := by
  obtain ⟨src, address⟩ := known.address x member
  let d := arrival src (dataMsg (nextBlk x.blknum) [0]) none
  have quiet : (Event.datagram d).Quiet := rfl
  refine ⟨.datagram d, quiet.admissible st, ?_⟩
  have named : host.client d.src = some x.key := address
  have found : getSession st.seshead x.key = some x := Keyed.lookup_of_mem Session.key inv.clients member
  have bytes : d.bytes = dataMsg (nextBlk x.blknum) [0] := rfl
  have move : st.move d x = .store { blknum := nextBlk x.blknum, data := [0] } := by
    rw [move_dataMsg st x bytes (by decide), if_neg (nextBlk_ne x.blknum), if_pos rfl]
  have received : Consistent host.toVolume (st.receive d).ads := inv.ads.congr rfl rfl
  have stream : (st.receive d).ads.at x.dkey = some n := by
    rw [own]
    exact Keyed.lookup_of_mem DSession.key inv.ads.distinct node
  have after : (step host st (.datagram d)).ads = (storeBlock host.toVolume x (st.receive d).ads
      { blknum := nextBlk x.blknum, data := [0] } 5 d.now).ds := by
    rw [step, serve, recv_eq named, proc_move found, move]
    rfl
  rw [after]
  exact storeBlock_grows _ d.now received (inv.buffers x member) rfl stream writes held

/-- After its close wait a finished session is gone. -/
theorem finished_collected {st : Server} {c : Client} {s : Session} (inv : WellFormed vol st)
    (found : getSession st.seshead c = some s) (fin : s.fin = true) (t : Tick)
    (late : sessionClosewait < difftime t.now s.lastsending) :
    getSession (endIteration st t).1.seshead c = none := by
  by_contra there
  obtain ⟨s', found'⟩ := Option.ne_none_iff_exists'.mp there
  obtain ⟨r, before, aged, alive⟩ := getSession_tick inv found'
  obtain rfl : s = r := Option.some.inj (found.symm.trans before)
  rw [Session.expired, Bool.or_eq_false_iff] at alive
  have sending : s'.lastsending = s.lastsending := by
    cases aged with
    | same => rfl
    | given => rfl
    | resent _ running =>
      rw [fin] at running
      cases running
  rw [aged.fin, fin, Bool.true_and, sending, decide_eq_false_iff_not] at alive
  exact alive.2 late

/-- A stream that a session without a socket left behind can be taken up again. -/
theorem taken_up {st : Server} {c : Client} {n : DSession} {place content : Bytes} {src : SockAddr}
    (inv : WellFormed host.toVolume st) (known : Known host st) (address : host.client src = some c)
    (fresh : getSession st.seshead c = none) (node : n ∈ st.ads.dhead) (socketless : n.clid = -1)
    (writes : n.Writes place) (held : st.ads.disk place = .regular content) :
    ∃ e, Admissible st e ∧ ∃ x ∈ (step host st e).seshead, ∃ m ∈ (step host st e).ads.dhead,
      x.dkey = m.key ∧ m.Writes place ∧ (step host st e).ads.disk place = .regular content := by
  obtain ⟨free, short⟩ := known.nodes n node
  let d := arrival src (reqMsg opRrq n.filename .netascii) none
  have quiet : (Event.datagram d).Quiet := rfl
  have mode : TftpMode.netascii.name.length = 8 := by decide
  have length := reqMsg_length opRrq n.filename .netascii
  have whole : d.bytes.length ≤ nwbufSize := by
    have sizes : nwbufSize = 1024 ∧ tftpFilenameMax = 256 := ⟨rfl, rfl⟩
    show (reqMsg opRrq n.filename .netascii).length ≤ nwbufSize
    omega
  obtain ⟨rest, rbuf, len, _⟩ := move_of_bytes st (newSession c ⟨n.filename, .netascii⟩ (-1)) whole
  have parsed := parseTftpreq_reqMsg opRrq .netascii rest (.inl rfl) (by omega) free short
  have rrq : ofBe16 (st.receive d).rbuf = opRrq := by
    rw [rbuf]
    show ofBe16 (reqMsg opRrq n.filename .netascii ++ rest) = opRrq
    simp [reqMsg]
  have file : st.ads.disk (host.toVolume.node n.filename) = .regular content := by
    rw [← inv.ads.placed n node, writes.2]
    exact held
  have accepted : Accepted host st d := by
    refine ⟨{ filename := n.filename, mode := .netascii }, ?_, .inl ⟨rrq, content, file⟩⟩
    rw [rbuf, len]
    exact parsed
  obtain ⟨req, parsed', call⟩ := proc_accepted fresh accepted
  have same : req = { filename := n.filename, mode := .netascii } := by
    rw [rbuf, len] at parsed'
    exact Option.some.inj (parsed'.symm.trans parsed)
  have result : st.proc host d c =
      errsendNone (.insert (newSession c req (-1))) (st.receive d).ads .seeMsg serverError := call
  rw [errsendNone_eq _ _ .seeMsg serverError_short] at result
  have after : (step host st (.datagram d)).seshead = newSession c req (-1) :: st.seshead ∧
      (step host st (.datagram d)).ads = (st.receive d).ads := by
    rw [step, serve, recv_eq address, result]
    exact ⟨rfl, rfl⟩
  refine ⟨.datagram d, quiet.admissible st, newSession c req (-1), ?_, n, ?_, ?_, writes, ?_⟩
  · rw [after.1]
    exact List.mem_cons_self
  · rw [after.2]
    exact node
  · rw [same, DSession.key, socketless]
    rfl
  · rw [after.2]
    exact held

/-- A file that stays as it is, once a client is about to lose its session, is nobody's. -/
theorem Lasts.unclaimed {st : Server} {c : Client} {s : Session} {place : Bytes}
    (lasts : Lasts host st place) (inv : WellFormed host.toVolume st) (known : Known host st)
    (found : getSession st.seshead c = some s) (fin : s.fin = true) :
    ∃ content, Unclaimed st place content := by
  obtain ⟨content, stays⟩ := lasts
  have held := stays st (.refl st)
  -- Whoever has a stream that writes the file is sent a block.
  have idle {x : Server} (run : Runs.Reaches (step host) Admissible st x)
      (wellFormed : WellFormed host.toVolume x) (known : Known host x) (n : DSession)
      (node : n ∈ x.ads.dhead) (writes : n.Writes place) : ∀ r ∈ x.seshead, r.dkey ≠ n.key := by
    intro r member own
    obtain ⟨e, may, changed⟩ :=
      grown_by_session wellFormed known member node own writes (stays x run)
    exact changed (stays _ (run.snoc may))
  refine ⟨content, held, ?_⟩
  intro n node writes
  have others := idle (.refl st) inv known n node writes
  refine ⟨?_, others⟩
  intro socketless
  let t : Tick :=
    { now := s.lastsending + (sessionClosewait + 1), sockname := fun _ => none, addr := [], faults := [] }
  have run : Runs.Reaches (step host) Admissible st (step host st (.tick t)) :=
    (Runs.Reaches.refl st).snoc trivial
  have late : sessionClosewait < difftime t.now s.lastsending := by
    refine (difftime_late _ _ (by decide)).mpr ?_
    show (15 : Int) < s.lastsending + (15 + 1) - s.lastsending ∧ s.lastsending + (15 + 1) - s.lastsending < 2 ^ 31
    omega
  have gone := finished_collected inv found fin t late
  have inv₁ : WellFormed host.toVolume (step host st (.tick t)) := inv.step trivial
  have known₁ : Known host (step host st (.tick t)) := known.step inv
  have node₁ : n ∈ (step host st (.tick t)).ads.dhead := by
    obtain ⟨_, _, _, kept, _⟩ := resendAllsession_steps t st.seshead
      { st.ads with faults := t.faults, trace := [] } t.addr sockaddrStorage
    have linked : st.ads.at n.key = some n := Keyed.lookup_of_mem DSession.key inv.ads.distinct node
    have same := kept n.key fun r member _ => others r member
    exact at_mem (same.trans linked)
  obtain ⟨src, address⟩ := known.address s (session_mem found)
  rw [session_key found] at address
  obtain ⟨e, may, x, member, m, left, own, writes', _⟩ :=
    taken_up inv₁ known₁ address gone node₁ socketless writes (stays _ run)
  exact idle (run.snoc may) (inv₁.step may) (known₁.step inv₁) m left writes' x member own

/-! ## The last block -/

/-- The session has a stream that writes its file. -/
def Session.Streams (s : Session) (ds : IWDS) : Prop :=
  ∃ n, ds.at s.dkey = some n ∧ n.fp.mode = .write

/-- A session that writes its file, or has completed it. -/
def Session.Stored (vol : Volume) (s : Session) (ds : IWDS) : Prop :=
  s.Streams ds ∨ (ds.at s.dkey = none ∧ ∃ content, Settled ds (vol.node s.filename) content)

/-- Closing the only stream that writes a file settles the file. -/
theorem Session.Streams.close {s : Session} {ds ds' : IWDS} (streams : s.Streams ds)
    (inv : Consistent vol ds) (keeps : s.Keeps vol ds) (chain : Chain vol s.dkey ds ds')
    (closed : ds'.at s.dkey = none) (disk : ds'.disk = ds.disk) :
    ∃ content, Settled ds' (vol.node s.filename) content := by
  obtain ⟨n, found, mode⟩ := streams
  have place := place_of_found inv found
  obtain ⟨content, held⟩ := inv.regular (at_mem found) (place ▸ keeps)
  rw [place] at held
  have file : ds'.disk (vol.node s.filename) = .regular content := by rw [disk, held]
  refine ⟨content, settled_closed chain closed file ?_⟩
  intro w member writes same
  rw [inv.oneWriter w member n (at_mem found) (same ▸ keeps) writes mode (same.trans place.symm)]
  exact lookup_key found

/-- A save at the end of a transfer stores, unless there is a stream open for reading. -/
theorem saveData_stored {s : Session} {ds : IWDS} (inv : Consistent vol ds) (keeps : s.Keeps vol ds)
    (clean : ds.faults = []) (start : ds.at s.dkey = none ∨ s.Streams ds) (saved : (saveData vol s ds).1 = true) :
    s.Stored vol (saveData vol s ds).2.2 ∧ (saveData vol s ds).2.2.faults = [] := by
  have save := saveData_cases s inv
  have chain := saveData_chain vol s ds
  generalize saveData vol s ds = r at save chain saved ⊢
  obtain ⟨ok, s', ds'⟩ := r
  dsimp only at save chain saved ⊢
  cases save with
  | finished n found _ closed disk faults =>
    refine ⟨.inr ⟨closed, ?_⟩, faults clean⟩
    obtain absent | streams := start
    · rw [found] at absent
      cases absent
    · exact streams.close inv keeps chain closed disk
  | created absent free _ _ closed disk faults =>
    refine ⟨.inr ⟨closed, [], settled_closed chain closed ?_ ?_⟩, faults clean⟩
    · rw [disk, Function.update_self, free.absent keeps, FileNode.truncated_absent]
    · intro w member _ same
      have there := inv.there member
      rw [same] at there
      exact absurd (free.absent keeps) there
  | appended _ n _ _ _ _ opened still _ faults => exact ⟨.inl ⟨n, opened, still⟩, faults clean⟩
  | started n _ _ _ _ opened still _ faults => exact ⟨.inl ⟨n, opened, still⟩, faults clean⟩
  | refused | short | cut => cases saved

theorem Session.Stored.congr {s s' : Session} {ds : IWDS} (stored : s.Stored vol ds)
    (ident : s'.ident = s.ident) : s'.Stored vol ds := by
  rw [Session.Stored, Session.Streams, dkey_of_ident ident, filename_of_ident ident]
  exact stored

/-- A file that is complete refuses the rest of a block. -/
theorem putLoop_stored (fuel : Nat) {s : Session} {ds : IWDS} (data : Bytes) (inv : Consistent vol ds)
    (keeps : s.Keeps vol ds) (clean : ds.faults = []) (fin : s.fin = true) (start : ds.at s.dkey = none ∨ s.Streams ds)
    (done : (putLoop vol fuel s ds data).status = .done) :
    (putLoop vol fuel s ds data).ses.Stored vol (putLoop vol fuel s ds data).ds := by
  induction fuel generalizing s ds data with
  | zero => cases done
  | succ fuel inductionHypothesis =>
    obtain ⟨ds₁, dhead, disk, faults, pass⟩ := putLoop_pass vol fuel s ds data
    have inv₁ : Consistent vol ds₁ := inv.congr dhead disk
    have start₁ : ds₁.at (s.behind data).dkey = none ∨ (s.behind data).Streams ds₁ := by
      rw [Session.Streams, IWDS.at, dhead]
      exact start
    have keeps₁ : (s.behind data).Keeps vol ds₁ := by
      rw [Session.Keeps, disk]
      exact keeps
    have stored : (saveData vol (s.behind data) ds₁).1 = true → _ :=
      saveData_stored inv₁ keeps₁ (faults.trans clean) start₁
    have chain := saveData_chain vol (s.behind data) ds₁
    have only := saveData_only vol (s.behind data) ds₁
    rw [pass, flush_due (s.behind data) ds₁ (.inr fin)] at done ⊢
    dsimp only at done ⊢
    generalize saveData vol (s.behind data) ds₁ = f at stored chain only done ⊢
    obtain ⟨_ | _, s₂, ds₂⟩ := f
    · cases done
    · obtain ⟨stored, clean₂⟩ := stored rfl
      have inv₂ : Consistent vol ds₂ := chain.consistent inv₁
      have stored₂ : s₂.Stored vol ds₂ := stored.congr only.ident
      have fin₂ : s₂.fin = true := only.fin.trans fin
      have keeps₂ : s₂.Keeps vol ds₂ := by
        rw [Session.Keeps, show s₂.filename = s.filename from filename_of_ident only.ident]
        exact chain.ordinary keeps₁
      rw [if_neg Bool.noConfusion] at done ⊢
      split at done
      · rename_i more
        rw [if_pos more]
        obtain streams | ⟨absent, content, settled⟩ := stored₂
        · exact inductionHypothesis _ inv₂ keeps₂ clean₂ fin₂ (.inr streams) done
        · -- The file is closed, and what is left of the block is refused.
          have stuck : Stuck vol s₂ ds₂ := by
            refine ⟨absent, ?_⟩
            rw [settled.1]
            exact not_false
          cases fuel with
          | zero => cases done
          | succ less =>
            have err := (stuck.putLoop less (data.drop (s.consumed data)) inv₂ fin₂).1
            rw [done] at err
            cases err
      · rename_i all
        rw [if_neg all]
        exact stored₂

/-- A last block that is acknowledged settles the file, when the session writes the file
already, or has something to store and nothing open. -/
theorem storeBlock_settles {s : Session} {ds : IWDS} {dat : TftpData} {dlen : Nat} (now : Int)
    (inv : Consistent vol ds) (keeps : s.Keeps vol ds) (clean : ds.faults = [])
    (fin : (s.noticed dlen).fin = true) (start : s.Streams ds ∨ (ds.at s.dkey = none ∧ s.Loaded dat.data))
    (done : (putSessionData vol (s.noticed dlen) ds dat.data).status = .done) :
    ∃ content, Settled (storeBlock vol s ds dat dlen now).ds (vol.node s.filename) content := by
  obtain ⟨chain, only, _⟩ := putSessionData_steps vol (s.noticed dlen) ds dat.data
  have stored : (putSessionData vol (s.noticed dlen) ds dat.data).ses.Stored vol
      (putSessionData vol (s.noticed dlen) ds dat.data).ds := by
    by_cases idle : (s.noticed dlen).sesbuf.datalen = 0 ∧ dat.data.length = 0
    · rw [putSessionData, if_pos idle]
      obtain streams | ⟨_, buffer | payload⟩ := start
      · exact .inl streams
      · exact absurd idle.1 buffer
      · exact absurd (List.eq_nil_of_length_eq_zero idle.2) payload
    · rw [putSessionData, if_neg idle] at done ⊢
      exact putLoop_stored _ dat.data inv keeps clean fin (start.symm.imp_left And.left) done
  have fin' := only.fin.trans fin
  have ident : (putSessionData vol (s.noticed dlen) ds dat.data).ses.ident = s.ident := only.ident
  have inv' := chain.consistent inv
  have keeps' : (putSessionData vol (s.noticed dlen) ds dat.data).ses.Keeps vol
      (putSessionData vol (s.noticed dlen) ds dat.data).ds := by
    rw [Session.Keeps, show (putSessionData vol (s.noticed dlen) ds dat.data).ses.filename = s.filename from
      filename_of_ident ident]
    exact chain.ordinary keeps
  rw [storeBlock_eq]
  dsimp only
  generalize putSessionData vol (s.noticed dlen) ds dat.data = r at stored done fin' ident inv' keeps' ⊢
  rw [if_pos done]
  dsimp only
  rw [if_pos fin', ← filename_of_ident ident]
  obtain streams | ⟨_, content, settled⟩ := stored
  · exact streams.close inv' keeps' (closeData_chain vol r.ses r.ds) (closeData_closed r.ses inv'.distinct)
      (closeData_disk r.ses r.ds)
  · exact ⟨content, (closeData_chain vol r.ses r.ds).settled settled⟩

/-! ## The promise -/

/-- The name of the session leads to no device, and the last block comes to a session that writes its
file, or that has something to store and nothing open; or the file is there and nobody's. -/
def Keeps (vol : Volume) (st : Server) (s : Session) (data : Bytes) : Prop :=
  s.Keeps vol st.ads ∧ (s.Streams st.ads ∨ (st.ads.at s.dkey = none ∧ s.Loaded data) ∨
    ∃ content, Unclaimed st (vol.node s.filename) content)

/-- What is nobody's after the last block was nobody's before, when the session stored nothing. -/
theorem Unclaimed.before {st : Server} {d : Datagram} {c : Client} {s : Session} {place content : Bytes}
    (unclaimed : Unclaimed (Iwtftpd.recv host st d).1 place content) (inv : WellFormed host.toVolume st)
    (named : host.client d.src = some c) (found : getSession st.seshead c = some s)
    (reads : ¬ s.Streams st.ads) (there : ∃ bytes, st.ads.disk place = .regular bytes) :
    Unclaimed st place content := by
  have received : Consistent host.toVolume (st.receive d).ads := inv.ads.congr rfl rfl
  have handled := proc_handled host d found
  have after : (Iwtftpd.recv host st d).1.ads = (st.proc host d c).ds := by rw [recv_eq named]
  obtain ⟨bytes, held⟩ := there
  have unwritten : Unwritten s.dkey (st.receive d).ads place :=
    fun n node writes => reads ⟨n, node, writes.1⟩
  have kept := (handled.chain.unwritten received held unwritten).1
  have same := unclaimed.file
  rw [after, kept] at same
  refine ⟨held.trans same, ?_⟩
  intro n member writes
  have apart : n.key ≠ s.dkey := by
    intro own
    exact reads ⟨n, own ▸ Keyed.lookup_of_mem DSession.key inv.ads.distinct member, writes.1⟩
  have left : n ∈ (Iwtftpd.recv host st d).1.ads.dhead := by
    rw [after]
    exact handled.chain.mem_new member apart
  obtain ⟨socket, others⟩ := unclaimed.nobody n left writes
  refine ⟨socket, ?_⟩
  intro x inList
  by_cases own : x = s
  · rw [own]
    exact apart.symm
  · apply others x
    have key : ((st.proc host d c).after s).key = s.key := key_of_ident handled.ident
    rw [recv_eq named]
    dsimp only
    rw [handled_apply found handled]
    apply Keyed.mem_store_of_ne Session.key inList
    rw [key]
    intro same
    have mine := Keyed.lookup_of_mem Session.key inv.clients inList
    rw [same, Keyed.lookup_of_mem Session.key inv.clients (session_mem found)] at mine
    exact own (Option.some.inj mine).symm

/-- After the ACK of the last block the file stays as it is exactly when the block came to a
session that writes the file, or had something to store and nothing open, or the file was there
and nobody's; and the name led to no device.

Proof: the block closes the stream of such a session, so the file is settled, and no later step
changes a settled file. A file that lasts is nobody's, since the client of a session with a stream
for it could make it longer; and it was nobody's before the block when that stored nothing. -/
theorem upload_lasts_iff {st : Server} {d : Datagram} {c : Client} {s : Session} {dat : TftpData}
    (reachable : Reachable host st) (admissible : Admissible st (.datagram d))
    (final : FinalBlock host st d c s dat) (clean : d.faults = [])
    (acked : ∃ m ∈ (recv host st d).2, m.msg = ackMsg dat.blknum) :
    Lasts host (recv host st d).1 (host.toVolume.node s.filename) ↔
      Keeps host.toVolume st s dat.data := by
  have inv := reachable.wellFormed
  have inv' : WellFormed host.toVolume (recv host st d).1 := inv.step (e := .datagram d) admissible
  have known' : Known host (recv host st d).1 := reachable.known.recv final.named
  have received : Consistent host.toVolume (st.receive d).ads := inv.ads.congr rfl rfl
  have fin := final.ends inv.rbuf
  obtain ⟨done, after⟩ := final.stored acked
  have devices : (recv host st d).1.ads.disk (host.toVolume.node s.filename) = .device ↔
      st.ads.disk (host.toVolume.node s.filename) = .device :=
    (step_effects host st (.datagram d)).device_iff inv.ads
  constructor
  · intro lasts
    have keeps : s.Keeps host.toVolume st.ads := by
      intro device
      obtain ⟨content, stays⟩ := lasts
      have held := stays _ (.refl _)
      rw [devices.mpr device] at held
      cases held
    refine ⟨keeps, ?_⟩
    by_cases streams : s.Streams st.ads
    · exact .inl streams
    by_cases stores : st.ads.at s.dkey = none ∧ s.Loaded dat.data
    · exact .inr (.inl stores)
    refine .inr (.inr ?_)
    -- The session is finished by the block.
    have call : st.proc host d c = storeBlock host.toVolume s (st.receive d).ads dat d.len d.now := by
      rw [proc_move final.found, final.move]
      rfl
    have only := (putSessionData_steps host.toVolume (s.noticed d.len) (st.receive d).ads dat.data).2.1
    have fin' : ((st.proc host d c).after s).fin = true := by
      rw [call, storeBlock_eq]
      dsimp only
      rw [if_pos done]
      exact only.fin.trans fin
    have found' := getSession_recv final.named final.found
    obtain ⟨content, unclaimed⟩ := lasts.unclaimed inv' known' found' fin'
    refine ⟨content, unclaimed.before inv final.named final.found streams ?_⟩
    cases node : st.ads.at s.dkey with
    | some n =>
      have place := place_of_found inv.ads node
      obtain ⟨bytes, held⟩ := inv.ads.regular (at_mem node) (place ▸ keeps)
      rw [place] at held
      exact ⟨bytes, held⟩
    | none =>
      -- Nothing was stored.
      have idle : (s.noticed d.len).sesbuf.datalen = 0 ∧ dat.data.length = 0 := by
        have nothing : ¬ s.Loaded dat.data := fun loaded => stores ⟨node, loaded⟩
        rw [Session.Loaded, not_or, not_not, not_not] at nothing
        exact ⟨nothing.1, by rw [nothing.2]; rfl⟩
      have same : (recv host st d).1.ads.disk = st.ads.disk := by
        rw [after, storeBlock_eq, putSessionData, if_pos idle]
        dsimp only
        rw [if_pos rfl]
        dsimp only
        rw [if_pos fin, closeData_disk]
        rfl
      exact ⟨content, same ▸ unclaimed.file⟩
  · rintro ⟨keeps, streams | stores | ⟨content, unclaimed⟩⟩
    · obtain ⟨content, settled⟩ := storeBlock_settles d.now received keeps clean fin (.inl streams) done
      rw [← after] at settled
      exact (Unclaimed.of_settled settled).lasts inv'
    · obtain ⟨content, settled⟩ := storeBlock_settles d.now received keeps clean fin (.inr stores) done
      rw [← after] at settled
      exact (Unclaimed.of_settled settled).lasts inv'
    · exact (unclaimed.recv inv final.named).lasts inv'

/-- The file stays as it is after the ACK of the last block, whenever nothing failed. -/
def UploadsLast (host : Host) : Prop :=
  ∀ st d c s dat, Reachable host st → Admissible st (.datagram d) → FinalBlock host st d c s dat →
    d.faults = [] → (∃ m ∈ (recv host st d).2, m.msg = ackMsg dat.blknum) →
    Lasts host (recv host st d).1 (host.toVolume.node s.filename)

/-- The first block of a client that uploads, when it is the last. -/
def onlyBlock (data : Bytes) : Datagram := arrival [1] (dataMsg 1 data) none

theorem onlyBlock_final {data : Bytes} (short : data.length < tftpDatalenMax) :
    ∃ s, FinalBlock smallHost uploadOpen (onlyBlock data) ([1], 2000) s { blknum := 1, data := data } ∧
      s.filename = [102] ∧ uploadOpen.ads.at s.dkey = none ∧ s.Keeps smallHost.toVolume uploadOpen.ads := by
  have there : getSession uploadOpen.seshead ([1], 2000) ≠ none := by decide +kernel
  obtain ⟨s, found⟩ := Option.ne_none_iff_exists'.mp there
  have opened : ∀ s ∈ uploadOpen.seshead,
      s.blknum = 0 ∧ s.filename = [102] ∧ uploadOpen.ads.at s.dkey = none ∧
        s.Keeps smallHost.toVolume uploadOpen.ads := by decide +kernel
  obtain ⟨number, name, absent⟩ := opened s (session_mem found)
  have bytes : (onlyBlock data).bytes = dataMsg 1 data := rfl
  have move : uploadOpen.move (onlyBlock data) s = .store { blknum := 1, data := data } := by
    rw [move_dataMsg uploadOpen s bytes short.le, number]
    rfl
  exact ⟨s, ⟨rfl, found, move, short⟩, name, absent⟩

/-- A file of one byte is there to stay. -/
theorem upload_lasts_sample :
    Lasts smallHost (recv smallHost uploadOpen (onlyBlock [7])).1 (smallHost.toVolume.node [102]) := by
  obtain ⟨s, final, name, absent, keeps⟩ := @onlyBlock_final [7] (by decide)
  have quiet : (Event.datagram (onlyBlock [7])).Quiet := rfl
  have loaded : s.Loaded [7] := .inr (by decide)
  have lasts := (upload_lasts_iff uploadOpen_reachable (quiet.admissible _) final rfl
    (by decide +kernel)).mpr ⟨keeps, .inr (.inl ⟨absent, loaded⟩)⟩
  rw [name] at lasts
  exact lasts

/-- An upload of nothing is acknowledged, and there is no file. -/
theorem uploads_not_lasting : ¬ UploadsLast smallHost := by
  intro lasting
  obtain ⟨s, final, name, _⟩ := @onlyBlock_final [] (by decide)
  have quiet : (Event.datagram (onlyBlock [])).Quiet := rfl
  obtain ⟨content, stays⟩ := lasting uploadOpen (onlyBlock []) ([1], 2000) s _ uploadOpen_reachable
    (quiet.admissible _) final rfl (by decide +kernel)
  have held := stays _ (.refl _)
  have missing : (recv smallHost uploadOpen (onlyBlock [])).1.ads.disk
      (smallHost.toVolume.node [102]) = .absent := by decide +kernel
  rw [name, missing] at held
  cases held

end Iwtftpd
