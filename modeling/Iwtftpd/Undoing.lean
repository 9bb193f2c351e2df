import Iwtftpd.Draining
import Iwtftpd.Loading

/-!
# Requests that come to nothing

A datagram of a client without a session that is answered with ERROR, or not at
all, should leave nothing behind once the iteration is over. A session is linked
before the steps that can fail. When its socket cannot be made it stays as it
is, neither finished nor disabled. When its first block cannot be loaded it is
finished, and collected because its last message is as old as the epoch.
-/

namespace Iwtftpd

variable {host : Host}

/-- The server answers the datagram with ERROR or not at all. -/
def Unserved (host : Host) (st : Server) (d : Datagram) : Prop :=
  ∀ m ∈ (recv host st d).2, opcodeOf m.msg = opError

/-- The request is one the server goes ahead with: RRQ for a regular file, or WRQ for a name
that is not one's. -/
def Accepted (host : Host) (st : Server) (d : Datagram) : Prop :=
  ∃ req, parseTftpreq (st.receive d).rbuf d.len = some req ∧
    ((ofBe16 (st.receive d).rbuf = opRrq ∧
        ∃ content, st.ads.disk (host.toVolume.node req.filename) = .regular content) ∨
      (ofBe16 (st.receive d).rbuf = opWrq ∧
        ∀ content, st.ads.disk (host.toVolume.node req.filename) ≠ .regular content))

/-- The rest of the iteration: datagrams of others, then the tick. -/
def iteration (d : Datagram) (others : List Datagram) (t : Tick) : List Event :=
  (d :: others).map .datagram ++ [.tick t]

/-- Nothing is left of the datagram at the end of its iteration. -/
structure Undone (host : Host) (st : Server) (d : Datagram) (c : Client) (others : List Datagram)
    (t : Tick) : Prop where
  session : getSession (Runs.exec (step host) st (iteration d others t)).seshead c = none
  nodes : ∀ n ∈ (step host st (.datagram d)).ads.dhead, n ∈ st.ads.dhead
  files : (step host st (.datagram d)).ads.disk = st.ads.disk
  alone : others = [] → let st' := Runs.exec (step host) st (iteration d others t)
    (∀ n ∈ st'.ads.dhead, n ∈ st.ads.dhead) ∧ st'.ads.disk = st.ads.disk

/-! ## What the datagram leaves -/

/-- The call for a request that the server goes ahead with. -/
theorem proc_accepted {st : Server} {d : Datagram} {c : Client}
    (found : getSession st.seshead c = none) (accepted : Accepted host st d) :
    ∃ req, parseTftpreq (st.receive d).rbuf d.len = some req ∧
      st.proc host d c =
        match d.newsock with
        | none => errsendNone (.insert (newSession c req (-1))) (st.receive d).ads .seeMsg serverError
        | some fd => startTransfer host.toVolume (newSession c req fd) (st.receive d).ads
            (ofBe16 (st.receive d).rbuf) d.now := by
  obtain ⟨req, parsed, kind⟩ := accepted
  have list : getSession (st.receive d).seshead c = none := found
  have other : opRrq ≠ opWrq := by decide
  refine ⟨req, parsed, ?_⟩
  rw [Server.proc, list, tftpProc]
  obtain ⟨rrq, file⟩ | ⟨wrq, free⟩ := kind
  · have yes : iwdsIsfile host.toVolume (st.receive d).ads req.filename = .yes :=
      (isDsfile_yes_iff host.toVolume _ req.filename).mpr file
    rw [rrq, if_pos (.inl rfl), opReq, parsed]
    dsimp only
    cases d.newsock <;> simp [yes, other]
  · have no : iwdsIsfile host.toVolume (st.receive d).ads req.filename = .no :=
      (isDsfile_no_iff host.toVolume _ req.filename).mpr free
    rw [wrq, if_pos (.inr rfl), opReq, parsed]
    dsimp only
    cases d.newsock <;> simp [no]

/-- Any other request is answered with ERROR. -/
theorem proc_denied {st : Server} {d : Datagram} {c : Client}
    (found : getSession st.seshead c = none) (unaccepted : ¬ Accepted host st d)
    (request : ofBe16 (st.receive d).rbuf = opRrq ∨ ofBe16 (st.receive d).rbuf = opWrq) :
    ∃ ecode, st.proc host d c = errsendNone .keep (st.receive d).ads ecode [] := by
  have list : getSession (st.receive d).seshead c = none := found
  rw [Server.proc, list, tftpProc, if_pos request, opReq]
  split
  · exact ⟨.illegalOpe, rfl⟩
  · rename_i req parsed
    split
    · exact ⟨.fileExist, rfl⟩
    · exact ⟨.notFound, rfl⟩
    · rename_i notExisting notMissing
      refine absurd ⟨req, parsed, ?_⟩ unaccepted
      cases file : iwdsIsfile host.toVolume (st.receive d).ads req.filename with
      | err => exact absurd file (isDsfile_ne_err host.toVolume _ req.filename)
      | yes =>
        refine .inl ⟨?_, (isDsfile_yes_iff host.toVolume _ req.filename).mp file⟩
        exact request.resolve_right fun wrq => notExisting file (decide_eq_true wrq)
      | no =>
        refine .inr ⟨?_, (isDsfile_no_iff host.toVolume _ req.filename).mp file⟩
        by_contra other
        exact notMissing file (decide_eq_false other)

/-- Any other datagram opens nothing. -/
theorem proc_unaccepted {st : Server} {d : Datagram} {c : Client}
    (found : getSession st.seshead c = none) (unaccepted : ¬ Accepted host st d) :
    (st.proc host d c).edit = .keep ∧ (st.proc host d c).ds = (st.receive d).ads := by
  have list : getSession (st.receive d).seshead c = none := found
  have answered (ecode : TftpErrorcode) :
      (errsendNone .keep (st.receive d).ads ecode []).edit = .keep ∧
        (errsendNone .keep (st.receive d).ads ecode []).ds = (st.receive d).ads := by
    rw [errsendNone_eq .keep _ ecode empty_short]
    exact ⟨rfl, rfl⟩
  by_cases request : ofBe16 (st.receive d).rbuf = opRrq ∨ ofBe16 (st.receive d).rbuf = opWrq
  · obtain ⟨ecode, call⟩ := proc_denied found unaccepted request
    rw [call]
    exact answered ecode
  · rw [Server.proc, list, tftpProc, if_neg request]
    split
    · exact answered .unknownId
    · split
      · exact answered .unknownId
      · split <;> exact ⟨rfl, rfl⟩

/-- The ways a datagram of a client without a session is left unserved. -/
inductive Denial (host : Host) (st : Server) (d : Datagram) (c : Client) : Prop where
  | unopened (unaccepted : ¬ Accepted host st d)
      (list : (recv host st d).1.seshead = st.seshead)
      (dhead : (recv host st d).1.ads.dhead = st.ads.dhead)
      (disk : (recv host st d).1.ads.disk = st.ads.disk)
  | socketless (accepted : Accepted host st d) (refused : d.newsock = none) (req : TftpReq)
      (session : getSession (recv host st d).1.seshead c = some (newSession c req (-1)))
  | unloaded (accepted : Accepted host st d) (socket : d.newsock ≠ none) (s : Session)
      (session : getSession (recv host st d).1.seshead c = some s) (fin : s.fin = true)
      (enabled : s.disabled = false) (unsent : s.lastsending = 0)
      (nodes : ∀ n ∈ (recv host st d).1.ads.dhead, n ∈ st.ads.dhead)
      (disk : (recv host st d).1.ads.disk = st.ads.disk)

theorem denial {st : Server} {d : Datagram} {c : Client} (inv : WellFormed host.toVolume st)
    (named : host.client d.src = some c) (found : getSession st.seshead c = none)
    (unserved : Unserved host st d) : Denial host st d c := by
  have received : Consistent host.toVolume (st.receive d).ads := inv.ads.congr rfl rfl
  by_cases accepted : Accepted host st d
  · obtain ⟨req, parsed, call⟩ := proc_accepted found accepted
    have goes := accepted
    cases newsock : d.newsock with
    | none =>
      rw [newsock] at call
      dsimp only at call
      rw [errsendNone_eq _ _ .seeMsg serverError_short] at call
      exact .socketless accepted newsock req (getSession_opened named (by rw [call]) rfl)
    | some fd =>
      rw [newsock] at call
      dsimp only at call
      obtain ⟨s, linked⟩ := startTransfer_linked host.toVolume c req fd (st.receive d).ads
        (ofBe16 (st.receive d).rbuf) d.now
      rw [← call] at linked
      have opened := getSession_opened named linked.edit (linked_key linked)
      -- The answer goes out, for the session is enabled.
      have answer : ∀ msg, (st.proc host d c).fill = some msg → opcodeOf msg = opError := by
        intro msg fill
        apply unserved { sock := s.clsock, dest := d.src, msg := msg, ses := some s.key }
        rw [recv_eq named, fill, replyOf, linked.ok, linked.pointer]
        simp [linked.enabled]
      obtain ⟨_, _, ⟨rrq, _⟩ | ⟨wrq, _⟩⟩ := accepted
      · rw [rrq, startTransfer_rrq] at call
        have failed : (makeTftpdataMsg host.toVolume (newSession c req fd) (st.receive d).ads
            tftpMsglenMax d.now).1 = none := by
          by_contra made
          obtain ⟨msg, some⟩ := Option.ne_none_iff_exists'.mp made
          have data := (makeTftpdataMsg_made some).1
          rw [some] at call
          have error := answer msg (by rw [call]; rfl)
          rw [data] at error
          exact absurd error (by decide)
        have session : s = { newSession c req fd with
            blknum := nextBlk 0
            sesbuf := (makeTftpdataMsg host.toVolume (newSession c req fd) (st.receive d).ads
              tftpMsglenMax d.now).2.1.sesbuf
            fin := true } := by
          have edit := linked.edit
          rw [call] at edit
          rw [← Edit.insert.inj edit, startReader]
          dsimp only
          rw [if_pos failed, makeTftpdataMsg_none failed]
          rfl
        have chain : Chain host.toVolume (fd, req.filename) (st.receive d).ads
            (recv host st d).1.ads := by
          rw [recv_eq named]
          exact linked.chain
        have after : (recv host st d).1.ads = (makeTftpdataMsg host.toVolume (newSession c req fd)
            (st.receive d).ads tftpMsglenMax d.now).2.2 := by
          rw [recv_eq named, call]
        refine .unloaded goes (by rw [newsock]; exact Option.some_ne_none _) s opened ?_ ?_ ?_ ?_ ?_
        · rw [session]
        · exact linked.enabled
        · rw [session]
          rfl
        · intro n member
          refine chain.mem_old ?_ member
          have closed : (recv host st d).1.ads.at (fd, req.filename) = none := by
            rw [after]
            exact makeTftpdataMsg_closed received failed
          exact (Keyed.lookup_none_iff DSession.key).mp closed n member
        · rw [after]
          exact makeTftpdataMsg_disk (newSession c req fd) tftpMsglenMax d.now received
      · rw [wrq, startTransfer_wrq] at call
        have ack := answer (ackMsg 0) (by rw [call])
        rw [opcodeOf_ackMsg] at ack
        exact absurd ack (by decide)
  · obtain ⟨edit, same⟩ := proc_unaccepted found accepted
    refine .unopened accepted ?_ ?_ ?_ <;> rw [recv_eq named]
    · rw [edit]
      rfl
    · rw [same]
      rfl
    · rw [same]
      rfl

/-! ## The rest of the iteration -/

/-- A session without a socket outlives every round. -/
theorem newSession_round (c : Client) (req : TftpReq) (t : Tick) :
    (newSession c req (-1)).round t ≠ none := by
  have idle : ¬ (newSession c req (-1)).Due t := fun due => due.2.2.2 rfl
  have spared : ¬ (newSession c req (-1)).exhausted t.now := fun gone =>
    absurd gone.2.2.2 (Nat.not_succ_le_zero 2)
  have kept : (newSession c req (-1)).timed t = newSession c req (-1) := by
    rw [Session.timed, if_neg idle, if_neg spared]
  rw [round_kept kept ⟨rfl, rfl⟩]
  exact Option.some_ne_none _

/-- The close wait has passed since the epoch, and the clock still fits an `int32_t`. -/
def Tick.InEra (t : Tick) : Prop := sessionClosewait < t.now ∧ t.now < 2 ^ 31

instance (t : Tick) : Decidable t.InEra := inferInstanceAs (Decidable (_ ∧ _))

/-- A session that is finished and never sent anything goes in a round in that era. -/
theorem unsent_round {s : Session} {t : Tick} (fin : s.fin = true) (enabled : s.disabled = false)
    (unsent : s.lastsending = 0) : s.round t = none ↔ t.InEra := by
  have inEra : sessionClosewait < difftime t.now 0 ↔ t.InEra := by
    rw [difftime_late _ _ (by decide), Int.sub_zero, Tick.InEra]
  rw [round_finished t fin enabled, unsent]
  split
  · rename_i late
    exact iff_of_true rfl (inEra.mp late)
  · rename_i early
    exact iff_of_false nofun fun era => early (inEra.mpr era)

/-- The datagrams of others leave the client's session alone. -/
theorem getSession_others {st : Server} {c : Client} (others : List Datagram)
    (foreign : ∀ d ∈ others, host.client d.src ≠ some c) :
    getSession (Runs.exec (step host) st (others.map .datagram)).seshead c =
      getSession st.seshead c := by
  induction others generalizing st with
  | nil => rfl
  | cons d rest inductionHypothesis =>
    have next := @inductionHypothesis (step host st (.datagram d))
      fun d' member => foreign d' (List.mem_cons_of_mem d member)
    apply next.trans
    show getSession (recv host st d).1.seshead c = _
    cases named : host.client d.src with
    | none =>
      rw [recv_ignored named]
      rfl
    | some x =>
      apply getSession_recv_other named
      rintro rfl
      exact foreign d List.mem_cons_self named

/-- A datagram that is unserved leaves nothing if and only if it is no request that the server
goes ahead with, or one for which a socket was made and the clock of the tick is in its era.
Proof: a request that fails before its session is made opens nothing. A session without a socket
outlives every round. One whose first block failed is finished and has never sent anything, so
its close wait counts from the epoch. -/
theorem undone_iff {st : Server} {d : Datagram} {c : Client} {others : List Datagram} {t : Tick}
    (reachable : Reachable host st)
    (admits : Runs.Admits (step host) Admissible st (iteration d others t))
    (named : host.client d.src = some c) (absent : getSession st.seshead c = none)
    (foreign : ∀ d' ∈ others, host.client d'.src ≠ some c) (unserved : Unserved host st d) :
    Undone host st d c others t ↔
      (Accepted host st d → d.newsock ≠ none ∧ t.InEra) := by
  have inv := reachable.wellFormed
  let st₁ := step host st (.datagram d)
  let st₂ := Runs.exec (step host) st₁ (others.map .datagram)
  have final : Runs.exec (step host) st (iteration d others t) = (endIteration st₂ t).1 :=
    Runs.exec_append st _ _
  have inv₂ : WellFormed host.toVolume st₂ := by
    have run := Runs.reaches_exec admits.before
    exact run.invariant (fun _ _ inv may => inv.step may) inv
  have session : getSession (Runs.exec (step host) st (iteration d others t)).seshead c =
      (getSession st₁.seshead c).bind (Session.round t) := by
    rw [final, getSession_rounds t c inv₂, getSession_others others foreign]
  -- A tick opens no node and changes no file.
  have lonely (nodes : ∀ n ∈ st₁.ads.dhead, n ∈ st.ads.dhead) (files : st₁.ads.disk = st.ads.disk) :
      others = [] → let st' := Runs.exec (step host) st (iteration d others t)
        (∀ n ∈ st'.ads.dhead, n ∈ st.ads.dhead) ∧ st'.ads.disk = st.ads.disk := by
    intro alone
    have same : st₂ = st₁ := by
      show Runs.exec (step host) st₁ (others.map .datagram) = st₁
      rw [alone]
      rfl
    obtain ⟨_, disk, fewer, _⟩ := resendAllsession_steps t st₁.seshead
      { st₁.ads with faults := t.faults, trace := [] } t.addr sockaddrStorage
    dsimp only
    rw [final, same]
    exact ⟨fun n member => nodes n (fewer.subset member), disk.trans files⟩
  cases denial inv named absent unserved with
  | unopened unaccepted list dhead disk =>
    have nodes : ∀ n ∈ st₁.ads.dhead, n ∈ st.ads.dhead := fun n member => dhead ▸ member
    refine iff_of_true ⟨?_, nodes, disk, lonely nodes disk⟩ fun accepted => absurd accepted unaccepted
    have same : getSession st₁.seshead c = none := by
      show getSession (recv host st d).1.seshead c = none
      rw [list]
      exact absent
    rw [session, same]
    rfl
  | socketless accepted refused req opened =>
    refine iff_of_false (fun undone => ?_) fun fine => (fine accepted).1 refused
    have gone := undone.session
    have opened : getSession st₁.seshead c = some (newSession c req (-1)) := opened
    rw [session, opened] at gone
    exact newSession_round c req t gone
  | unloaded accepted socket s opened fin enabled unsent nodes disk =>
    have opened : getSession st₁.seshead c = some s := opened
    have round : (getSession st₁.seshead c).bind (Session.round t) = none ↔ t.InEra := by
      rw [opened]
      exact unsent_round fin enabled unsent
    constructor
    · intro undone _
      exact ⟨socket, round.mp (session.symm.trans undone.session)⟩
    · intro fine
      exact ⟨session.trans (round.mpr (fine accepted).2), nodes, disk, lonely nodes disk⟩

/-- A client asks for a file whose first block cannot be read. -/
def unreadable : Datagram :=
  { arrival [1] (reqMsg opRrq [102] .octet) (some 5) with faults := [.none, .fail 0] }

/-- A client asks to upload, and no socket can be made. -/
def unconnected : Datagram := { uploadRequest [1] 5 with newsock := none }

/-- The session whose first block failed is gone in 1970, and is there for good since 2038. -/
theorem undone_sample :
    Undone smallHost (startOn (diskWith [102] [7])) unreadable ([1], 2000) [] (tickAt 16) ∧
      ¬ Undone smallHost (startOn (diskWith [102] [7])) unreadable ([1], 2000) [] (tickAt (2 ^ 31)) := by
  have unserved : ∀ m ∈ (recv smallHost (startOn (diskWith [102] [7])) unreadable).2,
      opcodeOf m.msg = opError := by decide +kernel
  have first : Admissible (startOn (diskWith [102] [7])) (.datagram unreadable) :=
    admissible_first rfl rfl (by decide)
  have accepted : Accepted smallHost (startOn (diskWith [102] [7])) unreadable :=
    ⟨{ filename := [102], mode := .octet }, rfl, .inl ⟨rfl, [7], rfl⟩⟩
  have either (now : Int) :
      Undone smallHost (startOn (diskWith [102] [7])) unreadable ([1], 2000) [] (tickAt now) ↔
        (Accepted smallHost (startOn (diskWith [102] [7])) unreadable →
          unreadable.newsock ≠ none ∧ (tickAt now).InEra) :=
    undone_iff (startOn_reachable smallHost _) ⟨first, trivial, trivial⟩ rfl rfl nofun unserved
  constructor
  · exact (either 16).mpr fun _ => ⟨nofun, by decide⟩
  · exact fun undone => absurd ((either (2 ^ 31)).mp undone accepted).2 (by decide)

/-- The session for which no socket could be made is there after the iteration. -/
theorem not_undone :
    ∃ st d c t, Reachable smallHost st ∧
      Runs.Admits (step smallHost) Admissible st (iteration d [] t) ∧
      smallHost.client d.src = some c ∧ getSession st.seshead c = none ∧
      Unserved smallHost st d ∧ ¬ Undone smallHost st d c [] t := by
  have unserved : ∀ m ∈ (recv smallHost (startOn fun _ => .absent) unconnected).2,
      opcodeOf m.msg = opError := by decide +kernel
  have kept : getSession (Runs.exec (step smallHost) (startOn fun _ => .absent)
      (iteration unconnected [] (tickAt 16))).seshead ([1], 2000) ≠ none := by decide +kernel
  refine ⟨startOn fun _ => .absent, unconnected, ([1], 2000), tickAt 16,
    startOn_reachable smallHost _, ⟨nofun, trivial, trivial⟩, rfl, rfl, unserved, ?_⟩
  exact fun undone => kept undone.session

end Iwtftpd
