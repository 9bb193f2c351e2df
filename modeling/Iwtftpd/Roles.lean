import Iwtftpd.Directions

/-!
# Readers send DATA, writers send ACK

A session opened by RRQ should send DATA and ERROR only and pass no bytes to
`iwds_write`; one opened by WRQ should send ACK and ERROR only and take nothing
from the datastore or its buffer. Nothing in the session says which it is. Roles
are kept by the runs in which no block moves against its session, no session
sends what is left in `sinfo` by another, and nothing is resent before there was
a message.
-/

namespace Iwtftpd

variable {host : Host} {vol : Volume}

/-- The messages of a direction besides ERROR. -/
def Direction.answer : Direction → UInt16
  | .reads => opData
  | .writes => opAck

/-- What a session of the direction may send. -/
def Direction.MayEmit (dir : Direction) (opcode : UInt16) : Prop :=
  opcode = dir.answer ∨ opcode = opError

instance (dir : Direction) (opcode : UInt16) : Decidable (dir.MayEmit opcode) := by
  unfold Direction.MayEmit
  infer_instance

/-- The effects of a direction. -/
def Direction.MayDo : Direction → Effect → Prop
  | .reads, .iwdsWrite _ _ dlen => dlen = 0
  | .writes, .iwdsRead _ _ => False
  | .writes, .copyOut _ _ => False
  | _, _ => True

/-- The clients that a step can do something for. -/
def Event.Concerns (host : Host) (c : Client) : Event → Prop
  | .datagram d => host.client d.src = some c
  | .tick _ => True

/-- In the step, every session acts as it was opened. -/
def KeepsRoles (host : Host) (p : Tracked) (e : Event) : Prop :=
  (∀ m ∈ outputs host p.server e, ∀ c, m.ses = some c → 0 ≤ m.sock →
    (trackUsage host p e c).opened.MayEmit (opcodeOf m.msg)) ∧
  ∀ x ∈ (step host p.server e).ads.trace, ∀ c, e.Concerns host c →
    (trackUsage host p e c).opened.MayDo x

/-- No block moves against its session, what `sinfo` holds may be sent where it is sent
again, and what is resent is a message. -/
def Faithful (host : Host) (p : Tracked) (e : Event) : Prop :=
  Admissible p.server e ∧ ∀ d c s, e = .datagram d → host.client d.src = some c →
    getSession p.server.seshead c = some s →
    ¬ (p.usage c).opened.Against s (p.server.move d s) ∧
    (s.disabled = false → 0 ≤ s.clsock →
      (p.server.move d s = .pass → (p.usage c).opened.MayEmit (opcodeOf p.server.msg)) ∧
      (p.server.move d s = .resend → s.retrycount < resendCountmax → s.lastmsg ≠ []))

/-! ## The last message -/

/-- The last message is one of the direction, or there never was one. -/
def Direction.Last (dir : Direction) (ses : Session) : Prop :=
  opcodeOf ses.lastmsg = dir.answer ∨
    (ses.lastmsg = [] ∧ (ses.fin = true ∨ ses.clsock < 0))

/-- A move along the direction leaves a last message of its kind. -/
theorem last_run {dir : Direction} {ses : Session} {ds : IWDS} {dlen : Nat} {now : Int}
    {move : Move} (along : ¬ dir.Against ses move) (last : dir.Last ses) :
    dir.Last ((move.run vol ses ds dlen now).after ses) := by
  have handled := run_handled vol ses ds dlen now move
  have kept (same : ((move.run vol ses ds dlen now).after ses).lastmsg = ses.lastmsg) :
      dir.Last ((move.run vol ses ds dlen now).after ses) := by
    unfold Direction.Last at last ⊢
    rw [same, clsock_of_ident handled.ident]
    exact last.imp id fun ⟨empty, ended⟩ => ⟨empty, ended.imp handled.fin id⟩
  have steady (still : move.Still ses) : dir.Last ((move.run vol ses ds dlen now).after ses) :=
    kept (run_still vol ds dlen now still).2.1
  cases move with
  | resend | refuse | abort | pass => exact steady trivial
  | store dat =>
    cases dir with
    | reads => exact absurd trivial along
    | writes =>
      rcases (storeBlock_cases vol ses ds dat dlen now).2 with
        ⟨_, _, ack, _⟩ | ⟨_, _, same, _⟩
      · refine .inl ?_
        show opcodeOf ((storeBlock vol ses ds dat dlen now).after ses).lastmsg = opAck
        rw [ack, opcodeOf_ackMsg]
      · exact kept same
  | advance =>
    cases running : ses.fin with
    | true => exact steady running
    | false =>
      cases dir with
      | writes => exact absurd running along
      | reads =>
        rcases nextData_cases vol ds now running with
          ⟨msg, made, _, after, _⟩ | ⟨failed, _, after, _⟩
        · obtain ⟨opcode, same, _⟩ := makeTftpdataMsg_made made
          refine .inl ?_
          show opcodeOf ((nextData vol ses ds now).after ses).lastmsg = opData
          rw [after, same, opcode]
        · apply kept
          show ((nextData vol ses ds now).after ses).lastmsg = ses.lastmsg
          rw [after, makeTftpdataMsg_none failed]

/-- So does the request that opens the session. -/
theorem last_opened {ds : IWDS} {rbuf : Bytes} {dlen : Nat} {client : Client} {now : Int}
    {newsock : Option Int} {p : Proc} {s : Session}
    (opening : Opening vol ds rbuf dlen client now newsock p) (edit : p.edit = .insert s) :
    (Usage.new rbuf).opened.Last s := by
  cases opening with
  | nothing keep _ _ =>
    rw [keep] at edit
    cases edit
  | socketless req _ _ =>
    cases edit
    have negative : (newSession client req (-1)).clsock < 0 := Int.negSucc_lt_zero 0
    exact .inr ⟨rfl, .inr negative⟩
  | reader req fd _ _ _ rrq _ =>
    cases edit
    rw [usage_reader rrq]
    unfold startReader
    dsimp only
    split
    · rename_i failed
      rw [makeTftpdataMsg_none failed]
      exact .inr ⟨rfl, .inl rfl⟩
    · rename_i made
      obtain ⟨msg, some⟩ := Option.ne_none_iff_exists'.mp made
      obtain ⟨opcode, same, _⟩ := makeTftpdataMsg_made some
      exact .inl (by rw [same, opcode]; rfl)
  | writer req fd _ _ wrq _ =>
    cases edit
    rw [usage_writer wrq]
    exact .inl (opcodeOf_ackMsg 0)

/-! ## What a move sends and does -/

/-- The message that is sent after a move. -/
theorem run_emits {dir : Direction} {ses : Session} {ds : IWDS} {dlen : Nat} {now : Int}
    {move : Move} {old : Bytes} (along : ¬ dir.Against ses move) (last : dir.Last ses)
    (stale : move = .pass → dir.MayEmit (opcodeOf old))
    (again : move = .resend → ses.retrycount < resendCountmax → ses.lastmsg ≠ [])
    (enabled : ((move.run vol ses ds dlen now).after ses).disabled = false) :
    dir.MayEmit (opcodeOf ((move.run vol ses ds dlen now).fill.getD old)) := by
  cases move with
  | resend =>
    unfold Move.run resend at enabled ⊢
    dsimp only at enabled ⊢
    split at enabled
    · rename_i retries
      rw [if_pos retries]
      exact .inl (last.resolve_right fun ⟨empty, _⟩ => again rfl retries empty)
    · cases enabled
  | refuse =>
    unfold Move.run
    dsimp only
    rw [errsend_eq .update ses ds .illegalOpe empty_short]
    exact .inr (opcodeOf_errorMsg _ _)
  | store dat =>
    cases dir with
    | reads => exact absurd trivial along
    | writes =>
      show Direction.writes.MayEmit (opcodeOf ((storeBlock vol ses ds dat dlen now).fill.getD old))
      rcases (storeBlock_cases vol ses ds dat dlen now).2 with ⟨_, fill, _⟩ | ⟨_, fill, _⟩
      · rw [fill]
        exact .inl (opcodeOf_ackMsg _)
      · rw [fill]
        exact .inr (opcodeOf_errorMsg _ _)
  | advance =>
    show dir.MayEmit (opcodeOf ((nextData vol ses ds now).fill.getD old))
    cases running : ses.fin with
    | true =>
      have disabled : ((nextData vol ses ds now).after ses).disabled = true := by
        unfold nextData
        rw [if_pos running]
        rfl
      have enabled' : ((nextData vol ses ds now).after ses).disabled = false := enabled
      rw [disabled] at enabled'
      cases enabled'
    | false =>
      cases dir with
      | writes => exact absurd running along
      | reads =>
        rcases nextData_cases vol ds now running with
          ⟨msg, made, fill, _⟩ | ⟨_, fill, _⟩
        · rw [fill]
          exact .inl (makeTftpdataMsg_made made).1
        · rw [fill]
          exact .inr (opcodeOf_errorMsg _ _)
  | abort => cases enabled
  | pass => exact stale rfl

/-- A session of either direction may close its stream. -/
theorem Effect.Closing.mayDo {k : Int × Bytes} {x : Effect} (closing : x.Closing k)
    (dir : Direction) : dir.MayDo x := by
  cases dir <;> cases x <;> first | exact closing.elim | trivial

/-- A session that reads may take blocks from its stream. -/
theorem Effect.Taking.mayDo {k : Int × Bytes} {x : Effect} (taking : x.Taking k) :
    Direction.reads.MayDo x := by
  cases x <;> first | exact taking.elim | trivial

/-- A session that writes may put blocks into its stream. -/
theorem Effect.Putting.mayDo {k : Int × Bytes} {x : Effect} (putting : x.Putting k) :
    Direction.writes.MayDo x := by
  cases x <;> first | exact putting.elim | trivial

/-- A move along the direction does to the datastore what the direction may. -/
theorem run_does {dir : Direction} {ses : Session} {ds : IWDS} {dlen : Nat} {now : Int}
    {move : Move} (along : ¬ dir.Against ses move) (empty : ds.trace = []) {x : Effect}
    (member : x ∈ (move.run vol ses ds dlen now).ds.trace) : dir.MayDo x := by
  have steady (still : move.Still ses) : dir.MayDo x :=
    ((run_closing vol still).all empty member : x.Closing ses.dkey).mayDo dir
  cases move with
  | resend | refuse | abort | pass => exact steady trivial
  | store dat =>
    cases dir with
    | reads => exact absurd trivial along
    | writes => exact ((storeBlock_adds vol ses ds dat dlen now).all empty member : x.Putting _).mayDo
  | advance =>
    cases running : ses.fin with
    | true => exact steady running
    | false =>
      cases dir with
      | writes => exact absurd running along
      | reads =>
        have taken := nextData_adds running
          (makeTftpdataMsg_adds vol ses ds tftpMsglenMax now)
        exact (taken.all empty member : x.Taking _).mayDo

/-- What the first DATA or its failure looks like. -/
theorem opening_message (ses : Session) (ds : IWDS) (now : Int) :
    Direction.reads.MayEmit (opcodeOf ((makeTftpdataMsg vol ses ds tftpMsglenMax now).1.getD
      (errorMsg .seeMsg serverError))) := by
  cases made : (makeTftpdataMsg vol ses ds tftpMsglenMax now).1 with
  | none => exact .inr (opcodeOf_errorMsg _ _)
  | some msg => exact .inl (makeTftpdataMsg_made made).1

/-! ## Steps and runs -/

/-- Every session's last message is one of the direction it was opened in. -/
structure LastMessages (vol : Volume) (p : Tracked) : Prop where
  wellFormed : WellFormed vol p.server
  last : ∀ s ∈ p.server.seshead, (p.usage s.key).opened.Last s

/-- The direction in which a session was opened stays. -/
theorem opened_moved (u : Usage) (ses : Session) (move : Move) :
    (u.moved ses move).opened = u.opened := by
  unfold Usage.moved
  split <;> rfl

/-- A faithful step keeps the last messages of the kind of their directions. -/
theorem LastMessages.step {p : Tracked} {e : Event} (inv : LastMessages host.toVolume p)
    (faithful : Faithful host p e) : LastMessages host.toVolume (trackedStep host p e) := by
  refine ⟨inv.wellFormed.step faithful.1, ?_⟩
  refine trackedStep_sessions (fun u s => u.opened.Last s) inv.wellFormed inv.last
    ?_ ?_ ?_
  · intro u s s' now last aged
    unfold Direction.Last at last ⊢
    rw [aged.lastmsg, aged.fin, clsock_of_ident aged.ident]
    exact last
  · intro d c s same named found last
    rw [opened_moved, proc_move found]
    exact last_run (faithful.2 d c s same named found).1 last
  · intro d c s _ _ found edit
    exact last_opened (proc_opening host d found) edit

/-- The record of a session goes on with its client's datagrams. -/
theorem trackUsage_found {p : Tracked} {d : Datagram} {c : Client} {s : Session}
    (named : host.client d.src = some c) (found : getSession p.server.seshead c = some s) :
    (trackUsage host p (.datagram d) c).opened = (p.usage c).opened := by
  simp only [trackUsage, named, Function.update_self, usageAfter, found, opened_moved]

/-- A new session has a new record. -/
theorem trackUsage_fresh {p : Tracked} {d : Datagram} {c : Client}
    (named : host.client d.src = some c) (found : getSession p.server.seshead c = none) :
    trackUsage host p (.datagram d) c = .new (p.server.receive d).rbuf := by
  simp only [trackUsage, named, Function.update_self, usageAfter, found]

/-- A faithful step keeps the roles. -/
theorem LastMessages.keepsRoles {p : Tracked} {e : Event} (inv : LastMessages host.toVolume p)
    (faithful : Faithful host p e) : KeepsRoles host p e := by
  cases e with
  | tick t =>
    constructor
    · intro m member c ses socket
      obtain ⟨_, _, _, _, _, sent⟩ := resendAllsession_steps t p.server.seshead
        { p.server.ads with faults := t.faults, trace := [] } t.addr sockaddrStorage
      obtain ⟨s, sMember, key, msg, sock, fin, _⟩ := sent m member
      have same : s.key = c := Option.some.inj (key.symm.trans ses)
      rcases inv.last s sMember with answer | ⟨_, ended | negative⟩
      · rw [same] at answer
        rw [msg]
        exact .inl answer
      · rw [fin] at ended
        cases ended
      · omega
    · intro x member c _
      obtain ⟨k, closing⟩ := tick_closing member
      exact closing.mayDo _
  | datagram d =>
    cases named : host.client d.src with
    | none =>
      constructor
      · intro m member
        have member' : m ∈ (recv host p.server d).2 := member
        rw [recv_ignored named] at member'
        cases member'
      · intro x member c concerned
        have impossible : host.client d.src = some c := concerned
        rw [named] at impossible
        cases impossible
    | some c =>
      cases found : getSession p.server.seshead c with
      | some s =>
        obtain ⟨along, emits⟩ := faithful.2 d c s rfl named found
        have last : (p.usage c).opened.Last s := session_key found ▸ inv.last s (session_mem found)
        have handled := proc_handled host d found
        have usage := trackUsage_found named found
        constructor
        · intro m member x ses socket
          have member' : m ∈ (recv host p.server d).2 := member
          rw [recv_eq named] at member'
          obtain ⟨msg, s', pointer, enabled, sock, key⟩ := replyOf_session member' ses
          obtain rfl : (p.server.proc host d c).after s = s' :=
            Option.some.inj (handled.pointer.symm.trans pointer)
          have same : x = c := key.symm.trans ((key_of_ident handled.ident).trans (session_key found))
          have before : s.disabled = false := by
            by_contra disabled
            rw [handled.disabled (by simpa using disabled)] at enabled
            cases enabled
          have held : 0 ≤ s.clsock := by
            rw [sock, clsock_of_ident handled.ident] at socket
            exact socket
          obtain ⟨stale, again⟩ := emits before held
          rw [proc_move found] at enabled msg
          rw [same, usage, msg]
          exact run_emits along last stale again enabled
        · intro x member y concerned
          have same : y = c := Option.some.inj (concerned.symm.trans named)
          have member' : x ∈ (recv host p.server d).1.ads.trace := member
          rw [recv_eq named] at member'
          dsimp only at member'
          rw [proc_move found] at member'
          rw [same, usage]
          exact run_does along rfl member'
      | none =>
        have usage := trackUsage_fresh (p := p) named found
        have opening := proc_opening host d found
        constructor
        · intro m member x ses socket
          have member' : m ∈ (recv host p.server d).2 := member
          rw [recv_eq named] at member'
          obtain ⟨msg, s', pointer, enabled, sock, key⟩ := replyOf_session member' ses
          generalize p.server.proc host d c = proc at opening msg pointer
          cases opening with
          | nothing _ none _ =>
            rw [none] at pointer
            cases pointer
          | socketless _ _ _ => cases pointer
          | reader req fd _ _ _ rrq _ =>
            obtain rfl := Option.some.inj pointer
            have same : x = c := key.symm.trans (startReader_key c req fd _ d.now)
            rw [same, usage, usage_reader rrq, msg]
            exact opening_message _ _ d.now
          | writer req fd _ _ wrq _ =>
            obtain rfl := Option.some.inj pointer
            have same : x = c := key.symm
            rw [same, usage, usage_writer wrq, msg]
            exact .inl (opcodeOf_ackMsg 0)
        · intro x member y concerned
          have same : y = c := Option.some.inj (concerned.symm.trans named)
          have member' : x ∈ (recv host p.server d).1.ads.trace := member
          rw [recv_eq named] at member'
          dsimp only at member'
          rw [same, usage]
          generalize p.server.proc host d c = proc at opening member'
          cases opening with
          | nothing _ _ same =>
            rw [same] at member'
            cases member'
          | socketless _ _ _ => cases member'
          | reader req fd _ _ _ rrq _ =>
            rw [usage_reader rrq]
            exact ((makeTftpdataMsg_adds _ _ _ tftpMsglenMax d.now).all rfl member' :
              x.Taking _).mayDo
          | writer _ _ _ _ _ _ => cases member'

/-- In every run in which no block moves against its session, no session sends what another left
in `sinfo` unless it may, and nothing empty is resent, every session acts as it was opened.

Proof: an induction along the run shows that the last message of a session is of the kind of its
direction, or empty. A step then sends that, a new message of that kind, or what `sinfo` holds. -/
theorem roles_kept {p p' : Tracked} {e : Event} (initial : Initial p.server)
    (run : Runs.Reaches (trackedStep host) (Faithful host) p p') (faithful : Faithful host p' e) :
    KeepsRoles host p' e := by
  have start : LastMessages host.toVolume p := by
    refine ⟨initial.wellFormed, ?_⟩
    rw [initial.1]
    intro s impossible
    cases impossible
  exact (run.invariant (fun _ _ inv may => inv.step may) start).keepsRoles faithful

/-- A client that reads the file acknowledges its first block. -/
theorem roles_kept_sample :
    KeepsRoles smallHost trackedOpen (.datagram (arrival [1] (ackMsg 1) none)) := by
  have first : Faithful smallHost trackedStart
      (.datagram (arrival [1] (reqMsg opRrq [102] .octet) (some 5))) :=
    ⟨admissible_first rfl rfl (by decide), fun d c s _ _ found => by cases found⟩
  have second : Faithful smallHost trackedOpen (.datagram (arrival [1] (ackMsg 1) none)) := by
    have quiet : (Event.datagram (arrival [1] (ackMsg 1) none)).Quiet := rfl
    refine ⟨quiet.admissible _, ?_⟩
    intro d c s same named found
    cases same
    cases named
    have advances := found_all (fun s => decide
      (trackedOpen.server.move (arrival [1] (ackMsg 1) none) s = .advance)) (by decide +kernel) found
    have move := of_decide_eq_true advances
    have reads : (trackedOpen.usage ((arrival [1] (ackMsg 1) none).src, 2000)).opened = .reads := rfl
    rw [move, reads]
    exact ⟨id, fun _ _ => ⟨nofun, nofun⟩⟩
  exact roles_kept (startOn_initial _) ((Runs.Reaches.refl _).snoc first) second

/-- Every session of every run acts as it was opened. -/
def RolesKept (host : Host) : Prop :=
  ∀ p p' e, Initial p.server →
    Runs.Reaches (trackedStep host) (fun p e => Admissible p.server e) p p' →
    Admissible p'.server e → KeepsRoles host p' e

/-- The service on an empty disk, and a record that says nothing. -/
def trackedEmpty : Tracked where
  server := startOn fun _ => .absent
  usage := fun _ => { opened := .reads, mixed := true }

/-- A client asks to write a file. -/
def trackedRequest : Tracked :=
  trackedStep smallHost trackedEmpty (.datagram (arrival [1] (reqMsg opWrq [102] .octet) (some 5)))

/-- It sends its first block. -/
def trackedUpload : Tracked :=
  trackedStep smallHost trackedRequest
    (.datagram (arrival [1] (dataMsg 1 (List.replicate 512 1)) none))

/-- A client that writes a file acknowledges its own block and is sent DATA. -/
theorem roles_not_kept : ¬ RolesKept smallHost := by
  intro kept
  have quietBlock : (Event.datagram (arrival [1] (dataMsg 1 (List.replicate 512 1)) none)).Quiet := rfl
  have quietAck : (Event.datagram (arrival [1] (ackMsg 1) none)).Quiet := rfl
  have first : Admissible trackedEmpty.server
      (.datagram (arrival [1] (reqMsg opWrq [102] .octet) (some 5))) :=
    admissible_first rfl rfl (by decide)
  have run : Runs.Reaches (trackedStep smallHost) (fun p e => Admissible p.server e)
      trackedEmpty trackedUpload :=
    Runs.Reaches.snoc (Runs.Reaches.snoc (.refl _) first) (quietBlock.admissible trackedRequest.server)
  have acts := (kept _ trackedUpload _ (startOn_initial _) run (quietAck.admissible _)).1
  have usage : (trackUsage smallHost trackedUpload (.datagram (arrival [1] (ackMsg 1) none))
      ([1], 2000)).opened = .writes := by decide +kernel
  have sent : ¬ ∀ m ∈ outputs smallHost trackedUpload.server (.datagram (arrival [1] (ackMsg 1) none)),
      m.ses = some ([1], 2000) → 0 ≤ m.sock → Direction.writes.MayEmit (opcodeOf m.msg) := by
    decide +kernel
  exact sent fun m member ses socket => usage ▸ acts m member ([1], 2000) ses socket

end Iwtftpd
