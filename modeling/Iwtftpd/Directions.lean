import Iwtftpd.Traces

/-!
# Directions of transfer

A session does not record whether RRQ or WRQ opened it. Here a run carries that
record along: for every client the direction its session was opened in, and
whether a block ever moved against it. The record never influences the service;
it lets statements say which runs keep to one direction for each session. Two
things follow for such runs: each session sends only its kind of messages and
makes only its kind of calls, and no copy leaves the session buffer.
-/

namespace Iwtftpd

variable {host : Host} {vol : Volume}

/-- The direction of a transfer, as the request that opens it has it: RRQ reads, WRQ writes. -/
inductive Direction where
  | reads
  | writes
deriving DecidableEq

/-- What is remembered of a client's session. -/
structure Usage where
  opened : Direction
  mixed : Bool

/-- A block that moves against the direction of its session. -/
def Direction.Against : Direction → Session → Move → Prop
  | .reads, _, .store _ => True
  | .writes, ses, .advance => ses.fin = false
  | _, _, _ => False

instance (dir : Direction) (ses : Session) (move : Move) : Decidable (dir.Against ses move) := by
  cases dir <;> cases move <;> unfold Direction.Against <;> infer_instance

/-- What a request to open a session is remembered as. -/
def Usage.new (rbuf : Bytes) : Usage where
  opened := if ofBe16 rbuf = opRrq then .reads else .writes
  mixed := false

/-- What a block makes of the record. -/
def Usage.moved (u : Usage) (ses : Session) (move : Move) : Usage :=
  if u.opened.Against ses move then { u with mixed := true } else u

/-- The record of a client after a datagram of that client. -/
def usageAfter (st : Server) (d : Datagram) (c : Client) (u : Usage) : Usage :=
  match getSession st.seshead c with
  | some s => u.moved s (st.move d s)
  | none => .new (st.receive d).rbuf

/-- A state of the service with the record. -/
structure Tracked where
  server : Server
  usage : Client → Usage

/-- The record after a step. -/
def trackUsage (host : Host) (p : Tracked) : Event → Client → Usage
  | .datagram d =>
    match host.client d.src with
    | some c => Function.update p.usage c (usageAfter p.server d c (p.usage c))
    | none => p.usage
  | .tick _ => p.usage

/-- The step of the service with the records carried along. -/
def trackedStep (host : Host) (p : Tracked) (e : Event) : Tracked where
  server := step host p.server e
  usage := trackUsage host p e

/-! ## Properties of sessions along tracked runs -/

/-- A property of a session and its record that datagrams and ticks preserve holds of
every session after a step when it held before. -/
theorem trackedStep_sessions (good : Usage → Session → Prop) {p : Tracked} {e : Event}
    (inv : WellFormed host.toVolume p.server)
    (before : ∀ s ∈ p.server.seshead, good (p.usage s.key) s)
    (aged : ∀ u s s' now, good u s → Aged now s s' → good u s')
    (moved : ∀ d c s, e = .datagram d → host.client d.src = some c →
      getSession p.server.seshead c = some s → good (p.usage c) s →
      good ((p.usage c).moved s (p.server.move d s)) ((p.server.proc host d c).after s))
    (opened : ∀ d c s, e = .datagram d → host.client d.src = some c →
      getSession p.server.seshead c = none → (p.server.proc host d c).edit = .insert s →
      good (.new (p.server.receive d).rbuf) s) :
    ∀ s ∈ (trackedStep host p e).server.seshead, good ((trackedStep host p e).usage s.key) s := by
  intro s member
  cases e with
  | tick t =>
    obtain ⟨after, pairs, list⟩ := endIteration_seshead (t := t) inv
    have inAfter : s ∈ after := by
      have inList : s ∈ (endIteration p.server t).1.seshead := member
      rw [list] at inList
      exact (List.mem_filter.mp inList).1
    obtain ⟨old, oldMember, one⟩ := forall₂_mem pairs inAfter
    have key : s.key = old.key := key_of_ident one.ident
    rw [key]
    exact aged _ old s t.now (before old oldMember) one
  | datagram d =>
    cases named : host.client d.src with
    | none =>
      have same : (trackedStep host p (.datagram d)).usage = p.usage := by
        simp only [trackedStep, trackUsage, named]
      have list : (trackedStep host p (.datagram d)).server.seshead = p.server.seshead := by
        simp only [trackedStep, step, serve, recv_ignored named]
        rfl
      rw [same]
      exact before s (list ▸ member)
    | some c =>
      have usage : (trackedStep host p (.datagram d)).usage =
          Function.update p.usage c (usageAfter p.server d c (p.usage c)) := by
        simp only [trackedStep, trackUsage, named]
      have list : (trackedStep host p (.datagram d)).server.seshead =
          (p.server.proc host d c).edit.apply p.server.seshead := by
        simp only [trackedStep, step, serve, recv_eq named]
      rw [list] at member
      rw [usage]
      cases found : getSession p.server.seshead c with
      | some t =>
        have handled := proc_handled host d found
        have key := (key_of_ident handled.ident).trans (session_key found)
        rw [handled_apply found handled] at member
        rcases Keyed.mem_store_ne Session.key inv.clients member with rfl | ⟨old, apart⟩
        · rw [key, Function.update_self]
          simp only [usageAfter, found]
          apply moved d c t rfl named found
          have held := before t (session_mem found)
          rwa [session_key found] at held
        · rw [Function.update_of_ne (key ▸ apart)]
          exact before s old
      | none =>
        have new : ∀ t, (p.server.proc host d c).edit = .insert t → t.key = c →
            s ∈ t :: p.server.seshead →
            good (Function.update p.usage c (usageAfter p.server d c (p.usage c)) s.key) s := by
          intro t edit key inList
          rcases List.mem_cons.mp inList with rfl | old
          · rw [key, Function.update_self]
            simp only [usageAfter, found]
            exact opened d c s rfl named found edit
          · have apart : s.key ≠ c := (Keyed.lookup_none_iff Session.key).mp found s old
            rw [Function.update_of_ne apart]
            exact before s old
        cases proc_fresh host d found with
        | nothing edit _ _ =>
          rw [edit] at member
          have apart : s.key ≠ c := (Keyed.lookup_none_iff Session.key).mp found s member
          rw [Function.update_of_ne apart]
          exact before s member
        | socketless req _ edit _ _ _ =>
          rw [edit] at member
          exact new _ edit rfl member
        | linked req fd t linked =>
          rw [linked.edit] at member
          exact new t linked.edit (linked_key linked) member

/-! ## Buffers that move one way -/

/-- What is known of the buffer of a session that moved one way only. A reader that
failed to load may be left anywhere, but it sends nothing from its buffer again. -/
def Direction.Level : Direction → Session → Prop
  | .reads, ses => ses.fin = true ∨ ses.sesbuf.pos + ses.sesbuf.datalen ≤ sessionBufsize
  | .writes, ses => ses.sesbuf.pos = ses.sesbuf.datalen

/-- For a session that reads: what the buffer holds lies within it. -/
@[simp] theorem level_reads (ses : Session) : Direction.reads.Level ses ↔
    ses.fin = true ∨ ses.sesbuf.pos + ses.sesbuf.datalen ≤ sessionBufsize := Iff.rfl

/-- For a session that writes: the position is behind what the buffer holds. -/
@[simp] theorem level_writes (ses : Session) : Direction.writes.Level ses ↔
    ses.sesbuf.pos = ses.sesbuf.datalen := Iff.rfl

/-- The loop of `get_session_data` keeps what the buffer holds within it, by induction on the
fuel. A load sets the position back, and a pass moves it by what it takes. -/
theorem getLoop_level (vol : Volume) (fuel : Nat) (ses : Session) (ds : IWDS) (room : Nat) (out : Bytes)
    (fits : ses.sesbuf.Fits) (level : ses.sesbuf.pos + ses.sesbuf.datalen ≤ sessionBufsize)
    (done : (getLoop vol fuel ses ds room out).status = .done) :
    (getLoop vol fuel ses ds room out).ses.sesbuf.pos +
      (getLoop vol fuel ses ds room out).ses.sesbuf.datalen ≤ sessionBufsize := by
  induction fuel generalizing ses ds room out with
  | zero => cases done
  | succ fuel inductionHypothesis =>
    have fits' := refill_fits vol ds fits
    cases refilled : refill vol ses ds with
    | mk kind rest =>
      obtain ⟨ses', ds'⟩ := rest
      rw [refilled] at fits'
      cases kind with
      | failed =>
        rw [getLoop_failed refilled] at done
        cases done
      | eof =>
        obtain ⟨start, empty⟩ := refill_eof refilled
        simp only [getLoop_eof refilled, start, empty]
        omega
      | ready =>
        have level' : ses'.sesbuf.pos + ses'.sesbuf.datalen ≤ sessionBufsize := by
          rcases refill_ready refilled with ⟨rfl, _⟩ | start
          · exact level
          · have short : ses'.sesbuf.datalen ≤ sessionBufsize := fits'.short
            omega
        obtain ⟨sum, _⟩ := takePiece_moves ses' ds' room
        have fits'' := takePiece_fits ds' room fits'
        rw [getLoop_ready refilled] at done ⊢
        split at done
        · rename_i more
          rw [if_pos more]
          exact inductionHypothesis _ _ _ _ fits'' (by omega) done
        · rename_i full
          rw [if_neg full]
          dsimp only
          omega

/-- So does the encoder of DATA when it makes a block. -/
theorem makeTftpdataMsg_level {ses : Session} {ds : IWDS} {bufsize : Nat} {now : Int}
    (fits : ses.sesbuf.Fits) (level : ses.sesbuf.pos + ses.sesbuf.datalen ≤ sessionBufsize)
    {msg : Bytes} (made : (makeTftpdataMsg vol ses ds bufsize now).1 = some msg) :
    (makeTftpdataMsg vol ses ds bufsize now).2.1.sesbuf.pos +
      (makeTftpdataMsg vol ses ds bufsize now).2.1.sesbuf.datalen ≤ sessionBufsize := by
  have leveled := getLoop_level vol (tftpDatalenMax + 1)
    { ses with blknum := nextBlk ses.blknum } ds tftpDatalenMax [] fits level
  unfold makeTftpdataMsg at made ⊢
  split at made
  · cases made
  · rename_i room
    rw [if_neg room]
    dsimp only at made ⊢
    generalize run : getSessionData vol { ses with blknum := nextBlk ses.blknum } ds tftpDatalenMax = r
      at made ⊢
    have run' : getLoop vol (tftpDatalenMax + 1) { ses with blknum := nextBlk ses.blknum } ds
      tftpDatalenMax [] = r := run
    rw [run'] at leveled
    cases status : r.status with
    | done =>
      have same := (finIfShort_steps vol r.ses r.ds r.out).2
      simp only [same]
      exact leveled status
    | err | running =>
      rw [status] at made
      cases made

/-- The loop of `put_session_data` keeps the position behind what the buffer holds, by induction
on the fuel. -/
theorem putLoop_level (fuel : Nat) (ses : Session) (ds : IWDS) (data : Bytes)
    (level : ses.sesbuf.pos = ses.sesbuf.datalen) :
    (putLoop vol fuel ses ds data).ses.sesbuf.pos =
      (putLoop vol fuel ses ds data).ses.sesbuf.datalen := by
  induction fuel generalizing ses ds data with
  | zero => exact level
  | succ fuel inductionHypothesis =>
    obtain ⟨n, _, _, _, pos, datalen, _⟩ := putPiece_moves ses ds data
    rw [putLoop]
    generalize putPiece ses ds data = result at pos datalen ⊢
    obtain ⟨len, ses', ds'⟩ := result
    dsimp only at pos datalen ⊢
    have level' : ses'.sesbuf.pos = ses'.sesbuf.datalen := by omega
    have flushed := flush_level vol ds' level'
    generalize flush vol ses' ds' = result at flushed ⊢
    obtain ⟨_ | _, ses'', ds''⟩ := result
    · exact flushed
    · dsimp only at flushed ⊢
      split
      · exact inductionHypothesis ses'' ds'' _ flushed
      · exact flushed

/-- So does `put_session_data`. -/
theorem putSessionData_level {ses : Session} {ds : IWDS} {data : Bytes}
    (level : ses.sesbuf.pos = ses.sesbuf.datalen) :
    (putSessionData vol ses ds data).ses.sesbuf.pos =
      (putSessionData vol ses ds data).ses.sesbuf.datalen := by
  unfold putSessionData
  split
  · exact level
  · exact putLoop_level _ ses ds data level

/-- A move that is not against the direction keeps the buffer level. -/
theorem level_run {dir : Direction} {ses : Session} {ds : IWDS} {dlen : Nat} {now : Int}
    {move : Move} (along : ¬ dir.Against ses move) (fits : ses.sesbuf.Fits)
    (level : dir.Level ses) : dir.Level ((move.run vol ses ds dlen now).after ses) := by
  have steady (still : move.Still ses) (fin : ses.fin = true →
      ((move.run vol ses ds dlen now).after ses).fin = true) :
      dir.Level ((move.run vol ses ds dlen now).after ses) := by
    have buffer := (run_still vol ds dlen now still).1
    cases dir with
    | reads =>
      rw [level_reads] at level ⊢
      rw [buffer]
      exact level.imp fin id
    | writes => rwa [level_writes, buffer]
  have fin := (run_handled vol ses ds dlen now move).fin
  cases move with
  | resend | refuse | abort | pass => exact steady trivial fin
  | store dat =>
    cases dir with
    | reads => exact absurd trivial along
    | writes =>
      obtain ⟨buffer, _⟩ := storeBlock_cases vol ses ds dat dlen now
      rw [level_writes] at level ⊢
      show ((storeBlock vol ses ds dat dlen now).after ses).sesbuf.pos =
        ((storeBlock vol ses ds dat dlen now).after ses).sesbuf.datalen
      rw [buffer]
      exact putSessionData_level level
  | advance =>
    cases running : ses.fin with
    | true => exact steady running fin
    | false =>
      cases dir with
      | writes => exact absurd running along
      | reads =>
        have level' : ses.sesbuf.pos + ses.sesbuf.datalen ≤ sessionBufsize := by
          simpa [running] using level
        rcases nextData_cases vol ds now running with
          ⟨msg, made, _, after, _⟩ | ⟨_, _, after, _⟩
        · refine .inr ?_
          show ((nextData vol ses ds now).after ses).sesbuf.pos +
            ((nextData vol ses ds now).after ses).sesbuf.datalen ≤ sessionBufsize
          rw [after]
          exact makeTftpdataMsg_level fits level' made
        · refine .inl ?_
          show ((nextData vol ses ds now).after ses).fin = true
          rw [after]

/-- What a new session is remembered as. -/
theorem usage_reader {rbuf : Bytes} (rrq : ofBe16 rbuf = opRrq) :
    (Usage.new rbuf).opened = .reads := if_pos rrq

/-- A session that a WRQ opens writes. -/
theorem usage_writer {rbuf : Bytes} (wrq : ofBe16 rbuf = opWrq) :
    (Usage.new rbuf).opened = .writes := by
  have other : ¬ opWrq = opRrq := by decide
  simp only [Usage.new, wrq, other, if_false]

/-- The buffer of a new session is level. -/
theorem level_opened {ds : IWDS} {rbuf : Bytes} {dlen : Nat} {client : Client} {now : Int}
    {newsock : Option Int} {p : Proc} {s : Session}
    (opening : Opening vol ds rbuf dlen client now newsock p) (edit : p.edit = .insert s) :
    (Usage.new rbuf).opened.Level s := by
  have start (req : TftpReq) (fd : Int) (dir : Direction) :
      dir.Level (newSession client req fd) := by
    cases dir
    · exact .inr (Nat.zero_le _)
    · rfl
  cases opening with
  | nothing keep _ _ =>
    rw [keep] at edit
    cases edit
  | socketless req _ _ =>
    cases edit
    exact start req (-1) _
  | reader req fd _ _ _ rrq _ =>
    cases edit
    rw [usage_reader rrq]
    unfold startReader
    dsimp only
    split
    · exact .inl rfl
    · rename_i made
      obtain ⟨msg, some⟩ := Option.ne_none_iff_exists'.mp made
      exact .inr (makeTftpdataMsg_level (newSession_fits client req fd) (Nat.zero_le _) some)
  | writer req fd _ _ wrq _ =>
    cases edit
    rw [usage_writer wrq]
    exact start req fd .writes

/-! ## No copy leaves the buffer -/

/-- A level buffer has room for every block that moves along. -/
theorem level_room {dir : Direction} {ses : Session} {move : Move}
    (along : ¬ dir.Against ses move) (fits : ses.sesbuf.Fits) (level : dir.Level ses) :
    ses.RoomFor move := by
  have short := fits.short
  cases move with
  | resend | refuse | abort | pass => trivial
  | store dat =>
    cases dir with
    | reads => exact absurd trivial along
    | writes =>
      rw [level_writes] at level
      show _ + _ ≤ _
      omega
  | advance =>
    cases dir with
    | reads =>
      rcases level with fin | inside
      · exact .inl fin
      · refine .inr (.inr ?_)
        omega
    | writes =>
      left
      simpa [Direction.Against] using along

/-- Every block moves along the direction of a session that never did otherwise, or
finds room where the buffer stands. -/
def Roomy (host : Host) (p : Tracked) (e : Event) : Prop :=
  Admissible p.server e ∧ ∀ d c s, e = .datagram d → host.client d.src = some c →
    getSession p.server.seshead c = some s →
    ((p.usage c).mixed = false ∧ ¬ (p.usage c).opened.Against s (p.server.move d s)) ∨
      s.RoomFor (p.server.move d s)

/-- Sessions that never moved against their direction have level buffers. -/
structure LevelSessions (vol : Volume) (p : Tracked) : Prop where
  wellFormed : WellFormed vol p.server
  level : ∀ s ∈ p.server.seshead,
    (p.usage s.key).mixed = true ∨ (p.usage s.key).opened.Level s

/-- A step keeps every session level that has kept to its direction.

Proof: a session that is moved against its direction is recorded as such, and nothing is claimed
of it from there on; a move along keeps it level by the lemmas on the two loops. -/
theorem LevelSessions.step {p : Tracked} {e : Event} (inv : LevelSessions host.toVolume p)
    (admissible : Admissible p.server e) : LevelSessions host.toVolume (trackedStep host p e) := by
  refine ⟨inv.wellFormed.step admissible, ?_⟩
  refine trackedStep_sessions (fun u s => u.mixed = true ∨ u.opened.Level s)
    inv.wellFormed inv.level ?_ ?_ ?_
  · rintro u s s' now held aged
    apply held.imp id
    intro level
    cases dir : u.opened with
    | reads =>
      rw [dir, level_reads] at level
      rw [level_reads, aged.fin, aged.sesbuf]
      exact level
    | writes =>
      rw [dir, level_writes] at level
      rw [level_writes, aged.sesbuf]
      exact level
  · intro d c s _ _ found held
    rw [proc_move found]
    unfold Usage.moved
    split
    · exact .inl rfl
    · rename_i along
      apply held.imp id
      intro level
      exact level_run along (inv.wellFormed.buffers s (session_mem found)) level
  · intro d c s _ _ found edit
    exact .inr (level_opened (proc_opening host d found) edit)

/-- In every run whose blocks move along the directions of their sessions, or find room, every
copy of every step touches the session buffer only.

Proof: as long as a session has moved along its direction, position and length are level in an
upload, and in a download the position has room for what the buffer holds; an induction over the
run carries this. A step that meets the condition copies within the room there is. -/
theorem copies_inside {p p' : Tracked} {e : Event} (initial : Initial p.server)
    (run : Runs.Reaches (trackedStep host) (Roomy host) p p') (roomy : Roomy host p' e) :
    ∀ x ∈ (step host p'.server e).ads.trace, x.Inside := by
  have start : LevelSessions host.toVolume p := by
    refine ⟨initial.wellFormed, ?_⟩
    rw [initial.1]
    intro s impossible
    cases impossible
  have inv : LevelSessions host.toVolume p' :=
    run.invariant (fun _ _ inv may => inv.step may.1) start
  intro x member
  refine step_inside inv.wellFormed ?_ member
  intro d c s isDatagram named found
  rcases roomy.2 d c s isDatagram named found with ⟨pure, along⟩ | room
  · have held := inv.level s (session_mem found)
    rw [session_key found, pure] at held
    have level := held.resolve_left (by simp)
    exact level_room along (inv.wellFormed.buffers s (session_mem found)) level
  · exact room

/-- What holds of the session found, decided on the search itself. -/
theorem found_all (good : Session → Bool) {head : List Session} {c : Client} {s : Session}
    (all : (getSession head c).all good = true) (found : getSession head c = some s) :
    good s = true := by
  rwa [found] at all

/-- The service on a disk with one file, and a record that says nothing. -/
def trackedStart : Tracked where
  server := startOn (diskWith [102] (List.replicate 600 1))
  usage := fun _ => { opened := .writes, mixed := true }

/-- A client asks for the file. -/
def trackedOpen : Tracked :=
  trackedStep smallHost trackedStart
    (.datagram (arrival [1] (reqMsg opRrq [102] .octet) (some 5)))

/-- A client that reads the file acknowledges its first block. -/
theorem copies_inside_sample :
    (step smallHost trackedOpen.server (.datagram (arrival [1] (ackMsg 1) none))).ads.trace ≠ [] ∧
      ∀ x ∈ (step smallHost trackedOpen.server
        (.datagram (arrival [1] (ackMsg 1) none))).ads.trace, x.Inside := by
  have first : Roomy smallHost trackedStart
      (.datagram (arrival [1] (reqMsg opRrq [102] .octet) (some 5))) :=
    ⟨admissible_first rfl rfl (by decide), fun d c s _ _ found => by cases found⟩
  have second : Roomy smallHost trackedOpen (.datagram (arrival [1] (ackMsg 1) none)) := by
    have quiet : (Event.datagram (arrival [1] (ackMsg 1) none)).Quiet := rfl
    refine ⟨quiet.admissible _, ?_⟩
    intro d c s same named found
    cases same
    cases named
    have along := found_all (fun s => decide (¬ Direction.reads.Against s
      (trackedOpen.server.move (arrival [1] (ackMsg 1) none) s))) (by decide +kernel) found
    exact .inl ⟨rfl, of_decide_eq_true along⟩
  constructor
  · decide +kernel
  · exact copies_inside (startOn_initial _) ((Runs.Reaches.refl _).snoc first) second

/-- Every copy of every step of every run touches the session buffer only. -/
def CopiesInside (host : Host) : Prop :=
  ∀ st e, Reachable host st → Admissible st e → ∀ x ∈ (step host st e).ads.trace, x.Inside

/-- The requests and blocks of a client that reads two blocks of a file and then sends
blocks of its own. -/
def readThenWrite : List Event :=
  .datagram (arrival [1] (ackMsg 1) none) ::
    (List.range 14).map fun k =>
      .datagram (arrival [1] (dataMsg (UInt16.ofNat (k + 3)) (List.replicate 512 1)) none)

/-- DATA on a session opened by RRQ goes in where reading has got to: after two blocks
read, the fifteenth lands behind the buffer. -/
theorem copies_not_inside : ¬ CopiesInside smallHost := by
  intro inside
  let file : Bytes := [102]
  have opened := (startOn_reachable smallHost (diskWith file (List.replicate 1024 1))).step
    (e := .datagram (arrival [1] (reqMsg opRrq file .octet) (some 5)))
    (admissible_first rfl rfl (by decide))
  have reached := opened.exec readThenWrite (by
    intro e member
    rcases List.mem_cons.mp member with rfl | block
    · rfl
    · obtain ⟨k, _, rfl⟩ := List.mem_map.mp block
      rfl)
  have quiet : (Event.datagram (arrival [1] (dataMsg 17 (List.replicate 512 1)) none)).Quiet := rfl
  have outside := inside _ _ reached (quiet.admissible _) (.copyIn 8192 512) (by decide +kernel)
  exact absurd (outside 8192 (by decide) (by decide)) (by decide)

end Iwtftpd
