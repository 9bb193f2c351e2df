import Iwtftpd.Isolation
import Iwtftpd.Timer

/-!
# Retries

The last message of a session is taken for retransmission by the label `resend`
and by the timer, and both count in `retrycount`; an encoder that makes a new
last message resets it. Beside the server a second count is kept here, of what
is seen from outside: the messages taken and the messages made. The two agree
along every run. With the retries used up, either path disables the session and
closes its datastore session, and nothing is ever sent for it again.
-/

namespace Iwtftpd

variable {host : Host}

/-- The server, with the number of times the last message of each client's session was taken
for retransmission since it was made. -/
structure Counted where
  server : Server
  taken : Client → Nat

/-- `sinfo` was filled with DATA or ACK. -/
def Built (fill : Option Bytes) : Bool :=
  fill.any fun msg => opcodeOf msg = opData || opcodeOf msg = opAck

/-- The count after a move that leaves the given message in `sinfo`. -/
def Move.recount (fill : Option Bytes) (n : Nat) : Move → Nat
  | .resend => if fill.isSome then n + 1 else n
  | .store _ | .advance => if Built fill then 0 else n
  | _ => n

/-- The count of a client after a datagram of its own: a new session starts without any. -/
def recountOwn (host : Host) (st : Server) (d : Datagram) (c : Client) (n : Nat) : Nat :=
  match getSession st.seshead c with
  | some s => (st.move d s).recount (st.proc host d c).fill n
  | none => 0

/-- The number of messages sent again, client by client, after an event. -/
def recount (host : Host) (p : Counted) : Event → Client → Nat
  | .datagram d =>
    match host.client d.src with
    | some c => Function.update p.taken c (recountOwn host p.server d c (p.taken c))
    | none => p.taken
  | .tick t => fun c =>
    p.taken c + ((endIteration p.server t).2.map Sent.ses).count (some c)

/-- The step of the service with the count carried along. -/
def countedStep (host : Host) (p : Counted) (e : Event) : Counted where
  server := step host p.server e
  taken := recount host p e

/-! ## One datagram -/

/-- The buffer is not where retries are counted. -/
theorem OnlyBuffer.retrycount {s t : Session} (only : OnlyBuffer s t) :
    t.retrycount = s.retrycount := by rw [only]

/-- An ERROR starts no new block. -/
theorem built_errorMsg (ecode : TftpErrorcode) (emsg : Bytes) :
    Built (some (errorMsg ecode emsg)) = false := by
  rw [Built, Option.any_some, opcodeOf_errorMsg]
  rfl

/-- An ACK does. -/
theorem built_ackMsg (blk : UInt16) : Built (some (ackMsg blk)) = true := by
  rw [Built, Option.any_some, opcodeOf_ackMsg]
  rfl

/-- What is sent again is counted, and the count stays within its limit. -/
theorem resend_retries (ses : Session) (ds : IWDS) (now : Int) :
    ((resend ses ds now).after ses).retrycount =
        Move.resend.recount (resend ses ds now).fill ses.retrycount ∧
      (ses.retrycount ≤ resendCountmax →
        ((resend ses ds now).after ses).retrycount ≤ resendCountmax) := by
  rw [resend]
  split
  · rename_i left
    exact ⟨rfl, fun _ => left⟩
  · exact ⟨rfl, id⟩

/-- A block that is stored takes the count back to zero, and one that is refused leaves it. -/
theorem storeBlock_retries (vol : Volume) (ses : Session) (ds : IWDS) (dat : TftpData) (dlen : Nat) (now : Int) :
    ((storeBlock vol ses ds dat dlen now).after ses).retrycount =
      (Move.store dat).recount (storeBlock vol ses ds dat dlen now).fill ses.retrycount := by
  have only := (putSessionData_steps vol (ses.noticed dlen) ds dat.data).2.1
  rw [storeBlock_eq]
  dsimp only
  split
  · rw [Move.recount, built_ackMsg]
    rfl
  · rw [Move.recount, built_errorMsg]
    exact only.retrycount

/-- So does the next DATA when it is made. -/
theorem nextData_retries (vol : Volume) (ses : Session) (ds : IWDS) (now : Int) :
    ((nextData vol ses ds now).after ses).retrycount =
      Move.advance.recount (nextData vol ses ds now).fill ses.retrycount := by
  cases fin : ses.fin with
  | true =>
    rw [nextData, if_pos fin]
    rfl
  | false =>
    obtain ⟨msg, made, fill, after, _⟩ | ⟨failed, fill, after, _⟩ := nextData_cases vol ds now fin
    · obtain ⟨opcode, _, zero⟩ := makeTftpdataMsg_made made
      have built : Built (some msg) = true := by
        rw [Built, Option.any_some, opcode]
        rfl
      rw [fill, after, zero, Move.recount, built]
      rfl
    · rw [fill, after, Move.recount, built_errorMsg, makeTftpdataMsg_none failed]
      rfl

/-- The counter of a session follows the moves. -/
theorem run_retries (vol : Volume) (ses : Session) (ds : IWDS) (dlen : Nat) (now : Int) (move : Move) :
    ((move.run vol ses ds dlen now).after ses).retrycount =
        move.recount (move.run vol ses ds dlen now).fill ses.retrycount ∧
      (ses.retrycount ≤ resendCountmax →
        ((move.run vol ses ds dlen now).after ses).retrycount ≤ resendCountmax) := by
  -- A count that is kept or reset stays within the bound.
  have bounded {n : Nat} {fill : Option Bytes} (count : n = if Built fill then 0 else ses.retrycount)
      (bound : ses.retrycount ≤ resendCountmax) : n ≤ resendCountmax := by
    rw [count]
    split
    · exact Nat.zero_le _
    · exact bound
  cases move with
  | resend => exact resend_retries ses ds now
  | refuse =>
    rw [Move.run, errsend_eq .update ses ds .illegalOpe empty_short]
    exact ⟨rfl, id⟩
  | store dat =>
    have count := storeBlock_retries vol ses ds dat dlen now
    exact ⟨count, bounded count⟩
  | advance =>
    have count := nextData_retries vol ses ds now
    exact ⟨count, bounded count⟩
  | abort => exact ⟨rfl, id⟩
  | pass => exact ⟨rfl, id⟩

/-- A session that is opened has no retries yet. -/
theorem opened_retries {st : Server} {d : Datagram} {c : Client} {s : Session}
    (found : getSession st.seshead c = none) (edit : (st.proc host d c).edit = .insert s) :
    s.retrycount = 0 := by
  have opening := proc_opening host d found
  generalize st.proc host d c = p at opening edit
  cases opening with
  | nothing keep =>
    rw [keep] at edit
    cases edit
  | socketless req =>
    obtain rfl := Edit.insert.inj edit
    rfl
  | reader req fd =>
    obtain rfl := Edit.insert.inj edit
    rw [startReader]
    dsimp only
    split
    · rename_i failed
      rw [makeTftpdataMsg_none failed]
      rfl
    · rename_i made
      obtain ⟨msg, some⟩ := Option.ne_none_iff_exists'.mp made
      exact (makeTftpdataMsg_made some).2.2
  | writer req fd =>
    obtain rfl := Edit.insert.inj edit
    rfl

/-! ## One tick -/

/-- The timer takes the last message of a client's session once when it is due. -/
theorem taken_tick {st : Server} (t : Tick) {s : Session}
    (distinct : (st.seshead.map Session.key).Nodup) (member : s ∈ st.seshead) :
    ((endIteration st t).2.map Sent.ses).count (some s.key) = if s.Due t then 1 else 0 := by
  have sent := (resendAllsession_map t st.seshead { st.ads with faults := t.faults, trace := [] }
    t.addr sockaddrStorage).2
  have names : (endIteration st t).2.map Sent.ses =
      (st.seshead.filter fun s => s.Due t).map fun s => some s.key := by
    have firsts := congrArg (List.map Prod.fst) sent
    rw [List.map_map, List.map_map] at firsts
    exact firsts
  have once : ((st.seshead.filter fun s => s.Due t).map fun s => some s.key).Nodup := by
    have fewer := distinct.sublist (List.filter_sublist (p := fun s => s.Due t).map Session.key)
    have wrapped := fewer.map fun _ _ same => Option.some.inj same
    rwa [List.map_map] at wrapped
  rw [names, once.count]
  refine if_congr ?_ rfl rfl
  constructor
  · intro listed
    obtain ⟨r, inDue, key⟩ := List.mem_map.mp listed
    obtain ⟨old, due⟩ := List.mem_filter.mp inDue
    have same : r = s := List.inj_on_of_nodup_map distinct old member (Option.some.inj key)
    rw [← same]
    exact of_decide_eq_true due
  · intro due
    exact List.mem_map.mpr ⟨s, List.mem_filter.mpr ⟨member, decide_eq_true due⟩, rfl⟩

/-- The timer counts what it sends again. -/
theorem timed_retries (t : Tick) (s : Session) :
    (s.timed t).retrycount = s.retrycount + (if s.Due t then 1 else 0) ∧
      (s.retrycount ≤ resendCountmax → (s.timed t).retrycount ≤ resendCountmax) := by
  rw [Session.timed]
  split
  · rename_i due
    exact ⟨rfl, fun _ => due.2.2.1⟩
  · split <;> exact ⟨rfl, id⟩

/-! ## The count -/

/-- The counter of every session is the count of its client. -/
structure CountsKept (vol : Volume) (p : Counted) : Prop where
  wellFormed : WellFormed vol p.server
  counts : ∀ c s, getSession p.server.seshead c = some s →
    s.retrycount = p.taken c ∧ s.retrycount ≤ resendCountmax

/-- A step keeps the session's count and the run's the same. -/
theorem CountsKept.step {p : Counted} {e : Event} (kept : CountsKept host.toVolume p)
    (admissible : Admissible p.server e) : CountsKept host.toVolume (countedStep host p e) := by
  obtain ⟨inv, counts⟩ := kept
  refine ⟨inv.step admissible, ?_⟩
  intro c s' found'
  cases e with
  | tick t =>
    have found' : getSession (endIteration p.server t).1.seshead c = some s' := found'
    rw [getSession_rounds t c inv] at found'
    obtain ⟨s, found, round⟩ := Option.bind_eq_some_iff.mp found'
    rw [round_some round]
    obtain ⟨count, bound⟩ := counts c s found
    obtain ⟨timed, bounded⟩ := timed_retries t s
    refine ⟨?_, bounded bound⟩
    show _ = p.taken c + _
    rw [timed, count, ← session_key found, taken_tick t inv.clients (session_mem found)]
  | datagram d =>
    cases named : host.client d.src with
    | none =>
      have same : recount host p (.datagram d) = p.taken := by simp only [recount, named]
      have found : getSession p.server.seshead c = some s' := by
        have found' : getSession (recv host p.server d).1.seshead c = some s' := found'
        rw [recv_ignored named] at found'
        exact found'
      show _ = recount host p (.datagram d) c ∧ _
      rw [same]
      exact counts c s' found
    | some x =>
      have found' : getSession (recv host p.server d).1.seshead c = some s' := found'
      have count : (countedStep host p (.datagram d)).taken =
          Function.update p.taken x (recountOwn host p.server d x (p.taken x)) := by
        simp only [countedStep, recount, named]
      rw [count]
      by_cases own : c = x
      · subst own
        rw [Function.update_self, recountOwn]
        cases found : getSession p.server.seshead c with
        | some s =>
          rw [getSession_recv named found] at found'
          obtain rfl := Option.some.inj found'
          obtain ⟨before, bound⟩ := counts c s found
          rw [proc_move found, ← before]
          obtain ⟨moved, bounded⟩ := run_retries host.toVolume s (p.server.receive d).ads d.len
            d.now (p.server.move d s)
          exact ⟨moved, bounded bound⟩
        | none =>
          have zero := opened_retries found (edit_of_opened named found found')
          exact ⟨zero, by rw [zero]; exact Nat.zero_le _⟩
      · rw [Function.update_of_ne own]
        exact counts c s' ((getSession_recv_other named own).symm.trans found')

/-- So they are for every session of the list. -/
theorem CountsKept.member {vol : Volume} {p : Counted} (kept : CountsKept vol p) {s : Session}
    (member : s ∈ p.server.seshead) :
    s.retrycount = p.taken s.key ∧ s.retrycount ≤ resendCountmax :=
  kept.counts s.key s (Keyed.lookup_of_mem Session.key kept.wellFormed.clients member)

/-! ## Giving up -/

/-- A duplicate datagram of the client, or the timer on a session that is not finished: what
has the last message sent again while there are retries left. -/
def Triggers (host : Host) (st : Server) (s : Session) : Event → Prop
  | .datagram d => host.client d.src = some s.key ∧ st.move d s = .resend
  | .tick t => resendInterval < difftime t.now s.lastsending ∧ s.Active

/-- The step disables the session, before a tick cleans it up. -/
def Disables (host : Host) (st : Server) (s : Session) : Event → Prop
  | .datagram d =>
    getSession (recv host st d).1.seshead s.key = some { s with disabled := true }
  | .tick t => { s with disabled := true } ∈
      (resendAllsession t st.seshead { st.ads with faults := t.faults, trace := [] }
        t.addr sockaddrStorage).seshead

/-- The step disables the session, closes its datastore session and sends nothing for it. -/
structure GivenUp (host : Host) (st : Server) (s : Session) (e : Event) : Prop where
  disabled : Disables host st s e
  closed : (step host st e).ads.at s.dkey = none
  unsent : ∀ m ∈ outputs host st e, m.ses ≠ some s.key

/-- With the retries used up the session is disabled, and nothing is sent. -/
theorem resend_spent {ses : Session} (ds : IWDS) (now : Int) (spent : ses.retrycount = resendCountmax) :
    resend ses ds now =
      { edit := .update { ses with disabled := true }, ses := some { ses with disabled := true }
        fill := none, ok := true, ds := closeData { ses with disabled := true } ds } := by
  rw [resend, if_neg (by omega)]

/-- The timer sends nothing for a session that is not due. -/
theorem unsent_tick {st : Server} (t : Tick) {s : Session}
    (distinct : (st.seshead.map Session.key).Nodup) (member : s ∈ st.seshead) (idle : ¬ s.Due t) :
    ∀ m ∈ (endIteration st t).2, m.ses ≠ some s.key := by
  intro m sent ses
  have none := taken_tick t distinct member
  rw [if_neg idle, List.count_eq_zero] at none
  exact none (List.mem_map.mpr ⟨m, sent, ses⟩)

/-- With the retries used up, a trigger gives the session up. -/
theorem givenUp_of_spent {st : Server} {s : Session} {e : Event}
    (inv : WellFormed host.toVolume st) (member : s ∈ st.seshead)
    (spent : s.retrycount = resendCountmax) (triggers : Triggers host st s e) :
    GivenUp host st s e := by
  have found : getSession st.seshead s.key = some s :=
    Keyed.lookup_of_mem Session.key inv.clients member
  cases e with
  | tick t =>
    obtain ⟨late, active⟩ := triggers
    have gone : s.exhausted t.now := ⟨late, active.1, active.2, by omega⟩
    have idle : ¬ s.Due t := fun due => absurd due.2.2.1 (by omega)
    obtain ⟨list, _⟩ := resendAllsession_map t st.seshead
      { st.ads with faults := t.faults, trace := [] } t.addr sockaddrStorage
    obtain ⟨_, _, _, _, closed, _⟩ := resendAllsession_steps t st.seshead
      { st.ads with faults := t.faults, trace := [] } t.addr sockaddrStorage
    refine ⟨?_, closed inv.ads.distinct s member gone, unsent_tick t inv.clients member idle⟩
    show { s with disabled := true } ∈ (resendAllsession t st.seshead
      { st.ads with faults := t.faults, trace := [] } t.addr sockaddrStorage).seshead
    rw [list]
    exact List.mem_map.mpr ⟨s, member, by rw [Session.timed, if_neg idle, if_pos gone]⟩
  | datagram d =>
    obtain ⟨named, move⟩ := triggers
    have call : st.proc host d s.key = _ :=
      (proc_move found).trans ((congrArg _ move).trans (resend_spent (st.receive d).ads d.now spent))
    refine ⟨?_, ?_, ?_⟩
    · show getSession (recv host st d).1.seshead s.key = _
      rw [getSession_recv named found, call]
      rfl
    · show (recv host st d).1.ads.at s.dkey = none
      rw [recv_eq named, call]
      exact closeData_closed { s with disabled := true } inv.ads.distinct
    · intro m sent
      have sent : m ∈ (recv host st d).2 := sent
      rw [recv_eq named, call] at sent
      cases sent

/-! ## Disabled sessions -/

/-- A disabled session has nothing sent, and it stays disabled as long as it is there. -/
theorem disabled_step {st : Server} {e : Event} {c : Client} {s : Session}
    (inv : WellFormed host.toVolume st) (found : getSession st.seshead c = some s)
    (disabled : s.disabled = true) :
    (∀ m ∈ outputs host st e, m.ses ≠ some c) ∧
      ∀ s', getSession (step host st e).seshead c = some s' → s'.disabled = true := by
  have key := session_key found
  cases e with
  | tick t =>
    have idle : ¬ s.Due t := by
      intro due
      rw [due.2.1.2] at disabled
      cases disabled
    constructor
    · rw [← key]
      exact unsent_tick t inv.clients (session_mem found) idle
    · intro s' found'
      obtain ⟨r, old, aged, _⟩ := getSession_tick inv found'
      obtain rfl : s = r := Option.some.inj (found.symm.trans old)
      exact aged.disabled disabled
  | datagram d =>
    cases named : host.client d.src with
    | none =>
      rw [outputs, step, serve, recv_ignored named]
      refine ⟨(by rintro _ ⟨⟩), fun s' found' => ?_⟩
      obtain rfl : s = s' := Option.some.inj (found.symm.trans found')
      exact disabled
    | some x =>
      by_cases own : c = x
      · subst own
        have handled := proc_handled host d found
        constructor
        · intro m sent ses
          have sent : m ∈ (recv host st d).2 := sent
          rw [recv_eq named] at sent
          obtain ⟨_, s', pointer, enabled, _⟩ := replyOf_session sent ses
          obtain rfl := Option.some.inj (handled.pointer.symm.trans pointer)
          rw [handled.disabled disabled] at enabled
          cases enabled
        · intro s' found'
          obtain rfl := Option.some.inj ((getSession_recv named found).symm.trans found')
          exact handled.disabled disabled
      · refine ⟨fun m sent => replyOf_other named own sent, fun s' found' => ?_⟩
        have same : getSession st.seshead c = some s' :=
          (getSession_recv_other named own).symm.trans found'
        obtain rfl := Option.some.inj (found.symm.trans same)
        exact disabled

/-- The client's session is still there after the step. -/
def Lasting (host : Host) (c : Client) (st : Server) (e : Event) : Prop :=
  Admissible st e ∧ getSession (step host st e).seshead c ≠ none

/-- From here on, as long as the session is there, it is disabled and has nothing sent. -/
def Silenced (host : Host) (st : Server) (c : Client) : Prop :=
  ∀ st', Runs.Reaches (step host) (Lasting host c) st st' →
    (∀ s', getSession st'.seshead c = some s' → s'.disabled = true) ∧
      ∀ e, Admissible st' e → ∀ m ∈ outputs host st' e, m.ses ≠ some c

/-- For a disabled session nothing is sent. -/
theorem silenced_of_disabled {st : Server} {c : Client} {s : Session}
    (inv : WellFormed host.toVolume st) (found : getSession st.seshead c = some s)
    (disabled : s.disabled = true) : Silenced host st c := by
  intro st' run
  let Dead : Server → Prop := fun x => WellFormed host.toVolume x ∧
    ∃ r, getSession x.seshead c = some r ∧ r.disabled = true
  have preserved (x : Server) (e : Event) (dead : Dead x) (lasting : Lasting host c x e) :
      Dead (step host x e) := by
    obtain ⟨inv, r, found, disabled⟩ := dead
    obtain ⟨r', found'⟩ := Option.ne_none_iff_exists'.mp lasting.2
    exact ⟨inv.step lasting.1, r', found', (disabled_step inv found disabled).2 r' found'⟩
  obtain ⟨inv', r, found', disabled'⟩ : Dead st' := run.invariant preserved ⟨inv, s, found, disabled⟩
  refine ⟨fun s' same => ?_, fun e _ => (disabled_step inv' found' disabled').1⟩
  obtain rfl := Option.some.inj (found'.symm.trans same)
  exact disabled'

/-! ## The whole -/

/-- The counters are right; with the retries used up a trigger gives the session up; and a
session once disabled is silent. -/
structure Retried (host : Host) (p : Counted) : Prop where
  counted : ∀ s ∈ p.server.seshead, s.retrycount = p.taken s.key
  bounded : ∀ s ∈ p.server.seshead, s.retrycount ≤ resendCountmax
  givenUp : ∀ s ∈ p.server.seshead, p.taken s.key = resendCountmax →
    ∀ e, Admissible p.server e → Triggers host p.server s e → GivenUp host p.server s e
  silenced : ∀ s ∈ p.server.seshead, s.disabled = true → Silenced host p.server s.key

/-- Every run keeps to the retries.

Proof: the retransmissions are counted along the run beside the sessions. Each one raises
`retrycount`, a new block takes it back to zero, and the branches that send again look at it
first. -/
theorem retries_kept {start : Server} {p : Counted} (initial : Initial start)
    (run : Runs.Reaches (countedStep host) (fun p e => Admissible p.server e)
      { server := start, taken := fun _ => 0 } p) : Retried host p := by
  have empty : CountsKept host.toVolume { server := start, taken := fun _ => 0 } := by
    refine ⟨initial.wellFormed, fun c s found => ?_⟩
    have member : s ∈ start.seshead := session_mem found
    rw [initial.1] at member
    cases member
  have kept : CountsKept host.toVolume p := run.invariant (fun _ _ kept may => kept.step may) empty
  have inv := kept.wellFormed
  constructor
  · exact fun s member => (kept.member member).1
  · exact fun s member => (kept.member member).2
  · intro s member spent e _ triggers
    exact givenUp_of_spent inv member ((kept.member member).1.trans spent) triggers
  · intro s member disabled
    exact silenced_of_disabled inv (Keyed.lookup_of_mem Session.key inv.clients member) disabled

/-- The service on an empty volume. -/
def countedStart : Counted where
  server := startOn fun _ => .absent
  taken := fun _ => 0

/-- A client asks to upload. -/
def countedOpen : Counted := countedStep smallHost countedStart (.datagram (uploadRequest [1] 5))

/-- The timer sends ACK 0 again once. -/
theorem retries_kept_sample :
    Retried smallHost (countedStep smallHost countedOpen (.tick (tickAt 11))) := by
  have first : Admissible countedStart.server (.datagram (uploadRequest [1] 5)) :=
    admissible_first rfl rfl (by decide)
  have run : Runs.Reaches (countedStep smallHost) (fun p e => Admissible p.server e) countedStart
      countedOpen := (Runs.Reaches.refl countedStart).snoc first
  have next : Admissible countedOpen.server (.tick (tickAt 11)) := trivial
  exact retries_kept (startOn_initial _) (run.snoc next)

end Iwtftpd
