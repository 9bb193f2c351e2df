import Iwtftpd.Directions
import Iwtftpd.Loading
import Iwtftpd.Saving

/-!
# Who owns an open file

The datastore closes a node only when it is told to, and nothing is told to when
a session is removed. So every end of a transfer has to close the node itself.
All do but three: the ERROR for a malformed or stray block, and the blocks that
still arrive, in sequence, for a session that is disabled and whose node is
closed already. In the runs that meet none of these every node belongs to a
session that is in the list and neither finished nor disabled.
-/

namespace Iwtftpd

variable {host : Host} {vol : Volume}

/-- Every node belongs to an active session of the list. -/
def Owned (head : List Session) (dhead : List DSession) : Prop :=
  ∀ d ∈ dhead, ∃ s ∈ head, s.dkey = d.key ∧ s.Active

/-- Another active session works under the key of the session. Only sessions whose
socket could not be made share a key. -/
def Session.Shared (head : List Session) (s : Session) : Prop :=
  ∃ t ∈ head, t.key ≠ s.key ∧ t.dkey = s.dkey ∧ t.Active

/-- The moves after which a session is active or has no node. -/
def Session.Closes (vol : Volume) (ds : IWDS) (dlen : Nat) (s : Session) : Move → Prop
  | .refuse => ds.at s.dkey = none
  | .store dat =>
    s.disabled = true → s.fin = false → tftpDatalenMax ≤ dlen - 4 →
      s.sesbuf.datalen + (s.tftpmode.kept dat.data).length < sessionBufsize ∨
        ds.Denies vol s.dkey
  | .advance =>
    s.disabled = true → s.fin = false →
      tftpDatalenMax ≤ s.sesbuf.datalen ∨
        (∀ content, ds.disk (vol.node s.filename) ≠ .regular content) ∨ ds.fault ≠ .none
  | _ => True

/-- No ERROR is issued while the session has a node, and no block opens one for a disabled
session. -/
def Tidy (host : Host) (st : Server) (e : Event) : Prop :=
  Admissible st e ∧ ∀ d c s, e = .datagram d → host.client d.src = some c →
    getSession st.seshead c = some s → ¬ s.Shared st.seshead →
    s.Closes host.toVolume (st.receive d).ads d.len (st.move d s)

/-! ## One session -/

/-- A move that closes leaves the session active or without a node. -/
theorem run_closes {ses : Session} {ds : IWDS} (dlen : Nat) (now : Int) {move : Move}
    (inv : Consistent vol ds) (fits : ses.sesbuf.Fits)
    (own : ds.at ses.dkey = none ∨ ses.Active) (closes : ses.Closes vol ds dlen move) :
    ((move.run vol ses ds dlen now).after ses).Active ∨
      (move.run vol ses ds dlen now).ds.at ses.dkey = none := by
  cases move with
  | resend =>
    rw [Move.run, resend]
    split
    · exact own.symm
    · exact .inr (closeData_closed { ses with disabled := true } inv.distinct)
  | refuse =>
    rw [Move.run, errsend_eq .update ses ds .illegalOpe empty_short]
    exact .inr closes
  | abort => exact .inr (closeData_closed { ses with disabled := true } inv.distinct)
  | pass => exact own.symm
  | advance =>
    cases running : ses.fin with
    | true =>
      rw [Move.run, nextData, if_pos running]
      refine .inr (own.resolve_right ?_)
      intro active
      rw [active.1] at running
      cases running
    | false =>
      show ((nextData vol ses ds now).after ses).Active ∨ (nextData vol ses ds now).ds.at ses.dkey = none
      obtain ⟨msg, made, _, after, same⟩ | ⟨failed, _, _, same⟩ := nextData_cases vol ds now running
      · rw [after, same]
        have disabled := (makeTftpdataMsg_steps vol ses ds tftpMsglenMax now).2.2.1
        obtain unfinished | closed := makeTftpdataMsg_fin_closed inv running made
        · cases enabled : ses.disabled with
          | false => exact .inl ⟨unfinished, disabled.trans enabled⟩
          | true =>
            have absent := own.resolve_right fun active => by
              rw [active.2] at enabled
              cases enabled
            exact .inr (makeTftpdataMsg_unopened inv absent (closes enabled running))
        · exact .inr closed
      · rw [same]
        exact .inr (makeTftpdataMsg_closed inv failed)
  | store dat =>
    show ((storeBlock vol ses ds dat dlen now).after ses).Active ∨
      (storeBlock vol ses ds dat dlen now).ds.at ses.dkey = none
    obtain ⟨chain, only, _⟩ := putSessionData_steps vol (ses.noticed dlen) ds dat.data
    have ends := putSessionData_ends (ses.noticed dlen) dat.data inv fits
    have key : (ses.noticed dlen).dkey = ses.dkey := rfl
    rw [storeBlock_eq]
    rw [key] at chain ends
    have sameKey : (putSessionData vol (ses.noticed dlen) ds dat.data).ses.dkey = ses.dkey := only.dkey
    have unopened : ses.disabled = true → (ses.noticed dlen).fin = false →
        (putSessionData vol (ses.noticed dlen) ds dat.data).ds.at ses.dkey = none := by
      intro disabled running
      have absent := own.resolve_right fun active => by
        rw [active.2] at disabled
        cases disabled
      have facts : ses.fin = false ∧ ¬ dlen - 4 < tftpDatalenMax := by
        rw [Session.noticed, Bool.or_eq_false_iff, decide_eq_false_iff_not] at running
        exact running
      rw [putSessionData]
      split
      · exact absent
      · exact putLoop_unopened _ (ses.noticed dlen) ds dat.data inv running absent
          ((closes disabled facts.1 (Nat.le_of_not_lt facts.2)).imp_right denies_iff.mp)
    generalize putSessionData vol (ses.noticed dlen) ds dat.data = r
      at chain only ends sameKey unopened ⊢
    obtain done | ⟨err, closed⟩ := ends
    · simp only [done, if_true]
      cases finished : r.ses.fin with
      | true =>
        simp only [if_true]
        rw [← sameKey]
        exact .inr (closeData_closed r.ses (chain.consistent inv).distinct)
      | false =>
        simp only [Bool.false_eq_true, if_false]
        cases enabled : ses.disabled with
        | false => exact .inl ⟨rfl, only.disabled.trans enabled⟩
        | true => exact .inr (unopened enabled (only.fin.symm.trans finished))
    · simp only [err, reduceCtorEq, if_false]
      exact .inr closed

/-- A session that a call links is active or has no node. -/
theorem opening_closes {ds : IWDS} {rbuf : Bytes} {dlen : Nat} {client : Client} {now : Int}
    {newsock : Option Int} {p : Proc} {s : Session} (inv : Consistent vol ds)
    (opening : Opening vol ds rbuf dlen client now newsock p) (edit : p.edit = .insert s) :
    p.ds = ds ∨ s.Active ∨ p.ds.at s.dkey = none := by
  cases opening with
  | nothing keep _ _ =>
    rw [keep] at edit
    cases edit
  | socketless | writer => exact .inl rfl
  | reader req fd content _ _ _ _ =>
    right
    cases edit
    have key : (newSession client req fd).dkey = (startReader vol client req fd ds now).dkey :=
      (dkey_of_ident (startReader_ident client req fd ds now)).symm
    have steps := makeTftpdataMsg_steps vol (newSession client req fd) ds tftpMsglenMax now
    rw [← key]
    cases made : (makeTftpdataMsg vol (newSession client req fd) ds tftpMsglenMax now).1 with
    | none => exact .inr (makeTftpdataMsg_closed inv made)
    | some msg =>
      refine (makeTftpdataMsg_fin_closed inv rfl made).imp (fun unfinished => ?_) id
      have same : startReader vol client req fd ds now =
          (makeTftpdataMsg vol (newSession client req fd) ds tftpMsglenMax now).2.1 := by
        rw [startReader, made]
        rfl
      rw [same]
      exact ⟨unfinished, steps.2.2.1⟩

/-! ## Steps and runs -/

/-- What the handling of one session leaves owned. -/
theorem owned_handled {st : Server} {s : Session} {p : Proc} (inv : WellFormed vol st)
    {c : Client} (found : getSession st.seshead c = some s) {ds : IWDS}
    (handled : Handled vol s ds p) (owned : Owned st.seshead ds.dhead)
    (settled : s.Shared st.seshead ∨ (p.after s).Active ∨ p.ds.at s.dkey = none) :
    Owned (p.edit.apply st.seshead) p.ds.dhead := by
  have sameKey : (p.after s).key = s.key := key_of_ident handled.ident
  rw [handled_apply found handled]
  intro d member
  by_cases here : d.key = s.dkey
  · obtain ⟨t, tMember, apart, same, active⟩ | active | closed := settled
    · exact ⟨t, Keyed.mem_store_of_ne Session.key tMember (sameKey ▸ apart), same.trans here.symm, active⟩
    · refine ⟨p.after s, ?_, (dkey_of_ident handled.ident).trans here.symm, active⟩
      have old : getSession st.seshead (p.after s).key = some s := by
        rw [sameKey, session_key found]
        exact found
      exact session_mem (Keyed.lookup_store_self Session.key old)
    · exact absurd here ((Keyed.lookup_none_iff DSession.key).mp closed d member)
  · obtain ⟨t, tMember, same, active⟩ := owned d (handled.chain.mem_old here member)
    have apart : t.key ≠ (p.after s).key := by
      intro equal
      have one := List.inj_on_of_nodup_map inv.clients tMember (session_mem found)
        (equal.trans sameKey)
      rw [one] at same
      exact here same.symm
    exact ⟨t, Keyed.mem_store_of_ne Session.key tMember apart, same, active⟩

theorem owned_recv {st : Server} {d : Datagram} (inv : WellFormed host.toVolume st)
    (tidy : Tidy host st (.datagram d)) (owned : Owned st.seshead st.ads.dhead) :
    Owned (recv host st d).1.seshead (recv host st d).1.ads.dhead := by
  have received : Consistent host.toVolume (st.receive d).ads := inv.ads.congr rfl rfl
  cases named : host.client d.src with
  | none =>
    rw [recv_ignored named]
    exact owned
  | some c =>
    rw [recv_eq named]
    cases found : getSession st.seshead c with
    | some s =>
      apply owned_handled inv found (proc_handled host d found) owned
      by_cases shared : s.Shared st.seshead
      · exact .inl shared
      · right
        have own : (st.receive d).ads.at s.dkey = none ∨ s.Active := by
          cases node : (st.receive d).ads.at s.dkey with
          | none => exact .inl rfl
          | some n =>
            obtain ⟨t, member, same, active⟩ := owned n (at_mem node)
            by_cases equal : t.key = s.key
            · have one := List.inj_on_of_nodup_map inv.clients member (session_mem found) equal
              exact .inr (one ▸ active)
            · exact absurd ⟨t, member, equal, same.trans (lookup_key node), active⟩ shared
        rw [proc_move found]
        exact run_closes d.len d.now received (inv.buffers s (session_mem found)) own
          (tidy.2 d c s rfl named found shared)
    | none =>
      have opening := proc_opening host d found
      have more (s : Session) : Owned (s :: st.seshead) st.ads.dhead := fun n member =>
        (owned n member).imp fun t ⟨tMember, facts⟩ => ⟨List.mem_cons_of_mem s tMember, facts⟩
      cases proc_fresh host d found with
      | nothing edit _ same =>
        rw [edit, same]
        exact owned
      | socketless req _ edit _ _ same =>
        rw [edit, same]
        exact more _
      | linked req fd s linked =>
        have key : s.dkey = (fd, req.filename) := dkey_of_ident linked.ident
        have settled := opening_closes received opening linked.edit
        dsimp only
        rw [linked.edit]
        obtain same | settled := settled
        · rw [same]
          exact more s
        · intro n member
          by_cases here : n.key = s.dkey
          · obtain active | closed := settled
            · exact ⟨s, List.mem_cons_self, here.symm, active⟩
            · exact absurd here ((Keyed.lookup_none_iff DSession.key).mp closed n member)
          · exact more s n (linked.chain.mem_old (key ▸ here) member)

/-- A tick closes what it gives up, and removes no active session. -/
theorem owned_tick {st : Server} {t : Tick} (inv : WellFormed vol st)
    (owned : Owned st.seshead st.ads.dhead) :
    Owned (endIteration st t).1.seshead (endIteration st t).1.ads.dhead := by
  obtain ⟨pairs, _, fewer, _, closed, _⟩ := resendAllsession_steps t st.seshead
    { st.ads with faults := t.faults, trace := [] } t.addr sockaddrStorage
  have list : (endIteration st t).1.seshead = _ := cleanupSession_eq (forall₂_keys pairs ▸ inv.clients)
  intro d member
  obtain ⟨s, sMember, same, active⟩ := owned d (fewer.subset member)
  obtain ⟨s', aged, inAfter⟩ := forall₂_mem_left pairs sMember
  have kept : ¬ s.exhausted t.now := by
    intro exhausted
    have gone := closed inv.ads.distinct s sMember exhausted
    exact (Keyed.lookup_none_iff DSession.key).mp gone d member same.symm
  have active' : s'.Active := by
    cases aged with
    | same _ => exact active
    | resent => exact active
    | given exhausted => exact absurd exhausted kept
  refine ⟨s', ?_, (dkey_of_ident aged.ident).trans same, active'⟩
  rw [list, List.mem_filter]
  refine ⟨inAfter, ?_⟩
  rw [Session.expired, active'.1, active'.2]
  rfl

theorem owned_step {st : Server} {e : Event} (inv : WellFormed host.toVolume st)
    (tidy : Tidy host st e) (owned : Owned st.seshead st.ads.dhead) :
    Owned (step host st e).seshead (step host st e).ads.dhead := by
  cases e with
  | datagram d => exact owned_recv inv tidy owned
  | tick t => exact owned_tick inv owned

/-- In every state of a tidy run every node belongs to a session of the list.

Proof: a step of the service changes the node of one session at most, and leaves that session
active or without a node when the step is tidy. The sweep removes sessions that are not active. -/
theorem nodes_owned {st st' : Server} (initial : Initial st)
    (run : Runs.Reaches (step host) (Tidy host) st st') :
    ∀ d ∈ st'.ads.dhead, ∃ s ∈ st'.seshead, s.clsock = d.clid ∧ s.filename = d.filename := by
  let OwnedState : Server → Prop := fun x =>
    WellFormed host.toVolume x ∧ Owned x.seshead x.ads.dhead
  have preserved (x : Server) (e : Event) (inv : OwnedState x) (tidy : Tidy host x e) :
      OwnedState (step host x e) := ⟨inv.1.step tidy.1, owned_step inv.1 tidy inv.2⟩
  have start : OwnedState st := by
    refine ⟨initial.wellFormed, ?_⟩
    rw [initial.2.1]
    intro d impossible
    cases impossible
  obtain ⟨_, owned⟩ := run.invariant preserved start
  intro d member
  obtain ⟨s, sMember, same, _⟩ := owned d member
  exact ⟨s, sMember, congrArg Prod.fst same, congrArg Prod.snd same⟩

/-- A client has asked for a file of 600 bytes and was sent its first block. -/
def readRequested : Server :=
  step smallHost (startOn (diskWith [102] (List.replicate 600 1)))
    (.datagram (arrival [1] (reqMsg opRrq [102] .octet) (some 5)))

/-- A tick, some seconds after everything that came before. -/
def lateTick : Tick where
  now := 20
  sockname := fun _ => none
  addr := []
  faults := []

theorem nodes_owned_sample :
    readRequested.ads.dhead ≠ [] ∧
      ∀ d ∈ readRequested.ads.dhead, ∃ s ∈ readRequested.seshead,
        s.clsock = d.clid ∧ s.filename = d.filename := by
  constructor
  · decide +kernel
  · exact nodes_owned (startOn_initial _) ((Runs.Reaches.refl _).snoc
      ⟨admissible_first rfl rfl (by decide), fun d c s _ _ found => by cases found⟩)

/-- At the end of every iteration of every run, every node belongs to a session. -/
def NodesOwned (host : Host) : Prop :=
  ∀ st t, Reachable host st → ∀ d ∈ (endIteration st t).1.ads.dhead,
    ∃ s ∈ (endIteration st t).1.seshead, s.clsock = d.clid ∧ s.filename = d.filename

/-- The session that sent a malformed ACK is removed after its close wait, and leaves its
node behind. -/
theorem nodes_not_owned : ¬ NodesOwned smallHost := by
  intro owned
  have requested : Reachable smallHost readRequested :=
    (startOn_reachable smallHost _).step (admissible_first rfl rfl (by decide))
  have quiet : (Event.datagram (arrival [1] [0, 4] none)).Quiet := rfl
  have refused := requested.step (quiet.admissible _)
  have left : ¬ ∀ d ∈ (endIteration (step smallHost readRequested
      (.datagram (arrival [1] [0, 4] none))) lateTick).1.ads.dhead,
      ∃ s ∈ (endIteration (step smallHost readRequested
        (.datagram (arrival [1] [0, 4] none))) lateTick).1.seshead,
        s.clsock = d.clid ∧ s.filename = d.filename := by
    decide +kernel
  exact left (owned _ lateTick refused)

end Iwtftpd
