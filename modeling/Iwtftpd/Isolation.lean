import Iwtftpd.Moves

/-!
# What a step leaves alone

A datagram of one client touches that client's session, the datastore sessions
under the key of that session, and the file its name leads to. Everything else
is left as it is. The same holds of a tick and of a session that is not given
up, so a session between two datagrams of its client finds its node, its file
and every settled file as it left them.
-/

namespace Iwtftpd

variable {host : Host} {vol : Volume}

/-! ## Files -/

/-- An effect for a key changes no file but the one its name leads to. -/
theorem Prim.elsewhere {k : Int × Bytes} {ds ds' : IWDS} (effect : Prim vol k ds ds')
    (inv : Consistent vol ds) {place : Bytes} (apart : place ≠ vol.node k.2) :
    ds'.disk place = ds.disk place := by
  cases effect with
  | idle _ disk | openRead _ _ _ disk | advance _ _ _ _ _ _ _ _ disk | drop _ disk => rw [disk]
  | openWrite _ _ _ disk => rw [disk, Function.update_of_ne apart]
  | append d data found _ _ disk =>
    have node := inv.placed d (at_mem found)
    have name : d.filename = k.2 := congrArg Prod.snd (lookup_key found)
    rw [name] at node
    rw [disk, node, Function.update_of_ne apart]

theorem Chain.elsewhere {k : Int × Bytes} {ds ds' : IWDS} (chain : Chain vol k ds ds')
    (inv : Consistent vol ds) {place : Bytes} (apart : place ≠ vol.node k.2) :
    ds'.disk place = ds.disk place := by
  have both : Consistent vol ds' ∧ ds'.disk place = ds.disk place := by
    refine chain.invariant (fun x => Consistent vol x ∧ x.disk place = ds.disk place) ?_ ⟨inv, rfl⟩
    rintro before after ⟨consistent, same⟩ effect
    exact ⟨effect.consistent consistent, (effect.elsewhere consistent apart).trans same⟩
  exact both.2

/-- What was at a place stays there: no file is removed. -/
theorem Chain.present {k : Int × Bytes} {ds ds' : IWDS} (chain : Chain vol k ds ds')
    (inv : Consistent vol ds) {place : Bytes} (taken : ds.disk place ≠ .absent) :
    ds'.disk place ≠ .absent := by
  cases held : ds.disk place with
  | absent => exact absurd held taken
  | regular content =>
    obtain ⟨more, grown⟩ := chain.grows inv held
    rw [grown]
    nofun
  | directory =>
    rw [chain.special_stays inv (.inl held), held]
    nofun
  | device =>
    rw [chain.special_stays inv (.inr held), held]
    nofun

/-- Where a new session can open no stream, it never can. -/
theorem Chain.taken {k : Int × Bytes} {ds ds' : IWDS} (chain : Chain vol k ds ds')
    (inv : Consistent vol ds) {place : Bytes} (taken : ¬ (ds.disk place).Opens) :
    ¬ (ds'.disk place).Opens := by
  intro opens
  have ordinary : ds.disk place ≠ .device := by
    intro device
    rw [device] at taken
    exact taken trivial
  have missing := opens.absent (chain.ordinary ordinary)
  have there : ds.disk place ≠ .absent := by
    intro absent
    rw [absent] at taken
    exact taken trivial
  exact chain.present inv there missing

/-! ## The frame of a key -/

/-- The owner of a key finds its node and the file it writes as they were, and no file was
taken away or changed once it was settled; a device is a device as before. -/
structure Undisturbed (k : Int × Bytes) (ds ds' : IWDS) : Prop where
  node : ds'.at k = ds.at k
  file : ∀ d, ds.at k = some d → d.fp.mode = .write → ds'.disk d.fp.node = ds.disk d.fp.node
  settled : ∀ place content, Settled ds place content → Settled ds' place content
  taken : ∀ place, ¬ (ds.disk place).Opens → ¬ (ds'.disk place).Opens
  device : ∀ place, ds'.disk place = .device ↔ ds.disk place = .device

theorem Chain.undisturbed {k other : Int × Bytes} {ds ds' : IWDS} (chain : Chain vol k ds ds')
    (inv : Consistent vol ds) (apart : other ≠ k) : Undisturbed other ds ds' where
  node := chain.other apart
  file := fun _ found writes => chain.held inv found writes apart
  settled := fun _ _ settled => chain.settled settled
  taken := fun _ taken => chain.taken inv taken
  device := fun _ => chain.device_iff inv

/-- A tick leaves the node of a session that it does not give up, and every file. -/
theorem tick_undisturbed {st : Server} {t : Tick} {s : Session} (inv : WellFormed vol st)
    (member : s ∈ st.seshead) (socket : 0 ≤ s.clsock) (kept : ¬ s.exhausted t.now) :
    Undisturbed s.dkey st.ads (endIteration st t).1.ads := by
  obtain ⟨_, disk, fewer, _⟩ := resendAllsession_steps t st.seshead
    { st.ads with faults := t.faults, trace := [] } t.addr sockaddrStorage
  have disk : (endIteration st t).1.ads.disk = st.ads.disk := disk
  refine ⟨tick_at inv member socket kept, ?_, ?_, ?_, ?_⟩
  · intro d _ _
    rw [disk]
  · rintro place content ⟨held, unwritten⟩
    exact ⟨by rw [disk, held], fun d within => unwritten d (fewer.subset within)⟩
  · intro place taken
    rw [disk]
    exact taken
  · intro place
    rw [disk]

/-- A datagram of the client. -/
def Event.From (host : Host) (c : Client) : Event → Bool
  | .datagram d => decide (host.client d.src = some c)
  | .tick _ => false

theorem Event.from_datagram {c : Client} {d : Datagram} (named : host.client d.src = some c) :
    (Event.datagram d).From host c = true := decide_eq_true named

/-- Between the datagrams of its client, an enabled session with a socket is at most aged,
and it is left undisturbed. -/
theorem step_between {st : Server} {e : Event} {c : Client} {s' : Session}
    (inv : WellFormed host.toVolume st) (admissible : Admissible st e)
    (between : e.From host c = false) (found' : getSession (step host st e).seshead c = some s')
    (enabled' : s'.disabled = false) :
    ∃ now s, getSession st.seshead c = some s ∧ Aged now s s' ∧ s.disabled = false ∧
      (0 ≤ s.clsock → Undisturbed s.dkey st.ads (step host st e).ads) := by
  -- A session that a datagram leaves alone is as old as its last message.
  have unaged : Aged s'.lastsending s' s' := .same fun exhausted => by
    have late := exhausted.1
    rw [difftime_self] at late
    exact absurd late (by decide)
  cases e with
  | tick t =>
    obtain ⟨s, found, aged, _⟩ := getSession_tick inv found'
    have enabled : s.disabled = false := by
      cases disabled : s.disabled with
      | false => rfl
      | true =>
        rw [aged.disabled disabled] at enabled'
        cases enabled'
    refine ⟨t.now, s, found, aged, enabled, fun socket => ?_⟩
    apply tick_undisturbed inv (session_mem found) socket
    intro exhausted
    cases aged with
    | same not => exact not exhausted
    | resent _ _ _ retries => exact absurd exhausted.2.2.2 (by omega)
    | given _ => cases enabled'
  | datagram d =>
    cases named : host.client d.src with
    | none =>
      rw [step, serve, recv_ignored named] at found' ⊢
      refine ⟨_, s', found', unaged, enabled', fun _ => ?_⟩
      exact ⟨rfl, fun _ _ _ => rfl, fun _ _ settled => settled, fun _ taken => taken, fun _ => Iff.rfl⟩
    | some x =>
      have apart : c ≠ x := by
        rintro rfl
        rw [Event.from_datagram named] at between
        cases between
      have found : getSession st.seshead c = some s' :=
        (getSession_recv_other named apart).symm.trans found'
      refine ⟨_, s', found, unaged, enabled', fun socket => ?_⟩
      obtain ⟨k, key, chain⟩ := recv_chain_other inv admissible named apart found socket
      have received : Consistent host.toVolume (st.receive d).ads := inv.ads.congr rfl rfl
      obtain ⟨node, file, settled, taken, device⟩ := chain.undisturbed received key
      exact ⟨node, file, settled, taken, device⟩

/-! ## A datagram between clients -/

/-- No creation of a socket fails in the step. -/
def Socketed (host : Host) (st : Server) (e : Event) : Prop :=
  Admissible st e ∧ ∀ d c s, e = .datagram d → host.client d.src = some c →
    (st.proc host d c).edit = .insert s → d.newsock ≠ none

/-- Then every session has a socket. -/
theorem Socketed.step {st : Server} {e : Event} (sockets : ∀ s ∈ st.seshead, 0 ≤ s.clsock)
    (inv : WellFormed vol st) (socketed : Socketed host st e) :
    ∀ s ∈ (step host st e).seshead, 0 ≤ s.clsock := by
  intro s' member
  cases e with
  | tick t =>
    obtain ⟨after, pairs, list⟩ := endIteration_seshead (t := t) inv
    have member : s' ∈ (endIteration st t).1.seshead := member
    rw [list] at member
    obtain ⟨s, old, aged⟩ := forall₂_mem pairs (List.mem_filter.mp member).1
    rw [clsock_of_ident aged.ident]
    exact sockets s old
  | datagram d =>
    have member : s' ∈ (recv host st d).1.seshead := member
    cases named : host.client d.src with
    | none =>
      rw [recv_ignored named] at member
      exact sockets s' member
    | some c =>
      rw [recv_eq named] at member
      dsimp only at member
      cases found : getSession st.seshead c with
      | some s =>
        have handled := proc_handled host d found
        rw [handled_apply found handled] at member
        obtain rfl | old := Keyed.mem_of_mem_store Session.key member
        · rw [clsock_of_ident handled.ident]
          exact sockets s (session_mem found)
        · exact sockets s' old
      | none =>
        cases fresh : proc_fresh host d found with
        | nothing edit _ _ =>
          rw [edit] at member
          exact sockets s' member
        | socketless req refused edit _ _ _ =>
          exact absurd refused (socketed.2 d c _ rfl named edit)
        | linked req fd s linked =>
          rw [linked.edit] at member
          obtain rfl | old := List.mem_cons.mp member
          · rw [clsock_of_ident linked.ident]
            exact (socketed.1 fd linked.socket).1
          · exact sockets s' old

/-- The names a datagram of the client is about: that of its session, or without one that of
the request. -/
def Names (st : Server) (d : Datagram) (c : Client) (file : Bytes) : Prop :=
  (∃ s, getSession st.seshead c = some s ∧ s.filename = file) ∨
    (getSession st.seshead c = none ∧
      ∃ req, parseTftpreq (st.receive d).rbuf d.len = some req ∧ req.filename = file)

/-- A call works under one key: of the client's session, or of the session it opens with the
name of the request and the new descriptor. -/
theorem proc_key (host : Host) (st : Server) (d : Datagram) (c : Client) :
    ((st.proc host d c).ds = (st.receive d).ads) ∨
      ∃ k, Names st d c k.2 ∧ Chain host.toVolume k (st.receive d).ads (st.proc host d c).ds ∧
        ((∃ s, getSession st.seshead c = some s ∧ k.1 = s.clsock) ∨ d.newsock = some k.1) := by
  cases found : getSession st.seshead c with
  | some s =>
    exact .inr ⟨s.dkey, .inl ⟨s, found, rfl⟩, (proc_handled host d found).chain,
      .inl ⟨s, rfl, rfl⟩⟩
  | none =>
    have opening := proc_opening host d found
    generalize st.proc host d c = p at opening
    cases opening with
    | nothing _ _ same => exact .inl same
    | socketless => exact .inl rfl
    | reader req fd content parsed socket =>
      refine .inr ⟨(fd, req.filename), .inr ⟨found, req, parsed, rfl⟩, ?_, .inr socket⟩
      exact (makeTftpdataMsg_steps host.toVolume (newSession c req fd) (st.receive d).ads
        tftpMsglenMax d.now).1
    | writer => exact .inl rfl

/-- A datagram of a client leaves alone the sessions of the others, the nodes under their
descriptors, and every file but its own. -/
structure Isolated (host : Host) (st : Server) (d : Datagram) (c : Client) : Prop where
  sessions : ∀ x, x ≠ c → getSession (recv host st d).1.seshead x = getSession st.seshead x
  nodes : ∀ s ∈ st.seshead, s.key ≠ c → ∀ file,
    (recv host st d).1.ads.at (s.clsock, file) = st.ads.at (s.clsock, file)
  files : ∀ place, (∀ file, Names st d c file → place ≠ host.toVolume.node file) →
    (recv host st d).1.ads.disk place = st.ads.disk place

/-- While no creation of a socket fails, clients are isolated from each other.

Proof: a datagram is answered on the session of its client, and the datastore is asked under the
key of that. While every session has a socket, sockets are distinct, so the key is nobody else's.
-/
theorem clients_isolated {st start : Server} {d : Datagram} {c : Client} (initial : Initial start)
    (run : Runs.Reaches (step host) (Socketed host) start st)
    (admissible : Admissible st (.datagram d)) (named : host.client d.src = some c) :
    Isolated host st d c := by
  have preserved (x : Server) (e : Event)
      (kept : WellFormed host.toVolume x ∧ ∀ s ∈ x.seshead, 0 ≤ s.clsock)
      (socketed : Socketed host x e) :
      WellFormed host.toVolume (step host x e) ∧ ∀ s ∈ (step host x e).seshead, 0 ≤ s.clsock :=
    ⟨kept.1.step socketed.1, socketed.step kept.2 kept.1⟩
  have empty : ∀ s ∈ start.seshead, 0 ≤ s.clsock := by
    rw [initial.1]
    nofun
  obtain ⟨inv, sockets⟩ := run.invariant preserved ⟨initial.wellFormed, empty⟩
  have received : Consistent host.toVolume (st.receive d).ads := inv.ads.congr rfl rfl
  have after : (recv host st d).1.ads = (st.proc host d c).ds := by rw [recv_eq named]
  constructor
  · intro x other
    exact getSession_recv_other named other
  · intro s member other file
    rw [after]
    obtain same | ⟨k, _, chain, owner⟩ := proc_key host st d c
    · rw [same]
      rfl
    · apply chain.other
      intro equal
      have sock : s.clsock = k.1 := congrArg Prod.fst equal
      obtain ⟨t, found, held⟩ | newsock := owner
      · have same := inv.sockets s member t (session_mem found) (sock.trans held) (sockets s member)
        exact other (same ▸ session_key found)
      · exact (admissible k.1 newsock).2 s member sock
  · intro place apart
    rw [after]
    obtain same | ⟨k, names, chain, _⟩ := proc_key host st d c
    · rw [same]
      rfl
    · exact chain.elsewhere received (apart k.2 names)

/-- The request of a client that uploads to the first new socket. -/
def uploadRequest (src : SockAddr) (fd : Int) : Datagram :=
  arrival src (reqMsg opWrq [102] .octet) (some fd)

/-- A server with one upload under way. -/
def uploadOpen : Server := step smallHost (startOn fun _ => .absent) (.datagram (uploadRequest [1] 5))

/-- A second client asks to upload to the same file. -/
theorem clients_isolated_sample :
    Isolated smallHost uploadOpen (uploadRequest [2] 6) ([2], 2000) := by
  have first : Socketed smallHost (startOn fun _ => .absent) (.datagram (uploadRequest [1] 5)) := by
    refine ⟨admissible_first rfl rfl (by decide), ?_⟩
    intro d c s same _ _
    cases same
    nofun
  have sockets : ∀ s ∈ uploadOpen.seshead, s.clsock ≠ 6 := by decide +kernel
  refine clients_isolated (startOn_initial _) ((Runs.Reaches.refl _).snoc first) ?_ rfl
  intro fd same
  cases same
  exact ⟨by decide, sockets⟩

end Iwtftpd
