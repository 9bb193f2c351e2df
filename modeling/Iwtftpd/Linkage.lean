import Iwtftpd.Isolation
import Iwtftpd.Sweeping

/-!
# The service on the session list in memory

The event loop once more, with the session list as a memory of nodes. An event
also carries what `malloc` answers when the step asks for a session, for its node
and for its buffer. In every state that this machine reaches, the memory
represents a list in which no two sessions have one client; and where `malloc`
does not fail the machine does to that list what the machine on lists does.
-/

namespace Iwtftpd

open DoublyLinked (Mem Represents WellLinked)

variable {host : Host} {m : Links} {nodes : List (Addr × Session)}

/-- The state of the service, with `seshead` in memory. -/
structure Links.Server where
  links : Links
  ads : IWDS
  msg : Bytes
  rbuf : Bytes

/-- An event, and what `malloc` answers for a new session. -/
structure Links.Event where
  event : Iwtftpd.Event
  memory : Malloc

/-- The state as the machine on lists has it, for the nodes that the memory represents. -/
def Links.Server.shown (st : Server) (nodes : List (Addr × Session)) : Iwtftpd.Server where
  seshead := sessions nodes
  ads := st.ads
  msg := st.msg
  rbuf := st.rbuf

/-- `recvfrom`. -/
def Links.Server.receive (st : Server) (d : Datagram) : Server :=
  { st with
    rbuf := d.bytes.take nwbufSize ++ st.rbuf.drop d.bytes.length
    ads := { st.ads with faults := d.faults, trace := [] } }

/-- What a call of `tftp_proc` does to the memory. The session that `get_session` points
to is changed in place. A new session is linked by `add_newsession`, and then it is
changed in place; without memory for it, the call goes on to `errsend`. -/
def Links.place (m : Links) (clses : Option Addr) (memory : Malloc) (ds : IWDS) (client : Client)
    (newsock : Option Int) (p : Proc) : Proc × Links :=
  match p.edit with
  | .keep => (p, m)
  | .update s =>
    match clses with
    | none => (p, m)
    | some pm => (p, m.setVal pm s)
  | .insert s =>
    let added := (addNewsession m memory client s.filename s.tftpmode newsock).2
    match memory with
    | .none | .node _ => (errsendNone .keep ds .seeMsg serverError, added)
    | .both node => (p, added.setVal node s)

/-- `tftp_proc`: what it returns, and the memory. -/
def Links.tftpProc (vol : Volume) (m : Links) (memory : Malloc) (ds : IWDS) (rbuf : Bytes)
    (dlen : Nat) (client : Client) (now : Int) (newsock : Option Int) : Proc × Links :=
  let clses := getSession m client
  place m clses memory ds client newsock
    (Iwtftpd.tftpProc vol (clses.bind m.val) ds rbuf dlen client now newsock)

/-- One pass of the inner loop. -/
def Links.recv (host : Host) (st : Server) (d : Datagram) (memory : Malloc) : Server × List Sent :=
  let st := st.receive d
  match host.client d.src with
  | none => (st, [])
  | some client =>
    let r := tftpProc host.toVolume st.links memory st.ads st.rbuf d.len client d.now d.newsock
    let msg := r.1.fill.getD st.msg
    ({ st with links := r.2, ads := r.1.ds, msg := msg }, replyOf r.1 d msg)

/-- The end of an iteration. -/
def Links.endIteration (st : Server) (t : Tick) : Server × List Sent :=
  let r := resendAllsession t st.links { st.ads with faults := t.faults, trace := [] } t.addr sockaddrStorage
  ({ st with links := (cleanupSession t.now r.links).links, ads := r.ads }, r.sent)

def Links.serve (host : Host) (st : Server) (e : Event) : Server × List Sent :=
  match e.event with
  | .datagram d => recv host st d e.memory
  | .tick t => endIteration st t

def Links.step (host : Host) (st : Server) (e : Event) : Server := (serve host st e).1

/-- `malloc` returns an address that is not in use. -/
def Links.Admissible (st : Server) (e : Event) : Prop := ∀ a, e.memory.addr = some a → a ∉ st.links.live

/-- `malloc` does not fail. -/
def Malloc.Enough (memory : Malloc) : Prop := ∃ a, memory = .both a

/-- The service starts with no session. -/
def Links.Initial (st : Server) : Prop := st.links.head = none ∧ st.ads.dhead = [] ∧ st.rbuf.length = nwbufSize

def Links.Reachable (host : Host) (st : Server) : Prop :=
  ∃ start, Initial start ∧ Runs.Reaches (step host) Admissible start st

/-! ## One step -/

/-- A well-formed list: these nodes are doubly linked from the head on, they hold these
sessions, and no two of the sessions have one client. -/
structure Links.Holds (m : Links) (nodes : List (Addr × Session)) : Prop where
  linked : WellLinked m (nodes.map Prod.fst)
  values : ∀ x ∈ nodes, m.val x.1 = some x.2
  distinct : ((sessions nodes).map Session.key).Nodup

theorem Links.holds_iff :
    Holds m nodes ↔ Represents m nodes ∧ ((sessions nodes).map Session.key).Nodup := by
  rw [DoublyLinked.represents_iff, and_assoc]
  exact ⟨fun ⟨linked, values, distinct⟩ => ⟨linked, values, distinct⟩,
    fun ⟨linked, values, distinct⟩ => ⟨linked, values, distinct⟩⟩

/-- Every session is of a client that `getnameinfo` has named. -/
def Links.Named (host : Host) (nodes : List (Addr × Session)) : Prop :=
  ∀ x ∈ nodes, ∃ src, host.nameinfo src = some x.2.key

/-- A call of `tftp_proc` keeps one session for each client. With memory, it does what the call on
lists does. -/
theorem Links.tftpProc_holds (host : Host) (holds : Holds m nodes) {memory : Malloc}
    (fresh : ∀ a, memory.addr = some a → a ∉ m.live) (ds : IWDS) (rbuf : Bytes) (dlen : Nat) {client : Client}
    (now : Int) (newsock : Option Int) (client_named : ∃ src, host.nameinfo src = some client)
    (named : Named host nodes) :
    let r := tftpProc host.toVolume m memory ds rbuf dlen client now newsock
    let p := Iwtftpd.tftpProc host.toVolume (Iwtftpd.getSession (sessions nodes) client) ds rbuf dlen
      client now newsock
    ∃ nodes', Holds r.2 nodes' ∧ Named host nodes' ∧
      (memory.Enough → r.1 = p ∧ sessions nodes' = p.edit.apply (sessions nodes)) := by
  obtain ⟨rep, distinct⟩ := holds_iff.mp holds
  obtain ⟨missing, absent⟩ | ⟨xs, a, s, ys, rfl, before, rfl, pointer, found⟩ := getSession_cases rep client
  · have fresh' : Fresh host.toVolume client newsock ds _ := tftpProc_fresh ds rbuf dlen client now newsock
    simp only [tftpProc, missing, absent, Option.bind_none]
    generalize Iwtftpd.tftpProc host.toVolume none ds rbuf dlen client now newsock = p at fresh' ⊢
    -- A new session goes before the head, and nobody else has its client.
    have inserted (s : Session) (key : s.key = client) (a : Addr) (unused : a ∉ m.live) :
        Holds ((addNewsession m (.both a) client s.filename s.tftpmode newsock).2.setVal a s)
          ((a, s) :: nodes) := by
      have linked := addNewsession_represents rep unused client
        { filename := s.filename, mode := s.tftpmode } newsock
      refine holds_iff.mpr ⟨linked.setFirst s, ?_⟩
      have others := (Keyed.lookup_none_iff Session.key).mp absent
      simp only [sessions, List.map_cons, List.nodup_cons]
      refine ⟨fun member => ?_, distinct⟩
      obtain ⟨x, inside, same⟩ := List.mem_map.mp member
      exact others x inside (same.trans key)
    have placed (s : Session) (key : s.key = client) (edit : p.edit = .insert s) :
        ∃ nodes', Holds (place m none memory ds client newsock p).2 nodes' ∧ Named host nodes' ∧
          (memory.Enough → (place m none memory ds client newsock p).1 = p ∧
            sessions nodes' = p.edit.apply (sessions nodes)) := by
      simp only [place, edit]
      cases memory with
      | none => exact ⟨nodes, holds, named, fun ⟨_, both⟩ => by cases both⟩
      | node a =>
        exact ⟨nodes, holds_iff.mpr ⟨rep.alloc _ (fresh a rfl), distinct⟩, named, fun ⟨_, both⟩ => by cases both⟩
      | both a =>
        refine ⟨_, inserted s key a (fresh a rfl), fun x member => ?_, fun _ => ⟨rfl, rfl⟩⟩
        obtain rfl | old := List.mem_cons.mp member
        · exact key ▸ client_named
        · exact named x old
    cases fresh' with
    | nothing edit _ _ =>
      simp only [place, edit]
      exact ⟨nodes, holds, named, fun _ => ⟨trivial, rfl⟩⟩
    | socketless req _ edit _ _ _ => exact placed _ rfl edit
    | linked req fd s linked => exact placed s (linked_key linked) linked.edit
  · have value : m.val a = some s := (rep.seg.node (by simp)).2
    have handled : Handled host.toVolume s ds _ := tftpProc_handled s ds rbuf dlen s.key now newsock
    simp only [tftpProc, pointer, found, Option.bind_some, value]
    generalize Iwtftpd.tftpProc host.toVolume (some s) ds rbuf dlen s.key now newsock = p at handled ⊢
    have key : (p.after s).key = s.key := key_of_ident handled.ident
    have split (s : Session) : sessions (xs ++ (a, s) :: ys) = sessions xs ++ s :: sessions ys := by simp
    obtain keep | update := handled.edit
    · simp only [place, keep]
      exact ⟨_, holds, named, fun _ => ⟨trivial, rfl⟩⟩
    · simp only [place, update]
      refine ⟨_, holds_iff.mpr ⟨rep.setVal (p.after s), ?_⟩, fun x member => ?_, fun _ => ⟨trivial, ?_⟩⟩
      · rw [split] at distinct ⊢
        simpa [key] using distinct
      · obtain inXs | inYs := List.mem_append.mp member
        · exact named x (List.mem_append_left _ inXs)
        · obtain rfl | later := List.mem_cons.mp inYs
          · exact key ▸ client_named
          · exact named x (by simp [later])
      · rw [split, split]
        exact (Keyed.store_append Session.key key before).symm

/-- A datagram. -/
theorem Links.recv_holds {st : Server} (holds : Holds st.links nodes) (named : Named host nodes) (d : Datagram)
    {memory : Malloc} (fresh : ∀ a, memory.addr = some a → a ∉ st.links.live) :
    ∃ nodes', Holds (recv host st d memory).1.links nodes' ∧ Named host nodes' ∧
      (memory.Enough → (recv host st d memory).1.shown nodes' = (Iwtftpd.recv host (st.shown nodes) d).1 ∧
        (recv host st d memory).2 = (Iwtftpd.recv host (st.shown nodes) d).2) := by
  cases client : host.client d.src with
  | none =>
    simp only [recv, client, recv_ignored client]
    exact ⟨nodes, holds, named, fun _ => ⟨rfl, trivial⟩⟩
  | some c =>
    have numeric : ∃ src, host.nameinfo src = some c := by
      refine ⟨d.src, ?_⟩
      unfold Host.client at client
      split at client
      · cases client
      · rename_i other found
        split at client
        · cases client
        · exact found.trans client
    obtain ⟨nodes', holds', named', same⟩ := tftpProc_holds host holds fresh (st.receive d).ads
      (st.receive d).rbuf d.len d.now d.newsock numeric named
    simp only [recv, client, recv_eq client]
    refine ⟨nodes', holds', named', fun enough => ?_⟩
    obtain ⟨call, list⟩ := same enough
    have proc : (st.shown nodes).proc host d c = Iwtftpd.tftpProc host.toVolume
        (Iwtftpd.getSession (sessions nodes) c) (st.receive d).ads (st.receive d).rbuf d.len c d.now d.newsock := rfl
    rw [← proc] at call list
    have links : (st.receive d).links = st.links := rfl
    rw [← links] at call
    simp only [call, Server.shown, list]
    exact ⟨rfl, rfl⟩

/-- The end of an iteration. -/
theorem Links.endIteration_holds {st : Server} (holds : Holds st.links nodes) (named : Named host nodes)
    (t : Tick) :
    ∃ nodes', Holds (endIteration st t).1.links nodes' ∧ Named host nodes' ∧
      (endIteration st t).1.shown nodes' = (Iwtftpd.endIteration (st.shown nodes) t).1 ∧
        (endIteration st t).2 = (Iwtftpd.endIteration (st.shown nodes) t).2 := by
  obtain ⟨rep, distinct⟩ := holds_iff.mp holds
  obtain ⟨aged, represents, list, ads, sent, live⟩ := resendFrom_represents t [] rep rep.length_le
    { st.ads with faults := t.faults, trace := [] } t.addr sockaddrStorage
  obtain ⟨timed, -⟩ := resendAllsession_map t (sessions nodes)
    { st.ads with faults := t.faults, trace := [] } t.addr sockaddrStorage
  rw [List.nil_append] at represents
  rw [← rep.head] at represents ads sent live
  have keys : (sessions aged).map Session.key = (sessions nodes).map Session.key := by
    rw [list, timed, List.map_map]
    exact List.map_congr_left fun s _ => key_of_ident (timed_ident t s)
  have unique : ((sessions aged).map Session.key).Nodup := keys.symm ▸ distinct
  obtain ⟨swept, -⟩ := cleanupFrom_represents t.now [] represents represents.length_le unique
  rw [← represents.head] at swept
  have left : sessions (aged.filter fun x => !x.2.expired t.now) =
      Iwtftpd.cleanupSession t.now (sessions aged) := by
    rw [cleanupSession_eq unique]
    simp [List.filter_map, Function.comp_def]
  refine ⟨aged.filter fun x => !x.2.expired t.now, holds_iff.mpr ⟨swept, ?_⟩, ?_, ?_, sent⟩
  · rw [left, cleanupSession_eq unique]
    exact unique.sublist (List.filter_sublist.map Session.key)
  · intro x member
    have inside : x.2.key ∈ (sessions nodes).map Session.key :=
      keys ▸ List.mem_map_of_mem (List.mem_map_of_mem (List.mem_filter.mp member).1)
    obtain ⟨s, old, same⟩ := List.mem_map.mp inside
    obtain ⟨y, node, rfl⟩ := List.mem_map.mp old
    exact same ▸ named y node
  · simp only [Server.shown, left, list]
    have ads' : (endIteration st t).1.ads = _ := ads
    rw [ads']
    rfl

/-! ## Runs -/

/-- One step keeps a well-formed list, and with memory it is a step of the machine on lists. -/
theorem Links.step_holds {st : Server} {e : Event} (holds : Holds st.links nodes) (named : Named host nodes)
    (may : Admissible st e) :
    ∃ nodes', Holds (step host st e).links nodes' ∧ Named host nodes' ∧
      (e.memory.Enough → (step host st e).shown nodes' = Iwtftpd.step host (st.shown nodes) e.event ∧
        (serve host st e).2 = (Iwtftpd.serve host (st.shown nodes) e.event).2) := by
  obtain ⟨event, memory⟩ := e
  cases event with
  | datagram d => exact recv_holds holds named d may
  | tick t =>
    obtain ⟨nodes', holds', named', state, sent⟩ := endIteration_holds holds named t
    exact ⟨nodes', holds', named', fun _ => ⟨state, sent⟩⟩

/-- The machine in memory refines the machine on lists. -/
theorem Links.run_refines {st : Server} {events : List Event} (holds : Holds st.links nodes)
    (named : Named host nodes) (admitted : Runs.Admits (step host) Admissible st events)
    (enough : ∀ e ∈ events, e.memory.Enough) :
    ∃ nodes', Holds (Runs.exec (step host) st events).links nodes' ∧
      (Runs.exec (step host) st events).shown nodes' =
        Runs.exec (Iwtftpd.step host) (st.shown nodes) (events.map Event.event) := by
  induction events generalizing st nodes with
  | nil => exact ⟨nodes, holds, rfl⟩
  | cons e rest inductionHypothesis =>
    obtain ⟨may, following⟩ := admitted
    obtain ⟨next, holds', named', same⟩ := step_holds holds named may
    obtain ⟨last, held, shown⟩ := inductionHypothesis holds' named' following
      fun e' member => enough e' (List.mem_cons_of_mem e member)
    rw [(same (enough e List.mem_cons_self)).1] at shown
    exact ⟨last, held, shown⟩

theorem Links.Initial.holds {st : Server} (initial : Initial st) : Holds st.links [] :=
  holds_iff.mpr ⟨⟨initial.1, trivial, List.nodup_nil⟩, List.nodup_nil⟩

theorem Links.Reachable.holds {st : Server} (reachable : Reachable host st) :
    ∃ nodes, Holds st.links nodes ∧ Named host nodes := by
  obtain ⟨start, initial, run⟩ := reachable
  have empty : ∃ nodes, Holds start.links nodes ∧ Named host nodes := ⟨[], initial.holds, nofun⟩
  have preserved (st : Server) (e : Event) (invariant : ∃ nodes, Holds st.links nodes ∧ Named host nodes)
      (may : Admissible st e) : ∃ nodes, Holds (Links.step host st e).links nodes ∧ Named host nodes := by
    obtain ⟨nodes, holds, named⟩ := invariant
    obtain ⟨nodes', holds', named', -⟩ := step_holds holds named may
    exact ⟨nodes', holds', named'⟩
  exact run.invariant preserved empty

/-! ## The operations -/

/-- What the functions of the list do to a well-formed one. -/
structure Links.WellBehaved (m : Links) (nodes : List (Addr × Session)) : Prop where
  /-- `get_session` finds the session of a client exactly when there is one. -/
  get : ∀ client a, getSession m client = some a ↔ ∃ s, (a, s) ∈ nodes ∧ s.key = client
  /-- `create_session` links a node before the others. -/
  create : ∀ a, a ∉ m.live → WellLinked (createSession m (.both a)).2 (a :: nodes.map Prod.fst) ∧
    ((∀ x ∈ nodes, x.2.key ≠ blankSession.key) →
      Holds (createSession m (.both a)).2 ((a, blankSession) :: nodes))
  /-- `add_newsession` for a client that has no session, on success and on failure. -/
  add : ∀ a, a ∉ m.live → ∀ client, (∀ x ∈ nodes, x.2.key ≠ client) → ∀ req newsock,
    (addNewsession m (.both a) client req.filename req.mode newsock).1 = newsock.map (fun _ => a) ∧
      Holds (addNewsession m (.both a) client req.filename req.mode newsock).2
        ((a, newSession client req (newsock.getD (-1))) :: nodes)
  /-- Without memory, both leave the list alone. -/
  full : ∀ client file mode newsock, createSession m .none = (none, m) ∧
    addNewsession m .none client file mode newsock = (none, m)
  /-- With memory for the node alone, they leave the list alone as well. -/
  bare : ∀ a, a ∉ m.live → ∀ client file mode newsock,
    ((createSession m (.node a)).1 = none ∧ Holds (createSession m (.node a)).2 nodes) ∧
      (addNewsession m (.node a) client file mode newsock).1 = none ∧
        Holds (addNewsession m (.node a) client file mode newsock).2 nodes
  /-- `del_session` removes the session of the client and keeps the order of the others. -/
  delete : ∀ client, Holds (delSession m client).1 (nodes.filter fun x => x.2.key ≠ client)

/-- A session that is linked before the head keeps a list well formed when its client is new. -/
theorem Links.holds_cons {m' : Links} {a : Addr} {s : Session} (holds : Holds m nodes)
    (linked : Represents m' ((a, s) :: nodes)) (new : ∀ x ∈ nodes, x.2.key ≠ s.key) :
    Holds m' ((a, s) :: nodes) := by
  refine holds_iff.mpr ⟨linked, ?_⟩
  simp only [sessions, List.map_cons, List.nodup_cons]
  refine ⟨fun member => ?_, holds.distinct⟩
  obtain ⟨t, inside, same⟩ := List.mem_map.mp member
  obtain ⟨x, node, rfl⟩ := List.mem_map.mp inside
  exact new x node same

theorem Links.Holds.get (holds : Holds m nodes) (client : Client) (a : Addr) :
    getSession m client = some a ↔ ∃ s, (a, s) ∈ nodes ∧ s.key = client := by
  obtain ⟨rep, distinct⟩ := holds_iff.mp holds
  obtain ⟨missing, absent⟩ | ⟨xs, b, s, ys, rfl, before, rfl, found, -⟩ := getSession_cases rep client
  · rw [missing]
    refine ⟨nofun, ?_⟩
    rintro ⟨s, member, key⟩
    exact absurd key ((Keyed.lookup_none_iff Session.key).mp absent s (List.mem_map_of_mem member))
  · rw [found, Option.some.injEq]
    constructor
    · rintro rfl
      exact ⟨s, by simp, rfl⟩
    · rintro ⟨t, member, key⟩
      have keys : ((xs ++ (b, s) :: ys).map fun x => x.2.key).Nodup := by
        simpa [sessions, Function.comp_def] using distinct
      have own : (b, s) ∈ xs ++ (b, s) :: ys := by simp
      exact (Prod.mk.inj (List.inj_on_of_nodup_map keys own member key.symm)).1

theorem Links.Holds.wellBehaved (holds : Holds m nodes) : WellBehaved m nodes where
  get := holds.get
  create := by
    intro a fresh
    have linked := createSession_represents (holds_iff.mp holds).1 fresh
    exact ⟨linked.wellLinked, holds_cons holds linked⟩
  add := by
    intro a fresh client new req newsock
    have linked := addNewsession_represents (holds_iff.mp holds).1 fresh client req newsock
    exact ⟨by cases newsock <;> rfl, holds_cons holds linked new⟩
  full := fun _ _ _ _ => ⟨rfl, rfl⟩
  bare := by
    intro a fresh client file mode newsock
    have kept : Holds (createSession m (.node a)).2 nodes :=
      holds_iff.mpr ⟨(holds_iff.mp holds).1.alloc _ fresh, holds.distinct⟩
    exact ⟨⟨rfl, kept⟩, rfl, kept⟩
  delete := by
    intro client
    obtain ⟨rep, distinct⟩ := holds_iff.mp holds
    refine holds_iff.mpr ⟨delSession_represents rep distinct client, distinct.sublist ?_⟩
    exact (List.filter_sublist.map Prod.snd).map Session.key

/-- In every reachable state the list is well formed, and the functions of the list keep every
well-formed list so. A blank session is no second one of a client, since `getnameinfo` gives no
client an empty name.

Proof: the machine in memory does on a list of nodes what the service does on a list of sessions,
and every function of the list keeps the links. A client's name comes from `getnameinfo`, so a
blank session is none. -/
theorem Links.sessions_linked (numeric : ∀ src c, host.nameinfo src = some c → c.1 ≠ []) :
    (∀ st, Reachable host st → ∃ nodes, Holds st.links nodes ∧
        ∀ x ∈ nodes, x.2.key ≠ blankSession.key) ∧
      ∀ (m : Links) (nodes : List (Addr × Session)), Holds m nodes → WellBehaved m nodes := by
  constructor
  · intro st reachable
    obtain ⟨nodes, holds, named⟩ := reachable.holds
    refine ⟨nodes, holds, fun x member blank => ?_⟩
    obtain ⟨src, name⟩ := named x member
    exact numeric src _ name (congrArg Prod.fst blank)
  · exact fun _ _ holds => holds.wellBehaved

/-- A host whose clients all have names. -/
def numericHost : Host := { smallHost with nameinfo := fun src => if src = [] then none else some (src, 2000) }

/-- The service in memory, before anything has arrived. -/
def Links.startOn (disk : Bytes → FileNode) : Server where
  links := { node := fun _ => none, live := [], head := none }
  ads := { dhead := [], disk := disk, faults := [], trace := [] }
  msg := []
  rbuf := List.replicate nwbufSize 0

/-- Three clients ask for an upload each; for the second there is no buffer, for the third no
socket. -/
def Links.threeUploads : List Event :=
  [{ event := .datagram (uploadRequest [1] 5), memory := .both 1 },
    { event := .datagram (uploadRequest [2] 6), memory := .node 2 },
    { event := .datagram { uploadRequest [3] 7 with newsock := none }, memory := .both 3 }]

theorem Links.threeUploads_admitted :
    Runs.Admits (step numericHost) Admissible (startOn fun _ => .absent) threeUploads := by
  refine ⟨fun a _ => List.not_mem_nil, fun a own => ?_, fun a own => ?_, trivial⟩ <;>
  · cases own
    decide +kernel

theorem Links.sessions_linked_sample :
    ∃ nodes, Holds (Runs.exec (step numericHost) (startOn fun _ => .absent) threeUploads).links nodes ∧
      WellBehaved (Runs.exec (step numericHost) (startOn fun _ => .absent) threeUploads).links nodes := by
  have numeric : ∀ src c, numericHost.nameinfo src = some c → c.1 ≠ [] := by
    intro src c named
    simp only [numericHost] at named
    split at named
    · cases named
    · cases named
      assumption
  obtain ⟨reached, behaved⟩ := sessions_linked numeric
  obtain ⟨nodes, holds, -⟩ := reached (Runs.exec (step numericHost) (startOn fun _ => .absent) threeUploads)
    ⟨startOn fun _ => .absent, ⟨rfl, rfl, List.length_replicate⟩, Runs.reaches_exec threeUploads_admitted⟩
  exact ⟨nodes, holds, behaved _ _ holds⟩

end Iwtftpd
