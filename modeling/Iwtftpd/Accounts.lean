import Iwtftpd.EventLoopLaws

/-!
# The account of the descriptors

What is open while the loop runs, and what the event poll watches. Between two
iterations the open descriptors are those from before and one for each session
that has a socket; no session is disabled, every session has been handed to the
event poll, and the event poll watches nothing but server sockets and sockets of
live sessions. Each part of an iteration is described once by what it does to the
slots, the flag and the descriptor of each session.
-/

namespace Iwtftpd

open Descriptors

variable {host : Host} {l : EventLoop}

/-- The descriptors of the sessions. -/
def EventLoop.socks (l : EventLoop) : List Int := l.nodes.map fun n => n.ses.clsock

/-- What the kernel may answer during a pass. -/
def Arrival.Permitted (wild : List Int) (l : EventLoop) (a : Arrival) : Prop :=
  ∀ c ∈ a.creation, c.Possible l.kernel ∧ c.Harmless wild l.kernel

/-! ## One datagram -/

/-- The flag and the descriptor of a session. -/
def Node.slot (n : Node) : Bool × Int := (n.regevent, n.ses.clsock)

/-- What a pass does to the slots and the descriptors. -/
inductive Pass (wild : List Int) (l l' : EventLoop) : Prop where
  | kept (slots : l'.nodes.map Node.slot = l.nodes.map Node.slot) (kernel : l'.kernel = l.kernel)
  | socketless (slots : l'.nodes.map Node.slot = (false, -1) :: l.nodes.map Node.slot)
      (opened : l'.kernel.opened = l.kernel.opened) (watched : l'.kernel.watched = l.kernel.watched)
      (stray : ∀ fd ∈ l'.kernel.stray, fd ∈ l.kernel.stray ∨ fd ∈ wild)
  | linked (fd : Int) (valid : 0 ≤ fd) (free : l.kernel.Free fd)
      (slots : l'.nodes.map Node.slot = (false, fd) :: l.nodes.map Node.slot)
      (kernel : l'.kernel = l.kernel.grant fd)

/-- How `add_newsession` ends: with a socket, or with the table as it was but for a stray close. -/
theorem Arrival.Permitted.clientSocket {wild : List Int} {a : Arrival} (permitted : a.Permitted wild l) :
    (∃ fd, 0 ≤ fd ∧ l.kernel.Free fd ∧ a.clientSocket l.kernel = (some fd, l.kernel.grant fd)) ∨
    ∃ k, a.clientSocket l.kernel = (none, k) ∧ k.opened = l.kernel.opened ∧
      k.watched = l.kernel.watched ∧ ∀ fd ∈ k.stray, fd ∈ l.kernel.stray ∨ fd ∈ wild := by
  cases svname : a.svname with
  | none =>
    refine .inr ⟨l.kernel, ?_, rfl, rfl, fun _ => .inl⟩
    simp [Arrival.clientSocket, svname]
  | some named =>
    have creation : a.creation = some (a.answers named.1 (nodeOf named.2) none) := by
      simp [Arrival.creation, svname]
    obtain ⟨possible, harmless⟩ := permitted _ creation
    have created := Creation.finish_created possible harmless
    have result : a.clientSocket l.kernel =
        (if ((a.answers named.1 (nodeOf named.2) none).finish l.kernel).1 = -1 then none
          else some ((a.answers named.1 (nodeOf named.2) none).finish l.kernel).1,
          ((a.answers named.1 (nodeOf named.2) none).finish l.kernel).2) := by
      rw [Arrival.clientSocket, svname]
      rfl
    rw [result]
    generalize (a.answers named.1 (nodeOf named.2) none).finish l.kernel = r at created
    cases created with
    | made sock valid free =>
      have socket : ¬ sock = -1 := by omega
      exact .inl ⟨sock, valid, free, by rw [if_neg socket]⟩
    | failed k' opened watched stray => exact .inr ⟨k', by rw [if_pos rfl], opened, watched, stray⟩

/-- What a pass of the inner loop can do to descriptors and nodes: nothing, a socket that is made
and closed again, or a new node for a socket that is left open.

Proof: by what `tftp_proc` does to the list, which links a node only for a request, and by what
becomes of the socket made for that. -/
theorem pass_cases {wild : List Int} {a : Arrival} (permitted : a.Permitted wild l) :
    Pass wild l (l.pass host a).1 := by
  cases received : a.received with
  | none => exact .kept (by simp [EventLoop.pass, received]) (by simp [EventLoop.pass, received])
  | some r =>
    obtain ⟨src, bytes⟩ := r
    cases named : host.client src with
    | none =>
      exact .kept (by simp [EventLoop.pass, received, named]) (by simp [EventLoop.pass, received, named])
    | some client =>
      have nodes : (l.pass host a).1.nodes = (l.server.proc host
          (a.datagram src bytes (a.clientSocket l.kernel).1) client).edit.applyNodes l.nodes := by
        simp only [EventLoop.pass, received, named]
      have kernel : (l.pass host a).1.kernel = if (l.server.proc host
          (a.datagram src bytes (a.clientSocket l.kernel).1) client).edit.inserts then
            (a.clientSocket l.kernel).2 else l.kernel := by
        simp only [EventLoop.pass, received, named]
      cases found : getSession l.server.seshead client with
      | some s =>
        have handled := proc_handled host (a.datagram src bytes (a.clientSocket l.kernel).1) found
        generalize l.server.proc host (a.datagram src bytes (a.clientSocket l.kernel).1) client = p
          at nodes kernel handled
        rcases handled.edit with keep | update
        · rw [keep] at nodes kernel
          exact .kept (congrArg _ nodes) kernel
        · rw [update] at nodes kernel
          refine .kept ?_ kernel
          have search := Keyed.lookup_map Session.key Node.key node_keys client l.nodes
          rw [show l.nodes.map Node.ses = l.server.seshead from rfl] at search
          rw [getSession] at found
          rw [found] at search
          obtain ⟨n, here, carried⟩ := Option.map_eq_some_iff.mp search.symm
          have sameKey : (p.after s).key = client :=
            (key_of_ident handled.ident).trans (session_key found)
          rw [nodes, Edit.applyNodes, sameKey]
          apply Keyed.modify_keeps Node.key here
          rw [Node.slot, Node.slot, clsock_of_ident handled.ident, ← carried]
      | none =>
        have fresh := proc_fresh host (a.datagram src bytes (a.clientSocket l.kernel).1) found
        generalize l.server.proc host (a.datagram src bytes (a.clientSocket l.kernel).1) client = p
          at nodes kernel fresh
        cases fresh with
        | nothing edit pointer same =>
          rw [edit] at nodes kernel
          exact .kept (congrArg _ nodes) kernel
        | socketless req newsock edit pointer ok same =>
          rw [edit] at nodes kernel
          have none : (a.clientSocket l.kernel).1 = none := newsock
          have slots : (l.pass host a).1.nodes.map Node.slot = (false, -1) :: l.nodes.map Node.slot := by
            rw [nodes]
            rfl
          rcases permitted.clientSocket with ⟨fd, _, _, result⟩ | ⟨k, result, opened, watched, stray⟩
          · rw [result] at none
            cases none
          · rw [result] at kernel
            have ends : (l.pass host a).1.kernel = k := kernel
            exact .socketless slots (ends ▸ opened) (ends ▸ watched) (ends ▸ stray)
        | linked req fd s linked =>
          rw [linked.edit] at nodes kernel
          have newsock : (a.clientSocket l.kernel).1 = some fd := linked.socket
          have socket : s.clsock = fd := clsock_of_ident linked.ident
          rcases permitted.clientSocket with ⟨fd', valid, free, result⟩ | ⟨k, result, _⟩
          · rw [result] at newsock kernel
            cases newsock
            refine .linked fd valid free ?_ kernel
            rw [nodes, ← socket]
            rfl
          · rw [result] at newsock
            cases newsock

/-! ## What is open and what is watched -/

variable {base servers : Finset Int} {wild : List Int} {l' : EventLoop}

/-- The sockets of the sessions are read off their slots. -/
theorem socks_of_slots (l : EventLoop) : l.socks = (l.nodes.map Node.slot).map Prod.snd := by
  rw [List.map_map]
  rfl

/-- The event poll watches the server sockets, and besides them only sockets of sessions whose
flag is set. -/
structure Watching (servers : Finset Int) (l : EventLoop) : Prop where
  always : servers ⊆ l.kernel.watched
  only : ∀ fd ∈ l.kernel.watched, fd ∈ servers ∨ (true, fd) ∈ l.nodes.map Node.slot

/-- The event poll watches the socket of every session whose flag is set. -/
def Complete (l : EventLoop) : Prop :=
  ∀ fd, (true, fd) ∈ l.nodes.map Node.slot → fd ≠ -1 → fd ∈ l.kernel.watched

/-- A pass keeps the account of the open descriptors: what it opens and does not close is the
socket of a session. -/
theorem Pass.holding (passed : Pass wild l l') (holding : Holding base wild l.socks l.kernel) :
    Holding base wild l'.socks l'.kernel := by
  rw [socks_of_slots] at holding ⊢
  cases passed with
  | kept slots kernel =>
    rw [slots, kernel]
    exact holding
  | socketless slots opened watched stray =>
    rw [slots]
    have same := holding.congr opened stray
    refine ⟨?_, same.once, same.apart, same.opened, same.stray⟩
    intro fd member
    rcases List.mem_cons.mp member with rfl | before
    · exact .inl rfl
    · exact same.valid fd before
  | linked fd valid free slots kernel =>
    rw [slots, kernel]
    apply holding.grant valid free
    · rw [List.map_cons, held_of_valid valid]
    · intro fd' member
      exact List.mem_cons.mp member

/-- A pass does not touch the epoll set. -/
theorem Pass.watched (passed : Pass wild l l') : l'.kernel.watched = l.kernel.watched := by
  cases passed with
  | kept slots kernel => rw [kernel]
  | socketless slots opened watched stray => exact watched
  | linked fd valid free slots kernel => rw [kernel, grant_watched]

/-- A pass sets no flag. -/
theorem Pass.flags (passed : Pass wild l l') (fd : Int) :
    (true, fd) ∈ l'.nodes.map Node.slot ↔ (true, fd) ∈ l.nodes.map Node.slot := by
  cases passed with
  | kept slots kernel => rw [slots]
  | socketless slots opened watched stray => simp [slots]
  | linked fd valid free slots kernel => simp [slots]

/-- After a pass what is watched is still a server or a session socket. -/
theorem Pass.watching (passed : Pass wild l l') (watching : Watching servers l) :
    Watching servers l' := by
  constructor
  · rw [passed.watched]
    exact watching.always
  · intro fd member
    rw [passed.watched] at member
    exact (watching.only fd member).imp_right (passed.flags fd).mpr

/-- After a pass whatever was registered still is. -/
theorem Pass.complete (passed : Pass wild l l') (complete : Complete l) : Complete l' := by
  intro fd member socket
  rw [passed.watched]
  exact complete fd ((passed.flags fd).mp member) socket

/-- What the service asks of a new socket follows from what the kernel promises. -/
theorem Holding.admissible {a : Arrival} (holding : Holding base wild l.socks l.kernel)
    (permitted : a.Permitted wild l) : Runs.Admits (step host) Admissible l.server a.events := by
  rw [Arrival.events]
  split
  · trivial
  · rename_i src bytes received
    refine ⟨?_, trivial⟩
    intro fd newsock
    have made : (a.clientSocket l.kernel).1 = some fd := (clientSocket_newsock a l.kernel).trans newsock
    rcases permitted.clientSocket with ⟨fd', valid, free, result⟩ | ⟨k, result, _⟩
    · rw [result] at made
      cases made
      refine ⟨valid, ?_⟩
      intro s member same
      obtain ⟨n, inside, rfl⟩ := List.mem_map.mp member
      have unopened : fd ∉ l.kernel.opened := free
      rw [holding.opened, Finset.mem_union, List.mem_toFinset, mem_held, not_or] at unopened
      exact unopened.2 ⟨same ▸ List.mem_map_of_mem inside, by omega⟩
    · rw [result] at made
      cases made

/-! ## A batch of datagrams -/

/-- What holds at the end of every pass. The server sockets are among the descriptors that are
open besides. -/
structure Balanced (base servers : Finset Int) (wild : List Int) (l : EventLoop) : Prop where
  proper : (-1 : Int) ∉ base
  inBase : servers ⊆ base
  holding : Holding base wild l.socks l.kernel
  watching : Watching servers l

/-- The parts together: a pass keeps the loop balanced. -/
theorem Pass.sound (passed : Pass wild l l') (sound : Balanced base servers wild l) :
    Balanced base servers wild l' :=
  ⟨sound.proper, sound.inBase, passed.holding sound.holding, passed.watching sound.watching⟩

/-- What the kernel may answer during a batch of datagrams. -/
abbrev Permits (host : Host) (wild : List Int) (l : EventLoop) (arrivals : List Arrival) : Prop :=
  Runs.Admits (fun l a => (EventLoop.pass host l a).1) (fun l a => a.Permitted wild l) l arrivals

/-- The passes for the sockets that are ready, as a run of the machine whose step is one pass. -/
theorem passes_fst (l : EventLoop) (arrivals : List Arrival) :
    (l.passes host arrivals).1 = Runs.exec (fun l a => (EventLoop.pass host l a).1) l arrivals := by
  induction arrivals generalizing l with
  | nil => rfl
  | cons a rest inductionHypothesis =>
    simp only [EventLoop.passes, inductionHypothesis]
    rfl

/-- What every permitted pass preserves, a batch preserves. -/
theorem passes_invariant {inv : EventLoop → Prop} {arrivals : List Arrival}
    (permits : Permits host wild l arrivals)
    (preserved : ∀ l l', Pass wild l l' → inv l → inv l') (start : inv l) :
    inv (l.passes host arrivals).1 := by
  rw [passes_fst]
  exact (Runs.reaches_exec permits).invariant
    (fun _ _ holds permitted => preserved _ _ (pass_cases permitted) holds) start

/-- In a balanced loop the sockets that the kernel grants are new to the service, as the service
asks. -/
theorem Balanced.passes_admits {arrivals : List Arrival} (sound : Balanced base servers wild l)
    (permits : Permits host wild l arrivals) :
    Runs.Admits (step host) Admissible l.server (arrivals.flatMap Arrival.events) := by
  induction arrivals generalizing l with
  | nil => trivial
  | cons a rest inductionHypothesis =>
    obtain ⟨permitted, following⟩ := permits
    rw [List.flatMap_cons]
    have later := inductionHypothesis ((pass_cases permitted).sound sound) following
    rw [(pass_follows host l a).server] at later
    exact (sound.holding.admissible permitted).append later

/-! ## The event poll -/

/-- A node after `update_event`: the flag tells whether the session is enabled. -/
def Node.flagged (n : Node) : Node := { n with regevent := !n.ses.disabled }

/-- `update_event` changes of a node only whether its event is registered. -/
theorem update_node (room : Int → Bool) (n : Node) (k : Kernel) : (n.update room k).1 = n.flagged := by
  obtain ⟨ses, regevent⟩ := n
  cases disabled : ses.disabled <;> cases regevent <;> simp [Node.update, Node.flagged, disabled]

/-- The only calls of the kernel are a registration of an enabled session without flag and a
removal of a disabled one with flag. -/
theorem update_kernel (room : Int → Bool) (n : Node) (k : Kernel) :
    (n.ses.disabled = false ∧ n.regevent = false ∧
      (n.update room k).2.1 = (k.watch (room n.ses.clsock) n.ses.clsock).2) ∨
    (n.ses.disabled = true ∧ n.regevent = true ∧ (n.update room k).2.1 = (k.unwatch n.ses.clsock).2) ∨
    (n.ses.disabled ≠ n.regevent ∧ (n.update room k).2.1 = k) := by
  obtain ⟨ses, regevent⟩ := n
  cases disabled : ses.disabled <;> cases regevent <;> simp [Node.update, disabled]

section Update

variable (room : Int → Bool) {nodes : List Node} {k : Kernel}

/-- `update_event` marks the nodes of the list one by one. -/
theorem updateNodes_nodes (nodes : List Node) (k : Kernel) :
    (updateNodes room nodes k).1 = nodes.map Node.flagged := by
  induction nodes generalizing k with
  | nil => rfl
  | cons n rest inductionHypothesis =>
    simp only [updateNodes, update_node, inductionHypothesis, List.map_cons]

/-- `update_event` hands the epoll set on from node to node. -/
theorem updateNodes_kernel (n : Node) (rest : List Node) (k : Kernel) :
    (updateNodes room (n :: rest) k).2.1 = (updateNodes room rest (n.update room k).2.1).2.1 := rfl

/-- `update_event` opens and closes nothing. -/
theorem updateNodes_opened (nodes : List Node) (k : Kernel) :
    (updateNodes room nodes k).2.1.opened = k.opened ∧
      (updateNodes room nodes k).2.1.stray = k.stray := by
  induction nodes generalizing k with
  | nil => exact ⟨rfl, rfl⟩
  | cons n rest inductionHypothesis =>
    rw [updateNodes_kernel, (inductionHypothesis _).1, (inductionHypothesis _).2]
    rcases update_kernel room n k with ⟨_, _, here⟩ | ⟨_, _, here⟩ | ⟨_, here⟩ <;> simp [here]

/-- What is watched afterwards was watched before and belongs to no disabled session with
flag, or is the socket of an enabled session. -/
theorem updateNodes_watched {fd : Int} (member : fd ∈ (updateNodes room nodes k).2.1.watched) :
    (fd ∈ k.watched ∧ ∀ n ∈ nodes, n.ses.disabled = true → n.slot ≠ (true, fd)) ∨
      ∃ n ∈ nodes, n.ses.disabled = false ∧ n.ses.clsock = fd := by
  induction nodes generalizing k with
  | nil => exact .inl ⟨member, by simp⟩
  | cons n rest inductionHypothesis =>
    rw [updateNodes_kernel] at member
    rcases inductionHypothesis member with ⟨before, none⟩ | ⟨m, inRest, facts⟩
    · rcases update_kernel room n k with ⟨enabled, _, here⟩ | ⟨_, _, here⟩ | ⟨differ, here⟩
      · rw [here] at before
        rcases Finset.mem_insert.mp (watch_watched_subset _ _ _ before) with same | old
        · exact .inr ⟨n, List.mem_cons_self, enabled, same.symm⟩
        · refine .inl ⟨old, List.forall_mem_cons.mpr ⟨?_, none⟩⟩
          simp [enabled]
      · rw [here, unwatch_watched, Finset.mem_erase] at before
        refine .inl ⟨before.2, List.forall_mem_cons.mpr ⟨?_, none⟩⟩
        intro _ same
        exact before.1 (Prod.mk.inj same).2.symm
      · rw [here] at before
        refine .inl ⟨before, List.forall_mem_cons.mpr ⟨?_, none⟩⟩
        intro disabled same
        exact differ (disabled.trans (Prod.mk.inj same).1.symm)
    · exact .inr ⟨m, List.mem_cons_of_mem n inRest, facts⟩

/-- What is watched and belongs to no disabled session stays watched. -/
theorem updateNodes_keeps {fd : Int} (member : fd ∈ k.watched)
    (apart : ∀ n ∈ nodes, n.ses.disabled = true → n.ses.clsock ≠ fd) :
    fd ∈ (updateNodes room nodes k).2.1.watched := by
  induction nodes generalizing k with
  | nil => exact member
  | cons n rest inductionHypothesis =>
    rw [updateNodes_kernel]
    have others : ∀ m ∈ rest, m.ses.disabled = true → m.ses.clsock ≠ fd :=
      fun m inRest => apart m (List.mem_cons_of_mem n inRest)
    apply inductionHypothesis _ others
    rcases update_kernel room n k with ⟨_, _, here⟩ | ⟨disabled, _, here⟩ | ⟨_, here⟩
    · rw [here]
      exact watch_watched_mono _ _ _ member
    · rw [here, unwatch_watched, Finset.mem_erase]
      exact ⟨(apart n List.mem_cons_self disabled).symm, member⟩
    · rw [here]
      exact member

/-- Where the kernel has room, every enabled session without flag is registered. -/
theorem updateNodes_adds {fd : Int} (roomy : ∀ fd, room fd = true) (opened : fd ∈ k.opened) {n : Node}
    (member : n ∈ nodes) (enabled : n.ses.disabled = false) (slot : n.slot = (false, fd))
    (apart : ∀ m ∈ nodes, m.ses.disabled = true → m.ses.clsock ≠ fd) :
    fd ∈ (updateNodes room nodes k).2.1.watched := by
  induction nodes generalizing k with
  | nil => cases member
  | cons first rest inductionHypothesis =>
    have others : ∀ m ∈ rest, m.ses.disabled = true → m.ses.clsock ≠ fd :=
      fun m inRest => apart m (List.mem_cons_of_mem first inRest)
    rw [updateNodes_kernel]
    rcases List.mem_cons.mp member with rfl | inRest
    · apply updateNodes_keeps room _ others
      rcases update_kernel room n k with ⟨_, _, here⟩ | ⟨disabled, _, _⟩ | ⟨differ, _⟩
      · have socket : n.ses.clsock = fd := (Prod.mk.inj slot).2
        rw [here, socket, roomy fd]
        by_cases watched : fd ∈ k.watched
        · exact watch_watched_mono _ _ _ watched
        · rw [(watch_of_room opened watched).2]
          exact Finset.mem_insert_self fd k.watched
      · rw [enabled] at disabled
        cases disabled
      · exact absurd (enabled.trans (Prod.mk.inj slot).1.symm) differ
    · apply inductionHypothesis _ inRest others
      rcases update_kernel room first k with ⟨_, _, here⟩ | ⟨_, _, here⟩ | ⟨_, here⟩ <;>
        rw [here] <;> simpa

end Update

/-- A socket belongs to one session. -/
theorem Balanced.distinct (sound : Balanced base servers wild l) {n m : Node} (member : n ∈ l.nodes)
    (other : m ∈ l.nodes) (socket : n.ses.clsock ≠ -1) (same : m.ses.clsock = n.ses.clsock) : m = n := by
  have once := sound.holding.once
  rw [EventLoop.socks, held, List.filter_map] at once
  have inside {n : Node} (member : n ∈ l.nodes) (socket : n.ses.clsock ≠ -1) :
      n ∈ l.nodes.filter ((fun fd => decide (fd ≠ -1)) ∘ fun n => n.ses.clsock) :=
    List.mem_filter.mpr ⟨member, decide_eq_true socket⟩
  exact List.inj_on_of_nodup_map once (inside other (same ▸ socket)) (inside member socket) same

/-- No session holds a server socket. -/
theorem Balanced.no_server (sound : Balanced base servers wild l) {n : Node} (member : n ∈ l.nodes) {fd : Int}
    (server : fd ∈ servers) : n.ses.clsock ≠ fd := by
  intro same
  have inBase : fd ∈ base := sound.inBase server
  have socket : fd ≠ -1 := fun none => sound.proper (none ▸ inBase)
  exact sound.holding.apart fd (mem_held.mpr ⟨same ▸ List.mem_map_of_mem member, socket⟩) inBase

/-- The loop after `update_event`. -/
def EventLoop.updated (room : Int → Bool) (l : EventLoop) : EventLoop :=
  { l with
    nodes := (updateNodes room l.nodes l.kernel).1
    kernel := (updateNodes room l.nodes l.kernel).2.1 }

/-- The sessions have the sockets that they had. -/
theorem updated_socks (room : Int → Bool) (l : EventLoop) : (l.updated room).socks = l.socks := by
  rw [EventLoop.socks, EventLoop.updated, updateNodes_nodes, List.map_map]
  rfl

/-- A node behind `update_event` was one before it. -/
theorem mem_updated {room : Int → Bool} {n : Node} (member : n ∈ (l.updated room).nodes) :
    ∃ m ∈ l.nodes, n = m.flagged := by
  rw [EventLoop.updated, updateNodes_nodes] at member
  obtain ⟨m, inside, same⟩ := List.mem_map.mp member
  exact ⟨m, inside, same.symm⟩

/-- The slot of an enabled session after `update_event`. -/
theorem slot_updated (room : Int → Bool) {n : Node} {fd : Int} (member : n ∈ l.nodes)
    (enabled : n.ses.disabled = false) (socket : n.ses.clsock = fd) :
    (true, fd) ∈ (l.updated room).nodes.map Node.slot := by
  rw [EventLoop.updated, updateNodes_nodes, List.map_map, List.mem_map]
  exact ⟨n, member, by simp [Node.slot, Node.flagged, enabled, socket]⟩

/-- `update_event` keeps the loop balanced, whatever `epoll_ctl` has room for.

Proof: by induction over the list; a socket is added to the epoll set only while it is open, and
taken out when its session is finished or disabled. -/
theorem Balanced.updated (sound : Balanced base servers wild l) (room : Int → Bool) :
    Balanced base servers wild (l.updated room) := by
  obtain ⟨opened, stray⟩ := updateNodes_opened room l.nodes l.kernel
  refine ⟨sound.proper, sound.inBase, ?_, ?_, ?_⟩
  · rw [updated_socks]
    apply sound.holding.congr opened
    intro fd member
    exact .inl (stray ▸ member)
  · intro fd server
    exact updateNodes_keeps room (sound.watching.always server) fun n member _ => sound.no_server member server
  · intro fd member
    rcases updateNodes_watched room member with ⟨before, none⟩ | ⟨n, inside, enabled, socket⟩
    · rcases sound.watching.only fd before with server | flag
      · exact .inl server
      · obtain ⟨n, inside, slot⟩ := List.mem_map.mp flag
        have enabled : n.ses.disabled = false := by
          by_contra disabled
          exact none n inside (by simpa using disabled) slot
        exact .inr (slot_updated room inside enabled (Prod.mk.inj slot).2)
    · exact .inr (slot_updated room inside enabled socket)

/-- Where the kernel has room, the event poll watches every enabled session afterwards. -/
theorem Balanced.updated_complete (sound : Balanced base servers wild l) {room : Int → Bool}
    (roomy : ∀ fd, room fd = true) (complete : Complete l) : Complete (l.updated room) := by
  intro fd flag socket
  obtain ⟨n', member, slot⟩ := List.mem_map.mp flag
  obtain ⟨n, inside, rfl⟩ := mem_updated member
  have enabled : n.ses.disabled = false := by simpa [Node.slot, Node.flagged] using (Prod.mk.inj slot).1
  have here : n.ses.clsock = fd := (Prod.mk.inj slot).2
  have apart : ∀ m ∈ l.nodes, m.ses.disabled = true → m.ses.clsock ≠ fd := by
    intro m other disabled same
    have equal := sound.distinct inside other (here ▸ socket) (same.trans here.symm)
    rw [equal, enabled] at disabled
    cases disabled
  cases flagged : n.regevent with
  | true =>
    apply updateNodes_keeps room _ apart
    exact complete fd (List.mem_map.mpr ⟨n, inside, by rw [Node.slot, flagged, here]⟩) socket
  | false =>
    apply updateNodes_adds room roomy _ inside enabled (by rw [Node.slot, flagged, here]) apart
    rw [sound.holding.opened, Finset.mem_union, List.mem_toFinset]
    exact .inr (mem_held.mpr ⟨here ▸ List.mem_map_of_mem inside, socket⟩)

/-- The flag of every enabled session is set. -/
def Flagged (l : EventLoop) : Prop := ∀ n ∈ l.nodes, n.ses.disabled = false → n.regevent = true

/-- Behind it every node that should be registered is marked so. -/
theorem updated_flagged (room : Int → Bool) (l : EventLoop) : Flagged (l.updated room) := by
  intro n' member enabled
  obtain ⟨n, inside, rfl⟩ := mem_updated member
  have same : n.ses.disabled = false := enabled
  simp [Node.flagged, same]

/-! ## The end of an iteration -/

/-- Under distinct clients, the clean-up closes the sockets of the expired sessions and keeps
the order of the others. -/
theorem cleanupNodes_eq {now : Int} {nodes : List Node} {k : Kernel}
    (distinct : (nodes.map Node.key).Nodup) :
    cleanupNodes now nodes k =
      (nodes.filter (fun n => !n.ses.expired now),
        k.closeAll ((nodes.filter (fun n => n.ses.expired now)).map fun n => n.ses.clsock)) := by
  -- The visited part is already filtered and closed; the part ahead is as it was.
  have visited (before ahead : List Node) (distinct : ((before ++ ahead).map Node.key).Nodup) :
      ahead.foldl
          (fun left pm => if pm.ses.expired now then delNode pm.key left.1 left.2 else left)
          (before.filter (fun n => !n.ses.expired now) ++ ahead,
            k.closeAll ((before.filter (fun n => n.ses.expired now)).map fun n => n.ses.clsock)) =
        ((before ++ ahead).filter (fun n => !n.ses.expired now),
          k.closeAll (((before ++ ahead).filter (fun n => n.ses.expired now)).map
            fun n => n.ses.clsock)) := by
    induction ahead generalizing before with
    | nil => simp
    | cons pm rest inductionHypothesis =>
      have next := inductionHypothesis (before ++ [pm]) (by simpa using distinct)
      rw [List.append_assoc, List.singleton_append] at next
      rw [List.foldl_cons, ← next]
      congr 1
      by_cases expired : pm.ses.expired now = true
      · have apart : ∀ n ∈ before.filter (fun n => !n.ses.expired now), n.key ≠ pm.key := by
          intro n member same
          rw [List.map_append, List.map_cons] at distinct
          have inBefore : n.key ∈ before.map Node.key :=
            List.mem_map_of_mem (List.mem_filter.mp member).1
          exact (List.disjoint_of_nodup_append distinct) inBefore (same ▸ List.mem_cons_self)
        rw [if_pos expired, delNode, Keyed.lookup_append Node.key apart]
        dsimp only
        rw [Keyed.remove_append Node.key apart]
        simp [expired, closeAll_append]
      · simp [expired]
  exact visited [] nodes distinct

/-- A node and what `resend_allsession` makes of it. -/
def Node.Ages (now : Int) (n n' : Node) : Prop := n'.regevent = n.regevent ∧ Aged now n.ses n'.ses

/-- Nodes age as their sessions do. -/
theorem put_ages {now : Int} {nodes : List Node} {sessions : List Session}
    (aged : List.Forall₂ (Aged now) (nodes.map Node.ses) sessions) :
    List.Forall₂ (Node.Ages now) nodes (List.zipWith Node.put nodes sessions) := by
  induction nodes generalizing sessions with
  | nil =>
    rw [List.map_nil, List.forall₂_nil_left_iff] at aged
    subst aged
    exact .nil
  | cons n rest inductionHypothesis =>
    rw [List.map_cons, List.forall₂_cons_left_iff] at aged
    obtain ⟨s, sessions, one, others, rfl⟩ := aged
    exact .cons ⟨rfl, one⟩ (inductionHypothesis others)

/-- Nodes that age keep their clients and their sockets. -/
theorem ages_slots {now : Int} {nodes nodes' : List Node}
    (ages : List.Forall₂ (Node.Ages now) nodes nodes') :
    nodes'.map Node.slot = nodes.map Node.slot ∧ nodes'.map Node.key = nodes.map Node.key := by
  induction ages with
  | nil => exact ⟨rfl, rfl⟩
  | cons one _ inductionHypothesis =>
    have slot := congrArg₂ Prod.mk one.1 (clsock_of_ident one.2.ident)
    have key := key_of_ident one.2.ident
    constructor
    · exact congrArg₂ List.cons slot inductionHypothesis.1
    · exact congrArg₂ List.cons key inductionHypothesis.2

/-- A node that has aged was there before. -/
theorem ages_mem {now : Int} {nodes nodes' : List Node} {n' : Node}
    (ages : List.Forall₂ (Node.Ages now) nodes nodes') (member : n' ∈ nodes') :
    ∃ n ∈ nodes, n.Ages now n' := by
  induction ages with
  | nil => cases member
  | @cons n m nodes nodes' one _ inductionHypothesis =>
    rcases List.mem_cons.mp member with rfl | inRest
    · exact ⟨n, List.mem_cons_self, one⟩
    · obtain ⟨r, old, facts⟩ := inductionHypothesis inRest
      exact ⟨r, List.mem_cons_of_mem n old, facts⟩

/-- The loop after `resend_allsession`. -/
def EventLoop.aged (l : EventLoop) (t : Tick) : EventLoop :=
  { l with
    nodes := List.zipWith Node.put l.nodes (resendAllsession t l.server.seshead
      { l.ads with faults := t.faults, trace := [] } t.addr sockaddrStorage).seshead }

/-- The timer ages the nodes of the loop. -/
theorem aged_ages (l : EventLoop) (t : Tick) :
    List.Forall₂ (Node.Ages t.now) l.nodes (l.aged t).nodes :=
  put_ages (resendAllsession_steps t l.server.seshead
    { l.ads with faults := t.faults, trace := [] } t.addr sockaddrStorage).1

/-- The timer keeps the loop balanced, since it opens and closes nothing. -/
theorem Balanced.aged (sound : Balanced base servers wild l) (t : Tick) :
    Balanced base servers wild (l.aged t) := by
  have slots := (ages_slots (aged_ages l t)).1
  refine ⟨sound.proper, sound.inBase, ?_, sound.watching.always, ?_⟩
  · rw [socks_of_slots, slots, ← socks_of_slots]
    exact sound.holding
  · rw [slots]
    exact sound.watching.only

/-- The clean-up splits the sessions into those that stay and those whose sockets are closed. -/
theorem tick_eq {t : Tick} (distinct : (l.nodes.map Node.key).Nodup) :
    (l.tick t).1.nodes = (l.aged t).nodes.filter (fun n => !n.ses.expired t.now) ∧
      (l.tick t).1.kernel = l.kernel.closeAll
        (((l.aged t).nodes.filter (fun n => n.ses.expired t.now)).map fun n => n.ses.clsock) := by
  have keys : ((l.aged t).nodes.map Node.key).Nodup := by
    rw [(ages_slots (aged_ages l t)).2]
    exact distinct
  have cleaned : cleanupNodes t.now (l.aged t).nodes l.kernel = _ := cleanupNodes_eq keys
  exact ⟨congrArg Prod.fst cleaned, congrArg Prod.snd cleaned⟩

/-- The end of an iteration keeps the loop balanced.

Proof: the sweep closes the socket of every session that it removes, and closing a socket takes it
out of the epoll set. -/
theorem Balanced.tick (sound : Balanced base servers wild l) (distinct : (l.nodes.map Node.key).Nodup)
    (t : Tick) : Balanced base servers wild (l.tick t).1 := by
  have aged := sound.aged t
  obtain ⟨nodes, kernel⟩ := tick_eq (t := t) distinct
  have split : (l.aged t).socks.Perm
      ((((l.aged t).nodes.filter (fun n => n.ses.expired t.now)).map fun n => n.ses.clsock) ++
        (((l.aged t).nodes.filter (fun n => !n.ses.expired t.now)).map fun n => n.ses.clsock)) := by
    rw [← List.map_append]
    exact ((List.filter_append_perm _ _).map _).symm
  have open' : (l.aged t).kernel = l.kernel := rfl
  refine ⟨sound.proper, sound.inBase, ?_, ?_, ?_⟩
  · rw [EventLoop.socks, nodes, kernel]
    exact aged.holding.release sound.proper split
  · intro fd server
    rw [kernel, closeAll_watched, Finset.mem_sdiff, List.mem_toFinset]
    refine ⟨sound.watching.always server, ?_⟩
    intro closed
    obtain ⟨n, member, same⟩ := List.mem_map.mp closed
    exact aged.no_server (List.mem_filter.mp member).1 server same
  · intro fd member
    rw [kernel, closeAll_watched, Finset.mem_sdiff, List.mem_toFinset] at member
    rcases aged.watching.only fd member.1 with server | flag
    · exact .inl server
    · obtain ⟨n, inside, slot⟩ := List.mem_map.mp flag
      have stays : n.ses.expired t.now = false := by
        by_contra expired
        apply member.2
        rw [← (Prod.mk.inj slot).2]
        exact List.mem_map_of_mem (List.mem_filter.mpr ⟨inside, by simpa using expired⟩)
      rw [nodes]
      exact .inr (List.mem_map.mpr ⟨n, List.mem_filter.mpr ⟨inside, by simp [stays]⟩, slot⟩)

/-- The sessions that are left after it are as registered as they were. -/
theorem Balanced.tick_complete (sound : Balanced base servers wild l)
    (distinct : (l.nodes.map Node.key).Nodup) (t : Tick) (complete : Complete l) :
    Complete (l.tick t).1 := by
  have aged := sound.aged t
  obtain ⟨nodes, kernel⟩ := tick_eq (t := t) distinct
  intro fd flag socket
  rw [nodes] at flag
  obtain ⟨n, member, slot⟩ := List.mem_map.mp flag
  obtain ⟨inside, stays⟩ := List.mem_filter.mp member
  have here : n.ses.clsock = fd := (Prod.mk.inj slot).2
  rw [kernel, closeAll_watched, Finset.mem_sdiff, List.mem_toFinset]
  constructor
  · apply complete fd _ socket
    rw [← (ages_slots (aged_ages l t)).1]
    exact List.mem_map.mpr ⟨n, inside, slot⟩
  · intro closed
    obtain ⟨m, expired, same⟩ := List.mem_map.mp closed
    obtain ⟨other, isExpired⟩ := List.mem_filter.mp expired
    have equal := aged.distinct inside other (here ▸ socket) (same.trans here.symm)
    rw [equal] at isExpired
    simp [isExpired] at stays

/-- Every session has been handed to the event poll, and none is disabled. -/
def Registered (l : EventLoop) : Prop :=
  ∀ n ∈ l.nodes, n.regevent = true ∧ n.ses.disabled = false

/-- A node that is registered is marked so. -/
theorem Registered.flagged (registered : Registered l) : Flagged l :=
  fun n member _ => (registered n member).1

/-- After the sweep the sessions that are still running are registered, whatever they were before
the timer. -/
theorem Flagged.tick (flagged : Flagged l) (distinct : (l.nodes.map Node.key).Nodup) (t : Tick) :
    Registered (l.tick t).1 := by
  intro n' member
  rw [(tick_eq (t := t) distinct).1] at member
  obtain ⟨inside, stays⟩ := List.mem_filter.mp member
  obtain ⟨n, old, flag, aged⟩ := ages_mem (aged_ages l t) inside
  have enabled : n'.ses.disabled = false := by
    by_contra disabled
    simp [Session.expired, Bool.eq_true_of_not_eq_false disabled] at stays
  have before : n.ses.disabled = false := by
    by_contra disabled
    rw [aged.disabled (Bool.eq_true_of_not_eq_false disabled)] at enabled
    cases enabled
  exact ⟨flag.trans (flagged n old before), enabled⟩

end Iwtftpd
