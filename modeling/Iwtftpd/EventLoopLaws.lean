import Iwtftpd.EventLoop
import Iwtftpd.Lib.Outputs
import Iwtftpd.ServiceLaws

/-!
# The event loop is the service

Every run of the event loop on the descriptor table is a run of the service, with
the same messages in the same order: `regevent` and the event poll decide which
datagrams are seen, and nothing else. What the service asks of a new socket, that
no live session holds its descriptor, follows from what the kernel promises.
-/

namespace Iwtftpd

open Descriptors

variable {host : Host}

/-! ## Events of an iteration -/

/-- The descriptor that `create_socket` returns, which does not depend on what is open. -/
def Creation.newsock : Creation → Option Int
  | .bound sock => if sock = -1 then none else some sock
  | _ => none

/-- The socket that the service model is told of: what `create_socket` returned, if
`add_newsession` got as far as calling it. -/
def Arrival.newsock (a : Arrival) : Option Int := a.creation.bind Creation.newsock

/-- What an arrival is to the service: a datagram, or nothing when the address of its sender
cannot be printed or nothing could be received. -/
def Arrival.events (a : Arrival) : List Event :=
  match a.received with
  | none => []
  | some (src, bytes) => [.datagram (a.datagram src bytes a.newsock)]

/-- The events of one return of `epoll_wait`, in the order in which the loop takes the sockets
that are ready. A failure or a timeout brings none. -/
def Poll.events : Poll → List Event
  | .ready arrivals => arrivals.flatMap Arrival.events
  | _ => []

/-- What the service sees of an iteration. -/
def Iteration.events (it : Iteration) : List Event := it.poll.events ++ [.tick it.tick]

/-- Whether `create_socket` has a socket to give does not depend on the table of descriptors, only
on which of its calls failed. -/
theorem finish_newsock (c : Creation) (k : Kernel) :
    (if (c.finish k).1 = -1 then none else some (c.finish k).1) = c.newsock := by
  cases c <;> rfl

/-- The same of the part of `add_newsession` that asks for the address and makes the socket. -/
theorem clientSocket_newsock (a : Arrival) (k : Kernel) : (a.clientSocket k).1 = a.newsock := by
  cases svname : a.svname with
  | none => simp [Arrival.clientSocket, Arrival.newsock, Arrival.creation, svname]
  | some named =>
    simp only [Arrival.clientSocket, Arrival.newsock, Arrival.creation, svname]
    exact finish_newsock (a.answers named.1 (nodeOf named.2) none) k

/-! ## One step -/

/-- A part of the loop does to the service what the events do, and sends what they send. -/
structure Follows (host : Host) (l : EventLoop) (events : List Event) (r : EventLoop × List Sent) :
    Prop where
  server : r.1.server = Runs.exec (step host) l.server events
  sent : r.2 = Runs.outs (step host) (outputs host) l.server events

/-- No event, no message, and the loop is where it was. -/
theorem serves_nothing (host : Host) (l : EventLoop) : Follows host l [] (l, []) := ⟨rfl, rfl⟩

/-- Events after each other: the state goes on where the first have ended, and the messages are
those of both, in order. -/
theorem Follows.append {r r' : EventLoop × List Sent} {before after : List Event}
    (first : Follows host l before r) (second : Follows host r.1 after r') :
    Follows host l (before ++ after) (r'.1, r.2 ++ r'.2) := by
  constructor
  · rw [Runs.exec_append, ← first.server]
    exact second.server
  · rw [Runs.outs_append, ← first.server, first.sent, second.sent]

/-- A node of the loop goes by the client of its session. -/
theorem node_keys (n : Node) : n.key = n.ses.key := rfl

/-- Edits of the list of nodes and of the list of sessions agree; a new node has no event
registered, which the service does not see. -/
theorem applyNodes_ses (e : Edit) (nodes : List Node) :
    (e.applyNodes nodes).map Node.ses = e.apply (nodes.map Node.ses) := by
  cases e with
  | keep => rfl
  | insert s => rfl
  | update s =>
    exact Keyed.modify_map Session.key Node.key node_keys (f := fun n => { n with ses := s })
      (fun _ => rfl) nodes

/-- A pass of the inner loop is a datagram of the service, or nothing.

Proof: the edit of the list, the reply and the datastore come from the same `tftp_proc`; the
socket it is told of is the one made here. -/
theorem pass_follows (host : Host) (l : EventLoop) (a : Arrival) : Follows host l a.events (l.pass host a) := by
  cases received : a.received with
  | none =>
    rw [Arrival.events, EventLoop.pass]
    simp only [received]
    exact serves_nothing host l
  | some r =>
    obtain ⟨src, bytes⟩ := r
    have same := clientSocket_newsock a l.kernel
    have source (newsock : Option Int) : (a.datagram src bytes newsock).src = src := rfl
    rw [Arrival.events, EventLoop.pass]
    simp only [received, same]
    cases named : host.client src with
    | none =>
      have ignored : recv host l.server (a.datagram src bytes a.newsock) = _ := recv_ignored named
      constructor
      · exact (congrArg Prod.fst ignored).symm
      · exact ((congrArg (fun r => r.2 ++ []) ignored).symm : _)
    | some client =>
      have taken : recv host l.server (a.datagram src bytes a.newsock) = _ := recv_eq named
      constructor
      · refine Eq.trans ?_ (congrArg Prod.fst taken).symm
        simp only [EventLoop.server, applyNodes_ses]
      · refine Eq.trans ?_ (congrArg (fun r => r.2 ++ []) taken).symm
        simp only [List.append_nil]
        rfl

/-- So are all the passes for the sockets that are ready, by induction over them. -/
theorem passes_follows (host : Host) (l : EventLoop) (arrivals : List Arrival) :
    Follows host l (arrivals.flatMap Arrival.events) (l.passes host arrivals) := by
  induction arrivals generalizing l with
  | nil => exact serves_nothing host l
  | cons a rest inductionHypothesis =>
    rw [List.flatMap_cons, EventLoop.passes]
    exact (pass_follows host l a).append (inductionHypothesis _)

/-- `update_event` leaves the sessions alone. -/
theorem updateNodes_ses (room : Int → Bool) (nodes : List Node) (k : Kernel) :
    (updateNodes room nodes k).1.map Node.ses = nodes.map Node.ses := by
  induction nodes generalizing k with
  | nil => rfl
  | cons n rest inductionHypothesis =>
    have same : (n.update room k).1.ses = n.ses := by
      unfold Node.update
      split
      · split <;> rfl
      · split <;> rfl
    simp only [updateNodes, List.map_cons, same, inductionHypothesis]

/-- And what one return of `epoll_wait` leads to: without a socket that is ready nothing happens,
and after the passes `update_event` touches no session. -/
theorem handle_follows (host : Host) (l : EventLoop) (room : Int → Bool) (poll : Poll) :
    Follows host l poll.events (l.handle host room poll) := by
  cases poll with
  | interrupted => exact serves_nothing host l
  | failed => exact serves_nothing host l
  | timeout => exact serves_nothing host l
  | ready arrivals =>
    have served := passes_follows host l arrivals
    constructor
    · rw [Poll.events, ← served.server]
      simp only [EventLoop.handle, updateEvent, EventLoop.server, updateNodes_ses]
    · exact served.sent

/-! ## The end of an iteration -/

/-- `del_session` on nodes removes the session from the list; that it closes the socket, too, only
shows in the table. -/
theorem delNode_ses (client : Client) (nodes : List Node) (k : Kernel) :
    (delNode client nodes k).1.map Node.ses = delSession (nodes.map Node.ses) client := by
  rw [delSession, Keyed.remove_map Session.key Node.key node_keys, delNode]
  split
  · rename_i absent
    rw [Keyed.remove_absent Node.key absent]
  · rfl

/-- The sweep over nodes is the sweep over sessions.

Proof: by induction over the list as it was when the sweep began, each pass removing one session
or none. -/
theorem cleanupNodes_ses (now : Int) (nodes : List Node) (k : Kernel) :
    (cleanupNodes now nodes k).1.map Node.ses = cleanupSession now (nodes.map Node.ses) := by
  rw [cleanupNodes, cleanupSession]
  -- The list that is walked and the list that is left are two arguments of the fold.
  have walked (ahead : List Node) (left : List Node × Kernel) :
      (ahead.foldl
          (fun left pm => if pm.ses.expired now then delNode pm.key left.1 left.2 else left) left).1.map
          Node.ses =
        (ahead.map Node.ses).foldl
          (fun rest pm => if pm.expired now then delSession rest pm.key else rest)
          (left.1.map Node.ses) := by
    induction ahead generalizing left with
    | nil => rfl
    | cons pm rest inductionHypothesis =>
      rw [List.foldl_cons, List.map_cons, List.foldl_cons, inductionHypothesis]
      congr 1
      split
      · exact delNode_ses pm.key left.1 left.2
      · rfl
  exact walked nodes (nodes, k)

/-- Sessions put back into their nodes. -/
theorem zipWith_put_ses {nodes : List Node} {sessions : List Session}
    (beside : sessions.length = nodes.length) :
    (List.zipWith Node.put nodes sessions).map Node.ses = sessions := by
  induction nodes generalizing sessions with
  | nil =>
    rw [List.length_nil] at beside
    simp [List.length_eq_zero_iff.mp beside]
  | cons n rest inductionHypothesis =>
    cases sessions with
    | nil => simp at beside
    | cons s sessions =>
      have tail : sessions.length = rest.length := by simpa using beside
      rw [List.zipWith_cons_cons, List.map_cons, inductionHypothesis tail]
      rfl

/-- The end of an iteration is a tick: the same sessions are sent their last message again, and
the same are removed. -/
theorem tick_follows (host : Host) (l : EventLoop) (t : Tick) : Follows host l [.tick t] (l.tick t) := by
  have pairs := (resendAllsession_steps t l.server.seshead
    { l.ads with faults := t.faults, trace := [] } t.addr sockaddrStorage).1
  have beside := pairs.length_eq.symm
  rw [EventLoop.server, List.length_map] at beside
  constructor
  · simp only [EventLoop.tick, EventLoop.server, cleanupNodes_ses, zipWith_put_ses beside]
    rfl
  · rw [Runs.outs_cons, Runs.outs_nil, List.append_nil]
    rfl

/-- An iteration of `iwtftp_service` is a run of the service: the datagrams of its passes, and
then a tick. -/
theorem iterate_follows (host : Host) (l : EventLoop) (it : Iteration) :
    Follows host l it.events (l.iterate host it) :=
  (handle_follows host l it.room it.poll).append (tick_follows host _ it.tick)

/-- Any number of iterations is a run of the service.

Proof: by induction over the iterations; `Follows.append` puts their runs together. -/
theorem iterations_follows (host : Host) (l : EventLoop) (its : List Iteration) :
    Follows host l (its.flatMap Iteration.events) (l.iterations host its) := by
  induction its generalizing l with
  | nil => exact serves_nothing host l
  | cons it rest inductionHypothesis =>
    rw [List.flatMap_cons, EventLoop.iterations]
    exact (iterate_follows host l it).append (inductionHypothesis _)

end Iwtftpd
