import Iwtftpd.Service
import Iwtftpd.Sockets

/-!
# The event loop

`iwtftp_service` on the descriptor table of the process. The loop waits on an
event poll that watches the server sockets and the client sockets of the
sessions; `update_event` registers the sessions that a batch of datagrams has
made. What the kernel answers during an iteration is a part of the iteration.
A session that has no socket keeps the descriptor -1, and the calls of the
kernel made for it fail.

The steps on the session list are those of the service, on nodes that carry
`regevent` besides.
-/

namespace Iwtftpd

open Descriptors

/-- Maximum number of epoll events. -/
abbrev eventsMax : Nat := 34

/-- A session and whether its socket was handed to the event poll. -/
structure Node where
  ses : Session
  regevent : Bool

def Node.key (n : Node) : Client := n.ses.key

/-- What the loop keeps between its passes, with the descriptors of the process. -/
structure EventLoop where
  nodes : List Node
  ads : IWDS
  msg : Bytes
  rbuf : Bytes
  kernel : Kernel

/-- The state of the service, without the descriptors. -/
def EventLoop.server (l : EventLoop) : Server where
  seshead := l.nodes.map Node.ses
  ads := l.ads
  msg := l.msg
  rbuf := l.rbuf

/-! ## One datagram -/

/-- A descriptor that is ready and what the calls made for it answer: `recvfrom` (`none` when
it fails), `getsockname` with `getnameinfo` of the server socket, and `create_socket`. -/
structure Arrival where
  sock : Int
  received : Option (SockAddr × Bytes)
  now : Int
  svname : Option (Family × Bytes)
  answers : Replies
  faults : List Fault

/-- The answers to the call of `create_socket` in `add_newsession`, when it is reached. -/
def Arrival.creation (a : Arrival) : Option Creation :=
  a.svname.map fun svname => a.answers svname.1 (nodeOf svname.2) none

/-- The end of `add_newsession`: the client socket, or `none` when a call fails. -/
def Arrival.clientSocket (a : Arrival) (k : Kernel) : Option Int × Kernel :=
  match a.svname with
  | none => (none, k)
  | some (family, svip) =>
    let made := createSocket a.answers family svip none k
    (if made.1 = -1 then none else some made.1, made.2)

/-- The datagram as the service sees it. -/
def Arrival.datagram (a : Arrival) (src : SockAddr) (bytes : Bytes) (newsock : Option Int) :
    Datagram where
  sock := a.sock
  src := src
  bytes := bytes
  now := a.now
  newsock := newsock
  faults := a.faults

/-- What becomes of the nodes. -/
def Edit.applyNodes : Edit → List Node → List Node
  | .keep, nodes => nodes
  | .update s, nodes => Keyed.modify Node.key s.key (fun n => { n with ses := s }) nodes
  | .insert s, nodes => { ses := s, regevent := false } :: nodes

/-- `add_newsession` links the session before it makes the socket, so every call of it shows
in the list. -/
def Edit.inserts : Edit → Bool
  | .insert _ => true
  | _ => false

/-- One pass of the inner loop. -/
def EventLoop.pass (host : Host) (l : EventLoop) (a : Arrival) : EventLoop × List Sent :=
  match a.received with
  | none => (l, [])
  | some (src, bytes) =>
    let (newsock, kernel) := a.clientSocket l.kernel
    let d := a.datagram src bytes newsock
    let st := l.server.receive d
    match host.client src with
    | none => ({ l with ads := st.ads, rbuf := st.rbuf }, [])
    | some client =>
      let p := l.server.proc host d client
      let msg := p.fill.getD l.msg
      ({ nodes := p.edit.applyNodes l.nodes
         ads := p.ds
         msg := msg
         rbuf := st.rbuf
         kernel := if p.edit.inserts then kernel else l.kernel },
        replyOf p d msg)

/-- The inner loop. -/
def EventLoop.passes (host : Host) : EventLoop → List Arrival → EventLoop × List Sent
  | l, [] => (l, [])
  | l, a :: rest =>
    let (l, sent) := l.pass host a
    let (l, later) := passes host l rest
    (l, sent ++ later)

/-! ## The event poll -/

/-- The body of the first loop of `update_event`; `room` tells whether the kernel has room for
one registration more. The flag follows the attempt, not the success. -/
def Node.update (room : Int → Bool) (n : Node) (k : Kernel) : Node × Kernel × Bool :=
  if n.ses.disabled = false then
    if n.regevent = false then
      let (ok, k) := k.watch (room n.ses.clsock) n.ses.clsock
      ({ n with regevent := true }, k, !ok)
    else (n, k, false)
  else if n.regevent = true then
    let (ok, k) := k.unwatch n.ses.clsock
    ({ n with regevent := false }, k, !ok)
  else (n, k, false)

/-- The first loop of `update_event`, with the descriptors and whether a call failed. -/
def updateNodes (room : Int → Bool) : List Node → Kernel → List Node × Kernel × Bool
  | [], k => ([], k, false)
  | n :: rest, k =>
    let (n, k, failed) := n.update room k
    let (rest, k, later) := updateNodes room rest k
    (n :: rest, k, failed || later)

/-- `update_event`: the nodes, the descriptors and the number of registrations, or `none` when
a call failed. -/
def updateEvent (room : Int → Bool) (nodes : List Node) (k : Kernel) :
    List Node × Kernel × Option Nat :=
  let (nodes, k, failed) := updateNodes room nodes k
  (nodes, k, if failed then none else some (nodes.countP Node.regevent))

/-! ## The end of an iteration -/

/-- `del_session`: the node is unlinked and its socket closed. -/
def delNode (client : Client) (nodes : List Node) (k : Kernel) : List Node × Kernel :=
  match Keyed.lookup Node.key client nodes with
  | none => (nodes, k)
  | some n => (Keyed.remove Node.key client nodes, k.close n.ses.clsock)

/-- `cleanup_session` with the sockets. -/
def cleanupNodes (now : Int) (nodes : List Node) (k : Kernel) : List Node × Kernel :=
  nodes.foldl
    (fun left pm => if pm.ses.expired now then delNode pm.key left.1 left.2 else left) (nodes, k)

/-- `resend_allsession` changes sessions in their nodes. -/
def Node.put (n : Node) (s : Session) : Node := { n with ses := s }

/-- `resend_allsession` and `cleanup_session`. -/
def EventLoop.tick (l : EventLoop) (t : Tick) : EventLoop × List Sent :=
  let r := resendAllsession t l.server.seshead { l.ads with faults := t.faults, trace := [] }
    t.addr sockaddrStorage
  let left := cleanupNodes t.now (List.zipWith Node.put l.nodes r.seshead) l.kernel
  ({ l with nodes := left.1, ads := r.ads, kernel := left.2 }, r.sent)

/-! ## The loop -/

/-- What `epoll_wait` returns: -1 with or without `EINTR`, 0, or the descriptors that are
ready. -/
inductive Poll where
  | interrupted
  | failed
  | timeout
  | ready (arrivals : List Arrival)

/-- An iteration of the outer loop. -/
structure Iteration where
  poll : Poll
  room : Int → Bool
  tick : Tick

/-- The `switch` of the outer loop. -/
def EventLoop.handle (host : Host) (l : EventLoop) (room : Int → Bool) : Poll → EventLoop × List Sent
  | .interrupted => (l, [])
  | .failed => (l, [])
  | .timeout => (l, [])
  | .ready arrivals =>
    let (l, sent) := l.passes host arrivals
    let (nodes, kernel, _) := updateEvent room l.nodes l.kernel
    ({ l with nodes := nodes, kernel := kernel }, sent)

def EventLoop.iterate (host : Host) (l : EventLoop) (it : Iteration) : EventLoop × List Sent :=
  let (l, replies) := l.handle host it.room it.poll
  let (l, resent) := l.tick it.tick
  (l, replies ++ resent)

/-- The outer loop, up to the iteration in which the flag is set. -/
def EventLoop.iterations (host : Host) : EventLoop → List Iteration → EventLoop × List Sent
  | l, [] => (l, [])
  | l, it :: rest =>
    let (l, sent) := l.iterate host it
    let (l, later) := iterations host l rest
    (l, sent ++ later)

/-! ## The whole call -/

/-- What the calls before the loop answer, and what the stack holds. -/
structure Launch where
  epollfd : Option Int
  room : Int → Bool
  msg : Bytes
  rbuf : Bytes

/-- Hand the server sockets to the event poll: how many there are. -/
def addServers (room : Int → Bool) : List Int → Kernel → Nat × Kernel
  | [], k => (0, k)
  | fd :: rest, k =>
    if fd = -1 then addServers room rest k
    else
      let (ok, k) := k.watch (room fd) fd
      let (nevents, k) := addServers room rest k
      (if ok then nevents + 1 else nevents, k)

/-- `del_allsession`. -/
def delAllsession (nodes : List Node) (k : Kernel) : Kernel :=
  k.closeAll (nodes.map fun n => n.ses.clsock)

/-- The end of `iwtftp_service`: what it returns, what it has sent, the slots of the server
sockets, and what is left open. -/
structure Served where
  ok : Bool
  sent : List Sent
  ads : IWDS
  svsocks : List Int
  kernel : Kernel

/-- `iwtftp_service` for an instance without sessions. -/
def iwtftpService (host : Host) (launch : Launch) (svsocks : List Int) (ads : IWDS) (k : Kernel)
    (its : List Iteration) : Served :=
  let closed := svsocks.map fun _ => -1
  match launch.epollfd with
  | none => { ok := false, sent := [], ads := ads, svsocks := closed, kernel := closeServers svsocks k }
  | some epollfd =>
    let (nevents, k) := addServers launch.room svsocks (k.grant epollfd)
    if nevents = 0 then
      { ok := false
        sent := []
        ads := ads
        svsocks := closed
        kernel := closeServers svsocks (k.close epollfd) }
    else
      let l : EventLoop := { nodes := [], ads := ads, msg := launch.msg, rbuf := launch.rbuf, kernel := k }
      let (l, sent) := l.iterations host its
      { ok := true
        sent := sent
        ads := l.ads
        svsocks := closed
        kernel := closeServers svsocks ((delAllsession l.nodes l.kernel).close epollfd) }

/-- `iwtftp_exit`. -/
def iwtftpExit (svsocks : List Int) (nodes : List Node) (k : Kernel) : Kernel :=
  closeServers svsocks (delAllsession nodes k)

end Iwtftpd
