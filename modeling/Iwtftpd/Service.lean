import Mathlib.Algebra.Group.Int.Defs
import Iwtftpd.Lib.Runs
import Iwtftpd.TftpProc

/-!
# TFTP service

The event loop of `iwtftp_service` as a machine. A datagram is one pass of the
inner loop: `recvfrom`, `tftp_proc` and the reply. A tick is the end of an
iteration of the outer loop: `resend_allsession` and `cleanup_session`. One
iteration is any number of datagrams followed by a tick, so every run of the
loop is a sequence of the two events.

An event carries what the kernel answers during its step: the time, the
descriptor of a new client socket, the names of sockets and the faults of
stdio. A new socket never gets a descriptor that a live session holds; a
descriptor that was closed may come back.
-/

namespace Iwtftpd

/-- Interval of resending (sec). -/
abbrev resendInterval : Int := 10

/-- Time of waiting for closing the finished session. -/
abbrev sessionClosewait : Int := 15

/-- Size of buffer for send/recv. -/
abbrev nwbufSize : Nat := 1024

/-- Maximum length of IP address string. -/
abbrev ipaddrlenMax : Nat := 62

/-- The bytes of a `sockaddr`. -/
abbrev SockAddr := Bytes

/-- The volume and the numeric form of addresses: `getnameinfo` and `atoi`. -/
structure Host extends Volume where
  nameinfo : SockAddr → Option Client

/-- The state that the loop keeps between its passes: the session list, the
datastore, the message that `sinfo` was last filled with, and `rbuf`. -/
structure Server where
  seshead : List Session
  ads : IWDS
  msg : Bytes
  rbuf : Bytes

/-- A datagram on one of the sockets. -/
structure Datagram where
  sock : Int
  src : SockAddr
  bytes : Bytes
  now : Int
  newsock : Option Int
  faults : List Fault

/-- The end of an iteration. `addr` is what the stack holds where
`resend_allsession` keeps an address. -/
structure Tick where
  now : Int
  sockname : Int → Option SockAddr
  addr : Bytes
  faults : List Fault

/-- A call of `sendto`, with the session it is made for. -/
structure Sent where
  sock : Int
  dest : SockAddr
  msg : Bytes
  ses : Option Client
deriving DecidableEq

/-! ## The session list -/

def getSession (head : List Session) (client : Client) : Option Session :=
  Keyed.lookup Session.key client head

def delSession (head : List Session) (client : Client) : List Session :=
  Keyed.remove Session.key client head

def Edit.apply : Edit → List Session → List Session
  | .keep, head => head
  | .update s, head => Keyed.store Session.key s head
  | .insert s, head => s :: head

/-- `(int32_t)difftime(now, last)`. The conversion of a difference that an `int32_t` cannot
hold stores the least one. -/
def difftime (now last : Int) : Int :=
  if -2 ^ 31 ≤ now - last ∧ now - last < 2 ^ 31 then now - last else -2 ^ 31

/-- The sessions that `cleanup_session` removes. -/
def Session.expired (now : Int) (s : Session) : Bool :=
  s.disabled || (s.fin && decide (sessionClosewait < difftime now s.lastsending))

/-- `cleanup_session` visits the nodes in order and deletes by key. -/
def cleanupSession (now : Int) (head : List Session) : List Session :=
  head.foldl (fun rest pm => if pm.expired now then delSession rest pm.key else rest) head

/-! ## One datagram -/

/-- The address and the port of the sender, where they fit a session. -/
def Host.client (host : Host) (src : SockAddr) : Option Client :=
  match host.nameinfo src with
  | none => none
  | some client => if ipaddrlenMax < client.1.length + 1 then none else some client

/-- `recvfrom` into `rbuf`, which keeps its old bytes past the datagram. -/
def Server.receive (st : Server) (d : Datagram) : Server :=
  { st with
    rbuf := d.bytes.take nwbufSize ++ st.rbuf.drop d.bytes.length
    ads := { st.ads with faults := d.faults, trace := [] } }

/-- What `recvfrom` returns. -/
def Datagram.len (d : Datagram) : Nat := min d.bytes.length nwbufSize

/-- The call of `tftp_proc` for a datagram of a client. -/
def Server.proc (host : Host) (st : Server) (d : Datagram) (client : Client) : Proc :=
  let st := st.receive d
  tftpProc host.toVolume (getSession st.seshead client) st.ads st.rbuf d.len client d.now d.newsock

/-- The reply, when one is sent. -/
def replyOf (p : Proc) (d : Datagram) (msg : Bytes) : List Sent :=
  if p.ok = false then []
  else
    match p.ses with
    | some ses =>
      if ses.disabled then []
      else [{ sock := ses.clsock, dest := d.src, msg := msg, ses := some ses.key }]
    | none => [{ sock := d.sock, dest := d.src, msg := msg, ses := none }]

/-- One pass of the inner loop. -/
def recv (host : Host) (st : Server) (d : Datagram) : Server × List Sent :=
  match host.client d.src with
  | none => (st.receive d, [])
  | some client =>
    let p := st.proc host d client
    let msg := p.fill.getD st.msg
    ({ st.receive d with seshead := p.edit.apply st.seshead, ads := p.ds, msg := msg },
      replyOf p d msg)

/-! ## The end of an iteration -/

/-- `getsockname`; a session without a socket has none. -/
def Tick.getsockname (t : Tick) (fd : Int) : Option SockAddr :=
  if fd < 0 then none else t.sockname fd

/-- What `resend_allsession` leaves behind. -/
structure Resent where
  seshead : List Session
  ads : IWDS
  sent : List Sent

def Resent.cons (pm : Session) (r : Resent) : Resent := { r with seshead := pm :: r.seshead }

/-- The loop of `resend_allsession`. The address and its length are shared by all
passes: `getsockname` stores at most `addrlen` bytes and leaves in `addrlen` the
length of the name. -/
def resendAllsession (t : Tick) : List Session → IWDS → Bytes → Nat → Resent
  | [], ads, _, _ => { seshead := [], ads := ads, sent := [] }
  | pm :: rest, ads, addr, addrlen =>
    if difftime t.now pm.lastsending ≤ resendInterval then
      (resendAllsession t rest ads addr addrlen).cons pm
    else if pm.fin = true ∨ pm.disabled = true then
      (resendAllsession t rest ads addr addrlen).cons pm
    else if resendCountmax ≤ pm.retrycount then
      let pm := { pm with disabled := true }
      (resendAllsession t rest (closeData pm ads) addr addrlen).cons pm
    else
      match t.getsockname pm.clsock with
      | none => (resendAllsession t rest ads addr addrlen).cons pm
      | some name =>
        let addr := name.take addrlen ++ addr.drop (min name.length addrlen)
        let pm := { pm with retrycount := pm.retrycount + 1, lastsending := t.now }
        let r := (resendAllsession t rest ads addr name.length).cons pm
        { r with sent :=
            { sock := pm.clsock, dest := addr.take name.length, msg := pm.lastmsg,
              ses := some pm.key } :: r.sent }

/-- `sizeof addr`. -/
abbrev sockaddrStorage : Nat := 128

/-- The end of an iteration of the event loop. -/
def endIteration (st : Server) (t : Tick) : Server × List Sent :=
  let r := resendAllsession t st.seshead { st.ads with faults := t.faults, trace := [] }
    t.addr sockaddrStorage
  ({ st with seshead := cleanupSession t.now r.seshead, ads := r.ads }, r.sent)

/-! ## Runs -/

inductive Event where
  | datagram (d : Datagram)
  | tick (t : Tick)

/-- One step of the service and what it sends. -/
def serve (host : Host) (st : Server) : Event → Server × List Sent
  | .datagram d => recv host st d
  | .tick t => endIteration st t

def step (host : Host) (st : Server) (e : Event) : Server := (serve host st e).1

/-- The messages sent in a step. -/
def outputs (host : Host) (st : Server) (e : Event) : List Sent := (serve host st e).2

/-- The kernel gives a new socket a descriptor that no live session holds. -/
def Admissible (st : Server) : Event → Prop
  | .datagram d => ∀ fd, d.newsock = some fd → 0 ≤ fd ∧ ∀ s ∈ st.seshead, s.clsock ≠ fd
  | .tick _ => True

/-- The service starts without sessions; `sinfo` and `rbuf` hold whatever the stack
held. -/
def Initial (st : Server) : Prop :=
  st.seshead = [] ∧ st.ads.dhead = [] ∧ st.rbuf.length = nwbufSize

/-- The states of the runs of the service. -/
def Reachable (host : Host) (st : Server) : Prop :=
  ∃ start, Initial start ∧ Runs.Reaches (step host) Admissible start st

/-! ## A small host

Concrete runs below take place on this host: its volume is the root directory, its
paths are their own places, and a client is an address at one port. -/

def smallHost : Host where
  dspath := [slash]
  namei := id
  nameinfo := fun src => some (src, 2000)

/-- The service on a disk, before anything has arrived. -/
def startOn (disk : Bytes → FileNode) : Server where
  seshead := []
  ads := { dhead := [], disk := disk, faults := [], trace := [] }
  msg := []
  rbuf := List.replicate nwbufSize 0

/-- A disk with one regular file. -/
def diskWith (name content : Bytes) : Bytes → FileNode := fun place =>
  if place = slash :: name then .regular content else .absent

/-- A disk with a device and nothing else on it. -/
def deviceOn (name : Bytes) : Bytes → FileNode := fun place =>
  if place = slash :: name then .device else .absent

/-- A datagram that arrives at the server's socket, with the descriptor for a new socket. -/
def arrival (src : SockAddr) (bytes : Bytes) (newsock : Option Int) : Datagram where
  sock := 3
  src := src
  bytes := bytes
  now := 0
  newsock := newsock
  faults := []

theorem startOn_initial (disk : Bytes → FileNode) : Initial (startOn disk) :=
  ⟨rfl, rfl, List.length_replicate⟩

theorem startOn_reachable (host : Host) (disk : Bytes → FileNode) :
    Reachable host (startOn disk) := ⟨_, startOn_initial disk, .refl _⟩

end Iwtftpd
