import Mathlib.Logic.Function.Basic
import Iwtftpd.Fetching
import Iwtftpd.Lib.Blocks

/-!
# Downloads over a network

Any number of clients download from the server. What was sent stays on the
network for good: it may arrive late, out of order, more than once or never. A
client accepts DATA of the next block from the server's socket of its transfer,
answers with ACK, and repeats its last message whenever it likes.

A client that trusts block numbers has its file in the end if every DATA that
reaches it is the block of its number. The server sees to that in its sound
steps.
-/

namespace Iwtftpd

variable {host : Host} {vol : Volume} {ι : Type}

/-- A client in its transfer: the server's socket, how many blocks it accepted and the bytes in
them, whether the last of them was short, and the message that it repeats. -/
structure Peer where
  tid : Option Int
  count : Nat
  got : Bytes
  finished : Bool
  last : Bytes

def Job.start (job : Job) : Peer where
  tid := none
  count := 0
  got := []
  finished := false
  last := job.request

/-- What a client makes of a message, `none` when it does not accept it. The socket of the transfer
is the one that the first block came from, known here by its descriptor. A client that also tells
it from a later socket with that descriptor is one that does not hear some messages. -/
def Peer.accept (p : Peer) (m : Sent) : Option Peer :=
  match parseTftpdata m.msg m.msg.length with
  | none => none
  | some dat =>
    if p.finished = false ∧ (p.tid = none ∨ p.tid = some m.sock) ∧
        dat.blknum = UInt16.ofNat (p.count + 1) then
      some {
        tid := some m.sock
        count := p.count + 1
        got := p.got ++ dat.data
        finished := decide (dat.data.length < tftpDatalenMax)
        last := ackMsg dat.blknum }
    else none

/-- The server, the clients, and all that was ever sent in either direction. -/
structure Net (ι : Type) where
  server : Server
  peers : ι → Peer
  requests : List (ι × Bytes)
  replies : List Sent

inductive Act (ι : Type) where
  /-- The client sends its message: the request at first, and again after a timeout. -/
  | transmit (i : ι)
  /-- A datagram arrives at the server, or its timer runs. -/
  | serve (e : Event)
  /-- A message of the server arrives at the client. -/
  | hear (i : ι) (m : Sent)

def netStep [DecidableEq ι] (host : Host) (n : Net ι) : Act ι → Net ι
  | .transmit i => { n with requests := (i, (n.peers i).last) :: n.requests }
  | .serve e =>
    { n with server := step host n.server e, replies := outputs host n.server e ++ n.replies }
  | .hear i m =>
    match (n.peers i).accept m with
    | none => n
    | some p =>
      { n with peers := Function.update n.peers i p, requests := (i, p.last) :: n.requests }

/-- What may happen. A message that was sent may arrive where it was sent to; nothing is sent on
socket -1. -/
def May (host : Host) (jobs : ι → Job) (n : Net ι) : Act ι → Prop
  | .transmit _ => True
  | .serve (.datagram d) => Admissible n.server (.datagram d) ∧
      (Stray host jobs d ∨ ∃ i, d.src = (jobs i).src ∧ (i, d.bytes) ∈ n.requests)
  | .serve (.tick t) => Comes host jobs n.server (.tick t)
  | .hear i m => m ∈ n.replies ∧ 0 ≤ m.sock ∧ m.dest = (jobs i).src

/-- Nothing has been sent yet. -/
structure Net.Initial (jobs : ι → Job) (n : Net ι) : Prop where
  server : Iwtftpd.Initial n.server
  peers : ∀ i, n.peers i = (jobs i).start
  requests : n.requests = []
  replies : n.replies = []

/-- Every file has fewer than 65535 blocks. -/
def Short (vol : Volume) (jobs : ι → Job) (disk : Bytes → FileNode) : Prop :=
  ∀ i content, disk (vol.node (jobs i).filename) = .regular content →
    ((jobs i).mode.encode content).length / tftpDatalenMax + 1 < 65535

/-- A client that has accepted a short block has the content of its file, as its mode has it sent. -/
def Fetched (vol : Volume) (jobs : ι → Job) (disk : Bytes → FileNode) (n : Net ι) : Prop :=
  ∀ i, (n.peers i).finished = true →
    ∃ content, disk (vol.node (jobs i).filename) = .regular content ∧
      (n.peers i).got = (jobs i).mode.encode content

/-! ## A client -/

/-- What a client has accepted is the beginning of its file. -/
structure Job.Follows (vol : Volume) (disk : Bytes → FileNode) (job : Job) (p : Peer) : Prop where
  sends : job.Sends p.last
  received : (p.count = 0 ∧ p.got = [] ∧ p.finished = false) ∨
    ∃ content, disk (vol.node job.filename) = .regular content ∧
      Blocks.Received tftpDatalenMax (job.mode.encode content) p.count p.got p.finished

theorem Job.follows_start (vol : Volume) (disk : Bytes → FileNode) (job : Job) :
    job.Follows vol disk job.start :=
  ⟨.inl rfl, .inl ⟨rfl, rfl, rfl⟩⟩

/-- A block of its number keeps a client on its file. -/
theorem Job.Follows.accept {disk : Bytes → FileNode} {job : Job} {p p' : Peer} {m : Sent}
    (follows : job.Follows vol disk p)
    (short : ∀ content, disk (vol.node job.filename) = .regular content →
      (job.mode.encode content).length / tftpDatalenMax + 1 < 65535)
    (fine : job.Fine vol disk m.msg) (accepted : p.accept m = some p') :
    job.Follows vol disk p' := by
  rw [Peer.accept] at accepted
  cases parsed : parseTftpdata m.msg m.msg.length with
  | none =>
    rw [parsed] at accepted
    cases accepted
  | some dat =>
    rw [parsed] at accepted
    dsimp only at accepted
    split at accepted
    · rename_i conditions
      obtain ⟨running, _, number⟩ := conditions
      obtain rfl := Option.some.inj accepted
      obtain ⟨content, i, file, inside, msg⟩ := fine (parseTftpdata_some parsed).2.2.1
      have few := short content file
      have block : dat = { blknum := UInt16.ofNat (i + 1)
                           data := Blocks.block tftpDatalenMax (job.mode.encode content) i } := by
        have size : (Blocks.block tftpDatalenMax (job.mode.encode content) i).length ≤
            tftpDatalenMax := by
          rw [Blocks.block_length]
          exact Nat.min_le_left _ _
        have whole := parseTftpdata_dataMsg (UInt16.ofNat (i + 1)) [] size
        rw [List.append_nil, ← msg, parsed] at whole
        exact Option.some.inj whole
      -- The file is the one the client has the beginning of, also when that is nothing yet.
      have received : Blocks.Received tftpDatalenMax (job.mode.encode content) p.count p.got false := by
        obtain ⟨count, got, _⟩ | ⟨content', file', received⟩ := follows.received
        · rw [count, got]
          exact .nothing _ _
        · obtain rfl := FileNode.regular.inj (file.symm.trans file')
          rw [← running]
          exact received
      have count : i = p.count := by
        have more := received.more (by decide)
        rw [block] at number
        have same := ofNat_inj (by omega) (by omega) number
        omega
      subst count
      have next := received.next
      rw [block]
      refine ⟨.inr ⟨p.count + 1, Nat.succ_pos _, ?_, rfl⟩, .inr ⟨content, file, next⟩⟩
      omega
    · cases accepted

/-! ## All of them -/

/-- The server serves, the clients follow, and what is on the network may be trusted. -/
structure Agrees (host : Host) (jobs : ι → Job) (disk : Bytes → FileNode) (n : Net ι) : Prop where
  service : InService host jobs disk n.server
  follows : ∀ i, (jobs i).Follows host.toVolume disk (n.peers i)
  requests : ∀ i bytes, (i, bytes) ∈ n.requests → (jobs i).Sends bytes
  replies : ∀ m ∈ n.replies, ∀ i, 0 ≤ m.sock → m.dest = (jobs i).src →
    (jobs i).Fine host.toVolume disk m.msg

/-- What may happen, with the server's step a sound one. -/
def Careful (host : Host) (jobs : ι → Job) (n : Net ι) (a : Act ι) : Prop :=
  May host jobs n a ∧ ∀ e, a = .serve e → Sound host n.server e

theorem Net.Initial.agrees {jobs : ι → Job} {n : Net ι} (initial : n.Initial jobs) :
    Agrees host jobs n.server.ads.disk n where
  service := by
    have nobody (c : Client) : getSession n.server.seshead c = none := by
      rw [initial.server.1]
      rfl
    refine ⟨initial.server.wellFormed, rfl, ?_, ?_⟩
    · intro c s found
      rw [nobody c] at found
      cases found
    · intro _ c s _ found
      rw [nobody c] at found
      cases found
  follows := by
    intro i
    rw [initial.peers i]
    exact Job.follows_start _ _ _
  requests := by
    rw [initial.requests]
    nofun
  replies := by
    rw [initial.replies]
    nofun

theorem Agrees.step [DecidableEq ι] {jobs : ι → Job} {disk : Bytes → FileNode} {n : Net ι} {a : Act ι}
    (group : Group host jobs) (short : Short host.toVolume jobs disk)
    (agrees : Agrees host jobs disk n) (careful : Careful host jobs n a) :
    Agrees host jobs disk (netStep host n a) := by
  obtain ⟨may, sound⟩ := careful
  cases a with
  | transmit i =>
    refine ⟨agrees.service, agrees.follows, ?_, agrees.replies⟩
    rintro j bytes (_ | ⟨_, member⟩)
    · exact (agrees.follows i).sends
    · exact agrees.requests j bytes member
  | serve e =>
    have comes : Admissible n.server e ∧ Comes host jobs n.server e := by
      cases e with
      | tick t => exact ⟨trivial, may⟩
      | datagram d =>
        obtain ⟨admissible, stray | ⟨i, src, sent⟩⟩ := may
        · exact ⟨admissible, .inl stray⟩
        · exact ⟨admissible, .inr ⟨i, src, agrees.requests i d.bytes sent⟩⟩
    obtain ⟨service, sends⟩ := agrees.service.step group comes.1 comes.2 (sound e rfl)
    refine ⟨service, agrees.follows, agrees.requests, ?_⟩
    intro m member i socket dest
    obtain new | old := List.mem_append.mp member
    · rw [← agrees.service.disk]
      exact sends m new i socket dest
    · exact agrees.replies m old i socket dest
  | hear i m =>
    obtain ⟨sent, socket, dest⟩ := may
    rw [netStep]
    cases accepted : (n.peers i).accept m with
    | none => exact agrees
    | some p =>
      have follows := (agrees.follows i).accept (short i) (agrees.replies m sent i socket dest) accepted
      refine ⟨agrees.service, ?_, ?_, agrees.replies⟩
      · intro j
        dsimp only
        by_cases same : j = i
        · rw [same, Function.update_self]
          exact follows
        · rw [Function.update_of_ne same]
          exact agrees.follows j
      · rintro j bytes (_ | ⟨_, member⟩)
        · exact follows.sends
        · exact agrees.requests j bytes member

/-- In every run whose steps are sound, a client that has accepted a short block has its file.

Proof: what a client has received is the front of what its session has sent, and that is the front
of the encoding of its file. Every step keeps this: the client accepts only the block it waits
for, and a careful step sends it no other of that number. -/
theorem files_fetched [DecidableEq ι] {jobs : ι → Job} {start n : Net ι} (group : Group host jobs)
    (short : Short host.toVolume jobs start.server.ads.disk) (initial : start.Initial jobs)
    (run : Runs.Reaches (netStep host) (Careful host jobs) start n) :
    Fetched host.toVolume jobs start.server.ads.disk n := by
  have agrees : Agrees host jobs start.server.ads.disk n :=
    run.invariant (fun _ _ agrees careful => agrees.step group short careful) initial.agrees
  intro i finished
  obtain ⟨_, _, running⟩ | ⟨content, file, received⟩ := (agrees.follows i).received
  · rw [finished] at running
    cases running
  · rw [finished] at received
    exact ⟨content, file, received.whole⟩

/-- A network around a server that has just started on a disk. -/
def netOn (jobs : ι → Job) (disk : Bytes → FileNode) : Net ι where
  server := startOn disk
  peers := fun i => (jobs i).start
  requests := []
  replies := []

theorem netOn_initial (jobs : ι → Job) (disk : Bytes → FileNode) : (netOn jobs disk).Initial jobs :=
  ⟨startOn_initial disk, fun _ => rfl, rfl, rfl⟩

/-- A message of a client arrives. -/
theorem may_arrive {jobs : ι → Job} {n : Net ι} {d : Datagram} (i : ι) (src : d.src = (jobs i).src)
    (sent : (i, d.bytes) ∈ n.requests)
    (fresh : ∀ fd, d.newsock = some fd → 0 ≤ fd ∧ ∀ s ∈ n.server.seshead, s.clsock ≠ fd) :
    May host jobs n (.serve (.datagram d)) :=
  ⟨fresh, .inr ⟨i, src, sent⟩⟩

/-- The first datagram after the start is handled soundly. -/
theorem sound_first {st : Server} {d : Datagram} (empty : st.seshead = [])
    (closed : st.ads.dhead = []) : Sound host st (.datagram d) where
  own := by
    intro _ c s _ _ found
    rw [empty] at found
    cases found
  unread := by
    rintro _ _ _ _ _ _ _ _ fd n content _ node
    rw [IWDS.at, closed] at node
    cases node
  uncut := nofun

/-- One client that is after the file. -/
def oneJob : Unit → Job := fun _ => { src := [1], filename := [102], mode := .octet }

/-- It asks, and what it is answered arrives. -/
def briefFetch : List (Act Unit) :=
  [.transmit (), .serve (.datagram (fileRequest [1])),
    .hear () { sock := 5, dest := [1], msg := dataMsg 1 [7, 8], ses := some ([1], 2000) }]

theorem files_fetched_sample :
    ((Runs.exec (netStep smallHost) (netOn oneJob (diskWith [102] [7, 8])) briefFetch).peers
        ()).finished = true ∧
      Fetched smallHost.toVolume oneJob (diskWith [102] [7, 8])
        (Runs.exec (netStep smallHost) (netOn oneJob (diskWith [102] [7, 8])) briefFetch) := by
  have name : (0 : UInt8) ∉ [102] := by decide
  have group : Group smallHost oneJob := ⟨fun _ _ _ _ _ => rfl, fun _ => name⟩
  have short : Short smallHost.toVolume oneJob (diskWith [102] [7, 8]) := by
    rintro _ content file
    obtain rfl : [7, 8] = content := FileNode.regular.inj file
    exact (by decide : [7, 8].length / tftpDatalenMax + 1 < 65535)
  have admits : Runs.Admits (netStep smallHost) (Careful smallHost oneJob)
      (netOn oneJob (diskWith [102] [7, 8])) briefFetch := by
    refine ⟨⟨trivial, nofun⟩, ⟨may_arrive () rfl (by decide) ?_, ?_⟩, ⟨⟨?_, by decide, rfl⟩, nofun⟩,
      trivial⟩
    · exact admissible_first rfl rfl (by decide)
    · rintro _ ⟨⟩
      exact sound_first rfl rfl
    · decide +kernel
  constructor
  · decide +kernel
  · exact files_fetched group short (netOn_initial _ _) (Runs.reaches_exec admits)

/-- Whatever happens, a client that has accepted a short block has its file. -/
def FilesFetched (host : Host) : Prop :=
  ∀ (ι : Type) [DecidableEq ι] (jobs : ι → Job) (start n : Net ι), Group host jobs →
    Short host.toVolume jobs start.server.ads.disk → start.Initial jobs →
    Runs.Reaches (netStep host) (May host jobs) start n →
    Fetched host.toVolume jobs start.server.ads.disk n

/-- Two clients after two files, each of two whole blocks and one byte. -/
def twoJobs : Bool → Job
  | false => { src := [1], filename := [97], mode := .octet }
  | true => { src := [2], filename := [98], mode := .octet }

def fileOf (i : Bool) : Bytes := List.replicate 1025 (if i then 2 else 1)

def twoFiles (place : Bytes) : FileNode :=
  if place = [slash, 97] then .regular (fileOf false)
  else if place = [slash, 98] then .regular (fileOf true)
  else .absent

/-- The datagram of a client, with the descriptor of its socket. -/
def fromClient (i : Bool) (bytes : Bytes) (newsock : Option Int) : Act Bool :=
  .serve (.datagram (arrival (twoJobs i).src bytes newsock))

/-- A block of the second argument's file, sent to the client of the first. -/
def blockFor (i file : Bool) (number : Nat) : Sent where
  sock := if i then 6 else 5
  dest := (twoJobs i).src
  msg := dataMsg (UInt16.ofNat (number + 1)) (Blocks.block tftpDatalenMax (fileOf file) number)
  ses := some ((twoJobs i).src, 2000)

/-- The client asks and gets two blocks; the third is lost. -/
def allButLast (i : Bool) : List (Act Bool) :=
  [.transmit i, fromClient i (twoJobs i).request (some (if i then 6 else 5)),
    .hear i (blockFor i i 0), fromClient i (ackMsg 1) none, .hear i (blockFor i i 1),
    fromClient i (ackMsg 2) none]

/-- Both clients miss their third blocks. Then the first one's ACK 1 arrives once more. -/
def delayedAck : List (Act Bool) :=
  allButLast false ++ allButLast true ++
    [fromClient false (ackMsg 1) none, .hear false (blockFor false true 2)]

/-- The network after the first events of the run. -/
def delayedAt (count : Nat) : Net Bool :=
  Runs.exec (netStep smallHost) (netOn twoJobs twoFiles) (delayedAck.take count)

theorem delayedAck_admits :
    Runs.Admits (netStep smallHost) (May smallHost twoJobs) (netOn twoJobs twoFiles) delayedAck := by
  have facts : (∀ s ∈ (delayedAt 7).server.seshead, s.clsock ≠ 6) ∧
      blockFor false false 0 ∈ (delayedAt 2).replies ∧
      blockFor false false 1 ∈ (delayedAt 4).replies ∧
      blockFor true true 0 ∈ (delayedAt 8).replies ∧
      blockFor true true 1 ∈ (delayedAt 10).replies ∧
      blockFor false true 2 ∈ (delayedAt 13).replies := by decide +kernel
  obtain ⟨free, first, second, third, fourth, last⟩ := facts
  refine ⟨trivial, may_arrive false rfl (by decide +kernel) (admissible_first rfl rfl (by decide)),
    ⟨first, by decide, rfl⟩, may_arrive false rfl (by decide +kernel) nofun,
    ⟨second, by decide, rfl⟩, may_arrive false rfl (by decide +kernel) nofun, trivial,
    may_arrive true rfl (by decide +kernel) ?_, ⟨third, by decide, rfl⟩,
    may_arrive true rfl (by decide +kernel) nofun, ⟨fourth, by decide, rfl⟩,
    may_arrive true rfl (by decide +kernel) nofun,
    may_arrive false rfl (by decide +kernel) nofun, ⟨last, by decide, rfl⟩, trivial⟩
  rintro _ ⟨⟩
  exact ⟨by decide, free⟩

/-- The first client is sent, and accepts, the end of the second one's file. -/
theorem files_not_fetched : ¬ FilesFetched smallHost := by
  intro fetched
  have named (i : Bool) : smallHost.client (twoJobs i).src = some ((twoJobs i).src, 2000) := by
    cases i <;> rfl
  have group : Group smallHost twoJobs := by
    constructor
    · intro i j c left right
      have same : (twoJobs i).src = (twoJobs j).src :=
        congrArg Prod.fst (Option.some.inj ((named i).symm.trans (left.trans (right.symm.trans (named j)))))
      cases i <;> cases j
      · rfl
      · cases same
      · cases same
      · rfl
    · intro i
      cases i
      · exact (by decide : (0 : UInt8) ∉ [97])
      · exact (by decide : (0 : UInt8) ∉ [98])
  have held (i : Bool) : twoFiles (smallHost.toVolume.node (twoJobs i).filename) =
      .regular (fileOf i) := by
    cases i <;> rfl
  have short : Short smallHost.toVolume twoJobs twoFiles := by
    intro i content file
    obtain rfl := FileNode.regular.inj ((held i).symm.trans file)
    have octet : (twoJobs i).mode.encode (fileOf i) = fileOf i := by cases i <;> rfl
    rw [octet, fileOf, List.length_replicate]
    decide
  have run := Runs.reaches_exec delayedAck_admits
  have finished : ((Runs.exec (netStep smallHost) (netOn twoJobs twoFiles) delayedAck).peers
      false).finished = true := by decide +kernel
  have other : ((Runs.exec (netStep smallHost) (netOn twoJobs twoFiles) delayedAck).peers
      false).got ≠ fileOf false := by decide +kernel
  obtain ⟨content, file, got⟩ := fetched Bool twoJobs _ _ group short (netOn_initial _ _) run false finished
  obtain rfl := FileNode.regular.inj ((held false).symm.trans file)
  exact other got

end Iwtftpd
