import Iwtftpd.Sending

/-!
# An ACK that is delivered twice

One client downloads a file over channels that lose and reorder nothing, and
answers every DATA it is sent, repeated or not. One ACK is delivered twice. The
second copy is the ACK of the block before, so the last message is sent again;
the client acknowledges that copy too, and from then on every block is sent and
acknowledged twice, to the end of the file. The retries do not stop it, since a
new block starts them anew.
-/

namespace Iwtftpd

variable {host : Host}

/-! ## Two parties and the channels between them -/

/-- The server and what is on its way, oldest first: ACKs to the server, messages to the client. For
the record, the number of DATA sent and of ACKs that have arrived, and which of these, counted from
1, was delivered twice. -/
structure Link where
  server : Server
  up : List Bytes
  down : List Bytes
  sent : Nat
  acked : Nat
  doubled : Option Nat

/-- What happens between the client and the server. -/
inductive Hop where
  /-- The oldest ACK arrives. -/
  | reach (d : Datagram)
  /-- The oldest ACK arrives, and a copy of it is still to come. -/
  | twice (d : Datagram)
  /-- The oldest message reaches the client, who acknowledges DATA. -/
  | answer
  | tick (t : Tick)

/-- The server sends messages to the client. -/
def Link.emit (l : Link) (server : Server) (msgs : List Bytes) : Link :=
  { l with
    server := server
    down := l.down ++ msgs
    sent := l.sent + msgs.countP fun m => opcodeOf m = opData }

/-- The arrival of a datagram, with what it is answered. -/
def Link.arrive (host : Host) (l : Link) (d : Datagram) : Link :=
  l.emit (step host l.server (.datagram d)) ((outputs host l.server (.datagram d)).map Sent.msg)

/-- The link after a hop. What the server sends joins the messages on their way down, and the DATA
among it are counted. -/
def hop (host : Host) (c : Client) (l : Link) : Hop → Link
  | .reach d => { l.arrive host d with up := l.up.tail, acked := l.acked + 1 }
  | .twice d => { l.arrive host d with acked := l.acked + 1, doubled := some (l.acked + 1) }
  | .answer =>
    match l.down with
    | [] => l
    | m :: rest =>
      { l with
        down := rest
        up := if opcodeOf m = opData then l.up ++ [ackMsg (ofBe16 (m.drop 2))] else l.up }
  | .tick t =>
    l.emit (step host l.server (.tick t))
      (((outputs host l.server (.tick t)).filter fun m => m.ses = some c).map Sent.msg)

/-- What is delivered is the oldest ACK, one at most is delivered twice, and nothing times out. -/
def Orderly (host : Host) (c : Client) (l : Link) : Hop → Prop
  | .reach d => l.up.head? = some d.bytes ∧ Smooth host c l.server d
  | .twice d => l.up.head? = some d.bytes ∧ Smooth host c l.server d ∧ l.doubled = none
  | .answer => l.down ≠ []
  | .tick t => t.Quiet l.server.seshead

/-- The request has just arrived. -/
def requested (host : Host) (st : Server) (d : Datagram) : Link :=
  Link.arrive host { server := st, up := [], down := [], sent := 0, acked := 0, doubled := none } d

/-- The transfer is through: nothing is on its way. -/
def Link.Through (l : Link) : Prop := l.up = [] ∧ l.down = []

/-- ACK and DATA of these blocks are on their way, in the order in which they concern the server. -/
def InFlight (encoded : Bytes) (up down : List Bytes) (blocks : List Nat) : Prop :=
  ∃ acks datas, up = acks.map (fun b => ackMsg (UInt16.ofNat b)) ∧
    down = datas.map (blockMsg encoded) ∧ acks ++ datas = blocks

/-- The client acknowledges the oldest message, and then that ACK is on its way instead. -/
theorem InFlight.answer {encoded m : Bytes} {up rest : List Bytes} {blocks : List Nat}
    (carries : InFlight encoded up (m :: rest) blocks) :
    opcodeOf m = opData ∧ InFlight encoded (up ++ [ackMsg (ofBe16 (m.drop 2))]) rest blocks := by
  obtain ⟨acks, _ | ⟨b, datas⟩, rfl, down, rfl⟩ := carries
  · cases down
  · obtain ⟨rfl, rfl⟩ := List.cons.inj down
    refine ⟨opcodeOf_dataMsg _ _, acks ++ [b], datas, ?_, rfl, by simp⟩
    rw [blockMsg, blockOf_dataMsg, List.map_append]
    rfl

/-- The oldest ACK on its way is that of the first block in flight. -/
theorem InFlight.head {encoded bytes : Bytes} {up down : List Bytes} {b : Nat} {rest : List Nat}
    (carries : InFlight encoded up down (b :: rest)) (oldest : up.head? = some bytes) :
    bytes = ackMsg (UInt16.ofNat b) := by
  obtain ⟨_ | ⟨a, acks⟩, datas, rfl, -, order⟩ := carries
  · cases oldest
  · obtain ⟨rfl, -⟩ := List.cons.inj order
    exact (Option.some.inj oldest).symm

/-- When it arrives the block is no longer in flight. -/
theorem InFlight.reach {encoded bytes : Bytes} {up down : List Bytes} {b : Nat} {rest : List Nat}
    (carries : InFlight encoded up down (b :: rest)) (oldest : up.head? = some bytes) :
    InFlight encoded up.tail down rest := by
  obtain ⟨_ | ⟨a, acks⟩, datas, rfl, rfl, order⟩ := carries
  · cases oldest
  · obtain ⟨rfl, rfl⟩ := List.cons.inj order
    exact ⟨acks, datas, rfl, rfl, rfl⟩

/-- A block that is sent is in flight behind the others. -/
theorem InFlight.send {encoded : Bytes} {up down : List Bytes} {blocks : List Nat}
    (carries : InFlight encoded up down blocks) (b : Nat) :
    InFlight encoded up (down ++ [blockMsg encoded b]) (blocks ++ [b]) := by
  obtain ⟨acks, datas, rfl, rfl, rfl⟩ := carries
  exact ⟨acks, datas ++ [b], rfl, by simp, by simp⟩

/-- The stages of a transfer: before an ACK is doubled, a block is on its way; then the ACK of the
block before is on its way too, or two of the same block; and in the end the server has nothing left
to send. -/
inductive Phase (host : Host) (c : Client) (content encoded : Bytes) (l : Link) : Prop where
  | single (b : Nat) (carries : InFlight encoded l.up l.down [b])
      (awaiting : Awaiting host c content encoded b 0 l.server) (sent : l.sent = b)
      (acked : l.acked + 1 = b) (doubled : l.doubled = none)
  | pair (b k : Nat) (carries : InFlight encoded l.up l.down [b, b + 1])
      (awaiting : Awaiting host c content encoded (b + 1) 0 l.server) (doubled : l.doubled = some k)
      (later : k ≤ b) (sent : l.sent + k = 2 * b + 1)
  | twin (b k : Nat) (carries : InFlight encoded l.up l.down [b, b])
      (awaiting : Awaiting host c content encoded b 1 l.server) (doubled : l.doubled = some k)
      (later : k < b) (sent : l.sent + k = 2 * b)
  | ended (ended : Ended host c l.server) (acks : ∀ m ∈ l.up, ∃ k, m = ackMsg k)
      (idle : l.doubled = none → l.up = [] ∧ (∀ m ∈ l.down, opcodeOf m ≠ opData) ∧
        l.sent = blocksOf encoded)
      (sent : ∀ k, l.doubled = some k → k ≤ blocksOf encoded ∧ l.sent + k = 2 * blocksOf encoded)

/-- A block is one DATA. -/
theorem countP_block (encoded : Bytes) (b : Nat) :
    [blockMsg encoded b].countP (fun m => opcodeOf m = opData) = 1 := by
  simp [blockMsg]

/-- A session waits on a block of the file. -/
theorem Awaiting.within {c : Client} {content encoded : Bytes} {b retries : Nat} {st : Server}
    (awaiting : Awaiting host c content encoded b retries st) : b ≤ blocksOf encoded := by
  obtain ⟨-, s, -, rfl, -, -, sending⟩ := awaiting
  exact sending.within

/-- What the client does moves a message from one way to the other, and stays in the phase. -/
theorem Phase.answer {c : Client} {content encoded : Bytes} {l : Link}
    (phase : Phase host c content encoded l) : Phase host c content encoded (hop host c l .answer) := by
  simp only [hop]
  cases down : l.down with
  | nil => exact phase
  | cons m rest =>
    dsimp only
    cases phase with
    | single b carries awaiting sent acked doubled =>
      obtain ⟨data, carries'⟩ := (down ▸ carries).answer
      rw [if_pos data]
      exact .single b carries' awaiting sent acked doubled
    | pair b k carries awaiting doubled later sent =>
      obtain ⟨data, carries'⟩ := (down ▸ carries).answer
      rw [if_pos data]
      exact .pair b k carries' awaiting doubled later sent
    | twin b k carries awaiting doubled later sent =>
      obtain ⟨data, carries'⟩ := (down ▸ carries).answer
      rw [if_pos data]
      exact .twin b k carries' awaiting doubled later sent
    | ended ended acks idle sent =>
      refine .ended ended ?_ ?_ sent
      · dsimp only
        split
        · intro m' member
          obtain old | new := List.mem_append.mp member
          · exact acks m' old
          · exact ⟨_, List.mem_singleton.mp new⟩
        · exact acks
      · intro none
        obtain ⟨empty, dataless, count⟩ := idle none
        rw [down] at dataless
        have notData := dataless m List.mem_cons_self
        refine ⟨?_, fun m' member => dataless m' (List.mem_cons_of_mem m member), count⟩
        dsimp only
        rw [if_neg notData]
        exact empty

/-- A tick that finds nothing due changes none of what the phase is about. -/
theorem Phase.tick {c : Client} {content encoded : Bytes} {l : Link} {t : Tick}
    (phase : Phase host c content encoded l) (quiet : t.Quiet l.server.seshead) :
    Phase host c content encoded (hop host c l (.tick t)) := by
  obtain ⟨silent, -⟩ := quiet_tick host quiet
  have same : hop host c l (.tick t) = { l with server := step host l.server (.tick t) } := by
    rw [hop, silent, Link.emit]
    simp
  rw [same]
  cases phase with
  | single b carries awaiting sent acked doubled =>
    exact .single b carries (awaiting.tick quiet) sent acked doubled
  | pair b k carries awaiting doubled later sent =>
    exact .pair b k carries (awaiting.tick quiet) doubled later sent
  | twin b k carries awaiting doubled later sent =>
    exact .twin b k carries (awaiting.tick quiet) doubled later sent
  | ended ended acks idle sent => exact .ended (ended.tick quiet) acks idle sent

/-- A block that is sent is the only message of its step. -/
theorem arrive_block {l : Link} {d : Datagram} {encoded : Bytes} {b : Nat}
    (msgs : (outputs host l.server (.datagram d)).map Sent.msg = [blockMsg encoded b]) :
    l.arrive host d = { l with
      server := step host l.server (.datagram d)
      down := l.down ++ [blockMsg encoded b]
      sent := l.sent + 1 } := by
  rw [Link.arrive, msgs, Link.emit, countP_block]

/-- The oldest ACK arrives. -/
theorem Phase.reach {c : Client} {content encoded : Bytes} {l : Link} {d : Datagram}
    (phase : Phase host c content encoded l) (oldest : l.up.head? = some d.bytes)
    (smooth : Smooth host c l.server d) : Phase host c content encoded (hop host c l (.reach d)) := by
  cases phase with
  | single b carries awaiting sent acked doubled =>
    have bytes := carries.head oldest
    have none := carries.reach oldest
    have within := awaiting.within
    by_cases more : b < blocksOf encoded
    · obtain ⟨msgs, awaiting'⟩ := awaiting.advance smooth bytes more
      rw [hop, arrive_block msgs]
      exact .single (b + 1) (none.send (b + 1)) awaiting' (congrArg (· + 1) sent)
        (congrArg (· + 1) acked) doubled
    · obtain rfl : b = blocksOf encoded := by omega
      obtain ⟨silent, ended⟩ := awaiting.finish smooth bytes
      obtain ⟨acks, datas, up, down, empty⟩ := none
      obtain ⟨rfl, rfl⟩ := List.append_eq_nil_iff.mp empty
      refine .ended ended ?_ ?_ ?_
      · intro m member
        have member : m ∈ l.up.tail := member
        rw [up] at member
        cases member
      · intro _
        refine ⟨up, ?_, ?_⟩
        · intro m member
          have member : m ∈ l.down ++ (outputs host l.server (.datagram d)).map Sent.msg := member
          rw [down, silent] at member
          cases member
        · show l.sent + ((outputs host l.server (.datagram d)).map Sent.msg).countP _ = _
          rw [silent, sent]
          rfl
      · intro k doubled'
        have doubled' : l.doubled = some k := doubled'
        rw [doubled] at doubled'
        cases doubled'
  | pair b k carries awaiting doubled later sent =>
    obtain ⟨msgs, awaiting'⟩ := awaiting.again smooth (carries.head oldest) (by decide)
    rw [hop, arrive_block msgs]
    refine .twin (b + 1) k ((carries.reach oldest).send (b + 1)) awaiting' doubled
      (Nat.lt_succ_of_le later) ?_
    show l.sent + 1 + k = 2 * (b + 1)
    omega
  | twin b k carries awaiting doubled later sent =>
    have bytes := carries.head oldest
    have rest := carries.reach oldest
    have within := awaiting.within
    by_cases more : b < blocksOf encoded
    · obtain ⟨msgs, awaiting'⟩ := awaiting.advance smooth bytes more
      rw [hop, arrive_block msgs]
      refine .pair b k (rest.send (b + 1)) awaiting' doubled (Nat.le_of_lt later) ?_
      show l.sent + 1 + k = 2 * b + 1
      omega
    · obtain rfl : b = blocksOf encoded := by omega
      obtain ⟨silent, ended⟩ := awaiting.finish smooth bytes
      obtain ⟨acks, datas, up, down, -⟩ := rest
      refine .ended ended ?_ ?_ ?_
      · intro m member
        have member : m ∈ l.up.tail := member
        rw [up] at member
        obtain ⟨b, -, rfl⟩ := List.mem_map.mp member
        exact ⟨_, rfl⟩
      · intro none
        have none : l.doubled = Option.none := none
        rw [doubled] at none
        cases none
      · intro k' doubled'
        obtain rfl : k = k' := Option.some.inj (doubled.symm.trans doubled')
        refine ⟨Nat.le_of_lt later, ?_⟩
        show l.sent + ((outputs host l.server (.datagram d)).map Sent.msg).countP _ + k = _
        rw [silent]
        exact sent
  | ended ended acks idle sent =>
    have member : d.bytes ∈ l.up := List.mem_of_mem_head? oldest
    obtain ⟨k, bytes⟩ := acks _ member
    obtain ⟨dataless, ended'⟩ := ended.ack smooth bytes
    have count : ((outputs host l.server (.datagram d)).map Sent.msg).countP
        (fun m => opcodeOf m = opData) = 0 := by
      rw [List.countP_eq_zero]
      intro msg isMsg
      obtain ⟨m, isSent, rfl⟩ := List.mem_map.mp isMsg
      simpa using dataless m isSent
    refine .ended ended' ?_ ?_ ?_
    · intro m isTail
      exact acks m (List.mem_of_mem_tail isTail)
    · intro none
      rw [(idle none).1] at member
      cases member
    · intro k' doubled
      obtain ⟨within, total⟩ := sent k' doubled
      refine ⟨within, ?_⟩
      show l.sent + ((outputs host l.server (.datagram d)).map Sent.msg).countP _ + k' = _
      rw [count]
      exact total

/-- The oldest ACK arrives, and so will a copy of it. -/
theorem Phase.twice {c : Client} {content encoded : Bytes} {l : Link} {d : Datagram}
    (phase : Phase host c content encoded l) (oldest : l.up.head? = some d.bytes)
    (smooth : Smooth host c l.server d) (once : l.doubled = none) :
    Phase host c content encoded (hop host c l (.twice d)) := by
  cases phase with
  | single b carries awaiting sent acked doubled =>
    have bytes := carries.head oldest
    have within := awaiting.within
    by_cases more : b < blocksOf encoded
    · obtain ⟨msgs, awaiting'⟩ := awaiting.advance smooth bytes more
      rw [hop, arrive_block msgs]
      refine .pair b b (carries.send (b + 1)) awaiting' (congrArg some acked) (Nat.le_refl b) ?_
      show l.sent + 1 + b = 2 * b + 1
      omega
    · obtain rfl : b = blocksOf encoded := by omega
      obtain ⟨silent, ended⟩ := awaiting.finish smooth bytes
      obtain ⟨acks, datas, up, down, -⟩ := carries
      refine .ended ended ?_ nofun ?_
      · intro m member
        have member : m ∈ l.up := member
        rw [up] at member
        obtain ⟨b, -, rfl⟩ := List.mem_map.mp member
        exact ⟨_, rfl⟩
      · intro k doubled'
        obtain rfl : l.acked + 1 = k := Option.some.inj doubled'
        refine ⟨within.trans' (Nat.le_of_eq acked), ?_⟩
        show l.sent + ((outputs host l.server (.datagram d)).map Sent.msg).countP _ + (l.acked + 1) = _
        rw [silent, List.map_nil, List.countP_nil]
        omega
  | pair b k _ _ doubled | twin b k _ _ doubled =>
    rw [once] at doubled
    cases doubled
  | ended _ _ idle _ =>
    rw [(idle once).1] at oldest
    cases oldest

/-- Every orderly hop keeps to the phases.

Proof: by the kind of the hop. Only the arrival of an ACK leads from one phase to another. -/
theorem Phase.hop {c : Client} {content encoded : Bytes} {l : Link} {h : Hop}
    (phase : Phase host c content encoded l) (orderly : Orderly host c l h) :
    Phase host c content encoded (Iwtftpd.hop host c l h) := by
  cases h with
  | reach d => exact phase.reach orderly.1 orderly.2
  | twice d => exact phase.twice orderly.1 orderly.2.1 orderly.2.2
  | answer => exact phase.answer
  | tick t => exact phase.tick orderly

/-- After the request the first block is in flight, and one DATA was sent. -/
theorem Opens.phase {c : Client} {req : TftpReq} {content : Bytes} {fd : Int} {st : Server}
    {d : Datagram} (opens : Opens host c req content fd st d) (inv : WellFormed host.toVolume st) :
    Phase host c content (req.mode.encode content) (requested host st d) := by
  obtain ⟨msgs, awaiting⟩ := opens.awaiting inv
  rw [requested, arrive_block msgs]
  exact .single 1 ⟨[], [1], rfl, rfl, rfl⟩ awaiting rfl rfl rfl

/-- No more DATA than blocks is sent, but for one. -/
def Sparing (blocks : Nat) (l : Link) : Prop := l.sent ≤ blocks + 1

/-- The ACK that was delivered twice, if one was, is that of the last block or of the one before. -/
def DoubledLate (blocks : Nat) (l : Link) : Prop := ∀ k, l.doubled = some k → blocks ≤ k + 1

/-- When the doubled ACK is late, no phase has counted more than one DATA above the blocks. -/
theorem Phase.sparing {c : Client} {content encoded : Bytes} {l : Link}
    (phase : Phase host c content encoded l) (late : DoubledLate (blocksOf encoded) l) :
    Sparing (blocksOf encoded) l := by
  rw [Sparing]
  cases phase with
  | single b _ awaiting sent =>
    have within := awaiting.within
    omega
  | pair b k _ awaiting doubled later sent | twin b k _ awaiting doubled later sent =>
    have within := awaiting.within
    have bound := late k doubled
    omega
  | ended _ _ idle sent =>
    cases doubled : l.doubled with
    | none =>
      have count := (idle doubled).2.2
      omega
    | some k =>
      obtain ⟨within, total⟩ := sent k doubled
      have bound := late k doubled
      omega

/-- A transfer that is through took two DATA for every block behind the ACK that was doubled, and
one for each of the others. -/
theorem Phase.total {c : Client} {content encoded : Bytes} {l : Link} {k : Nat}
    (phase : Phase host c content encoded l) (through : l.Through) (doubled : l.doubled = some k) :
    k ≤ blocksOf encoded ∧ l.sent + k = 2 * blocksOf encoded := by
  have empty {blocks : List Nat} (carries : InFlight encoded l.up l.down blocks) : blocks = [] := by
    obtain ⟨acks, datas, up, down, rfl⟩ := carries
    rw [through.1] at up
    rw [through.2] at down
    rw [List.map_eq_nil_iff.mp up.symm, List.map_eq_nil_iff.mp down.symm]
    rfl
  cases phase with
  | single b carries | pair b k carries | twin b k carries => cases empty carries
  | ended _ _ _ sent => exact sent k doubled

/-- In a transfer that is through, the server was sparing exactly when no ACK but that of the last
block or the one before was delivered twice; and then it was so all the time.

Proof: on its way a transfer carries one message, or two of the same block once an ACK was
doubled, and the DATA sent are counted along. At the end the count is twice the blocks less the
number of the doubled ACK. -/
theorem doubled_ack_iff {c : Client} {req : TftpReq} {content : Bytes} {fd : Int} {st : Server}
    {d : Datagram} {l : Link} (reachable : Reachable host st)
    (opens : Opens host c req content fd st d)
    (run : Runs.Reaches (hop host c) (Orderly host c) (requested host st d) l) :
    let blocks := blocksOf (req.mode.encode content)
    (l.Through → (Sparing blocks l ↔ DoubledLate blocks l)) ∧
      (DoubledLate blocks l → Sparing blocks l) := by
  have phase := run.invariant (fun _ _ phase may => Phase.hop phase may)
    (opens.phase reachable.wellFormed)
  refine ⟨fun through => ⟨fun sparing k doubled => ?_, phase.sparing⟩, phase.sparing⟩
  obtain ⟨within, total⟩ := phase.total through doubled
  rw [Sparing] at sparing
  omega

/-! ## Two transfers -/

/-- The client's request for the file of the given content. -/
def request : Datagram := arrival [1] (reqMsg opRrq [102] .octet) (some 5)

/-- The request opens a download on a server that has just started. -/
theorem request_opens (content : Bytes) :
    Opens smallHost ([1], 2000) ⟨[102], .octet⟩ content 5 (startOn (diskWith [102] content)) request where
  named := rfl
  admissible := admissible_first rfl rfl (by decide)
  faultless := rfl
  fresh := rfl
  rrq := (by decide +kernel : ofBe16 ((startOn fun _ => .absent).receive request).rbuf = opRrq)
  parsed := (by decide +kernel : parseTftpreq ((startOn fun _ => .absent).receive request).rbuf request.len =
    some ⟨[102], .octet⟩)
  file := rfl
  socket := rfl
  unopened := rfl

/-- An ACK of the client. -/
def ackOf (k : UInt16) : Datagram := arrival [1] (ackMsg k) none

/-- An ACK brings no socket and meets no failure. -/
theorem ackOf_smooth (st : Server) (k : UInt16) : Smooth smallHost ([1], 2000) st (ackOf k) :=
  ⟨rfl, nofun, rfl⟩

/-- What an orderly hop of plain ACKs depends on. -/
def Timely (l : Link) : Hop → Prop
  | .reach d => l.up.head? = some d.bytes
  | .twice d => l.up.head? = some d.bytes ∧ l.doubled = none
  | .answer => l.down ≠ []
  | .tick _ => False

instance (l : Link) (h : Hop) : Decidable (Timely l h) := by
  cases h <;> unfold Timely <;> infer_instance

/-- The ACK of a block, which may come twice. -/
inductive Plain : Hop → Prop where
  | reach (k : UInt16) : Plain (.reach (ackOf k))
  | twice (k : UInt16) : Plain (.twice (ackOf k))
  | answer : Plain .answer

/-- A list of plain hops is orderly when it is timely, by induction over it. -/
theorem plain_orderly {l : Link} {hops : List Hop} (plain : ∀ h ∈ hops, Plain h)
    (timely : Runs.Admits (hop smallHost ([1], 2000)) Timely l hops) :
    Runs.Admits (hop smallHost ([1], 2000)) (Orderly smallHost ([1], 2000)) l hops := by
  induction hops generalizing l with
  | nil => trivial
  | cons h rest inductionHypothesis =>
    obtain ⟨here, later⟩ := timely
    refine ⟨?_, inductionHypothesis (fun h' member => plain h' (List.mem_cons_of_mem h member)) later⟩
    cases plain h List.mem_cons_self with
    | reach k => exact ⟨here, ackOf_smooth _ k⟩
    | twice k => exact ⟨here.1, ackOf_smooth _ k, here.2⟩
    | answer => exact here

/-- Of three blocks, the ACK of the second comes twice. -/
def lastButOneTwice : List Hop :=
  [.answer, .reach (ackOf 1), .answer, .twice (ackOf 2), .reach (ackOf 2), .answer, .answer,
    .reach (ackOf 3), .reach (ackOf 3)]

/-- Only block 3 is sent twice, so the transfer takes four DATA. -/
theorem doubled_ack_sample :
    Sparing 3 (Runs.exec (hop smallHost ([1], 2000))
      (requested smallHost (startOn (diskWith [102] (List.replicate 1025 7))) request) lastButOneTwice) := by
  have plain : ∀ h ∈ lastButOneTwice, Plain h := by
    intro h member
    simp only [lastButOneTwice, List.mem_cons, List.not_mem_nil, or_false] at member
    obtain rfl | rfl | rfl | rfl | rfl | rfl | rfl | rfl | rfl := member
    all_goals first | exact .answer | exact .twice _ | exact .reach _
  have facts : Runs.Admits (hop smallHost ([1], 2000)) Timely
        (requested smallHost (startOn (diskWith [102] (List.replicate 1025 7))) request) lastButOneTwice ∧
      (Runs.exec (hop smallHost ([1], 2000))
        (requested smallHost (startOn (diskWith [102] (List.replicate 1025 7))) request)
        lastButOneTwice).doubled = some 2 := by decide +kernel
  have exact := doubled_ack_iff (startOn_reachable smallHost _) (request_opens (List.replicate 1025 7))
    (Runs.reaches_exec (plain_orderly plain facts.1))
  have blocks : blocksOf (TftpMode.octet.encode (List.replicate 1025 7)) = 3 := by
    rw [TftpMode.encode, blocksOf, List.length_replicate]
    rfl
  rw [blocks] at exact
  apply exact.2
  intro k doubled
  rw [facts.2] at doubled
  cases doubled
  decide

/-- No transfer takes more DATA than it has blocks, but for one. -/
def AlwaysSparing (host : Host) : Prop :=
  ∀ c req content fd st d l, Reachable host st → Opens host c req content fd st d →
    Runs.Reaches (hop host c) (Orderly host c) (requested host st d) l →
    Sparing (blocksOf (req.mode.encode content)) l

/-- The ACK of the first block of three comes twice. -/
def firstOfThreeTwice : List Hop :=
  [.answer, .twice (ackOf 1), .reach (ackOf 1), .answer, .answer, .reach (ackOf 2), .reach (ackOf 2),
    .answer, .answer, .reach (ackOf 3), .reach (ackOf 3)]

/-- Blocks 2 and 3 are sent twice. -/
theorem not_always_sparing : ¬ AlwaysSparing smallHost := by
  intro always
  have plain : ∀ h ∈ firstOfThreeTwice, Plain h := by
    intro h member
    simp only [firstOfThreeTwice, List.mem_cons, List.not_mem_nil, or_false] at member
    obtain rfl | rfl | rfl | rfl | rfl | rfl | rfl | rfl | rfl | rfl | rfl := member
    all_goals first | exact .answer | exact .twice _ | exact .reach _
  have facts : Runs.Admits (hop smallHost ([1], 2000)) Timely
        (requested smallHost (startOn (diskWith [102] (List.replicate 1025 7))) request)
        firstOfThreeTwice ∧
      (Runs.exec (hop smallHost ([1], 2000))
        (requested smallHost (startOn (diskWith [102] (List.replicate 1025 7))) request)
        firstOfThreeTwice).sent = 5 := by decide +kernel
  have sparing := always _ _ _ _ _ _ _ (startOn_reachable smallHost _)
    (request_opens (List.replicate 1025 7)) (Runs.reaches_exec (plain_orderly plain facts.1))
  have blocks : blocksOf (TftpMode.octet.encode (List.replicate 1025 7)) = 3 := by
    rw [TftpMode.encode, blocksOf, List.length_replicate]
    rfl
  rw [Sparing, facts.2, blocks] at sparing
  omega

end Iwtftpd
