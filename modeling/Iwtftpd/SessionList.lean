import Iwtftpd.Lib.DoublyLinked
import Iwtftpd.Timer

/-!
# The session list as it lies in memory

The functions of `tftp.c` that touch `next` and `prev`, on a memory of nodes: a
search, the two ways a node is linked, `del_session` with its four cases, and
the two loops of the timer. What a node carries besides its links is a
`Session`. Elsewhere the list of sessions is a `List`; here that list is what
the memory represents.

`malloc` answers with an address that is not in use, or with none. A node that
was freed is assumed to keep what it held until its address is allocated again.
-/

namespace Iwtftpd

open DoublyLinked (Mem Represents)

/-- What a pointer to a session holds. -/
abbrev Addr := Nat

abbrev Links := Mem Addr Session

/-! ## The functions -/

/-- `get_session`. -/
def Links.getSession (m : Links) (client : Client) : Option Addr :=
  m.find fun pm => pm.key = client

/-- The node that `create_session` links. -/
def blankSession : Session where
  clip := []
  clport := 0
  clsock := -1
  tftpmode := .octet
  sesbuf := { pos := 0, fopt := false, datalen := 0, storage := List.replicate sessionBufsize 0 }
  filename := []
  blknum := 0
  fin := false
  lastmsg := []
  lastsending := 0
  retrycount := 0
  disabled := false

/-- What `malloc` answers in `create_session`: no memory for the node, memory for the node and
none for its buffer, or memory for both. -/
inductive Malloc where
  | none
  | node (addr : Addr)
  | both (addr : Addr)
deriving DecidableEq

/-- The address of the node, when there is memory for it. -/
def Malloc.addr : Malloc → Option Addr
  | .none => .none
  | .node addr | .both addr => some addr

/-- `create_session`. A node without a buffer is neither linked nor freed. -/
def Links.createSession (m : Links) (memory : Malloc) : Option Addr × Links :=
  match memory with
  | .none => (none, m)
  | .node node => (none, m.alloc node { next := none, prev := none, val := blankSession })
  | .both node => (some node, m.push node blankSession)

/-- `add_newsession`. When a step after `create_session` fails the node stays linked
and the caller gets no pointer to it. -/
def Links.addNewsession (m : Links) (memory : Malloc) (client : Client) (file : Bytes)
    (mode : TftpMode) (newsock : Option Int) : Option Addr × Links :=
  match createSession m memory with
  | (none, m) => (none, m)
  | (some node, m) =>
    let clses := { blankSession with
      clip := client.1, clport := client.2, filename := file, tftpmode := mode }
    match newsock with
    | none => (none, m.setVal node clses)
    | some fd => (some node, m.setVal node { clses with clsock := fd })

/-- The four cases of `del_session`. -/
def Links.bridge (m : Links) (tmp : Addr) : Links :=
  match m.prev tmp, m.next tmp with
  | none, none => { m with head := none }
  | none, some n => { m.setPrev n none with head := some n }
  | some p, none => m.setNext p none
  | some p, some n => (m.setNext p (some n)).setPrev n (some p)

/-- `del_session`, and the sockets it closes. -/
def Links.delSession (m : Links) (client : Client) : Links × List Int :=
  match getSession m client with
  | none => (m, [])
  | some tmp => ((bridge m tmp).release tmp, ((m.val tmp).map Session.clsock).toList)

/-- What `resend_allsession` leaves behind. -/
structure Links.Resent where
  links : Links
  ads : IWDS
  sent : List Sent

/-- The loop of `resend_allsession` from a node on. -/
def Links.resendFrom (t : Tick) : Nat → Links → Option Addr → IWDS → Bytes → Nat → Resent
  | 0, m, _, ads, _, _ => { links := m, ads := ads, sent := [] }
  | _ + 1, m, none, ads, _, _ => { links := m, ads := ads, sent := [] }
  | fuel + 1, m, some a, ads, addr, addrlen =>
    match m.node a with
    | none => { links := m, ads := ads, sent := [] }
    | some ⟨next, _, pm⟩ =>
      if difftime t.now pm.lastsending ≤ resendInterval then resendFrom t fuel m next ads addr addrlen
      else if pm.fin = true ∨ pm.disabled = true then resendFrom t fuel m next ads addr addrlen
      else if resendCountmax ≤ pm.retrycount then
        let pm := { pm with disabled := true }
        resendFrom t fuel (m.setVal a pm) next (closeData pm ads) addr addrlen
      else
        match t.getsockname pm.clsock with
        | none => resendFrom t fuel m next ads addr addrlen
        | some name =>
          let addr := name.take addrlen ++ addr.drop (min name.length addrlen)
          let pm := { pm with retrycount := pm.retrycount + 1, lastsending := t.now }
          let r := resendFrom t fuel (m.setVal a pm) next ads addr name.length
          { r with sent :=
              { sock := pm.clsock, dest := addr.take name.length, msg := pm.lastmsg,
                ses := some pm.key } :: r.sent }

/-- A loop over the list ends after as many passes as there are nodes. -/
def Links.resendAllsession (t : Tick) (m : Links) (ads : IWDS) (addr : Bytes) (addrlen : Nat) : Resent :=
  resendFrom t m.live.length m m.head ads addr addrlen

/-- A run of the loop of `cleanup_session`: the nodes it visits, those whose link it
follows after they were freed, and the sockets that are closed. -/
structure Links.Sweep where
  links : Links
  visited : List Addr
  stale : List Addr
  closed : List Int

/-- The loop of `cleanup_session` from a node on. It deletes by key and then reads
the link of the node it stands on. -/
def Links.cleanupFrom (now : Int) : Nat → Links → Option Addr → Sweep
  | 0, m, _ => { links := m, visited := [], stale := [], closed := [] }
  | _ + 1, m, none => { links := m, visited := [], stale := [], closed := [] }
  | fuel + 1, m, some a =>
    match m.val a with
    | none => { links := m, visited := [], stale := [], closed := [] }
    | some pm =>
      let deleted := if pm.expired now then delSession m pm.key else (m, [])
      let r := cleanupFrom now fuel deleted.1 (deleted.1.next a)
      { links := r.links
        visited := a :: r.visited
        stale := if a ∈ deleted.1.live then r.stale else a :: r.stale
        closed := deleted.2 ++ r.closed }

def Links.cleanupSession (now : Int) (m : Links) : Sweep := cleanupFrom now m.live.length m m.head

/-! ## Searching -/

/-- The sessions of a list of nodes. -/
abbrev sessions (nodes : List (Addr × Session)) : List Session := nodes.map Prod.snd

variable {m : Links} {nodes : List (Addr × Session)}

/-- A search fails, or it splits the list at the first session of the client. -/
theorem Links.getSession_cases (rep : Represents m nodes) (client : Client) :
    (getSession m client = none ∧ Iwtftpd.getSession (sessions nodes) client = none) ∨
      ∃ xs a s ys, nodes = xs ++ (a, s) :: ys ∧ (∀ x ∈ sessions xs, x.key ≠ s.key) ∧ s.key = client ∧
        getSession m client = some a ∧ Iwtftpd.getSession (sessions nodes) client = some s := by
  obtain ⟨missing, absent⟩ | ⟨xs, a, s, ys, rfl, before, rfl, found, there⟩ :=
    rep.lookup_cases Session.key id client
  · exact .inl ⟨missing, absent⟩
  · exact .inr ⟨xs, a, s, ys, rfl, before, rfl, found, there⟩

/-! ## Linking and unlinking -/

theorem Links.bridge_eq (m : Links) (tmp : Addr) : bridge m tmp = m.unlink tmp := by
  unfold bridge Mem.unlink
  cases m.prev tmp <;> cases m.next tmp <;> rfl

/-- `create_session` links a blank session before the head. -/
theorem Links.createSession_represents {a : Addr} (rep : Represents m nodes) (fresh : a ∉ m.live) :
    Represents (createSession m (.both a)).2 ((a, blankSession) :: nodes) := rep.push blankSession fresh

/-- With or without a socket, `add_newsession` links a session of the client before the head. -/
theorem Links.addNewsession_represents {a : Addr} (rep : Represents m nodes) (fresh : a ∉ m.live)
    (client : Client) (req : TftpReq) (newsock : Option Int) :
    Represents (addNewsession m (.both a) client req.filename req.mode newsock).2
      ((a, newSession client req (newsock.getD (-1))) :: nodes) := by
  have linked := rep.push blankSession fresh
  cases newsock with
  | none => exact linked.setFirst _
  | some fd => exact linked.setFirst _

/-- What `del_session` does with the first session of the client. -/
structure Links.Deleted (m : Links) (a : Addr) (s : Session) (rest : List (Addr × Session))
    (deleted : Links × List Int) : Prop where
  represents : Represents deleted.1 rest
  live : deleted.1.live = m.live.filter (· ≠ a)
  kept : deleted.1.node a = m.node a
  closed : deleted.2 = [s.clsock]

theorem Links.delSession_absent {client : Client} (absent : getSession m client = none) :
    delSession m client = (m, []) := by
  simp only [delSession, absent]

theorem Links.bridge_live (m : Links) (tmp : Addr) : (bridge m tmp).live = m.live := by
  rw [bridge_eq, Mem.unlink, DoublyLinked.bridgePrev_live, DoublyLinked.bridgeNext_live]

theorem Links.delSession_first {xs ys : List (Addr × Session)} {a : Addr} {s : Session}
    (rep : Represents m (xs ++ (a, s) :: ys)) (found : getSession m s.key = some a) :
    Deleted m a s (xs ++ ys) (delSession m s.key) := by
  have holds : m.val a = some s := (rep.seg.node (by simp)).2
  have deleted : delSession m s.key = ((m.unlink a).release a, [s.clsock]) := by
    simp only [delSession, found, bridge_eq, holds, Option.map_some, Option.toList_some]
  rw [deleted]
  refine ⟨rep.unlink, ?_, rep.unlinked, rfl⟩
  have live := bridge_live m a
  rw [bridge_eq] at live
  simp only [Mem.release, live]

/-- Under distinct keys, `del_session` removes the session of the client and no other. -/
theorem Links.delSession_represents (rep : Represents m nodes)
    (distinct : ((sessions nodes).map Session.key).Nodup) (client : Client) :
    Represents (delSession m client).1 (nodes.filter fun x => x.2.key ≠ client) := by
  obtain ⟨missing, absent⟩ | ⟨xs, a, s, ys, rfl, before, rfl, found, -⟩ := getSession_cases rep client
  · have all : nodes.filter (fun x => x.2.key ≠ client) = nodes := by
      apply List.filter_eq_self.mpr
      intro x member
      exact decide_eq_true
        ((Keyed.lookup_none_iff Session.key).mp absent x.2 (List.mem_map_of_mem member))
    rw [delSession_absent missing, all]
    exact rep
  · have others : (xs ++ (a, s) :: ys).filter (fun x => x.2.key ≠ s.key) = xs ++ ys := by
      have behind : ∀ x ∈ ys, x.2.key ≠ s.key := by
        intro x member same
        simp only [sessions, List.map_append, List.map_cons, List.nodup_append, List.nodup_cons] at distinct
        refine distinct.2.1.1 (same ▸ ?_)
        exact List.mem_map_of_mem (List.mem_map_of_mem member)
      rw [List.filter_append, List.filter_cons_of_neg (by simp), List.filter_eq_self.mpr, List.filter_eq_self.mpr]
      · exact fun x member => decide_eq_true (behind x member)
      · exact fun x member => decide_eq_true (before x.2 (List.mem_map_of_mem member))
    rw [others]
    exact (delSession_first rep found).represents

/-! ## The timer's first loop -/

/-- Every pass writes at most the values of the node it stands on, so the loop does to what the
memory represents what it does to a list. -/
theorem Links.resendFrom_represents (t : Tick) {fuel : Nat} (done : List (Addr × Session))
    (rep : Represents m (done ++ nodes)) (enough : nodes.length ≤ fuel) (ads : IWDS) (addr : Bytes)
    (addrlen : Nat) :
    let r := resendFrom t fuel m (DoublyLinked.front nodes none) ads addr addrlen
    let r' := Iwtftpd.resendAllsession t (sessions nodes) ads addr addrlen
    ∃ nodes', Represents r.links (done ++ nodes') ∧ sessions nodes' = r'.seshead ∧
      r.ads = r'.ads ∧ r.sent = r'.sent ∧ r.links.live = m.live := by
  induction nodes generalizing m done fuel ads addr addrlen with
  | nil => cases fuel <;> exact ⟨[], rep, rfl, rfl, rfl, rfl⟩
  | cons x rest inductionHypothesis =>
    obtain ⟨a, pm⟩ := x
    cases fuel with
    | zero => cases enough
    | succ fuel =>
      have enough := Nat.le_of_succ_le_succ enough
      obtain ⟨-, -, node, -⟩ := rep.middle
      -- Whatever the pass makes of the session, the rest of the loop goes on behind it.
      have onward (pm' : Session) (m' : Links) (rep' : Represents m' (done ++ (a, pm') :: rest))
          (live : m'.live = m.live) (ads : IWDS) (addr : Bytes) (addrlen : Nat) :
          let r := resendFrom t fuel m' (DoublyLinked.front rest none) ads addr addrlen
          let r' := (Iwtftpd.resendAllsession t (sessions rest) ads addr addrlen).cons pm'
          ∃ nodes', Represents r.links (done ++ nodes') ∧ sessions nodes' = r'.seshead ∧
            r.ads = r'.ads ∧ r.sent = r'.sent ∧ r.links.live = m.live := by
        have split : done ++ (a, pm') :: rest = (done ++ [(a, pm')]) ++ rest := by simp
        obtain ⟨nodes', represents, list, same, sent, kept⟩ := inductionHypothesis
          (done ++ [(a, pm')]) (split ▸ rep') enough ads addr addrlen
        refine ⟨(a, pm') :: nodes', by simpa using represents, ?_, same, sent, kept.trans live⟩
        exact congrArg (List.cons pm') list
      have idle := onward pm m rep rfl ads addr addrlen
      have here : DoublyLinked.front ((a, pm) :: rest) none = some a := rfl
      dsimp only at onward idle ⊢
      rw [here]
      simp only [resendFrom, node, sessions, List.map_cons, Iwtftpd.resendAllsession]
      split
      · exact idle
      split
      · exact idle
      split
      · exact onward _ _ (rep.setVal _) rfl _ addr addrlen
      cases t.getsockname pm.clsock with
      | none => exact idle
      | some name =>
        obtain ⟨nodes', represents, list, same, sent, kept⟩ := onward
          { pm with retrycount := pm.retrycount + 1, lastsending := t.now } _ (rep.setVal _) rfl ads
          (name.take addrlen ++ addr.drop (min name.length addrlen)) name.length
        exact ⟨nodes', represents, list, same, congrArg _ sent, kept⟩

end Iwtftpd
