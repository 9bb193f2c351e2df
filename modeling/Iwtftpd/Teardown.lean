import Iwtftpd.Lib.Owned
import Iwtftpd.Linkage
import Iwtftpd.StreamMap

/-!
# What is freed at the end

`del_allsession` and `iwds_exit` each walk their list once and free it on the way.
Both keep the link of a node before they free it, which `cleanup_session` does
not. Over whole runs nothing is allocated in either memory but the nodes of its
list, a session whose socket was not made and a failed read included, so the two
loops leave nothing behind: no node, no socket of a session, no open stream. Only
a node for whose buffer there was no memory is out of their reach.
-/

namespace Iwtftpd

open DoublyLinked (Mem Represents Owned Owns)

/-! ## The sessions -/

/-- The loop of `del_allsession` from a node on. -/
def Links.delAllFrom : Nat → Links → Option Addr → Sweep
  | 0, m, _ => { links := m, visited := [], stale := [], closed := [] }
  | _ + 1, m, none => { links := m, visited := [], stale := [], closed := [] }
  | fuel + 1, m, some pm =>
    match m.node pm with
    | none => { links := m, visited := [], stale := [], closed := [] }
    | some ⟨tmp, _, ses⟩ =>
      let r := delAllFrom fuel (m.release pm) tmp
      { links := r.links
        visited := pm :: r.visited
        stale := if pm ∈ m.live then r.stale else pm :: r.stale
        closed := ses.clsock :: r.closed }

/-- `del_allsession`. -/
def Links.delAllsession (m : Links) : Sweep :=
  match m.head with
  | none => { links := m, visited := [], stale := [], closed := [] }
  | some pm =>
    let r := delAllFrom m.live.length m (some pm)
    { r with links := { r.links with head := none } }

/-- The loop of `del_allsession` is the general way of draining a list, with the socket of each
session to close. -/
theorem Links.delAllFrom_drain (fuel : Nat) (m : Links) (pm : Option Addr) :
    delAllFrom fuel m pm =
      { links := (m.drainFrom fuel pm).mem
        visited := (m.drainFrom fuel pm).gone.map Prod.fst
        stale := (m.drainFrom fuel pm).stale
        closed := (m.drainFrom fuel pm).gone.map fun x => x.2.clsock } := by
  induction fuel generalizing m pm with
  | zero => rfl
  | succ fuel inductionHypothesis =>
    cases pm with
    | none => rfl
    | some a =>
      simp only [delAllFrom, Mem.drainFrom]
      cases m.node a with
      | none => rfl
      | some n => simp only [inductionHypothesis, List.map_cons]

/-- The list that `del_allsession` is given is gone, every socket of it was closed, and what is
left was lost before. -/
structure Links.Freed (nodes : List (Addr × Session)) (lost : List Addr) (r : Sweep) : Prop where
  once : r.visited = nodes.map Prod.fst
  live : r.stale = []
  closed : r.closed = nodes.map fun x => x.2.clsock
  head : r.links.head = none
  nothing : r.links.live.Perm lost

/-- On a list that owns all that is allocated but what is lost, `del_allsession` frees just the
list. -/
theorem Links.delAllsession_freed {m : Links} {nodes : List (Addr × Session)} {lost : List Addr}
    (owns : Owns m nodes lost) : Freed nodes lost (delAllsession m) := by
  have drained := owns.drain
  unfold Mem.drain at drained
  obtain ⟨gone, stale, left⟩ := drained
  have first : m.head = DoublyLinked.front nodes none := owns.represents.head
  cases head : m.head with
  | none =>
    rw [head] at first
    cases nodes with
    | nil =>
      simp only [delAllsession, head]
      exact ⟨rfl, rfl, rfl, head, owns.live⟩
    | cons x rest => cases first
  | some pm =>
    rw [head] at gone stale left
    simp only [delAllsession, head, delAllFrom_drain]
    exact ⟨congrArg _ gone, stale, congrArg _ gone, rfl, left⟩

/-! ## No session is lost on the way -/

/-- A session that gets its node and its buffer is owned by the list. -/
theorem Links.addNewsession_owned {m : Links} {lost : List Addr} (owned : Owned m lost) {a : Addr}
    (fresh : a ∉ m.live) (client : Client) (file : Bytes) (mode : TftpMode) (newsock : Option Int) :
    Owned (addNewsession m (.both a) client file mode newsock).2 lost := by
  have linked := owned.push blankSession fresh
  cases newsock <;> exact linked.setVal a _

/-- `del_session` unlinks a node and frees it, so the list owns what it owned but that. -/
theorem Links.delSession_owned {m : Links} {lost : List Addr} (owned : Owned m lost) (client : Client) :
    Owned (delSession m client).1 lost := by
  cases found : getSession m client with
  | none =>
    rw [delSession_absent found]
    exact owned
  | some tmp =>
    simp only [delSession, found, bridge_eq]
    obtain ⟨live, kept⟩ := (owned.found found).1
    exact owned.unlink live kept

/-- The timer allocates and frees nothing. -/
theorem Links.resendFrom_owned (t : Tick) (fuel : Nat) {m : Links} {lost : List Addr} (owned : Owned m lost)
    (pm : Option Addr) (ads : IWDS) (addr : Bytes) (addrlen : Nat) :
    Owned (resendFrom t fuel m pm ads addr addrlen).links lost := by
  induction fuel generalizing m pm ads addr addrlen with
  | zero => exact owned
  | succ fuel inductionHypothesis =>
    cases pm with
    | none => exact owned
    | some a =>
      simp only [resendFrom]
      cases m.node a with
      | none => exact owned
      | some n =>
        dsimp only
        split
        · exact inductionHypothesis owned _ _ _ _
        split
        · exact inductionHypothesis owned _ _ _ _
        split
        · exact inductionHypothesis (owned.setVal a _) _ _ _ _
        cases t.getsockname n.val.clsock with
        | none => exact inductionHypothesis owned _ _ _ _
        | some name => exact inductionHypothesis (owned.setVal a _) _ _ _ _

/-- The sweep frees what it unlinks, pass by pass. -/
theorem Links.cleanupFrom_owned (now : Int) (fuel : Nat) {m : Links} {lost : List Addr} (owned : Owned m lost)
    (pm : Option Addr) : Owned (cleanupFrom now fuel m pm).links lost := by
  induction fuel generalizing m pm with
  | zero => exact owned
  | succ fuel inductionHypothesis =>
    cases pm with
    | none => exact owned
    | some a =>
      unfold cleanupFrom
      cases m.val a with
      | none => exact owned
      | some s =>
        dsimp only
        split
        · exact inductionHypothesis (delSession_owned owned s.key) _
        · exact inductionHypothesis owned _

/-- A step loses nothing, or the node for whose buffer there is no memory. -/
inductive Links.Loses (memory : Malloc) (lost : List Addr) : List Addr → Prop where
  | nothing : Loses memory lost lost
  | node {a : Addr} (bare : memory = .node a) : Loses memory lost (a :: lost)

/-- Whatever `tftp_proc` decides about the list, what is allocated is owned or lost; a node is
lost when there was no memory for its buffer. -/
theorem Links.place_owned {m : Links} {lost : List Addr} (owned : Owned m lost) (clses : Option Addr)
    {memory : Malloc} (fresh : ∀ a, memory.addr = some a → a ∉ m.live) (ds : IWDS) (client : Client)
    (newsock : Option Int) (p : Proc) :
    ∃ lost', Loses memory lost lost' ∧ Owned (place m clses memory ds client newsock p).2 lost' := by
  unfold place
  cases p.edit with
  | keep => exact ⟨lost, .nothing, owned⟩
  | update s =>
    cases clses with
    | none => exact ⟨lost, .nothing, owned⟩
    | some pm => exact ⟨lost, .nothing, owned.setVal pm s⟩
  | insert s =>
    cases memory with
    | none => exact ⟨lost, .nothing, owned⟩
    | node a => exact ⟨a :: lost, .node rfl, owned.alloc _ (fresh a rfl)⟩
    | both a =>
      have added := addNewsession_owned owned (fresh a rfl) client s.filename s.tftpmode newsock
      exact ⟨lost, .nothing, added.setVal a s⟩

/-- One step of the service allocates nothing that the list does not hold and was not lost. -/
theorem Links.step_owned (host : Host) {st : Server} {e : Event} {lost : List Addr} (owned : Owned st.links lost)
    (may : Admissible st e) : ∃ lost', Loses e.memory lost lost' ∧ Owned (step host st e).links lost' := by
  obtain ⟨event, memory⟩ := e
  cases event with
  | datagram d =>
    show ∃ lost', _ ∧ Owned (recv host st d memory).1.links lost'
    unfold recv
    cases host.client d.src with
    | none => exact ⟨lost, .nothing, owned⟩
    | some client => exact place_owned owned _ may _ client d.newsock _
  | tick t => exact ⟨lost, .nothing, cleanupFrom_owned _ _ (resendFrom_owned t _ owned _ _ _ _) _⟩

/-- What is lost along a run was lost to a lack of memory. -/
theorem Links.run_owned (host : Host) {st : Server} {events : List Event} {lost : List Addr}
    (owned : Owned st.links lost) (admitted : Runs.Admits (step host) Admissible st events) :
    ∃ lost', (∀ a ∈ lost', a ∈ lost ∨ ∃ e ∈ events, e.memory = .node a) ∧
      Owned (Runs.exec (step host) st events).links lost' := by
  induction events generalizing st lost with
  | nil => exact ⟨lost, fun _ => .inl, owned⟩
  | cons e rest inductionHypothesis =>
    obtain ⟨next, loses, owned'⟩ := step_owned host owned admitted.1
    obtain ⟨last, origin, owned''⟩ := inductionHypothesis owned' admitted.2
    refine ⟨last, fun a gone => ?_, owned''⟩
    obtain before | ⟨e', member, bare⟩ := origin a gone
    · cases loses with
      | nothing => exact .inl before
      | node bare =>
        obtain rfl | earlier := List.mem_cons.mp before
        · exact .inr ⟨e, List.mem_cons_self, bare⟩
        · exact .inl earlier
    · exact .inr ⟨e', List.mem_cons_of_mem e member, bare⟩

/-- After any events, nothing is allocated but the sessions of the list, one for each client, and
nodes for whose buffer there was no memory. `del_allsession` frees the sessions: it visits each once,
closes its socket, reads no link of a node that is gone, and leaves nothing allocated but those nodes.
Proof: every operation of a step keeps the memory owned by the list and what was lost, and under that
invariant the loop releases exactly the list. -/
theorem Links.delAllsession_frees (host : Host) {start : Server} {events : List Event} (initial : Initial start)
    (unallocated : start.links.live = []) (admitted : Runs.Admits (step host) Admissible start events) :
    let m := (Runs.exec (step host) start events).links
    ∃ nodes lost, Holds m nodes ∧ m.live.Perm (nodes.map Prod.fst ++ lost) ∧
      (∀ a ∈ lost, ∃ e ∈ events, e.memory = .node a) ∧ Freed nodes lost (delAllsession m) := by
  obtain ⟨lost, origin, owned⟩ := run_owned host (Owned.empty initial.1 unallocated) admitted
  have reachable : Reachable host (Runs.exec (step host) start events) :=
    ⟨start, initial, Runs.reaches_exec admitted⟩
  obtain ⟨nodes, holds, -⟩ := reachable.holds
  have owns := owned.owns (holds_iff.mp holds).1
  refine ⟨nodes, lost, holds, owns.live, fun a gone => ?_, delAllsession_freed owns⟩
  exact (origin a gone).resolve_left List.not_mem_nil

/-- Two sessions, one of them without a socket, and a node without a buffer. -/
theorem Links.delAllsession_frees_sample :
    let m := (Runs.exec (step numericHost) (startOn fun _ => .absent) threeUploads).links
    ∃ nodes lost, Holds m nodes ∧ m.live.Perm (nodes.map Prod.fst ++ lost) ∧
      (∀ a ∈ lost, ∃ e ∈ threeUploads, e.memory = .node a) ∧ Freed nodes lost (delAllsession m) :=
  delAllsession_frees numericHost ⟨rfl, rfl, List.length_replicate⟩ rfl threeUploads_admitted

/-! ## The streams -/

variable {vol : Volume} {st : DStore} {nodes : List (Nat × DNode)}

/-- The loop of `iwds_exit` from a node on, and the nodes that were gone when it asked them. -/
def DStore.exitFrom : Nat → DStore → Option Nat → DStore × List Nat
  | 0, st, _ => (st, [])
  | _ + 1, st, none => (st, [])
  | fuel + 1, st, some pm =>
    match st.links.node pm with
    | none => (st, [])
    | some ⟨next, _, d⟩ =>
      let freed :=
        { st.after (st.files.called (.stdio .fclose d.ses.clid d.ses.filename (st.files.fault = .none))) with
          links := st.links.release pm
          closed := d.fileno :: st.closed }
      let r := exitFrom fuel freed next
      (r.1, if pm ∈ st.links.live then r.2 else pm :: r.2)

/-- `iwds_exit`. -/
def DStore.iwdsExit (st : DStore) (faults : List Fault) : DStore × List Nat :=
  exitFrom st.links.live.length { st with faults := faults } st.links.head

/-- The loop of `iwds_exit` is the general way of draining a list, with an `fclose` for each node.
-/
theorem DStore.exitFrom_drain (fuel : Nat) (st : DStore) (pm : Option Nat) :
    let r := st.links.drainFrom fuel pm
    (st.exitFrom fuel pm).1.links = r.mem ∧ (st.exitFrom fuel pm).2 = r.stale ∧
      (st.exitFrom fuel pm).1.closed = (r.gone.map fun x => x.2.fileno).reverse ++ st.closed ∧
      (st.exitFrom fuel pm).1.opened = st.opened := by
  induction fuel generalizing st pm with
  | zero => exact ⟨rfl, rfl, rfl, rfl⟩
  | succ fuel inductionHypothesis =>
    cases pm with
    | none => exact ⟨rfl, rfl, rfl, rfl⟩
    | some a =>
      simp only [exitFrom, Mem.drainFrom]
      cases st.links.node a with
      | none => exact ⟨rfl, rfl, rfl, rfl⟩
      | some n =>
        obtain ⟨links, stale, closed, opened⟩ := inductionHypothesis
          { st.after (st.files.called
              (.stdio .fclose n.val.ses.clid n.val.ses.filename (st.files.fault = .none))) with
            links := st.links.release a
            closed := n.val.fileno :: st.closed } n.next
        dsimp only at links stale closed opened ⊢
        refine ⟨links, by rw [stale], ?_, opened⟩
        rw [closed]
        simp

/-- `iwds_exit` is done: every stream that was ever opened has been closed once, in the end those
of the list in its order, and no node is left. -/
structure DStore.Ended (st : DStore) (nodes : List (Nat × DNode)) (r : DStore × List Nat) : Prop where
  once : r.1.closed.Perm (List.range st.opened)
  order : r.1.closed = (nodes.map fun x => x.2.fileno).reverse ++ st.closed
  opened : r.1.opened = st.opened
  live : r.2 = []
  nothing : r.1.links.live = []

/-- On a list that owns all that is allocated, `iwds_exit` closes the streams that are open and
frees the nodes. -/
theorem DStore.iwdsExit_ended (owns : Owns st.links nodes []) (kept : Kept st nodes) (faults : List Fault) :
    Ended st nodes (st.iwdsExit faults) := by
  have drained := owns.drain
  unfold Mem.drain at drained
  obtain ⟨gone, stale, left⟩ := drained
  obtain ⟨links, unread, closed, opened⟩ :=
    exitFrom_drain st.links.live.length { st with faults := faults } st.links.head
  dsimp only at links unread closed opened
  rw [gone] at closed
  have order : (st.iwdsExit faults).1.closed = (nodes.map fun x => x.2.fileno).reverse ++ st.closed := closed
  refine ⟨?_, order, opened, unread.trans stale, (congrArg Mem.live links).trans left.eq_nil⟩
  rw [order]
  exact ((List.reverse_perm _).append_right _).trans (List.perm_append_comm.trans kept.files)

/-! ## No stream is lost on the way -/

/-- `del_dsession` unlinks a node and frees it. The lemmas after this one follow the other
functions of datastore.c, which push a new node, change one in place, or delete one. -/
theorem DStore.delDsession_owned (owned : Owned st.links []) (node : Nat) : Owned (st.delDsession node).links [] := by
  unfold delDsession
  cases st.links.val node with
  | none => exact owned
  | some d =>
    dsimp only
    cases found : st.getDsession d.ses.clid d.ses.filename with
    | none => exact owned
    | some pm =>
      obtain ⟨⟨live, -⟩, e, value⟩ := owned.found found
      dsimp only
      rw [value]
      show Owned ((bridge st.links pm).release pm) []
      rw [bridge_eq]
      exact owned.unlink live List.not_mem_nil

theorem DStore.createDsession_owned (owned : Owned st.links []) {addr : Nat} (fresh : addr ∉ st.links.live)
    (id : Int) (file : Bytes) (mode : FMode) : Owned (st.createDsession vol addr id file mode).2.links [] := by
  unfold createDsession
  cases (vol.joined file).ret with
  | none => exact owned
  | some n =>
    dsimp only
    generalize fopen vol st.files id file mode = opened
    obtain ⟨fp, ds⟩ := opened
    cases fp with
    | none => exact owned
    | some fp => exact owned.push _ fresh

theorem DStore.readFrom_owned (owned : Owned st.links []) (ses : Nat) (d : DNode) (dlen : Nat) :
    Owned (st.readFrom ses d dlen).2.links [] := by
  unfold readFrom
  dsimp only
  have read : Owned (st.advance ses d dlen (fread st.files d.ses.fp dlen)).links [] := owned.setVal ses _
  split
  · exact delDsession_owned read ses
  · exact read

theorem DStore.writeTo_owned (owned : Owned st.links []) (ses : Nat) (d : DNode) (dbuf : Bytes) :
    Owned (st.writeTo ses d dbuf).2.links [] := by
  unfold writeTo
  dsimp only
  have written : Owned (st.put ses d dbuf (fwritten st.files d.ses.fp dbuf)).links [] := owned.setVal ses _
  split
  · exact delDsession_owned owned ses
  split
  · exact delDsession_owned written ses
  · exact written

/-- What a call does with the session it has found or created. -/
private theorem DStore.served_owned {f : Nat → DNode → Answer × DStore}
    (serve : ∀ ses d, Owned (f ses d).2.links []) (owned : Owned st.links []) (answer : Answer) (ses : Nat) :
    Owned (match st.links.val ses with
      | none => (answer, st)
      | some d => f ses d).2.links [] := by
  cases st.links.val ses with
  | none => exact owned
  | some d => exact serve ses d

theorem DStore.iwdsRead_owned (owned : Owned st.links []) {addr : Nat} (fresh : addr ∉ st.links.live) (dsid : Int)
    (dfile : Bytes) (dlen : Nat) : Owned (st.iwdsRead vol addr dsid dfile dlen).2.links [] := by
  have noted : Owned (st.after (st.files.note (.iwdsRead dsid dfile))).links [] := owned
  have unused : addr ∉ (st.after (st.files.note (.iwdsRead dsid dfile))).links.live := fresh
  dsimp only [iwdsRead]
  generalize st.after (st.files.note (.iwdsRead dsid dfile)) = st₁ at noted unused ⊢
  split
  · exact noted
  · exact noted
  split
  · exact served_owned (fun ses d => readFrom_owned noted ses d dlen) noted _ _
  have created : Owned (st₁.createDsession vol addr dsid dfile .read).2.links [] :=
    createDsession_owned noted unused dsid dfile .read
  generalize st₁.createDsession vol addr dsid dfile .read = outcome at created ⊢
  obtain ⟨ses, st₂⟩ := outcome
  cases ses with
  | none => exact created
  | some ses => exact served_owned (fun ses d => readFrom_owned created ses d dlen) created _ ses

theorem DStore.iwdsWrite_owned (owned : Owned st.links []) {addr : Nat} (fresh : addr ∉ st.links.live) (dsid : Int)
    (dfile dbuf : Bytes) : Owned (st.iwdsWrite vol addr dsid dfile dbuf).2.links [] := by
  have noted : Owned (st.after (st.files.note (.iwdsWrite dsid dfile dbuf.length))).links [] := owned
  have unused : addr ∉ (st.after (st.files.note (.iwdsWrite dsid dfile dbuf.length))).links.live := fresh
  dsimp only [iwdsWrite]
  generalize st.after (st.files.note (.iwdsWrite dsid dfile dbuf.length)) = st₁ at noted unused ⊢
  split
  · exact served_owned (fun ses d => writeTo_owned noted ses d dbuf) noted _ _
  split
  · exact noted
  · exact noted
  have created : Owned (st₁.createDsession vol addr dsid dfile .write).2.links [] :=
    createDsession_owned noted unused dsid dfile .write
  generalize st₁.createDsession vol addr dsid dfile .write = outcome at created ⊢
  obtain ⟨ses, st₂⟩ := outcome
  cases ses with
  | none => exact created
  | some ses => exact served_owned (fun ses d => writeTo_owned created ses d dbuf) created _ ses

theorem DStore.iwdsClose_owned (owned : Owned st.links []) (dsid : Int) (dfile : Bytes) (dlen : Nat) :
    Owned (st.iwdsClose dsid dfile dlen).2.links [] := by
  have noted : Owned (st.after (st.files.note (.iwdsClose dsid dfile))).links [] := owned
  dsimp only [iwdsClose]
  generalize st.after (st.files.note (.iwdsClose dsid dfile)) = st₁ at noted ⊢
  split
  · split <;> exact noted
  · exact delDsession_owned noted _

/-- One call allocates nothing that the list does not hold. -/
theorem DStore.step_owned (owned : Owned st.links []) {r : Request} (may : Admissible st r) :
    Owned (step vol st r).links [] := by
  obtain ⟨req, addr, faults⟩ := r
  have ready : Owned ({ st with faults := faults } : DStore).links [] := owned
  cases req with
  | read dsid dfile dlen => exact iwdsRead_owned ready may dsid dfile dlen
  | write dsid dfile dbuf => exact iwdsWrite_owned ready may dsid dfile dbuf
  | close dsid dfile dlen => exact iwdsClose_owned ready dsid dfile dlen

/-- Whatever is called, the list owns all that is allocated, by induction over the calls. -/
theorem DStore.run_owned {requests : List Request} (owned : Owned st.links [])
    (admitted : Runs.Admits (step vol) Admissible st requests) :
    Owned (Runs.exec (step vol) st requests).links [] := by
  induction requests generalizing st with
  | nil => exact owned
  | cons r rest inductionHypothesis => exact inductionHypothesis (step_owned owned admitted.1) admitted.2

/-- After any calls, nothing is allocated but the nodes of the list, and `iwds_exit` closes what is
still open: every stream that the calls opened has then been closed once, and nothing is left.
Proof: every call keeps the memory owned by the list, and under that invariant the loop releases
exactly the list. The streams closed along the way and those of the list are all that were opened. -/
theorem DStore.iwdsExit_closes {start : DStore} {requests : List Request} (empty : start.Empty)
    (unallocated : start.links.live = []) (admitted : Runs.Admits (step vol) Admissible start requests)
    (faults : List Fault) :
    let st := Runs.exec (step vol) start requests
    ∃ nodes, Kept st nodes ∧ st.links.live.Perm (nodes.map Prod.fst) ∧ Ended st nodes (st.iwdsExit faults) := by
  have owned := run_owned (Owned.empty empty.head unallocated) admitted
  obtain ⟨nodes, sound, -⟩ := run_sound empty.sound admitted
  have owns := owned.owns sound.kept.represents
  have live := owns.live
  rw [List.append_nil] at live
  exact ⟨nodes, sound.kept, live, iwdsExit_ended owns sound.kept faults⟩

/-- The reader of a file that another session has written is still there at the end. -/
theorem DStore.iwdsExit_closes_sample :
    let st := Runs.exec (step rootVolume) (startOn fun _ => .absent) (growing (wholeBuffer 97) (wholeBuffer 98))
    ∃ nodes, Kept st nodes ∧ st.links.live.Perm (nodes.map Prod.fst) ∧ Ended st nodes (st.iwdsExit [.fail 0]) := by
  have admitted : Runs.Admits (step rootVolume) Admissible (startOn fun _ => .absent)
      (growing (wholeBuffer 97) (wholeBuffer 98)) := growing_admitted 97 98 _ _
  exact iwdsExit_closes (startOn_empty fun _ => .absent) rfl admitted [.fail 0]

end Iwtftpd
