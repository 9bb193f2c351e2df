import Iwtftpd.Isolation
import Iwtftpd.Loading

/-!
# The life of a file

A file is absent until one datastore session creates it, is written by that
session alone and only at its end, and never changes again once the session is
gone. A file that was there before the server is in the last state from the
beginning. The life of a file is an abstract state; every effect on the
datastore moves it forward, so every step of the service does, and every call
of its interfaces.
-/

namespace Iwtftpd

variable {host : Host} {vol : Volume}

/-- The state of a place of the file system, as the server stands to it. -/
inductive Life where
  | absent
  /-- A regular file that the datastore session with the key has open for writing. -/
  | written (k : Int × Bytes) (content : Bytes)
  /-- A regular file that nobody has open for writing. -/
  | settled (content : Bytes)
  | directory
  | device
deriving DecidableEq

/-- What can become of a place. -/
inductive Lives : Life → Life → Prop where
  | same (l : Life) : Lives l l
  | created (k : Int × Bytes) (content : Bytes) : Lives .absent (.written k content)
  | completed (content : Bytes) : Lives .absent (.settled content)
  | grown (k : Int × Bytes) (content more : Bytes) :
      Lives (.written k content) (.written k (content ++ more))
  | closed (k : Int × Bytes) (content more : Bytes) :
      Lives (.written k content) (.settled (content ++ more))

/-- A life that moves forward twice has moved forward. -/
theorem Lives.trans {a b c : Life} (first : Lives a b) (second : Lives b c) : Lives a c := by
  cases first with
  | same => exact second
  | created k content =>
    cases second with
    | same => exact .created k content
    | grown _ _ more => exact .created k (content ++ more)
    | closed _ _ more => exact .completed (content ++ more)
  | completed content =>
    cases second
    exact .completed content
  | grown k content more =>
    cases second with
    | same => exact .grown k content more
    | grown _ _ further =>
      rw [List.append_assoc]
      exact .grown k content (more ++ further)
    | closed _ _ further =>
      rw [List.append_assoc]
      exact .closed k content (more ++ further)
  | closed k content more =>
    cases second
    exact .closed k content more

/-! ## The state of a place -/

/-- A datastore session that writes the place. -/
def DSession.Writes (d : DSession) (place : Bytes) : Prop :=
  d.fp.mode = .write ∧ d.fp.node = place

instance (d : DSession) (place : Bytes) : Decidable (d.Writes place) :=
  inferInstanceAs (Decidable (d.fp.mode = .write ∧ d.fp.node = place))

/-- The first node that writes the place. -/
def IWDS.writer (ds : IWDS) (place : Bytes) : Option DSession :=
  ds.dhead.find? (fun d => d.Writes place)

/-- The life of a place: missing, written by the node that has it open for writing, or settled. -/
def IWDS.life (ds : IWDS) (place : Bytes) : Life :=
  match ds.disk place with
  | .absent => .absent
  | .directory => .directory
  | .device => .device
  | .regular content =>
    match ds.writer place with
    | some d => .written d.key content
    | none => .settled content

/-- A writer that is found is a node that writes the place. -/
theorem writer_some {ds : IWDS} {place : Bytes} {d : DSession} (found : ds.writer place = some d) :
    d ∈ ds.dhead ∧ d.Writes place :=
  ⟨List.mem_of_find?_eq_some found, by simpa using List.find?_some found⟩

/-- There is no writer when no node writes the place. -/
theorem writer_none_iff {ds : IWDS} {place : Bytes} :
    ds.writer place = none ↔ ∀ d ∈ ds.dhead, ¬ d.Writes place := by
  simp [IWDS.writer]

/-- A writer of a file is the only one. -/
theorem writer_of_mem {ds : IWDS} {place : Bytes} {d : DSession} (inv : Consistent vol ds)
    (ordinary : ds.disk place ≠ .device) (member : d ∈ ds.dhead) (writes : d.Writes place) :
    ds.writer place = some d := by
  cases found : ds.writer place with
  | none => exact absurd writes (writer_none_iff.mp found d member)
  | some e =>
    obtain ⟨inList, eWrites⟩ := writer_some found
    rw [inv.oneWriter e inList d member (eWrites.2.symm ▸ ordinary) eWrites.1 writes.1
      (eWrites.2.trans writes.2.symm)]

/-- A place is settled when it holds its content and nobody writes it. -/
theorem settled_iff {ds : IWDS} {place content : Bytes} :
    ds.life place = .settled content ↔ Settled ds place content := by
  unfold IWDS.life Settled
  cases held : ds.disk place with
  | absent | directory | device => simp
  | regular bytes =>
    cases found : ds.writer place with
    | none =>
      have nobody := writer_none_iff.mp found
      simp only [Life.settled.injEq, FileNode.regular.injEq, iff_self_and]
      intro _ d member writes same
      exact nobody d member ⟨writes, same⟩
    | some d =>
      obtain ⟨member, writes⟩ := writer_some found
      simp only [reduceCtorEq, false_iff, not_and]
      exact fun _ unwritten => unwritten d member writes.1 writes.2

/-- The writer of a place is the only node that writes it, so it is the one found. -/
theorem life_written {ds : IWDS} {place content : Bytes} {d : DSession} (inv : Consistent vol ds)
    (held : ds.disk place = .regular content) (member : d ∈ ds.dhead) (writes : d.Writes place) :
    ds.life place = .written d.key content := by
  rw [IWDS.life, held, writer_of_mem inv (by rw [held]; nofun) member writes]

/-! ## Effects move the life of a file forward -/

/-- Where nothing was, an effect leaves nothing or makes a regular file. -/
theorem Prim.absent_becomes {k : Int × Bytes} {ds ds' : IWDS} {place : Bytes}
    (effect : Prim vol k ds ds') (inv : Consistent vol ds) (held : ds.disk place = .absent) :
    ds'.disk place = .absent ∨ ds'.disk place = .regular [] := by
  cases effect with
  | idle _ disk | openRead _ _ _ disk | advance _ _ _ _ _ _ _ _ disk | drop _ disk =>
    exact .inl (by rw [disk, held])
  | openWrite _ _ _ disk =>
    by_cases here : place = vol.node k.2
    · exact .inr (by rw [disk, here, Function.update_self, ← here, held, FileNode.truncated_absent])
    · exact .inl (by rw [disk, Function.update_of_ne here, held])
  | append d _ found _ _ disk =>
    have apart : place ≠ d.fp.node := by
      rintro rfl
      exact inv.there (at_mem found) held
    exact .inl (by rw [disk, Function.update_of_ne apart, held])

/-- A file in the hands of a writer grows under it, or the writer is dropped. -/
theorem Prim.written_becomes {k : Int × Bytes} {ds ds' : IWDS} {place content : Bytes}
    {d : DSession} (effect : Prim vol k ds ds') (inv : Consistent vol ds)
    (held : ds.disk place = .regular content) (member : d ∈ ds.dhead) (writes : d.Writes place) :
    (∃ d' ∈ ds'.dhead, d'.Writes place ∧ d'.key = d.key) ∨
      (Settled ds' place content) := by
  by_cases apart : d.key = k
  · have found : ds.at k = some d := by
      rw [← apart]
      exact Keyed.lookup_of_mem DSession.key inv.distinct member
    cases effect with
    | idle dhead _ => exact .inl ⟨d, dhead ▸ member, writes, rfl⟩
    | openRead absent | openWrite absent =>
      rw [found] at absent
      cases absent
    | advance e _ _ found' reads =>
      obtain rfl : d = e := Option.some.inj (found.symm.trans found')
      have writes := writes.1
      rw [reads] at writes
      cases writes
    | append e data found' _ dhead _ =>
      obtain rfl : d = e := Option.some.inj (found.symm.trans found')
      refine .inl ⟨{ d with fp := { d.fp with off := d.fp.off + data.length } }, ?_, writes, rfl⟩
      have found : ds.at d.key = some d := apart ▸ found
      have linked := Keyed.lookup_store_self DSession.key
        (a := { d with fp := { d.fp with off := d.fp.off + data.length } }) found
      rw [dhead]
      exact (Keyed.lookup_some DSession.key linked).2
    | drop dhead disk =>
      refine .inr ⟨by rw [disk, held], fun e inList eWrites same => ?_⟩
      rw [dhead] at inList
      have old := Keyed.mem_of_mem_remove DSession.key inList
      have equal := inv.oneWriter e old d member (by rw [same, held]; nofun) eWrites writes.1
        (same.trans writes.2.symm)
      have other := Keyed.key_ne_of_mem_remove DSession.key inv.distinct inList
      exact other (equal ▸ apart)
  · exact .inl ⟨d, effect.mem_new member apart, writes, rfl⟩

/-- A single effect moves the life of every place forward, or leaves it.

Proof: by the kind of the effect. `fopen` for writing makes a missing file, a write adds to the
file of the node's own stream, and a removal settles it. -/
theorem Prim.lives {k : Int × Bytes} {ds ds' : IWDS} (effect : Prim vol k ds ds')
    (inv : Consistent vol ds) (place : Bytes) : Lives (ds.life place) (ds'.life place) := by
  have inv' := effect.consistent inv
  cases held : ds.disk place with
  | directory =>
    have stays := effect.special_stays inv (.inl held)
    rw [IWDS.life, held, IWDS.life, stays, held]
    exact .same _
  | device =>
    have stays := effect.special_stays inv (.inr held)
    rw [IWDS.life, held, IWDS.life, stays, held]
    exact .same _
  | absent =>
    have before : ds.life place = .absent := by rw [IWDS.life, held]
    rw [before]
    obtain held' | held' := effect.absent_becomes inv held
    · rw [IWDS.life, held']
      exact .same _
    · rw [IWDS.life, held']
      cases ds'.writer place with
      | none => exact .completed []
      | some d => exact .created d.key []
  | regular content =>
    cases found : ds.writer place with
    | none =>
      have settled : Settled ds place content := by
        rw [← settled_iff, IWDS.life, held, found]
      rw [settled_iff.mpr settled, settled_iff.mpr (effect.settled settled)]
      exact .same _
    | some d =>
      obtain ⟨member, writes⟩ := writer_some found
      obtain ⟨more, grown⟩ := effect.grows inv held
      rw [life_written inv held member writes]
      obtain ⟨d', member', writes', key⟩ | settled :=
        effect.written_becomes inv held member writes
      · rw [life_written inv' grown member' writes', key]
        exact .grown d.key content more
      · rw [settled_iff.mpr settled]
        have whole := Lives.closed d.key content []
        rw [List.append_nil] at whole
        exact whole

/-- The key has no stream that writes the place. -/
def Unwritten (k : Int × Bytes) (ds : IWDS) (place : Bytes) : Prop :=
  ∀ d, ds.at k = some d → ¬ d.Writes place

/-- An effect for a key changes a regular file only through the key's own stream. -/
theorem Prim.unwritten {k : Int × Bytes} {ds ds' : IWDS} {place content : Bytes}
    (effect : Prim vol k ds ds') (inv : Consistent vol ds)
    (held : ds.disk place = .regular content) (unwritten : Unwritten k ds place) :
    ds'.disk place = .regular content ∧ Unwritten k ds' place := by
  cases effect with
  | idle dhead disk =>
    refine ⟨by rw [disk, held], fun d found => unwritten d ?_⟩
    rwa [IWDS.at, dhead] at found
  | openRead _ _ dhead disk =>
    refine ⟨by rw [disk, held], fun d found writes => ?_⟩
    rw [IWDS.at, dhead, Keyed.lookup_cons, if_pos (opened_key vol k _)] at found
    obtain rfl := Option.some.inj found
    cases writes.1
  | openWrite _ free dhead disk =>
    have apart : place ≠ vol.node k.2 := by
      rintro rfl
      exact free.not_regular content held
    refine ⟨by rw [disk, Function.update_of_ne apart, held], fun d found writes => ?_⟩
    rw [IWDS.at, dhead, Keyed.lookup_cons, if_pos (opened_key vol k _)] at found
    obtain rfl := Option.some.inj found
    exact apart writes.2.symm
  | advance e off eof found reads _ _ dhead disk =>
    refine ⟨by rw [disk, held], fun d found' writes => ?_⟩
    have key := lookup_key found
    have linked := Keyed.lookup_store_self DSession.key
      (a := { e with fp := { e.fp with off := off, eof := eof } }) (key ▸ found)
    rw [IWDS.at, dhead, ← key] at found'
    obtain rfl := Option.some.inj (linked.symm.trans found')
    have mode := writes.1
    rw [show ({ e with fp := { e.fp with off := off, eof := eof } } : DSession).fp.mode = .read
      from reads] at mode
    cases mode
  | append e data found mode dhead disk =>
    have apart : place ≠ e.fp.node := fun same => unwritten e found ⟨mode, same.symm⟩
    refine ⟨by rw [disk, Function.update_of_ne apart, held], fun d found' writes => ?_⟩
    have key := lookup_key found
    have linked := Keyed.lookup_store_self DSession.key
      (a := { e with fp := { e.fp with off := e.fp.off + data.length } }) (key ▸ found)
    rw [IWDS.at, dhead, ← key] at found'
    obtain rfl := Option.some.inj (linked.symm.trans found')
    exact apart writes.2.symm
  | drop dhead disk =>
    refine ⟨by rw [disk, held], fun d found => ?_⟩
    rw [IWDS.at, dhead, Keyed.lookup_remove_self DSession.key inv.distinct] at found
    cases found

/-- A file that is not written under a key is not changed by calls under that key, and not opened
for writing by them. -/
theorem Chain.unwritten {k : Int × Bytes} {ds ds' : IWDS} {place content : Bytes}
    (chain : Chain vol k ds ds') (inv : Consistent vol ds)
    (held : ds.disk place = .regular content) (unwritten : Unwritten k ds place) :
    ds'.disk place = .regular content ∧ Unwritten k ds' place := by
  have all : Consistent vol ds' ∧ ds'.disk place = .regular content ∧ Unwritten k ds' place := by
    refine chain.invariant (fun x => Consistent vol x ∧ x.disk place = .regular content ∧
      Unwritten k x place) ?_ ⟨inv, held, unwritten⟩
    rintro before after ⟨consistent, file, nobody⟩ effect
    exact ⟨effect.consistent consistent, effect.unwritten consistent file nobody⟩
  exact all.2

/-- Effects for any keys. -/
abbrev Effects (vol : Volume) : IWDS → IWDS → Prop :=
  Relation.ReflTransGen fun ds ds' => ∃ k, Prim vol k ds ds'

/-- Calls under one key are effects. -/
theorem Chain.effects {k : Int × Bytes} {ds ds' : IWDS} (chain : Chain vol k ds ds') :
    Effects vol ds ds' := 
  chain.invariant (Effects vol ds) (fun _ _ before effect => before.tail ⟨k, effect⟩) .refl

/-- Any effects move the life of every place forward, by induction over them. -/
theorem Effects.lives {ds ds' : IWDS} (effects : Effects vol ds ds') (inv : Consistent vol ds)
    (place : Bytes) : Consistent vol ds' ∧ Lives (ds.life place) (ds'.life place) := by
  induction effects with
  | refl => exact ⟨inv, .same _⟩
  | tail _ last inductionHypothesis =>
    obtain ⟨k, effect⟩ := last
    obtain ⟨between, lives⟩ := inductionHypothesis
    exact ⟨effect.consistent between, lives.trans (effect.lives between place)⟩

/-- What is no device does not become one. -/
theorem Effects.ordinary {ds ds' : IWDS} (effects : Effects vol ds ds') {place : Bytes}
    (ordinary : ds.disk place ≠ .device) : ds'.disk place ≠ .device := by
  induction effects with
  | refl => exact ordinary
  | tail _ last inductionHypothesis =>
    obtain ⟨k, effect⟩ := last
    exact effect.ordinary inductionHypothesis

/-- A device stays one, and nothing else becomes one. -/
theorem Effects.device_iff {ds ds' : IWDS} (effects : Effects vol ds ds') (inv : Consistent vol ds)
    {place : Bytes} : ds'.disk place = .device ↔ ds.disk place = .device := by
  have both : Consistent vol ds' ∧ (ds'.disk place = .device ↔ ds.disk place = .device) := by
    induction effects with
    | refl => exact ⟨inv, Iff.rfl⟩
    | tail _ last inductionHypothesis =>
      obtain ⟨k, effect⟩ := last
      obtain ⟨between, same⟩ := inductionHypothesis
      exact ⟨effect.consistent between, (Chain.device_iff (.single effect) between).trans same⟩
  exact both.2

/-! ## Runs of the service -/

/-- The timer closes streams. -/
theorem resendAllsession_effects (vol : Volume) (t : Tick) (head : List Session) (ads : IWDS)
    (addr : Bytes) (addrlen : Nat) :
    Effects vol ads (resendAllsession t head ads addr addrlen).ads := by
  induction head generalizing ads addr addrlen with
  | nil => exact .refl
  | cons pm rest inductionHypothesis =>
    rw [resendAllsession]
    split
    · exact inductionHypothesis ads addr addrlen
    split
    · exact inductionHypothesis ads addr addrlen
    split
    · apply (closeData_chain vol { pm with disabled := true } ads).effects.trans
      exact inductionHypothesis (closeData { pm with disabled := true } ads) addr addrlen
    split
    · exact inductionHypothesis ads addr addrlen
    · exact inductionHypothesis ads _ _

/-- Every step of the service is a sequence of effects. -/
theorem step_effects (host : Host) (st : Server) (e : Event) :
    Effects host.toVolume st.ads (step host st e).ads := by
  cases e with
  | tick t =>
    have started : Effects host.toVolume st.ads { st.ads with faults := t.faults, trace := [] } :=
      .single ⟨(0, []), .idle rfl rfl⟩
    exact started.trans (resendAllsession_effects host.toVolume t st.seshead _ t.addr sockaddrStorage)
  | datagram d =>
    have received : Effects host.toVolume st.ads (st.receive d).ads := .single ⟨(0, []), .idle rfl rfl⟩
    rw [step, serve]
    cases named : host.client d.src with
    | none =>
      rw [recv_ignored named]
      exact received
    | some c =>
      rw [recv_eq named]
      obtain same | ⟨k, _, chain, _⟩ := proc_key host st d c
      · dsimp only
        rw [same]
        exact received
      · exact received.trans chain.effects

/-- Whoever changes a regular file is the client of the session that writes it. -/
def WritesInto (host : Host) (st : Server) (e : Event) (place : Bytes) : Prop :=
  ∃ d c s n, e = .datagram d ∧ host.client d.src = some c ∧ getSession st.seshead c = some s ∧
    st.ads.at s.dkey = some n ∧ n.Writes place

/-! ## Calls of the interfaces -/

/-- A call of an interface of the datastore, with the faults that its stdio calls meet. -/
inductive Call where
  | read (dsid : Int) (dfile : Bytes) (dlen : Nat) (faults : List Fault)
  | write (dsid : Int) (dfile dbuf : Bytes) (faults : List Fault)
  | close (dsid : Int) (dfile : Bytes) (faults : List Fault)

/-- The key that a call is for. -/
def Call.key : Call → Int × Bytes
  | .read dsid dfile _ _ | .write dsid dfile _ _ | .close dsid dfile _ => (dsid, dfile)

/-- The datastore after a call. -/
def Call.run (vol : Volume) (ds : IWDS) : Call → IWDS
  | .read dsid dfile dlen faults =>
    (iwdsRead vol { ds with faults := faults, trace := [] } dsid dfile dlen).ds
  | .write dsid dfile dbuf faults =>
    (iwdsWrite vol { ds with faults := faults, trace := [] } dsid dfile dbuf).ds
  | .close dsid dfile faults => iwdsClose { ds with faults := faults, trace := [] } dsid dfile

/-- A call of datastore.c is one under its key. -/
theorem Call.chain (vol : Volume) (ds : IWDS) (call : Call) :
    Chain vol call.key ds (call.run vol ds) := by
  have started (faults : List Fault) :
      Chain vol call.key ds { ds with faults := faults, trace := [] } := .single (.idle rfl rfl)
  cases call with
  | read dsid dfile dlen faults => exact (started faults).trans (iwdsRead_chain vol _ dsid dfile dlen)
  | write dsid dfile dbuf faults =>
    exact (started faults).trans (iwdsWrite_chain vol _ dsid dfile dbuf)
  | close dsid dfile faults => exact (started faults).trans (iwdsClose_chain vol _ dsid dfile)

/-- The states of the datastore that calls lead to, whatever the ids and names. -/
abbrev Called (vol : Volume) : IWDS → IWDS → Prop :=
  Runs.Reaches (Call.run vol) (fun _ _ => True)

/-- Any sequence of calls has its effects. -/
theorem Called.effects {ds ds' : IWDS} (run : Called vol ds ds') : Effects vol ds ds' := by
  induction run with
  | refl => exact .refl
  | tail _ last inductionHypothesis =>
    obtain ⟨call, _, rfl⟩ := last
    exact inductionHypothesis.trans (call.chain vol _).effects

/-- What holds of a file from one state of the datastore to a later one. -/
structure Lawful (place : Bytes) (before after : IWDS) : Prop where
  /-- Two write-mode nodes on the file are one. -/
  oneWriter : ∀ d ∈ after.dhead, ∀ e ∈ after.dhead, d.Writes place → e.Writes place → d = e
  lives : Lives (before.life place) (after.life place)

/-- What the lives of a place say about its file and its writers. -/
theorem Effects.lawful {ds ds' : IWDS} {place : Bytes} (effects : Effects vol ds ds')
    (inv : Consistent vol ds) (ordinary : ds.disk place ≠ .device) : Lawful place ds ds' := by
  constructor
  · intro d dMember e eMember dWrites eWrites
    have inv' := (effects.lives inv place).1
    exact inv'.oneWriter d dMember e eMember (dWrites.2.symm ▸ effects.ordinary ordinary) dWrites.1
      eWrites.1 (dWrites.2.trans eWrites.2.symm)
  · exact (effects.lives inv place).2

/-- Any run of the service has its effects on the datastore. -/
theorem run_effects {st st' : Server} (run : Runs.Reaches (step host) Admissible st st') :
    Effects host.toVolume st.ads st'.ads := by
  induction run with
  | refl => exact .refl
  | tail _ last inductionHypothesis =>
    obtain ⟨e, _, rfl⟩ := last
    exact inductionHypothesis.trans (step_effects host _ e)

/-- A step that changes a regular file is its writer's. -/
theorem changed_by_writer {st : Server} {e : Event} {place content : Bytes}
    (inv : WellFormed host.toVolume st) (held : st.ads.disk place = .regular content)
    (changed : (step host st e).ads.disk place ≠ .regular content) :
    WritesInto host st e place := by
  by_contra nobody
  apply changed
  cases e with
  | tick t =>
    obtain ⟨_, disk, _⟩ := resendAllsession_steps t st.seshead
      { st.ads with faults := t.faults, trace := [] } t.addr sockaddrStorage
    have same : (step host st (.tick t)).ads.disk = st.ads.disk := disk
    rw [same, held]
  | datagram d =>
    rw [step, serve]
    cases named : host.client d.src with
    | none =>
      rw [recv_ignored named]
      exact held
    | some c =>
      rw [recv_eq named]
      have received : Consistent host.toVolume (st.receive d).ads := inv.ads.congr rfl rfl
      cases found : getSession st.seshead c with
      | some s =>
        have unwritten : Unwritten s.dkey (st.receive d).ads place := fun n node writes =>
          nobody ⟨d, c, s, n, rfl, named, found, node, writes⟩
        exact ((proc_handled host d found).chain.unwritten received held unwritten).1
      | none =>
        have opening := proc_opening host d found
        dsimp only
        generalize st.proc host d c = p at opening
        cases opening with
        | nothing _ _ same =>
          rw [same]
          exact held
        | socketless => exact held
        | reader req fd =>
          have disk := makeTftpdataMsg_disk (newSession c req fd) tftpMsglenMax d.now received
          dsimp only
          rw [disk]
          exact held
        | writer => exact held

/-- The files under the service, and under any use of its interfaces: from any state on in
which something admitted is at a place, a regular file there keeps its bytes in front and at
most one node writes it; it grows only while its creator is there, never changes afterwards,
and every change is made by the creator. -/
def WrittenOnce (host : Host) (admits : FileNode → Prop) : Prop :=
  ∀ place : Bytes,
    (∀ st st' e, Reachable host st → Runs.Reaches (step host) Admissible st st' →
      admits (st.ads.disk place) → Lawful place st.ads st'.ads ∧
        ∀ content, st'.ads.disk place = .regular content →
          (step host st' e).ads.disk place ≠ .regular content → WritesInto host st' e place) ∧
    (∀ start ds ds' (call : Call), start.dhead = [] → Called host.toVolume start ds →
      Called host.toVolume ds ds' → admits (ds.disk place) → Lawful place ds ds' ∧
        ∀ content, ds'.disk place = .regular content →
          (call.run host.toVolume ds').disk place ≠ .regular content →
          ∃ n, ds'.at call.key = some n ∧ n.Writes place)

/-- Every file is written once, devices apart.

Proof: the effects of a step, and of a call, move the life of a place forward, and the
invariant of the datastore has one writer at every place that is no device. A change that is
not the writer's would be a change to a file that nobody of that key has open. -/
theorem files_written_once (host : Host) : WrittenOnce host (· ≠ .device) := by
  intro place
  constructor
  · intro st st' e reachable run ordinary
    have inv := reachable.wellFormed
    have inv' := run.invariant (fun _ _ inv may => inv.step may) inv
    refine ⟨(run_effects run).lawful inv.ads ordinary, ?_⟩
    intro content held changed
    exact changed_by_writer inv' held changed
  · intro start ds ds' call empty first run ordinary
    have inv := (first.effects.lives (consistent_nil empty) []).1
    have inv' := (run.effects.lives inv []).1
    refine ⟨run.effects.lawful inv ordinary, ?_⟩
    intro content held changed
    by_contra nobody
    refine changed ((call.chain host.toVolume ds').unwritten inv' held ?_).1
    exact fun n node writes => nobody ⟨n, node, writes⟩

/-- Two clients have asked to write one file, and one of them has written it. -/
def wonByFirst : Server :=
  Runs.exec (step smallHost) uploadOpen
    [.datagram (uploadRequest [2] 6), .datagram (arrival [1] (dataMsg 1 [1, 2, 3]) none)]

/-- The block of the other one does not change it. -/
theorem files_written_once_sample :
    wonByFirst.ads.disk (slash :: [102]) = .regular [1, 2, 3] ∧
      (step smallHost wonByFirst (.datagram (arrival [2] (dataMsg 1 [9]) none))).ads.disk
        (slash :: [102]) = .regular [1, 2, 3] := by
  have written : wonByFirst.ads.disk (slash :: [102]) = .regular [1, 2, 3] := by decide +kernel
  have closed : wonByFirst.ads.dhead = [] := by decide +kernel
  have first : Reachable smallHost uploadOpen :=
    (startOn_reachable smallHost _).step (admissible_first rfl rfl (by decide))
  have second : Admissible uploadOpen (.datagram (uploadRequest [2] 6)) := by
    intro fd same
    cases same
    exact ⟨by decide, by decide +kernel⟩
  have block : (Event.datagram (arrival [1] (dataMsg 1 [1, 2, 3]) none)).Quiet := rfl
  have reachable : Reachable smallHost wonByFirst := (first.step second).step (block.admissible _)
  refine ⟨written, ?_⟩
  by_contra changed
  have writes := ((files_written_once smallHost (slash :: [102])).1 wonByFirst wonByFirst
    (.datagram (arrival [2] (dataMsg 1 [9]) none)) reachable (.refl _) (by rw [written]; nofun)).2
    _ written changed
  obtain ⟨_, _, s, n, _, _, _, node, _⟩ := writes
  rw [IWDS.at, closed] at node
  cases node

/-- A device after it was written to for two ids, as it is when two clients upload to it and
each has filled its buffer. -/
def deviceShared : IWDS :=
  Call.run smallHost.toVolume
    (Call.run smallHost.toVolume (startOn (deviceOn [102])).ads (.write 5 [102] [1] []))
    (.write 6 [102] [2] [])

/-- Both have the device open for writing. -/
theorem files_not_written_once : ¬ WrittenOnce smallHost fun _ => True := by
  intro once
  have called : Called smallHost.toVolume (startOn (deviceOn [102])).ads deviceShared :=
    ((Runs.Reaches.refl _).snoc trivial).snoc trivial
  have law := ((once (slash :: [102])).2 (startOn (deviceOn [102])).ads deviceShared deviceShared
    (.close 5 [102] []) rfl called (.refl _) trivial).1
  have two : ∃ d ∈ deviceShared.dhead, ∃ e ∈ deviceShared.dhead,
      d.Writes (slash :: [102]) ∧ e.Writes (slash :: [102]) ∧ d ≠ e := by
    decide +kernel
  obtain ⟨d, dMember, e, eMember, dWrites, eWrites, apart⟩ := two
  exact apart (law.oneWriter d dMember e eMember dWrites eWrites)

end Iwtftpd
