import Iwtftpd.Isolation
import Iwtftpd.Readable

/-!
# The block a session waits on

A session that waits on a block keeps the message of that block for resending.
The encoder of DATA moves on to the next number before it reads the block; when
the read fails, the number stays where it is and the last message is that of the
block before. Every other path keeps the two together.
-/

namespace Iwtftpd

variable {host : Host} {vol : Volume}

/-- The last message, when there is one, is DATA or ACK of the block that the session waits on. -/
def Session.Current (s : Session) : Prop :=
  s.lastmsg = [] ∨
    (∃ data, data.length ≤ tftpDatalenMax ∧ s.lastmsg = dataMsg s.blknum data) ∨
    s.lastmsg = ackMsg s.blknum

/-- After the step, the last message of every session is current. -/
def KeepsCurrent (host : Host) (st : Server) (e : Event) : Prop :=
  ∀ s ∈ (step host st e).seshead, s.Current

/-- When the current block of an unfinished session is acknowledged, the next one can be made. -/
def Continues (host : Host) (st : Server) (e : Event) : Prop :=
  ∀ d c s, e = .datagram d → host.client d.src = some c → getSession st.seshead c = some s →
    st.move d s = .advance → s.fin = false → s.lastmsg ≠ [] →
    Readable host.toVolume s (st.receive d).ads

/-! ## One step -/

/-- The number in a message of a block. -/
theorem blockOf_dataMsg (blk : UInt16) (data : Bytes) : ofBe16 ((dataMsg blk data).drop 2) = blk :=
  ofBe16_be16 blk data

theorem blockOf_ackMsg (blk : UInt16) : ofBe16 ((ackMsg blk).drop 2) = blk := ofBe16_be16 blk []

/-- A last message that was current is not once the number has moved on. -/
theorem not_current {s : Session} (current : s.Current) (kept : s.lastmsg ≠ []) (s' : Session)
    (same : s'.lastmsg = s.lastmsg) (blknum : s'.blknum ≠ s.blknum) : ¬ s'.Current := by
  have number {s : Session} (current : s.Current) (kept : s.lastmsg ≠ []) :
      ofBe16 (s.lastmsg.drop 2) = s.blknum := by
    obtain none | ⟨data, _, data'⟩ | ack := current
    · exact absurd none kept
    · rw [data', blockOf_dataMsg]
    · rw [ack, blockOf_ackMsg]
  intro current'
  have here := number current' (same ▸ kept)
  rw [same, number current kept] at here
  exact blknum here.symm

/-- What was made of the same message and number is as current. -/
theorem Session.Current.congr {s s' : Session} (current : s.Current)
    (lastmsg : s'.lastmsg = s.lastmsg) (blknum : s'.blknum = s.blknum) : s'.Current := by
  rw [Session.Current, lastmsg, blknum]
  exact current

theorem nextData_current {s : Session} {ds : IWDS} (now : Int) (inv : Consistent vol ds)
    (fits : s.sesbuf.Fits) (current : s.Current) (running : s.fin = false) :
    ((nextData vol s ds now).after s).Current ↔ (s.lastmsg ≠ [] → Readable vol s ds) := by
  have ends := makeTftpdataMsg_made_iff now inv fits
  obtain ⟨msg, made, _, after, _⟩ | ⟨failed, _, after, _⟩ := nextData_cases vol ds now running
  · obtain ⟨data, short, rfl, blknum⟩ := makeTftpdataMsg_data made
    refine iff_of_true ?_ fun _ => ends.mp (by rw [made]; nofun)
    rw [after]
    refine .inr (.inl ⟨data, short, ?_⟩)
    rw [blknum]
    exact (makeTftpdataMsg_made made).2.1
  · have unreadable : ¬ Readable vol s ds := fun readable => ends.mpr readable failed
    have same := makeTftpdataMsg_none failed
    rw [after, same]
    by_cases none : s.lastmsg = []
    · exact iff_of_true (.inl none) fun kept => absurd none kept
    · refine iff_of_false ?_ fun fine => unreadable (fine none)
      exact not_current current none _ rfl (nextBlk_ne s.blknum)

theorem run_current {s : Session} {ds : IWDS} (dlen : Nat) (now : Int) (move : Move)
    (inv : Consistent vol ds) (fits : s.sesbuf.Fits) (current : s.Current) :
    ((move.run vol s ds dlen now).after s).Current ↔
      (move = .advance → s.fin = false → s.lastmsg ≠ [] → Readable vol s ds) := by
  have kept (still : move.Still s) : ((move.run vol s ds dlen now).after s).Current := by
    obtain ⟨_, lastmsg, blknum⟩ := run_still vol ds dlen now still
    exact current.congr lastmsg blknum
  cases move with
  | resend | refuse | abort | pass => exact iff_of_true (kept trivial) nofun
  | store dat =>
    refine iff_of_true ?_ nofun
    obtain ⟨_, ⟨_, _, lastmsg, blknum⟩ | ⟨_, _, lastmsg, blknum, _⟩⟩ :=
      storeBlock_cases vol s ds dat dlen now
    · refine .inr (.inr ?_)
      show ((storeBlock vol s ds dat dlen now).after s).lastmsg = _
      rw [lastmsg, ← blknum]
      rfl
    · exact current.congr lastmsg blknum
  | advance =>
    cases fin : s.fin with
    | true => exact iff_of_true (kept fin) nofun
    | false =>
      have ends := nextData_current now inv fits current fin
      exact ends.trans ⟨fun fine _ _ => fine, fun fine => fine rfl rfl⟩

/-- A session that was just opened is current. -/
theorem opened_current {ds : IWDS} {rbuf : Bytes} {dlen : Nat} {c : Client} {now : Int}
    {newsock : Option Int} {p : Proc} {s : Session}
    (opening : Opening vol ds rbuf dlen c now newsock p) (linked : p.edit = .insert s) :
    s.Current := by
  cases opening with
  | nothing edit _ _ =>
    rw [edit] at linked
    cases linked
  | socketless req _ _ =>
    cases linked
    exact .inl rfl
  | reader req fd content _ _ _ _ =>
    cases linked
    rw [startReader]
    dsimp only
    cases made : (makeTftpdataMsg vol (newSession c req fd) ds tftpMsglenMax now).1 with
    | none =>
      rw [if_pos rfl, makeTftpdataMsg_none made]
      exact .inl rfl
    | some msg =>
      obtain ⟨data, short, rfl, blknum⟩ := makeTftpdataMsg_data made
      rw [if_neg nofun]
      refine .inr (.inl ⟨data, short, ?_⟩)
      rw [blknum]
      exact (makeTftpdataMsg_made made).2.1
  | writer req fd _ _ _ _ =>
    cases linked
    exact .inr (.inr rfl)

/-- A step keeps the last messages current if and only if it continues where a block is
acknowledged. -/
theorem keepsCurrent_iff {st : Server} {e : Event} (inv : WellFormed host.toVolume st)
    (current : ∀ s ∈ st.seshead, s.Current) : KeepsCurrent host st e ↔ Continues host st e := by
  cases e with
  | tick t =>
    refine iff_of_true ?_ nofun
    intro s' member
    obtain ⟨after, pairs, list⟩ := endIteration_seshead (t := t) inv
    have member : s' ∈ (endIteration st t).1.seshead := member
    rw [list, List.mem_filter] at member
    obtain ⟨s, old, aged⟩ := forall₂_mem pairs member.1
    exact (current s old).congr aged.lastmsg aged.blknum
  | datagram d =>
    cases named : host.client d.src with
    | none =>
      apply iff_of_true
      · intro s member
        have member : s ∈ (recv host st d).1.seshead := member
        rw [recv_ignored named] at member
        exact current s member
      · rintro _ c s ⟨⟩ known
        rw [named] at known
        cases known
    | some c =>
      cases found : getSession st.seshead c with
      | some s =>
        have received : Consistent host.toVolume (st.receive d).ads := inv.ads.congr rfl rfl
        have fits := inv.buffers s (session_mem found)
        have after := run_current d.len d.now (st.move d s) received fits
          (current s (session_mem found))
        rw [← proc_move found] at after
        constructor
        · rintro keeps _ c' s' ⟨⟩ named' found'
          rw [named] at named'
          cases named'
          rw [found] at found'
          cases found'
          exact after.mp (keeps _ (session_mem (getSession_recv named found)))
        · intro continues s' member
          have now := after.mpr fun move => continues d c s rfl named found move
          have member : s' ∈ (recv host st d).1.seshead := member
          rw [recv_eq named] at member
          dsimp only at member
          rw [handled_apply found (proc_handled host d found)] at member
          obtain rfl | old := Keyed.mem_of_mem_store Session.key member
          · exact now
          · exact current s' old
      | none =>
        apply iff_of_true
        · intro s member
          have opening := proc_opening host d found
          have member : s ∈ (recv host st d).1.seshead := member
          rw [recv_eq named] at member
          dsimp only at member
          have inserted {s' : Session} (edit : (st.proc host d c).edit = .insert s') : s.Current := by
            rw [edit] at member
            obtain rfl | old := List.mem_cons.mp member
            · exact opened_current opening edit
            · exact current s old
          cases proc_fresh host d found with
          | nothing edit _ _ =>
            rw [edit] at member
            exact current s member
          | socketless req _ edit _ _ _ => exact inserted edit
          | linked req fd s' linked => exact inserted linked.edit
        · rintro _ c' s' ⟨⟩ named' found'
          rw [named] at named'
          cases named'
          rw [found] at found'
          cases found'

/-! ## Runs -/

/-- Along a run from the start, the last message of every session is current in every state if and
only if every acknowledged block is followed by one that can be made.

Proof: in one step the last message stays current unless the number moves on and the message does
not, which is when the next block cannot be made. The agreement is carried along the run. -/
theorem lastmsg_current_iff {start : Server} {events : List Event} (initial : Initial start)
    (admits : Runs.Admits (step host) Admissible start events) :
    Runs.Admits (step host) (KeepsCurrent host) start events ↔
      Runs.Admits (step host) (Continues host) start events := by
  have none : ∀ s ∈ start.seshead, s.Current := by
    rw [initial.1]
    nofun
  refine admits.agree_under (fun st : Server => ∀ s ∈ st.seshead, s.Current) none
    (fun _ _ _ _ keeps => keeps) ?_
  intro st e run current _
  have reachable : Reachable host st := ⟨start, initial, run⟩
  exact keepsCurrent_iff reachable.wellFormed current

/-- A client asks for a file of one whole block and acknowledges it; the read for the next block
meets the faults. -/
def acknowledged (faults : List Fault) : List Event :=
  [.datagram (arrival [1] (reqMsg opRrq [102] .octet) (some 5)),
    .datagram { arrival [1] (ackMsg 1) none with faults := faults }]

/-- A server with a file of one whole block. -/
def wholeBlock : Server := startOn (diskWith [102] (List.replicate tftpDatalenMax 7))

theorem acknowledged_admits (faults : List Fault) :
    Runs.Admits (step smallHost) Admissible wholeBlock (acknowledged faults) :=
  ⟨admissible_first rfl rfl (by decide), nofun, trivial⟩

/-- The message stays current when the read for the next block succeeds, and does not when it
fails. -/
theorem lastmsg_current_sample :
    Runs.Admits (step smallHost) (KeepsCurrent smallHost) wholeBlock (acknowledged []) ∧
      ¬ Runs.Admits (step smallHost) (KeepsCurrent smallHost) wholeBlock (acknowledged [.fail 0]) := by
  let first : Event := .datagram (arrival [1] (reqMsg opRrq [102] .octet) (some 5))
  let opened := step smallHost wholeBlock first
  let ack (faults : List Fault) : Datagram := { arrival [1] (ackMsg 1) none with faults := faults }
  have waiting : ∃ s, getSession opened.seshead ([1], 2000) = some s ∧ s.fin = false ∧ s.lastmsg ≠ [] ∧
      s.yields s.atHand = 0 ∧ opened.move (ack [.fail 0]) s = .advance := by decide +kernel
  have reads : ∀ s ∈ getSession opened.seshead ([1], 2000),
      (s.reader smallHost.toVolume (opened.receive (ack [])).ads).fp.mode = .read ∧ s.filename = [102] ∧
      0 < s.calls (opened.receive (ack [.fail 0])).ads := by decide +kernel
  have disk : (opened.receive (ack [])).ads.disk (smallHost.toVolume.node [102]) =
      .regular (List.replicate tftpDatalenMax 7) := by decide +kernel
  constructor
  · refine (lastmsg_current_iff (startOn_initial _) (acknowledged_admits [])).mpr ⟨?_, ?_, trivial⟩
    · intro d c s _ _ found
      cases found
    · rintro _ c s ⟨⟩ named found _ _ _
      obtain rfl : ([1], 2000) = c := Option.some.inj named
      obtain ⟨mode, filename, _⟩ := reads s found
      show Readable smallHost.toVolume s (opened.receive (ack [])).ads
      refine .inr ⟨List.replicate tftpDatalenMax 7, ?_, mode, clear_nil _ ?_⟩
      · rw [filename]
        exact disk
      · rfl
  · intro keeps
    obtain ⟨_, continues, _⟩ :=
      (lastmsg_current_iff (startOn_initial _) (acknowledged_admits [.fail 0])).mp keeps
    obtain ⟨s, found, running, kept, nothing, advances⟩ := waiting
    obtain ⟨_, _, calls⟩ := reads s found
    obtain full | ⟨_, _, _, clear⟩ := continues _ _ s rfl rfl found advances running kept
    · rw [nothing] at full
      exact absurd full (by decide)
    · have met : Fault.fail 0 = .none := by
        apply clear
        rw [List.take_of_length_le (Nat.le_trans calls (Nat.le_add_right _ _))]
        exact List.mem_singleton_self _
      cases met

/-- The session waits on block 2 and would send block 1 again. -/
theorem lastmsg_not_current :
    ∃ st s, Reachable smallHost st ∧ s ∈ st.seshead ∧ s.blknum = 2 ∧
      s.lastmsg = dataMsg 1 (List.replicate tftpDatalenMax 7) ∧ ¬ s.Current := by
  let st := Runs.exec (step smallHost) wholeBlock (acknowledged [.fail 0])
  have reachable : Reachable smallHost st :=
    ⟨wholeBlock, startOn_initial _, Runs.reaches_exec (acknowledged_admits [.fail 0])⟩
  have fields : ∃ s ∈ st.seshead, s.blknum = 2 ∧
      s.lastmsg = dataMsg 1 (List.replicate tftpDatalenMax 7) := by decide +kernel
  obtain ⟨s, member, blknum, lastmsg⟩ := fields
  refine ⟨st, s, reachable, member, blknum, lastmsg, ?_⟩
  have before : Session.Current { s with blknum := 1 } :=
    .inr (.inl ⟨_, List.length_replicate.le, lastmsg⟩)
  refine not_current before ?_ s rfl ?_
  · rw [lastmsg]
    nofun
  · rw [blknum]
    exact (by decide : (2 : UInt16) ≠ 1)

end Iwtftpd
