import Iwtftpd.Roles
import Iwtftpd.Saving

/-!
# After an ERROR

The label `errsend` marks the session with `fin`, the flag that also marks the
end of a transfer. A session that was sent an ERROR should send no DATA and no
ACK any more and write nothing. The flag alone does not do that: a repeated
block or request has the last message sent again, and the next block in sequence
is stored and acknowledged. The runs in which a session is left alone after its
ERROR are those in which neither happens.
-/

namespace Iwtftpd

variable {host : Host} {vol : Volume}

/-- A message that moves a transfer on. -/
def Carries (msg : Bytes) : Prop := opcodeOf msg = opData ∨ opcodeOf msg = opAck

instance (msg : Bytes) : Decidable (Carries msg) := by
  unfold Carries
  infer_instance

/-- The call ended at the label `errsend` with the session, and the ERROR goes out: the
session is enabled and has a socket. -/
structure Answered (p : Proc) (s : Session) : Prop where
  errsend : ∃ place ses ds ecode emsg, p = errsend place ses ds ecode emsg
  pointer : p.ses = some s
  enabled : s.disabled = false
  socket : 0 ≤ s.clsock

/-- In the step, the session of the client sends neither DATA nor ACK. A datagram of the
client and a tick write no byte, and nobody else writes the file that the session has
open for writing. -/
structure LeftAlone (host : Host) (c : Client) (s : Session) (st : Server) (e : Event) : Prop where
  unsent : ∀ m ∈ outputs host st e, m.ses = some c → ¬ Carries m.msg
  unwritten : e.Concerns host c → SameBytes st.ads (step host st e).ads
  held : ∀ d, st.ads.at s.dkey = some d → d.fp.mode = .write →
    ((step host st e).ads.disk d.fp.node).bytes = (st.ads.disk d.fp.node).bytes

/-! ## When a move leaves an errored session alone -/

/-- The first copy of a block puts nothing into an empty buffer. -/
def Session.Mute (s : Session) (payload : Bytes) : Prop :=
  s.sesbuf.datalen = 0 ∧ (payload = [] ∨ s.tftpmode = .netascii ∧ payload.head? = some cr)

/-- The first save cannot write: there is no node and `iwds_write` can open none, or the
stream is open for reading or fails at once. -/
def Denied (vol : Volume) (ds : IWDS) (s : Session) (payload : Bytes) : Prop :=
  (ds.at s.dkey = none ∧ ds.Denies vol s.dkey ∧
    (s.sesbuf.datalen ≠ 0 ∨ payload ≠ [])) ∨
  (¬ s.Mute payload ∧ ∃ d, ds.at s.dkey = some d ∧ (d.fp.mode = .read ∨ ds.fault = .fail 0))

/-- Nothing of the block is written: its first copy puts nothing into an empty buffer, and
the save behind it makes the file that refuses the rest. A device refuses nothing. -/
def Session.Unwritten (vol : Volume) (ds : IWDS) (s : Session) (payload : Bytes) : Prop :=
  s.Mute payload ∧
    (ds.disk (vol.node s.filename) = .device → s.tftpmode.kept payload = [] ∧ s.disabled = true)

/-- The moves that neither send DATA or ACK for a finished session nor write for it. -/
def Session.Harmless (vol : Volume) (ds : IWDS) (old : Bytes) (s : Session) : Move → Prop
  | .resend => s.disabled = true ∨ resendCountmax ≤ s.retrycount ∨ ¬ Carries s.lastmsg
  | .store dat => Denied vol ds s dat.data ∨
      (s.Unwritten vol ds dat.data ∧ (2 ≤ dat.data.length ∨ s.disabled = true))
  | .pass => s.disabled = true ∨ ¬ Carries old
  | _ => True

/-- The session of the client is there, and what arrives for it leaves it alone. -/
def Spares (host : Host) (c : Client) (st : Server) (e : Event) : Prop :=
  Admissible st e ∧ ∃ s, getSession st.seshead c = some s ∧
    ∀ d, e = .datagram d → host.client d.src = some c →
      s.Harmless host.toVolume (st.receive d).ads st.msg (st.move d s)

/-! ## A finished session that is given a block -/

theorem behind_mute (s : Session) (payload : Bytes) :
    (s.behind payload).sesbuf.datalen = 0 ↔ s.Mute payload := by
  show s.sesbuf.datalen + _ = 0 ↔ _
  rw [Session.Mute, Nat.add_eq_zero_iff, List.length_eq_zero_iff]
  apply and_congr_right
  intro empty
  rw [empty]
  cases s.tftpmode with
  | octet => cases payload <;> simp [TftpMode.piece]
  | netascii => cases payload <;> simp [TftpMode.piece]

/-- What is denied is answered with an ERROR, and nothing is written. -/
theorem putSessionData_denied {ses : Session} {ds : IWDS} {data : Bytes} (inv : Consistent vol ds)
    (fin : ses.fin = true) (denied : Denied vol ds ses data) :
    (putSessionData vol ses ds data).status = .err ∧
      SameBytes ds (putSessionData vol ses ds data).ds := by
  have some : ¬ (ses.sesbuf.datalen = 0 ∧ data.length = 0) := by
    rintro ⟨empty, nothing⟩
    have nil := List.eq_nil_of_length_eq_zero nothing
    obtain ⟨_, _, loaded⟩ | ⟨loud, _⟩ := denied
    · exact loaded.elim (fun h => h empty) (fun h => h nil)
    · exact loud ⟨empty, .inl nil⟩
  obtain ⟨ds₁, dhead, disk, faults, pass⟩ := putLoop_pass vol (data.length + 1) ses ds data
  rw [putSessionData, if_neg some, pass, flush_due (ses.behind data) ds₁ (.inr fin)]
  have save := saveData_cases (ses.behind data) (inv.congr dhead disk)
  have sameAt : ds₁.at ses.dkey = ds.at ses.dkey := by rw [IWDS.at, dhead]
  have sameFault : ds₁.fault = ds.fault := by rw [IWDS.fault, faults]; rfl
  have fails : (saveData vol (ses.behind data) ds₁).1 = false ∧
      (saveData vol (ses.behind data) ds₁).2.2.disk = ds₁.disk := by
    obtain ⟨absent, why, _⟩ | ⟨loud, d, found, why⟩ := denied
    · exact save.denied (sameAt.trans absent) (by rw [disk, sameFault]; exact denies_iff.mp why)
    · have loaded : (ses.behind data).sesbuf.datalen ≠ 0 := fun zero =>
        loud ((behind_mute ses data).mp zero)
      rw [← sameFault] at why
      generalize (saveData vol (ses.behind data) ds₁).1 = ok at save ⊢
      have same {e : DSession} (other : ds₁.at ses.dkey = Option.some e) : e = d :=
        Option.some.inj (other.symm.trans (sameAt.trans found))
      cases save with
      | finished e _ empty => exact absurd empty loaded
      | appended e e' found' mode clean =>
        obtain rfl := same found'
        obtain reads | fails := why
        · rw [mode] at reads
          cases reads
        · rw [clean] at fails
          cases fails
      | short e found' _ _ _ nothing =>
        obtain rfl := same found'
        exact ⟨rfl, nothing why⟩
      | created absent | started _ absent | refused absent | cut absent =>
        have gone : ds₁.at ses.dkey = none := absent
        rw [sameAt, found] at gone
        cases gone
  dsimp only
  rw [if_pos fails.1]
  exact ⟨rfl, .of_disk (fails.2.trans disk)⟩

/-- A block whose first copy puts nothing in writes nothing, and when more follows it is
answered with an ERROR: the first save has closed the file. -/
theorem putSessionData_mute {ses : Session} {ds : IWDS} {data : Bytes} (inv : Consistent vol ds)
    (fin : ses.fin = true) (mute : ses.Mute data)
    (ordinary : ds.disk (vol.node ses.filename) ≠ .device) :
    SameBytes ds (putSessionData vol ses ds data).ds ∧
      (2 ≤ data.length → (putSessionData vol ses ds data).status = .err) := by
  by_cases nothing : data = []
  · subst nothing
    rw [putSessionData, if_pos ⟨mute.1, rfl⟩]
    exact ⟨.refl ds, by simp⟩
  have some : ¬ (ses.sesbuf.datalen = 0 ∧ data.length = 0) := fun both =>
    nothing (List.eq_nil_of_length_eq_zero both.2)
  obtain ⟨ds₁, dhead, disk, faults, pass⟩ := putLoop_pass vol (data.length + 1) ses ds data
  have empty := (behind_mute ses data).mpr mute
  have one : ses.consumed data ≤ 1 := by
    have none : (ses.tftpmode.piece (sessionBufsize - ses.sesbuf.datalen) data).length = 0 :=
      (Nat.add_eq_zero_iff.mp empty).2
    rw [Session.consumed, TftpMode.consumed]
    split <;> omega
  rw [putSessionData, if_neg some, pass, flush_due (ses.behind data) ds₁ (.inr fin)]
  dsimp only
  have inv₁ : Consistent vol ds₁ := inv.congr dhead disk
  have save := saveData_cases (ses.behind data) inv₁
  have saved := saveData_session vol (ses.behind data) ds₁
  have inv₂ := (saveData_chain vol (ses.behind data) ds₁).consistent inv₁
  have ordinary₂ := (saveData_chain vol (ses.behind data) ds₁).ordinary (n := vol.node ses.filename)
    (by rw [disk]; exact ordinary)
  obtain ⟨bytes, closed⟩ := save.empty inv₁ empty
  have bytes : SameBytes ds _ := (SameBytes.of_disk disk).trans bytes
  generalize saveData vol (ses.behind data) ds₁ = f at bytes closed saved inv₂ ordinary₂ ⊢
  obtain ⟨_ | _, ses₂, ds₂⟩ := f
  · exact ⟨bytes, fun _ => rfl⟩
  · obtain ⟨absent, there⟩ := closed rfl
    dsimp only at bytes absent there saved inv₂ ordinary₂
    have taken : ¬ (ds₂.disk (vol.node ses.filename)).Opens := FileNode.not_opens there ordinary₂
    rw [if_pos rfl] at saved
    simp only [Bool.true_eq_false, if_false]
    split
    · have fin₂ : ses₂.fin = true := by rw [saved]; exact fin
      obtain ⟨ds₃, dhead₃, disk₃, _, pass₃⟩ :=
        putLoop_pass vol data.length ses₂ ds₂ (data.drop (ses.consumed data))
      rw [pass₃, flush_due (ses₂.behind (data.drop (ses.consumed data))) ds₃ (.inr fin₂)]
      dsimp only
      have refused := (saveData_cases (ses₂.behind (data.drop (ses.consumed data)))
        (inv₂.congr dhead₃ disk₃)).denied
        (by rw [IWDS.at, dhead₃, saved]; exact absent) (.inl (by rw [disk₃, saved]; exact taken))
      rw [if_pos refused.1]
      exact ⟨bytes.trans (.of_disk (refused.2.trans disk₃)), fun _ => rfl⟩
    · refine ⟨bytes, ?_⟩
      intro long
      omega

/-- A harmless move of a finished session writes nothing and sends no DATA or ACK. -/
theorem run_harmless {ses : Session} {ds : IWDS} (dlen : Nat) (now : Int) {old : Bytes}
    {move : Move} (inv : Consistent vol ds) (fin : ses.fin = true)
    (harmless : ses.Harmless vol ds old move) :
    SameBytes ds (move.run vol ses ds dlen now).ds ∧
      (((move.run vol ses ds dlen now).after ses).disabled = false →
        ¬ Carries ((move.run vol ses ds dlen now).fill.getD old)) := by
  have errors (ecode : TftpErrorcode) (emsg : Bytes) : ¬ Carries (errorMsg ecode emsg) := by
    rw [Carries, opcodeOf_errorMsg]
    decide
  cases move with
  | resend =>
    rw [Move.run, resend]
    split
    · rename_i retries
      refine ⟨.refl ds, fun enabled => ?_⟩
      obtain disabled | spent | silent := harmless
      · have same : ses.disabled = false := enabled
        rw [disabled] at same
        cases same
      · exact absurd retries (by omega)
      · exact silent
    · exact ⟨.of_disk (closeData_disk _ ds), nofun⟩
  | refuse =>
    rw [Move.run, errsend_eq .update ses ds .illegalOpe empty_short]
    exact ⟨.refl ds, fun _ => errors _ _⟩
  | store dat =>
    have noticed : ses.noticed dlen = ses := by
      rw [Session.noticed, fin, Bool.true_or, ← fin]
    have bytes : SameBytes ds (putSessionData vol ses ds dat.data).ds := by
      obtain denied | ⟨⟨mute, _⟩, _⟩ := harmless
      · exact (putSessionData_denied inv fin denied).2
      · by_cases device : ds.disk (vol.node ses.filename) = .device
        · exact .of_disk ((putSessionData_steps vol ses ds dat.data).1.discards inv device)
        · exact (putSessionData_mute inv fin mute device).1
    have failed : (putSessionData vol ses ds dat.data).status ≠ .done ∨ ses.disabled = true := by
      obtain denied | ⟨⟨mute, discarded⟩, long | disabled⟩ := harmless
      · exact .inl (by rw [(putSessionData_denied inv fin denied).1]; nofun)
      · by_cases device : ds.disk (vol.node ses.filename) = .device
        · exact .inr (discarded device).2
        · exact .inl (by rw [(putSessionData_mute inv fin mute device).2 long]; nofun)
      · exact .inr disabled
    have only := (putSessionData_steps vol ses ds dat.data).2.1
    rw [Move.run, storeBlock_eq, noticed]
    generalize putSessionData vol ses ds dat.data = r at bytes failed only ⊢
    dsimp only
    split
    · rename_i done
      constructor
      · dsimp only
        split
        · exact bytes.trans (.of_disk (closeData_disk _ _))
        · exact bytes
      · intro enabled
        have same : r.ses.disabled = false := enabled
        rw [only.disabled, failed.resolve_left (fun h => h done)] at same
        cases same
    · exact ⟨bytes, fun _ => errors _ _⟩
  | advance =>
    rw [Move.run, nextData, if_pos fin]
    exact ⟨.refl ds, nofun⟩
  | abort => exact ⟨.of_disk (closeData_disk _ ds), nofun⟩
  | pass =>
    refine ⟨.refl ds, fun enabled => ?_⟩
    obtain disabled | silent := harmless
    · have same : ses.disabled = false := enabled
      rw [disabled] at same
      cases same
    · exact silent

/-! ## Steps and runs -/

/-- The session that is answered is in the list afterwards, marked with `fin`. -/
theorem answered_session {st : Server} {d : Datagram} {c : Client} {s : Session}
    (named : host.client d.src = some c) (answered : Answered (st.proc host d c) s) :
    getSession (recv host st d).1.seshead c = some s ∧ s.fin = true := by
  obtain ⟨⟨place, ses, ds, ecode, emsg, call⟩, pointer, _, _⟩ := answered
  constructor
  · cases found : getSession st.seshead c with
    | some s₀ =>
      have same : (st.proc host d c).after s₀ = s :=
        Option.some.inj ((proc_handled host d found).pointer.symm.trans pointer)
      rw [← same]
      exact getSession_recv named found
    | none =>
      cases proc_fresh host d found with
      | nothing _ none _ | socketless _ _ _ none _ _ =>
        rw [none] at pointer
        cases pointer
      | linked req fd s' linked =>
        obtain rfl : s' = s := Option.some.inj (linked.pointer.symm.trans pointer)
        exact getSession_opened named linked.edit (linked_key linked)
  · rw [call, errsend] at pointer
    split at pointer
    · rw [← Option.some.inj pointer]
    · cases pointer

/-- A step for one client leaves the file that the session of another is writing. -/
theorem recv_held {st : Server} {d : Datagram} {x c : Client} {s : Session} {n : DSession}
    (inv : WellFormed host.toVolume st) (admissible : Admissible st (.datagram d))
    (named : host.client d.src = some x) (other : c ≠ x)
    (found : getSession st.seshead c = some s) (socket : 0 ≤ s.clsock)
    (node : st.ads.at s.dkey = some n) (mode : n.fp.mode = .write) :
    (recv host st d).1.ads.disk n.fp.node = st.ads.disk n.fp.node := by
  have received : Consistent host.toVolume (st.receive d).ads := inv.ads.congr rfl rfl
  have node' : (st.receive d).ads.at s.dkey = some n := node
  obtain ⟨k, apart, chain⟩ := recv_chain_other inv admissible named other found socket
  exact chain.held received node' mode apart

/-- A step that spares a finished session leaves it alone. -/
theorem leftAlone_step {st : Server} {e : Event} {c : Client} {s : Session}
    (inv : WellFormed host.toVolume st) (found : getSession st.seshead c = some s)
    (fin : s.fin = true) (socket : 0 ≤ s.clsock) (spares : Spares host c st e) :
    LeftAlone host c s st e := by
  obtain ⟨admissible, s', found', harmless⟩ := spares
  obtain rfl : s = s' := Option.some.inj (found.symm.trans found')
  cases e with
  | tick t =>
    obtain ⟨_, disk, _, _, _, sent⟩ := resendAllsession_steps t st.seshead
      { st.ads with faults := t.faults, trace := [] } t.addr sockaddrStorage
    have same : (step host st (.tick t)).ads.disk = st.ads.disk := disk
    refine ⟨?_, fun _ => .of_disk same, fun d _ _ => by rw [same]⟩
    intro m member ses
    obtain ⟨r, rMember, key, _, _, running, _⟩ := sent m member
    have sameKey : r.key = s.key :=
      (Option.some.inj (key.symm.trans ses)).trans (session_key found).symm
    have equal := List.inj_on_of_nodup_map inv.clients rMember (session_mem found) sameKey
    rw [equal, fin] at running
    cases running
  | datagram d =>
    cases named : host.client d.src with
    | none =>
      have quiet : serve host st (.datagram d) = (st.receive d, []) := recv_ignored named
      have same : (step host st (.datagram d)).ads.disk = st.ads.disk := by rw [step, quiet]; rfl
      refine ⟨?_, fun _ => .of_disk same, fun d _ _ => by rw [same]⟩
      rw [outputs, quiet]
      rintro _ ⟨⟩
    | some x =>
      by_cases own : c = x
      · subst own
        have received : Consistent host.toVolume (st.receive d).ads := inv.ads.congr rfl rfl
        obtain ⟨bytes, silent⟩ := run_harmless d.len d.now received fin
          (harmless d rfl named)
        rw [← proc_move found] at bytes silent
        have bytes : SameBytes st.ads (step host st (.datagram d)).ads := by
          rw [step, serve, recv_eq named]
          exact bytes
        refine ⟨?_, fun _ => bytes, fun n _ _ => bytes n.fp.node⟩
        intro m member ses
        have member' : m ∈ (recv host st d).2 := member
        rw [recv_eq named] at member'
        obtain ⟨msg, s', pointer, enabled, _, _⟩ := replyOf_session member' ses
        obtain rfl : (st.proc host d c).after s = s' :=
          Option.some.inj ((proc_handled host d found).pointer.symm.trans pointer)
        rw [msg]
        exact silent enabled
      · constructor
        · intro m member ses
          exact absurd ses (replyOf_other named own member)
        · intro concerned
          have same : host.client d.src = some c := concerned
          exact absurd (Option.some.inj (same.symm.trans named)) own
        · intro n node mode
          have same := recv_held inv admissible named own found socket node mode
          exact congrArg FileNode.bytes same

/-- As long as the session is there, it stays marked. -/
theorem fin_step {st : Server} {e : Event} {c : Client} (inv : WellFormed host.toVolume st)
    (spares : Spares host c st e)
    (marked : ∀ s, getSession st.seshead c = some s → s.fin = true ∧ 0 ≤ s.clsock) :
    ∀ s, getSession (step host st e).seshead c = some s → s.fin = true ∧ 0 ≤ s.clsock := by
  intro s' found'
  obtain ⟨_, s, found, _⟩ := spares
  obtain ⟨fin, socket⟩ := marked s found
  cases e with
  | tick t =>
    obtain ⟨r, old, aged, _⟩ := getSession_tick inv found'
    obtain rfl : s = r := Option.some.inj (found.symm.trans old)
    exact ⟨aged.fin.trans fin, clsock_of_ident aged.ident ▸ socket⟩
  | datagram d =>
    cases named : host.client d.src with
    | none =>
      rw [step, serve, recv_ignored named] at found'
      obtain rfl : s = s' := Option.some.inj (found.symm.trans found')
      exact ⟨fin, socket⟩
    | some x =>
      by_cases own : c = x
      · subst own
        have handled := proc_handled host d found
        obtain rfl := Option.some.inj ((getSession_recv named found).symm.trans found')
        exact ⟨handled.fin fin, clsock_of_ident handled.ident ▸ socket⟩
      · have same : getSession (recv host st d).1.seshead c = some s' := found'
        rw [getSession_recv_other named own, found] at same
        obtain rfl := Option.some.inj same
        exact ⟨fin, socket⟩

/-- In every run that spares it, a session that was sent an ERROR is left alone in every step
until it is removed.

Proof: an ERROR marks the session with `fin`, and a step that spares the session keeps the mark. A
session so marked sends only what it is asked to resend, and stores only what a save lets pass,
both of which the condition excludes. -/
theorem errored_left_alone {st st' : Server} {d : Datagram} {c : Client} {s s' : Session}
    {e : Event} (reachable : Reachable host st) (admissible : Admissible st (.datagram d))
    (named : host.client d.src = some c) (answered : Answered (st.proc host d c) s)
    (run : Runs.Reaches (step host) (Spares host c) (step host st (.datagram d)) st')
    (spares : Spares host c st' e) (present : getSession st'.seshead c = some s') :
    LeftAlone host c s' st' e := by
  obtain ⟨found, fin⟩ := answered_session named answered
  have inv : WellFormed host.toVolume st' ∧
      ∀ s, getSession st'.seshead c = some s → s.fin = true ∧ 0 ≤ s.clsock := by
    let Marked : Server → Prop := fun x => WellFormed host.toVolume x ∧
      ∀ s, getSession x.seshead c = some s → s.fin = true ∧ 0 ≤ s.clsock
    have preserved (x : Server) (e : Event) (marked : Marked x) (may : Spares host c x e) :
        Marked (step host x e) :=
      ⟨marked.1.step may.1, fin_step marked.1 may marked.2⟩
    have start : Marked (step host st (.datagram d)) := by
      refine ⟨reachable.wellFormed.step admissible, ?_⟩
      intro r same
      obtain rfl : s = r := Option.some.inj (found.symm.trans same)
      exact ⟨fin, answered.socket⟩
    exact run.invariant preserved start
  obtain ⟨wellFormed, marked⟩ := inv
  obtain ⟨fin', socket'⟩ := marked s' present
  exact leftAlone_step wellFormed present fin' socket' spares

/-- A client has asked to write a file. -/
def writeRequested : Server :=
  step smallHost (startOn fun _ => .absent)
    (.datagram (arrival [1] (reqMsg opWrq [102] .octet) (some 5)))

/-- A block out of sequence. -/
def strayBlock : Datagram := arrival [1] (dataMsg 5 []) none

theorem writeRequested_reachable : Reachable smallHost writeRequested :=
  (startOn_reachable smallHost _).step (admissible_first rfl rfl (by decide))

/-- The stray block is answered with an ERROR for the session. -/
theorem strayBlock_answered :
    ∃ s, Answered (writeRequested.proc smallHost strayBlock ([1], 2000)) s := by
  obtain ⟨s, found⟩ : ∃ s, getSession writeRequested.seshead ([1], 2000) = some s :=
    Option.isSome_iff_exists.mp (by decide +kernel)
  have facts := found_all (fun s => decide (writeRequested.move strayBlock s = .refuse ∧
    s.disabled = false ∧ 0 ≤ s.clsock)) (by decide +kernel) found
  obtain ⟨move, enabled, socket⟩ := of_decide_eq_true facts
  have call : writeRequested.proc smallHost strayBlock ([1], 2000) =
      errsend .update s (writeRequested.receive strayBlock).ads .illegalOpe [] := by
    rw [proc_move found, move]
    rfl
  refine ⟨{ s with fin := true }, ⟨_, _, _, _, _, call⟩, ?_, enabled, socket⟩
  rw [call, errsend_eq .update s _ .illegalOpe empty_short]

/-- The client repeats the stray block, and is answered with an ERROR again. -/
theorem errored_left_alone_sample :
    ∃ s s', Answered (writeRequested.proc smallHost strayBlock ([1], 2000)) s ∧
      LeftAlone smallHost ([1], 2000) s' (step smallHost writeRequested (.datagram strayBlock))
        (.datagram strayBlock) := by
  obtain ⟨s, answered⟩ := strayBlock_answered
  have quiet : (Event.datagram strayBlock).Quiet := rfl
  obtain ⟨found, _⟩ := answered_session rfl answered
  have move := found_all (fun s => decide ((step smallHost writeRequested
    (.datagram strayBlock)).move strayBlock s = .refuse)) (by decide +kernel) found
  have spares : Spares smallHost ([1], 2000) (step smallHost writeRequested (.datagram strayBlock))
      (.datagram strayBlock) := by
    refine ⟨quiet.admissible _, s, found, ?_⟩
    intro d same _
    cases same
    rw [of_decide_eq_true move]
    trivial
  exact ⟨s, s, answered, errored_left_alone writeRequested_reachable (quiet.admissible _) rfl
    answered (.refl _) spares found⟩

/-- Every session that was sent an ERROR is left alone until it is removed. -/
def ErrorsEnd (host : Host) : Prop :=
  ∀ st d c s st' e s', Reachable host st → Admissible st (.datagram d) →
    host.client d.src = some c → Answered (st.proc host d c) s →
    Runs.Reaches (step host) (fun x e => Admissible x e ∧ (getSession x.seshead c).isSome)
      (step host st (.datagram d)) st' →
    Admissible st' e → getSession st'.seshead c = some s' → LeftAlone host c s' st' e

/-- After the ERROR for the stray block, the first block is stored and acknowledged. -/
theorem errors_do_not_end : ¬ ErrorsEnd smallHost := by
  intro ended
  obtain ⟨s, answered⟩ := strayBlock_answered
  have quiet : (Event.datagram strayBlock).Quiet := rfl
  have quietBlock : (Event.datagram (arrival [1] (dataMsg 1 [7]) none)).Quiet := rfl
  obtain ⟨found, _⟩ := answered_session rfl answered
  have left := ended _ strayBlock ([1], 2000) s _ (.datagram (arrival [1] (dataMsg 1 [7]) none)) s
    writeRequested_reachable (quiet.admissible _) rfl answered (.refl _)
    (quietBlock.admissible _) found
  have acknowledged : ¬ ∀ m ∈ outputs smallHost
      (step smallHost writeRequested (.datagram strayBlock))
      (.datagram (arrival [1] (dataMsg 1 [7]) none)),
      m.ses = some ([1], 2000) → ¬ Carries m.msg := by
    decide +kernel
  exact acknowledged left.unsent

end Iwtftpd
