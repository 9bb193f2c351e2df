import Iwtftpd.Waiting

/-!
# What an ACK brings about

A download session that has sent block `b` should answer the ACK of `b` with the
next block, or end when `b` was the last; the ACK of the block before by sending
its last message again; and nothing else. The code takes the block before as a
number in `int`, so block 0 has none; an ACK of any other block falls through to
the common exit and has whatever the reply buffer still holds sent.
-/

namespace Iwtftpd

variable {host : Host} {vol : Volume}

/-! ## Numbers -/

/-- The number after a block is one more in 16 bits, since 65535 is followed by 0. -/
theorem nextBlk_eq (blk : UInt16) : nextBlk blk = blk + 1 := by
  have next := nextBlk_ofNat blk.toNat
  rw [UInt16.ofNat_toNat] at next
  rw [next, UInt16.ofNat_add, UInt16.ofNat_toNat]
  rfl

/-- The comparison with the previous block in `int`. -/
theorem previous_iff (k b : UInt16) : ((k.toNat : Int) = b.toNat - 1) ↔ k = b - 1 ∧ b ≠ 0 := by
  have small := k.toNat_lt
  have positive : b ≠ 0 ↔ b.toNat ≠ 0 := not_congr UInt16.toNat_inj.symm
  have value : (b - 1).toNat = (65535 + b.toNat) % 65536 := UInt16.toNat_sub b 1
  have bound := b.toNat_lt
  rw [positive, ← UInt16.toNat_inj, value]
  omega

/-- A block is not the one before it. -/
theorem previous_ne (b : UInt16) : b - 1 ≠ b := by
  intro same
  have value : (b - 1).toNat = (65535 + b.toNat) % 65536 := UInt16.toNat_sub b 1
  have bound := b.toNat_lt
  rw [same] at value
  omega

/-! ## The number and the last message -/

/-- A read failed behind the last message: the session is at its end, and its number is one on. -/
def Session.Lags (s : Session) : Prop :=
  s.fin = true ∧ ∃ blk, s.blknum = nextBlk blk ∧ Session.Current { s with blknum := blk }

/-- Whether a session lags behind its last message depends on the message, the number and `fin`.
-/
theorem Session.Lags.congr {s s' : Session} (lags : s.Lags) (fin : s'.fin = true)
    (lastmsg : s'.lastmsg = s.lastmsg) (blknum : s'.blknum = s.blknum) : s'.Lags := by
  obtain ⟨-, blk, number, current⟩ := lags
  refine ⟨fin, blk, blknum.trans number, ?_⟩
  have same : Session.Current { s with blknum := blk } → Session.Current { s' with blknum := blk } :=
    fun current => current.congr lastmsg rfl
  exact same current

/-- A move keeps the last message current, or lets it lag where the next block cannot be made. -/
theorem run_lags {s : Session} {ds : IWDS} (dlen : Nat) (now : Int) (move : Move)
    (inv : Consistent vol ds) (fits : s.sesbuf.Fits) (either : s.Current ∨ s.Lags) :
    let after := (move.run vol s ds dlen now).after s
    after.Current ∨ after.Lags := by
  dsimp only
  obtain current | lags := either
  · by_cases made : move = .advance ∧ s.fin = false ∧ ¬ Readable vol s ds
    · obtain ⟨rfl, running, unreadable⟩ := made
      right
      obtain ⟨msg, made, -⟩ | ⟨failed, -, after, -⟩ := nextData_cases vol ds now running
      · have ends := makeTftpdataMsg_made_iff now inv fits
        exact absurd (ends.mp (by rw [made]; nofun)) unreadable
      · show ((nextData vol s ds now).after s).Lags
        rw [after, makeTftpdataMsg_none failed]
        have before : Session.Current { s with blknum := s.blknum } := current
        exact ⟨rfl, s.blknum, rfl, before.congr rfl rfl⟩
    · left
      apply (run_current dlen now move inv fits current).mpr
      intro advance running _
      by_contra unreadable
      exact made ⟨advance, running, unreadable⟩
  · have fin := (run_handled vol s ds dlen now move).fin lags.1
    have kept (still : move.Still s) : ((move.run vol s ds dlen now).after s).Lags := by
      obtain ⟨_, lastmsg, blknum⟩ := run_still vol ds dlen now still
      exact lags.congr fin lastmsg blknum
    cases move with
    | resend | refuse | abort | pass => exact .inr (kept trivial)
    | advance => exact .inr (kept lags.1)
    | store dat =>
      obtain ⟨_, ⟨_, _, lastmsg, blknum⟩ | ⟨_, _, lastmsg, blknum, _⟩⟩ :=
        storeBlock_cases vol s ds dat dlen now
      · refine .inl (.inr (.inr ?_))
        show ((storeBlock vol s ds dat dlen now).after s).lastmsg = _
        rw [lastmsg, ← blknum]
        rfl
      · exact .inr (lags.congr fin lastmsg blknum)

/-- The last message of every session is current or lags by a block. -/
def Numbered (st : Server) : Prop := ∀ s ∈ st.seshead, s.Current ∨ s.Lags

/-- A step keeps the numbers of the last messages: a new message has the number of its session,
and where only the number has moved on, the read behind it has failed and `fin` is set. -/
theorem Numbered.step {st : Server} {e : Event} (numbered : Numbered st)
    (inv : WellFormed host.toVolume st) : Numbered (Iwtftpd.step host st e) := by
  intro s' member
  cases e with
  | tick t =>
    obtain ⟨after, pairs, list⟩ := endIteration_seshead (t := t) inv
    have member : s' ∈ (endIteration st t).1.seshead := member
    rw [list, List.mem_filter] at member
    obtain ⟨s, old, aged⟩ := forall₂_mem pairs member.1
    obtain current | lags := numbered s old
    · exact .inl (current.congr aged.lastmsg aged.blknum)
    · exact .inr (lags.congr (aged.fin.trans lags.1) aged.lastmsg aged.blknum)
  | datagram d =>
    have member : s' ∈ (recv host st d).1.seshead := member
    cases named : host.client d.src with
    | none =>
      rw [recv_ignored named] at member
      exact numbered s' member
    | some c =>
      rw [recv_eq named] at member
      dsimp only at member
      cases found : getSession st.seshead c with
      | some s =>
        rw [handled_apply found (proc_handled host d found)] at member
        obtain rfl | old := Keyed.mem_of_mem_store Session.key member
        · have received : Consistent host.toVolume (st.receive d).ads := inv.ads.congr rfl rfl
          have fits := inv.buffers s (session_mem found)
          rw [proc_move found]
          exact run_lags d.len d.now _ received fits (numbered s (session_mem found))
        · exact numbered s' old
      | none =>
        have opening := proc_opening host d found
        have inserted {s : Session} (edit : (st.proc host d c).edit = .insert s) :
            s'.Current ∨ s'.Lags := by
          rw [edit] at member
          obtain rfl | old := List.mem_cons.mp member
          · exact .inl (opened_current opening edit)
          · exact numbered s' old
        cases proc_fresh host d found with
        | nothing edit _ _ =>
          rw [edit] at member
          exact numbered s' member
        | socketless req _ edit _ _ _ => exact inserted edit
        | linked req fd s linked => exact inserted linked.edit

/-- So the numbers are kept along every run. -/
theorem reachable_numbered {st : Server} (reachable : Reachable host st) : Numbered st := by
  obtain ⟨start, initial, run⟩ := reachable
  have preserved (st : Server) (e : Event) (inv : WellFormed host.toVolume st ∧ Numbered st)
      (may : Admissible st e) :
      WellFormed host.toVolume (Iwtftpd.step host st e) ∧ Numbered (Iwtftpd.step host st e) :=
    ⟨inv.1.step may, inv.2.step inv.1⟩
  have none : Numbered start := by
    intro s member
    rw [initial.1] at member
    cases member
  exact (run.invariant preserved ⟨initial.wellFormed, none⟩).2

/-- A session whose last message is DATA waits on that block, or a read for the next one failed. -/
theorem reachable_number {st : Server} {s : Session} {b : UInt16} {data : Bytes}
    (reachable : Reachable host st) (member : s ∈ st.seshead) (last : s.lastmsg = dataMsg b data) :
    s.blknum = b ∨ s.fin = true ∧ s.blknum = b + 1 := by
  have number {s : Session} (current : s.Current) (last : s.lastmsg = dataMsg b data) :
      s.blknum = b := by
    have field : ofBe16 (s.lastmsg.drop 2) = b := by rw [last, blockOf_dataMsg]
    obtain none | ⟨data', -, sent⟩ | ack := current
    · rw [none] at last
      cases last
    · rw [sent, blockOf_dataMsg] at field
      exact field
    · rw [ack, blockOf_ackMsg] at field
      exact field
  obtain current | ⟨fin, blk, next, current⟩ := reachable_numbered reachable s member
  · exact .inl (number current last)
  · have same : blk = b := number current last
    exact .inr ⟨fin, by rw [next, nextBlk_eq, same]⟩

/-! ## What each move sends -/

/-- What a step sends and what becomes of the session. -/
def answer (host : Host) (st : Server) (d : Datagram) (c : Client) : List Sent × Option Session :=
  (outputs host st (.datagram d), getSession (step host st (.datagram d)).seshead c)

/-- A message on the session's socket to where the datagram came from. -/
def Session.toSend (s : Session) (d : Datagram) (msg : Bytes) : Sent :=
  { sock := s.clsock, dest := d.src, msg := msg, ses := some s.key }

/-- What a datagram of a client with a session leads to is what its move does. -/
theorem answer_eq {st : Server} {d : Datagram} {c : Client} {s : Session}
    (named : host.client d.src = some c) (found : getSession st.seshead c = some s) :
    let p := (st.move d s).run host.toVolume s (st.receive d).ads d.len d.now
    answer host st d c = (if (p.after s).disabled = true then []
      else [s.toSend d (p.fill.getD st.msg)], some (p.after s)) := by
  have after : getSession (step host st (.datagram d)).seshead c = _ := getSession_recv named found
  have sent : outputs host st (.datagram d) = (recv host st d).2 := rfl
  have handled := run_handled host.toVolume s (st.receive d).ads d.len d.now (st.move d s)
  rw [answer, after, sent, recv_eq named, proc_move found]
  dsimp only
  rw [replyOf, handled.ok, handled.pointer]
  dsimp only
  rw [if_neg Bool.noConfusion, clsock_of_ident handled.ident, key_of_ident handled.ident]
  rfl

/-- With retries left the last message is sent again, at a new pace. -/
theorem answer_resend {st : Server} {d : Datagram} {c : Client} {s : Session}
    (named : host.client d.src = some c) (found : getSession st.seshead c = some s)
    (retries : s.retrycount < resendCountmax) (move : st.move d s = .resend) :
    answer host st d c = (if s.disabled = true then [] else [s.toSend d s.lastmsg],
      some { s with lastsending := d.now, retrycount := s.retrycount + 1 }) := by
  rw [answer_eq named found, move, Move.run, resend, if_pos retries]
  rfl

/-- A datagram that is passed over is answered by what `sinfo` holds. -/
theorem answer_pass {st : Server} {d : Datagram} {c : Client} {s : Session}
    (named : host.client d.src = some c) (found : getSession st.seshead c = some s)
    (move : st.move d s = .pass) :
    answer host st d c = (if s.disabled = true then [] else [s.toSend d st.msg], some s) := by
  rw [answer_eq named found, move]
  rfl

/-- The ACK of the last block disables the session, and nothing is sent. -/
theorem answer_end {st : Server} {d : Datagram} {c : Client} {s : Session}
    (named : host.client d.src = some c) (found : getSession st.seshead c = some s)
    (move : st.move d s = .advance) (fin : s.fin = true) :
    answer host st d c = ([], some { s with disabled := true }) := by
  rw [answer_eq named found, move, Move.run, nextData, if_pos fin]
  rfl

/-- The next block is sent exactly when it can be made and the session is enabled. -/
theorem answer_next_iff {st : Server} {d : Datagram} {c : Client} {s : Session}
    (inv : WellFormed host.toVolume st) (named : host.client d.src = some c)
    (found : getSession st.seshead c = some s) (move : st.move d s = .advance)
    (running : s.fin = false) :
    (∃ data, (answer host st d c).1 = [s.toSend d (dataMsg (nextBlk s.blknum) data)]) ↔
      s.disabled = false ∧ Readable host.toVolume s (st.receive d).ads := by
  have received : Consistent host.toVolume (st.receive d).ads := inv.ads.congr rfl rfl
  have fits := inv.buffers s (session_mem found)
  have ends := makeTftpdataMsg_made_iff d.now received fits
  have enabled := (makeTftpdataMsg_steps host.toVolume s (st.receive d).ads tftpMsglenMax d.now).2.2.1
  rw [answer_eq named found, move, Move.run]
  dsimp only
  obtain ⟨msg, made, fill, after, -⟩ | ⟨failed, fill, after, -⟩ :=
    nextData_cases host.toVolume (st.receive d).ads d.now running
  · obtain ⟨data, -, rfl, -⟩ := makeTftpdataMsg_data made
    have readable : Readable host.toVolume s (st.receive d).ads := ends.mp (by rw [made]; nofun)
    rw [after, enabled, fill]
    cases s.disabled with
    | true => exact iff_of_false nofun nofun
    | false => exact iff_of_true ⟨data, rfl⟩ ⟨rfl, readable⟩
  · apply iff_of_false
    · rw [after, fill]
      rintro ⟨data, sent⟩
      split at sent
      · cases sent
      · -- An ERROR is no DATA.
        have msg := congrArg Sent.msg (List.cons.inj sent).1
        have opcode := congrArg opcodeOf msg
        simp only [Session.toSend, Option.getD_some, opcodeOf_errorMsg, opcodeOf_dataMsg] at opcode
        exact absurd opcode (by decide)
    · rintro ⟨-, readable⟩
      exact ends.mpr readable failed

/-! ## Every ACK of a download -/

/-- What the ACK of `k` should bring about for a session that has sent block `b` last. -/
def AckAnswered (host : Host) (st : Server) (d : Datagram) (c : Client) (s : Session) (b k : UInt16) :
    Prop :=
  if k = b then
    if s.fin = true then
      (answer host st d c).1 = [] ∧ ∃ s', (answer host st d c).2 = some s' ∧ s'.disabled = true
    else ∃ data, (answer host st d c).1 = [s.toSend d (dataMsg (b + 1) data)]
  else if k = b - 1 then
    (answer host st d c).1 = [s.toSend d s.lastmsg] ∧
      (answer host st d c).2 =
        some { s with lastsending := d.now, retrycount := s.retrycount + 1 }
  else (answer host st d c).1 = [] ∧ (answer host st d c).2 = some s

/-- An enabled session waits on the block, and the ACK is for it, with the next block at hand or the
transfer at its end, or for the block before, by a number that is not negative; or the session is
disabled, and the ACK is for the last block or for neither of the two. -/
def AckSuits (vol : Volume) (ds : IWDS) (s : Session) (b k : UInt16) : Prop :=
  if s.disabled = true then k = b ∧ s.fin = true ∨ k ≠ b ∧ k ≠ b - 1
  else s.blknum = b ∧ (k = b ∧ (s.fin = true ∨ Readable vol s ds) ∨ k = b - 1 ∧ b ≠ 0)

/-- The three branches of `OP_ACK`. That for the block before compares in `int`, so it misses the
one before block 0. -/
theorem move_ack (st : Server) {d : Datagram} (s : Session) {k : UInt16} (bytes : d.bytes = ackMsg k) :
    st.move d s = if k = s.blknum - 1 ∧ s.blknum ≠ 0 then .resend
      else if k = s.blknum then .advance else .pass := by
  rw [move_ackMsg st s bytes]
  exact if_congr (previous_iff k s.blknum) rfl rfl

/-- A retry that is counted changes the session. -/
theorem retried_ne {s s' : Session} (counted : s'.retrycount = s.retrycount + 1) : some s ≠ some s' := by
  intro same
  have count : s.retrycount = s'.retrycount := congrArg Session.retrycount (Option.some.inj same)
  omega

/-- A session that is disabled again is the same. -/
theorem disabled_iff (s : Session) : some { s with disabled := true } = some s ↔ s.disabled = true := by
  constructor
  · intro same
    exact (congrArg Session.disabled (Option.some.inj same)).symm
  · intro disabled
    rw [← disabled]

/-- A session that waits on the block it has sent last. -/
theorem answered_current_iff {st : Server} {d : Datagram} {c : Client} {s : Session} {k : UInt16}
    (inv : WellFormed host.toVolume st) (named : host.client d.src = some c)
    (found : getSession st.seshead c = some s) (retries : s.retrycount < resendCountmax)
    (bytes : d.bytes = ackMsg k) :
    AckAnswered host st d c s s.blknum k ↔ AckSuits host.toVolume (st.receive d).ads s s.blknum k := by
  have move := move_ack st s bytes
  rw [AckAnswered, AckSuits]
  by_cases previous : k = s.blknum - 1
  · have other : k ≠ s.blknum := previous ▸ previous_ne s.blknum
    rw [if_neg other, if_pos previous]
    by_cases first : s.blknum = 0
    · -- Block 0 has no block before it in `int`.
      rw [if_neg fun both => both.2 first, if_neg other] at move
      rw [answer_pass named found move]
      apply iff_of_false
      · rintro ⟨-, after⟩
        exact retried_ne rfl after
      · split
        · rintro (⟨own, -⟩ | ⟨-, distinct⟩)
          · exact other own
          · exact distinct previous
        · rintro ⟨-, ⟨own, -⟩ | ⟨-, later⟩⟩
          · exact other own
          · exact later first
    · rw [if_pos ⟨previous, first⟩] at move
      rw [answer_resend named found retries move]
      cases s.disabled with
      | true =>
        apply iff_of_false
        · rintro ⟨sent, -⟩
          cases sent
        · rintro (⟨own, -⟩ | ⟨-, distinct⟩)
          · exact other own
          · exact distinct previous
      | false => exact iff_of_true ⟨rfl, rfl⟩ ⟨rfl, .inr ⟨previous, first⟩⟩
  · rw [if_neg fun both => previous both.1] at move
    by_cases current : k = s.blknum
    · rw [if_pos current] at move
      rw [if_pos current]
      cases fin : s.fin with
      | true =>
        rw [if_pos rfl, answer_end named found move fin]
        apply iff_of_true ⟨rfl, _, rfl, rfl⟩
        split
        · exact .inl ⟨current, rfl⟩
        · exact ⟨rfl, .inl ⟨current, .inl rfl⟩⟩
      | false =>
        have next := answer_next_iff inv named found move fin
        rw [nextBlk_eq] at next
        rw [if_neg Bool.noConfusion, next]
        cases s.disabled with
        | true => simp [current]
        | false => simp [current, (previous_ne s.blknum).symm]
    · rw [if_neg current] at move
      rw [if_neg current, if_neg previous, answer_pass named found move]
      cases s.disabled <;> simp [current, previous]

/-- A session for which the read behind the block it has sent last failed. -/
theorem answered_lagging_iff {st : Server} {d : Datagram} {c : Client} {s : Session} {b k : UInt16}
    (named : host.client d.src = some c) (found : getSession st.seshead c = some s)
    (retries : s.retrycount < resendCountmax) (bytes : d.bytes = ackMsg k) (fin : s.fin = true)
    (number : s.blknum = b + 1) :
    AckAnswered host st d c s b k ↔ AckSuits host.toVolume (st.receive d).ads s b k := by
  have move := move_ack st s bytes
  have before : b + 1 - 1 = b := UInt16.add_sub_cancel b 1
  have apart : b + 1 ≠ b := nextBlk_eq b ▸ nextBlk_ne b
  have beyond : b - 1 ≠ b + 1 := by
    intro same
    have value : (b - 1).toNat = (65535 + b.toNat) % 65536 := UInt16.toNat_sub b 1
    have value' : (b + 1).toNat = (b.toNat + 1) % 65536 := UInt16.toNat_add b 1
    rw [same] at value
    omega
  rw [number, before] at move
  rw [AckAnswered, AckSuits, number, fin]
  by_cases own : k = b
  · rw [if_pos own, if_pos rfl]
    -- Something is sent unless the session is disabled, and the ACK does not disable it.
    have outcome : ((answer host st d c).1 = [] ↔ s.disabled = true) ∧
        ∃ s', (answer host st d c).2 = some s' ∧ s'.disabled = s.disabled := by
      by_cases wrapped : b + 1 = 0
      · rw [if_neg fun both => both.2 wrapped, if_neg (own ▸ apart.symm)] at move
        rw [answer_pass named found move]
        cases disabled : s.disabled <;> exact ⟨by simp, s, rfl, disabled⟩
      · rw [if_pos ⟨own, wrapped⟩] at move
        rw [answer_resend named found retries move]
        cases s.disabled <;> exact ⟨by simp, _, rfl, rfl⟩
    obtain ⟨silent, s', after, same⟩ := outcome
    rw [silent, after]
    cases disabled : s.disabled with
    | true =>
      rw [disabled] at same
      exact iff_of_true ⟨rfl, s', rfl, same⟩ (.inl ⟨own, rfl⟩)
    | false => exact iff_of_false (fun both => nomatch both.1) fun both => apart both.1
  · rw [if_neg fun both => own both.1] at move
    rw [if_neg own]
    by_cases next : k = b + 1
    · rw [if_pos next] at move
      have other : k ≠ b - 1 := next ▸ beyond.symm
      rw [if_neg other, answer_end named found move fin, disabled_iff]
      cases s.disabled with
      | true => exact iff_of_true ⟨rfl, rfl⟩ (.inr ⟨own, other⟩)
      | false => exact iff_of_false (fun both => nomatch both.2) fun both => apart both.1
    · rw [if_neg next] at move
      rw [answer_pass named found move]
      by_cases previous : k = b - 1
      · rw [if_pos previous]
        apply iff_of_false
        · rintro ⟨-, after⟩
          exact retried_ne rfl after
        · split
          · rintro (⟨same, -⟩ | ⟨-, distinct⟩)
            · exact own same
            · exact distinct previous
          · rintro ⟨same, -⟩
            exact apart same
      · rw [if_neg previous]
        cases s.disabled with
        | true => exact iff_of_true ⟨rfl, rfl⟩ (.inr ⟨own, previous⟩)
        | false => exact iff_of_false (fun both => nomatch both.1) fun both => apart both.1

/-- An ACK is answered as it should be exactly where it suits the session.

Proof: the number of the last DATA is that of the session, or one below it when a read behind that
failed. In the first case the ACK falls into one of the branches of `OP_ACK`, and what the next
DATA takes is known from the buffer and the file; in the second every answer is for the wrong
block. -/
theorem ack_answered_iff {st : Server} {d : Datagram} {c : Client} {s : Session} {b k : UInt16}
    {data : Bytes} (reachable : Reachable host st) (named : host.client d.src = some c)
    (found : getSession st.seshead c = some s) (last : s.lastmsg = dataMsg b data)
    (retries : s.retrycount < resendCountmax) (bytes : d.bytes = ackMsg k) :
    AckAnswered host st d c s b k ↔ AckSuits host.toVolume (st.receive d).ads s b k := by
  obtain rfl | ⟨fin, number⟩ := reachable_number reachable (session_mem found) last
  · exact answered_current_iff reachable.wellFormed named found retries bytes
  · exact answered_lagging_iff named found retries bytes fin number

/-- A client asks for a file of three bytes; it is sent block 1, the last. -/
def asked : Server :=
  step smallHost (startOn (diskWith [102] [1, 2, 3]))
    (.datagram (arrival [1] (reqMsg opRrq [102] .octet) (some 5)))

theorem asked_reachable : Reachable smallHost asked :=
  (startOn_reachable smallHost _).step (admissible_first rfl rfl (by decide))

/-- After the request the session waits on block 1, which is the last. -/
theorem asked_session :
    ∃ s, getSession asked.seshead ([1], 2000) = some s ∧ s.lastmsg = dataMsg 1 [1, 2, 3] ∧
      s.retrycount = 0 ∧ s.disabled = false ∧ s.fin = true ∧ s.blknum = 1 := by
  have fields : ∀ s ∈ asked.seshead, s.lastmsg = dataMsg 1 [1, 2, 3] ∧ s.retrycount = 0 ∧
      s.disabled = false ∧ s.fin = true ∧ s.blknum = 1 := by decide +kernel
  have there : getSession asked.seshead ([1], 2000) ≠ none := by decide +kernel
  obtain ⟨s, found⟩ := Option.ne_none_iff_exists'.mp there
  exact ⟨s, found, fields s (session_mem found)⟩

/-- The ACK of that block is answered as it should be, by nothing. -/
theorem ack_answered_sample :
    ∃ s, getSession asked.seshead ([1], 2000) = some s ∧
      AckAnswered smallHost asked (arrival [1] (ackMsg 1) none) ([1], 2000) s 1 1 := by
  obtain ⟨s, found, last, retries, enabled, fin, number⟩ := asked_session
  refine ⟨s, found, (ack_answered_iff asked_reachable rfl found last ?_ rfl).mpr ?_⟩
  · rw [retries]
    decide
  · rw [AckSuits, enabled]
    exact ⟨number, .inl ⟨rfl, .inl fin⟩⟩

/-- Every ACK of a download is answered as it should be. -/
def AcksAnswered (host : Host) : Prop :=
  ∀ st d c s b k data, Reachable host st → host.client d.src = some c →
    getSession st.seshead c = some s → s.lastmsg = dataMsg b data → s.retrycount < resendCountmax →
    d.bytes = ackMsg k → AckAnswered host st d c s b k

/-- The ACK of block 7 has block 1 sent again, by way of what the reply buffer holds. -/
theorem acks_not_answered : ¬ AcksAnswered smallHost := by
  intro answered
  obtain ⟨s, found, last, retries, -⟩ := asked_session
  have foreign := answered asked (arrival [1] (ackMsg 7) none) ([1], 2000) s 1 7 _ asked_reachable rfl found
    last (by rw [retries]; decide) rfl
  have silent : (answer smallHost asked (arrival [1] (ackMsg 7) none) ([1], 2000)).1 = [] := foreign.1
  exact absurd silent (by decide +kernel)

end Iwtftpd
