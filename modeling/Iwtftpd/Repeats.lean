import Iwtftpd.Abreast
import Iwtftpd.Acks
import Iwtftpd.Draining

/-!
# A block that arrives again

A block that an upload has accepted already arrives once more. The latest one is
taken for a sign that its ACK was lost, so the ACK goes out again and a retry is
counted; any other is refused with an ERROR, which finishes the session. Neither
touches the buffer or the file. What becomes of the rest of the upload is seen by
running it twice, with the repeated block and without.
-/

namespace Iwtftpd

variable {host : Host} {vol : Volume}

/-! ## Two runs under the same events -/

/-- Both sides make the step. -/
def fork (host : Host) (pair : Server × Server) (e : Event) : Server × Server :=
  (step host pair.1 e, step host pair.2 e)

/-- What a client is sent in answer to a datagram that takes its session to another block. -/
def newAcks (host : Host) (c : Client) (st : Server) : Event → List Sent
  | .tick _ => []
  | .datagram d =>
    match getSession st.seshead c, getSession (step host st (.datagram d)).seshead c with
    | some s, some s' =>
      if s'.blknum = s.blknum then []
      else (outputs host st (.datagram d)).filter fun m => m.ses = some c
    | _, _ => []

/-- The acknowledgements of new blocks, in the order of the run. -/
def allAcks (host : Host) (c : Client) : Server → List Event → List Sent
  | _, [] => []
  | st, e :: rest => newAcks host c st e ++ allAcks host c (step host st e) rest

theorem newAcks_kept {c : Client} {st : Server} {d : Datagram}
    (same : getSession (step host st (.datagram d)).seshead c = getSession st.seshead c) :
    newAcks host c st (.datagram d) = [] := by
  rw [newAcks, same]
  cases getSession st.seshead c with
  | none => rfl
  | some s => exact if_pos rfl

/-- A move that changes the number makes a message. -/
theorem run_fill (vol : Volume) (s : Session) (ds : IWDS) (dlen : Nat) (now : Int) (move : Move)
    (changed : ((move.run vol s ds dlen now).after s).blknum ≠ s.blknum) :
    ∃ msg, (move.run vol s ds dlen now).fill = some msg := by
  by_cases still : move.Still s
  · exact absurd (run_still vol ds dlen now still).2.2 changed
  · cases move with
    | resend | refuse | abort | pass => exact absurd trivial still
    | store dat =>
      obtain ⟨-, ⟨-, fill, -⟩ | ⟨-, fill, -⟩⟩ := storeBlock_cases vol s ds dat dlen now
      · exact ⟨_, fill⟩
      · exact ⟨_, fill⟩
    | advance =>
      have running : s.fin = false := Bool.not_eq_true _ ▸ still
      obtain ⟨msg, -, fill, -⟩ | ⟨-, fill, -⟩ := nextData_cases vol ds now running
      · exact ⟨_, fill⟩
      · exact ⟨_, fill⟩

theorem newAcks_found {c : Client} {st : Server} {d : Datagram} {s : Session}
    (named : host.client d.src = some c) (found : getSession st.seshead c = some s) :
    let p := st.proc host d c
    newAcks host c st (.datagram d) =
      if (p.after s).blknum = s.blknum ∨ (p.after s).disabled = true then []
      else [s.toSend d (p.fill.getD [])] := by
  have after : getSession (step host st (.datagram d)).seshead c = _ := getSession_recv named found
  have sent : outputs host st (.datagram d) = _ := congrArg Prod.fst (answer_eq named found)
  have own : (s.toSend d (((st.move d s).run host.toVolume s (st.receive d).ads d.len d.now).fill.getD
      st.msg)).ses = some c := congrArg some (session_key found)
  have made := run_fill host.toVolume s (st.receive d).ads d.len d.now (st.move d s)
  simp only [newAcks, found, after]
  rw [sent, proc_move found]
  generalize (st.move d s).run host.toVolume s (st.receive d).ads d.len d.now = p at made own ⊢
  by_cases same : (p.after s).blknum = s.blknum
  · rw [if_pos same, if_pos (.inl same)]
  · obtain ⟨msg, fill⟩ := made same
    rw [if_neg same]
    cases disabled : (p.after s).disabled with
    | true => simp
    | false => simp [same, fill, Session.toSend, session_key found]

theorem newAcks_abreast {c : Client} {st st' : Server} {e : Event} (abreast : Abreast c st st')
    (keeps : KeepsPace host c (st, st') e) : newAcks host c st' e = newAcks host c st e := by
  cases e with
  | tick t => rfl
  | datagram d =>
    cases named : host.client d.src with
    | none =>
      have ignored (st : Server) : newAcks host c st (.datagram d) = [] :=
        newAcks_kept (congrArg (fun r => getSession r.1.seshead c) (recv_ignored named))
      rw [ignored, ignored]
    | some x =>
      by_cases own : x = c
      · subst own
        obtain ⟨enclosed, retries⟩ := keeps.2 x named
        have beside := abreast.found x
        cases found : getSession st.seshead x with
        | none =>
          cases found' : getSession st'.seshead x with
          | none => simp only [newAcks, found, found']
          | some s' =>
            rw [found, found'] at beside
            cases beside
        | some s =>
          cases found' : getSession st'.seshead x with
          | none =>
            rw [found, found'] at beside
            cases beside
          | some s' =>
            rw [found, found'] at beside
            cases beside with
            | some one =>
              have even : Even s s' (st.proc host d x) (st'.proc host d x) :=
                abreast.proc_even enclosed found found' one.1 (retries s s' rfl found found')
              have acks := newAcks_found named found
              have acks' := newAcks_found named found'
              dsimp only at acks acks'
              obtain ⟨b, m, after⟩ := even.after
              obtain ⟨⟨a, n, rfl⟩, -⟩ := one
              rw [acks, acks', even.fill, after]
              rfl
      · have other (st : Server) : newAcks host c st (.datagram d) = [] :=
          newAcks_kept (getSession_recv_other named (Ne.symm own))
        rw [other, other]

theorem Abreast.step {c : Client} {st st' : Server} {e : Event} (abreast : Abreast c st st')
    (inv : WellFormed host.toVolume st) (inv' : WellFormed host.toVolume st')
    (keeps : KeepsPace host c (st, st') e) :
    Abreast c (Iwtftpd.step host st e) (Iwtftpd.step host st' e) := by
  cases e with
  | datagram d => exact abreast.datagram keeps
  | tick t => exact abreast.tick inv inv' keeps

theorem KeepsPace.admissible {c : Client} {pair : Server × Server} {e : Event}
    (keeps : KeepsPace host c pair e) : Admissible pair.1 e := by
  cases e with
  | datagram d => exact keeps.1
  | tick t => trivial

/-- Runs that are kept abreast end with the same files, and acknowledge the same blocks. -/
theorem Abreast.run {c : Client} {st st' : Server} {events : List Event} (abreast : Abreast c st st')
    (inv : WellFormed host.toVolume st) (inv' : WellFormed host.toVolume st')
    (keeps : Runs.Admits (fork host) (KeepsPace host c) (st, st') events) :
    Abreast c (Runs.exec (Iwtftpd.step host) st events) (Runs.exec (Iwtftpd.step host) st' events) ∧
      allAcks host c st' events = allAcks host c st events := by
  induction events generalizing st st' with
  | nil => exact ⟨abreast, rfl⟩
  | cons e rest inductionHypothesis =>
    obtain ⟨here, later⟩ := keeps
    have may := here.admissible
    obtain ⟨ends, acks⟩ := inductionHypothesis (abreast.step inv inv' here) (inv.step may)
      (inv'.step (abreast.admissible may)) later
    refine ⟨ends, ?_⟩
    rw [allAcks, allAcks, newAcks_abreast abreast here, acks]

/-! ## The repeated block -/

/-- The session's buffer and number, its stream and every file are as before. -/
def Untouched (c : Client) (s : Session) (st st' : Server) : Prop :=
  (∃ s', getSession st'.seshead c = some s' ∧ s'.sesbuf = s.sesbuf ∧ s'.blknum = s.blknum) ∧
    st'.ads.dhead = st.ads.dhead ∧ st'.ads.disk = st.ads.disk

/-- The session is as finished as before, and the rest of the run makes no difference as long as the
retries and the clocks do not part it from a run without the repeated block. -/
def Unparted (host : Host) (c : Client) (s : Session) (st st' : Server) : Prop :=
  (∃ s', getSession st'.seshead c = some s' ∧ s'.fin = s.fin) ∧
    ∀ events, Runs.Admits (fork host) (KeepsPace host c) (st, st') events →
      (Runs.exec (step host) st' events).ads.disk = (Runs.exec (step host) st events).ads.disk ∧
        allAcks host c st' events = allAcks host c st events

/-- A block that is not the next one is answered by the last message or refused. -/
theorem move_repeated (st : Server) {d : Datagram} {s : Session} {k : UInt16} {data : Bytes}
    (bytes : d.bytes = dataMsg k data) (short : data.length ≤ tftpDatalenMax)
    (accepted : k ≠ nextBlk s.blknum) :
    st.move d s = if k = s.blknum then .resend else .refuse := by
  rw [move_dataMsg st s bytes short, if_neg accepted]

/-- The state after a repeated block. -/
theorem repeated_step {st : Server} {d : Datagram} {c : Client} {s : Session} {k : UInt16} {data : Bytes}
    (named : host.client d.src = some c) (found : getSession st.seshead c = some s)
    (retries : s.retrycount < resendCountmax) (bytes : d.bytes = dataMsg k data)
    (short : data.length ≤ tftpDatalenMax) (accepted : k ≠ nextBlk s.blknum) :
    let st' := step host st (.datagram d)
    let s' := if k = s.blknum then s.paced d.now (s.retrycount + 1) else { s with fin := true }
    st'.seshead = Keyed.store Session.key s' st.seshead ∧ st'.ads.dhead = st.ads.dhead ∧
      st'.ads.disk = st.ads.disk := by
  have state : step host st (.datagram d) = _ := congrArg Prod.fst (recv_eq named)
  have list := handled_apply found (proc_handled host d found)
  have move := move_repeated st bytes short accepted
  dsimp only
  rw [state]
  dsimp only
  rw [list, proc_move found, move]
  by_cases latest : k = s.blknum
  · rw [if_pos latest, if_pos latest, Move.run, resend, if_pos retries]
    exact ⟨rfl, rfl, rfl⟩
  · rw [if_neg latest, if_neg latest, Move.run, errsend_eq .update s _ .illegalOpe empty_short]
    exact ⟨rfl, rfl, rfl⟩

/-- A block accepted before changes neither the buffer nor a file; and the latest block, or any
when the session is finished, but no other, changes nothing that the rest of the upload depends
on.

Proof: the latest block is acknowledged again, which changes the pace of the session and nothing
else; a session at another pace goes on abreast with it. An older one is answered by an ERROR,
which changes `fin` where it was not set. -/
theorem repeated_block_kept {st : Server} {d : Datagram} {c : Client} {s : Session} {k : UInt16}
    {data : Bytes} (reachable : Reachable host st) (admissible : Admissible st (.datagram d))
    (named : host.client d.src = some c) (found : getSession st.seshead c = some s)
    (retries : s.retrycount < resendCountmax) (bytes : d.bytes = dataMsg k data)
    (short : data.length ≤ tftpDatalenMax) (accepted : k ≠ nextBlk s.blknum) :
    Untouched c s st (step host st (.datagram d)) ∧
      (Unparted host c s st (step host st (.datagram d)) ↔ k = s.blknum ∨ s.fin = true) := by
  have inv := reachable.wellFormed
  have inv' := inv.step admissible
  obtain ⟨list, dhead, disk⟩ := repeated_step named found retries bytes short accepted
  have key := session_key found
  generalize step host st (.datagram d) = st' at list dhead disk inv' ⊢
  have there {s' : Session} (list : st'.seshead = Keyed.store Session.key s' st.seshead)
      (same : s'.key = s.key) : getSession st'.seshead c = some s' := by
    rw [list, ← key, ← same]
    exact Keyed.lookup_store_self Session.key (same.trans key ▸ found)
  have self (c : Client) (head : List Session) : List.Forall₂ (Session.Beside c) head head :=
    List.forall₂_same.mpr fun s _ => .refl c s
  by_cases latest : k = s.blknum
  · rw [if_pos latest] at list
    have found' := there list rfl
    refine ⟨⟨⟨_, found', rfl, rfl⟩, dhead, disk⟩, iff_of_true ⟨⟨_, found', rfl⟩, fun events keeps => ?_⟩ (.inl latest)⟩
    have one : s.Beside c (s.paced d.now (s.retrycount + 1)) :=
      ⟨⟨_, _, rfl⟩, fun other => absurd key other⟩
    have beside := Keyed.store_beside Session.key Session.Beside.key (self c st.seshead) one
    rw [Keyed.store_same Session.key (key ▸ found), ← list] at beside
    have abreast : Abreast c st st' := ⟨beside, dhead, disk⟩
    obtain ⟨ends, acks⟩ := abreast.run inv inv' keeps
    exact ⟨ends.disk, acks⟩
  · rw [if_neg latest] at list
    have found' := there list rfl
    refine ⟨⟨⟨_, found', rfl, rfl⟩, dhead, disk⟩, ?_⟩
    constructor
    · rintro ⟨⟨s', here, fin⟩, -⟩
      obtain rfl := Option.some.inj (found'.symm.trans here)
      exact .inr fin.symm
    intro either
    have fin : s.fin = true := either.resolve_left latest
    refine ⟨⟨_, found', fin.symm⟩, fun events keeps => ?_⟩
    have same : st'.seshead = st.seshead := by
      have self : { s with fin := true } = s := by rw [← fin]
      rw [list, self]
      exact Keyed.store_same Session.key (key ▸ found)
    have abreast : Abreast c st st' := by
      refine ⟨?_, dhead, disk⟩
      rw [same]
      exact self c st.seshead
    obtain ⟨ends, acks⟩ := abreast.run inv inv' keeps
    exact ⟨ends.disk, acks⟩

/-! ## An upload of two blocks -/

/-- A block of an upload. -/
def blockOne : Datagram := arrival [1] (dataMsg 1 (List.replicate tftpDatalenMax 7)) none

def blockTwo : Datagram := arrival [1] (dataMsg 2 [8]) none

/-- The server when the first block has been acknowledged. -/
def firstStored : Server := step smallHost uploadOpen (.datagram blockOne)

theorem firstStored_reachable : Reachable smallHost firstStored := by
  have quiet : (Event.datagram blockOne).Quiet := rfl
  exact uploadOpen_reachable.step (quiet.admissible _)

theorem firstStored_session :
    ∃ s, getSession firstStored.seshead ([1], 2000) = some s ∧ s.blknum = 1 ∧ s.retrycount = 0 := by
  have fields : ∀ s ∈ firstStored.seshead, s.blknum = 1 ∧ s.retrycount = 0 := by decide +kernel
  have there : getSession firstStored.seshead ([1], 2000) ≠ none := by decide +kernel
  obtain ⟨s, found⟩ := Option.ne_none_iff_exists'.mp there
  exact ⟨s, found, fields s (session_mem found)⟩

/-- The first block comes twice, and then the second. -/
theorem repeated_block_sample :
    let after := step smallHost firstStored (.datagram blockOne)
    allAcks smallHost ([1], 2000) after [.datagram blockTwo] =
      allAcks smallHost ([1], 2000) firstStored [.datagram blockTwo] := by
  obtain ⟨s, found, number, retries⟩ := firstStored_session
  have quiet (d : Datagram) (none : d.newsock = none) : (Event.datagram d).Quiet := none
  have few : s.retrycount < resendCountmax := by
    rw [retries]
    decide
  have kept := repeated_block_kept firstStored_reachable ((quiet blockOne rfl).admissible _) rfl found few rfl
    (by decide +kernel) (by rw [number]; decide)
  have unparted := kept.2.mpr (.inl number.symm)
  have moves : ∀ s ∈ firstStored.seshead, firstStored.move blockTwo s ≠ .resend := by decide +kernel
  have keeps : KeepsPace smallHost ([1], 2000)
      (firstStored, step smallHost firstStored (.datagram blockOne)) (.datagram blockTwo) := by
    refine ⟨(quiet blockTwo rfl).admissible _, fun x _ => ⟨⟨.inl (by decide), ?_⟩, ?_⟩⟩
    · intro _ request
      exact absurd request (by decide)
    · intro s _ _ found _ move
      exact absurd move (moves s (session_mem found))
  exact (unparted.2 [.datagram blockTwo] ⟨keeps, trivial⟩).2

/-- A continuation of an upload: nothing arrives but blocks of the client. -/
def BlocksOnly (host : Host) (c : Client) (events : List Event) : Prop :=
  ∀ e ∈ events, ∃ d k data, e = .datagram d ∧ host.client d.src = some c ∧ d.bytes = dataMsg k data ∧
    data.length ≤ tftpDatalenMax

/-- A block that has just been acknowledged makes no difference when it arrives again. -/
def RepeatsHarmless (host : Host) : Prop :=
  ∀ before d c s k data, Reachable host before → host.client d.src = some c → d.bytes = dataMsg k data →
    (outputs host before (.datagram d)).map Sent.msg = [ackMsg k] →
    let st := step host before (.datagram d)
    let st' := step host st (.datagram d)
    getSession st.seshead c = some s → s.retrycount < resendCountmax →
    Untouched c s st st' ∧ ∀ events, BlocksOnly host c events →
      (Runs.exec (step host) st' events).ads.disk = (Runs.exec (step host) st events).ads.disk ∧
        allAcks host c st' events = allAcks host c st events

/-- The first block comes four times more in all; with the fourth the retries are used up, and the second
block is not acknowledged any more. -/
theorem repeats_not_harmless : ¬ RepeatsHarmless smallHost := by
  intro harmless
  obtain ⟨s, found, -, retries⟩ := firstStored_session
  have kept := harmless uploadOpen blockOne ([1], 2000) s 1 _ uploadOpen_reachable rfl rfl (by decide +kernel)
    found (by rw [retries]; decide)
  have parted : allAcks smallHost ([1], 2000) (step smallHost firstStored (.datagram blockOne))
        [.datagram blockOne, .datagram blockOne, .datagram blockOne, .datagram blockTwo] ≠
      allAcks smallHost ([1], 2000) firstStored
        [.datagram blockOne, .datagram blockOne, .datagram blockOne, .datagram blockTwo] := by
    decide +kernel
  refine parted (kept.2 _ ?_).2
  intro e member
  simp only [List.mem_cons, List.not_mem_nil, or_false] at member
  have first : blockOne.bytes = dataMsg 1 (List.replicate tftpDatalenMax 7) := rfl
  have second : blockTwo.bytes = dataMsg 2 [8] := rfl
  obtain rfl | rfl | rfl | rfl := member
  · exact ⟨blockOne, _, _, rfl, rfl, first, by decide +kernel⟩
  · exact ⟨blockOne, _, _, rfl, rfl, first, by decide +kernel⟩
  · exact ⟨blockOne, _, _, rfl, rfl, first, by decide +kernel⟩
  · exact ⟨blockTwo, _, _, rfl, rfl, second, by decide +kernel⟩

end Iwtftpd
