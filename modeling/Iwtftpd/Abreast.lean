import Iwtftpd.Leftovers
import Iwtftpd.Saving
import Iwtftpd.Timer

/-!
# Two runs abreast

Two runs of the service under the same events, from states that differ in one
session only, and there only in when it last sent and how often it tried again.
What the session's functions do does not depend on these two fields, so the runs
stay alike for as long as the retries and the clocks do not part them.
-/

namespace Iwtftpd

variable {host : Host} {vol : Volume}

/-! ## What no transfer looks at -/

/-- The session with another moment of sending and another count of retries. -/
def Session.paced (s : Session) (lastsending : Int) (retrycount : Nat) : Session :=
  { s with lastsending := lastsending, retrycount := retrycount }

/-- Alike but for these. -/
def Session.Alike (s s' : Session) : Prop := ∃ a n, s' = s.paced a n

theorem Session.Alike.of_eq {s s' : Session} (same : s' = s) : s.Alike s' :=
  ⟨s.lastsending, s.retrycount, same⟩

section Paced

variable (vol) (s : Session) (ds : IWDS) (a : Int) (n : Nat)

/-- `load_data` neither reads nor writes the time of the last sending and the number of retries.
The lemmas down to `putSessionData_paced` say the same of the other transfer functions. -/
theorem loadData_paced :
    loadData vol (s.paced a n) ds =
      ((loadData vol s ds).1, (loadData vol s ds).2.1.paced a n, (loadData vol s ds).2.2) := by
  simp only [loadData, Session.paced, closeData]
  split <;> rfl

theorem saveData_paced :
    saveData vol (s.paced a n) ds =
      ((saveData vol s ds).1, (saveData vol s ds).2.1.paced a n, (saveData vol s ds).2.2) := by
  by_cases failed : (iwdsWrite vol ds s.clsock s.filename s.buffered).derr ≠ none ∨
      (iwdsWrite vol ds s.clsock s.filename s.buffered).wlen ≠ s.sesbuf.datalen
  · have left : saveData vol (s.paced a n) ds = _ := saveData_failed failed
    rw [left, saveData_failed failed]
    rfl
  · have both := not_or.mp failed
    have derr := not_not.mp both.1
    have wlen := not_not.mp both.2
    have left : saveData vol (s.paced a n) ds = _ := saveData_saved derr wlen
    rw [left, saveData_saved derr wlen]
    rfl

theorem refill_paced :
    refill vol (s.paced a n) ds =
      ((refill vol s ds).1, (refill vol s ds).2.1.paced a n, (refill vol s ds).2.2) := by
  have load := loadData_paced vol s ds a n
  simp only [refill]
  have datalen : (s.paced a n).sesbuf = s.sesbuf := rfl
  rw [datalen, load]
  split
  · generalize loadData vol s ds = r
    obtain ⟨_ | _, s', ds'⟩ := r <;> rfl
  · rfl

theorem takePiece_paced (room : Nat) :
    takePiece (s.paced a n) ds room =
      ((takePiece s ds room).1, (takePiece s ds room).2.1.paced a n, (takePiece s ds room).2.2) := by
  simp only [takePiece, Session.paced]
  cases s.tftpmode <;> rfl

theorem putPiece_paced (data : Bytes) :
    putPiece (s.paced a n) ds data =
      ((putPiece s ds data).1, (putPiece s ds data).2.1.paced a n, (putPiece s ds data).2.2) := by
  simp only [putPiece, Session.paced]
  cases s.tftpmode <;> rfl

theorem flush_paced :
    flush vol (s.paced a n) ds =
      ((flush vol s ds).1, (flush vol s ds).2.1.paced a n, (flush vol s ds).2.2) := by
  have save := saveData_paced vol s ds a n
  have same : (s.paced a n).sesbuf = s.sesbuf ∧ (s.paced a n).fin = s.fin := ⟨rfl, rfl⟩
  simp only [flush, same.1, same.2]
  split
  · exact save
  · rfl

end Paced

/-- The loop of `get_session_data` does not depend on the pace of its session.

Proof: by induction on the fuel, pass by pass. -/
theorem getLoop_paced (vol : Volume) (fuel : Nat) (s : Session) (ds : IWDS) (room : Nat) (out : Bytes)
    (a : Int) (n : Nat) :
    getLoop vol fuel (s.paced a n) ds room out =
      { getLoop vol fuel s ds room out with ses := (getLoop vol fuel s ds room out).ses.paced a n } := by
  induction fuel generalizing s ds room out with
  | zero => rfl
  | succ fuel inductionHypothesis =>
    simp only [getLoop, refill_paced]
    generalize refill vol s ds = r
    obtain ⟨_ | _ | _, s', ds'⟩ := r
    · rfl
    · rfl
    · simp only [takePiece_paced, inductionHypothesis]
      split <;> rfl

/-- The loop of `put_session_data` does not depend on the pace of its session.

Proof: by induction on the fuel, pass by pass. -/
theorem putLoop_paced (vol : Volume) (fuel : Nat) (s : Session) (ds : IWDS) (data : Bytes) (a : Int)
    (n : Nat) :
    putLoop vol fuel (s.paced a n) ds data =
      { putLoop vol fuel s ds data with ses := (putLoop vol fuel s ds data).ses.paced a n } := by
  induction fuel generalizing s ds data with
  | zero => rfl
  | succ fuel inductionHypothesis =>
    simp only [putLoop, putPiece_paced, flush_paced]
    generalize flush vol (putPiece s ds data).2.1 (putPiece s ds data).2.2 = f
    obtain ⟨_ | _, s', ds'⟩ := f
    · rfl
    · simp only [inductionHypothesis]
      split <;> rfl

theorem putSessionData_paced (vol : Volume) (s : Session) (ds : IWDS) (data : Bytes) (a : Int) (n : Nat) :
    putSessionData vol (s.paced a n) ds data =
      { putSessionData vol s ds data with ses := (putSessionData vol s ds data).ses.paced a n } := by
  have same : (s.paced a n).sesbuf = s.sesbuf := rfl
  simp only [putSessionData, same, putLoop_paced]
  split <;> rfl

/-- The encoder of DATA makes the same message at any pace. When it has made one it sets the pace
itself, so the sessions are the same from there on. -/
theorem makeTftpdataMsg_paced (vol : Volume) (s : Session) (ds : IWDS) (now : Int) (a : Int) (n : Nat) :
    let r := makeTftpdataMsg vol s ds tftpMsglenMax now
    let r' := makeTftpdataMsg vol (s.paced a n) ds tftpMsglenMax now
    r'.1 = r.1 ∧ r'.2.2 = r.2.2 ∧
      r'.2.1 = if r.1 = none then r.2.1.paced a n else r.2.1 := by
  have next : { s.paced a n with blknum := nextBlk (s.paced a n).blknum } =
      { s with blknum := nextBlk s.blknum }.paced a n := rfl
  have room : ¬ tftpMsglenMax < tftpMsglenMax := Nat.lt_irrefl _
  have get := getLoop_paced vol (tftpDatalenMax + 1) { s with blknum := nextBlk s.blknum } ds
    tftpDatalenMax [] a n
  simp only [makeTftpdataMsg, if_neg room, next, getSessionData, get]
  generalize getLoop vol (tftpDatalenMax + 1) { s with blknum := nextBlk s.blknum } ds tftpDatalenMax [] = r
  cases r.status with
  | done =>
    simp only [finIfShort]
    split <;> exact ⟨rfl, rfl, rfl⟩
  | err | running => exact ⟨rfl, rfl, rfl⟩

/-- Two ends of a call, alike but for the pace of the session. -/
structure Even (s s' : Session) (p p' : Proc) : Prop where
  fill : p'.fill = p.fill
  ds : p'.ds = p.ds
  after : (p.after s).Alike (p'.after s')

theorem Even.refl (s : Session) (p : Proc) : Even s s p p := ⟨rfl, rfl, .of_eq rfl⟩

/-- A move ends alike at every pace, unless the last message is to be sent again and there are retries
left at one pace only. -/
theorem run_paced (vol : Volume) (s : Session) (ds : IWDS) (dlen : Nat) (now : Int) (move : Move) (a : Int)
    (n : Nat) (retries : move = .resend → (n < resendCountmax ↔ s.retrycount < resendCountmax)) :
    Even s (s.paced a n) (move.run vol s ds dlen now) (move.run vol (s.paced a n) ds dlen now) := by
  cases move with
  | resend =>
    have count : (s.paced a n).retrycount = n := rfl
    unfold Move.run Iwtftpd.resend
    dsimp only
    rw [count]
    by_cases left : s.retrycount < resendCountmax
    · rw [if_pos left, if_pos ((retries rfl).mpr left)]
      exact ⟨rfl, rfl, _, _, rfl⟩
    · rw [if_neg left, if_neg fun less => left ((retries rfl).mp less)]
      exact ⟨rfl, rfl, _, _, rfl⟩
  | refuse =>
    unfold Move.run
    dsimp only
    rw [errsend_eq .update s ds .illegalOpe empty_short,
      errsend_eq .update (s.paced a n) ds .illegalOpe empty_short]
    exact ⟨rfl, rfl, _, _, rfl⟩
  | store dat =>
    have noticed : (s.paced a n).noticed dlen = (s.noticed dlen).paced a n := rfl
    unfold Move.run
    dsimp only
    rw [storeBlock_eq, storeBlock_eq, noticed, putSessionData_paced]
    dsimp only
    generalize putSessionData vol (s.noticed dlen) ds dat.data = r
    split
    · exact ⟨rfl, rfl, _, _, rfl⟩
    · exact ⟨rfl, rfl, _, _, rfl⟩
  | advance =>
    cases fin : s.fin with
    | true =>
      have fin' : (s.paced a n).fin = true := fin
      unfold Move.run nextData
      dsimp only
      rw [if_pos fin, if_pos fin']
      exact ⟨rfl, rfl, _, _, rfl⟩
    | false =>
      have fin' : (s.paced a n).fin = false := fin
      obtain ⟨msg, ds', session⟩ := makeTftpdataMsg_paced vol s ds now a n
      obtain ⟨m, made, fill, after, store⟩ | ⟨none, fill, after, store⟩ := nextData_cases vol ds now fin
      · rw [made] at msg session
        obtain ⟨m', made', fill', after', store'⟩ | ⟨none', -⟩ := nextData_cases vol ds now fin'
        · obtain rfl : m' = m := Option.some.inj (made'.symm.trans msg)
          exact ⟨fill'.trans fill.symm, store'.trans (ds'.trans store.symm),
            .of_eq (after'.trans (session.trans after.symm))⟩
        · exact nomatch none'.symm.trans msg
      · rw [none] at msg session
        obtain ⟨m', made', -⟩ | ⟨-, fill', after', store'⟩ := nextData_cases vol ds now fin'
        · exact nomatch made'.symm.trans msg
        · refine ⟨fill'.trans fill.symm, store'.trans (ds'.trans store.symm), a, n, ?_⟩
          apply after'.trans
          rw [session]
          exact congrArg (Session.paced · a n) after.symm
  | abort => exact ⟨rfl, rfl, _, _, rfl⟩
  | pass => exact ⟨rfl, rfl, _, _, rfl⟩

/-! ## Two states -/

/-- Sessions alike, and equal but for the client's. -/
def Session.Beside (c : Client) (s s' : Session) : Prop := s.Alike s' ∧ (s.key ≠ c → s' = s)

theorem Session.Beside.refl (c : Client) (s : Session) : s.Beside c s := ⟨.of_eq rfl, fun _ => rfl⟩

/-- Sessions that are beside each other are the same transfer of the same client. -/
theorem Session.Beside.ident {c : Client} (s s' : Session) (beside : s.Beside c s') :
    s'.ident = s.ident := by
  obtain ⟨⟨a, n, rfl⟩, -⟩ := beside
  rfl

/-- They are found under the same client. -/
theorem Session.Beside.key {c : Client} (s s' : Session) (beside : s.Beside c s') : s'.key = s.key :=
  key_of_ident (beside.ident s s')

/-- Two states of the service that differ in the pace of one session, and in what no session keeps. -/
structure Abreast (c : Client) (st st' : Server) : Prop where
  sessions : List.Forall₂ (Session.Beside c) st.seshead st'.seshead
  dhead : st'.ads.dhead = st.ads.dhead
  disk : st'.ads.disk = st.ads.disk

/-- Servers that are abreast have the same clients, each with sessions that are beside each other.
-/
theorem Abreast.found {c : Client} {st st' : Server} (abreast : Abreast c st st') (x : Client) :
    Option.Rel (Session.Beside c) (getSession st.seshead x) (getSession st'.seshead x) :=
  Keyed.lookup_beside Session.key Session.Beside.key x abreast.sessions

/-- Lists of sessions that are beside each other, position by position, identify the same
sessions. -/
theorem beside_idents {c : Client} {left right : List Session}
    (sessions : List.Forall₂ (Session.Beside c) left right) :
    right.map Session.ident = left.map Session.ident := by
  induction sessions with
  | nil => rfl
  | cons one _ inductionHypothesis =>
    simp only [List.map_cons, inductionHypothesis, Session.Beside.ident _ _ one]

/-- What one server can be given, the other can be given, too, since a new socket has to be new
among the same sockets. -/
theorem Abreast.admissible {c : Client} {st st' : Server} {e : Event} (abreast : Abreast c st st')
    (admissible : Admissible st e) : Admissible st' e := by
  cases e with
  | tick t => trivial
  | datagram d =>
    intro fd new
    obtain ⟨valid, apart⟩ := admissible fd new
    refine ⟨valid, fun s' member => ?_⟩
    have same : s'.ident ∈ st.seshead.map Session.ident :=
      beside_idents abreast.sessions ▸ List.mem_map_of_mem member
    obtain ⟨s, old, ident⟩ := List.mem_map.mp same
    exact clsock_of_ident ident ▸ apart s old

/-! ## A tick -/

/-- The retries are used up for both sessions or for neither, and so with their time. -/
def Together (now : Int) (s s' : Session) : Prop :=
  (s.exhausted now ↔ s'.exhausted now) ∧ s.expired now = s'.expired now

/-- A session that the timer has been at is expired when it was before, or when its retries were
used up. -/
theorem timed_expired (t : Tick) (s : Session) :
    (s.timed t).expired t.now = (s.expired t.now || decide (s.exhausted t.now)) := by
  rw [Session.timed]
  split
  · rename_i due
    obtain ⟨-, ⟨running, enabled⟩, left, -⟩ := due
    have spared : ¬ s.exhausted t.now := fun exhausted => absurd exhausted.2.2.2 (by omega)
    simp [Session.expired, running, enabled, spared]
  · split
    · rename_i exhausted
      simp [Session.expired, exhausted]
    · rename_i spared
      simp [spared]

/-- The timer leaves sessions alike when it finds the retries of both used up or of neither. -/
theorem timed_alike {t : Tick} {s s' : Session} (alike : s.Alike s')
    (exhausted : s.exhausted t.now ↔ s'.exhausted t.now) : (s.timed t).Alike (s'.timed t) := by
  have spared {s : Session} (due : s.Due t) : ¬ s.exhausted t.now := fun exhausted =>
    absurd exhausted.2.2.2 (by have := due.2.2.1; omega)
  obtain ⟨a, n, rfl⟩ := alike
  by_cases due : s.Due t
  · by_cases due' : (s.paced a n).Due t
    · rw [Session.timed, Session.timed, if_pos due, if_pos due']
      exact ⟨_, _, rfl⟩
    · rw [Session.timed, Session.timed, if_pos due, if_neg due', if_neg fun gone => spared due (exhausted.mpr gone)]
      exact ⟨a, n, rfl⟩
  · by_cases due' : (s.paced a n).Due t
    · rw [Session.timed, Session.timed, if_neg due, if_pos due', if_neg fun gone => spared due' (exhausted.mp gone)]
      exact ⟨_, _, rfl⟩
    · rw [Session.timed, Session.timed, if_neg due, if_neg due']
      by_cases gone : s.exhausted t.now
      · rw [if_pos gone, if_pos (exhausted.mp gone)]
        exact ⟨a, n, rfl⟩
      · rw [if_neg gone, if_neg fun gone' => gone (exhausted.mpr gone')]
        exact ⟨a, n, rfl⟩

/-- So does a whole round of timer and sweep: it removes both or neither. -/
theorem round_beside {c : Client} {t : Tick} {s s' : Session} (beside : s.Beside c s')
    (together : Together t.now s s') : Option.Rel (Session.Beside c) (s.round t) (s'.round t) := by
  obtain ⟨exhausted, expired⟩ := together
  have same : (s'.timed t).expired t.now = (s.timed t).expired t.now := by
    rw [timed_expired, timed_expired, expired, decide_eq_decide.mpr exhausted]
  rw [Session.round, Session.round, same]
  split
  · exact .none
  · refine .some ⟨timed_alike beside.1 exhausted, fun other => ?_⟩
    rw [key_of_ident (timed_ident t s)] at other
    rw [beside.2 other]

/-- Sessions that are given up together close the same streams of the datastore. -/
theorem release_beside {c : Client} {now : Int} {left right : List Session} (ads : IWDS)
    (sessions : List.Forall₂ (fun s s' => s.Beside c s' ∧ Together now s s') left right) :
    right.foldl (fun ads s => s.release now ads) ads = left.foldl (fun ads s => s.release now ads) ads := by
  induction sessions generalizing ads with
  | nil => rfl
  | @cons s s' _ _ one _ inductionHypothesis =>
    obtain ⟨⟨⟨a, n, rfl⟩, -⟩, exhausted, -⟩ := one
    have same : (s.paced a n).release now ads = s.release now ads := if_congr exhausted.symm rfl rfl
    rw [List.foldl_cons, List.foldl_cons, same]
    exact inductionHypothesis _

/-- What no clock parts is together everywhere. -/
theorem together_all {c : Client} {now : Int} {left right : List Session}
    (sessions : List.Forall₂ (Session.Beside c) left right)
    (together : ∀ s ∈ left, ∀ s' ∈ right, s.key = c → s'.key = c → Together now s s') :
    List.Forall₂ (fun s s' => s.Beside c s' ∧ Together now s s') left right := by
  induction sessions with
  | nil => exact .nil
  | @cons s s' left right one rest inductionHypothesis =>
    refine .cons ⟨one, ?_⟩ (inductionHypothesis fun r inside r' inside' =>
      together r (List.mem_cons_of_mem s inside) r' (List.mem_cons_of_mem s' inside'))
    by_cases own : s.key = c
    · exact together s List.mem_cons_self s' List.mem_cons_self own ((one.key s s').trans own)
    · rw [one.2 own]
      exact ⟨Iff.rfl, rfl⟩

/-- A tick keeps two servers abreast, as long as the client's two sessions are given up at the
same tick.

Proof: a tick is a round of every session by itself, so the lists stay beside each other; what the
sessions given up close is the same on both sides. -/
theorem Abreast.tick {c : Client} {st st' : Server} {t : Tick} (abreast : Abreast c st st')
    (inv : WellFormed vol st) (inv' : WellFormed vol st')
    (together : ∀ s s', getSession st.seshead c = some s → getSession st'.seshead c = some s' →
      Together t.now s s') : Abreast c (endIteration st t).1 (endIteration st' t).1 := by
  have all := together_all abreast.sessions fun s member s' member' key key' =>
    together s s' (key ▸ Keyed.lookup_of_mem Session.key inv.clients member)
      (key' ▸ Keyed.lookup_of_mem Session.key inv'.clients member')
  have start : ({ st'.ads with faults := t.faults, trace := [] } : IWDS) =
      { st.ads with faults := t.faults, trace := [] } := by
    simp only [abreast.dhead, abreast.disk]
  have ads : (endIteration st' t).1.ads = (endIteration st t).1.ads := by
    have right : (endIteration st' t).1.ads = _ := resendAllsession_ads t st'.seshead _ t.addr sockaddrStorage
    have left : (endIteration st t).1.ads = _ := resendAllsession_ads t st.seshead _ t.addr sockaddrStorage
    rw [right, left, start]
    exact release_beside _ all
  refine ⟨?_, by rw [ads], by rw [ads]⟩
  rw [endIteration_rounds t inv, endIteration_rounds t inv']
  exact List.rel_filterMap (fun _ _ both => round_beside both.1 both.2) all

/-! ## A datagram -/

/-- What the loop hands to the datastore is the same on both sides. -/
theorem Abreast.receive {c : Client} {st st' : Server} (abreast : Abreast c st st') (d : Datagram) :
    (st'.receive d).ads = (st.receive d).ads := by
  simp only [Server.receive, abreast.dhead, abreast.disk]

/-- The call for a client whose session is the same on both sides. -/
theorem Abreast.proc_eq {c x : Client} {st st' : Server} {d : Datagram} (abreast : Abreast c st st')
    (enclosed : Enclosed (getSession st.seshead x) d.delivered)
    (same : getSession st'.seshead x = getSession st.seshead x) : st'.proc host d x = st.proc host d x := by
  have list : getSession (st.receive d).seshead x = getSession st.seshead x := rfl
  have list' : getSession (st'.receive d).seshead x = getSession st.seshead x := same
  have call := enclosed_same host.toVolume (st.receive d).ads (st'.rbuf.drop d.bytes.length)
    (st.rbuf.drop d.bytes.length) x d.now d.newsock enclosed
  rw [d.delivered_length] at call
  simp only [Server.proc, list, list', abreast.receive d, receive_rbuf_eq]
  exact call

/-- The call for a client with a session ends alike on both sides. -/
theorem Abreast.proc_even {c x : Client} {st st' : Server} {d : Datagram} {s s' : Session}
    (abreast : Abreast c st st') (enclosed : Enclosed (getSession st.seshead x) d.delivered)
    (found : getSession st.seshead x = some s) (found' : getSession st'.seshead x = some s')
    (alike : s.Alike s')
    (retries : st.move d s = .resend → (s'.retrycount < resendCountmax ↔ s.retrycount < resendCountmax)) :
    Even s s' (st.proc host d x) (st'.proc host d x) := by
  obtain ⟨a, n, rfl⟩ := alike
  have own : Enclosed (some (s.paced a n)) d.delivered := ⟨enclosed.1, fun impossible => nomatch impossible⟩
  have list' : getSession (st'.receive d).seshead x = some (s.paced a n) := found'
  have same := enclosed_same host.toVolume (st.receive d).ads (st'.rbuf.drop d.bytes.length)
    (st.rbuf.drop d.bytes.length) x d.now d.newsock own
  rw [d.delivered_length, tftpProc_move, tftpProc_move] at same
  have move : (s.paced a n).move (d.delivered ++ st.rbuf.drop d.bytes.length) d.len = st.move d s := rfl
  have call : st'.proc host d x =
      (st.move d s).run host.toVolume (s.paced a n) (st.receive d).ads d.len d.now := by
    simp only [Server.proc, list', abreast.receive d, tftpProc_move]
    exact same.trans (by rw [move])
  rw [call, proc_move found]
  exact run_paced host.toVolume s (st.receive d).ads d.len d.now _ a n retries

/-- The retries and the clocks do not part the client's sessions, and no call reads leftovers. -/
def KeepsPace (host : Host) (c : Client) (pair : Server × Server) : Event → Prop
  | .datagram d => Admissible pair.1 (.datagram d) ∧ ∀ x, host.client d.src = some x →
      Enclosed (getSession pair.1.seshead x) d.delivered ∧
      ∀ s s', x = c → getSession pair.1.seshead c = some s → getSession pair.2.seshead c = some s' →
        pair.1.move d s = .resend → (s'.retrycount < resendCountmax ↔ s.retrycount < resendCountmax)
  | .tick t => ∀ s s', getSession pair.1.seshead c = some s → getSession pair.2.seshead c = some s' →
      Together t.now s s'

/-- A datagram keeps two servers abreast, as long as the client's two sessions both have retries
left for it or neither has.

Proof: both servers look up sessions beside each other and take the same branch for them. What
others are sent and what is written is the same. -/
theorem Abreast.datagram {c : Client} {st st' : Server} {d : Datagram} (abreast : Abreast c st st')
    (keeps : KeepsPace host c (st, st') (.datagram d)) :
    Abreast c (recv host st d).1 (recv host st' d).1 := by
  obtain ⟨-, keeps⟩ := keeps
  have ads := abreast.receive d
  cases named : host.client d.src with
  | none =>
    rw [recv_ignored named, recv_ignored named]
    exact ⟨abreast.sessions, by rw [ads], by rw [ads]⟩
  | some x =>
    obtain ⟨enclosed, retries⟩ := keeps x named
    rw [recv_eq named, recv_eq named]
    have beside := abreast.found x
    cases found : getSession st.seshead x with
    | none =>
      cases found' : getSession st'.seshead x with
      | some s' =>
        rw [found, found'] at beside
        cases beside
      | none =>
        rw [abreast.proc_eq enclosed (found'.trans found.symm)]
        refine ⟨?_, rfl, rfl⟩
        dsimp only
        cases edit : (st.proc host d x).edit with
        | keep => exact abreast.sessions
        | update s => exact Keyed.store_beside Session.key Session.Beside.key abreast.sessions (.refl c s)
        | insert s => exact .cons (.refl c s) abreast.sessions
    | some s =>
      cases found' : getSession st'.seshead x with
      | none =>
        rw [found, found'] at beside
        cases beside
      | some s' =>
        rw [found, found'] at beside
        cases beside with
        | some one =>
          have key := session_key found
          have even : Even s s' (st.proc host d x) (st'.proc host d x) := by
            apply abreast.proc_even enclosed found found' one.1
            intro move
            by_cases own : x = c
            · exact retries s s' own (own ▸ found) (own ▸ found') move
            · rw [one.2 (key ▸ own)]
          refine ⟨?_, by rw [even.ds], by rw [even.ds]⟩
          dsimp only
          rw [handled_apply found (proc_handled host d found),
            handled_apply found' (proc_handled host d found')]
          refine Keyed.store_beside Session.key Session.Beside.key abreast.sessions ⟨even.after, ?_⟩
          intro other
          have apart : s.key ≠ c := key_of_ident (proc_handled host d found).ident ▸ other
          have same := one.2 apart
          rw [abreast.proc_eq enclosed (found'.trans (same ▸ found.symm)), same]

end Iwtftpd
