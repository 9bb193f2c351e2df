import Iwtftpd.Moves

/-!
# The timer

An iteration of the event loop ends with `resend_allsession` and
`cleanup_session`. For each session by itself, that is one round: its last
message goes out again, or it is given up, or it is left as it is, and then it
stays in the list or it does not. The loop over the list does nothing else,
except that it keeps one address for all sessions.
-/

namespace Iwtftpd

variable {host : Host}

/-! ## One session -/

/-- The timer sends the last message of the session again. -/
def Session.Due (t : Tick) (s : Session) : Prop :=
  resendInterval < difftime t.now s.lastsending ∧ s.Active ∧ s.retrycount < resendCountmax ∧
    t.getsockname s.clsock ≠ none

instance (t : Tick) (s : Session) : Decidable (s.Due t) := by
  unfold Session.Due Session.Active
  infer_instance

instance (now : Int) (s : Session) : Decidable (s.exhausted now) := by
  unfold Session.exhausted
  infer_instance

/-- What the loop of `resend_allsession` makes of the session. -/
def Session.timed (t : Tick) (s : Session) : Session :=
  if s.Due t then { s with retrycount := s.retrycount + 1, lastsending := t.now }
  else if s.exhausted t.now then { s with disabled := true }
  else s

/-- The stream of a session that is given up is closed. -/
def Session.release (now : Int) (s : Session) (ads : IWDS) : IWDS :=
  if s.exhausted now then closeData s ads else ads

/-- The pass for a session that is not due sends nothing. -/
theorem resendAllsession_idle (t : Tick) {pm : Session} (rest : List Session) (ads : IWDS)
    (addr : Bytes) (addrlen : Nat) (idle : ¬ pm.Due t) :
    resendAllsession t (pm :: rest) ads addr addrlen =
      (resendAllsession t rest (pm.release t.now ads) addr addrlen).cons (pm.timed t) := by
  have kept (spared : ¬ pm.exhausted t.now) :
      pm.timed t = pm ∧ pm.release t.now ads = ads := by
    rw [Session.timed, if_neg idle, if_neg spared, Session.release, if_neg spared]
    exact ⟨rfl, rfl⟩
  have same {spared : ¬ pm.exhausted t.now} : (resendAllsession t rest ads addr addrlen).cons pm =
      (resendAllsession t rest (pm.release t.now ads) addr addrlen).cons (pm.timed t) := by
    rw [(kept spared).1, (kept spared).2]
  rw [resendAllsession]
  split
  · rename_i early
    apply same
    exact fun gone => absurd gone.1 (by omega)
  · rename_i late
    split
    · rename_i ended
      apply same
      rintro ⟨_, running, enabled, _⟩
      rw [running, enabled] at ended
      rcases ended with ⟨⟨⟩⟩ | ⟨⟨⟩⟩
    · rename_i active
      rw [not_or, Bool.not_eq_true, Bool.not_eq_true] at active
      split
      · rename_i spent
        have gone : pm.exhausted t.now := ⟨by omega, active.1, active.2, spent⟩
        rw [Session.timed, if_neg idle, if_pos gone, Session.release, if_pos gone]
        rfl
      · rename_i left
        split
        · apply same
          exact fun gone => absurd gone.2.2.2 left
        · rename_i name named
          exact absurd ⟨by omega, active, by omega, by rw [named]; exact Option.some_ne_none _⟩ idle

/-- The pass for a session that is due. -/
theorem resendAllsession_due (t : Tick) {pm : Session} (rest : List Session) (ads : IWDS)
    (addr : Bytes) (addrlen : Nat) (due : pm.Due t) :
    ∃ name, t.getsockname pm.clsock = some name ∧
      let addr' := name.take addrlen ++ addr.drop (min name.length addrlen)
      let r := (resendAllsession t rest ads addr' name.length).cons (pm.timed t)
      resendAllsession t (pm :: rest) ads addr addrlen =
        { r with sent :=
          { sock := pm.clsock, dest := addr'.take name.length, msg := pm.lastmsg,
            ses := some pm.key } :: r.sent } := by
  have timed : pm.timed t = { pm with retrycount := pm.retrycount + 1, lastsending := t.now } :=
    if_pos due
  obtain ⟨late, ⟨running, enabled⟩, left, named⟩ := due
  obtain ⟨name, named⟩ := Option.ne_none_iff_exists'.mp named
  have active : ¬ (pm.fin = true ∨ pm.disabled = true) := by
    rw [running, enabled]
    nofun
  refine ⟨name, named, ?_⟩
  rw [timed, resendAllsession, if_neg (by omega), if_neg active, if_neg (by omega), named]
  rfl

/-- The loop is a map; the messages are those of the sessions that are due. -/
theorem resendAllsession_map (t : Tick) (head : List Session) (ads : IWDS) (addr : Bytes)
    (addrlen : Nat) :
    (resendAllsession t head ads addr addrlen).seshead = head.map (Session.timed t) ∧
      (resendAllsession t head ads addr addrlen).sent.map (fun m => (m.ses, m.msg)) =
        (head.filter (fun s => s.Due t)).map fun s => (some s.key, s.lastmsg) := by
  induction head generalizing ads addr addrlen with
  | nil => exact ⟨rfl, rfl⟩
  | cons pm rest inductionHypothesis =>
    by_cases due : pm.Due t
    · obtain ⟨name, _, pass⟩ := resendAllsession_due t rest ads addr addrlen due
      obtain ⟨list, sent⟩ := inductionHypothesis ads
        (name.take addrlen ++ addr.drop (min name.length addrlen)) name.length
      rw [pass, List.filter_cons_of_pos (by simpa using due), List.map_cons, List.map_cons]
      exact ⟨congrArg (List.cons _) list, congrArg (List.cons _) sent⟩
    · obtain ⟨list, sent⟩ := inductionHypothesis (pm.release t.now ads) addr addrlen
      rw [resendAllsession_idle t rest ads addr addrlen due, List.filter_cons_of_neg (by simpa using due), List.map_cons]
      exact ⟨congrArg (List.cons _) list, sent⟩

theorem release_due {t : Tick} {s : Session} (ads : IWDS) (due : s.Due t) : s.release t.now ads = ads := by
  obtain ⟨-, -, left, -⟩ := due
  exact if_neg fun exhausted => absurd exhausted.2.2.2 (by omega)

/-- The loop closes the streams of the sessions that are given up, in the order of the list. -/
theorem resendAllsession_ads (t : Tick) (head : List Session) (ads : IWDS) (addr : Bytes)
    (addrlen : Nat) :
    (resendAllsession t head ads addr addrlen).ads =
      head.foldl (fun ads s => s.release t.now ads) ads := by
  induction head generalizing ads addr addrlen with
  | nil => rfl
  | cons pm rest inductionHypothesis =>
    rw [List.foldl_cons]
    by_cases due : pm.Due t
    · obtain ⟨name, _, pass⟩ := resendAllsession_due t rest ads addr addrlen due
      rw [pass, release_due ads due]
      exact inductionHypothesis _ _ _
    · rw [resendAllsession_idle t rest ads addr addrlen due]
      exact inductionHypothesis _ _ _

/-- The first session that is due has its message sent to the name of its own socket: until
then nobody has touched the length of the address. -/
theorem resendAllsession_first (t : Tick) {head : List Session} (ads : IWDS) (addr : Bytes)
    {addrlen : Nat} (some_due : ∃ s ∈ head, s.Due t)
    (short : ∀ s ∈ head, ∀ name, t.getsockname s.clsock = some name → name.length ≤ addrlen) :
    ∃ s ∈ head, ∃ name, t.getsockname s.clsock = some name ∧
      { sock := s.clsock, dest := name, msg := s.lastmsg, ses := some s.key } ∈
        (resendAllsession t head ads addr addrlen).sent := by
  induction head generalizing ads with
  | nil =>
    obtain ⟨s, member, _⟩ := some_due
    cases member
  | cons pm rest inductionHypothesis =>
    by_cases due : pm.Due t
    · obtain ⟨name, named, pass⟩ := resendAllsession_due t rest ads addr addrlen due
      have fits := short pm List.mem_cons_self name named
      refine ⟨pm, List.mem_cons_self, name, named, ?_⟩
      rw [pass, List.take_of_length_le fits, List.take_left]
      exact List.mem_cons_self
    · have pass := resendAllsession_idle t rest ads addr addrlen due
      have later : ∃ s ∈ rest, s.Due t := by
        obtain ⟨s, member, late⟩ := some_due
        obtain rfl | inRest := List.mem_cons.mp member
        · exact absurd late due
        · exact ⟨s, inRest, late⟩
      obtain ⟨s, member, name, named, sent⟩ := inductionHypothesis (pm.release t.now ads) later
        fun s inRest => short s (List.mem_cons_of_mem pm inRest)
      refine ⟨s, List.mem_cons_of_mem pm member, name, named, ?_⟩
      rw [pass]
      exact sent

/-- A session after a whole round, `none` when it is cleaned up. -/
def Session.round (t : Tick) (s : Session) : Option Session :=
  if (s.timed t).expired t.now then none else some (s.timed t)

private theorem filterMap_round (t : Tick) (head : List Session) :
    (head.map (Session.timed t)).filter (fun s => !s.expired t.now) =
      head.filterMap (Session.round t) := by
  induction head with
  | nil => rfl
  | cons s rest inductionHypothesis =>
    rw [List.map_cons, List.filterMap_cons, Session.round]
    by_cases gone : (s.timed t).expired t.now = true
    · rw [List.filter_cons_of_neg (by simpa using gone), if_pos gone, inductionHypothesis]
    · rw [List.filter_cons_of_pos (by simpa using gone), if_neg gone, inductionHypothesis]

theorem endIteration_rounds {vol : Volume} {st : Server} (t : Tick) (inv : WellFormed vol st) :
    (endIteration st t).1.seshead = st.seshead.filterMap (Session.round t) := by
  obtain ⟨list, _⟩ := resendAllsession_map t st.seshead
    { st.ads with faults := t.faults, trace := [] } t.addr sockaddrStorage
  obtain ⟨pairs, _⟩ := resendAllsession_steps t st.seshead
    { st.ads with faults := t.faults, trace := [] } t.addr sockaddrStorage
  have cleaned : (endIteration st t).1.seshead = _ :=
    cleanupSession_eq (forall₂_keys pairs ▸ inv.clients)
  rw [cleaned, list, filterMap_round]

theorem timed_ident (t : Tick) (s : Session) : (s.timed t).ident = s.ident := by
  rw [Session.timed]
  split
  · rfl
  · split <;> rfl

theorem round_some {t : Tick} {s s' : Session} (round : s.round t = some s') : s' = s.timed t := by
  rw [Session.round] at round
  split at round
  · cases round
  · exact (Option.some.inj round).symm

/-- The session of a client after a tick. -/
theorem getSession_rounds {vol : Volume} {st : Server} (t : Tick) (c : Client)
    (inv : WellFormed vol st) :
    getSession (endIteration st t).1.seshead c = (getSession st.seshead c).bind (Session.round t) := by
  rw [endIteration_rounds t inv]
  refine Keyed.lookup_filterMap Session.key ?_ inv.clients
  intro s s' round
  rw [round_some round]
  exact key_of_ident (timed_ident t s)

/-- A tick at the given time, on a host whose every socket has the address 9. -/
def tickAt (now : Int) : Tick where
  now := now
  sockname := fun _ => some [9]
  addr := []
  faults := []

end Iwtftpd
