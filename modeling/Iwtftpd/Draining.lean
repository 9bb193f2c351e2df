import Iwtftpd.Isolation
import Iwtftpd.Timer

/-!
# Ticks without datagrams

Left to the timer, every session goes through rounds of its own. One that is
finished or disabled is cleaned up in the first. One that is active needs its
retries used up first, and a round uses one only when `getsockname` succeeds on
the socket of the session. A session whose socket could not be made stays.
-/

namespace Iwtftpd

variable {host : Host}

/-- The ticks lie more than the close wait apart, the first that much after the given time. -/
def Spaced (last : Int) : List Tick → Prop
  | [] => True
  | t :: rest => sessionClosewait < t.now - last ∧ Spaced t.now rest

theorem Spaced.earlier {last last' : Int} {ticks : List Tick} (spaced : Spaced last ticks)
    (before : last' ≤ last) : Spaced last' ticks := by
  cases ticks with
  | nil => trivial
  | cons t rest => exact ⟨by have := spaced.1; omega, spaced.2⟩

/-- Behind a tick come only later ones. -/
theorem Spaced.le {last : Int} {t : Tick} {rest : List Tick} (spaced : Spaced last (t :: rest)) :
    ∀ t' ∈ t :: rest, t.now ≤ t'.now := by
  have wait : sessionClosewait = 15 := rfl
  induction rest generalizing last t with
  | nil => simp
  | cons next rest inductionHypothesis =>
    intro t' member
    obtain rfl | inRest := List.mem_cons.mp member
    · exact Int.le_refl _
    · have later := inductionHypothesis spaced.2 t' inRest
      have apart := spaced.2.1
      omega

/-- Every tick comes in less than 2^31 seconds after the one before, the first after the given time:
the code can compute the time between them. -/
def Prompt (last : Int) : List Tick → Prop
  | [] => True
  | t :: rest => t.now - last < 2 ^ 31 ∧ Prompt t.now rest

/-- The rounds of a session, as long as it is there. -/
def Session.rounds (s : Session) : List Tick → Option Session
  | [] => some s
  | t :: rest => (s.round t).bind fun s' => s'.rounds rest

/-- The ticks that find a name for the socket of the session. -/
def Session.named (s : Session) (ticks : List Tick) : List Tick :=
  ticks.filter fun t => t.getsockname s.clsock ≠ none

/-- One of the ticks comes after as many that find a name for the socket of the session as the
session has retries left, and from the last message on they follow each other promptly. -/
def Session.Leaves (s : Session) (ticks : List Tick) : Prop :=
  ∃ before t after, ticks = before ++ t :: after ∧
    resendCountmax ≤ s.retrycount + (s.named before).length ∧
    Prompt s.lastsending (s.named before ++ [t])

theorem rounds_of_round {s s' : Session} {t : Tick} (rest : List Tick)
    (round : s.round t = some s') : s.rounds (t :: rest) = s'.rounds rest := by
  rw [Session.rounds, round]
  rfl

theorem rounds_of_gone {s : Session} {t : Tick} (rest : List Tick) (gone : s.round t = none) :
    s.rounds (t :: rest) = none := by
  rw [Session.rounds, gone]
  rfl

/-! ## One round after a long silence -/

/-- A disabled session is cleaned up. -/
theorem round_disabled {s : Session} (t : Tick) (disabled : s.disabled = true) : s.round t = none := by
  have idle : ¬ s.Due t := by
    rintro ⟨-, ⟨-, enabled⟩, -⟩
    rw [disabled] at enabled
    cases enabled
  have spared : ¬ s.exhausted t.now := by
    rintro ⟨-, -, enabled, -⟩
    rw [disabled] at enabled
    cases enabled
  rw [Session.round, Session.timed, if_neg idle, if_neg spared, Session.expired, disabled]
  rfl

/-- A finished session is cleaned up if the code finds its close wait over. -/
theorem round_finished {s : Session} (t : Tick) (fin : s.fin = true) (enabled : s.disabled = false) :
    s.round t = if sessionClosewait < difftime t.now s.lastsending then none else some s := by
  have idle : ¬ s.Due t := by
    rintro ⟨-, ⟨running, -⟩, -⟩
    rw [fin] at running
    cases running
  have spared : ¬ s.exhausted t.now := by
    rintro ⟨-, running, -⟩
    rw [fin] at running
    cases running
  rw [Session.round, Session.timed, if_neg idle, if_neg spared, Session.expired, fin, enabled]
  simp

/-- An active session without retries is given up and cleaned up. -/
theorem round_spent {s : Session} {t : Tick} (silent : sessionClosewait < difftime t.now s.lastsending)
    (active : s.Active) (spent : resendCountmax ≤ s.retrycount) : s.round t = none := by
  have idle : ¬ s.Due t := fun due => absurd due.2.2.1 (by omega)
  have late : resendInterval < difftime t.now s.lastsending := by
    have longer : resendInterval < sessionClosewait := by decide
    omega
  have gone : s.exhausted t.now := ⟨late, active.1, active.2, spent⟩
  have expired : ({ s with disabled := true } : Session).expired t.now = true := rfl
  rw [Session.round, Session.timed, if_neg idle, if_pos gone, if_pos expired]

/-- An active session that stays as active as it was is not cleaned up. -/
theorem round_kept {s s' : Session} {t : Tick} (timed : s.timed t = s') (active : s'.Active) :
    s.round t = some s' := by
  have lasting : ¬ s'.expired t.now = true := by
    rw [Session.expired, active.1, active.2]
    nofun
  rw [Session.round, timed, if_neg lasting]

/-- An active session with retries uses one of them if its socket has a name. -/
theorem round_left {s : Session} {t : Tick} (silent : sessionClosewait < difftime t.now s.lastsending)
    (active : s.Active) (left : s.retrycount < resendCountmax) :
    s.round t = some (if t.getsockname s.clsock = none then s
      else { s with retrycount := s.retrycount + 1, lastsending := t.now }) := by
  have late : resendInterval < difftime t.now s.lastsending := by
    have longer : resendInterval < sessionClosewait := by decide
    omega
  split
  · rename_i unnamed
    have idle : ¬ s.Due t := fun due => due.2.2.2 unnamed
    have spared : ¬ s.exhausted t.now := fun gone => absurd gone.2.2.2 (by omega)
    exact round_kept (by rw [Session.timed, if_neg idle, if_neg spared]) active
  · rename_i named
    have due : s.Due t := ⟨late, active, left, named⟩
    exact round_kept (if_pos due) active

/-- A tick that comes too late for the code to compute the time changes nothing. -/
theorem round_missed {s : Session} {t : Tick} (enabled : s.disabled = false)
    (missed : difftime t.now s.lastsending ≤ resendInterval) : s.round t = some s := by
  have idle : ¬ s.Due t := fun due => absurd due.1 (by omega)
  have spared : ¬ s.exhausted t.now := fun gone => absurd gone.1 (by omega)
  have soon : ¬ sessionClosewait < difftime t.now s.lastsending := by
    have longer : resendInterval < sessionClosewait := by decide
    omega
  rw [Session.round, Session.timed, if_neg idle, if_neg spared, Session.expired, enabled]
  simp [soon]

/-! ## All rounds -/

/-- Once the code cannot compute the time, it never can again. -/
theorem rounds_missed {s : Session} {t : Tick} {rest : List Tick} (enabled : s.disabled = false)
    (spaced : Spaced s.lastsending (t :: rest)) (missed : ¬ t.now - s.lastsending < 2 ^ 31) :
    s.rounds (t :: rest) = some s := by
  have later := spaced.le
  generalize t :: rest = ticks at later
  induction ticks with
  | nil => rfl
  | cons next rest inductionHypothesis =>
    have after := later next List.mem_cons_self
    have late : ¬ resendInterval < difftime next.now s.lastsending := by
      rw [difftime_late _ _ (by decide)]
      omega
    rw [rounds_of_round rest (round_missed enabled (by omega))]
    exact inductionHypothesis fun t' member => later t' (List.mem_cons_of_mem next member)

/-- A session that leaves during the ticks is there for the first of them in time. -/
theorem Session.Leaves.prompt {s : Session} {t : Tick} {rest : List Tick} (leaves : s.Leaves (t :: rest))
    (spaced : Spaced s.lastsending (t :: rest)) : t.now - s.lastsending < 2 ^ 31 := by
  obtain ⟨before, last, after, split, -, prompt⟩ := leaves
  cases named : s.named before ++ [last] with
  | nil => simp at named
  | cons first others =>
    have member : first ∈ s.named before ++ [last] := named ▸ List.mem_cons_self
    have inside : first ∈ t :: rest := by
      rw [split]
      rcases List.mem_append.mp member with one | one
      · exact List.mem_append_left _ (List.mem_filter.mp one).1
      · exact List.mem_append_right _ (List.mem_cons.mpr (.inl (List.mem_singleton.mp one)))
    have later := spaced.le first inside
    rw [named] at prompt
    have soon := prompt.1
    omega

/-- With retries left, a session does not leave at the first tick. -/
theorem leaves_cons {s : Session} {t : Tick} {rest : List Tick} (left : s.retrycount < resendCountmax) :
    s.Leaves (t :: rest) ↔ ∃ before last after, rest = before ++ last :: after ∧
      resendCountmax ≤ s.retrycount + (s.named (t :: before)).length ∧
      Prompt s.lastsending (s.named (t :: before) ++ [last]) := by
  constructor
  · rintro ⟨before, last, after, split, count, prompt⟩
    cases before with
    | nil => exact absurd left (Nat.not_lt.mpr count)
    | cons first before =>
      obtain ⟨rfl, same⟩ := List.cons.inj split
      exact ⟨before, last, after, same, count, prompt⟩
  · rintro ⟨before, last, after, rfl, count, prompt⟩
    exact ⟨t :: before, last, after, rfl, count, prompt⟩

/-- An active session is gone at the end of the ticks if and only if it leaves during them.
Proof: by induction on the ticks. A session without retries goes at once, one with retries uses
one of them if its socket has a name; and if the code cannot compute the time, it stays. -/
theorem rounds_active {s : Session} {ticks : List Tick} (spaced : Spaced s.lastsending ticks)
    (active : s.Active) : s.rounds ticks = none ↔ s.Leaves ticks := by
  induction ticks generalizing s with
  | nil =>
    refine iff_of_false nofun ?_
    rintro ⟨before, _, _, split, -⟩
    cases before <;> cases split
  | cons t rest inductionHypothesis =>
    by_cases prompt : t.now - s.lastsending < 2 ^ 31
    · have silent : sessionClosewait < difftime t.now s.lastsending :=
        (difftime_late _ _ (by decide)).mpr ⟨spaced.1, prompt⟩
      by_cases spent : resendCountmax ≤ s.retrycount
      · exact iff_of_true (rounds_of_gone rest (round_spent silent active spent))
          ⟨[], t, rest, rfl, spent, prompt, trivial⟩
      · have left : s.retrycount < resendCountmax := by omega
        rw [rounds_of_round rest (round_left silent active left), leaves_cons left]
        by_cases unnamed : t.getsockname s.clsock = none
        · have later : Spaced s.lastsending rest := by
            apply spaced.2.earlier
            have wait : sessionClosewait = 15 := rfl
            have apart := spaced.1
            omega
          have passed (before : List Tick) : s.named (t :: before) = s.named before :=
            List.filter_cons_of_neg (by simpa using unnamed)
          simp only [if_pos unnamed, passed]
          exact inductionHypothesis later active
        · let s' := { s with retrycount := s.retrycount + 1, lastsending := t.now }
          have next := inductionHypothesis (s := s') spaced.2 active
          have counted (before : List Tick) : s.named (t :: before) = t :: s'.named before :=
            List.filter_cons_of_pos (by simpa using unnamed)
          rw [if_neg unnamed]
          refine next.trans (exists_congr fun before => exists_congr fun last => exists_congr fun after => ?_)
          refine and_congr_right fun _ => ?_
          rw [counted, List.length_cons, List.cons_append, Prompt]
          have count : s'.retrycount = s.retrycount + 1 := rfl
          have sending : s'.lastsending = t.now := rfl
          rw [count, sending, Nat.add_right_comm, Nat.add_assoc]
          exact and_congr_right fun _ => ⟨fun onward => ⟨prompt, onward⟩, And.right⟩
    · rw [rounds_missed active.2 spaced prompt]
      exact iff_of_false nofun fun leaves => prompt (leaves.prompt spaced)

/-- A finished session goes in the first round or in none. -/
theorem rounds_finished {s : Session} {t : Tick} {rest : List Tick}
    (spaced : Spaced s.lastsending (t :: rest)) (fin : s.fin = true) (enabled : s.disabled = false) :
    s.rounds (t :: rest) = none ↔ t.now - s.lastsending < 2 ^ 31 := by
  by_cases prompt : t.now - s.lastsending < 2 ^ 31
  · refine iff_of_true (rounds_of_gone rest ?_) prompt
    rw [round_finished t fin enabled, if_pos ((difftime_late _ _ (by decide)).mpr ⟨spaced.1, prompt⟩)]
  · rw [rounds_missed enabled spaced prompt]
    exact iff_of_false nofun prompt

/-- Ticks without datagrams are rounds of every session. -/
theorem ticks_rounds {st : Server} (inv : WellFormed host.toVolume st) (ticks : List Tick) :
    (Runs.exec (step host) st (ticks.map .tick)).seshead =
      st.seshead.filterMap fun s => s.rounds ticks := by
  induction ticks generalizing st with
  | nil => exact List.filterMap_some.symm
  | cons t rest inductionHypothesis =>
    have first : (step host st (.tick t)).seshead = _ := endIteration_rounds t inv
    have next := inductionHypothesis (inv.step (e := .tick t) trivial)
    rw [first, List.filterMap_filterMap] at next
    exact next

/-- What a session needs to be gone after rounds that begin with the given tick: the time of a
finished one can still be computed, and an active one leaves for the lack of retries. -/
def Session.Drainable (s : Session) (t : Tick) (rest : List Tick) : Prop :=
  s.disabled = false →
    if s.fin then t.now - s.lastsending < 2 ^ 31 else s.Leaves (t :: rest)

/-- Four rounds leave no session if and only if no finished one is so old that the code cannot
compute the time, and every active one has its retries used up by ticks that find a name for its
socket, promptly, before the last of the four.
Proof: ticks without datagrams are rounds of every session by itself. A disabled session goes in
the first of them; for the others, by the induction over the ticks of `rounds_active`. -/
theorem drained_iff {st : Server} {t₁ t₂ t₃ t₄ : Tick} (reachable : Reachable host st)
    (spaced : ∀ s ∈ st.seshead, Spaced s.lastsending [t₁, t₂, t₃, t₄]) :
    (Runs.exec (step host) st [.tick t₁, .tick t₂, .tick t₃, .tick t₄]).seshead = [] ↔
      ∀ s ∈ st.seshead, s.Drainable t₁ [t₂, t₃, t₄] := by
  have rounds : (Runs.exec (step host) st [.tick t₁, .tick t₂, .tick t₃, .tick t₄]).seshead = _ :=
    ticks_rounds reachable.wellFormed [t₁, t₂, t₃, t₄]
  rw [rounds, List.filterMap_eq_nil_iff]
  apply forall₂_congr
  intro s member
  have each := spaced s member
  rw [Session.Drainable]
  cases disabled : s.disabled with
  | true => exact iff_of_true (rounds_of_gone _ (round_disabled t₁ disabled)) nofun
  | false =>
    rw [imp_iff_right rfl]
    cases fin : s.fin with
    | true => exact rounds_finished each fin disabled
    | false => exact rounds_active each ⟨fin, disabled⟩

/-! ## Lists that stay -/

/-- The server after a client's request for which no socket could be made. -/
def refusedOpen : Server :=
  step smallHost (startOn fun _ => .absent)
    (.datagram { uploadRequest [1] 5 with newsock := none })

theorem refusedOpen_reachable : Reachable smallHost refusedOpen := by
  have quiet : (Event.datagram { uploadRequest [1] 5 with newsock := none }).Quiet := rfl
  exact (startOn_reachable smallHost _).step (quiet.admissible _)

/-- The server after a client's request to upload. -/
theorem uploadOpen_reachable : Reachable smallHost uploadOpen :=
  (startOn_reachable smallHost _).step (admissible_first rfl rfl (by decide))

instance (last : Int) (ticks : List Tick) : Decidable (Spaced last ticks) := by
  induction ticks generalizing last with
  | nil => exact isTrue trivial
  | cons t rest inductionHypothesis => exact instDecidableAnd

/-- A session that has just begun is gone after its three retries. -/
theorem drained_sample :
    (Runs.exec (step smallHost) uploadOpen [.tick (tickAt 16), .tick (tickAt 32),
      .tick (tickAt 48), .tick (tickAt 64)]).seshead = [] := by
  refine (drained_iff uploadOpen_reachable (by decide +kernel)).mpr fun s member enabled => ?_
  have facts : ∀ s ∈ uploadOpen.seshead, s.fin = false ∧ s.lastsending = 0 ∧ s.clsock = 5 := by
    decide +kernel
  obtain ⟨fin, sending, socket⟩ := facts s member
  rw [fin]
  have named : s.named [tickAt 16, tickAt 32, tickAt 48] = [tickAt 16, tickAt 32, tickAt 48] := by
    simp [Session.named, Tick.getsockname, tickAt, socket]
  refine ⟨[tickAt 16, tickAt 32, tickAt 48], tickAt 64, [], rfl, ?_, ?_⟩
  · rw [named]
    exact Nat.le_add_left 3 s.retrycount
  · rw [named, sending]
    simp [Prompt, tickAt]

/-- The session without a socket outlives the four rounds. -/
theorem sessions_not_drained :
    ∃ st, Reachable smallHost st ∧
      (∀ s ∈ st.seshead, Spaced s.lastsending [tickAt 16, tickAt 32, tickAt 48, tickAt 64]) ∧
      (Runs.exec (step smallHost) st [.tick (tickAt 16), .tick (tickAt 32),
        .tick (tickAt 48), .tick (tickAt 64)]).seshead ≠ [] :=
  ⟨refusedOpen, refusedOpen_reachable, by decide +kernel, by decide +kernel⟩

end Iwtftpd
