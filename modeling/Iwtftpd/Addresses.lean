import Iwtftpd.Isolation
import Iwtftpd.Timer

/-!
# Where messages go

A reply goes to the address the datagram came from, which is that of the
session's client. The timer has no such address. It asks `getsockname` for the
one to send to, and that is the name of the server's own end.
-/

namespace Iwtftpd

variable {host : Host}

/-- Every transmission of the last message of a session, before or after the step, goes to the
address of its client. -/
def Addressed (host : Host) (st : Server) (e : Event) : Prop :=
  ∀ m ∈ outputs host st e, ∀ s, s ∈ st.seshead ∨ s ∈ (step host st e).seshead →
    m.ses = some s.key → m.msg = s.lastmsg → host.client m.dest = some s.key

/-- `getsockname` returns the local address that a socket is bound to: it fits a
`sockaddr_storage`, and it is not the address of the client at the other end. -/
def NamesLocal (host : Host) (st : Server) (e : Event) : Prop :=
  Admissible st e ∧ ∀ t, e = .tick t → ∀ s ∈ st.seshead, ∀ name,
    t.getsockname s.clsock = some name →
      name.length ≤ sockaddrStorage ∧ host.client name ≠ some s.key

/-- The timer finds no session whose last message it would send again. -/
def Untimed (st : Server) (e : Event) : Prop :=
  ∀ t, e = .tick t → ∀ s ∈ st.seshead, ¬ s.Due t

theorem replyOf_dest {p : Proc} {d : Datagram} {msg : Bytes} {m : Sent}
    (member : m ∈ replyOf p d msg) : m.dest = d.src := by
  rw [replyOf] at member
  split at member
  · cases member
  · split at member
    · split at member
      · cases member
      · rw [List.mem_singleton.mp member]
    · rw [List.mem_singleton.mp member]

/-- A reply for a session goes to its client. -/
theorem recv_addressed {st : Server} {d : Datagram} {m : Sent} {c : Client}
    (member : m ∈ (recv host st d).2) (ses : m.ses = some c) : host.client m.dest = some c := by
  cases named : host.client d.src with
  | none =>
    rw [recv_ignored named] at member
    cases member
  | some x =>
    have same : c = x := by
      by_contra other
      exact replyOf_other named other member ses
    rw [recv_eq named] at member
    rw [replyOf_dest member, named, same]

/-- At a step, messages are addressed to clients unless the timer finds a session due. -/
theorem addressed_iff_untimed {st : Server} {e : Event} (bound : NamesLocal host st e) :
    Addressed host st e ↔ Untimed st e := by
  cases e with
  | datagram d =>
    constructor
    · rintro _ t same
      cases same
    · intro _ m member s _ ses _
      exact recv_addressed member ses
  | tick t =>
    have names := bound.2 t rfl
    constructor
    · rintro addressed t' same s member due
      obtain rfl : t = t' := Event.tick.inj same
      obtain ⟨s', listed, name, named, sent⟩ := resendAllsession_first t
        { st.ads with faults := t.faults, trace := [] } t.addr ⟨s, member, due⟩
        fun s listed name named => (names s listed name named).1
      exact (names s' listed name named).2 (addressed _ sent s' (.inl listed) rfl rfl)
    · intro untimed m member
      have nobody : st.seshead.filter (fun s => s.Due t) = [] :=
        List.filter_eq_nil_iff.mpr fun s listed => by simpa using untimed t rfl s listed
      have sent := (resendAllsession_map t st.seshead { st.ads with faults := t.faults, trace := [] }
        t.addr sockaddrStorage).2
      rw [nobody, List.map_nil, List.map_eq_nil_iff] at sent
      have member : m ∈ (resendAllsession t st.seshead
        { st.ads with faults := t.faults, trace := [] } t.addr sockaddrStorage).sent := member
      rw [sent] at member
      cases member

/-- Along a run, the messages are addressed to clients if and only if no tick finds a session due.

Proof: a reply goes to the sender of the datagram, who is the client of the session. The timer
sends to the name of the session's socket, which is nobody's client, as soon as it finds a session
due; so the two sides agree step by step. -/
theorem run_addressed_iff {start : Server} {events : List Event}
    (bound : Runs.Admits (step host) (NamesLocal host) start events) :
    Runs.Admits (step host) (Addressed host) start events ↔
      Runs.Admits (step host) Untimed start events :=
  bound.agree fun _ _ _ may => addressed_iff_untimed may

/-! ## An upload that goes quiet -/

/-- A client asks to upload and says no more; the tick comes after the given time. -/
def quietUpload (now : Int) : List Event :=
  [.datagram (uploadRequest [1] 5), .tick (tickAt now)]

theorem quietUpload_bound (now : Int) :
    Runs.Admits (step smallHost) (NamesLocal smallHost) (startOn fun _ => .absent)
      (quietUpload now) := by
  refine ⟨⟨admissible_first rfl rfl (by decide), nofun⟩, ⟨trivial, ?_⟩, trivial⟩
  rintro t same s member name named
  obtain rfl : tickAt now = t := Event.tick.inj same
  have keys : ∀ s ∈ uploadOpen.seshead, smallHost.client [9] ≠ some s.key := by decide +kernel
  have socket : ∀ s ∈ uploadOpen.seshead, s.clsock = 5 := by decide +kernel
  rw [socket s member] at named
  obtain rfl : [9] = name := Option.some.inj named
  exact ⟨by decide, keys s member⟩

/-- After five seconds the timer leaves the session alone, and what was sent went to the client. -/
theorem run_addressed_sample :
    Runs.Admits (step smallHost) (Addressed smallHost) (startOn fun _ => .absent) (quietUpload 5) := by
  refine (run_addressed_iff (quietUpload_bound 5)).mpr ⟨nofun, ?_, trivial⟩
  rintro t ⟨⟩
  decide +kernel

/-- After eleven seconds the timer sends ACK 0 to the server's own address. -/
theorem timer_misaddresses :
    ∃ events, Runs.Admits (step smallHost) (NamesLocal smallHost) (startOn fun _ => .absent) events ∧
      ¬ Runs.Admits (step smallHost) (Addressed smallHost) (startOn fun _ => .absent) events := by
  refine ⟨quietUpload 11, quietUpload_bound 11, ?_⟩
  rintro ⟨_, addressed, _⟩
  have sent : outputs smallHost uploadOpen (.tick (tickAt 11)) =
      [{ sock := 5, dest := [9], msg := ackMsg 0, ses := some ([1], 2000) }] := by decide +kernel
  have kept : ∃ s ∈ uploadOpen.seshead, s.key = ([1], 2000) ∧ s.lastmsg = ackMsg 0 := by
    decide +kernel
  obtain ⟨s, member, key, lastmsg⟩ := kept
  have wrong := addressed _ (sent ▸ List.mem_singleton_self _) s (.inl member)
    (congrArg some key.symm) lastmsg.symm
  rw [key] at wrong
  exact absurd wrong (by decide)

end Iwtftpd
