import Iwtftpd.SessionList

/-!
# The clean-up loop

`cleanup_session` deletes the session it stands on and then asks it for the next
one. What the loop should do is right in every respect but that: under distinct
keys it visits every session once, keeps what it should in order and closes what
it should once, as long as memory that was freed still reads as it did. The link
it follows after a deletion is one of a node that is gone, so the loop is right
altogether exactly where it has nothing to delete.
-/

namespace Iwtftpd

open DoublyLinked (Mem Represents)

variable {m : Links} {nodes : List (Addr × Session)}

/-- The sessions that should be cleaned up: the disabled ones and those finished for longer than
the close wait, however long that is. -/
def Session.outstays (now : Int) (s : Session) : Bool :=
  s.disabled || (s.fin && decide (sessionClosewait < now - s.lastsending))

/-- What the code removes has outstayed its time. The converse fails where the code cannot compute
for how long a session has been finished. -/
theorem outstays_of_expired {now : Int} {s : Session} (expired : s.expired now = true) :
    s.outstays now = true := by
  rw [Session.expired, Bool.or_eq_true, Bool.and_eq_true, decide_eq_true_iff] at expired
  rw [Session.outstays, Bool.or_eq_true, Bool.and_eq_true, decide_eq_true_iff]
  refine expired.imp_right fun ⟨fin, late⟩ => ⟨fin, ?_⟩
  exact ((difftime_late now s.lastsending (by decide)).mp late).1

/-- What the clean-up of a list should do. -/
structure Links.Swept (now : Int) (nodes : List (Addr × Session)) (r : Sweep) : Prop where
  once : r.visited.Perm (nodes.map Prod.fst)
  live : r.stale = []
  kept : Represents r.links (nodes.filter fun x => !x.2.outstays now)
  closed : r.closed.Perm ((nodes.filter fun x => x.2.outstays now).map fun x => x.2.clsock)

/-- The clean-up is right for every list and at all times. -/
def Links.SweepsRight : Prop :=
  ∀ (m : Links) (nodes : List (Addr × Session)) (now : Int), Represents m nodes →
    Swept now nodes (cleanupSession now m)

/-- Sessions that stay are passed. -/
theorem Links.cleanupFrom_passes (now : Int) {xs ys : List (Addr × Session)} (fuel : Nat)
    (staying : ∀ x ∈ ys, x.2.expired now = false) (zs : List (Addr × Session))
    (rep : Represents m (xs ++ ys ++ zs)) :
    let r := cleanupFrom now fuel m (DoublyLinked.front zs none)
    cleanupFrom now (ys.length + fuel) m (DoublyLinked.front (ys ++ zs) none) =
      { r with visited := ys.map Prod.fst ++ r.visited } := by
  induction ys generalizing xs with
  | nil => simp
  | cons y rest inductionHypothesis =>
    obtain ⟨a, s⟩ := y
    have split : xs ++ (a, s) :: rest ++ zs = xs ++ (a, s) :: (rest ++ zs) := by simp
    have onward : xs ++ (a, s) :: rest ++ zs = xs ++ [(a, s)] ++ rest ++ zs := by simp
    obtain ⟨-, live, node, -⟩ := (split ▸ rep).middle
    have value : m.val a = some s := by simp [Mem.val, node]
    have next : m.next a = DoublyLinked.front (rest ++ zs) none := by simp [Mem.next, node]
    have later := inductionHypothesis (fun x member => staying x (List.mem_cons_of_mem _ member))
      (onward ▸ rep)
    have here : s.expired now = false := staying (a, s) List.mem_cons_self
    have fuelled : ((a, s) :: rest).length + fuel = (rest.length + fuel) + 1 := by
      simp only [List.length_cons]
      omega
    have first : DoublyLinked.front ((a, s) :: rest ++ zs) none = some a := rfl
    rw [fuelled, first]
    simp only [cleanupFrom, value, here, Bool.false_eq_true, if_false, live, if_true, List.nil_append, next]
    dsimp only at later
    rw [later]
    rfl

/-- The loop frees and never allocates. -/
theorem Links.cleanupFrom_live (now : Int) (fuel : Nat) (m : Links) (pm : Option Addr) :
    ∀ a ∈ (cleanupFrom now fuel m pm).links.live, a ∈ m.live := by
  induction fuel generalizing m pm with
  | zero => exact fun _ => id
  | succ fuel inductionHypothesis =>
    have fewer (client : Client) : ∀ a ∈ (delSession m client).1.live, a ∈ m.live := by
      unfold delSession
      cases getSession m client with
      | none => exact fun _ => id
      | some tmp =>
        intro a member
        exact bridge_live m tmp ▸ (List.mem_filter.mp member).1
    intro a member
    cases pm with
    | none => exact member
    | some b =>
      unfold cleanupFrom at member
      split at member
      · exact member
      · have later := inductionHypothesis _ _ a member
        split at later
        · exact fewer _ a later
        · exact later

/-- A deletion changes links only. -/
theorem Links.delSession_val (m : Links) (client : Client) (a : Addr) :
    (delSession m client).1.val a = m.val a := by
  unfold delSession
  cases getSession m client with
  | none => rfl
  | some tmp =>
    have same := DoublyLinked.unlink_val m tmp a
    rw [← bridge_eq] at same
    exact same

/-- A pass closes a socket only where the session it visits has expired. -/
theorem Links.cleanupFrom_closed (now : Int) (fuel : Nat) (m : Links) (pm : Option Addr) :
    (cleanupFrom now fuel m pm).closed.length ≤
      (cleanupFrom now fuel m pm).visited.countP fun a => (m.val a).any (Session.expired now) := by
  have single (m : Links) (client : Client) : (delSession m client).2.length ≤ 1 := by
    unfold delSession
    cases getSession m client with
    | none => exact Nat.zero_le 1
    | some tmp => cases m.val tmp <;> simp
  induction fuel generalizing m pm with
  | zero => exact Nat.zero_le _
  | succ fuel inductionHypothesis =>
    cases pm with
    | none => exact Nat.zero_le _
    | some a =>
      rw [cleanupFrom]
      cases value : m.val a with
      | none => exact Nat.zero_le _
      | some s =>
        dsimp only
        by_cases expired : s.expired now = true
        · have later := inductionHypothesis (delSession m s.key).1 ((delSession m s.key).1.next a)
          simp only [delSession_val] at later
          rw [if_pos expired, List.length_append, List.countP_cons_of_pos (by simp [value, expired])]
          have one := single m s.key
          omega
        · rw [if_neg expired, List.nil_append, List.countP_cons_of_neg (by simp [value, expired])]
          exact inductionHypothesis m (m.next a)

/-- Where the clean-up is right, every session that outstays its time has expired: no socket is
closed but for a session that has. -/
theorem Links.Swept.expired {now : Int} (rep : Represents m nodes)
    (swept : Swept now nodes (cleanupSession now m)) :
    ∀ x ∈ nodes, x.2.outstays now = true → x.2.expired now = true := by
  have count : nodes.countP (fun x => (m.val x.1).any (Session.expired now)) =
      (nodes.filter fun x => x.2.expired now).length := by
    rw [← List.countP_eq_length_filter]
    refine List.countP_congr fun x member => ?_
    rw [(rep.seg.node member).2, Option.any_some]
  have closed := cleanupFrom_closed now m.live.length m m.head
  rw [← cleanupSession, swept.once.countP_eq, swept.closed.length_eq, List.length_map,
    List.countP_map] at closed
  have fewer : (nodes.filter fun x => x.2.expired now).Sublist (nodes.filter fun x => x.2.outstays now) :=
    List.monotone_filter_right nodes fun x => outstays_of_expired
  have same := fewer.eq_of_length_le (closed.trans (Nat.le_of_eq count))
  intro x member late
  have inside : x ∈ nodes.filter fun x => x.2.outstays now := List.mem_filter.mpr ⟨member, late⟩
  rw [← same] at inside
  exact (List.mem_filter.mp inside).2

/-- The loop under distinct keys. What is behind it is cleaned up, what is ahead is as it was. -/
theorem Links.cleanupFrom_represents (now : Int) {fuel : Nat} (done : List (Addr × Session))
    (rep : Represents m (done ++ nodes)) (enough : nodes.length ≤ fuel)
    (distinct : ((sessions (done ++ nodes)).map Session.key).Nodup) :
    let r := cleanupFrom now fuel m (DoublyLinked.front nodes none)
    Represents r.links (done ++ nodes.filter fun x => !x.2.expired now) ∧
      r.visited = nodes.map Prod.fst ∧
      r.stale = (nodes.filter fun x => x.2.expired now).map Prod.fst ∧
      r.closed = (nodes.filter fun x => x.2.expired now).map fun x => x.2.clsock := by
  induction nodes generalizing m done fuel with
  | nil => cases fuel <;> exact ⟨rep, rfl, rfl, rfl⟩
  | cons x rest inductionHypothesis =>
    obtain ⟨a, pm⟩ := x
    cases fuel with
    | zero => cases enough
    | succ fuel =>
      have enough := Nat.le_of_succ_le_succ enough
      obtain ⟨-, live, node, -⟩ := rep.middle
      have value : m.val a = some pm := by simp [Mem.val, node]
      have next : m.next a = DoublyLinked.front rest none := by simp [Mem.next, node]
      have here : DoublyLinked.front ((a, pm) :: rest) none = some a := rfl
      rw [here]
      by_cases expired : pm.expired now = true
      · have found : getSession m pm.key = some a := by
          obtain ⟨-, absent⟩ | ⟨xs, b, s, ys, split, before, same, found, -⟩ := getSession_cases rep pm.key
          · exact absurd rfl ((Keyed.lookup_none_iff Session.key).mp absent pm (by simp [sessions]))
          · have first : (b, s) ∈ done ++ (a, pm) :: rest := split ▸ by simp
            have own : (a, pm) ∈ done ++ (a, pm) :: rest := by simp
            have keys : ((done ++ (a, pm) :: rest).map fun x => x.2.key).Nodup := by
              simpa [sessions, Function.comp_def] using distinct
            obtain ⟨rfl, -⟩ := Prod.mk.inj (List.inj_on_of_nodup_map keys first own same)
            exact found
        obtain ⟨left, freed, kept, closed⟩ := delSession_first rep found
        have gone : a ∉ (delSession m pm.key).1.live := by simp [freed]
        have link : (delSession m pm.key).1.next a = DoublyLinked.front rest none := by
          rw [← next, Mem.next, kept]
          rfl
        have fewer : ((sessions (done ++ rest)).map Session.key).Nodup := by
          refine distinct.sublist ?_
          simp [sessions]
        obtain ⟨represents, visited, stale, sockets⟩ := inductionHypothesis done left enough fewer
        simp only [cleanupFrom, value, expired, if_true, gone, if_false, link, closed]
        have out : ((a, pm) :: rest).filter (fun x => !x.2.expired now) =
            rest.filter (fun x => !x.2.expired now) := List.filter_cons_of_neg (by simp [expired])
        have inside : ((a, pm) :: rest).filter (fun x => x.2.expired now) =
            (a, pm) :: rest.filter (fun x => x.2.expired now) := List.filter_cons_of_pos expired
        rw [out, inside]
        exact ⟨represents, congrArg _ visited, congrArg _ stale, congrArg (pm.clsock :: ·) sockets⟩
      · rw [Bool.not_eq_true] at expired
        have split : done ++ (a, pm) :: rest = (done ++ [(a, pm)]) ++ rest := by simp
        obtain ⟨represents, visited, stale, sockets⟩ := inductionHypothesis (done ++ [(a, pm)])
          (split ▸ rep) enough (split ▸ distinct)
        simp only [cleanupFrom, value, expired, Bool.false_eq_true, if_false, live, if_true, next]
        have stays : ((a, pm) :: rest).filter (fun x => !x.2.expired now) =
            (a, pm) :: rest.filter (fun x => !x.2.expired now) :=
          List.filter_cons_of_pos (by simp [expired])
        have outside : ((a, pm) :: rest).filter (fun x => x.2.expired now) =
            rest.filter (fun x => x.2.expired now) := List.filter_cons_of_neg (by simp [expired])
        rw [stays, outside]
        exact ⟨by simpa using represents, congrArg _ visited, stale, sockets⟩

/-- A session that expired spoils the clean-up: either its own link is read when it is gone, or an
earlier session of the same client was deleted in its place. -/
theorem Links.not_swept_of_expired {now : Int} {xs ys : List (Addr × Session)} {a : Addr} {pm : Session}
    (rep : Represents m (xs ++ (a, pm) :: ys)) (staying : ∀ x ∈ xs, x.2.expired now = false)
    (expired : pm.expired now = true) : ¬ Swept now (xs ++ (a, pm) :: ys) (cleanupSession now m) := by
  intro swept
  have due := swept.expired rep
  obtain ⟨-, live, kept, -⟩ := swept
  have length := rep.length_le
  rw [List.length_append, List.length_cons] at length
  obtain ⟨fuel, enough⟩ : ∃ fuel, m.live.length = xs.length + (fuel + 1) :=
    ⟨m.live.length - xs.length - 1, by omega⟩
  have value : m.val a = some pm := (rep.seg.node (by simp)).2
  have whole : Represents m ([] ++ xs ++ (a, pm) :: ys) := rep
  have passes := cleanupFrom_passes now (fuel + 1) staying ((a, pm) :: ys) whole
  have here : DoublyLinked.front ((a, pm) :: ys) none = some a := rfl
  dsimp only at passes
  rw [cleanupSession, enough, rep.head, passes, here] at live kept
  simp only [cleanupFrom, value, expired, if_true] at live kept
  obtain ⟨-, absent⟩ | ⟨before, b, s, after, split, others, same, found, -⟩ := getSession_cases rep pm.key
  · exact absurd rfl ((Keyed.lookup_none_iff Session.key).mp absent pm (by simp [sessions]))
  · have freed := (delSession_first (split ▸ rep) (same ▸ found)).live
    rw [same] at freed
    by_cases own : b = a
    · have gone : a ∉ (delSession m pm.key).1.live := by simp [freed, own]
      rw [if_neg gone] at live
      cases live
    · have first : (b, s) ∈ xs := by
        obtain ⟨t, rfl, tail⟩ | ⟨t, rfl, tail⟩ := List.append_eq_append_iff.mp split.symm
        · cases t with
          | nil => exact absurd (Prod.mk.inj (List.cons.inj tail).1).1 own
          | cons c more =>
            obtain ⟨rfl, -⟩ := List.cons.inj tail
            simp
        · cases t with
          | nil => exact absurd (Prod.mk.inj (List.cons.inj tail).1).1.symm own
          | cons c more =>
            obtain ⟨rfl, -⟩ := List.cons.inj tail
            exact absurd same.symm (others pm (by simp [sessions]))
      have inside : (b, s) ∈ xs ++ (a, pm) :: ys := List.mem_append_left _ first
      have lasting : s.outstays now = false := by
        by_contra late
        rw [Bool.not_eq_false] at late
        have gone := due (b, s) inside late
        rw [staying (b, s) first] at gone
        cases gone
      have stays : (b, s) ∈ (xs ++ (a, pm) :: ys).filter fun x => !x.2.outstays now :=
        List.mem_filter.mpr ⟨inside, by simp [lasting]⟩
      have still := cleanupFrom_live now _ _ _ b (kept.live (List.mem_map_of_mem stays))
      simp [freed] at still

/-- The clean-up of a list is right exactly when there is nothing to clean up.
Proof: a session that outstays its time and has not expired keeps its socket, though it should be
closed. The first that has expired either has its link read when it is gone, or another session is
deleted in its place. Where no session outstays its time, the loop passes every session. -/
theorem Links.sweeps_right_iff {now : Int} (rep : Represents m nodes) :
    Swept now nodes (cleanupSession now m) ↔ ∀ x ∈ nodes, x.2.outstays now = false := by
  constructor
  · intro swept
    by_contra some
    simp only [not_forall, Bool.not_eq_false] at some
    obtain ⟨x, member, late⟩ := some
    have expired := swept.expired rep x member late
    -- The first session that expired.
    cases found : nodes.find? fun x => x.2.expired now with
    | none => exact absurd expired (by simpa using List.find?_eq_none.mp found x member)
    | some y =>
      obtain ⟨a, pm⟩ := y
      obtain ⟨gone, xs, ys, rfl, before⟩ := List.find?_eq_some_iff_append.mp found
      exact not_swept_of_expired rep (by simpa using before) gone swept
  · intro lasting
    have staying : ∀ x ∈ nodes, x.2.expired now = false := by
      intro x member
      by_contra expired
      rw [Bool.not_eq_false] at expired
      have late := outstays_of_expired expired
      rw [lasting x member] at late
      cases late
    obtain ⟨fuel, enough⟩ : ∃ fuel, m.live.length = nodes.length + fuel := Nat.exists_eq_add_of_le rep.length_le
    have whole : [] ++ nodes ++ [] = nodes := by simp
    have passes := cleanupFrom_passes now fuel staying [] (whole.symm ▸ rep)
    have ends : cleanupFrom now fuel m none = { links := m, visited := [], stale := [], closed := [] } := by
      cases fuel <;> rfl
    have kept : nodes.filter (fun x => !x.2.outstays now) = nodes :=
      List.filter_eq_self.mpr fun x member => by simp [lasting x member]
    have nothing : nodes.filter (fun x => x.2.outstays now) = [] :=
      List.filter_eq_nil_iff.mpr fun x member => by simp [lasting x member]
    have empty : DoublyLinked.front ([] : List (Addr × Session)) none = none := rfl
    dsimp only at passes
    rw [empty, ends, List.append_nil, List.append_nil] at passes
    have result : cleanupSession now m =
        { links := m, visited := nodes.map Prod.fst, stale := [], closed := [] } := by
      rw [cleanupSession, enough, rep.head, passes]
    rw [result]
    exact ⟨.refl _, rfl, kept.symm ▸ rep, nothing ▸ .nil⟩

/-- The memory of a service with one session. -/
def Links.alone (s : Session) : Links :=
  ((({ node := fun _ => none, live := [], head := none } : Links).push 1 blankSession).setVal 1 s)

theorem Links.alone_represents (s : Session) : Represents (alone s) [(1, s)] := by
  have empty : Represents ({ node := fun _ => none, live := [], head := none } : Links) [] :=
    ⟨rfl, trivial, List.nodup_nil⟩
  exact (empty.push blankSession List.not_mem_nil).setFirst s

/-- One session that goes on. -/
theorem Links.sweeps_right_sample :
    Swept 100 [(1, blankSession)] (cleanupSession 100 (alone blankSession)) := by
  refine (sweeps_right_iff (alone_represents blankSession)).mpr fun x member => ?_
  rw [List.mem_singleton.mp member]
  rfl

/-- After the client of the only session has sent ERROR, the link of the session is read when the
session is gone. -/
theorem Links.sweeps_not_right : ¬ SweepsRight := by
  intro right
  have swept := right (alone { blankSession with disabled := true }) _ 100 (alone_represents _)
  have stale := swept.live
  revert stale
  decide +kernel

end Iwtftpd
