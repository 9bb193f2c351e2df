import Iwtftpd.ProcSteps
import Iwtftpd.Service

/-!
# Laws of the service loop

The invariant that every reachable state satisfies, whatever fails: clients are
unique in the session list, sockets are held by one session, buffers keep their
bounds and the datastore is consistent. Then the frame: what a step for one
client leaves alone, and what a tick does to each session.
-/

namespace Iwtftpd

variable {host : Host}

/-- What holds of every state of the service: the streams of the datastore are consistent, a
client has one session at most, a socket belongs to one session, and the buffers have their sizes.
-/
structure WellFormed (vol : Volume) (st : Server) : Prop where
  ads : Consistent vol st.ads
  clients : (st.seshead.map Session.key).Nodup
  sockets : ∀ s ∈ st.seshead, ∀ t ∈ st.seshead, s.clsock = t.clsock → 0 ≤ s.clsock → s = t
  buffers : ∀ s ∈ st.seshead, s.sesbuf.Fits
  rbuf : st.rbuf.length = nwbufSize

/-! ## One datagram -/

/-- The bytes of a datagram that `recvfrom` delivers. -/
def Datagram.delivered (d : Datagram) : Bytes := d.bytes.take nwbufSize

/-- `recvfrom` delivers as many bytes as it says. -/
theorem Datagram.delivered_length (d : Datagram) : d.delivered.length = d.len := by
  simp [Datagram.delivered, Datagram.len, Nat.min_comm]

/-- Behind a datagram the buffer has what earlier ones left there. -/
theorem receive_rbuf_eq (st : Server) (d : Datagram) :
    (st.receive d).rbuf = d.delivered ++ st.rbuf.drop d.bytes.length := rfl


/-- A session that is found is in the list. -/
theorem session_mem {head : List Session} {c : Client} {s : Session}
    (found : getSession head c = some s) : s ∈ head := (Keyed.lookup_some Session.key found).2

/-- A session that is found is that of the client it was looked for. -/
theorem session_key {head : List Session} {c : Client} {s : Session}
    (found : getSession head c = some s) : s.key = c := (Keyed.lookup_some Session.key found).1

/-- A datagram whose sender cannot be printed changes the receive buffer, and nothing else. -/
theorem recv_ignored {st : Server} {d : Datagram} (unnamed : host.client d.src = none) :
    recv host st d = (st.receive d, []) := by
  simp only [recv, unnamed]

/-- Any other datagram is given to `tftp_proc`: the list is edited, and what it filled in, or what
an earlier call left there, is the reply. -/
theorem recv_eq {st : Server} {d : Datagram} {c : Client} (named : host.client d.src = some c) :
    recv host st d =
      ({ st.receive d with
          seshead := (st.proc host d c).edit.apply st.seshead
          ads := (st.proc host d c).ds
          msg := (st.proc host d c).fill.getD st.msg },
        replyOf (st.proc host d c) d ((st.proc host d c).fill.getD st.msg)) := by
  simp only [recv, named]

/-- The call for a client that has a session. -/
theorem proc_handled (host : Host) {st : Server} (d : Datagram) {c : Client} {s : Session}
    (found : getSession st.seshead c = some s) :
    Handled host.toVolume s (st.receive d).ads (st.proc host d c) := by
  have same : getSession (st.receive d).seshead c = some s := found
  simp only [Server.proc, same]
  exact tftpProc_handled s _ _ _ c d.now d.newsock

/-- For a client without a session, `tftp_proc` opens one or none. -/
theorem proc_fresh (host : Host) {st : Server} (d : Datagram) {c : Client}
    (absent : getSession st.seshead c = none) :
    Fresh host.toVolume c d.newsock (st.receive d).ads (st.proc host d c) := by
  have same : getSession (st.receive d).seshead c = none := absent
  simp only [Server.proc, same]
  exact tftpProc_fresh _ _ _ c d.now d.newsock

/-- In the list, a handled session is overwritten in place. -/
theorem handled_apply {vol : Volume} {head : List Session} {c : Client} {s : Session} {ds : IWDS}
    {p : Proc} (found : getSession head c = some s) (handled : Handled vol s ds p) :
    p.edit.apply head = Keyed.store Session.key (p.after s) head := by
  rcases handled.edit with keep | update
  · have same : p.after s = s := by simp only [Proc.after, keep]
    rw [keep, same]
    exact (Keyed.store_same Session.key (session_key found ▸ found)).symm
  · rw [update]
    rfl

/-- The session that a request opens is that of the client who asked. -/
theorem linked_key {vol : Volume} {c : Client} {newsock : Option Int} {ds : IWDS} {p : Proc}
    {req : TftpReq} {fd : Int} {s : Session} (linked : Linked vol c newsock ds p req fd s) :
    s.key = c := key_of_ident linked.ident

/-- The receive buffer keeps its size. -/
theorem receive_rbuf {st : Server} (d : Datagram) (full : st.rbuf.length = nwbufSize) :
    (st.receive d).rbuf.length = nwbufSize := by
  simp only [Server.receive, List.length_append, List.length_take, List.length_drop, full]
  omega

/-- Adding a session that is new in every respect. -/
private theorem wellFormed_insert {vol : Volume} {st st' : Server} {s : Session}
    (inv : WellFormed vol st) (absent : getSession st.seshead s.key = none)
    (socket : 0 ≤ s.clsock → ∀ t ∈ st.seshead, t.clsock ≠ s.clsock) (fits : s.sesbuf.Fits)
    (seshead : st'.seshead = s :: st.seshead) (ads : Consistent vol st'.ads)
    (rbuf : st'.rbuf.length = nwbufSize) : WellFormed vol st' := by
  refine ⟨ads, ?_, ?_, ?_, rbuf⟩ <;> rw [seshead]
  · rw [List.map_cons, List.nodup_cons]
    refine ⟨?_, inv.clients⟩
    intro repeated
    obtain ⟨t, member, same⟩ := List.mem_map.mp repeated
    exact (Keyed.lookup_none_iff Session.key).mp absent t member same
  · intro t tMember u uMember same held
    rcases List.mem_cons.mp tMember with rfl | tOld <;>
      rcases List.mem_cons.mp uMember with rfl | uOld
    · rfl
    · exact absurd same.symm (socket held u uOld)
    · exact absurd same (socket (same ▸ held) t tOld)
    · exact inv.sockets t tOld u uOld same held
  · intro t member
    rcases List.mem_cons.mp member with rfl | old
    · exact fits
    · exact inv.buffers t old

/-- A datagram keeps the invariant.

Proof: with a session, the edit replaces it by one under the same key and socket, and the
datastore was asked under its key. Without one, a session is linked whose client had none and
whose socket is new. -/
private theorem wellFormed_recv {st : Server} {d : Datagram} (inv : WellFormed host.toVolume st)
    (admissible : Admissible st (.datagram d)) :
    WellFormed host.toVolume (recv host st d).1 := by
  have rbuf := receive_rbuf d inv.rbuf
  have received : Consistent host.toVolume (st.receive d).ads := inv.ads.congr rfl rfl
  cases named : host.client d.src with
  | none =>
    rw [recv_ignored named]
    exact ⟨received, inv.clients, inv.sockets, inv.buffers, rbuf⟩
  | some c =>
    rw [recv_eq named]
    cases found : getSession st.seshead c with
    | some s =>
      have handled := proc_handled host d found
      have sMember := session_mem found
      dsimp only
      rw [handled_apply found handled]
      generalize st.proc host d c = p at handled
      have sameKey : (p.after s).key = s.key := key_of_ident handled.ident
      refine ⟨handled.chain.consistent received, ?_, ?_, ?_, rbuf⟩
      · simpa using inv.clients
      · intro t tMember u uMember same held
        have socket := clsock_of_ident handled.ident
        rcases Keyed.mem_store_ne Session.key inv.clients tMember with rfl | ⟨tOld, tApart⟩ <;>
          rcases Keyed.mem_store_ne Session.key inv.clients uMember with rfl | ⟨uOld, uApart⟩
        · rfl
        · rw [socket] at same held
          exact absurd (congrArg Session.key (inv.sockets s sMember u uOld same held)).symm
            (sameKey ▸ uApart)
        · rw [socket] at same
          exact absurd (congrArg Session.key (inv.sockets t tOld s sMember same held))
            (sameKey ▸ tApart)
        · exact inv.sockets t tOld u uOld same held
      · intro t member
        rcases Keyed.mem_of_mem_store Session.key member with rfl | old
        · exact handled.fits (inv.buffers s sMember)
        · exact inv.buffers t old
    | none =>
      cases proc_fresh host d found with
      | nothing edit _ same =>
        rw [edit, same]
        exact ⟨received, inv.clients, inv.sockets, inv.buffers, rbuf⟩
      | socketless req _ edit _ _ same =>
        have key : (newSession c req (-1)).key = c := rfl
        rw [edit, same]
        refine wellFormed_insert inv (key ▸ found) ?_ (newSession_fits c req (-1)) rfl received rbuf
        intro impossible
        have negative : (newSession c req (-1)).clsock = -1 := rfl
        rw [negative] at impossible
        omega
      | linked req fd s linked =>
        have key := linked_key linked
        have socket : s.clsock = fd := clsock_of_ident linked.ident
        rw [linked.edit]
        refine wellFormed_insert inv (key ▸ found) ?_ linked.fits rfl
          (linked.chain.consistent received) rbuf
        intro _ t member
        rw [socket]
        exact (admissible fd linked.socket).2 t member

/-! ## A tick -/

/-- A difference is over a wait as the code computes it if it is over the wait and an `int32_t`
can hold it. -/
theorem difftime_late {wait : Int} (now last : Int) (wide : 0 ≤ wait) :
    wait < difftime now last ↔ wait < now - last ∧ now - last < 2 ^ 31 := by
  rw [difftime]
  split <;> omega

/-- No time has passed at the moment itself. -/
theorem difftime_self (now : Int) : difftime now now = 0 := by
  rw [difftime, Int.sub_self]
  rfl

/-- The sessions whose retries are used up when the timer looks at them. -/
def Session.exhausted (now : Int) (s : Session) : Prop :=
  resendInterval < difftime now s.lastsending ∧ s.fin = false ∧ s.disabled = false ∧
    resendCountmax ≤ s.retrycount

/-- What the timer does to a session. -/
inductive Aged (now : Int) (s : Session) : Session → Prop where
  | same (kept : ¬ s.exhausted now) : Aged now s s
  | resent (due : resendInterval < difftime now s.lastsending) (fin : s.fin = false)
      (enabled : s.disabled = false) (retries : s.retrycount < resendCountmax) :
      Aged now s { s with retrycount := s.retrycount + 1, lastsending := now }
  | given (exhausted : s.exhausted now) : Aged now s { s with disabled := true }

/-- A session that has aged is the same transfer of the same client. The lemmas after this one say
what else the timer leaves as it is. -/
theorem Aged.ident {now : Int} {s s' : Session} (aged : Aged now s s') : s'.ident = s.ident := by
  cases aged <;> rfl

theorem Aged.sesbuf {now : Int} {s s' : Session} (aged : Aged now s s') :
    s'.sesbuf = s.sesbuf := by
  cases aged <;> rfl

theorem Aged.blknum {now : Int} {s s' : Session} (aged : Aged now s s') :
    s'.blknum = s.blknum := by
  cases aged <;> rfl

theorem Aged.lastmsg {now : Int} {s s' : Session} (aged : Aged now s s') :
    s'.lastmsg = s.lastmsg := by
  cases aged <;> rfl

theorem Aged.fin {now : Int} {s s' : Session} (aged : Aged now s s') : s'.fin = s.fin := by
  cases aged <;> rfl

theorem Aged.disabled {now : Int} {s s' : Session} (aged : Aged now s s')
    (was : s.disabled = true) : s'.disabled = true := by
  cases aged with
  | same _ => exact was
  | resent _ _ _ _ => exact was
  | given _ => rfl

/-- The loop of `resend_allsession` ages every session and closes the datastore
sessions of those that are given up; every message it sends is the last message
of a session neither finished nor disabled. -/
theorem resendAllsession_steps (t : Tick) (head : List Session) (ads : IWDS) (addr : Bytes)
    (addrlen : Nat) :
    List.Forall₂ (Aged t.now) head (resendAllsession t head ads addr addrlen).seshead ∧
      (resendAllsession t head ads addr addrlen).ads.disk = ads.disk ∧
      (resendAllsession t head ads addr addrlen).ads.dhead.Sublist ads.dhead ∧
      (∀ k, (∀ s ∈ head, s.exhausted t.now → s.dkey ≠ k) →
        (resendAllsession t head ads addr addrlen).ads.at k = ads.at k) ∧
      ((ads.dhead.map DSession.key).Nodup → ∀ s ∈ head, s.exhausted t.now →
        (resendAllsession t head ads addr addrlen).ads.at s.dkey = none) ∧
      (∀ m ∈ (resendAllsession t head ads addr addrlen).sent, ∃ s ∈ head,
        m.ses = some s.key ∧ m.msg = s.lastmsg ∧ m.sock = s.clsock ∧
        s.fin = false ∧ s.disabled = false) := by
  induction head generalizing ads addr addrlen with
  | nil =>
    refine ⟨.nil, rfl, .refl _, fun _ _ => rfl, ?_, ?_⟩
    · intro _ s impossible
      cases impossible
    · intro m impossible
      cases impossible
  | cons pm rest inductionHypothesis =>
    -- Four branches leave the datastore as it is and go on with the rest.
    have kept (ads : IWDS) (addr : Bytes) (addrlen : Nat) (pm' : Session)
        (aged : Aged t.now pm pm') (notGiven : ¬ pm.exhausted t.now) :
        List.Forall₂ (Aged t.now) (pm :: rest)
            ((resendAllsession t rest ads addr addrlen).cons pm').seshead ∧
          (resendAllsession t rest ads addr addrlen).ads.disk = ads.disk ∧
          (resendAllsession t rest ads addr addrlen).ads.dhead.Sublist ads.dhead ∧
          (∀ k, (∀ s ∈ pm :: rest, s.exhausted t.now → s.dkey ≠ k) →
            (resendAllsession t rest ads addr addrlen).ads.at k = ads.at k) ∧
          ((ads.dhead.map DSession.key).Nodup → ∀ s ∈ pm :: rest, s.exhausted t.now →
            (resendAllsession t rest ads addr addrlen).ads.at s.dkey = none) ∧
          (∀ m ∈ (resendAllsession t rest ads addr addrlen).sent, ∃ s ∈ pm :: rest,
            m.ses = some s.key ∧ m.msg = s.lastmsg ∧ m.sock = s.clsock ∧
            s.fin = false ∧ s.disabled = false) := by
      obtain ⟨pairs, disk, fewer, others, closed, sent⟩ := inductionHypothesis ads addr addrlen
      refine ⟨.cons aged pairs, disk, fewer, ?_, ?_, ?_⟩
      · exact fun k apart => others k fun s member => apart s (List.mem_cons_of_mem pm member)
      · intro distinct s member exhausted
        rcases List.mem_cons.mp member with rfl | inRest
        · exact absurd exhausted notGiven
        · exact closed distinct s inRest exhausted
      · intro m member
        obtain ⟨s, inRest, facts⟩ := sent m member
        exact ⟨s, List.mem_cons_of_mem pm inRest, facts⟩
    rw [resendAllsession]
    split
    · rename_i early
      exact kept ads addr addrlen pm (.same fun h => absurd h.1 (by omega))
        (fun h => absurd h.1 (by omega))
    · rename_i late
      have due : resendInterval < difftime t.now pm.lastsending := by omega
      split
      · rename_i ended
        have notGiven : ¬ pm.exhausted t.now := by
          rintro ⟨_, fin, enabled, _⟩
          rcases ended with isFin | isDisabled
          · simp [fin] at isFin
          · simp [enabled] at isDisabled
        exact kept ads addr addrlen pm (.same notGiven) notGiven
      · rename_i running
        have fin : pm.fin = false := by
          cases h : pm.fin
          · rfl
          · exact absurd (.inl h) running
        have enabled : pm.disabled = false := by
          cases h : pm.disabled
          · rfl
          · exact absurd (.inr h) running
        split
        · rename_i spent
          have exhausted : pm.exhausted t.now := ⟨due, fin, enabled, spent⟩
          obtain ⟨pairs, disk, fewer, others, closed, sent⟩ :=
            inductionHypothesis (closeData { pm with disabled := true } ads) addr addrlen
          have dhead := closeData_dhead { pm with disabled := true } ads
          refine ⟨.cons (.given exhausted) pairs, disk.trans (closeData_disk _ _), ?_, ?_, ?_, ?_⟩
          · apply fewer.trans
            rw [dhead]
            exact Keyed.remove_sublist DSession.key _ _
          · intro k apart
            have other : pm.dkey ≠ k := apart pm List.mem_cons_self exhausted
            refine (others k fun s member => apart s (List.mem_cons_of_mem pm member)).trans ?_
            rw [IWDS.at, dhead]
            exact Keyed.lookup_remove_other DSession.key ads.dhead other
          · intro distinct s member given
            rcases List.mem_cons.mp member with rfl | inRest
            · have gone : (closeData { s with disabled := true } ads).at s.dkey = none :=
                closeData_closed { s with disabled := true } distinct
              apply (Keyed.lookup_none_iff DSession.key).mpr
              intro d inside
              exact (Keyed.lookup_none_iff DSession.key).mp gone d (fewer.subset inside)
            · refine closed ?_ s inRest given
              rw [dhead]
              exact Keyed.remove_distinct DSession.key distinct
          · intro m member
            obtain ⟨s, inRest, facts⟩ := sent m member
            exact ⟨s, List.mem_cons_of_mem pm inRest, facts⟩
        · rename_i left
          have retries : pm.retrycount < resendCountmax := by omega
          have notGiven : ¬ pm.exhausted t.now := fun h => absurd h.2.2.2 left
          split
          · exact kept ads addr addrlen pm (.same notGiven) notGiven
          · rename_i name named
            obtain ⟨pairs, disk, fewer, others, closed, sent⟩ :=
              kept ads (name.take addrlen ++ addr.drop (min name.length addrlen)) name.length _
                (.resent due fin enabled retries) notGiven
            refine ⟨pairs, disk, fewer, others, closed, ?_⟩
            intro m member
            rcases List.mem_cons.mp member with rfl | later
            · exact ⟨pm, List.mem_cons_self, rfl, rfl, rfl, fin, enabled⟩
            · exact sent m later

/-- Under distinct clients, the clean-up removes the expired sessions and keeps the
order of the others. -/
theorem cleanupSession_eq {now : Int} {head : List Session}
    (distinct : (head.map Session.key).Nodup) :
    cleanupSession now head = head.filter (fun s => !s.expired now) := by
  -- The visited part is already filtered; the part ahead is as it was.
  have visited (before ahead : List Session) (distinct : ((before ++ ahead).map Session.key).Nodup) :
      ahead.foldl (fun rest pm => if pm.expired now then delSession rest pm.key else rest)
          (before.filter (fun s => !s.expired now) ++ ahead) =
        (before ++ ahead).filter (fun s => !s.expired now) := by
    induction ahead generalizing before with
    | nil => simp
    | cons pm rest inductionHypothesis =>
      have next := inductionHypothesis (before ++ [pm]) (by simpa using distinct)
      rw [List.append_assoc] at next
      rw [List.foldl_cons, ← List.singleton_append, ← next]
      congr 1
      by_cases expired : pm.expired now = true
      · have apart : ∀ s ∈ before.filter (fun s => !s.expired now), s.key ≠ pm.key := by
          intro s member same
          rw [List.map_append, List.map_cons] at distinct
          have sBefore : s.key ∈ before.map Session.key :=
            List.mem_map_of_mem (List.mem_filter.mp member).1
          exact (List.disjoint_of_nodup_append distinct) sBefore (same ▸ List.mem_cons_self)
        simp only [expired, if_true, delSession, List.singleton_append]
        rw [Keyed.remove_append Session.key apart]
        simp [expired]
      · simp [expired]
  exact visited [] head distinct

/-! ## The invariant -/

/-- Sessions that have aged, position by position, belong to the same clients. -/
theorem forall₂_keys {now : Int} {before after : List Session}
    (aged : List.Forall₂ (Aged now) before after) :
    after.map Session.key = before.map Session.key := by
  induction aged with
  | nil => rfl
  | cons one _ inductionHypothesis =>
    rw [List.map_cons, List.map_cons, inductionHypothesis, key_of_ident one.ident]

/-- A session of the list after the timer has aged from one before it. -/
theorem forall₂_mem {now : Int} {before after : List Session} {s' : Session}
    (aged : List.Forall₂ (Aged now) before after) (member : s' ∈ after) :
    ∃ s ∈ before, Aged now s s' := by
  induction aged with
  | nil => cases member
  | @cons s t before after one _ inductionHypothesis =>
    rcases List.mem_cons.mp member with rfl | inRest
    · exact ⟨s, List.mem_cons_self, one⟩
    · obtain ⟨r, old, facts⟩ := inductionHypothesis inRest
      exact ⟨r, List.mem_cons_of_mem s old, facts⟩

/-- A session of the list before the timer has become one after it. -/
theorem forall₂_mem_left {now : Int} {before after : List Session} {s : Session}
    (aged : List.Forall₂ (Aged now) before after) (member : s ∈ before) :
    ∃ s', Aged now s s' ∧ s' ∈ after := by
  induction aged with
  | nil => cases member
  | @cons r r' before after one _ inductionHypothesis =>
    rcases List.mem_cons.mp member with rfl | inRest
    · exact ⟨r', one, List.mem_cons_self⟩
    · obtain ⟨s', facts, later⟩ := inductionHypothesis inRest
      exact ⟨s', facts, List.mem_cons_of_mem r' later⟩

/-- The list after a tick: the aged sessions that have not expired. -/
theorem endIteration_seshead {vol : Volume} {st : Server} {t : Tick} (inv : WellFormed vol st) :
    ∃ aged, List.Forall₂ (Aged t.now) st.seshead aged ∧
      (endIteration st t).1.seshead = aged.filter (fun s => !s.expired t.now) := by
  obtain ⟨pairs, _⟩ := resendAllsession_steps t st.seshead
    { st.ads with faults := t.faults, trace := [] } t.addr sockaddrStorage
  exact ⟨_, pairs, cleanupSession_eq (forall₂_keys pairs ▸ inv.clients)⟩

/-- A tick keeps the invariant.

Proof: the timer ages every session, which touches none of what the invariant is about, and closes
streams; the sweep leaves a sublist. -/
private theorem wellFormed_tick {vol : Volume} {st : Server} {t : Tick} (inv : WellFormed vol st) :
    WellFormed vol (endIteration st t).1 := by
  obtain ⟨pairs, disk, fewer, _⟩ := resendAllsession_steps t st.seshead
    { st.ads with faults := t.faults, trace := [] } t.addr sockaddrStorage
  have keys := forall₂_keys pairs
  have distinct := keys ▸ inv.clients
  have list : (endIteration st t).1.seshead = _ := cleanupSession_eq distinct
  have aged {s' : Session} (member : s' ∈ (endIteration st t).1.seshead) :
      s' ∈ (resendAllsession t st.seshead { st.ads with faults := t.faults, trace := [] }
        t.addr sockaddrStorage).seshead := by
    rw [list] at member
    exact (List.mem_filter.mp member).1
  refine ⟨inv.ads.sublist fewer disk, ?_, ?_, ?_, inv.rbuf⟩
  · rw [list]
    exact distinct.sublist (List.filter_sublist.map Session.key)
  · intro s' sMember u' uMember same held
    obtain ⟨s, sOld, sAged⟩ := forall₂_mem pairs (aged sMember)
    obtain ⟨u, uOld, uAged⟩ := forall₂_mem pairs (aged uMember)
    have socket : s.clsock = u.clsock := by
      rw [← clsock_of_ident sAged.ident, ← clsock_of_ident uAged.ident, same]
    have equal := inv.sockets s sOld u uOld socket (clsock_of_ident sAged.ident ▸ held)
    have sameKey : s'.key = u'.key := by
      rw [key_of_ident sAged.ident, key_of_ident uAged.ident, equal]
    exact List.inj_on_of_nodup_map distinct (aged sMember) (aged uMember) sameKey
  · intro s' member
    obtain ⟨s, old, one⟩ := forall₂_mem pairs (aged member)
    rw [one.sesbuf]
    exact inv.buffers s old

/-- Every admissible step preserves the invariant. -/
theorem WellFormed.step {st : Server} {e : Event} (inv : WellFormed host.toVolume st)
    (admissible : Admissible st e) : WellFormed host.toVolume (step host st e) := by
  cases e with
  | datagram d => exact wellFormed_recv inv admissible
  | tick t => exact wellFormed_tick inv

/-- An initial state has no session and no stream. -/
theorem Initial.wellFormed {st : Server} (initial : Initial st) :
    WellFormed host.toVolume st := by
  obtain ⟨seshead, dhead, rbuf⟩ := initial
  refine ⟨consistent_nil dhead, ?_, ?_, ?_, rbuf⟩ <;> simp [seshead]

/-- Every reachable state satisfies the invariant. -/
theorem Reachable.wellFormed {st : Server} (reachable : Reachable host st) :
    WellFormed host.toVolume st := by
  obtain ⟨start, initial, run⟩ := reachable
  exact run.invariant (fun _ _ inv may => inv.step may) initial.wellFormed

/-- A step from a reachable state leads to one. -/
theorem Reachable.step {st : Server} {e : Event} (reachable : Reachable host st)
    (admissible : Admissible st e) : Reachable host (step host st e) := by
  obtain ⟨start, initial, run⟩ := reachable
  exact ⟨start, initial, run.snoc admissible⟩

/-- An event that makes no socket. -/
def Event.Quiet : Event → Prop
  | .datagram d => d.newsock = none
  | .tick _ => True

/-- An event that brings no new socket can always come. -/
theorem Event.Quiet.admissible {e : Event} (quiet : e.Quiet) (st : Server) : Admissible st e := by
  cases e with
  | datagram d =>
    intro fd some
    have none : d.newsock = none := quiet
    rw [none] at some
    cases some
  | tick t => trivial

/-- Events that make no socket may occur in any order. -/
theorem Reachable.exec {st : Server} (reachable : Reachable host st) (events : List Event)
    (quiet : ∀ e ∈ events, e.Quiet) :
    Reachable host (Runs.exec (Iwtftpd.step host) st events) := by
  induction events generalizing st with
  | nil => exact reachable
  | cons e rest inductionHypothesis =>
    have next := reachable.step ((quiet e List.mem_cons_self).admissible st)
    exact inductionHypothesis next fun e' member => quiet e' (List.mem_cons_of_mem e member)

/-- A new socket is admissible while there is no session. -/
theorem admissible_first {st : Server} {d : Datagram} {fd : Int} (empty : st.seshead = [])
    (newsock : d.newsock = some fd) (valid : 0 ≤ fd) : Admissible st (.datagram d) := by
  intro fd' same
  rw [newsock] at same
  cases same
  refine ⟨valid, ?_⟩
  rw [empty]
  intro s impossible
  cases impossible

end Iwtftpd
