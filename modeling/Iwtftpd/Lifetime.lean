import Iwtftpd.Accounts

/-!
# From `iwtftp_init` to `iwtftp_exit`

Whole runs of the event loop, and the calls around them. The assumptions are what
the kernel promises: a new descriptor is not open, `epoll_wait` returns
descriptors that are watched, and, for the variable that `create_socket` closes
without having assigned it, that it holds no descriptor that is open.
-/

namespace Iwtftpd

open Descriptors

variable {host : Host} {l : EventLoop} {base servers : Finset Int} {wild : List Int}

/-! ## Iterations -/

/-- What `epoll_wait` returns when descriptors are ready. -/
structure Readied (host : Host) (wild : List Int) (l : EventLoop) (arrivals : List Arrival) : Prop where
  some : arrivals ≠ []
  few : arrivals.length ≤ eventsMax
  once : (arrivals.map Arrival.sock).Nodup
  watched : ∀ a ∈ arrivals, a.sock ∈ l.kernel.watched
  permits : Permits host wild l arrivals

/-- What the kernel may answer during an iteration. -/
def Iteration.Permitted (host : Host) (wild : List Int) (l : EventLoop) (it : Iteration) : Prop :=
  match it.poll with
  | .ready arrivals => Readied host wild l arrivals
  | _ => True

/-- A run of the outer loop. -/
abbrev PermittedRun (host : Host) (wild : List Int) (l : EventLoop) (its : List Iteration) : Prop :=
  Runs.Admits (fun l it => (EventLoop.iterate host l it).1) (Iteration.Permitted host wild) l its

/-- What holds between two iterations. -/
structure Steady (host : Host) (base servers : Finset Int) (wild : List Int) (l : EventLoop) :
    Prop where
  sound : Balanced base servers wild l
  registered : Registered l
  service : WellFormed host.toVolume l.server

/-- The nodes of the loop have different clients, because the sessions of the service do. -/
theorem distinct_nodes (service : WellFormed host.toVolume l.server) :
    (l.nodes.map Node.key).Nodup := by
  have clients := service.clients
  rw [EventLoop.server, List.map_map] at clients
  exact clients

/-- An admitted list of events keeps the service well-formed. -/
theorem wellFormed_exec {st : Server} {events : List Event} (service : WellFormed host.toVolume st)
    (admitted : Runs.Admits (step host) Admissible st events) :
    WellFormed host.toVolume (Runs.exec (step host) st events) :=
  (Runs.reaches_exec admitted).invariant (fun _ _ inv may => inv.step may) service

/-- When sockets are ready, they are served in turn and then the epoll set is brought up to date.
-/
theorem handle_ready (room : Int → Bool) (l : EventLoop) (arrivals : List Arrival) :
    (l.handle host room (.ready arrivals)).1 = ((l.passes host arrivals).1).updated room := rfl

/-- The `switch` of the outer loop. -/
theorem Steady.handle (steady : Steady host base servers wild l) {it : Iteration}
    (permitted : it.Permitted host wild l) :
    Balanced base servers wild (l.handle host it.room it.poll).1 ∧
      Flagged (l.handle host it.room it.poll).1 ∧
      ((∀ fd, it.room fd = true) → Complete l → Complete (l.handle host it.room it.poll).1) ∧
      Runs.Admits (step host) Admissible l.server it.poll.events := by
  have idle : Balanced base servers wild l ∧ Flagged l ∧
      ((∀ fd, it.room fd = true) → Complete l → Complete l) ∧
      Runs.Admits (step host) Admissible l.server [] :=
    ⟨steady.sound, steady.registered.flagged, fun _ => id, trivial⟩
  rw [Iteration.Permitted] at permitted
  cases poll : it.poll with
  | interrupted => exact idle
  | failed => exact idle
  | timeout => exact idle
  | ready arrivals =>
    rw [poll] at permitted
    have readied : Readied host wild l arrivals := permitted
    have sound : Balanced base servers wild (l.passes host arrivals).1 :=
      passes_invariant readied.permits (fun _ _ passed => passed.sound) steady.sound
    rw [handle_ready]
    refine ⟨sound.updated it.room, updated_flagged it.room _, ?_, ?_⟩
    · intro roomy complete
      exact sound.updated_complete roomy
        (passes_invariant readied.permits (fun _ _ passed => passed.complete) complete)
    · exact steady.sound.passes_admits readied.permits

/-- An iteration keeps the loop steady, and complete if it was and `epoll_ctl` has room. -/
theorem Steady.iterate (steady : Steady host base servers wild l) {it : Iteration}
    (permitted : it.Permitted host wild l) :
    Steady host base servers wild (l.iterate host it).1 ∧
      ((∀ fd, it.room fd = true) → Complete l → Complete (l.iterate host it).1) ∧
      Runs.Admits (step host) Admissible l.server it.events := by
  obtain ⟨sound, flagged, complete, admitted⟩ := steady.handle permitted
  have handled : WellFormed host.toVolume (l.handle host it.room it.poll).1.server := by
    rw [(handle_follows host l it.room it.poll).server]
    exact wellFormed_exec steady.service admitted
  have distinct := distinct_nodes handled
  have admits : Runs.Admits (step host) Admissible l.server it.events :=
    admitted.append ⟨trivial, trivial⟩
  refine ⟨⟨sound.tick distinct it.tick, flagged.tick distinct it.tick, ?_⟩, ?_, admits⟩
  · rw [(iterate_follows host l it).server]
    exact wellFormed_exec steady.service admits
  · intro roomy before
    exact sound.tick_complete distinct it.tick (complete roomy before)

/-- Every run of the loop is a run of the service, and leaves the loop steady. -/
theorem Steady.iterations (steady : Steady host base servers wild l) {its : List Iteration}
    (permitted : PermittedRun host wild l its) :
    Steady host base servers wild (l.iterations host its).1 ∧
      ((∀ it ∈ its, ∀ fd, it.room fd = true) → Complete l → Complete (l.iterations host its).1) ∧
      Runs.Admits (step host) Admissible l.server (its.flatMap Iteration.events) := by
  induction its generalizing l with
  | nil => exact ⟨steady, fun _ => id, trivial⟩
  | cons it rest inductionHypothesis =>
    obtain ⟨here, following⟩ := permitted
    obtain ⟨next, complete, admitted⟩ := steady.iterate here
    obtain ⟨final, completes, later⟩ := inductionHypothesis next following
    rw [(iterate_follows host l it).server] at later
    refine ⟨final, ?_, ?_⟩
    · intro roomy before
      refine completes (fun it' member => roomy it' (List.mem_cons_of_mem it member)) ?_
      exact complete (roomy it List.mem_cons_self) before
    · rw [List.flatMap_cons]
      exact admitted.append later

/-! ## The start of `iwtftp_service` -/

/-- What `iwtftp_service` finds: the server sockets are open besides what was open before. -/
structure Prepared (base : Finset Int) (wild : List Int) (launch : Launch) (svsocks : List Int)
    (k : Kernel) : Prop where
  proper : ∀ fd ∈ base, 0 ≤ fd
  holding : Holding base wild svsocks k
  unwatched : k.watched = ∅
  epollfd : ∀ fd ∈ launch.epollfd, 0 ≤ fd ∧ k.Free fd
  rbuf : launch.rbuf.length = nwbufSize

/-- The server sockets that the kernel has room for. -/
def Launch.registers (launch : Launch) (svsocks : List Int) : Finset Int :=
  ((held svsocks).filter fun fd => launch.room fd).toFinset

/-- What is open besides the sockets of sessions. -/
def besides (base : Finset Int) (epollfd : Int) (svsocks : List Int) : Finset Int :=
  insert epollfd (base ∪ (held svsocks).toFinset)

/-- The loop before its first iteration. -/
def startLoop (launch : Launch) (svsocks : List Int) (ads : IWDS) (k : Kernel) (epollfd : Int) :
    EventLoop where
  nodes := []
  ads := ads
  msg := launch.msg
  rbuf := launch.rbuf
  kernel := (addServers launch.room svsocks (k.grant epollfd)).2

/-- Open sockets that are not watched yet are handed to the event poll as far as there is room. -/
theorem addServers_spec (room : Int → Bool) {svsocks : List Int} {k : Kernel}
    (once : (held svsocks).Nodup) (opened : ∀ fd ∈ held svsocks, fd ∈ k.opened)
    (unwatched : ∀ fd ∈ held svsocks, fd ∉ k.watched) :
    (addServers room svsocks k).1 = ((held svsocks).filter fun fd => room fd).length ∧
      (addServers room svsocks k).2.opened = k.opened ∧
      (addServers room svsocks k).2.stray = k.stray ∧
      (addServers room svsocks k).2.watched =
        k.watched ∪ ((held svsocks).filter fun fd => room fd).toFinset := by
  induction svsocks generalizing k with
  | nil => simp [addServers, held]
  | cons fd rest inductionHypothesis =>
    by_cases none : fd = -1
    · subst none
      rw [held_none] at once opened unwatched ⊢
      rw [addServers, if_pos rfl]
      exact inductionHypothesis once opened unwatched
    · have parts : held (fd :: rest) = fd :: held rest := by simp [held, none]
      rw [parts] at once opened unwatched ⊢
      obtain ⟨absent, once⟩ := List.nodup_cons.mp once
      have here : fd ∈ k.opened := opened fd List.mem_cons_self
      have free : fd ∉ k.watched := unwatched fd List.mem_cons_self
      cases roomy : room fd with
      | false =>
        have refused : k.watch false fd = (false, k) := by simp [Fds.watch]
        rw [addServers, if_neg none, roomy, refused, List.filter_cons_of_neg (by simp [roomy])]
        exact inductionHypothesis once (fun x member => opened x (List.mem_cons_of_mem fd member))
          (fun x member => unwatched x (List.mem_cons_of_mem fd member))
      | true =>
        obtain ⟨accepted, grown⟩ := watch_of_room here free
        obtain ⟨count, opens, strays, watches⟩ := inductionHypothesis (k := (k.watch true fd).2) once
          (by
            intro x member
            rw [watch_opened]
            exact opened x (List.mem_cons_of_mem fd member))
          (by
            intro x member
            rw [grown, Finset.mem_insert, not_or]
            exact ⟨fun same => absent (same ▸ member), unwatched x (List.mem_cons_of_mem fd member)⟩)
        rw [addServers, if_neg none, roomy, List.filter_cons_of_pos (by simp [roomy])]
        refine ⟨?_, ?_, ?_, ?_⟩
        · simp [accepted, count]
        · exact opens.trans (watch_opened k true fd)
        · exact strays.trans (watch_stray k true fd)
        · rw [watches, grown, List.toFinset_cons, Finset.union_insert, Finset.insert_union]

section Prepared

variable {launch : Launch} {svsocks : List Int} {ads : IWDS} {k : Kernel} {epollfd : Int}

/-- The epoll descriptor is new, so it is neither one of before nor a server socket. -/
theorem Prepared.unopened (prepared : Prepared base wild launch svsocks k)
    (poll : launch.epollfd = some epollfd) : epollfd ∉ base ∧ epollfd ∉ held svsocks := by
  have free : epollfd ∉ k.opened := (prepared.epollfd epollfd poll).2
  rw [prepared.holding.opened, Finset.mem_union, List.mem_toFinset, not_or] at free
  exact free

/-- The server sockets go to the event poll. -/
theorem Prepared.added (prepared : Prepared base wild launch svsocks k) (epollfd : Int) :
    ((addServers launch.room svsocks (k.grant epollfd)).1 = 0 ↔ launch.registers svsocks = ∅) ∧
      (addServers launch.room svsocks (k.grant epollfd)).2.opened = besides base epollfd svsocks ∧
      (addServers launch.room svsocks (k.grant epollfd)).2.stray = k.stray ∧
      (addServers launch.room svsocks (k.grant epollfd)).2.watched = launch.registers svsocks := by
  have unwatched : (k.grant epollfd).watched = ∅ := prepared.unwatched
  obtain ⟨count, opened, stray, watched⟩ := addServers_spec launch.room (k := k.grant epollfd)
    prepared.holding.once
    (by
      intro fd member
      rw [grant_opened, prepared.holding.opened, Finset.mem_insert, Finset.mem_union, List.mem_toFinset]
      exact .inr (.inr member))
    (by simp [prepared.unwatched])
  refine ⟨?_, ?_, stray, ?_⟩
  · rw [count, List.length_eq_zero_iff, Launch.registers, List.toFinset_eq_empty_iff]
  · rw [opened, grant_opened, prepared.holding.opened, besides]
  · rw [watched, unwatched, Finset.empty_union, Launch.registers]

/-- The loop starts steady. -/
theorem Prepared.steady (prepared : Prepared base wild launch svsocks k)
    (poll : launch.epollfd = some epollfd) (empty : ads.dhead = []) :
    Steady host (besides base epollfd svsocks) (launch.registers svsocks) wild
      (startLoop launch svsocks ads k epollfd) := by
  obtain ⟨_, opened, stray, watched⟩ := prepared.added epollfd
  have valid : ∀ fd ∈ besides base epollfd svsocks, 0 ≤ fd := by
    intro fd member
    rw [besides, Finset.mem_insert, Finset.mem_union, List.mem_toFinset, mem_held] at member
    rcases member with rfl | inBase | ⟨member, socket⟩
    · exact (prepared.epollfd fd poll).1
    · exact prepared.proper fd inBase
    · exact (prepared.holding.valid fd member).resolve_left socket
  constructor
  · constructor
    · intro none
      exact absurd (valid (-1) none) (by decide)
    · intro fd member
      rw [Launch.registers, List.mem_toFinset, List.mem_filter] at member
      rw [besides, Finset.mem_insert, Finset.mem_union, List.mem_toFinset]
      exact .inr (.inr member.1)
    · refine ⟨?_, List.nodup_nil, ?_, ?_, ?_⟩
      · intro fd member
        cases member
      · intro fd member
        cases member
      · exact opened.trans (Finset.union_empty _).symm
      · intro fd member
        exact prepared.holding.stray fd (stray ▸ member)
    · constructor
      · rw [startLoop, watched]
      · intro fd member
        rw [startLoop, watched] at member
        exact .inl member
  · intro n member
    cases member
  · exact Initial.wellFormed ⟨rfl, empty, prepared.rbuf⟩

/-- A loop without sessions is complete. -/
theorem startLoop_complete (launch : Launch) (svsocks : List Int) (ads : IWDS) (k : Kernel)
    (epollfd : Int) : Complete (startLoop launch svsocks ads k epollfd) := by
  intro fd member
  cases member

/-- The loop begins with no session and no stream, as the service does. -/
theorem startLoop_initial (prepared : Prepared base wild launch svsocks k) (empty : ads.dhead = [])
    (epollfd : Int) : Initial (startLoop launch svsocks ads k epollfd).server :=
  ⟨rfl, empty, prepared.rbuf⟩

/-- What is open and what is watched between two iterations: the descriptors besides those of
sessions, and one for every session that has a socket. -/
structure Accounted (rest servers : Finset Int) (l : EventLoop) : Prop where
  registered : ∀ n ∈ l.nodes, n.regevent = true ∧ n.ses.disabled = false
  once : (held l.socks).Nodup
  apart : ∀ fd ∈ held l.socks, fd ∉ rest
  opened : l.kernel.opened = rest ∪ (held l.socks).toFinset
  always : servers ⊆ l.kernel.watched
  only : l.kernel.watched ⊆ servers ∪ (held l.socks).toFinset

/-- In a steady loop the descriptors are accounted for. -/
theorem Steady.accounted (steady : Steady host base servers wild l) : Accounted base servers l := by
  have holding := steady.sound.holding
  refine ⟨steady.registered, holding.once, holding.apart, holding.opened, steady.sound.watching.always, ?_⟩
  intro fd member
  rw [Finset.mem_union, List.mem_toFinset]
  rcases steady.sound.watching.only fd member with server | flag
  · exact .inl server
  · obtain ⟨n, inside, slot⟩ := List.mem_map.mp flag
    have here : n.ses.clsock = fd := (Prod.mk.inj slot).2
    have opened : fd ∈ l.kernel.opened := l.kernel.within member
    have socket : fd ≠ -1 := by
      rintro rfl
      rw [holding.opened, Finset.mem_union, List.mem_toFinset, mem_held] at opened
      rcases opened with inBase | ⟨_, different⟩
      · exact steady.sound.proper inBase
      · exact different rfl
    exact .inr (mem_held.mpr ⟨here ▸ List.mem_map_of_mem inside, socket⟩)

/-- Where the event poll had room, it watches the socket of every session. -/
theorem Steady.watched_eq (steady : Steady host base servers wild l) (complete : Complete l) :
    l.kernel.watched = servers ∪ (held l.socks).toFinset := by
  have accounted := steady.accounted
  apply Finset.Subset.antisymm accounted.only
  apply Finset.union_subset accounted.always
  intro fd member
  obtain ⟨inside, socket⟩ := mem_held.mp (List.mem_toFinset.mp member)
  obtain ⟨n, listed, same⟩ := List.mem_map.mp inside
  apply complete fd _ socket
  exact List.mem_map.mpr ⟨n, listed, by rw [Node.slot, (steady.registered n listed).1, same]⟩

/-! ## Runs of the loop -/

/-- Every run of `iwtftp_service` is a run of the service from an initial state: what the service
asks of new sockets holds in it, and the messages are the same.

Proof: an iteration follows the service, pass by pass and then by a tick. That new sockets are new
to the service is what the account of the descriptors gives. -/
theorem iwtftpService_runs {its : List Iteration} (prepared : Prepared base wild launch svsocks k)
    (poll : launch.epollfd = some epollfd) (some : launch.registers svsocks ≠ ∅)
    (empty : ads.dhead = [])
    (permitted : PermittedRun host wild (startLoop launch svsocks ads k epollfd) its) :
    Initial (startLoop launch svsocks ads k epollfd).server ∧
      Runs.Admits (step host) Admissible (startLoop launch svsocks ads k epollfd).server
        (its.flatMap Iteration.events) ∧
      (iwtftpService host launch svsocks ads k its).sent =
        Runs.outs (step host) (outputs host) (startLoop launch svsocks ads k epollfd).server
          (its.flatMap Iteration.events) ∧
      (iwtftpService host launch svsocks ads k its).ads =
        (Runs.exec (step host) (startLoop launch svsocks ads k epollfd).server
          (its.flatMap Iteration.events)).ads := by
  have steady : Steady host _ _ wild (startLoop launch svsocks ads k epollfd) :=
    prepared.steady poll empty
  obtain ⟨_, _, admits⟩ := steady.iterations permitted
  have served := iterations_follows host (startLoop launch svsocks ads k epollfd) its
  have nevents : (addServers launch.room svsocks (k.grant epollfd)).1 ≠ 0 :=
    fun none => some ((prepared.added epollfd).1.mp none)
  have result : (iwtftpService host launch svsocks ads k its).sent =
        ((startLoop launch svsocks ads k epollfd).iterations host its).2 ∧
      (iwtftpService host launch svsocks ads k its).ads =
        ((startLoop launch svsocks ads k epollfd).iterations host its).1.ads := by
    simp only [iwtftpService, poll, if_neg nevents, startLoop, and_self]
  refine ⟨startLoop_initial prepared empty epollfd, admits, result.1.trans served.sent, ?_⟩
  rw [result.2, ← served.server]
  rfl

/-- Between two iterations of any run, the descriptors are accounted for.

Proof: a pass, `update_event` and the end of an iteration each keep the account; the run is an
induction over the iterations. -/
theorem iterations_accounted {its : List Iteration} (prepared : Prepared base wild launch svsocks k)
    (poll : launch.epollfd = some epollfd) (empty : ads.dhead = [])
    (permitted : PermittedRun host wild (startLoop launch svsocks ads k epollfd) its) :
    Accounted (besides base epollfd svsocks) (launch.registers svsocks)
        ((startLoop launch svsocks ads k epollfd).iterations host its).1 ∧
      ((∀ it ∈ its, ∀ fd, it.room fd = true) →
        ((startLoop launch svsocks ads k epollfd).iterations host its).1.kernel.watched =
          launch.registers svsocks ∪
            (held ((startLoop launch svsocks ads k epollfd).iterations host its).1.socks).toFinset) := by
  have steady : Steady host _ _ wild (startLoop launch svsocks ads k epollfd) :=
    prepared.steady poll empty
  obtain ⟨final, completes, _⟩ := steady.iterations permitted
  refine ⟨final.accounted, ?_⟩
  intro roomy
  exact final.watched_eq (completes roomy (startLoop_complete launch svsocks ads k epollfd))

end Prepared

/-! ## The server sockets -/

/-- What the kernel may answer during `iwtftp_init`. -/
structure Boot.Permitted (wild : List Int) (boot : Boot) (set : Setting) (k : Kernel) : Prop where
  ipv4 : ∀ ips ∈ serverAddresses boot set, set.ipv4 = true →
    (boot.answers .inet (nodeOf ips.1) (some tftpPort)).Possible k ∧
      (boot.answers .inet (nodeOf ips.1) (some tftpPort)).Harmless wild k
  ipv6 : ∀ ips ∈ serverAddresses boot set, set.ipv6 = true →
    (boot.answers .inet6 (nodeOf ips.2) (some tftpPort)).Possible (openIpv4 boot set ips.1 k).kernel ∧
      (boot.answers .inet6 (nodeOf ips.2) (some tftpPort)).Harmless wild
        (openIpv4 boot set ips.1 k).kernel

/-- The first slot that is free is behind those that are taken. -/
theorem set_firstFree {before : List Int} (taken : ∀ fd ∈ before, 0 ≤ fd) (after : List Int) (sock : Int) :
    (before ++ -1 :: after).set ((before ++ -1 :: after).findIdx (· < 0)) sock =
      before ++ sock :: after := by
  induction before with
  | nil => simp [List.findIdx_cons]
  | cons fd rest inductionHypothesis =>
    have here : ¬ fd < 0 := by
      have valid := taken fd List.mem_cons_self
      omega
    have next := inductionHypothesis fun fd' member => taken fd' (List.mem_cons_of_mem fd member)
    simpa [List.findIdx_cons, here] using next

/-- The slots while sockets are made: those taken before those free. -/
structure Filling (base : Finset Int) (wild : List Int) (k : Kernel) (free : Nat) (sv : Servers) : Prop where
  holding : Holding base wild sv.svsocks sv.kernel
  watched : sv.kernel.watched = k.watched
  slots : ∃ before, sv.svsocks = before ++ List.replicate free (-1) ∧ ∀ fd ∈ before, 0 ≤ fd

/-- One more server socket keeps the account of those that are open. -/
theorem Filling.add {k : Kernel} {free : Nat} {sv : Servers} (filling : Filling base wild k (free + 1) sv)
    {answers : Replies} {family : Family} {ip : Bytes}
    (possible : (answers family (nodeOf ip) (some tftpPort)).Possible sv.kernel)
    (harmless : (answers family (nodeOf ip) (some tftpPort)).Harmless wild sv.kernel) :
    Filling base wild k (free + 1) (sv.add answers family ip) ∨
      Filling base wild k free (sv.add answers family ip) := by
  obtain ⟨before, slots, taken⟩ := filling.slots
  have created := Creation.finish_created possible harmless
  have added : sv.add answers family ip =
      { svsocks := before ++ ((answers family (nodeOf ip) (some tftpPort)).finish sv.kernel).1 ::
          List.replicate free (-1)
        kernel := ((answers family (nodeOf ip) (some tftpPort)).finish sv.kernel).2 } := by
    rw [Servers.add, slots, List.replicate_succ, set_firstFree taken]
    rfl
  rw [added]
  generalize (answers family (nodeOf ip) (some tftpPort)).finish sv.kernel = r at created
  cases created with
  | made sock valid unopened =>
    refine .inr ⟨?_, filling.watched, before ++ [sock], by simp, ?_⟩
    · apply filling.holding.grant valid unopened
      · rw [slots, held_append, held_append, List.replicate_succ, held_none, held_of_valid valid]
        exact List.perm_middle.symm
      · intro fd member
        rw [slots]
        rcases List.mem_append.mp member with old | new
        · exact .inr (List.mem_append_left _ old)
        · rcases List.mem_cons.mp new with here | later
          · exact .inl here
          · exact .inr (List.mem_append_right before (List.mem_cons_of_mem _ later))
    · intro fd member
      rcases List.mem_append.mp member with old | new
      · exact taken fd old
      · rwa [List.mem_singleton.mp new]
  | failed k' opened watched stray =>
    have same : before ++ -1 :: List.replicate free (-1) = sv.svsocks := by
      rw [slots, List.replicate_succ]
    dsimp only
    rw [same]
    exact .inl ⟨filling.holding.congr opened stray, watched.trans filling.watched, before, slots, taken⟩

section Boot

variable {boot : Boot} {set : Setting} {k : Kernel}

/-- Before the first there is none. -/
theorem filling_start (stray : ∀ fd ∈ k.stray, fd = -1 ∨ fd ∈ wild) :
    Filling k.opened wild k svsocksMax ⟨List.replicate svsocksMax (-1), k⟩ := by
  refine ⟨⟨?_, List.nodup_nil, ?_, ?_, stray⟩, rfl, [], rfl, ?_⟩
  · intro fd member
    exact .inl (List.eq_of_mem_replicate member)
  · intro fd member
    cases member
  · exact (Finset.union_empty _).symm
  · intro fd member
    cases member

/-- `iwtftp_init` leaves the server sockets open besides what was open, or nothing. -/
theorem iwtftpInit_holding (permitted : boot.Permitted wild set k)
    (stray : ∀ fd ∈ k.stray, fd = -1 ∨ fd ∈ wild) :
    Holding k.opened wild ((iwtftpInit boot set k).1.getD []) (iwtftpInit boot set k).2 ∧
      (iwtftpInit boot set k).2.watched = k.watched := by
  have start := filling_start stray
  have nothing : Holding k.opened wild [] k := by
    refine ⟨?_, List.nodup_nil, ?_, (Finset.union_empty _).symm, stray⟩
    · intro fd member
      cases member
    · intro fd member
      cases member
  rw [iwtftpInit]
  split
  case isFalse => exact ⟨nothing, rfl⟩
  cases addresses : serverAddresses boot set with
  | none => exact ⟨nothing, rfl⟩
  | some ips =>
    have first : ∃ free, Filling k.opened wild k (free + 1) (openIpv4 boot set ips.1 k) := by
      rw [openIpv4]
      cases asked : set.ipv4 with
      | false => exact ⟨1, start⟩
      | true =>
        obtain ⟨possible, harmless⟩ := permitted.ipv4 ips addresses asked
        exact (start.add possible harmless).elim (fun two => ⟨1, two⟩) (fun one => ⟨0, one⟩)
    have opened : ∃ free, Filling k.opened wild k free (openServers boot set ips k) := by
      obtain ⟨free, filling⟩ := first
      rw [openServers, openIpv6]
      cases asked : set.ipv6 with
      | false => exact ⟨free + 1, filling⟩
      | true =>
        obtain ⟨possible, harmless⟩ := permitted.ipv6 ips addresses asked
        exact (filling.add possible harmless).elim (fun more => ⟨free + 1, more⟩) (fun one => ⟨free, one⟩)
    obtain ⟨free, filling⟩ := opened
    dsimp only
    split
    · exact ⟨filling.holding, filling.watched⟩
    · rename_i none
      -- No slot is taken, so there is nothing to close.
      have negative : (openServers boot set ips k).svsocks.filter (0 ≤ ·) = [] := by
        simpa [List.filter_eq_nil_iff] using none
      have empty : held (openServers boot set ips k).svsocks = [] := by
        rw [held, List.filter_eq_nil_iff]
        intro fd member
        have below : ¬ 0 ≤ fd := by
          intro valid
          exact none (List.any_eq_true.mpr ⟨fd, member, decide_eq_true valid⟩)
        simpa using (filling.holding.valid fd member).resolve_right below
      rw [negative]
      refine ⟨⟨?_, List.nodup_nil, ?_, ?_, filling.holding.stray⟩, filling.watched⟩
      · intro fd member
        cases member
      · intro fd member
        cases member
      · have same := filling.holding.opened
        rwa [empty] at same

end Boot

/-! ## The end of `iwtftp_service` -/

section Ending

variable {launch : Launch} {svsocks : List Int} {ads : IWDS} {k k' : Kernel} {epollfd : Int}

/-- The event poll takes one slot more. -/
theorem Prepared.with_poll (prepared : Prepared base wild launch svsocks k)
    (poll : launch.epollfd = some epollfd) (opened : k'.opened = besides base epollfd svsocks)
    (stray : ∀ fd ∈ k'.stray, fd = -1 ∨ fd ∈ wild) : Holding base wild (epollfd :: svsocks) k' := by
  have valid := (prepared.epollfd epollfd poll).1
  obtain ⟨outside, absent⟩ := prepared.unopened poll
  refine ⟨?_, ?_, ?_, ?_, stray⟩
  · intro fd member
    rcases List.mem_cons.mp member with rfl | old
    · exact .inr valid
    · exact prepared.holding.valid fd old
  · rw [held_of_valid valid, List.nodup_cons]
    exact ⟨absent, prepared.holding.once⟩
  · intro fd member
    rw [held_of_valid valid] at member
    rcases List.mem_cons.mp member with rfl | old
    · exact outside
    · exact prepared.holding.apart fd old
  · rw [opened, besides, held_of_valid valid, List.toFinset_cons, Finset.union_insert]

/-- The last closes of `iwtftp_service` leave what was open before `iwtftp_init`. -/
theorem Prepared.closes (prepared : Prepared base wild launch svsocks k)
    (poll : launch.epollfd = some epollfd) (opened : k'.opened = besides base epollfd svsocks)
    (stray : ∀ fd ∈ k'.stray, fd = -1 ∨ fd ∈ wild) :
    (closeServers svsocks (k'.close epollfd)).opened = base ∧
      ∀ fd ∈ (closeServers svsocks (k'.close epollfd)).stray, fd = -1 ∨ fd ∈ wild := by
  have holding := prepared.with_poll poll opened stray
  have together : closeServers svsocks (k'.close epollfd) = k'.closeAll (held (epollfd :: svsocks)) := by
    rw [held_of_valid (prepared.epollfd epollfd poll).1, closeAll_cons]
    rfl
  rw [together, holding.closeAll.1, holding.closeAll.2]
  exact ⟨rfl, stray⟩

/-- However `iwtftp_service` ends, what it was given and what it opened is closed, and nothing
is closed twice. -/
theorem iwtftpService_closes {its : List Iteration} (prepared : Prepared base wild launch svsocks k)
    (empty : ads.dhead = [])
    (permitted : ∀ epollfd ∈ launch.epollfd,
      PermittedRun host wild (startLoop launch svsocks ads k epollfd) its) :
    (iwtftpService host launch svsocks ads k its).kernel.opened = base ∧
      ∀ fd ∈ (iwtftpService host launch svsocks ads k its).kernel.stray, fd = -1 ∨ fd ∈ wild := by
  rw [iwtftpService]
  cases poll : launch.epollfd with
  | none =>
    have closed := prepared.holding.closeAll
    refine ⟨closed.1, ?_⟩
    intro fd member
    exact prepared.holding.stray fd (closed.2 ▸ member)
  | some epollfd =>
    obtain ⟨_, opened, stray, _⟩ := prepared.added epollfd
    dsimp only
    split
    · exact prepared.closes poll opened fun fd member => prepared.holding.stray fd (stray ▸ member)
    · have steady : Steady host _ _ wild (startLoop launch svsocks ads k epollfd) :=
        prepared.steady poll empty
      have sound := (steady.iterations (permitted epollfd poll)).1.sound
      have released := sound.holding.release sound.proper (.of_eq (List.append_nil _).symm)
      exact prepared.closes poll (released.opened.trans (Finset.union_empty _)) released.stray

end Ending

/-! ## The whole life of the server -/

/-- From `iwtftp_init` to `iwtftp_exit`. -/
def lifetime (host : Host) (boot : Boot) (set : Setting) (launch : Launch) (ads : IWDS) (k : Kernel)
    (its : List Iteration) : Kernel :=
  match iwtftpInit boot set k with
  | (none, k) => k
  | (some svsocks, k) =>
    let served := iwtftpService host launch svsocks ads k its
    iwtftpExit served.svsocks [] served.kernel

/-- What the kernel promises during a lifetime. -/
structure Promised (host : Host) (wild : List Int) (boot : Boot) (set : Setting) (launch : Launch)
    (ads : IWDS) (k : Kernel) (its : List Iteration) : Prop where
  valid : ∀ fd ∈ k.opened, 0 ≤ fd
  unwatched : k.watched = ∅
  answers : boot.Permitted wild set k
  epollfd : ∀ fd ∈ launch.epollfd, 0 ≤ fd ∧ (iwtftpInit boot set k).2.Free fd
  rbuf : launch.rbuf.length = nwbufSize
  its : ∀ svsocks ∈ (iwtftpInit boot set k).1, ∀ epollfd ∈ launch.epollfd,
    PermittedRun host wild (startLoop launch svsocks ads (iwtftpInit boot set k).2 epollfd) its

/-- When `iwtftp_init` succeeds, the service is prepared by what it leaves open. -/
theorem Promised.prepared {boot : Boot} {set : Setting} {launch : Launch} {ads : IWDS} {k : Kernel}
    {its : List Iteration} (promised : Promised host wild boot set launch ads k its) (clean : k.stray = [])
    {svsocks : List Int} (started : (iwtftpInit boot set k).1 = some svsocks) :
    Prepared k.opened wild launch svsocks (iwtftpInit boot set k).2 := by
  obtain ⟨holding, unwatched⟩ := iwtftpInit_holding promised.answers (by simp [clean])
  rw [started] at holding
  exact ⟨promised.valid, holding, unwatched.trans promised.unwatched, promised.epollfd, promised.rbuf⟩

/-- The slots of a served instance are empty. -/
theorem iwtftpService_slots (launch : Launch) (svsocks : List Int) (ads : IWDS) (k : Kernel)
    (its : List Iteration) : held (iwtftpService host launch svsocks ads k its).svsocks = [] := by
  have slots : (iwtftpService host launch svsocks ads k its).svsocks = svsocks.map fun _ => -1 := by
    rw [iwtftpService]
    split
    · rfl
    · dsimp only
      split <;> rfl
  rw [slots, held, List.filter_eq_nil_iff]
  intro fd member
  obtain ⟨_, _, rfl⟩ := List.mem_map.mp member
  simp

/-- Whatever fails on the way, every descriptor that is opened is closed again, none twice and
none that was open before: a stray close is one of -1 or of the variable that was never assigned.

Proof: `iwtftp_init` closes what it opened when it fails. The service keeps the account of what is
open, and `iwtftp_exit` closes the sessions' sockets and its own. -/
theorem lifetime_balanced {boot : Boot} {set : Setting} {launch : Launch} {ads : IWDS} {k : Kernel}
    {its : List Iteration} (promised : Promised host wild boot set launch ads k its)
    (empty : ads.dhead = []) (clean : k.stray = []) :
    (lifetime host boot set launch ads k its).opened = k.opened ∧
      ∀ fd ∈ (lifetime host boot set launch ads k its).stray, fd = -1 ∨ fd ∈ wild := by
  cases started : (iwtftpInit boot set k).1 with
  | none =>
    have holding := (iwtftpInit_holding promised.answers (by simp [clean])).1
    have ends : lifetime host boot set launch ads k its = (iwtftpInit boot set k).2 := by
      rw [lifetime, ← Prod.eta (iwtftpInit boot set k), started]
    rw [started] at holding
    rw [ends]
    exact ⟨holding.opened.trans (Finset.union_empty _), holding.stray⟩
  | some svsocks =>
    have closed := iwtftpService_closes (promised.prepared clean started) empty
      (promised.its svsocks started)
    have ends : lifetime host boot set launch ads k its =
        (iwtftpService host launch svsocks ads (iwtftpInit boot set k).2 its).kernel := by
      rw [lifetime, ← Prod.eta (iwtftpInit boot set k), started]
      show iwtftpExit _ [] _ = _
      rw [iwtftpExit, closeServers, ← held, iwtftpService_slots]
      rfl
    rw [ends]
    exact closed

/-! ## A lifetime -/

/-- Sockets in the order in which they are asked for. -/
def someAnswers : Replies := fun family _ service =>
  match service, family with
  | some _, .inet => .bound 3
  | some _, .inet6 => .bound 4
  | none, _ => .bound 6

/-- A kernel that refuses nothing. -/
def someBoot : Boot where
  memory := true
  memory4 := fun _ => 0
  memory6 := fun _ => 0
  ifaddrs := none
  answers := someAnswers

/-- A command line that asks for both families on any interface. -/
def bothFamilies : Setting where
  ipv4 := true
  ipv6 := true
  ifname := none

/-- The service gets its epoll descriptor, and the stack is empty. -/
def someLaunch : Launch where
  epollfd := some 5
  room := fun _ => true
  msg := []
  rbuf := List.replicate nwbufSize 0

/-- The standard streams are open. -/
def someKernel : Kernel where
  opened := {0, 1, 2}
  watched := ∅
  stray := []
  within := Finset.empty_subset _

/-- A write request at the server socket. -/
def someArrival : Arrival where
  sock := 3
  received := some (ascii "127.0.0.1", be16 opWrq ++ ascii "f" ++ [0] ++ ascii "octet" ++ [0])
  now := 0
  svname := some (.inet, ascii "127.0.0.1")
  answers := someAnswers
  faults := []

/-- A tick at which nobody's name is asked for. -/
def someTick : Tick where
  now := 1
  sockname := fun _ => none
  addr := []
  faults := []

/-- A request, and then nothing. -/
def someIterations : List Iteration :=
  [{ poll := .ready [someArrival], room := fun _ => true, tick := someTick },
    { poll := .timeout, room := fun _ => true, tick := someTick }]

/-- The kernel of the example keeps its promises. -/
theorem someLifetime_promised :
    Promised smallHost [] someBoot bothFamilies someLaunch (startOn fun _ => .absent).ads someKernel
      someIterations := by
  constructor
  · decide
  · rfl
  · constructor
    · intro ips asked _
      cases asked
      exact ⟨⟨by decide, by decide⟩, trivial⟩
    · intro ips asked _
      cases asked
      exact ⟨⟨by decide, by decide⟩, trivial⟩
  · intro fd poll
    cases poll
    exact ⟨by decide, by decide⟩
  · exact List.length_replicate
  · intro svsocks started epollfd poll
    cases started
    cases poll
    refine ⟨?_, trivial, trivial⟩
    refine ⟨List.cons_ne_nil _ _, by decide, by decide, by decide, ?_, trivial⟩
    intro c answered
    cases answered
    exact ⟨⟨by decide, by decide⟩, trivial⟩

/-- With two server sockets, and a session that is still there at the end, only the three standard
descriptors are left open. -/
theorem lifetime_balanced_sample :
    (lifetime smallHost someBoot bothFamilies someLaunch (startOn fun _ => .absent).ads someKernel
      someIterations).opened = {0, 1, 2} :=
  (lifetime_balanced someLifetime_promised rfl rfl).1

/-- The descriptors after `iwtftp_init`. -/
abbrev servedKernel : Kernel := (iwtftpInit someBoot bothFamilies someKernel).2

theorem somePrepared : Prepared {0, 1, 2} [] someLaunch [3, 4] servedKernel :=
  someLifetime_promised.prepared rfl rfl

/-- Its answers are those that the service permits. -/
theorem someIterations_permitted : PermittedRun smallHost []
    (startLoop someLaunch [3, 4] (startOn fun _ => .absent).ads servedKernel 5) someIterations :=
  someLifetime_promised.its [3, 4] rfl 5 rfl

/-- The messages of the two iterations are those of the service. -/
theorem iwtftpService_runs_sample :
    (iwtftpService smallHost someLaunch [3, 4] (startOn fun _ => .absent).ads servedKernel
      someIterations).sent =
      Runs.outs (step smallHost) (outputs smallHost)
        (startLoop someLaunch [3, 4] (startOn fun _ => .absent).ads servedKernel 5).server
        (someIterations.flatMap Iteration.events) :=
  (iwtftpService_runs somePrepared rfl (by decide) rfl someIterations_permitted).2.2.1

/-- Behind them the server sockets and the client's are watched. -/
theorem iterations_accounted_sample :
    ((startLoop someLaunch [3, 4] (startOn fun _ => .absent).ads servedKernel 5).iterations smallHost
        someIterations).1.kernel.watched =
      {3, 4} ∪ (held ((startLoop someLaunch [3, 4] (startOn fun _ => .absent).ads servedKernel
        5).iterations smallHost someIterations).1.socks).toFinset :=
  (iterations_accounted somePrepared rfl rfl someIterations_permitted).2 (by simp [someIterations])

end Iwtftpd
