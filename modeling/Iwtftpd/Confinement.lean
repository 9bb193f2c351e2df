import Iwtftpd.Startup

/-!
# The process that serves

When the service is entered, and what the process may do then. Every step of
`main` is stated once; what the kernel promises about `realpath` is a hypothesis.
-/

namespace Iwtftpd

open Descriptors FileTable Paths

/-! ## The path of the datastore -/

/-- A path of names is split into its names at the slashes. -/
theorem splitOn_names (names : List FileName) {first : Bytes} (plain : slash ∉ first) :
    (first ++ names.flatMap fun n => slash :: n.bytes).splitOn slash = first :: placeOf names := by
  induction names generalizing first with
  | nil =>
    rw [List.flatMap_nil, List.append_nil]
    exact List.splitOn_eq_singleton plain
  | cons n rest inductionHypothesis =>
    rw [List.flatMap_cons, List.cons_append, List.splitOn_append_cons_self_of_not_mem plain,
      inductionHypothesis n.plain]
    rfl

/-- A name is a step down, since it is neither empty nor a dot nor two. -/
theorem FileName.component (n : FileName) : component n.bytes = .down n.bytes := by
  obtain ⟨some, dot, up⟩ := n.proper
  simp [Iwtftpd.component, some, dot, up]

/-- What `realpath` writes is read back as the names. -/
theorem pathSteps_pathText (names : List FileName) :
    ∃ stays, pathSteps (pathText names) = .stay :: (stays ++ (placeOf names).map .down) ∧
      stays.length ≤ 1 ∧ ∀ s ∈ stays, s = .stay := by
  cases names with
  | nil => exact ⟨[.stay], rfl, by simp, by simp⟩
  | cons n rest =>
    refine ⟨[], ?_, by simp, by simp⟩
    have parts := splitOn_names (n :: rest) (List.not_mem_nil : slash ∉ ([] : Bytes))
    rw [List.nil_append] at parts
    rw [pathSteps, pathText, if_neg (by simp), parts, List.map_cons, placeOf, List.map_map, List.map_map]
    congr 1
    exact List.map_congr_left fun n _ => n.component

/-- What is documented of `realpath`: no name of its result is a link, and the result is short
enough for the kernel. -/
structure Machine.Resolves (m : Machine) (root : Place) : Prop where
  plain : ∀ path names, m.realpath path = some names → ∀ before, before <+: placeOf names →
    m.links (root ++ before) = none
  short : ∀ path names, m.realpath path = some names → names.length + 2 < m.depth

/-- The text leads a process to the place that `realpath` has found. -/
theorem Machine.Resolves.lookup {m : Machine} {p : Process} (resolves : m.Resolves p.root)
    {path : Bytes} {names : List FileName} (found : m.realpath path = some names) :
    m.lookup p (pathText names) = some (p.root ++ placeOf names) := by
  obtain ⟨stays, steps, few, same⟩ := pathSteps_pathText names
  have start : (pathText names).head? = some slash := by
    cases names <;> rfl
  have short := resolves.short path names found
  rw [Machine.lookup, if_pos start, steps]
  obtain ⟨depth, enough⟩ : ∃ n, m.depth = n + 2 := ⟨m.depth - 2, by omega⟩
  have leads : ∀ fuel, names.length < fuel →
      follow p.root m.links fuel p.root ((placeOf names).map .down) = some (p.root ++ placeOf names) := by
    intro fuel room
    apply follow_downs p.root (resolves.plain path names found)
    rwa [placeOf, List.length_map]
  rw [enough, follow]
  cases stays with
  | nil => exact leads (depth + 1) (by omega)
  | cons first rest =>
    obtain rfl : first = .stay := same first List.mem_cons_self
    obtain rfl : rest = [] := List.eq_nil_of_length_eq_zero (by simpa using few)
    rw [List.singleton_append, follow]
    exact leads depth (by omega)

/-! ## The steps of `main` -/

/-- A sequence ends well when both parts do. -/
theorem bind_ok {ε α β : Type} {x : Except ε α} {f : α → Except ε β} {b : β} :
    (x >>= f) = .ok b ↔ ∃ a, x = .ok a ∧ f a = .ok b := by
  cases x with
  | error e => simp [bind, Except.bind]
  | ok a => simp [bind, Except.bind]

/-- What `main` insists on goes through as the call does. -/
theorem demand_ok {α : Type} {x : Except (List Statcode) α} {why : Statcode} {exitval : Nat} {a : α} :
    demand x why exitval = .ok a ↔ x = .ok a := by
  cases x <;> simp [demand]

/-- A pointer that is not NULL goes through. -/
theorem orErr_ok {α : Type} {x : Option α} {a : α} : orErr x = .ok a ↔ x = some a := by
  cases x <;> simp [orErr]

variable {m : Machine} {p p' : Process}

/-- The command line goes through when it is accepted and there is memory for it. -/
theorem configured_ok {svc : Svconf} :
    configured m = .ok svc ↔ m.memory = true ∧ m.args.Accepted ∧ svc = m.args.svconf := by
  rw [configured, created]
  cases memory : m.memory with
  | false => simp [createSvconf, bind, Except.bind]
  | true =>
    obtain ⟨psv, new⟩ : ∃ psv, createSvconf true = some psv := ⟨_, rfl⟩
    have accepts : setSvconf psv m.args = .ok svc ↔ m.args.Accepted ∧ svc = m.args.svconf :=
      setSvconf_ok_iff new m.args
    rw [new]
    simp only [bind, Except.bind]
    rw [true_and, ← accepts]
    cases setSvconf psv m.args with
    | help => simp
    | showVer => simp
    | err => simp
    | ok psv => simp

/-- The signals of a list get a handler unless a call fails. -/
theorem setSignals_ok {func : Handler} {sigs : List Signal} {handlers handlers' : Signal → Handler} :
    setSignals m func sigs handlers = .ok handlers' ↔
      (∀ sig ∈ sigs, m.getAction sig = true ∧ m.setAction sig = true) ∧
        handlers' = fun sig => if sig ∈ sigs then func else handlers sig := by
  induction sigs generalizing handlers with
  | nil =>
    rw [setSignals, Except.ok.injEq]
    simpa using (eq_comm : handlers = handlers' ↔ handlers' = handlers)
  | cons sig rest inductionHypothesis =>
    rw [setSignals, List.forall_mem_cons]
    split
    · rename_i granted
      rw [inductionHypothesis]
      have both : m.getAction sig = true ∧ m.setAction sig = true := by simpa using granted
      have same : (fun s => if s ∈ rest then func else Function.update handlers sig func s) =
          fun s => if s ∈ sig :: rest then func else handlers s := by
        funext s
        by_cases here : s = sig
        · simp [here]
        · simp [here]
      rw [same]
      simp [both]
    · rename_i refused
      have both : ¬ (m.getAction sig = true ∧ m.setAction sig = true) := by simpa using refused
      simp [both]

/-- The handlers of the daemon. -/
def serving (sig : Signal) : Handler := if sig ∈ siglist then .sigHandler else .ignored

/-- The check for root and the signals go through when the user is root and no signal fails; the
handlers are then those of the service. -/
theorem signalled_ok :
    signalled m p = .ok p' ↔
      p.uid = 0 ∧ (∀ sig, m.getAction sig = true ∧ m.setAction sig = true) ∧
        p' = { p with handlers := serving } := by
  rw [signalled]
  by_cases asRoot : p.uid = 0
  · rw [if_neg (not_not_intro asRoot), bind_ok]
    simp only [bind_ok, demand_ok, initSignal, setSignals_ok, List.mem_reverse, Except.ok.injEq]
    constructor
    · rintro ⟨_, ⟨first, rfl⟩, _, ⟨second, rfl⟩, rfl⟩
      refine ⟨asRoot, ?_, ?_⟩
      · intro sig
        cases sig
        case term | quit | hup => exact first _ (by decide)
        all_goals exact second _ (by decide)
      · congr 1
        funext sig
        cases sig <;> rfl
    · rintro ⟨_, all, rfl⟩
      refine ⟨_, ⟨fun sig _ => all sig, rfl⟩, _, ⟨fun sig _ => all sig, rfl⟩, ?_⟩
      congr 1
      funext sig
      cases sig <;> rfl
  · rw [if_pos asRoot]
    simp [asRoot]

/-- The log and the daemon go through when the log can be opened, there is memory for it, and
`daemonize` does what it is asked. -/
theorem detached_ok {svc : Svconf} {logfd : Nat} :
    detached m svc p = .ok (logfd, p') ↔
      (m.logFile = true ∧ m.logMemory = true) ∧ logfd = p.files.lowest ∧
        daemonize m.detaching logfd { p with files := (p.files.openNew .log).2 } = .ok p' := by
  rw [detached, logging, iwlogInit]
  cases file : m.logFile with
  | false => simp [bind, Except.bind]
  | true =>
    cases memory : m.logMemory with
    | false => simp [bind, Except.bind]
    | true =>
      simp only [if_true, bind, Except.bind, Files.openNew, iwlogGetfd, Option.map_some, orErr, demand, true_and]
      cases ends : daemonize m.detaching p.files.lowest
          { p with files := p.files.put p.files.lowest (some .log) } with
      | exited =>
        constructor
        · rintro ⟨⟩
        · rintro ⟨rfl, done⟩
          rw [ends] at done
          cases done
      | err told =>
        constructor
        · rintro ⟨⟩
        · rintro ⟨rfl, done⟩
          rw [ends] at done
          cases done
      | ok q =>
        constructor
        · intro same
          obtain ⟨rfl, rfl⟩ := Prod.mk.inj (Except.ok.inj same)
          exact ⟨rfl, ends⟩
        · rintro ⟨rfl, done⟩
          rw [ends] at done
          rw [Daemonized.ok.inj done]

/-- `iwds_init` succeeds for a directory, and its path is that of the directory without links. -/
theorem iwdsInit_some {datastore : Option Bytes} {dspath : Bytes} :
    iwdsInit m p datastore = some dspath ↔
      ∃ names, m.realpath (datastore.getD defaultDatastore) = some names ∧
        (m.isDir (p.root ++ placeOf names) = true ∧ m.dsMemory = true) ∧ dspath = pathText names := by
  rw [iwdsInit]
  cases m.realpath (datastore.getD defaultDatastore) with
  | none => simp
  | some names =>
    by_cases fine : m.isDir (p.root ++ placeOf names) = true ∧ m.dsMemory = true
    · simpa [fine] using (eq_comm : pathText names = dspath ↔ dspath = pathText names)
    · simp [fine]

/-- A process of root moves into a directory and makes it its root. -/
theorem execChroot_ok {dirpath : Bytes} {place : Place} (asRoot : p.uid = 0) (deep : 2 < m.depth)
    (found : m.lookup p dirpath = some place) :
    execChroot m dirpath p = .ok p' ↔
      m.permits .chroot = true ∧ m.permits .chdir = true ∧ p' = { p with root := place, cwd := place } := by
  obtain ⟨depth, enough⟩ : ∃ n, m.depth = n + 3 := ⟨m.depth - 3, by omega⟩
  have inside : m.lookup { p with root := place } [slash] = some place := by
    have steps : pathSteps [slash] = [.stay, .stay] := by decide
    rw [Machine.lookup, steps, enough]
    rfl
  rw [execChroot]
  cases chroot : m.permits .chroot with
  | false => simp
  | true =>
    rw [if_pos ⟨asRoot, rfl⟩, found]
    cases chdir : m.permits .chdir with
    | false => simp
    | true =>
      simp only [if_true, inside, Except.ok.injEq, true_and]
      exact eq_comm

/-- A process of root takes the identity of a user: the user last, or the groups would be
refused. -/
theorem setCredential_ok {pwd : Passwd} (asRoot : p.uid = 0) :
    setCredential m pwd p = .ok p' ↔
      (m.permits .setgid = true ∧ m.permits .initgroups = true ∧ m.permits .setuid = true) ∧
        p' = { p with gid := pwd.gid, groups := m.groups pwd, uid := pwd.uid } := by
  rw [setCredential]
  by_cases permitted : m.permits .setgid = true ∧ m.permits .initgroups = true ∧ m.permits .setuid = true
  · simp only [asRoot, permitted, true_or, and_self, if_true, Except.ok.injEq, true_and]
    exact eq_comm
  · simp only [permitted, false_and, iff_false]
    split
    · split
      · split
        · rename_i gid groups uid
          exact absurd ⟨gid.2, groups.2, uid.2⟩ permitted
        · rintro ⟨⟩
      · rintro ⟨⟩
    · rintro ⟨⟩

/-- Whether `iwtftp_init` gets a socket does not depend on what is open. -/
theorem iwtftpInit_made (boot : Boot) (set : Setting) (k k' : Kernel) :
    (iwtftpInit boot set k).1 = (iwtftpInit boot set k').1 := by
  have finish : ∀ (c : Creation) (k k' : Kernel), (c.finish k).1 = (c.finish k').1 := by
    intro c k k'
    cases c <;> rfl
  have add : ∀ (sv sv' : Servers) family ip, sv.svsocks = sv'.svsocks →
      (sv.add boot.answers family ip).svsocks = (sv'.add boot.answers family ip).svsocks := by
    intro sv sv' family ip same
    rw [Servers.add, Servers.add, createSocket, createSocket, same, finish _ sv.kernel sv'.kernel]
  have opened : ∀ ips, (openServers boot set ips k).svsocks = (openServers boot set ips k').svsocks := by
    intro ips
    have first : (openIpv4 boot set ips.1 k).svsocks = (openIpv4 boot set ips.1 k').svsocks := by
      rw [openIpv4, openIpv4]
      split
      · exact add _ _ .inet ips.1 rfl
      · rfl
    rw [openServers, openServers, openIpv6, openIpv6]
    split
    · exact add _ _ .inet6 ips.2 first
    · exact first
  rw [iwtftpInit, iwtftpInit]
  split
  · cases serverAddresses boot set with
    | none => rfl
    | some ips =>
      dsimp only
      rw [opened ips]
      split <;> rfl
  · rfl

/-- Without memory for the instance there is no socket. -/
theorem iwtftpInit_memory {boot : Boot} {set : Setting} {k : Kernel} (made : (iwtftpInit boot set k).1 ≠ none) :
    boot.memory = true := by
  rw [iwtftpInit] at made
  split at made
  · assumption
  · exact absurd rfl made

/-! ## When the service is entered -/

/-- The configured datastore. -/
def Machine.datastore (m : Machine) : Option (List FileName) :=
  m.realpath (m.args.svconf.datastore.getD defaultDatastore)

/-- The configured user. -/
def Machine.user (m : Machine) : Option Passwd := m.args.svconf.user.bind m.getpwnam

/-- The sockets that a process of root gets. -/
def Machine.sockets (m : Machine) (k : Kernel) : Option (List Int) × Kernel :=
  iwtftpInit (m.boot 0) m.args.svconf.setting k

/-- What it takes to enter the service. -/
structure Cleared (m : Machine) (p : Process) : Prop where
  memory : m.memory = true ∧ m.logMemory = true ∧ m.dsMemory = true ∧ (m.boot 0).memory = true
  args : m.args.Accepted
  asRoot : p.uid = 0
  signals : ∀ sig, m.getAction sig = true ∧ m.setAction sig = true
  logFile : m.logFile = true
  detaching : m.detaching.Granted
  datastore : ∃ names ∈ m.datastore, m.isDir (p.root ++ placeOf names) = true
  sockets : ∀ k, (m.sockets k).1 ≠ none
  user : m.user ≠ none
  permits : ∀ call, m.permits call = true

/-- What the service finds, given the process that `daemonize` has left. -/
structure Enters (m : Machine) (q : Process) (names : List FileName) (pwd : Passwd) (en : Entered) : Prop where
  proc : en.proc = { q with
    root := q.root ++ placeOf names
    cwd := q.root ++ placeOf names
    uid := pwd.uid
    gid := pwd.gid
    groups := m.groups pwd }
  dspath : en.dspath = [slash]
  svsocks : (m.sockets (descriptors q.files)).1 = some en.svsocks
  kernel : en.kernel = (m.sockets (descriptors q.files)).2

/-- The process before `daemonize`. -/
def Process.prepared (p : Process) : Process :=
  { p with handlers := serving, files := (p.files.openNew .log).2 }

/-- What the daemon leaves of the process besides its descriptors. -/
theorem Left.kept {excfd : Nat} {p q : Process} (left : Left excfd p q) :
    q.root = p.root ∧ q.uid = p.uid ∧ q.handlers = p.handlers ∧ q.umask = 0 ∧ q.leader = true := by
  rw [left.rest]
  exact ⟨rfl, rfl, rfl, rfl, rfl⟩

/-- `main` enters the service only when it is cleared for it. -/
theorem startup_enters (resolves : m.Resolves p.root) {en : Entered} (started : startup m p = .ok en) :
    Cleared m p ∧ en.logfd = p.files.lowest ∧ ∃ names ∈ m.datastore, ∃ pwd ∈ m.user, ∃ q,
      Left p.files.lowest p.prepared q ∧ Enters m q names pwd en := by
  rw [startup] at started
  simp only [bind_ok, demand_ok, orErr_ok, configured_ok, signalled_ok, Prod.exists, detached_ok,
    iwdsInit_some] at started
  obtain ⟨_, ⟨memory, args, rfl⟩, _, ⟨asRoot, signals, rfl⟩, _, q, ⟨⟨logFile, logMemory⟩, rfl, done⟩, _,
    ⟨names, found, ⟨dir, dsMemory⟩, rfl⟩, svsocks, made, pwd, user, r, chrooted, text, slashed, r', credited,
    same⟩ := started
  obtain ⟨granted, left⟩ := daemonize_left done
  obtain ⟨root, uid, _⟩ := left.kept
  have asRoot' : q.uid = 0 := uid.trans asRoot
  have resolves' : m.Resolves q.root := root ▸ resolves
  obtain ⟨chroot, chdir, rfl⟩ := (execChroot_ok asRoot' (by have := resolves.short _ _ found; omega)
    (resolves'.lookup found)).mp chrooted
  obtain ⟨⟨setgid, initgroups, setuid⟩, rfl⟩ := (setCredential_ok (by exact asRoot')).mp credited
  obtain rfl := Except.ok.inj same
  have slash' : text = [slash] := (Option.some.inj slashed).symm
  rw [asRoot'] at made
  have madeMemory : (m.boot 0).memory = true := by
    apply iwtftpInit_memory
    rw [made]
    exact Option.some_ne_none svsocks
  refine ⟨⟨⟨memory, logMemory, dsMemory, madeMemory⟩, args, asRoot, signals, logFile, granted, ?_, ?_, ?_, ?_⟩, rfl,
    names, found, pwd, user, q, left, rfl, slash', made, ?_⟩
  · refine ⟨names, found, ?_⟩
    rwa [root] at dir
  · intro k
    rw [Machine.sockets, iwtftpInit_made _ _ k (descriptors q.files), made]
    rintro ⟨⟩
  · rw [Machine.user, user]
    rintro ⟨⟩
  · intro call
    cases call <;> assumption
  · rw [Machine.sockets, asRoot']

/-- When it is cleared for it, `main` enters the service: no call is refused because of what
the process has given up before. -/
theorem Cleared.startup (cleared : Cleared m p) (resolves : m.Resolves p.root) :
    ∃ en, Iwtftpd.startup m p = .ok en := by
  obtain ⟨memory, logMemory, dsMemory, -⟩ := cleared.memory
  obtain ⟨names, found, dir⟩ := cleared.datastore
  have runs : ∃ q, daemonize m.detaching p.files.lowest p.prepared = .ok q :=
    exists_daemonize_iff.mpr cleared.detaching
  obtain ⟨q, done⟩ := runs
  obtain ⟨_, left⟩ := daemonize_left done
  obtain ⟨root, uid, _⟩ := left.kept
  have asRoot : q.uid = 0 := uid.trans cleared.asRoot
  have resolves' : m.Resolves q.root := root ▸ resolves
  obtain ⟨svsocks, made⟩ := Option.ne_none_iff_exists'.mp (cleared.sockets (descriptors q.files))
  obtain ⟨pwd, user⟩ := Option.ne_none_iff_exists'.mp cleared.user
  have dir' : m.isDir (q.root ++ placeOf names) = true := by rwa [root]
  have moved : ∃ r, execChroot m (pathText names) q = .ok r ∧ r.uid = 0 :=
    ⟨_, (execChroot_ok asRoot (by have := resolves.short _ _ found; omega) (resolves'.lookup found)).mpr
      ⟨cleared.permits .chroot, cleared.permits .chdir, rfl⟩, asRoot⟩
  obtain ⟨r, chrooted, still⟩ := moved
  have named : ∃ r', setCredential m pwd r = .ok r' :=
    ⟨_, (setCredential_ok still).mpr
      ⟨⟨cleared.permits .setgid, cleared.permits .initgroups, cleared.permits .setuid⟩, rfl⟩⟩
  obtain ⟨r', credited⟩ := named
  rw [Iwtftpd.startup]
  simp only [bind_ok, demand_ok, orErr_ok, configured_ok, signalled_ok, Prod.exists, detached_ok, iwdsInit_some]
  refine ⟨_, _, ⟨memory, cleared.args, rfl⟩, _, ⟨cleared.asRoot, cleared.signals, rfl⟩, _, q,
    ⟨⟨cleared.logFile, logMemory⟩, rfl, done⟩, _, ⟨names, found, ⟨dir', dsMemory⟩, rfl⟩, svsocks, ?_, pwd, user,
    r, chrooted, [slash], rfl, r', credited, rfl⟩
  rw [asRoot]
  exact made

/-! ## What the process may do -/

/-- A process that has given up everything but the datastore. -/
structure Confined (m : Machine) (p : Process) (names : List FileName) (pwd : Passwd) (en : Entered) : Prop where
  root : en.proc.root = p.root ++ placeOf names
  cwd : en.proc.cwd = en.proc.root
  identity : en.proc.uid = pwd.uid ∧ en.proc.gid = pwd.gid ∧ en.proc.groups = m.groups pwd
  handlers : en.proc.handlers = serving
  background : en.proc.umask = 0 ∧ en.proc.leader = true
  svsocks : ∃ k, (m.sockets k).1 = some en.svsocks
  below : ∀ (m' : Machine) (host : Host) file place,
    m'.lookup en.proc (cstr (({ host with dspath := en.dspath } : Host).joined file).stored) = some place →
      en.proc.root <+: place

/-- From its own directory, and from its root, a process gets nowhere but below its root. -/
theorem lookup_below {m' : Machine} (inside : p.cwd = p.root) {path : Bytes} {place : Place}
    (found : m'.lookup p path = some place) : p.root <+: place := by
  rw [Machine.lookup, inside, ite_self] at found
  exact follow_below List.prefix_rfl found

/-- The service is entered exactly when every condition on the machine and the command line is
met; the process is then confined to the datastore, under the identity of the user, with sockets
it got as root. Whatever links the tree has by then, no name that a client sends leads out of the
datastore.

Proof: each part of the startup gives back the process with one thing changed, and fails under a
condition of its own; together they are the conditions of `Cleared`. Behind `chroot` every path is
resolved from the new root, so no path leads above it. -/
theorem startup_confines (resolves : m.Resolves p.root) :
    ((∃ en, startup m p = .ok en) ↔ Cleared m p) ∧
      ∀ en, startup m p = .ok en → ∃ names ∈ m.datastore, ∃ pwd ∈ m.user, Confined m p names pwd en := by
  refine ⟨⟨?_, fun cleared => cleared.startup resolves⟩, ?_⟩
  · rintro ⟨en, started⟩
    exact (startup_enters resolves started).1
  · intro en started
    obtain ⟨_, _, names, found, pwd, user, q, left, enters⟩ := startup_enters resolves started
    obtain ⟨root, _, handlers, umask, leader⟩ := left.kept
    refine ⟨names, found, pwd, user, ?_, ?_, ?_, ?_, ?_, ⟨_, enters.svsocks⟩, ?_⟩
    · rw [enters.proc]
      exact congrArg (· ++ placeOf names) root
    · rw [enters.proc]
    · rw [enters.proc]
      exact ⟨rfl, rfl, rfl⟩
    · rw [enters.proc]
      exact handlers
    · rw [enters.proc]
      exact ⟨umask, leader⟩
    · intro m' host file place
      exact lookup_below (by rw [enters.proc])

/-- The daemon that serves has its log and `/dev/null` open, and below the limit nothing else that
it did not open itself, exactly when it was started with all of its standard descriptors.
Otherwise its records go to `/dev/null`.

Proof: `daemonize` puts `/dev/null` over the three standard descriptors and closes the rest below
the limit but for the log; the log has the lowest number that was free, which is one of the three
unless all were open. -/
theorem startup_detaches (resolves : m.Resolves p.root) {en : Entered} (started : startup m p = .ok en) :
    (Detached en.logfd en.proc.files ↔ ∀ fd < 3, p.files.at fd ≠ none) ∧
      (¬ (∀ fd < 3, p.files.at fd ≠ none) → en.proc.files.at en.logfd = some .null) ∧
      (∀ fd, iwFdMax ≤ fd → fd ≠ en.logfd → en.proc.files.at fd = p.files.at fd) := by
  obtain ⟨_, logfd, _, _, _, _, q, left, enters⟩ := startup_enters resolves started
  have files : en.proc.files = q.files := by rw [enters.proc]
  rw [files, logfd]
  exact left.detaches rfl

end Iwtftpd
