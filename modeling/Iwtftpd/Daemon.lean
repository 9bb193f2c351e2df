import Iwtftpd.Confinement

/-!
# The whole program

How `main` ends and what it has reported by then, and that what it runs between is
the service: a run from an initial state on the root directory.
-/

namespace Iwtftpd

open Descriptors FileTable

/-! ## How `main` ends -/

/-- What is asked of an end: an exit value from the list, a fatal error for those of failures
and no others, and besides it a report that is not left to verbose mode. -/
structure Halt.Fair (h : Halt) : Prop where
  values : ∀ n, h.exit = .code n → n ∈ [exOk, exUsage, exSoftware, exOserr]
  fatal : .eFatalerr ∈ h.told ↔ h.exit = .code exSoftware ∨ h.exit = .code exOserr
  reason : ∀ n, h.exit = .code n → n ≠ exOk → ∃ c ∈ h.told, c ≠ .eFatalerr ∧ c.verbose = false
  success : h.exit = .code exOk → h.told ∈ [[], [.iShowVer], [.iStartServer, .iExitServer]]
  quiet : h.exit = .parent ∨ h.exit = .segv → h.told = []

/-- What holds of every way in which a part of `main` fails. -/
def Fails {α : Type} (P : Halt → Prop) (x : Except Halt α) : Prop := ∀ h, x = .error h → P h

variable {α β : Type} {P : Halt → Prop}

/-- What has not failed has not failed badly. -/
theorem fails_ok (a : α) : Fails P (.ok a) := by
  rintro h ⟨⟩

/-- A failure is judged by its halt. -/
theorem fails_error {h : Halt} (holds : P h) : Fails P (.error h : Except Halt α) := by
  rintro h' ⟨⟩
  exact holds

/-- The rule of sequence: `main` fails as its first part does, or, when that has gone through, as
the rest does from where it ended. -/
theorem fails_bind {x : Except Halt α} {f : α → Except Halt β} (first : Fails P x)
    (next : ∀ a, x = .ok a → Fails P (f a)) : Fails P (x >>= f) := by
  intro h failed
  cases x with
  | error e => exact first h (congrArg Except.error (Except.error.inj failed))
  | ok a => exact next a rfl h failed

/-- The rule of a call that `main` insists on: what the call has told is told first, then `main`'s
own report of it. -/
theorem fails_demand {x : Except (List Statcode) α} {why : Statcode} {exitval : Nat}
    (holds : ∀ told, P (.ferr exitval (told ++ [why]))) : Fails P (demand x why exitval) := by
  cases x with
  | error told => exact fails_error (holds told)
  | ok a => exact fails_ok a

/-- A failure with a report for everyone. -/
theorem fair_ferr {exitval : Nat} (value : exitval = exSoftware ∨ exitval = exOserr) {why : Statcode}
    (loud : why ≠ .eFatalerr ∧ why.verbose = false) (told : List Statcode) :
    (Halt.ferr exitval (told ++ [why])).Fair := by
  have differs : exitval ≠ exUsage ∧ exitval ≠ exOk := by
    rcases value with rfl | rfl <;> decide
  rw [Halt.ferr, if_pos differs.1]
  refine ⟨?_, ?_, ?_, ?_, ?_⟩
  · rintro n ⟨⟩
    rcases value with rfl | rfl <;> decide
  · simpa using value
  · intro n _ _
    exact ⟨why, by simp, loud⟩
  · intro success
    exact absurd (Exit.code.inj success) differs.2
  · rintro (⟨⟨⟩⟩ | ⟨⟨⟩⟩)

/-- A command line or a user that is refused. -/
theorem fair_usage {why : Statcode} (loud : why ≠ .eFatalerr ∧ why.verbose = false) :
    (Halt.ferr exUsage [why]).Fair := by
  refine ⟨?_, ?_, ?_, ?_, ?_⟩
  · rintro n ⟨⟩
    decide
  · simp [Halt.ferr, Ne.symm loud.1, exUsage, exSoftware, exOserr]
  · rintro n ⟨⟩ _
    exact ⟨why, by simp [Halt.ferr], loud⟩
  · rintro ⟨⟩
  · rintro (⟨⟨⟩⟩ | ⟨⟨⟩⟩)

/-- An end without a failure. -/
theorem fair_success {told : List Statcode} (known : told ∈ [[], [.iShowVer], [.iStartServer, .iExitServer]]) :
    ({ exit := .code exOk, told := told } : Halt).Fair := by
  refine ⟨?_, ?_, ?_, fun _ => known, ?_⟩
  · rintro n ⟨⟩
    decide
  · have none : ∀ told ∈ [[], [.iShowVer], [.iStartServer, .iExitServer]], Statcode.eFatalerr ∉ told := by
      decide
    simp [none told known, exOk, exSoftware, exOserr]
  · rintro n ⟨⟩ failed
    exact absurd rfl failed
  · rintro (⟨⟨⟩⟩ | ⟨⟨⟩⟩)

/-- The parent leaves without a word, and a crash says nothing. -/
theorem fair_silent {exit : Exit} (silent : exit = .parent ∨ exit = .segv) :
    ({ exit := exit, told := [] } : Halt).Fair := by
  have none : ∀ n, exit ≠ .code n := by
    rintro n rfl
    rcases silent with ⟨⟨⟩⟩ | ⟨⟨⟩⟩
  refine ⟨?_, ?_, ?_, ?_, fun _ => rfl⟩
  · intro n same
    exact absurd same (none n)
  · simp [none]
  · intro n same
    exact absurd same (none n)
  · intro same
    exact absurd same (none exOk)

/-- What is shown of the ends of `main`: they are fair, and a crash needs a condition. -/
def Halt.Sane (crash : Prop) (h : Halt) : Prop := h.Fair ∧ (h.exit = .segv → crash)

variable {crash : Prop} {m : Machine} {p : Process}

/-- An end by an exit value is no crash. -/
theorem sane_code {told : List Statcode} {n : Nat} (fair : ({ exit := .code n, told := told } : Halt).Fair) :
    ({ exit := .code n, told := told } : Halt).Sane crash := by
  refine ⟨fair, ?_⟩
  rintro ⟨⟩

/-- A call that `main` insists on ends it fairly when its report is one that does not need verbose
mode. -/
theorem sane_demand {x : Except (List Statcode) α} {why : Statcode} {exitval : Nat}
    (value : exitval = exSoftware ∨ exitval = exOserr) (loud : why ≠ .eFatalerr ∧ why.verbose = false) :
    Fails (Halt.Sane crash) (demand x why exitval) :=
  fails_demand fun told => sane_code (fair_ferr value loud told)

/-- The command line: a version that is asked for, a bad option, or no memory. -/
theorem configured_fails : Fails (Halt.Sane crash) (configured m) := by
  rw [configured]
  apply fails_bind
  · rw [created]
    split
    · -- That there is no memory is the reason that everyone sees.
      refine fails_error (sane_code ⟨?_, by decide, ?_, ?_, ?_⟩)
      · rintro n ⟨⟩
        decide
      · intro _ _ _
        exact ⟨.eFailMalloc, by decide, by decide⟩
      · rintro ⟨⟩
      · rintro (⟨⟨⟩⟩ | ⟨⟨⟩⟩)
    · exact fails_ok _
  · intro svc _
    split
    · exact fails_error (sane_code (fair_success (by decide)))
    · exact fails_error (sane_code (fair_success (by decide)))
    · exact fails_error (sane_code (fair_usage (by decide)))
    · exact fails_ok _

/-- The check for root and the signals. -/
theorem signalled_fails : Fails (Halt.Sane crash) (signalled m p) := by
  rw [signalled]
  split
  · exact fails_error (sane_code (fair_usage (by decide)))
  · apply fails_bind (sane_demand (.inr rfl) (by decide))
    intro handlers _
    apply fails_bind (sane_demand (.inr rfl) (by decide))
    intro handlers' _
    exact fails_ok _

/-- The log and the daemon. Only here can `main` crash, when the log cannot be opened. -/
theorem detached_fails {svc : Svconf} (missing : m.logFile = false → crash) :
    Fails (Halt.Sane crash) (detached m svc p) := by
  rw [detached]
  apply fails_bind
  · rw [logging, iwlogInit]
    cases file : m.logFile with
    | false => exact fails_error ⟨fair_silent (.inr rfl), fun _ => missing file⟩
    | true =>
      cases m.logMemory with
      | false => exact fails_error (sane_code (fair_ferr (.inl rfl) (by decide) []))
      | true => exact fails_ok _
  · rintro ⟨alog, files⟩ _
    apply fails_bind (sane_demand (.inl rfl) (by decide))
    intro logfd _
    split
    · exact fails_error ⟨fair_silent (.inl rfl), by rintro ⟨⟩⟩
    · exact fails_error (sane_code (fair_ferr (.inr rfl) (by decide) _))
    · exact fails_ok _

/-- What it takes to get as far as a log that cannot be opened. -/
structure Crashes (m : Machine) (p : Process) : Prop where
  memory : m.memory = true
  args : m.args.Accepted
  asRoot : p.uid = 0
  signals : ∀ sig, m.getAction sig = true ∧ m.setAction sig = true
  logFile : m.logFile = false

/-- All of the startup, part by part, with the condition for a crash as one on the machine and the
command line. -/
theorem startup_fails : Fails (Halt.Sane (Crashes m p)) (startup m p) := by
  rw [startup]
  apply fails_bind configured_fails
  intro svc configured
  obtain ⟨memory, args, _⟩ := configured_ok.mp configured
  apply fails_bind signalled_fails
  intro p' signalled
  obtain ⟨asRoot, signals, _⟩ := signalled_ok.mp signalled
  apply fails_bind (detached_fails fun missing => ⟨memory, args, asRoot, signals, missing⟩)
  rintro ⟨logfd, q⟩ _
  apply fails_bind (sane_demand (.inl rfl) (by decide))
  intro dspath _
  apply fails_bind (sane_demand (.inl rfl) (by decide))
  intro svsocks _
  apply fails_bind (sane_demand (.inr rfl) (by decide))
  intro pwd _
  apply fails_bind (sane_demand (.inr rfl) (by decide))
  intro r _
  apply fails_bind (sane_demand (.inl rfl) (by decide))
  intro dspath' _
  apply fails_bind (sane_demand (.inr rfl) (by decide))
  intro r' _
  exact fails_ok _

/-- Where the condition is met `main` does crash, before anything was told. -/
theorem Crashes.startup (crashes : Crashes m p) :
    Iwtftpd.startup m p = .error { exit := .segv, told := [] } := by
  have svc := configured_ok.mpr ⟨crashes.memory, crashes.args, rfl⟩
  have proc := signalled_ok.mpr ⟨crashes.asRoot, crashes.signals, rfl⟩
  have log : detached m m.args.svconf { p with handlers := serving } = .error { exit := .segv, told := [] } := by
    rw [detached, logging, iwlogInit, crashes.logFile]
    rfl
  rw [Iwtftpd.startup, svc, proc]
  show detached _ _ _ >>= _ = _
  rw [log]
  rfl

/-- Both ends behind the service are fair. -/
theorem finish_fair (ok : Bool) : (finish ok).Fair ∧ (finish ok).exit ≠ .segv := by
  cases ok with
  | true => exact ⟨fair_success (by decide), nofun⟩
  | false => exact ⟨fair_ferr (.inl rfl) (by decide) [.iStartServer], nofun⟩

/-- However `main` ends before the service is entered, and whatever the service returns to it, it
ends fairly. On the way to the service it crashes exactly when the log cannot be opened by the time
it is needed.
Proof: every part of the startup fails fairly, and none but the log by a crash; the parts are bound
together by `fails_bind`. -/
theorem main_ends (m : Machine) (p : Process) :
    (∀ halt, startup m p = .error halt → halt.Fair) ∧
      (startup m p = .error { exit := .segv, told := [] } ↔ Crashes m p) ∧
      (∀ halt, startup m p = .error halt → halt.exit = .segv → Crashes m p) ∧
      ∀ en, startup m p = .ok en → ∀ host launch disk its, ∃ ok,
        main m host launch disk its p = finish ok ∧ (finish ok).Fair ∧ (finish ok).exit ≠ .segv := by
  have fails := startup_fails (m := m) (p := p)
  refine ⟨fun halt failed => (fails halt failed).1, ⟨fun failed => ?_, Crashes.startup⟩,
    fun halt failed => (fails halt failed).2, fun en started host launch disk its => ?_⟩
  · exact (fails _ failed).2 rfl
  · refine ⟨(iwtftpService { host with dspath := en.dspath } launch en.svsocks
      { dhead := [], disk := disk, faults := [], trace := [] } en.kernel its).ok, ?_, finish_fair _⟩
    rw [main, started]

/-! ## What `main` runs -/

/-- A descriptor in the table stands for a file. -/
theorem mem_descriptors {files : Files OpenFile} {fd : Int} (member : fd ∈ (descriptors files).opened) :
    ∃ n : Nat, fd = n ∧ files.at n ≠ none := by
  rw [descriptors, List.mem_toFinset, List.mem_map] at member
  obtain ⟨n, inside, rfl⟩ := member
  exact ⟨n, rfl, by simpa using (List.mem_filter.mp inside).2⟩

/-- The service that `main` enters is a run from an initial state on the root directory, and when
it is over nothing is open but what was open before `iwtftp_init`.

Proof: the sockets of `iwtftp_init` and the table of the daemon make a prepared loop, whose
iterations are a run of the service. What the loop holds when it is over is closed by
`iwtftp_exit`. -/
theorem main_serves (resolves : m.Resolves p.root) {en : Entered} (started : startup m p = .ok en)
    {wild : List Int}
    (answers : (m.boot 0).Permitted wild m.args.svconf.setting (descriptors en.proc.files))
    {launch : Launch} {epollfd : Int} (poll : launch.epollfd = some epollfd)
    (new : 0 ≤ epollfd ∧ en.kernel.Free epollfd) (rbuf : launch.rbuf.length = nwbufSize)
    {host : Host} (mounted : host.dspath = en.dspath) {ads : IWDS} (empty : ads.dhead = [])
    {its : List Iteration}
    (permitted : PermittedRun host wild (startLoop launch en.svsocks ads en.kernel epollfd) its) :
    host.dspath = [slash] ∧
      Reachable host ((startLoop launch en.svsocks ads en.kernel epollfd).iterations host its).1.server ∧
      (iwtftpService host launch en.svsocks ads en.kernel its).kernel.opened =
        (descriptors en.proc.files).opened := by
  obtain ⟨_, _, _, _, _, _, q, _, enters⟩ := startup_enters resolves started
  have files : en.proc.files = q.files := by rw [enters.proc]
  rw [files] at answers ⊢
  obtain ⟨holding, unwatched⟩ := iwtftpInit_holding answers (by rintro fd ⟨⟩)
  have made := enters.svsocks
  have kernel := enters.kernel
  rw [Machine.sockets] at made kernel
  rw [made, ← kernel] at holding
  rw [← kernel] at unwatched
  have prepared : Prepared (descriptors q.files).opened wild launch en.svsocks en.kernel := by
    refine ⟨?_, holding, unwatched, ?_, rbuf⟩
    · intro fd member
      obtain ⟨n, rfl, _⟩ := mem_descriptors member
      exact Int.natCast_nonneg n
    · intro fd opened
      rw [poll] at opened
      obtain rfl := Option.some.inj opened
      exact new
  have steady : Steady host _ _ wild (startLoop launch en.svsocks ads en.kernel epollfd) :=
    prepared.steady poll empty
  refine ⟨mounted.trans enters.dspath, ⟨_, startLoop_initial prepared empty epollfd, ?_⟩, ?_⟩
  · rw [(iterations_follows host _ its).server]
    exact Runs.reaches_exec (steady.iterations permitted).2.2
  · apply (iwtftpService_closes prepared empty _).1
    intro fd opened
    rw [poll] at opened
    obtain rfl := Option.some.inj opened
    exact permitted

/-! ## A start -/

/-- A machine with a directory for the datastore, on which every call succeeds. -/
def someMachine : Machine where
  memory := true
  args := { opts := [.dirpath (ascii "/srv")], ending := .finished, leftover := none }
  getAction := fun _ => true
  setAction := fun _ => true
  logFile := true
  logMemory := true
  detaching := { fork := .child, null := true, dup := fun _ => true, setsid := true }
  links := fun _ => none
  depth := 40
  realpath := fun path =>
    if path = ascii "/srv" then some [{ bytes := ascii "srv", plain := by decide, proper := by decide }] else none
  isDir := fun _ => true
  dsMemory := true
  boot := fun _ =>
    { someBoot with
      answers := fun family _ _ =>
        match family with
        | .inet => .bound 4
        | .inet6 => .bound 5 }
  getpwnam := fun name => some { name := name, uid := 65534, gid := 65534 }
  groups := fun pwd => [pwd.gid]
  permits := fun _ => true

/-- A process of root that was started from a terminal. -/
def someProcess : Process where
  files := { slots := [some (.other 0), some (.other 0), some (.other 0)] }
  handlers := fun _ => .default
  umask := 18
  leader := false
  root := []
  cwd := []
  uid := 0
  gid := 0
  groups := [0]

/-- The machine of the examples resolves paths as a file system does. -/
theorem someMachine_resolves : someMachine.Resolves someProcess.root := by
  constructor
  · intro path names found before inside
    rfl
  · intro path names found
    have one : names.length = 1 := by
      simp only [someMachine, Option.ite_none_right_eq_some, Option.some.injEq] at found
      rw [← found.2]
      rfl
    rw [one]
    decide

/-- It gives the server sockets the descriptors 4 and 5. -/
theorem someMachine_sockets (k : Kernel) : someMachine.sockets k = (some [4, 5], (k.grant 4).grant 5) := rfl

/-- It meets every condition of the startup. -/
theorem someMachine_cleared : Cleared someMachine someProcess where
  memory := ⟨rfl, rfl, rfl, rfl⟩
  args := ⟨rfl, rfl, by decide, by decide⟩
  asRoot := rfl
  signals := fun _ => ⟨rfl, rfl⟩
  logFile := rfl
  detaching := ⟨rfl, rfl, by decide, rfl⟩
  datastore := ⟨_, rfl, rfl⟩
  sockets := by
    intro k
    rw [someMachine_sockets]
    rintro ⟨⟩
  user := by
    rintro ⟨⟩
  permits := fun _ => rfl

/-- The daemon on this machine has `/srv` for its root. -/
theorem startup_confines_sample : ∃ en, startup someMachine someProcess = .ok en ∧ en.proc.root = [ascii "srv"] := by
  obtain ⟨enters, confines⟩ := startup_confines someMachine_resolves
  obtain ⟨en, started⟩ := enters.mpr someMachine_cleared
  obtain ⟨names, found, pwd, _, confined⟩ := confines en started
  obtain rfl := Option.some.inj found
  exact ⟨en, started, confined.root⟩

/-- The daemon on this machine, started with its three standard descriptors, is detached. -/
theorem startup_detaches_sample :
    ∃ en, startup someMachine someProcess = .ok en ∧ Detached en.logfd en.proc.files := by
  obtain ⟨en, started⟩ := someMachine_cleared.startup someMachine_resolves
  exact ⟨en, started, (startup_detaches someMachine_resolves started).1.mpr (by decide)⟩

/-- The service on this machine, after one iteration in which nothing arrives, leaves the
descriptors that `main` began with. -/
theorem main_serves_sample :
    ∃ en, startup someMachine someProcess = .ok en ∧
      (iwtftpService smallHost { someLaunch with epollfd := some 6 } en.svsocks (startOn fun _ => .absent).ads
        en.kernel [{ poll := .timeout, room := fun _ => true, tick := someTick }]).kernel.opened =
        (descriptors en.proc.files).opened := by
  obtain ⟨en, started⟩ := someMachine_cleared.startup someMachine_resolves
  obtain ⟨_, logfd, names, _, pwd, _, q, left, enters⟩ := startup_enters someMachine_resolves started
  have files : en.proc.files = q.files := by rw [enters.proc]
  have others := ((left.detaches rfl).1.mpr (by decide)).others
  have free : ∀ n, 4 ≤ n → n < 64 → ((n : Nat) : Int) ∉ (descriptors en.proc.files).opened := by
    intro n above below member
    obtain ⟨n', same, used⟩ := mem_descriptors member
    rw [files] at used
    have number : n' = n := by omega
    have log : someProcess.files.lowest = 3 := by decide
    exact used (others n' (by omega) (number ▸ below) (by omega))
  have kernel : en.kernel = ((descriptors en.proc.files).grant 4).grant 5 := by
    rw [enters.kernel, files]
    rfl
  have answers : (someMachine.boot 0).Permitted [] someMachine.args.svconf.setting (descriptors en.proc.files) := by
    constructor
    · intro ips asked _
      cases asked
      exact ⟨⟨by decide, free 4 (by decide) (by decide)⟩, trivial⟩
    · intro ips asked _
      cases asked
      refine ⟨⟨by decide, ?_⟩, trivial⟩
      show (5 : Int) ∉ insert 4 (descriptors en.proc.files).opened
      simpa using free 5 (by decide) (by decide)
  have poll : (0 : Int) ≤ 6 ∧ en.kernel.Free 6 := by
    refine ⟨by decide, ?_⟩
    show (6 : Int) ∉ en.kernel.opened
    rw [kernel]
    simpa using free 6 (by decide) (by decide)
  have permitted : PermittedRun smallHost []
      (startLoop { someLaunch with epollfd := some 6 } en.svsocks (startOn fun _ => .absent).ads en.kernel 6)
      [{ poll := .timeout, room := fun _ => true, tick := someTick }] := ⟨trivial, trivial⟩
  exact ⟨en, started, (main_serves someMachine_resolves started answers rfl poll List.length_replicate
    enters.dspath.symm rfl permitted).2.2⟩

end Iwtftpd
