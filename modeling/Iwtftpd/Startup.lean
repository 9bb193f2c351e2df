import Iwtftpd.Daemonize
import Iwtftpd.Lifetime
import Iwtftpd.Svconf

/-!
# The start of the daemon

`main` up to the call of `iwtftp_service`, and around it. The server sockets are
made while the process is root and sees the whole tree; then the datastore becomes
its root, and last it takes the identity of a user, the groups before the user,
which could not be done in the other order. What the process opens from then on
by a name lies in the datastore, wherever the links in it point.

The kernel refuses some calls to a process that is not root. Beyond that its
answers, and those of the C library, are the machine's.
-/

namespace Iwtftpd

open Descriptors FileTable Paths

/-! ## Places and paths -/

/-- A name of a file in its directory. -/
structure FileName where
  bytes : Bytes
  plain : slash ∉ bytes
  proper : bytes ≠ [] ∧ bytes ≠ ascii "." ∧ bytes ≠ ascii ".."

/-- What the kernel makes of a component of a path. -/
def component (name : Bytes) : Step Bytes :=
  if name = [] ∨ name = ascii "." then .stay
  else if name = ascii ".." then .up
  else .down name

def pathSteps (path : Bytes) : List (Step Bytes) := (path.splitOn slash).map component

/-- The text that `realpath` writes. -/
def pathText (names : List FileName) : Bytes :=
  if names.isEmpty then [slash] else names.flatMap fun n => slash :: n.bytes

/-- The place that names lead to from the root. -/
def placeOf (names : List FileName) : Place := names.map FileName.bytes

/-! ## The machine -/

/-- What `getpwnam` finds. -/
structure Passwd where
  name : Bytes
  uid : Nat
  gid : Nat

/-- The calls that the kernel may refuse to root, too. -/
inductive Syscall where
  | chroot
  | chdir
  | setgid
  | initgroups
  | setuid

/-- What the machine answers while the daemon starts. The answers for the sockets depend on the
user who asks, and `depth` bounds the steps of a path. -/
structure Machine where
  memory : Bool
  args : Popt
  getAction : Signal → Bool
  setAction : Signal → Bool
  logFile : Bool
  logMemory : Bool
  detaching : Detaching
  links : Place → Option (Link Bytes)
  depth : Nat
  realpath : Bytes → Option (List FileName)
  isDir : Place → Bool
  dsMemory : Bool
  boot : Nat → Boot
  getpwnam : Bytes → Option Passwd
  groups : Passwd → List Nat
  permits : Syscall → Bool

/-- Where a path leads the process. -/
def Machine.lookup (m : Machine) (p : Process) (path : Bytes) : Option Place :=
  follow p.root m.links m.depth (if path.head? = some slash then p.root else p.cwd) (pathSteps path)

/-! ## The functions that `main` calls -/

/-- The loop of `init_signal`, from the last signal of the list to the first. -/
def setSignals (m : Machine) (func : Handler) :
    List Signal → (Signal → Handler) → Except (List Statcode) (Signal → Handler)
  | [], handlers => .ok handlers
  | sig :: rest, handlers =>
    if m.getAction sig && m.setAction sig then
      setSignals m func rest (Function.update handlers sig func)
    else .error [.evFailSigaction]

/-- `init_signal`. -/
def initSignal (m : Machine) (siglist : List Signal) (func : Handler) (handlers : Signal → Handler) :
    Except (List Statcode) (Signal → Handler) :=
  setSignals m func siglist.reverse handlers

/-- `struct iwlog`. -/
structure IwLog where
  fverbose : Bool
  logfd : Nat

inductive LogInit where
  | segv
  | err
  | ok (alog : IwLog) (files : Files OpenFile)

/-- `iwlog_init`. When the file cannot be opened, the report asks an object that does not
exist yet whether it is verbose. -/
def iwlogInit (m : Machine) (verbose : Bool) (files : Files OpenFile) : LogInit :=
  if m.logFile then
    let (fd, files) := files.openNew .log
    if m.logMemory then .ok { fverbose := verbose, logfd := fd } files else .err
  else .segv

/-- `iwlog_getfd`. -/
def iwlogGetfd (alog : Option IwLog) : Option Nat := alog.map IwLog.logfd

/-- Default path of the datastore. -/
def defaultDatastore : Bytes := ascii "/tftpboot"

/-- `iwds_init`: the path of the datastore, or `none` for NULL. -/
def iwdsInit (m : Machine) (p : Process) (datastore : Option Bytes) : Option Bytes :=
  match m.realpath (datastore.getD defaultDatastore) with
  | none => none
  | some names => if m.isDir (p.root ++ placeOf names) && m.dsMemory then some (pathText names) else none

/-- `exec_chroot`. -/
def execChroot (m : Machine) (dirpath : Bytes) (p : Process) : Except (List Statcode) Process :=
  match if p.uid = 0 ∧ m.permits .chroot then m.lookup p dirpath else none with
  | none => .error [.evFailChroot]
  | some place =>
    let p := { p with root := place }
    match if m.permits .chdir then m.lookup p [slash] else none with
    | none => .error [.evFailChdir]
    | some place => .ok { p with cwd := place }

/-- `iwds_set_chroot` stores a slash and a terminator over the path. -/
def iwdsSetChroot (dspath : Option Bytes) : Option Bytes :=
  dspath.map fun text => cstr ([slash, 0] ++ text.drop 2)

/-- `set_credential`. -/
def setCredential (m : Machine) (pwd : Passwd) (p : Process) : Except (List Statcode) Process :=
  if (p.uid = 0 ∨ pwd.gid = p.gid) ∧ m.permits .setgid then
    let p := { p with gid := pwd.gid }
    if p.uid = 0 ∧ m.permits .initgroups then
      let p := { p with groups := m.groups pwd }
      if (p.uid = 0 ∨ pwd.uid = p.uid) ∧ m.permits .setuid then .ok { p with uid := pwd.uid }
      else .error [.evFailSetuid]
    else .error [.evFailInitgroups]
  else .error [.evFailSetgid]

/-! ## `main` -/

abbrev exOk : Nat := 0
abbrev exUsage : Nat := 64
abbrev exSoftware : Nat := 70
abbrev exOserr : Nat := 71

inductive Exit where
  | code (n : Nat)
  | parent
  | segv
deriving DecidableEq

/-- The end of the program and what `main` and its functions have reported. -/
structure Halt where
  exit : Exit
  told : List Statcode

/-- The end of `main` that the label `ferr` marks. -/
def Halt.ferr (exitval : Nat) (told : List Statcode) : Halt where
  exit := .code exitval
  told := if exitval ≠ exUsage then told ++ [.eFatalerr] else told

/-- A call of `main` that fails with a report and an exit value. -/
def demand {α : Type} (x : Except (List Statcode) α) (why : Statcode) (exitval : Nat) : Except Halt α :=
  match x with
  | .error told => .error (.ferr exitval (told ++ [why]))
  | .ok a => .ok a

/-- A call that returns NULL or -1 without a report of this module. -/
def orErr {α : Type} : Option α → Except (List Statcode) α
  | none => .error []
  | some a => .ok a

def siglist : List Signal := [.term, .quit, .hup]

def ignSiglist : List Signal := [.int, .pipe, .usr1, .usr2, .tstp, .ttin, .ttou]

/-- The arguments of `iwtftp_init`. -/
def Svconf.setting (svc : Svconf) : Setting where
  ipv4 := svc.ipver.ipv4
  ipv6 := svc.ipver.ipv6
  ifname := svc.ifname

/-- The descriptors that are open. -/
def descriptors (files : Files OpenFile) : Kernel where
  opened := (((List.range files.slots.length).filter fun fd => files.at fd ≠ none).map Int.ofNat).toFinset
  watched := ∅
  stray := []
  within := Finset.empty_subset _

/-- What `main` has when it calls `iwtftp_service`. -/
structure Entered where
  proc : Process
  logfd : Nat
  dspath : Bytes
  svsocks : List Int
  kernel : Kernel

/-- The configuration object. -/
def created (m : Machine) : Except Halt Svconf :=
  match createSvconf m.memory with
  | none => .error (.ferr exSoftware [.eFailMalloc, .evFailCreateSvconf])
  | some svc => .ok svc

/-- The options. -/
def configured (m : Machine) : Except Halt Svconf := do
  let svc ← created m
  match setSvconf svc m.args with
  | .help => .error { exit := .code exOk, told := [] }
  | .showVer => .error { exit := .code exOk, told := [.iShowVer] }
  | .err => .error (.ferr exUsage [.eOptionBad])
  | .ok svc => .ok svc

/-- The signals, for a process of root. -/
def signalled (m : Machine) (p : Process) : Except Halt Process := do
  if p.uid ≠ 0 then .error (.ferr exUsage [.iNoasroot])
  else
    let handlers ← demand (initSignal m siglist .sigHandler p.handlers) .eFailInitSignal exOserr
    let handlers ← demand (initSignal m ignSiglist .ignored handlers) .eFailInitSignal exOserr
    .ok { p with handlers := handlers }

/-- The log. -/
def logging (m : Machine) (svc : Svconf) (p : Process) : Except Halt (IwLog × Files OpenFile) :=
  match iwlogInit m svc.verbose p.files with
  | .segv => .error { exit := .segv, told := [] }
  | .err => .error (.ferr exSoftware [.eLogFailInit])
  | .ok alog files => .ok (alog, files)

/-- The log, and the process in the background. -/
def detached (m : Machine) (svc : Svconf) (p : Process) : Except Halt (Nat × Process) := do
  let (alog, files) ← logging m svc p
  let logfd ← demand (orErr (iwlogGetfd (some alog))) .eLogModerr exSoftware
  match daemonize m.detaching logfd { p with files := files } with
  | .exited => .error { exit := .parent, told := [] }
  | .err told => .error (.ferr exOserr (told ++ [.eFailDaemonize]))
  | .ok p => .ok (logfd, p)

/-- `main` up to the call of `iwtftp_service`. -/
def startup (m : Machine) (p : Process) : Except Halt Entered := do
  let svc ← configured m
  let p ← signalled m p
  let (logfd, p) ← detached m svc p
  let dspath ← demand (orErr (iwdsInit m p svc.datastore)) .eDsFailInit exSoftware
  let init := iwtftpInit (m.boot p.uid) svc.setting (descriptors p.files)
  let svsocks ← demand (orErr init.1) .eTftpFailInit exSoftware
  let pwd ← demand (orErr (svc.user.bind m.getpwnam)) .eUserUnknown exOserr
  let p ← demand (execChroot m dspath p) .eFailExecChroot exOserr
  let dspath ← demand (orErr (iwdsSetChroot (some dspath))) .eDsFailSetchroot exSoftware
  let p ← demand (setCredential m pwd p) .eFailSetCredential exOserr
  .ok { proc := p, logfd := logfd, dspath := dspath, svsocks := svsocks, kernel := init.2 }

/-- The end of `main` once `iwtftp_service` has returned: `IW_OK`, or `IW_ERR`. -/
def finish (ok : Bool) : Halt :=
  if ok then { exit := .code exOk, told := [.iStartServer, .iExitServer] }
  else .ferr exSoftware [.iStartServer, .eFailService]

/-- `main`, with what the service finds and what happens while it runs. -/
def main (m : Machine) (host : Host) (launch : Launch) (disk : Bytes → FileNode) (its : List Iteration)
    (p : Process) : Halt :=
  match startup m p with
  | .error halt => halt
  | .ok en =>
    let ads : IWDS := { dhead := [], disk := disk, faults := [], trace := [] }
    finish (iwtftpService { host with dspath := en.dspath } launch en.svsocks ads en.kernel its).ok

end Iwtftpd
