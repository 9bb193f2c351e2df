import Iwtftpd.Lib.FileTable
import Iwtftpd.Lib.Paths
import Iwtftpd.Util

/-!
# The daemon detaches

`daemonize` on the files of the process. It keeps the log file and `/dev/null`,
closes what else is open below a limit, and makes the standard descriptors stand
for `/dev/null`. When the process was started without one of them, the log file
got its number, and `dup2` takes it away.
-/

namespace Iwtftpd

open FileTable

/-- What a descriptor of the process stands for. -/
inductive OpenFile where
  | log
  | null
  | other (n : Nat)
deriving DecidableEq

/-- A directory, by the names that lead to it. -/
abbrev Place := List Bytes

/-- The signals that the daemon handles, and those it ignores. -/
inductive Signal where
  | term | quit | hup
  | int | pipe | usr1 | usr2 | tstp | ttin | ttou
deriving DecidableEq

inductive Handler where
  | default
  | sigHandler
  | ignored
deriving DecidableEq

/-- The attributes of the process that the startup changes. -/
structure Process where
  files : Files OpenFile
  handlers : Signal → Handler
  umask : Nat
  leader : Bool
  root : Place
  cwd : Place
  uid : Nat
  gid : Nat
  groups : List Nat

/-- The status codes, those of verbose mode last. -/
inductive Statcode where
  | eDsFailInit | eDsFailSetchroot | eFailDaemonize | eFailExecChroot | eFailInitSignal
  | eFailMalloc | eFailService | eFailSetCredential | eFatalerr | eLogFailInit | eLogModerr
  | eOptionBad | eTftpFailInit | eUserUnknown
  | iNoasroot | iStartServer | iExitServer | iShowVer
  | evFailChdir | evFailChroot | evFailCreateSvconf | evFailDup2 | evFailFork
  | evFailInitgroups | evFailOpen | evFailSetgid | evFailSetsid | evFailSetuid | evFailSigaction
deriving DecidableEq

/-- The reports that appear in verbose mode only. -/
def Statcode.verbose : Statcode → Bool
  | .evFailChdir | .evFailChroot | .evFailCreateSvconf | .evFailDup2 | .evFailFork
  | .evFailInitgroups | .evFailOpen | .evFailSetgid | .evFailSetsid | .evFailSetuid
  | .evFailSigaction => true
  | _ => false

/-- Maximum number of descriptors. -/
abbrev iwFdMax : Nat := 64

inductive Fork where
  | failed
  | parent
  | child
deriving DecidableEq

/-- What the calls of `daemonize` answer. -/
structure Detaching where
  fork : Fork
  null : Bool
  dup : Nat → Bool
  setsid : Bool

/-- How `daemonize` ends; an error comes with what was reported. -/
inductive Daemonized where
  | exited
  | err (told : List Statcode)
  | ok (p : Process)

/-- `daemonize`. -/
def daemonize (k : Detaching) (excfd : Nat) (p : Process) : Daemonized :=
  match k.fork with
  | .failed => .err [.evFailFork]
  | .parent => .exited
  | .child =>
    if k.null then
      let (nullfd, files) := p.files.openNew .null
      let files := files.closeBelow iwFdMax fun fd => fd == excfd || fd == nullfd
      match files.dupAll k.dup nullfd [0, 1, 2] with
      | none => .err [.evFailDup2]
      | some files =>
        if k.setsid then .ok { p with files := files.close nullfd, umask := 0, leader := true }
        else .err [.evFailSetsid]
    else .err [.evFailOpen]

/-! ## What is left open -/

variable {k : Detaching} {excfd : Nat} {p p' : Process}

/-- The calls that must succeed. -/
structure Detaching.Granted (k : Detaching) : Prop where
  fork : k.fork = .child
  null : k.null = true
  dup : ∀ fd ∈ [0, 1, 2], k.dup fd = true
  setsid : k.setsid = true

/-- The files before `dup2`. -/
def Process.closed (excfd : Nat) (p : Process) : Files OpenFile :=
  (p.files.put p.files.lowest (some .null)).closeBelow iwFdMax
    fun fd => fd == excfd || fd == p.files.lowest

/-- `/dev/null` survives the loop that closes. -/
theorem closed_null (excfd : Nat) (p : Process) : (p.closed excfd).at p.files.lowest = some .null := by
  simp [Process.closed, at_closeBelow]

theorem daemonize_child (fork : k.fork = .child) (null : k.null = true) :
    daemonize k excfd p =
      match (p.closed excfd).dupAll k.dup p.files.lowest [0, 1, 2] with
      | none => .err [.evFailDup2]
      | some files =>
        if k.setsid then .ok { p with files := files.close p.files.lowest, umask := 0, leader := true }
        else .err [.evFailSetsid] := by
  simp only [daemonize, fork, null, if_true, Files.openNew, Process.closed]

/-- Besides the files `daemonize` changes the mask and the session. -/
structure Left (excfd : Nat) (p p' : Process) : Prop where
  rest : p' = { p with files := p'.files, umask := 0, leader := true }
  files : ∀ fd, p'.files.at fd =
    if fd = p.files.lowest then none
    else if fd < 3 then some .null
    else if fd < iwFdMax ∧ fd ≠ excfd then none
    else p.files.at fd

theorem daemonize_left (done : daemonize k excfd p = .ok p') : k.Granted ∧ Left excfd p p' := by
  cases fork : k.fork with
  | failed => simp [daemonize, fork] at done
  | parent => simp [daemonize, fork] at done
  | child =>
    cases null : k.null with
    | false => simp [daemonize, fork, null] at done
    | true =>
      rw [daemonize_child fork null] at done
      split at done
      · cases done
      · rename_i files dupped
        split at done
        · rename_i setsid
          obtain rfl := Daemonized.ok.inj done
          have source : (p.closed excfd).at p.files.lowest ≠ none := by
            rw [closed_null]
            rintro ⟨⟩
          refine ⟨⟨fork, null, (exists_dupAll_iff source).mp ⟨files, dupped⟩, setsid⟩, rfl, ?_⟩
          intro fd
          rw [at_close, at_dupAll dupped, closed_null, Process.closed, at_closeBelow, at_put]
          by_cases new : fd = p.files.lowest
          · simp [new]
          · have standard : fd ∈ [0, 1, 2] ↔ fd < 3 := by
              simp only [List.mem_cons, List.not_mem_nil, or_false]
              omega
            simp [new, standard]
        · cases done

/-- `daemonize` returns in the child exactly when its calls succeed. -/
theorem exists_daemonize_iff : (∃ p', daemonize k excfd p = .ok p') ↔ k.Granted := by
  constructor
  · rintro ⟨p', done⟩
    exact (daemonize_left done).1
  · intro granted
    have source : (p.closed excfd).at p.files.lowest ≠ none := by
      rw [closed_null]
      rintro ⟨⟩
    obtain ⟨files, dupped⟩ := (exists_dupAll_iff source).mpr granted.dup
    rw [daemonize_child granted.fork granted.null, dupped]
    exact ⟨_, if_pos granted.setsid⟩

/-- What a daemon should have open: `/dev/null` for the standard descriptors, its log, and
nothing else below the limit. -/
structure Detached (excfd : Nat) (files : Files OpenFile) : Prop where
  standard : ∀ fd < 3, files.at fd = some .null
  log : files.at excfd = some .log
  others : ∀ fd, 3 ≤ fd → fd < iwFdMax → fd ≠ excfd → files.at fd = none

/-- With the log opened last, the daemon is detached exactly when the process was started with
all of its standard descriptors. Otherwise the number of the log stands for `/dev/null`.
Descriptors from the limit on are left as they were. -/
theorem Left.detaches {before : Files OpenFile} (left : Left excfd p p')
    (logged : before.openNew .log = (excfd, p.files)) :
    (Detached excfd p'.files ↔ ∀ fd < 3, before.at fd ≠ none) ∧
      (¬ (∀ fd < 3, before.at fd ≠ none) → p'.files.at excfd = some .null) ∧
      (∀ fd, iwFdMax ≤ fd → fd ≠ excfd → p'.files.at fd = before.at fd) := by
  obtain ⟨number, opened⟩ := Prod.mk.inj logged
  have logAt : p.files.at excfd = some .log := by
    rw [← opened, at_put, number, if_pos rfl]
  have apart : excfd ≠ p.files.lowest := by
    intro same
    rw [same, at_lowest] at logAt
    cases logAt
  -- A number below that of the log was open.
  have below : ∀ fd < excfd, before.at fd ≠ none := by
    intro fd inside
    exact at_below (number ▸ inside)
  have free : before.at excfd = none := by
    rw [← number]
    exact at_lowest before
  have started : (∀ fd < 3, before.at fd ≠ none) ↔ 3 ≤ excfd := by
    constructor
    · intro all
      by_contra short
      exact all excfd (by omega) free
    · intro high fd inside
      exact below fd (by omega)
  have poll : 3 ≤ excfd → 3 ≤ p.files.lowest := by
    intro high
    by_contra short
    have open' : before.at p.files.lowest ≠ none := below _ (by omega)
    have new := at_lowest p.files
    rw [← opened, at_put, if_neg (by rw [opened]; omega), opened] at new
    exact open' new
  rw [started]
  refine ⟨⟨?_, ?_⟩, ?_, ?_⟩
  · intro detached
    by_contra short
    have lost := left.files excfd
    rw [if_neg apart, if_pos (by omega), detached.log] at lost
    cases lost
  · intro high
    have above := poll high
    constructor
    · intro fd inside
      rw [left.files, if_neg (by omega), if_pos inside]
    · rw [left.files, if_neg apart, if_neg (by omega), if_neg (by simp), logAt]
    · intro fd outside inside different
      rw [left.files]
      split
      · rfl
      · rw [if_neg (by omega), if_pos ⟨inside, different⟩]
  · intro short
    rw [left.files, if_neg apart, if_pos (by omega)]
  · intro fd outside different
    have limit : iwFdMax = 64 := rfl
    have same : p.files.at fd = before.at fd := by
      rw [← opened, at_put, number, if_neg different]
    rw [left.files]
    split
    · rename_i new
      rw [← same, new, at_lowest]
    · rw [if_neg (by omega), if_neg (by omega), same]

end Iwtftpd
