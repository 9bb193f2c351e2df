import Iwtftpd.Util

/-!
# The configuration

`create_svconf` and `set_svconf` on the options that popt has found on the command
line. Three options are handed to the loop of `set_svconf`; the others are stored
by popt where their table entries point. `-4` and `-6` each clear the bit of the
other family, so both together leave none.
-/

namespace Iwtftpd

/-- The families of a configuration. -/
structure Ipver where
  ipv4 : Bool
  ipv6 : Bool
deriving DecidableEq

/-- Default using IPv4 and IPv6. -/
def defaultIpver : Ipver where
  ipv4 := true
  ipv6 := true

/-- Default user of process. -/
def defaultUser : Bytes := ascii "nobody"

/-- `struct svconf`. -/
structure Svconf where
  ipver : Ipver
  ifname : Option Bytes
  datastore : Option Bytes
  user : Option Bytes
  verbose : Bool
deriving DecidableEq

/-- `create_svconf`, or `none` when there is no memory. -/
def createSvconf (memory : Bool) : Option Svconf :=
  if memory then
    some { ipver := ⟨false, false⟩, ifname := none, datastore := none, user := none, verbose := false }
  else none

/-- An option of the command line. -/
inductive Opt where
  | ipv4
  | ipv6
  | netdev (name : Bytes)
  | dirpath (path : Bytes)
  | uname (name : Bytes)
  | verbose
  | version
deriving DecidableEq

/-- How popt comes to an end: at the end of the options, at a bad one, or at the one that
makes it show its help and exit. -/
inductive PoptEnd where
  | finished
  | bad
  | help
deriving DecidableEq

/-- What popt makes of the command line. -/
structure Popt where
  opts : List Opt
  ending : PoptEnd
  leftover : Option Bytes

/-- The variables of `set_svconf`. -/
structure Parsing where
  psv : Svconf
  useipver : Ipver
  verbose : Bool
  showver : Bool

/-- One option, as popt and the loop handle it. -/
def Parsing.opt (s : Parsing) : Opt → Parsing
  | .ipv4 => { s with useipver := { s.useipver with ipv6 := false } }
  | .ipv6 => { s with useipver := { s.useipver with ipv4 := false } }
  | .netdev name => { s with psv := { s.psv with ifname := some name } }
  | .dirpath path => { s with psv := { s.psv with datastore := some path } }
  | .uname name => { s with psv := { s.psv with user := some name } }
  | .verbose => { s with verbose := true }
  | .version => { s with showver := true }

/-- What `set_svconf` returns, or that popt has left the program. -/
inductive Configured where
  | help
  | showVer
  | err
  | ok (psv : Svconf)
deriving DecidableEq

/-- `set_svconf`. -/
def setSvconf (psv : Svconf) (args : Popt) : Configured :=
  let s := args.opts.foldl Parsing.opt
    { psv := psv, useipver := defaultIpver, verbose := false, showver := false }
  match args.ending, args.leftover with
  | .help, _ => .help
  | .bad, _ => .err
  | .finished, some _ => .err
  | .finished, none =>
    if s.showver then .showVer
    else if s.useipver = ⟨false, false⟩ then .err
    else .ok { s.psv with
      ipver := s.useipver
      user := some (s.psv.user.getD defaultUser)
      verbose := s.verbose }

/-! ## What the options come to -/

/-- The value that was given last. -/
def lastOf (f : Opt → Option Bytes) (opts : List Opt) : Option Bytes := opts.reverse.findSome? f

def Opt.ifname : Opt → Option Bytes
  | .netdev name => some name
  | _ => none

def Opt.datastore : Opt → Option Bytes
  | .dirpath path => some path
  | _ => none

def Opt.user : Opt → Option Bytes
  | .uname name => some name
  | _ => none

/-- The order of the options matters only among those that carry the same value. -/
theorem parsed_opts (s : Parsing) (opts : List Opt) :
    opts.foldl Parsing.opt s =
      { psv :=
          { s.psv with
            ifname := (lastOf Opt.ifname opts).or s.psv.ifname
            datastore := (lastOf Opt.datastore opts).or s.psv.datastore
            user := (lastOf Opt.user opts).or s.psv.user }
        useipver :=
          { ipv4 := s.useipver.ipv4 && !decide (Opt.ipv6 ∈ opts)
            ipv6 := s.useipver.ipv6 && !decide (Opt.ipv4 ∈ opts) }
        verbose := s.verbose || decide (Opt.verbose ∈ opts)
        showver := s.showver || decide (Opt.version ∈ opts) } := by
  induction opts generalizing s with
  | nil => simp [lastOf]
  | cons first rest inductionHypothesis =>
    rw [List.foldl_cons, inductionHypothesis]
    cases first <;>
      simp [Parsing.opt, lastOf, List.findSome?_append, Opt.ifname, Opt.datastore, Opt.user]

/-- A command line that starts the server. -/
structure Popt.Accepted (args : Popt) : Prop where
  finished : args.ending = .finished
  leftover : args.leftover = none
  version : Opt.version ∉ args.opts
  family : ¬ (Opt.ipv4 ∈ args.opts ∧ Opt.ipv6 ∈ args.opts)

/-- The configuration of a command line. -/
def Popt.svconf (args : Popt) : Svconf where
  ipver := { ipv4 := decide (Opt.ipv6 ∉ args.opts), ipv6 := decide (Opt.ipv4 ∉ args.opts) }
  ifname := lastOf Opt.ifname args.opts
  datastore := lastOf Opt.datastore args.opts
  user := some ((lastOf Opt.user args.opts).getD defaultUser)
  verbose := decide (Opt.verbose ∈ args.opts)

/-- `set_svconf` accepts a command line without leftovers that asks for a family, and the last
value of each option counts. -/
theorem setSvconf_ok_iff {psv svc : Svconf} (new : createSvconf true = some psv) (args : Popt) :
    setSvconf psv args = .ok svc ↔ args.Accepted ∧ svc = args.svconf := by
  obtain rfl := Option.some.inj new
  rw [setSvconf, parsed_opts]
  constructor
  · intro accepted
    split at accepted
    · cases accepted
    · cases accepted
    · cases accepted
    · rename_i finished leftover
      split at accepted
      · cases accepted
      · rename_i version
        split at accepted
        · cases accepted
        · rename_i family
          refine ⟨⟨finished, leftover, by simpa using version, ?_⟩, ?_⟩
          · rintro ⟨four, six⟩
            exact family (by simp [defaultIpver, four, six])
          · have same := Configured.ok.inj accepted
            simpa [Popt.svconf, defaultIpver] using same.symm
  · rintro ⟨accepted, rfl⟩
    have family : ¬ (Opt.ipv6 ∈ args.opts ∧ Opt.ipv4 ∈ args.opts) := fun both => accepted.family both.symm
    rw [accepted.finished, accepted.leftover]
    simp [accepted.version, defaultIpver, Popt.svconf, family]

end Iwtftpd
