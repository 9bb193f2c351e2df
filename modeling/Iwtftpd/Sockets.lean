import Iwtftpd.Interfaces
import Iwtftpd.Lib.Descriptors

/-!
# The sockets of the server

`create_socket`, `iwtftp_init` and the end of `iwtftp_exit` on the descriptor
table of the process. When `getaddrinfo` fails, `create_socket` closes a
variable that was never assigned. What that closes depends on the stack: the
number is a part of the answer, and a number that is open is lost to whoever
holds it.
-/

namespace Iwtftpd

open Descriptors

/-- The descriptors of the process, those that stdio holds for its streams apart. What is free
here is at least what the kernel may give out. -/
abbrev Kernel := Fds Int

inductive Family where
  | inet
  | inet6
deriving DecidableEq

/-- What the calls that `create_socket` makes answer. `noAddress` carries what the variable
`sock` held before it was assigned. -/
inductive Creation where
  | noAddress (sock : Int)
  | noSocket
  | noOption (sock : Int)
  | noBind (sock : Int)
  | bound (sock : Int)
deriving DecidableEq

/-- The answers for a family, a node and a service. -/
abbrev Replies := Family → Option Bytes → Option Bytes → Creation

/-- The end of `create_socket`: what it returns and what it leaves open. -/
def Creation.finish (k : Kernel) : Creation → Int × Kernel
  | .noAddress sock => (-1, if sock = -1 then k else k.close sock)
  | .noSocket => (-1, k)
  | .noOption sock => (-1, (k.grant sock).close sock)
  | .noBind sock => (-1, (k.grant sock).close sock)
  | .bound sock => (sock, k.grant sock)

/-- The node that `getaddrinfo` is asked for. -/
def nodeOf (ip : Bytes) : Option Bytes := if ip = ascii "ANY" then none else some ip

def createSocket (answers : Replies) (family : Family) (ip : Bytes) (service : Option Bytes)
    (k : Kernel) : Int × Kernel :=
  (answers family (nodeOf ip) service).finish k

/-! ## What the kernel may answer -/

/-- The kernel gives out a descriptor that is not open. -/
def Creation.Possible (k : Kernel) : Creation → Prop
  | .noAddress _ => True
  | .noSocket => True
  | .noOption sock => 0 ≤ sock ∧ k.Free sock
  | .noBind sock => 0 ≤ sock ∧ k.Free sock
  | .bound sock => 0 ≤ sock ∧ k.Free sock

/-- The variable that was never assigned holds one of the given values, and no descriptor that
is open. -/
def Creation.Harmless (wild : List Int) (k : Kernel) : Creation → Prop
  | .noAddress sock => sock ∈ wild ∧ k.Free sock
  | _ => True

instance Creation.possibleDecidable (k : Kernel) (c : Creation) : Decidable (c.Possible k) := by
  cases c <;> unfold Creation.Possible <;> infer_instance

instance Creation.harmlessDecidable (wild : List Int) (k : Kernel) (c : Creation) :
    Decidable (c.Harmless wild k) := by
  cases c <;> unfold Creation.Harmless <;> infer_instance

/-- How `create_socket` ends: with a new descriptor, or with the table as it was but for the
stray close. -/
inductive Created (wild : List Int) (k : Kernel) : Int × Kernel → Prop where
  | made (sock : Int) (valid : 0 ≤ sock) (free : k.Free sock) : Created wild k (sock, k.grant sock)
  | failed (k' : Kernel) (opened : k'.opened = k.opened) (watched : k'.watched = k.watched)
      (stray : ∀ fd ∈ k'.stray, fd ∈ k.stray ∨ fd ∈ wild) : Created wild k (-1, k')

theorem Creation.finish_created {wild : List Int} {k : Kernel} {c : Creation}
    (possible : c.Possible k) (harmless : c.Harmless wild k) : Created wild k (c.finish k) := by
  have same : Created wild k (-1, k) := .failed k rfl rfl fun _ => .inl
  cases c with
  | noSocket => exact same
  | bound sock => exact .made sock possible.1 possible.2
  | noOption sock =>
    rw [Creation.finish, close_grant possible.2]
    exact same
  | noBind sock =>
    rw [Creation.finish, close_grant possible.2]
    exact same
  | noAddress sock =>
    rw [Creation.finish]
    split
    · exact same
    · obtain ⟨known, outside⟩ : sock ∈ wild ∧ sock ∉ k.opened := harmless
      have unwatched : sock ∉ k.watched := fun member => outside (k.within member)
      apply Created.failed
      · rw [close_opened, Finset.erase_eq_of_notMem outside]
      · rw [close_watched, Finset.erase_eq_of_notMem unwatched]
      · intro fd
        rw [close_stray_of_notMem outside, List.mem_cons]
        rintro (rfl | before)
        · exact .inr known
        · exact .inl before

/-! ## The server sockets -/

/-- Maximum number of server sockets. -/
abbrev svsocksMax : Nat := 2

/-- Port number. -/
def tftpPort : Bytes := ascii "69"

/-- The arguments of `iwtftp_init`. -/
structure Setting where
  ipv4 : Bool
  ipv6 : Bool
  ifname : Option Bytes

/-- What the calls of `iwtftp_init` answer: whether there is memory for the instance, what an
uninitialised `struct ifinet` holds, the addresses of the interfaces and what sockets are made. -/
structure Boot where
  memory : Bool
  memory4 : Nat → UInt8
  memory6 : Nat → UInt8
  ifaddrs : Option (List Ifaddrs)
  answers : Replies

/-- The string in an array of `struct ifinet`. -/
def addressIn (m : Buf) (size : Nat) : Bytes := m.read 0 (m.strlen 0 size)

/-- The addresses that the server sockets are made for, when every family that is asked for
has one. -/
def serverAddresses (boot : Boot) (set : Setting) : Option (Bytes × Bytes) :=
  match set.ifname with
  | none => some (ascii "ANY", ascii "ANY")
  | some ifname =>
    match getIfaddress boot.memory4 boot.memory6 ifname boot.ifaddrs with
    | none => none
    | some iaddr =>
      if set.ipv4 = true ∧ iaddr.ipv4addr.cells 0 = 0 then none
      else if set.ipv6 = true ∧ iaddr.ipv6addr.cells 0 = 0 then none
      else some (addressIn iaddr.ipv4addr ipv4AddrSize, addressIn iaddr.ipv6addr ipv6AddrSize)

/-- The slots of `svsocks` with the descriptors. -/
structure Servers where
  svsocks : List Int
  kernel : Kernel

/-- A server socket in the first slot that is free. -/
def Servers.add (answers : Replies) (family : Family) (ip : Bytes) (sv : Servers) : Servers :=
  let made := createSocket answers family ip (some tftpPort) sv.kernel
  { svsocks := sv.svsocks.set (sv.svsocks.findIdx (· < 0)) made.1, kernel := made.2 }

/-- The first call of `create_socket` in `iwtftp_init`. -/
def openIpv4 (boot : Boot) (set : Setting) (ip : Bytes) (k : Kernel) : Servers :=
  let sv : Servers := { svsocks := List.replicate svsocksMax (-1), kernel := k }
  if set.ipv4 then sv.add boot.answers .inet ip else sv

/-- The second call of `create_socket` in `iwtftp_init`. -/
def openIpv6 (boot : Boot) (set : Setting) (ip : Bytes) (sv : Servers) : Servers :=
  if set.ipv6 then sv.add boot.answers .inet6 ip else sv

def openServers (boot : Boot) (set : Setting) (ips : Bytes × Bytes) (k : Kernel) : Servers :=
  openIpv6 boot set ips.2 (openIpv4 boot set ips.1 k)

/-- `iwtftp_init`: the server sockets of the instance, or `none` for NULL. -/
def iwtftpInit (boot : Boot) (set : Setting) (k : Kernel) : Option (List Int) × Kernel :=
  if boot.memory then
    match serverAddresses boot set with
    | none => (none, k)
    | some ips =>
      let sv := openServers boot set ips k
      if sv.svsocks.any (0 ≤ ·) then (some sv.svsocks, sv.kernel)
      else (none, sv.kernel.closeAll (sv.svsocks.filter (0 ≤ ·)))
  else (none, k)

/-- The loops over `svsocks` at the end of `iwtftp_service` and `iwtftp_exit`. -/
def closeServers (svsocks : List Int) (k : Kernel) : Kernel :=
  k.closeAll (svsocks.filter (· ≠ -1))

/-! ## What is open -/

/-- The sockets among the slots. -/
def held (socks : List Int) : List Int := socks.filter (· ≠ -1)

/-- The slots hold distinct descriptors, and besides those given nothing else is open. -/
structure Holding (base : Finset Int) (wild : List Int) (socks : List Int) (k : Kernel) : Prop where
  valid : ∀ fd ∈ socks, fd = -1 ∨ 0 ≤ fd
  once : (held socks).Nodup
  apart : ∀ fd ∈ held socks, fd ∉ base
  opened : k.opened = base ∪ (held socks).toFinset
  stray : ∀ fd ∈ k.stray, fd = -1 ∨ fd ∈ wild

variable {base : Finset Int} {wild socks : List Int} {k k' : Kernel}

theorem mem_held {fd : Int} : fd ∈ held socks ↔ fd ∈ socks ∧ fd ≠ -1 := by
  simp [held]

theorem held_append (socks others : List Int) : held (socks ++ others) = held socks ++ held others :=
  List.filter_append socks others

theorem held_of_valid {fd : Int} (valid : 0 ≤ fd) (socks : List Int) :
    held (fd :: socks) = fd :: held socks := by
  have socket : fd ≠ -1 := by omega
  simp [held, socket]

theorem held_none (socks : List Int) : held (-1 :: socks) = held socks := rfl

theorem Holding.congr (holding : Holding base wild socks k) (opened : k'.opened = k.opened)
    (stray : ∀ fd ∈ k'.stray, fd ∈ k.stray ∨ fd ∈ wild) : Holding base wild socks k' := by
  refine ⟨holding.valid, holding.once, holding.apart, opened.trans holding.opened, ?_⟩
  intro fd member
  rcases stray fd member with before | new
  · exact holding.stray fd before
  · exact .inr new

/-- A socket that is made takes a slot. -/
theorem Holding.grant (holding : Holding base wild socks k) {fd : Int} (valid : 0 ≤ fd)
    (free : k.Free fd) {socks' : List Int} (taken : (fd :: held socks).Perm (held socks'))
    (slots : ∀ fd' ∈ socks', fd' = fd ∨ fd' ∈ socks) : Holding base wild socks' (k.grant fd) := by
  have outside : fd ∉ base ∧ fd ∉ held socks := by
    have unopened : fd ∉ k.opened := free
    rw [holding.opened, Finset.mem_union, List.mem_toFinset, not_or] at unopened
    exact unopened
  constructor
  · intro fd' member
    rcases slots fd' member with rfl | before
    · exact .inr valid
    · exact holding.valid fd' before
  · rw [← taken.nodup_iff, List.nodup_cons]
    exact ⟨outside.2, holding.once⟩
  · intro fd' member
    rcases List.mem_cons.mp (taken.mem_iff.mpr member) with rfl | before
    · exact outside.1
    · exact holding.apart fd' before
  · rw [grant_opened, holding.opened, ← List.toFinset_eq_of_perm _ _ taken, List.toFinset_cons,
      Finset.union_insert]
  · exact holding.stray

/-- Closing some of the slots leaves the others. Every close but those of -1 hits a descriptor
that is open. -/
theorem Holding.release (holding : Holding base wild socks k) (proper : (-1 : Int) ∉ base)
    {closed kept : List Int} (split : socks.Perm (closed ++ kept)) :
    Holding base wild kept (k.closeAll closed) := by
  have parts : (held socks).Perm (held closed ++ held kept) := by
    rw [← held_append]
    exact split.filter _
  have distinct : (held closed).Nodup ∧ (held kept).Nodup ∧ (held closed).Disjoint (held kept) := by
    rw [← List.nodup_append', ← parts.nodup_iff]
    exact holding.once
  have apart : ∀ fd ∈ base, fd ∉ closed := by
    intro fd inside member
    have socket : fd ≠ -1 := fun none => proper (none ▸ inside)
    apply holding.apart fd _ inside
    exact parts.mem_iff.mpr (List.mem_append_left _ (mem_held.mpr ⟨member, socket⟩))
  have unopened : (-1 : Int) ∉ k.opened := by
    rw [holding.opened, Finset.mem_union, List.mem_toFinset, mem_held, not_or]
    exact ⟨proper, fun both => both.2 rfl⟩
  have inside : ∀ fd ∈ held closed, fd ∈ k.opened := by
    intro fd member
    rw [holding.opened, Finset.mem_union, List.mem_toFinset]
    exact .inr (parts.mem_iff.mpr (List.mem_append_left _ member))
  have opens : closed.filter (fun fd => fd ∈ k.opened) = held closed := by
    apply List.filter_congr
    intro fd member
    by_cases socket : fd = -1
    · subst socket
      simp [unopened]
    · simp [inside fd (mem_held.mpr ⟨member, socket⟩), socket]
  constructor
  · intro fd member
    exact holding.valid fd (split.mem_iff.mpr (List.mem_append_right closed member))
  · exact distinct.2.1
  · intro fd member
    exact holding.apart fd (parts.mem_iff.mpr (List.mem_append_right _ member))
  · ext fd
    rw [closeAll_opened, holding.opened, Finset.mem_sdiff, Finset.mem_union, List.mem_toFinset,
      List.mem_toFinset, parts.mem_iff, List.mem_append, Finset.mem_union, List.mem_toFinset]
    constructor
    · rintro ⟨inBase | inClosed | inKept, outside⟩
      · exact .inl inBase
      · exact absurd (mem_held.mp inClosed).1 outside
      · exact .inr inKept
    · rintro (inBase | inKept)
      · exact ⟨.inl inBase, apart fd inBase⟩
      · refine ⟨.inr (.inr inKept), ?_⟩
        intro member
        exact distinct.2.2 (mem_held.mpr ⟨member, (mem_held.mp inKept).2⟩) inKept
  · intro fd member
    rw [closeAll_stray k closed (opens ▸ distinct.1), List.mem_append, List.mem_reverse,
      List.mem_filter] at member
    rcases member with ⟨inClosed, outside⟩ | before
    · have missed : fd ∉ k.opened := by simpa using outside
      by_contra neither
      rw [not_or] at neither
      exact missed (inside fd (mem_held.mpr ⟨inClosed, neither.1⟩))
    · exact holding.stray fd before

/-- Closing every slot leaves what was open besides, and closes nothing twice. -/
theorem Holding.closeAll (holding : Holding base wild socks k) :
    (k.closeAll (held socks)).opened = base ∧ (k.closeAll (held socks)).stray = k.stray := by
  constructor
  · rw [closeAll_opened, holding.opened, Finset.union_sdiff_right, Finset.sdiff_eq_self_iff_disjoint,
      Finset.disjoint_left]
    intro fd inBase member
    exact holding.apart fd (List.mem_toFinset.mp member) inBase
  · have inside : ∀ fd ∈ held socks, fd ∈ k.opened := by
      intro fd member
      rw [holding.opened, Finset.mem_union, List.mem_toFinset]
      exact .inr member
    have all : (held socks).filter (fun fd => fd ∈ k.opened) = held socks :=
      List.filter_eq_self.mpr fun fd member => decide_eq_true (inside fd member)
    have none : (held socks).filter (fun fd => fd ∉ k.opened) = [] :=
      List.filter_eq_nil_iff.mpr fun fd member => by simpa using inside fd member
    rw [closeAll_stray k (held socks) (all.symm ▸ holding.once), none]
    rfl

end Iwtftpd
