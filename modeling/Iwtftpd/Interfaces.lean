import Iwtftpd.JoinPath

/-!
# The addresses of an interface

`get_ifaddress` over the two arrays of `struct ifinet`. The loop stores every
address of the interface into the same array, one over the other, so at its end
an array holds the last of them; what a longer address left behind a shorter one
lies behind the terminator. An IPv6 address is extended by the name of the
interface with `strncpy`, which never stores into the last cell of the array:
that cell is still zero from the `memset` when the string needs it.
-/

namespace Iwtftpd

open Buffers

/-- Length of IPv4 address string. -/
abbrev ipv4AddrSize : Nat := 16

/-- Length of IPv6 address string, with the name of an interface. -/
abbrev ipv6AddrSize : Nat := 46 + 16

abbrev percent : UInt8 := 37

/-- A C string of at most `n` bytes. -/
structure Cstring (n : Nat) where
  bytes : Bytes
  free : (0 : UInt8) ∉ bytes
  short : bytes.length ≤ n

/-- `ifa_addr`, with the string that `inet_ntop` makes of it (`none` when it fails). -/
inductive IfaAddr where
  | inet (text : Option (Cstring 15))
  | inet6 (text : Option (Cstring 45))
  | other

/-- An entry of the list of `getifaddrs`. -/
structure Ifaddrs where
  name : Cstring 15
  addr : Option IfaAddr

/-- `struct ifinet`. -/
structure Ifinet where
  ipv4addr : Buf
  ipv6addr : Buf

/-- An array after `memset`. -/
def cleared (memory : Nat → UInt8) (size : Nat) : Buf :=
  fresh (fun i => if i < size then 0 else memory i)

/-- Store an IPv4 address. -/
def Ifinet.putIpv4 (iaddr : Ifinet) (text : Bytes) : Ifinet :=
  { iaddr with ipv4addr := iaddr.ipv4addr.copy 0 (text ++ [0]) }

/-- Store an IPv6 address and append the name of the interface. -/
def Ifinet.putIpv6 (iaddr : Ifinet) (text ifname : Bytes) : Ifinet :=
  let m := iaddr.ipv6addr.copy 0 (text ++ [0])
  let ipv6len := m.strlen 0 ipv6AddrSize
  let m := m.put ipv6len percent
  let ipv6len := ipv6len + 1
  { iaddr with ipv6addr := m.strncpy 0 ipv6len ifname (ipv6AddrSize - ipv6len - 1) }

/-- The body of the second loop of `get_ifaddress`. -/
def Ifaddrs.put (ifname : Bytes) (pm : Ifaddrs) (iaddr : Ifinet) : Option Ifinet :=
  if pm.name.bytes = ifname then
    match pm.addr with
    | some (.inet none) => none
    | some (.inet6 none) => none
    | some (.inet (some text)) => some (iaddr.putIpv4 text.bytes)
    | some (.inet6 (some text)) => some (iaddr.putIpv6 text.bytes ifname)
    | some .other => some iaddr
    | none => some iaddr
  else some iaddr

/-- The second loop of `get_ifaddress`. -/
def putAddresses (ifname : Bytes) : List Ifaddrs → Ifinet → Option Ifinet
  | [], iaddr => some iaddr
  | pm :: rest, iaddr =>
    match pm.put ifname iaddr with
    | none => none
    | some iaddr => putAddresses ifname rest iaddr

/-- `get_ifaddress`, for the list that `getifaddrs` makes (`none` when it fails). -/
def getIfaddress (memory4 memory6 : Nat → UInt8) (ifname : Bytes) :
    Option (List Ifaddrs) → Option Ifinet
  | none => none
  | some ifa =>
    if ifa.any (fun pm => pm.name.bytes = ifname) then
      putAddresses ifname ifa
        { ipv4addr := cleared memory4 ipv4AddrSize, ipv6addr := cleared memory6 ipv6AddrSize }
    else none

/-! ## What the list says about an interface -/

/-- An IPv4 address of the interface. -/
def Ifaddrs.ipv4 (ifname : Bytes) (pm : Ifaddrs) : Option Bytes :=
  if pm.name.bytes = ifname then
    match pm.addr with
    | some (.inet (some text)) => some text.bytes
    | _ => none
  else none

/-- An IPv6 address of the interface, with its zone. -/
def Ifaddrs.ipv6 (ifname : Bytes) (pm : Ifaddrs) : Option Bytes :=
  if pm.name.bytes = ifname then
    match pm.addr with
    | some (.inet6 (some text)) => some (text.bytes ++ percent :: ifname)
    | _ => none
  else none

/-- An address of the interface that `inet_ntop` refuses. -/
def Ifaddrs.refused (ifname : Bytes) (pm : Ifaddrs) : Prop :=
  pm.name.bytes = ifname ∧ (pm.addr = some (.inet none) ∨ pm.addr = some (.inet6 none))

/-! ## One address -/

/-- The arrays between two passes of the loop. -/
structure Ifinet.Keeps (iaddr : Ifinet) (ipv4 ipv6 : Bytes) : Prop where
  ipv4 : Buffer.Holds 0 iaddr.ipv4addr ipv4AddrSize ipv4
  ipv6 : Buffer.Holds 0 iaddr.ipv6addr ipv6AddrSize ipv6
  last : iaddr.ipv6addr.cells (ipv6AddrSize - 1) = 0
  inside4 : iaddr.ipv4addr.Inside ipv4AddrSize
  inside6 : iaddr.ipv6addr.Inside (ipv6AddrSize - 1)

variable {iaddr : Ifinet} {ipv4 ipv6 : Bytes}

theorem keeps_cleared (memory4 memory6 : Nat → UInt8) :
    Ifinet.Keeps { ipv4addr := cleared memory4 ipv4AddrSize, ipv6addr := cleared memory6 ipv6AddrSize }
      [] [] := by
  constructor
  · exact ⟨rfl, rfl, List.not_mem_nil, by decide⟩
  · exact ⟨rfl, rfl, List.not_mem_nil, by decide⟩
  · rfl
  · exact Buffer.inside_fresh _ _
  · exact Buffer.inside_fresh _ _

theorem Ifinet.Keeps.putIpv4 (keeps : iaddr.Keeps ipv4 ipv6) (text : Cstring 15) :
    (iaddr.putIpv4 text.bytes).Keeps text.bytes ipv6 := by
  have short := text.short
  have size : ipv4AddrSize = 16 := rfl
  constructor
  · exact Buffer.holds_copy iaddr.ipv4addr text.free (by omega)
  · exact keeps.ipv6
  · exact keeps.last
  · apply Buffer.inside_copy _ keeps.inside4
    rw [List.length_append, List.length_singleton]
    omega
  · exact keeps.inside6

/-- `strncpy` fills the array up to its last cell, which is zero: the name of the interface
ends there at the latest. -/
theorem Ifinet.Keeps.putIpv6 (keeps : iaddr.Keeps ipv4 ipv6) (text : Cstring 45) (name : Cstring 15) :
    (iaddr.putIpv6 text.bytes name.bytes).Keeps ipv4 (text.bytes ++ percent :: name.bytes) := by
  have textShort := text.short
  have nameShort := name.short
  have size : ipv6AddrSize = 62 := rfl
  have copied : Buffer.Holds 0 (iaddr.ipv6addr.copy 0 (text.bytes ++ [0])) ipv6AddrSize text.bytes :=
    Buffer.holds_copy iaddr.ipv6addr text.free (by omega)
  -- The rest of the array: the name, and zeros up to the cell before the last.
  have whole : name.bytes.take (ipv6AddrSize - (text.bytes.length + 1) - 1) = name.bytes :=
    List.take_of_length_le (by omega)
  have stores : (iaddr.putIpv6 text.bytes name.bytes).ipv6addr =
      ((iaddr.ipv6addr.copy 0 (text.bytes ++ [0])).put text.bytes.length percent).copy
        (text.bytes.length + 1) (name.bytes ++
          List.replicate (ipv6AddrSize - (text.bytes.length + 1) - 1 - name.bytes.length) 0) := by
    simp only [Ifinet.putIpv6, copied.strlen_eq]
    rw [Buffer.strncpy_plain _ _ _ name.free, whole]
  have room : (name.bytes ++
      List.replicate (ipv6AddrSize - (text.bytes.length + 1) - 1 - name.bytes.length) (0 : UInt8)).length =
        ipv6AddrSize - (text.bytes.length + 1) - 1 := by
    rw [List.length_append, List.length_replicate]
    omega
  have untouched : (iaddr.putIpv6 text.bytes name.bytes).ipv6addr.cells (ipv6AddrSize - 1) = 0 := by
    rw [stores, Buffer.copy_beside _ _ (.inr (by omega)), Buffer.put_beside _ _ (by omega),
      Buffer.copy_beside _ _ (.inr (by simp only [List.length_append, List.length_singleton]; omega))]
    exact keeps.last
  have zone : ((iaddr.ipv6addr.copy 0 (text.bytes ++ [0])).put text.bytes.length percent).read 0
      (text.bytes.length + 1) = text.bytes ++ [percent] := by
    have put := Buffer.read_put_end (iaddr.ipv6addr.copy 0 (text.bytes ++ [0])) 0 text.bytes.length percent
    rwa [Nat.zero_add, copied.held] at put
  have filled : (iaddr.putIpv6 text.bytes name.bytes).ipv6addr.read 0 (ipv6AddrSize - 1) =
      (text.bytes ++ percent :: name.bytes) ++
        List.replicate (ipv6AddrSize - (text.bytes.length + 1) - 1 - name.bytes.length) 0 := by
    have behind := Buffer.read_copy_end
      ((iaddr.ipv6addr.copy 0 (text.bytes ++ [0])).put text.bytes.length percent) 0 (text.bytes.length + 1)
      (name.bytes ++ List.replicate (ipv6AddrSize - (text.bytes.length + 1) - 1 - name.bytes.length) 0)
    have all : ipv6AddrSize - 1 = text.bytes.length + 1 + (ipv6AddrSize - (text.bytes.length + 1) - 1) := by
      omega
    rw [Nat.zero_add, zone, room, ← all, ← stores] at behind
    rw [behind]
    simp
  have padded : Buffer.Padded 0 (iaddr.putIpv6 text.bytes name.bytes).ipv6addr ipv6AddrSize
      (text.bytes ++ percent :: name.bytes) := by
    constructor
    · have grown := Buffer.read_succ (iaddr.putIpv6 text.bytes name.bytes).ipv6addr 0 (ipv6AddrSize - 1)
      rw [Nat.zero_add, untouched, filled, List.append_assoc, ← List.replicate_succ'] at grown
      refine grown.trans ?_
      congr 2
      rw [List.length_append, List.length_cons]
      omega
    · have plain : (0 : UInt8) ≠ percent := by decide
      simp [text.free, name.free, plain]
  constructor
  · exact keeps.ipv4
  · apply padded.holds
    rw [List.length_append, List.length_cons]
    omega
  · exact untouched
  · exact keeps.inside4
  · rw [stores]
    apply Buffer.inside_copy
    · omega
    · rw [Buffer.inside_put]
      refine ⟨by omega, Buffer.inside_copy ?_ keeps.inside6⟩
      rw [List.length_append, List.length_singleton]
      omega

/-- The body of the loop, for an address that is not refused. -/
theorem Ifinet.Keeps.put (keeps : iaddr.Keeps ipv4 ipv6) (ifname : Bytes) (pm : Ifaddrs)
    (fine : ¬ pm.refused ifname) :
    ∃ next, pm.put ifname iaddr = some next ∧
      next.Keeps ((pm.ipv4 ifname).getD ipv4) ((pm.ipv6 ifname).getD ipv6) := by
  by_cases named : pm.name.bytes = ifname
  · subst named
    cases address : pm.addr with
    | none => exact ⟨iaddr, by simp [Ifaddrs.put, address], by simpa [Ifaddrs.ipv4, Ifaddrs.ipv6, address]⟩
    | some addr =>
      cases addr with
      | other =>
        exact ⟨iaddr, by simp [Ifaddrs.put, address], by simpa [Ifaddrs.ipv4, Ifaddrs.ipv6, address]⟩
      | inet text =>
        cases text with
        | none => exact absurd ⟨rfl, .inl address⟩ fine
        | some text =>
          refine ⟨iaddr.putIpv4 text.bytes, by simp [Ifaddrs.put, address], ?_⟩
          simpa [Ifaddrs.ipv4, Ifaddrs.ipv6, address] using keeps.putIpv4 text
      | inet6 text =>
        cases text with
        | none => exact absurd ⟨rfl, .inr address⟩ fine
        | some text =>
          refine ⟨iaddr.putIpv6 text.bytes pm.name.bytes, by simp [Ifaddrs.put, address], ?_⟩
          simpa [Ifaddrs.ipv4, Ifaddrs.ipv6, address] using keeps.putIpv6 text pm.name
  · exact ⟨iaddr, by simp [Ifaddrs.put, named], by simpa [Ifaddrs.ipv4, Ifaddrs.ipv6, named]⟩

theorem put_refused {ifname : Bytes} {pm : Ifaddrs} (refused : pm.refused ifname) :
    pm.put ifname iaddr = none := by
  obtain ⟨named, none4 | none6⟩ := refused
  · simp [Ifaddrs.put, named, none4]
  · simp [Ifaddrs.put, named, none6]

/-! ## The loop -/

/-- What comes later is kept in the place of what came before. -/
theorem getLast?_filterMap_cons (f : Ifaddrs → Option Bytes) (pm : Ifaddrs) (rest : List Ifaddrs)
    (before : Bytes) :
    ((pm :: rest).filterMap f).getLast?.getD before =
      (rest.filterMap f).getLast?.getD ((f pm).getD before) := by
  cases here : f pm with
  | none => simp [here]
  | some text => simp [here, List.getLast?_cons]

/-- Where no address is refused, the loop leaves the last address of each family. -/
theorem Ifinet.Keeps.putAddresses (keeps : iaddr.Keeps ipv4 ipv6) (ifname : Bytes)
    {ifa : List Ifaddrs} (fine : ∀ pm ∈ ifa, ¬ pm.refused ifname) :
    ∃ final, putAddresses ifname ifa iaddr = some final ∧
      final.Keeps ((ifa.filterMap (Ifaddrs.ipv4 ifname)).getLast?.getD ipv4)
        ((ifa.filterMap (Ifaddrs.ipv6 ifname)).getLast?.getD ipv6) := by
  induction ifa generalizing iaddr ipv4 ipv6 with
  | nil => exact ⟨iaddr, rfl, keeps⟩
  | cons pm rest inductionHypothesis =>
    obtain ⟨next, here, kept⟩ := keeps.put ifname pm (fine pm List.mem_cons_self)
    obtain ⟨final, there, holds⟩ :=
      inductionHypothesis kept fun pm' member => fine pm' (List.mem_cons_of_mem pm member)
    refine ⟨final, ?_, ?_⟩
    · rw [Iwtftpd.putAddresses, here]
      exact there
    · rw [getLast?_filterMap_cons, getLast?_filterMap_cons]
      exact holds

/-- One refused address ends the loop. -/
theorem putAddresses_refused {ifname : Bytes} {pm : Ifaddrs} {ifa : List Ifaddrs} (member : pm ∈ ifa)
    (refused : pm.refused ifname) (iaddr : Ifinet) : putAddresses ifname ifa iaddr = none := by
  induction ifa generalizing iaddr with
  | nil => cases member
  | cons first rest inductionHypothesis =>
    rw [putAddresses]
    rcases List.mem_cons.mp member with rfl | inRest
    · rw [put_refused refused]
    · split
      · rfl
      · exact inductionHypothesis inRest _

/-! ## The whole function -/

/-- What is asked of `get_ifaddress`: it finds the last address of each family that the
interface has, an IPv6 address with its zone, as terminated strings within the arrays. -/
structure Found (ifname : Bytes) (ifa : List Ifaddrs) (iaddr : Ifinet) : Prop where
  ipv4 : Buffer.Holds 0 iaddr.ipv4addr ipv4AddrSize
    ((ifa.filterMap (Ifaddrs.ipv4 ifname)).getLast?.getD [])
  ipv6 : Buffer.Holds 0 iaddr.ipv6addr ipv6AddrSize
    ((ifa.filterMap (Ifaddrs.ipv6 ifname)).getLast?.getD [])
  inside4 : iaddr.ipv4addr.Inside ipv4AddrSize
  inside6 : iaddr.ipv6addr.Inside ipv6AddrSize

variable (memory4 memory6 : Nat → UInt8)

/-- `get_ifaddress` succeeds exactly for an interface in the list none of whose addresses is
refused, and then finds what it is asked for, in any order of the list.

Proof: by induction over the list of addresses: what the two buffers hold is the last address of
its family so far, and a refusal ends the search. -/
theorem getIfaddress_finds (ifname : Bytes) (ifa : List Ifaddrs) :
    ((getIfaddress memory4 memory6 ifname (some ifa)).isSome = true ↔
      (∃ pm ∈ ifa, pm.name.bytes = ifname) ∧ ∀ pm ∈ ifa, ¬ pm.refused ifname) ∧
    ∀ iaddr ∈ getIfaddress memory4 memory6 ifname (some ifa), Found ifname ifa iaddr := by
  by_cases named : ∃ pm ∈ ifa, pm.name.bytes = ifname
  · have any : ifa.any (fun pm => pm.name.bytes = ifname) = true := by
      simpa using named
    by_cases fine : ∀ pm ∈ ifa, ¬ pm.refused ifname
    · obtain ⟨final, result, keeps⟩ := (keeps_cleared memory4 memory6).putAddresses ifname fine
      rw [getIfaddress, if_pos any, result]
      refine ⟨⟨fun _ => ⟨named, fine⟩, fun _ => rfl⟩, ?_⟩
      intro iaddr same
      cases same
      refine ⟨keeps.ipv4, keeps.ipv6, keeps.inside4, ?_⟩
      intro i stored
      exact (keeps.inside6 i stored).trans (by decide)
    · obtain ⟨pm, member, refused⟩ : ∃ pm ∈ ifa, pm.refused ifname := by
        simpa only [not_forall, not_not, exists_prop] using fine
      rw [getIfaddress, if_pos any, putAddresses_refused member refused]
      exact ⟨⟨fun ok => absurd ok (by simp), fun both => absurd refused (both.2 pm member)⟩, by simp⟩
  · have any : ¬ ifa.any (fun pm => pm.name.bytes = ifname) = true := by
      simpa using named
    rw [getIfaddress, if_neg any]
    exact ⟨⟨fun ok => absurd ok (by simp), fun both => absurd both.1 named⟩, by simp⟩

/-- A short address behind a long one of the same interface. -/
def someInterfaces : List Ifaddrs :=
  [⟨⟨ascii "eth0", by decide, by decide⟩,
      some (.inet6 (some ⟨ascii "2001:db8:aaaa:bbbb:cccc:dddd:eeee:ffff", by decide, by decide⟩))⟩,
    ⟨⟨ascii "lo", by decide, by decide⟩, some (.inet none)⟩,
    ⟨⟨ascii "eth0", by decide, by decide⟩, some (.inet6 (some ⟨ascii "fe80::1", by decide, by decide⟩))⟩]

theorem getIfaddress_finds_last :
    ∃ iaddr, getIfaddress (fun _ => 255) (fun _ => 255) (ascii "eth0") (some someInterfaces) = some iaddr ∧
      Buffer.Holds 0 iaddr.ipv6addr ipv6AddrSize (ascii "fe80::1%eth0") := by
  have finds := getIfaddress_finds (fun _ => 255) (fun _ => 255) (ascii "eth0") someInterfaces
  refine ⟨_, rfl, ?_⟩
  have found := (finds.2 _ rfl).ipv6
  have last : ((someInterfaces.filterMap (Ifaddrs.ipv6 (ascii "eth0"))).getLast?.getD []) =
      ascii "fe80::1%eth0" := by decide
  rwa [last] at found

end Iwtftpd
