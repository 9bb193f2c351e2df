import Iwtftpd.StaleReplies

/-!
# What a call reads of `rbuf`

`recvfrom` leaves the bytes past the datagram as they were, and `tftp_proc` is
given the length of the datagram. The opcode is read all the same, and the
parser of requests goes on to the maximum size of each field. So leftovers take
part in a call for a datagram that has no whole opcode, and in one for a request
whose fields do not end inside it.
-/

namespace Iwtftpd

variable {vol : Volume}

/-- The effect of the call is the same on every buffer that begins with the datagram. -/
def OwnBytesOnly (vol : Volume) (head : List Session) (ds : IWDS) (rbuf : Bytes) (dlen : Nat)
    (client : Client) (now : Int) (newsock : Option Int) : Prop :=
  ∀ rbuf', rbuf'.length = nwbufSize → rbuf'.take dlen = rbuf.take dlen →
    tftpProc vol (getSession head client) ds rbuf' dlen client now newsock =
      tftpProc vol (getSession head client) ds rbuf dlen client now newsock

/-- The datagram holds its opcode, or a byte that no opcode begins with; and when it is a
request that opens a session, its fields are ended inside it. -/
def Enclosed (ses : Option Session) (msg : Bytes) : Prop :=
  (2 ≤ msg.length ∨ ∃ b, msg = [b] ∧ b ≠ 0) ∧
    (ses = none → opcodeOf msg = opRrq ∨ opcodeOf msg = opWrq → RequestClosed msg)

/-! ## Enclosed datagrams -/

theorem enclosed_same (vol : Volume) {ses : Option Session} {msg : Bytes} (ds : IWDS) (rest rest' : Bytes)
    (client : Client) (now : Int) (newsock : Option Int) (enclosed : Enclosed ses msg) :
    tftpProc vol ses ds (msg ++ rest) msg.length client now newsock =
      tftpProc vol ses ds (msg ++ rest') msg.length client now newsock := by
  obtain ⟨long | ⟨b, rfl, high⟩, closed⟩ := enclosed
  · exact tftpProc_append ses ds rest rest' client now newsock long closed
  · have unknown (rest : Bytes) : ¬ KnownOpcode (ofBe16 ([b] ++ rest)) := opcode_high rest high
    rw [tftpProc_unknown ses ds _ client now newsock (unknown rest),
      tftpProc_unknown ses ds _ client now newsock (unknown rest')]

/-! ## Open datagrams -/

/-- Without a whole opcode, the leftovers make the call one for DATA, which is answered, or one
for an unknown opcode, which is not. -/
theorem opcode_open (vol : Volume) (ses : Option Session) {msg : Bytes} (ds : IWDS) (client : Client)
    (now : Int) (newsock : Option Int) (few : msg = [] ∨ msg = [0]) (low : UInt8) (rest : Bytes) :
    (low = 3 → (tftpProc vol ses ds (msg ++ ([0, low] ++ rest).drop msg.length) msg.length client
      now newsock).fill ≠ none) ∧
    (low = 9 → (tftpProc vol ses ds (msg ++ ([0, low] ++ rest).drop msg.length) msg.length client
      now newsock).fill = none) := by
  have opcode := opcode_completed few low rest
  have short : msg.length < 4 := by
    obtain rfl | rfl := few <;> decide
  constructor
  · rintro rfl
    have notRequest : ¬ (opData = opRrq ∨ opData = opWrq) := by decide
    have data : UInt16.ofNat (3 : UInt8).toNat = opData := rfl
    unfold tftpProc
    rw [opcode, data]
    dsimp only
    rw [if_neg notRequest, if_pos rfl]
    cases ses with
    | none =>
      dsimp only
      rw [errsendNone_eq .keep ds .unknownId empty_short]
      rintro ⟨⟩
    | some s =>
      dsimp only
      rw [opDataProc, parseTftpdata, if_pos (.inl short)]
      dsimp only
      rw [errsend_eq .update s ds .illegalOpe empty_short]
      rintro ⟨⟩
  · rintro rfl
    rw [tftpProc_unknown ses ds _ client now newsock]
    rw [opcode]
    decide

/-- A request whose fields are open is answered as illegal, or not, depending on the leftovers. -/
theorem request_open (vol : Volume) {msg : Bytes} (ds : IWDS) (client : Client) (now : Int)
    (newsock : Option Int) (request : opcodeOf msg = opRrq ∨ opcodeOf msg = opWrq)
    (unclosed : ¬ RequestClosed msg) :
    ∃ rest rest', (msg ++ rest).length = nwbufSize ∧ (msg ++ rest').length = nwbufSize ∧
      tftpProc vol none ds (msg ++ rest) msg.length client now newsock ≠
        tftpProc vol none ds (msg ++ rest') msg.length client now newsock := by
  obtain ⟨long, short, rejected, completion, fits, accepted⟩ := open_request request unclosed
  have bufsize : nwbufSize = 1024 := rfl
  let ones (n : Nat) : Bytes := List.replicate n 1
  have size (n : Nat) : (ones n).length = n := List.length_replicate
  have plain (n : Nat) : (0 : UInt8) ∉ ones n := fun zero =>
    absurd (List.eq_of_mem_replicate zero) (by decide)
  have call (rest : Bytes) : tftpProc vol none ds (msg ++ rest) msg.length client now newsock =
      opReq vol ds (msg ++ rest) msg.length (ofBe16 (msg ++ rest)) client now newsock := by
    have opcode : ofBe16 (msg ++ rest) = opRrq ∨ ofBe16 (msg ++ rest) = opWrq := by
      rw [ofBe16_append rest long]
      exact request
    rw [tftpProc, if_pos opcode]
  let filler := ones (nwbufSize - msg.length - completion.length)
  refine ⟨ones (nwbufSize - msg.length), completion ++ filler, ?_, ?_, ?_⟩
  · rw [List.length_append, size]
    omega
  · rw [List.length_append, List.length_append, size]
    omega
  · obtain ⟨req, parsed⟩ := accepted filler
    obtain ⟨answer, filled, legal⟩ := opReq_parsed vol ds (ofBe16 (msg ++ (completion ++ filler)))
      client now newsock parsed
    rw [call, call, opReq_unparsed (rejected _ (plain _))]
    intro same
    have fills := congrArg Proc.fill same
    rw [filled] at fills
    exact legal (Option.some.inj fills).symm

/-- Where a datagram is open, two buffers that begin with it are treated in two ways. -/
theorem open_differs (vol : Volume) {ses : Option Session} {msg : Bytes} (ds : IWDS) (client : Client)
    (now : Int) (newsock : Option Int) (unclosed : ¬ Enclosed ses msg) :
    ∃ rest rest', (msg ++ rest).length = nwbufSize ∧ (msg ++ rest').length = nwbufSize ∧
      tftpProc vol ses ds (msg ++ rest) msg.length client now newsock ≠
        tftpProc vol ses ds (msg ++ rest') msg.length client now newsock := by
  by_cases few : msg = [] ∨ msg = [0]
  · let tail : Bytes := List.replicate 1022 0
    have size (low : UInt8) : (msg ++ ([0, low] ++ tail).drop msg.length).length = nwbufSize := by
      have whole : ([0, low] ++ tail).length = 1024 := by
        rw [List.length_append, List.length_replicate]
        rfl
      have bufsize : nwbufSize = 1024 := rfl
      obtain rfl | rfl := few <;> simp only [List.length_append, List.length_drop, whole] <;> omega
    refine ⟨_, _, size 3, size 9, ?_⟩
    intro same
    have silent := (opcode_open vol ses ds client now newsock few 9 tail).2 rfl
    rw [← congrArg Proc.fill same] at silent
    exact (opcode_open vol ses ds client now newsock few 3 tail).1 rfl silent
  · have first : 2 ≤ msg.length ∨ ∃ b, msg = [b] ∧ b ≠ 0 := by
      match msg with
      | [] => exact absurd (.inl rfl) few
      | [b] => exact .inr ⟨b, rfl, fun zero => few (.inr (by rw [zero]))⟩
      | _ :: _ :: _ => exact .inl (by simp)
    have second : ¬ (ses = none → opcodeOf msg = opRrq ∨ opcodeOf msg = opWrq →
        RequestClosed msg) := fun closed => unclosed ⟨first, closed⟩
    push Not at second
    obtain ⟨rfl, request, open_⟩ := second
    exact request_open vol ds client now newsock request open_

/-- The effect of `tftp_proc` is determined by the bytes of the datagram if and only if the
datagram is enclosed.

Proof: the parsers read nothing behind a datagram that is enclosed. For one that is not, two
fillings of the rest of the buffer are given, after which the opcode or the request is another. -/
theorem own_bytes_only_iff {head : List Session} {ds : IWDS} {rbuf : Bytes} {dlen : Nat}
    {client : Client} {now : Int} {newsock : Option Int} (full : rbuf.length = nwbufSize)
    (inside : dlen ≤ nwbufSize) :
    OwnBytesOnly vol head ds rbuf dlen client now newsock ↔
      Enclosed (getSession head client) (rbuf.take dlen) := by
  have length : (rbuf.take dlen).length = dlen := by
    rw [List.length_take]
    omega
  -- A buffer is its first bytes followed by the others.
  have parts {buf : Bytes} (same : buf.take dlen = rbuf.take dlen) :
      buf = rbuf.take dlen ++ buf.drop dlen := by
    rw [← same, List.take_append_drop]
  constructor
  · intro own
    by_contra unclosed
    obtain ⟨rest, rest', size, size', differ⟩ := open_differs vol ds client now newsock unclosed
    have begins (rest : Bytes) : (rbuf.take dlen ++ rest).take dlen = rbuf.take dlen :=
      List.take_left' length
    have left := own _ size (begins rest)
    have right := own _ size' (begins rest')
    rw [length] at differ
    exact differ (left.trans right.symm)
  · intro enclosed rbuf' _ same
    have equal := enclosed_same vol ds (rbuf'.drop dlen) (rbuf.drop dlen) client now newsock
      enclosed
    rw [length, ← parts same, ← parts rfl] at equal
    exact equal

/-- An ACK has its opcode and is no request, so what lies behind it changes nothing. -/
theorem own_bytes_only_sample :
    OwnBytesOnly smallHost.toVolume [] (startOn fun _ => .absent).ads
      (ackMsg 1 ++ List.replicate 1020 0) 4 ([1], 2000) 0 none := by
  apply (own_bytes_only_iff (by rw [List.length_append, List.length_replicate]; rfl) (by decide)).mpr
  have own : (ackMsg 1 ++ List.replicate 1020 0).take 4 = ackMsg 1 := List.take_left' rfl
  rw [own]
  refine ⟨.inl (by decide), ?_⟩
  intro _ request
  exact absurd request (by decide)

/-- With one byte of a datagram, the byte that an earlier one left behind it decides. -/
theorem leftovers_read :
    ∃ rbuf rbuf' : Bytes, rbuf.length = nwbufSize ∧ rbuf'.length = nwbufSize ∧
      rbuf.take 1 = rbuf'.take 1 ∧
      (tftpProc smallHost.toVolume none (startOn fun _ => .absent).ads rbuf 1 ([1], 2000) 0 none).fill ≠
        (tftpProc smallHost.toVolume none (startOn fun _ => .absent).ads rbuf' 1 ([1], 2000) 0
          none).fill :=
  ⟨0 :: 3 :: List.replicate 1022 0, 0 :: 9 :: List.replicate 1022 0, by decide +kernel,
    by decide +kernel, by decide, by decide +kernel⟩

end Iwtftpd
