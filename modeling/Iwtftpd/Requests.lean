import Iwtftpd.Wire

/-!
# The requests that are accepted

What a request looks like, and the buffers that `parse_tftpreq` accepts: those
that begin with a request, wherever it ends. The datagram is no part of the
answer beyond its length being ten or more, so a request may be completed by
bytes that are behind the datagram.
-/

namespace Iwtftpd

/-- Memory that begins with a request: its opcode, the name and the mode, each with its NUL. -/
structure Spells (memory : Bytes) (opcode : UInt16) (req : TftpReq) : Prop where
  request : opcode = opRrq ∨ opcode = opWrq
  free : (0 : UInt8) ∉ req.filename
  short : req.filename.length < tftpFilenameMax
  laid : reqMsg opcode req.filename req.mode <+: memory

/-- The first two bytes of a buffer are its opcode. -/
theorem be16_ofBe16 {memory : Bytes} (long : 2 ≤ memory.length) :
    be16 (ofBe16 memory) ++ memory.drop 2 = memory := by
  obtain _ | ⟨high, _ | ⟨low, rest⟩⟩ := memory
  · simp at long
  · simp at long
  · have first := high.toNat_lt
    have second := low.toNat_lt
    have value : (ofBe16 (high :: low :: rest)).toNat = high.toNat * 256 + low.toNat := by
      simp only [ofBe16, List.getD_cons_zero, List.getD_cons_succ, UInt16.toNat_ofNat']
      omega
    have highByte : UInt8.ofNat ((high.toNat * 256 + low.toNat) / 256) = high := by
      apply UInt8.toNat_inj.mp
      simp only [UInt8.toNat_ofNat']
      omega
    have lowByte : UInt8.ofNat (high.toNat * 256 + low.toNat) = low := by
      apply UInt8.toNat_inj.mp
      simp only [UInt8.toNat_ofNat']
      omega
    simp [be16, value, highByte, lowByte]

/-- Where a C string stops, its NUL is next. -/
theorem cstr_terminated {memory : Bytes} (terminated : (0 : UInt8) ∈ memory) :
    cstr memory ++ [0] <+: memory := by
  induction memory with
  | nil => cases terminated
  | cons b rest inductionHypothesis =>
    by_cases zero : b = 0
    · simp [cstr, zero]
    · have later : (0 : UInt8) ∈ rest := by
        obtain here | later := List.mem_cons.mp terminated
        · exact absurd here.symm zero
        · exact later
      have next := inductionHypothesis later
      simpa [cstr, zero] using next

/-- A field is found exactly where it is laid out with its NUL. -/
theorem parseField_some_iff {memory field : Bytes} {start fieldmax : Nat} :
    parseField memory start fieldmax = some field ↔
      (0 : UInt8) ∉ field ∧ field.length < fieldmax ∧ field ++ [0] <+: memory.drop start := by
  constructor
  · intro found
    have inside := parseField_inside found
    simp only [parseField] at found
    split at found
    · rename_i terminated
      have stops := cstr_terminated terminated
      rw [Option.some.inj found] at stops
      exact ⟨inside.2.1, inside.2.2.1, stops.trans (List.take_prefix _ _)⟩
    · cases found
  · rintro ⟨free, short, after, laid⟩
    by_cases beyond : memory.length < start
    · rw [List.drop_of_length_le (Nat.le_of_lt beyond)] at laid
      simp at laid
    · have place : (memory.take start).length = start := by
        rw [List.length_take]
        omega
      have whole : memory = memory.take start ++ (field ++ 0 :: after) := by
        calc memory = memory.take start ++ memory.drop start := (List.take_append_drop start memory).symm
          _ = memory.take start ++ (field ++ 0 :: after) := by simp [← laid]
      have found := parseField_laid (memory.take start) after free short
      rw [← whole, place] at found
      exact found

/-- The pieces of a request, one behind the other. -/
theorem reqMsg_prefix_iff {memory : Bytes} {opcode : UInt16} {filename : Bytes} {mode : TftpMode} :
    reqMsg opcode filename mode <+: memory ↔
      be16 opcode <+: memory ∧ filename ++ [0] <+: memory.drop 2 ∧
        mode.name ++ [0] <+: memory.drop (2 + filename.length + 1) := by
  have pieces : reqMsg opcode filename mode =
      be16 opcode ++ ((filename ++ [0]) ++ (mode.name ++ [0])) := by
    simp [reqMsg]
  constructor
  · rintro ⟨after, rfl⟩
    have nameAt : (reqMsg opcode filename mode ++ after).drop 2 =
        (filename ++ [0]) ++ (mode.name ++ [0] ++ after) := by
      rw [pieces, List.append_assoc]
      simp [be16]
    have modeAt : (reqMsg opcode filename mode ++ after).drop (2 + filename.length + 1) =
        mode.name ++ [0] ++ after := by
      have split : 2 + filename.length + 1 = 2 + (filename ++ [0]).length := by
        simp [Nat.add_assoc]
      rw [split, ← List.drop_drop, nameAt, List.drop_left]
    have opcodeAt : be16 opcode <+: reqMsg opcode filename mode ++ after := by
      rw [pieces, List.append_assoc]
      exact List.prefix_append _ _
    rw [nameAt, modeAt]
    exact ⟨opcodeAt, List.prefix_append _ _, List.prefix_append _ _⟩
  · rintro ⟨⟨body, rfl⟩, ⟨tail, nameAt⟩, ⟨after, modeAt⟩⟩
    have bodyAt : (be16 opcode ++ body).drop 2 = body := rfl
    have split : 2 + filename.length + 1 = 2 + (filename ++ [0]).length := by
      simp [Nat.add_assoc]
    rw [bodyAt] at nameAt
    rw [split, ← List.drop_drop, bodyAt, ← nameAt, List.drop_left] at modeAt
    rw [pieces, ← nameAt, ← modeAt]
    exact ⟨after, by simp only [List.append_assoc]⟩

/-- What `parse_tftpreq` accepts. -/
theorem parseTftpreq_some_iff {memory : Bytes} {msglen : Nat} {req : TftpReq} :
    parseTftpreq memory msglen = some req ↔ 10 ≤ msglen ∧ ∃ opcode, Spells memory opcode req := by
  constructor
  · intro parsed
    rw [parseTftpreq] at parsed
    split at parsed
    · cases parsed
    rename_i long
    split at parsed
    · cases parsed
    rename_i known
    split at parsed
    · cases parsed
    rename_i filename nameFound
    split at parsed
    · cases parsed
    rename_i modename modeFound
    have spelled (mode : TftpMode) (named : modename = mode.name) :
        Spells memory (ofBe16 memory) { filename := filename, mode := mode } := by
      obtain ⟨free, short, nameAt⟩ := parseField_some_iff.mp nameFound
      obtain ⟨-, -, modeAt⟩ := parseField_some_iff.mp modeFound
      have two : 2 ≤ memory.length := by
        have inside := (parseField_inside nameFound).1
        omega
      have request : ofBe16 memory = opRrq ∨ ofBe16 memory = opWrq := by
        by_contra neither
        exact known (not_or.mp neither)
      exact ⟨request, free, short,
        reqMsg_prefix_iff.mpr ⟨⟨_, be16_ofBe16 two⟩, nameAt, named ▸ modeAt⟩⟩
    refine ⟨by omega, ofBe16 memory, ?_⟩
    split at parsed
    · rename_i netascii
      cases parsed
      exact spelled .netascii netascii
    · split at parsed
      · rename_i octet
        cases parsed
        exact spelled .octet octet
      · cases parsed
  · rintro ⟨long, opcode, spells⟩
    obtain ⟨⟨body, opcodeAt⟩, nameAt, modeAt⟩ := reqMsg_prefix_iff.mp spells.laid
    have number : ofBe16 memory = opcode := by rw [← opcodeAt, ofBe16_be16]
    have nameFound : parseField memory 2 tftpFilenameMax = some req.filename :=
      parseField_some_iff.mpr ⟨spells.free, spells.short, nameAt⟩
    have modeFound : parseField memory (2 + req.filename.length + 1) tftpModenameMax =
        some req.mode.name :=
      parseField_some_iff.mpr ⟨modename_free _, modename_short _, modeAt⟩
    have known : ¬ (opcode ≠ opRrq ∧ opcode ≠ opWrq) := fun neither =>
      spells.request.elim neither.1 neither.2
    rw [parseTftpreq, number, if_neg (by omega), if_neg known, nameFound]
    dsimp only
    rw [modeFound]
    obtain ⟨filename, mode⟩ := req
    cases mode with
    | netascii => rfl
    | octet => rfl

/-! ## The request in the datagram -/

/-- Memory that begins with a request still does when more follows. -/
theorem Spells.longer {memory : Bytes} {opcode : UInt16} {req : TftpReq} {msglen : Nat}
    (spells : Spells (memory.take msglen) opcode req) : Spells memory opcode req :=
  { spells with laid := spells.laid.trans (List.take_prefix _ _) }

theorem Spells.within_iff {memory : Bytes} {opcode : UInt16} {req : TftpReq} {msglen : Nat}
    (spells : Spells memory opcode req) :
    Spells (memory.take msglen) opcode req ↔
      (reqMsg opcode req.filename req.mode).length ≤ msglen := by
  constructor
  · intro inside
    have shorter := inside.laid.length_le
    rw [List.length_take] at shorter
    omega
  · intro fits
    exact { spells with laid := List.prefix_take_iff.mpr ⟨spells.laid, fits⟩ }

/-- No memory begins with two requests. -/
theorem Spells.unique {memory : Bytes} {left right : UInt16} {req req' : TftpReq}
    (first : Spells memory left req) (second : Spells memory right req') :
    left = right ∧ req = req' := by
  have parsed := parseTftpreq_some_iff.mpr ⟨Nat.le_refl 10, left, first⟩
  have parsed' := parseTftpreq_some_iff.mpr ⟨Nat.le_refl 10, right, second⟩
  have number {opcode : UInt16} {req : TftpReq} (spells : Spells memory opcode req) :
      ofBe16 memory = opcode := by
    obtain ⟨⟨body, opcodeAt⟩, -⟩ := reqMsg_prefix_iff.mp spells.laid
    rw [← opcodeAt, ofBe16_be16]
  exact ⟨(number first).symm.trans (number second), Option.some.inj (parsed.symm.trans parsed')⟩

/-- What is accepted is a request that stands in the datagram. -/
def AcceptsOwn (memory : Bytes) (msglen : Nat) : Prop :=
  ∀ req, parseTftpreq memory msglen = some req ↔
    10 ≤ msglen ∧ ∃ opcode, Spells (memory.take msglen) opcode req

/-- A request at the head of the buffer ends inside the datagram. -/
def EndsInside (memory : Bytes) (msglen : Nat) : Prop :=
  ∀ opcode req, Spells memory opcode req → (reqMsg opcode req.filename req.mode).length ≤ msglen

/-- The parser accepts the requests of the grammar, and nothing else, exactly for the buffers
whose request, if there is one, ends inside the datagram.

Proof: the parser takes what its grammar spells, read from the whole buffer. A request that is
spelled there is unique, so it lies inside the datagram or the parser takes one that does not. -/
theorem parseTftpreq_own_iff (memory : Bytes) (msglen : Nat) :
    AcceptsOwn memory msglen ↔ msglen < 10 ∨ EndsInside memory msglen := by
  constructor
  · intro own
    by_cases long : 10 ≤ msglen
    · right
      intro opcode req spells
      have parsed := parseTftpreq_some_iff.mpr ⟨long, opcode, spells⟩
      obtain ⟨-, opcode', inside⟩ := (own req).mp parsed
      obtain ⟨rfl, -⟩ := inside.longer.unique spells
      exact spells.within_iff.mp inside
    · left
      omega
  · intro enclosed req
    rw [parseTftpreq_some_iff]
    apply and_congr_right
    intro long
    constructor
    · rintro ⟨opcode, spells⟩
      obtain short | ends := enclosed
      · omega
      · exact ⟨opcode, spells.within_iff.mpr (ends opcode req spells)⟩
    · rintro ⟨opcode, inside⟩
      exact ⟨opcode, inside.longer⟩

/-- Ten bytes that end inside the mode, with the rest of it behind them in the buffer. -/
theorem request_completed : ¬ AcceptsOwn
    (be16 opRrq ++ ascii "abcdef" ++ [0] ++ ascii "o" ++ (ascii "ctet" ++ [0])) 10 := by
  intro own
  obtain ⟨-, opcode, spells⟩ := (own { filename := ascii "abcdef", mode := .octet }).mp (by decide)
  have shorter := spells.laid.length_le
  revert shorter
  rw [reqMsg_length]
  decide

end Iwtftpd
