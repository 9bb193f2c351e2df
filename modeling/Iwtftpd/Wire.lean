import Iwtftpd.Message

/-!
# Messages in the receive buffer

A message stands at the head of a buffer that may hold more bytes behind it.
What the parsers find inside the message does not depend on those bytes, and
what a client builds is read back as it was meant.
-/

namespace Iwtftpd

/-! ## Reading past the end of the message -/

/-- Numbers inside the message are read from the message. -/
theorem ofBe16_append {msg : Bytes} (rest : Bytes) (long : 2 ≤ msg.length) :
    ofBe16 (msg ++ rest) = ofBe16 msg :=
  ofBe16_congr (List.take_append_of_le_length long)

/-- The second number of a message of at least four bytes does not depend on what lies behind the
message. -/
theorem ofBe16_drop_append {msg : Bytes} (rest : Bytes) (long : 4 ≤ msg.length) :
    ofBe16 ((msg ++ rest).drop 2) = ofBe16 (msg.drop 2) := by
  rw [List.drop_append_of_le_length (by omega)]
  exact ofBe16_append rest (by rw [List.length_drop]; omega)

/-- `parse_tftpdata` reads nothing behind a message that has its opcode. -/
theorem parseTftpdata_append {msg : Bytes} (rest : Bytes) (long : 2 ≤ msg.length) :
    parseTftpdata (msg ++ rest) msg.length = parseTftpdata msg msg.length := by
  unfold parseTftpdata
  split
  · rfl
  · rename_i sized
    have four : 4 ≤ msg.length := by omega
    have payload : ((msg ++ rest).drop 4).take (msg.length - 4) = (msg.drop 4).take (msg.length - 4) := by
      rw [List.drop_append_of_le_length four, List.take_append_of_le_length]
      rw [List.length_drop]
    rw [ofBe16_append rest long, ofBe16_drop_append rest four, payload]

/-- `parse_tftpack` reads nothing behind a message that has its opcode. -/
theorem parseTftpack_append {msg : Bytes} (rest : Bytes) (long : 2 ≤ msg.length) :
    parseTftpack (msg ++ rest) msg.length = parseTftpack msg msg.length := by
  unfold parseTftpack
  split
  · rfl
  · rename_i sized
    rw [ofBe16_append rest long, ofBe16_drop_append rest (by omega)]

/-- A field that ends inside the message is read from the message. -/
theorem parseField_append {msg field : Bytes} {start fieldmax : Nat} (rest : Bytes)
    (found : parseField msg start fieldmax = some field) :
    parseField (msg ++ rest) start fieldmax = some field := by
  unfold parseField at found ⊢
  dsimp only at found ⊢
  split at found
  · rename_i terminated
    have inside : start ≤ msg.length := by
      by_contra beyond
      rw [List.drop_of_length_le (by omega)] at terminated
      simp at terminated
    rw [List.drop_append_of_le_length inside]
    have longer : ((msg.drop start).take fieldmax) <+: ((msg.drop start ++ rest).take fieldmax) := by
      rw [List.take_append]
      exact List.prefix_append _ _
    obtain ⟨more, more_eq⟩ := longer
    rw [← more_eq, if_pos (List.mem_append_left _ terminated), ← found]
    have stops : cstr ((msg.drop start).take fieldmax ++ more) = cstr ((msg.drop start).take fieldmax) := by
      unfold cstr
      rw [List.takeWhile_append, if_neg]
      intro whole
      have all := List.takeWhile_eq_self_iff.mp
        ((List.takeWhile_prefix _).eq_of_length whole)
      simpa using all 0 terminated
    rw [stops]
  · cases found

/-- A field that the message fills without ending it is rejected whatever follows. -/
theorem parseField_overlong {msg : Bytes} {start fieldmax : Nat} (rest : Bytes)
    (missing : parseField msg start fieldmax = none) (filled : start + fieldmax ≤ msg.length) :
    parseField (msg ++ rest) start fieldmax = none := by
  have same : ((msg ++ rest).drop start).take fieldmax = (msg.drop start).take fieldmax := by
    rw [List.drop_append_of_le_length (by omega), List.take_append_of_le_length]
    rw [List.length_drop]
    omega
  simpa only [parseField, same] using missing

/-- What a field is found to hold starts with what the message holds of it. -/
theorem parseField_starts {msg field : Bytes} {start fieldmax : Nat} (rest : Bytes)
    (inside : start ≤ msg.length) (endless : (0 : UInt8) ∉ msg.drop start)
    (found : parseField (msg ++ rest) start fieldmax = some field) : msg.drop start <+: field := by
  unfold parseField at found
  dsimp only at found
  rw [List.drop_append_of_le_length inside] at found
  split at found
  · rename_i terminated
    rw [← Option.some.inj found, List.take_append] at *
    have whole : (msg.drop start).take fieldmax = msg.drop start := by
      apply List.take_of_length_le
      by_contra long
      have nothing : fieldmax - (msg.drop start).length = 0 := by omega
      rw [nothing, List.take_zero, List.append_nil] at terminated
      exact endless (List.mem_of_mem_take terminated)
    rw [whole, cstr, List.takeWhile_append_of_pos]
    · exact List.prefix_append _ _
    · intro b member
      have different : b ≠ 0 := fun zero => endless (zero ▸ member)
      simpa using different
  · cases found

/-- A field laid out with its terminator is found. -/
theorem parseField_laid {name : Bytes} (before after : Bytes) {fieldmax : Nat}
    (free : (0 : UInt8) ∉ name) (short : name.length < fieldmax) :
    parseField (before ++ (name ++ 0 :: after)) before.length fieldmax = some name := by
  have field : ((before ++ (name ++ 0 :: after)).drop before.length).take fieldmax =
      name ++ 0 :: after.take (fieldmax - name.length - 1) := by
    rw [List.drop_left, List.take_append, List.take_of_length_le (by omega)]
    obtain ⟨room, sum⟩ : ∃ room, fieldmax - name.length = room + 1 :=
      ⟨fieldmax - name.length - 1, by omega⟩
    rw [sum, List.take_succ_cons, Nat.add_sub_cancel]
  have plain : ∀ b ∈ name, decide (b ≠ 0) = true := by
    intro b member
    have different : b ≠ 0 := fun zero => free (zero ▸ member)
    simpa using different
  rw [parseField, field, if_pos (List.mem_append_right _ List.mem_cons_self), cstr,
    List.takeWhile_append_of_pos plain]
  simp

/-- A field is refused exactly when it has no terminator within its maximal length. -/
theorem parseField_none_iff {msg : Bytes} {start fieldmax : Nat} :
    parseField msg start fieldmax = none ↔ (0 : UInt8) ∉ (msg.drop start).take fieldmax := by
  unfold parseField
  dsimp only
  split <;> simp_all

/-- A field found ends inside the message. -/
theorem parseField_inside {msg field : Bytes} {start fieldmax : Nat}
    (found : parseField msg start fieldmax = some field) :
    start + field.length + 1 ≤ msg.length ∧ (0 : UInt8) ∉ field ∧ field.length < fieldmax ∧
      field <+: msg.drop start := by
  unfold parseField at found
  dsimp only at found
  split at found
  · rename_i terminated
    rw [← Option.some.inj found]
    have shorter : (cstr ((msg.drop start).take fieldmax)).length <
        ((msg.drop start).take fieldmax).length := by
      apply lt_of_le_of_ne (List.takeWhile_prefix _).length_le
      intro whole
      have all := List.takeWhile_eq_self_iff.mp ((List.takeWhile_prefix _).eq_of_length whole)
      simpa using all 0 terminated
    refine ⟨?_, ?_, ?_, ?_⟩
    · simp only [List.length_take, List.length_drop] at shorter
      omega
    · intro zero
      simpa using List.mem_takeWhile_imp zero
    · simp only [List.length_take, List.length_drop] at shorter
      omega
    · exact (List.takeWhile_prefix _).trans (List.take_prefix _ _)
  · cases found

/-- A field laid out with its terminator is found to hold nothing else, also where the end of
what is laid out is cut off. -/
theorem parseField_cut {name field : Bytes} (before after rest : Bytes) {size fieldmax : Nat}
    (free : (0 : UInt8) ∉ name) (room : before.length + fieldmax ≤ size)
    (found : parseField ((before ++ (name ++ 0 :: after)).take size ++ rest) before.length fieldmax =
      some field) : field = name := by
  by_cases short : name.length < fieldmax
  · have cut : (before ++ (name ++ 0 :: after)).take size =
        before ++ (name ++ 0 :: after.take (size - before.length - name.length - 1)) := by
      obtain ⟨more, sum⟩ : ∃ more, size - before.length - name.length = more + 1 :=
        ⟨size - before.length - name.length - 1, by omega⟩
      rw [List.take_append, List.take_of_length_le (by omega), List.take_append,
        List.take_of_length_le (by omega : name.length ≤ _), sum, List.take_succ_cons,
        Nat.add_sub_cancel]
    rw [cut, List.append_assoc, List.append_assoc, List.cons_append,
      parseField_laid before _ free short] at found
    exact (Option.some.inj found).symm
  · -- The name alone fills the field.
    have within : 0 ∉ (((before ++ (name ++ 0 :: after)).take size ++ rest).drop before.length).take
        fieldmax := by
      have long : before.length ≤ ((before ++ (name ++ 0 :: after)).take size).length := by
        rw [List.length_take, List.length_append, List.length_append]
        omega
      rw [List.drop_append_of_le_length long, List.drop_take, List.drop_left, List.take_append,
        List.take_take, Nat.min_eq_left (by omega), List.take_append_of_le_length (by omega)]
      have none : fieldmax - ((name ++ 0 :: after).take (size - before.length)).length = 0 := by
        rw [List.length_take, List.length_append]
        omega
      rw [none, List.take_zero, List.append_nil]
      exact fun zero => free (List.mem_of_mem_take zero)
    rw [parseField_none_iff.mpr within] at found
    cases found

/-- The name of either mode is shorter than its field. -/
theorem modename_short (mode : TftpMode) : mode.name.length < tftpModenameMax := by
  cases mode <;> decide

/-- The name of a mode has no terminator in it. -/
theorem modename_free (mode : TftpMode) : (0 : UInt8) ∉ mode.name := by
  cases mode <;> decide

/-! ## Round trips -/

@[simp] theorem ackMsg_length (blk : UInt16) : (ackMsg blk).length = 4 := rfl

/-- The four bytes in front of the payload are the opcode and the block number. -/
@[simp] theorem dataMsg_length (blk : UInt16) (data : Bytes) :
    (dataMsg blk data).length = data.length + 4 := by
  simp only [dataMsg, List.length_append, be16_length]
  omega

/-- Below 65536 the block numbers of a transfer are different. -/
theorem ofNat_inj {i j : Nat} (left : i < 65536) (right : j < 65536)
    (same : UInt16.ofNat i = UInt16.ofNat j) : i = j := by
  have values := congrArg UInt16.toNat same
  rw [UInt16.toNat_ofNat', UInt16.toNat_ofNat'] at values
  omega

/-- An ACK tells which block it is for. -/
theorem ackMsg_inj {left right : UInt16} (same : ackMsg left = ackMsg right) : left = right := by
  have number (blk : UInt16) : ofBe16 ((ackMsg blk).drop 2) = blk := ofBe16_be16 blk []
  rw [← number left, same, number]

/-- The server's own parser reads an ACK back, with anything behind it. -/
theorem parseTftpack_ackMsg (blk : UInt16) (rest : Bytes) :
    parseTftpack (ackMsg blk ++ rest) (ackMsg blk).length = some blk := by
  have opcode : ofBe16 (ackMsg blk) = opAck := opcodeOf_ackMsg blk
  have number : ofBe16 ((ackMsg blk).drop 2) = blk := ofBe16_be16 blk []
  rw [parseTftpack_append rest (by rw [ackMsg_length]; decide), parseTftpack, opcode, number, ackMsg_length]
  rfl

/-- The server's own parser reads a DATA back, with anything behind it. -/
theorem parseTftpdata_dataMsg (blk : UInt16) {data : Bytes} (rest : Bytes)
    (short : data.length ≤ tftpDatalenMax) :
    parseTftpdata (dataMsg blk data ++ rest) (dataMsg blk data).length =
      some { blknum := blk, data := data } := by
  have opcode : ofBe16 (dataMsg blk data) = opData := opcodeOf_dataMsg blk data
  have number : ofBe16 ((dataMsg blk data).drop 2) = blk := ofBe16_be16 blk data
  have payload : (dataMsg blk data).drop 4 = data := rfl
  rw [parseTftpdata_append rest (by rw [dataMsg_length]; omega), parseTftpdata, opcode, number,
    payload, dataMsg_length, if_neg (by omega), if_neg (not_not.mpr rfl), Nat.add_sub_cancel,
    List.take_length]

/-- A request has an opcode and two strings with their terminators. -/
theorem reqMsg_length (opcode : UInt16) (filename : Bytes) (mode : TftpMode) :
    (reqMsg opcode filename mode).length = filename.length + mode.name.length + 4 := by
  simp [reqMsg]
  omega

/-- A request with a name that fits is read back, whatever follows it. -/
theorem parseTftpreq_reqMsg (opcode : UInt16) {filename : Bytes} (mode : TftpMode) (rest : Bytes)
    (request : opcode = opRrq ∨ opcode = opWrq) (long : 10 ≤ (reqMsg opcode filename mode).length)
    (free : (0 : UInt8) ∉ filename) (short : filename.length < tftpFilenameMax) :
    parseTftpreq (reqMsg opcode filename mode ++ rest) (reqMsg opcode filename mode).length =
      some { filename := filename, mode := mode } := by
  have laid : reqMsg opcode filename mode ++ rest =
      be16 opcode ++ (filename ++ 0 :: (mode.name ++ 0 :: rest)) := by
    simp [reqMsg]
  have laidMode : be16 opcode ++ (filename ++ 0 :: (mode.name ++ 0 :: rest)) =
      (be16 opcode ++ filename ++ [0]) ++ (mode.name ++ 0 :: rest) := by
    simp
  have number : ofBe16 (reqMsg opcode filename mode ++ rest) = opcode := by
    rw [laid, ofBe16_be16]
  have name : parseField (reqMsg opcode filename mode ++ rest) 2 tftpFilenameMax = Option.some filename := by
    rw [laid]
    exact parseField_laid (be16 opcode) _ free short
  have modeField : parseField (reqMsg opcode filename mode ++ rest) (2 + filename.length + 1)
      tftpModenameMax = Option.some mode.name := by
    have start : (be16 opcode ++ filename ++ [0]).length = 2 + filename.length + 1 := by
      simp [Nat.add_assoc]
    rw [laid, laidMode, ← start]
    exact parseField_laid _ rest (modename_free mode) (modename_short mode)
  have known : ¬ (opcode ≠ opRrq ∧ opcode ≠ opWrq) := fun ⟨notRrq, notWrq⟩ =>
    request.elim notRrq notWrq
  rw [parseTftpreq, number, if_neg (by omega), if_neg known, name]
  dsimp only
  rw [modeField]
  cases mode with
  | netascii => rfl
  | octet => rfl

/-- A request that passes the parser is read as it was meant: any name and any mode without NUL,
also where the end of the request is cut off. -/
theorem parseTftpreq_meant {opcode : UInt16} {filename modename rest : Bytes} {size msglen : Nat}
    {req : TftpReq} (freeName : (0 : UInt8) ∉ filename) (freeMode : (0 : UInt8) ∉ modename)
    (room : 2 + tftpFilenameMax + tftpModenameMax ≤ size)
    (parsed : parseTftpreq ((be16 opcode ++ filename ++ [0] ++ modename ++ [0]).take size ++ rest)
      msglen = some req) : req.filename = filename ∧ req.mode.name = modename := by
  have laid : be16 opcode ++ filename ++ [0] ++ modename ++ [0] =
      be16 opcode ++ (filename ++ 0 :: (modename ++ [0])) := by simp
  have laidMode : be16 opcode ++ filename ++ [0] ++ modename ++ [0] =
      (be16 opcode ++ filename ++ [0]) ++ (modename ++ 0 :: []) := by simp
  have start : (be16 opcode).length = 2 := rfl
  rw [parseTftpreq] at parsed
  split at parsed
  · cases parsed
  split at parsed
  · cases parsed
  split at parsed
  · cases parsed
  · rename_i name found
    have same : name = filename := by
      rw [laid] at found
      exact parseField_cut (be16 opcode) _ rest freeName (by omega) found
    have short := (parseField_inside found).2.2.1
    subst same
    split at parsed
    · cases parsed
    · rename_i mode foundMode
      have sameMode : mode = modename := by
        have place : (be16 opcode ++ name ++ [0]).length = 2 + name.length + 1 := by
          simp [Nat.add_assoc]
        rw [laidMode, ← place] at foundMode
        exact parseField_cut _ [] rest freeMode (by omega) foundMode
      subst sameMode
      split at parsed
      · rename_i netascii
        cases parsed
        exact ⟨rfl, netascii.symm⟩
      · split at parsed
        · rename_i octet
          cases parsed
          exact ⟨rfl, octet.symm⟩
        · cases parsed

end Iwtftpd
