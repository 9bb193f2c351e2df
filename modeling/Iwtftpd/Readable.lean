import Iwtftpd.Encoding

/-!
# Blocks that can be made

Whether `make_tftpdata_msg` makes a block is known beforehand. The buffer may
yield all of it. Otherwise the file is read once, or twice when its end comes
before the block is full, and a block is made when no call on the way fails.
-/

namespace Iwtftpd

variable {vol : Volume}

/-- The length of text as it is sent; the CR of its first LF may be gone already. -/
def textLength : Bool → Bytes → Nat
  | _, [] => 0
  | gone, b :: rest =>
    if b = lf then (if gone then 1 else 2) + textLength false rest else 1 + textLength gone rest

/-- What bytes in the buffer yield to a block. -/
def Session.yields (s : Session) (bytes : Bytes) : Nat :=
  match s.tftpmode with
  | .octet => bytes.length
  | .netascii => textLength s.sesbuf.fopt bytes

/-- The bytes that the buffer has for a block. -/
def Session.atHand (s : Session) : Bytes := readAt s.sesbuf.storage s.sesbuf.pos s.sesbuf.datalen

/-- The reads that the next block takes: a second one when the first comes to the end of the
file before the block is full. -/
def Session.reads (s : Session) (ahead : Bytes) : Nat :=
  if ahead = [] ∨ tftpDatalenMax ≤ s.yields (s.atHand ++ ahead) then 0 else 1

/-- The next block of a session can be made: the buffer has it, or the file can be read and no
call for it fails. -/
def Readable (vol : Volume) (s : Session) (ds : IWDS) : Prop :=
  tftpDatalenMax ≤ s.yields s.atHand ∨
    ∃ content, ds.disk (vol.node s.filename) = .regular content ∧
      (s.reader vol ds).fp.mode = .read ∧
      ds.Clear (s.calls ds + s.reads ((s.reader vol ds).fp.ahead content))

/-! ## What a copy leaves -/

/-- Without a line end text is as long as it is sent. -/
theorem textLength_plain {plain : Bytes} (gone : Bool) (rest : Bytes) (free : ∀ b ∈ plain, b ≠ lf) :
    textLength gone (plain ++ rest) = plain.length + textLength gone rest := by
  induction plain with
  | nil => rw [List.nil_append, List.length_nil, Nat.zero_add]
  | cons b plain inductionHypothesis =>
    have here : b ≠ lf := free b List.mem_cons_self
    have next := inductionHypothesis fun a member => free a (List.mem_cons_of_mem b member)
    rw [List.cons_append, textLength, if_neg here, next, List.length_cons]
    omega

/-- A line end takes two bytes, or one when its CR is gone. -/
theorem textLength_lf (gone : Bool) (rest : Bytes) :
    textLength gone (lf :: rest) = (if gone then 1 else 2) + textLength false rest := by
  rw [textLength, if_pos rfl]

/-- Text is not shorter than its bytes, but for a CR that is gone. -/
theorem length_le_textLength (gone : Bool) (bytes : Bytes) : bytes.length ≤ textLength gone bytes := by
  induction bytes generalizing gone with
  | nil => exact Nat.le_refl _
  | cons b rest inductionHypothesis =>
    rw [textLength, List.length_cons]
    split
    · have later := inductionHypothesis false
      split <;> omega
    · have later := inductionHypothesis gone
      omega

/-- Bytes yield at least as many. -/
theorem length_le_yields (s : Session) (bytes : Bytes) : bytes.length ≤ s.yields bytes := by
  rw [Session.yields]
  split
  · exact Nat.le_refl _
  · exact length_le_textLength _ _

/-- Memory is read piece by piece. -/
theorem readAt_add (memory : Bytes) (pos first second : Nat) :
    readAt memory pos (first + second) = readAt memory pos first ++ readAt memory (pos + first) second := by
  have padded (bytes : Bytes) {len zeros : Nat} (enough : len ≤ zeros) :
      (bytes ++ List.replicate zeros 0).take len = (bytes ++ List.replicate len 0).take len := by
    rw [List.take_append, List.take_append, List.take_replicate, List.take_replicate]
    congr 2
    omega
  rw [readAt, List.take_add, readAt, readAt, padded _ (Nat.le_add_right first second),
    List.drop_append, List.drop_replicate, List.drop_drop]
  exact congrArg _ (padded _ (by omega))

/-- What is at hand, in two parts. -/
theorem atHand_split {s : Session} {len : Nat} (within : len ≤ s.sesbuf.datalen) (fopt : Bool) :
    s.atHand = readAt s.sesbuf.storage s.sesbuf.pos len ++ (s.took len fopt).atHand := by
  have whole : len + (s.sesbuf.datalen - len) = s.sesbuf.datalen := Nat.add_sub_of_le within
  rw [Session.atHand]
  nth_rewrite 1 [← whole]
  exact readAt_add _ _ _ _

/-- A copy takes bytes out of the buffer, and what it makes of them is what they yield unless the
block is full. -/
structure Yielded (s : Session) (ds : IWDS) (room : Nat) (piece : Bytes) (len : Nat) (fopt : Bool)
    (effects : List Effect) : Prop where
  result : takePiece s ds room = (piece, s.took len fopt, ds.noteAll effects)
  within : len ≤ s.sesbuf.datalen
  short : piece.length ≤ room
  least : piece.length ≤ s.yields s.atHand
  exactly : piece.length < room → ∀ more, piece.length + (s.took len fopt).yields more =
    s.yields (readAt s.sesbuf.storage s.sesbuf.pos len ++ more)

/-- A pass in octet mode takes what is at hand, up to the room. -/
theorem takePiece_octet {s : Session} (ds : IWDS) (room : Nat) (octet : s.tftpmode = .octet) :
    takePiece s ds room =
      (readAt s.sesbuf.storage s.sesbuf.pos (min room s.sesbuf.datalen),
        s.took (min room s.sesbuf.datalen) s.sesbuf.fopt,
        ds.noteAll [.copyOut s.sesbuf.pos (min room s.sesbuf.datalen)]) := by
  have len : (if s.sesbuf.datalen < room then s.sesbuf.datalen else room) =
      min room s.sesbuf.datalen := by split <;> omega
  rw [takePiece, octet]
  dsimp only
  rw [len, Session.took, octet]

/-- What a pass in octet mode yields. -/
theorem yielded_octet {s : Session} (ds : IWDS) (room : Nat) (octet : s.tftpmode = .octet) :
    ∃ piece len fopt effects, Yielded s ds room piece len fopt effects := by
  have yields (bytes : Bytes) : s.yields bytes = bytes.length := by rw [Session.yields, octet]
  have yields' (len : Nat) (fopt : Bool) (bytes : Bytes) :
      (s.took len fopt).yields bytes = bytes.length := by
    have mode : (s.took len fopt).tftpmode = .octet := octet
    rw [Session.yields, mode]
  refine ⟨_, _, _, _, takePiece_octet ds room octet, Nat.min_le_right _ _, ?_, ?_, ?_⟩
  · rw [readAt_length]
    exact Nat.min_le_left _ _
  · rw [yields, readAt_length, Session.atHand, readAt_length]
    exact Nat.min_le_right _ _
  · intro _ more
    rw [yields, yields', readAt_length, List.length_append, readAt_length]

/-- What a pass in netascii yields: text up to a line end, and of that as much as there is room
for. -/
theorem yielded_netascii {s : Session} (ds : IWDS) (room : Nat) (netascii : s.tftpmode = .netascii) :
    ∃ piece len fopt effects, Yielded s ds room piece len fopt effects := by
  have yields (bytes : Bytes) : s.yields bytes = textLength s.sesbuf.fopt bytes := by
    rw [Session.yields, netascii]
  have yields' (len : Nat) (fopt : Bool) (bytes : Bytes) :
      (s.took len fopt).yields bytes = textLength fopt bytes := by
    have mode : (s.took len fopt).tftpmode = .netascii := netascii
    rw [Session.yields, mode]
    rfl
  -- The bytes looked at are the first of those at hand.
  have length : (s.ahead room).length = min room s.sesbuf.datalen := readAt_length _ _ _
  have split : s.atHand = s.ahead room ++ (s.took (min room s.sesbuf.datalen) false).atHand :=
    atHand_split (Nat.min_le_right _ _) false
  have front {len : Nat} (few : len ≤ (s.ahead room).length) :
      readAt s.sesbuf.storage s.sesbuf.pos len = (s.ahead room).take len := by
    have sum : len + ((s.ahead room).length - len) = min room s.sesbuf.datalen := by omega
    have whole := readAt_add s.sesbuf.storage s.sesbuf.pos len ((s.ahead room).length - len)
    rw [sum] at whole
    rw [Session.ahead, whole, List.take_left' (readAt_length _ _ _)]
  have copy := takePiece_textCopy ds room netascii
  generalize result : takePiece s ds room = t at copy
  cases copy with
  | plain effects free =>
    refine ⟨_, _, _, effects, result, by omega, by omega, ?_, ?_⟩
    · rw [yields, split, textLength_plain _ _ free]
      exact Nat.le_add_right _ _
    · intro _ more
      rw [yields, yields', front (Nat.le_refl _), List.take_length, textLength_plain _ _ free]
  | line plain after effects found free two =>
    have fits := congrArg List.length found
    rw [length, List.length_append, List.length_cons] at fits
    have taken : (s.ahead room).take (plain.length + 1) = plain ++ [lf] := by
      rw [found, List.take_append, List.take_of_length_le (Nat.le_succ _), Nat.add_sub_cancel_left]
      rfl
    have line : (plain ++ if s.sesbuf.fopt then [lf] else [cr, lf]).length =
        plain.length + if s.sesbuf.fopt then 1 else 2 := by
      rw [List.length_append]
      split <;> rfl
    refine ⟨_, _, _, effects, result, by omega, ?_, ?_, ?_⟩
    · rw [line]
      split <;> omega
    · rw [yields, split, found, List.append_assoc, List.cons_append, textLength_plain _ _ free,
        textLength_lf, line]
      omega
    · intro _ more
      rw [yields, yields', front (by omega), taken, List.append_assoc, List.cons_append,
        List.nil_append, textLength_plain _ _ free, textLength_lf, line, Nat.add_assoc]
  | half plain after effects found free one =>
    have fits := congrArg List.length found
    rw [length, List.length_append, List.length_cons] at fits
    have full : (plain ++ [cr]).length = room := by
      rw [List.length_append]
      exact one
    refine ⟨_, _, _, effects, result, by omega, full.le, ?_, ?_⟩
    · rw [yields, split, found, List.append_assoc, List.cons_append, textLength_plain _ _ free,
        textLength_lf, full]
      split <;> omega
    · intro less
      exact absurd (full ▸ less) (Nat.lt_irrefl _)

/-- What a pass yields in either mode. -/
theorem takePiece_yielded (s : Session) (ds : IWDS) (room : Nat) :
    ∃ piece len fopt effects, Yielded s ds room piece len fopt effects := by
  cases mode : s.tftpmode with
  | octet => exact yielded_octet ds room mode
  | netascii => exact yielded_netascii ds room mode

/-! ## The loop between two reads -/

/-- Nothing yields nothing. -/
theorem yields_nil (s : Session) : s.yields [] = 0 := by
  rw [Session.yields]
  cases s.tftpmode <;> rfl

/-- In an empty buffer nothing is at hand. -/
theorem atHand_nil {s : Session} (empty : s.sesbuf.datalen = 0) : s.atHand = [] := by
  rw [Session.atHand, empty]
  exact List.eq_nil_of_length_eq_zero (readAt_length _ _ _)

/-- What is left after a copy that did not fill the block. -/
theorem Yielded.left {s : Session} {ds : IWDS} {room len : Nat} {piece : Bytes} {fopt : Bool}
    {effects : List Effect} (yielded : Yielded s ds room piece len fopt effects)
    (less : piece.length < room) (more : Bytes) :
    piece.length + (s.took len fopt).yields ((s.took len fopt).atHand ++ more) =
      s.yields (s.atHand ++ more) := by
  rw [yielded.exactly less, ← List.append_assoc, ← atHand_split yielded.within fopt]

/-- A block that the buffer has is made without a read. -/
theorem getLoop_full (fuel : Nat) {s : Session} {ds : IWDS} {room : Nat} (out : Bytes)
    (space : 0 < room) (enough : room < fuel) (full : room ≤ s.yields s.atHand) :
    (getLoop vol fuel s ds room out).status = .done := by
  induction fuel generalizing s ds room out with
  | zero => omega
  | succ fuel inductionHypothesis =>
    have loaded : s.sesbuf.datalen ≠ 0 := by
      intro empty
      rw [atHand_nil empty, yields_nil] at full
      omega
    have progress := takePiece_progress ds space loaded
    obtain ⟨piece, len, fopt, effects, yielded⟩ := takePiece_yielded s ds room
    rw [yielded.result] at progress
    rw [getLoop_ready (refill_kept ds loaded), yielded.result]
    dsimp only at progress ⊢
    by_cases less : piece.length < room
    · have left := yielded.left less []
      rw [List.append_nil, List.append_nil] at left
      rw [if_pos less]
      exact inductionHypothesis _ (by omega) (by omega) (by omega)
    · rw [if_neg less]

/-- The loop with an empty buffer, at the next read. -/
structure Drained (s : Session) (ds : IWDS) (s' : Session) (ds' : IWDS) : Prop where
  empty : s'.sesbuf.datalen = 0
  only : OnlyBuffer s s'
  size : s'.sesbuf.storage.length = s.sesbuf.storage.length
  yields : ∀ more, s.yields s.atHand + s'.yields more = s.yields (s.atHand ++ more)
  dhead : ds'.dhead = ds.dhead
  disk : ds'.disk = ds.disk
  faults : ds'.faults = ds.faults

/-- A block that the buffer does not have takes all that the buffer yields. -/
theorem getLoop_drains (vol : Volume) (fuel : Nat) (s : Session) (ds : IWDS) {room : Nat}
    (out : Bytes) (enough : room < fuel) (short : s.yields s.atHand < room) :
    ∃ fuel' s' ds' out', room - s.yields s.atHand < fuel' ∧ Drained s ds s' ds' ∧
      getLoop vol fuel s ds room out = getLoop vol fuel' s' ds' (room - s.yields s.atHand) out' := by
  induction fuel generalizing s ds room out with
  | zero => omega
  | succ fuel inductionHypothesis =>
    by_cases empty : s.sesbuf.datalen = 0
    · have none : s.yields s.atHand = 0 := by rw [atHand_nil empty, yields_nil]
      refine ⟨fuel + 1, s, ds, out, by omega, ⟨empty, rfl, rfl, ?_, rfl, rfl, rfl⟩, ?_⟩
      · intro more
        rw [none, atHand_nil empty, List.nil_append, Nat.zero_add]
      · rw [none, Nat.sub_zero]
    · have progress := takePiece_progress ds (by omega : 0 < room) empty
      obtain ⟨piece, len, fopt, effects, yielded⟩ := takePiece_yielded s ds room
      rw [yielded.result] at progress
      rw [getLoop_ready (refill_kept ds empty), yielded.result]
      dsimp only at progress ⊢
      have least := yielded.least
      have less : piece.length < room := by omega
      have left := yielded.left less []
      rw [List.append_nil, List.append_nil] at left
      obtain ⟨fuel', s', ds', out', enough', drained, same⟩ :=
        @inductionHypothesis (s.took len fopt) (ds.noteAll effects) (room - piece.length) (out ++ piece)
          (by omega) (by omega)
      have room' : room - piece.length - (s.took len fopt).yields (s.took len fopt).atHand =
          room - s.yields s.atHand := by omega
      rw [room'] at enough' same
      refine ⟨fuel', s', ds', out', enough', ⟨drained.empty, ?_, drained.size, ?_, drained.dhead,
        drained.disk, drained.faults⟩, ?_⟩
      · exact drained.only.trans rfl
      · intro more
        have after := drained.yields more
        have here := yielded.left less more
        omega
      · rw [if_pos less]
        exact same

/-! ## The reads of a block -/

/-- Calls in two parts succeed when both parts do. -/
theorem clear_add {ds : IWDS} (first second : Nat) :
    ds.Clear (first + second) ↔
      ds.Clear first ∧ ∀ f ∈ (ds.faults.drop first).take second, f = .none := by
  rw [IWDS.Clear, List.take_add]
  simp only [List.mem_append, or_imp, forall_and]
  rfl

/-- A load that goes through and brings something leaves a block to be made from what it
brought. -/
theorem getLoop_loaded (fuel : Nat) {s s' : Session} {ds ds' : IWDS} {room : Nat} (out : Bytes)
    (empty : s.sesbuf.datalen = 0) (load : loadData vol s ds = (true, s', ds'))
    (loaded : s'.sesbuf.datalen ≠ 0) :
    getLoop vol (fuel + 1) s ds room out = getLoop vol (fuel + 1) s' ds' room out := by
  have refilled : refill vol s ds = (.ready, s', ds') := by
    rw [refill, if_pos empty, load]
    dsimp only
    rw [if_neg loaded]
  rw [getLoop_ready refilled, getLoop_ready (refill_kept ds' loaded)]

/-- A load that goes through and brings nothing ends the loop. -/
theorem getLoop_nothing (fuel : Nat) {s s' : Session} {ds ds' : IWDS} {room : Nat} (out : Bytes)
    (empty : s.sesbuf.datalen = 0) (load : loadData vol s ds = (true, s', ds'))
    (nothing : s'.sesbuf.datalen = 0) : (getLoop vol (fuel + 1) s ds room out).status = .done := by
  have refilled : refill vol s ds = (.eof, s', ds') := by
    rw [refill, if_pos empty, load]
    dsimp only
    rw [if_pos nothing]
  rw [getLoop_eof refilled]

/-- A load that fails fails the loop. -/
theorem getLoop_unloaded (fuel : Nat) {s s' : Session} {ds ds' : IWDS} {room : Nat} (out : Bytes)
    (empty : s.sesbuf.datalen = 0) (load : loadData vol s ds = (false, s', ds')) :
    (getLoop vol (fuel + 1) s ds room out).status ≠ .done := by
  have refilled : refill vol s ds = (.failed, s', ds') := by
    rw [refill, if_pos empty, load]
  rw [getLoop_failed refilled]
  rintro ⟨⟩

/-- After a read that came to the end of the file the next one brings nothing, if it can be
made. -/
theorem getLoop_again (fuel : Nat) {s : Session} {ds : IWDS} (room : Nat) (out : Bytes)
    {content : Bytes} {n : DSession} (inv : Consistent vol ds) (empty : s.sesbuf.datalen = 0)
    (file : ds.disk (vol.node s.filename) = .regular content) (node : ds.at s.dkey = some n)
    (mode : n.fp.mode = .read) (eof : n.fp.eof = true) :
    (getLoop vol (fuel + 1) s ds room out).status = .done ↔ ds.Clear 1 := by
  have reader : s.reader vol ds = n := by
    rw [Session.reader, node]
    rfl
  have calls : s.calls ds = 1 := by
    rw [Session.calls, node]
    rfl
  have load := loadData_cases s inv
  cases result : loadData vol s ds with
  | mk ok r =>
    obtain ⟨s', ds'⟩ := r
    rw [result] at load
    cases load with
    | failed _ _ why _ _ =>
      apply iff_of_false (getLoop_unloaded fuel out empty result)
      obtain missing | faulty | ⟨n', node', writes⟩ := why
      · exact absurd file (missing content)
      · exact calls ▸ faulty
      · rw [node] at node'
        cases node'
        rw [mode] at writes
        cases writes
    | filled content' ds' _ _ clear _ _ _ =>
      refine iff_of_true (getLoop_nothing fuel out empty result ?_) (calls ▸ clear)
      have nothing : (s.reader vol ds).fp.ahead content' = [] := by
        rw [reader, Stream.ahead, if_pos eof]
      rw [nothing]
      rfl

/-- From an empty buffer, the first read brings the block, or comes to the end of the file. -/
theorem getLoop_reads (fuel : Nat) {s : Session} {ds : IWDS} {room : Nat} (out : Bytes)
    (inv : Consistent vol ds) (fits : s.sesbuf.Fits) (empty : s.sesbuf.datalen = 0)
    (space : 0 < room) (small : room ≤ tftpDatalenMax) (enough : room < fuel + 1) :
    (getLoop vol (fuel + 1) s ds room out).status = .done ↔
      ∃ content, ds.disk (vol.node s.filename) = .regular content ∧
        (s.reader vol ds).fp.mode = .read ∧
        ds.Clear (s.calls ds + if (s.reader vol ds).fp.ahead content = [] ∨
          room ≤ s.yields ((s.reader vol ds).fp.ahead content) then 0 else 1) := by
  have load := loadData_cases s inv
  cases result : loadData vol s ds with
  | mk ok r =>
    obtain ⟨s', ds'⟩ := r
    rw [result] at load
    cases load with
    | failed _ _ why _ _ =>
      apply iff_of_false (getLoop_unloaded fuel out empty result)
      rintro ⟨content, file, mode, clear⟩
      obtain missing | faulty | ⟨n, node, writes⟩ := why
      · exact missing content file
      · exact faulty ((clear_add _ _).mp clear).1
      · rw [Session.reader, node, Option.getD_some, writes] at mode
        cases mode
    | filled content ds' file mode clear linked disk faults =>
      have short := ahead_length (s.reader vol ds).fp content
      by_cases nothing : (s.reader vol ds).fp.ahead content = []
      · refine iff_of_true (getLoop_nothing fuel out empty result ?_) ⟨content, file, mode, ?_⟩
        · rw [nothing]
          rfl
        · rw [if_pos (.inl nothing)]
          exact clear
      · have loaded : (s.loaded ((s.reader vol ds).fp.ahead content)).sesbuf.datalen ≠ 0 := by
          exact fun zero => nothing (List.eq_nil_of_length_eq_zero zero)
        have atHand : (s.loaded ((s.reader vol ds).fp.ahead content)).atHand =
            (s.reader vol ds).fp.ahead content := by
          have inside : 0 + ((s.reader vol ds).fp.ahead content).length ≤
              (writeAt s.sesbuf.storage 0 ((s.reader vol ds).fp.ahead content)).length := by
            rw [writeAt_length, fits.size]
            omega
          exact (readAt_inside inside).trans (unread_loaded fits short)
        have yields : (s.loaded ((s.reader vol ds).fp.ahead content)).yields
            ((s.reader vol ds).fp.ahead content) = s.yields ((s.reader vol ds).fp.ahead content) := rfl
        rw [getLoop_loaded fuel out empty result loaded]
        have chain := loadData_chain vol s ds
        rw [result] at chain
        have inv' := chain.consistent inv
        have mode' : ((s.reader vol ds).advanced content).fp.mode = .read := mode
        have ended (few : ((s.reader vol ds).fp.ahead content).length < sessionBufsize) :
            ((s.reader vol ds).advanced content).fp.eof = true := by
          show (_ || decide _) = true
          rw [decide_eq_true few, Bool.or_true]
        by_cases full : room ≤ s.yields ((s.reader vol ds).fp.ahead content)
        · refine iff_of_true (getLoop_full _ out space enough ?_) ⟨content, file, mode, ?_⟩
          · rw [atHand, yields]
            exact full
          · rw [if_pos (.inr full)]
            exact clear
        · have unfilled := not_or.mpr ⟨nothing, full⟩
          have least := length_le_yields s ((s.reader vol ds).fp.ahead content)
          obtain ⟨fuel', s₂, ds₂, out₂, enough₂, drained, same⟩ := getLoop_drains vol (fuel + 1)
            (s.loaded ((s.reader vol ds).fp.ahead content)) ds' out enough
            (by rw [atHand, yields]; omega)
          obtain ⟨fuel₂, rfl⟩ : ∃ fuel₂, fuel' = fuel₂ + 1 := ⟨fuel' - 1, by omega⟩
          have file₂ : ds₂.disk (vol.node s₂.filename) = .regular content := by
            rw [drained.disk, disk, filename_of_ident drained.only.ident]
            exact file
          have node₂ : ds₂.at s₂.dkey = some ((s.reader vol ds).advanced content) := by
            rw [IWDS.at, drained.dhead, drained.only.dkey]
            exact linked
          have size : sessionBufsize = 8192 := rfl
          have block : tftpDatalenMax = 512 := rfl
          rw [same, getLoop_again fuel₂ _ out₂ (inv'.congr drained.dhead drained.disk) drained.empty
            file₂ node₂ mode' (ended (by omega))]
          have one : ds₂.Clear 1 ↔ ∀ f ∈ (ds.faults.drop (s.calls ds)).take 1, f = .none := by
            rw [IWDS.Clear, drained.faults, faults]
          rw [one]
          constructor
          · intro clear'
            refine ⟨content, file, mode, ?_⟩
            rw [if_neg unfilled]
            exact (clear_add _ 1).mpr ⟨clear, clear'⟩
          · rintro ⟨content', file', _, clear'⟩
            obtain rfl : content = content' := FileNode.regular.inj (file.symm.trans file')
            rw [if_neg unfilled] at clear'
            exact ((clear_add _ 1).mp clear').2

/-- `get_session_data` returns a block exactly when it is readable.

Proof: the loop refills once, or a second time when the end of the file comes before the block is
full. It fails where one of these does. -/
theorem getSessionData_done_iff {s : Session} {ds : IWDS} (inv : Consistent vol ds)
    (fits : s.sesbuf.Fits) :
    (getSessionData vol s ds tftpDatalenMax).status = .done ↔ Readable vol s ds := by
  have size : sessionBufsize = 8192 := rfl
  have block : tftpDatalenMax = 512 := rfl
  rw [getSessionData, Readable]
  by_cases full : tftpDatalenMax ≤ s.yields s.atHand
  · exact iff_of_true (getLoop_full _ [] (by omega) (Nat.lt_succ_self _) full) (.inl full)
  · rw [or_iff_right full]
    obtain ⟨fuel', s₁, ds₁, out₁, enough₁, drained, same⟩ := getLoop_drains vol (tftpDatalenMax + 1) s ds
      [] (Nat.lt_succ_self _) (by omega)
    obtain ⟨fuel, rfl⟩ : ∃ fuel, fuel' = fuel + 1 := ⟨fuel' - 1, by omega⟩
    have fits₁ : s₁.sesbuf.Fits := ⟨drained.size.trans fits.size, by rw [drained.empty]; omega⟩
    have reader : s₁.reader vol ds₁ = s.reader vol ds := by
      rw [Session.reader, Session.reader, IWDS.at, IWDS.at, drained.dhead, drained.only.dkey]
    have calls : s₁.calls ds₁ = s.calls ds := by
      rw [Session.calls, Session.calls, IWDS.at, IWDS.at, drained.dhead, drained.only.dkey]
    have clear (n : Nat) : ds₁.Clear n ↔ ds.Clear n := by
      rw [IWDS.Clear, IWDS.Clear, drained.faults]
    have reads (ahead : Bytes) : (if ahead = [] ∨ tftpDatalenMax - s.yields s.atHand ≤ s₁.yields ahead
        then 0 else 1) = s.reads ahead := by
      have sum := drained.yields ahead
      rw [Session.reads]
      refine if_congr (or_congr_right ?_) rfl rfl
      omega
    rw [same, getLoop_reads fuel out₁ (inv.congr drained.dhead drained.disk) fits₁ drained.empty
      (by omega) (Nat.sub_le _ _) enough₁]
    simp only [reader, calls, clear, reads, drained.disk, filename_of_ident drained.only.ident]

/-- The loop puts no more into the block than there is room. -/
theorem getLoop_short (vol : Volume) (fuel : Nat) (s : Session) (ds : IWDS) (room : Nat) (out : Bytes) :
    (getLoop vol fuel s ds room out).out.length ≤ out.length + room := by
  induction fuel generalizing s ds room out with
  | zero => exact Nat.le_add_right _ _
  | succ fuel inductionHypothesis =>
    cases refilled : refill vol s ds with
    | mk outcome r =>
      obtain ⟨s', ds'⟩ := r
      cases outcome with
      | failed =>
        rw [getLoop_failed refilled]
        exact Nat.le_add_right _ _
      | eof =>
        rw [getLoop_eof refilled]
        exact Nat.le_add_right _ _
      | ready =>
        obtain ⟨piece, len, fopt, effects, yielded⟩ := takePiece_yielded s' ds' room
        have short := yielded.short
        rw [getLoop_ready refilled, yielded.result]
        dsimp only
        split
        · have later := inductionHypothesis (s'.took len fopt) (ds'.noteAll effects)
            (room - piece.length) (out ++ piece)
          rw [List.length_append] at later
          omega
        · rw [List.length_append]
          omega

/-- A message is made exactly when the next block can be. -/
theorem makeTftpdataMsg_made_iff {s : Session} {ds : IWDS} (now : Int) (inv : Consistent vol ds)
    (fits : s.sesbuf.Fits) :
    (makeTftpdataMsg vol s ds tftpMsglenMax now).1 ≠ none ↔ Readable vol s ds := by
  have ends := getSessionData_done_iff (s := { s with blknum := nextBlk s.blknum }) inv fits
  have same : Readable vol { s with blknum := nextBlk s.blknum } ds ↔ Readable vol s ds := Iff.rfl
  rw [← same, ← ends, makeTftpdataMsg, if_neg (Nat.lt_irrefl _)]
  dsimp only
  generalize getSessionData vol { s with blknum := nextBlk s.blknum } ds tftpDatalenMax = r
  cases status : r.status with
  | done => exact iff_of_true (Option.some_ne_none _) rfl
  | err | running => exact iff_of_false (fun some => some rfl) (by rintro ⟨⟩)

/-- A message that is made is DATA of the next block. -/
theorem makeTftpdataMsg_data {s : Session} {ds : IWDS} {now : Int} {msg : Bytes}
    (made : (makeTftpdataMsg vol s ds tftpMsglenMax now).1 = some msg) :
    ∃ data, data.length ≤ tftpDatalenMax ∧ msg = dataMsg (nextBlk s.blknum) data ∧
      (makeTftpdataMsg vol s ds tftpMsglenMax now).2.1.blknum = nextBlk s.blknum := by
  have short := getLoop_short vol (tftpDatalenMax + 1) { s with blknum := nextBlk s.blknum } ds
    tftpDatalenMax []
  have only := (getSessionData_steps vol { s with blknum := nextBlk s.blknum } ds tftpDatalenMax).2.1
  rw [← getSessionData, List.length_nil, Nat.zero_add] at short
  rw [makeTftpdataMsg, if_neg (Nat.lt_irrefl _)] at made ⊢
  dsimp only at made ⊢
  generalize getSessionData vol { s with blknum := nextBlk s.blknum } ds tftpDatalenMax = r
    at made short only ⊢
  have blknum : r.ses.blknum = nextBlk s.blknum := only.blknum
  cases status : r.status with
  | done =>
    have same := (finIfShort_steps vol r.ses r.ds r.out).2
    rw [status] at made
    dsimp only at made ⊢
    rw [same] at made ⊢
    exact ⟨r.out, short, by rw [← blknum]; exact (Option.some.inj made).symm, blknum⟩
  | err | running =>
    rw [status] at made
    cases made

end Iwtftpd
