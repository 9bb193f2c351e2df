import Iwtftpd.Reading

/-!
# Reading a file in either mode

In netascii mode every LF of the file is sent as CR LF, and when a block ends
between the two, `fopt` says that the LF is still to come. What a session has
still to send is then the encoding of the bytes still to come, less that CR. A
copy takes bytes off its front in both modes, so a block is the next bytes of
the encoded file, wherever refills and blocks end.
-/

namespace Iwtftpd

variable {vol : Volume}

/-- A file as it is sent in netascii mode. -/
def toNetascii (bytes : Bytes) : Bytes := bytes.flatMap fun b => if b = lf then [cr, lf] else [b]

/-- A file as it is sent. -/
def TftpMode.encode : TftpMode → Bytes → Bytes
  | .octet, bytes => bytes
  | .netascii, bytes => toNetascii bytes

/-- A line end becomes CR and LF. -/
theorem toNetascii_lf (bytes : Bytes) : toNetascii (lf :: bytes) = cr :: lf :: toNetascii bytes := by
  rw [toNetascii, List.flatMap_cons, if_pos rfl]
  rfl

/-- Bytes without LF are sent as they are. -/
theorem toNetascii_plain {plain : Bytes} (rest : Bytes) (free : ∀ b ∈ plain, b ≠ lf) :
    toNetascii (plain ++ rest) = plain ++ toNetascii rest := by
  induction plain with
  | nil => rfl
  | cons b plain inductionHypothesis =>
    have here : b ≠ lf := free b List.mem_cons_self
    have next := inductionHypothesis fun a member => free a (List.mem_cons_of_mem b member)
    rw [List.cons_append, toNetascii, List.flatMap_cons, if_neg here, ← toNetascii, next]
    rfl

/-- What is still to be sent of the bytes still to come: CR of the first may be gone already. -/
def Session.pending (s : Session) (rest : Bytes) : Bytes :=
  (s.tftpmode.encode rest).drop (if s.sesbuf.fopt then 1 else 0)

/-- The session reads, and `fopt` says that the byte at hand is an LF whose CR was sent. -/
structure Delivering (vol : Volume) (content : Bytes) (s : Session) (ds : IWDS) (rest : Bytes) :
    Prop extends Reading vol content s ds rest where
  halfway : s.sesbuf.fopt = true →
    s.tftpmode = .netascii ∧ s.sesbuf.datalen ≠ 0 ∧ rest.head? = some lf

/-- What a session delivers depends on its buffer, its identity and its stream. -/
theorem Delivering.congr {content : Bytes} {s s' : Session} {ds ds' : IWDS} {rest : Bytes}
    (delivering : Delivering vol content s ds rest) (sesbuf : s'.sesbuf = s.sesbuf)
    (ident : s'.ident = s.ident) (node : ds'.at s.dkey = ds.at s.dkey) :
    Delivering vol content s' ds' rest where
  toReading := delivering.toReading.congr sesbuf (dkey_of_ident ident) node
  halfway := by
    rw [sesbuf, mode_of_ident ident]
    exact delivering.halfway

/-- What is still to be delivered depends on the buffer and the identity of the session. -/
theorem pending_congr {s s' : Session} (rest : Bytes) (sesbuf : s'.sesbuf = s.sesbuf)
    (ident : s'.ident = s.ident) : s'.pending rest = s.pending rest := by
  rw [Session.pending, Session.pending, sesbuf, mode_of_ident ident]

/-- An empty rest leaves nothing to send. -/
theorem pending_nil (s : Session) : s.pending [] = [] := by
  rw [Session.pending]
  cases s.tftpmode <;> exact List.drop_nil

/-! ## One copy -/

/-- The bytes up to the first LF, and the LF. -/
theorem split_at_lf {bytes : Bytes} (more : (bytes.takeWhile (· ≠ lf)).length < bytes.length) :
    ∃ tail, bytes = bytes.takeWhile (· ≠ lf) ++ lf :: tail := by
  induction bytes with
  | nil => exact absurd more (Nat.lt_irrefl _)
  | cons b rest inductionHypothesis =>
    by_cases here : b = lf
    · exact ⟨rest, by simp [here]⟩
    · have kept : (b :: rest).takeWhile (· ≠ lf) = b :: rest.takeWhile (· ≠ lf) := by simp [here]
      rw [kept] at more ⊢
      obtain ⟨tail, same⟩ := inductionHypothesis (Nat.lt_of_succ_lt_succ more)
      exact ⟨tail, congrArg (List.cons b) same⟩

/-- In front of the first line end there is none. -/
theorem takeWhile_plain (bytes : Bytes) : ∀ b ∈ bytes.takeWhile (· ≠ lf), b ≠ lf := by
  intro b member
  simpa using List.mem_takeWhile_imp member

/-- What a copy does: its bytes come off the front of what is pending. -/
structure Copied (vol : Volume) (content : Bytes) (s : Session) (ds : IWDS) (rest : Bytes)
    (room : Nat) (piece : Bytes) (s' : Session) (ds' : IWDS) (rest' : Bytes) : Prop where
  delivering : Delivering vol content s' ds' rest'
  front : s.pending rest = piece ++ s'.pending rest'
  short : piece.length ≤ room
  between : piece.length < room → s'.sesbuf.fopt = false
  dhead : ds'.dhead = ds.dhead
  disk : ds'.disk = ds.disk
  faults : ds'.faults = ds.faults

/-- A pass in octet mode copies bytes as they are. -/
theorem Delivering.takePiece_octet {content : Bytes} {s : Session} {ds : IWDS} {rest : Bytes}
    (delivering : Delivering vol content s ds rest) (octet : s.tftpmode = .octet) (room : Nat) :
    let t := Iwtftpd.takePiece s ds room
    ∃ rest', Copied vol content s ds rest room t.1 t.2.1 t.2.2 rest' := by
  have reading := delivering.toReading
  obtain ⟨piece, reading', length, fopt, dhead, disk, faults⟩ := reading.takePiece octet room
  have only := takePiece_only s ds room
  dsimp only
  generalize Iwtftpd.takePiece s ds room = t at piece reading' length fopt dhead disk faults only ⊢
  have octet' : t.2.1.tftpmode = .octet := only.tftpmode.trans octet
  have whole : s.sesbuf.fopt = false := by
    by_contra half
    rw [Bool.not_eq_false] at half
    have netascii := (delivering.halfway half).1
    rw [octet] at netascii
    cases netascii
  have whole' : t.2.1.sesbuf.fopt = false := fopt.trans whole
  refine ⟨rest.drop t.1.length, ⟨reading', ?_⟩, ?_, ?_, fun _ => whole', dhead, disk, faults⟩
  · intro half
    rw [whole'] at half
    cases half
  · rw [Session.pending, Session.pending, octet, octet', whole, whole']
    have front : t.1 = rest.take t.1.length := by
      have unread := unread_length reading.fits reading.inside
      rw [length, reading.split, List.take_append_of_le_length (by omega), piece]
      by_cases fits : room ≤ s.sesbuf.datalen
      · rw [Nat.min_eq_left fits]
      · rw [Nat.min_eq_right (by omega), List.take_of_length_le (by omega), ← unread, List.take_length]
    exact (List.take_append_drop t.1.length rest).symm.trans (congrArg (· ++ _) front.symm)
  · omega

/-- The rest begins with the bytes at hand. -/
theorem Reading.front {content : Bytes} {s : Session} {ds : IWDS} {rest : Bytes}
    (reading : Reading vol content s ds rest) (room : Nat) :
    ∃ tail, rest = s.unread.take room ++ tail := by
  refine ⟨s.unread.drop room ++ (s.reader vol ds).fp.left content, ?_⟩
  rw [← List.append_assoc, List.take_append_drop]
  exact reading.split

/-- A copy without LF at hand. -/
theorem Delivering.copy_plain {content : Bytes} {s : Session} {ds : IWDS} {rest tail plain : Bytes}
    {room : Nat} (effects : List Effect) (delivering : Delivering vol content s ds rest) (netascii : s.tftpmode = .netascii)
    (split : rest = plain ++ tail) (free : ∀ b ∈ plain, b ≠ lf) (some : plain ≠ [])
    (fits : plain.length ≤ s.sesbuf.datalen) (short : plain.length ≤ room) :
    Copied vol content s ds rest room plain (s.took plain.length s.sesbuf.fopt) (ds.noteAll effects) tail := by
  have whole : s.sesbuf.fopt = false := by
    by_contra half
    rw [Bool.not_eq_false] at half
    have first := (delivering.halfway half).2.2
    cases plain with
    | nil => exact some rfl
    | cons b _ =>
      rw [split] at first
      exact free b List.mem_cons_self (Option.some.inj first)
  have same : (ds.noteAll effects).dhead = ds.dhead := rfl
  have reading := delivering.toReading.took s.sesbuf.fopt fits same
  rw [split, List.drop_left] at reading
  refine ⟨⟨reading, ?_⟩, ?_, short, fun _ => whole, rfl, rfl, rfl⟩
  · intro half
    exact absurd (whole.symm.trans half) Bool.false_ne_true
  · have mode : (s.took plain.length s.sesbuf.fopt).tftpmode = .netascii := netascii
    have flag : (s.took plain.length s.sesbuf.fopt).sesbuf.fopt = false := whole
    rw [Session.pending, Session.pending, netascii, mode, flag, whole, split]
    exact toNetascii_plain tail free

/-- A copy with an LF at hand and room for it. -/
theorem Delivering.copy_lf {content : Bytes} {s : Session} {ds : IWDS} {rest tail plain : Bytes}
    {room : Nat} (effects : List Effect) (delivering : Delivering vol content s ds rest) (netascii : s.tftpmode = .netascii)
    (split : rest = plain ++ lf :: tail) (free : ∀ b ∈ plain, b ≠ lf)
    (fits : plain.length < s.sesbuf.datalen) (short : plain.length + 2 ≤ room) :
    Copied vol content s ds rest room (plain ++ if s.sesbuf.fopt then [lf] else [cr, lf])
      (s.took (plain.length + 1) false) (ds.noteAll effects) tail := by
  have same : (ds.noteAll effects).dhead = ds.dhead := rfl
  have reading := delivering.toReading.took false (Nat.succ_le_of_lt fits) same
  have past : rest.drop (plain.length + 1) = tail := by
    rw [split, ← List.drop_drop, List.drop_left]
    rfl
  rw [past] at reading
  refine ⟨⟨reading, nofun⟩, ?_, ?_, fun _ => rfl, rfl, rfl, rfl⟩
  · have mode : (s.took (plain.length + 1) false).tftpmode = .netascii := netascii
    have flag : (s.took (plain.length + 1) false).sesbuf.fopt = false := rfl
    rw [Session.pending, Session.pending, netascii, mode, flag, split]
    show (toNetascii (plain ++ lf :: tail)).drop _ = _ ++ toNetascii tail
    rw [toNetascii_plain _ free, toNetascii_lf]
    by_cases half : s.sesbuf.fopt = true
    · -- The CR is gone, so the LF comes first.
      have first := (delivering.halfway half).2.2
      cases plain with
      | nil =>
        rw [half]
        rfl
      | cons b _ =>
        rw [split] at first
        exact absurd (Option.some.inj first) (free b List.mem_cons_self)
    · rw [Bool.not_eq_true] at half
      rw [half, if_neg Bool.false_ne_true, if_neg Bool.false_ne_true, List.append_assoc]
      rfl
  · rw [List.length_append]
    split
    · exact (Nat.le_succ _).trans short
    · exact short

/-- A copy with an LF at hand and room for the CR alone. -/
theorem Delivering.copy_cr {content : Bytes} {s : Session} {ds : IWDS} {rest tail plain : Bytes}
    {room : Nat} (effects : List Effect) (delivering : Delivering vol content s ds rest) (netascii : s.tftpmode = .netascii)
    (second : s.sesbuf.fopt = true → 2 ≤ room)
    (split : rest = plain ++ lf :: tail) (free : ∀ b ∈ plain, b ≠ lf)
    (fits : plain.length < s.sesbuf.datalen) (exactly : plain.length + 1 = room) :
    Copied vol content s ds rest room (plain ++ [cr]) (s.took plain.length true) (ds.noteAll effects)
      (lf :: tail) := by
  have whole : s.sesbuf.fopt = false := by
    by_contra half
    rw [Bool.not_eq_false] at half
    have first := (delivering.halfway half).2.2
    have two := second half
    cases plain with
    | nil => exact absurd (exactly ▸ two) (by decide)
    | cons b _ =>
      rw [split] at first
      exact free b List.mem_cons_self (Option.some.inj first)
  have same : (ds.noteAll effects).dhead = ds.dhead := rfl
  have reading := delivering.toReading.took true (Nat.le_of_lt fits) same
  rw [split, List.drop_left] at reading
  have length : (plain ++ [cr]).length = room := by
    rw [List.length_append]
    exact exactly
  refine ⟨⟨reading, fun _ => ⟨netascii, ?_, rfl⟩⟩, ?_, length.le, ?_, rfl, rfl, rfl⟩
  · exact Nat.sub_ne_zero_of_lt fits
  · have mode : (s.took plain.length true).tftpmode = .netascii := netascii
    have flag : (s.took plain.length true).sesbuf.fopt = true := rfl
    rw [Session.pending, Session.pending, netascii, mode, whole, flag, split]
    show toNetascii (plain ++ lf :: tail) = _ ++ (toNetascii (lf :: tail)).drop 1
    rw [toNetascii_plain _ free, toNetascii_lf, List.append_assoc]
    rfl
  · intro less
    exact absurd (length ▸ less) (Nat.lt_irrefl _)

/-- A pass in netascii is `local_to_netascii` on the buffer. -/
theorem takePiece_text {s : Session} (ds : IWDS) (room : Nat) (netascii : s.tftpmode = .netascii) :
    takePiece s ds room =
      ((localToNetascii room s.sesbuf).1, { s with sesbuf := (localToNetascii room s.sesbuf).2.1 },
        ds.noteAll (localToNetascii room s.sesbuf).2.2) := by
  cases s
  cases netascii
  rfl

/-- The bytes that a copy looks at. -/
def Session.ahead (s : Session) (room : Nat) : Bytes :=
  readAt s.sesbuf.storage s.sesbuf.pos (min room s.sesbuf.datalen)

/-- The ways a copy of text ends: without LF at hand, with an LF and room for it, or with room for
its CR alone. -/
inductive TextCopy (s : Session) (ds : IWDS) (room : Nat) : Bytes × Session × IWDS → Prop where
  | plain (effects : List Effect) (free : ∀ b ∈ s.ahead room, b ≠ lf) :
      TextCopy s ds room (s.ahead room, s.took (s.ahead room).length s.sesbuf.fopt,
        ds.noteAll effects)
  | line (plain after : Bytes) (effects : List Effect) (found : s.ahead room = plain ++ lf :: after)
      (free : ∀ b ∈ plain, b ≠ lf) (two : plain.length + 2 ≤ room) :
      TextCopy s ds room (plain ++ (if s.sesbuf.fopt then [lf] else [cr, lf]),
        s.took (plain.length + 1) false, ds.noteAll effects)
  | half (plain after : Bytes) (effects : List Effect) (found : s.ahead room = plain ++ lf :: after)
      (free : ∀ b ∈ plain, b ≠ lf) (one : plain.length + 1 = room) :
      TextCopy s ds room (plain ++ [cr], s.took plain.length true, ds.noteAll effects)

/-- It copies text up to a line end, the two bytes of that, or the second of them alone. -/
theorem takePiece_textCopy {s : Session} (ds : IWDS) (room : Nat) (netascii : s.tftpmode = .netascii) :
    TextCopy s ds room (Iwtftpd.takePiece s ds room) := by
  have length : (s.ahead room).length = min room s.sesbuf.datalen := readAt_length _ _ _
  have free := takeWhile_plain (s.ahead room)
  rw [takePiece_text ds room netascii, localToNetascii, ← Session.ahead]
  dsimp only
  generalize same : s.ahead room = ahead at length free
  have within : (ahead.takeWhile (· ≠ lf)).length ≤ ahead.length :=
    (List.takeWhile_prefix _).length_le
  by_cases all : (ahead.takeWhile (· ≠ lf)).length = ahead.length
  · have whole : ahead.takeWhile (· ≠ lf) = ahead := (List.takeWhile_prefix _).eq_of_length all
    rw [if_pos all]
    rw [whole] at free ⊢
    subst same
    exact .plain _ free
  · obtain ⟨after, found⟩ := split_at_lf (by omega : (ahead.takeWhile (· ≠ lf)).length < ahead.length)
    rw [if_neg all]
    generalize ahead.takeWhile (· ≠ lf) = plain at found free within ⊢
    rw [found] at same
    by_cases two : 2 ≤ room - plain.length
    · rw [if_pos two]
      have line := @TextCopy.line s ds room plain after
        [.copyOut (s.sesbuf.pos + plain.length) 1, .copyOut s.sesbuf.pos plain.length] same free
        (by omega : plain.length + 2 ≤ room)
      cases gone : s.sesbuf.fopt with
      | true =>
        rw [gone] at line
        exact line
      | false =>
        rw [gone] at line
        have took : s.took (plain.length + 1) false = s.took (plain.length + 1) s.sesbuf.fopt := by
          rw [gone]
        rw [took, Session.took, gone] at line
        exact line
    · rw [if_neg two]
      have lf : (plain ++ lf :: after).length = plain.length + (after.length + 1) := by
        rw [List.length_append, List.length_cons]
      rw [found, lf] at length
      exact .half plain after _ same free (by omega)

/-- So a pass in netascii delivers the next bytes of the encoding, provided that a line end cut in
two finds room for its second byte. -/
theorem Delivering.takePiece_netascii {content : Bytes} {s : Session} {ds : IWDS} {rest : Bytes}
    {room : Nat} (delivering : Delivering vol content s ds rest) (netascii : s.tftpmode = .netascii)
    (loaded : s.sesbuf.datalen ≠ 0) (space : 0 < room) (second : s.sesbuf.fopt = true → 2 ≤ room) :
    let t := Iwtftpd.takePiece s ds room
    ∃ rest', Copied vol content s ds rest room t.1 t.2.1 t.2.2 rest' := by
  have reading := delivering.toReading
  obtain ⟨tail, split⟩ := reading.front room
  have length : (s.ahead room).length = min room s.sesbuf.datalen := readAt_length _ _ _
  rw [← reading.at_hand room, ← Session.ahead] at split
  have copy := takePiece_textCopy ds room netascii
  generalize Iwtftpd.takePiece s ds room = t at copy
  cases copy with
  | plain effects free =>
    have some : s.ahead room ≠ [] := by
      intro none
      rw [none] at length
      have nothing : 0 = min room s.sesbuf.datalen := length
      omega
    have fits : (s.ahead room).length ≤ s.sesbuf.datalen := by omega
    have short : (s.ahead room).length ≤ room := by omega
    exact ⟨tail, delivering.copy_plain effects netascii split free some fits short⟩
  | line plain after effects found free two =>
    have fits := congrArg List.length found
    rw [length, List.length_append, List.length_cons] at fits
    rw [found, List.append_assoc, List.cons_append] at split
    exact ⟨_, delivering.copy_lf effects netascii split free (by omega) two⟩
  | half plain after effects found free one =>
    have fits := congrArg List.length found
    rw [length, List.length_append, List.length_cons] at fits
    rw [found, List.append_assoc, List.cons_append] at split
    exact ⟨_, delivering.copy_cr effects netascii second split free (by omega) one⟩

/-- A copy takes bytes off the front of what is pending. -/
theorem Delivering.takePiece {content : Bytes} {s : Session} {ds : IWDS} {rest : Bytes}
    {room : Nat} (delivering : Delivering vol content s ds rest) (loaded : s.sesbuf.datalen ≠ 0)
    (space : 0 < room) (second : s.sesbuf.fopt = true → 2 ≤ room) :
    let t := Iwtftpd.takePiece s ds room
    ∃ rest', Copied vol content s ds rest room t.1 t.2.1 t.2.2 rest' := by
  cases mode : s.tftpmode with
  | octet => exact delivering.takePiece_octet mode room
  | netascii => exact delivering.takePiece_netascii mode loaded space second

/-! ## The loop -/

/-- A loop that comes to its end delivers the front of what is pending. -/
theorem Delivering.getLoop (fuel : Nat) {content : Bytes} {s : Session} {ds : IWDS} {rest : Bytes}
    {room : Nat} (out : Bytes) (delivering : Delivering vol content s ds rest)
    (inv : Consistent vol ds) (file : ds.disk (vol.node s.filename) = .regular content)
    (space : 0 < room) (second : s.sesbuf.fopt = true → 2 ≤ room)
    (done : (Iwtftpd.getLoop vol fuel s ds room out).status = .done) :
    let r := Iwtftpd.getLoop vol fuel s ds room out
    r.out = out ++ (s.pending rest).take room ∧
      ∃ rest', Delivering vol content r.ses r.ds rest' ∧
        r.ses.pending rest' = (s.pending rest).drop room := by
  induction fuel generalizing s ds rest room out with
  | zero => cases done
  | succ fuel inductionHypothesis =>
    have only₁ := refill_only vol s ds
    have chain₁ := refill_chain vol s ds
    cases refilled : Iwtftpd.refill vol s ds with
    | mk outcome r =>
      obtain ⟨s₁, ds₁⟩ := r
      rw [refilled] at only₁ chain₁
      have fine : outcome ≠ .failed := by
        rintro rfl
        rw [getLoop_failed refilled] at done
        cases done
      obtain ⟨reading₁, fopt₁, disk₁, _, ends⟩ :=
        delivering.toReading.refilled inv file refilled fine
      have pending₁ : s₁.pending rest = s.pending rest := by
        rw [Session.pending, Session.pending, fopt₁, only₁.tftpmode]
      obtain ⟨rfl, empty, rfl⟩ | ⟨rfl, loaded⟩ := ends
      · have whole : s₁.sesbuf.fopt ≠ true := by
          rw [fopt₁]
          intro half
          exact (delivering.halfway half).2.1 empty
        rw [getLoop_eof refilled]
        dsimp only
        rw [pending_nil, List.take_nil, List.drop_nil, List.append_nil]
        exact ⟨rfl, [], ⟨reading₁, fun half => absurd half whole⟩, pending_nil _⟩
      · have delivering₁ : Delivering vol content s₁ ds₁ rest := by
          refine ⟨reading₁, fun half => ?_⟩
          obtain ⟨netascii, _, first⟩ := delivering.halfway (fopt₁ ▸ half)
          exact ⟨only₁.tftpmode.trans netascii, loaded, first⟩
        obtain ⟨rest', copied⟩ := delivering₁.takePiece loaded space (fopt₁ ▸ second)
        have only₂ := takePiece_only s₁ ds₁ room
        have front := pending₁.symm.trans copied.front
        rw [getLoop_ready refilled] at done ⊢
        generalize Iwtftpd.takePiece s₁ ds₁ room = t at copied only₂ front done ⊢
        have short := copied.short
        by_cases less : t.1.length < room
        · rw [if_pos less] at done ⊢
          have inv' := (chain₁.consistent inv).congr copied.dhead copied.disk
          have file' : t.2.2.disk (vol.node t.2.1.filename) = .regular content := by
            rw [copied.disk, disk₁, filename_of_ident (only₂.ident.trans only₁.ident)]
            exact file
          have between : t.2.1.sesbuf.fopt = true → 2 ≤ room - t.1.length := fun half =>
            absurd ((copied.between less).symm.trans half) Bool.false_ne_true
          obtain ⟨delivered, rest'', delivering', left⟩ := inductionHypothesis (out ++ t.1)
            copied.delivering inv' file' (Nat.sub_pos_of_lt less) between done
          refine ⟨?_, rest'', delivering', ?_⟩
          · rw [delivered, front, List.take_append, List.take_of_length_le short, List.append_assoc]
          · rw [left, front, List.drop_append, List.drop_of_length_le short, List.nil_append]
        · rw [if_neg less]
          have exactly : t.1.length = room := Nat.le_antisymm short (Nat.le_of_not_lt less)
          refine ⟨?_, rest', copied.delivering, ?_⟩
          · rw [front, ← exactly, List.take_left]
          · rw [front, ← exactly, List.drop_left]

/-- A message made carries the next 512 bytes of what is pending. -/
theorem Delivering.makeTftpdataMsg {content : Bytes} {s : Session} {ds : IWDS} {rest msg : Bytes}
    {now : Int} (delivering : Delivering vol content s ds rest) (inv : Consistent vol ds)
    (file : ds.disk (vol.node s.filename) = .regular content)
    (made : (Iwtftpd.makeTftpdataMsg vol s ds tftpMsglenMax now).1 = some msg) :
    let r := Iwtftpd.makeTftpdataMsg vol s ds tftpMsglenMax now
    msg = dataMsg (nextBlk s.blknum) ((s.pending rest).take tftpDatalenMax) ∧
      ((s.pending rest).length < tftpDatalenMax ∨
        ∃ rest', Delivering vol content r.2.1 r.2.2 rest' ∧
          r.2.1.pending rest' = (s.pending rest).drop tftpDatalenMax) := by
  have numbered : Delivering vol content { s with blknum := nextBlk s.blknum } ds rest :=
    delivering.congr rfl rfl rfl
  have only := (getSessionData_steps vol { s with blknum := nextBlk s.blknum } ds tftpDatalenMax).2.1
  have ends := numbered.getLoop (tftpDatalenMax + 1) [] inv file (by decide : 0 < tftpDatalenMax)
    (fun _ => (by decide : 2 ≤ tftpDatalenMax))
  dsimp only
  rw [Iwtftpd.makeTftpdataMsg, if_neg (Nat.lt_irrefl _)] at made ⊢
  rw [← getSessionData] at ends
  dsimp only at made ⊢
  generalize getSessionData vol { s with blknum := nextBlk s.blknum } ds tftpDatalenMax = r
    at made ends only ⊢
  cases status : r.status with
  | done =>
    rw [status] at made
    obtain ⟨out, rest', delivering', left⟩ := ends status
    rw [List.nil_append] at out
    obtain rfl := Option.some.inj made
    refine ⟨?_, ?_⟩
    · rw [(finIfShort_steps vol r.ses r.ds r.out).2, out]
      exact congrArg (fun b => dataMsg b _) only.blknum
    · by_cases short : (s.pending rest).length < tftpDatalenMax
      · exact .inl short
      · have long : ¬ r.out.length < tftpDatalenMax := by
          rw [out]
          show ¬ ((s.pending rest).take tftpDatalenMax).length < tftpDatalenMax
          rw [List.length_take]
          omega
        rw [finIfShort, if_neg long]
        exact .inr ⟨rest', delivering'.congr rfl rfl rfl, left⟩
  | err | running =>
    rw [status] at made
    cases made

end Iwtftpd
