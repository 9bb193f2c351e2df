import Iwtftpd.Lib.Blocks
import Iwtftpd.Loading

/-!
# Reading a file in octet mode

What a session that reads has still to deliver is what is left in its buffer
followed by what is left of the file behind its stream. A refill moves bytes
from the second part to the first, a copy takes bytes off the front, and so a
block is the next bytes of the rest, as many as were asked for or all there are.
-/

namespace Iwtftpd

variable {vol : Volume}

/-- The bytes still to come from a stream. -/
def Stream.left (fp : Stream) (content : Bytes) : Bytes :=
  if fp.eof then [] else content.drop fp.off

/-- A read takes its bytes off what is left. -/
theorem left_advanced (d : DSession) (content : Bytes) :
    d.fp.left content = d.fp.ahead content ++ (d.advanced content).fp.left content := by
  cases eof : d.fp.eof with
  | true => simp [Stream.left, Stream.ahead, DSession.advanced, eof]
  | false =>
    have ahead : d.fp.ahead content = (content.drop d.fp.off).take sessionBufsize := by
      simp [Stream.ahead, eof]
    simp only [Stream.left, DSession.advanced, eof, ahead, Bool.false_or, Bool.false_eq_true,
      if_false, decide_eq_true_eq]
    have length : ((content.drop d.fp.off).take sessionBufsize).length =
      min sessionBufsize (content.length - d.fp.off) := by simp
    split
    · rw [List.append_nil, List.take_of_length_le]
      rw [List.length_drop]
      omega
    · have full : ((content.drop d.fp.off).take sessionBufsize).length = sessionBufsize := by omega
      rw [full, ← List.drop_drop, List.take_append_drop]

/-- The bytes in the buffer that were not delivered. -/
def Session.unread (s : Session) : Bytes :=
  (s.sesbuf.storage.drop s.sesbuf.pos).take s.sesbuf.datalen

/-- The session reads, and the rest is what it has still to deliver. -/
structure Reading (vol : Volume) (content : Bytes) (s : Session) (ds : IWDS) (rest : Bytes) :
    Prop where
  fits : s.sesbuf.Fits
  inside : s.sesbuf.pos + s.sesbuf.datalen ≤ sessionBufsize
  mode : (s.reader vol ds).fp.mode = .read
  split : rest = s.unread ++ (s.reader vol ds).fp.left content

theorem Reading.congr {content : Bytes} {s s' : Session} {ds ds' : IWDS} {rest : Bytes}
    (reading : Reading vol content s ds rest) (sesbuf : s'.sesbuf = s.sesbuf)
    (dkey : s'.dkey = s.dkey) (node : ds'.at s.dkey = ds.at s.dkey) :
    Reading vol content s' ds' rest := by
  have reader : s'.reader vol ds' = s.reader vol ds := by
    rw [Session.reader, Session.reader, dkey, node]
  have unread : s'.unread = s.unread := by rw [Session.unread, Session.unread, sesbuf]
  exact ⟨sesbuf ▸ reading.fits, by rw [sesbuf]; exact reading.inside, by rw [reader]; exact reading.mode,
    by rw [reader, unread]; exact reading.split⟩

theorem unread_length {s : Session} (fits : s.sesbuf.Fits)
    (inside : s.sesbuf.pos + s.sesbuf.datalen ≤ sessionBufsize) :
    s.unread.length = s.sesbuf.datalen := by
  have size := fits.size
  rw [Session.unread, List.length_take, List.length_drop]
  omega

/-! ## A refill -/

theorem unread_loaded {s : Session} {data : Bytes} (fits : s.sesbuf.Fits)
    (short : data.length ≤ sessionBufsize) : (s.loaded data).unread = data :=
  readAt_writeAt (by rw [fits.size]; exact short)

/-- A load that goes through leaves the rest as it is. -/
theorem Reading.loaded {content : Bytes} {s s' : Session} {ds ds' : IWDS} {rest : Bytes}
    (reading : Reading vol content s ds rest) (empty : s.sesbuf.datalen = 0)
    (inv : Consistent vol ds) (file : ds.disk (vol.node s.filename) = .regular content)
    (result : loadData vol s ds = (true, s', ds')) :
    Reading vol content s' ds' rest ∧ s' = s.loaded ((s.reader vol ds).fp.ahead content) ∧
      ds'.disk = ds.disk ∧ (ds.faults = [] → ds'.faults = []) := by
  have load := loadData_cases s inv
  rw [result] at load
  cases load with
  | filled content' ds' file' mode _ linked disk faults =>
    obtain rfl : content = content' := FileNode.regular.inj (file.symm.trans file')
    have short := ahead_length (s.reader vol ds).fp content
    refine ⟨?_, rfl, disk, fun none => by rw [faults, none, List.drop_nil]⟩
    have reader : (s.loaded ((s.reader vol ds).fp.ahead content)).reader vol ds' =
        (s.reader vol ds).advanced content := by
      have linked' : ds'.at (s.loaded ((s.reader vol ds).fp.ahead content)).dkey =
        some ((s.reader vol ds).advanced content) := linked
      rw [Session.reader, linked']
      rfl
    refine ⟨⟨writeAt_length.trans reading.fits.size, short⟩, ?_, ?_, ?_⟩
    · show 0 + ((s.reader vol ds).fp.ahead content).length ≤ _
      omega
    · rw [reader]
      exact mode
    · have none : s.unread = [] := by rw [Session.unread, empty, List.take_zero]
      rw [unread_loaded reading.fits short, reader, reading.split, none, List.nil_append]
      exact left_advanced _ content

/-- Without faults a load goes through. -/
theorem Reading.load {content : Bytes} {s : Session} {ds : IWDS} {rest : Bytes}
    (reading : Reading vol content s ds rest) (inv : Consistent vol ds) (faultless : ds.faults = [])
    (file : ds.disk (vol.node s.filename) = .regular content) : (loadData vol s ds).1 = true := by
  have load := loadData_cases s inv
  generalize loadData vol s ds = result at load
  cases load with
  | failed s' ds' why _ _ =>
    obtain missing | faulty | ⟨d, found, mode⟩ := why
    · exact absurd file (missing content)
    · exact absurd (clear_nil _ faultless) faulty
    · have reads := reading.mode
      rw [Session.reader, found, Option.getD_some, mode] at reads
      cases reads
  | filled => rfl

/-- A refill that does not fail ends the reading when there is no rest, and goes on with the same
rest otherwise. -/
theorem Reading.refilled {content : Bytes} {s s' : Session} {ds ds' : IWDS} {rest : Bytes}
    {outcome : Refill} (reading : Reading vol content s ds rest) (inv : Consistent vol ds)
    (file : ds.disk (vol.node s.filename) = .regular content)
    (result : Iwtftpd.refill vol s ds = (outcome, s', ds')) (fine : outcome ≠ .failed) :
    Reading vol content s' ds' rest ∧ s'.sesbuf.fopt = s.sesbuf.fopt ∧ ds'.disk = ds.disk ∧
      (ds.faults = [] → ds'.faults = []) ∧
      ((outcome = .eof ∧ s.sesbuf.datalen = 0 ∧ rest = []) ∨
        (outcome = .ready ∧ s'.sesbuf.datalen ≠ 0)) := by
  by_cases empty : s.sesbuf.datalen = 0
  · rw [Iwtftpd.refill, if_pos empty] at result
    cases ends : loadData vol s ds with
    | mk ok r =>
      obtain ⟨s₁, ds₁⟩ := r
      rw [ends] at result
      cases ok with
      | false =>
        cases result
        exact absurd rfl fine
      | true =>
        obtain ⟨reading', same, disk, faults⟩ := reading.loaded empty inv file ends
        cases result
        have fopt : s'.sesbuf.fopt = s.sesbuf.fopt := by rw [same]; rfl
        have length : s'.sesbuf.datalen = ((s.reader vol ds).fp.ahead content).length := by
          rw [same]
          rfl
        refine ⟨reading', fopt, disk, faults, ?_⟩
        by_cases nothing : s'.sesbuf.datalen = 0
        · refine .inl ⟨if_pos nothing, empty, ?_⟩
          have ahead : (s.reader vol ds).fp.ahead content = [] :=
            List.eq_nil_of_length_eq_zero (length.symm.trans nothing)
          have none : s.unread = [] := by rw [Session.unread, empty, List.take_zero]
          rw [reading.split, none, List.nil_append, left_advanced, ahead, List.nil_append]
          simp [Stream.left, DSession.advanced, ahead]
        · exact .inr ⟨if_neg nothing, nothing⟩
  · rw [refill_kept ds empty] at result
    cases result
    exact ⟨reading, rfl, rfl, id, .inr ⟨rfl, empty⟩⟩

/-- Without faults a refill does not fail. -/
theorem Reading.refill {content : Bytes} {s : Session} {ds : IWDS} {rest : Bytes}
    (reading : Reading vol content s ds rest) (inv : Consistent vol ds)
    (faultless : ds.faults = []) (file : ds.disk (vol.node s.filename) = .regular content) :
    (Iwtftpd.refill vol s ds).1 ≠ .failed := by
  rw [Iwtftpd.refill]
  split
  · have fine := reading.load inv faultless file
    split <;> rename_i ends
    · rw [ends] at fine
      cases fine
    · dsimp only
      split <;> rintro ⟨⟩
  · rintro ⟨⟩

/-! ## A copy -/

/-- The session that has taken bytes out of its buffer. -/
def Session.took (s : Session) (len : Nat) (fopt : Bool) : Session :=
  { s with sesbuf := { s.sesbuf with
      pos := s.sesbuf.pos + len, datalen := s.sesbuf.datalen - len, fopt := fopt } }

/-- Bytes taken out of the buffer come off the front of the rest. -/
theorem Reading.took {content : Bytes} {s : Session} {ds ds' : IWDS} {rest : Bytes} {len : Nat}
    (fopt : Bool) (reading : Reading vol content s ds rest) (loaded : len ≤ s.sesbuf.datalen)
    (dhead : ds'.dhead = ds.dhead) : Reading vol content (s.took len fopt) ds' (rest.drop len) := by
  obtain ⟨fits, inside, mode, split⟩ := reading
  have length := unread_length fits inside
  have reader : (s.took len fopt).reader vol ds' = s.reader vol ds := by
    have key : (s.took len fopt).dkey = s.dkey := rfl
    rw [Session.reader, Session.reader, IWDS.at, dhead, key, IWDS.at]
  refine ⟨⟨fits.size, (Nat.sub_le _ _).trans fits.short⟩, ?_, ?_, ?_⟩
  · show s.sesbuf.pos + len + (s.sesbuf.datalen - len) ≤ _
    omega
  · rw [reader]
    exact mode
  · rw [reader, split, List.drop_append_of_le_length (by omega), Session.unread, List.drop_take,
      List.drop_drop]
    rfl

/-- The bytes at hand for a copy. -/
theorem Reading.at_hand {content : Bytes} {s : Session} {ds : IWDS} {rest : Bytes}
    (reading : Reading vol content s ds rest) (room : Nat) :
    readAt s.sesbuf.storage s.sesbuf.pos (min room s.sesbuf.datalen) = s.unread.take room := by
  have size := reading.fits.size
  have inside := reading.inside
  rw [readAt_inside (by omega), Session.unread, List.take_take]

/-- A copy takes bytes off the front of the rest. -/
theorem Reading.takePiece {content : Bytes} {s : Session} {ds : IWDS} {rest : Bytes}
    (reading : Reading vol content s ds rest) (octet : s.tftpmode = .octet) (room : Nat) :
    let t := Iwtftpd.takePiece s ds room
    t.1 = s.unread.take room ∧ Reading vol content t.2.1 t.2.2 (rest.drop t.1.length) ∧
      t.1.length = min room s.sesbuf.datalen ∧ t.2.1.sesbuf.fopt = s.sesbuf.fopt ∧
      t.2.2.dhead = ds.dhead ∧ t.2.2.disk = ds.disk ∧ t.2.2.faults = ds.faults := by
  have len : (if s.sesbuf.datalen < room then s.sesbuf.datalen else room) =
      min room s.sesbuf.datalen := by split <;> omega
  have length := unread_length reading.fits reading.inside
  have taken : (s.unread.take room).length = min room s.sesbuf.datalen := by
    rw [List.length_take, length]
  dsimp only
  rw [Iwtftpd.takePiece, octet]
  dsimp only
  rw [len, reading.at_hand room]
  refine ⟨rfl, ?_, taken, rfl, rfl, rfl, rfl⟩
  have same : ds.dhead = ds.dhead := rfl
  have next := reading.took s.sesbuf.fopt (Nat.min_le_right room _) same
  rw [taken]
  exact next.congr rfl rfl rfl

/-! ## The loop -/

/-- The loop delivers the next bytes of the rest: as many as were asked for, or all. -/
theorem Reading.getLoop (fuel : Nat) {content : Bytes} {s : Session} {ds : IWDS} {rest : Bytes}
    {room : Nat} (out : Bytes) (reading : Reading vol content s ds rest)
    (octet : s.tftpmode = .octet) (inv : Consistent vol ds) (faultless : ds.faults = [])
    (file : ds.disk (vol.node s.filename) = .regular content) (space : 0 < room)
    (enough : room < fuel) :
    let r := Iwtftpd.getLoop vol fuel s ds room out
    r.status = .done ∧ r.out = out ++ rest.take room ∧
      Reading vol content r.ses r.ds (rest.drop room) ∧ r.ds.disk = ds.disk := by
  induction fuel generalizing s ds rest room out with
  | zero => omega
  | succ fuel inductionHypothesis =>
    have fine := reading.refill inv faultless file
    have only₁ := refill_only vol s ds
    have chain₁ := refill_chain vol s ds
    generalize refilled : Iwtftpd.refill vol s ds = result at fine only₁ chain₁
    obtain ⟨outcome, s₁, ds₁⟩ := result
    obtain ⟨reading₁, _, disk₁, faults₁, ends⟩ := reading.refilled inv file refilled fine
    have faults₁ := faults₁ faultless
    obtain ⟨rfl, _, rfl⟩ | ⟨rfl, loaded⟩ := ends
    · rw [getLoop_eof refilled]
      simp only [List.take_nil, List.append_nil, List.drop_nil]
      exact ⟨trivial, trivial, reading₁, disk₁⟩
    · have octet₁ : s₁.tftpmode = .octet := only₁.tftpmode.trans octet
      obtain ⟨piece, reading₂, length, _, dhead, disk₂, faults₂⟩ := reading₁.takePiece octet₁ room
      have only₂ := takePiece_only s₁ ds₁ room
      have unread := unread_length reading₁.fits reading₁.inside
      have rest₁ := reading₁.split
      rw [getLoop_ready refilled]
      generalize Iwtftpd.takePiece s₁ ds₁ room = t at piece reading₂ length dhead disk₂ faults₂ only₂ ⊢
      split
      · rename_i less
        have all : t.1 = s₁.unread := by rw [piece, List.take_of_length_le (by omega)]
        have next := inductionHypothesis (out ++ t.1) reading₂ (only₂.tftpmode.trans octet₁)
          ((chain₁.consistent inv).congr dhead disk₂) (faults₂.trans faults₁)
          (by rw [disk₂, disk₁, filename_of_ident (only₂.ident.trans only₁.ident)]; exact file)
          (by omega : 0 < room - t.1.length) (by omega)
        obtain ⟨status, delivered, reading₃, disk₃⟩ := next
        have whole : t.1.length + (room - t.1.length) = room := by omega
        refine ⟨status, ?_, ?_, disk₃.trans (disk₂.trans disk₁)⟩
        · rw [delivered, List.append_assoc, ← whole, List.take_add, whole]
          congr 2
          rw [rest₁, List.take_append_of_le_length (by omega), all, List.take_length]
        · rw [List.drop_drop, whole] at reading₃
          exact reading₃
      · rename_i filled
        have exactly : t.1.length = room := by omega
        rw [exactly] at reading₂
        refine ⟨rfl, ?_, reading₂, disk₂.trans disk₁⟩
        rw [rest₁, List.take_append_of_le_length (by omega), piece]

/-- A block is the next 512 bytes, and the last one closes the file. -/
theorem Reading.makeTftpdataMsg {content : Bytes} {s : Session} {ds : IWDS} {rest : Bytes}
    (now : Int) (reading : Reading vol content s ds rest) (octet : s.tftpmode = .octet)
    (inv : Consistent vol ds) (faultless : ds.faults = [])
    (file : ds.disk (vol.node s.filename) = .regular content) :
    let r := Iwtftpd.makeTftpdataMsg vol s ds tftpMsglenMax now
    r.1 = some (dataMsg (nextBlk s.blknum) (rest.take tftpDatalenMax)) ∧
      r.2.1.blknum = nextBlk s.blknum ∧ r.2.1.ident = s.ident ∧ r.2.1.disabled = s.disabled ∧
      r.2.1.fin = (s.fin || decide (rest.length < tftpDatalenMax)) ∧ r.2.2.disk = ds.disk ∧
      (rest.length < tftpDatalenMax ∨ Reading vol content r.2.1 r.2.2 (rest.drop tftpDatalenMax)) := by
  have numbered : Reading vol content { s with blknum := nextBlk s.blknum } ds rest :=
    reading.congr rfl rfl rfl
  obtain ⟨status, out, reading', disk⟩ := numbered.getLoop (tftpDatalenMax + 1) [] octet inv faultless
    file (by decide : 0 < tftpDatalenMax) (Nat.lt_succ_self _)
  have only := (getSessionData_steps vol { s with blknum := nextBlk s.blknum } ds tftpDatalenMax).2.1
  dsimp only
  rw [Iwtftpd.makeTftpdataMsg, if_neg (Nat.lt_irrefl _)]
  rw [← getSessionData] at status out reading' disk
  dsimp only
  generalize getSessionData vol { s with blknum := nextBlk s.blknum } ds tftpDatalenMax = r
    at status out reading' disk only ⊢
  rw [List.nil_append] at out
  have same := (finIfShort_steps vol r.ses r.ds r.out).2
  have length : (rest.take tftpDatalenMax).length < tftpDatalenMax ↔ rest.length < tftpDatalenMax := by
    rw [List.length_take]
    omega
  rw [status]
  dsimp only
  refine ⟨?_, ?_, ?_, ?_, ?_, ?_, ?_⟩
  · rw [same, out]
    exact congrArg (fun b => some (dataMsg b _)) only.blknum
  · rw [same]
    exact only.blknum
  · rw [same]
    exact only.ident
  · rw [same]
    exact only.disabled
  · rw [same, out]
    simp only [Session.sent, length]
    exact congrArg (· || _) only.fin
  · rw [finIfShort]
    split
    · exact (closeData_disk _ _).trans disk
    · exact disk
  · by_cases short : rest.length < tftpDatalenMax
    · exact .inl short
    · right
      have long : ¬ r.out.length < tftpDatalenMax := by rw [out, length]; exact short
      rw [finIfShort, if_neg long]
      exact reading'.congr rfl rfl rfl

end Iwtftpd
