import Iwtftpd.Draining
import Iwtftpd.Upload

/-!
# A block that is refused half way

`put_session_data` copies a piece of the payload into the buffer before it saves
the buffer, and a save that fails leaves the piece where it is. When the same
block comes again it is put behind it, and where the first save could not make
the file and the second can, the file ends up with the piece twice. Nothing of
the payload is kept exactly where the pass whose save fails had nothing to copy.
-/

namespace Iwtftpd

variable {vol : Volume}

/-! ## The pass that fails -/

/-- The first `k` passes of the loop go through, and in the next one the save fails. -/
def FailsAfter (vol : Volume) (k : Nat) (s : Session) (ds : IWDS) (data : Bytes) : Prop :=
  (putLoop vol k s ds data).status = .running ∧ (putLoop vol (k + 1) s ds data).status = .err

/-- More fuel changes nothing once the loop has ended. -/
theorem putLoop_more (n m : Nat) {s : Session} {ds : IWDS} {data : Bytes}
    (ended : (putLoop vol n s ds data).status ≠ .running) :
    putLoop vol (n + m) s ds data = putLoop vol n s ds data := by
  induction n generalizing s ds data with
  | zero => exact absurd rfl ended
  | succ n inductionHypothesis =>
    obtain ⟨ds₁, -, -, -, pass⟩ := putLoop_passes vol s ds data
    rw [Nat.succ_add, pass, pass]
    rw [pass] at ended
    dsimp only at ended ⊢
    split
    · rfl
    · rename_i saved
      rw [if_neg saved] at ended
      split
      · rename_i more
        rw [if_pos more] at ended
        exact inductionHypothesis ended
      · rfl

/-- A call that fails ends in its failing pass. -/
theorem refused_loop {k : Nat} {s : Session} {ds : IWDS} {data : Bytes}
    (failed : (putSessionData vol s ds data).status = .err) (passes : FailsAfter vol k s ds data) :
    putSessionData vol s ds data = putLoop vol (k + 1) s ds data := by
  have busy : ¬ (s.sesbuf.datalen = 0 ∧ data.length = 0) := by
    intro idle
    rw [putSessionData, if_pos idle] at failed
    cases failed
  rw [putSessionData, if_neg busy] at failed ⊢
  obtain ⟨running, err⟩ := passes
  obtain less | more := Nat.le_total (k + 1) (data.length + 2)
  · have ended : (putLoop vol (k + 1) s ds data).status ≠ .running := by
      rw [err]
      rintro ⟨⟩
    have same := putLoop_more (k + 1) (data.length + 2 - (k + 1)) ended
    rwa [Nat.add_sub_cancel' less] at same
  · have ended : (putLoop vol (data.length + 2) s ds data).status ≠ .running := by
      rw [failed]
      rintro ⟨⟩
    have same := putLoop_more (data.length + 2) (k + 1 - (data.length + 2)) ended
    rw [Nat.add_sub_cancel' more] at same
    exact same.symm

/-- A call that fails does so in some pass. -/
theorem refused_pass {s : Session} {ds : IWDS} {data : Bytes}
    (failed : (putSessionData vol s ds data).status = .err) : ∃ k, FailsAfter vol k s ds data := by
  have loop (n : Nat) (err : (putLoop vol n s ds data).status = .err) :
      ∃ k, FailsAfter vol k s ds data := by
    induction n with
    | zero => cases err
    | succ n inductionHypothesis =>
      by_cases running : (putLoop vol n s ds data).status = .running
      · exact ⟨n, running, err⟩
      · rw [putLoop_more n 1 running] at err
        exact inductionHypothesis err
  rw [putSessionData] at failed
  split at failed
  · cases failed
  · exact loop _ failed

/-- A pass that goes through and is not the last hands on the rest of the payload; one that does not
leaves the copy in the buffer. -/
theorem fails_step {k : Nat} {s : Session} {ds : IWDS} {data : Bytes} (passes : FailsAfter vol k s ds data) :
    ∃ ds₁, ds₁.dhead = ds.dhead ∧ ds₁.disk = ds.disk ∧
      let f := flush vol (s.behind data) ds₁
      match k with
      | 0 => f.1 = false ∧ putLoop vol 1 s ds data = { status := .err, ses := f.2.1, ds := f.2.2 }
      | k + 1 => f.1 = true ∧ FailsAfter vol k f.2.1 f.2.2 (data.drop (s.consumed data)) ∧
          s.consumed data < data.length ∧
          putLoop vol (k + 2) s ds data = putLoop vol (k + 1) f.2.1 f.2.2 (data.drop (s.consumed data)) := by
  obtain ⟨running, err⟩ := passes
  obtain ⟨ds₁, dhead, disk, -, pass⟩ := putLoop_passes vol s ds data
  refine ⟨ds₁, dhead, disk, ?_⟩
  dsimp only
  cases k with
  | zero =>
    have first := pass 0
    rw [first] at err
    dsimp only at err first ⊢
    cases saved : (flush vol (s.behind data) ds₁).1 with
    | false =>
      rw [if_pos saved] at first
      exact ⟨rfl, first⟩
    | true =>
      rw [if_neg (by rw [saved]; nofun)] at err
      split at err <;> cases err
  | succ k =>
    have first := pass k
    have second := pass (k + 1)
    rw [first] at running
    rw [second] at err
    dsimp only at running err second ⊢
    cases saved : (flush vol (s.behind data) ds₁).1 with
    | false =>
      rw [if_pos saved] at running
      cases running
    | true =>
      have through : ¬ (flush vol (s.behind data) ds₁).1 = false := by
        rw [saved]
        nofun
      by_cases more : s.consumed data < data.length
      · rw [if_neg through, if_pos more] at running err second
        exact ⟨rfl, ⟨running, err⟩, more, second⟩
      · rw [if_neg through, if_neg more] at running
        cases running

/-! ## What the failing pass leaves in the buffer -/

/-- What is left of a payload after passes that each end in a save. -/
def TftpMode.left (mode : TftpMode) : Nat → Nat → Bytes → Bytes
  | 0, _, data => data
  | k + 1, level, data => mode.left k 0 (data.drop (mode.consumed (sessionBufsize - level) data))

/-- The bytes in the buffer when a pass begins: as many as before the block, or none once it was saved. -/
def Session.levelAt (s : Session) (k : Nat) : Nat := if k = 0 then s.sesbuf.datalen else 0

/-- At the end of a transfer every pass saves, so the buffer holds what the failing pass copied. -/
theorem refused_finished {k : Nat} {s : Session} {ds : IWDS} {data : Bytes} (inv : Consistent vol ds)
    (fin : s.fin = true) (fits : s.sesbuf.Fits) (level : s.sesbuf.pos = s.sesbuf.datalen)
    (passes : FailsAfter vol k s ds data) :
    let r := putLoop vol (k + 1) s ds data
    r.ses.sesbuf.pos = r.ses.sesbuf.datalen ∧
      r.ses.buffered = (if k = 0 then s.buffered else []) ++
        s.tftpmode.piece (sessionBufsize - s.levelAt k) (s.tftpmode.left k s.sesbuf.datalen data) ∧
      (k ≠ 0 → r.ds.disk (vol.node s.filename) ≠ .absent) := by
  induction k generalizing s ds data with
  | zero =>
    obtain ⟨ds₁, dhead, disk, failed, pass⟩ := fails_step passes
    have due : (s.behind data).sesbuf.datalen = sessionBufsize ∨ (s.behind data).fin = true := .inr fin
    rw [flush_due (s.behind data) ds₁ due] at failed pass
    have same : (saveData vol (s.behind data) ds₁).2.1 = s.behind data := by
      rw [saveData_session, if_neg (by rw [failed]; nofun)]
    dsimp only
    rw [pass, same]
    refine ⟨?_, buffered_behind data fits level, fun later => absurd rfl later⟩
    have sums : (s.behind data).sesbuf.pos = s.sesbuf.pos + _ := rfl
    rw [sums, level]
    rfl
  | succ k inductionHypothesis =>
    obtain ⟨ds₁, dhead, disk, saved, passes', more, pass⟩ := fails_step passes
    have due : (s.behind data).sesbuf.datalen = sessionBufsize ∨ (s.behind data).fin = true := .inr fin
    have inv₁ : Consistent vol ds₁ := inv.congr dhead disk
    rw [flush_due (s.behind data) ds₁ due] at saved passes' pass
    have drained : (saveData vol (s.behind data) ds₁).2.1 = (s.behind data).drained := by
      rw [saveData_session, if_pos saved]
      rfl
    have fits₂ := saveData_fits vol ds₁ (behind_fits data fits)
    have chain := saveData_chain vol (s.behind data) ds₁
    have save := saveData_cases (s.behind data) inv₁
    rw [saved] at save
    have there := save.present inv₁
    rw [drained] at passes' pass fits₂
    have inv₂ := chain.consistent inv₁
    have fin₂ : (s.behind data).drained.fin = true := fin
    obtain ⟨level', buffered, -⟩ := inductionHypothesis inv₂ fin₂ fits₂ rfl passes'
    have onwards := (putLoop_steps vol (k + 1) (s.behind data).drained (saveData vol (s.behind data) ds₁).2.2
      (data.drop (s.consumed data))).1
    dsimp only at level' buffered ⊢
    rw [pass]
    refine ⟨level', ?_, fun _ => onwards.present inv₂ there⟩
    have empty : (s.behind data).drained.levelAt k = 0 := by
      rw [Session.levelAt]
      split <;> rfl
    rw [buffered, empty, drained_buffered, ite_self, if_neg (Nat.succ_ne_zero k), Session.levelAt,
      if_neg (Nat.succ_ne_zero k)]
    rfl

/-- A pass copies no more than it consumes. -/
theorem behind_room {s : Session} {data : Bytes} (room : s.sesbuf.datalen + data.length < sessionBufsize) :
    (s.behind data).sesbuf.datalen + (data.drop (s.consumed data)).length < sessionBufsize := by
  have sum : (s.behind data).sesbuf.datalen = s.sesbuf.datalen +
      (s.tftpmode.piece (sessionBufsize - s.sesbuf.datalen) data).length := rfl
  have piece := piece_length s.tftpmode (sessionBufsize - s.sesbuf.datalen) data
  have consumed : (s.tftpmode.piece (sessionBufsize - s.sesbuf.datalen) data).length ≤ s.consumed data :=
    Nat.le_add_right _ _
  have window := List.length_take_le' (sessionBufsize - s.sesbuf.datalen) data
  rw [sum, List.length_drop]
  omega

/-- A block that leaves room in the buffer of a running session is not saved. -/
theorem running_calm {k : Nat} {s : Session} {ds : IWDS} {data : Bytes} (running : s.fin = false)
    (room : s.sesbuf.datalen + data.length < sessionBufsize) : ¬ FailsAfter vol k s ds data := by
  induction k generalizing s ds data with
  | zero =>
    intro passes
    obtain ⟨ds₁, -, -, failed, -⟩ := fails_step passes
    have less := behind_room room
    rw [flush_early (s.behind data) ds₁ (by omega) running] at failed
    cases failed
  | succ k inductionHypothesis =>
    intro passes
    obtain ⟨ds₁, -, -, -, passes', -⟩ := fails_step passes
    have less := behind_room room
    have running' : (s.behind data).fin = false := running
    rw [flush_early (s.behind data) ds₁ (by omega) running] at passes'
    exact inductionHypothesis running' less passes'

/-- A running session saves once at most, when the block fills its buffer. -/
theorem refused_running {k : Nat} {s : Session} {ds : IWDS} {data : Bytes} (running : s.fin = false)
    (fits : s.sesbuf.Fits) (level : s.sesbuf.pos = s.sesbuf.datalen) (short : data.length ≤ tftpDatalenMax)
    (passes : FailsAfter vol k s ds data) :
    let r := putLoop vol (k + 1) s ds data
    r.ses.sesbuf.pos = r.ses.sesbuf.datalen ∧
      ∃ copied, r.ses.buffered = s.buffered ++ copied ∧
        (copied = [] ↔ k = 0 ∧ s.sesbuf.datalen = sessionBufsize) := by
  have sizes : tftpDatalenMax = 512 ∧ sessionBufsize = 8192 := ⟨rfl, rfl⟩
  induction k generalizing s ds data with
  | zero =>
    obtain ⟨ds₁, -, -, failed, pass⟩ := fails_step passes
    have full : (s.behind data).sesbuf.datalen = sessionBufsize := by
      by_contra room
      rw [flush_early (s.behind data) ds₁ room running] at failed
      cases failed
    have same : (flush vol (s.behind data) ds₁).2.1 = s.behind data := by
      rw [flush_due (s.behind data) ds₁ (.inl full)] at failed ⊢
      rw [saveData_session, if_neg (by rw [failed]; nofun)]
    have sum : s.sesbuf.datalen + (s.tftpmode.piece (sessionBufsize - s.sesbuf.datalen) data).length =
        sessionBufsize := full
    dsimp only
    rw [pass, same]
    refine ⟨?_, _, buffered_behind data fits level, ?_⟩
    · have sums : (s.behind data).sesbuf.pos = s.sesbuf.pos + _ := rfl
      rw [sums, level]
      rfl
    · rw [← List.length_eq_zero_iff]
      omega
  | succ k inductionHypothesis =>
    obtain ⟨ds₁, -, -, saved, passes', more, pass⟩ := fails_step passes
    by_cases full : (s.behind data).sesbuf.datalen = sessionBufsize
    · -- What is left cannot fill the buffer again.
      have drained : (flush vol (s.behind data) ds₁).2.1 = (s.behind data).drained := by
        rw [flush_due (s.behind data) ds₁ (.inl full)] at saved ⊢
        rw [saveData_session, if_pos saved]
        rfl
      rw [drained] at passes'
      have running' : (s.behind data).drained.fin = false := running
      have zero : (s.behind data).drained.sesbuf.datalen = 0 := rfl
      refine absurd passes' (running_calm running' ?_)
      rw [zero, List.length_drop]
      omega
    · have short' : (data.drop (s.consumed data)).length ≤ tftpDatalenMax := by
        rw [List.length_drop]
        omega
      have running' : (s.behind data).fin = false := running
      have level' : (s.behind data).sesbuf.pos = (s.behind data).sesbuf.datalen := by
        have sums : (s.behind data).sesbuf.pos = s.sesbuf.pos + _ := rfl
        rw [sums, level]
        rfl
      rw [flush_early (s.behind data) ds₁ full running] at passes' pass
      obtain ⟨ends, copied, buffered, some⟩ := inductionHypothesis running' (behind_fits data fits) level'
        short' passes'
      have nonempty : copied ≠ [] := fun none => full (some.mp none).2
      dsimp only at ends buffered ⊢
      rw [pass]
      refine ⟨ends, s.tftpmode.piece (sessionBufsize - s.sesbuf.datalen) data ++ copied, ?_, ?_⟩
      · rw [buffered, buffered_behind data fits level, List.append_assoc]
      · apply iff_of_false
        · intro none
          exact nonempty (List.append_eq_nil_iff.mp none).2
        · rintro ⟨impossible, -⟩
          cases impossible

/-! ## The block sent again -/

theorem piece_nil_iff (mode : TftpMode) (room : Nat) (data : Bytes) :
    mode.piece room data = [] ↔ room = 0 ∨ data = [] ∨ mode = .netascii ∧ data.head? = some cr := by
  cases mode with
  | octet => simp [TftpMode.piece]
  | netascii =>
    obtain _ | room := room
    · simp [TftpMode.piece]
    · cases data with
      | nil => simp [TftpMode.piece]
      | cons b rest => simp [TftpMode.piece, List.takeWhile_cons]

/-- The failing pass has nothing to copy: the buffer is full from before, or nothing of the payload is
left, or it goes on with a CR that netascii drops. -/
def Session.Spared (s : Session) (k : Nat) (data : Bytes) : Prop :=
  k = 0 ∧ s.sesbuf.datalen = sessionBufsize ∨
    s.fin = true ∧ (s.tftpmode.left k s.sesbuf.datalen data = [] ∨
      s.tftpmode = .netascii ∧ (s.tftpmode.left k s.sesbuf.datalen data).head? = some cr)

/-- The buffer holds what it held before the block, or nothing when that was saved on the way. -/
def NothingLeft (s : Session) (k : Nat) (r : PutReply) : Prop :=
  r.ses.buffered = if s.fin = true ∧ k ≠ 0 then [] else s.buffered

/-- When the block comes again, nobody has touched the file and the datastore works, an acknowledged
file holds the payload once behind what was taken in before. -/
def StoredOnce (vol : Volume) (before : Bytes) (s : Session) (data : Bytes) (r : PutReply) : Prop :=
  ∀ ds' blk dlen now, Consistent vol ds' → ds'.faults = [] → ds'.at s.dkey = r.ds.at s.dkey →
    ds'.disk (vol.node s.filename) = r.ds.disk (vol.node s.filename) →
    let p := storeBlock vol { r.ses with fin := true } ds' { blknum := blk, data := data } dlen now
    p.fill = some (ackMsg blk) →
      p.ds.disk (vol.node s.filename) = .regular (before ++ s.tftpmode.kept data)

/-- The buffer after a refusal is still filled from its beginning, with what the failing pass copied. -/
theorem refused_left {k : Nat} {before : Bytes} {s : Session} {ds : IWDS} {data : Bytes}
    (inv : Consistent vol ds) (writing : Writing vol before s ds) (short : data.length ≤ tftpDatalenMax)
    (failed : (putSessionData vol s ds data).status = .err) (passes : FailsAfter vol k s ds data) :
    let r := putSessionData vol s ds data
    r.ses.sesbuf.pos = r.ses.sesbuf.datalen ∧ (NothingLeft s k r ↔ s.Spared k data) ∧
      (s.fin = true → k ≠ 0 → r.ds.disk (vol.node s.filename) ≠ .absent) := by
  obtain ⟨fits, level, -⟩ := writing
  dsimp only
  rw [refused_loop failed passes]
  cases fin : s.fin with
  | true =>
    obtain ⟨ends, buffered, there⟩ := refused_finished inv fin fits level passes
    refine ⟨ends, ?_, fun _ => there⟩
    have base : (if s.fin = true ∧ k ≠ 0 then [] else s.buffered) = if k = 0 then s.buffered else [] := by
      by_cases first : k = 0 <;> simp [fin, first]
    have room : sessionBufsize - s.levelAt k = 0 ↔ k = 0 ∧ s.sesbuf.datalen = sessionBufsize := by
      have bound := fits.short
      have bufsize : sessionBufsize = 8192 := rfl
      rw [Session.levelAt]
      split <;> omega
    rw [NothingLeft, base, buffered, List.append_right_eq_self, piece_nil_iff, room, Session.Spared]
    simp [fin]
  | false =>
    obtain ⟨ends, copied, buffered, none⟩ := refused_running fin fits level short passes
    refine ⟨ends, ?_, nofun⟩
    rw [NothingLeft, buffered, if_neg (by rw [fin]; nofun), List.append_right_eq_self, none, Session.Spared, fin]
    simp

/-- A call that failed had something to store, and still has when nothing of the block is left. -/
theorem refused_loaded {k : Nat} {s : Session} {ds : IWDS} {data : Bytes}
    (failed : (putSessionData vol s ds data).status = .err) (passes : FailsAfter vol k s ds data)
    (restored : NothingLeft s k (putSessionData vol s ds data)) :
    (putSessionData vol s ds data).ses.Loaded data := by
  by_contra unloaded
  rw [Session.Loaded, not_or, not_not, not_not] at unloaded
  obtain ⟨empty, rfl⟩ := unloaded
  have first : k = 0 := by
    cases k with
    | zero => rfl
    | succ k =>
      obtain ⟨_, _, _, _, _, more, _⟩ := fails_step passes
      cases more
  rw [NothingLeft, if_neg fun later => later.2 first] at restored
  have length := congrArg List.length restored
  rw [buffered_length, buffered_length, empty] at length
  rw [putSessionData, if_pos ⟨length.symm, rfl⟩] at failed
  cases failed

/-- Where nothing of the block is left, it can be sent again. -/
theorem stored_once {k : Nat} {before : Bytes} {s : Session} {ds : IWDS} {data : Bytes}
    (inv : Consistent vol ds) (keeps : s.Keeps vol ds) (writing : Writing vol before s ds) (short : data.length ≤ tftpDatalenMax)
    (failed : (putSessionData vol s ds data).status = .err) (passes : FailsAfter vol k s ds data)
    (restored : NothingLeft s k (putSessionData vol s ds data)) :
    StoredOnce vol before s data (putSessionData vol s ds data) := by
  obtain ⟨ends, -, saved⟩ := refused_left inv writing short failed passes
  have loaded := refused_loaded failed passes restored
  have absent : (putSessionData vol s ds data).ds.at s.dkey = none := by
    obtain done | ⟨-, absent⟩ := putSessionData_ends s data inv writing.fits
    · rw [failed] at done
      cases done
    · exact absent
  obtain ⟨chain, only, fits⟩ := putSessionData_steps vol s ds data
  intro ds' blk dlen now inv' faultless node file
  rw [absent] at node
  have ordinary : ds'.disk (vol.node s.filename) ≠ .device := by
    rw [file]
    exact chain.ordinary keeps
  generalize putSessionData vol s ds data = r at restored ends saved loaded chain only fits file ⊢
  dsimp only
  rw [storeBlock_eq]
  dsimp only
  have dkey : (Session.noticed { r.ses with fin := true } dlen).dkey = s.dkey := only.dkey
  have name : r.ses.filename = s.filename := congrArg Prod.snd dkey
  have absent' : ds'.at (Session.noticed { r.ses with fin := true } dlen).dkey = none := dkey ▸ node
  have fin : (Session.noticed { r.ses with fin := true } dlen).fin = true := rfl
  have again : Writing vol r.ses.buffered (Session.noticed { r.ses with fin := true } dlen) ds' :=
    ⟨fits writing.fits, ends, .buffered absent' rfl⟩
  have taken := again.taken data inv' faultless
  have refuses (there : ds'.disk (vol.node s.filename) ≠ .absent) :
      (putSessionData vol (Session.noticed { r.ses with fin := true } dlen) ds' data).status = .err := by
    have stuck : Stuck vol (Session.noticed { r.ses with fin := true } dlen) ds' := ⟨absent', by
      have same : (Session.noticed { r.ses with fin := true } dlen).filename = s.filename := name
      rw [same]
      exact FileNode.not_opens there ordinary⟩
    exact (stuck.refuses inv' fin loaded).1
  have mode : (Session.noticed { r.ses with fin := true } dlen).tftpmode = s.tftpmode := only.tftpmode
  have only' := (putSessionData_steps vol (Session.noticed { r.ses with fin := true } dlen) ds' data).2.1
  generalize putSessionData vol (Session.noticed { r.ses with fin := true } dlen) ds' data = r'
    at taken refuses only' ⊢
  by_cases done : r'.status = .done
  · intro _
    rw [if_pos done, if_pos (only'.fin.trans fin)]
    cases taken with
    | onwards _ running => cases running
    | nothing _ _ _ empty =>
      obtain ⟨none, rfl⟩ := empty
      obtain left | left := loaded
      · have length := congrArg List.length none
        rw [buffered_length] at length
        exact absurd length left
      · exact absurd rfl left
    | stuck err =>
      rw [err] at done
      cases done
    | discarded _ _ device =>
      rw [show (Session.noticed { r.ses with fin := true } dlen).filename = s.filename from name] at device
      exact absurd device ordinary
    | complete _ _ closed =>
      -- The file was not there before, so nothing of the session had been saved.
      have free : r.ds.disk (vol.node s.filename) = .absent := by
        by_contra taken
        have err := refuses (file ▸ taken)
        rw [err] at done
        cases done
      have whole : r.ses.buffered = s.buffered := by
        rw [NothingLeft, if_neg fun later => saved later.1 later.2 free] at restored
        exact restored
      have all : s.buffered = before := by
        cases writing.held with
        | buffered _ all => exact all
        | streaming d content _ _ held =>
          have present : ds.disk (vol.node s.filename) ≠ .absent := by
            rw [held]
            nofun
          exact absurd free (chain.present inv present)
        | discarding device => exact absurd device keeps
      have content := closed.settled.1
      have place : r'.ses.filename = s.filename := (congrArg Prod.snd only'.dkey).trans name
      rw [mode, whole, all, place] at content
      exact content
  · intro acked
    rw [if_neg done] at acked
    exact absurd (Option.some.inj acked) (ackMsg_ne_errorMsg _ _ _)

/-- A session whose name leads to a device takes in every block once the datastore works. -/
theorem Writing.done_device {total : Bytes} {s : Session} {ds : IWDS} (data : Bytes)
    (writing : Writing vol total s ds) (inv : Consistent vol ds) (faultless : ds.faults = [])
    (device : ds.disk (vol.node s.filename) = .device) : (putSessionData vol s ds data).status = .done := by
  obtain ⟨chain, only, -⟩ := putSessionData_steps vol s ds data
  have taken := writing.taken data inv faultless
  generalize putSessionData vol s ds data = r at taken chain only ⊢
  cases taken with
  | onwards done | complete done | nothing done | discarded done => exact done
  | stuck _ stuck =>
    have still := (chain.device_iff inv).mpr device
    have place : vol.node r.ses.filename = vol.node s.filename :=
      congrArg (fun k : Int × Bytes => vol.node k.2) only.dkey
    rw [← place] at still
    refine absurd ?_ stuck.taken
    rw [still]
    trivial

/-- What is acknowledged on a device is in no file. -/
theorem stored_nowhere {before : Bytes} {s : Session} {ds : IWDS} {data : Bytes} (inv : Consistent vol ds)
    (writing : Writing vol before s ds) (ends : (putSessionData vol s ds data).ses.sesbuf.pos =
      (putSessionData vol s ds data).ses.sesbuf.datalen)
    (device : ds.disk (vol.node s.filename) = .device) :
    ¬ StoredOnce vol before s data (putSessionData vol s ds data) := by
  intro once
  obtain ⟨chain, only, fits⟩ := putSessionData_steps vol s ds data
  have inv' := chain.consistent inv
  have still := (chain.device_iff inv).mpr device
  generalize putSessionData vol s ds data = r at once ends chain only fits inv' still
  let works : IWDS := { r.ds with faults := [] }
  have consistent : Consistent vol works := inv'.congr rfl rfl
  have dkey : (Session.noticed { r.ses with fin := true } 4).dkey = s.dkey := only.dkey
  have place : vol.node (Session.noticed { r.ses with fin := true } 4).filename = vol.node s.filename :=
    congrArg (fun k : Int × Bytes => vol.node k.2) dkey
  have again : Writing vol r.ses.buffered (Session.noticed { r.ses with fin := true } 4) works :=
    ⟨fits writing.fits, ends, .discarding (by rw [place]; exact still)⟩
  have done := again.done_device data consistent rfl (by rw [place]; exact still)
  have next := once works 0 4 0 consistent rfl rfl rfl
  have after := (putSessionData_steps vol (Session.noticed { r.ses with fin := true } 4) works data).1
  have gone : (putSessionData vol (Session.noticed { r.ses with fin := true } 4) works data).ds.disk
      (vol.node s.filename) = .device := by
    rw [after.discards consistent (by rw [dkey]; exact still)]
    exact still
  dsimp only at next
  rw [storeBlock_eq] at next
  dsimp only at next
  rw [if_pos done] at next
  have file := next rfl
  dsimp only at file
  split at file
  · rw [closeData_disk, gone] at file
    cases file
  · rw [gone] at file
    cases file

/-- A refused block leaves nothing behind, and so can be sent again, exactly where the failing pass had
nothing to copy and the name leads to no device.

Proof: the passes before the failing one went through, each with a save when it was due, so what the
buffer holds then is known; the failing pass puts its piece behind that, and the piece is empty just
where the pass is spared. The block sent again is followed by the lemmas for a session that writes. -/
theorem refused_block_iff {before : Bytes} {s : Session} {ds : IWDS} {data : Bytes}
    (inv : Consistent vol ds) (writing : Writing vol before s ds) (short : data.length ≤ tftpDatalenMax)
    (failed : (putSessionData vol s ds data).status = .err) :
    (∃ k, FailsAfter vol k s ds data) ∧ ∀ k, FailsAfter vol k s ds data →
      (NothingLeft s k (putSessionData vol s ds data) ∧
          StoredOnce vol before s data (putSessionData vol s ds data) ↔
        s.Spared k data ∧ s.Keeps vol ds) := by
  refine ⟨refused_pass failed, fun k passes => ?_⟩
  obtain ⟨ends, left, -⟩ := refused_left inv writing short failed passes
  constructor
  · rintro ⟨restored, once⟩
    exact ⟨left.mp restored, fun device => stored_nowhere inv writing ends device once⟩
  · rintro ⟨spared, keeps⟩
    have restored := left.mpr spared
    exact ⟨restored, stored_once inv keeps writing short failed passes restored⟩

/-! ## The first block of a file -/

/-- An upload that has just begun, when its first block is seen to be the last. -/
def freshWriter (mode : TftpMode) : Session := (startWriter ([1], 2000) ⟨[102], mode⟩ 5 0).noticed 5

/-- An empty datastore whose next `fopen` fails. -/
def failingOnce : IWDS := { dhead := [], disk := fun _ => .absent, faults := [.fail 0], trace := [] }

theorem freshWriter_writing (mode : TftpMode) :
    Writing smallHost.toVolume [] (freshWriter mode) failingOnce :=
  ⟨newSession_fits ([1], 2000) ⟨[102], mode⟩ 5, rfl, .buffered rfl rfl⟩

/-- The last block is a CR, which netascii drops. -/
theorem refused_block_sample :
    NothingLeft (freshWriter .netascii) 0
        (putSessionData smallHost.toVolume (freshWriter .netascii) failingOnce [cr]) ∧
      StoredOnce smallHost.toVolume [] (freshWriter .netascii) [cr]
        (putSessionData smallHost.toVolume (freshWriter .netascii) failingOnce [cr]) := by
  have failed : (putSessionData smallHost.toVolume (freshWriter .netascii) failingOnce [cr]).status = .err ∧
      (putLoop smallHost.toVolume 1 (freshWriter .netascii) failingOnce [cr]).status = .err := by
    decide +kernel
  have exact := refused_block_iff (consistent_nil rfl) (freshWriter_writing .netascii) (by decide) failed.1
  exact (exact.2 0 ⟨rfl, failed.2⟩).mpr ⟨.inr ⟨rfl, .inr ⟨rfl, rfl⟩⟩, nofun⟩

/-- Of a block that `put_session_data` refuses nothing is kept, and it can be sent again. -/
def RefusedWhole (vol : Volume) : Prop :=
  ∀ before s ds data k, Consistent vol ds → Writing vol before s ds → data.length ≤ tftpDatalenMax →
    (putSessionData vol s ds data).status = .err → FailsAfter vol k s ds data →
    NothingLeft s k (putSessionData vol s ds data) ∧
      StoredOnce vol before s data (putSessionData vol s ds data)

/-- A block of one byte for which `fopen` fails once. -/
def retriedBlock (faults : List Fault) : Event :=
  .datagram { arrival [1] (dataMsg 1 [7]) none with faults := faults }

/-- The block sent again is acknowledged, and its byte is in the file twice. -/
theorem refused_block_doubled :
    ¬ RefusedWhole smallHost.toVolume ∧
      let refused := step smallHost uploadOpen (retriedBlock [.fail 0])
      (outputs smallHost refused (retriedBlock [])).map Sent.msg = [ackMsg 1] ∧
        (step smallHost refused (retriedBlock [])).ads.disk (slash :: [102]) = .regular [7, 7] := by
  refine ⟨fun whole => ?_, by decide +kernel⟩
  have failed : (putSessionData smallHost.toVolume (freshWriter .octet) failingOnce [7]).status = .err ∧
      (putLoop smallHost.toVolume 1 (freshWriter .octet) failingOnce [7]).status = .err ∧
      (putSessionData smallHost.toVolume (freshWriter .octet) failingOnce [7]).ses.buffered ≠ [] := by
    decide +kernel
  have kept := (whole [] _ _ _ 0 (consistent_nil rfl) (freshWriter_writing .octet) (by decide) failed.1
    ⟨rfl, failed.2.1⟩).1
  exact failed.2.2 kept

end Iwtftpd
