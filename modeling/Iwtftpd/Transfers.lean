import Iwtftpd.Loading
import Iwtftpd.Outcomes
import Iwtftpd.Readable
import Iwtftpd.Saving
import Iwtftpd.TftpProc

/-!
# The transfer loops come to an end

The loops of `get_session_data` and `put_session_data` as the source has them,
without fuel: a derivation of `Gets` or `Puts` is a finite run of the loop, pass
by pass, with the way it ends. Every session and every datastore has one, and
the fuel that the model gives suffices for it.

Neither loop counts its passes. A pass of the first delivers at least one byte
or is the last. A pass of the second consumes a byte, or it empties a buffer
that was full.
-/

namespace Iwtftpd

/-! ## Runs of the loops -/

/-- How the loop of `get_session_data` ends: the room is full, the file has no more, or
`load_data` has failed. -/
inductive GetEnd where
  | full
  | endOfFile
  | readError
deriving DecidableEq

/-- The runs of the loop of `get_session_data`, from the head of the loop on. -/
inductive Gets (vol : Volume) : Session → IWDS → Nat → Bytes → GetEnd → GetReply → Prop where
  | readError {ses ses' : Session} {ds ds' : IWDS} {room : Nat} {out : Bytes}
      (empty : ses.sesbuf.datalen = 0) (failed : loadData vol ses ds = (false, ses', ds')) :
      Gets vol ses ds room out .readError { status := .err, out := out, ses := ses', ds := ds' }
  | endOfFile {ses ses' : Session} {ds ds' : IWDS} {room : Nat} {out : Bytes}
      (empty : ses.sesbuf.datalen = 0) (loaded : loadData vol ses ds = (true, ses', ds'))
      (nothing : ses'.sesbuf.datalen = 0) :
      Gets vol ses ds room out .endOfFile { status := .done, out := out, ses := ses', ds := ds' }
  | full {ses ses' : Session} {ds ds' : IWDS} {room : Nat} {out : Bytes}
      (refilled : refill vol ses ds = (.ready, ses', ds'))
      (fills : room ≤ (takePiece ses' ds' room).1.length) :
      Gets vol ses ds room out .full
        { status := .done, out := out ++ (takePiece ses' ds' room).1
          ses := (takePiece ses' ds' room).2.1, ds := (takePiece ses' ds' room).2.2 }
  | more {ses ses' : Session} {ds ds' : IWDS} {room : Nat} {out : Bytes} {how : GetEnd} {r : GetReply}
      (refilled : refill vol ses ds = (.ready, ses', ds'))
      (less : (takePiece ses' ds' room).1.length < room)
      (rest : Gets vol (takePiece ses' ds' room).2.1 (takePiece ses' ds' room).2.2
        (room - (takePiece ses' ds' room).1.length) (out ++ (takePiece ses' ds' room).1) how r) :
      Gets vol ses ds room out how r

/-- How the loop of `put_session_data` ends. -/
inductive PutEnd where
  | consumed
  | saveFailed
deriving DecidableEq

/-- The runs of the loop of `put_session_data`, with the length consumed in all. -/
inductive Puts (vol : Volume) : Session → IWDS → Bytes → Nat → PutEnd → PutReply → Prop where
  | saveFailed {ses ses' : Session} {ds ds' : IWDS} {data : Bytes}
      (failed : saveData vol (putPiece ses ds data).2.1 (putPiece ses ds data).2.2 = (false, ses', ds')) :
      Puts vol ses ds data (putPiece ses ds data).1 .saveFailed
        { status := .err, ses := ses', ds := ds' }
  | consumed {ses ses' : Session} {ds ds' : IWDS} {data : Bytes}
      (flushed : flush vol (putPiece ses ds data).2.1 (putPiece ses ds data).2.2 = (true, ses', ds'))
      (all : data.length ≤ (putPiece ses ds data).1) :
      Puts vol ses ds data (putPiece ses ds data).1 .consumed { status := .done, ses := ses', ds := ds' }
  | more {ses ses' : Session} {ds ds' : IWDS} {data : Bytes} {total : Nat} {how : PutEnd} {r : PutReply}
      (flushed : flush vol (putPiece ses ds data).2.1 (putPiece ses ds data).2.2 = (true, ses', ds'))
      (less : (putPiece ses ds data).1 < data.length)
      (rest : Puts vol ses' ds' (data.drop (putPiece ses ds data).1) total how r) :
      Puts vol ses ds data ((putPiece ses ds data).1 + total) how r

variable {vol : Volume}

/-! ## Reading -/

/-- A piece fits its room. -/
theorem takePiece_length (ses : Session) (ds : IWDS) (room : Nat) :
    (takePiece ses ds room).1.length ≤ room := by
  obtain ⟨piece, len, fopt, effects, yielded⟩ := takePiece_yielded ses ds room
  rw [yielded.result]
  exact yielded.short

/-- What the check of the buffer has met. -/
theorem refill_met {outcome : Refill} {ses ses' : Session} {ds ds' : IWDS}
    (refilled : refill vol ses ds = (outcome, ses', ds')) :
    match outcome with
    | .failed => ses.sesbuf.datalen = 0 ∧ loadData vol ses ds = (false, ses', ds')
    | .eof => ses.sesbuf.datalen = 0 ∧ loadData vol ses ds = (true, ses', ds') ∧ ses'.sesbuf.datalen = 0
    | .ready => ses'.sesbuf.datalen ≠ 0 := by
  cases outcome with
  | ready => exact refill_loaded refilled
  | failed =>
    rw [refill] at refilled
    split at refilled
    · rename_i empty
      split at refilled
      · rename_i failed
        cases refilled
        exact ⟨empty, failed⟩
      · split at refilled <;> cases refilled
    · cases refilled
  | eof =>
    rw [refill] at refilled
    split at refilled
    · rename_i empty
      split at refilled
      · cases refilled
      · rename_i loaded
        split at refilled
        · rename_i nothing
          cases refilled
          exact ⟨empty, loaded, nothing⟩
        · cases refilled
    · cases refilled

variable (vol) in
/-- Every run of the loop ends, and fuel for one pass more than there is room suffices for it. -/
theorem gets_total (room : Nat) (ses : Session) (ds : IWDS) (out : Bytes) (space : 0 < room) :
    ∃ how r, Gets vol ses ds room out how r ∧
      ∀ fuel, room ≤ fuel → getLoop vol (fuel + 1) ses ds room out = r := by
  induction room using Nat.strong_induction_on generalizing ses ds out with
  | h room inductionHypothesis =>
    obtain ⟨outcome, ses', ds', refilled⟩ : ∃ outcome ses' ds', refill vol ses ds = (outcome, ses', ds') :=
      ⟨_, _, _, rfl⟩
    have met := refill_met refilled
    cases outcome with
    | failed => exact ⟨_, _, .readError met.1 met.2, fun fuel _ => getLoop_failed refilled⟩
    | eof => exact ⟨_, _, .endOfFile met.1 met.2.1 met.2.2, fun fuel _ => getLoop_eof refilled⟩
    | ready =>
      have progress := takePiece_progress ds' space met
      rcases Nat.lt_or_ge (takePiece ses' ds' room).1.length room with less | fills
      · obtain ⟨how, r, rest, same⟩ := inductionHypothesis (room - (takePiece ses' ds' room).1.length)
          (by omega) (takePiece ses' ds' room).2.1 (takePiece ses' ds' room).2.2
          (out ++ (takePiece ses' ds' room).1) (by omega)
        refine ⟨how, r, .more refilled less rest, ?_⟩
        intro fuel enough
        obtain ⟨fuel', rfl⟩ : ∃ fuel', fuel = fuel' + 1 := ⟨fuel - 1, by omega⟩
        rw [getLoop_ready refilled, if_pos less]
        exact same fuel' (by omega)
      · refine ⟨_, _, .full refilled fills, ?_⟩
        intro fuel enough
        rw [getLoop_ready refilled, if_neg (by omega)]

variable (vol) in
/-- `get_session_data` runs its loop to the end. -/
theorem getSessionData_runs (ses : Session) (ds : IWDS) {dstbufsize : Nat} (space : 0 < dstbufsize) :
    ∃ how, Gets vol ses ds dstbufsize [] how (getSessionData vol ses ds dstbufsize) := by
  obtain ⟨how, r, run, enough⟩ := gets_total vol dstbufsize ses ds [] space
  have same : getSessionData vol ses ds dstbufsize = r := enough dstbufsize (Nat.le_refl _)
  exact ⟨how, same ▸ run⟩

/-- A run stays within its room, and fills it when it ends for that reason. -/
theorem Gets.length {ses : Session} {ds : IWDS} {room : Nat} {out : Bytes} {how : GetEnd} {r : GetReply}
    (run : Gets vol ses ds room out how r) :
    r.out.length ≤ out.length + room ∧ (how = .full → r.out.length = out.length + room) := by
  induction run with
  | readError empty failed => exact ⟨Nat.le_add_right _ _, nofun⟩
  | endOfFile empty loaded nothing => exact ⟨Nat.le_add_right _ _, nofun⟩
  | @full ses ses' ds ds' room out refilled fills =>
    have fits := takePiece_length ses' ds' room
    rw [List.length_append]
    omega
  | more refilled less rest inductionHypothesis =>
    rw [List.length_append] at inductionHypothesis
    refine ⟨by omega, ?_⟩
    intro full
    have filled := inductionHypothesis.2 full
    omega

theorem Gets.status {ses : Session} {ds : IWDS} {room : Nat} {out : Bytes} {how : GetEnd} {r : GetReply}
    (run : Gets vol ses ds room out how r) : r.status = if how = .readError then .err else .done := by
  induction run with
  | readError | endOfFile | full => rfl
  | more refilled less rest inductionHypothesis => exact inductionHypothesis

/-! ## The end of the file -/

/-- No stream under the key is outgrown. -/
def UpToDate (k : Int × Bytes) (ds : IWDS) : Prop := ∀ d, ds.at k = some d → ¬ Outgrown ds d.fp

/-- A read that goes through leaves the node behind it, and the files as they were. -/
theorem readFrom_passed {ds : IWDS} {d : DSession} {dlen : Nat} (found : ds.at d.key = some d)
    (clear : ¬ StreamError ds d.fp dlen) :
    (readFrom ds d dlen).ds.at d.key = some { d with fp := (fread ds d.fp dlen).fp } ∧
      (readFrom ds d dlen).ds.disk = ds.disk := by
  rw [readFrom]
  simp only [if_neg (mt streamError_iff.mp clear)]
  exact ⟨Keyed.lookup_store_self DSession.key (a := { d with fp := (fread ds d.fp dlen).fp }) found, rfl⟩

/-- A read without error that comes up short has met the end of the file, as it stands or as it
stood when the mark was set. -/
theorem fread_end {ds : IWDS} {fp : Stream} {dlen : Nat} (some : 0 < dlen)
    (clear : ¬ StreamError ds fp dlen) :
    ((fread ds fp dlen).data.length < dlen → (fread ds fp dlen).fp.eof = true) ∧
      (¬ Outgrown ds fp → ¬ Outgrown ds (fread ds fp dlen).fp) := by
  obtain ⟨mode, fault⟩ := not_streamError_iff.mp clear some
  cases marked : fp.eof with
  | true => simp [fread, mode, fault, marked, Outgrown]
  | false =>
    simp only [fread, mode, fault, marked, Outgrown, Bool.false_or, decide_eq_true_eq,
      List.length_take, List.length_drop, if_false, Bool.false_eq_true]
    omega

/-- The node of a key behind a read that went through. -/
structure Passed (k : Int × Bytes) (dlen : Nat) (ds : IWDS) (r : ReadReply) (d : DSession) : Prop where
  linked : r.ds.at k = some d
  marked : r.data.length < dlen → d.fp.eof = true
  upToDate : UpToDate k ds → ¬ Outgrown r.ds d.fp

theorem passed_node {ds ds₁ : IWDS} {d : DSession} {dlen : Nat} (some : 0 < dlen)
    (found : ds₁.at d.key = .some d) (clear : ¬ StreamError ds₁ d.fp dlen)
    (fresh : UpToDate d.key ds → ¬ Outgrown ds₁ d.fp) :
    ∃ d', Passed d.key dlen ds (readFrom ds₁ d dlen) d' := by
  obtain ⟨linked, disk⟩ := readFrom_passed found clear
  obtain ⟨marks, stays⟩ := fread_end some clear
  refine ⟨_, linked, ?_, ?_⟩
  · rw [(readFrom_clear ds₁ d clear).2]
    exact marks
  · intro upToDate
    have behind := stays (fresh upToDate)
    rw [Outgrown, disk]
    exact behind

/-- A read that reports `IW_OK` has its node. -/
theorem iwdsRead_passed {ds : IWDS} {id : Int} {file : Bytes} {dlen : Nat} (some : 0 < dlen)
    (ok : (iwdsRead vol ds id file dlen).derr = none) :
    ∃ d, Passed (id, file) dlen ds (iwdsRead vol ds id file dlen) d := by
  by_cases held : ∃ content, ds.disk (vol.node file) = .regular content
  · obtain ⟨content, held⟩ := held
    cases found : ds.at (id, file) with
    | some d =>
      have key : d.key = (id, file) := lookup_key found
      have noted : (ds.note (.iwdsRead id file)).at d.key = .some d := key ▸ found
      rw [iwdsRead_found dlen held found] at ok ⊢
      have fresh : UpToDate d.key ds → ¬ Outgrown (ds.note (.iwdsRead id file)) d.fp :=
        fun upToDate => upToDate d (key ▸ found)
      have node := passed_node some noted (readFrom_ok _ d ok) fresh
      rwa [key] at node
    | none =>
      obtain ⟨ds₁, created, -⟩ | ⟨ds₁, created, -, -, dhead, -⟩ :=
        createDsession_read vol (ds.note (.iwdsRead id file)) id file
      · rw [iwdsRead_unopened dlen held found created] at ok
        cases ok
      · rw [iwdsRead_opened dlen held found created] at ok ⊢
        have linked : ds₁.at (opened vol (id, file) .read).key = .some (opened vol (id, file) .read) := by
          rw [IWDS.at, dhead, Keyed.lookup_cons, if_pos rfl]
        have fresh : UpToDate (opened vol (id, file) .read).key ds →
            ¬ Outgrown ds₁ (opened vol (id, file) .read).fp := by
          rintro - ⟨eof, -⟩
          cases eof
        exact passed_node some linked (readFrom_ok ds₁ _ ok) fresh
  · rw [iwdsRead_missing id dlen (fun content here => held ⟨content, here⟩)] at ok
    cases ok

/-- The stream under the key has met the end of its file. The file is no longer than the stream
has come, unless the call has found the stream outgrown already. -/
def AtEnd (k : Int × Bytes) (ds ds' : IWDS) : Prop :=
  ∃ d, ds'.at k = some d ∧ d.fp.eof = true ∧
    (UpToDate k ds → (ds'.disk d.fp.node).bytes.length ≤ d.fp.off)

/-- A load that goes through has its node; when it brings nothing, it is at the end of the file. -/
theorem loadData_passed {ses ses' : Session} {ds ds' : IWDS}
    (loaded : loadData vol ses ds = (true, ses', ds')) :
    (UpToDate ses.dkey ds → UpToDate ses.dkey ds') ∧
      (ses'.sesbuf.datalen = 0 → AtEnd ses.dkey ds ds') := by
  have ok : (iwdsRead vol ds ses.clsock ses.filename sessionBufsize).derr = none := by
    by_contra failed
    obtain ⟨_, failure⟩ := loadData_failed failed
    rw [failure] at loaded
    cases loaded
  have size : 0 < sessionBufsize := by decide
  obtain ⟨d, linked, marked, upToDate⟩ := iwdsRead_passed size ok
  rw [loadData_filled ok] at loaded
  cases loaded
  constructor
  · intro before d' found
    have same := Option.some.inj (linked.symm.trans found)
    rw [← same]
    exact upToDate before
  · intro nothing
    have eof := marked (lt_of_eq_of_lt nothing size)
    refine ⟨d, linked, eof, ?_⟩
    intro before
    by_contra longer
    exact upToDate before ⟨eof, Nat.lt_of_not_le longer⟩

theorem refill_upToDate {outcome : Refill} {ses ses' : Session} {ds ds' : IWDS}
    (refilled : refill vol ses ds = (outcome, ses', ds')) (passes : outcome ≠ .failed)
    (upToDate : UpToDate ses.dkey ds) : UpToDate ses.dkey ds' := by
  rw [refill] at refilled
  split at refilled
  · split at refilled
    · cases refilled
      exact absurd rfl passes
    · rename_i loaded
      cases refilled
      exact (loadData_passed loaded).1 upToDate
  · cases refilled
    exact upToDate

theorem takePiece_upToDate {ses : Session} {ds : IWDS} (room : Nat) {k : Int × Bytes}
    (upToDate : UpToDate k ds) : UpToDate k (takePiece ses ds room).2.2 := by
  rw [takePiece]
  cases ses.tftpmode <;> exact upToDate

/-- A run that stops for want of data is at the end of the file. -/
theorem Gets.atEnd {ses : Session} {ds : IWDS} {room : Nat} {out : Bytes} {how : GetEnd} {r : GetReply}
    (run : Gets vol ses ds room out how r) (ended : how = .endOfFile) : AtEnd ses.dkey ds r.ds := by
  induction run with
  | readError | full => cases ended
  | endOfFile empty loaded nothing => exact (loadData_passed loaded).2 nothing
  | @more ses ses' ds ds' room out how r refilled less rest inductionHypothesis =>
    have same := refill_only vol ses ds
    rw [refilled] at same
    have key : (takePiece ses' ds' room).2.1.dkey = ses.dkey :=
      (takePiece_only ses' ds' room).dkey.trans same.dkey
    obtain ⟨d, linked, eof, covers⟩ := inductionHypothesis ended
    rw [key] at linked covers
    refine ⟨d, linked, eof, ?_⟩
    intro upToDate
    exact covers (takePiece_upToDate room (refill_upToDate refilled nofun upToDate))

/-! ## Writing -/

theorem putPiece_consumed (ses : Session) (ds : IWDS) (data : Bytes) :
    (putPiece ses ds data).1 = ses.consumed data := by
  rw [putPiece_eq]
  rfl

theorem consumed_within (ses : Session) (data : Bytes) : ses.consumed data ≤ data.length := by
  have within := consumed_length ses.tftpmode (sessionBufsize - ses.sesbuf.datalen) data
  rw [List.length_take] at within
  exact within.trans (Nat.min_le_right _ _)

/-- A copy leaves the buffer no fuller than it can be. -/
theorem putPiece_short {ses : Session} (ds : IWDS) (data : Bytes)
    (short : ses.sesbuf.datalen ≤ sessionBufsize) :
    (putPiece ses ds data).2.1.sesbuf.datalen ≤ sessionBufsize := by
  have piece := piece_length ses.tftpmode (sessionBufsize - ses.sesbuf.datalen) data
  rw [List.length_take] at piece
  rw [putPiece_eq]
  show ses.sesbuf.datalen + _ ≤ sessionBufsize
  omega

/-- What the check at the foot of the loop has met. -/
theorem flush_failed {ses ses' : Session} {ds ds' : IWDS} (failed : flush vol ses ds = (false, ses', ds')) :
    saveData vol ses ds = (false, ses', ds') := by
  rw [flush] at failed
  split at failed
  · exact failed
  · cases failed

theorem flush_short {ses ses' : Session} {ds ds' : IWDS} (flushed : flush vol ses ds = (true, ses', ds'))
    (short : ses.sesbuf.datalen ≤ sessionBufsize) : ses'.sesbuf.datalen < sessionBufsize := by
  have space : (flush vol ses ds).2.1.sesbuf.datalen ≠ sessionBufsize := flush_space (by rw [flushed])
  rw [flushed] at space
  have emptied := saveData_session vol ses ds
  rw [flush] at flushed
  split at flushed
  · rw [flushed, if_pos rfl] at emptied
    have drained : ses'.sesbuf.datalen = 0 := congrArg (fun s => s.sesbuf.datalen) emptied
    have size : 0 < sessionBufsize := by decide
    rwa [drained]
  · cases flushed
    exact Nat.lt_of_le_of_ne short space

/-- The passes that a session and a block can still take: one for each byte, and one to empty a
full buffer. -/
def Session.passes (ses : Session) (data : Bytes) : Nat :=
  data.length + if ses.sesbuf.datalen = sessionBufsize then 1 else 0

/-- A pass that goes on has consumed a byte or emptied a full buffer. -/
theorem passes_fewer {ses ses' : Session} {ds ds' : IWDS} {data : Bytes}
    (short : ses.sesbuf.datalen ≤ sessionBufsize) (less : ses.consumed data < data.length)
    (flushed : flush vol (putPiece ses ds data).2.1 (putPiece ses ds data).2.2 = (true, ses', ds')) :
    ses'.passes (data.drop (ses.consumed data)) < ses.passes data := by
  have space := flush_short flushed (putPiece_short ds data short)
  rw [Session.passes, Session.passes, if_neg (Nat.ne_of_lt space), List.length_drop]
  by_cases full : ses.sesbuf.datalen = sessionBufsize
  · rw [if_pos full]
    omega
  · have some : data ≠ [] := fun nothing => Nat.not_lt_zero _ (by rw [nothing] at less; exact less)
    have progress := consumed_progress (Nat.lt_of_le_of_ne short full) some
    omega

/-- Every run of the loop ends, and fuel for one pass more than its count suffices for it. -/
theorem puts_total (n : Nat) (ses : Session) (ds : IWDS) (data : Bytes)
    (short : ses.sesbuf.datalen ≤ sessionBufsize) (bound : ses.passes data ≤ n) :
    ∃ total how r, Puts vol ses ds data total how r ∧
      ∀ fuel, n ≤ fuel → putLoop vol (fuel + 1) ses ds data = r := by
  induction n using Nat.strong_induction_on generalizing ses ds data with
  | h n inductionHypothesis =>
    obtain ⟨passed, ses', ds', flushed⟩ : ∃ passed ses' ds',
        flush vol (putPiece ses ds data).2.1 (putPiece ses ds data).2.2 = (passed, ses', ds') := ⟨_, _, _, rfl⟩
    have pass (fuel : Nat) := putLoop_succ vol fuel ses ds data
    simp only [flushed] at pass
    cases passed with
    | false =>
      refine ⟨_, _, _, .saveFailed (flush_failed flushed), ?_⟩
      intro fuel enough
      rw [pass, if_pos rfl]
    | true =>
      rcases Nat.lt_or_ge (putPiece ses ds data).1 data.length with less | all
      · have consumed := putPiece_consumed ses ds data
        have fewer := passes_fewer short (consumed ▸ less) flushed
        rw [← consumed] at fewer
        have short' := Nat.le_of_lt (flush_short flushed (putPiece_short ds data short))
        obtain ⟨total, how, r, rest, same⟩ := inductionHypothesis (n - 1) (by omega) ses' ds'
          (data.drop (putPiece ses ds data).1) short' (by omega)
        refine ⟨_, how, r, .more flushed less rest, ?_⟩
        intro fuel enough
        obtain ⟨fuel', rfl⟩ : ∃ fuel', fuel = fuel' + 1 := ⟨fuel - 1, by omega⟩
        rw [pass, if_neg Bool.noConfusion, if_pos less]
        exact same fuel' (by omega)
      · refine ⟨_, _, _, .consumed flushed all, ?_⟩
        intro fuel enough
        rw [pass, if_neg Bool.noConfusion, if_neg (by omega)]

/-- A run that ends well has consumed everything. -/
theorem Puts.all {ses : Session} {ds : IWDS} {data : Bytes} {total : Nat} {how : PutEnd} {r : PutReply}
    (run : Puts vol ses ds data total how r) (ended : how = .consumed) : total = data.length := by
  induction run with
  | saveFailed => cases ended
  | @consumed ses ses' ds ds' data flushed all =>
    have within := consumed_within ses data
    rw [← putPiece_consumed ses ds data] at within
    omega
  | more flushed less rest inductionHypothesis =>
    have sum := inductionHypothesis ended
    rw [List.length_drop] at sum
    omega

theorem Puts.status {ses : Session} {ds : IWDS} {data : Bytes} {total : Nat} {how : PutEnd} {r : PutReply}
    (run : Puts vol ses ds data total how r) : r.status = if how = .saveFailed then .err else .done := by
  induction run with
  | saveFailed | consumed => rfl
  | more flushed less rest inductionHypothesis => exact inductionHypothesis

/-! ## Both -/

/-- `get_session_data` comes to its end with no more bytes than asked for; with fewer only at the
end of the file or when a load has failed. -/
def GetComesToEnd (vol : Volume) (ses : Session) (ds : IWDS) (dstbufsize : Nat) : Prop :=
  ∃ how, Gets vol ses ds dstbufsize [] how (getSessionData vol ses ds dstbufsize) ∧
    (getSessionData vol ses ds dstbufsize).out.length ≤ dstbufsize ∧
    match how with
    | .full => (getSessionData vol ses ds dstbufsize).status = .done ∧
        (getSessionData vol ses ds dstbufsize).out.length = dstbufsize
    | .endOfFile => (getSessionData vol ses ds dstbufsize).status = .done ∧
        AtEnd ses.dkey ds (getSessionData vol ses ds dstbufsize).ds
    | .readError => (getSessionData vol ses ds dstbufsize).status = .err

/-- `put_session_data` comes to its end: it has nothing to do, or its loop consumes everything or
fails in a save. -/
def PutComesToEnd (vol : Volume) (ses : Session) (ds : IWDS) (data : Bytes) : Prop :=
  (ses.sesbuf.datalen = 0 ∧ data = [] ∧
      putSessionData vol ses ds data = { status := .done, ses := ses, ds := ds }) ∨
    ∃ total how, Puts vol ses ds data total how (putSessionData vol ses ds data) ∧
      match how with
      | .consumed => (putSessionData vol ses ds data).status = .done ∧ total = data.length
      | .saveFailed => (putSessionData vol ses ds data).status = .err

/-- Both transfer loops end, from every session with a buffer no fuller than it can be and every
datastore.

Proof: a pass of either loop copies at least a byte, ends the loop, or saves a full buffer, so
what is left to copy bounds the passes. -/
theorem transfers_end (vol : Volume) {ses : Session} (ds : IWDS)
    (short : ses.sesbuf.datalen ≤ sessionBufsize) :
    (∀ dstbufsize, 0 < dstbufsize → GetComesToEnd vol ses ds dstbufsize) ∧
      ∀ data, PutComesToEnd vol ses ds data := by
  constructor
  · intro dstbufsize space
    obtain ⟨how, run⟩ := getSessionData_runs vol ses ds space
    have length := run.length
    have status := run.status
    have atEnd := run.atEnd
    rw [List.length_nil, Nat.zero_add] at length
    refine ⟨how, run, length.1, ?_⟩
    cases how with
    | full => exact ⟨status, length.2 rfl⟩
    | endOfFile => exact ⟨status, atEnd rfl⟩
    | readError => exact status
  · intro data
    by_cases idle : ses.sesbuf.datalen = 0 ∧ data.length = 0
    · left
      refine ⟨idle.1, List.length_eq_zero_iff.mp idle.2, ?_⟩
      rw [putSessionData, if_pos idle]
    · right
      have bound : ses.passes data ≤ data.length + 1 := by
        rw [Session.passes]
        split <;> omega
      obtain ⟨total, how, r, run, enough⟩ := puts_total (data.length + 1) ses ds data short bound
      have same : putSessionData vol ses ds data = r := by
        rw [putSessionData, if_neg idle]
        exact enough (data.length + 1) (Nat.le_refl _)
      subst same
      have status := run.status
      have all := run.all
      refine ⟨total, how, run, ?_⟩
      cases how with
      | consumed => exact ⟨status, all rfl⟩
      | saveFailed => exact status

/-- A session in the midst of a transfer, with a buffer that has been filled. -/
def busySession (pos datalen : Nat) : Session :=
  { newSession ([1], 2000) ⟨ascii "f", .octet⟩ 5 with
    sesbuf := { pos := pos, fopt := false, datalen := datalen, storage := wholeBuffer 7 } }

/-- A file of a buffer and 600 bytes, of which the buffer has been read. -/
def halfRead : IWDS where
  dhead := [
    { clid := 5
      fp := { mode := .read, node := srvVolume.node (ascii "f"), off := sessionBufsize, eof := false }
      filename := ascii "f" }]
  disk := fun _ => .regular (wholeBuffer 7 ++ List.replicate 600 8)
  faults := []
  trace := []

/-- A block that takes what is left in the buffer and needs the rest of the file, and a block
that comes to a full buffer. -/
theorem transfers_end_sample :
    GetComesToEnd srvVolume (busySession 8092 100) halfRead 512 ∧
      PutComesToEnd srvVolume (busySession 8192 8192) (emptyDisk .none) (List.replicate 512 9) :=
  ⟨(transfers_end srvVolume halfRead
      (show (busySession 8092 100).sesbuf.datalen ≤ sessionBufsize by decide)).1 512 (by decide),
    (transfers_end srvVolume (emptyDisk .none)
      (show (busySession 8192 8192).sesbuf.datalen ≤ sessionBufsize by decide)).2 (List.replicate 512 9)⟩

end Iwtftpd
