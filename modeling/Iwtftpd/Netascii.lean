import Iwtftpd.Undoing
import Iwtftpd.Upload

/-!
# An upload in netascii

A CR ends a piece of a block, and at the end of the transfer every piece is
followed by a save. A save of nothing tells the datastore that the file is
complete. So the last block is refused when such a save comes before its end:
when a CR that is not its last byte follows another CR, or the bytes before it
have just filled the buffer, or it comes first and the buffer is empty. And an
upload of CRs alone that ends with an empty block makes no file. A name that
leads to a device makes none either, whatever is sent.
-/

namespace Iwtftpd

variable {host : Host} {vol : Volume}

/-! ## Saves of nothing -/

/-- Every CR of the last block, but one that ends it, comes when the buffer holds something;
`fill` counts the bytes since the last save. -/
def NoEmptySave : Nat → Bytes → Prop
  | _, [] => True
  | fill, b :: rest =>
    if b = cr then (fill % sessionBufsize ≠ 0 ∨ rest = []) ∧ NoEmptySave 0 rest
    else NoEmptySave (fill + 1) rest

instance decideNoEmptySave : ∀ fill data, Decidable (NoEmptySave fill data)
  | _, [] => inferInstanceAs (Decidable True)
  | fill, b :: rest =>
    have := decideNoEmptySave 0 rest
    have := decideNoEmptySave (fill + 1) rest
    inferInstanceAs (Decidable (if b = cr then (fill % sessionBufsize ≠ 0 ∨ rest = []) ∧ NoEmptySave 0 rest
      else NoEmptySave (fill + 1) rest))

theorem noEmptySave_cr (fill : Nat) (rest : Bytes) :
    NoEmptySave fill (cr :: rest) ↔ (fill % sessionBufsize ≠ 0 ∨ rest = []) ∧ NoEmptySave 0 rest := by
  rw [NoEmptySave, if_pos rfl]

theorem noEmptySave_plain {plain : Bytes} (fill : Nat) (rest : Bytes) (free : cr ∉ plain) :
    NoEmptySave fill (plain ++ rest) ↔ NoEmptySave (fill + plain.length) rest := by
  induction plain generalizing fill with
  | nil => rfl
  | cons b plain inductionHypothesis =>
    rw [List.mem_cons, not_or] at free
    rw [List.cons_append, NoEmptySave, if_neg (Ne.symm free.1), inductionHypothesis _ free.2,
      List.length_cons, Nat.add_assoc, Nat.add_comm 1]

/-- A full buffer is saved at once. -/
theorem noEmptySave_full (fill : Nat) (data : Bytes) :
    NoEmptySave (fill + sessionBufsize) data ↔ NoEmptySave fill data := by
  induction data generalizing fill with
  | nil => rfl
  | cons b rest inductionHypothesis =>
    rw [NoEmptySave, NoEmptySave, Nat.add_mod_right, Nat.add_right_comm, inductionHypothesis]

/-- How one copy in netascii divides the data. -/
inductive Cut (room : Nat) (data piece rest : Bytes) : Prop where
  | atCr (free : cr ∉ piece) (less : piece.length < room) (all : data = piece ++ cr :: rest)
  | atEnd (free : cr ∉ piece) (full : rest ≠ [] → piece.length = room) (all : data = piece ++ rest)

theorem netascii_cut (room : Nat) (data : Bytes) :
    Cut room data (TftpMode.netascii.piece room data)
      (data.drop (TftpMode.netascii.consumed room data)) := by
  induction data generalizing room with
  | nil =>
    have nothing : TftpMode.netascii.piece room [] = [] := by simp [TftpMode.piece]
    rw [TftpMode.consumed, nothing, List.drop_nil]
    exact .atEnd List.not_mem_nil (fun some => absurd rfl some) rfl
  | cons b rest inductionHypothesis =>
    cases room with
    | zero =>
      have none : TftpMode.netascii.consumed 0 (b :: rest) = 0 := by
        simp [TftpMode.consumed, TftpMode.piece]
      rw [none]
      exact .atEnd List.not_mem_nil (fun _ => rfl) rfl
    | succ room =>
      by_cases isCr : b = cr
      · have one : TftpMode.netascii.consumed (room + 1) (b :: rest) = 1 := by
          simp [TftpMode.consumed, TftpMode.piece, isCr]
        have nothing : TftpMode.netascii.piece (room + 1) (b :: rest) = [] := by
          simp [TftpMode.piece, isCr]
        rw [one, nothing]
        refine .atCr List.not_mem_nil (Nat.succ_pos room) ?_
        rw [isCr]
        rfl
      · have next := inductionHypothesis room
        have piece : TftpMode.netascii.piece (room + 1) (b :: rest) =
            b :: TftpMode.netascii.piece room rest := by
          simp [TftpMode.piece, isCr]
        have consumed : TftpMode.netascii.consumed (room + 1) (b :: rest) =
            TftpMode.netascii.consumed room rest + 1 := by
          simp only [TftpMode.consumed, piece, List.length_cons, List.take_succ_cons,
            Nat.add_lt_add_iff_right]
          omega
        rw [piece, consumed, List.drop_succ_cons]
        generalize TftpMode.netascii.piece room rest = plain at next ⊢
        generalize rest.drop (TftpMode.netascii.consumed room rest) = left at next ⊢
        cases next with
        | atCr free less all =>
          refine .atCr ?_ (Nat.succ_lt_succ less) (congrArg _ all)
          rw [List.mem_cons, not_or]
          exact ⟨Ne.symm isCr, free⟩
        | atEnd free full all =>
          refine .atEnd ?_ (fun some => congrArg Nat.succ (full some)) (congrArg _ all)
          rw [List.mem_cons, not_or]
          exact ⟨Ne.symm isCr, free⟩

/-- A pass that has put something into the buffer leaves the condition to the rest. -/
theorem Cut.noEmptySave {fill : Nat} {data piece rest : Bytes} (short : fill ≤ sessionBufsize)
    (cut : Cut (sessionBufsize - fill) data piece rest) (some : fill + piece.length ≠ 0) :
    NoEmptySave fill data ↔ NoEmptySave 0 rest := by
  cases cut with
  | atCr free less all =>
    have holds : (fill + piece.length) % sessionBufsize ≠ 0 := by
      rw [Nat.mod_eq_of_lt (by omega)]
      exact some
    rw [all, noEmptySave_plain fill _ free, noEmptySave_cr]
    exact and_iff_right (.inl holds)
  | atEnd free full all =>
    rw [all, noEmptySave_plain fill rest free]
    by_cases none : rest = []
    · rw [none]
      exact Iff.rfl
    · have whole : fill + piece.length = 0 + sessionBufsize := by
        rw [full none]
        omega
      rw [whole, noEmptySave_full]

/-- A pass that has put nothing into an empty buffer must be the last. -/
theorem Cut.noEmptySave_nothing {data piece rest : Bytes}
    (cut : Cut sessionBufsize data piece rest) (nothing : piece = []) :
    NoEmptySave 0 data ↔ rest = [] := by
  subst nothing
  cases cut with
  | atCr _ _ all =>
    rw [all, List.nil_append, noEmptySave_cr]
    constructor
    · rintro ⟨impossible | none, _⟩
      · exact absurd rfl impossible
      · exact none
    · intro none
      rw [none]
      exact ⟨.inr rfl, trivial⟩
  | atEnd _ full all =>
    have none : rest = [] := by
      by_contra some
      exact absurd (full some) (by decide)
    rw [all, none]
    exact ⟨fun _ => rfl, fun _ => trivial⟩

/-! ## Blocks -/

/-- There is a stream to write to, or one can be opened. -/
def Session.Free (vol : Volume) (s : Session) (ds : IWDS) : Prop :=
  ds.at s.dkey ≠ none ∨ (ds.disk (vol.node s.filename)).Opens

instance (vol : Volume) (s : Session) (ds : IWDS) : Decidable (s.Free vol ds) :=
  inferInstanceAs (Decidable (_ ∨ _))

theorem Session.Free.not_stuck {s : Session} {ds : IWDS} (free : s.Free vol ds) : ¬ Stuck vol s ds := by
  rintro ⟨absent, taken⟩
  exact free.elim (fun there => there absent) (fun opens => taken opens)

theorem stuck_of_not_free {s : Session} {ds : IWDS} (free : ¬ s.Free vol ds) : Stuck vol s ds := by
  rw [Session.Free, not_or, not_not] at free
  exact ⟨free.1, free.2⟩

theorem more_iff (s : Session) (data : Bytes) :
    s.consumed data < data.length ↔ data.drop (s.consumed data) ≠ [] := by
  rw [ne_eq, List.drop_eq_nil_iff, Nat.not_le]

theorem consumed_enough {s : Session} {data : Bytes} {fuel : Nat}
    (enough : data.length + (if s.sesbuf.datalen = sessionBufsize then 1 else 0) < fuel + 1)
    (fits : s.sesbuf.Fits) (more : data.drop (s.consumed data) ≠ []) :
    (data.drop (s.consumed data)).length < fuel := by
  have short := fits.short
  have some : data ≠ [] := by
    intro none
    rw [none, List.drop_nil] at more
    exact more rfl
  rw [List.length_drop]
  have positive := List.length_pos_iff.mpr some
  by_cases full : s.sesbuf.datalen = sessionBufsize
  · rw [if_pos full] at enough
    omega
  · have progress : 0 < s.consumed data := consumed_progress (by omega) some
    omega

/-- The last block is taken in exactly when no save of nothing comes before its end. -/
theorem Writing.putLoop_last (fuel : Nat) {total : Bytes} {s : Session} {ds : IWDS} (data : Bytes)
    (writing : Writing vol total s ds) (netascii : s.tftpmode = .netascii) (inv : Consistent vol ds)
    (faultless : ds.faults = []) (fin : s.fin = true) (free : s.Free vol ds) (keeps : s.Keeps vol ds)
    (enough : data.length + (if s.sesbuf.datalen = sessionBufsize then 1 else 0) < fuel) :
    (Iwtftpd.putLoop vol fuel s ds data).status = .done ↔ NoEmptySave s.sesbuf.datalen data := by
  induction fuel generalizing total s ds data with
  | zero => omega
  | succ fuel inductionHypothesis =>
    obtain ⟨ds₁, dhead, disk, faults, pass⟩ := putLoop_pass vol fuel s ds data
    have inv₁ : Consistent vol ds₁ := inv.congr dhead disk
    have node₁ : ds₁.at s.dkey = ds.at s.dkey := by rw [IWDS.at, dhead, IWDS.at]
    have same : Writing vol total s ds₁ := writing.same rfl rfl node₁ disk
    have keeps₁ : (s.behind data).Keeps vol ds₁ := by
      rw [Session.Keeps, disk]
      exact keeps
    have flushed := (same.behind data).flush inv₁ (faults.trans faultless)
    have only := flush_only vol (s.behind data) ds₁
    have chain := flush_chain vol (s.behind data) ds₁
    have short := writing.fits.short
    have cut := netascii_cut (sessionBufsize - s.sesbuf.datalen) data
    have filled : (s.behind data).sesbuf.datalen =
        s.sesbuf.datalen + (TftpMode.netascii.piece (sessionBufsize - s.sesbuf.datalen) data).length := by
      rw [← netascii]
      rfl
    have rest := consumed_enough enough writing.fits
    have consumed : s.consumed data =
        TftpMode.netascii.consumed (sessionBufsize - s.sesbuf.datalen) data := by
      rw [Session.consumed, netascii]
    rw [pass]
    dsimp only
    rw [← consumed] at cut
    generalize Iwtftpd.flush vol (s.behind data) ds₁ = f at flushed only chain ⊢
    cases flushed with
    | refused s' ds' was =>
      have stuck : Stuck vol s ds := ⟨node₁ ▸ was.absent, disk ▸ was.taken⟩
      exact absurd stuck free.not_stuck
    | closed _ s' ds' closed _ empty =>
      -- The pass put nothing into an empty buffer, and the file is closed.
      rw [filled] at empty
      have nothing : s.sesbuf.datalen = 0 := by omega
      rw [nothing, Nat.sub_zero] at cut empty
      have iff := cut.noEmptySave_nothing (List.eq_nil_of_length_eq_zero (by omega))
      rw [nothing, iff, if_neg Bool.noConfusion]
      by_cases more : data.drop (s.consumed data) = []
      · rw [if_neg (mt (more_iff s data).mp (not_not.mpr more))]
        exact ⟨fun _ => more, fun _ => rfl⟩
      · rw [if_pos ((more_iff s data).mpr more)]
        obtain ⟨less, rfl⟩ : ∃ less, fuel = less + 1 := ⟨fuel - 1, by have := rest more; omega⟩
        have err := (closed.stuck.putLoop less (data.drop (s.consumed data)) (chain.consistent inv₁)
          (only.fin.trans fin)).1
        rw [err]
        exact ⟨by rintro ⟨⟩, fun none => absurd none more⟩
    | writing s' ds' writing' faultless' saved =>
      obtain ⟨loaded, empty, there⟩ := saved keeps₁ (.inr fin)
      have keeps' : s'.Keeps vol ds' := by
        rw [Session.Keeps, show s'.filename = s.filename from filename_of_ident only.ident]
        exact chain.ordinary keeps₁
      rw [filled] at loaded
      rw [if_neg Bool.noConfusion, cut.noEmptySave short loaded]
      by_cases more : data.drop (s.consumed data) = []
      · rw [if_neg (mt (more_iff s data).mp (not_not.mpr more)), more]
        exact ⟨fun _ => trivial, fun _ => rfl⟩
      · have unfilled : ¬ s'.sesbuf.datalen = sessionBufsize := by
          rw [empty]
          decide
        have next := inductionHypothesis (data.drop (s.consumed data)) writing'
          (only.tftpmode.trans netascii) (chain.consistent inv₁) faultless' (only.fin.trans fin)
          (.inl there) keeps' (by rw [if_neg unfilled]; exact rest more)
        rw [if_pos ((more_iff s data).mpr more), next, empty]

/-- A block before the last is taken in as long as a save that comes due can be made. -/
theorem Writing.putLoop_free (fuel : Nat) {total : Bytes} {s : Session} {ds : IWDS} (data : Bytes)
    (writing : Writing vol total s ds) (inv : Consistent vol ds) (faultless : ds.faults = [])
    (running : s.fin = false) (free : s.Free vol ds)
    (enough : data.length + (if s.sesbuf.datalen = sessionBufsize then 1 else 0) < fuel) :
    (Iwtftpd.putLoop vol fuel s ds data).status = .done := by
  induction fuel generalizing total s ds data with
  | zero => omega
  | succ fuel inductionHypothesis =>
    obtain ⟨ds₁, dhead, disk, faults, pass⟩ := putLoop_pass vol fuel s ds data
    have inv₁ : Consistent vol ds₁ := inv.congr dhead disk
    have node₁ : ds₁.at s.dkey = ds.at s.dkey := by rw [IWDS.at, dhead, IWDS.at]
    have same : Writing vol total s ds₁ := writing.same rfl rfl node₁ disk
    have flushed := (same.behind data).flush inv₁ (faults.trans faultless)
    have only := flush_only vol (s.behind data) ds₁
    have chain := flush_chain vol (s.behind data) ds₁
    have space : (Iwtftpd.flush vol (s.behind data) ds₁).1 = true → _ := flush_space
    have rest := consumed_enough enough writing.fits
    have free₁ : (s.behind data).Free vol ds₁ := by
      rw [Session.Free, disk]
      exact free.imp_left fun there => node₁ ▸ there
    rw [pass]
    dsimp only
    generalize Iwtftpd.flush vol (s.behind data) ds₁ = f at flushed only chain space ⊢
    cases flushed with
    | refused s' ds' was => exact absurd was free₁.not_stuck
    | closed _ s' ds' closed fin =>
      have fin : s.fin = true := fin
      rw [running] at fin
      cases fin
    | writing s' ds' writing' faultless' saved early =>
      rw [if_neg Bool.noConfusion]
      have free' : s'.Free vol ds' := by
        by_cases due : (s.behind data).Flushes
        · by_cases keeps : (s.behind data).Keeps vol ds₁
          · exact .inl (saved keeps due).2.2
          · have still := (chain.device_iff inv₁).mpr (not_not.mp keeps)
            rw [Session.Free, show s'.filename = s.filename from filename_of_ident only.ident]
            exact .inr (by rw [show ds'.disk (vol.node s.filename) = .device from still]; trivial)
        · obtain ⟨rfl, rfl⟩ := early due
          exact free₁
      split
      · rename_i more
        refine inductionHypothesis _ writing' (chain.consistent inv₁) faultless'
          (only.fin.trans running) free' ?_
        rw [if_neg (space rfl)]
        exact rest ((more_iff s data).mp more)
      · rfl

/-- Without a stream, and none to be had, a block before the last is taken in as long as it
leaves room in the buffer. -/
theorem Stuck.putLoop_room (fuel : Nat) {s : Session} {ds : IWDS} (data : Bytes)
    (stuck : Stuck vol s ds) (fits : s.sesbuf.Fits) (inv : Consistent vol ds) (running : s.fin = false)
    (enough : data.length + (if s.sesbuf.datalen = sessionBufsize then 1 else 0) < fuel) :
    (Iwtftpd.putLoop vol fuel s ds data).status = .done ↔
      s.sesbuf.datalen + (s.tftpmode.kept data).length < sessionBufsize := by
  induction fuel generalizing s ds data with
  | zero => omega
  | succ fuel inductionHypothesis =>
    obtain ⟨ds₁, dhead, disk, faults, pass⟩ := putLoop_pass vol fuel s ds data
    have inv₁ : Consistent vol ds₁ := inv.congr dhead disk
    have stuck₁ : Stuck vol (s.behind data) ds₁ :=
      ⟨by rw [IWDS.at, dhead]; exact stuck.absent, by rw [disk]; exact stuck.taken⟩
    have fits₁ := behind_fits data fits
    have short := fits₁.short
    have sum : (s.behind data).sesbuf.datalen =
      s.sesbuf.datalen + (s.tftpmode.piece (sessionBufsize - s.sesbuf.datalen) data).length := rfl
    have split := congrArg List.length (kept_split s.tftpmode (sessionBufsize - s.sesbuf.datalen) data)
    rw [List.length_append] at split
    have rest := consumed_enough enough fits
    rw [pass]
    by_cases full : (s.behind data).sesbuf.datalen = sessionBufsize
    · obtain ⟨ds₂, flushed, _⟩ := stuck₁.flush inv₁ (.inl full)
      rw [flushed]
      exact ⟨by rintro ⟨⟩, fun room => by omega⟩
    · rw [flush_early (s.behind data) ds₁ full running]
      dsimp only
      rw [if_neg Bool.noConfusion]
      by_cases more : data.drop (s.consumed data) = []
      · rw [if_neg (mt (more_iff s data).mp (not_not.mpr more))]
        have nothing : s.tftpmode.kept [] = [] := by cases s.tftpmode <;> rfl
        rw [Session.consumed] at more
        rw [more, nothing, List.length_nil] at split
        exact ⟨fun _ => by omega, fun _ => rfl⟩
      · have next := inductionHypothesis (data.drop (s.consumed data)) stuck₁ fits₁ inv₁ running
          (by rw [if_neg full]; exact rest more)
        have mode : (s.behind data).tftpmode = s.tftpmode := rfl
        rw [if_pos ((more_iff s data).mpr more), next, mode, sum, split, Session.consumed, Nat.add_assoc]

/-- What it takes for the session to store the last block: a name that leads to no device, a stream
and no save of nothing before the end of the block, or when there is nothing to save at all, a file
that is there. -/
def Session.TakesLast (vol : Volume) (s : Session) (ds : IWDS) (data : Bytes) : Prop :=
  s.Keeps vol ds ∧
    if s.sesbuf.datalen = 0 ∧ data = [] then
      ds.at s.dkey ≠ none ∨ ds.disk (vol.node s.filename) = .regular []
    else s.Free vol ds ∧ NoEmptySave s.sesbuf.datalen data

instance (vol : Volume) (s : Session) (ds : IWDS) (data : Bytes) : Decidable (s.TakesLast vol ds data) :=
  inferInstanceAs (Decidable (_ ∧ if s.sesbuf.datalen = 0 ∧ data = [] then
      ds.at s.dkey ≠ none ∨ ds.disk (vol.node s.filename) = .regular []
    else s.Free vol ds ∧ NoEmptySave s.sesbuf.datalen data))

/-- What it takes for the session to store a block: for a block before the last, a stream for the
save that comes due. -/
def Session.Takes (vol : Volume) (s : Session) (ds : IWDS) (data : Bytes) : Prop :=
  if tftpDatalenMax ≤ data.length then
    s.Free vol ds ∨ s.sesbuf.datalen + (TftpMode.netascii.kept data).length < sessionBufsize
  else s.TakesLast vol ds data

instance (vol : Volume) (s : Session) (ds : IWDS) (data : Bytes) : Decidable (s.Takes vol ds data) :=
  inferInstanceAs (Decidable (if tftpDatalenMax ≤ data.length then
      s.Free vol ds ∨ s.sesbuf.datalen + (TftpMode.netascii.kept data).length < sessionBufsize
    else s.TakesLast vol ds data))

/-- The block is stored, and with the last block the file holds the content. -/
def Session.Completes (vol : Volume) (content : Bytes) (s : Session) (ds : IWDS) (dat : TftpData)
    (now : Int) : Prop :=
  (putSessionData vol (s.noticed (dat.data.length + 4)) ds dat.data).status = .done ∧
    (dat.data.length < tftpDatalenMax →
      (storeBlock vol s ds dat (dat.data.length + 4) now).ds.disk (vol.node s.filename) =
        .regular content)

theorem noticed_long (s : Session) {data : Bytes} (long : tftpDatalenMax ≤ data.length) : s.noticed (data.length + 4) = s := by
  rw [Session.noticed, Nat.add_sub_cancel, decide_eq_false (by omega), Bool.or_false]

theorem noticed_short (s : Session) {data : Bytes} (short : data.length < tftpDatalenMax) :
    s.noticed (data.length + 4) = { s with fin := true } := by
  rw [Session.noticed, Nat.add_sub_cancel, decide_eq_true short, Bool.or_true]

theorem putSessionData_loop {s : Session} {ds : IWDS} {data : Bytes} (loaded : s.Loaded data) :
    putSessionData vol s ds data = putLoop vol (data.length + 2) s ds data := by
  apply if_neg
  rintro ⟨empty, nothing⟩
  obtain buffer | block := loaded
  · exact buffer empty
  · exact block (List.eq_nil_of_length_eq_zero nothing)

/-- A block before the last is stored as long as a save that comes due can be made, whatever the
file is to hold at the end. -/
theorem Writing.completes_long {total : Bytes} {s : Session} {ds : IWDS} {dat : TftpData} (content : Bytes)
    (now : Int) (writing : Writing vol total s ds) (netascii : s.tftpmode = .netascii) (inv : Consistent vol ds)
    (faultless : ds.faults = []) (running : s.fin = false) (long : tftpDatalenMax ≤ dat.data.length) :
    s.Completes vol content ds dat now ↔
      s.Free vol ds ∨ s.sesbuf.datalen + (TftpMode.netascii.kept dat.data).length < sessionBufsize := by
  have some : dat.data ≠ [] := by
    intro none
    rw [none] at long
    exact absurd long (by decide)
  have enough : dat.data.length + (if s.sesbuf.datalen = sessionBufsize then 1 else 0) <
      dat.data.length + 2 := by
    split <;> omega
  have status : s.Completes vol content ds dat now ↔
      (Iwtftpd.putLoop vol (dat.data.length + 2) s ds dat.data).status = .done := by
    rw [Session.Completes, noticed_long s long, putSessionData_loop (.inr some)]
    exact and_iff_left fun short => absurd short (Nat.not_lt_of_le long)
  rw [status]
  by_cases free : s.Free vol ds
  · have done := writing.putLoop_free _ dat.data inv faultless running free enough
    exact ⟨fun _ => .inl free, fun _ => done⟩
  · have room := (stuck_of_not_free free).putLoop_room _ dat.data writing.fits inv running enough
    rw [netascii] at room
    rw [room, or_iff_right free]

/-- What is stored on a device is in no file. -/
theorem Session.Completes.keeps {content : Bytes} {s : Session} {ds : IWDS} {dat : TftpData} {now : Int}
    (completes : s.Completes vol content ds dat now) (inv : Consistent vol ds)
    (short : dat.data.length < tftpDatalenMax) : s.Keeps vol ds := by
  intro device
  have chain := (putSessionData_steps vol (s.noticed (dat.data.length + 4)) ds dat.data).1
  have discards := chain.discards inv device
  have file := completes.2 short
  rw [storeBlock_eq] at file
  dsimp only at file
  have gone : (if (putSessionData vol (s.noticed (dat.data.length + 4)) ds dat.data).ses.fin = true then
      closeData (putSessionData vol (s.noticed (dat.data.length + 4)) ds dat.data).ses
        (putSessionData vol (s.noticed (dat.data.length + 4)) ds dat.data).ds
      else (putSessionData vol (s.noticed (dat.data.length + 4)) ds dat.data).ds).disk = ds.disk := by
    split
    · rw [closeData_disk, discards]
    · exact discards
  rw [if_pos completes.1] at file
  dsimp only at file
  rw [gone, device] at file
  cases file

/-- Nothing is left to save: the file is what it was. -/
theorem completes_idle {content : Bytes} {s : Session} {ds : IWDS} {dat : TftpData} (now : Int)
    (empty : s.sesbuf.datalen = 0) (nothing : dat.data = []) :
    s.Completes vol content ds dat now ↔ ds.disk (vol.node s.filename) = .regular content := by
  have short : dat.data.length < tftpDatalenMax := by
    rw [nothing]
    decide
  have same : putSessionData vol { s with fin := true } ds dat.data =
      { status := .done, ses := { s with fin := true }, ds := ds } := by
    rw [putSessionData, if_pos ⟨empty, by rw [nothing]; rfl⟩]
  have disk : (storeBlock vol s ds dat (dat.data.length + 4) now).ds.disk = ds.disk := by
    rw [storeBlock_eq]
    dsimp only
    rw [noticed_short s short, same, if_pos rfl]
    exact closeData_disk _ _
  rw [Session.Completes, disk, noticed_short s short, same]
  exact ⟨fun stored => stored.2 short, fun there => ⟨rfl, fun _ => there⟩⟩

/-- Nothing is left to save: the file is complete if it is there. -/
theorem Writing.idle_iff {total : Bytes} {s : Session} {ds : IWDS} (writing : Writing vol total s ds)
    (keeps : s.Keeps vol ds) (empty : s.sesbuf.datalen = 0) :
    ds.disk (vol.node s.filename) = .regular total ↔
      ds.at s.dkey ≠ none ∨ ds.disk (vol.node s.filename) = .regular [] := by
  have none : s.buffered = [] := List.eq_nil_of_length_eq_zero ((buffered_length s).trans empty)
  constructor
  · intro file
    cases writing.held with
    | buffered _ held =>
      rw [← held, none] at file
      exact .inr file
    | streaming n _ found =>
      rw [found]
      exact .inl (Option.some_ne_none n)
    | discarding device => exact absurd device keeps
  · intro there
    cases writing.held with
    | buffered absent held =>
      rw [← held, none]
      exact there.resolve_left fun some => some absent
    | streaming _ content _ _ file held =>
      rw [none, List.append_nil] at held
      rw [← held]
      exact file
    | discarding device => exact absurd device keeps

/-- A last block with something to save is stored whole, so that the file is complete, or it is
not stored. -/
theorem Writing.completes_last {total : Bytes} {s : Session} {ds : IWDS} {dat : TftpData} (now : Int)
    (writing : Writing vol total s ds) (netascii : s.tftpmode = .netascii) (inv : Consistent vol ds)
    (faultless : ds.faults = []) (short : dat.data.length < tftpDatalenMax) (keeps : s.Keeps vol ds)
    (busy : ¬ (s.sesbuf.datalen = 0 ∧ dat.data = [])) (content : Bytes) :
    s.Completes vol content ds dat now ↔ (s.Free vol ds ∧ NoEmptySave s.sesbuf.datalen dat.data) ∧
      total ++ TftpMode.netascii.kept dat.data = content := by
  have marked : Writing vol total { s with fin := true } ds :=
    writing.same rfl rfl rfl rfl
  have loaded : ({ s with fin := true } : Session).Loaded dat.data := by
    rw [not_and_or] at busy
    exact busy
  rw [Session.Completes, noticed_short s short, putSessionData_loop loaded]
  by_cases free : s.Free vol ds
  · have last := marked.putLoop_last (dat.data.length + 2) dat.data netascii inv faultless rfl free
      keeps (by split <;> omega)
    rw [last, and_iff_right free]
    refine and_congr_right fun proper => ?_
    rw [forall_prop_of_true short]
    -- What is taken in whole completes the file.
    have done := last.mpr proper
    have taken := marked.taken dat.data inv faultless
    have only := (putSessionData_steps vol { s with fin := true } ds dat.data).2.1
    have result : (storeBlock vol s ds dat (dat.data.length + 4) now).ds =
        closeData (putSessionData vol { s with fin := true } ds dat.data).ses
          (putSessionData vol { s with fin := true } ds dat.data).ds := by
      rw [storeBlock_eq]
      dsimp only
      rw [noticed_short s short, putSessionData_loop loaded, if_pos done]
      dsimp only
      rw [← putSessionData_loop loaded, if_pos only.fin]
    rw [← putSessionData_loop loaded] at done
    have whole : (total ++ TftpMode.netascii.kept dat.data = content) ↔
        FileNode.regular (total ++ TftpMode.netascii.kept dat.data) = .regular content :=
      ⟨congrArg FileNode.regular, FileNode.regular.inj⟩
    rw [result, whole]
    apply Eq.congr_left
    have filename : (putSessionData vol { s with fin := true } ds dat.data).ses.filename = s.filename :=
      filename_of_ident only.ident
    generalize putSessionData vol { s with fin := true } ds dat.data = r at taken done filename ⊢
    cases taken with
    | onwards _ running => cases running
    | complete _ _ closed =>
      rw [← filename, ← netascii]
      exact closed.settled.1
    | nothing _ _ absent empty _ =>
      have bare : ({ s with fin := true } : Session).sesbuf.datalen = 0 := by
        cases writing.held with
        | buffered _ held =>
          rw [empty.1] at held
          rw [← buffered_length, show ({ s with fin := true } : Session).buffered = [] from held]
          rfl
        | streaming _ _ found =>
          rw [show ds.at s.dkey = none from absent] at found
          cases found
        | discarding device => exact absurd device keeps
      exact absurd ⟨bare, empty.2⟩ busy
    | stuck err =>
      rw [done] at err
      cases err
    | discarded _ _ device => exact absurd device keeps
  · have stuck : Stuck vol { s with fin := true } ds := by
      obtain ⟨absent, taken⟩ := stuck_of_not_free free
      exact ⟨absent, taken⟩
    have err := (stuck.putLoop (dat.data.length + 1) dat.data inv rfl).1
    rw [err]
    exact ⟨fun done => absurd done.1 nofun, fun holds => absurd holds.1.1 free⟩

theorem Writing.completes_iff {total : Bytes} {s : Session} {ds : IWDS} {dat : TftpData} (now : Int)
    (writing : Writing vol total s ds) (netascii : s.tftpmode = .netascii) (inv : Consistent vol ds)
    (faultless : ds.faults = []) (running : s.fin = false) :
    s.Completes vol (total ++ TftpMode.netascii.kept dat.data) ds dat now ↔ s.Takes vol ds dat.data := by
  rw [Session.Takes]
  split
  · rename_i long
    exact writing.completes_long _ now netascii inv faultless running long
  · rename_i short
    have short := Nat.lt_of_not_le short
    rw [Session.TakesLast]
    by_cases keeps : s.Keeps vol ds
    · rw [and_iff_right keeps]
      split
      · rename_i idle
        have same : total ++ TftpMode.netascii.kept dat.data = total := by
          rw [idle.2]
          exact List.append_nil total
        rw [same, completes_idle now idle.1 idle.2]
        exact writing.idle_iff keeps idle.1
      · rename_i busy
        rw [writing.completes_last now netascii inv faultless short keeps busy]
        exact and_iff_left rfl
    · exact iff_of_false (fun completes => keeps (completes.keeps inv short)) fun takes => keeps takes.1

/-! ## An in-order client -/

/-- A file that a client uploads in netascii, with the bytes that it sends. -/
structure Text where
  filename : Bytes
  content : Bytes

/-- The number of blocks. -/
def Text.blocks (u : Text) : Nat := u.content.length / tftpDatalenMax + 1

/-- The blocks, numbered from 0. -/
def Text.dat (u : Text) (i : Nat) : TftpData where
  blknum := UInt16.ofNat (i + 1)
  data := Blocks.block tftpDatalenMax u.content i

theorem Text.dat_fits (u : Text) (i : Nat) : (u.dat i).data.length ≤ tftpDatalenMax := by
  rw [Text.dat, Blocks.block_length]
  exact Nat.min_le_left _ _

/-- The server, with the number of blocks that the client has sent. -/
structure Feeding where
  server : Server
  sent : Nat

/-- A step; every datagram of the client is a block. -/
def feed (host : Host) (c : Client) (p : Feeding) (e : Event) : Feeding where
  server := step host p.server e
  sent := if e.From host c then p.sent + 1 else p.sent

/-- Of the client nothing arrives but the next block, for which no call of stdio fails. The others
do what they like. -/
def InOrder (host : Host) (c : Client) (u : Text) (p : Feeding) (e : Event) : Prop :=
  Admissible p.server e ∧ ∀ d, e = .datagram d → host.client d.src = some c →
    p.sent < u.blocks ∧
      d.bytes = dataMsg (u.dat p.sent).blknum (u.dat p.sent).data ∧
      d.faults = []

/-- The block is acknowledged, and with the last one the file holds the given content. -/
def BlockStored (host : Host) (c : Client) (u : Text) (content : Bytes) (p : Feeding) (e : Event) : Prop :=
  ∀ d, e = .datagram d → host.client d.src = some c →
    (∃ m ∈ outputs host p.server e, m.msg = ackMsg (u.dat p.sent).blknum) ∧
      (p.sent + 1 = u.blocks →
        (step host p.server e).ads.disk (host.toVolume.node u.filename) = .regular content)

/-- The block is acknowledged, and with the last one the file holds the content without its CRs. -/
def BlockAccepted (host : Host) (c : Client) (u : Text) (p : Feeding) (e : Event) : Prop :=
  BlockStored host c u (TftpMode.netascii.kept u.content) p e

/-- The block comes to an enabled session of the given kind. -/
def Met (host : Host) (c : Client) (p : Feeding) (e : Event) (takes : Session → Prop) : Prop :=
  ∀ d, e = .datagram d → host.client d.src = some c →
    ∃ s, getSession p.server.seshead c = some s ∧ s.disabled = false ∧ takes s

/-- The block comes to an enabled session that can take it. -/
def Takeable (host : Host) (c : Client) (u : Text) (p : Feeding) (e : Event) : Prop :=
  Met host c p e fun s => s.Takes host.toVolume p.server.ads (u.dat p.sent).data

/-- The session of an upload that has stored so many blocks. -/
structure Fed (vol : Volume) (u : Text) (sent : Nat) (s : Session) (ds : IWDS) : Prop where
  netascii : s.tftpmode = .netascii
  socket : 0 ≤ s.clsock
  name : s.filename = u.filename
  running : s.fin = false
  number : s.blknum = UInt16.ofNat sent
  writing : Writing vol (TftpMode.netascii.kept (u.content.take (tftpDatalenMax * sent))) s ds

/-- As long as blocks are left, an enabled session of the client has stored what was sent. -/
structure Feeds (host : Host) (c : Client) (u : Text) (p : Feeding) : Prop where
  wellFormed : WellFormed host.toVolume p.server
  session : p.sent < u.blocks → ∀ s, getSession p.server.seshead c = some s → s.disabled = false →
    Fed host.toVolume u p.sent s p.server.ads

theorem Fed.undisturbed {u : Text} {sent : Nat} {s s' : Session} {ds ds' : IWDS} {now : Int}
    (fed : Fed vol u sent s ds) (inv : Consistent vol ds) (aged : Aged now s s')
    (frame : Undisturbed s.dkey ds ds') : Fed vol u sent s' ds' := by
  obtain ⟨netascii, socket, name, running, number, writing⟩ := fed
  exact ⟨(mode_of_ident aged.ident).trans netascii, clsock_of_ident aged.ident ▸ socket,
    (filename_of_ident aged.ident).trans name, aged.fin.trans running, aged.blknum.trans number,
    writing.undisturbed inv aged frame⟩

/-- The bytes of the blocks up to the next. -/
theorem kept_block (u : Text) (sent : Nat) :
    TftpMode.netascii.kept (u.content.take (tftpDatalenMax * sent)) ++
        TftpMode.netascii.kept (u.dat sent).data =
      TftpMode.netascii.kept (u.content.take (tftpDatalenMax * (sent + 1))) := by
  rw [← take_block]
  exact (List.filter_append _ _).symm

/-- The block after the last but one is the last. -/
theorem short_iff_last (u : Text) {sent : Nat} (within : sent < u.blocks) :
    (u.dat sent).data.length < tftpDatalenMax ↔ sent + 1 = u.blocks := by
  rw [Text.dat, Blocks.block_short (by decide : 0 < tftpDatalenMax), Text.blocks]
  rw [Text.blocks] at within
  omega

/-- The next block is in sequence. -/
theorem Fed.move {u : Text} {sent : Nat} {s : Session} {ds : IWDS} {st : Server} {d : Datagram}
    (fed : Fed vol u sent s ds)
    (bytes : d.bytes = dataMsg (u.dat sent).blknum (u.dat sent).data) :
    st.move d s = .store
        (u.dat sent) ∧
      d.len = (u.dat sent).data.length + 4 := by
  have fits : (u.dat sent).data.length ≤ tftpDatalenMax := u.dat_fits sent
  have next : (u.dat sent).blknum = nextBlk s.blknum := by
    rw [fed.number, nextBlk_ofNat]
    rfl
  constructor
  · rw [move_dataMsg st s bytes fits, if_neg, if_pos next]
    rw [next]
    exact nextBlk_ne s.blknum
  · have sizes : tftpDatalenMax = 512 ∧ nwbufSize = 1024 := ⟨rfl, rfl⟩
    rw [Datagram.len, bytes, dataMsg_length, Nat.min_eq_left (by omega)]

/-- A block that is stored leaves the session with what was sent. -/
theorem Fed.stored {u : Text} {sent : Nat} {s : Session} {ds : IWDS} (now : Int)
    (fed : Fed vol u sent s ds) (inv : Consistent vol ds) (faultless : ds.faults = [])
    (within : sent + 1 < u.blocks)
    (done : (putSessionData vol (s.noticed ((u.dat sent).data.length + 4)) ds
      (u.dat sent).data).status = .done) :
    let p := storeBlock vol s ds
      (u.dat sent)
      ((u.dat sent).data.length + 4) now
    Fed vol u (sent + 1) (p.after s) p.ds := by
  obtain ⟨netascii, socket, name, running, number, writing⟩ := fed
  have long : tftpDatalenMax ≤ (u.dat sent).data.length := by
    have last := short_iff_last u (by omega : sent < u.blocks)
    omega
  have taken := writing.taken (u.dat sent).data inv faultless
  have only := (putSessionData_steps vol s ds (u.dat sent).data).2.1
  have total := kept_block u sent
  rw [noticed_long s long] at done
  dsimp only
  rw [storeBlock_eq, noticed_long s long]
  dsimp only
  generalize putSessionData vol s ds (u.dat sent).data = r at taken only done ⊢
  rw [if_pos done]
  have still : ¬ r.ses.fin = true := by
    rw [only.fin, running]
    nofun
  rw [if_neg still]
  have ident : r.ses.ident = s.ident := only.ident
  cases taken with
  | onwards _ _ writing' =>
    rw [netascii, total] at writing'
    exact ⟨(mode_of_ident ident).trans netascii, clsock_of_ident ident ▸ socket,
      (filename_of_ident ident).trans name, only.fin.trans running, rfl,
      writing'.same rfl rfl rfl rfl⟩
  | complete _ fin | nothing _ fin | discarded _ fin =>
    rw [running] at fin
    cases fin
  | stuck err =>
    rw [done] at err
    cases err

/-- With the last block everything was sent. -/
theorem kept_last (u : Text) {sent : Nat} (last : sent + 1 = u.blocks) :
    TftpMode.netascii.kept (u.content.take (tftpDatalenMax * sent)) ++
      TftpMode.netascii.kept (u.dat sent).data = TftpMode.netascii.kept u.content := by
  rw [kept_block, last, List.take_of_length_le]
  exact Nat.le_of_lt (Nat.lt_mul_div_succ u.content.length (by decide))

/-- What is said of the next block is said of the call that stores it in an enabled session: under
a condition that is right for that call, it is right for the block. -/
theorem Feeds.block_stored_iff {c : Client} {u : Text} {p : Feeding} {e : Event} {content : Bytes}
    {takes : Session → Prop} (feeds : Feeds host c u p) (order : InOrder host c u p e)
    (right : ∀ d s, p.sent < u.blocks → d.faults = [] → Fed host.toVolume u p.sent s (p.server.receive d).ads →
      Consistent host.toVolume (p.server.receive d).ads →
        (s.Completes host.toVolume content (p.server.receive d).ads (u.dat p.sent) d.now ↔ takes s)) :
    BlockStored host c u content p e ↔ Met host c p e takes := by
  refine forall_congr' fun d => forall_congr' ?_
  rintro rfl
  apply forall_congr'
  intro named
  obtain ⟨within, bytes, faultless⟩ := order.2 d rfl named
  have inv := feeds.wellFormed
  have received : Consistent host.toVolume (p.server.receive d).ads := inv.ads.congr rfl rfl
  -- For an enabled session, both sides are about the block that is stored.
  have stored {s : Session} (found : getSession p.server.seshead c = some s)
      (enabled : s.disabled = false) :
      ((∃ m ∈ outputs host p.server (.datagram d), m.msg = ackMsg (u.dat p.sent).blknum) ∧
        (p.sent + 1 = u.blocks → (step host p.server (.datagram d)).ads.disk
          (host.toVolume.node u.filename) = .regular content)) ↔ takes s := by
    have fed := feeds.session within s found enabled
    obtain ⟨move, length⟩ := fed.move bytes
    have acked := acked_iff_stored named found enabled move
    have fed' : Fed host.toVolume u p.sent s (p.server.receive d).ads :=
      { fed with writing := fed.writing.same rfl rfl rfl rfl }
    have after : (step host p.server (.datagram d)).ads = (storeBlock host.toVolume s
        (p.server.receive d).ads (u.dat p.sent) d.len d.now).ds := by
      rw [step, serve, recv_eq named, proc_move found, move]
      rfl
    rw [← right d s within faultless fed' received, Session.Completes, ← length, ← acked,
      short_iff_last u within, after, fed.name]
    exact Iff.rfl
  constructor
  · intro accepted
    obtain ⟨s, found, enabled⟩ := acked_enabled named bytes (u.dat_fits p.sent) accepted.1
    exact ⟨s, found, enabled, (stored found enabled).mp accepted⟩
  · rintro ⟨s, found, enabled, takes⟩
    exact (stored found enabled).mpr takes

/-- A block of the upload is accepted exactly when it can be taken. -/
theorem Feeds.block_accepted_iff {c : Client} {u : Text} {p : Feeding} {e : Event}
    (feeds : Feeds host c u p) (order : InOrder host c u p e) :
    BlockAccepted host c u p e ↔ Takeable host c u p e := by
  refine feeds.block_stored_iff order fun d s within faultless fed received => ?_
  have completes : s.Completes host.toVolume _ (p.server.receive d).ads (u.dat p.sent) d.now ↔
      s.Takes host.toVolume p.server.ads (u.dat p.sent).data :=
    fed.writing.completes_iff d.now fed.netascii received faultless fed.running
  rw [← completes, Session.Completes, Session.Completes, short_iff_last u within]
  refine and_congr_right fun _ => forall_congr' fun last => ?_
  rw [kept_last u last]

theorem Feeds.step {c : Client} {u : Text} {p : Feeding} {e : Event} {content : Bytes}
    (feeds : Feeds host c u p) (order : InOrder host c u p e) (accepted : BlockStored host c u content p e) :
    Feeds host c u (feed host c p e) := by
  have inv := feeds.wellFormed
  refine ⟨inv.step order.1, ?_⟩
  by_cases own : e.From host c = true
  · cases e with
    | tick t => cases own
    | datagram d =>
      have named : host.client d.src = some c := of_decide_eq_true own
      obtain ⟨within, bytes, faultless⟩ := order.2 d rfl named
      have received : Consistent host.toVolume (p.server.receive d).ads := inv.ads.congr rfl rfl
      have sent : (feed host c p (.datagram d)).sent = p.sent + 1 := if_pos own
      rw [sent]
      intro more s' found' _
      obtain ⟨acked, _⟩ := accepted d rfl named
      obtain ⟨s, found, enabled⟩ := acked_enabled named bytes (u.dat_fits p.sent) acked
      have fed := feeds.session within s found enabled
      obtain ⟨move, length⟩ := fed.move bytes
      have done := (acked_iff_stored named found enabled move).mp acked
      have call : p.server.proc host d c = storeBlock host.toVolume s (p.server.receive d).ads
          (u.dat p.sent)
          d.len d.now := by
        rw [proc_move found, move]
        rfl
      have fed' : Fed host.toVolume u p.sent s (p.server.receive d).ads :=
        { fed with writing := fed.writing.same rfl rfl rfl rfl }
      rw [length] at done call
      have next := fed'.stored d.now received faultless more done
      dsimp only at next
      rw [← call] at next
      have after : (feed host c p (.datagram d)).server.ads = (p.server.proc host d c).ds := by
        show (recv host p.server d).1.ads = _
        rw [recv_eq named]
      rw [after]
      obtain rfl := Option.some.inj ((getSession_recv named found).symm.trans found')
      exact next
  · have other : e.From host c = false := Bool.not_eq_true _ ▸ own
    have sent : (feed host c p e).sent = p.sent := if_neg own
    rw [sent]
    intro more s' found' enabled'
    obtain ⟨_, s, found, aged, enabled, frame⟩ := step_between inv order.1 other found' enabled'
    have fed := feeds.session more s found enabled
    exact fed.undisturbed inv.ads aged (frame fed.socket)

/-- The request of the upload opens a session with a socket. -/
structure Begins (host : Host) (c : Client) (u : Text) (st : Server) (d : Datagram) : Prop where
  named : host.client d.src = some c
  fresh : getSession st.seshead c = none
  wrq : ofBe16 (st.receive d).rbuf = opWrq
  parsed : parseTftpreq (st.receive d).rbuf d.len = some { filename := u.filename, mode := .netascii }
  free : ∀ content, st.ads.disk (host.toVolume.node u.filename) ≠ .regular content
  socket : d.newsock ≠ none

/-- The server behind the request, before any block. -/
def begun (host : Host) (st : Server) (d : Datagram) : Feeding where
  server := step host st (.datagram d)
  sent := 0

theorem Begins.feeds {c : Client} {u : Text} {st : Server} {d : Datagram} (begins : Begins host c u st d)
    (inv : WellFormed host.toVolume st) (admissible : Admissible st (.datagram d)) :
    Feeds host c u (begun host st d) := by
  obtain ⟨named, fresh, wrq, parsed, free, socket⟩ := begins
  refine ⟨inv.step admissible, ?_⟩
  intro _ s found _
  obtain ⟨fd, newsock⟩ := Option.ne_none_iff_exists'.mp socket
  obtain ⟨req, parsed', call⟩ := proc_accepted fresh ⟨_, parsed, .inr ⟨wrq, free⟩⟩
  obtain rfl := Option.some.inj (parsed.symm.trans parsed')
  rw [newsock, wrq] at call
  dsimp only at call
  rw [startTransfer_wrq] at call
  have opened := getSession_opened named (by rw [call]) rfl
  obtain rfl := Option.some.inj (opened.symm.trans found)
  have same : (begun host st d).server.ads = (st.receive d).ads := by
    show (recv host st d).1.ads = _
    rw [recv_eq named, call]
  have held : Held host.toVolume [] (startWriter c ⟨u.filename, .netascii⟩ fd d.now)
      (st.receive d).ads := by
    by_cases device : st.ads.disk (host.toVolume.node u.filename) = .device
    · exact .discarding device
    refine .buffered ?_ rfl
    by_contra there
    obtain ⟨n, node⟩ := Option.ne_none_iff_exists'.mp there
    have node : st.ads.at (startWriter c ⟨u.filename, .netascii⟩ fd d.now).dkey = some n := node
    have place : n.fp.node = host.toVolume.node u.filename := place_of_found inv.ads node
    obtain ⟨content, present⟩ := inv.ads.regular (at_mem node) (place ▸ device)
    exact free content (place ▸ present)
  rw [same]
  have fits := newSession_fits c { filename := u.filename, mode := .netascii } fd
  exact ⟨rfl, (admissible fd newsock).1, rfl, rfl, rfl, fits, rfl, held⟩

/-- Along every run of an upload in netascii, the blocks are accepted and the file is complete at
the end exactly when every block comes to an enabled session that can take it.

Proof: up to its last block the session holds what was sent, without the CRs, in its file and its
buffer. For a session that does, one block is stored and acknowledged exactly when it can be taken:
the loop of `put_session_data` is followed pass by pass, each pass cut at a CR or at the end of the
buffer. The iff for one block is carried along the run. -/
theorem netascii_accepted_iff {c : Client} {u : Text} {st : Server} {d : Datagram} {events : List Event}
    (reachable : Reachable host st) (admissible : Admissible st (.datagram d))
    (begins : Begins host c u st d)
    (order : Runs.Admits (feed host c) (InOrder host c u) (begun host st d) events) :
    Runs.Admits (feed host c) (BlockAccepted host c u) (begun host st d) events ↔
      Runs.Admits (feed host c) (Takeable host c u) (begun host st d) events := by
  apply order.agree_under (Feeds host c u) (begins.feeds reachable.wellFormed admissible)
  · intro p e feeds may accepted
    exact feeds.step may accepted
  · intro p e _ feeds may
    exact feeds.block_accepted_iff may

/-- A text that is sent in one block. -/
def oneLine (content : Bytes) : Text := { filename := [102], content := content }

/-- The request to upload it. -/
def lineRequest : Datagram := arrival [1] (reqMsg opWrq [102] .netascii) (some 5)

/-- Its only block. -/
def lineBlock (content : Bytes) : Event :=
  .datagram (arrival [1] (dataMsg ((oneLine content).dat 0).blknum ((oneLine content).dat 0).data) none)

theorem oneLine_begins (content : Bytes) :
    Begins smallHost ([1], 2000) (oneLine content) (startOn fun _ => .absent) lineRequest := by
  refine ⟨rfl, rfl, by decide +kernel, ?_, ?_, nofun⟩
  · have parsed : parseTftpreq ((startOn fun _ => .absent).receive lineRequest).rbuf lineRequest.len =
        some { filename := [102], mode := .netascii } := by decide +kernel
    exact parsed
  · intro bytes
    nofun

theorem oneLine_order (content : Bytes) :
    Runs.Admits (feed smallHost ([1], 2000)) (InOrder smallHost ([1], 2000) (oneLine content))
      (begun smallHost (startOn fun _ => .absent) lineRequest) [lineBlock content] := by
  refine ⟨⟨nofun, ?_⟩, trivial⟩
  rintro d ⟨⟩ _
  exact ⟨Nat.succ_pos _, rfl, rfl⟩

theorem oneLine_admissible :
    Admissible (startOn fun _ => .absent) (.datagram lineRequest) :=
  admissible_first rfl rfl (by decide)

/-- A line that ends in CR LF is stored without the CR. -/
theorem netascii_accepted_sample :
    Runs.Admits (feed smallHost ([1], 2000)) (BlockAccepted smallHost ([1], 2000) (oneLine [104, 105, cr, lf]))
      (begun smallHost (startOn fun _ => .absent) lineRequest) [lineBlock [104, 105, cr, lf]] := by
  refine (netascii_accepted_iff (startOn_reachable smallHost _) oneLine_admissible
    (oneLine_begins _) (oneLine_order _)).mpr ⟨?_, trivial⟩
  rintro d ⟨⟩ _
  let st := (begun smallHost (startOn fun _ => .absent) lineRequest).server
  have there : getSession st.seshead ([1], 2000) ≠ none := by decide +kernel
  obtain ⟨s, found⟩ := Option.ne_none_iff_exists'.mp there
  have takes : ∀ s ∈ st.seshead, s.disabled = false ∧
      s.Takes smallHost.toVolume st.ads ((oneLine [104, 105, cr, lf]).dat 0).data := by decide +kernel
  obtain ⟨enabled, taken⟩ := takes s (session_mem found)
  exact ⟨s, found, enabled, taken⟩

/-- An upload in netascii that nobody interferes with is accepted to its end. -/
def NetasciiAccepted (host : Host) : Prop :=
  ∀ c u st d events, Reachable host st → Admissible st (.datagram d) → Begins host c u st d →
    st.ads.disk (host.toVolume.node u.filename) = .absent →
    Runs.Admits (feed host c) (InOrder host c u) (begun host st d) events →
    (∀ e ∈ events, e.From host c = true) →
    Runs.Admits (feed host c) (BlockAccepted host c u) (begun host st d) events

/-- Two CRs are refused: the save of nothing after the first closes the file. -/
theorem netascii_not_accepted : ¬ NetasciiAccepted smallHost := by
  intro accepted
  have run := accepted ([1], 2000) (oneLine [cr, cr]) (startOn fun _ => .absent) lineRequest
    [lineBlock [cr, cr]] (startOn_reachable smallHost _) oneLine_admissible (oneLine_begins _) rfl
    (oneLine_order _) (by decide)
  obtain ⟨⟨m, member, ack⟩, _⟩ := run.1 _ rfl rfl
  have refused : ∀ m ∈ outputs smallHost (begun smallHost (startOn fun _ => .absent) lineRequest).server
      (lineBlock [cr, cr]), m.msg ≠ ackMsg 1 := by decide +kernel
  exact refused m member ack

end Iwtftpd
