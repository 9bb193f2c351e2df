import Iwtftpd.DatastoreLaws
import Iwtftpd.Saving

/-!
# What an upload has stored

The bytes a session took in are in its file and its buffer together: the file
holds what was saved, the buffer what is still to be saved, and the session is
the writer of the file or has saved nothing yet. A copy into the buffer and a
save keep that up. Only an empty save closes the file, and only a file that
somebody else made before the first save refuses one. A device takes everything
and keeps nothing. No call of stdio fails here.
-/

namespace Iwtftpd

variable {vol : Volume}

/-- Where the bytes taken in are. -/
inductive Held (vol : Volume) (total : Bytes) (s : Session) (ds : IWDS) : Prop where
  /-- Nothing is saved yet. -/
  | buffered (absent : ds.at s.dkey = none) (all : s.buffered = total)
  /-- The session writes the file. -/
  | streaming (d : DSession) (content : Bytes) (found : ds.at s.dkey = some d)
      (mode : d.fp.mode = .write) (file : ds.disk (vol.node s.filename) = .regular content)
      (all : content ++ s.buffered = total)
  /-- The name leads to a device, where what is saved is gone. -/
  | discarding (device : ds.disk (vol.node s.filename) = .device)

/-- A session that writes: the buffer is filled from its beginning. -/
structure Writing (vol : Volume) (total : Bytes) (s : Session) (ds : IWDS) : Prop where
  fits : s.sesbuf.Fits
  level : s.sesbuf.pos = s.sesbuf.datalen
  held : Held vol total s ds

/-- The file is complete and closed, and nothing is left to save. -/
structure Closed (vol : Volume) (total : Bytes) (s : Session) (ds : IWDS) : Prop where
  absent : ds.at s.dkey = none
  settled : Settled ds (vol.node s.filename) total
  empty : s.sesbuf.datalen = 0

/-- The session has no node, and none can be made: something is at its place. -/
structure Stuck (vol : Volume) (s : Session) (ds : IWDS) : Prop where
  absent : ds.at s.dkey = none
  taken : ¬ (ds.disk (vol.node s.filename)).Opens

/-- What a session writes is kept when its name leads to no device. -/
def Session.Keeps (vol : Volume) (s : Session) (ds : IWDS) : Prop :=
  ds.disk (vol.node s.filename) ≠ .device

instance (vol : Volume) (s : Session) (ds : IWDS) : Decidable (s.Keeps vol ds) :=
  inferInstanceAs (Decidable (_ ≠ _))

theorem Writing.congr {total : Bytes} {s s' : Session} {ds ds' : IWDS}
    (writing : Writing vol total s ds) (sesbuf : s'.sesbuf = s.sesbuf)
    (filename : s'.filename = s.filename) (node : ds'.at s'.dkey = ds.at s.dkey)
    (disk : ∀ d, ds.at s.dkey = some d → d.fp.mode = .write →
      ds'.disk (vol.node s.filename) = ds.disk (vol.node s.filename))
    (device : ds.disk (vol.node s.filename) = .device → ds'.disk (vol.node s.filename) = .device) :
    Writing vol total s' ds' := by
  have buffered : s'.buffered = s.buffered := by rw [Session.buffered, sesbuf, ← Session.buffered]
  obtain ⟨fits, level, held⟩ := writing
  refine ⟨sesbuf ▸ fits, by rw [sesbuf]; exact level, ?_⟩
  cases held with
  | buffered absent all => exact .buffered (node.trans absent) (buffered.trans all)
  | streaming d content found mode file all =>
    refine .streaming d content (node.trans found) mode ?_ (buffered ▸ all)
    rw [filename, disk d found mode, file]
  | discarding gone => exact .discarding (filename ▸ device gone)

/-- The same with nothing written in between. -/
theorem Writing.same {total : Bytes} {s s' : Session} {ds ds' : IWDS}
    (writing : Writing vol total s ds) (sesbuf : s'.sesbuf = s.sesbuf)
    (filename : s'.filename = s.filename) (node : ds'.at s'.dkey = ds.at s.dkey)
    (disk : ds'.disk = ds.disk) : Writing vol total s' ds' :=
  writing.congr sesbuf filename node (fun _ _ _ => by rw [disk]) (fun device => by rw [disk, device])

/-- A node under the key of a session stands for the place that the session's name leads to. -/
theorem place_of_found {s : Session} {ds : IWDS} {d : DSession} (inv : Consistent vol ds)
    (found : ds.at s.dkey = some d) : d.fp.node = vol.node s.filename := by
  rw [inv.placed d (at_mem found), show d.filename = s.filename from congrArg Prod.snd (lookup_key found)]

theorem Closed.stuck {total : Bytes} {s : Session} {ds : IWDS} (closed : Closed vol total s ds) :
    Stuck vol s ds := by
  refine ⟨closed.absent, ?_⟩
  rw [closed.settled.1]
  exact not_false

/-! ## A copy into the buffer -/

theorem buffered_take {s : Session} (fits : s.sesbuf.Fits) :
    s.buffered = s.sesbuf.storage.take s.sesbuf.datalen := by
  have size := fits.size
  have short := fits.short
  rw [Session.buffered, readAt_inside (by omega), List.drop_zero]

/-- The copy puts the piece behind what the buffer holds. -/
theorem buffered_behind {s : Session} (data : Bytes) (fits : s.sesbuf.Fits)
    (level : s.sesbuf.pos = s.sesbuf.datalen) :
    (s.behind data).buffered =
      s.buffered ++ s.tftpmode.piece (sessionBufsize - s.sesbuf.datalen) data := by
  have size := fits.size
  have inside := (behind_fits data fits).short
  let piece := s.tftpmode.piece (sessionBufsize - s.sesbuf.datalen) data
  have sum : (s.behind data).sesbuf.datalen = s.sesbuf.datalen + piece.length := rfl
  have stored : (s.behind data).sesbuf.storage = writeAt s.sesbuf.storage s.sesbuf.datalen piece := by
    show writeAt s.sesbuf.storage s.sesbuf.pos piece = _
    rw [level]
  have room : s.sesbuf.datalen + piece.length ≤ s.sesbuf.storage.length := by omega
  rw [buffered_take (behind_fits data fits), buffered_take fits, sum, stored]
  exact take_writeAt room

theorem Writing.behind {total : Bytes} {s : Session} {ds : IWDS} (data : Bytes)
    (writing : Writing vol total s ds) :
    Writing vol (total ++ s.tftpmode.piece (sessionBufsize - s.sesbuf.datalen) data)
      (s.behind data) ds := by
  obtain ⟨fits, level, held⟩ := writing
  have buffered := buffered_behind data fits level
  refine ⟨behind_fits data fits, ?_, ?_⟩
  · show s.sesbuf.pos + _ = s.sesbuf.datalen + _
    rw [level]
  · cases held with
    | buffered absent all => exact .buffered absent (by rw [buffered, all])
    | streaming d content found mode file all =>
      exact .streaming d content found mode file (by rw [buffered, ← List.append_assoc, all])
    | discarding device => exact .discarding device

/-! ## A save -/

/-- A file whose only writer is closed is settled. -/
theorem settled_closed {k : Int × Bytes} {ds ds' : IWDS} {place content : Bytes}
    (chain : Chain vol k ds ds') (absent : ds'.at k = none)
    (file : ds'.disk place = .regular content)
    (only : ∀ d ∈ ds.dhead, d.fp.mode = .write → d.fp.node = place → d.key = k) :
    Settled ds' place content := by
  refine ⟨file, fun d member writes same => ?_⟩
  have apart : d.key ≠ k := (Keyed.lookup_none_iff DSession.key).mp absent d member
  exact apart (only d (chain.mem_old apart member) writes same)

/-- A flush saves the buffer when it is full, or at the end of the transfer. -/
def Session.Flushes (s : Session) : Prop := s.sesbuf.datalen = sessionBufsize ∨ s.fin = true

/-- Nothing is saved but at the end. -/
theorem Session.Flushes.ended {s : Session} (due : s.Flushes) (empty : s.sesbuf.datalen = 0) : s.fin = true :=
  due.resolve_left fun full => by
    have bufsize : sessionBufsize = 8192 := rfl
    omega

/-- What a flush leaves of the total. -/
inductive Flushed (vol : Volume) (total : Bytes) (s : Session) (ds : IWDS) :
    Bool × Session × IWDS → Prop where
  /-- The session goes on writing, with an empty buffer if there was a save. -/
  | writing (s' : Session) (ds' : IWDS) (writing : Writing vol total s' ds')
      (faultless : ds'.faults = [])
      (saved : s.Keeps vol ds → s.Flushes →
        s.sesbuf.datalen ≠ 0 ∧ s'.sesbuf.datalen = 0 ∧ ds'.at s'.dkey ≠ none)
      (early : ¬ s.Flushes → s' = s ∧ ds' = ds) :
      Flushed vol total s ds (true, s', ds')
  /-- An empty save at the end closes the file. -/
  | closed (keeps : s.Keeps vol ds) (s' : Session) (ds' : IWDS) (closed : Closed vol total s' ds') (fin : s.fin = true)
      (empty : s.sesbuf.datalen = 0) (faultless : ds'.faults = []) :
      Flushed vol total s ds (true, s', ds')
  | refused (s' : Session) (ds' : IWDS) (was : Stuck vol s ds) (stuck : Stuck vol s' ds')
      (same : s' = s) : Flushed vol total s ds (false, s', ds')

/-- The session after a save that went through. -/
def Session.drained (s : Session) : Session :=
  { s with sesbuf := { s.sesbuf with datalen := 0, pos := 0 } }

theorem drained_buffered (s : Session) : s.drained.buffered = [] :=
  List.eq_nil_of_length_eq_zero (buffered_length s.drained)

/-- A save to a device goes through, and the name still leads there. -/
theorem Writing.save_device {total : Bytes} {s : Session} {ds : IWDS} (writing : Writing vol total s ds)
    (inv : Consistent vol ds) (faultless : ds.faults = [])
    (due : s.Flushes) (device : ds.disk (vol.node s.filename) = .device) :
    Flushed vol total s ds (saveData vol s ds) := by
  have save := saveData_cases s inv
  have session : (saveData vol s ds).2.1 =
    if (saveData vol s ds).1 = true then s.drained else s := saveData_session vol s ds
  have chain : Chain vol s.dkey ds (saveData vol s ds).2.2 := saveData_chain vol s ds
  have clean : ds.fault = .none := by rw [IWDS.fault, faultless]; rfl
  have fits' : s.drained.sesbuf.Fits := ⟨writing.fits.size, Nat.zero_le _⟩
  have still : (saveData vol s ds).2.2.disk (vol.node s.filename) = .device :=
    (chain.special_stays inv (.inr device)).trans device
  generalize saveData vol s ds = r at save session still
  obtain ⟨ok, s', ds'⟩ := r
  dsimp only at save session still
  have through (faults : ds.faults = [] → ds'.faults = []) (saved : s' = s.drained) :
      Flushed vol total s ds (true, s', ds') := by
    subst saved
    exact .writing _ _ ⟨fits', rfl, .discarding still⟩ (faults faultless) (fun keeps => absurd device keeps)
      fun early => absurd due early
  cases save with
  | finished _ _ _ _ _ faults => exact through faults session
  | created _ _ _ _ _ _ faults => exact through faults session
  | appended _ _ _ _ _ _ _ _ _ faults => exact through faults session
  | started _ _ _ _ _ _ _ _ faults => exact through faults session
  | refused _ why =>
    exact absurd (why.resolve_right fun faulty => faulty clean) (by rw [device]; exact not_not.mpr trivial)
  | short d found why =>
    have mode : d.fp.mode = .write := by
      rcases inv.present d (at_mem found) with ⟨content, held⟩ | ⟨_, mode⟩
      · rw [place_of_found inv found, device] at held
        cases held
      · exact mode
    obtain reads | faulty := why
    · rw [mode] at reads
      cases reads
    · exact absurd clean faulty
  | cut _ _ _ faulty => exact absurd faultless faulty

/-- A save to the file that the session writes appends what is in the buffer, and closes the file
when that is nothing. -/
theorem save_streaming {total content : Bytes} {s : Session} {ds : IWDS} {d : DSession} (fits : s.sesbuf.Fits)
    (inv : Consistent vol ds) (faultless : ds.faults = []) (due : s.Flushes) (keeps : s.Keeps vol ds)
    (found : ds.at s.dkey = some d) (mode : d.fp.mode = .write)
    (file : ds.disk (vol.node s.filename) = .regular content) (all : content ++ s.buffered = total) :
    Flushed vol total s ds (saveData vol s ds) := by
  have save := saveData_cases s inv
  have session : (saveData vol s ds).2.1 =
    if (saveData vol s ds).1 = true then s.drained else s := saveData_session vol s ds
  have chain : Chain vol s.dkey ds (saveData vol s ds).2.2 := saveData_chain vol s ds
  have clean : ds.fault = .none := by rw [IWDS.fault, faultless]; rfl
  have node := place_of_found inv found
  have there : ds.at s.dkey ≠ none := found ▸ Option.some_ne_none d
  generalize saveData vol s ds = r at save session chain
  obtain ⟨ok, s', ds'⟩ := r
  dsimp only at save session chain
  cases save with
  | finished _ _ empty closed disk faults =>
    rw [if_pos rfl] at session
    subst session
    have none : s.buffered = [] := List.eq_nil_of_length_eq_zero ((buffered_length s).trans empty)
    rw [none, List.append_nil] at all
    have file' : ds'.disk (vol.node s.filename) = .regular total := by rw [disk, file, all]
    refine .closed keeps _ _ ⟨closed, settled_closed chain closed file' ?_, rfl⟩ (due.ended empty) empty
      (faults faultless)
    -- A second writer of the place would be this one.
    intro w member writes same
    rw [inv.oneWriter w member d (at_mem found) (same ▸ keeps) writes mode (same.trans node.symm)]
    exact lookup_key found
  | appended e d' found' _ _ loaded opened still disk faults =>
    rw [if_pos rfl] at session
    subst session
    obtain rfl : d = e := Option.some.inj (found.symm.trans found')
    have opened : ds'.at s.drained.dkey = some d' := opened
    have atEnd := inv.atEnd d (at_mem found) (node ▸ keeps) mode
    rw [node, file] at atEnd
    have file' : ds'.disk (vol.node s.filename) = .regular (content ++ s.buffered) := by
      rw [disk, node, Function.update_self, file, atEnd]
      exact congrArg _ (overlay_end content s.buffered)
    refine .writing _ _ ⟨⟨fits.size, Nat.zero_le _⟩, rfl, ?_⟩ (faults faultless)
      (fun _ _ => ⟨loaded, rfl, opened ▸ Option.some_ne_none d'⟩) fun early => absurd due early
    exact .streaming d' (content ++ s.buffered) opened still file' (by rw [drained_buffered, List.append_nil, all])
  | short e found' why =>
    obtain rfl : d = e := Option.some.inj (found.symm.trans found')
    obtain reads | faulty := why
    · rw [mode] at reads
      cases reads
    · exact absurd clean faulty
  | created absent | started _ absent | refused absent | cut absent => exact absurd absent there

/-- The first save makes the file, unless somebody else has made it, and leaves it closed when there
is nothing in the buffer. -/
theorem save_buffered {total : Bytes} {s : Session} {ds : IWDS} (fits : s.sesbuf.Fits)
    (inv : Consistent vol ds) (faultless : ds.faults = []) (due : s.Flushes) (keeps : s.Keeps vol ds)
    (absent : ds.at s.dkey = none) (all : s.buffered = total) : Flushed vol total s ds (saveData vol s ds) := by
  have save := saveData_cases s inv
  have session : (saveData vol s ds).2.1 =
    if (saveData vol s ds).1 = true then s.drained else s := saveData_session vol s ds
  have chain : Chain vol s.dkey ds (saveData vol s ds).2.2 := saveData_chain vol s ds
  have clean : ds.fault = .none := by rw [IWDS.fault, faultless]; rfl
  generalize saveData vol s ds = r at save session chain
  obtain ⟨ok, s', ds'⟩ := r
  dsimp only at save session chain
  cases save with
  | created _ free _ empty closed disk faults =>
    rw [if_pos rfl] at session
    subst session
    have none : s.buffered = [] := List.eq_nil_of_length_eq_zero ((buffered_length s).trans empty)
    have file : ds'.disk (vol.node s.filename) = .regular total := by
      rw [disk, Function.update_self, free.absent keeps, ← all, none]
      rfl
    refine .closed keeps _ _ ⟨closed, settled_closed chain closed file ?_, rfl⟩ (due.ended empty) empty
      (faults faultless)
    -- No node stands for a place that holds nothing.
    intro w member _ same
    have same : w.fp.node = vol.node s.filename := same
    exact absurd (same ▸ free.absent keeps) (inv.there member)
  | started d' _ free _ loaded opened still disk faults =>
    rw [if_pos rfl] at session
    subst session
    have opened : ds'.at s.drained.dkey = some d' := opened
    have file : ds'.disk (vol.node s.filename) = .regular s.buffered := by
      rw [disk, Function.update_self, free.absent keeps, FileNode.truncated_absent, FileNode.put_regular,
        overlay_nil]
    refine .writing _ _ ⟨⟨fits.size, Nat.zero_le _⟩, rfl, ?_⟩ (faults faultless)
      (fun _ _ => ⟨loaded, rfl, opened ▸ Option.some_ne_none d'⟩) fun early => absurd due early
    exact .streaming d' s.buffered opened still file (by rw [drained_buffered, List.append_nil, all])
  | refused _ why closed disk =>
    rw [if_neg Bool.noConfusion] at session
    subst session
    have taken := why.resolve_right (fun faulty => faulty clean)
    exact .refused _ _ ⟨absent, taken⟩ ⟨closed, by rw [disk]; exact taken⟩ rfl
  | cut _ _ _ faulty => exact absurd faultless faulty
  | finished d found | appended d _ found | short d found =>
    rw [absent] at found
    cases found

theorem Writing.save {total : Bytes} {s : Session} {ds : IWDS} (writing : Writing vol total s ds)
    (inv : Consistent vol ds) (faultless : ds.faults = [])
    (due : s.Flushes) : Flushed vol total s ds (saveData vol s ds) := by
  by_cases device : ds.disk (vol.node s.filename) = .device
  · exact writing.save_device inv faultless due device
  · cases writing.held with
    | buffered absent all => exact save_buffered writing.fits inv faultless due device absent all
    | streaming d content found mode file all =>
      exact save_streaming writing.fits inv faultless due device found mode file all
    | discarding gone => exact absurd gone device

/-- The flush after a copy. -/
theorem Writing.flush {total : Bytes} {s : Session} {ds : IWDS} (writing : Writing vol total s ds)
    (inv : Consistent vol ds) (faultless : ds.faults = []) :
    Flushed vol total s ds (Iwtftpd.flush vol s ds) := by
  by_cases due : s.Flushes
  · rw [flush_due s ds due]
    exact writing.save inv faultless due
  · have later := not_or.mp due
    rw [flush_early s ds later.1 (Bool.not_eq_true _ ▸ later.2)]
    exact .writing _ _ writing faultless (fun _ now => absurd now due) fun _ => ⟨rfl, rfl⟩

/-- At the end of a transfer nothing is saved by a session that is stuck. -/
theorem Stuck.flush {s : Session} {ds : IWDS} (stuck : Stuck vol s ds) (inv : Consistent vol ds)
    (due : s.Flushes) : ∃ ds', Iwtftpd.flush vol s ds = (false, s, ds') ∧ Stuck vol s ds' := by
  have save := saveData_cases s inv
  have session := saveData_session vol s ds
  rw [flush_due s ds due]
  obtain ⟨failed, disk⟩ := save.denied stuck.absent (.inl stuck.taken)
  generalize saveData vol s ds = r at save session failed disk
  obtain ⟨ok, s', ds'⟩ := r
  dsimp only at save session failed disk
  subst failed
  rw [if_neg Bool.noConfusion] at session
  exact ⟨ds', by rw [session], save.closed, by rw [disk]; exact stuck.taken⟩

/-! ## The loop -/

/-- A session that is stuck at the end of its transfer stores nothing of a block. -/
theorem Stuck.putLoop (fuel : Nat) {s : Session} {ds : IWDS} (data : Bytes)
    (stuck : Stuck vol s ds) (inv : Consistent vol ds) (fin : s.fin = true) :
    let r := Iwtftpd.putLoop vol (fuel + 1) s ds data
    r.status = .err ∧ r.ses = s.behind data ∧ Stuck vol r.ses r.ds := by
  obtain ⟨ds₁, dhead, disk, _, pass⟩ := putLoop_pass vol fuel s ds data
  have stuck₁ : Stuck vol (s.behind data) ds₁ :=
    ⟨by rw [IWDS.at, dhead]; exact stuck.absent, by rw [disk]; exact stuck.taken⟩
  obtain ⟨ds₂, flushed, stuck₂⟩ := stuck₁.flush (inv.congr dhead disk) (.inr fin)
  dsimp only
  rw [pass, flushed]
  exact ⟨rfl, rfl, stuck₂⟩

/-- A full save at the end of a transfer leaves nothing to save and the stream open. -/
def Session.Drained (s : Session) (ds : IWDS) : Prop :=
  s.sesbuf.datalen = 0 ∧ ds.at s.dkey ≠ none

/-- What is to be stored is there: in the buffer or in the block. -/
def Session.Loaded (s : Session) (data : Bytes) : Prop := s.sesbuf.datalen ≠ 0 ∨ data ≠ []

theorem behind_loaded {s : Session} {data : Bytes} (octet : s.tftpmode = .octet)
    (loaded : s.Loaded data) : (s.behind data).sesbuf.datalen ≠ 0 := by
  have bufsize : sessionBufsize = 8192 := rfl
  have sum : (s.behind data).sesbuf.datalen =
      s.sesbuf.datalen + (data.take (sessionBufsize - s.sesbuf.datalen)).length := by
    rw [Session.behind, octet]
    rfl
  rw [sum, List.length_take]
  obtain buffer | block := loaded
  · omega
  · have some := List.length_pos_iff.mpr block
    omega

/-- A block is taken in whole, or the session is stuck.

Proof: induction on the fuel, pass by pass. A pass copies a piece, which leaves the
session writing with that piece more, and flushes. The flush goes through and the rest of
the block is the next pass's; or it has closed the file with nothing to save, and then any
rest is refused; or it was refused, and then the piece is still in the buffer. -/
theorem Writing.putLoop (fuel : Nat) {total : Bytes} {s : Session} {ds : IWDS} (data : Bytes)
    (writing : Writing vol total s ds) (inv : Consistent vol ds) (faultless : ds.faults = [])
    (enough : data.length + (if s.sesbuf.datalen = sessionBufsize then 1 else 0) < fuel) :
    let r := Iwtftpd.putLoop vol fuel s ds data
    (r.status = .done ∧ ((Writing vol (total ++ s.tftpmode.kept data) r.ses r.ds ∧
          (s.Keeps vol ds → s.fin = true → r.ses.Drained r.ds)) ∨
        (s.Keeps vol ds ∧ s.fin = true ∧ Closed vol (total ++ s.tftpmode.kept data) r.ses r.ds))) ∨
      (r.status = .err ∧ Stuck vol r.ses r.ds ∧
        (s.tftpmode = .octet → s.Loaded data → r.ses.sesbuf.datalen ≠ 0)) := by
  induction fuel generalizing total s ds data with
  | zero => omega
  | succ fuel inductionHypothesis =>
    obtain ⟨ds₁, dhead, disk, faults, pass⟩ := putLoop_pass vol fuel s ds data
    have inv₁ : Consistent vol ds₁ := inv.congr dhead disk
    have node₁ : ds₁.at s.dkey = ds.at s.dkey := by rw [IWDS.at, dhead, IWDS.at]
    have same : Writing vol total s ds₁ := writing.same rfl rfl node₁ disk
    have place : ds₁.disk (vol.node s.filename) = ds.disk (vol.node s.filename) := by rw [disk]
    have kept : (s.behind data).Keeps vol ds₁ ↔ s.Keeps vol ds := not_congr (by rw [← place]; rfl)
    have writing₁ := same.behind data
    have split := kept_split s.tftpmode (sessionBufsize - s.sesbuf.datalen) data
    have flushed := writing₁.flush inv₁ (faults.trans faultless)
    have only := flush_only vol (s.behind data) ds₁
    have chain := flush_chain vol (s.behind data) ds₁
    have space : (Iwtftpd.flush vol (s.behind data) ds₁).1 = true → _ := flush_space
    have progress : s.sesbuf.datalen = sessionBufsize ∨ data = [] ∨ 0 < s.consumed data := by
      by_cases full : s.sesbuf.datalen = sessionBufsize
      · exact .inl full
      · by_cases nothing : data = []
        · exact .inr (.inl nothing)
        · have short := writing.fits.short
          exact .inr (.inr (consumed_progress (by omega) nothing))
    have whole : ¬ s.consumed data < data.length →
        s.tftpmode.kept data = s.tftpmode.piece (sessionBufsize - s.sesbuf.datalen) data := by
      intro all
      have nothing : s.tftpmode.kept (data.drop (s.consumed data)) = [] := by
        rw [List.drop_of_length_le (by omega)]
        cases s.tftpmode <;> rfl
      rw [Session.consumed] at nothing
      rw [split, nothing, List.append_nil]
    dsimp only
    rw [pass]
    dsimp only
    generalize Iwtftpd.flush vol (s.behind data) ds₁ = f at flushed only chain space
    cases flushed with
    | refused s' ds' _ stuck same =>
      refine .inr ⟨rfl, stuck, fun octet loaded => ?_⟩
      subst same
      exact behind_loaded octet loaded
    | closed keeps s' ds' closed fin empty _ =>
      rw [if_neg Bool.noConfusion]
      have keeps : s.Keeps vol ds := kept.mp keeps
      have fin : s.fin = true := fin
      split
      · obtain ⟨fuel, rfl⟩ : ∃ less, fuel = less + 1 := ⟨fuel - 1, by
          split at enough <;> omega⟩
        obtain ⟨err, _, stuck⟩ := closed.stuck.putLoop fuel (data.drop (s.consumed data))
          (chain.consistent inv₁) (only.fin.trans fin)
        exact .inr ⟨err, stuck, fun octet loaded => absurd empty (behind_loaded octet loaded)⟩
      · rename_i all
        rw [whole all]
        exact .inl ⟨rfl, .inr ⟨keeps, fin, closed⟩⟩
    | writing s' ds' writing' faultless' saved =>
      rw [if_neg Bool.noConfusion]
      have mode : s'.tftpmode = s.tftpmode := only.tftpmode
      have fin : s'.fin = s.fin := only.fin
      have name : s'.filename = s.filename := filename_of_ident only.ident
      have keeps : s'.Keeps vol ds' ↔ s.Keeps vol ds := by
        have stays := chain.device_iff (n := vol.node s.filename) inv₁
        rw [Session.Keeps, name, Session.Keeps, ← place]
        exact not_congr stays
      have space : s'.sesbuf.datalen ≠ sessionBufsize := space rfl
      split
      · rename_i more
        have remaining : data.drop (s.consumed data) ≠ [] := by
          intro nothing
          have past := List.drop_eq_nil_iff.mp nothing
          omega
        have rest := inductionHypothesis (data.drop (s.consumed data)) writing'
          (chain.consistent inv₁) faultless' (by
            rw [if_neg space, List.length_drop]
            obtain full | nothing | some := progress
            · rw [if_pos full] at enough
              omega
            · rw [nothing] at more
              exact absurd more (Nat.not_lt_zero _)
            · omega)
        rw [mode, fin, keeps, List.append_assoc, Session.consumed, ← split] at rest
        obtain through | ⟨err, stuck, left⟩ := rest
        · exact .inl through
        · exact .inr ⟨err, stuck, fun octet _ => left octet (.inr remaining)⟩
      · rename_i all
        rw [whole all]
        exact .inl ⟨rfl, .inl ⟨writing', fun keeps ends => (saved (kept.mpr keeps) (.inr ends)).2⟩⟩

/-! ## A block -/

/-- A close with nothing left to save completes the file. -/
theorem Writing.close {total : Bytes} {s : Session} {ds : IWDS} (writing : Writing vol total s ds)
    (inv : Consistent vol ds) (keeps : s.Keeps vol ds) (drained : s.Drained ds) :
    Closed vol total s (closeData s ds) := by
  obtain ⟨empty, there⟩ := drained
  have absent := closeData_closed s inv.distinct
  refine ⟨absent, ?_, empty⟩
  cases writing.held with
  | buffered absent _ => exact absurd absent there
  | discarding device => exact absurd device keeps
  | streaming d content found mode file all =>
    have none : s.buffered = [] := List.eq_nil_of_length_eq_zero ((buffered_length s).trans empty)
    rw [none, List.append_nil] at all
    have file' : (closeData s ds).disk (vol.node s.filename) = .regular total := by
      rw [closeData_disk, file, all]
    apply settled_closed (closeData_chain vol s ds) absent file'
    intro e member writes same
    have node := place_of_found inv found
    rw [inv.oneWriter e member d (at_mem found) (same ▸ keeps) writes mode (same.trans node.symm)]
    exact lookup_key found

theorem Closed.close {total : Bytes} {s : Session} {ds : IWDS} (closed : Closed vol total s ds)
    (inv : Consistent vol ds) : Closed vol total s (closeData s ds) :=
  ⟨closeData_closed s inv.distinct, (closeData_chain vol s ds).settled closed.settled, closed.empty⟩

/-- How a block is taken in by a session that writes. -/
inductive Taken (vol : Volume) (total : Bytes) (s : Session) (ds : IWDS) (data : Bytes)
    (r : PutReply) : Prop where
  | onwards (done : r.status = .done) (running : s.fin = false)
      (writing : Writing vol (total ++ s.tftpmode.kept data) r.ses r.ds)
  /-- The end of the transfer, once the stream is closed. -/
  | complete (done : r.status = .done) (fin : s.fin = true)
      (closed : Closed vol (total ++ s.tftpmode.kept data) r.ses (closeData r.ses r.ds))
  /-- Nothing was stored and nothing is: no file is made. -/
  | nothing (done : r.status = .done) (fin : s.fin = true) (absent : ds.at s.dkey = none)
      (empty : total = [] ∧ data = []) (same : r.ses = s ∧ r.ds = ds)
  | stuck (err : r.status = .err) (stuck : Stuck vol r.ses r.ds)
      (left : s.tftpmode = .octet → r.ses.sesbuf.datalen ≠ 0)
  /-- The end of a transfer to a device. -/
  | discarded (done : r.status = .done) (fin : s.fin = true)
      (device : ds.disk (vol.node s.filename) = .device)

theorem Writing.taken {total : Bytes} {s : Session} {ds : IWDS} (data : Bytes)
    (writing : Writing vol total s ds) (inv : Consistent vol ds) (faultless : ds.faults = []) :
    Taken vol total s ds data (putSessionData vol s ds data) := by
  have chain := (putSessionData_steps vol s ds data).1
  by_cases idle : s.sesbuf.datalen = 0 ∧ data.length = 0
  · obtain ⟨empty, none⟩ := idle
    have none : data = [] := List.eq_nil_of_length_eq_zero none
    have same : putSessionData vol s ds data = { status := .done, ses := s, ds := ds } := by
      rw [putSessionData, if_pos ⟨empty, by rw [none]; rfl⟩]
    have all : total ++ s.tftpmode.kept data = total := by
      rw [none]
      cases s.tftpmode <;> exact List.append_nil total
    rw [same]
    by_cases fin : s.fin = true
    · by_cases device : ds.disk (vol.node s.filename) = .device
      · exact .discarded rfl fin device
      by_cases absent : ds.at s.dkey = Option.none
      · refine .nothing rfl fin absent ⟨?_, none⟩ ⟨rfl, rfl⟩
        cases writing.held with
        | buffered _ all =>
          rw [← all]
          exact List.eq_nil_of_length_eq_zero ((buffered_length s).trans empty)
        | streaming d _ found =>
          rw [absent] at found
          cases found
        | discarding gone => exact absurd gone device
      · exact .complete rfl fin (by rw [all]; exact writing.close inv device ⟨empty, absent⟩)
    · exact .onwards rfl (Bool.not_eq_true _ ▸ fin) (by rw [all]; exact writing)
  · have loop : putSessionData vol s ds data = Iwtftpd.putLoop vol (data.length + 2) s ds data :=
      if_neg idle
    have loaded : s.Loaded data := by
      by_cases empty : s.sesbuf.datalen = 0
      · exact .inr fun none => idle ⟨empty, by rw [none]; rfl⟩
      · exact .inl empty
    have name := filename_of_ident (putSessionData_steps vol s ds data).2.1.ident
    rw [loop] at chain name ⊢
    obtain ⟨done, ⟨writing', drained⟩ | ⟨_, fin, closed⟩⟩ | ⟨err, stuck, left⟩ :=
      writing.putLoop (data.length + 2) data inv faultless (by split <;> omega)
    · by_cases fin : s.fin = true
      · by_cases device : ds.disk (vol.node s.filename) = .device
        · exact .discarded done fin device
        · have keeps := chain.ordinary device
          rw [← name] at keeps
          exact .complete done fin (writing'.close (chain.consistent inv) keeps (drained device fin))
      · exact .onwards done (Bool.not_eq_true _ ▸ fin) writing'
    · exact .complete done fin (closed.close (chain.consistent inv))
    · exact .stuck err stuck fun octet => left octet loaded

/-- Once the file is closed, or somebody else's, a block of the same transfer fails. -/
theorem Stuck.refuses {s : Session} {ds : IWDS} {data : Bytes} (stuck : Stuck vol s ds)
    (inv : Consistent vol ds) (fin : s.fin = true) (loaded : s.Loaded data) :
    let r := putSessionData vol s ds data
    r.status = .err ∧ r.ses = s.behind data ∧ Stuck vol r.ses r.ds := by
  have loop : putSessionData vol s ds data = Iwtftpd.putLoop vol (data.length + 2) s ds data := by
    apply if_neg
    rintro ⟨empty, nothing⟩
    obtain buffer | block := loaded
    · exact buffer empty
    · exact block (List.eq_nil_of_length_eq_zero nothing)
  rw [loop]
  exact stuck.putLoop (data.length + 1) data inv fin

end Iwtftpd
