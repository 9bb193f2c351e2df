import Iwtftpd.SessionSteps

/-!
# How a save ends

`save_data` hands the buffer to `iwds_write`. What becomes of the buffer, the
file and the node is one of seven endings, decided by the node under the key of
the session, the file its name leads to and the first fault. The endings are
listed here with all that decides them; `put_session_data` is then followed from
pass to pass.
-/

namespace Iwtftpd

variable {vol : Volume}

/-! ## One pass of `put_session_data` -/

/-- The bytes that one copy into the buffer moves. -/
def TftpMode.piece (mode : TftpMode) (room : Nat) (data : Bytes) : Bytes :=
  match mode with
  | .octet => data.take room
  | .netascii => (data.take room).takeWhile (· ≠ cr)

/-- The length it consumes: a CR that ends the piece is skipped. -/
def TftpMode.consumed (mode : TftpMode) (room : Nat) (data : Bytes) : Nat :=
  (mode.piece room data).length +
    if (mode.piece room data).length < (data.take room).length then 1 else 0

/-- A piece that is stored is no longer than what was looked at. -/
theorem piece_length (mode : TftpMode) (room : Nat) (data : Bytes) :
    (mode.piece room data).length ≤ (data.take room).length := by
  cases mode with
  | octet => exact Nat.le_refl _
  | netascii => exact (List.takeWhile_prefix _).length_le

/-- A pass consumes no more than it has looked at. -/
theorem consumed_length (mode : TftpMode) (room : Nat) (data : Bytes) :
    mode.consumed room data ≤ (data.take room).length := by
  have shorter := piece_length mode room data
  rw [TftpMode.consumed]
  split <;> omega

/-- What a block adds to the file: in netascii every CR is dropped. -/
def TftpMode.kept (mode : TftpMode) (data : Bytes) : Bytes :=
  match mode with
  | .octet => data
  | .netascii => data.filter (· ≠ cr)

/-- A piece is the beginning of what is kept, and the rest is kept of the rest. -/
theorem kept_split (mode : TftpMode) (room : Nat) (data : Bytes) :
    mode.kept data = mode.piece room data ++ mode.kept (data.drop (mode.consumed room data)) := by
  cases mode with
  | octet =>
    have all : TftpMode.octet.consumed room data = (data.take room).length := by
      simp [TftpMode.consumed, TftpMode.piece]
    rw [all, List.length_take]
    show data = data.take room ++ data.drop (min room data.length)
    by_cases short : room ≤ data.length
    · rw [Nat.min_eq_left short, List.take_append_drop]
    · rw [Nat.min_eq_right (by omega), List.take_of_length_le (by omega), List.drop_length,
        List.append_nil]
  | netascii =>
    induction data generalizing room with
    | nil => simp [TftpMode.kept, TftpMode.piece, TftpMode.consumed]
    | cons b rest inductionHypothesis =>
      cases room with
      | zero => simp [TftpMode.piece, TftpMode.consumed]
      | succ room =>
        have next := inductionHypothesis room
        by_cases isCr : b = cr
        · simp [TftpMode.kept, TftpMode.piece, TftpMode.consumed, isCr]
        · have piece : TftpMode.netascii.piece (room + 1) (b :: rest) =
              b :: TftpMode.netascii.piece room rest := by
            simp [TftpMode.piece, isCr]
          have consumed : TftpMode.netascii.consumed (room + 1) (b :: rest) =
              TftpMode.netascii.consumed room rest + 1 := by
            simp only [TftpMode.consumed, piece, List.length_cons, List.take_succ_cons,
              Nat.add_lt_add_iff_right]
            omega
          have kept : TftpMode.netascii.kept (b :: rest) = b :: TftpMode.netascii.kept rest := by
            simp [TftpMode.kept, isCr]
          rw [piece, consumed, kept, List.cons_append, List.drop_succ_cons, ← next]

/-- The buffer behind a piece. -/
def DataStorage.put (sb : DataStorage) (piece : Bytes) : DataStorage :=
  { sb with
    storage := writeAt sb.storage sb.pos piece
    pos := sb.pos + piece.length
    datalen := sb.datalen + piece.length }

/-- A pass of `put_session_data` in one formula for both modes. -/
theorem putPiece_eq (ses : Session) (ds : IWDS) (data : Bytes) :
    putPiece ses ds data =
      let piece := ses.tftpmode.piece (sessionBufsize - ses.sesbuf.datalen) data
      (ses.tftpmode.consumed (sessionBufsize - ses.sesbuf.datalen) data,
        { ses with sesbuf := ses.sesbuf.put piece },
        ds.noteAll [.copyIn ses.sesbuf.pos piece.length]) := by
  rw [putPiece]
  cases mode : ses.tftpmode with
  | octet =>
    have all : (TftpMode.octet.piece (sessionBufsize - ses.sesbuf.datalen) data) =
        data.take (sessionBufsize - ses.sesbuf.datalen) := rfl
    simp [TftpMode.consumed, all, DataStorage.put]
  | netascii => rfl

/-- The session behind the copy of a piece of the data. -/
def Session.behind (ses : Session) (data : Bytes) : Session :=
  let piece := ses.tftpmode.piece (sessionBufsize - ses.sesbuf.datalen) data
  { ses with sesbuf := ses.sesbuf.put piece }

/-- The length of the data that the copy consumes. -/
def Session.consumed (ses : Session) (data : Bytes) : Nat :=
  ses.tftpmode.consumed (sessionBufsize - ses.sesbuf.datalen) data

/-- A save is due when the buffer is full or the transfer at its end. -/
theorem flush_due (ses : Session) (ds : IWDS)
    (due : ses.sesbuf.datalen = sessionBufsize ∨ ses.fin = true) :
    flush vol ses ds = saveData vol ses ds := if_pos due

/-- Until then nothing is saved. -/
theorem flush_early (ses : Session) (ds : IWDS) (room : ses.sesbuf.datalen ≠ sessionBufsize)
    (running : ses.fin = false) : flush vol ses ds = (true, ses, ds) :=
  if_neg (by simp [room, running])

/-- One pass: a copy and, when it is due, a save. The copy leaves only a mark in the
record of the datastore. -/
theorem putLoop_copied (vol : Volume) (ses : Session) (ds : IWDS) (data : Bytes) :
    ∃ ds₁, ds₁.dhead = ds.dhead ∧ ds₁.disk = ds.disk ∧ ds₁.faults = ds.faults ∧
      (∃ pos len, ds₁.trace = .copyIn pos len :: ds.trace) ∧ ∀ fuel,
      putLoop vol (fuel + 1) ses ds data =
        let f := flush vol (ses.behind data) ds₁
        if f.1 = false then { status := .err, ses := f.2.1, ds := f.2.2 }
        else if ses.consumed data < data.length then
          putLoop vol fuel f.2.1 f.2.2 (data.drop (ses.consumed data))
        else { status := .done, ses := f.2.1, ds := f.2.2 } := by
  let piece := ses.tftpmode.piece (sessionBufsize - ses.sesbuf.datalen) data
  refine ⟨ds.noteAll [.copyIn ses.sesbuf.pos piece.length], rfl, rfl, rfl, ⟨_, _, rfl⟩, fun fuel => ?_⟩
  rw [putLoop_succ, putPiece_eq]
  rfl

/-- The loop as one pass and the rest, with what the pass has recorded out of the way. -/
theorem putLoop_passes (vol : Volume) (ses : Session) (ds : IWDS) (data : Bytes) :
    ∃ ds₁, ds₁.dhead = ds.dhead ∧ ds₁.disk = ds.disk ∧ ds₁.faults = ds.faults ∧ ∀ fuel,
      putLoop vol (fuel + 1) ses ds data =
        let f := flush vol (ses.behind data) ds₁
        if f.1 = false then { status := .err, ses := f.2.1, ds := f.2.2 }
        else if ses.consumed data < data.length then
          putLoop vol fuel f.2.1 f.2.2 (data.drop (ses.consumed data))
        else { status := .done, ses := f.2.1, ds := f.2.2 } := by
  obtain ⟨ds₁, dhead, disk, faults, _, pass⟩ := putLoop_copied vol ses ds data
  exact ⟨ds₁, dhead, disk, faults, pass⟩

/-- The same for a given fuel. -/
theorem putLoop_pass (vol : Volume) (fuel : Nat) (ses : Session) (ds : IWDS) (data : Bytes) :
    ∃ ds₁, ds₁.dhead = ds.dhead ∧ ds₁.disk = ds.disk ∧ ds₁.faults = ds.faults ∧
      putLoop vol (fuel + 1) ses ds data =
        let f := flush vol (ses.behind data) ds₁
        if f.1 = false then { status := .err, ses := f.2.1, ds := f.2.2 }
        else if ses.consumed data < data.length then
          putLoop vol fuel f.2.1 f.2.2 (data.drop (ses.consumed data))
        else { status := .done, ses := f.2.1, ds := f.2.2 } := by
  obtain ⟨ds₁, dhead, disk, faults, pass⟩ := putLoop_passes vol ses ds data
  exact ⟨ds₁, dhead, disk, faults, pass fuel⟩

/-! ## The endings of a save -/

/-- What a save hands over. -/
def Session.buffered (ses : Session) : Bytes := readAt ses.sesbuf.storage 0 ses.sesbuf.datalen

/-- As many bytes are buffered as the length says. -/
@[simp] theorem buffered_length (ses : Session) : ses.buffered.length = ses.sesbuf.datalen :=
  readAt_length _ _ _

/-- A save empties the buffer, or leaves it when it fails. -/
theorem saveData_session (vol : Volume) (ses : Session) (ds : IWDS) :
    (saveData vol ses ds).2.1 =
      if (saveData vol ses ds).1 = true then { ses with sesbuf := { ses.sesbuf with datalen := 0, pos := 0 } }
      else ses := by
  rw [saveData]
  dsimp only
  split <;> rfl

/-- The endings of a save: whether it returns `IW_OK`, and the datastore afterwards. -/
inductive Save (vol : Volume) (ses : Session) (ds ds' : IWDS) : Bool → Prop where
  /-- Nothing to save: the node is closed, and that counts as success. -/
  | finished (d : DSession) (found : ds.at ses.dkey = some d) (empty : ses.sesbuf.datalen = 0)
      (closed : ds'.at ses.dkey = none) (disk : ds'.disk = ds.disk)
      (faultless : ds.faults = [] → ds'.faults = []) : Save vol ses ds ds' true
  /-- Nothing to save and no node: the file is created, or the device opened, and closed. -/
  | created (absent : ds.at ses.dkey = none) (free : (ds.disk (vol.node ses.filename)).Opens)
      (clean : ds.fault = .none) (empty : ses.sesbuf.datalen = 0)
      (closed : ds'.at ses.dkey = none)
      (disk : ds'.disk = Function.update ds.disk (vol.node ses.filename)
        (ds.disk (vol.node ses.filename)).truncated)
      (faultless : ds.faults = [] → ds'.faults = []) :
      Save vol ses ds ds' true
  | appended (d d' : DSession) (found : ds.at ses.dkey = some d) (mode : d.fp.mode = .write)
      (clean : ds.fault = .none) (loaded : ses.sesbuf.datalen ≠ 0)
      (opened : ds'.at ses.dkey = some d') (still : d'.fp.mode = .write)
      (disk : ds'.disk = Function.update ds.disk d.fp.node
        ((ds.disk d.fp.node).put d.fp.off ses.buffered))
      (faultless : ds.faults = [] → ds'.faults = []) :
      Save vol ses ds ds' true
  | started (d' : DSession) (absent : ds.at ses.dkey = none)
      (free : (ds.disk (vol.node ses.filename)).Opens) (clean : ds.fault = .none)
      (loaded : ses.sesbuf.datalen ≠ 0)
      (opened : ds'.at ses.dkey = some d') (still : d'.fp.mode = .write)
      (disk : ds'.disk = Function.update ds.disk (vol.node ses.filename)
        ((ds.disk (vol.node ses.filename)).truncated.put 0 ses.buffered))
      (faultless : ds.faults = [] → ds'.faults = [])
      (taken : ds.faults.tail.headD .none = .none) :
      Save vol ses ds ds' true
  /-- No node, and none can be made. -/
  | refused (absent : ds.at ses.dkey = none)
      (why : ¬ (ds.disk (vol.node ses.filename)).Opens ∨ ds.fault ≠ .none)
      (closed : ds'.at ses.dkey = none) (disk : ds'.disk = ds.disk) : Save vol ses ds ds' false
  /-- The stream takes too little, and nothing when it is open for reading. -/
  | short (d : DSession) (found : ds.at ses.dkey = some d)
      (why : d.fp.mode = .read ∨ ds.fault ≠ .none) (loaded : ses.sesbuf.datalen ≠ 0)
      (closed : ds'.at ses.dkey = none)
      (nothing : d.fp.mode = .read ∨ ds.fault = .fail 0 → ds'.disk = ds.disk) :
      Save vol ses ds ds' false
  /-- The file was created, and the stream takes too little. -/
  | cut (absent : ds.at ses.dkey = none) (free : (ds.disk (vol.node ses.filename)).Opens)
      (clean : ds.fault = .none) (faulty : ds.faults ≠ []) (loaded : ses.sesbuf.datalen ≠ 0)
      (closed : ds'.at ses.dkey = none) (short : ds.faults.tail.headD .none ≠ .none) :
      Save vol ses ds ds' false

/-! The stream under the save. -/

/-- An `fwrite` that meets no failure writes everything. -/
theorem fwritten_all {ds : IWDS} {fp : Stream} (data : Bytes) (mode : fp.mode = .write)
    (clean : ds.fault = .none) : fwritten ds fp data = data := by
  simp only [fwritten, mode, clean]

/-- One that fails writes less. -/
theorem fwritten_less {ds : IWDS} {fp : Stream} {data : Bytes} (nonempty : data.length ≠ 0)
    (why : fp.mode = .read ∨ ds.fault ≠ .none) : (fwritten ds fp data).length < data.length := by
  rw [fwritten]
  cases mode : fp.mode with
  | read => exact Nat.pos_of_ne_zero nonempty
  | write =>
    cases fault : ds.fault with
    | none => exact absurd fault (why.resolve_left (by simp [mode]))
    | fail moved =>
      simp only [List.length_take]
      omega

/-- One that fails at once writes nothing. -/
theorem fwritten_none {ds : IWDS} {fp : Stream} (data : Bytes)
    (why : fp.mode = .read ∨ ds.fault = .fail 0) : fwritten ds fp data = [] := by
  rw [fwritten]
  obtain mode | fault := why
  · rw [mode]
  · cases fp.mode with
    | read => rfl
    | write => simp [fault]

/-- A write that goes through leaves the node linked, behind the bytes it appended. -/
theorem writeTo_full {ds : IWDS} {d : DSession} {dbuf : Bytes} (found : ds.at d.key = some d)
    (mode : d.fp.mode = .write) (clean : ds.fault = .none) (nonempty : dbuf.length ≠ 0) :
    (writeTo ds d dbuf).wlen = dbuf.length ∧ (writeTo ds d dbuf).derr = none ∧
      (∃ d', (writeTo ds d dbuf).ds.at d.key = some d' ∧ d'.fp.mode = .write) ∧
      (writeTo ds d dbuf).ds.disk = Function.update ds.disk d.fp.node
        ((ds.disk d.fp.node).put d.fp.off dbuf) ∧
      (writeTo ds d dbuf).ds.faults = ds.faults.tail := by
  rw [writeTo, if_neg nonempty, fwritten_all dbuf mode clean]
  simp only [if_neg nonempty, Nat.lt_irrefl, if_false]
  refine ⟨trivial, trivial, ?_, rfl, rfl⟩
  exact ⟨_, Keyed.lookup_store_self DSession.key
    (a := { d with fp := { d.fp with off := d.fp.off + dbuf.length } }) found, mode⟩

/-- A write that falls short reports the length it got out. -/
theorem writeTo_short (ds : IWDS) (d : DSession) {dbuf : Bytes} (nonempty : dbuf.length ≠ 0)
    (why : d.fp.mode = .read ∨ ds.fault ≠ .none) :
    (writeTo ds d dbuf).wlen ≠ dbuf.length ∧
      (d.fp.mode = .read ∨ ds.fault = .fail 0 → (writeTo ds d dbuf).ds.disk = ds.disk) := by
  have less := fwritten_less nonempty why
  rw [writeTo, if_neg nonempty]
  simp only [if_pos less]
  refine ⟨Nat.ne_of_lt less, ?_⟩
  intro nothing
  rw [delDsession_disk, fwritten_none dbuf nothing]
  rfl

/-- A write of nothing ends the file. -/
theorem writeTo_empty {ds : IWDS} {d : DSession} {dbuf : Bytes} (empty : dbuf.length = 0) :
    writeTo ds d dbuf = { wlen := 0, derr := none, ds := delDsession ds d.clid d.filename } := by
  rw [writeTo, if_pos empty]

/-- Without faults none is left. -/
theorem delDsession_faultless {ds : IWDS} (id : Int) (file : Bytes) (faultless : ds.faults = []) :
    (delDsession ds id file).faults = [] := by
  rw [delDsession]
  split
  · exact faultless
  · rw [called_faults, faultless]
    rfl

/-- With a stream `iwds_write` writes on where that is. -/
theorem iwdsWrite_found (vol : Volume) {ds : IWDS} {id : Int} {file : Bytes} {d : DSession} (dbuf : Bytes)
    (found : ds.at (id, file) = some d) :
    iwdsWrite vol ds id file dbuf = writeTo (ds.note (.iwdsWrite id file dbuf.length)) d dbuf := by
  have found' : getDsession (ds.note (.iwdsWrite id file dbuf.length)).dhead id file = some d := found
  rw [iwdsWrite]
  rw [found']

/-- Without a node, a file that is there is not written. -/
theorem iwdsWrite_present {ds : IWDS} {id : Int} {file content : Bytes} (dbuf : Bytes)
    (absent : ds.at (id, file) = none) (held : ds.disk (vol.node file) = .regular content) :
    iwdsWrite vol ds id file dbuf =
      { wlen := 0, derr := some .notPermit, ds := ds.note (.iwdsWrite id file dbuf.length) } := by
  have absent' : getDsession (ds.note (.iwdsWrite id file dbuf.length)).dhead id file = none := absent
  rw [iwdsWrite]
  rw [absent', isDsfile_eq, note_disk, held]

/-- Without one it needs an `fopen`, and reports that there is no session when it fails. -/
theorem iwdsWrite_unopened {ds ds' : IWDS} {id : Int} {file : Bytes} (dbuf : Bytes)
    (absent : ds.at (id, file) = none) (free : isDsfile vol ds file = .no)
    (created : createDsession vol (ds.note (.iwdsWrite id file dbuf.length)) id file .write =
      (none, ds')) :
    iwdsWrite vol ds id file dbuf = { wlen := 0, derr := some .noSession, ds := ds' } := by
  have absent' : getDsession (ds.note (.iwdsWrite id file dbuf.length)).dhead id file = none := absent
  have free' : isDsfile vol (ds.note (.iwdsWrite id file dbuf.length)) file = .no := free
  simp only [iwdsWrite, absent', free', created]

/-- When the `fopen` succeeds it writes at the beginning of the new file. -/
theorem iwdsWrite_opened {ds ds' : IWDS} {id : Int} {file : Bytes} {d : DSession} (dbuf : Bytes)
    (absent : ds.at (id, file) = none) (free : isDsfile vol ds file = .no)
    (created : createDsession vol (ds.note (.iwdsWrite id file dbuf.length)) id file .write =
      (some d, ds')) :
    iwdsWrite vol ds id file dbuf = writeTo ds' d dbuf := by
  have absent' : getDsession (ds.note (.iwdsWrite id file dbuf.length)).dhead id file = none := absent
  have free' : isDsfile vol (ds.note (.iwdsWrite id file dbuf.length)) file = .no := free
  simp only [iwdsWrite, absent', free', created]

/-- A save fails when the write does, and closes the node then. -/
theorem saveData_failed {ses : Session} {ds : IWDS}
    (failed : (iwdsWrite vol ds ses.clsock ses.filename ses.buffered).derr ≠ none ∨
      (iwdsWrite vol ds ses.clsock ses.filename ses.buffered).wlen ≠ ses.sesbuf.datalen) :
    saveData vol ses ds =
      (false, ses, closeData ses (iwdsWrite vol ds ses.clsock ses.filename ses.buffered).ds) := by
  rw [saveData]
  exact if_pos failed

/-- A save has gone well when `iwds_write` says so and has written everything. -/
theorem saveData_saved {ses : Session} {ds : IWDS}
    (derr : (iwdsWrite vol ds ses.clsock ses.filename ses.buffered).derr = none)
    (wlen : (iwdsWrite vol ds ses.clsock ses.filename ses.buffered).wlen = ses.sesbuf.datalen) :
    saveData vol ses ds =
      (true, { ses with sesbuf := { ses.sesbuf with datalen := 0, pos := 0 } },
        (iwdsWrite vol ds ses.clsock ses.filename ses.buffered).ds) := by
  rw [saveData]
  exact if_neg fun failed => failed.elim (fun h => h derr) (fun h => h wlen)

/-- With a stream a save ends it, appends to the file, or falls short. -/
theorem saveData_linked {ses : Session} {ds : IWDS} {d : DSession} (inv : Consistent vol ds)
    (found : ds.at ses.dkey = some d) : Save vol ses ds (saveData vol ses ds).2.2 (saveData vol ses ds).1 := by
  have written : Consistent vol (iwdsWrite vol ds ses.clsock ses.filename ses.buffered).ds :=
    (iwdsWrite_chain vol ds _ _ _).consistent inv
  have closed := closeData_closed ses written.distinct
  have length := buffered_length ses
  have key := lookup_key found
  have write := iwdsWrite_found vol ses.buffered found
  have noted : (ds.note (.iwdsWrite ses.clsock ses.filename ses.buffered.length)).at d.key = some d :=
    key ▸ found
  by_cases empty : ses.sesbuf.datalen = 0
  · rw [writeTo_empty (length.trans empty)] at write
    rw [saveData_saved (by rw [write]) (by rw [write, empty]), write]
    have same : (d.clid, d.filename) = ses.dkey := key
    have faultless : ds.faults = [] → (delDsession
        (ds.note (.iwdsWrite ses.clsock ses.filename ses.buffered.length)) d.clid
        d.filename).faults = [] := by
      intro none
      rw [← note_faults ds (.iwdsWrite ses.clsock ses.filename ses.buffered.length)] at none
      exact delDsession_faultless _ _ none
    refine .finished d found empty ?_ (by simp) faultless
    rw [IWDS.at, delDsession_dhead, same]
    exact Keyed.lookup_remove_self DSession.key inv.distinct
  · have nonempty : ses.buffered.length ≠ 0 := by rwa [length]
    by_cases takes : d.fp.mode = .write ∧ ds.fault = .none
    · obtain ⟨mode, clean⟩ := takes
      obtain ⟨wlen, derr, ⟨d', opened, still⟩, disk, faults⟩ :=
        writeTo_full noted mode clean nonempty
      rw [← write] at wlen derr opened disk faults
      rw [saveData_saved derr (wlen.trans length)]
      refine .appended d d' found mode clean empty (key ▸ opened) still disk ?_
      intro none
      rw [faults, note_faults, none]
      rfl
    · have why : d.fp.mode = .read ∨ ds.fault ≠ .none := by
        cases mode : d.fp.mode with
        | read => exact .inl rfl
        | write => exact .inr fun clean => takes ⟨mode, clean⟩
      obtain ⟨wlen, nothing⟩ := writeTo_short
        (ds.note (.iwdsWrite ses.clsock ses.filename ses.buffered.length)) d nonempty why
      rw [← write, length] at wlen
      rw [← write] at nothing
      rw [saveData_failed (.inr wlen)]
      exact .short d found why empty closed fun none => by rw [closeData_disk, nothing none]; rfl

/-- Without one it needs a name that opens, and ends or goes on as the first save to a new file. -/
theorem saveData_unlinked {ses : Session} {ds : IWDS} (inv : Consistent vol ds)
    (absent : ds.at ses.dkey = none) : Save vol ses ds (saveData vol ses ds).2.2 (saveData vol ses ds).1 := by
  have written : Consistent vol (iwdsWrite vol ds ses.clsock ses.filename ses.buffered).ds :=
    (iwdsWrite_chain vol ds _ _ _).consistent inv
  have closed := closeData_closed ses written.distinct
  have length := buffered_length ses
  by_cases free : isDsfile vol ds ses.filename = .no
  · have notRegular := (isDsfile_no_iff vol ds ses.filename).mp free
    obtain ⟨ds', created, why, dhead, disk⟩ | ⟨ds', created, clean, gone, dhead, disk, faults⟩ :=
      createDsession_write vol (ds.note (.iwdsWrite ses.clsock ses.filename ses.buffered.length))
        ses.clsock ses.filename notRegular
    · have write := iwdsWrite_unopened ses.buffered absent free created
      rw [saveData_failed (.inl (by rw [write]; exact Option.some_ne_none _))]
      refine .refused absent why closed ?_
      rw [closeData_disk, write]
      exact disk
    · have write : iwdsWrite vol ds ses.clsock ses.filename ses.buffered =
        writeTo ds' (opened vol ses.dkey .write) ses.buffered :=
        iwdsWrite_opened ses.buffered absent free created
      have dhead : ds'.dhead = opened vol ses.dkey .write :: ds.dhead := dhead
      have linked : ds'.at (opened vol ses.dkey .write).key = some (opened vol ses.dkey .write) := by
        rw [IWDS.at, dhead, Keyed.lookup_cons, if_pos rfl]
      by_cases empty : ses.sesbuf.datalen = 0
      · rw [writeTo_empty (length.trans empty)] at write
        rw [saveData_saved (by rw [write]) (by rw [write, empty]), write]
        have faultless : ds.faults = [] → ds'.faults = [] := fun none => by
          rw [faults, note_faults, none]
          rfl
        refine .created absent gone clean empty ?_ (by simpa using disk)
          fun none => delDsession_faultless _ _ (faultless none)
        have unlinked : (delDsession ds' ses.clsock ses.filename).dhead = ds.dhead := by
          rw [delDsession_dhead, dhead]
          exact if_pos rfl
        exact (congrArg (Keyed.lookup DSession.key ses.dkey) unlinked).trans absent
      · have nonempty : ses.buffered.length ≠ 0 := by rwa [length]
        by_cases takes : ds'.fault = .none
        · obtain ⟨wlen, derr, ⟨d', linked', still⟩, after, faults'⟩ :=
            writeTo_full linked rfl takes nonempty
          rw [← write] at wlen derr linked' after faults'
          rw [saveData_saved derr (wlen.trans length)]
          have faultless : ds.faults = [] →
              (iwdsWrite vol ds ses.clsock ses.filename ses.buffered).ds.faults = [] := by
            intro none
            rw [faults', faults, note_faults, none]
            rfl
          have second : ds.faults.tail.headD .none = .none := by
            rw [IWDS.fault, faults] at takes
            exact takes
          refine .started d' absent gone clean empty linked' still ?_ faultless second
          have place : (opened vol ses.dkey .write).fp.node = vol.node ses.filename := rfl
          have offset : (opened vol ses.dkey .write).fp.off = 0 := rfl
          rw [after, disk, place, offset, Function.update_self, Function.update_idem, note_disk]
        · obtain ⟨wlen, _⟩ := writeTo_short ds' (opened vol ses.dkey .write) nonempty
            (.inr takes)
          rw [← write, length] at wlen
          rw [saveData_failed (.inr wlen)]
          have second : ds.faults.tail.headD .none ≠ .none := by
            rw [IWDS.fault, faults] at takes
            exact takes
          refine .cut absent gone clean ?_ empty closed second
          intro none
          rw [none] at second
          exact second rfl
  · obtain ⟨content, held⟩ := (isDsfile_yes_iff vol ds ses.filename).mp (by
      cases checked : isDsfile vol ds ses.filename with
      | err => exact absurd checked (isDsfile_ne_err vol ds ses.filename)
      | no => exact absurd checked free
      | yes => rfl)
    have write := iwdsWrite_present ses.buffered absent held
    rw [saveData_failed (.inl (by rw [write]; exact Option.some_ne_none _))]
    refine .refused absent (.inl (by rw [held]; exact not_false)) closed ?_
    rw [closeData_disk, write]
    rfl

/-- Every save ends in one of the seven ways. -/
theorem saveData_cases (ses : Session) {ds : IWDS} (inv : Consistent vol ds) :
    Save vol ses ds (saveData vol ses ds).2.2 (saveData vol ses ds).1 := by
  cases found : ds.at ses.dkey with
  | some d => exact saveData_linked inv found
  | none => exact saveData_unlinked inv found

/-! ## What the endings have in common -/

/-- The bytes of every file are as before. -/
def SameBytes (ds ds' : IWDS) : Prop := ∀ n, (ds'.disk n).bytes = (ds.disk n).bytes

theorem SameBytes.refl (ds : IWDS) : SameBytes ds ds := fun _ => rfl

/-- The same files have the same bytes. -/
theorem SameBytes.of_disk {ds ds' : IWDS} (disk : ds'.disk = ds.disk) : SameBytes ds ds' :=
  fun n => by rw [disk]

/-- Bytes that stay the same twice stay the same. -/
theorem SameBytes.trans {ds ds' ds'' : IWDS} (first : SameBytes ds ds')
    (second : SameBytes ds' ds'') : SameBytes ds ds'' :=
  fun n => (second n).trans (first n)

/-- Opening a new file or a device writes no byte. -/
theorem SameBytes.created {ds ds' : IWDS} {place : Bytes} (free : (ds.disk place).Opens)
    (disk : ds'.disk = Function.update ds.disk place (ds.disk place).truncated) : SameBytes ds ds' := by
  intro n
  rw [disk]
  by_cases here : n = place
  · rw [here, Function.update_self]
    cases held : ds.disk place with
    | absent | device => rfl
    | regular | directory =>
      rw [held] at free
      cases free
  · rw [Function.update_of_ne here]

/-- A save that has no node and can make none fails. -/
theorem Save.denied {ses : Session} {ds ds' : IWDS} {ok : Bool} (save : Save vol ses ds ds' ok)
    (absent : ds.at ses.dkey = none)
    (why : ¬ (ds.disk (vol.node ses.filename)).Opens ∨ ds.fault ≠ .none) :
    ok = false ∧ ds'.disk = ds.disk := by
  cases save with
  | finished d found | appended d _ found | short d found =>
    rw [absent] at found
    cases found
  | created _ free clean | started _ _ free clean | cut _ free clean =>
    exact (why.elim (fun h => h free) (fun h => h clean)).elim
  | refused _ _ _ disk => exact ⟨rfl, disk⟩

/-- An empty save writes no byte. When it succeeds, the file is there and closed. -/
theorem Save.empty {ses : Session} {ds ds' : IWDS} {ok : Bool} (save : Save vol ses ds ds' ok)
    (inv : Consistent vol ds) (empty : ses.sesbuf.datalen = 0) :
    SameBytes ds ds' ∧ (ok = true → ds'.at ses.dkey = none ∧
      ds'.disk (vol.node ses.filename) ≠ .absent) := by
  cases save with
  | finished d found _ closed disk _ =>
    refine ⟨.of_disk disk, fun _ => ⟨closed, ?_⟩⟩
    have file : d.filename = ses.filename := congrArg Prod.snd (lookup_key found)
    have there := inv.there (at_mem found)
    rw [inv.placed d (at_mem found), file] at there
    rwa [disk]
  | created _ free _ _ closed disk _ =>
    refine ⟨.created free disk, fun _ => ⟨closed, ?_⟩⟩
    rw [disk, Function.update_self]
    exact FileNode.truncated_there _
  | refused _ _ _ disk => exact ⟨.of_disk disk, nofun⟩
  | appended _ _ _ _ _ loaded | started _ _ _ _ loaded | short _ _ _ loaded | cut _ _ _ _ loaded =>
    exact absurd empty loaded

/-- What is saved is there. -/
theorem Save.present {ses : Session} {ds ds' : IWDS} (save : Save vol ses ds ds' true)
    (inv : Consistent vol ds) : ds'.disk (vol.node ses.filename) ≠ .absent := by
  have place {d : DSession} (found : ds.at ses.dkey = some d) : d.fp.node = vol.node ses.filename := by
    have file : d.filename = ses.filename := congrArg Prod.snd (lookup_key found)
    rw [inv.placed d (at_mem found), file]
  cases save with
  | finished d found _ _ disk =>
    rw [disk, ← place found]
    exact inv.there (at_mem found)
  | created _ _ _ _ _ disk =>
    rw [disk, Function.update_self]
    exact FileNode.truncated_there _
  | started _ _ _ _ _ _ _ disk =>
    rw [disk, Function.update_self]
    exact FileNode.put_there _ _ _
  | appended d _ found _ _ _ _ _ disk =>
    rw [disk, ← place found, Function.update_self]
    exact FileNode.put_there _ _ _

/-- A save that fails has closed the node. -/
theorem Save.closed {ses : Session} {ds ds' : IWDS} (save : Save vol ses ds ds' false) :
    ds'.at ses.dkey = none := by
  cases save with
  | refused _ _ closed _ => exact closed
  | short _ _ _ _ closed _ => exact closed
  | cut _ _ _ _ _ closed => exact closed

/-! ## `put_session_data` always ends -/

/-- With room and data, a copy consumes something. -/
theorem consumed_progress {ses : Session} {data : Bytes} (room : ses.sesbuf.datalen < sessionBufsize)
    (nonempty : data ≠ []) : 0 < ses.consumed data := by
  have window : 0 < (data.take (sessionBufsize - ses.sesbuf.datalen)).length := by
    have some := List.length_pos_iff.mpr nonempty
    rw [List.length_take]
    omega
  rw [Session.consumed, TftpMode.consumed]
  split <;> omega

/-- The buffer behind a pass fits. -/
theorem behind_fits {ses : Session} (data : Bytes) (fits : ses.sesbuf.Fits) :
    (ses.behind data).sesbuf.Fits := by
  have shorter := piece_length ses.tftpmode (sessionBufsize - ses.sesbuf.datalen) data
  have window := List.length_take_le (sessionBufsize - ses.sesbuf.datalen) data
  have short := fits.short
  constructor
  · exact writeAt_length.trans fits.size
  · show ses.sesbuf.datalen + _ ≤ _
    omega

/-- After a pass that goes on, the buffer is not full. -/
theorem flush_space {ses : Session} {ds : IWDS} (flushed : (flush vol ses ds).1 = true) :
    (flush vol ses ds).2.1.sesbuf.datalen ≠ sessionBufsize := by
  by_cases due : ses.sesbuf.datalen = sessionBufsize ∨ ses.fin = true
  · rw [flush_due ses ds due] at flushed ⊢
    rw [saveData_session, if_pos flushed]
    nofun
  · rw [not_or, Bool.not_eq_true] at due
    rw [flush_early ses ds due.1 due.2]
    exact due.1

/-- The loop ends before its fuel does, and when it fails it has closed the node. -/
theorem putLoop_ends (fuel : Nat) {ses : Session} {ds : IWDS} (data : Bytes)
    (inv : Consistent vol ds) (fits : ses.sesbuf.Fits)
    (enough : data.length + (if ses.sesbuf.datalen = sessionBufsize then 1 else 0) < fuel) :
    (putLoop vol fuel ses ds data).status = .done ∨
      ((putLoop vol fuel ses ds data).status = .err ∧
        (putLoop vol fuel ses ds data).ds.at ses.dkey = none) := by
  induction fuel generalizing ses ds data with
  | zero => omega
  | succ fuel inductionHypothesis =>
    obtain ⟨ds₁, dhead, disk, _, pass⟩ := putLoop_pass vol fuel ses ds data
    have inv₁ : Consistent vol ds₁ := inv.congr dhead disk
    have fits₁ := behind_fits data fits
    have chain := flush_chain vol (ses.behind data) ds₁
    have only := flush_only vol (ses.behind data) ds₁
    have fits₂ := flush_fits vol ds₁ fits₁
    have space : (flush vol (ses.behind data) ds₁).1 = true → _ := flush_space
    have closed : (flush vol (ses.behind data) ds₁).1 = false →
        (flush vol (ses.behind data) ds₁).2.2.at ses.dkey = none := by
      intro failed
      by_cases due : (ses.behind data).sesbuf.datalen = sessionBufsize ∨ ses.fin = true
      · rw [flush_due (ses.behind data) ds₁ due] at failed ⊢
        have save := saveData_cases (ses.behind data) inv₁
        rw [failed] at save
        exact save.closed
      · rw [not_or, Bool.not_eq_true] at due
        rw [flush_early (ses.behind data) ds₁ due.1 due.2] at failed
        cases failed
    have progress : ses.sesbuf.datalen = sessionBufsize ∨ data = [] ∨ 0 < ses.consumed data := by
      by_cases full : ses.sesbuf.datalen = sessionBufsize
      · exact .inl full
      · by_cases nothing : data = []
        · exact .inr (.inl nothing)
        · have short := fits.short
          exact .inr (.inr (consumed_progress (by omega) nothing))
    rw [pass]
    dsimp only
    generalize flush vol (ses.behind data) ds₁ = f at chain only fits₂ space closed ⊢
    obtain ⟨_ | _, ses₂, ds₂⟩ := f
    · exact .inr ⟨rfl, closed rfl⟩
    · simp only [Bool.true_eq_false, if_false]
      split
      · rename_i more
        have key : ses₂.dkey = ses.dkey := only.dkey
        have space : ses₂.sesbuf.datalen ≠ sessionBufsize := space rfl
        have rest := inductionHypothesis (data.drop (ses.consumed data))
          (chain.consistent inv₁) fits₂ (by
            rw [if_neg space, List.length_drop]
            obtain full | nothing | some := progress
            · rw [if_pos full] at enough
              omega
            · rw [nothing] at more
              exact absurd more (Nat.not_lt_zero _)
            · omega)
        rw [key] at rest
        exact rest
      · exact .inl rfl

/-- A block is taken in, or the session has no node any more. -/
theorem putSessionData_ends (ses : Session) {ds : IWDS} (data : Bytes) (inv : Consistent vol ds)
    (fits : ses.sesbuf.Fits) :
    (putSessionData vol ses ds data).status = .done ∨
      ((putSessionData vol ses ds data).status = .err ∧
        (putSessionData vol ses ds data).ds.at ses.dkey = none) := by
  rw [putSessionData]
  split
  · exact .inl rfl
  · exact putLoop_ends _ data inv fits (by split <;> omega)

/-- An unfinished session without a node opens none while its buffer has room for what is
kept, or when a save could not open one. -/
theorem putLoop_unopened (fuel : Nat) (ses : Session) (ds : IWDS) (data : Bytes)
    (inv : Consistent vol ds) (running : ses.fin = false) (absent : ds.at ses.dkey = none)
    (why : ses.sesbuf.datalen + (ses.tftpmode.kept data).length < sessionBufsize ∨
      ¬ (ds.disk (vol.node ses.filename)).Opens ∨ ds.fault ≠ .none) :
    (putLoop vol fuel ses ds data).ds.at ses.dkey = none := by
  induction fuel generalizing ses ds data with
  | zero => exact absent
  | succ fuel inductionHypothesis =>
    obtain ⟨ds₁, dhead, disk, faults, pass⟩ := putLoop_pass vol fuel ses ds data
    have inv₁ : Consistent vol ds₁ := inv.congr dhead disk
    have absent₁ : ds₁.at ses.dkey = none := by rw [IWDS.at, dhead]; exact absent
    have split := kept_split ses.tftpmode (sessionBufsize - ses.sesbuf.datalen) data
    have length := congrArg List.length split
    rw [List.length_append] at length
    rw [pass]
    dsimp only
    by_cases full : (ses.behind data).sesbuf.datalen = sessionBufsize
    · have level : ses.sesbuf.datalen +
          (ses.tftpmode.piece (sessionBufsize - ses.sesbuf.datalen) data).length =
          sessionBufsize := full
      have why₁ : ¬ (ds₁.disk (vol.node ses.filename)).Opens ∨ ds₁.fault ≠ .none := by
        rw [disk, IWDS.fault, faults]
        exact why.resolve_left (by omega)
      have save := saveData_cases (ses.behind data) inv₁
      have denied := save.denied absent₁ why₁
      rw [flush_due (ses.behind data) ds₁ (.inl full), if_pos denied.1]
      rw [denied.1] at save
      exact save.closed
    · rw [flush_early (ses.behind data) ds₁ full running]
      simp only [Bool.true_eq_false, if_false]
      split
      · apply inductionHypothesis (ses.behind data) ds₁ _ inv₁ running absent₁
        rw [disk, IWDS.fault, faults]
        apply why.imp_left
        intro room
        show ses.sesbuf.datalen + _ + _ < _
        rw [Session.consumed]
        have mode : (ses.behind data).tftpmode = ses.tftpmode := rfl
        rw [mode]
        omega
      · exact absent₁

end Iwtftpd
