import Iwtftpd.SessionSteps

/-!
# How a load ends

`load_data` fills the buffer from `iwds_read`. It goes through when the stream
under the key of the session is open for reading, or can be opened, and no call
fails; it closes the node otherwise. Both ends are listed here with what decides
them and what they leave. `get_session_data` then delivers as many bytes as it
was asked for, or all that are left.
-/

namespace Iwtftpd

variable {vol : Volume}

/-! ## The stream under the load -/

/-- The bytes that the next read of a stream delivers. -/
def Stream.ahead (fp : Stream) (content : Bytes) : Bytes :=
  if fp.eof then [] else (content.drop fp.off).take sessionBufsize

/-- The node behind that read. -/
def DSession.advanced (d : DSession) (content : Bytes) : DSession :=
  { d with fp := { d.fp with
      off := d.fp.off + (d.fp.ahead content).length
      eof := d.fp.eof || decide ((d.fp.ahead content).length < sessionBufsize) } }

/-- What lies ahead of a stream for one read is at most a buffer. -/
theorem ahead_length (fp : Stream) (content : Bytes) :
    (fp.ahead content).length ≤ sessionBufsize := by
  rw [Stream.ahead]
  split
  · exact Nat.zero_le _
  · exact List.length_take_le _ _

/-- An `fread` that meets no failure returns what lies ahead, moves past it, and sets the
end-of-file mark when that was less than a buffer. -/
theorem fread_clean {ds : IWDS} {fp : Stream} {content : Bytes} (mode : fp.mode = .read)
    (clean : ds.fault = .none) (file : ds.disk fp.node = .regular content) :
    fread ds fp sessionBufsize =
      { data := fp.ahead content, ferror := false
        fp := { fp with
          off := fp.off + (fp.ahead content).length
          eof := fp.eof || decide ((fp.ahead content).length < sessionBufsize) } } := by
  rw [fread, mode, clean, file]
  rfl

/-- A read that meets a fault, or a stream open for writing, ends in `ferror` before the
buffer is full. -/
theorem fread_failed {ds : IWDS} {fp : Stream} (why : fp.mode = .write ∨ ds.fault ≠ .none) :
    (fread ds fp sessionBufsize).ferror = true ∧
      (fread ds fp sessionBufsize).data.length < sessionBufsize := by
  rw [fread]
  cases mode : fp.mode with
  | write => exact ⟨rfl, Nat.zero_lt_succ _⟩
  | read =>
    cases fault : ds.fault with
    | none => exact absurd fault (why.resolve_left (by simp [mode]))
    | fail moved =>
      refine ⟨rfl, ?_⟩
      have size : sessionBufsize = 8192 := rfl
      simp only [List.length_take]
      omega

/-- The read of a node that meets no failure returns what lies ahead of the stream, and the node
stays in the list with the stream moved along. -/
theorem readFrom_clean {ds : IWDS} {d : DSession} {content : Bytes} (found : ds.at d.key = some d)
    (mode : d.fp.mode = .read) (clean : ds.fault = .none)
    (file : ds.disk d.fp.node = .regular content) :
    (readFrom ds d sessionBufsize).data = d.fp.ahead content ∧
      (readFrom ds d sessionBufsize).derr = none ∧
      (readFrom ds d sessionBufsize).ds.at d.key = some (d.advanced content) ∧
      (readFrom ds d sessionBufsize).ds.disk = ds.disk ∧
      (readFrom ds d sessionBufsize).ds.faults = ds.faults.tail := by
  rw [readFrom, fread_clean mode clean file]
  rw [if_neg (by simp)]
  exact ⟨rfl, rfl, Keyed.lookup_store_self DSession.key (a := d.advanced content) found, rfl, rfl⟩

/-- A read that fails says so, and changes no file. -/
theorem readFrom_failed (ds : IWDS) (d : DSession) (why : d.fp.mode = .write ∨ ds.fault ≠ .none) :
    (readFrom ds d sessionBufsize).derr = some .readFail ∧
      (readFrom ds d sessionBufsize).ds.disk = ds.disk := by
  obtain ⟨ferror, short⟩ := fread_failed why
  rw [readFrom]
  rw [if_pos ⟨short, ferror⟩]
  exact ⟨rfl, by rw [delDsession_disk]; rfl⟩

/-! ## `iwds_read` by the file and the node -/

/-- Without a regular file at the name `iwds_read` refuses at once, whether a stream is open or
not. -/
theorem iwdsRead_missing {ds : IWDS} (id : Int) {file : Bytes} (dlen : Nat)
    (missing : ∀ content, ds.disk (vol.node file) ≠ .regular content) :
    iwdsRead vol ds id file dlen =
      { data := [], derr := some .notExist, ds := ds.note (.iwdsRead id file) } := by
  have no : isDsfile vol (ds.note (.iwdsRead id file)) file = .no :=
    (isDsfile_no_iff vol _ file).mpr missing
  simp only [iwdsRead, no]

/-- With a stream it goes on reading where that is. -/
theorem iwdsRead_found {ds : IWDS} {id : Int} {file content : Bytes} {d : DSession} (dlen : Nat)
    (held : ds.disk (vol.node file) = .regular content) (found : ds.at (id, file) = some d) :
    iwdsRead vol ds id file dlen = readFrom (ds.note (.iwdsRead id file)) d dlen := by
  have yes : isDsfile vol (ds.note (.iwdsRead id file)) file = .yes :=
    (isDsfile_yes_iff vol _ file).mpr ⟨content, held⟩
  have found' : getDsession (ds.note (.iwdsRead id file)).dhead id file = some d := found
  simp only [iwdsRead, yes, found']

/-- Without a stream `iwds_read` needs an `fopen`, and reports that there is no session when it
fails. -/
theorem iwdsRead_unopened {ds ds' : IWDS} {id : Int} {file content : Bytes} (dlen : Nat)
    (held : ds.disk (vol.node file) = .regular content) (absent : ds.at (id, file) = none)
    (created : createDsession vol (ds.note (.iwdsRead id file)) id file .read = (none, ds')) :
    iwdsRead vol ds id file dlen = { data := [], derr := some .noSession, ds := ds' } := by
  have yes : isDsfile vol (ds.note (.iwdsRead id file)) file = .yes :=
    (isDsfile_yes_iff vol _ file).mpr ⟨content, held⟩
  have absent' : getDsession (ds.note (.iwdsRead id file)).dhead id file = none := absent
  simp only [iwdsRead, yes, absent', created]

/-- Without a stream, and with an `fopen` that succeeds, `iwds_read` reads from the beginning of
the file at once. -/
theorem iwdsRead_opened {ds ds' : IWDS} {id : Int} {file content : Bytes} {d : DSession}
    (dlen : Nat) (held : ds.disk (vol.node file) = .regular content)
    (absent : ds.at (id, file) = none)
    (created : createDsession vol (ds.note (.iwdsRead id file)) id file .read = (some d, ds')) :
    iwdsRead vol ds id file dlen = readFrom ds' d dlen := by
  have yes : isDsfile vol (ds.note (.iwdsRead id file)) file = .yes :=
    (isDsfile_yes_iff vol _ file).mpr ⟨content, held⟩
  have absent' : getDsession (ds.note (.iwdsRead id file)).dhead id file = none := absent
  simp only [iwdsRead, yes, absent', created]

/-! ## The ends of a load -/

/-- The buffer behind a load. -/
def Session.loaded (ses : Session) (data : Bytes) : Session :=
  { ses with sesbuf := { ses.sesbuf with
      storage := writeAt ses.sesbuf.storage 0 data, datalen := data.length, pos := 0 } }

/-- The node that a load reads from: the one under the key, or a new one. -/
def Session.reader (vol : Volume) (ses : Session) (ds : IWDS) : DSession :=
  (ds.at ses.dkey).getD (opened vol ses.dkey .read)

/-- The stdio calls of a load: a read, after the file was opened unless a node is there. -/
def Session.calls (ses : Session) (ds : IWDS) : Nat := if ds.at ses.dkey = none then 2 else 1

/-- The next stdio calls succeed. -/
def IWDS.Clear (ds : IWDS) (calls : Nat) : Prop := ∀ f ∈ ds.faults.take calls, f = .none

/-- Several calls succeed when the first does and the others do. -/
theorem clear_succ {ds : IWDS} (calls : Nat) :
    ds.Clear (calls + 1) ↔ ds.fault = .none ∧ ∀ f ∈ ds.faults.tail.take calls, f = .none := by
  rw [IWDS.Clear, IWDS.fault]
  cases ds.faults with
  | nil => simp
  | cons f rest => simp

/-- One call succeeds when no fault awaits it. -/
theorem clear_one {ds : IWDS} : ds.Clear 1 ↔ ds.fault = .none := by
  simp [clear_succ]

/-- Without faults all calls succeed. -/
theorem clear_nil {ds : IWDS} (calls : Nat) (faultless : ds.faults = []) : ds.Clear calls := by
  rw [IWDS.Clear, faultless, List.take_nil]
  nofun

/-- A load makes a call. -/
theorem fault_of_clear {ses : Session} {ds : IWDS} (clear : ds.Clear (ses.calls ds)) :
    ds.fault = .none := by
  rw [Session.calls] at clear
  split at clear <;> exact ((clear_succ _).mp clear).1

/-- The ends of a load: whether it returns `IW_OK`, with the session and the datastore
afterwards. -/
inductive Load (vol : Volume) (ses : Session) (ds : IWDS) : Bool × Session × IWDS → Prop where
  | filled (content : Bytes) (ds' : IWDS)
      (file : ds.disk (vol.node ses.filename) = .regular content)
      (mode : (ses.reader vol ds).fp.mode = .read) (clear : ds.Clear (ses.calls ds))
      (linked : ds'.at ses.dkey = some ((ses.reader vol ds).advanced content))
      (disk : ds'.disk = ds.disk) (faults : ds'.faults = ds.faults.drop (ses.calls ds)) :
      Load vol ses ds (true, ses.loaded ((ses.reader vol ds).fp.ahead content), ds')
  | failed (ses' : Session) (ds' : IWDS)
      (why : (∀ content, ds.disk (vol.node ses.filename) ≠ .regular content) ∨
        ¬ ds.Clear (ses.calls ds) ∨ ∃ d, ds.at ses.dkey = some d ∧ d.fp.mode = .write)
      (closed : ds'.at ses.dkey = none) (disk : ds'.disk = ds.disk) :
      Load vol ses ds (false, ses', ds')

/-- When the read fails, `load_data` closes the stream. -/
theorem loadData_failed {ses : Session} {ds : IWDS}
    (failed : (iwdsRead vol ds ses.clsock ses.filename sessionBufsize).derr ≠ none) :
    ∃ ses', loadData vol ses ds = (false, ses',
      closeData ses (iwdsRead vol ds ses.clsock ses.filename sessionBufsize).ds) := by
  obtain ⟨code, derr⟩ := Option.ne_none_iff_exists'.mp failed
  rw [loadData]
  simp only [derr]
  exact ⟨_, rfl⟩

/-- When it does not, the bytes are put into the buffer. -/
theorem loadData_filled {ses : Session} {ds : IWDS}
    (derr : (iwdsRead vol ds ses.clsock ses.filename sessionBufsize).derr = none) :
    loadData vol ses ds =
      (true, ses.loaded (iwdsRead vol ds ses.clsock ses.filename sessionBufsize).data,
        (iwdsRead vol ds ses.clsock ses.filename sessionBufsize).ds) := by
  rw [loadData]
  simp only [derr]
  rfl

/-- Every load ends in one of the two ways. -/
theorem loadData_cases (ses : Session) {ds : IWDS} (inv : Consistent vol ds) :
    Load vol ses ds (loadData vol ses ds) := by
  have read : Consistent vol (iwdsRead vol ds ses.clsock ses.filename sessionBufsize).ds :=
    (iwdsRead_chain vol ds _ _ _).consistent inv
  have closed := closeData_closed ses read.distinct
  have fails (why : (∀ content, ds.disk (vol.node ses.filename) ≠ .regular content) ∨
        ¬ ds.Clear (ses.calls ds) ∨ ∃ d, ds.at ses.dkey = some d ∧ d.fp.mode = .write)
      (derr : (iwdsRead vol ds ses.clsock ses.filename sessionBufsize).derr ≠ none)
      (disk : (iwdsRead vol ds ses.clsock ses.filename sessionBufsize).ds.disk = ds.disk) :
      Load vol ses ds (loadData vol ses ds) := by
    obtain ⟨ses', result⟩ := loadData_failed derr
    rw [result]
    exact .failed ses' _ why closed (by rw [closeData_disk, disk])
  by_cases file : ∃ content, ds.disk (vol.node ses.filename) = .regular content
  · obtain ⟨content, held⟩ := file
    cases found : ds.at ses.dkey with
    | some d =>
      have key := lookup_key found
      have member := at_mem found
      have reader : ses.reader vol ds = d := by rw [Session.reader, found]; rfl
      have noted : (ds.note (.iwdsRead ses.clsock ses.filename)).at d.key = some d := key ▸ found
      have name : d.filename = ses.filename := congrArg Prod.snd key
      have place : ds.disk d.fp.node = .regular content := by
        rw [inv.placed d member, name, held]
      have call := iwdsRead_found sessionBufsize held found
      have calls : ses.calls ds = 1 := by
        rw [Session.calls, found]
        rfl
      by_cases takes : d.fp.mode = .read ∧ ds.fault = .none
      · obtain ⟨mode, clean⟩ := takes
        obtain ⟨data, derr, linked, disk, faults⟩ := readFrom_clean noted mode clean place
        rw [← call] at data derr linked disk faults
        rw [loadData_filled derr, data, ← reader]
        refine .filled content _ held (reader ▸ mode) ?_ (by rw [reader, ← key]; exact linked)
          disk ?_
        · rw [calls]
          exact clear_one.mpr clean
        · rw [faults, calls]
          exact (List.drop_one ..).symm
      · have why : d.fp.mode = .write ∨ ds.fault ≠ .none := by
          cases mode : d.fp.mode with
          | write => exact .inl rfl
          | read => exact .inr fun clean => takes ⟨mode, clean⟩
        obtain ⟨derr, disk⟩ := readFrom_failed
          (ds.note (.iwdsRead ses.clsock ses.filename)) d why
        rw [← call] at derr disk
        refine fails ?_ (by rw [derr]; exact Option.some_ne_none _) disk
        rw [calls]
        exact .inr (why.symm.imp (mt clear_one.mp) fun mode => ⟨d, found, mode⟩)
    | none =>
      have reader : ses.reader vol ds = opened vol ses.dkey .read := by
        rw [Session.reader, found]
        rfl
      have calls : ses.calls ds = 2 := if_pos found
      obtain ⟨ds', created, why, dhead, disk⟩ | ⟨ds', created, clean, _, dhead, disk, faults⟩ :=
        createDsession_read vol (ds.note (.iwdsRead ses.clsock ses.filename)) ses.clsock ses.filename
      · have call := iwdsRead_unopened sessionBufsize held found created
        refine fails ?_ (by rw [call]; exact Option.some_ne_none _) (by rw [call]; exact disk)
        rw [calls]
        have faulty := why.resolve_left fun missing => missing content held
        exact .inr (.inl fun clear => faulty ((clear_succ 1).mp clear).1)
      · have call : iwdsRead vol ds ses.clsock ses.filename sessionBufsize =
            readFrom ds' (opened vol ses.dkey .read) sessionBufsize :=
          iwdsRead_opened sessionBufsize held found created
        have linked : ds'.at (opened vol ses.dkey .read).key = some (opened vol ses.dkey .read) := by
          have dhead : ds'.dhead = opened vol ses.dkey .read :: ds.dhead := dhead
          rw [IWDS.at, dhead, Keyed.lookup_cons, if_pos rfl]
        have place : ds'.disk (opened vol ses.dkey .read).fp.node = .regular content := by
          rw [disk]
          exact held
        -- The faults are those that follow the one of `fopen`.
        have after : (∀ f ∈ ds.faults.tail.take 1, f = .none) ↔ ds'.fault = .none := by
          have one := @clear_one ds'
          rw [IWDS.Clear, faults] at one
          exact one
        by_cases clean' : ds'.fault = .none
        · obtain ⟨data, derr, linked', disk', faults'⟩ := readFrom_clean linked rfl clean' place
          rw [← call] at data derr linked' disk' faults'
          rw [loadData_filled derr, data, ← reader]
          refine .filled content _ held (reader ▸ rfl) ?_ (by rw [reader]; exact linked')
            (disk'.trans disk) ?_
          · rw [calls]
            exact (clear_succ 1).mpr ⟨clean, after.mpr clean'⟩
          · rw [faults', faults, calls, note_faults, ← List.drop_one, ← List.drop_one, List.drop_drop]
        · obtain ⟨derr, disk'⟩ := readFrom_failed ds' (opened vol ses.dkey .read) (.inr clean')
          rw [← call] at derr disk'
          refine fails (.inr (.inl ?_)) (by rw [derr]; exact Option.some_ne_none _) (disk'.trans disk)
          rw [calls]
          exact fun clear => clean' (after.mp ((clear_succ 1).mp clear).2)
  · have missing : ∀ content, ds.disk (vol.node ses.filename) ≠ .regular content :=
      fun content held => file ⟨content, held⟩
    have call := iwdsRead_missing ses.clsock sessionBufsize missing
    exact fails (.inl missing) (by rw [call]; exact Option.some_ne_none _) (by rw [call]; rfl)

/-! ## `get_session_data` always ends -/

/-- A refill that fails has closed the node. -/
theorem refill_closed {ses ses' : Session} {ds ds' : IWDS} (inv : Consistent vol ds)
    (failed : refill vol ses ds = (.failed, ses', ds')) : ds'.at ses.dkey = none := by
  rw [refill] at failed
  split at failed
  · have load := loadData_cases ses inv
    generalize loadData vol ses ds = result at failed load
    cases load with
    | filled =>
      have outcome := congrArg Prod.fst failed
      dsimp only at outcome
      split at outcome <;> cases outcome
    | failed s d _ closed _ =>
      obtain ⟨_, _, rfl⟩ := failed
      exact closed
  · cases failed

/-- A buffer that is ready has something in it. -/
theorem refill_loaded {ses ses' : Session} {ds ds' : IWDS}
    (ready : refill vol ses ds = (.ready, ses', ds')) : ses'.sesbuf.datalen ≠ 0 := by
  rw [refill] at ready
  split at ready
  · split at ready
    · cases ready
    · split at ready
      · cases ready
      · rename_i loaded
        obtain ⟨_, rfl, _⟩ := ready
        exact loaded
  · rename_i loaded
    obtain ⟨_, rfl, _⟩ := ready
    exact loaded

/-- With room and with bytes in the buffer `local_to_netascii` writes at least one byte. -/
theorem localToNetascii_progress {room : Nat} {sb : DataStorage} (space : 0 < room)
    (loaded : sb.datalen ≠ 0) : 0 < (localToNetascii room sb).1.length := by
  rw [localToNetascii]
  dsimp only
  split
  · rename_i all
    rw [all, readAt_length]
    omega
  · split
    · split <;> simp
    · simp

/-- A piece of a buffer that holds something is not empty. -/
theorem takePiece_progress {ses : Session} (ds : IWDS) {room : Nat} (space : 0 < room)
    (loaded : ses.sesbuf.datalen ≠ 0) : 0 < (takePiece ses ds room).1.length := by
  rw [takePiece]
  cases ses.tftpmode with
  | octet =>
    simp only [readAt_length]
    split <;> omega
  | netascii => exact localToNetascii_progress space loaded

/-- The loop ends before its fuel does, and when it fails it has closed the node. -/
theorem getLoop_ends (fuel : Nat) (ses : Session) {ds : IWDS} {room : Nat} (out : Bytes)
    (inv : Consistent vol ds) (space : 0 < room) (enough : room < fuel) :
    (getLoop vol fuel ses ds room out).status = .done ∨
      ((getLoop vol fuel ses ds room out).status = .err ∧
        (getLoop vol fuel ses ds room out).ds.at ses.dkey = none) := by
  induction fuel generalizing ses ds room out with
  | zero => omega
  | succ fuel inductionHypothesis =>
    have chain := refill_chain vol ses ds
    have only := refill_only vol ses ds
    cases refilled : refill vol ses ds with
    | mk outcome rest =>
    obtain ⟨ses', ds'⟩ := rest
    rw [refilled] at chain only
    cases outcome with
    | failed =>
      rw [getLoop_failed refilled]
      exact .inr ⟨rfl, refill_closed inv refilled⟩
    | eof =>
      rw [getLoop_eof refilled]
      exact .inl rfl
    | ready =>
      have progress := takePiece_progress ds' space (refill_loaded refilled)
      rw [getLoop_ready refilled]
      split
      · rename_i less
        have inv' := (takePiece_chain vol ses' ds' room ses.dkey).consistent (chain.consistent inv)
        have space' : 0 < room - (takePiece ses' ds' room).1.length := by omega
        have rest := inductionHypothesis (takePiece ses' ds' room).2.1
          (out ++ (takePiece ses' ds' room).1) inv' space' (by omega)
        rw [(takePiece_only ses' ds' room).dkey, only.dkey] at rest
        exact rest
      · exact .inl rfl

/-! ## Reading leaves the files alone -/

/-- A load changes no file: the streams that it opens or closes are for reading, or those of an
upload that are closed as they are. -/
theorem loadData_disk (ses : Session) {ds : IWDS} (inv : Consistent vol ds) :
    (loadData vol ses ds).2.2.disk = ds.disk := by
  have load := loadData_cases ses inv
  generalize loadData vol ses ds = result at load
  cases load with
  | filled _ _ _ _ _ _ disk _ => exact disk
  | failed _ _ _ _ disk => exact disk

/-- A refill changes no file. -/
theorem refill_disk (ses : Session) {ds : IWDS} (inv : Consistent vol ds) :
    (refill vol ses ds).2.2.disk = ds.disk := by
  have disk := loadData_disk ses inv
  rw [refill]
  split
  · generalize loadData vol ses ds = result at disk ⊢
    obtain ⟨_ | _, ses', ds'⟩ := result <;> exact disk
  · rfl

/-- The loop of `get_session_data` changes no file, by induction on the fuel. -/
theorem getLoop_disk (fuel : Nat) (ses : Session) {ds : IWDS} (room : Nat) (out : Bytes)
    (inv : Consistent vol ds) : (getLoop vol fuel ses ds room out).ds.disk = ds.disk := by
  induction fuel generalizing ses ds room out with
  | zero => rfl
  | succ fuel inductionHypothesis =>
    have disk := refill_disk ses inv
    have chain := refill_chain vol ses ds
    cases refilled : refill vol ses ds with
    | mk outcome rest =>
    obtain ⟨ses', ds'⟩ := rest
    rw [refilled] at disk chain
    cases outcome with
    | failed =>
      rw [getLoop_failed refilled]
      exact disk
    | eof =>
      rw [getLoop_eof refilled]
      exact disk
    | ready =>
      have inv' := (takePiece_chain vol ses' ds' room ses.dkey).consistent (chain.consistent inv)
      have taken : (takePiece ses' ds' room).2.2.disk = ds'.disk := by
        rw [takePiece]
        cases ses'.tftpmode <;> rfl
      rw [getLoop_ready refilled]
      split
      · exact (inductionHypothesis _ _ _ inv').trans (taken.trans disk)
      · exact taken.trans disk

/-- Making a block changes no file. -/
theorem makeTftpdataMsg_disk (ses : Session) {ds : IWDS} (bufsize : Nat) (now : Int)
    (inv : Consistent vol ds) : (makeTftpdataMsg vol ses ds bufsize now).2.2.disk = ds.disk := by
  have disk := getLoop_disk (tftpDatalenMax + 1) { ses with blknum := nextBlk ses.blknum }
    tftpDatalenMax [] inv
  rw [makeTftpdataMsg]
  split
  · rfl
  · rw [← getSessionData] at disk
    dsimp only
    generalize getSessionData vol { ses with blknum := nextBlk ses.blknum } ds tftpDatalenMax = r
      at disk ⊢
    cases r.status with
    | done =>
      dsimp only
      rw [finIfShort]
      split
      · exact (closeData_disk _ _).trans disk
      · exact disk
    | err | running => exact disk

/-- A session whose block could not be made has no node. -/
theorem makeTftpdataMsg_closed {ses : Session} {ds : IWDS} {now : Int} (inv : Consistent vol ds)
    (failed : (makeTftpdataMsg vol ses ds tftpMsglenMax now).1 = none) :
    (makeTftpdataMsg vol ses ds tftpMsglenMax now).2.2.at ses.dkey = none := by
  rw [makeTftpdataMsg, if_neg (Nat.lt_irrefl _)] at failed ⊢
  have ends := getLoop_ends (tftpDatalenMax + 1) { ses with blknum := nextBlk ses.blknum } []
    inv (by decide : 0 < tftpDatalenMax) (Nat.lt_succ_self _)
  rw [← getSessionData] at ends
  dsimp only at failed ⊢
  generalize getSessionData vol { ses with blknum := nextBlk ses.blknum } ds tftpDatalenMax = r
    at ends failed ⊢
  obtain done | ⟨err, closed⟩ := ends
  · rw [done] at failed
    cases failed
  · rw [err]
    exact closed

/-- After a block was made, the session goes on or its node is closed. -/
theorem makeTftpdataMsg_fin_closed {ses : Session} {ds : IWDS} {now : Int} {msg : Bytes}
    (inv : Consistent vol ds) (running : ses.fin = false)
    (made : (makeTftpdataMsg vol ses ds tftpMsglenMax now).1 = some msg) :
    (makeTftpdataMsg vol ses ds tftpMsglenMax now).2.1.fin = false ∨
      (makeTftpdataMsg vol ses ds tftpMsglenMax now).2.2.at ses.dkey = none := by
  rw [makeTftpdataMsg, if_neg (Nat.lt_irrefl _)] at made ⊢
  obtain ⟨chain, only, _⟩ := getSessionData_steps vol
    { ses with blknum := nextBlk ses.blknum } ds tftpDatalenMax
  dsimp only at made ⊢
  generalize getSessionData vol { ses with blknum := nextBlk ses.blknum } ds tftpDatalenMax = r
    at chain only made ⊢
  split at made
  · rw [finIfShort]
    split
    · right
      have closed := closeData_closed { r.ses with fin := true } (chain.consistent inv).distinct
      have key : ({ r.ses with fin := true } : Session).dkey = ses.dkey := only.dkey
      rw [key] at closed
      exact closed
    · exact .inl (only.fin.trans running)
  · cases made

/-! ## When nothing is opened -/

/-- As long as there is something in the buffer nothing is loaded. -/
theorem refill_kept {ses : Session} (ds : IWDS) (loaded : ses.sesbuf.datalen ≠ 0) :
    refill vol ses ds = (.ready, ses, ds) := if_neg loaded

/-- A session without a node opens none while its buffer suffices, or when the file
cannot be opened. -/
theorem getLoop_unopened (fuel : Nat) (ses : Session) (ds : IWDS) (room : Nat) (out : Bytes)
    (inv : Consistent vol ds) (absent : ds.at ses.dkey = none) (space : 0 < room)
    (why : room ≤ ses.sesbuf.datalen ∨
      (∀ content, ds.disk (vol.node ses.filename) ≠ .regular content) ∨ ds.fault ≠ .none) :
    (getLoop vol fuel ses ds room out).ds.at ses.dkey = none := by
  induction fuel generalizing ses ds room out with
  | zero => exact absent
  | succ fuel inductionHypothesis =>
    by_cases empty : ses.sesbuf.datalen = 0
    · have barred := why.resolve_left (by omega)
      have refilled : refill vol ses ds =
          (.failed, (loadData vol ses ds).2.1, (loadData vol ses ds).2.2) ∧
          (loadData vol ses ds).2.2.at ses.dkey = none := by
        have load := loadData_cases ses inv
        rw [refill, if_pos empty]
        generalize loadData vol ses ds = result at load ⊢
        cases load with
        | filled content _ file _ clear _ _ _ =>
          exact (barred.elim (fun missing => missing content file) fun h => h (fault_of_clear clear)).elim
        | failed _ _ _ closed _ => exact ⟨rfl, closed⟩
      rw [getLoop_failed refilled.1]
      exact refilled.2
    · rw [getLoop_ready (refill_kept ds empty)]
      split
      · have only := takePiece_only ses ds room
        have consumes := takePiece_consumes ses ds room
        have same : (takePiece ses ds room).2.2.dhead = ds.dhead ∧
            (takePiece ses ds room).2.2.disk = ds.disk ∧
            (takePiece ses ds room).2.2.faults = ds.faults := by
          rw [takePiece]
          split <;> exact ⟨rfl, rfl, rfl⟩
        obtain ⟨dhead, disk, faults⟩ := same
        have rest := inductionHypothesis (takePiece ses ds room).2.1
          (takePiece ses ds room).2.2 (room - (takePiece ses ds room).1.length)
          (out ++ (takePiece ses ds room).1) (inv.congr dhead disk)
          (by rw [IWDS.at, dhead, only.dkey]; exact absent) (by omega)
          (by
            rw [disk, filename_of_ident only.ident, IWDS.fault, faults]
            exact why.imp_left fun enough => by omega)
        rw [only.dkey] at rest
        exact rest
      · rw [IWDS.at]
        have same : (takePiece ses ds room).2.2.dhead = ds.dhead := by
          rw [takePiece]
          split <;> rfl
        rw [same]
        exact absent

/-- The encoder of DATA leaves no stream open, where none was, when the buffer has the block, the
file is no regular one, or the first call fails. -/
theorem makeTftpdataMsg_unopened {ses : Session} {ds : IWDS} {now : Int} (inv : Consistent vol ds)
    (absent : ds.at ses.dkey = none)
    (why : tftpDatalenMax ≤ ses.sesbuf.datalen ∨
      (∀ content, ds.disk (vol.node ses.filename) ≠ .regular content) ∨ ds.fault ≠ .none) :
    (makeTftpdataMsg vol ses ds tftpMsglenMax now).2.2.at ses.dkey = none := by
  have unopened : (getSessionData vol { ses with blknum := nextBlk ses.blknum } ds
      tftpDatalenMax).ds.at ses.dkey = none :=
    getLoop_unopened _ { ses with blknum := nextBlk ses.blknum } ds _ [] inv absent
      (by decide) why
  have only := (getSessionData_steps vol { ses with blknum := nextBlk ses.blknum } ds
    tftpDatalenMax).2.1
  rw [makeTftpdataMsg, if_neg (Nat.lt_irrefl _)]
  dsimp only
  generalize getSessionData vol { ses with blknum := nextBlk ses.blknum } ds tftpDatalenMax = r
    at unopened only ⊢
  cases status : r.status with
  | done =>
    dsimp only
    rw [finIfShort]
    split
    · rw [IWDS.at, closeData_dhead]
      have gone := (Keyed.lookup_none_iff DSession.key).mp unopened
      exact (Keyed.lookup_none_iff DSession.key).mpr fun d member =>
        gone d (Keyed.mem_of_mem_remove DSession.key member)
    · exact unopened
  | err | running => exact unopened

end Iwtftpd
