import Iwtftpd.DatastoreSteps

/-!
# What a request reports

`iwds_read` and `iwds_write` for every outcome of the calls they make. In the
datastore model `stat` and `fopen` follow the files; here they answer as they
please, and the model is the case in which they follow the files. `fread` and
`fwrite` meet the faults of the datastore in either.

A request that reports `IW_OK` is meant to have moved its bytes, and one that
reports an error to have removed the node of its key. A short write breaks the
first, a read that is turned away before it looks for its node the second.
-/

namespace Iwtftpd

/-! ## Error codes -/

/-- The numbers of `enum DSREQ_ERRCODE`. -/
def DsreqErrcode.code : DsreqErrcode → Int
  | .interError => -15
  | .invalidObj => -14
  | .noReq => -13
  | .notExist => -12
  | .notPermit => -11
  | .noSession => -10
  | .readFail => -9
  | .writeFail => -8

/-- `iwds_dsreq_errmsgs`, without its end mark. -/
def iwdsDsreqErrmsgs : List (Int × Bytes) :=
  [(DsreqErrcode.interError.code, ascii "internal error of module"),
    (DsreqErrcode.invalidObj.code, ascii "invalid object"),
    (DsreqErrcode.noReq.code, ascii "request was not passed"),
    (DsreqErrcode.notExist.code, ascii "file does not exist"),
    (DsreqErrcode.notPermit.code, ascii "access is not permitted"),
    (DsreqErrcode.noSession.code, ascii "no the session of datastore"),
    (DsreqErrcode.readFail.code, ascii "file reading error"),
    (DsreqErrcode.writeFail.code, ascii "file writing error")]

/-- `iwds_strerr`: `none` for the NULL at the end of the table. -/
def iwdsStrerr (ecode : Int) : Option Bytes :=
  (iwdsDsreqErrmsgs.find? (fun pm => pm.1 = ecode)).map Prod.snd

/-- Every code has its text. -/
theorem iwdsStrerr_known (e : DsreqErrcode) : iwdsStrerr e.code ≠ none := by
  cases e <;> decide

/-! ## Requests under any outcome -/

/-- What the two calls by path of a request come to: whether `stat` reports a regular file
(`none` for -1), and the files once `fopen` has opened one (`none` for NULL). -/
structure Outcomes where
  stat : Option Bool
  fopen : Option (Bytes → FileNode)

variable (o : Outcomes) (vol : Volume)

/-- `is_dsfile` under a given outcome of `stat`. -/
def Outcomes.isDsfile (file : Bytes) : IsFile :=
  match (vol.joined file).ret with
  | none => .err
  | some _ =>
    match o.stat with
    | some true => .yes
    | _ => .no

/-- `create_dsession` under a given outcome of `fopen`. -/
def Outcomes.createDsession (ds : IWDS) (id : Int) (file : Bytes) (mode : FMode) :
    Option DSession × IWDS :=
  match (vol.joined file).ret with
  | none => (none, ds)
  | some _ =>
    match o.fopen with
    | none => (none, ds.called (.stdio .fopen id file false))
    | some disk =>
      let node := opened vol (id, file) mode
      (some node,
        { ds.called (.stdio .fopen id file true) with disk := disk, dhead := node :: ds.dhead })

/-- `iwds_read` under given outcomes. -/
def Outcomes.iwdsRead (ds : IWDS) (dsid : Int) (dfile : Bytes) (dlen : Nat) : ReadReply :=
  let ds := ds.note (.iwdsRead dsid dfile)
  match o.isDsfile vol dfile with
  | .err => { data := [], derr := some .interError, ds := ds }
  | .no => { data := [], derr := some .notExist, ds := ds }
  | .yes =>
    match getDsession ds.dhead dsid dfile with
    | some ses => readFrom ds ses dlen
    | none =>
      match o.createDsession vol ds dsid dfile .read with
      | (none, ds) => { data := [], derr := some .noSession, ds := ds }
      | (some ses, ds) => readFrom ds ses dlen

/-- `iwds_write` under given outcomes. -/
def Outcomes.iwdsWrite (ds : IWDS) (dsid : Int) (dfile : Bytes) (dbuf : Bytes) : WriteReply :=
  let ds := ds.note (.iwdsWrite dsid dfile dbuf.length)
  match getDsession ds.dhead dsid dfile with
  | some ses => writeTo ds ses dbuf
  | none =>
    match o.isDsfile vol dfile with
    | .err => { wlen := 0, derr := some .interError, ds := ds }
    | .yes => { wlen := 0, derr := some .notPermit, ds := ds }
    | .no =>
      match o.createDsession vol ds dsid dfile .write with
      | (none, ds) => { wlen := 0, derr := some .noSession, ds := ds }
      | (some ses, ds) => writeTo ds ses dbuf

/-- The outcomes that follow the files and the faults of a datastore. -/
def IWDS.outcomes (ds : IWDS) (file : Bytes) (mode : FMode) : Outcomes where
  stat :=
    match ds.disk (vol.node file) with
    | .regular _ => some true
    | .directory | .device => some false
    | .absent => none
  fopen :=
    match fopen vol ds 0 file mode with
    | (none, _) => none
    | (some _, ds') => some ds'.disk

variable {vol}

/-- The outcomes that follow the files give what the model of the datastore has, function by
function. -/
theorem outcomes_isDsfile (ds : IWDS) (file : Bytes) (mode : FMode) :
    (ds.outcomes vol file mode).isDsfile vol file = isDsfile vol ds file := by
  obtain ⟨len, joined⟩ := joined_ret vol file
  simp only [Outcomes.isDsfile, isDsfile, joined, IWDS.outcomes]
  cases ds.disk (vol.node file) <;> rfl

theorem outcomes_createDsession (ds : IWDS) (id : Int) (file : Bytes) (mode : FMode) :
    (ds.outcomes vol file mode).createDsession vol ds id file mode = createDsession vol ds id file mode := by
  obtain ⟨len, joined⟩ := joined_ret vol file
  simp only [Outcomes.createDsession, createDsession, joined, IWDS.outcomes, fopen]
  cases ds.fault <;> cases mode <;> cases ds.disk (vol.node file) <;> rfl

theorem outcomes_note (ds : IWDS) (e : Effect) (file : Bytes) (mode : FMode) :
    (ds.note e).outcomes vol file mode = ds.outcomes vol file mode := by
  have fault : (ds.note e).fault = ds.fault := rfl
  simp only [IWDS.outcomes, fopen, note_disk, fault]
  cases ds.fault <;> cases mode <;> cases ds.disk (vol.node file) <;> rfl

/-- The model of the datastore is the case in which the outcomes follow the files. -/
theorem iwdsRead_outcomes (ds : IWDS) (dsid : Int) (dfile : Bytes) (dlen : Nat) :
    (ds.outcomes vol dfile .read).iwdsRead vol ds dsid dfile dlen = iwdsRead vol ds dsid dfile dlen := by
  rw [← outcomes_note ds (.iwdsRead dsid dfile)]
  simp only [Outcomes.iwdsRead, outcomes_isDsfile, outcomes_createDsession]
  rfl

/-- The same of `iwds_write`. -/
theorem iwdsWrite_outcomes (ds : IWDS) (dsid : Int) (dfile dbuf : Bytes) :
    (ds.outcomes vol dfile .write).iwdsWrite vol ds dsid dfile dbuf = iwdsWrite vol ds dsid dfile dbuf := by
  rw [← outcomes_note ds (.iwdsWrite dsid dfile dbuf.length)]
  simp only [Outcomes.iwdsWrite, outcomes_isDsfile, outcomes_createDsession]
  rfl

/-! ## What a request promises -/

/-- The datastore sessions of other keys. -/
def IWDS.others (ds : IWDS) (k : Int × Bytes) : List DSession := ds.dhead.filter (fun d => d.key ≠ k)

/-- A request that reports an error: its code has a text, and no session of its key is left. -/
structure Reported (ds : IWDS) (k : Int × Bytes) (code : DsreqErrcode) : Prop where
  known : iwdsStrerr code.code ≠ none
  removed : ds.at k = none

/-- The session that a request finds or opens, with the datastore that its transfer starts in. -/
def Outcomes.session (vol : Volume) (ds : IWDS) (dsid : Int) (dfile : Bytes) (mode : FMode) : Option (DSession × IWDS) :=
  match ds.at (dsid, dfile) with
  | some d => some (d, ds)
  | none =>
    match o.createDsession vol ds dsid dfile mode with
    | (some d, ds') => some (d, ds')
    | (none, _) => none

/-- `fread` of no bytes does nothing; of others it may end in `ferror`. -/
def StreamError (ds : IWDS) (fp : Stream) (dlen : Nat) : Prop :=
  0 < dlen ∧ (fread ds fp dlen).ferror = true

/-- What is asked of `iwds_read`. -/
structure ReadTold (vol : Volume) (ds : IWDS) (dsid : Int) (dfile : Bytes) (dlen : Nat) : Prop where
  ok : (o.iwdsRead vol ds dsid dfile dlen).derr = none →
    ∃ d ds₁, o.session vol (ds.note (.iwdsRead dsid dfile)) dsid dfile .read = some (d, ds₁) ∧
      ¬ StreamError ds₁ d.fp dlen ∧
      (o.iwdsRead vol ds dsid dfile dlen).data =
        ((ds₁.disk d.fp.node).bytes.drop d.fp.off).take dlen
  failed : ∀ code, (o.iwdsRead vol ds dsid dfile dlen).derr = some code →
    Reported (o.iwdsRead vol ds dsid dfile dlen).ds (dsid, dfile) code
  others : (o.iwdsRead vol ds dsid dfile dlen).ds.others (dsid, dfile) = ds.others (dsid, dfile)

/-- What is asked of `iwds_write`. -/
structure WriteTold (vol : Volume) (ds : IWDS) (dsid : Int) (dfile dbuf : Bytes) : Prop where
  ok : (o.iwdsWrite vol ds dsid dfile dbuf).derr = none →
    (o.iwdsWrite vol ds dsid dfile dbuf).wlen = dbuf.length
  failed : ∀ code, (o.iwdsWrite vol ds dsid dfile dbuf).derr = some code →
    Reported (o.iwdsWrite vol ds dsid dfile dbuf).ds (dsid, dfile) code
  others : (o.iwdsWrite vol ds dsid dfile dbuf).ds.others (dsid, dfile) = ds.others (dsid, dfile)

/-- The stream of a node has met the end of its file, and the file has grown since. -/
def Outgrown (ds : IWDS) (fp : Stream) : Prop :=
  fp.eof = true ∧ fp.off < (ds.disk fp.node).bytes.length

/-- When `iwds_read` keeps its promise: `stat` reports the file and the stream of the node is
not outgrown, unless it is not read from; or there is no node. -/
def ReadSound (ds : IWDS) (dsid : Int) (dfile : Bytes) (dlen : Nat) : Prop :=
  match ds.at (dsid, dfile) with
  | none => True
  | some d => o.stat = some true ∧
      (0 < dlen → d.fp.mode = .read → ds.fault = .none → ¬ Outgrown ds d.fp)

/-- When `iwds_write` keeps its promise: the request is empty, or turned away before `fwrite`,
or `fwrite` is for a stream open for writing and meets no fault. -/
def WriteSound (ds : IWDS) (dsid : Int) (dfile dbuf : Bytes) : Prop :=
  dbuf = [] ∨
    match ds.at (dsid, dfile) with
    | some d => d.fp.mode = .write ∧ ds.fault = .none
    | none => o.stat = some true ∨ o.fopen = none ∨ ds.faults.tail.headD .none = .none

/-! ## Once the node is at hand -/

/-- Distinct keys, as every call of the datastore keeps them. -/
def IWDS.Distinct (ds : IWDS) : Prop := (ds.dhead.map DSession.key).Nodup

/-- A node that is moved along leaves the other keys. -/
theorem others_store (ds : IWDS) (d : DSession) :
    (ds.setDsession d).others d.key = ds.others d.key := Keyed.filter_store DSession.key d ds.dhead

/-- A node that is deleted leaves the other keys. -/
theorem others_del (ds : IWDS) (id : Int) (file : Bytes) :
    (delDsession ds id file).others (id, file) = ds.others (id, file) := by
  rw [IWDS.others, delDsession_dhead]
  exact Keyed.filter_remove DSession.key (id, file) ds.dhead

/-- A node that is deleted is gone, when keys are distinct. -/
theorem del_removed {ds : IWDS} (id : Int) (file : Bytes) (distinct : ds.Distinct) :
    (delDsession ds id file).at (id, file) = none := by
  rw [IWDS.at, delDsession_dhead]
  exact Keyed.lookup_remove_self DSession.key distinct

/-- A node that is moved along keeps keys distinct. -/
theorem setDsession_distinct {ds : IWDS} (d : DSession) (distinct : ds.Distinct) : (ds.setDsession d).Distinct := by
  rw [IWDS.Distinct, IWDS.setDsession, Keyed.store_keys]
  exact distinct

/-- A stream error stops a read short. -/
theorem fread_short {ds : IWDS} {fp : Stream} {dlen : Nat} (error : StreamError ds fp dlen) :
    (fread ds fp dlen).data.length < dlen := by
  obtain ⟨some, ferror⟩ := error
  cases mode : fp.mode with
  | write =>
    rw [fread_write mode]
    exact some
  | read =>
    cases fault : ds.fault with
    | none =>
      simp only [fread, mode, fault] at ferror
      cases ferror
    | fail moved =>
      simp only [fread, mode, fault, List.length_take]
      omega

/-- The check behind `fread` in `iwds_read` finds the stream errors. -/
theorem streamError_iff {ds : IWDS} {fp : Stream} {dlen : Nat} :
    ((fread ds fp dlen).data.length < dlen ∧ (fread ds fp dlen).ferror = true) ↔ StreamError ds fp dlen := by
  constructor
  · rintro ⟨short, ferror⟩
    exact ⟨Nat.zero_lt_of_lt short, ferror⟩
  · intro error
    exact ⟨fread_short error, error.2⟩

/-- A read meets no error when it asks for nothing, or when the stream is for reading and no fault
awaits. -/
theorem not_streamError_iff {ds : IWDS} {fp : Stream} {dlen : Nat} :
    ¬ StreamError ds fp dlen ↔ (0 < dlen → fp.mode = .read ∧ ds.fault = .none) := by
  rw [StreamError, not_and]
  cases mode : fp.mode with
  | write => simp [fread, mode]
  | read => cases fault : ds.fault <;> simp [fread, mode, fault]

/-- A read without error delivers what comes next, unless the stream is outgrown. -/
theorem fread_data {ds : IWDS} {fp : Stream} {dlen : Nat} (clear : ¬ StreamError ds fp dlen) :
    (fread ds fp dlen).data = ((ds.disk fp.node).bytes.drop fp.off).take dlen ↔
      (0 < dlen → ¬ Outgrown ds fp) := by
  rcases Nat.eq_zero_or_pos dlen with rfl | some
  · have nothing : (fread ds fp 0).data = [] := by
      rw [fread]
      cases fp.mode <;> cases ds.fault <;> simp
    simp [nothing]
  · obtain ⟨mode, fault⟩ := not_streamError_iff.mp clear some
    simp only [fread, mode, fault, some, forall_const, Outgrown, not_and, Nat.not_lt]
    cases fp.eof with
    | false => simp
    | true =>
      simp only [if_true, forall_const]
      rw [eq_comm, List.take_eq_nil_iff, List.drop_eq_nil_iff]
      omega

variable (ds : IWDS) (d : DSession)

/-- A read that meets no error returns what `fread` gives. -/
theorem readFrom_clear {dlen : Nat} (clear : ¬ StreamError ds d.fp dlen) :
    (readFrom ds d dlen).derr = none ∧ (readFrom ds d dlen).data = (fread ds d.fp dlen).data := by
  rw [readFrom]
  simp only [if_neg (mt streamError_iff.mp clear), and_self]

/-- A read that meets an error says so, and leaves no node. -/
theorem readFrom_error {dlen : Nat} (error : StreamError ds d.fp dlen) :
    (readFrom ds d dlen).derr = some .readFail ∧
      (ds.Distinct → (readFrom ds d dlen).ds.at d.key = none) := by
  rw [readFrom]
  simp only [if_pos (streamError_iff.mpr error), true_and]
  intro distinct
  exact del_removed d.clid d.filename (setDsession_distinct _ distinct)

/-- A read that says nothing of an error met none. -/
theorem readFrom_ok {dlen : Nat} (ok : (readFrom ds d dlen).derr = none) : ¬ StreamError ds d.fp dlen := by
  intro error
  rw [(readFrom_error ds d error).1] at ok
  cases ok

/-- A read leaves the other keys. -/
theorem readFrom_others (dlen : Nat) : (readFrom ds d dlen).ds.others d.key = ds.others d.key := by
  have stored := others_store (ds.called (.stdio .fread d.clid d.filename (!(fread ds d.fp dlen).ferror)))
    { d with fp := (fread ds d.fp dlen).fp }
  rw [readFrom]
  split
  · exact (others_del _ d.clid d.filename).trans stored
  · exact stored

/-- An `fwrite` writes everything exactly when the stream is for writing and no fault awaits. -/
theorem fwritten_whole_iff {dbuf : Bytes} (some : dbuf ≠ []) :
    (fwritten ds d.fp dbuf).length = dbuf.length ↔ d.fp.mode = .write ∧ ds.fault = .none := by
  have positive := List.length_pos_iff.mpr some
  cases mode : d.fp.mode with
  | read =>
    simp only [fwritten, mode, List.length_nil, reduceCtorEq, false_and, iff_false]
    omega
  | write =>
    cases fault : ds.fault with
    | none => simp [fwritten, mode, fault]
    | fail moved =>
      simp only [fwritten, mode, fault, List.length_take, reduceCtorEq, and_false, iff_false]
      omega

/-- `iwds_write` with a node at hand always reports `IW_OK`. -/
theorem writeTo_derr (dbuf : Bytes) : (writeTo ds d dbuf).derr = none := by
  rw [writeTo]
  split
  · rfl
  · dsimp only
    split <;> rfl

/-- So does a write, which has nothing to write when it ends the file. -/
theorem writeTo_wlen_iff (dbuf : Bytes) :
    (writeTo ds d dbuf).wlen = dbuf.length ↔ dbuf = [] ∨ (d.fp.mode = .write ∧ ds.fault = .none) := by
  by_cases nothing : dbuf = []
  · subst nothing
    simp [writeTo]
  · have some : dbuf.length ≠ 0 := fun zero => nothing (List.length_eq_zero_iff.mp zero)
    have wlen : (writeTo ds d dbuf).wlen = (fwritten ds d.fp dbuf).length := by
      rw [writeTo, if_neg some]
      dsimp only
      split <;> rfl
    rw [wlen, fwritten_whole_iff ds d nothing]
    simp [nothing]

/-- A write leaves the other keys. -/
theorem writeTo_others (dbuf : Bytes) : (writeTo ds d dbuf).ds.others d.key = ds.others d.key := by
  rw [writeTo]
  split
  · exact others_del ds d.clid d.filename
  · dsimp only
    have stored := others_store
      (ds.called (.stdio .fwrite d.clid d.filename ((fwritten ds d.fp dbuf).length = dbuf.length)))
      { d with fp := { d.fp with off := d.fp.off + (fwritten ds d.fp dbuf).length } }
    split
    · exact (others_del _ d.clid d.filename).trans stored
    · exact stored

/-! ## `iwds_read` -/

variable {o} {ds d} {dsid : Int} {dfile : Bytes}

/-- Only a regular file that `stat` reports is one to `is_dsfile`. -/
theorem Outcomes.isDsfile_eq (o : Outcomes) (vol : Volume) (file : Bytes) :
    o.isDsfile vol file = if o.stat = some true then .yes else .no := by
  obtain ⟨len, joined⟩ := joined_ret vol file
  simp only [Outcomes.isDsfile, joined]
  cases o.stat with
  | none => rfl
  | some regular => cases regular <;> rfl

/-- A session is created when `fopen` opens its file, and linked before the others. -/
theorem Outcomes.createDsession_cases (o : Outcomes) (vol : Volume) (ds : IWDS) (id : Int) (file : Bytes)
    (mode : FMode) :
    (∃ ds₁, o.fopen = none ∧ o.createDsession vol ds id file mode = (none, ds₁) ∧ ds₁.dhead = ds.dhead) ∨
      ∃ ds₁, o.fopen ≠ none ∧
        o.createDsession vol ds id file mode = (some (opened vol (id, file) mode), ds₁) ∧
        ds₁.dhead = opened vol (id, file) mode :: ds.dhead ∧ ds₁.faults = ds.faults.tail := by
  obtain ⟨len, joined⟩ := joined_ret vol file
  cases fopened : o.fopen with
  | none =>
    left
    simp only [Outcomes.createDsession, joined, fopened]
    exact ⟨_, trivial, rfl, rfl⟩
  | some disk =>
    right
    simp only [Outcomes.createDsession, joined, fopened]
    exact ⟨_, nofun, rfl, rfl, rfl⟩

/-- A transfer that starts with a node keeps the promise of a read unless the stream is outgrown. -/
theorem readFrom_told_iff (d : DSession) (dlen : Nat) (distinct : ds.Distinct) :
    ((readFrom ds d dlen).derr = none → ¬ StreamError ds d.fp dlen ∧
        (readFrom ds d dlen).data = ((ds.disk d.fp.node).bytes.drop d.fp.off).take dlen) ∧
      (∀ code, (readFrom ds d dlen).derr = some code → Reported (readFrom ds d dlen).ds d.key code) ↔
    (0 < dlen → d.fp.mode = .read → ds.fault = .none → ¬ Outgrown ds d.fp) := by
  by_cases error : StreamError ds d.fp dlen
  · obtain ⟨derr, removes⟩ := readFrom_error ds d error
    have removed := removes distinct
    have excused : 0 < dlen → d.fp.mode = .read → ds.fault = .none → ¬ Outgrown ds d.fp := by
      intro _ mode fault
      exact absurd error (not_streamError_iff.mpr fun _ => ⟨mode, fault⟩)
    rw [iff_true_right excused]
    constructor
    · rw [derr]
      nofun
    · intro code reported
      rw [derr] at reported
      cases reported
      exact ⟨iwdsStrerr_known _, removed⟩
  · obtain ⟨derr, data⟩ := readFrom_clear ds d error
    simp only [derr, data, error, fread_data error, reduceCtorEq, forall_const, false_implies, implies_true,
      and_true, not_false_eq_true, true_and]
    constructor
    · intro fresh some _ _
      exact fresh some
    · intro fresh some
      obtain ⟨mode, fault⟩ := not_streamError_iff.mp error some
      exact fresh some mode fault

/-- A request turned away with a node in place leaves it there. -/
theorem read_refused (missing : o.stat ≠ some true) (dlen : Nat) :
    ReadTold o vol ds dsid dfile dlen ↔ ReadSound o ds dsid dfile dlen := by
  have refused : o.iwdsRead vol ds dsid dfile dlen =
      { data := [], derr := some .notExist, ds := ds.note (.iwdsRead dsid dfile) } := by
    simp only [Outcomes.iwdsRead, Outcomes.isDsfile_eq, if_neg missing]
  rw [ReadSound]
  constructor
  · intro told
    have removed : ds.at (dsid, dfile) = none := by
      have reported := (told.failed .notExist (by rw [refused])).removed
      rw [refused] at reported
      exact reported
    rw [removed]
    trivial
  · intro sound
    have removed : ds.at (dsid, dfile) = none := by
      cases found : ds.at (dsid, dfile) with
      | none => rfl
      | some d =>
        rw [found] at sound
        exact absurd sound.1 missing
    constructor
    · rw [refused]
      nofun
    · rw [refused]
      intro code reported
      cases reported
      exact ⟨iwdsStrerr_known _, removed⟩
    · rw [refused]
      rfl

/-- A request that finds or opens its session is the transfer from it. -/
theorem read_reached {ds₁ : IWDS} {dlen : Nat} (distinct : ds₁.Distinct) (key : d.key = (dsid, dfile))
    (same : ds₁.others (dsid, dfile) = ds.others (dsid, dfile))
    (session : o.session vol (ds.note (.iwdsRead dsid dfile)) dsid dfile .read = some (d, ds₁))
    (call : o.iwdsRead vol ds dsid dfile dlen = readFrom ds₁ d dlen) :
    ReadTold o vol ds dsid dfile dlen ↔
      (0 < dlen → d.fp.mode = .read → ds₁.fault = .none → ¬ Outgrown ds₁ d.fp) := by
  have told := readFrom_told_iff d dlen distinct
  have others := readFrom_others ds₁ d dlen
  rw [← call, key] at told others
  rw [← told]
  constructor
  · intro whole
    constructor
    · intro derr
      obtain ⟨d', ds', reached, clear, data⟩ := whole.ok derr
      rw [session] at reached
      cases reached
      exact ⟨clear, data⟩
    · exact whole.failed
  · intro whole
    constructor
    · intro derr
      exact ⟨d, ds₁, session, whole.1 derr⟩
    · exact whole.2
    · exact others.trans same

/-- A new node goes before the others. -/
theorem opened_others {k : Int × Bytes} {mode : FMode} {ds₁ : IWDS}
    (dhead : ds₁.dhead = opened vol k mode :: ds.dhead) : ds₁.others k = ds.others k := by
  simp [IWDS.others, dhead]

/-- A node that is opened under a key that had none keeps keys distinct. -/
theorem opened_distinct {k : Int × Bytes} {mode : FMode} {ds₁ : IWDS} (absent : ds.at k = none)
    (distinct : ds.Distinct) (dhead : ds₁.dhead = opened vol k mode :: ds.dhead) : ds₁.Distinct := by
  rw [IWDS.Distinct, dhead, List.map_cons, List.nodup_cons, opened_key]
  refine ⟨?_, distinct⟩
  intro member
  obtain ⟨d, linked, key⟩ := List.mem_map.mp member
  exact (Keyed.lookup_none_iff DSession.key).mp absent d linked key

/-- A request that has to open its session reads from the start of the file, or reports that
it could not. -/
theorem read_opens (regular : o.stat = some true) (distinct : ds.Distinct)
    (found : ds.at (dsid, dfile) = none) (dlen : Nat) : ReadTold o vol ds dsid dfile dlen := by
  have yes : o.isDsfile vol dfile = .yes := by rw [Outcomes.isDsfile_eq, if_pos regular]
  have absent : (ds.note (.iwdsRead dsid dfile)).at (dsid, dfile) = none := found
  obtain ⟨ds₁, -, created, dhead⟩ | ⟨ds₁, -, created, dhead, -⟩ :=
    o.createDsession_cases vol (ds.note (.iwdsRead dsid dfile)) dsid dfile .read
  · have refused : o.iwdsRead vol ds dsid dfile dlen =
        { data := [], derr := some .noSession, ds := ds₁ } := by
      simp only [Outcomes.iwdsRead, yes, getDsession, absent, created]
    constructor
    · rw [refused]
      rintro ⟨⟩
    · rw [refused]
      intro code reported
      cases reported
      refine ⟨iwdsStrerr_known _, ?_⟩
      rw [IWDS.at, dhead]
      exact found
    · rw [refused]
      simp only [IWDS.others, dhead, note_dhead]
  · have session : o.session vol (ds.note (.iwdsRead dsid dfile)) dsid dfile .read =
        some (opened vol (dsid, dfile) .read, ds₁) := by rw [Outcomes.session, absent, created]
    have call : o.iwdsRead vol ds dsid dfile dlen = readFrom ds₁ (opened vol (dsid, dfile) .read) dlen := by
      simp only [Outcomes.iwdsRead, yes, getDsession, absent, created]
    have distinct₁ : ds₁.Distinct := opened_distinct found distinct dhead
    have same : ds₁.others (dsid, dfile) = ds.others (dsid, dfile) := opened_others dhead
    have key : (opened vol (dsid, dfile) .read).key = (dsid, dfile) := rfl
    rw [read_reached distinct₁ key same session call]
    rintro _ _ _ ⟨eof, -⟩
    cases eof

/-- `iwds_read` keeps its promise exactly when the node and the file are as they should be. -/
theorem read_told_iff (distinct : ds.Distinct) (dlen : Nat) :
    ReadTold o vol ds dsid dfile dlen ↔ ReadSound o ds dsid dfile dlen := by
  by_cases regular : o.stat = some true
  · cases found : ds.at (dsid, dfile) with
    | some d =>
      have yes : o.isDsfile vol dfile = .yes := by rw [Outcomes.isDsfile_eq, if_pos regular]
      have found' : (ds.note (.iwdsRead dsid dfile)).at (dsid, dfile) = some d := found
      have distinct' : (ds.note (.iwdsRead dsid dfile)).Distinct := distinct
      have session : o.session vol (ds.note (.iwdsRead dsid dfile)) dsid dfile .read =
          some (d, ds.note (.iwdsRead dsid dfile)) := by rw [Outcomes.session, found']
      have call : o.iwdsRead vol ds dsid dfile dlen = readFrom (ds.note (.iwdsRead dsid dfile)) d dlen := by
        simp only [Outcomes.iwdsRead, yes, getDsession, found']
      have same : (ds.note (.iwdsRead dsid dfile)).others (dsid, dfile) = ds.others (dsid, dfile) := rfl
      rw [read_reached distinct' (lookup_key found) same session call, ReadSound, found]
      exact (and_iff_right regular).symm
    | none =>
      have sound : ReadSound o ds dsid dfile dlen := by
        rw [ReadSound, found]
        trivial
      rw [iff_true_right sound]
      exact read_opens regular distinct found dlen
  · exact read_refused regular dlen

/-! ## `iwds_write` -/

/-- A request that finds or opens its session is the transfer to it. -/
theorem write_reached {ds₁ : IWDS} {dbuf : Bytes} (key : d.key = (dsid, dfile))
    (same : ds₁.others (dsid, dfile) = ds.others (dsid, dfile))
    (call : o.iwdsWrite vol ds dsid dfile dbuf = writeTo ds₁ d dbuf) :
    WriteTold o vol ds dsid dfile dbuf ↔ dbuf = [] ∨ (d.fp.mode = .write ∧ ds₁.fault = .none) := by
  have derr := writeTo_derr ds₁ d dbuf
  have others := writeTo_others ds₁ d dbuf
  rw [← writeTo_wlen_iff]
  rw [← call] at derr others ⊢
  rw [key] at others
  constructor
  · intro told
    exact told.ok derr
  · intro wlen
    constructor
    · exact fun _ => wlen
    · intro code reported
      rw [derr] at reported
      cases reported
    · exact others.trans same

/-- A request that is turned away without a node reports it. -/
theorem write_refused {ds₁ : IWDS} {code : DsreqErrcode} {dbuf : Bytes}
    (found : ds.at (dsid, dfile) = none) (dhead : ds₁.dhead = ds.dhead)
    (call : o.iwdsWrite vol ds dsid dfile dbuf = { wlen := 0, derr := some code, ds := ds₁ }) :
    WriteTold o vol ds dsid dfile dbuf := by
  constructor
  · rw [call]
    nofun
  · rw [call]
    intro code' reported
    cases reported
    refine ⟨iwdsStrerr_known _, ?_⟩
    rw [IWDS.at, dhead]
    exact found
  · rw [call]
    simp only [IWDS.others, dhead]

/-- `iwds_write` keeps its promise exactly when it is not left with a short `fwrite`. -/
theorem write_told_iff (dbuf : Bytes) :
    WriteTold o vol ds dsid dfile dbuf ↔ WriteSound o ds dsid dfile dbuf := by
  cases found : ds.at (dsid, dfile) with
  | some d =>
    have found' : (ds.note (.iwdsWrite dsid dfile dbuf.length)).at (dsid, dfile) = some d := found
    have call : o.iwdsWrite vol ds dsid dfile dbuf =
        writeTo (ds.note (.iwdsWrite dsid dfile dbuf.length)) d dbuf := by
      simp only [Outcomes.iwdsWrite, getDsession, found']
    have same : (ds.note (.iwdsWrite dsid dfile dbuf.length)).others (dsid, dfile) =
        ds.others (dsid, dfile) := rfl
    rw [write_reached (lookup_key found) same call, WriteSound, found]
    rfl
  | none =>
    have absent : (ds.note (.iwdsWrite dsid dfile dbuf.length)).at (dsid, dfile) = none := found
    rw [WriteSound, found]
    dsimp only
    by_cases regular : o.stat = some true
    · have call : o.iwdsWrite vol ds dsid dfile dbuf =
          { wlen := 0, derr := some .notPermit, ds := ds.note (.iwdsWrite dsid dfile dbuf.length) } := by
        simp only [Outcomes.iwdsWrite, getDsession, absent, Outcomes.isDsfile_eq, if_pos regular]
      rw [iff_true_right (.inr (.inl regular))]
      have same : (ds.note (.iwdsWrite dsid dfile dbuf.length)).dhead = ds.dhead := rfl
      exact write_refused found same call
    · obtain ⟨ds₁, closed, created, dhead⟩ | ⟨ds₁, fopened, created, dhead, faults⟩ :=
        o.createDsession_cases vol (ds.note (.iwdsWrite dsid dfile dbuf.length)) dsid dfile .write
      · have call : o.iwdsWrite vol ds dsid dfile dbuf =
            { wlen := 0, derr := some .noSession, ds := ds₁ } := by
          simp only [Outcomes.iwdsWrite, getDsession, absent, Outcomes.isDsfile_eq, if_neg regular, created]
        rw [iff_true_right (.inr (.inr (.inl closed)))]
        exact write_refused found dhead call
      · have call : o.iwdsWrite vol ds dsid dfile dbuf =
            writeTo ds₁ (opened vol (dsid, dfile) .write) dbuf := by
          simp only [Outcomes.iwdsWrite, getDsession, absent, Outcomes.isDsfile_eq, if_neg regular, created]
        have fault : ds₁.fault = ds.faults.tail.headD .none := by rw [IWDS.fault, faults, note_faults]
        have key : (opened vol (dsid, dfile) .write).key = (dsid, dfile) := rfl
        have same : ds₁.others (dsid, dfile) = ds.others (dsid, dfile) := opened_others dhead
        rw [write_reached key same call, fault]
        simp [regular, fopened, opened]

/-! ## Both -/

/-- The requests keep their promises exactly when the conditions on the node, the file and the
outcomes hold, in every datastore with one session for a key at most.

Proof: by the branches of the two calls, each with the outcome of `stat`, `fopen` and the transfer
that leads there. -/
theorem requests_told_iff (distinct : ds.Distinct) :
    (∀ dlen, ReadTold o vol ds dsid dfile dlen ↔ ReadSound o ds dsid dfile dlen) ∧
      ∀ dbuf, WriteTold o vol ds dsid dfile dbuf ↔ WriteSound o ds dsid dfile dbuf :=
  ⟨read_told_iff distinct, write_told_iff⟩

/-- A disk without files, where `fopen` succeeds and the call after it meets the fault given. -/
def emptyDisk (fault : Fault) : IWDS where
  dhead := []
  disk := fun _ => .absent
  faults := [.none, fault]
  trace := []

/-- A file that does not exist and can be opened. -/
def newFile : Outcomes where
  stat := none
  fopen := some fun _ => .regular []

/-- A datastore in `/srv`. -/
def srvVolume : Volume := { dspath := ascii "/srv", namei := id }

/-- On a full disk `fwrite` fails. -/
theorem full_unsound : ¬ WriteSound newFile (emptyDisk (.fail 0)) 5 (ascii "f") (wholeBuffer 7) := by
  rintro (nothing | stat | fopened | fault)
  · cases nothing
  · cases stat
  · cases fopened
  · cases fault

/-- A new file is written as it should be on a disk with room, and not on one that is full. -/
theorem requests_told_sample :
    WriteTold newFile srvVolume (emptyDisk .none) 5 (ascii "f") (wholeBuffer 7) ∧
      ¬ WriteTold newFile srvVolume (emptyDisk (.fail 0)) 5 (ascii "f") (wholeBuffer 7) := by
  have distinct (fault : Fault) : (emptyDisk fault).Distinct := List.nodup_nil
  have whole : WriteSound newFile (emptyDisk .none) 5 (ascii "f") (wholeBuffer 7) := by
    right
    exact .inr (.inr rfl)
  exact ⟨((requests_told_iff (distinct .none)).2 _).mpr whole,
    fun told => full_unsound (((requests_told_iff (distinct (.fail 0))).2 _).mp told)⟩

/-- The disk is full: `fwrite` writes nothing, and `iwds_write` reports `IW_OK`. -/
theorem not_always_told :
    ¬ ∀ (o : Outcomes) (vol : Volume) (ds : IWDS) (dsid : Int) (dfile : Bytes), ds.Distinct →
      (∀ dlen, ReadTold o vol ds dsid dfile dlen) ∧ ∀ dbuf, WriteTold o vol ds dsid dfile dbuf := by
  intro always
  have told := (always newFile srvVolume (emptyDisk (.fail 0)) 5 (ascii "f") List.nodup_nil).2 (wholeBuffer 7)
  exact full_unsound ((write_told_iff _).mp told)

/-! ## Distinct keys -/

/-- A node that is deleted keeps keys distinct. So do a read and a write. -/
theorem delDsession_distinct (id : Int) (file : Bytes) (distinct : ds.Distinct) :
    (delDsession ds id file).Distinct := by
  rw [IWDS.Distinct, delDsession_dhead]
  exact Keyed.remove_distinct DSession.key distinct

theorem readFrom_distinct (d : DSession) (dlen : Nat) (distinct : ds.Distinct) :
    (readFrom ds d dlen).ds.Distinct := by
  have moved : (((ds.called (.stdio .fread d.clid d.filename (!(fread ds d.fp dlen).ferror))).setDsession
      { d with fp := (fread ds d.fp dlen).fp })).Distinct := setDsession_distinct _ distinct
  rw [readFrom]
  split
  · exact delDsession_distinct d.clid d.filename moved
  · exact moved

theorem writeTo_distinct (d : DSession) (dbuf : Bytes) (distinct : ds.Distinct) :
    (writeTo ds d dbuf).ds.Distinct := by
  have moved : ((ds.called (.stdio .fwrite d.clid d.filename
      ((fwritten ds d.fp dbuf).length = dbuf.length))).setDsession
      { d with fp := { d.fp with off := d.fp.off + (fwritten ds d.fp dbuf).length } }).Distinct :=
    setDsession_distinct _ distinct
  rw [writeTo]
  split
  · exact delDsession_distinct d.clid d.filename distinct
  · dsimp only
    split
    · exact delDsession_distinct d.clid d.filename moved
    · exact moved

/-- A new session takes a key that no other has. -/
theorem created_distinct (o : Outcomes) (vol : Volume) (mode : FMode) (distinct : ds.Distinct)
    (absent : ds.at (dsid, dfile) = none) :
    (o.createDsession vol ds dsid dfile mode).2.Distinct := by
  obtain ⟨ds₁, -, created, dhead⟩ | ⟨ds₁, -, created, dhead, -⟩ :=
    o.createDsession_cases vol ds dsid dfile mode
  · rw [created, IWDS.Distinct, dhead]
    exact distinct
  · rw [created]
    exact opened_distinct absent distinct dhead

/-- Reads keep keys distinct, whatever they meet. -/
theorem iwdsRead_distinct (o : Outcomes) (dlen : Nat) (distinct : ds.Distinct) :
    (o.iwdsRead vol ds dsid dfile dlen).ds.Distinct := by
  have noted : (ds.note (.iwdsRead dsid dfile)).Distinct := distinct
  rw [Outcomes.iwdsRead]
  split
  · exact noted
  · exact noted
  · split
    · exact readFrom_distinct _ dlen noted
    · rename_i absent
      have created := created_distinct o vol .read noted absent
      split
      · rename_i result
        rwa [result] at created
      · rename_i result
        rw [result] at created
        exact readFrom_distinct _ dlen created

/-- Writes keep keys distinct, whatever they meet. -/
theorem iwdsWrite_distinct (o : Outcomes) (dbuf : Bytes) (distinct : ds.Distinct) :
    (o.iwdsWrite vol ds dsid dfile dbuf).ds.Distinct := by
  have noted : (ds.note (.iwdsWrite dsid dfile dbuf.length)).Distinct := distinct
  rw [Outcomes.iwdsWrite]
  split
  · exact writeTo_distinct _ dbuf noted
  · rename_i absent
    split
    · exact noted
    · exact noted
    · have created := created_distinct o vol .write noted absent
      split
      · rename_i result
        rwa [result] at created
      · rename_i result
        rw [result] at created
        exact writeTo_distinct _ dbuf created

end Iwtftpd
