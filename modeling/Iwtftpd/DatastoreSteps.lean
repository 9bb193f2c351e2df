import Mathlib.Logic.Relation
import Iwtftpd.Datastore

/-!
# What the datastore can do in one call

Every interface call works for one key, a descriptor with a file name, and does
to the node list and the disk only a few things: it opens a file and links a
node, moves the offset of a reader, appends for a writer, or unlinks the node.
The relation `Prim` lists them with all they need; a call is a chain of them.
Invariants and frames are proved for `Prim` and carried along chains.
-/

namespace Iwtftpd

/-- A node as `create_dsession` links it. -/
def opened (vol : Volume) (k : Int × Bytes) (mode : FMode) : DSession where
  clid := k.1
  fp := { mode := mode, node := vol.node k.2, off := 0, eof := false }
  filename := k.2

@[simp] theorem opened_key (vol : Volume) (k : Int × Bytes) (mode : FMode) :
    (opened vol k mode).key = k := rfl

/-- The node found under a key. -/
abbrev IWDS.at (ds : IWDS) (k : Int × Bytes) : Option DSession :=
  Keyed.lookup DSession.key k ds.dhead

/-- One thing that happens to the datastore on behalf of a key. -/
inductive Prim (vol : Volume) (k : Int × Bytes) (ds ds' : IWDS) : Prop where
  /-- Only the record and the awaiting faults change. -/
  | idle (dhead : ds'.dhead = ds.dhead) (disk : ds'.disk = ds.disk)
  | openRead (absent : ds.at k = none)
      (file : ∃ content, ds.disk (vol.node k.2) = .regular content)
      (dhead : ds'.dhead = opened vol k .read :: ds.dhead) (disk : ds'.disk = ds.disk)
  | openWrite (absent : ds.at k = none) (free : (ds.disk (vol.node k.2)).Opens)
      (dhead : ds'.dhead = opened vol k .write :: ds.dhead)
      (disk : ds'.disk = Function.update ds.disk (vol.node k.2) (ds.disk (vol.node k.2)).truncated)
  | advance (d : DSession) (off : Nat) (eof : Bool) (found : ds.at k = some d)
      (mode : d.fp.mode = .read) (further : d.fp.off ≤ off)
      (inside : off ≤ max d.fp.off (ds.disk d.fp.node).bytes.length)
      (dhead : ds'.dhead = Keyed.store DSession.key
        { d with fp := { d.fp with off := off, eof := eof } } ds.dhead)
      (disk : ds'.disk = ds.disk)
  | append (d : DSession) (data : Bytes) (found : ds.at k = some d)
      (mode : d.fp.mode = .write)
      (dhead : ds'.dhead = Keyed.store DSession.key
        { d with fp := { d.fp with off := d.fp.off + data.length } } ds.dhead)
      (disk : ds'.disk = Function.update ds.disk d.fp.node ((ds.disk d.fp.node).put d.fp.off data))
  | drop (dhead : ds'.dhead = Keyed.remove DSession.key k ds.dhead) (disk : ds'.disk = ds.disk)

/-- Any number of them, all for one key. -/
abbrev Chain (vol : Volume) (k : Int × Bytes) : IWDS → IWDS → Prop :=
  Relation.ReflTransGen (Prim vol k)

/-- What every single effect preserves, a chain preserves. -/
theorem Chain.invariant {vol : Volume} {k : Int × Bytes} {ds ds' : IWDS} (inv : IWDS → Prop)
    (chain : Chain vol k ds ds') (preserved : ∀ ds ds', inv ds → Prim vol k ds ds' → inv ds')
    (start : inv ds) : inv ds' := by
  induction chain with
  | refl => exact start
  | tail _ last inductionHypothesis => exact preserved _ _ inductionHypothesis last

/-! ## The calls are chains -/

/-- A node that is found has the key it was looked for. -/
theorem lookup_key {ds : IWDS} {k : Int × Bytes} {d : DSession} (found : ds.at k = some d) :
    d.key = k := (Keyed.lookup_some DSession.key found).1

/-- `del_dsession` is a removal under its key, or nothing. -/
theorem delDsession_chain (vol : Volume) (ds : IWDS) (id : Int) (file : Bytes) :
    Chain vol (id, file) ds (delDsession ds id file) := by
  unfold delDsession
  split
  · exact .refl
  · exact .single (.drop rfl rfl)

/-- Unlinking is removal by key, whether or not there is a node. -/
@[simp] theorem delDsession_dhead (ds : IWDS) (id : Int) (file : Bytes) :
    (delDsession ds id file).dhead = Keyed.remove DSession.key (id, file) ds.dhead := by
  unfold delDsession
  split
  · rename_i absent
    exact (Keyed.remove_absent DSession.key absent).symm
  · rfl

/-- It changes no file. -/
@[simp] theorem delDsession_disk (ds : IWDS) (id : Int) (file : Bytes) :
    (delDsession ds id file).disk = ds.disk := by
  unfold delDsession
  split <;> rfl

@[simp] theorem note_dhead (ds : IWDS) (e : Effect) : (ds.note e).dhead = ds.dhead := rfl
@[simp] theorem note_disk (ds : IWDS) (e : Effect) : (ds.note e).disk = ds.disk := rfl
@[simp] theorem note_faults (ds : IWDS) (e : Effect) : (ds.note e).faults = ds.faults := rfl
@[simp] theorem called_dhead (ds : IWDS) (e : Effect) : (ds.called e).dhead = ds.dhead := rfl
@[simp] theorem called_disk (ds : IWDS) (e : Effect) : (ds.called e).disk = ds.disk := rfl
@[simp] theorem called_faults (ds : IWDS) (e : Effect) :
    (ds.called e).faults = ds.faults.tail := rfl

/-- A read moves the offset forward and not past the end of the file. -/
theorem fread_fp (ds : IWDS) (fp : Stream) (dlen : Nat) :
    ∃ eof, (fread ds fp dlen).fp = { fp with off := fp.off + (fread ds fp dlen).data.length, eof := eof } ∧
      fp.off + (fread ds fp dlen).data.length ≤ max fp.off (ds.disk fp.node).bytes.length := by
  obtain ⟨mode, node, off, eof⟩ := fp
  cases mode with
  | write => exact ⟨eof, rfl, by simp only [fread, List.length_nil]; omega⟩
  | read =>
    refine ⟨(fread ds ⟨.read, node, off, eof⟩ dlen).fp.eof, ?_, ?_⟩
    · cases fault : ds.fault <;> simp [fread, fault]
    · cases fault : ds.fault <;> cases eof <;> simp [fread, fault] <;> omega

/-- A stream that is open for writing cannot be read. -/
theorem fread_write {ds : IWDS} {fp : Stream} {dlen : Nat} (mode : fp.mode = .write) :
    fread ds fp dlen = { data := [], ferror := true, fp := fp } := by
  simp only [fread, mode]

/-- A read moves its stream along, and removes the node when it fails. -/
theorem readFrom_chain (vol : Volume) {ds : IWDS} (d : DSession) (dlen : Nat)
    (found : ds.at d.key = some d) : Chain vol d.key ds (readFrom ds d dlen).ds := by
  let moved := (ds.called (.stdio .fread d.clid d.filename (!(fread ds d.fp dlen).ferror))).setDsession
    { d with fp := (fread ds d.fp dlen).fp }
  have first : Chain vol d.key ds moved := by
    cases mode : d.fp.mode with
    | read =>
      obtain ⟨eof, fp, inside⟩ := fread_fp ds d.fp dlen
      refine .single (.advance d _ eof found mode (Nat.le_add_right _ _) inside ?_ rfl)
      simp only [moved, IWDS.setDsession, called_dhead, fp]
    | write =>
      refine .single (.idle ?_ rfl)
      simp only [moved, IWDS.setDsession, called_dhead, fread_write mode]
      exact Keyed.store_same DSession.key found
  unfold readFrom
  dsimp only
  split
  · exact first.trans (delDsession_chain vol moved d.clid d.filename)
  · exact first

/-- A new node is put in front of the list when `fopen` has succeeded, and nothing is when it has
not. -/
theorem createDsession_eq (vol : Volume) (ds : IWDS) (id : Int) (file : Bytes) (mode : FMode) :
    createDsession vol ds id file mode =
      match fopen vol ds id file mode with
      | (none, ds) => (none, ds)
      | (some fp, ds) =>
        (some { clid := id, fp := fp, filename := file },
          { ds with dhead := { clid := id, fp := fp, filename := file } :: ds.dhead }) := by
  obtain ⟨len, joined⟩ := joined_ret vol file
  cases result : fopen vol ds id file mode with
  | mk fp after => cases fp <;> simp only [createDsession, joined, result]

/-- `create_dsession` either leaves the list and the disk alone, or links a node. -/
theorem createDsession_read (vol : Volume) (ds : IWDS) (id : Int) (file : Bytes) :
    (∃ ds', createDsession vol ds id file .read = (none, ds') ∧
      ((∀ content, ds.disk (vol.node file) ≠ .regular content) ∨ ds.fault ≠ .none) ∧
      ds'.dhead = ds.dhead ∧ ds'.disk = ds.disk) ∨
    (∃ ds', createDsession vol ds id file .read = (some (opened vol (id, file) .read), ds') ∧
      ds.fault = .none ∧
      (∃ content, ds.disk (vol.node file) = .regular content) ∧
      ds'.dhead = opened vol (id, file) .read :: ds.dhead ∧ ds'.disk = ds.disk ∧
      ds'.faults = ds.faults.tail) := by
  rw [createDsession_eq]
  cases fault : ds.fault with
  | fail moved => exact .inl (by simp [fopen, fault])
  | none =>
    cases held : ds.disk (vol.node file) with
    | absent | directory | device => exact .inl (by simp [fopen, fault, held])
    | regular content => exact .inr (by simp [fopen, fault, held, opened])

/-- What becomes of a name that is no regular file when it is opened for writing: it cannot be
opened, or there is a stream at its beginning, for a file that is empty or for a device. -/
theorem createDsession_write (vol : Volume) (ds : IWDS) (id : Int) (file : Bytes)
    (notRegular : ∀ content, ds.disk (vol.node file) ≠ .regular content) :
    (∃ ds', createDsession vol ds id file .write = (none, ds') ∧
      (¬ (ds.disk (vol.node file)).Opens ∨ ds.fault ≠ .none) ∧
      ds'.dhead = ds.dhead ∧ ds'.disk = ds.disk) ∨
    (∃ ds', createDsession vol ds id file .write = (some (opened vol (id, file) .write), ds') ∧
      ds.fault = .none ∧ (ds.disk (vol.node file)).Opens ∧
      ds'.dhead = opened vol (id, file) .write :: ds.dhead ∧
      ds'.disk = Function.update ds.disk (vol.node file) (ds.disk (vol.node file)).truncated ∧
      ds'.faults = ds.faults.tail) := by
  rw [createDsession_eq]
  cases fault : ds.fault with
  | fail moved => exact .inl (by simp [fopen, fault])
  | none =>
    cases held : ds.disk (vol.node file) with
    | directory => exact .inl (by simp [fopen, fault, held, FileNode.Opens])
    | regular content => exact absurd held (notRegular content)
    | absent | device => exact .inr (by simp [fopen, fault, held, opened, FileNode.Opens])

/-- `iwds_write` can open no stream for the key: `stat` reports a regular file, or `fopen`
fails. -/
def IWDS.Denies (vol : Volume) (ds : IWDS) (k : Int × Bytes) : Prop :=
  isDsfile vol ds k.2 = .yes ∨ (fopen vol ds k.1 k.2 .write).1 = none

instance (vol : Volume) (ds : IWDS) (k : Int × Bytes) : Decidable (ds.Denies vol k) :=
  inferInstanceAs (Decidable (_ ∨ _))

/-- What is at the name decides, and the next fault. -/
theorem denies_iff {vol : Volume} {ds : IWDS} {k : Int × Bytes} :
    ds.Denies vol k ↔ ¬ (ds.disk (vol.node k.2)).Opens ∨ ds.fault ≠ .none := by
  rw [IWDS.Denies, isDsfile_yes_iff]
  cases fault : ds.fault <;> cases held : ds.disk (vol.node k.2) <;>
    simp [fopen, fault, held, FileNode.Opens]

/-- `iwds_read` concerns nothing but the node of its key and, through `fopen`, no file. -/
theorem iwdsRead_chain (vol : Volume) (ds : IWDS) (id : Int) (file : Bytes) (dlen : Nat) :
    Chain vol (id, file) ds (iwdsRead vol ds id file dlen).ds := by
  have noted : Chain vol (id, file) ds (ds.note (.iwdsRead id file)) := .single (.idle rfl rfl)
  apply noted.trans
  unfold iwdsRead
  dsimp only
  cases checked : isDsfile vol (ds.note (.iwdsRead id file)) file with
  | err | no => exact .refl
  | yes =>
    cases found : getDsession (ds.note (.iwdsRead id file)).dhead id file with
    | some d =>
      have same : d.key = (id, file) := lookup_key found
      have found' : (ds.note (.iwdsRead id file)).at d.key = some d := same.symm ▸ found
      have chain := readFrom_chain vol d dlen found'
      rw [same] at chain
      exact chain
    | none =>
      rcases createDsession_read vol (ds.note (.iwdsRead id file)) id file with
        ⟨ds', created, -, dhead, disk⟩ | ⟨ds', created, -, file', dhead, disk, -⟩
      · simp only [created]
        exact .single (.idle dhead disk)
      · simp only [created]
        have linked : Chain vol (id, file) (ds.note (.iwdsRead id file)) ds' :=
          .single (.openRead found file' dhead disk)
        refine linked.trans (readFrom_chain vol (opened vol (id, file) .read) dlen ?_)
        simp [IWDS.at, dhead, Keyed.lookup_cons]

/-- Nothing is written through a stream that is open for reading. -/
theorem fwritten_read {ds : IWDS} {fp : Stream} {data : Bytes} (mode : fp.mode = .read) :
    fwritten ds fp data = [] := by
  simp only [fwritten, mode]

/-- A write puts its bytes behind what the stream has written, and removes the node when it is
told to or fails. -/
theorem writeTo_chain (vol : Volume) {ds : IWDS} (d : DSession) (dbuf : Bytes)
    (found : ds.at d.key = some d) : Chain vol d.key ds (writeTo ds d dbuf).ds := by
  unfold writeTo
  split
  · exact delDsession_chain vol ds d.clid d.filename
  · dsimp only
    generalize out : fwritten ds d.fp dbuf = written
    generalize same : (IWDS.mk _ _ _ _ : IWDS) = ds'
    have first : Chain vol d.key ds ds' := by
      subst same
      cases written with
      | nil =>
        refine .single (.idle ?_ (by simp [IWDS.setDsession]))
        exact Keyed.store_same DSession.key found
      | cons b rest =>
        have mode : d.fp.mode = .write := by
          cases mode : d.fp.mode with
          | write => rfl
          | read => simp [fwritten_read mode] at out
        refine .single (.append d (b :: rest) found mode ?_ ?_) <;> simp [IWDS.setDsession]
    split
    · exact first.trans (delDsession_chain vol ds' d.clid d.filename)
    · exact first

/-- `iwds_write` concerns nothing but the node of its key and the file that this has open. -/
theorem iwdsWrite_chain (vol : Volume) (ds : IWDS) (id : Int) (file : Bytes) (dbuf : Bytes) :
    Chain vol (id, file) ds (iwdsWrite vol ds id file dbuf).ds := by
  have noted : Chain vol (id, file) ds (ds.note (.iwdsWrite id file dbuf.length)) :=
    .single (.idle rfl rfl)
  apply noted.trans
  unfold iwdsWrite
  dsimp only
  cases found : getDsession (ds.note (.iwdsWrite id file dbuf.length)).dhead id file with
  | some d =>
    have same : d.key = (id, file) := lookup_key found
    have found' : (ds.note (.iwdsWrite id file dbuf.length)).at d.key = some d := same.symm ▸ found
    have chain := writeTo_chain vol d dbuf found'
    rw [same] at chain
    exact chain
  | none =>
    cases checked : isDsfile vol (ds.note (.iwdsWrite id file dbuf.length)) file with
    | err | yes => exact .refl
    | no =>
      rcases createDsession_write vol (ds.note (.iwdsWrite id file dbuf.length)) id file
          ((isDsfile_no_iff vol _ file).mp checked) with
        ⟨ds', created, -, dhead, disk⟩ | ⟨ds', created, -, free, dhead, disk, -⟩
      · simp only [created]
        exact .single (.idle dhead disk)
      · simp only [created]
        have linked : Chain vol (id, file) (ds.note (.iwdsWrite id file dbuf.length)) ds' :=
          .single (.openWrite found free dhead disk)
        refine linked.trans (writeTo_chain vol (opened vol (id, file) .write) dbuf ?_)
        simp [IWDS.at, dhead, Keyed.lookup_cons]

/-- `iwds_close` removes the node of its key. -/
theorem iwdsClose_chain (vol : Volume) (ds : IWDS) (id : Int) (file : Bytes) :
    Chain vol (id, file) ds (iwdsClose ds id file) :=
  (Relation.ReflTransGen.single (.idle rfl rfl)).trans
    (delDsession_chain vol (ds.note (.iwdsClose id file)) id file)

/-! ## Frame -/

/-- An effect for one key leaves the node of every other key as it is. -/
theorem Prim.other {vol : Volume} {k other : Int × Bytes} {ds ds' : IWDS}
    (effect : Prim vol k ds ds') (different : other ≠ k) : ds'.at other = ds.at other := by
  have apart : k ≠ other := fun same => different same.symm
  unfold IWDS.at
  cases effect with
  | idle dhead disk => rw [dhead]
  | openRead _ _ dhead _ | openWrite _ _ dhead _ =>
    rw [dhead, Keyed.lookup_cons, opened_key, if_neg apart]
  | advance d off eof found _ _ _ dhead _ =>
    rw [dhead]
    exact Keyed.lookup_store_other DSession.key ds.dhead (by
      change d.key ≠ other
      rw [lookup_key found]
      exact apart)
  | append d data found _ dhead _ =>
    rw [dhead]
    exact Keyed.lookup_store_other DSession.key ds.dhead (by
      change d.key ≠ other
      rw [lookup_key found]
      exact apart)
  | drop dhead _ =>
    rw [dhead]
    exact Keyed.lookup_remove_other DSession.key ds.dhead apart

/-- Calls under one key leave the node of any other as it is. -/
theorem Chain.other {vol : Volume} {k other : Int × Bytes} {ds ds' : IWDS}
    (chain : Chain vol k ds ds') (different : other ≠ k) : ds'.at other = ds.at other := by
  refine Chain.invariant (fun x => x.at other = ds.at other) chain ?_ rfl
  intro before after same effect
  rw [effect.other different, same]

/-- A node of another key that is there afterwards was there before. -/
theorem Prim.mem_old {vol : Volume} {k : Int × Bytes} {ds ds' : IWDS} {d : DSession}
    (effect : Prim vol k ds ds') (member : d ∈ ds'.dhead) (different : d.key ≠ k) :
    d ∈ ds.dhead := by
  have replaced {e new : DSession} (found : ds.at k = some e) (sameKey : new.key = e.key)
      (inNew : d ∈ Keyed.store DSession.key new ds.dhead) : d ∈ ds.dhead := by
    rcases Keyed.mem_of_mem_store DSession.key inNew with rfl | old
    · exact absurd (sameKey.trans (lookup_key found)) different
    · exact old
  cases effect with
  | idle dhead _ => exact dhead ▸ member
  | openRead _ _ dhead _ | openWrite _ _ dhead _ =>
    rw [dhead] at member
    rcases List.mem_cons.mp member with rfl | old
    · exact absurd rfl different
    · exact old
  | advance e off eof found _ _ _ dhead _ =>
    rw [dhead] at member
    exact replaced found (by rfl) member
  | append e data found _ dhead _ =>
    rw [dhead] at member
    exact replaced found (by rfl) member
  | drop dhead _ =>
    rw [dhead] at member
    exact Keyed.mem_of_mem_remove DSession.key member

/-- A node of another key that is there after calls was there before. -/
theorem Chain.mem_old {vol : Volume} {k : Int × Bytes} {ds ds' : IWDS} {d : DSession}
    (chain : Chain vol k ds ds') (different : d.key ≠ k) (member : d ∈ ds'.dhead) :
    d ∈ ds.dhead := by
  refine Chain.invariant (fun x => d ∈ x.dhead → d ∈ ds.dhead) chain ?_ id member
  intro before after implied effect inAfter
  exact implied (effect.mem_old inAfter different)

/-- A node of another key stays. -/
theorem Prim.mem_new {vol : Volume} {k : Int × Bytes} {ds ds' : IWDS} {d : DSession}
    (effect : Prim vol k ds ds') (member : d ∈ ds.dhead) (different : d.key ≠ k) :
    d ∈ ds'.dhead := by
  have kept {e new : DSession} (found : ds.at k = some e) (sameKey : new.key = e.key) :
      d ∈ Keyed.store DSession.key new ds.dhead :=
    Keyed.mem_store_of_ne DSession.key member fun same =>
      different (same.trans (sameKey.trans (lookup_key found)))
  cases effect with
  | idle dhead _ => exact dhead ▸ member
  | openRead _ _ dhead _ | openWrite _ _ dhead _ =>
    rw [dhead]
    exact List.mem_cons_of_mem _ member
  | advance e off eof found _ _ _ dhead _ =>
    rw [dhead]
    exact kept found rfl
  | append e data found _ dhead _ =>
    rw [dhead]
    exact kept found rfl
  | drop dhead _ =>
    rw [dhead]
    exact Keyed.mem_remove_of_ne DSession.key member different

/-- A node of another key that was there before calls is there after them. -/
theorem Chain.mem_new {vol : Volume} {k : Int × Bytes} {ds ds' : IWDS} {d : DSession}
    (chain : Chain vol k ds ds') (member : d ∈ ds.dhead) (different : d.key ≠ k) :
    d ∈ ds'.dhead :=
  Chain.invariant (fun x => d ∈ x.dhead) chain
    (fun _ _ before effect => effect.mem_new before different) member

/-- What a session saves when its buffer is full. The buffer of a stream is no larger, so `fwrite`
leaves nothing behind in it. -/
def wholeBuffer (byte : UInt8) : Bytes := List.replicate 8192 byte

end Iwtftpd
