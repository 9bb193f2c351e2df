import Iwtftpd.Isolation
import Iwtftpd.Moves
import Iwtftpd.Storing
import Iwtftpd.Traces

/-!
# What the ACK of the last block says about stdio

Storing the last block of an upload makes certain calls of stdio: an `fopen`
when no stream is open, an `fwrite` for every save of something, an `fclose`.
Which ones follows from the block, the fill of the buffer and what is at the
name, so it can be said beforehand. The faults of a step meet its calls in
order. A failing `fopen` or `fwrite` ends the block with an ERROR; a failing
`fclose` goes no further than the log. And a failure of an earlier step is
forgotten: when the block comes again and can be stored now, it is acknowledged.
-/

namespace Iwtftpd

variable {host : Host} {vol : Volume}

/-! ## Calls that meet faults -/

/-- How the calls of a list end when they meet the faults in order. Past the end of the
faults every call succeeds. -/
def results : List Stdio → List Fault → List (Stdio × Bool)
  | [], _ => []
  | call :: calls, faults => (call, decide (faults.headD .none = .none)) :: results calls faults.tail

/-- No call but `fclose` fails. -/
def Written (calls : List Stdio) (faults : List Fault) : Prop :=
  ∀ outcome ∈ results calls faults, outcome.1 ≠ .fclose → outcome.2 = true

instance (calls : List Stdio) (faults : List Fault) : Decidable (Written calls faults) :=
  inferInstanceAs (Decidable (∀ _ ∈ _, _))

/-- No `fclose` fails. -/
def Closes (calls : List Stdio) (faults : List Fault) : Prop :=
  (Stdio.fclose, false) ∉ results calls faults

instance (calls : List Stdio) (faults : List Fault) : Decidable (Closes calls faults) :=
  inferInstanceAs (Decidable (_ ∉ _))

/-- Calls meet the faults in order, so those made later meet the later ones. -/
theorem results_append (calls more : List Stdio) (faults : List Fault) :
    results (calls ++ more) faults =
      results calls faults ++ results more (faults.drop calls.length) := by
  induction calls generalizing faults with
  | nil => rfl
  | cons call calls inductionHypothesis =>
    rw [List.cons_append, results, inductionHypothesis, results, List.cons_append, List.length_cons,
      List.drop_tail]

/-- Calls in two parts went well when both parts did. -/
theorem written_append (calls more : List Stdio) (faults : List Fault) :
    Written (calls ++ more) faults ↔ Written calls faults ∧ Written more (faults.drop calls.length) := by
  simp only [Written, results_append, List.mem_append, or_imp, forall_and]

/-- Where nothing is called, all went well. -/
theorem written_nil (faults : List Fault) : Written [] faults := nofun

/-- An `fclose` writes nothing, so it is not among the calls that have to go well. -/
theorem written_fclose (faults : List Fault) : Written [.fclose] faults := by
  simp [Written, results]

/-- A block that does not end well has no calls that would end it well, if it is refused. -/
theorem refused_iff {status : Loop} {faults : List Fault} (fails : status ≠ .done) :
    status = .done ↔ ∃ list, (none : Option (List Stdio)) = some list ∧ Written list faults := by
  refine iff_of_false fails ?_
  rintro ⟨list, refused, -⟩
  cases refused

/-- A call of stdio in the record, if it was made for the key. -/
def Effect.outcome (k : Int × Bytes) : Effect → Option (Stdio × Bool)
  | .stdio call id file success => if (id, file) = k then some (call, success) else none
  | _ => none

/-- Between two states of the datastore these calls of stdio were made for the key, no others,
and they met the faults in order. -/
structure IWDS.Made (k : Int × Bytes) (calls : List Stdio) (ds ds' : IWDS) : Prop where
  record : ∃ new, ds'.trace = new ++ ds.trace ∧
    (new.filterMap (Effect.outcome k)).reverse = results calls ds.faults
  faults : ds'.faults = ds.faults.drop calls.length

section

variable {k : Int × Bytes} {calls more : List Stdio} {ds ds' ds'' : IWDS}

/-- Something else is put on record. -/
theorem IWDS.Made.silent {e : Effect} (trace : ds'.trace = e :: ds.trace) (other : e.outcome k = none)
    (faults : ds'.faults = ds.faults) : ds.Made k [] ds' := by
  refine ⟨⟨[e], trace, ?_⟩, faults⟩
  rw [List.filterMap_cons_none other]
  rfl

/-- No call meets no fault. -/
theorem IWDS.Made.nothing (ds : IWDS) : ds.Made k [] ds := ⟨⟨[], rfl, rfl⟩, rfl⟩

/-- A call takes the next fault, and the record has its outcome. -/
theorem IWDS.Made.one {call : Stdio} {success : Bool}
    (trace : ds'.trace = .stdio call k.1 k.2 success :: ds.trace)
    (result : success = decide (ds.fault = .none)) (faults : ds'.faults = ds.faults.tail) :
    ds.Made k [call] ds' := by
  refine ⟨⟨[.stdio call k.1 k.2 success], trace, ?_⟩, by rw [faults, ← List.drop_one]; rfl⟩
  have mine : Effect.outcome k (.stdio call k.1 k.2 success) = some (call, success) := if_pos rfl
  rw [List.filterMap_cons_some mine, result]
  rfl

/-- Calls after calls. -/
theorem IWDS.Made.trans (first : ds.Made k calls ds') (second : ds'.Made k more ds'') :
    ds.Made k (calls ++ more) ds'' := by
  obtain ⟨⟨new, trace, record⟩, faults⟩ := first
  obtain ⟨⟨new', trace', record'⟩, faults'⟩ := second
  refine ⟨⟨new' ++ new, by rw [trace', trace, List.append_assoc], ?_⟩, ?_⟩
  · rw [List.filterMap_append, List.reverse_append, record, record', faults, results_append]
  · rw [faults', faults, List.drop_drop, List.length_append]

/-- What is on record of a step, which starts with an empty record. -/
theorem IWDS.Made.recorded (made : ds.Made k calls ds') (empty : ds.trace = []) (call : Stdio)
    (success : Bool) :
    .stdio call k.1 k.2 success ∈ ds'.trace ↔ (call, success) ∈ results calls ds.faults := by
  obtain ⟨⟨new, trace, record⟩, _⟩ := made
  rw [trace, empty, List.append_nil, ← record, List.mem_reverse, List.mem_filterMap]
  constructor
  · intro member
    exact ⟨_, member, if_pos rfl⟩
  · rintro ⟨e, member, outcome⟩
    cases e with
    | stdio call' id file success' =>
      rw [Effect.outcome] at outcome
      split at outcome
      · rename_i mine
        cases outcome
        rw [← mine]
        exact member
      · cases outcome
    | _ => cases outcome

end

/-! ## The calls of a save -/

/-- The calls of a save with a stream or without, for so many bytes. -/
def saveCalls (stream : Option FMode) (level : Nat) : List Stdio :=
  (if stream = none then [.fopen] else []) ++ [if level = 0 then .fclose else .fwrite]

/-- The `fopen` meets the first fault, and an `fwrite` the one behind it. -/
theorem written_saveCalls (stream : Option FMode) (level : Nat) (faults : List Fault) :
    Written (saveCalls stream level) faults ↔
      (stream = none → faults.headD .none = .none) ∧
        (level ≠ 0 → (if stream = none then faults.tail else faults).headD .none = .none) := by
  rw [saveCalls, written_append]
  cases stream <;> by_cases empty : level = 0 <;>
    simp [empty, Written, results, -List.headD_eq_head?_getD]

/-- The mode of the stream of a session. -/
def Session.stream (s : Session) (ds : IWDS) : Option FMode := (ds.at s.dkey).map fun d => d.fp.mode

/-- Without a node there is no stream. -/
theorem stream_none {s : Session} {ds : IWDS} : s.stream ds = none ↔ ds.at s.dkey = none :=
  Option.map_eq_none_iff

/-- With one there is its stream. -/
theorem stream_found {s : Session} {ds : IWDS} {d : DSession} (found : ds.at s.dkey = some d) :
    s.stream ds = some d.fp.mode := by
  rw [Session.stream, found]
  rfl

/-- A save goes through exactly when there is a stream for it or one can be opened, the stream
takes bytes, and no call but `fclose` fails. -/
theorem saveData_iff {s : Session} {ds : IWDS} (inv : Consistent vol ds) :
    (saveData vol s ds).1 = true ↔
      (s.stream ds = none → (ds.disk (vol.node s.filename)).Opens) ∧
      ¬ (s.stream ds = some .read ∧ s.sesbuf.datalen ≠ 0) ∧
      Written (saveCalls (s.stream ds) s.sesbuf.datalen) ds.faults := by
  have save := saveData_cases s inv
  generalize (saveData vol s ds).1 = ok at save ⊢
  rw [written_saveCalls]
  cases save with
  | finished d found empty =>
    rw [stream_found found]
    simp [empty]
  | created absent free clean empty =>
    rw [stream_none.mpr absent]
    exact ⟨fun _ => ⟨fun _ => free, nofun, fun _ => clean, fun loaded => absurd empty loaded⟩, fun _ => rfl⟩
  | appended d d' found mode clean loaded =>
    rw [stream_found found, mode]
    exact ⟨fun _ => ⟨nofun, nofun, nofun, fun _ => clean⟩, fun _ => rfl⟩
  | started d' absent free clean loaded _ _ _ _ taken =>
    rw [stream_none.mpr absent]
    exact ⟨fun _ => ⟨fun _ => free, nofun, fun _ => clean, fun _ => taken⟩, fun _ => rfl⟩
  | refused absent why =>
    rw [stream_none.mpr absent]
    refine ⟨nofun, ?_⟩
    rintro ⟨opens, _, clean, _⟩
    obtain taken | faulty := why
    · exact absurd (opens rfl) taken
    · exact absurd (clean rfl) faulty
  | short d found why loaded =>
    rw [stream_found found]
    refine ⟨nofun, ?_⟩
    rintro ⟨_, writes, _, clean⟩
    obtain reads | faulty := why
    · exact absurd ⟨congrArg some reads, loaded⟩ writes
    · exact absurd (clean loaded) faulty
  | cut absent free clean _ loaded _ short =>
    rw [stream_none.mpr absent]
    exact ⟨nofun, fun ⟨_, _, _, taken⟩ => absurd (taken loaded) short⟩

/-- The stream behind a save that went through. -/
def streamAfter (level : Nat) : Option FMode := if level = 0 then none else some .write

/-- After a save the stream is open, or closed when there was nothing to save. -/
theorem saveData_stream {s : Session} {ds : IWDS} (inv : Consistent vol ds)
    (saved : (saveData vol s ds).1 = true) :
    s.stream (saveData vol s ds).2.2 = streamAfter s.sesbuf.datalen := by
  have save := saveData_cases s inv
  rw [saved] at save
  cases save with
  | finished _ _ empty closed | created _ _ _ empty closed =>
    rw [stream_none.mpr closed, streamAfter, if_pos empty]
  | appended _ _ _ _ _ loaded opened still | started _ _ _ _ loaded opened still =>
    rw [stream_found opened, still, streamAfter, if_neg loaded]

/-! The calls on record. -/

/-- `del_dsession` calls `fclose` when there is a node. -/
theorem delDsession_made {ds : IWDS} (id : Int) (file : Bytes) :
    ds.Made (id, file) (if ds.at (id, file) = none then [] else [.fclose]) (delDsession ds id file) := by
  rw [delDsession]
  cases found : getDsession ds.dhead id file with
  | none =>
    have absent : ds.at (id, file) = none := found
    rw [if_pos absent]
    exact .nothing ds
  | some d =>
    have there : ds.at (id, file) ≠ none := by
      rw [show ds.at (id, file) = some d from found]
      exact Option.some_ne_none d
    rw [if_neg there]
    exact .one rfl rfl rfl

/-- `close_data` calls `fclose` when the session has a stream. -/
theorem closeData_made (s : Session) (ds : IWDS) :
    ds.Made s.dkey (if s.stream ds = none then [] else [.fclose]) (closeData s ds) := by
  have noted : ds.Made s.dkey [] (ds.note (.iwdsClose s.clsock s.filename)) := .silent rfl rfl rfl
  have closed := noted.trans (delDsession_made s.clsock s.filename)
  simp only [stream_none]
  exact closed

/-- A new node takes an `fopen`. -/
theorem createDsession_made {ds ds' : IWDS} {id : Int} {file : Bytes} {mode : FMode} {d : DSession}
    (created : createDsession vol ds id file mode = (some d, ds')) :
    ds.Made (id, file) [.fopen] ds' := by
  have opened (fp : Stream) (ds'' : IWDS) (result : fopen vol ds id file mode = (some fp, ds'')) :
      ds.Made (id, file) [.fopen] ds'' := by
    cases clean : ds.fault with
    | fail moved =>
      simp only [fopen, clean] at result
      cases result
    | none =>
      cases mode <;> cases held : ds.disk (vol.node file) <;> simp only [fopen, clean, held] at result <;>
        cases result <;> exact .one rfl (by rw [clean]; rfl) rfl
  rw [createDsession_eq] at created
  generalize fopen vol ds id file mode = r at created opened
  obtain ⟨_ | fp, ds''⟩ := r
  · cases created
  · cases created
    have made := opened fp ds'' rfl
    exact ⟨made.record, made.faults⟩

/-- A write takes an `fwrite`, and a write of nothing an `fclose`. -/
theorem writeTo_made {ds : IWDS} {d : DSession} {dbuf : Bytes} (found : ds.at d.key = some d)
    (whole : (writeTo ds d dbuf).wlen = dbuf.length) :
    ds.Made d.key [if dbuf.length = 0 then .fclose else .fwrite] (writeTo ds d dbuf).ds := by
  rw [writeTo] at whole ⊢
  by_cases empty : dbuf.length = 0
  · have there : ds.at (d.clid, d.filename) ≠ none := by
      rw [show ds.at (d.clid, d.filename) = some d from found]
      exact Option.some_ne_none d
    have deleted := @delDsession_made ds d.clid d.filename
    rw [if_neg there] at deleted
    simp only [if_pos empty]
    exact deleted
  · rw [if_neg empty] at whole ⊢
    dsimp only at whole ⊢
    have all : (fwritten ds d.fp dbuf).length = dbuf.length := by
      split at whole <;> exact whole
    have clean : ds.fault = .none := by
      by_contra faulty
      exact absurd all (Nat.ne_of_lt (fwritten_less empty (.inr faulty)))
    have full : ¬ (fwritten ds d.fp dbuf).length < dbuf.length := Nat.not_lt_of_le all.ge
    rw [if_neg empty, if_neg full]
    have success : decide ((fwritten ds d.fp dbuf).length = dbuf.length) = decide (ds.fault = .none) := by
      rw [clean, decide_eq_true all]
      rfl
    exact .one rfl success rfl

/-- `iwds_write` takes an `fopen` before that where there is no stream. -/
theorem iwdsWrite_made {s : Session} {ds : IWDS} {dbuf : Bytes}
    (derr : (iwdsWrite vol ds s.clsock s.filename dbuf).derr = none)
    (whole : (iwdsWrite vol ds s.clsock s.filename dbuf).wlen = dbuf.length) :
    ds.Made s.dkey (saveCalls (s.stream ds) dbuf.length) (iwdsWrite vol ds s.clsock s.filename dbuf).ds := by
  rw [saveCalls]
  have noted : ds.Made s.dkey [] (ds.note (.iwdsWrite s.clsock s.filename dbuf.length)) :=
    .silent rfl rfl rfl
  cases found : ds.at (s.clsock, s.filename) with
  | some d =>
    have key : d.key = s.dkey := lookup_key found
    have there : s.stream ds ≠ none := fun none => by
      rw [stream_none, show ds.at s.dkey = some d from found] at none
      cases none
    rw [if_neg there]
    rw [iwdsWrite_found vol dbuf found] at whole ⊢
    have written := writeTo_made (key ▸ found : (ds.note (.iwdsWrite s.clsock s.filename dbuf.length)).at
      d.key = some d) whole
    rw [key] at written
    exact noted.trans written
  | none =>
    rw [if_pos (stream_none.mpr found)]
    cases there : isDsfile vol ds s.filename with
    | err => exact absurd there (isDsfile_ne_err vol ds s.filename)
    | yes =>
      obtain ⟨content, held⟩ := (isDsfile_yes_iff vol ds s.filename).mp there
      rw [iwdsWrite_present dbuf found held] at derr
      cases derr
    | no =>
      cases created : createDsession vol (ds.note (.iwdsWrite s.clsock s.filename dbuf.length))
          s.clsock s.filename .write with
      | mk node ds' =>
        cases node with
        | none =>
          rw [iwdsWrite_unopened dbuf found there created] at derr
          cases derr
        | some d =>
          rw [iwdsWrite_opened dbuf found there created] at whole ⊢
          have notRegular := (isDsfile_no_iff vol ds s.filename).mp there
          obtain ⟨ds'', failed, _⟩ | ⟨ds'', linked, _, _, dhead, _⟩ :=
            createDsession_write vol (ds.note (.iwdsWrite s.clsock s.filename dbuf.length)) s.clsock
              s.filename notRegular
          · rw [created] at failed
            cases failed
          · rw [created] at linked
            cases linked
            have node : ds'.at (opened vol s.dkey .write).key = some (opened vol s.dkey .write) := by
              rw [IWDS.at, dhead, Keyed.lookup_cons]
              exact if_pos rfl
            exact (noted.trans (createDsession_made created)).trans (writeTo_made node whole)

/-- `save_data` takes what its `iwds_write` does. -/
theorem saveData_made {s : Session} {ds : IWDS} (saved : (saveData vol s ds).1 = true) :
    ds.Made s.dkey (saveCalls (s.stream ds) s.sesbuf.datalen) (saveData vol s ds).2.2 := by
  rw [saveData] at saved ⊢
  dsimp only at saved ⊢
  split at saved
  · cases saved
  · rename_i fine
    rw [if_neg fine]
    rw [not_or, not_not, not_not] at fine
    obtain ⟨derr, wlen⟩ := fine
    have length : (readAt s.sesbuf.storage 0 s.sesbuf.datalen).length = s.sesbuf.datalen := readAt_length _ _ _
    have made := iwdsWrite_made derr (wlen.trans length.symm)
    rw [length] at made
    exact made

/-! ## The calls of a block -/

/-- The calls of the passes that store the last block, and of the close behind them, or none when
a pass is refused: a stream open for reading takes no bytes, and a save of nothing closes the
stream, which only a device has opened again. -/
def passCalls (mode : TftpMode) (device : Bool) : Nat → Option FMode → Nat → Bytes → Option (List Stdio)
  | 0, _, _, _ => none
  | fuel + 1, stream, level, data =>
    let room := sessionBufsize - level
    let level := level + (mode.piece room data).length
    let rest := data.drop (mode.consumed room data)
    if stream = some .read ∧ level ≠ 0 then none
    else if rest = [] then
      some (saveCalls stream level ++ if streamAfter level = none then [] else [.fclose])
    else if level = 0 ∧ device = false then none
    else (passCalls mode device fuel (streamAfter level) 0 rest).map (saveCalls stream level ++ ·)

/-- The calls that storing the last block takes, or none when it is refused whatever stdio does. -/
def Session.storeCalls (vol : Volume) (s : Session) (ds : IWDS) (data : Bytes) : Option (List Stdio) :=
  if s.sesbuf.datalen = 0 ∧ data.length = 0 then some (if s.stream ds = none then [] else [.fclose])
  else if s.stream ds = none ∧ ¬ (ds.disk (vol.node s.filename)).Opens then none
  else passCalls s.tftpmode (ds.disk (vol.node s.filename) = .device) (data.length + 2) (s.stream ds)
    s.sesbuf.datalen data

/-- What a pass that goes through leaves behind: an empty buffer, and the stream open, or closed when
there was nothing to save. -/
structure SavedPass (vol : Volume) (s : Session) (ds : IWDS) (data : Bytes) (s' : Session) (ds' : IWDS) : Prop where
  consistent : Consistent vol ds'
  only : OnlyBuffer s s'
  level : s'.sesbuf.datalen = 0
  stream : s'.stream ds' = streamAfter (s.behind data).sesbuf.datalen
  kind : ds'.disk (vol.node s.filename) = .device ↔ ds.disk (vol.node s.filename) = .device
  made : ds.Made s.dkey (saveCalls (s.stream ds) (s.behind data).sesbuf.datalen) ds'
  shut : (s.behind data).sesbuf.datalen = 0 → ds'.at s.dkey = none ∧ ds'.disk (vol.node s.filename) ≠ .absent

/-- A pass over the last block goes through exactly when the stream takes the bytes and the calls of
its save go well. -/
theorem pass_calls {s : Session} {ds : IWDS} (data : Bytes) (inv : Consistent vol ds) (fin : s.fin = true)
    (free : s.stream ds = none → (ds.disk (vol.node s.filename)).Opens) :
    let level := (s.behind data).sesbuf.datalen
    let saved := ¬ (s.stream ds = some .read ∧ level ≠ 0) ∧ Written (saveCalls (s.stream ds) level) ds.faults
    (¬ saved ∧ ∀ fuel, (putLoop vol (fuel + 1) s ds data).status = .err) ∨
    (saved ∧ ∃ s' ds', SavedPass vol s ds data s' ds' ∧ ∀ fuel, putLoop vol (fuel + 1) s ds data =
      if s.consumed data < data.length then putLoop vol fuel s' ds' (data.drop (s.consumed data))
      else { status := .done, ses := s', ds := ds' }) := by
  obtain ⟨ds₁, dhead, disk, faults, ⟨pos, len, trace⟩, pass⟩ := putLoop_copied vol s ds data
  have inv₁ : Consistent vol ds₁ := inv.congr dhead disk
  have copied : ds.Made s.dkey [] ds₁ := .silent trace rfl faults
  have stream : (s.behind data).stream ds₁ = s.stream ds := by
    rw [Session.stream, IWDS.at, dhead]
    rfl
  have due : flush vol (s.behind data) ds₁ = saveData vol (s.behind data) ds₁ := flush_due _ _ (.inr fin)
  have saves : (saveData vol (s.behind data) ds₁).1 = true ↔
      ¬ (s.stream ds = some .read ∧ (s.behind data).sesbuf.datalen ≠ 0) ∧
        Written (saveCalls (s.stream ds) (s.behind data).sesbuf.datalen) ds.faults := by
    have save := saveData_iff (s := s.behind data) inv₁
    rw [stream, disk, faults] at save
    exact save.trans (and_iff_right free)
  dsimp only
  cases ok : (saveData vol (s.behind data) ds₁).1 with
  | false =>
    left
    constructor
    · intro both
      rw [saves.mpr both] at ok
      cases ok
    · intro fuel
      rw [pass, due]
      dsimp only
      rw [if_pos ok]
  | true =>
    right
    refine ⟨saves.mp ok, (saveData vol (s.behind data) ds₁).2.1, (saveData vol (s.behind data) ds₁).2.2, ?_, ?_⟩
    · have chain := saveData_chain vol (s.behind data) ds₁
      have only : OnlyBuffer s (saveData vol (s.behind data) ds₁).2.1 :=
        (OnlyBuffer.of_eq _ rfl).trans (saveData_only vol (s.behind data) ds₁)
      have made := saveData_made ok
      rw [stream] at made
      refine
        { consistent := chain.consistent inv₁
          only := only
          level := by rw [saveData_session, if_pos ok]
          stream := ?_
          kind := by rw [← disk]; exact chain.device_iff inv₁
          made := copied.trans made
          shut := fun empty => ((saveData_cases (s.behind data) inv₁).empty inv₁ empty).2 ok }
      rw [Session.stream, only.dkey]
      exact saveData_stream inv₁ ok
    · intro fuel
      rw [pass, due]
      dsimp only
      rw [if_neg (by rw [ok]; exact Bool.noConfusion)]

/-- A pass that had nothing to save has closed the file, and an ordinary one is not opened again. -/
theorem SavedPass.stuck {s s' : Session} {ds ds' : IWDS} {data : Bytes} (passed : SavedPass vol s ds data s' ds')
    (empty : (s.behind data).sesbuf.datalen = 0) (ordinary : ds.disk (vol.node s.filename) ≠ .device) :
    Stuck vol s' ds' := by
  obtain ⟨absent, there⟩ := passed.shut empty
  constructor
  · rw [passed.only.dkey]
    exact absent
  · rw [filename_of_ident passed.only.ident]
    exact FileNode.not_opens there fun device => ordinary (passed.kind.mp device)

/-- What follows a pass finds a stream, or a name that opens. -/
theorem SavedPass.free {s s' : Session} {ds ds' : IWDS} {data : Bytes} (passed : SavedPass vol s ds data s' ds')
    (loaded : (s.behind data).sesbuf.datalen = 0 → ds.disk (vol.node s.filename) = .device)
    (closed : s'.stream ds' = none) : (ds'.disk (vol.node s'.filename)).Opens := by
  rw [passed.stream, streamAfter] at closed
  split at closed
  · rename_i empty
    rw [filename_of_ident passed.only.ident, passed.kind.mpr (loaded empty)]
    trivial
  · cases closed

/-- The passes of the last block go through exactly when none is refused and no call but `fclose`
fails, and then these calls were made.

Proof: induction on the fuel, pass by pass. A pass copies a piece and saves. The save decides the
pass, and its stream is what the next pass finds. After a save of nothing an ordinary place holds a
closed file, so the next pass is refused. -/
theorem putLoop_calls (fuel : Nat) {s : Session} {ds : IWDS} (data : Bytes) (inv : Consistent vol ds)
    (fin : s.fin = true) (free : s.stream ds = none → (ds.disk (vol.node s.filename)).Opens) :
    let calls := passCalls s.tftpmode (ds.disk (vol.node s.filename) = .device) fuel (s.stream ds)
      s.sesbuf.datalen data
    let r := putLoop vol fuel s ds data
    (r.status = .done ↔ ∃ list, calls = some list ∧ Written list ds.faults) ∧
      (r.status = .done → ∀ list, calls = some list → ds.Made s.dkey list (closeData r.ses r.ds)) := by
  induction fuel generalizing s ds data with
  | zero => exact ⟨refused_iff Loop.noConfusion, Loop.noConfusion⟩
  | succ fuel inductionHypothesis =>
    have level : s.sesbuf.datalen + (s.tftpmode.piece (sessionBufsize - s.sesbuf.datalen) data).length =
      (s.behind data).sesbuf.datalen := rfl
    have consumed : s.tftpmode.consumed (sessionBufsize - s.sesbuf.datalen) data = s.consumed data := rfl
    dsimp only
    rw [passCalls]
    simp only [level, consumed]
    obtain ⟨unsaved, fails⟩ | ⟨⟨takes, writes⟩, s', ds', passed, onward⟩ := pass_calls data inv fin free
    · -- The pass fails: the stream is open for reading, or a call of the save goes wrong.
      rw [fails fuel]
      refine ⟨⟨Loop.noConfusion, ?_⟩, Loop.noConfusion⟩
      rintro ⟨list, calls, well⟩
      refine absurd ?_ unsaved
      split at calls
      · cases calls
      · rename_i takes
        refine ⟨takes, ?_⟩
        split at calls
        · cases calls
          exact ((written_append _ _ _).mp well).1
        · split at calls
          · cases calls
          · obtain ⟨more, _, rfl⟩ := Option.map_eq_some_iff.mp calls
            exact ((written_append _ _ _).mp well).1
    rw [if_neg takes, onward fuel]
    by_cases all : data.drop (s.consumed data) = []
    · -- Nothing of the block is left.
      rw [if_neg (by rw [List.drop_eq_nil_iff] at all; omega), if_pos all]
      refine ⟨⟨fun _ => ⟨_, rfl, ?_⟩, fun _ => rfl⟩, ?_⟩
      · rw [written_append]
        refine ⟨writes, ?_⟩
        split
        · exact written_nil _
        · exact written_fclose _
      · rintro _ list ⟨⟩
        have closed := closeData_made s' ds'
        rw [passed.only.dkey, passed.stream] at closed
        exact passed.made.trans closed
    have more : s.consumed data < data.length := by
      by_contra short
      exact all (List.drop_eq_nil_iff.mpr (by omega))
    have fin' : s'.fin = true := passed.only.fin.trans fin
    rw [if_pos more, if_neg all]
    by_cases refused : (s.behind data).sesbuf.datalen = 0 ∧
        decide (ds.disk (vol.node s.filename) = .device) = false
    · -- The file is closed, and what is left of the block is refused.
      have fails : (putLoop vol fuel s' ds' (data.drop (s.consumed data))).status ≠ .done := by
        cases fuel with
        | zero => exact Loop.noConfusion
        | succ less =>
          have stuck := passed.stuck refused.1 (of_decide_eq_false refused.2)
          rw [(stuck.putLoop less (data.drop (s.consumed data)) passed.consistent fin').1]
          exact Loop.noConfusion
      rw [if_pos refused]
      exact ⟨refused_iff fails, fun done => absurd done fails⟩
    · have loaded : (s.behind data).sesbuf.datalen = 0 → ds.disk (vol.node s.filename) = .device := by
        intro empty
        by_contra ordinary
        exact refused ⟨empty, decide_eq_false ordinary⟩
      have next := inductionHypothesis (data.drop (s.consumed data)) passed.consistent fin' (passed.free loaded)
      dsimp only at next
      rw [passed.only.tftpmode, filename_of_ident passed.only.ident, passed.stream, passed.level,
        decide_eq_decide.mpr passed.kind, passed.only.dkey, passed.made.faults] at next
      obtain ⟨done, rest⟩ := next
      rw [if_neg refused]
      constructor
      · rw [done]
        constructor
        · rintro ⟨list, calls, later⟩
          refine ⟨_, Option.map_eq_some_iff.mpr ⟨list, calls, rfl⟩, ?_⟩
          exact (written_append _ _ _).mpr ⟨writes, later⟩
        · rintro ⟨whole, calls, both⟩
          obtain ⟨list, found, rfl⟩ := Option.map_eq_some_iff.mp calls
          exact ⟨list, found, ((written_append _ _ _).mp both).2⟩
      · intro finished whole calls
        obtain ⟨list, found, rfl⟩ := Option.map_eq_some_iff.mp calls
        exact passed.made.trans (rest finished list found)

/-- The last block is stored exactly when it is not refused and no call but `fclose` fails, and then
these calls were made. -/
theorem putSessionData_calls {s : Session} {ds : IWDS} (data : Bytes) (inv : Consistent vol ds)
    (fin : s.fin = true) :
    let r := putSessionData vol s ds data
    (r.status = .done ↔ ∃ list, s.storeCalls vol ds data = some list ∧ Written list ds.faults) ∧
      (r.status = .done → ∀ list, s.storeCalls vol ds data = some list →
        ds.Made s.dkey list (closeData r.ses r.ds)) := by
  dsimp only
  rw [putSessionData, Session.storeCalls]
  by_cases idle : s.sesbuf.datalen = 0 ∧ data.length = 0
  · rw [if_pos idle, if_pos idle]
    refine ⟨⟨fun _ => ⟨_, rfl, ?_⟩, fun _ => rfl⟩, ?_⟩
    · split
      · exact written_nil _
      · exact written_fclose _
    · rintro _ list ⟨⟩
      exact closeData_made s ds
  · rw [if_neg idle, if_neg idle]
    by_cases stuck : s.stream ds = none ∧ ¬ (ds.disk (vol.node s.filename)).Opens
    · rw [if_pos stuck]
      have err := ((⟨stream_none.mp stuck.1, stuck.2⟩ : Stuck vol s ds).putLoop (data.length + 1) data inv fin).1
      rw [err]
      exact ⟨refused_iff Loop.noConfusion, Loop.noConfusion⟩
    · rw [if_neg stuck]
      exact putLoop_calls (data.length + 2) data inv fin fun closed => by
        by_contra taken
        exact stuck ⟨closed, taken⟩

/-! ## Runs with what has failed -/

/-- In the record, a call for the key failed. -/
def IWDS.Fails (ds : IWDS) (k : Int × Bytes) (call : Stdio) : Prop :=
  Effect.stdio call k.1 k.2 false ∈ ds.trace

instance (ds : IWDS) (k : Int × Bytes) (call : Stdio) : Decidable (ds.Fails k call) :=
  inferInstanceAs (Decidable (_ ∈ ds.trace))

/-- The server, with what has failed for the file of each client's session since it was opened. -/
structure Watched where
  server : Server
  failed : Client → Bool

/-- A step, and whether `fopen`, `fwrite` or `fclose` failed in it. -/
def watch (host : Host) (p : Watched) (e : Event) : Watched where
  server := step host p.server e
  failed c :=
    match getSession p.server.seshead c with
    | some s => p.failed c || decide ((step host p.server e).ads.Fails s.dkey .fopen ∨
        (step host p.server e).ads.Fails s.dkey .fwrite ∨ (step host p.server e).ads.Fails s.dkey .fclose)
    | none => false

/-- The last block of an upload: DATA in sequence, shorter than 512 bytes. -/
structure FinalBlock (host : Host) (st : Server) (d : Datagram) (c : Client) (s : Session)
    (dat : TftpData) : Prop where
  named : host.client d.src = some c
  found : getSession st.seshead c = some s
  move : st.move d s = .store dat
  short : dat.data.length < tftpDatalenMax

/-- The last block is not acknowledged once an operation failed for the file. -/
def FailuresShow (host : Host) (p : Watched) (e : Event) : Prop :=
  ∀ d c s dat, e = .datagram d → FinalBlock host p.server d c s dat →
    (∃ m ∈ outputs host p.server e, m.msg = ackMsg dat.blknum) → (watch host p e).failed c = false

/-- When the last block comes to an enabled session, it is refused whatever stdio does, or an `fopen`
or `fwrite` that it takes fails; or else nothing has failed before, and the `fclose` succeeds. -/
def FailuresStop (host : Host) (p : Watched) (e : Event) : Prop :=
  ∀ d c s dat, e = .datagram d → FinalBlock host p.server d c s dat → s.disabled = false →
    ∀ calls, s.storeCalls host.toVolume p.server.ads dat.data = some calls → Written calls d.faults →
      p.failed c = false ∧ Closes calls d.faults

/-- A last block that is acknowledged came to an enabled session. -/
theorem FinalBlock.enabled {st : Server} {d : Datagram} {c : Client} {s : Session} {dat : TftpData}
    (final : FinalBlock host st d c s dat)
    (acked : ∃ m ∈ (recv host st d).2, m.msg = ackMsg dat.blknum) : s.disabled = false := by
  obtain ⟨m, member, _⟩ := acked
  cases disabled : s.disabled with
  | false => rfl
  | true =>
    have handled := proc_handled host d final.found
    rw [recv_eq final.named, replyOf, handled.ok, handled.pointer] at member
    simp [handled.disabled disabled] at member

/-- A last block that is acknowledged was stored. -/
theorem FinalBlock.stored {st : Server} {d : Datagram} {c : Client} {s : Session} {dat : TftpData}
    (final : FinalBlock host st d c s dat)
    (acked : ∃ m ∈ (recv host st d).2, m.msg = ackMsg dat.blknum) :
    (putSessionData host.toVolume (s.noticed d.len) (st.receive d).ads dat.data).status = .done ∧
      (recv host st d).1.ads = (storeBlock host.toVolume s (st.receive d).ads dat d.len d.now).ds := by
  refine ⟨(acked_iff_stored final.named final.found (final.enabled acked) final.move).mp acked, ?_⟩
  rw [recv_eq final.named, proc_move final.found, final.move]
  rfl

/-- The last block ends the transfer. -/
theorem FinalBlock.ends {st : Server} {d : Datagram} {c : Client} {s : Session} {dat : TftpData}
    (final : FinalBlock host st d c s dat) (full : st.rbuf.length = nwbufSize) :
    (s.noticed d.len).fin = true := by
  have length := (payload_length full (move_store final.move).1).1
  have short := final.short
  rw [length] at short
  show (_ || decide _) = true
  rw [decide_eq_true short, Bool.or_true]

/-- For the last block and an enabled session: it is acknowledged exactly when it is not refused and
no call but `fclose` fails. -/
theorem FinalBlock.acked_iff {st : Server} {d : Datagram} {c : Client} {s : Session} {dat : TftpData}
    (final : FinalBlock host st d c s dat) (inv : WellFormed host.toVolume st) (enabled : s.disabled = false) :
    (∃ m ∈ (recv host st d).2, m.msg = ackMsg dat.blknum) ↔
      ∃ calls, s.storeCalls host.toVolume st.ads dat.data = some calls ∧ Written calls d.faults := by
  have received : Consistent host.toVolume (st.receive d).ads := inv.ads.congr rfl rfl
  rw [acked_iff_stored final.named final.found enabled final.move]
  exact (putSessionData_calls (s := s.noticed d.len) dat.data received (final.ends inv.rbuf)).1

/-- What the record of the step shows of the calls of a last block that was acknowledged. -/
theorem FinalBlock.recorded {st : Server} {d : Datagram} {c : Client} {s : Session} {dat : TftpData}
    {calls : List Stdio} (final : FinalBlock host st d c s dat) (inv : WellFormed host.toVolume st)
    (acked : ∃ m ∈ (recv host st d).2, m.msg = ackMsg dat.blknum)
    (list : s.storeCalls host.toVolume st.ads dat.data = some calls) (call : Stdio) :
    (recv host st d).1.ads.Fails s.dkey call ↔ (call, false) ∈ results calls d.faults := by
  have received : Consistent host.toVolume (st.receive d).ads := inv.ads.congr rfl rfl
  have fin := final.ends inv.rbuf
  obtain ⟨done, after⟩ := final.stored acked
  have made := (putSessionData_calls (s := s.noticed d.len) dat.data received fin).2 done calls list
  have only := (putSessionData_steps host.toVolume (s.noticed d.len) (st.receive d).ads dat.data).2.1
  rw [storeBlock_eq] at after
  dsimp only at after
  rw [if_pos done] at after
  dsimp only at after
  rw [if_pos (only.fin.trans fin)] at after
  rw [IWDS.Fails, after]
  exact made.recorded rfl call false

/-- For one step: the last block is never acknowledged after a failure exactly when every failure
stops it.

Proof: that the block is acknowledged is known from the calls that storing it takes and the faults
they meet. The record of the step then shows an `fclose` that failed, or nothing. -/
theorem failuresShow_iff {p : Watched} {e : Event} (inv : WellFormed host.toVolume p.server) :
    FailuresShow host p e ↔ FailuresStop host p e := by
  -- What the step adds to what has failed, once the block is acknowledged.
  have seen {d : Datagram} {c : Client} {s : Session} {dat : TftpData} {calls : List Stdio}
      (final : FinalBlock host p.server d c s dat)
      (acked : ∃ m ∈ (recv host p.server d).2, m.msg = ackMsg dat.blknum)
      (list : s.storeCalls host.toVolume p.server.ads dat.data = some calls) (writes : Written calls d.faults) :
      (watch host p (.datagram d)).failed c = false ↔ p.failed c = false ∧ Closes calls d.faults := by
    have recorded := final.recorded inv acked list
    have fails (call : Stdio) : (step host p.server (.datagram d)).ads.Fails s.dkey call ↔
      (call, false) ∈ results calls d.faults := recorded call
    have written (call : Stdio) (writing : call ≠ .fclose) : (call, false) ∉ results calls d.faults :=
      fun member => Bool.false_ne_true (writes _ member writing)
    have failed : (watch host p (.datagram d)).failed c = (p.failed c ||
        decide ((step host p.server (.datagram d)).ads.Fails s.dkey .fopen ∨
          (step host p.server (.datagram d)).ads.Fails s.dkey .fwrite ∨
          (step host p.server (.datagram d)).ads.Fails s.dkey .fclose)) := by
      simp only [watch, final.found]
    rw [failed, Bool.or_eq_false_iff, decide_eq_false_iff_not, fails, fails, fails,
      or_iff_right (written .fopen nofun), or_iff_right (written .fwrite nofun)]
    rfl
  constructor
  · rintro shows d c s dat rfl final enabled calls list writes
    have acked := (final.acked_iff inv enabled).mpr ⟨calls, list, writes⟩
    exact (seen final acked list writes).mp (shows d c s dat rfl final acked)
  · rintro stop d c s dat rfl final acked
    have enabled := final.enabled acked
    obtain ⟨calls, list, writes⟩ := (final.acked_iff inv enabled).mp acked
    exact (seen final acked list writes).mpr (stop d c s dat rfl final enabled calls list writes)

/-- Along every run, the last block is never acknowledged after a failure exactly when every failure
stops it.

Proof: for one step the two agree, because the calls that storing the block makes are known before
and the record of the step shows how they ended. The agreement is carried along the run. -/
theorem failures_shown_iff {start : Watched} {events : List Event} (initial : Initial start.server)
    (admits : Runs.Admits (watch host) (fun p e => Admissible p.server e) start events) :
    Runs.Admits (watch host) (FailuresShow host) start events ↔
      Runs.Admits (watch host) (FailuresStop host) start events :=
  admits.agree_under (fun p : Watched => WellFormed host.toVolume p.server) initial.wellFormed
    (fun _ _ inv may _ => inv.step may) fun _ _ _ inv _ => failuresShow_iff inv

/-! ## An upload of one byte -/

/-- A server on an empty disk, for which nothing has failed. -/
def watchedEmpty : Watched where
  server := startOn fun _ => .absent
  failed _ := false

/-- The one block of an upload; the calls for it meet the faults. -/
def byteBlock (faults : List Fault) : Datagram := { arrival [1] (dataMsg 1 [7]) none with faults := faults }

/-- A client uploads one byte. -/
def byteUpload (faults : List Fault) : List Event :=
  [.datagram (uploadRequest [1] 5), .datagram (byteBlock faults)]

/-- The upload is a run of the service. -/
theorem byteUpload_admits (faults : List Fault) :
    Runs.Admits (watch smallHost) (fun p e => Admissible p.server e) watchedEmpty (byteUpload faults) :=
  ⟨admissible_first rfl rfl (by decide), nofun, trivial⟩

/-- The `fwrite` fails, and the client is not sent the ACK. -/
theorem failures_shown_sample :
    (∀ s ∈ uploadOpen.seshead, (step smallHost uploadOpen
        (.datagram (byteBlock [.none, .fail 0]))).ads.Fails s.dkey .fwrite) ∧
      Runs.Admits (watch smallHost) (FailuresShow smallHost) watchedEmpty (byteUpload [.none, .fail 0]) := by
  refine ⟨by decide +kernel, (failures_shown_iff (startOn_initial _) (byteUpload_admits _)).mpr ⟨?_, ?_, trivial⟩⟩
  · rintro d c s dat ⟨⟩ final _
    cases final.found
  · rintro d c s dat ⟨⟩ final _ calls list writes
    have found : getSession uploadOpen.seshead c = some s := final.found
    have moves : ∀ s ∈ uploadOpen.seshead,
        uploadOpen.move (byteBlock [.none, .fail 0]) s = .store { blknum := 1, data := [7] } := by
      decide +kernel
    have takes : ∀ s ∈ uploadOpen.seshead,
        s.storeCalls smallHost.toVolume uploadOpen.ads [7] = some [.fopen, .fwrite, .fclose] := by decide +kernel
    have same : Move.store dat = .store { blknum := 1, data := [7] } :=
      final.move.symm.trans (moves s (session_mem found))
    cases same
    have known : s.storeCalls smallHost.toVolume uploadOpen.ads [7] = some calls := list
    rw [takes s (session_mem found)] at known
    cases known
    exact absurd writes (by decide)

/-- `fclose` fails, and the block is acknowledged. -/
theorem failures_not_shown :
    ∃ events, Runs.Admits (watch smallHost) (fun p e => Admissible p.server e) watchedEmpty events ∧
      ¬ Runs.Admits (watch smallHost) (FailuresShow smallHost) watchedEmpty events := by
  refine ⟨byteUpload [.none, .none, .fail 0], byteUpload_admits _, ?_⟩
  rintro ⟨_, shows, _⟩
  let block := byteBlock [.none, .none, .fail 0]
  have acked : ∃ m ∈ outputs smallHost uploadOpen (.datagram block), m.msg = ackMsg 1 := by
    decide +kernel
  have fails : ∀ s ∈ uploadOpen.seshead,
      (step smallHost uploadOpen (.datagram block)).ads.Fails s.dkey .fclose := by decide +kernel
  have moves : ∀ s ∈ uploadOpen.seshead,
      uploadOpen.move block s = .store { blknum := 1, data := [7] } := by decide +kernel
  have there : getSession uploadOpen.seshead ([1], 2000) ≠ none := by decide +kernel
  obtain ⟨s, found⟩ := Option.ne_none_iff_exists'.mp there
  have member := session_mem found
  have final : FinalBlock smallHost uploadOpen block ([1], 2000) s { blknum := 1, data := [7] } :=
    ⟨rfl, found, moves s member, by decide⟩
  have unseen : (watch smallHost { server := uploadOpen, failed := fun _ => false }
      (.datagram block)).failed ([1], 2000) = false := shows block ([1], 2000) s _ rfl final acked
  have seen := fails s member
  simp only [watch, found, Bool.false_or, decide_eq_false_iff_not] at unseen
  exact unseen (.inr (.inr seen))

end Iwtftpd
