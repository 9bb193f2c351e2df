import Iwtftpd.Moves

/-!
# What a step records

The record of a step names the calls of the datastore and the copies between
messages and the session buffer. The functions that take bytes out of a session
record one kind of effects, those that put bytes in another, and both only for
the key of their session. Whether the copies stay inside the buffer is decided by
`pos` and `datalen` at the start.
-/

namespace Iwtftpd

variable {host : Host} (vol : Volume)

/-- What is new in the record is all of one kind. -/
def IWDS.Adds (kind : Effect → Prop) (ds ds' : IWDS) : Prop :=
  ∃ new, ds'.trace = new ++ ds.trace ∧ ∀ e ∈ new, kind e

section
variable {kind kind' : Effect → Prop} {ds ds' ds'' : IWDS}

/-- Nothing added is of any kind. -/
theorem IWDS.Adds.refl (kind : Effect → Prop) (ds : IWDS) : ds.Adds kind ds :=
  ⟨[], rfl, fun _ impossible => by cases impossible⟩

/-- What leaves the record as it is adds nothing. -/
theorem IWDS.Adds.of_eq (same : ds'.trace = ds.trace) : ds.Adds kind ds' :=
  ⟨[], same, fun _ impossible => by cases impossible⟩

/-- A single entry is of the kind that it is. -/
theorem IWDS.Adds.one {e : Effect} (trace : ds'.trace = e :: ds.trace) (is : kind e) :
    ds.Adds kind ds' := by
  refine ⟨[e], trace, fun e' member => ?_⟩
  rw [List.mem_singleton.mp member]
  exact is

/-- What is added in two steps is of a kind when both parts are. -/
theorem IWDS.Adds.trans (first : ds.Adds kind ds') (second : ds'.Adds kind ds'') :
    ds.Adds kind ds'' := by
  obtain ⟨new, trace, is⟩ := first
  obtain ⟨new', trace', is'⟩ := second
  refine ⟨new' ++ new, by rw [trace', trace, List.append_assoc], fun e member => ?_⟩
  rcases List.mem_append.mp member with later | earlier
  · exact is' e later
  · exact is e earlier

/-- A kind can be replaced by a weaker one. -/
theorem IWDS.Adds.mono (adds : ds.Adds kind ds') (weaker : ∀ e, kind e → kind' e) :
    ds.Adds kind' ds' := by
  obtain ⟨new, trace, is⟩ := adds
  exact ⟨new, trace, fun e member => weaker e (is e member)⟩

/-- A step starts with an empty record. -/
theorem IWDS.Adds.all (adds : ds.Adds kind ds') (empty : ds.trace = []) {e : Effect}
    (member : e ∈ ds'.trace) : kind e := by
  obtain ⟨new, trace, is⟩ := adds
  rw [trace, empty, List.append_nil] at member
  exact is e member

end

/-! ## Kinds of effects -/

/-- Closing a datastore session. -/
def Effect.Closing (k : Int × Bytes) : Effect → Prop
  | .iwdsClose id file => (id, file) = k
  | .stdio _ id file _ => (id, file) = k
  | _ => False

/-- Taking bytes out of a session. -/
def Effect.Taking (k : Int × Bytes) : Effect → Prop
  | .copyOut _ _ => True
  | .iwdsRead id file => (id, file) = k
  | e => e.Closing k

/-- Putting bytes into a session. -/
def Effect.Putting (k : Int × Bytes) : Effect → Prop
  | .copyIn _ _ => True
  | .iwdsWrite id file _ => (id, file) = k
  | e => e.Closing k

/-- What closes a stream may occur in a step that takes blocks from it. -/
theorem Effect.Closing.taking {k : Int × Bytes} (e : Effect) (is : e.Closing k) : e.Taking k := by
  cases e <;> first | exact is | trivial

/-- What closes a stream may occur in a step that puts blocks into it. -/
theorem Effect.Closing.putting {k : Int × Bytes} (e : Effect) (is : e.Closing k) : e.Putting k := by
  cases e <;> first | exact is | trivial

/-- A copy touches the storage of the buffer only. -/
def Effect.Inside : Effect → Prop
  | .copyIn pos len => ∀ i, pos ≤ i → i < pos + len → i < sessionBufsize
  | .copyOut pos len => ∀ i, pos ≤ i → i < pos + len → i < sessionBufsize
  | _ => True

/-- What closes a stream copies nothing, so it copies nothing beyond the buffer. -/
theorem Effect.Closing.inside {k : Int × Bytes} (e : Effect) (is : e.Closing k) : e.Inside := by
  cases e with
  | copyIn | copyOut => exact is.elim
  | iwdsRead | iwdsWrite | iwdsClose | stdio => trivial

/-! ## The datastore -/

/-- `del_dsession` records an `fclose` under its key, or nothing. -/
theorem delDsession_adds (ds : IWDS) (id : Int) (file : Bytes) :
    ds.Adds (Effect.Closing (id, file)) (delDsession ds id file) := by
  unfold delDsession
  split
  · exact .refl _ ds
  · exact .one rfl rfl

/-- `iwds_close` records its call and what `del_dsession` does. -/
theorem iwdsClose_adds (ds : IWDS) (id : Int) (file : Bytes) :
    ds.Adds (Effect.Closing (id, file)) (iwdsClose ds id file) := by
  have called : ds.Adds (Effect.Closing (id, file)) (ds.note (.iwdsClose id file)) := .one rfl rfl
  exact called.trans (delDsession_adds (ds.note (.iwdsClose id file)) id file)

/-- `close_data` records a call under the key of the session. -/
theorem closeData_adds (ses : Session) (ds : IWDS) :
    ds.Adds (Effect.Closing ses.dkey) (closeData ses ds) := iwdsClose_adds ds _ _

/-- `fopen` records itself and whether it succeeded, and nothing else. -/
theorem fopen_trace (ds : IWDS) (id : Int) (file : Bytes) (mode : FMode) :
    ∃ success, (fopen vol ds id file mode).2.trace = .stdio .fopen id file success :: ds.trace := by
  unfold fopen
  dsimp only
  split <;> exact ⟨_, rfl⟩

/-- A new node records the `fopen` of its file. -/
theorem createDsession_adds (ds : IWDS) (id : Int) (file : Bytes) (mode : FMode) :
    ds.Adds (Effect.Closing (id, file)) (createDsession vol ds id file mode).2 := by
  obtain ⟨success, trace⟩ := fopen_trace vol ds id file mode
  rw [createDsession_eq]
  generalize fopen vol ds id file mode = r at trace ⊢
  obtain ⟨_ | fp, ds'⟩ := r <;> exact .one trace rfl

/-- The node that is made has the key it was asked for. -/
theorem createDsession_key {vol : Volume} {ds ds' : IWDS} {id : Int} {file : Bytes} {mode : FMode}
    {d : DSession} (created : createDsession vol ds id file mode = (some d, ds')) :
    (d.clid, d.filename) = (id, file) := by
  rw [createDsession_eq] at created
  generalize fopen vol ds id file mode = r at created
  obtain ⟨_ | fp, ds''⟩ := r
  · cases created
  · cases created
    rfl

/-- A read records its `fread`, and the `fclose` when it fails. -/
theorem readFrom_adds {ds : IWDS} {d : DSession} {k : Int × Bytes} (dlen : Nat)
    (key : (d.clid, d.filename) = k) : ds.Adds (Effect.Closing k) (readFrom ds d dlen).ds := by
  unfold readFrom
  dsimp only
  have first : ds.Adds (Effect.Closing k)
      ((ds.called (.stdio .fread d.clid d.filename (!(fread ds d.fp dlen).ferror))).setDsession
        { d with fp := (fread ds d.fp dlen).fp }) := .one rfl key
  split
  · exact first.trans (key ▸ delDsession_adds _ d.clid d.filename)
  · exact first

/-- `iwds_read` records its call and calls of stdio under its key. -/
theorem iwdsRead_adds {kind : Effect → Prop} (ds : IWDS) (id : Int) (file : Bytes) (dlen : Nat)
    (reading : kind (.iwdsRead id file)) (closing : ∀ e, e.Closing (id, file) → kind e) :
    ds.Adds kind (iwdsRead vol ds id file dlen).ds := by
  have called : ds.Adds kind (ds.note (.iwdsRead id file)) := .one rfl reading
  apply called.trans
  unfold iwdsRead
  dsimp only
  split
  · exact .refl _ _
  · exact .refl _ _
  · split
    · rename_i d found
      exact (readFrom_adds dlen (lookup_key found)).mono closing
    · have linked := createDsession_adds vol (ds.note (.iwdsRead id file)) id file .read
      split <;> rename_i created <;> rw [created] at linked
      · exact linked.mono closing
      · exact (linked.trans (readFrom_adds dlen (createDsession_key created))).mono closing

/-- A write records its `fwrite`, and the `fclose` when it fails or ends the file. -/
theorem writeTo_adds {ds : IWDS} {d : DSession} {k : Int × Bytes} (dbuf : Bytes)
    (key : (d.clid, d.filename) = k) : ds.Adds (Effect.Closing k) (writeTo ds d dbuf).ds := by
  unfold writeTo
  split
  · exact key ▸ delDsession_adds ds d.clid d.filename
  · dsimp only
    generalize same : (IWDS.mk _ _ _ _ : IWDS) = ds'
    have first : ds.Adds (Effect.Closing k) ds' := by
      subst same
      exact .one rfl key
    split
    · exact first.trans (key ▸ delDsession_adds ds' d.clid d.filename)
    · exact first

/-- `iwds_write` records its call, with the number of bytes, and calls of stdio under its key. -/
theorem iwdsWrite_adds {kind : Effect → Prop} (ds : IWDS) (id : Int) (file : Bytes)
    (dbuf : Bytes) (writing : kind (.iwdsWrite id file dbuf.length))
    (closing : ∀ e, e.Closing (id, file) → kind e) :
    ds.Adds kind (iwdsWrite vol ds id file dbuf).ds := by
  have called : ds.Adds kind (ds.note (.iwdsWrite id file dbuf.length)) := .one rfl writing
  apply called.trans
  unfold iwdsWrite
  dsimp only
  split
  · rename_i d found
    exact (writeTo_adds dbuf (lookup_key found)).mono closing
  · split
    · exact .refl _ _
    · exact .refl _ _
    · have linked := createDsession_adds vol (ds.note (.iwdsWrite id file dbuf.length)) id file .write
      split <;> rename_i created <;> rw [created] at linked
      · exact linked.mono closing
      · exact (linked.trans (writeTo_adds dbuf (createDsession_key created))).mono closing

/-! ## Taking -/

/-- `load_data` records one `iwds_read`. -/
theorem loadData_adds {kind : Effect → Prop} (ses : Session) (ds : IWDS)
    (reading : kind (.iwdsRead ses.clsock ses.filename))
    (closing : ∀ e, e.Closing ses.dkey → kind e) : ds.Adds kind (loadData vol ses ds).2.2 := by
  have read : ds.Adds kind _ :=
    iwdsRead_adds vol ds ses.clsock ses.filename sessionBufsize reading closing
  unfold loadData
  dsimp only
  split
  · exact read.trans ((closeData_adds ses _).mono closing)
  · exact read

variable {vol} in
/-- A load that succeeds starts the buffer anew. -/
theorem loadData_pos {ses ses' : Session} {ds ds' : IWDS}
    (loaded : loadData vol ses ds = (true, ses', ds')) : ses'.sesbuf.pos = 0 := by
  unfold loadData at loaded
  dsimp only at loaded
  split at loaded
  · cases loaded
  · cases loaded
    rfl

/-- `refill` records one `iwds_read` or nothing. -/
theorem refill_adds (kind : Effect → Prop) (ses : Session) (ds : IWDS)
    (reading : kind (.iwdsRead ses.clsock ses.filename))
    (closing : ∀ e, e.Closing ses.dkey → kind e) : ds.Adds kind (refill vol ses ds).2.2 := by
  have loaded := loadData_adds vol ses ds reading closing
  unfold refill
  split
  · split <;> rename_i result <;> rw [result] at loaded <;> exact loaded
  · exact .refl _ ds

variable {vol} in
/-- The buffer that a piece is taken from: the one that was there, or one just
loaded. -/
theorem refill_ready {ses ses' : Session} {ds ds' : IWDS}
    (ready : refill vol ses ds = (.ready, ses', ds')) :
    (ses' = ses ∧ ses.sesbuf.datalen ≠ 0) ∨ ses'.sesbuf.pos = 0 := by
  unfold refill at ready
  split at ready
  · split at ready
    · cases ready
    · rename_i loaded
      simp only [Prod.mk.injEq] at ready
      obtain ⟨_, rfl, _⟩ := ready
      exact .inr (loadData_pos loaded)
  · rename_i buffered
    cases ready
    exact .inl ⟨rfl, buffered⟩

variable {vol} in
/-- At the end of the file the buffer is empty and at its start. -/
theorem refill_eof {ses ses' : Session} {ds ds' : IWDS}
    (ended : refill vol ses ds = (.eof, ses', ds')) :
    ses'.sesbuf.pos = 0 ∧ ses'.sesbuf.datalen = 0 := by
  unfold refill at ended
  split at ended
  · split at ended
    · cases ended
    · rename_i loaded
      simp only [Prod.mk.injEq] at ended
      obtain ⟨kind, rfl, _⟩ := ended
      refine ⟨loadData_pos loaded, ?_⟩
      by_contra buffered
      rw [if_neg buffered] at kind
      cases kind
  · cases ended

/-- The encoder moves `pos` and `datalen` against each other and copies nothing
beyond what is buffered. -/
theorem localToNetascii_moves (room : Nat) (sb : DataStorage) :
    (localToNetascii room sb).2.1.pos + (localToNetascii room sb).2.1.datalen =
        sb.pos + sb.datalen ∧
      ∀ e ∈ (localToNetascii room sb).2.2, ∃ pos len, e = .copyOut pos len ∧
        pos + len ≤ sb.pos + min room sb.datalen := by
  have window : (readAt sb.storage sb.pos (min room sb.datalen)).length = min room sb.datalen :=
    readAt_length _ _ _
  unfold localToNetascii
  dsimp only
  generalize readAt sb.storage sb.pos (min room sb.datalen) = ahead at window ⊢
  have shorter : (ahead.takeWhile (fun b => decide (b ≠ lf))).length ≤ ahead.length :=
    (List.takeWhile_prefix _).length_le
  have plain : ∃ pos len, Effect.copyOut sb.pos (ahead.takeWhile (fun b => decide (b ≠ lf))).length =
      .copyOut pos len ∧ pos + len ≤ sb.pos + min room sb.datalen := ⟨_, _, rfl, by omega⟩
  split
  · refine ⟨by dsimp only; omega, fun e member => ?_⟩
    rw [List.mem_singleton.mp member]
    exact plain
  rename_i more
  split
  · refine ⟨by split <;> dsimp only <;> omega, fun e member => ?_⟩
    have both : e = .copyOut (sb.pos + (ahead.takeWhile (fun b => decide (b ≠ lf))).length) 1 ∨
        e = .copyOut sb.pos (ahead.takeWhile (fun b => decide (b ≠ lf))).length := by
      split at member <;> simpa using member
    rcases both with rfl | rfl
    · exact ⟨_, _, rfl, by omega⟩
    · exact plain
  · refine ⟨by dsimp only; omega, fun e member => ?_⟩
    rw [List.mem_singleton.mp member]
    exact plain

/-- A pass of `get_session_data` moves the position on by what it takes off the length, so their
sum stays, and it copies within that. -/
theorem takePiece_moves (ses : Session) (ds : IWDS) (room : Nat) :
    (takePiece ses ds room).2.1.sesbuf.pos + (takePiece ses ds room).2.1.sesbuf.datalen =
        ses.sesbuf.pos + ses.sesbuf.datalen ∧
      ds.Adds (fun e => ∃ pos len, e = .copyOut pos len ∧
        pos + len ≤ ses.sesbuf.pos + min room ses.sesbuf.datalen) (takePiece ses ds room).2.2 := by
  unfold takePiece
  cases ses.tftpmode with
  | octet =>
    dsimp only
    exact ⟨by split <;> omega, .one rfl ⟨_, _, rfl, by split <;> omega⟩⟩
  | netascii =>
    obtain ⟨sum, copies⟩ := localToNetascii_moves room ses.sesbuf
    exact ⟨sum, _, rfl, copies⟩

/-- A pass of `get_session_data` records a copy out of the buffer. -/
theorem takePiece_adds (ses : Session) (ds : IWDS) (room : Nat) (k : Int × Bytes) :
    ds.Adds (Effect.Taking k) (takePiece ses ds room).2.2 := by
  apply (takePiece_moves ses ds room).2.mono
  rintro _ ⟨pos, len, rfl, _⟩
  trivial

/-- The loop of `get_session_data` records reads and copies out of the buffer, and no write.

Proof: by induction on the fuel. -/
theorem getLoop_adds (fuel : Nat) (ses : Session) (ds : IWDS) (room : Nat) (out : Bytes) :
    ds.Adds (Effect.Taking ses.dkey) (getLoop vol fuel ses ds room out).ds := by
  induction fuel generalizing ses ds room out with
  | zero => exact .refl _ ds
  | succ fuel inductionHypothesis =>
    have refilled := refill_adds vol (Effect.Taking ses.dkey) ses ds rfl
      Effect.Closing.taking
    have only := refill_only vol ses ds
    rw [getLoop]
    split <;> rename_i result <;> rw [result] at refilled only
    · exact refilled
    · exact refilled
    · rename_i ses' ds'
      have taken := takePiece_adds ses' ds' room ses.dkey
      have onlyTaken := takePiece_only ses' ds' room
      generalize takePiece ses' ds' room = result at taken onlyTaken ⊢
      obtain ⟨piece, ses'', ds''⟩ := result
      dsimp only at taken onlyTaken refilled only ⊢
      split
      · have rest := inductionHypothesis ses'' ds'' (room - piece.length) (out ++ piece)
        rw [onlyTaken.dkey, only.dkey] at rest
        exact refilled.trans (taken.trans rest)
      · exact refilled.trans taken

/-- A block that ends the transfer records the `iwds_close`. -/
theorem finIfShort_adds (ses : Session) (ds : IWDS) (data : Bytes) :
    ds.Adds (Effect.Closing ses.dkey) (finIfShort ses ds data).2 := by
  unfold finIfShort
  split
  · exact closeData_adds ses ds
  · exact .refl _ ds

/-- The encoder of DATA records reads, copies out of the buffer and a close. -/
theorem makeTftpdataMsg_adds (ses : Session) (ds : IWDS) (bufsize : Nat) (now : Int) :
    ds.Adds (Effect.Taking ses.dkey) (makeTftpdataMsg vol ses ds bufsize now).2.2 := by
  unfold makeTftpdataMsg
  split
  · exact .refl _ ds
  · have taken := getLoop_adds vol (tftpDatalenMax + 1)
      { ses with blknum := nextBlk ses.blknum } ds tftpDatalenMax []
    have only := (getSessionData_steps vol { ses with blknum := nextBlk ses.blknum } ds
      tftpDatalenMax).2.1
    dsimp only
    generalize run : getSessionData vol { ses with blknum := nextBlk ses.blknum } ds tftpDatalenMax = r
      at only ⊢
    have taken' : ds.Adds (Effect.Taking ses.dkey) r.ds := run ▸ taken
    have key : r.ses.dkey = ses.dkey := only.dkey
    split
    · exact taken'.trans ((key ▸ finIfShort_adds r.ses r.ds r.out).mono Effect.Closing.taking)
    · exact taken'

/-! ## Taking inside the buffer -/

/-- The room that taking bytes needs: nothing is buffered, or what is taken of it lies
inside the storage. -/
def DataStorage.Takeable (sb : DataStorage) (room : Nat) : Prop :=
  sb.datalen = 0 ∨ sb.pos + min room sb.datalen ≤ sessionBufsize

/-- Once there is room, the loop never leaves the storage: every load starts at its
beginning, and `pos` and `datalen` move against each other. -/
theorem getLoop_inside (fuel : Nat) (ses : Session) (ds : IWDS) (room : Nat) (out : Bytes)
    (fits : ses.sesbuf.Fits) (takeable : ses.sesbuf.Takeable room) :
    ds.Adds Effect.Inside (getLoop vol fuel ses ds room out).ds := by
  induction fuel generalizing ses ds room out with
  | zero => exact .refl _ ds
  | succ fuel inductionHypothesis =>
    have refilled := refill_adds vol Effect.Inside ses ds trivial
      Effect.Closing.inside
    have fits' := refill_fits vol ds fits
    rw [getLoop]
    split <;> rename_i result <;> rw [result] at refilled fits'
    · exact refilled
    · exact refilled
    · rename_i ses' ds'
      dsimp only at refilled fits' ⊢
      have inside : ses'.sesbuf.pos + min room ses'.sesbuf.datalen ≤ sessionBufsize := by
        rcases refill_ready result with ⟨rfl, buffered⟩ | start
        · exact takeable.resolve_left buffered
        · have short := fits'.short
          omega
      obtain ⟨sum, copies⟩ := takePiece_moves ses' ds' room
      have consumes := takePiece_consumes ses' ds' room
      have fits'' := takePiece_fits ds' room fits'
      generalize takePiece ses' ds' room = result at sum copies consumes fits'' ⊢
      obtain ⟨piece, ses'', ds''⟩ := result
      dsimp only at sum copies consumes fits'' ⊢
      have taken : ds'.Adds Effect.Inside ds'' := by
        apply copies.mono
        rintro _ ⟨pos, len, rfl, bound⟩ i _ below
        omega
      split
      · refine refilled.trans (taken.trans (inductionHypothesis ses'' ds'' _ _ fits'' ?_))
        right
        omega
      · exact refilled.trans taken

/-- When the block can be taken from where the position is, every copy is inside the buffer. -/
theorem makeTftpdataMsg_inside (ses : Session) (ds : IWDS) (bufsize : Nat) (now : Int)
    (fits : ses.sesbuf.Fits) (takeable : ses.sesbuf.Takeable tftpDatalenMax) :
    ds.Adds Effect.Inside (makeTftpdataMsg vol ses ds bufsize now).2.2 := by
  unfold makeTftpdataMsg
  split
  · exact .refl _ ds
  · have taken := getLoop_inside vol (tftpDatalenMax + 1)
      { ses with blknum := nextBlk ses.blknum } ds tftpDatalenMax [] fits takeable
    dsimp only
    generalize run : getSessionData vol { ses with blknum := nextBlk ses.blknum } ds tftpDatalenMax = r
    have taken' : ds.Adds Effect.Inside r.ds := run ▸ taken
    split
    · exact taken'.trans ((finIfShort_adds r.ses r.ds r.out).mono Effect.Closing.inside)
    · exact taken'

/-! ## Putting -/

/-- `save_data` records one `iwds_write` of the whole buffer. -/
theorem saveData_adds {kind : Effect → Prop} (ses : Session) (ds : IWDS)
    (writing : kind (.iwdsWrite ses.clsock ses.filename ses.sesbuf.datalen))
    (closing : ∀ e, e.Closing ses.dkey → kind e) : ds.Adds kind (saveData vol ses ds).2.2 := by
  have written : ds.Adds kind _ :=
    iwdsWrite_adds vol ds ses.clsock ses.filename
      (readAt ses.sesbuf.storage 0 ses.sesbuf.datalen) (by rwa [readAt_length]) closing
  unfold saveData
  dsimp only
  split
  · exact written.trans ((closeData_adds ses _).mono closing)
  · exact written

/-- The check at the foot of the loop records one `iwds_write` or nothing. -/
theorem flush_adds (kind : Effect → Prop) (ses : Session) (ds : IWDS)
    (writing : kind (.iwdsWrite ses.clsock ses.filename ses.sesbuf.datalen))
    (closing : ∀ e, e.Closing ses.dkey → kind e) : ds.Adds kind (flush vol ses ds).2.2 := by
  unfold flush
  split
  · exact saveData_adds vol ses ds writing closing
  · exact .refl _ ds

/-- A piece moves `pos` and `datalen` alike, by the bytes copied, which are at most
those consumed. -/
theorem putPiece_moves (ses : Session) (ds : IWDS) (data : Bytes) :
    ∃ n, n ≤ (putPiece ses ds data).1 ∧ n ≤ sessionBufsize - ses.sesbuf.datalen ∧
      (putPiece ses ds data).1 ≤ data.length ∧
      (putPiece ses ds data).2.1.sesbuf.pos = ses.sesbuf.pos + n ∧
      (putPiece ses ds data).2.1.sesbuf.datalen = ses.sesbuf.datalen + n ∧
      (putPiece ses ds data).2.2.trace = .copyIn ses.sesbuf.pos n :: ds.trace := by
  unfold putPiece
  cases ses.tftpmode with
  | octet =>
    refine ⟨(data.take (sessionBufsize - ses.sesbuf.datalen)).length, Nat.le_refl _, ?_, ?_,
      rfl, rfl, rfl⟩
    · exact List.length_take_le _ _
    · exact List.length_take_le' _ _
  | netascii =>
    have shorter := (List.takeWhile_prefix (l := data.take (sessionBufsize - ses.sesbuf.datalen))
      (fun b => decide (b ≠ cr))).length_le
    have window : (data.take (sessionBufsize - ses.sesbuf.datalen)).length =
      min (sessionBufsize - ses.sesbuf.datalen) data.length := List.length_take
    refine ⟨_, ?_, ?_, ?_, rfl, rfl, rfl⟩
    · exact Nat.le_add_right _ _
    · omega
    · simp only [netasciiToLocal]
      split <;> omega

/-- A pass of `put_session_data` records a copy into the buffer. -/
theorem putPiece_adds (ses : Session) (ds : IWDS) (data : Bytes) (k : Int × Bytes) :
    ds.Adds (Effect.Putting k) (putPiece ses ds data).2.2 := by
  obtain ⟨n, _, _, _, _, _, trace⟩ := putPiece_moves ses ds data
  exact .one trace trivial

/-- The loop of `put_session_data` records writes and copies into the buffer, and no read.

Proof: by induction on the fuel. -/
theorem putLoop_adds (fuel : Nat) (ses : Session) (ds : IWDS) (data : Bytes) :
    ds.Adds (Effect.Putting ses.dkey) (putLoop vol fuel ses ds data).ds := by
  induction fuel generalizing ses ds data with
  | zero => exact .refl _ ds
  | succ fuel inductionHypothesis =>
    have put := putPiece_adds ses ds data ses.dkey
    have only := putPiece_only ses ds data
    rw [putLoop]
    generalize putPiece ses ds data = result at put only ⊢
    obtain ⟨len, ses', ds'⟩ := result
    dsimp only at put only ⊢
    have flushed := flush_adds vol (Effect.Putting ses'.dkey) ses' ds' rfl
      Effect.Closing.putting
    have onlyFlushed := flush_only vol ses' ds'
    rw [only.dkey] at flushed
    generalize flush vol ses' ds' = result at flushed onlyFlushed ⊢
    obtain ⟨_ | _, ses'', ds''⟩ := result
    · exact put.trans flushed
    · dsimp only at flushed onlyFlushed ⊢
      split
      · have rest := inductionHypothesis ses'' ds'' (data.drop len)
        rw [onlyFlushed.dkey, only.dkey] at rest
        exact put.trans (flushed.trans rest)
      · exact put.trans flushed

/-- `put_session_data` records what its loop does. -/
theorem putSessionData_adds (ses : Session) (ds : IWDS) (data : Bytes) :
    ds.Adds (Effect.Putting ses.dkey) (putSessionData vol ses ds data).ds := by
  unfold putSessionData
  split
  · exact .refl _ ds
  · exact putLoop_adds vol _ ses ds data

/-- A block that is stored records copies into the buffer, writes, and the close behind the last.
-/
theorem storeBlock_adds (ses : Session) (ds : IWDS) (dat : TftpData) (dlen : Nat) (now : Int) :
    ds.Adds (Effect.Putting ses.dkey) (storeBlock vol ses ds dat dlen now).ds := by
  let start := if dlen - 4 < tftpDatalenMax then { ses with fin := true } else ses
  have key : start.dkey = ses.dkey := by
    simp only [start]
    split <;> rfl
  have put := putSessionData_adds vol start ds dat.data
  have only := (putSessionData_steps vol start ds dat.data).2.1
  rw [key] at put
  unfold storeBlock
  dsimp only
  generalize putSessionData vol start ds dat.data = r at put only ⊢
  have key' : r.ses.dkey = ses.dkey := only.dkey.trans key
  cases r.status with
  | err | running =>
    simp only [errsend_eq .update r.ses r.ds .accessDeny empty_short]
    exact put
  | done =>
    simp only [makeTftpackMsg_eq]
    split
    · exact put.trans ((key' ▸ closeData_adds r.ses r.ds).mono Effect.Closing.putting)
    · exact put

/-! ## Putting inside the buffer -/

/-- The room that putting bytes needs. -/
def DataStorage.Puttable (sb : DataStorage) (len : Nat) : Prop :=
  sb.pos + min len (sessionBufsize - sb.datalen) ≤ sessionBufsize

/-- Saving starts the buffer anew. -/
theorem flush_room (ses : Session) (ds : IWDS) (flushed : (flush vol ses ds).1 = true) :
    ((flush vol ses ds).2.1 = ses ∧ ses.sesbuf.datalen ≠ sessionBufsize) ∨
      ((flush vol ses ds).2.1.sesbuf.pos = 0 ∧ (flush vol ses ds).2.1.sesbuf.datalen = 0) := by
  unfold flush at flushed ⊢
  split at flushed
  · rename_i due
    rw [if_pos due]
    unfold saveData at flushed ⊢
    dsimp only at flushed ⊢
    split at flushed
    · cases flushed
    · rename_i saved
      rw [if_neg saved]
      exact .inr ⟨rfl, rfl⟩
  · rename_i kept
    rw [if_neg kept]
    exact .inl ⟨rfl, fun full => kept (.inl full)⟩

/-- A save sets the position back with the length. So where the two were level they still are. -/
theorem flush_level {ses : Session} (ds : IWDS) (level : ses.sesbuf.pos = ses.sesbuf.datalen) :
    (flush vol ses ds).2.1.sesbuf.pos = (flush vol ses ds).2.1.sesbuf.datalen := by
  unfold flush
  split
  · unfold saveData
    dsimp only
    split
    · exact level
    · rfl
  · exact level

/-- Once there is room, the loop never leaves the storage: `pos` and `datalen` move
alike until a save takes both back to the start. -/
theorem putLoop_inside (fuel : Nat) (ses : Session) (ds : IWDS) (data : Bytes)
    (fits : ses.sesbuf.Fits) (puttable : ses.sesbuf.Puttable data.length) :
    ds.Adds Effect.Inside (putLoop vol fuel ses ds data).ds := by
  induction fuel generalizing ses ds data with
  | zero => exact .refl _ ds
  | succ fuel inductionHypothesis =>
    have short := fits.short
    have fits' := putPiece_fits ds data fits
    obtain ⟨n, consumed, room, inData, pos, datalen, trace⟩ := putPiece_moves ses ds data
    rw [putLoop]
    generalize putPiece ses ds data = result at fits' consumed inData pos datalen trace ⊢
    obtain ⟨len, ses', ds'⟩ := result
    dsimp only at fits' consumed inData pos datalen trace ⊢
    have bound : ses.sesbuf.pos + n ≤ sessionBufsize ∨ n = 0 := by
      unfold DataStorage.Puttable at puttable
      omega
    have put : ds.Adds Effect.Inside ds' := .one trace fun i above below => by omega
    have flushed := flush_adds vol Effect.Inside ses' ds' trivial
      Effect.Closing.inside
    have fits'' := flush_fits vol ds' fits'
    have anew := flush_room vol ses' ds'
    generalize flush vol ses' ds' = result at flushed fits'' anew ⊢
    obtain ⟨_ | _, ses'', ds''⟩ := result
    · exact put.trans flushed
    · dsimp only at flushed fits'' ⊢
      split
      · refine put.trans (flushed.trans (inductionHypothesis ses'' ds'' _ fits'' ?_))
        unfold DataStorage.Puttable at puttable ⊢
        rw [List.length_drop]
        have anew := anew rfl
        dsimp only at anew
        rcases anew with ⟨same, _⟩ | ⟨start, empty⟩
        · rw [same]
          omega
        · omega
      · exact put.trans flushed

/-- When there is room behind the position, every copy of the loop is inside the buffer.

Proof: the first pass is by the hypothesis. A pass that is followed by another has filled the
buffer and saved it, and from then on position and length are level. -/
theorem putSessionData_inside (ses : Session) (ds : IWDS) (data : Bytes)
    (fits : ses.sesbuf.Fits) (puttable : ses.sesbuf.Puttable data.length) :
    ds.Adds Effect.Inside (putSessionData vol ses ds data).ds := by
  unfold putSessionData
  split
  · exact .refl _ ds
  · exact putLoop_inside vol _ ses ds data fits puttable

/-! ## Moves and requests -/

/-- A move that leaves the buffer alone at most closes. -/
theorem run_closing {ses : Session} {ds : IWDS} {dlen : Nat} {now : Int} {move : Move}
    (still : move.Still ses) :
    ds.Adds (Effect.Closing ses.dkey) (move.run vol ses ds dlen now).ds := by
  cases move with
  | resend =>
    unfold Move.run resend
    dsimp only
    split
    · exact .refl _ ds
    · exact closeData_adds { ses with disabled := true } ds
  | refuse =>
    unfold Move.run
    dsimp only
    rw [errsend_eq .update ses ds .illegalOpe empty_short]
    exact .refl _ ds
  | store => exact still.elim
  | advance =>
    have fin : ses.fin = true := still
    unfold Move.run nextData
    dsimp only
    rw [if_pos fin]
    exact .refl _ ds
  | abort => exact closeData_adds { ses with disabled := true } ds
  | pass => exact .refl _ ds

variable {vol} in

/-- The next block of a session that is running records what its encoder does. -/
theorem nextData_adds {kind : Effect → Prop} {ses : Session} {ds : IWDS} {now : Int}
    (running : ses.fin = false)
    (made : ds.Adds kind (makeTftpdataMsg vol ses ds tftpMsglenMax now).2.2) :
    ds.Adds kind (nextData vol ses ds now).ds := by
  rcases nextData_cases vol ds now running with
    ⟨_, _, _, _, same⟩ | ⟨_, _, _, same⟩ <;> rw [same] <;> exact made

/-- There is room for what the move copies. -/
def Session.RoomFor (ses : Session) : Move → Prop
  | .store dat => ses.sesbuf.Puttable dat.data.length
  | .advance => ses.fin = true ∨ ses.sesbuf.Takeable tftpDatalenMax
  | _ => True

variable {vol} in
/-- With room, the copies of a move stay inside the buffer. -/
theorem run_inside {ses : Session} {ds : IWDS} {dlen : Nat} {now : Int} {move : Move}
    (fits : ses.sesbuf.Fits) (room : ses.RoomFor move) :
    ds.Adds Effect.Inside (move.run vol ses ds dlen now).ds := by
  have steady (still : move.Still ses) : ds.Adds Effect.Inside (move.run vol ses ds dlen now).ds :=
    (run_closing vol still).mono Effect.Closing.inside
  cases move with
  | resend | refuse | abort | pass => exact steady trivial
  | store dat =>
    have put := putSessionData_inside vol (ses.noticed dlen) ds dat.data fits room
    show ds.Adds Effect.Inside (storeBlock vol ses ds dat dlen now).ds
    rw [storeBlock_eq]
    dsimp only
    split
    · split
      · exact put.trans ((closeData_adds _ _).mono Effect.Closing.inside)
      · exact put
    · exact put
  | advance =>
    cases running : ses.fin with
    | true => exact steady running
    | false =>
      have takeable : ses.sesbuf.Takeable tftpDatalenMax := by
        rcases room with fin | takeable
        · rw [running] at fin
          cases fin
        · exact takeable
      exact nextData_adds running (makeTftpdataMsg_inside vol ses ds tftpMsglenMax now fits takeable)

variable {vol} in

/-- A request copies nothing beyond the buffer of its new session. -/
theorem opening_inside {ds : IWDS} {rbuf : Bytes} {dlen : Nat} {client : Client} {now : Int}
    {newsock : Option Int} {p : Proc}
    (opening : Opening vol ds rbuf dlen client now newsock p) : ds.Adds Effect.Inside p.ds := by
  cases opening with
  | nothing _ _ same =>
    rw [same]
    exact .refl _ ds
  | socketless _ _ _ => exact .refl _ ds
  | reader req fd _ _ _ _ _ =>
    exact makeTftpdataMsg_inside vol _ ds tftpMsglenMax now (newSession_fits client req fd) (.inl rfl)
  | writer _ _ _ _ _ _ => exact .refl _ ds

/-! ## Steps -/

/-- The timer at most closes. -/
theorem resendAllsession_adds (t : Tick) (head : List Session) (ads : IWDS) (addr : Bytes)
    (addrlen : Nat) :
    ads.Adds (fun e => ∃ k, e.Closing k) (resendAllsession t head ads addr addrlen).ads := by
  induction head generalizing ads addr addrlen with
  | nil => exact .refl _ ads
  | cons pm rest inductionHypothesis =>
    rw [resendAllsession]
    split
    · exact inductionHypothesis ads addr addrlen
    · split
      · exact inductionHypothesis ads addr addrlen
      · split
        · refine IWDS.Adds.trans ?_ (inductionHypothesis _ addr addrlen)
          exact (closeData_adds { pm with disabled := true } ads).mono fun e is => ⟨_, is⟩
        · split
          · exact inductionHypothesis ads addr addrlen
          · exact inductionHypothesis ads _ _

/-- A tick does nothing to files but close them. -/
theorem tick_closing {st : Server} {t : Tick} {x : Effect}
    (member : x ∈ (endIteration st t).1.ads.trace) : ∃ k, x.Closing k :=
  (resendAllsession_adds t st.seshead { st.ads with faults := t.faults, trace := [] } t.addr
    sockaddrStorage).all rfl member

/-- With room for the blocks it moves, a step copies inside the buffers only. -/
theorem step_inside {st : Server} {e : Event} (inv : WellFormed host.toVolume st)
    (room : ∀ d c s, e = .datagram d → host.client d.src = some c →
      getSession st.seshead c = some s → s.RoomFor (st.move d s))
    {x : Effect} (member : x ∈ (step host st e).ads.trace) : x.Inside := by
  cases e with
  | tick t =>
    obtain ⟨k, closing⟩ := tick_closing member
    exact closing.inside
  | datagram d =>
    have member' : x ∈ (recv host st d).1.ads.trace := member
    cases named : host.client d.src with
    | none =>
      rw [recv_ignored named] at member'
      cases member'
    | some c =>
      rw [recv_eq named] at member'
      dsimp only at member'
      cases found : getSession st.seshead c with
      | some s =>
        rw [proc_move found] at member'
        exact (run_inside (inv.buffers s (session_mem found)) (room d c s rfl named found)).all rfl
          member'
      | none =>
        exact (opening_inside (proc_opening host d found)).all rfl member'

end Iwtftpd
