import Iwtftpd.Download
import Iwtftpd.Fetching
import Iwtftpd.Lifecycle

/-!
# Downloading a file that grows

A file that one client still uploads can be downloaded by another. The download
is not torn: what it delivers is the file exactly as it stood at one moment. A
stream that has not met the end of its file follows the file as it grows; once
it has met the end it keeps to it, and the moment is that one. Files only grow,
so at every time what was delivered is the beginning of what is there.
-/

namespace Iwtftpd

variable {host : Host} {vol : Volume}

/-! ## The file -/

/-- A step leaves a regular file, or appends to it. -/
theorem step_grows {st : Server} {e : Event} {place content : Bytes} (inv : WellFormed host.toVolume st)
    (file : st.ads.disk place = .regular content) :
    ∃ more, (step host st e).ads.disk place = .regular (content ++ more) := by
  have lives := ((step_effects host st e).lives inv.ads place).2
  have held {ds : IWDS} {bytes : Bytes}
      (life : ds.life place = .settled bytes ∨ ∃ k, ds.life place = .written k bytes) :
      ds.disk place = .regular bytes := by
    unfold IWDS.life at life
    cases there : ds.disk place with
    | absent | directory | device => simp [there] at life
    | regular content' =>
      simp only [there] at life
      cases writer : ds.writer place <;> simp_all
  have before : st.ads.life place = .settled content ∨ ∃ k, st.ads.life place = .written k content := by
    simp only [IWDS.life, file]
    cases st.ads.writer place with
    | none => exact .inl rfl
    | some d => exact .inr ⟨d.key, rfl⟩
  generalize after : (step host st e).ads.life place = life at lives
  have same : ∃ more, life = .settled (content ++ more) ∨ ∃ k, life = .written k (content ++ more) := by
    obtain settled | ⟨k, written⟩ := before
    · rw [settled] at lives
      cases lives
      exact ⟨[], .inl (by rw [List.append_nil])⟩
    · rw [written] at lives
      cases lives with
      | same => exact ⟨[], .inr ⟨k, by rw [List.append_nil]⟩⟩
      | grown _ _ more => exact ⟨more, .inr ⟨k, rfl⟩⟩
      | closed _ _ more => exact ⟨more, .inl rfl⟩
  obtain ⟨more, life⟩ := same
  rw [← after] at life
  exact ⟨more, held life⟩

/-! ## The stream -/

theorem encode_append (mode : TftpMode) (bytes more : Bytes) :
    mode.encode (bytes ++ more) = mode.encode bytes ++ mode.encode more := by
  cases mode with
  | octet => rfl
  | netascii => exact List.flatMap_append

/-- What is left of a stream that has not met the end grows with the file. -/
theorem left_append {fp : Stream} {content : Bytes} (inside : fp.off ≤ content.length) (more : Bytes) :
    fp.left (content ++ more) = fp.left content ++ if fp.eof then [] else more := by
  rw [Stream.left, Stream.left]
  cases fp.eof with
  | true => rfl
  | false => exact List.drop_append_of_le_length inside

/-- What is pending grows by the encoding of what was appended, until the stream meets the end. -/
theorem Delivering.grown {content : Bytes} {s : Session} {ds : IWDS} {rest : Bytes}
    (delivering : Delivering vol content s ds rest) (inside : (s.reader vol ds).fp.off ≤ content.length)
    (more : Bytes) :
    let appended := if (s.reader vol ds).fp.eof then [] else more
    Delivering vol (content ++ more) s ds (rest ++ appended) ∧
      s.pending (rest ++ appended) = s.pending rest ++ s.tftpmode.encode appended := by
  obtain ⟨⟨fits, window, mode, split⟩, halfway⟩ := delivering
  intro appended
  have whole : rest ++ appended = s.unread ++ (s.reader vol ds).fp.left (content ++ more) := by
    rw [left_append inside, split, List.append_assoc]
  refine ⟨⟨⟨fits, window, mode, whole⟩, fun half => ?_⟩, ?_⟩
  · obtain ⟨netascii, loaded, first⟩ := halfway half
    refine ⟨netascii, loaded, ?_⟩
    rw [List.head?_append, first]
    rfl
  · rw [Session.pending, Session.pending, encode_append]
    cases half : s.sesbuf.fopt with
    | false => rfl
    | true =>
      obtain ⟨netascii, -, first⟩ := halfway half
      obtain ⟨tail, rfl⟩ := List.head?_eq_some_iff.mp first
      rw [netascii]
      exact List.drop_append_of_le_length (by
        rw [TftpMode.encode, toNetascii_lf]
        exact Nat.le_add_left 1 _)

/-- The stream under a session stands inside its file. -/
theorem reader_inside {s : Session} {ds : IWDS} {content : Bytes} (inv : Consistent vol ds)
    (file : ds.disk (vol.node s.filename) = .regular content) : (s.reader vol ds).fp.off ≤ content.length := by
  rw [Session.reader]
  cases found : ds.at s.dkey with
  | none => exact Nat.zero_le _
  | some d =>
    have inside := inv.inside d (at_mem found)
    have name : d.filename = s.filename := congrArg Prod.snd (lookup_key found)
    rw [inv.placed d (at_mem found), name, file] at inside
    exact inside FileNode.noConfusion

/-- A stream that has met the end does not go back. -/
theorem refill_ended {s s' : Session} {ds ds' : IWDS} {outcome : Refill} (inv : Consistent vol ds)
    (ended : (s.reader vol ds).fp.eof = true) (result : refill vol s ds = (outcome, s', ds'))
    (fine : outcome ≠ .failed) : (s'.reader vol ds').fp.eof = true := by
  rw [refill] at result
  split at result
  · have load := loadData_cases s inv
    generalize loadData vol s ds = r at load result
    cases load with
    | failed s₁ ds₁ _ _ _ =>
      cases result
      exact absurd rfl fine
    | filled content ds₁ _ _ _ linked _ _ =>
      cases result
      have linked' : ds'.at (s.loaded ((s.reader vol ds).fp.ahead content)).dkey =
        some ((s.reader vol ds).advanced content) := linked
      rw [Session.reader, linked', Option.getD_some, DSession.advanced, ended]
      rfl
  · cases result
    exact ended

theorem takePiece_reader (s : Session) (ds : IWDS) (room : Nat) :
    (takePiece s ds room).2.1.reader vol (takePiece s ds room).2.2 = s.reader vol ds := by
  have key : (takePiece s ds room).2.1.dkey = s.dkey := dkey_of_ident (takePiece_only s ds room).ident
  have node : (takePiece s ds room).2.2.at s.dkey = ds.at s.dkey := by
    unfold takePiece
    dsimp only
    split <;> rfl
  rw [Session.reader, Session.reader, key, node]

theorem getLoop_ended (fuel : Nat) {s : Session} {ds : IWDS} (room : Nat) (out : Bytes)
    (inv : Consistent vol ds) (ended : (s.reader vol ds).fp.eof = true)
    (done : (getLoop vol fuel s ds room out).status = .done) :
    ((getLoop vol fuel s ds room out).ses.reader vol (getLoop vol fuel s ds room out).ds).fp.eof = true := by
  induction fuel generalizing s ds room out with
  | zero => cases done
  | succ fuel inductionHypothesis =>
    have chain := refill_chain vol s ds
    cases refilled : refill vol s ds with
    | mk outcome r =>
      obtain ⟨s₁, ds₁⟩ := r
      rw [refilled] at chain
      cases outcome with
      | failed =>
        rw [getLoop_failed refilled] at done
        cases done
      | eof =>
        rw [getLoop_eof refilled]
        exact refill_ended inv ended refilled nofun
      | ready =>
        have ended₁ := refill_ended inv ended refilled nofun
        have inv₁ : Consistent vol (takePiece s₁ ds₁ room).2.2 :=
          (takePiece_chain vol s₁ ds₁ room s.dkey).consistent (chain.consistent inv)
        rw [← takePiece_reader s₁ ds₁ room] at ended₁
        rw [getLoop_ready refilled] at done ⊢
        split
        · rename_i less
          rw [if_pos less] at done
          exact inductionHypothesis _ _ inv₁ ended₁ done
        · exact ended₁

/-- Nor does a message that is made and is not the last. -/
theorem makeTftpdataMsg_reader {s : Session} {ds : IWDS} {now : Int} {msg : Bytes} (inv : Consistent vol ds)
    (ended : (s.reader vol ds).fp.eof = true)
    (made : (makeTftpdataMsg vol s ds tftpMsglenMax now).1 = some msg)
    (more : (makeTftpdataMsg vol s ds tftpMsglenMax now).2.1.fin = false) :
    ((makeTftpdataMsg vol s ds tftpMsglenMax now).2.1.reader vol
      (makeTftpdataMsg vol s ds tftpMsglenMax now).2.2).fp.eof = true := by
  have numbered : (({ s with blknum := nextBlk s.blknum } : Session).reader vol ds).fp.eof = true := ended
  have stays := getLoop_ended (tftpDatalenMax + 1) tftpDatalenMax [] inv numbered
  rw [← getSessionData] at stays
  rw [makeTftpdataMsg, if_neg (Nat.lt_irrefl _)] at made more ⊢
  dsimp only at made more ⊢
  generalize getSessionData vol { s with blknum := nextBlk s.blknum } ds tftpDatalenMax = r
    at made more stays ⊢
  cases status : r.status with
  | done =>
    rw [status] at more
    dsimp only at more ⊢
    by_cases short : r.out.length < tftpDatalenMax
    · rw [(finIfShort_steps vol r.ses r.ds r.out).2, decide_eq_true short, Bool.or_true] at more
      cases more
    · rw [finIfShort, if_neg short]
      exact stays status
  | err | running =>
    rw [status] at made
    cases made

/-! ## The session -/

/-- The session has sent the first blocks of the file as it was seen, and holds the rest of that. It
was seen as it is now, or its end was met. -/
structure Trails (vol : Volume) (mode : TftpMode) (place content seen : Bytes) (n : Nat) (s : Session)
    (ads : IWDS) : Prop where
  modename : s.tftpmode = mode
  socket : 0 ≤ s.clsock
  name : vol.node s.filename = place
  number : s.blknum = UInt16.ofNat n
  within : tftpDatalenMax * n ≤ (mode.encode seen).length
  rest : ∃ rest, Delivering vol content s ads rest ∧
    s.pending rest = (mode.encode seen).drop (tftpDatalenMax * n)
  moment : seen = content ∨ (s.reader vol ads).fp.eof = true

variable {mode : TftpMode} {place content seen : Bytes} {n : Nat}

theorem Trails.congr {s s' : Session} {ads ads' : IWDS} (trails : Trails vol mode place content seen n s ads)
    (sesbuf : s'.sesbuf = s.sesbuf) (ident : s'.ident = s.ident) (blknum : s'.blknum = s.blknum)
    (node : ads'.at s.dkey = ads.at s.dkey) : Trails vol mode place content seen n s' ads' where
  modename := (mode_of_ident ident).trans trails.modename
  socket := clsock_of_ident ident ▸ trails.socket
  name := filename_of_ident ident ▸ trails.name
  number := blknum.trans trails.number
  within := trails.within
  rest := by
    obtain ⟨rest, delivering, pending⟩ := trails.rest
    exact ⟨rest, delivering.congr sesbuf ident node, (pending_congr rest sesbuf ident).trans pending⟩
  moment := by
    have reader : s'.reader vol ads' = s.reader vol ads := by
      rw [Session.reader, Session.reader, dkey_of_ident ident, node]
    rw [reader]
    exact trails.moment

/-- When the file grows, the session goes over to what it is now, unless it has met the end. -/
theorem Trails.grown {s : Session} {ads : IWDS} (trails : Trails vol mode place content seen n s ads)
    (inside : (s.reader vol ads).fp.off ≤ content.length) (more : Bytes) :
    ∃ later, Trails vol mode place (content ++ more) (seen ++ later) n s ads ∧
      (later = [] ∨ seen ++ later = content ++ more) := by
  obtain ⟨rest, delivering, pending⟩ := trails.rest
  have further := delivering.grown inside more
  dsimp only at further
  cases eof : (s.reader vol ads).fp.eof with
  | true =>
    rw [eof, if_pos rfl, List.append_nil] at further
    refine ⟨[], ?_, .inl rfl⟩
    rw [List.append_nil]
    exact { trails with rest := ⟨rest, further.1, pending⟩, moment := .inr eof }
  | false =>
    rw [eof, if_neg Bool.false_ne_true] at further
    have now : seen = content := trails.moment.resolve_right (by rw [eof]; exact Bool.false_ne_true)
    have longer : (mode.encode (seen ++ more)).length = (mode.encode seen).length + (mode.encode more).length := by
      rw [encode_append, List.length_append]
    have within := trails.within
    refine ⟨more, { trails with
      within := by omega
      rest := ⟨rest ++ more, further.1, ?_⟩
      moment := .inl (by rw [now]) }, .inr (by rw [now])⟩
    rw [further.2, pending, trails.modename, encode_append, List.drop_append_of_le_length within]

/-- The next block that is made is one of the file as it was seen. -/
theorem Trails.make {s : Session} {ads : IWDS} {now : Int} {msg : Bytes}
    (trails : Trails vol mode place content seen n s ads) (inv : Consistent vol ads)
    (file : ads.disk place = .regular content)
    (made : (makeTftpdataMsg vol s ads tftpMsglenMax now).1 = some msg) :
    msg = dataMsg (UInt16.ofNat (n + 1)) (Blocks.block tftpDatalenMax (mode.encode seen) n) ∧
      ((makeTftpdataMsg vol s ads tftpMsglenMax now).2.1.fin = false →
        Trails vol mode place content seen (n + 1) (makeTftpdataMsg vol s ads tftpMsglenMax now).2.1
          (makeTftpdataMsg vol s ads tftpMsglenMax now).2.2) := by
  obtain ⟨rest, delivering, pending⟩ := trails.rest
  obtain ⟨rfl, next⟩ := delivering.makeTftpdataMsg inv (trails.name ▸ file) made
  have ident := (makeTftpdataMsg_steps vol s ads tftpMsglenMax now).2.1
  obtain ⟨-, -, -, blknum⟩ := makeTftpdataMsg_data made
  have ended := makeTftpdataMsg_ended made
  have stays (eof : (s.reader vol ads).fp.eof = true) := makeTftpdataMsg_reader inv eof made
  generalize makeTftpdataMsg vol s ads tftpMsglenMax now = r at *
  refine ⟨?_, fun running => ?_⟩
  · rw [trails.number, nextBlk_ofNat, pending]
    rfl
  · have long : ¬ (s.pending rest).length < tftpDatalenMax := by
      rw [ended, Bool.or_eq_false_iff, decide_eq_false_iff_not, List.length_take] at running
      omega
    obtain ⟨rest', delivering', pending'⟩ := next.resolve_left long
    rw [pending, List.length_drop] at long
    have within := trails.within
    exact
      { modename := (mode_of_ident ident).trans trails.modename
        socket := clsock_of_ident ident ▸ trails.socket
        name := filename_of_ident ident ▸ trails.name
        number := by rw [blknum, trails.number, nextBlk_ofNat]
        within := by
          rw [Nat.mul_succ]
          omega
        rest := ⟨rest', delivering', by rw [pending', pending, List.drop_drop, Nat.mul_succ]⟩
        moment := trails.moment.imp_right fun eof => stays eof running }

/-! ## The run -/

/-- What the client sends is the ACK of the block that its session waits on. Files may grow, calls may
fail, and the others do what they like. -/
def Acking (host : Host) (c : Client) (st : Server) (e : Event) : Prop :=
  Admissible st e ∧ ∀ d, e = .datagram d → host.client d.src = some c →
    ∃ s, getSession st.seshead c = some s ∧ s.Active ∧ d.bytes = ackMsg s.blknum

/-- DATA among some messages. -/
def dataOf (msgs : List Bytes) : List Bytes := msgs.filter fun m => opcodeOf m = opData

/-- DATA that answers the client. -/
def dataTo (host : Host) (c : Client) (st : Server) (events : List Event) : List Bytes :=
  dataOf (answers host c st events)

theorem answers_snoc (c : Client) (st : Server) (events : List Event) (e : Event) :
    answers host c st (events ++ [e]) = answers host c st events ++
      if e.From host c then (outputs host (Runs.exec (step host) st events) e).map Sent.msg else [] := by
  induction events generalizing st with
  | nil => simp [answers, Runs.exec]
  | cons first rest inductionHypothesis =>
    rw [List.cons_append, answers, inductionHypothesis, answers, List.append_assoc]
    rfl

theorem dataTo_snoc (c : Client) (st : Server) (events : List Event) (e : Event) :
    dataTo host c st (events ++ [e]) = dataTo host c st events ++
      if e.From host c then dataOf ((outputs host (Runs.exec (step host) st events) e).map Sent.msg) else [] := by
  rw [dataTo, dataTo, answers_snoc, dataOf, dataOf, List.filter_append]
  split <;> rfl

theorem exec_snoc (st : Server) (events : List Event) (e : Event) :
    Runs.exec (step host) st (events ++ [e]) = step host (Runs.exec (step host) st events) e := by
  rw [Runs.exec_append]
  rfl

/-- After the events the file holds the content, and the client was sent the first blocks of the file
as it was seen at a moment before. -/
structure Untorn (host : Host) (c : Client) (mode : TftpMode) (place : Bytes) (start : Server)
    (events : List Event) (content seen : Bytes) (n : Nat) : Prop where
  wellFormed : WellFormed host.toVolume (Runs.exec (step host) start events)
  file : (Runs.exec (step host) start events).ads.disk place = .regular content
  later : seen <+: content
  stood : ∃ before after, events = before ++ after ∧
    (Runs.exec (step host) start before).ads.disk place = .regular seen
  blocks : dataTo host c start events = (List.range n).map
    fun i => dataMsg (UInt16.ofNat (i + 1)) (Blocks.block tftpDatalenMax (mode.encode seen) i)
  count : n ≤ (mode.encode seen).length / tftpDatalenMax + 1
  session : ∀ s, getSession (Runs.exec (step host) start events).seshead c = some s → s.Active →
    Trails host.toVolume mode place content seen n s (Runs.exec (step host) start events).ads

variable {c : Client} {start : Server} {events : List Event} {e : Event}

/-- The blocks that were sent are blocks of the file as it is seen later. -/
theorem blocks_later (whole : tftpDatalenMax * n ≤ (mode.encode seen).length) (later : Bytes) :
    ((List.range n).map fun i =>
        dataMsg (UInt16.ofNat (i + 1)) (Blocks.block tftpDatalenMax (mode.encode (seen ++ later)) i)) =
      (List.range n).map fun i =>
        dataMsg (UInt16.ofNat (i + 1)) (Blocks.block tftpDatalenMax (mode.encode seen) i) := by
  refine List.map_congr_left fun i member => ?_
  have below : i + 1 ≤ n := List.mem_range.mp member
  have inside := (Nat.mul_le_mul_left tftpDatalenMax below).trans whole
  rw [encode_append, Blocks.block_append inside]

/-- A step of another client, or of the timer. -/
theorem Untorn.other (untorn : Untorn host c mode place start events content seen n)
    (admissible : Admissible (Runs.exec (step host) start events) e) (between : e.From host c = false) :
    ∃ content' seen', Untorn host c mode place start (events ++ [e]) content' seen' n := by
  obtain ⟨more, file⟩ := step_grows untorn.wellFormed untorn.file
  have wellFormed := untorn.wellFormed.step admissible
  have silent : dataTo host c start (events ++ [e]) = dataTo host c start events := by
    rw [dataTo_snoc, between]
    exact List.append_nil _
  rw [← exec_snoc] at file wellFormed
  have onward : content <+: content ++ more := List.prefix_append content more
  obtain ⟨before, after, split, stood⟩ := untorn.stood
  have remains : ∃ before after, events ++ [e] = before ++ after ∧
      (Runs.exec (step host) start before).ads.disk place = .regular seen :=
    ⟨before, after ++ [e], by rw [split, List.append_assoc], stood⟩
  by_cases present : ∃ s', getSession (Runs.exec (step host) start (events ++ [e])).seshead c = some s' ∧ s'.Active
  · obtain ⟨s', found', running', enabled'⟩ := present
    rw [exec_snoc] at found'
    obtain ⟨_, s, found, aged, enabled, undisturbed⟩ :=
      step_between untorn.wellFormed admissible between found' enabled'
    have trails := untorn.session s found ⟨aged.fin.symm.trans running', enabled⟩
    have inside := reader_inside untorn.wellFormed.ads (trails.name.symm ▸ untorn.file)
    obtain ⟨added, trails', moment⟩ := trails.grown inside more
    have node := (undisturbed trails.socket).node
    rw [← exec_snoc] at node found'
    have within := trails.within
    have quotient : n ≤ (mode.encode (seen ++ added)).length / tftpDatalenMax := by
      apply (Nat.le_div_iff_mul_le (by decide)).mpr
      rw [Nat.mul_comm]
      exact trails'.within
    refine ⟨content ++ more, seen ++ added, wellFormed, file, ?_, ?_, ?_, Nat.le_succ_of_le quotient, ?_⟩
    · obtain rfl | now := moment
      · rw [List.append_nil]
        exact untorn.later.trans onward
      · exact ⟨[], by rw [List.append_nil, now]⟩
    · obtain rfl | now := moment
      · rw [List.append_nil]
        exact remains
      · exact ⟨events ++ [e], [], (List.append_nil _).symm, by rw [file, now]⟩
    · rw [silent, untorn.blocks, blocks_later within]
    · intro t found'' _
      obtain rfl := Option.some.inj (found'.symm.trans found'')
      exact trails'.congr aged.sesbuf aged.ident aged.blknum node
  · refine ⟨content ++ more, seen, wellFormed, file, untorn.later.trans onward, remains, ?_, untorn.count, ?_⟩
    · rw [silent, untorn.blocks]
    · exact fun s' found active => absurd ⟨s', found, active⟩ present

/-- An ACK is answered with the next block, or with an ERROR that ends the session. -/
theorem Untorn.own {d : Datagram} (untorn : Untorn host c mode place start events content seen n)
    (named : host.client d.src = some c)
    (acking : Acking host c (Runs.exec (step host) start events) (.datagram d)) :
    ∃ n', Untorn host c mode place start (events ++ [.datagram d]) content seen n' := by
  obtain ⟨admissible, own⟩ := acking
  obtain ⟨s, found, active, bytes⟩ := own d rfl named
  have trails := untorn.session s found active
  have wellFormed := untorn.wellFormed.step admissible
  have sent : dataTo host c start (events ++ [.datagram d]) = dataTo host c start events ++
      dataOf ((recv host (Runs.exec (step host) start events) d).2.map Sent.msg) := by
    rw [dataTo_snoc, if_pos (Event.from_datagram named)]
    rfl
  have next : Runs.exec (step host) start (events ++ [.datagram d]) =
      (recv host (Runs.exec (step host) start events) d).1 := exec_snoc start events (.datagram d)
  obtain ⟨before, after, split, stood⟩ := untorn.stood
  have remains : ∃ before after, events ++ [.datagram d] = before ++ after ∧
      (Runs.exec (step host) start before).ads.disk place = .regular seen :=
    ⟨before, after ++ [.datagram d], by rw [split, List.append_assoc], stood⟩
  have file := untorn.file
  have consistent := untorn.wellFormed.ads
  have blocks := untorn.blocks
  rw [← exec_snoc] at wellFormed
  generalize Runs.exec (step host) start events = st at *
  have received : Consistent host.toVolume (st.receive d).ads := consistent.congr rfl rfl
  have trails' : Trails host.toVolume mode place content seen n s (st.receive d).ads := trails.congr rfl rfl rfl rfl
  have move : st.move d s = .advance := by
    rw [move_ackMsg st s bytes, if_neg (by omega), if_pos rfl]
  have call : st.proc host d c = nextData host.toVolume s (st.receive d).ads d.now := by
    rw [proc_move found, move]
    rfl
  have handled := proc_handled host d found
  have found' := getSession_recv named found
  have disk := makeTftpdataMsg_disk s tftpMsglenMax d.now received
  have disabled := (makeTftpdataMsg_steps host.toVolume s (st.receive d).ads tftpMsglenMax d.now).2.2.1
  have made (msg : Bytes)
      (some : (makeTftpdataMsg host.toVolume s (st.receive d).ads tftpMsglenMax d.now).1 = some msg) :=
    trails'.make received file some
  obtain ⟨msg, some, fill, after, same⟩ | ⟨none, fill, after, same⟩ :=
    nextData_cases host.toVolume (st.receive d).ads d.now active.1
  all_goals
    rw [← call] at fill after same
    rw [after] at found'
  · obtain ⟨block, onward⟩ := made msg some
    have replied := replyOf_handled d ((st.proc host d c).fill.getD st.msg) handled (by
      rw [after]
      exact disabled.trans active.2)
    have reply : (recv host st d).2.map Sent.msg = [msg] := by
      rw [recv_eq named]
      dsimp only
      rw [replied, fill]
      rfl
    have kept : (recv host st d).1.ads = (makeTftpdataMsg host.toVolume s (st.receive d).ads tftpMsglenMax d.now).2.2 := by
      rw [recv_eq named]
      exact same
    refine ⟨n + 1, wellFormed, ?_, untorn.later, remains, ?_, ?_, ?_⟩
    · rw [next, kept, disk]
      exact file
    · rw [sent, blocks, reply, List.range_succ, List.map_append, block]
      have data : dataOf [dataMsg (UInt16.ofNat (n + 1)) (Blocks.block tftpDatalenMax (mode.encode seen) n)] =
          [dataMsg (UInt16.ofNat (n + 1)) (Blocks.block tftpDatalenMax (mode.encode seen) n)] :=
        List.filter_cons_of_pos (by rw [opcodeOf_dataMsg, decide_eq_true_eq])
      rw [data]
      rfl
    · apply Nat.succ_le_succ
      apply (Nat.le_div_iff_mul_le (by decide)).mpr
      rw [Nat.mul_comm]
      exact trails.within
    · intro t found'' enabled
      rw [next] at found'' ⊢
      obtain rfl := Option.some.inj (found'.symm.trans found'')
      rw [kept]
      exact onward enabled.1
  · refine ⟨n, wellFormed, ?_, untorn.later, remains, ?_, untorn.count, ?_⟩
    · rw [next, recv_eq named]
      dsimp only
      rw [same, disk]
      exact file
    · have silent : dataOf ((recv host st d).2.map Sent.msg) = [] := by
        refine List.filter_eq_nil_iff.mpr fun m member => ?_
        obtain ⟨reply, inside, rfl⟩ := List.mem_map.mp member
        rw [recv_eq named] at inside
        rw [replyOf_msg inside, fill, Option.getD_some, opcodeOf_errorMsg]
        decide
      rw [sent, silent, List.append_nil, blocks]
    · intro t found'' enabled
      rw [next] at found''
      obtain rfl := Option.some.inj (found'.symm.trans found'')
      cases enabled.1

theorem Untorn.run {more : List Event} (untorn : Untorn host c mode place start events content seen n)
    (admitted : Runs.Admits (step host) (Acking host c) (Runs.exec (step host) start events) more) :
    ∃ content' seen' n', Untorn host c mode place start (events ++ more) content' seen' n' := by
  induction more generalizing events content seen n with
  | nil => exact ⟨content, seen, n, by rwa [List.append_nil]⟩
  | cons e rest inductionHypothesis =>
    obtain ⟨acking, following⟩ := admitted
    rw [← exec_snoc] at following
    have next : ∃ content' seen' n', Untorn host c mode place start (events ++ [e]) content' seen' n' := by
      cases own : e.From host c with
      | false =>
        obtain ⟨content', seen', next⟩ := untorn.other acking.1 own
        exact ⟨content', seen', n, next⟩
      | true =>
        cases e with
        | tick t => cases own
        | datagram d =>
          obtain ⟨n', next⟩ := untorn.own (of_decide_eq_true own) acking
          exact ⟨content, seen, n', next⟩
    obtain ⟨content', seen', n', next⟩ := next
    obtain ⟨content'', seen'', n'', last⟩ := inductionHypothesis next following
    refine ⟨content'', seen'', n'', ?_⟩
    rwa [List.append_assoc] at last

/-! ## The request -/

/-- A client without a session asks for a regular file, be it finished or not, and gets a socket under
which no stream of the file was left behind. -/
structure Obtains (host : Host) (c : Client) (req : TftpReq) (fd : Int) (content : Bytes) (st : Server)
    (d : Datagram) : Prop where
  named : host.client d.src = some c
  fresh : getSession st.seshead c = none
  rrq : ofBe16 (st.receive d).rbuf = opRrq
  parsed : parseTftpreq (st.receive d).rbuf d.len = some req
  file : st.ads.disk (host.toVolume.node req.filename) = .regular content
  socket : d.newsock = some fd
  unread : Unread host.toVolume st d req.filename

/-- A new session that can make its first block is at the beginning of the file. -/
theorem Obtains.trails {req : TftpReq} {fd : Int} {d : Datagram} {msg : Bytes}
    (obtains : Obtains host c req fd content start d) (inv : WellFormed host.toVolume start)
    (admissible : Admissible start (.datagram d))
    (made : (makeTftpdataMsg host.toVolume (newSession c req fd) (start.receive d).ads tftpMsglenMax d.now).1 =
      some msg) :
    Trails host.toVolume req.mode (host.toVolume.node req.filename) content content 0 (newSession c req fd)
      (start.receive d).ads where
  modename := rfl
  socket := (admissible fd obtains.socket).1
  name := rfl
  number := rfl
  within := Nat.zero_le _
  rest :=
    ⟨content, newSession_delivering (inv.ads.congr rfl rfl) obtains.unread obtains.socket obtains.file made, rfl⟩
  moment := .inl rfl

/-- The request is answered with the first block, or with an ERROR that ends the session. -/
theorem Obtains.untorn {req : TftpReq} {fd : Int} {d : Datagram} (obtains : Obtains host c req fd content start d)
    (inv : WellFormed host.toVolume start) (admissible : Admissible start (.datagram d)) :
    ∃ n, Untorn host c req.mode (host.toVolume.node req.filename) start [.datagram d] content content n := by
  have named := obtains.named
  have received : Consistent host.toVolume (start.receive d).ads := inv.ads.congr rfl rfl
  have wellFormed : WellFormed host.toVolume (Runs.exec (step host) start [.datagram d]) := inv.step admissible
  have trails (msg : Bytes)
      (made : (makeTftpdataMsg host.toVolume (newSession c req fd) (start.receive d).ads tftpMsglenMax d.now).1 =
        some msg) :=
    obtains.trails inv admissible made
  have call := (proc_reader host obtains.fresh obtains.rrq obtains.parsed obtains.file obtains.socket).trans
    (startTransfer_rrq c req fd (start.receive d).ads d.now)
  have key : (startReader host.toVolume c req fd (start.receive d).ads d.now).key = c :=
    startReader_key c req fd (start.receive d).ads d.now
  have found := getSession_opened named (by rw [call]) key
  have disk := makeTftpdataMsg_disk (newSession c req fd) tftpMsglenMax d.now received
  have disabled := (makeTftpdataMsg_steps host.toVolume (newSession c req fd) (start.receive d).ads tftpMsglenMax
    d.now).2.2.1
  have after : recv host start d = _ := recv_eq named
  rw [call] at after
  have sent : dataTo host c start [.datagram d] = dataOf ((recv host start d).2.map Sent.msg) := by
    rw [dataTo, answers, answers, if_pos (Event.from_datagram named), List.append_nil]
    rfl
  have stood : ∃ before after, [Event.datagram d] = before ++ after ∧
      (Runs.exec (step host) start before).ads.disk (host.toVolume.node req.filename) = .regular content :=
    ⟨[], [.datagram d], rfl, obtains.file⟩
  have file : (Runs.exec (step host) start [.datagram d]).ads.disk (host.toVolume.node req.filename) =
      .regular content := by
    show (recv host start d).1.ads.disk _ = _
    rw [after]
    dsimp only
    rw [disk]
    exact obtains.file
  have present (s : Session)
      (found' : getSession (Runs.exec (step host) start [.datagram d]).seshead c = some s) :
      startReader host.toVolume c req fd (start.receive d).ads d.now = s := Option.some.inj (found.symm.trans found')
  have ads : (Runs.exec (step host) start [.datagram d]).ads =
      (makeTftpdataMsg host.toVolume (newSession c req fd) (start.receive d).ads tftpMsglenMax d.now).2.2 := by
    show (recv host start d).1.ads = _
    rw [after]
  cases made : (makeTftpdataMsg host.toVolume (newSession c req fd) (start.receive d).ads tftpMsglenMax d.now).1 with
  | none =>
    refine ⟨0, wellFormed, file, List.prefix_refl content, stood, ?_, Nat.zero_le _, fun s found' active => ?_⟩
    · have silent : dataOf ((recv host start d).2.map Sent.msg) = [] := by
        refine List.filter_eq_nil_iff.mpr fun m member => ?_
        obtain ⟨reply, inside, rfl⟩ := List.mem_map.mp member
        rw [after] at inside
        dsimp only at inside
        rw [replyOf_msg inside, Option.getD_some, made, Option.getD_none, opcodeOf_errorMsg]
        decide
      rw [sent, silent]
      rfl
    · obtain rfl := present s found'
      rw [startReader, made, if_pos rfl] at active
      cases active.1
  | some msg =>
    have reader : startReader host.toVolume c req fd (start.receive d).ads d.now =
        (makeTftpdataMsg host.toVolume (newSession c req fd) (start.receive d).ads tftpMsglenMax d.now).2.1 := by
      rw [startReader, made]
      rfl
    obtain ⟨block, onward⟩ := (trails msg made).make received obtains.file made
    refine ⟨1, wellFormed, file, List.prefix_refl content, stood, ?_, Nat.le_add_left 1 _, fun s found' active => ?_⟩
    · have reply : (recv host start d).2.map Sent.msg = [msg] := by
        rw [after, made, reader]
        dsimp only
        rw [replyOf]
        dsimp only
        rw [if_neg Bool.noConfusion, if_neg (by rw [disabled]; exact Bool.noConfusion)]
        rfl
      rw [sent, reply, block]
      exact List.filter_cons_of_pos (by rw [opcodeOf_dataMsg, decide_eq_true_eq])
    · obtain rfl := present s found'
      rw [ads, reader]
      rw [reader] at active
      exact onward active.1

/-! ## What was delivered -/

/-- What the client has been sent is the file as it stood at a moment of the transfer: the DATA are its
first blocks, and once one of them was short their payloads are all of it. That is still the beginning
of what the file holds. -/
structure Snapshot (host : Host) (c : Client) (mode : TftpMode) (place : Bytes) (start : Server)
    (events : List Event) (seen : Bytes) : Prop where
  stood : ∃ before after, events = before ++ after ∧
    (Runs.exec (step host) start before).ads.disk place = .regular seen
  blocks : ∃ n, dataTo host c start events = (List.range n).map
    fun i => dataMsg (UInt16.ofNat (i + 1)) (Blocks.block tftpDatalenMax (mode.encode seen) i)
  front : ((dataTo host c start events).map (List.drop 4)).flatten <+: mode.encode seen
  whole : (∃ m ∈ dataTo host c start events, (m.drop 4).length < tftpDatalenMax) →
    ((dataTo host c start events).map (List.drop 4)).flatten = mode.encode seen
  later : ∃ content, (Runs.exec (step host) start events).ads.disk place = .regular content ∧ seen <+: content

theorem Untorn.snapshot (untorn : Untorn host c mode place start events content seen n) :
    Snapshot host c mode place start events seen := by
  have payloads : ((dataTo host c start events).map (List.drop 4)).flatten =
      (mode.encode seen).take (tftpDatalenMax * n) := by
    rw [untorn.blocks, List.map_map, ← Blocks.flatten_blocks]
    rfl
  refine ⟨untorn.stood, ⟨n, untorn.blocks⟩, ?_, ?_, content, untorn.file, untorn.later⟩
  · rw [payloads]
    exact List.take_prefix _ _
  · rintro ⟨m, member, short⟩
    rw [untorn.blocks] at member
    obtain ⟨i, below, rfl⟩ := List.mem_map.mp member
    have last := (Blocks.block_short (by decide) (mode.encode seen) i).mp short
    have below := List.mem_range.mp below
    rw [payloads, List.take_of_length_le]
    have past := Nat.lt_mul_div_succ (mode.encode seen).length (show 0 < tftpDatalenMax by decide)
    exact (Nat.le_of_lt past).trans (Nat.mul_le_mul_left tftpDatalenMax (by omega))

/-- A download beside anything else, uploads of the same file and failures included, in either
mode: what the client is sent while it acknowledges block after block is never torn.

Proof: what the session has in its buffer and ahead of it in the file is a rest of one content,
and the file only grows behind that, since no file is written twice. Each block is taken from the
front of the rest, so all of them are blocks of the one content. -/
theorem download_untorn {req : TftpReq} {fd : Int} {d : Datagram} (reachable : Reachable host start)
    (admissible : Admissible start (.datagram d)) (obtains : Obtains host c req fd content start d)
    (admitted : Runs.Admits (step host) (Acking host c) (step host start (.datagram d)) events) :
    ∃ seen, Snapshot host c req.mode (host.toVolume.node req.filename) start (.datagram d :: events) seen := by
  obtain ⟨n, first⟩ := obtains.untorn reachable.wellFormed admissible
  obtain ⟨content', seen, n', last⟩ := first.run admitted
  exact ⟨seen, last.snapshot⟩

/-- The ACK of the first block of the file. -/
def firstAck : Datagram := arrival [1] (ackMsg 1) none

theorem download_untorn_sample :
    ∃ seen, Snapshot smallHost ([1], 2000) .octet (smallHost.toVolume.node [102])
      (startOn (diskWith [102] servedFile)) [.datagram (fileRequest [1]), .datagram firstAck] seen := by
  have obtains : Obtains smallHost ([1], 2000) { filename := [102], mode := .octet } 5 servedFile
      (startOn (diskWith [102] servedFile)) (fileRequest [1]) :=
    ⟨rfl, rfl, by decide +kernel, by decide +kernel, by decide +kernel, rfl, fun _ _ _ _ node => by cases node⟩
  have admitted : Runs.Admits (step smallHost) (Acking smallHost ([1], 2000))
      (step smallHost (startOn (diskWith [102] servedFile)) (.datagram (fileRequest [1])))
      [.datagram firstAck] := by
    refine ⟨⟨?_, fun d same _ => ?_⟩, trivial⟩
    · intro fd socket
      cases socket
    · cases same
      have present : ∃ s ∈ getSession
          (step smallHost (startOn (diskWith [102] servedFile)) (.datagram (fileRequest [1]))).seshead ([1], 2000),
          (s.fin = false ∧ s.disabled = false) ∧ firstAck.bytes = ackMsg s.blknum := by
        decide +kernel
      exact present
  exact download_untorn (startOn_reachable _ _) (admissible_first rfl rfl (by decide)) obtains admitted

end Iwtftpd
