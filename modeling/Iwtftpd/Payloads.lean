import Iwtftpd.Netascii
import Iwtftpd.Readable

/-!
# The bytes of a download and what an upload makes of them

The calls of `get_session_data` for a session return the encoded file in pieces
of 512 bytes, whatever happens to the session's other fields and to the other
sessions between two calls. In netascii the encoded file has a CR before every
LF. `netascii_to_local` drops every CR, those of the file as well, so what a
file becomes when it is sent and stored again is the file without its CRs.
-/

namespace Iwtftpd

variable {host : Host} {vol : Volume}

/-! ## Successive calls of `get_session_data` -/

/-- What may happen between two calls for a session: its buffer, its identity, its stream and its
file stay. -/
structure Aside (vol : Volume) (s : Session) (ds : IWDS) (s' : Session) (ds' : IWDS) : Prop where
  sesbuf : s'.sesbuf = s.sesbuf
  ident : s'.ident = s.ident
  node : ds'.at s.dkey = ds.at s.dkey
  file : ds'.disk (vol.node s.filename) = ds.disk (vol.node s.filename)
  consistent : Consistent vol ds → Consistent vol ds'

/-- What happens before each call. -/
abbrev Between := Nat → Session → IWDS → Session × IWDS

/-- The calls for one block after the other. -/
def reply (vol : Volume) (between : Between) (s : Session) (ds : IWDS) : Nat → GetReply
  | 0 =>
    let next := between 0 s ds
    getSessionData vol next.1 next.2 tftpDatalenMax
  | i + 1 =>
    let r := reply vol between s ds i
    let next := between (i + 1) r.ses r.ds
    getSessionData vol next.1 next.2 tftpDatalenMax

/-- The bytes that a number of calls return. -/
def received (vol : Volume) (between : Between) (s : Session) (ds : IWDS) (count : Nat) : Bytes :=
  ((List.range count).map fun i => (reply vol between s ds i).out).flatten

/-- A session between two calls, with so many blocks of its file sent. -/
structure Partway (vol : Volume) (content : Bytes) (sent : Nat) (s : Session) (ds : IWDS) : Prop where
  consistent : Consistent vol ds
  file : ds.disk (vol.node s.filename) = .regular content
  pending : ∃ rest, Delivering vol content s ds rest ∧
    s.pending rest = (s.tftpmode.encode content).drop (tftpDatalenMax * sent)

theorem Partway.aside {content : Bytes} {sent : Nat} {s s' : Session} {ds ds' : IWDS}
    (partway : Partway vol content sent s ds) (aside : Aside vol s ds s' ds') :
    Partway vol content sent s' ds' := by
  obtain ⟨rest, delivering, left⟩ := partway.pending
  refine ⟨aside.consistent partway.consistent, ?_, rest, ?_, ?_⟩
  · rw [filename_of_ident aside.ident, aside.file]
    exact partway.file
  · exact delivering.congr aside.sesbuf aside.ident aside.node
  · rw [pending_congr rest aside.sesbuf aside.ident, left, mode_of_ident aside.ident]

/-- A call that comes to its end returns the next block. -/
theorem Partway.call {content : Bytes} {sent : Nat} {s : Session} {ds : IWDS}
    (partway : Partway vol content sent s ds)
    (done : (getSessionData vol s ds tftpDatalenMax).status = .done) :
    let r := getSessionData vol s ds tftpDatalenMax
    r.out = Blocks.block tftpDatalenMax (s.tftpmode.encode content) sent ∧
      r.ses.ident = s.ident ∧ Partway vol content (sent + 1) r.ses r.ds := by
  obtain ⟨rest, delivering, left⟩ := partway.pending
  obtain ⟨chain, only, -⟩ := getSessionData_steps vol s ds tftpDatalenMax
  have disk : (getSessionData vol s ds tftpDatalenMax).ds.disk = ds.disk :=
    getLoop_disk (tftpDatalenMax + 1) s tftpDatalenMax [] partway.consistent
  obtain ⟨out, rest', delivering', left'⟩ := delivering.getLoop (tftpDatalenMax + 1) []
    partway.consistent partway.file (by decide) (fun _ => by decide) done
  rw [left, List.nil_append] at out
  refine ⟨out, only.ident, chain.consistent partway.consistent, ?_, rest', delivering', ?_⟩
  · rw [disk, filename_of_ident only.ident]
    exact partway.file
  · rw [only.tftpmode, Nat.mul_succ, ← List.drop_drop, ← left]
    exact left'

/-- Where no call of stdio fails, the call comes to its end. -/
theorem Partway.done {content : Bytes} {sent : Nat} {s : Session} {ds : IWDS}
    (partway : Partway vol content sent s ds) (faultless : ds.faults = []) :
    (getSessionData vol s ds tftpDatalenMax).status = .done := by
  obtain ⟨rest, delivering, -⟩ := partway.pending
  apply (getSessionData_done_iff partway.consistent delivering.fits).mpr
  exact .inr ⟨content, partway.file, delivering.mode, clear_nil _ faultless⟩

/-- A new session whose descriptor and file have no node. -/
theorem Partway.fresh {content : Bytes} {client : Client} {req : TftpReq} {fd : Int} {ds : IWDS}
    (inv : Consistent vol ds) (unopened : ds.at (newSession client req fd).dkey = none)
    (file : ds.disk (vol.node req.filename) = .regular content) :
    Partway vol content 0 (newSession client req fd) ds := by
  have none : (newSession client req fd).unread = [] := List.take_zero
  have reader : (newSession client req fd).reader vol ds =
      opened vol (newSession client req fd).dkey .read := by
    rw [Session.reader, unopened]
    rfl
  refine ⟨inv, file, content, ⟨⟨newSession_fits client req fd, Nat.zero_le _, ?_, ?_⟩, (by rintro ⟨⟩)⟩, ?_⟩
  · rw [reader]
    rfl
  · rw [none, reader]
    rfl
  · rfl

/-- The calls up to some one succeed. -/
theorem reply_block {content : Bytes} {between : Between} {s : Session} {ds : IWDS}
    (partway : Partway vol content 0 s ds)
    (aside : ∀ i s ds, Aside vol s ds (between i s ds).1 (between i s ds).2) (i : Nat)
    (done : ∀ j ≤ i, (reply vol between s ds j).status = .done) :
    let r := reply vol between s ds i
    r.out = Blocks.block tftpDatalenMax (s.tftpmode.encode content) i ∧
      r.ses.ident = s.ident ∧ Partway vol content (i + 1) r.ses r.ds := by
  induction i with
  | zero =>
    have away := aside 0 s ds
    obtain ⟨out, ident, after⟩ := (partway.aside away).call (done 0 (Nat.le_refl 0))
    rw [mode_of_ident away.ident] at out
    exact ⟨out, ident.trans away.ident, after⟩
  | succ i inductionHypothesis =>
    obtain ⟨-, before, partway'⟩ := inductionHypothesis fun j less => done j (Nat.le_succ_of_le less)
    have away := aside (i + 1) (reply vol between s ds i).ses (reply vol between s ds i).ds
    obtain ⟨out, ident, after⟩ := (partway'.aside away).call (done (i + 1) (Nat.le_refl _))
    rw [mode_of_ident (away.ident.trans before)] at out
    exact ⟨out, ident.trans (away.ident.trans before), after⟩

/-- Without failures of stdio every call succeeds. -/
theorem reply_done {content : Bytes} {between : Between} {s : Session} {ds : IWDS}
    (partway : Partway vol content 0 s ds)
    (aside : ∀ i s ds, Aside vol s ds (between i s ds).1 (between i s ds).2)
    (faultless : ∀ i s ds, (between i s ds).2.faults = []) (i : Nat) :
    (reply vol between s ds i).status = .done := by
  induction i using Nat.strongRecOn with
  | ind i inductionHypothesis =>
    cases i with
    | zero => exact (partway.aside (aside 0 s ds)).done (faultless 0 s ds)
    | succ i =>
      obtain ⟨-, -, partway'⟩ := reply_block partway aside i fun j less =>
        inductionHypothesis j (Nat.lt_succ_of_le less)
      exact (partway'.aside (aside (i + 1) _ _)).done (faultless (i + 1) _ _)

/-- The calls for a new session return the blocks of the encoded file in order, the last of them
the first that is short, wherever refills and blocks end; and only a failure of stdio keeps a call
from returning.

Proof: what a session has still to deliver is the encoding of the rest of the file; a call takes
its block from the front of that, however refills fall, and what happens between the calls leaves
it alone. -/
theorem payloads_encoded {content : Bytes} {client : Client} {req : TftpReq} {fd : Int} {ds : IWDS}
    {between : Between} (inv : Consistent vol ds)
    (unopened : ds.at (newSession client req fd).dkey = none)
    (file : ds.disk (vol.node req.filename) = .regular content)
    (aside : ∀ i s ds, Aside vol s ds (between i s ds).1 (between i s ds).2) :
    let call := reply vol between (newSession client req fd) ds
    let encoded := req.mode.encode content
    (∀ i, (∀ j ≤ i, (call j).status = .done) →
      (call i).out = Blocks.block tftpDatalenMax encoded i ∧
        ((call i).out.length < tftpDatalenMax ↔ encoded.length / tftpDatalenMax ≤ i)) ∧
      ((∀ i s ds, (between i s ds).2.faults = []) → ∀ i, (call i).status = .done) := by
  have partway := Partway.fresh inv unopened file
  refine ⟨?_, fun faultless => reply_done partway aside faultless⟩
  intro i done
  obtain ⟨out, -, -⟩ := reply_block partway aside i done
  refine ⟨out, ?_⟩
  rw [out]
  exact Blocks.block_short (by decide) _ i

/-- The calls as `make_tftpdata_msg` makes them, which raises the block number; no call of stdio
fails. -/
def advancing : Between := fun _ s ds => ({ s with blknum := nextBlk s.blknum }, { ds with faults := [] })

theorem advancing_aside (i : Nat) (s : Session) (ds : IWDS) :
    Aside vol s ds (advancing i s ds).1 (advancing i s ds).2 :=
  ⟨rfl, rfl, rfl, rfl, fun inv => inv.congr rfl rfl⟩

/-- A line of 511 characters and one of a single character. -/
def twoLines : Bytes := List.replicate 511 97 ++ [lf, 98]

/-- The first block ends between the CR and the LF of the first line, and the second is short. -/
theorem payloads_encoded_sample :
    let call := reply smallHost.toVolume advancing (newSession ([1], 2000) ⟨[102], .netascii⟩ 5)
      (startOn (diskWith [102] twoLines)).ads
    (call 0).out = List.replicate 511 97 ++ [cr] ∧ (call 1).out = [lf, 98] := by
  have payloads := @payloads_encoded smallHost.toVolume twoLines ([1], 2000) ⟨[102], .netascii⟩ 5
    (startOn (diskWith [102] twoLines)).ads advancing (consistent_nil rfl) rfl (by decide +kernel)
    advancing_aside
  have done := payloads.2 fun _ _ _ => rfl
  have blocks : Blocks.block tftpDatalenMax (TftpMode.netascii.encode twoLines) 0 = List.replicate 511 97 ++ [cr] ∧
      Blocks.block tftpDatalenMax (TftpMode.netascii.encode twoLines) 1 = [lf, 98] := by decide +kernel
  exact ⟨(payloads.1 0 fun j _ => done j).1.trans blocks.1, (payloads.1 1 fun j _ => done j).1.trans blocks.2⟩

/-- Up to the first short block, the bytes returned are the encoded file. -/
theorem received_encoded {content : Bytes} {between : Between} {s : Session} {ds : IWDS}
    (partway : Partway vol content 0 s ds)
    (aside : ∀ i s ds, Aside vol s ds (between i s ds).1 (between i s ds).2)
    (faultless : ∀ i s ds, (between i s ds).2.faults = []) :
    received vol between s ds ((s.tftpmode.encode content).length / tftpDatalenMax + 1) =
      s.tftpmode.encode content := by
  have done := reply_done partway aside faultless
  have blocks : (fun i => (reply vol between s ds i).out) =
      Blocks.block tftpDatalenMax (s.tftpmode.encode content) := by
    funext i
    exact (reply_block partway aside i fun j _ => done j).1
  rw [received, blocks]
  exact Blocks.flatten_all (by decide) _

/-! ## Decoding what was encoded -/

/-- The bytes that a buffer holds. -/
def DataStorage.filled (sb : DataStorage) : Bytes := readAt sb.storage 0 sb.datalen

/-- The decoding of a stream that comes in pieces. A piece is handed to `netascii_to_local` until
nothing of it is left; the bytes in the buffer may be saved at any time, and what is in it at the end
is saved then. -/
inductive Decodes : DataStorage → List Bytes → Bytes → Prop where
  | nothing (sb : DataStorage) : Decodes sb [] sb.filled
  | next {sb : DataStorage} {pieces : List Bytes} {out : Bytes} (rest : Decodes sb pieces out) :
      Decodes sb ([] :: pieces) out
  | call {sb : DataStorage} {src : Bytes} {pieces : List Bytes} {out : Bytes} (more : src ≠ [])
      (rest : Decodes (netasciiToLocal sb src).2.1
        (src.drop (netasciiToLocal sb src).1 :: pieces) out) :
      Decodes sb (src :: pieces) out
  | save {sb : DataStorage} {pieces : List Bytes} {out : Bytes}
      (rest : Decodes { sb with pos := 0, datalen := 0 } pieces out) :
      Decodes sb pieces (sb.filled ++ out)

/-- A buffer that is filled from its beginning. -/
structure DataStorage.Level (sb : DataStorage) : Prop extends sb.Fits where
  level : sb.pos = sb.datalen

theorem netasciiToLocal_eq (sb : DataStorage) (src : Bytes) :
    (netasciiToLocal sb src).1 = TftpMode.netascii.consumed (sessionBufsize - sb.datalen) src ∧
      (netasciiToLocal sb src).2.1 =
        sb.put (TftpMode.netascii.piece (sessionBufsize - sb.datalen) src) := ⟨rfl, rfl⟩

theorem DataStorage.Level.emptied {sb : DataStorage} (level : sb.Level) :
    DataStorage.Level { sb with pos := 0, datalen := 0 } :=
  ⟨⟨level.size, Nat.zero_le _⟩, rfl⟩

/-- A piece that finds room is put behind what the buffer holds. -/
theorem DataStorage.Level.put {sb : DataStorage} (level : sb.Level) {piece : Bytes}
    (room : sb.datalen + piece.length ≤ sessionBufsize) :
    (sb.put piece).Level ∧ (sb.put piece).filled = sb.filled ++ piece := by
  obtain ⟨⟨size, short⟩, level⟩ := level
  have length : (sb.put piece).storage.length = sessionBufsize := by
    rw [DataStorage.put, writeAt_length, size]
  refine ⟨⟨⟨length, room⟩, ?_⟩, ?_⟩
  · show sb.pos + piece.length = sb.datalen + piece.length
    rw [level]
  · have before : sb.filled = sb.storage.take sb.datalen := by
      rw [DataStorage.filled, readAt_inside (by omega), List.drop_zero]
    have after : (sb.put piece).filled =
        (sb.put piece).storage.take (sb.datalen + piece.length) := by
      rw [DataStorage.filled, readAt_inside, List.drop_zero]
      · rfl
      · show 0 + (sb.datalen + piece.length) ≤ _
        omega
    rw [before, after, DataStorage.put, level, take_writeAt]
    omega

theorem piece_room (sb : DataStorage) (short : sb.datalen ≤ sessionBufsize) (src : Bytes) :
    sb.datalen + (TftpMode.netascii.piece (sessionBufsize - sb.datalen) src).length ≤
      sessionBufsize := by
  have shorter := piece_length .netascii (sessionBufsize - sb.datalen) src
  rw [List.length_take] at shorter
  omega

/-- What comes out is what the buffer held and the stream without its CRs, however the stream is
cut and whenever the buffer is saved. -/
theorem Decodes.kept {sb : DataStorage} {pieces : List Bytes} {out : Bytes}
    (decodes : Decodes sb pieces out) (level : sb.Level) :
    out = sb.filled ++ TftpMode.netascii.kept pieces.flatten := by
  induction decodes with
  | nothing sb =>
    show sb.filled = sb.filled ++ []
    rw [List.append_nil]
  | next _ inductionHypothesis =>
    rw [List.flatten_cons, List.nil_append]
    exact inductionHypothesis level
  | @call sb src pieces out _ _ inductionHypothesis =>
    obtain ⟨consumed, put⟩ := netasciiToLocal_eq sb src
    obtain ⟨level', filled⟩ := level.put (piece_room sb level.short src)
    have later := inductionHypothesis (put ▸ level')
    have append (first second : Bytes) : TftpMode.netascii.kept (first ++ second) =
        TftpMode.netascii.kept first ++ TftpMode.netascii.kept second := List.filter_append ..
    rw [put, filled, consumed, List.flatten_cons, append] at later
    rw [later, List.flatten_cons, append, kept_split .netascii (sessionBufsize - sb.datalen) src]
    simp only [List.append_assoc]
  | @save sb pieces out _ inductionHypothesis =>
    have emptied : DataStorage.filled { sb with pos := 0, datalen := 0 } = [] := by
      simp [DataStorage.filled, readAt]
    rw [inductionHypothesis level.emptied, emptied, List.nil_append]

/-- The bytes of a piece are used up. -/
theorem decodes_piece (size : Nat) {sb : DataStorage} {src : Bytes} {pieces : List Bytes}
    (rest : ∀ sb : DataStorage, sb.Level → ∃ out, Decodes sb pieces out) (level : sb.Level)
    (bound : src.length ≤ size) : ∃ out, Decodes sb (src :: pieces) out := by
  induction size generalizing sb src with
  | zero =>
    obtain ⟨out, decodes⟩ := rest sb level
    rw [List.eq_nil_of_length_eq_zero (Nat.le_zero.mp bound)]
    exact ⟨out, .next decodes⟩
  | succ size inductionHypothesis =>
    -- A call makes progress when the buffer has room, so the buffer is saved first.
    obtain ⟨consumed, put⟩ := netasciiToLocal_eq { sb with pos := 0, datalen := 0 } src
    by_cases more : src = []
    · obtain ⟨out, decodes⟩ := rest sb level
      exact ⟨out, more ▸ .next decodes⟩
    · have progress : 0 < (netasciiToLocal { sb with pos := 0, datalen := 0 } src).1 := by
        have some := List.length_pos_iff.mpr more
        have window : 0 < (src.take sessionBufsize).length := by
          rw [List.length_take]
          exact Nat.lt_min.mpr ⟨by decide, some⟩
        rw [consumed, TftpMode.consumed]
        dsimp only
        rw [Nat.sub_zero]
        split <;> omega
      have left : (src.drop (netasciiToLocal { sb with pos := 0, datalen := 0 } src).1).length ≤
          size := by
        rw [List.length_drop]
        omega
      have level' := (level.emptied.put (piece_room _ (Nat.zero_le _) src)).1
      obtain ⟨out, decodes⟩ := inductionHypothesis (put ▸ level') left
      exact ⟨_, .save (.call more decodes)⟩

/-- Every stream can be decoded, however it is cut. -/
theorem decodes_all (pieces : List Bytes) {sb : DataStorage} (level : sb.Level) :
    ∃ out, Decodes sb pieces out := by
  induction pieces generalizing sb with
  | nil => exact ⟨_, .nothing sb⟩
  | cons src pieces inductionHypothesis =>
    exact decodes_piece src.length (fun sb level => inductionHypothesis level) level (Nat.le_refl _)

theorem kept_toNetascii (content : Bytes) :
    TftpMode.netascii.kept (toNetascii content) = TftpMode.netascii.kept content := by
  show (toNetascii content).filter (· ≠ cr) = content.filter (· ≠ cr)
  induction content with
  | nil => rfl
  | cons b rest inductionHypothesis =>
    rw [toNetascii, List.flatMap_cons, List.filter_append, ← toNetascii, inductionHypothesis,
      List.filter_cons]
    by_cases isLf : b = lf
    · rw [isLf]
      rfl
    · rw [if_neg isLf]
      by_cases isCr : b = cr <;> simp [isCr]

/-- Only a file without CR is kept whole. -/
theorem kept_whole_iff (content : Bytes) :
    TftpMode.netascii.kept content = content ↔ cr ∉ content := by
  show content.filter (· ≠ cr) = content ↔ _
  rw [List.filter_eq_self]
  constructor
  · intro plain member
    simpa using plain cr member
  · intro free b member
    have other : b ≠ cr := fun same => free (same ▸ member)
    simpa using other

/-- A stream, however it is cut, is decoded to the content, with an empty buffer at the start. -/
def Restores (stream content : Bytes) : Prop :=
  ∀ pieces : List Bytes, pieces.flatten = stream → ∀ sb : DataStorage, sb.Level → sb.datalen = 0 →
    (∃ out, Decodes sb pieces out) ∧ ∀ out, Decodes sb pieces out → out = content

theorem restores_iff (content : Bytes) : Restores (toNetascii content) content ↔ cr ∉ content := by
  have result {pieces : List Bytes} (cut : pieces.flatten = toNetascii content) {sb : DataStorage}
      (level : sb.Level) (empty : sb.datalen = 0) {out : Bytes} (decodes : Decodes sb pieces out) :
      out = TftpMode.netascii.kept content := by
    have nothing : sb.filled = [] := by
      rw [DataStorage.filled, empty]
      exact List.take_zero
    rw [decodes.kept level, nothing, cut, kept_toNetascii, List.nil_append]
  constructor
  · intro restores
    have level : DataStorage.Level
        { pos := 0, fopt := false, datalen := 0, storage := List.replicate sessionBufsize 0 } :=
      ⟨⟨List.length_replicate, Nat.zero_le _⟩, rfl⟩
    have cut : [toNetascii content].flatten = toNetascii content := by simp
    obtain ⟨⟨out, decodes⟩, same⟩ := restores [toNetascii content] cut _ level rfl
    rw [← kept_whole_iff, ← result cut level rfl decodes]
    exact same out decodes
  · intro free pieces cut sb level empty
    refine ⟨decodes_all pieces level, ?_⟩
    intro out decodes
    rw [result cut level empty decodes]
    exact (kept_whole_iff content).mpr free

/-- What it takes for the session to store a block of what a download of the content delivers, so
that the file holds the content at the end. Where the last block leaves nothing to save, the file
must hold it already. -/
def Session.Returns (vol : Volume) (s : Session) (ds : IWDS) (data content : Bytes) : Prop :=
  if tftpDatalenMax ≤ data.length then
    s.Free vol ds ∨ s.sesbuf.datalen + (TftpMode.netascii.kept data).length < sessionBufsize
  else if s.sesbuf.datalen = 0 ∧ data = [] then ds.disk (vol.node s.filename) = .regular content
  else s.Keeps vol ds ∧ (s.Free vol ds ∧ NoEmptySave s.sesbuf.datalen data) ∧ cr ∉ content

instance (vol : Volume) (s : Session) (ds : IWDS) (data content : Bytes) :
    Decidable (s.Returns vol ds data content) := by
  unfold Session.Returns
  infer_instance

theorem Writing.returns_iff {total content : Bytes} {s : Session} {ds : IWDS} {dat : TftpData} (now : Int)
    (writing : Writing vol total s ds) (netascii : s.tftpmode = .netascii) (inv : Consistent vol ds)
    (faultless : ds.faults = []) (running : s.fin = false)
    (whole : dat.data.length < tftpDatalenMax →
      total ++ TftpMode.netascii.kept dat.data = TftpMode.netascii.kept content) :
    s.Completes vol content ds dat now ↔ s.Returns vol ds dat.data content := by
  rw [Session.Returns]
  split
  · rename_i long
    exact writing.completes_long content now netascii inv faultless running long
  · rename_i short
    have short := Nat.lt_of_not_le short
    split
    · rename_i idle
      exact completes_idle now idle.1 idle.2
    · rename_i busy
      by_cases keeps : s.Keeps vol ds
      · rw [writing.completes_last now netascii inv faultless short keeps busy, whole short,
          kept_whole_iff, and_iff_right keeps]
      · exact iff_of_false (fun completes => keeps (completes.keeps inv short)) fun returns => keeps returns.1

/-- The block comes to an enabled session that gives the content back. -/
def Returnable (host : Host) (c : Client) (u : Text) (content : Bytes) (p : Feeding) (e : Event) : Prop :=
  Met host c p e fun s => s.Returns host.toVolume p.server.ads (u.dat p.sent).data content

theorem Feeds.block_restored_iff {host : Host} {c : Client} {u : Text} {content : Bytes} {p : Feeding}
    {e : Event} (feeds : Feeds host c u p) (order : InOrder host c u p e)
    (stream : u.content = toNetascii content) :
    BlockStored host c u content p e ↔ Returnable host c u content p e := by
  refine feeds.block_stored_iff order fun d s within faultless fed received => ?_
  refine fed.writing.returns_iff d.now fed.netascii received faultless fed.running fun short => ?_
  rw [kept_last u ((short_iff_last u within).mp short), stream, kept_toNetascii]

/-- The stream that a download in netascii delivers is decoded to the file exactly when the file has
no CR. An upload of that stream leaves the file at its name exactly when every block comes to an
enabled session that can take it so that the content comes back.

Proof: the stream is the encoding of the content, whose decoding drops every CR, those of the content
too. Along the upload a session holds what was sent without the CRs; its last block is stored whole or
not at all, and then the file holds the content without its CRs. -/
theorem netascii_restored_iff {content : Bytes} {client : Client} {filename : Bytes} {fd : Int}
    {ds : IWDS} {between : Between} (inv : Consistent vol ds)
    (unopened : ds.at (newSession client ⟨filename, .netascii⟩ fd).dkey = none)
    (file : ds.disk (vol.node filename) = .regular content)
    (aside : ∀ i s ds, Aside vol s ds (between i s ds).1 (between i s ds).2)
    (faultless : ∀ i s ds, (between i s ds).2.faults = []) :
    let stream := received vol between (newSession client ⟨filename, .netascii⟩ fd) ds
      ((toNetascii content).length / tftpDatalenMax + 1)
    (Restores stream content ↔ cr ∉ content) ∧
      ∀ host c name st d events, Reachable host st → Admissible st (.datagram d) →
        Begins host c ⟨name, stream⟩ st d →
        Runs.Admits (feed host c) (InOrder host c ⟨name, stream⟩) (begun host st d) events →
        (Runs.Admits (feed host c) (BlockStored host c ⟨name, stream⟩ content) (begun host st d) events ↔
          Runs.Admits (feed host c) (Returnable host c ⟨name, stream⟩ content) (begun host st d) events) := by
  have stream := received_encoded (Partway.fresh inv unopened file) aside faultless
  have encoded : received vol between (newSession client ⟨filename, .netascii⟩ fd) ds
      ((toNetascii content).length / tftpDatalenMax + 1) = toNetascii content := stream
  dsimp only
  rw [encoded]
  refine ⟨restores_iff content, ?_⟩
  intro host c name st d events reachable admissible begins order
  apply order.agree_under (Feeds host c ⟨name, toNetascii content⟩)
    (begins.feeds reachable.wellFormed admissible)
  · intro p e feeds may stored
    exact feeds.step may stored
  · intro p e _ feeds may
    exact feeds.block_restored_iff may rfl

/-- What a download of a file delivers in netascii. -/
def delivered (content : Bytes) : Bytes :=
  received smallHost.toVolume advancing (newSession ([1], 2000) ⟨[102], .netascii⟩ 5)
    (startOn (diskWith [102] content)).ads ((toNetascii content).length / tftpDatalenMax + 1)

/-- The only block of the upload of what was delivered is stored and gives the content back. -/
def GivenBack (content : Bytes) : Prop :=
  Runs.Admits (feed smallHost ([1], 2000)) (BlockStored smallHost ([1], 2000) (oneLine (delivered content)) content)
    (begun smallHost (startOn fun _ => .absent) lineRequest) [lineBlock (delivered content)]

/-- The block comes to the session of the request, so it gives the content back if that session does. -/
theorem lineBlock_returnable {stream content : Bytes} :
    Runs.Admits (feed smallHost ([1], 2000)) (Returnable smallHost ([1], 2000) (oneLine stream) content)
        (begun smallHost (startOn fun _ => .absent) lineRequest) [lineBlock stream] ↔
      (startWriter ([1], 2000) ⟨[102], .netascii⟩ 5 0).Returns smallHost.toVolume
        (startOn fun _ => .absent).ads ((oneLine stream).dat 0).data content := by
  let st := (begun smallHost (startOn fun _ => .absent) lineRequest).server
  have found : getSession st.seshead ([1], 2000) = some (startWriter ([1], 2000) ⟨[102], .netascii⟩ 5 0) := rfl
  constructor
  · intro run
    obtain ⟨s, found', -, returns⟩ := run.1 _ rfl rfl
    obtain rfl := Option.some.inj (found.symm.trans found')
    exact returns
  · intro returns
    refine ⟨?_, trivial⟩
    rintro d ⟨⟩ _
    exact ⟨_, found, rfl, returns⟩

/-- A line is decoded and comes back. An empty line is decoded and does not come back: the CR
before its LF closes the file. -/
theorem netascii_restored_sample :
    Restores (delivered [97, lf]) [97, lf] ∧ GivenBack [97, lf] ∧
      Restores (delivered [lf]) [lf] ∧ ¬ GivenBack [lf] := by
  have run (content : Bytes) (file : (startOn (diskWith [102] content)).ads.disk
      (smallHost.toVolume.node [102]) = .regular content) :
      (Restores (delivered content) content ↔ cr ∉ content) ∧ (GivenBack content ↔
        Runs.Admits (feed smallHost ([1], 2000))
          (Returnable smallHost ([1], 2000) (oneLine (delivered content)) content)
          (begun smallHost (startOn fun _ => .absent) lineRequest) [lineBlock (delivered content)]) := by
    have both := @netascii_restored_iff smallHost.toVolume content ([1], 2000) [102] 5
      (startOn (diskWith [102] content)).ads advancing (consistent_nil rfl) rfl file advancing_aside
      fun _ _ _ => rfl
    exact ⟨both.1, both.2 smallHost ([1], 2000) [102] _ lineRequest [lineBlock (delivered content)]
      (startOn_reachable smallHost _) oneLine_admissible (oneLine_begins _) (oneLine_order _)⟩
  obtain ⟨line, back⟩ := run [97, lf] (by decide +kernel)
  obtain ⟨empty, lost⟩ := run [lf] (by decide +kernel)
  refine ⟨line.mpr (by decide), ?_, empty.mpr (by decide), ?_⟩
  · rw [back, lineBlock_returnable]
    decide +kernel
  · rw [lost, lineBlock_returnable]
    decide +kernel

/-- What a download in netascii delivers is decoded to the file. -/
def NetasciiRestored (vol : Volume) : Prop :=
  ∀ content client filename fd ds between, Consistent vol ds →
    ds.at (newSession client ⟨filename, .netascii⟩ fd).dkey = none →
    ds.disk (vol.node filename) = .regular content →
    (∀ i s ds, Aside vol s ds (between i s ds).1 (between i s ds).2) →
    (∀ i s ds, (between i s ds).2.faults = []) →
    Restores (received vol between (newSession client ⟨filename, .netascii⟩ fd) ds
      ((toNetascii content).length / tftpDatalenMax + 1)) content

/-- A CR of the file is sent as it is, and dropped when the file is stored again. -/
theorem netascii_not_restored : ¬ NetasciiRestored smallHost.toVolume := by
  intro restored
  have file : (startOn (diskWith [102] [97, cr, 98])).ads.disk (smallHost.toVolume.node [102]) =
      .regular [97, cr, 98] := by decide +kernel
  have consistent : Consistent smallHost.toVolume (startOn (diskWith [102] [97, cr, 98])).ads :=
    consistent_nil rfl
  have restores := restored [97, cr, 98] ([1], 2000) [102] 5 _ advancing consistent rfl file
    advancing_aside fun _ _ _ => rfl
  have partway : Partway smallHost.toVolume [97, cr, 98] 0
      (newSession ([1], 2000) ⟨[102], .netascii⟩ 5) _ := Partway.fresh consistent rfl file
  have stream : received smallHost.toVolume advancing (newSession ([1], 2000) ⟨[102], .netascii⟩ 5) _ _ =
      toNetascii [97, cr, 98] := received_encoded partway advancing_aside fun _ _ _ => rfl
  have free := (restores_iff [97, cr, 98]).mp (stream ▸ restores)
  exact free (by decide)

end Iwtftpd
