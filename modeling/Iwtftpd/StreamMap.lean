import Iwtftpd.Lib.Runs
import Iwtftpd.Streams

/-!
# The datastore as a map

What the list of the datastore is for: a finite map from an id and a file name to
an open stream. A call reads and writes this map at the key of its request and
nowhere else; a stream that a call opens and loses again never enters it. The
store in memory does to its list what this machine does to the map, over every
sequence of calls.
-/

namespace Iwtftpd

open DoublyLinked (Represents WellLinked)

variable {vol : Volume}

/-- The open streams, the files, and the faults that await the next stdio calls. -/
structure Table where
  streams : Int × Bytes → Option Stream
  disk : Bytes → FileNode
  faults : List Fault

/-- The map that a datastore stands for. -/
def IWDS.table (ds : IWDS) : Table where
  streams := fun k => (ds.at k).map DSession.fp
  disk := ds.disk
  faults := ds.faults

/-- The file system and stdio alone. -/
def Table.files (t : Table) : IWDS where
  dhead := []
  disk := t.disk
  faults := t.faults
  trace := []

/-- A stdio call takes its fault. -/
def Table.tick (t : Table) : Table := { t with faults := t.faults.tail }

/-- The map with another stream under a key, or with none. -/
def Table.set (t : Table) (k : Int × Bytes) (fp : Option Stream) : Table :=
  { t with streams := Function.update t.streams k fp }

/-- The stream of a key is closed. -/
def Table.drop (t : Table) (k : Int × Bytes) : Table := (t.set k none).tick

/-- `fopen` on the map, which asks for a fault as the other calls of stdio do. -/
def Table.fopen (vol : Volume) (t : Table) (k : Int × Bytes) (mode : FMode) : Option Stream × Table :=
  let r := Iwtftpd.fopen vol t.files k.1 k.2 mode
  (r.1, { t with disk := r.2.disk, faults := r.2.faults })

/-- A read on a stream. Where it fails, the stream is closed. -/
def Table.readFrom (t : Table) (k : Int × Bytes) (fp : Stream) (dlen : Nat) : Answer × Table :=
  let r := fread t.files fp dlen
  if r.data.length < dlen ∧ r.ferror = true then (.read r.data (some .readFail), t.tick.drop k)
  else (.read r.data none, t.tick.set k (some r.fp))

/-- A read needs a regular file, and opens it the first time. -/
def Table.read (vol : Volume) (t : Table) (k : Int × Bytes) (dlen : Nat) : Answer × Table :=
  match t.disk (vol.node k.2) with
  | .regular _ =>
    match t.streams k with
    | some fp => t.readFrom k fp dlen
    | none =>
      match t.fopen vol k .read with
      | (none, t) => (.read [] (some .noSession), t)
      | (some fp, t) => t.readFrom k fp dlen
  | _ => (.read [] (some .notExist), t)

/-- A write on a stream. The stream is closed where it falls short, and by an empty request. -/
def Table.writeTo (t : Table) (k : Int × Bytes) (fp : Stream) (dbuf : Bytes) : Answer × Table :=
  if dbuf.length = 0 then (.write 0 none, t.drop k)
  else
    let out := fwritten t.files fp dbuf
    let t := { t.tick with
      disk := if out.length = 0 then t.disk else
        Function.update t.disk fp.node ((t.disk fp.node).put fp.off out) }
    if out.length < dbuf.length then (.write out.length none, t.drop k)
    else (.write out.length none, t.set k (some { fp with off := fp.off + out.length }))

/-- A write without a stream needs a file that is not there. -/
def Table.write (vol : Volume) (t : Table) (k : Int × Bytes) (dbuf : Bytes) : Answer × Table :=
  match t.streams k with
  | some fp => t.writeTo k fp dbuf
  | none =>
    match t.disk (vol.node k.2) with
    | .regular _ => (.write 0 (some .notPermit), t)
    | _ =>
      match t.fopen vol k .write with
      | (none, t) => (.write 0 (some .noSession), t)
      | (some fp, t) => t.writeTo k fp dbuf

/-- Closing a stream that is not there is an error unless the request is empty. -/
def Table.close (t : Table) (k : Int × Bytes) (dlen : Nat) : Answer × Table :=
  match t.streams k with
  | some _ => ({ data := [], ret := 0, derr := some none }, t.drop k)
  | none =>
    if dlen = 0 then ({ data := [], ret := 0, derr := none }, t)
    else ({ data := [], ret := -1, derr := some (some .noSession) }, t)

/-- One call. -/
def Table.call (vol : Volume) (t : Table) (r : DStore.Request) : Answer × Table :=
  let t := { t with faults := r.faults }
  match r.req with
  | .read dsid dfile dlen => t.read vol (dsid, dfile) dlen
  | .write dsid dfile dbuf => t.write vol (dsid, dfile) dbuf
  | .close dsid dfile dlen => t.close (dsid, dfile) dlen

/-! ## Lists of nodes are maps -/

variable {ds : IWDS} {k : Int × Bytes}

theorem streams_eq (ds : IWDS) : ds.table.streams = Option.map DSession.fp ∘ fun k => ds.at k := rfl

/-- An update of the map from keys to nodes is one of the map to streams. -/
theorem table_update (ds' : IWDS) {o : Option DSession}
    (update : (fun k => ds'.at k) = Function.update (fun k => ds.at k) k o) :
    ds'.table = { ds.table.set k (o.map DSession.fp) with disk := ds'.disk, faults := ds'.faults } := by
  have streams : ds'.table.streams = Function.update ds.table.streams k (o.map DSession.fp) := by
    rw [streams_eq, update, Function.comp_update, ← streams_eq]
  rw [Table.set, ← streams]
  rfl

/-- A node that is moved along is a stream that is moved along under its key. -/
theorem table_setDsession {d e : DSession} (found : ds.at d.key = some e) :
    (ds.setDsession d).table = ds.table.set d.key (some d.fp) := by
  have update : (fun k => (ds.setDsession d).at k) = _ := Keyed.lookup_store_update DSession.key found
  exact table_update (ds.setDsession d) update

/-- A node that is deleted is a key that is dropped. -/
theorem table_delDsession {d : DSession} (distinct : (ds.dhead.map DSession.key).Nodup) {id : Int} {file : Bytes}
    (found : ds.at (id, file) = some d) : (delDsession ds id file).table = ds.table.drop (id, file) := by
  have there : getDsession ds.dhead id file = some d := found
  have update : (fun k => (delDsession ds id file).at k) = Function.update (fun k => ds.at k) (id, file) none := by
    simp only [IWDS.at, delDsession_dhead]
    exact Keyed.lookup_remove_update DSession.key (id, file) distinct
  rw [table_update (delDsession ds id file) update]
  simp only [delDsession, there]
  rfl

/-- What is set under a key does not matter when the key is dropped, set again, or written to. -/
@[simp] theorem set_drop (t : Table) (o : Option Stream) : (t.set k o).drop k = t.drop k := by
  simp [Table.drop, Table.set, Table.tick]

@[simp] theorem set_set (t : Table) (o o' : Option Stream) : (t.set k o).set k o' = t.set k o' := by
  simp [Table.set]

/-- `fopen` does not look at the list. -/
theorem table_fopen (vol : Volume) (ds : IWDS) (id : Int) (file : Bytes) (mode : FMode) :
    (fopen vol ds id file mode).1 = (ds.table.fopen vol (id, file) mode).1 ∧
      (fopen vol ds id file mode).2.table = (ds.table.fopen vol (id, file) mode).2 ∧
      (fopen vol ds id file mode).2.dhead = ds.dhead := by
  have fault : ds.table.files.fault = ds.fault := rfl
  have disk : ds.table.files.disk = ds.disk := rfl
  simp only [Table.fopen, fopen, fault, disk]
  cases ds.fault <;> cases mode <;> cases ds.disk (vol.node file) <;> exact ⟨rfl, rfl, rfl⟩

/-- What `create_dsession` does to the map when nothing stands under the key: `fopen`, and then the
stream stands there. -/
theorem table_createDsession (vol : Volume) {ds : IWDS} (distinct : (ds.dhead.map DSession.key).Nodup)
    {id : Int} {file : Bytes} (absent : ds.at (id, file) = none) (mode : FMode) :
    let r := createDsession vol ds id file mode
    let t := ds.table.fopen vol (id, file) mode
    (r.1 = none ∧ t.1 = none ∧ r.2.table = t.2) ∨
      ∃ d, r.1 = some d ∧ t.1 = some d.fp ∧ d.key = (id, file) ∧ r.2.at d.key = some d ∧
        (r.2.dhead.map DSession.key).Nodup ∧ r.2.table = t.2.set (id, file) (some d.fp) := by
  obtain ⟨stream, table, dhead⟩ := table_fopen vol ds id file mode
  dsimp only
  rw [← stream, ← table, createDsession_eq]
  generalize fopen vol ds id file mode = opened at dhead ⊢
  obtain ⟨fp, ds'⟩ := opened
  cases fp with
  | none => exact .inl ⟨rfl, rfl, rfl⟩
  | some fp =>
    let d : DSession := { clid := id, fp := fp, filename := file }
    refine .inr ⟨d, rfl, rfl, rfl, ?_, ?_, ?_⟩
    · exact (Keyed.lookup_cons DSession.key (id, file) d ds'.dhead).trans (if_pos rfl)
    · simp only [List.map_cons, List.nodup_cons]
      refine ⟨fun member => ?_, dhead ▸ distinct⟩
      obtain ⟨e, inside, same⟩ := List.mem_map.mp member
      exact (Keyed.lookup_none_iff DSession.key).mp absent e (dhead ▸ inside) same
    · have linked : (fun k => ({ ds' with dhead := d :: ds'.dhead } : IWDS).at k) = _ :=
        Keyed.lookup_cons_update DSession.key d ds'.dhead
      exact table_update _ linked

/-! ## The calls -/

/-- What a stream reads does not depend on what stands under its key. -/
theorem set_readFrom (t : Table) (o : Option Stream) (fp : Stream) (dlen : Nat) :
    (t.set k o).readFrom k fp dlen = t.readFrom k fp dlen := by
  have files : (t.set k o).files = t.files := rfl
  have tick : (t.set k o).tick = t.tick.set k o := rfl
  simp only [Table.readFrom, files, tick, set_set, set_drop]

theorem set_writeTo (t : Table) (o : Option Stream) (fp : Stream) (dbuf : Bytes) :
    (t.set k o).writeTo k fp dbuf = t.writeTo k fp dbuf := by
  simp [Table.writeTo, Table.set, Table.drop, Table.tick, Table.files]

/-- A read of a node does on the map what it does on the list. -/
theorem table_readFrom {d : DSession} (distinct : (ds.dhead.map DSession.key).Nodup)
    (found : ds.at d.key = some d) (dlen : Nat) :
    let r := readFrom ds d dlen
    ds.table.readFrom d.key d.fp dlen = (.read r.data r.derr, r.ds.table) := by
  have same : fread ds.table.files d.fp dlen = fread ds d.fp dlen := rfl
  dsimp only [Table.readFrom, readFrom]
  rw [same]
  generalize fread ds d.fp dlen = r
  let d' : DSession := { d with fp := r.fp }
  let moved := (ds.called (.stdio .fread d.clid d.filename (!r.ferror))).setDsession d'
  have there : moved.at d'.key = some d' := Keyed.lookup_store_self DSession.key found
  have table : moved.table = ds.table.tick.set d.key (some r.fp) := table_setDsession found
  have keys : (moved.dhead.map DSession.key).Nodup := by
    simp only [moved, IWDS.setDsession, Keyed.store_keys]
    exact distinct
  split
  · have dropped : (delDsession moved d.clid d.filename).table = moved.table.drop d.key :=
      table_delDsession keys there
    rw [dropped, table, set_drop]
  · rw [table]

/-- A write to a node does on the map what it does on the list. -/
theorem table_writeTo {d : DSession} (distinct : (ds.dhead.map DSession.key).Nodup)
    (found : ds.at d.key = some d) (dbuf : Bytes) :
    let r := writeTo ds d dbuf
    ds.table.writeTo d.key d.fp dbuf = (.write r.wlen r.derr, r.ds.table) := by
  dsimp only [Table.writeTo, writeTo]
  split
  · have dropped : (delDsession ds d.clid d.filename).table = ds.table.drop d.key := table_delDsession distinct found
    rw [dropped]
  · have same : fwritten ds.table.files d.fp dbuf = fwritten ds d.fp dbuf := rfl
    rw [same]
    generalize fwritten ds d.fp dbuf = out
    let d' : DSession := { d with fp := { d.fp with off := d.fp.off + out.length } }
    let called := ds.called (.stdio .fwrite d.clid d.filename (out.length = dbuf.length))
    let put : IWDS := { called.setDsession d' with
      disk := if out.length = 0 then ds.disk else
        Function.update ds.disk d.fp.node ((ds.disk d.fp.node).put d.fp.off out) }
    have there : put.at d'.key = some d' := Keyed.lookup_store_self DSession.key found
    have stored : (called.setDsession d').table = ds.table.tick.set d.key (some d'.fp) := table_setDsession found
    have table : put.table = { ds.table.tick with disk := put.disk }.set d.key (some d'.fp) := by
      have list : put.table = { (called.setDsession d').table with disk := put.disk } := rfl
      rw [list, stored]
      rfl
    have keys : (put.dhead.map DSession.key).Nodup := by
      simp only [put, called, IWDS.setDsession, Keyed.store_keys]
      exact distinct
    split
    · have dropped : ({ ds.table.tick with disk := put.disk } : Table).drop d.key =
          (delDsession put d.clid d.filename).table := by
        have gone : (delDsession put d.clid d.filename).table = put.table.drop d.key :=
          table_delDsession keys there
        rw [gone, table, set_drop]
      exact congrArg (Prod.mk (Answer.write out.length none)) dropped
    · exact congrArg (Prod.mk (Answer.write out.length none)) table.symm

/-- `iwds_read` does on the map what it does on the list, and answers the same.

Proof: by its branches. A key without a node is one without a stream, and a new node is a stream
that is set. -/
theorem table_iwdsRead (vol : Volume) {ds : IWDS} (distinct : (ds.dhead.map DSession.key).Nodup) (id : Int)
    (file : Bytes) (dlen : Nat) :
    let r := iwdsRead vol ds id file dlen
    ds.table.read vol (id, file) dlen = (.read r.data r.derr, r.ds.table) := by
  have noted : (ds.note (.iwdsRead id file)).table = ds.table := rfl
  have keys : ((ds.note (.iwdsRead id file)).dhead.map DSession.key).Nodup := distinct
  dsimp only [iwdsRead]
  rw [← noted]
  generalize ds.note (.iwdsRead id file) = ds₁ at keys ⊢
  rw [isDsfile_eq]
  simp only [Table.read]
  have disk : ds₁.table.disk = ds₁.disk := rfl
  rw [disk]
  cases ds₁.disk (vol.node file) with
  | absent | directory | device => rfl
  | regular content =>
    dsimp only
    cases found : getDsession ds₁.dhead id file with
    | some d =>
      have key : d.key = (id, file) := lookup_key found
      have there : ds₁.at d.key = some d := key ▸ found
      have stream : ds₁.table.streams (id, file) = some d.fp := congrArg (Option.map DSession.fp) found
      have read := table_readFrom keys there dlen
      rw [key] at read
      rw [stream]
      exact read
    | none =>
      have stream : ds₁.table.streams (id, file) = none := congrArg (Option.map DSession.fp) found
      have outcome := table_createDsession vol keys found .read
      rw [stream]
      dsimp only at outcome ⊢
      generalize createDsession vol ds₁ id file .read = r at outcome ⊢
      generalize ds₁.table.fopen vol (id, file) .read = t at outcome ⊢
      obtain ⟨ses, ds₂⟩ := r
      obtain ⟨fp, t⟩ := t
      obtain ⟨rfl, rfl, rfl⟩ | ⟨d, rfl, rfl, key, there, keys₂, table⟩ := outcome
      · rfl
      · have read := table_readFrom keys₂ there dlen
        dsimp only at table
        rw [key, table, set_readFrom] at read
        exact read

/-- `iwds_write` does on the map what it does on the list, and answers the same. -/
theorem table_iwdsWrite (vol : Volume) {ds : IWDS} (distinct : (ds.dhead.map DSession.key).Nodup) (id : Int)
    (file dbuf : Bytes) :
    let r := iwdsWrite vol ds id file dbuf
    ds.table.write vol (id, file) dbuf = (.write r.wlen r.derr, r.ds.table) := by
  have noted : (ds.note (.iwdsWrite id file dbuf.length)).table = ds.table := rfl
  have keys : ((ds.note (.iwdsWrite id file dbuf.length)).dhead.map DSession.key).Nodup := distinct
  dsimp only [iwdsWrite]
  rw [← noted]
  generalize ds.note (.iwdsWrite id file dbuf.length) = ds₁ at keys ⊢
  rw [isDsfile_eq]
  simp only [Table.write]
  cases found : getDsession ds₁.dhead id file with
  | some d =>
    have key : d.key = (id, file) := lookup_key found
    have there : ds₁.at d.key = some d := key ▸ found
    have stream : ds₁.table.streams (id, file) = some d.fp := congrArg (Option.map DSession.fp) found
    have write := table_writeTo keys there dbuf
    rw [key] at write
    rw [stream]
    exact write
  | none =>
    have stream : ds₁.table.streams (id, file) = none := congrArg (Option.map DSession.fp) found
    have disk : ds₁.table.disk = ds₁.disk := rfl
    have outcome := table_createDsession vol keys found .write
    rw [stream, disk]
    dsimp only at outcome ⊢
    generalize createDsession vol ds₁ id file .write = r at outcome ⊢
    generalize ds₁.table.fopen vol (id, file) .write = t at outcome ⊢
    obtain ⟨ses, ds₂⟩ := r
    obtain ⟨fp, t⟩ := t
    cases ds₁.disk (vol.node file) with
    | regular content => rfl
    | absent | directory | device =>
      obtain ⟨rfl, rfl, rfl⟩ | ⟨d, rfl, rfl, key, there, keys₂, table⟩ := outcome
      · rfl
      · have write := table_writeTo keys₂ there dbuf
        dsimp only at table
        rw [key, table, set_writeTo] at write
        exact write

/-- `iwds_close` drops its key. -/
theorem table_iwdsClose {ds : IWDS} (distinct : (ds.dhead.map DSession.key).Nodup) (id : Int) (file : Bytes)
    (dlen : Nat) : (ds.table.close (id, file) dlen).2 = (iwdsClose ds id file).table := by
  have noted : (ds.note (.iwdsClose id file)).table = ds.table := rfl
  have keys : ((ds.note (.iwdsClose id file)).dhead.map DSession.key).Nodup := distinct
  rw [iwdsClose, ← noted]
  generalize ds.note (.iwdsClose id file) = ds₁ at keys ⊢
  cases found : ds₁.at (id, file) with
  | some d =>
    have stream : ds₁.table.streams (id, file) = some d.fp := congrArg (Option.map DSession.fp) found
    rw [table_delDsession keys found]
    simp only [Table.close, stream]
  | none =>
    have stream : ds₁.table.streams (id, file) = none := congrArg (Option.map DSession.fp) found
    have absent : getDsession ds₁.dhead id file = none := found
    simp only [Table.close, stream, delDsession, absent]
    split <;> rfl

/-! ## The store in memory -/

variable {st start : DStore} {nodes : List (Nat × DNode)}

/-- The machine in memory after a call. -/
def DStore.step (vol : Volume) (st : DStore) (r : Request) : DStore := (st.call vol r).2

/-- The map after a call. -/
def Table.step (vol : Volume) (t : Table) (r : DStore.Request) : Table := (t.call vol r).2

/-- `malloc` returns an address that is not in use. -/
def DStore.Admissible (st : DStore) (r : Request) : Prop := r.addr ∉ st.links.live

/-- No stream has been opened yet. -/
structure DStore.Empty (st : DStore) : Prop where
  head : st.links.head = none
  opened : st.opened = 0
  closed : st.closed = []
  got : st.got = fun _ => []
  short : st.short = fun _ => none

/-- What is kept from call to call. -/
structure DStore.Sound (vol : Volume) (st : DStore) (nodes : List (Nat × DNode)) : Prop where
  kept : Kept st nodes
  consistent : Consistent vol (st.shown nodes)

/-- An empty datastore is sound. -/
theorem DStore.Empty.sound (empty : Empty st) : Sound vol st [] where
  kept := by
    refine ⟨⟨empty.head, trivial, List.nodup_nil⟩, ?_, ?_, nofun⟩
    · rw [empty.closed, empty.opened]
      exact .nil
    · intro n _
      rw [empty.got, empty.short]
      exact ⟨rfl, rfl⟩
  consistent := consistent_nil rfl

/-- `iwds_close` answers as the map does: whether there was a stream. -/
theorem DStore.iwdsClose_answer (kept : Kept st nodes) (dsid : Int) (dfile : Bytes) (dlen : Nat) :
    (st.iwdsClose dsid dfile dlen).1 = ((st.shown nodes).table.close (dsid, dfile) dlen).1 := by
  have noted : (st.shown nodes).table =
      ((st.after (st.files.note (.iwdsClose dsid dfile))).shown nodes).table := rfl
  have kept₁ := kept.note (.iwdsClose dsid dfile)
  rw [noted]
  dsimp only [iwdsClose]
  generalize st.after (st.files.note (.iwdsClose dsid dfile)) = st₁ at kept₁ ⊢
  obtain ⟨missing, absent⟩ | ⟨xs, a, d, ys, rfl, -, found, there⟩ :=
    getDsession_cases kept₁.represents (dsid, dfile)
  · have stream : (st₁.shown nodes).table.streams (dsid, dfile) = none :=
      congrArg (Option.map DSession.fp) absent
    dsimp only at missing
    simp only [missing, Table.close, stream]
    split <;> rfl
  · have stream : (st₁.shown (xs ++ (a, d) :: ys)).table.streams (dsid, dfile) = some d.ses.fp :=
      congrArg (Option.map DSession.fp) there
    dsimp only at found
    simp only [found, Table.close, stream]

/-- One call: the map answers what the store answers, and stays the map of its list. -/
theorem DStore.call_refines (sound : Sound vol st nodes) {r : Request} (may : Admissible st r) :
    ∃ nodes', Sound vol (step vol st r) nodes' ∧
      (st.shown nodes).table.call vol r = ((st.call vol r).1, ((step vol st r).shown nodes').table) ∧
      Answered st nodes r.req.key (st.call vol r).1.data (step vol st r) ((step vol st r).shown nodes') nodes' := by
  obtain ⟨kept, inv⟩ := sound
  obtain ⟨req, addr, faults⟩ := r
  let st₁ : DStore := { st with faults := faults }
  have kept₁ : Kept st₁ nodes := ⟨kept.represents, kept.files, kept.unused, fun x member mode =>
    have record := kept.records x member mode
    ⟨record.got, record.whole, record.eof⟩⟩
  have inv₁ : Consistent vol (st₁.shown nodes) := inv.congr rfl rfl
  have distinct := inv₁.distinct
  have quiet : st₁.got = st.got ∧ st₁.short = st.short := ⟨rfl, rfl⟩
  cases req with
  | read dsid dfile dlen =>
    obtain ⟨answer, nodes', answered⟩ := iwdsRead_answered kept₁ inv₁ may dsid dfile dlen
    have chain := (iwdsRead_chain vol (st₁.shown nodes) dsid dfile dlen).consistent inv₁
    have table := table_iwdsRead vol distinct dsid dfile dlen
    have shown := answered.shown
    dsimp only at answer table
    rw [← answer, ← shown] at table
    have data : (st₁.iwdsRead vol addr dsid dfile dlen).1.data =
        (Iwtftpd.iwdsRead vol (st₁.shown nodes) dsid dfile dlen).data := by
      rw [answer]
      rfl
    rw [← shown, ← data] at answered
    exact ⟨nodes', ⟨answered.kept, shown.symm ▸ chain⟩, table, answered.after quiet rfl⟩
  | write dsid dfile dbuf =>
    obtain ⟨answer, nodes', answered⟩ := iwdsWrite_answered kept₁ inv₁ may dsid dfile dbuf
    have chain := (iwdsWrite_chain vol (st₁.shown nodes) dsid dfile dbuf).consistent inv₁
    have table := table_iwdsWrite vol distinct dsid dfile dbuf
    have shown := answered.shown
    dsimp only at answer table
    rw [← answer, ← shown] at table
    have data : (st₁.iwdsWrite vol addr dsid dfile dbuf).1.data = [] := by
      rw [answer]
      rfl
    rw [← shown, ← data] at answered
    exact ⟨nodes', ⟨answered.kept, shown.symm ▸ chain⟩, table, answered.after quiet rfl⟩
  | close dsid dfile dlen =>
    obtain ⟨nodes', answered⟩ := iwdsClose_answered kept₁ inv₁ dsid dfile dlen
    have chain := (iwdsClose_chain vol (st₁.shown nodes) dsid dfile).consistent inv₁
    have answer := iwdsClose_answer kept₁ dsid dfile dlen
    have table := table_iwdsClose distinct dsid dfile dlen
    have shown := answered.shown
    rw [← shown] at table
    have data : (st₁.iwdsClose dsid dfile dlen).1.data = [] := by
      dsimp only [iwdsClose]
      split
      · split <;> rfl
      · rfl
    rw [← shown, ← data] at answered
    exact ⟨nodes', ⟨answered.kept, shown.symm ▸ chain⟩, Prod.ext answer.symm table, answered.after quiet rfl⟩

/-! ## Runs -/

/-- The list in memory stands for the map. -/
structure DStore.Refines (vol : Volume) (st : DStore) (nodes : List (Nat × DNode)) (t : Table) : Prop where
  /-- A doubly linked list of nodes, at most one for each key. -/
  linked : WellLinked st.links (nodes.map Prod.fst)
  values : ∀ x ∈ nodes, st.links.val x.1 = some x.2
  distinct : (nodes.map fun x => x.2.key).Nodup
  map : (st.shown nodes).table = t
  /-- What the reads of a node have delivered is the beginning of its file, and after a short read
  it is all that the file held then. -/
  delivered : ∀ x ∈ nodes, x.2.ses.fp.mode = .read →
    x.2.ses.fp.node = vol.node x.2.ses.filename ∧
      st.got x.2.fileno <+: (st.disk x.2.ses.fp.node).bytes ∧
      (x.2.ses.fp.eof = true ↔ st.short x.2.fileno ≠ none) ∧
      ∀ content, st.short x.2.fileno = some content → st.got x.2.fileno = content
  /-- Of the streams that were opened, each is held by one node or was closed once. -/
  closed : (st.closed ++ nodes.map fun x => x.2.fileno).Perm (List.range st.opened)

/-- A sound datastore refines its map. -/
theorem DStore.Sound.refines (sound : Sound vol st nodes) : Refines vol st nodes (st.shown nodes).table where
  linked := sound.kept.represents.wellLinked
  values := fun _ member => (sound.kept.represents.seg.node member).2
  distinct := keys_distinct sound.consistent
  map := rfl
  delivered := by
    intro x member mode
    obtain ⟨got, whole, eof⟩ := sound.kept.records x member mode
    have listed : x.2.ses ∈ (st.shown nodes).dhead := List.mem_map_of_mem member
    refine ⟨sound.consistent.placed x.2.ses listed, ?_, eof, whole⟩
    rw [got]
    exact List.take_prefix _ _
  closed := sound.kept.files

/-- After any calls, the memory stands for the map that the calls lead to. -/
theorem DStore.run_sound {requests : List Request} (sound : Sound vol st nodes)
    (admitted : Runs.Admits (step vol) Admissible st requests) :
    ∃ nodes', Sound vol (Runs.exec (step vol) st requests) nodes' ∧
      ((Runs.exec (step vol) st requests).shown nodes').table =
        Runs.exec (Table.step vol) (st.shown nodes).table requests := by
  induction requests generalizing st nodes with
  | nil => exact ⟨nodes, sound, rfl⟩
  | cons r rest inductionHypothesis =>
    obtain ⟨may, following⟩ := admitted
    obtain ⟨next, sound', call, -⟩ := call_refines sound may
    obtain ⟨last, final, table⟩ := inductionHypothesis sound' following
    have state : Table.step vol (st.shown nodes).table r = ((step vol st r).shown next).table :=
      congrArg Prod.snd call
    rw [← state] at table
    exact ⟨last, final, table⟩

/-- What one more call does after any others. -/
structure DStore.Serves (vol : Volume) (st : DStore) (nodes : List (Nat × DNode)) (t : Table) (r : Request)
    (nodes' : List (Nat × DNode)) : Prop where
  before : Refines vol st nodes t
  after : Refines vol (step vol st r) nodes' (Table.step vol t r)
  answer : (st.call vol r).1 = (t.call vol r).1
  /-- Nodes of other keys stay what and where they are. -/
  others : others r.req.key nodes' = others r.req.key nodes
  /-- A read delivers the next bytes of the node of its key. -/
  delivers : ∀ x ∈ nodes', (step vol st r).got x.2.fileno =
    if x.2.key = r.req.key then st.got x.2.fileno ++ (st.call vol r).1.data else st.got x.2.fileno
  /-- A first short read is noted with what the file holds. -/
  notes : ∀ x ∈ nodes', (step vol st r).short x.2.fileno = st.short x.2.fileno ∨
    x.2.key = r.req.key ∧ st.short x.2.fileno = none ∧
      (step vol st r).short x.2.fileno = some ((step vol st r).disk x.2.ses.fp.node).bytes

/-- Every sequence of calls, and every call after it.

Proof: by induction over the calls: the memory represents a list of nodes, keys are distinct, and
every function of the list does on its nodes what the map does on its entries. -/
theorem DStore.calls_refine {requests : List Request} {r : Request} (empty : start.Empty)
    (admitted : Runs.Admits (step vol) Admissible start (requests ++ [r])) :
    ∃ nodes nodes', Serves vol (Runs.exec (step vol) start requests) nodes
      (Runs.exec (Table.step vol) (start.shown []).table requests) r nodes' := by
  have first : Sound vol start [] := empty.sound
  obtain ⟨nodes, sound, table⟩ := run_sound first admitted.before
  have may : Admissible (Runs.exec (step vol) start requests) r := admitted.after.1
  obtain ⟨nodes', sound', call, answered⟩ := call_refines sound may
  rw [← table]
  have state : ((step vol (Runs.exec (step vol) start requests) r).shown nodes').table =
      Table.step vol ((Runs.exec (step vol) start requests).shown nodes).table r :=
    (congrArg Prod.snd call).symm
  refine ⟨nodes, nodes', sound.refines, state ▸ sound'.refines, (congrArg Prod.fst call).symm,
    answered.others, answered.delivers, answered.notes⟩

/-! ## A file that grows behind a reader -/

/-- A datastore at the root of the file system, where paths are places. -/
def rootVolume : Volume where
  dspath := [slash]
  namei := id

/-- The store on a disk, before any call. -/
def DStore.startOn (disk : Bytes → FileNode) : DStore where
  links := { node := fun _ => none, live := [], head := none }
  disk := disk
  faults := []
  trace := []
  opened := 0
  closed := []
  got := fun _ => []
  short := fun _ => none

/-- A datastore that has just been made is empty. -/
theorem DStore.startOn_empty (disk : Bytes → FileNode) : (startOn disk).Empty := ⟨rfl, rfl, rfl, rfl, rfl⟩

/-- The node that is made for the first stream or the second, on one file. -/
def DStore.made (id : Int) (mode : FMode) (fileno : Nat) : DNode where
  ses := { clid := id, fp := { mode := mode, node := [slash, 102], off := 0, eof := false }, filename := [102] }
  fileno := fileno

/-- A node after its stream has moved. -/
def DNode.moved (d : DNode) (fp : Stream) : DNode := { d with ses := { d.ses with fp := fp } }

/-- One session writes a file, another reads it to its end. -/
def DStore.readBehind (front : Bytes) : List Request :=
  [{ req := .write 1 [102] front, addr := 1, faults := [] },
    { req := .read 2 [102] (front.length + 1), addr := 2, faults := [] }]

/-- The writer goes on, and ends. -/
def DStore.growing (front back : Bytes) : List Request :=
  readBehind front ++
    [{ req := .write 1 [102] back, addr := 3, faults := [] }, { req := .close 1 [102] 0, addr := 4, faults := [] }]

/-- The store once a node has been made for a call. -/
def DStore.opening (st : DStore) (e : Effect) (id : Int) (mode : FMode) : DStore :=
  ((st.after (st.files.note e)).createDsession rootVolume id.toNat id [102] mode).2

/-- The store after the first write. -/
def DStore.written (front : Bytes) : DStore :=
  ((startOn fun _ => .absent).opening (.iwdsWrite 1 [102] front.length) 1 .write).put 1 (made 1 .write 0)
    front front

/-- The reader's stream meets the end of what was written. -/
def DStore.met (front : Bytes) : Fread :=
  fread ((written front).opening (.iwdsRead 2 [102]) 2 .read).files (made 2 .read 1).ses.fp (front.length + 1)

/-- The store after the read. -/
def DStore.behind (front : Bytes) : DStore :=
  ((written front).opening (.iwdsRead 2 [102]) 2 .read).advance 2 (made 2 .read 1) (front.length + 1) (met front)

/-- The store after the second write. -/
def DStore.grown (front back : Bytes) : DStore :=
  ((behind front).after ((behind front).files.note (.iwdsWrite 1 [102] back.length))).put 1
    ((made 1 .write 0).moved { (made 1 .write 0).ses.fp with off := front.length }) back back

/-- A write that meets no failure puts all its bytes into the file. -/
theorem DStore.writeTo_whole {st : DStore} {ses : Nat} {d : DNode} {dbuf : Bytes} (nonempty : dbuf ≠ [])
    (mode : d.ses.fp.mode = .write) (fault : st.faults = []) :
    (st.writeTo ses d dbuf).2 = st.put ses d dbuf dbuf := by
  have out : fwritten st.files d.ses.fp dbuf = dbuf := by
    simp only [fwritten, mode, IWDS.fault, files, shown, fault, List.headD_nil]
  have some : dbuf.length ≠ 0 := by simpa using nonempty
  rw [writeTo, if_neg some, out, if_neg (Nat.lt_irrefl _)]

/-- A read that meets no failure moves its stream along. -/
theorem DStore.readFrom_whole {st : DStore} {ses : Nat} {d : DNode} (dlen : Nat)
    (mode : d.ses.fp.mode = .read) (fault : st.faults = []) :
    (st.readFrom ses d dlen).2 = st.advance ses d dlen (fread st.files d.ses.fp dlen) := by
  have fine : (fread st.files d.ses.fp dlen).ferror = false := by
    simp only [fread, mode, IWDS.fault, files, shown, fault, List.headD_nil]
  rw [readFrom, fine, if_neg fun failed => Bool.noConfusion failed.2]

section Growing

variable (x y : UInt8) (xs ys : Bytes)

/-- The first write makes the file. -/
theorem DStore.step_written :
    step rootVolume (startOn fun _ => .absent) { req := .write 1 [102] (x :: xs), addr := 1, faults := [] } =
      written (x :: xs) :=
  writeTo_whole (List.cons_ne_nil x xs) rfl rfl

/-- The read asks for one byte more than there is, and meets the end of the file. -/
theorem DStore.step_behind :
    step rootVolume (written (x :: xs)) { req := .read 2 [102] ((x :: xs).length + 1), addr := 2, faults := [] } =
      behind (x :: xs) :=
  readFrom_whole _ rfl rfl

/-- The second write puts its bytes behind what was read. -/
theorem DStore.step_grown :
    step rootVolume (behind (x :: xs)) { req := .write 1 [102] (y :: ys), addr := 3, faults := [] } =
      grown (x :: xs) (y :: ys) := by
  have off : 0 + (x :: xs).length = (x :: xs).length := Nat.zero_add _
  rw [grown, ← off]
  exact writeTo_whole (List.cons_ne_nil y ys) rfl rfl

/-- The calls use addresses that are free. -/
theorem DStore.growing_admitted :
    Runs.Admits (step rootVolume) Admissible (startOn fun _ => .absent) (growing (x :: xs) (y :: ys)) := by
  refine ⟨List.not_mem_nil, ?_, ?_, ?_, trivial⟩
  · rw [step_written]
    show 2 ∉ [1]
    decide
  · rw [step_written, step_behind]
    show 3 ∉ [2, 1]
    decide
  · rw [step_written, step_behind, step_grown]
    show 4 ∉ [2, 1]
    decide

/-- The read has delivered what was written, and fell short. -/
theorem DStore.met_data : (met (x :: xs)).data = x :: xs := by
  show ((overlay [] 0 (x :: xs)).drop 0).take ((x :: xs).length + 1) = x :: xs
  have whole : overlay [] 0 (x :: xs) = x :: xs := by simp [overlay]
  rw [whole, List.drop_zero, List.take_of_length_le (Nat.le_succ _)]

/-- At the end the reader stands where the file ended, and the file is longer. -/
theorem DStore.grown_behind :
    let st := Runs.exec (step rootVolume) (startOn fun _ => .absent) (growing (x :: xs) (y :: ys))
    let d := (made 2 .read 1).moved (met (x :: xs)).fp
    st.getDsession 2 [102] = some 2 ∧ st.links.val 2 = some d ∧ d.ses.fp.mode = .read ∧
      st.short d.fileno = some (x :: xs) ∧ st.got d.fileno = x :: xs ∧
      (st.disk d.ses.fp.node).bytes = (x :: xs) ++ (y :: ys) := by
  have run : Runs.exec (step rootVolume) (startOn fun _ => .absent) (growing (x :: xs) (y :: ys)) =
      step rootVolume (grown (x :: xs) (y :: ys)) { req := .close 1 [102] 0, addr := 4, faults := [] } := by
    show step rootVolume (step rootVolume (step rootVolume (step rootVolume _ _) _) _) _ = _
    rw [step_written, step_behind, step_grown]
  dsimp only
  rw [run]
  refine ⟨rfl, rfl, rfl, ?_, ?_, ?_⟩
  · have short : (met (x :: xs)).data.length < (x :: xs).length + 1 := by
      rw [met_data]
      exact Nat.lt_succ_self _
    have content : overlay [] 0 (x :: xs) = x :: xs := by simp [overlay]
    show (behind (x :: xs)).short 1 = some (x :: xs)
    rw [behind, advance, if_pos ⟨short, rfl, rfl⟩]
    exact congrArg some content
  · show [] ++ (met (x :: xs)).data = x :: xs
    rw [met_data, List.nil_append]
  · show overlay (overlay [] 0 (x :: xs)) (x :: xs).length (y :: ys) = _
    simp [overlay]

end Growing

/-- A write behind a write and a read that has met the end of the file: the map goes on as the
memory does. -/
theorem DStore.calls_refine_sample :
    ∃ nodes nodes', Serves rootVolume
      (Runs.exec (step rootVolume) (startOn fun _ => .absent) (readBehind (wholeBuffer 97))) nodes
      (Runs.exec (Table.step rootVolume) ((startOn fun _ => .absent).shown []).table (readBehind (wholeBuffer 97)))
      { req := .write 1 [102] (wholeBuffer 98), addr := 3, faults := [] } nodes' := by
  have admitted : Runs.Admits (step rootVolume) Admissible (startOn fun _ => .absent)
      ((readBehind (wholeBuffer 97) ++ [{ req := .write 1 [102] (wholeBuffer 98), addr := 3, faults := [] }]) ++
        [{ req := .close 1 [102] 0, addr := 4, faults := [] }]) := growing_admitted 97 98 _ _
  exact calls_refine (startOn_empty fun _ => .absent) admitted.before

/-- Once a read has fallen short, the reads of a node have delivered its whole file. -/
def DStore.AllOnceShort : Prop :=
  ∀ (vol : Volume) (start : DStore) (requests : List Request), start.Empty →
    Runs.Admits (step vol) Admissible start requests →
      let st := Runs.exec (step vol) start requests
      ∀ (k : Int × Bytes) (a : Nat) (d : DNode), st.getDsession k.1 k.2 = some a → st.links.val a = some d →
        d.ses.fp.mode = .read → st.short d.fileno ≠ none → st.got d.fileno = (st.disk d.ses.fp.node).bytes

/-- The writer of a file can put more behind the end that a reader has met. -/
theorem DStore.not_all_once_short : ¬ AllOnceShort := by
  intro all
  obtain ⟨found, held, mode, short, got, file⟩ := grown_behind 97 98 (List.replicate 8191 97) (List.replicate 8191 98)
  have whole := all rootVolume (startOn fun _ => .absent)
    (growing (97 :: List.replicate 8191 97) (98 :: List.replicate 8191 98))
    (startOn_empty _) (growing_admitted 97 98 _ _) (2, [102]) 2 _ found held mode
    fun nothing => Option.some_ne_none _ (short.symm.trans nothing)
  have same := congrArg List.length (got.symm.trans (whole.trans file))
  rw [List.length_append, List.length_cons, List.length_cons] at same
  omega

end Iwtftpd
