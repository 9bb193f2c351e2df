import Iwtftpd.Lib.DoublyLinked
import Iwtftpd.DatastoreLaws

/-!
# The list of the datastore as it lies in memory

`ds->dhead` as a memory of nodes, with `get_dsession`, `create_dsession`,
`del_dsession` and the three calls of the interface on it. Every call does to the
list that the memory represents what the functions of `Datastore` do to a list.

Streams are told apart by numbers, given in the order in which `fopen` returns
them. For the record, the store keeps which of them were closed, what the reads of
each have delivered, and what its file held when one of them first fell short.
-/

namespace Iwtftpd

open DoublyLinked (Mem Represents)

/-- A node: its `struct dsession`, and the number of its stream. -/
structure DNode where
  ses : DSession
  fileno : Nat
deriving DecidableEq

abbrev DNode.key (d : DNode) : Int × Bytes := d.ses.key

/-- The datastore. -/
structure DStore where
  links : Mem Nat DNode
  disk : Bytes → FileNode
  faults : List Fault
  trace : List Effect
  opened : Nat
  closed : List Nat
  got : Nat → Bytes
  short : Nat → Option Bytes

/-- The store as the functions on lists have it, for the nodes that its memory represents. -/
def DStore.shown (st : DStore) (nodes : List (Nat × DNode)) : IWDS where
  dhead := nodes.map fun x => x.2.ses
  disk := st.disk
  faults := st.faults
  trace := st.trace

/-- The file system and stdio, which do not look at the list. -/
def DStore.files (st : DStore) : IWDS := st.shown []

/-- The store once stdio has answered. -/
def DStore.after (st : DStore) (ds : IWDS) : DStore :=
  { st with disk := ds.disk, faults := ds.faults, trace := ds.trace }

/-! ## Internal functions -/

def DStore.getDsession (st : DStore) (id : Int) (file : Bytes) : Option Nat :=
  st.links.find fun pm => pm.key = (id, file)

/-- `create_dsession`. The fields of the node that `add_dsession` links are set before
anything looks at them. -/
def DStore.createDsession (vol : Volume) (st : DStore) (addr : Nat) (id : Int) (file : Bytes)
    (mode : FMode) : Option Nat × DStore :=
  match (vol.joined file).ret with
  | none => (none, st)
  | some _ =>
    match fopen vol st.files id file mode with
    | (none, ds) => (none, st.after ds)
    | (some fp, ds) =>
      let node : DNode := { ses := { clid := id, fp := fp, filename := file }, fileno := st.opened }
      (some addr, { st.after ds with links := st.links.push addr node, opened := st.opened + 1 })

/-- The four cases of `del_dsession`. -/
def DStore.bridge (m : Mem Nat DNode) (pm : Nat) : Mem Nat DNode :=
  match m.prev pm, m.next pm with
  | none, some n => { m.setPrev n none with head := some n }
  | some p, some n => (m.setNext p (some n)).setPrev n (some p)
  | some p, none => m.setNext p none
  | none, none => { m with head := none }

/-- The end of `del_dsession`: the stream of the node is closed and the node freed. -/
def DStore.freeDsession (st : DStore) (pm : Nat) (d : DNode) : DStore :=
  { st.after (st.files.called (.stdio .fclose d.ses.clid d.ses.filename (st.files.fault = .none))) with
    links := (bridge st.links pm).release pm
    closed := d.fileno :: st.closed }

/-- `del_dsession`, which looks for the node by its key. -/
def DStore.delDsession (st : DStore) (node : Nat) : DStore :=
  match st.links.val node with
  | none => st
  | some d =>
    match st.getDsession d.ses.clid d.ses.filename with
    | none => st
    | some pm =>
      match st.links.val pm with
      | none => st
      | some e => st.freeDsession pm e

/-! ## Interfaces -/

/-- `struct dsreq`, as far as a call reads it. -/
inductive Dsreq where
  | read (dsid : Int) (dfile : Bytes) (dlen : Nat)
  | write (dsid : Int) (dfile dbuf : Bytes)
  | close (dsid : Int) (dfile : Bytes) (dlen : Nat)

def Dsreq.key : Dsreq → Int × Bytes
  | .read dsid dfile _ | .write dsid dfile _ | .close dsid dfile _ => (dsid, dfile)

/-- What a call puts into `dbuf`, what it returns, and what it stores in `derr`: nothing,
`IW_OK` or an error. -/
structure Answer where
  data : Bytes
  ret : Int
  derr : Option (Option DsreqErrcode)
deriving DecidableEq

def Answer.read (data : Bytes) (derr : Option DsreqErrcode) : Answer :=
  { data := data, ret := data.length, derr := some derr }

def Answer.write (wlen : Nat) (derr : Option DsreqErrcode) : Answer :=
  { data := [], ret := wlen, derr := some derr }

/-- What `fread` does to the stream of a node, with the record of it. -/
def DStore.advance (st : DStore) (ses : Nat) (d : DNode) (dlen : Nat) (r : Fread) : DStore :=
  { st.after (st.files.called (.stdio .fread d.ses.clid d.ses.filename (!r.ferror))) with
    links := st.links.setVal ses { d with ses := { d.ses with fp := r.fp } }
    got := Function.update st.got d.fileno (st.got d.fileno ++ r.data)
    short :=
      if r.data.length < dlen ∧ r.ferror = false ∧ st.short d.fileno = none then
        Function.update st.short d.fileno (some (st.disk d.ses.fp.node).bytes)
      else st.short }

/-- `iwds_read` once the node is at hand. -/
def DStore.readFrom (st : DStore) (ses : Nat) (d : DNode) (dlen : Nat) : Answer × DStore :=
  let r := fread st.files d.ses.fp dlen
  let st := st.advance ses d dlen r
  if r.data.length < dlen ∧ r.ferror = true then (.read r.data (some .readFail), st.delDsession ses)
  else (.read r.data none, st)

def DStore.iwdsRead (vol : Volume) (st : DStore) (addr : Nat) (dsid : Int) (dfile : Bytes) (dlen : Nat) :
    Answer × DStore :=
  let st := st.after (st.files.note (.iwdsRead dsid dfile))
  match isDsfile vol st.files dfile with
  | .err => (.read [] (some .interError), st)
  | .no => (.read [] (some .notExist), st)
  | .yes =>
    match st.getDsession dsid dfile with
    | some ses =>
      match st.links.val ses with
      | none => (.read [] none, st)
      | some d => st.readFrom ses d dlen
    | none =>
      match st.createDsession vol addr dsid dfile .read with
      | (none, st) => (.read [] (some .noSession), st)
      | (some ses, st) =>
        match st.links.val ses with
        | none => (.read [] none, st)
        | some d => st.readFrom ses d dlen

/-- What `fwrite` does to the stream of a node and to its file. -/
def DStore.put (st : DStore) (ses : Nat) (d : DNode) (dbuf out : Bytes) : DStore :=
  let fp := d.ses.fp
  { st.after (st.files.called (.stdio .fwrite d.ses.clid d.ses.filename (out.length = dbuf.length))) with
    links := st.links.setVal ses { d with ses := { d.ses with fp := { fp with off := fp.off + out.length } } }
    disk := if out.length = 0 then st.disk else
      Function.update st.disk fp.node ((st.disk fp.node).put fp.off out) }

/-- `iwds_write` once the node is at hand. -/
def DStore.writeTo (st : DStore) (ses : Nat) (d : DNode) (dbuf : Bytes) : Answer × DStore :=
  if dbuf.length = 0 then (.write 0 none, st.delDsession ses)
  else
    let out := fwritten st.files d.ses.fp dbuf
    let st := st.put ses d dbuf out
    if out.length < dbuf.length then (.write out.length none, st.delDsession ses)
    else (.write out.length none, st)

def DStore.iwdsWrite (vol : Volume) (st : DStore) (addr : Nat) (dsid : Int) (dfile dbuf : Bytes) :
    Answer × DStore :=
  let st := st.after (st.files.note (.iwdsWrite dsid dfile dbuf.length))
  match st.getDsession dsid dfile with
  | some ses =>
    match st.links.val ses with
    | none => (.write 0 none, st)
    | some d => st.writeTo ses d dbuf
  | none =>
    match isDsfile vol st.files dfile with
    | .err => (.write 0 (some .interError), st)
    | .yes => (.write 0 (some .notPermit), st)
    | .no =>
      match st.createDsession vol addr dsid dfile .write with
      | (none, st) => (.write 0 (some .noSession), st)
      | (some ses, st) =>
        match st.links.val ses with
        | none => (.write 0 none, st)
        | some d => st.writeTo ses d dbuf

/-- `iwds_close`. Without a node, an empty request is answered with `IW_OK`, and `derr`
stays as it was. -/
def DStore.iwdsClose (st : DStore) (dsid : Int) (dfile : Bytes) (dlen : Nat) : Answer × DStore :=
  let st := st.after (st.files.note (.iwdsClose dsid dfile))
  match st.getDsession dsid dfile with
  | none =>
    if dlen = 0 then ({ data := [], ret := 0, derr := none }, st)
    else ({ data := [], ret := -1, derr := some (some .noSession) }, st)
  | some ses => ({ data := [], ret := 0, derr := some none }, st.delDsession ses)

/-- A request, the address that `malloc` would return and the faults that stdio meets. -/
structure DStore.Request where
  req : Dsreq
  addr : Nat
  faults : List Fault

/-- One call. -/
def DStore.call (vol : Volume) (st : DStore) (r : Request) : Answer × DStore :=
  let st := { st with faults := r.faults }
  match r.req with
  | .read dsid dfile dlen => st.iwdsRead vol r.addr dsid dfile dlen
  | .write dsid dfile dbuf => st.iwdsWrite vol r.addr dsid dfile dbuf
  | .close dsid dfile dlen => st.iwdsClose dsid dfile dlen

/-! ## Looking up -/

variable {vol : Volume} {st : DStore} {nodes : List (Nat × DNode)}

theorem DStore.shown_split (st : DStore) (xs ys : List (Nat × DNode)) (a : Nat) (d : DNode) :
    (st.shown (xs ++ (a, d) :: ys)).dhead =
      (xs.map fun x => x.2.ses) ++ d.ses :: ys.map fun x => x.2.ses := by
  simp [shown]

/-- A search fails, or it splits the list at the first node of the key. -/
theorem DStore.getDsession_cases (rep : Represents st.links nodes) (k : Int × Bytes) :
    (st.getDsession k.1 k.2 = none ∧ (st.shown nodes).at k = none) ∨
      ∃ xs a d ys, nodes = xs ++ (a, d) :: ys ∧ d.key = k ∧ st.getDsession k.1 k.2 = some a ∧
        (st.shown nodes).at k = some d.ses := by
  obtain ⟨missing, absent⟩ | ⟨xs, a, d, ys, rfl, -, rfl, found, there⟩ :=
    rep.lookup_cases DSession.key DNode.ses k
  · exact .inl ⟨missing, absent⟩
  · exact .inr ⟨xs, a, d, ys, rfl, rfl, found, there⟩

/-- `stdio` does not look at the list. -/
theorem DStore.fopen_shown (st : DStore) (nodes : List (Nat × DNode)) (id : Int) (file : Bytes) (mode : FMode) :
    fopen vol (st.shown nodes) id file mode =
      ((fopen vol st.files id file mode).1,
        (st.after (fopen vol st.files id file mode).2).shown nodes) := by
  have fault : (st.shown nodes).fault = st.files.fault := rfl
  have disk : (st.shown nodes).disk = st.files.disk := rfl
  simp only [fopen, fault, disk]
  cases st.files.fault <;> cases mode <;> cases st.files.disk (vol.node file) <;> rfl

/-! ## What is kept along the way -/

/-- What the record of a stream that is read says about its file: the reads so far have
delivered what comes before the offset, and that was all of it when one of them fell short. -/
structure DStore.Recorded (st : DStore) (d : DNode) : Prop where
  got : st.got d.fileno = (st.disk d.ses.fp.node).bytes.take d.ses.fp.off
  whole : ∀ content, st.short d.fileno = some content → st.got d.fileno = content
  eof : d.ses.fp.eof = true ↔ st.short d.fileno ≠ none

/-- The memory represents the nodes; every stream was closed or is held by one of them; the
records are right. -/
structure DStore.Kept (st : DStore) (nodes : List (Nat × DNode)) : Prop where
  represents : Represents st.links nodes
  files : (st.closed ++ nodes.map fun x => x.2.fileno).Perm (List.range st.opened)
  unused : ∀ n, st.opened ≤ n → st.got n = [] ∧ st.short n = none
  records : ∀ x ∈ nodes, x.2.ses.fp.mode = .read → st.Recorded x.2

/-- The nodes of other keys. -/
abbrev others (k : Int × Bytes) (nodes : List (Nat × DNode)) : List (Nat × DNode) :=
  nodes.filter fun x => x.2.key ≠ k

theorem others_split {xs ys : List (Nat × DNode)} {a : Nat} {d : DNode} :
    others d.key (xs ++ (a, d) :: ys) = others d.key (xs ++ ys) := by
  simp [others]

theorem DStore.bridge_eq (m : Mem Nat DNode) (pm : Nat) : bridge m pm = m.unlink pm := by
  unfold bridge Mem.unlink
  cases m.prev pm <;> cases m.next pm <;> rfl

/-- A node that is freed. -/
theorem DStore.Kept.free {xs ys : List (Nat × DNode)} {a : Nat} {d : DNode}
    (kept : Kept st (xs ++ (a, d) :: ys)) : Kept (st.freeDsession a d) (xs ++ ys) where
  represents := by
    have left := kept.represents.unlink
    rw [← bridge_eq] at left
    exact left
  files := by
    refine List.Perm.trans ?_ kept.files
    simp only [freeDsession, List.map_append, List.map_cons]
    have moved : (d.fileno :: (st.closed ++ ((xs.map fun x => x.2.fileno) ++ ys.map fun x => x.2.fileno))).Perm
        (st.closed ++ ((xs.map fun x => x.2.fileno) ++ d.fileno :: ys.map fun x => x.2.fileno)) := by
      rw [← List.append_assoc, ← List.append_assoc]
      exact List.perm_middle.symm
    exact moved
  unused := kept.unused
  records := by
    intro x member mode
    have old : x ∈ xs ++ (a, d) :: ys := by
      obtain inXs | inYs := List.mem_append.mp member
      · exact List.mem_append_left _ inXs
      · exact List.mem_append_right _ (List.mem_cons_of_mem _ inYs)
    obtain ⟨got, whole, eof⟩ := kept.records x old mode
    exact ⟨got, whole, eof⟩

/-- `del_dsession` frees the node it is given, the first of its key. -/
theorem DStore.delDsession_first {xs ys : List (Nat × DNode)} {a : Nat} {d : DNode}
    (rep : Represents st.links (xs ++ (a, d) :: ys)) (first : ∀ x ∈ xs, x.2.key ≠ d.key) :
    st.delDsession a = st.freeDsession a d ∧
      (st.freeDsession a d).shown (xs ++ ys) =
        Iwtftpd.delDsession (st.shown (xs ++ (a, d) :: ys)) d.ses.clid d.ses.filename := by
  have value : st.links.val a = some d := (rep.seg.node (by simp)).2
  have found : st.getDsession d.ses.clid d.ses.filename = some a := by
    have searched := rep.find fun pm => decide (pm.key = d.key)
    have here : (xs ++ (a, d) :: ys).find? (fun x => decide (x.2.key = d.key)) = some (a, d) := by
      rw [List.find?_append, List.find?_eq_none.mpr (by simpa using first)]
      simp
    rw [here] at searched
    exact searched
  constructor
  · simp only [delDsession, value, found]
  · have before : ∀ e ∈ xs.map fun x => x.2.ses, e.key ≠ d.ses.key := by
      intro e member
      obtain ⟨x, inside, rfl⟩ := List.mem_map.mp member
      exact first x inside
    have there : Iwtftpd.getDsession (st.shown (xs ++ (a, d) :: ys)).dhead d.ses.clid d.ses.filename =
        some d.ses := by
      rw [shown_split]
      exact Keyed.lookup_append DSession.key before
    have removed : Keyed.remove DSession.key (d.ses.clid, d.ses.filename)
        (st.shown (xs ++ (a, d) :: ys)).dhead = (xs ++ ys).map fun x => x.2.ses := by
      rw [shown_split, List.map_append]
      exact Keyed.remove_append DSession.key before
    simp only [Iwtftpd.delDsession, there, removed]
    rfl

/-- A node that `create_dsession` links, with a stream of its own. -/
theorem DStore.Kept.link {st' : DStore} {addr : Nat} {d : DNode} (kept : Kept st nodes)
    (fresh : addr ∉ st.links.live) (number : d.fileno = st.opened) (start : d.ses.fp.off = 0)
    (more : d.ses.fp.eof = false) (links : st'.links = st.links.push addr d)
    (opened : st'.opened = st.opened + 1) (closed : st'.closed = st.closed) (got : st'.got = st.got)
    (short : st'.short = st.short)
    (same : ∀ x ∈ nodes, st'.disk x.2.ses.fp.node = st.disk x.2.ses.fp.node) :
    Kept st' ((addr, d) :: nodes) where
  represents := by
    rw [links]
    exact kept.represents.push d fresh
  files := by
    rw [closed, opened, List.range_succ, List.map_cons, number]
    exact List.perm_middle.trans ((kept.files.cons st.opened).trans (List.perm_append_singleton _ _).symm)
  unused := by
    intro n beyond
    rw [got, short]
    exact kept.unused n (by omega)
  records := by
    intro x member mode
    obtain rfl | old := List.mem_cons.mp member
    · obtain ⟨nothing, never⟩ := kept.unused d.fileno (by omega)
      refine ⟨?_, ?_, ?_⟩
      · rw [got, nothing, start, List.take_zero]
      · intro content fell
        rw [short, never] at fell
        cases fell
      · rw [short, never, more]
        simp
    · obtain ⟨now, whole, eof⟩ := kept.records x old mode
      refine ⟨?_, ?_, ?_⟩
      · rw [got, same x old]
        exact now
      · rw [got, short]
        exact whole
      · rw [short]
        exact eof

/-- The streams of the nodes are different. -/
theorem DStore.Kept.apart {xs ys : List (Nat × DNode)} {a : Nat} {d : DNode}
    (kept : Kept st (xs ++ (a, d) :: ys)) : ∀ x ∈ xs ++ ys, x.2.fileno ≠ d.fileno := by
  have distinct := (kept.files.nodup_iff.mpr List.nodup_range).of_append_right
  simp only [List.map_append, List.map_cons, List.nodup_append, List.nodup_cons] at distinct
  obtain ⟨-, ⟨outside, -⟩, apart⟩ := distinct
  intro x member
  obtain inXs | inYs := List.mem_append.mp member
  · exact apart x.2.fileno (List.mem_map_of_mem inXs) d.fileno List.mem_cons_self
  · exact fun same => outside (same ▸ List.mem_map_of_mem inYs)

/-- A node whose stream moves. -/
theorem DStore.Kept.change {st' : DStore} {xs ys : List (Nat × DNode)} {a : Nat} {d d' : DNode}
    (kept : Kept st (xs ++ (a, d) :: ys)) (links : st'.links = st.links.setVal a d')
    (number : d'.fileno = d.fileno) (opened : st'.opened = st.opened) (closed : st'.closed = st.closed)
    (record : ∀ n, n ≠ d.fileno → st'.got n = st.got n ∧ st'.short n = st.short n)
    (behind : ∀ x ∈ xs ++ ys, (st'.disk x.2.ses.fp.node).bytes.take x.2.ses.fp.off =
      (st.disk x.2.ses.fp.node).bytes.take x.2.ses.fp.off)
    (own : d'.ses.fp.mode = .read → st'.Recorded d') : Kept st' (xs ++ (a, d') :: ys) where
  represents := by
    rw [links]
    exact kept.represents.setVal d'
  files := by
    have same : (xs ++ (a, d') :: ys).map (fun x => x.2.fileno) =
        (xs ++ (a, d) :: ys).map (fun x => x.2.fileno) := by simp [number]
    rw [same, opened, closed]
    exact kept.files
  unused := by
    intro n beyond
    have used : d.fileno < st.opened := by
      have inside : d.fileno ∈ st.closed ++ (xs ++ (a, d) :: ys).map fun x => x.2.fileno := by simp
      exact List.mem_range.mp (kept.files.subset inside)
    obtain ⟨got, short⟩ := record n (by omega)
    rw [got, short]
    exact kept.unused n (by omega)
  records := by
    have aside (x : Nat × DNode) (member : x ∈ xs ++ ys) (old : x ∈ xs ++ (a, d) :: ys)
        (mode : x.2.ses.fp.mode = .read) : st'.Recorded x.2 := by
      obtain ⟨got, short⟩ := record x.2.fileno (kept.apart x member)
      obtain ⟨now, whole, eof⟩ := kept.records x old mode
      refine ⟨?_, ?_, ?_⟩
      · rw [got, behind x member]
        exact now
      · rw [got, short]
        exact whole
      · rw [short]
        exact eof
    intro x member mode
    obtain inXs | inYs := List.mem_append.mp member
    · exact aside x (List.mem_append_left _ inXs) (List.mem_append_left _ inXs) mode
    · obtain rfl | later := List.mem_cons.mp inYs
      · exact own mode
      · exact aside x (List.mem_append_right _ later)
          (List.mem_append_right _ (List.mem_cons_of_mem _ later)) mode

/-! ## A read -/

/-- What `fread` delivers on a stream that is read goes on where the offset stands; without an
error, it reaches the end of the file where it falls short for the first time. -/
theorem fread_read (ds : IWDS) {fp : Stream} (dlen : Nat) (mode : fp.mode = .read)
    (inside : fp.off ≤ (ds.disk fp.node).bytes.length) :
    let r := fread ds fp dlen
    let content := (ds.disk fp.node).bytes
    r.fp.node = fp.node ∧ r.fp.mode = .read ∧
      content.take r.fp.off = content.take fp.off ++ r.data ∧
      (fp.eof = true → r.data = [] ∧ r.fp.eof = true) ∧
      (r.fp.eof = true ↔ fp.eof = true ∨ r.data.length < dlen ∧ r.ferror = false) ∧
      (fp.eof = false → r.ferror = false → r.data.length < dlen → content.take fp.off ++ r.data = content) := by
  obtain ⟨_, node, off, eof⟩ := fp
  obtain rfl : _ = FMode.read := mode
  dsimp only at inside ⊢
  generalize content : (ds.disk node).bytes = bytes at inside
  have onward (n : Nat) : bytes.take (off + ((bytes.drop off).take n).length) =
      bytes.take off ++ (bytes.drop off).take n := by
    rw [List.take_add, List.length_take]
    congr 1
    rw [← List.take_take, List.take_length]
  cases fault : ds.fault with
  | none =>
    cases eof with
    | true => simp [fread, fault]
    | false =>
      simp only [fread, fault, content, Bool.false_eq_true, if_false, onward, Bool.false_or, decide_eq_true_eq,
        and_true, false_or, true_and, false_implies, iff_self]
      intro _ _ fell
      rw [List.length_take] at fell
      have rest : (bytes.drop off).take dlen = bytes.drop off := List.take_of_length_le (by omega)
      rw [rest, List.take_append_drop]
  | fail moved =>
    cases eof with
    | true => simp [fread, fault]
    | false =>
      simp only [fread, fault, content, Bool.false_eq_true, if_false, List.take_take, onward, true_and]
      simp

/-- The record of a stream after `fread`. -/
theorem DStore.Recorded.advance {d : DNode} (record : st.Recorded d) (mode : d.ses.fp.mode = .read)
    (inside : d.ses.fp.off ≤ (st.disk d.ses.fp.node).bytes.length) (a dlen : Nat) :
    let r := fread st.files d.ses.fp dlen
    (st.advance a d dlen r).Recorded { d with ses := { d.ses with fp := r.fp } } := by
  obtain ⟨got, whole, eof⟩ := record
  obtain ⟨node, -, onward, ended, marks, reaches⟩ := fread_read st.files dlen mode inside
  have files : st.files.disk = st.disk := rfl
  rw [files] at onward reaches
  dsimp only at *
  generalize fread st.files d.ses.fp dlen = r at *
  have delivered : Function.update st.got d.fileno (st.got d.fileno ++ r.data) d.fileno =
      st.got d.fileno ++ r.data := Function.update_self _ _ _
  refine ⟨?_, ?_, ?_⟩
  · simp only [DStore.advance, delivered, node]
    rw [got]
    exact onward.symm
  · intro content fell
    simp only [DStore.advance, delivered] at fell ⊢
    split at fell
    · rename_i first
      rw [Function.update_self] at fell
      obtain rfl := Option.some.inj fell
      have more : d.ses.fp.eof = false := by
        rw [← Bool.not_eq_true, eof, not_not]
        exact first.2.2
      rw [got]
      exact reaches more first.2.1 first.1
    · have past : d.ses.fp.eof = true := eof.mpr (by rw [fell]; nofun)
      rw [(ended past).1, List.append_nil]
      exact whole content fell
  · simp only [DStore.advance]
    rw [marks]
    split
    · rename_i first
      simp [first.1, first.2.1]
    · rename_i not
      rw [eof]
      constructor
      · rintro (before | now)
        · exact before
        · exact fun never => not ⟨now.1, now.2, never⟩
      · exact .inl

/-- A call for a key that has delivered some bytes: the nodes of other keys are as they were,
the bytes go to the node of the key if there is one, what is noted about a short read is what
the file holds then, and the store is the one of the functions on lists. -/
structure DStore.Answered (st : DStore) (nodes : List (Nat × DNode)) (k : Int × Bytes) (data : Bytes)
    (st' : DStore) (ds : IWDS) (nodes' : List (Nat × DNode)) : Prop where
  kept : Kept st' nodes'
  shown : st'.shown nodes' = ds
  others : others k nodes' = others k nodes
  delivers : ∀ x ∈ nodes', st'.got x.2.fileno =
    if x.2.key = k then st.got x.2.fileno ++ data else st.got x.2.fileno
  notes : ∀ x ∈ nodes', st'.short x.2.fileno = st.short x.2.fileno ∨
    x.2.key = k ∧ st.short x.2.fileno = none ∧ st'.short x.2.fileno = some (st'.disk x.2.ses.fp.node).bytes

theorem keys_distinct (inv : Consistent vol (st.shown nodes)) : (nodes.map fun x => x.2.key).Nodup := by
  have keys := inv.distinct
  rw [DStore.shown, List.map_map] at keys
  exact keys

/-- Under distinct keys, a node is the only one of its key. -/
theorem unique_key {xs ys : List (Nat × DNode)} {a : Nat} {d : DNode}
    (distinct : ((xs ++ (a, d) :: ys).map fun x => x.2.key).Nodup) : ∀ x ∈ xs ++ ys, x.2.key ≠ d.key := by
  simp only [List.map_append, List.map_cons, List.nodup_append, List.nodup_cons] at distinct
  obtain ⟨-, ⟨outside, -⟩, apart⟩ := distinct
  intro x member
  obtain inXs | inYs := List.mem_append.mp member
  · exact apart x.2.key (List.mem_map_of_mem inXs) d.key List.mem_cons_self
  · exact fun same => outside (same ▸ List.mem_map_of_mem inYs)

/-- Overwriting a node that is the only one of its key, in the list that is shown. -/
theorem DStore.shown_setDsession (st : DStore) {xs ys : List (Nat × DNode)} (a : Nat) {d : DNode} (d' : DNode)
    (unique : ∀ x ∈ xs ++ ys, x.2.key ≠ d.key) (key : d'.key = d.key) :
    st.shown (xs ++ (a, d') :: ys) = (st.shown (xs ++ (a, d) :: ys)).setDsession d'.ses := by
  have before : ∀ e ∈ xs.map fun x => x.2.ses, e.key ≠ d.ses.key := by
    intro e member
    obtain ⟨x, inside, rfl⟩ := List.mem_map.mp member
    exact unique x (List.mem_append_left _ inside)
  have list : (st.shown (xs ++ (a, d') :: ys)).dhead =
      Keyed.store DSession.key d'.ses (st.shown (xs ++ (a, d) :: ys)).dhead := by
    rw [shown_split, shown_split]
    exact (Keyed.store_append DSession.key key before).symm
  simp only [IWDS.setDsession, ← list]
  rfl

/-- A call whose node stays, or is freed at the end of the call. -/
theorem DStore.Kept.answered {st' : DStore} {xs ys : List (Nat × DNode)} {a : Nat} {d d' : DNode} {data : Bytes}
    (kept : Kept st (xs ++ (a, d) :: ys)) (unique : ∀ x ∈ xs ++ ys, x.2.key ≠ d.key)
    (after : Kept st' (xs ++ (a, d') :: ys)) (key : d'.key = d.key) (number : d'.fileno = d.fileno)
    (own : st'.got d.fileno = st.got d.fileno ++ data)
    (note : st'.short d.fileno = st.short d.fileno ∨
      st.short d.fileno = none ∧ st'.short d.fileno = some (st'.disk d'.ses.fp.node).bytes)
    (elsewhere : ∀ n, n ≠ d.fileno → st'.got n = st.got n ∧ st'.short n = st.short n) :
    Answered st (xs ++ (a, d) :: ys) d.key data st' (st'.shown (xs ++ (a, d') :: ys)) (xs ++ (a, d') :: ys) ∧
      Answered st (xs ++ (a, d) :: ys) d.key data (st'.delDsession a)
        (Iwtftpd.delDsession (st'.shown (xs ++ (a, d') :: ys)) d.ses.clid d.ses.filename) (xs ++ ys) := by
  have aside (x : Nat × DNode) (member : x ∈ xs ++ ys) : st'.got x.2.fileno =
      if x.2.key = d.key then st.got x.2.fileno ++ data else st.got x.2.fileno := by
    rw [if_neg (unique x member)]
    exact (elsewhere _ (kept.apart x member)).1
  have quiet (x : Nat × DNode) (member : x ∈ xs ++ ys) : st'.short x.2.fileno = st.short x.2.fileno :=
    (elsewhere _ (kept.apart x member)).2
  have same : Iwtftpd.others d.key (xs ++ (a, d') :: ys) = Iwtftpd.others d.key (xs ++ ys) :=
    key ▸ @others_split xs ys a d'
  -- A node is the one of the call, or it stands beside it.
  have sides (x : Nat × DNode) (member : x ∈ xs ++ (a, d') :: ys) : x = (a, d') ∨ x ∈ xs ++ ys := by
    rw [List.mem_append, List.mem_cons] at member
    rw [List.mem_append]
    obtain inXs | own | inYs := member
    · exact .inr (.inl inXs)
    · exact .inl own
    · exact .inr (.inr inYs)
  constructor
  · refine ⟨after, rfl, same.trans others_split.symm, fun x member => ?_, fun x member => ?_⟩
    · obtain rfl | beside := sides x member
      · rw [if_pos key, number]
        exact own
      · exact aside x beside
    · obtain rfl | beside := sides x member
      · rw [number]
        exact note.imp_right fun ⟨never, now⟩ => ⟨key, never, now⟩
      · exact .inl (quiet x beside)
  · obtain ⟨freed, shown⟩ := delDsession_first after.represents
      fun x member => key ▸ unique x (List.mem_append_left _ member)
    have names : d'.ses.clid = d.ses.clid ∧ d'.ses.filename = d.ses.filename := Prod.mk.inj key
    rw [freed]
    refine ⟨after.free, ?_, others_split.symm, aside, fun x member => .inl (quiet x member)⟩
    rw [shown, names.1, names.2]

/-- A read on a node of the list. -/
theorem DStore.readFrom_served {xs ys : List (Nat × DNode)} {a : Nat} {d : DNode}
    (kept : Kept st (xs ++ (a, d) :: ys)) (inv : Consistent vol (st.shown (xs ++ (a, d) :: ys))) (dlen : Nat) :
    let r := st.readFrom a d dlen
    let r' := Iwtftpd.readFrom (st.shown (xs ++ (a, d) :: ys)) d.ses dlen
    r.1 = .read r'.data r'.derr ∧
      ∃ nodes', Answered st (xs ++ (a, d) :: ys) d.key r'.data r.2 r'.ds nodes' := by
  have unique := unique_key (keys_distinct inv)
  have member : d.ses ∈ (st.shown (xs ++ (a, d) :: ys)).dhead := by simp [shown]
  have inside (mode : d.ses.fp.mode = .read) :
      d.ses.fp.off ≤ (st.files.disk d.ses.fp.node).bytes.length :=
    inv.inside d.ses member (inv.reader_ordinary member mode)
  have same : fread (st.shown (xs ++ (a, d) :: ys)) d.ses.fp dlen = fread st.files d.ses.fp dlen := rfl
  dsimp only [readFrom, Iwtftpd.readFrom]
  rw [same]
  have own := fun mode => (kept.records (a, d) (by simp) mode).advance mode (inside mode) a dlen
  obtain ⟨eof, fp, -⟩ := fread_fp st.files d.ses.fp dlen
  dsimp only at own
  generalize fread st.files d.ses.fp dlen = r at own fp
  let d' : DNode := { d with ses := { d.ses with fp := r.fp } }
  have elsewhere (n : Nat) (other : n ≠ d.fileno) :
      (st.advance a d dlen r).got n = st.got n ∧ (st.advance a d dlen r).short n = st.short n := by
    refine ⟨Function.update_of_ne other _ _, ?_⟩
    simp only [advance]
    split
    · exact Function.update_of_ne other _ _
    · rfl
  have after : Kept (st.advance a d dlen r) (xs ++ (a, d') :: ys) := by
    have links : (st.advance a d dlen r).links = st.links.setVal a d' := rfl
    have number : d'.fileno = d.fileno := rfl
    apply kept.change links number rfl rfl elsewhere
    · exact fun _ _ => rfl
    · intro mode
      have unchanged : r.fp.mode = d.ses.fp.mode := by rw [fp]
      exact own (unchanged.symm.trans mode)
  have note : (st.advance a d dlen r).short d.fileno = st.short d.fileno ∨ st.short d.fileno = none ∧
      (st.advance a d dlen r).short d.fileno = some ((st.advance a d dlen r).disk d'.ses.fp.node).bytes := by
    have place : d'.ses.fp.node = d.ses.fp.node := by
      simp only [d']
      rw [fp]
    rw [place]
    simp only [advance]
    split
    · rename_i first
      exact .inr ⟨first.2.2, Function.update_self _ _ _⟩
    · exact .inl rfl
  have list : (st.advance a d dlen r).shown (xs ++ (a, d') :: ys) =
      ((st.shown (xs ++ (a, d) :: ys)).called
        (.stdio .fread d.ses.clid d.ses.filename (!r.ferror))).setDsession { d.ses with fp := r.fp } := by
    exact shown_setDsession _ a d' unique rfl
  obtain ⟨stays, freed⟩ := kept.answered unique after rfl rfl (Function.update_self _ _ _) note elsewhere
  rw [list] at stays freed
  split
  · exact ⟨rfl, _, freed⟩
  · exact ⟨rfl, _, stays⟩

/-! ## A write -/

/-- A write on a node of the list. -/
theorem DStore.writeTo_served {xs ys : List (Nat × DNode)} {a : Nat} {d : DNode}
    (kept : Kept st (xs ++ (a, d) :: ys)) (inv : Consistent vol (st.shown (xs ++ (a, d) :: ys)))
    (dbuf : Bytes) :
    let r := st.writeTo a d dbuf
    let r' := Iwtftpd.writeTo (st.shown (xs ++ (a, d) :: ys)) d.ses dbuf
    r.1 = .write r'.wlen r'.derr ∧
      ∃ nodes', Answered st (xs ++ (a, d) :: ys) d.key [] r.2 r'.ds nodes' := by
  have unique := unique_key (keys_distinct inv)
  dsimp only [writeTo, Iwtftpd.writeTo]
  split
  · obtain ⟨-, freed⟩ := kept.answered unique kept rfl rfl (List.append_nil _).symm (.inl rfl)
      fun _ _ => ⟨rfl, rfl⟩
    exact ⟨rfl, _, freed⟩
  · have same : fwritten (st.shown (xs ++ (a, d) :: ys)) d.ses.fp dbuf = fwritten st.files d.ses.fp dbuf := rfl
    rw [same]
    have reader (mode : d.ses.fp.mode = .read) : fwritten st.files d.ses.fp dbuf = [] := fwritten_read mode
    have own : d.ses ∈ (st.shown (xs ++ (a, d) :: ys)).dhead := by simp [shown]
    generalize fwritten st.files d.ses.fp dbuf = out at reader
    let d' : DNode := { d with ses := { d.ses with fp := { d.ses.fp with off := d.ses.fp.off + out.length } } }
    have after : Kept (st.put a d dbuf out) (xs ++ (a, d') :: ys) := by
      have links : (st.put a d dbuf out).links = st.links.setVal a d' := rfl
      have number : d'.fileno = d.fileno := rfl
      apply kept.change links number rfl rfl fun _ _ => ⟨rfl, rfl⟩
      · intro x member
        have old : x.2.ses ∈ (st.shown (xs ++ (a, d) :: ys)).dhead := by
          rw [shown_split, List.mem_append, List.mem_cons]
          obtain inXs | inYs := List.mem_append.mp member
          · exact .inl (List.mem_map_of_mem inXs)
          · exact .inr (.inr (List.mem_map_of_mem inYs))
        simp only [put]
        split
        · rfl
        · rename_i some
          by_cases place : x.2.ses.fp.node = d.ses.fp.node
          · have writer : d.ses.fp.mode = .write := by
              cases mode : d.ses.fp.mode with
              | write => rfl
              | read => exact absurd (by rw [reader mode, List.length_nil]) some
            rw [place, Function.update_self]
            by_cases device : st.disk d.ses.fp.node = .device
            · rw [device, FileNode.put_device]
            · have inside : x.2.ses.fp.off ≤ (st.disk x.2.ses.fp.node).bytes.length :=
                inv.inside _ old (place.symm ▸ device)
              have atEnd : d.ses.fp.off = (st.disk d.ses.fp.node).bytes.length :=
                inv.atEnd d.ses own device writer
              rw [put_bytes device, atEnd, overlay_end]
              rw [place] at inside
              exact List.take_append_of_le_length inside
          · rw [Function.update_of_ne place]
      · intro mode
        have nothing := reader mode
        obtain ⟨got, whole, eof⟩ := kept.records (a, d) (by simp) mode
        have disk : (st.put a d dbuf out).disk = st.disk := by simp [put, nothing]
        have off : d'.ses.fp.off = d.ses.fp.off := by simp [d', nothing]
        refine ⟨?_, whole, eof⟩
        rw [disk, off]
        exact got
    have list := shown_setDsession (st.put a d dbuf out) a d' unique rfl
    obtain ⟨stays, freed⟩ := kept.answered unique after rfl rfl (List.append_nil _).symm (.inl rfl)
      fun _ _ => ⟨rfl, rfl⟩
    rw [list] at stays freed
    split
    · exact ⟨rfl, _, freed⟩
    · exact ⟨rfl, _, stays⟩

/-! ## A new node -/

/-- On lists, `create_dsession` leaves the disk alone, or it links a node on a file of which no
other node knows anything new. -/
theorem createDsession_cases {ds : IWDS} (inv : Consistent vol ds) {id : Int} {file : Bytes} {mode : FMode}
    (absent : ds.at (id, file) = none)
    (unwritten : mode = .write → ∀ content, ds.disk (vol.node file) ≠ .regular content) :
    (∃ ds', Iwtftpd.createDsession vol ds id file mode = (none, ds') ∧ ds'.disk = ds.disk) ∨
      ∃ ds', Iwtftpd.createDsession vol ds id file mode = (some (opened vol (id, file) mode), ds') ∧
        Consistent vol ds' ∧ ∀ d ∈ ds.dhead, ds'.disk d.fp.node = ds.disk d.fp.node := by
  cases mode with
  | read =>
    obtain ⟨ds', created, -, -, disk⟩ | ⟨ds', created, -, regular, dhead, disk, -⟩ :=
      createDsession_read vol ds id file
    · exact .inl ⟨ds', created, disk⟩
    · have effect : Prim vol (id, file) ds ds' := .openRead absent regular dhead disk
      exact .inr ⟨ds', created, effect.consistent inv, fun _ _ => by rw [disk]⟩
  | write =>
    obtain ⟨ds', created, -, -, disk⟩ | ⟨ds', created, -, free, dhead, disk, -⟩ :=
      createDsession_write vol ds id file (unwritten rfl)
    · exact .inl ⟨ds', created, disk⟩
    · have effect : Prim vol (id, file) ds ds' := .openWrite absent free dhead disk
      refine .inr ⟨ds', created, effect.consistent inv, fun d member => ?_⟩
      rw [disk]
      exact truncated_beside (k := (id, file)) inv free member

/-- `create_dsession` for a key that has no node. -/
theorem DStore.createDsession_kept (kept : Kept st nodes) (inv : Consistent vol (st.shown nodes)) {addr : Nat}
    (fresh : addr ∉ st.links.live) {id : Int} {file : Bytes} (mode : FMode)
    (absent : (st.shown nodes).at (id, file) = none)
    (unwritten : mode = .write → ∀ content, st.disk (vol.node file) ≠ .regular content) :
    let r := st.createDsession vol addr id file mode
    let r' := Iwtftpd.createDsession vol (st.shown nodes) id file mode
    (r.2.got = st.got ∧ r.2.short = st.short) ∧
      ((r.1 = none ∧ r'.1 = none ∧ Kept r.2 nodes ∧ r.2.shown nodes = r'.2) ∨
        ∃ d, r.1 = some addr ∧ r'.1 = some d.ses ∧ d.key = (id, file) ∧ r.2.links.val addr = some d ∧
          Kept r.2 ((addr, d) :: nodes) ∧ r.2.shown ((addr, d) :: nodes) = r'.2 ∧ Consistent vol r'.2) := by
  obtain ⟨len, joined⟩ := joined_ret vol file
  have list := createDsession_eq vol (st.shown nodes) id file mode
  rw [fopen_shown] at list
  have outcome := createDsession_cases inv absent unwritten
  rw [list] at outcome ⊢
  simp only [createDsession, joined]
  generalize fopen vol st.files id file mode = answer at outcome ⊢
  obtain ⟨stream, ds⟩ := answer
  cases stream with
  | none =>
    dsimp only at outcome ⊢
    obtain ⟨ds', same, disk⟩ | ⟨ds', same, -⟩ := outcome
    · obtain ⟨-, rfl⟩ := Prod.mk.inj same
      refine ⟨⟨rfl, rfl⟩, .inl ⟨rfl, rfl, ⟨kept.represents, kept.files, kept.unused, fun x member mode => ?_⟩, rfl⟩⟩
      obtain ⟨got, whole, eof⟩ := kept.records x member mode
      have unchanged : (st.after ds).disk = st.disk := disk
      exact ⟨unchanged.symm ▸ got, whole, eof⟩
    · cases (Prod.mk.inj same).1
  | some fp =>
    dsimp only at outcome ⊢
    obtain ⟨ds', same, -⟩ | ⟨ds', same, inv', disk⟩ := outcome
    · cases (Prod.mk.inj same).1
    · obtain ⟨node, rfl⟩ := Prod.mk.inj same
      have stream : fp = (Iwtftpd.opened vol (id, file) mode).fp := congrArg DSession.fp (Option.some.inj node)
      let d : DNode := { ses := { clid := id, fp := fp, filename := file }, fileno := st.opened }
      let st' : DStore := { st.after ds with links := st.links.push addr d, opened := st.opened + 1 }
      have start : d.ses.fp.off = 0 := congrArg Stream.off stream
      have more : d.ses.fp.eof = false := congrArg Stream.eof stream
      have links : st'.links = st.links.push addr d := rfl
      have linked : Kept st' ((addr, d) :: nodes) :=
        kept.link fresh rfl start more links rfl rfl rfl rfl
          fun x member => disk x.2.ses (List.mem_map_of_mem member)
      have value := (linked.represents.seg.node (a := addr) (v := d) List.mem_cons_self).2
      exact ⟨⟨rfl, rfl⟩, .inr ⟨d, rfl, rfl, rfl, value, linked, rfl, inv'⟩⟩

/-! ## The calls -/

/-- An answer after steps that deliver nothing and touch no node of another key. -/
theorem DStore.Answered.after {st₀ st' : DStore} {before nodes' : List (Nat × DNode)} {k : Int × Bytes}
    {data : Bytes} {ds : IWDS} (answered : Answered st nodes k data st' ds nodes')
    (record : st.got = st₀.got ∧ st.short = st₀.short)
    (same : Iwtftpd.others k nodes = Iwtftpd.others k before) :
    Answered st₀ before k data st' ds nodes' where
  kept := answered.kept
  shown := answered.shown
  others := answered.others.trans same
  delivers := record.1 ▸ answered.delivers
  notes := record.2 ▸ answered.notes

/-- Nothing is delivered and no node changes. -/
theorem DStore.Kept.idle {st' : DStore} (kept : Kept st' nodes)
    (record : st'.got = st.got ∧ st'.short = st.short) (k : Int × Bytes) :
    Answered st nodes k [] st' (st'.shown nodes) nodes where
  kept := kept
  shown := rfl
  others := rfl
  delivers := by
    intro x _
    rw [record.1]
    split
    · exact (List.append_nil _).symm
    · rfl
  notes := fun x _ => .inl (by rw [record.2])

theorem DStore.Kept.note (kept : Kept st nodes) (e : Effect) : Kept (st.after (st.files.note e)) nodes :=
  ⟨kept.represents, kept.files, kept.unused, fun x member mode =>
    have record := kept.records x member mode
    ⟨record.got, record.whole, record.eof⟩⟩

/-- Every call begins with its mark in the record, which changes nothing else. -/
theorem DStore.Kept.noted (kept : Kept st nodes) (inv : Consistent vol (st.shown nodes)) (e : Effect) :
    ∃ st₁, st.after (st.files.note e) = st₁ ∧ (st.shown nodes).note e = st₁.shown nodes ∧ Kept st₁ nodes ∧
      Consistent vol (st₁.shown nodes) ∧ (st₁.got = st.got ∧ st₁.short = st.short) ∧ st₁.links = st.links :=
  ⟨_, rfl, rfl, kept.note e, inv.congr rfl rfl, ⟨rfl, rfl⟩, rfl⟩

theorem others_new {addr : Nat} {d : DNode} (nodes : List (Nat × DNode)) :
    others d.key ((addr, d) :: nodes) = others d.key nodes := by
  simp [others]

theorem DStore.iwdsRead_answered (kept : Kept st nodes) (inv : Consistent vol (st.shown nodes)) {addr : Nat}
    (fresh : addr ∉ st.links.live) (dsid : Int) (dfile : Bytes) (dlen : Nat) :
    let r := st.iwdsRead vol addr dsid dfile dlen
    let r' := Iwtftpd.iwdsRead vol (st.shown nodes) dsid dfile dlen
    r.1 = .read r'.data r'.derr ∧ ∃ nodes', Answered st nodes (dsid, dfile) r'.data r.2 r'.ds nodes' := by
  obtain ⟨st₁, start, shown, noted, inv₁, quiet, links⟩ := kept.noted inv (.iwdsRead dsid dfile)
  rw [← links] at fresh
  dsimp only [iwdsRead, Iwtftpd.iwdsRead]
  rw [start, shown]
  have file : isDsfile vol (st₁.shown nodes) dfile = isDsfile vol st₁.files dfile := rfl
  rw [file]
  cases isDsfile vol st₁.files dfile with
  | err | no => exact ⟨rfl, nodes, noted.idle quiet _⟩
  | yes =>
    obtain ⟨missing, absent⟩ | ⟨xs, a, d, ys, rfl, key, found, there⟩ :=
      getDsession_cases noted.represents (dsid, dfile)
    · have none : Iwtftpd.getDsession (st₁.shown nodes).dhead dsid dfile = none := absent
      dsimp only at missing
      simp only [missing, none]
      obtain ⟨quiet₂, outcome⟩ := createDsession_kept noted inv₁ fresh .read absent nofun
      generalize st₁.createDsession vol addr dsid dfile .read = r at quiet₂ outcome ⊢
      generalize Iwtftpd.createDsession vol (st₁.shown nodes) dsid dfile .read = r' at outcome ⊢
      obtain ⟨ses, st₂⟩ := r
      obtain ⟨ses', ds⟩ := r'
      obtain ⟨rfl, rfl, kept₂, rfl⟩ | ⟨d, rfl, rfl, key, value, kept₂, rfl, inv₂⟩ := outcome
      · exact ⟨rfl, nodes, kept₂.idle ⟨quiet₂.1.trans quiet.1, quiet₂.2.trans quiet.2⟩ _⟩
      · dsimp only at value ⊢
        simp only [value]
        have first : Kept st₂ ([] ++ (addr, d) :: nodes) := kept₂
        obtain ⟨reply, nodes', answered⟩ := readFrom_served first inv₂ dlen
        exact ⟨reply, nodes', key ▸ answered.after ⟨quiet₂.1.trans quiet.1, quiet₂.2.trans quiet.2⟩ (others_new nodes)⟩
    · have value : st₁.links.val a = some d := (noted.represents.seg.node (by simp)).2
      have some : Iwtftpd.getDsession (st₁.shown (xs ++ (a, d) :: ys)).dhead dsid dfile = some d.ses := there
      dsimp only at found
      simp only [found, some, value]
      obtain ⟨reply, nodes', answered⟩ := readFrom_served noted inv₁ dlen
      exact ⟨reply, nodes', key ▸ answered.after quiet rfl⟩

theorem DStore.iwdsWrite_answered (kept : Kept st nodes) (inv : Consistent vol (st.shown nodes)) {addr : Nat}
    (fresh : addr ∉ st.links.live) (dsid : Int) (dfile dbuf : Bytes) :
    let r := st.iwdsWrite vol addr dsid dfile dbuf
    let r' := Iwtftpd.iwdsWrite vol (st.shown nodes) dsid dfile dbuf
    r.1 = .write r'.wlen r'.derr ∧ ∃ nodes', Answered st nodes (dsid, dfile) [] r.2 r'.ds nodes' := by
  obtain ⟨st₁, start, shown, noted, inv₁, quiet, links⟩ := kept.noted inv (.iwdsWrite dsid dfile dbuf.length)
  rw [← links] at fresh
  dsimp only [iwdsWrite, Iwtftpd.iwdsWrite]
  rw [start, shown]
  obtain ⟨missing, absent⟩ | ⟨xs, a, d, ys, rfl, key, found, there⟩ :=
    getDsession_cases noted.represents (dsid, dfile)
  · have none : Iwtftpd.getDsession (st₁.shown nodes).dhead dsid dfile = none := absent
    have file : isDsfile vol (st₁.shown nodes) dfile = isDsfile vol st₁.files dfile := rfl
    dsimp only at missing
    simp only [missing, none, file]
    cases checked : isDsfile vol st₁.files dfile with
    | err | yes => exact ⟨rfl, nodes, noted.idle quiet _⟩
    | no =>
      have unwritten := (isDsfile_no_iff vol st₁.files dfile).mp checked
      obtain ⟨quiet₂, outcome⟩ := createDsession_kept noted inv₁ fresh .write absent fun _ => unwritten
      generalize st₁.createDsession vol addr dsid dfile .write = r at quiet₂ outcome ⊢
      generalize Iwtftpd.createDsession vol (st₁.shown nodes) dsid dfile .write = r' at outcome ⊢
      obtain ⟨ses, st₂⟩ := r
      obtain ⟨ses', ds⟩ := r'
      obtain ⟨rfl, rfl, kept₂, rfl⟩ | ⟨d, rfl, rfl, key, value, kept₂, rfl, inv₂⟩ := outcome
      · exact ⟨rfl, nodes, kept₂.idle ⟨quiet₂.1.trans quiet.1, quiet₂.2.trans quiet.2⟩ _⟩
      · dsimp only at value ⊢
        simp only [value]
        have first : Kept st₂ ([] ++ (addr, d) :: nodes) := kept₂
        obtain ⟨reply, nodes', answered⟩ := writeTo_served first inv₂ dbuf
        exact ⟨reply, nodes', key ▸ answered.after ⟨quiet₂.1.trans quiet.1, quiet₂.2.trans quiet.2⟩ (others_new nodes)⟩
  · have value : st₁.links.val a = some d := (noted.represents.seg.node (by simp)).2
    have some : Iwtftpd.getDsession (st₁.shown (xs ++ (a, d) :: ys)).dhead dsid dfile = some d.ses := there
    dsimp only at found
    simp only [found, some, value]
    obtain ⟨reply, nodes', answered⟩ := writeTo_served noted inv₁ dbuf
    exact ⟨reply, nodes', key ▸ answered.after quiet rfl⟩

theorem DStore.iwdsClose_answered (kept : Kept st nodes) (inv : Consistent vol (st.shown nodes)) (dsid : Int)
    (dfile : Bytes) (dlen : Nat) :
    ∃ nodes', Answered st nodes (dsid, dfile) [] (st.iwdsClose dsid dfile dlen).2
      (Iwtftpd.iwdsClose (st.shown nodes) dsid dfile) nodes' := by
  obtain ⟨st₁, start, shown, noted, inv₁, quiet, -⟩ := kept.noted inv (.iwdsClose dsid dfile)
  dsimp only [iwdsClose, Iwtftpd.iwdsClose]
  rw [start, shown]
  obtain ⟨missing, absent⟩ | ⟨xs, a, d, ys, rfl, key, found, -⟩ :=
    getDsession_cases noted.represents (dsid, dfile)
  · have none : Iwtftpd.delDsession (st₁.shown nodes) dsid dfile = st₁.shown nodes := by
      have none : Iwtftpd.getDsession (st₁.shown nodes).dhead dsid dfile = none := absent
      simp only [Iwtftpd.delDsession, none]
    dsimp only at missing
    simp only [missing, none]
    split
    · exact ⟨nodes, noted.idle quiet _⟩
    · exact ⟨nodes, noted.idle quiet _⟩
  · have unique := unique_key (keys_distinct inv₁)
    obtain ⟨-, freed⟩ := noted.answered unique noted rfl rfl (List.append_nil _).symm (.inl rfl)
      fun _ _ => ⟨rfl, rfl⟩
    dsimp only at found
    simp only [found]
    obtain ⟨rfl, rfl⟩ := Prod.mk.inj key
    exact ⟨_, freed.after quiet rfl⟩

end Iwtftpd
