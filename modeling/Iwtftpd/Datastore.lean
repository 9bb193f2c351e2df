import Mathlib.Logic.Function.Basic
import Iwtftpd.Lib.Keyed
import Iwtftpd.Util

/-!
# The datastore

`datastore.c` over a file system and stdio. The file system maps a place to a
file; `namei` resolves a path to its place, so two paths may name one file. A
stream remembers its place, its offset and its end-of-file flag. Bytes handed
to `fwrite` count as content of the file at once: the buffer of stdio is not
modelled, only the failures it may report late.

Whether a stdio call succeeds is not decided here. A step of the server comes
with the list of faults that its stdio calls meet, in order; past the end of
the list every call succeeds. Memory allocation succeeds throughout.
-/

namespace Iwtftpd

/-- What a place of the file system holds. A `device` stands for everything that
`stat` does not report as a regular file and that opens for writing all the same:
it takes bytes and the file system keeps none of them. -/
inductive FileNode where
  | absent
  | regular (content : Bytes)
  | directory
  | device
deriving DecidableEq

/-- The bytes of a regular file. -/
def FileNode.bytes : FileNode → Bytes
  | .regular content => content
  | _ => []

/-- What `iwds_write` can open when it has no session of the key: `is_dsfile`
turns a regular file away, and `fopen` a directory. -/
def FileNode.Opens : FileNode → Prop
  | .absent | .device => True
  | .regular _ | .directory => False

instance FileNode.opensDecidable : ∀ file : FileNode, Decidable file.Opens
  | .absent | .device => .isTrue trivial
  | .regular _ | .directory => .isFalse not_false

/-- The file after `fopen` for writing, which creates it or cuts it to nothing. -/
def FileNode.truncated : FileNode → FileNode
  | .absent | .regular _ => .regular []
  | file => file

/-- `MODE_READ` and `MODE_WRITE`. -/
inductive FMode where
  | read
  | write
deriving DecidableEq

/-- A `FILE` open on a place. -/
structure Stream where
  mode : FMode
  node : Bytes
  off : Nat
  eof : Bool
deriving DecidableEq

/-- The outcome of one stdio call; a failing read or write still moves the given
number of bytes, when that is fewer than asked for. -/
inductive Fault where
  | none
  | fail (moved : Nat)
deriving DecidableEq

inductive Stdio where
  | fopen
  | fread
  | fwrite
  | fclose
deriving DecidableEq

/-- What a step does to memory and files, for the record. -/
inductive Effect where
  /-- A copy into `sesbuf->storage`: index of its first byte and length. -/
  | copyIn (pos len : Nat)
  /-- A copy out of `sesbuf->storage`. -/
  | copyOut (pos len : Nat)
  | iwdsRead (dsid : Int) (dfile : Bytes)
  | iwdsWrite (dsid : Int) (dfile : Bytes) (dlen : Nat)
  | iwdsClose (dsid : Int) (dfile : Bytes)
  /-- A stdio call on the file of a datastore session and whether it succeeded. -/
  | stdio (call : Stdio) (dsid : Int) (dfile : Bytes) (success : Bool)
deriving DecidableEq

/-- `struct dsession`. -/
structure DSession where
  clid : Int
  fp : Stream
  filename : Bytes
deriving DecidableEq

/-- What `get_dsession` compares. -/
def DSession.key (d : DSession) : Int × Bytes := (d.clid, d.filename)

/-- `struct _iwds` with the file system under it, the faults that await the next
stdio calls, and the record of the step so far, newest first. -/
structure IWDS where
  dhead : List DSession
  disk : Bytes → FileNode
  faults : List Fault
  trace : List Effect

/-- The directory the datastore serves and how the kernel resolves its paths. -/
structure Volume where
  dspath : Bytes
  namei : Bytes → Bytes

/-- The buffer that `is_dsfile` and `create_dsession` have `join_path` fill. -/
def Volume.joined (vol : Volume) (file : Bytes) : Joined :=
  joinPath vol.dspath file (vol.dspath.length + file.length + 2)

/-- The place that a file name of the datastore leads to. -/
def Volume.node (vol : Volume) (file : Bytes) : Bytes :=
  vol.namei (cstr (vol.joined file).stored)

def IWDS.note (ds : IWDS) (e : Effect) : IWDS := { ds with trace := e :: ds.trace }

/-- The fault that awaits the next stdio call. -/
def IWDS.fault (ds : IWDS) : Fault := ds.faults.headD .none

/-- A stdio call takes its fault and leaves its mark. -/
def IWDS.called (ds : IWDS) (e : Effect) : IWDS :=
  { ds with faults := ds.faults.tail, trace := e :: ds.trace }

/-! ## stdio -/

/-- `fopen` for a datastore session of the given key. Opening for writing creates
or truncates a regular file, opens a device as it is and fails on a directory.
Opening for reading is only reached for a regular file. -/
def fopen (vol : Volume) (ds : IWDS) (id : Int) (file : Bytes) (mode : FMode) :
    Option Stream × IWDS :=
  let node := vol.node file
  match ds.fault, mode, ds.disk node with
  | .none, .read, .regular _ =>
      (some { mode := .read, node := node, off := 0, eof := false },
        ds.called (.stdio .fopen id file true))
  | .none, .write, .absent | .none, .write, .regular _ | .none, .write, .device =>
      (some { mode := .write, node := node, off := 0, eof := false },
        { ds.called (.stdio .fopen id file true) with
          disk := Function.update ds.disk node (ds.disk node).truncated })
  | _, _, _ => (none, ds.called (.stdio .fopen id file false))

/-- What `fread` delivers, whether `ferror` holds afterwards, and the stream. -/
structure Fread where
  data : Bytes
  ferror : Bool
  fp : Stream

/-- `fread` of at most `dlen` bytes. The end-of-file flag is sticky; a stream open
for writing only yields an error. -/
def fread (ds : IWDS) (fp : Stream) (dlen : Nat) : Fread :=
  let ahead := if fp.eof then [] else ((ds.disk fp.node).bytes.drop fp.off).take dlen
  match fp.mode, ds.fault with
  | .write, _ => { data := [], ferror := true, fp := fp }
  | .read, .none =>
      { data := ahead, ferror := false,
        fp := { fp with off := fp.off + ahead.length, eof := fp.eof || ahead.length < dlen } }
  | .read, .fail moved =>
      let got := ahead.take (min moved (dlen - 1))
      { data := got, ferror := true, fp := { fp with off := fp.off + got.length } }

/-- A file after bytes were put at an offset. -/
def overlay (content : Bytes) (off : Nat) (data : Bytes) : Bytes :=
  content.take off ++ List.replicate (off - content.length) 0 ++ data ++
    content.drop (off + data.length)

/-- A file after bytes were written to it at an offset. -/
def FileNode.put (off : Nat) (data : Bytes) : FileNode → FileNode
  | .device => .device
  | file => .regular (overlay file.bytes off data)

/-- The bytes that `fwrite` gets out: all, or fewer when it fails; none on a
stream open for reading only. -/
def fwritten (ds : IWDS) (fp : Stream) (data : Bytes) : Bytes :=
  match fp.mode, ds.fault with
  | .read, _ => []
  | .write, .none => data
  | .write, .fail moved => data.take (min moved (data.length - 1))

/-! ## Internal functions -/

/-- What `is_dsfile` returns. -/
inductive IsFile where
  | err
  | no
  | yes
deriving DecidableEq

/-- `is_dsfile`: `stat` of the joined path reports a regular file. -/
def isDsfile (vol : Volume) (ds : IWDS) (file : Bytes) : IsFile :=
  match (vol.joined file).ret with
  | none => .err
  | some _ =>
    match ds.disk (vol.node file) with
    | .regular _ => .yes
    | _ => .no

def getDsession (dhead : List DSession) (id : Int) (file : Bytes) : Option DSession :=
  Keyed.lookup DSession.key (id, file) dhead

/-- Update of a node in place. -/
def IWDS.setDsession (ds : IWDS) (d : DSession) : IWDS :=
  { ds with dhead := Keyed.store DSession.key d ds.dhead }

/-- `create_dsession`: open the file and link a node before the head. -/
def createDsession (vol : Volume) (ds : IWDS) (id : Int) (file : Bytes) (mode : FMode) :
    Option DSession × IWDS :=
  match (vol.joined file).ret with
  | none => (none, ds)
  | some _ =>
    match fopen vol ds id file mode with
    | (none, ds) => (none, ds)
    | (some fp, ds) =>
      let node : DSession := { clid := id, fp := fp, filename := file }
      (some node, { ds with dhead := node :: ds.dhead })

/-- `del_dsession`: unlink the node found under the key and close its stream. A
failure of `fclose` is only logged. -/
def delDsession (ds : IWDS) (id : Int) (file : Bytes) : IWDS :=
  match getDsession ds.dhead id file with
  | none => ds
  | some _ =>
    { ds.called (.stdio .fclose id file (ds.fault = .none)) with
      dhead := Keyed.remove DSession.key (id, file) ds.dhead }

/-! ## Interfaces -/

/-- `enum DSREQ_ERRCODE`. -/
inductive DsreqErrcode where
  | interError
  | invalidObj
  | noReq
  | notExist
  | notPermit
  | noSession
  | readFail
  | writeFail
deriving DecidableEq

/-- What `iwds_read` puts into `dbuf`, its `derr` (`none` for `IW_OK`) and the
datastore afterwards. -/
structure ReadReply where
  data : Bytes
  derr : Option DsreqErrcode
  ds : IWDS

/-- `iwds_read` once the node is at hand. -/
def readFrom (ds : IWDS) (ses : DSession) (dlen : Nat) : ReadReply :=
  let r := fread ds ses.fp dlen
  let ds := (ds.called (.stdio .fread ses.clid ses.filename (!r.ferror))).setDsession
    { ses with fp := r.fp }
  if r.data.length < dlen ∧ r.ferror = true then
    { data := r.data, derr := some .readFail, ds := delDsession ds ses.clid ses.filename }
  else
    { data := r.data, derr := none, ds := ds }

def iwdsRead (vol : Volume) (ds : IWDS) (dsid : Int) (dfile : Bytes) (dlen : Nat) : ReadReply :=
  let ds := ds.note (.iwdsRead dsid dfile)
  match isDsfile vol ds dfile with
  | .err => { data := [], derr := some .interError, ds := ds }
  | .no => { data := [], derr := some .notExist, ds := ds }
  | .yes =>
    match getDsession ds.dhead dsid dfile with
    | some ses => readFrom ds ses dlen
    | none =>
      match createDsession vol ds dsid dfile .read with
      | (none, ds) => { data := [], derr := some .noSession, ds := ds }
      | (some ses, ds) => readFrom ds ses dlen

/-- What `iwds_write` returns, its `derr` and the datastore afterwards. -/
structure WriteReply where
  wlen : Nat
  derr : Option DsreqErrcode
  ds : IWDS

/-- `iwds_write` once the node is at hand. An empty request ends the writing. A
short write removes the node, and `derr` is overwritten with `IW_OK` all the
same. -/
def writeTo (ds : IWDS) (ses : DSession) (dbuf : Bytes) : WriteReply :=
  if dbuf.length = 0 then
    { wlen := 0, derr := none, ds := delDsession ds ses.clid ses.filename }
  else
    let out := fwritten ds ses.fp dbuf
    let ds := ((ds.called (.stdio .fwrite ses.clid ses.filename (out.length = dbuf.length))).setDsession
      { ses with fp := { ses.fp with off := ses.fp.off + out.length } })
    let ds := { ds with
      disk := if out.length = 0 then ds.disk else
        Function.update ds.disk ses.fp.node ((ds.disk ses.fp.node).put ses.fp.off out) }
    if out.length < dbuf.length then
      { wlen := out.length, derr := none, ds := delDsession ds ses.clid ses.filename }
    else
      { wlen := out.length, derr := none, ds := ds }

def iwdsWrite (vol : Volume) (ds : IWDS) (dsid : Int) (dfile : Bytes) (dbuf : Bytes) :
    WriteReply :=
  let ds := ds.note (.iwdsWrite dsid dfile dbuf.length)
  match getDsession ds.dhead dsid dfile with
  | some ses => writeTo ds ses dbuf
  | none =>
    match isDsfile vol ds dfile with
    | .err => { wlen := 0, derr := some .interError, ds := ds }
    | .yes => { wlen := 0, derr := some .notPermit, ds := ds }
    | .no =>
      match createDsession vol ds dsid dfile .write with
      | (none, ds) => { wlen := 0, derr := some .noSession, ds := ds }
      | (some ses, ds) => writeTo ds ses dbuf

/-- `iwds_close` with an empty request, as `close_data` calls it: a missing node
is no error. -/
def iwdsClose (ds : IWDS) (dsid : Int) (dfile : Bytes) : IWDS :=
  delDsession (ds.note (.iwdsClose dsid dfile)) dsid dfile

def iwdsIsfile (vol : Volume) (ds : IWDS) (filename : Bytes) : IsFile :=
  isDsfile vol ds filename

/-! ## What the checks amount to -/

/-- With a buffer of the size that is allocated, `join_path` never fails. -/
theorem joined_ret (vol : Volume) (file : Bytes) : ∃ len, (vol.joined file).ret = some len :=
  Option.ne_none_iff_exists'.mp (joinPath_fits vol.dspath file)

theorem isDsfile_eq (vol : Volume) (ds : IWDS) (file : Bytes) :
    isDsfile vol ds file =
      match ds.disk (vol.node file) with
      | .regular _ => .yes
      | _ => .no := by
  obtain ⟨len, joined⟩ := joined_ret vol file
  simp only [isDsfile, joined]

theorem isDsfile_yes_iff (vol : Volume) (ds : IWDS) (file : Bytes) :
    isDsfile vol ds file = .yes ↔ ∃ content, ds.disk (vol.node file) = .regular content := by
  rw [isDsfile_eq]
  cases ds.disk (vol.node file) <;> simp

theorem isDsfile_no_iff (vol : Volume) (ds : IWDS) (file : Bytes) :
    isDsfile vol ds file = .no ↔ ∀ content, ds.disk (vol.node file) ≠ .regular content := by
  rw [isDsfile_eq]
  cases ds.disk (vol.node file) <;> simp

theorem isDsfile_ne_err (vol : Volume) (ds : IWDS) (file : Bytes) :
    isDsfile vol ds file ≠ .err := by
  rw [isDsfile_eq]
  cases ds.disk (vol.node file) <;> simp

/-- A device apart, what opens for a new session is not there yet. -/
theorem FileNode.Opens.absent {file : FileNode} (opens : file.Opens) (ordinary : file ≠ .device) :
    file = .absent := by
  cases file with
  | absent => rfl
  | device => exact absurd rfl ordinary
  | regular | directory => cases opens

/-- What is there and is no device does not open for a new session. -/
theorem FileNode.not_opens {file : FileNode} (there : file ≠ .absent) (ordinary : file ≠ .device) :
    ¬ file.Opens :=
  fun opens => there (opens.absent ordinary)

theorem FileNode.Opens.not_regular {file : FileNode} (opens : file.Opens) (content : Bytes) :
    file ≠ .regular content := by
  rintro rfl
  cases opens

/-- Neither `fopen` nor `fwrite` turns a device into anything else. -/
@[simp] theorem FileNode.truncated_device : FileNode.device.truncated = .device := rfl

@[simp] theorem FileNode.put_device (off : Nat) (data : Bytes) : FileNode.device.put off data = .device := rfl

@[simp] theorem FileNode.truncated_absent : FileNode.absent.truncated = .regular [] := rfl

@[simp] theorem FileNode.put_regular (content : Bytes) (off : Nat) (data : Bytes) :
    (FileNode.regular content).put off data = .regular (overlay content off data) := rfl

theorem put_bytes {file : FileNode} {off : Nat} {data : Bytes} (ordinary : file ≠ .device) :
    (file.put off data).bytes = overlay file.bytes off data := by
  cases file with
  | device => exact absurd rfl ordinary
  | absent | regular | directory => rfl

/-- What was opened for writing is there. -/
theorem FileNode.truncated_there (file : FileNode) : file.truncated ≠ .absent := by
  cases file <;> exact FileNode.noConfusion

theorem FileNode.put_there (off : Nat) (data : Bytes) (file : FileNode) : file.put off data ≠ .absent := by
  cases file <;> exact FileNode.noConfusion

/-- Writing at the end of a file appends. -/
theorem overlay_end (content data : Bytes) :
    overlay content content.length data = content ++ data := by
  simp [overlay]

@[simp] theorem overlay_nil (data : Bytes) : overlay [] 0 data = data := by
  simp [overlay]

end Iwtftpd
