import Iwtftpd.DatastoreSteps

/-!
# Laws of the datastore

The invariant of the node list and the disk, and what a chain of effects cannot
do: a regular file never shrinks, a file nobody has open for writing never
changes, and a file that one key has open for writing is changed for no other.
Faults are unrestricted throughout.
-/

namespace Iwtftpd

variable {vol : Volume} {k : Int × Bytes} {ds ds' : IWDS}

/-- Keys are distinct, every node is open on the regular file its name leads to, or
writes the device there. A writer of a file stands at its end, and no file has two
writers; a device may have any number. -/
structure Consistent (vol : Volume) (ds : IWDS) : Prop where
  distinct : (ds.dhead.map DSession.key).Nodup
  placed : ∀ d ∈ ds.dhead, d.fp.node = vol.node d.filename
  present : ∀ d ∈ ds.dhead, (∃ content, ds.disk d.fp.node = .regular content) ∨
    ds.disk d.fp.node = .device ∧ d.fp.mode = .write
  inside : ∀ d ∈ ds.dhead, ds.disk d.fp.node ≠ .device →
    d.fp.off ≤ (ds.disk d.fp.node).bytes.length
  atEnd : ∀ d ∈ ds.dhead, ds.disk d.fp.node ≠ .device → d.fp.mode = .write →
    d.fp.off = (ds.disk d.fp.node).bytes.length
  oneWriter : ∀ d ∈ ds.dhead, ∀ e ∈ ds.dhead, ds.disk d.fp.node ≠ .device →
    d.fp.mode = .write → e.fp.mode = .write → d.fp.node = e.fp.node → d = e

/-- A file that a node is open on is there. -/
theorem Consistent.regular {d : DSession} (inv : Consistent vol ds) (member : d ∈ ds.dhead)
    (ordinary : ds.disk d.fp.node ≠ .device) : ∃ content, ds.disk d.fp.node = .regular content :=
  (inv.present d member).resolve_right fun device => ordinary device.1

/-- Nobody reads a device. -/
theorem Consistent.reader_ordinary {d : DSession} (inv : Consistent vol ds) (member : d ∈ ds.dhead)
    (mode : d.fp.mode = .read) : ds.disk d.fp.node ≠ .device := by
  rcases inv.present d member with ⟨content, held⟩ | ⟨_, writes⟩
  · rw [held]
    exact FileNode.noConfusion
  · rw [mode] at writes
    cases writes

/-- Something is at the place that a node is open on. -/
theorem Consistent.there {d : DSession} (inv : Consistent vol ds) (member : d ∈ ds.dhead) :
    ds.disk d.fp.node ≠ .absent := by
  rcases inv.present d member with ⟨content, held⟩ | ⟨held, _⟩ <;> rw [held] <;> exact FileNode.noConfusion

/-- Nothing that is absent or a directory has a node open on it. -/
theorem Consistent.not_opens {d : DSession} (inv : Consistent vol ds) (member : d ∈ ds.dhead)
    (ordinary : ds.disk d.fp.node ≠ .device) : ¬ (ds.disk d.fp.node).Opens := by
  obtain ⟨content, held⟩ := inv.regular member ordinary
  rw [held]
  exact not_false

theorem at_mem {d : DSession} (found : ds.at k = some d) : d ∈ ds.dhead :=
  (Keyed.lookup_some DSession.key found).2

/-- An empty list of nodes is consistent with any disk. -/
theorem consistent_nil (none : ds.dhead = []) : Consistent vol ds := by
  constructor <;> simp [none]

/-- Nodes and disk decide; faults and the record do not. -/
theorem Consistent.congr (inv : Consistent vol ds) (dhead : ds'.dhead = ds.dhead)
    (disk : ds'.disk = ds.disk) : Consistent vol ds' := by
  obtain ⟨distinct, placed, present, inside, atEnd, oneWriter⟩ := inv
  constructor <;> simp only [dhead, disk] <;> assumption

/-- Dropping nodes keeps the invariant. -/
theorem Consistent.sublist (inv : Consistent vol ds) (fewer : ds'.dhead.Sublist ds.dhead)
    (disk : ds'.disk = ds.disk) : Consistent vol ds' where
  distinct := inv.distinct.sublist (fewer.map DSession.key)
  placed := fun d member => inv.placed d (fewer.subset member)
  present := fun d member => disk ▸ inv.present d (fewer.subset member)
  inside := fun d member => disk ▸ inv.inside d (fewer.subset member)
  atEnd := fun d member => disk ▸ inv.atEnd d (fewer.subset member)
  oneWriter := fun d left e right =>
    disk ▸ inv.oneWriter d (fewer.subset left) e (fewer.subset right)

private theorem consistent_link {mode : FMode} {disk' : Bytes → FileNode}
    (inv : Consistent vol ds) (absent : ds.at k = none)
    (same : ∀ d ∈ ds.dhead, disk' d.fp.node = ds.disk d.fp.node)
    (file : (∃ content, disk' (vol.node k.2) = .regular content) ∨
      disk' (vol.node k.2) = .device ∧ mode = .write)
    (fresh : mode = .write → disk' (vol.node k.2) ≠ .device → disk' (vol.node k.2) = .regular [] ∧
      ∀ d ∈ ds.dhead, d.fp.node ≠ vol.node k.2)
    (dhead : ds'.dhead = opened vol k mode :: ds.dhead) (disk : ds'.disk = disk') :
    Consistent vol ds' := by
  have unlinked := (Keyed.lookup_none_iff DSession.key).mp absent
  constructor
  · rw [dhead, List.map_cons, List.nodup_cons]
    refine ⟨?_, inv.distinct⟩
    intro repeated
    obtain ⟨d, member, equal⟩ := List.mem_map.mp repeated
    exact unlinked d member equal
  all_goals rw [dhead]
  · intro d member
    rcases List.mem_cons.mp member with rfl | old
    · rfl
    · exact inv.placed d old
  · intro d member
    rw [disk]
    rcases List.mem_cons.mp member with rfl | old
    · exact file
    · rw [same d old]
      exact inv.present d old
  · intro d member
    rw [disk]
    rcases List.mem_cons.mp member with rfl | old
    · exact fun _ => Nat.zero_le _
    · rw [same d old]
      exact inv.inside d old
  · intro d member
    rw [disk]
    rcases List.mem_cons.mp member with rfl | old
    · intro ordinary writes
      have empty : disk' (opened vol k mode).fp.node = .regular [] := (fresh writes ordinary).1
      rw [empty]
      rfl
    · rw [same d old]
      exact inv.atEnd d old
  · intro d left e right
    rw [disk]
    intro ordinary dWrites eWrites equal
    rcases List.mem_cons.mp left with rfl | dOld <;> rcases List.mem_cons.mp right with rfl | eOld
    · rfl
    · exact absurd equal.symm ((fresh dWrites ordinary).2 e eOld)
    · have equal : d.fp.node = vol.node k.2 := equal
      exact absurd equal ((fresh eWrites (equal ▸ ordinary)).2 d dOld)
    · exact inv.oneWriter d dOld e eOld (same d dOld ▸ ordinary) dWrites eWrites equal

/-- Opening for writing changes no place that a node is open on. -/
theorem truncated_beside {d : DSession} (inv : Consistent vol ds) (free : (ds.disk (vol.node k.2)).Opens)
    (member : d ∈ ds.dhead) :
    Function.update ds.disk (vol.node k.2) (ds.disk (vol.node k.2)).truncated d.fp.node =
      ds.disk d.fp.node := by
  by_cases here : d.fp.node = vol.node k.2
  · by_cases ordinary : ds.disk d.fp.node = .device
    · rw [here, Function.update_self, ← here, ordinary, FileNode.truncated_device]
    · exact absurd (here ▸ free) (inv.not_opens member ordinary)
  · exact Function.update_of_ne here _ _

/-- The nodes after one of them has moved. -/
private theorem moved_mem {e d : DSession} {off : Nat} (inv : Consistent vol ds)
    (dhead : ds'.dhead = Keyed.store DSession.key { e with fp := { e.fp with off := off } } ds.dhead)
    (member : d ∈ ds'.dhead) :
    d = { e with fp := { e.fp with off := off } } ∨ d ∈ ds.dhead ∧ d.key ≠ e.key := by
  rw [dhead] at member
  exact Keyed.mem_store_ne DSession.key inv.distinct member

/-- Bytes for a device are gone, and nothing but the offset of the stream moves. -/
private theorem Consistent.discard {e : DSession} {off : Nat} (inv : Consistent vol ds)
    (device : ds.disk e.fp.node = .device) (eMember : e ∈ ds.dhead) (mode : e.fp.mode = .write)
    (dhead : ds'.dhead = Keyed.store DSession.key { e with fp := { e.fp with off := off } } ds.dhead)
    (disk : ds'.disk = ds.disk) : Consistent vol ds' := by
  have members {d : DSession} (member : d ∈ ds'.dhead) := moved_mem inv dhead member
  constructor
  · rw [dhead, Keyed.store_keys]
    exact inv.distinct
  all_goals try rw [disk]
  · intro d member
    rcases members member with rfl | ⟨old, _⟩
    · exact inv.placed e eMember
    · exact inv.placed d old
  · intro d member
    rcases members member with rfl | ⟨old, _⟩
    · exact .inr ⟨device, mode⟩
    · exact inv.present d old
  · intro d member ordinary
    rcases members member with rfl | ⟨old, _⟩
    · exact absurd device ordinary
    · exact inv.inside d old ordinary
  · intro d member ordinary
    rcases members member with rfl | ⟨old, _⟩
    · exact absurd device ordinary
    · exact inv.atEnd d old ordinary
  · intro d left f right ordinary dWrites fWrites equal
    rcases members left with rfl | ⟨dOld, _⟩
    · exact absurd device ordinary
    rcases members right with rfl | ⟨fOld, _⟩
    · exact absurd device (equal ▸ ordinary)
    · exact inv.oneWriter d dOld f fOld ordinary dWrites fWrites equal

/-- The only writer of a file stands at its end, so what it writes is appended. -/
private theorem Consistent.append {e : DSession} {data : Bytes} (inv : Consistent vol ds)
    (ordinary : ds.disk e.fp.node ≠ .device) (eMember : e ∈ ds.dhead) (mode : e.fp.mode = .write)
    (dhead : ds'.dhead = Keyed.store DSession.key
      { e with fp := { e.fp with off := e.fp.off + data.length } } ds.dhead)
    (disk : ds'.disk = Function.update ds.disk e.fp.node ((ds.disk e.fp.node).put e.fp.off data)) :
    Consistent vol ds' := by
  obtain ⟨content, held⟩ := inv.regular eMember ordinary
  have endOff : e.fp.off = content.length := by
    have := inv.atEnd e eMember ordinary mode
    rwa [held] at this
  have appended : ds'.disk = Function.update ds.disk e.fp.node (.regular (content ++ data)) := by
    rw [disk, held, endOff, FileNode.put_regular, overlay_end]
  have others {d : DSession} (member : d ∈ ds'.dhead) := moved_mem inv dhead member
  have apart {d : DSession} (old : d ∈ ds.dhead) (other : d.key ≠ e.key) (writes : d.fp.mode = .write) :
      d.fp.node ≠ e.fp.node := fun same =>
    other (congrArg DSession.key (inv.oneWriter d old e eMember (same ▸ ordinary) writes mode same))
  constructor
  · rw [dhead, Keyed.store_keys]
    exact inv.distinct
  · intro d member
    rcases others member with rfl | ⟨old, _⟩
    · exact inv.placed e eMember
    · exact inv.placed d old
  · intro d member
    rw [appended]
    by_cases here : d.fp.node = e.fp.node
    · exact .inl ⟨content ++ data, by rw [here, Function.update_self]⟩
    · rw [Function.update_of_ne here]
      rcases others member with rfl | ⟨old, _⟩
      · exact absurd rfl here
      · exact inv.present d old
  · intro d member
    rw [appended]
    rcases others member with rfl | ⟨old, _⟩
    · simp [FileNode.bytes, endOff]
    · by_cases here : d.fp.node = e.fp.node
      · have before := inv.inside d old (here ▸ ordinary)
        rw [here, held] at before
        rw [here, Function.update_self]
        simp only [FileNode.bytes, List.length_append] at before ⊢
        omega
      · rw [Function.update_of_ne here]
        exact inv.inside d old
  · intro d member other writes
    rw [appended] at other ⊢
    rcases others member with rfl | ⟨old, differs⟩
    · simp [FileNode.bytes, endOff]
    · have here := apart old differs writes
      rw [Function.update_of_ne here] at other ⊢
      exact inv.atEnd d old other writes
  · intro d left f right other dWrites fWrites equal
    rcases others left with rfl | ⟨dOld, dApart⟩ <;>
      rcases others right with rfl | ⟨fOld, fApart⟩
    · rfl
    · exact absurd equal.symm (apart fOld fApart fWrites)
    · exact absurd equal (apart dOld dApart dWrites)
    · have here := apart dOld dApart dWrites
      rw [appended, Function.update_of_ne here] at other
      exact inv.oneWriter d dOld f fOld other dWrites fWrites equal

/-- Every effect preserves the invariant. -/
theorem Prim.consistent (effect : Prim vol k ds ds') (inv : Consistent vol ds) :
    Consistent vol ds' := by
  cases effect with
  | idle dhead disk => exact inv.congr dhead disk
  | openRead absent file dhead disk =>
    exact consistent_link inv absent (fun _ _ => rfl) (.inl file) (fun impossible => by cases impossible)
      dhead disk
  | openWrite absent free dhead disk =>
    refine consistent_link inv absent (fun d member => truncated_beside inv free member) ?_ ?_ dhead disk
    · rw [Function.update_self]
      cases held : ds.disk (vol.node k.2) with
      | absent => exact .inl ⟨[], rfl⟩
      | device => exact .inr ⟨rfl, rfl⟩
      | regular | directory =>
        rw [held] at free
        cases free
    · intro _ ordinary
      rw [Function.update_self] at ordinary ⊢
      have missing : ds.disk (vol.node k.2) = .absent := free.absent fun device => by
        rw [device] at ordinary
        exact ordinary rfl
      refine ⟨by rw [missing, FileNode.truncated_absent], ?_⟩
      intro d member same
      obtain ⟨content, held⟩ := inv.regular member (by rw [same, missing]; nofun)
      rw [same, missing] at held
      cases held
  | advance e off eof found mode further inside dhead disk =>
    have eMember := at_mem found
    have reads : e.fp.mode ≠ .write := by simp [mode]
    constructor
    · rw [dhead, Keyed.store_keys]
      exact inv.distinct
    all_goals rw [dhead]; try rw [disk]
    · intro d member
      rcases Keyed.mem_of_mem_store DSession.key member with rfl | old
      · exact inv.placed e eMember
      · exact inv.placed d old
    · intro d member
      rcases Keyed.mem_of_mem_store DSession.key member with rfl | old
      · exact inv.present e eMember
      · exact inv.present d old
    · intro d member
      rcases Keyed.mem_of_mem_store DSession.key member with rfl | old
      · intro ordinary
        have before := inv.inside e eMember ordinary
        exact inside.trans (Nat.max_le.mpr ⟨before, Nat.le_refl _⟩)
      · exact inv.inside d old
    · intro d member
      rcases Keyed.mem_of_mem_store DSession.key member with rfl | old
      · exact fun _ writes => absurd writes reads
      · exact inv.atEnd d old
    · intro d left f right ordinary dWrites fWrites equal
      rcases Keyed.mem_of_mem_store DSession.key left with rfl | dOld
      · exact absurd dWrites reads
      rcases Keyed.mem_of_mem_store DSession.key right with rfl | fOld
      · exact absurd fWrites reads
      exact inv.oneWriter d dOld f fOld ordinary dWrites fWrites equal
  | append e data found mode dhead disk =>
    by_cases device : ds.disk e.fp.node = .device
    · exact inv.discard device (at_mem found) mode dhead (by
        rw [disk, device, FileNode.put_device, ← device, Function.update_eq_self])
    · exact inv.append device (at_mem found) mode dhead disk
  | drop dhead disk =>
    exact inv.sublist (dhead ▸ Keyed.remove_sublist DSession.key k ds.dhead) disk

theorem Chain.consistent (chain : Chain vol k ds ds') (inv : Consistent vol ds) :
    Consistent vol ds' :=
  chain.invariant (Consistent vol) (fun _ _ inv effect => effect.consistent inv) inv

/-! ## Files -/

/-- A regular file stays one and keeps its bytes in front. -/
theorem Prim.grows (effect : Prim vol k ds ds') (inv : Consistent vol ds) {n content : Bytes}
    (held : ds.disk n = .regular content) : ∃ more, ds'.disk n = .regular (content ++ more) := by
  cases effect with
  | idle _ disk | openRead _ _ _ disk | advance _ _ _ _ _ _ _ _ disk | drop _ disk =>
    exact ⟨[], by rw [disk, held, List.append_nil]⟩
  | openWrite _ free _ disk =>
    have apart : n ≠ vol.node k.2 := by
      rintro rfl
      exact free.not_regular content held
    exact ⟨[], by rw [disk, Function.update_of_ne apart, held, List.append_nil]⟩
  | append d data found mode _ disk =>
    by_cases here : n = d.fp.node
    · have atEnd := inv.atEnd d (at_mem found) (by rw [← here, held]; nofun) mode
      rw [← here, held] at atEnd
      refine ⟨data, ?_⟩
      rw [disk, here, Function.update_self, ← here, held, atEnd]
      exact congrArg _ (overlay_end content data)
    · exact ⟨[], by rw [disk, Function.update_of_ne here, held, List.append_nil]⟩

theorem Chain.grows (chain : Chain vol k ds ds') (inv : Consistent vol ds) {n content : Bytes}
    (held : ds.disk n = .regular content) : ∃ more, ds'.disk n = .regular (content ++ more) := by
  have both : Consistent vol ds' ∧ ∃ more, ds'.disk n = .regular (content ++ more) := by
    refine chain.invariant (fun x => Consistent vol x ∧
      ∃ more, x.disk n = .regular (content ++ more)) ?_ ⟨inv, [], by rw [held, List.append_nil]⟩
    rintro before after ⟨consistent, more, kept⟩ effect
    obtain ⟨further, grown⟩ := effect.grows consistent kept
    exact ⟨effect.consistent consistent, more ++ further, by rw [grown, List.append_assoc]⟩
  exact both.2

/-- A regular file that nobody has open for writing. -/
def Settled (ds : IWDS) (n content : Bytes) : Prop :=
  ds.disk n = .regular content ∧ ∀ d ∈ ds.dhead, d.fp.mode = .write → d.fp.node ≠ n

/-- Such a file never changes again and gets no writer. -/
theorem Prim.settled (effect : Prim vol k ds ds') {n content : Bytes}
    (settled : Settled ds n content) : Settled ds' n content := by
  obtain ⟨held, unwritten⟩ := settled
  cases effect with
  | idle dhead disk => exact ⟨by rw [disk, held], dhead ▸ unwritten⟩
  | openRead _ _ dhead disk =>
    refine ⟨by rw [disk, held], ?_⟩
    intro d member writes
    rw [dhead] at member
    rcases List.mem_cons.mp member with rfl | old
    · cases writes
    · exact unwritten d old writes
  | openWrite _ free dhead disk =>
    have apart : vol.node k.2 ≠ n := by
      rintro rfl
      exact free.not_regular content held
    refine ⟨by rw [disk, Function.update_of_ne apart.symm, held], ?_⟩
    intro d member writes
    rw [dhead] at member
    rcases List.mem_cons.mp member with rfl | old
    · exact apart
    · exact unwritten d old writes
  | advance e off eof found mode _ _ dhead disk =>
    refine ⟨by rw [disk, held], ?_⟩
    intro d member writes
    rw [dhead] at member
    rcases Keyed.mem_of_mem_store DSession.key member with rfl | old
    · exact unwritten e (at_mem found) writes
    · exact unwritten d old writes
  | append e data found mode dhead disk =>
    have apart : e.fp.node ≠ n := unwritten e (at_mem found) mode
    refine ⟨by rw [disk, Function.update_of_ne apart.symm, held], ?_⟩
    intro d member writes
    rw [dhead] at member
    rcases Keyed.mem_of_mem_store DSession.key member with rfl | old
    · exact apart
    · exact unwritten d old writes
  | drop dhead disk =>
    refine ⟨by rw [disk, held], ?_⟩
    intro d member writes
    rw [dhead] at member
    exact unwritten d (Keyed.mem_of_mem_remove DSession.key member) writes

theorem Chain.settled (chain : Chain vol k ds ds') {n content : Bytes}
    (settled : Settled ds n content) : Settled ds' n content :=
  chain.invariant (fun x => Settled x n content)
    (fun _ _ kept effect => effect.settled kept) settled

/-- The file that one key has open for writing is changed for no other key. -/
theorem Prim.held (effect : Prim vol k ds ds') (inv : Consistent vol ds) {other : Int × Bytes}
    {d : DSession} (found : ds.at other = some d) (writes : d.fp.mode = .write)
    (different : other ≠ k) : ds'.disk d.fp.node = ds.disk d.fp.node := by
  have dMember := at_mem found
  cases effect with
  | idle _ disk | openRead _ _ _ disk | advance _ _ _ _ _ _ _ _ disk | drop _ disk => rw [disk]
  | openWrite _ free _ disk => rw [disk, truncated_beside inv free dMember]
  | append e data eFound eWrites _ disk =>
    by_cases device : ds.disk d.fp.node = .device
    · rw [disk]
      by_cases here : d.fp.node = e.fp.node
      · rw [here, Function.update_self, ← here, device, FileNode.put_device]
      · rw [Function.update_of_ne here]
    · have apart : d.fp.node ≠ e.fp.node := by
        intro same
        have equal := inv.oneWriter d dMember e (at_mem eFound) device writes eWrites same
        exact different ((lookup_key found).symm.trans (equal ▸ lookup_key eFound))
      rw [disk, Function.update_of_ne apart]

theorem Chain.held (chain : Chain vol k ds ds') (inv : Consistent vol ds) {other : Int × Bytes}
    {d : DSession} (found : ds.at other = some d) (writes : d.fp.mode = .write)
    (different : other ≠ k) : ds'.disk d.fp.node = ds.disk d.fp.node := by
  have all : Consistent vol ds' ∧ ds'.at other = some d ∧
      ds'.disk d.fp.node = ds.disk d.fp.node := by
    refine chain.invariant (fun x => Consistent vol x ∧ x.at other = some d ∧
      x.disk d.fp.node = ds.disk d.fp.node) ?_ ⟨inv, found, rfl⟩
    rintro before after ⟨consistent, still, same⟩ effect
    refine ⟨effect.consistent consistent, by rw [effect.other different, still], ?_⟩
    rw [effect.held consistent still writes different, same]
  exact all.2.2

/-- A directory stays one, and a device does. -/
theorem Prim.special_stays (effect : Prim vol k ds ds') (inv : Consistent vol ds) {n : Bytes}
    (special : ds.disk n = .directory ∨ ds.disk n = .device) : ds'.disk n = ds.disk n := by
  cases effect with
  | idle _ disk | openRead _ _ _ disk | advance _ _ _ _ _ _ _ _ disk | drop _ disk => rw [disk]
  | openWrite _ free _ disk =>
    rw [disk]
    by_cases here : n = vol.node k.2
    · rw [here] at special ⊢
      rw [Function.update_self]
      rcases special with directory | device
      · rw [directory] at free
        cases free
      · rw [device, FileNode.truncated_device]
    · rw [Function.update_of_ne here]
  | append d data found _ _ disk =>
    rw [disk]
    by_cases here : n = d.fp.node
    · rw [here] at special ⊢
      rw [Function.update_self]
      rcases special with directory | device
      · obtain ⟨content, held⟩ := inv.regular (at_mem found) (by rw [directory]; nofun)
        rw [directory] at held
        cases held
      · rw [device, FileNode.put_device]
    · rw [Function.update_of_ne here]

theorem Chain.special_stays (chain : Chain vol k ds ds') (inv : Consistent vol ds) {n : Bytes}
    (special : ds.disk n = .directory ∨ ds.disk n = .device) : ds'.disk n = ds.disk n := by
  have both : Consistent vol ds' ∧ ds'.disk n = ds.disk n := by
    refine chain.invariant (fun x => Consistent vol x ∧ x.disk n = ds.disk n) ?_ ⟨inv, rfl⟩
    rintro before after ⟨consistent, kept⟩ effect
    exact ⟨effect.consistent consistent,
      (effect.special_stays consistent (kept.symm ▸ special)).trans kept⟩
  exact both.2

/-- No effect turns a place into a device. -/
theorem Prim.ordinary (effect : Prim vol k ds ds') {n : Bytes} (ordinary : ds.disk n ≠ .device) :
    ds'.disk n ≠ .device := by
  cases effect with
  | idle _ disk | openRead _ _ _ disk | advance _ _ _ _ _ _ _ _ disk | drop _ disk => rwa [disk]
  | openWrite _ free _ disk =>
    rw [disk]
    by_cases here : n = vol.node k.2
    · rw [here] at ordinary ⊢
      rw [Function.update_self, free.absent ordinary, FileNode.truncated_absent]
      nofun
    · rwa [Function.update_of_ne here]
  | append d data found _ _ disk =>
    rw [disk]
    by_cases here : n = d.fp.node
    · rw [here] at ordinary ⊢
      rw [Function.update_self]
      cases held : ds.disk d.fp.node with
      | device => exact absurd held ordinary
      | absent | regular | directory => exact FileNode.noConfusion
    · rwa [Function.update_of_ne here]

/-- What is written to a device leaves no trace on the disk. -/
theorem Prim.discards (effect : Prim vol k ds ds') (inv : Consistent vol ds)
    (device : ds.disk (vol.node k.2) = .device) : ds'.disk = ds.disk := by
  cases effect with
  | idle _ disk | openRead _ _ _ disk | advance _ _ _ _ _ _ _ _ disk | drop _ disk => exact disk
  | openWrite _ _ _ disk => rw [disk, device, FileNode.truncated_device, ← device, Function.update_eq_self]
  | append d _ found _ _ disk =>
    have place : d.fp.node = vol.node k.2 := by
      rw [inv.placed d (at_mem found), show d.filename = k.2 from congrArg Prod.snd (lookup_key found)]
    rw [disk, place, device, FileNode.put_device, ← device, Function.update_eq_self]

theorem Chain.discards (chain : Chain vol k ds ds') (inv : Consistent vol ds)
    (device : ds.disk (vol.node k.2) = .device) : ds'.disk = ds.disk := by
  have both : Consistent vol ds' ∧ ds'.disk = ds.disk := by
    refine chain.invariant (fun x => Consistent vol x ∧ x.disk = ds.disk) ?_ ⟨inv, rfl⟩
    rintro before after ⟨consistent, same⟩ effect
    refine ⟨effect.consistent consistent, (effect.discards consistent ?_).trans same⟩
    rw [same, device]
  exact both.2

theorem Chain.ordinary (chain : Chain vol k ds ds') {n : Bytes} (ordinary : ds.disk n ≠ .device) :
    ds'.disk n ≠ .device :=
  chain.invariant (fun x => x.disk n ≠ .device) (fun _ _ before effect => effect.ordinary before) ordinary

theorem Chain.device_iff (chain : Chain vol k ds ds') (inv : Consistent vol ds) {n : Bytes} :
    ds'.disk n = .device ↔ ds.disk n = .device := by
  constructor
  · intro device
    by_contra ordinary
    exact chain.ordinary ordinary device
  · intro device
    exact (chain.special_stays inv (.inr device)).trans device

end Iwtftpd
