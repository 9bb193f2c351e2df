import Iwtftpd.Snapshots
import Iwtftpd.Upload

/-!
# What was stored is what is fetched

The two directions together. When the ACK of the last block of an upload goes
out, nobody has the file open for writing any more, so it is what it will be for
ever. Whoever fetches it later, however much later and beside whatever else, is
sent the bytes that were stored.
-/

namespace Iwtftpd

variable {host : Host} {vol : Volume} {place content : Bytes}

theorem Effects.settled {ds ds' : IWDS} (effects : Effects vol ds ds') (settled : Settled ds place content) :
    Settled ds' place content := by
  induction effects with
  | refl => exact settled
  | tail _ last inductionHypothesis =>
    obtain ⟨k, effect⟩ := last
    exact effect.settled inductionHypothesis

theorem exec_settled {st : Server} (events : List Event) (settled : Settled st.ads place content) :
    Settled (Runs.exec (step host) st events).ads place content := by
  induction events generalizing st with
  | nil => exact settled
  | cons e rest inductionHypothesis => exact inductionHypothesis ((step_effects host st e).settled settled)

/-- A session that has acknowledged the last block has closed its file. -/
theorem Progress.settled {u : Upload} {s : Session} {ds : IWDS} (progress : Progress vol u u.blocks s ds) :
    s.fin = true ∧ Settled ds (vol.node u.filename) u.content := by
  have all : u.content.take (tftpDatalenMax * u.blocks) = u.content := by
    apply List.take_of_length_le
    exact Nat.le_of_lt (Nat.lt_mul_div_succ u.content.length (by decide))
  cases progress.stage with
  | writing _ more => exact absurd more (Nat.lt_irrefl _)
  | stuck _ _ _ more => exact absurd more (Nat.lt_irrefl _)
  | closed closed fin =>
    have settled := closed.settled
    rw [progress.name, all] at settled
    exact ⟨fin, settled⟩

/-- A datagram of the client that is answered with the ACK of the last block. -/
theorem Underway.closes {u : Upload} {c : Client} {st : Server} {d : Datagram} {m : Sent}
    (underway : Underway host c u st) (nonempty : u.content ≠ []) (few : u.blocks < 65535)
    (named : host.client d.src = some c) (uploading : Uploading host c u st (.datagram d))
    (member : m ∈ (recv host st d).2) (ack : m.msg = ackMsg (UInt16.ofNat u.blocks)) :
    Settled (recv host st d).1.ads (host.toVolume.node u.filename) u.content := by
  obtain ⟨sends, faultless, socket⟩ := uploading.2 d rfl named
  have sent : m ∈ replyOf (st.proc host d c) d ((st.proc host d c).fill.getD st.msg) := by
    rwa [recv_eq named] at member
  have kept : (recv host st d).1.ads = (st.proc host d c).ds := by rw [recv_eq named]
  rw [kept]
  cases found : getSession st.seshead c with
  | some s =>
    have handled := proc_handled host d found
    by_cases disabled : ((st.proc host d c).after s).disabled = true
    · rw [replyOf, handled.ok, handled.pointer] at sent
      simp [disabled] at sent
    · have enabled : s.disabled = false := by
        cases was : s.disabled with
        | false => rfl
        | true => exact absurd (handled.disabled was) disabled
      obtain ⟨b, progress⟩ := underway.session s found enabled
      obtain ⟨b', progress', answers⟩ :=
        (progress.own found underway.ordinary underway.wellFormed nonempty few sends faultless).resolve_left disabled
      rw [replyOf_msg sent] at ack
      obtain fill | ⟨ecode, emsg, fill⟩ := answers
      · rw [fill] at ack
        have within := progress'.within
        obtain rfl : b' = u.blocks := ofNat_inj (by omega) (by omega) (ackMsg_inj ack)
        exact progress'.settled.2
      · rw [fill] at ack
        exact absurd ack (ackMsg_ne_errorMsg _ ecode emsg)
  | none =>
    -- A request is answered with ACK 0, and no upload has so few blocks.
    obtain ⟨ecode, call⟩ | ⟨fd, -, -, call⟩ := sends.fresh host found socket
    · rw [errsendNone_eq .keep _ ecode empty_short] at call
      rw [call] at sent
      rw [List.mem_singleton.mp sent] at ack
      exact absurd ack (ackMsg_ne_errorMsg _ ecode _)
    · rw [replyOf_msg sent, call] at ack
      have none : 0 = u.blocks := ofNat_inj (by decide) (by omega) (ackMsg_inj ack)
      exact absurd none (Nat.succ_ne_zero _).symm

/-- Of a file that is settled there is one moment only. -/
theorem Snapshot.of_settled {c : Client} {mode : TftpMode} {start : Server} {events : List Event} {seen : Bytes}
    (snapshot : Snapshot host c mode place start events seen) (settled : Settled start.ads place content) :
    seen = content := by
  obtain ⟨before, after, -, stood⟩ := snapshot.stood
  exact FileNode.regular.inj (stood.symm.trans (exec_settled before settled).1)

end Iwtftpd
