import Iwtftpd.Lib.Runs

/-!
# What runs put out

The outputs of a run in order, and the rule for what a run may cost: where every
step pays for its outputs out of what its event brings and what a potential
gives back, a run costs no more than its events bring and the potential it began
with.
-/

namespace Runs

universe u v w
variable {σ : Type u} {ε : Type v} {ω : Type w}

/-- What the steps of a list of events put out, in order. -/
def outs (step : σ → ε → σ) (out : σ → ε → List ω) : σ → List ε → List ω
  | _, [] => []
  | s, e :: rest => out s e ++ outs step out (step s e) rest

variable {step : σ → ε → σ} {ok : σ → ε → Prop} {out : σ → ε → List ω}

@[simp] theorem outs_nil (s : σ) : outs step out s [] = [] := rfl

@[simp] theorem outs_cons (s : σ) (e : ε) (rest : List ε) :
    outs step out s (e :: rest) = out s e ++ outs step out (step s e) rest := rfl

/-- The outputs of a run in two parts. -/
theorem outs_append (s : σ) (before after : List ε) :
    outs step out s (before ++ after) =
      outs step out s before ++ outs step out (exec step s before) after := by
  induction before generalizing s with
  | nil => rfl
  | cons e rest inductionHypothesis =>
    rw [List.cons_append, outs_cons, inductionHypothesis, outs_cons, List.append_assoc]
    rfl

/-- Two lists of events, the second admitted where the first has led. -/
theorem Admits.append {s : σ} {before after : List ε} (first : Admits step ok s before)
    (second : Admits step ok (exec step s before) after) : Admits step ok s (before ++ after) := by
  induction before generalizing s with
  | nil => exact second
  | cons e rest inductionHypothesis => exact ⟨first.1, inductionHypothesis first.2 second⟩

/-- What a list of outputs costs. -/
def total (cost : ω → Nat) : List ω → Nat
  | [] => 0
  | o :: rest => cost o + total cost rest

@[simp] theorem total_nil (cost : ω → Nat) : total cost [] = 0 := rfl

@[simp] theorem total_cons (cost : ω → Nat) (o : ω) (rest : List ω) :
    total cost (o :: rest) = cost o + total cost rest := rfl

/-- The cost of two lists of outputs. -/
@[simp] theorem total_append (cost : ω → Nat) (before after : List ω) :
    total cost (before ++ after) = total cost before + total cost after := by
  induction before with
  | nil => simp
  | cons o rest inductionHypothesis =>
    rw [List.cons_append, total_cons, total_cons, inductionHypothesis, Nat.add_assoc]

/-- Where each costs the same, the cost is a count. -/
theorem total_const (bound : Nat) (outputs : List ω) :
    total (fun _ => bound) outputs = bound * outputs.length := by
  induction outputs with
  | nil => rfl
  | cons o rest inductionHypothesis =>
    rw [total_cons, inductionHypothesis, List.length_cons, Nat.mul_succ, Nat.add_comm]

/-- A part of the outputs costs no more than all of them. -/
theorem total_sublist (cost : ω → Nat) {some all : List ω} (sublist : some.Sublist all) :
    total cost some ≤ total cost all := by
  induction sublist with
  | slnil => exact Nat.le_refl _
  | cons o _ inductionHypothesis =>
    rw [total_cons]
    omega
  | cons_cons o _ inductionHypothesis =>
    rw [total_cons, total_cons]
    omega

/-- Outputs of bounded cost. -/
theorem total_le_length (cost : ω → Nat) {bound : Nat} {outputs : List ω}
    (each : ∀ o ∈ outputs, cost o ≤ bound) : total cost outputs ≤ bound * outputs.length := by
  induction outputs with
  | nil => simp
  | cons o rest inductionHypothesis =>
    have here := each o List.mem_cons_self
    have later := inductionHypothesis fun o' member => each o' (List.mem_cons_of_mem o member)
    rw [total_cons, List.length_cons, Nat.mul_succ]
    omega

/-- The rule of the potential. -/
theorem Admits.amortized (out : σ → ε → List ω) (inv : σ → Prop) (cost : ω → Nat)
    (potential : σ → Nat) (brings : ε → Nat) {s : σ} {events : List ε} (admitted : Admits step ok s events) (start : inv s)
    (preserved : ∀ t e, inv t → ok t e → inv (step t e))
    (pays : ∀ t e, inv t → ok t e →
      total cost (out t e) + potential (step t e) ≤ potential t + brings e) :
    total cost (outs step out s events) + potential (exec step s events) ≤
      potential s + total brings events := by
  induction events generalizing s with
  | nil =>
    show total cost [] + potential s ≤ potential s + total brings []
    simp
  | cons e rest inductionHypothesis =>
    obtain ⟨may, following⟩ := admitted
    have here := pays s e start may
    have later := inductionHypothesis following (preserved s e start may)
    have ends : exec step s (e :: rest) = exec step (step s e) rest := rfl
    rw [outs_cons, total_append, ends, total_cons]
    omega

/-- What every step puts out, a run puts out. -/
theorem Admits.outs_all (inv : σ → Prop) {holds : ω → Prop} {s : σ} {events : List ε}
    (admitted : Admits step ok s events) (start : inv s)
    (preserved : ∀ t e, inv t → ok t e → inv (step t e))
    (each : ∀ t e, inv t → ok t e → ∀ o ∈ out t e, holds o) :
    ∀ o ∈ outs step out s events, holds o := by
  induction events generalizing s with
  | nil => simp
  | cons e rest inductionHypothesis =>
    obtain ⟨may, following⟩ := admitted
    intro o member
    rw [outs_cons, List.mem_append] at member
    rcases member with here | later
    · exact each s e start may o here
    · exact inductionHypothesis following (preserved s e start may) o later

end Runs
