import Micronet.Interaction

/-!
# Loops with a deadline

A round of a loop ends it with an answer, or asks for another round.  `Rounds` and `Loops` are
the loop itself, without a bound; `Prog.poll` is the loop that is cut after so many rounds.
Where a clock gains `d` in every round that asks again, and none asks again from the deadline
on, the rounds are bounded (`Paced.rounds_lt`) and the cut is not seen (`Paced.exec_poll`).
-/
namespace Interaction
open Prog

variable {S : Signature} {α σ : Type}

/-- Up to `n` rounds of `body`, then `cut`. -/
def Prog.poll (body : Prog S (Option α)) (cut : Prog S α) : Nat → Prog S α
  | 0 => cut
  | n + 1 => body >>= fun
    | some a => pure a
    | none => poll body cut n

/-- `n` rounds that ask for another. -/
inductive Rounds (E : Env S σ) (body : Prog S (Option α)) : Nat → σ → σ → Prop
  | zero (s : σ) : Rounds E body 0 s s
  | succ {n : Nat} {s t u : σ} (h : body.Exec E s none t) (hrest : Rounds E body n t u) :
      Rounds E body (n + 1) s u

/-- The loop ends with `a`, after `n` rounds that asked for another. -/
def Loops (E : Env S σ) (body : Prog S (Option α)) (n : Nat) (s : σ) (a : α) (t : σ) : Prop :=
  ∃ u, Rounds E body n s u ∧ body.Exec E u (some a) t

/-- Each round that asks for another takes `d`, and starts before the deadline. -/
structure Paced (E : Env S σ) (body : Prog S (Option α)) (clock : σ → Nat) (deadline d : Nat) :
    Prop where
  /-- The clock goes on by `d` at least. -/
  gains : ∀ s t, body.Exec E s none t → clock s + d ≤ clock t
  /-- It read less than the deadline when the round began. -/
  early : ∀ s t, body.Exec E s none t → clock s < deadline

section Poll
variable {E : Env S σ} {body : Prog S (Option α)} {cut : Prog S α} {clock : σ → Nat}
  {deadline d n : Nat} {s t u : σ} {a : α}

theorem Paced.clock_le (hp : Paced E body clock deadline d) (h : Rounds E body n s t) :
    clock s + n * d ≤ clock t := by
  induction h with
  | zero s => omega
  | @succ n s t u h _ ih =>
    have hgain := hp.gains s t h
    rw [Nat.succ_mul]
    omega

/-- **The rounds are bounded**: the last of them still starts before the deadline. -/
theorem Paced.rounds_lt (hp : Paced E body clock deadline d) (h : Rounds E body (n + 1) s t) :
    clock s + n * d < deadline := by
  induction n generalizing s with
  | zero =>
    cases h with
    | succ h _ =>
      have := hp.early _ _ h
      omega
  | succ n ih =>
    cases h with
    | succ h hrest =>
      have hgain := hp.gains _ _ h
      have := ih hrest
      rw [Nat.succ_mul]
      omega

/-- **The cut is not seen** once it lies behind the deadline. -/
theorem Paced.exec_poll (hp : Paced E body clock deadline d)
    (hn : deadline ≤ clock s + n * d) :
    (body.poll cut (n + 1)).Exec E s a t ↔ ∃ k, Loops E body k s a t := by
  induction n generalizing s with
  | zero =>
    rw [poll, exec_bind]
    constructor
    · rintro ⟨r, u, hbody, hrest⟩
      cases r with
      | none =>
        have := hp.early s u hbody
        omega
      | some b =>
        obtain ⟨rfl, rfl⟩ := hrest
        exact ⟨0, s, .zero s, hbody⟩
    · rintro ⟨k, u, hrounds, hbody⟩
      cases hrounds with
      | zero => exact ⟨some a, t, hbody, rfl, rfl⟩
      | succ h _ =>
        have := hp.early s _ h
        omega
  | succ n ih =>
    rw [poll, exec_bind]
    constructor
    · rintro ⟨r, u, hbody, hrest⟩
      cases r with
      | some b =>
        obtain ⟨rfl, rfl⟩ := hrest
        exact ⟨0, s, .zero s, hbody⟩
      | none =>
        have hgain := hp.gains s u hbody
        obtain ⟨k, v, hrounds, hv⟩ := (ih (by rw [Nat.succ_mul] at hn; omega)).mp hrest
        exact ⟨k + 1, v, .succ hbody hrounds, hv⟩
    · rintro ⟨k, v, hrounds, hbody⟩
      cases hrounds with
      | zero => exact ⟨some a, t, hbody, rfl, rfl⟩
      | @succ k _ u _ h hrounds =>
        have hgain := hp.gains s u h
        refine ⟨none, u, h, (ih ?_).mpr ⟨k, v, hrounds, hbody⟩⟩
        rw [Nat.succ_mul] at hn
        omega

end Poll
end Interaction
