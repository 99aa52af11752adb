import Micronet.Interaction

/-!
# Handlers that may give up

A `Trial` computes what a call does, or gives up where it does not know.  A program that
comes to its end under one has an execution in each environment that the trial follows.
-/
namespace Interaction
open Prog

variable {S : Signature} {α σ : Type}

abbrev Trial (S : Signature) (σ : Type) : Type := (op : S.Op) → σ → Option (S.Ret op × σ)

/-- `p` under a trial. -/
def Prog.attempted (H : Trial S σ) : Prog S α → σ → Option (α × σ)
  | .pure a, s => some (a, s)
  | .call op k, s => (H op s).bind fun x => (k x.1).attempted H x.2

/-- What it computes is what the environment may do. -/
def Trial.Follows (H : Trial S σ) (E : Env S σ) : Prop :=
  ∀ op s r t, H op s = some (r, t) → E op s r t

variable {H : Trial S σ} {E : Env S σ}

/-- **What is computed is an execution.** -/
theorem Trial.Follows.exec (h : H.Follows E) {p : Prog S α} {s t : σ} {a : α}
    (hp : p.attempted H s = some (a, t)) : p.Exec E s a t := by
  induction p generalizing s with
  | pure b =>
    obtain ⟨rfl, rfl⟩ := Prod.mk.inj (Option.some.inj hp)
    exact ⟨rfl, rfl⟩
  | call op k ih =>
    obtain ⟨⟨r, u⟩, hop, hk⟩ := Option.bind_eq_some_iff.mp hp
    exact ⟨r, u, h op s r u hop, ih r hk⟩

/-- The trial that writes every call down. -/
def Trial.logged (H : Trial S σ) : Trial S (σ × Log S σ) :=
  fun op s => (H op s.1).map fun x => (x.1, x.2, s.2 ++ [⟨op, s.1, x.1⟩])

theorem Trial.Follows.logged (h : H.Follows E) : H.logged.Follows E.logged := by
  rintro op ⟨s, l⟩ r ⟨t, m⟩ hx
  obtain ⟨⟨_, _⟩, hop, hx⟩ := Option.map_eq_some_iff.mp hx
  cases hx
  exact ⟨h _ _ _ _ hop, rfl⟩

end Interaction
