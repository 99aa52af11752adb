import Mathlib.Data.List.Forall2
import Micronet.Halting

/-!
# Simulation

`Simulates E F R` says that a step of `E` from a state that `R` relates to one of `F` is
matched by a step of `F` with the same answer, after which the states are related again.
Then whole executions are matched, with the calls they write down.  An implementation of the
calls of one signature by programs of another is where such an `E` comes from.
-/
namespace Interaction
open Prog

variable {S T : Signature} {α σ τ : Type}

/-- Each call does what the program that implements it does. -/
def Env.inlined (F : Env T σ) (f : (op : S.Op) → Prog T (S.Ret op)) : Env S σ :=
  fun op s r t => (f op).Exec F s r t

theorem exec_inlined {F : Env T σ} {f : (op : S.Op) → Prog T (S.Ret op)} {p : Prog S α}
    {s t : σ} {a : α} : (p.inline f).Exec F s a t ↔ p.Exec (F.inlined f) s a t := exec_inline

theorem wp_inline {F : Env T σ} {f : (op : S.Op) → Prog T (S.Ret op)} {p : Prog S α}
    {Q : α → σ → Prop} {s : σ} : wp F (p.inline f) Q s ↔ wp (F.inlined f) p Q s := by
  rw [wp_iff, wp_iff]
  simp only [exec_inlined]

theorem within_inline {f : (op : S.Op) → Prog T (S.Ret op)} {A : S.Op → Prop} {B : T.Op → Prop}
    {K : α → Prop} (hf : ∀ op, A op → (f op).Within B fun _ => True) {p : Prog S α}
    (h : p.Within A K) : (p.inline f).Within B K := by
  induction p with
  | pure a => exact h
  | call op k ih =>
    exact within_bind.mpr (within_mono (fun _ h => h) (fun r _ => ih r (h.2 r)) (hf op h.1))

/-- **Steps are matched** between related states. -/
def Simulates (E : Env S σ) (F : Env S τ) (R : σ → τ → Prop) : Prop :=
  ∀ op s r t x, R s x → E op s r t → ∃ y, F op x r y ∧ R t y

/-- One event matches another: the same call with the same answer, in related states. -/
structure Event.Matches (R : σ → τ → Prop) (e : Event S σ) (e' : Event S τ) : Prop where
  /-- The same call and the same answer. -/
  op : e'.op = e.op
  ret : HEq e'.ret e.ret
  /-- It is made in related states. -/
  pre : R e.pre e'.pre

namespace Simulates
variable {E : Env S σ} {F : Env S τ} {R : σ → τ → Prop}

theorem refl (E : Env S σ) : Simulates E E Eq := by
  rintro op s r t _ rfl h
  exact ⟨t, h, rfl⟩

theorem trans {υ : Type} {G : Env S υ} {K : τ → υ → Prop} (h : Simulates E F R)
    (h' : Simulates F G K) : Simulates E G fun s u => ∃ x, R s x ∧ K x u := by
  rintro op s r t u ⟨x, hs, hx⟩ hop
  obtain ⟨y, hy, ht⟩ := h op s r t x hs hop
  obtain ⟨v, hv, hyv⟩ := h' op x r y u hx hy
  exact ⟨v, hv, y, ht, hyv⟩

theorem exec (h : Simulates E F R) {p : Prog S α} {s t : σ} {x : τ} {a : α} (hs : R s x)
    (hp : p.Exec E s a t) : ∃ y, p.Exec F x a y ∧ R t y := by
  induction p generalizing s x with
  | pure b =>
    obtain ⟨rfl, rfl⟩ := hp
    exact ⟨x, ⟨rfl, rfl⟩, hs⟩
  | call op k ih =>
    obtain ⟨r, u, hop, hk⟩ := hp
    obtain ⟨z, hz, hu⟩ := h op s r u x hs hop
    obtain ⟨y, hy, ht⟩ := ih r hu hk
    exact ⟨y, ⟨r, z, hz, hy⟩, ht⟩

/-- The logs of matching executions match event by event. -/
theorem logged (h : Simulates E F R) : Simulates E.logged F.logged
    (fun s x => R s.1 x.1 ∧ List.Forall₂ (Event.Matches R) s.2 x.2) := by
  intro op s r t x hs hop
  obtain ⟨y, hy, ht⟩ := h op s.1 r t.1 x.1 hs.1 hop.1
  refine ⟨(y, x.2 ++ [⟨op, x.1, r⟩]), ⟨hy, rfl⟩, ht, ?_⟩
  rw [hop.2]
  exact List.rel_append hs.2 (.cons ⟨rfl, HEq.rfl, hs.1⟩ .nil)

end Simulates

/-- Logs that match show the same to what looks at calls and answers only. -/
theorem lastOf_eq_of_matches {β : Type} {R : σ → τ → Prop} {f : Event S σ → Option β}
    {g : Event S τ → Option β} (hfg : ∀ e e', Event.Matches R e e' → f e = g e') {l : Log S σ}
    {m : Log S τ} (h : List.Forall₂ (Event.Matches R) l m) : lastOf f l = lastOf g m := by
  induction h with
  | nil => rfl
  | cons he _ ih => rw [lastOf_cons, lastOf_cons, ih, hfg _ _ he]

end Interaction
