/-!
# Programs that call their environment

A program is a tree of calls: at each node it makes one call of a signature and
goes on with the answer.  Nothing is said here about what the calls do.  An
**environment** (`Env`) says it, as a relation between the state before a call,
the answer and the state after; it may be partial, nondeterministic, or allow
any answer at all.  A **handler** is an environment that computes.

One program therefore has many meanings — over a concrete state, over a state
whose calls may fail, over no state at all with every answer possible — and they
share its text.  `Exec` is the big-step meaning, `Visits` the states met on the
way (what another thread can see), `run` the meaning under a handler, and
`Env.logged` the meaning that also writes down every call with its answer.
-/
namespace Interaction

/-- The calls a program can make, each with its type of answers. -/
structure Signature where
  Op : Type
  Ret : Op → Type

/-- A program over a signature: it returns, or makes a call and goes on with the
answer. -/
inductive Prog (S : Signature) (α : Type) : Type
  | pure (a : α)
  | call (op : S.Op) (k : S.Ret op → Prog S α)

/-- What the calls do: `E op s r t` when the call `op` made in state `s` may be
answered `r`, leaving state `t`. -/
abbrev Env (S : Signature) (σ : Type) : Type := (op : S.Op) → σ → S.Ret op → σ → Prop

/-- An environment that computes its answer and the next state. -/
abbrev Handler (S : Signature) (σ : Type) : Type := (op : S.Op) → σ → S.Ret op × σ

variable {S T : Signature} {α β σ τ : Type}

namespace Prog

def bind : Prog S α → (α → Prog S β) → Prog S β
  | .pure a, f => f a
  | .call op k, f => .call op (fun r => (k r).bind f)

instance : Monad (Prog S) where
  pure := Prog.pure
  bind := Prog.bind

protected theorem bind_pure (p : Prog S α) : p.bind .pure = p := by
  induction p with
  | pure a => rfl
  | call op k ih => exact congrArg (Prog.call op) (funext ih)

protected theorem bind_assoc {γ : Type} (p : Prog S α) (f : α → Prog S β) (g : β → Prog S γ) :
    (p.bind f).bind g = p.bind (fun a => (f a).bind g) := by
  induction p with
  | pure a => rfl
  | call op k ih => exact congrArg (Prog.call op) (funext ih)

instance : LawfulMonad (Prog S) :=
  LawfulMonad.mk' (Prog S) Prog.bind_pure (fun _ _ => rfl) Prog.bind_assoc

/-- `p.Exec E s a t`: in the environment `E`, `p` started in `s` can return `a`
in `t`. -/
def Exec (E : Env S σ) : Prog S α → σ → α → σ → Prop
  | .pure a, s, b, t => b = a ∧ t = s
  | .call op k, s, b, t => ∃ r u, E op s r u ∧ (k r).Exec E u b t

/-- `p.Visits E s t`: started in `s`, `p` can be in `t` before its next call, or
return in `t`. -/
def Visits (E : Env S σ) : Prog S α → σ → σ → Prop
  | .pure _, s, t => t = s
  | .call op k, s, t => t = s ∨ ∃ r u, E op s r u ∧ (k r).Visits E u t

/-- `p` under a handler. -/
def run (H : Handler S σ) : Prog S α → σ → α × σ
  | .pure a, s => (a, s)
  | .call op k, s => (k (H op s).1).run H (H op s).2

/-- Whatever the answers, `p` makes only calls that `A` allows and returns only
values in `K`. -/
def Within (A : S.Op → Prop) (K : α → Prop) : Prog S α → Prop
  | .pure a => K a
  | .call op k => A op ∧ ∀ r, (k r).Within A K

/-- `p` with every call replaced by the program that implements it. -/
def inline (f : (op : S.Op) → Prog T (S.Ret op)) : Prog S α → Prog T α
  | .pure a => .pure a
  | .call op k => f op >>= fun r => (k r).inline f

end Prog

open Prog

/-- The program that makes one call and returns its answer. -/
abbrev call (op : S.Op) : Prog S (S.Ret op) := .call op .pure

/-! ## The big-step meaning -/

section Exec
variable {E : Env S σ}

@[simp] theorem exec_pure {a b : α} {s t : σ} :
    (Pure.pure a : Prog S α).Exec E s b t ↔ b = a ∧ t = s := Iff.rfl

@[simp] theorem exec_ret {a b : α} {s t : σ} :
    (Prog.pure a : Prog S α).Exec E s b t ↔ b = a ∧ t = s := Iff.rfl

/- The call with its continuation is the form simp sees: the type of a single
call's answer is not a pattern. -/
@[simp] theorem exec_op {op : S.Op} {k : S.Ret op → Prog S α} {s t : σ} {b : α} :
    (Prog.call op k).Exec E s b t ↔ ∃ r u, E op s r u ∧ (k r).Exec E u b t := Iff.rfl

theorem exec_call {op : S.Op} {r : S.Ret op} {s t : σ} :
    (call op).Exec E s r t ↔ E op s r t := by
  constructor
  · rintro ⟨r', u, h, rfl, rfl⟩; exact h
  · exact fun h => ⟨r, t, h, rfl, rfl⟩

@[simp] theorem exec_bind {p : Prog S α} {f : α → Prog S β} {s t : σ} {b : β} :
    (p >>= f).Exec E s b t ↔ ∃ a u, p.Exec E s a u ∧ (f a).Exec E u b t := by
  induction p generalizing s with
  | pure a =>
    constructor
    · exact fun h => ⟨a, s, ⟨rfl, rfl⟩, h⟩
    · rintro ⟨_, _, ⟨rfl, rfl⟩, h⟩; exact h
  | call op k ih =>
    constructor
    · rintro ⟨r, u, hop, h⟩
      obtain ⟨a, v, hk, hf⟩ := (ih r).mp h
      exact ⟨a, v, ⟨r, u, hop, hk⟩, hf⟩
    · rintro ⟨a, v, ⟨r, u, hop, hk⟩, hf⟩
      exact ⟨r, u, hop, (ih r).mpr ⟨a, v, hk, hf⟩⟩

/-- A program executes in every environment that allows more. -/
theorem Prog.Exec.mono {F : Env S σ} (hle : ∀ op s r t, E op s r t → F op s r t) {p : Prog S α}
    {s t : σ} {a : α} (h : p.Exec E s a t) : p.Exec F s a t := by
  induction p generalizing s with
  | pure b => exact h
  | call op k ih =>
    obtain ⟨r, u, hop, hk⟩ := h
    exact ⟨r, u, hle op s r u hop, ih r hk⟩

/-- What every call keeps, every execution keeps. -/
theorem Prog.Exec.keeps {I : σ → Prop} (hI : ∀ op s r t, I s → E op s r t → I t) {p : Prog S α}
    {s t : σ} {a : α} (h : p.Exec E s a t) (hs : I s) : I t := by
  induction p generalizing s with
  | pure b => exact h.2 ▸ hs
  | call op k ih =>
    obtain ⟨r, u, hop, hk⟩ := h
    exact ih r hk (hI op s r u hs hop)

/-- **Simulation**: where `f` takes the steps of `E` to steps of `F`, it takes its executions
to executions. -/
theorem Prog.Exec.map {F : Env S τ} {f : σ → τ} (hf : ∀ op s r t, E op s r t → F op (f s) r (f t))
    {p : Prog S α} {s t : σ} {a : α} (h : p.Exec E s a t) : p.Exec F (f s) a (f t) := by
  induction p generalizing s with
  | pure b => exact ⟨h.1, congrArg f h.2⟩
  | call op k ih =>
    obtain ⟨r, u, hop, hk⟩ := h
    exact ⟨r, f u, hf op s r u hop, ih r hk⟩

/-- A handler that only does what `E` allows. -/
def Handler.Implements (H : Handler S σ) (E : Env S σ) : Prop :=
  ∀ op s, E op s (H op s).1 (H op s).2

/-- **Running under a handler is an execution** in every environment the handler
implements. -/
theorem Handler.Implements.exec {H : Handler S σ} (h : H.Implements E) (p : Prog S α) (s : σ) :
    p.Exec E s (p.run H s).1 (p.run H s).2 := by
  induction p generalizing s with
  | pure a => exact ⟨rfl, rfl⟩
  | call op k ih => exact ⟨_, _, h op s, ih _ _⟩

theorem run_bind (H : Handler S σ) (p : Prog S α) (f : α → Prog S β) (s : σ) :
    (p >>= f).run H s = (f (p.run H s).1).run H (p.run H s).2 := by
  induction p generalizing s with
  | pure a => rfl
  | call op k ih => exact ih _ _

/-- The environment that does what the handler does. -/
def Handler.graph (H : Handler S σ) : Env S σ := fun op s r t => r = (H op s).1 ∧ t = (H op s).2

theorem Handler.implements_graph (H : Handler S σ) : H.Implements H.graph :=
  fun _ _ => ⟨rfl, rfl⟩

/-- There, the execution is the run. -/
theorem Handler.exec_graph {H : Handler S σ} {p : Prog S α} {s t : σ} {a : α} :
    p.Exec H.graph s a t ↔ p.run H s = (a, t) := by
  induction p generalizing s with
  | pure b => exact Prod.mk.injEq b s a t ▸ and_congr eq_comm eq_comm
  | call op k ih =>
    constructor
    · rintro ⟨r, u, ⟨rfl, rfl⟩, hk⟩
      exact (ih _).mp hk
    · exact fun h => ⟨_, _, ⟨rfl, rfl⟩, (ih _).mpr h⟩

@[simp] theorem inline_ret (f : (op : S.Op) → Prog T (S.Ret op)) (a : α) :
    (Prog.pure a : Prog S α).inline f = Pure.pure a := rfl

@[simp] theorem inline_pure (f : (op : S.Op) → Prog T (S.Ret op)) (a : α) :
    (Pure.pure a : Prog S α).inline f = Pure.pure a := rfl

@[simp] theorem inline_bind (f : (op : S.Op) → Prog T (S.Ret op)) (p : Prog S α)
    (g : α → Prog S β) : (p >>= g).inline f = p.inline f >>= fun a => (g a).inline f := by
  induction p with
  | pure a => rfl
  | call op k ih =>
    show (f op >>= fun r => (k r >>= g).inline f) = (f op >>= fun r => (k r).inline f) >>= _
    rw [bind_assoc]
    exact congrArg _ (funext ih)

/-- **Inlining is interpretation**: a program with its calls implemented executes
as the program does where each call does what its implementation does. -/
theorem exec_inline {f : (op : S.Op) → Prog T (S.Ret op)} {F : Env T σ} {p : Prog S α} {s t : σ}
    {a : α} :
    (p.inline f).Exec F s a t ↔ p.Exec (fun op s r t => (f op).Exec F s r t) s a t := by
  induction p generalizing s with
  | pure b => exact Iff.rfl
  | call op k ih =>
    refine exec_bind.trans ?_
    exact exists_congr fun r => exists_congr fun u => and_congr_right fun _ => ih r

end Exec

/-! ## The states met on the way -/

section Visits
variable {E : Env S σ}

@[simp] theorem visits_pure {a : α} {s t : σ} :
    (Pure.pure a : Prog S α).Visits E s t ↔ t = s := Iff.rfl

@[simp] theorem visits_ret {a : α} {s t : σ} :
    (Prog.pure a : Prog S α).Visits E s t ↔ t = s := Iff.rfl

@[simp] theorem visits_op {op : S.Op} {k : S.Ret op → Prog S α} {s t : σ} :
    (Prog.call op k).Visits E s t ↔ t = s ∨ ∃ r u, E op s r u ∧ (k r).Visits E u t := Iff.rfl

theorem Prog.Visits.start (p : Prog S α) (s : σ) : p.Visits E s s := by
  cases p with
  | pure a => exact rfl
  | call op k => exact Or.inl rfl

@[simp] theorem visits_bind {p : Prog S α} {f : α → Prog S β} {s t : σ} :
    (p >>= f).Visits E s t ↔
      p.Visits E s t ∨ ∃ a u, p.Exec E s a u ∧ (f a).Visits E u t := by
  induction p generalizing s with
  | pure a =>
    constructor
    · exact fun h => Or.inr ⟨a, s, ⟨rfl, rfl⟩, h⟩
    · rintro (rfl | ⟨_, _, ⟨rfl, rfl⟩, h⟩)
      · exact Visits.start _ _
      · exact h
  | call op k ih =>
    constructor
    · rintro (rfl | ⟨r, u, hop, h⟩)
      · exact Or.inl (Or.inl rfl)
      · rcases (ih r).mp h with h | ⟨a, v, hk, hf⟩
        · exact Or.inl (Or.inr ⟨r, u, hop, h⟩)
        · exact Or.inr ⟨a, v, ⟨r, u, hop, hk⟩, hf⟩
    · rintro ((rfl | ⟨r, u, hop, h⟩) | ⟨a, v, ⟨r, u, hop, hk⟩, hf⟩)
      · exact Or.inl rfl
      · exact Or.inr ⟨r, u, hop, (ih r).mpr (Or.inl h)⟩
      · exact Or.inr ⟨r, u, hop, (ih r).mpr (Or.inr ⟨a, v, hk, hf⟩)⟩

end Visits

/-! ## Writing the calls down -/

/-- One call of an execution: what was called, in which state, and the answer. -/
structure Event (S : Signature) (σ : Type) where
  op : S.Op
  pre : σ
  ret : S.Ret op

/-- The calls of an execution, oldest first. -/
abbrev Log (S : Signature) (σ : Type) : Type := List (Event S σ)

/-- The environment that does what `E` does and writes every call down. -/
def Env.logged (E : Env S σ) : Env S (σ × Log S σ) :=
  fun op s r t => E op s.1 r t.1 ∧ t.2 = s.2 ++ [⟨op, s.1, r⟩]

@[simp] theorem logged_iff {E : Env S σ} {op : S.Op} {r : S.Ret op} {s t : σ} {l m : Log S σ} :
    E.logged op (s, l) r (t, m) ↔ E op s r t ∧ m = l ++ [⟨op, s, r⟩] := Iff.rfl

/-- The handler that writes every call down. -/
def Handler.logged (H : Handler S σ) : Handler S (σ × Log S σ) :=
  fun op s => ((H op s.1).1, (H op s.1).2, s.2 ++ [⟨op, s.1, (H op s.1).1⟩])

theorem Handler.Implements.logged {H : Handler S σ} {E : Env S σ} (h : H.Implements E) :
    H.logged.Implements E.logged := fun op s => ⟨h op s.1, rfl⟩

/-- What `f` sees in the most recent event in which it sees anything. -/
def lastOf {β : Type} (f : Event S σ → Option β) (l : Log S σ) : Option β :=
  (l.filterMap f).getLast?

section LastOf
variable {f : Event S σ → Option β}

@[simp] theorem lastOf_nil : lastOf f [] = none := rfl

@[simp] theorem lastOf_append (l m : Log S σ) :
    lastOf f (l ++ m) = (lastOf f m).or (lastOf f l) := by
  rw [lastOf, List.filterMap_append, List.getLast?_append]
  rfl

@[simp] theorem lastOf_cons (e : Event S σ) (l : Log S σ) :
    lastOf f (e :: l) = (lastOf f l).or (f e) := by
  rw [← List.singleton_append, lastOf_append]
  unfold lastOf
  cases hf : f e <;> simp [hf]

theorem lastOf_eq_none {l : Log S σ} : lastOf f l = none ↔ ∀ e ∈ l, f e = none := by
  simp [lastOf]

end LastOf

/-- Every element stands in `R` to the elements before it. -/
def Each (R : List α → α → Prop) (l : List α) : Prop := ∀ p a q, l = p ++ a :: q → R p a

section Each
variable {R : List α → α → Prop}

@[simp] theorem each_nil : Each R [] := by
  intro p a q h
  cases p <;> cases h

theorem each_append {l m : List α} :
    Each R (l ++ m) ↔ Each R l ∧ Each (fun p => R (l ++ p)) m := by
  constructor
  · intro h
    constructor
    · rintro p a q rfl
      exact h p a (q ++ m) (by simp)
    · rintro p a q rfl
      exact h (l ++ p) a q (by simp)
  · rintro ⟨hl, hm⟩ p a q h
    rcases List.append_eq_append_iff.mp h with ⟨c, rfl, hc⟩ | ⟨c, rfl, hc⟩
    · exact hm c a q hc
    · cases c with
      | nil => simpa using hm [] a q hc.symm
      | cons b c =>
        obtain ⟨rfl, rfl⟩ := List.cons.inj hc
        exact hl p a c rfl

theorem each_singleton {a : α} : Each R [a] ↔ R [] a := by
  constructor
  · exact fun h => h [] a [] rfl
  · intro h p b q hq
    cases p with
    | nil => obtain ⟨rfl, _⟩ := List.cons.inj hq; exact h
    | cons c p => simp at hq

@[simp] theorem each_snoc {l : List α} {a : α} : Each R (l ++ [a]) ↔ Each R l ∧ R l a := by
  rw [each_append, each_singleton, List.append_nil]

theorem each_cons {l : List α} {a : α} :
    Each R (a :: l) ↔ R [] a ∧ Each (fun p => R (a :: p)) l := by
  rw [← List.singleton_append, each_append, each_singleton]
  rfl

instance decidableEach {R : List α → α → Prop} [∀ p a, Decidable (R p a)] :
    (l : List α) → Decidable (Each R l)
  | [] => .isTrue each_nil
  | a :: l =>
    have := decidableEach (R := fun p => R (a :: p)) l
    decidable_of_iff (R [] a ∧ Each (fun p => R (a :: p)) l) each_cons.symm

theorem Each.mono {R' : List α → α → Prop} {l : List α} (h : Each R l)
    (hR : ∀ p a, R p a → R' p a) : Each R' l := fun p a q hl => hR p a (h p a q hl)

theorem each_of_forall {l : List α} (h : ∀ a ∈ l, ∀ p, R p a) : Each R l := by
  rintro p a q rfl
  exact h a (by simp) p

end Each

section Logged
variable {E : Env S σ}

/-- **The log only grows**, and what is added does not depend on what was there. -/
theorem exec_logged_split {p : Prog S α} {s t : σ} {l m : Log S σ} {a : α}
    (h : p.Exec E.logged (s, l) a (t, m)) :
    ∃ seg, m = l ++ seg ∧ ∀ l', p.Exec E.logged (s, l') a (t, l' ++ seg) := by
  induction p generalizing s l with
  | pure b =>
    obtain ⟨rfl, hst⟩ := h
    obtain ⟨rfl, rfl⟩ := Prod.mk.inj hst
    exact ⟨[], (List.append_nil _).symm, fun l' => ⟨rfl, by rw [List.append_nil]⟩⟩
  | call op k ih =>
    obtain ⟨r, ⟨u, l₁⟩, ⟨hop, hl⟩, hk⟩ := h
    change l₁ = l ++ [⟨op, s, r⟩] at hl
    obtain ⟨seg, rfl, hseg⟩ := ih r hk
    refine ⟨⟨op, s, r⟩ :: seg, by rw [hl, List.append_assoc]; rfl, fun l' => ?_⟩
    refine ⟨r, (u, l' ++ [⟨op, s, r⟩]), ⟨hop, rfl⟩, ?_⟩
    have := hseg (l' ++ [⟨op, s, r⟩])
    rwa [List.append_assoc] at this

/-- An execution, with its calls forgotten. -/
theorem Prog.Exec.forget {p : Prog S α} {s t : σ} {l m : Log S σ} {a : α}
    (h : p.Exec E.logged (s, l) a (t, m)) : p.Exec E s a t := by
  induction p generalizing s l with
  | pure b => exact ⟨h.1, (Prod.mk.inj h.2).1⟩
  | call op k ih =>
    obtain ⟨r, ⟨u, l₁⟩, ⟨hop, _⟩, hk⟩ := h
    exact ⟨r, u, hop, ih r hk⟩

end Logged

end Interaction
