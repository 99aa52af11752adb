import Micronet.Interaction

/-!
# Weakest preconditions of calling programs

`wp E p Q s` says that every execution of `p` from `s` in the environment `E`
returns a value and a state that satisfy `Q`; by `wp_iff` it is exactly that
statement about `Exec`.  It is computed along the program, so a property of a
program is proved by rewriting it to a property of the environment's calls.

Programs that can fail live in `ExceptT ε (Prog S)`: their precondition `wpE` has
one postcondition for a value and one for an error, and a `do` block passes the
error postcondition through unchanged.  `wp_forM` is the rule for a loop over a
list, `wp_within` the rule for what none of a program's calls touches.
`Throughout` is about the states on the way.
-/
namespace Interaction
open Prog

variable {S : Signature} {α β σ ε : Type}

/-- The weakest precondition of `p` for `Q`. -/
def wp (E : Env S σ) : Prog S α → (α → σ → Prop) → σ → Prop
  | .pure a, Q, s => Q a s
  | .call op k, Q, s => ∀ r t, E op s r t → wp E (k r) Q t

section Wp
variable {E : Env S σ} {Q Q' : α → σ → Prop} {s : σ}

@[simp] theorem wp_pure {a : α} : wp E (Pure.pure a : Prog S α) Q s ↔ Q a s := Iff.rfl

@[simp] theorem wp_ret {a : α} : wp E (Prog.pure a : Prog S α) Q s ↔ Q a s := Iff.rfl

@[simp] theorem wp_op {op : S.Op} {k : S.Ret op → Prog S α} :
    wp E (Prog.call op k) Q s ↔ ∀ r t, E op s r t → wp E (k r) Q t := Iff.rfl

@[simp] theorem wp_bind {p : Prog S α} {f : α → Prog S β} {Q : β → σ → Prop} :
    wp E (p >>= f) Q s ↔ wp E p (fun a t => wp E (f a) Q t) s := by
  induction p generalizing s with
  | pure a => exact Iff.rfl
  | call op k ih =>
    exact forall_congr' fun r => forall_congr' fun t => imp_congr_right fun _ => ih r

/-- Under a log, a call also writes itself down. -/
@[simp high] theorem wp_logged_op {op : S.Op} {k : S.Ret op → Prog S α}
    {Q : α → σ × Log S σ → Prop} {s : σ × Log S σ} :
    wp E.logged (Prog.call op k) Q s ↔
      ∀ r t, E op s.1 r t → wp E.logged (k r) Q (t, s.2 ++ [⟨op, s.1, r⟩]) := by
  constructor
  · exact fun h r t hop => wp_op.mp h r (t, _) ⟨hop, rfl⟩
  · intro h r t hop
    obtain ⟨t, m⟩ := t
    obtain ⟨hE, rfl⟩ := hop
    exact h r t hE

@[simp] theorem wp_map {p : Prog S α} {f : α → β} {Q : β → σ → Prop} :
    wp E (f <$> p) Q s ↔ wp E p (fun a t => Q (f a) t) s := by
  rw [← bind_pure_comp, wp_bind]
  simp only [wp_pure]

/-- **The precondition is about executions**, and says no less. -/
theorem wp_iff {p : Prog S α} : wp E p Q s ↔ ∀ a t, p.Exec E s a t → Q a t := by
  induction p generalizing s with
  | pure a =>
    constructor
    · rintro h _ _ ⟨rfl, rfl⟩; exact h
    · exact fun h => h a s ⟨rfl, rfl⟩
  | call op k ih =>
    constructor
    · rintro h a t ⟨r, u, hop, hk⟩
      exact (ih r).mp (h r u hop) a t hk
    · exact fun h r t hop => (ih r).mpr fun a u hk => h a u ⟨r, t, hop, hk⟩

theorem wp_mono {p : Prog S α} (h : wp E p Q s) (hQ : ∀ a t, Q a t → Q' a t) : wp E p Q' s :=
  wp_iff.mpr fun a t he => hQ a t (wp_iff.mp h a t he)

theorem wp_and {p : Prog S α} (h : wp E p Q s) (h' : wp E p Q' s) :
    wp E p (fun a t => Q a t ∧ Q' a t) s :=
  wp_iff.mpr fun a t he => ⟨wp_iff.mp h a t he, wp_iff.mp h' a t he⟩

@[simp] theorem wp_ite {c : Prop} [Decidable c] {p q : Prog S α} :
    wp E (if c then p else q) Q s ↔ (c → wp E p Q s) ∧ (¬ c → wp E q Q s) := by
  by_cases hc : c <;> simp [hc]

/-- What does not look at the log is proved without it. -/
theorem wp_logged {p : Prog S α} {l : Log S σ} {Q : α → σ × Log S σ → Prop}
    (h : wp E p (fun a t => ∀ seg, Q a (t, l ++ seg)) s) : wp E.logged p Q (s, l) := by
  refine wp_iff.mpr fun a t he => ?_
  obtain ⟨t, m⟩ := t
  obtain ⟨seg, rfl, _⟩ := exec_logged_split he
  exact wp_iff.mp h a t he.forget seg

/-- **The loop rule**: each element takes the invariant from the list with it to
the list without it. -/
theorem wp_forM {f : α → Prog S PUnit} {I : List α → σ → Prop} {l : List α} (h : I l s)
    (hf : ∀ a l s, I (a :: l) s → wp E (f a) (fun _ t => I l t) s) :
    wp E (l.forM f) (fun _ t => I [] t) s := by
  induction l generalizing s with
  | nil => exact h
  | cons a l ih => exact wp_bind.mpr (wp_mono (hf a l s h) fun _ t ht => ih ht)

/-- **The frame rule**: what every allowed call keeps, the program keeps. -/
theorem wp_within {A : S.Op → Prop} {K : α → Prop} {I : σ → Prop}
    (hA : ∀ op s r t, A op → I s → E op s r t → I t) {p : Prog S α} (hp : p.Within A K)
    (hs : I s) : wp E p (fun a t => K a ∧ I t) s := by
  induction p generalizing s with
  | pure a => exact ⟨hp, hs⟩
  | call op k ih => exact fun r t hop => ih r (hp.2 r) (hA op s r t hp.1 hs hop)

end Wp

/-! ## The calls a program makes -/

section Within
variable {A : S.Op → Prop} {K : α → Prop}

@[simp] theorem within_pure {a : α} : (Pure.pure a : Prog S α).Within A K ↔ K a := Iff.rfl

@[simp] theorem within_ret {a : α} : (Prog.pure a : Prog S α).Within A K ↔ K a := Iff.rfl

@[simp] theorem within_op {op : S.Op} {k : S.Ret op → Prog S α} :
    (Prog.call op k).Within A K ↔ A op ∧ ∀ r, (k r).Within A K := Iff.rfl

@[simp] theorem within_bind {p : Prog S α} {f : α → Prog S β} {K : β → Prop} :
    (p >>= f).Within A K ↔ p.Within A fun a => (f a).Within A K := by
  induction p with
  | pure a => exact Iff.rfl
  | call op k ih => exact and_congr_right fun _ => forall_congr' fun r => ih r

@[simp] theorem within_map {p : Prog S α} {f : α → β} {K : β → Prop} :
    (f <$> p).Within A K ↔ p.Within A fun a => K (f a) := by
  rw [← bind_pure_comp, within_bind]
  simp only [within_pure]

@[simp] theorem within_ite {c : Prop} [Decidable c] {p q : Prog S α} :
    (if c then p else q).Within A K ↔ (c → p.Within A K) ∧ (¬ c → q.Within A K) := by
  by_cases hc : c <;> simp [hc]

theorem within_mono {A' : S.Op → Prop} {K' : α → Prop} (hA : ∀ op, A op → A' op)
    (hK : ∀ a, K a → K' a) {p : Prog S α} (h : p.Within A K) : p.Within A' K' := by
  induction p with
  | pure a => exact hK a h
  | call op k ih => exact ⟨hA op h.1, fun r => ih r (h.2 r)⟩

theorem within_forM {f : α → Prog S PUnit} {K : PUnit → Prop} (l : List α) (hK : K ⟨⟩)
    (hf : ∀ a, (f a).Within A fun _ => True) : (l.forM f).Within A K := by
  induction l with
  | nil => exact hK
  | cons a l ih =>
    refine within_bind.mpr ?_
    exact within_mono (fun _ h => h) (fun _ _ => ih) (hf a)

end Within

/-! ## What another thread can see -/

/-- `P` holds in every state `p` passes through, from `s` on. -/
def Throughout (E : Env S σ) (p : Prog S α) (P : σ → Prop) (s : σ) : Prop :=
  ∀ t, p.Visits E s t → P t

section Throughout
variable {E : Env S σ} {P : σ → Prop} {s : σ}

@[simp] theorem throughout_pure {a : α} :
    Throughout E (Pure.pure a : Prog S α) P s ↔ P s := by
  simp [Throughout]

@[simp] theorem throughout_ret {a : α} : Throughout E (Prog.pure a : Prog S α) P s ↔ P s := by
  simp [Throughout]

@[simp] theorem throughout_op {op : S.Op} {k : S.Ret op → Prog S α} :
    Throughout E (Prog.call op k) P s ↔ P s ∧ ∀ r u, E op s r u → Throughout E (k r) P u := by
  constructor
  · exact fun h => ⟨h s (Or.inl rfl), fun r u hop t ht => h t (Or.inr ⟨r, u, hop, ht⟩)⟩
  · rintro ⟨hs, hk⟩ t (rfl | ⟨r, u, hop, ht⟩)
    · exact hs
    · exact hk r u hop t ht

@[simp] theorem throughout_bind {p : Prog S α} {f : α → Prog S β} :
    Throughout E (p >>= f) P s ↔
      Throughout E p P s ∧ wp E p (fun a t => Throughout E (f a) P t) s := by
  rw [wp_iff]
  unfold Throughout
  constructor
  · exact fun h => ⟨fun t ht => h t (visits_bind.mpr (Or.inl ht)),
      fun a u hp t ht => h t (visits_bind.mpr (Or.inr ⟨a, u, hp, ht⟩))⟩
  · rintro ⟨hp, hf⟩ t ht
    rcases visits_bind.mp ht with ht | ⟨a, u, hexec, ht⟩
    · exact hp t ht
    · exact hf a u hexec t ht

@[simp] theorem throughout_ite {c : Prop} [Decidable c] {p q : Prog S α} :
    Throughout E (if c then p else q) P s ↔
      (c → Throughout E p P s) ∧ (¬ c → Throughout E q P s) := by
  by_cases hc : c <;> simp [hc]

/-- What holds throughout, holds at the end. -/
theorem wp_of_throughout {p : Prog S α} (h : Throughout E p P s) : wp E p (fun _ t => P t) s := by
  induction p generalizing s with
  | pure a => exact throughout_ret.mp h
  | call op k ih => exact fun r t hop => ih r ((throughout_op.mp h).2 r t hop)

/-- What every allowed call keeps, holds throughout. -/
theorem throughout_within {A : S.Op → Prop} {K : α → Prop}
    (hA : ∀ op s r t, A op → P s → E op s r t → P t) {p : Prog S α} (hp : p.Within A K)
    (hs : P s) : Throughout E p P s := by
  induction p generalizing s with
  | pure a => exact throughout_ret.mpr hs
  | call op k ih =>
    exact throughout_op.mpr ⟨hs, fun r t hop => ih r (hp.2 r) (hA op s r t hp.1 hs hop)⟩

end Throughout

/-! ## Programs that can fail -/

/-- An answer that can fail, by cases. -/
theorem forall_except {P : Except ε α → Prop} :
    (∀ r, P r) ↔ (∀ a, P (.ok a)) ∧ ∀ e, P (.error e) := by
  constructor
  · exact fun h => ⟨fun a => h _, fun e => h _⟩
  · intro h r
    cases r with
    | ok a => exact h.1 a
    | error e => exact h.2 e

/-- The postcondition of a program that can fail. -/
def post (Q : α → σ → Prop) (R : ε → σ → Prop) : Except ε α → σ → Prop
  | .ok a => Q a
  | .error e => R e

@[simp] theorem post_ok {Q : α → σ → Prop} {R : ε → σ → Prop} {a : α} {s : σ} :
    post Q R (.ok a) s ↔ Q a s := Iff.rfl

@[simp] theorem post_error {Q : α → σ → Prop} {R : ε → σ → Prop} {e : ε} {s : σ} :
    post Q R (.error e : Except ε α) s ↔ R e s := Iff.rfl

/-- An error ends the program. -/
theorem execE_bind {E : Env S σ} {x : ExceptT ε (Prog S) α} {f : α → ExceptT ε (Prog S) β}
    {s t : σ} {r : Except ε β} :
    (x >>= f).run.Exec E s r t ↔
      (∃ a u, x.run.Exec E s (.ok a) u ∧ (f a).run.Exec E u r t) ∨
        ∃ e, x.run.Exec E s (.error e) t ∧ r = .error e := by
  rw [ExceptT.run_bind, exec_bind]
  constructor
  · intro h
    obtain ⟨a | a, u, hx, hf⟩ := h
    · obtain ⟨rfl, rfl⟩ := hf
      exact Or.inr ⟨a, hx, rfl⟩
    · exact Or.inl ⟨a, u, hx, hf⟩
  · intro h
    rcases h with ⟨a, u, hx, hf⟩ | ⟨e, hx, rfl⟩
    · exact ⟨.ok a, u, hx, hf⟩
    · exact ⟨.error e, t, hx, rfl, rfl⟩

/-- The same of a run. -/
theorem runE_bind_eq_ok {H : Handler S σ} {x : ExceptT ε (Prog S) α}
    {f : α → ExceptT ε (Prog S) β} {s t : σ} {b : β} :
    (x >>= f).run.run H s = (.ok b, t) ↔
      ∃ a u, x.run.run H s = (.ok a, u) ∧ (f a).run.run H u = (.ok b, t) := by
  rw [ExceptT.run_bind, run_bind]
  cases hx : x.run.run H s with
  | mk r u =>
    cases r with
    | ok a =>
      constructor
      · exact fun h => ⟨a, u, rfl, h⟩
      · rintro ⟨_, _, h, h'⟩
        cases h
        exact h'
    | error e =>
      constructor
      · exact fun h => nomatch (Prod.mk.inj h).1
      · rintro ⟨a, v, h, -⟩
        cases h

theorem runE_bind_ok {H : Handler S σ} {x : ExceptT ε (Prog S) α} {f : α → ExceptT ε (Prog S) β}
    {s t : σ} {a : α} (h : x.run.run H s = (.ok a, t)) :
    (x >>= f).run.run H s = (f a).run.run H t := by
  rw [ExceptT.run_bind, run_bind, h]

theorem runE_lift_eq_ok {H : Handler S σ} {p : Prog S α} {s t : σ} {a : α} :
    (liftM p : ExceptT ε (Prog S) α).run.run H s = (.ok a, t) ↔ p.run H s = (a, t) := by
  show (p >>= fun a => Pure.pure (Except.ok a)).run H s = _ ↔ _
  rw [run_bind]
  show ((Except.ok _ : Except ε α), _) = _ ↔ _
  simp [Prod.ext_iff]

/-- The weakest precondition of `x` for `Q` on a value and `R` on an error. -/
def wpE (E : Env S σ) (x : ExceptT ε (Prog S) α) (Q : α → σ → Prop) (R : ε → σ → Prop) (s : σ) :
    Prop :=
  wp E x.run (post Q R) s

section WpE
variable {E : Env S σ} {Q Q' : α → σ → Prop} {R R' : ε → σ → Prop} {s : σ}

@[simp] theorem wpE_pure {a : α} :
    wpE E (Pure.pure a : ExceptT ε (Prog S) α) Q R s ↔ Q a s := Iff.rfl

@[simp] theorem wpE_throw {e : ε} :
    wpE E (throw e : ExceptT ε (Prog S) α) Q R s ↔ R e s := Iff.rfl

@[simp] theorem wpE_mk {p : Prog S (Except ε α)} :
    wpE E (ExceptT.mk p) Q R s ↔ wp E p (post Q R) s := Iff.rfl

@[simp] theorem wpE_lift {p : Prog S α} :
    wpE E (liftM p : ExceptT ε (Prog S) α) Q R s ↔ wp E p Q s := by
  show wp E (p >>= fun a => Pure.pure (Except.ok a)) (post Q R) s ↔ _
  exact wp_bind

@[simp] theorem wpE_bind {x : ExceptT ε (Prog S) α} {f : α → ExceptT ε (Prog S) β}
    {Q : β → σ → Prop} :
    wpE E (x >>= f) Q R s ↔ wpE E x (fun a t => wpE E (f a) Q R t) R s := by
  unfold wpE
  rw [ExceptT.run_bind, wp_bind]
  refine iff_of_eq (congrArg (fun K => wp E x.run K s) ?_)
  funext r t
  cases r <;> rfl

@[simp] theorem wpE_map {x : ExceptT ε (Prog S) α} {f : α → β} {Q : β → σ → Prop} :
    wpE E (f <$> x) Q R s ↔ wpE E x (fun a t => Q (f a) t) R s := by
  rw [← bind_pure_comp, wpE_bind]
  simp only [wpE_pure]

@[simp] theorem wpE_ite {c : Prop} [Decidable c] {x y : ExceptT ε (Prog S) α} :
    wpE E (if c then x else y) Q R s ↔ (c → wpE E x Q R s) ∧ (¬ c → wpE E y Q R s) := by
  by_cases hc : c <;> simp [hc]

theorem wpE_iff {x : ExceptT ε (Prog S) α} :
    wpE E x Q R s ↔ ∀ r t, x.run.Exec E s r t → post Q R r t := wp_iff

theorem wpE_mono {x : ExceptT ε (Prog S) α} (h : wpE E x Q R s) (hQ : ∀ a t, Q a t → Q' a t)
    (hR : ∀ e t, R e t → R' e t) : wpE E x Q' R' s :=
  wp_mono h fun r t => match r with
    | .ok a => hQ a t
    | .error e => hR e t

theorem wpE_and {x : ExceptT ε (Prog S) α} (h : wpE E x Q R s) (h' : wpE E x Q' R' s) :
    wpE E x (fun a t => Q a t ∧ Q' a t) (fun e t => R e t ∧ R' e t) s :=
  wp_mono (wp_and h h') fun r _ hr => match r with
    | .ok _ => hr
    | .error _ => hr

/-- What does not look at the log is proved without it. -/
theorem wpE_logged {x : ExceptT ε (Prog S) α} {l : Log S σ} (h : wpE E x Q R s) :
    wpE E.logged x (fun a t => Q a t.1) (fun e t => R e t.1) (s, l) :=
  wp_logged (wp_mono h fun r _ hr _ => match r with
    | .ok _ => hr
    | .error _ => hr)

/-- What it can do is what all that can be said of it allows. -/
theorem execE_iff_wpE {x : ExceptT ε (Prog S) α} {r : Except ε α} {t : σ} :
    x.run.Exec E s r t ↔ ∀ Q R, wpE E x Q R s → post Q R r t := by
  constructor
  · exact fun h Q R hx => wpE_iff.mp hx r t h
  · intro h
    have hx : wpE E x (fun a u => x.run.Exec E s (.ok a) u)
        (fun e u => x.run.Exec E s (.error e) u) s :=
      wpE_iff.mpr fun r u hr => match r with
        | .ok a => hr
        | .error e => hr
    have hr := h _ _ hx
    cases r with
    | ok a => exact hr
    | error e => exact hr

/-- `Within` for a program that can fail: `Q` holds of its values. -/
def WithinE (A : S.Op → Prop) (Q : α → Prop) (x : ExceptT ε (Prog S) α) : Prop :=
  x.run.Within A fun r => ∀ a, r = .ok a → Q a

section WithinE
variable {A : S.Op → Prop} {P : α → Prop}

@[simp] theorem withinE_pure {a : α} :
    WithinE A P (Pure.pure a : ExceptT ε (Prog S) α) ↔ P a := by
  show (∀ b, Except.ok a = Except.ok b → P b) ↔ P a
  simp

@[simp] theorem withinE_throw {e : ε} : WithinE A P (throw e : ExceptT ε (Prog S) α) :=
  fun _ h => nomatch h

@[simp] theorem withinE_mk {p : Prog S (Except ε α)} :
    WithinE A P (ExceptT.mk p) ↔ p.Within A fun r => ∀ a, r = .ok a → P a := Iff.rfl

@[simp] theorem withinE_lift {p : Prog S α} :
    WithinE A P (liftM p : ExceptT ε (Prog S) α) ↔ p.Within A P := by
  show (p >>= fun a => Pure.pure (Except.ok a)).Within A _ ↔ _
  rw [within_bind]
  simp

@[simp] theorem withinE_bind {x : ExceptT ε (Prog S) α} {f : α → ExceptT ε (Prog S) β}
    {P : β → Prop} : WithinE A P (x >>= f) ↔ WithinE A (fun a => WithinE A P (f a)) x := by
  unfold WithinE
  rw [ExceptT.run_bind, within_bind]
  refine iff_of_eq (congrArg (fun K => x.run.Within A K) ?_)
  funext r
  cases r <;> simp

@[simp] theorem withinE_map {x : ExceptT ε (Prog S) α} {f : α → β} {P : β → Prop} :
    WithinE A P (f <$> x) ↔ WithinE A (fun a => P (f a)) x := by
  rw [← bind_pure_comp, withinE_bind]
  simp only [withinE_pure]

@[simp] theorem withinE_ite {c : Prop} [Decidable c] {x y : ExceptT ε (Prog S) α} :
    WithinE A P (if c then x else y) ↔ (c → WithinE A P x) ∧ (¬ c → WithinE A P y) := by
  by_cases hc : c <;> simp [hc]

/-- The frame rule, for a program that can fail. -/
theorem wpE_within {I : σ → Prop} (hA : ∀ op s r t, A op → I s → E op s r t → I t)
    {x : ExceptT ε (Prog S) α} (hx : WithinE A P x) (hs : I s) :
    wpE E x (fun a t => P a ∧ I t) (fun _ t => I t) s :=
  wp_mono (wp_within hA hx hs) fun r _ h => match r, h with
    | .ok a, h => ⟨h.1 a rfl, h.2⟩
    | .error _, h => h.2

/-- The values it returns anywhere. -/
theorem WithinE.value {x : ExceptT ε (Prog S) α} (hx : WithinE A P x) {t : σ} {a : α}
    (h : x.run.Exec E s (.ok a) t) : P a :=
  (wpE_iff.mp (wpE_within (I := fun _ => True) (fun _ _ _ _ _ _ _ => trivial) hx trivial)
    (.ok a) t h).1

/-- The frame rule under a log: the calls written down are the allowed ones. -/
theorem wpE_within_logged {I : σ → Prop} {l : Log S σ}
    (hA : ∀ op s r t, A op → I s → E op s r t → I t) {x : ExceptT ε (Prog S) α}
    (hx : WithinE A P x) (hs : I s) :
    wpE E.logged x (fun a t => P a ∧ I t.1 ∧ ∃ seg, t.2 = l ++ seg ∧ ∀ e ∈ seg, A e.op)
      (fun _ t => I t.1 ∧ ∃ seg, t.2 = l ++ seg ∧ ∀ e ∈ seg, A e.op) (s, l) := by
  refine wpE_within
    (I := fun t : σ × Log S σ => I t.1 ∧ ∃ seg, t.2 = l ++ seg ∧ ∀ e ∈ seg, A e.op) ?_ hx ?_
  · intro op u r v hop ⟨hI, seg, hl, hseg⟩ ⟨hE, hm⟩
    refine ⟨hA op u.1 r v.1 hop hI hE, seg ++ [⟨op, u.1, r⟩], ?_, ?_⟩
    · rw [hm, hl, List.append_assoc]
    · intro e he
      rcases List.mem_append.mp he with h | h
      · exact hseg e h
      · rw [List.mem_singleton.mp h]
        exact hop
  · exact ⟨hs, [], (List.append_nil l).symm, fun _ h => nomatch h⟩

end WithinE
end WpE
end Interaction
