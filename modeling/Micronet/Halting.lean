import Micronet.Weakest

/-!
# Programs whose calls can halt

`Prog.via f` is `Prog.inline` for implementations that may halt with an `ε` in
place of an answer; the program then halts with it.  It returns what the program
returns where each call answers as its implementation does (`exec_via_ok`), and it
halts where it comes to a call whose implementation halts (`exec_via_error`).

`Prog.Meets` is a contract: as long as the answers are as agreed, so are the calls.
`wpE_via` is its rule: implementations that keep an invariant, answer as agreed and
do not halt make a program that does the same.
-/
namespace Interaction
open Prog

variable {S T : Signature} {α β σ ε : Type}

namespace Prog

/-- `p` with every call replaced by the program that implements it, or halts. -/
def via (f : (op : S.Op) → ExceptT ε (Prog T) (S.Ret op)) : Prog S α → ExceptT ε (Prog T) α
  | .pure a => Pure.pure a
  | .call op k => f op >>= fun r => (k r).via f

/-- Started in `s`, `p` can come to the call `c` in state `u`. -/
def Reaches (E : Env S σ) : Prog S α → σ → S.Op → σ → Prop
  | .pure _, _, _, _ => False
  | .call op k, s, c, u => (c = op ∧ u = s) ∨ ∃ r t, E op s r t ∧ (k r).Reaches E t c u

end Prog

/-- Each call answers as its implementation does. -/
def Env.through (F : Env T σ) (f : (op : S.Op) → ExceptT ε (Prog T) (S.Ret op)) : Env S σ :=
  fun op s r t => (f op).run.Exec F s (.ok r) t

section Via
variable {F : Env T σ} {f : (op : S.Op) → ExceptT ε (Prog T) (S.Ret op)} {s t : σ}

@[simp] theorem via_ret (a : α) : (Prog.pure a : Prog S α).via f = Pure.pure a := rfl

@[simp] theorem via_pure (a : α) : (Pure.pure a : Prog S α).via f = Pure.pure a := rfl

@[simp] theorem via_op (op : S.Op) (k : S.Ret op → Prog S α) :
    (Prog.call op k).via f = f op >>= fun r => (k r).via f := rfl

theorem via_call (op : S.Op) : (call op).via f = f op := bind_pure (f op)

@[simp] theorem via_bind (p : Prog S α) (g : α → Prog S β) :
    (p >>= g).via f = p.via f >>= fun a => (g a).via f := by
  induction p with
  | pure a => exact (pure_bind _ _).symm
  | call op k ih =>
    show (f op >>= fun r => (k r >>= g).via f) = (f op >>= fun r => (k r).via f) >>= _
    rw [bind_assoc]
    exact congrArg _ (funext ih)

/-- **It returns what the program returns** where the calls answer as implemented. -/
theorem exec_via_ok {p : Prog S α} {a : α} :
    (p.via f).run.Exec F s (.ok a) t ↔ p.Exec (F.through f) s a t := by
  induction p generalizing s with
  | pure b =>
    show (Except.ok a = Except.ok b ∧ t = s) ↔ a = b ∧ t = s
    rw [Except.ok.injEq]
  | call op k ih =>
    refine execE_bind.trans ?_
    constructor
    · rintro (⟨r, u, hop, hk⟩ | ⟨e, -, h⟩)
      · exact ⟨r, u, hop, (ih r).mp hk⟩
      · cases h
    · rintro ⟨r, u, hop, hk⟩
      exact Or.inl ⟨r, u, hop, (ih r).mpr hk⟩

/-- **It halts where it comes to a call that halts.** -/
theorem exec_via_error {p : Prog S α} {e : ε} :
    (p.via f).run.Exec F s (.error e) t ↔
      ∃ op u, p.Reaches (F.through f) s op u ∧ (f op).run.Exec F u (.error e) t := by
  induction p generalizing s with
  | pure b =>
    constructor
    · rintro ⟨h, -⟩
      cases h
    · rintro ⟨op, u, h, -⟩
      exact h.elim
  | call op k ih =>
    refine execE_bind.trans ?_
    constructor
    · rintro (⟨r, u, hop, hk⟩ | ⟨e', hop, h⟩)
      · obtain ⟨c, v, hreach, hc⟩ := (ih r).mp hk
        exact ⟨c, v, Or.inr ⟨r, u, hop, hreach⟩, hc⟩
      · cases h
        exact ⟨op, s, Or.inl ⟨rfl, rfl⟩, hop⟩
    · rintro ⟨c, v, ⟨rfl, rfl⟩ | ⟨r, u, hop, hreach⟩, hc⟩
      · exact Or.inr ⟨e, hc, rfl⟩
      · exact Or.inl ⟨r, u, hop, (ih r).mpr ⟨c, v, hreach, hc⟩⟩

end Via

theorem within_true (p : Prog S α) : p.Within (fun _ => True) fun _ => True := by
  induction p with
  | pure a => exact trivial
  | call op k ih => exact ⟨trivial, ih⟩

/-! ## Contracts -/

/-- As long as its calls are answered as `B` says, `p` makes only calls that `A`
allows and returns only values in `K`. -/
def Prog.Meets (A : S.Op → Prop) (B : (op : S.Op) → S.Ret op → Prop) (K : α → Prop) :
    Prog S α → Prop
  | .pure a => K a
  | .call op k => A op ∧ ∀ r, B op r → (k r).Meets A B K

section Meets
variable {A : S.Op → Prop} {B : (op : S.Op) → S.Ret op → Prop} {K K' : α → Prop}

@[simp] theorem meets_pure {a : α} : (Pure.pure a : Prog S α).Meets A B K ↔ K a := Iff.rfl

@[simp] theorem meets_ret {a : α} : (Prog.pure a : Prog S α).Meets A B K ↔ K a := Iff.rfl

@[simp] theorem meets_op {op : S.Op} {k : S.Ret op → Prog S α} :
    (Prog.call op k).Meets A B K ↔ A op ∧ ∀ r, B op r → (k r).Meets A B K := Iff.rfl

@[simp] theorem meets_bind {p : Prog S α} {f : α → Prog S β} {K : β → Prop} :
    (p >>= f).Meets A B K ↔ p.Meets A B fun a => (f a).Meets A B K := by
  induction p with
  | pure a => exact Iff.rfl
  | call op k ih =>
    exact and_congr_right fun _ => forall_congr' fun r => imp_congr_right fun _ => ih r

@[simp] theorem meets_ite {c : Prop} [Decidable c] {p q : Prog S α} :
    (if c then p else q).Meets A B K ↔ (c → p.Meets A B K) ∧ (¬ c → q.Meets A B K) := by
  by_cases hc : c <;> simp [hc]

theorem meets_mono (hK : ∀ a, K a → K' a) {p : Prog S α} (h : p.Meets A B K) :
    p.Meets A B K' := by
  induction p with
  | pure a => exact hK a h
  | call op k ih => exact ⟨h.1, fun r hr => ih r (h.2 r hr)⟩

theorem meets_of_within {p : Prog S α} (h : p.Within A K) : p.Meets A B K := by
  induction p with
  | pure a => exact h
  | call op k ih => exact ⟨h.1, fun r _ => ih r (h.2 r)⟩

/-- A program that can fail goes on from its values only. -/
theorem meets_run_bind {x : ExceptT ε (Prog S) α} {f : α → ExceptT ε (Prog S) β}
    {K : Except ε β → Prop} (hK : ∀ e, K (.error e)) :
    (x >>= f).run.Meets A B K ↔
      x.run.Meets A B fun r => ∀ a, r = .ok a → (f a).run.Meets A B K := by
  rw [ExceptT.run_bind, meets_bind]
  refine iff_of_eq (congrArg (x.run.Meets A B) ?_)
  funext r
  cases r <;> simp [hK]

theorem run_lift_bind {p : Prog S α} {f : α → ExceptT ε (Prog S) β} :
    ((liftM p : ExceptT ε (Prog S) α) >>= f).run = p >>= fun a => (f a).run := by
  rw [ExceptT.run_bind]
  show (p >>= fun a => Pure.pure (Except.ok a)) >>= _ = _
  rw [bind_assoc]
  simp only [pure_bind]

variable {F : Env T σ} {f : (op : S.Op) → ExceptT ε (Prog T) (S.Ret op)} {I : σ → Prop}
  {R : ε → σ → Prop} {s : σ}

/-- **The rule of contracts.** -/
theorem wpE_via
    (hf : ∀ op u, A op → I u → wpE F (f op) (fun r t => B op r ∧ I t) R u) {p : Prog S α}
    (hp : p.Meets A B K) (hs : I s) : wpE F (p.via f) (fun a t => K a ∧ I t) R s := by
  induction p generalizing s with
  | pure a => exact ⟨hp, hs⟩
  | call op k ih =>
    refine wpE_bind.mpr (wpE_mono (hf op s hp.1 hs) (fun r t hr => ?_) fun e t he => he)
    exact ih r (hp.2 r hr.1) hr.2

/-- **The rule of contracts, throughout**: an outside that answers as agreed, and whose allowed
calls keep `J`, keeps it in every state on the way. -/
theorem throughout_meets {E : Env S σ} {J : σ → Prop}
    (hE : ∀ op u r v, A op → J u → E op u r v → B op r ∧ J v) {p : Prog S α} {u : σ}
    (hp : p.Meets A B K) (hu : J u) : Throughout E p J u := by
  induction p generalizing u with
  | pure a => exact throughout_ret.mpr hu
  | call op k ih =>
    refine throughout_op.mpr ⟨hu, fun r v hop => ?_⟩
    obtain ⟨hr, hv⟩ := hE op u r v hp.1 hu hop
    exact ih r (hp.2 r hr) hv

end Meets

/-! ## Programs that can halt, over others -/

/-- `x` with every call replaced by its implementation. -/
def viaE (f : (op : S.Op) → ExceptT ε (Prog T) (S.Ret op)) (x : ExceptT ε (Prog S) α) :
    ExceptT ε (Prog T) α :=
  x.run.via f >>= fun r => ExceptT.mk (Pure.pure r)

section ViaE
variable {F : Env T σ} {f : (op : S.Op) → ExceptT ε (Prog T) (S.Ret op)}
  {x : ExceptT ε (Prog S) α} {s t : σ} {r : Except ε α}

/-- Where no implementation halts, it does what `x` does. -/
theorem exec_viaE (hf : ∀ op u e v, ¬ (f op).run.Exec F u (.error e) v) :
    (viaE f x).run.Exec F s r t ↔ x.run.Exec (F.through f) s r t := by
  refine execE_bind.trans ?_
  constructor
  · rintro (⟨a, u, hx, rfl, rfl⟩ | ⟨e, hx, rfl⟩)
    · exact exec_via_ok.mp hx
    · obtain ⟨op, u, -, hop⟩ := exec_via_error.mp hx
      exact absurd hop (hf op u e t)
  · exact fun h => Or.inl ⟨r, t, exec_via_ok.mpr h, rfl, rfl⟩

/-- The same of what can be said of it. -/
theorem wpE_viaE (hf : ∀ op u e v, ¬ (f op).run.Exec F u (.error e) v) {Q : α → σ → Prop}
    {R : ε → σ → Prop} : wpE F (viaE f x) Q R s ↔ wpE (F.through f) x Q R s := by
  rw [wpE_iff, wpE_iff]
  simp only [exec_viaE hf]

end ViaE

theorem not_exec_lift_error {E : Env S σ} {p : Prog S α} {s t : σ} {e : ε} :
    ¬ (liftM p : ExceptT ε (Prog S) α).run.Exec E s (.error e) t := by
  have h : wpE E (liftM p : ExceptT ε (Prog S) α) (fun _ _ => True) (fun _ _ => False) s :=
    wpE_lift.mpr (wp_iff.mpr fun _ _ _ => trivial)
  exact fun he => wpE_iff.mp h _ t he

theorem exec_lift_ok {E : Env S σ} {p : Prog S α} {s t : σ} {a : α} :
    (liftM p : ExceptT ε (Prog S) α).run.Exec E s (.ok a) t ↔ p.Exec E s a t := by
  show (p >>= fun a => Pure.pure (Except.ok a)).Exec E s (.ok a) t ↔ _
  rw [exec_bind]
  constructor
  · rintro ⟨b, u, hp, h, rfl⟩
    cases h
    exact hp
  · exact fun h => ⟨a, t, h, rfl, rfl⟩

theorem exec_bind_ok {E : Env S σ} {x : ExceptT ε (Prog S) α} {f : α → ExceptT ε (Prog S) β}
    {s t u : σ} {a : α} {r : Except ε β} (hx : x.run.Exec E s (.ok a) u)
    (hf : (f a).run.Exec E u r t) : (x >>= f).run.Exec E s r t :=
  execE_bind.mpr (Or.inl ⟨a, u, hx, hf⟩)

theorem exec_bind_halt {E : Env S σ} {x : ExceptT ε (Prog S) α} {f : α → ExceptT ε (Prog S) β}
    {s t : σ} {e : ε} (hx : x.run.Exec E s (.error e) t) : (x >>= f).run.Exec E s (.error e) t :=
  execE_bind.mpr (Or.inr ⟨e, hx, rfl⟩)

/-- A program that can fail and halt, after a value. -/
theorem exec_run_bind {δ : Type} {E : Env S σ} {x : ExceptT δ (ExceptT ε (Prog S)) α}
    {f : α → ExceptT δ (ExceptT ε (Prog S)) β} {s t u : σ} {a : α} {r : Except ε (Except δ β)}
    (hx : x.run.run.Exec E s (.ok (.ok a)) u) (hf : (f a).run.run.Exec E u r t) :
    (x >>= f).run.run.Exec E s r t := by
  rw [ExceptT.run_bind]
  exact exec_bind_ok hx hf

theorem exec_run_lift {δ : Type} {E : Env S σ} {x : ExceptT ε (Prog S) α} {s t : σ} {a : α}
    (hx : x.run.Exec E s (.ok a) t) :
    (liftM x : ExceptT δ (ExceptT ε (Prog S)) α).run.run.Exec E s (.ok (.ok a)) t :=
  exec_bind_ok hx ⟨rfl, rfl⟩

/-- It halts where it is lifted, whatever follows. -/
theorem exec_run_lift_halt {δ : Type} {E : Env S σ} {x : ExceptT ε (Prog S) α}
    {f : α → ExceptT δ (ExceptT ε (Prog S)) β} {s t : σ} {e : ε}
    (hx : x.run.Exec E s (.error e) t) :
    ((liftM x : ExceptT δ (ExceptT ε (Prog S)) α) >>= f).run.run.Exec E s (.error e) t := by
  have hlift : (liftM x : ExceptT δ (ExceptT ε (Prog S)) α).run.run.Exec E s (.error e) t :=
    exec_bind_halt hx
  rw [ExceptT.run_bind]
  exact exec_bind_halt hlift

/-- A program that can fail, with its calls implemented, after a value. -/
theorem exec_via_run_bind {δ : Type} {F : Env T σ}
    {f : (op : S.Op) → ExceptT ε (Prog T) (S.Ret op)} {x : ExceptT δ (Prog S) α}
    {g : α → ExceptT δ (Prog S) β} {s t u : σ} {a : α} {r : Except ε (Except δ β)}
    (hx : x.run.Exec (F.through f) s (.ok a) u) (hg : ((g a).run.via f).run.Exec F u r t) :
    ((x >>= g).run.via f).run.Exec F s r t := by
  rw [ExceptT.run_bind, via_bind]
  exact execE_bind.mpr (Or.inl ⟨.ok a, u, exec_via_ok.mpr hx, hg⟩)

/-- It halts in its first part. -/
theorem exec_via_run_halt {δ : Type} {F : Env T σ}
    {f : (op : S.Op) → ExceptT ε (Prog T) (S.Ret op)} {x : ExceptT δ (Prog S) α}
    {g : α → ExceptT δ (Prog S) β} {s t : σ} {e : ε}
    (hx : (x.run.via f).run.Exec F s (.error e) t) :
    ((x >>= g).run.via f).run.Exec F s (.error e) t := by
  rw [ExceptT.run_bind, via_bind]
  exact execE_bind.mpr (Or.inr ⟨e, hx, rfl⟩)

end Interaction
