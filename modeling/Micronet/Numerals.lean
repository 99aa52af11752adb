import Mathlib.Data.List.Induction
import Micronet.Text

/-!
# Decimal numbers

Which texts the integer parsers accept: the digits of a number below the bound, and a `+`
that stands before them.  Without a leading zero the digits are those that are printed.
-/
namespace RustText
variable {c : Char} {s ds : List Char} {bound acc n : Nat}

/-- One decimal digit at least. -/
structure IsNumeral (ds : List Char) : Prop where
  ne_nil : ds ≠ []
  digits : ∀ c ∈ ds, c.isDigit

/-- The number that the digits stand for. -/
def value (ds : List Char) : Nat := Nat.ofDigitChars 10 ds 0

theorem isDigit_iff_le : c.isDigit = true ↔ '0' ≤ c ∧ c ≤ '9' := Char.isDigit_iff_toNat

theorem digit_lt_ten (h : c.isDigit) : c.toNat - '0'.toNat < 10 := by
  have hc : c.toNat ≤ 57 := (Char.isDigit_iff_toNat.mp h).2
  show c.toNat - 48 < 10
  omega

theorem isWhitespace_of_isDigit (h : c.isDigit) : isWhitespace c = false := by
  obtain ⟨hlo, hhi⟩ := Char.isDigit_iff_toNat.mp h
  have h48 : 48 ≤ c.toNat := hlo
  have h57 : c.toNat ≤ 57 := hhi
  simp only [isWhitespace, Bool.or_eq_false_iff, Bool.and_eq_false_iff, decide_eq_false_iff_not,
    beq_eq_false_iff_ne]
  omega

/-! ## Parsing -/

theorem le_ofDigitChars (ds : List Char) (n : Nat) : n ≤ Nat.ofDigitChars 10 ds n := by
  rw [Nat.ofDigitChars_eq_ofDigitChars_zero]
  have hpow : 1 * n ≤ 10 ^ ds.length * n := 
    Nat.mul_le_mul_right n (Nat.pow_pos (by decide))
  omega

/-- The bound is met at every digit exactly if it is met at the end. -/
theorem parseDigits_eq_some (hacc : acc < bound) :
    parseDigits bound s acc = some n ↔
      (∀ c ∈ s, c.isDigit) ∧ n = Nat.ofDigitChars 10 s acc ∧ n < bound := by
  induction s generalizing acc with
  | nil =>
    rw [parseDigits, Nat.ofDigitChars_nil, Option.some_inj]
    constructor
    · rintro rfl
      exact ⟨by simp, rfl, hacc⟩
    · rintro ⟨-, rfl, -⟩
      rfl
  | cons c s ih =>
    rw [parseDigits, Nat.ofDigitChars_cons, Nat.mul_comm 10 acc, List.forall_mem_cons,
      isDigit_iff_le]
    by_cases hc : '0' ≤ c ∧ c ≤ '9'
    · simp only [hc, and_self, true_and]
      by_cases hn : acc * 10 + (c.toNat - '0'.toNat) < bound
      · rw [if_pos hn]
        exact ih hn
      · rw [if_neg hn]
        constructor
        · intro h
          cases h
        · rintro ⟨-, rfl, hlt⟩
          have hle := le_ofDigitChars s (acc * 10 + (c.toNat - '0'.toNat))
          omega
    · simp [hc]

theorem parseUnsigned_eq_some (hbound : 0 < bound) :
    parseUnsigned bound s = some n ↔
      ∃ ds, IsNumeral ds ∧ (s = ds ∨ s = '+' :: ds) ∧ n = value ds ∧ n < bound := by
  have hdigits : ∀ ds, ds ≠ [] → (parseDigits bound ds 0 = some n ↔
      IsNumeral ds ∧ n = value ds ∧ n < bound) := by
    intro ds hne
    rw [parseDigits_eq_some hbound]
    exact ⟨fun ⟨hd, h⟩ => ⟨⟨hne, hd⟩, h⟩, fun ⟨hd, h⟩ => ⟨hd.digits, h⟩⟩
  -- at most one sign: the digits after it begin with no other
  have hplus : ∀ ds, ¬ IsNumeral ('+' :: ds) := fun ds h =>
    absurd (h.digits '+' List.mem_cons_self) (by decide)
  constructor
  · intro h
    unfold parseUnsigned at h
    split at h
    · cases h
    · cases h
    · rename_i ds hne
      obtain ⟨hd, hn⟩ := (hdigits ds fun hnil => hne (by rw [hnil])).mp h
      exact ⟨ds, hd, Or.inr rfl, hn⟩
    · rename_i hne _ _
      obtain ⟨hd, hn⟩ := (hdigits s hne).mp h
      exact ⟨s, hd, Or.inl rfl, hn⟩
  · rintro ⟨ds, hd, hs, hn⟩
    have hparse := (hdigits ds hd.ne_nil).mpr ⟨hd, hn⟩
    obtain ⟨c, ds, rfl⟩ := List.exists_cons_of_ne_nil hd.ne_nil
    rcases hs with rfl | rfl
    · have hc : c ≠ '+' := fun hc => hplus ds (hc ▸ hd)
      unfold parseUnsigned
      split
      · rename_i h
        cases h
      · rename_i h
        exact absurd (List.cons.inj h).1 hc
      · rename_i h
        exact absurd (List.cons.inj h).1 hc
      · exact hparse
    · exact hparse

/-! ## Printing -/

theorem toDigits_isNumeral (n : Nat) : IsNumeral (Nat.toDigits 10 n) :=
  ⟨Nat.toDigits_ne_nil, fun _ hc => Nat.isDigit_of_mem_toDigits (by decide) (by decide) hc⟩

theorem value_toDigits (n : Nat) : value (Nat.toDigits 10 n) = n := Nat.ofDigitChars_ten_toDigits

/-- Only zero is printed with a zero first. -/
theorem toDigits_head_zero (h : (Nat.toDigits 10 n).head? = some '0') :
    Nat.toDigits 10 n = ['0'] := by
  induction n using Nat.base_induction 10 (by decide) with
  | single n hn =>
    rw [Nat.toDigits_of_lt_base hn] at h ⊢
    rw [Option.some.inj h]
  | digit m k hk hm ih =>
    rw [← Nat.toDigits_append_toDigits (by decide) hm hk, List.head?_append,
      List.head?_eq_some_head Nat.toDigits_ne_nil, Option.some_or,
      ← List.head?_eq_some_head Nat.toDigits_ne_nil] at h
    have hzero := congrArg value (ih h)
    rw [value_toDigits] at hzero
    exact absurd hzero (Nat.pos_iff_ne_zero.mp hm)

theorem toDigits_digit (hc : c.isDigit) : Nat.toDigits 10 (c.toNat - '0'.toNat) = [c] := by
  have hd := Char.isDigit_iff_toNat.mp hc
  rw [Nat.toDigits_of_lt_base (digit_lt_ten hc)]
  congr 1
  apply Char.toNat_inj.mp
  rw [Nat.toNat_digitChar_of_lt_ten (digit_lt_ten hc)]
  show 48 + (c.toNat - 48) = c.toNat
  have h48 : 48 ≤ c.toNat := hd.1
  omega

/-- **Digits without a leading zero are the printed ones.** -/
theorem toDigits_value (h : IsNumeral ds) (hzero : ds.head? = some '0' → ds = ['0']) :
    Nat.toDigits 10 (value ds) = ds := by
  induction ds using List.reverseRecOn with
  | nil => exact absurd rfl h.ne_nil
  | append_singleton ds c ih =>
    have hc : c.isDigit := h.digits c (by simp)
    have hvalue : value (ds ++ [c]) = 10 * value ds + (c.toNat - '0'.toNat) := by
      rw [value, Nat.ofDigitChars_append, Nat.ofDigitChars_cons, Nat.ofDigitChars_nil, value]
    by_cases hnil : ds = []
    · subst hnil
      rw [hvalue]
      simpa [value] using toDigits_digit hc
    · have hd : IsNumeral ds := ⟨hnil, fun d hd => h.digits d (List.mem_append_left _ hd)⟩
      have hhead : ds.head? ≠ some '0' := by
        intro hhead
        have hcat := hzero (by rw [List.head?_append, hhead, Option.some_or])
        obtain ⟨d, ds, rfl⟩ := List.exists_cons_of_ne_nil hnil
        simp at hcat
      have hds := ih hd fun h0 => absurd h0 hhead
      have hpos : 0 < value ds := by
        refine Nat.pos_of_ne_zero fun h0 => hhead ?_
        rw [h0] at hds
        rw [← hds]
        rfl
      rw [hvalue, ← Nat.toDigits_append_toDigits (by decide) hpos (digit_lt_ten hc), hds,
        toDigits_digit hc]

end RustText
