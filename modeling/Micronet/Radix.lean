import Mathlib.Data.List.Forall2
import Mathlib.Data.Nat.Digits.Defs
import Micronet.Numerals

/-!
# Numbers in any base

`from_str_radix` reads the digits of either case, after at most one `+`.  What the kernel
prints in a base up to sixteen is read back.
-/
namespace RustText

/-- A digit of any base, in either case. -/
def digitValue (c : Char) : Option Nat :=
  if '0' ≤ c ∧ c ≤ '9' then some (c.toNat - '0'.toNat)
  else if 'a' ≤ c ∧ c ≤ 'z' then some (c.toNat - 'a'.toNat + 10)
  else if 'A' ≤ c ∧ c ≤ 'Z' then some (c.toNat - 'A'.toNat + 10)
  else none

/-- `char::to_digit`. -/
def toDigit (radix : Nat) (c : Char) : Option Nat := (digitValue c).filter (· < radix)

/-- The digits of a number below `bound`, after `acc`. -/
def parseRadixDigits (radix bound : Nat) : List Char → Nat → Option Nat
  | [], acc => some acc
  | c :: s, acc =>
    match toDigit radix c with
    | some d =>
      -- `checked_mul` and `checked_add`
      if acc * radix + d < bound then parseRadixDigits radix bound s (acc * radix + d) else none
    | none => none

/-- `from_str_radix` of an unsigned integer type with values below `bound`. -/
def fromStrRadix (radix bound : Nat) : List Char → Option Nat
  | [] => none
  | ['+'] => none
  | '+' :: s => parseRadixDigits radix bound s 0
  | s => parseRadixDigits radix bound s 0

/-- `trim_start_matches("0x")`: it is taken off as often as it stands there. -/
def trimStart0x : List Char → List Char
  | '0' :: 'x' :: s => trimStart0x s
  | s => s

/-- The number that a text stands for in the base, when it is digits. -/
def radixValue (radix : Nat) (s : List Char) : Option Nat :=
  (s.mapM (toDigit radix)).map fun ds => Nat.ofDigits radix ds.reverse

example : fromStrRadix 16 256 "+fF".toList = some 255 ∧
    fromStrRadix 16 256 "100".toList = none := by
  decide

section Parsing
variable {radix bound acc n d : Nat} {c : Char} {s t : List Char}

theorem toDigit_eq_some : toDigit radix c = some d ↔ digitValue c = some d ∧ d < radix := by
  simp [toDigit, Option.filter_eq_some_iff]

theorem toDigit_plus : toDigit radix '+' = none := rfl

/-- What is read of each element. -/
theorem mapM_eq_some {α β : Type} {f : α → Option β} {l : List α} {m : List β} :
    l.mapM f = some m ↔ List.Forall₂ (fun a b => f a = some b) l m := by
  induction l generalizing m with
  | nil =>
    rw [List.mapM_nil, List.forall₂_nil_left_iff]
    exact Option.some_inj.trans eq_comm
  | cons a l ih =>
    rw [List.mapM_cons, List.forall₂_cons_left_iff]
    simp only [Option.bind_eq_bind, Option.bind_eq_some_iff, Option.pure_def, Option.some_inj]
    constructor
    · rintro ⟨b, hb, bs, hbs, rfl⟩
      exact ⟨b, bs, hb, ih.mp hbs, rfl⟩
    · rintro ⟨b, bs, hb, hbs, rfl⟩
      exact ⟨b, hb, bs, ih.mpr hbs, rfl⟩

/-- The number, after `acc`. -/
theorem ofDigits_cons (ds : List Nat) :
    Nat.ofDigits radix ((d :: ds).reverse ++ [acc]) =
      Nat.ofDigits radix (ds.reverse ++ [acc * radix + d]) := by
  have hconcat : Nat.ofDigits radix [d, acc] = acc * radix + d := by
    rw [Nat.ofDigits_cons, Nat.ofDigits_singleton, Nat.add_comm, Nat.mul_comm]
  rw [List.reverse_cons, List.append_assoc, List.singleton_append, Nat.ofDigits_append, hconcat,
    Nat.ofDigits_append, Nat.ofDigits_singleton]

theorem le_ofDigits_concat (hradix : 0 < radix) (ds : List Nat) (acc : Nat) :
    acc ≤ Nat.ofDigits radix (ds ++ [acc]) := by
  rw [Nat.ofDigits_append, Nat.ofDigits_singleton]
  have hpow : 1 * acc ≤ radix ^ ds.length * acc :=
    Nat.mul_le_mul_right acc (Nat.pow_pos hradix)
  omega

/-- The bound is met at every digit exactly if it is met at the end. -/
theorem parseRadixDigits_eq_some (hradix : 0 < radix) (hacc : acc < bound) :
    parseRadixDigits radix bound s acc = some n ↔
      ∃ ds, s.mapM (toDigit radix) = some ds ∧ n = Nat.ofDigits radix (ds.reverse ++ [acc]) ∧
        n < bound := by
  induction s generalizing acc with
  | nil =>
    rw [parseRadixDigits, Option.some_inj]
    constructor
    · rintro rfl
      exact ⟨[], rfl, by simp, hacc⟩
    · rintro ⟨ds, hds, hn, -⟩
      obtain rfl : [] = ds := Option.some.inj hds
      simpa using hn.symm
  | cons c s ih =>
    rw [parseRadixDigits, List.mapM_cons]
    cases hd : toDigit radix c with
    | none => simp
    | some d =>
      simp only [Option.bind_eq_bind, Option.bind_some, Option.bind_eq_some_iff, Option.pure_def,
        Option.some_inj]
      by_cases hlt : acc * radix + d < bound
      · rw [if_pos hlt, ih hlt]
        constructor
        · rintro ⟨ds, hds, hn, hbound⟩
          exact ⟨d :: ds, ⟨ds, hds, rfl⟩, hn.trans (ofDigits_cons ds).symm, hbound⟩
        · rintro ⟨_, ⟨ds, hds, rfl⟩, hn, hbound⟩
          exact ⟨ds, hds, hn.trans (ofDigits_cons ds), hbound⟩
      · rw [if_neg hlt]
        refine iff_of_false (fun h => nomatch h) ?_
        rintro ⟨_, ⟨ds, -, rfl⟩, rfl, hbound⟩
        rw [ofDigits_cons] at hbound
        have hle := le_ofDigits_concat hradix ds.reverse (acc * radix + d)
        omega

theorem radixValue_eq_some : radixValue radix s = some n ↔
    ∃ ds, s.mapM (toDigit radix) = some ds ∧ n = Nat.ofDigits radix ds.reverse := by
  rw [radixValue, Option.map_eq_some_iff]
  exact exists_congr fun ds => and_congr_right fun _ => eq_comm

theorem digit_of_radixValue (h : radixValue radix s = some n) (hc : c ∈ s) :
    ∃ d, toDigit radix c = some d := by
  obtain ⟨ds, hds, -⟩ := radixValue_eq_some.mp h
  clear h
  induction s generalizing ds with
  | nil => cases hc
  | cons e s ih =>
    rw [List.mapM_cons] at hds
    simp only [Option.bind_eq_bind, Option.bind_eq_some_iff] at hds
    obtain ⟨d, hd, es, hes, -⟩ := hds
    rcases List.mem_cons.mp hc with rfl | hc
    · exact ⟨d, hd⟩
    · exact ih hc es hes

/-- **What is read**: digits, and a `+` that stands before them. -/
theorem fromStrRadix_eq_some (hradix : 0 < radix) (hbound : 0 < bound) :
    fromStrRadix radix bound s = some n ↔
      ∃ ds, ds ≠ [] ∧ (s = ds ∨ s = '+' :: ds) ∧ radixValue radix ds = some n ∧ n < bound := by
  have hdigits : ∀ ds, parseRadixDigits radix bound ds 0 = some n ↔
      radixValue radix ds = some n ∧ n < bound := by
    intro ds
    simp only [parseRadixDigits_eq_some hradix hbound, radixValue_eq_some, Nat.ofDigits_append,
      Nat.ofDigits_singleton, Nat.mul_zero, Nat.add_zero]
    constructor
    · rintro ⟨ns, hns, hn, hlt⟩
      exact ⟨⟨ns, hns, hn⟩, hlt⟩
    · rintro ⟨⟨ns, hns, hn⟩, hlt⟩
      exact ⟨ns, hns, hn, hlt⟩
  -- at most one sign: it is no digit
  have hplus : ∀ ds, radixValue radix ('+' :: ds) = none := by
    intro ds
    rw [radixValue, List.mapM_cons, toDigit_plus]
    rfl
  constructor
  · intro h
    unfold fromStrRadix at h
    split at h
    · cases h
    · cases h
    · rename_i ds hne
      exact ⟨ds, fun hnil => hne (by rw [hnil]), Or.inr rfl, (hdigits ds).mp h⟩
    · rename_i hne _ _
      exact ⟨s, hne, Or.inl rfl, (hdigits s).mp h⟩
  · rintro ⟨ds, hne, hs, hvalue, hlt⟩
    have hparse := (hdigits ds).mpr ⟨hvalue, hlt⟩
    obtain ⟨c, ds, rfl⟩ := List.exists_cons_of_ne_nil hne
    rcases hs with rfl | rfl
    · have hc : c ≠ '+' := by
        rintro rfl
        rw [hplus] at hvalue
        cases hvalue
      unfold fromStrRadix
      split
      · rename_i h
        cases h
      · rename_i h
        exact absurd (List.cons.inj h).1 hc
      · rename_i h
        exact absurd (List.cons.inj h).1 hc
      · exact hparse
    · exact hparse

end Parsing

/-! ## Printing -/

section Printing
variable {radix bound n d : Nat} {s : List Char}

theorem digitValue_digitChar (hd : d < 16) : digitValue (Nat.digitChar d) = some d := by
  have hall : ∀ e : Fin 16, digitValue (Nat.digitChar e) = some e.val := by decide
  exact hall ⟨d, hd⟩

theorem toDigit_digitChar (hradix : radix ≤ 16) (hd : d < radix) :
    toDigit radix (Nat.digitChar d) = some d :=
  toDigit_eq_some.mpr ⟨digitValue_digitChar (by omega), hd⟩

theorem mapM_toDigit_append {s t : List Char} {ds es : List Nat}
    (hs : s.mapM (toDigit radix) = some ds) (ht : t.mapM (toDigit radix) = some es) :
    (s ++ t).mapM (toDigit radix) = some (ds ++ es) := by
  rw [List.mapM_append, hs, ht]
  rfl

/-- **A printed number is read back.** -/
theorem radixValue_toDigits (hradix : 1 < radix) (h16 : radix ≤ 16) (n : Nat) :
    radixValue radix (Nat.toDigits radix n) = some n := by
  rw [radixValue_eq_some]
  induction n using Nat.base_induction radix hradix with
  | single n hn =>
    refine ⟨[n], ?_, by simp⟩
    rw [Nat.toDigits_of_lt_base hn, List.mapM_cons, toDigit_digitChar h16 hn]
    rfl
  | digit m k hk hm ih =>
    obtain ⟨ds, hds, hvalue⟩ := ih
    refine ⟨ds ++ [k], ?_, ?_⟩
    · rw [← Nat.toDigits_append_toDigits hradix hm hk, Nat.toDigits_of_lt_base hk]
      refine mapM_toDigit_append hds ?_
      rw [List.mapM_cons, toDigit_digitChar h16 hk]
      rfl
    · rw [List.reverse_append, List.reverse_singleton, List.singleton_append, Nat.ofDigits_cons,
        ← hvalue]
      simp [Nat.add_comm]

theorem fromStrRadix_toDigits (hradix : 1 < radix) (h16 : radix ≤ 16) (hn : n < bound) :
    fromStrRadix radix bound (Nat.toDigits radix n) = some n := by
  refine (fromStrRadix_eq_some (by omega) (by omega)).mpr
    ⟨_, Nat.toDigits_ne_nil, Or.inl rfl, ?_, hn⟩
  exact radixValue_toDigits hradix h16 n

theorem isWhitespace_of_digitValue {c : Char} (h : digitValue c = some d) :
    isWhitespace c = false := by
  have hrange : 48 ≤ c.toNat ∧ c.toNat ≤ 122 := by
    unfold digitValue at h
    split at h
    · rename_i hc
      exact ⟨hc.1, Nat.le_trans hc.2 (by decide)⟩
    · split at h
      · rename_i hc
        exact ⟨Nat.le_trans (by decide) hc.1, hc.2⟩
      · split at h
        · rename_i hc
          exact ⟨Nat.le_trans (by decide) hc.1, Nat.le_trans hc.2 (by decide)⟩
        · cases h
  simp only [isWhitespace, Bool.or_eq_false_iff, Bool.and_eq_false_iff, decide_eq_false_iff_not,
    beq_eq_false_iff_ne]
  omega

/-- A number has no blanks in it. -/
theorem isWhitespace_of_radixValue (h : radixValue radix s = some n) {c : Char} (hc : c ∈ s) :
    isWhitespace c = false := by
  obtain ⟨d, hd⟩ := digit_of_radixValue h hc
  exact isWhitespace_of_digitValue (toDigit_eq_some.mp hd).1

end Printing
end RustText
