import Mathlib.Algebra.Ring.Int.Defs
import Mathlib.Algebra.Ring.Nat
import Micronet.Weakest

/-!
# Instants

An instant of a monotonic clock is a signed 64-bit count of seconds and a count of
nanoseconds below one second.  Adding a duration is checked twice, on the seconds
and on the carry; a difference saturates at zero.

`ticks` counts the nanoseconds since the least instant of the type.  It takes the
instants to the natural numbers below `limit`, and there the order is that of the
numbers, a sum exists where it stays below `limit`, and a difference is the
truncated one.  `plus` is the addition of a program that works on the numbers.
-/
namespace Monotonic
open Interaction

/-- An instant. -/
structure Timespec where
  secs : Int
  nanos : Nat
  /-- The seconds are a `time_t`, and the nanoseconds less than one more. -/
  le_secs : -2 ^ 63 ≤ secs
  secs_lt : secs < 2 ^ 63
  nanos_lt : nanos < 10 ^ 9
deriving DecidableEq

/-- What `ticks` stays below. -/
def limit : Nat := 2 ^ 64 * 10 ^ 9

/-- The sum is an instant. -/
def Fits (t d : Nat) : Prop := t + d < limit

instance (t d : Nat) : Decidable (Fits t d) := inferInstanceAs (Decidable (_ < _))

theorem Fits.mono {t t' d : Nat} (h : Fits t d) (ht : t' ≤ t) : Fits t' d :=
  Nat.lt_of_le_of_lt (Nat.add_le_add_right ht d) h

namespace Timespec
variable (t u : Timespec) (d : Nat)

def ticks : Nat := (t.secs + 2 ^ 63).toNat * 10 ^ 9 + t.nanos

/-- Seconds first. -/
instance : LE Timespec := ⟨fun t u => t.secs < u.secs ∨ t.secs = u.secs ∧ t.nanos ≤ u.nanos⟩

instance : DecidableLE Timespec := fun t u =>
  inferInstanceAs (Decidable (t.secs < u.secs ∨ t.secs = u.secs ∧ t.nanos ≤ u.nanos))

/-- The sum with a duration of `d` nanoseconds. -/
def checkedAdd : Option Timespec :=
  -- `checked_add_unsigned` on the seconds
  if hs : t.secs + (d / 10 ^ 9 : Nat) < 2 ^ 63 then
    if hn : t.nanos + d % 10 ^ 9 < 10 ^ 9 then
      some ⟨t.secs + (d / 10 ^ 9 : Nat), t.nanos + d % 10 ^ 9, by have := t.le_secs; omega, hs, hn⟩
    -- `checked_add` of the carry
    else if hc : t.secs + (d / 10 ^ 9 : Nat) + 1 < 2 ^ 63 then
      some ⟨t.secs + (d / 10 ^ 9 : Nat) + 1, t.nanos + d % 10 ^ 9 - 10 ^ 9,
        by have := t.le_secs; omega, hc, by have := t.nanos_lt; omega⟩
    else none
  else none

/-- The nanoseconds from `u` to `t`; zero when `u` is later. -/
def saturatingDurationSince : Nat :=
  if u ≤ t then
    if u.nanos ≤ t.nanos then (t.secs - u.secs).toNat * 10 ^ 9 + (t.nanos - u.nanos)
    else (t.secs - 1 - u.secs).toNat * 10 ^ 9 + (t.nanos + 10 ^ 9 - u.nanos)
  else 0

theorem ticks_le_ticks : t.ticks ≤ u.ticks ↔ t ≤ u := by
  have := t.le_secs
  have := u.le_secs
  have := t.nanos_lt
  have := u.nanos_lt
  show _ ↔ t.secs < u.secs ∨ t.secs = u.secs ∧ t.nanos ≤ u.nanos
  unfold ticks
  omega

/-- **A sum exists where it stays below the limit.** -/
theorem map_ticks_checkedAdd :
    (t.checkedAdd d).map ticks = if Fits t.ticks d then some (t.ticks + d) else none := by
  have := t.le_secs
  have := t.nanos_lt
  have hfits : Fits t.ticks d ↔ t.ticks + d < 2 ^ 64 * 10 ^ 9 := Iff.rfl
  unfold checkedAdd
  by_cases hs : t.secs + (d / 10 ^ 9 : Nat) < 2 ^ 63
  · rw [dif_pos hs]
    by_cases hn : t.nanos + d % 10 ^ 9 < 10 ^ 9
    · rw [dif_pos hn, if_pos (hfits.mpr (by unfold ticks; omega))]
      simp only [ticks, Option.map_some]
      refine congrArg some ?_
      omega
    · rw [dif_neg hn]
      by_cases hc : t.secs + (d / 10 ^ 9 : Nat) + 1 < 2 ^ 63
      · rw [dif_pos hc, if_pos (hfits.mpr (by unfold ticks; omega))]
        simp only [ticks, Option.map_some]
        refine congrArg some ?_
        omega
      · rw [dif_neg hc, if_neg (mt hfits.mp (by unfold ticks; omega))]
        rfl
  · rw [dif_neg hs, if_neg (mt hfits.mp (by unfold ticks; omega))]
    rfl

theorem isSome_checkedAdd : (t.checkedAdd d).isSome ↔ Fits t.ticks d := by
  rw [← Option.isSome_map, map_ticks_checkedAdd]
  split <;> simp [*]

/-- A whole number of seconds carries no nanoseconds. -/
theorem fits_secs (n : Nat) : Fits t.ticks (n * 10 ^ 9) ↔ t.secs + n < 2 ^ 63 := by
  have := t.le_secs
  have := t.nanos_lt
  unfold Fits ticks limit
  omega

/-- **A difference is the truncated one.** -/
theorem saturatingDurationSince_eq : t.saturatingDurationSince u = t.ticks - u.ticks := by
  have := u.le_secs
  have := t.le_secs
  have := t.nanos_lt
  have := u.nanos_lt
  unfold saturatingDurationSince
  by_cases hle : u ≤ t
  · have hsecs : u.secs < t.secs ∨ u.secs = t.secs ∧ u.nanos ≤ t.nanos := hle
    rw [if_pos hle]
    unfold ticks
    by_cases hn : u.nanos ≤ t.nanos
    · rw [if_pos hn]
      omega
    · rw [if_neg hn]
      omega
  · rw [if_neg hle]
    rw [← ticks_le_ticks] at hle
    omega

end Timespec

/-! ## In programs -/

/-- How a program stops without a value. -/
inductive Halt
  /-- The panic of an addition without a sum. -/
  | overflow
  /-- Not of the program: a loop is followed for a number of rounds, which are over. -/
  | cut
deriving DecidableEq

variable {S : Signature} {σ : Type}

/-- The `+` of an instant and a duration, which panics where `checkedAdd` has no sum. -/
@[irreducible] def plus (t d : Nat) : ExceptT Halt (Prog S) Nat :=
  if Fits t d then return t + d else throw .overflow

theorem plus_ticks (t : Timespec) (d : Nat) :
    plus t.ticks d = (match t.checkedAdd d with
      | some u => return u.ticks
      | none => throw .overflow : ExceptT Halt (Prog S) Nat) := by
  have h := t.map_ticks_checkedAdd d
  unfold plus
  cases hadd : t.checkedAdd d with
  | some u =>
    rw [hadd] at h
    by_cases hlt : Fits t.ticks d
    · rw [if_pos hlt] at h ⊢
      rw [← Option.some.inj h]
    · rw [if_neg hlt] at h
      cases h
  | none =>
    rw [hadd] at h
    by_cases hlt : Fits t.ticks d
    · rw [if_pos hlt] at h
      cases h
    · rw [if_neg hlt]

@[simp] theorem wpE_plus {E : Env S σ} {t d : Nat} {Q : Nat → σ → Prop} {R : Halt → σ → Prop}
    {s : σ} : wpE E (plus t d) Q R s ↔
      (Fits t d → Q (t + d) s) ∧ (¬ Fits t d → R .overflow s) := by
  simp [plus]

theorem exec_plus {E : Env S σ} {t d : Nat} {s : σ} (h : Fits t d) :
    (plus t d).run.Exec E s (.ok (t + d)) s := by
  unfold plus
  rw [if_pos h]
  exact ⟨rfl, rfl⟩

theorem exec_plus_overflow {E : Env S σ} {t d : Nat} {s : σ} (h : ¬ Fits t d) :
    (plus t d).run.Exec E s (.error .overflow) s := by
  unfold plus
  rw [if_neg h]
  exact ⟨rfl, rfl⟩

end Monotonic
