import Micronet.Numerals
import Micronet.Splitting
import Micronet.DhcpConf

/-!
# Lease durations

`dhcp.sticky` is handed to dnsmasq as it is written, so the text has to be a duration that
dnsmasq reads: a number and at most one unit.  `parseSticky` reads the number as Rust reads
an unsigned integer, and lets a `+` before it through.
-/
namespace Micronet
open RustText

/-- The unit letters and their seconds; without one the number is of seconds. -/
def units : List (List Char × Nat) :=
  [([], 1), (['s'], 1), (['m'], 60), (['h'], 3600), (['d'], 86400), (['w'], 604800)]

/-- `t` is a number of units, `v` seconds and at least one, that fits in 64 bits. -/
def IsDuration (t : List Char) (v : Nat) : Prop :=
  ∃ ds u mul, t = ds ++ u ∧ (u, mul) ∈ units ∧ IsNumeral ds ∧ 1 ≤ value ds ∧
    value ds * mul < 2 ^ 64 ∧ v = value ds * mul

section Units
variable {s num u : List Char} {mul : Nat}

theorem splitUnit_mem (h : splitUnit s = (num, mul)) : ∃ u, (u, mul) ∈ units ∧ s = num ++ u := by
  unfold splitUnit at h
  split at h <;> obtain ⟨rfl, rfl⟩ := Prod.mk.inj h
  case h_6 => exact ⟨[], by simp [units], (List.append_nil _).symm⟩
  all_goals
    rename_i hs
    exact ⟨_, by rw [units]; decide, stripSuffix_eq_some.mp hs⟩

theorem units_pos (hu : (u, mul) ∈ units) : 1 ≤ mul := by
  have hall : ∀ p ∈ units, 1 ≤ p.2 := by decide
  exact hall _ hu

/-- No unit letter is a digit. -/
theorem splitUnit_append (hu : (u, mul) ∈ units) (hlast : ∀ c ∈ num.getLast?, c.isDigit) :
    splitUnit (num ++ u) = (num, mul) := by
  have hletter : ∀ c, c.isDigit = false → num.getLast? ≠ some c := by
    intro c hc hlc
    rw [hlast c hlc] at hc
    cases hc
  simp only [units, List.mem_cons, Prod.mk.injEq, List.not_mem_nil, or_false] at hu
  rcases hu with ⟨rfl, rfl⟩ | ⟨rfl, rfl⟩ | ⟨rfl, rfl⟩ | ⟨rfl, rfl⟩ | ⟨rfl, rfl⟩ | ⟨rfl, rfl⟩
  · simp [splitUnit, stripSuffix, hletter]
  all_goals simp [splitUnit, stripSuffix]

end Units

/-! ## What the code accepts -/

section Parse
variable {s : String} {v : Nat}

/-- **A text is accepted** when it is a duration, or one after a `+`. -/
theorem parseSticky_eq_ok :
    parseSticky s = .ok v ↔
      IsDuration (trim s.toList) v ∨ ∃ t, trim s.toList = '+' :: t ∧ IsDuration t v := by
  -- the checks that follow the choice of the unit
  have hread : ∀ {num mul}, splitUnit (trim s.toList) = (num, mul) → trim s.toList ≠ [] →
      (parseSticky s = .ok v ↔
        ∃ n, parseUnsigned (2 ^ 64) num = some n ∧ 1 ≤ n ∧ n * mul < 2 ^ 64 ∧ v = n * mul) := by
    intro num mul hsplit hne
    simp only [parseSticky, Config.reject_bind_iff, hsplit]
    cases parseUnsigned (2 ^ 64) num with
    | none => simp [hne, throw, throwThe, MonadExceptOf.throw]
    | some n =>
      simp only [Config.reject_bind_iff, Option.some_inj, exists_eq_left', Nat.not_le,
        Nat.one_le_iff_ne_zero, ne_eq, hne, not_false_eq_true, true_and]
      constructor
      · rintro ⟨hn, hlt, hv⟩
        exact ⟨hn, hlt, (Except.ok.inj hv).symm⟩
      · rintro ⟨hn, hlt, rfl⟩
        exact ⟨hn, hlt, rfl⟩
  constructor
  · intro h
    have hne : trim s.toList ≠ [] := by
      rw [parseSticky, Config.reject_bind_iff] at h
      exact h.1
    obtain ⟨u, hu, htrim⟩ := splitUnit_mem (s := trim s.toList) (by rfl)
    obtain ⟨n, hn, hone, hlt, hv⟩ := (hread rfl hne).mp h
    obtain ⟨ds, hds, hnum, rfl, -⟩ := (parseUnsigned_eq_some (by decide)).mp hn
    have hdur : IsDuration (ds ++ u) v := ⟨ds, u, _, rfl, hu, hds, hone, hlt, hv⟩
    rcases hnum with hnum | hnum
    · rw [hnum] at htrim
      exact Or.inl (htrim ▸ hdur)
    · rw [hnum] at htrim
      exact Or.inr ⟨_, htrim, hdur⟩
  · intro h
    -- the two forms differ in the sign alone
    have hnum : ∃ num ds u mul, trim s.toList = num ++ u ∧ (num = ds ∨ num = '+' :: ds) ∧
        (u, mul) ∈ units ∧ IsNumeral ds ∧ 1 ≤ value ds ∧ value ds * mul < 2 ^ 64 ∧
        v = value ds * mul := by
      rcases h with ⟨ds, u, mul, ht, h⟩ | ⟨_, ht, ds, u, mul, rfl, h⟩
      · exact ⟨ds, ds, u, mul, ht, Or.inl rfl, h⟩
      · exact ⟨'+' :: ds, ds, u, mul, ht, Or.inr rfl, h⟩
    obtain ⟨num, ds, u, mul, htrim, hsign, hu, hds, hone, hlt, hv⟩ := hnum
    have hmul : 1 ≤ mul := units_pos hu
    have hfits : value ds < 2 ^ 64 := Nat.lt_of_le_of_lt (Nat.le_mul_of_pos_right _ hmul) hlt
    have hlast : ∀ c ∈ num.getLast?, c.isDigit := by
      intro c hc
      rcases hsign with rfl | rfl
      · exact hds.digits c (List.mem_of_mem_getLast? hc)
      · obtain ⟨d, ds, rfl⟩ := List.exists_cons_of_ne_nil hds.ne_nil
        rw [List.getLast?_cons_cons] at hc
        exact hds.digits c (List.mem_of_mem_getLast? hc)
    have hne : trim s.toList ≠ [] := by
      rw [htrim]
      rcases hsign with rfl | rfl <;> simp [hds.ne_nil]
    rw [hread (htrim ▸ splitUnit_append hu hlast) hne]
    exact ⟨value ds, (parseUnsigned_eq_some (by decide)).mpr ⟨ds, hds, hsign, rfl, hfits⟩,
      hone, hlt, hv⟩

/-- A duration after a `+`. -/
def Signed (s : String) : Prop := ∃ t v, trim s.toList = '+' :: t ∧ IsDuration t v

/-- The durations are accepted, each for its seconds, and in a valid configuration it is a
duration that dnsmasq is told. -/
def ReadsDurations (s : String) : Prop :=
  (∀ v, parseSticky s = .ok v ↔ IsDuration (trim s.toList) v) ∧
  ∀ (cfg : Config) (iface leasefile pidfile : String), cfg.Valid → cfg.dhcp.sticky = s →
    ∃ t v, IsDuration t v ∧
      s!"dhcp-range={cfg.rangeStartAddr.display},{cfg.rangeEndAddr.display},{
        cfg.gateway.subnet.netmask.display},{String.ofList t}" ∈
          confLines cfg iface leasefile pidfile

theorem not_isDuration_plus {t : List Char} : ¬ IsDuration ('+' :: t) v := by
  rintro ⟨ds, u, mul, ht, -, hds, -⟩
  obtain ⟨d, ds, rfl⟩ := List.exists_cons_of_ne_nil hds.ne_nil
  obtain rfl : '+' = d := (List.cons.inj ht).1
  exact absurd (hds.digits '+' List.mem_cons_self) (by decide)

theorem ReadsDurations.not_signed (h : ReadsDurations s) : ¬ Signed s := by
  rintro ⟨t, v, ht, hdur⟩
  have hread := (h.1 v).mp (parseSticky_eq_ok.mpr (Or.inr ⟨t, ht, hdur⟩))
  rw [ht] at hread
  exact not_isDuration_plus hread

/-- **The code reads the durations** on every text but those after a `+`, which are accepted, and
written to the file with the sign. -/
theorem readsDurations_iff (s : String) : ReadsDurations s ↔ ¬ Signed s := by
  refine ⟨ReadsDurations.not_signed, fun hsigned => ?_⟩
  have hread : ∀ v, parseSticky s = .ok v ↔ IsDuration (trim s.toList) v := by
    intro v
    rw [parseSticky_eq_ok]
    exact or_iff_left fun ⟨t, ht⟩ => hsigned ⟨t, v, ht⟩
  refine ⟨hread, ?_⟩
  rintro cfg iface leasefile pidfile hvalid rfl
  obtain ⟨v, hv⟩ := hvalid.sticky
  exact ⟨_, v, (hread v).mp hv, by simp [confLines]⟩

/-- `+7d` is accepted as seven days, and is what dnsmasq is told. -/
theorem signed_accepted :
    parseSticky "+7d" = .ok 604800 ∧ Config.Valid { dhcp := { sticky := "+7d" } } ∧
      "dhcp-range=192.168.0.50,192.168.0.200,255.255.255.0,+7d" ∈
        confLines { dhcp := { sticky := "+7d" } } "eth0" "leases" "pid" ∧
      ¬ ReadsDurations "+7d" := by
  have hdur : IsDuration ['7', 'd'] 604800 :=
    ⟨['7'], ['d'], 86400, rfl, by decide, ⟨by decide, by simp⟩, by decide, by decide, by decide⟩
  have htrim : trim "+7d".toList = ['+', '7', 'd'] := by decide
  exact ⟨by decide, by decide, by decide +kernel, fun h => h.not_signed ⟨_, _, htrim, hdur⟩⟩

end Parse
end Micronet
