import Micronet.Numerals
import Micronet.Splitting
import Micronet.Addr

/-!
# Dotted quads

`FromStr` of `std::net::Ipv4Addr`.  It has no leading zeros and no signs, so what it accepts
are the printed addresses.
-/
namespace Micronet
open RustText

/-- An octet: decimal digits with no leading zero, below 256. -/
def parseOctet (t : List Char) : Option UInt8 :=
  if t = [] ∨ t.head? = some '0' ∧ t ≠ ['0'] then none
  else (parseDigits 256 t 0).map UInt8.ofNat

/-- `FromStr` of `Ipv4Addr`: four octets with dots between them. -/
def Ipv4Addr.parse (t : List Char) : Option Ipv4Addr :=
  match (t.splitOn '.').map parseOctet with
  | [some o0, some o1, some o2, some o3] => some ⟨o0, o1, o2, o3⟩
  | _ => none

section Octet
variable {t : List Char} {o : UInt8}

theorem parseOctet_eq_some : parseOctet t = some o ↔ t = Nat.toDigits 10 o.toNat := by
  unfold parseOctet
  constructor
  · intro h
    split at h
    · cases h
    · rename_i hshape
      rw [not_or, not_and, not_not] at hshape
      obtain ⟨n, hn, rfl⟩ := Option.map_eq_some_iff.mp h
      obtain ⟨hdigits, rfl, hlt⟩ := (parseDigits_eq_some (by decide)).mp hn
      rw [UInt8.toNat_ofNat_of_lt' hlt]
      exact (toDigits_value ⟨hshape.1, hdigits⟩ hshape.2).symm
  · rintro rfl
    have hnum := toDigits_isNumeral o.toNat
    rw [if_neg fun h => h.elim hnum.ne_nil fun h => h.2 (toDigits_head_zero h.1),
      Option.map_eq_some_iff]
    exact ⟨o.toNat, (parseDigits_eq_some (by decide)).mpr
      ⟨hnum.digits, (value_toDigits _).symm, o.toNat_lt⟩, UInt8.ofNat_toNat⟩

theorem map_parseOctet {ts : List (List Char)} {os : List UInt8} :
    ts.map parseOctet = os.map some ↔ ts = os.map fun o => Nat.toDigits 10 o.toNat := by
  induction ts generalizing os with
  | nil => cases os <;> simp
  | cons t ts ih =>
    cases os with
    | nil => simp
    | cons o os =>
      rw [List.map_cons, List.map_cons, List.map_cons, List.cons.injEq, List.cons.injEq, ih,
        parseOctet_eq_some]

end Octet

namespace Ipv4Addr
variable {t : List Char} {a b : Ipv4Addr}

def octets (a : Ipv4Addr) : List UInt8 := [a.o0, a.o1, a.o2, a.o3]

theorem toList_display (a : Ipv4Addr) :
    a.display.toList = ['.'].intercalate (a.octets.map fun o => Nat.toDigits 10 o.toNat) := by
  have ho : ∀ o : UInt8, (toString o).toList = Nat.toDigits 10 o.toNat := fun o => Nat.toList_repr
  have hdot : (toString ".").toList = ['.'] := by decide
  simp [display, octets, ho, hdot]

theorem display_chars {c : Char} (hc : c ∈ a.display.toList) : c.isDigit = true ∨ c = '.' := by
  rw [toList_display] at hc
  rcases mem_intercalate hc with hdot | ⟨l, hl, hc⟩
  · exact Or.inr hdot
  · obtain ⟨o, -, rfl⟩ := List.mem_map.mp hl
    exact Or.inl ((toDigits_isNumeral o.toNat).digits c hc)

theorem parse_eq_some_iff_octets :
    parse t = some a ↔ (t.splitOn '.').map parseOctet = a.octets.map some := by
  unfold parse
  constructor
  · intro h
    split at h
    · rename_i heq
      rw [heq, ← Option.some.inj h]
      rfl
    · cases h
  · intro h
    rw [h]
    rfl

/-- **The texts of the addresses** are what is accepted. -/
theorem parse_eq_some : parse t = some a ↔ t = a.display.toList := by
  rw [parse_eq_some_iff_octets, map_parseOctet, toList_display]
  refine splitOn_eq_iff (by simp [octets]) fun l hl hdot => ?_
  obtain ⟨o, -, rfl⟩ := List.mem_map.mp hl
  exact absurd ((toDigits_isNumeral o.toNat).digits '.' hdot) (by decide)

theorem display_inj : a.display = b.display ↔ a = b := by
  refine ⟨fun h => ?_, fun h => h ▸ rfl⟩
  have hparse := parse_eq_some.mpr (congrArg String.toList h)
  rw [parse_eq_some.mpr rfl] at hparse
  exact Option.some.inj hparse

end Ipv4Addr

/-! ## CIDR texts -/

namespace Ipv4Net

theorem toList_display (n : Ipv4Net) :
    n.display.toList = n.addr.display.toList ++ '/' :: Nat.toDigits 10 n.prefixLen := by
  have hshown : ∀ s : String, toString s = s := fun _ => rfl
  simp [display, hshown]

theorem display_chars {n : Ipv4Net} {c : Char} (h : c ∈ n.display.toList) :
    c.isDigit = true ∨ c = '.' ∨ c = '/' := by
  rw [toList_display, List.mem_append, List.mem_cons] at h
  rcases h with h | h | h
  · exact (Ipv4Addr.display_chars h).imp_right Or.inl
  · exact Or.inr (Or.inr h)
  · exact Or.inl ((toDigits_isNumeral n.prefixLen).digits c h)

/-- A dotted quad, a slash and the digits of a length up to 32.  Zeros may stand before them, and
no digit at all is 0; every text that is printed is read. -/
def ofDisplay (t : List Char) : Option Ipv4Net :=
  match t.splitOn '/' with
  | [a, p] =>
    match Ipv4Addr.parse a, parseDigits 33 p 0 with
    | some addr, some len => if h : len ≤ 32 then some ⟨addr, len, h⟩ else none
    | _, _ => none
  | _ => none

theorem splitOn_display (n : Ipv4Net) :
    n.display.toList.splitOn '/' = [n.addr.display.toList, Nat.toDigits 10 n.prefixLen] := by
  refine (splitOn_eq_iff (by simp) fun l hl => ?_).mpr (by rw [toList_display]; simp)
  simp only [List.mem_cons, List.not_mem_nil, or_false] at hl
  rcases hl with rfl | rfl
  · exact fun hmem => (Ipv4Addr.display_chars hmem).elim (by decide) (by decide)
  · exact fun hmem => absurd ((toDigits_isNumeral _).digits '/' hmem) (by decide)

theorem ofDisplay_display (n : Ipv4Net) : ofDisplay n.display.toList = some n := by
  have hlen : parseDigits 33 (Nat.toDigits 10 n.prefixLen) 0 = some n.prefixLen :=
    (parseDigits_eq_some (by decide)).mpr ⟨(toDigits_isNumeral _).digits,
      (value_toDigits _).symm, Nat.lt_succ_of_le n.prefixLen_le⟩
  rw [ofDisplay, splitOn_display]
  simp only [Ipv4Addr.parse_eq_some.mpr rfl, hlen]
  rw [dif_pos n.prefixLen_le]

def isDisplay (t : List Char) : Bool := (ofDisplay t).isSome

theorem isDisplay_display (n : Ipv4Net) : isDisplay n.display.toList = true := by
  rw [isDisplay, ofDisplay_display]
  rfl

theorem display_toList_inj {n m : Ipv4Net} : n.display.toList = m.display.toList ↔ n = m := by
  refine ⟨fun h => ?_, fun h => h ▸ rfl⟩
  have hread := ofDisplay_display n
  rw [h, ofDisplay_display] at hread
  exact (Option.some.inj hread).symm

end Ipv4Net
end Micronet
