import Micronet.Splitting

/-!
# Files of settings

A configuration file with one directive on each line: a comment, a flag, or a key with a
value after the first `=`.  Directives whose parts hold no line break, and whose keys no `=`,
are read back from the file's text as they were written.
-/
namespace Settings
open RustText

inductive Directive
  | comment (text : String)
  | flag (name : String)
  | setting (key value : String)
deriving DecidableEq, Repr

namespace Directive

def line : Directive → String
  | comment text => "#" ++ text
  | flag name => name
  | setting key value => key ++ "=" ++ value

/-- The directive of a line. -/
def ofLine (l : List Char) : Directive :=
  if l.head? = some '#' then comment (String.ofList l.tail)
  else
    match l.dropWhile (· ≠ '=') with
    | [] => flag (String.ofList l)
    | _ :: value => setting (String.ofList (l.takeWhile (· ≠ '='))) (String.ofList value)

/-- A name that starts no comment and ends at its `=`. -/
def IsKey (k : List Char) : Prop := k.head? ≠ some '#' ∧ '=' ∉ k ∧ '\n' ∉ k

instance (k : List Char) : Decidable (IsKey k) := inferInstanceAs (Decidable (_ ∧ _))

/-- Its line is no other directive's. -/
def Keyed : Directive → Prop
  | comment _ => True
  | flag name => IsKey name.toList
  | setting key _ => IsKey key.toList

/-- It is keyed and written on one line. -/
def WellFormed : Directive → Prop
  | comment text => '\n' ∉ text.toList
  | flag name => IsKey name.toList
  | setting key value => IsKey key.toList ∧ '\n' ∉ value.toList

variable {d : Directive} {k v : List Char}

theorem WellFormed.keyed (h : d.WellFormed) : d.Keyed := by
  cases d with
  | comment text => trivial
  | flag name => exact h
  | setting key value => exact h.1

theorem newline_not_mem (h : d.WellFormed) : '\n' ∉ d.line.toList := by
  cases d with
  | comment text =>
    rw [line, String.toList_append, List.mem_append]
    exact not_or.mpr ⟨by decide, h⟩
  | flag name => exact h.2.2
  | setting key value =>
    rw [line, String.toList_append, String.toList_append, List.mem_append, List.mem_append]
    exact not_or.mpr ⟨not_or.mpr ⟨h.1.2.2, by decide⟩, h.2⟩

/-- The key ends at the first `=`. -/
theorem ofLine_setting (h : IsKey k) :
    ofLine (k ++ '=' :: v) = setting (String.ofList k) (String.ofList v) := by
  have hk : ∀ c ∈ k, decide (c ≠ '=') = true := by
    intro c hc
    exact decide_eq_true fun he => h.2.1 (he ▸ hc)
  have hhead : (k ++ '=' :: v).head? ≠ some '#' := by
    cases k with
    | nil => simp
    | cons c k => exact h.1
  rw [ofLine, if_neg hhead, List.dropWhile_append_of_pos hk, List.takeWhile_append_of_pos hk]
  simp

theorem ofLine_flag (h : IsKey k) : ofLine k = flag (String.ofList k) := by
  have hdrop : k.dropWhile (· ≠ '=') = [] := by
    rw [List.dropWhile_eq_nil_iff]
    exact fun c hc => decide_eq_true fun he => h.2.1 (he ▸ hc)
  rw [ofLine, if_neg h.1, hdrop]

/-- **A directive is read back** from its line. -/
theorem ofLine_line (h : d.Keyed) : ofLine d.line.toList = d := by
  cases d with
  | comment text => simp [line, ofLine]
  | flag name =>
    rw [line, ofLine_flag h, String.ofList_toList]
  | setting key value =>
    rw [line, String.toList_append, String.toList_append, List.append_assoc]
    rw [show "=".toList ++ value.toList = '=' :: value.toList from rfl, ofLine_setting h,
      String.ofList_toList, String.ofList_toList]

end Directive

/-! ## Whole files -/

/-- Each line with its line break. -/
def unlines (ls : List String) : String := String.join (ls.map (· ++ "\n"))

/-- The lines of a text that ends with a line break. -/
def linesOf (text : String) : List (List Char) := (text.toList.splitOn '\n').dropLast

theorem linesOf_unlines {ls : List String} (h : ∀ l ∈ ls, '\n' ∉ l.toList) :
    linesOf (unlines ls) = ls.map String.toList := by
  have hsplit : (unlines ls).toList.splitOn '\n' = ls.map String.toList ++ [[]] := by
    induction ls with
    | nil => simp [unlines]
    | cons l ls ih =>
      have hl := h l List.mem_cons_self
      have hrest := ih fun m hm => h m (List.mem_cons_of_mem l hm)
      have hcons : (unlines (l :: ls)).toList = l.toList ++ '\n' :: (unlines ls).toList := by
        simp [unlines, String.toList_join]
      rw [hcons, List.splitOn_append_cons_self_of_not_mem hl, hrest]
      rfl
  rw [linesOf, hsplit, List.dropLast_concat]

/-- **A file of well-formed directives is read back** as them. -/
theorem map_ofLine_linesOf {ds : List Directive} (h : ∀ d ∈ ds, d.WellFormed) :
    (linesOf (unlines (ds.map Directive.line))).map Directive.ofLine = ds := by
  rw [linesOf_unlines, List.map_map, List.map_map]
  · have hlines := List.map_congr_left fun d hd => Directive.ofLine_line (h d hd).keyed
    exact hlines.trans (List.map_id ds)
  · intro l hl
    obtain ⟨d, hd, rfl⟩ := List.mem_map.mp hl
    exact Directive.newline_not_mem (h d hd)

end Settings
