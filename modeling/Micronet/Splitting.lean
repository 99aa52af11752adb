import Mathlib.Data.List.TakeWhile
import Micronet.Text

/-!
# Trimming and splitting

What is taken off the end of a text, when nothing is, and how the parts of a split text
are put together again.
-/
namespace RustText

/-! ## Trimming -/

section Trim
variable {p : Char → Bool} {c : Char} {s t : List Char}

theorem trimEndMatches_eq_self (h : ∀ c ∈ s.getLast?, p c = false) : trimEndMatches p s = s := by
  unfold trimEndMatches
  rw [List.getLast?_eq_head?_reverse] at h
  cases hr : s.reverse with
  | nil => exact (List.reverse_eq_nil_iff.mp hr).symm
  | cons c r =>
    rw [hr] at h
    have hc : p c = false := h c rfl
    rw [List.dropWhile_cons, hc, ← hr]
    simp

/-- What is taken off is all that one character. -/
theorem eq_trimEndMatches_append (c : Char) (s : List Char) :
    ∃ k, s = trimEndMatches (· == c) s ++ List.replicate k c := by
  refine ⟨(s.reverse.takeWhile (· == c)).length, ?_⟩
  have hall : s.reverse.takeWhile (· == c) =
      List.replicate (s.reverse.takeWhile (· == c)).length c :=
    List.eq_replicate_iff.mpr ⟨rfl, fun b hb => by
      simpa using List.mem_takeWhile_imp hb⟩
  rw [trimEndMatches, ← List.reverse_replicate, ← hall, ← List.reverse_append,
    List.takeWhile_append_dropWhile, List.reverse_reverse]

theorem trimEndMatches_append_replicate (k : Nat) (h : t.getLast? ≠ some c) :
    trimEndMatches (· == c) (t ++ List.replicate k c) = t := by
  have hself : trimEndMatches (· == c) t = t := trimEndMatches_eq_self fun d hd =>
    beq_eq_false_iff_ne.mpr fun hdc => h (hdc ▸ hd)
  rw [trimEndMatches, List.reverse_append, List.reverse_replicate,
    List.dropWhile_append_of_pos (by simp)]
  exact hself

theorem trim_eq_self (hhead : ∀ c ∈ s.head?, isWhitespace c = false)
    (hlast : ∀ c ∈ s.getLast?, isWhitespace c = false) : trim s = s := by
  have hdrop : s.dropWhile isWhitespace = s := by
    cases s with
    | nil => rfl
    | cons c s =>
      have hc := hhead c rfl
      rw [List.dropWhile_cons, hc]
      simp
  rw [trim, hdrop, trimEndMatches_eq_self hlast]

theorem trimEndMatches_concat (h : p c = true) :
    trimEndMatches p (s ++ [c]) = trimEndMatches p s := by
  rw [trimEndMatches, List.reverse_append, List.reverse_singleton, List.singleton_append,
    List.dropWhile_cons_of_pos h, trimEndMatches]

/-- A line without blanks, and its end. -/
theorem trim_line (h : ∀ c ∈ s, isWhitespace c = false) : trim (s ++ ['\n']) = s := by
  cases s with
  | nil => decide
  | cons c s =>
    have hdrop : (c :: s ++ ['\n']).dropWhile isWhitespace = c :: s ++ ['\n'] :=
      List.dropWhile_cons_of_neg (by simp [h c List.mem_cons_self])
    rw [trim, hdrop, trimEndMatches_concat (by decide)]
    exact trimEndMatches_eq_self fun d hd => h d (List.mem_of_mem_getLast? hd)

theorem stripSuffix_eq_some : stripSuffix c s = some t ↔ s = t ++ [c] := by
  unfold stripSuffix
  constructor
  · intro h
    split at h
    · rename_i hlast
      obtain ⟨m, rfl⟩ := List.getLast?_eq_some_iff.mp hlast
      rw [List.dropLast_concat, Option.some_inj] at h
      rw [h]
    · cases h
  · rintro rfl
    rw [if_pos List.getLast?_concat, List.dropLast_concat]

theorem stripSuffix_eq_none (h : s.getLast? ≠ some c) : stripSuffix c s = none := if_neg h

end Trim

/-! ## Splitting -/

section Split
variable {α β : Type} {x c : α} {ls : List (List α)} {l : List α}

theorem mem_intercalate (h : c ∈ [x].intercalate ls) : c = x ∨ ∃ l ∈ ls, c ∈ l := by
  induction ls with
  | nil => cases h
  | cons l ls ih =>
    by_cases hls : ls = []
    · subst hls
      rw [List.intercalate_singleton] at h
      exact Or.inr ⟨l, List.mem_cons_self, h⟩
    · rw [List.intercalate_cons_of_ne_nil hls] at h
      rcases List.mem_append.mp h with h | h
      · rcases List.mem_append.mp h with h | h
        · exact Or.inr ⟨l, List.mem_cons_self, h⟩
        · exact Or.inl (List.mem_singleton.mp h)
      · rcases ih h with h | ⟨m, hm, h⟩
        · exact Or.inl h
        · exact Or.inr ⟨m, List.mem_cons_of_mem l hm, h⟩

theorem map_intercalate (f : α → β) :
    ([x].intercalate ls).map f = [f x].intercalate (ls.map (List.map f)) := by
  induction ls with
  | nil => rfl
  | cons l ls ih =>
    by_cases hls : ls = []
    · subst hls
      simp
    · have hmap : ls.map (List.map f) ≠ [] := fun h => hls (List.map_eq_nil_iff.mp h)
      rw [List.intercalate_cons_of_ne_nil hls, List.map_cons, List.intercalate_cons_of_ne_nil hmap]
      simp [ih]

variable [BEq α] [LawfulBEq α]

/-- The parts of a split text are its parts between the separators. -/
theorem splitOn_eq_iff {s : List α} (hne : ls ≠ []) (hls : ∀ l ∈ ls, x ∉ l) :
    s.splitOn x = ls ↔ s = [x].intercalate ls := by
  constructor
  · rintro rfl
    exact (List.intercalate_splitOn x).symm
  · rintro rfl
    exact List.splitOn_intercalate x hls hne

end Split

/-! ## Words -/

section Words
variable {b c : Char} {k w s t : List Char}

/-- A word and its separator stand at the front when it is the first word. -/
theorem prefix_word (hk : b ∉ k) (hw : b ∉ w) :
    (k ++ b :: t) <+: (w ++ b :: s) ↔ k = w ∧ t <+: s := by
  induction k generalizing w with
  | nil =>
    cases w with
    | nil => simp
    | cons d w =>
      have hd : b ≠ d := fun hd => hw (hd ▸ List.mem_cons_self)
      simp [hd]
  | cons c k ih =>
    rw [List.mem_cons, not_or] at hk
    cases w with
    | nil =>
      have hc : c ≠ b := fun hc => hk.1 hc.symm
      simp [hc]
    | cons d w =>
      rw [List.mem_cons, not_or] at hw
      rw [List.cons_append, List.cons_append, List.cons_prefix_cons, ih hk.2 hw.2, List.cons.injEq,
        and_assoc]

theorem isPrefixOf_word (hk : b ∉ k) (hw : b ∉ w) :
    (k ++ [b]).isPrefixOf (w ++ b :: s) = true ↔ k = w := by
  rw [List.isPrefixOf_iff_prefix, prefix_word hk hw]
  exact and_iff_left List.nil_prefix

/-- **Words are searched one by one**: `k` with a separator after it is found at the end of
the first word that ends with it. -/
theorem splitOnce_word (hk : b ∉ k) (hw : b ∉ w) :
    splitOnce (k ++ [b]) (w ++ k ++ b :: s) = some (w, s) := by
  induction w with
  | nil =>
    have hhead := (isPrefixOf_word (s := s) hk hk).mpr rfl
    cases k with
    | nil => simp [splitOnce]
    | cons c k =>
      have hcons : (c :: k ++ [b]).isPrefixOf (c :: (k ++ b :: s)) = true := hhead
      show splitOnce (c :: k ++ [b]) (c :: (k ++ b :: s)) = _
      rw [splitOnce, if_pos hcons]
      simp
  | cons d w ih =>
    rw [List.mem_cons, not_or] at hw
    have hword : b ∉ d :: (w ++ k) := by
      simp [hw.1, hw.2, hk]
    have hhead : ¬ (k ++ [b]).isPrefixOf (d :: (w ++ k) ++ b :: s) = true := by
      rw [isPrefixOf_word hk hword]
      intro hkw
      have hlen := congrArg List.length hkw
      simp at hlen
      omega
    rw [List.cons_append, List.cons_append, splitOnce, ← List.cons_append, if_neg hhead,
      ih hw.2]
    rfl

/-- A word that does not end with it is passed over. -/
theorem splitOnce_word_of_not_suffix (hk : b ∉ k) (hw : b ∉ w) (h : ¬ k <:+ w) :
    splitOnce (k ++ [b]) (w ++ b :: s) =
      (splitOnce (k ++ [b]) s).map fun p => (w ++ b :: p.1, p.2) := by
  induction w with
  | nil =>
    have hhead : ¬ (k ++ [b]).isPrefixOf (b :: s) = true := fun hp =>
      h ((isPrefixOf_word hk hw).mp hp ▸ List.suffix_refl k)
    rw [List.nil_append, splitOnce, if_neg hhead]
    rfl
  | cons d w ih =>
    have hhead : ¬ (k ++ [b]).isPrefixOf (d :: w ++ b :: s) = true := fun hp =>
      h ((isPrefixOf_word hk hw).mp hp ▸ List.suffix_refl k)
    rw [List.mem_cons, not_or] at hw
    rw [List.cons_append, splitOnce, ← List.cons_append, if_neg hhead,
      ih hw.2 fun hs => h (hs.trans (List.suffix_cons d w)), Option.map_map]
    rfl

/-- The first word, when nothing is before it. -/
theorem firstWord_append (hne : w ≠ []) (hw : ∀ c ∈ w, isWhitespace c = false)
    (hb : isWhitespace b = true) : firstWord (w ++ b :: s) = some w := by
  obtain ⟨c, w, rfl⟩ := List.exists_cons_of_ne_nil hne
  have hc := hw c List.mem_cons_self
  have hdrop : (c :: w ++ b :: s).dropWhile isWhitespace = c :: (w ++ b :: s) := by
    rw [List.cons_append, List.dropWhile_cons, hc]
    rfl
  rw [firstWord, hdrop]
  show some (((c :: w) ++ b :: s).takeWhile fun c => !isWhitespace c) = _
  rw [List.takeWhile_append_of_pos fun d hd => by rw [hw d hd]; rfl, List.takeWhile_cons, hb]
  simp

end Words

/-! ## Lines -/

theorem lines_flatMap {ls : List (List Char)} (h : ∀ l ∈ ls, '\n' ∉ l ∧ l.getLast? ≠ some '\r') :
    lines (ls.flatMap fun l => l ++ ['\n']) = ls := by
  have hsplit : (ls.flatMap fun l => l ++ ['\n']).splitOn '\n' = ls ++ [[]] := by
    induction ls with
    | nil => simp
    | cons l ls ih =>
      have hl := (h l List.mem_cons_self).1
      rw [List.flatMap_cons, List.append_assoc, List.singleton_append,
        List.splitOn_append_cons_self_of_not_mem hl, ih fun m hm => h m (List.mem_cons_of_mem l hm)]
      rfl
  have hstrip : ls.map (fun l => (stripSuffix '\r' l).getD l) = ls :=
    (List.map_congr_left fun l hl => by rw [stripSuffix_eq_none (h l hl).2]; rfl).trans
      (List.map_id ls)
  rw [lines, hsplit, List.dropLast_concat, hstrip, List.getLast?_concat]
  simp
end RustText
