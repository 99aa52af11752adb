import Micronet.Config
import Micronet.Splitting

/-!
# The names that DNS records may have

`IsName` is the grammar of a host name, and `normalizeDnsName_eq_ok` says what the code
makes of a text: it takes off white space, then every dot at the end, and a name is left,
which it puts in lower case.  The grammar has one root dot at most; `ExtraDots` are the
texts where the two differ.
-/
namespace Micronet
open RustText

/-! ## The grammar -/

/-- ASCII letters, digits and the hyphen. -/
def isLabelChar (c : Char) : Bool := isAsciiAlphanumeric c || c == '-'

/-- 1 to 63 letters, digits or hyphens, and no hyphen at an end. -/
structure IsLabel (l : List Char) : Prop where
  ne_nil : l ≠ []
  length_le : l.length ≤ 63
  chars : ∀ c ∈ l, isLabelChar c
  head_ne : l.head? ≠ some '-'
  last_ne : l.getLast? ≠ some '-'

/-- Labels with dots between them, 253 bytes at most. -/
structure IsName (n : List Char) : Prop where
  /-- The dots stand between labels, so none is first, last or beside another. -/
  labels : ∃ ls, ls ≠ [] ∧ (∀ l ∈ ls, IsLabel l) ∧ n = ['.'].intercalate ls
  /-- The length is that of the UTF-8 text, without a trailing dot. -/
  byteLen_le : byteLen n ≤ 253

def lower (n : List Char) : List Char := n.map toAsciiLowercase

/-- The text is `n` with `k` dots after it, and white space around. -/
def Writes (s : String) (n : List Char) (k : Nat) : Prop :=
  trim s.toList = n ++ List.replicate k '.'

/-! ## Characters -/

section Chars
variable {c : Char} {l : List Char}

theorem isLabelChar_lt (h : isLabelChar c) : c.toNat < 128 := by
  have hz : ∀ {d : Char}, c ≤ d → d.toNat < 128 → c.toNat < 128 := fun hc hd =>
    Nat.lt_of_le_of_lt hc hd
  simp only [isLabelChar, isAsciiAlphanumeric, Bool.or_eq_true, Bool.and_eq_true,
    decide_eq_true_eq, beq_iff_eq] at h
  rcases h with ((h | h) | h) | rfl
  · exact hz h.2 (by decide)
  · exact hz h.2 (by decide)
  · exact hz h.2 (by decide)
  · decide

/-- What the ASCII characters of a label satisfy, all of them do. -/
theorem forall_labelChar {P : Char → Prop}
    (h : ∀ n < 128, isLabelChar (Char.ofNat n) → P (Char.ofNat n)) (hc : isLabelChar c) : P c := by
  have hP := h c.toNat (isLabelChar_lt hc)
  rw [Char.ofNat_toNat] at hP
  exact hP hc

theorem labelChar_plain (h : isLabelChar c) :
    c ≠ '.' ∧ c ≠ ' ' ∧ c ≠ ',' ∧ c ≠ '\x00' ∧ isWhitespace c = false ∧ c.utf8Size = 1 :=
  forall_labelChar (P := fun c => c ≠ '.' ∧ c ≠ ' ' ∧ c ≠ ',' ∧ c ≠ '\x00' ∧
    isWhitespace c = false ∧ c.utf8Size = 1) (by decide) h

/-- In lower case it is a lower-case letter, a digit or the hyphen, and stays so. -/
theorem labelChar_lower (h : isLabelChar c) :
    isLabelChar (toAsciiLowercase c) ∧ toAsciiLowercase (toAsciiLowercase c) = toAsciiLowercase c ∧
      (toAsciiLowercase c = '-' ↔ c = '-') :=
  forall_labelChar (P := fun c => isLabelChar (toAsciiLowercase c) ∧
    toAsciiLowercase (toAsciiLowercase c) = toAsciiLowercase c ∧
    (toAsciiLowercase c = '-' ↔ c = '-')) (by decide) h

theorem byteLen_of_ascii (h : ∀ c ∈ l, isLabelChar c) : byteLen l = l.length := by
  induction l with
  | nil => rfl
  | cons c l ih =>
    have hc := labelChar_plain (h c List.mem_cons_self)
    have ih := ih fun d hd => h d (List.mem_cons_of_mem c hd)
    rw [byteLen] at ih
    rw [byteLen, List.map_cons, List.sum_cons, ih, hc.2.2.2.2.2, List.length_cons]
    omega

end Chars

/-! ## Labels -/

section Label
variable {l r trimmed : List Char}

/-- **A label is accepted** exactly when it is one. -/
theorem normalizeLabel_eq_ok : normalizeLabel trimmed l = .ok r ↔ IsLabel l ∧ r = lower l := by
  simp only [normalizeLabel, Config.reject_bind_iff]
  constructor
  · rintro ⟨hlen, hends, hchars, hr⟩
    rw [not_or] at hlen hends
    have hchars : ∀ c ∈ l, isLabelChar c := List.all_eq_true.mp (not_not.mp hchars)
    refine ⟨⟨hlen.1, ?_, hchars, hends.1, hends.2⟩, (Except.ok.inj hr).symm⟩
    rw [← byteLen_of_ascii hchars]
    exact Nat.le_of_not_lt hlen.2
  · rintro ⟨hl, rfl⟩
    refine ⟨?_, ?_, not_not.mpr (List.all_eq_true.mpr hl.chars), rfl⟩
    · rw [byteLen_of_ascii hl.chars, not_or]
      exact ⟨hl.ne_nil, Nat.not_lt.mpr hl.length_le⟩
    · exact not_or.mpr ⟨hl.head_ne, hl.last_ne⟩

theorem IsLabel.lower (h : IsLabel l) : IsLabel (lower l) := by
  have hyphen : ∀ c ∈ l, toAsciiLowercase c = '-' → c = '-' := fun c hc =>
    (labelChar_lower (h.chars c hc)).2.2.mp
  refine ⟨?_, ?_, ?_, ?_, ?_⟩
  · exact fun hnil => h.ne_nil (List.map_eq_nil_iff.mp hnil)
  · rw [Micronet.lower, List.length_map]
    exact h.length_le
  · intro c hc
    obtain ⟨d, hd, rfl⟩ := List.mem_map.mp hc
    exact (labelChar_lower (h.chars d hd)).1
  · rw [Micronet.lower, List.head?_map, ne_eq, Option.map_eq_some_iff]
    rintro ⟨c, hc, hlow⟩
    exact h.head_ne (hyphen c (List.mem_of_mem_head? hc) hlow ▸ hc)
  · rw [Micronet.lower, List.getLast?_map, ne_eq, Option.map_eq_some_iff]
    rintro ⟨c, hc, hlow⟩
    exact h.last_ne (hyphen c (List.mem_of_mem_getLast? hc) hlow ▸ hc)

theorem IsLabel.dot_not_mem (h : IsLabel l) : '.' ∉ l :=
  fun hd => (labelChar_plain (h.chars '.' hd)).1 rfl

end Label

/-! ## Names -/

section Name
variable {n t : List Char} {c : Char} {r : String}

/-- The labels of a name are the parts between its dots. -/
theorem isName_iff : IsName n ↔ (∀ l ∈ n.splitOn '.', IsLabel l) ∧ byteLen n ≤ 253 := by
  constructor
  · rintro ⟨⟨ls, hne, hls, rfl⟩, hlen⟩
    refine ⟨?_, hlen⟩
    rw [List.splitOn_intercalate '.' (fun l hl => (hls l hl).dot_not_mem) hne]
    exact hls
  · rintro ⟨hls, hlen⟩
    exact ⟨⟨_, List.splitOn_ne_nil '.' n, hls, (List.intercalate_splitOn '.').symm⟩, hlen⟩

theorem IsName.chars (h : IsName n) (hc : c ∈ n) : c = '.' ∨ isLabelChar c := by
  obtain ⟨ls, -, hls, rfl⟩ := h.labels
  rcases mem_intercalate hc with hc | ⟨l, hl, hc⟩
  · exact Or.inl hc
  · exact Or.inr ((hls l hl).chars c hc)

theorem IsName.ne_nil (h : IsName n) : n ≠ [] := by
  rintro rfl
  exact ((isName_iff.mp h).1 [] (by simp)).ne_nil rfl

/-- No label is empty, so no dot is at the end. -/
theorem IsName.getLast?_ne (h : IsName n) : n.getLast? ≠ some '.' := by
  intro hlast
  obtain ⟨m, rfl⟩ := List.getLast?_eq_some_iff.mp hlast
  have hnil : [] ∈ (m ++ ['.']).splitOn '.' := by
    rw [List.splitOn_append_cons_self]
    exact List.mem_append_right _ (by simp)
  exact ((isName_iff.mp h).1 [] hnil).ne_nil rfl

theorem IsName.not_whitespace (h : IsName n) (hc : c ∈ n) : isWhitespace c = false := by
  rcases h.chars hc with rfl | hc
  · decide
  · exact (labelChar_plain hc).2.2.2.2.1

theorem IsName.lower (h : IsName n) : IsName (lower n) := by
  obtain ⟨ls, hne, hls, rfl⟩ := h.labels
  have hchars : ∀ c ∈ ['.'].intercalate ls, (toAsciiLowercase c).utf8Size = c.utf8Size := by
    intro c hc
    rcases h.chars hc with rfl | hc
    · rfl
    · rw [(labelChar_plain hc).2.2.2.2.2, (labelChar_plain (labelChar_lower hc).1).2.2.2.2.2]
  refine ⟨⟨ls.map Micronet.lower, ?_, ?_, map_intercalate toAsciiLowercase⟩, ?_⟩
  · exact fun hnil => hne (List.map_eq_nil_iff.mp hnil)
  · intro l hl
    obtain ⟨m, hm, rfl⟩ := List.mem_map.mp hl
    exact (hls m hm).lower
  · have hlen := h.byteLen_le
    rw [byteLen] at hlen ⊢
    rwa [Micronet.lower, List.map_map, List.map_congr_left (f := _ ∘ _) hchars]

theorem IsName.lower_lower (h : IsName n) :
    Micronet.lower (Micronet.lower n) = Micronet.lower n := by
  rw [Micronet.lower, Micronet.lower, List.map_map]
  refine List.map_congr_left fun c hc => ?_
  rcases h.chars hc with rfl | hc
  · rfl
  · exact (labelChar_lower hc).2.1

end Name

/-! ## What the code accepts -/

section Normalize
variable {s r : String} {n : List Char}

theorem mapM_eq_ok {α β : Type} {f : α → Except Error β} {P : α → Prop} {g : α → β}
    (hf : ∀ a b, f a = .ok b ↔ P a ∧ b = g a) {l : List α} {bs : List β} :
    l.mapM f = .ok bs ↔ (∀ a ∈ l, P a) ∧ bs = l.map g := by
  induction l generalizing bs with
  | nil => simp [Pure.pure, Except.pure, eq_comm]
  | cons a l ih =>
    rw [List.mapM_cons, Config.bind_ok_iff]
    constructor
    · rintro ⟨b, hb, hrest⟩
      obtain ⟨cs, hcs, hr⟩ := Config.bind_ok_iff.mp hrest
      obtain ⟨ha, rfl⟩ := (hf a b).mp hb
      obtain ⟨hl, rfl⟩ := ih.mp hcs
      obtain rfl := Except.ok.inj hr
      exact ⟨List.forall_mem_cons.mpr ⟨ha, hl⟩, rfl⟩
    · rintro ⟨hl, rfl⟩
      obtain ⟨ha, hl⟩ := List.forall_mem_cons.mp hl
      exact ⟨g a, (hf a _).mpr ⟨ha, rfl⟩, Config.bind_ok_iff.mpr ⟨_, ih.mpr ⟨hl, rfl⟩, rfl⟩⟩

/-- **A text is accepted** when a name is left of it without white space and final dots. -/
theorem normalizeDnsName_eq_ok :
    normalizeDnsName s = .ok r ↔
      ∃ n k, IsName n ∧ Writes s n k ∧ r = String.ofList (lower n) := by
  -- what is left of the text is normalized label by label
  have hname : ∀ t : List Char, (∃ out, (t.splitOn '.').mapM (normalizeLabel t) = .ok out ∧
      String.ofList (['.'].intercalate out) = r) ↔
      (∀ l ∈ t.splitOn '.', IsLabel l) ∧ r = String.ofList (lower t) := by
    intro t
    have hlower : ['.'].intercalate ((t.splitOn '.').map lower) = lower t := by
      have hmap : (['.'].intercalate (t.splitOn '.')).map toAsciiLowercase =
          ['.'].intercalate ((t.splitOn '.').map lower) := map_intercalate toAsciiLowercase
      rw [List.intercalate_splitOn] at hmap
      exact hmap.symm
    constructor
    · rintro ⟨out, hout, rfl⟩
      obtain ⟨hls, rfl⟩ := (mapM_eq_ok fun _ _ => normalizeLabel_eq_ok).mp hout
      exact ⟨hls, congrArg String.ofList hlower⟩
    · rintro ⟨hls, rfl⟩
      exact ⟨_, (mapM_eq_ok fun _ _ => normalizeLabel_eq_ok).mpr ⟨hls, rfl⟩,
        congrArg String.ofList hlower⟩
  obtain ⟨k, hk⟩ := eq_trimEndMatches_append '.' (trim s.toList)
  simp only [normalizeDnsName, Config.reject_bind_iff]
  constructor
  · rintro ⟨-, hlen, -, hrest⟩
    obtain ⟨out, hout, hr⟩ := Config.bind_ok_iff.mp hrest
    obtain ⟨hls, rfl⟩ := (hname _).mp ⟨out, hout, Except.ok.inj hr⟩
    exact ⟨_, k, isName_iff.mpr ⟨hls, Nat.le_of_not_lt hlen⟩, hk, rfl⟩
  · rintro ⟨n, k, hn, hw, rfl⟩
    have ht : trimEndMatches (· == '.') (trim s.toList) = n := by
      rw [hw]
      exact trimEndMatches_append_replicate k hn.getLast?_ne
    rw [ht]
    -- the explicit rejections of the code are of no character of a label
    have hclean : ∀ c ∈ n, c ≠ '\x00' ∧ c ≠ ' ' ∧ c ≠ ',' := by
      intro c hc
      rcases hn.chars hc with rfl | hc
      · decide
      · have hplain := labelChar_plain hc
        exact ⟨hplain.2.2.2.1, hplain.2.1, hplain.2.2.1⟩
    refine ⟨hn.ne_nil, Nat.not_lt.mpr hn.byteLen_le, ?_, ?_⟩
    · rintro (h | h | h)
      · exact (hclean _ h).1 rfl
      · exact (hclean _ h).2.1 rfl
      · exact (hclean _ h).2.2 rfl
    · obtain ⟨out, hout, hr⟩ := (hname n).mpr ⟨(isName_iff.mp hn).1, rfl⟩
      exact Config.bind_ok_iff.mpr ⟨out, hout, congrArg Except.ok hr⟩

/-- A host name with more dots after it than the root dot. -/
def ExtraDots (s : String) : Prop := ∃ n k, 2 ≤ k ∧ IsName n ∧ Writes s n k

/-- What is accepted is a host name with a root dot at most, the result is the name in
lower case, and it is its own result. -/
def AcceptsHostNames (s : String) : Prop :=
  (∀ r, normalizeDnsName s = .ok r ↔
    ∃ n k, k ≤ 1 ∧ IsName n ∧ Writes s n k ∧ r = String.ofList (lower n)) ∧
  ∀ r, normalizeDnsName s = .ok r → normalizeDnsName r = .ok r

theorem writes_name (h : IsName n) : Writes (String.ofList n) n 0 := by
  rw [Writes, String.toList_ofList, List.replicate_zero, List.append_nil]
  refine trim_eq_self (fun c hc => ?_) fun c hc => ?_
  · exact h.not_whitespace (List.mem_of_mem_head? hc)
  · exact h.not_whitespace (List.mem_of_mem_getLast? hc)

/-- A result is a name in lower case, so nothing more is to be done to it. -/
theorem normalizeDnsName_idempotent (h : normalizeDnsName s = .ok r) :
    normalizeDnsName r = .ok r := by
  obtain ⟨n, k, hn, -, rfl⟩ := normalizeDnsName_eq_ok.mp h
  exact normalizeDnsName_eq_ok.mpr
    ⟨lower n, 0, hn.lower, writes_name hn.lower, by rw [hn.lower_lower]⟩

/-- The dots at the end are counted by the text. -/
theorem Writes.unique {m : List Char} {j k : Nat} (hn : IsName n) (hm : IsName m)
    (h : Writes s n k) (h' : Writes s m j) : n = m ∧ k = j := by
  have htrim := h.symm.trans h'
  have hnm : n = m := by
    rw [← trimEndMatches_append_replicate k hn.getLast?_ne, htrim]
    exact trimEndMatches_append_replicate j hm.getLast?_ne
  subst hnm
  exact ⟨rfl, by simpa using htrim⟩

/-- Names with extra dots are accepted too. -/
theorem AcceptsHostNames.not_extraDots (h : AcceptsHostNames s) : ¬ ExtraDots s := by
  rintro ⟨n, k, hk, hn, hw⟩
  obtain ⟨m, j, hj, hm, hw', -⟩ :=
    (h.1 _).mp (normalizeDnsName_eq_ok.mpr ⟨n, k, hn, hw, rfl⟩)
  have hkj := (hw.unique hn hm hw').2
  omega

/-- **The code keeps to the grammar** on every text but the names with extra dots: a host name and
two dots or more, which is accepted and loses them all. -/
theorem acceptsHostNames_iff (s : String) : AcceptsHostNames s ↔ ¬ ExtraDots s := by
  refine ⟨AcceptsHostNames.not_extraDots, fun hextra =>
    ⟨fun r => ?_, fun r => normalizeDnsName_idempotent⟩⟩
  rw [normalizeDnsName_eq_ok]
  constructor
  · rintro ⟨n, k, hn, hw, hr⟩
    have hk : k ≤ 1 := Nat.le_of_not_lt fun hk => hextra ⟨n, k, hk, hn, hw⟩
    exact ⟨n, k, hk, hn, hw, hr⟩
  · rintro ⟨n, k, -, hn, hw, hr⟩
    exact ⟨n, k, hn, hw, hr⟩

/-- With two dots at the end the text is no host name, and its name is taken. -/
theorem two_dots_accepted :
    normalizeDnsName "a.." = .ok "a" ∧ ¬ AcceptsHostNames "a.." := by
  have hlabel : IsLabel ['a'] := ((@normalizeLabel_eq_ok ['a'] ['a'] []).mp rfl).1
  have hname : IsName ['a'] := isName_iff.mpr ⟨by
    intro l hl
    obtain rfl := List.mem_singleton.mp hl
    exact hlabel, by decide⟩
  have hwrites : Writes "a.." ['a'] 2 := by
    rw [Writes]
    decide
  exact ⟨by decide, fun h => h.not_extraDots ⟨['a'], 2, Nat.le_refl 2, hname, hwrites⟩⟩

end Normalize

end Micronet
