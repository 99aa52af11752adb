import Mathlib.Data.Nat.Digits.Lemmas

/-!
# Slices and machine words

Computations on byte slices, with the three ways they end: a value, `none`, and a
panic.  An unchecked addition panics where its sum is not a machine word, a checked
one is `none` there; a range that is asked for is `none` outside the slice, a range
that is indexed panics.

`Ends` says how a computation ends, one proposition for each way, and it follows the
program text.  `uintAt` reads an unsigned integer, and `ends_uintAt_holds` is what it finds
where an encoding of the integer stands.
-/
namespace Slices

/-- How a computation on slices stops for good. -/
inductive Panic
  | overflow
  | outOfBounds
deriving DecidableEq, Repr

/-- Computations that can return `none`, and can panic. -/
abbrev Checked : Type → Type := OptionT (Except Panic)

variable {α β : Type}

def panic (p : Panic) : Checked α := OptionT.lift (.error p)

/-- `Some` and `None`, as computations. -/
def ofOption (o : Option α) : Checked α := OptionT.mk (.ok o)

/-! ## How a computation ends -/

/-- `x` ends with a value of which `V` holds, with `none` and then `N` holds, or with a
panic and then `P` holds. -/
def Ends (x : Checked α) (V : α → Prop) (N P : Prop) : Prop :=
  match x.run with
  | .ok (some a) => V a
  | .ok none => N
  | .error _ => P

section Ends
variable {V W : α → Prop} {N P : Prop} {x : Checked α}

@[simp] theorem ends_pure {a : α} : Ends (pure a) V N P ↔ V a := Iff.rfl

@[simp] theorem ends_failure : Ends (failure : Checked α) V N P ↔ N := Iff.rfl

@[simp] theorem ends_panic {p : Panic} : Ends (panic p : Checked α) V N P ↔ P := Iff.rfl

@[simp] theorem ends_ofOption {o : Option α} :
    Ends (ofOption o) V N P ↔ (∀ a, o = some a → V a) ∧ (o = none → N) := by
  cases o with
  | none => simp [ofOption, Ends]
  | some a => simp [ofOption, Ends]

@[simp] theorem ends_bind {f : α → Checked β} {V : β → Prop} :
    Ends (x >>= f) V N P ↔ Ends x (fun a => Ends (f a) V N P) N P := by
  unfold Ends
  rw [OptionT.run_bind]
  cases x.run with
  | error p => exact Iff.rfl
  | ok o => cases o <;> exact Iff.rfl

/-- A loop over indices that gives each a value. -/
theorem ends_mapM {ι : Type} {f : ι → Checked α} {g : ι → α} {l : List ι} {V : List α → Prop}
    (h : ∀ i ∈ l, f i = pure (g i)) : Ends (l.mapM f) V N P ↔ V (l.map g) := by
  induction l generalizing V with
  | nil => exact Iff.rfl
  | cons i l ih =>
    rw [List.mapM_cons, h i (List.mem_cons_self ..), pure_bind, ends_bind]
    simp only [ends_pure]
    exact ih fun j hj => h j (List.mem_cons_of_mem _ hj)

@[simp] theorem ends_ite {c : Prop} [Decidable c] {y : Checked α} :
    Ends (if c then x else y) V N P ↔ (c → Ends x V N P) ∧ (¬ c → Ends y V N P) := by
  by_cases hc : c <;> simp [hc]

theorem Ends.mono (h : Ends x V N P) (hV : ∀ a, V a → W a) : Ends x W N P := by
  unfold Ends at h ⊢
  cases hx : x.run with
  | error p => simpa [hx] using h
  | ok o =>
    cases o with
    | none => simpa [hx] using h
    | some a =>
      rw [hx] at h
      exact hV a h

/-- What a computation returns. -/
theorem run_eq_iff {o : Option α} :
    x.run = .ok o ↔ Ends x (fun a => o = some a) (o = none) False := by
  unfold Ends
  cases x.run with
  | error p => simp
  | ok o' => cases o' <;> simp [eq_comm]

end Ends

/-! ## Machine words -/

/-- The unchecked `+`. -/
def add (a b : Nat) : Checked Nat := if a + b < 2 ^ 64 then pure (a + b) else panic .overflow

/-- `checked_add`. -/
def checkedAdd (a b : Nat) : Checked Nat := if a + b < 2 ^ 64 then pure (a + b) else failure

/-- `checked_mul`. -/
def checkedMul (a b : Nat) : Checked Nat := if a * b < 2 ^ 64 then pure (a * b) else failure

section Words
variable {a b : Nat} {V : Nat → Prop} {N P : Prop}

@[simp] theorem ends_add :
    Ends (add a b) V N P ↔ (a + b < 2 ^ 64 → V (a + b)) ∧ (¬ a + b < 2 ^ 64 → P) := ends_ite

@[simp] theorem ends_checkedAdd :
    Ends (checkedAdd a b) V N P ↔ (a + b < 2 ^ 64 → V (a + b)) ∧ (¬ a + b < 2 ^ 64 → N) := ends_ite

@[simp] theorem ends_checkedMul :
    Ends (checkedMul a b) V N P ↔ (a * b < 2 ^ 64 → V (a * b)) ∧ (¬ a * b < 2 ^ 64 → N) := ends_ite

end Words

/-! ## Slices -/

/-- A slice: its length is a signed machine word. -/
structure Slice where
  bytes : List UInt8
  length_lt : bytes.length < 2 ^ 63

variable (data : List UInt8)

/-- `data.get(start..stop)`. -/
def get (start stop : Nat) : Checked (List UInt8) :=
  if start ≤ stop ∧ stop ≤ data.length then pure ((data.drop start).take (stop - start))
  else failure

/-- `data.get(start..)`. -/
def getFrom (start : Nat) : Checked (List UInt8) :=
  if start ≤ data.length then pure (data.drop start) else failure

/-- `data[i]`. -/
def index (i : Nat) : Checked UInt8 :=
  match data[i]? with
  | some b => pure b
  | none => panic .outOfBounds

/-- `data[..stop]`. -/
def sliceTo (stop : Nat) : Checked (List UInt8) :=
  if stop ≤ data.length then pure (data.take stop) else panic .outOfBounds

/-- `bs` stands in `data` at `off`. -/
def Holds (off : Nat) (bs : List UInt8) : Prop := ∃ p t, data = p ++ bs ++ t ∧ p.length = off

section Slices
variable {data} {off start stop i : Nat} {bs : List UInt8} {V : List UInt8 → Prop} {N P : Prop}

theorem holds_iff :
    Holds data off bs ↔ off + bs.length ≤ data.length ∧ (data.drop off).take bs.length = bs := by
  constructor
  · rintro ⟨p, t, rfl, rfl⟩
    simp
  · rintro ⟨hle, htake⟩
    refine ⟨data.take off, (data.drop off).drop bs.length, ?_, by simp; omega⟩
    calc data = data.take off ++ data.drop off := (List.take_append_drop off data).symm
      _ = data.take off ++ ((data.drop off).take bs.length ++ (data.drop off).drop bs.length) :=
          congrArg (data.take off ++ ·) (List.take_append_drop bs.length (data.drop off)).symm
      _ = data.take off ++ bs ++ (data.drop off).drop bs.length := by
          rw [htake, List.append_assoc]

theorem Holds.isInfix (h : Holds data off bs) : bs <:+: data := by
  obtain ⟨p, t, h, -⟩ := h
  exact ⟨p, t, h.symm⟩

theorem Holds.append {cs : List UInt8} (h : Holds data off (bs ++ cs)) :
    Holds data off bs ∧ Holds data (off + bs.length) cs := by
  obtain ⟨p, t, h, hp⟩ := h
  exact ⟨⟨p, cs ++ t, by simp [h], hp⟩, ⟨p ++ bs, t, by simp [h], by simp [hp]⟩⟩

/-- What stands in a part stands in the whole. -/
theorem Holds.trans {off' : Nat} {cs : List UInt8} (h : Holds data off bs) (h' : Holds bs off' cs) :
    Holds data (off + off') cs := by
  obtain ⟨p, t, rfl, rfl⟩ := h
  obtain ⟨p', t', rfl, rfl⟩ := h'
  exact ⟨p ++ p', t' ++ t, by simp, by simp⟩

/-- The parts of a concatenation. -/
theorem holds_flatten (ls : List (List UInt8)) (hi : i < ls.length) :
    Holds ls.flatten ((ls.take i).map List.length).sum ls[i] := by
  refine ⟨(ls.take i).flatten, (ls.drop (i + 1)).flatten, ?_, List.length_flatten⟩
  calc ls.flatten = (ls.take i ++ ls.drop i).flatten := by rw [List.take_append_drop]
    _ = (ls.take i).flatten ++ ls[i] ++ (ls.drop (i + 1)).flatten := by
        rw [List.drop_eq_getElem_cons hi, List.flatten_append, List.flatten_cons, List.append_assoc]

/-- They are evenly spaced if they are of one length. -/
theorem holds_flatten_even (ls : List (List UInt8)) {m : Nat} (hm : ∀ l ∈ ls, l.length = m)
    (hi : i < ls.length) : Holds ls.flatten (i * m) ls[i] := by
  have hlens : (ls.take i).map List.length = List.replicate i m := by
    refine List.eq_replicate_iff.mpr ⟨by simp; omega, fun n hn => ?_⟩
    obtain ⟨l, hl, rfl⟩ := List.mem_map.mp hn
    exact hm l (List.mem_of_mem_take hl)
  have h := holds_flatten ls hi
  rwa [hlens, List.sum_replicate_nat] at h

@[simp] theorem ends_get :
    Ends (get data start stop) V N P ↔
      (start ≤ stop ∧ stop ≤ data.length → V ((data.drop start).take (stop - start))) ∧
        (¬ (start ≤ stop ∧ stop ≤ data.length) → N) := ends_ite

@[simp] theorem ends_getFrom :
    Ends (getFrom data start) V N P ↔
      (start ≤ data.length → V (data.drop start)) ∧ (¬ start ≤ data.length → N) := ends_ite

@[simp] theorem ends_sliceTo :
    Ends (sliceTo data stop) V N P ↔
      (stop ≤ data.length → V (data.take stop)) ∧ (¬ stop ≤ data.length → P) := ends_ite

@[simp] theorem ends_index {V : UInt8 → Prop} :
    Ends (index data i) V N P ↔ (∀ b, data[i]? = some b → V b) ∧ (data[i]? = none → P) := by
  unfold index
  cases data[i]? <;> simp

theorem index_eq (h : i < data.length) : index data i = pure data[i] := by
  unfold index
  rw [List.getElem?_eq_getElem h]

end Slices

/-! ## Unsigned integers -/

/-- The bytes of `n`, the lowest first if `le`. -/
def toBytes (le : Bool) (w n : Nat) : List UInt8 :=
  let bytes := (List.range w).map fun i => UInt8.ofNat (n / 256 ^ i)
  if le then bytes else bytes.reverse

def ofBytes (le : Bool) (bytes : List UInt8) : Nat :=
  Nat.ofDigits 256 ((if le then bytes else bytes.reverse).map UInt8.toNat)

@[simp] theorem length_toBytes (le : Bool) (w n : Nat) : (toBytes le w n).length = w := by
  cases le <;> simp [toBytes]

theorem ofBytes_lt (le : Bool) (bytes : List UInt8) : ofBytes le bytes < 256 ^ bytes.length := by
  have hdigits (l : List UInt8) : ∀ d ∈ l.map UInt8.toNat, d < 256 := by
    intro d hd
    obtain ⟨b, -, rfl⟩ := List.mem_map.mp hd
    exact b.toNat_lt
  have hlt (l : List UInt8) : Nat.ofDigits 256 (l.map UInt8.toNat) < 256 ^ l.length := by
    simpa using Nat.ofDigits_lt_base_pow_length (by omega) (hdigits l)
  cases le with
  | true => exact hlt bytes
  | false => simpa [ofBytes] using hlt bytes.reverse

theorem ofDigits_range (w n : Nat) :
    Nat.ofDigits 256 ((List.range w).map fun i => n / 256 ^ i % 256) = n % 256 ^ w := by
  induction w generalizing n with
  | zero => simp [Nat.mod_one]
  | succ w ih =>
    have hnext : (List.range w).map ((fun i => n / 256 ^ i % 256) ∘ Nat.succ) =
        (List.range w).map fun i => n / 256 / 256 ^ i % 256 :=
      List.map_congr_left fun i _ => by
        simp only [Function.comp, Nat.pow_succ', Nat.div_div_eq_div_mul]
    rw [List.range_succ_eq_map, List.map_cons, List.map_map, hnext, Nat.ofDigits_cons, ih,
      Nat.pow_succ', Nat.mod_mul]
    simp

/-- **Reading what was written.** -/
theorem ofBytes_toBytes (le : Bool) {w n : Nat} (h : n < 256 ^ w) :
    ofBytes le (toBytes le w n) = n := by
  have hmap : ((List.range w).map fun i => UInt8.ofNat (n / 256 ^ i)).map UInt8.toNat =
      (List.range w).map fun i => n / 256 ^ i % 256 := by simp [Function.comp_def]
  have hvalue : Nat.ofDigits 256 ((List.range w).map fun i => n / 256 ^ i % 256) = n := by
    rw [ofDigits_range, Nat.mod_eq_of_lt h]
  cases le with
  | true => simpa [ofBytes, toBytes, hmap] using hvalue
  | false => simpa [ofBytes, toBytes, hmap] using hvalue

/-- Writing what was read. -/
theorem toBytes_ofBytes (le : Bool) (bytes : List UInt8) :
    toBytes le bytes.length (ofBytes le bytes) = bytes := by
  have hlow (l : List UInt8) : (List.range l.length).map (fun i =>
      UInt8.ofNat (Nat.ofDigits 256 (l.map UInt8.toNat) / 256 ^ i)) = l := by
    induction l with
    | nil => rfl
    | cons b l ih =>
      have hb := b.toNat_lt
      have hdiv (i : Nat) : (b.toNat + 256 * Nat.ofDigits 256 (l.map UInt8.toNat)) / 256 ^ (i + 1) =
          Nat.ofDigits 256 (l.map UInt8.toNat) / 256 ^ i := by
        rw [Nat.pow_succ', ← Nat.div_div_eq_div_mul]
        congr 1
        omega
      rw [List.length_cons, List.range_succ_eq_map, List.map_cons, List.map_map, List.map_cons,
        Nat.ofDigits_cons]
      refine congrArg₂ List.cons ?_ ?_
      · refine UInt8.toNat_inj.mp ?_
        simp
      · simp only [Function.comp_def, Nat.succ_eq_add_one, hdiv]
        exact ih
  cases le with
  | true => exact hlow bytes
  | false =>
    have h := hlow bytes.reverse
    rw [List.length_reverse] at h
    exact (congrArg List.reverse h).trans bytes.reverse_reverse

/-- The integer of `w` bytes at `off`: the range is asked for and its bytes are indexed. -/
def uintAt (w off : Nat) (le : Bool) : Checked Nat := do
  let stop ← add off w
  let b ← get data off stop
  let bytes ← (List.range w).mapM (index b)
  return ofBytes le bytes

/-- The integer that stands there. -/
def uint (w off : Nat) (le : Bool) : Nat := ofBytes le ((data.drop off).take w)

section Uint
variable {data} {w off n : Nat} {le : Bool} {V : Nat → Prop} {N P : Prop}

@[simp] theorem ends_uintAt :
    Ends (uintAt data w off le) V N P ↔
      (off + w < 2 ^ 64 → (off + w ≤ data.length → V (uint data w off le)) ∧
        (¬ off + w ≤ data.length → N)) ∧ (¬ off + w < 2 ^ 64 → P) := by
  have hbytes (b : List UInt8) (hb : b.length = w) (Q : List UInt8 → Prop) :
      Ends ((List.range w).mapM (index b)) Q N P ↔ Q b := by
    have hindex : ∀ i ∈ List.range w, index b i = pure (b[i]?.getD 0) := by
      intro i hi
      have hlt : i < b.length := hb ▸ List.mem_range.mp hi
      rw [index_eq hlt, List.getElem?_eq_getElem hlt, Option.getD_some]
    rw [ends_mapM hindex]
    have hself : (List.range w).map (fun i => b[i]?.getD 0) = b := by
      refine List.ext_getElem (by simp [hb]) fun i hi hi' => ?_
      simp [List.getElem?_eq_getElem hi']
    rw [hself]
  simp only [uintAt, ends_bind, ends_add, ends_get, ends_pure]
  refine and_congr_left fun _ => imp_congr_right fun hword => ?_
  have hle : off ≤ off + w ∧ off + w ≤ data.length ↔ off + w ≤ data.length := by omega
  rw [hle]
  refine and_congr_left fun _ => imp_congr_right fun hlen => ?_
  rw [hbytes _ (by simp; omega)]
  simp [uint]

theorem uint_lt : uint data w off le < 256 ^ w :=
  (ofBytes_lt le _).trans_le (Nat.pow_le_pow_right (by omega) (by simp))

/-- It is the integer whose bytes stand there. -/
theorem Holds.uint (h : Holds data off (toBytes le w n)) (hn : n < 256 ^ w) :
    off + w ≤ data.length ∧ uint data w off le = n := by
  have hiff := holds_iff.mp h
  rw [length_toBytes] at hiff
  refine ⟨hiff.1, ?_⟩
  unfold Slices.uint
  rw [hiff.2, ofBytes_toBytes le hn]

theorem ends_uintAt_holds (hdata : data.length < 2 ^ 63) (h : Holds data off (toBytes le w n))
    (hn : n < 256 ^ w) : Ends (uintAt data w off le) V N P ↔ V n := by
  obtain ⟨hlen, huint⟩ := h.uint hn
  have hword : off + w < 2 ^ 64 := by omega
  rw [ends_uintAt, huint]
  simp only [hword, hlen, true_implies, not_true_eq_false, false_implies, and_true]

end Uint

/-! ## Records -/

section Record
variable {F : Type} [DecidableEq F]

/-- Where a field of a record stands: its fields are listed with their widths, and each
begins where the one before it ends. -/
def position (fields : List (F × Nat)) (f : F) : Nat :=
  ((fields.takeWhile (·.1 ≠ f)).map (·.2)).sum

def width (fields : List (F × Nat)) (f : F) : Nat := (fields.lookup f).getD 0

/-- In the record at `base`, the field has the value `n`. -/
def Stores (fields : List (F × Nat)) (data : List UInt8) (base : Nat) (le : Bool) (f : F)
    (n : Nat) : Prop :=
  n < 256 ^ width fields f ∧
    Holds data (base + position fields f) (toBytes le (width fields f) n)

variable {fields : List (F × Nat)} {data : List UInt8} {base n : Nat} {le : Bool} {f : F}
  {V : Nat → Prop} {N P : Prop}

theorem Stores.ends_uintAt (h : Stores fields data base le f n) (hdata : data.length < 2 ^ 63) :
    Ends (uintAt data (width fields f) (base + position fields f) le) V N P ↔ V n :=
  ends_uintAt_holds hdata h.2 h.1

/-- The same, where the place of the field is computed by an addition. -/
theorem Stores.ends_add (h : Stores fields data base le f n) (hdata : data.length < 2 ^ 63) :
    Ends (add base (position fields f))
      (fun off => Ends (uintAt data (width fields f) off le) V N P) N P ↔ V n := by
  have hlen := (holds_iff.mp h.2).1
  have hword : base + position fields f < 2 ^ 64 := by omega
  rw [Slices.ends_add, h.ends_uintAt hdata]
  simp only [hword, true_implies, not_true_eq_false, false_implies, and_true]

/-- The bytes of a record. -/
def record (fields : List (F × Nat)) (value : F → Nat) (le : Bool) : List UInt8 :=
  fields.flatMap fun f => toBytes le f.2 (value f.1)

omit [DecidableEq F] in
theorem length_record (value : F → Nat) :
    (record fields value le).length = (fields.map (·.2)).sum := by
  simp [record, List.length_flatMap]

theorem holds_record (value : F → Nat) (h : f ∈ fields.map (·.1)) :
    Holds (record fields value le) (position fields f)
      (toBytes le (width fields f) (value f)) := by
  induction fields with
  | nil => cases h
  | cons g fields ih =>
    obtain ⟨g, w⟩ := g
    by_cases hg : g = f
    · subst hg
      refine ⟨[], record fields value le, ?_, by simp [position]⟩
      simp [record, width]
    · have hrest := ih (by simpa [Ne.symm hg] using h)
      have hcons : Holds (record ((g, w) :: fields) value le) w (record fields value le) :=
        ⟨toBytes le w (value g), [], by simp [record], by simp⟩
      have hpos : position ((g, w) :: fields) f = w + position fields f := by
        simp [position, hg]
      have hwidth : width ((g, w) :: fields) f = width fields f := by
        simp [width, List.lookup_cons, beq_eq_false_iff_ne.mpr (Ne.symm hg)]
      rw [hpos, hwidth]
      exact hcons.trans hrest

/-- **A record stores the values it was made of.** -/
theorem stores_record {value : F → Nat} (h : Holds data base (record fields value le))
    (hf : f ∈ fields.map (·.1)) (hn : value f < 256 ^ width fields f) :
    Stores fields data base le f (value f) :=
  ⟨hn, h.trans (holds_record value hf)⟩

end Record

end Slices
