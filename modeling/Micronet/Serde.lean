/-!
# JSON values and derived codecs

What a derived serializer writes for a value and what the derived deserializer makes
of it, on JSON values.  A `Codec` carries the law that it reads back what it writes.
The law of a `JsonField` has a condition, `JsonField.Recovers`: what is left out when it is
written must be what a missing field is read as.  An internally tagged enum is an
object with its variant's name beside the variant's fields.
-/
namespace Serde

inductive Json
  | null
  | bool (b : Bool)
  | num (n : Int)
  | str (s : String)
  | arr (elements : List Json)
  | obj (entries : List (String × Json))

abbrev Entries : Type := List (String × Json)

inductive DecodeError
  | invalidType
  | missingField (name : String)
  | duplicateField (name : String)
  | unknownVariant (name : String)
deriving DecidableEq, Repr

abbrev Result (α : Type) : Type := Except DecodeError α

theorem bind_ok_iff {α β : Type} {x : Result α} {f : α → Result β} {b : β} :
    (x >>= f) = .ok b ↔ ∃ a, x = .ok a ∧ f a = .ok b := by
  cases x <;> simp [bind, Except.bind]

/-- A text format for JSON values, with its printer and its parser. -/
structure Format (τ : Type) where
  /-- The text of a value. -/
  print : Json → τ
  /-- The value of a text, or an error. -/
  parse : τ → Result Json
  /-- What was printed is parsed as itself. -/
  parse_print : ∀ j, parse (print j) = .ok j

/-- The values themselves. -/
def Format.value : Format Json := ⟨id, .ok, fun _ => rfl⟩

variable {α β : Type}

/-! ## Values -/

/-- What is written for a value, and how it is read. -/
structure Codec (α : Type) where
  encode : α → Json
  decode : Json → Result α
  /-- What was written is read as itself. -/
  decode_encode : ∀ a, decode (encode a) = .ok a

namespace Codec

def str : Codec String where
  encode := .str
  decode
    | .str s => .ok s
    | _ => .error .invalidType
  decode_encode _ := rfl

def bool : Codec Bool where
  encode := .bool
  decode
    | .bool b => .ok b
    | _ => .error .invalidType
  decode_encode _ := rfl

/-- `Option`: `None` is `null`, which no other value may be. -/
def option (c : Codec α) (h : ∀ a, c.encode a ≠ .null) : Codec (Option α) where
  encode
    | none => .null
    | some a => c.encode a
  decode
    | .null => .ok none
    | j => some <$> c.decode j
  decode_encode
    | none => rfl
    | some a => by
      have hdecode := c.decode_encode a
      have hnull := h a
      cases hj : c.encode a with
      | null => exact absurd hj hnull
      | _ =>
        rw [hj] at hdecode
        simp only [hj, hdecode]
        rfl

/-- An enum without data, by the names of its variants. -/
def units (name : α → String) (ofName : String → Option α) (h : ∀ a, ofName (name a) = some a) :
    Codec α where
  encode a := .str (name a)
  decode
    | .str s =>
      match ofName s with
      | some a => .ok a
      | none => .error (.unknownVariant s)
    | _ => .error .invalidType
  decode_encode a := by
    show (match ofName (name a) with | some a => _ | none => _) = _
    rw [h a]

/-- An unsigned integer with values below `bound`. -/
def unsigned (bound : Nat) (toNat : α → Nat) (ofNat : Nat → α) (hlt : ∀ a, toNat a < bound)
    (h : ∀ a, ofNat (toNat a) = a) : Codec α where
  encode a := .num (toNat a)
  decode
    | .num n => if 0 ≤ n ∧ n < bound then .ok (ofNat n.toNat) else .error .invalidType
    | _ => .error .invalidType
  decode_encode a := by
    have ha := hlt a
    show (if _ then Except.ok (ofNat (Int.toNat (toNat a))) else _) = _
    rw [if_pos (by omega), Int.toNat_natCast, h a]

/-- `Vec`. -/
def list (c : Codec α) : Codec (List α) where
  encode l := .arr (l.map c.encode)
  decode
    | .arr js => js.mapM c.decode
    | _ => .error .invalidType
  decode_encode l := by
    show (l.map c.encode).mapM c.decode = _
    induction l with
    | nil => rfl
    | cons a l ih => rw [List.map_cons, List.mapM_cons, c.decode_encode, ih]; rfl

/-- What a derived struct is read from: an object, or the values of its fields in their order,
of which the last may be missing. -/
def structEntries (fields : List String) : Json → Result Entries
  | .obj m => .ok m
  | .arr values =>
    if values.length ≤ fields.length then .ok (fields.zip values) else .error .invalidType
  | _ => .error .invalidType

/-- A derived struct, by what is written for its fields and how they are read. -/
def struct (fields : List String) (entries : α → Entries) (read : Entries → Result α)
    (h : ∀ a, read (entries a) = .ok a) : Codec α where
  encode a := .obj (entries a)
  decode j := structEntries fields j >>= read
  decode_encode a := h a

end Codec

/-- A type with a text of its own, which parses what it prints. -/
structure TextForm (α : Type) where
  print : α → String
  parse : String → Option α
  /-- What was printed is parsed as itself. -/
  parse_print : ∀ a, parse (print a) = some a

/-- Such a type is written as the string. -/
def TextForm.codec (t : TextForm α) : Codec α where
  encode a := .str (t.print a)
  decode
    | .str s =>
      match t.parse s with
      | some a => .ok a
      | none => .error .invalidType
    | _ => .error .invalidType
  decode_encode a := by
    show (match t.parse (t.print a) with | some a => _ | none => _) = _
    rw [t.parse_print a]

/-! ## Fields -/

/-- The entries of one name. -/
def valuesOf (name : String) (m : Entries) : Entries := m.filter (·.1 = name)

@[simp] theorem valuesOf_append (name : String) (m m' : Entries) :
    valuesOf name (m ++ m') = valuesOf name m ++ valuesOf name m' := List.filter_append ..

/-- A field of a derived struct or struct variant. -/
structure JsonField (α : Type) where
  name : String
  codec : Codec α
  /-- `skip_serializing_if`. -/
  skip : α → Bool := fun _ => false
  /-- What a missing field is read as: its `default`, or the `None` of an `Option`. -/
  missing : Option α := none

namespace JsonField
variable {f : JsonField α} {a : α}

def write (f : JsonField α) (a : α) : Entries :=
  if f.skip a then [] else [(f.name, f.codec.encode a)]

def read (f : JsonField α) (m : Entries) : Result α :=
  match valuesOf f.name m with
  | [] =>
    match f.missing with
    | some a => .ok a
    | none => .error (.missingField f.name)
  | [(_, j)] => f.codec.decode j
  | _ => .error (.duplicateField f.name)

/-- What is not written is what is read for it. -/
def Recovers (f : JsonField α) (a : α) : Prop := f.skip a = true → f.missing = some a

theorem recovers_of_not_skip (h : f.skip a = false) : f.Recovers a := by
  intro hskip
  rw [h] at hskip
  cases hskip

@[simp] theorem valuesOf_write_self : valuesOf f.name (f.write a) = f.write a := by
  unfold write
  split <;> simp [valuesOf]

theorem valuesOf_write_ne {name : String} (h : f.name ≠ name) : valuesOf name (f.write a) = [] := by
  unfold write
  split <;> simp [valuesOf, h]

/-- **The law of a field**: among entries of other names it is read back exactly if it
recovers. -/
theorem read_eq_ok {m : Entries} (hm : valuesOf f.name m = f.write a) :
    f.read m = .ok a ↔ f.Recovers a := by
  unfold read Recovers
  rw [hm, write]
  by_cases hskip : f.skip a = true
  · rw [if_pos hskip]
    cases hmissing : f.missing <;> simp [hskip]
  · rw [if_neg hskip]
    simp [f.codec.decode_encode, hskip]

end JsonField

/-! ## Members left out -/

/-- The entries without those of the names in `drop`, the others rewritten by `inner`. -/
def leaveOut (drop : String → Bool) (inner : String → Json → Json) (m : Entries) : Entries :=
  (m.filter fun e => !drop e.1).map fun e => (e.1, inner e.1 e.2)

/-- An object without the members in `drop`. -/
def Json.without (drop : String → Bool) : Json → Json
  | .obj m => .obj (leaveOut drop (fun _ j => j) m)
  | j => j

theorem leaveOut_none (m : Entries) : leaveOut (fun _ => false) (fun _ j => j) m = m := by
  simp [leaveOut]

theorem valuesOf_leaveOut {drop : String → Bool} {inner : String → Json → Json} (name : String)
    (m : Entries) :
    valuesOf name (leaveOut drop inner m) =
      if drop name then [] else (valuesOf name m).map fun e => (e.1, inner e.1 e.2) := by
  have hfilter : valuesOf name (leaveOut drop inner m) =
      ((valuesOf name m).filter fun e => !drop e.1).map fun e => (e.1, inner e.1 e.2) := by
    unfold valuesOf leaveOut
    rw [List.filter_map, List.filter_filter, List.filter_filter]
    refine congrArg _ (List.filter_congr fun e _ => ?_)
    exact Bool.and_comm _ _
  have hname : ∀ e ∈ valuesOf name m, e.1 = name := fun e he => by
    simpa using (List.mem_filter.mp he).2
  rw [hfilter]
  split
  · rename_i hdrop
    rw [List.filter_eq_nil_iff.mpr fun e he => by rw [hname e he, hdrop]; simp]
    rfl
  · rename_i hdrop
    rw [List.filter_eq_self.mpr fun e he => by rw [hname e he]; simp [hdrop]]

/-- **A field is read** without its member if that is what a missing one is read as, and with
a member that is decoded to the same. -/
theorem JsonField.read_leaveOut {f : JsonField α} {a : α} {m : Entries} {drop : String → Bool}
    {inner : String → Json → Json} (hm : valuesOf f.name m = f.write a) (hrecovers : f.Recovers a)
    (hdrop : drop f.name = true → f.missing = some a)
    (hinner : f.codec.decode (inner f.name (f.codec.encode a)) = .ok a) :
    f.read (leaveOut drop inner m) = .ok a := by
  unfold read
  rw [valuesOf_leaveOut, hm]
  by_cases hd : drop f.name = true
  · rw [if_pos hd, hdrop hd]
  · rw [if_neg hd, write]
    by_cases hskip : f.skip a = true
    · rw [if_pos hskip, hrecovers hskip]
      rfl
    · rw [if_neg hskip]
      exact hinner

/-- The law of a field that is always written and whose member is left out or kept. -/
theorem JsonField.read_leaveOut_leaf {f : JsonField α} {a : α} {m : Entries}
    {drop : String → Bool} (hm : valuesOf f.name m = f.write a) (hrecovers : f.Recovers a)
    (hdrop : drop f.name = true → f.missing = some a) :
    f.read (leaveOut drop (fun _ j => j) m) = .ok a :=
  read_leaveOut hm hrecovers hdrop (f.codec.decode_encode a)

/-! ## Internally tagged enums -/

/-- The object of a variant. -/
def tagged (tag name : String) (m : Entries) : Json := .obj ((tag, .str name) :: m)

/-- The variant's name, and the other entries. -/
def readTagged (tag : String) : Json → Result (String × Entries)
  | .obj m =>
    match valuesOf tag m with
    | [] => .error (.missingField tag)
    | [(_, .str name)] => .ok (name, m.filter (·.1 ≠ tag))
    | [_] => .error .invalidType
    | _ => .error (.duplicateField tag)
  | _ => .error .invalidType

theorem readTagged_tagged {tag name : String} {m : Entries} (h : valuesOf tag m = []) :
    readTagged tag (tagged tag name m) = .ok (name, m) := by
  have hothers : m.filter (·.1 ≠ tag) = m :=
    List.filter_eq_self.mpr (by simpa using List.filter_eq_nil_iff.mp h)
  have hall : valuesOf tag ((tag, .str name) :: m) = [(tag, .str name)] := by
    rw [valuesOf, List.filter_cons_of_pos (by simp), ← valuesOf, h]
  unfold readTagged tagged
  simp only [hall]
  rw [List.filter_cons_of_neg (by simp), hothers]

/-! ## Renaming -/

/-- The first character in lower case. -/
def lowerFirst : List Char → List Char
  | [] => []
  | c :: s => c.toLower :: s

/-- `rename_all = "camelCase"` on a variant. -/
def camelVariant (variant : String) : String := String.ofList (lowerFirst variant.toList)

/-- `rename_all = "snake_case"` on a variant: a `_` before each later capital. -/
def snakeVariant (variant : String) : String :=
  match variant.toList with
  | [] => ""
  | c :: s =>
    String.ofList
      (c.toLower :: s.flatMap fun c => if c.isUpper then ['_', c.toLower] else [c.toLower])

/-- The words of a field's name run together, each with a capital. -/
def pascalField (capitalize : Bool) : List Char → List Char
  | [] => []
  | c :: s =>
    if c = '_' then pascalField true s
    else (if capitalize then c.toUpper else c) :: pascalField false s

/-- `rename_all = "camelCase"` on a field. -/
def camelField (field : String) : String :=
  String.ofList (lowerFirst (pascalField true field.toList))

end Serde
