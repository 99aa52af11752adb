import Micronet.Elf

/-!
# Layouts of sections as an ELF image

A list of sections can be laid out as an image of 32 or of 64 bits, in either byte
order, with its parts in any places.  Where a field of a header stands follows from
the order and the widths of the fields before it.

The search finds the first section of a name in every layout (`run_elfSectionData`), so
it does not depend on the layout.
-/
namespace Micronet
open Slices

namespace Elf

inductive Class
  | elf32
  | elf64
deriving DecidableEq, Repr

namespace Class

/-- The width of an address. -/
def word : Class → Nat
  | elf32 => 4
  | elf64 => 8

def code : Class → UInt8
  | elf32 => 1
  | elf64 => 2

end Class

inductive EhdrField
  | ident | type | machine | version | entry | phoff | shoff | flags | ehsize | phentsize | phnum
  | shentsize | shnum | shstrndx
deriving DecidableEq, Repr

/-- The header of an image. -/
def Class.ehdr (c : Class) : List (EhdrField × Nat) :=
  [(.ident, 16), (.type, 2), (.machine, 2), (.version, 4), (.entry, c.word), (.phoff, c.word),
    (.shoff, c.word), (.flags, 4), (.ehsize, 2), (.phentsize, 2), (.phnum, 2), (.shentsize, 2),
    (.shnum, 2), (.shstrndx, 2)]

inductive ShdrField
  | name | type | flags | addr | offset | size | link | info | addralign | entsize
deriving DecidableEq, Repr

/-- The header of a section. -/
def Class.shdr (c : Class) : List (ShdrField × Nat) :=
  [(.name, 4), (.type, 4), (.flags, c.word), (.addr, c.word), (.offset, c.word), (.size, c.word),
    (.link, 4), (.info, 4), (.addralign, c.word), (.entsize, c.word)]

def Class.shdrSize (c : Class) : Nat := (c.shdr.map (·.2)).sum

/-- A section; names are NUL-terminated where they stand. -/
structure Section where
  name : String
  contents : List UInt8
  noNul : '\x00' ∉ name.toList

/-- An image with these sections. -/
structure Layout (c : Class) (le : Bool) (sections : List Section) where
  /-- The bytes; a slice, so their number is that of a `usize`. -/
  image : Slice
  /-- Where the section headers begin, and how far they are apart. -/
  shoff : Nat
  shentsize : Nat
  /-- The section that is the string table. -/
  shstrndx : Fin sections.length
  /-- Where the name of a section stands in the string table. -/
  name : Fin sections.length → Nat
  /-- Where its contents stand. -/
  offset : Fin sections.length → Nat
  /-- The image begins with the magic number, its class and its byte order. -/
  ident : Holds image.bytes 0 (magic ++ [c.code, if le then 1 else 2])
  /-- The file header stores where the section headers are, how far apart and how many, and which
  section is the string table. -/
  ehdr_shoff : Stores c.ehdr image.bytes 0 le .shoff shoff
  ehdr_shentsize : Stores c.ehdr image.bytes 0 le .shentsize shentsize
  ehdr_shnum : Stores c.ehdr image.bytes 0 le .shnum sections.length
  ehdr_shstrndx : Stores c.ehdr image.bytes 0 le .shstrndx shstrndx
  /-- A section header has room for its fields. -/
  shdrSize_le : c.shdrSize ≤ shentsize
  /-- Each section header stores where the name and the contents of its section are. -/
  shdr_name : ∀ i : Fin sections.length,
    Stores c.shdr image.bytes (shoff + i * shentsize) le .name (name i)
  shdr_offset : ∀ i : Fin sections.length,
    Stores c.shdr image.bytes (shoff + i * shentsize) le .offset (offset i)
  shdr_size : ∀ i : Fin sections.length,
    Stores c.shdr image.bytes (shoff + i * shentsize) le .size sections[i].contents.length
  /-- And there they are. -/
  contents : ∀ i, Holds image.bytes (offset i) sections[i].contents
  names : ∀ i, Holds sections[shstrndx].contents (name i)
    (sections[i].name.toUTF8.data.toList ++ [0])

/-! ## The readers' offsets -/

namespace Class
variable (c : Class)

def reader : Class → Reader
  | elf32 => Elf.elf32
  | elf64 => Elf.elf64

theorem regular_reader : c.reader.Regular c.word := by
  cases c with
  | elf32 => exact regular_elf32
  | elf64 => exact regular_elf64

/-- **The offsets of the readers are those of the fields.** -/
theorem reader_ehdr :
    c.reader.shoff = position c.ehdr .shoff ∧ c.reader.shentsize = position c.ehdr .shentsize ∧
      c.reader.shnum = position c.ehdr .shnum ∧ c.reader.shstrndx = position c.ehdr .shstrndx := by
  cases c <;> decide

theorem reader_shdr :
    c.reader.entry = c.shdrSize ∧ c.reader.offset = position c.shdr .offset ∧
      c.reader.size = position c.shdr .size ∧ position c.shdr .name = 0 := by
  cases c <;> decide

theorem widths :
    width c.ehdr .shoff = c.word ∧ width c.ehdr .shentsize = 2 ∧ width c.ehdr .shnum = 2 ∧
      width c.ehdr .shstrndx = 2 ∧ width c.shdr .name = 4 ∧ width c.shdr .offset = c.word ∧
      width c.shdr .size = c.word := by
  cases c <;> decide

end Class

/-! ## Names -/

theorem fromUtf8_toUTF8 (s : String) : fromUtf8 s.toUTF8.data.toList = some s := by
  have hself : s.toUTF8.data.toList.toByteArray = s.toByteArray := by
    rw [String.toUTF8_eq_toByteArray]
    exact ByteArray.ext (by simp)
  unfold fromUtf8 String.fromUTF8?
  rw [hself, dif_pos s.isValidUTF8]
  rfl

/-- Only NUL is encoded with a zero byte. -/
theorem zero_notMem_utf8EncodeChar {c : Char} (h : c ≠ '\x00') :
    (0 : UInt8) ∉ String.utf8EncodeChar c := by
  have hval : c.val.toNat ≠ 0 := fun h0 => h (Char.ext (UInt32.toNat_inj.mp h0))
  have hbyte {n : Nat} (hpos : 0 < n) (hlt : n < 256) : (0 : UInt8) ≠ UInt8.ofNat n := by
    intro heq
    have htoNat := congrArg UInt8.toNat heq
    simp at htoNat
    omega
  fun_cases String.utf8EncodeChar c with
  | case1 v hv => simpa using hbyte (by omega) (by omega)
  | case2 v _ hv =>
    simp only [List.mem_cons, List.not_mem_nil, or_false, not_or]
    exact ⟨hbyte (by omega) (by omega), hbyte (by omega) (by omega)⟩
  | case3 v _ _ hv =>
    simp only [List.mem_cons, List.not_mem_nil, or_false, not_or]
    exact ⟨hbyte (by omega) (by omega), hbyte (by omega) (by omega), hbyte (by omega) (by omega)⟩
  | case4 v _ _ hv =>
    simp only [List.mem_cons, List.not_mem_nil, or_false, not_or]
    exact ⟨hbyte (by omega) (by omega), hbyte (by omega) (by omega), hbyte (by omega) (by omega),
      hbyte (by omega) (by omega)⟩

theorem zero_notMem_toUTF8 {s : String} (h : '\x00' ∉ s.toList) : 0 ∉ s.toUTF8.data.toList := by
  rw [String.toUTF8_eq_toByteArray, ← String.utf8Encode_toList, List.utf8Encode,
    List.toList_data_toByteArray]
  intro hmem
  obtain ⟨c, hc, hzero⟩ := List.mem_flatMap.mp hmem
  exact zero_notMem_utf8EncodeChar (fun hnul => h (hnul ▸ hc)) hzero

/-- A name is read up to its NUL, whatever is before it. -/
theorem cstr_holds {data : List UInt8} {off : Nat} {s : String} (h : '\x00' ∉ s.toList)
    (hs : Holds data off (s.toUTF8.data.toList ++ [0])) : cstr data off = s.toUTF8.data.toList := by
  obtain ⟨p, t, rfl, rfl⟩ := hs
  have hall : ∀ b ∈ s.toUTF8.data.toList, decide (b ≠ 0) = true := by
    intro b hb
    exact decide_eq_true fun h0 => zero_notMem_toUTF8 h (h0 ▸ hb)
  unfold cstr
  rw [List.append_assoc, List.drop_left, List.append_assoc, List.takeWhile_append_of_pos hall]
  simp

/-! ## The search, in a layout -/

namespace Layout
variable {c : Class} {le : Bool} {sections : List Section} (L : Layout c le sections)
  {V : List UInt8 → Prop} {N P : Prop}

/-- The contents of a section are read. -/
theorem ends_contents (i : Fin sections.length) :
    Ends (c.reader.contents L.image.bytes (L.shoff + i * L.shentsize) le) V N P ↔
      V sections[i].contents := by
  have hdata := L.image.length_lt
  obtain ⟨-, hoffset, hsize, -⟩ := c.reader_shdr
  obtain ⟨-, -, -, -, -, hwoffset, hwsize⟩ := c.widths
  have hread (f : ShdrField) (n : Nat) (hf : width c.shdr f = c.word)
      (h : Stores c.shdr L.image.bytes (L.shoff + i * L.shentsize) le f n) {V : Nat → Prop} :
      Ends (add (L.shoff + i * L.shentsize) (position c.shdr f))
        (fun off => Ends (uintAt L.image.bytes c.word off le) V N P) N P ↔ V n :=
    hf ▸ h.ends_add hdata
  simp only [Reader.contents, ends_bind, c.regular_reader.wordAt, hoffset, hsize]
  rw [hread .offset _ hwoffset (L.shdr_offset i), hread .size _ hwsize (L.shdr_size i)]
  obtain ⟨hlen, htake⟩ := holds_iff.mp (L.contents i)
  have hword : L.offset i + sections[i].contents.length < 2 ^ 64 := by omega
  simp only [ends_checkedAdd, ends_get, hword, hlen, Nat.le_add_right, Nat.add_sub_cancel_left,
    htake, true_implies, not_true_eq_false, false_implies, and_true, and_self]

/-- The name of a section is read. -/
theorem ends_name (i : Fin sections.length) {V : String → Prop} :
    Ends (u32At L.image.bytes (L.shoff + i * L.shentsize) le)
      (fun off => Ends (cstrAt sections[L.shstrndx].contents off) V N P) N P ↔
        V sections[i].name := by
  have hread {V : Nat → Prop} :
      Ends (u32At L.image.bytes (L.shoff + i * L.shentsize) le) V N P ↔ V (L.name i) := by
    obtain ⟨-, -, -, hposition⟩ := c.reader_shdr
    obtain ⟨-, -, -, -, hwname, -⟩ := c.widths
    have h := L.shdr_name i
    rw [← h.ends_uintAt L.image.length_lt (V := V) (N := N), hposition, hwname]
    rfl
  have hlen := (holds_iff.mp (L.names i)).1
  have hname : L.name i ≤ sections[L.shstrndx].contents.length := by omega
  rw [hread, ends_cstrAt, cstr_holds sections[i].noNul (L.names i), fromUtf8_toUTF8]
  simp only [hname, Option.some.injEq, forall_eq', reduceCtorEq, true_implies, not_true_eq_false,
    false_implies, and_true]

theorem shdr_lt (i : Fin sections.length) : L.shoff + i * L.shentsize < 2 ^ 64 := by
  have hlen := (holds_iff.mp (L.shdr_name i).2).1
  have hdata := L.image.length_lt
  omega

/-- The loop, from the header `i` on. -/
theorem ends_find (n : String) {i k : Nat} (hk : i + k = sections.length) :
    Ends (c.reader.find L.image.bytes sections[L.shstrndx].contents n le L.shoff L.shentsize i k)
      V N P ↔
      match (sections.drop i).find? (·.name = n) with
      | some s => V s.contents
      | none => N := by
  induction k generalizing i with
  | zero =>
    rw [List.drop_eq_nil_of_le (by omega)]
    exact Iff.rfl
  | succ k ih =>
    have hi : i < sections.length := by omega
    have hhdr : L.shoff + i * L.shentsize < 2 ^ 64 := L.shdr_lt ⟨i, hi⟩
    have hmul : i * L.shentsize < 2 ^ 64 := by omega
    rw [List.drop_eq_getElem_cons hi, List.find?_cons]
    simp only [Reader.find, ends_bind, ends_checkedMul, ends_checkedAdd, hmul, hhdr, true_implies,
      not_true_eq_false, false_implies, and_true]
    refine (L.ends_name ⟨i, hi⟩).trans ?_
    rw [ends_ite]
    by_cases hname : sections[i].name = n
    · rw [decide_eq_true hname]
      refine ⟨fun h => (L.ends_contents ⟨i, hi⟩).mp (h.2 (not_not.mpr hname)), fun hV => ?_⟩
      exact ⟨fun h => absurd hname h, fun _ => (L.ends_contents ⟨i, hi⟩).mpr hV⟩
    · rw [decide_eq_false hname, ← ih (by omega)]
      exact ⟨fun h => h.1 hname, fun h => ⟨fun _ => h, fun h' => absurd hname h'⟩⟩

/-- A field of the image's header is read. -/
theorem ends_ehdr {f : EhdrField} {w off m : Nat} {V : Nat → Prop} (hw : width c.ehdr f = w)
    (hoff : off = position c.ehdr f) (h : Stores c.ehdr L.image.bytes 0 le f m) :
    Ends (uintAt L.image.bytes w off le) V N P ↔ V m := by
  rw [← h.ends_uintAt L.image.length_lt (V := V) (N := N) (P := P), hw, hoff, Nat.zero_add]

theorem run_sectionData (n : String) :
    (c.reader.sectionData L.image.bytes n le).run =
      .ok ((sections.find? (·.name = n)).map (·.contents)) := by
  obtain ⟨hshoff, hshentsize, hshnum, hshstrndx⟩ := c.reader_ehdr
  obtain ⟨hwshoff, hwshentsize, hwshnum, hwshstrndx, -⟩ := c.widths
  obtain ⟨hentry, -⟩ := c.reader_shdr
  have hsize := L.shdrSize_le
  have hndx := L.shstrndx.isLt
  have hhdr := L.shdr_lt L.shstrndx
  have hmul : L.shstrndx * L.shentsize < 2 ^ 64 := by omega
  rw [run_eq_iff]
  simp only [Reader.sectionData, u16At, ends_bind, c.regular_reader.wordAt]
  rw [L.ends_ehdr hwshoff hshoff L.ehdr_shoff, L.ends_ehdr hwshentsize hshentsize L.ehdr_shentsize,
    L.ends_ehdr hwshnum hshnum L.ehdr_shnum, L.ends_ehdr hwshstrndx hshstrndx L.ehdr_shstrndx]
  rw [ends_ite]
  refine ⟨fun h => absurd h (by omega), fun _ => ?_⟩
  simp only [ends_bind, ends_checkedMul, ends_checkedAdd, hmul, hhdr, true_implies,
    not_true_eq_false, false_implies, and_true]
  rw [L.ends_contents L.shstrndx, L.ends_find n (Nat.zero_add _), List.drop_zero]
  cases sections.find? (·.name = n) <;> rfl

theorem elfSectionData_eq (n : String) :
    elfSectionData L.image.bytes n = c.reader.sectionData L.image.bytes n le := by
  have hlen : 16 ≤ L.image.bytes.length := by
    have h := (holds_iff.mp L.ehdr_shoff.2).1
    have h16 : 16 ≤ position c.ehdr .shoff := by cases c <;> decide
    omega
  obtain ⟨p, t, hbytes, hp⟩ := L.ident
  rw [List.length_eq_zero_iff.mp hp, List.nil_append] at hbytes
  rw [hbytes] at hlen ⊢
  have hslice : sliceTo (magic ++ [c.code, if le then 1 else 2] ++ t) 4 = pure magic :=
    if_pos (by omega)
  have hcls : index (magic ++ [c.code, if le then 1 else 2] ++ t) 4 = pure c.code := rfl
  have hendian : index (magic ++ [c.code, if le then 1 else 2] ++ t) 5 =
      pure (if le then 1 else 2) := rfl
  unfold elfSectionData
  rw [if_neg (by omega)]
  simp only [hslice, hcls, hendian, pure_bind]
  cases c <;> cases le <;> rfl

/-- **The search finds the first section of a name**, or says that there is none, in every layout
`L` of the sections.  A layout may be of either class and byte order, with the headers, the names
and the contents anywhere and any bytes in between, and the result depends on none of it. -/
theorem run_elfSectionData (n : String) :
    (elfSectionData L.image.bytes n).run =
        .ok ((sections.find? (·.name = n)).map (·.contents)) ∧
      ∀ c' le' (L' : Layout c' le' sections),
        (elfSectionData L'.image.bytes n).run = (elfSectionData L.image.bytes n).run := by
  simp only [elfSectionData_eq, run_sectionData, implies_true, and_true]

end Layout

end Elf
end Micronet
