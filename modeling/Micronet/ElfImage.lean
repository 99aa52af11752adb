import Micronet.ElfLayout

/-!
# Images

A list of sections that has a string table, and that is not too large, has a layout in
each of the four encodings: the header, the contents of the sections one after the
other, and the section headers.
-/
namespace Micronet
open Slices

namespace Elf

/-- The first sixteen bytes. -/
def identBytes (c : Class) (le : Bool) : List UInt8 :=
  magic ++ [c.code, if le then 1 else 2] ++ List.replicate 10 0

def Class.ehdrSize (c : Class) : Nat := (c.ehdr.map (·.2)).sum

/-- What an image is made of: its sections, the index of their string table, and where
in it their names are. -/
structure Parts where
  sections : List Section
  /-- Which of the sections is the string table. -/
  shstrndx : Fin sections.length
  /-- Where in it each section's name stands, with a NUL after it. -/
  name : Fin sections.length → Nat
  names : ∀ i, Holds (sections.get shstrndx).contents (name i)
    ((sections.get i).name.toUTF8.data.toList ++ [0])
  /-- Everything fits in 31 bits, with headers of the larger kind. -/
  size_lt : 64 + (sections.map (·.contents.length)).sum + sections.length * 64 < 2 ^ 31
  count_lt : sections.length < 2 ^ 16

namespace Parts
variable (p : Parts) (c : Class) (le : Bool)

def body : List UInt8 := (p.sections.map (·.contents)).flatten

/-- Where the contents of a section are. -/
def offset (i : Nat) : Nat :=
  c.ehdrSize + ((p.sections.take i).map (·.contents.length)).sum

def shoff : Nat := c.ehdrSize + p.body.length

def ehdrValue : EhdrField → Nat
  | .ident => ofBytes le (identBytes c le)
  | .shoff => p.shoff c
  | .shentsize => c.shdrSize
  | .shnum => p.sections.length
  | .shstrndx => p.shstrndx
  | _ => 0

def shdrValue (i : Fin p.sections.length) : ShdrField → Nat
  | .name => p.name i
  | .offset => p.offset c i
  | .size => p.sections[i].contents.length
  | _ => 0

def shdrs : List (List UInt8) := List.ofFn fun i => record c.shdr (p.shdrValue c i) le

def image : List UInt8 :=
  record c.ehdr (p.ehdrValue c le) le ++ p.body ++ (p.shdrs c le).flatten

theorem length_body : p.body.length = (p.sections.map (·.contents.length)).sum := by
  simp [body, List.length_flatten, Function.comp_def]

theorem holds_ehdr : Holds (p.image c le) 0 (record c.ehdr (p.ehdrValue c le) le) :=
  ⟨[], p.body ++ (p.shdrs c le).flatten, by simp [image], rfl⟩

theorem holds_body : Holds (p.image c le) c.ehdrSize p.body :=
  ⟨record c.ehdr (p.ehdrValue c le) le, (p.shdrs c le).flatten, rfl, length_record _⟩

theorem holds_shdrs : Holds (p.image c le) (p.shoff c) (p.shdrs c le).flatten := by
  refine ⟨record c.ehdr (p.ehdrValue c le) le ++ p.body, [], by simp [image], ?_⟩
  rw [List.length_append, length_record]
  rfl

theorem holds_contents (i : Fin p.sections.length) :
    Holds (p.image c le) (p.offset c i) p.sections[i].contents := by
  have hpart := holds_flatten (p.sections.map (·.contents)) (i := i) (by simp)
  rw [← List.map_take, List.map_map, List.getElem_map] at hpart
  exact (p.holds_body c le).trans hpart

theorem length_shdrs {l : List UInt8} (hl : l ∈ p.shdrs c le) : l.length = c.shdrSize := by
  obtain ⟨i, rfl⟩ := List.mem_ofFn.mp hl
  exact length_record _

theorem holds_shdr (i : Fin p.sections.length) :
    Holds (p.image c le) (p.shoff c + i * c.shdrSize) (record c.shdr (p.shdrValue c i) le) := by
  have hi : (i : Nat) < (p.shdrs c le).length := by simp [shdrs]
  have hrow : (p.shdrs c le)[(i : Nat)] = record c.shdr (p.shdrValue c i) le := by simp [shdrs]
  have hpart := holds_flatten_even (p.shdrs c le) (fun l => p.length_shdrs c le) hi
  exact (p.holds_shdrs c le).trans (hrow ▸ hpart)

theorem length_image :
    (p.image c le).length = c.ehdrSize + p.body.length + p.sections.length * c.shdrSize := by
  have htable : (p.shdrs c le).flatten.length = p.sections.length * c.shdrSize := by
    have hlens : (p.shdrs c le).map List.length = List.replicate p.sections.length c.shdrSize := by
      refine List.eq_replicate_iff.mpr ⟨by simp [shdrs], fun n hn => ?_⟩
      obtain ⟨l, hl, rfl⟩ := List.mem_map.mp hn
      exact p.length_shdrs c le hl
    rw [List.length_flatten, hlens, List.sum_replicate_nat]
  rw [image, List.length_append, List.length_append, length_record, htable]
  rfl

theorem image_lt : (p.image c le).length < 2 ^ 31 := by
  have hsize := p.size_lt
  have hheaders : c.ehdrSize ≤ 64 ∧ c.shdrSize ≤ 64 := by cases c <;> decide
  have hmul := Nat.mul_le_mul_left p.sections.length hheaders.2
  rw [length_image, length_body]
  omega

/-- What stands in the image, and where it stands, is less than `2 ^ 31`. -/
theorem lt_word {off : Nat} {bs : List UInt8} (h : Holds (p.image c le) off bs) :
    off < 256 ^ c.word ∧ off < 256 ^ 4 ∧ bs.length < 256 ^ c.word := by
  have hlen := (holds_iff.mp h).1
  have himage := p.image_lt c le
  have hword : 2 ^ 32 ≤ 256 ^ c.word := by cases c <;> decide
  have h4 : 256 ^ 4 = 2 ^ 32 := by decide
  omega

theorem holds_ident :
    Holds (p.image c le) 0 (magic ++ [c.code, if le then 1 else 2]) := by
  have hident := (p.holds_ehdr c le).trans (holds_record (f := .ident) (p.ehdrValue c le)
    (by simp [Class.ehdr]))
  have hbytes : toBytes le 16 (ofBytes le (identBytes c le)) = identBytes c le :=
    toBytes_ofBytes le (identBytes c le)
  exact (Holds.append (hbytes ▸ hident)).1

theorem stores_ehdr {f : EhdrField} {w : Nat} (hw : width c.ehdr f = w)
    (h : p.ehdrValue c le f < 256 ^ w) :
    Stores c.ehdr (p.image c le) 0 le f (p.ehdrValue c le f) :=
  stores_record (p.holds_ehdr c le) (by cases f <;> simp [Class.ehdr]) (hw ▸ h)

theorem stores_shdr (i : Fin p.sections.length) {f : ShdrField} {w : Nat}
    (hw : width c.shdr f = w) (h : p.shdrValue c i f < 256 ^ w) :
    Stores c.shdr (p.image c le) (p.shoff c + i * c.shdrSize) le f (p.shdrValue c i f) :=
  stores_record (p.holds_shdr c le i) (by cases f <;> simp [Class.shdr]) (hw ▸ h)

theorem name_lt (i : Fin p.sections.length) : p.name i < 256 ^ 4 := by
  have hname := (p.holds_contents .elf32 true p.shstrndx).trans (p.names i)
  have hlt := (p.lt_word .elf32 true hname).2.1
  omega

theorem shdrSize_lt : c.shdrSize < 256 ^ 2 := by cases c <;> decide

/-- **The layout.** -/
def layout : Layout c le p.sections where
  image := ⟨p.image c le, (p.image_lt c le).trans (by decide)⟩
  shoff := p.shoff c
  shentsize := c.shdrSize
  shstrndx := p.shstrndx
  name := p.name
  offset i := p.offset c i
  ident := p.holds_ident c le
  ehdr_shoff := p.stores_ehdr c le c.widths.1 (p.lt_word c le (p.holds_shdrs c le)).1
  ehdr_shentsize := p.stores_ehdr c le c.widths.2.1 (shdrSize_lt c)
  ehdr_shnum := p.stores_ehdr c le c.widths.2.2.1 p.count_lt
  ehdr_shstrndx := p.stores_ehdr c le c.widths.2.2.2.1 (p.shstrndx.isLt.trans p.count_lt)
  shdrSize_le := le_refl _
  shdr_name i := p.stores_shdr c le i c.widths.2.2.2.2.1 (p.name_lt i)
  shdr_offset i := p.stores_shdr c le i c.widths.2.2.2.2.2.1
    (p.lt_word c le (p.holds_contents c le i)).1
  shdr_size i := p.stores_shdr c le i c.widths.2.2.2.2.2.2
    (p.lt_word c le (p.holds_contents c le i)).2.2
  contents i := p.holds_contents c le i
  names := p.names

/-- **It is found there what was put in**, whatever the encoding. -/
theorem run_image (n : String) :
    (elfSectionData (p.image c le) n).run =
      .ok ((p.sections.find? (·.name = n)).map (·.contents)) := by
  have h := (p.layout c le).elfSectionData_eq n
  exact (congrArg OptionT.run h).trans ((p.layout c le).run_sectionData n)

end Parts

end Elf
end Micronet
