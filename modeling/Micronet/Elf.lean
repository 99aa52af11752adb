import Micronet.Slices

/-!
# Sections of an ELF image

The search for a section by its name.  There are two readers, for images of 32 and of
64 bits, and both read either byte order; they differ in where a field is and how
wide an address is.

The offsets are the image's own.  Most sums of them are checked, but not those of a
header and a field in it, and the header of the string table is the first that is
read: the 64-bit reader panics where it is less than 32 bytes before the last address
(`elfSectionData_safe_iff`).  Every header after it is near one that was read.
-/
namespace Micronet
open Slices

namespace Elf

/-- `"\x7fELF"`. -/
def magic : List UInt8 := [0x7f, 0x45, 0x4c, 0x46]

def u16At (data : List UInt8) (off : Nat) (le : Bool) : Checked Nat := uintAt data 2 off le

def u32At (data : List UInt8) (off : Nat) (le : Bool) : Checked Nat := uintAt data 4 off le

def u64At (data : List UInt8) (off : Nat) (le : Bool) : Checked Nat := uintAt data 8 off le

/-- `std::str::from_utf8`. -/
def fromUtf8 (bytes : List UInt8) : Option String := String.fromUTF8? bytes.toByteArray

def cstrAt (data : List UInt8) (off : Nat) : Checked String := do
  let slice ← getFrom data off
  let stop := (slice.findIdx? (· == 0)).getD slice.length
  let bytes ← sliceTo slice stop
  ofOption (fromUtf8 bytes)

/-- What the two readers differ in. -/
structure Reader where
  /-- The reader of an address. -/
  wordAt : List UInt8 → Nat → Bool → Checked Nat
  shoff : Nat
  shentsize : Nat
  shnum : Nat
  shstrndx : Nat
  /-- The least size of a section header. -/
  entry : Nat
  /-- In a section header, where its contents begin. -/
  offset : Nat
  size : Nat

namespace Reader
variable (r : Reader)

/-- The contents that the header at `hdr` names, the string table's like any other's. -/
def contents (data : List UInt8) (hdr : Nat) (le : Bool) : Checked (List UInt8) := do
  let offset ← r.wordAt data (← add hdr r.offset) le
  let size ← r.wordAt data (← add hdr r.size) le
  get data offset (← checkedAdd offset size)

/-- The loop over the headers `i`, `i + 1`, …, of which there are `n`. -/
def find (data strtab : List UInt8) (name : String) (le : Bool) (shoff shentsize : Nat) :
    Nat → Nat → Checked (List UInt8)
  | _, 0 => failure
  | i, n + 1 => do
    let hdr ← checkedAdd shoff (← checkedMul i shentsize)
    let nameOff ← u32At data hdr le
    let secName ← cstrAt strtab nameOff
    if secName ≠ name then
      find data strtab name le shoff shentsize (i + 1) n
    else
      r.contents data hdr le

def sectionData (data : List UInt8) (name : String) (le : Bool) : Checked (List UInt8) := do
  let shoff ← r.wordAt data r.shoff le
  let shentsize ← u16At data r.shentsize le
  let shnum ← u16At data r.shnum le
  let shstrndx ← u16At data r.shstrndx le
  if shentsize < r.entry ∨ shnum = 0 ∨ shstrndx ≥ shnum then
    failure
  else
    let strHdr ← checkedAdd shoff (← checkedMul shstrndx shentsize)
    let strtab ← r.contents data strHdr le
    r.find data strtab name le shoff shentsize 0 shnum

end Reader

def elf64 : Reader where
  wordAt := u64At
  shoff := 40
  shentsize := 58
  shnum := 60
  shstrndx := 62
  entry := 64
  offset := 24
  size := 32

def elf64Section : List UInt8 → String → Bool → Checked (List UInt8) := elf64.sectionData

def elf32 : Reader where
  wordAt := u32At
  shoff := 32
  shentsize := 46
  shnum := 48
  shstrndx := 50
  entry := 40
  offset := 16
  size := 20

def elf32Section : List UInt8 → String → Bool → Checked (List UInt8) := elf32.sectionData

def elfSectionData (data : List UInt8) (name : String) : Checked (List UInt8) :=
  if data.length < 16 then
    failure
  else do
    if (← sliceTo data 4) ≠ magic then
      failure
    else
      let cls ← index data 4
      let endian ← index data 5
      let le := endian == 1
      if !le ∧ endian ≠ 2 then
        failure
      else if cls = 1 then
        elf32Section data name le
      else if cls = 2 then
        elf64Section data name le
      else
        failure

/-! ## How the readers end -/

/-- The bytes at `off`, up to the next NUL. -/
def cstr (data : List UInt8) (off : Nat) : List UInt8 := (data.drop off).takeWhile (· ≠ 0)

section Ends
variable {data strtab : List UInt8} {name : String} {le : Bool} {off : Nat} {N P : Prop}

@[simp] theorem ends_cstrAt {V : String → Prop} :
    Ends (cstrAt data off) V N P ↔
      (off ≤ data.length → (∀ s, fromUtf8 (cstr data off) = some s → V s) ∧
        (fromUtf8 (cstr data off) = none → N)) ∧ (¬ off ≤ data.length → N) := by
  have hstop (l : List UInt8) : (l.findIdx? (· == 0)).getD l.length = l.findIdx (· == 0) :=
    List.findIdx_eq_getD_findIdx?.symm
  have htake (l : List UInt8) : l.take (l.findIdx (· == 0)) = l.takeWhile (· ≠ 0) := by
    rw [List.takeWhile_eq_take_findIdx_not]
    simp [beq_eq_decide]
  have hle (l : List UInt8) : l.findIdx (· == 0) ≤ l.length := List.findIdx_le_length
  simp [cstrAt, hstop, htake, hle, cstr]

@[simp] theorem ends_u16At {V : Nat → Prop} :
    Ends (u16At data off le) V N P ↔
      (off + 2 < 2 ^ 64 → (off + 2 ≤ data.length → V (uint data 2 off le)) ∧
        (¬ off + 2 ≤ data.length → N)) ∧ (¬ off + 2 < 2 ^ 64 → P) := ends_uintAt

@[simp] theorem ends_u32At {V : Nat → Prop} :
    Ends (u32At data off le) V N P ↔
      (off + 4 < 2 ^ 64 → (off + 4 ≤ data.length → V (uint data 4 off le)) ∧
        (¬ off + 4 ≤ data.length → N)) ∧ (¬ off + 4 < 2 ^ 64 → P) := ends_uintAt

namespace Reader
variable {r : Reader} {word shoff shentsize : Nat}

/-- What the readers have in common: an address has `word` bytes, and the two of a
section header are one after the other. -/
structure Regular (r : Reader) (word : Nat) : Prop where
  /-- Offsets and sizes are read as integers of `word` bytes. -/
  wordAt : ∀ data off le, r.wordAt data off le = uintAt data word off le
  /-- The size of a section follows its offset. -/
  adjacent : r.offset + word = r.size
  /-- They have 4 bytes or 8. -/
  le_word : 4 ≤ word
  word_le : word ≤ 8
  /-- Every field that is read is in the first 64 bytes of its header. -/
  size_le : r.size + word ≤ 64
  header_le : r.shoff + word ≤ 64 ∧ r.shentsize + 2 ≤ 64 ∧ r.shnum + 2 ≤ 64 ∧ r.shstrndx + 2 ≤ 64

/-- A header whose second address does not begin past the last word is read safely. -/
theorem ends_contents (hr : r.Regular word) (hdata : data.length < 2 ^ 63) {hdr : Nat}
    (h : hdr + r.size < 2 ^ 64) : Ends (r.contents data hdr le) (· <:+: data) True False := by
  have hadj := hr.adjacent
  have hword := hr.word_le
  simp only [contents, ends_bind, ends_add, hr.wordAt, ends_uintAt, ends_checkedAdd, ends_get,
    implies_true, and_true]
  refine ⟨fun hoff => ⟨fun hend hread => ?_, fun hn => hn (by omega)⟩, fun hn => hn (by omega)⟩
  refine ⟨fun _ => ⟨fun _ _ _ _ => ?_, fun hn => hn (by omega)⟩, fun hn => hn (by omega)⟩
  exact (List.take_prefix _ _).isInfix.trans (List.drop_suffix _ _).isInfix

/-- One that does panics. -/
theorem ends_contents_overflow (hr : r.Regular word) {V : List UInt8 → Prop} {hdr : Nat}
    (h : ¬ hdr + r.size < 2 ^ 64) : Ends (r.contents data hdr le) V N P ↔ P := by
  have hadj := hr.adjacent
  simp only [contents, ends_bind, ends_add, hr.wordAt, ends_uintAt]
  have hend : ¬ hdr + r.offset + word < 2 ^ 64 := by omega
  constructor
  · intro hends
    by_cases hoff : hdr + r.offset < 2 ^ 64
    · exact (hends.1 hoff).2 hend
    · exact hends.2 hoff
  · exact fun hP => ⟨fun _ => ⟨fun h' => absurd h' hend, fun _ => hP⟩, fun _ => hP⟩

theorem ends_find (hr : r.Regular word) (hdata : data.length < 2 ^ 63)
    (hentsize : shentsize < 2 ^ 16) {i n : Nat} (hi : shoff + i * shentsize + 4 < 2 ^ 64) :
    Ends (r.find data strtab name le shoff shentsize i n) (· <:+: data) True False := by
  induction n generalizing i with
  | zero => exact trivial
  | succ n ih =>
    simp only [find, ends_bind, ends_checkedMul, ends_checkedAdd, ends_u32At, ends_cstrAt,
      ends_ite, implies_true, and_true]
    intro _ _
    refine ⟨fun _ hread _ s _ => ⟨fun _ => ih ?_, fun _ => ?_⟩, fun h => h hi⟩
    · -- the next header is near the one that was read
      rw [Nat.add_one_mul]
      omega
    · have hsize := hr.size_le
      exact ends_contents hr hdata (by omega)

/-- The image's header can be read, and in it the string table's section header is where
the reader's additions have no sum. -/
def Overflows (r : Reader) (word : Nat) (data : List UInt8) (le : Bool) : Prop :=
  r.shoff + word ≤ data.length ∧ r.shentsize + 2 ≤ data.length ∧ r.shnum + 2 ≤ data.length ∧
    r.shstrndx + 2 ≤ data.length ∧ r.entry ≤ uint data 2 r.shentsize le ∧
    uint data 2 r.shstrndx le < uint data 2 r.shnum le ∧
    uint data word r.shoff le + uint data 2 r.shstrndx le * uint data 2 r.shentsize le < 2 ^ 64 ∧
    ¬ uint data word r.shoff le + uint data 2 r.shstrndx le * uint data 2 r.shentsize le + r.size <
      2 ^ 64

theorem ends_sectionData (hr : r.Regular word) (hdata : data.length < 2 ^ 63) :
    Ends (r.sectionData data name le) (· <:+: data) True False ↔ ¬ r.Overflows word data le := by
  obtain ⟨h1, h2, h3, h4⟩ := hr.header_le
  -- no field of the image's header is near the last address
  have hshoff : r.shoff + word < 2 ^ 64 := by omega
  have hshentsize : r.shentsize + 2 < 2 ^ 64 := by omega
  have hshnum : r.shnum + 2 < 2 ^ 64 := by omega
  have hshstrndx : r.shstrndx + 2 < 2 ^ 64 := by omega
  simp only [sectionData, ends_bind, hr.wordAt, ends_uintAt, ends_u16At, ends_ite, ends_failure,
    ends_checkedMul, ends_checkedAdd, hshoff, hshentsize, hshnum, hshstrndx, true_implies,
    not_true_eq_false, false_implies, implies_true, and_true, true_and]
  have hentsize : uint data 2 r.shentsize le < 2 ^ 16 := uint_lt
  constructor
  · rintro hends ⟨hl1, hl2, hl3, hl4, hentry, hndx, hsum, hover⟩
    exact (ends_contents_overflow hr hover).mp
      (hends hl1 hl2 hl3 hl4 (by omega) (by omega) hsum)
  · intro hno hl1 hl2 hl3 hl4 hguard _ hsum
    have hover : uint data word r.shoff le +
        uint data 2 r.shstrndx le * uint data 2 r.shentsize le + r.size < 2 ^ 64 := by
      by_contra hover
      exact hno ⟨hl1, hl2, hl3, hl4, by omega, by omega, hsum, hover⟩
    refine (ends_contents hr hdata hover).mono fun strtab _ => ends_find hr hdata hentsize ?_
    have hadj := hr.adjacent
    have hword := hr.le_word
    omega

end Reader

theorem regular_elf64 : elf64.Regular 8 where
  wordAt _ _ _ := rfl
  adjacent := rfl
  le_word := by omega
  word_le := le_refl 8
  size_le := by simp [elf64]
  header_le := by simp [elf64]

theorem regular_elf32 : elf32.Regular 4 where
  wordAt _ _ _ := rfl
  adjacent := rfl
  le_word := le_refl 4
  word_le := by omega
  size_le := by simp [elf32]
  header_le := by simp [elf32]

/-- Addresses of 32 bits are far from the last one. -/
theorem not_overflows_elf32 : ¬ elf32.Overflows 4 data le := by
  rintro ⟨-, -, -, -, -, -, -, hover⟩
  have hshoff : uint data 4 32 le < 2 ^ 32 := uint_lt
  have hndx : uint data 2 50 le < 2 ^ 16 := uint_lt
  have hentsize : uint data 2 46 le < 2 ^ 16 := uint_lt
  have hmul := Nat.mul_lt_mul'' hndx hentsize
  have hsum : uint data 4 32 le + uint data 2 50 le * uint data 2 46 le + 20 < 2 ^ 64 := by omega
  exact hover hsum

end Ends

/-! ## Panics -/

/-- A 64-bit image whose header can be read, with a string table whose section header is
less than 32 bytes before the last address. -/
def Exposed (data : List UInt8) : Prop :=
  data.take 4 = magic ∧ data[4]? = some 2 ∧ ∃ le : Bool, data[5]? = some (if le then 1 else 2) ∧
    64 ≤ data.length ∧ 64 ≤ uint data 2 58 le ∧ uint data 2 62 le < uint data 2 60 le ∧
    2 ^ 64 - 32 ≤ uint data 8 40 le + uint data 2 62 le * uint data 2 58 le ∧
    uint data 8 40 le + uint data 2 62 le * uint data 2 58 le < 2 ^ 64

theorem overflows_elf64 {data : List UInt8} {le : Bool} :
    elf64.Overflows 8 data le ↔
      64 ≤ data.length ∧ 64 ≤ uint data 2 58 le ∧ uint data 2 62 le < uint data 2 60 le ∧
        2 ^ 64 - 32 ≤ uint data 8 40 le + uint data 2 62 le * uint data 2 58 le ∧
        uint data 8 40 le + uint data 2 62 le * uint data 2 58 le < 2 ^ 64 := by
  show 40 + 8 ≤ data.length ∧ 58 + 2 ≤ data.length ∧ 60 + 2 ≤ data.length ∧ 62 + 2 ≤ data.length ∧
    64 ≤ uint data 2 58 le ∧ uint data 2 62 le < uint data 2 60 le ∧
    uint data 8 40 le + uint data 2 62 le * uint data 2 58 le < 2 ^ 64 ∧
    ¬ uint data 8 40 le + uint data 2 62 le * uint data 2 58 le + 32 < 2 ^ 64 ↔ _
  omega

/-- **The search gives `none` or a part of the image, but on exposed images**, where a sum
overflows.  It is so for every byte string that fits in memory, an image or not, and for every
name. -/
theorem elfSectionData_safe_iff (data : Slice) (name : String) :
    Ends (elfSectionData data.bytes name) (· <:+: data.bytes) True False ↔
      ¬ Exposed data.bytes := by
  obtain ⟨data, hdata⟩ := data
  simp only [elfSectionData, ends_ite, ends_bind, ends_sliceTo, ends_index, ends_failure,
    elf32Section, elf64Section, Reader.ends_sectionData regular_elf32 hdata,
    Reader.ends_sectionData regular_elf64 hdata, not_overflows_elf32, overflows_elf64,
    not_false_eq_true, implies_true, true_and, and_true]
  constructor
  · rintro hends ⟨hmagic, hcls, le, hendian, hlen, hover⟩
    obtain ⟨hfields, -⟩ := (hends (by omega)).1 (by omega) (not_not.mpr hmagic)
    have hno := (hfields 2 hcls).1 _ hendian
    cases le with
    | true => exact hno (by simp) (by decide) rfl ⟨hlen, hover⟩
    | false => exact hno (by simp) (by decide) rfl ⟨hlen, hover⟩
  · intro hno hlen
    have hsome {i : Nat} (hi : i < 16) : data[i]? ≠ none := by
      rw [Ne, List.getElem?_eq_none_iff]
      omega
    refine ⟨fun _ hmagic => ⟨fun cls hcls => ⟨fun endian hendian => ?_, hsome (by omega)⟩,
      hsome (by omega)⟩, fun h => h (by omega)⟩
    intro hle _ h64 hover
    refine hno ⟨not_not.mp hmagic, h64 ▸ hcls, endian == 1, hendian.trans ?_, hover⟩
    by_cases h1 : endian = 1
    · simp [h1]
    · have h2 : endian = 2 := by simpa [h1] using hle
      simp [h2]

/-- An image of one header, whose table begins 16 bytes before the last address. -/
theorem elfSectionData_overflows : ∃ data : Slice, data.bytes.length = 64 ∧
    data.bytes = magic ++ [2, 1, 1] ++ List.replicate 33 0 ++ toBytes true 8 (2 ^ 64 - 16) ++
      List.replicate 10 0 ++ toBytes true 2 64 ++ toBytes true 2 1 ++ toBytes true 2 0 ∧
    (elfSectionData data.bytes ".micronet.version").run = .error .overflow ∧
    ¬ Ends (elfSectionData data.bytes ".micronet.version") (· <:+: data.bytes) True False := by
  have hrun : (elfSectionData (magic ++ [2, 1, 1] ++ List.replicate 33 0 ++
      toBytes true 8 (2 ^ 64 - 16) ++ List.replicate 10 0 ++ toBytes true 2 64 ++
      toBytes true 2 1 ++ toBytes true 2 0) ".micronet.version").run = .error .overflow := by
    decide +kernel
  refine ⟨⟨_, by simp [magic]⟩, by simp [magic], rfl, hrun, ?_⟩
  unfold Ends
  rw [hrun]
  exact id

end Elf
end Micronet
