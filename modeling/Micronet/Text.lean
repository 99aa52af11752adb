import Mathlib.Algebra.Order.Ring.Nat

/-!
# Text, as Rust's standard library reads it

The string functions are on lists of characters, which is what `str` iterates
over; lengths are UTF-8 byte lengths, as `str::len` counts them.
-/
namespace RustText

/-- `char::is_whitespace`: the Unicode `White_Space` property. -/
def isWhitespace (c : Char) : Bool :=
  let n := c.toNat
  (9 ≤ n && n ≤ 13) || n == 0x20 || n == 0x85 || n == 0xA0 || n == 0x1680 ||
    (0x2000 ≤ n && n ≤ 0x200A) || n == 0x2028 || n == 0x2029 || n == 0x202F || n == 0x205F ||
    n == 0x3000

/-- `str::trim_end_matches` with a predicate. -/
def trimEndMatches (p : Char → Bool) (s : List Char) : List Char :=
  (s.reverse.dropWhile p).reverse

/-- `str::trim`. -/
def trim (s : List Char) : List Char :=
  trimEndMatches isWhitespace (s.dropWhile isWhitespace)

/-- `str::strip_suffix` with one character. -/
def stripSuffix (c : Char) (s : List Char) : Option (List Char) :=
  if s.getLast? = some c then some s.dropLast else none

/-- `str::lines`: a line ends at `\n` or `\r\n`, and what is left at the end is one if it is
not empty. -/
def lines (s : List Char) : List (List Char) :=
  let parts := s.splitOn '\n'
  parts.dropLast.map (fun l => (stripSuffix '\r' l).getD l) ++
    (parts.getLast?.filter (· ≠ [])).toList

/-- `str::split_once` with a string. -/
def splitOnce (pat : List Char) : List Char → Option (List Char × List Char)
  | [] => if pat = [] then some ([], []) else none
  | c :: s =>
    if pat.isPrefixOf (c :: s) then some ([], (c :: s).drop pat.length)
    else (splitOnce pat s).map fun p => (c :: p.1, p.2)

/-- `str::split` with a string, then `nth(1)`. -/
def secondPart (pat s : List Char) : Option (List Char) :=
  (splitOnce pat s).map fun p => ((splitOnce pat p.2).map Prod.fst).getD p.2

/-- `str::split_whitespace`, then `next()`. -/
def firstWord (s : List Char) : Option (List Char) :=
  match s.dropWhile isWhitespace with
  | [] => none
  | c :: s => some ((c :: s).takeWhile fun c => !isWhitespace c)

/-- `str::len`. -/
def byteLen (s : List Char) : Nat := (s.map Char.utf8Size).sum

/-- `u8::is_ascii_alphanumeric`; no byte of a non-ASCII character is one. -/
def isAsciiAlphanumeric (c : Char) : Bool :=
  ('0' ≤ c && c ≤ '9') || ('a' ≤ c && c ≤ 'z') || ('A' ≤ c && c ≤ 'Z')

/-- `char::to_ascii_lowercase`. -/
def toAsciiLowercase (c : Char) : Char :=
  if 'A' ≤ c ∧ c ≤ 'Z' then Char.ofNat (c.toNat + 32) else c

/-- The digits of a decimal integer below `bound`, after `acc`. -/
def parseDigits (bound : Nat) : List Char → Nat → Option Nat
  | [], acc => some acc
  | c :: s, acc =>
    if '0' ≤ c ∧ c ≤ '9' then
      -- `checked_mul(10)` and `checked_add(digit)`
      let n := acc * 10 + (c.toNat - '0'.toNat)
      if n < bound then parseDigits bound s n else none
    else none

/-- `FromStr` of an unsigned integer type with values below `bound`: an optional
`+`, then at least one decimal digit. -/
def parseUnsigned (bound : Nat) : List Char → Option Nat
  | [] => none
  | ['+'] => none
  | '+' :: s => parseDigits bound s 0
  | s => parseDigits bound s 0

/-- `FromStr` of `i32`: an optional sign, then at least one decimal digit. -/
def parseI32 : List Char → Option Int
  | ['-'] => none
  | '-' :: s => (parseDigits (2 ^ 31 + 1) s 0).map fun n => -(n : Int)
  | s => (parseUnsigned (2 ^ 31) s).map fun n => (n : Int)

/-- After the lead byte `a` of a character: its bits, and the ranges of the bytes that follow. -/
def utf8Lead (a : UInt8) : Option (Nat × List (UInt8 × UInt8)) :=
  let more := (0x80, 0xBF)
  if a ≤ 0x7F then some (a.toNat, [])
  else if a ≤ 0xC1 then none
  else if a ≤ 0xDF then some (a.toNat - 0xC0, [more])
  else if a = 0xE0 then some (0x0, [(0xA0, 0xBF), more])
  else if a = 0xED then some (0xD, [(0x80, 0x9F), more])
  else if a ≤ 0xEF then some (a.toNat - 0xE0, [more, more])
  else if a = 0xF0 then some (0x0, [(0x90, 0xBF), more, more])
  else if a ≤ 0xF3 then some (a.toNat - 0xF0, [more, more, more])
  else if a = 0xF4 then some (0x4, [(0x80, 0x8F), more, more])
  else none

/-- The rest of a character, and what comes after it; `U+FFFD` up to a byte out of range. -/
def utf8Tail : List (UInt8 × UInt8) → Nat → List UInt8 → Char × List UInt8
  | [], acc, s => (Char.ofNat acc, s)
  | _ :: _, _, [] => (Char.ofNat 0xFFFD, [])
  | (lo, hi) :: ranges, acc, b :: s =>
    if lo ≤ b ∧ b ≤ hi then utf8Tail ranges (acc * 64 + (b.toNat - 0x80)) s
    else (Char.ofNat 0xFFFD, b :: s)

/-- The first `n` characters; each takes a byte at least. -/
def utf8Chars : Nat → List UInt8 → List Char
  | 0, _ | _, [] => []
  | n + 1, a :: s =>
    match utf8Lead a with
    | none => Char.ofNat 0xFFFD :: utf8Chars n s
    | some (acc, ranges) =>
      let (c, rest) := utf8Tail ranges acc s
      c :: utf8Chars n rest

/-- `String::from_utf8_lossy`. -/
def fromUtf8Lossy (s : List UInt8) : List Char := utf8Chars s.length s

example : fromUtf8Lossy [0x61, 0xC3, 0xA9, 0xE2, 0x82, 0x62, 0xFF] =
    ['a', 'é', Char.ofNat 0xFFFD, 'b', Char.ofNat 0xFFFD] := by decide

/-- `Path::file_name`. -/
def fileName (path : List Char) : Option (List Char) :=
  -- `components` drops empty ones and `.`
  match ((path.splitOn '/').filter fun c => c ≠ [] ∧ c ≠ ['.']).getLast? with
  | some ['.', '.'] => none
  | last => last

/-- A piece of a formatted message: literal text, or a string shown with `{:?}`,
which is kept unexpanded. -/
inductive Piece
  | text (s : String)
  | debug (s : String)
deriving DecidableEq, Repr

/-- A formatted message. -/
abbrev Message : Type := List Piece

end RustText
