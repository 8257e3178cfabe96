import Mathlib.Data.List.Infix
import Wirerust.Machine

/-!
Functions of Rust's `str` and `String` that the analyzers use.
-/

namespace Wirerust.Text

/-- `str::contains`. -/
def contains (s pattern : String) : Bool :=
  s.toList.tails.any fun rest => pattern.toList.isPrefixOf rest

theorem contains_iff (s pattern : String) :
    contains s pattern = true ↔ pattern.toList <:+: s.toList := by
  simp only [contains, List.any_eq_true, List.mem_tails, List.isPrefixOf_iff_prefix,
    List.infix_iff_prefix_suffix, and_comm]

/-- `u8::to_ascii_lowercase`, on a character. -/
def asciiLower (c : Char) : Char := if 'A' ≤ c ∧ c ≤ 'Z' then Char.ofNat (c.toNat + 32) else c

/-- `u8::to_ascii_uppercase`, on a character. -/
def asciiUpper (c : Char) : Char := if 'a' ≤ c ∧ c ≤ 'z' then Char.ofNat (c.toNat - 32) else c

/-- `char::to_lowercase`, but for letters whose lowercase has nothing of ASCII in it, which are left
as they are. -/
def lowercaseOf (c : Char) : List Char :=
  match c.toNat with
  | 0x130 => ['i', Char.ofNat 0x307]
  | 0x212a => ['k']
  | _ => [asciiLower c]

/-- `char::to_uppercase`, but for letters whose uppercase has nothing of ASCII in it. -/
def uppercaseOf (c : Char) : List Char :=
  match c.toNat with
  | 0xdf => ['S', 'S']
  | 0x131 => ['I']
  | 0x149 => [Char.ofNat 0x2bc, 'N']
  | 0x17f => ['S']
  | 0x1f0 => ['J', Char.ofNat 0x30c]
  | 0x1e96 => ['H', Char.ofNat 0x331]
  | 0x1e97 => ['T', Char.ofNat 0x308]
  | 0x1e98 => ['W', Char.ofNat 0x30a]
  | 0x1e99 => ['Y', Char.ofNat 0x30a]
  | 0x1e9a => ['A', Char.ofNat 0x2be]
  | 0xfb00 => ['F', 'F']
  | 0xfb01 => ['F', 'I']
  | 0xfb02 => ['F', 'L']
  | 0xfb03 => ['F', 'F', 'I']
  | 0xfb04 => ['F', 'F', 'L']
  | 0xfb05 => ['S', 'T']
  | 0xfb06 => ['S', 'T']
  | _ => [asciiUpper c]

/-- `str::to_lowercase`, for a text in which only ASCII is searched for. -/
def toLowercase (s : String) : String := String.ofList (s.toList.flatMap lowercaseOf)

/-- `str::to_uppercase`, for a text in which only ASCII is searched for. -/
def toUppercase (s : String) : String := String.ofList (s.toList.flatMap uppercaseOf)

def eqIgnoreAsciiCase (a b : String) : Bool := a.toList.map asciiLower = b.toList.map asciiLower

/-- `char::is_whitespace`, the property `White_Space`. -/
def isWhitespace (c : Char) : Bool :=
  let n := c.toNat
  (9 ≤ n ∧ n ≤ 13) || n = 0x20 || n = 0x85 || n = 0xa0 || n = 0x1680 ||
    (0x2000 ≤ n ∧ n ≤ 0x200a) || n = 0x2028 || n = 0x2029 || n = 0x202f || n = 0x205f || n = 0x3000

/-- `str::trim`. -/
def trim (s : String) : String :=
  let trimStart := fun cs : List Char => cs.dropWhile isWhitespace
  String.ofList (trimStart (trimStart s.toList).reverse).reverse

/-- The characters that end within the first `limit` bytes. -/
def takeBytes : Nat → List Char → List Char
  | _, [] => []
  | limit, c :: cs => if c.utf8Size ≤ limit then c :: takeBytes (limit - c.utf8Size) cs else []

/-- `&s[..s.floor_char_boundary(limit)]`. -/
def floorBoundary (s : String) (limit : Nat) : String := String.ofList (takeBytes limit s.toList)

/-! ## UTF-8 -/

def isContinuation (b : UInt8) : Bool := 0x80 ≤ b && b ≤ 0xbf

/-- What the second byte of a longer sequence can be after the first one. -/
def secondOk (first second : UInt8) : Bool :=
  if first = 0xe0 then 0xa0 ≤ second && second ≤ 0xbf
  else if first = 0xed then 0x80 ≤ second && second ≤ 0x9f
  else if first = 0xf0 then 0x90 ≤ second && second ≤ 0xbf
  else if first = 0xf4 then 0x80 ≤ second && second ≤ 0x8f
  else isContinuation second

/-- How many bytes a sequence has that begins with `b`; none begins with a byte of which this
is 0. -/
def utf8Width (b : UInt8) : Nat :=
  if b ≤ 0x7f then 1
  else if 0xc2 ≤ b && b ≤ 0xdf then 2
  else if 0xe0 ≤ b && b ≤ 0xef then 3
  else if 0xf0 ≤ b && b ≤ 0xf4 then 4
  else 0

/-- How many of the bytes after `first` go on with its sequence, of at most `width - 1`. -/
def goodBytes (first : UInt8) (width : Nat) : List UInt8 → Nat
  | [] => 0
  | second :: rest =>
    if width ≥ 2 && secondOk first second then
      1 + ((rest.take (width - 2)).takeWhile isContinuation).length
    else 0

def codePoint (first : UInt8) (width : Nat) (more : List UInt8) : Nat :=
  let head := if width = 2 then first.toNat - 0xc0 else if width = 3 then first.toNat - 0xe0
    else if width = 4 then first.toNat - 0xf0 else first.toNat
  more.foldl (fun n b => 64 * n + (b.toNat - 0x80)) head

/-- The first character, and how many bytes it has; `none` for a longest broken sequence. -/
def decodeChar : List UInt8 → Option (Option Char × Nat)
  | [] => none
  | first :: rest =>
    let width := utf8Width first
    let good := goodBytes first width rest
    if width ≥ 1 && good + 1 = width then
      some (some (Char.ofNat (codePoint first width (rest.take good))), width)
    else some (none, good + 1)

def decodeChars : Nat → List UInt8 → List (Option Char)
  | 0, _ => []
  | turns + 1, bytes =>
    match decodeChar bytes with
    | none => []
    | some (c, n) => c :: decodeChars turns (bytes.drop n)

/-- `String::from_utf8_lossy`. -/
def fromUtf8Lossy (bytes : List UInt8) : String :=
  String.ofList ((decodeChars bytes.length bytes).map fun c => c.getD '\uFFFD')

/-- `str::from_utf8`. -/
def fromUtf8 (bytes : List UInt8) : Option String :=
  let chars := decodeChars bytes.length bytes
  if chars.all Option.isSome then some (String.ofList (chars.filterMap id)) else none

def isAscii (s : String) : Bool := s.toList.all fun c => c.toNat < 0x80

/-- `{:0width$x}`. -/
def hexLower (width n : Nat) : String :=
  String.ofList ((Nat.toDigits 16 n).leftpad width '0')

end Wirerust.Text
