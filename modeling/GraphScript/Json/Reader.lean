/-
  GraphScript.Json.Reader — JSON text, read.

  Each function takes the characters that are left and returns a value with what is left after it. A
  failure names its reason and the characters left where it lies, from which the place in the text
  follows. Beyond the standard, `NaN`, `Infinity` and `-Infinity` are numbers; a whole number of
  more than `digitLimit` digits is refused. Of two fields with one key the later value stands in the
  earlier place.

  Blanks are space, tab, line feed and carriage return. Half of a surrogate pair alone is no character
  and cannot be written anywhere. It reads as U+FFFD, so what becomes of a string is told right only
  where the string has none.
-/
import GraphScript.Json.Basic

namespace GraphScript.Json

/-! ## Failures -/

inductive Reason where
  | byteOrderMark
  | value
  | propertyName
  | colon
  | comma
  | unterminated
  | control
  | escape
  | unicodeEscape
  | extraData
  deriving DecidableEq, Repr

def Reason.message : Reason → String
  | .byteOrderMark => "Unexpected UTF-8 BOM (decode using utf-8-sig)"
  | .value => "Expecting value"
  | .propertyName => "Expecting property name enclosed in double quotes"
  | .colon => "Expecting ':' delimiter"
  | .comma => "Expecting ',' delimiter"
  | .unterminated => "Unterminated string starting at"
  | .control => "Invalid control character at"
  | .escape => "Invalid \\escape"
  | .unicodeEscape => "Invalid \\uXXXX escape"
  | .extraData => "Extra data"

/-- A place in a text: characters before it, and its line and column, both from one. -/
structure Place where
  offset : Nat
  line : Nat
  column : Nat
  deriving DecidableEq, Repr

/-- The place with this many characters before it. -/
def Place.ofOffset (text : List Char) (offset : Nat) : Place :=
  let before := text.take offset
  ⟨offset, before.count '\n' + 1, (before.reverse.takeWhile (· ≠ '\n')).length + 1⟩

inductive ReadError where
  | malformed (reason : Reason) (place : Place)
  | longInteger (digits : Nat)
  deriving DecidableEq, Repr

def digitLimit : Nat := 4300

def ReadError.message : ReadError → String
  | .malformed reason place =>
    reason.message ++ ": line " ++ toString place.line ++ " column " ++ toString place.column
      ++ " (char " ++ toString place.offset ++ ")"
  | .longInteger digits =>
    "Exceeds the limit (" ++ toString digitLimit ++ " digits) for integer string conversion: value has "
      ++ toString digits ++ " digits; use sys.set_int_max_str_digits() to increase the limit"

/-- A failure while reading; `left` is what is left of the text where it lies. -/
inductive Stop where
  | malformed (reason : Reason) (left : List Char)
  | longInteger (digits : Nat)

/-! ## Blanks and digits -/

def isBlank (c : Char) : Bool := c = ' ' || c = '\t' || c = '\n' || c = '\r'

def skipBlanks (cs : List Char) : List Char := cs.dropWhile isBlank

def natOfDigits (ds : List Char) : Nat := ds.foldl (fun n d => 10 * n + (d.toNat - '0'.toNat)) 0

def hexDigit? (c : Char) : Option Nat :=
  if '0' ≤ c ∧ c ≤ '9' then some (c.toNat - '0'.toNat)
  else if 'a' ≤ c ∧ c ≤ 'f' then some (c.toNat - 'a'.toNat + 10)
  else if 'A' ≤ c ∧ c ≤ 'F' then some (c.toNat - 'A'.toNat + 10)
  else none

/-- The code unit of four hexadecimal digits. -/
def unit? (a b c d : Char) : Option Nat := do
  return (((← hexDigit? a) * 16 + (← hexDigit? b)) * 16 + (← hexDigit? c)) * 16 + (← hexDigit? d)

/-! ## Strings -/

def escaped? : Char → Option Char
  | '"' => some '"'
  | '\\' => some '\\'
  | '/' => some '/'
  | 'b' => some '\x08'
  | 'f' => some '\x0c'
  | 'n' => some '\n'
  | 'r' => some '\r'
  | 't' => some '\t'
  | _ => none

def isHighSurrogate (u : Nat) : Bool := 0xd800 ≤ u && u < 0xdc00

def isLowSurrogate (u : Nat) : Bool := 0xdc00 ≤ u && u < 0xe000

/-- The character of a code point. Half of a surrogate pair has none of its own. -/
def charOfCode (u : Nat) : Char := if isHighSurrogate u || isLowSurrogate u then '\ufffd' else Char.ofNat u

/-- The characters of code points, a surrogate pair being one character. -/
def charsOfCodes : List Nat → List Char
  | [] => []
  | [u] => [charOfCode u]
  | high :: low :: rest =>
    if isHighSurrogate high && isLowSurrogate low then
      Char.ofNat (0x10000 + (high - 0xd800) * 0x400 + (low - 0xdc00)) :: charsOfCodes rest
    else charOfCode high :: charsOfCodes (low :: rest)

/-- The code points of a string up to its closing quote; `opening` is the text from its opening quote on. The four
    digits of an escape must be followed by at least one character, whatever it is. -/
def codes (opening : List Char) : List Char → Except Stop (List Nat × List Char)
  | [] => .error (.malformed .unterminated opening)
  | '"' :: rest => .ok ([], rest)
  | ['\\'] => .error (.malformed .unterminated opening)
  | '\\' :: 'u' :: rest =>
    match rest with
    | a :: b :: c :: d :: next :: after =>
      match unit? a b c d with
      | some u => (codes opening (next :: after)).map fun (us, left) => (u :: us, left)
      | none => .error (.malformed .unicodeEscape ('u' :: rest))
    | _ => .error (.malformed .unicodeEscape ('u' :: rest))
  | '\\' :: c :: rest =>
    match escaped? c with
    | some d => (codes opening rest).map fun (us, left) => (d.toNat :: us, left)
    | none => .error (.malformed .escape ('\\' :: c :: rest))
  | c :: rest =>
    if c.toNat < 0x20 then .error (.malformed .control (c :: rest))
    else (codes opening rest).map fun (us, left) => (c.toNat :: us, left)

/-- A string whose opening quote is read already. -/
def string (rest : List Char) : Except Stop (String × List Char) :=
  (codes ('"' :: rest) rest).map fun (us, left) => (String.ofList (charsOfCodes us), left)

/-! ## Numbers -/

/-- The digits after a point, none when the point is not followed by a digit, and what is left. -/
def fraction : List Char → List Char × List Char
  | '.' :: rest =>
    match rest.span Char.isDigit with
    | ([], _) => ([], '.' :: rest)
    | found => found
  | cs => ([], cs)

/-- An exponent, if there is a complete one, and what is left. -/
def power : List Char → Option Int × List Char
  | e :: rest =>
    if e = 'e' ∨ e = 'E' then
      let (negative, digits) := match rest with
        | '-' :: digits => (true, digits)
        | '+' :: digits => (false, digits)
        | digits => (false, digits)
      match digits.span Char.isDigit with
      | ([], _) => (none, e :: rest)
      | (found, left) =>
        let n : Int := natOfDigits found
        (some (if negative then -n else n), left)
    else (none, e :: rest)
  | [] => (none, [])

/-- A number from its first digit on; a leading zero stands alone. -/
def unsigned? (negative : Bool) (cs : List Char) : Option (Except Stop (Json × List Char)) :=
  let start := match cs with
    | '0' :: rest => (['0'], rest)
    | _ => cs.span Char.isDigit
  match start with
  | ([], _) => none
  | (whole, rest) =>
    let (decimals, rest) := fraction rest
    match decimals, power rest with
    | [], (none, left) =>
      if digitLimit < whole.length then some (.error (.longInteger whole.length))
      else
        let n : Int := natOfDigits whole
        some (.ok (.int (if negative then -n else n), left))
    | _, (exponent, left) =>
      let x := Binary64.ofDecimal negative (natOfDigits (whole ++ decimals)) (exponent.getD 0 - decimals.length)
      some (.ok (.float x, left))

def number (cs : List Char) : Except Stop (Json × List Char) :=
  let found := match cs with
    | '-' :: rest => unsigned? true rest
    | _ => unsigned? false cs
  found.getD (.error (.malformed .value cs))

/-! ## Values -/

mutual

/-- A value and what is left; `fuel` bounds the calls, two for each character suffice. -/
def value : Nat → List Char → Except Stop (Json × List Char)
  | 0, cs => .error (.malformed .value cs)
  | fuel + 1, cs =>
    match cs with
    | '"' :: rest => (string rest).map fun (s, left) => (.str s, left)
    | '\x7b' :: rest =>
      match skipBlanks rest with
      | '\x7d' :: left => .ok (.obj [], left)
      | inside => (fieldsFrom fuel [] inside).map fun (fields, left) => (.obj fields, left)
    | '[' :: rest =>
      match skipBlanks rest with
      | ']' :: left => .ok (.arr [], left)
      | inside => (membersFrom fuel inside).map fun (members, left) => (.arr members, left)
    | 'n' :: 'u' :: 'l' :: 'l' :: left => .ok (.null, left)
    | 't' :: 'r' :: 'u' :: 'e' :: left => .ok (.bool true, left)
    | 'f' :: 'a' :: 'l' :: 's' :: 'e' :: left => .ok (.bool false, left)
    | 'N' :: 'a' :: 'N' :: left => .ok (.float .nan, left)
    | 'I' :: 'n' :: 'f' :: 'i' :: 'n' :: 'i' :: 't' :: 'y' :: left => .ok (.float (.infinity false), left)
    | '-' :: 'I' :: 'n' :: 'f' :: 'i' :: 'n' :: 'i' :: 't' :: 'y' :: left => .ok (.float (.infinity true), left)
    | _ => number cs

/-- The members of a list from one of them on, its closing bracket read too. -/
def membersFrom : Nat → List Char → Except Stop (List Json × List Char)
  | 0, cs => .error (.malformed .value cs)
  | fuel + 1, cs => do
    let (member, left) ← value fuel cs
    match skipBlanks left with
    | ']' :: left => return ([member], left)
    | ',' :: rest =>
      let (members, left) ← membersFrom fuel (skipBlanks rest)
      return (member :: members, left)
    | left => throw (.malformed .comma left)

/-- The fields of an object from a key on, added to those before, its closing brace read too. -/
def fieldsFrom : Nat → Fields → List Char → Except Stop (Fields × List Char)
  | 0, _, cs => .error (.malformed .value cs)
  | fuel + 1, before, cs =>
    match cs with
    | '"' :: rest => do
      let (key, left) ← string rest
      match skipBlanks left with
      | ':' :: rest =>
        let (found, left) ← value fuel (skipBlanks rest)
        let fields := before.put key found
        match skipBlanks left with
        | '\x7d' :: left => return (fields, left)
        | ',' :: rest => fieldsFrom fuel fields (skipBlanks rest)
        | left => throw (.malformed .comma left)
      | left => throw (.malformed .colon left)
    | _ => .error (.malformed .propertyName cs)

end

/-- A text that holds one value and nothing else but blanks. -/
def document (cs : List Char) : Except Stop Json :=
  match cs with
  | '\ufeff' :: _ => .error (.malformed .byteOrderMark cs)
  | _ => do
    let (found, left) ← value (2 * cs.length + 1) (skipBlanks cs)
    match skipBlanks left with
    | [] => return found
    | left => throw (.malformed .extraData left)

def Stop.within (text : List Char) : Stop → ReadError
  | .malformed reason left => .malformed reason (Place.ofOffset text (text.length - left.length))
  | .longInteger digits => .longInteger digits

def read (text : String) : Except ReadError Json := (document text.toList).mapError (Stop.within text.toList)

end GraphScript.Json
