/-
  GraphScript.Number.Decimal — the shortest decimal of a binary64 number, and its two layouts.

  `shortest` tries one digit, then two, and so on: on each grid it takes the neighbours of the exact
  value, and the first grid with a neighbour that reads back as the number wins; of two such
  neighbours the nearer. Seventeen digits always suffice; the exact expansion stands behind them so
  that the result reads back in any case.

  A `Layout` says how a number is written down: in values and dumps (`1.0`, `1e+16`, `1e-05`), or in
  a script (`1`, `10000000000000000`, `0.00001`, `1e-7`).
-/
import GraphScript.Number.Binary64

namespace GraphScript

/-- Digits without trailing zeros, and how many of them stand before the point. -/
structure Decimal where
  digits : List Char
  point : Int
  deriving DecidableEq, Repr

/-- The decimal `digits · 10 ^ exponent`. -/
def Decimal.ofScaled (digits : Nat) (exponent : Int) : Decimal :=
  let written := Nat.toDigits 10 digits
  ⟨(written.reverse.dropWhile (· == '0')).reverse, written.length + exponent⟩

/-! ## Fewest digits -/

namespace Binary64

/-- The `p` with `10 ^ p ≤ num / den < 10 ^ (p + 1)`, for positive arguments. -/
def decade (num den : Nat) : Int :=
  let p : Int := ((Nat.toDigits 10 num).length : Int) - (Nat.toDigits 10 den).length
  if num * Nat.pow 10 (-p).toNat < den * Nat.pow 10 p.toNat then p - 1 else p

/-- The nearest multiple of `10 ^ exponent` that reads back as the number of this rank. -/
def onGrid? (rank : Nat) (exponent : Int) : Option Nat :=
  let num := (ratio rank).1 * Nat.pow 10 (-exponent).toNat
  let den := (ratio rank).2 * Nat.pow 10 exponent.toNat
  let readsBack (digits : Nat) : Bool := ofDecimal false digits exponent = ofRank false rank
  match readsBack (num / den), readsBack (num / den + 1) with
  | true, true => some (roundHalfEven num den)
  | true, false => some (num / den)
  | false, true => some (num / den + 1)
  | false, false => none

/-- Every digit of a number: a denominator of `2 ^ k` is one of `10 ^ k` once the numerator has `5 ^ k`. -/
def exact (rank : Nat) : Decimal :=
  let places := (-exponent rank).toNat
  .ofScaled ((ratio rank).1 * Nat.pow 5 places) (-(places : Int))

def shortest (rank : Nat) : Decimal :=
  let first := decade (ratio rank).1 (ratio rank).2
  let found := (List.range 17).findSome? fun (more : Nat) =>
    (onGrid? rank (first - more)).map (Decimal.ofScaled · (first - more))
  found.getD (exact rank)

end Binary64

/-! ## Layouts -/

structure Layout where
  /-- Powers of ten from `least` up to `limit`, the latter excluded, are written without exponent. -/
  least : Int
  limit : Int
  /-- What a whole number ends in. -/
  whole : String
  /-- An exponent has at least this many digits. -/
  exponentDigits : Nat
  signedZero : Bool
  nan : String
  infinity : String

namespace Layout

/-- The text of a number inside a displayed value. -/
def display : Layout where
  least := -4
  limit := 16
  whole := ".0"
  exponentDigits := 2
  signedZero := true
  nan := "nan"
  infinity := "inf"

def json : Layout := { display with nan := "NaN", infinity := "Infinity" }

def script : Layout where
  least := -6
  limit := 21
  whole := ""
  exponentDigits := 1
  signedZero := false
  nan := "NaN"
  infinity := "Infinity"

def zeros (n : Nat) : String := String.ofList (List.replicate n '0')

def positional (l : Layout) (d : Decimal) : String :=
  let n := d.digits.length
  if d.point ≤ 0 then "0." ++ zeros (-d.point).toNat ++ String.ofList d.digits
  else if n ≤ d.point then String.ofList d.digits ++ zeros (d.point - n).toNat ++ l.whole
  else String.ofList (d.digits.take d.point.toNat) ++ "." ++ String.ofList (d.digits.drop d.point.toNat)

def scientific (l : Layout) (d : Decimal) : String :=
  let power := d.point - 1
  let written := Nat.toDigits 10 power.natAbs
  let rest := d.digits.drop 1
  String.ofList (d.digits.take 1) ++ (if rest.isEmpty then "" else "." ++ String.ofList rest) ++ "e"
    ++ (if power < 0 then "-" else "+") ++ zeros (l.exponentDigits - written.length) ++ String.ofList written

def decimal (l : Layout) (d : Decimal) : String :=
  if l.least < d.point ∧ d.point ≤ l.limit then l.positional d else l.scientific d

def sign (negative : Bool) : String := if negative then "-" else ""

def text (l : Layout) : Binary64 → String
  | .finite negative rank =>
    if rank.val = 0 then sign (negative && l.signedZero) ++ "0" ++ l.whole
    else sign negative ++ l.decimal (Binary64.shortest rank)
  | .infinity negative => sign negative ++ l.infinity
  | .nan => l.nan

end Layout

end GraphScript
