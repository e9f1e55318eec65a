/-
  GraphScript.Number.Binary64 — the binary64 numbers, and how an exact ratio becomes one.

  A finite number is a sign and a rank. The rank is the number's place among the nonnegative finite
  numbers in increasing order: neighbours differ by one, the even ranks are the even significands,
  and the first rank past the last one stands for overflow. `ofRatio` takes the nearest number, on a
  tie the even one; `ofDecimal` reads `digits · 10 ^ exponent` the same way, without building a
  power of ten that cannot matter.
-/

namespace GraphScript

/-- How many nonnegative finite binary64 numbers there are. -/
abbrev Binary64.ranks : Nat := 2047 * Nat.pow 2 52

inductive Binary64 where
  | finite (negative : Bool) (rank : Fin Binary64.ranks)
  | infinity (negative : Bool)
  | nan
  deriving DecidableEq, Repr

/-- The natural number nearest to `num / den`, on a tie the even one. -/
def roundHalfEven (num den : Nat) : Nat :=
  let below := num / den
  let left := num % den
  if 2 * left < den ∨ 2 * left = den ∧ below % 2 = 0 then below else below + 1

namespace Binary64

def zero : Binary64 := .finite false ⟨0, by decide⟩

/-! ## The value of a rank -/

/-- A rank stands for `significand · 2 ^ exponent`. -/
def significand (rank : Nat) : Nat := if rank < Nat.pow 2 52 then rank else Nat.pow 2 52 + rank % Nat.pow 2 52

def exponent (rank : Nat) : Int := if rank < Nat.pow 2 52 then -1074 else (rank / Nat.pow 2 52 : Nat) - 1075

/-- Numerator and denominator of the value of a rank, not reduced. -/
def ratio (rank : Nat) : Nat × Nat :=
  (significand rank * Nat.pow 2 (exponent rank).toNat, Nat.pow 2 (-exponent rank).toNat)

/-- The value of a rank when it is a natural number. -/
def toNat? (rank : Nat) : Option Nat :=
  let (num, den) := ratio rank
  if num % den = 0 then some (num / den) else none

/-! ## Rounding -/

/-- The `e` with `2 ^ e ≤ num / den < 2 ^ (e + 1)`, for positive arguments. -/
def binade (num den : Nat) : Int :=
  let e : Int := (num.log2 : Int) - den.log2
  if num * Nat.pow 2 (-e).toNat < den * Nat.pow 2 e.toNat then e - 1 else e

/-- A rank of `ranks` or more means overflow. -/
def rankOfRatio (num den : Nat) : Nat :=
  if num = 0 then 0
  else
    let e := max (binade num den) (-1022)
    let unit := e - 52
    (e + 1022).toNat * Nat.pow 2 52 + roundHalfEven (num * Nat.pow 2 (-unit).toNat) (den * Nat.pow 2 unit.toNat)

def ofRank (negative : Bool) (rank : Nat) : Binary64 :=
  if h : rank < ranks then .finite negative ⟨rank, h⟩ else .infinity negative

/-- The binary64 number nearest to `± num / den`. -/
def ofRatio (negative : Bool) (num den : Nat) : Binary64 := ofRank negative (rankOfRatio num den)

/-- The binary64 number nearest to `± digits · 10 ^ exponent`. The first two tests answer for exponents that
    are out of reach, where the power of ten is too large to build. -/
def ofDecimal (negative : Bool) (digits : Nat) (exponent : Int) : Binary64 :=
  if digits = 0 ∨ 3 * exponent + digits.log2 + 1200 < 0 then ofRank negative 0
  else if 400 < exponent then .infinity negative
  else ofRatio negative (digits * Nat.pow 10 exponent.toNat) (Nat.pow 10 (-exponent).toNat)

/-! ## Comparison -/

def isZero : Binary64 → Bool
  | .finite _ rank => rank.val == 0
  | _ => false

/-- Both zeros are equal, and a NaN equals nothing. -/
def equals : Binary64 → Binary64 → Bool
  | .finite m a, .finite n b => a == b && (m == n || a.val == 0)
  | .infinity m, .infinity n => m == n
  | _, _ => false

/-- The integer that a number is, if it is one. -/
def toInt? : Binary64 → Option Int
  | .finite negative rank => (toNat? rank).map fun (n : Nat) => if negative then -(n : Int) else n
  | _ => none

end Binary64

end GraphScript
