/-
  GraphScript.Text.Quoted — literals that close themselves, and joined texts.

  A literal stands between two marks, and a mark inside it is written twice: strings use the double
  quote, expressions the backtick.
-/

namespace GraphScript.Text

/-- A mark is written twice and all else once. -/
def doubled (mark : Char) : List Char → List Char
  | [] => []
  | c :: rest => if c = mark then mark :: mark :: doubled mark rest else c :: doubled mark rest

def quoted (mark : Char) (s : String) : String := String.ofList (mark :: doubled mark s.toList ++ [mark])

/-- The texts in order, with `separator` between neighbours. -/
def joined (separator : String) : List String → String
  | [] => ""
  | [s] => s
  | s :: rest => s ++ separator ++ joined separator rest

/-- The digits of `n` in base 16, lower case, padded with zeros to `width`. -/
def hex (width n : Nat) : List Char :=
  let written := Nat.toDigits 16 n
  List.replicate (width - written.length) '0' ++ written

end GraphScript.Text
