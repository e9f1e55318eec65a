/-
  GraphScript.Text.Plain — text without the control sequences of terminals.

  A sequence is an escape character, an opening bracket, any number of digits, semicolons and
  question marks, and a letter.
-/

namespace GraphScript.Text

def isParameter (c : Char) : Bool := c.isDigit || c = ';' || c = '?'

/-- The text without its sequences; `pending` is what may turn out to be one. -/
def withoutSequences (pending : List Char) : List Char → List Char
  | [] => pending
  | c :: rest =>
    if pending.length = 1 ∧ c = '[' ∨ 2 ≤ pending.length ∧ isParameter c then withoutSequences (pending ++ [c]) rest
    else if 2 ≤ pending.length ∧ c.isAlpha then withoutSequences [] rest
    else if c = '\x1b' then pending ++ withoutSequences [c] rest
    else pending ++ c :: withoutSequences [] rest

def plain (s : String) : String := String.ofList (withoutSequences [] s.toList)

end GraphScript.Text
