/-
  GraphScript.Fault — why a document or a program is refused.

  `noMember` and `wrongType` are the two ways in which a value of the wrong kind shows: a field or a
  method was asked of a value that has none, or the value was used as something it is not. Neither
  has a text.
-/
import GraphScript.Json.Display
import GraphScript.Json.Equality
import GraphScript.Json.Reader

namespace GraphScript

/-- What a program must not be; records are given by the name of their kind. -/
inductive Invariant where
  | noFlags
  | noAxis (record : String)
  | noneDefined (record : String)
  | nestedFolder
  | line (kind : String)
  | affix (kind : String)
  | optionGroup (kind : String)
  deriving DecidableEq, Repr

def Invariant.message : Invariant → String
  | .noFlags => "flags setting requires at least one flag"
  | .noAxis record => record ++ " requires at least one of x, y, or polar"
  | .noneDefined record => record ++ " has none of x, y, or polar defined"
  | .nestedFolder => "folders cannot contain folders"
  | .line kind => "Cannot encode line of type " ++ kind
  | .affix kind => "Cannot encode affix group " ++ kind
  | .optionGroup kind => "Cannot encode option group " ++ kind

/-- The version of documents that can be translated. -/
def supportedVersion : Nat := 8

inductive Fault where
  | unreadable (error : Json.ReadError)
  | unsupportedVersion (version : Json)
  | unsupportedItem (kind id : Json)
  | invariant (broken : Invariant)
  /-- A value, as displayed, is not in the enumeration. -/
  | notMember (shown enumeration : String)
  | missingKey (key : String)
  | noMember
  | wrongType
  deriving DecidableEq

def Fault.message? : Fault → Option String
  | .unreadable error => some error.message
  | .unsupportedVersion version =>
    some ("Desmos JSON version " ++ version.display ++ " is not supported (only version "
      ++ toString supportedVersion ++ " is)")
  | .unsupportedItem kind id => some ("Unsupported item type " ++ kind.display ++ " (id " ++ id.display ++ ")")
  | .invariant broken => some broken.message
  | .notMember shown enumeration => some (shown ++ " is not a valid " ++ enumeration)
  | .missingKey key => some (Text.display key)
  | .noMember | .wrongType => none

end GraphScript
