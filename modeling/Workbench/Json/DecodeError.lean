/-
# Why a text is not decoded

A decoder reports the first problem that it meets. Problems of meaning name what was
found and what was expected; all problems of spelling, and numbers or nestings beyond
what a reader keeps, are the one error `malformed`.
-/

import Workbench.Json.Node
import Workbench.Json.Shortest
import Workbench.Text.Quoted

namespace Workbench.Json

/-- The kind of value that was found in the wrong place. Scalars are shown in full,
containers only by their kind. -/
inductive Found where
  | null
  | bool (value : Bool)
  | number (value : Number)
  | string (text : String)
  | sequence
  | map
  deriving DecidableEq

/-- The reasons for which a text does not decode. -/
inductive DecodeError where
  /-- The text is not JSON, or goes beyond what is read. -/
  | malformed
  /-- A required member is missing. -/
  | missingField (name : String)
  /-- A known member is given a second time. -/
  | duplicateField (name : String)
  /-- A value has the wrong type. -/
  | wrongType (found : Found) (expected : String)
  /-- A whole number does not fit its type. -/
  | outOfRange (value : Int) (expected : String)
  /-- A record written as an array ends before a required member. -/
  | wrongLength (count : Nat) (record : String) (size : Nat)
  /-- No variant has this name. -/
  | unknownVariant (name : String) (allowed : List String)
  /-- None of the alternatives of a type without a tag accepts the value. -/
  | noVariant (type : String)
  deriving DecidableEq

/-- How a found value is named in a message. -/
def Found.message : Found → String
  | .null => "null"
  | .bool true => "boolean `true`"
  | .bool false => "boolean `false`"
  | .number (.whole value _) => s!"integer `{value}`"
  | .number (.double value) => "floating point `" ++ String.ofList value.text ++ "`"
  | .string text => "string " ++ Text.quoted text
  | .sequence => "sequence"
  | .map => "map"

/-- A name as it is shown in a message. -/
def shownName (name : String) : String := "`" ++ name ++ "`"

/-- The allowed names, as the end of a message. -/
def expectedNames : List String → String
  | [] => "there are no variants"
  | [name] => "expected " ++ shownName name
  | [first, second] => "expected " ++ shownName first ++ " or " ++ shownName second
  | names => "expected one of " ++ ", ".intercalate (names.map shownName)

/-- The text of an error. -/
def DecodeError.message : DecodeError → String
  | .malformed => "malformed JSON"
  | .missingField name => "missing field " ++ shownName name
  | .duplicateField name => "duplicate field " ++ shownName name
  | .wrongType found expected => "invalid type: " ++ found.message ++ ", expected " ++ expected
  | .outOfRange value expected => s!"invalid value: integer `{value}`, expected {expected}"
  | .wrongLength count record size =>
      let elements := if size = 1 then "element" else "elements"
      s!"invalid length {count}, expected struct {record} with {size} {elements}"
  | .unknownVariant name allowed =>
      "unknown variant " ++ shownName name ++ ", " ++ expectedNames allowed
  | .noVariant type => "data did not match any variant of untagged enum " ++ type

/-- What a node shows of itself when it stands in the wrong place. A scalar that is
broken, or that has no value, shows nothing. -/
def Node.found? : Node → Option Found
  | .broken => none
  | .null => some .null
  | .bool value => some (.bool value)
  | .number value => value.map Found.number
  | .string text => text.map Found.string
  | .array _ _ => some .sequence
  | .object _ _ => some .map

/-- The error for a node of the wrong type. -/
def Node.mismatch (node : Node) (expected : String) : DecodeError :=
  match node.found? with
  | some found => .wrongType found expected
  | none => .malformed

end Workbench.Json
