/-
# Codecs

A codec says how the values of one type are written as JSON and how they are read
back from a node. Reading is given the room that is left for nested containers, so a
value nested too deeply is refused where it stands.
-/

import Workbench.Json.DecodeError
import Workbench.Json.Printer

namespace Workbench.Json

/-- Writing and reading of one type. -/
structure Codec (α : Type) where
  write : α → Json
  read : (room : Nat) → Node → Except DecodeError α

namespace Codec

/-- Decode a whole text. Anything but blanks behind the value is refused, but only once
the value itself was accepted. -/
def decode {α : Type} (codec : Codec α) (text : String) : Except DecodeError α :=
  let (node, trailing) := Node.ofText text
  match codec.read Node.nestingLimit node with
  | .error problem => .error problem
  | .ok value => if trailing then .error .malformed else .ok value

/-- The text of a value. -/
def encode {α : Type} (codec : Codec α) (value : α) : String := (codec.write value).text

/-- Decode a value that is already in memory, where nesting has no limit. -/
def decodeJson {α : Type} (codec : Codec α) (value : Json) : Except DecodeError α :=
  codec.read value.depth (Node.ofJson value)

/-- Strings. -/
def string : Codec String where
  write := Json.str
  read _ node :=
    match node with
    | .string (some text) => .ok text
    | other => .error (other.mismatch "a string")

/-- Booleans. -/
def bool : Codec Bool where
  write := Json.bool
  read _ node :=
    match node with
    | .bool value => .ok value
    | other => .error (other.mismatch "a boolean")

/-- Read a whole number that lies between two bounds. -/
def readWhole (expected : String) (low high : Int) (node : Node) : Except DecodeError Int :=
  match node with
  | .number (some (.whole value _)) =>
      if low ≤ value ∧ value ≤ high then .ok value else .error (.outOfRange value expected)
  | other => .error (other.mismatch expected)

/-- Signed 64-bit words. -/
def int64 : Codec Int64 where
  write value := .num (.ofInt64 value)
  read _ node := (readWhole "i64" (-0x8000000000000000) 0x7FFFFFFFFFFFFFFF node).map Int64.ofInt

/-- Unsigned 64-bit words. The expected type is named by what the word is for. -/
def word (expected : String) : Codec UInt64 where
  write value := .num (.ofUInt64 value)
  read _ node :=
    (readWhole expected 0 0xFFFFFFFFFFFFFFFF node).map fun value => UInt64.ofNat value.toNat

/-- Unsigned 32-bit words. -/
def uint32 : Codec UInt32 where
  write value := .num (.ofUInt64 value.toUInt64)
  read _ node := (readWhole "u32" 0 0xFFFFFFFF node).map fun value => UInt32.ofNat value.toNat

/-- Read items one after another, up to the first that is refused. -/
def readItems {α : Type} (codec : Codec α) (room : Nat) : List Node → Except DecodeError (List α)
  | [] => .ok []
  | item :: rest =>
      match codec.read room item with
      | .error problem => .error problem
      | .ok value => (readItems codec room rest).map (value :: ·)

/-- Lists. -/
def list {α : Type} (codec : Codec α) : Codec (List α) where
  write values := .arr (values.map codec.write)
  read room node :=
    match node with
    | .array items closed =>
        match room with
        | 0 => .error .malformed
        | inner + 1 =>
            match readItems codec inner items with
            | .error problem => .error problem
            | .ok values => if closed then .ok values else .error .malformed
    | other => .error (other.mismatch "a sequence")

/-- Values that may be absent; absence is written and read as `null`. -/
def option {α : Type} (codec : Codec α) : Codec (Option α) where
  write value := (value.map codec.write).getD .null
  read room node :=
    match node with
    | .null => .ok none
    | other => (codec.read room other).map some

/-- Read the value of a variant that carries nothing. -/
def readUnit (node : Node) : Except DecodeError Unit :=
  match node with
  | .null => .ok ()
  | other => .error (other.mismatch "unit")

/-- Types whose values are names. A name is written as a string; it may also be read as
the only key of an object that holds `null`. -/
def names {α : Type} (values : List α) (name : α → String) : Codec α where
  write value := .str (name value)
  read room node :=
    let named (text : String) : Except DecodeError α :=
      match values.find? fun value => name value = text with
      | some value => .ok value
      | none => .error (.unknownVariant text (values.map name))
    match node with
    | .string (some text) => named text
    | .object ((some text, content) :: others) closed =>
        if room = 0 then .error .malformed
        else
          match named text with
          | .error problem => .error problem
          | .ok value =>
              match readUnit content with
              | .error problem => .error problem
              | .ok () => if others.isEmpty && closed then .ok value else .error .malformed
    | _ => .error .malformed

/-- A type with alternatives but without a tag, here with one alternative. The whole
value is read first, so that bad spelling anywhere in it comes before everything else;
then the alternative either accepts it or not, and its own reason is not reported. -/
def untagged {α : Type} (type : String) (codec : Codec α) : Codec α where
  write := codec.write
  read room node :=
    match node.toJson? room with
    | none => .error .malformed
    | some _ =>
        match codec.read room node with
        | .ok value => .ok value
        | .error _ => .error (.noVariant type)

end Codec

end Workbench.Json
