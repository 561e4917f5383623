/-
# Metadata

Every stored object carries a map from text to JSON values that is passed through
unchanged. Maps are kept in canonical form, so two maps with the same entries are
equal and are written alike.

A few keys are known: they say what a block shows.
-/

import Workbench.Json.Record

namespace Workbench

/-- A JSON value in canonical form. -/
structure CanonicalJson where
  json : Json
  canonical : json.Canonical

namespace CanonicalJson

/-- A string value. -/
def ofString (text : String) : CanonicalJson := ⟨.str text, .str text⟩

/-- A boolean value. -/
def ofBool (value : Bool) : CanonicalJson := ⟨.bool value, .bool value⟩

/-- Any JSON value, read with its nesting limit from a complete node. -/
def codec : Json.Codec CanonicalJson where
  write value := value.json
  read room node :=
    match found : node.toJson? room with
    | some json => .ok ⟨json, Json.Node.canonical_of_toJson? found⟩
    | none => .error .malformed

end CanonicalJson

/-- A map from text to JSON values, its keys increasing. -/
structure Meta where
  members : List (String × Json)
  canonical : (Json.obj members).Canonical

namespace Meta

/-- The map without entries. -/
def empty : Meta := ⟨[], .obj [] (by simp [Json.KeysIncrease]) (by simp)⟩

/-- The value under a key. -/
def get? (entries : Meta) (key : String) : Option Json := Json.lookup key entries.members

theorem canonical_insertMember {members : List (String × Json)}
    (canonical : (Json.obj members).Canonical) (key : String) (value : CanonicalJson) :
    (Json.obj (Json.insertMember key value.json members)).Canonical := by
  cases canonical with
  | obj _ increasing each =>
      refine .obj _ (Json.keysIncrease_insertMember _ _ increasing) fun member present => ?_
      rcases Json.mem_insertMember present with same | there
      · exact same ▸ value.canonical
      · exact each member there

/-- The map with one more entry; an entry under the same key is replaced. -/
def insert (entries : Meta) (key : String) (value : CanonicalJson) : Meta :=
  ⟨Json.insertMember key value.json entries.members,
    canonical_insertMember entries.canonical key value⟩

/-- The text under a key, where the value is a string. -/
def text? (entries : Meta) (key : String) : Option String :=
  match entries.get? key with
  | some (.str text) => some text
  | _ => none

/-- Maps are JSON objects. -/
def codec : Json.Codec Meta where
  write entries := .obj entries.members
  read room node :=
    match node with
    | .object members closed =>
        match found : (Json.Node.object members closed).toJson? room with
        | some (.obj entries) => .ok ⟨entries, Json.Node.canonical_of_toJson? found⟩
        | _ => .error .malformed
    | other => .error (other.mismatch "a map")

/-- The key under which a block says how it is shown. -/
def viewKey : String := "view"

/-- The key for the program behind a terminal. -/
def controllerKey : String := "controller"

/-- The key for the address of a web page. -/
def urlKey : String := "url"

/-- The key for the path of a file. -/
def fileKey : String := "file"

/-- The key for the name of a remote connection. -/
def connectionKey : String := "connection"

/-- The key that marks a file as opened for editing. -/
def editKey : String := "edit"

end Meta

end Workbench
