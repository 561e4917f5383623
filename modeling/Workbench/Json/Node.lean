/-
# Nodes: JSON text as far as it goes

A decoder walks over a text from left to right and stops at the first problem, be it
of spelling or of meaning. A node keeps exactly what such a walk can see: the
elements and members in text order, doubled keys included, and where the text stops
being JSON. Decoding a node therefore meets problems in the order of the text,
although the whole text was cut up beforehand.

Nodes are built from tokens with an explicit stack of open containers, so nesting of
any depth needs no recursion. A container that is closed holds nothing broken.
-/

import Workbench.Json.Token

namespace Workbench.Json

/-- A value as it stands in a text. `broken` marks the point where the text stops
being JSON; a container with `closed = false` was left open there. A number that is
too large for a double has no value, and a string with half a surrogate pair, as a
value or as a key, has no text. -/
inductive Node where
  | broken
  | null
  | bool (value : Bool)
  | number (value : Option Number)
  | string (text : Option String)
  | array (items : List Node) (closed : Bool)
  | object (members : List (Option String × Node)) (closed : Bool)
  deriving Inhabited

namespace Node

/-- Whether the text of the value is complete. -/
def complete : Node → Bool
  | .broken => false
  | .array _ closed => closed
  | .object _ closed => closed
  | _ => true

/-! ### Building nodes from tokens -/

/-- What may follow inside an open array. -/
inductive ArrayPlace where
  | start
  | afterItem
  | afterComma

/-- What may follow inside an open object. -/
inductive ObjectPlace where
  | start
  | afterKey (key : Option String)
  | afterColon (key : Option String)
  | afterMember
  | afterComma

/-- A container that is not closed yet, with what it holds so far in reverse order. -/
inductive Open where
  | array (items : List Node) (place : ArrayPlace)
  | object (members : List (Option String × Node)) (place : ObjectPlace)

/-- How far the reading of a text has come. -/
inductive Progress where
  /-- A value or its continuation is awaited inside these containers, innermost first. -/
  | within (containers : List Open)
  /-- A whole value was read and nothing followed it yet. -/
  | done (node : Node)
  /-- Reading cannot go on. -/
  | stopped (node : Node) (trailing : Bool)

/-- The container with one more value, left open. -/
def Open.leave (inner : Node) : Open → Node
  | .array items _ => .array (inner :: items).reverse false
  | .object members (.afterKey key) => .object ((key, inner) :: members).reverse false
  | .object members (.afterColon key) => .object ((key, inner) :: members).reverse false
  | .object members _ => .object members.reverse false

/-- The value that stands there when the text breaks off inside these containers. -/
def abandon (containers : List Open) : Node := containers.foldl Open.leave .broken

/-- Put a complete value where a value is awaited. -/
def give (node : Node) : List Open → Progress
  | [] => .done node
  | .array items _ :: outer => .within (.array (node :: items) .afterItem :: outer)
  | .object members (.afterColon key) :: outer =>
      .within (.object ((key, node) :: members) .afterMember :: outer)
  | containers => .stopped (abandon containers) false

/-- Read a token where a value is awaited. -/
def startValue (containers : List Open) : Token → Progress
  | .null => give .null containers
  | .bool value => give (.bool value) containers
  | .number numeral => give (.number numeral.value?) containers
  | .string text => give (.string text) containers
  | .openBracket => .within (.array [] .start :: containers)
  | .openBrace => .within (.object [] .start :: containers)
  | _ => .stopped (abandon containers) false

/-- Read a token where a key is awaited. Only a string can be one. -/
def startKey (members : List (Option String × Node)) (outer : List Open) : Token → Progress
  | .string key => .within (.object members (.afterKey key) :: outer)
  | _ => .stopped (abandon (.object members .afterComma :: outer)) false

/-- Read one token. -/
def advance : Progress → Token → Progress
  | .stopped node trailing, _ => .stopped node trailing
  | .done node, _ => .stopped node true
  | .within [], token => startValue [] token
  | .within (.array items .start :: outer), token =>
      if token = .closeBracket then give (.array items.reverse true) outer
      else startValue (.array items .start :: outer) token
  | .within (.array items .afterItem :: outer), token =>
      if token = .comma then .within (.array items .afterComma :: outer)
      else if token = .closeBracket then give (.array items.reverse true) outer
      else .stopped (abandon (.array items .afterItem :: outer)) false
  | .within (.array items .afterComma :: outer), token =>
      startValue (.array items .afterComma :: outer) token
  | .within (.object members .start :: outer), token =>
      if token = .closeBrace then give (.object members.reverse true) outer
      else startKey members outer token
  | .within (.object members (.afterKey key) :: outer), token =>
      if token = .colon then .within (.object members (.afterColon key) :: outer)
      else .stopped (abandon (.object members (.afterKey key) :: outer)) false
  | .within (.object members (.afterColon key) :: outer), token =>
      startValue (.object members (.afterColon key) :: outer) token
  | .within (.object members .afterMember :: outer), token =>
      if token = .comma then .within (.object members .afterComma :: outer)
      else if token = .closeBrace then give (.object members.reverse true) outer
      else .stopped (abandon (.object members .afterMember :: outer)) false
  | .within (.object members .afterComma :: outer), token => startKey members outer token

/-- The first value of a text, and whether anything but blanks stands behind it. -/
def ofTokens (tokens : List Token) : Node × Bool :=
  match tokens.foldl advance (.within []) with
  | .within containers => (abandon containers, false)
  | .done node => (node, false)
  | .stopped node trailing => (node, trailing)

/-- The first value of a text, and whether anything but blanks stands behind it. -/
def ofText (text : String) : Node × Bool := ofTokens (tokens text.toList)

/-! ### Values of nodes -/

/-- How many containers a text may nest. -/
def nestingLimit : Nat := 127

mutual

/-- The value of a node, in canonical form, if the node is complete, spells texts and
numbers that exist, and needs at most `room` nested containers. The last of two
members with one key counts. -/
def toJson? (room : Nat) : Node → Option Json
  | .broken => none
  | .null => some .null
  | .bool value => some (.bool value)
  | .number value => value.map Json.num
  | .string text => text.map Json.str
  | .array items closed =>
      match room with
      | 0 => none
      | inner + 1 => if closed then (itemsToJson? inner items).map Json.arr else none
  | .object members closed =>
      match room with
      | 0 => none
      | inner + 1 =>
          if closed then
            (membersToJson? inner members).map fun found => .obj (Json.sortMembers found)
          else none

/-- The values of all items. -/
def itemsToJson? (room : Nat) : List Node → Option (List Json)
  | [] => some []
  | item :: rest =>
      match toJson? room item with
      | none => none
      | some value => (itemsToJson? room rest).map (value :: ·)

/-- The keys and values of all members, in text order. -/
def membersToJson? (room : Nat) : List (Option String × Node) → Option (List (String × Json))
  | [] => some []
  | (key, item) :: rest =>
      match key, toJson? room item with
      | some name, some value =>
          (membersToJson? room rest).map ((name, value) :: ·)
      | _, _ => none

end

mutual

/-- The node of a value that is already in memory. Its numbers are taken as they are
and not read from text again. -/
def ofJson : Json → Node
  | .null => .null
  | .bool value => .bool value
  | .num value => .number (some value)
  | .str value => .string (some value)
  | .arr items => .array (ofItems items) true
  | .obj members => .object (ofMembers members) true

/-- The nodes of items in memory. -/
def ofItems : List Json → List Node
  | [] => []
  | item :: rest => ofJson item :: ofItems rest

/-- The nodes of members in memory. -/
def ofMembers : List (String × Json) → List (Option String × Node)
  | [] => []
  | (name, value) :: rest => (some name, ofJson value) :: ofMembers rest

end

/-! ### Read values are canonical -/

mutual

theorem canonical_of_toJson? {room : Nat} {node : Node} {value : Json}
    (read : toJson? room node = some value) : value.Canonical := by
  match node with
  | .broken => simp [toJson?] at read
  | .null =>
      simp only [toJson?, Option.some.injEq] at read
      exact read ▸ .null
  | .bool held =>
      simp only [toJson?, Option.some.injEq] at read
      exact read ▸ .bool held
  | .number held =>
      obtain ⟨number, _, rfl⟩ := Option.map_eq_some_iff.1 read
      exact .num number
  | .string held =>
      obtain ⟨text, _, rfl⟩ := Option.map_eq_some_iff.1 read
      exact .str text
  | .array items closed =>
      cases room with
      | zero => simp [toJson?] at read
      | succ inner =>
          simp only [toJson?] at read
          split at read
          · obtain ⟨values, found, rfl⟩ := Option.map_eq_some_iff.1 read
            exact .arr values (canonical_of_itemsToJson? found)
          · simp at read
  | .object members closed =>
      cases room with
      | zero => simp [toJson?] at read
      | succ inner =>
          simp only [toJson?] at read
          split at read
          · obtain ⟨values, found, rfl⟩ := Option.map_eq_some_iff.1 read
            exact Json.canonical_sortMembers (canonical_of_membersToJson? found)
          · simp at read

theorem canonical_of_itemsToJson? {room : Nat} {items : List Node} {values : List Json}
    (read : itemsToJson? room items = some values) : ∀ value ∈ values, value.Canonical := by
  match items with
  | [] =>
      simp only [itemsToJson?, Option.some.injEq] at read
      simp [← read]
  | item :: rest =>
      simp only [itemsToJson?] at read
      split at read
      · simp at read
      · rename_i first found
        obtain ⟨others, more, rfl⟩ := Option.map_eq_some_iff.1 read
        intro value present
        rcases List.mem_cons.1 present with same | there
        · exact same ▸ canonical_of_toJson? found
        · exact canonical_of_itemsToJson? more value there

theorem canonical_of_membersToJson? {room : Nat} {members : List (Option String × Node)}
    {values : List (String × Json)} (read : membersToJson? room members = some values) :
    ∀ member ∈ values, member.2.Canonical := by
  match members with
  | [] =>
      simp only [membersToJson?, Option.some.injEq] at read
      simp [← read]
  | (key, item) :: rest =>
      simp only [membersToJson?] at read
      split at read
      · rename_i name first found
        obtain ⟨others, more, rfl⟩ := Option.map_eq_some_iff.1 read
        intro member present
        rcases List.mem_cons.1 present with same | there
        · exact same ▸ canonical_of_toJson? found
        · exact canonical_of_membersToJson? more member there
      · simp at read

end

end Node

end Workbench.Json
