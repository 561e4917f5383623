/-
# JSON values

A JSON value is a tree. Whole numbers and doubles are different values: `1` and
`1.0` are never confused. The members of an object are a list, because a record is
written with its members in the order in which they are declared.

A value that was read, or that is kept for its own sake, is *canonical*: the keys of
each object increase strictly, at every depth. Canonical values with the same
meaning are equal. Keys are ordered by code points, which is the order of their UTF-8
bytes.
-/

import Workbench.Json.Double

namespace Workbench

/-- A number of a JSON text: a whole number or a double. A whole number fits a signed or
an unsigned 64-bit word; beyond that, texts have only doubles. -/
inductive Number where
  | whole (value : Int) (inRange : -0x8000000000000000 ≤ value ∧ value < 0x10000000000000000)
  | double (value : Double)
  deriving DecidableEq

/-- A signed word as a number. -/
def Number.ofInt64 (value : Int64) : Number :=
  .whole value.toInt <| by
    have above := value.le_toInt
    have below := value.toInt_lt
    omega

/-- An unsigned word as a number. -/
def Number.ofUInt64 (value : UInt64) : Number :=
  .whole value.toNat ⟨by omega, by have := value.toNat_lt; omega⟩

/-- A JSON value with its object members in a definite order. -/
inductive Json where
  | null
  | bool (value : Bool)
  | num (value : Number)
  | str (value : String)
  | arr (items : List Json)
  | obj (members : List (String × Json))
  deriving Inhabited

namespace Json

/-- Keys increase strictly, so no key occurs twice. -/
def KeysIncrease (members : List (String × Json)) : Prop :=
  (members.map Prod.fst).Pairwise (· < ·)

/-- The form in which equal meaning is equality: keys of every object increase, at every
depth. -/
inductive Canonical : Json → Prop where
  | null : Canonical .null
  | bool (value : Bool) : Canonical (.bool value)
  | num (value : Number) : Canonical (.num value)
  | str (value : String) : Canonical (.str value)
  | arr (items : List Json) : (∀ item ∈ items, Canonical item) → Canonical (.arr items)
  | obj (members : List (String × Json)) : KeysIncrease members →
      (∀ member ∈ members, Canonical member.2) → Canonical (.obj members)

/-- Put a member into a list of members with increasing keys. A member that is there
under the same key is replaced. -/
def insertMember (key : String) (value : Json) : List (String × Json) → List (String × Json)
  | [] => [(key, value)]
  | (other, held) :: rest =>
      if key < other then (key, value) :: (other, held) :: rest
      else if key = other then (key, value) :: rest
      else (other, held) :: insertMember key value rest

/-- The members in key order; of two members with one key the last one stays. -/
def sortMembers (members : List (String × Json)) : List (String × Json) :=
  members.foldl (fun sorted member => insertMember member.1 member.2 sorted) []

/-- The value held under a key. -/
def lookup (key : String) (members : List (String × Json)) : Option Json :=
  (members.find? fun member => member.1 = key).map Prod.snd

mutual

/-- Bring a value into canonical order, at every depth. -/
def sorted : Json → Json
  | .arr items => .arr (sortedItems items)
  | .obj members => .obj (sortMembers (sortedMembers members))
  | .null => .null
  | .bool value => .bool value
  | .num value => .num value
  | .str value => .str value

/-- Bring each item into canonical order. -/
def sortedItems : List Json → List Json
  | [] => []
  | item :: rest => sorted item :: sortedItems rest

/-- Bring the value of each member into canonical order, keeping the members' own
order. -/
def sortedMembers : List (String × Json) → List (String × Json)
  | [] => []
  | (key, value) :: rest => (key, sorted value) :: sortedMembers rest

end

mutual

/-- The number of arrays and objects that enclose the deepest point of a value,
itself included. -/
def depth : Json → Nat
  | .arr items => itemsDepth items + 1
  | .obj members => membersDepth members + 1
  | _ => 0

/-- The greatest depth among items. -/
def itemsDepth : List Json → Nat
  | [] => 0
  | item :: rest => max (depth item) (itemsDepth rest)

/-- The greatest depth among the values of members. -/
def membersDepth : List (String × Json) → Nat
  | [] => 0
  | (_, value) :: rest => max (depth value) (membersDepth rest)

end

/-! ### Inserting keeps the order of keys -/

theorem keys_insertMember (key : String) (value : Json) (members : List (String × Json)) :
    ∀ other ∈ (insertMember key value members).map Prod.fst,
      other = key ∨ other ∈ members.map Prod.fst := by
  induction members with
  | nil => simp [insertMember]
  | cons member rest ih =>
      obtain ⟨name, held⟩ := member
      intro other present
      simp only [insertMember] at present
      split at present
      · simpa using present
      · split at present
        · rename_i same
          simp only [List.map_cons, List.mem_cons] at present ⊢
          rcases present with found | found
          · exact .inl found
          · exact .inr (.inr found)
        · simp only [List.map_cons, List.mem_cons] at present ⊢
          rcases present with found | found
          · exact .inr (.inl found)
          · rcases ih other found with same | there
            · exact .inl same
            · exact .inr (.inr there)

theorem keysIncrease_insertMember (key : String) (value : Json)
    {members : List (String × Json)} (increasing : KeysIncrease members) :
    KeysIncrease (insertMember key value members) := by
  induction members with
  | nil => simp [insertMember, KeysIncrease]
  | cons member rest ih =>
      obtain ⟨name, held⟩ := member
      simp only [KeysIncrease, List.map_cons, List.pairwise_cons] at increasing
      obtain ⟨first, others⟩ := increasing
      simp only [insertMember]
      split
      · rename_i before
        simp only [KeysIncrease, List.map_cons, List.pairwise_cons, List.mem_cons]
        refine ⟨?_, first, others⟩
        rintro other (rfl | there)
        · exact before
        · exact String.lt_trans before (first other there)
      · split
        · rename_i same
          subst same
          simp only [KeysIncrease, List.map_cons, List.pairwise_cons]
          exact ⟨first, others⟩
        · rename_i notBefore notSame
          have after : name < key := by
            rcases Decidable.em (name < key) with less | notLess
            · exact less
            · exact absurd (String.le_antisymm notLess notBefore) notSame
          simp only [KeysIncrease, List.map_cons, List.pairwise_cons]
          refine ⟨fun other present => ?_, ih others⟩
          rcases keys_insertMember key value rest other present with same | there
          · exact same ▸ after
          · exact first other there

theorem mem_insertMember {key : String} {value : Json} {members : List (String × Json)}
    {member : String × Json} (present : member ∈ insertMember key value members) :
    member = (key, value) ∨ member ∈ members := by
  induction members with
  | nil => simpa [insertMember] using present
  | cons head rest ih =>
      obtain ⟨name, held⟩ := head
      simp only [insertMember] at present
      split at present
      · simpa using present
      · split at present
        · rcases List.mem_cons.1 present with found | found
          · exact .inl found
          · exact .inr (List.mem_cons_of_mem _ found)
        · rcases List.mem_cons.1 present with found | found
          · exact .inr (found ▸ List.mem_cons_self ..)
          · exact (ih found).imp id (List.mem_cons_of_mem _)

/-- Sorting gives increasing keys, whatever the members were. -/
theorem keysIncrease_sortMembers (members : List (String × Json)) :
    KeysIncrease (sortMembers members) := by
  suffices general : ∀ start, KeysIncrease start →
      KeysIncrease (members.foldl (fun sorted member => insertMember member.1 member.2 sorted)
        start) from general [] (by simp [KeysIncrease])
  induction members with
  | nil => exact fun _ increasing => increasing
  | cons member rest ih =>
      exact fun start increasing => ih _ (keysIncrease_insertMember _ _ increasing)

/-- Sorting brings in no members of its own. -/
theorem mem_of_mem_sortMembers {members : List (String × Json)} {member : String × Json}
    (present : member ∈ sortMembers members) : member ∈ members := by
  suffices general : ∀ start,
      member ∈ members.foldl (fun sorted member => insertMember member.1 member.2 sorted) start →
      member ∈ start ∨ member ∈ members by
    simpa using general [] present
  clear present
  induction members with
  | nil => exact fun start found => .inl found
  | cons head rest ih =>
      intro start found
      rcases ih _ found with there | there
      · rcases mem_insertMember there with same | there
        · exact .inr (same ▸ List.mem_cons_self ..)
        · exact .inl there
      · exact .inr (List.mem_cons_of_mem _ there)

/-- An object made of canonical values is canonical once its members are sorted. -/
theorem canonical_sortMembers {members : List (String × Json)}
    (each : ∀ member ∈ members, Canonical member.2) :
    Canonical (.obj (sortMembers members)) :=
  .obj _ (keysIncrease_sortMembers members) fun _ present =>
    each _ (mem_of_mem_sortMembers present)

mutual

/-- Sorting makes any value canonical. -/
theorem canonical_sorted (value : Json) : value.sorted.Canonical := by
  match value with
  | .null => exact .null
  | .bool held => exact .bool held
  | .num held => exact .num held
  | .str held => exact .str held
  | .arr items => exact .arr _ (canonical_sortedItems items)
  | .obj members => exact canonical_sortMembers (canonical_sortedMembers members)

theorem canonical_sortedItems (items : List Json) :
    ∀ item ∈ sortedItems items, item.Canonical := by
  match items with
  | [] => simp [sortedItems]
  | first :: rest =>
      intro item present
      rcases List.mem_cons.1 present with same | there
      · exact same ▸ canonical_sorted first
      · exact canonical_sortedItems rest item there

theorem canonical_sortedMembers (members : List (String × Json)) :
    ∀ member ∈ sortedMembers members, member.2.Canonical := by
  match members with
  | [] => simp [sortedMembers]
  | (key, first) :: rest =>
      intro member present
      rcases List.mem_cons.1 present with same | there
      · exact same ▸ canonical_sorted first
      · exact canonical_sortedMembers rest member there

end

end Json

end Workbench
