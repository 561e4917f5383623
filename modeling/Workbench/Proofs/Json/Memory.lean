/-
# Reading values from memory

A value that was written can be read back from memory. Its members may have been sorted in
between, as they are in a record of an update, and nothing is lost by that: keys are
distinct, so sorting only reorders.

A codec is faithful if it reads every value that it writes, given room for the containers
in it. The codecs of single values are faithful one by one; a record is faithful if its
fields are.
-/

import Workbench.Meta
import Workbench.Proofs.Json.Record

namespace Workbench.Json

/-! ## Lists of items and members -/

theorem ofItems_eq_map (items : List Json) : Node.ofItems items = items.map Node.ofJson := by
  induction items with
  | nil => rfl
  | cons item rest ih => rw [Node.ofItems, ih, List.map_cons]

theorem ofMembers_eq_map (members : List (String × Json)) :
    Node.ofMembers members = members.map fun member => (some member.1, Node.ofJson member.2) := by
  induction members with
  | nil => rfl
  | cons member rest ih => rw [Node.ofMembers, ih, List.map_cons]

theorem sortedItems_eq_map (items : List Json) : sortedItems items = items.map sorted := by
  induction items with
  | nil => rfl
  | cons item rest ih => rw [sortedItems, ih, List.map_cons]

theorem sortedMembers_eq_map (members : List (String × Json)) :
    sortedMembers members = members.map fun member => (member.1, member.2.sorted) := by
  induction members with
  | nil => rfl
  | cons member rest ih => rw [sortedMembers, ih, List.map_cons]

/-- A container nests deeper than each of its items. -/
theorem depth_le_itemsDepth {items : List Json} {item : Json} (present : item ∈ items) :
    item.depth ≤ itemsDepth items := by
  induction items with
  | nil => cases present
  | cons first rest ih =>
      rw [itemsDepth]
      rcases List.mem_cons.1 present with rfl | there
      · exact Nat.le_max_left ..
      · exact Nat.le_trans (ih there) (Nat.le_max_right ..)

theorem depth_le_membersDepth {members : List (String × Json)} {member : String × Json}
    (present : member ∈ members) : member.2.depth ≤ membersDepth members := by
  induction members with
  | nil => cases present
  | cons first rest ih =>
      rw [membersDepth]
      rcases List.mem_cons.1 present with rfl | there
      · exact Nat.le_max_left ..
      · exact Nat.le_trans (ih there) (Nat.le_max_right ..)

/-! ## Sorting -/

theorem insertMember_of_last {key : String} {value : Json} {members : List (String × Json)}
    (last : ∀ member ∈ members, member.1 < key) :
    insertMember key value members = members ++ [(key, value)] := by
  induction members with
  | nil => rfl
  | cons member rest ih =>
      obtain ⟨name, held⟩ := member
      have before : name < key := last _ List.mem_cons_self
      have notAfter : ¬ key < name := String.lt_asymm before
      have notSame : key ≠ name := fun same => String.lt_irrefl name (same ▸ before)
      rw [insertMember, if_neg notAfter, if_neg notSame,
        ih fun member present => last member (List.mem_cons_of_mem _ present)]
      rfl

/-- Members whose keys increase are sorted already. -/
theorem sortMembers_of_keysIncrease {members : List (String × Json)}
    (increasing : KeysIncrease members) : sortMembers members = members := by
  suffices general : ∀ start, KeysIncrease (start ++ members) →
      members.foldl (fun sorted member => insertMember member.1 member.2 sorted) start =
        start ++ members from general [] increasing
  clear increasing
  induction members with
  | nil => exact fun start _ => (List.append_nil start).symm
  | cons member rest ih =>
      intro start increasing
      have parts := List.pairwise_append.1 (by
        simpa only [KeysIncrease, List.map_append] using increasing)
      have last : ∀ other ∈ start, other.1 < member.1 := fun other present =>
        parts.2.2 _ (List.mem_map_of_mem present) _ (by simp)
      rw [List.foldl_cons, insertMember_of_last last]
      have regrouped : start ++ [(member.1, member.2)] ++ rest = start ++ member :: rest := by simp
      rw [ih _ (regrouped ▸ increasing), regrouped]

theorem insertMember_perm {key : String} {value : Json} {members : List (String × Json)}
    (fresh : key ∉ members.map Prod.fst) :
    (insertMember key value members).Perm ((key, value) :: members) := by
  induction members with
  | nil => exact .refl _
  | cons member rest ih =>
      obtain ⟨name, held⟩ := member
      rw [List.map_cons, List.mem_cons, not_or] at fresh
      rw [insertMember, if_neg fresh.1]
      split
      · exact .refl _
      · exact ((ih fresh.2).cons _).trans (.swap ..)

/-- Sorting members with distinct keys only reorders them. -/
theorem sortMembers_perm {members : List (String × Json)}
    (distinct : (members.map Prod.fst).Nodup) : (sortMembers members).Perm members := by
  suffices general : ∀ start, ((start ++ members).map Prod.fst).Nodup →
      (members.foldl (fun sorted member => insertMember member.1 member.2 sorted) start).Perm
        (start ++ members) from general [] distinct
  clear distinct
  induction members with
  | nil => exact fun start _ => by simp
  | cons member rest ih =>
      intro start distinct
      have moved : (start ++ member :: rest).Perm (member :: start ++ rest) :=
        List.perm_middle
      have apart : (member.1 :: (start ++ rest).map Prod.fst).Nodup :=
        (moved.map Prod.fst).nodup_iff.1 distinct
      have fresh : member.1 ∉ start.map Prod.fst := by
        intro there
        rw [List.map_append] at apart
        exact (List.nodup_cons.1 apart).1 (List.mem_append_left _ there)
      have inserted := @insertMember_perm _ member.2 _ fresh
      refine (ih _ ?_).trans ((inserted.append_right rest).trans moved.symm)
      exact ((inserted.append_right rest).map Prod.fst).nodup_iff.2 apart

/-- A canonical value is sorted at every depth already. -/
theorem sorted_of_canonical {value : Json} (canonical : value.Canonical) :
    value.sorted = value := by
  induction canonical with
  | null => rfl
  | bool held => rfl
  | num held => rfl
  | str held => rfl
  | arr items each ih =>
      rw [sorted, sortedItems_eq_map, List.map_congr_left ih, List.map_id']
  | obj members increasing each ih =>
      have same : members.map (fun member => (member.1, member.2.sorted)) = members := by
        have step : ∀ member ∈ members, (member.1, member.2.sorted) = member :=
          fun member present => by rw [ih member present]
        rw [List.map_congr_left step, List.map_id']
      rw [sorted, sortedMembers_eq_map, same, sortMembers_of_keysIncrease increasing]

/-! ## Values -/

mutual

/-- A value in memory is taken with its members in canonical order if there is room for the
containers in it, and not at all if there is not. -/
theorem toJson?_ofJson_eq (value : Json) (room : Nat) :
    (Node.ofJson value).toJson? room =
      if value.depth ≤ room then some value.sorted else none := by
  match value with
  | .null => exact (if_pos (Nat.zero_le room)).symm
  | .bool held => exact (if_pos (Nat.zero_le room)).symm
  | .num held => exact (if_pos (Nat.zero_le room)).symm
  | .str held => exact (if_pos (Nat.zero_le room)).symm
  | .arr items =>
      cases room with
      | zero => rfl
      | succ inner =>
          rw [Node.ofJson, Node.toJson?, if_pos rfl, itemsToJson?_ofItems_eq items inner]
          simp only [depth, Nat.add_le_add_iff_right]
          by_cases fits : itemsDepth items ≤ inner
          · rw [if_pos fits, if_pos fits]
            rfl
          · rw [if_neg fits, if_neg fits]
            rfl
  | .obj members =>
      cases room with
      | zero => rfl
      | succ inner =>
          rw [Node.ofJson, Node.toJson?, if_pos rfl, membersToJson?_ofMembers_eq members inner]
          simp only [depth, Nat.add_le_add_iff_right]
          by_cases fits : membersDepth members ≤ inner
          · rw [if_pos fits, if_pos fits]
            rfl
          · rw [if_neg fits, if_neg fits]
            rfl

theorem itemsToJson?_ofItems_eq (items : List Json) (room : Nat) :
    Node.itemsToJson? room (Node.ofItems items) =
      if itemsDepth items ≤ room then some (sortedItems items) else none := by
  match items with
  | [] => exact (if_pos (Nat.zero_le room)).symm
  | item :: rest =>
      simp only [Node.ofItems, Node.itemsToJson?, toJson?_ofJson_eq item room,
        itemsToJson?_ofItems_eq rest room, itemsDepth, Nat.max_le]
      by_cases first : item.depth ≤ room
      · by_cases others : itemsDepth rest ≤ room
        · simp only [first, others, and_self, if_true]
          rfl
        · simp only [first, others, and_false, if_true, if_false]
          rfl
      · simp only [first, false_and, if_false]

theorem membersToJson?_ofMembers_eq (members : List (String × Json)) (room : Nat) :
    Node.membersToJson? room (Node.ofMembers members) =
      if membersDepth members ≤ room then some (sortedMembers members) else none := by
  match members with
  | [] => exact (if_pos (Nat.zero_le room)).symm
  | (name, value) :: rest =>
      simp only [Node.ofMembers, Node.membersToJson?, toJson?_ofJson_eq value room,
        membersToJson?_ofMembers_eq rest room, membersDepth, Nat.max_le]
      by_cases first : value.depth ≤ room
      · by_cases others : membersDepth rest ≤ room
        · simp only [first, others, and_self, if_true]
          rfl
        · simp only [first, others, and_false, if_true, if_false]
          rfl
      · simp only [first, false_and, if_false]

end

/-- A canonical value is read back from memory, given room for it. -/
theorem toJson?_ofJson {value : Json} (canonical : value.Canonical) {room : Nat}
    (fits : value.depth ≤ room) : (Node.ofJson value).toJson? room = some value := by
  rw [toJson?_ofJson_eq, if_pos fits, sorted_of_canonical canonical]

/-! ## Faithful codecs -/

/-- A codec reads what it writes for a value, given room for it. -/
def Codec.ReadsBack {α : Type} (codec : Codec α) (value : α) : Prop :=
  ∀ room, (codec.write value).depth ≤ room →
    codec.read room (Node.ofJson (codec.write value)) = .ok value

/-- A codec reads every value that it writes, given room for it. -/
def Codec.Faithful {α : Type} (codec : Codec α) : Prop :=
  ∀ (value : α) (room : Nat), (codec.write value).depth ≤ room →
    codec.read room (Node.ofJson (codec.write value)) = .ok value

/-- A codec writes members in canonical order only. -/
def Codec.WritesSorted {α : Type} (codec : Codec α) : Prop :=
  ∀ value : α, (codec.write value).sorted = codec.write value

namespace Codec

theorem faithful_string : string.Faithful := fun _ _ _ => rfl

theorem writesSorted_string : string.WritesSorted := fun _ => rfl

theorem faithful_int64 : int64.Faithful := by
  intro value room _
  have above := value.le_toInt
  have below := value.toInt_lt
  have bounds : -0x8000000000000000 ≤ value.toInt ∧ value.toInt ≤ 0x7FFFFFFFFFFFFFFF := by omega
  simp only [int64, Node.ofJson, Number.ofInt64, readWhole, if_pos bounds, Except.map,
    Int64.ofInt_toInt]

theorem writesSorted_int64 : int64.WritesSorted := fun _ => rfl

theorem faithful_list {α : Type} {codec : Codec α} (faithful : codec.Faithful) :
    codec.list.Faithful := by
  intro values room fits
  obtain _ | inner := room
  · simp [list, depth] at fits
  · have each : ∀ value ∈ values, (codec.write value).depth ≤ inner := fun value present =>
      Nat.le_trans (depth_le_itemsDepth (List.mem_map_of_mem present))
        (by simpa [list, depth] using fits)
    have items : readItems codec inner (Node.ofItems (values.map codec.write)) = .ok values := by
      clear fits
      induction values with
      | nil => rfl
      | cons value rest ih =>
          rw [List.map_cons, Node.ofItems, readItems,
            faithful value inner (each value List.mem_cons_self),
            ih fun other present => each other (List.mem_cons_of_mem _ present)]
          rfl
    simp only [list, Node.ofJson, items, if_true]

theorem writesSorted_list {α : Type} {codec : Codec α} (sorted : codec.WritesSorted) :
    codec.list.WritesSorted := by
  intro values
  have same : (values.map codec.write).map Json.sorted = values.map codec.write := by
    rw [List.map_map]
    exact List.map_congr_left fun value _ => sorted value
  rw [list, Json.sorted, sortedItems_eq_map, same]

end Codec

/-! ## Faithful records -/

namespace Fields

variable {ρ : Type}

/-- Every field reads what it writes, and a field that is left out has its value as
fallback. -/
def Faithful {ρ : Type} : Fields ρ → Prop
  | .nil => True
  | .cons field rest =>
      field.codec.Faithful ∧ field.codec.WritesSorted ∧
        (∀ value, field.omitted value → field.fallback = some value) ∧ rest.Faithful

/-- Each of the values is read back: one that is written, by its codec, and one that is left
out, as the fallback of its field. -/
def ReadBack {ρ : Type} : Fields ρ → ρ → Prop
  | .nil, _ => True
  | .cons field rest, (value, values) =>
      (if field.omitted value then field.fallback = some value else field.codec.ReadsBack value) ∧
        rest.ReadBack values

theorem Faithful.readBack {fields : Fields ρ} (faithful : fields.Faithful) (values : ρ) :
    fields.ReadBack values := by
  induction fields with
  | nil => trivial
  | cons field rest ih =>
      obtain ⟨value, values⟩ := values
      obtain ⟨reads, -, leaves, others⟩ := faithful
      refine ⟨?_, ih others values⟩
      by_cases omitted : field.omitted value
      · rw [if_pos omitted]
        exact leaves value omitted
      · rw [if_neg omitted]
        exact reads value

/-- Values that are read back are read back one by one, given room for each member. -/
theorem ReadBack.readsAs {fields : Fields ρ} {values : ρ} {room : Nat}
    (reads : fields.ReadBack values)
    (fits : ∀ member ∈ fields.members values, member.2.depth ≤ room) :
    fields.ReadsAs room Node.ofJson values values := by
  induction fields with
  | nil => trivial
  | cons field rest ih =>
      obtain ⟨value, values⟩ := values
      obtain ⟨first, others⟩ := reads
      rw [members] at fits
      by_cases omitted : field.omitted value
      · rw [if_pos omitted] at first fits
        refine ⟨?_, ih others fits⟩
        rw [if_pos omitted]
        exact first
      · rw [if_neg omitted] at first fits
        refine ⟨?_, ih others fun member present => fits member (List.mem_cons_of_mem _ present)⟩
        rw [if_neg omitted]
        exact first room (fits _ List.mem_cons_self)

/-- The values of members are written in canonical order, so only the members themselves can
still be out of order. -/
theorem Faithful.sortedMembers {fields : Fields ρ} (faithful : fields.Faithful) (values : ρ) :
    Json.sortedMembers (fields.members values) = fields.members values := by
  induction fields with
  | nil => rfl
  | cons field rest ih =>
      obtain ⟨value, values⟩ := values
      obtain ⟨-, sorted, -, others⟩ := faithful
      rw [members]
      split
      · exact ih others values
      · rw [Json.sortedMembers, sorted value, ih others values]

/-- The keys of the members that are written. -/
theorem nodup_keys_members {fields : Fields ρ} (distinct : fields.names.Nodup) (values : ρ) :
    ((fields.members values).map Prod.fst).Nodup := by
  have keys := @nodup_keys_nodes _ Node.ofJson _ distinct values
  rw [nodes, List.map_map] at keys
  have somes : ((fields.members values).map Prod.fst).map some =
      (fields.members values).map
        (Prod.fst ∘ fun member => (some member.1, Node.ofJson member.2)) := by
    rw [List.map_map]
    rfl
  rw [← somes] at keys
  exact List.Nodup.of_map some keys

/-- A record that was written and sorted is read back from memory. -/
theorem decodeJson_sorted {α : Type} {fields : Fields ρ} (record : String) (toValues : α → ρ)
    (ofValues : ρ → α) (faithful : fields.Faithful) (distinct : fields.names.Nodup)
    (inverse : ∀ value, ofValues (toValues value) = value) (value : α) :
    (fields.codec record toValues ofValues).decodeJson
      ((fields.codec record toValues ofValues).write value).sorted = .ok value := by
  have reordered := sortMembers_perm (nodup_keys_members distinct (toValues value))
  have nodesReordered :
      (Node.ofMembers (sortMembers (fields.members (toValues value)))).Perm
        (fields.nodes Node.ofJson (toValues value)) := by
    rw [ofMembers_eq_map]
    exact reordered.map _
  have fits : ∀ member ∈ fields.members (toValues value),
      member.2.depth ≤ membersDepth (sortMembers (fields.members (toValues value))) :=
    fun member present => depth_le_membersDepth (reordered.mem_iff.2 present)
  have read := (readObject_eq_ok_iff distinct nodesReordered).2 ((faithful.readBack _).readsAs fits)
  simp only [Codec.decodeJson, codec, Json.sorted, faithful.sortedMembers, depth, Node.ofJson,
    Fields.read, read, Except.map, inverse]

end Fields

end Json

namespace Meta

theorem faithful_codec : codec.Faithful := by
  intro entries room fits
  have found := Json.toJson?_ofJson entries.canonical fits
  simp only [codec, Json.Node.ofJson] at found ⊢
  split
  · rename_i same
    rw [found, Option.some.injEq, Json.obj.injEq] at same
    subst same
    rfl
  · rename_i impossible
    exact absurd found (impossible _)

theorem writesSorted_codec : codec.WritesSorted := fun entries =>
  Json.sorted_of_canonical entries.canonical

end Meta

end Workbench
