/-
# Reading the members of a record

A record that was written is read from the members that were written for it, in whatever
order they come. What is read for each field is what its own codec makes of its own
member: the fields do not see each other. This is stated as an equivalence, so it can be
used for values that read back exactly as well as for values that do not.

The members are given as nodes, and how a written value became a node is left open: from
memory, or over a text.
-/

import Mathlib.Data.List.Nodup
import Workbench.Json.Record

namespace Workbench.Json

/-- The entry of a list with distinct keys is found under its key. -/
theorem lookup_eq_some_of_mem {κ ν : Type} [BEq κ] [LawfulBEq κ] {entries : List (κ × ν)}
    (distinct : (entries.map Prod.fst).Nodup) {key : κ} {value : ν}
    (present : (key, value) ∈ entries) : entries.lookup key = some value := by
  induction entries with
  | nil => cases present
  | cons head rest ih =>
      obtain ⟨name, held⟩ := head
      rw [List.map_cons, List.nodup_cons] at distinct
      obtain ⟨fresh, others⟩ := distinct
      rcases List.mem_cons.1 present with same | there
      · cases same
        exact List.lookup_cons_self
      · have other : key ≠ name := by
          intro same
          subst same
          exact fresh (List.mem_map.2 ⟨_, there, rfl⟩)
        rw [List.lookup_cons, beq_false_of_ne other]
        exact ih others there

namespace Fields

variable {ρ : Type}

/-- The names of the fields, in order. -/
def names {ρ : Type} : Fields ρ → List String
  | .nil => []
  | .cons field rest => field.name :: rest.names

/-- The members that are written for given values, as nodes. -/
def nodes (nodeOf : Json → Node) (fields : Fields ρ) (values : ρ) :
    List (Option String × Node) :=
  (fields.members values).map fun member => (some member.1, nodeOf member.2)

/-- Each field of `found` is what the field's codec reads from the member that was written
for `values`; a field that was not written has its fallback. -/
def ReadsAs (room : Nat) (nodeOf : Json → Node) {ρ : Type} : Fields ρ → ρ → ρ → Prop
  | .nil, _, _ => True
  | .cons field rest, (value, values), (read, found) =>
      (if field.omitted value then field.fallback = some read
        else field.codec.read room (nodeOf (field.codec.write value)) = .ok read) ∧
        rest.ReadsAs room nodeOf values found

variable {room : Nat} {nodeOf : Json → Node}

/-! ## Names of members -/

theorem nodes_cons {α : Type} (field : Field α) (rest : Fields ρ) (value : α) (values : ρ) :
    (cons field rest).nodes nodeOf (value, values) =
      if field.omitted value then rest.nodes nodeOf values
      else (some field.name, nodeOf (field.codec.write value)) :: rest.nodes nodeOf values := by
  rw [nodes, members]
  split <;> rfl

/-- Only fields are written. -/
theorem mem_names_of_mem_nodes {fields : Fields ρ} {values : ρ} {name : String} {node : Node}
    (present : (some name, node) ∈ fields.nodes nodeOf values) : name ∈ fields.names := by
  induction fields with
  | nil => cases present
  | cons field rest ih =>
      obtain ⟨value, values⟩ := values
      rw [nodes_cons] at present
      split at present
      · exact List.mem_cons_of_mem _ (ih present)
      · rcases List.mem_cons.1 present with same | there
        · cases same
          exact List.mem_cons_self
        · exact List.mem_cons_of_mem _ (ih there)

/-- No key is written twice. -/
theorem nodup_keys_nodes {fields : Fields ρ} (distinct : fields.names.Nodup) (values : ρ) :
    ((fields.nodes nodeOf values).map Prod.fst).Nodup := by
  induction fields with
  | nil => exact List.nodup_nil
  | cons field rest ih =>
      obtain ⟨value, values⟩ := values
      obtain ⟨fresh, others⟩ := List.nodup_cons.1 distinct
      rw [nodes_cons]
      split
      · exact ih others values
      · rw [List.map_cons, List.nodup_cons]
        refine ⟨fun again => ?_, ih others values⟩
        obtain ⟨⟨key, node⟩, there, same⟩ := List.mem_map.1 again
        cases same
        exact fresh (mem_names_of_mem_nodes there)

/-! ## Taking the fields from the members -/

/-- Members that hold exactly what was written for some fields, as far as these fields are
concerned. -/
def Hold (nodeOf : Json → Node) (fields : Fields ρ) (values : ρ)
    (members : List (Option String × Node)) : Prop :=
  (∀ member ∈ fields.nodes nodeOf values, member ∈ members) ∧
    ∀ name ∈ fields.names, ∀ node, (some name, node) ∈ members →
      (some name, node) ∈ fields.nodes nodeOf values

theorem Hold.rest {α : Type} {field : Field α} {rest : Fields ρ} {value : α} {values : ρ}
    {members : List (Option String × Node)} (distinct : (cons field rest).names.Nodup)
    (hold : (cons field rest).Hold nodeOf (value, values) members) :
    rest.Hold nodeOf values members := by
  obtain ⟨written, only⟩ := hold
  obtain ⟨fresh, -⟩ := List.nodup_cons.1 distinct
  rw [nodes_cons] at written only
  constructor
  · intro member present
    apply written member
    split
    · exact present
    · exact List.mem_cons_of_mem _ present
  · intro name known node present
    have there := only name (List.mem_cons_of_mem _ known) node present
    split at there
    · exact there
    · rcases List.mem_cons.1 there with same | there
      · cases same
        exact absurd known fresh
      · exact there

/-- The member of the first field is found under its name, if one was written. -/
theorem Hold.memberNamed?_first {α : Type} {field : Field α} {rest : Fields ρ} {value : α}
    {values : ρ} {members : List (Option String × Node)}
    (distinct : (cons field rest).names.Nodup) (keys : (members.map Prod.fst).Nodup)
    (hold : (cons field rest).Hold nodeOf (value, values) members) :
    memberNamed? field.name members =
      if field.omitted value then none else some (nodeOf (field.codec.write value)) := by
  obtain ⟨written, only⟩ := hold
  obtain ⟨fresh, -⟩ := List.nodup_cons.1 distinct
  rw [nodes_cons] at written only
  by_cases omitted : field.omitted value
  · rw [if_pos omitted, memberNamed?, List.lookup_eq_none_iff]
    rintro ⟨key, node⟩ present
    by_contra same
    have named : some field.name = key := by simpa using same
    subst named
    have there := only field.name List.mem_cons_self node present
    rw [if_pos omitted] at there
    exact fresh (mem_names_of_mem_nodes there)
  · rw [if_neg omitted] at written
    rw [if_neg omitted]
    exact lookup_eq_some_of_mem keys (written _ List.mem_cons_self)

/-- What is taken for the fields is what their codecs read. -/
theorem pick_eq_ok_iff {fields : Fields ρ} {values found : ρ}
    {members : List (Option String × Node)} (distinct : fields.names.Nodup)
    (keys : (members.map Prod.fst).Nodup) (hold : fields.Hold nodeOf values members) :
    fields.pick room members = .ok found ↔ fields.ReadsAs room nodeOf values found := by
  induction fields with
  | nil => exact ⟨fun _ => trivial, fun _ => rfl⟩
  | cons field rest ih =>
      obtain ⟨value, values⟩ := values
      obtain ⟨read, found⟩ := found
      have others := @ih values found (List.nodup_cons.1 distinct).2 (hold.rest distinct)
      rw [ReadsAs, ← others, pick, hold.memberNamed?_first distinct keys]
      cases omitted : field.omitted value with
      | true =>
          simp only [if_true]
          cases field.fallback with
          | none => simp
          | some fallback =>
              cases rest.pick room members <;> simp [Except.map]
      | false =>
          simp only [Bool.false_eq_true, if_false]
          cases field.codec.read room (nodeOf (field.codec.write value)) with
          | error problem => simp
          | ok value =>
              cases rest.pick room members <;> simp [Except.map]

/-! ## Checking the members -/

/-- A member that was written, and that reads, passes the check under its name. -/
theorem check?_of_mem_nodes {fields : Fields ρ} {values found : ρ}
    (distinct : fields.names.Nodup) (reads : fields.ReadsAs room nodeOf values found)
    {name : String} {node : Node} (present : (some name, node) ∈ fields.nodes nodeOf values) :
    fields.check? room name node = some (.ok ()) := by
  induction fields with
  | nil => cases present
  | cons field rest ih =>
      obtain ⟨value, values⟩ := values
      obtain ⟨read, found⟩ := found
      obtain ⟨first, later⟩ := reads
      obtain ⟨fresh, others⟩ := List.nodup_cons.1 distinct
      have elsewhere : (some name, node) ∈ rest.nodes nodeOf values →
          (cons field rest).check? room name node = some (.ok ()) := by
        intro there
        have other : field.name ≠ name := fun same =>
          fresh (same ▸ mem_names_of_mem_nodes there)
        rw [check?, if_neg other]
        exact ih others later there
      rw [nodes_cons] at present
      by_cases omitted : field.omitted value
      · rw [if_pos omitted] at present
        exact elsewhere present
      · rw [if_neg omitted] at present
        rcases List.mem_cons.1 present with same | there
        · cases same
          rw [if_neg omitted] at first
          rw [check?, if_pos rfl, first]
          rfl
        · exact elsewhere there

/-- Distinct members that all pass the check pass it together. -/
theorem checkMembers_eq_ok {fields : Fields ρ} {members : List (Option String × Node)}
    {seen : List String} (keys : (members.map Prod.fst).Nodup)
    (unseen : ∀ name ∈ seen, some name ∉ members.map Prod.fst)
    (each : ∀ member ∈ members, ∃ name, member.1 = some name ∧
      fields.check? room name member.2 = some (.ok ())) :
    fields.checkMembers room seen members = .ok () := by
  induction members generalizing seen with
  | nil => rfl
  | cons member rest ih =>
      obtain ⟨key, node⟩ := member
      obtain ⟨name, rfl, passes⟩ := each _ List.mem_cons_self
      obtain ⟨fresh, others⟩ := List.nodup_cons.1 keys
      have new : name ∉ seen := fun old => unseen name old List.mem_cons_self
      simp only at passes
      simp only [checkMembers, passes, if_neg new]
      refine ih others ?_ fun member present => each member (List.mem_cons_of_mem _ present)
      intro other known
      rcases List.mem_cons.1 known with rfl | old
      · exact fresh
      · exact fun there => unseen other old (List.mem_cons_of_mem _ there)

/-! ## Reading a written record -/

/-- Members in any order are read as the record that was written, field by field. -/
theorem readObject_eq_ok_iff {fields : Fields ρ} {values found : ρ}
    {members : List (Option String × Node)} (distinct : fields.names.Nodup)
    (same : members.Perm (fields.nodes nodeOf values)) :
    fields.readObject room members true = .ok found ↔
      fields.ReadsAs room nodeOf values found := by
  have keys : (members.map Prod.fst).Nodup :=
    (same.map Prod.fst).nodup_iff.2 (nodup_keys_nodes distinct values)
  have hold : fields.Hold nodeOf values members :=
    ⟨fun _ present => same.mem_iff.2 present, fun _ _ _ present => same.mem_iff.1 present⟩
  rw [← pick_eq_ok_iff distinct keys hold, readObject]
  constructor
  · intro read
    split at read
    · cases read
    · exact read
  · intro picked
    have reads := (pick_eq_ok_iff distinct keys hold).1 picked
    have passes : fields.checkMembers room [] members = .ok () := by
      refine checkMembers_eq_ok keys (fun _ impossible => nomatch impossible) ?_
      intro member present
      obtain ⟨key, node⟩ := member
      have written := same.mem_iff.1 present
      obtain ⟨⟨name, value⟩, -, equal⟩ := List.mem_map.1 written
      cases equal
      exact ⟨name, rfl, check?_of_mem_nodes distinct reads written⟩
    rw [passes]
    exact picked

end Fields

end Workbench.Json
