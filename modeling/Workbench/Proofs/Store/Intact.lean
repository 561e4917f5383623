/-
# References between rows

Objects refer to each other by identifiers: the client to its windows, a window to its workspace
and its tab, a workspace to its tabs, a tab to its blocks. A table is intact if each of these
identifiers leads to a row. This is asked of every row, also of one whose text cannot be read
again, so references are those of any object whose text the row may be. Text settles them:
objects with one row differ in their metadata at most.

No store call of a request takes a row away. So a table stays intact as long as whatever
is written refers to rows that are there when it is written.
-/

import Workbench.Proofs.Store.ReadBack
import Workbench.Proofs.Store.Replay

namespace Workbench

open Json

/-! ## Text settles references -/

theorem Json.Codec.RereadsAll.inj {α : Type} {codec : Codec α} {room : Nat}
    (rereads : codec.RereadsAll room) {first second : α}
    (same : Node.ofPrinted (codec.write first) = Node.ofPrinted (codec.write second)) :
    first = second := by
  have both := rereads first
  rw [same, rereads second, Except.ok.injEq] at both
  exact both.symm

/-- Records with one text have the same members. -/
theorem Json.Fields.nodes_eq_of_encode_eq {α ρ : Type} (fields : Fields ρ) {record : String}
    {toValues : α → ρ} {ofValues : ρ → α} {first second : α}
    (same : (fields.codec record toValues ofValues).encode first =
      (fields.codec record toValues ofValues).encode second) :
    fields.nodes Node.ofPrinted (toValues first) =
      fields.nodes Node.ofPrinted (toValues second) := by
  have printed := congrArg Node.ofText same
  rw [Codec.encode, Codec.encode, Node.ofText_text, Node.ofText_text] at printed
  have members := (Prod.mk.inj printed).1
  simp only [Fields.codec, Node.ofPrinted, Node.ofPrintedMembers_eq_map, Node.object.injEq] at members
  exact members.1

/-- The kind and the identifier of a row. -/
abbrev Reference : Type := Kind × String

namespace Kind

/-- The rows that an object refers to. -/
def references : (kind : Kind) → kind.Object → List Reference
  | .client, object => (Client.windowIds object).map (Kind.window, ·)
  | .window, object =>
      [(.workspace, Window.workspaceId object), (.tab, Window.activeTabId object)]
  | .workspace, object => (Workspace.tabIds object).map (Kind.tab, ·)
  | .tab, object => (Tab.blockIds object).map (Kind.block, ·)
  | .block, _ => []

@[simp]
theorem references_withVersion (kind : Kind) (object : kind.Object) (version : Int64) :
    kind.references (kind.withVersion object version) = kind.references object := by
  cases kind <;> rfl

@[simp]
theorem references_withMetadata (kind : Kind) (object : kind.Object) (metadata : Meta) :
    kind.references (kind.withMetadata object metadata) = kind.references object := by
  cases kind <;> rfl

/-- Objects with one row refer to the same rows. -/
theorem references_eq_of_toRow_eq (kind : Kind) {first second : kind.Object}
    (same : kind.toRow first = kind.toRow second) :
    kind.references first = kind.references second := by
  have text := (Row.mk.inj same).2.2.2
  have list {ids others : List String} (ids_eq : Node.ofPrinted (Codec.string.list.write ids) =
      Node.ofPrinted (Codec.string.list.write others)) : ids = others :=
    (Codec.rereadsAll_list (Codec.rereadsAll_string 0)).inj ids_eq
  have name {id other : String} (id_eq : Node.ofPrinted (Codec.string.write id) =
      Node.ofPrinted (Codec.string.write other)) : id = other :=
    (Codec.rereadsAll_string 0).inj id_eq
  cases kind with
  | client =>
      have nodes := Client.fields.nodes_eq_of_encode_eq text
      simp only [Client.fields, Fields.nodes_cons, Field.required, Field.withDefault,
        Bool.false_eq_true, if_false, List.cons.injEq, Prod.mk.injEq, true_and] at nodes
      exact congrArg (List.map (Kind.window, ·)) (list nodes.2.2.1)
  | window =>
      have nodes := Window.fields.nodes_eq_of_encode_eq text
      simp only [Window.fields, Fields.nodes_cons, Field.required, Field.withDefault,
        Bool.false_eq_true, if_false, List.cons.injEq, Prod.mk.injEq, true_and] at nodes
      rw [references, references, name nodes.2.2.1, name nodes.2.2.2.1]
  | workspace =>
      have nodes := Workspace.fields.nodes_eq_of_encode_eq text
      simp only [Workspace.fields, Fields.nodes_cons, Field.required, Field.withDefault,
        Bool.false_eq_true, if_false, List.cons.injEq, Prod.mk.injEq, true_and] at nodes
      exact congrArg (List.map (Kind.tab, ·)) (list nodes.2.2.2.1)
  | tab =>
      have nodes := Tab.fields.nodes_eq_of_encode_eq text
      simp only [Tab.fields, Fields.nodes_cons, Field.required, Field.withDefault,
        Bool.false_eq_true, if_false, List.cons.injEq, Prod.mk.injEq, true_and] at nodes
      exact congrArg (List.map (Kind.block, ·)) (list nodes.2.2.2.1)
  | block => rfl

end Kind

/-! ## Rows that are there -/

namespace Table

/-- There is a row for each of the references. -/
def HasAll (table : Table) (references : List Reference) : Prop :=
  ∀ reference ∈ references, (table.find? reference.1.name reference.2).isSome = true

theorem hasAll_nil (table : Table) : table.HasAll [] :=
  fun _ impossible => absurd impossible List.not_mem_nil

variable {table before after : Table} {write : RowWrite} {references others : List Reference}

theorem HasAll.append (first : table.HasAll references) (second : table.HasAll others) :
    table.HasAll (references ++ others) := fun reference there =>
  (List.mem_append.1 there).elim (first reference) (second reference)

theorem HasAll.mono (all : table.HasAll references) (fewer : others ⊆ references) :
    table.HasAll others :=
  fun reference there => all reference (fewer there)

/-- A write takes no row away. -/
theorem HasAll.takes (all : before.HasAll references) (takes : write.Takes before after) :
    after.HasAll references := by
  intro reference there
  rw [takes.find?_after]
  split
  · rfl
  · exact all reference there

/-- What was written is there. -/
theorem hasAll_written (takes : write.Takes before after) :
    after.HasAll [(write.kind, write.kind.oid write.object)] := by
  intro reference there
  rw [List.mem_singleton.1 there, takes.find?_after]
  exact (congrArg Option.isSome (if_pos rfl)).trans rfl

/-! ## Intact tables -/

/-- Every identifier by which a row refers to another leads to a row. -/
structure Intact (table : Table) : Prop where
  windows : ∀ client : Client, Kind.client.toRow client ∈ table.rows →
    ∀ id ∈ client.windowIds, (table.find? Kind.window.name id).isSome = true
  shown : ∀ window : Window, Kind.window.toRow window ∈ table.rows →
    (table.find? Kind.workspace.name window.workspaceId).isSome = true ∧
      (table.find? Kind.tab.name window.activeTabId).isSome = true
  tabs : ∀ workspace : Workspace, Kind.workspace.toRow workspace ∈ table.rows →
    ∀ id ∈ workspace.tabIds, (table.find? Kind.tab.name id).isSome = true
  blocks : ∀ tab : Tab, Kind.tab.toRow tab ∈ table.rows →
    ∀ id ∈ tab.blockIds, (table.find? Kind.block.name id).isSome = true

/-- The same for all kinds at once. -/
theorem intact_iff : table.Intact ↔ ∀ (kind : Kind) (object : kind.Object),
    kind.toRow object ∈ table.rows → table.HasAll (kind.references object) := by
  constructor
  · intro intact kind object present
    cases kind with
    | client => exact List.forall_mem_map.2 (intact.windows object present)
    | window =>
        obtain ⟨workspace, tab⟩ := intact.shown object present
        exact List.forall_mem_cons.2 ⟨workspace, List.forall_mem_singleton.2 tab⟩
    | workspace => exact List.forall_mem_map.2 (intact.tabs object present)
    | tab => exact List.forall_mem_map.2 (intact.blocks object present)
    | block => exact table.hasAll_nil
  · intro all
    constructor
    · exact fun client present => List.forall_mem_map.1 (all .client client present)
    · intro window present
      have both := List.forall_mem_cons.1 (all .window window present)
      exact ⟨both.1, both.2 _ List.mem_cons_self⟩
    · exact fun workspace present => List.forall_mem_map.1 (all .workspace workspace present)
    · exact fun tab present => List.forall_mem_map.1 (all .tab tab present)

theorem intact_empty : Intact .empty :=
  intact_iff.2 fun _ _ impossible => absurd impossible List.not_mem_nil

/-- An object that was read from a row refers to rows that are there. -/
theorem Intact.hasAll_of_ofRow (intact : table.Intact) (holds : table.HoldsObjects) {kind : Kind}
    {row : Row} (present : row ∈ table.rows) (named : row.kind = kind.name) {object : kind.Object}
    (decoded : kind.ofRow row = .ok object) : table.HasAll (kind.references object) := by
  obtain ⟨other, stored, rfl⟩ := holds.rows row present
  have kinds : other = kind := Kind.eq_of_name_eq named
  subst kinds
  obtain ⟨metadata, -, rfl⟩ := (other.ofRow_toRow_eq_ok_iff stored object).1 decoded
  rw [Kind.references_withMetadata]
  exact intact_iff.1 intact other stored present

/-- An intact table stays intact when it takes an object that refers to rows that are there. -/
theorem Intact.takes (intact : before.Intact) (takes : write.Takes before after)
    (known : before.HasAll (write.kind.references write.object)) : after.Intact := by
  apply intact_iff.2
  intro kind object present
  refine HasAll.takes ?_ takes
  rcases (Writes.single takes).mem_rows present with old | ⟨other, there, same⟩
  · exact intact_iff.1 intact kind object old
  · obtain rfl := List.mem_singleton.1 there
    obtain ⟨updateType, otherKind, written⟩ := other
    have kinds : kind = otherKind := Kind.eq_of_name_eq (Row.mk.inj same).1
    subst kinds
    rw [kind.references_eq_of_toRow_eq same]
    exact known

/-! ## Intact all the way -/

/-- A table takes several writes and is intact before, between and after them. -/
inductive WritesIntact : Table → List RowWrite → Table → Prop where
  | none {table : Table} : table.Intact → WritesIntact table [] table
  | more {before between after : Table} {write : RowWrite} {rest : List RowWrite} :
      before.Intact → write.Takes before between → WritesIntact between rest after →
      WritesIntact before (write :: rest) after

namespace WritesIntact

variable {between : Table} {written first second : List RowWrite}

theorem single (intact : before.Intact) (takes : write.Takes before after)
    (known : before.HasAll (write.kind.references write.object)) :
    WritesIntact before [write] after :=
  .more intact takes (.none (intact.takes takes known))

theorem append (early : WritesIntact before first between)
    (late : WritesIntact between second after) : WritesIntact before (first ++ second) after := by
  induction early with
  | none _ => exact late
  | more intact takes _ ih => exact .more intact takes (ih late)

theorem writes (all : WritesIntact before written after) : Writes before written after := by
  induction all with
  | none _ => exact .none _
  | more _ takes _ ih => exact .more takes ih

theorem intact_after (all : WritesIntact before written after) : after.Intact := by
  induction all with
  | none intact => exact intact
  | more _ _ _ ih => exact ih

theorem hasAll (all : WritesIntact before written after) (known : before.HasAll references) :
    after.HasAll references := by
  induction all with
  | none _ => exact known
  | more _ takes _ ih => exact ih (known.takes takes)

/-- Whoever replays the records one by one sees an intact table after each of them. -/
theorem intact_replay (all : WritesIntact before written after) {done : UpdateBatch}
    (early : done <+: written.map RowWrite.record) : (UpdateBatch.replay done before).Intact := by
  induction all generalizing done with
  | none intact =>
      rw [List.prefix_nil.1 early]
      exact intact
  | @more before _ _ write rest intact takes _ ih =>
      rw [List.map_cons, List.prefix_cons_iff] at early
      rcases early with rfl | ⟨others, rfl, following⟩
      · exact intact
      · rw [UpdateBatch.replay, List.foldl_cons, takes.replay_record]
        exact ih following

end WritesIntact

end Table

end Workbench
