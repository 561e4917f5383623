/-
# The objects behind the rows

The rows of a table hold objects as text. Seen from outside a store is a graph of objects that
name each other: for each kind the objects of that kind, oldest first. This module says when a
table holds a graph, and what a write to the table does to the graph that it holds.

Blocks are special. Their metadata is whatever the caller wants, so a block need not be
readable; no other object refers to anything through a block.
-/

import Mathlib.Logic.Function.Basic
import Workbench.Proofs.Store.Reached

namespace Workbench

/-- The objects of every kind, oldest first. -/
abbrev ObjectGraph := (kind : Kind) → List kind.Object

namespace ObjectGraph

variable (graph : ObjectGraph) {kind other : Kind}

/-- The graph without objects. -/
def empty : ObjectGraph := fun _ => []

/-- The graph with one more object at the end of its kind. -/
def add (kind : Kind) (object : kind.Object) : ObjectGraph :=
  Function.update graph kind (graph kind ++ [object])

/-- The graph with an object put in the place of the one with its identifier. -/
def put (kind : Kind) (object : kind.Object) : ObjectGraph :=
  Function.update graph kind
    ((graph kind).map fun held => if kind.oid held = kind.oid object then object else held)

/-- Whether an identifier names an object of a kind. -/
def Names (kind : Kind) (oid : String) : Prop := ∃ object ∈ graph kind, kind.oid object = oid

@[simp]
theorem add_self (object : kind.Object) : graph.add kind object kind = graph kind ++ [object] :=
  Function.update_self ..

@[simp]
theorem put_self (object : kind.Object) :
    graph.put kind object kind =
      (graph kind).map fun held => if kind.oid held = kind.oid object then object else held :=
  Function.update_self ..

theorem add_of_ne (apart : other ≠ kind) (object : kind.Object) :
    graph.add kind object other = graph other :=
  Function.update_of_ne apart ..

theorem put_of_ne (apart : other ≠ kind) (object : kind.Object) :
    graph.put kind object other = graph other :=
  Function.update_of_ne apart ..

variable {graph} {oid : String}

/-- The objects that were there stay when an object is added. -/
theorem mem_add {held : other.Object} (there : held ∈ graph other) (kind : Kind)
    (object : kind.Object) : held ∈ graph.add kind object other := by
  by_cases here : other = kind
  · subst here
    rw [add_self]
    exact List.mem_append_left _ there
  · rw [add_of_ne graph here]
    exact there

theorem Names.add (names : graph.Names other oid) (kind : Kind) (object : kind.Object) :
    (graph.add kind object).Names other oid := by
  obtain ⟨held, there, same⟩ := names
  exact ⟨held, mem_add there kind object, same⟩

/-- An object that was added is named. -/
theorem names_add_self (object : kind.Object) :
    (graph.add kind object).Names kind (kind.oid object) :=
  ⟨object, by simp, rfl⟩

/-- The object that is put in the place of another is there. -/
theorem mem_put {held object : kind.Object} (there : held ∈ graph kind)
    (same : kind.oid held = kind.oid object) : object ∈ graph.put kind object kind := by
  rw [put_self]
  exact List.mem_map.2 ⟨held, there, if_pos same⟩

/-- An object stays unless the other is put in its place. -/
theorem mem_put_self {held : kind.Object} (there : held ∈ graph kind) (object : kind.Object) :
    (kind.oid held = kind.oid object ∧ object ∈ graph.put kind object kind) ∨
      held ∈ graph.put kind object kind := by
  by_cases same : kind.oid held = kind.oid object
  · exact .inl ⟨same, mem_put there same⟩
  · rw [put_self]
    exact .inr (List.mem_map.2 ⟨held, there, if_neg same⟩)

theorem mem_put_of_ne {held : other.Object} (there : held ∈ graph other) (apart : other ≠ kind)
    (object : kind.Object) : held ∈ graph.put kind object other := by
  rw [put_of_ne graph apart]
  exact there

/-- Putting an object in the place of another changes no name. -/
theorem Names.put (names : graph.Names other oid) (kind : Kind) (object : kind.Object) :
    (graph.put kind object).Names other oid := by
  obtain ⟨held, there, same⟩ := names
  by_cases here : other = kind
  · subst here
    rcases mem_put_self there object with ⟨replaced, now⟩ | still
    · exact ⟨object, now, replaced.symm.trans same⟩
    · exact ⟨held, still, same⟩
  · exact ⟨held, mem_put_of_ne there here object, same⟩

end ObjectGraph

/-- A table holds a graph: the rows of every kind hold its objects in their order, and every row
that is not a block's gives back exactly the object that it holds. -/
structure Table.Holds (table : Table) (graph : ObjectGraph) : Prop where
  rows : ∀ kind, table.ofKind kind.name = (graph kind).map kind.toRow
  read : ∀ kind, kind ≠ .block → ∀ object ∈ graph kind, kind.ofRow (kind.toRow object) = .ok object

namespace Table.Holds

variable {table before after : Table} {graph : ObjectGraph} {kind : Kind}

theorem empty : Table.empty.Holds .empty where
  rows := fun _ => rfl
  read := fun _ _ _ impossible => absurd impossible List.not_mem_nil

/-- No two objects of a kind have the same identifier. -/
theorem nodup_oids (holds : table.Holds graph) (kind : Kind) :
    ((graph kind).map kind.oid).Nodup := by
  have keys : ((table.ofKind kind.name).map Row.key).Nodup :=
    table.keysDistinct.sublist (List.filter_sublist.map Row.key)
  rw [holds.rows kind, List.map_map] at keys
  have sameKind : ((graph kind).map kind.oid).map (Prod.mk kind.name) =
      (graph kind).map (Row.key ∘ kind.toRow) := by
    rw [List.map_map]
    rfl
  exact List.Nodup.of_map _ (sameKind ▸ keys)

/-- What a row of a kind other than blocks gives back is an object of the graph, and the row is
its row. -/
theorem of_ofRow (holds : table.Holds graph) (notBlock : kind ≠ .block) {row : Row}
    (there : row ∈ table.ofKind kind.name) {object : kind.Object}
    (decoded : kind.ofRow row = .ok object) : object ∈ graph kind ∧ row = kind.toRow object := by
  rw [holds.rows kind] at there
  obtain ⟨held, inGraph, rfl⟩ := List.mem_map.1 there
  rw [holds.read kind notBlock held inGraph, Except.ok.injEq] at decoded
  exact ⟨decoded ▸ inGraph, congrArg kind.toRow decoded⟩

/-- An object that is found under an identifier is the one with this identifier. -/
theorem of_find? (holds : table.Holds graph) (notBlock : kind ≠ .block) {oid : String} {row : Row}
    (found : table.find? kind.name oid = some row) {object : kind.Object}
    (decoded : kind.ofRow row = .ok object) : object ∈ graph kind ∧ kind.oid object = oid := by
  obtain ⟨sameKind, sameOid⟩ := kind_oid_of_find? found
  have there : row ∈ table.ofKind kind.name := by
    rw [ofKind, List.mem_filter, decide_eq_true_iff]
    exact ⟨(find?_eq_some_iff.1 found).1, sameKind⟩
  obtain ⟨inGraph, rfl⟩ := holds.of_ofRow notBlock there decoded
  exact ⟨inGraph, sameOid⟩

/-- A creation adds the object to the graph. -/
theorem created (holds : before.Holds graph) {object : kind.Object}
    (takes : RowWrite.Takes before ⟨.created, kind, object⟩ after)
    (readable : kind ≠ .block → kind.ofRow (kind.toRow object) = .ok object) :
    after.Holds (graph.add kind object) := by
  cases takes with
  | created first alone inserted =>
      constructor
      · intro other
        rw [ofKind_of_insert? inserted, holds.rows other]
        by_cases same : other = kind
        · subst same
          rw [if_pos (by rfl), ObjectGraph.add_self, List.map_append]
          rfl
        · have names : (kind.toRow object).kind ≠ other.name :=
            fun equal => same (Kind.eq_of_name_eq equal).symm
          rw [if_neg names, List.append_nil, ObjectGraph.add_of_ne graph same]
      · intro other notBlock held there
        by_cases same : other = kind
        · subst same
          rw [ObjectGraph.add_self, List.mem_append, List.mem_singleton] at there
          rcases there with old | rfl
          · exact holds.read other notBlock held old
          · exact readable notBlock
        · rw [ObjectGraph.add_of_ne graph same] at there
          exact holds.read other notBlock held there

/-- A change puts the object in the place of the one that was there. -/
theorem updated (holds : before.Holds graph) {object : kind.Object}
    (takes : RowWrite.Takes before ⟨.updated, kind, object⟩ after)
    (readable : kind ≠ .block → kind.ofRow (kind.toRow object) = .ok object) :
    after.Holds (graph.put kind object) := by
  cases takes with
  | updated expected raised swapped =>
      obtain ⟨-, written⟩ := replace?_eq_some_iff.1 swapped
      subst written
      constructor
      · intro other
        rw [ofKind_overwrite, holds.rows other, List.map_map]
        by_cases same : other = kind
        · subst same
          rw [ObjectGraph.put_self, List.map_map]
          apply List.map_congr_left
          intro held _
          show overwriteRow _ _ _ _ (other.toRow held) = other.toRow (if _ then object else held)
          by_cases here : other.oid held = other.oid object
          · have key : (other.toRow held).key = (other.name, other.oid object) :=
              congrArg (Prod.mk other.name) here
            rw [if_pos here, overwriteRow_of_eq key]
            rfl
          · have key : (other.toRow held).key ≠ (other.name, other.oid object) :=
              fun equal => here (congrArg Prod.snd equal)
            rw [if_neg here, overwriteRow_of_ne key]
        · rw [ObjectGraph.put_of_ne graph same]
          apply List.map_congr_left
          intro held _
          have key : (other.toRow held).key ≠ (kind.name, kind.oid object) :=
            fun equal => same (Kind.eq_of_name_eq (congrArg Prod.fst equal))
          exact overwriteRow_of_ne key _ _
      · intro other notBlock held there
        by_cases same : other = kind
        · subst same
          rw [ObjectGraph.put_self] at there
          obtain ⟨old, inGraph, rfl⟩ := List.mem_map.1 there
          split
          · exact readable notBlock
          · exact holds.read other notBlock old inGraph
        · rw [ObjectGraph.put_of_ne graph same] at there
          exact holds.read other notBlock held there

end Table.Holds

end Workbench
