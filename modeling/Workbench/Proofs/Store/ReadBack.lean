/-
# What a store accepts and what it gives back

Writing has no limit on nesting, and reading has one. So a store takes any object, and gives
back exactly the objects whose metadata nests within the limit. Once an object that nests
deeper is stored, its row cannot be read any more, and neither can the list of its kind.

Numbers are taken to be worth themselves here when their text is read. What becomes of those
that are not is said where rows are.
-/

import Workbench.Proofs.Store.Turns

namespace Workbench

open Json

/-! ## One row -/

namespace Meta

/-- Metadata whose numbers are worth themselves is read back as it was written, unless it
nests too deeply. -/
theorem reread_eq {entries : Meta} (rereads : (Json.obj entries.members).Rereads) :
    entries.reread =
      if (Json.obj entries.members).depth ≤ room then .ok entries else .error .malformed := by
  by_cases fits : (Json.obj entries.members).depth ≤ room
  · rw [if_pos fits]
    exact WithinLimits.reread ⟨fits, rereads⟩
  · have nothing := toJson?_ofJson_eq (Json.obj entries.members) room
    rw [if_neg fits, Node.ofJson] at nothing
    rw [if_neg fits, Meta.reread, codec, rereads.ofPrinted]
    simp only [Node.ofJson]
    split
    · rename_i impossible
      rw [nothing] at impossible
      cases impossible
    · rfl

end Meta

namespace Kind

/-- How deep the metadata of an object nests. -/
def nesting (kind : Kind) (object : kind.Object) : Nat :=
  (Json.obj (kind.metadata object).members).depth

/-- Every number in the metadata of an object is worth itself when its text is read. -/
def Rereads (kind : Kind) (object : kind.Object) : Prop :=
  (Json.obj (kind.metadata object).members).Rereads

/-- The error for a row of a kind that holds no object. -/
def undecodable (kind : Kind) (problem : DecodeError) : StoreError :=
  .invalidData ("cannot decode " ++ kind.name ++ ": " ++ problem.message)

/-- The row of an object that nests too deeply gives nothing back. -/
theorem ofRow_toRow_of_deep (kind : Kind) {object : kind.Object} (rereads : kind.Rereads object)
    (deep : Meta.room < kind.nesting object) :
    ∃ problem, kind.ofRow (kind.toRow object) = .error (kind.undecodable problem) := by
  cases decoded : kind.objectCodec.decode (kind.toRow object).data with
  | error problem => exact ⟨problem, by rw [ofRow, decoded, undecodable]⟩
  | ok found =>
      obtain ⟨metadata, read, -⟩ := (kind.decode_encode_eq_ok_iff object found).1 decoded
      have exceeds : ¬(Json.obj (kind.metadata object).members).depth ≤ Meta.room :=
        Nat.not_le.2 deep
      rw [Meta.reread_eq rereads, if_neg exceeds] at read
      cases read

/-- A row gives back its object or nothing, and which of the two is a matter of nesting. -/
theorem ofRow_toRow_cases (kind : Kind) {object : kind.Object} (rereads : kind.Rereads object) :
    (kind.nesting object ≤ Meta.room ∧ kind.ofRow (kind.toRow object) = .ok object) ∨
      (Meta.room < kind.nesting object ∧
        ∃ problem, kind.ofRow (kind.toRow object) = .error (kind.undecodable problem)) := by
  rcases Nat.lt_or_ge Meta.room (kind.nesting object) with deep | fits
  · exact .inr ⟨deep, kind.ofRow_toRow_of_deep rereads deep⟩
  · exact .inl ⟨fits, kind.ofRow_toRow ⟨fits, rereads⟩⟩

/-- Two objects with one row are the same object if the row can be read, and otherwise both nest
too deeply. -/
theorem eq_or_deep_of_toRow_eq (kind : Kind) {first second : kind.Object}
    (firstRereads : kind.Rereads first) (secondRereads : kind.Rereads second)
    (same : kind.toRow first = kind.toRow second) :
    (kind.nesting second ≤ Meta.room ∧ first = second) ∨
      (Meta.room < kind.nesting second ∧ Meta.room < kind.nesting first) := by
  rcases kind.ofRow_toRow_cases firstRereads with ⟨-, read⟩ | ⟨deep, problem, refused⟩ <;>
    rcases kind.ofRow_toRow_cases secondRereads with
      ⟨otherFits, otherRead⟩ | ⟨otherDeep, otherProblem, otherRefused⟩
  · rw [same, otherRead, Except.ok.injEq] at read
    exact .inl ⟨otherFits, read.symm⟩
  · rw [same, otherRefused] at read
    cases read
  · rw [same, otherRead] at refused
    cases refused
  · exact .inr ⟨otherDeep, deep⟩

end Kind

/-! ## Rows and what was written -/

namespace Table

/-- Every row of a table after some writes was there before, or is that of a write. -/
theorem Writes.mem_rows {before after : Table} {writes : List RowWrite}
    (all : Writes before writes after) {row : Row} (present : row ∈ after.rows) :
    row ∈ before.rows ∨ ∃ write ∈ writes, row = write.row := by
  induction all with
  | none table => exact .inl present
  | @more before between after write rest takes _ ih =>
      rcases ih present with there | ⟨later, mem, same⟩
      · have found := find?_eq_some_iff.2 ⟨there, rfl⟩
        rw [takes.find?_after] at found
        split at found
        · exact .inr ⟨write, List.mem_cons_self, (Option.some.inj found).symm⟩
        · exact .inl (find?_eq_some_iff.1 found).1
      · exact .inr ⟨later, List.mem_cons_of_mem _ mem, same⟩

/-- In a table that began without rows, the rows of a kind hold objects that were written. -/
theorem Writes.ofKind_eq_map {after : Table} {writes : List RowWrite}
    (all : Writes .empty writes after) (kind : Kind) :
    ∃ objects : List kind.Object, after.ofKind kind.name = objects.map kind.toRow ∧
      ∀ object ∈ objects, ∃ updateType, ⟨updateType, kind, object⟩ ∈ writes := by
  have each : ∀ row ∈ after.ofKind kind.name, ∃ object : kind.Object,
      row = kind.toRow object ∧ ∃ updateType, ⟨updateType, kind, object⟩ ∈ writes := by
    intro row present
    rw [ofKind, List.mem_filter, decide_eq_true_iff] at present
    rcases all.mem_rows present.1 with impossible | ⟨⟨updateType, other, object⟩, written, rfl⟩
    · cases impossible
    · have kinds : other = kind := Kind.eq_of_name_eq present.2
      subst kinds
      exact ⟨object, rfl, updateType, written⟩
  generalize after.ofKind kind.name = rows at each
  induction rows with
  | nil => exact ⟨[], rfl, fun _ impossible => absurd impossible List.not_mem_nil⟩
  | cons row rest ih =>
      obtain ⟨object, rfl, written⟩ := each row List.mem_cons_self
      obtain ⟨objects, rfl, others⟩ :=
        ih fun row present => each row (List.mem_cons_of_mem _ present)
      refine ⟨object :: objects, rfl, ?_⟩
      intro held present
      rcases List.mem_cons.1 present with rfl | there
      · exact written
      · exact others held there

end Table

/-! ## Reading calls -/

namespace Store

variable {moment : Moment} {context : Context} {table : Table} {kind : Kind}

theorem get_eq (unhindered : moment.Unhindered context) (oid : String) :
    get moment context table kind oid =
      unchanged context table
        (match table.find? kind.name oid with
        | none => .ok none
        | some row => (kind.ofRow row).map some) := by
  rw [get, reading, unhindered.enter]
  exact congrArg (unchanged context table) (readObject_eq (unhindered.sound _ _))

theorem getAll_eq (unhindered : moment.Unhindered context) :
    getAll moment context table kind =
      unchanged context table (decodeRows kind (table.ofKind kind.name)) := by
  rw [getAll, reading, unhindered.enter, Moment.attempt_eq_ok (unhindered.sound _ _)]
  rfl

/-- Decoding gives a list exactly if each row gives the object in its place. -/
theorem decodeRows_eq_ok_iff (rows : List Row) (objects : List kind.Object) :
    decodeRows kind rows = .ok objects ↔ rows.map kind.ofRow = objects.map .ok := by
  induction rows generalizing objects with
  | nil => cases objects <;> simp [decodeRows]
  | cons row rest ih =>
      rw [decodeRows, List.map_cons]
      constructor
      · intro decoded
        obtain ⟨object, read, decoding⟩ := bind_eq_ok_iff.1 decoded
        obtain ⟨others, more, same⟩ := bind_eq_ok_iff.1 decoding
        cases same
        rw [read, (ih others).1 more, List.map_cons]
      · intro same
        cases objects with
        | nil => cases same
        | cons object others =>
            obtain ⟨read, more⟩ := List.cons.inj same
            rw [read, (ih others).2 more]
            rfl

/-- Rows that all give back their objects are listed. -/
theorem decodeRows_eq_ok {objects : List kind.Object}
    (each : ∀ object ∈ objects, kind.ofRow (kind.toRow object) = .ok object) :
    decodeRows kind (objects.map kind.toRow) = .ok objects := by
  rw [decodeRows_eq_ok_iff, List.map_map]
  exact List.map_congr_left each

/-- One row that gives nothing back is enough, and the list of its kind is lost. -/
theorem decodeRows_eq_error {objects : List kind.Object}
    (each : ∀ object ∈ objects, kind.ofRow (kind.toRow object) = .ok object ∨
      ∃ problem, kind.ofRow (kind.toRow object) = .error (kind.undecodable problem))
    {lost : kind.Object} (present : lost ∈ objects)
    (unread : ∃ problem, kind.ofRow (kind.toRow lost) = .error (kind.undecodable problem)) :
    ∃ problem, decodeRows kind (objects.map kind.toRow) =
      .error (kind.undecodable problem) := by
  induction objects with
  | nil => cases present
  | cons object rest ih =>
      rw [List.map_cons, decodeRows]
      rcases each object List.mem_cons_self with read | ⟨problem, refused⟩
      · have there : lost ∈ rest := by
          rcases List.mem_cons.1 present with rfl | there
          · obtain ⟨problem, refused⟩ := unread
            rw [read] at refused
            cases refused
          · exact there
        obtain ⟨problem, failed⟩ :=
          ih (fun other present => each other (List.mem_cons_of_mem _ present)) there
        rw [read, failed]
        exact ⟨problem, rfl⟩
      · rw [refused]
        exact ⟨problem, rfl⟩

/-- A stored object that nests within the limit is given back. -/
theorem get_of_fits (unhindered : moment.Unhindered context) {object : kind.Object}
    (stands : table.find? kind.name (kind.oid object) = some (kind.toRow object))
    (rereads : kind.Rereads object) (fits : kind.nesting object ≤ Meta.room) :
    get moment context table kind (kind.oid object) = ⟨.ok (some object), context, table⟩ := by
  rw [get_eq unhindered, stands]
  simp only [kind.ofRow_toRow ⟨fits, rereads⟩]
  rfl

/-- A stored object that nests deeper cannot be read. -/
theorem get_of_deep (unhindered : moment.Unhindered context) {object : kind.Object}
    (stands : table.find? kind.name (kind.oid object) = some (kind.toRow object))
    (rereads : kind.Rereads object) (deep : Meta.room < kind.nesting object) :
    ∃ problem, get moment context table kind (kind.oid object) =
      ⟨.error (kind.undecodable problem), context, table⟩ := by
  obtain ⟨problem, refused⟩ := kind.ofRow_toRow_of_deep rereads deep
  refine ⟨problem, ?_⟩
  rw [get_eq unhindered, stands]
  simp only [refused]
  rfl

/-- Objects that nest within the limit are listed. -/
theorem getAll_of_fits (unhindered : moment.Unhindered context) {objects : List kind.Object}
    (rows : table.ofKind kind.name = objects.map kind.toRow)
    (rereads : ∀ object ∈ objects, kind.Rereads object)
    (fits : ∀ object ∈ objects, kind.nesting object ≤ Meta.room) :
    getAll moment context table kind = ⟨.ok objects, context, table⟩ := by
  have listed := decodeRows_eq_ok fun object present =>
    kind.ofRow_toRow ⟨fits object present, rereads object present⟩
  rw [getAll_eq unhindered, rows, listed]
  rfl

/-- With one object that nests deeper none is listed. -/
theorem getAll_of_deep (unhindered : moment.Unhindered context) {objects : List kind.Object}
    (rows : table.ofKind kind.name = objects.map kind.toRow)
    (rereads : ∀ object ∈ objects, kind.Rereads object) {object : kind.Object}
    (present : object ∈ objects) (deep : Meta.room < kind.nesting object) :
    ∃ problem, getAll moment context table kind =
      ⟨.error (kind.undecodable problem), context, table⟩ := by
  obtain ⟨problem, failed⟩ := decodeRows_eq_error
    (fun other there => (kind.ofRow_toRow_cases (rereads other there)).imp And.right And.right)
    present (kind.ofRow_toRow_of_deep (rereads object present) deep)
  refine ⟨problem, ?_⟩
  rw [getAll_eq unhindered, rows, failed]
  rfl

end Store

/-! ## Any run -/

/-- What any calls on a store that began empty leave behind. The rows of each kind hold objects
that the calls accepted, and reading changes nothing. The list of the kind can be read exactly
if all of these objects nest within the limit, and then it is the list of these objects. An
accepted object whose row still stands can be read exactly if it nests within the limit itself,
and then it is given back as it was accepted; otherwise it takes the list of its kind with it. -/
theorem accepted_objects_are_read_back_within_the_nesting_limit (shared : SharedStore)
    (empty : shared.table = .empty) (turns : List Turn) (kind : Kind)
    (rereads : ∀ updateType object, ⟨updateType, kind, object⟩ ∈ shared.log turns →
      kind.Rereads object) :
    let table := (shared.playAll turns).table
    ∃ objects : List kind.Object, table.ofKind kind.name = objects.map kind.toRow ∧
      (∀ object ∈ objects, ∃ updateType, ⟨updateType, kind, object⟩ ∈ shared.log turns) ∧
      ∀ (moment : Moment) (context : Context), moment.Unhindered context →
        ((∀ object ∈ objects, kind.nesting object ≤ Meta.room) →
          Store.getAll moment context table kind = ⟨.ok objects, context, table⟩) ∧
        ((∃ object ∈ objects, Meta.room < kind.nesting object) →
          ∃ problem, Store.getAll moment context table kind =
            ⟨.error (kind.undecodable problem), context, table⟩) ∧
        ∀ updateType object, ⟨updateType, kind, object⟩ ∈ shared.log turns →
          table.find? kind.name (kind.oid object) = some (kind.toRow object) →
            (kind.nesting object ≤ Meta.room →
              Store.get moment context table kind (kind.oid object) =
                ⟨.ok (some object), context, table⟩ ∧ object ∈ objects) ∧
            (Meta.room < kind.nesting object →
              (∃ problem, Store.get moment context table kind (kind.oid object) =
                ⟨.error (kind.undecodable problem), context, table⟩) ∧
              ∃ problem, Store.getAll moment context table kind =
                ⟨.error (kind.undecodable problem), context, table⟩) := by
  intro table
  have all := shared.log_takes turns
  rw [empty] at all
  obtain ⟨objects, rows, accepted⟩ := all.ofKind_eq_map kind
  have each : ∀ object ∈ objects, kind.Rereads object := fun object present =>
    (accepted object present).elim fun updateType written => rereads updateType object written
  refine ⟨objects, rows, accepted, fun moment context unhindered => ?_⟩
  refine ⟨Store.getAll_of_fits unhindered rows each, fun ⟨object, present, deep⟩ =>
    Store.getAll_of_deep unhindered rows each present deep, ?_⟩
  intro updateType object written stands
  have numbers := rereads updateType object written
  -- Some object of the list has the row of this one, and so it is this one if it can be read.
  obtain ⟨held, present, same⟩ : ∃ held ∈ objects, kind.toRow held = kind.toRow object := by
    have there : kind.toRow object ∈ table.ofKind kind.name :=
      List.mem_filter.2 ⟨(Table.find?_eq_some_iff.1 stands).1, decide_eq_true rfl⟩
    rw [rows] at there
    exact List.mem_map.1 there
  rcases kind.eq_or_deep_of_toRow_eq (each held present) numbers same with
    ⟨fits, rfl⟩ | ⟨deep, heldDeep⟩
  · refine ⟨fun _ => ⟨Store.get_of_fits unhindered stands numbers fits, present⟩, fun deep => ?_⟩
    exact absurd fits (Nat.not_le.2 deep)
  · refine ⟨fun fits => absurd fits (Nat.not_le.2 deep), fun _ => ⟨?_, ?_⟩⟩
    · exact Store.get_of_deep unhindered stands numbers deep
    · exact Store.getAll_of_deep unhindered rows each present heldDeep

/-! ## The limit in a small store -/

namespace Json

/-- Zero inside some arrays. -/
def nested : Nat → Json
  | 0 => .num (.ofInt64 0)
  | count + 1 => .arr [nested count]

theorem canonical_nested (count : Nat) : (nested count).Canonical := by
  induction count with
  | zero => exact .num _
  | succ count ih => exact .arr _ fun item present => List.mem_singleton.1 present ▸ ih

theorem rereads_nested (count : Nat) : (nested count).Rereads := by
  induction count with
  | zero => exact .num _ (Number.reread_whole _ _)
  | succ count ih => exact .arr _ fun item present => List.mem_singleton.1 present ▸ ih

theorem depth_nested (count : Nat) : (nested count).depth = count := by
  induction count with
  | zero => rfl
  | succ count ih => rw [nested, depth, itemsDepth, itemsDepth, ih, Nat.max_zero]

end Json

/-- Metadata with zero inside some arrays. -/
def Meta.nested (count : Nat) : Meta :=
  Meta.empty.insert "deep" ⟨Json.nested count, canonical_nested count⟩

theorem Meta.rereads_nested (count : Nat) : (Json.obj (Meta.nested count).members).Rereads := by
  have members : (Meta.nested count).members = [("deep", Json.nested count)] := rfl
  rw [members]
  exact .obj _ fun member present => List.mem_singleton.1 present ▸ Json.rereads_nested count

theorem Meta.depth_nested (count : Nat) :
    (Json.obj (Meta.nested count).members).depth = count + 1 := by
  have members : (Meta.nested count).members = [("deep", Json.nested count)] := rfl
  rw [members, depth, membersDepth, membersDepth, Json.depth_nested, Nat.max_zero]

/-- Two blocks, of which the first nests as deep as the limit allows and the second one deeper.
Both are accepted; the first can still be read alone, and the list of blocks cannot be read. -/
theorem the_list_of_blocks_is_lost_with_the_second_block :
    let first : Block := ⟨"first", 1, .nested 125⟩
    let second : Block := ⟨"second", 1, .nested 126⟩
    let turns : List Turn :=
      [⟨0, .quiet 0, .create .block first⟩, ⟨1, .quiet 0, .create .block second⟩]
    let shared : SharedStore := ⟨fun _ => ⟨1, none⟩, .empty⟩
    let table := (shared.playAll turns).table
    shared.log turns = [⟨.created, .block, first⟩, ⟨.created, .block, second⟩] ∧
      Store.get (.quiet 0) ⟨1, none⟩ table .block "first" = ⟨.ok (some first), ⟨1, none⟩, table⟩ ∧
      (∃ problem, Store.get (.quiet 0) ⟨1, none⟩ table .block "second" =
        ⟨.error (Kind.block.undecodable problem), ⟨1, none⟩, table⟩) ∧
      ∃ problem, Store.getAll (.quiet 0) ⟨1, none⟩ table .block =
        ⟨.error (Kind.block.undecodable problem), ⟨1, none⟩, table⟩ := by
  intro first second turns shared table
  have log : shared.log turns = [⟨.created, .block, first⟩, ⟨.created, .block, second⟩] := rfl
  have rereads : ∀ updateType object, ⟨updateType, .block, object⟩ ∈ shared.log turns →
      Kind.block.Rereads object := by
    intro updateType object written
    rw [log, List.mem_cons, List.mem_singleton] at written
    rcases written with same | same <;> cases same <;> exact Meta.rereads_nested _
  obtain ⟨objects, -, -, reads⟩ :=
    accepted_objects_are_read_back_within_the_nesting_limit shared rfl turns .block rereads
  obtain ⟨-, -, each⟩ := reads (.quiet 0) ⟨1, none⟩ ⟨rfl, rfl, fun _ _ => rfl⟩
  have shallow : Kind.block.nesting first ≤ Meta.room := (Meta.depth_nested 125).le
  have deep : Meta.room < Kind.block.nesting second := (Meta.depth_nested 126).ge
  obtain ⟨given, -⟩ := each .created first (log ▸ by simp) rfl
  obtain ⟨-, lost⟩ := each .created second (log ▸ by simp) rfl
  exact ⟨log, (given shallow).1, lost deep⟩

/-- A store accepts a block that it cannot read any more afterwards: neither the block itself, nor
the list of blocks that was empty before. -/
theorem an_accepted_block_can_be_lost :
    let block : Block := ⟨"block", 1, .nested 126⟩
    let outcome := (StoreCall.create .block block).run (.quiet 0) ⟨1, none⟩ .empty
    Kind.block.Rereads block ∧ outcome.result = .ok block ∧
      outcome.table.find? Kind.block.name "block" = some (Kind.block.toRow block) ∧
      (∃ problem, (Store.get (.quiet 0) ⟨1, none⟩ outcome.table .block "block").result =
        .error (Kind.block.undecodable problem)) ∧
      ∃ problem, (Store.getAll (.quiet 0) ⟨1, none⟩ outcome.table .block).result =
        .error (Kind.block.undecodable problem) := by
  intro block outcome
  have rereads : Kind.block.Rereads block := Meta.rereads_nested 126
  have deep : Meta.room < Kind.block.nesting block := (Meta.depth_nested 126).ge
  have unhindered : (Moment.quiet 0).Unhindered ⟨1, none⟩ := ⟨rfl, rfl, fun _ _ => rfl⟩
  have stands : outcome.table.find? Kind.block.name "block" = some (Kind.block.toRow block) := rfl
  have rows : outcome.table.ofKind Kind.block.name = [block].map Kind.block.toRow := rfl
  obtain ⟨problem, lost⟩ := Store.get_of_deep unhindered stands rereads deep
  obtain ⟨first, all⟩ := Store.getAll_of_deep unhindered rows
    (fun held present => List.mem_singleton.1 present ▸ rereads) List.mem_cons_self deep
  exact ⟨rereads, rfl, stands, ⟨problem, congrArg Outcome.result lost⟩,
    ⟨first, congrArg Outcome.result all⟩⟩

end Workbench
