/-
# Records in texts

What a record takes from its members carries over to texts. Members of an object text may be
moved, members that the record does not know may be added, and members that say what a field
falls back to may be left out, as often as one likes: the record does not notice. The text of
the array that gives every field is decoded alike. But a member that is required may not be
left out, and no known member may be given twice.
-/

import Workbench.Proofs.Json.KnownMembers
import Workbench.Proofs.Json.ObjectText

namespace Workbench.Json

/-! ## Changes that are not noticed -/

/-- A change to the members of an object that a record with the given declaration does not
notice. -/
inductive Unnoticed (declaration : Declaration) : List MemberText → List MemberText → Prop where
  /-- The members come in another order. -/
  | move {members others : List MemberText} : others.Perm members →
      Unnoticed declaration members others
  /-- A member is added whose name is not declared. -/
  | add (front behind : List MemberText) (member : MemberText) :
      member.name ∉ declaration.map Prod.fst →
      Unnoticed declaration (front ++ behind) (front ++ member :: behind)
  /-- A member is left out that says what its field falls back to. -/
  | leaveOut (front behind : List MemberText) (member : MemberText) (default : Json) :
      (member.name, some default) ∈ declaration → member.value.node = Node.ofJson default →
      Unnoticed declaration (front ++ member :: behind) (front ++ behind)

/-- An item of an array gives a field what the members of an object give it. -/
def GivesText (members : List MemberText) (field : String × Option Json) (item : ValueText) :
    Prop :=
  (∃ member ∈ members, member.name = field.1 ∧ item.node = member.value.node) ∨
    (∀ member ∈ members, member.name ≠ field.1) ∧
      ∃ default ∈ field.2, item.node = Node.ofJson default

/-- What the members say of a field: if one has its name, the field has the value of that member,
and if none has, the value is the default. -/
structure Told {α : Type} (members : List MemberText) (name : String) (nodeOf : α → Node)
    (default value : α) : Prop where
  given : ∀ member ∈ members, member.name = name → member.value.node = nodeOf value
  missing : (∀ member ∈ members, member.name ≠ name) → value = default

/-! ## What decodes -/

theorem Codec.decode_eq_ok_iff {α : Type} {codec : Codec α} {text : String} {value : α} :
    codec.decode text = .ok value ↔
      ∃ node, Node.ofText text = (node, false) ∧ codec.read Node.nestingLimit node = .ok value := by
  rw [decode]
  cases Node.ofText text with
  | mk node trailing =>
      simp only [Prod.mk.injEq, and_assoc, exists_eq_left']
      cases codec.read Node.nestingLimit node with
      | error problem => simp
      | ok found => cases trailing <;> simp

namespace Fields

variable {ρ : Type} {fields : Fields ρ} {room : Nat}

/-- Records are only read from complete nodes whose keys spell texts. -/
theorem complete_of_read {record : String} {node : Node} {values : ρ}
    (read : fields.read record (room + 1) node = .ok values) :
    node.complete = true ∧ node.Named := by
  cases node with
  | object members closed =>
      cases closed with
      | false =>
          simp only [Fields.read, readObject] at read
          split at read <;> cases read
      | true =>
          obtain ⟨each, -, -⟩ := readObject_eq_ok_iff_takes.1 read
          refine ⟨rfl, fun member present => ?_⟩
          obtain ⟨name, same, -⟩ := each member present
          exact ⟨name, same⟩
  | array items closed =>
      simp only [Fields.read, readArray] at read
      split at read
      · cases read
      · split at read
        · rename_i whole
          exact ⟨(Bool.and_eq_true_iff.1 whole).2, trivial⟩
        · cases read
  | broken | null | bool | number | string => cases read

variable {α : Type} {record : String} {toValues : α → ρ} {ofValues : ρ → α}
  {declaration : Declaration} {members others : List MemberText} {value : α}

theorem decode_objectText (spacing : Spacing) (members : List MemberText) :
    (fields.codec record toValues ofValues).decode (objectText spacing members) =
      (fields.readObject 126 (members.map MemberText.node) true).map ofValues := by
  rw [Codec.decode, Node.ofText_objectText]
  simp only [codec, Fields.read, Node.nestingLimit]
  cases fields.readObject 126 (members.map MemberText.node) true <;> rfl

theorem decode_arrayText (spacing : Spacing) (items : List ValueText) :
    (fields.codec record toValues ofValues).decode (arrayText spacing items) =
      (fields.readArray record 126 (items.map ValueText.node) true).map ofValues := by
  rw [Codec.decode, Node.ofText_arrayText]
  simp only [codec, Fields.read, Node.nestingLimit]
  cases fields.readArray record 126 (items.map ValueText.node) true <;> rfl

/-- What an object decodes to does not depend on its blanks. -/
theorem readObject_of_decode {spacing : Spacing}
    (decoded : (fields.codec record toValues ofValues).decode (objectText spacing members) =
      .ok value) :
    ∃ values, fields.readObject 126 (members.map MemberText.node) true = .ok values ∧
      ofValues values = value := by
  rw [decode_objectText] at decoded
  cases read : fields.readObject 126 (members.map MemberText.node) true with
  | error problem =>
      rw [read] at decoded
      cases decoded
  | ok values =>
      rw [read] at decoded
      exact ⟨values, rfl, Except.ok.inj decoded⟩

/-- A text that begins with a brace and decodes as a record is the text of an object. -/
theorem exists_objectText_of_decode {before rest : List Char} (blank : Blank before)
    (decoded : (fields.codec record toValues ofValues).decode
      (String.ofList (before ++ '{' :: rest)) = .ok value) :
    ∃ spacing members, String.ofList (before ++ '{' :: rest) = objectText spacing members := by
  obtain ⟨node, whole, read⟩ := Codec.decode_eq_ok_iff.1 decoded
  simp only [codec] at read
  cases found : fields.read record Node.nestingLimit node with
  | error problem =>
      rw [found] at read
      cases read
  | ok values =>
      obtain ⟨complete, named⟩ := complete_of_read found
      rw [Node.ofText, String.toList_ofList] at whole
      have walk := Node.foldl_eq_done_iff.2 ⟨whole, complete⟩
      obtain ⟨spacing, members, same, -⟩ := Node.exists_objectText blank named walk
      exact ⟨spacing, members, same⟩

/-! ## What is decoded alike -/

theorem complete_of_mem_nodes (members : List MemberText) :
    ∀ member ∈ members.map MemberText.node,
      ∃ name, member.1 = some name ∧ member.2.complete = true := by
  intro member present
  obtain ⟨text, -, rfl⟩ := List.mem_map.1 present
  exact ⟨text.name, rfl, text.value.complete⟩

theorem known_nodes (members : List MemberText) :
    fields.known (members.map MemberText.node) =
      (members.filter fun member => member.name ∈ fields.names).map MemberText.node := by
  rw [known, List.filter_map]
  simp [Function.comp_def, MemberText.node]

theorem memberNamed?_of_absent {name : String} (absent : ∀ member ∈ members, member.name ≠ name) :
    memberNamed? name (members.map MemberText.node) = none := by
  rw [memberNamed?, List.lookup_eq_none_iff]
  rintro ⟨key, node⟩ there
  obtain ⟨member, present, same⟩ := List.mem_map.1 there
  cases same
  simpa using Ne.symm (absent member present)

/-- A known member is found under its name. -/
theorem memberNamed?_of_mem
    (distinct : ((fields.known (members.map MemberText.node)).map Prod.fst).Nodup)
    {member : MemberText} (present : member ∈ members) (known : member.name ∈ fields.names) :
    memberNamed? member.name (members.map MemberText.node) = some member.value.node := by
  rw [← memberNamed?_known known]
  exact lookup_eq_some_of_mem distinct
    (mem_known.2 ⟨List.mem_map.2 ⟨member, present, rfl⟩, known⟩)

/-- Members may come in any order. -/
theorem readObject_of_perm {values : ρ} (same : others.Perm members)
    (read : fields.readObject room (members.map MemberText.node) true = .ok values) :
    fields.readObject room (others.map MemberText.node) true = .ok values :=
  readObject_of_known_perm read ((same.map MemberText.node).filter _)
    (complete_of_mem_nodes others)

theorem readObject_of_unnoticed (declared : fields.DeclaredAs room declaration)
    (names : (declaration.map Prod.fst).Nodup) {values : ρ}
    (change : Unnoticed declaration members others)
    (read : fields.readObject room (members.map MemberText.node) true = .ok values) :
    fields.readObject room (others.map MemberText.node) true = .ok values := by
  cases change with
  | move same => exact readObject_of_perm same read
  | add front behind member foreign =>
      refine readObject_of_known_perm read ?_ (complete_of_mem_nodes _)
      rw [← declared.names_eq] at foreign
      rw [known_nodes, known_nodes, List.filter_append, List.filter_append,
        List.filter_cons_of_neg (by simpa using foreign)]
  | leaveOut front behind member default field same =>
      have first := readObject_of_perm List.perm_middle.symm read
      rw [List.map_cons, MemberText.node, same] at first
      exact readObject_of_default declared names field first

/-- Any number of changes that are not noticed leave what an object decodes to. -/
theorem decode_of_unnoticed (declared : fields.DeclaredAs 126 declaration)
    (names : (declaration.map Prod.fst).Nodup) {spacing : Spacing}
    (decoded : (fields.codec record toValues ofValues).decode (objectText spacing members) =
      .ok value)
    (changes : Relation.ReflTransGen (Unnoticed declaration) members others) (between : Spacing) :
    (fields.codec record toValues ofValues).decode (objectText between others) = .ok value := by
  obtain ⟨values, read, rfl⟩ := readObject_of_decode decoded
  have readToo : fields.readObject 126 (others.map MemberText.node) true = .ok values := by
    induction changes with
    | refl => exact read
    | tail _ change ih => exact readObject_of_unnoticed declared names change ih
  rw [decode_objectText, readToo]
  rfl

/-- There is an array that gives every field what the members of a decoded object give it. -/
theorem exists_items_of_decode (declared : fields.DeclaredAs 126 declaration)
    (rereads : ∀ field ∈ declaration, ∀ default ∈ field.2, default.Rereads) {spacing : Spacing}
    (decoded : (fields.codec record toValues ofValues).decode (objectText spacing members) =
      .ok value) :
    ∃ items, List.Forall₂ (GivesText members) declaration items := by
  obtain ⟨values, read, -⟩ := readObject_of_decode decoded
  obtain ⟨-, -, takes⟩ := readObject_eq_ok_iff_takes.1 read
  have each : ∀ field ∈ declaration, ∃ item, GivesText members field item := by
    rintro ⟨name, default⟩ isField
    by_cases given : ∃ member ∈ members, member.name = name
    · obtain ⟨member, present, same⟩ := given
      exact ⟨member.value, .inl ⟨member, present, same, rfl⟩⟩
    · have absent : ∀ member ∈ members, member.name ≠ name :=
        fun member present same => given ⟨member, present, same⟩
      have falls := takes.isSome_of_declared declared isField (memberNamed?_of_absent absent)
      obtain ⟨json, rfl⟩ := Option.isSome_iff_exists.1 falls
      exact ⟨.written json, .inr ⟨absent, json, rfl, (rereads _ isField json rfl).ofPrinted⟩⟩
  clear declared rereads decoded
  induction declaration with
  | nil => exact ⟨[], .nil⟩
  | cons field rest ih =>
      obtain ⟨item, gives⟩ := each field List.mem_cons_self
      obtain ⟨items, others⟩ := ih fun other later => each other (List.mem_cons_of_mem _ later)
      exact ⟨item :: items, .cons gives others⟩

/-- The item for a field is what the field takes from the members. -/
theorem gives_of_givesText {values : ρ} (declared : fields.DeclaredAs room declaration)
    (read : fields.readObject room (members.map MemberText.node) true = .ok values)
    {field : String × Option Json} (isField : field ∈ declaration) {item : ValueText}
    (gives : GivesText members field item) :
    Gives (members.map MemberText.node) field item.node := by
  obtain ⟨-, distinct, -⟩ := readObject_eq_ok_iff_takes.1 read
  have known := declared.mem_names isField
  rcases gives with ⟨member, present, same, equal⟩ | ⟨absent, default, falls, equal⟩
  · rw [← same] at known
    rw [Gives, ← same, equal]
    exact .inl (memberNamed?_of_mem distinct present known)
  · exact .inr ⟨memberNamed?_of_absent absent, default, falls, equal⟩

/-- The array that gives every field decodes to what the object decodes to. -/
theorem decode_arrayText_of_gives (declared : fields.DeclaredAs 126 declaration)
    {spacing : Spacing}
    (decoded : (fields.codec record toValues ofValues).decode (objectText spacing members) =
      .ok value)
    {items : List ValueText} (gives : List.Forall₂ (GivesText members) declaration items)
    (between : Spacing) :
    (fields.codec record toValues ofValues).decode (arrayText between items) = .ok value := by
  obtain ⟨values, read, rfl⟩ := readObject_of_decode decoded
  have nodes : List.Forall₂ (Gives (members.map MemberText.node)) declaration
      (items.map ValueText.node) := by
    have all : List.Forall₂ (fun field item => field ∈ declaration ∧ GivesText members field item)
        declaration items :=
      (List.forall₂_and_left declaration items).2 ⟨fun _ field => field, gives⟩
    exact List.forall₂_map_right_iff.2
      (all.imp fun _ _ ⟨field, given⟩ => gives_of_givesText declared read field given)
  rw [decode_arrayText, readArray_of_gives declared record read nodes]
  rfl

/-! ## What the members say -/

/-- A field with a default takes what the members say, if only one node reads as each value. -/
theorem told_of_taken {β : Type} {codec : Codec β} {name : String} {nodeOf : β → Node}
    {default value : β} (exact : ∀ node value, codec.read room node = .ok value →
      node = nodeOf value)
    (distinct : ((fields.known (members.map MemberText.node)).map Prod.fst).Nodup)
    (known : name ∈ fields.names)
    (taken : match memberNamed? name (members.map MemberText.node) with
      | some node => codec.read room node = .ok value
      | none => some default = some value) :
    Told members name nodeOf default value where
  given := by
    rintro member present rfl
    rw [memberNamed?_of_mem distinct present known] at taken
    exact exact _ _ taken
  missing absent := by
    rw [memberNamed?_of_absent absent] at taken
    exact (Option.some.inj taken).symm

/-! ## What is refused -/

/-- Without the member of a required field the object is refused. -/
theorem decode_of_required (declared : fields.DeclaredAs 126 declaration)
    (names : (declaration.map Prod.fst).Nodup) {spacing : Spacing} {front behind : List MemberText}
    {member : MemberText}
    (decoded : (fields.codec record toValues ofValues).decode
      (objectText spacing (front ++ member :: behind)) = .ok value)
    (field : (member.name, none) ∈ declaration) (between : Spacing) :
    (fields.codec record toValues ofValues).decode (objectText between (front ++ behind)) =
      .error (.missingField member.name) := by
  obtain ⟨values, read, -⟩ := readObject_of_decode decoded
  have first := readObject_of_perm List.perm_middle.symm read
  rw [decode_objectText, readObject_of_required declared names field first]
  rfl

/-- An object that gives a known member twice is refused. -/
theorem exists_error_of_decode_twice (declared : fields.DeclaredAs 126 declaration)
    (spacing : Spacing) {front between behind : List MemberText} {first second : MemberText}
    (field : first.name ∈ declaration.map Prod.fst) (same : second.name = first.name) :
    ∃ problem, (fields.codec record toValues ofValues).decode
      (objectText spacing (front ++ first :: (between ++ second :: behind))) =
        .error problem := by
  rw [← declared.names_eq] at field
  obtain ⟨problem, refused⟩ := @exists_error_of_twice ρ 126 fields first.name field
    (front.map MemberText.node) (between.map MemberText.node) (behind.map MemberText.node)
    first.value.node second.value.node true
  refine ⟨problem, ?_⟩
  rw [decode_objectText]
  simp only [List.map_append, List.map_cons, MemberText.node, same]
  rw [refused]
  rfl

end Fields

end Workbench.Json
