/-
# What a record takes from its members

The members of an object concern a record only as far as it has fields of their names. An
object is accepted if every member reads, or is complete where no field has its name, and no
known name comes twice; then each field takes the member of its name or falls back. So two
objects with the same known members are read alike, in whatever order and among whatever
other members these stand. A field that falls back may as well be given, and an array that
gives every field is read alike.

What a record expects of its members is declared by a list: the names in their order, each
with the value that the field falls back to, if it does.
-/

import Mathlib.Data.List.Forall2
import Workbench.Proofs.Json.Record

namespace Workbench.Json

theorem mem_of_lookup_eq_some {κ ν : Type} [BEq κ] [LawfulBEq κ] {entries : List (κ × ν)}
    {key : κ} {value : ν} (found : entries.lookup key = some value) : (key, value) ∈ entries := by
  obtain ⟨early, late, rfl, -⟩ := List.lookup_eq_some_iff.1 found
  exact List.mem_append_right _ List.mem_cons_self

/-- The entries under a key do not depend on the order, if no key comes twice. -/
theorem lookup_eq_of_perm {κ ν : Type} [BEq κ] [LawfulBEq κ] {first second : List (κ × ν)}
    (same : first.Perm second) (distinct : (first.map Prod.fst).Nodup) (key : κ) :
    first.lookup key = second.lookup key := by
  refine Option.ext fun value => ?_
  have there := (same.map Prod.fst).nodup_iff.1 distinct
  constructor
  · intro found
    exact lookup_eq_some_of_mem there (same.mem_iff.1 (mem_of_lookup_eq_some found))
  · intro found
    exact lookup_eq_some_of_mem distinct (same.mem_iff.2 (mem_of_lookup_eq_some found))

/-- What a type expects of the members of an object: their names in order, each with the value
that stands for a member that is not given, unless it has to be given. -/
abbrev Declaration := List (String × Option Json)

namespace Fields

variable {ρ : Type} {room : Nat}

/-! ## Accepted members -/

/-- The members that a record has a field for. -/
def known (fields : Fields ρ) (members : List (Option String × Node)) :
    List (Option String × Node) :=
  members.filter fun member => member.1 ∈ fields.names.map some

/-- A member that does not stop the walk: it is read by the field of its name, or it is complete
and no field has its name. -/
def Passes (room : Nat) (fields : Fields ρ) (member : Option String × Node) : Prop :=
  ∃ name, member.1 = some name ∧
    (fields.check? room name member.2 = some (.ok ()) ∨
      fields.check? room name member.2 = none ∧ member.2.complete = true)

theorem check?_eq_none_iff {fields : Fields ρ} {name : String} {node : Node} :
    fields.check? room name node = none ↔ name ∉ fields.names := by
  induction fields with
  | nil => simp [check?, names]
  | cons field rest ih =>
      rw [check?, names, List.mem_cons, not_or]
      split_ifs with here
      · simp [here]
      · rw [ih]
        exact ⟨fun other => ⟨Ne.symm here, other⟩, And.right⟩

theorem mem_known {fields : Fields ρ} {members : List (Option String × Node)} {name : String}
    {node : Node} :
    (some name, node) ∈ fields.known members ↔
      (some name, node) ∈ members ∧ name ∈ fields.names := by
  simp [known]

theorem known_cons (fields : Fields ρ) (name : String) (node : Node)
    (rest : List (Option String × Node)) :
    fields.known ((some name, node) :: rest) =
      if name ∈ fields.names then (some name, node) :: fields.known rest
      else fields.known rest := by
  simp [known, List.filter_cons]

/-- A key that is met for the first time does not matter for the names met before. -/
theorem unseen_cons_iff {name : String} {seen : List String} {keys : List (Option String)}
    (new : name ∉ seen) :
    (∀ other ∈ seen, some other ∉ some name :: keys) ↔ ∀ other ∈ seen, some other ∉ keys := by
  refine forall₂_congr fun other before => ?_
  have different : other ≠ name := fun same => new (same ▸ before)
  simp [different]

/-- Members are accepted exactly if each passes, and no known name comes twice or was met
before. -/
theorem checkMembers_eq_ok_iff {fields : Fields ρ} {seen : List String}
    {members : List (Option String × Node)} :
    fields.checkMembers room seen members = .ok () ↔
      (∀ member ∈ members, fields.Passes room member) ∧
        ((fields.known members).map Prod.fst).Nodup ∧
        ∀ name ∈ seen, some name ∉ (fields.known members).map Prod.fst := by
  induction members generalizing seen with
  | nil => simp [checkMembers, known]
  | cons member rest ih =>
      obtain ⟨key, node⟩ := member
      rw [List.forall_mem_cons]
      -- A key that spells no text, a foreign name and a known name are told apart in this order.
      cases key with
      | none => simp [checkMembers, Passes]
      | some name =>
          rw [known_cons]
          cases check : fields.check? room name node with
          | none =>
              have foreign := check?_eq_none_iff.1 check
              have passes : fields.Passes room (some name, node) ↔ node.complete = true := by
                simp [Passes, check]
              rw [checkMembers, check, if_neg foreign, passes]
              cases node.complete with
              | false => simp
              | true => simp [ih]
          | some result =>
              have field : name ∈ fields.names := by
                by_contra foreign
                rw [check?_eq_none_iff.2 foreign] at check
                cases check
              have passes : fields.Passes room (some name, node) ↔ result = .ok () := by
                simp [Passes, check]
              rw [checkMembers, check, if_pos field, passes, List.map_cons, List.nodup_cons]
              by_cases old : name ∈ seen
              · refine ⟨by simp [old], ?_⟩
                rintro ⟨-, -, unseen⟩
                exact absurd List.mem_cons_self (unseen name old)
              · cases result with
                | error problem => simp [old]
                | ok =>
                    simp only [if_neg old]
                    rw [ih, List.forall_mem_cons, unseen_cons_iff old]
                    tauto

/-! ## What is taken -/

theorem memberNamed?_known {fields : Fields ρ} {name : String} (field : name ∈ fields.names)
    (members : List (Option String × Node)) :
    memberNamed? name (fields.known members) = memberNamed? name members := by
  rw [memberNamed?, memberNamed?]
  induction members with
  | nil => rfl
  | cons member rest ih =>
      obtain ⟨key, node⟩ := member
      rw [known, List.filter_cons]
      by_cases same : key = some name
      · subst same
        rw [if_pos (by simpa using field), List.lookup_cons_self, List.lookup_cons_self]
      · have other : (some name == key) = false := beq_false_of_ne (Ne.symm same)
        split_ifs
        · rw [List.lookup_cons, List.lookup_cons, other]
          exact ih
        · rw [List.lookup_cons, other]
          exact ih

/-- Each field takes the value that its member reads as, or its fallback where no member has
its name. -/
def Takes (room : Nat) (members : List (Option String × Node)) {ρ : Type} : Fields ρ → ρ → Prop
  | .nil, _ => True
  | .cons field rest, (value, values) =>
      (match memberNamed? field.name members with
        | some node => field.codec.read room node = .ok value
        | none => field.fallback = some value) ∧
        rest.Takes room members values

theorem pick_eq_ok_iff_takes {fields : Fields ρ} {members : List (Option String × Node)}
    {values : ρ} : fields.pick room members = .ok values ↔ fields.Takes room members values := by
  induction fields with
  | nil => exact ⟨fun _ => trivial, fun _ => rfl⟩
  | cons field rest ih =>
      obtain ⟨value, values⟩ := values
      rw [pick, Takes, ← ih]
      cases memberNamed? field.name members with
      | none =>
          cases field.fallback with
          | none => simp
          | some fallback => cases rest.pick room members <;> simp [Except.map]
      | some node =>
          simp only
          cases field.codec.read room node with
          | error problem => simp
          | ok read => cases rest.pick room members <;> simp [Except.map]

/-- A record is read exactly if its members are accepted and every field takes a value. -/
theorem readObject_eq_ok_iff_takes {fields : Fields ρ} {members : List (Option String × Node)}
    {values : ρ} :
    fields.readObject room members true = .ok values ↔
      (∀ member ∈ members, fields.Passes room member) ∧
        ((fields.known members).map Prod.fst).Nodup ∧ fields.Takes room members values := by
  rw [readObject, ← pick_eq_ok_iff_takes]
  have accepted := @checkMembers_eq_ok_iff _ room fields [] members
  cases check : fields.checkMembers room [] members with
  | error problem =>
      rw [check] at accepted
      constructor
      · intro impossible
        cases impossible
      · rintro ⟨each, distinct, -⟩
        cases accepted.2 ⟨each, distinct, List.forall_mem_nil _⟩
  | ok =>
      obtain ⟨each, distinct, -⟩ := accepted.1 check
      simp only [if_true]
      constructor
      · exact fun read => ⟨each, distinct, read⟩
      · rintro ⟨-, -, read⟩
        exact read

/-! ## What is declared -/

/-- The fields have the declared names, and the fallbacks that the declared values read as. -/
inductive DeclaredAs (room : Nat) : {ρ : Type} → Fields ρ → Declaration → Prop where
  | nil : DeclaredAs room .nil []
  | required {α ρ : Type} {first : Field α} {rest : Fields ρ} {others : Declaration} :
      first.fallback = none → DeclaredAs room rest others →
      DeclaredAs room (.cons first rest) ((first.name, none) :: others)
  | withDefault {α ρ : Type} {first : Field α} {rest : Fields ρ} {others : Declaration}
      {default : Json} {fallback : α} :
      first.fallback = some fallback →
      first.codec.read room (Node.ofJson default) = .ok fallback → DeclaredAs room rest others →
      DeclaredAs room (.cons first rest) ((first.name, some default) :: others)

variable {fields : Fields ρ} {declaration : Declaration}

theorem DeclaredAs.names_eq (declared : fields.DeclaredAs room declaration) :
    fields.names = declaration.map Prod.fst := by
  induction declared with
  | nil => rfl
  | required _ _ ih => exact congrArg _ ih
  | withDefault _ _ _ ih => exact congrArg _ ih

theorem DeclaredAs.mem_names (declared : fields.DeclaredAs room declaration) {name : String}
    {default : Option Json} (field : (name, default) ∈ declaration) : name ∈ fields.names := by
  rw [declared.names_eq]
  exact List.mem_map_of_mem field

/-- A field whose member is not given has something to fall back to. -/
theorem Takes.isSome_of_declared {members : List (Option String × Node)} {values : ρ}
    (takes : fields.Takes room members values) (declared : fields.DeclaredAs room declaration)
    {name : String} {default : Option Json} (field : (name, default) ∈ declaration)
    (gone : memberNamed? name members = none) : default.isSome := by
  induction declared with
  | nil => cases field
  | required falls _ ih =>
      obtain ⟨value, values⟩ := values
      obtain ⟨here, later⟩ := takes
      rcases List.mem_cons.1 field with same | behind
      · cases same
        rw [gone, falls] at here
        cases here
      · exact ih later behind
  | withDefault _ _ _ ih =>
      obtain ⟨value, values⟩ := values
      rcases List.mem_cons.1 field with same | behind
      · cases same
        rfl
      · exact ih takes.2 behind

/-! ## Members that make no difference -/

variable {members others : List (Option String × Node)} {values : ρ}

theorem Takes.congr (takes : fields.Takes room members values)
    (same : ∀ name ∈ fields.names, memberNamed? name others = memberNamed? name members) :
    fields.Takes room others values := by
  induction fields with
  | nil => trivial
  | cons field rest ih =>
      obtain ⟨first, later⟩ := takes
      refine ⟨?_, ih later fun name known => same name (List.mem_cons_of_mem _ known)⟩
      rw [same field.name List.mem_cons_self]
      exact first

/-- Objects with the same known members are read alike, if the other members are complete. -/
theorem readObject_of_known_perm (read : fields.readObject room members true = .ok values)
    (same : (fields.known others).Perm (fields.known members))
    (complete : ∀ member ∈ others, ∃ name, member.1 = some name ∧ member.2.complete = true) :
    fields.readObject room others true = .ok values := by
  obtain ⟨each, distinct, takes⟩ := readObject_eq_ok_iff_takes.1 read
  have distinctToo := (same.map Prod.fst).nodup_iff.2 distinct
  refine readObject_eq_ok_iff_takes.2 ⟨?_, distinctToo, takes.congr ?_⟩
  · rintro ⟨key, node⟩ present
    obtain ⟨name, rfl, whole⟩ := complete _ present
    by_cases field : name ∈ fields.names
    · exact each _ (mem_known.1 (same.mem_iff.1 (mem_known.2 ⟨present, field⟩))).1
    · exact ⟨name, rfl, .inr ⟨check?_eq_none_iff.2 field, whole⟩⟩
  · intro name field
    rw [← memberNamed?_known field, ← memberNamed?_known field members]
    exact lookup_eq_of_perm same distinctToo (some name)

/-- A known member stands alone under its name. -/
theorem memberNamed?_rest {name : String} {node : Node} (field : name ∈ fields.names)
    (distinct : ((fields.known ((some name, node) :: members)).map Prod.fst).Nodup) :
    memberNamed? name members = none := by
  rw [known_cons, if_pos field, List.map_cons, List.nodup_cons] at distinct
  rw [← memberNamed?_known field, memberNamed?, List.lookup_eq_none_iff]
  rintro ⟨key, other⟩ there
  by_contra same
  have equal : some name = key := by simpa using same
  exact distinct.1 (List.mem_map.2 ⟨_, there, equal.symm⟩)

theorem memberNamed?_cons_of_ne {name other : String} {node : Node} (different : other ≠ name) :
    memberNamed? other ((some name, node) :: members) = memberNamed? other members := by
  have differs : (some other == some name) = false := by simpa using different
  rw [memberNamed?, List.lookup_cons, differs]
  rfl

/-- The members that are left when a member is taken away from the front are accepted, if all
of them were. -/
theorem accepted_rest {member : Option String × Node}
    (each : ∀ other ∈ member :: members, fields.Passes room other)
    (distinct : ((fields.known (member :: members)).map Prod.fst).Nodup) :
    (∀ other ∈ members, fields.Passes room other) ∧
      ((fields.known members).map Prod.fst).Nodup := by
  have fewer : (fields.known members).Sublist (fields.known (member :: members)) :=
    (List.sublist_cons_self member members).filter _
  exact ⟨fun other present => each other (List.mem_cons_of_mem _ present),
    distinct.sublist (fewer.map Prod.fst)⟩

/-- The fields behind the first one do not see a member of its name. -/
theorem Takes.rest {α : Type} {first : Field α} {rest : Fields ρ} {node : Node}
    (names : (cons first rest).names.Nodup)
    (takes : rest.Takes room ((some first.name, node) :: members) values) :
    rest.Takes room members values := by
  refine takes.congr fun name field => (memberNamed?_cons_of_ne ?_).symm
  rintro rfl
  exact (List.nodup_cons.1 names).1 field

/-- A field that is declared behind the first one has another name. -/
theorem DeclaredAs.ne_first {α : Type} {first : Field α} {rest : Fields ρ}
    (names : (cons first rest).names.Nodup) (declared : rest.DeclaredAs room declaration)
    {name : String} {default : Option Json} (field : (name, default) ∈ declaration) :
    first.name ≠ name := by
  rintro rfl
  exact (List.nodup_cons.1 names).1 (declared.mem_names field)

theorem Takes.of_default (declared : fields.DeclaredAs room declaration)
    (names : fields.names.Nodup) {name : String} {default : Json}
    (field : (name, some default) ∈ declaration) (gone : memberNamed? name members = none)
    (takes : fields.Takes room ((some name, Node.ofJson default) :: members) values) :
    fields.Takes room members values := by
  induction declared with
  | nil => trivial
  | @required _ _ _ _ others _ declared ih =>
      obtain ⟨value, values⟩ := values
      obtain ⟨here, later⟩ := takes
      have behind : (name, some default) ∈ others := by simpa using field
      rw [memberNamed?_cons_of_ne (declared.ne_first names behind)] at here
      exact ⟨here, ih (List.nodup_cons.1 names).2 behind later⟩
  | withDefault falls reads declared ih =>
      obtain ⟨value, values⟩ := values
      obtain ⟨here, later⟩ := takes
      rcases List.mem_cons.1 field with same | behind
      · cases same
        rw [memberNamed?, List.lookup_cons_self] at here
        simp only [reads, Except.ok.injEq] at here
        rw [Takes, gone, falls, here]
        exact ⟨rfl, later.rest names⟩
      · rw [memberNamed?_cons_of_ne (declared.ne_first names behind)] at here
        exact ⟨here, ih (List.nodup_cons.1 names).2 behind later⟩

/-- A member that says what a field falls back to may be left out. -/
theorem readObject_of_default (declared : fields.DeclaredAs room declaration)
    (names : (declaration.map Prod.fst).Nodup) {name : String} {default : Json}
    (field : (name, some default) ∈ declaration)
    (read : fields.readObject room ((some name, Node.ofJson default) :: members) true =
      .ok values) :
    fields.readObject room members true = .ok values := by
  obtain ⟨each, distinct, takes⟩ := readObject_eq_ok_iff_takes.1 read
  obtain ⟨eachLeft, distinctLeft⟩ := accepted_rest each distinct
  have gone := memberNamed?_rest (declared.mem_names field) distinct
  rw [← declared.names_eq] at names
  exact readObject_eq_ok_iff_takes.2
    ⟨eachLeft, distinctLeft, takes.of_default declared names field gone⟩

/-! ## Members that make a difference -/

/-- Where the first field takes a value, picking fails as it does for the others. -/
theorem pick_of_rest {α : Type} {first : Field α} {rest : Fields ρ} {value : α} {name : String}
    {node : Node} {problem : DecodeError}
    (takes : (cons first rest).Takes room ((some name, node) :: members) (value, values))
    (other : first.name ≠ name) (fails : rest.pick room members = .error problem) :
    (cons first rest).pick room members = .error problem := by
  have here := takes.1
  rw [memberNamed?_cons_of_ne other] at here
  rw [pick, fails]
  cases found : memberNamed? first.name members with
  | none =>
      rw [found] at here
      simp only [here]
      rfl
  | some node =>
      rw [found] at here
      simp only [here]
      rfl

theorem pick_of_required (declared : fields.DeclaredAs room declaration)
    (names : fields.names.Nodup) {name : String} (field : (name, none) ∈ declaration)
    (gone : memberNamed? name members = none) {node : Node}
    (takes : fields.Takes room ((some name, node) :: members) values) :
    fields.pick room members = .error (.missingField name) := by
  induction declared with
  | nil => cases field
  | required falls declared ih =>
      obtain ⟨value, values⟩ := values
      rcases List.mem_cons.1 field with same | behind
      · cases same
        simp only [pick, gone, falls]
      · exact pick_of_rest takes (declared.ne_first names behind)
          (ih (List.nodup_cons.1 names).2 behind takes.2)
  | @withDefault _ _ _ _ others _ _ _ _ declared ih =>
      obtain ⟨value, values⟩ := values
      have behind : (name, none) ∈ others := by simpa using field
      exact pick_of_rest takes (declared.ne_first names behind)
        (ih (List.nodup_cons.1 names).2 behind takes.2)

/-- Without the member of a required field the object is refused. -/
theorem readObject_of_required (declared : fields.DeclaredAs room declaration)
    (names : (declaration.map Prod.fst).Nodup) {name : String}
    (field : (name, none) ∈ declaration) {node : Node}
    (read : fields.readObject room ((some name, node) :: members) true = .ok values) :
    fields.readObject room members true = .error (.missingField name) := by
  obtain ⟨each, distinct, takes⟩ := readObject_eq_ok_iff_takes.1 read
  obtain ⟨eachLeft, distinctLeft⟩ := accepted_rest each distinct
  have accepted : fields.checkMembers room [] members = .ok () :=
    checkMembers_eq_ok_iff.2 ⟨eachLeft, distinctLeft, nofun⟩
  have gone := memberNamed?_rest (declared.mem_names field) distinct
  rw [← declared.names_eq] at names
  rw [readObject, accepted]
  exact pick_of_required declared names field gone takes

/-- A known name that comes twice is refused. -/
theorem exists_error_of_twice {name : String} (field : name ∈ fields.names)
    {front between behind : List (Option String × Node)} (first second : Node) (closed : Bool) :
    ∃ problem, fields.readObject room
      (front ++ (some name, first) :: (between ++ (some name, second) :: behind)) closed =
        .error problem := by
  have twice : ¬((fields.known
      (front ++ (some name, first) :: (between ++ (some name, second) :: behind))).map
        Prod.fst).Nodup := by
    intro distinct
    simp [known, List.filter_append, field, List.nodup_append] at distinct
  rw [readObject]
  cases check : fields.checkMembers room []
      (front ++ (some name, first) :: (between ++ (some name, second) :: behind)) with
  | error problem => exact ⟨problem, rfl⟩
  | ok => exact absurd (checkMembers_eq_ok_iff.1 check).2.1 twice

/-! ## Arrays -/

/-- An item gives a field what the members give it: the value of its member, or what it falls
back to. -/
def Gives (members : List (Option String × Node)) (field : String × Option Json) (item : Node) :
    Prop :=
  memberNamed? field.1 members = some item ∨
    memberNamed? field.1 members = none ∧ ∃ default ∈ field.2, item = Node.ofJson default

theorem readItems_of_gives (declared : fields.DeclaredAs room declaration)
    (takes : fields.Takes room members values) {items : List Node}
    (gives : List.Forall₂ (Gives members) declaration items) (short : Nat → DecodeError)
    (closed : Bool) (count : Nat) :
    fields.readItems room short closed count items = .ok (values, []) := by
  induction declared generalizing items count with
  | nil =>
      cases gives
      rfl
  | required _ _ ih =>
      obtain ⟨value, values⟩ := values
      obtain ⟨here, later⟩ := takes
      obtain ⟨item, items, given, others, rfl⟩ := List.forall₂_cons_left_iff.1 gives
      rcases given with found | ⟨-, default, same, -⟩
      · rw [found] at here
        simp only [readItems, here, ih later others (count + 1)]
        rfl
      · cases same
  | withDefault falls reads _ ih =>
      obtain ⟨value, values⟩ := values
      obtain ⟨here, later⟩ := takes
      obtain ⟨item, items, given, others, rfl⟩ := List.forall₂_cons_left_iff.1 gives
      rcases given with found | ⟨gone, default, same, rfl⟩
      · rw [found] at here
        simp only [readItems, here, ih later others (count + 1)]
        rfl
      · cases Option.mem_def.1 same
        rw [gone, falls, Option.some.injEq] at here
        simp only [readItems, reads, here, ih later others (count + 1)]
        rfl

/-- An array that gives every field what the members of an object give it is read like the
object. -/
theorem readArray_of_gives (declared : fields.DeclaredAs room declaration) (record : String)
    (read : fields.readObject room members true = .ok values) {items : List Node}
    (gives : List.Forall₂ (Gives members) declaration items) :
    fields.readArray record room items true = .ok values := by
  obtain ⟨-, -, takes⟩ := readObject_eq_ok_iff_takes.1 read
  rw [readArray, readItems_of_gives declared takes gives]
  rfl

end Fields

end Workbench.Json
