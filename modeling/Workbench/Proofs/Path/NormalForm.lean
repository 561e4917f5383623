/-
# Paths in normal form

A path is in normal form if it begins at the root and says nothing twice: no piece of it is the dot,
and slashes are repeated only where exactly two of them stand at the start. Two dots stay, and so
does a slash at the end, since what they mean is for the files to say.

A path that is made absolute behind a directory in normal form is in normal form itself. It names
what the directory and the path name, and it stays as it is when it is made absolute again, wherever
that is done. The parent of a path is described by its text: the path is its parent, a slash, the
last name, and maybe slashes behind it.
-/

import Mathlib.Data.List.Chain
import Mathlib.Data.List.DropRight
import Workbench.Path.Basic
import Workbench.Proofs.Text.Ends

namespace Workbench.Path

variable {α : Type} [Alphabet α]

/-- No two slashes stand side by side. -/
def SinglySeparated (path : List α) : Prop :=
  path.IsChain fun first second => ¬ (first = separator ∧ second = separator)

theorem singlySeparated_of_notMem {path : List α} (absent : separator ∉ path) :
    SinglySeparated path := by
  refine List.isChain_iff_forall_rel_of_append_cons_cons.2 ?_
  rintro first second before after rfl ⟨same, -⟩
  exact absent (same ▸ by simp)

/-- The path has nothing but slashes. -/
def IsRoot (path : List α) : Prop := path ≠ [] ∧ ∀ c ∈ path, c = separator

theorem isRoot_separator : IsRoot [(separator : α)] :=
  ⟨List.cons_ne_nil _ _, List.forall_mem_singleton.2 rfl⟩

theorem IsRoot.getLast?_append {gap : List α} (root : IsRoot gap) (front : List α) :
    (front ++ gap).getLast? = some separator := by
  obtain ⟨some, slashes⟩ := root
  rw [List.getLast?_append_of_ne_nil front some, List.getLast?_eq_some_getLast some,
    slashes _ (List.getLast_mem some)]

variable [DecidableEq α]

instance (path : List α) : Decidable (SinglySeparated path) :=
  inferInstanceAs (Decidable (List.IsChain _ path))

/-- The path begins at the root, no piece of it is the dot, and it repeats no slash. The first slash
is not looked at with the others, so two of them may stand at the start, but not three. -/
structure Normal (path : List α) : Prop where
  rooted : isAbsolute path = true
  noDot : [dot] ∉ pieces path
  singly : SinglySeparated path.tail

instance (path : List α) : Decidable (Normal path) :=
  decidable_of_iff (isAbsolute path = true ∧ [dot] ∉ pieces path ∧ SinglySeparated path.tail)
    ⟨fun ⟨rooted, noDot, singly⟩ => ⟨rooted, noDot, singly⟩,
      fun normal => ⟨normal.rooted, normal.noDot, normal.singly⟩⟩

/-- A piece that names something and has no slash in it. -/
structure IsName (name : List α) : Prop where
  component : isComponent name = true
  whole : separator ∉ name

@[simp]
theorem isAbsolute_separator (rest : List α) : isAbsolute (separator :: rest) = true :=
  decide_eq_true rfl

theorem exists_of_isAbsolute {path : List α} (rooted : isAbsolute path = true) :
    ∃ rest, path = separator :: rest := by
  cases path with
  | nil => cases rooted
  | cons first rest =>
      have same : first = separator := by simpa [isAbsolute] using rooted
      exact ⟨rest, same ▸ rfl⟩

theorem isAbsolute_append {front : List α} (rooted : isAbsolute front = true) (back : List α) :
    isAbsolute (front ++ back) = true := by
  obtain ⟨rest, rfl⟩ := exists_of_isAbsolute rooted
  exact isAbsolute_separator _

theorem isAbsolute_of_notMem {path : List α} (absent : separator ∉ path) :
    isAbsolute path = false := by
  rw [← Bool.not_eq_true]
  intro rooted
  obtain ⟨rest, rfl⟩ := exists_of_isAbsolute rooted
  exact absent List.mem_cons_self

theorem isAbsolute_append_of_ne_nil {front : List α} (some : front ≠ []) (back : List α) :
    isAbsolute (front ++ back) = isAbsolute front := by
  rw [isAbsolute, isAbsolute, List.head?_append_of_ne_nil front some]

theorem hasTwoLeading_eq (path : List α) :
    hasTwoLeading path =
      (isAbsolute path && isAbsolute path.tail && !isAbsolute path.tail.tail) := by
  rcases path with _ | ⟨first, _ | ⟨second, rest⟩⟩
  · rfl
  · simp [hasTwoLeading, isAbsolute]
  · by_cases third : rest.head? = some separator <;> simp [hasTwoLeading, isAbsolute, third]

/-! ## Pieces and components -/

theorem pieces_separator (rest : List α) : pieces (separator :: rest) = [] :: pieces rest :=
  Text.pieces_mark rest

theorem pieces_append_separator (first second : List α) :
    pieces (first ++ separator :: second) = pieces first ++ pieces second :=
  Text.pieces_append_mark first second

theorem components_append_separator (first second : List α) :
    components (first ++ separator :: second) = components first ++ components second := by
  rw [components, pieces_append_separator, List.filter_append]
  rfl

theorem components_separator (rest : List α) : components (separator :: rest) = components rest :=
  components_append_separator [] rest

@[simp]
theorem components_nil : components ([] : List α) = [] := rfl

@[simp]
theorem components_dot : components [(dot : α)] = [] := by
  have whole : (separator : α) ∉ [dot] := by simpa using Alphabet.dot_ne_separator.symm
  rw [components, pieces, Text.pieces_of_notMem whole]
  simp [isComponent]

theorem isName_of_mem_components {path name : List α} (present : name ∈ components path) :
    IsName name := by
  obtain ⟨piece, component⟩ := List.mem_filter.1 present
  exact ⟨component, Text.notMem_of_mem_pieces piece⟩

theorem isComponent_eq_true_iff {piece : List α} :
    isComponent piece = true ↔ piece ≠ [] ∧ piece ≠ [dot] := by
  simp [isComponent]

namespace IsName

variable {name : List α}

theorem ne_nil (named : IsName name) : name ≠ [] :=
  (isComponent_eq_true_iff.1 named.component).1

theorem ne_dot (named : IsName name) : name ≠ [dot] :=
  (isComponent_eq_true_iff.1 named.component).2

theorem components_eq (named : IsName name) : components name = [name] := by
  rw [components, pieces, Text.pieces_of_notMem named.whole,
    List.filter_cons_of_pos named.component, List.filter_nil]

theorem getLast?_append_ne (named : IsName name) (front : List α) :
    (front ++ name).getLast? ≠ some separator := by
  rw [List.getLast?_append_of_ne_nil front named.ne_nil]
  intro last
  exact named.whole (List.mem_of_getLast? last)

end IsName

/-! ## Putting names behind a path -/

theorem push_of_slash {path : List α} (slash : path.getLast? = some separator)
    (name : List α) : push path name = path ++ name :=
  if_pos slash

theorem push_of_not_slash {path : List α} (bare : path.getLast? ≠ some separator)
    (name : List α) : push path name = path ++ separator :: name :=
  if_neg bare

/-- A name is put behind one separator, whether or not the path has it already. -/
theorem push_eq (path name : List α) : ∃ front, push path name = front ++ separator :: name ∧
    (path = front ++ [separator] ∨ path = front ∧ path.getLast? ≠ some separator) := by
  by_cases slash : path.getLast? = some separator
  · obtain ⟨front, same⟩ := List.getLast?_eq_some_iff.1 slash
    refine ⟨front, ?_, .inl same⟩
    rw [push_of_slash slash, same, List.append_assoc]
    rfl
  · exact ⟨path, push_of_not_slash slash name, .inr ⟨rfl, slash⟩⟩

theorem isAbsolute_push {path : List α} (rooted : isAbsolute path = true) (name : List α) :
    isAbsolute (push path name) = true := by
  rw [push]
  split
  · exact isAbsolute_append rooted _
  · exact isAbsolute_append rooted _

theorem components_push (path name : List α) :
    components (push path name) = components path ++ components name := by
  obtain ⟨front, pushed, same | ⟨same, -⟩⟩ := push_eq path name
  · rw [pushed, same, components_append_separator, components_append_separator]
    exact congrArg (· ++ components name) (List.append_nil _).symm
  · rw [pushed, same, components_append_separator]

theorem components_foldl_push {names : List (List α)} (named : ∀ name ∈ names, IsName name)
    (path : List α) : components (names.foldl push path) = components path ++ names := by
  induction names generalizing path with
  | nil => exact (List.append_nil _).symm
  | cons name rest ih =>
      have first := (named name List.mem_cons_self).components_eq
      rw [List.foldl_cons, ih (fun name there => named name (List.mem_cons_of_mem _ there)),
        components_push, first, List.append_assoc]
      rfl

/-- What is put behind a path in normal form leaves it in normal form, unless it is a dot or has
slashes of its own. -/
theorem Normal.push {path name : List α} (normal : Normal path) (whole : separator ∉ name)
    (noDot : name ≠ [dot]) : Normal (push path name) := by
  obtain ⟨front, pushed, shape⟩ := push_eq path name
  rw [pushed]
  have alone : SinglySeparated (separator :: name) := by
    refine List.isChain_cons.2 ⟨?_, singlySeparated_of_notMem whole⟩
    rintro second first ⟨-, same⟩
    exact whole (same ▸ List.mem_of_head? first)
  have pieces_name : pieces name = [name] := Text.pieces_of_notMem whole
  have dotless : [dot] ∉ pieces front := by
    intro dot
    rcases shape with same | ⟨same, -⟩
    · refine normal.noDot ?_
      rw [same, pieces_append_separator]
      exact List.mem_append_left _ dot
    · exact normal.noDot (same ▸ dot)
  have singly := normal.singly
  refine ⟨pushed ▸ isAbsolute_push normal.rooted name, ?_, ?_⟩
  · rw [pieces_append_separator, pieces_name, List.mem_append, List.mem_singleton]
    rintro (dot | same)
    · exact dotless dot
    · exact noDot same.symm
  · cases front with
    | nil => exact singlySeparated_of_notMem whole
    | cons first rest =>
        refine List.isChain_split.2 ⟨?_, alone⟩
        rcases shape with same | ⟨same, last⟩
        · rwa [same] at singly
        · rw [same] at singly last
          refine List.IsChain.append singly (.singleton _) ?_
          rintro before found - - ⟨slash, -⟩
          refine last ?_
          rw [List.getLast?_cons, found, slash]
          rfl

/-! ## Absolute paths -/

theorem normal_separator : Normal [(separator : α)] := by
  refine ⟨isAbsolute_separator [], ?_, .nil⟩
  simp [pieces, Text.pieces]

theorem normal_separator_separator : Normal [(separator : α), separator] := by
  refine ⟨isAbsolute_separator _, ?_, .singleton _⟩
  simp [pieces, Text.pieces]

theorem normal_base {workingDirectory : List α} (normal : Normal workingDirectory)
    (path : List α) : Normal (base workingDirectory path) := by
  rw [base]
  split
  · split
    · exact normal_separator_separator
    · exact normal_separator
  · exact normal

theorem components_base (workingDirectory path : List α) :
    components (base workingDirectory path) =
      if isAbsolute path then [] else components workingDirectory := by
  rw [base]
  split
  · split <;> simp [components_separator]
  · rfl

/-- Where a path is made absolute does not matter if it begins at the root. -/
theorem absolute_eq_of_isAbsolute {path : List α} (rooted : isAbsolute path = true)
    (here there : List α) : absolute here path = absolute there path := by
  rw [absolute, absolute, base, base, if_pos rooted, if_pos rooted]

/-- An absolute path names what the directory and the path name. -/
theorem components_absolute (workingDirectory path : List α) :
    components (absolute workingDirectory path) =
      (if isAbsolute path then [] else components workingDirectory) ++ components path := by
  have named : ∀ name ∈ components path, IsName name := fun _ => isName_of_mem_components
  have joined := components_foldl_push named (base workingDirectory path)
  rw [components_base] at joined
  rw [absolute]
  split
  · rw [components_push, joined]
    exact List.append_nil _
  · exact joined

theorem isAbsolute_absolute {workingDirectory : List α}
    (rooted : isAbsolute workingDirectory = true) (path : List α) :
    isAbsolute (absolute workingDirectory path) = true := by
  have start : isAbsolute (base workingDirectory path) = true := by
    rw [base]
    split
    · split <;> exact isAbsolute_separator _
    · exact rooted
  have joined : isAbsolute ((components path).foldl push (base workingDirectory path)) = true :=
    List.foldlRecOn (motive := fun path => isAbsolute path = true) (components path) push start
      fun _ rooted name _ => isAbsolute_push rooted name
  rw [absolute]
  split
  · exact isAbsolute_push joined []
  · exact joined

theorem normal_absolute {workingDirectory : List α} (normal : Normal workingDirectory)
    (path : List α) : Normal (absolute workingDirectory path) := by
  have built : Normal ((components path).foldl push (base workingDirectory path)) := by
    refine List.foldlRecOn (components path) push (normal_base normal path) ?_
    intro start normal name present
    have named := isName_of_mem_components present
    exact normal.push named.whole named.ne_dot
  rw [absolute]
  split
  · exact built.push List.not_mem_nil (List.cons_ne_nil _ _).symm
  · exact built

/-! ## A path in normal form is absolute already -/

/-- Behind a path that ends with a slash, a text in normal form is put together again from what it
names. The induction is on the text, one name after another. -/
theorem foldl_push_components (front : List α) {rest : List α}
    (slash : front.getLast? = some separator) (start : rest.head? ≠ some separator)
    (noDot : [dot] ∉ pieces rest) (singly : SinglySeparated rest) :
    (if (front ++ rest).getLast? = some separator then
        push ((components rest).foldl push front) []
      else (components rest).foldl push front) = front ++ rest := by
  induction length : rest.length using Nat.strong_induction_on generalizing front rest with
  | _ size ih =>
      by_cases inside : separator ∈ rest
      · obtain ⟨name, later, rfl, whole⟩ := List.eq_append_cons_of_mem inside
        rw [pieces_append_separator, pieces, Text.pieces_of_notMem whole] at noDot
        have named : IsName name := by
          refine ⟨isComponent_eq_true_iff.2 ⟨?_, ?_⟩, whole⟩
          · rintro rfl
            exact start rfl
          · rintro rfl
            exact noDot List.mem_cons_self
        obtain ⟨-, behind⟩ := List.isChain_split.1 singly
        obtain ⟨apart, laterSingly⟩ := List.isChain_cons.1 behind
        have laterStart : later.head? ≠ some separator := fun again => apart _ again ⟨rfl, rfl⟩
        have shorter : later.length < size := by
          rw [← length, List.length_append, List.length_cons]
          omega
        have ends : (front ++ name ++ [separator]).getLast? = some separator :=
          List.getLast?_concat
        have built := ih later.length shorter _ ends laterStart
          (fun dot => noDot (List.mem_append_right _ dot)) laterSingly rfl
        have same : front ++ name ++ [separator] ++ later =
            front ++ (name ++ separator :: later) := by simp
        have unended : (front ++ name).getLast? ≠ some separator := named.getLast?_append_ne front
        rw [same] at built
        rw [components_append_separator, named.components_eq, List.singleton_append,
          List.foldl_cons, push_of_slash slash]
        -- The slash behind the name is set by the next name, or at the end of the path.
        cases remaining : components later with
        | nil =>
            rw [remaining, List.foldl_nil, push_of_slash ends, List.append_nil, ite_self, ← same,
              List.self_eq_append_right] at built
            subst built
            have finished : (front ++ (name ++ [separator])).getLast? = some separator := by
              rw [← List.append_assoc]
              exact ends
            rw [if_pos finished, List.foldl_nil, push_of_not_slash unended, List.append_assoc]
        | cons next others =>
            have step : push (front ++ name) next = push (front ++ name ++ [separator]) next := by
              rw [push_of_not_slash unended, push_of_slash ends, List.append_assoc _ [separator]]
              rfl
            rw [remaining, List.foldl_cons, ← step] at built
            exact built
      · have alone : pieces rest = [rest] := Text.pieces_of_notMem inside
        by_cases empty : rest = []
        · subst empty
          rw [List.append_nil, if_pos slash, components_nil, List.foldl_nil, push_of_slash slash,
            List.append_nil]
        · rw [alone, List.mem_singleton] at noDot
          have named : IsName rest :=
            ⟨isComponent_eq_true_iff.2 ⟨empty, fun dot => noDot dot.symm⟩, inside⟩
          rw [if_neg (named.getLast?_append_ne front), named.components_eq, List.foldl_cons,
            List.foldl_nil, push_of_slash slash]

/-- A path in normal form stays as it is when it is made absolute, in any directory. -/
theorem absolute_of_normal {path : List α} (normal : Normal path)
    (workingDirectory : List α) : absolute workingDirectory path = path := by
  obtain ⟨rest, rfl⟩ := exists_of_isAbsolute normal.rooted
  have singly : SinglySeparated rest := normal.singly
  have noDot : [dot] ∉ pieces rest := by
    have absent := normal.noDot
    rw [pieces_separator] at absent
    exact fun dot => absent (List.mem_cons_of_mem _ dot)
  by_cases double : rest.head? = some separator
  · obtain ⟨later, rfl⟩ := exists_of_isAbsolute (decide_eq_true double)
    obtain ⟨apart, laterSingly⟩ := List.isChain_cons.1 singly
    have laterStart : later.head? ≠ some separator := fun again => apart _ again ⟨rfl, rfl⟩
    rw [pieces_separator] at noDot
    have two : base workingDirectory (separator :: separator :: later) =
        [separator, separator] := by
      rw [base, if_pos (isAbsolute_separator _), if_pos]
      simp [hasTwoLeading, laterStart]
    rw [absolute, components_separator, components_separator, two]
    exact foldl_push_components [separator, separator] rfl laterStart
      (fun dot => noDot (List.mem_cons_of_mem _ dot)) laterSingly
  · have one : base workingDirectory (separator :: rest) = [separator] := by
      rw [base, if_pos (isAbsolute_separator _), if_neg]
      cases rest with
      | nil => exact Bool.false_ne_true
      | cons first later =>
          have other : first ≠ separator := fun same => double (congrArg some same)
          simp [hasTwoLeading, other]
    rw [absolute, components_separator, one]
    exact foldl_push_components [separator] rfl double noDot singly

/-! ## Parents -/

/-- The path is the parent, slashes, a name, and maybe slashes behind the name. The parent does not
end with a slash itself, unless it is the root. -/
inductive IsParent : List α → List α → Prop where
  | inside {parent gap name ending : List α} : parent ≠ [] → parent.getLast? ≠ some separator →
      IsRoot gap → name ≠ [] → separator ∉ name → (∀ c ∈ ending, c = separator) →
      IsParent parent (parent ++ gap ++ name ++ ending)
  | inRoot {gap name ending : List α} :
      IsRoot gap → name ≠ [] → separator ∉ name → (∀ c ∈ ending, c = separator) →
      IsParent [separator] (gap ++ name ++ ending)

theorem dropTrailing_append {front ending : List α} (slashes : ∀ c ∈ ending, c = separator)
    (bare : front.getLast? ≠ some separator) : dropTrailing (front ++ ending) = front := by
  refine Text.rdropWhile_append_of_getLast? (fun c there => decide_eq_true (slashes c there)) ?_
  rintro last found
  exact decide_eq_false fun same => bare (same ▸ found)

theorem dropName_append {front name : List α} (slash : front.getLast? = some separator)
    (whole : separator ∉ name) : dropName (front ++ name) = front := by
  refine Text.rdropWhile_append_of_getLast? (fun c there => decide_eq_true ?_) ?_
  · rintro rfl
    exact whole there
  · intro last found
    rw [slash, Option.some.injEq] at found
    exact decide_eq_false fun other => other found.symm

theorem parent?_eq_none_iff {path : List α} :
    parent? path = none ↔ ∀ c ∈ path, c = separator := by
  have empty : dropTrailing path = [] ↔ ∀ c ∈ path, c = separator :=
    List.rdropWhile_eq_nil_iff.trans <| forall₂_congr fun _ _ => decide_eq_true_iff
  rw [← empty, parent?]
  split
  · rename_i none
    exact iff_of_true rfl none
  · rename_i some
    split
    · exact iff_of_false nofun some
    · exact iff_of_false nofun some

/-- What stands before the last name says what the parent is. -/
theorem parent?_append {front name ending : List α} (slash : front.getLast? = some separator)
    (named : name ≠ []) (whole : separator ∉ name) (slashes : ∀ c ∈ ending, c = separator) :
    parent? (front ++ name ++ ending) =
      some (if dropTrailing front = [] then [separator] else dropTrailing front) := by
  have bare : (front ++ name).getLast? ≠ some separator := by
    intro last
    rw [List.getLast?_append_of_ne_nil front named] at last
    exact whole (List.mem_of_getLast? last)
  rw [parent?, dropTrailing_append slashes bare]
  split
  · rename_i none
    exact absurd none (List.append_ne_nil_of_right_ne_nil front named)
  · rw [dropName_append slash whole]
    split
    · rename_i none
      rw [if_pos none]
    · rename_i some
      rw [if_neg some]

/-- The parent is found that the text of the path shows. -/
theorem parent?_of_isParent {parent path : List α} (isParent : IsParent parent path) :
    parent? path = some parent := by
  cases isParent with
  | inside above bare root named whole slashes =>
      rw [parent?_append (root.getLast?_append _) named whole slashes,
        dropTrailing_append root.2 bare, if_neg above]
  | @inRoot gap _ _ root named whole slashes =>
      have none : dropTrailing gap = [] :=
        List.rdropWhile_eq_nil_iff.2 fun c there => decide_eq_true (root.2 c there)
      have slash : gap.getLast? = some separator := root.getLast?_append []
      rw [parent?_append slash named whole slashes, if_pos none]

theorem IsParent.eq {first second path : List α} (isFirst : IsParent first path)
    (isSecond : IsParent second path) : first = second :=
  Option.some.inj ((parent?_of_isParent isFirst).symm.trans (parent?_of_isParent isSecond))

theorem IsRoot.not_isParent {parent path : List α} (root : IsRoot path) :
    ¬ IsParent parent path := by
  intro isParent
  have found := parent?_of_isParent isParent
  rw [parent?_eq_none_iff.2 root.2] at found
  cases found

/-- A path from the root that names something has a parent. It is cut at the slashes at its end,
before its last name, and before the slashes that stand there. -/
theorem exists_isParent {path : List α} (rooted : isAbsolute path = true)
    (named : ∃ c ∈ path, c ≠ separator) : ∃ parent, IsParent parent path := by
  obtain ⟨body, ending, rfl, slashes, bare⟩ := Text.exists_cut (· = separator) path
  obtain ⟨front, name, rfl, whole, slash⟩ := Text.exists_cut (· ≠ separator) body
  obtain ⟨parent, gap, rfl, gaps, unended⟩ := Text.exists_cut (· = separator) front
  simp only [decide_eq_true_eq] at slashes whole gaps
  simp only [decide_eq_false_iff_not, not_not] at bare slash unended
  have absent : separator ∉ name := fun there => whole _ there rfl
  have some : name ≠ [] := by
    rintro rfl
    rw [List.append_nil] at bare named
    cases last : (parent ++ gap).getLast? with
    | none =>
        obtain ⟨c, there, other⟩ := named
        rw [List.getLast?_eq_none_iff.1 last] at there
        exact other (slashes c there)
    | some c => exact bare c last (slash c last)
  have root : IsRoot gap := by
    refine ⟨?_, gaps⟩
    rintro rfl
    rw [List.append_nil] at slash rooted
    cases last : parent.getLast? with
    | none =>
        rw [List.getLast?_eq_none_iff.1 last, List.nil_append] at rooted
        obtain ⟨rest, same⟩ := exists_of_isAbsolute rooted
        obtain ⟨first, others, rfl⟩ := List.exists_cons_of_ne_nil some
        rw [List.cons_append, List.cons.injEq] at same
        exact absent (same.1 ▸ List.mem_cons_self)
    | some c => exact unended c last (slash c last)
  by_cases empty : parent = []
  · subst empty
    exact ⟨_, .inRoot root some absent slashes⟩
  · exact ⟨_, .inside empty (fun last => unended _ last rfl) root some absent slashes⟩

/-- A path from the root is a root, or it has a parent. -/
theorem isRoot_or_exists_isParent {path : List α} (rooted : isAbsolute path = true) :
    IsRoot path ∨ ∃ parent, IsParent parent path := by
  by_cases slashes : ∀ c ∈ path, c = separator
  · obtain ⟨rest, rfl⟩ := exists_of_isAbsolute rooted
    exact .inl ⟨List.cons_ne_nil _ _, slashes⟩
  · push Not at slashes
    exact .inr (exists_isParent rooted slashes)

end Workbench.Path
