/-
# What can be shown

A target that is no web address is a path, and whether it can be shown depends on one question
to the file system: what stands in the place of its parent. The program asks for a directory and
does not look whether it got one. So a file is accepted behind anything that exists, a regular
file included; it is refused as missing exactly if nothing is there, and as unresolved if the
question has no answer. A refused target is refused before the store is touched.

What is accepted becomes a definition that no longer depends on where it was made. The path that it
mentions is in normal form, so as a target it means the same in any directory. It is the text that
the bytes of the path are read as. Where they spell a text it leads to the file that was opened, and
opens it again. Where the working directory has bytes in its name that spell none, it leads
elsewhere: the definition then mentions another file, and may not open at all.
-/

import Workbench.Path.FileTree
import Workbench.Proofs.Path.Translation
import Workbench.Request.Blocks

namespace Workbench

namespace ViewTarget

variable {surroundings : Surroundings} {target : String} {parent : List UInt8}

/-- The absolute path of a target. -/
def path (surroundings : Surroundings) (target : String) : List UInt8 :=
  Path.absolute surroundings.workingDirectory (Text.utf8 target)

theorem isWebAddress_iff {target : String} : isWebAddress target = true ↔
    "http://".toList <+: target.toList ∨ "https://".toList <+: target.toList := by
  rw [isWebAddress, Bool.or_eq_true, List.isPrefixOf_iff_prefix, List.isPrefixOf_iff_prefix]

/-- No address of a web page begins with a slash. -/
theorem isWebAddress_of_rooted {text : String} (rooted : Path.isAbsolute text.toList = true) :
    isWebAddress text = false := by
  obtain ⟨rest, shape⟩ := Path.exists_of_isAbsolute rooted
  rw [isWebAddress, shape]
  rfl

theorem normal_path (normal : Path.Normal surroundings.workingDirectory) :
    Path.Normal (path surroundings target) :=
  Path.normal_absolute normal (Text.utf8 target)

/-- The answer for an absolute path. Apart from the path it depends on the files alone. -/
def resolvePath (files : FileSystem) (path : List UInt8) :
    Except ViewTargetError (List UInt8) :=
  match Path.parent? path with
  | none => .ok path
  | some parent =>
      match files.status parent with
      | .missing => .error (.parentMissing parent)
      | .failed reason => .error (.unresolved reason)
      | .directory | .regularFile => .ok path

theorem resolveFile_eq (some : target ≠ "") :
    resolveFile surroundings target =
      resolvePath surroundings.files (path surroundings target) := by
  have spelled : ¬ target.toList.isEmpty = true := by
    rw [List.isEmpty_iff, String.toList_eq_nil_iff]
    exact some
  rw [resolveFile, if_neg spelled]
  rfl

theorem resolvePath_of_isRoot {files : FileSystem} {path : List UInt8} (root : Path.IsRoot path) :
    resolvePath files path = .ok path := by
  rw [resolvePath, Path.parent?_eq_none_iff.2 root.2]

theorem resolvePath_of_isParent {files : FileSystem} {path : List UInt8}
    (isParent : Path.IsParent parent path) :
    resolvePath files path =
      match files.status parent with
      | .missing => .error (.parentMissing parent)
      | .failed reason => .error (.unresolved reason)
      | .directory | .regularFile => .ok path := by
  rw [resolvePath, Path.parent?_of_isParent isParent]

/-- A path has a place for a file: it is a root, or something stands in the place of its parent. -/
def HasPlace (files : FileSystem) (path : List UInt8) : Prop :=
  Path.IsRoot path ∨ ∃ parent, Path.IsParent parent path ∧
    (files.status parent = .directory ∨ files.status parent = .regularFile)

/-- A path that can be shown is shown as it is. -/
theorem resolvePath_eq_ok_iff {files : FileSystem} {path shown : List UInt8}
    (rooted : Path.isAbsolute path = true) :
    resolvePath files path = .ok shown ↔ shown = path ∧ HasPlace files path := by
  unfold HasPlace
  rcases Path.isRoot_or_exists_isParent rooted with root | ⟨parent, isParent⟩
  · rw [resolvePath_of_isRoot root]
    simp [root, eq_comm]
  · have notRoot : ¬ Path.IsRoot path := fun root => root.not_isParent isParent
    have only : ∀ other, Path.IsParent other path ↔ other = parent := fun other =>
      ⟨fun isOther => isOther.eq isParent, fun same => same ▸ isParent⟩
    rw [resolvePath_of_isParent isParent]
    cases standing : files.status parent <;> simp [notRoot, only, standing, eq_comm]

/-! ### Paths as texts -/

/-- The path that is mentioned is the target, made absolute in what the working directory is read
as. -/
theorem toList_ofUtf8_path (surroundings : Surroundings) (target : String) :
    (Text.ofUtf8 (path surroundings target)).toList =
      Path.absolute (Text.ofUtf8 surroundings.workingDirectory).toList target.toList := by
  rw [Text.ofUtf8, Text.ofUtf8, String.toList_ofList, String.toList_ofList]
  exact Path.charsOfUtf8_absolute _ _

/-- No byte of a path is lost where the working directory spells a text, or does not matter. -/
theorem utf8_ofUtf8_path
    (spelled : Path.isAbsolute target.toList = true ∨
      ∃ text, surroundings.workingDirectory = Text.utf8 text) :
    Text.utf8 (Text.ofUtf8 (path surroundings target)) = path surroundings target := by
  have written : ∀ text : String, Path.absolute (Text.utf8 text) (Text.utf8 target) =
      Text.utf8OfChars (Path.absolute text.toList target.toList) := fun text =>
    (Path.translates_utf8OfChars.absolute_map text.toList target.toList).symm
  have lossless : ∀ text : String, path surroundings target =
      Path.absolute (Text.utf8 text) (Text.utf8 target) →
        Text.utf8 (Text.ofUtf8 (path surroundings target)) = path surroundings target := by
    intro text same
    rw [same, written, Text.ofUtf8, Text.charsOfUtf8_utf8OfChars, Text.utf8, String.toList_ofList]
  rcases spelled with rooted | ⟨text, same⟩
  · refine lossless "" (Path.absolute_eq_of_isAbsolute ?_ _ _)
    rwa [Text.utf8, Path.translates_utf8OfChars.isAbsolute_map]
  · exact lossless text (by rw [path, same])

/-- The path of a text in normal form is the text, in any directory. -/
theorem path_of_normal {text : String} (normal : Path.Normal text.toList)
    (surroundings : Surroundings) : path surroundings text = Text.utf8 text :=
  Path.absolute_of_normal (Path.translates_utf8OfChars.normal_map normal) _

end ViewTarget

namespace BlockDefinition

variable {surroundings : Surroundings} {target : String}

theorem ofViewTarget_of_file (file : ViewTarget.isWebAddress target = false)
    (options : ViewOptions) :
    ofViewTarget surroundings target options =
      (ViewTarget.resolveFile surroundings target).map fun path =>
        ofFile (Text.ofUtf8 path) options := by
  rw [ofViewTarget, file]
  rfl

/-- The definition of a web page has two entries. -/
theorem members_ofWebAddress (address : String) :
    (ofWebAddress address).metadata.members =
      [(Meta.urlKey, .str address), (Meta.viewKey, .str "web")] := rfl

/-- The definition of a file has the entries that the options ask for, and two more. -/
theorem members_ofFile (path : String) (options : ViewOptions) :
    (ofFile path options).metadata.members =
      (if options.connection = "" then [] else [(Meta.connectionKey, .str options.connection)]) ++
        (if options.edit then [(Meta.editKey, .bool true)] else []) ++
          [(Meta.fileKey, .str path), (Meta.viewKey, .str "preview")] := by
  obtain ⟨edit, connection, magnified⟩ := options
  by_cases none : connection = ""
  · subst none
    cases edit <;> rfl
  · have asked : connection.isEmpty = false := by
      rwa [← Bool.not_eq_true, String.isEmpty_iff]
    simp only [ofFile, asked, Bool.false_eq_true, if_false, if_neg none]
    cases edit <;> rfl

/-- The answer for a file, by what its path is and what stands in the place of its parent. -/
theorem ofViewTarget_cases (rooted : Path.isAbsolute surroundings.workingDirectory = true)
    (file : ViewTarget.isWebAddress target = false) (options : ViewOptions) :
    let path := ViewTarget.path surroundings target
    let answer := ofViewTarget surroundings target options
    target = "" ∧ answer = .error (.unresolved ViewTarget.emptyPath) ∨
      target ≠ "" ∧ Path.IsRoot path ∧ answer = .ok (ofFile (Text.ofUtf8 path) options) ∨
      target ≠ "" ∧ ∃ parent, Path.IsParent parent path ∧
        answer = match surroundings.files.status parent with
          | .missing => .error (.parentMissing parent)
          | .failed reason => .error (.unresolved reason)
          | .directory | .regularFile => .ok (ofFile (Text.ofUtf8 path) options) := by
  intro path answer
  have resolved : answer = _ := ofViewTarget_of_file file options
  by_cases empty : target = ""
  · subst empty
    exact .inl ⟨rfl, resolved⟩
  · right
    have absolute : Path.isAbsolute (ViewTarget.path surroundings target) = true :=
      Path.isAbsolute_absolute rooted (Text.utf8 target)
    rcases Path.isRoot_or_exists_isParent absolute with root | ⟨parent, isParent⟩
    · rw [ViewTarget.resolveFile_eq empty, ViewTarget.resolvePath_of_isRoot root] at resolved
      exact .inl ⟨empty, root, resolved⟩
    · rw [ViewTarget.resolveFile_eq empty, ViewTarget.resolvePath_of_isParent isParent] at resolved
      refine .inr ⟨empty, parent, isParent, resolved.trans ?_⟩
      cases surroundings.files.status parent <;> rfl

theorem ofViewTarget_of_isParent {parent : List UInt8}
    (file : ViewTarget.isWebAddress target = false) (options : ViewOptions) (some : target ≠ "")
    (isParent : Path.IsParent parent (ViewTarget.path surroundings target))
    (stands : surroundings.files.status parent = .directory ∨
      surroundings.files.status parent = .regularFile) :
    ofViewTarget surroundings target options =
      .ok (ofFile (Text.ofUtf8 (ViewTarget.path surroundings target)) options) := by
  rw [ofViewTarget_of_file file, ViewTarget.resolveFile_eq some,
    ViewTarget.resolvePath_of_isParent isParent]
  rcases stands with directory | regular
  · rw [directory]
    rfl
  · rw [regular]
    rfl

/-- A file that is accepted is shown by the text of its path, and the path has a place for it. -/
theorem ofViewTarget_eq_ok_iff
    (rooted : Path.isAbsolute (ViewTarget.path surroundings target) = true)
    (file : ViewTarget.isWebAddress target = false) (options : ViewOptions) (some : target ≠ "")
    (definition : BlockDefinition) :
    ofViewTarget surroundings target options = .ok definition ↔
      definition = ofFile (Text.ofUtf8 (ViewTarget.path surroundings target)) options ∧
        ViewTarget.HasPlace surroundings.files (ViewTarget.path surroundings target) := by
  rw [ofViewTarget_of_file file, ViewTarget.resolveFile_eq some]
  constructor
  · intro accepted
    cases resolved :
        ViewTarget.resolvePath surroundings.files (ViewTarget.path surroundings target) with
    | error problem =>
        rw [resolved] at accepted
        cases accepted
    | ok shown =>
        obtain ⟨rfl, place⟩ := (ViewTarget.resolvePath_eq_ok_iff rooted).1 resolved
        rw [resolved] at accepted
        cases accepted
        exact ⟨rfl, place⟩
  · rintro ⟨rfl, place⟩
    rw [(ViewTarget.resolvePath_eq_ok_iff rooted).2 ⟨rfl, place⟩]
    rfl

/-- A text in normal form opens as itself in any directory, or not at all. -/
theorem ofViewTarget_eq_ok_iff_of_normal {shown : String} (normal : Path.Normal shown.toList)
    (options : ViewOptions) (definition : BlockDefinition) :
    ofViewTarget surroundings shown options = .ok definition ↔
      definition = ofFile shown options ∧
        ViewTarget.HasPlace surroundings.files (Text.utf8 shown) := by
  have some : shown ≠ "" := by
    rintro rfl
    cases normal.rooted
  have path := ViewTarget.path_of_normal normal surroundings
  have rooted : Path.isAbsolute (ViewTarget.path surroundings shown) = true :=
    path ▸ (Path.translates_utf8OfChars.normal_map normal).rooted
  rw [ofViewTarget_eq_ok_iff rooted (ViewTarget.isWebAddress_of_rooted normal.rooted) options some,
    path, Text.ofUtf8_utf8]

end BlockDefinition

/-- A request to show what is refused fails before the store is touched. -/
theorem Request.run_createViewBlock_of_error {surroundings : Surroundings} {target : String}
    {options : ViewOptions} {cause : ViewTargetError}
    (refused : BlockDefinition.ofViewTarget surroundings target options = .error cause)
    (tabId : String) (ticks : Nat → Tick) (time : Nat) (context : Context) (world : World) :
    (createViewBlock surroundings tabId target options).run.run ticks time context world =
      ⟨⟨.error (.invalidTarget cause), context, world⟩, time⟩ := by
  rw [createViewBlock, BlockRequest.ofViewTarget, refused]
  rfl

/-- A file is accepted where something stands.

The answer for a target that is no web address depends on what stands in the place of its parent.
It is accepted if its path is a root, or if its parent is a directory or a regular file; it is
refused as missing exactly if its parent is, and as unresolved if the parent could not be looked
at, or if the target is empty. A request to create a block that shows a refused target fails for
the same reason, and leaves the world and its context, and so every row and the journal, as they
were. -/
theorem files_are_accepted_where_something_stands (surroundings : Surroundings) (target : String)
    (options : ViewOptions)
    (rooted : Path.isAbsolute surroundings.workingDirectory = true)
    (file : ¬ ("http://".toList <+: target.toList ∨ "https://".toList <+: target.toList)) :
    let path := ViewTarget.path surroundings target
    let found := surroundings.files.status
    let answer := BlockDefinition.ofViewTarget surroundings target options
    ((∃ definition, answer = .ok definition) ↔ target ≠ "" ∧
      (Path.IsRoot path ∨ ∃ parent, Path.IsParent parent path ∧
        (found parent = .directory ∨ found parent = .regularFile))) ∧
    (∀ place, answer = .error (.parentMissing place) ↔ target ≠ "" ∧
      Path.IsParent place path ∧ found place = .missing) ∧
    (∀ reason, answer = .error (.unresolved reason) ↔
      target = "" ∧ reason = ViewTarget.emptyPath ∨ target ≠ "" ∧
        ∃ parent, Path.IsParent parent path ∧ found parent = .failed reason) ∧
    ∀ tabId ticks time context world, (∀ definition, answer ≠ .ok definition) →
      ∃ cause, answer = .error cause ∧
        (Request.createViewBlock surroundings tabId target options).run.run ticks time context
            world =
          ⟨⟨.error (.invalidTarget cause), context, world⟩, time⟩ := by
  intro path found answer
  rw [← ViewTarget.isWebAddress_iff, Bool.not_eq_true] at file
  have unchanged : ∀ tabId ticks time context world, (∀ definition, answer ≠ .ok definition) →
      ∃ cause, answer = .error cause ∧
        (Request.createViewBlock surroundings tabId target options).run.run ticks time context
            world =
          ⟨⟨.error (.invalidTarget cause), context, world⟩, time⟩ := by
    intro tabId ticks time context world refused
    cases given : answer with
    | ok definition => exact absurd given (refused definition)
    | error cause =>
        exact ⟨cause, rfl,
          Request.run_createViewBlock_of_error given tabId ticks time context world⟩
  rcases BlockDefinition.ofViewTarget_cases rooted file options with
    ⟨empty, given⟩ | ⟨some, root, given⟩ | ⟨some, parent, isParent, given⟩
  · have refused : answer = .error (.unresolved ViewTarget.emptyPath) := given
    refine ⟨?_, ?_, ?_, unchanged⟩
    · simp [refused, empty]
    · simp [refused, empty]
    · simp [refused, empty, eq_comm]
  · have accepted : answer = .ok (.ofFile (Text.ofUtf8 path) options) := given
    have orphan : ∀ parent, ¬ Path.IsParent parent path := fun _ => root.not_isParent
    refine ⟨?_, ?_, ?_, unchanged⟩
    · simp [accepted, some, show Path.IsRoot path from root]
    · simp [accepted, orphan]
    · simp [accepted, some, orphan]
  · have only : ∀ other, Path.IsParent other path ↔ other = parent := fun other =>
      ⟨fun isOther => isOther.eq isParent, fun same => same ▸ isParent⟩
    have missing : ∀ place, Path.IsParent place path ∧ found place = .missing ↔
        parent = place ∧ found parent = .missing := by
      intro place
      rw [only, eq_comm]
      exact and_congr_right fun same => by rw [same]
    have notRoot : ¬ Path.IsRoot path := fun root => root.not_isParent isParent
    cases standing : found parent with
    | directory | regularFile =>
        have accepted : answer = .ok (.ofFile (Text.ofUtf8 path) options) :=
          given.trans (by rw [show surroundings.files.status parent = _ from standing])
        refine ⟨?_, ?_, ?_, unchanged⟩
        · simp [accepted, some, only, standing]
        · simp [accepted, missing, standing]
        · simp [accepted, some, only, standing]
    | missing =>
        have refused : answer = .error (.parentMissing parent) :=
          given.trans (by rw [show surroundings.files.status parent = _ from standing])
        refine ⟨?_, ?_, ?_, unchanged⟩
        · simp [refused, only, notRoot, standing]
        · simp [refused, some, missing, standing]
        · simp [refused, some, only, standing]
    | failed reason =>
        have refused : answer = .error (.unresolved reason) :=
          given.trans (by rw [show surroundings.files.status parent = _ from standing])
        refine ⟨?_, ?_, ?_, unchanged⟩
        · simp [refused, only, notRoot, standing]
        · simp [refused, missing, standing]
        · simp [refused, some, only, standing]

/-- In a home with a regular file, a path that goes on behind the file cannot be looked at. Nothing
is created for it. -/
theorem a_path_behind_a_file_is_unresolved :
    let home := FileTree.folder [("home", .folder [("me", .folder [("notes.txt", .file false)])])]
    let surroundings : Surroundings := ⟨Text.utf8 "/home/me", home.fileSystem⟩
    let target := "notes.txt//../x/./y/"
    let options : ViewOptions := ⟨true, "remote", false⟩
    let cause : ViewTargetError := .unresolved FileTree.notDirectory
    Path.isAbsolute surroundings.workingDirectory = true ∧
      ¬ ("http://".toList <+: target.toList ∨ "https://".toList <+: target.toList) ∧
      Path.IsParent (Text.utf8 "/home/me/notes.txt/../x") (ViewTarget.path surroundings target) ∧
      BlockDefinition.ofViewTarget surroundings target options = .error cause ∧
      ∀ tabId ticks time context world,
        (Request.createViewBlock surroundings tabId target options).run.run ticks time context
            world =
          ⟨⟨.error (.invalidTarget cause), context, world⟩, time⟩ := by
  intro home surroundings target options cause
  have rooted : Path.isAbsolute surroundings.workingDirectory = true := by decide
  have file : ¬ ("http://".toList <+: target.toList ∨ "https://".toList <+: target.toList) := by
    decide
  have shape : ViewTarget.path surroundings target =
      Text.utf8 "/home/me/notes.txt/../x" ++ [Path.separator] ++ Text.utf8 "y" ++
        [Path.separator] := by
    decide
  have isParent :
      Path.IsParent (Text.utf8 "/home/me/notes.txt/../x")
        (ViewTarget.path surroundings target) := by
    rw [shape]
    exact .inside (by decide) (by decide) Path.isRoot_separator (by decide) (by decide)
      Path.isRoot_separator.2
  obtain ⟨-, -, unresolved, unchanged⟩ :=
    files_are_accepted_where_something_stands surroundings target options rooted file
  have refused := (unresolved FileTree.notDirectory).2
    (.inr ⟨by decide, _, isParent, by decide⟩)
  refine ⟨rooted, file, isParent, refused, fun tabId ticks time context world => ?_⟩
  obtain ⟨found, same, ran⟩ := unchanged tabId ticks time context world
    fun definition accepted => nomatch refused.symm.trans accepted
  cases refused.symm.trans same
  exact ran

/-- A file is accepted although its parent is no directory: it stands behind a regular file. -/
theorem a_file_can_be_accepted_behind_a_regular_file :
    let home := FileTree.folder [("home", .folder [("me", .folder [("notes.txt", .file false)])])]
    let surroundings : Surroundings := ⟨Text.utf8 "/home/me", home.fileSystem⟩
    let options : ViewOptions := ⟨false, "", false⟩
    let path := ViewTarget.path surroundings "notes.txt/a"
    ¬ ("http://".toList <+: "notes.txt/a".toList ∨ "https://".toList <+: "notes.txt/a".toList) ∧
      BlockDefinition.ofViewTarget surroundings "notes.txt/a" options =
        .ok (.ofFile "/home/me/notes.txt/a" options) ∧
      ¬ Path.IsRoot path ∧ Path.IsParent (Text.utf8 "/home/me/notes.txt") path ∧
      home.fileSystem.status (Text.utf8 "/home/me/notes.txt") ≠ .directory := by
  intro home surroundings options path
  have shape : path =
      Text.utf8 "/home/me/notes.txt" ++ [Path.separator] ++ Text.utf8 "a" ++ [] := by
    decide
  have spelled : path = Text.utf8 "/home/me/notes.txt/a" := by decide
  have isParent : Path.IsParent (Text.utf8 "/home/me/notes.txt") path := by
    rw [shape]
    exact .inside (by decide) (by decide) Path.isRoot_separator (by decide) (by decide)
      (List.forall_mem_nil _)
  have file : ViewTarget.isWebAddress "notes.txt/a" = false := by decide
  have standing : home.fileSystem.status (Text.utf8 "/home/me/notes.txt") = .regularFile := by
    decide
  have answer := BlockDefinition.ofViewTarget_of_isParent file options (by decide) isParent
    (.inr standing)
  rw [show ViewTarget.path surroundings "notes.txt/a" = _ from spelled, Text.ofUtf8_utf8] at answer
  refine ⟨by decide, answer, fun root => root.not_isParent isParent, isParent, ?_⟩
  rw [standing]
  decide

/-- What is accepted as a target is written down in one form, and opens again as itself where its
text leads to something.

A web address becomes a definition with two entries, whatever the options are. A file becomes a
definition with the text of its path, and with those other entries that the options ask for. The
text is in normal form and names what the working directory, read as a text, and the target name.
As a target it can only give the same definition again, in any working directory, and it does so
exactly if it is a root or something stands in the place of its parent. This is the case where no
byte was lost: where the target is absolute, or the working directory spells a text. -/
theorem accepted_targets_open_again_where_their_text_leads (surroundings : Surroundings)
    (target : String) (options : ViewOptions) (definition : BlockDefinition)
    (normal : Path.Normal surroundings.workingDirectory)
    (accepted : BlockDefinition.ofViewTarget surroundings target options = .ok definition) :
    (("http://".toList <+: target.toList ∨ "https://".toList <+: target.toList) ∧
      definition.metadata.members = [("url", .str target), ("view", .str "web")]) ∨
    (¬ ("http://".toList <+: target.toList ∨ "https://".toList <+: target.toList) ∧
      ∃ shown : String, shown = Text.ofUtf8 (ViewTarget.path surroundings target) ∧
        Path.Normal shown.toList ∧
        Path.components shown.toList =
          (if Path.isAbsolute target.toList then []
            else Path.components (Text.ofUtf8 surroundings.workingDirectory).toList) ++
              Path.components target.toList ∧
        definition.metadata.members =
          (if options.connection = "" then [] else [("connection", .str options.connection)]) ++
            (if options.edit then [("edit", .bool true)] else []) ++
              [("file", .str shown), ("view", .str "preview")] ∧
        (∀ elsewhere other,
          BlockDefinition.ofViewTarget { surroundings with workingDirectory := elsewhere } shown
              options = .ok other ↔
            other = definition ∧ ViewTarget.HasPlace surroundings.files (Text.utf8 shown)) ∧
        ((Path.isAbsolute target.toList = true ∨
            ∃ text, surroundings.workingDirectory = Text.utf8 text) →
          ∀ elsewhere,
            BlockDefinition.ofViewTarget { surroundings with workingDirectory := elsewhere } shown
              options = .ok definition)) := by
  rw [← ViewTarget.isWebAddress_iff]
  cases web : ViewTarget.isWebAddress target with
  | true =>
      rw [BlockDefinition.ofViewTarget, web, if_pos rfl] at accepted
      cases accepted
      exact .inl ⟨rfl, BlockDefinition.members_ofWebAddress target⟩
  | false =>
      right
      have some : target ≠ "" := by
        rintro rfl
        cases accepted
      have inForm : Path.Normal (ViewTarget.path surroundings target) :=
        ViewTarget.normal_path normal
      obtain ⟨rfl, place⟩ :=
        (BlockDefinition.ofViewTarget_eq_ok_iff inForm.rooted web options some _).1 accepted
      have text := ViewTarget.toList_ofUtf8_path surroundings target
      have normalText : Path.Normal (Text.ofUtf8 (ViewTarget.path surroundings target)).toList := by
        rw [Text.ofUtf8, String.toList_ofList]
        exact Path.translates_charsOfUtf8.normal_map inForm
      have again := fun elsewhere => @BlockDefinition.ofViewTarget_eq_ok_iff_of_normal
        { surroundings with workingDirectory := elsewhere } _ normalText options
      refine ⟨Bool.false_ne_true, _, rfl, normalText, ?_, BlockDefinition.members_ofFile _ options,
        again, ?_⟩
      · rw [text]
        exact Path.components_absolute _ _
      · intro spelled elsewhere
        refine (again elsewhere _).2 ⟨rfl, ?_⟩
        rw [ViewTarget.utf8_ofUtf8_path spelled]
        exact place

/-- A target with a dot, two dots and slashes side by side becomes a path in normal form. It opens
again from another directory. -/
theorem a_definition_opens_from_elsewhere :
    let home := FileTree.folder [("home", .folder [("me", .folder [("notes", .folder [])])])]
    let surroundings : Surroundings := ⟨Text.utf8 "/home/me", home.fileSystem⟩
    let options : ViewOptions := ⟨true, "remote", false⟩
    let target := "./notes//../notes/./x/"
    let path := "/home/me/notes/../notes/x/"
    Path.Normal surroundings.workingDirectory ∧
      BlockDefinition.ofViewTarget surroundings target options = .ok (.ofFile path options) ∧
      (BlockDefinition.ofFile path options).metadata.members =
        [("connection", .str "remote"), ("edit", .bool true), ("file", .str path),
          ("view", .str "preview")] ∧
      BlockDefinition.ofViewTarget ⟨Text.utf8 "/", home.fileSystem⟩ path options =
        .ok (.ofFile path options) := by
  intro home surroundings options target path
  have normal : Path.Normal surroundings.workingDirectory := by decide
  have given : BlockDefinition.ofViewTarget surroundings target options =
      .ok (.ofFile path options) := by
    have shape : ViewTarget.path surroundings target =
        Text.utf8 "/home/me/notes/../notes" ++ [Path.separator] ++ Text.utf8 "x" ++
          [Path.separator] := by
      decide
    have spelled : ViewTarget.path surroundings target = Text.utf8 path := by decide
    have isParent :
        Path.IsParent (Text.utf8 "/home/me/notes/../notes")
          (ViewTarget.path surroundings target) := by
      rw [shape]
      exact .inside (by decide) (by decide) Path.isRoot_separator (by decide) (by decide)
        Path.isRoot_separator.2
    have answer := BlockDefinition.ofViewTarget_of_isParent (by decide) options (by decide) isParent
      (.inl (by decide))
    rwa [spelled, Text.ofUtf8_utf8] at answer
  rcases accepted_targets_open_again_where_their_text_leads surroundings target options _ normal
    given with ⟨web, -⟩ | ⟨-, shown, -, -, -, members, -, reopens⟩
  · exact absurd web (by decide)
  · rw [BlockDefinition.members_ofFile] at members
    have same : path = shown := by
      simpa [options, Meta.connectionKey, Meta.editKey, Meta.fileKey, Meta.viewKey] using members
    subst same
    exact ⟨normal, given, members, reopens (.inr ⟨_, rfl⟩) (Text.utf8 "/")⟩

/-- A file in a directory whose name is no text is accepted, and the definition mentions a path that
leads nowhere: as a target it is refused. -/
theorem a_definition_can_mention_a_path_that_leads_nowhere :
    let disk := FileTree.folder [("tmp", .directory [([0xFF], .folder [])])]
    let surroundings : Surroundings := ⟨Text.utf8 "/tmp/" ++ [0xFF], disk.fileSystem⟩
    let options : ViewOptions := ⟨false, "", false⟩
    let shown := "/tmp/\ufffd/a"
    Path.Normal surroundings.workingDirectory ∧
      disk.fileSystem.status surroundings.workingDirectory = .directory ∧
      BlockDefinition.ofViewTarget surroundings "a" options = .ok (.ofFile shown options) ∧
      (BlockDefinition.ofFile shown options).metadata.members =
        [("file", .str shown), ("view", .str "preview")] ∧
      BlockDefinition.ofViewTarget ⟨Text.utf8 "/", disk.fileSystem⟩ shown options =
        .error (.parentMissing (Text.utf8 "/tmp/\ufffd")) := by
  intro disk surroundings options shown
  have shape : ViewTarget.path surroundings "a" =
      Text.utf8 "/tmp/" ++ [0xFF] ++ [Path.separator] ++ Text.utf8 "a" ++ [] := by
    decide
  have isParent :
      Path.IsParent (Text.utf8 "/tmp/" ++ [0xFF]) (ViewTarget.path surroundings "a") := by
    rw [shape]
    exact .inside (by decide) (by decide) Path.isRoot_separator (by decide) (by decide)
      (List.forall_mem_nil _)
  have read : Text.ofUtf8 (ViewTarget.path surroundings "a") = shown := by
    have cut : ViewTarget.path surroundings "a" =
        Text.utf8OfChars "/tmp/".toList ++ 0xFF :: Text.utf8OfChars "/a".toList := by
      decide
    rw [cut, Text.ofUtf8, Text.charsOfUtf8_utf8OfChars_append,
      Text.charsOfUtf8_of_not_leading (by decide), Text.charsOfUtf8_utf8OfChars]
    rfl
  have answer := BlockDefinition.ofViewTarget_of_isParent (by decide) options (by decide) isParent
    (.inl (by decide))
  rw [read] at answer
  have refused : BlockDefinition.ofViewTarget ⟨Text.utf8 "/", disk.fileSystem⟩ shown options =
      .error (.parentMissing (Text.utf8 "/tmp/\ufffd")) := by
    have elsewhere : ViewTarget.path ⟨Text.utf8 "/", disk.fileSystem⟩ shown =
        Text.utf8 "/tmp/\ufffd" ++ [Path.separator] ++ Text.utf8 "a" ++ [] := by
      decide
    have isOther : Path.IsParent (Text.utf8 "/tmp/\ufffd")
        (ViewTarget.path ⟨Text.utf8 "/", disk.fileSystem⟩ shown) := by
      rw [elsewhere]
      exact .inside (by decide) (by decide) Path.isRoot_separator (by decide) (by decide)
        (List.forall_mem_nil _)
    have missing : disk.fileSystem.status (Text.utf8 "/tmp/\ufffd") = .missing := by decide
    rw [BlockDefinition.ofViewTarget_of_file (by decide), ViewTarget.resolveFile_eq (by decide),
      ViewTarget.resolvePath_of_isParent isOther, missing]
    rfl
  exact ⟨by decide, by decide, answer, BlockDefinition.members_ofFile shown options, refused⟩

end Workbench
