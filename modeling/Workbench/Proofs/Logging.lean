/-
# Logging keeps its settings

Logging may be asked for any number of times, with texts or with a configuration. While it is not
active, a request may open a log and put its settings in force, or fail. From then on the settings
stay as they are, and every request is only compared with them.

What a request asks for and what it is told are described here without the functions that read the
texts: a word that names a level, and a path that spells the same names as the directory in force,
both freed of white space. Of the things that may be wrong the first one is told, and which one that
is depends on the request and on the settings in force, and on nothing that was asked before.
-/

import Workbench.Logging
import Workbench.Proofs.Path.Spelling
import Workbench.Proofs.Text.Ends

namespace Workbench

/-! ## Words and directories -/

/-- A word in small letters names a level. Every level has its own name, and one has another. -/
inductive LogLevel.IsNamed : LogLevel → String → Prop where
  | own (level : LogLevel) : IsNamed level level.name
  | warning : IsNamed .warn "warning"

theorem LogLevel.ofName?_eq_some_iff {word : String} {level : LogLevel} :
    ofName? word = some level ↔ level.IsNamed word := by
  constructor
  · intro found
    unfold ofName? at found
    split at found <;> cases found
    · exact .own .trace
    · exact .own .debug
    · exact .own .info
    · exact .own .warn
    · exact .warning
    · exact .own .error
  · intro named
    cases named with
    | own => cases level <;> rfl
    | warning => rfl

namespace LogSettings

/-- What two texts ask for: a word for a level, whatever capital letters it was written with, and a
path. White space around the texts is no part of it. -/
structure Said (level directory word path : String) : Prop where
  word : ∃ inner : String,
    Text.Surrounds level.toList inner.toList ∧ word = inner.map Char.toLower
  path : Text.Surrounds directory.toList path.toList

/-- What is told about a request for a level and a directory while settings are in force. -/
inductive Answers (active : LogSettings) (word path : String) :
    Except LoggingError Unit → Prop where
  | agreed : active.level.IsNamed word → Path.SameWay active.directory.toList path.toList →
      Answers active word path (.ok ())
  | unsupportedLevel : (∀ level : LogLevel, ¬ level.IsNamed word) →
      Answers active word path (.error (.unsupportedLevel word))
  | emptyDirectory {level : LogLevel} : level.IsNamed word → path = "" →
      Answers active word path (.error .emptyDirectory)
  | relativeDirectory {level : LogLevel} : level.IsNamed word → path ≠ "" →
      Path.isAbsolute path.toList = false →
      Answers active word path (.error (.relativeDirectory path))
  | otherDirectory {level : LogLevel} : level.IsNamed word →
      Path.isAbsolute path.toList = true →
      ¬ Path.SameWay active.directory.toList path.toList →
      Answers active word path (.error (.otherDirectory active.directory path))
  | otherLevel {level : LogLevel} : level.IsNamed word →
      Path.SameWay active.directory.toList path.toList → level ≠ active.level →
      Answers active word path (.error (.otherLevel active.level level))

/-- The word for a level in a text. -/
def wordOfText (text : String) : String := (Text.trim text).map Char.toLower

theorem said_iff {level directory word path : String} :
    Said level directory word path ↔ word = wordOfText level ∧ path = Text.trim directory := by
  constructor
  · rintro ⟨⟨inner, around, rfl⟩, pathAround⟩
    rw [wordOfText, Text.trim_eq_iff.2 around, Text.trim_eq_iff.2 pathAround]
    exact ⟨rfl, rfl⟩
  · rintro ⟨rfl, rfl⟩
    exact ⟨⟨_, Text.surrounds_trim level, rfl⟩, Text.surrounds_trim directory⟩

/-! ## One request -/

variable {level : LogLevel} {text directory : String}

theorem levelOfText_of_named (named : level.IsNamed (wordOfText text)) :
    levelOfText text = .ok level := by
  rw [levelOfText, ← wordOfText, LogLevel.ofName?_eq_some_iff.2 named]

theorem levelOfText_of_unnamed (unnamed : ∀ level : LogLevel, ¬ level.IsNamed (wordOfText text)) :
    levelOfText text = .error (.unsupportedLevel (wordOfText text)) := by
  have unknown : LogLevel.ofName? (wordOfText text) = none :=
    Option.eq_none_iff_forall_ne_some.2 fun level found =>
      unnamed level (LogLevel.ofName?_eq_some_iff.1 found)
  rw [levelOfText, ← wordOfText, unknown]

theorem directoryOfText_of_absolute
    (rooted : Path.isAbsolute (Text.trim directory).toList = true) :
    directoryOfText directory = .ok (Text.trim directory) := by
  have some : ¬ (Text.trim directory).isEmpty = true := by
    intro empty
    rw [String.isEmpty_iff.1 empty] at rooted
    cases rooted
  rw [directoryOfText, if_neg some, if_pos rooted]

theorem directoryOfText_of_relative (some : Text.trim directory ≠ "")
    (relative : Path.isAbsolute (Text.trim directory).toList = false) :
    directoryOfText directory = .error (.relativeDirectory (Text.trim directory)) := by
  rw [directoryOfText, if_neg (mt String.isEmpty_iff.1 some), relative]
  rfl

theorem directoryOfText_of_empty (empty : Text.trim directory = "") :
    directoryOfText directory = .error .emptyDirectory := by
  rw [directoryOfText, if_pos (String.isEmpty_iff.2 empty)]

/-- A word for a level and an absolute path are settings. -/
theorem ofTexts_of_named (named : level.IsNamed (wordOfText text))
    (rooted : Path.isAbsolute (Text.trim directory).toList = true) :
    ofTexts text directory = .ok ⟨level, Text.trim directory⟩ := by
  rw [ofTexts, levelOfText_of_named named, directoryOfText_of_absolute rooted]
  rfl

theorem isAbsolute_of_directoryOfText {path : String}
    (read : directoryOfText directory = .ok path) : Path.isAbsolute path.toList = true := by
  simp only [directoryOfText] at read
  split_ifs at read with empty rooted
  cases read
  exact rooted

theorem isAbsolute_of_ofTexts {settings : LogSettings}
    (read : ofTexts text directory = .ok settings) :
    Path.isAbsolute settings.directory.toList = true := by
  cases named : levelOfText text with
  | error problem =>
      rw [ofTexts, named] at read
      cases read
  | ok level =>
      cases found : directoryOfText directory with
      | error problem =>
          rw [ofTexts, named, found] at read
          cases read
      | ok path =>
          rw [ofTexts, named, found] at read
          cases read
          exact isAbsolute_of_directoryOfText found

/-- Settings in force take a request as it is meant. -/
theorem Answers.eq {active : LogSettings}
    (rooted : Path.isAbsolute active.directory.toList = true) {answer : Except LoggingError Unit}
    (answers : active.Answers (wordOfText text) (Text.trim directory) answer) :
    (ofTexts text directory >>= active.agree) = answer := by
  cases answers with
  | agreed named same =>
      obtain ⟨-, there, components⟩ := Path.sameWay_iff.1 same
      rw [ofTexts_of_named named there]
      show active.agree ⟨active.level, Text.trim directory⟩ = .ok ()
      rw [agree, if_neg (not_not.2 components), if_neg (not_not.2 rfl)]
  | unsupportedLevel unnamed =>
      rw [ofTexts, levelOfText_of_unnamed unnamed]
      rfl
  | emptyDirectory named empty =>
      rw [ofTexts, levelOfText_of_named named, directoryOfText_of_empty empty]
      rfl
  | relativeDirectory named some relative =>
      rw [ofTexts, levelOfText_of_named named, directoryOfText_of_relative some relative]
      rfl
  | @otherDirectory level named there apart =>
      have differ : Path.components active.directory.toList ≠
          Path.components (Text.trim directory).toList := fun same =>
        apart (Path.sameWay_iff.2 ⟨rooted, there, same⟩)
      rw [ofTexts_of_named named there]
      show active.agree ⟨level, Text.trim directory⟩ = _
      rw [agree, if_pos differ]
  | @otherLevel level named same differ =>
      obtain ⟨-, there, components⟩ := Path.sameWay_iff.1 same
      rw [ofTexts_of_named named there]
      show active.agree ⟨level, Text.trim directory⟩ = _
      rw [agree, if_neg (not_not.2 components), if_pos (Ne.symm differ)]

/-- Something is told about every request. -/
theorem exists_answers (active : LogSettings) (word path : String) :
    ∃ answer, active.Answers word path answer := by
  by_cases named : ∃ level : LogLevel, level.IsNamed word
  · obtain ⟨level, named⟩ := named
    by_cases empty : path = ""
    · exact ⟨_, .emptyDirectory named empty⟩
    · cases rooted : Path.isAbsolute path.toList with
      | false => exact ⟨_, .relativeDirectory named empty rooted⟩
      | true =>
          by_cases same : Path.SameWay active.directory.toList path.toList
          · by_cases agrees : level = active.level
            · exact ⟨_, .agreed (agrees ▸ named) same⟩
            · exact ⟨_, .otherLevel named same agrees⟩
          · exact ⟨_, .otherDirectory named rooted same⟩
  · exact ⟨_, .unsupportedLevel (not_exists.1 named)⟩

theorem answers_iff {active : LogSettings}
    (rooted : Path.isAbsolute active.directory.toList = true) {answer : Except LoggingError Unit} :
    active.Answers (wordOfText text) (Text.trim directory) answer ↔
      (ofTexts text directory >>= active.agree) = answer := by
  constructor
  · exact Answers.eq rooted
  · rintro rfl
    obtain ⟨answer, answers⟩ := exists_answers active (wordOfText text) (Text.trim directory)
    rwa [Answers.eq rooted answers]

end LogSettings

/-! ## Any number of requests -/

namespace Logging

/-- A call that asks for logging: with two texts, or with a configuration that has the level. -/
inductive Call where
  | ofTexts (level directory : String)
  | ofConfig (config : Config) (directory : String)

/-- The text for the level that a call asks for. -/
def Call.level : Call → String
  | ofTexts level _ => level
  | ofConfig config _ => config.logLevel

/-- The text for the directory that a call asks for. -/
def Call.directory : Call → String
  | ofTexts _ directory => directory
  | ofConfig _ directory => directory

/-- A call, and what would come of opening a log at that time. -/
structure Attempt where
  call : Call
  start : LogSettings → Except String Unit

/-- Make a call. Its answer and the settings in force afterwards are given back. -/
def Attempt.perform (active : Option LogSettings) :
    Attempt → Except LoggingError Unit × Option LogSettings
  | ⟨.ofTexts level directory, start⟩ => request start active level directory
  | ⟨.ofConfig config directory, start⟩ => requestFrom config start active directory

/-- The settings in force after several calls, made one after another. -/
def statusAfter (active : Option LogSettings) (attempts : List Attempt) : Option LogSettings :=
  attempts.foldl (fun active attempt => (attempt.perform active).2) active

theorem Attempt.perform_eq (active : Option LogSettings) (attempt : Attempt) :
    attempt.perform active =
      request attempt.start active attempt.call.level attempt.call.directory := by
  obtain ⟨call, start⟩ := attempt
  cases call <;> rfl

/-- Settings in force stay, and the answer is what they say about the request. -/
theorem Attempt.perform_of_active (settings : LogSettings) (attempt : Attempt) :
    attempt.perform (some settings) =
      (LogSettings.ofTexts attempt.call.level attempt.call.directory >>= settings.agree,
        some settings) := by
  rw [perform_eq, request]
  cases LogSettings.ofTexts attempt.call.level attempt.call.directory <;> rfl

/-- Settings that come into force are those that were asked for. -/
theorem Attempt.ofTexts_of_perform {settings : LogSettings} {attempt : Attempt}
    (opened : (attempt.perform none).2 = some settings) :
    LogSettings.ofTexts attempt.call.level attempt.call.directory = .ok settings := by
  rw [perform_eq, request] at opened
  cases read : LogSettings.ofTexts attempt.call.level attempt.call.directory with
  | error problem =>
      rw [read] at opened
      cases opened
  | ok requested =>
      rw [read] at opened
      cases started : attempt.start requested with
      | error reason =>
          simp only [started] at opened
          cases opened
      | ok =>
          simp only [started, Option.some.injEq] at opened
          rw [opened]

/-- The directory of settings in force is an absolute path. -/
def Rooted (active : Option LogSettings) : Prop :=
  ∀ settings, active = some settings → Path.isAbsolute settings.directory.toList = true

theorem Attempt.rooted_perform {active : Option LogSettings} (rooted : Rooted active)
    (attempt : Attempt) : Rooted (attempt.perform active).2 := by
  cases active with
  | some settings =>
      rw [perform_of_active]
      exact rooted
  | none =>
      intro settings opened
      exact LogSettings.isAbsolute_of_ofTexts (ofTexts_of_perform opened)

theorem rooted_statusAfter (attempts : List Attempt) : Rooted (statusAfter none attempts) :=
  List.foldlRecOn (motive := Rooted) attempts (fun active attempt => (attempt.perform active).2)
    nofun fun _ rooted attempt _ => attempt.rooted_perform rooted

theorem statusAfter_of_active (settings : LogSettings) (attempts : List Attempt) :
    statusAfter (some settings) attempts = some settings := by
  induction attempts with
  | nil => rfl
  | cons attempt rest ih =>
      rw [statusAfter, List.foldl_cons, attempt.perform_of_active]
      exact ih

/-- Once logging is active its settings never change, however often it is asked for and whatever the
texts are. A request is agreed to exactly if its word names the level in force and its path leads
where the directory in force leads, and otherwise it is told the first thing that is wrong: no level
has that name, there is no path, the path does not begin at the root, it leads elsewhere, the level
is another. So the answer to a request depends neither on what was asked since logging became
active, nor on what would come of opening a log now. -/
theorem active_logging_never_changes (earlier : List Attempt) (settings : LogSettings)
    (active : statusAfter none earlier = some settings) (later : List Attempt) :
    statusAfter none (earlier ++ later) = some settings ∧
      ∀ attempt : Attempt,
        let answer := (attempt.perform (statusAfter none (earlier ++ later))).1
        (∀ told, answer = told ↔ ∃ word path,
          LogSettings.Said attempt.call.level attempt.call.directory word path ∧
            settings.Answers word path told) ∧
        (answer = .ok () ↔ ∃ word path,
          LogSettings.Said attempt.call.level attempt.call.directory word path ∧
            settings.level.IsNamed word ∧
              Path.SameWay settings.directory.toList path.toList) ∧
        ∀ others start,
          (Attempt.perform (statusAfter none (earlier ++ others)) ⟨attempt.call, start⟩).1 =
            answer := by
  have stays : ∀ others, statusAfter none (earlier ++ others) = some settings := by
    intro others
    have joined : statusAfter none (earlier ++ others) =
        statusAfter (statusAfter none earlier) others := List.foldl_append
    rw [joined, active, statusAfter_of_active]
  have rooted := rooted_statusAfter earlier settings active
  refine ⟨stays later, fun attempt => ?_⟩
  intro answer
  have answered : LogSettings.ofTexts attempt.call.level attempt.call.directory >>=
      settings.agree = answer := by
    simp only [answer, stays, attempt.perform_of_active]
  have told_iff : ∀ told, answer = told ↔ ∃ word path,
      LogSettings.Said attempt.call.level attempt.call.directory word path ∧
        settings.Answers word path told := by
    intro told
    rw [← answered, ← LogSettings.answers_iff rooted]
    simp only [LogSettings.said_iff, and_assoc, exists_eq_left, exists_and_left]
  refine ⟨told_iff, ?_, ?_⟩
  · rw [told_iff]
    refine exists₂_congr fun word path => and_congr_right fun _ => ?_
    constructor
    · intro answers
      cases answers with
      | agreed named same => exact ⟨named, same⟩
    · exact fun ⟨named, same⟩ => .agreed named same
  · intro others start
    simp only [stays, Attempt.perform_of_active, answered]

/-- Logging was started for warnings. It is neither moved nor made to tell more, and a configuration
that asks for the same in other words is content with it, though the log could not be opened now. -/
theorem logging_stays_at_warnings :
    let first : Attempt := ⟨.ofTexts " WARNING\n" "/var//log/", fun _ => .ok ()⟩
    let second : Attempt := ⟨.ofTexts "debug" "/var/logs", fun _ => .ok ()⟩
    let third : Attempt := ⟨.ofConfig ⟨2000, 2000, "Warn"⟩ "/var/./log", fun _ => .error "full"⟩
    let settings : LogSettings := ⟨.warn, "/var//log/"⟩
    statusAfter none [first] = some settings ∧
      (second.perform (statusAfter none [first])).1 =
        .error (.otherDirectory "/var//log/" "/var/logs") ∧
      statusAfter none [first, second] = some settings ∧
      (third.perform (statusAfter none [first, second])).1 = .ok () := by
  intro first second third settings
  have word : LogSettings.wordOfText " WARNING\n" = "warning" := by decide +kernel
  have path : Text.trim "/var//log/" = "/var//log/" := by decide
  have named : LogLevel.warn.IsNamed (LogSettings.wordOfText " WARNING\n") := word ▸ .warning
  have rooted : Path.isAbsolute (Text.trim "/var//log/").toList = true := path ▸ rfl
  have read : LogSettings.ofTexts " WARNING\n" "/var//log/" = .ok settings := by
    rw [LogSettings.ofTexts_of_named named rooted, path]
  have opened : statusAfter none [first] = some settings := by
    show (request first.start none " WARNING\n" "/var//log/").2 = some settings
    rw [request, read]
  obtain ⟨-, atFirst⟩ := active_logging_never_changes [first] settings opened []
  obtain ⟨stays, later⟩ := active_logging_never_changes [first] settings opened [second]
  refine ⟨opened, ?_, stays, ?_⟩
  · have said : LogSettings.Said "debug" "/var/logs" "debug" "/var/logs" :=
      LogSettings.said_iff.2 ⟨by decide +kernel, by decide⟩
    have apart : ¬ Path.SameWay "/var//log/".toList "/var/logs".toList := by
      rw [Path.sameWay_iff]
      decide
    exact ((atFirst second).1 _).2 ⟨_, _, said, .otherDirectory (.own .debug) rfl apart⟩
  · have said : LogSettings.Said "Warn" "/var/./log" "warn" "/var/./log" :=
      LogSettings.said_iff.2 ⟨by decide +kernel, by decide⟩
    have same : Path.SameWay "/var//log/".toList "/var/./log".toList :=
      Path.sameWay_iff.2 (by decide)
    exact (later third).2.1.2 ⟨_, _, said, .own .warn, same⟩

end Logging

end Workbench
