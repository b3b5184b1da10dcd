/-
  What is written to start from, and what a check finds in it.

  A file that was just written is read as it was written (`readText_writeText`), and its text is read as
  the configuration that was rendered, unless the check refuses that (`parse_of_render`).  In a
  configuration to start from everything is in order but perhaps the url, which is written as it is
  given and must not be blank when it is read (`validate_scaffold`).  So the file is accepted if and only
  if the url is not blank.
-/
import ConnPool.CommandLine
import ConnPool.Proofs.Config.RoundTrip
import ConnPool.Proofs.FileTree

namespace ConnPool

/-! ## A configuration to start from -/

namespace Config

variable (driver url : String)

/-- Nothing can be wrong with a configuration to start from but its url. -/
theorem validate_scaffold : (scaffold driver url).validate =
    if Text.isBlankText url then .error (.invalid .emptyUrl) else .ok () := by
  cases hblank : Text.isBlankText url with
  | true =>
    have hurl : Text.isBlankText (scaffold driver url).source.url = true := hblank
    rw [validate, if_pos hurl]
    rfl
  | false =>
    have hurl : ¬ Text.isBlankText (scaffold driver url).source.url = true := by
      show ¬ Text.isBlankText url = true
      rw [hblank]
      exact Bool.false_ne_true
    rw [validate, if_neg hurl]
    rfl

/-- A configuration to start from has the limits of a pool for which nothing is set. -/
theorem ofConfig_scaffold : Resolved.ofConfig (scaffold driver url) =
    .ok { source := { driver, url, autoCommit := some false }, pool := .standard } :=
  rfl

end Config

namespace Commands

open Config (bind_ok)

/-- A new file has the text of a configuration to start from. -/
theorem readText_init {s s' : FileSystem} {folder url : String} (h : init s folder url = .ok s') :
    ∃ text, (Config.scaffold "memory" url).render = .ok text ∧
      s'.readText (join folder fileName) = .ok text := by
  -- a file is written when none is there, the configuration can be rendered and the folder is there
  unfold init scaffoldText at h
  dsimp only at h
  split at h
  case isTrue => exact nomatch h
  case isFalse =>
    split at h
    case h_1 => exact nomatch h
    case h_2 text hrender =>
      split at h
      case h_1 => exact nomatch h
      case h_2 written hwrite =>
        cases h
        exact ⟨text, hrender, FileSystem.readText_writeText hwrite⟩

/-- What is found in a new file: the configuration that was written, if its url is not blank. -/
theorem ofFile_init {s s' : FileSystem} {folder url : String} (h : init s folder url = .ok s') :
    Config.ofFile (s'.readText (join folder fileName)) =
      if Text.isBlankText url then .error (.invalid .emptyUrl) else .ok (.scaffold "memory" url) := by
  obtain ⟨text, hrender, hread⟩ := readText_init h
  rw [hread]
  show Config.parse text = _
  rw [Config.parse_of_render hrender, Config.validate_scaffold]
  split <;> rfl

/-- What a check of a new file comes to. -/
theorem check_init {s s' : FileSystem} {folder url : String} (h : init s folder url = .ok s')
    (path format : String) : check (s'.readText (join folder fileName)) path format =
      if Text.isBlankText url then .error (.config (.invalid .emptyUrl))
      else .ok (Resolved.output
        { source := { driver := "memory", url, autoCommit := some false }, pool := .standard }
        path format) := by
  unfold check
  rw [ofFile_init h]
  cases Text.isBlankText url with
  | true => rfl
  | false =>
    rw [if_neg Bool.false_ne_true, if_neg Bool.false_ne_true]
    dsimp only [bind, Except.bind]
    rw [Config.ofConfig_scaffold]

end Commands

/-! ## On the command line -/

namespace CommandLine

/-- An argument that begins with two dashes and has its value behind an equals sign. -/
theorem shapeOf_dashes {arg : String} {rest value : List Char} (harg : arg.toList = '-' :: '-' :: rest)
    (hvalue : rest.dropWhile (· ≠ '=') = '=' :: value) :
    shapeOf arg = .long (String.ofList (rest.takeWhile (· ≠ '='))) (some (String.ofList value)) := by
  cases rest with
  | nil => exact nomatch hvalue
  | cons c rest =>
    simp only [shapeOf, harg, hvalue]

/-- A long option with its value attached. -/
theorem shapeOf_attached (option name value : String)
    (hoption : option.toList = '-' :: '-' :: (name.toList ++ ['=']))
    (hname : '=' ∉ name.toList) : shapeOf (option ++ value) = .long name (some value) := by
  have harg : (option ++ value).toList = '-' :: '-' :: (name.toList ++ '=' :: value.toList) := by
    rw [String.toList_append, hoption]
    simp
  have hall : ∀ c ∈ name.toList, decide (c ≠ '=') = true := fun c hc =>
    decide_eq_true fun he => hname (he ▸ hc)
  have htake : (name.toList ++ '=' :: value.toList).takeWhile (· ≠ '=') = name.toList := by
    rw [List.takeWhile_append_of_pos hall]
    exact List.append_nil _
  have hdrop : (name.toList ++ '=' :: value.toList).dropWhile (· ≠ '=') = '=' :: value.toList := by
    rw [List.dropWhile_append_of_pos hall]
    rfl
  rw [shapeOf_dashes harg hdrop, htake, String.ofList_toList, String.ofList_toList]

/-- An option with a value is no question. -/
theorem question_attached (helpText versionText name value : String) :
    question helpText versionText (.long name (some value)) = none := by
  unfold question
  split <;> simp_all

/-- An option that is given is noted, and then the other arguments are read. -/
theorem readOptions_attached {s : CommandSpec} {arg name value : String} {rest : List String}
    {given given' : Values} {o : CommandOption} (hshape : shapeOf arg = .long name (some value))
    (hoption : s.options.find? (fun o => o.long = name) = some o)
    (hgive : give o value given = some given') :
    readOptions s (arg :: rest) given = readOptions s rest given' := by
  have hoptionOf : optionOf s (.long name (some value)) = some (o, some value) := by
    rw [optionOf, hoption]
    rfl
  rw [readOptions, hshape, question_attached]
  dsimp only
  rw [hoptionOf]
  dsimp only
  rw [hgive]

/-- The name of a command, with options that can be read. -/
theorem read_command {s : CommandSpec} {args : List String} {given : Values}
    (hquestion : question help (program ++ " " ++ version ++ "\n") (shapeOf s.name) = none)
    (hhelp : s.name ≠ "help") (hspec : specs.find? (fun t => t.name = s.name) = some s)
    (hoptions : readOptions s args [] = .values given) : read (s.name :: args) = request s given := by
  rw [read, hquestion]
  dsimp only
  rw [if_neg hhelp, hspec]
  dsimp only
  rw [hoptions]

theorem read_init (folder url : String) :
    read ["init", "--path=" ++ folder, "--url=" ++ url] = .init folder url := by
  have hpath := shapeOf_attached "--path=" "path" folder rfl (by decide +kernel)
  have hurl := shapeOf_attached "--url=" "url" url rfl (by decide +kernel)
  have hoptions : readOptions initSpec ["--path=" ++ folder, "--url=" ++ url] [] =
      .values [("path", folder), ("url", url)] := by
    rw [readOptions_attached hpath rfl rfl, readOptions_attached hurl rfl rfl]
    rfl
  exact read_command rfl (by decide) rfl hoptions

theorem read_check (config format : String) :
    read ["check", "--config=" ++ config, "--format=" ++ format] = .check config format := by
  have hconfig := shapeOf_attached "--config=" "config" config rfl (by decide +kernel)
  have hformat := shapeOf_attached "--format=" "format" format rfl (by decide +kernel)
  have hoptions : readOptions checkSpec ["--config=" ++ config, "--format=" ++ format] [] =
      .values [("config", config), ("format", format)] := by
    rw [readOptions_attached hconfig rfl rfl, readOptions_attached hformat rfl rfl]
    rfl
  exact read_command rfl (by decide) rfl hoptions

/-- A new file is written by a run that succeeds. -/
theorem run_init {s s' : FileSystem} {folder url : String} (h : Commands.init s folder url = .ok s') :
    run s ["init", "--path=" ++ folder, "--url=" ++ url] =
      ({ code := 0, stdout := Commands.initOutput folder }, s') := by
  unfold run
  rw [read_init]
  dsimp only
  rw [h]
  rfl

/-- What a run that checks a new file comes to. -/
theorem code_run_check {s s' : FileSystem} {folder url : String}
    (h : Commands.init s folder url = .ok s') (format : String) :
    (run s' ["check", "--config=" ++ Commands.join folder Commands.fileName,
      "--format=" ++ format]).1.code = if Text.isBlankText url then 1 else 0 := by
  unfold run
  rw [read_check]
  dsimp only
  rw [Commands.check_init h]
  split <;> rfl

end CommandLine

namespace Commands

/-- **A new file is accepted if and only if its url is not blank.**  In every file system, whatever is
written to start from for an url is read as the configuration to start from for that url, with the driver
in memory, just when the url is not blank; the check of a blank url finds that it must not be empty.  On
the command line the run that writes the file succeeds, and so does a check of the file, in any format,
just when the url is not blank. -/
theorem new_file_accepted_iff {s s' : FileSystem} {folder url : String}
    (h : init s folder url = .ok s') (format : String) :
    let path := join folder fileName
    (Config.ofFile (s'.readText path) = .ok (.scaffold "memory" url) ↔ ¬ Text.Blanks url.toList) ∧
    (Text.Blanks url.toList →
      Config.ofFile (s'.readText path) = .error (.invalid .emptyUrl)) ∧
    CommandLine.run s ["init", "--path=" ++ folder, "--url=" ++ url] =
      ({ code := 0, stdout := initOutput folder }, s') ∧
    ((CommandLine.run s' ["check", "--config=" ++ path, "--format=" ++ format]).1.code = 0 ↔
      ¬ Text.Blanks url.toList) := by
  intro path
  rw [ofFile_init h, CommandLine.run_init h, CommandLine.code_run_check h, ← Text.isBlankText_iff]
  cases Text.isBlankText url <;> simp

theorem exists_of_toBool {x : Except ε α} (h : x.toBool = true) : ∃ a, x = .ok a := by
  cases x with
  | error e => exact nomatch h
  | ok a => exact ⟨a, rfl⟩

/-- Two folders, and paths start in the first. -/
def twoFolders : FileSystem where
  root := .folder [("a", .folder []), ("b", .folder [])]
  working := ["a"]

/-- An url with quotes of both kinds, a backslash, a line end and a tab. -/
def crooked : String := "it's \"one\"\\\n'''\t"

theorem new_file_accepted_crooked :
    ∃ s', init twoFolders "../b" crooked = .ok s' ∧
      Config.ofFile (s'.readText "../b/reservoir.toml") = .ok (.scaffold "memory" crooked) := by
  have hok : (init twoFolders "../b" crooked).toBool = true := by
    decide +kernel
  obtain ⟨s', h⟩ := exists_of_toBool hok
  have hblank : ¬ Text.Blanks crooked.toList := by
    rw [← Text.isBlankText_iff]
    decide +kernel
  have hpath : join "../b" fileName = "../b/reservoir.toml" := by
    decide +kernel
  exact ⟨s', h, hpath ▸ (new_file_accepted_iff h "text").1.2 hblank⟩

/-- A file that is refused as soon as it is written. -/
theorem new_file_refused :
    ∃ s', init ⟨.empty, []⟩ "." "" = .ok s' ∧
      Config.ofFile (s'.readText "./reservoir.toml") = .error (.invalid .emptyUrl) := by
  have hok : (init ⟨.empty, []⟩ "." "").toBool = true := by
    decide +kernel
  obtain ⟨s', h⟩ := exists_of_toBool hok
  have hpath : join "." fileName = "./reservoir.toml" := by
    decide +kernel
  exact ⟨s', h, hpath ▸ ofFile_init h⟩

end Commands

end ConnPool
