import CanonicalLR.CommandLine.Run
import CanonicalLR.Proofs.Table.Verdict

/-!
Contract: commands that fail before they have anything to put out.

Owns:
- what can be wrong with a grammar file for the command that works on it;
- that such a command does nothing after it has read the file;
- that it leaves a directory as it is.

Does not own: failures to write what was made.
-/

namespace CanonicalLR

namespace Command

/-- What reading the grammar file came to is of no use to the command: there is no text, the text
is no grammar, or the table that the command is about is refused. -/
inductive Fails (command : Command) : Except FileError String → Prop where
  | unreadable (cause : FileError) : command.Fails (.error cause)
  | malformed {source : String} {cause : SyntaxError}
      (parsing : Grammar.parse command.endMarker source = .error cause) :
      command.Fails (.ok source)
  | refused {source : String} {grammar : Grammar} {cause : GenerationError}
      (tabulates : command.subcommand ≠ .sets)
      (parsing : Grammar.parse command.endMarker source = .ok grammar)
      (generation : ParseTable.generate command.policy grammar = .error cause) :
      command.Fails (.ok source)

variable {command : Command}

/-- There is a message in place of a product exactly when the command fails. -/
theorem product_eq_error_iff {source : String} :
    (∃ message, command.product (command.progress source) = .error message) ↔
      command.Fails (.ok source) := by
  constructor
  · rintro ⟨message, failed⟩
    cases parsing : Grammar.parse command.endMarker source with
    | error cause => exact .malformed parsing
    | ok grammar =>
        by_cases isSets : command.subcommand = .sets
        case pos => simp [progress, product, parsing, isSets] at failed
        case neg =>
          cases generation : ParseTable.generate command.policy grammar with
          | error cause => exact .refused isSets parsing generation
          | ok table => simp [progress, product, parsing, isSets, generation] at failed
  · intro fails
    cases fails with
    | malformed parsing => exact ⟨_, by rw [progress, parsing, product]⟩
    | refused tabulates parsing generation =>
        rw [progress, parsing]
        simp only [if_neg tabulates, generation]
        exact ⟨_, rfl⟩

variable {System : Type} {access : FileAccess (StateM System)} {outcome : Except FileError String}
  {system after : System}

/-- Whatever the files are kept in, all that a failing command does to them is to read one. -/
theorem run_execute_of_fails (verbosity : Verbosity)
    (reading : (access.readText command.grammarFile).run system = (outcome, after))
    (fails : command.Fails outcome) :
    ∃ stderr, (command.execute access verbosity).run system = (⟨1, "", stderr⟩, after) := by
  change (access.readText command.grammarFile).run system = pure (outcome, after) at reading
  unfold execute
  rw [StateT.run_bind, reading, pure_bind]
  cases outcome with
  | error cause => exact ⟨_, rfl⟩
  | ok source =>
      obtain ⟨message, failed⟩ := product_eq_error_iff.2 fails
      simp only [failed]
      exact ⟨_, rfl⟩

/-- The complaints about the setting of the log, which come first, are no output either. -/
theorem run_report_of_fails (setting : LogSetting) (usage : String)
    (reading : (access.readText command.grammarFile).run system = (outcome, after))
    (fails : command.Fails outcome) :
    ∃ stderr, ((Request.run command).report access setting usage).run system =
      (⟨1, "", stderr⟩, after) := by
  obtain ⟨stderr, failed⟩ := command.run_execute_of_fails setting.verbosity reading fails
  change (command.execute access setting.verbosity).run system = pure (_, after) at failed
  refine ⟨setting.notice ++ stderr, ?_⟩
  simp only [Request.report]
  rw [StateT.run_bind, failed, pure_bind]
  rfl

end Command

/-- A command that fails before it has a product ends with exit status 1 and an empty standard
output, and the directory is the one before: no file is added, and all keep their bytes. On files
of any other kind, too, the command does nothing but read its grammar file. -/
theorem untouched_of_failure (command : Command) (setting : LogSetting) (usage : String) :
    (∀ directory : Directory, command.Fails (directory.readText command.grammarFile) →
      ∃ stderr, ((Request.run command).report Directory.access setting usage).run directory =
        (⟨1, "", stderr⟩, directory)) ∧
      ∀ (System : Type) (access : FileAccess (StateM System)) (outcome : Except FileError String)
        (system after : System),
        (access.readText command.grammarFile).run system = (outcome, after) →
        command.Fails outcome →
        ∃ stderr, ((Request.run command).report access setting usage).run system =
          (⟨1, "", stderr⟩, after) := by
  constructor
  · intro directory fails
    have reading : (Directory.access.readText command.grammarFile).run directory =
        (directory.readText command.grammarFile, directory) := rfl
    exact command.run_report_of_fails setting usage reading fails
  · intro System access outcome system after reading fails
    exact command.run_report_of_fails setting usage reading fails

/-- A graph that would replace its own grammar, in which a nonterminal has no production; and the
same where the grammar may not be read. -/
theorem untouched_of_failure_own_grammar :
    ∃ directory : Directory, directory.readText "g" = .ok "<S> : <T> ;" ∧
      Request.ofArguments ["graph", "g", "-o", "g"] =
        .run ⟨.graph, "g", "eof", .fail, some "g"⟩ ∧
      (∃ stderr, ((Request.ofArguments ["graph", "g", "-o", "g"]).report Directory.access
        (.ofText "") "").run directory = (⟨1, "", stderr⟩, directory)) ∧
      ∃ stderr, ((Request.ofArguments ["graph", "g", "-o", "g"]).report
        { Directory.access with
          readText := fun _ => return .error (.system 13 "Permission denied") }
        (.ofText "") "").run directory = (⟨1, "", stderr⟩, directory) := by
  let directory : Directory := ⟨(∅ : NameMap ByteArray).insert "g" "<S> : <T> ;".toUTF8⟩
  let grammar : Grammar := .ofProductions "eof" [⟨"S", [.nonterminal "T"], true⟩]
  have content : directory.readText "g" = .ok "<S> : <T> ;" := rfl
  have accepted : Request.ofArguments ["graph", "g", "-o", "g"] =
      .run ⟨.graph, "g", "eof", .fail, some "g"⟩ := by
    decide +kernel
  have parsing : Grammar.parse "eof" "<S> : <T> ;" = .ok grammar := by decide +kernel
  have generation : ParseTable.generate .fail grammar =
      .error (.undefinedNonterminal "T" "S") :=
    ParseTable.generateWith_of_failed (by decide +kernel)
  obtain ⟨inDirectory, anywhere⟩ :=
    untouched_of_failure ⟨.graph, "g", "eof", .fail, some "g"⟩ (.ofText "") ""
  refine ⟨directory, content, accepted, ?_⟩
  rw [accepted]
  refine ⟨inDirectory directory ?_,
    anywhere Directory _ _ directory directory rfl (.unreadable _)⟩
  rw [content]
  exact .refused (by decide) parsing generation

end CanonicalLR
