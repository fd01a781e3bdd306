import ArrowScript.Proofs.Compilation.Rules
import ArrowScript.Proofs.Inference.Reachability
import ArrowScript.Proofs.Problems.Naming
import ArrowScript.Proofs.Problems.Parsing
import ArrowScript.Proofs.Problems.Typing

/-!
# Every source is compiled

No failure leaves a compilation. Errors of syntax are the only ones that are thrown, and the
loop over the statements records all of them; the analyses have a rule for every node
that the parser builds; and every message finds its details.

A source that is not made of tokens is continued with as the empty program. For any other
source the diagnostics are those of the stages in their order, each with codes of its own.

The bounds that make the parser and the inference total functions take no part in this. The
tokens are read up to the mark of their end without reaching a bound, and wherever the
inference stands between two statements, every walk through a type comes to its end.
-/

namespace ArrowScript

variable {source : String} {tokens : List Token}

/-- The parser reads the tokens of a source up to the mark of their end, and returns a program. -/
theorem program_ends (tokenized : tokenize source = .ok tokens) :
    ∃ program after, Parser.program.runAt (.start tokens) = (.ok program, after) ∧
      after.rest = [.atEnd source.length] ∧ parseProgram tokens = (program, after.diagnostics) := by
  have marked := tokenize_marked tokenized
  have final := getLast?_tokens tokenized
  have begins := Cursor.start_ended final rfl
  have ended : Sealed (Cursor.start tokens).rest := by
    rw [begins]
    exact ⟨_, List.mem_of_getLast? final, rfl⟩
  obtain ⟨trees, after, mark, left, ran, last, kind⟩ := Parser.topLevel_ends ended
  have program : Parser.program.runAt (.start tokens) = (.ok { body := trees }, after) :=
    Parser.runAt_bind_ok ran _
  have onward := Parser.program_reads.onward (.start tokens)
  rw [program, begins] at onward
  -- Behind the first mark of the end there is nothing.
  have nothing : left = [] := by
    have stream := onward.marked marked
    rw [last] at stream
    cases stream with
    | mark => rfl
    | lexeme lexed => exact absurd kind lexed.kind_ne
  obtain ⟨skipped, cut, -⟩ := onward.passed
  rw [last, nothing] at cut
  have same : mark = .atEnd source.length := by
    have tail : tokens = skipped ++ [mark] := cut
    rw [tail, List.getLast?_concat] at final
    exact Option.some.inj final
  exact ⟨_, after, program, by rw [last, nothing, same], parseProgram_eq ran⟩

/-- What the stages behind the lexer do with the tokens of a source. -/
structure Staged (source : String) (tokens : List Token) : Prop where
  /-- The parser throws no error, and reads the tokens up to the mark of their end. -/
  parsed : ∃ program after, Parser.program.runAt (.start tokens) = (.ok program, after) ∧
    after.rest = [.atEnd source.length] ∧ parseProgram tokens = (program, after.diagnostics)
  /-- No bound of the parser is reached on the way. -/
  unbounded : Parser.Unbounded tokens.length
  /-- The name resolution and the inference have a rule for every node. -/
  ruled : Ruled (parseProgram tokens).1.body ∧ Ruled (parseProgram tokens).1.resolve.program.body
  /-- The types that are made up to the end of any statement can be walked through. -/
  traversable : ∀ count, let body := (parseProgram tokens).1.resolve.program.body
    let reached := ((Inferrer.inferStatements (body.take count)).run {}).2
    reached.store.Acyclic ∧
      ∀ type : Ty, type.Over reached.store.cells.size → Traversable reached type
  /-- The diagnostics are those of the stages, in their order. -/
  ordered : (typecheck source).2 =
    (parseProgram tokens).2 ++ (parseProgram tokens).1.validate ++
      (parseProgram tokens).1.resolve.diagnostics ++
      (parseProgram tokens).1.resolve.program.infer.2
  syntactic : Coded ErrorCode.syntactic (parseProgram tokens).2
  structural : Coded ErrorCode.structural (parseProgram tokens).1.validate
  naming : Coded ErrorCode.naming (parseProgram tokens).1.resolve.diagnostics
  typing : Coded ErrorCode.typing (parseProgram tokens).1.resolve.program.infer.2
  /-- No operator is reported, and no character. -/
  excluded : ∀ diagnostic ∈ (typecheck source).2,
    diagnostic.code ≠ .unsupportedOperator ∧ diagnostic.code ≠ .unexpectedCharacter

/-- How the compilation of a source ends. -/
structure Completes (source : String) : Prop where
  /-- The compilation has a result: no failure leaves it. -/
  returns : ∃ program diagnostics,
    (compile source).result = .ok { program := some program, diagnostics } ∧
      typecheck source = (program, diagnostics)
  /-- The details of every diagnostic fill the template of its message. -/
  worded : ∀ diagnostic ∈ (typecheck source).2,
    fill diagnostic.problem.details diagnostic.code.template = .ok diagnostic.message
  /-- A character at which no token begins is the only diagnostic, and the program is empty. -/
  untokenized : ∀ report, tokenize source = .error report →
    report.code = .unexpectedCharacter ∧ typecheck source = ({ body := [] }, [report])
  tokenized : ∀ tokens, tokenize source = .ok tokens → Staged source tokens

/-- The problems that the stages behind the lexer report on the tokens of a source. -/
def ErrorCode.later : List ErrorCode := syntactic ++ structural ++ naming ++ typing

/-- The inference leaves a well-formed state. -/
theorem Inferrer.inferStatements_wellFormed (statements : List Statement) :
    ((inferStatements statements).run {}).2.WellFormed := by
  obtain ⟨_, _, _, ran, -, walked⟩ :=
    inferStatements_walked statements {} Inference.wellFormed_empty
  rw [ran]
  exact walked.wellFormed Inference.wellFormed_empty

/-- Every stage does its part on the tokens of a source. -/
theorem staged (tokenized : tokenize source = .ok tokens) : Staged source tokens := by
  obtain ⟨additive, syntactic⟩ := parseProgram_yields tokenized
  have structural := Statement.validateAll_coded (parseProgram tokens).1.body
  have naming := (parseProgram tokens).1.resolve_coded
  have typing := Program.infer_coded (Program.resolve_additive additive)
  have ordered : (typecheck source).2 = (parseProgram tokens).2 ++
      (parseProgram tokens).1.validate ++ (parseProgram tokens).1.resolve.diagnostics ++
      (parseProgram tokens).1.resolve.program.infer.2 := by
    rw [typecheck_ok tokenized, checkTokens]
    simp only [List.append_assoc]
  have coded : Coded ErrorCode.later (typecheck source).2 := by
    rw [ordered]
    exact (((syntactic.mono (by decide)).append (structural.mono (by decide))).append
      (naming.mono (by decide))).append (typing.mono (by decide))
  have excluded : ∀ code ∈ ErrorCode.later,
      code ≠ .unsupportedOperator ∧ code ≠ .unexpectedCharacter := by decide
  exact
    { parsed := program_ends tokenized
      unbounded := Parser.unbounded _
      ruled := ⟨ruled _, ruled _⟩
      traversable := fun count =>
        have wellFormed := Inferrer.inferStatements_wellFormed _
        ⟨wellFormed.sound.acyclic, fun _ covered => wellFormed.traversable covered⟩
      ordered, syntactic, structural, naming, typing
      excluded := fun diagnostic member => excluded _ (coded diagnostic member) }

/-- Every source is compiled. -/
theorem typecheck_completes (source : String) : Completes source where
  returns := by
    cases tokenized : tokenize source with
    | ok tokens => exact ⟨_, _, compile_ok tokenized, typecheck_ok tokenized⟩
    | error report => exact ⟨_, _, compile_error tokenized, typecheck_error tokenized⟩
  worded diagnostic _ := diagnostic.problem.message_fills
  untokenized _ failed := ⟨tokenize_report failed, typecheck_error failed⟩
  tokenized _ tokenized := staged tokenized

end ArrowScript
