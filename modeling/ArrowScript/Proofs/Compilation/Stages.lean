import ArrowScript.Compilation
import ArrowScript.Proofs.Parser.Reading
import ArrowScript.Proofs.Token.Layout

/-!
# The stages of a compilation

A compilation that is not stopped runs all stages on the tokens of its source. The tokens
of a source end with the mark of its end, and a source without tokens leaves the empty
program.
-/

namespace ArrowScript

/-! ## The tokens of a source -/

namespace Lexing

/-- Every token of a layout stands for a lexeme. -/
theorem Layout.denotes {offset : Nat} {text rest : List Char} {tokens : List Token}
    (layout : Layout offset text rest tokens) :
    ∀ token ∈ tokens, ∃ lexeme, Denotes token lexeme := by
  induction layout with
  | nil => nofun
  | gap _ _ _ inductionHypothesis => exact inductionHypothesis
  | lexeme _ _ denotes _ _ inductionHypothesis =>
      exact List.forall_mem_cons.mpr ⟨⟨_, denotes⟩, inductionHypothesis⟩

/-- A token that stands for a lexeme has a value of its kind. -/
theorem Denotes.lexed {token : Token} {lexeme : List Char} (denotes : Denotes token lexeme) :
    token.Lexed := by
  have recognized : ∀ terminal ∈ terminals, ∀ kind ∈ terminal.kind,
      kind ∈ TokenKind.recognized ∧ kind ≠ .endOfFile := by decide
  have known : token.kind ∈ TokenKind.recognized ∧ token.kind ≠ .endOfFile := by
    obtain ⟨terminal, among, kind, -⟩ := denotes.pattern
    exact recognized terminal among token.kind kind
  obtain ⟨kind, value, offset⟩ := token
  cases kind
  case trueKeyword | falseKeyword => exact denotes.value
  case endOfFile => exact absurd rfl known.2
  case unrecognized name => exact absurd known.1 (by simp [TokenKind.recognized])
  all_goals exact ⟨_, denotes.value⟩

end Lexing

variable {source : String} {tokens : List Token} {report : Diagnostic}

/-- The tokens of a source are a layout of it, with the mark of its end. -/
theorem tokenize_lexed (tokenized : tokenize source = .ok tokens) :
    ∃ lexed, tokens = lexed ++ [.atEnd source.length] ∧
      Lexing.Layout 0 source.toList [] lexed := by
  have outcome := Lexing.tokensFrom_outcome 0 source.toList
  rw [← tokenize, tokenized] at outcome
  obtain ⟨lexed, rfl, layout⟩ := outcome
  rw [Nat.zero_add, String.length_toList]
  exact ⟨lexed, rfl, layout⟩

/-- The tokens of a source are those of its lexemes, with the mark of its end. -/
theorem tokenize_denotes (tokenized : tokenize source = .ok tokens) :
    ∃ lexed, tokens = lexed ++ [.atEnd source.length] ∧
      ∀ token ∈ lexed, ∃ lexeme, Lexing.Denotes token lexeme := by
  obtain ⟨lexed, rfl, layout⟩ := tokenize_lexed tokenized
  exact ⟨lexed, rfl, layout.denotes⟩

/-- The tokens of a source stand inside it, and only the mark of its end stands at its end. -/
theorem tokenize_within (tokenized : tokenize source = .ok tokens) :
    ∃ lexed, tokens = lexed ++ [.atEnd source.length] ∧
      ∀ token ∈ lexed, 0 ≤ token.offset ∧ token.offset < (source.length : Int) := by
  obtain ⟨lexed, rfl, layout⟩ := tokenize_lexed tokenized
  refine ⟨lexed, rfl, ?_⟩
  intro token among
  obtain ⟨least, most⟩ := layout.offset_bounds token among
  rw [String.length_toList] at most
  omega

/-- The tokens of a source stand one behind the other. -/
theorem tokenize_increasing (tokenized : tokenize source = .ok tokens) :
    tokens.Pairwise (·.offset < ·.offset) := by
  obtain ⟨lexed, rfl, layout⟩ := tokenize_lexed tokenized
  apply List.pairwise_append.mpr
  refine ⟨layout.increasing, List.pairwise_singleton _ _, ?_⟩
  intro token among mark isMark
  obtain ⟨_, most⟩ := layout.offset_bounds token among
  have last : (Token.atEnd source.length).offset = source.length := rfl
  rw [String.length_toList] at most
  rw [List.mem_singleton.mp isMark, last]
  omega

/-- The last token marks the end of the source. -/
theorem getLast?_tokens (tokenized : tokenize source = .ok tokens) :
    tokens.getLast? = some (.atEnd source.length) := by
  obtain ⟨lexed, rfl, -⟩ := tokenize_denotes tokenized
  exact List.getLast?_concat

/-- The tokens of a source are a stream. -/
theorem tokenize_marked (tokenized : tokenize source = .ok tokens) : Marked tokens := by
  obtain ⟨lexed, rfl, denotes⟩ := tokenize_denotes tokenized
  refine .append (fun token among => ?_) _
  obtain ⟨_, denotes⟩ := denotes token among
  exact denotes.lexed

/-- A source that is not made of tokens is reported for a character. -/
theorem tokenize_report (failed : tokenize source = .error report) :
    report.code = .unexpectedCharacter := by
  have outcome := Lexing.tokensFrom_outcome 0 source.toList
  rw [← tokenize, failed] at outcome
  obtain ⟨_, _, _, _, _, rfl, _⟩ := outcome
  rfl

/-! ## Compilations -/

/-- What the stages behind the lexer make of tokens: the typed tree, and the diagnostics of
the parser, the validation, the name resolution and the inference. -/
def checkTokens (tokens : List Token) : Program × List Diagnostic :=
  let parsed := parseProgram tokens
  let resolved := parsed.1.resolve
  let typed := resolved.program.infer
  (typed.1, parsed.2 ++ (parsed.1.validate ++ resolved.diagnostics ++ typed.2))

/-- A compilation of tokens always has a result. -/
theorem compile_ok (tokenized : tokenize source = .ok tokens) :
    (compile source).result = .ok
      { program := some (checkTokens tokens).1, diagnostics := (checkTokens tokens).2 } := by
  unfold compile
  rw [tokenized]
  rfl

/-- A compilation of a source without tokens has a result, which is the empty program. -/
theorem compile_error (failed : tokenize source = .error report) :
    (compile source).result =
      .ok { program := some { body := [] }, diagnostics := [report] } := by
  unfold compile
  rw [failed]
  rfl

/-- The typed tree of a source made of tokens. -/
theorem typecheck_ok (tokenized : tokenize source = .ok tokens) :
    typecheck source = checkTokens tokens := by
  unfold typecheck
  rw [compile_ok tokenized]

/-- The typed tree of a source that is not made of tokens. -/
theorem typecheck_error (failed : tokenize source = .error report) :
    typecheck source = ({ body := [] }, [report]) := by
  unfold typecheck
  rw [compile_error failed]

end ArrowScript
