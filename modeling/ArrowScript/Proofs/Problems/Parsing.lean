import ArrowScript.Proofs.Compilation.Stages
import ArrowScript.Proofs.Parser.Composition
import ArrowScript.Proofs.Problems.Codes

/-!
# What parsers leave

The diagnostics of the parser are those of syntax, wherever it fails and however it goes on.
The operators of its trees are spelled as the tokens are, and the only operator of the grammar
is the plus sign, so the trees of a source are additive.

Both are carried by the cursor: the tokens ahead are spelled as they should be, and the
diagnostics so far are those of syntax. There is one rule for each way of putting parsers
together, and each parser follows from its parts.
-/

namespace ArrowScript

/-- A token that is a plus sign has the text of one. -/
def Token.Spelled (token : Token) : Prop := token.kind = .plus → token.text = "+"

/-- A cursor before tokens that are spelled as they should be, with diagnostics of syntax. -/
structure Cursor.Proper (cursor : Cursor) : Prop where
  spelled : ∀ token ∈ cursor.rest, token.Spelled
  last : cursor.last.Spelled
  coded : Coded ErrorCode.syntactic cursor.diagnostics

/-- The cursor stays proper when tokens ahead of it are passed. -/
theorem Cursor.Proper.onward {cursor : Cursor} (proper : cursor.Proper) {rest : List Token}
    (fewer : rest ⊆ cursor.rest) : { cursor with rest }.Proper :=
  ⟨fun token member => proper.spelled token (fewer member), proper.last, proper.coded⟩

/-- A token ahead is spelled as it should be, also beyond the end. -/
theorem Cursor.Proper.ahead {cursor : Cursor} (proper : cursor.Proper) (distance : Nat) :
    (cursor.ahead distance).Spelled := by
  rw [Cursor.ahead]
  cases found : cursor.rest[distance]? with
  | none => exact proper.last
  | some token => exact proper.spelled token (List.mem_of_getElem? found)

namespace Parser

variable {α β : Type}

/-- What comes of a parser: a result of the given kind, or a problem of syntax. -/
def Arises (Holds : α → Prop) : Except Diagnostic α → Prop
  | .ok result => Holds result
  | .error diagnostic => diagnostic.code ∈ ErrorCode.syntactic

/-- From a proper cursor the parser comes to a proper one, with a result of the given kind or a
problem of syntax. -/
def Yields (parser : Parser α) (Holds : α → Prop) : Prop :=
  ∀ cursor : Cursor, cursor.Proper →
    Arises Holds (parser.runAt cursor).1 ∧ (parser.runAt cursor).2.Proper

variable {parser other : Parser α} {next : α → Parser β} {First Holds : α → Prop}
  {Second : β → Prop}

/-- A step over the next token answers with it. -/
theorem runAt_advance_ahead (cursor : Cursor) :
    ∃ after, advance.runAt cursor = (.ok (cursor.ahead 0), after) := by
  have looked : Parser.runAt (peek 0) cursor = (.ok (cursor.ahead 0), cursor) := rfl
  unfold advance
  rw [runAt_bind_ok looked]
  split
  · exact ⟨_, rfl⟩
  · exact ⟨_, rfl⟩

namespace Yields

/-- A result. -/
theorem pure {result : α} (holds : Holds result) : Yields (pure result) Holds :=
  fun _ proper => ⟨holds, proper⟩

/-- A failure. -/
theorem throw {diagnostic : Diagnostic} (coded : diagnostic.code ∈ ErrorCode.syntactic) :
    Yields (throw diagnostic : Parser α) Holds := fun _ proper => ⟨coded, proper⟩

/-- Less may be asked of the result. -/
theorem mono (yields : Yields parser First) (holds : ∀ result, First result → Holds result) :
    Yields parser Holds := by
  intro cursor proper
  have arisen := yields cursor proper
  rcases ran : parser.runAt cursor with ⟨diagnostic | result, after⟩
  · rw [ran] at arisen
    exact arisen
  · rw [ran] at arisen
    exact ⟨holds result arisen.1, arisen.2⟩

/-- A sequence. -/
theorem bind (first : Yields parser First)
    (second : ∀ result, First result → Yields (next result) Second) :
    Yields (parser >>= next) Second := by
  intro cursor proper
  have arisen := first cursor proper
  rcases ran : parser.runAt cursor with ⟨diagnostic | result, after⟩
  · rw [ran] at arisen
    rw [runAt_bind_error ran]
    exact arisen
  · rw [ran] at arisen
    rw [runAt_bind_ok ran]
    exact second result arisen.1 after arisen.2

/-- A choice. -/
theorem ite {condition : Prop} [Decidable condition] (positive : Yields parser Holds)
    (negative : Yields other Holds) : Yields (if condition then parser else other) Holds := by
  split
  · exact positive
  · exact negative

/-- A result that is put into another form. -/
theorem map {form : α → β} (yields : Yields parser First)
    (holds : ∀ result, First result → Second (form result)) : Yields (form <$> parser) Second :=
  .bind yields fun result first => .pure (holds result first)

/-- A rule with a bound, which counts the tokens ahead. -/
theorem bounded {rule : Nat → Parser α} (yields : ∀ steps, Yields (rule steps) Holds) :
    Yields (bounded rule) Holds :=
  fun cursor => yields _ cursor

/-- A look at a token. -/
theorem peek (distance : Nat) : Yields (peek distance) Token.Spelled :=
  fun _ proper => ⟨proper.ahead distance, proper⟩

/-- A step over the next token. -/
theorem advance : Yields advance Token.Spelled := by
  refine .bind (peek 0) fun token spelled => ?_
  split
  · exact fun cursor proper => ⟨spelled, proper.onward (List.tail_subset _)⟩
  · exact .pure spelled

/-- A look at the kind of the next token. -/
theorem check (kinds : List TokenKind) : Yields (check kinds) fun _ => True :=
  .bind (peek 0) fun _ _ => .pure trivial

/-- A token that may come next. -/
theorem matched (kinds : List TokenKind) :
    Yields (match? kinds) fun found => ∀ token ∈ found, token.kind ∈ kinds ∧ token.Spelled := by
  intro cursor proper
  have looked : Parser.runAt (Parser.check kinds) cursor =
      (.ok (kinds.contains (cursor.ahead 0).kind), cursor) := rfl
  unfold match?
  rw [runAt_bind_ok looked]
  split
  next among =>
    have step := advance cursor proper
    obtain ⟨after, taken⟩ := runAt_advance_ahead cursor
    rw [taken] at step
    rw [runAt_bind_ok taken]
    refine ⟨?_, step.2⟩
    rintro token ⟨⟩
    exact ⟨List.contains_iff_mem.mp among, step.1⟩
  next => exact ⟨nofun, proper⟩

/-- A token that is passed if it comes next. -/
theorem accept (kind : TokenKind) : Yields (accept kind) fun _ => True :=
  .bind (matched _) fun _ _ => .pure trivial

/-- A failure at the next token. -/
theorem unexpected (words : String) : Yields (unexpected words : Parser α) Holds :=
  .bind (peek 0) fun _ _ => .throw (List.mem_cons_self ..)

/-- A token that is required. -/
theorem expect (kind : TokenKind) (words : String) : Yields (expect kind words) fun _ => True :=
  .bind (check _) fun _ _ => .ite (advance.mono fun _ _ => trivial) (unexpected words)

end Yields

/-- Items after commas. -/
theorem moreItems_yields {item : Parser α} (yields : Yields item Holds) (steps : Nat) :
    Yields (moreItems item steps) fun found => ∀ result ∈ found, Holds result := by
  induction steps with
  | zero => exact .pure nofun
  | succ steps inductionHypothesis =>
      exact .bind (.accept _) fun _ _ => .ite (.bind yields fun _ first =>
        .bind inductionHypothesis fun _ others => .pure (List.forall_mem_cons.mpr ⟨first, others⟩))
        (.pure nofun)

/-- Items up to a closing token. -/
theorem itemsUntil_yields {item : Parser α} (yields : Yields item Holds) (closing : TokenKind) :
    Yields (itemsUntil item closing) fun found => ∀ result ∈ found, Holds result := by
  have several : Yields (items item) fun found => ∀ result ∈ found, Holds result :=
    .bind yields fun _ first => .bind (.bounded (moreItems_yields yields)) fun _ others =>
      .pure (List.forall_mem_cons.mpr ⟨first, others⟩)
  have none : Yields (pure []) fun found => ∀ result ∈ found, Holds result := .pure nofun
  exact .bind (.check _) fun _ _ => .ite
    (.bind none fun _ found => .bind (.expect _ _) fun _ _ => .pure found)
    (.bind several fun _ found => .bind (.expect _ _) fun _ _ => .pure found)

section Types

variable {nested : Parser Ascription}

/-- What may follow a colon. -/
theorem annotated_yields {next : Option Ascription → Parser β}
    (yields : Yields nested fun _ => True) (second : ∀ found, Yields (next found) Second) :
    Yields (accept .colon >>= fun found =>
      if found = true then some <$> nested >>= next else pure none >>= next) Second := by
  have absent : Yields (pure (none : Option Ascription)) fun _ => True := .pure trivial
  have present : Yields (some <$> nested) fun _ => True := .map yields fun _ _ => trivial
  exact .bind (.accept _) fun _ _ =>
    .ite (.bind present fun found _ => second found) (.bind absent fun found _ => second found)

/-- Parameters between parentheses. -/
theorem parameters_yields (yields : Yields nested fun _ => True) :
    Yields (parameters nested) fun _ => True := by
  have one : Yields (parameter nested) fun _ => True :=
    .bind (.expect _ _) fun _ _ => annotated_yields yields fun _ => .pure trivial
  exact .bind (.expect _ _) fun _ _ => (itemsUntil_yields one _).mono fun _ _ => trivial

/-- Empty brackets after a type. -/
theorem arraySuffixes_yields (steps : Nat) (element : Ascription) :
    Yields (arraySuffixes steps element) fun _ => True := by
  induction steps generalizing element with
  | zero => exact .pure trivial
  | succ steps inductionHypothesis =>
      exact .bind (.check _) fun _ _ => .bind (.peek 1) fun _ _ =>
        .ite (.bind .advance fun _ _ => .bind .advance fun _ _ => inductionHypothesis _)
          (.pure trivial)

/-- A type before the brackets after it. -/
theorem simpleAscription_yields {rejectAny : Bool} (yields : Yields nested fun _ => True) :
    Yields (simpleAscription rejectAny nested) fun _ => True := by
  refine .bind (.peek 0) fun token _ => .ite (.bind .advance fun _ _ => .pure trivial)
    (.ite ?_ (.ite ?_ (.ite ?_ (.unexpected _))))
  · have rejected : ErrorCode.anyTypeRejected ∈ ErrorCode.syntactic := by decide
    have thrown : Yields (throw ⟨.anyTypeRejected, token.offset⟩ : Parser PUnit) fun _ => True :=
      .throw rejected
    exact .ite (.bind thrown fun _ _ => .bind .advance fun _ _ => .pure trivial)
      (.bind .advance fun _ _ => .pure trivial)
  · exact .bind .advance fun _ _ => .bind (.expect _ _) fun _ _ => .bind yields fun _ _ =>
      .bind (.expect _ _) fun _ _ => .pure trivial
  · exact .bind (parameters_yields yields) fun _ _ => .bind (.expect _ _) fun _ _ =>
      .bind yields fun _ _ => .pure trivial

/-- Types. -/
theorem ascription_yields (rejectAny : Bool) : Yields (ascription rejectAny) fun _ => True := by
  refine .bounded fun depth => ?_
  induction depth with
  | zero => exact .unexpected _
  | succ depth inductionHypothesis =>
      exact .bind (simpleAscription_yields inductionHypothesis) fun _ _ =>
        .bounded fun steps => arraySuffixes_yields steps _

/-- The part of an arrow function before its arrow. -/
theorem arrowHead_yields (rejectAny : Bool) : Yields (arrowHead rejectAny) fun _ => True :=
  .bind (parameters_yields (ascription_yields rejectAny)) fun _ _ =>
    annotated_yields (ascription_yields rejectAny) fun _ => .pure trivial

/-- The look ahead for an arrow function. Where it fails no error is left. -/
theorem arrowAhead_yields : Yields arrowAhead fun _ => True := by
  intro cursor proper
  rw [runAt_arrowAhead]
  exact ⟨trivial, proper⟩

end Types

section Expressions

variable {nested : Parser Expression}

/-- The place to go on from is among the tokens ahead. -/
theorem recoveryPoint_subset (inBlock : Bool) (depth : Nat) (tokens : List Token) :
    recoveryPoint inBlock depth tokens ⊆ tokens := by
  obtain ⟨skipped, cut, _⟩ := recoveryPoint_passed inBlock depth tokens
  exact fun token member => cut ▸ List.mem_append_right skipped member

/-- A primary expression. -/
theorem primary_yields (yields : Yields nested Expression.Additive) :
    Yields (primary nested) Expression.Additive := by
  refine .bind (.peek 0) fun token _ => ?_
  split
  next =>
    refine .bind .advance fun _ _ => ?_
    split <;> exact .pure trivial
  next => exact .bind .advance fun _ _ => .pure trivial
  next => exact .bind .advance fun _ _ => .pure trivial
  next => exact .bind .advance fun _ _ => .pure trivial
  next => exact .bind .advance fun _ _ => .pure trivial
  next =>
    exact .bind .advance fun _ _ => .bind (itemsUntil_yields yields _) fun _ elements =>
      .pure (Expression.additiveAll_of elements)
  next =>
    exact .bind .advance fun _ _ => .bind yields fun _ inner => .bind (.expect _ _) fun _ _ =>
      .pure inner
  next => exact .unexpected _

/-- What is applied to an operand. -/
theorem applications_yields (yields : Yields nested Expression.Additive) (steps : Nat)
    {applied : Expression} (additive : applied.Additive) :
    Yields (applications nested steps applied) Expression.Additive := by
  induction steps generalizing applied with
  | zero => exact .pure additive
  | succ steps inductionHypothesis =>
      exact .bind (.accept _) fun _ _ => .ite
        (.bind (itemsUntil_yields yields _) fun _ arguments =>
          inductionHypothesis ⟨additive, Expression.additiveAll_of arguments⟩)
        (.bind (.accept _) fun _ _ => .ite (.bind yields fun _ index =>
          .bind (.expect _ _) fun _ _ => inductionHypothesis ⟨additive, index⟩) (.pure additive))

/-- A statement. -/
theorem statement_yields (yields : Yields nested Expression.Additive) :
    Yields (statement nested) Statement.Additive := by
  have declaration : Yields (constDeclaration nested) Statement.Additive :=
    .bind .advance fun _ _ => .bind (.expect _ _) fun _ _ =>
      annotated_yields (ascription_yields true) fun _ => .bind (.expect _ _) fun _ _ =>
        .bind yields fun _ initial => .bind (.accept _) fun _ _ => .pure initial
  have absent : Yields (pure (none : Option Expression)) fun argument =>
      ∀ offset, (Statement.returning offset argument).Additive := .pure fun _ => trivial
  have present : Yields (some <$> nested) fun argument =>
      ∀ offset, (Statement.returning offset argument).Additive :=
    .map yields fun _ additive _ => additive
  have returned : Yields (returnStatement nested) Statement.Additive :=
    .bind .advance fun _ _ => .bind (.check _) fun _ _ => .ite
      (.bind absent fun _ additive => .bind (.accept _) fun _ _ => .pure (additive _))
      (.bind present fun _ additive => .bind (.accept _) fun _ _ => .pure (additive _))
  exact .bind (.check _) fun _ _ => .ite declaration (.bind (.check _) fun _ _ =>
    .ite returned (.unexpected _))

/-- A statement whose errors are recorded. -/
theorem recovering_yields (yields : Yields nested Expression.Additive) (inBlock : Bool) :
    Yields (recovering nested inBlock) fun tree => Statement.AdditiveAll tree.toList := by
  intro cursor proper
  have arisen := statement_yields yields cursor proper
  rw [runAt_recovering]
  rcases ran : (statement nested).runAt cursor with ⟨diagnostic | tree, after⟩
  · rw [ran] at arisen
    obtain ⟨coded, later⟩ := arisen
    have further := later.onward (recoveryPoint_subset inBlock 0 after.rest)
    exact ⟨trivial, further.spelled, further.last, later.coded.append (.one coded)⟩
  · rw [ran] at arisen
    exact ⟨⟨arisen.1, trivial⟩, arisen.2⟩

/-- Statements up to a token that ends them. -/
theorem statements_yields (yields : Yields nested Expression.Additive) (inBlock : Bool)
    (ends : List TokenKind) (steps : Nat) :
    Yields (statements nested inBlock ends steps) Statement.AdditiveAll := by
  induction steps with
  | zero => exact .pure trivial
  | succ steps inductionHypothesis =>
      exact .bind (.check _) fun _ _ => .ite (.pure trivial) (.bind (.accept _) fun _ _ =>
        .ite inductionHypothesis (.bind (recovering_yields yields inBlock) fun _ first =>
          .bind inductionHypothesis fun _ others => .pure (first.append others)))

/-- An operand. -/
theorem operand_yields (yields : Yields nested Expression.Additive) :
    Yields (operand nested) Expression.Additive := by
  have body : Yields (block nested) fun body => Statement.AdditiveAll body.statements :=
    .bind (.expect _ _) fun _ _ => .bind (.bounded (statements_yields yields true _))
      fun _ additive => .bind (.expect _ _) fun _ _ => .pure additive
  have rejected : ErrorCode.expressionBodyRejected ∈ ErrorCode.syntactic := by decide
  have function : Yields (arrowFunction nested) Expression.Additive :=
    .bind (.peek 0) fun _ _ => .bind (arrowHead_yields true) fun ⟨_, _⟩ _ =>
      .bind (.expect _ _) fun _ _ => .bind (.check _) fun _ _ =>
        .ite (.bind body fun ⟨_, _⟩ additive => .pure additive)
          (.bind (.peek 0) fun _ _ => .throw rejected)
  exact .bind (.check _) fun _ _ => .bind arrowAhead_yields fun _ _ => .ite function
    (.bind (primary_yields yields) fun _ first =>
      .bounded fun steps => applications_yields yields steps first)

/-- Operands after plus signs. -/
theorem sums_yields (yields : Yields nested Expression.Additive) (steps : Nat)
    {left : Expression} (additive : left.Additive) :
    Yields (sums nested steps left) Expression.Additive := by
  induction steps generalizing left with
  | zero => exact .pure additive
  | succ steps inductionHypothesis =>
      refine .bind (.matched _) fun operator found => ?_
      cases operator with
      | none => exact .pure additive
      | some operator =>
          obtain ⟨among, spelled⟩ := found operator rfl
          have plus := spelled (List.mem_singleton.mp among)
          exact .bind (operand_yields yields) fun _ right =>
            inductionHypothesis ⟨additive, plus, right⟩

/-- A conditional. -/
theorem conditional_yields (yields : Yields nested Expression.Additive) :
    Yields (conditional nested) Expression.Additive := by
  have sum : Yields (binary nested) Expression.Additive :=
    .bind (operand_yields yields) fun _ first =>
      .bounded fun steps => sums_yields yields steps first
  exact .bind sum fun _ test => .bind (.accept _) fun _ _ =>
    .ite (.bind yields fun _ consequent => .bind (.expect _ _) fun _ _ =>
      .bind yields fun _ alternate => .pure ⟨test, consequent, alternate⟩) (.pure test)

/-- Expressions. -/
theorem expression_yields : Yields expression Expression.Additive := by
  refine .bounded fun depth => ?_
  induction depth with
  | zero => exact .unexpected _
  | succ depth inductionHypothesis => exact conditional_yields inductionHypothesis

end Expressions

/-- Programs. -/
theorem program_yields : Yields program fun program => Statement.AdditiveAll program.body :=
  .bind (.bounded (statements_yields expression_yields false _)) fun _ body => .pure body

end Parser

/-! ## Tokens of a source -/

namespace Lexing

/-- A lexeme that is a plus sign has the text of one. -/
theorem Denotes.spelled {token : Token} {lexeme : List Char} (denotes : Denotes token lexeme) :
    token.Spelled := by
  intro plus
  have marked : ∀ terminal ∈ terminals, terminal.kind = some .plus → terminal.opener = .mark := by
    decide
  have only : ∀ entry ∈ marks, entry.2 = .plus → entry.1 = "+" := by decide
  obtain ⟨terminal, among, kind, mem⟩ := denotes.pattern
  rw [plus] at kind
  obtain ⟨entry, listed, rfl⟩ := Terminal.eq_mark among (marked terminal among kind)
  have word : lexeme = "+".toList := only entry listed (Option.some.inj kind) ▸ mem
  have value : token.value = .text "+" := by
    rw [denotes.value, plus, word]
    rfl
  rw [Token.text, value]

end Lexing

variable {source : String} {tokens : List Token}

/-- The parser begins at a proper cursor on the tokens of a source. -/
theorem Cursor.start_proper (tokenized : tokenize source = .ok tokens) :
    (Cursor.start tokens).Proper := by
  obtain ⟨lexed, rfl, denotes⟩ := tokenize_denotes tokenized
  have mark : (Token.atEnd source.length).Spelled := nofun
  rw [Cursor.start_ended List.getLast?_concat rfl]
  refine ⟨fun token among => ?_, mark, .nil⟩
  rcases List.mem_append.mp among with before | last
  · obtain ⟨_, denotes⟩ := denotes token before
    exact denotes.spelled
  · exact List.mem_singleton.mp last ▸ mark

/-- The tokens of a source give an additive tree, and diagnostics of syntax. -/
theorem parseProgram_yields (tokenized : tokenize source = .ok tokens) :
    Statement.AdditiveAll (parseProgram tokens).1.body ∧
      Coded ErrorCode.syntactic (parseProgram tokens).2 := by
  have yields := Parser.program_yields _ (Cursor.start_proper tokenized)
  obtain ⟨trees, after, ran⟩ := Parser.topLevel_total (.start tokens)
  have program : Parser.program.runAt (.start tokens) = (.ok { body := trees }, after) :=
    Parser.runAt_bind_ok ran _
  rw [program] at yields
  rw [parseProgram_eq ran]
  exact ⟨yields.1, yields.2.coded⟩

end ArrowScript
