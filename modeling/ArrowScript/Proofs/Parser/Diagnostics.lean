import ArrowScript.Proofs.Parser.Soundness

/-!
# Parsers do not look at the diagnostics so far

A parser that is started with diagnostics from an earlier part of the stream does what it
does without them, and leaves them in front of its own. There is one rule for each way of
putting parsers together, and each parser follows from its parts.
-/

namespace ArrowScript

/-- The cursor with diagnostics that were there before. -/
def Cursor.behind (earlier : List Diagnostic) (cursor : Cursor) : Cursor :=
  { cursor with diagnostics := earlier ++ cursor.diagnostics }

namespace Parser

variable {α β : Type}

/-- Diagnostics that were there before the parser started stay in front, and make no other
difference. -/
def Adds (parser : Parser α) : Prop :=
  ∀ (earlier : List Diagnostic) (cursor : Cursor),
    parser.runAt (cursor.behind earlier) =
      ((parser.runAt cursor).1, (parser.runAt cursor).2.behind earlier)

variable {parser other : Parser α} {next : α → Parser β}

namespace Adds

/-- A result. -/
theorem pure (result : α) : Adds (pure result) := fun _ _ => rfl

/-- A failure. -/
theorem throw (diagnostic : Diagnostic) : Adds (throw diagnostic : Parser α) := fun _ _ => rfl

/-- A look at a token. -/
theorem peek (distance : Nat) : Adds (peek distance) := fun _ _ => rfl

/-- A sequence. -/
theorem bind (first : Adds parser) (second : ∀ result, Adds (next result)) :
    Adds (parser >>= next) := by
  intro earlier cursor
  have moved := first earlier cursor
  rcases ran : parser.runAt cursor with ⟨diagnostic | result, after⟩
  · rw [ran] at moved
    rw [runAt_bind_error moved, runAt_bind_error ran]
  · rw [ran] at moved
    rw [runAt_bind_ok moved, runAt_bind_ok ran]
    exact second result earlier after

/-- A choice. -/
theorem ite {condition : Prop} [Decidable condition] (positive : Adds parser)
    (negative : Adds other) : Adds (if condition then parser else other) := by
  split
  · exact positive
  · exact negative

/-- A result that is put into another form. -/
theorem map (adds : Adds parser) (form : α → β) : Adds (form <$> parser) :=
  .bind adds fun _ => .pure _

/-- A rule with a bound, which counts the tokens ahead. -/
theorem bounded {rule : Nat → Parser α} (adds : ∀ steps, Adds (rule steps)) :
    Adds (bounded rule) :=
  fun earlier cursor => adds _ earlier cursor

/-- A step over the next token. -/
theorem advance : Adds advance := by
  refine .bind (peek 0) fun token => ?_
  split
  · exact fun _ _ => rfl
  · exact .pure _

/-- A look at the kind of the next token. -/
theorem check (kinds : List TokenKind) : Adds (check kinds) := .bind (peek 0) fun _ => .pure _

/-- A token that may come next. -/
theorem matched (kinds : List TokenKind) : Adds (match? kinds) :=
  .bind (check kinds) fun _ => .ite (.bind advance fun _ => .pure _) (.pure _)

/-- A token that is passed if it comes next. -/
theorem accept (kind : TokenKind) : Adds (accept kind) := .bind (matched _) fun _ => .pure _

/-- A failure at the next token. -/
theorem unexpected (words : String) : Adds (unexpected words : Parser α) :=
  .bind (peek 0) fun _ => .throw _

/-- A token that is required. -/
theorem expect (kind : TokenKind) (words : String) : Adds (expect kind words) :=
  .bind (check _) fun _ => .ite advance (unexpected words)

end Adds

/-- Items after commas. -/
theorem moreItems_adds {item : Parser α} (adds : Adds item) (steps : Nat) :
    Adds (moreItems item steps) := by
  induction steps with
  | zero => exact .pure _
  | succ steps inductionHypothesis =>
      exact .bind (.accept _) fun _ => .ite (.bind adds fun _ =>
        .bind inductionHypothesis fun _ => .pure _) (.pure _)

/-- Items up to a closing token. -/
theorem itemsUntil_adds {item : Parser α} (adds : Adds item) (closing : TokenKind) :
    Adds (itemsUntil item closing) := by
  have several : Adds (items item) :=
    .bind adds fun _ => .bind (.bounded (moreItems_adds adds)) fun _ => .pure _
  exact .bind (.check _) fun _ => .ite (.bind (.pure _) fun _ => .bind (.expect _ _) fun _ =>
    .pure _) (.bind several fun _ => .bind (.expect _ _) fun _ => .pure _)

section Types

variable {nested : Parser Ascription}

/-- What may follow a colon. -/
theorem annotated_adds {next : Option Ascription → Parser β} (adds : Adds nested)
    (second : ∀ found, Adds (next found)) :
    Adds (accept .colon >>= fun found =>
      if found = true then some <$> nested >>= next else pure none >>= next) :=
  .bind (.accept _) fun _ => .ite (.bind (.map adds some) second) (.bind (.pure none) second)

/-- Parameters between parentheses. -/
theorem parameters_adds (adds : Adds nested) : Adds (parameters nested) := by
  have one : Adds (parameter nested) :=
    .bind (.expect _ _) fun _ => annotated_adds adds fun _ => .pure _
  exact .bind (.expect _ _) fun _ => itemsUntil_adds one _

/-- Empty brackets after a type. -/
theorem arraySuffixes_adds (steps : Nat) (element : Ascription) :
    Adds (arraySuffixes steps element) := by
  induction steps generalizing element with
  | zero => exact .pure _
  | succ steps inductionHypothesis =>
      exact .bind (.check _) fun _ => .bind (.peek 1) fun _ => .ite (.bind .advance fun _ =>
        .bind .advance fun _ => inductionHypothesis _) (.pure _)

/-- A type before the brackets after it. -/
theorem simpleAscription_adds {rejectAny : Bool} (adds : Adds nested) :
    Adds (simpleAscription rejectAny nested) := by
  refine .bind (.peek 0) fun token => .ite (.bind .advance fun _ => .pure _) (.ite ?_ (.ite ?_
    (.ite ?_ (.unexpected _))))
  · exact .ite (.bind (.throw _) fun _ => .bind .advance fun _ => .pure _)
      (.bind .advance fun _ => .pure _)
  · exact .bind .advance fun _ => .bind (.expect _ _) fun _ => .bind adds fun _ =>
      .bind (.expect _ _) fun _ => .pure _
  · exact .bind (parameters_adds adds) fun _ => .bind (.expect _ _) fun _ => .bind adds fun _ =>
      .pure _

/-- Types. -/
theorem ascription_adds (rejectAny : Bool) : Adds (ascription rejectAny) := by
  refine .bounded fun depth => ?_
  induction depth with
  | zero => exact .unexpected _
  | succ depth inductionHypothesis =>
      exact .bind (simpleAscription_adds inductionHypothesis) fun _ =>
        .bounded fun steps => arraySuffixes_adds steps _

/-- The part of an arrow function before its arrow. -/
theorem arrowHead_adds (rejectAny : Bool) : Adds (arrowHead rejectAny) :=
  .bind (parameters_adds (ascription_adds rejectAny)) fun _ =>
    annotated_adds (ascription_adds rejectAny) fun _ => .pure _

/-- The look ahead for an arrow function. -/
theorem arrowAhead_adds : Adds arrowAhead := by
  intro earlier cursor
  rw [runAt_arrowAhead, runAt_arrowAhead, arrowHead_adds false earlier cursor]
  rcases (arrowHead false).runAt cursor with ⟨diagnostic | head, after⟩ <;> rfl

end Types

section Expressions

variable {nested : Parser Expression}

/-- A primary expression. -/
theorem primary_adds (adds : Adds nested) : Adds (primary nested) := by
  refine .bind (.peek 0) fun token => ?_
  split
  next =>
    refine .bind .advance fun _ => ?_
    split <;> exact .pure _
  next => exact .bind .advance fun _ => .pure _
  next => exact .bind .advance fun _ => .pure _
  next => exact .bind .advance fun _ => .pure _
  next => exact .bind .advance fun _ => .pure _
  next => exact .bind .advance fun _ => .bind (itemsUntil_adds adds _) fun _ => .pure _
  next => exact .bind .advance fun _ => .bind adds fun _ => .bind (.expect _ _) fun _ => .pure _
  next => exact .unexpected _

/-- What is applied to an operand. -/
theorem applications_adds (adds : Adds nested) (steps : Nat) (applied : Expression) :
    Adds (applications nested steps applied) := by
  induction steps generalizing applied with
  | zero => exact .pure _
  | succ steps inductionHypothesis =>
      exact .bind (.accept _) fun _ => .ite
        (.bind (itemsUntil_adds adds _) fun _ => inductionHypothesis _)
        (.bind (.accept _) fun _ => .ite (.bind adds fun _ => .bind (.expect _ _) fun _ =>
          inductionHypothesis _) (.pure _))

/-- A statement. -/
theorem statement_adds (adds : Adds nested) : Adds (statement nested) := by
  have declaration : Adds (constDeclaration nested) :=
    .bind .advance fun _ => .bind (.expect _ _) fun _ => annotated_adds (ascription_adds true)
      fun _ => .bind (.expect _ _) fun _ => .bind adds fun _ => .bind (.accept _) fun _ => .pure _
  have returned : Adds (returnStatement nested) :=
    .bind .advance fun _ => .bind (.check _) fun _ => .ite
      (.bind (.pure none) fun _ => .bind (.accept _) fun _ => .pure _)
      (.bind (.map adds some) fun _ => .bind (.accept _) fun _ => .pure _)
  exact .bind (.check _) fun _ => .ite declaration (.bind (.check _) fun _ =>
    .ite returned (.unexpected _))

/-- A statement whose errors are recorded. -/
theorem recovering_adds (adds : Adds nested) (inBlock : Bool) :
    Adds (recovering nested inBlock) := by
  intro earlier cursor
  rw [runAt_recovering, runAt_recovering, statement_adds adds earlier cursor]
  rcases (statement nested).runAt cursor with ⟨diagnostic | tree, after⟩
  · simp only [Cursor.behind, List.append_assoc]
  · rfl

/-- Statements up to a token that ends them. -/
theorem statements_adds (adds : Adds nested) (inBlock : Bool) (ends : List TokenKind)
    (steps : Nat) : Adds (statements nested inBlock ends steps) := by
  induction steps with
  | zero => exact .pure _
  | succ steps inductionHypothesis =>
      exact .bind (.check _) fun _ => .ite (.pure _) (.bind (.accept _) fun _ =>
        .ite inductionHypothesis (.bind (recovering_adds adds inBlock) fun _ =>
          .bind inductionHypothesis fun _ => .pure _))

/-- An operand. -/
theorem operand_adds (adds : Adds nested) : Adds (operand nested) := by
  have body : Adds (block nested) :=
    .bind (.expect _ _) fun _ => .bind (.bounded (statements_adds adds true _)) fun _ =>
      .bind (.expect _ _) fun _ => .pure _
  have function : Adds (arrowFunction nested) :=
    .bind (.peek 0) fun _ => .bind (arrowHead_adds true) fun ⟨_, _⟩ => .bind (.expect _ _) fun _ =>
      .bind (.check _) fun _ => .ite (.bind body fun _ => .pure _) (.bind (.peek 0) fun _ =>
        .throw _)
  exact .bind (.check _) fun _ => .bind arrowAhead_adds fun _ => .ite function
    (.bind (primary_adds adds) fun _ => .bounded fun steps => applications_adds adds steps _)

/-- Operands after plus signs. -/
theorem sums_adds (adds : Adds nested) (steps : Nat) (left : Expression) :
    Adds (sums nested steps left) := by
  induction steps generalizing left with
  | zero => exact .pure _
  | succ steps inductionHypothesis =>
      refine .bind (.matched _) fun operator => ?_
      cases operator with
      | none => exact .pure _
      | some operator => exact .bind (operand_adds adds) fun _ => inductionHypothesis _

/-- A conditional. -/
theorem conditional_adds (adds : Adds nested) : Adds (conditional nested) := by
  have sum : Adds (binary nested) :=
    .bind (operand_adds adds) fun _ => .bounded fun steps => sums_adds adds steps _
  exact .bind sum fun _ => .bind (.accept _) fun _ => .ite (.bind adds fun _ =>
    .bind (.expect _ _) fun _ => .bind adds fun _ => .pure _) (.pure _)

end Expressions

/-- Expressions. -/
theorem expression_adds : Adds expression := by
  refine .bounded fun depth => ?_
  induction depth with
  | zero => exact .unexpected _
  | succ depth inductionHypothesis => exact conditional_adds inductionHypothesis

end Parser

end ArrowScript
