import ArrowScript.Proofs.Parser.Composition
import ArrowScript.Proofs.Relocation.Trees

/-!
# Parsing relocated tokens

Parsers look at the kinds and the values of tokens and copy their offsets. So the tree of
relocated tokens is the relocated tree, also where errors are recovered from, and the
diagnostics are the relocated ones.

A parser that takes another one as an argument does so if the other one does. There is one
rule for each way of putting parsers together, and each parser follows from its parts.
-/

namespace ArrowScript

instance : Located Cursor where
  relocate move cursor :=
    { cursor with
      rest := relocate move cursor.rest
      last := relocate move cursor.last
      diagnostics := relocate move cursor.diagnostics }

namespace Parser

variable {α β : Type} [Located α] [Located β] {move : Int → Int}

/-- The other parser does on relocated tokens what the one does on the tokens. -/
def Relocates (move : Int → Int) (one other : Parser α) : Prop :=
  ∀ cursor : Cursor, other.runAt (relocate move cursor) = relocate move (one.runAt cursor)

variable {one other : Parser α} {next following : α → Parser β} {positive negative : Parser β}
  {accepting declining : Parser β}

namespace Relocates

/-- A result. -/
theorem pure (result : α) :
    Relocates move (pure result) (pure (relocate move result)) := fun _ => rfl

/-- A failure. -/
theorem throw (diagnostic : Diagnostic) :
    Relocates move (throw diagnostic : Parser α) (throw (relocate move diagnostic)) :=
  fun _ => rfl

/-- A sequence. -/
theorem bind (first : Relocates move one other)
    (second : ∀ result, Relocates move (next result) (following (relocate move result))) :
    Relocates move (one >>= next) (other >>= following) := by
  intro cursor
  have moved := first cursor
  rcases ran : one.runAt cursor with ⟨diagnostic | result, after⟩
  · rw [ran] at moved
    rw [runAt_bind_error moved, runAt_bind_error ran]
    rfl
  · rw [ran] at moved
    rw [runAt_bind_ok moved, runAt_bind_ok ran]
    exact second result after

/-- A choice. -/
theorem ite {condition : Prop} [Decidable condition] (positives : Relocates move positive accepting)
    (negatives : Relocates move negative declining) :
    Relocates move (if condition then positive else negative)
      (if condition then accepting else declining) := by
  split
  · exact positives
  · exact negatives

/-- A result that is put into another form. -/
theorem map {form shape : α → β} (relocates : Relocates move one other)
    (same : ∀ result, relocate move (form result) = shape (relocate move result)) :
    Relocates move (form <$> one) (shape <$> other) := by
  refine .bind relocates fun result => ?_
  change Relocates move (Pure.pure (form result)) (Pure.pure (shape (relocate move result)))
  rw [← same]
  exact .pure _

/-- A rule with a bound, which counts the tokens ahead. -/
theorem bounded {rule law : Nat → Parser α}
    (relocates : ∀ steps, Relocates move (rule steps) (law steps)) :
    Relocates move (bounded rule) (bounded law) := by
  intro cursor
  have size : (relocate move cursor).rest.length = cursor.rest.length := List.length_map _
  change (law ((relocate move cursor).rest.length + 1)).runAt _ = _
  rw [size]
  exact relocates _ cursor

/-- A look at a token. -/
theorem peek (distance : Nat) : Relocates move (peek distance) (peek distance) := by
  intro cursor
  have seen : (relocate move cursor).ahead distance = relocate move (cursor.ahead distance) := by
    change ((cursor.rest.map (relocate move))[distance]?).getD (relocate move cursor.last) = _
    rw [List.getElem?_map, Option.getD_map]
    rfl
  change (Except.ok ((relocate move cursor).ahead distance), _) = _
  rw [seen]
  rfl

/-- A step over the next token. -/
theorem advance : Relocates move advance advance := by
  refine .bind (peek 0) fun token => .ite (.bind (fun cursor => ?_) fun _ => .pure _) (.pure _)
  change (Except.ok (), { relocate move cursor with rest := (relocate move cursor).rest.tail }) = _
  have tail : (relocate move cursor).rest.tail = relocate move cursor.rest.tail :=
    List.map_tail.symm
  rw [tail]
  rfl

/-- A look at the kind of the next token. -/
theorem check (kinds : List TokenKind) : Relocates move (check kinds) (check kinds) :=
  .bind (peek 0) fun token => .pure (kinds.contains token.kind)

/-- A token that may come next. -/
theorem matched (kinds : List TokenKind) : Relocates move (match? kinds) (match? kinds) :=
  .bind (check kinds) fun _ => .ite (.bind advance fun token => .pure (some token)) (.pure none)

/-- A token that is passed if it comes next. -/
theorem accept (kind : TokenKind) : Relocates move (accept kind) (accept kind) :=
  .bind (matched _) fun token => by cases token <;> exact .pure _

/-- A failure at the next token. -/
theorem unexpected (words : String) :
    Relocates move (unexpected words : Parser α) (unexpected words) :=
  .bind (peek 0) fun token => .throw ⟨.unexpectedToken words token.description, token.offset⟩

/-- A token that is required. -/
theorem expect (kind : TokenKind) (words : String) :
    Relocates move (expect kind words) (expect kind words) :=
  .bind (check _) fun _ => .ite advance (unexpected words)

end Relocates

/-- Items after commas. -/
theorem moreItems_relocates (relocates : Relocates move one other) (steps : Nat) :
    Relocates move (moreItems one steps) (moreItems other steps) := by
  induction steps with
  | zero => exact .pure _
  | succ steps inductionHypothesis =>
      exact .bind (.accept _) fun _ => .ite (.bind relocates fun _ =>
        .bind inductionHypothesis fun _ => .pure _) (.pure _)

/-- Items up to a closing token. -/
theorem itemsUntil_relocates (relocates : Relocates move one other) (closing : TokenKind) :
    Relocates move (itemsUntil one closing) (itemsUntil other closing) := by
  have several : Relocates move (items one) (items other) :=
    .bind relocates fun _ => .bind (.bounded (moreItems_relocates relocates)) fun _ => .pure _
  exact .bind (.check _) fun _ => .ite (.bind (.pure _) fun _ => .bind (.expect _ _) fun _ =>
    .pure _) (.bind several fun _ => .bind (.expect _ _) fun _ => .pure _)

section Types

variable {nested inner : Parser Ascription}

/-- What may follow a colon. -/
theorem annotated_relocates {next following : Option Ascription → Parser β}
    (relocates : Relocates move nested inner)
    (second : ∀ found, Relocates move (next found) (following (relocate move found))) :
    Relocates move
      (accept .colon >>= fun found =>
        if found = true then some <$> nested >>= next else pure none >>= next)
      (accept .colon >>= fun found =>
        if found = true then some <$> inner >>= following else pure none >>= following) :=
  .bind (.accept _) fun _ => .ite (.bind (.map relocates fun _ => rfl) second)
    (.bind (.pure none) second)

/-- Parameters between parentheses. -/
theorem parameters_relocates (relocates : Relocates move nested inner) :
    Relocates move (parameters nested) (parameters inner) := by
  have one : Relocates move (parameter nested) (parameter inner) := by
    refine .bind (.expect _ _) fun name => annotated_relocates relocates fun found => ?_
    have read (param : Parameter) : Relocates move (pure param) (pure (relocate move param)) :=
      .pure param
    cases found with
    | none => exact read { offset := name.offset, name := name.text }
    | some ascription =>
        exact read { offset := name.offset, name := name.text, ascription := some ascription }
  exact .bind (.expect _ _) fun _ => itemsUntil_relocates one _

/-- Empty brackets after a type. -/
theorem arraySuffixes_relocates (steps : Nat) (element : Ascription) :
    Relocates move (arraySuffixes steps element) (arraySuffixes steps (relocate move element)) := by
  induction steps generalizing element with
  | zero => exact .pure _
  | succ steps inductionHypothesis =>
      refine .bind (.check _) fun _ => .bind (.peek 1) fun _ => .ite (.bind .advance fun _ =>
        .bind .advance fun _ => ?_) (.pure _)
      rw [Ascription.offset_relocate]
      exact inductionHypothesis (.array element.offset element)

/-- A type before the brackets after it. -/
theorem simpleAscription_relocates {rejectAny : Bool} (relocates : Relocates move nested inner) :
    Relocates move (simpleAscription rejectAny nested) (simpleAscription rejectAny inner) := by
  refine .bind (.peek 0) fun token => ?_
  let name : Ascription := .named token.offset token.text
  have named : Relocates move (advance >>= fun _ => pure name)
      (advance >>= fun _ => pure (relocate move name)) := .bind .advance fun _ => .pure name
  refine .ite named (.ite ?_ (.ite ?_ (.ite ?_ (.unexpected _))))
  · exact .ite (.bind (α := PUnit) (.throw ⟨.anyTypeRejected, token.offset⟩) fun _ => named) named
  · exact .bind .advance fun _ => .bind (.expect _ _) fun _ => .bind relocates fun _ =>
      .bind (.expect _ _) fun _ => .pure (Ascription.array token.offset _)
  · refine .bind (parameters_relocates relocates) fun params => .bind (.expect _ _) fun _ =>
      .bind relocates fun result => ?_
    rw [← Parameter.relocatedAll_eq]
    exact .pure (Ascription.function token.offset params result)

/-- Types. -/
theorem ascription_relocates (rejectAny : Bool) :
    Relocates move (ascription rejectAny) (ascription rejectAny) := by
  refine .bounded fun depth => ?_
  induction depth with
  | zero => exact .unexpected _
  | succ depth inductionHypothesis =>
      exact .bind (simpleAscription_relocates inductionHypothesis) fun _ =>
        .bounded fun steps => arraySuffixes_relocates steps _

/-- The part of an arrow function before its arrow. -/
theorem arrowHead_relocates (rejectAny : Bool) :
    Relocates move (arrowHead rejectAny) (arrowHead rejectAny) :=
  .bind (parameters_relocates (ascription_relocates rejectAny)) fun _ =>
    annotated_relocates (ascription_relocates rejectAny) fun _ => .pure _

/-- The look ahead for an arrow function. -/
theorem arrowAhead_relocates : Relocates move arrowAhead arrowAhead := by
  intro cursor
  rw [runAt_arrowAhead, runAt_arrowAhead, arrowHead_relocates false cursor]
  rcases (arrowHead false).runAt cursor with ⟨diagnostic | head, after⟩
  · rfl
  · have looked : Relocates move (peek 0) (peek 0) := .peek 0
    have seen := Prod.mk.inj (looked after)
    change (Except.ok (decide (((relocate move after).ahead 0).kind = .arrow)), _) = _
    rw [Except.ok.inj seen.1]
    rfl

end Types

section Expressions

variable {nested inner : Parser Expression}

/-- A primary expression. -/
theorem primary_relocates (relocates : Relocates move nested inner) :
    Relocates move (primary nested) (primary inner) := by
  have known (tree : Expression) : Relocates move (advance >>= fun _ => pure tree)
      (advance >>= fun _ => pure (relocate move tree)) := .bind .advance fun _ => .pure tree
  refine .bind (.peek 0) fun token => ?_
  rw [Token.kind_relocate]
  split
  next =>
    refine .bind .advance fun _ => ?_
    rw [Token.value_relocate]
    split
    next value _ => exact .pure (Expression.number token.offset value)
    next => exact .pure (Expression.number token.offset (.int 0))
  next => exact known (.string token.offset token.text)
  next => exact known (.boolean token.offset _)
  next => exact known (.boolean token.offset _)
  next => exact known (.identifier { offset := token.offset, name := token.text })
  next =>
    refine .bind .advance fun _ => .bind (itemsUntil_relocates relocates _) fun elements => ?_
    rw [← Expression.relocatedAll_eq]
    exact .pure (Expression.array token.offset elements)
  next => exact .bind .advance fun _ => .bind relocates fun _ => .bind (.expect _ _) fun _ =>
      .pure _
  next => exact .unexpected _

/-- What is applied to an operand. -/
theorem applications_relocates (relocates : Relocates move nested inner) (steps : Nat)
    (applied : Expression) :
    Relocates move (applications nested steps applied)
      (applications inner steps (relocate move applied)) := by
  induction steps generalizing applied with
  | zero => exact .pure _
  | succ steps inductionHypothesis =>
      refine .bind (.accept _) fun _ => .ite
        (.bind (itemsUntil_relocates relocates _) fun arguments => ?_)
        (.bind (.accept _) fun _ => .ite (.bind relocates fun index =>
          .bind (.expect _ _) fun _ => ?_) (.pure _))
      · rw [Expression.offset_relocate, ← Expression.relocatedAll_eq]
        exact inductionHypothesis (.call applied.offset applied arguments)
      · rw [Expression.offset_relocate]
        exact inductionHypothesis (.member applied.offset applied index)

/-- A statement. -/
theorem statement_relocates (relocates : Relocates move nested inner) :
    Relocates move (statement nested) (statement inner) := by
  have declaration : Relocates move (constDeclaration nested) (constDeclaration inner) :=
    .bind .advance fun keyword => .bind (.expect _ _) fun name =>
      annotated_relocates (ascription_relocates true) fun annotated => .bind (.expect _ _) fun _ =>
        .bind relocates fun initial => .bind (.accept _) fun _ =>
          .pure (Statement.constant keyword.offset { offset := name.offset, name := name.text }
            annotated initial)
  have returned : Relocates move (returnStatement nested) (returnStatement inner) := by
    have read (offset : Int) (argument : Option Expression) :
        Relocates move (accept .semicolon >>= fun _ => pure (Statement.returning offset argument))
          (accept .semicolon >>= fun _ =>
            pure (Statement.returning (move offset) (relocate move argument))) := by
      refine .bind (.accept _) fun _ => ?_
      cases argument <;> exact .pure (Statement.returning offset _)
    exact .bind .advance fun keyword => .bind (.check _) fun _ => .ite
      (.bind (.pure none) fun argument => read keyword.offset argument)
      (.bind (.map relocates fun _ => rfl) fun argument => read keyword.offset argument)
  exact .bind (.check _) fun _ => .ite declaration (.bind (.check _) fun _ =>
    .ite returned (.unexpected _))

/-- The next boundary is found at the same place. -/
theorem recoveryPoint_relocate (inBlock : Bool) (depth : Nat) (tokens : List Token) :
    recoveryPoint inBlock depth (relocate move tokens) =
      relocate move (recoveryPoint inBlock depth tokens) := by
  fun_induction recoveryPoint inBlock depth tokens with
  | case1 => rfl
  | _ => simp_all [recoveryPoint]

/-- A statement whose errors are recorded. -/
theorem recovering_relocates (relocates : Relocates move nested inner) (inBlock : Bool) :
    Relocates move (recovering nested inBlock) (recovering inner inBlock) := by
  intro cursor
  rw [runAt_recovering, runAt_recovering, statement_relocates relocates cursor]
  rcases (statement nested).runAt cursor with ⟨diagnostic | tree, after⟩
  · change (Except.ok none, { relocate move after with
      rest := recoveryPoint inBlock 0 (relocate move after.rest)
      diagnostics := relocate move after.diagnostics ++ relocate move [diagnostic] }) = _
    rw [recoveryPoint_relocate, ← relocate_append]
    rfl
  · rfl

/-- Statements up to a token that ends them. -/
theorem statements_relocates (relocates : Relocates move nested inner) (inBlock : Bool)
    (ends : List TokenKind) (steps : Nat) :
    Relocates move (statements nested inBlock ends steps)
      (statements inner inBlock ends steps) := by
  induction steps with
  | zero => exact .pure _
  | succ steps inductionHypothesis =>
      refine .bind (.check _) fun _ => .ite (.pure _) (.bind (.accept _) fun _ =>
        .ite inductionHypothesis (.bind (recovering_relocates relocates inBlock) fun first =>
          .bind inductionHypothesis fun rest => ?_))
      have whole : relocate move (first.toList ++ rest) =
          (relocate move first).toList ++ relocate move rest := by
        cases first <;> rfl
      rw [← whole]
      exact .pure _

/-- An operand. -/
theorem operand_relocates (relocates : Relocates move nested inner) :
    Relocates move (operand nested) (operand inner) := by
  have body : Relocates move (block nested) (block inner) :=
    .bind (.expect _ _) fun opening =>
      .bind (.bounded (statements_relocates relocates true _)) fun statements =>
        .bind (.expect _ _) fun _ => .pure (Block.mk opening.offset statements)
  have function : Relocates move (arrowFunction nested) (arrowFunction inner) := by
    refine .bind (.peek 0) fun opening => .bind (arrowHead_relocates true) fun ⟨params, result⟩ =>
      .bind (.expect _ _) fun _ => .bind (.check _) fun _ => .ite (.bind body fun block => ?_)
        (.bind (.peek 0) fun token => .throw ⟨.expressionBodyRejected, token.offset⟩)
    obtain ⟨offset, statements⟩ := block
    have same : relocate move (Expression.arrow opening.offset params result ⟨offset, statements⟩) =
        .arrow (move opening.offset) (relocate move params) (relocate move result)
          ⟨move offset, relocate move statements⟩ := by
      rw [← Statement.relocatedAll_eq]
      rfl
    exact same ▸ .pure _
  exact .bind (.check _) fun _ => .bind arrowAhead_relocates fun _ => .ite function
    (.bind (primary_relocates relocates) fun _ =>
      .bounded fun steps => applications_relocates relocates steps _)

/-- Operands after plus signs. -/
theorem sums_relocates (relocates : Relocates move nested inner) (steps : Nat)
    (left : Expression) :
    Relocates move (sums nested steps left) (sums inner steps (relocate move left)) := by
  induction steps generalizing left with
  | zero => exact .pure _
  | succ steps inductionHypothesis =>
      refine .bind (.matched _) fun operator => ?_
      cases operator with
      | none => exact .pure _
      | some operator =>
          refine .bind (operand_relocates relocates) fun right => ?_
          rw [Expression.offset_relocate]
          exact inductionHypothesis (.binary left.offset left operator.text right)

/-- A conditional. -/
theorem conditional_relocates (relocates : Relocates move nested inner) :
    Relocates move (conditional nested) (conditional inner) := by
  have sum : Relocates move (binary nested) (binary inner) :=
    .bind (operand_relocates relocates) fun _ =>
      .bounded fun steps => sums_relocates relocates steps _
  refine .bind sum fun test => .bind (.accept _) fun _ => .ite (.bind relocates fun consequent =>
    .bind (.expect _ _) fun _ => .bind relocates fun alternate => ?_) (.pure _)
  rw [Expression.offset_relocate]
  exact .pure (Expression.conditional test.offset test consequent alternate)

end Expressions

/-- Expressions. -/
theorem expression_relocates : Relocates move expression expression := by
  refine .bounded fun depth => ?_
  induction depth with
  | zero => exact .unexpected _
  | succ depth inductionHypothesis => exact conditional_relocates inductionHypothesis

/-- Programs. -/
theorem program_relocates : Relocates move program program :=
  .bind (.bounded (statements_relocates expression_relocates false _)) fun body =>
    .pure (Program.mk 0 body)

end Parser

/-- The tree of relocated tokens is the relocated tree, and their diagnostics are the
relocated ones. The mark of the end is one of the tokens. -/
theorem parseProgram_relocate (move : Int → Int) {tokens : List Token} {mark : Token}
    (final : tokens.getLast? = some mark) (kind : mark.kind = .endOfFile) :
    parseProgram (relocate move tokens) = relocate move (parseProgram tokens) := by
  have last : (relocate move tokens).getLast? = some (relocate move mark) := by
    change (tokens.map (relocate move)).getLast? = _
    rw [List.getLast?_map, final]
    rfl
  have start : Cursor.start (relocate move tokens) = relocate move (Cursor.start tokens) := by
    rw [Cursor.start_ended last kind, Cursor.start_ended final kind]
    rfl
  unfold parseProgram
  rw [start, Parser.program_relocates]
  rcases Parser.program.runAt (.start tokens) with ⟨diagnostic | program, after⟩
  · exact congrArg (Prod.mk (Program.mk 0 []))
      (relocate_append move after.diagnostics [diagnostic]).symm
  · rfl

end ArrowScript
