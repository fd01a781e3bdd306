import ArrowScript.Proofs.Parser.Spending
import ArrowScript.Tree.Statements

/-!
# Parsing makes progress

Every statement of a program and every syntax diagnostic is paid for with a token of its own.
A statement pays with its keyword, and so does an error inside it. An error at a token that
begins no statement is paid for with that token, which the parser skips.

Two places are special. After an error in a block the closing brace may be left, and the
block around is what passes it. The mark of the end is never passed, so each block that is
still open there reports it again; what pays for that are the keywords of the statements
around.
-/

namespace ArrowScript

namespace Parser

variable {mark token : Token} {credit more : Nat} {cursor : Cursor}

/-! ## Statements -/

/-- The statements in several expressions are those in each of them. -/
theorem statementsOf_length (depth : Nat) (trees : List Expression) :
    (Expression.statementsOf depth trees).length =
      together (fun tree => (tree.statements depth).length) trees := by
  induction trees with
  | nil => rfl
  | cons tree trees inductionHypothesis =>
    rw [Expression.statementsOf, List.length_append, inductionHypothesis, together]

/-- The statements that some list are listed before those that the others list. -/
theorem listed_append (depth : Nat) (some others : List Statement) :
    Statement.listed depth (some ++ others) =
      Statement.listed depth some ++ Statement.listed depth others := by
  induction some with
  | nil => rfl
  | cons tree trees inductionHypothesis =>
    simp only [List.cons_append, Statement.listed, inductionHypothesis, List.append_assoc]

section Expressions

variable {nested : Parser Expression} {inBlock : Bool} {tail : List Token} {depth : Nat}

/-- The statements in an expression that a parser returns are paid for. -/
def PaysInside (mark : Token) (parser : Parser Expression) : Prop :=
  ∀ depth, Pays mark 0 parser fun tree => (tree.statements depth).length

/-- A `const` declaration behind its keyword, which pays for it. -/
theorem constDeclaration_outlay (pays : PaysInside mark nested) (depth : Nat)
    (faces : cursor.Faces mark) (ahead : cursor.rest = token :: tail)
    (kind : token.kind ≠ .endOfFile) :
    Outlay mark 1 (fun tree => (Statement.listed depth [tree]).length) { cursor with rest := tail }
      ((constDeclaration nested).runAt cursor) := by
  have passed : Passed cursor.rest tail := ahead ▸ .cons kind (.refl tail)
  unfold constDeclaration
  rw [runAt_bind_ok (runAt_advance ahead kind)]
  apply Pays.free (.expect .identifier _)
  · intro name
    apply annotated_pays (ascription_pays true)
    intro annotated
    apply Pays.free (.expect .equal _)
    intro equal
    apply Pays.bind (pays depth)
    intro initial
    apply Pays.free (.accept .semicolon)
    intro closing
    apply Pays.pure
    simp only [Statement.listed, Statement.inside, List.append_nil, List.length_cons]
    omega
  · exact faces.passed passed

/-- A `return` statement behind its keyword, which pays for it. -/
theorem returnStatement_outlay (pays : PaysInside mark nested) (depth : Nat)
    (faces : cursor.Faces mark) (ahead : cursor.rest = token :: tail)
    (kind : token.kind ≠ .endOfFile) :
    Outlay mark 1 (fun tree => (Statement.listed depth [tree]).length) { cursor with rest := tail }
      ((returnStatement nested).runAt cursor) := by
  have passed : Passed cursor.rest tail := ahead ▸ .cons kind (.refl tail)
  have ended (argument : Option Expression) :
      Pays mark (1 + (Statement.inside depth (.returning token.offset argument)).length)
        (accept .semicolon >>= fun _ => pure (Statement.returning token.offset argument))
        fun tree => (Statement.listed depth [tree]).length := by
    apply Pays.free (.accept .semicolon)
    intro closing
    apply Pays.pure
    simp only [Statement.listed, List.append_nil, List.length_cons]
    omega
  have present : Pays mark 0 (some <$> nested) fun argument =>
      (Statement.inside depth (.returning token.offset argument)).length := .map (pays depth)
  have absent : Pays mark 0 (pure none) fun argument =>
      (Statement.inside depth (.returning token.offset argument)).length := .pure (Nat.le_refl 0)
  unfold returnStatement
  rw [runAt_bind_ok (runAt_advance ahead kind)]
  apply Pays.free (.check returnTerminators)
  · intro terminated
    apply Pays.ite
    · exact .bind absent ended
    · exact .bind present ended
  · exact faces.passed passed

/-- A statement is paid for with its keyword, which is passed even if there is an error in the
statement. Without a keyword it fails at once. -/
theorem statement_outlay (pays : PaysInside mark nested) (depth : Nat)
    (faces : cursor.Faces mark) (ahead : cursor.rest = token :: tail)
    (kind : token.kind ≠ .endOfFile) :
    (∃ diagnostic, (statement nested).runAt cursor = (.error diagnostic, cursor) ∧
        diagnostic.offset = token.offset) ∨
      Outlay mark 1 (fun tree => (Statement.listed depth [tree]).length)
        { cursor with rest := tail } ((statement nested).runAt cursor) := by
  unfold statement
  rw [runAt_bind_ok (runAt_check ahead)]
  split
  next => exact .inr (constDeclaration_outlay pays depth faces ahead kind)
  next =>
    rw [runAt_bind_ok (runAt_check ahead)]
    split
    next => exact .inr (returnStatement_outlay pays depth faces ahead kind)
    next => exact .inl ⟨_, rfl, by rw [ahead_cons ahead]⟩

/-- What has been spent when the loop over statements stops. After an error in a block it may
stop before a closing brace; then the account is even behind the brace. -/
inductive Stopped (mark : Token) (inBlock : Bool) (weight : Nat) (before after : Cursor) : Prop
  | spent (spent : Spent mark 0 weight before after)
  | brace {brace : Token} {left : List Token} (block : inBlock = true)
      (ahead : after.rest = brace :: left) (kind : brace.kind = .rightCurly)
      (spent : Spent mark 0 weight before { after with rest := left })

/-- What has been paid for before the loop is still paid for when it stops. -/
theorem Stopped.behind {before middle after : Cursor} {weight further : Nat}
    (first : Spent mark 0 weight before middle)
    (stopped : Stopped mark inBlock further middle after) :
    Stopped mark inBlock (weight + further) before after := by
  cases stopped with
  | spent spent => exact .spent (first.trans (spent.frame weight))
  | brace block ahead kind spent => exact .brace block ahead kind (first.trans (spent.frame weight))

/-- Where the parser skips the token at which there was an error, that token pays for the
diagnostic. -/
theorem recovered_spent {diagnostic : Diagnostic} (ahead : cursor.rest = token :: tail)
    (here : diagnostic.offset = token.offset) (kind : token.kind ≠ .endOfFile)
    (inside : inBlock = true → token.kind ≠ .rightCurly) :
    Spent mark 0 0 cursor { cursor with
      rest := recoveryPoint inBlock 0 cursor.rest
      diagnostics := cursor.diagnostics ++ [diagnostic] } := by
  have reported : Spent mark 0 0 cursor _ := .report ahead kind here
  have passed : Passed tail (recoveryPoint inBlock 0 cursor.rest) :=
    ahead ▸ recoveryPoint_passes kind inside tail
  exact reported.trans (.pass passed)

/-- After a statement that has passed a token there may be an error anywhere. -/
theorem recovered_stopped {diagnostic : Diagnostic} {middle : Cursor} (faces : middle.Faces mark)
    (ahead : middle.rest = token :: tail) (here : diagnostic.offset = token.offset)
    (spent : Spent mark 0 1 cursor middle) :
    Stopped mark inBlock 0 cursor { middle with
      rest := recoveryPoint inBlock 0 middle.rest
      diagnostics := middle.diagnostics ++ [diagnostic] } := by
  have before : Spent mark 0 0 cursor middle := spent.mono (Nat.zero_le 1) (Nat.le_refl 0)
  by_cases kind : token.kind = .endOfFile
  · have stays : recoveryPoint inBlock 0 middle.rest = middle.rest := by
      rw [ahead, recoveryPoint, kind]
    have reported := Spent.report_mark faces ahead kind here
    rw [stays]
    exact .spent (spent.trans reported)
  by_cases closing : inBlock = true ∧ token.kind = .rightCurly
  · obtain ⟨rfl, brace⟩ := closing
    have stays : recoveryPoint true 0 middle.rest = token :: tail := by
      rw [ahead, recoveryPoint, brace]
      rfl
    exact .brace rfl stays brace (before.trans (.report ahead kind here))
  · have inside : inBlock = true → token.kind ≠ .rightCurly := fun block brace =>
      closing ⟨block, brace⟩
    exact .spent (before.trans (recovered_spent ahead here kind inside))

/-- A round of the loop over statements is paid for with the tokens that it passes. -/
theorem recovering_stopped (pays : PaysInside mark nested) (depth : Nat)
    (faces : cursor.Faces mark) (ahead : cursor.rest = token :: tail)
    (kind : token.kind ≠ .endOfFile) (inside : inBlock = true → token.kind ≠ .rightCurly) :
    ∃ first after, (recovering nested inBlock).runAt cursor = (.ok first, after) ∧
      Stopped mark inBlock (Statement.listed depth first.toList).length cursor after := by
  rw [runAt_recovering]
  rcases statement_outlay pays depth faces ahead kind with ⟨diagnostic, failed, here⟩ | outlay
  · rw [failed]
    exact ⟨none, _, rfl, .spent (recovered_spent ahead here kind inside)⟩
  have keyword : Spent mark 0 1 cursor { cursor with rest := tail } := .take ahead kind
  rcases ran : (statement nested).runAt cursor with ⟨diagnostic | tree, after⟩
  · rw [ran] at outlay
    obtain ⟨spent, found, left, aheadFound, here⟩ := outlay
    have behind : Spent mark 0 1 cursor after := keyword.trans (spent.frame 1)
    exact ⟨none, _, rfl, recovered_stopped (faces.passed behind.passed) aheadFound here behind⟩
  · rw [ran] at outlay
    exact ⟨some tree, after, rfl, .spent (keyword.trans outlay)⟩

/-- The loop over statements stops before a token that ends them. -/
theorem statements_stop {ends : List TokenKind} (ahead : cursor.rest = token :: tail)
    (among : token.kind ∈ ends) (steps : Nat) :
    (statements nested inBlock ends steps).runAt cursor = (.ok [], cursor) := by
  cases steps with
  | zero => rfl
  | succ steps =>
    unfold statements
    rw [runAt_bind_ok (runAt_check ahead), if_pos (List.contains_iff_mem.mpr among)]
    rfl

/-- The statements that the loop returns and the diagnostics that it leaves are paid for with
the tokens that it passes. -/
theorem statements_stopped {ends : List TokenKind} (marks : .endOfFile ∈ ends)
    (closes : inBlock = true → .rightCurly ∈ ends) (pays : PaysInside mark nested) (depth : Nat)
    (steps : Nat) (faces : cursor.Faces mark) :
    ∃ trees after, (statements nested inBlock ends steps).runAt cursor = (.ok trees, after) ∧
      Stopped mark inBlock (Statement.listed depth trees).length cursor after := by
  have nothing (cursor : Cursor) :
      Stopped mark inBlock (Statement.listed depth []).length cursor cursor :=
    .spent (.refl (Nat.le_refl 0) cursor)
  induction steps generalizing cursor with
  | zero => exact ⟨[], cursor, rfl, nothing cursor⟩
  | succ steps inductionHypothesis =>
    obtain ⟨token, tail, ahead⟩ := faces.sealed.exists_cons
    by_cases among : token.kind ∈ ends
    · exact ⟨[], cursor, statements_stop ahead among _, nothing cursor⟩
    have absent : ¬ends.contains token.kind = true := fun found =>
      among (List.contains_iff_mem.mp found)
    have missing {kind : TokenKind} (listed : kind ∈ ends) : token.kind ≠ kind := fun same =>
      among (same ▸ listed)
    unfold statements
    rw [runAt_bind_ok (runAt_check ahead), if_neg absent]
    by_cases semicolon : token.kind = .semicolon
    · have taken := Consumes.accept (by decide) semicolon tail cursor ahead
      have skipped : Spent mark 0 0 cursor { cursor with rest := tail } :=
        .pass (ahead ▸ .cons (missing marks) (.refl tail))
      obtain ⟨trees, after, ran, stopped⟩ := inductionHypothesis (faces.passed skipped.passed)
      have whole := stopped.behind skipped
      rw [Nat.zero_add] at whole
      rw [runAt_bind_ok taken, if_pos rfl]
      exact ⟨trees, after, ran, whole⟩
    · have left : Next (· ≠ .semicolon) (token :: tail) := .of_cons semicolon
      have declined := Consumes.reject left cursor ahead
      obtain ⟨first, middle, ranFirst, stopped⟩ := recovering_stopped pays depth faces ahead
        (missing marks) fun block => missing (closes block)
      rw [runAt_bind_ok declined, if_neg Bool.false_ne_true, cursor_eq ahead,
        runAt_bind_ok ranFirst]
      cases stopped with
      | spent spent =>
        obtain ⟨trees, after, ran, further⟩ := inductionHypothesis (faces.passed spent.passed)
        rw [runAt_bind_ok ran]
        refine ⟨first.toList ++ trees, after, rfl, ?_⟩
        rw [listed_append, List.length_append]
        exact further.behind spent
      | brace block found kind spent =>
        -- the brace ends the statements, so the loop has nothing left to read
        rw [runAt_bind_ok (statements_stop found (kind ▸ closes block) steps)]
        refine ⟨first.toList ++ [], middle, rfl, ?_⟩
        rw [List.append_nil]
        exact .brace block found kind spent

/-- A block. Its closing brace is passed by the block itself, also after an error. -/
theorem block_pays (pays : PaysInside mark nested) (depth : Nat) :
    Pays mark 0 (block nested) fun body => (Statement.listed depth body.statements).length := by
  apply Pays.free (.expect .leftCurly _)
  intro opening before faces
  have marks : TokenKind.endOfFile ∈ [TokenKind.rightCurly, .endOfFile] := by decide
  have closes : true = true → TokenKind.rightCurly ∈ [TokenKind.rightCurly, .endOfFile] := by
    decide
  have loop := statements_stopped marks closes pays depth (before.rest.length + 1) faces
  obtain ⟨body, middle, ran, stopped⟩ := loop
  have bounded : (bounded (statements nested true [.rightCurly, .endOfFile])).runAt before =
      (.ok body, middle) := ran
  rw [runAt_bind_ok bounded]
  cases stopped with
  | spent spent =>
    have closed : Pays mark (0 + (Statement.listed depth body).length)
        (expect .rightCurly >>= fun _ =>
          pure { offset := opening.offset, statements := body : Block })
        fun body => (Statement.listed depth body.statements).length := by
      apply Pays.free (.expect .rightCurly _)
      intro closing
      exact .pure (Nat.le_of_eq (Nat.zero_add _).symm)
    exact (closed middle (faces.passed spent.passed)).behind spent
  | brace _ ahead kind spent =>
    have taken : (expect .rightCurly).runAt middle = _ :=
      Consumes.expect (by decide) kind _ middle ahead
    rw [runAt_bind_ok taken]
    exact spent

/-! ## Expressions -/

/-- An arrow function. -/
theorem arrowFunction_pays (pays : PaysInside mark nested) :
    PaysInside mark (arrowFunction nested) := by
  intro depth
  apply Pays.free (.peek 0)
  intro opening
  apply Pays.free (arrowHead_pays true)
  rintro ⟨params, result⟩
  apply Pays.free (.expect .arrow _)
  intro arrow
  apply Pays.free (.check [.leftCurly])
  intro opens
  apply Pays.ite
  · apply Pays.bind (block_pays pays (depth + 1))
    rintro ⟨offset, body⟩
    exact .pure (Nat.le_of_eq (Nat.zero_add _).symm)
  · apply Pays.look
    intro token
    exact .throw .expressionBodyRejected

/-- A primary expression. -/
theorem primary_pays (pays : PaysInside mark nested) : PaysInside mark (primary nested) := by
  intro depth
  have leaf (tree : Expression) (empty : tree.statements depth = []) :
      Pays mark 0 (pure tree) fun tree => (tree.statements depth).length :=
    .pure (Nat.le_of_eq (congrArg List.length empty))
  apply Pays.free (.peek 0)
  intro token
  split
  next =>
    apply Pays.free .advance
    intro taken
    split
    next => exact leaf _ rfl
    next => exact leaf _ rfl
  next => exact .free .advance fun _ => leaf _ rfl
  next => exact .free .advance fun _ => leaf _ rfl
  next => exact .free .advance fun _ => leaf _ rfl
  next => exact .free .advance fun _ => leaf _ rfl
  next =>
    apply Pays.free .advance
    intro opening
    apply Pays.bind (itemsUntil_pays (pays depth) .rightBracket)
    intro elements
    apply Pays.pure
    rw [Expression.statements, statementsOf_length]
    omega
  next =>
    apply Pays.free .advance
    intro opening
    apply Pays.bind (pays depth)
    intro inner
    apply Pays.free (.expect .rightParen _)
    intro closing
    exact .pure (Nat.le_of_eq (Nat.zero_add _).symm)
  next => exact .unexpected _

/-- What is applied to an operand that has been paid for. -/
theorem applications_pays (pays : PaysInside mark nested) (steps : Nat) (applied : Expression) :
    Pays mark (applied.statements depth).length (applications nested steps applied)
      fun tree => (tree.statements depth).length := by
  induction steps generalizing applied with
  | zero => exact .pure (Nat.le_refl _)
  | succ steps inductionHypothesis =>
    apply Pays.free (.accept .leftParen)
    intro call
    apply Pays.ite
    · apply Pays.bind (itemsUntil_pays (pays depth) .rightParen)
      intro arguments
      apply (inductionHypothesis _).mono (fun _ => Nat.le_refl _)
      exact Nat.le_of_eq
        (by rw [Expression.statements, List.length_append, statementsOf_length])
    apply Pays.free (.accept .leftBracket)
    intro member
    apply Pays.ite
    · apply Pays.bind (pays depth)
      intro index
      apply Pays.free (.expect .rightBracket _)
      intro closing
      apply (inductionHypothesis _).mono (fun _ => Nat.le_refl _)
      exact Nat.le_of_eq (by rw [Expression.statements, List.length_append])
    · exact .pure (Nat.le_refl _)

/-- An operand. -/
theorem operand_pays (pays : PaysInside mark nested) : PaysInside mark (operand nested) := by
  intro depth
  apply Pays.free (.check [.leftParen])
  intro opens
  apply Pays.free arrowAhead_pays
  intro found
  apply Pays.ite
  · exact arrowFunction_pays pays depth
  · apply Pays.bind (primary_pays pays depth)
    intro first
    apply Pays.bounded
    intro steps
    rw [Nat.zero_add]
    exact applications_pays pays steps first

/-- Operands after plus signs, behind one that has been paid for. -/
theorem sums_pays (pays : PaysInside mark nested) (steps : Nat) (left : Expression) :
    Pays mark (left.statements depth).length (sums nested steps left)
      fun tree => (tree.statements depth).length := by
  induction steps generalizing left with
  | zero => exact .pure (Nat.le_refl _)
  | succ steps inductionHypothesis =>
    apply Pays.free (.matched [.plus])
    intro operator
    cases operator with
    | none => exact .pure (Nat.le_refl _)
    | some operator =>
      apply Pays.bind (operand_pays pays depth)
      intro right
      apply (inductionHypothesis _).mono (fun _ => Nat.le_refl _)
      exact Nat.le_of_eq (by rw [Expression.statements, List.length_append])

/-- A conditional. -/
theorem conditional_pays (pays : PaysInside mark nested) :
    PaysInside mark (conditional nested) := by
  intro depth
  have sum : Pays mark 0 (binary nested) fun tree => (tree.statements depth).length := by
    apply Pays.bind (operand_pays pays depth)
    intro first
    apply Pays.bounded
    intro steps
    rw [Nat.zero_add]
    exact sums_pays pays steps first
  apply Pays.bind sum
  intro test
  apply Pays.free (.accept .question)
  intro asks
  apply Pays.ite
  · apply Pays.bind (pays depth)
    intro consequent
    apply Pays.free (.expect .colon _)
    intro colon
    apply Pays.bind (pays depth)
    intro alternate
    apply Pays.pure
    simp only [Expression.statements, List.length_append]
    omega
  · exact .pure (Nat.le_of_eq (Nat.zero_add _).symm)

end Expressions

/-- Expressions of any depth. -/
theorem expression_pays (mark : Token) : PaysInside mark expression := by
  intro level
  apply Pays.bounded
  intro depth
  induction depth generalizing level with
  | zero => exact .unexpected _
  | succ depth inductionHypothesis => exact conditional_pays inductionHypothesis level

/-- At the top level no brace ends the statements, so the account is even at their end. -/
theorem topLevel_spent (faces : cursor.Faces mark) :
    ∃ trees after, topLevel.runAt cursor = (.ok trees, after) ∧
      Spent mark 0 (Statement.listed 0 trees).length cursor after := by
  have marks : TokenKind.endOfFile ∈ [TokenKind.endOfFile] := List.mem_singleton_self _
  have closes : false = true → TokenKind.rightCurly ∈ [TokenKind.endOfFile] := nofun
  obtain ⟨trees, after, ran, stopped⟩ :=
    statements_stopped marks closes (expression_pays mark) 0 (cursor.rest.length + 1) faces
  cases stopped with
  | spent spent => exact ⟨trees, after, ran, spent⟩
  | brace block => exact absurd block Bool.false_ne_true

end Parser

/-! ## Programs -/

/-- Where offsets rise from token to token, those of a stream do so up to a mark at its end,
which may stand at the offset of the token before it. -/
theorem Cursor.stream_rises {tokens : List Token}
    (increasing : tokens.Pairwise (·.offset < ·.offset)) :
    (stream tokens).Pairwise fun first second => first.offset ≤ second.offset ∧
      (first.offset = second.offset → second.kind = .endOfFile) := by
  have rising : tokens.Pairwise fun first second => first.offset ≤ second.offset ∧
      (first.offset = second.offset → second.kind = .endOfFile) := by
    apply increasing.imp
    intro first second less
    exact ⟨Int.le_of_lt less, fun same => absurd same (Int.ne_of_lt less)⟩
  unfold stream
  split
  next => exact List.pairwise_singleton _ _
  next last final =>
    split
    next => exact rising
    next =>
      apply List.pairwise_append.mpr
      refine ⟨rising, List.pairwise_singleton _ _, ?_⟩
      intro token among added isAdded
      obtain rfl := List.mem_singleton.mp isAdded
      obtain ⟨before, rfl⟩ := List.getLast?_eq_some_iff.mp final
      refine ⟨?_, fun _ => rfl⟩
      rcases List.mem_append.mp among with earlier | here
      · exact ((List.pairwise_append.mp rising).2.2 token earlier last List.mem_cons_self).1
      · rw [List.mem_singleton.mp here]
        exact Int.le_refl last.offset

/-- Up to the first mark of a stream whose tokens rise, offsets ascend. -/
theorem Ascending.of_rising {lexemes behind : List Token} {mark : Token}
    (lexical : ∀ token ∈ lexemes, token.kind ≠ .endOfFile)
    (rising : (lexemes ++ mark :: behind).Pairwise fun first second =>
      first.offset ≤ second.offset ∧
        (first.offset = second.offset → second.kind = .endOfFile)) :
    Ascending mark.offset (lexemes.map (·.offset) ++ [mark.offset]) := by
  have front : (lexemes ++ [mark]).Sublist (lexemes ++ mark :: behind) :=
    (List.singleton_sublist.mpr List.mem_cons_self).append_left lexemes
  have ascending : ((lexemes ++ [mark]).map (·.offset)).Pairwise fun first second =>
      first ≤ second ∧ (first = second → second = mark.offset) := by
    apply List.pairwise_map.mpr
    apply (rising.sublist front).imp_of_mem
    intro first second _ among order
    refine ⟨order.1, fun same => ?_⟩
    rcases List.mem_append.mp among with before | here
    · exact absurd (order.2 same) (lexical second before)
    · rw [List.mem_singleton.mp here]
  rwa [List.map_append, List.map_singleton] at ascending

/-- What parsing a stream comes to. The run ends before the first mark of the end, whatever is
behind it. No bound on nested or repeated steps has cut it short, neither one of the whole run
nor one of a rule inside it. The tokens before the mark pay for all statements and diagnostics,
and the diagnostics are in the order of the tokens. -/
structure Completed (tokens lexemes : List Token) (mark : Token) (behind : List Token)
    (after : Cursor) : Prop where
  split : Cursor.stream tokens = lexemes ++ mark :: behind
  lexical : ∀ token ∈ lexemes, token.kind ≠ .endOfFile
  kind : mark.kind = .endOfFile
  ran : Parser.program.runAt (.start tokens) = (.ok (parseProgram tokens).1, after)
  reported : after.diagnostics = (parseProgram tokens).2
  stops : after.rest = mark :: behind
  position : after.position (Cursor.stream tokens) = lexemes.length
  endless : ∀ {depth steps : Nat}, (Cursor.stream tokens).length < depth →
    (Cursor.stream tokens).length < steps →
    (Parser.statements (Parser.expressionWithin depth) false [.endOfFile] steps).runAt
      (.start tokens) = (.ok (parseProgram tokens).1.body, after)
  unbounded : Parser.Unbounded (Cursor.stream tokens).length
  paid : (parseProgram tokens).1.statements.length + (parseProgram tokens).2.length ≤
    lexemes.length
  ordered : tokens.Pairwise (·.offset < ·.offset) →
    (parseProgram tokens).2.Pairwise fun first second => first.offset ≤ second.offset ∧
      (first.offset = second.offset → second.offset = mark.offset)

/-- Parsing always makes progress. -/
theorem parseProgram_completes (tokens : List Token) :
    ∃ lexemes mark behind after, Completed tokens lexemes mark behind after := by
  obtain ⟨last, final, isMark⟩ := Cursor.stream_ended tokens
  have ended : Sealed (Cursor.start tokens).rest := ⟨last, List.mem_of_getLast? final, isMark⟩
  have marked : ((Cursor.stream tokens).find? (·.kind = .endOfFile)).isSome := by
    rw [List.find?_isSome]
    exact ⟨last, List.mem_of_getLast? final, by simpa using isMark⟩
  obtain ⟨mark, first⟩ := Option.isSome_iff_exists.mp marked
  have faces : (Cursor.start tokens).Faces mark := first
  obtain ⟨trees, after, ran, spent⟩ := Parser.topLevel_spent faces
  obtain ⟨_, _, token, behind, again, stops, kind⟩ := Parser.topLevel_ends ended
  obtain ⟨-, rfl⟩ := Prod.mk.inj (ran.symm.trans again)
  obtain rfl := (faces.passed spent.passed).eq stops kind
  obtain ⟨front, cut, lexical⟩ := spent.passed
  have split : Cursor.stream tokens = front ++ token :: behind := stops ▸ cut
  have ahead : lexemes (Cursor.stream tokens) = front := by
    rw [split, lexemes_append lexical, lexemes_mark kind, List.append_nil]
  have parsed := parseProgram_eq ran
  refine ⟨front, token, behind, after, ?_⟩
  constructor
  case split => exact split
  case lexical => exact lexical
  case kind => exact kind
  case ran => exact parsed ▸ Parser.runAt_bind_ok ran _
  case reported => rw [parsed]
  case stops => exact stops
  case position =>
    have placed : after.displacement = 0 := spent.placed
    rw [Cursor.position, placed, stops, split, List.length_append]
    omega
  case endless =>
    intro depth steps deep many
    have marks : TokenKind.endOfFile ∈ [TokenKind.endOfFile] := List.mem_singleton_self _
    have closes : false = true → TokenKind.rightCurly ∈ [TokenKind.endOfFile] := nofun
    have loops := Parser.statements_agrees marks closes (Parser.expression_agrees deep)
      (Nat.le_succ _) (Nat.lt_succ_self _) many
    rw [parsed, ← ran]
    exact (loops _ ended (Nat.le_refl _) (.start tokens) rfl).1
  case unbounded => exact Parser.unbounded _
  case paid =>
    have paid := spent.paid
    have before : (Cursor.start tokens).potential = 0 + front.length := by rw [← ahead]; rfl
    have left : after.potential = after.diagnostics.length := by
      rw [Cursor.potential, stops, lexemes_mark kind, List.length_nil, Nat.add_zero]
    rw [before, left] at paid
    rw [parsed]
    change (Statement.listed 0 trees).length + after.diagnostics.length ≤ front.length
    omega
  case ordered =>
    intro increasing
    have rising := Cursor.stream_rises increasing
    rw [split] at rising
    have start : (Cursor.start tokens).trail token = front.map (·.offset) ++ [token.offset] := by
      rw [← ahead]; rfl
    have ascending := spent.ascending (start ▸ .of_rising lexical rising)
    rw [Cursor.trail, List.append_assoc] at ascending
    have diagnostics := (List.pairwise_append.mp ascending).1
    rw [parsed]
    exact List.pairwise_map.mp diagnostics

/-- The tokens of `const f = () => { const g = () => { return`, which stop within two blocks, and
some behind a mark of the end. -/
def unclosedBlocks : List Token :=
  [⟨.constKeyword, .text "const", 0⟩, ⟨.identifier, .text "f", 6⟩, ⟨.equal, .text "=", 8⟩,
    ⟨.leftParen, .text "(", 10⟩, ⟨.rightParen, .text ")", 11⟩, ⟨.arrow, .text "=>", 13⟩,
    ⟨.leftCurly, .text "\x7b", 16⟩, ⟨.constKeyword, .text "const", 18⟩,
    ⟨.identifier, .text "g", 24⟩, ⟨.equal, .text "=", 26⟩, ⟨.leftParen, .text "(", 28⟩,
    ⟨.rightParen, .text ")", 29⟩, ⟨.arrow, .text "=>", 31⟩, ⟨.leftCurly, .text "\x7b", 34⟩,
    ⟨.returnKeyword, .text "return", 36⟩, .atEnd 42, ⟨.semicolon, .text ";", 43⟩]

/-- Both blocks report the end, and neither takes the statements inside it along. -/
theorem parseProgram_completes_unclosed :
    unclosedBlocks.Pairwise (·.offset < ·.offset) ∧
      (∃ lexemes mark behind after, Completed unclosedBlocks lexemes mark behind after) ∧
      (parseProgram unclosedBlocks).2.map (·.offset) = [42, 42] :=
  ⟨by decide, parseProgram_completes unclosedBlocks, by decide +kernel⟩

end ArrowScript
