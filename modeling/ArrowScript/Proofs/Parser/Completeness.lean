import ArrowScript.Proofs.Parser.Lookahead

/-!
# Programs are read as the grammar derives them

Every expression that the grammar derives is consumed by the parser before anything that
may follow it, and so are the statements of a program before its end. The parser for the
expressions inside a rule is known to consume those of at most so many tokens; the rule
then consumes what has one token more, and the knot is tied by induction on the depth.

The parser decides for some tokens otherwise than a derivation may. A semicolon behind a
statement without one can be derived as a stray one, but the parser takes it into the
statement. The tree is the same.
-/

namespace ArrowScript.Parser

open Grammar

/-- What may follow an expression. -/
structure Ends (rest : List Token) : Prop extends Stops rest where
  loose : Next (· ∉ [.plus, .question]) rest

/-- The tokens that are neither part of an expression nor a colon may follow one. -/
theorem Ends.of_next {rest : List Token}
    (next : Next (· ∉ [.leftParen, .leftBracket, .arrow, .plus, .question, .colon]) rest) :
    Ends rest where
  toStops := .of_next (next.fewer (by decide))
  loose := next.fewer (by decide)

variable {nested : Parser Expression} {limit : Nat} {tokens rest : List Token}

/-- Expressions in a list are consumed before a comma or the end of the list. -/
theorem elements_accept {closing : TokenKind}
    (apart : closing ∉ [.leftParen, .leftBracket, .arrow, .plus, .question, .colon])
    (accepts : Accepts nested ExpressionOf limit Ends) :
    Accepts nested ExpressionOf limit (Next fun kind => kind = .comma ∨ kind = closing) := by
  intro tokens rest tree derived short follow
  refine accepts derived short (.of_next (follow.mono ?_))
  rintro _ (rfl | rfl)
  · decide
  · exact apart

/-- Expressions in a list are consumed with the token that closes it. -/
theorem expressionList_consumes {token : Token} {closing : TokenKind} {trees : List Expression}
    (apart : closing ∉ [.leftParen, .leftBracket, .arrow, .plus, .question, .colon])
    (ends : closing ∉ [.comma, .endOfFile]) (outside : closing ∉ starters)
    (accepts : Accepts nested ExpressionOf limit Ends)
    (derived : Enumeration ExpressionOf tokens trees) (short : tokens.length ≤ limit)
    (closes : token.kind = closing) (rest : List Token) :
    Consumes (expressionList nested closing) (tokens ++ [token]) rest trees := by
  refine itemsUntil_consumes (elements_accept apart accepts) ?_ ?_ ?_ derived short closes rest
  · intro tokens tree derived
    refine (expression_next derived).mono ?_
    rintro _ among rfl
    exact outside among
  · rintro rfl
    exact ends (by decide)
  · rintro rfl
    exact ends (by decide)

/-- A primary expression is consumed whatever follows it. -/
theorem primary_consumes {tree : Expression} (accepts : Accepts nested ExpressionOf limit Ends)
    (derived : PrimaryOf tokens tree) (short : tokens.length ≤ limit + 1) (rest : List Token) :
    Consumes (primary nested) tokens rest tree := by
  have lexeme {token : Token} {kind : TokenKind} (same : token.kind = kind)
      (other : kind ≠ .endOfFile) : token.kind ≠ .endOfFile := same ▸ other
  cases derived with
  | number kind denotes =>
      refine .look rfl ?_
      simp only [kind, denotes]
      exact .take (lexeme kind (by decide)) (.pure _ rest)
  | string kind =>
      refine .look rfl ?_
      simp only [kind]
      exact .take (lexeme kind (by decide)) (.pure _ rest)
  | truth kind denotes =>
      refine .look rfl ?_
      simp only [kind, denotes]
      exact .take (lexeme kind (by decide)) (.pure _ rest)
  | falsity kind denotes =>
      refine .look rfl ?_
      simp only [kind, denotes]
      exact .take (lexeme kind (by decide)) (.pure _ rest)
  | identifier kind =>
      refine .look rfl ?_
      simp only [kind]
      exact .take (lexeme kind (by decide)) (.pure _ rest)
  | array opens items closes =>
      simp only [List.cons_append, List.length_cons, List.length_append] at short
      refine .look rfl ?_
      simp only [opens]
      exact .take (lexeme opens (by decide)) (expressionList_consumes (by decide) (by decide)
        (by decide) accepts items (by omega) closes rest).last
  | @parenthesized opening closing inner tree opens inside closes =>
      simp only [List.cons_append, List.length_cons, List.length_append] at short
      have ends : Ends ([closing] ++ rest) := .of_next (.of_cons (by rw [closes]; decide))
      have taken := accepts inside (by omega) ends
      refine .look rfl ?_
      simp only [opens]
      exact .take (lexeme opens (by decide)) (taken.bind
        (.expected (by decide) closes (.pure _ rest)))

/-- What is applied to an operand is consumed up to what may follow it. -/
theorem applications_consumes {applied tree : Expression} {steps : Nat}
    (accepts : Accepts nested ExpressionOf limit Ends)
    (derived : Applications ExpressionOf tokens applied tree) (short : tokens.length ≤ limit + 1)
    (enough : tokens.length ≤ steps) (next : Next (· ∉ [.leftParen, .leftBracket]) rest) :
    Consumes (applications nested steps applied) tokens rest tree := by
  induction derived generalizing steps with
  | none =>
      cases steps with
      | zero => exact .pure _ rest
      | succ steps =>
          exact .declined (next.ne (by decide)) (.declined (next.ne (by decide)) (.pure _ rest))
  | @call opening closing inner others arguments applied tree opens inputs closes following
      inductionHypothesis =>
      simp only [List.cons_append, List.length_cons, List.length_append] at short enough
      cases steps with
      | zero => omega
      | succ steps =>
          have further := @inductionHypothesis steps (by omega) (by omega)
          have taken := expressionList_consumes (by decide) (by decide) (by decide) accepts inputs
            (by omega) closes (others ++ rest)
          have cut : inner ++ closing :: others = inner ++ [closing] ++ others := by
            rw [List.append_assoc, List.singleton_append]
          refine .accepted (by decide) opens ?_
          change Consumes _ (inner ++ closing :: others) rest tree
          rw [cut]
          exact taken.bind further
  | @index opening closing inner others index applied tree opens inside closes following
      inductionHypothesis =>
      simp only [List.cons_append, List.length_cons, List.length_append] at short enough
      cases steps with
      | zero => omega
      | succ steps =>
          have further := @inductionHypothesis steps (by omega) (by omega)
          have ends : Ends (closing :: others ++ rest) :=
            .of_next (.of_cons (by rw [closes]; decide))
          have taken := accepts inside (by omega) ends
          refine .declined (.of_cons (by rw [opens]; decide)) ?_
          exact .accepted (by decide) opens (taken.bind (.expected (by decide) closes further))

/-! ## Statements -/

/-- What may follow a statement may follow an expression. -/
theorem Ends.of_terminator (next : Next (· ∈ returnTerminators) rest) : Ends rest :=
  .of_next (next.mono (by decide))

/-- A declaration is consumed with the semicolon that it is given. -/
theorem constDeclaration_consumes {keyword name equal : Token}
    {typing ending : List Token} {annotated : Option Ascription} {initial : Expression}
    {found : Bool} (accepts : Accepts nested ExpressionOf limit Ends)
    (kind : keyword.kind = .constKeyword) (names : name.kind = .identifier)
    (types : Optional (AnnotationOf true) typing annotated)
    (equals : equal.kind = .equal) (value : ExpressionOf tokens initial)
    (short : tokens.length ≤ limit) (next : Next (· ∈ returnTerminators) (ending ++ rest))
    (ended : Consumes (accept .semicolon) ending rest found) :
    Consumes (statement nested) (keyword :: name :: typing ++ equal :: tokens ++ ending) rest
      (.constant keyword.offset { offset := name.offset, name := name.text } annotated
        initial) := by
  have strict : true = true → true = true := id
  have taken := accepts value short (.of_terminator next)
  have ends : Next (· ∉ [.colon, .leftBracket]) (equal :: (tokens ++ ending) ++ rest) :=
    .of_cons (by rw [equals]; decide)
  have cut : keyword :: name :: typing ++ equal :: tokens ++ ending =
      keyword :: name :: (typing ++ equal :: (tokens ++ ending)) := by
    simp only [List.cons_append, List.append_assoc]
  rw [cut]
  refine .checked (.of_cons (List.mem_singleton.mpr kind)) (.take (by rw [kind]; decide)
    (.expected (by decide) names (annotated_consumes (ascription_accepts strict _) types
      (Nat.le_refl _) ends (.expected (by decide) equals (taken.bind ended.last)))))

/-- A return is consumed with the semicolon that it is given. -/
theorem returnStatement_consumes {keyword : Token} {ending : List Token}
    {argument : Option Expression} {found : Bool}
    (accepts : Accepts nested ExpressionOf limit Ends) (kind : keyword.kind = .returnKeyword)
    (value : Optional ExpressionOf tokens argument) (short : tokens.length ≤ limit)
    (next : Next (· ∈ returnTerminators) (ending ++ rest))
    (ended : Consumes (accept .semicolon) ending rest found) :
    Consumes (statement nested) (keyword :: tokens ++ ending) rest
      (.returning keyword.offset argument) := by
  refine .unchecked (.of_cons (by rw [kind]; decide)) (.checked
    (.of_cons (List.mem_singleton.mpr kind)) (.take (by rw [kind]; decide) ?_))
  change Consumes _ (tokens ++ ending) rest _
  cases value with
  | absent => exact .checked next ended.last
  | present derived =>
      have starts : Next (· ∉ returnTerminators) (tokens ++ ending ++ rest) := by
        rw [List.append_assoc]
        exact ((expression_next derived).append _).mono (by decide)
      have taken := accepts derived short (.of_terminator next)
      exact .unchecked starts ((taken.map some).bind ended.last)

/-- The end of a statement is consumed unless a semicolon follows one without. -/
theorem closing_consumes {ending : List Token} (closing : Closing .semicolon ending)
    (next : Next (· ∈ returnTerminators) rest) :
    (∃ found, Consumes (accept .semicolon) ending rest found ∧
        Next (· ∈ returnTerminators) (ending ++ rest)) ∨
      ending = [] ∧ ∃ semicolon tail, rest = semicolon :: tail ∧ semicolon.kind = .semicolon := by
  cases closing with
  | absent =>
      obtain ⟨token, tail, rfl, among⟩ := next
      by_cases kind : token.kind = .semicolon
      · exact .inr ⟨rfl, token, tail, rfl, kind⟩
      · exact .inl ⟨false, .reject (.of_cons kind), .of_cons among⟩
  | present same =>
      exact .inl ⟨true, .accept (by decide) same rest, .of_cons (by rw [same]; decide)⟩

/-- A statement is consumed, and a semicolon behind one that has none is taken with it. -/
theorem statement_consumes {tree : Statement} (accepts : Accepts nested ExpressionOf limit Ends)
    (derived : StatementOf tokens tree) (short : tokens.length ≤ limit)
    (next : Next (· ∈ returnTerminators) rest) :
    Consumes (statement nested) tokens rest tree ∨
      ∃ semicolon tail, rest = semicolon :: tail ∧ semicolon.kind = .semicolon ∧
        Consumes (statement nested) (tokens ++ [semicolon]) tail tree := by
  cases derived with
  | constant kind names types equals value ends =>
      simp only [List.cons_append, List.length_cons, List.length_append] at short
      rcases closing_consumes ends next with ⟨found, ended, next⟩ |
        ⟨rfl, semicolon, tail, rfl, same⟩
      · exact .inl (constDeclaration_consumes accepts kind names types equals value (by omega) next
          ended)
      · refine .inr ⟨semicolon, tail, rfl, same, ?_⟩
        rw [List.append_nil]
        exact constDeclaration_consumes accepts kind names types equals value (by omega) next
          (.accept (by decide) same tail)
  | returning kind value ends =>
      simp only [List.cons_append, List.length_cons, List.length_append] at short
      rcases closing_consumes ends next with ⟨found, ended, next⟩ |
        ⟨rfl, semicolon, tail, rfl, same⟩
      · exact .inl (returnStatement_consumes accepts kind value (by omega) next ended)
      · refine .inr ⟨semicolon, tail, rfl, same, ?_⟩
        rw [List.append_nil]
        exact returnStatement_consumes accepts kind value (by omega) next
          (.accept (by decide) same tail)

/-- A statement begins with its keyword. -/
theorem statement_next {tree : Statement} (derived : StatementOf tokens tree) :
    Next (· ∈ [.constKeyword, .returnKeyword]) tokens := by
  cases derived with
  | constant kind => exact .of_cons (by rw [kind]; decide)
  | returning kind => exact .of_cons (by rw [kind]; decide)

/-- A statement that is consumed needs no recovery. -/
theorem recovering_consumes {tree : Statement} (inBlock : Bool)
    (consumes : Consumes (statement nested) tokens rest tree) :
    Consumes (recovering nested inBlock) tokens rest (some tree) := by
  intro cursor ahead
  rw [runAt_recovering, consumes cursor ahead]

section Sequences

variable {inBlock : Bool} {ends : List TokenKind} {trees : List Statement} {steps : Nat}

/-- A semicolon between statements makes no difference but for a step. -/
theorem statements_semicolon {semicolon : Token} (inside : .semicolon ∉ ends)
    (kind : semicolon.kind = .semicolon)
    (consumes : Consumes (statements nested inBlock ends (steps + 1)) (semicolon :: tokens) rest
      trees) :
    Consumes (statements nested inBlock ends steps) tokens rest trees := by
  intro cursor ahead
  have ran := consumes { cursor with rest := semicolon :: tokens ++ rest } rfl
  have outside : ¬ends.contains semicolon.kind = true := by
    rw [List.contains_iff_mem, kind]
    exact inside
  have taken := Consumes.accept (by decide) kind (tokens ++ rest)
    { cursor with rest := semicolon :: tokens ++ rest } rfl
  unfold statements at ran
  rw [runAt_bind_ok (runAt_check rfl), if_neg outside, runAt_bind_ok taken, if_pos rfl] at ran
  rw [← ran]
  exact congrArg _ (cursor_eq ahead).symm

/-- A sequence of statements is empty or begins with one of the tokens that may follow a
statement. -/
theorem sequence_next (derived : Sequence StatementOf tokens trees)
    (next : Next (· ∈ ends) rest) (among : ∀ kind ∈ ends, kind ∈ returnTerminators) :
    Next (· ∈ returnTerminators) (tokens ++ rest) := by
  cases derived with
  | none => exact next.mono among
  | semicolon kind => exact .of_cons (by rw [kind]; decide)
  | statement first following =>
      rw [List.append_assoc]
      exact ((statement_next first).append _).mono (by decide)

/-- Statements are consumed up to a token that ends them. -/
theorem statements_consumes (accepts : Accepts nested ExpressionOf limit Ends)
    (derived : Sequence StatementOf tokens trees) (short : tokens.length ≤ limit)
    (enough : tokens.length < steps) (next : Next (· ∈ ends) rest)
    (closing : ∀ kind ∈ ends, kind ∈ [TokenKind.rightCurly, .endOfFile]) :
    Consumes (statements nested inBlock ends steps) tokens rest trees := by
  have inside : .semicolon ∉ ends := fun found => absurd (closing _ found) (by decide)
  induction derived generalizing steps with
  | none =>
      cases steps with
      | zero => omega
      | succ steps => exact .checked next (.pure [] rest)
  | @semicolon semicolon others trees kind following inductionHypothesis =>
      rw [List.length_cons] at short enough
      cases steps with
      | zero => omega
      | succ steps =>
          have further := @inductionHypothesis steps (by omega) (by omega)
          exact .unchecked (.of_cons (kind ▸ inside)) (.accepted (by decide) kind further)
  | @statement tokens others tree trees first following inductionHypothesis =>
      have taken := statement_nonempty first
      rw [List.length_append] at short enough
      have starts : Next (· ∈ [.constKeyword, .returnKeyword]) (tokens ++ others ++ rest) := by
        rw [List.append_assoc]
        exact (statement_next first).append _
      have goes : Next (· ∉ ends) (tokens ++ others ++ rest) := by
        refine starts.mono ?_
        intro kind among found
        exact (by decide : ∀ kind ∈ [TokenKind.constKeyword, .returnKeyword],
          kind ∉ [TokenKind.rightCurly, .endOfFile]) kind among (closing kind found)
      have other : Next (· ≠ .semicolon) (tokens ++ others ++ rest) := starts.mono (by decide)
      have follows : Next (· ∈ returnTerminators) (others ++ rest) :=
        sequence_next following next fun kind found =>
          (by decide : ∀ kind ∈ [TokenKind.rightCurly, .endOfFile], kind ∈ returnTerminators)
            kind (closing kind found)
      cases steps with
      | zero => omega
      | succ steps =>
          refine .unchecked goes (.declined other ?_)
          rcases statement_consumes accepts first (by omega) follows with
            consumes | ⟨semicolon, tail, same, kind, consumes⟩
          · have further := @inductionHypothesis steps (by omega) (by omega)
            exact (recovering_consumes inBlock consumes).bind further.last
          · -- The semicolon is not the one that ends the sequence, so it is the next part of it.
            have further := @inductionHypothesis (steps + 1) (by omega) (by omega)
            cases others with
            | nil =>
                obtain ⟨token, _, rfl, found⟩ := next
                obtain rfl := (List.cons.inj same).1
                exact absurd (kind ▸ found) inside
            | cons token others =>
                obtain ⟨rfl, rfl⟩ := List.cons.inj same
                have cut : tokens ++ token :: others = tokens ++ [token] ++ others := by
                  rw [List.append_assoc, List.singleton_append]
                rw [cut]
                exact (recovering_consumes inBlock consumes).bind
                  (statements_semicolon inside kind further).last

end Sequences

/-! ## Expressions -/

/-- A block is consumed whatever follows it. -/
theorem block_consumes {body : Block} (accepts : Accepts nested ExpressionOf limit Ends)
    (derived : BlockOf tokens body) (short : tokens.length ≤ limit) (rest : List Token) :
    Consumes (block nested) tokens rest body := by
  obtain @⟨opening, closing, inner, trees, opens, items, closes⟩ := derived
  simp only [List.cons_append, List.length_cons, List.length_append] at short
  have next : Next (· ∈ [.rightCurly, .endOfFile]) ([closing] ++ rest) :=
    .of_cons (by rw [closes]; decide)
  have taken : Consumes (bounded (statements nested true [.rightCurly, .endOfFile])) inner
      ([closing] ++ rest) trees := by
    refine .bounded (statements_consumes accepts items (by omega) ?_ next fun kind among => among)
    rw [List.length_append]
    omega
  exact .expected (by decide) opens (taken.bind (.expected (by decide) closes (.pure _ rest)))

/-- A block begins with a brace. -/
theorem block_next {body : Block} (derived : BlockOf tokens body) :
    Next (· ∈ [.leftCurly]) tokens := by
  obtain ⟨opens, items, closes⟩ := derived
  exact .of_cons (List.mem_singleton.mpr opens)

/-- An arrow function is consumed whatever follows it. -/
theorem arrowFunction_consumes {opening arrow : Token} {head inner : List Token}
    {params : List Parameter} {result : Option Ascription} {body : Block}
    (accepts : Accepts nested ExpressionOf limit Ends)
    (heading : ArrowHead true (opening :: head) (params, result)) (points : arrow.kind = .arrow)
    (block : BlockOf inner body) (short : inner.length ≤ limit) (rest : List Token) :
    Consumes (arrowFunction nested) (opening :: head ++ arrow :: inner) rest
      (.arrow opening.offset params result body) := by
  have strict : true = true → true = true := id
  have heads :=
    arrowHead_consumes strict heading (.of_cons points : Next _ (arrow :: inner ++ rest))
  have taken := block_consumes accepts block short rest
  exact .look rfl (heads.bind (.expected (by decide) points
    (.checked ((block_next block).append rest) taken.last)))

/-- An operand that is an arrow function is read as one. -/
theorem operand_arrow {tree : Expression} (opens : Next (· = .leftParen) (tokens ++ rest))
    (found : Consumes arrowAhead [] (tokens ++ rest) true)
    (consumes : Consumes (arrowFunction nested) tokens rest tree) :
    Consumes (operand nested) tokens rest tree := by
  obtain ⟨token, tail, same, kind⟩ := opens
  intro cursor ahead
  unfold operand
  rw [runAt_bind_ok (runAt_check (ahead.trans same)), runAt_bind_ok (found cursor ahead),
    cursor_eq ahead, kind]
  exact consumes cursor ahead

/-- An operand that is no arrow function is read as a primary expression. -/
theorem operand_applied {tree : Expression} (starts : Next (fun _ => True) (tokens ++ rest))
    (missed : Next (· = .leftParen) (tokens ++ rest) →
      Consumes arrowAhead [] (tokens ++ rest) false)
    (consumes : Consumes (primary nested >>= fun first => bounded fun steps =>
      applications nested steps first) tokens rest tree) :
    Consumes (operand nested) tokens rest tree := by
  obtain ⟨token, tail, same, -⟩ := starts
  intro cursor ahead
  unfold operand
  rw [runAt_bind_ok (runAt_check (ahead.trans same)), runAt_bind_ok (runAt_arrowAhead cursor),
    if_neg]
  · exact consumes cursor ahead
  · intro both
    obtain ⟨opens, found⟩ := (Bool.and_eq_true _ _).mp both
    have kind := List.mem_singleton.mp (List.contains_iff_mem.mp opens)
    have ran := missed ⟨token, tail, same, kind⟩ cursor ahead
    rw [runAt_arrowAhead] at ran
    rw [Except.ok.inj (Prod.mk.inj ran).1] at found
    exact nomatch found

/-- An operand is consumed up to what may follow it. -/
theorem operand_accepts (accepts : Accepts nested ExpressionOf limit Ends) :
    Accepts (operand nested) OperandOf (limit + 1) Stops := by
  intro tokens rest tree derived short stops
  cases derived with
  | @arrow opening arrow head inner params result body heading points block =>
      simp only [List.cons_append, List.length_cons, List.length_append] at short
      have next : Next (· = .arrow) (arrow :: inner ++ rest) := .of_cons points
      have found := arrowAhead_found heading next
      rw [← List.append_assoc] at found
      refine operand_arrow ?_ found
        (arrowFunction_consumes accepts heading points block (by omega) rest)
      rw [List.append_assoc]
      exact (arrowHead_next heading).append _
  | @applied tokens others first tree primary applications =>
      rw [List.length_append] at short
      have continues : Continues others := by
        have whole := applications_continue applications .none
        rwa [List.append_nil] at whole
      have starts : Next (fun _ => True) (tokens ++ others ++ rest) := by
        rw [List.append_assoc]
        exact ((primary_next primary).append _).mono fun _ _ => trivial
      refine operand_applied starts (primary_misses primary continues stops) ?_
      have taken := primary_consumes accepts primary (by omega) (others ++ rest)
      refine taken.bind (.bounded (applications_consumes accepts applications (by omega) ?_
        (stops.next.fewer (by decide))))
      rw [List.length_append]
      omega

/-- What may follow the operands may follow the first of them. -/
theorem sums_stops {left tree : Expression} (derived : Sums OperandOf tokens left tree)
    (stops : Stops rest) : Stops (tokens ++ rest) := by
  cases derived with
  | none => exact stops
  | plus kind => exact .of_next (.of_cons (by rw [kind]; decide))

/-- Operands after plus signs are consumed up to what may follow them. -/
theorem sums_consumes {left tree : Expression} {steps : Nat}
    (accepts : Accepts (operand nested) OperandOf limit Stops)
    (derived : Sums OperandOf tokens left tree) (short : tokens.length ≤ limit)
    (enough : tokens.length ≤ steps) (stops : Stops rest) (next : Next (· ∉ [.plus]) rest) :
    Consumes (sums nested steps left) tokens rest tree := by
  induction derived generalizing steps with
  | @none left =>
      cases steps with
      | zero => exact .pure _ rest
      | succ steps =>
          have passed : Consumes (match? [.plus]) [] ([] ++ rest) none := .unmatched next
          exact passed.bind (.pure left rest)
  | @plus operator tokens others left right result kind operand following inductionHypothesis =>
      simp only [List.cons_append, List.length_cons, List.length_append] at short enough
      cases steps with
      | zero => omega
      | succ steps =>
          have further := @inductionHypothesis steps (by omega) (by omega)
          have right := accepts operand (by omega) (sums_stops following stops)
          have taken : Consumes (match? [.plus]) [operator] (tokens ++ others ++ rest)
              (some operator) :=
            .matched (by rw [kind]; decide) (List.mem_singleton.mpr kind) _
          exact taken.bind (right.bind further)

/-- A sum is consumed up to what may follow it. -/
theorem binary_consumes {tree : Expression}
    (accepts : Accepts (operand nested) OperandOf limit Stops) (derived : BinaryOf tokens tree)
    (short : tokens.length ≤ limit) (stops : Stops rest) (next : Next (· ∉ [.plus]) rest) :
    Consumes (binary nested) tokens rest tree := by
  obtain @⟨tokens, others, first, tree, operand, sums⟩ := derived
  rw [List.length_append] at short
  have taken := accepts operand (by omega) (sums_stops sums stops)
  refine taken.bind (.bounded (sums_consumes accepts sums (by omega) ?_ stops next))
  rw [List.length_append]
  omega

/-- A conditional is consumed up to what may follow it, and what could be its test too. -/
theorem conditional_accepts (accepts : Accepts nested ExpressionOf limit Ends) :
    Accepts (conditional nested) ExpressionOf (limit + 1) Ends := by
  intro tokens rest tree derived short ends
  have operands := operand_accepts accepts
  cases derived with
  | binary sum =>
      have taken : Consumes (binary nested) tokens ([] ++ rest) tree :=
        binary_consumes operands sum short ends.toStops (ends.loose.fewer (by decide))
      rw [← List.append_nil tokens]
      exact taken.bind (.declined (ends.loose.ne (by decide)) (.pure tree rest))
  | @conditional question colon first second third test consequent alternate tests asks positive
      splits negative =>
      simp only [List.length_cons, List.length_append] at short
      have asked : Stops (question :: second ++ colon :: third ++ rest) :=
        .of_next (.of_cons (by rw [asks]; decide))
      have tested := binary_consumes operands tests (by omega) asked
        (.of_cons (by rw [asks]; decide))
      -- Behind the colon the negative branch is no type before an arrow.
      have split : Ends (colon :: third ++ rest) :=
        { next := .of_cons (by rw [splits]; decide)
          loose := .of_cons (by rw [splits]; decide)
          split := by
            rintro _ _ same -
            obtain ⟨-, rfl⟩ := List.cons.inj same
            exact ascription_misses negative (ends.next.fewer (by decide)) }
      have chosen := accepts positive (by omega) split
      have otherwise := accepts negative (by omega) ends
      have cut : first ++ question :: second ++ colon :: third =
          first ++ question :: (second ++ colon :: third) := by
        simp only [List.append_assoc, List.cons_append]
      rw [cut]
      exact tested.bind (.accepted (by decide) asks (chosen.bind
        (.expected (by decide) splits otherwise.last)))

/-- Expressions of any depth are consumed up to what may follow them. -/
theorem expressionWithin_accepts (depth : Nat) :
    Accepts (expressionWithin depth) ExpressionOf depth Ends := by
  induction depth with
  | zero =>
      intro tokens rest tree derived short ends
      obtain ⟨token, tail, rfl, -⟩ := expression_next derived
      exact absurd short (Nat.not_succ_le_zero _)
  | succ depth inductionHypothesis => exact conditional_accepts inductionHypothesis

/-- An expression is consumed up to what may follow it. -/
theorem expression_accepts (limit : Nat) : Accepts expression ExpressionOf limit Ends := by
  intro tokens rest tree derived short ends
  refine .bounded (expressionWithin_accepts _ derived ?_ ends)
  rw [List.length_append]
  omega

/-- A program is consumed up to the mark of the end. -/
theorem program_consumes {body : List Statement} (derived : Sequence StatementOf tokens body)
    (mark : Next (· = .endOfFile) rest) : Consumes program tokens rest { body } := by
  have next : Next (· ∈ [.endOfFile]) rest := mark.mono fun _ => List.mem_singleton.mpr
  have taken : Consumes (bounded (statements expression false [.endOfFile])) tokens rest body := by
    refine .bounded (statements_consumes (expression_accepts tokens.length) derived
      (Nat.le_refl _) ?_ next (by decide))
    rw [List.length_append]
    omega
  exact taken.last

end ArrowScript.Parser
