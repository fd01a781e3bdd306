import ArrowScript.Parser.Programs
import ArrowScript.Proofs.Parser.Reading

/-!
# Parsers read what the grammar derives

Each parser is shown to read a derivation of its rule whenever it returns a result and
no diagnostic has been recorded. The bounds on nested and repeated steps play no role
in this direction, with two exceptions. Brackets are not read after a function type,
because the type at its end has taken all that there are; and the statements of a
program are read up to a token that ends them.
-/

namespace ArrowScript.Parser

open Grammar

variable {α : Type}

/-- Items after commas are read as such, by any number of steps. -/
theorem moreItems_reads {item : Parser α} {Item : List Token → α → Prop}
    (reads : Reads item fun tokens _ tree => Item tokens tree) (steps : Nat) :
    Reads (moreItems item steps) fun tokens _ trees => Following Item tokens trees := by
  induction steps with
  | zero => exact .pure fun rest => .none
  | succ steps inductionHypothesis =>
      refine .accepted (by decide) (.bind reads fun tree =>
        .bind inductionHypothesis fun trees => .pure ?_) (.pure ?_)
      · intro rest others following tokens first comma kind
        rw [List.append_nil]
        exact .item kind first following
      · intro rest ahead
        exact .none

/-- Items up to a closing token are read as an enumeration before it. -/
theorem itemsUntil_reads {item : Parser α} {Item : List Token → α → Prop} {kind : TokenKind}
    (reads : Reads item fun tokens _ tree => Item tokens tree) (lexeme : kind ≠ .endOfFile) :
    Reads (itemsUntil item kind) fun tokens _ trees =>
      ∃ inner closing, tokens = inner ++ [closing] ∧ closing.kind = kind ∧
        Enumeration Item inner trees := by
  have several : Reads (items item) fun tokens _ trees => Enumeration Item tokens trees := by
    refine .bind reads fun tree => .bind (.bounded fun steps =>
      (moreItems_reads reads steps).mono fun tokens rest trees following _ => following)
      fun trees => .pure ?_
    intro rest others following tokens first
    rw [List.append_nil]
    exact .items first following
  have absent : Reads (pure ([] : List α)) fun tokens _ trees => Enumeration Item tokens trees :=
    .pure fun rest => .none
  refine .checked (.bind absent fun trees => .expected lexeme fun closing => .pure ?_)
    (.bind several fun trees => .expected lexeme fun closing => .pure ?_)
  · intro rest same tokens derived ahead
    exact ⟨tokens, closing, rfl, same, derived⟩
  · intro rest same tokens derived ahead
    exact ⟨tokens, closing, rfl, same, derived⟩

/-! ## Types -/

section Types

variable {rejectAny : Bool} {nested : Parser Ascription}

/-- What may follow a colon is read as an annotation, or nothing is. -/
theorem annotated_reads {next : Option Ascription → Parser α}
    {Last : List Token → List Token → α → Prop}
    (reads : Reads nested fun tokens _ type => TypeOf rejectAny tokens type)
    (second : ∀ found, Reads (next found) fun others rest output => ∀ tokens,
      Optional (AnnotationOf rejectAny) tokens found → Last (tokens ++ others) rest output) :
    Reads (accept .colon >>= fun found =>
      if found = true then some <$> nested >>= next else pure none >>= next) Last := by
  have present : Reads (some <$> nested) fun tokens _ found =>
      ∃ type, found = some type ∧ TypeOf rejectAny tokens type :=
    .map (reads.mono fun tokens rest type derived => ⟨type, rfl, derived⟩)
  refine .accepted (by decide) (.bind present fun found => (second found).mono ?_)
    ((second none).mono ?_)
  · rintro others rest output holds tokens ⟨type, rfl, derived⟩ colon kind
    exact holds (colon :: tokens) (.present (.colon kind derived))
  · intro others rest output holds ahead
    exact holds [] .absent

/-- A parameter is read as one. -/
theorem parameter_reads
    (reads : Reads nested fun tokens _ type => TypeOf rejectAny tokens type) :
    Reads (parameter nested) fun tokens _ param => ParameterOf rejectAny tokens param := by
  refine .expected (by decide) fun name => annotated_reads reads fun found => .pure ?_
  intro rest tokens annotated kind
  rw [List.append_nil]
  exact .parameter kind annotated

/-- Parameters are read as an enumeration between parentheses. -/
theorem parameters_reads
    (reads : Reads nested fun tokens _ type => TypeOf rejectAny tokens type) :
    Reads (parameters nested) fun tokens _ params =>
      ∃ opening inner closing, tokens = opening :: inner ++ [closing] ∧
        opening.kind = .leftParen ∧ closing.kind = .rightParen ∧
        Enumeration (ParameterOf rejectAny) inner params := by
  refine .expected (by decide) fun opening =>
    (itemsUntil_reads (parameter_reads reads) (by decide)).mono ?_
  rintro _ rest params ⟨inner, closing, rfl, closes, derived⟩ opens
  exact ⟨opening, inner, closing, rfl, opens, closes, derived⟩

/-- Tells that no empty brackets come next. -/
def Unmarked (tokens : List Token) : Prop :=
  ∀ opening closing rest, tokens = opening :: closing :: rest →
    opening.kind = .leftBracket → closing.kind ≠ .rightBracket

/-- Brackets after a type are read as marks. With enough steps they all are. -/
theorem arraySuffixes_reads (steps : Nat) (element : Ascription) :
    Reads (arraySuffixes steps element) fun tokens rest type =>
      Marks tokens element type ∧ ((tokens ++ rest).length < steps → Unmarked rest) := by
  induction steps generalizing element with
  | zero => exact .pure fun rest => ⟨.none, fun short => absurd short (Nat.not_lt_zero _)⟩
  | succ steps inductionHypothesis =>
      refine .bind (.check _) fun opens => .bind (.peek 1) fun second => .ite ?_ ?_
      · intro both
        obtain ⟨found, closes⟩ := (Bool.and_eq_true _ _).mp both
        refine .bind .advance fun first => .bind .advance fun other =>
          (inductionHypothesis _).mono ?_
        rintro others rest type ⟨marks, whole⟩ _ readOther _ readFirst _ ⟨rfl, ahead⟩ _
          ⟨rfl, token, tail, seen, opening⟩
        have kind := List.mem_singleton.mp (opening.mp found)
        rcases readFirst with ⟨rfl, -⟩ | ⟨rfl, mark, tail, same⟩
        · obtain rfl := (List.cons.inj seen).1
          rcases readOther with ⟨rfl, -⟩ | ⟨rfl, mark, tail, same⟩
          · have same : second = other := ahead other rfl
            refine ⟨.mark kind (same ▸ of_decide_eq_true closes) marks, ?_⟩
            intro short
            apply whole
            simp only [List.cons_append, List.nil_append, List.length_cons] at short
            omega
          · have same : second = other := ahead other (by simp [same])
            rw [← same, of_decide_eq_true closes] at mark
            exact nomatch mark
        · simp only [List.nil_append] at same seen
          rw [same] at seen
          obtain rfl := (List.cons.inj seen).1
          rw [kind] at mark
          exact nomatch mark
      · intro neither
        refine .pure ?_
        rintro rest _ ⟨rfl, ahead⟩ _ ⟨rfl, token, tail, seen, opening⟩
        refine ⟨.none, ?_⟩
        rintro - first other others cut opens closes
        apply neither
        rw [List.nil_append, List.nil_append, cut] at seen
        obtain rfl := (List.cons.inj seen).1
        have same : second = other := ahead other (by simp [cut])
        rw [opening.mpr (List.mem_singleton.mpr opens), same, closes]
        rfl

/-- Without empty brackets there are no marks. -/
theorem Unmarked.none {tokens rest : List Token} {element type : Ascription}
    (unmarked : Unmarked (tokens ++ rest)) (marks : Marks tokens element type) :
    tokens = [] ∧ type = element := by
  cases marks with
  | none => exact ⟨rfl, rfl⟩
  | mark opens closes marks => exact absurd closes (unmarked _ _ _ rfl opens)

/-- A type before the brackets after it. What follows a function type is no brackets. -/
inductive Unsuffixed (rejectAny : Bool) (rest : List Token) : List Token → Ascription → Prop where
  | simple {tokens : List Token} {type : Ascription} (derived : SimpleType rejectAny tokens type) :
      Unsuffixed rejectAny rest tokens type
  | function {tokens : List Token} {type : Ascription} (derived : TypeOf rejectAny tokens type)
      (unmarked : Unmarked rest) : Unsuffixed rejectAny rest tokens type

/-- A type is read up to the brackets after it. -/
theorem simpleAscription_reads
    (reads : Reads nested fun tokens rest type => TypeOf rejectAny tokens type ∧ Unmarked rest) :
    Reads (simpleAscription rejectAny nested) fun tokens rest type =>
      Unsuffixed rejectAny rest tokens type := by
  have types : Reads nested fun tokens _ type => TypeOf rejectAny tokens type :=
    reads.mono fun tokens rest type derived => derived.1
  refine .look fun token => .ite ?_ fun primitive => .ite ?_ fun unnamed => .ite ?_ fun other =>
    .ite ?_ fun neither => .unexpected _
  · intro primitive
    refine .take ?_ fun taken => .pure ?_
    · intro mark
      rw [mark] at primitive
      exact nomatch primitive
    · intro rest same lexed
      exact .simple (.primitive primitive)
  · intro named
    refine .ite (fun rejected => .refused _ _) ?_
    intro allowed
    refine .take ?_ fun taken => .pure ?_
    · rw [named]
      decide
    · intro rest same lexed
      refine .simple (.named named ?_)
      rintro rejects any
      rw [rejects, any] at allowed
      exact allowed rfl
  · intro array
    refine .take ?_ fun taken => .expected (by decide) fun opening => .bind types fun element =>
      .expected (by decide) fun closing => .pure ?_
    · rw [array]
      decide
    · intro rest closes inner derived opens same lexed
      exact .simple (.array array opens derived closes)
  · intro opens
    refine .bind (parameters_reads types) fun params => .expected (by decide) fun arrow =>
      .bind reads fun result => .pure ?_
    rintro rest output ⟨derived, unmarked⟩ points _ ⟨opening, inner, closing, rfl, opens, closes,
      inputs⟩ ⟨tail, seen⟩
    obtain rfl := (List.cons.inj seen).1
    refine .function ?_ unmarked
    have whole := TypeOf.function opens inputs closes points derived
    simpa only [List.append_nil, List.append_assoc, List.cons_append, List.nil_append] using whole

/-- Types of any depth are read as such, with the brackets after them. -/
theorem ascriptionWithin_reads (rejectAny : Bool) (depth : Nat) :
    Reads (ascriptionWithin rejectAny depth) fun tokens rest type =>
      TypeOf rejectAny tokens type ∧ Unmarked rest := by
  induction depth with
  | zero => exact .unexpected _
  | succ depth inductionHypothesis =>
      refine .bind (simpleAscription_reads inductionHypothesis) fun first =>
        .bounded fun steps => (arraySuffixes_reads steps first).mono ?_
      rintro brackets rest type ⟨marks, whole⟩ short tokens unsuffixed
      refine ⟨?_, whole short⟩
      cases unsuffixed with
      | simple derived => exact .simple derived marks
      | function derived unmarked =>
          obtain ⟨rfl, rfl⟩ := unmarked.none marks
          rw [List.append_nil]
          exact derived

/-- A type is read as one. -/
theorem ascription_reads (rejectAny : Bool) :
    Reads (ascription rejectAny) fun tokens _ type => TypeOf rejectAny tokens type := by
  refine .bounded fun depth => (ascriptionWithin_reads rejectAny depth).mono ?_
  intro tokens rest type derived _
  exact derived.1

/-- The part of an arrow function before its arrow is read as one. -/
theorem arrowHead_reads (rejectAny : Bool) :
    Reads (arrowHead rejectAny) fun tokens _ head => ArrowHead rejectAny tokens head := by
  refine .bind (parameters_reads (ascription_reads rejectAny)) fun params =>
    annotated_reads (ascription_reads rejectAny) fun result => .pure ?_
  rintro rest output annotated _ ⟨opening, inner, closing, rfl, opens, closes, inputs⟩
  have whole := ArrowHead.head opens inputs closes annotated
  simpa only [List.append_nil, List.append_assoc, List.cons_append, List.nil_append] using whole

/-- The look ahead for an arrow function, which leaves the cursor where it is. -/
theorem runAt_arrowAhead (cursor : Cursor) :
    arrowAhead.runAt cursor =
      (.ok (match (arrowHead false).runAt cursor with
        | (.ok _, after) => decide ((after.ahead 0).kind = .arrow)
        | (.error _, _) => false), cursor) := by
  have got : (get : Parser Cursor).runAt cursor = (.ok cursor, cursor) := rfl
  unfold arrowAhead
  rw [runAt_bind_ok got]
  rcases (arrowHead false).runAt cursor with ⟨diagnostic | head, after⟩ <;> rfl

/-- The look ahead for an arrow function reads nothing. -/
theorem arrowAhead_reads : Reads arrowAhead fun tokens _ _ => tokens = [] := by
  constructor
  · intro before
    rw [runAt_arrowAhead]
    exact .refl before
  · intro before after found marked ran quiet
    rw [runAt_arrowAhead] at ran
    obtain ⟨-, rfl⟩ := Prod.mk.inj ran
    exact ⟨[], rfl, rfl⟩

end Types

/-! ## Expressions and statements -/

section Expressions

variable {nested : Parser Expression}

/-- A primary expression is read as one. -/
theorem primary_reads (reads : Reads nested fun tokens _ tree => ExpressionOf tokens tree) :
    Reads (primary nested) fun tokens _ tree => PrimaryOf tokens tree := by
  refine .look fun token => ?_
  have lexeme {kind : TokenKind} (same : token.kind = kind) (other : kind ≠ .endOfFile) :
      token.kind ≠ .endOfFile := same ▸ other
  split
  next number =>
    refine .take (lexeme number (by decide)) fun taken => ?_
    split
    next value denotes =>
      refine .pure ?_
      intro rest same lexed
      exact .number number denotes
    next other =>
      refine .pure ?_
      intro rest same lexed
      simp only [Token.Lexed, number] at lexed
      obtain ⟨value, denotes⟩ := lexed
      exact absurd denotes (other value)
  next string =>
    refine .take (lexeme string (by decide)) fun taken => .pure ?_
    intro rest same lexed
    exact .string string
  next truth =>
    refine .take (lexeme truth (by decide)) fun taken => .pure ?_
    intro rest same lexed
    simp only [Token.Lexed, truth] at lexed
    rw [lexed]
    exact .truth truth lexed
  next falsity =>
    refine .take (lexeme falsity (by decide)) fun taken => .pure ?_
    intro rest same lexed
    simp only [Token.Lexed, falsity] at lexed
    rw [lexed]
    exact .falsity falsity lexed
  next name =>
    refine .take (lexeme name (by decide)) fun taken => .pure ?_
    intro rest same lexed
    exact .identifier name
  next opens =>
    refine .take (lexeme opens (by decide)) fun taken =>
      .bind (itemsUntil_reads reads (by decide)) fun elements => .pure ?_
    rintro rest _ ⟨inner, closing, rfl, closes, items⟩ same lexed
    rw [List.append_nil]
    exact .array opens items closes
  next opens =>
    refine .take (lexeme opens (by decide)) fun taken =>
      .bind reads fun tree => .expected (by decide) fun closing => .pure ?_
    intro rest closes inner inside same lexed
    exact .parenthesized opens inside closes
  next => exact .unexpected _

/-- What is applied to an operand is read as such. -/
theorem applications_reads (reads : Reads nested fun tokens _ tree => ExpressionOf tokens tree)
    (steps : Nat) (applied : Expression) :
    Reads (applications nested steps applied) fun tokens _ tree =>
      Applications ExpressionOf tokens applied tree := by
  induction steps generalizing applied with
  | zero => exact .pure fun rest => .none
  | succ steps inductionHypothesis =>
      refine .accepted (by decide) (.bind (itemsUntil_reads reads (by decide)) fun arguments =>
        (inductionHypothesis _).mono ?_) ((Reads.accepted (by decide) (.bind reads fun index =>
          .expected (by decide) fun closing => (inductionHypothesis _).mono ?_)
          (.pure ?_)).mono fun tokens rest tree derived _ => derived)
      · rintro others rest tree following _ ⟨inner, closing, rfl, closes, inputs⟩ opening opens
        have whole := Applications.call opens inputs closes following
        simpa only [List.append_assoc, List.cons_append, List.nil_append] using whole
      · intro others rest tree following closes inner inside opening opens
        exact .index opens inside closes following
      · intro rest ahead
        exact .none

/-- A declaration is read as one where its keyword comes next. -/
theorem constDeclaration_reads
    (reads : Reads nested fun tokens _ tree => ExpressionOf tokens tree) :
    Reads (constDeclaration nested) fun tokens rest tree =>
      (∃ token tail, tokens ++ rest = token :: tail ∧ token.kind ∈ [.constKeyword]) →
        StatementOf tokens tree := by
  refine .known (by decide) fun keyword => .expected (by decide) fun name =>
    annotated_reads (ascription_reads true) fun annotated => .expected (by decide) fun equal =>
      .bind reads fun initial => .bind (.ended (by decide)) fun passed => .pure ?_
  intro rest ending ends tokens value equals annotation types names kind
  have whole := StatementOf.constant (List.mem_singleton.mp kind) names types equals value ends
  simpa only [List.append_nil, List.append_assoc, List.cons_append] using whole

/-- A return is read as one where its keyword comes next. -/
theorem returnStatement_reads
    (reads : Reads nested fun tokens _ tree => ExpressionOf tokens tree) :
    Reads (returnStatement nested) fun tokens rest tree =>
      (∃ token tail, tokens ++ rest = token :: tail ∧ token.kind ∈ [.returnKeyword]) →
        StatementOf tokens tree := by
  have absent : Reads (pure (none : Option Expression)) fun tokens _ found =>
      Optional ExpressionOf tokens found := .pure fun rest => .absent
  have present : Reads (some <$> nested) fun tokens _ found =>
      Optional ExpressionOf tokens found :=
    .map (reads.mono fun tokens rest tree derived => .present derived)
  refine .known (by decide) fun keyword => .checked
    (.bind absent fun argument => .bind (.ended (by decide)) fun passed => .pure ?_)
    (.bind present fun argument => .bind (.ended (by decide)) fun passed => .pure ?_)
  · intro rest ending ends tokens value ahead kind
    rw [List.append_nil]
    exact .returning (List.mem_singleton.mp kind) value ends
  · intro rest ending ends tokens value ahead kind
    rw [List.append_nil]
    exact .returning (List.mem_singleton.mp kind) value ends

/-- A statement is read as one. -/
theorem statement_reads (reads : Reads nested fun tokens _ tree => ExpressionOf tokens tree) :
    Reads (statement nested) fun tokens _ tree => StatementOf tokens tree := by
  refine .checked (constDeclaration_reads reads) ((Reads.checked (returnStatement_reads reads)
    (.unexpected _)).mono fun tokens rest tree derived _ => derived)

/-- The way to the next boundary leads over lexemes. -/
theorem recoveryPoint_passed (inBlock : Bool) (depth : Nat) (tokens : List Token) :
    Passed tokens (recoveryPoint inBlock depth tokens) := by
  have lexeme {token : Token} {kind : TokenKind} (same : token.kind = kind)
      (other : kind ≠ .endOfFile) : token.kind ≠ .endOfFile := same ▸ other
  fun_induction recoveryPoint inBlock depth tokens with
  | case1 => exact .refl []
  | case2 => exact .refl _
  | case3 depth token rest opens inductionHypothesis =>
      exact .cons (lexeme opens (by decide)) inductionHypothesis
  | case4 => exact .refl _
  | case5 token rest closes => exact .cons (lexeme closes (by decide)) (.refl rest)
  | case6 token rest closes outer inductionHypothesis =>
      exact .cons (lexeme closes (by decide)) inductionHypothesis
  | case7 token rest ends => exact .cons (lexeme ends (by decide)) (.refl rest)
  | case8 depth token rest ends inner inductionHypothesis =>
      exact .cons (lexeme ends (by decide)) inductionHypothesis
  | case9 depth token rest kind _ _ _ inductionHypothesis => exact .cons kind inductionHypothesis

/-- The run of a statement whose errors are recorded. -/
theorem runAt_recovering (nested : Parser Expression) (inBlock : Bool) (cursor : Cursor) :
    (recovering nested inBlock).runAt cursor =
      match (statement nested).runAt cursor with
      | (.ok tree, after) => (.ok (some tree), after)
      | (.error diagnostic, after) =>
        (.ok none, { after with
          rest := recoveryPoint inBlock 0 after.rest
          diagnostics := after.diagnostics ++ [diagnostic] }) := by
  rcases ran : (statement nested).runAt cursor with ⟨diagnostic | tree, after⟩
  all_goals
    have same : statement nested cursor = _ := ran
    simp only [recovering, tryCatch, tryCatchThe, MonadExceptOf.tryCatch, ExceptT.tryCatch, runAt,
      bind, StateT.bind, ExceptT.bind, ExceptT.mk, ExceptT.run, StateT.run, Functor.map,
      ExceptT.map, same]
    rfl

/-- Where no diagnostic has been recorded a statement has been read. -/
theorem recovering_reads (reads : Reads nested fun tokens _ tree => ExpressionOf tokens tree)
    (inBlock : Bool) :
    Reads (recovering nested inBlock) fun tokens _ found =>
      ∃ tree, found = some tree ∧ StatementOf tokens tree := by
  have reading := statement_reads reads
  constructor
  · intro before
    have moved := reading.onward before
    rw [runAt_recovering]
    rcases ran : (statement nested).runAt before with ⟨diagnostic | tree, after⟩
    · rw [ran] at moved
      exact moved.trans ⟨recoveryPoint_passed inBlock 0 after.rest, [diagnostic], rfl⟩
    · rw [ran] at moved
      exact moved
  · intro before after found marked ran quiet
    rw [runAt_recovering] at ran
    rcases ranStatement : (statement nested).runAt before with ⟨diagnostic | tree, middle⟩
    · rw [ranStatement] at ran
      obtain ⟨-, rfl⟩ := Prod.mk.inj ran
      exact absurd quiet (List.append_ne_nil_of_right_ne_nil _ (List.cons_ne_nil _ _))
    · rw [ranStatement] at ran
      obtain ⟨same, rfl⟩ := Prod.mk.inj ran
      obtain rfl := Except.ok.inj same
      obtain ⟨tokens, cut, derived⟩ := reading.holds marked ranStatement quiet
      exact ⟨tokens, cut, tree, rfl, derived⟩

/-- A statement takes its keyword at least. -/
theorem statement_nonempty {tokens : List Token} {tree : Statement}
    (derived : StatementOf tokens tree) : 0 < tokens.length := by
  cases derived <;> simp only [List.cons_append, List.length_cons] <;> omega

/-- Statements are read as a sequence. With enough steps it ends at one of the ends. -/
theorem statements_reads (reads : Reads nested fun tokens _ tree => ExpressionOf tokens tree)
    (inBlock : Bool) (ends : List TokenKind) (steps : Nat) :
    Reads (statements nested inBlock ends steps) fun tokens rest trees =>
      Sequence StatementOf tokens trees ∧ ((tokens ++ rest).length < steps →
        ∃ token tail, rest = token :: tail ∧ token.kind ∈ ends) := by
  induction steps with
  | zero => exact .pure fun rest => ⟨.none, fun short => absurd short (Nat.not_lt_zero _)⟩
  | succ steps inductionHypothesis =>
      refine .checked (.pure ?_) ((Reads.accepted (by decide) (inductionHypothesis.mono ?_)
        (.bind (recovering_reads reads inBlock) fun first => .bind inductionHypothesis fun others =>
          .pure ?_)).mono fun tokens rest trees derived _ => derived)
      · intro rest ahead
        exact ⟨.none, fun _ => ahead⟩
      · rintro tokens rest trees ⟨following, whole⟩ semicolon kind
        refine ⟨.semicolon kind following, ?_⟩
        intro short
        apply whole
        rw [List.cons_append, List.length_cons] at short
        omega
      · rintro rest others ⟨following, whole⟩ tokens ⟨tree, rfl, derived⟩ ahead
        rw [List.append_nil]
        refine ⟨.statement derived following, ?_⟩
        intro short
        apply whole
        have taken := statement_nonempty derived
        simp only [List.length_append, List.length_nil] at short ⊢
        omega

/-- A block is read as one. -/
theorem block_reads (reads : Reads nested fun tokens _ tree => ExpressionOf tokens tree) :
    Reads (block nested) fun tokens _ body => BlockOf tokens body := by
  refine .expected (by decide) fun opening => .bind (.bounded fun steps =>
    (statements_reads reads true _ steps).mono fun tokens rest trees derived _ => derived.1)
    fun body => .expected (by decide) fun closing => .pure ?_
  intro rest closes inner items opens
  exact .braces opens items closes

/-- An arrow function is read as one. -/
theorem arrowFunction_reads (reads : Reads nested fun tokens _ tree => ExpressionOf tokens tree) :
    Reads (arrowFunction nested) fun tokens _ tree => OperandOf tokens tree := by
  refine .look fun opening => .bind (arrowHead_reads true) fun ⟨params, result⟩ =>
    .expected (by decide) fun arrow => .checked (.bind (block_reads reads) fun body => .pure ?_)
      (.bind (.peek 0) fun token => .throw _)
  rintro rest inner block ahead points _ heading ⟨tail, seen⟩
  obtain ⟨opens, inputs, closes, annotated⟩ := heading
  obtain rfl := (List.cons.inj seen).1
  have heading := ArrowHead.head opens inputs closes annotated
  rw [List.append_nil]
  exact .arrow heading points block

/-- An operand is read as one. -/
theorem operand_reads (reads : Reads nested fun tokens _ tree => ExpressionOf tokens tree) :
    Reads (operand nested) fun tokens _ tree => OperandOf tokens tree := by
  refine .bind (.check _) fun opens => .bind arrowAhead_reads fun found => .ite ?_ ?_
  · intro both
    refine (arrowFunction_reads reads).mono ?_
    rintro tokens rest tree derived _ rfl _ ⟨rfl, -⟩
    exact derived
  · intro neither
    refine .bind (primary_reads reads) fun first => .bounded fun steps =>
      (applications_reads reads steps first).mono ?_
    rintro others rest tree applications - tokens primary _ rfl _ ⟨rfl, -⟩
    have whole := OperandOf.applied primary applications
    exact whole

/-- Operands after plus signs are read as such. -/
theorem sums_reads (reads : Reads nested fun tokens _ tree => ExpressionOf tokens tree)
    (steps : Nat) (left : Expression) :
    Reads (sums nested steps left) fun tokens _ tree => Sums OperandOf tokens left tree := by
  induction steps generalizing left with
  | zero => exact .pure fun rest => .none
  | succ steps inductionHypothesis =>
      refine .bind (.matched (by decide)) fun operator => ?_
      cases operator with
      | none =>
          refine .pure ?_
          rintro rest _ (⟨token, found, -⟩ | ⟨-, rfl, -⟩)
          · exact nomatch found
          · exact .none
      | some operator =>
          refine .bind (operand_reads reads) fun right => (inductionHypothesis _).mono ?_
          rintro others rest tree following tokens operand _
            (⟨token, found, rfl, kind⟩ | ⟨found, -⟩)
          · obtain rfl := Option.some.inj found
            have whole := Sums.plus (List.mem_singleton.mp kind) operand following
            exact whole
          · exact nomatch found

/-- A sum is read as one. -/
theorem binary_reads (reads : Reads nested fun tokens _ tree => ExpressionOf tokens tree) :
    Reads (binary nested) fun tokens _ tree => BinaryOf tokens tree := by
  refine .bind (operand_reads reads) fun first => .bounded fun steps =>
    (sums_reads reads steps first).mono ?_
  rintro others rest tree sums - tokens operand
  exact .sum operand sums

/-- A conditional is read as one, and what could be its test as itself. -/
theorem conditional_reads (reads : Reads nested fun tokens _ tree => ExpressionOf tokens tree) :
    Reads (conditional nested) fun tokens _ tree => ExpressionOf tokens tree := by
  refine .bind (binary_reads reads) fun test => .accepted (by decide) (.bind reads fun consequent =>
    .expected (by decide) fun colon => .bind reads fun alternate => .pure ?_) (.pure ?_)
  · intro rest third negative splits second positive question asks first tests
    have whole := ExpressionOf.conditional tests asks positive splits negative
    simpa only [List.append_nil, List.append_assoc, List.cons_append] using whole
  · intro rest ahead tokens tests
    rw [List.append_nil]
    exact .binary tests

end Expressions

/-- Expressions of any depth are read as such. -/
theorem expressionWithin_reads (depth : Nat) :
    Reads (expressionWithin depth) fun tokens _ tree => ExpressionOf tokens tree := by
  induction depth with
  | zero => exact .unexpected _
  | succ depth inductionHypothesis => exact conditional_reads inductionHypothesis

/-- An expression is read as one. -/
theorem expression_reads : Reads expression fun tokens _ tree => ExpressionOf tokens tree := by
  refine .bounded fun depth => (expressionWithin_reads depth).mono ?_
  intro tokens rest tree derived _
  exact derived

/-- A program is read as one, up to the mark of the end. -/
theorem program_reads :
    Reads program fun tokens rest program => ProgramOf tokens program ∧
      ∃ token tail, rest = token :: tail ∧ token.kind = .endOfFile := by
  have whole : Reads (bounded (statements expression false [.endOfFile])) fun tokens rest body =>
      Sequence StatementOf tokens body ∧
        ∃ token tail, rest = token :: tail ∧ token.kind ∈ [.endOfFile] := by
    refine .bounded fun steps => (statements_reads expression_reads false _ steps).mono ?_
    rintro tokens rest body ⟨derived, stops⟩ short
    exact ⟨derived, stops short⟩
  refine .bind whole fun body => .pure ?_
  rintro rest tokens ⟨derived, token, tail, ahead, mark⟩
  rw [List.append_nil]
  exact ⟨⟨derived, rfl⟩, token, tail, ahead, List.mem_singleton.mp mark⟩

end ArrowScript.Parser
