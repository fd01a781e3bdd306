import ArrowScript.Proofs.Parser.Annotations

/-!
# The look ahead for arrow functions

An opening parenthesis begins an arrow function or an expression between parentheses.
The parser decides by scanning for the head of an arrow function with an arrow behind
it. It is shown here that the scan finds none where the grammar derives an expression
between parentheses.

The scan gets through the parentheses only if there is a single name between them. When
a colon comes next, the parentheses are the last part of the positive branch of a
conditional, and the scan goes on to read the negative branch as a type. An expression
can begin like a type, but no arrow ever follows it: after a name there is no arrow, and
after parameters of an arrow function and its arrow there is a brace in place of a type.
-/

namespace ArrowScript.Parser

open Grammar

variable {α β : Type} {parser : Parser α} {following : α → Parser β} {result : α}
  {tokens first rest : List Token}

/-- The parser does not end before an arrow. -/
def Misses (parser : Parser α) (tokens : List Token) : Prop :=
  ∀ ⦃cursor after : Cursor⦄ ⦃result : α⦄, cursor.rest = tokens →
    parser.runAt cursor = (.ok result, after) → (after.ahead 0).kind ≠ .arrow

/-- A parser that fails ends nowhere. -/
theorem Fails.misses (fails : Fails parser tokens) : Misses parser tokens := by
  intro cursor after result ahead ran
  obtain ⟨diagnostic, other, failed⟩ := fails cursor ahead
  rw [failed] at ran
  exact nomatch (Prod.mk.inj ran).1

/-- A parser that consumes some tokens ends behind them. -/
theorem Consumes.stops (consumes : Consumes parser first rest result)
    (ends : Next (· ≠ .arrow) rest) : Misses parser (first ++ rest) := by
  intro cursor after output ahead ran
  rw [consumes cursor ahead] at ran
  obtain ⟨-, rfl⟩ := Prod.mk.inj ran
  obtain ⟨token, tail, rfl, other⟩ := ends
  have next : ({ cursor with rest := token :: tail } : Cursor).ahead 0 = token := ahead_cons rfl
  rw [next]
  exact other

/-- After what is consumed the run goes on with the next parser. -/
theorem Consumes.misses (head : Consumes parser first rest result)
    (tail : Misses (following result) rest) :
    Misses (parser >>= following) (first ++ rest) := by
  intro cursor after output ahead ran
  rw [runAt_bind_ok (head cursor ahead)] at ran
  have start : ({ cursor with rest } : Cursor).rest = rest := rfl
  exact tail start ran

namespace Misses

/-- Where a parser ends the sequence goes on, which need not move. -/
theorem last (misses : Misses parser tokens) {form : α → β} :
    Misses (parser >>= fun result => pure (form result)) tokens := by
  intro cursor after output ahead ran
  rcases head : parser.runAt cursor with ⟨diagnostic | result, middle⟩
  · rw [runAt_bind_error head] at ran
    exact nomatch (Prod.mk.inj ran).1
  · rw [runAt_bind_ok head] at ran
    obtain ⟨-, rfl⟩ := Prod.mk.inj ran
    exact misses ahead head

/-- A rule with a bound that exceeds the number of tokens ahead. -/
theorem bounded {rule : Nat → Parser α} (misses : Misses (rule (tokens.length + 1)) tokens) :
    Misses (bounded rule) tokens := by
  intro cursor after output ahead ran
  rw [← ahead] at misses
  exact misses rfl ran

end Misses

/-- Without the head of an arrow function and an arrow ahead, none is seen. -/
theorem arrowAhead_missed (misses : Misses (arrowHead false) tokens) :
    Consumes arrowAhead [] tokens false := by
  intro cursor ahead
  have start : cursor.rest = tokens := ahead
  rw [runAt_arrowAhead, cursor_eq start]
  rcases ran : (arrowHead false).runAt cursor with ⟨diagnostic | head, after⟩
  · rfl
  · have other := misses start ran
    simp only [other, decide_false]

/-! ## How an expression begins -/

/-- The kinds of tokens with which an expression begins. -/
def starters : List TokenKind :=
  [.number, .string, .trueKeyword, .falseKeyword, .identifier, .leftBracket, .leftParen]

/-- A primary expression begins with a starter. -/
theorem primary_next {tree : Expression} (derived : PrimaryOf tokens tree) :
    Next (· ∈ starters) tokens := by
  cases derived with
  | number kind | string kind | truth kind | falsity kind | identifier kind =>
      exact .of_cons (by rw [kind]; decide)
  | array opens => exact .of_cons (by rw [opens]; decide)
  | parenthesized opens => exact .of_cons (by rw [opens]; decide)

/-- The head of an arrow function begins with a parenthesis. -/
theorem arrowHead_next {strict : Bool} {head : List Parameter × Option Ascription}
    (derived : ArrowHead strict tokens head) : Next (· = .leftParen) tokens := by
  obtain ⟨opens, inputs, closes, annotated⟩ := derived
  exact .of_cons opens

/-- An operand begins with a starter. -/
theorem operand_next {tree : Expression} (derived : OperandOf tokens tree) :
    Next (· ∈ starters) tokens := by
  cases derived with
  | arrow heading points block =>
      refine ((arrowHead_next heading).append _).mono ?_
      rintro _ rfl
      decide
  | applied primary applications => exact (primary_next primary).append _

/-- An expression begins with a starter. -/
theorem expression_next {tree : Expression} (derived : ExpressionOf tokens tree) :
    Next (· ∈ starters) tokens := by
  cases derived with
  | binary sum =>
      obtain ⟨operand, sums⟩ := sum
      exact (operand_next operand).append _
  | conditional tests =>
      obtain ⟨operand, sums⟩ := tests
      simp only [List.append_assoc]
      exact (operand_next operand).append _

/-- What may come after the first part of an expression within it. -/
inductive Continues : List Token → Prop where
  | none : Continues []
  | operator {token : Token} {tail : List Token}
      (kind : token.kind ∈ [.leftParen, .plus, .question]) : Continues (token :: tail)
  | index {opening token : Token} {tail : List Token} (opens : opening.kind = .leftBracket)
      (kind : token.kind ≠ .rightBracket) : Continues (opening :: token :: tail)

/-- The beginning of an expression, up to the point where it can be told from a type. -/
inductive Begins : List Token → Prop where
  | literal {token : Token} {tail : List Token}
      (kind : token.kind ∈ [.number, .string, .trueKeyword, .falseKeyword, .leftBracket]) :
      Begins (token :: tail)
  | name {name : Token} {others : List Token} (kind : name.kind = .identifier)
      (continues : Continues others) : Begins (name :: others)
  | parenthesized {opening closing : Token} {inner others : List Token} {tree : Expression}
      (opens : opening.kind = .leftParen) (inside : ExpressionOf inner tree)
      (closes : closing.kind = .rightParen) (continues : Continues others) :
      Begins (opening :: inner ++ closing :: others)
  | arrow {arrow brace : Token} {head others : List Token}
      {heading : List Parameter × Option Ascription} (derived : ArrowHead true head heading)
      (points : arrow.kind = .arrow) (opens : brace.kind = .leftCurly) :
      Begins (head ++ arrow :: brace :: others)

/-- How an expression begins that has a primary one in front. -/
theorem primary_begins {tree : Expression} {others : List Token}
    (derived : PrimaryOf tokens tree) (continues : Continues others) :
    Begins (tokens ++ others) := by
  cases derived with
  | number kind | string kind | truth kind | falsity kind =>
      exact .literal (by rw [kind]; decide)
  | identifier kind => exact .name kind continues
  | array opens => exact .literal (by rw [opens]; decide)
  | parenthesized opens inside closes =>
      rw [List.append_assoc, List.singleton_append]
      exact .parenthesized opens inside closes continues

/-- What is applied to an operand comes after its first part. -/
theorem applications_continue {applied tree : Expression} {others : List Token}
    (derived : Applications ExpressionOf tokens applied tree) (continues : Continues others) :
    Continues (tokens ++ others) := by
  cases derived with
  | none => exact continues
  | call opens => exact .operator (by rw [opens]; decide)
  | index opens inside =>
      obtain ⟨token, tail, rfl, starts⟩ := expression_next inside
      refine .index opens ?_
      intro closes
      rw [closes] at starts
      exact absurd starts (by decide)

/-- How an expression begins that has an operand in front. -/
theorem operand_begins {tree : Expression} {others : List Token}
    (derived : OperandOf tokens tree) (continues : Continues others) :
    Begins (tokens ++ others) := by
  cases derived with
  | arrow heading points block =>
      obtain ⟨opens, items, closes⟩ := block
      rw [List.append_assoc]
      exact .arrow heading points opens
  | applied primary applications =>
      rw [List.append_assoc]
      exact primary_begins primary (applications_continue applications continues)

/-- How an expression begins that has a sum in front. -/
theorem binary_begins {tree : Expression} {others : List Token}
    (derived : BinaryOf tokens tree) (continues : Continues others) :
    Begins (tokens ++ others) := by
  obtain ⟨operand, sums⟩ := derived
  rw [List.append_assoc]
  refine operand_begins operand ?_
  cases sums with
  | none => exact continues
  | plus kind => exact .operator (by rw [kind]; decide)

/-- How an expression begins. -/
theorem expression_begins {tree : Expression} (derived : ExpressionOf tokens tree) :
    Begins tokens := by
  cases derived with
  | binary sum =>
      rw [← List.append_nil tokens]
      exact binary_begins sum .none
  | conditional tests asks =>
      rw [List.append_assoc]
      exact binary_begins tests (.operator (by rw [asks]; decide))

/-! ## What the scan finds -/

/-- What may follow an operand. Behind a colon there is no type with an arrow after it. -/
structure Stops (rest : List Token) : Prop where
  next : Next (· ∉ [.leftParen, .leftBracket, .arrow]) rest
  split : ∀ {colon : Token} {tail : List Token}, rest = colon :: tail → colon.kind = .colon →
    Misses (ascription false) tail

/-- The tokens that are neither part of an expression nor a colon may follow an operand. -/
theorem Stops.of_next (next : Next (· ∉ [.leftParen, .leftBracket, .arrow, .colon]) rest) :
    Stops rest where
  next := next.fewer (by decide)
  split := by
    rintro colon tail rfl kind
    obtain ⟨_, _, same, absent⟩ := next
    obtain ⟨rfl, -⟩ := List.cons.inj same
    rw [kind] at absent
    exact absurd (by decide) absent

/-- More of an expression may come before what follows it. -/
theorem continues_next {others : List Token} {holds : TokenKind → Prop}
    (continues : Continues others) (follows : Next holds rest)
    (operators : ∀ kind ∈ [TokenKind.leftParen, .plus, .question, .leftBracket], holds kind) :
    Next holds (others ++ rest) := by
  cases continues with
  | none => exact follows
  | operator kind =>
      refine .of_cons (operators _ ?_)
      exact (by decide : ∀ kind ∈ [TokenKind.leftParen, .plus, .question],
        kind ∈ [TokenKind.leftParen, .plus, .question, .leftBracket]) _ kind
  | index opens kind => exact .of_cons (opens ▸ operators .leftBracket (by decide))

/-- A type may end where an expression goes on. -/
theorem continues_ends {others : List Token} (continues : Continues others)
    (follows : Next (· ≠ .leftBracket) rest) : TypeEnds (others ++ rest) := by
  cases continues with
  | none => exact .of_next follows
  | operator kind =>
      refine .other ?_
      intro opens
      rw [opens] at kind
      exact absurd kind (by decide)
  | index opens kind => exact .filled kind

section Parameters

variable {nested : Parser Ascription} {opening closing : Token} {inner : List Token}

/-- Parameters begin with a name or end at once. -/
theorem parameters_fails (opens : opening.kind = .leftParen)
    (ahead : Next (· ∉ [.identifier, .rightParen]) tokens) :
    Fails (parameters nested) (opening :: tokens) := by
  have refused : Fails (itemsUntil (parameter nested) .rightParen) tokens :=
    .unchecked (ahead.fewer (by decide)) (.bind (.bind (.expected (ahead.ne (by decide))) _) _)
  have taken : Consumes (expect .leftParen) [opening] tokens opening :=
    .expect (by decide) opens tokens
  exact taken.fails refused

/-- Parameters do not end after a name that something else follows. -/
theorem parameters_fails_name {name : Token} (opens : opening.kind = .leftParen)
    (kind : name.kind = .identifier) (ahead : Next (· ∉ [.colon, .comma, .rightParen]) tokens) :
    Fails (parameters nested) (opening :: name :: tokens) := by
  have one : Consumes (parameter nested) [name] ([] ++ tokens)
      { offset := name.offset, name := name.text } :=
    .expected (by decide) kind (.declined (ahead.ne (by decide)) (.pure _ tokens))
  have more : Consumes (bounded (moreItems (parameter nested))) [] tokens [] :=
    .bounded (.declined (ahead.ne (by decide)) (.pure [] tokens))
  have taken : Consumes (items (parameter nested)) ([name] ++ []) tokens
      [{ offset := name.offset, name := name.text }] := one.bind more.last
  have unclosed : Next (· ∉ [.rightParen]) (name :: tokens) := .of_cons (by rw [kind]; decide)
  have refused : Fails (itemsUntil (parameter nested) .rightParen) (name :: tokens) :=
    .unchecked unclosed (taken.fails (.expected (ahead.ne (by decide))))
  have start : Consumes (expect .leftParen) [opening] (name :: tokens) opening :=
    .expect (by decide) opens (name :: tokens)
  exact start.fails refused

/-- An expression between parentheses can be taken for parameters only if it is a name. -/
theorem parameters_refuse {tree : Expression} (opens : opening.kind = .leftParen)
    (inside : ExpressionOf inner tree) :
    (∃ name, inner = [name] ∧ name.kind = .identifier) ∨
      Fails (parameters nested) (opening :: inner ++ closing :: rest) := by
  have away {kinds : List TokenKind} (next : Next (· ∈ kinds) inner)
      (apart : ∀ kind ∈ kinds, kind ∉ [TokenKind.identifier, .rightParen]) :
      Fails (parameters nested) (opening :: inner ++ closing :: rest) :=
    parameters_fails opens ((next.append _).mono apart)
  cases expression_begins inside with
  | literal kind => exact .inr (away (.of_cons kind) (by decide))
  | @name name others kind continues =>
      cases continues with
      | none => exact .inl ⟨name, rfl, kind⟩
      | operator follows =>
          refine .inr (parameters_fails_name opens kind (.of_cons ?_))
          exact (by decide : ∀ kind ∈ [TokenKind.leftParen, .plus, .question],
            kind ∉ [TokenKind.colon, .comma, .rightParen]) _ follows
      | index follows =>
          refine .inr (parameters_fails_name opens kind (.of_cons ?_))
          rw [follows]
          decide
  | parenthesized opens =>
      exact .inr (away (.of_cons (List.mem_singleton.mpr opens)) (by decide))
  | arrow derived =>
      exact .inr (away (((arrowHead_next derived).append _).mono
        fun _ => List.mem_singleton.mpr) (by decide))

/-- A name between parentheses is consumed as a parameter. -/
theorem parameters_name {strict : Bool} {limit : Nat} {name : Token}
    (accepts : Accepts nested (TypeOf strict) limit TypeEnds) (one : 1 ≤ limit)
    (opens : opening.kind = .leftParen) (kind : name.kind = .identifier)
    (closes : closing.kind = .rightParen) (rest : List Token) :
    Consumes (parameters nested) (opening :: [name] ++ [closing]) rest
      [{ offset := name.offset, name := name.text }] := by
  have named : Enumeration (ParameterOf strict) [name]
      [{ offset := name.offset, name := name.text }] :=
    .items (ParameterOf.parameter kind .absent) .none
  exact parameters_consumes accepts opens named closes one rest

end Parameters

/-! ### Types -/

section Types

variable {rejectAny : Bool} {nested : Parser Ascription} {opening closing : Token}
  {inner : List Token}

/-- A type begins with a name or a parenthesis. -/
theorem ascriptionWithin_fails (depth : Nat)
    (ahead : Next (fun kind => ¬kind.isPrimitiveType = true ∧
      kind ∉ [.identifier, .typeArray, .leftParen]) tokens) :
    Fails (ascriptionWithin rejectAny depth) tokens := by
  cases depth with
  | zero => exact .unexpected _ tokens
  | succ depth =>
      obtain ⟨token, tail, rfl, primitive, apart⟩ := ahead
      have other {kind : TokenKind}
          (among : kind ∈ [TokenKind.identifier, .typeArray, .leftParen]) :
          ¬token.kind = kind := by
        rintro rfl
        exact apart among
      refine .bind (.look ?_) _
      rw [if_neg primitive, if_neg (other (by decide)), if_neg (other (by decide)),
        if_neg (other (by decide))]
      exact .unexpected _ _

/-- A function type fails where its parts do. -/
theorem functionType_fails (opens : opening.kind = .leftParen)
    (fails : Fails (parameters nested >>= fun params => expect .arrow >>= fun _ => nested >>=
      fun result => pure (Ascription.function opening.offset params result)) (opening :: tokens)) :
    Fails (simpleAscription rejectAny nested) (opening :: tokens) := by
  refine .look ?_
  rw [if_neg (by rw [opens]; decide), if_neg (by rw [opens]; decide),
    if_neg (by rw [opens]; decide), if_pos opens]
  exact fails

/-- An expression between parentheses is not a type. -/
theorem parenthesized_fails {tree : Expression} {limit : Nat}
    (accepts : Accepts nested (TypeOf false) limit TypeEnds) (one : 1 ≤ limit)
    (opens : opening.kind = .leftParen) (inside : ExpressionOf inner tree)
    (closes : closing.kind = .rightParen) (next : Next (· ≠ .arrow) rest) :
    Fails (simpleAscription rejectAny nested) (opening :: inner ++ closing :: rest) := by
  refine functionType_fails opens ?_
  rcases parameters_refuse opens inside with ⟨name, rfl, kind⟩ | fails
  · exact (parameters_name accepts one opens kind closes rest).fails (.expected next)
  · exact fails.bind _

/-- An arrow function is not a type. -/
theorem arrow_fails {depth : Nat} {arrow brace : Token} {head others : List Token}
    {heading : List Parameter × Option Ascription} (derived : ArrowHead true head heading)
    (points : arrow.kind = .arrow) (opens : brace.kind = .leftCurly) (short : head.length ≤ depth) :
    Fails (simpleAscription false (ascriptionWithin false depth))
      (head ++ arrow :: brace :: others) := by
  have lenient : false = true → true = true := fun _ => rfl
  have accepts := ascriptionWithin_accepts lenient depth
  obtain @⟨opening, closing, inner, output, params, result, starts, inputs, closes, annotated⟩ :=
    derived
  simp only [List.cons_append, List.length_cons, List.length_append] at short
  have cut : opening :: inner ++ closing :: output ++ arrow :: brace :: others =
      opening :: inner ++ [closing] ++ (output ++ arrow :: brace :: others) := by
    simp only [List.cons_append, List.append_assoc, List.nil_append]
  have heads := parameters_consumes accepts starts inputs closes (by omega)
    (output ++ arrow :: brace :: others)
  refine functionType_fails starts ?_
  change Fails _ (opening :: inner ++ closing :: output ++ arrow :: brace :: others)
  rw [cut]
  refine heads.fails ?_
  cases annotated with
  | absent =>
      have taken : Consumes (expect .arrow) [arrow] (brace :: others) arrow :=
        .expect (by decide) points _
      refine taken.fails ((ascriptionWithin_fails depth (.of_cons ?_)).bind _)
      rw [opens]
      decide
  | present annotation =>
      obtain ⟨colon, type⟩ := annotation
      exact .expected (.of_cons (by rw [colon]; decide))

/-- An expression does not begin with a type before an arrow. -/
theorem ascription_misses {tree : Expression} (derived : ExpressionOf tokens tree)
    (next : Next (· ∉ [.leftBracket, .arrow]) rest) :
    Misses (ascription false) (tokens ++ rest) := by
  have lenient : false = true → false = true := id
  have accepts := ascriptionWithin_accepts lenient (tokens ++ rest).length
  refine .bounded ?_
  cases expression_begins derived with
  | literal kind =>
      refine (ascriptionWithin_fails _ (.of_cons ?_)).misses
      exact (by decide : ∀ kind ∈ [TokenKind.number, .string, .trueKeyword, .falseKeyword,
        .leftBracket], ¬kind.isPrimitiveType = true ∧
          kind ∉ [TokenKind.identifier, .typeArray, .leftParen]) _ kind
  | @name name others kind continues =>
      have simple : SimpleType false [name] (.named name.offset name.text) :=
        .named kind (fun absurd => nomatch absurd)
      have taken := simpleAscription_consumes accepts lenient simple
        (Nat.le_add_left 1 _) ([] ++ (others ++ rest))
      have ends := continues_ends continues (next.ne (by decide))
      have stopped : Consumes (bounded fun steps => arraySuffixes steps
          (.named name.offset name.text)) [] (others ++ rest) (.named name.offset name.text) :=
        .bounded (arraySuffixes_stops ends _ _)
      have follows : Next (· ≠ .arrow) (others ++ rest) :=
        continues_next continues (next.ne (by decide)) (by decide)
      have whole : Consumes (ascriptionWithin false ((name :: others ++ rest).length + 1))
          ([name] ++ []) (others ++ rest) (.named name.offset name.text) := taken.bind stopped
      exact whole.stops follows
  | @parenthesized opening closing inner others tree opens inside closes continues =>
      have follows : Next (· ≠ .arrow) (others ++ rest) :=
        continues_next continues (next.ne (by decide)) (by decide)
      refine (Fails.bind ?_ _).misses
      rw [List.append_assoc] at accepts ⊢
      refine parenthesized_fails accepts ?_ opens inside closes follows
      exact Nat.succ_le_succ (Nat.zero_le _)
  | arrow heading points opens =>
      refine (Fails.bind ?_ _).misses
      rw [List.append_assoc]
      refine arrow_fails heading points opens ?_
      rw [List.length_append]
      omega

end Types

/-- An expression between parentheses is not taken for the head of an arrow function. -/
theorem arrowHead_misses {opening closing : Token} {inner : List Token} {tree : Expression}
    (inside : ExpressionOf inner tree) (opens : opening.kind = .leftParen)
    (closes : closing.kind = .rightParen) (next : Next (· ≠ .arrow) rest)
    (split : ∀ {colon : Token} {tail : List Token}, rest = colon :: tail → colon.kind = .colon →
      Misses (ascription false) tail) :
    Misses (arrowHead false) (opening :: inner ++ closing :: rest) := by
  rcases parameters_refuse opens inside with ⟨name, rfl, kind⟩ | fails
  · have lenient : false = true → false = true := id
    refine (parameters_name (ascription_accepts lenient 1) (Nat.le_refl 1) opens kind closes
      rest).misses ?_
    obtain ⟨token, tail, rfl, other⟩ := next
    by_cases colon : token.kind = .colon
    · have taken : Consumes (accept .colon) [token] tail true := .accept (by decide) colon tail
      exact taken.misses (split rfl colon).last.last
    · have taken : Consumes (accept .colon) [] (token :: tail) false := .reject (.of_cons colon)
      exact taken.misses (Consumes.stops (.pure _ _) (.of_cons other))
  · exact (fails.bind _).misses

/-- No arrow function is seen where a primary expression comes next. -/
theorem primary_misses {others : List Token} {tree : Expression} (derived : PrimaryOf tokens tree)
    (continues : Continues others) (stops : Stops rest)
    (begins : Next (· = .leftParen) (tokens ++ others ++ rest)) :
    Consumes arrowAhead [] (tokens ++ others ++ rest) false := by
  obtain ⟨token, tail, same, start⟩ := begins
  have apart {other : Token} {kind : TokenKind} {rest : List Token}
      (same : other :: rest = token :: tail) (kept : other.kind = kind)
      (differs : kind ≠ .leftParen) : False := by
    obtain rfl := (List.cons.inj same).1
    exact differs (kept.symm.trans start)
  cases derived with
  | number kind | string kind | truth kind | falsity kind | identifier kind =>
      exact (apart same kind (by decide)).elim
  | array opens => exact (apart same opens (by decide)).elim
  | @parenthesized opening closing inner tree opens inside closes =>
      have cut : opening :: inner ++ [closing] ++ others ++ rest =
          opening :: inner ++ closing :: (others ++ rest) := by
        simp only [List.cons_append, List.append_assoc, List.nil_append]
      rw [cut]
      refine arrowAhead_missed (arrowHead_misses inside opens closes
        (continues_next continues (stops.next.ne (by decide)) (by decide)) ?_)
      intro colon tail same kind
      cases continues with
      | none => exact stops.split same kind
      | operator among =>
          obtain rfl := (List.cons.inj same).1
          rw [kind] at among
          exact absurd among (by decide)
      | index opens =>
          obtain rfl := (List.cons.inj same).1
          rw [kind] at opens
          exact nomatch opens

end ArrowScript.Parser
