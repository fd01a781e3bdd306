import ArrowScript.Proofs.Parser.Consumption
import ArrowScript.Proofs.Parser.Soundness

/-!
# Types are read as the grammar derives them

Every type that the grammar derives is consumed by the parser, whatever follows it
except an opening bracket. A parser that lets the name `any` pass consumes the types
without it as well, so the lemmas have one flag for the parser and one for the grammar.

The bounds on nested and repeated steps are handled together. A rule whose tokens are at
most so many has parts with fewer tokens, and a bound that exceeds the number of tokens
ahead exceeds the number of steps that they allow for.
-/

namespace ArrowScript.Parser

open Grammar

section Items

variable {α : Type} {item : Parser α} {Item : List Token → α → Prop} {limit steps : Nat}
  {closing : TokenKind} {tokens rest : List Token} {trees : List α}

/-- What follows an item is a comma or what follows the items. -/
theorem following_next (following : Following Item tokens trees)
    (closes : Next (· = closing) rest) :
    Next (fun kind => kind = .comma ∨ kind = closing) (tokens ++ rest) := by
  cases following with
  | none => exact closes.mono fun _ same => .inr same
  | item separator first following => exact .of_cons (.inl separator)

/-- Items after commas are consumed up to a closing token. -/
theorem moreItems_consumes
    (accepts : Accepts item Item limit (Next fun kind => kind = .comma ∨ kind = closing))
    (other : closing ≠ .comma) (following : Following Item tokens trees)
    (short : tokens.length ≤ limit) (enough : tokens.length ≤ steps)
    (closes : Next (· = closing) rest) : Consumes (moreItems item steps) tokens rest trees := by
  induction following generalizing steps with
  | none =>
      cases steps with
      | zero => exact .pure [] rest
      | succ steps => exact .declined (closes.mono fun _ same => same ▸ other) (.pure [] rest)
  | item separator first following inductionHypothesis =>
      simp only [List.cons_append, List.length_cons, List.length_append] at short enough
      cases steps with
      | zero => omega
      | succ steps =>
          have others := @inductionHypothesis steps (by omega) (by omega)
          have one := accepts first (by omega) (following_next following closes)
          exact .accepted (by decide) separator (one.bind others.last)

/-- Items up to a closing token are consumed with it. -/
theorem itemsUntil_consumes {token : Token}
    (accepts : Accepts item Item limit (Next fun kind => kind = .comma ∨ kind = closing))
    (begins : ∀ {tokens tree}, Item tokens tree → Next (· ≠ closing) tokens)
    (other : closing ≠ .comma) (lexeme : closing ≠ .endOfFile)
    (derived : Enumeration Item tokens trees) (short : tokens.length ≤ limit)
    (closes : token.kind = closing) (rest : List Token) :
    Consumes (itemsUntil item closing) (tokens ++ [token]) rest trees := by
  have ended (trees : List α) :
      Consumes (expect closing >>= fun _ => pure trees) [token] rest trees :=
    .expected lexeme closes (.pure trees rest)
  cases derived with
  | none => exact .checked (.of_cons (List.mem_singleton.mpr closes)) (ended [])
  | @items head others tree trees first following =>
      have next : Next (· ∉ [closing]) (head ++ others ++ [token] ++ rest) := by
        simp only [List.append_assoc]
        exact ((begins first).append _).mono fun kind different among =>
          different (List.mem_singleton.mp among)
      rw [List.length_append] at short
      have close : Next (· = closing) ([token] ++ rest) := .of_cons closes
      have more : Consumes (bounded (moreItems item)) others ([token] ++ rest) trees := by
        refine .bounded (moreItems_consumes accepts other following (by omega) ?_ close)
        rw [List.length_append]
        omega
      have one := accepts first (by omega) (following_next following close)
      have items : Consumes (items item) (head ++ others) ([token] ++ rest) (tree :: trees) :=
        one.bind more.last
      exact .unchecked next (items.bind (ended _))

end Items

/-! ## Types -/

section Types

variable {rejectAny strict : Bool} {nested : Parser Ascription} {limit : Nat}

/-- What may follow a type: another token than an opening bracket, or an opening bracket
whose contents are not empty. -/
inductive TypeEnds : List Token → Prop where
  | other {token : Token} {tail : List Token} (kind : token.kind ≠ .leftBracket) :
      TypeEnds (token :: tail)
  | filled {opening token : Token} {tail : List Token} (kind : token.kind ≠ .rightBracket) :
      TypeEnds (opening :: token :: tail)

/-- A type may be followed by any token but an opening bracket. -/
theorem TypeEnds.of_next {rest : List Token} (next : Next (· ≠ .leftBracket) rest) :
    TypeEnds rest := by
  obtain ⟨token, tail, rfl, other⟩ := next
  exact .other other

/-- A type ends where it may. -/
theorem arraySuffixes_stops {rest : List Token} (ends : TypeEnds rest) (steps : Nat)
    (element : Ascription) : Consumes (arraySuffixes steps element) [] rest element := by
  cases steps with
  | zero => exact .pure element rest
  | succ steps =>
      intro cursor ahead
      have start : cursor.rest = rest := ahead
      unfold arraySuffixes
      cases ends with
      | other kind =>
          rw [runAt_bind_ok (runAt_check start), runAt_bind_ok (runAt_glance 1 cursor), if_neg,
            cursor_eq start]
          · rfl
          · intro both
            have found := ((Bool.and_eq_true _ _).mp both).1
            exact kind (List.mem_singleton.mp (List.contains_iff_mem.mp found))
      | @filled opening token tail kind =>
          have second : cursor.ahead 1 = token := by
            simp only [Cursor.ahead, start, List.getElem?_cons_succ, List.getElem?_cons_zero,
              Option.getD_some]
          rw [runAt_bind_ok (runAt_check start), runAt_bind_ok (runAt_glance 1 cursor), if_neg,
            cursor_eq start]
          · rfl
          · intro both
            have closes := of_decide_eq_true ((Bool.and_eq_true _ _).mp both).2
            exact kind (second ▸ closes)

/-- Brackets after a type are consumed as far as they are empty. -/
theorem arraySuffixes_consumes {tokens rest : List Token} {element type : Ascription}
    {steps : Nat} (marks : Marks tokens element type) (enough : tokens.length ≤ steps)
    (ends : TypeEnds rest) : Consumes (arraySuffixes steps element) tokens rest type := by
  induction marks generalizing steps with
  | none => exact arraySuffixes_stops ends steps _
  | @mark opening closing others element type opens closes marks inductionHypothesis =>
      simp only [List.length_cons] at enough
      cases steps with
      | zero => omega
      | succ steps =>
          have further := @inductionHypothesis steps (by omega)
          intro cursor ahead
          have second : cursor.ahead 1 = closing := by
            simp only [Cursor.ahead, ahead, List.cons_append, List.getElem?_cons_succ,
              List.getElem?_cons_zero, Option.getD_some]
          unfold arraySuffixes
          rw [runAt_bind_ok (runAt_check ahead), runAt_bind_ok (runAt_glance 1 cursor), if_pos]
          · have taken : Consumes (advance >>= fun _ => advance >>= fun _ =>
                arraySuffixes steps (.array element.offset element))
                (opening :: closing :: others) rest type :=
              .take (by rw [opens]; decide) (.take (by rw [closes]; decide) further)
            exact taken cursor ahead
          · rw [opens, second, closes]
            rfl

/-- An annotation is consumed where there is one, and what follows it is consumed. -/
theorem annotated_consumes {α : Type} {next : Option Ascription → Parser α} {output : α}
    {tokens others rest : List Token} {found : Option Ascription}
    (accepts : Accepts nested (TypeOf strict) limit TypeEnds)
    (annotated : Optional (AnnotationOf strict) tokens found) (short : tokens.length ≤ limit)
    (ends : Next (· ∉ [.colon, .leftBracket]) (others ++ rest))
    (following : Consumes (next found) others rest output) :
    Consumes (accept .colon >>= fun found =>
      if found = true then some <$> nested >>= next else pure none >>= next)
      (tokens ++ others) rest output := by
  cases annotated with
  | absent => exact .declined (ends.ne (by decide)) following
  | present annotation =>
      obtain ⟨colon, type⟩ := annotation
      rw [List.length_cons] at short
      have taken := accepts type (by omega) (.of_next (ends.ne (by decide)))
      exact .accepted (by decide) colon ((taken.map some).bind following)

/-- A parameter is consumed before a comma or the end of the parameters. -/
theorem parameter_accepts (accepts : Accepts nested (TypeOf strict) limit TypeEnds) :
    Accepts (parameter nested) (ParameterOf strict) limit
      (Next fun kind => kind = .comma ∨ kind = .rightParen) := by
  intro tokens rest param derived short follow
  obtain @⟨name, tokens, ascription, kind, annotated⟩ := derived
  rw [List.length_cons] at short
  have ends : Next (· ∉ [.colon, .leftBracket]) ([] ++ rest) := by
    refine follow.mono ?_
    rintro _ (rfl | rfl) <;> decide
  refine .expected (by decide) kind ?_
  rw [← List.append_nil tokens]
  exact annotated_consumes accepts annotated (by omega) ends (.pure _ rest)

/-- A parameter begins with its name. -/
theorem parameter_begins {tokens : List Token} {param : Parameter}
    (derived : ParameterOf strict tokens param) : Next (· = .identifier) tokens := by
  obtain ⟨kind, annotated⟩ := derived
  exact .of_cons kind

/-- Parameters are consumed with their parentheses. -/
theorem parameters_consumes (accepts : Accepts nested (TypeOf strict) limit TypeEnds)
    {opening closing : Token} {inner : List Token} {params : List Parameter}
    (opens : opening.kind = .leftParen) (inputs : Enumeration (ParameterOf strict) inner params)
    (closes : closing.kind = .rightParen) (short : inner.length ≤ limit) (rest : List Token) :
    Consumes (parameters nested) (opening :: inner ++ [closing]) rest params := by
  refine .expected (by decide) opens (itemsUntil_consumes (parameter_accepts accepts) ?_
    (by decide) (by decide) inputs short closes rest)
  intro tokens param derived
  refine (parameter_begins derived).mono ?_
  rintro _ rfl
  decide

/-- A simple type is consumed before its brackets. -/
theorem simpleAscription_consumes (accepts : Accepts nested (TypeOf strict) limit TypeEnds)
    (stricter : rejectAny → strict) {tokens : List Token} {type : Ascription}
    (derived : SimpleType strict tokens type) (short : tokens.length ≤ limit + 1)
    (rest : List Token) : Consumes (simpleAscription rejectAny nested) tokens rest type := by
  cases derived with
  | @primitive word kind =>
      have lexeme : word.kind ≠ .endOfFile := by
        intro mark
        rw [mark] at kind
        exact nomatch kind
      refine .look rfl ?_
      rw [if_pos kind]
      exact .take lexeme (.pure _ rest)
  | @named name kind allowed =>
      have named : ¬name.kind.isPrimitiveType = true := by
        rw [kind]
        decide
      have passed : ¬(rejectAny && rejectedName name.text) = true := by
        intro both
        obtain ⟨rejects, any⟩ := (Bool.and_eq_true _ _).mp both
        exact allowed (stricter rejects) (eq_of_beq any)
      refine .look rfl ?_
      rw [if_neg named, if_pos kind, if_neg passed]
      exact .take (by rw [kind]; decide) (.pure _ rest)
  | @array word opening closing inner element kind opens elements closes =>
      simp only [List.cons_append, List.length_cons, List.length_append] at short
      have ends : TypeEnds ([closing] ++ rest) := .other (by rw [closes]; decide)
      have taken := accepts elements (by omega) ends
      refine .look rfl ?_
      rw [if_neg (by rw [kind]; decide), if_neg (by rw [kind]; decide), if_pos kind]
      exact .take (by rw [kind]; decide) (.expected (by decide) opens (taken.bind
        (.expected (by decide) closes (.pure _ rest))))

/-- A function type is consumed before its brackets. -/
theorem functionType_consumes (accepts : Accepts nested (TypeOf strict) limit TypeEnds)
    {opening closing arrow : Token} {inner output rest : List Token}
    {params : List Parameter} {result : Ascription}
    (opens : opening.kind = .leftParen) (inputs : Enumeration (ParameterOf strict) inner params)
    (closes : closing.kind = .rightParen) (points : arrow.kind = .arrow)
    (outputs : TypeOf strict output result) (ends : TypeEnds rest)
    (short : (opening :: inner ++ closing :: arrow :: output).length ≤ limit + 1) :
    Consumes (simpleAscription rejectAny nested)
      (opening :: inner ++ closing :: arrow :: output) rest
      (.function opening.offset params result) := by
  simp only [List.cons_append, List.length_cons, List.length_append] at short
  have heads := parameters_consumes accepts opens inputs closes (by omega)
    (arrow :: output ++ rest)
  have taken := accepts outputs (by omega) ends
  refine .look rfl ?_
  rw [if_neg (by rw [opens]; decide), if_neg (by rw [opens]; decide),
    if_neg (by rw [opens]; decide), if_pos opens]
  have cut : opening :: inner ++ closing :: arrow :: output =
      opening :: inner ++ [closing] ++ arrow :: output := by
    rw [List.append_assoc, List.singleton_append]
  rw [cut]
  exact heads.bind (.expected (by decide) points taken.last)

/-- A type has a token at least. -/
theorem type_nonempty {tokens : List Token} {type : Ascription}
    (derived : TypeOf strict tokens type) : 0 < tokens.length := by
  cases derived with
  | simple first marks =>
      cases first <;> simp only [List.cons_append, List.length_cons] <;> omega
  | function =>
      simp only [List.cons_append, List.length_cons]
      omega

/-- Types are consumed up to what may follow them. -/
theorem ascriptionWithin_accepts (stricter : rejectAny → strict) (depth : Nat) :
    Accepts (ascriptionWithin rejectAny depth) (TypeOf strict) depth TypeEnds := by
  induction depth with
  | zero =>
      intro tokens rest type derived short ends
      have some := type_nonempty derived
      omega
  | succ depth inductionHypothesis =>
      intro tokens rest type derived short ends
      cases derived with
      | @simple tokens brackets simple type first marks =>
          rw [List.length_append] at short
          have taken := simpleAscription_consumes inductionHypothesis stricter first (by omega)
            (brackets ++ rest)
          refine taken.bind (.bounded (arraySuffixes_consumes marks ?_ ends))
          rw [List.length_append]
          omega
      | @function opening closing arrow inner output params result opens inputs closes points
          outputs =>
          rw [← List.append_nil (opening :: inner ++ closing :: arrow :: output)]
          exact (functionType_consumes inductionHypothesis opens inputs closes points outputs ends
            short).bind (.bounded (arraySuffixes_stops ends _ _))

/-- Types are consumed where they are read to any depth. -/
theorem ascription_accepts (stricter : rejectAny → strict) (limit : Nat) :
    Accepts (ascription rejectAny) (TypeOf strict) limit TypeEnds := by
  intro tokens rest type derived short ends
  refine .bounded (ascriptionWithin_accepts stricter _ derived ?_ ends)
  rw [List.length_append]
  omega

/-- The part of an arrow function before its arrow is consumed. -/
theorem arrowHead_consumes (stricter : rejectAny → strict) {tokens rest : List Token}
    {head : List Parameter × Option Ascription} (derived : ArrowHead strict tokens head)
    (points : Next (· = .arrow) rest) : Consumes (arrowHead rejectAny) tokens rest head := by
  obtain @⟨opening, closing, inner, output, params, result, opens, inputs, closes, annotated⟩ :=
    derived
  have heads := parameters_consumes (ascription_accepts stricter inner.length) opens inputs closes
    (Nat.le_refl _) (output ++ rest)
  have ends : Next (· ∉ [.colon, .leftBracket]) ([] ++ rest) := by
    refine points.mono ?_
    rintro _ rfl
    decide
  have cut : opening :: inner ++ closing :: output =
      opening :: inner ++ [closing] ++ (output ++ []) := by
    rw [List.append_nil, List.append_assoc, List.singleton_append]
  rw [← List.append_nil output] at heads
  rw [cut]
  exact heads.bind (annotated_consumes (ascription_accepts stricter output.length) annotated
    (Nat.le_refl _) ends (.pure _ rest))

/-- An arrow function is seen where its head and its arrow come next. -/
theorem arrowAhead_found {tokens rest : List Token}
    {head : List Parameter × Option Ascription} (derived : ArrowHead strict tokens head)
    (points : Next (· = .arrow) rest) : Consumes arrowAhead [] (tokens ++ rest) true := by
  have lenient : false = true → strict := fun absurd => nomatch absurd
  intro cursor ahead
  have start : cursor.rest = tokens ++ rest := ahead
  rw [runAt_arrowAhead, arrowHead_consumes lenient derived points cursor start, cursor_eq start]
  obtain ⟨token, tail, rfl, kind⟩ := points
  have next : ({ cursor with rest := token :: tail } : Cursor).ahead 0 = token := ahead_cons rfl
  simp only [next, kind, decide_true]

end Types

end ArrowScript.Parser
