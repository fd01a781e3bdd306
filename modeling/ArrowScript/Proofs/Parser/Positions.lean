import ArrowScript.Proofs.Parser.Composition
import ArrowScript.Proofs.Token.Exactness
import ArrowScript.Proofs.Compilation.Stages
import ArrowScript.Proofs.Tree.Order

/-!
# Trees stand where their tokens do

Whatever a parser reports on its way, the tree that it returns is placed over the tokens that
it has passed. `Spans` says this of a parser, with what holds of the passed tokens and the
result; unlike for what a parser has read, diagnostics may have been recorded. So the
statements after a recovered error are no exception, and neither are the blocks in which
there was one.

Most rules put a node at the token that they have looked at. `From` is about a parser in
front of that token.
-/

namespace ArrowScript

namespace Parser

variable {α β : Type}

/-- A run passes lexemes, and its result is related to them. -/
def Run (parser : Parser α) (Holds : List Token → α → Prop) (before : Cursor) : Prop :=
  ∃ tokens, before.rest = tokens ++ (parser.runAt before).2.rest ∧
    (∀ token ∈ tokens, token.kind ≠ .endOfFile) ∧
    ∀ result, (parser.runAt before).1 = .ok result → Holds tokens result

/-- What every run of a parser passes is related to its result. -/
def Spans (parser : Parser α) (Holds : List Token → α → Prop) : Prop :=
  ∀ before, Marked before.rest → Run parser Holds before

/-- What every run of a parser in front of a token passes is related to its result. -/
def From (token : Token) (parser : Parser α) (Holds : List Token → α → Prop) : Prop :=
  ∀ before tail, Marked before.rest → before.rest = token :: tail → Run parser Holds before

variable {parser other : Parser α} {next : α → Parser β} {Holds First : List Token → α → Prop}
  {Last : List Token → β → Prop}

/-- After a run that has passed some tokens, the next parser takes over. -/
theorem Run.bind {before : Cursor} (marked : Marked before.rest) (first : Run parser First before)
    (second : ∀ result tokens, First tokens result →
      Spans (next result) fun others output => Last (tokens ++ others) output) :
    Run (parser >>= next) Last before := by
  obtain ⟨tokens, cut, lexemes, holds⟩ := first
  rcases ran : parser.runAt before with ⟨diagnostic | result, middle⟩
  · rw [ran] at cut
    refine ⟨tokens, ?_, lexemes, ?_⟩
    · rw [runAt_bind_error ran]
      exact cut
    · rw [runAt_bind_error ran]
      nofun
  · rw [ran] at cut holds
    have left : Marked middle.rest := by
      rw [cut] at marked
      exact marked.drop lexemes
    obtain ⟨others, cutOthers, further, holdsLast⟩ :=
      second result tokens (holds result rfl) middle left
    rw [Run, runAt_bind_ok ran]
    refine ⟨tokens ++ others, ?_, ?_, holdsLast⟩
    · rw [cut, cutOthers, List.append_assoc]
    · intro token among
      rcases List.mem_append.mp among with among | among
      · exact lexemes token among
      · exact further token among

namespace Spans

/-- A weaker relation holds as well. -/
theorem mono (spans : Spans parser First)
    (weaker : ∀ tokens result, First tokens result → Holds tokens result) : Spans parser Holds := by
  intro before marked
  obtain ⟨tokens, cut, lexemes, holds⟩ := spans before marked
  exact ⟨tokens, cut, lexemes, fun result ran => weaker tokens result (holds result ran)⟩

/-- A parser that reads something passes lexemes in any case. -/
theorem of_reads {Reading : List Token → List Token → α → Prop} (reads : Reads parser Reading) :
    Spans parser fun _ _ => True := by
  intro before _
  obtain ⟨⟨tokens, cut, lexemes⟩, _⟩ := reads.onward before
  exact ⟨tokens, cut, lexemes, fun _ _ => trivial⟩

/-- A result without reading. -/
theorem pure {result : α} (holds : Holds [] result) : Spans (pure result) Holds := by
  intro before _
  refine ⟨[], rfl, List.forall_mem_nil _, ?_⟩
  rintro _ ⟨⟩
  exact holds

/-- A failure. -/
theorem throw (diagnostic : Diagnostic) : Spans (throw diagnostic) Holds := by
  intro before _
  exact ⟨[], rfl, List.forall_mem_nil _, nofun⟩

/-- A failure that tells what was expected. -/
theorem unexpected (words : String) : Spans (unexpected words) Holds := by
  intro before _
  exact ⟨[], rfl, List.forall_mem_nil _, nofun⟩

/-- A sequence. The second parser is told what the first one has passed. -/
theorem bind (first : Spans parser First)
    (second : ∀ result tokens, First tokens result →
      Spans (next result) fun others output => Last (tokens ++ others) output) :
    Spans (parser >>= next) Last := by
  intro before marked
  exact (first before marked).bind marked second

/-- A choice. -/
theorem ite {condition : Prop} [Decidable condition] (positive : Spans parser Holds)
    (negative : Spans other Holds) : Spans (if condition then parser else other) Holds := by
  split
  · exact positive
  · exact negative

/-- A result that is put into another form. -/
theorem map {form : α → β} (spans : Spans parser fun tokens result => Last tokens (form result)) :
    Spans (form <$> parser) Last := by
  change Spans (parser >>= fun result => Pure.pure (form result)) Last
  apply bind spans
  intro result tokens holds
  apply pure
  rwa [List.append_nil]

/-- A rule with a bound. -/
theorem bounded {rule : Nat → Parser α} (spans : ∀ steps, Spans (rule steps) Holds) :
    Spans (bounded rule) Holds := by
  intro before marked
  exact spans _ before marked

/-- A look at the next token before a parser. -/
theorem look {next : Token → Parser β} (runs : ∀ token, From token (next token) Last) :
    Spans (peek >>= next) Last := by
  intro before marked
  obtain ⟨token, tail, ahead⟩ := marked.exists_cons
  have looked : (peek 0).runAt before = (.ok token, before) := by
    rw [← ahead_cons ahead]
    rfl
  rw [Run, runAt_bind_ok looked]
  exact runs token before tail marked ahead

/-- A choice by the kind of the next token. -/
theorem checked {kinds : List TokenKind} {positive negative : Parser β}
    (found : ∀ token, token.kind ∈ kinds → From token positive Last)
    (missing : Spans negative Last) :
    Spans (check kinds >>= fun found => if found = true then positive else negative) Last := by
  intro before marked
  obtain ⟨token, tail, ahead⟩ := marked.exists_cons
  have looked : (check kinds).runAt before = (.ok (kinds.contains token.kind), before) := by
    rw [← ahead_cons ahead]
    rfl
  rw [Run, runAt_bind_ok looked]
  split
  next among => exact found token (List.contains_iff_mem.mp among) before tail marked ahead
  next => exact missing before marked

end Spans

namespace From

variable {token : Token}

/-- What holds of all runs holds of those in front of a token. -/
theorem of_spans (spans : Spans parser Holds) : From token parser Holds := by
  intro before _ marked _
  exact spans before marked

/-- The first of the tokens that are passed is the one ahead. -/
theorem headed (spans : Spans parser fun tokens result =>
      ∃ first inside, tokens = first :: inside ∧ (first = token → Holds tokens result)) :
    From token parser Holds := by
  intro before tail marked ahead
  obtain ⟨tokens, cut, lexemes, holds⟩ := spans before marked
  refine ⟨tokens, cut, lexemes, ?_⟩
  intro result ran
  obtain ⟨first, inside, rfl, holds⟩ := holds result ran
  rw [ahead] at cut
  exact holds (List.cons.inj cut).1.symm

/-- A choice. -/
theorem ite {condition : Prop} [Decidable condition]
    (positive : condition → From token parser Holds)
    (negative : ¬condition → From token other Holds) :
    From token (if condition then parser else other) Holds := by
  split
  · exact positive ‹_›
  · exact negative ‹_›

/-- A step over the token ahead. -/
theorem advance (kind : token.kind ≠ .endOfFile) :
    From token advance fun tokens result => tokens = [token] ∧ result = token := by
  intro before tail _ ahead
  rw [Run, runAt_advance ahead kind]
  refine ⟨[token], ahead, List.forall_mem_singleton.mpr kind, ?_⟩
  rintro _ ⟨⟩
  exact ⟨rfl, rfl⟩

/-- A step over the token ahead, before a parser. -/
theorem take {next : Token → Parser β} (kind : token.kind ≠ .endOfFile)
    (spans : Spans (next token) fun others output => Last (token :: others) output) :
    From token (Parser.advance >>= next) Last := by
  intro before tail marked ahead
  apply (advance kind before tail marked ahead).bind marked
  rintro result tokens ⟨rfl, rfl⟩
  exact spans

end From

/-- A token of a given kind. -/
theorem Spans.expect {kind : TokenKind} (lexeme : kind ≠ .endOfFile) (words : String) :
    Spans (expect kind words) fun tokens token => tokens = [token] ∧ token.kind = kind := by
  apply Spans.checked
  · intro token among before tail marked ahead
    have same : token.kind = kind := List.mem_singleton.mp among
    have other : token.kind ≠ .endOfFile := same ▸ lexeme
    obtain ⟨tokens, cut, lexemes, holds⟩ := From.advance other before tail marked ahead
    refine ⟨tokens, cut, lexemes, ?_⟩
    intro result ran
    obtain ⟨rfl, rfl⟩ := holds result ran
    exact ⟨rfl, same⟩
  · exact .unexpected words

/-- Tokens that are passed or not, whatever they are. -/
theorem Spans.accept {kind : TokenKind} (lexeme : kind ≠ .endOfFile) :
    Spans (accept kind) fun _ _ => True :=
  .of_reads (.accept lexeme)

/-! ## Lists -/

section Lists

variable {item : Parser α} {view : α → View}

/-- Items after commas. -/
theorem moreItems_spans (spans : Spans item fun tokens tree => Placed tokens [view tree])
    (steps : Nat) :
    Spans (moreItems item steps) fun tokens trees => Placed tokens (trees.map view) := by
  induction steps with
  | zero => exact .pure .nil
  | succ steps inductionHypothesis =>
    apply Spans.bind (.accept (by decide))
    intro _ comma _
    apply Spans.ite
    · apply Spans.bind spans
      intro tree tokens placed
      apply Spans.bind inductionHypothesis
      intro trees others further
      apply Spans.pure
      rw [List.append_nil]
      exact (placed.append further).front comma
    · exact .pure .nil

/-- Items up to a closing token. -/
theorem itemsUntil_spans {closing : TokenKind} (lexeme : closing ≠ .endOfFile)
    (spans : Spans item fun tokens tree => Placed tokens [view tree]) :
    Spans (itemsUntil item closing) fun tokens trees => Placed tokens (trees.map view) := by
  have several : Spans (items item) fun tokens trees => Placed tokens (trees.map view) := by
    apply Spans.bind spans
    intro tree tokens placed
    apply Spans.bind (.bounded (moreItems_spans spans))
    intro trees others further
    apply Spans.pure
    rw [List.append_nil]
    exact placed.append further
  have closed (trees : List α) (tokens : List Token) (placed : Placed tokens (trees.map view)) :
      Spans (expect closing >>= fun _ => pure trees) fun others trees =>
        Placed (tokens ++ others) (trees.map view) := by
    apply Spans.bind (.expect lexeme _)
    intro _ last _
    apply Spans.pure
    exact placed.back _
  have absent : Spans (pure []) fun tokens trees => Placed tokens (trees.map view) := .pure .nil
  apply Spans.bind (.of_reads (.check _))
  intro _ none _
  apply Spans.ite
  · apply Spans.bind absent
    intro trees tokens placed
    simp only [← List.append_assoc]
    exact closed trees (none ++ tokens) (placed.front none)
  · apply Spans.bind several
    intro trees tokens placed
    simp only [← List.append_assoc]
    exact closed trees (none ++ tokens) (placed.front none)

end Lists

/-! ## Types -/

section Types

variable {rejectAny : Bool} {nested : Parser Ascription}

/-- What may follow a colon. -/
theorem annotated_spans {next : Option Ascription → Parser α} {Last : List Token → α → Prop}
    (spans : Spans nested fun tokens type => Placed tokens [type.view])
    (second : ∀ found tokens, Placed tokens (found.toList.map Ascription.view) →
      Spans (next found) fun others output => Last (tokens ++ others) output) :
    Spans (accept .colon >>= fun found =>
      if found = true then some <$> nested >>= next else pure none >>= next) Last := by
  have present : Spans (some <$> nested) fun tokens found =>
      Placed tokens (found.toList.map Ascription.view) := .map spans
  have absent : Spans (pure none) fun tokens (found : Option Ascription) =>
      Placed tokens (found.toList.map Ascription.view) := .pure .nil
  have further {parser : Parser (Option Ascription)} {colon : List Token}
      (spans : Spans parser fun tokens found => Placed tokens (found.toList.map Ascription.view)) :
      Spans (parser >>= next) fun others output => Last (colon ++ others) output := by
    apply Spans.bind spans
    intro found tokens placed
    simp only [← List.append_assoc]
    exact second found (colon ++ tokens) (placed.front colon)
  apply Spans.bind (.accept (by decide))
  intro _ colon _
  apply Spans.ite
  · exact further present
  · exact further absent

/-- A parameter. -/
theorem parameter_spans (spans : Spans nested fun tokens type => Placed tokens [type.view]) :
    Spans (parameter nested) fun tokens param => Placed tokens [param.view] := by
  apply Spans.bind (.expect (by decide) _)
  rintro name _ ⟨rfl, -⟩
  apply annotated_spans spans
  intro found tokens placed
  apply Spans.pure
  rw [List.append_nil]
  cases found with
  | none => exact .root rfl nofun .nil
  | some type =>
    have children := placed.front [name]
    rw [Option.toList_some, List.map_singleton, ← type.nodes_view] at children
    rw [← List.append_nil type.view.nodes] at children
    exact .root rfl nofun children

/-- Parameters between parentheses. -/
theorem parameters_spans (spans : Spans nested fun tokens type => Placed tokens [type.view]) :
    Spans (parameters nested) fun tokens params =>
      ∃ first inside, tokens = first :: inside ∧ Placed inside (params.map Parameter.view) := by
  apply Spans.bind (.expect (by decide) _)
  rintro opening _ ⟨rfl, -⟩
  apply (itemsUntil_spans (by decide) (parameter_spans spans)).mono
  intro inside params placed
  exact ⟨opening, inside, rfl, placed⟩

/-- Empty brackets after a type. -/
theorem arraySuffixes_spans (steps : Nat) {element : Ascription} {tokens : List Token}
    (placed : Placed tokens [element.view]) :
    Spans (arraySuffixes steps element) fun others type =>
      Placed (tokens ++ others) [type.view] := by
  induction steps generalizing element tokens with
  | zero =>
    apply Spans.pure
    rwa [List.append_nil]
  | succ steps inductionHypothesis =>
    have wider (others : List Token) :
        Placed (tokens ++ others) [(Ascription.array element.offset element).view] := by
      apply placed.grow .nil
      · nofun
      · exact element.offset_view.symm
      · simp only [Ascription.view, View.children, List.flatMap_cons, List.flatMap_nil,
          Ascription.nodes_view, List.append_nil]
    apply Spans.bind (.of_reads (.check _))
    intro _ first _
    apply Spans.bind (.of_reads (.peek 1))
    intro _ second _
    apply Spans.ite
    · apply Spans.bind (.of_reads .advance)
      intro _ opening _
      apply Spans.bind (.of_reads .advance)
      intro _ closing _
      simpa only [List.append_assoc] using
        inductionHypothesis (wider (first ++ second ++ opening ++ closing))
    · apply Spans.pure
      exact placed.back _

/-- A type before the brackets after it. -/
theorem simpleAscription_spans (spans : Spans nested fun tokens type => Placed tokens [type.view]) :
    Spans (simpleAscription rejectAny nested) fun tokens type => Placed tokens [type.view] := by
  apply Spans.look
  intro token
  have named (kind : token.kind ≠ .endOfFile) :
      From token (advance >>= fun _ => pure (Ascription.named token.offset token.text))
        fun tokens type => Placed tokens [type.view] := by
    apply From.take kind
    apply Spans.pure
    exact .root rfl (mt Option.some.inj (by decide)) .nil
  apply From.ite
  · intro primitive
    apply named
    intro mark
    rw [mark] at primitive
    exact nomatch primitive
  intro _
  apply From.ite
  · intro identifier
    split
    next => exact .of_spans (.throw _)
    next => exact named (identifier ▸ by decide)
  intro _
  apply From.ite
  · intro array
    apply From.take (array ▸ by decide)
    apply Spans.bind (.expect (by decide) _)
    rintro opening _ ⟨rfl, -⟩
    apply Spans.bind spans
    intro element inside placed
    apply Spans.bind (.expect (by decide) _)
    rintro closing _ ⟨rfl, -⟩
    apply Spans.pure
    apply Placed.root rfl
    · exact mt Option.some.inj (by decide)
    · simp only [Ascription.view, View.children, List.flatMap_cons, List.flatMap_nil,
        Ascription.nodes_view, List.append_nil]
      exact (placed.back [closing]).front [token, opening]
  intro _
  apply From.ite
  · intro _
    apply From.headed
    apply Spans.bind (parameters_spans spans)
    rintro params _ ⟨first, inside, rfl, placed⟩
    apply Spans.bind (.expect (by decide) _)
    rintro arrow _ ⟨rfl, -⟩
    apply Spans.bind spans
    intro result others further
    apply Spans.pure
    refine ⟨first, _, rfl, ?_⟩
    rintro rfl
    apply Placed.root rfl
    · exact mt Option.some.inj (by decide)
    · simp only [Ascription.view, View.children, List.flatMap_cons, List.flatMap_nil,
        Ascription.nodes_view, Parameter.nodes_views, List.append_nil]
      exact (placed.append (further.front [arrow])).front [first]
  intro _
  exact .of_spans (.unexpected _)

/-- Types with a bound on their depth. -/
theorem ascriptionWithin_spans (rejectAny : Bool) (depth : Nat) :
    Spans (ascriptionWithin rejectAny depth) fun tokens type => Placed tokens [type.view] := by
  induction depth with
  | zero => exact .unexpected _
  | succ depth inductionHypothesis =>
    apply Spans.bind (simpleAscription_spans inductionHypothesis)
    intro element tokens placed
    exact .bounded fun steps => arraySuffixes_spans steps placed

/-- Types of any depth. -/
theorem ascription_spans (rejectAny : Bool) :
    Spans (ascription rejectAny) fun tokens type => Placed tokens [type.view] :=
  .bounded (ascriptionWithin_spans rejectAny)

/-- The part of an arrow function before its arrow. -/
theorem arrowHead_spans (rejectAny : Bool) :
    Spans (arrowHead rejectAny) fun tokens head => ∃ first inside, tokens = first :: inside ∧
      Placed inside (head.1.map Parameter.view ++ head.2.toList.map Ascription.view) := by
  apply Spans.bind (parameters_spans (ascription_spans rejectAny))
  rintro params _ ⟨first, inside, rfl, placed⟩
  apply annotated_spans (ascription_spans rejectAny)
  intro result others further
  apply Spans.pure
  rw [List.append_nil]
  exact ⟨first, inside ++ others, rfl, placed.append further⟩

end Types

/-! ## Expressions -/

section Expressions

variable {nested : Parser Expression}

/-- Expressions up to a closing token. -/
theorem expressionList_spans {closing : TokenKind} (lexeme : closing ≠ .endOfFile)
    (spans : Spans nested fun tokens tree => Placed tokens [tree.view]) :
    Spans (expressionList nested closing) fun tokens trees =>
      Placed tokens (trees.map Expression.view) :=
  itemsUntil_spans lexeme spans

/-- A primary expression. An expression between parentheses stands behind the first one. -/
theorem primary_spans (spans : Spans nested fun tokens tree => Placed tokens [tree.view]) :
    Spans (primary nested) fun tokens tree => Placed tokens [tree.view] := by
  apply Spans.look
  intro token
  have leaf {tree : Expression} (offset : tree.offset = token.offset)
      (other : tree.view.kind? ≠ some .identifier) (none : tree.view.children = []) :
      Spans (pure tree) fun tokens tree => Placed (token :: tokens) [tree.view] := by
    apply Spans.pure
    apply Placed.root (tree.offset_view.trans offset) other
    rw [none]
    exact .nil
  split
  next number =>
    apply From.take (number ▸ by decide)
    split
    next => exact leaf rfl nofun rfl
    next => exact leaf rfl nofun rfl
  next string => exact .take (string ▸ by decide) (leaf rfl nofun rfl)
  next truth => exact .take (truth ▸ by decide) (leaf rfl nofun rfl)
  next falsity => exact .take (falsity ▸ by decide) (leaf rfl nofun rfl)
  next name => exact .take (name ▸ by decide) (.pure (.identifier name))
  next bracket =>
    apply From.take (bracket ▸ by decide)
    apply Spans.bind (expressionList_spans (by decide) spans)
    intro elements inside placed
    apply Spans.pure
    apply Placed.root rfl
    · nofun
    · simp only [Expression.view, View.children, List.flatMap_cons, List.flatMap_nil,
        Expression.nodes_views, List.append_nil]
      exact placed.front [token]
  next parenthesis =>
    apply From.take (parenthesis ▸ by decide)
    apply Spans.bind spans
    intro tree inside placed
    apply Spans.bind (.expect (by decide) _)
    rintro closing _ ⟨rfl, -⟩
    apply Spans.pure
    exact (placed.back [closing]).front [token]
  next => exact .of_spans (.unexpected _)

/-- Calls and index brackets after an expression. -/
theorem applications_spans (spans : Spans nested fun tokens tree => Placed tokens [tree.view])
    (steps : Nat) {applied : Expression} {tokens : List Token}
    (placed : Placed tokens [applied.view]) :
    Spans (applications nested steps applied) fun others tree =>
      Placed (tokens ++ others) [tree.view] := by
  induction steps generalizing applied tokens with
  | zero =>
    apply Spans.pure
    rwa [List.append_nil]
  | succ steps inductionHypothesis =>
    apply Spans.bind (.accept (by decide))
    intro _ parenthesis _
    apply Spans.ite
    · apply Spans.bind (expressionList_spans (by decide) spans)
      intro arguments inside further
      have call : Placed (tokens ++ (parenthesis ++ inside))
          [(Expression.call applied.offset applied arguments).view] := by
        apply placed.grow (further.front parenthesis)
        · exact mt Option.some.inj (by decide)
        · exact applied.offset_view.symm
        · simp only [Expression.view, View.children, List.flatMap_cons, List.flatMap_nil,
            Expression.nodes_view, Expression.nodes_views, List.append_nil, List.singleton_append]
      simpa only [List.append_assoc] using inductionHypothesis call
    · apply Spans.bind (.accept (by decide))
      intro _ bracket _
      apply Spans.ite
      · apply Spans.bind spans
        intro index inside further
        apply Spans.bind (.expect (by decide) _)
        rintro closing _ ⟨rfl, -⟩
        have member : Placed (tokens ++ (parenthesis ++ bracket ++ inside ++ [closing]))
            [(Expression.member applied.offset applied index).view] := by
          apply placed.grow ((further.front _).back _)
          · exact mt Option.some.inj (by decide)
          · exact applied.offset_view.symm
          · simp only [Expression.view, View.children, List.flatMap_cons, List.flatMap_nil,
              Expression.nodes_view, List.append_nil, List.singleton_append]
        simpa only [List.append_assoc] using inductionHypothesis member
      · apply Spans.pure
        exact placed.back _

/-! ## Statements -/

/-- A `const` declaration. -/
theorem constDeclaration_spans {token : Token} (keyword : token.kind = .constKeyword)
    (spans : Spans nested fun tokens tree => Placed tokens [tree.view]) :
    From token (constDeclaration nested) fun tokens tree => Placed tokens [tree.view] := by
  apply From.take (keyword ▸ by decide)
  apply Spans.bind (.expect (by decide) _)
  rintro name _ ⟨rfl, kind⟩
  apply annotated_spans (ascription_spans true)
  intro annotated type placed
  apply Spans.bind (.expect (by decide) _)
  rintro equal _ ⟨rfl, -⟩
  apply Spans.bind spans
  intro initial tokens further
  apply Spans.bind (.accept (by decide))
  intro _ semicolon _
  apply Spans.pure
  have id : Placed [name] [({ offset := name.offset, name := name.text } : Identifier).view] :=
    .identifier kind
  have whole := (id.append placed).append ((further.front [equal]).back semicolon)
  apply Placed.root rfl
  · nofun
  · simp only [Statement.view, View.children, List.flatMap_cons, List.flatMap_nil,
      Identifier.nodes_view, Ascription.nodes_viewOf, Expression.nodes_view, List.append_nil]
    simpa only [List.append_assoc, List.cons_append, List.nil_append] using whole.front [token]

/-- A `return` statement. -/
theorem returnStatement_spans {token : Token} (keyword : token.kind = .returnKeyword)
    (spans : Spans nested fun tokens tree => Placed tokens [tree.view]) :
    From token (returnStatement nested) fun tokens tree => Placed tokens [tree.view] := by
  have finish (argument : Option Expression) (tokens : List Token)
      (placed : Placed tokens (argument.toList.map Expression.view)) :
      Spans (accept .semicolon >>= fun _ => pure (Statement.returning token.offset argument))
        fun others tree => Placed (token :: (tokens ++ others)) [tree.view] := by
    apply Spans.bind (.accept (by decide))
    intro _ semicolon _
    apply Spans.pure
    cases argument with
    | none => exact .root rfl nofun .nil
    | some argument =>
      apply Placed.root rfl
      · nofun
      · simp only [Statement.view, View.children, List.flatMap_cons, List.flatMap_nil,
          Expression.nodes_view, List.append_nil]
        exact (placed.back semicolon).front [token]
  have absent : Spans (pure none) fun tokens (argument : Option Expression) =>
      Placed tokens (argument.toList.map Expression.view) := .pure .nil
  have present : Spans (some <$> nested) fun tokens argument =>
      Placed tokens (argument.toList.map Expression.view) := .map spans
  apply From.take (keyword ▸ by decide)
  apply Spans.bind (.of_reads (.check _))
  intro _ none _
  apply Spans.ite
  · apply Spans.bind absent
    intro argument tokens placed
    simpa only [List.append_assoc] using finish argument (none ++ tokens) (placed.front none)
  · apply Spans.bind present
    intro argument tokens placed
    simpa only [List.append_assoc] using finish argument (none ++ tokens) (placed.front none)

/-- A statement of either kind. -/
theorem statement_spans (spans : Spans nested fun tokens tree => Placed tokens [tree.view]) :
    Spans (statement nested) fun tokens tree => Placed tokens [tree.view] := by
  apply Spans.checked
  · intro token among
    exact constDeclaration_spans (List.mem_singleton.mp among) spans
  · apply Spans.checked
    · intro token among
      exact returnStatement_spans (List.mem_singleton.mp among) spans
    · exact .unexpected _

/-- A statement, or nothing after an error in it. What is skipped then is left out. -/
theorem recovering_spans (spans : Spans nested fun tokens tree => Placed tokens [tree.view])
    (inBlock : Bool) : Spans (recovering nested inBlock) fun tokens found =>
      Placed tokens (found.toList.map Statement.view) := by
  intro before marked
  obtain ⟨tokens, cut, lexemes, placed⟩ := statement_spans spans before marked
  rw [Run, runAt_recovering]
  rcases ran : (statement nested).runAt before with ⟨diagnostic | tree, after⟩
  · rw [ran] at cut
    obtain ⟨skipped, further, others⟩ := recoveryPoint_passed inBlock 0 after.rest
    refine ⟨tokens ++ skipped, ?_, ?_, ?_⟩
    · rw [cut, List.append_assoc]
      exact congrArg (tokens ++ ·) further
    · intro token among
      rcases List.mem_append.mp among with among | among
      · exact lexemes token among
      · exact others token among
    · rintro _ ⟨⟩
      exact .nil
  · rw [ran] at cut placed
    refine ⟨tokens, cut, lexemes, ?_⟩
    rintro _ ⟨⟩
    exact placed tree rfl

/-- The loop over statements. -/
theorem statements_spans (spans : Spans nested fun tokens tree => Placed tokens [tree.view])
    (inBlock : Bool) (ends : List TokenKind) (steps : Nat) :
    Spans (statements nested inBlock ends steps) fun tokens trees =>
      Placed tokens (trees.map Statement.view) := by
  induction steps with
  | zero => exact .pure .nil
  | succ steps inductionHypothesis =>
    apply Spans.bind (.of_reads (.check _))
    intro _ none _
    apply Spans.ite
    · exact .pure .nil
    apply Spans.bind (.accept (by decide))
    intro _ semicolon _
    apply Spans.ite
    · apply inductionHypothesis.mono
      intro tokens trees placed
      exact (placed.front semicolon).front none
    · apply Spans.bind (recovering_spans spans inBlock)
      intro first tokens placed
      apply Spans.bind inductionHypothesis
      intro rest others further
      apply Spans.pure
      rw [List.append_nil, List.map_append]
      exact ((placed.append further).front semicolon).front none

/-- The body of an arrow function. -/
theorem block_spans (spans : Spans nested fun tokens tree => Placed tokens [tree.view]) :
    Spans (block nested) fun tokens body => Placed tokens [body.view] := by
  apply Spans.bind (.expect (by decide) _)
  rintro opening _ ⟨rfl, -⟩
  apply Spans.bind (.bounded (statements_spans spans true _))
  intro body inside placed
  apply Spans.bind (.expect (by decide) _)
  rintro closing _ ⟨rfl, -⟩
  apply Spans.pure
  apply Placed.root rfl
  · nofun
  · simp only [Block.view, View.children, List.flatMap_cons, List.flatMap_nil,
      Statement.nodes_views, List.append_nil]
    exact (placed.back [closing]).front [opening]

/-! ## Operands and what they are joined to -/

/-- An arrow function. -/
theorem arrowFunction_spans (spans : Spans nested fun tokens tree => Placed tokens [tree.view]) :
    Spans (arrowFunction nested) fun tokens tree => Placed tokens [tree.view] := by
  apply Spans.look
  intro token
  apply From.headed
  apply Spans.bind (arrowHead_spans true)
  rintro ⟨params, result⟩ _ ⟨first, inside, rfl, placed⟩
  apply Spans.bind (.expect (by decide) _)
  rintro arrow _ ⟨rfl, -⟩
  apply Spans.bind (.of_reads (.check _))
  intro _ none _
  apply Spans.ite
  · apply Spans.bind (block_spans spans)
    intro body others further
    apply Spans.pure
    refine ⟨first, inside ++ ([arrow] ++ (none ++ (others ++ []))), rfl, ?_⟩
    rintro rfl
    have whole := (placed.append ((further.front none).front [arrow])).front [first]
    apply Placed.root rfl
    · nofun
    · simp only [Expression.view, View.children, List.flatMap_cons, List.flatMap_nil,
        Parameter.nodes_views, Ascription.nodes_viewOf, Block.nodes_view, List.append_nil]
      rwa [List.append_assoc] at whole
  · apply Spans.bind (.of_reads (.peek 0))
    intro _ _ _
    exact .throw _

/-- An operand. -/
theorem operand_spans (spans : Spans nested fun tokens tree => Placed tokens [tree.view]) :
    Spans (operand nested) fun tokens tree => Placed tokens [tree.view] := by
  apply Spans.bind (.of_reads (.check _))
  intro _ first _
  apply Spans.bind (.of_reads arrowAhead_reads)
  intro _ second _
  apply Spans.ite
  · apply (arrowFunction_spans spans).mono
    intro tokens tree placed
    exact (placed.front second).front first
  · apply Spans.bind (primary_spans spans)
    intro tree tokens placed
    have whole := (placed.front second).front first
    simpa only [List.append_assoc] using
      Spans.bounded fun steps => applications_spans spans steps whole

/-- Operands after plus signs. -/
theorem sums_spans (spans : Spans nested fun tokens tree => Placed tokens [tree.view]) (steps : Nat)
    {left : Expression} {tokens : List Token} (placed : Placed tokens [left.view]) :
    Spans (sums nested steps left) fun others tree => Placed (tokens ++ others) [tree.view] := by
  induction steps generalizing left tokens with
  | zero =>
    apply Spans.pure
    rwa [List.append_nil]
  | succ steps inductionHypothesis =>
    apply Spans.bind (.of_reads (.matched (by decide)))
    intro found plus _
    cases found with
    | none =>
      apply Spans.pure
      exact placed.back _
    | some operator =>
      apply Spans.bind (operand_spans spans)
      intro right inside further
      have sum : Placed (tokens ++ (plus ++ inside))
          [(Expression.binary left.offset left operator.text right).view] := by
        apply placed.grow (further.front plus)
        · nofun
        · exact left.offset_view.symm
        · simp only [Expression.view, View.children, List.flatMap_cons, List.flatMap_nil,
            Expression.nodes_view, View.nodes_text, List.append_nil, List.nil_append,
            List.singleton_append]
      simpa only [List.append_assoc] using inductionHypothesis sum

/-- A sum. -/
theorem binary_spans (spans : Spans nested fun tokens tree => Placed tokens [tree.view]) :
    Spans (binary nested) fun tokens tree => Placed tokens [tree.view] := by
  apply Spans.bind (operand_spans spans)
  intro first tokens placed
  exact .bounded fun steps => sums_spans spans steps placed

/-- A conditional. -/
theorem conditional_spans (spans : Spans nested fun tokens tree => Placed tokens [tree.view]) :
    Spans (conditional nested) fun tokens tree => Placed tokens [tree.view] := by
  apply Spans.bind (binary_spans spans)
  intro test tokens placed
  apply Spans.bind (.accept (by decide))
  intro _ question _
  apply Spans.ite
  · apply Spans.bind spans
    intro consequent inside first
    apply Spans.bind (.expect (by decide) _)
    rintro colon _ ⟨rfl, -⟩
    apply Spans.bind spans
    intro alternate others second
    apply Spans.pure
    rw [List.append_nil]
    apply placed.grow ((first.append (second.front [colon])).front question)
    · nofun
    · exact test.offset_view.symm
    · simp only [Expression.view, View.children, List.flatMap_cons, List.flatMap_nil,
        Expression.nodes_view, List.append_nil, List.singleton_append]
  · apply Spans.pure
    exact placed.back _

/-- Expressions with a bound on their depth. -/
theorem expressionWithin_spans (depth : Nat) :
    Spans (expressionWithin depth) fun tokens tree => Placed tokens [tree.view] := by
  induction depth with
  | zero => exact .unexpected _
  | succ depth inductionHypothesis => exact conditional_spans inductionHypothesis

/-- Expressions of any depth. -/
theorem expression_spans : Spans expression fun tokens tree => Placed tokens [tree.view] :=
  .bounded expressionWithin_spans

/-- The statements at the top level. -/
theorem topLevel_spans : Spans topLevel fun tokens trees =>
    Placed tokens (trees.map Statement.view) :=
  .bounded (statements_spans expression_spans false _)

end Expressions

end Parser

/-! ## Programs -/

variable {source : String} {tokens : List Token}

/-- The statements of a source are placed over the tokens of the source without the mark of its
end, some of which may be left out. -/
theorem parseSource_placed (tokenized : tokenize source = .ok tokens) :
    ∃ passed, List.Sublist passed tokens ∧ (∀ token ∈ passed, token.kind ≠ .endOfFile) ∧
      Placed passed (parseSource source).1.view.children ∧
      (parseSource source).1.view.offset = 0 := by
  have begins := Cursor.start_ended (getLast?_tokens tokenized) rfl
  obtain ⟨trees, after, ran⟩ := Parser.topLevel_total (.start tokens)
  have marked : Marked (Cursor.start tokens).rest := by
    rw [begins]
    exact tokenize_marked tokenized
  obtain ⟨passed, cut, lexemes, placed⟩ := Parser.topLevel_spans (.start tokens) marked
  rw [ran] at cut placed
  have whole : tokens = passed ++ after.rest := by
    rw [begins] at cut
    exact cut
  have program : (parseSource source).1 = { body := trees } := by
    rw [parseSource, tokenized]
    exact congrArg Prod.fst (parseProgram_eq ran)
  refine ⟨passed, ?_, lexemes, ?_, ?_⟩
  · rw [whole]
    exact List.sublist_append_left passed _
  · rw [program]
    simp only [Program.view, View.children, List.flatMap_cons, List.flatMap_nil,
      Statement.nodes_views, List.append_nil]
    exact placed trees rfl
  · rw [program]
    rfl

/-- The offsets of the program of a source follow the tokens of the source, whether or not
there are syntax errors in it. -/
theorem parseSource_follows (tokenized : tokenize source = .ok tokens) :
    (parseSource source).1.view.Follows tokens source.length := by
  obtain ⟨passed, part, lexemes, placed, origin⟩ := parseSource_placed tokenized
  have within : ∀ token ∈ tokens, 0 ≤ token.offset ∧ token.offset ≤ source.length := by
    obtain ⟨lexed, rfl, inside⟩ := tokenize_within tokenized
    intro token among
    rcases List.mem_append.mp among with among | mark
    · exact ⟨(inside token among).1, (inside token among).2.le⟩
    · rw [List.mem_singleton.mp mark]
      exact ⟨Int.natCast_nonneg _, le_rfl⟩
  have follows : (parseSource source).1.view.Follows passed source.length := by
    apply placed.laid.follows
    · exact (tokenize_increasing tokenized).sublist part
    · intro token among
      exact within token (part.subset among)
    · exact lexemes
    · exact origin
  exact follows.mono part.subset

/-- The statement between two errors is kept. -/
theorem parseSource_follows_broken : ∃ tokens,
    tokenize "const = 1; return f(x)[0] + a; ]" = .ok tokens ∧
      (parseSource "const = 1; return f(x)[0] + a; ]").1.view.Follows tokens
        "const = 1; return f(x)[0] + a; ]".length := by
  have tokenized : tokenize "const = 1; return f(x)[0] + a; ]" =
      .ok ((tokenize "const = 1; return f(x)[0] + a; ]").toOption.getD []) := by rfl
  exact ⟨_, tokenized, parseSource_follows tokenized⟩

/-- Every identifier in the program of a source is that of one of its tokens, whether or not
there are syntax errors in it. -/
theorem parseSource_named (tokenized : tokenize source = .ok tokens) :
    Named tokens [(parseSource source).1.view] := by
  obtain ⟨passed, part, -, placed, -⟩ := parseSource_placed tokenized
  apply Named.root
  · nofun
  · exact placed.named.mono part.subset

end ArrowScript
