import ArrowScript.Proofs.Parser.Positions
import ArrowScript.Proofs.Parser.Rejection
import Mathlib.Data.List.Flatten

/-!
# The refused name is in no program

Every type of a tree has been read by the stricter of the two runs, so the refused name stands
nowhere in what a parser returns. `Grants` says of a parser that its results have a property,
whatever diagnostics have been recorded on the way; like the comparison of the two runs it is
about tokens of a source, where a primitive type has a name of its own.
-/

namespace ArrowScript

namespace Parser

variable {α β : Type} {parser : Parser α} {next : α → Parser β}

/-! ## What parsers return -/

/-- Among tokens of a source the parser goes onward, and its results have the property. -/
def Grants (parser : Parser α) (Holds : α → Prop) : Prop :=
  ∀ cursor, cursor.Plain → cursor.Onward (parser.runAt cursor).2 ∧
    ∀ result, (parser.runAt cursor).1 = .ok result → Holds result

namespace Grants

variable {First Holds : α → Prop} {Last : β → Prop} {other : Parser α}

/-- A parser of whose results nothing is asked. -/
theorem of_onward (onward : Onward parser) : Grants parser fun _ => True :=
  fun cursor _ => ⟨onward cursor, fun _ _ => trivial⟩

/-- The result of a strict run has no refused names. -/
theorem of_scans (scans : Scans [] tolerant strict names) (onward : Onward strict) :
    Grants strict fun result => names result = [] := by
  intro cursor plain
  refine ⟨onward cursor, fun result found => ?_⟩
  have answers := (scans cursor plain).answers rfl
  rcases ran : strict.runAt cursor with ⟨diagnostic | output, after⟩
  · rw [ran] at found
    exact nomatch found
  · rw [ran] at found answers
    obtain rfl := Except.ok.inj found
    generalize tolerant.runAt cursor = run at answers
    cases answers with
    | accepted none => exact none

/-- A result. -/
theorem pure {result : α} (holds : Holds result) : Grants (pure result) Holds := by
  intro cursor _
  refine ⟨.refl cursor, ?_⟩
  rintro _ ⟨⟩
  exact holds

/-- A failure. -/
theorem throw (diagnostic : Diagnostic) : Grants (throw diagnostic) Holds :=
  fun cursor _ => ⟨.refl cursor, nofun⟩

/-- A failure at the next token. -/
theorem unexpected (words : String) : Grants (unexpected words) Holds :=
  fun cursor _ => ⟨.refl cursor, nofun⟩

/-- A sequence. -/
theorem bind (first : Grants parser First)
    (second : ∀ result, First result → Grants (next result) Last) :
    Grants (parser >>= next) Last := by
  intro cursor plain
  obtain ⟨onward, holds⟩ := first cursor plain
  rcases ran : parser.runAt cursor with ⟨diagnostic | result, middle⟩
  · rw [ran] at onward
    rw [runAt_bind_error ran]
    exact ⟨onward, nofun⟩
  · rw [ran] at onward holds
    rw [runAt_bind_ok ran]
    obtain ⟨further, last⟩ := second result (holds result rfl) middle (plain.onward onward)
    exact ⟨onward.trans further, last⟩

/-- A sequence whose first part may have any result. -/
theorem after (onward : Onward parser) (second : ∀ result, Grants (next result) Last) :
    Grants (parser >>= next) Last :=
  bind (of_onward onward) fun result _ => second result

/-- A choice. -/
theorem ite {condition : Prop} [Decidable condition] (positive : Grants parser Holds)
    (negative : Grants other Holds) : Grants (if condition then parser else other) Holds := by
  split
  · exact positive
  · exact negative

/-- A result where there may be none. -/
theorem present (grants : Grants parser Holds) :
    Grants (some <$> parser) fun found => ∀ result ∈ found, Holds result := by
  change Grants (parser >>= fun result => Pure.pure (some result)) _
  apply bind grants
  intro result holds
  apply pure
  rintro _ ⟨⟩
  exact holds

/-- A rule with a bound. -/
theorem bounded {rule : Nat → Parser α} (grants : ∀ steps, Grants (rule steps) Holds) :
    Grants (bounded rule) Holds :=
  fun cursor plain => grants _ cursor plain

end Grants

section Items

variable {item : Parser α} {Holds : α → Prop}

/-- Items after commas. -/
theorem moreItems_grants (grants : Grants item Holds) (steps : Nat) :
    Grants (moreItems item steps) fun trees => ∀ tree ∈ trees, Holds tree := by
  induction steps with
  | zero => exact .pure (List.forall_mem_nil _)
  | succ steps inductionHypothesis =>
    apply Grants.after (Reads.accept (by decide)).onward
    intro comma
    apply Grants.ite
    · apply Grants.bind grants
      intro first holds
      apply Grants.bind inductionHypothesis
      intro others hold
      exact .pure (List.forall_mem_cons.mpr ⟨holds, hold⟩)
    · exact .pure (List.forall_mem_nil _)

/-- Items up to a closing token. -/
theorem itemsUntil_grants (grants : Grants item Holds) (closing : TokenKind) :
    Grants (itemsUntil item closing) fun trees => ∀ tree ∈ trees, Holds tree := by
  have several : Grants (items item) fun trees => ∀ tree ∈ trees, Holds tree := by
    apply Grants.bind grants
    intro first holds
    apply Grants.bind (.bounded (moreItems_grants grants))
    intro others hold
    exact .pure (List.forall_mem_cons.mpr ⟨holds, hold⟩)
  have closed (trees : List α) (hold : ∀ tree ∈ trees, Holds tree) :
      Grants (expect closing >>= fun _ => pure trees) fun trees => ∀ tree ∈ trees, Holds tree :=
    .after (expect_onward closing _) fun _ => .pure hold
  apply Grants.after (Reads.check [closing]).onward
  intro ends
  apply Grants.ite
  · exact .bind (.pure (List.forall_mem_nil _)) closed
  · exact .bind several closed

/-- What may follow a colon. -/
theorem annotated_grants {next : Option α → Parser β} {Last : β → Prop}
    (grants : Grants item Holds)
    (second : ∀ found, (∀ tree ∈ found, Holds tree) → Grants (next found) Last) :
    Grants (accept .colon >>= fun found =>
      if found = true then some <$> item >>= next else pure none >>= next) Last := by
  apply Grants.after (Reads.accept (by decide)).onward
  intro colon
  apply Grants.ite
  · exact .bind (.present grants) second
  · exact .bind (.pure nofun) second

end Items

section Expressions

variable {nested : Parser Expression} {inBlock : Bool}

/-- The parser returns trees in which the refused name is nowhere. -/
abbrev Omits (parser : Parser Expression) : Prop :=
  Grants parser fun tree => tree.view.anyNames = []

/-- A primary expression. -/
theorem primary_omits (omits : Omits nested) : Omits (primary nested) := by
  apply Grants.after (Reads.peek 0).onward
  intro token
  have leaf (tree : Expression) (none : tree.view.anyNames = []) :
      Grants (advance >>= fun _ => pure tree) fun tree => tree.view.anyNames = [] :=
    .after Reads.advance.onward fun _ => .pure none
  split
  next =>
    apply Grants.after Reads.advance.onward
    intro taken
    split
    next => exact .pure (View.anyNames_node (by decide) _ _ _)
    next => exact .pure (View.anyNames_node (by decide) _ _ _)
  next => exact leaf _ (View.anyNames_node (by decide) _ _ _)
  next => exact leaf _ (View.anyNames_node (by decide) _ _ _)
  next => exact leaf _ (View.anyNames_node (by decide) _ _ _)
  next => exact leaf _ (View.anyNames_node (by decide) _ _ _)
  next =>
    apply Grants.after Reads.advance.onward
    intro opening
    apply Grants.bind (itemsUntil_grants omits .rightBracket)
    intro elements none
    apply Grants.pure
    simpa [Expression.view, View.anyNames_node, List.flatMap_map] using none
  next =>
    apply Grants.after Reads.advance.onward
    intro opening
    apply Grants.bind omits
    intro inner none
    exact .after (expect_onward .rightParen _) fun _ => .pure none
  next => exact .unexpected _

/-- What is applied to an operand without the name. -/
theorem applications_omits (omits : Omits nested) (steps : Nat) {applied : Expression}
    (none : applied.view.anyNames = []) : Omits (applications nested steps applied) := by
  induction steps generalizing applied with
  | zero => exact .pure none
  | succ steps inductionHypothesis =>
    apply Grants.after (Reads.accept (by decide)).onward
    intro call
    apply Grants.ite
    · apply Grants.bind (itemsUntil_grants omits .rightParen)
      intro arguments noneInside
      apply inductionHypothesis
      simpa [Expression.view, View.anyNames_node, List.flatMap_map, none] using noneInside
    apply Grants.after (Reads.accept (by decide)).onward
    intro member
    apply Grants.ite
    · apply Grants.bind omits
      intro index noneInside
      apply Grants.after (expect_onward .rightBracket _)
      intro closing
      apply inductionHypothesis
      simp [Expression.view, View.anyNames_node, none, noneInside]
    · exact .pure none

/-- A `const` declaration. -/
theorem constDeclaration_omits (omits : Omits nested) :
    Grants (constDeclaration nested) fun tree => tree.view.anyNames = [] := by
  have strict : Grants (ascription true) fun type => type.view.anyNames = [] :=
    .of_scans ascription_scans (ascription_reads true).onward
  apply Grants.after Reads.advance.onward
  intro keyword
  apply Grants.after (expect_onward .identifier _)
  intro name
  apply annotated_grants strict
  intro found none
  apply Grants.after (expect_onward .equal _)
  intro equal
  apply Grants.bind omits
  intro initial noneInside
  apply Grants.after (Reads.accept (by decide)).onward
  intro closing
  apply Grants.pure
  simpa [Statement.anyNames_constant, noneInside] using none

/-- A `return` statement. -/
theorem returnStatement_omits (omits : Omits nested) :
    Grants (returnStatement nested) fun tree => tree.view.anyNames = [] := by
  apply Grants.after Reads.advance.onward
  intro keyword
  apply Grants.after (Reads.check returnTerminators).onward
  intro terminated
  apply Grants.ite
  · apply Grants.after (Reads.accept (by decide)).onward
    intro closing
    exact .pure (View.anyNames_node (by decide) _ _ _)
  · apply Grants.bind (.present omits)
    intro argument none
    apply Grants.after (Reads.accept (by decide)).onward
    intro closing
    apply Grants.pure
    cases argument with
    | none => exact View.anyNames_node (by decide) _ _ _
    | some argument => simp [Statement.view, View.anyNames_node, none argument rfl]

/-- A statement. -/
theorem statement_omits (omits : Omits nested) :
    Grants (statement nested) fun tree => tree.view.anyNames = [] := by
  apply Grants.after (Reads.check [.constKeyword]).onward
  intro declares
  apply Grants.ite
  · exact constDeclaration_omits omits
  apply Grants.after (Reads.check [.returnKeyword]).onward
  intro returns
  apply Grants.ite
  · exact returnStatement_omits omits
  · exact .unexpected _

/-- A statement, or nothing after an error in it. -/
theorem recovering_omits (omits : Omits nested) :
    Grants (recovering nested inBlock) fun found =>
      ∀ tree ∈ found.toList, tree.view.anyNames = [] := by
  intro cursor plain
  obtain ⟨onward, none⟩ := statement_omits omits cursor plain
  rw [runAt_recovering]
  rcases ran : (statement nested).runAt cursor with ⟨diagnostic | tree, after⟩
  · rw [ran] at onward
    have skipped : after.Onward { after with
        rest := recoveryPoint inBlock 0 after.rest
        diagnostics := after.diagnostics ++ [diagnostic] } :=
      ⟨recoveryPoint_passed inBlock 0 after.rest, [diagnostic], rfl⟩
    refine ⟨onward.trans skipped, ?_⟩
    rintro _ ⟨⟩
    exact List.forall_mem_nil _
  · rw [ran] at onward none
    refine ⟨onward, ?_⟩
    rintro _ ⟨⟩
    exact List.forall_mem_singleton.mpr (none tree rfl)

/-- The loop over statements. -/
theorem statements_omits (omits : Omits nested) (ends : List TokenKind) (steps : Nat) :
    Grants (statements nested inBlock ends steps) fun trees =>
      ∀ tree ∈ trees, tree.view.anyNames = [] := by
  induction steps with
  | zero => exact .pure (List.forall_mem_nil _)
  | succ steps inductionHypothesis =>
    apply Grants.after (Reads.check ends).onward
    intro ended
    apply Grants.ite
    · exact .pure (List.forall_mem_nil _)
    apply Grants.after (Reads.accept (by decide)).onward
    intro semicolon
    apply Grants.ite
    · exact inductionHypothesis
    · apply Grants.bind (recovering_omits omits)
      intro first none
      apply Grants.bind inductionHypothesis
      intro others noneToo
      exact .pure (List.forall_mem_append.mpr ⟨none, noneToo⟩)

/-- An arrow function. Its head is read by the stricter run. -/
theorem arrowFunction_omits (omits : Omits nested) : Omits (arrowFunction nested) := by
  have strict : Grants (arrowHead true) fun head => headNames head = [] :=
    .of_scans arrowHead_scans (arrowHead_reads true).onward
  have body : Grants (block nested) fun body =>
      ∀ tree ∈ body.statements, tree.view.anyNames = [] := by
    apply Grants.after (expect_onward .leftCurly _)
    intro opening
    apply Grants.bind (.bounded (statements_omits omits _))
    intro trees none
    exact .after (expect_onward .rightCurly _) fun _ => .pure none
  apply Grants.after (Reads.peek 0).onward
  intro opening
  apply Grants.bind strict
  rintro ⟨params, result⟩ none
  apply Grants.after (expect_onward .arrow _)
  intro arrow
  apply Grants.after (Reads.check [.leftCurly]).onward
  intro opens
  apply Grants.ite
  · apply Grants.bind body
    intro body noneInside
    apply Grants.pure
    rw [Expression.anyNames_arrow]
    exact List.append_eq_nil_iff.mpr ⟨none, List.flatMap_eq_nil_iff.mpr noneInside⟩
  · exact .after (Reads.peek 0).onward fun _ => .throw _

/-- An operand. -/
theorem operand_omits (omits : Omits nested) : Omits (operand nested) := by
  apply Grants.after (Reads.check [.leftParen]).onward
  intro opens
  apply Grants.after arrowAhead_reads.onward
  intro found
  apply Grants.ite
  · exact arrowFunction_omits omits
  · apply Grants.bind (primary_omits omits)
    intro first none
    exact .bounded fun steps => applications_omits omits steps none

/-- Operands after plus signs. -/
theorem sums_omits (omits : Omits nested) (steps : Nat) {left : Expression}
    (none : left.view.anyNames = []) : Omits (sums nested steps left) := by
  induction steps generalizing left with
  | zero => exact .pure none
  | succ steps inductionHypothesis =>
    apply Grants.after (Reads.matched (by decide)).onward
    intro operator
    cases operator with
    | none => exact .pure none
    | some operator =>
      apply Grants.bind (operand_omits omits)
      intro right noneInside
      apply inductionHypothesis
      simp [Expression.view, View.anyNames_node, none, noneInside]

/-- A conditional. -/
theorem conditional_omits (omits : Omits nested) : Omits (conditional nested) := by
  have sum : Omits (binary nested) :=
    .bind (operand_omits omits) fun first none => .bounded fun steps => sums_omits omits steps none
  apply Grants.bind sum
  intro test none
  apply Grants.after (Reads.accept (by decide)).onward
  intro asks
  apply Grants.ite
  · apply Grants.bind omits
    intro consequent noneInside
    apply Grants.after (expect_onward .colon _)
    intro colon
    apply Grants.bind omits
    intro alternate noneToo
    apply Grants.pure
    simp [Expression.view, View.anyNames_node, none, noneInside, noneToo]
  · exact .pure none

end Expressions

/-- Expressions of any depth. -/
theorem expression_omits : Omits expression := by
  apply Grants.bounded
  intro depth
  induction depth with
  | zero => exact .unexpected _
  | succ depth inductionHypothesis => exact conditional_omits inductionHypothesis

/-- The statements at the top level. -/
theorem topLevel_omits : Grants topLevel fun trees => ∀ tree ∈ trees, tree.view.anyNames = [] :=
  .bounded (statements_omits expression_omits _)

end Parser

/-! ## Tokens of a source -/

namespace Lexing

/-- A primitive type has a name of its own. -/
theorem Denotes.text_ne_any {token : Token} {lexeme : List Char} (denotes : Denotes token lexeme)
    (primitive : token.kind.isPrimitiveType = true) : token.text ≠ "any" := by
  have reserved : (∃ entry ∈ TokenKind.words, token.kind = entry.2 ∧ entry.1 ≠ "any") ∧
      valueOf token.kind lexeme = .text (String.ofList lexeme) := by
    generalize token.kind = kind at primitive ⊢
    cases kind <;> first | contradiction | exact ⟨by decide, rfl⟩
  obtain ⟨⟨entry, among, kind, other⟩, value⟩ := reserved
  rw [Token.text, denotes.value, value, (denotes.reserved entry among).mp kind,
    String.ofList_toList]
  exact other

end Lexing

/-- Behind any of its places a stream is one again. -/
theorem Marked.suffix {tokens rest : List Token} (marked : Marked tokens) (suffix : rest <:+ tokens)
    (nonempty : rest ≠ []) : Marked rest := by
  induction marked with
  | @mark token kind =>
    obtain rfl := (List.suffix_cons_iff.mp suffix).resolve_right fun nothing =>
      nonempty (List.suffix_nil.mp nothing)
    exact .mark kind
  | @lexeme token others lexed marked inductionHypothesis =>
    rcases List.suffix_cons_iff.mp suffix with rfl | behind
    · exact .lexeme lexed marked
    · exact inductionHypothesis behind

/-- A stream is sealed by its mark. -/
theorem Marked.sealed {tokens : List Token} (marked : Marked tokens) : Sealed tokens := by
  induction marked with
  | @mark token kind => exact ⟨token, List.mem_singleton_self token, kind⟩
  | lexeme lexed marked inductionHypothesis => exact inductionHypothesis.append [_]

variable {source : String} {tokens : List Token}

/-- Every place among the tokens of a source is a plain one. -/
theorem Cursor.Plain.of_tokenize (tokenized : tokenize source = .ok tokens) {cursor : Cursor}
    (nonempty : cursor.rest ≠ []) (suffix : cursor.rest <:+ tokens) : cursor.Plain := by
  refine ⟨((tokenize_marked tokenized).suffix suffix nonempty).sealed, ?_⟩
  intro token among primitive
  obtain ⟨lexed, rfl, denotes⟩ := tokenize_denotes tokenized
  rcases List.mem_append.mp (suffix.subset among) with lexeme | mark
  · obtain ⟨_, denotes⟩ := denotes token lexeme
    exact denotes.text_ne_any primitive
  · rw [List.mem_singleton.mp mark] at primitive
    exact nomatch primitive

/-! ## Heads and programs -/

/-- What the two runs over the head of an arrow function have to do with each other. -/
structure Tolerates (cursor : Cursor) : Prop where
  /-- The strict run goes where the tolerant one has gone, or stops at the first refused name. -/
  answers : Parser.Answers Parser.headNames ((Parser.arrowHead false).runAt cursor)
    ((Parser.arrowHead true).runAt cursor)
  /-- The refused names are listed in the order of the source. -/
  ordered : ∀ head after, (Parser.arrowHead false).runAt cursor = (.ok head, after) →
    (Parser.headNames head).Pairwise (· < ·)
  /-- After a positive look ahead the strict run is refused, or it stops before the arrow. -/
  ahead : Parser.arrowAhead.runAt cursor = (.ok true, cursor) →
    (∃ offset stop, (Parser.arrowHead true).runAt cursor =
      (.error ⟨.anyTypeRejected, offset⟩, stop)) ∨
    ∃ head after, (Parser.arrowHead true).runAt cursor = (.ok head, after) ∧
      (after.ahead 0).kind = .arrow

/-- The names in a head are in the order of its tokens. -/
theorem headNames_increasing (tokenized : tokenize source = .ok tokens) {cursor after : Cursor}
    (nonempty : cursor.rest ≠ []) (suffix : cursor.rest <:+ tokens)
    {head : List Parameter × Option Ascription}
    (ran : (Parser.arrowHead false).runAt cursor = (.ok head, after)) :
    (Parser.headNames head).Pairwise (· < ·) := by
  have marked := (tokenize_marked tokenized).suffix suffix nonempty
  obtain ⟨passed, cut, -, holds⟩ := Parser.arrowHead_spans false cursor marked
  rw [ran] at cut holds
  obtain ⟨first, inside, rfl, placed⟩ := holds head rfl
  have part : inside.Sublist tokens := by
    apply List.Sublist.trans _ suffix.sublist
    rw [cut]
    exact (List.sublist_cons_self first inside).trans (List.sublist_append_left _ _)
  have leaves := placed.laid.leaves_increasing ((tokenize_increasing tokenized).sublist part)
  rw [List.map_flatMap] at leaves
  have names : Parser.headNames head =
      (head.1.map Parameter.view ++ head.2.toList.map Ascription.view).flatMap View.anyNames := by
    simp [Parser.headNames, List.flatMap_map]
  rw [names]
  exact leaves.sublist (List.Sublist.flatMap_right _ fun view _ => view.anyNames_sublist)

/-- Among the tokens of a source the tolerant scan and the parser agree on every head, and the
refused name is nowhere in the program. -/
theorem tokenize_tolerates (tokenized : tokenize source = .ok tokens) :
    (∀ cursor : Cursor, cursor.rest ≠ [] → cursor.rest <:+ tokens → Tolerates cursor) ∧
      (parseProgram tokens).1.view.anyNames = [] := by
  constructor
  · intro cursor nonempty suffix
    have plain := Cursor.Plain.of_tokenize tokenized nonempty suffix
    exact {
      answers := (Parser.arrowHead_scans cursor plain).answers rfl
      ordered := fun _ _ ran => headNames_increasing tokenized nonempty suffix ran
      ahead := Parser.arrowHead_ahead plain }
  · have begins := Cursor.start_ended (getLast?_tokens tokenized) rfl
    have start : (Cursor.start tokens).rest = tokens := by rw [begins]
    obtain ⟨token, others, whole⟩ := (tokenize_marked tokenized).exists_cons
    have plain : (Cursor.start tokens).Plain := by
      apply Cursor.Plain.of_tokenize tokenized
      · rw [start, whole]
        exact List.cons_ne_nil _ _
      · rw [start]
    obtain ⟨trees, after, ran⟩ := Parser.topLevel_total (.start tokens)
    obtain ⟨-, none⟩ := Parser.topLevel_omits _ plain
    rw [ran] at none
    rw [parseProgram_eq ran, Program.view, View.anyNames_node (by decide)]
    simpa [List.flatMap_map] using none trees rfl

/-- The head of a function with a refused name deep inside its first parameter, and another one
behind it. -/
def nestedName : String := "(f: (a: Array<any[]>) => number, b: any) => \x7b\x7d"

/-- The scan passes both names, and the parser stops at the first one. -/
theorem tokenize_tolerates_nested : ∃ tokens, tokenize nestedName = .ok tokens ∧
    (Cursor.start tokens).rest ≠ [] ∧ (Cursor.start tokens).rest <:+ tokens ∧
    (Tolerates (.start tokens) ∧ (parseProgram tokens).1.view.anyNames = []) ∧
    Parser.arrowAhead.runAt (.start tokens) = (.ok true, .start tokens) ∧
    ((Parser.arrowHead true).runAt (.start tokens)).1 = .error ⟨.anyTypeRejected, 14⟩ := by
  have tokenized : tokenize nestedName = .ok ((tokenize nestedName).toOption.getD []) := by rfl
  have start : (Cursor.start ((tokenize nestedName).toOption.getD [])).rest =
      (tokenize nestedName).toOption.getD [] := by rfl
  have nonempty : (Cursor.start ((tokenize nestedName).toOption.getD [])).rest ≠ [] := by
    decide +kernel
  have tolerates := tokenize_tolerates tokenized
  have suffix : (Cursor.start ((tokenize nestedName).toOption.getD [])).rest <:+
      (tokenize nestedName).toOption.getD [] := ⟨[], start⟩
  exact ⟨_, tokenized, nonempty, suffix, ⟨tolerates.1 _ nonempty suffix, tolerates.2⟩, rfl, rfl⟩

end ArrowScript
