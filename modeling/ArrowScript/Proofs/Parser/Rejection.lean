import ArrowScript.Proofs.Parser.Bounds
import ArrowScript.Proofs.Tree.Order

/-!
# The refused name

The head of an arrow function is read twice: by a scan that lets the name `any` pass, and
then by the parser, which refuses it. The two runs are compared step by step. As long as no
refused name has been read they are the same run. At the first one the parser stops, and its
error tells where; whatever the scan returns after that has the name in it.

What has been read so far is handed on from parser to parser, since the parser for what
comes next is the one that puts the result together. `Scans` says that the scan, which has
read some refused names before, goes on to a result with these names in front; if it has
read none, its run and that of the parser agree.
-/

namespace ArrowScript

/-! ## Refused names in a tree -/

namespace View

/-- The offset of an ascription with the refused name. -/
def anyName? : View → Option Int
  | node .namedAscription offset _ [(_, text name)] => if name = "any" then some offset else none
  | _ => none

/-- The offsets of all ascriptions with the refused name, in the order of the tree. -/
def anyNames (view : View) : List Int := view.preorder.filterMap anyName?

/-- Behind the name of a node come those in its children. -/
theorem anyNames_eq (view : View) :
    view.anyNames = view.anyName?.toList ++ view.children.flatMap anyNames := by
  rw [anyNames, preorder_eq, List.filterMap_cons, List.filterMap_flatMap]
  cases view.anyName? with
  | none => rfl
  | some offset => rfl

/-- A node of another kind has the names in its children. -/
theorem anyNames_node {kind : NodeKind} (other : kind ≠ .namedAscription) (offset : Int)
    (findings : Findings) (fields : List (String × View)) :
    (node kind offset findings fields).anyNames =
      fields.flatMap fun field => field.2.nodes.flatMap anyNames := by
  have none : (node kind offset findings fields).anyName? = none := by
    cases kind with
    | namedAscription => exact absurd rfl other
    | _ => rfl
  rw [anyNames_eq, none, children, List.flatMap_assoc]
  rfl

/-- The ascriptions with the refused name have no children. -/
theorem anyNames_sublist (view : View) : view.anyNames.Sublist (view.leaves.map offset) := by
  have leaf (node : View) (offset : Int) (named : node.anyName? = some offset) :
      node.children.isEmpty = true ∧ node.offset = offset := by
    unfold anyName? at named
    split at named
    next =>
      split at named
      next => exact ⟨rfl, Option.some.inj named⟩
      next => exact nomatch named
    next => exact nomatch named
  rw [anyNames, leaves]
  induction view.preorder with
  | nil => exact .slnil
  | cons node nodes inductionHypothesis =>
    cases named : node.anyName? with
    | none =>
      rw [List.filterMap_cons_none named]
      have fewer : (nodes.filter (·.children.isEmpty)).Sublist
          ((node :: nodes).filter (·.children.isEmpty)) :=
        (List.sublist_cons_self node nodes).filter _
      exact inductionHypothesis.trans (fewer.map offset)
    | some place =>
      obtain ⟨empty, same⟩ := leaf node place named
      have first : (node :: nodes).filter (·.children.isEmpty) =
          node :: nodes.filter (·.children.isEmpty) := List.filter_cons_of_pos empty
      rw [List.filterMap_cons_some named, first, List.map_cons, same]
      exact inductionHypothesis.cons_cons place

end View

section Names

variable (offset : Int)

/-- The refused name itself, or another one. -/
theorem Ascription.anyNames_named (name : String) :
    (named offset name).view.anyNames = if name = "any" then [offset] else [] := by
  rw [view, View.anyNames_eq, View.anyName?]
  split <;> rfl

/-- The names in an array type are those in the type of its elements. -/
theorem Ascription.anyNames_array (element : Ascription) :
    (array offset element).view.anyNames = element.view.anyNames := by
  rw [view, View.anyNames_node (by decide)]
  simp

/-- The names in a function type are those in its parameters and in its result. -/
theorem Ascription.anyNames_function (params : List Parameter) (result : Ascription) :
    (function offset params result).view.anyNames =
      params.flatMap (·.view.anyNames) ++ result.view.anyNames := by
  rw [view, View.anyNames_node (by decide)]
  simp [List.flatMap_map]

/-- The names in a parameter are those in its type. -/
theorem Parameter.anyNames_view (name : String) (found : Option Ascription) :
    ({ offset, name, ascription := found } : Parameter).view.anyNames =
      found.toList.flatMap (·.view.anyNames) := by
  cases found with
  | none => rw [view, View.anyNames_node (by decide)]; rfl
  | some type => rw [view, View.anyNames_node (by decide)]; simp

/-- There are no types in a use of a name. -/
theorem Identifier.anyNames_view (id : Identifier) : id.view.anyNames = [] := by
  rw [view, View.anyNames_node (by decide)]
  rfl

/-- The names in a declaration are those in its type and in its initial value. -/
theorem Statement.anyNames_constant (id : Identifier) (found : Option Ascription)
    (initial : Expression) (inferred : Option Ty) :
    (constant offset id found initial inferred).view.anyNames =
      found.toList.flatMap (·.view.anyNames) ++ initial.view.anyNames := by
  rw [view, View.anyNames_node (by decide)]
  simp [Identifier.anyNames_view, List.flatMap_map]

/-- The names in an arrow function are those in its head and in its statements. -/
theorem Expression.anyNames_arrow (params : List Parameter) (result : Option Ascription)
    (body : Block) :
    (arrow offset params result body).view.anyNames =
      params.flatMap (·.view.anyNames) ++ result.toList.flatMap (·.view.anyNames) ++
        body.statements.flatMap (·.view.anyNames) := by
  have inside : body.view.anyNames = body.statements.flatMap (·.view.anyNames) := by
    obtain ⟨opening, statements⟩ := body
    rw [Block.view, View.anyNames_node (by decide)]
    simp [List.flatMap_map]
  rw [view, View.anyNames_node (by decide)]
  simp [inside, List.flatMap_map]

end Names

/-! ## Two runs -/

/-- A cursor among tokens of a source: it stands before a mark of the end, and no primitive
type has the refused name. -/
structure Cursor.Plain (cursor : Cursor) : Prop where
  ended : Sealed cursor.rest
  primitive : ∀ token ∈ cursor.rest, token.kind.isPrimitiveType = true → token.text ≠ "any"

/-- A later cursor is among tokens of the source again. -/
theorem Cursor.Plain.onward {before after : Cursor} (plain : before.Plain)
    (onward : before.Onward after) : after.Plain := by
  have ended := plain.ended.passed onward.passed
  obtain ⟨skipped, cut, -⟩ := onward.passed
  refine ⟨ended, fun token among => plain.primitive token ?_⟩
  rw [cut]
  exact List.mem_append_right skipped among

namespace Parser

variable {α β : Type}

/-- How a strict run goes where a tolerant one has gone: alike if there is no refused name in
the result, or else to an error at the first of them. Where the tolerant run fails, so does
the strict one. -/
inductive Answers (names : α → List Int) :
    Except Diagnostic α × Cursor → Except Diagnostic α × Cursor → Prop where
  | accepted {result : α} {after : Cursor} (none : names result = []) :
      Answers names (.ok result, after) (.ok result, after)
  | rejected {result : α} {after stop : Cursor} {offset : Int} {others : List Int}
      (first : names result = offset :: others) :
      Answers names (.ok result, after) (.error ⟨.anyTypeRejected, offset⟩, stop)
  | failed {one other : Diagnostic} {after stop : Cursor} :
      Answers names (.error one, after) (.error other, stop)

/-- A tolerant run from a cursor and a strict one. If some refused names have been read before,
they are in front of the names in the result of the tolerant run; if there were none, the
strict run answers to it. -/
structure Compared (cursor : Cursor) (earlier : List Int) (names : α → List Int)
    (tolerant strict : Except Diagnostic α × Cursor) : Prop where
  onward : cursor.Onward tolerant.2
  kept : ∀ result, tolerant.1 = .ok result → earlier <+: names result
  answers : earlier = [] → Answers names tolerant strict

/-- The runs of the tolerant and of the strict parser compare at every cursor. -/
def Scans (earlier : List Int) (tolerant strict : Parser α) (names : α → List Int) : Prop :=
  ∀ cursor, cursor.Plain →
    Compared cursor earlier names (tolerant.runAt cursor) (strict.runAt cursor)

variable {cursor : Cursor} {earlier : List Int} {tolerant strict parser : Parser α}
  {indulgent severe : Parser β} {next following : α → Parser β} {names : α → List Int}
  {all : β → List Int}

namespace Compared

/-- Behind a strict run that was refused there is nothing left to compare. -/
theorem refused {offset : Int} {others : List Int} {stop : Cursor}
    {run : Except Diagnostic α × Cursor}
    (kept : ∀ result, run.1 = .ok result → offset :: others <+: names result) :
    Answers names run (.error ⟨.anyTypeRejected, offset⟩, stop) := by
  rcases run with ⟨diagnostic | result, after⟩
  · exact .failed
  · obtain ⟨more, whole⟩ := kept result rfl
    exact .rejected whole.symm

/-- Two runs that fail. -/
theorem failed {after stop : Cursor} {one other : Diagnostic} (onward : cursor.Onward after) :
    Compared cursor earlier names (.error one, after) (.error other, stop) where
  onward := onward
  kept := nofun
  answers := fun _ => .failed

/-- Behind the first runs the next parsers take over, with the names that have been read. -/
theorem bind (plain : cursor.Plain)
    (first : Compared cursor [] names (tolerant.runAt cursor) (strict.runAt cursor))
    (second : ∀ result, Scans (earlier ++ names result) (next result) (following result) all) :
    Compared cursor earlier all ((tolerant >>= next).runAt cursor)
      ((strict >>= following).runAt cursor) := by
  obtain ⟨onward, -, answers⟩ := first
  have answers := answers rfl
  rcases ran : tolerant.runAt cursor with ⟨diagnostic | result, middle⟩
  · rcases ranStrict : strict.runAt cursor with ⟨other | result, stop⟩
    · rw [ran] at onward
      rw [runAt_bind_error ran, runAt_bind_error ranStrict]
      exact failed onward
    · rw [ran, ranStrict] at answers
      exact nomatch answers
  rw [ran] at onward
  obtain ⟨further, kept, answersNext⟩ := second result middle (plain.onward onward)
  rw [runAt_bind_ok ran]
  refine ⟨onward.trans further, ?_, ?_⟩
  · intro output found
    exact (List.prefix_append earlier _).trans (kept output found)
  · rintro rfl
    rcases ranStrict : strict.runAt cursor with ⟨diagnostic | other, stop⟩
    · rw [ran, ranStrict] at answers
      rw [runAt_bind_error ranStrict]
      cases answers with
      | rejected first =>
        apply refused
        rw [List.nil_append, first] at kept
        exact kept
    · rw [ran, ranStrict] at answers
      rw [runAt_bind_ok ranStrict]
      cases answers with
      | accepted none => exact answersNext (by rw [none, List.nil_append])

/-- A look at the next token before both parsers. -/
theorem look {token : Token} {tail : List Token} {next following : Token → Parser β}
    (ahead : cursor.rest = token :: tail)
    (compared : Compared cursor earlier all ((next token).runAt cursor)
      ((following token).runAt cursor)) :
    Compared cursor earlier all ((peek >>= next).runAt cursor)
      ((peek >>= following).runAt cursor) := by
  rw [runAt_bind_ok (runAt_peek ahead), runAt_bind_ok (runAt_peek ahead)]
  exact compared

/-- Parsers that compare at every cursor do so at this one. -/
theorem of_scans (plain : cursor.Plain) (scans : Scans earlier tolerant strict names) :
    Compared cursor earlier names (tolerant.runAt cursor) (strict.runAt cursor) :=
  scans cursor plain

/-- A choice that does not depend on the parser. -/
theorem ite {condition : Prop} [Decidable condition] {otherTolerant otherStrict : Parser α}
    (positive : condition →
      Compared cursor earlier names (tolerant.runAt cursor) (strict.runAt cursor))
    (negative : ¬condition →
      Compared cursor earlier names (otherTolerant.runAt cursor) (otherStrict.runAt cursor)) :
    Compared cursor earlier names ((if condition then tolerant else otherTolerant).runAt cursor)
      ((if condition then strict else otherStrict).runAt cursor) := by
  split
  · exact positive ‹_›
  · exact negative ‹_›

end Compared

namespace Scans

/-- A result in which all names stand that have been read. -/
theorem pure {result : α} (same : names result = earlier) :
    Scans earlier (pure result) (pure result) names := by
  intro cursor _
  refine ⟨.refl cursor, ?_, ?_⟩
  · rintro _ ⟨⟩
    exact same ▸ List.prefix_rfl
  · rintro rfl
    exact .accepted same

/-- A failure at the next token. -/
theorem unexpected (words : String) :
    Scans earlier (unexpected words : Parser α) (unexpected words) names :=
  fun cursor _ => .failed (.refl cursor)

/-- A sequence. -/
theorem bind (first : Scans [] tolerant strict names)
    (second : ∀ result, Scans (earlier ++ names result) (next result) (following result) all) :
    Scans earlier (tolerant >>= next) (strict >>= following) all :=
  fun cursor plain => (first cursor plain).bind plain second

/-- A parser without names in its results agrees with itself. -/
theorem same (onward : Onward parser) : Scans [] parser parser fun _ => [] := by
  intro cursor _
  refine ⟨onward cursor, fun _ _ => List.nil_prefix, fun _ => ?_⟩
  rcases parser.runAt cursor with ⟨diagnostic | result, after⟩
  · exact .failed
  · exact .accepted rfl

/-- A parser without names in its results, before others. -/
theorem after (onward : Onward parser)
    (second : ∀ result, Scans earlier (next result) (following result) all) :
    Scans earlier (parser >>= next) (parser >>= following) all := by
  apply bind (same onward)
  intro result
  rw [List.append_nil]
  exact second result

/-- A choice that does not depend on the parser. -/
theorem ite {condition : Prop} [Decidable condition] {otherTolerant otherStrict : Parser α}
    (positive : Scans earlier tolerant strict names)
    (negative : Scans earlier otherTolerant otherStrict names) :
    Scans earlier (if condition then tolerant else otherTolerant)
      (if condition then strict else otherStrict) names :=
  fun cursor plain => .ite (fun _ => positive cursor plain) fun _ => negative cursor plain

/-- A result that is put into another form. -/
theorem map {form : α → β} (scans : Scans [] tolerant strict fun result => all (form result)) :
    Scans [] (form <$> tolerant) (form <$> strict) all := by
  change Scans [] (tolerant >>= fun result => Pure.pure (form result))
    (strict >>= fun result => Pure.pure (form result)) all
  apply bind scans
  intro result
  exact pure (List.nil_append _).symm

/-- Rules with a bound. -/
theorem bounded {rule law : Nat → Parser α}
    (scans : ∀ steps, Scans earlier (rule steps) (law steps) names) :
    Scans earlier (bounded rule) (bounded law) names :=
  fun cursor plain => scans _ cursor plain

end Scans

/-- A token that is required goes onward, whether it is there or not. -/
theorem expect_onward (kind : TokenKind) (words : String) : Onward (expect kind words) := by
  have taken : Reads advance fun _ _ _ => True := Reads.advance.mono fun _ _ _ _ => trivial
  have reads : Reads (expect kind words) fun _ _ _ => True := by
    apply Reads.bind (.check [kind])
    intro found
    apply Reads.ite
    · intro _
      exact taken.mono fun _ _ _ _ _ _ => trivial
    · intro _
      exact .unexpected words
  exact reads.onward

/-! ## Lists -/

section Lists

variable {item partner : Parser α}

/-- Items after commas. -/
theorem moreItems_scans (scans : Scans [] item partner names) (steps : Nat) :
    Scans [] (moreItems item steps) (moreItems partner steps) fun trees => trees.flatMap names := by
  induction steps with
  | zero => exact .pure rfl
  | succ steps inductionHypothesis =>
    apply Scans.after (Reads.accept (by decide)).onward
    intro comma
    apply Scans.ite
    · apply Scans.bind scans
      intro first
      apply Scans.bind inductionHypothesis
      intro others
      apply Scans.pure
      rw [List.flatMap_cons, List.nil_append]
    · exact .pure rfl

/-- Items up to a closing token. -/
theorem itemsUntil_scans (scans : Scans [] item partner names) (closing : TokenKind) :
    Scans [] (itemsUntil item closing) (itemsUntil partner closing)
      fun trees => trees.flatMap names := by
  have several : Scans [] (items item) (items partner) fun trees => trees.flatMap names := by
    apply Scans.bind scans
    intro first
    apply Scans.bind (.bounded (moreItems_scans scans))
    intro others
    apply Scans.pure
    rw [List.flatMap_cons, List.nil_append]
  have absent : Scans [] (pure []) (pure []) fun trees => trees.flatMap names := .pure rfl
  have closed (trees : List α) : Scans ([] ++ trees.flatMap names)
      (expect closing >>= fun _ => pure trees) (expect closing >>= fun _ => pure trees)
      fun trees => trees.flatMap names := by
    apply Scans.after (expect_onward closing _)
    intro token
    exact .pure (List.nil_append _).symm
  apply Scans.after (Reads.check [closing]).onward
  intro ends
  apply Scans.ite
  · exact .bind absent closed
  · exact .bind several closed

end Lists

/-! ## Types -/

section Types

variable {nested stricter : Parser Ascription}

/-- What may follow a colon. -/
theorem annotated_scans {next following : Option Ascription → Parser β}
    (scans : Scans [] nested stricter (·.view.anyNames))
    (second : ∀ found, Scans (earlier ++ found.toList.flatMap (·.view.anyNames))
      (next found) (following found) all) :
    Scans earlier
      (accept .colon >>= fun found =>
        if found = true then some <$> nested >>= next else pure none >>= next)
      (accept .colon >>= fun found =>
        if found = true then some <$> stricter >>= following else pure none >>= following)
      all := by
  have present : Scans [] (some <$> nested) (some <$> stricter)
      fun found => found.toList.flatMap (·.view.anyNames) := by
    apply Scans.map
    simpa using scans
  have absent : Scans [] (pure none) (pure none)
      fun found => found.toList.flatMap fun type : Ascription => type.view.anyNames := .pure rfl
  apply Scans.after (Reads.accept (by decide)).onward
  intro colon
  apply Scans.ite
  · exact .bind present second
  · exact .bind absent second

/-- Parameters between parentheses. -/
theorem parameters_scans (scans : Scans [] nested stricter (·.view.anyNames)) :
    Scans [] (parameters nested) (parameters stricter)
      fun params => params.flatMap (·.view.anyNames) := by
  have one : Scans [] (parameter nested) (parameter stricter) (·.view.anyNames) := by
    apply Scans.after (expect_onward .identifier _)
    intro name
    apply annotated_scans scans
    intro found
    exact .pure (Parameter.anyNames_view name.offset name.text found)
  apply Scans.after (expect_onward .leftParen _)
  intro opening
  exact itemsUntil_scans one .rightParen

/-- Empty brackets after a type, which both runs read alike. -/
theorem arraySuffixes_scans (steps : Nat) (element : Ascription) :
    Scans element.view.anyNames (arraySuffixes steps element) (arraySuffixes steps element)
      (·.view.anyNames) := by
  induction steps generalizing element with
  | zero => exact .pure rfl
  | succ steps inductionHypothesis =>
    apply Scans.after (Reads.check [.leftBracket]).onward
    intro opens
    apply Scans.after (Reads.peek 1).onward
    intro second
    apply Scans.ite
    · apply Scans.after Reads.advance.onward
      intro opening
      apply Scans.after Reads.advance.onward
      intro closing
      rw [← Ascription.anyNames_array element.offset element]
      exact inductionHypothesis _
    · exact .pure rfl

/-- The refused name where a type may stand: the scan takes it, and the parser stops. -/
theorem named_compared {token : Token} {tail : List Token} (ahead : cursor.rest = token :: tail)
    (identifier : token.kind = .identifier) (any : token.text = "any") :
    Compared cursor [] (·.view.anyNames)
      ((advance >>= fun _ => pure (Ascription.named token.offset token.text)).runAt cursor)
      (.error ⟨.anyTypeRejected, token.offset⟩, cursor) := by
  have lexeme : token.kind ≠ .endOfFile := identifier ▸ by decide
  have taken := runAt_advance ahead lexeme
  have names : (Ascription.named token.offset token.text).view.anyNames = [token.offset] := by
    rw [Ascription.anyNames_named, if_pos any]
  constructor
  · rw [runAt_bind_ok taken]
    have passed : Passed cursor.rest tail := ahead ▸ .cons lexeme (.refl tail)
    exact ⟨passed, [], (List.append_nil _).symm⟩
  · exact fun _ _ => List.nil_prefix
  · intro _
    rw [runAt_bind_ok taken]
    exact .rejected names

/-- A type before the brackets after it. This is where the runs may part. -/
theorem simpleAscription_scans (scans : Scans [] nested stricter (·.view.anyNames)) :
    Scans [] (simpleAscription false nested) (simpleAscription true stricter)
      (·.view.anyNames) := by
  intro cursor plain
  obtain ⟨token, tail, ahead⟩ := plain.ended.exists_cons
  have allowed (other : token.text ≠ "any") :
      Scans [] (advance >>= fun _ => pure (Ascription.named token.offset token.text))
        (advance >>= fun _ => pure (Ascription.named token.offset token.text))
        (·.view.anyNames) := by
    apply Scans.after Reads.advance.onward
    intro taken
    apply Scans.pure
    rw [Ascription.anyNames_named, if_neg other]
  apply Compared.look ahead
  apply Compared.ite
  · intro primitive
    have among : token ∈ cursor.rest := ahead ▸ List.mem_cons_self
    exact allowed (plain.primitive token among primitive) cursor plain
  intro _
  apply Compared.ite
  · intro identifier
    by_cases any : token.text = "any"
    · have refused : (true && rejectedName token.text) = true := by rw [any]; rfl
      rw [if_pos refused]
      exact named_compared ahead identifier any
    · have passes : ¬(true && rejectedName token.text) = true := by simpa [rejectedName] using any
      rw [if_neg passes]
      exact allowed any cursor plain
  intro _
  apply Compared.ite
  · intro _
    apply Compared.of_scans plain
    apply Scans.after Reads.advance.onward
    intro keyword
    apply Scans.after (expect_onward .lessThan _)
    intro opening
    apply Scans.bind scans
    intro element
    apply Scans.after (expect_onward .greaterThan _)
    intro closing
    exact .pure (Ascription.anyNames_array _ _)
  intro _
  apply Compared.ite
  · intro _
    apply Compared.of_scans plain
    apply Scans.bind (parameters_scans scans)
    intro params
    apply Scans.after (expect_onward .arrow _)
    intro arrow
    apply Scans.bind scans
    intro result
    exact .pure (Ascription.anyNames_function _ _ _)
  intro _
  exact .of_scans plain (.unexpected _)

/-- Types of any depth. -/
theorem ascription_scans :
    Scans [] (ascription false) (ascription true) (·.view.anyNames) := by
  apply Scans.bounded
  intro depth
  induction depth with
  | zero => exact .unexpected _
  | succ depth inductionHypothesis =>
    apply Scans.bind (simpleAscription_scans inductionHypothesis)
    intro simple
    exact .bounded fun steps => arraySuffixes_scans steps simple

/-- The refused names in the head of an arrow function. -/
def headNames (head : List Parameter × Option Ascription) : List Int :=
  head.1.flatMap (·.view.anyNames) ++ head.2.toList.flatMap (·.view.anyNames)

/-- The part of an arrow function before its arrow. -/
theorem arrowHead_scans : Scans [] (arrowHead false) (arrowHead true) headNames := by
  apply Scans.bind (parameters_scans ascription_scans)
  intro params
  apply annotated_scans ascription_scans
  intro result
  exact .pure rfl

/-- After a positive look ahead the strict run can only be refused, or else it stops before the
arrow. -/
theorem arrowHead_ahead (plain : cursor.Plain)
    (found : arrowAhead.runAt cursor = (.ok true, cursor)) :
    (∃ offset stop, (arrowHead true).runAt cursor = (.error ⟨.anyTypeRejected, offset⟩, stop)) ∨
      ∃ head after, (arrowHead true).runAt cursor = (.ok head, after) ∧
        (after.ahead 0).kind = .arrow := by
  have answers := (arrowHead_scans cursor plain).answers rfl
  rw [runAt_arrowAhead] at found
  rcases ran : (arrowHead false).runAt cursor with ⟨diagnostic | head, after⟩
  · rw [ran] at found
    exact nomatch found
  · rw [ran] at found answers
    have arrow : (after.ahead 0).kind = .arrow :=
      of_decide_eq_true (Except.ok.inj (Prod.mk.inj found).1)
    rcases strict : (arrowHead true).runAt cursor with ⟨diagnostic | result, stop⟩
    · rw [strict] at answers
      cases answers
      exact .inl ⟨_, _, rfl⟩
    · rw [strict] at answers
      cases answers
      exact .inr ⟨head, after, rfl, arrow⟩

end Types

end Parser

end ArrowScript
