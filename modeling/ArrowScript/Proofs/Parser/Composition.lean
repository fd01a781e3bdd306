import ArrowScript.Proofs.Parser.Bounds
import ArrowScript.Proofs.Parser.Diagnostics
import ArrowScript.Proofs.Parser.Recovery

/-!
# Programs are parsed one semicolon after another

Where the braces before a semicolon are balanced, the statements before it are parsed as
if the stream ended there, and those behind it as if it began there. Errors before the
semicolon are no exception: the way to the next boundary does not lead beyond it.

Every round of the loop over the statements passes a token, so the bound on the number of
rounds, which differs between a stream and its parts, is never reached.
-/

namespace ArrowScript

namespace Parser

variable {cursor after : Cursor} {token : Token} {tail rest : List Token}

/-! ## The loop over the top-level statements -/

/-- A parser that never fails. -/
def Total {α : Type} (parser : Parser α) : Prop :=
  ∀ cursor, ∃ result after, parser.runAt cursor = (.ok result, after)

namespace Total

variable {α β : Type} {parser other : Parser α} {next : α → Parser β}

/-- A result. -/
theorem pure (result : α) : Total (pure result) := fun cursor => ⟨result, cursor, rfl⟩

/-- A sequence. -/
theorem bind (first : Total parser) (second : ∀ result, Total (next result)) :
    Total (parser >>= next) := by
  intro cursor
  obtain ⟨result, middle, ran⟩ := first cursor
  obtain ⟨final, after, further⟩ := second result middle
  exact ⟨final, after, (runAt_bind_ok ran next).trans further⟩

/-- A choice. -/
theorem ite {condition : Prop} [Decidable condition] (positive : Total parser)
    (negative : Total other) : Total (if condition then parser else other) := by
  split
  · exact positive
  · exact negative

/-- A look at the kind of the next token. -/
theorem check (kinds : List TokenKind) : Total (check kinds) := fun cursor => ⟨_, cursor, rfl⟩

/-- A step over the next token. -/
theorem advance : Total advance := by
  have looked : Total (peek 0) := fun cursor => ⟨_, cursor, rfl⟩
  exact .bind looked fun token =>
    .ite (.bind (fun _ => ⟨(), _, rfl⟩) fun _ => .pure token) (.pure token)

/-- A token that is passed if it comes next. -/
theorem accept (kind : TokenKind) : Total (accept kind) :=
  .bind (.bind (.check [kind]) fun _ => .ite (.bind .advance fun _ => .pure _) (.pure none))
    fun _ => .pure _

end Total

/-- A statement whose errors are recorded. -/
theorem recovering_total (nested : Parser Expression) (inBlock : Bool) :
    Total (recovering nested inBlock) := by
  intro cursor
  rw [runAt_recovering]
  split
  next => exact ⟨_, _, rfl⟩
  next => exact ⟨_, _, rfl⟩

/-- The loop over the statements never fails. -/
theorem statements_total (nested : Parser Expression) (inBlock : Bool) (ends : List TokenKind)
    (steps : Nat) : Total (statements nested inBlock ends steps) := by
  induction steps with
  | zero => exact .pure []
  | succ steps inductionHypothesis =>
      exact .bind (.check ends) fun _ => .ite (.pure []) (.bind (.accept .semicolon) fun _ =>
        .ite inductionHypothesis (.bind (recovering_total nested inBlock) fun _ =>
          .bind inductionHypothesis fun _ => .pure _))

/-- The statements at the top level. -/
def topLevel : Parser (List Statement) := bounded (statements expression false [.endOfFile])

/-- A bound on the rounds that exceeds the number of tokens ahead makes no difference. -/
theorem topLevel_bounds (ended : Sealed cursor.rest) {rounds : Nat}
    (enough : cursor.rest.length < rounds) :
    (statements expression false [.endOfFile] rounds).runAt cursor = topLevel.runAt cursor := by
  have marks : TokenKind.endOfFile ∈ [TokenKind.endOfFile] := List.mem_singleton_self _
  have closes : false = true → TokenKind.rightCurly ∈ [TokenKind.endOfFile] := nofun
  have loops := (unbounded _).statements expression_reads.onward marks closes enough
  exact (loops _ ended (Nat.le_refl _) cursor rfl).1

/-- A round at the top level passes the token ahead. -/
theorem recovering_passed {first : Option Statement} (ended : Sealed tail)
    (ahead : cursor.rest = token :: tail) (kind : token.kind ≠ .endOfFile)
    (ran : (recovering expression false).runAt cursor = (.ok first, after)) :
    Passed tail after.rest := by
  have outside : false = true → token.kind ≠ .rightCurly := nofun
  have moved := (recovering_passes (.same expression_reads.onward) (ended.append [token])
    (Nat.le_succ _) kind outside ahead).2
  rwa [ran] at moved

/-- At one cursor the loop finds the given trees, and then those that it finds at the other. -/
def Unrolls (cursor : Cursor) (body : List Statement) (further : Cursor) : Prop :=
  ∀ ⦃trees : List Statement⦄ ⦃after : Cursor⦄, topLevel.runAt further = (.ok trees, after) →
    topLevel.runAt cursor = (.ok (body ++ trees), after)

namespace Unrolls

variable {further : Cursor} {body : List Statement}

/-- Before any round nothing is found. -/
theorem refl (cursor : Cursor) : Unrolls cursor [] cursor := fun _ _ ran => ran

/-- A round that skips a semicolon. -/
theorem skip (ahead : cursor.rest = token :: tail) (semicolon : token.kind = .semicolon)
    (unrolls : Unrolls { cursor with rest := tail } body further) :
    Unrolls cursor body further := by
  intro trees final found
  have other : ¬ [TokenKind.endOfFile].contains token.kind = true := by rw [semicolon]; decide
  change (statements expression false [.endOfFile] (cursor.rest.length + 1)).runAt cursor = _
  unfold statements
  rw [runAt_bind_ok (runAt_check ahead), if_neg other,
    runAt_bind_ok (Consumes.accept (by decide) semicolon tail cursor ahead), ahead]
  exact unrolls found

/-- A round that reads a statement. -/
theorem round {first : Option Statement} (ahead : cursor.rest = token :: tail)
    (starts : token.kind ≠ .semicolon) (kind : token.kind ≠ .endOfFile) (ended : Sealed tail)
    (ran : (recovering expression false).runAt cursor = (.ok first, after))
    (unrolls : Unrolls after body further) :
    Unrolls cursor (first.toList ++ body) further := by
  intro trees final found
  have other : ¬ [TokenKind.endOfFile].contains token.kind = true := fun mark =>
    kind (List.mem_singleton.mp (List.contains_iff_mem.mp mark))
  have absent : Next (· ≠ .semicolon) (token :: tail) := .of_cons starts
  have declined := Consumes.reject absent cursor ahead
  rw [cursor_eq ahead] at declined
  -- The next round has a bound that is left from the tokens before this one.
  have passed := recovering_passed ended ahead kind ran
  have rounds : (statements expression false [.endOfFile] (tail.length + 1)).runAt after =
      topLevel.runAt after :=
    topLevel_bounds (ended.passed passed) (Nat.lt_succ_of_le passed.length_le)
  change (statements expression false [.endOfFile] (cursor.rest.length + 1)).runAt cursor = _
  rw [ahead, List.length_cons]
  unfold statements
  rw [runAt_bind_ok (runAt_check ahead), if_neg other, runAt_bind_ok declined,
    if_neg Bool.false_ne_true, runAt_bind_ok ran, runAt_bind_ok (rounds.trans (unrolls found)),
    List.append_assoc]
  rfl

end Unrolls

/-- Up to a semicolon with balanced braces before it, the loop finds the same trees and
leaves the same diagnostics, whatever comes behind. -/
theorem topLevel_resumes {stop : Token} {front : List Token} (before : Before stop front)
    (semicolon : stop.kind = .semicolon) {tail others : List Token} (ended : Sealed tail)
    (alsoEnded : Sealed others) {here there : Cursor} (ahead : here.rest = front ++ tail)
    (beyond : there.rest = front ++ others) :
    ∃ body added, Unrolls here body (here.moved tail added) ∧
      Unrolls there body (there.moved others added) := by
  induction size : front.length using Nat.strongRecOn generalizing front here there with
  | _ size inductionHypothesis =>
    subst size
    -- After a round the loop goes on with what is left of the front, or behind it.
    have further {left : List Token} (added : List Diagnostic)
        (remains : Remains stop front.length left) :
        ∃ body found, Unrolls (here.moved (left ++ tail) added) body (here.moved tail found) ∧
          Unrolls (there.moved (left ++ others) added) body (there.moved others found) := by
      cases remains with
      | front following fewer =>
          obtain ⟨body, found, unrolls, alsoUnrolls⟩ :=
            @inductionHypothesis _ fewer left following (here.moved (left ++ tail) added)
              (there.moved (left ++ others) added) rfl rfl rfl
          rw [Cursor.moved_moved] at unrolls alsoUnrolls
          exact ⟨body, added ++ found, unrolls, alsoUnrolls⟩
      | nothing => exact ⟨[], added, .refl _, .refl _⟩
    obtain ⟨token, rest, rfl⟩ := before.exists_cons
    by_cases empty : token.kind = .semicolon
    · have remains : Remains stop (token :: rest).length rest := by
        cases before with
        | stop => exact .nothing semicolon
        | lexeme kind following => exact .front following (Nat.lt_succ_self _)
        | braces opens => exact absurd (empty.symm.trans opens) (by decide)
      obtain ⟨body, found, unrolls, alsoUnrolls⟩ := further [] remains
      simp only [Cursor.moved, List.append_nil] at unrolls alsoUnrolls
      exact ⟨body, found, .skip ahead empty unrolls, .skip beyond empty alsoUnrolls⟩
    · have kind : token.kind ∉ [.semicolon, .rightCurly, .endOfFile] := by
        cases before with
        | stop => exact absurd semicolon empty
        | lexeme kind =>
            simp only [List.mem_cons, List.not_mem_nil, or_false, not_or] at kind ⊢
            exact ⟨empty, kind.2⟩
        | braces opens => rw [opens]; decide
      simp only [List.mem_cons, List.not_mem_nil, or_false, not_or] at kind
      have starts : Next (· ∉ [.semicolon, .rightCurly]) (token :: rest) := by
        refine .of_cons ?_
        simp only [List.mem_cons, List.not_mem_nil, or_false, not_or]
        exact ⟨empty, kind.2.1⟩
      obtain ⟨outcome, left, added, ⟨⟨first, rfl⟩, remains⟩, ran, alsoRan⟩ :=
        recovering_alike (expression_keeps _) (.inl semicolon) before (Nat.le_succ _) starts
          ahead beyond
      obtain ⟨body, found, unrolls, alsoUnrolls⟩ := further added remains
      exact ⟨first.toList ++ body, found,
        .round ahead empty kind.2.2 (ended.append rest) ran unrolls,
        .round beyond empty kind.2.2 (alsoEnded.append rest) alsoRan alsoUnrolls⟩

/-- The statements at the top level are always found. -/
theorem topLevel_total : Total topLevel :=
  fun cursor => statements_total expression false [.endOfFile] _ cursor

/-- A run that starts with diagnostics leaves them in front of its own. -/
theorem topLevel_adds : Adds topLevel := .bounded (statements_adds expression_adds _ _)

/-- At a mark of the end there are no statements. -/
theorem topLevel_mark (ahead : cursor.rest = token :: tail) (kind : token.kind = .endOfFile) :
    topLevel.runAt cursor = (.ok [], cursor) := by
  have found : [TokenKind.endOfFile].contains token.kind = true := by rw [kind]; rfl
  change (statements expression false [.endOfFile] (cursor.rest.length + 1)).runAt cursor = _
  unfold statements
  rw [runAt_bind_ok (runAt_check ahead), if_pos found]
  rfl

/-- The statements are read up to a mark of the end. -/
theorem topLevel_ends (ended : Sealed cursor.rest) :
    ∃ trees final mark left, topLevel.runAt cursor = (.ok trees, final) ∧
      final.rest = mark :: left ∧ mark.kind = .endOfFile := by
  induction size : cursor.rest.length using Nat.strongRecOn generalizing cursor with
  | _ size inductionHypothesis =>
    subst size
    obtain ⟨token, tail, ahead⟩ := ended.exists_cons
    rw [ahead, List.length_cons] at inductionHypothesis
    rw [ahead] at ended
    by_cases kind : token.kind = .endOfFile
    · exact ⟨[], cursor, token, tail, topLevel_mark ahead kind, ahead, kind⟩
    have sealedTail := ended.tail kind
    by_cases semicolon : token.kind = .semicolon
    · obtain ⟨trees, final, mark, left, found, last, kind⟩ :=
        @inductionHypothesis _ (Nat.lt_succ_self _) { cursor with rest := tail } sealedTail rfl
      have skips := Unrolls.skip ahead semicolon (.refl _)
      exact ⟨trees, final, mark, left, skips found, last, kind⟩
    · obtain ⟨first, after, ran⟩ := recovering_total expression false cursor
      have passed := recovering_passed sealedTail ahead kind ran
      obtain ⟨trees, final, mark, left, found, last, endOfFile⟩ :=
        @inductionHypothesis _ (Nat.lt_succ_of_le passed.length_le) after
          (sealedTail.passed passed) rfl
      have rounds := Unrolls.round ahead semicolon kind sealedTail ran (.refl _)
      exact ⟨_, final, mark, left, rounds found, last, endOfFile⟩

end Parser

/-! ## Programs -/

/-- A program and its diagnostics, with those of what comes after it. -/
def joined (first second : Program × List Diagnostic) : Program × List Diagnostic :=
  ({ body := first.1.body ++ second.1.body }, first.2 ++ second.2)

/-- The program of a stream whose statements are found. -/
theorem parseProgram_eq {tokens : List Token} {trees : List Statement} {after : Cursor}
    (ran : Parser.topLevel.runAt (.start tokens) = (.ok trees, after)) :
    parseProgram tokens = ({ body := trees }, after.diagnostics) := by
  have program : Parser.program.runAt (.start tokens) = (.ok { body := trees }, after) :=
    Parser.runAt_bind_ok ran _
  unfold parseProgram
  rw [program]

namespace Cursor

variable {tokens : List Token} {mark : Token}

/-- A stream that ends with a mark is read as it is. -/
theorem start_ended (final : tokens.getLast? = some mark) (kind : mark.kind = .endOfFile) :
    start tokens = { rest := tokens, last := mark } := by
  simp only [start, stream, final, kind, if_true, Option.getD_some]

/-- Every stream is given a mark at its end. -/
theorem stream_ended (tokens : List Token) :
    ∃ mark, (stream tokens).getLast? = some mark ∧ mark.kind = .endOfFile := by
  unfold stream
  split
  next => exact ⟨.atEnd 0, rfl, rfl⟩
  next last final =>
    split
    next kind => exact ⟨last, final, kind⟩
    next => exact ⟨.atEnd last.offset, List.getLast?_concat, rfl⟩

/-- A mark is not added twice. -/
theorem start_stream (tokens : List Token) : start (stream tokens) = start tokens := by
  obtain ⟨mark, final, kind⟩ := stream_ended tokens
  rw [start_ended final kind, start]
  simp only [final, Option.getD_some]

/-- Tokens in front do not change the mark of a stream. -/
theorem stream_append (nonempty : tokens ≠ []) (front : List Token) :
    stream (front ++ tokens) = front ++ stream tokens := by
  have final : tokens.getLast? = some (tokens.getLast nonempty) :=
    List.getLast?_eq_some_getLast nonempty
  have same : (front ++ tokens).getLast? = some (tokens.getLast nonempty) := by
    rw [List.getLast?_append, final, Option.some_or]
  simp only [stream, final, same]
  split
  next => rfl
  next => rw [List.append_assoc]

end Cursor

/-- A mark may be put at the end before a stream is parsed. -/
theorem parseProgram_stream (tokens : List Token) :
    parseProgram (Cursor.stream tokens) = parseProgram tokens := by
  unfold parseProgram
  rw [Cursor.start_stream]

/-- A stream with nothing but a mark is an empty program. -/
theorem parseProgram_mark {mark : Token} (kind : mark.kind = .endOfFile) :
    parseProgram [mark] = ({ body := [] }, []) := by
  have begins : Cursor.start [mark] = { rest := [mark], last := mark } :=
    Cursor.start_ended rfl kind
  rw [parseProgram_eq (Parser.topLevel_mark (by rw [begins]) kind), begins]

/-- A stream with a mark at its end is parsed up to a semicolon, and from there on. -/
theorem parseProgram_divided {front tail : List Token} {stop mark final : Token}
    (before : Before stop front) (semicolon : stop.kind = .semicolon)
    (ends : mark.kind = .endOfFile) (last : tail.getLast? = some final)
    (kind : final.kind = .endOfFile) :
    parseProgram (front ++ tail) = joined (parseProgram (front ++ [mark])) (parseProgram tail) := by
  have here : Cursor.start (front ++ tail) = { rest := front ++ tail, last := final } :=
    Cursor.start_ended (by rw [List.getLast?_append, last, Option.some_or]) kind
  have there : Cursor.start (front ++ [mark]) = { rest := front ++ [mark], last := mark } :=
    Cursor.start_ended List.getLast?_concat ends
  have behind : Cursor.start tail = { rest := tail, last := final } := Cursor.start_ended last kind
  have ahead : (Cursor.start (front ++ tail)).rest = front ++ tail := by rw [here]
  have beyond : (Cursor.start (front ++ [mark])).rest = front ++ [mark] := by rw [there]
  have ended : Sealed tail := ⟨final, List.mem_of_getLast? last, kind⟩
  have alsoEnded : Sealed [mark] := ⟨mark, List.mem_singleton_self mark, ends⟩
  obtain ⟨body, added, unrolls, alone⟩ :=
    Parser.topLevel_resumes before semicolon ended alsoEnded ahead beyond
  obtain ⟨trees, after, ran⟩ := Parser.topLevel_total (.start tail)
  have moved : (Cursor.start (front ++ tail)).moved tail added =
      (Cursor.start tail).behind added := by
    simp only [here, behind, Cursor.moved, Cursor.behind, List.nil_append, List.append_nil]
  have further := Parser.topLevel_adds added (.start tail)
  rw [ran, ← moved] at further
  have reached : ((Cursor.start (front ++ [mark])).moved [mark] added).rest = [mark] := rfl
  rw [parseProgram_eq (unrolls further), parseProgram_eq ran,
    parseProgram_eq (alone (Parser.topLevel_mark reached ends)), there]
  simp only [joined, Cursor.behind, Cursor.moved, List.append_nil, List.nil_append]

/-- Where the braces before a semicolon are balanced, the statements up to the semicolon and
those behind it are parsed as two programs, with the diagnostics of the first before those
of the second. The marks of the end may be in the streams or be left to the parser. -/
theorem parseProgram_append {before : List Token} {semicolon : Token}
    (balanced : Balanced before) (lexemes : ∀ token ∈ before, token.kind ≠ .endOfFile)
    (ends : semicolon.kind = .semicolon) (after : List Token) :
    parseProgram (before ++ semicolon :: after) =
        joined (parseProgram (before ++ [semicolon])) (parseProgram after) ∧
      ∀ mark final : Int, parseProgram (before ++ semicolon :: after ++ [.atEnd final]) =
        joined (parseProgram (before ++ [semicolon, .atEnd mark]))
          (parseProgram (after ++ [.atEnd final])) := by
  have front := balanced.before lexemes semicolon
  have cut (rest : List Token) : before ++ semicolon :: rest = before ++ [semicolon] ++ rest := by
    rw [List.append_assoc, List.singleton_append]
  have kind : semicolon.kind ≠ .endOfFile := by rw [ends]; decide
  have marks (offset : Int) : (Token.atEnd offset).kind = .endOfFile := rfl
  have alone : Cursor.stream (before ++ [semicolon]) =
      before ++ [semicolon] ++ [.atEnd semicolon.offset] := by
    simp only [Cursor.stream, List.getLast?_concat, kind, if_false]
  constructor
  · rw [← parseProgram_stream (before ++ [semicolon]), alone, cut]
    by_cases empty : after = []
    · subst empty
      have nothing : parseProgram [.atEnd semicolon.offset] = parseProgram [] :=
        parseProgram_mark (marks _)
      have divided := parseProgram_divided front ends (marks semicolon.offset)
        List.getLast?_singleton (marks semicolon.offset)
      rw [nothing] at divided
      rw [List.append_nil, ← parseProgram_stream (before ++ [semicolon]), alone]
      exact divided
    · obtain ⟨mark, last, kind⟩ := Cursor.stream_ended after
      rw [← parseProgram_stream, Cursor.stream_append empty,
        parseProgram_divided front ends (marks _) last kind, parseProgram_stream]
  · intro mark final
    rw [cut, List.append_assoc, cut [.atEnd mark]]
    exact parseProgram_divided front ends (marks mark) List.getLast?_concat (marks final)

/-- The tokens of `const = { return ( ; } )`, in which nothing is right but the braces. -/
def brokenFront : List Token :=
  [⟨.constKeyword, .text "const", 0⟩, ⟨.equal, .text "=", 6⟩, ⟨.leftCurly, .text "\x7b", 8⟩,
    ⟨.returnKeyword, .text "return", 10⟩, ⟨.leftParen, .text "(", 17⟩, ⟨.semicolon, .text ";", 19⟩,
    ⟨.rightCurly, .text "\x7d", 21⟩, ⟨.rightParen, .text ")", 23⟩]

/-- The tokens of `} return a`. The brace closes none. -/
def unopenedBrace : List Token :=
  [⟨.rightCurly, .text "\x7d", 26⟩, ⟨.returnKeyword, .text "return", 28⟩,
    ⟨.identifier, .text "a", 35⟩]

/-- The broken statement keeps its diagnostic, and the one behind it comes out whole. -/
theorem parseProgram_append_broken :
    Balanced brokenFront ∧ (∀ token ∈ brokenFront, token.kind ≠ .endOfFile) ∧
      (Token.mk .semicolon (.text ";") 24).kind = .semicolon ∧
      (parseProgram (brokenFront ++ ⟨.semicolon, .text ";", 24⟩ :: unopenedBrace) =
          joined (parseProgram (brokenFront ++ [⟨.semicolon, .text ";", 24⟩]))
            (parseProgram unopenedBrace) ∧
        ∀ mark final : Int,
          parseProgram (brokenFront ++ ⟨.semicolon, .text ";", 24⟩ :: unopenedBrace ++
              [.atEnd final]) =
            joined (parseProgram (brokenFront ++ [⟨.semicolon, .text ";", 24⟩, .atEnd mark]))
              (parseProgram (unopenedBrace ++ [.atEnd final]))) := by
  have lexemes : ∀ token ∈ brokenFront, token.kind ≠ .endOfFile := by decide
  have inside : Balanced [⟨.returnKeyword, .text "return", 10⟩, ⟨.leftParen, .text "(", 17⟩,
      ⟨.semicolon, .text ";", 19⟩] :=
    .token (by decide) (.token (by decide) (.token (by decide) .none))
  have braces : Balanced (brokenFront.drop 2) :=
    @Balanced.braces ⟨.leftCurly, .text "\x7b", 8⟩ ⟨.rightCurly, .text "\x7d", 21⟩ _ _
      rfl inside rfl (.token (by decide) .none)
  have balanced : Balanced brokenFront := .token (by decide) (.token (by decide) braces)
  exact ⟨balanced, lexemes, rfl, parseProgram_append balanced lexemes rfl unopenedBrace⟩

example : let tokens := brokenFront ++ ⟨.semicolon, .text ";", 24⟩ :: unopenedBrace
    ((parseProgram tokens).1.body.length, (parseProgram tokens).2.length) = (1, 2) := by
  rfl

end ArrowScript
