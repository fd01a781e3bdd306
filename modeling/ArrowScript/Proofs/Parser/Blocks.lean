import ArrowScript.Proofs.Parser.Recovery

/-!
# A closed block is parsed up to its own brace

Which brace closes a block is a matter of counting: every opening brace behind the first
one asks for one more closing brace, and the block ends where none is missing. The parser
never counts braces in a block, except while it skips to the next statement after an
error. It comes to the same brace nevertheless, whatever is inside.

The count is done here on the tokens alone. Where it comes to an end, the tokens up to
there have balanced braces, which is all that the parsers need.
-/

namespace ArrowScript

/-- The tokens before a stop end with it. -/
theorem Before.getLast?_eq {stop : Token} {front : List Token} (before : Before stop front) :
    front.getLast? = some stop := by
  induction before with
  | stop => rfl
  | lexeme kind following inductionHypothesis =>
    rw [List.getLast?_cons, inductionHypothesis, Option.getD_some]
  | braces opens inside closes following _ inductionHypothesis =>
    rw [List.getLast?_append, inductionHypothesis, Option.some_or]

namespace Parser

/-- The number of tokens up to where all opened braces are closed, if they are closed
before the end of the stream. -/
def closedAfter : (opened : Nat) → List Token → Option Nat
  | 0, _ => some 0
  | _ + 1, [] => none
  | opened + 1, token :: rest =>
    match token.kind with
    | .endOfFile => none
    | .leftCurly => (closedAfter (opened + 2) rest).map (· + 1)
    | .rightCurly => (closedAfter opened rest).map (· + 1)
    | _ => (closedAfter (opened + 1) rest).map (· + 1)

/-- The tokens behind an opening brace up to the brace that closes it, and the count of
the tokens behind them, in which one brace less is open. -/
structure Closes (opened : Nat) (tokens : List Token) (size : Nat) (closing : Token)
    (inner rest : List Token) (further : Nat) : Prop where
  split : tokens = inner ++ rest
  before : Before closing inner
  closes : closing.kind = .rightCurly
  counted : closedAfter opened rest = some further
  size_eq : size = inner.length + further

variable {opened size : Nat} {tokens : List Token}

/-- A lexeme that is no brace is counted among the tokens before the next brace. -/
theorem Closes.lexeme {token closing : Token} {inner rest : List Token} {further : Nat}
    (kind : token.kind ∉ [.leftCurly, .rightCurly, .endOfFile])
    (closes : Closes opened tokens size closing inner rest further) :
    Closes opened (token :: tokens) (size + 1) closing (token :: inner) rest further where
  split := by rw [closes.split, List.cons_append]
  before := .lexeme kind closes.before
  closes := closes.closes
  counted := closes.counted
  size_eq := by rw [closes.size_eq, List.length_cons, Nat.add_right_comm]

/-- Braces that are opened and closed are counted among the tokens before the next brace that
closes. -/
theorem Closes.braces {opening closing last : Token} {inner others behind rest : List Token}
    {few further : Nat} (opens : opening.kind = .leftCurly)
    (inside : Closes (opened + 1) tokens size closing inner behind few)
    (outside : Closes opened behind few last others rest further) :
    Closes opened (opening :: tokens) (size + 1) last (opening :: inner ++ others) rest
      further where
  split := by
    rw [inside.split, outside.split, List.cons_append, List.cons_append, List.append_assoc]
  before := .braces opens inside.before inside.closes outside.before
  closes := outside.closes
  counted := outside.counted
  size_eq := by
    rw [inside.size_eq, outside.size_eq, List.cons_append, List.length_cons, List.length_append]
    omega

/-- Where counting comes to an end, the braces up to the next one that closes are
balanced. -/
theorem exists_closes (counted : closedAfter (opened + 1) tokens = some size) :
    ∃ closing inner rest further, Closes opened tokens size closing inner rest further := by
  -- the braces of an inner block are passed first, and the count goes on behind them, so the
  -- hypothesis is used for two shorter lists
  induction count : tokens.length using Nat.strongRecOn generalizing tokens opened size with
  | _ count inductionHypothesis =>
    subst count
    cases tokens with
    | nil => exact nomatch counted
    | cons token rest =>
      have shorter : rest.length < (token :: rest).length := Nat.lt_succ_self _
      unfold closedAfter at counted
      split at counted
      next mark => exact nomatch counted
      next opens =>
        obtain ⟨most, onward, rfl⟩ := Option.map_eq_some_iff.mp counted
        obtain ⟨closing, inner, behind, few, inside⟩ :=
          inductionHypothesis _ shorter onward rfl
        have fewer : behind.length < (token :: rest).length := by
          rw [inside.split, List.length_cons, List.length_append]
          omega
        obtain ⟨last, others, final, further, outside⟩ :=
          inductionHypothesis _ fewer inside.counted rfl
        exact ⟨last, token :: inner ++ others, final, further, inside.braces opens outside⟩
      next closes =>
        obtain ⟨further, onward, rfl⟩ := Option.map_eq_some_iff.mp counted
        exact ⟨token, [token], rest, further, rfl, .stop, closes, onward, Nat.add_comm _ _⟩
      next other brace lexeme =>
        obtain ⟨fewer, onward, rfl⟩ := Option.map_eq_some_iff.mp counted
        obtain ⟨closing, inner, behind, further, inside⟩ :=
          inductionHypothesis _ shorter onward rfl
        refine ⟨closing, token :: inner, behind, further, inside.lexeme ?_⟩
        simp only [List.mem_cons, List.not_mem_nil, or_false, not_or]
        exact ⟨brace, lexeme, other⟩

/-- Where the braces of one block have been counted, the last token is the one that closes
it. -/
theorem closedAfter_one (counted : closedAfter 1 tokens = some size) :
    ∃ closing inner rest, Closes 0 tokens size closing inner rest 0 ∧
      tokens = inner ++ rest ∧ size = inner.length := by
  obtain ⟨closing, inner, rest, further, closes⟩ := exists_closes counted
  obtain rfl : further = 0 := by simpa [closedAfter] using closes.counted.symm
  exact ⟨closing, inner, rest, closes, closes.split, closes.size_eq⟩

/-- What one parser does on a front tells what the other one does on it. -/
theorem Alike.transfer {α : Type} {one other : Parser α} {front : List Token}
    {Holds : Except Diagnostic α → List Token → Prop} (alike : Alike one other front Holds)
    {here there : Cursor} {tail others left : List Token} {added : List Diagnostic}
    {outcome : Except Diagnostic α} (ahead : here.rest = front ++ tail)
    (beyond : there.rest = front ++ others)
    (ran : one.runAt here = (outcome, here.moved (left ++ tail) added)) :
    other.runAt there = (outcome, there.moved (left ++ others) added) := by
  obtain ⟨same, within, more, -, also, otherRan⟩ := alike ahead beyond
  obtain ⟨rfl, moved⟩ := Prod.mk.inj (also.symm.trans ran)
  have rests : within ++ tail = left ++ tail := congrArg Cursor.rest moved
  have found : here.diagnostics ++ more = here.diagnostics ++ added :=
    congrArg Cursor.diagnostics moved
  rw [otherRan, List.append_cancel_right rests, List.append_cancel_left found]

/-- A rule runs with a bound that exceeds the number of tokens ahead. -/
theorem runAt_bounded {α : Type} (rule : Nat → Parser α) (cursor : Cursor) :
    (bounded rule).runAt cursor = (rule (cursor.rest.length + 1)).runAt cursor := rfl

/-- An expression of any depth is the same as one of a depth that has room for it. -/
theorem expression_keeps_within {limit depth : Nat} (enough : limit < depth) :
    Keeps limit expression (expressionWithin depth) := by
  intro stop front ends before short here there tail others ahead beyond
  have room : front.length < here.rest.length + 1 := by
    rw [ahead, List.length_append]
    omega
  have keeps : Keeps front.length (expressionWithin (here.rest.length + 1))
      (expressionWithin depth) := expressionWithin_keeps room (Nat.lt_of_le_of_lt short enough)
  rw [expression, runAt_bounded]
  exact keeps ends before (Nat.le_refl _) ahead beyond

/-- A block that is closed before the end of the stream is parsed without a failure, and the
cursor stands right behind the brace that closes it by counting. Its body and the diagnostics
added are the same at every depth of nesting that has room for it, and whatever other
tokens stand behind the brace. -/
theorem block_closed (cursor : Cursor) (opening : Token) (rest : List Token) (size : Nat)
    (ahead : cursor.rest = opening :: rest) (opens : opening.kind = .leftCurly)
    (closed : closedAfter 1 rest = some size) :
    ∃ closing body added,
      (rest.take size).getLast? = some closing ∧ closing.kind = .rightCurly ∧
      (block expression).runAt cursor = (.ok body, cursor.moved (rest.drop size) added) ∧
      (∀ whole, (cursor.moved (rest.drop size) added).position whole =
        cursor.position whole + (size + 1)) ∧
      (∀ depth, size < depth → (block (expressionWithin depth)).runAt cursor =
        (.ok body, cursor.moved (rest.drop size) added)) ∧
      ∀ (other : Cursor) (behind : List Token),
        other.rest = opening :: rest.take size ++ behind →
        (block expression).runAt other = (.ok body, other.moved behind added) := by
  obtain ⟨closing, inner, behind, closes, rfl, rfl⟩ := closedAfter_one closed
  rw [List.take_left, List.drop_left]
  have alike {nested companion : Parser Expression}
      (keeps : Keeps inner.length nested companion) :=
    block_alike keeps opens closes.before closes.closes (Nat.le_succ _) []
  have cut {cursor : Cursor} {others : List Token}
      (ahead : cursor.rest = opening :: inner ++ others) :
      cursor.rest = opening :: inner ++ [] ++ others := by
    rw [ahead, List.append_nil]
  obtain ⟨_, _, added, ⟨⟨body, rfl⟩, rfl⟩, ran, -⟩ :=
    alike (expression_keeps _) (cut ahead) (cut ahead)
  refine ⟨closing, body, added, closes.before.getLast?_eq, closes.closes, ran, fun whole => ?_,
    fun depth room => ?_, fun other others beyond => ?_⟩
  · simp only [Cursor.position, Cursor.moved, ahead, List.length_cons, List.length_append]
    omega
  · exact (alike (expression_keeps_within room)).transfer (cut ahead) (cut ahead) ran
  · exact (alike (expression_keeps _)).transfer (cut ahead) (cut beyond) ran

/-- The tokens of `{ const f = (a) => { return (; } return ] }` behind the first brace. An
error stands in the body of the inner function, and another one behind it. -/
def brokenBody : List Token :=
  [⟨.constKeyword, .text "const", 2⟩, ⟨.identifier, .text "f", 8⟩, ⟨.equal, .text "=", 10⟩,
    ⟨.leftParen, .text "(", 12⟩, ⟨.identifier, .text "a", 13⟩, ⟨.rightParen, .text ")", 14⟩,
    ⟨.arrow, .text "=>", 16⟩, ⟨.leftCurly, .text "\x7b", 19⟩, ⟨.returnKeyword, .text "return", 21⟩,
    ⟨.leftParen, .text "(", 28⟩, ⟨.semicolon, .text ";", 29⟩, ⟨.rightCurly, .text "\x7d", 31⟩,
    ⟨.returnKeyword, .text "return", 33⟩, ⟨.rightBracket, .text "]", 40⟩,
    ⟨.rightCurly, .text "\x7d", 42⟩]

/-- The cursor at the block of `brokenBody`, before a sum that goes on behind it. -/
def beforeBroken : Cursor :=
  .start (⟨.leftCurly, .text "\x7b", 0⟩ :: brokenBody ++ [⟨.plus, .text "+", 44⟩, .atEnd 45])

/-- The outer block goes on behind the inner one, and stops before the plus sign. -/
theorem block_closed_broken :
    closedAfter 1 (brokenBody ++ [⟨.plus, .text "+", 44⟩, .atEnd 45]) = some 15 ∧
      ∃ body added, (block expression).runAt beforeBroken =
        (.ok body, beforeBroken.moved [⟨.plus, .text "+", 44⟩, .atEnd 45] added) := by
  have counted : closedAfter 1 (brokenBody ++ [⟨.plus, .text "+", 44⟩, .atEnd 45]) = some 15 := by
    decide
  obtain ⟨_, body, added, -, -, ran, -⟩ :=
    block_closed beforeBroken ⟨.leftCurly, .text "\x7b", 0⟩ _ 15 rfl rfl counted
  exact ⟨counted, body, added, ran⟩

example : (((block expression).runAt beforeBroken).2.diagnostics.map (·.offset)) = [29, 40] := by
  decide +kernel

end Parser

end ArrowScript
