import ArrowScript.Proofs.Parser.Composition

/-!
# What a parser pays with tokens

The account of a parser is kept by a potential: the number of diagnostics so far and of the
tokens that are still ahead. A run may only lower it, and a run with a result lowers it by
what the result weighs. `Pays` says so of a parser, with one rule for each way of putting
parsers together. A parser that goes on with a tree read before is given a credit for it.

The same steps keep offsets in order: the diagnostics so far stand before the tokens ahead,
and a token with a diagnostic is passed before there is another one. Only the mark of the
end is never passed, so it may be reported several times.

An error is not paid for where it occurs. What is told of it is that it stands at the token
ahead, so that whoever records it can pay with that token.
-/

namespace ArrowScript

/-- Offsets do not fall, and only that of the mark may come more than once. -/
def Ascending (mark : Int) (offsets : List Int) : Prop :=
  offsets.Pairwise fun first second => first ≤ second ∧ (first = second → second = mark)

/-- Before the mark at the end of ascending offsets it may stand once more. -/
theorem Ascending.again {mark : Int} {offsets : List Int}
    (ascending : Ascending mark (offsets ++ [mark])) :
    Ascending mark (offsets ++ [mark] ++ [mark]) := by
  have last := (List.pairwise_append.mp ascending).2.2
  apply List.pairwise_append.mpr
  refine ⟨ascending, List.pairwise_singleton _ _, ?_⟩
  intro offset among final same
  obtain rfl := List.mem_singleton.mp same
  rcases List.mem_append.mp among with before | here
  · exact last offset before final List.mem_cons_self
  · obtain rfl := List.mem_singleton.mp here
    exact ⟨Int.le_refl offset, fun _ => rfl⟩

/-- The tokens before the first mark of the end. -/
def lexemes (tokens : List Token) : List Token := tokens.takeWhile (·.kind ≠ .endOfFile)

section Lexemes

variable {token : Token} {skipped rest : List Token}

/-- Lexemes in front are among those before the mark. -/
theorem lexemes_append (kinds : ∀ token ∈ skipped, token.kind ≠ .endOfFile) :
    lexemes (skipped ++ rest) = skipped ++ lexemes rest :=
  List.takeWhile_append_of_pos (by simpa using kinds)

/-- A lexeme in front is the first of those before the mark. -/
theorem lexemes_cons (kind : token.kind ≠ .endOfFile) :
    lexemes (token :: rest) = token :: lexemes rest :=
  List.takeWhile_cons_of_pos (by simpa using kind)

/-- Before a mark in front there are no lexemes. -/
theorem lexemes_mark (kind : token.kind = .endOfFile) : lexemes (token :: rest) = [] :=
  List.takeWhile_cons_of_neg (by simpa using kind)

end Lexemes

namespace Cursor

variable {cursor : Cursor} {mark token : Token} {tail : List Token}

/-- The first mark of the end ahead is the given one. -/
def Faces (mark : Token) (cursor : Cursor) : Prop :=
  cursor.rest.find? (·.kind = .endOfFile) = some mark

/-- The number of diagnostics so far and of the tokens ahead. -/
def potential (cursor : Cursor) : Nat := cursor.diagnostics.length + (lexemes cursor.rest).length

/-- The offsets of the diagnostics so far and of the tokens ahead, with that of the mark. -/
def trail (mark : Token) (cursor : Cursor) : List Int :=
  cursor.diagnostics.map (·.offset) ++ (lexemes cursor.rest).map (·.offset) ++ [mark.offset]

/-- Where a mark is ahead, the stream is sealed. -/
theorem Faces.sealed (faces : cursor.Faces mark) : Sealed cursor.rest :=
  ⟨mark, List.mem_of_find?_eq_some faces, by simpa using List.find?_some faces⟩

/-- A mark that comes next is the one ahead. -/
theorem Faces.eq (faces : cursor.Faces mark) (ahead : cursor.rest = token :: tail)
    (kind : token.kind = .endOfFile) : token = mark := by
  rw [Faces, ahead, List.find?_cons_of_pos (by simpa using kind)] at faces
  exact Option.some.inj faces

/-- The mark ahead is not passed. -/
theorem Faces.passed (faces : cursor.Faces mark) {after : Cursor}
    (passed : Passed cursor.rest after.rest) : after.Faces mark := by
  obtain ⟨skipped, cut, kinds⟩ := passed
  have none : skipped.find? (·.kind = .endOfFile) = none := by
    simpa using kinds
  rw [Faces, cut, List.find?_append, none, Option.none_or] at faces
  exact faces

end Cursor

/-! ## What a run has spent -/

/-- The tokens that a run has passed pay for the diagnostics it has added and for its result.
The result weighs so much, and some of it may have been paid for before. -/
structure Spent (mark : Token) (credit weight : Nat) (before after : Cursor) : Prop where
  passed : Passed before.rest after.rest
  placed : after.displacement = before.displacement
  paid : weight + after.potential ≤ before.potential + credit
  ascending : Ascending mark.offset (before.trail mark) → Ascending mark.offset (after.trail mark)

namespace Spent

variable {mark token : Token} {tail rest : List Token} {credit more weight less : Nat}
  {before middle after cursor : Cursor} {diagnostic : Diagnostic}

/-- Where nothing happens nothing is spent. -/
theorem refl (enough : weight ≤ credit) (cursor : Cursor) :
    Spent mark credit weight cursor cursor where
  passed := .refl cursor.rest
  placed := rfl
  paid := by omega
  ascending := id

/-- What weighs less is paid as well, and with more that has been paid before. -/
theorem mono (spent : Spent mark credit weight before after) (lighter : less ≤ weight)
    (greater : credit ≤ more) : Spent mark more less before after where
  passed := spent.passed
  placed := spent.placed
  paid := by
    have paid := spent.paid
    omega
  ascending := spent.ascending

/-- What the first run has paid for is a credit of the second. -/
theorem trans (first : Spent mark 0 weight before middle)
    (second : Spent mark (credit + weight) more middle after) :
    Spent mark credit more before after where
  passed := first.passed.trans second.passed
  placed := second.placed.trans first.placed
  paid := by
    have paid := first.paid
    have further := second.paid
    omega
  ascending := second.ascending ∘ first.ascending

/-- What has been paid for before a run is still paid for after it. -/
theorem frame (spent : Spent mark credit weight before after) (extra : Nat) :
    Spent mark (credit + extra) (extra + weight) before after where
  passed := spent.passed
  placed := spent.placed
  paid := by
    have paid := spent.paid
    omega
  ascending := spent.ascending

/-- Tokens that are only passed. -/
theorem pass (passed : Passed cursor.rest rest) :
    Spent mark 0 0 cursor { cursor with rest } := by
  obtain ⟨skipped, cut, kinds⟩ := passed
  have whole : lexemes cursor.rest = skipped ++ lexemes rest := by
    rw [cut, lexemes_append kinds]
  constructor
  · exact ⟨skipped, cut, kinds⟩
  · rfl
  · simp only [Cursor.potential, whole, List.length_append]
    omega
  · have sublist : ({ cursor with rest }.trail mark).Sublist (cursor.trail mark) := by
      simp only [Cursor.trail, whole, List.map_append, List.append_assoc]
      exact (List.sublist_append_right _ _).append_left _
    exact List.Pairwise.sublist sublist

/-- A token that is passed pays for one thing. -/
theorem take (ahead : cursor.rest = token :: tail) (kind : token.kind ≠ .endOfFile) :
    Spent mark 0 1 cursor { cursor with rest := tail } := by
  have passed : Passed cursor.rest tail := ahead ▸ .cons kind (.refl tail)
  constructor
  · exact passed
  · rfl
  · simp only [Cursor.potential, ahead, lexemes_cons kind, List.length_cons]
    omega
  · exact (pass passed).ascending

/-- A token that is passed pays for a diagnostic at its offset. -/
theorem report (ahead : cursor.rest = token :: tail) (kind : token.kind ≠ .endOfFile)
    (here : diagnostic.offset = token.offset) :
    Spent mark 0 0 cursor
      { cursor with rest := tail, diagnostics := cursor.diagnostics ++ [diagnostic] } := by
  constructor
  · exact ahead ▸ .cons kind (.refl tail)
  · rfl
  · simp only [Cursor.potential, ahead, lexemes_cons kind, List.length_append, List.length_cons,
      List.length_nil]
    omega
  · intro ascending
    simpa [Cursor.trail, ahead, lexemes_cons kind, here] using ascending

/-- A diagnostic at the mark of the end has to be paid for in another way. -/
theorem report_mark (faces : cursor.Faces mark) (ahead : cursor.rest = token :: tail)
    (kind : token.kind = .endOfFile) (here : diagnostic.offset = token.offset) :
    Spent mark 1 0 cursor
      { cursor with diagnostics := cursor.diagnostics ++ [diagnostic] } := by
  obtain rfl := faces.eq ahead kind
  constructor
  · exact .refl cursor.rest
  · rfl
  · simp only [Cursor.potential, List.length_append, List.length_singleton]
    omega
  · intro ascending
    have again : Ascending token.offset (cursor.trail token ++ [token.offset]) := ascending.again
    simpa [Cursor.trail, ahead, lexemes_mark kind, here] using again

end Spent

namespace Parser

variable {α β : Type} {mark token : Token} {credit more : Nat} {cursor : Cursor}

/-- What may come of a run: a result that has been paid for, or an error at the token ahead. -/
def Outlay (mark : Token) (credit : Nat) (weight : α → Nat) (before : Cursor) :
    Except Diagnostic α × Cursor → Prop
  | (.ok result, after) => Spent mark credit (weight result) before after
  | (.error diagnostic, after) => Spent mark 0 0 before after ∧
      ∃ token tail, after.rest = token :: tail ∧ diagnostic.offset = token.offset

/-- The results of the parser are paid for. -/
def Pays (mark : Token) (credit : Nat) (parser : Parser α) (weight : α → Nat) : Prop :=
  ∀ before, before.Faces mark → Outlay mark credit weight before (parser.runAt before)

/-- The results of the parser are paid for where the token comes next. -/
def PaysAt (mark token : Token) (credit : Nat) (parser : Parser α) (weight : α → Nat) : Prop :=
  ∀ before tail, before.Faces mark → before.rest = token :: tail →
    Outlay mark credit weight before (parser.runAt before)

variable {parser other : Parser α} {next : α → Parser β} {weight lighter : α → Nat}
  {worth : β → Nat}

/-- A run behind one that has spent something. -/
theorem Outlay.behind {before middle : Cursor} {paid : Nat} {run : Except Diagnostic α × Cursor}
    (first : Spent mark 0 paid before middle)
    (outlay : Outlay mark (credit + paid) weight middle run) :
    Outlay mark credit weight before run := by
  rcases run with ⟨diagnostic | result, after⟩
  · obtain ⟨spent, here⟩ := outlay
    have enough : 0 ≤ 0 + paid := Nat.zero_le _
    exact ⟨first.trans (spent.mono (Nat.le_refl 0) enough), here⟩
  · exact first.trans outlay

/-- After a run whose result has been paid for, the next parser takes over. -/
theorem Outlay.bind (faces : cursor.Faces mark)
    (first : Outlay mark 0 weight cursor (parser.runAt cursor))
    (second : ∀ result, Pays mark (credit + weight result) (next result) worth) :
    Outlay mark credit worth cursor ((parser >>= next).runAt cursor) := by
  rcases ran : parser.runAt cursor with ⟨diagnostic | result, middle⟩
  · rw [ran] at first
    rw [runAt_bind_error ran]
    exact first
  · rw [ran] at first
    have spent : Spent mark 0 (weight result) cursor middle := first
    rw [runAt_bind_ok ran]
    exact (second result middle (faces.passed spent.passed)).behind spent

namespace Pays

/-- A lighter result is paid as well. -/
theorem mono (pays : Pays mark credit parser weight)
    (less : ∀ result, lighter result ≤ weight result)
    (greater : credit ≤ more) : Pays mark more parser lighter := by
  intro before faces
  have outlay := pays before faces
  rcases ran : parser.runAt before with ⟨diagnostic | result, after⟩
  · rw [ran] at outlay
    exact outlay
  · rw [ran] at outlay
    exact Spent.mono outlay (less result) greater

/-- A result that has been paid for before. -/
theorem pure {result : α} (enough : weight result ≤ credit) :
    Pays mark credit (pure result) weight :=
  fun before _ => .refl enough before

/-- A sequence. -/
theorem bind (first : Pays mark 0 parser weight)
    (second : ∀ result, Pays mark (credit + weight result) (next result) worth) :
    Pays mark credit (parser >>= next) worth :=
  fun before faces => (first before faces).bind faces second

/-- A sequence whose first part is for nothing. -/
theorem free {next : α → Parser β} (first : Pays mark 0 parser fun _ => 0)
    (second : ∀ result, Pays mark credit (next result) worth) :
    Pays mark credit (parser >>= next) worth :=
  bind first second

/-- A choice. -/
theorem ite {condition : Prop} [Decidable condition] (positive : Pays mark credit parser weight)
    (negative : Pays mark credit other weight) :
    Pays mark credit (if condition then parser else other) weight := by
  split
  · exact positive
  · exact negative

/-- A result that is put into another form. -/
theorem map {form : α → β} (pays : Pays mark credit parser fun result => worth (form result)) :
    Pays mark credit (form <$> parser) worth := by
  intro before faces
  have outlay := pays before faces
  change Outlay mark credit worth before
    ((parser >>= fun result => Pure.pure (form result)).runAt before)
  rcases ran : parser.runAt before with ⟨diagnostic | result, after⟩
  · rw [ran] at outlay
    rw [runAt_bind_error ran]
    exact outlay
  · rw [ran] at outlay
    rw [runAt_bind_ok ran]
    exact outlay

/-- A rule with a bound. -/
theorem bounded {rule : Nat → Parser α} (pays : ∀ steps, Pays mark credit (rule steps) weight) :
    Pays mark credit (bounded rule) weight :=
  fun before faces => pays _ before faces

/-- A look at a token. -/
theorem peek (distance : Nat) : Pays mark 0 (peek distance) fun _ => 0 :=
  fun before _ => .refl (Nat.le_refl 0) before

/-- A look at the kind of the next token. -/
theorem check (kinds : List TokenKind) : Pays mark 0 (check kinds) fun _ => 0 :=
  fun before _ => .refl (Nat.le_refl 0) before

/-- A step over the next token. -/
theorem advance : Pays mark 0 advance fun _ => 0 := by
  intro before faces
  obtain ⟨token, tail, ahead⟩ := faces.sealed.exists_cons
  by_cases kind : token.kind = .endOfFile
  · rw [runAt_advance_mark ahead kind]
    exact .refl (Nat.le_refl 0) before
  · rw [runAt_advance ahead kind]
    exact Spent.mono (.take ahead kind) (Nat.zero_le 1) (Nat.le_refl 0)

/-- A token that may come next. -/
theorem matched (kinds : List TokenKind) : Pays mark 0 (match? kinds) fun _ => 0 := by
  apply free (check kinds)
  intro found
  apply ite
  · apply free advance
    intro token
    exact pure (Nat.le_refl 0)
  · exact pure (Nat.le_refl 0)

/-- A token that is passed if it comes next. -/
theorem accept (kind : TokenKind) : Pays mark 0 (accept kind) fun _ => 0 := by
  apply free (matched [kind])
  intro found
  exact pure (Nat.le_refl 0)

/-- A failure at the next token. -/
theorem unexpected (words : String) : Pays mark credit (unexpected words : Parser α) weight := by
  intro before faces
  obtain ⟨token, tail, ahead⟩ := faces.sealed.exists_cons
  exact ⟨.refl (Nat.le_refl 0) before, token, tail, ahead, by rw [ahead_cons ahead]⟩

/-- A token that is required. -/
theorem expect (kind : TokenKind) (words : String) :
    Pays mark 0 (expect kind words) fun _ => 0 := by
  apply free (check [kind])
  intro found
  exact ite advance (unexpected words)

/-- A look at the next token before a parser. -/
theorem look {next : Token → Parser β}
    (pays : ∀ token, PaysAt mark token credit (next token) worth) :
    Pays mark credit (Parser.peek >>= next) worth := by
  intro before faces
  obtain ⟨token, tail, ahead⟩ := faces.sealed.exists_cons
  rw [runAt_bind_ok (runAt_peek ahead)]
  exact pays token before tail faces ahead

end Pays

namespace PaysAt

/-- What is paid anywhere is paid before a token. -/
theorem of_pays (pays : Pays mark credit parser weight) : PaysAt mark token credit parser weight :=
  fun before _ faces _ => pays before faces

/-- A choice. -/
theorem ite {condition : Prop} [Decidable condition]
    (positive : PaysAt mark token credit parser weight)
    (negative : PaysAt mark token credit other weight) :
    PaysAt mark token credit (if condition then parser else other) weight := by
  split
  · exact positive
  · exact negative

/-- A failure at the token. -/
theorem throw (problem : Problem) :
    PaysAt mark token credit (throw ⟨problem, token.offset⟩ : Parser α) weight :=
  fun before tail _ ahead => ⟨.refl (Nat.le_refl 0) before, token, tail, ahead, rfl⟩

/-- A failure at the token, before a parser. -/
theorem refused (problem : Problem) (next : α → Parser β) :
    PaysAt mark token credit (MonadExcept.throw ⟨problem, token.offset⟩ >>= next) worth :=
  fun before tail _ ahead => ⟨.refl (Nat.le_refl 0) before, token, tail, ahead, rfl⟩

end PaysAt

/-! ## Lists -/

section Lists

variable {item : Parser α}

/-- What several results weigh together. -/
def together (weight : α → Nat) : List α → Nat
  | [] => 0
  | result :: rest => weight result + together weight rest

/-- Items after commas. -/
theorem moreItems_pays (pays : Pays mark 0 item weight) (steps : Nat) :
    Pays mark 0 (moreItems item steps) (together weight) := by
  induction steps with
  | zero => exact .pure (Nat.le_refl 0)
  | succ steps inductionHypothesis =>
    apply Pays.free (.accept .comma)
    intro comma
    apply Pays.ite
    · apply Pays.bind pays
      intro first
      apply Pays.bind inductionHypothesis
      intro others
      apply Pays.pure
      simp [together]
    · exact .pure (Nat.le_refl 0)

/-- Items up to a closing token. -/
theorem itemsUntil_pays (pays : Pays mark 0 item weight) (closing : TokenKind) :
    Pays mark 0 (itemsUntil item closing) (together weight) := by
  have several : Pays mark 0 (items item) (together weight) := by
    apply Pays.bind pays
    intro first
    apply Pays.bind (.bounded (moreItems_pays pays))
    intro others
    apply Pays.pure
    simp [together]
  have absent : Pays mark 0 (pure []) (together weight) := .pure (Nat.le_refl 0)
  have closed (trees : List α) : Pays mark (0 + together weight trees)
      (expect closing >>= fun _ => pure trees) (together weight) := by
    apply Pays.free (.expect closing _)
    intro token
    apply Pays.pure
    omega
  apply Pays.free (.check [closing])
  intro ends
  apply Pays.ite
  · exact .bind absent closed
  · exact .bind several closed

end Lists

/-! ## Types -/

section Types

variable {rejectAny : Bool} {nested : Parser Ascription}

/-- What may follow a colon. -/
theorem annotated_pays {next : Option Ascription → Parser α} (pays : Pays mark 0 nested fun _ => 0)
    (second : ∀ found, Pays mark credit (next found) weight) :
    Pays mark credit (accept .colon >>= fun found =>
      if found = true then some <$> nested >>= next else pure none >>= next) weight := by
  apply Pays.free (.accept .colon)
  intro colon
  apply Pays.ite
  · exact .free (.map pays) second
  · exact .free (.pure (Nat.le_refl 0)) second

/-- Parameters between parentheses. -/
theorem parameters_pays (pays : Pays mark 0 nested fun _ => 0) :
    Pays mark 0 (parameters nested) fun _ => 0 := by
  have one : Pays mark 0 (parameter nested) fun _ => 0 := by
    apply Pays.free (.expect .identifier _)
    intro name
    apply annotated_pays pays
    intro found
    exact .pure (Nat.le_refl 0)
  apply Pays.free (.expect .leftParen _)
  intro opening
  exact (itemsUntil_pays one .rightParen).mono (fun _ => Nat.zero_le _) (Nat.le_refl 0)

/-- Empty brackets after a type. -/
theorem arraySuffixes_pays (steps : Nat) (element : Ascription) :
    Pays mark 0 (arraySuffixes steps element) fun _ => 0 := by
  induction steps generalizing element with
  | zero => exact .pure (Nat.le_refl 0)
  | succ steps inductionHypothesis =>
    apply Pays.free (.check [.leftBracket])
    intro opens
    apply Pays.free (.peek 1)
    intro second
    apply Pays.ite
    · apply Pays.free .advance
      intro opening
      apply Pays.free .advance
      intro closing
      exact inductionHypothesis _
    · exact .pure (Nat.le_refl 0)

/-- A type before the brackets after it. -/
theorem simpleAscription_pays (pays : Pays mark 0 nested fun _ => 0) :
    Pays mark 0 (simpleAscription rejectAny nested) fun _ => 0 := by
  apply Pays.look
  intro token
  have named : Pays mark 0 (advance >>= fun _ => pure (Ascription.named token.offset token.text))
      fun _ => 0 := .free .advance fun _ => .pure (Nat.le_refl 0)
  apply PaysAt.ite
  · exact .of_pays named
  apply PaysAt.ite
  · split
    next => exact .refused _ _
    next => exact .of_pays named
  apply PaysAt.of_pays
  apply Pays.ite
  · apply Pays.free .advance
    intro keyword
    apply Pays.free (.expect .lessThan _)
    intro opening
    apply Pays.free pays
    intro element
    apply Pays.free (.expect .greaterThan _)
    intro closing
    exact .pure (Nat.le_refl 0)
  apply Pays.ite
  · apply Pays.free (parameters_pays pays)
    intro params
    apply Pays.free (.expect .arrow _)
    intro arrow
    apply Pays.free pays
    intro result
    exact .pure (Nat.le_refl 0)
  exact .unexpected _

/-- Types of any depth. -/
theorem ascription_pays (rejectAny : Bool) : Pays mark 0 (ascription rejectAny) fun _ => 0 := by
  apply Pays.bounded
  intro depth
  induction depth with
  | zero => exact .unexpected _
  | succ depth inductionHypothesis =>
    apply Pays.free (simpleAscription_pays inductionHypothesis)
    intro simple
    exact .bounded fun steps => arraySuffixes_pays steps simple

/-- The part of an arrow function before its arrow. -/
theorem arrowHead_pays (rejectAny : Bool) : Pays mark 0 (arrowHead rejectAny) fun _ => 0 := by
  apply Pays.free (parameters_pays (ascription_pays rejectAny))
  intro params
  apply annotated_pays (ascription_pays rejectAny)
  intro result
  exact .pure (Nat.le_refl 0)

/-- The look ahead for an arrow function, which spends nothing. -/
theorem arrowAhead_pays : Pays mark 0 arrowAhead fun _ => 0 := by
  intro before faces
  rw [runAt_arrowAhead]
  exact .refl (Nat.le_refl 0) before

end Types

end Parser

end ArrowScript
