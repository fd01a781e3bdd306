import ArrowScript.Parser
import ArrowScript.Proofs.Parser.Grammar

/-!
# What a parser has read

A parser only moves forward over tokens and only adds diagnostics, so a run that ends
without a diagnostic had none on the way. `Reads` says this of a parser together with
what holds of the tokens it has passed when it returns a result without a diagnostic:
a relation between these tokens, those that are left and the result.

There is one rule for each way of putting parsers together. The rule for a sequence
hands what the first parser has read to the second one, so a proof follows the text of
the parser and ends with the derivation from all of its parts.
-/

namespace ArrowScript

/-- A stream: lexemes with a mark of the end after them. -/
inductive Marked : List Token → Prop where
  | mark {token : Token} (kind : token.kind = .endOfFile) : Marked [token]
  | lexeme {token : Token} {rest : List Token} (lexed : token.Lexed) (marked : Marked rest) :
      Marked (token :: rest)

/-- The end of a source is no lexeme. -/
theorem Token.Lexed.kind_ne {token : Token} (lexed : token.Lexed) :
    token.kind ≠ .endOfFile := by
  intro kind
  simp only [Token.Lexed, kind] at lexed

namespace Marked

/-- There is always a token ahead. -/
theorem exists_cons {tokens : List Token} (marked : Marked tokens) :
    ∃ token rest, tokens = token :: rest := by
  cases marked with
  | mark kind => exact ⟨_, [], rfl⟩
  | lexeme lexed marked => exact ⟨_, _, rfl⟩

/-- A stream remains one when a lexeme is taken from its front. -/
theorem tail {token : Token} {rest : List Token} (marked : Marked (token :: rest))
    (kind : token.kind ≠ .endOfFile) : Marked rest := by
  cases marked with
  | mark other => exact absurd other kind
  | lexeme lexed marked => exact marked

/-- A stream remains one when lexemes are taken from its front. -/
theorem drop {skipped rest : List Token} (marked : Marked (skipped ++ rest))
    (lexemes : ∀ token ∈ skipped, token.kind ≠ .endOfFile) : Marked rest := by
  induction skipped with
  | nil => exact marked
  | cons token skipped inductionHypothesis =>
      have shorter := tail marked (lexemes token List.mem_cons_self)
      exact inductionHypothesis shorter fun other among =>
        lexemes other (List.mem_cons_of_mem _ among)

/-- Lexemes with a mark after them are a stream. -/
theorem append {tokens : List Token} (lexed : ∀ token ∈ tokens, token.Lexed) (offset : Int) :
    Marked (tokens ++ [.atEnd offset]) := by
  induction tokens with
  | nil => exact .mark rfl
  | cons token tokens inductionHypothesis =>
      exact .lexeme (lexed token List.mem_cons_self) (inductionHypothesis fun other among =>
        lexed other (List.mem_cons_of_mem _ among))

/-- What precedes the mark are lexemes. -/
theorem lexed_head {token : Token} {rest : List Token} (marked : Marked (token :: rest))
    (kind : token.kind ≠ .endOfFile) : token.Lexed := by
  cases marked with
  | mark other => exact absurd other kind
  | lexeme lexed marked => exact lexed

end Marked

/-- The tokens that are left after lexemes at the front have been passed. -/
def Passed (tokens rest : List Token) : Prop :=
  ∃ skipped, tokens = skipped ++ rest ∧ ∀ token ∈ skipped, token.kind ≠ .endOfFile

namespace Passed

/-- Nothing need be passed. -/
theorem refl (tokens : List Token) : Passed tokens tokens :=
  ⟨[], rfl, List.forall_mem_nil _⟩

/-- One more lexeme may be passed at the front. -/
theorem cons {token : Token} {tokens rest : List Token} (kind : token.kind ≠ .endOfFile)
    (passed : Passed tokens rest) : Passed (token :: tokens) rest := by
  obtain ⟨skipped, rfl, lexemes⟩ := passed
  exact ⟨token :: skipped, rfl, List.forall_mem_cons.mpr ⟨kind, lexemes⟩⟩

/-- What is left can be passed further. -/
theorem trans {tokens middle rest : List Token} (first : Passed tokens middle)
    (second : Passed middle rest) : Passed tokens rest := by
  obtain ⟨skipped, rfl, lexemes⟩ := first
  induction skipped with
  | nil => exact second
  | cons token skipped inductionHypothesis =>
      obtain ⟨kind, others⟩ := List.forall_mem_cons.mp lexemes
      exact .cons kind (inductionHypothesis others)

end Passed

/-- A later cursor: it has passed lexemes, and diagnostics may have been added. -/
structure Cursor.Onward (before after : Cursor) : Prop where
  passed : Passed before.rest after.rest
  added : ∃ more, after.diagnostics = before.diagnostics ++ more

namespace Cursor.Onward

/-- Every cursor is later than itself. -/
theorem refl (cursor : Cursor) : cursor.Onward cursor :=
  ⟨.refl cursor.rest, [], (List.append_nil _).symm⟩

/-- Moving on twice is moving on. -/
theorem trans {before middle after : Cursor} (first : before.Onward middle)
    (second : middle.Onward after) : before.Onward after := by
  obtain ⟨some, addedSome⟩ := first.added
  obtain ⟨others, addedOthers⟩ := second.added
  refine ⟨first.passed.trans second.passed, some ++ others, ?_⟩
  rw [addedOthers, addedSome, List.append_assoc]

/-- A stream remains one. -/
theorem marked {before after : Cursor} (onward : before.Onward after)
    (marked : Marked before.rest) : Marked after.rest := by
  obtain ⟨⟨skipped, cut, lexemes⟩, -⟩ := onward
  rw [cut] at marked
  exact marked.drop lexemes

/-- Without diagnostics afterwards there were none before. -/
theorem quiet {before after : Cursor} (onward : before.Onward after)
    (quiet : after.diagnostics = []) : before.diagnostics = [] := by
  obtain ⟨-, more, added⟩ := onward
  rw [quiet] at added
  exact (List.append_eq_nil_iff.mp added.symm).1

end Cursor.Onward

namespace Parser

variable {α β : Type}

/-- After a result the second parser of a sequence takes over. -/
theorem runAt_bind_ok {parser : Parser α} {cursor after : Cursor} {result : α}
    (ran : parser.runAt cursor = (.ok result, after)) (next : α → Parser β) :
    (parser >>= next).runAt cursor = (next result).runAt after := by
  change (match parser.runAt cursor with
    | (result, after) => (ExceptT.bindCont next result) after) = _
  rw [ran]
  rfl

/-- After a failure the second parser of a sequence does not run. -/
theorem runAt_bind_error {parser : Parser α} {cursor after : Cursor} {diagnostic : Diagnostic}
    (ran : parser.runAt cursor = (.error diagnostic, after)) (next : α → Parser β) :
    (parser >>= next).runAt cursor = (.error diagnostic, after) := by
  change (match parser.runAt cursor with
    | (result, after) => (ExceptT.bindCont next result) after) = _
  rw [ran]
  rfl

/-- The token ahead. -/
theorem ahead_cons {cursor : Cursor} {token : Token} {rest : List Token}
    (ahead : cursor.rest = token :: rest) : cursor.ahead 0 = token := by
  simp only [Cursor.ahead, ahead, List.getElem?_cons_zero, Option.getD_some]

/-- The run of a step over a lexeme. -/
theorem runAt_advance {cursor : Cursor} {token : Token} {rest : List Token}
    (ahead : cursor.rest = token :: rest) (kind : token.kind ≠ .endOfFile) :
    advance.runAt cursor = (.ok token, { cursor with rest }) := by
  have looked : (peek 0).runAt cursor = (.ok token, cursor) := by
    rw [← ahead_cons ahead]
    rfl
  unfold advance
  rw [runAt_bind_ok looked, if_pos kind]
  change (Except.ok token, { cursor with rest := cursor.rest.tail }) = _
  rw [ahead, List.tail_cons]

/-- The end of the stream is not passed. -/
theorem runAt_advance_mark {cursor : Cursor} {token : Token} {rest : List Token}
    (ahead : cursor.rest = token :: rest) (kind : token.kind = .endOfFile) :
    advance.runAt cursor = (.ok token, cursor) := by
  have looked : (peek 0).runAt cursor = (.ok token, cursor) := by
    rw [← ahead_cons ahead]
    rfl
  unfold advance
  rw [runAt_bind_ok looked, if_neg (fun other => other kind)]
  rfl

/-- What a parser does: it moves onward, and when it returns a result without a
diagnostic, the relation holds of the tokens it has passed, those left and the result. -/
structure Reads (parser : Parser α) (Holds : List Token → List Token → α → Prop) : Prop where
  onward : ∀ before, Cursor.Onward before (parser.runAt before).2
  holds : ∀ {before after : Cursor} {result : α}, Marked before.rest →
    parser.runAt before = (.ok result, after) → after.diagnostics = [] →
    ∃ tokens, before.rest = tokens ++ after.rest ∧ Holds tokens after.rest result

variable {parser other : Parser α} {next : α → Parser β}
  {Holds First : List Token → List Token → α → Prop}
  {Last : List Token → List Token → β → Prop}

namespace Reads

/-- A weaker relation holds as well. -/
theorem mono (reads : Reads parser First)
    (weaker : ∀ tokens rest result, First tokens rest result → Holds tokens rest result) :
    Reads parser Holds := by
  refine ⟨reads.onward, ?_⟩
  intro before after result marked ran quiet
  obtain ⟨tokens, cut, holds⟩ := reads.holds marked ran quiet
  exact ⟨tokens, cut, weaker tokens after.rest result holds⟩

/-- A result without reading. -/
theorem pure {result : α} (holds : ∀ rest, Holds [] rest result) :
    Reads (pure result) Holds := by
  refine ⟨fun before => .refl before, ?_⟩
  intro before after output marked ran quiet
  obtain ⟨same, rfl⟩ := Prod.mk.inj ran
  obtain rfl := Except.ok.inj same
  exact ⟨[], rfl, holds _⟩

/-- A failure. There is nothing to hold of it. -/
theorem throw (diagnostic : Diagnostic) : Reads (throw diagnostic) Holds := by
  refine ⟨fun before => .refl before, ?_⟩
  intro before after output marked ran quiet
  obtain ⟨same, -⟩ := Prod.mk.inj ran
  exact nomatch same

/-- A failure in front of a parser. -/
theorem refused (diagnostic : Diagnostic) (next : α → Parser β) :
    Reads (MonadExcept.throw diagnostic >>= next) Last := by
  refine ⟨fun before => .refl before, ?_⟩
  intro before after output marked ran quiet
  obtain ⟨same, -⟩ := Prod.mk.inj ran
  exact nomatch same

/-- A sequence. The second parser is told what the first one has read. -/
theorem bind (first : Reads parser First)
    (second : ∀ result, Reads (next result) fun others rest output =>
      ∀ tokens, First tokens (others ++ rest) result → Last (tokens ++ others) rest output) :
    Reads (parser >>= next) Last := by
  constructor
  · intro before
    have moved := first.onward before
    rcases ranFirst : parser.runAt before with ⟨diagnostic | result, middle⟩
    · rw [runAt_bind_error ranFirst]
      rw [ranFirst] at moved
      exact moved
    · rw [runAt_bind_ok ranFirst]
      rw [ranFirst] at moved
      exact moved.trans ((second result).onward middle)
  · intro before after output marked ran quiet
    have moved := first.onward before
    rcases ranFirst : parser.runAt before with ⟨diagnostic | result, middle⟩
    · rw [runAt_bind_error ranFirst] at ran
      exact nomatch (Prod.mk.inj ran).1
    · rw [runAt_bind_ok ranFirst] at ran
      rw [ranFirst] at moved
      have further := (second result).onward middle
      rw [ran] at further
      obtain ⟨tokens, cut, holdsFirst⟩ := first.holds marked ranFirst (further.quiet quiet)
      obtain ⟨others, cutOthers, holdsSecond⟩ :=
        (second result).holds (moved.marked marked) ran quiet
      rw [cutOthers] at holdsFirst cut
      exact ⟨tokens ++ others, by rw [cut, List.append_assoc], holdsSecond tokens holdsFirst⟩

/-- A choice. -/
theorem ite {condition : Prop} [Decidable condition]
    (positive : condition → Reads parser Holds) (negative : ¬condition → Reads other Holds) :
    Reads (if condition then parser else other) Holds := by
  split
  · exact positive ‹_›
  · exact negative ‹_›

/-- A result that is put into another form. -/
theorem map {form : α → β} (reads : Reads parser fun tokens rest result =>
    Last tokens rest (form result)) : Reads (form <$> parser) Last := by
  change Reads (parser >>= fun result => Pure.pure (form result)) Last
  refine .bind reads fun result => .pure ?_
  intro rest tokens holds
  rw [List.append_nil]
  exact holds

/-- A rule with a bound. The bound exceeds the number of tokens ahead. -/
theorem bounded {rule : Nat → Parser α}
    (reads : ∀ steps, Reads (rule steps) fun tokens rest result =>
      (tokens ++ rest).length < steps → Holds tokens rest result) :
    Reads (bounded rule) Holds := by
  refine ⟨fun before => (reads _).onward before, ?_⟩
  intro before after result marked ran quiet
  obtain ⟨tokens, cut, holds⟩ := (reads (before.rest.length + 1)).holds marked ran quiet
  refine ⟨tokens, cut, holds ?_⟩
  rw [← cut]
  exact Nat.lt_succ_self _

/-- A failure that tells what was expected. -/
theorem unexpected (words : String) : Reads (unexpected words) Holds := by
  refine ⟨fun before => .refl before, ?_⟩
  intro before after output marked ran quiet
  obtain ⟨same, -⟩ := Prod.mk.inj ran
  exact nomatch same

/-- A step over the next token, unless it is the mark of the end. -/
theorem advance : Reads advance fun tokens rest token =>
    (tokens = [token] ∧ token.Lexed) ∨
      (tokens = [] ∧ token.kind = .endOfFile ∧ ∃ tail, rest = token :: tail) := by
  constructor
  · intro before
    rcases ahead : before.rest with _ | ⟨token, rest⟩
    · have looked : (Parser.peek 0).runAt before = (.ok (before.ahead 0), before) := rfl
      unfold Parser.advance
      rw [runAt_bind_ok looked]
      by_cases kind : (before.ahead 0).kind = .endOfFile
      · rw [if_neg (fun other => other kind)]
        exact .refl before
      · rw [if_pos kind]
        refine ⟨?_, [], (List.append_nil _).symm⟩
        change Passed before.rest before.rest.tail
        rw [ahead]
        exact .refl []
    · by_cases kind : token.kind = .endOfFile
      · rw [runAt_advance_mark ahead kind]
        exact .refl before
      · rw [runAt_advance ahead kind]
        refine ⟨?_, [], (List.append_nil _).symm⟩
        rw [ahead]
        exact .cons kind (.refl rest)
  · intro before after result marked ran quiet
    obtain ⟨token, rest, ahead⟩ := marked.exists_cons
    by_cases kind : token.kind = .endOfFile
    · rw [runAt_advance_mark ahead kind] at ran
      obtain ⟨same, rfl⟩ := Prod.mk.inj ran
      obtain rfl := Except.ok.inj same
      exact ⟨[], rfl, .inr ⟨rfl, kind, rest, ahead⟩⟩
    · rw [runAt_advance ahead kind] at ran
      obtain ⟨same, rfl⟩ := Prod.mk.inj ran
      obtain rfl := Except.ok.inj same
      rw [ahead] at marked
      exact ⟨[token], ahead, .inl ⟨rfl, marked.lexed_head kind⟩⟩

/-- A look at a token some way ahead. -/
theorem peek (distance : Nat) : Reads (peek distance) fun tokens rest token =>
    tokens = [] ∧ ∀ ahead, rest[distance]? = some ahead → token = ahead := by
  refine ⟨fun before => .refl before, ?_⟩
  intro before after output marked ran quiet
  obtain ⟨same, rfl⟩ := Prod.mk.inj ran
  obtain rfl := Except.ok.inj same
  refine ⟨[], rfl, rfl, ?_⟩
  intro ahead found
  simp only [Cursor.ahead, found, Option.getD_some]

/-- A look at the next token before a parser. -/
theorem look {next : Token → Parser β}
    (reads : ∀ token, Reads (next token) fun tokens rest output =>
      (∃ tail, tokens ++ rest = token :: tail) → Last tokens rest output) :
    Reads (Parser.peek >>= next) Last := by
  constructor
  · intro before
    exact (reads _).onward before
  · intro before after output marked ran quiet
    obtain ⟨token, tail, ahead⟩ := marked.exists_cons
    have looked : (Parser.peek 0).runAt before = (.ok token, before) := by
      rw [← ahead_cons ahead]
      rfl
    rw [runAt_bind_ok looked] at ran
    obtain ⟨tokens, cut, holds⟩ := (reads token).holds marked ran quiet
    exact ⟨tokens, cut, holds ⟨tail, by rw [← cut, ahead]⟩⟩

/-- A step over the token that has been looked at. -/
theorem take {next : Token → Parser β} {token : Token} (kind : token.kind ≠ .endOfFile)
    (reads : ∀ taken, Reads (next taken) fun others rest output =>
      taken = token → token.Lexed → Last (token :: others) rest output) :
    Reads (Parser.advance >>= next) fun tokens rest output =>
      (∃ tail, tokens ++ rest = token :: tail) → Last tokens rest output := by
  refine .bind advance fun taken => (reads taken).mono ?_
  rintro others rest output holds tokens (⟨rfl, lexed⟩ | ⟨rfl, mark, tail, ahead⟩) ⟨_, seen⟩
  · obtain rfl := (List.cons.inj seen).1
    exact holds rfl lexed
  · rw [List.nil_append, ahead] at seen
    obtain rfl := (List.cons.inj seen).1
    exact absurd mark kind

/-- A look at the kind of the next token. -/
theorem check (kinds : List TokenKind) : Reads (check kinds) fun tokens rest found =>
    tokens = [] ∧ ∃ token tail, rest = token :: tail ∧ (found = true ↔ token.kind ∈ kinds) := by
  change Reads (Parser.peek >>= fun token => Pure.pure (kinds.contains token.kind)) _
  refine .look fun token => .pure ?_
  rintro rest ⟨tail, seen⟩
  exact ⟨rfl, token, tail, seen, List.contains_iff_mem⟩

/-- A choice by the kind of the next token. -/
theorem checked {kinds : List TokenKind} {positive negative : Parser β}
    (found : Reads positive fun tokens rest output =>
      (∃ token tail, tokens ++ rest = token :: tail ∧ token.kind ∈ kinds) →
        Last tokens rest output)
    (missing : Reads negative fun tokens rest output =>
      (∃ token tail, tokens ++ rest = token :: tail ∧ token.kind ∉ kinds) →
        Last tokens rest output) :
    Reads (Parser.check kinds >>= fun found => if found = true then positive else negative)
      Last := by
  refine .bind (check kinds) fun seen => .ite ?_ ?_
  · intro present
    refine found.mono ?_
    rintro tokens rest output holds _ ⟨rfl, token, tail, ahead, among⟩
    exact holds ⟨token, tail, ahead, among.mp present⟩
  · intro absent
    refine missing.mono ?_
    rintro tokens rest output holds _ ⟨rfl, token, tail, ahead, among⟩
    exact holds ⟨token, tail, ahead, fun kind => absent (among.mpr kind)⟩

/-- A step over a token whose kind is known. -/
theorem known {kinds : List TokenKind} {next : Token → Parser β} (lexemes : .endOfFile ∉ kinds)
    (reads : ∀ token, Reads (next token) fun others rest output =>
      token.kind ∈ kinds → Last (token :: others) rest output) :
    Reads (Parser.advance >>= next) fun tokens rest output =>
      (∃ token tail, tokens ++ rest = token :: tail ∧ token.kind ∈ kinds) →
        Last tokens rest output := by
  refine .bind advance fun token => (reads token).mono ?_
  rintro others rest output holds _ (⟨rfl, -⟩ | ⟨rfl, mark, tail, ahead⟩) ⟨other, _, seen, among⟩
  · obtain rfl := (List.cons.inj seen).1
    exact holds among
  · rw [List.nil_append, ahead] at seen
    obtain rfl := (List.cons.inj seen).1
    exact absurd (mark ▸ among) lexemes

/-- A token of a given kind before a parser. -/
theorem expected {kind : TokenKind} {words : String} {next : Token → Parser β}
    (lexeme : kind ≠ .endOfFile)
    (reads : ∀ token, Reads (next token) fun others rest output =>
      token.kind = kind → Last (token :: others) rest output) :
    Reads (expect kind words >>= next) Last := by
  have taken : Reads (expect kind words) fun tokens _ token =>
      tokens = [token] ∧ token.kind = kind := by
    refine .checked (advance.mono ?_) (.unexpected words)
    rintro tokens rest token (⟨rfl, -⟩ | ⟨rfl, mark, tail, rfl⟩) ⟨other, _, seen, same⟩
    · obtain rfl := (List.cons.inj seen).1
      exact ⟨rfl, List.mem_singleton.mp same⟩
    · obtain rfl := (List.cons.inj seen).1
      exact absurd ((List.mem_singleton.mp same).symm.trans mark) lexeme
  refine .bind taken fun token => (reads token).mono ?_
  rintro others rest output holds _ ⟨rfl, same⟩
  exact holds same

/-- A token of one of some kinds, if it comes next. -/
theorem matched {kinds : List TokenKind} (lexemes : .endOfFile ∉ kinds) :
    Reads (match? kinds) fun tokens rest found =>
      (∃ token, found = some token ∧ tokens = [token] ∧ token.kind ∈ kinds) ∨
        (found = none ∧ tokens = [] ∧ ∃ token tail, rest = token :: tail ∧ token.kind ∉ kinds) := by
  refine .checked (.bind advance fun token => .pure ?_) (.pure ?_)
  · rintro rest tokens (⟨rfl, -⟩ | ⟨rfl, mark, tail, rfl⟩) ⟨other, _, seen, among⟩
    · obtain rfl := (List.cons.inj seen).1
      exact .inl ⟨token, rfl, rfl, among⟩
    · obtain rfl := (List.cons.inj seen).1
      exact absurd (mark ▸ among) lexemes
  · rintro rest ⟨token, tail, seen, absent⟩
    exact .inr ⟨rfl, rfl, token, tail, seen, absent⟩

/-- A token of a given kind that is passed if it comes next. -/
theorem accept {kind : TokenKind} (lexeme : kind ≠ .endOfFile) :
    Reads (accept kind) fun tokens rest found =>
      (found = true ∧ ∃ token, tokens = [token] ∧ token.kind = kind) ∨
        (found = false ∧ tokens = [] ∧ ∃ token tail, rest = token :: tail ∧ token.kind ≠ kind) := by
  have lexemes : .endOfFile ∉ [kind] := fun among => lexeme (List.mem_singleton.mp among).symm
  refine .bind (matched lexemes) fun token => .pure ?_
  rintro rest _ (⟨token, rfl, rfl, among⟩ | ⟨rfl, rfl, token, tail, seen, absent⟩)
  · exact .inl ⟨rfl, token, rfl, List.mem_singleton.mp among⟩
  · exact .inr ⟨rfl, rfl, token, tail, seen, fun same => absent (List.mem_singleton.mpr same)⟩

/-- A choice by whether a token comes next, which is then passed. -/
theorem accepted {kind : TokenKind} {positive negative : Parser β} (lexeme : kind ≠ .endOfFile)
    (found : Reads positive fun others rest output =>
      ∀ token, token.kind = kind → Last (token :: others) rest output)
    (missing : Reads negative fun tokens rest output =>
      (∃ token tail, tokens ++ rest = token :: tail ∧ token.kind ≠ kind) →
        Last tokens rest output) :
    Reads (Parser.accept kind >>= fun found => if found = true then positive else negative)
      Last := by
  refine .bind (accept lexeme) fun passed => .ite ?_ ?_
  · intro present
    refine found.mono ?_
    rintro others rest output holds _ (⟨-, token, rfl, same⟩ | ⟨absent, -⟩)
    · exact holds token same
    · exact absurd (absent.symm.trans present) Bool.false_ne_true
  · intro absent
    refine missing.mono ?_
    rintro others rest output holds _ (⟨present, -⟩ | ⟨-, rfl, ahead⟩)
    · exact absurd present absent
    · exact holds ahead

/-- A token that may come at the end. -/
theorem ended {kind : TokenKind} (lexeme : kind ≠ .endOfFile) :
    Reads (Parser.accept kind) fun tokens _ _ => Grammar.Closing kind tokens := by
  refine (accept lexeme).mono ?_
  rintro tokens rest passed (⟨-, token, rfl, same⟩ | ⟨-, rfl, -⟩)
  · exact .present same
  · exact .absent

end Reads

end Parser

end ArrowScript
