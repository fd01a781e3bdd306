import ArrowScript.Proofs.Parser.Reading

/-!
# What a parser consumes and what it refuses

`Consumes` tells of a parser that it takes exactly some tokens from the front of the
stream, whatever the cursor carries besides, and returns a certain result. `Fails`
tells that it refuses a stream. As for what a parser reads, there is a rule for each
way of putting parsers together.
-/

namespace ArrowScript

/-- The kind of the first token satisfies a predicate. -/
def Next (holds : TokenKind → Prop) (tokens : List Token) : Prop :=
  ∃ token tail, tokens = token :: tail ∧ holds token.kind

/-- A weaker predicate is satisfied as well. -/
theorem Next.mono {holds weaker : TokenKind → Prop} {tokens : List Token}
    (next : Next holds tokens) (implies : ∀ kind, holds kind → weaker kind) :
    Next weaker tokens := by
  obtain ⟨token, tail, same, satisfied⟩ := next
  exact ⟨token, tail, same, implies token.kind satisfied⟩

/-- The first token remains the first when tokens come after it. -/
theorem Next.append {holds : TokenKind → Prop} {tokens : List Token} (next : Next holds tokens)
    (others : List Token) : Next holds (tokens ++ others) := by
  obtain ⟨token, tail, rfl, satisfied⟩ := next
  exact ⟨token, tail ++ others, rfl, satisfied⟩

/-- The kind of a first token that is known. -/
theorem Next.of_cons {holds : TokenKind → Prop} {token : Token} {tail : List Token}
    (satisfied : holds token.kind) : Next holds (token :: tail) :=
  ⟨token, tail, rfl, satisfied⟩

/-- A kind that is not among some is not among fewer. -/
theorem Next.fewer {kinds fewer : List TokenKind} {tokens : List Token}
    (next : Next (· ∉ kinds) tokens) (among : ∀ kind ∈ fewer, kind ∈ kinds) :
    Next (· ∉ fewer) tokens :=
  next.mono fun kind absent found => absent (among kind found)

/-- A kind that is not among some is none of them. -/
theorem Next.ne {kind : TokenKind} {kinds : List TokenKind} {tokens : List Token}
    (next : Next (· ∉ kinds) tokens) (among : kind ∈ kinds) : Next (· ≠ kind) tokens :=
  next.mono fun _ absent same => absent (same ▸ among)

namespace Parser

variable {α β : Type}

/-- The parser takes the tokens before the rest and returns the result. -/
def Consumes (parser : Parser α) (tokens rest : List Token) (result : α) : Prop :=
  ∀ cursor : Cursor, cursor.rest = tokens ++ rest →
    parser.runAt cursor = (.ok result, { cursor with rest })

/-- The parser returns no result. -/
def Fails (parser : Parser α) (tokens : List Token) : Prop :=
  ∀ cursor : Cursor, cursor.rest = tokens →
    ∃ diagnostic after, parser.runAt cursor = (.error diagnostic, after)

/-- The parser takes every list of at most so many tokens that the rule derives, provided
that what comes after it may follow. -/
def Accepts (parser : Parser α) (Rule : List Token → α → Prop) (limit : Nat)
    (Follow : List Token → Prop) : Prop :=
  ∀ ⦃tokens rest : List Token⦄ ⦃tree : α⦄, Rule tokens tree → tokens.length ≤ limit →
    Follow rest → Consumes parser tokens rest tree

variable {parser : Parser α} {next : α → Parser β} {result : α} {output : β}
  {positive negative : Parser β} {tokens first others rest : List Token} {token : Token}
  {kind : TokenKind} {kinds : List TokenKind}

/-- A cursor is not changed by being put where it is. -/
theorem cursor_eq {cursor : Cursor} (same : cursor.rest = rest) :
    { cursor with rest } = cursor := by
  subst same
  rfl

/-- The run of a look at the next token. -/
theorem runAt_peek {cursor : Cursor} (ahead : cursor.rest = token :: rest) :
    peek.runAt cursor = (.ok token, cursor) := by
  rw [← ahead_cons ahead]
  rfl

/-- The run of a look at a token some way ahead. -/
theorem runAt_glance (distance : Nat) (cursor : Cursor) :
    (peek distance).runAt cursor = (.ok (cursor.ahead distance), cursor) := rfl

/-- The run of a look at the kind of the next token. -/
theorem runAt_check {cursor : Cursor} (ahead : cursor.rest = token :: rest) :
    (check kinds).runAt cursor = (.ok (kinds.contains token.kind), cursor) := by
  rw [← ahead_cons ahead]
  rfl

namespace Consumes

/-- A result without reading. -/
theorem pure (result : α) (rest : List Token) : Consumes (pure result) [] rest result := by
  intro cursor ahead
  have same : cursor.rest = rest := ahead
  rw [cursor_eq same]
  rfl

/-- A sequence. -/
theorem bind (head : Consumes parser first (others ++ rest) result)
    (tail : Consumes (next result) others rest output) :
    Consumes (parser >>= next) (first ++ others) rest output := by
  intro cursor ahead
  rw [List.append_assoc] at ahead
  rw [runAt_bind_ok (head cursor ahead)]
  exact tail { cursor with rest := others ++ rest } rfl

/-- A result that is put into another form. -/
theorem map (consumes : Consumes parser tokens rest result) (form : α → β) :
    Consumes (form <$> parser) tokens rest (form result) := by
  intro cursor ahead
  exact runAt_bind_ok (consumes cursor ahead) _

/-- A result that is put into another form at the end. -/
theorem last (consumes : Consumes parser tokens rest result) {form : α → β} :
    Consumes (parser >>= fun result => Pure.pure (form result)) tokens rest (form result) :=
  consumes.map form

/-- A rule with a bound that exceeds the number of tokens ahead. -/
theorem bounded {rule : Nat → Parser α}
    (consumes : Consumes (rule ((tokens ++ rest).length + 1)) tokens rest result) :
    Consumes (bounded rule) tokens rest result := by
  intro cursor ahead
  have ran := consumes cursor ahead
  rw [← ahead] at ran
  exact ran

/-- A look at the next token before a parser. -/
theorem look {next : Token → Parser β} {tail : List Token} (ahead : tokens ++ rest = token :: tail)
    (consumes : Consumes (next token) tokens rest output) :
    Consumes (peek >>= next) tokens rest output := by
  intro cursor same
  rw [runAt_bind_ok (runAt_peek (same.trans ahead))]
  exact consumes cursor same

/-- A step over a lexeme before a parser. -/
theorem take {next : Token → Parser β} (lexeme : token.kind ≠ .endOfFile)
    (consumes : Consumes (next token) others rest output) :
    Consumes (advance >>= next) (token :: others) rest output := by
  intro cursor ahead
  rw [runAt_bind_ok (runAt_advance ahead lexeme)]
  exact consumes { cursor with rest := others ++ rest } rfl

/-- A choice by the kind of the next token, which is among those asked for. -/
theorem checked (ahead : Next (· ∈ kinds) (tokens ++ rest))
    (consumes : Consumes positive tokens rest output) :
    Consumes (check kinds >>= fun found => if found = true then positive else negative)
      tokens rest output := by
  obtain ⟨token, tail, same, among⟩ := ahead
  intro cursor start
  rw [runAt_bind_ok (runAt_check (start.trans same)), if_pos (List.contains_iff_mem.mpr among)]
  exact consumes cursor start

/-- A choice by the kind of the next token, which is not among those asked for. -/
theorem unchecked (ahead : Next (· ∉ kinds) (tokens ++ rest))
    (consumes : Consumes negative tokens rest output) :
    Consumes (check kinds >>= fun found => if found = true then positive else negative)
      tokens rest output := by
  obtain ⟨token, tail, same, absent⟩ := ahead
  intro cursor start
  rw [runAt_bind_ok (runAt_check (start.trans same)),
    if_neg (fun found => absent (List.contains_iff_mem.mp found))]
  exact consumes cursor start

/-- A token of one of some kinds is taken. -/
theorem matched (lexeme : token.kind ≠ .endOfFile) (among : token.kind ∈ kinds)
    (rest : List Token) : Consumes (match? kinds) [token] rest (some token) :=
  .checked (.of_cons among) (.take lexeme (.pure (some token) rest))

/-- A token of another kind is not taken. -/
theorem unmatched (absent : Next (· ∉ kinds) rest) : Consumes (match? kinds) [] rest none :=
  .unchecked absent (.pure none rest)

/-- A token of the given kind is taken. -/
theorem accept (lexeme : kind ≠ .endOfFile) (same : token.kind = kind) (rest : List Token) :
    Consumes (accept kind) [token] rest true := by
  have taken : Consumes (match? [kind]) [token] ([] ++ rest) (some token) :=
    .matched (same ▸ lexeme) (List.mem_singleton.mpr same) rest
  exact taken.bind (.pure true rest)

/-- A token of another kind is not taken. -/
theorem reject (absent : Next (· ≠ kind) rest) : Consumes (Parser.accept kind) [] rest false :=
  .bind (.unmatched (absent.mono fun _ other among => other (List.mem_singleton.mp among)))
    (.pure false rest)

/-- A choice by a token that comes next. -/
theorem accepted (lexeme : kind ≠ .endOfFile) (same : token.kind = kind)
    (consumes : Consumes positive others rest output) :
    Consumes (Parser.accept kind >>= fun found => if found = true then positive else negative)
      (token :: others) rest output :=
  .bind (.accept lexeme same (others ++ rest)) consumes

/-- A choice by a token that does not come next. -/
theorem declined (absent : Next (· ≠ kind) (tokens ++ rest))
    (consumes : Consumes negative tokens rest output) :
    Consumes (Parser.accept kind >>= fun found => if found = true then positive else negative)
      tokens rest output :=
  .bind (.reject absent) consumes

/-- A token of the given kind is taken where it is required. -/
theorem expect {words : String} (lexeme : kind ≠ .endOfFile) (same : token.kind = kind)
    (rest : List Token) : Consumes (expect kind words) [token] rest token := by
  refine .checked (.of_cons (List.mem_singleton.mpr same)) ?_
  intro cursor ahead
  exact runAt_advance ahead (same ▸ lexeme)

/-- A token of the given kind is taken where it is required before a parser. -/
theorem expected {words : String} {next : Token → Parser β} (lexeme : kind ≠ .endOfFile)
    (same : token.kind = kind) (consumes : Consumes (next token) others rest output) :
    Consumes (Parser.expect kind words >>= next) (token :: others) rest output :=
  .bind (.expect lexeme same (others ++ rest)) consumes

/-- After what is consumed the run goes on with the next parser. -/
theorem fails (head : Consumes parser first rest result) (tail : Fails (next result) rest) :
    Fails (parser >>= next) (first ++ rest) := by
  intro cursor ahead
  rw [runAt_bind_ok (head cursor ahead)]
  exact tail { cursor with rest } rfl

end Consumes

namespace Fails

/-- A sequence whose first parser fails. -/
theorem bind (head : Fails parser tokens) (next : α → Parser β) :
    Fails (parser >>= next) tokens := by
  intro cursor ahead
  obtain ⟨diagnostic, after, ran⟩ := head cursor ahead
  exact ⟨diagnostic, after, runAt_bind_error ran next⟩

/-- A failure that tells what was expected. -/
theorem unexpected (words : String) (tokens : List Token) :
    Fails (unexpected words : Parser α) tokens := by
  intro cursor ahead
  exact ⟨_, cursor, rfl⟩

/-- A choice by the kind of the next token, which is not among those asked for. -/
theorem unchecked (ahead : Next (· ∉ kinds) tokens) (fails : Fails negative tokens) :
    Fails (check kinds >>= fun found => if found = true then positive else negative) tokens := by
  obtain ⟨token, tail, rfl, absent⟩ := ahead
  intro cursor start
  rw [runAt_bind_ok (runAt_check start),
    if_neg (fun found => absent (List.contains_iff_mem.mp found))]
  exact fails cursor start

/-- A look at the next token before a parser. -/
theorem look {next : Token → Parser β} (fails : Fails (next token) (token :: rest)) :
    Fails (peek >>= next) (token :: rest) := by
  intro cursor ahead
  rw [runAt_bind_ok (runAt_peek ahead)]
  exact fails cursor ahead

/-- A token that is required does not come next. -/
theorem expected {words : String} {next : Token → Parser β} (absent : Next (· ≠ kind) tokens) :
    Fails (expect kind words >>= next) tokens := by
  obtain ⟨token, tail, rfl, other⟩ := absent
  refine .bind ?_ next
  intro cursor ahead
  have absent : ¬[kind].contains token.kind = true := fun found =>
    other (List.mem_singleton.mp (List.contains_iff_mem.mp found))
  have ran : (expect kind words).runAt cursor = (Parser.unexpected words).runAt cursor := by
    unfold expect
    rw [runAt_bind_ok (runAt_check ahead), if_neg absent]
  rw [ran]
  exact unexpected words _ cursor rfl

end Fails

end Parser

end ArrowScript
