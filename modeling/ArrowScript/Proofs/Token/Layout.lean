import ArrowScript.Proofs.Token.Pieces

/-!
# The layout of a source

A source is the concatenation of the words that the terminals take, one after another:
lexemes, each with its token at the offset of its first character, and gaps of blanks
and comments between them. `Layout` is this relation between a text and its tokens. It
also looks at what follows the text, since what a terminal takes depends on it.

The lexer walks over the source with a count of the characters that belong to the
current piece. Passing a piece leads to the same walk over what is left, so one step
adds one word to the layout, and the whole run lays out the source, or the part of it
before the first character at which no terminal matches.
-/

namespace ArrowScript.Lexing

/-- A text at an offset, before the rest of the source, is made of the lexemes of the
tokens and of gaps. -/
inductive Layout : (offset : Nat) → (text rest : List Char) → List Token → Prop where
  | nil {offset : Nat} {rest : List Char} : Layout offset [] rest []
  | gap {offset : Nat} {word text rest : List Char} {tokens : List Token} {terminal : Terminal}
      (separates : terminal.kind = none) (taken : terminal.Takes word (word ++ text ++ rest))
      (further : Layout (offset + word.length) text rest tokens) :
      Layout offset (word ++ text) rest tokens
  | lexeme {offset : Nat} {word text rest : List Char} {tokens : List Token}
      {terminal : Terminal} {token : Token} (lexical : terminal.kind ≠ none)
      (taken : terminal.Takes word (word ++ text ++ rest)) (denotes : Denotes token word)
      (position : token.offset = offset)
      (further : Layout (offset + word.length) text rest tokens) :
      Layout offset (word ++ text) rest (token :: tokens)

/-- No terminal takes the empty word. -/
theorem Terminal.Takes.length_pos {terminal : Terminal} {word text : List Char}
    (taken : terminal.Takes word text) : 0 < word.length := by
  obtain ⟨before, after, split, _⟩ := taken.first
  obtain ⟨first, rest, rfl, _⟩ := Terminal.opens (by simp [split]) word taken.mem
  exact Nat.succ_pos _

namespace Layout

variable {offset : Nat} {text rest : List Char} {tokens : List Token}

/-- The tokens of a text begin inside of it. -/
theorem offset_bounds (layout : Layout offset text rest tokens) :
    ∀ token ∈ tokens, offset ≤ token.offset ∧ token.offset < offset + text.length := by
  induction layout with
  | nil => nofun
  | gap _ _ _ inductionHypothesis =>
      intro token among
      have := inductionHypothesis token among
      rw [List.length_append]
      omega
  | lexeme _ taken _ position _ inductionHypothesis =>
      have positive := taken.length_pos
      intro token among
      rw [List.length_append]
      rcases List.mem_cons.mp among with rfl | later
      · omega
      · have := inductionHypothesis token later
        omega

/-- Each token begins after the one before it. -/
theorem increasing (layout : Layout offset text rest tokens) :
    tokens.Pairwise (·.offset < ·.offset) := by
  induction layout with
  | nil => exact .nil
  | gap _ _ _ inductionHypothesis => exact inductionHypothesis
  | lexeme _ taken _ position further inductionHypothesis =>
      have positive := taken.length_pos
      refine .cons (fun token later => ?_) inductionHypothesis
      have := further.offset_bounds token later
      omega

end Layout

/-- What the lexer answers on a text at an offset: the tokens of its layout, or the
character at which the layout ends since no terminal matches. -/
def Outcome (offset : Nat) (text : List Char) : Except Diagnostic (List Token) → Prop
  | .ok tokens => ∃ lexed, tokens = lexed ++ [.atEnd (offset + text.length : Nat)] ∧
      Layout offset text [] lexed
  | .error report => ∃ before character after lexed, text = before ++ character :: after ∧
      report = ⟨.unexpectedCharacter character, (offset + before.length : Nat)⟩ ∧
      Layout offset before (character :: after) lexed ∧
      ∀ terminal ∈ terminals, ¬ terminal.Matches (character :: after)

section Steps

variable {offset : Nat} {word text : List Char} {terminal : Terminal}
  {result : Except Diagnostic (List Token)}

/-- A gap in front of a text adds no token. -/
theorem Outcome.gap (separates : terminal.kind = none) (taken : terminal.Takes word (word ++ text))
    (outcome : Outcome (offset + word.length) text result) :
    Outcome offset (word ++ text) result := by
  cases result with
  | ok tokens =>
      obtain ⟨lexed, rfl, layout⟩ := outcome
      refine ⟨lexed, by rw [List.length_append, Nat.add_assoc], ?_⟩
      exact .gap separates (by rwa [List.append_nil]) layout
  | error report =>
      obtain ⟨before, character, after, lexed, rfl, rfl, layout, unmatched⟩ := outcome
      refine ⟨word ++ before, character, after, lexed, by rw [List.append_assoc],
        by rw [List.length_append, Nat.add_assoc], ?_, unmatched⟩
      exact .gap separates (by rwa [List.append_assoc]) layout

/-- A lexeme in front of a text adds its token. -/
theorem Outcome.lexeme {token : Token} (lexical : terminal.kind ≠ none)
    (taken : terminal.Takes word (word ++ text)) (denotes : Denotes token word)
    (position : token.offset = offset) (outcome : Outcome (offset + word.length) text result) :
    Outcome offset (word ++ text) ((token :: ·) <$> result) := by
  cases result with
  | ok tokens =>
      obtain ⟨lexed, rfl, layout⟩ := outcome
      refine ⟨token :: lexed, by rw [List.length_append, ← Nat.add_assoc]; rfl, ?_⟩
      exact .lexeme lexical (by rwa [List.append_nil]) denotes position layout
  | error report =>
      obtain ⟨before, character, after, lexed, rfl, rfl, layout, unmatched⟩ := outcome
      refine ⟨word ++ before, character, after, token :: lexed, by rw [List.append_assoc],
        by rw [List.length_append, Nat.add_assoc], ?_, unmatched⟩
      exact .lexeme lexical (by rwa [List.append_assoc]) denotes position layout

end Steps

section Run

variable {offset pending : Nat} {first : Char} {rest text : List Char}

theorem tokensFrom_nil : tokensFrom offset pending [] = .ok [.atEnd offset] := by
  cases pending <;> rfl

theorem tokensFrom_succ :
    tokensFrom offset (pending + 1) (first :: rest) = tokensFrom (offset + 1) pending rest := rfl

theorem tokensFrom_zero : tokensFrom offset 0 (first :: rest) =
    match pieceAt first rest with
    | none => .error ⟨.unexpectedCharacter first, offset⟩
    | some (.gap, length) => tokensFrom (offset + 1) length rest
    | some (.lexeme kind, length) =>
      (⟨kind, valueOf kind (first :: rest.take length), offset⟩ :: ·) <$>
        tokensFrom (offset + 1) length rest := by
  rfl

/-- Passing the rest of a piece leads to the walk over what is left. -/
theorem tokensFrom_pending (bound : pending ≤ text.length) :
    tokensFrom offset pending text = tokensFrom (offset + pending) 0 (text.drop pending) := by
  induction text generalizing offset pending with
  | nil => rw [List.drop_nil, tokensFrom_nil, tokensFrom_nil, Nat.le_zero.mp bound, Nat.add_zero]
  | cons character text inductionHypothesis =>
      cases pending with
      | zero => rw [Nat.add_zero, List.drop_zero]
      | succ pending =>
          rw [tokensFrom_succ, inductionHypothesis (Nat.le_of_succ_le_succ bound), Nat.add_assoc,
            Nat.add_comm 1, List.drop_succ_cons]

/-- The walk behind a piece that begins with `first`. -/
theorem tokensFrom_word (bound : pending ≤ rest.length) :
    tokensFrom (offset + 1) pending rest =
      tokensFrom (offset + (first :: rest.take pending).length) 0 (rest.drop pending) := by
  rw [tokensFrom_pending bound, List.length_cons, List.length_take_of_le bound, Nat.add_assoc,
    Nat.add_comm 1]

end Run

/-- The lexer lays out every text. -/
theorem tokensFrom_outcome (offset : Nat) (text : List Char) :
    Outcome offset text (tokensFrom offset 0 text) := by
  match text with
  | [] => exact ⟨[], by rw [List.length_nil, Nat.add_zero]; rfl, .nil⟩
  | first :: rest =>
      have correct := @pieceAt_correct first rest
      have shorter (length : Nat) : (rest.drop length).length < (first :: rest).length :=
        by
        rw [List.length_drop, List.length_cons]
        omega
      have rejoined (length : Nat) :
          first :: rest.take length ++ rest.drop length = first :: rest := by
        rw [List.cons_append, List.take_append_drop]
      rw [tokensFrom_zero]
      match pieceAt first rest, correct with
      | none, unmatched => exact ⟨[], first, rest, [], rfl, rfl, .nil, unmatched⟩
      | some (.gap, length), ⟨bound, terminal, separates, taken⟩ =>
          have further := tokensFrom_outcome
            (offset + (first :: rest.take length).length) (rest.drop length)
          rw [← tokensFrom_word bound] at further
          rw [← rejoined length] at taken ⊢
          exact further.gap separates taken
      | some (.lexeme kind, length), ⟨bound, terminal, lexical, taken, denotes⟩ =>
          have further := tokensFrom_outcome
            (offset + (first :: rest.take length).length) (rest.drop length)
          rw [← tokensFrom_word bound] at further
          rw [← rejoined length] at taken ⊢
          exact further.lexeme lexical taken (denotes offset) rfl
termination_by text.length

end ArrowScript.Lexing
