import ArrowScript.Proofs.Token.Layout

/-!
# Tokenization is exact

At a position one terminal is the first to match, and it takes one word. A lexeme has
one kind: two terminals with a common word have the same kind, unless the word is
reserved, and then the reserved kind is the one. So a layout leaves the lexer no
choice, and the tokens of a source are exactly those of its layout: a source with a
layout is tokenized, and it has no other one.
-/

namespace ArrowScript

namespace Lexing

/-- What is taken at a position is unique. -/
theorem Terminal.Takes.unique {one other : Terminal} {word taken text : List Char}
    (first : one.Takes word text) (second : other.Takes taken text) (ahead : word <+: text)
    (takenAhead : taken <+: text) : one = other ∧ word = taken := by
  classical
  have finds {terminal : Terminal} {begun : List Char} (takes : terminal.Takes begun text)
      (begins : begun <+: text) :
      terminals.find? (fun terminal => decide (terminal.Matches text)) = some terminal := by
    obtain ⟨before, after, split, unmatched⟩ := takes.first
    refine List.find?_eq_some_iff_append.mpr
      ⟨decide_eq_true ⟨begun, takes.mem, begins⟩, before, after, split, fun earlier listed => ?_⟩
    rw [decide_eq_false (unmatched earlier listed), Bool.not_false]
  obtain rfl : one = other :=
    Option.some.inj ((finds first ahead).symm.trans (finds second takenAhead))
  have length : word.length = taken.length := by
    have bound := first.extent taken second.mem takenAhead
    have converse := second.extent word first.mem ahead
    split at bound <;> simp_all <;> omega
  exact ⟨rfl, (List.prefix_of_prefix_length_le ahead takenAhead length.le).eq_of_length length⟩

/-- Two terminals with a common word have the same kind, unless the word is reserved. -/
theorem kind_eq_of_mem {one other : Terminal} {word : List Char} (among : one ∈ terminals)
    (otherAmong : other ∈ terminals) (mem : word ∈ one.language) (otherMem : word ∈ other.language)
    (unreserved : ∀ entry ∈ TokenKind.words, word ≠ entry.1.toList) : one.kind = other.kind := by
  have opener : one.opener = other.opener := by
    obtain ⟨first, rest, rfl, same⟩ := Terminal.opens among word mem
    obtain ⟨first', rest', split, same'⟩ := Terminal.opens otherAmong _ otherMem
    obtain ⟨rfl, rfl⟩ := List.cons.inj split
    exact same.symm.trans same'
  have distinct : ∀ entry ∈ marks, ∀ mark ∈ marks, entry.1 = mark.1 → entry.2 = mark.2 := by
    decide
  -- Apart from reserved words and marks, the class of the first character tells the kind.
  rcases Terminal.mem_terminals.mp among with (rfl | rfl | rfl | rfl | rfl | rfl) |
    ⟨entry, listed, rfl⟩ | ⟨entry, listed, rfl⟩ <;>
  rcases Terminal.mem_terminals.mp otherAmong with (rfl | rfl | rfl | rfl | rfl | rfl) |
    ⟨mark, marked, rfl⟩ | ⟨mark, marked, rfl⟩
  all_goals first
    | rfl
    | exact absurd mem (unreserved _ listed)
    | exact absurd otherMem (unreserved _ marked)
    | cases opener
  exact congrArg some
    (distinct entry listed mark marked (String.toList_inj.mp (mem.symm.trans otherMem)))

/-- A lexeme has one kind. -/
theorem Denotes.kind_eq {one other : Token} {lexeme : List Char} (first : Denotes one lexeme)
    (second : Denotes other lexeme) : one.kind = other.kind := by
  by_cases reserved : ∃ entry ∈ TokenKind.words, lexeme = entry.1.toList
  · obtain ⟨entry, listed, same⟩ := reserved
    rw [(first.reserved entry listed).mpr same, (second.reserved entry listed).mpr same]
  · obtain ⟨terminal, among, kind, mem⟩ := first.pattern
    obtain ⟨terminal', among', kind', mem'⟩ := second.pattern
    have same := kind_eq_of_mem among among' mem mem' fun entry listed equal =>
      reserved ⟨entry, listed, equal⟩
    exact Option.some.inj (kind.symm.trans (same.trans kind'))

/-- Tokens at one offset for one lexeme are the same. -/
theorem Denotes.unique {one other : Token} {lexeme : List Char} (first : Denotes one lexeme)
    (second : Denotes other lexeme) (offset : one.offset = other.offset) : one = other := by
  have kind := first.kind_eq second
  have value : one.value = other.value := by rw [first.value, second.value, kind]
  cases one
  cases other
  simp_all

section Words

variable {terminal : Terminal} {word text : List Char} {offset : Nat}

/-- Where a terminal takes a word, the lexer finds a piece of its length: a gap if the
terminal has no kind, and otherwise a lexeme whose kind is right. -/
theorem pieceAt_of_takes {first : Char} {tail : List Char}
    (taken : terminal.Takes (first :: tail) (first :: (tail ++ text))) :
    terminal.kind = none ∧ pieceAt first (tail ++ text) = some (.gap, tail.length) ∨
      terminal.kind ≠ none ∧ ∃ kind,
        pieceAt first (tail ++ text) = some (.lexeme kind, tail.length) ∧
        ∀ offset, Denotes ⟨kind, valueOf kind (first :: tail), offset⟩ (first :: tail) := by
  have correct := @pieceAt_correct first (tail ++ text)
  have ahead : first :: tail <+: first :: (tail ++ text) := List.prefix_append (first :: tail) text
  have found {length : Nat} {other : Terminal} (bound : length ≤ (tail ++ text).length)
      (takes : other.Takes (first :: (tail ++ text).take length) (first :: (tail ++ text))) :
      terminal = other ∧ tail = (tail ++ text).take length ∧ length = tail.length := by
    have begins : first :: (tail ++ text).take length <+: first :: (tail ++ text) :=
      List.cons_prefix_cons.mpr ⟨rfl, List.take_prefix _ _⟩
    obtain ⟨same, words⟩ := taken.unique takes ahead begins
    have tails := (List.cons.inj words).2
    exact ⟨same, tails, by rw [tails, List.length_take_of_le bound]⟩
  match pieceAt first (tail ++ text), correct with
  | none, unmatched =>
      obtain ⟨before, after, split, _⟩ := taken.first
      exact absurd ⟨_, taken.mem, ahead⟩ (unmatched terminal (by simp [split]))
  | some (.gap, length), ⟨bound, other, separates, takes⟩ =>
      obtain ⟨rfl, _, rfl⟩ := found bound takes
      exact .inl ⟨separates, rfl⟩
  | some (.lexeme kind, length), ⟨bound, other, lexical, takes, denotes⟩ =>
      obtain ⟨rfl, same, length⟩ := found bound takes
      rw [← same] at denotes
      exact .inr ⟨lexical, kind, by rw [length], denotes⟩

/-- The walk passes what a terminal without a kind takes. -/
theorem tokensFrom_gap (separates : terminal.kind = none)
    (taken : terminal.Takes word (word ++ text)) :
    tokensFrom offset 0 (word ++ text) = tokensFrom (offset + word.length) 0 text := by
  match word, taken.length_pos with
  | first :: tail, _ =>
      rcases pieceAt_of_takes taken with ⟨_, piece⟩ | ⟨lexical, _⟩
      · rw [List.cons_append, tokensFrom_zero, piece]
        change tokensFrom (offset + 1) tail.length (tail ++ text) = _
        rw [tokensFrom_pending (by simp), List.drop_left, List.length_cons, Nat.add_assoc,
          Nat.add_comm 1]
      · exact absurd separates lexical

/-- The walk adds the token of a lexeme. -/
theorem tokensFrom_lexeme {token : Token} (lexical : terminal.kind ≠ none)
    (taken : terminal.Takes word (word ++ text)) (denotes : Denotes token word)
    (position : token.offset = offset) :
    tokensFrom offset 0 (word ++ text) =
      (token :: ·) <$> tokensFrom (offset + word.length) 0 text := by
  match word, taken.length_pos with
  | first :: tail, _ =>
      rcases pieceAt_of_takes taken with ⟨separates, _⟩ | ⟨_, kind, piece, found⟩
      · exact absurd separates lexical
      · rw [denotes.unique (found offset) position, List.cons_append, tokensFrom_zero, piece]
        change (_ :: ·) <$> tokensFrom (offset + 1) tail.length (tail ++ text) = _
        rw [tokensFrom_pending (by simp), List.drop_left, List.take_left, List.length_cons,
          Nat.add_assoc, Nat.add_comm 1]

end Words

/-- The lexer finds the layout of a text that has one. -/
theorem Layout.tokensFrom_eq {offset : Nat} {text rest : List Char} {tokens : List Token}
    (layout : Layout offset text rest tokens) (last : rest = []) :
    tokensFrom offset 0 text = .ok (tokens ++ [.atEnd (offset + text.length : Nat)]) := by
  induction layout with
  | nil => rw [tokensFrom_nil]; rfl
  | gap separates taken _ inductionHypothesis =>
      rw [last, List.append_nil] at taken
      rw [tokensFrom_gap separates taken, inductionHypothesis last, List.length_append,
        Nat.add_assoc]
  | lexeme lexical taken denotes position _ inductionHypothesis =>
      rw [last, List.append_nil] at taken
      rw [tokensFrom_lexeme lexical taken denotes position, inductionHypothesis last,
        List.length_append, Nat.add_assoc]
      rfl

/-- A source has one list of tokens. -/
theorem Layout.unique {offset : Nat} {text : List Char} {tokens others : List Token}
    (layout : Layout offset text [] tokens) (other : Layout offset text [] others) :
    others = tokens := by
  have same := (other.tokensFrom_eq rfl).symm.trans (layout.tokensFrom_eq rfl)
  exact List.append_cancel_right (Except.ok.inj same)

end Lexing

/-- Tokenization is exact and lossless. A successful run lays out the whole source and
ends with one mark of its end, at strictly increasing offsets, and there is no other
layout. A failed one names the character at which no terminal matches and lays out what
is before it, and the whole source has no layout. -/
theorem tokenize_layout (source : String) :
    match tokenize source with
    | .ok tokens => ∃ lexed, tokens = lexed ++ [.atEnd source.length] ∧
        Lexing.Layout 0 source.toList [] lexed ∧ tokens.Pairwise (·.offset < ·.offset) ∧
        ∀ other, Lexing.Layout 0 source.toList [] other → other = lexed
    | .error report => ∃ before character after lexed,
        source.toList = before ++ character :: after ∧
        report = ⟨.unexpectedCharacter character, before.length⟩ ∧
        Lexing.Layout 0 before (character :: after) lexed ∧
        lexed.Pairwise (·.offset < ·.offset) ∧
        (∀ terminal ∈ Lexing.terminals, ¬ terminal.Matches (character :: after)) ∧
        ∀ other, ¬ Lexing.Layout 0 source.toList [] other := by
  have outcome := Lexing.tokensFrom_outcome 0 source.toList
  rw [tokenize]
  cases result : Lexing.tokensFrom 0 0 source.toList with
  | ok tokens =>
      rw [result] at outcome
      obtain ⟨lexed, rfl, layout⟩ := outcome
      refine ⟨lexed, by rw [Nat.zero_add, String.length_toList], layout, ?_,
        fun _ => layout.unique⟩
      refine List.pairwise_append.mpr ⟨layout.increasing, List.pairwise_singleton _ _, ?_⟩
      intro token among last isLast
      obtain rfl := List.mem_singleton.mp isLast
      have := (layout.offset_bounds token among).2
      simpa [Token.atEnd] using this
  | error report =>
      rw [result] at outcome
      obtain ⟨before, character, after, lexed, split, rfl, layout, unmatched⟩ := outcome
      refine ⟨before, character, after, lexed, split, by rw [Nat.zero_add], layout,
        layout.increasing, unmatched, fun other whole => ?_⟩
      rw [whole.tokensFrom_eq rfl] at result
      cases result

/-- A keyword inside of a longer word is no keyword, and a comment leaves no token. -/
example : (tokenize "constant=>/* = */const").toOption.map (·.map fun token =>
      (token.kind, token.offset)) =
    some [(.identifier, 0), (.arrow, 8), (.constKeyword, 17), (.endOfFile, 22)] := by
  decide

/-- A block comment that is never closed ends the run at its slash. -/
example : tokenize "a /* b" = .error ⟨.unexpectedCharacter '/', 2⟩ := by rfl

end ArrowScript
