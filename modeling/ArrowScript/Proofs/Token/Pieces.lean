import ArrowScript.Proofs.Token.Measures

/-!
# A piece of the source

What begins at a position is decided by the class of its first character. For every
class the piece that the lexer finds is what the first matching terminal takes, and
where it finds none no terminal matches. A lexeme has the kind of a terminal whose
language holds it: that of the terminal that took it, unless it is a reserved word.
-/

namespace ArrowScript.Lexing

open Computability

/-- A token stands for a lexeme: the lexeme is a word of the token's kind, the kind is
that of a reserved word just if the whole lexeme is this word, and the value is the
conversion of the lexeme. -/
structure Denotes (token : Token) (lexeme : List Char) : Prop where
  pattern : ∃ terminal ∈ terminals, terminal.kind = some token.kind ∧ lexeme ∈ terminal.language
  reserved : ∀ entry ∈ TokenKind.words, token.kind = entry.2 ↔ lexeme = entry.1.toList
  value : token.value = valueOf token.kind lexeme

/-- What is true of a piece of `first :: rest` that takes a number of characters from
`rest`, or of the lack of one. -/
def Correct (first : Char) (rest : List Char) : Option (Piece × Nat) → Prop
  | none => ∀ terminal ∈ terminals, ¬ terminal.Matches (first :: rest)
  | some (.gap, length) => length ≤ rest.length ∧ ∃ terminal : Terminal, terminal.kind = none ∧
      terminal.Takes (first :: rest.take length) (first :: rest)
  | some (.lexeme kind, length) => length ≤ rest.length ∧ ∃ terminal : Terminal,
      terminal.kind ≠ none ∧ terminal.Takes (first :: rest.take length) (first :: rest) ∧
      ∀ offset, Denotes ⟨kind, valueOf kind (first :: rest.take length), offset⟩
        (first :: rest.take length)

section Kinds

variable {lexeme : List Char} {kind : TokenKind} {offset : Int}

/-- A word has a reserved kind just if it is the word of this kind. -/
theorem ofWord_eq_iff {word : String} {entry : String × TokenKind}
    (listed : entry ∈ TokenKind.words) : TokenKind.ofWord word = entry.2 ↔ word = entry.1 := by
  have distinct : ∀ entry ∈ TokenKind.words, ∀ other ∈ TokenKind.words,
      entry.2 = other.2 → entry.1 = other.1 := by decide
  have found : ∀ entry ∈ TokenKind.words, TokenKind.ofWord entry.1 = entry.2 := by decide
  have reserved : ∀ entry ∈ TokenKind.words, entry.2 ≠ .identifier := by decide
  constructor
  · intro same
    rw [TokenKind.ofWord] at same
    cases looked : TokenKind.words.lookup word with
    | none =>
        rw [looked] at same
        exact absurd same.symm (reserved entry listed)
    | some kind =>
        rw [looked] at same
        obtain ⟨before, after, split, _⟩ := List.lookup_eq_some_iff.mp looked
        exact distinct (word, kind) (by simp [split]) entry listed same
  · rintro rfl
    exact found entry listed

/-- The kind of an identifier or of a reserved word. -/
theorem denotes_ofWord (mem : lexeme ∈ Pattern.identifier) :
    Denotes ⟨.ofWord (String.ofList lexeme), valueOf (.ofWord (String.ofList lexeme)) lexeme,
      offset⟩ lexeme := by
  refine ⟨?_, fun entry listed => ?_, rfl⟩
  · cases looked : TokenKind.words.lookup (String.ofList lexeme) with
    | none =>
        refine ⟨.identifier, by simp [terminals, patterns], ?_, mem⟩
        simp [TokenKind.ofWord, looked, Terminal.identifier]
    | some kind =>
        obtain ⟨before, after, split, _⟩ := List.lookup_eq_some_iff.mp looked
        refine ⟨.fixed .letter (String.ofList lexeme, kind), ?_, ?_, ?_⟩
        · exact Terminal.fixed_letter_mem (by simp [split])
        · simp [TokenKind.ofWord, looked, Terminal.fixed]
        · simp [Terminal.fixed]
  · rw [ofWord_eq_iff listed, ← String.toList_inj, String.toList_ofList]

/-- A word of a terminal that begins with no letter is no reserved word. -/
theorem denotes_of_mem {terminal : Terminal} (among : terminal ∈ terminals)
    (opener : terminal.opener ≠ .letter) (same : terminal.kind = some kind)
    (mem : lexeme ∈ terminal.language) : Denotes ⟨kind, valueOf kind lexeme, offset⟩ lexeme := by
  refine ⟨⟨terminal, among, same, mem⟩, fun entry listed => ?_, rfl⟩
  have kinds : ∀ terminal ∈ terminals, terminal.opener ≠ .letter →
      ∀ entry ∈ TokenKind.words, terminal.kind ≠ some entry.2 := by decide
  constructor
  · rintro rfl
    exact absurd same (kinds terminal among opener entry listed)
  · rintro rfl
    obtain ⟨first, rest, split, letter⟩ :=
      Terminal.opens (Terminal.fixed_letter_mem listed) _ rfl
    obtain ⟨first', rest', split', other⟩ := Terminal.opens among _ mem
    obtain ⟨rfl, rfl⟩ := List.cons.inj (split.symm.trans split')
    exact absurd (other.symm.trans letter) opener

end Kinds

variable {first : Char} {rest : List Char}

/-- A terminal is the first to match if none before it has the class of the character. -/
theorem Terminal.Takes.of_opener {terminal : Terminal} {word : List Char}
    (before after : List Terminal) (split : terminals = before ++ terminal :: after)
    (others : ∀ earlier ∈ before, earlier.opener ≠ Opener.of first)
    (mem : word ∈ terminal.language)
    (extent : ∀ other ∈ terminal.language, other <+: first :: rest →
      if terminal.early then word.length ≤ other.length else other.length ≤ word.length) :
    terminal.Takes word (first :: rest) := by
  refine ⟨⟨before, after, split, fun earlier listed => ?_⟩, mem, extent⟩
  exact Terminal.not_matches (by simp [split, listed]) (others earlier listed)

/-- A run is the longest word of a class of characters followed by another. -/
theorem length_le_run {start part : Char → Bool} {other : List Char}
    (mem : other ∈ Pattern.oneOf start * (Pattern.oneOf part)∗) (ahead : other <+: first :: rest) :
    other.length ≤ (first :: rest.take (runLength part rest)).length := by
  obtain ⟨_, body, rfl, _, all⟩ := Pattern.mem_oneOf_mul.mp mem
  obtain ⟨rfl, bodyAhead⟩ := List.cons_prefix_cons.mp ahead
  have bound := length_le_runLength bodyAhead (Pattern.mem_oneOf_kstar.mp all)
  rw [List.length_cons, List.length_cons, List.length_take_of_le runLength_le]
  exact Nat.succ_le_succ bound

/-- A run is a word of a class of characters followed by another. -/
theorem mem_run {start part : Char → Bool} (starts : start first = true) :
    first :: rest.take (runLength part rest) ∈ Pattern.oneOf start * (Pattern.oneOf part)∗ :=
  Pattern.mem_oneOf_mul.mpr
    ⟨first, _, rfl, starts, Pattern.mem_oneOf_kstar.mpr holds_of_mem_take_runLength⟩

theorem correct_blank (blank : isBlank first = true) :
    Correct first rest (some (.gap, runLength isBlank rest)) := by
  have taken : Terminal.whitespace.Takes (first :: rest.take (runLength isBlank rest))
      (first :: rest) := by
    refine .of_opener (patterns.take 5) _ rfl ?_ (mem_run blank) fun _ => length_le_run
    rw [Opener.of_isBlank blank]
    decide
  exact ⟨runLength_le, .whitespace, rfl, taken⟩

theorem correct_letter (start : isNameStart first = true) :
    Correct first rest
      (some (.lexeme (.ofWord (String.ofList (first :: rest.take (runLength isNamePart rest)))),
        runLength isNamePart rest)) := by
  have mem : first :: rest.take (runLength isNamePart rest) ∈ Pattern.identifier := mem_run start
  have taken : Terminal.identifier.Takes (first :: rest.take (runLength isNamePart rest))
      (first :: rest) := by
    refine .of_opener (patterns.take 1) _ rfl ?_ mem fun _ => length_le_run
    rw [Opener.of_isNameStart start]
    decide
  exact ⟨runLength_le, .identifier, Option.some_ne_none _, taken, fun _ => denotes_ofWord mem⟩

/-- No word of a number is longer than its whole digits and its fraction. -/
theorem length_le_number {other : List Char} (mem : other ∈ Pattern.number)
    (ahead : other <+: first :: rest) :
    other.length ≤ runLength Char.isDigit rest +
      fractionLength (rest.drop (runLength Char.isDigit rest)) + 1 := by
  obtain ⟨whole, digits, fraction, point, rfl⟩ := Language.mem_mul.mp mem
  rcases mem_fraction.mp point with rfl | ⟨decimals, _, rfl⟩
  · rw [List.append_nil] at ahead ⊢
    have bound := length_le_run digits ahead
    rw [List.length_cons, List.length_take_of_le runLength_le] at bound
    omega
  · obtain ⟨_, body, rfl, _, all⟩ := Pattern.mem_oneOf_mul.mp digits
    rw [List.cons_append] at ahead
    obtain ⟨rfl, after, rfl⟩ := List.cons_prefix_cons.mp ahead
    -- The whole digits end at the point, so the fraction is measured behind them.
    have run : runLength Char.isDigit (body ++ '.' :: decimals ++ after) = body.length := by
      rw [List.append_assoc]
      exact runLength_append_cons (Pattern.mem_oneOf_kstar.mp all) (by decide)
    have bound : ('.' :: decimals).length ≤ fractionLength ('.' :: decimals ++ after) :=
      length_le_fractionLength (List.prefix_append _ _) point
    rw [run, List.append_assoc, List.drop_left]
    simp only [List.length_cons, List.length_append, List.cons_append] at bound ⊢
    omega

theorem correct_digit (digit : first.isDigit = true) :
    Correct first rest (some (.lexeme .number, runLength Char.isDigit rest +
      fractionLength (rest.drop (runLength Char.isDigit rest)))) := by
  have whole : runLength Char.isDigit rest ≤ rest.length := runLength_le
  have fraction := @take_fractionLength (rest.drop (runLength Char.isDigit rest))
  have bound : runLength Char.isDigit rest +
      fractionLength (rest.drop (runLength Char.isDigit rest)) ≤ rest.length := by
    have := List.length_drop ▸ fraction.1
    omega
  have mem : first :: rest.take (runLength Char.isDigit rest +
      fractionLength (rest.drop (runLength Char.isDigit rest))) ∈ Pattern.number := by
    rw [List.take_add, ← List.cons_append]
    exact Language.append_mem_mul (mem_run digit) fraction.2
  have listed : Terminal.number ∈ terminals := by simp [terminals, patterns]
  refine ⟨bound, .number, Option.some_ne_none _, .of_opener (patterns.take 2) _ rfl ?_ mem ?_,
    fun _ => denotes_of_mem listed (by decide) rfl mem⟩
  · rw [Opener.of_isDigit digit]
    decide
  · intro other otherMem ahead
    have longest := length_le_number otherMem ahead
    rwa [← List.length_take_of_le bound] at longest

/-- If no terminal of the character's class matches, then none does. -/
theorem correct_none (only : ∀ terminal ∈ terminals, terminal.opener = Opener.of first →
    ¬ terminal.Matches (first :: rest)) : Correct first rest none := by
  intro terminal among
  by_cases opener : terminal.opener = Opener.of first
  · exact only terminal among opener
  · exact Terminal.not_matches among opener

theorem correct_quote (quote : first = '"' ∨ first = '\'') :
    Correct first rest ((stringLength first rest).map fun length => (.lexeme .string, length)) := by
  have opener : Opener.of first = .quote := by rcases quote with rfl | rfl <;> decide
  have backslash : '\\' ≠ first := by rcases quote with rfl | rfl <;> decide
  -- A string at the front of the text ends where the search stops.
  have search {word : List Char} (mem : word ∈ Pattern.string) (ahead : word <+: first :: rest) :
      (stringLength first rest).map (· + 1) = some word.length := by
    obtain ⟨_, body, rfl, _, inside⟩ := mem_string.mp mem
    obtain ⟨rfl, after, rfl⟩ := List.cons_prefix_cons.mp ahead
    rw [stringLength_append after backslash inside]
    rfl
  cases found : stringLength first rest with
  | none =>
      refine correct_none fun terminal among same => ?_
      obtain rfl := Terminal.eq_string among (same.trans opener)
      rintro ⟨word, mem, ahead⟩
      have stops := search mem ahead
      rw [found] at stops
      cases stops
  | some length =>
      obtain ⟨bound, inside⟩ := take_stringLength found
      have mem : first :: rest.take length ∈ Pattern.string :=
        mem_string.mpr ⟨first, _, rfl, quote, inside⟩
      have listed : Terminal.string ∈ terminals := by simp [terminals, patterns]
      refine ⟨bound, .string, Option.some_ne_none _,
        .of_opener [] _ rfl (List.forall_mem_nil _) mem ?_,
        fun _ => denotes_of_mem listed (by decide) rfl mem⟩
      intro other otherMem ahead
      have stops := search otherMem ahead
      rw [found] at stops
      have same : length + 1 = other.length := Option.some.inj stops
      rw [← List.length_take_of_le bound] at same
      exact same.ge

/-- A line comment is opened by two slashes. -/
theorem matches_lineComment (matching : Terminal.lineComment.Matches ('/' :: rest)) :
    ∃ body, rest = '/' :: body := by
  obtain ⟨_, mem, after, split⟩ := matching
  obtain ⟨body, rfl, _⟩ := mem_lineComment.mp mem
  exact ⟨body ++ after, (List.cons.inj split).2.symm⟩

/-- A block comment is opened by a slash and a star, and it is closed. -/
theorem matches_blockComment (matching : Terminal.blockComment.Matches ('/' :: rest)) :
    ∃ body length, rest = '*' :: body ∧ blockCommentLength body = some length := by
  obtain ⟨_, mem, after, split⟩ := matching
  obtain ⟨body, closed, rfl⟩ := mem_blockComment.mp mem
  obtain ⟨length, found, _⟩ := blockCommentLength_of_mem closed (List.prefix_append body after)
  exact ⟨body ++ after, length, (List.cons.inj split).2.symm, found⟩

theorem correct_lineComment {body : List Char} :
    Correct '/' ('/' :: body) (some (.gap, 1 + runLength (· != '\n') body)) := by
  rw [Nat.add_comm]
  have bound : runLength (· != '\n') body + 1 ≤ ('/' :: body).length :=
    Nat.succ_le_succ runLength_le
  have mem : '/' :: ('/' :: body).take (runLength (· != '\n') body + 1) ∈ Pattern.lineComment :=
    mem_lineComment.mpr ⟨_, rfl, holds_of_mem_take_runLength⟩
  have others : ∀ earlier ∈ patterns.take 4, ¬ earlier.Matches ('/' :: '/' :: body) := by
    intro earlier listed
    simp only [patterns, List.take, List.mem_cons, List.not_mem_nil, or_false] at listed
    rcases listed with rfl | rfl | rfl | rfl
    · exact Terminal.not_matches (by simp [terminals, patterns]) (by decide)
    · exact Terminal.not_matches (by simp [terminals, patterns]) (by decide)
    · exact Terminal.not_matches (by simp [terminals, patterns]) (by decide)
    · intro matching
      obtain ⟨_, _, star, _⟩ := matches_blockComment matching
      cases star
  refine ⟨bound, .lineComment, rfl, ⟨⟨patterns.take 4, _, rfl, others⟩, mem, ?_⟩⟩
  intro other otherMem ahead
  obtain ⟨inside, rfl, all⟩ := mem_lineComment.mp otherMem
  simp only [List.cons_prefix_cons, true_and] at ahead
  have longest := length_le_runLength ahead all
  rw [List.take_succ_cons]
  show _ ≤ _
  simp only [List.length_cons, List.length_take_of_le runLength_le]
  omega

theorem correct_blockComment {body : List Char} {length : Nat}
    (found : blockCommentLength body = some length) :
    Correct '/' ('*' :: body) (some (.gap, 1 + length)) := by
  rw [Nat.add_comm]
  obtain ⟨bound, closed⟩ := take_blockCommentLength found
  have mem : '/' :: ('*' :: body).take (length + 1) ∈ Pattern.blockComment :=
    mem_blockComment.mpr ⟨_, closed, rfl⟩
  refine ⟨Nat.succ_le_succ bound, .blockComment, rfl,
    .of_opener (patterns.take 3) _ rfl (by decide) mem ?_⟩
  intro other otherMem ahead
  obtain ⟨inside, otherClosed, rfl⟩ := mem_blockComment.mp otherMem
  simp only [List.cons_prefix_cons, true_and] at ahead
  obtain ⟨count, counted, shortest⟩ := blockCommentLength_of_mem otherClosed ahead
  obtain rfl := Option.some.inj (found.symm.trans counted)
  rw [List.take_succ_cons]
  show _ ≤ _
  simp only [List.length_cons, List.length_take_of_le bound]
  omega

theorem correct_slash :
    Correct '/' rest ((commentLength rest).map fun length => (.gap, length)) := by
  fun_cases commentLength rest with
  | case1 body => exact correct_lineComment
  | case2 body =>
      cases found : blockCommentLength body with
      | some length => exact correct_blockComment found
      | none =>
          refine correct_none fun terminal among same matching => ?_
          rcases Terminal.eq_comment among same with rfl | rfl
          · obtain ⟨_, length, split, some⟩ := matches_blockComment matching
            cases split
            cases found.symm.trans some
          · obtain ⟨_, split⟩ := matches_lineComment matching
            cases split
  | case3 _ line block =>
      refine correct_none fun terminal among same matching => ?_
      rcases Terminal.eq_comment among same with rfl | rfl
      · obtain ⟨body, _, split, _⟩ := matches_blockComment matching
        exact block body split
      · obtain ⟨body, split⟩ := matches_lineComment matching
        exact line body split

/-- The first mark of the table with which a text begins is what its terminal takes. -/
theorem takes_mark {entry : String × TokenKind} (mark : Opener.of first = .mark)
    (found : marks.find? (fun mark => mark.1.toList.isPrefixOf (first :: rest)) = some entry) :
    (Terminal.fixed .mark entry).Takes entry.1.toList (first :: rest) := by
  obtain ⟨_, before, after, split, none⟩ := List.find?_eq_some_iff_append.mp found
  have others : ∀ earlier ∈ patterns ++ TokenKind.words.map (.fixed .letter),
      earlier.opener ≠ .mark := by decide
  refine ⟨⟨patterns ++ TokenKind.words.map (.fixed .letter) ++ before.map (.fixed .mark),
    after.map (.fixed .mark), by simp [terminals, split], fun earlier listed => ?_⟩, rfl, ?_⟩
  · rcases List.mem_append.mp listed with other | same
    · have among : earlier ∈ terminals := List.mem_append_left _ other
      exact Terminal.not_matches among (mark ▸ others earlier other)
    · obtain ⟨passed, inside, rfl⟩ := List.mem_map.mp same
      rw [Terminal.matches_fixed, ← List.isPrefixOf_iff_prefix, Bool.not_eq_true,
        ← Bool.not_eq_true']
      exact none passed inside
  · rintro _ rfl _
    exact Nat.le_refl _

theorem correct_mark (mark : Opener.of first = .mark) :
    Correct first rest
      ((punctuationAt first rest).map fun (kind, length) => (.lexeme kind, length)) := by
  rw [punctuationAt_eq]
  cases found : marks.find? fun mark => mark.1.toList.isPrefixOf (first :: rest) with
  | none =>
      refine correct_none fun terminal among same => ?_
      obtain ⟨entry, listed, rfl⟩ := Terminal.eq_mark among (same.trans mark)
      rw [Terminal.matches_fixed, ← List.isPrefixOf_iff_prefix]
      exact List.find?_eq_none.mp found entry listed
  | some entry =>
      have listed : Terminal.fixed .mark entry ∈ terminals :=
        Terminal.fixed_mark_mem (List.mem_of_find?_eq_some found)
      have taken := takes_mark mark found
      have denotes (offset : Int) : Denotes ⟨entry.2, valueOf entry.2 entry.1.toList, offset⟩
          entry.1.toList := denotes_of_mem listed Opener.noConfusion rfl rfl
      have begins := List.find?_some found
      have ahead := List.isPrefixOf_iff_prefix.mp begins
      obtain ⟨_, tail, word, _⟩ := Terminal.opens listed _ rfl
      rw [word] at ahead taken denotes
      obtain ⟨rfl, after, rfl⟩ := List.cons_prefix_cons.mp ahead
      refine ⟨by simp [word], .fixed .mark entry, Option.some_ne_none _, ?_⟩
      simpa [word] using ⟨taken, denotes⟩

/-- The lexer finds what the first matching terminal takes, for every class of
characters that a piece may begin with. -/
theorem pieceAt_correct : Correct first rest (pieceAt first rest) := by
  unfold pieceAt
  split_ifs with blank start digit quote slash
  · exact correct_blank blank
  · exact correct_letter start
  · exact correct_digit digit
  · exact correct_quote quote
  · exact slash ▸ correct_slash
  · exact correct_mark (by simp [Opener.of, blank, start, digit, quote, slash])

end ArrowScript.Lexing
