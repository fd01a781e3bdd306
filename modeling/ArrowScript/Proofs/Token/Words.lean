import ArrowScript.Proofs.Token.Layout
import ArrowScript.Text.Alphanumeric

/-!
# Identifiers as words

What an editor takes for a word is a stretch of letters and numeric characters of any script.
The lexer knows the letters of one script only, so a word may end inside of a lexeme, and two
lexemes may be one word. An identifier is a whole word unless a number stands directly before
it: every other piece ends with a character that belongs to no word, and so begins whatever
may stand directly behind it.
-/

namespace ArrowScript.Lexing

open Text (isWordCharacter)

/-! ## Characters of words -/

/-- The characters of identifiers belong to words. -/
theorem isWordCharacter_of_isNamePart {character : Char} (part : isNamePart character = true) :
    isWordCharacter character = true := by
  have codes : ∀ code ∈ List.range' 48 10 ++ List.range' 65 26 ++ List.range' 97 26,
      Text.alphanumeric.holds code = true := by decide +kernel
  rw [isNamePart, Bool.or_eq_true, isNameStart_iff, Char.isDigit_iff_toNat] at part
  change _ ∨ 48 ≤ character.toNat ∧ character.toNat ≤ 57 at part
  by_cases underscore : character.toNat = 95
  · obtain rfl : character = '_' := Char.toNat_inj.mp underscore
    rfl
  · have code := codes character.toNat (by simp; omega)
    rw [isWordCharacter, code, Bool.or_true]

/-- A blank belongs to no word. -/
theorem isWordCharacter_of_isBlank {character : Char} (blank : isBlank character = true) :
    isWordCharacter character = false := by
  have codes : ∀ code ∈ List.range' 9 5 ++ List.range' 28 5 ++ List.range' 0x2000 11 ++
      [0x85, 0xA0, 0x1680, 0x2028, 0x2029, 0x202F, 0x205F, 0x3000],
      code ≠ 95 ∧ Text.alphanumeric.holds code = false := by decide +kernel
  have among : character.toNat ∈ List.range' 9 5 ++ List.range' 28 5 ++ List.range' 0x2000 11 ++
      [0x85, 0xA0, 0x1680, 0x2028, 0x2029, 0x202F, 0x205F, 0x3000] := by
    simp [isBlank] at blank
    simp
    omega
  obtain ⟨other, code⟩ := codes character.toNat among
  rw [isWordCharacter, code, Bool.or_false, beq_eq_false_iff_ne]
  rintro rfl
  exact other rfl

/-- The characters of punctuation marks belong to no words. -/
theorem isWordCharacter_of_mark {entry : String × TokenKind} (listed : entry ∈ marks) :
    ∀ character ∈ entry.1.toList, isWordCharacter character = false := by
  have all : (marks.all fun entry => entry.1.toList.all fun character =>
      !isWordCharacter character) = true := by decide +kernel
  intro character among
  have outside := List.all_eq_true.mp (List.all_eq_true.mp all entry listed) character among
  rwa [Bool.not_eq_true'] at outside

/-! ## Where pieces begin and end -/

variable {terminal : Terminal} {first : Char} {word rest : List Char}

/-- A piece that begins with a character of a word begins with one of an identifier. -/
theorem Terminal.begins_inWord (among : terminal ∈ terminals)
    (mem : first :: word ∈ terminal.language) (inWord : isWordCharacter first = true) :
    isNamePart first = true := by
  obtain ⟨_, _, split, opener⟩ := Terminal.opens among _ mem
  obtain ⟨rfl, rfl⟩ := List.cons.inj split
  by_contra apart
  rw [isNamePart, Bool.or_eq_true, not_or] at apart
  have visible : isBlank first ≠ true := by
    intro blank
    exact Bool.false_ne_true ((isWordCharacter_of_isBlank blank).symm.trans inWord)
  have unquoted : ¬(first = '"' ∨ first = '\'') := by
    rintro (rfl | rfl)
    · exact absurd inWord (by decide +kernel)
    · exact absurd inWord (by decide +kernel)
  have unslashed : first ≠ '/' := by
    rintro rfl
    exact absurd inWord (by decide +kernel)
  have mark : terminal.opener = .mark := by
    rw [← opener, Opener.of, if_neg visible, if_neg apart.1, if_neg apart.2, if_neg unquoted,
      if_neg unslashed]
  obtain ⟨entry, listed, rfl⟩ := Terminal.eq_mark among mark
  have inMark : first ∈ entry.1.toList := by
    rw [← show first :: word = entry.1.toList from mem]
    exact List.mem_cons_self
  exact Bool.false_ne_true ((isWordCharacter_of_mark listed first inMark).symm.trans inWord)

/-- A character that continues an identifier makes it a longer one. -/
theorem identifier_concat (shaped : word ∈ Pattern.identifier) (part : isNamePart first = true) :
    word ++ [first] ∈ Pattern.identifier := by
  obtain ⟨head, tail, rfl, start, parts⟩ := Pattern.mem_oneOf_mul.mp shaped
  rw [Pattern.mem_oneOf_kstar] at parts
  refine Pattern.mem_oneOf_mul.mpr ⟨head, tail ++ [first], rfl, start, ?_⟩
  apply Pattern.mem_oneOf_kstar.mpr
  intro character inside
  rcases List.mem_append.mp inside with inside | last
  · exact parts character inside
  · rwa [List.mem_singleton.mp last]

/-- No reserved word is taken for itself, since identifiers are tried before. -/
theorem Terminal.Takes.not_reserved {text : List Char} {entry : String × TokenKind}
    (taken : (Terminal.fixed .letter entry).Takes word text) (ahead : word <+: text)
    (listed : entry ∈ TokenKind.words) : False := by
  have shaped : ∀ entry ∈ TokenKind.words, ∃ first rest, entry.1.toList = first :: rest ∧
      isNameStart first = true ∧ rest.all isNamePart = true := by
    intro entry listed
    simp only [TokenKind.words, List.mem_cons, List.not_mem_nil, or_false] at listed
    rcases listed with rfl | rfl | rfl | rfl | rfl | rfl | rfl | rfl | rfl | rfl | rfl | rfl | rfl
    all_goals exact ⟨_, _, rfl, by decide, by decide⟩
  obtain ⟨first, rest, split, start, parts⟩ := shaped entry listed
  have identifier : word ∈ Pattern.identifier := by
    rw [show word = entry.1.toList from taken.mem, split]
    exact Pattern.mem_oneOf_mul.mpr
      ⟨first, rest, rfl, start, Pattern.mem_oneOf_kstar.mpr (List.all_eq_true.mp parts)⟩
  obtain ⟨before, after, order, unmatched⟩ := taken.first
  have others : ∀ entry ∈ TokenKind.words, entry.2 ≠ .identifier := by decide
  -- The terminal of identifiers is the second one.
  match before with
  | [] => exact nomatch congrArg Terminal.opener (List.cons.inj order).1
  | [_] =>
    have kinds := congrArg Terminal.kind (List.cons.inj (List.cons.inj order).2).1
    exact others entry listed (Option.some.inj kinds).symm
  | _ :: second :: _ =>
    obtain rfl : Terminal.identifier = second := (List.cons.inj (List.cons.inj order).2).1
    exact unmatched .identifier (by simp) ⟨word, identifier, ahead⟩

/-- The piece in front of an identifier is a number, or it ends with a character that belongs
to no word. -/
theorem Terminal.Takes.ends (taken : terminal.Takes word (word ++ first :: rest))
    (start : isNameStart first = true) :
    terminal = .number ∨ ∀ last ∈ word.getLast?, isWordCharacter last = false := by
  have among : terminal ∈ terminals := by
    obtain ⟨before, after, split, -⟩ := taken.first
    simp [split]
  have mem := taken.mem
  have longer : terminal.early = false → word ++ [first] ∉ terminal.language := by
    intro late further
    have extent := taken.extent _ further ⟨rest, by simp⟩
    rw [if_neg (Bool.not_eq_true _ ▸ late), List.length_append, List.length_singleton] at extent
    omega
  rcases Terminal.mem_terminals.mp among with (rfl | rfl | rfl | rfl | rfl | rfl) |
    ⟨entry, listed, rfl⟩ | ⟨entry, listed, rfl⟩
  · obtain ⟨quote, body, rfl, isQuote, inside⟩ := mem_string.mp mem
    obtain ⟨front, -, back, ⟨last, same, rfl⟩, rfl⟩ := Language.mem_mul.mp inside
    obtain rfl := beq_iff_eq.mp same
    right
    rw [← List.cons_append, List.getLast?_concat]
    rintro _ ⟨⟩
    rcases isQuote with rfl | rfl
    · decide +kernel
    · decide +kernel
  · have part : isNamePart first = true := by rw [isNamePart, start, Bool.true_or]
    exact absurd (identifier_concat mem part) (longer rfl)
  · exact .inl rfl
  · obtain ⟨body, inside, rfl⟩ := mem_blockComment.mp mem
    obtain ⟨front, rfl⟩ := mem_closed.mp inside
    right
    have ends : '/' :: '*' :: (front ++ ['*', '/']) = '/' :: '*' :: (front ++ ['*']) ++ ['/'] := by
      simp
    rw [ends, List.getLast?_concat]
    rintro _ ⟨⟩
    decide +kernel
  · obtain ⟨body, rfl, lineless⟩ := mem_lineComment.mp mem
    refine absurd (mem_lineComment.mpr ⟨body ++ [first], rfl, ?_⟩) (longer rfl)
    intro character inside
    rcases List.mem_append.mp inside with inside | last
    · exact lineless character inside
    · rw [List.mem_singleton.mp last, bne_iff_ne]
      rintro rfl
      exact absurd start (by decide)
  · right
    intro last isLast
    obtain ⟨head, tail, rfl, blank, blanks⟩ := Pattern.mem_oneOf_mul.mp mem
    apply isWordCharacter_of_isBlank
    rcases List.mem_cons.mp (List.mem_of_getLast? isLast) with rfl | inside
    · exact blank
    · exact Pattern.mem_oneOf_kstar.mp blanks last inside
  · exact (taken.not_reserved (List.prefix_append _ _) listed).elim
  · right
    intro last isLast
    obtain rfl : word = entry.1.toList := mem
    exact isWordCharacter_of_mark listed last (List.mem_of_getLast? isLast)

/-- What is taken from the letter of an identifier on is an identifier. -/
theorem Terminal.Takes.identifier (taken : terminal.Takes word (word ++ rest))
    (shaped : word ∈ Pattern.identifier) : terminal = .identifier := by
  have among : terminal ∈ terminals := by
    obtain ⟨before, after, split, -⟩ := taken.first
    simp [split]
  obtain ⟨first, tail, rfl, start, -⟩ := Pattern.mem_oneOf_mul.mp shaped
  obtain ⟨_, _, split, opener⟩ := Terminal.opens among _ taken.mem
  obtain ⟨rfl, rfl⟩ := List.cons.inj split
  rw [Opener.of_isNameStart start] at opener
  rcases Terminal.mem_terminals.mp among with (rfl | rfl | rfl | rfl | rfl | rfl) |
    ⟨entry, listed, rfl⟩ | ⟨entry, listed, rfl⟩
  all_goals first
    | rfl
    | exact (taken.not_reserved (List.prefix_append _ _) listed).elim
    | cases opener

/-- Behind an identifier no character continues it. -/
theorem Terminal.Takes.stops (taken : Terminal.identifier.Takes word (word ++ first :: rest)) :
    isNamePart first = false := by
  rw [← Bool.not_eq_true]
  intro part
  have extent := taken.extent _ (identifier_concat taken.mem part) ⟨rest, by simp⟩
  rw [Terminal.identifier, if_neg Bool.false_ne_true, List.length_append,
    List.length_singleton] at extent
  omega

/-- The lexeme of a token that is an identifier is its text. -/
theorem Denotes.identifier {token : Token} (denotes : Denotes token word)
    (kind : token.kind = .identifier) :
    word ∈ Pattern.identifier ∧ token.text = String.ofList word := by
  obtain ⟨terminal, among, same, mem⟩ := denotes.pattern
  have value := denotes.value
  rw [kind] at same value
  have kinds : ∀ entry ∈ TokenKind.words ++ marks, entry.2 ≠ .identifier := by decide
  constructor
  · rcases Terminal.mem_terminals.mp among with (rfl | rfl | rfl | rfl | rfl | rfl) |
      ⟨entry, listed, rfl⟩ | ⟨entry, listed, rfl⟩
    all_goals first
      | exact mem
      | cases same
      | exact absurd (Option.some.inj same) (kinds entry (by simp [listed]))
  · rw [Token.text, value]
    rfl

/-- A token whose lexeme is a number is one. -/
theorem Denotes.number {token : Token} (denotes : Denotes token word)
    (mem : word ∈ Pattern.number) : token.kind = .number := by
  obtain ⟨terminal, among, same, otherMem⟩ := denotes.pattern
  have number : Terminal.number ∈ terminals := by simp [terminals, patterns]
  obtain ⟨_, _, rfl, digit⟩ := Terminal.opens number word mem
  obtain ⟨_, _, split, opener⟩ := Terminal.opens among _ otherMem
  obtain ⟨rfl, rfl⟩ := List.cons.inj split
  rw [digit] at opener
  rcases Terminal.mem_terminals.mp among with (rfl | rfl | rfl | rfl | rfl | rfl) |
    ⟨entry, listed, rfl⟩ | ⟨entry, listed, rfl⟩
  all_goals first
    | exact (Option.some.inj same).symm
    | cases opener

/-! ## Identifiers in a layout -/

/-- Where a token that is an identifier stands in a text: behind it no word goes on, and in
front of it one goes on only in a number directly before the token. -/
structure Standing (offset : Nat) (text : List Char) (front : List Token) (token : Token)
    (before word after : List Char) : Prop where
  split : text = before ++ word ++ after
  position : token.offset = offset + before.length
  shaped : word ∈ Pattern.identifier
  text_eq : token.text = String.ofList word
  behind : ∀ next ∈ after.head?, isWordCharacter next = false
  ahead : ∀ last ∈ before.getLast?, isWordCharacter last = true →
    ∃ number ∈ front.getLast?, number.kind = .number

/-- A text that is laid out begins with a character that goes on with a word only if it
continues an identifier. -/
theorem Layout.begins_inWord {offset : Nat} {text : List Char} {tokens : List Token}
    (layout : Layout offset text rest tokens) (begins : first ∈ text.head?)
    (inWord : isWordCharacter first = true) : isNamePart first = true := by
  have taken {terminal : Terminal} {word others behind : List Char}
      (taken : terminal.Takes word behind) (begins : first ∈ (word ++ others).head?) :
      isNamePart first = true := by
    obtain ⟨before, after, split, -⟩ := taken.first
    have among : terminal ∈ terminals := by simp [split]
    have positive := taken.length_pos
    match word, taken.mem with
    | head :: tail, mem =>
      obtain rfl : head = first := Option.some.inj begins
      exact Terminal.begins_inWord among mem inWord
  cases layout with
  | nil => exact nomatch begins
  | gap _ takes _ => exact taken takes begins
  | lexeme _ takes _ _ _ => exact taken takes begins

/-- It stands so behind one more piece. Where the piece is a number directly before the token,
this has to be the last token in front. -/
theorem Standing.push {offset : Nat} {text before shape after : List Char} {front : List Token}
    {token : Token} (earlier : List Token)
    (standing : Standing (offset + word.length) text front token before shape after)
    (taken : terminal.Takes word (word ++ text ++ rest))
    (numbered : terminal = .number → before = [] →
      ∃ number ∈ (earlier ++ front).getLast?, number.kind = .number) :
    Standing offset (word ++ text) (earlier ++ front) token (word ++ before) shape after where
  split := by simp [standing.split]
  position := by
    rw [standing.position, List.length_append]
    omega
  shaped := standing.shaped
  text_eq := standing.text_eq
  behind := standing.behind
  ahead := by
    intro last isLast inWord
    cases before with
    | nil =>
      obtain ⟨head, tail, rfl, start, -⟩ := Pattern.mem_oneOf_mul.mp standing.shaped
      rw [standing.split, List.nil_append, List.append_assoc] at taken
      rw [List.append_nil] at isLast
      rcases taken.ends start with number | outside
      · exact numbered number rfl
      · exact absurd (outside last isLast) (by simp [inWord])
    | cons first others =>
      obtain ⟨number, isNumber, kind⟩ := standing.ahead last (by simpa using isLast) inWord
      rw [Option.mem_def] at isNumber
      exact ⟨number, by simp [isNumber], kind⟩

/-- Every identifier of a layout stands so. -/
theorem Layout.standing {offset : Nat} {text : List Char} {tokens front back : List Token}
    {token : Token} (layout : Layout offset text rest tokens)
    (split : tokens = front ++ token :: back) (kind : token.kind = .identifier) :
    ∃ before word after, Standing offset text front token before word after := by
  induction layout generalizing front with
  | nil => simp at split
  | @gap offset word text rest tokens terminal separates taken _ inductionHypothesis =>
    obtain ⟨before, shape, after, standing⟩ := inductionHypothesis split
    refine ⟨word ++ before, shape, after, standing.push [] taken ?_⟩
    rintro rfl
    exact nomatch separates
  | @lexeme offset word text rest tokens terminal earlier lexical taken denotes position further
      inductionHypothesis =>
    cases front with
    | nil =>
      obtain ⟨rfl, rfl⟩ := List.cons.inj split
      obtain ⟨shaped, text_eq⟩ := denotes.identifier kind
      refine ⟨[], word, text, rfl, by simpa using position, shaped, text_eq, ?_, nofun⟩
      intro next isNext
      rw [← Bool.not_eq_true]
      intro inWord
      have part := further.begins_inWord isNext inWord
      obtain ⟨others, rfl⟩ := List.head?_eq_some_iff.mp isNext
      rw [List.append_assoc, List.cons_append] at taken
      obtain rfl := taken.identifier shaped
      exact Bool.false_ne_true (taken.stops.symm.trans part)
    | cons first front =>
      obtain ⟨rfl, behind⟩ := List.cons.inj split
      obtain ⟨before, shape, after, standing⟩ := inductionHypothesis behind
      refine ⟨word ++ before, shape, after, standing.push [earlier] taken ?_⟩
      rintro rfl rfl
      have number := denotes.number taken.mem
      -- The token stands where the number ends, so there is none between them.
      match front with
      | [] => exact ⟨earlier, rfl, number⟩
      | between :: others =>
        have least := (further.offset_bounds between (by simp [behind])).1
        have increasing := further.increasing
        rw [behind] at increasing
        have apart : between.offset < token.offset :=
          List.rel_of_pairwise_cons increasing (by simp)
        have position := standing.position
        rw [List.length_nil] at position
        omega

end ArrowScript.Lexing
