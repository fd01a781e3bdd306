import Mathlib.Data.List.TakeWhile
import ArrowScript.Editor
import ArrowScript.Proofs.Editor.Positions
import ArrowScript.Proofs.Relocation.Formatting
import ArrowScript.Proofs.Token.Layout

/-!
# Diagnostics at their places

Every diagnostic of a source stands at one of its tokens, or at the character at which there
is none. A stretch of a line is marked for it: no lexeme begins with a line break, and what
is marked behind its first character belongs to a word. Only at the end of the source there
is no character left, and nothing is marked.
-/

namespace ArrowScript

/-! ## The first characters of lexemes -/

namespace Lexing

/-- The words of the terminals with a kind begin with no blank. -/
theorem Terminal.opener_ne_blank {terminal : Terminal} (among : terminal ∈ terminals)
    (lexical : terminal.kind ≠ none) : terminal.opener ≠ .blank := by
  rcases mem_terminals.mp among with (rfl | rfl | rfl | rfl | rfl | rfl) | ⟨_, _, rfl⟩ |
    ⟨_, _, rfl⟩
  case inl.inr.inr.inr.inr.inr => exact absurd rfl lexical
  all_goals exact nofun

/-- A line break separates lexemes. -/
theorem whitespace_matches (rest : List Char) : Terminal.whitespace.Matches ('\n' :: rest) := by
  refine ⟨['\n'], ?_, rest, rfl⟩
  apply Pattern.mem_oneOf_mul.mpr
  refine ⟨'\n', [], rfl, by decide, ?_⟩
  exact Pattern.mem_oneOf_kstar.mpr nofun

/-- An offset is that of a character of a text, which is no line break. -/
def Stands (start : Nat) (text : List Char) (offset : Int) : Prop :=
  ∃ before character after, text = before ++ character :: after ∧
    offset = start + before.length ∧ character ≠ '\n'

/-- It is so behind a word that is put in front. -/
theorem Stands.behind {start : Nat} {text : List Char} {offset : Int} (word : List Char)
    (standing : Stands (start + word.length) text offset) : Stands start (word ++ text) offset := by
  obtain ⟨before, character, after, rfl, stands, unbroken⟩ := standing
  refine ⟨word ++ before, character, after, (List.append_assoc _ _ _).symm, ?_, unbroken⟩
  rw [stands, List.length_append]
  omega

/-- Every token stands at a character of the text, which is no line break. -/
theorem Layout.stands {offset : Nat} {text rest : List Char} {tokens : List Token}
    (layout : Layout offset text rest tokens) :
    ∀ token ∈ tokens, Stands offset text token.offset := by
  induction layout with
  | nil => nofun
  | @gap offset word text rest tokens terminal _ _ _ inductionHypothesis =>
    exact fun token among => (inductionHypothesis token among).behind word
  | @lexeme offset word text rest tokens terminal token lexical taken _ position _
      inductionHypothesis =>
    intro other among
    rcases List.mem_cons.mp among with rfl | later
    · obtain ⟨earlier, others, split, _⟩ := taken.first
      have listed : terminal ∈ terminals := by
        rw [split]
        exact List.mem_append_right _ List.mem_cons_self
      obtain ⟨first, tail, rfl, opener⟩ := Terminal.opens listed word taken.mem
      refine ⟨[], first, tail ++ text, rfl, position, ?_⟩
      rintro rfl
      exact Terminal.opener_ne_blank listed lexical opener.symm
    · exact (inductionHypothesis other later).behind word

end Lexing

namespace Editor

/-! ## Marks -/

/-- A mark at a character that is no line break is a stretch of its line. -/
theorem mark_inside {source : String} {diagnostic : Diagnostic} {before after : List Char}
    {character : Char} (text : source.toList = before ++ character :: after)
    (stands : diagnostic.offset = before.length) (unbroken : character ≠ '\n') :
    ∃ length, 0 < length ∧ (mark source diagnostic).range.stop =
      ⟨(mark source diagnostic).range.start.line,
        (mark source diagnostic).range.start.character + length⟩ := by
  have word : wordFrom source diagnostic.offset =
      (character :: after).takeWhile Text.isWordCharacter := by
    have ahead : ¬(before.length : Int) < 0 := by omega
    rw [wordFrom, charactersFrom, place, stands, text, if_neg ahead, if_neg ahead,
      Int.toNat_natCast, List.drop_left]
  -- At least one character is marked, and all others belong to the word.
  obtain ⟨stretch, behind, split, lineless, length, stop⟩ : ∃ stretch behind,
      character :: after = stretch ++ behind ∧ '\n' ∉ stretch ∧ 0 < stretch.length ∧
        wordEnd source diagnostic.offset = ((before ++ stretch).length : Nat) := by
    rw [wordEnd, word, stands]
    by_cases inWord : Text.isWordCharacter character = true
    · refine ⟨(character :: after).takeWhile Text.isWordCharacter, _,
        (List.takeWhile_append_dropWhile ..).symm, ?_, ?_, ?_⟩
      · intro broken
        have part := List.mem_takeWhile_imp broken
        exact absurd part (by decide)
      · rw [List.takeWhile_cons_of_pos inWord]
        exact Nat.succ_pos _
      · rw [List.takeWhile_cons_of_pos inWord, List.length_append, List.length_cons]
        omega
    · refine ⟨[character], after, rfl, ?_, Nat.one_pos, ?_⟩
      · exact fun broken => unbroken (List.mem_singleton.mp broken).symm
      · rw [List.takeWhile_cons_of_neg inWord, List.length_append, List.length_singleton,
          List.length_nil]
        omega
  have start : (mark source diagnostic).range.start = .after before := by
    change positionAt source diagnostic.offset = _
    rw [positionAt, stands, Int.toNat_natCast, text, List.take_left]
  refine ⟨stretch.length, length, ?_⟩
  change positionAt source (wordEnd source diagnostic.offset) = _
  rw [start, positionAt, stop, Int.toNat_natCast, text, split, ← List.append_assoc, List.take_left,
    Position.after_append _ lineless]

/-- A mark at the end of the source is empty. -/
theorem mark_atEnd {source : String} {diagnostic : Diagnostic}
    (stands : diagnostic.offset = source.length) :
    (mark source diagnostic).range.stop = (mark source diagnostic).range.start := by
  change positionAt source (wordEnd source diagnostic.offset) =
    positionAt source diagnostic.offset
  have beyond : diagnostic.offset + 1 ≤ wordEnd source diagnostic.offset := Int.le_max_right _ _
  have length := String.length_toList (s := source)
  rw [positionAt, positionAt, List.take_of_length_le (by omega), List.take_of_length_le (by omega)]

/-! ## The diagnostics of a source -/

/-- An offset is a place for a diagnostic: that of a token, or of the character at which the
tokens of a source end since no terminal matches. -/
def Located (source : String) (offset : Int) : Prop :=
  match tokenize source with
  | .ok tokens => ∃ token ∈ tokens, offset = token.offset
  | .error _ => ∃ before character after lexed, source.toList = before ++ character :: after ∧
      offset = before.length ∧ Lexing.Layout 0 before (character :: after) lexed ∧
      ∀ terminal ∈ Lexing.terminals, ¬ terminal.Matches (character :: after)

/-- Such a place is the end of the source, or that of a character that is no line break. -/
theorem Located.cases {source : String} {offset : Int} (located : Located source offset) :
    offset = source.length ∨ ∃ before character after,
      source.toList = before ++ character :: after ∧ offset = before.length ∧
        character ≠ '\n' := by
  rw [Located] at located
  split at located
  next tokens tokenized =>
    obtain ⟨token, among, rfl⟩ := located
    obtain ⟨lexed, rfl, layout⟩ := tokenize_lexed tokenized
    rcases List.mem_append.mp among with among | mark
    · obtain ⟨before, character, after, text, stands, unbroken⟩ := layout.stands token among
      refine .inr ⟨before, character, after, text, ?_, unbroken⟩
      omega
    · rw [List.mem_singleton.mp mark]
      exact .inl rfl
  next report failed =>
    obtain ⟨before, character, after, lexed, text, stands, _, unmatched⟩ := located
    refine .inr ⟨before, character, after, text, stands, ?_⟩
    rintro rfl
    exact unmatched _ (by simp [Lexing.terminals, Lexing.patterns])
      (Lexing.whitespace_matches after)

/-- Every diagnostic of a source has a place in it. -/
theorem typecheck_located (source : String) :
    ∀ diagnostic ∈ (typecheck source).2, Located source diagnostic.offset := by
  intro diagnostic found
  rw [Located]
  split
  next tokens tokenized =>
    rw [typecheck_ok tokenized] at found
    obtain ⟨moved, inside⟩ := checkTokens_numbered (getLast?_tokens tokenized) rfl
    rw [moved] at found
    obtain ⟨placed, among, rfl⟩ := List.mem_map.mp found
    obtain ⟨nonnegative, below⟩ := inside placed among
    have within : placed.offset.toNat < tokens.length := by omega
    exact ⟨tokens[placed.offset.toNat], List.getElem_mem within, tokenOffset_eq within⟩
  next report failed =>
    rw [typecheck_error failed] at found
    obtain rfl := List.mem_singleton.mp found
    have outcome := Lexing.tokensFrom_outcome 0 source.toList
    rw [← tokenize, failed] at outcome
    obtain ⟨before, character, after, lexed, text, rfl, layout, unmatched⟩ := outcome
    rw [Nat.zero_add]
    exact ⟨before, character, after, lexed, text, rfl, layout, unmatched⟩

/-- Every diagnostic stands inside the source or at its end, at a token or at the character
at which there is none. Its mark begins there and ends in the same line, and it is empty only
at the end of the source. -/
theorem typecheck_marked (source : String) : ∀ diagnostic ∈ (typecheck source).2,
    0 ≤ diagnostic.offset ∧ diagnostic.offset ≤ source.length ∧
      Located source diagnostic.offset ∧
      (mark source diagnostic).range.start = positionAt source diagnostic.offset ∧
      (mark source diagnostic).range.stop.line = (mark source diagnostic).range.start.line ∧
      ((mark source diagnostic).range.start = (mark source diagnostic).range.stop ↔
        diagnostic.offset = source.length) := by
  intro diagnostic found
  have located := typecheck_located source diagnostic found
  have length := String.length_toList (s := source)
  rcases located.cases with atEnd | ⟨before, character, after, text, stands, unbroken⟩
  · have empty := mark_atEnd atEnd
    refine ⟨by omega, by omega, located, rfl, congrArg Position.line empty, ?_⟩
    exact ⟨fun _ => atEnd, fun _ => empty.symm⟩
  · obtain ⟨taken, positive, stop⟩ := mark_inside text stands unbroken
    rw [text, List.length_append, List.length_cons] at length
    refine ⟨by omega, by omega, located, rfl, ?_, ?_, ?_⟩
    · rw [stop]
    · intro same
      rw [stop] at same
      have column := congrArg Position.character same
      dsimp only at column
      omega
    · intro atEnd
      omega

/-- A character that belongs to no token is marked in its own line. -/
theorem typecheck_marked_unmatched :
    ⟨.unexpectedCharacter '@', 8⟩ ∈ (typecheck "const a\n@ = 1").2 ∧
      0 ≤ (8 : Int) ∧ (8 : Int) ≤ "const a\n@ = 1".length ∧ Located "const a\n@ = 1" 8 ∧
      (mark "const a\n@ = 1" ⟨.unexpectedCharacter '@', 8⟩).range.start =
        positionAt "const a\n@ = 1" 8 ∧
      (mark "const a\n@ = 1" ⟨.unexpectedCharacter '@', 8⟩).range.stop.line =
        (mark "const a\n@ = 1" ⟨.unexpectedCharacter '@', 8⟩).range.start.line ∧
      ((mark "const a\n@ = 1" ⟨.unexpectedCharacter '@', 8⟩).range.start =
          (mark "const a\n@ = 1" ⟨.unexpectedCharacter '@', 8⟩).range.stop ↔
        (8 : Int) = "const a\n@ = 1".length) := by
  have failed : tokenize "const a\n@ = 1" = .error ⟨.unexpectedCharacter '@', 8⟩ := by rfl
  have found : ⟨.unexpectedCharacter '@', 8⟩ ∈ (typecheck "const a\n@ = 1").2 := by
    rw [typecheck_error failed]
    exact List.mem_singleton_self _
  exact ⟨found, typecheck_marked "const a\n@ = 1" _ found⟩

end Editor

end ArrowScript
