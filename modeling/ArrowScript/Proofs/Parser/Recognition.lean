import ArrowScript.Proofs.Parser.Completeness

/-!
# The parser recognizes the grammar

A stream of lexemes is parsed without a diagnostic exactly when the grammar derives it,
and then the tree is the one that the grammar gives. Since the parser returns one tree,
no stream stands for two.
-/

namespace ArrowScript

open Grammar

namespace Cursor

/-- A stream that ends with a mark needs no other. -/
theorem start_marked (tokens : List Token) (offset : Int) :
    start (tokens ++ [.atEnd offset]) =
      { rest := tokens ++ [.atEnd offset], last := .atEnd offset } := by
  have ended : (Token.atEnd offset).kind = .endOfFile := rfl
  simp only [start, stream, List.getLast?_append, List.getLast?_singleton, Option.some_or,
    ended, if_true, Option.getD_some]

end Cursor

/-- What the grammar derives is parsed into its tree without a diagnostic. -/
theorem parseProgram_derived {tokens : List Token} {program : Program}
    (derived : ProgramOf tokens program) (offset : Int) :
    parseProgram (tokens ++ [.atEnd offset]) = (program, []) := by
  obtain ⟨sequence, origin⟩ := derived
  have ends : Next (· = .endOfFile) [.atEnd offset] := .of_cons rfl
  have consumed := Parser.program_consumes sequence ends
  have ran := consumed (.start (tokens ++ [.atEnd offset]))
    (by rw [Cursor.start_marked])
  unfold parseProgram
  rw [ran, Cursor.start_marked]
  obtain ⟨place, body⟩ := program
  obtain rfl : place = 0 := origin
  rfl

/-- Lexemes before a mark are all that is in front of the first mark. -/
theorem eq_of_cut_at_mark {tokens read tail : List Token} {mark : Token} {offset : Int}
    (lexed : ∀ token ∈ tokens, token.Lexed) (kind : mark.kind = .endOfFile)
    (cut : tokens ++ [.atEnd offset] = read ++ mark :: tail) : read = tokens := by
  obtain ⟨others, rfl, rest⟩ | ⟨others, rfl, rest⟩ := List.append_eq_append_iff.mp cut
  · cases others with
    | nil => exact List.append_nil _
    | cons first others =>
        obtain ⟨-, short⟩ := List.cons.inj rest
        exact absurd short.symm (List.append_ne_nil_of_right_ne_nil _ (List.cons_ne_nil _ _))
  · cases others with
    | nil => exact (List.append_nil _).symm
    | cons first others =>
        obtain ⟨rfl, -⟩ := List.cons.inj rest
        exact absurd kind (lexed mark (List.mem_append_right _ List.mem_cons_self)).kind_ne

/-- What is parsed without a diagnostic is derived by the grammar. -/
theorem derived_of_parseProgram {tokens : List Token}
    (lexed : ∀ token ∈ tokens, token.Lexed) {offset : Int}
    (quiet : (parseProgram (tokens ++ [.atEnd offset])).2 = []) :
    ProgramOf tokens (parseProgram (tokens ++ [.atEnd offset])).1 := by
  have begins : (Cursor.start (tokens ++ [.atEnd offset])).rest = tokens ++ [.atEnd offset] := by
    rw [Cursor.start_marked]
  have marked : Marked (Cursor.start (tokens ++ [.atEnd offset])).rest := by
    rw [begins]
    exact .append lexed offset
  unfold parseProgram at quiet ⊢
  rcases ran : Parser.program.runAt (.start (tokens ++ [.atEnd offset]))
    with ⟨diagnostic | program, after⟩
  · rw [ran] at quiet
    exact absurd quiet (List.append_ne_nil_of_right_ne_nil _ (List.cons_ne_nil _ _))
  · rw [ran] at quiet
    obtain ⟨read, cut, derived, mark, tail, ahead, kind⟩ :=
      Parser.program_reads.holds marked ran quiet
    rw [begins, ahead] at cut
    have same := eq_of_cut_at_mark lexed kind cut
    rw [ran]
    exact same ▸ derived

/-- A stream of lexemes is parsed without a diagnostic exactly when the grammar derives it,
and every tree that the grammar gives is the one returned. -/
theorem parseProgram_recognizes {tokens : List Token} (lexed : ∀ token ∈ tokens, token.Lexed)
    (offset : Int) :
    ((parseProgram (tokens ++ [.atEnd offset])).2 = [] ↔ ∃ program, ProgramOf tokens program) ∧
      ∀ program, ProgramOf tokens program →
        (parseProgram (tokens ++ [.atEnd offset])).1 = program := by
  refine ⟨⟨fun quiet => ⟨_, derived_of_parseProgram lexed quiet⟩, ?_⟩, ?_⟩
  · rintro ⟨program, derived⟩
    rw [parseProgram_derived derived offset]
  · intro program derived
    rw [parseProgram_derived derived offset]

/-- The lexemes of `return a ? (b) : (c) => {};`, where a scan for an arrow function may
start at two parentheses. -/
def chosenFunction : List Token :=
  [⟨.returnKeyword, .text "return", 0⟩, ⟨.identifier, .text "a", 7⟩, ⟨.question, .text "?", 9⟩,
    ⟨.leftParen, .text "(", 11⟩, ⟨.identifier, .text "b", 12⟩, ⟨.rightParen, .text ")", 13⟩,
    ⟨.colon, .text ":", 15⟩, ⟨.leftParen, .text "(", 17⟩, ⟨.identifier, .text "c", 18⟩,
    ⟨.rightParen, .text ")", 19⟩, ⟨.arrow, .text "=>", 21⟩, ⟨.leftCurly, .text "\x7b", 24⟩,
    ⟨.rightCurly, .text "\x7d", 25⟩, ⟨.semicolon, .text ";", 26⟩]

/-- The parentheses behind the question mark hold an expression, those behind the colon
parameters. -/
theorem parseProgram_recognizes_chosenFunction :
    (∀ token ∈ chosenFunction, token.Lexed) ∧
      ((parseProgram (chosenFunction ++ [.atEnd 27])).2 = [] ↔
        ∃ program, ProgramOf chosenFunction program) ∧
      ∀ program, ProgramOf chosenFunction program →
        (parseProgram (chosenFunction ++ [.atEnd 27])).1 = program := by
  have lexed : ∀ token ∈ chosenFunction, token.Lexed := by simp [chosenFunction, Token.Lexed]
  exact ⟨lexed, parseProgram_recognizes lexed 27⟩

example : (parseProgram (chosenFunction ++ [.atEnd 27])).2 = [] := by rfl

end ArrowScript
