import ArrowScript.Proofs.Parser.Consumption
import ArrowScript.Parser.Programs

/-!
# Braces and the tokens at which statements end

After an error the parser looks for the end of the statement by counting braces. What it
finds depends on whether the braces ahead are balanced, and a stretch of tokens with
balanced braces is passed as a whole. `Before` describes what is ahead while a statement
is parsed: such a stretch and the semicolon or the closing brace behind it.
-/

namespace ArrowScript

/-- Every opening brace is closed, and every closing brace closes one. -/
inductive Balanced : List Token → Prop where
  | none : Balanced []
  | token {token : Token} {rest : List Token}
      (kind : token.kind ∉ [.leftCurly, .rightCurly]) (following : Balanced rest) :
      Balanced (token :: rest)
  | braces {opening closing : Token} {inner rest : List Token}
      (opens : opening.kind = .leftCurly) (inside : Balanced inner)
      (closes : closing.kind = .rightCurly) (following : Balanced rest) :
      Balanced (opening :: inner ++ closing :: rest)

/-- Lexemes with balanced braces, up to the given token and with it. -/
inductive Before : Token → List Token → Prop where
  | stop {stop : Token} : Before stop [stop]
  | lexeme {stop token : Token} {rest : List Token}
      (kind : token.kind ∉ [.leftCurly, .rightCurly, .endOfFile]) (following : Before stop rest) :
      Before stop (token :: rest)
  | braces {stop opening closing : Token} {inner rest : List Token}
      (opens : opening.kind = .leftCurly) (inside : Before closing inner)
      (closes : closing.kind = .rightCurly) (following : Before stop rest) :
      Before stop (opening :: inner ++ rest)

/-- The kinds of tokens by which statements are divided. -/
def Parser.edges : List TokenKind := [.semicolon, .leftCurly, .rightCurly, .endOfFile]

/-- Balanced lexemes come before any token that is put behind them. -/
theorem Balanced.before {tokens : List Token} (balanced : Balanced tokens)
    (lexemes : ∀ token ∈ tokens, token.kind ≠ .endOfFile) (stop : Token) :
    Before stop (tokens ++ [stop]) := by
  induction balanced generalizing stop with
  | none => exact .stop
  | token kind following inductionHypothesis =>
      obtain ⟨lexeme, others⟩ := List.forall_mem_cons.mp lexemes
      refine .lexeme ?_ (inductionHypothesis others stop)
      simp only [List.mem_cons, not_or] at kind ⊢
      exact ⟨kind.1, kind.2.1, lexeme, List.not_mem_nil⟩
  | @braces opening closing inner rest opens inside closes following nested inductionHypothesis =>
      simp only [List.cons_append, List.forall_mem_cons, List.forall_mem_append] at lexemes
      have cut : opening :: inner ++ closing :: rest ++ [stop] =
          opening :: (inner ++ [closing]) ++ (rest ++ [stop]) := by
        simp only [List.cons_append, List.append_assoc, List.nil_append]
      rw [cut]
      exact .braces opens (nested lexemes.2.1 closing) closes
        (inductionHypothesis lexemes.2.2.2 stop)

namespace Before

variable {stop : Token} {front : List Token}

/-- There is a token ahead: the last one, a lexeme, or a brace that is closed. -/
theorem exists_cons (before : Before stop front) : ∃ token rest, front = token :: rest := by
  cases before with
  | stop => exact ⟨stop, [], rfl⟩
  | lexeme kind following => exact ⟨_, _, rfl⟩
  | braces opens inside closes following => exact ⟨_, _, rfl⟩

/-- The front ends with the token that it comes before. -/
theorem length_pos (before : Before stop front) : 0 < front.length := by
  obtain ⟨token, rest, rfl⟩ := before.exists_cons
  exact Nat.succ_pos _

/-- A token that divides no statements can be taken from the front. -/
theorem tail {token : Token} {rest : List Token} (before : Before stop (token :: rest))
    (ends : stop.kind ∈ [.semicolon, .rightCurly]) (plain : token.kind ∉ Parser.edges) :
    Before stop rest := by
  cases before with
  | stop =>
      exact absurd ((by decide : ∀ kind ∈ [TokenKind.semicolon, .rightCurly],
        kind ∈ Parser.edges) _ ends) plain
  | lexeme _ following => exact following
  | braces opens => exact absurd (by rw [opens]; decide) plain

end Before

namespace Parser

/-- Braces that are closed are skipped with their contents. -/
theorem recoveryPoint_closed {closing : Token} {inner : List Token} (inBlock : Bool) (depth : Nat)
    (inside : Before closing inner) (closes : closing.kind = .rightCurly) (rest : List Token) :
    recoveryPoint inBlock (depth + 1) (inner ++ rest) = recoveryPoint inBlock depth rest := by
  induction inside generalizing depth rest with
  | stop =>
      rw [List.singleton_append, recoveryPoint]
      simp only [closes]
  | @lexeme closing token others kind following inductionHypothesis =>
      have further := inductionHypothesis depth closes rest
      simp only [List.mem_cons, List.not_mem_nil, or_false, not_or] at kind
      rw [List.cons_append, recoveryPoint]
      split
      next mark => exact absurd mark kind.2.2
      next opens => exact absurd opens kind.1
      next other => exact absurd other kind.2.1
      next => exact further
      next => exact further
  | @braces closing opening nestedClosing inner others opens inside ends following nested
      inductionHypothesis =>
      rw [List.cons_append, List.cons_append, List.append_assoc, recoveryPoint]
      simp only [opens]
      rw [nested (depth + 1) ends]
      exact inductionHypothesis depth closes rest

/-- What a statement leaves of a front with so many tokens: fewer of them, or nothing when
it took the semicolon at the end of the front. -/
inductive Remains (stop : Token) (size : Nat) : List Token → Prop where
  | front {left : List Token} (before : Before stop left) (fewer : left.length < size) :
      Remains stop size left
  | nothing (ends : stop.kind = .semicolon) : Remains stop size []

/-- What is left of a front is left of a longer one. -/
theorem Remains.mono {stop : Token} {size larger : Nat} {left : List Token}
    (remains : Remains stop size left) (most : size ≤ larger) : Remains stop larger left := by
  cases remains with
  | front before fewer => exact .front before (Nat.lt_of_lt_of_le fewer most)
  | nothing ends => exact .nothing ends

/-- A token at which the way to the next boundary ends, inside a block or outside. -/
def Boundary (inBlock : Bool) (stop : Token) : Prop :=
  stop.kind = .semicolon ∨ stop.kind = .rightCurly ∧ inBlock = true

section Recovery

variable {stop : Token} {front : List Token} {inBlock : Bool}

/-- The way ends at a semicolon or at a closing brace. -/
theorem Boundary.among (boundary : Boundary inBlock stop) :
    stop.kind ∈ [.semicolon, .rightCurly] := by
  rcases boundary with same | ⟨same, -⟩ <;> rw [same] <;> decide

/-- A token that is no boundary is skipped, together with the braces that it opens. -/
theorem recoveryPoint_skip (before : Before stop front) (boundary : Boundary inBlock stop)
    (skipped : Next (· ∉ [.semicolon, .rightCurly]) front) :
    ∃ further, Before stop further ∧ further.length < front.length ∧
      ∀ rest, recoveryPoint inBlock 0 (front ++ rest) =
        recoveryPoint inBlock 0 (further ++ rest) := by
  cases before with
  | stop =>
      obtain ⟨_, _, same, absent⟩ := skipped
      obtain ⟨rfl, -⟩ := List.cons.inj same
      exact absurd boundary.among absent
  | @lexeme _ token others kind following =>
      refine ⟨others, following, Nat.lt_succ_self _, fun rest => ?_⟩
      simp only [List.mem_cons, List.not_mem_nil, or_false, not_or] at kind
      rw [List.cons_append, recoveryPoint]
      split
      next mark => exact absurd mark kind.2.2
      next opens => exact absurd opens kind.1
      next other => exact absurd other kind.2.1
      next other =>
        obtain ⟨_, _, same, absent⟩ := skipped
        obtain ⟨rfl, -⟩ := List.cons.inj same
        exact absurd (by rw [other]; decide) absent
      next => rfl
  | @braces _ opening closing inner others opens inside closes following =>
      refine ⟨others, following, ?_, fun rest => ?_⟩
      · simp only [List.cons_append, List.length_cons, List.length_append]
        omega
      · rw [List.cons_append, List.cons_append, List.append_assoc, recoveryPoint]
        simp only [opens]
        exact recoveryPoint_closed inBlock 0 inside closes (others ++ rest)

/-- The next boundary is within the front or at its end. -/
theorem recoveryPoint_remains (before : Before stop front) (boundary : Boundary inBlock stop) :
    ∃ left, Remains stop (front.length + 1) left ∧
      ∀ rest, recoveryPoint inBlock 0 (front ++ rest) = left ++ rest := by
  induction size : front.length using Nat.strongRecOn generalizing front with
  | _ size inductionHypothesis =>
    subst size
    by_cases skipped : Next (· ∉ [.semicolon, .rightCurly]) front
    · obtain ⟨further, following, fewer, same⟩ := recoveryPoint_skip before boundary skipped
      obtain ⟨left, remains, found⟩ := inductionHypothesis _ fewer following rfl
      exact ⟨left, remains.mono (by omega), fun rest => (same rest).trans (found rest)⟩
    · cases before with
      | stop =>
          rcases boundary with semicolon | ⟨closes, rfl⟩
          · refine ⟨[], .nothing semicolon, fun rest => ?_⟩
            rw [List.singleton_append, recoveryPoint]
            simp only [semicolon, if_true, List.nil_append]
          · refine ⟨[stop], .front .stop (Nat.lt_succ_self _), fun rest => ?_⟩
            rw [List.singleton_append, recoveryPoint]
            simp only [closes, if_true]
      | @lexeme _ token others kind following =>
          have semicolon : token.kind = .semicolon := by
            refine Decidable.byContradiction fun other => skipped (.of_cons ?_)
            simp only [List.mem_cons, List.not_mem_nil, or_false, not_or] at kind ⊢
            exact ⟨other, kind.2.1⟩
          refine ⟨others, .front following ?_, fun rest => ?_⟩
          · exact Nat.lt_succ_of_lt (Nat.lt_succ_self _)
          · rw [List.cons_append, recoveryPoint]
            simp only [semicolon, if_true]
      | braces opens => exact absurd (.of_cons (by rw [opens]; decide)) skipped

/-- The next boundary is behind a token that is none. -/
theorem recoveryPoint_fewer (before : Before stop front) (boundary : Boundary inBlock stop)
    (skipped : Next (· ∉ [.semicolon, .rightCurly]) front) :
    ∃ left, Remains stop front.length left ∧
      ∀ rest, recoveryPoint inBlock 0 (front ++ rest) = left ++ rest := by
  obtain ⟨further, following, fewer, same⟩ := recoveryPoint_skip before boundary skipped
  obtain ⟨left, remains, found⟩ := recoveryPoint_remains following boundary
  exact ⟨left, remains.mono fewer, fun rest => (same rest).trans (found rest)⟩

end Recovery

end Parser

end ArrowScript
