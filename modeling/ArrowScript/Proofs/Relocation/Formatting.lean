import ArrowScript.Proofs.Compilation.Stages
import ArrowScript.Proofs.Relocation.Inference
import ArrowScript.Proofs.Relocation.Parsing

/-!
# Formatting

Blanks and comments between the tokens of a source only change the offsets of the tokens.
All stages take relocated data to relocated data, so what they find in one formatting of
a source is found at the same tokens in every other.

To compare two formattings, their tokens are numbered: a list of tokens that stand at
their own places is relocated to each of the two. It also shows that a diagnostic never
stands anywhere but at a token. A change of the offsets that fixes exactly the places of
the tokens fixes the numbered tokens, hence all diagnostics.
-/

namespace ArrowScript

variable {move : Int → Int}

/-! ## The statements of a relocated tree -/

mutual

/-- The statements in a relocated expression. -/
theorem Expression.statements_relocate (depth : Nat) (expression : Expression) :
    (relocate move expression).statements depth =
      relocate move (expression.statements depth) := by
  match expression with
  | .number _ _ | .string _ _ | .boolean _ _ | .identifier _ => rfl
  | .array _ elements => exact Expression.statementsOf_relocate depth elements
  | .member _ object index =>
    change (relocate move object).statements depth ++ (relocate move index).statements depth =
      relocate move (object.statements depth ++ index.statements depth)
    rw [Expression.statements_relocate depth object, Expression.statements_relocate depth index,
      relocate_append]
  | .binary _ left _ right =>
    change (relocate move left).statements depth ++ (relocate move right).statements depth =
      relocate move (left.statements depth ++ right.statements depth)
    rw [Expression.statements_relocate depth left, Expression.statements_relocate depth right,
      relocate_append]
  | .conditional _ test consequent alternate =>
    change (relocate move test).statements depth ++ (relocate move consequent).statements depth ++
        (relocate move alternate).statements depth =
      relocate move (test.statements depth ++ consequent.statements depth ++
        alternate.statements depth)
    rw [Expression.statements_relocate depth test, Expression.statements_relocate depth consequent,
      Expression.statements_relocate depth alternate, relocate_append, relocate_append]
  | .arrow _ _ _ { statements, .. } => exact Statement.listed_relocate (depth + 1) statements
  | .call _ callee arguments =>
    change (relocate move callee).statements depth ++
        Expression.statementsOf depth (Expression.relocatedAll move arguments) =
      relocate move (callee.statements depth ++ Expression.statementsOf depth arguments)
    rw [Expression.statements_relocate depth callee,
      Expression.statementsOf_relocate depth arguments, relocate_append]

/-- The statements in several relocated expressions. -/
theorem Expression.statementsOf_relocate (depth : Nat) (expressions : List Expression) :
    Expression.statementsOf depth (Expression.relocatedAll move expressions) =
      relocate move (Expression.statementsOf depth expressions) := by
  match expressions with
  | [] => rfl
  | expression :: rest =>
    change (relocate move expression).statements depth ++ _ =
      relocate move (expression.statements depth ++ _)
    rw [Expression.statements_relocate depth expression,
      Expression.statementsOf_relocate depth rest, relocate_append]

/-- The statements inside a relocated statement. -/
theorem Statement.inside_relocate (depth : Nat) (statement : Statement) :
    (relocate move statement).inside depth = relocate move (statement.inside depth) := by
  match statement with
  | .constant _ _ _ initial _ => exact Expression.statements_relocate depth initial
  | .returning _ (some argument) _ => exact Expression.statements_relocate depth argument
  | .returning _ none _ => rfl

/-- Several relocated statements with all statements inside them. -/
theorem Statement.listed_relocate (depth : Nat) (statements : List Statement) :
    Statement.listed depth (Statement.relocatedAll move statements) =
      relocate move (Statement.listed depth statements) := by
  match statements with
  | [] => rfl
  | statement :: rest =>
    change (depth, relocate move statement) :: ((relocate move statement).inside depth ++ _) =
      (depth, relocate move statement) :: relocate move (statement.inside depth ++ _)
    rw [Statement.inside_relocate depth statement, Statement.listed_relocate depth rest,
      relocate_append]

end

/-- The statements of a relocated program. -/
theorem Program.statements_relocate (program : Program) :
    (relocate move program).statements = relocate move program.statements := by
  change Statement.listed 0 (relocate move program.body) = _
  rw [← Statement.relocatedAll_eq]
  exact Statement.listed_relocate 0 program.body

/-- The type of a relocated statement. -/
theorem Statement.inferred_relocate (statement : Statement) :
    (relocate move statement).inferred = statement.inferred := by
  cases statement with
  | constant => rfl
  | returning _ argument => cases argument <;> rfl

/-! ## All stages -/

/-- What all stages make of relocated tokens. -/
theorem checkTokens_relocate (move : Int → Int) {tokens : List Token} {mark : Token}
    (final : tokens.getLast? = some mark) (kind : mark.kind = .endOfFile) :
    checkTokens (relocate move tokens) = relocate move (checkTokens tokens) := by
  have parsed := parseProgram_relocate move final kind
  obtain ⟨tree, naming⟩ := Program.resolve_relocate move (parseProgram tokens).1
  have checks := Program.validate_relocate move (parseProgram tokens).1
  have inferred := Program.infer_relocate move (parseProgram tokens).1.resolve.program
  rw [checkTokens, parsed]
  change ((relocate move (parseProgram tokens).1).resolve.program.infer.1,
    relocate move (parseProgram tokens).2 ++ ((relocate move (parseProgram tokens).1).validate ++
      (relocate move (parseProgram tokens).1).resolve.diagnostics ++
      (relocate move (parseProgram tokens).1).resolve.program.infer.2)) = _
  rw [tree, naming, checks, inferred]
  change (_, _ ++ (_ ++ _ ++ relocate move _)) = _
  rw [← relocate_append, ← relocate_append, ← relocate_append]
  rfl

/-! ## Numbered tokens -/

/-- The tokens of a list, each at its own place in it. -/
def numbered (tokens : List Token) : List Token :=
  tokens.mapIdx fun place token => { token with offset := place }

/-- The offset of the token at a place of a list. -/
def tokenOffset (tokens : List Token) (place : Int) : Int :=
  (tokens[place.toNat]?.map (·.offset)).getD 0

/-- Changes the numbers that are no places of a list with so many members. -/
def keepPlaces (count : Nat) (place : Int) : Int :=
  if 0 ≤ place ∧ place < count then place else place + 1

/-- The offset of a token, by its place. -/
theorem tokenOffset_eq {tokens : List Token} {place : Int} (inside : place.toNat < tokens.length) :
    tokenOffset tokens place = tokens[place.toNat].offset := by
  rw [tokenOffset, List.getElem?_eq_getElem inside]
  rfl

/-- Numbered tokens are the tokens, before they were moved to their offsets. -/
theorem relocate_numbered (tokens : List Token) :
    relocate (tokenOffset tokens) (numbered tokens) = tokens := by
  refine List.ext_getElem? fun place => ?_
  change ((numbered tokens).map _)[place]? = _
  rw [List.getElem?_map, numbered, List.getElem?_mapIdx]
  cases here : tokens[place]? with
  | none => rfl
  | some token =>
    refine congrArg some ?_
    change { token with offset := tokenOffset tokens place } = token
    rw [tokenOffset, Int.toNat_natCast, here]
    rfl

/-- Numbered tokens stand at places of their list. -/
theorem keepPlaces_numbered (tokens : List Token) :
    relocate (keepPlaces tokens.length) (numbered tokens) = numbered tokens := by
  refine List.ext_getElem? fun place => ?_
  change ((numbered tokens).map _)[place]? = _
  rw [List.getElem?_map, numbered, List.getElem?_mapIdx]
  cases here : tokens[place]? with
  | none => rfl
  | some token =>
    have inside : place < tokens.length := (List.getElem?_eq_some_iff.mp here).1
    refine congrArg some ?_
    change { token with offset := keepPlaces tokens.length place } = { token with offset := _ }
    rw [keepPlaces, if_pos (by omega)]

/-- The numbered tokens end as the tokens do. -/
theorem getLast?_numbered {tokens : List Token} {mark : Token}
    (final : tokens.getLast? = some mark) :
    ∃ last, (numbered tokens).getLast? = some last ∧ last.kind = mark.kind := by
  rw [List.getLast?_eq_getElem?] at final
  refine ⟨{ mark with offset := (tokens.length - 1 : Nat) }, ?_, rfl⟩
  rw [List.getLast?_eq_getElem?, numbered, List.length_mapIdx, List.getElem?_mapIdx, final]
  rfl

/-- All stages on tokens, in terms of the numbered ones. -/
theorem checkTokens_numbered {tokens : List Token} {mark : Token}
    (final : tokens.getLast? = some mark) (kind : mark.kind = .endOfFile) :
    checkTokens tokens = relocate (tokenOffset tokens) (checkTokens (numbered tokens)) ∧
      ∀ diagnostic ∈ (checkTokens (numbered tokens)).2,
        0 ≤ diagnostic.offset ∧ diagnostic.offset < tokens.length := by
  obtain ⟨last, ends, same⟩ := getLast?_numbered final
  rw [kind] at same
  constructor
  · rw [← checkTokens_relocate _ ends same, relocate_numbered]
  · intro diagnostic found
    have kept := checkTokens_relocate (keepPlaces tokens.length) ends same
    rw [keepPlaces_numbered] at kept
    have all : (checkTokens (numbered tokens)).2.map (relocate (keepPlaces tokens.length)) =
        (checkTokens (numbered tokens)).2.map id :=
      (congrArg Prod.snd kept).symm.trans (List.map_id _).symm
    have fixed : keepPlaces tokens.length diagnostic.offset = diagnostic.offset :=
      congrArg Diagnostic.offset (List.map_inj_left.mp all diagnostic found)
    rw [keepPlaces] at fixed
    split at fixed
    · assumption
    · omega

/-! ## Two formattings -/

section Agreeing

variable {tokens others : List Token}
  (agree : List.Forall₂ (fun token further =>
    token.kind = further.kind ∧ token.value = further.value) tokens others)

include agree

/-- Tokens that agree are numbered alike. -/
theorem numbered_eq : numbered tokens = numbered others := by
  have length := agree.length_eq
  have lengths : (numbered tokens).length = (numbered others).length := by
    rw [numbered, numbered, List.length_mapIdx, List.length_mapIdx, length]
  refine List.ext_getElem lengths fun place inside within => ?_
  rw [numbered, List.length_mapIdx] at inside within
  simp only [numbered, List.getElem_mapIdx]
  have same := agree.get inside within
  rw [List.get_eq_getElem, List.get_eq_getElem] at same
  rw [same.1, same.2]

/-- Tokens that agree are equal once their offsets are forgotten. -/
theorem forgotten_eq : relocate (fun _ => 0) tokens = relocate (fun _ => 0) others := by
  induction agree with
  | nil => rfl
  | cons same _ inductionHypothesis =>
    refine congrArg₂ List.cons ?_ inductionHypothesis
    exact congrArg₂ (Token.mk · · 0) same.1 same.2

end Agreeing

/-- What two sources of the same tokens have in common once they are checked. -/
structure CheckedAlike (tokens others : List Token) (one other : Program × List Diagnostic) :
    Prop where
  /-- The trees are equal once all offsets are forgotten. -/
  tree : relocate (fun _ => 0) one.1 = relocate (fun _ => 0) other.1
  /-- Corresponding statements are of the same kind, at the same depth, with types that
  are printed alike. -/
  types : List.Forall₂ (fun typed retyped => typed.1 = retyped.1 ∧
      typed.2.isReturn = retyped.2.isReturn ∧
      typed.2.inferred.map Ty.text = retyped.2.inferred.map Ty.text)
    one.1.statements other.1.statements
  /-- Corresponding diagnostics have the same code and the same message and stand at the
  offsets of corresponding tokens. -/
  diagnostics : List.Forall₂ (fun found refound =>
      found.code = refound.code ∧ found.message = refound.message ∧
      ∃ (place : Nat) (token further : Token),
        tokens[place]? = some token ∧ others[place]? = some further ∧
          found.offset = token.offset ∧ refound.offset = further.offset)
    one.2 other.2

/-- Formatting never changes the result. Two sources whose tokens agree in kind and value
have the same tree up to offsets, the same types, and the same diagnostics at the same
tokens. The value of a numeral includes whether it was written with a fraction. -/
theorem typecheck_formatting {one other : String} {tokens others : List Token}
    (tokenized : tokenize one = .ok tokens) (retokenized : tokenize other = .ok others)
    (agree : List.Forall₂ (fun token further =>
      token.kind = further.kind ∧ token.value = further.value) tokens others) :
    CheckedAlike tokens others (typecheck one) (typecheck other) := by
  have final := getLast?_tokens tokenized
  have refinal := getLast?_tokens retokenized
  rw [typecheck_ok tokenized, typecheck_ok retokenized]
  obtain ⟨moved, inside⟩ := checkTokens_numbered final rfl
  obtain ⟨removed, _⟩ := checkTokens_numbered refinal rfl
  rw [← numbered_eq agree] at removed
  refine ⟨?_, ?_, ?_⟩
  · have forgotten := (checkTokens_relocate (fun _ => 0) final rfl).symm.trans
      ((congrArg checkTokens (forgotten_eq agree)).trans (checkTokens_relocate _ refinal rfl))
    exact congrArg Prod.fst forgotten
  · rw [moved, removed]
    generalize checkTokens (numbered tokens) = checked
    change List.Forall₂ _ (relocate (tokenOffset tokens) checked.1).statements
      (relocate (tokenOffset others) checked.1).statements
    rw [Program.statements_relocate, Program.statements_relocate]
    refine List.forall₂_map_left_iff.mpr (List.forall₂_map_right_iff.mpr
      (List.forall₂_same.mpr fun entry _ => ⟨rfl, ?_, ?_⟩))
    · exact (Statement.isReturn_relocate _ entry.2).trans
        (Statement.isReturn_relocate _ entry.2).symm
    · exact congrArg (Option.map Ty.text)
        ((Statement.inferred_relocate entry.2).trans (Statement.inferred_relocate entry.2).symm)
  · rw [moved, removed]
    refine List.forall₂_map_left_iff.mpr (List.forall₂_map_right_iff.mpr
      (List.forall₂_same.mpr fun found among => ⟨rfl, rfl, found.offset.toNat, ?_⟩))
    obtain ⟨nonnegative, below⟩ := inside found among
    have first : found.offset.toNat < tokens.length := by omega
    have second : found.offset.toNat < others.length := agree.length_eq ▸ first
    refine ⟨tokens[found.offset.toNat], others[found.offset.toNat], List.getElem?_eq_getElem first,
      List.getElem?_eq_getElem second, ?_, ?_⟩
    · exact tokenOffset_eq first
    · exact tokenOffset_eq second

/-- A name that is declared twice and one that is not declared at all are reported alike
with and without blanks and comments. -/
theorem typecheck_formatting_comments :
    ∃ tokens others, tokenize "const a=b const a=1" = .ok tokens ∧
      tokenize "const a = b // const\nconst /* a */ a = 1" = .ok others ∧
      List.Forall₂ (fun token further =>
        token.kind = further.kind ∧ token.value = further.value) tokens others ∧
      CheckedAlike tokens others (typecheck "const a=b const a=1")
        (typecheck "const a = b // const\nconst /* a */ a = 1") := by
  have tokenized : tokenize "const a=b const a=1" =
      .ok ((tokenize "const a=b const a=1").toOption.getD []) := by rfl
  have retokenized : tokenize "const a = b // const\nconst /* a */ a = 1" =
      .ok ((tokenize "const a = b // const\nconst /* a */ a = 1").toOption.getD []) := by rfl
  have agree : List.Forall₂ (fun token further =>
      token.kind = further.kind ∧ token.value = further.value)
      ((tokenize "const a=b const a=1").toOption.getD [])
      ((tokenize "const a = b // const\nconst /* a */ a = 1").toOption.getD []) := by decide
  exact ⟨_, _, tokenized, retokenized, agree, typecheck_formatting tokenized retokenized agree⟩

end ArrowScript
