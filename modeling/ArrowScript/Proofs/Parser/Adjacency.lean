import Mathlib.Data.List.Chain
import ArrowScript.Proofs.Parser.Completeness

/-!
# What stands side by side

Two lexemes may stand side by side without a gap. A digit may not begin an identifier, so a
number and an identifier behind it are two tokens even then, and only the grammar keeps them
apart: nothing that it derives has a number directly before an identifier. What may follow an
expression is never an identifier, and what an identifier may follow is never a number.

Parts that repeat are handled for any rule for one part. The rules for expressions hold of at
most so many tokens, by induction on that bound.
-/

namespace ArrowScript

/-- No number stands directly before an identifier. -/
def Apart (tokens : List Token) : Prop :=
  tokens.IsChain fun one next => one.kind = .number → next.kind ≠ .identifier

/-- The first token, if there is one, is no identifier. -/
def Clear (tokens : List Token) : Prop := ∀ next ∈ tokens.head?, next.kind ≠ .identifier

namespace Apart

variable {token : Token} {tokens others : List Token}

/-- No tokens. -/
theorem nil : Apart [] := List.IsChain.nil

/-- A single token. -/
theorem single (token : Token) : Apart [token] := List.IsChain.singleton token

/-- A token in front that is no number. -/
theorem cons (other : token.kind ≠ .number) (apart : Apart tokens) : Apart (token :: tokens) := by
  apply List.isChain_cons.mpr
  constructor
  · intro next _ number
    exact absurd number other
  · exact apart

/-- Tokens behind that do not begin with an identifier. -/
theorem append (apart : Apart tokens) (clear : Clear others) (further : Apart others) :
    Apart (tokens ++ others) := by
  apply List.isChain_append.mpr
  exact ⟨apart, further, fun one _ next isNext _ => clear next isNext⟩

end Apart

/-- Tokens that begin with one that is known. -/
theorem Clear.cons {token : Token} {tokens : List Token} (other : token.kind ≠ .identifier) :
    Clear (token :: tokens) := by
  rintro _ ⟨⟩
  exact other

/-- No tokens begin with an identifier. -/
theorem Clear.nil : Clear [] := nofun

/-- Tokens that begin with one of a known kind. -/
theorem Clear.of_next {holds : TokenKind → Prop} {tokens : List Token} (next : Next holds tokens)
    (other : ¬ holds .identifier) : Clear tokens := by
  obtain ⟨token, tail, rfl, satisfied⟩ := next
  exact .cons fun same => other (same ▸ satisfied)

/-- A part between two tokens. -/
theorem Apart.enclosed {opening closing : Token} {inner others : List Token}
    (opens : opening.kind ≠ .number) (inside : Apart inner) (closes : closing.kind ≠ .identifier)
    (further : Apart (closing :: others)) : Apart (opening :: inner ++ closing :: others) :=
  (inside.cons opens).append (.cons closes) further

namespace Grammar

/-- What a rule derives from at most so many tokens has no number before an identifier. -/
def Separates {α : Type} (Rule : List Token → α → Prop) (limit : Nat) : Prop :=
  ∀ tokens tree, Rule tokens tree → tokens.length ≤ limit → Apart tokens

/-- The kind of a token is known to be another. -/
theorem kind_ne {token : Token} {kind other : TokenKind} (same : token.kind = kind)
    (differs : kind ≠ other) : token.kind ≠ other := same ▸ differs

/-! ## Lists -/

section Lists

variable {α : Type} {Item : List Token → α → Prop} {limit : Nat} {tokens : List Token}

/-- Items after commas. -/
theorem Following.apart {trees : List α} (following : Following Item tokens trees)
    (separates : Separates Item limit) (short : tokens.length ≤ limit) :
    Clear tokens ∧ Apart tokens := by
  induction following with
  | none => exact ⟨.nil, .nil⟩
  | item separator first _ inductionHypothesis =>
    simp only [List.cons_append, List.length_cons, List.length_append] at short
    obtain ⟨clear, further⟩ := inductionHypothesis (by omega)
    have one := separates _ _ first (by omega)
    constructor
    · exact .cons (kind_ne separator (by decide))
    · exact (one.append clear further).cons (kind_ne separator (by decide))

/-- Items separated by commas. -/
theorem Enumeration.apart {trees : List α} (items : Enumeration Item tokens trees)
    (separates : Separates Item limit) (short : tokens.length ≤ limit) : Apart tokens := by
  cases items with
  | none => exact .nil
  | items first following =>
    rw [List.length_append] at short
    obtain ⟨clear, further⟩ := following.apart separates (by omega)
    exact (separates _ _ first (by omega)).append clear further

/-- A part that may be left out. -/
theorem Optional.apart {tree : Option α} (part : Optional Item tokens tree)
    (separates : Separates Item limit) (short : tokens.length ≤ limit) : Apart tokens := by
  cases part with
  | absent => exact .nil
  | present part => exact separates _ _ part short

end Lists

/-! ## Types -/

section Types

variable {rejectAny : Bool} {tokens : List Token} {limit : Nat}

/-- Pairs of brackets. -/
theorem Marks.apart {element result : Ascription} (marks : Marks tokens element result) :
    Clear tokens ∧ Apart tokens := by
  induction marks with
  | none => exact ⟨.nil, .nil⟩
  | mark opens closes _ inductionHypothesis =>
    constructor
    · exact .cons (kind_ne opens (by decide))
    · exact (inductionHypothesis.2.cons (kind_ne closes (by decide))).cons
        (kind_ne opens (by decide))

/-- An annotation, given what holds of the types in it. -/
theorem AnnotationOf.apart {type : Ascription} (derived : AnnotationOf rejectAny tokens type)
    (separates : Separates (TypeOf rejectAny) limit) (short : tokens.length ≤ limit + 1) :
    Apart tokens := by
  cases derived with
  | colon kind type =>
    rw [List.length_cons] at short
    exact (separates _ _ type (by omega)).cons (kind_ne kind (by decide))

/-- An annotation that may be left out. -/
theorem annotated_apart {type : Option Ascription}
    (annotated : Optional (AnnotationOf rejectAny) tokens type)
    (separates : Separates (TypeOf rejectAny) limit) (short : tokens.length ≤ limit + 1) :
    Clear tokens ∧ Apart tokens := by
  cases annotated with
  | absent => exact ⟨.nil, .nil⟩
  | present derived =>
    constructor
    · obtain ⟨kind, -⟩ := derived
      exact .cons (kind_ne kind (by decide))
    · exact derived.apart separates short

/-- A parameter, given what holds of the types in it. -/
theorem ParameterOf.apart (separates : Separates (TypeOf rejectAny) limit) :
    Separates (ParameterOf rejectAny) (limit + 1) := by
  rintro _ _ ⟨kind, annotated⟩ short
  rw [List.length_cons] at short
  exact (annotated_apart annotated separates (by omega)).2.cons (kind_ne kind (by decide))

/-- Types. -/
theorem TypeOf.apart (limit : Nat) : Separates (TypeOf rejectAny) limit := by
  induction limit with
  | zero =>
    intro tokens type derived short
    rw [List.length_eq_zero_iff.mp (Nat.le_zero.mp short)]
    exact .nil
  | succ limit inductionHypothesis =>
    intro tokens type derived short
    cases derived with
    | simple first marks =>
      refine Apart.append ?_ marks.apart.1 marks.apart.2
      cases first with
      | primitive => exact .single _
      | named => exact .single _
      | array kind opens elements closes =>
        simp only [List.cons_append, List.length_cons, List.length_append] at short
        have inside := inductionHypothesis _ _ elements (by omega)
        exact (inside.enclosed (kind_ne opens (by decide)) (kind_ne closes (by decide))
          (.single _)).cons (kind_ne kind (by decide))
    | function opens inputs closes points outputs =>
      simp only [List.cons_append, List.length_cons, List.length_append] at short
      have params := inputs.apart (ParameterOf.apart inductionHypothesis) (by omega)
      have result := inductionHypothesis _ _ outputs (by omega)
      exact params.enclosed (kind_ne opens (by decide)) (kind_ne closes (by decide))
        ((result.cons (kind_ne points (by decide))).cons (kind_ne closes (by decide)))

/-- The part of an arrow function before its arrow. -/
theorem ArrowHead.apart {head : List Parameter × Option Ascription}
    (derived : ArrowHead rejectAny tokens head) : Apart tokens := by
  obtain ⟨opens, inputs, closes, annotated⟩ := derived
  have params := inputs.apart (ParameterOf.apart (TypeOf.apart _)) (Nat.le_succ _)
  have result := (annotated_apart annotated (TypeOf.apart _) (Nat.le_succ _)).2
  exact params.enclosed (kind_ne opens (by decide)) (kind_ne closes (by decide))
    (result.cons (kind_ne closes (by decide)))

end Types

/-! ## Expressions and statements -/

section Expressions

variable {tokens : List Token} {limit : Nat}

/-- Argument lists and indices. -/
theorem Applications.apart {applied result : Expression}
    (applications : Applications ExpressionOf tokens applied result)
    (separates : Separates ExpressionOf limit) (short : tokens.length ≤ limit) :
    Clear tokens ∧ Apart tokens := by
  induction applications with
  | none => exact ⟨.nil, .nil⟩
  | call opens inputs closes _ inductionHypothesis =>
    simp only [List.cons_append, List.length_cons, List.length_append] at short
    have further := (inductionHypothesis (by omega)).2.cons (kind_ne closes (by decide))
    constructor
    · exact .cons (kind_ne opens (by decide))
    · exact (inputs.apart separates (by omega)).enclosed (kind_ne opens (by decide))
        (kind_ne closes (by decide)) further
  | index opens inside closes _ inductionHypothesis =>
    simp only [List.cons_append, List.length_cons, List.length_append] at short
    have further := (inductionHypothesis (by omega)).2.cons (kind_ne closes (by decide))
    constructor
    · exact .cons (kind_ne opens (by decide))
    · exact (separates _ _ inside (by omega)).enclosed (kind_ne opens (by decide))
        (kind_ne closes (by decide)) further

/-- Operands after plus signs. -/
theorem Sums.apart {left result : Expression} (sums : Sums OperandOf tokens left result)
    (separates : Separates OperandOf limit) (short : tokens.length ≤ limit) :
    Clear tokens ∧ Apart tokens := by
  induction sums with
  | none => exact ⟨.nil, .nil⟩
  | plus kind operand _ inductionHypothesis =>
    simp only [List.cons_append, List.length_cons, List.length_append] at short
    obtain ⟨clear, further⟩ := inductionHypothesis (by omega)
    constructor
    · exact .cons (kind_ne kind (by decide))
    · exact ((separates _ _ operand (by omega)).append clear further).cons
        (kind_ne kind (by decide))

/-- Statements and stray semicolons. -/
theorem Sequence.apart {trees : List Statement} (sequence : Sequence StatementOf tokens trees)
    (separates : Separates StatementOf limit) (short : tokens.length ≤ limit) :
    Clear tokens ∧ Apart tokens := by
  induction sequence with
  | none => exact ⟨.nil, .nil⟩
  | semicolon kind _ inductionHypothesis =>
    rw [List.length_cons] at short
    constructor
    · exact .cons (kind_ne kind (by decide))
    · exact (inductionHypothesis (by omega)).2.cons (kind_ne kind (by decide))
  | statement first _ inductionHypothesis =>
    rw [List.length_append] at short
    obtain ⟨clear, further⟩ := inductionHypothesis (by omega)
    constructor
    · exact .of_next ((Parser.statement_next first).append _) (by decide)
    · exact (separates _ _ first (by omega)).append clear further

/-- An optional semicolon. -/
theorem Closing.apart (closing : Closing .semicolon tokens) : Clear tokens ∧ Apart tokens := by
  cases closing with
  | absent => exact ⟨.nil, .nil⟩
  | present same => exact ⟨.cons (kind_ne same (by decide)), .single _⟩

/-- A statement, given what holds of the expressions in it. -/
theorem StatementOf.apart (separates : Separates ExpressionOf limit) :
    Separates StatementOf (limit + 1) := by
  intro tokens tree derived short
  cases derived with
  | constant kind names types equals value ends =>
    simp only [List.cons_append, List.length_cons, List.length_append] at short
    obtain ⟨clear, ascribed⟩ := annotated_apart types (TypeOf.apart _) (Nat.le_succ _)
    have initial := (separates _ _ value (by omega)).cons (kind_ne equals (by decide))
    have head := (ascribed.cons (kind_ne names (by decide))).cons (kind_ne kind (by decide))
    exact (head.append (.cons (kind_ne equals (by decide))) initial).append ends.apart.1
      ends.apart.2
  | returning kind value ends =>
    simp only [List.cons_append, List.length_cons, List.length_append] at short
    have argument := (value.apart separates (by omega)).cons (kind_ne kind (by decide))
    exact argument.append ends.apart.1 ends.apart.2

/-- A block, given what holds of the expressions in it. -/
theorem BlockOf.apart (separates : Separates ExpressionOf limit) :
    Separates BlockOf (limit + 1) := by
  rintro _ _ ⟨opens, items, closes⟩ short
  simp only [List.cons_append, List.length_cons, List.length_append] at short
  have inside := (items.apart (StatementOf.apart separates) (by omega)).2
  exact inside.enclosed (kind_ne opens (by decide)) (kind_ne closes (by decide)) (.single _)

/-- A primary expression, given what holds of the expressions in it. -/
theorem PrimaryOf.apart (separates : Separates ExpressionOf limit) :
    Separates PrimaryOf (limit + 1) := by
  intro tokens tree derived short
  cases derived with
  | number | string | truth | falsity | identifier => exact .single _
  | array opens items closes =>
    simp only [List.cons_append, List.length_cons, List.length_append] at short
    exact (items.apart separates (by omega)).enclosed (kind_ne opens (by decide))
      (kind_ne closes (by decide)) (.single _)
  | parenthesized opens inside closes =>
    simp only [List.cons_append, List.length_cons, List.length_append] at short
    exact (separates _ _ inside (by omega)).enclosed (kind_ne opens (by decide))
      (kind_ne closes (by decide)) (.single _)

/-- An operand, given what holds of the expressions in it. -/
theorem OperandOf.apart (separates : Separates ExpressionOf limit) :
    Separates OperandOf (limit + 1) := by
  intro tokens tree derived short
  cases derived with
  | arrow heading points block =>
    simp only [List.cons_append, List.length_cons, List.length_append] at short
    have body := BlockOf.apart separates _ _ block (by omega)
    exact heading.apart.append (.cons (kind_ne points (by decide)))
      (body.cons (kind_ne points (by decide)))
  | applied primary applications =>
    rw [List.length_append] at short
    have first := PrimaryOf.apart separates _ _ primary (by omega)
    -- A primary expression is not empty, so fewer tokens are left for what is applied to it.
    obtain ⟨token, tail, rfl, -⟩ := Parser.primary_next primary
    rw [List.length_cons] at short
    obtain ⟨clear, further⟩ := applications.apart separates (by omega)
    exact first.append clear further

/-- A sum, given what holds of the expressions in it. -/
theorem BinaryOf.apart (separates : Separates ExpressionOf limit) :
    Separates BinaryOf (limit + 1) := by
  rintro _ _ ⟨operand, sums⟩ short
  rw [List.length_append] at short
  obtain ⟨clear, further⟩ := sums.apart (OperandOf.apart separates) (by omega)
  exact (OperandOf.apart separates _ _ operand (by omega)).append clear further

/-- Expressions. -/
theorem ExpressionOf.apart (limit : Nat) : Separates ExpressionOf limit := by
  induction limit with
  | zero =>
    intro tokens tree derived short
    rw [List.length_eq_zero_iff.mp (Nat.le_zero.mp short)]
    exact .nil
  | succ limit inductionHypothesis =>
    intro tokens tree derived short
    cases derived with
    | binary sum => exact BinaryOf.apart inductionHypothesis _ _ sum short
    | conditional tests asks positive splits negative =>
      simp only [List.length_cons, List.length_append] at short
      have test := BinaryOf.apart inductionHypothesis _ _ tests (by omega)
      have consequent := inductionHypothesis _ _ positive (by omega)
      have alternate := inductionHypothesis _ _ negative (by omega)
      have front := test.append (.cons (kind_ne asks (by decide)))
        (consequent.cons (kind_ne asks (by decide)))
      exact front.append (.cons (kind_ne splits (by decide)))
        (alternate.cons (kind_ne splits (by decide)))

/-- No number stands directly before an identifier in the tokens of a program. -/
theorem ProgramOf.apart {program : Program} (derived : ProgramOf tokens program) : Apart tokens :=
  (derived.1.apart (StatementOf.apart (ExpressionOf.apart _)) (Nat.le_succ _)).2

end Expressions

end Grammar

end ArrowScript
