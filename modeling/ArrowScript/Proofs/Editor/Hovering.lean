import Mathlib.Data.List.TakeWhile
import ArrowScript.Editor
import ArrowScript.Proofs.Inference.Repetition
import ArrowScript.Proofs.Parser.Positions
import ArrowScript.Proofs.Token.Words
import ArrowScript.Proofs.Tree.Constants
import ArrowScript.Proofs.Tree.Views

/-!
# Types at a cursor

The constants of a program are listed in the order of the source, at whatever depth they are
declared and whether or not there are syntax errors. So the last of those that are listed up to
the cursor is the nearest one before it, and the first of all is the nearest one behind it.
-/

namespace ArrowScript

/-! ## The constants of a source -/

namespace Program

/-- A program declares a constant, at some depth. A type may have been inferred for it. -/
def Declares (program : Program) (id : Identifier) (inferred : Option Ty) : Prop :=
  ∃ depth offset ascription initial,
    (depth, .constant offset id ascription initial inferred) ∈ program.statements

/-- The identifiers of the constants are those that are declared. -/
theorem mem_constants {program : Program} {id : Identifier} :
    id ∈ program.constants ↔ ∃ inferred, program.Declares id inferred := by
  constructor
  · intro among
    obtain ⟨⟨depth, statement⟩, listed, declared⟩ := List.mem_filterMap.mp among
    match statement, declared with
    | .constant offset _ ascription initial inferred, rfl =>
      exact ⟨inferred, depth, offset, ascription, initial, listed⟩
  · rintro ⟨inferred, depth, offset, ascription, initial, listed⟩
    exact List.mem_filterMap.mpr ⟨_, listed, rfl⟩

end Program

/-- The stages behind the parser change nothing but the slots of the tree. -/
theorem bare_typecheck (source : String) :
    (typecheck source).1.revised .bare = (parseSource source).1.revised .bare := by
  cases tokenized : tokenize source with
  | error report => rw [typecheck_error tokenized, parseSource, tokenized]
  | ok tokens =>
    rw [typecheck_ok tokenized, parseSource, tokenized]
    exact (Program.bare_infer _).trans (Program.bare_resolve _)

/-- No constant of a source is left without a type. -/
theorem typecheck_typed (source : String) : Typed (typecheck source).1.statements := by
  cases tokenized : tokenize source with
  | error report =>
    rw [typecheck_error tokenized]
    exact .nil
  | ok tokens =>
    rw [typecheck_ok tokenized]
    exact Program.infer_typed _

/-- A constant of a source is one that the parser has found. -/
theorem constants_typecheck (source : String) :
    (typecheck source).1.constants.map (·.revised .bare) =
      (parseSource source).1.constants.map (·.revised .bare) := by
  rw [← Program.constants_revised, bare_typecheck, Program.constants_revised]

/-- The constants of a source stand one behind the other. -/
theorem constants_typecheck_increasing (source : String) :
    ((typecheck source).1.constants.map (·.offset)).Pairwise (· < ·) := by
  have offsets : (typecheck source).1.constants.map (·.offset) =
      (parseSource source).1.constants.map (·.offset) := by
    have same := congrArg (List.map Identifier.offset) (constants_typecheck source)
    rwa [List.map_map, List.map_map] at same
  rw [offsets]
  cases tokenized : tokenize source with
  | error report =>
    rw [parseSource, tokenized]
    exact .nil
  | ok tokens => exact Program.constants_increasing (parseSource_follows tokenized)

/-- An identifier in the program of a source is a lexeme of the source, and it has no link. -/
theorem parseSource_identifier {source : String} {tokens : List Token}
    (tokenized : tokenize source = .ok tokens) {id : Identifier}
    (leaf : id.view ∈ (parseSource source).1.view.leaves) :
    ∃ token ∈ tokens, token.kind = .identifier ∧
      id = { offset := token.offset, name := token.text } := by
  obtain ⟨token, given, kind, view⟩ := parseSource_named tokenized _ List.mem_cons_self _
    (List.mem_filter.mp leaf).1 rfl
  exact ⟨token, given, kind, (id.view_eq_iff _).mp view⟩

/-- A token of a source that is an identifier is one of its lexemes. -/
theorem tokenize_identifier {source : String} {lexed : List Token} {token : Token}
    (among : token ∈ lexed ++ [.atEnd source.length]) (kind : token.kind = .identifier) :
    token ∈ lexed := by
  rcases List.mem_append.mp among with lexeme | mark
  · exact lexeme
  · rw [List.mem_singleton.mp mark] at kind
    simp [Token.atEnd] at kind

/-- A constant of a source is one of its lexemes. -/
theorem constants_typecheck_token {source : String} {tokens : List Token}
    (tokenized : tokenize source = .ok tokens) {id : Identifier}
    (among : id ∈ (typecheck source).1.constants) :
    ∃ token ∈ tokens, token.kind = .identifier ∧ id.offset = token.offset ∧
      id.name = token.text := by
  have same : id.revised .bare ∈ (parseSource source).1.constants.map (·.revised .bare) := by
    rw [← constants_typecheck]
    exact List.mem_map_of_mem among
  obtain ⟨parsed, isParsed, bare⟩ := List.mem_map.mp same
  have leaf := (Program.constants_leaves _).subset (List.mem_map_of_mem isParsed)
  obtain ⟨token, given, kind, rfl⟩ := parseSource_identifier tokenized leaf
  exact ⟨token, given, kind, (congrArg Identifier.offset bare).symm,
    (congrArg Identifier.name bare).symm⟩

/-- The name of a constant of a source is not empty. -/
theorem constants_typecheck_named (source : String) :
    ∀ id ∈ (typecheck source).1.constants, id.name ≠ "" := by
  intro id among
  cases tokenized : tokenize source with
  | error report =>
    rw [typecheck_error tokenized] at among
    change id ∈ ([] : List Identifier) at among
    exact absurd among List.not_mem_nil
  | ok tokens =>
    obtain ⟨token, given, kind, -, name⟩ := constants_typecheck_token tokenized among
    obtain ⟨lexed, rfl, denotes⟩ := tokenize_denotes tokenized
    obtain ⟨lexeme, denotes⟩ := denotes token (tokenize_identifier given kind)
    obtain ⟨shaped, text⟩ := denotes.identifier kind
    obtain ⟨first, rest, rfl, -, -⟩ := Lexing.Pattern.mem_oneOf_mul.mp shaped
    rw [name, text]
    intro empty
    have characters := congrArg String.toList empty
    rw [String.toList_ofList] at characters
    exact nomatch characters

namespace Editor

open Text (isWordCharacter)

variable {program : Program}

/-- The constants with a type are those that are declared with one. -/
theorem mem_typedConstants {constant : TypedConstant} :
    constant ∈ typedConstants program ↔ program.Declares constant.id (some constant.type) := by
  rw [typedConstants, List.mem_filterMap]
  constructor
  · rintro ⟨⟨depth, statement⟩, listed, found⟩
    match statement, found with
    | .constant offset id ascription initial (some type), rfl =>
      exact ⟨depth, offset, ascription, initial, listed⟩
  · rintro ⟨depth, offset, ascription, initial, listed⟩
    exact ⟨_, listed, rfl⟩

/-- The constants with a type are some of all, in the same order. -/
theorem typedConstants_sublist (program : Program) :
    ((typedConstants program).map (·.id)).Sublist program.constants := by
  rw [typedConstants, Program.constants, declaredIn]
  induction program.statements with
  | nil => exact .slnil
  | cons entry entries inductionHypothesis =>
    obtain ⟨_, _ | _⟩ := entry
    case constant inferred =>
      cases inferred with
      | some _ => exact inductionHypothesis.cons_cons _
      | none => exact inductionHypothesis.cons _
    case returning => exact inductionHypothesis

/-! ## Words -/

/-- A word stands around an offset: it is the longest stretch of word characters that ends or
begins there, or goes over it. -/
def WordAround (source : String) (offset : Nat) (word : String) : Prop :=
  ∃ before left right after, source.toList = before ++ left ++ (right ++ after) ∧
    offset = (before ++ left).length ∧ word.toList = left ++ right ∧
    (∀ character ∈ word.toList, isWordCharacter character = true) ∧
    (∀ last ∈ before.getLast?, isWordCharacter last = false) ∧
    ∀ next ∈ after.head?, isWordCharacter next = false

/-- A run of word characters ends where one comes that is none. -/
theorem takeWhile_word {word rest : List Char}
    (inWord : ∀ character ∈ word, isWordCharacter character = true)
    (stops : ∀ next ∈ rest.head?, isWordCharacter next = false) :
    (word ++ rest).takeWhile isWordCharacter = word := by
  rw [List.takeWhile_append_of_pos inWord]
  cases rest with
  | nil => rw [List.takeWhile_nil, List.append_nil]
  | cons next rest =>
    rw [List.takeWhile_cons_of_neg (by simp [stops next rfl]), List.append_nil]

variable {source word : String} {offset : Nat}

/-- A run of word characters that is read backwards ends where one comes that is none. -/
theorem takeWhile_reverse_word {word front : List Char}
    (inWord : ∀ character ∈ word, isWordCharacter character = true)
    (stops : ∀ last ∈ front.getLast?, isWordCharacter last = false) :
    (front ++ word).reverse.takeWhile isWordCharacter = word.reverse := by
  rw [List.reverse_append]
  apply takeWhile_word
  · intro character among
    exact inWord character (List.mem_reverse.mp among)
  · intro last isLast
    rw [List.head?_reverse] at isLast
    exact stops last isLast

/-- The word around an offset is found. -/
theorem WordAround.wordAt_eq (around : WordAround source offset word) :
    wordAt source offset = word := by
  obtain ⟨before, left, right, after, text, rfl, whole, inWord, ahead, behind⟩ := around
  rw [whole, List.forall_mem_append] at inWord
  have front := takeWhile_reverse_word inWord.1 ahead
  have back : wordFrom source (before ++ left).length = right := by
    have inside : ¬((before ++ left).length : Int) < 0 := by omega
    rw [wordFrom, charactersFrom, place, if_neg inside, if_neg inside, Int.toNat_natCast, text,
      List.drop_left, takeWhile_word inWord.2 behind]
  have start : place source.toList (((before ++ left).length : Nat) - left.length : Int) =
      before.length := by
    rw [place, if_neg (by simp), List.length_append]
    omega
  have stop : place source.toList (((before ++ left).length : Nat) + right.length : Int) =
      (before ++ (left ++ right)).length := by
    rw [place, if_neg (by omega)]
    simp
    omega
  rw [wordAt, Int.toNat_natCast, back, stop]
  simp only [text, List.take_left, front, List.length_reverse]
  rw [← text, start, text]
  have cut : before ++ left ++ (right ++ after) = before ++ (left ++ right) ++ after := by simp
  rw [cut, List.take_left, List.drop_left, ← whole, String.ofList_toList]

/-- Every text begins with a run of word characters, which may be empty. -/
theorem exists_run (text : List Char) : ∃ word rest, text = word ++ rest ∧
    (∀ character ∈ word, isWordCharacter character = true) ∧
    ∀ next ∈ rest.head?, isWordCharacter next = false := by
  refine ⟨text.takeWhile isWordCharacter, text.dropWhile isWordCharacter,
    (List.takeWhile_append_dropWhile ..).symm, fun _ => List.mem_takeWhile_imp, ?_⟩
  intro next isNext
  have stops := List.head?_dropWhile_not isWordCharacter text
  rw [Option.mem_def.mp isNext] at stops
  exact stops

/-- There is a word around every offset inside a source. -/
theorem exists_wordAround (inside : offset ≤ source.length) :
    ∃ word, WordAround source offset word := by
  obtain ⟨left, before, front, leftInWord, ahead⟩ :=
    exists_run (source.toList.take offset).reverse
  obtain ⟨right, after, back, rightInWord, behind⟩ := exists_run (source.toList.drop offset)
  have taken : source.toList.take offset = before.reverse ++ left.reverse := by
    rw [← List.reverse_append, ← front, List.reverse_reverse]
  refine ⟨String.ofList (left.reverse ++ right), before.reverse, left.reverse, right, after,
    ?_, ?_, String.toList_ofList, ?_, ?_, behind⟩
  · rw [← taken, ← back, List.take_append_drop]
  · rw [← taken, List.length_take, String.length_toList, Nat.min_eq_left inside]
  · rw [String.toList_ofList, List.forall_mem_append]
    refine ⟨fun character among => ?_, rightInWord⟩
    exact leftInWord character (List.mem_reverse.mp among)
  · intro last isLast
    rw [List.getLast?_reverse] at isLast
    exact ahead last isLast

/-! ## The nearest constant -/

/-- A constant is the nearest one with a name: of those that are declared at or before an
offset it is the last, or else it is the first of all. -/
structure Nearest (program : Program) (name : String) (offset : Int) (id : Identifier)
    (type : Ty) : Prop where
  declared : program.Declares id (some type)
  named : id.name = name
  last : ∀ other inferred, program.Declares other inferred → other.name = name →
    other.offset ≤ offset → id.offset ≤ offset ∧ other.offset ≤ id.offset
  first : (∀ other inferred, program.Declares other inferred → other.name = name →
      offset < other.offset) →
    ∀ other inferred, program.Declares other inferred → other.name = name →
      id.offset ≤ other.offset
  alone : ∀ other inferred, program.Declares other inferred → other.offset = id.offset →
    other = id ∧ inferred = some type

/-- The text that is shown for a constant. -/
def description (word : String) (type : Ty) : String :=
  "```arrowscript\n" ++ s!"(constant) {word}: {type.text}\n" ++ "```"

/-- What is found in a list of constants that stand one behind the other. -/
theorem nearest?_eq_some {constants : List TypedConstant} {offset : Int} {nearest : TypedConstant}
    (increasing : constants.Pairwise (·.id.offset < ·.id.offset))
    (found : nearest? constants offset = some nearest) :
    nearest ∈ constants ∧
      (∀ other ∈ constants, other.id.offset ≤ offset →
        nearest.id.offset ≤ offset ∧ other.id.offset ≤ nearest.id.offset) ∧
      ((∀ other ∈ constants, offset < other.id.offset) →
        ∀ other ∈ constants, nearest.id.offset ≤ other.id.offset) := by
  rw [nearest?] at found
  split at found
  next constant isLast =>
    obtain rfl := Option.some.inj found
    obtain ⟨earlier, split⟩ := List.getLast?_eq_some_iff.mp isLast
    have reached := List.mem_filter.mp (split ▸ List.mem_append_right earlier List.mem_cons_self)
    have upTo : constant.id.offset ≤ offset := decide_eq_true_eq.mp reached.2
    have ordered : (constants.filter (·.id.offset ≤ offset)).Pairwise
        (·.id.offset < ·.id.offset) := increasing.sublist List.filter_sublist
    rw [split, List.pairwise_append] at ordered
    refine ⟨reached.1, ?_, fun behind => absurd (behind constant reached.1) (not_lt.mpr upTo)⟩
    intro other among before
    have filtered : other ∈ constants.filter (·.id.offset ≤ offset) :=
      List.mem_filter.mpr ⟨among, decide_eq_true before⟩
    rw [split] at filtered
    rcases List.mem_append.mp filtered with front | last
    · exact ⟨upTo, (ordered.2.2 other front constant List.mem_cons_self).le⟩
    · rw [List.mem_singleton.mp last]
      exact ⟨upTo, le_rfl⟩
  next none =>
    have behind := List.filter_eq_nil_iff.mp (List.getLast?_eq_none_iff.mp none)
    obtain ⟨rest, rfl⟩ := List.head?_eq_some_iff.mp found
    refine ⟨List.mem_cons_self, ?_, ?_⟩
    · intro other among before
      exact absurd (decide_eq_true before) (behind other among)
    · intro _ other among
      rcases List.mem_cons.mp among with rfl | later
      · exact le_rfl
      · exact (List.rel_of_pairwise_cons increasing later).le

/-- Something is found in every list that is not empty. -/
theorem nearest?_eq_none {constants : List TypedConstant} {offset : Int} :
    nearest? constants offset = none ↔ constants = [] := by
  rw [nearest?]
  constructor
  · intro missing
    split at missing
    next => exact nomatch missing
    next => exact List.head?_eq_none_iff.mp missing
  · rintro rfl
    rfl

/-- In a program whose constants stand one behind the other and have types, the nearest constant
with the name around an offset is described, if there is one. -/
theorem hover?_eq {word : String} {offset : Nat} (around : WordAround source offset word)
    (increasing : (program.constants.map (·.offset)).Pairwise (· < ·))
    (named : ∀ id ∈ program.constants, id.name ≠ "")
    (typed : ∀ id inferred, program.Declares id inferred → ∃ type, inferred = some type) :
    (∀ id inferred, program.Declares id inferred → id.name = word →
      ∃ nearest type, Nearest program word offset nearest type ∧
        hover? program source offset = some (description word type)) ∧
    ((∀ id inferred, program.Declares id inferred → id.name ≠ word) →
      hover? program source offset = none) := by
  let candidates := (typedConstants program).filter fun constant => constant.id.name == word
  have candidate {id : Identifier} {inferred : Option Ty} (declares : program.Declares id inferred)
      (same : id.name = word) : ∃ type, inferred = some type ∧ ⟨id, type⟩ ∈ candidates := by
    obtain ⟨type, rfl⟩ := typed id inferred declares
    exact ⟨type, rfl, List.mem_filter.mpr
      ⟨mem_typedConstants.mpr declares, beq_iff_eq.mpr same⟩⟩
  have listed : (typedConstants program).Pairwise (·.id.offset < ·.id.offset) := by
    have part := increasing.sublist ((typedConstants_sublist program).map (·.offset))
    rwa [List.map_map, List.pairwise_map] at part
  have ordered : candidates.Pairwise (·.id.offset < ·.id.offset) :=
    listed.sublist List.filter_sublist
  have shown : hover? program source offset =
      if word.isEmpty then none
      else (nearest? candidates offset).map fun constant => description word constant.type := by
    rw [hover?, around.wordAt_eq]
    rfl
  constructor
  · intro id inferred declares same
    obtain ⟨_, -, isCandidate⟩ := candidate declares same
    cases found : nearest? candidates offset with
    | none => exact absurd (nearest?_eq_none.mp found ▸ isCandidate) List.not_mem_nil
    | some nearest =>
      obtain ⟨among, last, first⟩ := nearest?_eq_some ordered found
      obtain ⟨isTyped, isNamed⟩ := List.mem_filter.mp among
      have name := beq_iff_eq.mp isNamed
      have filled : word ≠ "" := by
        rw [← name]
        exact named nearest.id (Program.mem_constants.mpr ⟨_, mem_typedConstants.mp isTyped⟩)
      refine ⟨nearest.id, nearest.type, ?_, ?_⟩
      · constructor
        · exact mem_typedConstants.mp isTyped
        · exact name
        · intro other inferred declares same before
          obtain ⟨type, rfl, among⟩ := candidate declares same
          exact last _ among before
        · intro behind other inferred declares same
          obtain ⟨type, rfl, among⟩ := candidate declares same
          refine first ?_ _ among
          intro constant isCandidate
          obtain ⟨isTyped, isNamed⟩ := List.mem_filter.mp isCandidate
          exact behind _ _ (mem_typedConstants.mp isTyped) (beq_iff_eq.mp isNamed)
        · intro other inferred declares same
          obtain ⟨type, rfl⟩ := typed other inferred declares
          have distinct : ((typedConstants program).map (·.id.offset)).Nodup :=
            (List.pairwise_map.mpr listed).imp fun apart => apart.ne
          have isOther : ⟨other, type⟩ ∈ typedConstants program :=
            mem_typedConstants.mpr declares
          obtain rfl := List.inj_on_of_nodup_map distinct isOther isTyped same
          exact ⟨rfl, rfl⟩
      · rw [shown, found, if_neg (by simpa using filled)]
        rfl
  · intro absent
    have empty : candidates = [] := by
      apply List.filter_eq_nil_iff.mpr
      intro constant isTyped
      simpa using absent _ _ (mem_typedConstants.mp isTyped)
    rw [shown, nearest?_eq_none.mpr empty]
    simp

/-- For every offset inside a source, what is shown is the type of the nearest constant with the
name around the offset, at whatever depth it is declared. Nothing is shown where the word around
the offset is no name of a constant. -/
theorem hover_nearest (source : String) (offset : Nat) (inside : offset ≤ source.length) :
    ∃ word, WordAround source offset word ∧
      (∀ id inferred, (typecheck source).1.Declares id inferred → id.name = word →
        ∃ nearest type, Nearest (typecheck source).1 word offset nearest type ∧
          hover? (typecheck source).1 source offset = some (description word type)) ∧
      ((∀ id inferred, (typecheck source).1.Declares id inferred → id.name ≠ word) →
        hover? (typecheck source).1 source offset = none) := by
  obtain ⟨word, around⟩ := exists_wordAround inside
  refine ⟨word, around, ?_⟩
  apply hover?_eq around
  · exact constants_typecheck_increasing source
  · exact constants_typecheck_named source
  · rintro id inferred ⟨depth, offset, ascription, initial, listed⟩
    exact Option.isSome_iff_exists.mp (typecheck_typed source _ listed)

/-- Behind a syntax error the type of a constant in a function is shown. -/
theorem hover_nearest_broken :
    44 ≤ "const f = () => \x7b const a = 'x'; \x7d; const = a".length ∧
      hover? (typecheck "const f = () => \x7b const a = 'x'; \x7d; const = a").1
        "const f = () => \x7b const a = 'x'; \x7d; const = a" 44 =
          some "```arrowscript\n(constant) a: String\n```" ∧
      ∃ word, WordAround "const f = () => \x7b const a = 'x'; \x7d; const = a" 44 word := by
  have inside : 44 ≤ "const f = () => \x7b const a = 'x'; \x7d; const = a".length := by
    decide +kernel
  obtain ⟨word, around, -⟩ :=
    hover_nearest "const f = () => \x7b const a = 'x'; \x7d; const = a" 44 inside
  exact ⟨inside, by decide +kernel, word, around⟩

end Editor

end ArrowScript
