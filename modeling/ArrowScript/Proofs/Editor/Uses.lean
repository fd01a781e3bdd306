import ArrowScript.Proofs.Editor.Hovering
import ArrowScript.Proofs.Parser.Adjacency
import ArrowScript.Proofs.Parser.Recognition
import ArrowScript.Proofs.Scope.Placement

/-!
# Types at uses

In a source without errors a name that is used refers to a constant that stands before it. At
every offset of the name the last constant with this name before the use is shown. This is the
constant that is referred to, unless another function declares one with the same name between
the two.
-/

namespace ArrowScript

/-! ## Links of a typed tree -/

namespace Program

/-- Without types, an identifier is what it is. -/
theorem revised_untyped (identifiers : List Identifier) :
    identifiers.map (·.revised .untyped) = identifiers :=
  List.map_id _

/-- Inference leaves the uses as they are. -/
theorem infer_uses (program : Program) : program.infer.1.uses = program.uses := by
  have same := congrArg uses program.infer_untyped
  rwa [uses_revised, uses_revised, revised_untyped, revised_untyped] at same

/-- Inference leaves the identifiers of the constants as they are. -/
theorem infer_constants (program : Program) : program.infer.1.constants = program.constants := by
  have same := congrArg constants program.infer_untyped
  rwa [constants_revised, constants_revised, revised_untyped, revised_untyped] at same

/-- A linked use of a program without links refers to the declaring node with its link. -/
theorem linked_use {program : Program} (unlinked : ∀ use ∈ program.uses, use.declaration = none)
    {use : Identifier} {link : Link} (among : use ∈ program.linked.uses)
    (linked : use.declaration = some link) :
    ∃ original ∈ program.uses, ∃ site ∈ program.sites,
      .used original (some site) ∈ program.scoping ∧ site.link program.number = link ∧
        original.offset = use.offset ∧ original.name = use.name := by
  have lists := Statement.scopingOf_lists program.number 0 [] [] program.body
  rw [show program.linked.uses = _ from lists.linked] at among
  obtain ⟨event, isEvent, found⟩ := List.mem_filterMap.mp among
  obtain ⟨lexical, inside, rfl⟩ := List.mem_map.mp isEvent
  match lexical, found with
  | .used original none, rfl =>
    have isUse : original ∈ program.uses := by
      rw [uses_eq]
      exact List.mem_filterMap.mpr ⟨_, inside, rfl⟩
    exact nomatch (unlinked original isUse).symm.trans linked
  | .used original (some site), rfl =>
    have isUse : original ∈ program.uses := by
      rw [uses_eq]
      exact List.mem_filterMap.mpr ⟨_, inside, rfl⟩
    exact ⟨original, isUse, site, program.resolve_reached.2.used original site inside, inside,
      Option.some.inj linked, rfl, rfl⟩

end Program

/-! ## Names in a source -/

open Text (isWordCharacter)

/-- In the program of a source no name that is used stands where a constant is declared. -/
theorem parseSource_apart {source : String} {tokens : List Token}
    (tokenized : tokenize source = .ok tokens) :
    ∀ use ∈ (parseSource source).1.uses, ∀ id ∈ (parseSource source).1.constants,
      use.offset ≠ id.offset := by
  obtain ⟨names, order, part⟩ := (parseSource source).1.names_leaves
  have ordered := (parseSource_follows tokenized).leaves.1.sublist (part.map View.offset)
  have distinct := (order.map View.offset).nodup_iff.mp (ordered.imp fun less => less.ne)
  rw [List.map_append, List.map_map, List.map_map] at distinct
  intro use isUse id isConstant
  exact (List.nodup_append.mp distinct).2.2 _ (List.mem_map_of_mem isUse) _
    (List.mem_map_of_mem isConstant)

namespace Lexing

variable {offset : Nat} {text before word after : List Char} {front : List Token} {token : Token}

/-- An identifier without a number directly before it is a whole word. -/
theorem Standing.whole (standing : Standing offset text front token before word after)
    (unnumbered : ∀ number ∈ front.getLast?, number.kind ≠ .number) :
    ∀ last ∈ before.getLast?, isWordCharacter last = false := by
  intro last isLast
  rw [← Bool.not_eq_true]
  intro inWord
  obtain ⟨number, isNumber, kind⟩ := standing.ahead last isLast inWord
  exact unnumbered number isNumber kind

/-- The characters of an identifier belong to words. -/
theorem Standing.inWord (standing : Standing offset text front token before word after) :
    ∀ character ∈ word, isWordCharacter character = true := by
  obtain ⟨first, rest, rfl, start, parts⟩ := Pattern.mem_oneOf_mul.mp standing.shaped
  rw [Pattern.mem_oneOf_kstar] at parts
  intro character among
  apply isWordCharacter_of_isNamePart
  rcases List.mem_cons.mp among with rfl | later
  · rw [isNamePart, start, Bool.true_or]
  · exact parts character later

end Lexing

namespace Editor

open Lexing

variable {source : String} {lexed : List Token}

/-- Around every offset of an identifier stands the word that it is. -/
theorem Standing.wordAround {front : List Token} {token : Token} {before word after : List Char}
    (standing : Standing 0 source.toList front token before word after)
    (whole : ∀ last ∈ before.getLast?, isWordCharacter last = false) {offset : Nat}
    (least : token.offset ≤ offset) (most : offset ≤ token.offset + token.text.length) :
    WordAround source offset token.text := by
  have position := standing.position
  have length : token.text.length = word.length := by
    rw [standing.text_eq, ← String.length_toList, String.toList_ofList]
  have characters : token.text.toList = word := by
    rw [standing.text_eq, String.toList_ofList]
  refine ⟨before, word.take (offset - before.length), word.drop (offset - before.length), after,
    ?_, ?_, ?_, ?_, whole, standing.behind⟩
  · rw [standing.split]
    simp only [List.append_assoc, List.append_cancel_left_eq]
    rw [← List.append_assoc, List.take_append_drop]
  · rw [List.length_append, List.length_take]
    omega
  · rw [List.take_append_drop, characters]
  · rw [characters]
    exact standing.inWord

/-- A whole word does not begin inside of another. -/
theorem Standing.outside {front others : List Token} {one other : Token} {text : List Char}
    {before word after ahead shape behind : List Char}
    (standing : Standing 0 text front one before word after)
    (standsOther : Standing 0 text others other ahead shape behind)
    (whole : ∀ last ∈ ahead.getLast?, isWordCharacter last = false)
    (later : one.offset < other.offset) : one.offset + one.text.length < other.offset := by
  have position := standing.position
  have otherPosition := standsOther.position
  have length : one.text.length = word.length := by
    rw [standing.text_eq, ← String.length_toList, String.toList_ofList]
  by_contra inside
  -- The character in front of the other one belongs to the first one.
  have split : before ++ (word ++ after) = ahead ++ (shape ++ behind) := by
    rw [← List.append_assoc, ← standing.split, standsOther.split, List.append_assoc]
  rcases List.append_eq_append_iff.mp split with ⟨part, rfl, rest⟩ | ⟨part, rfl, -⟩
  · rw [List.length_append] at otherPosition
    have front : part <+: word ++ after := by
      rw [rest]
      exact List.prefix_append _ _
    have ofWord : part <+: word :=
      List.prefix_of_prefix_length_le front (List.prefix_append _ _) (by omega)
    have filled : part ≠ [] := by
      rintro rfl
      rw [List.length_nil] at otherPosition
      omega
    have isLast := List.getLast?_eq_some_getLast filled
    have outside := whole (part.getLast filled) (by simp [isLast])
    have inWord := standing.inWord _ (ofWord.subset (List.getLast_mem filled))
    exact Bool.false_ne_true (outside.symm.trans inWord)
  · rw [List.length_append] at position
    omega

/-- A source without diagnostics is made of lexemes, and no number stands directly before an
identifier. -/
theorem clean_lexed (clean : (typecheck source).2 = []) :
    ∃ lexed, tokenize source = .ok (lexed ++ [.atEnd source.length]) ∧
      Layout 0 source.toList [] lexed ∧ Apart lexed := by
  cases tokenized : tokenize source with
  | error report =>
    rw [typecheck_error tokenized] at clean
    exact nomatch clean
  | ok tokens =>
    obtain ⟨lexed, rfl, layout⟩ := tokenize_lexed tokenized
    rw [typecheck_ok tokenized] at clean
    obtain ⟨quiet, -⟩ := List.append_eq_nil_iff.mp clean
    have derived := derived_of_parseProgram (fun token among => by
      obtain ⟨_, denotes⟩ := layout.denotes token among
      exact denotes.lexed) quiet
    exact ⟨lexed, rfl, layout, derived.apart⟩

/-- In such a source every identifier is a whole word. -/
theorem exists_standing (layout : Layout 0 source.toList [] lexed) (apart : Apart lexed)
    {token : Token} (among : token ∈ lexed) (kind : token.kind = .identifier) :
    ∃ front before word after, Standing 0 source.toList front token before word after ∧
      ∀ last ∈ before.getLast?, isWordCharacter last = false := by
  obtain ⟨front, back, rfl⟩ := List.append_of_mem among
  obtain ⟨before, word, after, standing⟩ := layout.standing rfl kind
  refine ⟨front, before, word, after, standing, standing.whole ?_⟩
  intro number isLast isNumber
  exact (List.isChain_append.mp apart).2.2 number isLast token rfl isNumber kind

/-! ## What is shown at a use -/

/-- The last of the constants with a name whose own names stand before an offset. -/
structure Latest (program : Program) (name : String) (offset : Int) (id : Identifier)
    (type : Ty) : Prop where
  declared : program.Declares id (some type)
  named : id.name = name
  before : id.offset < offset
  last : ∀ other inferred, program.Declares other inferred → other.name = name →
    other.offset < offset → other.offset ≤ id.offset

/-- A use that is linked to a constant stands behind a constant with this link and its name. -/
theorem clean_linked {tokens : List Token} (tokenized : tokenize source = .ok tokens)
    {use : Identifier} (isUse : use ∈ (typecheck source).1.uses) {link : Link}
    (linked : use.declaration = some link) (constant : link.kind = .constant) :
    (∃ token ∈ tokens, token.kind = .identifier ∧ use.offset = token.offset ∧
      use.name = token.text) ∧
    (∀ id ∈ (typecheck source).1.constants, use.offset ≠ id.offset) ∧
    ∃ id type, (typecheck source).1.Declares id (some type) ∧ id.declaration = some link ∧
      id.name = use.name ∧ id.offset < use.offset := by
  have program : (typecheck source).1 = (parseSource source).1.linked.infer.1 := by
    rw [typecheck_ok tokenized, parseSource, tokenized, checkTokens, Program.resolve_eq]
  have leaf : ∀ use ∈ (parseSource source).1.uses,
      use.view ∈ (parseSource source).1.view.leaves := fun use among =>
    (parseSource source).1.names_leaves.subset
      (List.mem_append_left _ (List.mem_map_of_mem among))
  have unlinked : ∀ use ∈ (parseSource source).1.uses, use.declaration = none := by
    intro use among
    obtain ⟨token, -, -, rfl⟩ := parseSource_identifier tokenized (leaf use among)
    rfl
  have inLinked : use ∈ (parseSource source).1.linked.uses := by
    rwa [program, Program.infer_uses] at isUse
  obtain ⟨original, isOriginal, site, isSite, event, rfl, offset, name⟩ :=
    Program.linked_use unlinked inLinked linked
  refine ⟨?_, ?_, ?_⟩
  · obtain ⟨token, given, kind, rfl⟩ := parseSource_identifier tokenized (leaf _ isOriginal)
    exact ⟨token, given, kind, offset.symm, name.symm⟩
  · intro id among
    have same : id.revised .bare ∈ (parseSource source).1.constants.map (·.revised .bare) := by
      rw [← constants_typecheck]
      exact List.mem_map_of_mem among
    obtain ⟨parsed, isParsed, bare⟩ := List.mem_map.mp same
    have place := congrArg Identifier.offset bare
    change parsed.offset = id.offset at place
    rw [← offset, ← place]
    exact parseSource_apart tokenized original isOriginal parsed isParsed
  · obtain ⟨id, isConstant, place, named, link⟩ :=
      (parseSource source).1.linked_kept site isSite constant
    rw [← Program.infer_constants, ← program] at isConstant
    obtain ⟨inferred, depth, keyword, ascription, initial, listed⟩ :=
      Program.mem_constants.mp isConstant
    obtain ⟨type, rfl⟩ := Option.isSome_iff_exists.mp (typecheck_typed source _ listed)
    obtain ⟨sameName, before⟩ :=
      Program.scoping_behind (parseSource_follows tokenized) original site event
    refine ⟨id, type, ⟨depth, keyword, ascription, initial, listed⟩, link, ?_, ?_⟩
    · rw [named, sameName, name]
    · rw [place, ← offset]
      exact before constant

/-- In a source without errors, what is shown at every offset of a name that is used is the type
of the last constant with this name before the use. If none with the name is declared between
the constant that the use is linked to and the use, it is the type of the linked constant. -/
theorem hover_uses {source : String} (clean : (typecheck source).2 = []) {use : Identifier}
    (isUse : use ∈ (typecheck source).1.uses) {link : Link}
    (linked : use.declaration = some link) (constant : link.kind = .constant) :
    ∃ id type, (typecheck source).1.Declares id (some type) ∧ id.declaration = some link ∧
      id.name = use.name ∧ id.offset < use.offset ∧
      ∀ offset : Nat, use.offset ≤ offset → offset ≤ use.offset + use.name.length →
        (∃ latest shown, Latest (typecheck source).1 use.name use.offset latest shown ∧
          hover? (typecheck source).1 source offset = some (description use.name shown)) ∧
        ((∀ other inferred, (typecheck source).1.Declares other inferred →
            other.name = use.name → id.offset < other.offset → use.offset < other.offset) →
          hover? (typecheck source).1 source offset = some (description use.name type)) := by
  obtain ⟨lexed, tokenized, layout, apart⟩ := clean_lexed clean
  obtain ⟨⟨token, given, kind, place, name⟩, elsewhere, id, type, declares, link, same, ahead⟩ :=
    clean_linked tokenized isUse linked constant
  refine ⟨id, type, declares, link, same, ahead, ?_⟩
  intro offset least most
  obtain ⟨front, before, word, after, standing, whole⟩ :=
    exists_standing layout apart (tokenize_identifier given kind) kind
  rw [place] at least
  rw [place, name] at most
  have around := Standing.wordAround standing whole (by omega) (by omega)
  rw [← name] at around
  obtain ⟨nearest, shown, isNearest, text⟩ :=
    (hover?_eq around (constants_typecheck_increasing source) (constants_typecheck_named source)
      (fun _ _ ⟨_, _, _, _, listed⟩ =>
        Option.isSome_iff_exists.mp (typecheck_typed source _ listed))).1 id _ declares same
  have upTo := isNearest.last id _ declares same (by omega)
  -- The nearest constant does not stand in the word of the use.
  have isBefore : nearest.offset < use.offset := by
    have isConstant := Program.mem_constants.mpr ⟨_, isNearest.declared⟩
    obtain ⟨other, givenOther, kindOther, placeOther, nameOther⟩ :=
      constants_typecheck_token tokenized isConstant
    obtain ⟨others, _, _, _, standsOther, wholeOther⟩ :=
      exists_standing layout apart (tokenize_identifier givenOther kindOther) kindOther
    by_contra behind
    have different := elsewhere nearest isConstant
    have beyond := Standing.outside standing standsOther wholeOther (by omega)
    omega
  constructor
  · refine ⟨nearest, shown, ⟨isNearest.declared, isNearest.named, isBefore, ?_⟩, text⟩
    intro other inferred declaresOther named front
    exact (isNearest.last other inferred declaresOther named (by omega)).2
  · intro unhidden
    -- Another constant would stand behind the use.
    have identical : id.offset = nearest.offset := by
      by_contra different
      have behind := unhidden nearest _ isNearest.declared isNearest.named (by omega)
      omega
    obtain ⟨-, sameType⟩ := isNearest.alone id _ declares identical
    rw [text, Option.some.inj sameType]

/-- A constant that is listed with a type is declared with a type of this text. -/
theorem declares_of_listed {program : Program} {id : Identifier} {text : String}
    (listed : (id, text) ∈ (typedConstants program).map fun constant =>
      (constant.id, constant.type.text)) :
    ∃ type, program.Declares id (some type) ∧ type.text = text := by
  obtain ⟨constant, among, same⟩ := List.mem_map.mp listed
  obtain ⟨rfl, rfl⟩ := Prod.mk.inj same
  exact ⟨constant.type, mem_typedConstants.mp among, rfl⟩

/-- A source in which a function has a constant with the name of another one, which is used in
the function and behind it. -/
def innerConstant : String :=
  "const v = 1; const f = () => \x7b const v = 'a'; return v; \x7d; const w = v;"

/-- The constant of the function, which is referred to inside of it. -/
def innerLink : Link := { number := 1, name := "v", kind := .constant, offset := 31 }

/-- The other constant, which is referred to behind the function. -/
def outerLink : Link := { number := 0, name := "v", kind := .constant, offset := 0 }

/-- Inside of the function the type of the linked constant is shown. -/
theorem hover_uses_inside :
    (typecheck innerConstant).2 = [] ∧
      ⟨53, "v", some innerLink⟩ ∈ (typecheck innerConstant).1.uses ∧
      ∃ id type, (typecheck innerConstant).1.Declares id (some type) ∧
        id.declaration = some innerLink ∧
        hover? (typecheck innerConstant).1 innerConstant 53 = some (description "v" type) := by
  have clean : (typecheck innerConstant).2 = [] := by decide +kernel
  have isUse : ⟨53, "v", some innerLink⟩ ∈ (typecheck innerConstant).1.uses := by decide +kernel
  have unhidden : ∀ id ∈ (typecheck innerConstant).1.constants,
      id.declaration = some innerLink → ∀ other ∈ (typecheck innerConstant).1.constants,
        other.name = "v" → id.offset < other.offset → 53 < other.offset := by decide +kernel
  obtain ⟨id, type, declares, link, -, -, shown⟩ := hover_uses clean isUse rfl rfl
  refine ⟨clean, isUse, id, type, declares, link, (shown 53 ?_ ?_).2 ?_⟩
  · decide
  · decide
  · intro other inferred declaresOther
    exact unhidden id (Program.mem_constants.mpr ⟨_, declares⟩) link other
      (Program.mem_constants.mpr ⟨_, declaresOther⟩)

/-- Behind the function the type of the linked constant is not shown, but that of the constant
of the function. -/
theorem hover_uses_behind :
    (typecheck innerConstant).2 = [] ∧
      ⟨69, "v", some outerLink⟩ ∈ (typecheck innerConstant).1.uses ∧
      ∃ id type, (typecheck innerConstant).1.Declares id (some type) ∧
        id.declaration = some outerLink ∧
        hover? (typecheck innerConstant).1 innerConstant 69 ≠ some (description "v" type) := by
  have declares : (⟨6, "v", some outerLink⟩, "Number") ∈
      (typedConstants (typecheck innerConstant).1).map fun constant =>
        (constant.id, constant.type.text) := by decide +kernel
  have shown : hover? (typecheck innerConstant).1 innerConstant 69 =
      some "```arrowscript\n(constant) v: String\n```" := by decide +kernel
  obtain ⟨type, declared, text⟩ := declares_of_listed declares
  refine ⟨by decide +kernel, by decide +kernel, _, type, declared, rfl, ?_⟩
  rw [shown, description, text]
  decide +kernel

end Editor

end ArrowScript
