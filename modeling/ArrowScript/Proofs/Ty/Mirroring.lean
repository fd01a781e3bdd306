import ArrowScript.Proofs.Ty.Mirrors

/-!
# Operations on stores that mirror each other

Every operation is followed in the other store, with results that correspond. Unification
reports problems of the same kinds, in the same order; an instance has fresh variables in the
same order.
-/

namespace ArrowScript.Solver

open Store

variable {exchange : VariableId → VariableId} {one other oneAfter otherAfter : Store}
  {term image reached imageReached : Ty}

/-! ## Steps -/

/-- Fresh variables correspond. -/
theorem fresh_mirrored (mirrors : Mirrors exchange one other) :
    Advance exchange one other (fresh.run one).2 (fresh.run other).2 ∧
      (fresh.run one).1 < (fresh.run one).2.cells.size ∧
      exchange (fresh.run one).1 = (fresh.run other).1 := by
  rcases added : fresh.run one with ⟨id, after⟩
  rcases otherAdded : fresh.run other with ⟨image, otherAfter⟩
  obtain ⟨agrees, rfl, size⟩ := fresh_agrees mirrors.sound added
  obtain ⟨otherAgrees, rfl, otherSize⟩ := fresh_agrees mirrors.otherSound otherAdded
  have after : Mirrors exchange after otherAfter :=
    { sound := agrees.sound mirrors.sound
      otherSound := otherAgrees.sound mirrors.otherSound
      injective := mirrors.injective
      next := fun count => by
        have next := mirrors.next (1 + count)
        rwa [← Nat.add_assoc, ← Nat.add_assoc, ← size, ← otherSize] at next
      resolve_eq := fun term => by
        rw [agrees.resolve_eq, otherAgrees.resolve_eq]
        exact mirrors.resolve_eq term }
  refine ⟨⟨.of_agrees agrees mirrors.sound, .of_agrees otherAgrees mirrors.otherSound, after⟩,
    ?_, mirrors.next 0⟩
  rw [size]
  exact Nat.lt_succ_self _

/-- The ends of two chains have the same form. -/
theorem compress_mirrored (mirrors : Mirrors exchange one other)
    (same : Image exchange one other term image)
    (compressed : (compress term).run one = (reached, oneAfter))
    (otherCompressed : (compress image).run other = (imageReached, otherAfter)) :
    Advance exchange one other oneAfter otherAfter ∧
      SameForm exchange oneAfter otherAfter reached imageReached ∧
      ∀ id, reached = .var id → oneAfter.Free id := by
  obtain ⟨agrees, size, stands, free⟩ := resolve_compressed mirrors.sound compressed
  obtain ⟨otherAgrees, otherSize, otherStands, otherFree⟩ :=
    resolve_compressed mirrors.otherSound otherCompressed
  have ends := compress_ends mirrors.sound.acyclic term
  have otherEnds := compress_ends mirrors.otherSound.acyclic image
  rw [compressed] at ends
  rw [otherCompressed] at otherEnds
  have advance := Advance.of_agrees mirrors agrees otherAgrees size otherSize
  have reachedSame : Image exchange one other reached imageReached :=
    { covered := ends.covered mirrors.sound same.covered
      imageOver := otherEnds.covered mirrors.otherSound same.imageOver
      resolve_eq := by rw [stands, otherStands, same.resolve_eq] }
  have ended (id : VariableId) (here : reached = .var id) : oneAfter.Free id :=
    (agrees.free_iff id).mpr (free id here)
  refine ⟨advance, (reachedSame.onward advance).form ended ?_, ended⟩
  exact fun id here => (otherAgrees.free_iff id).mpr (otherFree id here)

/-- Printing changes only the length of chains. -/
theorem Prints.mirrored {text otherText : String} (mirrors : Mirrors exchange one other)
    (prints : Prints one term text oneAfter)
    (otherPrints : Prints other image otherText otherAfter) :
    Advance exchange one other oneAfter otherAfter := by
  obtain ⟨agrees, size, -⟩ := prints.spec mirrors.sound
  obtain ⟨otherAgrees, otherSize, -⟩ := otherPrints.spec mirrors.otherSound
  exact .of_agrees mirrors agrees otherAgrees size otherSize

/-- A variable is found in terms exactly when its image is found in their images. -/
theorem Searches.mirrored {terms images : List Ty} {id : VariableId} {found otherFound : Bool}
    (mirrors : Mirrors exchange one other)
    (same : List.Forall₂ (Image exchange one other) terms images)
    (searches : Searches id one terms found oneAfter)
    (otherSearches : Searches (exchange id) other images otherFound otherAfter) :
    Advance exchange one other oneAfter otherAfter ∧ found = otherFound := by
  obtain ⟨agrees, size, exact⟩ := searches.spec mirrors.sound
  obtain ⟨otherAgrees, otherSize, otherExact⟩ := otherSearches.spec mirrors.otherSound
  constructor
  · exact .of_agrees mirrors agrees otherAgrees size otherSize
  · rw [Bool.eq_iff_iff, exact, otherExact, Image.occurs_iff mirrors.injective same]

/-! ## Unification -/

/-- Binding a variable, and binding its image. -/
theorem Binds.mirrored {free : VariableId} {problems otherProblems : List Problem}
    (mirrors : Mirrors exchange one other) (inside : free < one.cells.size)
    (isFree : one.Free free) (form : SameForm exchange one other term image)
    (ended : ∀ id, term = .var id → one.Free id)
    (binds : Binds free one term problems oneAfter)
    (otherBinds : Binds (exchange free) other image otherProblems otherAfter) :
    Advance exchange one other oneAfter otherAfter ∧
      problems.map Problem.code = otherProblems.map Problem.code := by
  have same := form.same mirrors
  have both : List.Forall₂ (Image exchange one other) [term] [image] := .cons same .nil
  cases binds with
  | itself =>
    cases form
    cases otherBinds with
    | itself => exact ⟨.refl mirrors, rfl⟩
    | another different => exact absurd rfl different
    | linked proper => exact absurd rfl (proper _)
    | infinite proper => exact absurd rfl (proper _)
  | @another place different =>
    have absent : free ∉ (one.resolve (.var place)).vars := by
      rw [resolve_free (ended place rfl), Ty.vars, List.mem_singleton]
      exact different.symm
    cases form
    generalize seen : Ty.var (exchange place) = image at otherBinds same
    cases otherBinds with
    | itself => exact absurd (mirrors.injective (Ty.var.inj seen)) different
    | another => exact ⟨.setLink mirrors inside isFree absent same, rfl⟩
    | linked proper => exact absurd seen.symm (proper _)
    | infinite proper => exact absurd seen.symm (proper _)
  | linked proper absent =>
    have imageProper := form.proper_iff.mpr proper
    cases otherBinds with
    | itself => exact absurd rfl (imageProper _)
    | another => exact absurd rfl (imageProper _)
    | linked _ otherAbsent =>
      obtain ⟨advance, -⟩ := absent.mirrored mirrors both otherAbsent
      obtain ⟨agrees, size, exact⟩ := absent.spec mirrors.sound
      refine ⟨advance.trans (.setLink advance.mirrors ?_ ?_ ?_ (same.onward advance)), rfl⟩
      · exact size.symm ▸ inside
      · exact (agrees.free_iff free).mpr isFree
      · rw [agrees.resolve_eq]
        simpa using exact
    | infinite _ occurs => exact nomatch (absent.mirrored mirrors both occurs).2
  | infinite proper occurs left right =>
    have imageProper := form.proper_iff.mpr proper
    cases otherBinds with
    | itself => exact absurd rfl (imageProper _)
    | another => exact absurd rfl (imageProper _)
    | linked _ absent => exact nomatch (occurs.mirrored mirrors both absent).2
    | infinite _ otherOccurs otherLeft otherRight =>
      obtain ⟨searched, -⟩ := occurs.mirrored mirrors both otherOccurs
      have first := left.mirrored searched.mirrors otherLeft
      have second := right.mirrored first.mirrors otherRight
      exact ⟨searched.trans (first.trans second), rfl⟩

/-- What is done with the ends of two chains: the problems that are reported, the store
behind that, and the pairs of parts that are still to be unified. -/
inductive Meets : Store → Ty × Ty → List Problem → Store → List (Ty × Ty) → Prop
  | bindLeft {store after : Store} {term : Ty} {free : VariableId} {problems : List Problem}
    (binds : Binds free store term problems after) :
    Meets store (.var free, term) problems after []
  | bindRight {store after : Store} {term : Ty} {free : VariableId} {problems : List Problem}
    (proper : ∀ id, term ≠ .var id) (binds : Binds free store term problems after) :
    Meets store (term, .var free) problems after []
  | primitive (store : Store) (kind : Primitive) :
    Meets store (.primitive kind, .primitive kind) [] store []
  | array (store : Store) (left right : Ty) :
    Meets store (.array left, .array right) [] store [(left, right)]
  | function (store : Store) {leftParams rightParams : List Ty} (left right : Ty)
    (arity : leftParams.length = rightParams.length) :
    Meets store (.function leftParams left, .function rightParams right) [] store
      (leftParams.zip rightParams ++ [(left, right)])
  | arity (store : Store) {leftParams rightParams : List Ty} (left right : Ty)
    (arity : leftParams.length ≠ rightParams.length) :
    Meets store (.function leftParams left, .function rightParams right)
      [.arityMismatch leftParams.length rightParams.length] store []
  | clash {store between after : Store} {left right : Ty} {leftText rightText : String}
    (different : clash left right = true) (leftPrints : Prints store left leftText between)
    (rightPrints : Prints between right rightText after) :
    Meets store (left, right) [.typeMismatch leftText rightText] after []

/-- A unification of several pairs begins with the ends of the first two chains. -/
theorem Unifies.head {store last : Store} {left right : Ty} {rest : List (Ty × Ty)}
    {problems : List Problem} (unifies : Unifies store ((left, right) :: rest) problems last) :
    ∃ ends reached here between parts further,
      (compressBoth left right).run store = (ends, reached) ∧
      Meets reached ends here between parts ∧ problems = here ++ further ∧
      Unifies between (parts ++ rest) further last := by
  cases unifies with
  | bindLeft ends binds further => exact ⟨_, _, _, _, _, _, ends, .bindLeft binds, rfl, further⟩
  | bindRight ends proper binds further =>
    exact ⟨_, _, _, _, _, _, ends, .bindRight proper binds, rfl, further⟩
  | primitive ends further => exact ⟨_, _, _, _, _, _, ends, .primitive _ _, rfl, further⟩
  | array ends further => exact ⟨_, _, _, _, _, _, ends, .array _ _ _, rfl, further⟩
  | function ends arity further =>
    refine ⟨_, _, _, _, _, _, ends, .function _ _ _ arity, rfl, ?_⟩
    rw [List.append_assoc]
    exact further
  | arity ends arity further => exact ⟨_, _, _, _, _, _, ends, .arity _ _ _ arity, rfl, further⟩
  | clash ends different left right further =>
    exact ⟨_, _, _, _, _, _, ends, .clash different left right, rfl, further⟩

/-- Two pairs of terms that correspond. -/
def ImagePair (exchange : VariableId → VariableId) (one other : Store) (pair images : Ty × Ty) :
    Prop :=
  Image exchange one other pair.1 images.1 ∧ Image exchange one other pair.2 images.2

/-- Pairs that correspond do so in all later stores. -/
theorem ImagePair.onward {pair images : Ty × Ty} (same : ImagePair exchange one other pair images)
    (advance : Advance exchange one other oneAfter otherAfter) :
    ImagePair exchange oneAfter otherAfter pair images :=
  ⟨same.1.onward advance, same.2.onward advance⟩

/-- Terms of different forms have images of different forms. -/
theorem clash_iff {left right leftImage rightImage : Ty}
    (leftForm : SameForm exchange one other left leftImage)
    (rightForm : SameForm exchange one other right rightImage) :
    clash left right = clash leftImage rightImage := by
  cases leftForm <;> cases rightForm <;> rfl

/-- Pairs of parameters correspond when the parameters do. -/
theorem forall_zip {params images others otherImages : List Ty}
    (same : List.Forall₂ (Image exchange one other) params images)
    (otherSame : List.Forall₂ (Image exchange one other) others otherImages) :
    List.Forall₂ (ImagePair exchange one other) (params.zip others)
      (images.zip otherImages) := by
  induction same generalizing others otherImages with
  | nil => exact .nil
  | cons first _ inductionHypothesis =>
    cases otherSame with
    | nil => exact .nil
    | cons second rest => exact .cons ⟨first, second⟩ (inductionHypothesis rest)

/-- With corresponding ends the same is done in both stores. -/
theorem Meets.mirrored {left right leftImage rightImage : Ty} {parts otherParts : List (Ty × Ty)}
    {problems otherProblems : List Problem} (mirrors : Mirrors exchange one other)
    (leftForm : SameForm exchange one other left leftImage)
    (rightForm : SameForm exchange one other right rightImage)
    (leftEnded : ∀ id, left = .var id → one.Free id)
    (rightEnded : ∀ id, right = .var id → one.Free id)
    (meets : Meets one (left, right) problems oneAfter parts)
    (otherMeets : Meets other (leftImage, rightImage) otherProblems otherAfter otherParts) :
    Advance exchange one other oneAfter otherAfter ∧
      problems.map Problem.code = otherProblems.map Problem.code ∧
      List.Forall₂ (ImagePair exchange oneAfter otherAfter) parts otherParts := by
  have clashes := clash_iff leftForm rightForm
  cases meets with
  | bindLeft binds =>
    cases leftForm with
    | var inside =>
      cases otherMeets with
      | bindLeft otherBinds =>
        obtain ⟨advance, codes⟩ := binds.mirrored mirrors inside (leftEnded _ rfl) rightForm
          rightEnded otherBinds
        exact ⟨advance, codes, .nil⟩
      | bindRight proper => exact absurd rfl (proper _)
      | clash different => exact absurd different Bool.false_ne_true
  | bindRight proper binds =>
    have imageProper := leftForm.proper_iff.mpr proper
    cases rightForm with
    | var inside =>
      cases otherMeets with
      | bindLeft => exact absurd rfl (imageProper _)
      | bindRight _ otherBinds =>
        obtain ⟨advance, codes⟩ := binds.mirrored mirrors inside (rightEnded _ rfl) leftForm
          leftEnded otherBinds
        exact ⟨advance, codes, .nil⟩
      | clash different => cases leftForm <;> exact absurd different Bool.false_ne_true
  | primitive =>
    cases leftForm
    cases rightForm
    cases otherMeets with
    | primitive => exact ⟨.refl mirrors, rfl, .nil⟩
    | clash different => simp [Solver.clash] at different
  | array =>
    cases leftForm with
    | array leftSame =>
      cases rightForm with
      | array rightSame =>
        cases otherMeets with
        | array => exact ⟨.refl mirrors, rfl, .cons ⟨leftSame, rightSame⟩ .nil⟩
        | clash different => exact absurd different Bool.false_ne_true
  | function _ _ arity =>
    cases leftForm with
    | function leftParams leftSame =>
      cases rightForm with
      | function rightParams rightSame =>
        cases otherMeets with
        | function =>
          refine ⟨.refl mirrors, rfl, ?_⟩
          exact List.rel_append (forall_zip leftParams rightParams)
            (.cons ⟨leftSame, rightSame⟩ .nil)
        | arity _ _ unequal =>
          rw [leftParams.length_eq, rightParams.length_eq] at arity
          exact absurd arity unequal
        | clash different => exact absurd different Bool.false_ne_true
  | arity _ _ unequal =>
    cases leftForm with
    | function leftParams =>
      cases rightForm with
      | function rightParams =>
        cases otherMeets with
        | function _ _ arity =>
          rw [leftParams.length_eq, rightParams.length_eq] at unequal
          exact absurd arity unequal
        | arity => exact ⟨.refl mirrors, rfl, .nil⟩
        | clash different => exact absurd different Bool.false_ne_true
  | clash different leftPrints rightPrints =>
    rw [clashes] at different
    cases otherMeets with
    | bindLeft => exact absurd different Bool.false_ne_true
    | bindRight => cases leftForm <;> exact absurd different Bool.false_ne_true
    | primitive => simp [Solver.clash] at different
    | array => exact absurd different Bool.false_ne_true
    | function => exact absurd different Bool.false_ne_true
    | arity => exact absurd different Bool.false_ne_true
    | clash _ otherLeft otherRight =>
      have first := leftPrints.mirrored mirrors otherLeft
      have second := rightPrints.mirrored first.mirrors otherRight
      exact ⟨first.trans second, rfl, .nil⟩

/-- The ends of two chains have the same form as those of the chains of the images. -/
theorem compressBoth_mirrored {left right leftImage rightImage leftEnd rightEnd : Ty}
    {otherEnds : Ty × Ty} (mirrors : Mirrors exchange one other)
    (same : ImagePair exchange one other (left, right) (leftImage, rightImage))
    (compressed : (compressBoth left right).run one = ((leftEnd, rightEnd), oneAfter))
    (otherCompressed : (compressBoth leftImage rightImage).run other = (otherEnds, otherAfter)) :
    Advance exchange one other oneAfter otherAfter ∧
      SameForm exchange oneAfter otherAfter leftEnd otherEnds.1 ∧
      SameForm exchange oneAfter otherAfter rightEnd otherEnds.2 ∧
      (∀ id, leftEnd = .var id → oneAfter.Free id) ∧
      ∀ id, rightEnd = .var id → oneAfter.Free id := by
  obtain ⟨agrees, size, leftStands, rightStands, leftOver, rightOver, leftFree, rightFree⟩ :=
    compressBoth_spec mirrors.sound compressed
  obtain ⟨otherAgrees, otherSize, otherLeftStands, otherRightStands, otherLeftOver,
    otherRightOver, otherLeftFree, otherRightFree⟩ :=
    compressBoth_spec mirrors.otherSound otherCompressed
  have advance := Advance.of_agrees mirrors agrees otherAgrees size otherSize
  have leftSame : Image exchange one other leftEnd otherEnds.1 :=
    { covered := leftOver same.1.covered
      imageOver := otherLeftOver same.1.imageOver
      resolve_eq := by rw [leftStands, otherLeftStands, same.1.resolve_eq] }
  have rightSame : Image exchange one other rightEnd otherEnds.2 :=
    { covered := rightOver same.2.covered
      imageOver := otherRightOver same.2.imageOver
      resolve_eq := by rw [rightStands, otherRightStands, same.2.resolve_eq] }
  have leftEnded (id : VariableId) (here : leftEnd = .var id) : oneAfter.Free id :=
    (agrees.free_iff id).mpr (leftFree id here)
  have rightEnded (id : VariableId) (here : rightEnd = .var id) : oneAfter.Free id :=
    (agrees.free_iff id).mpr (rightFree id here)
  refine ⟨advance, (leftSame.onward advance).form leftEnded ?_,
    (rightSame.onward advance).form rightEnded ?_, leftEnded, rightEnded⟩
  · exact fun id here => (otherAgrees.free_iff id).mpr (otherLeftFree id here)
  · exact fun id here => (otherAgrees.free_iff id).mpr (otherRightFree id here)

/-- What is known of a unification of several pairs that is followed in another store: it ends
in stores that mirror each other, and the problems are of the same kinds. -/
def Followed (exchange : VariableId → VariableId) (one last : Store) (pairs : List (Ty × Ty))
    (problems : List Problem) : Prop :=
  ∀ {other otherLast : Store} {images : List (Ty × Ty)} {otherProblems : List Problem},
    Mirrors exchange one other → List.Forall₂ (ImagePair exchange one other) pairs images →
    Unifies other images otherProblems otherLast →
    Advance exchange one other last otherLast ∧
      problems.map Problem.code = otherProblems.map Problem.code

/-- A unification of several pairs is followed when what is behind the first step is. -/
theorem Meets.followed {store reached between last : Store} {left right : Ty} {ends : Ty × Ty}
    {rest parts : List (Ty × Ty)} {here problems : List Problem}
    (compressed : (compressBoth left right).run store = (ends, reached))
    (meets : Meets reached ends here between parts)
    (further : Followed exchange between last (parts ++ rest) problems) :
    Followed exchange store last ((left, right) :: rest) (here ++ problems) := by
  intro other otherLast images otherProblems mirrors same otherUnifies
  obtain ⟨leftEnd, rightEnd⟩ := ends
  cases same with
  | @cons _ imagePair _ others first restSame =>
    obtain ⟨leftImage, rightImage⟩ := imagePair
    obtain ⟨⟨otherLeftEnd, otherRightEnd⟩, otherReached, otherHere, otherBetween, otherParts,
      otherFurther, otherCompressed, otherMeets, rfl, otherRest⟩ := otherUnifies.head
    obtain ⟨found, leftForm, rightForm, leftEnded, rightEnded⟩ :=
      compressBoth_mirrored mirrors first compressed otherCompressed
    obtain ⟨met, codes, partsSame⟩ :=
      meets.mirrored found.mirrors leftForm rightForm leftEnded rightEnded otherMeets
    have before := found.trans met
    have restOnward := restSame.imp fun _ _ pairSame => pairSame.onward before
    obtain ⟨behind, moreCodes⟩ :=
      further met.mirrors (List.rel_append partsSame restOnward) otherRest
    refine ⟨before.trans behind, ?_⟩
    rw [List.map_append, List.map_append, codes, moreCodes]

/-- Every unification is followed. -/
theorem Unifies.followed {store last : Store} {pairs : List (Ty × Ty)} {problems : List Problem}
    (unifies : Unifies store pairs problems last) : Followed exchange store last pairs problems := by
  induction unifies with
  | done =>
    intro other otherLast images otherProblems mirrors same otherUnifies
    cases same
    cases otherUnifies
    exact ⟨.refl mirrors, rfl⟩
  | bindLeft ends binds _ inductionHypothesis =>
    exact Meets.followed ends (.bindLeft binds) inductionHypothesis
  | bindRight ends proper binds _ inductionHypothesis =>
    exact Meets.followed ends (.bindRight proper binds) inductionHypothesis
  | primitive ends _ inductionHypothesis =>
    exact Meets.followed ends (.primitive _ _) inductionHypothesis
  | array ends _ inductionHypothesis =>
    exact Meets.followed ends (.array _ _ _) inductionHypothesis
  | function ends arity _ inductionHypothesis =>
    apply Meets.followed ends (.function _ _ _ arity)
    rw [List.append_assoc]
    exact inductionHypothesis
  | arity ends arity _ inductionHypothesis =>
    exact Meets.followed ends (.arity _ _ _ arity) inductionHypothesis
  | clash ends different left right _ inductionHypothesis =>
    exact Meets.followed ends (.clash different left right) inductionHypothesis

/-- Unifying terms, and unifying their images. -/
theorem unify_mirrored {left right leftImage rightImage : Ty} (mirrors : Mirrors exchange one other)
    (leftSame : Image exchange one other left leftImage)
    (rightSame : Image exchange one other right rightImage) :
    Advance exchange one other ((unify left right).run one).2
        ((unify leftImage rightImage).run other).2 ∧
      ((unify left right).run one).1.map Problem.code =
        ((unify leftImage rightImage).run other).1.map Problem.code := by
  have unifies := unify_unifies mirrors.sound leftSame.covered rightSame.covered
  have otherUnifies := unify_unifies mirrors.otherSound leftSame.imageOver rightSame.imageOver
  exact unifies.followed mirrors (.cons ⟨leftSame, rightSame⟩ .nil) otherUnifies

/-! ## Expansions -/

section

variable {m : Type → Type} [Monad m] [MonadLiftT Solver m] {runner : Runner m}
  {action otherAction : Action runner.World} {related : runner.World → runner.World → Prop}

/-- A relation of worlds with stores that mirror each other, which is kept when chains are
followed and when the actions act. -/
structure Simulates (exchange : VariableId → VariableId) (runner : Runner m)
    (action otherAction : Action runner.World) (related : runner.World → runner.World → Prop) :
    Prop where
  mirrors {world other : runner.World} : related world other →
    Mirrors exchange (runner.store world) (runner.store other)
  advanced {world other : runner.World} {after otherAfter : Store} : related world other →
    Advance exchange (runner.store world) (runner.store other) after otherAfter →
    related (runner.withStore world after) (runner.withStore other otherAfter)
  acted {world other next otherNext : runner.World} {id : VariableId} {image otherImage : Ty} :
    related world other → action world id image next →
    otherAction other (exchange id) otherImage otherNext →
    related next otherNext ∧
      Advance exchange (runner.store world) (runner.store other) (runner.store next)
        (runner.store otherNext)

/-- A chain is followed in related worlds. -/
theorem Simulates.follow (simulates : Simulates exchange runner action otherAction related)
    {world otherWorld : runner.World} {after otherAfter : Store}
    (start : related world otherWorld)
    (same : Image exchange (runner.store world) (runner.store otherWorld) term image)
    (compressed : (compress term).run (runner.store world) = (reached, after))
    (otherCompressed : (compress image).run (runner.store otherWorld) =
      (imageReached, otherAfter)) :
    related (runner.withStore world after) (runner.withStore otherWorld otherAfter) ∧
      Advance exchange (runner.store world) (runner.store otherWorld)
        (runner.store (runner.withStore world after))
        (runner.store (runner.withStore otherWorld otherAfter)) ∧
      SameForm exchange (runner.store (runner.withStore world after))
        (runner.store (runner.withStore otherWorld otherAfter)) reached imageReached := by
  obtain ⟨advance, form, -⟩ :=
    compress_mirrored (simulates.mirrors start) same compressed otherCompressed
  rw [runner.store_withStore, runner.store_withStore]
  exact ⟨simulates.advanced start advance, advance, form⟩

/-- Every expansion is followed. -/
theorem Expands.followed (simulates : Simulates exchange runner action otherAction related)
    {world last otherWorld otherLast : runner.World} {terms results images otherResults : List Ty}
    (start : related world otherWorld)
    (same : List.Forall₂ (Image exchange (runner.store world) (runner.store otherWorld)) terms
      images)
    (expands : Expands runner action world terms results last)
    (otherExpands : Expands runner otherAction otherWorld images otherResults otherLast) :
    related last otherLast ∧
      Advance exchange (runner.store world) (runner.store otherWorld) (runner.store last)
        (runner.store otherLast) := by
  -- the ends of both chains have the same form, so the other expansion takes the same step
  induction expands generalizing otherWorld images otherResults with
  | done =>
    cases same
    cases otherExpands
    exact ⟨start, .refl (simulates.mirrors start)⟩
  | free reached acted _ inductionHypothesis =>
    cases same with
    | @cons _ image _ others first restSame =>
      rcases otherReached : (compress image).run (runner.store otherWorld) with ⟨_, _⟩
      obtain ⟨next, advance, form⟩ := simulates.follow start first reached otherReached
      cases form
      cases otherExpands with
      | free again otherActed otherFurther =>
        cases otherReached.symm.trans again
        obtain ⟨nextNext, step⟩ := simulates.acted next acted otherActed
        have before := advance.trans step
        obtain ⟨final, behind⟩ :=
          inductionHypothesis nextNext (forall_onward restSame before) otherFurther
        exact ⟨final, before.trans behind⟩
      | primitive again => exact nomatch otherReached.symm.trans again
      | array again => exact nomatch otherReached.symm.trans again
      | function again => exact nomatch otherReached.symm.trans again
  | primitive reached _ inductionHypothesis =>
    cases same with
    | @cons _ image _ others first restSame =>
      rcases otherReached : (compress image).run (runner.store otherWorld) with ⟨_, _⟩
      obtain ⟨next, advance, form⟩ := simulates.follow start first reached otherReached
      cases form
      cases otherExpands with
      | free again => exact nomatch otherReached.symm.trans again
      | primitive again otherFurther =>
        cases otherReached.symm.trans again
        obtain ⟨final, behind⟩ :=
          inductionHypothesis next (forall_onward restSame advance) otherFurther
        exact ⟨final, advance.trans behind⟩
      | array again => exact nomatch otherReached.symm.trans again
      | function again => exact nomatch otherReached.symm.trans again
  | array reached _ inductionHypothesis =>
    cases same with
    | @cons _ image _ others first restSame =>
      rcases otherReached : (compress image).run (runner.store otherWorld) with ⟨_, _⟩
      obtain ⟨next, advance, form⟩ := simulates.follow start first reached otherReached
      cases form with
      | array elementSame =>
        cases otherExpands with
        | free again => exact nomatch otherReached.symm.trans again
        | primitive again => exact nomatch otherReached.symm.trans again
        | array again otherFurther =>
          cases otherReached.symm.trans again
          obtain ⟨final, behind⟩ := inductionHypothesis next
            (.cons elementSame (forall_onward restSame advance)) otherFurther
          exact ⟨final, advance.trans behind⟩
        | function again => exact nomatch otherReached.symm.trans again
  | function reached _ _ inductionHypothesis =>
    cases same with
    | @cons _ image _ others first restSame =>
      rcases otherReached : (compress image).run (runner.store otherWorld) with ⟨_, _⟩
      obtain ⟨next, advance, form⟩ := simulates.follow start first reached otherReached
      cases form with
      | function paramsSame resultSame =>
        cases otherExpands with
        | free again => exact nomatch otherReached.symm.trans again
        | primitive again => exact nomatch otherReached.symm.trans again
        | array again => exact nomatch otherReached.symm.trans again
        | function again _ otherFurther =>
          cases otherReached.symm.trans again
          have rest := List.Forall₂.cons resultSame (forall_onward restSame advance)
          obtain ⟨final, behind⟩ :=
            inductionHypothesis next (List.rel_append paramsSame rest) otherFurther
          exact ⟨final, advance.trans behind⟩

end

/-! ## Instances -/

/-- Generic variables have been renamed to variables that correspond. -/
structure Alike (exchange : VariableId → VariableId) (one : Store) (given otherGiven : Renaming) :
    Prop where
  inside : ∀ id renamed, given.lookup id = some renamed → renamed < one.cells.size
  lookup_eq : ∀ id, otherGiven.lookup (exchange id) = (given.lookup id).map exchange

/-- What has been renamed stays so. -/
theorem Alike.onward {given otherGiven : Renaming} (alike : Alike exchange one given otherGiven)
    (size_le : one.cells.size ≤ oneAfter.cells.size) :
    Alike exchange oneAfter given otherGiven where
  inside id renamed known := Nat.lt_of_lt_of_le (alike.inside id renamed known) size_le
  lookup_eq := alike.lookup_eq

/-- Two variables that correspond can be added. -/
theorem Alike.cons {given otherGiven : Renaming} {id renamed : VariableId}
    (alike : Alike exchange one given otherGiven) (injective : Function.Injective exchange)
    (inside : renamed < one.cells.size) :
    Alike exchange one ((id, renamed) :: given) ((exchange id, exchange renamed) :: otherGiven) := by
  constructor
  · intro place value known
    rw [lookup_cons_eq] at known
    split at known
    · cases known
      exact inside
    · exact alike.inside place value known
  · intro place
    rw [lookup_cons_eq, lookup_cons_eq, alike.lookup_eq]
    by_cases here : place = id
    · rw [if_pos here, if_pos (congrArg exchange here), Option.map_some]
    · rw [if_neg here, if_neg fun reached => here (injective reached)]

/-- Two worlds in which the same instance is taken. -/
structure InstanceAlike (exchange : VariableId → VariableId) (undetermined images : List Ty)
    (world otherWorld : Renaming × Store) : Prop where
  mirrors : Mirrors exchange world.2 otherWorld.2
  fixed : List.Forall₂ (Image exchange world.2 otherWorld.2) undetermined images
  alike : Alike exchange world.2 world.1 otherWorld.1

/-- The worlds may become others. -/
theorem InstanceAlike.onward {undetermined images : List Ty} {world otherWorld : Renaming × Store}
    (both : InstanceAlike exchange undetermined images world otherWorld)
    (advance : Advance exchange world.2 otherWorld.2 oneAfter otherAfter) :
    InstanceAlike exchange undetermined images (world.1, oneAfter) (otherWorld.1, otherAfter) where
  mirrors := advance.mirrors
  fixed := forall_onward both.fixed advance
  alike := both.alike.onward advance.refines.size_le

/-- Renaming a variable, and renaming its image. -/
theorem renames_simulates (undetermined images : List Ty) :
    Simulates exchange renamingRunner (Renames undetermined) (Renames images)
      (InstanceAlike exchange undetermined images) where
  mirrors both := both.mirrors
  advanced both advance := both.onward advance
  acted := by
    intro world otherWorld next otherNext id image otherImage both renames otherRenames
    have met := both.alike.lookup_eq id
    cases renames with
    | fixed found =>
      cases otherRenames with
      | fixed otherFound =>
        obtain ⟨advance, -⟩ := found.mirrored both.mirrors both.fixed otherFound
        exact ⟨both.onward advance, advance⟩
      | again generic => exact nomatch (found.mirrored both.mirrors both.fixed generic).2
      | anew generic => exact nomatch (found.mirrored both.mirrors both.fixed generic).2
    | again generic known =>
      rw [known] at met
      cases otherRenames with
      | fixed otherFound => exact nomatch (generic.mirrored both.mirrors both.fixed otherFound).2
      | again otherGeneric =>
        obtain ⟨advance, -⟩ := generic.mirrored both.mirrors both.fixed otherGeneric
        exact ⟨both.onward advance, advance⟩
      | anew _ unknown => exact nomatch unknown.symm.trans met
    | anew generic unknown added =>
      rw [unknown] at met
      cases otherRenames with
      | fixed otherFound => exact nomatch (generic.mirrored both.mirrors both.fixed otherFound).2
      | again _ known => exact nomatch known.symm.trans met
      | anew otherGeneric _ otherAdded =>
        obtain ⟨searched, -⟩ := generic.mirrored both.mirrors both.fixed otherGeneric
        obtain ⟨step, inside, same⟩ := fresh_mirrored searched.mirrors
        rw [added, otherAdded] at step same
        rw [added] at inside
        have advance := searched.trans step
        obtain ⟨mirrors, fixed, alike⟩ := both.onward advance
        cases same
        exact ⟨⟨mirrors, fixed, alike.cons mirrors.injective inside⟩, advance⟩

/-- The terms that replace a variable and its image correspond. -/
theorem renamedTo_exchange {fixed otherFixed : VariableId → Prop} {given otherGiven : Renaming}
    (alike : Alike exchange one given otherGiven) {id : VariableId}
    (fixed_iff : otherFixed (exchange id) ↔ fixed id) :
    renamedTo otherFixed otherGiven (exchange id) = (renamedTo fixed given id).rename exchange := by
  rw [renamedTo, renamedTo, alike.lookup_eq]
  by_cases isFixed : fixed id
  · rw [if_pos isFixed, if_pos (fixed_iff.mpr isFixed), Ty.rename_var]
  · rw [if_neg isFixed, if_neg fun otherIs => isFixed (fixed_iff.mp otherIs)]
    cases given.lookup id <;> rfl

/-- An instance of a term, and one of its image. -/
theorem freshInstance_mirrored {undetermined images : List Ty} (mirrors : Mirrors exchange one other)
    (fixed : List.Forall₂ (Image exchange one other) undetermined images)
    (same : Image exchange one other term image) :
    Advance exchange one other ((freshInstance undetermined term).run one).2
        ((freshInstance images image).run other).2 ∧
      Image exchange ((freshInstance undetermined term).run one).2
        ((freshInstance images image).run other).2 ((freshInstance undetermined term).run one).1
        ((freshInstance images image).run other).1 := by
  obtain ⟨undeterminedOver, imagesOver, -⟩ := Image.forall_iff.mp fixed
  have empty (store : Store) (id renamed : VariableId)
      (known : ([] : Renaming).lookup id = some renamed) : renamed < store.cells.size := by
    simp at known
  obtain ⟨result, given, after, taken, expands, renamed, resultEq, -⟩ :=
    sharedInstance_spec mirrors.sound (Ty.allOver_iff.mp undeterminedOver) same.covered (empty one)
  obtain ⟨otherResult, otherGiven, otherAfter, otherTaken, otherExpands, otherRenamed,
    otherResultEq, -⟩ := sharedInstance_spec mirrors.otherSound (Ty.allOver_iff.mp imagesOver)
      same.imageOver (empty other)
  have start : InstanceAlike exchange undetermined images ([], one) ([], other) :=
    ⟨mirrors, fixed, empty one, fun _ => rfl⟩
  obtain ⟨final, advance⟩ := Expands.followed (renames_simulates undetermined images) start
    (.cons same .nil) expands otherExpands
  have run {store last : Store} {kept : List Ty} {type value : Ty} {pairs : Renaming}
      (shared : ((sharedInstance kept type).run []).run store = ((value, pairs), last)) :
      (freshInstance kept type).run store = (value, last) := by
    have first := congrArg (fun outcome => (outcome.1.1, outcome.2)) shared
    exact first
  rw [run taken, run otherTaken]
  refine ⟨advance, ?_⟩
  have covered : result.Over after.cells.size :=
    resultEq ▸ renamed.covered (mirrors.sound.resolve_over same.covered)
  have renamedSame : otherResult = result.rename exchange := by
    rw [resultEq, otherResultEq, same.resolve_eq, Ty.substitute_rename, Ty.rename_substitute]
    apply Ty.substitute_congr
    intro id _
    apply renamedTo_exchange final.alike
    rw [reaches_varsOf, reaches_varsOf, Image.occurs_iff mirrors.injective fixed]
  rw [renamedSame]
  exact advance.mirrors.image_rename covered

end ArrowScript.Solver
