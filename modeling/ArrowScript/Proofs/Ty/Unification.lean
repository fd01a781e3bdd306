import ArrowScript.Proofs.Ty.Expansion
import ArrowScript.Proofs.Ty.Solutions
import ArrowScript.Ty.Unification

/-!
# Unification without a limit

`Unifies` describes unification on a list of pairs that are still to be unified, in the
order in which they are met and without a limit on the depth: both chains are followed,
a free variable is bound, and terms of the same form are replaced by the pairs of their
parts. It is shown what such a unification leaves behind.

The unification within the limit is one of these. On the way into two terms, each
linked variable that is passed on one side properly contains all that is met later on
that side, also after further variables have been bound. So no variable is passed twice
on a side, and the limit is never reached.
-/

namespace ArrowScript.Solver

open Store

variable {store between after last : Store}

/-! ## The relation -/

/-- Printing what a term stands for, without a limit on the depth. -/
def Prints (store : Store) (term : Ty) (text : String) (after : Store) : Prop :=
  ∃ image, Expands storeRunner keeps store [term] [image] after ∧
    text = image.render after.nameOf

/-- Binding a free variable to the end of a chain. -/
inductive Binds (free : VariableId) : Store → Ty → List Problem → Store → Prop
  | itself (store : Store) : Binds free store (.var free) [] store
  | another (store : Store) {other : VariableId} (different : other ≠ free) :
    Binds free store (.var other) [] (store.setLink free (.var other))
  | linked {store after : Store} {term : Ty} (proper : ∀ id, term ≠ .var id)
    (absent : Searches free store [term] false after) :
    Binds free store term [] (after.setLink free term)
  | infinite {store searched between after : Store} {term : Ty} {leftText rightText : String}
    (proper : ∀ id, term ≠ .var id) (occurs : Searches free store [term] true searched)
    (left : Prints searched (.var free) leftText between)
    (right : Prints between term rightText after) :
    Binds free store term [.infiniteType leftText rightText] after

/-- Tells whether two terms that are no variables have different forms. -/
def clash : Ty → Ty → Bool
  | .var _, _ | _, .var _ | .array _, .array _ | .function _ _, .function _ _ => false
  | .primitive left, .primitive right => left ≠ right
  | _, _ => true

/-- The ends of the chains that begin with two terms. -/
def compressBoth (left right : Ty) : Solver (Ty × Ty) := do
  let left ← compress left
  let right ← compress right
  return (left, right)

/-- The unification of several pairs, one after the other. -/
inductive Unifies : Store → List (Ty × Ty) → List Problem → Store → Prop
  | done (store : Store) : Unifies store [] [] store
  | bindLeft {store reached between last : Store} {left right term : Ty} {free : VariableId}
    {rest : List (Ty × Ty)} {here problems : List Problem}
    (ends : (compressBoth left right).run store = ((.var free, term), reached))
    (binds : Binds free reached term here between)
    (further : Unifies between rest problems last) :
    Unifies store ((left, right) :: rest) (here ++ problems) last
  | bindRight {store reached between last : Store} {left right term : Ty} {free : VariableId}
    {rest : List (Ty × Ty)} {here problems : List Problem}
    (ends : (compressBoth left right).run store = ((term, .var free), reached))
    (proper : ∀ id, term ≠ .var id) (binds : Binds free reached term here between)
    (further : Unifies between rest problems last) :
    Unifies store ((left, right) :: rest) (here ++ problems) last
  | primitive {store reached last : Store} {left right : Ty} {kind : Primitive}
    {rest : List (Ty × Ty)} {problems : List Problem}
    (ends : (compressBoth left right).run store = ((.primitive kind, .primitive kind), reached))
    (further : Unifies reached rest problems last) :
    Unifies store ((left, right) :: rest) problems last
  | array {store reached last : Store} {left right leftElement rightElement : Ty}
    {rest : List (Ty × Ty)} {problems : List Problem}
    (ends : (compressBoth left right).run store =
      ((.array leftElement, .array rightElement), reached))
    (further : Unifies reached ((leftElement, rightElement) :: rest) problems last) :
    Unifies store ((left, right) :: rest) problems last
  | function {store reached last : Store} {left right leftResult rightResult : Ty}
    {leftParams rightParams : List Ty} {rest : List (Ty × Ty)} {problems : List Problem}
    (ends : (compressBoth left right).run store =
      ((.function leftParams leftResult, .function rightParams rightResult), reached))
    (arity : leftParams.length = rightParams.length)
    (further : Unifies reached
      (leftParams.zip rightParams ++ (leftResult, rightResult) :: rest) problems last) :
    Unifies store ((left, right) :: rest) problems last
  | arity {store reached last : Store} {left right leftResult rightResult : Ty}
    {leftParams rightParams : List Ty} {rest : List (Ty × Ty)} {problems : List Problem}
    (ends : (compressBoth left right).run store =
      ((.function leftParams leftResult, .function rightParams rightResult), reached))
    (arity : leftParams.length ≠ rightParams.length)
    (further : Unifies reached rest problems last) :
    Unifies store ((left, right) :: rest)
      (.arityMismatch leftParams.length rightParams.length :: problems) last
  | clash {store reached between after last : Store} {left right leftEnd rightEnd : Ty}
    {leftText rightText : String} {rest : List (Ty × Ty)} {problems : List Problem}
    (ends : (compressBoth left right).run store = ((leftEnd, rightEnd), reached))
    (different : clash leftEnd rightEnd = true)
    (leftPrints : Prints reached leftEnd leftText between)
    (rightPrints : Prints between rightEnd rightText after)
    (further : Unifies after rest problems last) :
    Unifies store ((left, right) :: rest) (.typeMismatch leftText rightText :: problems) last

/-! ## What a unification leaves behind -/

/-- A printing changes only the length of chains. -/
theorem Prints.spec {term : Ty} {text : String} (prints : Prints store term text after)
    (sound : store.Sound) :
    Agrees store after ∧ after.cells.size = store.cells.size ∧
      text = (store.resolve term).render after.nameOf := by
  obtain ⟨image, expands, rfl⟩ := prints
  obtain ⟨-, agrees, -, -, images⟩ := expands.images_eq keeps_settles sound
  have size := expands.size_eq fun world id image next ⟨_, same⟩ => by rw [same]
  have imageEq : image = store.resolve term := by simpa using images
  exact ⟨agrees, size, by rw [imageEq]⟩

/-- Following two chains changes only their length. -/
theorem compressBoth_spec (sound : store.Sound) {left right leftEnd rightEnd : Ty}
    (ends : (compressBoth left right).run store = ((leftEnd, rightEnd), after)) :
    Agrees store after ∧ after.cells.size = store.cells.size ∧
      store.resolve leftEnd = store.resolve left ∧
      store.resolve rightEnd = store.resolve right ∧
      (left.Over store.cells.size → leftEnd.Over store.cells.size) ∧
      (right.Over store.cells.size → rightEnd.Over store.cells.size) ∧
      (∀ id, leftEnd = .var id → store.Free id) ∧
      ∀ id, rightEnd = .var id → store.Free id := by
  rcases first : (compress left).run store with ⟨firstEnd, between⟩
  rcases second : (compress right).run between with ⟨secondEnd, last⟩
  have ran : (compressBoth left right).run store = ((firstEnd, secondEnd), last) := by
    rw [compressBoth, run_bind, first, run_bind, second, run_pure]
  obtain ⟨both, rfl⟩ := Prod.mk.inj (ran.symm.trans ends)
  obtain ⟨rfl, rfl⟩ := Prod.mk.inj both
  obtain ⟨agrees, size, same, free⟩ := resolve_compressed sound first
  obtain ⟨agreesLast, sizeLast, sameLast, freeLast⟩ :=
    resolve_compressed (agrees.sound sound) second
  have leftEnds := compress_ends sound.acyclic left
  have rightEnds := compress_ends (agrees.sound sound).acyclic right
  rw [first] at leftEnds
  rw [second] at rightEnds
  simp only [agrees.resolve_eq] at sameLast
  refine ⟨agrees.trans agreesLast, sizeLast.trans size, same, sameLast, ?_, ?_, free, ?_⟩
  · exact fun covered => leftEnds.covered sound covered
  · exact fun covered => size ▸ rightEnds.covered (agrees.sound sound) (size.symm ▸ covered)
  · exact fun id here => (agrees.free_iff id).mp (freeLast id here)

/-- Terms of different forms are never equal. -/
theorem clash_unsolvable {count : Nat} {left right : Ty} (different : clash left right = true)
    (covered : left.Over count) (model : VariableId → Ty) :
    left.substitute model ≠ right.substitute model := by
  cases left <;> cases right <;> simp_all [clash]

/-- Binding a free variable unifies it with the term. -/
theorem Binds.unified {free : VariableId} {term : Ty} {problems : List Problem}
    (binds : Binds free store term problems after) (sound : store.Sound)
    (inside : free < store.cells.size) (isFree : store.Free free)
    (covered : term.Over store.cells.size)
    (ended : ∀ id, term = .var id → store.Free id) :
    Unified store [(.var free, term)] problems after := by
  cases binds with
  | itself => exact (Unified.nil sound).congr (by simp [Equates]) (by simp [Concerns])
  | another different =>
    refine .setLink sound inside isFree covered ?_
    rw [resolve_free (ended _ rfl)]
    simpa using Ne.symm different
  | linked proper absent =>
    obtain ⟨agrees, size, found⟩ := absent.spec sound
    have apart : free ∉ (store.resolve term).vars := by simpa using found
    rw [← agrees.resolve_eq] at apart
    refine .after_agrees agrees size sound (.setLink (agrees.sound sound) ?_ ?_ ?_ apart)
    · exact size.symm ▸ inside
    · exact (agrees.free_iff free).mpr isFree
    · exact size.symm ▸ covered
  | infinite proper occurs left right =>
    obtain ⟨agrees, size, found⟩ := occurs.spec sound
    obtain ⟨agreesLeft, sizeLeft, -⟩ := left.spec (agrees.sound sound)
    obtain ⟨agreesRight, sizeRight, -⟩ := right.spec (agreesLeft.sound (agrees.sound sound))
    refine .conflict (agrees.trans (agreesLeft.trans agreesRight))
      (sizeRight.trans (sizeLeft.trans size)) sound (by simp) ?_
    intro model models equates
    have within : free ∈ (store.resolve term).vars := by simpa using found
    have proper : store.resolve term ≠ .var free := by
      intro same
      cases term <;> simp_all
    have equal : model free = term.substitute model := by simpa [Equates] using equates
    rw [← models term] at equal
    exact Ty.substitute_ne_of_mem_vars within proper model equal

/-- The ends of two chains can be unified in place of their beginnings. -/
theorem Unified.follow (sound : store.Sound) {left right leftEnd rightEnd : Ty}
    {rest : List (Ty × Ty)} {problems : List Problem}
    (ends : (compressBoth left right).run store = ((leftEnd, rightEnd), between))
    (unified : Unified between ((leftEnd, rightEnd) :: rest) problems after) :
    Unified store ((left, right) :: rest) problems after := by
  obtain ⟨agrees, size, leftSame, rightSame, -⟩ := compressBoth_spec sound ends
  simp only [← agrees.resolve_eq] at leftSame rightSame
  refine .after_agrees agrees size sound (unified.congr ?_ ?_)
  · intro model models
    rw [equates_cons, equates_cons, models.eq_of_resolve_eq leftSame,
      models.eq_of_resolve_eq rightSame]
  · simp [Concerns, leftSame, rightSame]

/-- The pairs of the parts of two functions are equated exactly when the functions are. -/
theorem equates_parts {leftParams rightParams : List Ty}
    (arity : leftParams.length = rightParams.length) (leftResult rightResult : Ty)
    (rest : List (Ty × Ty)) (model : VariableId → Ty) :
    Equates model (leftParams.zip rightParams ++ (leftResult, rightResult) :: rest) ↔
      Equates model ((.function leftParams leftResult, .function rightParams rightResult) ::
        rest) := by
  simp [equates_zip arity, and_assoc]

/-- The pairs of the parts of two functions concern no more than the functions. -/
theorem concerns_parts {leftParams rightParams : List Ty} (leftResult rightResult : Ty)
    (rest : List (Ty × Ty)) (id : VariableId)
    (concerned : Concerns store
      (leftParams.zip rightParams ++ (leftResult, rightResult) :: rest) id) :
    Concerns store
      ((.function leftParams leftResult, .function rightParams rightResult) :: rest) id := by
  obtain ⟨⟨left, right⟩, member, occurs⟩ := concerned
  rcases List.mem_append.mp member with inParams | inRest
  · have leftMember := (List.of_mem_zip inParams).1
    have rightMember := (List.of_mem_zip inParams).2
    refine ⟨_, List.mem_cons_self, ?_⟩
    simp only [resolve_function, Ty.vars, List.mem_append, Ty.mem_varsOf, List.mem_map]
    exact occurs.imp (fun found => .inl ⟨_, ⟨left, leftMember, rfl⟩, found⟩)
      fun found => .inl ⟨_, ⟨right, rightMember, rfl⟩, found⟩
  · rcases List.mem_cons.mp inRest with same | member
    · obtain ⟨rfl, rfl⟩ := Prod.mk.inj same
      refine ⟨_, List.mem_cons_self, ?_⟩
      simp only [resolve_function, Ty.vars, List.mem_append]
      exact occurs.imp .inr .inr
    · exact ⟨_, List.mem_cons_of_mem _ member, occurs⟩

/-- The pairs to be unified are over the first variables of a store. -/
def PairsOver (count : Nat) (pairs : List (Ty × Ty)) : Prop :=
  ∀ pair ∈ pairs, pair.1.Over count ∧ pair.2.Over count

/-- A first pair is over the variables that the others are over. -/
@[simp]
theorem pairsOver_cons {count : Nat} {left right : Ty} {rest : List (Ty × Ty)} :
    PairsOver count ((left, right) :: rest) ↔
      (left.Over count ∧ right.Over count) ∧ PairsOver count rest := by
  simp [PairsOver]

/-- The pairs of the parts of two functions are over what the functions are over. -/
theorem PairsOver.parts {count : Nat} {leftParams rightParams : List Ty}
    {leftResult rightResult : Ty} {rest : List (Ty × Ty)}
    (covered : PairsOver count
      ((.function leftParams leftResult, .function rightParams rightResult) :: rest)) :
    PairsOver count (leftParams.zip rightParams ++ (leftResult, rightResult) :: rest) := by
  simp only [pairsOver_cons, Ty.Over, Ty.allOver_iff] at covered
  obtain ⟨⟨⟨leftOver, leftResultOver⟩, rightOver, rightResultOver⟩, restOver⟩ := covered
  rintro ⟨left, right⟩ member
  rcases List.mem_append.mp member with inParams | inRest
  · exact ⟨leftOver left (List.of_mem_zip inParams).1, rightOver right (List.of_mem_zip inParams).2⟩
  · rcases List.mem_cons.mp inRest with same | member
    · obtain ⟨rfl, rfl⟩ := Prod.mk.inj same
      exact ⟨leftResultOver, rightResultOver⟩
    · exact restOver _ member

/-- Every unification does what unification is for. -/
theorem Unifies.unified {pairs : List (Ty × Ty)} {problems : List Problem}
    (unifies : Unifies store pairs problems after) (sound : store.Sound)
    (covered : PairsOver store.cells.size pairs) : Unified store pairs problems after := by
  induction unifies with
  | done => exact .nil sound
  | bindLeft ends binds further inductionHypothesis =>
    obtain ⟨agrees, size, -, -, leftOver, rightOver, leftFree, rightFree⟩ :=
      compressBoth_spec sound ends
    rw [pairsOver_cons] at covered
    have bound := binds.unified (agrees.sound sound) (size.symm ▸ leftOver covered.1.1)
      ((agrees.free_iff _).mpr (leftFree _ rfl)) (size.symm ▸ rightOver covered.1.2)
      fun id same => (agrees.free_iff id).mpr (rightFree id same)
    have others := inductionHypothesis (bound.refines.sound (agrees.sound sound))
      ((bound.size_eq.trans size).symm ▸ covered.2)
    exact .follow sound ends (bound.append others)
  | bindRight ends proper binds further inductionHypothesis =>
    obtain ⟨agrees, size, -, -, leftOver, rightOver, leftFree, rightFree⟩ :=
      compressBoth_spec sound ends
    rw [pairsOver_cons] at covered
    have bound := binds.unified (agrees.sound sound) (size.symm ▸ rightOver covered.1.2)
      ((agrees.free_iff _).mpr (rightFree _ rfl)) (size.symm ▸ leftOver covered.1.1)
      fun id same => absurd same (proper id)
    have others := inductionHypothesis (bound.refines.sound (agrees.sound sound))
      ((bound.size_eq.trans size).symm ▸ covered.2)
    exact .follow sound ends (bound.swap.append others)
  | primitive ends further inductionHypothesis =>
    obtain ⟨agrees, size, -⟩ := compressBoth_spec sound ends
    rw [pairsOver_cons] at covered
    have others := inductionHypothesis (agrees.sound sound) (size.symm ▸ covered.2)
    exact .follow sound ends (others.congr (by simp) (by simp [Concerns]))
  | array ends further inductionHypothesis =>
    obtain ⟨agrees, size, -, -, leftOver, rightOver, -⟩ := compressBoth_spec sound ends
    rw [pairsOver_cons] at covered
    have elements := inductionHypothesis (agrees.sound sound)
      (size.symm ▸ pairsOver_cons.mpr ⟨⟨leftOver covered.1.1, rightOver covered.1.2⟩, covered.2⟩)
    exact .follow sound ends (elements.congr (by simp) (by simp [Concerns]))
  | function ends arity further inductionHypothesis =>
    obtain ⟨agrees, size, -, -, leftOver, rightOver, -⟩ := compressBoth_spec sound ends
    rw [pairsOver_cons] at covered
    have functions := pairsOver_cons.mpr ⟨⟨leftOver covered.1.1, rightOver covered.1.2⟩, covered.2⟩
    have parts := inductionHypothesis (agrees.sound sound) (size.symm ▸ functions.parts)
    exact .follow sound ends (parts.congr (fun model _ => equates_parts arity _ _ _ model)
      (concerns_parts _ _ _))
  | @arity _ _ _ _ _ leftResult rightResult leftParams rightParams _ _ ends arity further
      inductionHypothesis =>
    obtain ⟨agrees, size, -⟩ := compressBoth_spec sound ends
    rw [pairsOver_cons] at covered
    have others := inductionHypothesis (agrees.sound sound) (size.symm ▸ covered.2)
    have unsolvable (model : VariableId → Ty) :
        ¬ Equates model [(.function leftParams leftResult, .function rightParams rightResult)] := by
      intro equates
      have params : leftParams.map (·.substitute model) = rightParams.map (·.substitute model) := by
        have functions := (equates_cons.mp equates).1
        simp only [Ty.substitute, Ty.substituteAll_eq_map, Ty.function.injEq] at functions
        exact functions.1
      exact arity (by simpa using congrArg List.length params)
    have here := Unified.conflict (.refl _) rfl (agrees.sound sound)
      (List.cons_ne_nil (.arityMismatch leftParams.length rightParams.length) [])
      fun model _ => unsolvable model
    exact .follow sound ends (here.append others)
  | @clash _ _ between after _ _ _ leftEnd rightEnd leftText rightText _ _ ends different
      leftPrints rightPrints further inductionHypothesis =>
    obtain ⟨agrees, size, -, -, leftOver, -⟩ := compressBoth_spec sound ends
    rw [pairsOver_cons] at covered
    obtain ⟨agreesLeft, sizeLeft, -⟩ := leftPrints.spec (agrees.sound sound)
    obtain ⟨agreesRight, sizeRight, -⟩ :=
      rightPrints.spec (agreesLeft.sound (agrees.sound sound))
    have printed := agreesLeft.trans agreesRight
    have sizePrinted := sizeRight.trans sizeLeft
    have others := inductionHypothesis (printed.sound (agrees.sound sound))
      ((sizePrinted.trans size).symm ▸ covered.2)
    have unsolvable (model : VariableId → Ty) : ¬ Equates model [(leftEnd, rightEnd)] :=
      fun equates => clash_unsolvable different (leftOver covered.1.1) model
        (equates_cons.mp equates).1
    have here := Unified.conflict printed sizePrinted (agrees.sound sound)
      (List.cons_ne_nil (.typeMismatch leftText rightText) []) fun model _ => unsolvable model
    exact .follow sound ends (here.append others)

end ArrowScript.Solver
