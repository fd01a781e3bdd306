import ArrowScript.Proofs.Ty.Unification

/-!
# Unification within the limit

The unification within the limit is carried out completely. On the way into two terms,
each linked variable that has been passed on one side properly contains all that is met
later on that side, also after further variables have been bound: a substitution keeps
what stands inside a term inside it. So no variable is passed twice on a side, and twice
the number of variables is never exceeded.
-/

namespace ArrowScript.Solver

open Store

variable {store between after : Store} {size limit : Nat}
  {leftPassed rightPassed : Finset VariableId}

/-! ## The outermost steps -/

/-- The run of a binding to a term that is no variable. -/
theorem bindVariable_run (free : VariableId) {term : Ty} (proper : ∀ id, term ≠ .var id)
    (store : Store) :
    (bindVariable free term).run store =
      let searched := (occursIn free term).run store
      if searched.1 then
        let left := (print (.var free)).run searched.2
        let right := (print term).run left.2
        ([.infiniteType left.1 right.1], right.2)
      else ([], searched.2.setLink free term) := by
  have branches (test : Bool) (otherwise : Solver (List Problem)) (store : Store) :
      (if test then do
          let left ← print (.var free)
          let right ← print term
          return [Problem.infiniteType left right]
        else otherwise : Solver (List Problem)).run store =
        if test then
          let left := (print (.var free)).run store
          let right := (print term).run left.2
          ([.infiniteType left.1 right.1], right.2)
        else otherwise.run store := by
    cases test <;> rfl
  cases term with
  | var id => exact absurd rfl (proper id)
  | primitive kind =>
    rw [bindVariable.eq_def, run_bind]
    exact branches _ _ _
  | array element =>
    rw [bindVariable.eq_def, run_bind]
    exact branches _ _ _
  | function params result =>
    rw [bindVariable.eq_def, run_bind]
    exact branches _ _ _
  | shapeless =>
    rw [bindVariable.eq_def, run_bind]
    exact branches _ _ _

/-- Printing is carried out completely. -/
theorem print_prints (sound : store.Sound) {term : Ty} (covered : term.Over store.cells.size) :
    Prints store term ((print term).run store).1 ((print term).run store).2 ∧
      ((print term).run store).2.Sound ∧
      ((print term).run store).2.cells.size = store.cells.size := by
  obtain ⟨after, expands, ran, agrees, size⟩ := print_spec sound covered
  rw [ran]
  exact ⟨⟨_, expands, rfl⟩, agrees.sound sound, size⟩

/-- A free variable is bound completely. -/
theorem bindVariable_binds (sound : store.Sound) {free : VariableId}
    (inside : free < store.cells.size) {term : Ty} (covered : term.Over store.cells.size) :
    Binds free store term ((bindVariable free term).run store).1
      ((bindVariable free term).run store).2 := by
  by_cases proper : ∀ id, term ≠ .var id
  · rw [bindVariable_run free proper]
    have searches := occursIn_searches sound covered free
    obtain ⟨agrees, size, -⟩ := occursIn_spec sound covered free
    rcases searched : (occursIn free term).run store with ⟨found, between⟩
    rw [searched] at searches agrees size
    cases found with
    | false => exact .linked proper searches
    | true =>
      have freeOver : (Ty.var free).Over between.cells.size := size.symm ▸ inside
      obtain ⟨left, leftSound, leftSize⟩ := print_prints (agrees.sound sound) freeOver
      obtain ⟨right, -⟩ := print_prints leftSound ((leftSize.trans size).symm ▸ covered)
      exact .infinite proper searches left right
  · obtain ⟨other, rfl⟩ : ∃ other, term = .var other := by simpa using proper
    by_cases same : other = free
    · subst same
      have ran : (bindVariable other (.var other)).run store = ([], store) := by
        rw [bindVariable, if_pos rfl, run_pure]
      rw [ran]
      exact .itself store
    · have ran : (bindVariable free (.var other)).run store =
          ([], store.setLink free (.var other)) := by
        rw [bindVariable, if_neg same]
        rfl
      rw [ran]
      exact .another store same

/-- The outcome of unifying some pairs, as part of any unification that goes on with
more. -/
def UnifiesFirst (store : Store) (pairs : List (Ty × Ty)) (outcome : List Problem × Store) :
    Prop :=
  ∀ rest problems last, Unifies outcome.2 rest problems last →
    Unifies store (pairs ++ rest) (outcome.1 ++ problems) last

/-- A unification after which nothing is left is complete. -/
theorem UnifiesFirst.unifies {pairs : List (Ty × Ty)} {outcome : List Problem × Store}
    (first : UnifiesFirst store pairs outcome) : Unifies store pairs outcome.1 outcome.2 := by
  simpa using first [] [] _ (.done _)

/-- Two unifications one after the other. -/
theorem UnifiesFirst.append {pairs others : List (Ty × Ty)} {outcome next : List Problem × Store}
    (first : UnifiesFirst store pairs outcome) (second : UnifiesFirst outcome.2 others next) :
    UnifiesFirst store (pairs ++ others) (outcome.1 ++ next.1, next.2) := by
  intro rest problems last further
  simpa using first _ _ _ (second rest problems last further)

/-- Terms that are no variables are the ends of their own chains. -/
theorem compressBoth_of_ne_var {left right : Ty} (leftProper : ∀ id, left ≠ .var id)
    (rightProper : ∀ id, right ≠ .var id) (store : Store) :
    (compressBoth left right).run store = ((left, right), store) := by
  rw [compressBoth, run_bind, compress_of_ne_var leftProper, run_bind,
    compress_of_ne_var rightProper, run_pure]

/-- Terms of different forms are reported. -/
theorem mismatch_unifies (sound : store.Sound) {left right : Ty}
    (leftOver : left.Over store.cells.size) (rightOver : right.Over store.cells.size)
    (different : clash left right = true) :
    UnifiesFirst store [(left, right)] ((mismatch left right).run store) := by
  obtain ⟨leftPrints, leftSound, leftSize⟩ := print_prints sound leftOver
  obtain ⟨rightPrints, -⟩ := print_prints leftSound (leftSize.symm ▸ rightOver)
  have ends : (compressBoth left right).run store = ((left, right), store) := by
    refine compressBoth_of_ne_var ?_ ?_ store
    · rintro id rfl
      simp [clash] at different
    · rintro id rfl
      cases left <;> simp [clash] at different
  intro rest problems last further
  exact .clash ends different leftPrints rightPrints further

/-! ## The invariant of the descent -/

/-- What holds of a side of a pair: its term is what a passed variable stands for, or
stands inside that. -/
def Within (store : Store) (size : Nat) (passed : Finset VariableId) (term : Ty) : Prop :=
  ∀ id ∈ passed, id < size ∧
    Relation.ReflTransGen Ty.Part (store.resolve term) (store.resolve (.var id))

/-- What holds of a side of a pair when further variables can be passed: its term stands
inside what each passed variable stands for. -/
def Below (store : Store) (size : Nat) (passed : Finset VariableId) (term : Ty) : Prop :=
  ∀ id ∈ passed, id < size ∧ Ty.Inside (store.resolve term) (store.resolve (.var id))

/-- Making a store more specific keeps a term within the passed variables. -/
theorem Within.refine {passed : Finset VariableId} {term : Ty}
    (within : Within store size passed term) (refines : Refines store after) :
    Within after size passed term := by
  intro id member
  obtain ⟨inside, path⟩ := within id member
  rcases Relation.reflTransGen_iff_eq_or_transGen.mp path with same | strictly
  · rw [refines.resolve_eq same]
    exact ⟨inside, .refl⟩
  · exact ⟨inside, (refines.inside strictly).to_reflTransGen⟩

/-- Making a store more specific keeps a term below the passed variables. -/
theorem Below.refine {passed : Finset VariableId} {term : Ty}
    (below : Below store size passed term) (refines : Refines store after) :
    Below after size passed term :=
  fun id member => ⟨(below id member).1, refines.inside (below id member).2⟩

/-- A part of a term within the passed variables is below them. -/
theorem Within.part {passed : Finset VariableId} {part whole : Ty}
    (within : Within store size passed whole) (isPart : Ty.Part part whole) :
    Below store size passed part :=
  fun id member => ⟨(within id member).1,
    .head' (isPart.substitute store.solution) (within id member).2⟩

/-- A term that is below is within. -/
theorem Below.within {passed : Finset VariableId} {term : Ty}
    (below : Below store size passed term) : Within store size passed term :=
  fun id member => ⟨(below id member).1, (below id member).2.to_reflTransGen⟩

/-- What the unification of a pair relies on. -/
structure Descent (size : Nat) (leftPassed rightPassed : Finset VariableId) (store : Store)
    (left right : Ty) : Prop where
  sound : store.Sound
  size_eq : store.cells.size = size
  leftOver : left.Over size
  rightOver : right.Over size
  leftWithin : Within store size leftPassed left
  rightWithin : Within store size rightPassed right
  below : (∃ id, left = .var id ∨ right = .var id) →
    Below store size leftPassed left ∧ Below store size rightPassed right

namespace Descent

variable {left right : Ty}

/-- The descent goes on after other pairs have been unified. -/
theorem refine (descent : Descent size leftPassed rightPassed store left right)
    {pairs : List (Ty × Ty)} {problems : List Problem}
    (unified : Unified store pairs problems after) :
    Descent size leftPassed rightPassed after left right where
  sound := unified.refines.sound descent.sound
  size_eq := unified.size_eq.trans descent.size_eq
  leftOver := descent.leftOver
  rightOver := descent.rightOver
  leftWithin := descent.leftWithin.refine unified.refines
  rightWithin := descent.rightWithin.refine unified.refines
  below met := (descent.below met).imp (·.refine unified.refines) (·.refine unified.refines)

/-- The descent goes on to the parts. -/
theorem parts (descent : Descent size leftPassed rightPassed store left right)
    {leftPart rightPart : Ty} (leftIs : Ty.Part leftPart left)
    (rightIs : Ty.Part rightPart right) :
    Descent size leftPassed rightPassed store leftPart rightPart where
  sound := descent.sound
  size_eq := descent.size_eq
  leftOver := leftIs.covered descent.leftOver
  rightOver := rightIs.covered descent.rightOver
  leftWithin := (descent.leftWithin.part leftIs).within
  rightWithin := (descent.rightWithin.part rightIs).within
  below _ := ⟨descent.leftWithin.part leftIs, descent.rightWithin.part rightIs⟩

/-- The unification of a pair that the descent has come to does what unification is for. -/
theorem unified (descent : Descent size leftPassed rightPassed store left right)
    {outcome : List Problem × Store} (first : UnifiesFirst store [(left, right)] outcome) :
    Unified store [(left, right)] outcome.1 outcome.2 := by
  refine first.unifies.unified descent.sound ?_
  rw [descent.size_eq]
  simpa [PairsOver] using ⟨descent.leftOver, descent.rightOver⟩

end Descent

/-! ## The unification within the limit -/

/-- A computation that unifies every pair with a variable in it that the descent comes to. -/
def UnifiesVariables (size : Nat) (leftPassed rightPassed : Finset VariableId)
    (atVariable : Ty → Ty → Solver (List Problem)) : Prop :=
  ∀ left right store, Descent size leftPassed rightPassed store left right →
    (∃ id, left = .var id ∨ right = .var id) →
    UnifiesFirst store [(left, right)] ((atVariable left right).run store)

variable {atVariable : Ty → Ty → Solver (List Problem)}

/-- The unification of several pairs is one of each of them in turn. -/
theorem unifyPairs_unifies {left right : List Ty}
    (each : ∀ pair ∈ left.zip right, ∀ store,
      Descent size leftPassed rightPassed store pair.1 pair.2 →
      UnifiesFirst store [pair] ((unifyParts atVariable pair.1 pair.2).run store))
    (store : Store)
    (descents : ∀ pair ∈ left.zip right, Descent size leftPassed rightPassed store pair.1 pair.2) :
    UnifiesFirst store (left.zip right) ((unifyPairs atVariable left right).run store) := by
  induction left generalizing right store with
  | nil =>
    rw [unifyPairs.eq_def]
    exact fun rest problems last further => further
  | cons first others inductionHypothesis =>
    cases right with
    | nil => exact fun rest problems last further => further
    | cons second more =>
      have here := each (first, second) (by simp) store (descents _ (by simp))
      have unified := (descents (first, second) (by simp)).unified here
      have further := inductionHypothesis (fun pair member => each pair (.tail _ member)) _
        fun pair member => (descents pair (.tail _ member)).refine unified
      rw [unifyPairs, run_bind, run_bind, run_pure]
      exact here.append further

/-- Where one of two terms is a variable, unification part by part acts on both. -/
theorem unifyParts_of_var {left right : Ty} (met : ∃ id, left = .var id ∨ right = .var id) :
    unifyParts atVariable left right = atVariable left right := by
  obtain ⟨id, rfl | rfl⟩ := met
  · rw [unifyParts]
  · cases left <;> rw [unifyParts] <;> simp

/-- Terms of different forms are a mismatch. -/
theorem unifyParts_of_clash {left right : Ty} (different : clash left right = true) :
    unifyParts atVariable left right = mismatch left right := by
  cases left <;> cases right <;> simp [clash] at different <;> simp [unifyParts, different]

/-- The unification of two terms part by part is complete if it is at their variables and
their parts. -/
theorem unifyParts_layer
    (atVariables : UnifiesVariables size leftPassed rightPassed atVariable) {left right : Ty}
    (parts : ∀ leftPart rightPart store, Ty.Part leftPart left →
      Descent size leftPassed rightPassed store leftPart rightPart →
      UnifiesFirst store [(leftPart, rightPart)]
        ((unifyParts atVariable leftPart rightPart).run store))
    (descent : Descent size leftPassed rightPassed store left right) :
    UnifiesFirst store [(left, right)] ((unifyParts atVariable left right).run store) := by
  by_cases met : ∃ id, left = .var id ∨ right = .var id
  · rw [unifyParts_of_var met]
    exact atVariables left right store descent met
  by_cases different : clash left right = true
  · rw [unifyParts_of_clash different]
    exact mismatch_unifies descent.sound (descent.size_eq ▸ descent.leftOver)
      (descent.size_eq ▸ descent.rightOver) different
  have ends : (compressBoth left right).run store = ((left, right), store) :=
    compressBoth_of_ne_var (fun id same => met ⟨id, .inl same⟩)
      (fun id same => met ⟨id, .inr same⟩) store
  cases left <;> cases right <;> simp [clash] at different met
  case primitive.primitive kind other =>
    subst different
    have ran : unifyParts atVariable (.primitive kind) (.primitive kind) = pure [] := by
      rw [unifyParts, if_pos rfl]
    rw [ran, run_pure]
    exact fun rest problems last further => .primitive ends further
  case array.array element other =>
    have inner := parts element other store (.element element)
      (descent.parts (.element element) (.element other))
    rw [unifyParts]
    exact fun rest problems last further => .array ends (inner rest problems last further)
  case function.function params result others otherResult =>
    rw [unifyParts]
    by_cases arity : params.length = others.length
    · have descents (pair : Ty × Ty) (member : pair ∈ params.zip others) :
          Descent size leftPassed rightPassed store pair.1 pair.2 :=
        descent.parts (.param result (List.of_mem_zip member).1)
          (.param otherResult (List.of_mem_zip member).2)
      have pairs : UnifiesFirst store (params.zip others)
          ((unifyPairs atVariable params others).run store) :=
        unifyPairs_unifies (fun pair member store => parts pair.1 pair.2 store
          (.param result (List.of_mem_zip member).1)) store descents
      have unified := pairs.unifies.unified descent.sound fun pair member =>
        descent.size_eq.symm ▸ ⟨(descents pair member).leftOver, (descents pair member).rightOver⟩
      have results := (descent.parts (.result params result) (.result others otherResult)).refine
        unified
      have both := pairs.append (parts result otherResult _ (.result params result) results)
      rw [if_neg (not_not.mpr arity), run_bind, run_bind, run_pure]
      intro rest problems last further
      exact .function ends arity (by simpa using both rest problems last further)
    · rw [if_pos arity, run_pure]
      exact fun rest problems last further => .arity ends arity further

/-- The unification of two terms part by part is complete if it is at their variables. -/
theorem unifyParts_unifies
    (atVariables : UnifiesVariables size leftPassed rightPassed atVariable) (left right : Ty)
    (store : Store) (descent : Descent size leftPassed rightPassed store left right) :
    UnifiesFirst store [(left, right)] ((unifyParts atVariable left right).run store) := by
  induction left generalizing right store with
  | var id => exact unifyParts_layer atVariables (fun _ _ _ isPart => nomatch isPart) descent
  | primitive kind =>
    exact unifyParts_layer atVariables (fun _ _ _ isPart => nomatch isPart) descent
  | array element inductionHypothesis =>
    refine unifyParts_layer atVariables (fun leftPart rightPart store isPart => ?_) descent
    cases isPart with
    | element => exact inductionHypothesis rightPart store
  | function params result paramsHypothesis resultHypothesis =>
    refine unifyParts_layer atVariables (fun leftPart rightPart store isPart => ?_) descent
    cases isPart with
    | param _ member => exact paramsHypothesis leftPart member rightPart store
    | result => exact resultHypothesis rightPart store
  | shapeless => exact absurd descent.leftOver (by simp)

/-- A unification that starts with the ends of two chains starts with the chains. -/
theorem Unifies.follow {left right leftEnd rightEnd : Ty} {rest : List (Ty × Ty)}
    {problems : List Problem}
    (ends : (compressBoth left right).run store = ((leftEnd, rightEnd), between))
    (leftProper : ∀ id, leftEnd ≠ .var id) (rightProper : ∀ id, rightEnd ≠ .var id)
    (unifies : Unifies between ((leftEnd, rightEnd) :: rest) problems after) :
    Unifies store ((left, right) :: rest) problems after := by
  have own := compressBoth_of_ne_var leftProper rightProper between
  cases unifies with
  | bindLeft again =>
    cases own.symm.trans again
    exact absurd rfl (leftProper _)
  | bindRight again =>
    cases own.symm.trans again
    exact absurd rfl (rightProper _)
  | primitive again further =>
    cases own.symm.trans again
    exact .primitive ends further
  | array again further =>
    cases own.symm.trans again
    exact .array ends further
  | function again arity further =>
    cases own.symm.trans again
    exact .function ends arity further
  | arity again arity further =>
    cases own.symm.trans again
    exact .arity ends arity further
  | clash again different leftPrints rightPrints further =>
    cases own.symm.trans again
    exact .clash ends different leftPrints rightPrints further

/-- What is done at the ends of two chains. -/
def atEnds (limit : Nat) : Ty → Ty → Solver (List Problem)
  | .var free, term => bindVariable free term
  | term, .var free => bindVariable free term
  | left, right => unifyParts (unifyWithin limit) left right

/-- A free variable on the right is bound unless there is one on the left. -/
theorem atEnds_var {term : Ty} (proper : ∀ id, term ≠ .var id) (free : VariableId) :
    atEnds limit term (.var free) = bindVariable free term := by
  cases term <;> simp_all [atEnds]

/-- Two terms that are no variables are unified part by part. -/
theorem atEnds_parts {left right : Ty} (leftProper : ∀ id, left ≠ .var id)
    (rightProper : ∀ id, right ≠ .var id) :
    atEnds limit left right = unifyParts (unifyWithin limit) left right := by
  cases left <;> cases right <;> simp_all [atEnds]

/-- Within a limit that is not reached both chains are followed first. -/
theorem unifyWithin_run (limit : Nat) (left right : Ty) (store : Store) :
    (unifyWithin (limit + 1) left right).run store =
      let ends := (compressBoth left right).run store
      (atEnds limit ends.1.1 ends.1.2).run ends.2 := rfl

/-- A unification within a limit is complete if it is on the parts of the terms that it
comes to. -/
theorem unifyWithin_step (sound : store.Sound) {left right leftEnd rightEnd : Ty}
    (leftOver : left.Over store.cells.size) (rightOver : right.Over store.cells.size)
    (ends : (compressBoth left right).run store = ((leftEnd, rightEnd), between))
    (parts : (∀ id, leftEnd ≠ .var id) → (∀ id, rightEnd ≠ .var id) →
      UnifiesFirst between [(leftEnd, rightEnd)]
        ((unifyParts (unifyWithin limit) leftEnd rightEnd).run between)) :
    UnifiesFirst store [(left, right)] ((unifyWithin (limit + 1) left right).run store) := by
  obtain ⟨agrees, size, -, -, leftEndOver, rightEndOver, -⟩ := compressBoth_spec sound ends
  have leftEndOver := size.symm ▸ leftEndOver leftOver
  have rightEndOver := size.symm ▸ rightEndOver rightOver
  rw [unifyWithin_run, ends]
  change UnifiesFirst store _ ((atEnds limit leftEnd rightEnd).run between)
  by_cases leftVariable : ∃ free, leftEnd = .var free
  · obtain ⟨free, rfl⟩ := leftVariable
    have binds := bindVariable_binds (agrees.sound sound) leftEndOver rightEndOver
    exact fun rest problems last further => .bindLeft ends binds further
  have leftProper (id : VariableId) (same : leftEnd = .var id) : False := leftVariable ⟨id, same⟩
  by_cases rightVariable : ∃ free, rightEnd = .var free
  · obtain ⟨free, rfl⟩ := rightVariable
    have binds := bindVariable_binds (agrees.sound sound) rightEndOver leftEndOver
    rw [atEnds_var leftProper]
    exact fun rest problems last further => .bindRight ends leftProper binds further
  have rightProper (id : VariableId) (same : rightEnd = .var id) : False :=
    rightVariable ⟨id, same⟩
  rw [atEnds_parts leftProper rightProper]
  intro rest problems last further
  exact .follow ends leftProper rightProper
    (parts leftProper rightProper rest problems last further)

/-- Below the passed variables a variable is not one of them. -/
theorem Below.card_lt {passed : Finset VariableId} {id : VariableId}
    (below : Below store size passed (.var id)) (inside : id < size) :
    passed.card + 1 ≤ size ∧ id ∉ passed := by
  have apart : id ∉ passed := fun member => Ty.Inside.irrefl _ (below id member).2
  have contained : insert id passed ⊆ Finset.range size := by
    intro other member
    rcases Finset.mem_insert.mp member with rfl | member
    · exact Finset.mem_range.mpr inside
    · exact Finset.mem_range.mpr (below other member).1
  have bound := Finset.card_le_card contained
  rw [Finset.card_insert_of_notMem apart, Finset.card_range] at bound
  exact ⟨bound, apart⟩

/-- There are no more passed variables than variables. -/
theorem Within.card_le {passed : Finset VariableId} {term : Ty}
    (within : Within store size passed term) : passed.card ≤ size := by
  have contained : passed ⊆ Finset.range size :=
    fun other member => Finset.mem_range.mpr (within other member).1
  simpa using Finset.card_le_card contained

/-- Following the chain of one side passes one more variable if there is a chain. -/
theorem Below.enter {passed : Finset VariableId} {term reached : Ty}
    (below : Below store size passed term) (covered : term.Over size) (agrees : Agrees store after)
    (same : store.resolve reached = store.resolve term) :
    ∃ entered, Within after size entered reached ∧ passed.card ≤ entered.card ∧
      ((∃ id, term = .var id) → passed.card + 1 ≤ entered.card) := by
  have kept : Within after size passed reached := by
    intro id member
    rw [agrees.resolve_eq, agrees.resolve_eq, same]
    exact below.within id member
  by_cases isVariable : ∃ id, term = .var id
  · obtain ⟨id, rfl⟩ := isVariable
    have apart := (below.card_lt covered).2
    refine ⟨insert id passed, ?_, ?_⟩
    · intro other member
      rcases Finset.mem_insert.mp member with rfl | member
      · rw [agrees.resolve_eq, agrees.resolve_eq, same]
        exact ⟨covered, .refl⟩
      · exact kept other member
    · rw [Finset.card_insert_of_notMem apart]
      exact ⟨Nat.le_succ _, fun _ => Nat.le_refl _⟩
  · exact ⟨passed, kept, Nat.le_refl _, fun met => absurd met isVariable⟩

/-- With a limit for all variables that have not been passed, unification at a variable is
complete. -/
theorem unifyWithin_unifies (limit : Nat)
    (enough : 2 * size ≤ limit + leftPassed.card + rightPassed.card) :
    UnifiesVariables size leftPassed rightPassed (unifyWithin limit) := by
  induction limit generalizing leftPassed rightPassed with
  | zero =>
    intro left right store descent met
    obtain ⟨leftBelow, rightBelow⟩ := descent.below met
    have leftBound := leftBelow.within.card_le
    have rightBound := rightBelow.within.card_le
    obtain ⟨id, rfl | rfl⟩ := met
    · have := (leftBelow.card_lt descent.leftOver).1
      omega
    · have := (rightBelow.card_lt descent.rightOver).1
      omega
  | succ limit inductionHypothesis =>
    intro left right store descent met
    rcases ends : (compressBoth left right).run store with ⟨⟨leftEnd, rightEnd⟩, between⟩
    obtain ⟨leftBelow, rightBelow⟩ := descent.below met
    obtain ⟨agrees, kept, leftSame, rightSame, leftOver, rightOver, -⟩ :=
      compressBoth_spec descent.sound ends
    obtain ⟨leftEntered, leftWithin, leftCard, leftMore⟩ :=
      leftBelow.enter descent.leftOver agrees leftSame
    obtain ⟨rightEntered, rightWithin, rightCard, rightMore⟩ :=
      rightBelow.enter descent.rightOver agrees rightSame
    rw [descent.size_eq] at leftOver rightOver kept
    refine unifyWithin_step descent.sound (descent.size_eq ▸ descent.leftOver)
      (descent.size_eq ▸ descent.rightOver) ends fun leftProper rightProper => ?_
    have inner : UnifiesVariables size leftEntered rightEntered (unifyWithin limit) := by
      refine inductionHypothesis ?_
      obtain ⟨id, leftIs | rightIs⟩ := met
      · have := leftMore ⟨id, leftIs⟩
        omega
      · have := rightMore ⟨id, rightIs⟩
        omega
    refine unifyParts_unifies inner leftEnd rightEnd between
      ⟨agrees.sound descent.sound, kept, leftOver descent.leftOver, rightOver descent.rightOver,
        leftWithin, rightWithin, ?_⟩
    rintro ⟨id, leftIs | rightIs⟩
    · exact absurd leftIs (leftProper id)
    · exact absurd rightIs (rightProper id)

/-- Two terms over the variables of a sound store are unified completely. -/
theorem unify_unifies (sound : store.Sound) {left right : Ty}
    (leftOver : left.Over store.cells.size) (rightOver : right.Over store.cells.size) :
    Unifies store [(left, right)] ((unify left right).run store).1
      ((unify left right).run store).2 := by
  rcases ends : (compressBoth left right).run store with ⟨⟨leftEnd, rightEnd⟩, between⟩
  obtain ⟨agrees, size, -, -, leftEndOver, rightEndOver, -⟩ := compressBoth_spec sound ends
  have inner : UnifiesVariables store.cells.size ∅ ∅ (unifyWithin (2 * store.cells.size)) :=
    unifyWithin_unifies _ (by simp)
  refine UnifiesFirst.unifies (unifyWithin_step sound leftOver rightOver ends ?_)
  intro leftProper rightProper
  refine unifyParts_unifies inner leftEnd rightEnd between
    ⟨agrees.sound sound, size, leftEndOver leftOver, rightEndOver rightOver, ?_, ?_, ?_⟩
  · exact fun id member => absurd member (Finset.notMem_empty id)
  · exact fun id member => absurd member (Finset.notMem_empty id)
  · rintro ⟨id, leftIs | rightIs⟩
    · exact absurd leftIs (leftProper id)
    · exact absurd rightIs (rightProper id)

/-- Unifying two terms over the variables of a sound store does what unification is for. -/
theorem unify_unified (sound : store.Sound) {left right : Ty}
    (leftOver : left.Over store.cells.size) (rightOver : right.Over store.cells.size) :
    Unified store [(left, right)] ((unify left right).run store).1
      ((unify left right).run store).2 :=
  (unify_unifies sound leftOver rightOver).unified sound
    (by simpa [PairsOver] using ⟨leftOver, rightOver⟩)

end ArrowScript.Solver
