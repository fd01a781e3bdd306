import ArrowScript.Proofs.Inference.Finality
import ArrowScript.Proofs.Inference.MirroredTrees

/-!
# Independent constants commute

Two neighbouring constants of a program are exchanged, neither of which uses the other. At the
top level a walk leaves alone all that is older, so each of the two declarations is inferred
as it is inferred without the other, with other numbers for its new variables. Behind both of
them the two orders have led to states that mirror each other: the variables of one constant
have changed places with those of the other.

What follows is inferred in both states alike. So the types of the two programs are the same
up to one renaming of their variables, and so are the kinds and the places of their problems,
up to the order.
-/

namespace ArrowScript

/-! ## Blocks of variables -/

/-- Moves all variables behind the first ones up by some places. -/
def shift (size count id : Nat) : Nat :=
  if id < size then id else id + count

/-- Exchanges the two blocks of variables that follow the first ones. -/
def exchangeBlocks (size first second id : Nat) : Nat :=
  if id < size then id
  else if id < size + first then id + second
  else if id < size + first + second then id - first
  else id

section Blocks

variable {size first second count id : Nat}

/-- The first variables stay. -/
theorem shift_of_lt (inside : id < size) : shift size count id = id := if_pos inside

/-- The first variable that is moved up, and those behind it. -/
theorem shift_add (size count more : Nat) :
    shift size count (size + more) = size + count + more := by
  rw [shift, if_neg (Nat.not_lt.mpr (Nat.le_add_right size more)), Nat.add_right_comm]

/-- What is moved up is behind the place that is made. -/
theorem le_shift (outside : size ≤ id) : size + count ≤ shift size count id := by
  rw [shift, if_neg (Nat.not_lt.mpr outside)]
  exact Nat.add_le_add_right outside count

/-- Variables that are moved up stay apart. -/
theorem shift_injective (size count : Nat) : Function.Injective (shift size count) := by
  intro one other same
  rw [shift, shift] at same
  split at same <;> split at same <;> omega

/-- Exchanging blocks keeps variables apart. -/
theorem exchangeBlocks_injective (size first second : Nat) :
    Function.Injective (exchangeBlocks size first second) := by
  intro one other same
  simp only [exchangeBlocks] at same
  split_ifs at same <;> omega

/-- The first block is moved up by the second. -/
theorem exchangeBlocks_first (inside : id < size + first) :
    exchangeBlocks size first second id = shift size second id := by
  rw [exchangeBlocks, shift]
  split_ifs <;> rfl

/-- The second block, moved up by the first, is moved back. -/
theorem exchangeBlocks_shift (inside : id < size + second) :
    exchangeBlocks size first second (shift size first id) = id := by
  simp only [exchangeBlocks, shift]
  split_ifs <;> omega

/-- All of the second block has been moved up. -/
theorem exists_shift (behind : size + first ≤ id) (inside : id < size + first + second) :
    ∃ place < size + second, shift size first place = id := by
  refine ⟨id - first, by omega, ?_⟩
  rw [shift, if_neg (by omega)]
  omega

/-- What is behind both blocks stays. -/
theorem exchangeBlocks_behind (outside : size + first + second ≤ id) :
    exchangeBlocks size first second id = id := by
  simp only [exchangeBlocks]
  split_ifs <;> omega

end Blocks

/-! ## Independence -/

/-- The name that a constant declaration binds. -/
def Statement.constantName? : Statement → Option String
  | .constant _ id _ _ _ => some id.name
  | .returning .. => none

/-- Two constant declarations of different names, neither of which uses the other. Parameters
and the constants of inner functions may have any names. -/
structure Statement.Independent (first second : Statement) (firstName secondName : String) :
    Prop where
  first_declares : first.constantName? = some firstName
  second_declares : second.constantName? = some secondName
  distinct : firstName ≠ secondName
  first_apart : ∀ use ∈ first.uses, use.name ≠ secondName
  second_apart : ∀ use ∈ second.uses, use.name ≠ firstName

namespace Inferrer

open Store

variable {start after : Inference}

/-- At the top level no parameters are around. -/
theorem params_top (top : start.undetermined = []) : start.params = [] := by
  rw [Inference.params, top]
  rfl

/-! ## The state behind a walk -/

/-- A name is not found under another name. -/
theorem lookup_singleton {name other : String} (apart : name ≠ other) (type : Ty) :
    List.lookup name [(other, type)] = none := by
  rw [List.lookup_cons, beq_false_of_ne apart]
  rfl

/-- Stores mirror each other when variables do. -/
theorem resolve_rename {exchange : VariableId → VariableId} {one other : Store}
    (each : ∀ id, other.resolve (.var (exchange id)) = (one.resolve (.var id)).rename exchange)
    (term : Ty) : other.resolve (term.rename exchange) = (one.resolve term).rename exchange := by
  rw [resolve_eq_substitute, Ty.substitute_rename, resolve_eq_substitute one,
    Ty.rename_substitute]
  exact Ty.substitute_congr fun id _ => each id

/-- The state before a walk at the top level is mirrored by the state behind it. The names that
the walk has bound are hidden. -/
theorem mirrors_behind (formed : start.WellFormed) (top : start.undetermined = [])
    {made : List VariableId} {bound : List (String × Ty)} {count : Nat} {visible : String → Prop}
    (walked : Walked start after [] made bound)
    (size : after.store.cells.size = start.store.cells.size + count)
    (hidden : ∀ name, visible name → bound.lookup name = none) :
    Inference.Mirrors (shift start.store.cells.size count) visible start after := by
  have kept {type : Ty} (covered : type.Over start.store.cells.size) :
      after.store.resolve type =
        (start.store.resolve type).rename (shift start.store.cells.size count) := by
    have resolved := formed.sound.resolve_over covered
    rw [walked.resolve_eq formed.sound covered,
      Ty.rename_eq_self fun id occurs => shift_of_lt (resolved.lt occurs)]
  have each (id : VariableId) :
      after.store.resolve (.var (shift start.store.cells.size count id)) =
        (start.store.resolve (.var id)).rename (shift start.store.cells.size count) := by
    by_cases old : id < start.store.cells.size
    · rw [shift_of_lt old]
      exact kept (Ty.over_var.mpr old)
    · have outside := Nat.not_lt.mp old
      rw [resolve_free (free_of_le (size ▸ le_shift outside)), resolve_free (free_of_le outside),
        Ty.rename_var]
  have stores : Store.Mirrors (shift start.store.cells.size count) start.store after.store :=
    { sound := formed.sound
      otherSound := walked.framed.sound
      injective := shift_injective _ _
      next := fun more => by rw [shift_add, size]
      resolve_eq := resolve_rename each }
  refine ⟨stores, fun name seen => ?_, ?_⟩
  · rw [walked.environment, List.lookup_append, hidden name seen, Option.none_or]
    cases found : start.environment.lookup name with
    | none => exact .none
    | some type =>
      have covered := formed.environment _ (mem_of_lookup found)
      exact .some ⟨covered, walked.covered covered, kept covered⟩
  · rw [walked.undetermined, top]
    exact .nil

/-! ## Both orders -/

/-- Two constants are inferred in both orders: `left` is behind the first alone and `right`
behind the second alone, `both` is behind the first and the second, and `swapped` is behind
the second and the first. What is inferred of either constant is the same whether or not the
other has been inferred before. -/
structure BothOrders (first second : Nat) (firstName secondName : String)
    (start left right both swapped : Inference) : Prop where
  distinct : firstName ≠ secondName
  formed : start.WellFormed
  firstAlone : ∃ made type, Walked start left [] made [(firstName, type)]
  secondAlone : ∃ made type, Walked start right [] made [(secondName, type)]
  secondBehind : ∃ made type, Walked left both [] made [(secondName, type)]
  firstBehind : ∃ made type, Walked right swapped [] made [(firstName, type)]
  leftSize : left.store.cells.size = start.store.cells.size + first
  rightSize : right.store.cells.size = start.store.cells.size + second
  secondAlike : Inference.Mirrors (shift start.store.cells.size first) (· ≠ firstName) right both
  firstAlike :
    Inference.Mirrors (shift start.store.cells.size second) (· ≠ secondName) left swapped

namespace BothOrders

variable {first second : Nat} {firstName secondName : String}
  {start left right both swapped : Inference} {type image : Ty}
  (orders : BothOrders first second firstName secondName start left right both swapped)

include orders

/-- The state behind the first constant is well-formed. -/
theorem leftFormed : left.WellFormed := by
  obtain ⟨_, _, walked⟩ := orders.firstAlone
  exact walked.wellFormed orders.formed

/-- The state behind the second constant is well-formed. -/
theorem rightFormed : right.WellFormed := by
  obtain ⟨_, _, walked⟩ := orders.secondAlone
  exact walked.wellFormed orders.formed

/-- A type that is older than the second constant is renamed as if there were only the first. -/
theorem rename_left (covered : type.Over left.store.cells.size) :
    (both.store.resolve type).rename (exchangeBlocks start.store.cells.size first second) =
      (left.store.resolve type).rename (shift start.store.cells.size second) := by
  obtain ⟨_, _, walked⟩ := orders.secondBehind
  rw [walked.resolve_eq orders.leftFormed.sound covered]
  apply Ty.rename_congr
  intro id occurs
  have inside := (orders.leftFormed.sound.resolve_over covered).lt occurs
  exact exchangeBlocks_first (orders.leftSize ▸ inside)

/-- A type that is older than the first constant is moved and moved back. -/
theorem rename_right (covered : type.Over right.store.cells.size) :
    ((right.store.resolve type).rename (shift start.store.cells.size first)).rename
        (exchangeBlocks start.store.cells.size first second) = swapped.store.resolve type := by
  obtain ⟨_, _, walked⟩ := orders.firstBehind
  rw [walked.resolve_eq orders.rightFormed.sound covered, Ty.rename_rename]
  apply Ty.rename_eq_self
  intro id occurs
  have inside := (orders.rightFormed.sound.resolve_over covered).lt occurs
  exact exchangeBlocks_shift (orders.rightSize ▸ inside)

/-- A type that is older than both stands for the same in both orders. -/
theorem rename_start (covered : type.Over start.store.cells.size) :
    (both.store.resolve type).rename (exchangeBlocks start.store.cells.size first second) =
      swapped.store.resolve type := by
  obtain ⟨_, _, firstAlone⟩ := orders.firstAlone
  obtain ⟨_, _, secondAlone⟩ := orders.secondAlone
  obtain ⟨_, _, firstBehind⟩ := orders.firstBehind
  have resolved := orders.formed.sound.resolve_over covered
  rw [orders.rename_left (firstAlone.covered covered),
    firstAlone.resolve_eq orders.formed.sound covered,
    firstBehind.resolve_eq orders.rightFormed.sound (secondAlone.covered covered),
    secondAlone.resolve_eq orders.formed.sound covered]
  exact Ty.rename_eq_self fun id occurs => shift_of_lt (resolved.lt occurs)

/-- There are as many variables as both constants have added. -/
theorem both_size : both.store.cells.size = start.store.cells.size + first + second := by
  have next := orders.secondAlike.stores.next 0
  rw [Nat.add_zero, Nat.add_zero, orders.rightSize, shift_add] at next
  exact next.symm

/-- There are as many variables in the other order. -/
theorem swapped_size :
    swapped.store.cells.size = start.store.cells.size + first + second := by
  have next := orders.firstAlike.stores.next 0
  rw [Nat.add_zero, Nat.add_zero, orders.leftSize, shift_add, Nat.add_right_comm] at next
  exact next.symm

/-- Types of the first constant correspond in both orders. -/
theorem image_first
    (same : Image (shift start.store.cells.size second) left.store swapped.store type image) :
    Image (exchangeBlocks start.store.cells.size first second) both.store swapped.store type
      image where
  covered := by
    obtain ⟨_, _, walked⟩ := orders.secondBehind
    exact walked.covered same.covered
  imageOver := same.imageOver
  resolve_eq := by rw [same.resolve_eq, orders.rename_left same.covered]

/-- Types of the second constant correspond in both orders. -/
theorem image_second
    (same : Image (shift start.store.cells.size first) right.store both.store type image) :
    Image (exchangeBlocks start.store.cells.size first second) both.store swapped.store image
      type where
  covered := same.imageOver
  imageOver := by
    obtain ⟨_, _, walked⟩ := orders.firstBehind
    exact walked.covered same.covered
  resolve_eq := by rw [same.resolve_eq, orders.rename_right same.covered]

/-- The stores behind both orders mirror each other. -/
theorem stores :
    Store.Mirrors (exchangeBlocks start.store.cells.size first second) both.store
      swapped.store := by
  have each (id : Nat) :
      swapped.store.resolve (.var (exchangeBlocks start.store.cells.size first second id)) =
        (both.store.resolve (.var id)).rename
          (exchangeBlocks start.store.cells.size first second) := by
    -- a variable is older than the second constant, or it is one of that constant, or of none
    by_cases inFirst : id < start.store.cells.size + first
    · have covered : (Ty.var id).Over left.store.cells.size := orders.leftSize ▸ inFirst
      rw [exchangeBlocks_first inFirst, orders.rename_left covered]
      exact orders.firstAlike.stores.resolve_eq (.var id)
    by_cases inSecond : id < start.store.cells.size + first + second
    · obtain ⟨place, old, rfl⟩ := exists_shift (Nat.not_lt.mp inFirst) inSecond
      have covered : (Ty.var place).Over right.store.cells.size := orders.rightSize ▸ old
      rw [exchangeBlocks_shift old, ← orders.rename_right covered]
      exact congrArg (Ty.rename _) (orders.secondAlike.stores.resolve_eq (.var place)).symm
    · have outside := Nat.not_lt.mp inSecond
      rw [exchangeBlocks_behind outside, resolve_free (free_of_le (orders.swapped_size ▸ outside)),
        resolve_free (free_of_le (orders.both_size ▸ outside)), Ty.rename_var,
        exchangeBlocks_behind outside]
  exact
    { sound := orders.secondAlike.stores.otherSound
      otherSound := orders.firstAlike.stores.otherSound
      injective := exchangeBlocks_injective _ _ _
      next := fun more => by
        rw [orders.both_size, orders.swapped_size]
        exact exchangeBlocks_behind (Nat.le_add_right _ _)
      resolve_eq := resolve_rename each }

/-- The states behind both orders mirror each other. -/
theorem mirrors :
    Inference.Mirrors (exchangeBlocks start.store.cells.size first second) (fun _ => True) both
      swapped where
  stores := orders.stores
  names name _ := by
    obtain ⟨_, _, secondBehind⟩ := orders.secondBehind
    obtain ⟨_, _, firstBehind⟩ := orders.firstBehind
    -- the walks over the first constant are alike in all names but that of the second
    by_cases isSecond : name = secondName
    · have apart : name ≠ firstName := isSecond ▸ orders.distinct.symm
      have same := orders.secondAlike.names name apart
      rw [firstBehind.environment, List.lookup_append, lookup_singleton apart, Option.none_or]
      generalize right.environment.lookup name = type at same ⊢
      generalize both.environment.lookup name = image at same ⊢
      cases same with
      | none => exact .none
      | some typeSame => exact .some (orders.image_second typeSame)
    · have same := orders.firstAlike.names name isSecond
      rw [secondBehind.environment, List.lookup_append, lookup_singleton isSecond, Option.none_or]
      generalize left.environment.lookup name = type at same ⊢
      generalize swapped.environment.lookup name = image at same ⊢
      cases same with
      | none => exact .none
      | some typeSame => exact .some (orders.image_first typeSame)
  undetermined := by
    obtain ⟨_, _, secondBehind⟩ := orders.secondBehind
    rw [secondBehind.undetermined]
    exact orders.firstAlike.undetermined.imp fun _ _ => orders.image_first

/-- The first constant is filled in alike in both orders. -/
theorem filled_first
    {tree otherTree : Statement}
    (carries : Carries left.store.cells.size fun change => tree.mapTypes change)
    (filled : Filled (shift start.store.cells.size second) Statement.mapTypes left.store
      swapped.store tree otherTree) :
    Filled (exchangeBlocks start.store.cells.size first second) Statement.mapTypes both.store
      swapped.store tree otherTree :=
  .of_eq Statement.mapTypes_mapTypes ((filled (.refl orders.firstAlike.stores)).trans
    (carries fun _ covered => (orders.rename_left covered).symm))

/-- The second constant is filled in alike in both orders. -/
theorem filled_second
    {tree otherTree : Statement}
    (carries : Carries right.store.cells.size fun change => tree.mapTypes change)
    (filled : Filled (shift start.store.cells.size first) Statement.mapTypes right.store
      both.store tree otherTree) :
    Filled (exchangeBlocks start.store.cells.size first second) Statement.mapTypes both.store
      swapped.store otherTree tree := by
  apply Filled.of_eq Statement.mapTypes_mapTypes
  let restore : Ty → Ty := Ty.rename (exchangeBlocks start.store.cells.size first second)
  calc tree.mapTypes swapped.store.resolve
      = tree.mapTypes (restore ∘ fun type =>
          (right.store.resolve type).rename (shift start.store.cells.size first)) :=
        carries fun _ covered => (orders.rename_right covered).symm
    _ = (otherTree.mapTypes both.store.resolve).mapTypes restore := by
        rw [← Statement.mapTypes_mapTypes, ← filled (.refl orders.secondAlike.stores)]
    _ = otherTree.mapTypes (restore ∘ both.store.resolve) := Statement.mapTypes_mapTypes _ _ _

/-- What was filled in before both is the same in both orders. -/
theorem filled_start
    {trees : List Statement}
    (carries : Carries start.store.cells.size fun change => Statement.mapTypesAll change trees) :
    Filled (exchangeBlocks start.store.cells.size first second) Statement.mapTypesAll both.store
      swapped.store trees trees :=
  .of_eq Statement.mapTypesAll_mapTypesAll
    (carries fun _ covered => (orders.rename_start covered).symm)

end BothOrders

/-! ## Independent constants -/

/-- A walk over a constant at the top level binds its name and changes nothing that is older. -/
theorem constant_top {statement typed : Statement} {name : String} {type : Ty}
    (declares : statement.constantName? = some name) (formed : start.WellFormed)
    (top : start.undetermined = [])
    (ran : (inferStatement statement).run start = ((typed, type), after)) :
    (∃ made type, Walked start after [] made [(name, type)]) ∧ after.undetermined = [] ∧
      Carries after.store.cells.size fun change => typed.mapTypes change := by
  cases statement with
  | returning => exact nomatch declares
  | constant offset id ascription initial earlier =>
    cases declares
    obtain ⟨value, valueType, between, valueRan, walks⟩ :=
      inferExpression_walked initial start formed
    obtain ⟨ascribed, last, whole, -, walked⟩ :=
      constant_walked formed offset id ascription earlier valueRan walks
    have carries := inferStatement_carries (.constant offset id ascription initial earlier) start
      formed
    cases ran.symm.trans whole
    rw [params_top top] at walked
    rw [whole] at carries
    exact ⟨⟨_, _, walked⟩, walked.undetermined.trans top, carries⟩

/-- Independent constants at the top level are inferred alike in both orders. -/
theorem independent_orders {first second one two twoAlone oneLater : Statement}
    {firstName secondName : String} {oneType twoType twoAloneType oneLaterType : Ty}
    {left right both swapped : Inference}
    (independent : first.Independent second firstName secondName) (formed : start.WellFormed)
    (top : start.undetermined = [])
    (firstRan : (inferStatement first).run start = ((one, oneType), left))
    (secondRan : (inferStatement second).run left = ((two, twoType), both))
    (secondAlone : (inferStatement second).run start = ((twoAlone, twoAloneType), right))
    (firstLater : (inferStatement first).run right = ((oneLater, oneLaterType), swapped)) :
    ∃ exchange, Inference.Mirrors exchange (fun _ => True) both swapped ∧
      Filled exchange Statement.mapTypes both.store swapped.store one oneLater ∧
      Filled exchange Statement.mapTypes both.store swapped.store two twoAlone ∧
      (∀ {trees : List Statement},
        (Carries start.store.cells.size fun change => Statement.mapTypesAll change trees) →
        Filled exchange Statement.mapTypesAll both.store swapped.store trees trees) ∧
      (swapped.diagnostics.map Diagnostic.finding).Perm
        (both.diagnostics.map Diagnostic.finding) := by
  obtain ⟨⟨_, _, firstWalk⟩, leftTop, oneCarries⟩ :=
    constant_top independent.first_declares formed top firstRan
  obtain ⟨⟨_, _, secondWalk⟩, rightTop, twoCarries⟩ :=
    constant_top independent.second_declares formed top secondAlone
  have leftFormed := firstWalk.wellFormed formed
  have rightFormed := secondWalk.wellFormed formed
  obtain ⟨secondBehind, -⟩ :=
    constant_top independent.second_declares leftFormed leftTop secondRan
  obtain ⟨firstBehind, -⟩ :=
    constant_top independent.first_declares rightFormed rightTop firstLater
  obtain ⟨firstCount, leftSize⟩ := Nat.exists_eq_add_of_le firstWalk.size_le
  obtain ⟨secondCount, rightSize⟩ := Nat.exists_eq_add_of_le secondWalk.size_le
  have leftMirrors : Inference.Mirrors (shift start.store.cells.size firstCount)
      (· ≠ firstName) start left :=
    mirrors_behind formed top firstWalk leftSize fun name apart => lookup_singleton apart _
  have rightMirrors : Inference.Mirrors (shift start.store.cells.size secondCount)
      (· ≠ secondName) start right :=
    mirrors_behind formed top secondWalk rightSize fun name apart => lookup_singleton apart _
  obtain ⟨secondAlike, twoFilled, -⟩ :=
    inferStatement_mirrored second independent.second_apart start left leftMirrors
  obtain ⟨firstAlike, oneFilled, -⟩ :=
    inferStatement_mirrored first independent.first_apart start right rightMirrors
  rw [secondAlone, secondRan] at secondAlike twoFilled
  rw [firstRan, firstLater] at firstAlike oneFilled
  have orders : BothOrders firstCount secondCount firstName secondName start left right both
      swapped :=
    { distinct := independent.distinct
      formed
      firstAlone := ⟨_, _, firstWalk⟩
      secondAlone := ⟨_, _, secondWalk⟩
      secondBehind
      firstBehind
      leftSize
      rightSize
      secondAlike := secondAlike.mirrors
      firstAlike := firstAlike.mirrors }
  refine ⟨_, orders.mirrors, orders.filled_first oneCarries oneFilled,
    orders.filled_second twoCarries twoFilled, orders.filled_start, ?_⟩
  obtain ⟨ofSecond, rightFound, bothFound⟩ := secondAlike.findings
  obtain ⟨ofFirst, leftFound, swappedFound⟩ := firstAlike.findings
  rw [swappedFound, rightFound, bothFound, leftFound, List.append_assoc, List.append_assoc]
  exact List.perm_append_comm.append_left _

end Inferrer

/-- The inference of a program in parts: what is ahead of two statements, the two statements,
and what is behind them. -/
theorem Program.infer_around {offset : Int} {ahead behind : List Statement}
    {first second one two : Statement} {oneType twoType : Ty}
    {inferred others : List (Statement × Ty)} {start between both last : Inference}
    (aheadRan : (Inferrer.inferStatements ahead).run {} = (inferred, start))
    (firstRan : (Inferrer.inferStatement first).run start = ((one, oneType), between))
    (secondRan : (Inferrer.inferStatement second).run between = ((two, twoType), both))
    (behindRan : (Inferrer.inferStatements behind).run both = (others, last)) :
    Program.infer { offset, body := ahead ++ first :: second :: behind } =
      ({ offset, body := Statement.mapTypesAll last.store.resolve
          (inferred.map (·.1) ++ one :: two :: others.map (·.1)) }, last.diagnostics) := by
  have ran := Inferrer.inferStatements_append ahead (first :: second :: behind) {}
  simp only [aheadRan, Inferrer.inferStatements_cons, firstRan, secondRan, behindRan] at ran
  simp only [Program.infer, ran, List.map_append, List.map_cons]

/-- Two neighbouring constants of a program that do not use each other can be exchanged. All
statements, at every depth, have the same types up to one renaming of the type variables, and
the same kinds of problems are reported at the same places, each as often. -/
theorem infer_exchange {first second : Statement} {firstName secondName : String}
    (independent : first.Independent second firstName secondName) (offset : Int)
    (ahead behind : List Statement) :
    ∃ (exchange : VariableId → VariableId) (typedAhead typedBehind : List Statement)
      (one two : Statement),
      Function.Injective exchange ∧ typedAhead.length = ahead.length ∧
      (Program.infer { offset, body := ahead ++ first :: second :: behind }).1.body =
        typedAhead ++ one :: two :: typedBehind ∧
      (Program.infer { offset, body := ahead ++ second :: first :: behind }).1.body =
        Statement.mapTypesAll (Ty.rename exchange) (typedAhead ++ two :: one :: typedBehind) ∧
      ((Program.infer { offset, body := ahead ++ second :: first :: behind }).2.map
          Diagnostic.finding).Perm
        ((Program.infer { offset, body := ahead ++ first :: second :: behind }).2.map
          Diagnostic.finding) := by
  have formed := Inference.wellFormed_empty
  obtain ⟨inferred, start, bound, aheadRan, -, walked⟩ :=
    Inferrer.inferStatements_walked ahead {} formed
  have startFormed := walked.wellFormed formed
  have top : start.undetermined = [] := walked.undetermined
  rcases firstRan : (Inferrer.inferStatement first).run start with ⟨⟨one, oneType⟩, left⟩
  rcases secondRan : (Inferrer.inferStatement second).run left with ⟨⟨two, twoType⟩, both⟩
  rcases secondAlone : (Inferrer.inferStatement second).run start with
    ⟨⟨twoAlone, twoAloneType⟩, right⟩
  rcases firstLater : (Inferrer.inferStatement first).run right with
    ⟨⟨oneLater, oneLaterType⟩, swapped⟩
  rcases behindRan : (Inferrer.inferStatements behind).run both with ⟨others, last⟩
  rcases behindSwapped : (Inferrer.inferStatements behind).run swapped with
    ⟨swappedOthers, swappedLast⟩
  obtain ⟨exchange, mirrors, oneFilled, twoFilled, kept, found⟩ :=
    Inferrer.independent_orders independent startFormed top firstRan secondRan secondAlone
      firstLater
  obtain ⟨advance, othersFilled⟩ :=
    Inferrer.inferStatements_mirrored behind (fun _ _ => trivial) both swapped mirrors
  rw [behindRan, behindSwapped] at advance othersFilled
  have carries := Inferrer.inferStatements_carry ahead {} formed
  rw [aheadRan] at carries
  have trees := Inferrer.Filled.append ((kept carries).onward advance.stores)
    (((twoFilled.onward advance.stores).statement).append
      (((oneFilled.onward advance.stores).statement).append othersFilled.statements))
  rw [Program.infer_around aheadRan firstRan secondRan behindRan,
    Program.infer_around aheadRan secondAlone firstLater behindSwapped]
  refine ⟨exchange, Statement.mapTypesAll last.store.resolve (inferred.map (·.1)),
    Statement.mapTypesAll last.store.resolve (others.map (·.1)),
    one.mapTypes last.store.resolve, two.mapTypes last.store.resolve,
    mirrors.stores.injective, ?_, Inferrer.mapTypesAll_append _ _ _, ?_, ?_⟩
  · have same := congrArg List.length (Inferrer.inferStatements_filled aheadRan).1
    simpa only [Inferrer.mapTypesAll_eq_map, List.length_map] using same
  · have gathered := Inferrer.mapTypesAll_append last.store.resolve (inferred.map (·.1))
      (two :: one :: others.map (·.1))
    calc Statement.mapTypesAll swappedLast.store.resolve
          (inferred.map (·.1) ++ twoAlone :: oneLater :: swappedOthers.map (·.1))
        = Statement.mapTypesAll (Ty.rename exchange ∘ last.store.resolve)
            (inferred.map (·.1) ++ two :: one :: others.map (·.1)) :=
          trees (.refl advance.stores.mirrors)
      _ = Statement.mapTypesAll (Ty.rename exchange) (Statement.mapTypesAll last.store.resolve
            (inferred.map (·.1) ++ two :: one :: others.map (·.1))) :=
          (Statement.mapTypesAll_mapTypesAll _ _ _).symm
      _ = _ := congrArg (Statement.mapTypesAll (Ty.rename exchange)) gathered
  · obtain ⟨more, lastFound, swappedFound⟩ := advance.findings
    dsimp only
    rw [lastFound, swappedFound]
    exact found.append_right more

/-- In `const same = (x) => { return x; }; const left = (y, z) => { return y; };` neither
function uses the other. In the other order `left` comes to have the first variables. -/
theorem infer_exchange_functions :
    let returned (name : String) : Block :=
      { offset := 0, statements := [.returning 0 (some (.identifier { offset := 0, name }))] }
    let same : Statement := .constant 0 { offset := 6, name := "same" } none
      (.arrow 13 [{ offset := 14, name := "x" }] none (returned "x"))
    let left : Statement := .constant 33 { offset := 39, name := "left" } none
      (.arrow 46 [{ offset := 47, name := "y" }, { offset := 50, name := "z" }] none
        (returned "y"))
    let texts (program : Program) : List (Option String) :=
      program.infer.1.body.map (·.inferred.map Ty.text)
    same.Independent left "same" "left" ∧
      texts { body := [same, left] } = [some "(t0) -> t0", some "(t1, t2) -> t1"] ∧
      texts { body := [left, same] } = [some "(t0, t1) -> t0", some "(t2) -> t2"] ∧
      ∃ (exchange : VariableId → VariableId) (typedAhead typedBehind : List Statement)
        (one two : Statement),
        Function.Injective exchange ∧ typedAhead.length = 0 ∧
        (Program.infer { body := [same, left] }).1.body =
          typedAhead ++ one :: two :: typedBehind ∧
        (Program.infer { body := [left, same] }).1.body =
          Statement.mapTypesAll (Ty.rename exchange) (typedAhead ++ two :: one :: typedBehind) ∧
        ((Program.infer { body := [left, same] }).2.map Diagnostic.finding).Perm
          ((Program.infer { body := [same, left] }).2.map Diagnostic.finding) := by
  intro returned same left texts
  have independent : same.Independent left "same" "left" :=
    ⟨rfl, rfl, by decide, by decide, by decide⟩
  exact ⟨independent, by decide +kernel, by decide +kernel, infer_exchange independent 0 [] []⟩

end ArrowScript
