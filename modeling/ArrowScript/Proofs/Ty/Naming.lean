import ArrowScript.Proofs.Ty.Renaming
import ArrowScript.Ty.Unification

/-!
# How a store changes

Whatever is asked of a store, it changes in two ways only: a variable is added, with the
next number as its name, or a variable is linked. `Evolves` is what such steps lead to, and
every computation on a store evolves it. What each of the two steps keeps is thereby kept by
all of them; the names of the variables are: each one is named after its place.
-/

namespace ArrowScript

namespace Store

variable {before between after : Store}

/-- A store evolves by new variables and links. -/
inductive Evolves (before : Store) : Store → Prop
  | refl : Evolves before before
  | add {after : Store} (earlier : Evolves before after) :
    Evolves before (Solver.fresh.run after).2
  | link {after : Store} (earlier : Evolves before after) (id : VariableId) (term : Ty) :
    Evolves before (after.setLink id term)

/-- A store that has evolved may evolve further. -/
theorem Evolves.trans (first : Evolves before between) (second : Evolves between after) :
    Evolves before after := by
  induction second with
  | refl => exact first
  | add _ inductionHypothesis => exact inductionHypothesis.add
  | link _ id term inductionHypothesis => exact inductionHypothesis.link id term

/-- Shortening a chain links the variables on it. -/
theorem evolves_redirect (store : Store) (chain : List VariableId) (target : Ty) :
    Evolves store (store.redirect chain target) := by
  induction chain generalizing store with
  | nil => exact .refl
  | cons id rest inductionHypothesis =>
    exact (Evolves.refl.link id target).trans (inductionHypothesis (store.setLink id target))

/-- Every variable is named after its place, and the next one will be. -/
structure Named (store : Store) : Prop where
  numbered_eq : store.numbered = store.cells.size
  nameOf_eq : ∀ id, store.nameOf id = Ty.defaultName id

/-- An empty store names nothing. -/
theorem named_empty : Named {} := ⟨rfl, fun _ => rfl⟩

/-- A variable that is added is named after its place. -/
theorem Named.add (named : before.Named) : (Solver.fresh.run before).2.Named where
  numbered_eq := by
    change before.numbered + 1 = (before.cells.push _).size
    rw [Array.size_push, named.numbered_eq]
  nameOf_eq id := by
    have kept := named.nameOf_eq id
    change (((before.cells.push { name := Ty.defaultName before.numbered })[id]?).map
      Cell.name).getD (Ty.defaultName id) = _
    by_cases added : id = before.cells.size
    · simp [added, named.numbered_eq]
    · rwa [Array.getElem?_push, if_neg added]

/-- The names stay as the store evolves. -/
theorem Evolves.named (evolves : Evolves before after) (named : before.Named) : after.Named := by
  induction evolves with
  | refl => exact named
  | add _ inductionHypothesis => exact inductionHypothesis.add
  | link _ id term inductionHypothesis =>
    exact ⟨(size_setLink ..).symm ▸ inductionHypothesis.numbered_eq, fun other =>
      (nameOf_setLink ..).trans (inductionHypothesis.nameOf_eq other)⟩

/-- A type is printed with the default names of its variables. -/
theorem Named.render_eq (named : before.Named) (term : Ty) :
    term.render before.nameOf = term.text := by
  rw [funext named.nameOf_eq, Ty.text]

end Store

namespace Solver

/-! ## Computations on a store -/

section

variable {m : Type → Type} [Monad m] [MonadLiftT Solver m] {runner : Runner m} {α β : Type}

/-- A computation that evolves the store in its world. -/
def Runner.Evolves (runner : Runner m) (walk : m α) : Prop :=
  ∀ world, Store.Evolves (runner.store world) (runner.store (runner.run walk world).2)

/-- A computation on a store that evolves it. -/
abbrev Evolves (solver : Solver α) : Prop := storeRunner.Evolves solver

namespace Runner.Evolves

/-- A result. -/
theorem pure (result : α) : runner.Evolves (pure result : m α) := fun world => by
  rw [runner.run_pure]
  exact .refl

/-- Two computations, one after the other. -/
theorem bind {walk : m α} {next : α → m β} (first : runner.Evolves walk)
    (second : ∀ result, runner.Evolves (next result)) : runner.Evolves (walk >>= next) :=
  fun world => by
    rw [runner.run_bind]
    exact (first world).trans (second _ _)

/-- A computation on the store alone. -/
theorem lift {solver : Solver α} (evolves : Solver.Evolves solver) :
    runner.Evolves (liftM solver : m α) := fun world => by
  rw [runner.run_lift, runner.store_withStore]
  exact evolves (runner.store world)

/-- A choice. -/
theorem ite {condition : Prop} [Decidable condition] {first second : m α}
    (positive : runner.Evolves first) (negative : runner.Evolves second) :
    runner.Evolves (if condition then first else second) := by
  split
  · exact positive
  · exact negative

end Runner.Evolves

mutual

/-- Replacing the variables of a term. -/
theorem evolves_traverse {atVariable : VariableId → m Ty}
    (evolves : ∀ id, runner.Evolves (atVariable id)) (term : Ty) :
    runner.Evolves (term.traverse atVariable) := by
  match term with
  | .var id => exact evolves id
  | .primitive _ | .shapeless => exact .pure _
  | .array element => exact .bind (evolves_traverse evolves element) fun _ => .pure _
  | .function params result =>
    exact .bind (evolves_traverseAll evolves params) fun _ =>
      .bind (evolves_traverse evolves result) fun _ => .pure _

/-- Replacing the variables of several terms. -/
theorem evolves_traverseAll {atVariable : VariableId → m Ty}
    (evolves : ∀ id, runner.Evolves (atVariable id)) (terms : List Ty) :
    runner.Evolves (Ty.traverseAll atVariable terms) := by
  match terms with
  | [] => exact .pure _
  | term :: rest =>
    exact .bind (evolves_traverse evolves term) fun _ =>
      .bind (evolves_traverseAll evolves rest) fun _ => .pure _

end

mutual

/-- Testing the variables of a term. -/
theorem evolves_anyVariable {test : VariableId → m Bool}
    (evolves : ∀ id, runner.Evolves (test id)) (term : Ty) :
    runner.Evolves (term.anyVariable test) := by
  match term with
  | .var id => exact evolves id
  | .primitive _ | .shapeless => exact .pure _
  | .array element => exact evolves_anyVariable evolves element
  | .function params result =>
    exact .bind (evolves_anyVariableOf evolves params) fun _ =>
      .ite (.pure _) (evolves_anyVariable evolves result)

/-- Testing the variables of several terms. -/
theorem evolves_anyVariableOf {test : VariableId → m Bool}
    (evolves : ∀ id, runner.Evolves (test id)) (terms : List Ty) :
    runner.Evolves (Ty.anyVariableOf test terms) := by
  match terms with
  | [] => exact .pure _
  | term :: rest =>
    exact .bind (evolves_anyVariable evolves term) fun _ =>
      .ite (.pure _) (evolves_anyVariableOf evolves rest)

end

/-- Following the links from a term. -/
theorem compress_evolves (term : Ty) : Evolves (compress term) := fun store =>
  store.evolves_redirect _ _

/-- A new variable. -/
theorem fresh_evolves : Evolves fresh := fun _ => Store.Evolves.refl.add

/-- Linking a variable. -/
theorem link_evolves (id : VariableId) (term : Ty) :
    Evolves (modify (·.setLink id term) : Solver Unit) := fun _ => Store.Evolves.refl.link id term

/-- A look at the store. -/
theorem get_evolves : Evolves (get : Solver Store) := fun _ => .refl

/-- Replacing a variable by what it stands for. -/
theorem evolves_expandVariable {atFree : VariableId → m Ty}
    (evolves : ∀ id, runner.Evolves (atFree id)) (limit : Nat) (id : VariableId) :
    runner.Evolves (expandVariable atFree limit id) := by
  induction limit generalizing id with
  | zero => exact .pure _
  | succ limit inductionHypothesis =>
    refine .bind (.lift (compress_evolves _)) fun reached => ?_
    split
    · exact evolves _
    · exact evolves_traverse inductionHypothesis _

/-- Replacing the variables of a term by what they stand for. -/
theorem evolves_expand {atFree : VariableId → m Ty}
    (evolves : ∀ id, runner.Evolves (atFree id)) (term : Ty) :
    runner.Evolves (expand atFree term) :=
  .bind (.lift (.bind get_evolves fun _ => .pure _)) fun limit =>
    evolves_traverse (evolves_expandVariable evolves limit) term

/-- Printing a term. -/
theorem print_evolves (term : Ty) : Evolves (print term) :=
  .bind (evolves_expand (fun _ => .pure _) term) fun _ => .bind get_evolves fun _ => .pure _

/-- Searching what a variable stands for. -/
theorem occursInVariable_evolves (sought : VariableId) (limit : Nat) (id : VariableId) :
    Evolves (occursInVariable sought limit id) := by
  induction limit generalizing id with
  | zero => exact .pure _
  | succ limit inductionHypothesis =>
    refine .bind (compress_evolves _) fun reached => ?_
    split
    · exact .pure _
    · exact evolves_anyVariable inductionHypothesis _

/-- Searching what a term stands for. -/
theorem occursIn_evolves (sought : VariableId) (term : Ty) : Evolves (occursIn sought term) :=
  .bind get_evolves fun _ => evolves_anyVariable (occursInVariable_evolves sought _) term

end

/-! ## Unification -/

/-- Reporting that two terms have different forms. -/
theorem mismatch_evolves (left right : Ty) : Evolves (mismatch left right) :=
  .bind (print_evolves left) fun _ => .bind (print_evolves right) fun _ => .pure _

/-- Linking a free variable, or refusing to. -/
theorem bindVariable_evolves (free : VariableId) (term : Ty) :
    Evolves (bindVariable free term) := by
  unfold bindVariable
  split
  · exact .ite (.pure _) (.bind (link_evolves _ _) fun _ => .pure _)
  · exact .bind (occursIn_evolves free _) fun _ => .ite
      (.bind (print_evolves _) fun _ => .bind (print_evolves _) fun _ => .pure _)
      (.bind (link_evolves _ _) fun _ => .pure _)

section Parts

variable {atVariable : Ty → Ty → Solver (List Problem)}

mutual

/-- Unifying two terms part by part. -/
theorem unifyParts_evolves (evolves : ∀ left right, Evolves (atVariable left right))
    (left right : Ty) : Evolves (unifyParts atVariable left right) := by
  match left, right with
  | .var id, right => exact evolves (.var id) right
  | .array left, .array right => exact unifyParts_evolves evolves left right
  | .function leftParams leftResult, .function rightParams rightResult =>
    exact .ite (.pure _)
      (.bind (unifyPairs_evolves evolves leftParams rightParams) fun _ =>
        .bind (unifyParts_evolves evolves leftResult rightResult) fun _ => .pure _)
  | .primitive left, .primitive right => exact .ite (.pure _) (mismatch_evolves _ _)
  | .primitive _, .var id | .array _, .var id | .function _ _, .var id | .shapeless, .var id =>
    exact evolves _ (.var id)
  | .primitive _, .array _ | .primitive _, .function _ _ | .primitive _, .shapeless
  | .array _, .primitive _ | .array _, .function _ _ | .array _, .shapeless
  | .function _ _, .primitive _ | .function _ _, .array _ | .function _ _, .shapeless
  | .shapeless, .primitive _ | .shapeless, .array _ | .shapeless, .function _ _
  | .shapeless, .shapeless =>
    exact mismatch_evolves _ _

/-- Unifying the terms of two lists pair by pair. -/
theorem unifyPairs_evolves (evolves : ∀ left right, Evolves (atVariable left right))
    (left right : List Ty) : Evolves (unifyPairs atVariable left right) := by
  match left, right with
  | left :: leftRest, right :: rightRest =>
    exact .bind (unifyParts_evolves evolves left right) fun _ =>
      .bind (unifyPairs_evolves evolves leftRest rightRest) fun _ => .pure _
  | [], _ | _ :: _, [] => exact .pure _

end

end Parts

/-- Unifying two terms of which one may be a linked variable. -/
theorem unifyWithin_evolves (limit : Nat) (left right : Ty) :
    Evolves (unifyWithin limit left right) := by
  induction limit generalizing left right with
  | zero => exact .pure _
  | succ limit inductionHypothesis =>
    refine .bind (compress_evolves _) fun left => .bind (compress_evolves _) fun right => ?_
    split
    · exact bindVariable_evolves _ _
    · exact bindVariable_evolves _ _
    · exact unifyParts_evolves inductionHypothesis _ _

/-- Unifying two terms. -/
theorem unify_evolves (left right : Ty) : Evolves (unify left right) :=
  .bind get_evolves fun _ => unifyWithin_evolves _ left right

/-! ## Instances -/

/-- Telling whether a variable is generic. -/
theorem isGeneric_evolves (undetermined : List Ty) (id : VariableId) :
    Evolves (isGeneric undetermined id) := by
  induction undetermined with
  | nil => exact .pure _
  | cons term rest inductionHypothesis =>
    exact .bind (occursIn_evolves id term) fun _ => .ite (.pure _) inductionHypothesis

/-- Renaming a free variable. -/
theorem renameFree_evolves (undetermined : List Ty) (id : VariableId) :
    renamingRunner.Evolves (renameFree undetermined id) := by
  refine .bind (.lift (isGeneric_evolves undetermined id)) fun _ => .ite ?_ (.pure _)
  refine .bind (fun _ => .refl) fun given => ?_
  split
  · exact .pure _
  · exact .bind (.lift fresh_evolves) fun _ => .bind (fun _ => .refl) fun _ => .pure _

/-- Taking an instance that shares a renaming with others. -/
theorem sharedInstance_evolves (undetermined : List Ty) (term : Ty) :
    renamingRunner.Evolves (sharedInstance undetermined term) :=
  evolves_expand (renameFree_evolves undetermined) term

/-- Taking an instance. -/
theorem freshInstance_evolves (undetermined : List Ty) (term : Ty) :
    Evolves (freshInstance undetermined term) := fun store =>
  sharedInstance_evolves undetermined term ([], store)

end Solver

end ArrowScript
