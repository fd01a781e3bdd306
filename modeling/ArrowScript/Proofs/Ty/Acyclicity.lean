import Mathlib.Data.Finset.Card
import ArrowScript.Proofs.Ty.Substitution
import ArrowScript.Ty.Store

/-!
# Stores without cycles

A variable points to the variables of the term that it is linked to. A store is
acyclic when no variable is reached from itself by one or more such steps. Then the
variables that can be reached from a place are fewer with every step, and their
number bounds the depth of every walk.

In an acyclic store the resolution of a term is determined by two equations: a free
variable stands for itself, and a linked one for what its link stands for. All later
facts about resolution follow from these equations.
-/

namespace ArrowScript.Store

variable {store : Store}

/-- A variable is free while it has no link. -/
def Free (store : Store) (id : VariableId) : Prop := store.link? id = none

/-- One variable occurs in the term that another is linked to. -/
def Points (store : Store) (source target : VariableId) : Prop :=
  ∃ term, store.link? source = some term ∧ target ∈ term.vars

/-- No variable is reached from its own link through links and the parts of terms. -/
def Acyclic (store : Store) : Prop := ∀ id, ¬ Relation.TransGen store.Points id id

/-- A measure that every link decreases. -/
def Ranks (store : Store) (rank : VariableId → Nat) : Prop :=
  ∀ source target, store.Points source target → rank target < rank source

/-- Only variables of the store have links. -/
theorem lt_of_link? {id : VariableId} {term : Ty} (linked : store.link? id = some term) :
    id < store.cells.size := by
  by_contra outside
  simp [link?, Array.getElem?_eq_none (Nat.le_of_not_lt outside)] at linked

/-- What is no variable of the store is free. -/
theorem free_of_le {id : VariableId} (outside : store.cells.size ≤ id) : store.Free id := by
  by_contra linked
  obtain ⟨link, linked⟩ := Option.ne_none_iff_exists'.mp linked
  exact absurd (lt_of_link? linked) (Nat.not_lt.mpr outside)

/-- A measure decreases on every way along links. -/
theorem Ranks.lt {rank : VariableId → Nat} (ranks : store.Ranks rank)
    {source target : VariableId} (path : Relation.TransGen store.Points source target) :
    rank target < rank source := by
  induction path with
  | single step => exact ranks _ _ step
  | tail _ step inductionHypothesis => exact Nat.lt_trans (ranks _ _ step) inductionHypothesis

/-- A measure excludes cycles. -/
theorem Ranks.acyclic {rank : VariableId → Nat} (ranks : store.Ranks rank) : store.Acyclic :=
  fun _ cycle => Nat.lt_irrefl _ (ranks.lt cycle)

open Classical in
/-- The number of variables of the store that are reached from a place, the place
itself included. -/
noncomputable def reachCount (store : Store) (id : VariableId) : Nat :=
  ((Finset.range store.cells.size).filter (Relation.ReflTransGen store.Points id)).card

/-- What is reached from a place are variables of the store. -/
theorem reachCount_le (store : Store) (id : VariableId) :
    store.reachCount id ≤ store.cells.size := by
  classical
  calc store.reachCount id
      ≤ (Finset.range store.cells.size).card := Finset.card_filter_le _ _
    _ = store.cells.size := Finset.card_range _

/-- From a variable of the store at least itself is reached. -/
theorem reachCount_pos {id : VariableId} (inside : id < store.cells.size) :
    0 < store.reachCount id := by
  classical
  refine Finset.card_pos.mpr ⟨id, ?_⟩
  simpa using ⟨inside, Relation.ReflTransGen.refl⟩

/-- In an acyclic store a link loses at least the variable that it starts from. -/
theorem Acyclic.ranks (acyclic : store.Acyclic) : store.Ranks store.reachCount := by
  classical
  intro source target step
  refine Finset.card_lt_card ((Finset.ssubset_iff_of_subset ?_).mpr ⟨source, ?_, ?_⟩)
  · intro reached member
    simp only [Finset.mem_filter] at member ⊢
    exact ⟨member.1, .head step member.2⟩
  · obtain ⟨term, linked, _⟩ := step
    simpa using ⟨lt_of_link? linked, Relation.ReflTransGen.refl⟩
  · simp only [Finset.mem_filter, not_and]
    exact fun _ back => acyclic source (.head' step back)

/-- Limits that are not below the rank of a variable resolve it alike. -/
theorem Ranks.resolveWithin_eq {rank : VariableId → Nat} (ranks : store.Ranks rank)
    (positive : ∀ id < store.cells.size, 0 < rank id) {first second : Nat} {id : VariableId}
    (firstBound : rank id ≤ first) (secondBound : rank id ≤ second) :
    store.resolveWithin first id = store.resolveWithin second id := by
  induction first generalizing second id with
  | zero =>
    have outside : ¬ id < store.cells.size := fun inside => by
      have := positive id inside
      omega
    cases second with
    | zero => rfl
    | succ second =>
      cases linked : store.link? id with
      | none => simp [resolveWithin, linked]
      | some term => exact absurd (lt_of_link? linked) outside
  | succ first inductionHypothesis =>
    cases linked : store.link? id with
    | none => cases second <;> simp [resolveWithin, linked]
    | some term =>
      have inside := positive id (lt_of_link? linked)
      obtain ⟨second, rfl⟩ := Nat.exists_eq_succ_of_ne_zero (by omega : second ≠ 0)
      simp only [resolveWithin, linked]
      refine Ty.substitute_congr fun target occurs => ?_
      have smaller := ranks id target ⟨term, linked, occurs⟩
      exact inductionHypothesis (by omega) (by omega)

/-- A free variable stands for itself. -/
theorem resolve_free {id : VariableId} (free : store.Free id) :
    store.resolve (.var id) = .var id := by
  have unlinked : store.link? id = none := free
  simp only [resolve, Ty.substitute]
  cases store.cells.size <;> simp [resolveWithin, unlinked]

/-- A linked variable stands for what its link stands for. -/
theorem Acyclic.resolve_linked (acyclic : store.Acyclic) {id : VariableId} {term : Ty}
    (linked : store.link? id = some term) :
    store.resolve (.var id) = store.resolve term := by
  obtain ⟨limit, size⟩ := Nat.exists_eq_succ_of_ne_zero
    (Nat.ne_zero_of_lt (lt_of_link? linked))
  have followed : store.resolve (.var id) = term.substitute (store.resolveWithin limit) := by
    simp [resolve, size, resolveWithin, linked]
  rw [followed]
  refine Ty.substitute_congr fun target occurs => ?_
  have smaller := acyclic.ranks id target ⟨term, linked, occurs⟩
  have bound := reachCount_le store id
  exact acyclic.ranks.resolveWithin_eq (fun _ => reachCount_pos) (by omega) (by omega)

/-- Resolution replaces each variable by what it stands for. -/
theorem resolve_eq_substitute (store : Store) (term : Ty) :
    store.resolve term = term.substitute fun id => store.resolve (.var id) := rfl

/-- The resolution of an array is an array. -/
@[simp]
theorem resolve_array (store : Store) (element : Ty) :
    store.resolve (.array element) = .array (store.resolve element) := rfl

/-- The resolution of a function is a function of as many parameters. -/
@[simp]
theorem resolve_function (store : Store) (params : List Ty) (result : Ty) :
    store.resolve (.function params result) =
      .function (params.map store.resolve) (store.resolve result) := by
  simp [resolve]

/-- A primitive stands for itself. -/
@[simp]
theorem resolve_primitive (store : Store) (kind : Primitive) :
    store.resolve (.primitive kind) = .primitive kind := rfl

/-- Induction along the links of an acyclic store. A linked variable comes after all
variables of its link. -/
theorem Acyclic.induction (acyclic : store.Acyclic) {motive : VariableId → Prop}
    (atFree : ∀ id, store.Free id → motive id)
    (atLinked : ∀ id term, store.link? id = some term →
      (∀ target ∈ term.vars, motive target) → motive id)
    (id : VariableId) : motive id := by
  have below : ∀ bound id, store.reachCount id < bound → motive id := by
    intro bound
    induction bound with
    | zero => intro id impossible; omega
    | succ bound inductionHypothesis =>
      intro id within
      cases linked : store.link? id with
      | none => exact atFree id linked
      | some term =>
        refine atLinked id term linked fun target occurs => ?_
        have smaller := acyclic.ranks id target ⟨term, linked, occurs⟩
        exact inductionHypothesis target (by omega)
  exact below _ id (Nat.lt_succ_self _)

/-- The two equations have no other solution than resolution. -/
theorem Acyclic.resolve_unique (acyclic : store.Acyclic) (solution : VariableId → Ty)
    (atFree : ∀ id, store.Free id → solution id = .var id)
    (atLinked : ∀ id term, store.link? id = some term → solution id = term.substitute solution)
    (term : Ty) : term.substitute solution = store.resolve term := by
  have atVariable (id : VariableId) : solution id = store.resolve (.var id) := by
    induction id using acyclic.induction with
    | atFree id free => rw [atFree id free, resolve_free free]
    | atLinked id term linked inductionHypothesis =>
      calc solution id
          = term.substitute solution := atLinked id term linked
        _ = store.resolve term := Ty.substitute_congr inductionHypothesis
        _ = store.resolve (.var id) := (acyclic.resolve_linked linked).symm
  exact Ty.substitute_congr fun id _ => atVariable id

/-- The variables of a resolved term are the variables of what its own variables stand
for. -/
theorem mem_resolve {id : VariableId} {term : Ty} :
    id ∈ (store.resolve term).vars ↔
      ∃ place ∈ term.vars, id ∈ (store.resolve (.var place)).vars := by
  rw [resolve_eq_substitute, Ty.mem_vars_substitute]

/-- The variables of a resolved term are the free variables that are reached from it. -/
theorem Acyclic.mem_resolve_iff (acyclic : store.Acyclic) {id : VariableId} {term : Ty} :
    id ∈ (store.resolve term).vars ↔
      store.Free id ∧ ∃ place ∈ term.vars, Relation.ReflTransGen store.Points place id := by
  have atVariable (place : VariableId) : id ∈ (store.resolve (.var place)).vars ↔
      store.Free id ∧ Relation.ReflTransGen store.Points place id := by
    induction place using acyclic.induction with
    | atFree place free =>
      rw [resolve_free free, Ty.vars, List.mem_singleton]
      constructor
      · rintro rfl
        exact ⟨free, .refl⟩
      · rintro ⟨-, path⟩
        obtain rfl | ⟨_, ⟨_, linked, _⟩, _⟩ := path.cases_head
        · rfl
        · exact absurd (free.symm.trans linked) (by simp)
    | atLinked place term linked inductionHypothesis =>
      rw [acyclic.resolve_linked linked, mem_resolve]
      constructor
      · rintro ⟨target, occurs, found⟩
        obtain ⟨free, path⟩ := (inductionHypothesis target occurs).mp found
        exact ⟨free, .head ⟨term, linked, occurs⟩ path⟩
      · rintro ⟨free, path⟩
        obtain rfl | ⟨target, ⟨_, followed, occurs⟩, path⟩ := path.cases_head
        · exact absurd (free.symm.trans linked) (by simp)
        · obtain rfl : term = _ := Option.some.inj (linked.symm.trans followed)
          exact ⟨target, occurs, (inductionHypothesis target occurs).mpr ⟨free, path⟩⟩
  rw [mem_resolve]
  constructor
  · rintro ⟨place, occurs, found⟩
    obtain ⟨free, path⟩ := (atVariable place).mp found
    exact ⟨free, place, occurs, path⟩
  · rintro ⟨free, place, occurs, path⟩
    exact ⟨place, occurs, (atVariable place).mpr ⟨free, path⟩⟩

/-- The resolution of a term contains only free variables. -/
theorem Acyclic.free_of_mem_resolve (acyclic : store.Acyclic) {id : VariableId} {term : Ty}
    (occurs : id ∈ (store.resolve term).vars) : store.Free id :=
  (acyclic.mem_resolve_iff.mp occurs).1

/-- A variable occurs in what one of several variables stands for. -/
def Reaches (store : Store) (places : List VariableId) (id : VariableId) : Prop :=
  ∃ place ∈ places, id ∈ (store.resolve (.var place)).vars

/-- The variables of a term reach what occurs in what the term stands for. -/
theorem reaches_vars {term : Ty} {id : VariableId} :
    store.Reaches term.vars id ↔ id ∈ (store.resolve term).vars :=
  mem_resolve.symm

/-- The variables of several terms reach what occurs in what one of them stands for. -/
theorem reaches_varsOf {terms : List Ty} {id : VariableId} :
    store.Reaches (Ty.varsOf terms) id ↔
      ∃ term ∈ terms, id ∈ (store.resolve term).vars := by
  simp only [Reaches, Ty.mem_varsOf]
  constructor
  · rintro ⟨place, ⟨term, member, occurs⟩, found⟩
    exact ⟨term, member, mem_resolve.mpr ⟨place, occurs, found⟩⟩
  · rintro ⟨term, member, occurs⟩
    obtain ⟨place, inTerm, found⟩ := mem_resolve.mp occurs
    exact ⟨place, ⟨term, member, inTerm⟩, found⟩

/-- What stays the same about what terms stand for does not change what they reach. -/
theorem reaches_congr {before after : Store}
    (same : ∀ term, after.resolve term = before.resolve term) (places : List VariableId) :
    after.Reaches places = before.Reaches places := by
  funext id
  simp only [Reaches, same]

/-- More variables reach more. -/
theorem Reaches.mono {places others : List VariableId} {id : VariableId}
    (reaches : store.Reaches places id) (subset : places ⊆ others) : store.Reaches others id := by
  obtain ⟨place, member, occurs⟩ := reaches
  exact ⟨place, subset member, occurs⟩

/-- Two lists of variables reach what either of them reaches. -/
@[simp]
theorem reaches_append {places others : List VariableId} {id : VariableId} :
    store.Reaches (places ++ others) id ↔ store.Reaches places id ∨ store.Reaches others id := by
  simp [Reaches, or_and_right, exists_or]

/-- Resolving twice is resolving once. -/
theorem Acyclic.resolve_resolve (acyclic : store.Acyclic) (term : Ty) :
    store.resolve (store.resolve term) = store.resolve term := by
  calc store.resolve (store.resolve term)
      = (store.resolve term).substitute fun id => store.resolve (.var id) :=
        resolve_eq_substitute store _
    _ = (store.resolve term).substitute .var :=
        Ty.substitute_congr fun _ occurs => resolve_free (acyclic.free_of_mem_resolve occurs)
    _ = store.resolve term := Ty.substitute_var _

end ArrowScript.Store
