import ArrowScript.Proofs.Ty.Acyclicity

/-!
# Changes of a store

A store changes in three ways: a variable is added, a chain of links is shortened, or
a free variable is linked to a term. The first two leave every term standing for what
it stood for; `Agrees` gathers what they keep. The third replaces one variable in
every resolution, and keeps the store acyclic as long as the variable does not occur
in what it is linked to.

A store is sound when it has no cycles and its links mention only its own variables.
-/

namespace ArrowScript.Store

variable {store before after last : Store}

/-- A store without cycles whose links are terms over its own variables. -/
structure Sound (store : Store) : Prop where
  acyclic : store.Acyclic
  covered : ∀ id term, store.link? id = some term → term.Over store.cells.size

/-- The empty store has no links at all. -/
theorem sound_empty : Sound {} where
  acyclic := by
    have ranks : Ranks {} fun _ => 0 := fun _ _ ⟨_, linked, _⟩ => by simp [link?] at linked
    exact ranks.acyclic
  covered := by simp [link?]

/-- What a term over the variables of a sound store stands for is over them as well. -/
theorem Sound.resolve_over (sound : store.Sound) {term : Ty}
    (covered : term.Over store.cells.size) : (store.resolve term).Over store.cells.size := by
  refine covered.substitute fun id occurs => ?_
  have inside := covered.lt occurs
  clear occurs
  change (store.resolve (.var id)).Over _
  induction id using sound.acyclic.induction with
  | atFree id free => rw [resolve_free free]; exact inside
  | atLinked id link linked inductionHypothesis =>
    rw [sound.acyclic.resolve_linked linked]
    have linkOver := sound.covered id link linked
    exact linkOver.substitute fun target occurs =>
      inductionHypothesis target occurs (linkOver.lt occurs)

/-! ## Changes that keep what terms stand for -/

/-- A later store in which every term stands for what it stood for before. It may have
more variables, all of them free, and shorter chains of links. -/
structure Agrees (before after : Store) : Prop where
  size_le : before.cells.size ≤ after.cells.size
  free_iff : ∀ id, after.Free id ↔ before.Free id
  points : ∀ source target, after.Points source target →
    Relation.TransGen before.Points source target
  resolve_eq : ∀ term, after.resolve term = before.resolve term
  nameOf_eq : ∀ id < before.cells.size, after.nameOf id = before.nameOf id
  sound : before.Sound → after.Sound

namespace Agrees

/-- Nothing has changed. -/
theorem refl (store : Store) : Agrees store store where
  size_le := Nat.le_refl _
  free_iff _ := Iff.rfl
  points _ _ := .single
  resolve_eq _ := rfl
  nameOf_eq _ _ := rfl
  sound := id

/-- Such changes can follow each other. -/
theorem trans (first : Agrees before after) (second : Agrees after last) :
    Agrees before last where
  size_le := Nat.le_trans first.size_le second.size_le
  free_iff id := (second.free_iff id).trans (first.free_iff id)
  points source target step :=
    Relation.TransGen.closed first.points _ _ (second.points source target step)
  resolve_eq term := (second.resolve_eq term).trans (first.resolve_eq term)
  nameOf_eq id inside :=
    (second.nameOf_eq id (Nat.lt_of_lt_of_le inside first.size_le)).trans
      (first.nameOf_eq id inside)
  sound := second.sound ∘ first.sound

/-- A measure for the links of a store is one for their shortened chains. -/
theorem ranks (agrees : Agrees before after) {rank : VariableId → Nat}
    (ranks : before.Ranks rank) : after.Ranks rank :=
  fun source target step => ranks.lt (agrees.points source target step)

/-- A change keeps what terms stand for when every new link leads to a term that stands
for what its variable stood for and is reached from there. -/
theorem of_links (acyclic : before.Acyclic) (size_le : before.cells.size ≤ after.cells.size)
    (free_iff : ∀ id, after.Free id ↔ before.Free id)
    (links : ∀ id term, after.link? id = some term →
      before.resolve (.var id) = before.resolve term ∧
        ∀ target ∈ term.vars, Relation.TransGen before.Points id target)
    (covered : before.Sound → ∀ id term, after.link? id = some term →
      term.Over before.cells.size)
    (nameOf_eq : ∀ id < before.cells.size, after.nameOf id = before.nameOf id) :
    Agrees before after := by
  have points (source target : VariableId) (step : after.Points source target) :
      Relation.TransGen before.Points source target := by
    obtain ⟨term, linked, occurs⟩ := step
    exact (links source term linked).2 target occurs
  have still : after.Acyclic := fun id cycle =>
    acyclic id (Relation.TransGen.closed points _ _ cycle)
  have resolve_eq (term : Ty) : after.resolve term = before.resolve term := by
    refine (still.resolve_unique (fun id => before.resolve (.var id)) ?_ ?_ term).symm
    · exact fun id free => resolve_free ((free_iff id).mp free)
    · exact fun id term linked => (links id term linked).1
  exact
    { size_le, free_iff, points, resolve_eq, nameOf_eq
      sound := fun sound =>
        ⟨still, fun id term linked => (covered sound id term linked).mono size_le⟩ }

/-- Such changes make no cycles. -/
theorem acyclic (agrees : Agrees before after) (acyclic : before.Acyclic) : after.Acyclic :=
  fun id cycle => acyclic id (Relation.TransGen.closed agrees.points _ _ cycle)

end Agrees

/-- A variable that is added is free, and nothing else changes. -/
theorem agrees_push (sound : store.Sound) (name : String) (numbered : Nat) :
    Agrees store { cells := store.cells.push { name }, numbered } := by
  have link?_eq (id : VariableId) :
      link? { cells := store.cells.push { name }, numbered } id = store.link? id := by
    by_cases added : id = store.cells.size
    · simp [link?, added]
    · simp [link?, Array.getElem?_push, added]
  refine .of_links sound.acyclic (by simp) (fun id => by simp [Free, link?_eq]) ?_ ?_ ?_
  · intro id term linked
    rw [link?_eq] at linked
    exact ⟨sound.acyclic.resolve_linked linked,
      fun target occurs => .single ⟨term, linked, occurs⟩⟩
  · exact fun sound id term linked => sound.covered id term (link?_eq id ▸ linked)
  · intro id inside
    simp [nameOf, Array.getElem?_push, Nat.ne_of_lt inside]

/-! ## Linking a free variable -/

/-- The links after a variable of the store has been linked. -/
theorem link?_setLink (store : Store) (id : VariableId) (term : Ty) (other : VariableId) :
    (store.setLink id term).link? other =
      if other = id ∧ id < store.cells.size then some term else store.link? other := by
  by_cases same : id = other
  · subst same
    by_cases inside : id < store.cells.size
    · simp [link?, setLink, Array.getElem_modify, inside]
    · simp [link?, setLink, inside]
  · simp [link?, setLink, Array.getElem?_modify, same, Ne.symm same]

/-- A link is made among the variables that there are. -/
@[simp]
theorem size_setLink (store : Store) (id : VariableId) (term : Ty) :
    (store.setLink id term).cells.size = store.cells.size := by
  simp [setLink]

/-- A variable keeps its name when it is linked. -/
@[simp]
theorem nameOf_setLink (store : Store) (id : VariableId) (term : Ty) (other : VariableId) :
    (store.setLink id term).nameOf other = store.nameOf other := by
  by_cases same : id = other <;> by_cases inside : other < store.cells.size <;>
    simp [nameOf, setLink, Array.getElem_modify, same, inside]

/-- A free variable can be linked to a term in which it does not occur. The variables
from which it was reached come after all others now. -/
theorem Acyclic.setLink (acyclic : store.Acyclic) {id : VariableId} {term : Ty}
    (free : store.Free id) (absent : id ∉ (store.resolve term).vars) :
    (store.setLink id term).Acyclic := by
  classical
  let reaches (place : VariableId) : Prop := Relation.ReflTransGen store.Points place id
  let rank (place : VariableId) : Nat :=
    store.reachCount place + if reaches place then store.cells.size + 1 else 0
  suffices ranks : (store.setLink id term).Ranks rank from ranks.acyclic
  rintro source target ⟨link, linked, occurs⟩
  rw [link?_setLink] at linked
  split at linked
  next here =>
    obtain ⟨rfl, rfl⟩ : source = id ∧ term = link := ⟨here.1, Option.some.inj linked⟩
    have apart : ¬ reaches target := fun path =>
      absent (acyclic.mem_resolve_iff.mpr ⟨free, target, occurs, path⟩)
    have bound := reachCount_le store target
    simp only [rank, apart, show reaches source from .refl, if_true, if_false]
    omega
  next =>
    have smaller := acyclic.ranks source target ⟨link, linked, occurs⟩
    by_cases path : reaches target
    · have before : reaches source := .head ⟨link, linked, occurs⟩ path
      simp only [rank, path, before, if_true]
      omega
    · simp only [rank, path, if_false]
      omega

/-- Linking a free variable puts what it is linked to in its place everywhere. -/
theorem Acyclic.resolve_setLink (acyclic : store.Acyclic) {id : VariableId} {term : Ty}
    (inside : id < store.cells.size) (free : store.Free id)
    (absent : id ∉ (store.resolve term).vars) (other : Ty) :
    (store.setLink id term).resolve other =
      (store.resolve other).substitute (Ty.binding id (store.resolve term)) := by
  let binding := Ty.binding id (store.resolve term)
  have kept : (store.resolve term).substitute binding = store.resolve term :=
    Ty.substitute_binding_of_notMem _ absent
  have after : (store.setLink id term).Acyclic := acyclic.setLink free absent
  have unfolded (link : Ty) : (store.resolve link).substitute binding =
      link.substitute fun place => (store.resolve (.var place)).substitute binding := by
    rw [resolve_eq_substitute, Ty.substitute_substitute]
  rw [unfolded]
  refine (after.resolve_unique _ ?_ ?_ other).symm
  · intro place stillFree
    have unlinked : (store.setLink id term).link? place = none := stillFree
    rw [link?_setLink] at unlinked
    split at unlinked
    next => simp at unlinked
    next elsewhere =>
      have apart : place ≠ id := fun same => elsewhere ⟨same, inside⟩
      rw [resolve_free unlinked]
      exact if_neg apart
  · intro place link linked
    rw [link?_setLink] at linked
    rw [← unfolded]
    split at linked
    next here =>
      obtain ⟨rfl, rfl⟩ : place = id ∧ term = link := ⟨here.1, Option.some.inj linked⟩
      rw [resolve_free free, kept]
      exact if_pos rfl
    next => rw [acyclic.resolve_linked linked]

/-- A sound store stays sound when a free variable is linked to a term over its
variables in which it does not occur. -/
theorem Sound.setLink (sound : store.Sound) {id : VariableId} {term : Ty}
    (free : store.Free id) (covered : term.Over store.cells.size)
    (absent : id ∉ (store.resolve term).vars) : (store.setLink id term).Sound where
  acyclic := sound.acyclic.setLink free absent
  covered place link linked := by
    rw [size_setLink]
    rw [link?_setLink] at linked
    split at linked
    next => exact Option.some.inj linked ▸ covered
    next => exact sound.covered place link linked

end ArrowScript.Store
