import ArrowScript.Proofs.Ty.Frame

/-!
# Stores that are only made more specific

Links are overwritten all the time: by the shortening of chains, by unification, and
where a sum decides for `Number`. All of this comes to one substitution on the variables
that were free: what a term stands for afterwards is what it stood for, with the
substitution applied.

From there it follows that equal types stay equal, that what has been constructed is
neither lost nor replaced, and that a linked variable keeps the type that it is linked
to.
-/

namespace ArrowScript

/-! ## Heads -/

/-- What a term is constructed with, if it is no variable. -/
inductive Head where
  | primitive (kind : Primitive)
  | array
  | function (arity : Nat)
  | shapeless
  deriving DecidableEq, Repr

/-- The head of a term. A variable has none yet. -/
def Ty.head? : Ty → Option Head
  | .var _ => none
  | .primitive kind => some (.primitive kind)
  | .array _ => some .array
  | .function params _ => some (.function params.length)
  | .shapeless => some .shapeless

/-- Substitution keeps the head of a term. -/
theorem Ty.head?_substitute {term : Ty} {head : Head} (constructed : term.head? = some head)
    (replacement : VariableId → Ty) : (term.substitute replacement).head? = some head := by
  cases term <;> simp_all [head?]

namespace Store

variable {before after : Store} {known made : List VariableId}

/-! ## The substitution of a change -/

/-- What has become of a variable that was free. Other variables are left alone. -/
def becomes (before after : Store) (id : VariableId) : Ty :=
  if id < before.cells.size ∧ (before.link? id).isNone then after.resolve (.var id) else .var id

/-- A variable that was free has become what it stands for now. -/
theorem becomes_free {id : VariableId} (inside : id < before.cells.size)
    (free : before.Free id) : before.becomes after id = after.resolve (.var id) :=
  if_pos ⟨inside, Option.isNone_iff_eq_none.mpr free⟩

/-- Any other variable is left alone. -/
theorem becomes_other {id : VariableId}
    (other : ¬ (id < before.cells.size ∧ before.Free id)) :
    before.becomes after id = .var id :=
  if_neg fun both => other ⟨both.1, Option.isNone_iff_eq_none.mp both.2⟩

/-- A change of a store that applies a substitution to what all terms stand for: it replaces
only variables that were free, by terms of the later store. What has been linked stays
linked. -/
structure Specializes (before after : Store) (replacement : VariableId → Ty) : Prop where
  roots : ∀ id, replacement id ≠ .var id → id < before.cells.size ∧ before.Free id
  images : ∀ id < before.cells.size, (replacement id).Over after.cells.size
  resolve_eq : ∀ term : Ty, term.Over before.cells.size →
    after.resolve term = (before.resolve term).substitute replacement
  linked : ∀ id, after.Free id → before.Free id

/-- A store that is refined, without a linked variable being freed, has a substitution
applied to it. -/
theorem Refines.specializes (refines : Refines before after) (sound : before.Sound)
    (linked : ∀ id, after.Free id → before.Free id) :
    Specializes before after (before.becomes after) where
  roots id replaced := by
    by_contra other
    exact replaced (becomes_other other)
  images id inside := by
    have old : id < after.cells.size := Nat.lt_of_lt_of_le inside refines.size_le
    by_cases free : before.Free id
    · rw [becomes_free inside free]
      exact (refines.sound sound).resolve_over old
    · rw [becomes_other fun both => free both.2]
      exact old
  resolve_eq term covered := by
    have become (id : VariableId) (occurs : id ∈ (before.resolve term).vars) :
        after.solution id = before.becomes after id :=
      (becomes_free ((sound.resolve_over covered).lt occurs)
        (sound.acyclic.free_of_mem_resolve occurs)).symm
    calc after.resolve term
        = after.resolve (before.resolve term) := (refines.resolve_resolve term).symm
      _ = (before.resolve term).substitute after.solution := (substitute_solution after _).symm
      _ = (before.resolve term).substitute (before.becomes after) := Ty.substitute_congr become
  linked := linked

/-- Behind a walk nothing is free that was linked before it. -/
theorem Framed.free_before (framed : Framed before after known made) (sound : before.Sound)
    {id : VariableId} (free : after.Free id) : before.Free id := by
  by_cases inside : id < before.cells.size
  -- standing for itself, it occurs in what it stood for, or in what the walk has reached
  · have occurs : id ∈ (after.resolve (.var id)).vars := by simp [resolve_free free]
    rcases framed.spread sound (Ty.over_var.mpr inside) inside occurs with found | reached
    · exact sound.acyclic.free_of_mem_resolve found
    · obtain ⟨place, -, found⟩ := reached
      exact sound.acyclic.free_of_mem_resolve found
  · exact free_of_le (Nat.not_lt.mp inside)

namespace Specializes

variable {replacement : VariableId → Ty}

/-- What has been constructed is neither lost nor replaced. -/
theorem head_eq (specializes : Specializes before after replacement) {term : Ty}
    (covered : term.Over before.cells.size) {head : Head}
    (constructed : (before.resolve term).head? = some head) :
    (after.resolve term).head? = some head := by
  rw [specializes.resolve_eq term covered]
  exact Ty.head?_substitute constructed replacement

/-- Terms that stood for the same still do. -/
theorem equal (specializes : Specializes before after replacement) {first second : Ty}
    (firstOver : first.Over before.cells.size) (secondOver : second.Over before.cells.size)
    (same : before.resolve first = before.resolve second) :
    after.resolve first = after.resolve second := by
  rw [specializes.resolve_eq first firstOver, specializes.resolve_eq second secondOver, same]

/-- A linked variable may come to be linked to another term, but to none that stands for
another type. -/
theorem link (specializes : Specializes before after replacement) (sound : before.Sound)
    (soundAfter : after.Sound) {id : VariableId} {term : Ty}
    (linked : before.link? id = some term) :
    ∃ further, after.link? id = some further ∧
      after.resolve further = (before.resolve term).substitute replacement := by
  have inside : id < before.cells.size := lt_of_link? linked
  rcases found : after.link? id with _ | further
  · have free : before.Free id := specializes.linked id found
    rw [Free, linked] at free
    cases free
  · refine ⟨further, rfl, ?_⟩
    calc after.resolve further
        = after.resolve (.var id) := (soundAfter.acyclic.resolve_linked found).symm
      _ = (before.resolve (.var id)).substitute replacement := specializes.resolve_eq _ inside
      _ = (before.resolve term).substitute replacement := by
          rw [sound.acyclic.resolve_linked linked]

end Specializes

end Store

end ArrowScript
