import ArrowScript.Proofs.Ty.Descent
import ArrowScript.Proofs.Ty.Renaming

/-!
# What a walk leaves alone

A walk over a part of a tree starts with some terms that it knows and makes new ones.
It links only variables that it reaches from what it knows, and variables that it has
added. What it makes reaches no other old variables than those. `Framed` is this frame
condition; it composes, and every operation on a store satisfies it.
-/

namespace ArrowScript.Store

variable {before between after store : Store} {known made others : List VariableId}

/-- The frame condition of a walk that knows some variables and makes others. -/
structure Framed (before after : Store) (known made : List VariableId) : Prop where
  refines : Refines before after
  sound : after.Sound
  old : ∀ id ∈ known ++ made, id < after.cells.size
  untouched : ∀ id < before.cells.size, before.Free id → ¬ before.Reaches known id →
    after.Free id
  confined : ∀ id < before.cells.size, after.Reaches (known ++ made) id →
    before.Reaches known id

namespace Framed

/-- Old variables come to stand only for terms of old variables that are known. -/
theorem spread (framed : Framed before after known made) (sound : before.Sound) {term : Ty}
    (covered : term.Over before.cells.size) {id : VariableId} (old : id < before.cells.size)
    (occurs : id ∈ (after.resolve term).vars) :
    id ∈ (before.resolve term).vars ∨ before.Reaches known id := by
  rw [← framed.refines.resolve_resolve, mem_resolve] at occurs
  obtain ⟨place, inBefore, occurs⟩ := occurs
  by_cases reached : before.Reaches known place
  · obtain ⟨other, member, found⟩ := reached
    refine .inr (framed.confined id old ⟨other, List.mem_append_left _ member, ?_⟩)
    rw [← framed.refines.resolve_resolve, mem_resolve]
    exact ⟨place, found, occurs⟩
  · have placeOld := (sound.resolve_over covered).lt inBefore
    have free := framed.untouched place placeOld (sound.acyclic.free_of_mem_resolve inBefore)
      reached
    rw [resolve_free free, Ty.vars, List.mem_singleton] at occurs
    exact .inl (occurs ▸ inBefore)

/-- A term that reaches nothing that is known still stands for the same. -/
theorem resolve_eq (framed : Framed before after known made) (sound : before.Sound) {term : Ty}
    (covered : term.Over before.cells.size)
    (apart : ∀ id ∈ (before.resolve term).vars, ¬ before.Reaches known id) :
    after.resolve term = before.resolve term := by
  have kept (id : VariableId) (occurs : id ∈ (before.resolve term).vars) :
      after.resolve (.var id) = .var id := by
    have old := (sound.resolve_over covered).lt occurs
    have free := sound.acyclic.free_of_mem_resolve occurs
    exact resolve_free (framed.untouched id old free (apart id occurs))
  calc after.resolve term
      = after.resolve (before.resolve term) := (framed.refines.resolve_resolve term).symm
    _ = (before.resolve term).substitute fun id => after.resolve (.var id) :=
        resolve_eq_substitute after _
    _ = (before.resolve term).substitute .var := Ty.substitute_congr kept
    _ = before.resolve term := Ty.substitute_var _

/-- Changes that keep what terms stand for need to know nothing. -/
theorem of_agrees (agrees : Agrees before after) (sound : before.Sound) :
    Framed before after [] [] where
  refines := .of_agrees agrees sound
  sound := agrees.sound sound
  old := by simp
  untouched id _ free _ := (agrees.free_iff id).mpr free
  confined id _ reaches := by
    rwa [List.append_nil, reaches_congr agrees.resolve_eq] at reaches

/-- A walk that knows other variables, from which all that it knew is reached. -/
theorem knowing (framed : Framed before after known made) (sound : before.Sound)
    (othersOld : ∀ id ∈ others, id < before.cells.size)
    (knows : ∀ id, before.Reaches known id → before.Reaches others id) :
    Framed before after others made where
  refines := framed.refines
  sound := framed.sound
  old id member := by
    rcases List.mem_append.mp member with isOther | isMade
    · exact Nat.lt_of_lt_of_le (othersOld id isOther) framed.refines.size_le
    · exact framed.old id (List.mem_append_right _ isMade)
  untouched id old free apart :=
    framed.untouched id old free fun reaches => apart (knows id reaches)
  confined id old reaches := by
    rcases reaches_append.mp reaches with ⟨place, isOther, occurs⟩ | isMade
    · rcases framed.spread sound (Ty.over_var.mpr (othersOld place isOther)) old occurs with
        found | found
      · exact ⟨place, isOther, found⟩
      · exact knows id found
    · exact knows id (framed.confined id old (reaches_append.mpr (.inr isMade)))

/-- A walk that knows more. -/
theorem wider (framed : Framed before after known made) (sound : before.Sound)
    (othersOld : ∀ id ∈ others, id < before.cells.size) (subset : known ⊆ others) :
    Framed before after others made :=
  framed.knowing sound othersOld fun _ reaches => reaches.mono subset

/-- A walk of whose results fewer are used. -/
theorem fewer (framed : Framed before after known made) {fewer : List VariableId}
    (makes : fewer ⊆ known ++ made) : Framed before after known fewer where
  refines := framed.refines
  sound := framed.sound
  old id member := framed.old id (List.append_subset.mpr
    ⟨List.subset_append_left known made, makes⟩ member)
  untouched := framed.untouched
  confined id old reaches := framed.confined id old (reaches.mono (List.append_subset.mpr
    ⟨List.subset_append_left known made, makes⟩))

/-- Two walks, of which the second knows no more than what the first has known and made. -/
theorem append {further : List VariableId} (first : Framed before between known made)
    (second : Framed between after others further) (knows : others ⊆ known ++ made) :
    Framed before after known (made ++ further) := by
  have whole := second.wider first.sound first.old knows
  have kept : known ++ (made ++ further) ⊆ known ++ made ++ further := by simp
  exact
    { refines := first.refines.trans second.refines
      sound := second.sound
      old := fun id member => whole.old id (kept member)
      untouched := fun id inside free apart => by
        have still := first.untouched id inside free apart
        refine whole.untouched id (Nat.lt_of_lt_of_le inside first.refines.size_le) still ?_
        exact fun reaches => apart (first.confined id inside reaches)
      confined := fun id inside reaches => by
        refine first.confined id inside (whole.confined id ?_ (reaches.mono kept))
        exact Nat.lt_of_lt_of_le inside first.refines.size_le }

end Framed

/-! ## The operations -/

/-- A fresh variable is made without touching anything. -/
theorem framed_fresh {id : VariableId} (sound : store.Sound)
    (added : Solver.fresh.run store = (id, after)) : Framed store after [] [id] := by
  obtain ⟨agrees, rfl, size⟩ := Solver.fresh_agrees sound added
  have framed := Framed.of_agrees agrees sound
  refine { framed with old := by simp [size], confined := fun old inside reaches => ?_ }
  have free : store.Free store.cells.size := free_of_le (Nat.le_refl _)
  obtain ⟨place, member, occurs⟩ := reaches
  obtain rfl := List.mem_singleton.mp member
  rw [agrees.resolve_eq, resolve_free free, Ty.vars, List.mem_singleton] at occurs
  exact absurd inside (occurs ▸ Nat.lt_irrefl _)

/-- Unifying two terms touches only what they reach. -/
theorem framed_unified {left right : Ty} {problems : List Problem} (sound : store.Sound)
    (leftOver : left.Over store.cells.size) (rightOver : right.Over store.cells.size)
    (unified : Solver.Unified store [(left, right)] problems after) :
    Framed store after (left.vars ++ right.vars) [] := by
  have concerns (id : VariableId) : Solver.Concerns store [(left, right)] id ↔
      store.Reaches (left.vars ++ right.vars) id := by
    simp [Solver.Concerns, reaches_vars]
  refine ⟨unified.refines, unified.refines.sound sound, ?_, fun id _ free apart => ?_, ?_⟩
  · intro id member
    rw [List.append_nil] at member
    rw [unified.size_eq]
    exact (List.mem_append.mp member).elim leftOver.lt rightOver.lt
  · exact unified.untouched id free fun concerned => apart ((concerns id).mp concerned)
  · intro id old reaches
    rw [List.append_nil] at reaches
    obtain ⟨place, member, occurs⟩ := reaches
    rcases unified.confined _ id occurs with found | concerned
    · exact ⟨place, member, found⟩
    · exact (concerns id).mp concerned

/-- An instance is over the variables of the store. -/
theorem over_instantiates {undetermined : List Ty} {type image : Ty}
    {replacement : VariableId → Ty} (sound : store.Sound) (typeOver : type.Over store.cells.size)
    (instantiates : Solver.Instantiates store after undetermined type image replacement) :
    image.Over after.cells.size := by
  rw [instantiates.image_eq]
  have resolved := sound.resolve_over typeOver
  refine resolved.substitute fun id occurs => ?_
  by_cases fixed : store.Reaches (Ty.varsOf undetermined) id
  · rw [instantiates.fixed id fixed]
    exact Nat.lt_of_lt_of_le (resolved.lt occurs) instantiates.agrees.size_le
  · obtain ⟨renamed, here, -, inside⟩ := instantiates.fresh id occurs fixed
    rw [here]
    exact inside

/-- Taking an instance of a term makes variables that reach no old ones but the fixed. -/
theorem framed_instantiates {undetermined : List Ty} {type image : Ty}
    {replacement : VariableId → Ty} (sound : store.Sound)
    (undeterminedOver : ∀ term ∈ undetermined, term.Over store.cells.size)
    (typeOver : type.Over store.cells.size)
    (instantiates : Solver.Instantiates store after undetermined type image replacement) :
    Framed store after (Ty.varsOf undetermined) image.vars := by
  have undeterminedOld (id : VariableId) (member : id ∈ Ty.varsOf undetermined) :
      id < store.cells.size := by
    obtain ⟨term, member, occurs⟩ := Ty.mem_varsOf.mp member
    exact (undeterminedOver term member).lt occurs
  have framed := (Framed.of_agrees instantiates.agrees sound).wider sound undeterminedOld
    (List.nil_subset _)
  refine { framed with old := fun id member => ?_, confined := fun id old reaches => ?_ }
  · rcases List.mem_append.mp member with isFixed | inImage
    · exact Nat.lt_of_lt_of_le (undeterminedOld id isFixed) instantiates.agrees.size_le
    · exact (over_instantiates sound typeOver instantiates).lt inImage
  rw [reaches_congr instantiates.agrees.resolve_eq, reaches_append] at reaches
  rcases reaches with fixed | inImage
  · exact fixed
  rw [reaches_vars, instantiates.image_eq, mem_resolve] at inImage
  obtain ⟨place, inReplaced, occurs⟩ := inImage
  obtain ⟨source, inType, placed⟩ := Ty.mem_vars_substitute.mp inReplaced
  by_cases fixed : store.Reaches (Ty.varsOf undetermined) source
  · rw [instantiates.fixed source fixed, Ty.vars, List.mem_singleton] at placed
    subst placed
    rw [resolve_free (sound.acyclic.free_of_mem_resolve inType), Ty.vars,
      List.mem_singleton] at occurs
    exact occurs ▸ fixed
  · obtain ⟨renamed, image, bound, -⟩ := instantiates.fresh source inType fixed
    rw [image, Ty.vars, List.mem_singleton] at placed
    subst placed
    rw [resolve_free (free_of_le bound), Ty.vars, List.mem_singleton] at occurs
    exact absurd old (occurs ▸ Nat.not_lt.mpr bound)

end ArrowScript.Store
