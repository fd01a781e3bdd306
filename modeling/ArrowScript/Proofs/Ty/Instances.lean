import ArrowScript.Proofs.Ty.Renaming

/-!
# What instances consume

Several instances that share a renaming add one variable for each generic variable of
their terms, and no other. A generic variable is one that occurs in what one of the terms
stands for and in nothing that an undetermined term stands for; it is renamed at the
first place where it is met, and from then on the renaming is looked up.

The count is an invariant of the expansion: the renaming is as long as the store has
grown, no variable is renamed twice, and each one that is renamed was met in one of
the terms. What is said of one instance is the case of a single term and an empty
renaming.
-/

namespace ArrowScript

/-- The term that a renaming puts in the place of a variable. Other variables are kept. -/
def Renaming.replace (given : Renaming) (id : VariableId) : Ty :=
  .var ((given.lookup id).getD id)

namespace Solver

open Store

variable {store before after : Store} {undetermined terms images : List Ty}
  {given : Renaming}

/-! ## Walks that make no variable -/

/-- A change that shortens chains of links and does nothing else: no variable is made, and
no number is used. -/
structure Shortens (before after : Store) : Prop where
  agrees : Agrees before after
  size_eq : after.cells.size = before.cells.size
  numbered_eq : after.numbered = before.numbered

/-- Shortening twice is shortening. -/
theorem Shortens.trans {last : Store} (first : Shortens before after)
    (second : Shortens after last) : Shortens before last where
  agrees := first.agrees.trans second.agrees
  size_eq := second.size_eq.trans first.size_eq
  numbered_eq := second.numbered_eq.trans first.numbered_eq

/-- Following a chain shortens it. -/
theorem shortens_compressed (sound : store.Sound) {term reached : Ty}
    (compressed : (compress term).run store = (reached, after)) : Shortens store after := by
  obtain ⟨agrees, size, -, -⟩ := resolve_compressed sound compressed
  obtain ⟨-, rfl⟩ := Prod.mk.inj compressed
  exact ⟨agrees, size, redirect_numbered store _ _⟩

/-- A search shortens chains. -/
theorem Searches.shortens {sought : VariableId} {found : Bool}
    (searches : Searches sought store terms found after) (sound : store.Sound) :
    Shortens store after := by
  induction searches with
  | done store => exact ⟨.refl store, rfl, rfl⟩
  | found rest reached => exact shortens_compressed sound reached
  | other reached _ _ inductionHypothesis
  | primitive reached _ inductionHypothesis
  | array reached _ inductionHypothesis
  | function reached _ inductionHypothesis =>
    have shortens := shortens_compressed sound reached
    exact shortens.trans (inductionHypothesis (shortens.agrees.sound sound))

/-! ## Counting the variables that are renamed -/

/-- A variable is generic in some terms when it occurs in what one of them stands for and
in nothing that an undetermined term stands for. -/
def GenericIn (store : Store) (undetermined terms : List Ty) (id : VariableId) : Prop :=
  (∃ term ∈ terms, id ∈ (store.resolve term).vars) ∧
    ∀ type ∈ undetermined, id ∉ (store.resolve type).vars

/-- What holds while instances of some terms are being taken: the store has grown by one
variable for each one that has been renamed, and these are generic in the terms. -/
structure Counted (before : Store) (undetermined terms : List Ty) (world : Renaming × Store) :
    Prop where
  sound : world.2.Sound
  agrees : Agrees before world.2
  distinct : (world.1.map Prod.fst).Nodup
  generic : ∀ id ∈ world.1.map Prod.fst, GenericIn before undetermined terms id
  size_eq : world.2.cells.size = before.cells.size + world.1.length
  numbered_eq : world.2.numbered = before.numbered + world.1.length
  named : ∀ place < world.1.length,
    world.2.nameOf (before.cells.size + place) = Ty.defaultName (before.numbered + place)

/-- At the start nothing has been renamed. -/
theorem Counted.start (sound : before.Sound) (undetermined terms : List Ty) :
    Counted before undetermined terms ([], before) where
  sound := sound
  agrees := .refl before
  distinct := .nil
  generic := by simp
  size_eq := rfl
  numbered_eq := rfl
  named := by simp

/-- Shortening chains does not concern the count. -/
theorem Counted.shortens (counted : Counted before undetermined terms (given, store))
    (shortens : Shortens store after) : Counted before undetermined terms (given, after) where
  sound := shortens.agrees.sound counted.sound
  agrees := counted.agrees.trans shortens.agrees
  distinct := counted.distinct
  generic := counted.generic
  size_eq := shortens.size_eq.trans counted.size_eq
  numbered_eq := shortens.numbered_eq.trans counted.numbered_eq
  named place bound := by
    have inside : before.cells.size + place < store.cells.size :=
      counted.size_eq ▸ Nat.add_lt_add_left bound _
    rw [shortens.agrees.nameOf_eq _ inside]
    exact counted.named place bound

/-- Renaming one more generic variable adds the next variable. -/
theorem Counted.cons {id renamed : VariableId}
    (counted : Counted before undetermined terms (given, store))
    (generic : GenericIn before undetermined terms id) (unknown : given.lookup id = none)
    (added : fresh.run store = (renamed, after)) :
    Counted before undetermined terms ((id, renamed) :: given, after) := by
  have agrees := (fresh_agrees counted.sound added).1
  obtain ⟨rfl, rfl⟩ := Prod.mk.inj added
  have size : store.cells.size = before.cells.size + given.length := counted.size_eq
  have numbered : store.numbered = before.numbered + given.length := counted.numbered_eq
  have apart : id ∉ given.map Prod.fst := by
    intro member
    obtain ⟨entry, known, rfl⟩ := List.mem_map.mp member
    have differs := List.lookup_eq_none_iff.mp unknown entry known
    simp at differs
  constructor
  · exact agrees.sound counted.sound
  · exact counted.agrees.trans agrees
  · exact List.nodup_cons.mpr ⟨apart, counted.distinct⟩
  · intro other member
    obtain rfl | member := List.mem_cons.mp member
    · exact generic
    · exact counted.generic other member
  · simp only [Array.size_push, List.length_cons]
    omega
  · exact congrArg (· + 1) numbered
  · intro place bound
    by_cases last : place = given.length
    · subst last
      simp [← size, ← numbered, nameOf]
    · have older : place < given.length :=
        Nat.lt_of_le_of_ne (Nat.lt_succ_iff.mp bound) last
      have inside : before.cells.size + place < store.cells.size := by omega
      rw [agrees.nameOf_eq _ inside]
      exact counted.named place older

/-- What is done at a free variable that occurs in the terms keeps the count. -/
theorem Counted.renames {world next : Renaming × Store} {id : VariableId} {image : Ty}
    (counted : Counted before undetermined terms world)
    (occurs : ∃ term ∈ terms, id ∈ (before.resolve term).vars)
    (renames : Renames undetermined world id image next) :
    Counted before undetermined terms next := by
  cases renames with
  | fixed found => exact counted.shortens (found.shortens counted.sound)
  | again generic known => exact counted.shortens (generic.shortens counted.sound)
  | anew generic unknown added =>
    have absent := (generic.spec counted.sound).2.2
    simp only [Bool.false_eq_true, false_iff, not_exists, not_and,
      counted.agrees.resolve_eq] at absent
    have onward := counted.shortens (generic.shortens counted.sound)
    exact onward.cons ⟨occurs, absent⟩ unknown added

/-- The count is kept by a whole expansion of parts of the terms. -/
theorem Expands.counted {parts : List Ty} {world last : renamingRunner.World}
    (expands : Expands renamingRunner (Renames undetermined) world parts images last)
    (counted : Counted before undetermined terms world)
    (within : ∀ part ∈ parts, ∀ id ∈ (before.resolve part).vars,
      ∃ term ∈ terms, id ∈ (before.resolve term).vars) :
    Counted before undetermined terms last := by
  induction expands with
  | done => exact counted
  | @free world between last after term image rest images id reached acted _ inductionHypothesis =>
    obtain ⟨-, -, same, free⟩ := resolve_compressed counted.sound reached
    have onward := counted.shortens (shortens_compressed counted.sound reached)
    rw [resolve_free (free id rfl), counted.agrees.resolve_eq] at same
    have occurs := within term (by simp) id (by simp [← same])
    exact inductionHypothesis (onward.renames occurs acted) fun part member =>
      within part (by simp [member])
  | primitive reached _ inductionHypothesis =>
    have onward := counted.shortens (shortens_compressed counted.sound reached)
    exact inductionHypothesis onward fun part member => within part (by simp [member])
  | array reached _ inductionHypothesis =>
    have same := (resolve_compressed counted.sound reached).2.2.1
    have onward := counted.shortens (shortens_compressed counted.sound reached)
    simp only [counted.agrees.resolve_eq] at same
    refine inductionHypothesis onward ?_
    simpa [← same] using within
  | function reached arity _ inductionHypothesis =>
    have same := (resolve_compressed counted.sound reached).2.2.1
    have onward := counted.shortens (shortens_compressed counted.sound reached)
    simp only [counted.agrees.resolve_eq] at same
    refine inductionHypothesis onward ?_
    simp only [List.mem_cons, forall_eq_or_imp, ← same, resolve_function, Ty.vars,
      List.mem_append, Ty.mem_varsOf, List.mem_map] at within ⊢
    obtain ⟨here, others⟩ := within
    rintro part (member | rfl | member) id occurs
    · exact here id (.inl ⟨_, ⟨part, member, rfl⟩, occurs⟩)
    · exact here id (.inr occurs)
    · exact others part member id occurs

/-! ## Instances that share a renaming -/

/-- What instances of several terms are that share one renaming. Exactly the variables that
are generic in the terms have been renamed, each to a new variable of its own, and nothing
else has changed in the store but the length of chains. -/
structure Instances (before after : Store) (undetermined terms images : List Ty)
    (given : Renaming) : Prop where
  agrees : Agrees before after
  images_eq : images = terms.map fun term => (before.resolve term).substitute given.replace
  resolved : ∀ image ∈ images, after.resolve image = image
  renamed_iff : ∀ id, (given.lookup id).isSome ↔ GenericIn before undetermined terms id
  fresh : ∀ id renamed, given.lookup id = some renamed →
    before.cells.size ≤ renamed ∧ renamed < after.cells.size
  injective : ∀ id other renamed, given.lookup id = some renamed →
    given.lookup other = some renamed → id = other
  distinct : (given.map Prod.fst).Nodup
  size_eq : after.cells.size = before.cells.size + given.length
  numbered_eq : after.numbered = before.numbered + given.length
  named : ∀ place < given.length,
    after.nameOf (before.cells.size + place) = Ty.defaultName (before.numbered + place)

/-- Where a renaming knows exactly the variables that are not fixed, it replaces each
variable by what it is renamed to. -/
theorem renamedTo_eq_replace {fixed : VariableId → Prop} {id : VariableId}
    (exclusive : (given.lookup id).isSome → ¬ fixed id) :
    renamedTo fixed given id = given.replace id := by
  rw [renamedTo, Renaming.replace]
  cases known : given.lookup id with
  | none => simp
  | some renamed => simp [exclusive (by simp [known])]

/-- An expansion of terms in a sound store makes instances that share the renaming. -/
theorem Expands.instances (sound : before.Sound)
    (expands : Expands renamingRunner (Renames undetermined) ([], before) terms images
      (given, after)) :
    Instances before after undetermined terms images given := by
  have counted : Counted before undetermined terms (given, after) :=
    expands.counted (.start sound undetermined terms) fun term member id occurs =>
      ⟨term, member, occurs⟩
  have initially : Renamed before [] ([], before) :=
    ⟨sound, .refl before, by simp, by simp, by simp⟩
  obtain ⟨renamed, -, -, settled, substituted⟩ :=
    expands.images_eq (renames_settles before [] undetermined) initially
  have known_iff (id : VariableId) : (given.lookup id).isSome ↔ id ∈ given.map Prod.fst := by
    rw [List.mem_map, Option.isSome_iff_ne_none, ne_eq, List.lookup_eq_none_iff]
    simp
  have generic (id : VariableId) (known : (given.lookup id).isSome) :
      GenericIn before undetermined terms id :=
    counted.generic id ((known_iff id).mp known)
  have replaced (id : VariableId) :
      renamedTo (before.Reaches (Ty.varsOf undetermined)) given id = given.replace id := by
    refine renamedTo_eq_replace fun known isFixed => ?_
    obtain ⟨type, member, occurs⟩ := reaches_varsOf.mp isFixed
    exact (generic id known).2 type member occurs
  have fresh (id renamedId : VariableId) (known : given.lookup id = some renamedId) :
      before.cells.size ≤ renamedId :=
    (renamed.added id renamedId known).resolve_left (by simp)
  have images_eq : images = terms.map fun term =>
      (before.resolve term).substitute given.replace := by
    rw [substituted]
    exact List.map_congr_left fun term _ => Ty.substitute_congr fun id _ => replaced id
  constructor
  · exact counted.agrees
  · exact images_eq
  · intro image member
    rw [images_eq] at member
    obtain ⟨term, -, rfl⟩ := List.mem_map.mp member
    -- Every variable of an image is free: it has been kept, or it is new.
    rw [resolve_eq_substitute, Ty.substitute_substitute]
    refine Ty.substitute_congr fun id occurs => ?_
    rw [Renaming.replace]
    refine resolve_free ((counted.agrees.free_iff _).mpr ?_)
    cases known : given.lookup id with
    | none => exact sound.acyclic.free_of_mem_resolve occurs
    | some renamedId => exact free_of_le (fresh id renamedId known)
  · intro id
    refine ⟨generic id, fun ⟨⟨term, member, occurs⟩, absent⟩ => ?_⟩
    refine (settled term member id occurs).resolve_left fun isFixed => ?_
    obtain ⟨type, isUndetermined, occurs⟩ := reaches_varsOf.mp isFixed
    exact absent type isUndetermined occurs
  · exact fun id renamedId known => ⟨fresh id renamedId known, renamed.inside id renamedId known⟩
  · intro id other renamedId known otherKnown
    exact renamed.injective id other renamedId (fresh id renamedId known) known otherKnown
  · exact counted.distinct
  · exact counted.size_eq
  · exact counted.numbered_eq
  · exact counted.named

/-- Instances of several terms over the variables of a sound store, taken one after the
other with one renaming. -/
theorem sharedInstances_spec (sound : store.Sound)
    (undeterminedOver : ∀ type ∈ undetermined, type.Over store.cells.size)
    (covered : ∀ term ∈ terms, term.Over store.cells.size) :
    ∃ images given after,
      ((terms.mapM (sharedInstance undetermined)).run []).run store = ((images, given), after) ∧
      Instances store after undetermined terms images given := by
  rcases taken : ((terms.mapM (sharedInstance undetermined)).run []).run store
    with ⟨⟨images, given⟩, after⟩
  have expands : Expands renamingRunner (Renames undetermined) ([], store) terms images
      (given, after) := by
    have first : ExpandsFirst renamingRunner (Renames undetermined) ([], store) terms _ :=
      expandAll_first terms sound covered (renameFree_performs undeterminedOver)
    have ran : renamingRunner.run (terms.mapM (expand (renameFree undetermined))) ([], store) =
        (images, given, after) := by
      change (_, _, _) = _
      change ((terms.mapM (expand (renameFree undetermined))).run []).run store = _ at taken
      rw [taken]
    rw [ran] at first
    simpa using first.expands [] [] _ (.done _)
  exact ⟨images, given, after, rfl, expands.instances sound⟩

/-- An instance of one term over the variables of a sound store. -/
theorem freshInstance_instances (sound : store.Sound)
    (undeterminedOver : ∀ type ∈ undetermined, type.Over store.cells.size) {term : Ty}
    (covered : term.Over store.cells.size) :
    ∃ image given after,
      (freshInstance undetermined term).run store = (image, after) ∧
      Instances store after undetermined [term] [image] given := by
  have unused (id renamed : VariableId) (known : ([] : Renaming).lookup id = some renamed) :
      renamed < store.cells.size := by simp at known
  obtain ⟨image, given, after, taken, expands, -⟩ :=
    sharedInstance_spec sound undeterminedOver covered unused
  have ran := congrArg (fun outcome => (outcome.1.1, outcome.2)) taken
  exact ⟨image, given, after, ran, expands.instances sound⟩

/-- An instance of a type that is itself undetermined is what it stands for. It renames
nothing. -/
theorem Instances.of_undetermined {type image : Ty}
    (instances : Instances before after undetermined [type] [image] given)
    (member : type ∈ undetermined) : given = [] ∧ image = before.resolve type := by
  have unknown (id : VariableId) : ¬ (given.lookup id).isSome := by
    rw [instances.renamed_iff]
    rintro ⟨⟨term, isType, occurs⟩, absent⟩
    obtain rfl := List.mem_singleton.mp isType
    exact absent term member occurs
  obtain rfl : given = [] := by
    cases given with
    | nil => rfl
    | cons entry rest => exact absurd (by simp) (unknown entry.1)
  have images := instances.images_eq
  simp only [List.map_cons, List.map_nil, List.cons.injEq, and_true] at images
  exact ⟨rfl, images.trans (Ty.substitute_var _)⟩

end Solver

end ArrowScript
