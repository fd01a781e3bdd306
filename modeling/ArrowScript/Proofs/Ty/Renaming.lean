import ArrowScript.Proofs.Ty.Expansion
import ArrowScript.Ty.Instance

/-!
# Instances as renamings

An instance of a term is what the term stands for, with its generic variables replaced
by fresh ones. A variable is fixed when it occurs in what an undetermined term stands
for, and generic otherwise. Two generic variables are never replaced by the same fresh
one, so nothing is lost: an instance is as general as the term without the fixed
variables allows.
-/

namespace ArrowScript.Solver

open Store

/-- Asking whether a variable is generic is searching it in the undetermined terms. -/
theorem isGeneric_searches {store : Store} (sound : store.Sound) {undetermined : List Ty}
    (covered : ∀ term ∈ undetermined, term.Over store.cells.size) (id : VariableId) :
    Searches id store undetermined (!((isGeneric undetermined id).run store).1)
      ((isGeneric undetermined id).run store).2 := by
  suffices first : SearchesFirst id store undetermined
      (!((isGeneric undetermined id).run store).1, ((isGeneric undetermined id).run store).2) from
    first.searches
  induction undetermined generalizing store with
  | nil => exact fun rest found last further => further
  | cons term rest inductionHypothesis =>
    have termOver := covered term (by simp)
    have here : SearchesFirst id store [term] ((occursIn id term).run store) :=
      anyVariable_searches _ term occursInVariable_searches store
        (.start sound (by simpa using termOver))
    obtain ⟨agrees, size, -⟩ := occursIn_spec sound termOver id
    have others := inductionHypothesis (agrees.sound sound) fun other member =>
      size ▸ covered other (.tail _ member)
    have both := here.append fun _ => others
    rw [isGeneric, run_bind]
    cases found : ((occursIn id term).run store).1 with
    | true =>
      rw [found, if_pos rfl] at both
      exact both
    | false =>
      rw [found, if_neg Bool.false_ne_true] at both
      exact both

/-- What is done at a free variable when an instance is taken. -/
inductive Renames (undetermined : List Ty) : Action (Renaming × Store)
  | fixed {given : Renaming} {store after : Store} {id : VariableId}
    (found : Searches id store undetermined true after) :
    Renames undetermined (given, store) id (.var id) (given, after)
  | again {given : Renaming} {store after : Store} {id renamed : VariableId}
    (generic : Searches id store undetermined false after)
    (known : given.lookup id = some renamed) :
    Renames undetermined (given, store) id (.var renamed) (given, after)
  | anew {given : Renaming} {store after last : Store} {id renamed : VariableId}
    (generic : Searches id store undetermined false after)
    (unknown : given.lookup id = none) (added : fresh.run after = (renamed, last)) :
    Renames undetermined (given, store) id (.var renamed) ((id, renamed) :: given, last)

/-- Computations with a renaming run on the renaming and the store. -/
abbrev renamingRunner : Runner (StateT Renaming Solver) where
  World := Renaming × Store
  store world := world.2
  withStore world changed := (world.1, changed)
  run computation world :=
    let outcome := (computation.run world.1).run world.2
    (outcome.1.1, outcome.1.2, outcome.2)
  store_withStore _ _ := rfl
  withStore_store _ := rfl
  withStore_withStore _ _ _ := rfl
  run_pure _ _ := rfl
  run_bind _ _ _ := rfl
  run_lift _ _ := rfl

/-- A fresh variable is the next one, and nothing else changes. -/
theorem fresh_agrees {store after : Store} {renamed : VariableId} (sound : store.Sound)
    (added : fresh.run store = (renamed, after)) :
    Agrees store after ∧ renamed = store.cells.size ∧
      after.cells.size = store.cells.size + 1 := by
  obtain ⟨rfl, rfl⟩ := Prod.mk.inj added
  exact ⟨agrees_push sound _ _, rfl, Array.size_push _⟩

/-- Renaming a generic variable looks it up, and makes a fresh one if it has to. -/
theorem renameFree_run (undetermined : List Ty) (id : VariableId) (given : Renaming)
    (store : Store) :
    renamingRunner.run (renameFree undetermined id) (given, store) =
      let tested := (isGeneric undetermined id).run store
      if tested.1 then
        match given.lookup id with
        | some renamed => (.var renamed, given, tested.2)
        | none =>
          let added := fresh.run tested.2
          (.var added.1, (id, added.1) :: given, added.2)
      else (.var id, given, tested.2) := by
  rw [renameFree, renamingRunner.run_bind, renamingRunner.run_lift]
  rcases (isGeneric undetermined id).run store with ⟨generic, after⟩
  cases generic with
  | false => rfl
  | true =>
    change renamingRunner.run (match given.lookup id with | some _ => _ | none => _) _ = _
    cases given.lookup id <;> rfl

/-- Renaming a free variable is done in one of the three ways. -/
theorem renameFree_performs {size : Nat} {undetermined : List Ty}
    (covered : ∀ term ∈ undetermined, term.Over size) :
    Performs renamingRunner size (renameFree undetermined) (Renames undetermined) := by
  rintro ⟨given, store⟩ id sound size
  have searches := isGeneric_searches sound (fun term member => (covered term member).mono size) id
  obtain ⟨agrees, -, -⟩ := searches.spec sound
  rw [renameFree_run]
  rcases tested : (isGeneric undetermined id).run store with ⟨generic, after⟩
  rw [tested] at searches agrees
  cases generic with
  | false => exact ⟨.fixed searches, agrees⟩
  | true =>
    cases known : given.lookup id with
    | some renamed => exact ⟨.again searches known, agrees⟩
    | none =>
      rcases added : fresh.run after with ⟨renamed, last⟩
      have freshAgrees := (fresh_agrees (agrees.sound sound) added).1
      simp only [added]
      exact ⟨.anew searches known added, agrees.trans freshAgrees⟩

/-! ## The renaming of a whole instance -/

open Classical in
/-- The renaming of the generic variables that have been met. -/
noncomputable def renamedTo (fixed : VariableId → Prop) (given : Renaming) (id : VariableId) :
    Ty :=
  if fixed id then .var id else ((given.lookup id).map Ty.var).getD (.var id)

/-- What holds while an instance is being taken: the store stands for what it stood for,
and the renaming extends the one at the start by fresh variables of its own. -/
structure Renamed (before : Store) (start : Renaming) (world : Renaming × Store) : Prop where
  sound : world.2.Sound
  agrees : Agrees before world.2
  inside : ∀ id renamed, world.1.lookup id = some renamed → renamed < world.2.cells.size
  added : ∀ id renamed, world.1.lookup id = some renamed →
    start.lookup id = some renamed ∨ before.cells.size ≤ renamed
  injective : ∀ id other renamed, before.cells.size ≤ renamed →
    world.1.lookup id = some renamed → world.1.lookup other = some renamed → id = other

variable {before : Store} {start given : Renaming} {undetermined : List Ty}

/-- Changes that keep what terms stand for do not concern the renaming. -/
theorem Renamed.agrees_trans {store after : Store} (renamed : Renamed before start (given, store))
    (agrees : Agrees store after) : Renamed before start (given, after) where
  sound := agrees.sound renamed.sound
  agrees := renamed.agrees.trans agrees
  inside id other known := Nat.lt_of_lt_of_le (renamed.inside id other known) agrees.size_le
  added := renamed.added
  injective := renamed.injective

/-- The last renaming that was added is found first. -/
theorem lookup_cons_eq (id renamed : VariableId) (given : Renaming) (other : VariableId) :
    List.lookup other ((id, renamed) :: given) =
      if other = id then some renamed else given.lookup other := by
  rw [List.lookup_cons]
  by_cases same : other = id
  · simp [same]
  · simp [same, beq_false_of_ne same]

/-- A renaming can be extended by the next fresh variable. -/
theorem Renamed.cons {store after : Store} {id added : VariableId}
    (renamed : Renamed before start (given, store))
    (fresh : fresh.run store = (added, after)) :
    Renamed before start ((id, added) :: given, after) := by
  obtain ⟨agrees, rfl, size⟩ := fresh_agrees renamed.sound fresh
  have onward := renamed.agrees_trans agrees
  have older (other image : VariableId) (known : given.lookup other = some image) :
      image < store.cells.size := renamed.inside other image known
  refine ⟨onward.sound, onward.agrees, ?_, ?_, ?_⟩
  · intro other image known
    rw [lookup_cons_eq] at known
    split at known
    · cases known
      exact size ▸ Nat.lt_succ_self _
    · exact onward.inside other image known
  · intro other image known
    rw [lookup_cons_eq] at known
    split at known
    · cases known
      exact .inr renamed.agrees.size_le
    · exact renamed.added other image known
  · intro first second image bound one two
    rw [lookup_cons_eq] at one two
    split at one <;> split at two
    next here there => exact here.trans there.symm
    next =>
      cases one
      exact absurd (older second _ two) (Nat.lt_irrefl _)
    next =>
      cases two
      exact absurd (older first _ one) (Nat.lt_irrefl _)
    next => exact renamed.injective first second image bound one two

/-- A renamed term is over the variables of the store. -/
theorem Renamed.covered {store : Store} {fixed : VariableId → Prop} {term : Ty}
    (renamed : Renamed before start (given, store)) (termOver : term.Over before.cells.size) :
    (term.substitute (renamedTo fixed given)).Over store.cells.size := by
  refine termOver.substitute fun id occurs => ?_
  have old : id < store.cells.size :=
    Nat.lt_of_lt_of_le (termOver.lt occurs) renamed.agrees.size_le
  rw [renamedTo]
  split
  · exact old
  · cases known : given.lookup id with
    | none => exact old
    | some image => exact renamed.inside id image known

/-- The search for a variable decides whether it is fixed. -/
theorem Renamed.fixed_iff {store after : Store} {id : VariableId} {found : Bool}
    (renamed : Renamed before start (given, store))
    (searches : Searches id store undetermined found after) :
    Agrees store after ∧ (found = true ↔ before.Reaches (Ty.varsOf undetermined) id) := by
  obtain ⟨agrees, -, exact⟩ := searches.spec renamed.sound
  refine ⟨agrees, ?_⟩
  rw [exact, ← reaches_congr renamed.agrees.resolve_eq, reaches_varsOf]

/-- Renaming settles every variable that is fixed or has been renamed. -/
theorem renames_settles (before : Store) (start : Renaming) (undetermined : List Ty) :
    Settles renamingRunner (Renames undetermined) (Renamed before start)
      (fun world id => before.Reaches (Ty.varsOf undetermined) id ∨ (world.1.lookup id).isSome)
      (fun world => renamedTo (before.Reaches (Ty.varsOf undetermined)) world.1) where
  sound holds := holds.sound
  shortened holds agrees := ⟨holds.agrees_trans agrees, rfl, rfl⟩
  acted := by
    intro world next id image holds free renames
    cases renames with
    | fixed found =>
      obtain ⟨agrees, isFixed⟩ := holds.fixed_iff found
      have isFixed := isFixed.mp rfl
      exact ⟨holds.agrees_trans agrees, agrees, .inl isFixed, if_pos isFixed⟩
    | again generic known =>
      obtain ⟨agrees, notFixed⟩ := holds.fixed_iff generic
      have notFixed : ¬ before.Reaches (Ty.varsOf undetermined) id := by simpa using notFixed
      refine ⟨holds.agrees_trans agrees, agrees, .inr (by simp [known]), ?_⟩
      simp [renamedTo, notFixed, known]
    | anew generic unknown added =>
      obtain ⟨agrees, notFixed⟩ := holds.fixed_iff generic
      have notFixed : ¬ before.Reaches (Ty.varsOf undetermined) id := by simpa using notFixed
      have onward := holds.agrees_trans agrees
      have fresh := (fresh_agrees onward.sound added).1
      refine ⟨onward.cons added, agrees.trans fresh, .inr (by simp), ?_⟩
      simp [renamedTo, notFixed]
  kept := by
    intro world next id other image holds renames known
    cases renames with
    | fixed => exact ⟨known, rfl⟩
    | again => exact ⟨known, rfl⟩
    | anew generic unknown added =>
      by_cases isFixed : before.Reaches (Ty.varsOf undetermined) other
      · exact ⟨.inl isFixed, by simp [renamedTo, isFixed]⟩
      · have met := known.resolve_left isFixed
        have apart : other ≠ id := by
          rintro rfl
          simp [unknown] at met
        simp only [lookup_cons_eq, renamedTo, if_neg apart]
        exact ⟨.inr met, trivial⟩

/-- An instance of a term over the variables of a sound store: what the term stands for,
with every generic variable renamed. -/
theorem sharedInstance_spec {store : Store} (sound : store.Sound)
    (undeterminedOver : ∀ term ∈ undetermined, term.Over store.cells.size) {term : Ty}
    (covered : term.Over store.cells.size)
    (inside : ∀ id renamed, start.lookup id = some renamed → renamed < store.cells.size) :
    ∃ image given after,
      ((sharedInstance undetermined term).run start).run store = ((image, given), after) ∧
      Expands renamingRunner (Renames undetermined) (start, store) [term] [image]
        (given, after) ∧
      Renamed store start (given, after) ∧
      image = (store.resolve term).substitute
        (renamedTo (store.Reaches (Ty.varsOf undetermined)) given) ∧
      ∀ id ∈ (store.resolve term).vars, store.Reaches (Ty.varsOf undetermined) id ∨
        (given.lookup id).isSome := by
  rcases taken : ((sharedInstance undetermined term).run start).run store
    with ⟨⟨image, given⟩, after⟩
  have ran : renamingRunner.run (expand (renameFree undetermined) term) (start, store) =
      (image, given, after) := by
    change (_, _, _) = _
    rw [← sharedInstance, taken]
  have expands : Expands renamingRunner (Renames undetermined) (start, store) [term]
      [(renamingRunner.run (expand (renameFree undetermined) term) (start, store)).1]
      (renamingRunner.run (expand (renameFree undetermined) term) (start, store)).2 :=
    (expand_expands sound covered (renameFree_performs undeterminedOver)).1
  rw [ran] at expands
  have initially : Renamed store start (start, store) :=
    ⟨sound, .refl store, inside, fun _ _ known => .inl known, fun id other renamed bound one _ =>
      absurd (inside id renamed one) (Nat.not_lt.mpr bound)⟩
  obtain ⟨renamed, -, -, all, images⟩ :=
    expands.images_eq (renames_settles store start undetermined) initially
  refine ⟨image, given, after, rfl, expands, renamed, ?_, ?_⟩
  · simpa only [List.map_cons, List.map_nil, List.cons.injEq, and_true] using images
  · simpa only [List.mem_singleton, forall_eq] using all

/-- What an instance of a type is: the type stands for the image up to the replacement,
which keeps the fixed variables and gives each generic one a fresh variable of its own. -/
structure Instantiates (before after : Store) (undetermined : List Ty) (type image : Ty)
    (replacement : VariableId → Ty) : Prop where
  agrees : Agrees before after
  image_eq : image = (before.resolve type).substitute replacement
  fixed : ∀ id, before.Reaches (Ty.varsOf undetermined) id → replacement id = .var id
  fresh : ∀ id ∈ (before.resolve type).vars,
    ¬ before.Reaches (Ty.varsOf undetermined) id →
    ∃ renamed, replacement id = .var renamed ∧ before.cells.size ≤ renamed ∧
      renamed < after.cells.size
  injective : ∀ id ∈ (before.resolve type).vars,
    ∀ other ∈ (before.resolve type).vars, ¬ before.Reaches (Ty.varsOf undetermined) id →
      ¬ before.Reaches (Ty.varsOf undetermined) other →
      replacement id = replacement other → id = other

/-- A fresh instance of a term over the variables of a sound store. -/
theorem freshInstance_spec {store : Store} (sound : store.Sound)
    (undeterminedOver : ∀ term ∈ undetermined, term.Over store.cells.size) {term : Ty}
    (covered : term.Over store.cells.size) :
    ∃ replacement, Instantiates store ((freshInstance undetermined term).run store).2
      undetermined term ((freshInstance undetermined term).run store).1 replacement := by
  have empty (id renamed : VariableId) (known : ([] : Renaming).lookup id = some renamed) :
      renamed < store.cells.size := by simp at known
  obtain ⟨image, given, after, taken, -, renamed, images, all⟩ :=
    sharedInstance_spec sound undeterminedOver covered empty
  have ran : (freshInstance undetermined term).run store = (image, after) := by
    have first := congrArg (fun outcome => (outcome.1.1, outcome.2)) taken
    exact first
  rw [ran]
  have renamedAs (id : VariableId) (occurs : id ∈ (store.resolve term).vars)
      (generic : ¬ store.Reaches (Ty.varsOf undetermined) id) :
      ∃ fresh, given.lookup id = some fresh ∧
        renamedTo (store.Reaches (Ty.varsOf undetermined)) given id = .var fresh := by
    obtain ⟨fresh, known⟩ := Option.isSome_iff_exists.mp ((all id occurs).resolve_left generic)
    exact ⟨fresh, known, by simp [renamedTo, generic, known]⟩
  refine ⟨_, renamed.agrees, images, fun id isFixed => if_pos isFixed, ?_, ?_⟩
  · intro id occurs generic
    obtain ⟨fresh, known, image⟩ := renamedAs id occurs generic
    exact ⟨fresh, image, (renamed.added id fresh known).resolve_left (by simp),
      renamed.inside id fresh known⟩
  · intro id occurs other otherOccurs generic otherGeneric same
    obtain ⟨fresh, known, image⟩ := renamedAs id occurs generic
    obtain ⟨otherFresh, otherKnown, otherImage⟩ := renamedAs other otherOccurs otherGeneric
    obtain rfl : fresh = otherFresh := by simpa [image, otherImage] using same
    have bound := (renamed.added id fresh known).resolve_left (by simp)
    exact renamed.injective id other fresh bound known otherKnown

end ArrowScript.Solver
