import ArrowScript.Proofs.Ty.Occurrence

/-!
# Replacing variables by what they stand for

Expanding a term goes through it from left to right, follows links where it meets
variables, and acts on the free variables that it finds. Printing expands with an
action that keeps them; taking an instance expands with one that renames them.

`Expands` describes an expansion of a list of terms without a limit on its depth, for
any such action. The expansion within the limit is one, whatever monad the action
lives in; a `Runner` says what it means to run that monad.
-/

namespace ArrowScript.Solver

open Store

/-- A monad whose computations run on a world with a store in it. -/
structure Runner (m : Type → Type) [Monad m] [MonadLiftT Solver m] where
  World : Type
  store : World → Store
  withStore : World → Store → World
  run {α : Type} : m α → World → α × World
  store_withStore (world : World) (changed : Store) : store (withStore world changed) = changed
  withStore_store (world : World) : withStore world (store world) = world
  withStore_withStore (world : World) (first second : Store) :
    withStore (withStore world first) second = withStore world second
  run_pure {α : Type} (value : α) (world : World) : run (pure value) world = (value, world)
  run_bind {α β : Type} (first : m α) (next : α → m β) (world : World) :
    run (first >>= next) world = run (next (run first world).1) (run first world).2
  run_lift {α : Type} (solver : Solver α) (world : World) :
    run (liftM solver : m α) world =
      ((solver.run (store world)).1, withStore world (solver.run (store world)).2)

section

variable {m : Type → Type} [Monad m] [MonadLiftT Solver m] {runner : Runner m}

/-- What an action does at a free variable of a world: the term that it puts there, and
the world after it. -/
abbrev Action (World : Type) := World → VariableId → Ty → World → Prop

/-- An expansion of several terms, one after the other. -/
inductive Expands (runner : Runner m) (action : Action runner.World) :
    runner.World → List Ty → List Ty → runner.World → Prop
  | done (world : runner.World) : Expands runner action world [] [] world
  | free {world between last : runner.World} {after : Store} {term image : Ty}
    {rest images : List Ty} {id : VariableId}
    (reached : (compress term).run (runner.store world) = (.var id, after))
    (acted : action (runner.withStore world after) id image between)
    (further : Expands runner action between rest images last) :
    Expands runner action world (term :: rest) (image :: images) last
  | primitive {world last : runner.World} {after : Store} {term : Ty} {rest images : List Ty}
    {kind : Primitive}
    (reached : (compress term).run (runner.store world) = (.primitive kind, after))
    (further : Expands runner action (runner.withStore world after) rest images last) :
    Expands runner action world (term :: rest) (.primitive kind :: images) last
  | array {world last : runner.World} {after : Store} {term element image : Ty}
    {rest images : List Ty}
    (reached : (compress term).run (runner.store world) = (.array element, after))
    (further : Expands runner action (runner.withStore world after) (element :: rest)
      (image :: images) last) :
    Expands runner action world (term :: rest) (.array image :: images) last
  | function {world last : runner.World} {after : Store} {term result resultImage : Ty}
    {rest images params paramImages : List Ty}
    (reached : (compress term).run (runner.store world) = (.function params result, after))
    (arity : paramImages.length = params.length)
    (further : Expands runner action (runner.withStore world after) (params ++ result :: rest)
      (paramImages ++ resultImage :: images) last) :
    Expands runner action world (term :: rest) (.function paramImages resultImage :: images) last

/-- The outcome of expanding some terms, as part of any expansion that goes on with
more. It changes only the length of chains and what the action changes. -/
structure ExpandsFirst (runner : Runner m) (action : Action runner.World) (world : runner.World)
    (terms : List Ty) (outcome : List Ty × runner.World) : Prop where
  length_eq : outcome.1.length = terms.length
  agrees : Agrees (runner.store world) (runner.store outcome.2)
  expands : ∀ rest images last, Expands runner action outcome.2 rest images last →
    Expands runner action world (terms ++ rest) (outcome.1 ++ images) last

namespace ExpandsFirst

variable {action : Action runner.World} {world : runner.World} {terms others : List Ty}
  {outcome next : List Ty × runner.World}

/-- Two expansions one after the other. -/
theorem append (first : ExpandsFirst runner action world terms outcome)
    (second : ExpandsFirst runner action outcome.2 others next) :
    ExpandsFirst runner action world (terms ++ others) (outcome.1 ++ next.1, next.2) where
  length_eq := by simp [first.length_eq, second.length_eq]
  agrees := first.agrees.trans second.agrees
  expands rest images last further := by
    simpa using first.expands _ _ _ (second.expands rest images last further)

/-- An expansion of other terms counts for one that leads to them. -/
theorem wrap {images : List Ty} {inner last : runner.World} {term image : Ty}
    (first : ExpandsFirst runner action inner terms (images, last))
    (agrees : Agrees (runner.store world) (runner.store inner))
    (lead : ∀ rest others final,
      Expands runner action inner (terms ++ rest) (images ++ others) final →
        Expands runner action world (term :: rest) (image :: others) final) :
    ExpandsFirst runner action world [term] ([image], last) where
  length_eq := rfl
  agrees := agrees.trans first.agrees
  expands rest others final further := lead rest others final (first.expands _ _ _ further)

end ExpandsFirst

/-- An expansion that starts with what is at the end of a chain starts with the chain. -/
theorem Expands.follow {action : Action runner.World} {world last : runner.World}
    {term reached image : Ty} {rest images : List Ty} {after : Store}
    (compressed : (compress term).run (runner.store world) = (reached, after))
    (proper : ∀ id, reached ≠ .var id)
    (expands : Expands runner action (runner.withStore world after) (reached :: rest)
      (image :: images) last) :
    Expands runner action world (term :: rest) (image :: images) last := by
  have own : (compress reached).run (runner.store (runner.withStore world after)) =
      (reached, after) := by
    rw [runner.store_withStore]
    exact compress_of_ne_var proper after
  cases expands with
  | free again =>
    cases own.symm.trans again
    exact absurd rfl (proper _)
  | primitive again further =>
    cases own.symm.trans again
    rw [runner.withStore_withStore] at further
    exact .primitive compressed further
  | array again further =>
    cases own.symm.trans again
    rw [runner.withStore_withStore] at further
    exact .array compressed further
  | function again arity further =>
    cases own.symm.trans again
    rw [runner.withStore_withStore] at further
    exact .function compressed arity further

/-- A term that is no variable is expanded where it stands. -/
theorem compress_in_place {term : Ty} (proper : ∀ id, term ≠ .var id) (world : runner.World) :
    ∃ after, (compress term).run (runner.store world) = (term, after) ∧
      runner.withStore world after = world :=
  ⟨runner.store world, compress_of_ne_var proper _, runner.withStore_store world⟩

/-! ## The expansion within the limit -/

variable {rank : VariableId → Nat} {size limit : Nat} {action : Action runner.World}

/-- The outcome for a single term. -/
def single {World : Type} (outcome : Ty × World) : List Ty × World := ([outcome.1], outcome.2)

/-- The expansion of several terms is one of each of them in turn. -/
theorem traverseAll_expands (atVariable : VariableId → m Ty) (terms : List Ty)
    (each : ∀ term ∈ terms, ∀ world, Bounded rank size limit (runner.store world) [term] →
      ExpandsFirst runner action world [term]
        (single (runner.run (term.traverse atVariable) world)))
    (world : runner.World) (bounded : Bounded rank size limit (runner.store world) terms) :
    ExpandsFirst runner action world terms
      (runner.run (Ty.traverseAll atVariable terms) world) := by
  induction terms generalizing world with
  | nil =>
    rw [Ty.traverseAll, runner.run_pure]
    exact ⟨rfl, .refl _, fun _ _ _ further => further⟩
  | cons term rest inductionHypothesis =>
    have first := each term (by simp) world (bounded.of_subset (by simp))
    have others := inductionHypothesis (fun other member => each other (.tail _ member)) _
      ((bounded.agrees first.agrees).of_subset (List.subset_cons_self term rest))
    rw [Ty.traverseAll, runner.run_bind, runner.run_bind, runner.run_pure]
    exact first.append others

/-- The expansion of a term is one if it is one at each of its variables. -/
theorem traverse_expands (atVariable : VariableId → m Ty) (term : Ty)
    (each : ∀ world id, Bounded rank size limit (runner.store world) [.var id] →
      ExpandsFirst runner action world [.var id] (single (runner.run (atVariable id) world)))
    (world : runner.World) (bounded : Bounded rank size limit (runner.store world) [term]) :
    ExpandsFirst runner action world [term]
      (single (runner.run (term.traverse atVariable) world)) := by
  induction term generalizing world with
  | var id => exact each world id bounded
  | primitive kind =>
    have proper (id : VariableId) : Ty.primitive kind ≠ .var id := by simp
    obtain ⟨after, here, same⟩ := compress_in_place proper world
    rw [Ty.traverse, runner.run_pure]
    refine ⟨rfl, .refl _, fun rest images last further => .primitive here ?_⟩
    rwa [same]
  | array element inductionHypothesis =>
    have proper (id : VariableId) : Ty.array element ≠ .var id := by simp
    obtain ⟨after, here, same⟩ := compress_in_place proper world
    rw [Ty.traverse, runner.run_bind, runner.run_pure]
    have first := inductionHypothesis world bounded.element
    exact first.wrap (.refl _) fun rest others final further => .array here (by rwa [same])
  | function params result paramsHypothesis resultHypothesis =>
    have proper (id : VariableId) : Ty.function params result ≠ .var id := by simp
    obtain ⟨after, here, same⟩ := compress_in_place proper world
    have parts := bounded.parts
    have first := traverseAll_expands atVariable params paramsHypothesis world
      (parts.of_subset (List.subset_append_left params [result]))
    have second := resultHypothesis _
      ((parts.agrees first.agrees).of_subset (List.subset_append_right params [result]))
    rw [Ty.traverse, runner.run_bind, runner.run_bind, runner.run_pure]
    refine (first.append second).wrap (.refl _) fun rest others final further => ?_
    refine .function here first.length_eq ?_
    rw [same]
    simpa [single] using further
  | shapeless => exact absurd (bounded.covered .shapeless (by simp)) (by simp)

/-- An action that is carried out by a computation, and changes nothing about what terms
stand for. -/
def Performs (runner : Runner m) (size : Nat) (atFree : VariableId → m Ty)
    (action : Action runner.World) : Prop :=
  ∀ world id, (runner.store world).Sound → size ≤ (runner.store world).cells.size →
    action world id (runner.run (atFree id) world).1 (runner.run (atFree id) world).2 ∧
      Agrees (runner.store world) (runner.store (runner.run (atFree id) world).2)

/-- Within a limit that bounds it, the expansion of a variable is a complete one. -/
theorem expandVariable_expands {atFree : VariableId → m Ty}
    (performs : Performs runner size atFree action) (world : runner.World) (id : VariableId)
    (bounded : Bounded rank size limit (runner.store world) [.var id]) :
    ExpandsFirst runner action world [.var id]
      (single (runner.run (expandVariable atFree limit id) world)) := by
  induction limit generalizing world id with
  | zero => exact absurd rfl bounded.limit_ne_zero
  | succ limit inductionHypothesis =>
    rcases compressed : (compress (.var id)).run (runner.store world) with ⟨reached, after⟩
    have agrees := compress_agrees bounded.sound.acyclic (.var id)
    rw [compressed] at agrees
    have agreesWorld :
        Agrees (runner.store world) (runner.store (runner.withStore world after)) := by
      rwa [runner.store_withStore]
    rw [expandVariable, runner.run_bind, runner.run_lift, compressed]
    have onward (proper : ∀ other, reached ≠ .var other) :
        ExpandsFirst runner action world [.var id]
          (single (runner.run (reached.traverse (expandVariable atFree limit))
            (runner.withStore world after))) := by
      have further := bounded.follow compressed proper
      rw [← runner.store_withStore world after] at further
      refine (traverse_expands _ reached inductionHypothesis _ further).wrap agreesWorld ?_
      exact fun rest others final expands => expands.follow compressed proper
    cases reached with
    | var free =>
      obtain ⟨acted, kept⟩ := performs (runner.withStore world after) free
        (agreesWorld.sound bounded.sound) (Nat.le_trans bounded.size_le agreesWorld.size_le)
      exact ⟨rfl, agreesWorld.trans kept, fun rest others final => .free compressed acted⟩
    | primitive kind => exact onward (by simp)
    | array element => exact onward (by simp)
    | function params result => exact onward (by simp)
    | shapeless => exact onward (by simp)

/-- What can be carried out from some number of variables on can be from any larger one. -/
theorem Performs.mono {size larger : Nat} {atFree : VariableId → m Ty}
    (performs : Performs runner size atFree action) (size_le : size ≤ larger) :
    Performs runner larger atFree action :=
  fun world id sound bound => performs world id sound (Nat.le_trans size_le bound)

/-- A term over the variables of a sound store is expanded completely, also when more terms
come behind it. -/
theorem expand_first {atFree : VariableId → m Ty} {world : runner.World} {term : Ty}
    (sound : (runner.store world).Sound) (covered : term.Over (runner.store world).cells.size)
    (performs : Performs runner (runner.store world).cells.size atFree action) :
    ExpandsFirst runner action world [term] (single (runner.run (expand atFree term) world)) := by
  have first := traverse_expands _ term (expandVariable_expands performs) world
    (.start sound (by simpa using covered))
  have entered : runner.run (expand atFree term) world =
      runner.run (term.traverse (expandVariable atFree (runner.store world).cells.size)) world := by
    rw [expand, runner.run_bind, runner.run_lift]
    change runner.run _ (runner.withStore world (runner.store world)) = _
    rw [runner.withStore_store]
    rfl
  rwa [entered]

/-- A term over the variables of a sound store is expanded completely. -/
theorem expand_expands {atFree : VariableId → m Ty} {world : runner.World} {term : Ty}
    (sound : (runner.store world).Sound) (covered : term.Over (runner.store world).cells.size)
    (performs : Performs runner (runner.store world).cells.size atFree action) :
    Expands runner action world [term] [(runner.run (expand atFree term) world).1]
        (runner.run (expand atFree term) world).2 ∧
      Agrees (runner.store world) (runner.store (runner.run (expand atFree term) world).2) := by
  have first := expand_first sound covered performs
  exact ⟨by simpa [single] using first.expands [] [] _ (.done _), first.agrees⟩

/-- Several terms over the variables of a sound store are expanded completely, one after
the other. -/
theorem expandAll_first [LawfulMonad m] {atFree : VariableId → m Ty} (terms : List Ty)
    {world : runner.World} (sound : (runner.store world).Sound)
    (covered : ∀ term ∈ terms, term.Over (runner.store world).cells.size)
    (performs : Performs runner (runner.store world).cells.size atFree action) :
    ExpandsFirst runner action world terms (runner.run (terms.mapM (expand atFree)) world) := by
  induction terms generalizing world with
  | nil =>
    rw [List.mapM_nil, runner.run_pure]
    exact ⟨rfl, .refl _, fun rest images last further => further⟩
  | cons term rest inductionHypothesis =>
    have first := expand_first sound (covered term (by simp)) performs
    have size_le := first.agrees.size_le
    have others := inductionHypothesis (first.agrees.sound sound)
      (fun other member => (covered other (by simp [member])).mono size_le)
      (performs.mono size_le)
    rw [List.mapM_cons, runner.run_bind, runner.run_bind, runner.run_pure]
    exact first.append others

/-! ## The images of an expansion -/

/-- What an action guarantees in worlds for which something holds: each free variable is
settled on a value when it is met, and keeps that value from then on. -/
structure Settles (runner : Runner m) (action : Action runner.World)
    (holds : runner.World → Prop) (settled : runner.World → VariableId → Prop)
    (value : runner.World → VariableId → Ty) : Prop where
  sound {world : runner.World} : holds world → (runner.store world).Sound
  shortened {world : runner.World} {after : Store} : holds world →
    Agrees (runner.store world) after → holds (runner.withStore world after) ∧
      settled (runner.withStore world after) = settled world ∧
      value (runner.withStore world after) = value world
  acted {world next : runner.World} {id : VariableId} {image : Ty} : holds world →
    (runner.store world).Free id → action world id image next →
    holds next ∧ Agrees (runner.store world) (runner.store next) ∧
      settled next id ∧ value next id = image
  kept {world next : runner.World} {id other : VariableId} {image : Ty} : holds world →
    action world id image next → settled world other →
    settled next other ∧ value next other = value world other

/-- What holds of a world after a chain has been followed in it. -/
theorem Settles.follow {holds : runner.World → Prop}
    {settled : runner.World → VariableId → Prop} {value : runner.World → VariableId → Ty}
    (settles : Settles runner action holds settled value) {world : runner.World} {after : Store}
    {term reached : Ty} (start : holds world)
    (compressed : (compress term).run (runner.store world) = (reached, after)) :
    holds (runner.withStore world after) ∧
      settled (runner.withStore world after) = settled world ∧
      value (runner.withStore world after) = value world ∧
      Agrees (runner.store world) (runner.store (runner.withStore world after)) ∧
      (runner.store world).resolve reached = (runner.store world).resolve term ∧
      ∀ id, reached = .var id → (runner.store world).Free id := by
  obtain ⟨agrees, -, same, free⟩ := resolve_compressed (settles.sound start) compressed
  obtain ⟨holdsAfter, settledAfter, valueAfter⟩ := settles.shortened start agrees
  refine ⟨holdsAfter, settledAfter, valueAfter, ?_, same, free⟩
  rwa [runner.store_withStore]

/-- An expansion adds no variables but those that its action adds. -/
theorem Expands.size_eq {world last : runner.World} {terms images : List Ty}
    (expands : Expands runner action world terms images last)
    (acts : ∀ world id image next, action world id image next →
      (runner.store next).cells.size = (runner.store world).cells.size) :
    (runner.store last).cells.size = (runner.store world).cells.size := by
  have shortened {world : runner.World} {after : Store} {term reached : Ty}
      (compressed : (compress term).run (runner.store world) = (reached, after)) :
      (runner.store (runner.withStore world after)).cells.size =
        (runner.store world).cells.size := by
    have size := compress_size (runner.store world) term
    rwa [compressed, ← runner.store_withStore world after] at size
  induction expands with
  | done => rfl
  | free reached acted _ inductionHypothesis =>
    exact inductionHypothesis.trans ((acts _ _ _ _ acted).trans (shortened reached))
  | primitive reached _ inductionHypothesis =>
    exact inductionHypothesis.trans (shortened reached)
  | array reached _ inductionHypothesis =>
    exact inductionHypothesis.trans (shortened reached)
  | function reached _ _ inductionHypothesis =>
    exact inductionHypothesis.trans (shortened reached)

/-- An expansion puts the value of each free variable in its place. -/
theorem Expands.images_eq {holds : runner.World → Prop}
    {settled : runner.World → VariableId → Prop} {value : runner.World → VariableId → Ty}
    (settles : Settles runner action holds settled value) {world last : runner.World}
    {terms images : List Ty} (expands : Expands runner action world terms images last)
    (start : holds world) :
    holds last ∧ Agrees (runner.store world) (runner.store last) ∧
      (∀ id, settled world id → settled last id ∧ value last id = value world id) ∧
      (∀ term ∈ terms, ∀ id ∈ ((runner.store world).resolve term).vars, settled last id) ∧
      images = terms.map fun term =>
        ((runner.store world).resolve term).substitute (value last) := by
  induction expands with
  | done world => exact ⟨start, .refl _, fun _ holds => ⟨holds, rfl⟩, by simp, rfl⟩
  | @free world between last after term image rest images id reached acted _ inductionHypothesis =>
    obtain ⟨holdsAfter, settledAfter, valueAfter, agrees, same, free⟩ :=
      settles.follow start reached
    have here : (runner.store world).resolve term = .var id := same ▸ resolve_free (free id rfl)
    obtain ⟨holdsNext, agreesNext, settledHere, valueHere⟩ :=
      settles.acted holdsAfter ((agrees.free_iff id).mpr (free id rfl)) acted
    obtain ⟨final, onward, kept, all, images⟩ := inductionHypothesis holdsNext
    obtain ⟨stays, valueStays⟩ := kept id settledHere
    simp only [agreesNext.resolve_eq, agrees.resolve_eq] at all images
    refine ⟨final, agrees.trans (agreesNext.trans onward), fun other known => ?_, ?_, ?_⟩
    · rw [← settledAfter] at known
      obtain ⟨settledNext, valueNext⟩ := settles.kept holdsAfter acted known
      obtain ⟨settledLast, valueLast⟩ := kept other settledNext
      exact ⟨settledLast, valueLast.trans (valueNext.trans (by rw [valueAfter]))⟩
    · simpa [here, stays] using all
    · simp only [List.map_cons, here, Ty.substitute, valueStays, valueHere, images]
  | primitive reached _ inductionHypothesis =>
    obtain ⟨holdsAfter, settledAfter, valueAfter, agrees, same, -⟩ := settles.follow start reached
    obtain ⟨final, onward, kept, all, images⟩ := inductionHypothesis holdsAfter
    rw [settledAfter, valueAfter] at kept
    simp only [agrees.resolve_eq] at all images
    refine ⟨final, agrees.trans onward, kept, ?_, ?_⟩
    · simpa [← same] using all
    · simpa [← same] using images
  | array reached _ inductionHypothesis =>
    obtain ⟨holdsAfter, settledAfter, valueAfter, agrees, same, -⟩ := settles.follow start reached
    obtain ⟨final, onward, kept, all, images⟩ := inductionHypothesis holdsAfter
    rw [settledAfter, valueAfter] at kept
    simp only [agrees.resolve_eq] at all images
    refine ⟨final, agrees.trans onward, kept, ?_, ?_⟩
    · simpa [← same] using all
    · simpa [← same] using images
  | function reached arity _ inductionHypothesis =>
    obtain ⟨holdsAfter, settledAfter, valueAfter, agrees, same, -⟩ := settles.follow start reached
    obtain ⟨final, onward, kept, all, images⟩ := inductionHypothesis holdsAfter
    rw [settledAfter, valueAfter] at kept
    simp only [agrees.resolve_eq] at all images
    refine ⟨final, agrees.trans onward, kept, ?_, ?_⟩
    · simp only [List.mem_append, List.mem_cons] at all
      simp only [List.mem_cons, forall_eq_or_imp, ← same, resolve_function, Ty.vars,
        List.mem_append, Ty.mem_varsOf, List.mem_map]
      refine ⟨?_, fun other member => all other (.inr (.inr member))⟩
      rintro id (⟨_, ⟨param, member, rfl⟩, occurs⟩ | occurs)
      · exact all param (.inl member) id occurs
      · exact all _ (.inr (.inl rfl)) id occurs
    · simp only [List.map_append, List.map_cons] at images
      obtain ⟨params, others⟩ := List.append_inj images (by simp [arity])
      simpa [← same, params] using others

end

/-! ## Printing -/

/-- Solvers run on the store itself. -/
abbrev storeRunner : Runner Solver where
  World := Store
  store := id
  withStore _ changed := changed
  run solver store := solver.run store
  store_withStore _ _ := rfl
  withStore_store _ := rfl
  withStore_withStore _ _ _ := rfl
  run_pure _ _ := rfl
  run_bind _ _ _ := rfl
  run_lift _ _ := rfl

/-- The action of an expansion that keeps the free variables. -/
def keeps : Action Store := fun world id image last => image = .var id ∧ last = world

/-- Keeping the free variables settles each of them on itself. -/
theorem keeps_settles :
    Settles storeRunner keeps Sound (fun _ _ => True) fun _ => .var where
  sound holds := holds
  shortened holds agrees := ⟨agrees.sound holds, rfl, rfl⟩
  acted := by
    rintro _ world id image holds free ⟨rfl, rfl⟩
    exact ⟨holds, .refl _, trivial, rfl⟩
  kept _ _ _ := ⟨trivial, rfl⟩

/-- Printing a term over the variables of a sound store goes through all that it stands
for, and gives the printed form of that. -/
theorem print_spec {store : Store} (sound : store.Sound) {term : Ty}
    (covered : term.Over store.cells.size) :
    ∃ after : Store, Expands storeRunner keeps store [term] [store.resolve term] after ∧
      (print term).run store = ((store.resolve term).render after.nameOf, after) ∧
      Agrees store after ∧ after.cells.size = store.cells.size := by
  have performs : Performs storeRunner store.cells.size
      (fun free => (return .var free : Solver Ty)) keeps :=
    fun world id _ _ => ⟨⟨rfl, rfl⟩, .refl world⟩
  let outcome := (expand (fun free => (return .var free : Solver Ty)) term).run store
  obtain ⟨expands, agrees⟩ : Expands storeRunner keeps store [term] [outcome.1] outcome.2 ∧
      Agrees store outcome.2 := expand_expands sound covered performs
  have images : outcome.1 = store.resolve term := by
    simpa using (expands.images_eq keeps_settles sound).2.2.2.2
  have size : outcome.2.cells.size = store.cells.size :=
    expands.size_eq fun world id image next ⟨_, same⟩ => by rw [same]
  refine ⟨outcome.2, images ▸ expands, ?_, agrees, size⟩
  rw [print, run_bind, ← images]
  rfl

end ArrowScript.Solver
