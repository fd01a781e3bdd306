import ArrowScript.Proofs.Ty.Compression

/-!
# Searching a variable in what a term stands for

The search goes through a term from left to right, follows links where it meets
variables, and ends at the first occurrence. `Searches` describes it on a list of
terms that are still to be searched, without a limit on its depth. The search within
the limit is such a search, and it answers whether the variable occurs in the
resolution of the term.
-/

namespace ArrowScript

namespace Solver

open Store

variable {store after : Store}

/-- A search through several terms, one after the other. -/
inductive Searches (sought : VariableId) : Store → List Ty → Bool → Store → Prop
  | done (store : Store) : Searches sought store [] false store
  | found {store after : Store} {term : Ty} (rest : List Ty)
    (reached : (compress term).run store = (.var sought, after)) :
    Searches sought store (term :: rest) true after
  | other {store after last : Store} {term : Ty} {rest : List Ty} {id : VariableId} {found : Bool}
    (reached : (compress term).run store = (.var id, after)) (different : id ≠ sought)
    (further : Searches sought after rest found last) :
    Searches sought store (term :: rest) found last
  | primitive {store after last : Store} {term : Ty} {rest : List Ty} {kind : Primitive}
    {found : Bool} (reached : (compress term).run store = (.primitive kind, after))
    (further : Searches sought after rest found last) :
    Searches sought store (term :: rest) found last
  | array {store after last : Store} {term : Ty} {rest : List Ty} {element : Ty} {found : Bool}
    (reached : (compress term).run store = (.array element, after))
    (further : Searches sought after (element :: rest) found last) :
    Searches sought store (term :: rest) found last
  | function {store after last : Store} {term : Ty} {rest params : List Ty} {result : Ty}
    {found : Bool} (reached : (compress term).run store = (.function params result, after))
    (further : Searches sought after (params ++ result :: rest) found last) :
    Searches sought store (term :: rest) found last

/-- A search changes only the length of chains, and finds a variable exactly when it
occurs in the resolution of one of the terms. -/
theorem Searches.spec {sought : VariableId} {terms : List Ty} {found : Bool}
    (searches : Searches sought store terms found after) (sound : store.Sound) :
    Agrees store after ∧ after.cells.size = store.cells.size ∧
      (found = true ↔ ∃ term ∈ terms, sought ∈ (store.resolve term).vars) := by
  induction searches with
  | done store => exact ⟨.refl store, rfl, by simp⟩
  | found rest reached =>
    obtain ⟨agrees, size, same, free⟩ := resolve_compressed sound reached
    exact ⟨agrees, size, by simp [← same, resolve_free (free _ rfl)]⟩
  | other reached different _ inductionHypothesis =>
    obtain ⟨agrees, size, same, free⟩ := resolve_compressed sound reached
    obtain ⟨further, furtherSize, exact⟩ := inductionHypothesis (agrees.sound sound)
    refine ⟨agrees.trans further, furtherSize.trans size, ?_⟩
    simp [exact, agrees.resolve_eq, ← same, resolve_free (free _ rfl), Ne.symm different]
  | primitive reached _ inductionHypothesis =>
    obtain ⟨agrees, size, same, -⟩ := resolve_compressed sound reached
    obtain ⟨further, furtherSize, exact⟩ := inductionHypothesis (agrees.sound sound)
    refine ⟨agrees.trans further, furtherSize.trans size, ?_⟩
    simp [exact, agrees.resolve_eq, ← same]
  | array reached _ inductionHypothesis =>
    obtain ⟨agrees, size, same, -⟩ := resolve_compressed sound reached
    obtain ⟨further, furtherSize, exact⟩ := inductionHypothesis (agrees.sound sound)
    refine ⟨agrees.trans further, furtherSize.trans size, ?_⟩
    simp [exact, agrees.resolve_eq, ← same]
  | function reached _ inductionHypothesis =>
    obtain ⟨agrees, size, same, -⟩ := resolve_compressed sound reached
    obtain ⟨further, furtherSize, exact⟩ := inductionHypothesis (agrees.sound sound)
    refine ⟨agrees.trans further, furtherSize.trans size, ?_⟩
    simp [exact, agrees.resolve_eq, ← same, or_and_right, exists_or, or_assoc]

/-- The outcome of searching some terms, as part of any search that goes on with more. -/
def SearchesFirst (sought : VariableId) (store : Store) (terms : List Ty)
    (outcome : Bool × Store) : Prop :=
  if outcome.1 then ∀ rest, Searches sought store (terms ++ rest) true outcome.2
  else ∀ rest found last, Searches sought outcome.2 rest found last →
    Searches sought store (terms ++ rest) found last

/-- A search that need not go on is complete. -/
theorem SearchesFirst.searches {sought : VariableId} {terms : List Ty} {outcome : Bool × Store}
    (first : SearchesFirst sought store terms outcome) :
    Searches sought store terms outcome.1 outcome.2 := by
  obtain ⟨found, after⟩ := outcome
  cases found with
  | true => simpa using first []
  | false => simpa using first [] false after (.done after)

/-- Two searches one after the other, of which the second is left out when the first has
found the variable. -/
theorem SearchesFirst.append {sought : VariableId} {terms others : List Ty}
    {outcome : Bool × Store} (first : SearchesFirst sought store terms outcome)
    {next : Bool × Store}
    (second : outcome.1 = false → SearchesFirst sought outcome.2 others next) :
    SearchesFirst sought store (terms ++ others)
      (if outcome.1 then (true, outcome.2) else next) := by
  obtain ⟨found, after⟩ := outcome
  cases found with
  | true =>
    intro rest
    simpa using first (others ++ rest)
  | false =>
    have second := second rfl
    obtain ⟨foundNext, last⟩ := next
    cases foundNext with
    | true =>
      intro rest
      simpa using first _ _ _ (second rest)
    | false =>
      intro rest found final further
      simpa using first _ _ _ (second rest found final further)

/-- A search that starts with what is at the end of a chain starts with the chain. -/
theorem Searches.follow {sought : VariableId} {term reached : Ty} {rest : List Ty} {found : Bool}
    {last : Store} (compressed : (compress term).run store = (reached, after))
    (proper : ∀ id, reached ≠ .var id)
    (searches : Searches sought after (reached :: rest) found last) :
    Searches sought store (term :: rest) found last := by
  have own : (compress reached).run after = (reached, after) := compress_of_ne_var proper after
  cases searches with
  | found _ again =>
    cases own.symm.trans again
    exact absurd rfl (proper _)
  | other again =>
    cases own.symm.trans again
    exact absurd rfl (proper _)
  | primitive again further =>
    cases own.symm.trans again
    exact .primitive compressed further
  | array again further =>
    cases own.symm.trans again
    exact .array compressed further
  | function again further =>
    cases own.symm.trans again
    exact .function compressed further

/-- A first search through other terms counts for the ones that lead to them. -/
theorem SearchesFirst.wrap {sought : VariableId} {terms others : List Ty}
    {outcome : Bool × Store} (first : SearchesFirst sought after others outcome)
    (lead : ∀ rest found last, Searches sought after (others ++ rest) found last →
      Searches sought store (terms ++ rest) found last) :
    SearchesFirst sought store terms outcome := by
  obtain ⟨found, final⟩ := outcome
  cases found with
  | true => exact fun rest => lead rest true final (first rest)
  | false =>
    exact fun rest found last further => lead rest found last (first rest found last further)

/-- A first search that starts with what is at the end of a chain starts with the chain. -/
theorem SearchesFirst.follow {sought : VariableId} {term reached : Ty} {outcome : Bool × Store}
    (compressed : (compress term).run store = (reached, after))
    (proper : ∀ id, reached ≠ .var id) (first : SearchesFirst sought after [reached] outcome) :
    SearchesFirst sought store [term] outcome :=
  first.wrap fun _ _ _ searches => searches.follow compressed proper

/-! ## The search within the limit -/

section Limit

variable {rank : VariableId → Nat} {size limit : Nat} {sought : VariableId}

/-- The search through several terms is one through each of them in turn. -/
theorem anyVariableOf_searches (test : VariableId → Solver Bool) (terms : List Ty)
    (each : ∀ term ∈ terms, ∀ store, Bounded rank size limit store [term] →
      SearchesFirst sought store [term] ((term.anyVariable test).run store))
    (store : Store) (bounded : Bounded rank size limit store terms) :
    SearchesFirst sought store terms ((Ty.anyVariableOf test terms).run store) := by
  induction terms generalizing store with
  | nil => exact fun rest found last further => further
  | cons term rest inductionHypothesis =>
    have first := each term (by simp) store (bounded.of_subset (by simp))
    have agrees := (first.searches.spec bounded.sound).1
    have others := (bounded.agrees agrees).of_subset (List.subset_cons_self term rest)
    rw [Ty.anyVariableOf, run_unless]
    exact first.append fun _ =>
      inductionHypothesis (fun other member => each other (.tail _ member)) _ others

/-- The search through a term is one if it is one at each of its variables. -/
theorem anyVariable_searches (test : VariableId → Solver Bool) (term : Ty)
    (atVariable : ∀ store id, Bounded rank size limit store [.var id] →
      SearchesFirst sought store [.var id] ((test id).run store))
    (store : Store) (bounded : Bounded rank size limit store [term]) :
    SearchesFirst sought store [term] ((term.anyVariable test).run store) := by
  induction term generalizing store with
  | var id => exact atVariable store id bounded
  | primitive kind =>
    exact fun rest found last further => .primitive (compress_of_ne_var (by simp) store) further
  | array element inductionHypothesis =>
    have inner := inductionHypothesis store bounded.element
    have same : (compress (.array element)).run store = (.array element, store) :=
      compress_of_ne_var (by simp) store
    exact inner.wrap fun rest found last => .array same
  | function params result paramsHypothesis resultHypothesis =>
    have parts := bounded.parts
    have first := anyVariableOf_searches test params paramsHypothesis store
      (parts.of_subset (List.subset_append_left params [result]))
    have agrees := (first.searches.spec bounded.sound).1
    have inner := first.append fun _ => resultHypothesis _
      ((parts.agrees agrees).of_subset (List.subset_append_right params [result]))
    have same : (compress (.function params result)).run store = (.function params result, store) :=
      compress_of_ne_var (by simp) store
    rw [Ty.anyVariable, run_unless]
    exact inner.wrap fun rest found last further => .function same (by simpa using further)
  | shapeless => exact absurd (bounded.covered .shapeless (by simp)) (by simp)

/-- Within a limit that bounds it, the search from a variable is a complete one. -/
theorem occursInVariable_searches (store : Store) (id : VariableId)
    (bounded : Bounded rank size limit store [.var id]) :
    SearchesFirst sought store [.var id] ((occursInVariable sought limit id).run store) := by
  induction limit generalizing store id with
  | zero => exact absurd rfl bounded.limit_ne_zero
  | succ limit inductionHypothesis =>
    rcases compressed : (compress (.var id)).run store with ⟨reached, after⟩
    rw [occursInVariable, run_bind, compressed]
    have onward (proper : ∀ other, reached ≠ .var other) :
        SearchesFirst sought store [.var id]
          ((reached.anyVariable (occursInVariable sought limit)).run after) :=
      (anyVariable_searches _ reached inductionHypothesis after
        (bounded.follow compressed proper)).follow compressed proper
    cases reached with
    | var free =>
      change SearchesFirst sought store [.var id] (free == sought, after)
      by_cases same : free = sought
      · subst same
        have hit : SearchesFirst free store [.var id] (true, after) :=
          fun rest => .found rest compressed
        simpa using hit
      · have miss : SearchesFirst sought store [.var id] (false, after) :=
          fun rest found last further => .other compressed same further
        rwa [beq_false_of_ne same]
    | primitive kind => exact onward (by simp)
    | array element => exact onward (by simp)
    | function params result => exact onward (by simp)
    | shapeless => exact onward (by simp)

end Limit

/-- The search for a variable in a term over the variables of a sound store is carried
out completely. -/
theorem occursIn_searches (sound : store.Sound) {term : Ty} (covered : term.Over store.cells.size)
    (sought : VariableId) :
    Searches sought store [term] ((occursIn sought term).run store).1
      ((occursIn sought term).run store).2 :=
  (anyVariable_searches _ term occursInVariable_searches store
    (.start sound (by simpa using covered))).searches

/-- The search answers whether the variable occurs in what the term stands for. -/
theorem occursIn_spec (sound : store.Sound) {term : Ty} (covered : term.Over store.cells.size)
    (sought : VariableId) :
    Agrees store ((occursIn sought term).run store).2 ∧
      ((occursIn sought term).run store).2.cells.size = store.cells.size ∧
      (((occursIn sought term).run store).1 = true ↔
        sought ∈ (store.resolve term).vars) := by
  simpa using (occursIn_searches sound covered sought).spec sound

end Solver

end ArrowScript
