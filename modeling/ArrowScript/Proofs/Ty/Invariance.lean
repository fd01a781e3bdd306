import ArrowScript.Proofs.Ty.Compression

/-!
# What compressing and searching leave as it is

Compressing a term links all variables that are passed on its chain to the end, and touches no
other link. Once that is done there is nothing left to shorten. The search for a variable
compresses one chain after the other, so neither of them changes what any term stands for.

This needs nothing but a store without cycles: the terms may mention variables that the store
does not have, which are free, and parts without a shape.
-/

namespace ArrowScript

namespace Store

variable {store : Store}

/-- A beginning has one chain. -/
theorem Chain.unique {term first second : Ty} {passed others : List VariableId}
    (one : store.Chain term passed first) (other : store.Chain term others second) :
    passed = others ∧ first = second := by
  induction one generalizing others with
  | stop term unlinked =>
    cases other with
    | stop => exact ⟨rfl, rfl⟩
    | follow linked => exact absurd ((unlinked _ rfl).symm.trans linked) (by simp)
  | follow linked _ inductionHypothesis =>
    cases other with
    | stop _ unlinked => exact absurd ((unlinked _ rfl).symm.trans linked) (by simp)
    | follow again further =>
      obtain rfl := Option.some.inj (linked.symm.trans again)
      obtain ⟨rfl, same⟩ := inductionHypothesis further
      exact ⟨rfl, same⟩

/-- Linking a variable to what it is linked to changes nothing. -/
theorem setLink_self {id : VariableId} {term : Ty} (linked : store.link? id = some term) :
    store.setLink id term = store := by
  obtain ⟨cells, numbered⟩ := store
  have same : cells.modify id (fun cell => { cell with link := some term }) = cells := by
    apply Array.ext
    · exact Array.size_modify
    · intro place inside within
      rw [Array.getElem_modify]
      split
      next here =>
        subst here
        have link : cells[id].link = some term := by simpa [link?, within] using linked
        exact congrArg (Cell.mk cells[id].name) link.symm
      next => rfl
  rw [setLink, same]

end Store

namespace Solver

open Store

variable {store after : Store}

/-! ## Compressing -/

/-- What compressing does to the links of a store: the variables that are passed are linked to
the end, and all others stay as they are. -/
theorem link?_compress (acyclic : store.Acyclic) {term last : Ty} {passed : List VariableId}
    (chain : store.Chain term passed last) (id : VariableId) :
    ((compress term).run store).2.link? id = if id ∈ passed then some last else store.link? id := by
  obtain ⟨rfl, rfl⟩ := chain.unique (acyclic.chain term)
  refine (link?_redirect store _ _ id).trans ?_
  by_cases member : id ∈ store.chainOf term
  · obtain ⟨link, linked⟩ := Option.ne_none_iff_exists'.mp (chain.passes id member).1
    rw [if_pos ⟨member, lt_of_link? linked⟩, if_pos member]
  · rw [if_neg (fun both => member both.1), if_neg member]

/-- Compressing returns the end of the chain. -/
theorem compress_eq (acyclic : store.Acyclic) {term last : Ty} {passed : List VariableId}
    (chain : store.Chain term passed last) :
    (compress term).run store = (last, store.redirect passed last) := by
  obtain ⟨rfl, rfl⟩ := chain.unique (acyclic.chain term)
  rfl

/-- The end of a chain is still not linked further when the chain is compressed. -/
theorem compress_stop (acyclic : store.Acyclic) {term last : Ty} {passed : List VariableId}
    (chain : store.Chain term passed last) :
    ((compress term).run store).2.Chain last [] last := by
  refine .stop last fun id same => ?_
  rw [(compress_agrees acyclic term).free_iff]
  exact (same ▸ chain.ends).free

/-- Once a term is compressed, compressing it or its end again changes nothing. -/
theorem compress_compress (acyclic : store.Acyclic) {term last : Ty} {passed : List VariableId}
    (chain : store.Chain term passed last) :
    let after := ((compress term).run store).2
    (compress term).run after = (last, after) ∧ (compress last).run after = (last, after) := by
  intro after
  have still : after.Acyclic := (compress_agrees acyclic term).acyclic acyclic
  have atEnd : after.Chain last [] last := compress_stop acyclic chain
  refine ⟨?_, compress_eq still atEnd⟩
  have links := link?_compress acyclic chain
  cases chain with
  | stop => exact compress_eq still atEnd
  | @follow id next _ rest linked further =>
    -- what is left of the chain is one link
    have link : after.link? id = some last := by
      rw [links, if_pos List.mem_cons_self]
    have direct : after.Chain (.var id) [id] last := .follow link atEnd
    rw [compress_eq still direct]
    exact congrArg (Prod.mk last) (setLink_self link)

/-! ## Searching -/

/-- What a search relies on: a measure of the links, and terms whose variables are within the
limit. -/
structure Limited (rank : VariableId → Nat) (limit : Nat) (store : Store) (terms : List Ty) :
    Prop where
  ranks : store.Ranks rank
  positive : ∀ id < store.cells.size, 0 < rank id
  below : ∀ term ∈ terms, ∀ id ∈ term.vars, rank id ≤ limit

/-- A search through several terms ends with the right answer, and changes only the length of
chains. -/
structure Tells (sought : VariableId) (store : Store) (terms : List Ty)
    (outcome : Bool × Store) : Prop where
  agrees : Agrees store outcome.2
  size_eq : outcome.2.cells.size = store.cells.size
  answer : outcome.1 = true ↔ ∃ term ∈ terms, sought ∈ (store.resolve term).vars

section Search

variable {rank : VariableId → Nat} {limit : Nat} {sought : VariableId} {terms others : List Ty}

/-- What limits a search limits it on other terms with the same variables. -/
theorem Limited.of_vars (limited : Limited rank limit store terms)
    (contained : ∀ other ∈ others, ∀ id ∈ other.vars, ∃ term ∈ terms, id ∈ term.vars) :
    Limited rank limit store others :=
  { limited with
    below := fun other member id occurs => by
      obtain ⟨term, here, found⟩ := contained other member id occurs
      exact limited.below term here id found }

/-- What limits a search limits it on some of the terms. -/
theorem Limited.of_subset (limited : Limited rank limit store terms) (subset : others ⊆ terms) :
    Limited rank limit store others :=
  limited.of_vars fun other member _ occurs => ⟨other, subset member, occurs⟩

/-- What limits a search limits it where chains are shorter. -/
theorem Limited.agrees (limited : Limited rank limit store terms) (agrees : Agrees store after)
    (size_eq : after.cells.size = store.cells.size) : Limited rank limit after terms where
  ranks := agrees.ranks limited.ranks
  positive id inside := limited.positive id (size_eq ▸ inside)
  below := limited.below

/-- A search that finds nothing. -/
theorem Tells.nothing (absent : ∀ term ∈ terms, sought ∉ (store.resolve term).vars) :
    Tells sought store terms (false, store) where
  agrees := .refl store
  size_eq := rfl
  answer := by simpa using absent

/-- Two searches, of which the second is left out when the first has found the variable. -/
theorem Tells.append {outcome next : Bool × Store} (first : Tells sought store terms outcome)
    (second : Tells sought outcome.2 others next) :
    Tells sought store (terms ++ others) (if outcome.1 then (true, outcome.2) else next) := by
  obtain ⟨found, between⟩ := outcome
  obtain ⟨agrees, size, answer⟩ := first
  obtain ⟨further, sizeFurther, other⟩ := second
  cases found with
  | true =>
    obtain ⟨term, member, occurs⟩ := answer.mp rfl
    exact ⟨agrees, size, iff_of_true rfl ⟨term, List.mem_append_left _ member, occurs⟩⟩
  | false =>
    refine ⟨agrees.trans further, sizeFurther.trans size, other.trans ?_⟩
    have absent : ¬ ∃ term ∈ terms, sought ∈ (store.resolve term).vars :=
      fun occurs => Bool.false_ne_true (answer.mpr occurs)
    simp only [agrees.resolve_eq, List.mem_append, or_and_right, exists_or, absent, false_or]

/-- The search through several terms goes through each of them in turn. -/
theorem anyVariableOf_tells {test : VariableId → Solver Bool} {terms : List Ty}
    (each : ∀ term ∈ terms, ∀ store, Limited rank limit store [term] →
      Tells sought store [term] ((term.anyVariable test).run store))
    (limited : Limited rank limit store terms) :
    Tells sought store terms ((Ty.anyVariableOf test terms).run store) := by
  induction terms generalizing store with
  | nil => exact .nothing nofun
  | cons term rest inductionHypothesis =>
    have first := each term List.mem_cons_self store (limited.of_subset (by simp))
    have later : Limited rank limit _ rest :=
      (limited.agrees first.agrees first.size_eq).of_subset (List.subset_cons_self term rest)
    rw [Ty.anyVariableOf, run_unless]
    exact first.append
      (inductionHypothesis (fun other member => each other (List.mem_cons_of_mem _ member)) later)

/-- The search through a term is right if it is right at each of its variables. -/
theorem anyVariable_tells {test : VariableId → Solver Bool} {term : Ty}
    (atVariable : ∀ store id, Limited rank limit store [.var id] →
      Tells sought store [.var id] ((test id).run store))
    (limited : Limited rank limit store [term]) :
    Tells sought store [term] ((term.anyVariable test).run store) := by
  induction term generalizing store with
  | var id => exact atVariable store id limited
  | primitive kind => exact .nothing (by simp)
  | array element inductionHypothesis =>
    obtain ⟨agrees, size, answer⟩ := inductionHypothesis (limited.of_vars (by simp))
    exact ⟨agrees, size, answer.trans (by simp)⟩
  | function params result paramsHypothesis resultHypothesis =>
    have parts : Limited rank limit store (params ++ [result]) := by
      refine limited.of_vars fun other member id occurs => ?_
      have inFunction : id ∈ (Ty.function params result).vars := by
        rw [Ty.vars, List.mem_append, Ty.mem_varsOf]
        rcases List.mem_append.mp member with isParam | isResult
        · exact .inl ⟨other, isParam, occurs⟩
        · exact .inr (List.mem_singleton.mp isResult ▸ occurs)
      exact ⟨_, List.mem_singleton_self _, inFunction⟩
    have first := anyVariableOf_tells (fun param member store => paramsHypothesis param member)
      (parts.of_subset (List.subset_append_left params [result]))
    have second := resultHypothesis ((parts.agrees first.agrees first.size_eq).of_subset
      (List.subset_append_right params [result]))
    obtain ⟨agrees, size, answer⟩ := first.append second
    rw [Ty.anyVariable, run_unless]
    exact ⟨agrees, size, answer.trans (by simp [or_and_right, exists_or])⟩
  | shapeless => exact .nothing (by simp [resolve])

/-- Within a limit, the search from a variable is right. -/
theorem occursInVariable_tells {id : VariableId} (limited : Limited rank limit store [.var id]) :
    Tells sought store [.var id] ((occursInVariable sought limit id).run store) := by
  induction limit generalizing store id with
  | zero =>
    have outside : store.cells.size ≤ id := by
      by_contra inside
      have := limited.positive id (Nat.lt_of_not_le inside)
      have := limited.below (.var id) (by simp) id (by simp)
      omega
    refine ⟨.refl store, rfl, ?_⟩
    change (id == sought) = true ↔ _
    simp only [beq_iff_eq, List.mem_singleton, exists_eq_left, resolve_free (free_of_le outside),
      Ty.vars]
    exact eq_comm
  | succ limit inductionHypothesis =>
    have acyclic := limited.ranks.acyclic
    have agrees := compress_agrees acyclic (.var id)
    have size := compress_size store (.var id)
    have ends := compress_ends acyclic (.var id)
    rcases compressed : (compress (.var id)).run store with ⟨reached, after⟩
    rw [compressed] at agrees size ends
    have same : store.resolve reached = store.resolve (.var id) := ends.resolve_eq acyclic
    rw [occursInVariable, run_bind, compressed]
    have onward (proper : ∀ other, reached ≠ .var other) :
        Tells sought store [.var id]
          ((reached.anyVariable (occursInVariable sought limit)).run after) := by
      -- the end of a chain is nearer to the ends of all ways than its beginning
      have within : Limited rank limit after [reached] :=
        { ranks := agrees.ranks limited.ranks
          positive := fun place inside => limited.positive place (size ▸ inside)
          below := fun term member target occurs => by
            have nearer := limited.ranks.lt
              (ends.points (ends.linked proper) (List.mem_singleton.mp member ▸ occurs))
            have := limited.below (.var id) (by simp) id (by simp)
            omega }
      have further := anyVariable_tells (fun _ _ => inductionHypothesis) within
      refine ⟨agrees.trans further.agrees, further.size_eq.trans size, further.answer.trans ?_⟩
      simp only [List.mem_singleton, exists_eq_left, agrees.resolve_eq, same]
    cases reached with
    | var free =>
      refine ⟨agrees, size, ?_⟩
      change (free == sought) = true ↔ _
      simp only [beq_iff_eq, List.mem_singleton, exists_eq_left, ← same, resolve_free ends.free,
        Ty.vars]
      exact eq_comm
    | primitive kind => exact onward (by simp)
    | array element => exact onward (by simp)
    | function params result => exact onward (by simp)
    | shapeless => exact onward (by simp)

end Search

/-- The search answers whether the variable occurs in what the term stands for. -/
theorem occursIn_tells (acyclic : store.Acyclic) (sought : VariableId) (term : Ty) :
    Tells sought store [term] ((occursIn sought term).run store) :=
  anyVariable_tells (fun _ _ => occursInVariable_tells)
    { ranks := acyclic.ranks
      positive := fun _ => reachCount_pos
      below := fun _ _ id _ => reachCount_le store id }

end Solver

open Solver in
/-- In a store without cycles, compressing a term returns the end of its chain and links exactly
the variables that are passed to it, and searching a term for a variable tells whether it occurs
in what the term stands for. Neither changes what any term stands for, and compressing once more
changes nothing at all. -/
theorem compress_occursIn_exact (store : Store) (acyclic : store.Acyclic) (term : Ty) :
    (∃ passed last after, store.Chain term passed last ∧
      (compress term).run store = (last, after) ∧
      (∀ id, after.link? id = if id ∈ passed then some last else store.link? id) ∧
      after.cells.size = store.cells.size ∧ after.numbered = store.numbered ∧
      (∀ id, after.nameOf id = store.nameOf id) ∧
      after.Acyclic ∧ (∀ other, after.resolve other = store.resolve other) ∧
      (compress term).run after = (last, after) ∧ (compress last).run after = (last, after)) ∧
    ∀ sought, ∃ found after, (occursIn sought term).run store = (found, after) ∧
      (found = true ↔ sought ∈ (store.resolve term).vars) ∧
      after.cells.size = store.cells.size ∧ after.Acyclic ∧
      ∀ other, after.resolve other = store.resolve other := by
  have agrees := compress_agrees acyclic term
  constructor
  · have chain : store.Chain term (store.chainOf term) (store.endOf term) := acyclic.chain term
    have cells := store.redirect_cells (store.chainOf term) (store.endOf term)
    exact ⟨_, _, _, chain, compress_eq acyclic chain, link?_compress acyclic chain, cells.1,
      store.redirect_numbered _ _, cells.2, agrees.acyclic acyclic, agrees.resolve_eq,
      compress_compress acyclic chain⟩
  · intro sought
    obtain ⟨kept, size, answer⟩ := occursIn_tells acyclic sought term
    refine ⟨_, _, Prod.mk.eta.symm, ?_, size, kept.acyclic acyclic, kept.resolve_eq⟩
    simpa only [List.mem_singleton, exists_eq_left] using answer

/-- A chain of three variables leads to an array of a free variable. Compressing the first links
all three to the array, and the free variable is found in it. -/
theorem compress_occursIn_exact_array :
    let store : Store :=
      { cells := #[⟨"t0", some (.var 1)⟩, ⟨"t1", some (.var 2)⟩, ⟨"t2", some (.array (.var 3))⟩,
          ⟨"t3", none⟩] }
    store.Acyclic ∧ store.resolve (.var 1) = .array (.var 3) ∧
      (∃ after, (Solver.compress (.var 0)).run store = (.array (.var 3), after) ∧
        [0, 1, 2].map after.link? = List.replicate 3 (some (.array (.var 3))) ∧
        after.resolve (.var 1) = .array (.var 3) ∧
        (Solver.compress (.var 0)).run after = (.array (.var 3), after)) ∧
      ∃ after, (Solver.occursIn 3 (.var 0)).run store = (true, after) ∧
        after.resolve (.var 1) = .array (.var 3) := by
  intro store
  have acyclic : store.Acyclic := by
    have ranks : store.Ranks fun id => 4 - id := by
      rintro source target ⟨term, linked, occurs⟩
      match source, (Store.lt_of_link? linked : source < 4) with
      | 0, _ | 1, _ | 2, _ => cases linked; simp_all [Ty.vars]
      | 3, _ => cases linked
    exact ranks.acyclic
  have resolved : store.resolve (.var 1) = .array (.var 3) := rfl
  have chain : store.Chain (.var 0) [0, 1, 2] (.array (.var 3)) :=
    .follow rfl (.follow rfl (.follow rfl (.stop _ nofun)))
  obtain ⟨⟨passed, last, after, other, run, links, _, _, _, _, kept, again, _⟩, search⟩ :=
    compress_occursIn_exact store acyclic (.var 0)
  obtain ⟨found, later, searched, tells, _, _, keptLater⟩ := search 3
  obtain ⟨rfl, rfl⟩ := other.unique chain
  have occurs : found = true := tells.mpr (by decide)
  refine ⟨acyclic, resolved, ⟨after, run, ?_, (kept _).trans resolved, again⟩, later,
    occurs ▸ searched, (keptLater _).trans resolved⟩
  simp [links]

end ArrowScript
