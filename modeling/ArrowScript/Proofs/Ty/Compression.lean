import ArrowScript.Proofs.Ty.Links

/-!
# Shortening chains of links

Following the links from a term leads to the end of its chain: a free variable, or a
term that is no variable. `Ends` describes this without a limit on the number of
links. In an acyclic store every chain has an end, and compressing a term finds it
and links all variables of the chain to it, which changes nothing about what terms
stand for.

Walks through a term follow the chains of its variables and go on with what they lead
to. Every chain that leads further into terms uses up one variable, so a walk never
exceeds the number of variables; `Bounded` is the invariant that shows it.
-/

namespace ArrowScript

namespace Store

variable {store : Store}

/-- A chain of links and its end. -/
inductive Ends (store : Store) : Ty → Ty → Prop
  | stop (term : Ty) (unlinked : ∀ id, term = .var id → store.Free id) : Ends store term term
  | follow {id : VariableId} {next last : Ty} (linked : store.link? id = some next)
    (further : Ends store next last) : Ends store (.var id) last

/-- A chain has one end. -/
theorem Ends.unique {term first second : Ty} (one : store.Ends term first)
    (other : store.Ends term second) : first = second := by
  induction one with
  | stop term unlinked =>
    cases other with
    | stop => rfl
    | follow linked => exact absurd ((unlinked _ rfl).symm.trans linked) (by simp)
  | follow linked _ inductionHypothesis =>
    cases other with
    | stop _ unlinked => exact absurd ((unlinked _ rfl).symm.trans linked) (by simp)
    | follow again further =>
      obtain rfl := Option.some.inj (linked.symm.trans again)
      exact inductionHypothesis further

/-- The end of a chain is not linked further. -/
theorem Ends.free {term : Ty} {id : VariableId} (ends : store.Ends term (.var id)) :
    store.Free id := by
  generalize reached : Ty.var id = last at ends
  induction ends with
  | stop term unlinked => exact unlinked id reached.symm
  | follow _ _ inductionHypothesis => exact inductionHypothesis reached

/-- A variable whose chain ends at a term that is none is linked. -/
theorem Ends.linked {id : VariableId} {last : Ty} (ends : store.Ends (.var id) last)
    (proper : ∀ other, last ≠ .var other) : ¬ store.Free id := fun free =>
  proper id (ends.unique (.stop _ fun _ same => Ty.var.inj same ▸ free))

/-- The end of a chain stands for what its beginning stands for. -/
theorem Ends.resolve_eq {term last : Ty} (ends : store.Ends term last)
    (acyclic : store.Acyclic) : store.resolve last = store.resolve term := by
  induction ends with
  | stop => rfl
  | follow linked _ inductionHypothesis =>
    exact inductionHypothesis.trans (acyclic.resolve_linked linked).symm

/-- The variables of the end are reached from the beginning. -/
theorem Ends.reaches {term last : Ty} (ends : store.Ends term last) {target : VariableId}
    (occurs : target ∈ last.vars) :
    ∃ place ∈ term.vars, Relation.ReflTransGen store.Points place target := by
  induction ends with
  | stop => exact ⟨target, occurs, .refl⟩
  | @follow id next last linked _ inductionHypothesis =>
    obtain ⟨place, found, path⟩ := inductionHypothesis occurs
    exact ⟨id, by simp, .head ⟨next, linked, found⟩ path⟩

/-- From a linked variable the variables of the end are reached by at least one link. -/
theorem Ends.points {id : VariableId} {last : Ty} (ends : store.Ends (.var id) last)
    (linked : ¬ store.Free id) {target : VariableId} (occurs : target ∈ last.vars) :
    Relation.TransGen store.Points id target := by
  cases ends with
  | stop _ unlinked => exact absurd (unlinked id rfl) linked
  | @follow _ next _ link further =>
    obtain ⟨place, found, path⟩ := further.reaches occurs
    exact .head' ⟨next, link, found⟩ path

/-- The end of a chain is over the variables of the store. -/
theorem Ends.covered {term last : Ty} (ends : store.Ends term last) (sound : store.Sound)
    (covered : term.Over store.cells.size) : last.Over store.cells.size := by
  induction ends with
  | stop => exact covered
  | follow linked _ inductionHypothesis => exact inductionHypothesis (sound.covered _ _ linked)

/-- A chain of links, with the linked variables on it in their order and its end. -/
inductive Chain (store : Store) : Ty → List VariableId → Ty → Prop
  | stop (term : Ty) (unlinked : ∀ id, term = .var id → store.Free id) : Chain store term [] term
  | follow {id : VariableId} {next last : Ty} {passed : List VariableId}
    (linked : store.link? id = some next) (further : Chain store next passed last) :
    Chain store (.var id) (id :: passed) last

/-- A chain leads to its end. -/
theorem Chain.ends {term last : Ty} {passed : List VariableId}
    (chain : store.Chain term passed last) : store.Ends term last := by
  induction chain with
  | stop term unlinked => exact .stop term unlinked
  | follow linked _ inductionHypothesis => exact .follow linked inductionHypothesis

/-- All variables that are passed are linked, and have the same end. -/
theorem Chain.passes {term last : Ty} {passed : List VariableId}
    (chain : store.Chain term passed last) :
    ∀ id ∈ passed, ¬ store.Free id ∧ store.Ends (.var id) last := by
  induction chain with
  | stop => exact nofun
  | follow linked further inductionHypothesis =>
    exact List.forall_mem_cons.mpr
      ⟨⟨by simp [Free, linked], .follow linked further.ends⟩, inductionHypothesis⟩

/-- Within a limit that is not below the rank of its beginning, a chain is followed to its
end. -/
theorem Ranks.chain {rank : VariableId → Nat} (ranks : store.Ranks rank)
    (positive : ∀ id < store.cells.size, 0 < rank id) {limit : Nat} {term : Ty}
    (bound : ∀ id, term = .var id → rank id ≤ limit) :
    store.Chain term (store.chainWithin limit term) (store.endWithin limit term) := by
  induction limit generalizing term with
  | zero =>
    refine .stop term fun id same => ?_
    by_contra linked
    obtain ⟨link, linked⟩ := Option.ne_none_iff_exists'.mp linked
    have := positive id (lt_of_link? linked)
    have := bound id same
    omega
  | succ limit inductionHypothesis =>
    cases term with
    | var id =>
      cases linked : store.link? id with
      | none =>
        simp only [endWithin, chainWithin, linked]
        exact .stop _ fun other same => Ty.var.inj same ▸ linked
      | some next =>
        have smaller (target : VariableId) (same : next = .var target) : rank target ≤ limit := by
          have := ranks id target ⟨next, linked, by simp [same]⟩
          have := bound id rfl
          omega
        simp only [endWithin, chainWithin, linked]
        exact .follow linked (inductionHypothesis smaller)
    | primitive kind => exact .stop _ (by simp)
    | array element => exact .stop _ (by simp)
    | function params result => exact .stop _ (by simp)
    | shapeless => exact .stop _ (by simp)

/-- The number of variables is a sufficient limit for every chain. -/
theorem Acyclic.chain (acyclic : store.Acyclic) (term : Ty) :
    store.Chain term (store.chainOf term) (store.endOf term) :=
  acyclic.ranks.chain (fun _ => reachCount_pos) fun _ _ => reachCount_le store _

/-- The links after several variables have been redirected. -/
theorem link?_redirect (store : Store) (chain : List VariableId) (target : Ty)
    (id : VariableId) :
    (store.redirect chain target).link? id =
      if id ∈ chain ∧ id < store.cells.size then some target else store.link? id := by
  induction chain generalizing store with
  | nil => simp [redirect]
  | cons first rest inductionHypothesis =>
    have step := inductionHypothesis (store.setLink first target)
    simp only [size_setLink, link?_setLink] at step
    change (redirect (store.setLink first target) rest target).link? id = _
    rw [step]
    by_cases same : id = first <;> by_cases inside : id < store.cells.size <;>
      by_cases member : id ∈ rest <;> simp_all

/-- Redirecting variables keeps their number and their names. -/
theorem redirect_cells (store : Store) (chain : List VariableId) (target : Ty) :
    (store.redirect chain target).cells.size = store.cells.size ∧
      ∀ id, (store.redirect chain target).nameOf id = store.nameOf id := by
  induction chain generalizing store with
  | nil => simp [redirect]
  | cons first rest inductionHypothesis =>
    have step := inductionHypothesis (store.setLink first target)
    simp only [size_setLink, nameOf_setLink] at step
    exact step

/-- Redirecting variables keeps the number of the next one. -/
theorem redirect_numbered (store : Store) (chain : List VariableId) (target : Ty) :
    (store.redirect chain target).numbered = store.numbered := by
  induction chain generalizing store with
  | nil => rfl
  | cons first rest inductionHypothesis => exact inductionHypothesis (store.setLink first target)

end Store

namespace Solver

open Store

variable {store after : Store}

/-- Compressing finds the end of a chain. -/
theorem compress_ends (acyclic : store.Acyclic) (term : Ty) :
    store.Ends term ((compress term).run store).1 :=
  (acyclic.chain term).ends

/-- Compressing adds no variable. -/
theorem compress_size (store : Store) (term : Ty) :
    ((compress term).run store).2.cells.size = store.cells.size :=
  (redirect_cells store _ _).1

/-- Compressing keeps what terms stand for. -/
theorem compress_agrees (acyclic : store.Acyclic) (term : Ty) :
    Agrees store ((compress term).run store).2 := by
  have chain := acyclic.chain term
  have passed := chain.passes
  change Agrees store (store.redirect (store.chainOf term) (store.endOf term))
  refine .of_links acyclic (Nat.le_of_eq (redirect_cells store _ _).1.symm) ?_ ?_ ?_
    fun id _ => (redirect_cells store _ _).2 id
  · intro id
    rw [Free, link?_redirect]
    split
    next member => simpa using (passed id member.1).1
    next => rfl
  · intro id link linked
    rw [link?_redirect] at linked
    split at linked
    next member =>
      obtain rfl := Option.some.inj linked
      obtain ⟨notFree, same⟩ := passed id member.1
      exact ⟨(same.resolve_eq acyclic).symm, fun target => same.points notFree⟩
    next =>
      exact ⟨acyclic.resolve_linked linked, fun target occurs => .single ⟨link, linked, occurs⟩⟩
  · intro sound id link linked
    rw [link?_redirect] at linked
    split at linked
    next member =>
      obtain rfl := Option.some.inj linked
      exact (passed id member.1).2.covered sound member.2
    next => exact sound.covered id link linked

/-! ## Running solvers -/

/-- Two solvers that follow each other. -/
theorem run_bind {α β : Type} (first : Solver α) (next : α → Solver β) (store : Store) :
    (first >>= next).run store = (next (first.run store).1).run (first.run store).2 := rfl

/-- A solver that only returns a value. -/
theorem run_pure {α : Type} (value : α) (store : Store) :
    (pure value : Solver α).run store = (value, store) := rfl

/-- A solver that is only run when a test has failed. -/
theorem run_unless (test otherwise : Solver Bool) (store : Store) :
    (do if ← test then pure true else otherwise : Solver Bool).run store =
      if (test.run store).1 then (true, (test.run store).2)
      else otherwise.run (test.run store).2 := by
  rw [run_bind]
  split <;> rfl

/-- A term that is no variable is the end of its own chain. -/
theorem compress_of_ne_var {term : Ty} (proper : ∀ id, term ≠ .var id) (store : Store) :
    (compress term).run store = (term, store) := by
  have chain (limit : Nat) :
      store.endWithin limit term = term ∧ store.chainWithin limit term = [] := by
    cases limit <;> cases term <;> simp_all [endWithin, chainWithin]
  change (store.endOf term, store.redirect (store.chainOf term) (store.endOf term)) = _
  simp [endOf, chainOf, chain, redirect]

/-- What is reached by following a chain stands for what its beginning stands for, and
if it is a variable, it is free. -/
theorem resolve_compressed (sound : store.Sound) {term reached : Ty}
    (compressed : (compress term).run store = (reached, after)) :
    Agrees store after ∧ after.cells.size = store.cells.size ∧
      store.resolve reached = store.resolve term ∧ ∀ id, reached = .var id → store.Free id := by
  have agrees := compress_agrees sound.acyclic term
  have size := compress_size store term
  have ends := compress_ends sound.acyclic term
  rw [compressed] at agrees size ends
  exact ⟨agrees, size, ends.resolve_eq sound.acyclic, fun id same => Ends.free (same ▸ ends)⟩

/-! ## Walks within a limit -/

/-- What a walk within a limit relies on: a measure of the links among the first
variables of the store, and terms whose variables are below the limit. -/
structure Bounded (rank : VariableId → Nat) (size limit : Nat) (store : Store)
    (terms : List Ty) : Prop where
  sound : store.Sound
  ranks : store.Ranks rank
  positive : ∀ id < size, 0 < rank id
  closed : ∀ id < size, ∀ target, store.Points id target → target < size
  size_le : size ≤ store.cells.size
  covered : ∀ term ∈ terms, term.Over size
  below : ∀ term ∈ terms, ∀ id ∈ term.vars, rank id ≤ limit

namespace Bounded

variable {rank : VariableId → Nat} {size limit : Nat} {terms others : List Ty}

/-- The number of variables bounds every walk that starts in a sound store. -/
theorem start (sound : store.Sound) (covered : ∀ term ∈ terms, term.Over store.cells.size) :
    Bounded store.reachCount store.cells.size store.cells.size store terms where
  sound := sound
  ranks := sound.acyclic.ranks
  positive _ := reachCount_pos
  closed _ _ _ := fun ⟨term, linked, occurs⟩ => (sound.covered _ term linked).lt occurs
  size_le := Nat.le_refl _
  covered := covered
  below _ _ id _ := reachCount_le store id

/-- No way through links leads out of the first variables. -/
theorem closed_path (bounded : Bounded rank size limit store terms) {id target : VariableId}
    (path : Relation.TransGen store.Points id target) (inside : id < size) : target < size := by
  induction path with
  | single step => exact bounded.closed id inside _ step
  | tail _ step inductionHypothesis => exact bounded.closed _ inductionHypothesis _ step

/-- The bound does not depend on the length of chains. -/
theorem agrees (bounded : Bounded rank size limit store terms) (same : Agrees store after) :
    Bounded rank size limit after terms where
  sound := same.sound bounded.sound
  ranks := same.ranks bounded.ranks
  positive := bounded.positive
  closed id inside target step := bounded.closed_path (same.points id target step) inside
  size_le := Nat.le_trans bounded.size_le same.size_le
  covered := bounded.covered
  below := bounded.below

/-- What bounds a walk bounds it on other terms over the same variables. -/
theorem of_vars (bounded : Bounded rank size limit store terms)
    (covered : ∀ other ∈ others, other.Over size)
    (contained : ∀ other ∈ others, ∀ id ∈ other.vars, ∃ term ∈ terms, id ∈ term.vars) :
    Bounded rank size limit store others :=
  { bounded with
    covered
    below := fun other member id occurs => by
      obtain ⟨term, here, found⟩ := contained other member id occurs
      exact bounded.below term here id found }

/-- What bounds a walk bounds it on some of the terms. -/
theorem of_subset (bounded : Bounded rank size limit store terms) (subset : others ⊆ terms) :
    Bounded rank size limit store others :=
  bounded.of_vars (fun other member => bounded.covered other (subset member))
    fun other member _ occurs => ⟨other, subset member, occurs⟩

/-- What bounds a walk through an array bounds it on the element. -/
theorem element {element : Ty} (bounded : Bounded rank size limit store [.array element]) :
    Bounded rank size limit store [element] :=
  bounded.of_vars (by simpa using bounded.covered) (by simp)

/-- What bounds a walk through a function bounds it on the parameters and the result. -/
theorem parts {params : List Ty} {result : Ty}
    (bounded : Bounded rank size limit store [.function params result]) :
    Bounded rank size limit store (params ++ [result]) := by
  refine bounded.of_vars ?_ ?_
  · have covered := bounded.covered (.function params result) (by simp)
    simp only [Ty.Over, Ty.allOver_iff] at covered
    simp only [List.mem_append, List.mem_singleton]
    rintro other (member | rfl)
    · exact covered.1 other member
    · exact covered.2
  · simp only [List.mem_append, List.mem_singleton, exists_eq_left, Ty.vars,
      Ty.mem_varsOf]
    rintro other (member | rfl) id occurs
    · exact .inl ⟨other, member, occurs⟩
    · exact .inr occurs

/-- A variable is within no limit of zero. -/
theorem limit_ne_zero {id : VariableId} (bounded : Bounded rank size limit store [.var id]) :
    limit ≠ 0 := by
  have below := bounded.below (.var id) (by simp) id (by simp)
  have positive := bounded.positive id ((bounded.covered (.var id) (by simp)).lt (by simp))
  omega

/-- Following the chain of a variable to a term that is none uses up one step. -/
theorem follow {id : VariableId} {reached : Ty}
    (bounded : Bounded rank size (limit + 1) store [.var id])
    (compressed : (compress (.var id)).run store = (reached, after))
    (proper : ∀ other, reached ≠ .var other) : Bounded rank size limit after [reached] := by
  have ends := compress_ends bounded.sound.acyclic (.var id)
  have agrees := compress_agrees bounded.sound.acyclic (.var id)
  rw [compressed] at ends agrees
  have covered := bounded.covered (.var id) (by simp)
  have below := bounded.below (.var id) (by simp) id (by simp)
  have reaches (target : VariableId) (occurs : target ∈ reached.vars) :
      rank target < rank id ∧ target < size := by
    have path := ends.points (ends.linked proper) occurs
    exact ⟨bounded.ranks.lt path, bounded.closed_path path covered⟩
  have kept := bounded.agrees agrees
  exact
    { kept with
      covered := by
        have reachedOver := ends.covered bounded.sound (covered.mono bounded.size_le)
        simpa using reachedOver.of_vars fun target occurs => (reaches target occurs).2
      below := by
        simp only [List.mem_singleton, forall_eq]
        intro target occurs
        have := (reaches target occurs).1
        omega }

end Bounded

end Solver

end ArrowScript
