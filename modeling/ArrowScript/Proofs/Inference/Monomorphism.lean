import ArrowScript.Proofs.Inference.Moments
import ArrowScript.Proofs.Ty.Instances

/-!
# Parameters are monomorphic in their function

As long as the walk is in the body of a function, the types of its parameters are
undetermined, also inside the functions that stand in the body. An instance of such a type
has nothing to rename: it is what the type stands for at that moment, with the same
variables. So whatever the rest of the body makes of these variables, it makes it of all
uses of the parameter and of the parameter itself, and in the end they have one type.
-/

namespace ArrowScript

open Inferrer Inferrer.Moment Store

/-- The moment at which the walk over a program begins. -/
def Program.start (program : Program) : Moment := ⟨.statements program.body, {}⟩

namespace Inferrer

variable {state : Inference} {name : String} {type : Ty}

/-- A name with an undetermined type is used with what the type stands for. No variable is
made, and nothing is linked. -/
theorem lookup_undetermined (wellFormed : state.WellFormed)
    (found : state.environment.lookup name = some type) (member : type ∈ state.undetermined) :
    ∃ store, (lookup name).run state = (state.store.resolve type, { state with store }) ∧
      Agrees state.store store ∧ store.cells.size = state.store.cells.size ∧
      store.numbered = state.store.numbered := by
  have covered := wellFormed.environment _ (mem_of_lookup found)
  obtain ⟨image, given, store, ran, instances⟩ :=
    Solver.freshInstance_instances wellFormed.sound wellFormed.undetermined covered
  obtain ⟨rfl, rfl⟩ := instances.of_undetermined member
  refine ⟨store, ?_, instances.agrees, instances.size_eq, instances.numbered_eq⟩
  simp only [lookup_eq, found]
  change (solve (Solver.freshInstance state.undetermined type)).run state = _
  rw [run_solve, ran]

/-- While the walk is in the body of a function, the types of its parameters are
undetermined. -/
theorem Moment.Visits.undetermined {entry : Inference} {params : List Parameter}
    {statements : List Statement} {inner : Moment} (wellFormed : entry.WellFormed)
    (visits : Visits ⟨.statements statements, ((bindParameters params).run entry).2⟩ inner) :
    ((bindParameters params).run entry).1 ⊆ inner.state.undetermined := by
  obtain ⟨types, store, ran, invents⟩ := bindParameters_invents params entry wellFormed.sound
  have boundFormed := wellFormed_bound wellFormed invents
  rw [ran] at visits ⊢
  have within := visits.within boundFormed
  exact List.Subset.trans (List.subset_append_right _ _) within.undetermined

end Inferrer

/-- A use of a parameter, at a moment at which the environment finds the type that the
parameter is bound to. No variable is made and no term stands for anything else. The type of
the use is what the parameter stands for, with the same variables, and in the final store
both stand for the same. -/
def UsedAsBound (final : Store) (state : Inference) (name : String) (type : Ty) : Prop :=
  ∃ image store, (lookup name).run state = (image, { state with store }) ∧
    store.cells.size = state.store.cells.size ∧ store.numbered = state.store.numbered ∧
    Agrees state.store store ∧ image = state.store.resolve type ∧
    store.resolve image = store.resolve type ∧ final.resolve image = final.resolve type

/-- A name that is used while the type that is found for it is undetermined is used as it is
bound. -/
theorem Program.usedAsBound {program : Program} {use : Identifier} {state : Inference} {type : Ty}
    (visits : Visits program.start ⟨.expression (.identifier use), state⟩)
    (found : state.environment.lookup use.name = some type) (member : type ∈ state.undetermined) :
    UsedAsBound ((inferStatements program.body).run {}).2.store state use.name type := by
  have inUse := visits.within Inference.wellFormed_empty
  obtain ⟨store, ran, agrees, size, numbered⟩ := lookup_undetermined inUse.ready found member
  have same : store.resolve (state.store.resolve type) = store.resolve type := by
    simp only [agrees.resolve_eq, inUse.ready.wellFormed.sound.acyclic.resolve_resolve]
  have refines : Refines store ((inferStatements program.body).run {}).2.store := by
    have later := inUse.refines
    rw [after_expression, inferExpression, run_bind, ran, run_pure] at later
    exact later
  exact ⟨_, store, ran, size, numbered, agrees, rfl, same, refines.resolve_eq same⟩

/-- The walk over a program comes to every function that stands in it, and the type of the
function has as its parameter types the very terms that the parameters are bound to. The walk
over its body comes to every name in it, however deep in other functions. Whenever the
environment finds there one of these terms, the parameter is used as it is bound. -/
theorem parameters_monomorphic (program : Program) {offset opening : Int}
    {params : List Parameter} {result : Option Ascription} {statements : List Statement}
    (function : .arrow offset params result { offset := opening, statements } ∈
      Statement.expressionsOf program.body) :
    let arrow := Expression.arrow offset params result { offset := opening, statements }
    let final := ((inferStatements program.body).run {}).2.store
    (∃ entry, Visits program.start ⟨.expression arrow, entry⟩) ∧
    ∀ entry, Visits program.start ⟨.expression arrow, entry⟩ →
      let bound := (bindParameters params).run entry
      (∃ typed returned after,
        (inferExpression arrow).run entry = ((typed, .function bound.1 returned), after)) ∧
      ∀ use, .identifier use ∈ Statement.expressionsOf statements →
        (∃ state, Visits ⟨.statements statements, bound.2⟩ ⟨.expression (.identifier use), state⟩) ∧
        ∀ state, Visits ⟨.statements statements, bound.2⟩ ⟨.expression (.identifier use), state⟩ →
          ∀ type ∈ bound.1, state.environment.lookup use.name = some type →
            UsedAsBound final state use.name type := by
  intro arrow final
  constructor
  · exact mem_expressions_iff.mp function
  intro entry reached bound
  constructor
  · exact ⟨_, _, _, inferExpression_arrow offset opening params result statements entry⟩
  intro use inside
  constructor
  · exact mem_expressions_iff.mp inside
  intro state visits type member found
  have outer := reached.within Inference.wellFormed_empty
  have inBody : Visits program.start ⟨.statements statements, bound.2⟩ :=
    reached.tail (List.mem_singleton_self _)
  exact program.usedAsBound (inBody.trans visits) found
    (Moment.Visits.undetermined outer.ready visits member)

/-- The body `const g = (y) => { return [x, y]; }; return g;`. -/
def pairingBody : List Statement :=
  [.constant 19 ⟨25, "g", none⟩ none
    (.arrow 29 [⟨30, "y", none, none⟩] none
      ⟨36, [.returning 38 (some (.array 45
        [.identifier ⟨46, "x", none⟩, .identifier ⟨49, "y", none⟩])) none]⟩) none,
    .returning 56 (some (.identifier ⟨63, "g", none⟩)) none]

/-- The program `const f = (x) => { const g = (y) => { return [x, y]; }; return g; };`. -/
def pairing : Program where
  body :=
    [.constant 0 ⟨6, "f", none⟩ none
      (.arrow 10 [⟨11, "x", none, none⟩] none ⟨17, pairingBody⟩) none]

/-- In the inner function of `pairing` the parameter `x` of the outer one is used with its own
variable `t0`. This is linked only behind the use, when the array makes the types of both
parameters one. -/
theorem parameters_monomorphic_pairing :
    let outer := (bindParameters [⟨11, "x", none, none⟩]).run {}
    let inner := (bindParameters [⟨30, "y", none, none⟩]).run outer.2
    let final := ((inferStatements pairing.body).run {}).2.store
    ∃ image store, (lookup "x").run inner.2 = (image, { inner.2 with store }) ∧
      store.cells.size = 2 ∧ image.text = "t0" ∧
      final.resolve image = final.resolve (.var 0) ∧ (final.resolve image).text = "t1" := by
  intro outer inner final
  have function : .arrow 10 [⟨11, "x", none, none⟩] none ⟨17, pairingBody⟩ ∈
      Statement.expressionsOf pairing.body := List.mem_cons_self
  have reached : Visits pairing.start
      ⟨.expression (.arrow 10 [⟨11, "x", none, none⟩] none ⟨17, pairingBody⟩), {}⟩ :=
    .head List.mem_cons_self (.head List.mem_cons_self .refl)
  have inside : .identifier ⟨46, "x", none⟩ ∈ Statement.expressionsOf pairingBody := by
    simp [pairingBody, Statement.expressionsOf, Statement.expressions, Expression.inside,
      Expression.listed]
  -- the constant, the inner function, its body, the statement in it, and the array
  have visits : Visits ⟨.statements pairingBody, outer.2⟩
      ⟨.expression (.identifier ⟨46, "x", none⟩), inner.2⟩ :=
    .head List.mem_cons_self (.head List.mem_cons_self (.head List.mem_cons_self
      (.head List.mem_cons_self (.head List.mem_cons_self (.head List.mem_cons_self .refl)))))
  have found : inner.2.environment.lookup "x" = some (.var 0) := rfl
  obtain ⟨-, uses⟩ := ((parameters_monomorphic pairing function).2 {} reached).2 _ inside
  obtain ⟨image, store, ran, size, -, -, rfl, -, same⟩ :=
    uses inner.2 visits (.var 0) List.mem_cons_self found
  have here : (inner.2.store.resolve (.var 0)).text = "t0" := by decide +kernel
  have last : (final.resolve (.var 0)).text = "t1" := by decide +kernel
  exact ⟨_, store, ran, size, here, same, same ▸ last⟩

end ArrowScript
