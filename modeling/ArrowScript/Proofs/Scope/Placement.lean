import ArrowScript.Proofs.Scope.References
import ArrowScript.Proofs.Tree.Constants

/-!
# Where declarations stand

A constant is in the level of the statements behind it only, so where the leaves of a tree stand
one behind the other its name stands before every use that refers to it. The declaring nodes of
constants can be found in the linked tree by their links.
-/

namespace ArrowScript

open ScopeEvent (accepted)

/-! ## Constants before their uses -/

/-- Some trees stand one behind the other, and behind the constants of the levels around them. -/
structure Level.Fits (levels : List Level) (views : List View) : Prop where
  ordered : (views.map View.offset).Pairwise (· < ·)
  before : ∀ level ∈ levels, ∀ site ∈ level, site.declarer.kind = .constant →
    ∀ view ∈ views, site.declarer.place < view.offset

/-- The uses of some events have the names of what they refer to, and they stand behind it if
it is a constant. -/
def Behind (events : List LexicalEvent) : Prop :=
  ∀ use site, .used use (some site) ∈ events → site.declarer.name = use.name ∧
    (site.declarer.kind = .constant → site.declarer.place < use.offset)

namespace Level.Fits

variable {levels : List Level} {views others : List View}

/-- A part of the trees. -/
theorem part (fits : Fits levels views) (part : others.Sublist views) : Fits levels others where
  ordered := fits.ordered.sublist (part.map View.offset)
  before := fun level around site among constant view inside =>
    fits.before level around site among constant view (part.subset inside)

/-- The trees in front. -/
theorem left (fits : Fits levels (views ++ others)) : Fits levels views :=
  fits.part (List.sublist_append_left views others)

/-- The trees behind. -/
theorem right (fits : Fits levels (views ++ others)) : Fits levels others :=
  fits.part (List.sublist_append_right views others)

/-- The leaves of the children of a node. -/
theorem below {view : View} (fits : Fits levels view.leaves) : Fits levels view.leavesBelow :=
  fits.part view.leavesBelow_sublist

/-- A declaring node in the innermost level, with trees behind it. -/
theorem declare {level : Level} {outer : List Level} (fits : Fits (level :: outer) views)
    {more : Level} (behind : ∀ site ∈ more, site.declarer.kind = .constant →
      ∀ view ∈ views, site.declarer.place < view.offset) :
    Fits ((level ++ more) :: outer) views where
  ordered := fits.ordered
  before := by
    intro other around site among constant
    rcases List.mem_cons.mp around with rfl | isOuter
    · rcases List.mem_append.mp among with among | among
      · exact fits.before level List.mem_cons_self site among constant
      · exact behind site among constant
    · exact fits.before other (List.mem_cons_of_mem _ isOuter) site among constant

end Level.Fits

namespace Behind

variable {events others : List LexicalEvent}

/-- No events. -/
theorem nil : Behind [] := nofun

/-- Events that come one after the other. -/
theorem append (first : Behind events) (second : Behind others) : Behind (events ++ others) := by
  intro use site among
  rcases List.mem_append.mp among with among | among
  · exact first use site among
  · exact second use site among

/-- A declaring node. -/
theorem declared (site : Site) (level : Level) : Behind [site.declared level] := by
  intro use found among
  exact nomatch List.mem_singleton.mp among

end Behind

/-- The parameters of a function. -/
theorem Parameter.scoping_behind (start : Nat) (level : Level) (params : List Parameter) :
    Behind (Parameter.scoping start level params) := by
  induction params generalizing start level with
  | nil => exact .nil
  | cons param rest inductionHypothesis =>
    exact (Behind.declared _ level).append (inductionHypothesis (start + 1) _)

/-- The sites of parameters are no constants. -/
theorem Parameter.sites_kind (start : Nat) (params : List Parameter) :
    ∀ site ∈ Parameter.sites start params, site.declarer.kind = .parameter := by
  induction params generalizing start with
  | nil => exact nofun
  | cons param rest inductionHypothesis =>
    exact List.forall_mem_cons.mpr ⟨rfl, inductionHypothesis (start + 1)⟩

/-- The constant of a statement stands at one of its leaves. -/
theorem Statement.sites_leaf (start : Nat) (statement : Statement) :
    ∀ site ∈ statement.sites start,
      ∃ leaf ∈ statement.view.leaves, leaf.offset = site.declarer.place := by
  match statement with
  | .constant offset id ascription initial inferred =>
    intro site among
    rw [List.mem_singleton.mp among]
    refine ⟨id.view, (View.leavesBelow_sublist _).subset ?_, rfl⟩
    rw [Statement.leavesBelow_constant]
    exact List.mem_cons_self
  | .returning _ _ _ => exact nofun

mutual

/-- The uses in an expression stand behind the constants that they refer to. -/
theorem Expression.scoping_behind (start : Nat) (levels : List Level) (expression : Expression)
    (fits : Level.Fits levels expression.view.leaves) :
    Behind (expression.scoping start levels) := by
  have inside := fits.below
  match expression with
  | .number _ _ | .string _ _ | .boolean _ _ => exact .nil
  | .identifier use =>
    intro other site among
    obtain ⟨rfl, found⟩ := ScopeEvent.used.inj (List.mem_singleton.mp among)
    obtain ⟨level, around, here⟩ := List.exists_of_findSome?_eq_some found.symm
    constructor
    · have same := List.find?_some here
      exact beq_iff_eq.mp same
    · intro constant
      rw [Expression.view, Identifier.leaves_view] at fits
      have among : site ∈ level := List.mem_of_find?_eq_some here
      exact fits.before level around site among constant _ List.mem_cons_self
  | .array _ elements =>
    rw [Expression.leavesBelow_array] at inside
    exact Expression.scopingOf_behind start levels elements inside
  | .member _ object index =>
    rw [Expression.leavesBelow_member] at inside
    exact (Expression.scoping_behind _ _ object inside.left).append
      (Expression.scoping_behind _ _ index inside.right)
  | .binary _ left _ right =>
    rw [Expression.leavesBelow_binary] at inside
    exact (Expression.scoping_behind _ _ left inside.left).append
      (Expression.scoping_behind _ _ right inside.right)
  | .conditional _ test consequent alternate =>
    rw [Expression.leavesBelow_conditional] at inside
    exact (Expression.scoping_behind _ _ test inside.left).append
      ((Expression.scoping_behind _ _ consequent inside.right.left).append
        (Expression.scoping_behind _ _ alternate inside.right.right))
  | .arrow offset params result ⟨opening, statements⟩ =>
    have body := inside.part (Expression.leaves_body offset opening params result statements)
    have own : Level.Fits (Parameter.sites start params :: levels)
        (statements.flatMap (·.view.leaves)) := by
      constructor
      · exact body.ordered
      · intro level around site among constant
        rcases List.mem_cons.mp around with rfl | outer
        · rw [Parameter.sites_kind start params site among] at constant
          exact nomatch constant
        · exact body.before level outer site among constant
    exact (Parameter.scoping_behind _ _ params).append
      (Statement.scopingOf_behind _ _ levels statements own)
  | .call _ callee arguments =>
    rw [Expression.leavesBelow_call] at inside
    exact (Expression.scoping_behind _ _ callee inside.left).append
      (Expression.scopingOf_behind _ _ arguments inside.right)

/-- The uses in several expressions stand behind the constants that they refer to. -/
theorem Expression.scopingOf_behind (start : Nat) (levels : List Level)
    (expressions : List Expression)
    (fits : Level.Fits levels (expressions.flatMap (·.view.leaves))) :
    Behind (Expression.scopingOf start levels expressions) := by
  match expressions with
  | [] => exact .nil
  | expression :: rest =>
    rw [List.flatMap_cons] at fits
    exact (Expression.scoping_behind _ _ expression fits.left).append
      (Expression.scopingOf_behind _ _ rest fits.right)

/-- The uses in a statement stand behind the constants that they refer to. -/
theorem Statement.scoping_behind (start : Nat) (level : Level) (outer : List Level)
    (statement : Statement) (fits : Level.Fits (level :: outer) statement.view.leaves) :
    Behind (statement.scoping start level outer) := by
  have inside := fits.below
  match statement with
  | .constant _ id ascription initial _ =>
    rw [Statement.leavesBelow_constant] at inside
    exact (Expression.scoping_behind _ _ initial inside.right.right).append (.declared _ level)
  | .returning _ none _ => exact .nil
  | .returning _ (some argument) _ =>
    rw [Statement.leavesBelow_returning] at inside
    exact Expression.scoping_behind _ _ argument inside

/-- The uses in several statements stand behind the constants that they refer to. -/
theorem Statement.scopingOf_behind (start : Nat) (level : Level) (outer : List Level)
    (statements : List Statement)
    (fits : Level.Fits (level :: outer) (statements.flatMap (·.view.leaves))) :
    Behind (Statement.scopingOf start level outer statements) := by
  match statements with
  | [] => exact .nil
  | statement :: rest =>
    rw [List.flatMap_cons] at fits
    have further : Level.Fits ((level ++ statement.sites start) :: outer)
        (rest.flatMap (·.view.leaves)) := by
      apply fits.right.declare
      intro site among _ view isBehind
      obtain ⟨leaf, inFront, stands⟩ := Statement.sites_leaf start statement site among
      have ordered := fits.ordered
      rw [List.map_append, List.pairwise_append] at ordered
      rw [← stands]
      exact ordered.2.2 _ (List.mem_map_of_mem inFront) _ (List.mem_map_of_mem isBehind)
    exact (Statement.scoping_behind _ _ _ statement fits.left).append
      (Statement.scopingOf_behind _ _ _ rest further)

end

/-- In a program that follows the tokens of a text every use stands behind the constant that it
refers to. -/
theorem Program.scoping_behind {program : Program} {tokens : List Token} {length : Nat}
    (follows : program.view.Follows tokens length) : Behind program.scoping := by
  have leaves : Level.Fits [[]] program.view.leaves := by
    constructor
    · exact follows.leaves.1
    · intro level around site among
      rw [List.mem_singleton.mp around] at among
      exact nomatch among
  have inside := leaves.below
  rw [Program.leavesBelow_view] at inside
  exact Statement.scopingOf_behind 0 [] [] program.body inside

/-! ## Constants with their links -/

section Links

variable (number : Site → Nat)

/-- The constants that are accepted at some events are among some identifiers, with their
links. -/
def Kept (events : List LexicalEvent) (constants : List Identifier) : Prop :=
  ∀ site ∈ events.filterMap accepted, site.declarer.kind = .constant →
    ∃ id ∈ constants, id.offset = site.declarer.place ∧ id.name = site.declarer.name ∧
      id.declaration = some (site.link number)

namespace Kept

variable {number} {events others : List LexicalEvent} {constants more : List Identifier}

/-- No events. -/
theorem nil : Kept number [] constants := nofun

/-- Events that come one after the other. -/
theorem append (first : Kept number events constants) (second : Kept number others more) :
    Kept number (events ++ others) (constants ++ more) := by
  intro site among constant
  rw [List.filterMap_append] at among
  rcases List.mem_append.mp among with among | among
  · obtain ⟨id, inside, stands⟩ := first site among constant
    exact ⟨id, List.mem_append_left more inside, stands⟩
  · obtain ⟨id, inside, stands⟩ := second site among constant
    exact ⟨id, List.mem_append_right constants inside, stands⟩

/-- A constant behind what is inside of it. -/
theorem constant (inside : Kept number events constants) (level : Level) (site : Site)
    {id : Identifier} (place : id.offset = site.declarer.place)
    (name : id.name = site.declarer.name)
    (linked : ∀ link, (level.accept site).map (Site.link number) = some link →
      id.declaration = some link) :
    Kept number (events ++ [site.declared level]) (id :: constants) := by
  intro other among constant
  rw [List.filterMap_append] at among
  rcases List.mem_append.mp among with among | isOwn
  · obtain ⟨found, isInside, stands⟩ := inside other among constant
    exact ⟨found, List.mem_cons_of_mem id isInside, stands⟩
  · obtain ⟨_, single, accepts⟩ := List.mem_filterMap.mp isOwn
    rw [List.mem_singleton.mp single] at accepts
    have accepts : level.accept site = some other := accepts
    obtain ⟨-, rfl⟩ := Level.accept_eq_some.mp accepts
    exact ⟨id, List.mem_cons_self, place, name, linked _ (by rw [accepts]; rfl)⟩

/-- A parameter is no constant. -/
theorem parameter (level : Level) (site : Site) (kind : site.declarer.kind = .parameter) :
    Kept number [site.declared level] [] := by
  intro other among constant
  obtain ⟨_, single, accepts⟩ := List.mem_filterMap.mp among
  rw [List.mem_singleton.mp single] at accepts
  obtain ⟨-, rfl⟩ := Level.accept_eq_some.mp accepts
  exact nomatch kind.symm.trans constant

end Kept

/-- The parameters of a function are no constants. -/
theorem Parameter.scoping_kept (start : Nat) (level : Level) (params : List Parameter) :
    Kept number (Parameter.scoping start level params) [] := by
  induction params generalizing start level with
  | nil => exact .nil
  | cons param rest inductionHypothesis =>
    exact (Kept.parameter level ⟨start, param.declarer⟩ rfl).append
      (inductionHypothesis (start + 1) _)

mutual

/-- The constants in an expression. -/
theorem Expression.scoping_kept (start : Nat) (levels : List Level) (depth : Nat)
    (expression : Expression) :
    Kept number (expression.scoping start levels)
      (declaredIn ((expression.linked number start levels).statements depth)) := by
  match expression with
  | .number _ _ | .string _ _ | .boolean _ _ => exact .nil
  | .identifier use =>
    intro site among
    exact nomatch among
  | .array _ elements => exact Expression.scopingOf_kept start levels depth elements
  | .member _ object index =>
    simpa [Expression.scoping, Expression.linked, Expression.statements] using
      (Expression.scoping_kept _ levels depth object).append
        (Expression.scoping_kept _ levels depth index)
  | .binary _ left _ right =>
    simpa [Expression.scoping, Expression.linked, Expression.statements] using
      (Expression.scoping_kept _ levels depth left).append
        (Expression.scoping_kept _ levels depth right)
  | .conditional _ test consequent alternate =>
    simpa [Expression.scoping, Expression.linked, Expression.statements] using
      (Expression.scoping_kept _ levels depth test).append
        ((Expression.scoping_kept _ levels depth consequent).append
          (Expression.scoping_kept _ levels depth alternate))
  | .arrow _ params _ ⟨opening, statements⟩ =>
    exact (Parameter.scoping_kept number _ _ params).append
      (Statement.scopingOf_kept _ _ levels (depth + 1) statements)
  | .call _ callee arguments =>
    simpa [Expression.scoping, Expression.linked, Expression.statements] using
      (Expression.scoping_kept _ levels depth callee).append
        (Expression.scopingOf_kept _ levels depth arguments)

/-- The constants in several expressions. -/
theorem Expression.scopingOf_kept (start : Nat) (levels : List Level) (depth : Nat)
    (expressions : List Expression) :
    Kept number (Expression.scopingOf start levels expressions)
      (declaredIn (Expression.statementsOf depth
        (Expression.linkedAll number start levels expressions))) := by
  match expressions with
  | [] => exact .nil
  | expression :: rest =>
    simpa [Expression.scopingOf, Expression.linkedAll, Expression.statementsOf] using
      (Expression.scoping_kept _ levels depth expression).append
        (Expression.scopingOf_kept _ levels depth rest)

/-- The constant of a statement and those inside of it. -/
theorem Statement.scoping_kept (start : Nat) (level : Level) (outer : List Level) (depth : Nat)
    (statement : Statement) :
    Kept number (statement.scoping start level outer)
      ((statement.linked number start level outer).declared?.toList ++
        declaredIn ((statement.linked number start level outer).inside depth)) := by
  match statement with
  | .constant offset id _ initial _ =>
    have inside := Expression.scoping_kept start (level :: outer) depth initial
    refine inside.constant level ⟨start + initial.declarers.length, id.declarer offset⟩ ?_ ?_ ?_
    · cases level.accept ⟨start + initial.declarers.length, id.declarer offset⟩ <;> rfl
    · cases level.accept ⟨start + initial.declarers.length, id.declarer offset⟩ <;> rfl
    · rintro link given
      rw [given]
      rfl
  | .returning _ none _ => exact .nil
  | .returning _ (some argument) _ => exact Expression.scoping_kept _ _ depth argument

/-- The constants of several statements and those inside of them. -/
theorem Statement.scopingOf_kept (start : Nat) (level : Level) (outer : List Level) (depth : Nat)
    (statements : List Statement) :
    Kept number (Statement.scopingOf start level outer statements)
      (declaredIn (Statement.listed depth
        (Statement.linkedAll number start level outer statements))) := by
  match statements with
  | [] => exact .nil
  | statement :: rest =>
    simpa [Statement.scopingOf, Statement.linkedAll, Statement.listed] using
      (Statement.scoping_kept _ level outer depth statement).append
        (Statement.scopingOf_kept _ _ outer depth rest)

end

end Links

/-- Every accepted declaring node of a constant is a constant of the linked program. -/
theorem Program.linked_kept (program : Program) :
    Kept program.number program.scoping program.linked.constants :=
  Statement.scopingOf_kept program.number 0 [] [] 0 program.body

end ArrowScript
