import ArrowScript.Proofs.Scope.Lexical
import Mathlib.Data.List.Induction

/-!
# Declaring nodes

The first of each name in a level is what names of the level refer to, so a level can be
replaced by its firsts. Every declaring node has another position, hence every
accepted one has another number, and the numbers count them in the order of the source.
-/

namespace ArrowScript

/-! ## Levels -/

namespace Level

variable {level others : Level} {site : Site} {name : String}

/-- A name is looked up in the front of a level first. -/
theorem first?_append :
    first? (level ++ others) name = (level.first? name).or (others.first? name) :=
  List.find?_append

/-- A level of one declaring node has one name. -/
theorem first?_singleton (site : Site) (name : String) :
    first? [site] name = if site.declarer.name = name then some site else none := by
  rw [first?, List.find?_singleton]
  simp only [beq_iff_eq]

/-- A declaring node is accepted if no other one has its name. -/
theorem accept_eq_some {given : Site} :
    level.accept site = some given ↔ level.first? site.declarer.name = none ∧ given = site := by
  rw [accept]
  cases level.first? site.declarer.name with
  | none => simp [eq_comm]
  | some _ => simp

/-- A declaring node is a duplicate if another one has its name. -/
theorem accept_eq_none :
    level.accept site = none ↔ (level.first? site.declarer.name).isSome := by
  rw [accept]
  cases level.first? site.declarer.name with
  | none => simp
  | some _ => simp

/-- The first of a name is among the firsts. -/
theorem first?_firsts (level : Level) : ∀ name, (firsts level).first? name = level.first? name := by
  induction level using List.reverseRecOn with
  | nil => exact fun _ => rfl
  | append_singleton level site inductionHypothesis =>
    intro name
    rw [firsts, List.foldl_append, List.foldl_cons, List.foldl_nil, ← firsts, first?_append,
      first?_append, inductionHypothesis, accept, inductionHypothesis]
    cases taken : first? level site.declarer.name with
    | none => rfl
    | some first =>
      -- the name is taken, so whether the node is kept makes no difference for it
      change (first? level name).or none = _
      rw [first?_singleton]
      by_cases same : site.declarer.name = name
      · rw [← same, taken]
        rfl
      · rw [if_neg same]

/-- Behind another declaring node a level has the same firsts, and this one if it is
accepted. -/
theorem firsts_concat (level : Level) (site : Site) :
    firsts (level ++ [site]) = firsts level ++ (level.accept site).toList := by
  rw [firsts, List.foldl_append, List.foldl_cons, List.foldl_nil, ← firsts, accept, first?_firsts,
    accept]

end Level

/-- A name refers to one of the firsts of a level around its use. -/
theorem mem_firsts_of_lexicalSite {levels : List Level} {name : String} {site : Site}
    (found : lexicalSite levels name = some site) :
    ∃ level ∈ levels, site ∈ Level.firsts level := by
  obtain ⟨level, around, here⟩ := List.exists_of_findSome?_eq_some found
  rw [← Level.first?_firsts] at here
  exact ⟨level, around, List.mem_of_find?_eq_some here⟩

/-! ## Positions -/

open ScopeEvent (accepted)

/-- The accepted declaring nodes of some events stand at different positions among so many
from a start on. -/
def Within (start count : Nat) (events : List LexicalEvent) : Prop :=
  ((events.filterMap accepted).map (·.position)).Sublist (List.range' start count)

namespace Within

variable {start count more : Nat} {events others : List LexicalEvent}

/-- No events. -/
theorem nil : Within start 0 [] := List.Sublist.refl _

/-- Events that come one after the other. -/
theorem append (first : Within start count events) (second : Within (start + count) more others) :
    Within start (count + more) (events ++ others) := by
  rw [Within, List.filterMap_append, List.map_append, ← List.range'_append_1]
  exact List.Sublist.append first second

/-- A declaring node. -/
theorem declared (declarer : Declarer) (level : Level) :
    Within start 1 [Site.declared ⟨start, declarer⟩ level] := by
  rw [Within, Site.declared, Level.accept]
  split
  · exact List.nil_sublist _
  · exact List.Sublist.refl _

end Within

/-- The parameters of a function. -/
theorem Parameter.scoping_within (start : Nat) (level : Level) (params : List Parameter) :
    Within start params.length (Parameter.scoping start level params) := by
  induction params generalizing start level with
  | nil => exact .nil
  | cons param rest inductionHypothesis =>
    rw [List.length_cons, Nat.add_comm]
    exact (Within.declared param.declarer level).append (inductionHypothesis (start + 1) _)

mutual

/-- The declaring nodes in an expression. -/
theorem Expression.scoping_within (start : Nat) (levels : List Level) (expression : Expression) :
    Within start expression.declarers.length (expression.scoping start levels) := by
  match expression with
  | .number _ _ | .string _ _ | .boolean _ _ => exact .nil
  | .identifier _ => exact Within.nil
  | .array _ elements => exact Expression.scopingOf_within start levels elements
  | .member _ object index =>
    rw [Expression.declarers, List.length_append]
    exact (Expression.scoping_within _ _ object).append (Expression.scoping_within _ _ index)
  | .binary _ left _ right =>
    rw [Expression.declarers, List.length_append]
    exact (Expression.scoping_within _ _ left).append (Expression.scoping_within _ _ right)
  | .conditional _ test consequent alternate =>
    rw [Expression.declarers, List.length_append, List.length_append]
    exact (Expression.scoping_within _ _ test).append
      ((Expression.scoping_within _ _ consequent).append (Expression.scoping_within _ _ alternate))
  | .arrow _ params _ { statements, .. } =>
    rw [Expression.declarers, List.length_append, List.length_map]
    exact (Parameter.scoping_within _ _ params).append
      (Statement.scopingOf_within _ _ _ statements)
  | .call _ callee arguments =>
    rw [Expression.declarers, List.length_append]
    exact (Expression.scoping_within _ _ callee).append
      (Expression.scopingOf_within _ _ arguments)

/-- The declaring nodes in several expressions. -/
theorem Expression.scopingOf_within (start : Nat) (levels : List Level)
    (expressions : List Expression) :
    Within start (Expression.declarersOf expressions).length
      (Expression.scopingOf start levels expressions) := by
  match expressions with
  | [] => exact .nil
  | expression :: rest =>
    rw [Expression.declarersOf, List.length_append]
    exact (Expression.scoping_within _ _ expression).append
      (Expression.scopingOf_within _ _ rest)

/-- The declaring nodes in a statement. -/
theorem Statement.scoping_within (start : Nat) (level : Level) (outer : List Level)
    (statement : Statement) :
    Within start statement.declarers.length (statement.scoping start level outer) := by
  match statement with
  | .constant _ _ _ initial _ =>
    rw [Statement.declarers, List.length_append, List.length_singleton]
    exact (Expression.scoping_within _ _ initial).append (Within.declared _ _)
  | .returning _ none _ => exact .nil
  | .returning _ (some argument) _ => exact Expression.scoping_within _ _ argument

/-- The declaring nodes in several statements. -/
theorem Statement.scopingOf_within (start : Nat) (level : Level) (outer : List Level)
    (statements : List Statement) :
    Within start (Statement.declarersOf statements).length
      (Statement.scopingOf start level outer statements) := by
  match statements with
  | [] => exact .nil
  | statement :: rest =>
    rw [Statement.declarersOf, List.length_append]
    exact (Statement.scoping_within _ _ _ statement).append (Statement.scopingOf_within _ _ _ rest)

end

/-! ## What the events list -/

/-- The uses of some events, in a tree and behind the linking of its names, and the declaring
nodes of the events. -/
structure Lists (number : Site → Nat) (events : List LexicalEvent)
    (uses linkedUses : List Identifier) (declarers : List Declarer) : Prop where
  uses : uses = events.filterMap ScopeEvent.use?
  linked : linkedUses = (events.map (ScopeEvent.link number)).filterMap Resolver.linked
  declarers : declarers = events.filterMap ScopeEvent.declarer?

namespace Lists

variable {number : Site → Nat} {events others : List LexicalEvent}
  {uses linkedUses moreUses moreLinked : List Identifier} {declarers more : List Declarer}

/-- No events. -/
theorem nil : Lists number [] [] [] [] := ⟨rfl, rfl, rfl⟩

/-- Events that come one after the other. -/
theorem append (first : Lists number events uses linkedUses declarers)
    (second : Lists number others moreUses moreLinked more) :
    Lists number (events ++ others) (uses ++ moreUses) (linkedUses ++ moreLinked)
      (declarers ++ more) where
  uses := by rw [first.uses, second.uses, List.filterMap_append]
  linked := by rw [first.linked, second.linked, List.map_append, List.filterMap_append]
  declarers := by rw [first.declarers, second.declarers, List.filterMap_append]

/-- A use. -/
theorem used (use : Identifier) (found : Option Site) :
    Lists number [.used use found] [use] [use.linkedTo (found.map (Site.link number))] [] := by
  cases found <;> exact ⟨rfl, rfl, rfl⟩

/-- A declaring node. -/
theorem declared (site : Site) (level : Level) :
    Lists number [site.declared level] [] [] [site.declarer] := ⟨rfl, rfl, rfl⟩

end Lists

section Lists

variable (number : Site → Nat)

/-- The parameters of a function. -/
theorem Parameter.scoping_lists (start : Nat) (level : Level) (params : List Parameter) :
    Lists number (Parameter.scoping start level params) [] [] (params.map (·.declarer)) := by
  induction params generalizing start level with
  | nil => exact .nil
  | cons param rest inductionHypothesis =>
    exact (Lists.declared ⟨start, param.declarer⟩ level).append (inductionHypothesis (start + 1) _)

mutual

/-- The events in an expression. -/
theorem Expression.scoping_lists (start : Nat) (levels : List Level) (expression : Expression) :
    Lists number (expression.scoping start levels) expression.uses
      (expression.linked number start levels).uses expression.declarers := by
  match expression with
  | .number _ _ | .string _ _ | .boolean _ _ => exact .nil
  | .identifier use => exact Lists.used use _
  | .array _ elements => exact Expression.scopingOf_lists start levels elements
  | .member _ object index =>
    exact (Expression.scoping_lists _ _ object).append (Expression.scoping_lists _ _ index)
  | .binary _ left _ right =>
    exact (Expression.scoping_lists _ _ left).append (Expression.scoping_lists _ _ right)
  | .conditional _ test consequent alternate =>
    exact (Expression.scoping_lists _ _ test).append
      ((Expression.scoping_lists _ _ consequent).append (Expression.scoping_lists _ _ alternate))
  | .arrow _ params _ { statements, .. } =>
    exact (Parameter.scoping_lists number _ _ params).append
      (Statement.scopingOf_lists _ _ _ statements)
  | .call _ callee arguments =>
    exact (Expression.scoping_lists _ _ callee).append (Expression.scopingOf_lists _ _ arguments)

/-- The events in several expressions. -/
theorem Expression.scopingOf_lists (start : Nat) (levels : List Level)
    (expressions : List Expression) :
    Lists number (Expression.scopingOf start levels expressions) (Expression.usesOf expressions)
      (Expression.usesOf (Expression.linkedAll number start levels expressions))
      (Expression.declarersOf expressions) := by
  match expressions with
  | [] => exact .nil
  | expression :: rest =>
    exact (Expression.scoping_lists _ _ expression).append (Expression.scopingOf_lists _ _ rest)

/-- The events in a statement. -/
theorem Statement.scoping_lists (start : Nat) (level : Level) (outer : List Level)
    (statement : Statement) :
    Lists number (statement.scoping start level outer) statement.uses
      (statement.linked number start level outer).uses statement.declarers := by
  match statement with
  | .constant offset id _ initial _ =>
    let site : Site := ⟨start + initial.declarers.length, id.declarer offset⟩
    have whole := (Expression.scoping_lists start (level :: outer) initial).append
      (Lists.declared site level)
    rwa [List.append_nil, List.append_nil] at whole
  | .returning _ none _ => exact .nil
  | .returning _ (some argument) _ => exact Expression.scoping_lists _ _ argument

/-- The events in several statements. -/
theorem Statement.scopingOf_lists (start : Nat) (level : Level) (outer : List Level)
    (statements : List Statement) :
    Lists number (Statement.scopingOf start level outer statements) (Statement.usesOf statements)
      (Statement.usesOf (Statement.linkedAll number start level outer statements))
      (Statement.declarersOf statements) := by
  match statements with
  | [] => exact .nil
  | statement :: rest =>
    exact (Statement.scoping_lists _ _ _ statement).append (Statement.scopingOf_lists _ _ _ rest)

end

end Lists

/-! ## Numbers -/

/-- The accepted declaring nodes of some events are numbered in their order. -/
def Numbered (number : Site → Nat) (events : List LexicalEvent) : Prop :=
  (events.filterMap accepted).map number = List.range (events.filterMap accepted).length

namespace Numbered

variable {number : Site → Nat} {events others : List LexicalEvent}

/-- So are those of the first events. -/
theorem front (numbered : Numbered number (events ++ others)) : Numbered number events := by
  have front := congrArg (List.take (events.filterMap accepted).length) numbered
  rwa [List.filterMap_append, List.map_append, List.take_left' (List.length_map _),
    List.length_append, List.take_range, Nat.min_eq_left (Nat.le_add_right _ _)] at front

/-- The declaring node at a place of the list has the place as its number. -/
theorem at_place (numbered : Numbered number events) {place : Nat} {site : Site}
    (here : (events.filterMap accepted)[place]? = some site) : number site = place := by
  have inside := (List.getElem?_eq_some_iff.mp here).1
  have same := congrArg (·[place]?) numbered
  simpa [here, List.getElem?_range inside] using same

end Numbered

/-- The declaring nodes of a program are numbered in the order of the source. -/
theorem Program.scoping_numbered (program : Program) :
    Numbered program.number program.scoping := by
  have distinct : program.sites.Nodup :=
    List.Pairwise.of_map (·.position) (fun _ _ apart same => apart (congrArg _ same))
      ((Statement.scopingOf_within 0 [] [] program.body).nodup List.nodup_range')
  refine List.ext_getElem (by rw [List.length_map, List.length_range]) fun place inside within => ?_
  rw [List.getElem_map, List.getElem_range]
  exact distinct.idxOf_getElem _ _

end ArrowScript
