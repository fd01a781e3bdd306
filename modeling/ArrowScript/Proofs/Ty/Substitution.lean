import Mathlib.Logic.Relation
import ArrowScript.Ty

/-!
# Terms under substitution

The variables of a term, and what a substitution does to them. Two substitutions
agree on a term exactly when they agree on its variables, and the variables of a
substituted term are those of the terms put in.

A term is a part of another when the other is built from it. A substitution keeps
the parts where they are, and no term is a part of itself: this is what refuses a
variable inside the term that it would be bound to.
-/

namespace ArrowScript.Ty

/-- Induction over terms. A function follows from all of its parameters and its
result. -/
@[induction_eliminator]
theorem induction {motive : Ty → Prop} (var : ∀ id, motive (.var id))
    (primitive : ∀ kind, motive (.primitive kind))
    (array : ∀ element, motive element → motive (.array element))
    (function : ∀ params result, (∀ param ∈ params, motive param) → motive result →
      motive (.function params result))
    (shapeless : motive .shapeless) (term : Ty) : motive term :=
  @Ty.rec motive (fun terms => ∀ term ∈ terms, motive term) var primitive array function
    shapeless (by simp) (fun first rest holds others => by simpa using ⟨holds, others⟩) term

/-- Substitution in several terms is substitution in each of them. -/
@[simp]
theorem substituteAll_eq_map (replacement : VariableId → Ty) (terms : List Ty) :
    substituteAll replacement terms = terms.map (·.substitute replacement) := by
  induction terms with
  | nil => rfl
  | cons first rest inductionHypothesis => simp [substituteAll, inductionHypothesis]

mutual

/-- The variables of a term, from left to right. -/
def vars : Ty → List VariableId
  | var id => [id]
  | primitive _ => []
  | array element => element.vars
  | function params result => varsOf params ++ result.vars
  | shapeless => []

/-- The variables of several terms, from left to right. -/
def varsOf : List Ty → List VariableId
  | [] => []
  | term :: rest => term.vars ++ varsOf rest

end

attribute [simp] vars varsOf substitute

/-- A variable of several terms is a variable of one of them. -/
@[simp]
theorem mem_varsOf {id : VariableId} {terms : List Ty} :
    id ∈ varsOf terms ↔ ∃ term ∈ terms, id ∈ term.vars := by
  induction terms with
  | nil => simp
  | cons first rest inductionHypothesis => simp [inductionHypothesis]

/-- The variables of two lists of terms, one after the other. -/
theorem varsOf_append (terms others : List Ty) :
    varsOf (terms ++ others) = varsOf terms ++ varsOf others := by
  induction terms with
  | nil => rfl
  | cons first rest inductionHypothesis => simp [inductionHypothesis]

/-- Substitutions give the same term exactly when they agree on its variables. -/
theorem substitute_eq_iff (term : Ty) (first second : VariableId → Ty) :
    term.substitute first = term.substitute second ↔
      ∀ id ∈ term.vars, first id = second id := by
  induction term with
  | var id => simp
  | primitive kind => simp
  | array element inductionHypothesis => simpa using inductionHypothesis
  | function params result paramsHypothesis resultHypothesis =>
    simp only [substitute, substituteAll_eq_map, function.injEq, List.map_inj_left, vars,
      List.mem_append, mem_varsOf, resultHypothesis]
    constructor
    · rintro ⟨inParams, inResult⟩ id (⟨param, member, occurs⟩ | occurs)
      · exact (paramsHypothesis param member).mp (inParams param member) id occurs
      · exact inResult id occurs
    · intro agree
      refine ⟨fun param member => ?_, fun id occurs => agree id (.inr occurs)⟩
      exact (paramsHypothesis param member).mpr fun id occurs =>
        agree id (.inl ⟨param, member, occurs⟩)
  | shapeless => simp

/-- Substitutions that agree on the variables of a term give the same term. -/
theorem substitute_congr {term : Ty} {first second : VariableId → Ty}
    (agree : ∀ id ∈ term.vars, first id = second id) :
    term.substitute first = term.substitute second :=
  (substitute_eq_iff term first second).mpr agree

/-- Variables that stand for themselves leave a term as it is. -/
@[simp]
theorem substitute_var (term : Ty) : term.substitute var = term := by
  induction term with
  | var id => rfl
  | primitive kind => rfl
  | array element inductionHypothesis => simp [inductionHypothesis]
  | function params result paramsHypothesis resultHypothesis =>
    have same : params.map (·.substitute var) = params :=
      (List.map_congr_left paramsHypothesis).trans (List.map_id' params)
    simp [same, resultHypothesis]
  | shapeless => rfl

/-- Two substitutions, one after the other, are one. -/
theorem substitute_substitute (term : Ty) (first second : VariableId → Ty) :
    (term.substitute first).substitute second =
      term.substitute fun id => (first id).substitute second := by
  induction term with
  | var id => rfl
  | primitive kind => rfl
  | array element inductionHypothesis => simp [inductionHypothesis]
  | function params result paramsHypothesis resultHypothesis =>
    simp only [substitute, substituteAll_eq_map, List.map_map, function.injEq]
    exact ⟨List.map_congr_left paramsHypothesis, resultHypothesis⟩
  | shapeless => rfl

/-- The variables of a substituted term are those of the terms that were put in. -/
@[simp]
theorem mem_vars_substitute {term : Ty} {replacement : VariableId → Ty} {id : VariableId} :
    id ∈ (term.substitute replacement).vars ↔
      ∃ place ∈ term.vars, id ∈ (replacement place).vars := by
  induction term with
  | var place => simp
  | primitive kind => simp
  | array element inductionHypothesis => simpa using inductionHypothesis
  | function params result paramsHypothesis resultHypothesis =>
    simp only [substitute, substituteAll_eq_map, vars, List.mem_append, mem_varsOf,
      List.mem_map, resultHypothesis]
    constructor
    · rintro (⟨_, ⟨param, member, rfl⟩, occurs⟩ | ⟨place, member, occurs⟩)
      · obtain ⟨place, inParam, found⟩ := (paramsHypothesis param member).mp occurs
        exact ⟨place, .inl ⟨param, member, inParam⟩, found⟩
      · exact ⟨place, .inr member, occurs⟩
    · rintro ⟨place, ⟨param, member, inParam⟩ | inResult, occurs⟩
      · have found := (paramsHypothesis param member).mpr ⟨place, inParam, occurs⟩
        exact .inl ⟨_, ⟨param, member, rfl⟩, found⟩
      · exact .inr ⟨place, inResult, occurs⟩
  | shapeless => simp

/-- The substitution of a term for one variable. -/
def binding (id : VariableId) (term : Ty) : VariableId → Ty :=
  fun other => if other = id then term else .var other

/-- A variable that does not occur can be replaced without effect. -/
theorem substitute_binding_of_notMem {term : Ty} {id : VariableId} (image : Ty)
    (absent : id ∉ term.vars) : term.substitute (binding id image) = term := by
  refine (substitute_congr fun other occurs => ?_).trans (substitute_var term)
  have apart : other ≠ id := fun same => absent (same ▸ occurs)
  exact if_neg apart

mutual

/-- A term over the first variables of a store: it is composed of them, of primitives,
arrays and functions, and nowhere shapeless. -/
def Over (count : Nat) : Ty → Prop
  | var id => id < count
  | primitive _ => True
  | array element => element.Over count
  | function params result => AllOver count params ∧ result.Over count
  | shapeless => False

/-- Several terms over the first variables of a store. -/
def AllOver (count : Nat) : List Ty → Prop
  | [] => True
  | term :: rest => term.Over count ∧ AllOver count rest

end

attribute [simp] Over AllOver

/-- A variable is over the variables that it is among. -/
theorem over_var {count : Nat} {id : VariableId} : (var id).Over count ↔ id < count := Iff.rfl

/-- Several terms are over the same variables when each of them is. -/
@[simp]
theorem allOver_iff {count : Nat} {terms : List Ty} :
    AllOver count terms ↔ ∀ term ∈ terms, term.Over count := by
  induction terms with
  | nil => simp
  | cons first rest inductionHypothesis => simp [inductionHypothesis]

/-- The variables of a term over the first ones are among them. -/
theorem Over.lt {count : Nat} {term : Ty} (covered : term.Over count) {id : VariableId}
    (occurs : id ∈ term.vars) : id < count := by
  induction term with
  | var place => simp_all
  | primitive kind => simp at occurs
  | array element inductionHypothesis => exact inductionHypothesis covered occurs
  | function params result paramsHypothesis resultHypothesis =>
    simp only [Over, allOver_iff] at covered
    simp only [vars, List.mem_append, mem_varsOf] at occurs
    obtain ⟨param, member, found⟩ | found := occurs
    · exact paramsHypothesis param member (covered.1 param member) found
    · exact resultHypothesis covered.2 found
  | shapeless => simp at covered

/-- Substitutions that agree on the first variables give the same term. -/
theorem Over.substitute_eq {count : Nat} {term : Ty} (covered : term.Over count)
    {first second : VariableId → Ty} (agree : ∀ id < count, first id = second id) :
    term.substitute first = term.substitute second :=
  substitute_congr fun id occurs => agree id (covered.lt occurs)

/-- A term stays over its variables when others put in for them are over theirs. -/
theorem Over.substitute {count wider : Nat} {term : Ty} (covered : term.Over count)
    {replacement : VariableId → Ty}
    (images : ∀ id ∈ term.vars, (replacement id).Over wider) :
    (term.substitute replacement).Over wider := by
  induction term with
  | var id => exact images id (by simp)
  | primitive kind => simp
  | array element inductionHypothesis => exact inductionHypothesis covered images
  | function params result paramsHypothesis resultHypothesis =>
    simp only [Over, allOver_iff] at covered
    simp only [vars, List.mem_append, mem_varsOf] at images
    simp only [Ty.substitute, substituteAll_eq_map, Over, allOver_iff, List.mem_map]
    constructor
    · rintro _ ⟨param, member, rfl⟩
      exact paramsHypothesis param member (covered.1 param member) fun id occurs =>
        images id (.inl ⟨param, member, occurs⟩)
    · exact resultHypothesis covered.2 fun id occurs => images id (.inr occurs)
  | shapeless => simp at covered

/-- A term over some variables is over any others among which its own are. -/
theorem Over.of_vars {count other : Nat} {term : Ty} (covered : term.Over count)
    (inside : ∀ id ∈ term.vars, id < other) : term.Over other := by
  have unchanged : (term.substitute var).Over other := covered.substitute inside
  simpa using unchanged

/-- More variables are room for the same terms. -/
theorem Over.mono {count wider : Nat} {term : Ty} (covered : term.Over count)
    (bound : count ≤ wider) : term.Over wider :=
  covered.of_vars fun _ occurs => Nat.lt_of_lt_of_le (covered.lt occurs) bound

/-- The terms that another is built from directly. -/
inductive Part : Ty → Ty → Prop
  | element (element : Ty) : Part element (.array element)
  | param {param : Ty} {params : List Ty} (result : Ty) (member : param ∈ params) :
    Part param (.function params result)
  | result (params : List Ty) (result : Ty) : Part result (.function params result)

/-- One term stands at some depth inside another. -/
def Inside : Ty → Ty → Prop := Relation.TransGen Part

/-- A part is smaller than the whole. -/
theorem Part.sizeOf_lt {part whole : Ty} (isPart : Part part whole) :
    sizeOf part < sizeOf whole := by
  cases isPart with
  | element => simp
  | param result member =>
    have smaller := List.sizeOf_lt_of_mem member
    simp only [function.sizeOf_spec]
    omega
  | result params =>
    simp only [function.sizeOf_spec]
    omega

/-- A part is over the variables that the whole is over. -/
theorem Part.covered {count : Nat} {part whole : Ty} (isPart : Part part whole)
    (covered : whole.Over count) : part.Over count := by
  cases isPart with
  | element => exact covered
  | param result member =>
    simp only [Over, allOver_iff] at covered
    exact covered.1 _ member
  | result params => exact covered.2

/-- What stands inside a term is smaller than it. -/
theorem Inside.sizeOf_lt {inner outer : Ty} (inside : Inside inner outer) :
    sizeOf inner < sizeOf outer := by
  induction inside with
  | single isPart => exact isPart.sizeOf_lt
  | tail _ isPart inductionHypothesis => exact Nat.lt_trans inductionHypothesis isPart.sizeOf_lt

/-- No term stands inside itself. -/
theorem Inside.irrefl (term : Ty) : ¬ Inside term term :=
  fun inside => Nat.lt_irrefl _ inside.sizeOf_lt

/-- A substitution keeps a part where it is. -/
theorem Part.substitute {part whole : Ty} (isPart : Part part whole)
    (replacement : VariableId → Ty) :
    Part (part.substitute replacement) (whole.substitute replacement) := by
  cases isPart with
  | element => exact .element _
  | param result member =>
    simp only [Ty.substitute, substituteAll_eq_map]
    exact .param _ (List.mem_map_of_mem member)
  | result params =>
    simp only [Ty.substitute, substituteAll_eq_map]
    exact .result _ _

/-- A substitution keeps what stands inside a term inside it. -/
theorem Inside.substitute {inner outer : Ty} (inside : Inside inner outer)
    (replacement : VariableId → Ty) :
    Inside (inner.substitute replacement) (outer.substitute replacement) := by
  induction inside with
  | single isPart => exact .single (isPart.substitute replacement)
  | tail _ isPart inductionHypothesis =>
    exact .tail inductionHypothesis (isPart.substitute replacement)

/-- A variable of a term is the whole term or stands inside it. -/
theorem eq_or_inside_of_mem_vars {term : Ty} {id : VariableId}
    (occurs : id ∈ term.vars) : term = var id ∨ Inside (var id) term := by
  have below {part whole : Ty} (isPart : Part part whole)
      (found : part = var id ∨ Inside (var id) part) : Inside (var id) whole := by
    obtain rfl | inside := found
    · exact .single isPart
    · exact .tail inside isPart
  induction term with
  | var place => simp_all
  | primitive kind => simp at occurs
  | array element inductionHypothesis =>
    exact .inr (below (.element element) (inductionHypothesis occurs))
  | function params result paramsHypothesis resultHypothesis =>
    simp only [vars, List.mem_append, mem_varsOf] at occurs
    obtain ⟨param, member, found⟩ | found := occurs
    · exact .inr (below (.param result member) (paramsHypothesis param member found))
    · exact .inr (below (.result params result) (resultHypothesis found))
  | shapeless => simp at occurs

/-- No substitution makes a variable equal to a term that properly contains it. -/
theorem substitute_ne_of_mem_vars {term : Ty} {id : VariableId}
    (occurs : id ∈ term.vars) (proper : term ≠ var id) (replacement : VariableId → Ty) :
    replacement id ≠ term.substitute replacement := by
  intro same
  obtain rfl | inside := eq_or_inside_of_mem_vars occurs
  · exact proper rfl
  · have contained := inside.substitute replacement
    rw [Ty.substitute, same] at contained
    exact Inside.irrefl _ contained

end ArrowScript.Ty
