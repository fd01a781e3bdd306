import ArrowScript.Proofs.Ty.Frame

/-!
# Stores that mirror each other

What an operation on a store does is determined by what the terms in hand stand for. The
numbers of the variables, the links between them and the lengths of their chains do not
matter. So an operation can be followed in another store, in which the same terms stand
for the same up to a renaming of the variables.

The exchange is fixed for all time: a variable that is added to one store has the variable
that is added to the other as its image.
-/

namespace ArrowScript

/-! ## Renamed terms -/

namespace Ty

variable {exchange : VariableId → VariableId}

/-- A term with all variables renamed. -/
def rename (exchange : VariableId → VariableId) (term : Ty) : Ty :=
  term.substitute fun id => .var (exchange id)

/-- A renamed variable. -/
@[simp]
theorem rename_var (id : VariableId) : (var id).rename exchange = var (exchange id) := rfl

/-- A function is renamed in its parts. -/
@[simp]
theorem rename_function (params : List Ty) (result : Ty) :
    (function params result).rename exchange =
      function (params.map (Ty.rename exchange)) (result.rename exchange) := by
  rw [Ty.rename, substitute, substituteAll_eq_map]
  rfl

/-- The variables of a renamed term. -/
@[simp]
theorem mem_vars_rename {term : Ty} {id : VariableId} :
    id ∈ (term.rename exchange).vars ↔ ∃ place ∈ term.vars, exchange place = id := by
  simp only [Ty.rename, mem_vars_substitute, vars, List.mem_singleton, eq_comm]

/-- A variable occurs where its image does. -/
theorem mem_vars_rename_iff (injective : Function.Injective exchange) {term : Ty}
    {id : VariableId} : exchange id ∈ (term.rename exchange).vars ↔ id ∈ term.vars := by
  rw [mem_vars_rename]
  constructor
  · rintro ⟨place, occurs, same⟩
    exact injective same ▸ occurs
  · exact fun occurs => ⟨id, occurs, rfl⟩

/-- Renamings that agree on the variables of a term rename it alike. -/
theorem rename_congr {other : VariableId → VariableId} {term : Ty}
    (agree : ∀ id ∈ term.vars, exchange id = other id) : term.rename exchange = term.rename other :=
  substitute_congr fun id occurs => congrArg var (agree id occurs)

/-- A renaming that keeps the variables of a term keeps the term. -/
theorem rename_eq_self {term : Ty} (kept : ∀ id ∈ term.vars, exchange id = id) :
    term.rename exchange = term :=
  (substitute_congr fun id occurs => congrArg var (kept id occurs)).trans (substitute_var term)

/-- Two renamings, one after the other. -/
theorem rename_rename (other : VariableId → VariableId) (term : Ty) :
    (term.rename exchange).rename other = term.rename (other ∘ exchange) :=
  substitute_substitute term _ _

/-- A renamed term under a substitution. -/
theorem substitute_rename (term : Ty) (replacement : VariableId → Ty) :
    (term.rename exchange).substitute replacement = term.substitute (replacement ∘ exchange) :=
  substitute_substitute term _ _

/-- Renaming behind a substitution. -/
theorem rename_substitute (term : Ty) (replacement : VariableId → Ty) :
    (term.substitute replacement).rename exchange =
      term.substitute fun id => (replacement id).rename exchange :=
  substitute_substitute term _ _

/-- Replacing a variable before or behind a renaming. -/
theorem rename_binding (injective : Function.Injective exchange) (id : VariableId)
    (image term : Ty) :
    (term.substitute (binding id image)).rename exchange =
      (term.rename exchange).substitute (binding (exchange id) (image.rename exchange)) := by
  rw [rename_substitute, substitute_rename]
  apply substitute_congr
  intro place _
  by_cases here : place = id
  · rw [Function.comp_apply, binding, binding, if_pos here, here, if_pos rfl]
  · have apart : exchange place ≠ exchange id := fun same => here (injective same)
    rw [Function.comp_apply, binding, binding, if_neg here, if_neg apart, rename_var]

end Ty

namespace Store

variable {exchange : VariableId → VariableId} {one other oneAfter otherAfter : Store}
  {term image : Ty}

/-- One store mirrors another: renamed terms stand for the same in it, renamed. The next
variables of both correspond. -/
structure Mirrors (exchange : VariableId → VariableId) (one other : Store) : Prop where
  sound : one.Sound
  otherSound : other.Sound
  injective : Function.Injective exchange
  next : ∀ count, exchange (one.cells.size + count) = other.cells.size + count
  resolve_eq : ∀ term, other.resolve (term.rename exchange) = (one.resolve term).rename exchange

/-- A term of one store stands for what another stands for in the other store, up to the
exchange. -/
structure Image (exchange : VariableId → VariableId) (one other : Store) (term image : Ty) :
    Prop where
  covered : term.Over one.cells.size
  imageOver : image.Over other.cells.size
  resolve_eq : other.resolve image = (one.resolve term).rename exchange

/-- Two stores that mirror each other have become two others that do. -/
structure Advance (exchange : VariableId → VariableId) (one other oneAfter otherAfter : Store) :
    Prop where
  refines : Refines one oneAfter
  otherRefines : Refines other otherAfter
  mirrors : Mirrors exchange oneAfter otherAfter

/-- Two terms of the same form. Variables correspond, and so do parts. -/
inductive SameForm (exchange : VariableId → VariableId) (one other : Store) : Ty → Ty → Prop
  | var {id : VariableId} (inside : id < one.cells.size) :
    SameForm exchange one other (.var id) (.var (exchange id))
  | primitive (kind : Primitive) : SameForm exchange one other (.primitive kind) (.primitive kind)
  | array {element image : Ty} (same : Image exchange one other element image) :
    SameForm exchange one other (.array element) (.array image)
  | function {params images : List Ty} {result image : Ty}
    (paramsSame : List.Forall₂ (Image exchange one other) params images)
    (same : Image exchange one other result image) :
    SameForm exchange one other (.function params result) (.function images image)

/-! ## Variables of both stores -/

namespace Mirrors

/-- Variables of one store are renamed to variables of the other. -/
theorem lt (mirrors : Mirrors exchange one other) {id : VariableId}
    (inside : id < one.cells.size) : exchange id < other.cells.size := by
  by_contra outside
  have next := mirrors.next (exchange id - other.cells.size)
  rw [Nat.add_sub_cancel' (Nat.le_of_not_lt outside)] at next
  have same := mirrors.injective next
  exact absurd (same ▸ Nat.le_add_right _ _) (Nat.not_le.mpr inside)

/-- A variable is free exactly when its image is. -/
theorem free_iff (mirrors : Mirrors exchange one other) (id : VariableId) :
    other.Free (exchange id) ↔ one.Free id := by
  have same := mirrors.resolve_eq (.var id)
  rw [Ty.rename_var] at same
  constructor
  · intro free
    rw [resolve_free free] at same
    have here : id ∈ (one.resolve (.var id)).vars := by
      rw [← Ty.mem_vars_rename_iff mirrors.injective, ← same]
      exact List.mem_singleton_self _
    exact mirrors.sound.acyclic.free_of_mem_resolve here
  · intro free
    rw [resolve_free free] at same
    have here : exchange id ∈ (other.resolve (.var (exchange id))).vars := by
      rw [same]
      exact List.mem_singleton_self _
    exact mirrors.otherSound.acyclic.free_of_mem_resolve here

/-- A renamed term is an image of the term. -/
theorem image_rename (mirrors : Mirrors exchange one other) (covered : term.Over one.cells.size) :
    Image exchange one other term (term.rename exchange) where
  covered
  imageOver := covered.substitute fun _ occurs => mirrors.lt (covered.lt occurs)
  resolve_eq := mirrors.resolve_eq term

end Mirrors

/-! ## Later stores -/

namespace Advance

/-- Nothing has changed. -/
theorem refl (mirrors : Mirrors exchange one other) : Advance exchange one other one other where
  refines := .of_agrees (.refl one) mirrors.sound
  otherRefines := .of_agrees (.refl other) mirrors.otherSound
  mirrors

/-- Stores can become others again and again. -/
theorem trans {last otherLast : Store} (first : Advance exchange one other oneAfter otherAfter)
    (second : Advance exchange oneAfter otherAfter last otherLast) :
    Advance exchange one other last otherLast where
  refines := first.refines.trans second.refines
  otherRefines := first.otherRefines.trans second.otherRefines
  mirrors := second.mirrors

/-- Shorter chains make no difference. -/
theorem of_agrees (mirrors : Mirrors exchange one other) (agrees : Agrees one oneAfter)
    (otherAgrees : Agrees other otherAfter) (size : oneAfter.cells.size = one.cells.size)
    (otherSize : otherAfter.cells.size = other.cells.size) :
    Advance exchange one other oneAfter otherAfter where
  refines := .of_agrees agrees mirrors.sound
  otherRefines := .of_agrees otherAgrees mirrors.otherSound
  mirrors :=
    { sound := agrees.sound mirrors.sound
      otherSound := otherAgrees.sound mirrors.otherSound
      injective := mirrors.injective
      next := by
        rw [size, otherSize]
        exact mirrors.next
      resolve_eq := fun term => by
        rw [agrees.resolve_eq, otherAgrees.resolve_eq]
        exact mirrors.resolve_eq term }

/-- Two variables can be linked to terms that correspond. -/
theorem setLink (mirrors : Mirrors exchange one other) {id : VariableId}
    (inside : id < one.cells.size) (free : one.Free id) (absent : id ∉ (one.resolve term).vars)
    (same : Image exchange one other term image) :
    Advance exchange one other (one.setLink id term) (other.setLink (exchange id) image) := by
  have otherInside := mirrors.lt inside
  have otherFree := (mirrors.free_iff id).mpr free
  have otherAbsent : exchange id ∉ (other.resolve image).vars := by
    rw [same.resolve_eq, Ty.mem_vars_rename_iff mirrors.injective]
    exact absent
  exact
    { refines := .setLink mirrors.sound inside free same.covered absent
      otherRefines := .setLink mirrors.otherSound otherInside otherFree same.imageOver otherAbsent
      mirrors :=
        { sound := mirrors.sound.setLink free same.covered absent
          otherSound := mirrors.otherSound.setLink otherFree same.imageOver otherAbsent
          injective := mirrors.injective
          next := by
            rw [size_setLink, size_setLink]
            exact mirrors.next
          resolve_eq := fun place => by
            rw [mirrors.otherSound.acyclic.resolve_setLink otherInside otherFree otherAbsent,
              mirrors.sound.acyclic.resolve_setLink inside free absent, same.resolve_eq,
              mirrors.resolve_eq, Ty.rename_binding mirrors.injective] } }

end Advance

/-! ## Corresponding terms -/

namespace Image

/-- An image is one in all later stores. -/
theorem onward (same : Image exchange one other term image)
    (advance : Advance exchange one other oneAfter otherAfter) :
    Image exchange oneAfter otherAfter term image where
  covered := same.covered.mono advance.refines.size_le
  imageOver := same.imageOver.mono advance.otherRefines.size_le
  resolve_eq := calc otherAfter.resolve image
      = otherAfter.resolve (other.resolve image) :=
        (advance.otherRefines.resolve_resolve image).symm
    _ = otherAfter.resolve ((one.resolve term).rename exchange) := by rw [same.resolve_eq]
    _ = (oneAfter.resolve (one.resolve term)).rename exchange := advance.mirrors.resolve_eq _
    _ = (oneAfter.resolve term).rename exchange := by rw [advance.refines.resolve_resolve]

/-- A primitive is its own image. -/
theorem primitive (kind : Primitive) :
    Image exchange one other (.primitive kind) (.primitive kind) where
  covered := trivial
  imageOver := trivial
  resolve_eq := rfl

/-- Arrays correspond when their elements do. -/
theorem array (same : Image exchange one other term image) :
    Image exchange one other (.array term) (.array image) where
  covered := same.covered
  imageOver := same.imageOver
  resolve_eq := congrArg Ty.array same.resolve_eq

/-- Several terms correspond when they are over the variables of their stores, and what they
stand for corresponds. -/
theorem forall_iff {terms images : List Ty} :
    List.Forall₂ (Image exchange one other) terms images ↔
      Ty.AllOver one.cells.size terms ∧ Ty.AllOver other.cells.size images ∧
        images.map other.resolve = terms.map fun term => (one.resolve term).rename exchange := by
  constructor
  · intro same
    induction same with
    | nil => exact ⟨trivial, trivial, rfl⟩
    | cons first _ inductionHypothesis =>
      obtain ⟨covered, imagesOver, resolved⟩ := inductionHypothesis
      refine ⟨⟨first.covered, covered⟩, ⟨first.imageOver, imagesOver⟩, ?_⟩
      rw [List.map_cons, List.map_cons, resolved, first.resolve_eq]
  · rintro ⟨covered, imagesOver, resolved⟩
    induction terms generalizing images with
    | nil =>
      cases List.map_eq_nil_iff.mp resolved
      exact .nil
    | cons term rest inductionHypothesis =>
      cases images with
      | nil => exact nomatch resolved
      | cons image others =>
        obtain ⟨here, further⟩ := List.cons.inj resolved
        apply List.Forall₂.cons ⟨covered.1, imagesOver.1, here⟩
        exact inductionHypothesis covered.2 imagesOver.2 further

/-- Functions correspond when their parts do. -/
theorem function {params images : List Ty}
    (paramsSame : List.Forall₂ (Image exchange one other) params images)
    (same : Image exchange one other term image) :
    Image exchange one other (.function params term) (.function images image) := by
  obtain ⟨covered, imagesOver, resolved⟩ := forall_iff.mp paramsSame
  refine ⟨⟨covered, same.covered⟩, ⟨imagesOver, same.imageOver⟩, ?_⟩
  rw [resolve_function, resolve_function, Ty.rename_function, List.map_map, resolved,
    same.resolve_eq]
  rfl

/-- A variable occurs in what one of several terms stands for exactly when its image occurs
in what one of the images stands for. -/
theorem occurs_iff (injective : Function.Injective exchange) {terms images : List Ty}
    (same : List.Forall₂ (Image exchange one other) terms images) (id : VariableId) :
    (∃ image ∈ images, exchange id ∈ (other.resolve image).vars) ↔
      ∃ term ∈ terms, id ∈ (one.resolve term).vars := by
  induction same with
  | nil => simp only [List.not_mem_nil, false_and, exists_false]
  | cons first _ inductionHypothesis =>
    rw [List.exists_mem_cons_iff, List.exists_mem_cons_iff, inductionHypothesis, first.resolve_eq,
      Ty.mem_vars_rename_iff injective]

/-- Terms that correspond and are the ends of their chains have the same form. -/
theorem form (same : Image exchange one other term image)
    (ended : ∀ id, term = .var id → one.Free id)
    (imageEnded : ∀ id, image = .var id → other.Free id) :
    SameForm exchange one other term image := by
  obtain ⟨covered, imageOver, stands⟩ := same
  cases term with
  | var id =>
    rw [resolve_free (ended id rfl), Ty.rename_var] at stands
    cases image with
    | var place =>
      rw [resolve_free (imageEnded place rfl)] at stands
      rw [stands]
      exact .var covered
    | primitive kind => exact nomatch stands
    | array element => exact nomatch stands
    | function params result => exact nomatch (resolve_function ..).symm.trans stands
    | shapeless => exact absurd imageOver not_false
  | primitive kind =>
    cases image with
    | var place => exact nomatch (resolve_free (imageEnded place rfl)).symm.trans stands
    | primitive other =>
      cases stands
      exact .primitive _
    | array element => exact nomatch stands
    | function params result => exact nomatch (resolve_function ..).symm.trans stands
    | shapeless => exact absurd imageOver not_false
  | array element =>
    cases image with
    | var place => exact nomatch (resolve_free (imageEnded place rfl)).symm.trans stands
    | primitive other => exact nomatch stands
    | array imageElement => exact .array ⟨covered, imageOver, Ty.array.inj stands⟩
    | function params result => exact nomatch (resolve_function ..).symm.trans stands
    | shapeless => exact absurd imageOver not_false
  | function params result =>
    rw [resolve_function, Ty.rename_function, List.map_map] at stands
    cases image with
    | var place => exact nomatch (resolve_free (imageEnded place rfl)).symm.trans stands
    | primitive other => exact nomatch stands
    | array imageElement => exact nomatch stands
    | function images imageResult =>
      rw [resolve_function, Ty.function.injEq] at stands
      apply SameForm.function _ ⟨covered.2, imageOver.2, stands.2⟩
      exact forall_iff.mpr ⟨covered.1, imageOver.1, stands.1⟩
    | shapeless => exact absurd imageOver not_false
  | shapeless => exact absurd covered not_false

end Image

/-- Terms of the same form correspond. -/
theorem SameForm.same (form : SameForm exchange one other term image)
    (mirrors : Mirrors exchange one other) : Image exchange one other term image := by
  cases form with
  | var inside => exact mirrors.image_rename (Ty.over_var.mpr inside)
  | primitive kind => exact .primitive kind
  | array same => exact same.array
  | function paramsSame same => exact .function paramsSame same

/-- Terms that correspond do so in all later stores. -/
theorem forall_onward {terms images : List Ty}
    (same : List.Forall₂ (Image exchange one other) terms images)
    (advance : Advance exchange one other oneAfter otherAfter) :
    List.Forall₂ (Image exchange oneAfter otherAfter) terms images :=
  same.imp fun _ _ first => first.onward advance

/-- Terms have the same form in all later stores. -/
theorem SameForm.onward (form : SameForm exchange one other term image)
    (advance : Advance exchange one other oneAfter otherAfter) :
    SameForm exchange oneAfter otherAfter term image := by
  cases form with
  | var inside => exact .var (Nat.lt_of_lt_of_le inside advance.refines.size_le)
  | primitive kind => exact .primitive kind
  | array same => exact .array (same.onward advance)
  | function paramsSame same =>
    exact .function (forall_onward paramsSame advance) (same.onward advance)

/-- Of two terms of the same form both are variables or none. -/
theorem SameForm.proper_iff (form : SameForm exchange one other term image) :
    (∀ id, image ≠ .var id) ↔ ∀ id, term ≠ .var id := by
  cases form with
  | var => exact ⟨fun proper => absurd rfl (proper _), fun proper => absurd rfl (proper _)⟩
  | primitive => exact ⟨fun _ => nofun, fun _ => nofun⟩
  | array => exact ⟨fun _ => nofun, fun _ => nofun⟩
  | function => exact ⟨fun _ => nofun, fun _ => nofun⟩

end Store

end ArrowScript
