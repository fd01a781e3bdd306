import Mathlib.Data.List.Nodup
import ArrowScript.Tree.View

/-!
# Places in a tree

A place is reached from the root by steps to fields of nodes and to items of lists. The places of
a tree are listed depth first: a node or a list, and then what it holds, in the order of its
fields or items.

Nodes of one kind have the same fields, with different names, and no name has a character that a
step begins with. So places that are written alike are the same place.
-/

namespace ArrowScript

/-! ## Steps -/

/-- A step down a tree: to a field of a node, or to an item of a list. -/
inductive Step where
  | field (name : String)
  | item (index : Nat)
  deriving DecidableEq, Repr

namespace Step

/-- A step as it is written. -/
def text : Step → String
  | field name => "." ++ name
  | item index => "[" ++ toString index ++ "]"

/-- Several steps as they are written, one behind the other. -/
def path : List Step → String
  | [] => ""
  | step :: rest => step.text ++ path rest

/-- The character that a step begins with. -/
def opener : Step → Char
  | field _ => '.'
  | item _ => '['

/-- The characters behind the first one. -/
def content : Step → List Char
  | field name => name.toList
  | item index => Nat.toDigits 10 index ++ [']']

/-- Tells whether no step begins with a character. -/
def isInner (char : Char) : Bool := char != '.' && char != '['

/-- A step that ends where the next one begins. -/
def Plain (step : Step) : Prop := ∀ char ∈ step.content, isInner char

/-- A step is written with its first character and its content. -/
theorem toList_text (step : Step) : step.text.toList = step.opener :: step.content := by
  cases step with
  | field name => simp [text, opener, content]
  | item index =>
    simp [text, opener, content, Nat.toString_eq_repr, Nat.repr_eq_ofList_toDigits]

/-- The number of an item has no character that a step begins with. -/
theorem plain_item (index : Nat) : (item index).Plain := by
  intro char member
  rcases List.mem_append.mp member with digit | bracket
  · have digit := Nat.isDigit_of_mem_toDigits (by decide) (by decide) digit
    have dot : char ≠ '.' := fun same => absurd (same ▸ digit) (by decide)
    have bracket : char ≠ '[' := fun same => absurd (same ▸ digit) (by decide)
    simp [isInner, dot, bracket]
  · obtain rfl := List.mem_singleton.mp bracket
    rfl

/-- Steps with the same first character and the same content are the same. -/
theorem eq_of_content {step other : Step} (opener : step.opener = other.opener)
    (content : step.content = other.content) : step = other := by
  cases step with
  | field name =>
    cases other with
    | field further => exact congrArg field (String.toList_injective content)
    | item => exact nomatch opener
  | item index =>
    cases other with
    | field => exact nomatch opener
    | item further =>
      have values := congrArg (Nat.ofDigitChars 10 · 0) (List.append_cancel_right content)
      exact congrArg item (by simpa only [Nat.ofDigitChars_ten_toDigits] using values)

/-- The content of a step ends where the next step begins. -/
theorem takeWhile_content {step : Step} (plain : step.Plain) (rest : List Step) :
    (step.content ++ (path rest).toList).takeWhile isInner = step.content := by
  rw [List.takeWhile_append_of_pos plain]
  cases rest with
  | nil => simp [path]
  | cons next rest => cases next <;> simp [path, toList_text, opener, isInner]

/-- Steps that are written alike are the same. -/
theorem path_injective {steps others : List Step} (plain : ∀ step ∈ steps, step.Plain)
    (otherPlain : ∀ step ∈ others, step.Plain) (same : path steps = path others) :
    steps = others := by
  induction steps generalizing others with
  | nil =>
    cases others with
    | nil => rfl
    | cons other => simpa [path, toList_text] using congrArg String.toList same
  | cons step rest inductionHypothesis =>
    cases others with
    | nil => simpa [path, toList_text] using congrArg String.toList same
    | cons other further =>
      rw [List.forall_mem_cons] at plain otherPlain
      have chars : step.opener :: (step.content ++ (path rest).toList) =
          other.opener :: (other.content ++ (path further).toList) := by
        simpa [path, toList_text] using congrArg String.toList same
      obtain ⟨opener, behind⟩ := List.cons.inj chars
      have content : step.content = other.content := by
        rw [← takeWhile_content plain.1 rest, behind, takeWhile_content otherPlain.1]
      rw [content] at behind
      rw [eq_of_content opener content,
        inductionHypothesis plain.2 otherPlain.2
          (String.toList_injective (List.append_cancel_left behind))]

end Step

/-! ## Places -/

namespace View

/-- What a node or a list holds directly, with the steps to it. -/
def parts : View → List (Step × View)
  | node _ _ _ fields => fields.map fun field => (.field field.1, field.2)
  | list items => items.zipIdx.map fun item => (.item item.2, item.1)
  | _ => []

/-- The steps to what a node holds. -/
theorem steps_node (kind : NodeKind) (offset : Int) (findings : Findings)
    (fields : List (String × View)) :
    (node kind offset findings fields).parts.map Prod.fst =
      (fields.map Prod.fst).map Step.field := by
  rw [parts, List.map_map, List.map_map]
  rfl

/-- The steps to what a list holds. -/
theorem steps_list (items : List View) :
    (list items).parts.map Prod.fst = (List.range items.length).map Step.item := by
  rw [parts, List.range_eq_range', ← List.zipIdx_map_snd, List.map_map, List.map_map]
  rfl

/-- What a view holds is smaller than the view. -/
theorem sizeOf_parts {view : View} {part : Step × View} (among : part ∈ view.parts) :
    sizeOf part.2 < sizeOf view := by
  cases view with
  | node kind offset findings fields =>
    obtain ⟨⟨name, field⟩, listed, rfl⟩ := List.mem_map.mp among
    have inFields := List.sizeOf_lt_of_mem listed
    simp only [Prod.mk.sizeOf_spec] at inFields
    simp only [node.sizeOf_spec]
    omega
  | list items =>
    obtain ⟨⟨item, index⟩, listed, rfl⟩ := List.mem_map.mp among
    have inItems : sizeOf item < sizeOf items :=
      List.sizeOf_lt_of_mem (List.fst_mem_of_mem_zipIdx listed)
    simp only [list.sizeOf_spec]
    omega
  | _ => exact nomatch among

/-- The places of a view, depth first, each of them with the steps to it and what is there. -/
def places (view : View) : List (List Step × View) :=
  ([], view) :: view.parts.attach.flatMap fun part =>
    part.1.2.places.map (Prod.map (part.1.1 :: ·) id)
termination_by sizeOf view
decreasing_by exact sizeOf_parts part.2

/-- Behind the root come the places of what it holds. -/
theorem places_eq (view : View) :
    view.places = ([], view) :: view.parts.flatMap fun part =>
      part.2.places.map (Prod.map (part.1 :: ·) id) := by
  rw [places]
  simp only [List.flatMap_subtype, List.unattach_attach]

/-- Views are settled once what they hold is settled. -/
theorem parts_induction {motive : View → Prop}
    (step : ∀ view, (∀ part ∈ view.parts, motive part.2) → motive view) (view : View) :
    motive view :=
  step view fun part _ => parts_induction step part.2
termination_by sizeOf view
decreasing_by exact sizeOf_parts ‹_›

end View

/-! ## The fields of nodes -/

/-- The names of the fields that nodes of a kind have, in their order. -/
def NodeKind.fieldNames : NodeKind → List String
  | namedAscription | identifier => ["name"]
  | arrayAscription => ["element_type"]
  | functionAscription => ["params", "return_type"]
  | numberLiteral | stringLiteral | booleanLiteral => ["value"]
  | arrayLiteral => ["elements"]
  | member => ["object", "index"]
  | binary => ["left", "operator", "right"]
  | conditional => ["test", "consequent", "alternate"]
  | parameter => ["name", "type_annotation"]
  | arrow => ["params", "return_type", "body"]
  | call => ["callee", "arguments"]
  | constant => ["id", "type_annotation", "init"]
  | returning => ["argument"]
  | block => ["statements"]
  | program => ["body"]
  | plain => []

/-- The fields of a node have different names. -/
theorem NodeKind.fieldNames_nodup (kind : NodeKind) : kind.fieldNames.Nodup := by
  cases kind <;> decide

/-- The name of a field has no character that a step begins with. -/
theorem NodeKind.fieldNames_plain (kind : NodeKind) :
    ∀ name ∈ kind.fieldNames, (Step.field name).Plain := by
  cases kind <;> simp [fieldNames, Step.Plain, Step.content, Step.isInner]

namespace View

/-- A view in which every node has the fields of its kind. -/
inductive Formed : View → Prop
  | node {kind : NodeKind} {offset : Int} {findings : Findings} {fields : List (String × View)}
    (names : fields.map Prod.fst = kind.fieldNames) (formed : ∀ field ∈ fields, Formed field.2) :
    Formed (.node kind offset findings fields)
  | list {items : List View} (formed : ∀ item ∈ items, Formed item) : Formed (.list items)
  | text (value : String) : Formed (.text value)
  | number (value : Numeral) : Formed (.number value)
  | boolean (value : Bool) : Formed (.boolean value)
  | absent : Formed .absent

variable {view : View}

/-- What a formed view holds is formed. -/
theorem Formed.parts (formed : view.Formed) : ∀ part ∈ view.parts, part.2.Formed := by
  intro part among
  cases formed with
  | node names formed =>
    obtain ⟨field, listed, rfl⟩ := List.mem_map.mp among
    exact formed field listed
  | list formed =>
    obtain ⟨item, listed, rfl⟩ := List.mem_map.mp among
    exact formed item.1 (List.fst_mem_of_mem_zipIdx listed)
  | _ => exact nomatch among

/-- Each step leads to something else. -/
theorem Formed.steps_nodup (formed : view.Formed) : (view.parts.map Prod.fst).Nodup := by
  cases formed with
  | @node kind _ _ _ names _ =>
    rw [steps_node, names]
    exact kind.fieldNames_nodup.map fun _ _ same => Step.field.inj same
  | list =>
    rw [steps_list]
    exact List.nodup_range.map fun _ _ same => Step.item.inj same
  | _ => exact List.nodup_nil

/-- Each step ends where the next one begins. -/
theorem Formed.steps_plain (formed : view.Formed) : ∀ part ∈ view.parts, part.1.Plain := by
  intro part among
  cases formed with
  | @node kind _ _ fields names _ =>
    obtain ⟨field, listed, rfl⟩ := List.mem_map.mp among
    exact kind.fieldNames_plain field.1 (names ▸ List.mem_map_of_mem listed)
  | list =>
    obtain ⟨item, _, rfl⟩ := List.mem_map.mp among
    exact Step.plain_item item.2
  | _ => exact nomatch among

/-- All steps to a place end where the next one begins. -/
theorem Formed.places_plain (formed : view.Formed) :
    ∀ place ∈ view.places, ∀ step ∈ place.1, step.Plain := by
  induction view using parts_induction with
  | step view inductionHypothesis =>
    rw [places_eq, List.forall_mem_cons]
    refine ⟨nofun, fun place among => ?_⟩
    obtain ⟨part, held, among⟩ := List.mem_flatMap.mp among
    obtain ⟨below, listed, rfl⟩ := List.mem_map.mp among
    exact List.forall_mem_cons.mpr ⟨formed.steps_plain part held,
      inductionHypothesis part held (formed.parts part held) below listed⟩

/-- No two places are reached by the same steps. -/
theorem Formed.places_nodup (formed : view.Formed) : (view.places.map Prod.fst).Nodup := by
  induction view using parts_induction with
  | step view inductionHypothesis =>
    have below : (view.places.map Prod.fst) = [] :: view.parts.flatMap fun part =>
        (part.2.places.map Prod.fst).map (part.1 :: ·) := by
      rw [places_eq, List.map_cons, List.map_flatMap]
      simp [Function.comp_def]
    rw [below, List.nodup_cons]
    constructor
    · simp
    rw [List.nodup_flatMap]
    refine ⟨fun part held => ?_, ?_⟩
    · exact (inductionHypothesis part held (formed.parts part held)).map
        fun _ _ same => (List.cons.inj same).2
    · refine (List.pairwise_map.mp formed.steps_nodup).imp fun apart => ?_
      intro steps first second
      obtain ⟨_, _, rfl⟩ := List.mem_map.mp first
      obtain ⟨_, _, same⟩ := List.mem_map.mp second
      exact apart (List.cons.inj same).1.symm

/-- No two places are written alike. -/
theorem Formed.paths_nodup (formed : view.Formed) :
    (view.places.map fun place => Step.path place.1).Nodup := by
  have paths : view.places.map (fun place => Step.path place.1) =
      (view.places.map Prod.fst).map Step.path := by simp
  rw [paths]
  refine formed.places_nodup.map_on fun steps first others second same => ?_
  obtain ⟨place, among, rfl⟩ := List.mem_map.mp first
  obtain ⟨other, further, rfl⟩ := List.mem_map.mp second
  exact Step.path_injective (formed.places_plain place among) (formed.places_plain other further)
    same

end View

/-! ## The views of nodes -/

/-- The view of an identifier is formed. -/
theorem Identifier.formed (id : Identifier) : id.view.Formed :=
  .node rfl (by simp [View.Formed.text])

mutual

/-- The view of an ascription is formed. -/
theorem Ascription.formed (type : Ascription) : type.view.Formed := by
  match type with
  | .named _ name => exact .node rfl (by simp [View.Formed.text])
  | .array _ element => exact .node rfl (by simp [element.formed])
  | .function _ params result =>
    exact .node rfl (by simp [View.Formed.list (Parameter.formedAll params), result.formed])

/-- The view of a parameter is formed. -/
theorem Parameter.formed (param : Parameter) : param.view.Formed := by
  match param with
  | { name, ascription := none, .. } =>
    exact .node rfl (by simp [View.Formed.text, View.Formed.absent])
  | { name, ascription := some ascription, .. } =>
    exact .node rfl (by simp [View.Formed.text, ascription.formed])

/-- So are those of several parameters. -/
theorem Parameter.formedAll (params : List Parameter) :
    ∀ view ∈ Parameter.views params, view.Formed := by
  match params with
  | [] => exact nofun
  | param :: rest => exact List.forall_mem_cons.mpr ⟨param.formed, Parameter.formedAll rest⟩

end

/-- The view of an ascription that may be missing is formed. -/
theorem Ascription.formed_viewOf (type : Option Ascription) :
    (Ascription.viewOf type).Formed := by
  cases type with
  | none => exact .absent
  | some type => exact type.formed

mutual

/-- The view of an expression is formed. -/
theorem Expression.formed (expression : Expression) : expression.view.Formed := by
  match expression with
  | .number _ value => exact .node rfl (by simp [View.Formed.number])
  | .string _ value => exact .node rfl (by simp [View.Formed.text])
  | .boolean _ value => exact .node rfl (by simp [View.Formed.boolean])
  | .identifier use => exact use.formed
  | .array _ elements =>
    exact .node rfl (by simp [View.Formed.list (Expression.formedAll elements)])
  | .member _ object index => exact .node rfl (by simp [object.formed, index.formed])
  | .binary _ left operator right =>
    exact .node rfl (by simp [left.formed, View.Formed.text, right.formed])
  | .conditional _ test consequent alternate =>
    exact .node rfl (by simp [test.formed, consequent.formed, alternate.formed])
  | .arrow _ params result body =>
    exact .node rfl (by
      simp [View.Formed.list (Parameter.formedAll params), Ascription.formed_viewOf, body.formed])
  | .call _ callee arguments =>
    exact .node rfl (by simp [callee.formed, View.Formed.list (Expression.formedAll arguments)])

/-- The view of a statement is formed. -/
theorem Statement.formed (statement : Statement) : statement.view.Formed := by
  match statement with
  | .constant _ id ascription initial _ =>
    exact .node rfl (by simp [id.formed, Ascription.formed_viewOf, initial.formed])
  | .returning _ none _ => exact .node rfl (by simp [View.Formed.absent])
  | .returning _ (some argument) _ => exact .node rfl (by simp [argument.formed])

/-- The view of a block is formed. -/
theorem Block.formed (block : Block) : block.view.Formed := by
  match block with
  | { statements, .. } =>
    exact .node rfl (by simp [View.Formed.list (Statement.formedAll statements)])

/-- The views of several expressions are formed. -/
theorem Expression.formedAll (expressions : List Expression) :
    ∀ view ∈ Expression.views expressions, view.Formed := by
  match expressions with
  | [] => exact nofun
  | expression :: rest =>
    exact List.forall_mem_cons.mpr ⟨expression.formed, Expression.formedAll rest⟩

/-- The views of several statements are formed. -/
theorem Statement.formedAll (statements : List Statement) :
    ∀ view ∈ Statement.views statements, view.Formed := by
  match statements with
  | [] => exact nofun
  | statement :: rest =>
    exact List.forall_mem_cons.mpr ⟨statement.formed, Statement.formedAll rest⟩

end

/-- The view of a node is formed. -/
theorem Node.formed (node : Node) : node.view.Formed := by
  cases node with
  | ascription root => exact root.formed
  | parameter root => exact root.formed
  | expression root => exact root.formed
  | statement root => exact root.formed
  | block root => exact root.formed
  | program root => exact .node rfl (by simp [View.Formed.list (Statement.formedAll root.body)])
  | plain => exact .node rfl nofun

end ArrowScript
