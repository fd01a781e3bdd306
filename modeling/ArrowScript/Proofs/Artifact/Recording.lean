import ArrowScript.Artifact
import ArrowScript.Proofs.Json.Layout
import ArrowScript.Proofs.Ty.Printing

/-!
# What the document of a tree records

Nodes are written without their kinds. In a document of an expression the kind is told by the
name of the first field and by what kind of value the field has: three kinds of literals have
the same field, and only the values tell them apart. An ascription, a parameter or an
identifier may have the same fields, but each of them stands where none of the others does. So
the text of a program records everything of its tree but the links of names. Floats that are no
numbers, which no source has, are written alike.
-/

namespace ArrowScript

/-! ## Recorded trees -/

/-- An identifier as far as it is recorded. -/
def Identifier.recorded (id : Identifier) : Identifier := { id with declaration := none }

mutual

/-- An ascription as far as it is recorded. -/
def Ascription.recorded : Ascription → Ascription
  | .named offset name => .named offset name
  | .array offset element => .array offset element.recorded
  | .function offset params result =>
    .function offset (Parameter.recordedAll params) result.recorded

/-- A parameter as far as it is recorded. -/
def Parameter.recorded : Parameter → Parameter
  | { offset, name, ascription := none, .. } => { offset, name }
  | { offset, name, ascription := some ascription, .. } =>
    { offset, name, ascription := some ascription.recorded }

/-- Several parameters as far as they are recorded. -/
def Parameter.recordedAll : List Parameter → List Parameter
  | [] => []
  | param :: rest => param.recorded :: Parameter.recordedAll rest

end

mutual

/-- An expression as far as it is recorded. -/
def Expression.recorded : Expression → Expression
  | .number offset value => .number offset value.recorded
  | .string offset value => .string offset value
  | .boolean offset value => .boolean offset value
  | .identifier use => .identifier use.recorded
  | .array offset elements => .array offset (Expression.recordedAll elements)
  | .member offset object index => .member offset object.recorded index.recorded
  | .binary offset left operator right => .binary offset left.recorded operator right.recorded
  | .conditional offset test consequent alternate =>
    .conditional offset test.recorded consequent.recorded alternate.recorded
  | .arrow offset params result body =>
    .arrow offset (Parameter.recordedAll params) (result.map Ascription.recorded) body.recorded
  | .call offset callee arguments =>
    .call offset callee.recorded (Expression.recordedAll arguments)

/-- A statement as far as it is recorded. -/
def Statement.recorded : Statement → Statement
  | .constant offset id ascription initial inferred =>
    .constant offset id.recorded (ascription.map Ascription.recorded) initial.recorded inferred
  | .returning offset none inferred => .returning offset none inferred
  | .returning offset (some argument) inferred =>
    .returning offset (some argument.recorded) inferred

/-- A block as far as it is recorded. -/
def Block.recorded : Block → Block
  | { offset, statements } => { offset, statements := Statement.recordedAll statements }

/-- Several expressions as far as they are recorded. -/
def Expression.recordedAll : List Expression → List Expression
  | [] => []
  | expression :: rest => expression.recorded :: Expression.recordedAll rest

/-- Several statements as far as they are recorded. -/
def Statement.recordedAll : List Statement → List Statement
  | [] => []
  | statement :: rest => statement.recorded :: Statement.recordedAll rest

end

/-- A program as far as it is recorded: without the links of names, and with one word for all
floats that are no numbers. -/
def Program.recorded (program : Program) : Program :=
  { program with body := Statement.recordedAll program.body }

/-! ## Recorded documents -/

namespace View

/-- The document of a view, with one word for all floats that are no numbers. -/
def document (view : View) : Json := view.json.recorded

/-- The documents of several views. -/
def documents (views : List View) : List Json := Json.recordedAll (jsons views)

/-- The members that the fields of a node become. -/
def documentMembers (fields : List (String × View)) : List (String × Json) :=
  Json.recordedMembers (memberJsons fields)

variable (view : View) (rest : List View) (fields : List (String × View))

@[simp]
theorem document_text (value : String) : (text value).document = .string value := rfl

@[simp]
theorem document_number (value : Numeral) : (number value).document = .number value.recorded := rfl

@[simp]
theorem document_boolean (value : Bool) : (boolean value).document = .boolean value := rfl

@[simp]
theorem document_absent : absent.document = .null := rfl

@[simp]
theorem document_list : (list rest).document = .array (documents rest) := rfl

@[simp]
theorem documents_nil : documents [] = [] := rfl

@[simp]
theorem documents_cons : documents (view :: rest) = view.document :: documents rest := rfl

@[simp]
theorem documentMembers_nil : documentMembers [] = [] := rfl

@[simp]
theorem documentMembers_cons (name : String) :
    documentMembers ((name, view) :: fields) = (name, view.document) :: documentMembers fields :=
  rfl

/-- The document of a node has its offset, its type and its fields. -/
@[simp]
theorem document_node (kind : NodeKind) (offset : Int) (findings : Findings) :
    (node kind offset findings fields).document =
      .object (("offset", .int offset) ::
        (typeMember kind findings.inferred ++ documentMembers fields)) := by
  have typed : Json.recordedMembers (typeMember kind findings.inferred ++ memberJsons fields) =
      typeMember kind findings.inferred ++ documentMembers fields := by
    unfold typeMember
    cases kind.isTyped <;> cases findings.inferred <;> rfl
  rw [document, json, Json.recorded, Json.recordedMembers, typed]
  rfl

end View

/-- The document of a type, which a statement has only when inference has found one. -/
def typeDocument : Option Ty → Json
  | some type => .string type.text
  | none => .null

/-- Types have the same document only if they are the same. -/
@[simp]
theorem typeDocument_eq_iff {one other : Option Ty} :
    typeDocument one = typeDocument other ↔ one = other := by
  constructor
  · intro same
    cases one with
    | none =>
      cases other with
      | none => rfl
      | some _ => exact nomatch same
    | some type =>
      cases other with
      | none => exact nomatch same
      | some further => rw [Ty.text_injective (Json.string.inj same)]
  · exact congrArg typeDocument

/-- A constant has a type. -/
@[simp]
theorem typeMember_constant (inferred : Option Ty) :
    typeMember .constant inferred = [("inferred_type", typeDocument inferred)] := by
  cases inferred <;> rfl

/-- A return has a type. -/
@[simp]
theorem typeMember_returning (inferred : Option Ty) :
    typeMember .returning inferred = [("inferred_type", typeDocument inferred)] := by
  cases inferred <;> rfl

/-- Other nodes have none. -/
@[simp]
theorem typeMember_untyped {kind : NodeKind} (untyped : kind.isTyped = false)
    (inferred : Option Ty) : typeMember kind inferred = [] := by
  simp [typeMember, untyped]

@[simp]
theorem Json.int_eq_iff {one other : Int} : Json.int one = Json.int other ↔ one = other := by
  simp [Json.int]

/-! ## Kinds -/

/-- The name of the first field of a node and what kind of value it has tell the kind of an
expression. -/
def Json.expressionKind? : Json → Option NodeKind
  | .object (_ :: ("value", .number _) :: _) => some .numberLiteral
  | .object (_ :: ("value", .string _) :: _) => some .stringLiteral
  | .object (_ :: ("value", .boolean _) :: _) => some .booleanLiteral
  | .object (_ :: ("name", _) :: _) => some .identifier
  | .object (_ :: ("elements", _) :: _) => some .arrayLiteral
  | .object (_ :: ("object", _) :: _) => some .member
  | .object (_ :: ("left", _) :: _) => some .binary
  | .object (_ :: ("test", _) :: _) => some .conditional
  | .object (_ :: ("params", _) :: _) => some .arrow
  | .object (_ :: ("callee", _) :: _) => some .call
  | _ => none

/-- The name of the first field tells the kind of an ascription. -/
def Json.ascriptionKind? : Json → Option NodeKind
  | .object (_ :: ("name", _) :: _) => some .namedAscription
  | .object (_ :: ("element_type", _) :: _) => some .arrayAscription
  | .object (_ :: ("params", _) :: _) => some .functionAscription
  | _ => none

/-- Behind the type of a statement comes its first field, which tells the kind. -/
def Json.statementKind? : Json → Option NodeKind
  | .object (_ :: _ :: ("id", _) :: _) => some .constant
  | .object (_ :: _ :: ("argument", _) :: _) => some .returning
  | _ => none

/-- The document of an expression tells its kind. -/
theorem Expression.expressionKind?_document (expression : Expression) :
    expression.view.document.expressionKind? = expression.view.kind? := by
  cases expression <;> rfl

/-- The document of an ascription tells its kind. -/
theorem Ascription.ascriptionKind?_document (ascription : Ascription) :
    ascription.view.document.ascriptionKind? = ascription.view.kind? := by
  cases ascription <;> rfl

/-- The document of a statement tells its kind. -/
theorem Statement.statementKind?_document (statement : Statement) :
    statement.view.document.statementKind? = statement.view.kind? := by
  cases statement with
  | constant => rfl
  | returning _ argument => cases argument <;> rfl

/-! ## Everything is recorded -/

mutual

/-- Ascriptions have the same document exactly when the same is recorded of them. -/
theorem Ascription.document_eq_iff (one other : Ascription) :
    one.view.document = other.view.document ↔ one.recorded = other.recorded := by
  have kinds (same : one.view.document = other.view.document) :
      one.view.kind? = other.view.kind? := by
    rw [← one.ascriptionKind?_document, same, other.ascriptionKind?_document]
  match one with
  | .named offset name =>
    cases other with
    | named _ other => simp [Ascription.view, Ascription.recorded]
    | _ => exact iff_of_false (fun same => nomatch kinds same) nofun
  | .array offset element =>
    cases other with
    | array _ other =>
      simp [Ascription.view, Ascription.recorded, element.document_eq_iff other]
    | _ => exact iff_of_false (fun same => nomatch kinds same) nofun
  | .function offset params result =>
    cases other with
    | function _ others other =>
      simp [Ascription.view, Ascription.recorded, result.document_eq_iff other,
        Parameter.documents_eq_iff params others]
    | _ => exact iff_of_false (fun same => nomatch kinds same) nofun

/-- So do parameters. -/
theorem Parameter.document_eq_iff (one other : Parameter) :
    one.view.document = other.view.document ↔ one.recorded = other.recorded := by
  match one with
  | { offset, name, ascription := none, .. } =>
    obtain ⟨_, further, _ | another, _⟩ := other
    · simp [Parameter.view, Parameter.recorded]
    · cases another <;> simp [Parameter.view, Parameter.recorded, Ascription.view]
  | { offset, name, ascription := some ascription, .. } =>
    obtain ⟨_, further, _ | another, _⟩ := other
    · cases ascription <;>
        simp [Parameter.view, Parameter.recorded, Ascription.view]
    · simp [Parameter.view, Parameter.recorded,
        ascription.document_eq_iff another]

/-- So do several parameters. -/
theorem Parameter.documents_eq_iff (params others : List Parameter) :
    View.documents (Parameter.views params) = View.documents (Parameter.views others) ↔
      Parameter.recordedAll params = Parameter.recordedAll others := by
  match params, others with
  | [], [] => exact iff_of_true rfl rfl
  | [], _ :: _ | _ :: _, [] => exact iff_of_false nofun nofun
  | param :: rest, other :: further =>
    simp [Parameter.views, Parameter.recordedAll, param.document_eq_iff other,
      Parameter.documents_eq_iff rest further]

end

/-- Ascriptions that may be missing. -/
theorem Ascription.viewOf_document_eq_iff (one other : Option Ascription) :
    (Ascription.viewOf one).document = (Ascription.viewOf other).document ↔
      one.map Ascription.recorded = other.map Ascription.recorded := by
  match one, other with
  | none, none => exact iff_of_true rfl rfl
  | none, some other => cases other <;> simp [Ascription.viewOf, Ascription.view]
  | some one, none => cases one <;> simp [Ascription.viewOf, Ascription.view]
  | some one, some other => simp [Ascription.viewOf, one.document_eq_iff other]

/-- Identifiers have the same document exactly when the same is recorded of them. -/
theorem Identifier.document_eq_iff (one other : Identifier) :
    one.view.document = other.view.document ↔ one.recorded = other.recorded := by
  simp [Identifier.view, Identifier.recorded]

mutual

/-- Expressions have the same document exactly when the same is recorded of them. -/
theorem Expression.document_eq_iff (one other : Expression) :
    one.view.document = other.view.document ↔ one.recorded = other.recorded := by
  have kinds (same : one.view.document = other.view.document) :
      one.view.kind? = other.view.kind? := by
    rw [← one.expressionKind?_document, same, other.expressionKind?_document]
  match one with
  | .number offset value =>
    cases other with
    | number _ other => simp [Expression.view, Expression.recorded]
    | _ => exact iff_of_false (fun same => nomatch kinds same) nofun
  | .string offset value =>
    cases other with
    | string _ other => simp [Expression.view, Expression.recorded]
    | _ => exact iff_of_false (fun same => nomatch kinds same) nofun
  | .boolean offset value =>
    cases other with
    | boolean _ other => simp [Expression.view, Expression.recorded]
    | _ => exact iff_of_false (fun same => nomatch kinds same) nofun
  | .identifier use =>
    cases other with
    | identifier other => simp [Expression.view, Expression.recorded, use.document_eq_iff other]
    | _ => exact iff_of_false (fun same => nomatch kinds same) nofun
  | .array offset elements =>
    cases other with
    | array _ others =>
      simp [Expression.view, Expression.recorded, Expression.documents_eq_iff elements others]
    | _ => exact iff_of_false (fun same => nomatch kinds same) nofun
  | .member offset object index =>
    cases other with
    | member _ other further =>
      simp [Expression.view, Expression.recorded, object.document_eq_iff other,
        index.document_eq_iff further]
    | _ => exact iff_of_false (fun same => nomatch kinds same) nofun
  | .binary offset left operator right =>
    cases other with
    | binary _ other _ further =>
      simp [Expression.view, Expression.recorded, left.document_eq_iff other,
        right.document_eq_iff further]
    | _ => exact iff_of_false (fun same => nomatch kinds same) nofun
  | .conditional offset test consequent alternate =>
    cases other with
    | conditional _ first second third =>
      simp [Expression.view, Expression.recorded, test.document_eq_iff first,
        consequent.document_eq_iff second, alternate.document_eq_iff third]
    | _ => exact iff_of_false (fun same => nomatch kinds same) nofun
  | .arrow offset params result body =>
    cases other with
    | arrow _ others further block =>
      simp [Expression.view, Expression.recorded, Parameter.documents_eq_iff params others,
        Ascription.viewOf_document_eq_iff result further, body.document_eq_iff block]
    | _ => exact iff_of_false (fun same => nomatch kinds same) nofun
  | .call offset callee arguments =>
    cases other with
    | call _ other others =>
      simp [Expression.view, Expression.recorded, callee.document_eq_iff other,
        Expression.documents_eq_iff arguments others]
    | _ => exact iff_of_false (fun same => nomatch kinds same) nofun

/-- So do statements. -/
theorem Statement.document_eq_iff (one other : Statement) :
    one.view.document = other.view.document ↔ one.recorded = other.recorded := by
  have kinds (same : one.view.document = other.view.document) :
      one.view.kind? = other.view.kind? := by
    rw [← one.statementKind?_document, same, other.statementKind?_document]
  match one with
  | .constant offset id ascription initial inferred =>
    obtain ⟨_, other, further, value, _⟩ | ⟨_, _ | _, _⟩ := other
    · simp [Statement.view, Statement.recorded, id.document_eq_iff other,
        Ascription.viewOf_document_eq_iff ascription further, initial.document_eq_iff value]
      tauto
    · exact iff_of_false (fun same => nomatch kinds same) nofun
    · exact iff_of_false (fun same => nomatch kinds same) nofun
  | .returning offset none inferred =>
    obtain ⟨_, _, _, _, _⟩ | ⟨_, _ | value, _⟩ := other
    · exact iff_of_false (fun same => nomatch kinds same) nofun
    · simp [Statement.view, Statement.recorded]
    · cases value <;>
        simp [Statement.view, Statement.recorded, Expression.view, Identifier.view]
  | .returning offset (some argument) inferred =>
    obtain ⟨_, _, _, _, _⟩ | ⟨_, _ | value, _⟩ := other
    · exact iff_of_false (fun same => nomatch kinds same) nofun
    · cases argument <;>
        simp [Statement.view, Statement.recorded, Expression.view, Identifier.view]
    · simp [Statement.view, Statement.recorded, argument.document_eq_iff value]
      tauto

/-- So do blocks. -/
theorem Block.document_eq_iff (one other : Block) :
    one.view.document = other.view.document ↔ one.recorded = other.recorded := by
  match one, other with
  | { statements, .. }, { statements := others, .. } =>
    simp [Block.view, Block.recorded, Statement.documents_eq_iff statements others]

/-- So do several expressions. -/
theorem Expression.documents_eq_iff (expressions others : List Expression) :
    View.documents (Expression.views expressions) = View.documents (Expression.views others) ↔
      Expression.recordedAll expressions = Expression.recordedAll others := by
  match expressions, others with
  | [], [] => exact iff_of_true rfl rfl
  | [], _ :: _ | _ :: _, [] => exact iff_of_false nofun nofun
  | expression :: rest, other :: further =>
    simp [Expression.views, Expression.recordedAll, expression.document_eq_iff other,
      Expression.documents_eq_iff rest further]

/-- So do several statements. -/
theorem Statement.documents_eq_iff (statements others : List Statement) :
    View.documents (Statement.views statements) = View.documents (Statement.views others) ↔
      Statement.recordedAll statements = Statement.recordedAll others := by
  match statements, others with
  | [], [] => exact iff_of_true rfl rfl
  | [], _ :: _ | _ :: _, [] => exact iff_of_false nofun nofun
  | statement :: rest, other :: further =>
    simp [Statement.views, Statement.recordedAll, statement.document_eq_iff other,
      Statement.documents_eq_iff rest further]

end

/-- Programs are written as the same text exactly when the same is recorded of them. -/
theorem Program.json_text_eq_iff (one other : Program) :
    one.json.text = other.json.text ↔ one.recorded = other.recorded := by
  rw [Json.text_eq_iff]
  change one.view.document = other.view.document ↔ _
  simp [Program.view, Program.recorded, Statement.documents_eq_iff one.body other.body]

end ArrowScript
