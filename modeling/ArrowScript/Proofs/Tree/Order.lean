import ArrowScript.Token
import ArrowScript.Tree.View

/-!
# Trees laid over tokens

The nodes of a tree are visited from the root downwards and from left to right. A tree is
laid over a stretch of tokens when its root stands at one of them and its children are laid,
one behind the other, over the tokens from there on; the root may stand at the same token as
its first child, and tokens may be left out.

Where the offsets of the tokens increase, a tree that is laid over them is ordered: no node
stands before the node that it belongs to, and all that belongs to a child stands before all
that belongs to the next one.
-/

namespace ArrowScript

namespace View

/-- The offset of a node. Views that are no nodes stand nowhere. -/
def offset : View → Int
  | node _ offset _ _ => offset
  | _ => 0

/-- The children of a node are smaller than the node. -/
theorem sizeOf_children {view child : View} (among : child ∈ view.children) :
    sizeOf child < sizeOf view := by
  cases view with
  | node kind offset findings fields =>
    obtain ⟨⟨name, field⟩, listed, held⟩ := List.mem_flatMap.mp among
    have inFields := List.sizeOf_lt_of_mem listed
    have inField : sizeOf child ≤ sizeOf field := by
      cases field with
      | node => exact Nat.le_of_eq (congrArg sizeOf (List.mem_singleton.mp held))
      | list items =>
        have inItems := List.sizeOf_lt_of_mem (List.mem_filter.mp held).1
        simp only [list.sizeOf_spec]
        omega
      | _ => exact nomatch held
    simp only [Prod.mk.sizeOf_spec] at inFields
    simp only [node.sizeOf_spec]
    omega
  | _ => exact nomatch among

/-- A node and all nodes below it, from the root downwards and from left to right. -/
def preorder (view : View) : List View :=
  view :: view.children.attach.flatMap fun child => child.1.preorder
termination_by sizeOf view
decreasing_by exact sizeOf_children child.2

/-- Behind a node come the nodes of its children. -/
theorem preorder_eq (view : View) :
    view.preorder = view :: view.children.flatMap preorder := by
  rw [preorder]
  simp only [List.flatMap_subtype, List.unattach_attach]

/-- The nodes without children. -/
def leaves (view : View) : List View := view.preorder.filter (·.children.isEmpty)

/-- A node with children has the leaves of its children. -/
theorem leaves_eq (view : View) :
    view.leaves = if view.children.isEmpty then [view] else view.children.flatMap leaves := by
  rw [leaves, preorder_eq, List.filter_cons, List.filter_flatMap]
  split
  next none =>
    rw [List.isEmpty_iff.mp none]
    rfl
  next => rfl

end View

/-! ## The children of a node -/

/-- A text is no node. -/
@[simp] theorem View.nodes_text (value : String) : (View.text value).nodes = [] := rfl

/-- The view of an identifier is a node. -/
@[simp] theorem Identifier.nodes_view (id : Identifier) : id.view.nodes = [id.view] := rfl

/-- The view of an ascription is a node. -/
@[simp] theorem Ascription.nodes_view (type : Ascription) : type.view.nodes = [type.view] := by
  cases type <;> rfl

/-- The view of a parameter is a node. -/
@[simp] theorem Parameter.nodes_view (param : Parameter) : param.view.nodes = [param.view] := by
  obtain ⟨offset, name, _ | ascription, declaration⟩ := param <;> rfl

/-- The view of an expression is a node. -/
@[simp] theorem Expression.nodes_view (expression : Expression) :
    expression.view.nodes = [expression.view] := by
  cases expression <;> rfl

/-- The view of a statement is a node. -/
@[simp] theorem Statement.nodes_view (statement : Statement) :
    statement.view.nodes = [statement.view] := by
  cases statement with
  | constant offset id ascription initial inferred => rfl
  | returning offset argument inferred => cases argument <;> rfl

/-- The view of a block is a node. -/
@[simp] theorem Block.nodes_view (block : Block) : block.view.nodes = [block.view] := by
  cases block
  rfl

/-- An ascription that may be missing is a child where it is present. -/
@[simp] theorem Ascription.nodes_viewOf (type : Option Ascription) :
    (Ascription.viewOf type).nodes = type.toList.map Ascription.view := by
  cases type with
  | none => rfl
  | some type => exact type.nodes_view

/-- The views of several parameters, one by one. -/
theorem Parameter.views_eq_map (params : List Parameter) :
    Parameter.views params = params.map Parameter.view := by
  induction params with
  | nil => rfl
  | cons param rest inductionHypothesis =>
    rw [Parameter.views, inductionHypothesis, List.map_cons]

/-- The views of several expressions, one by one. -/
theorem Expression.views_eq_map (expressions : List Expression) :
    Expression.views expressions = expressions.map Expression.view := by
  induction expressions with
  | nil => rfl
  | cons expression rest inductionHypothesis =>
    rw [Expression.views, inductionHypothesis, List.map_cons]

/-- The views of several statements, one by one. -/
theorem Statement.views_eq_map (statements : List Statement) :
    Statement.views statements = statements.map Statement.view := by
  induction statements with
  | nil => rfl
  | cons statement rest inductionHypothesis =>
    rw [Statement.views, inductionHypothesis, List.map_cons]

/-- A list of nodes holds all of them. -/
theorem View.nodes_list {α : Type} {view : α → View}
    (isNode : ∀ item, (view item).nodes = [view item]) (items : List α) :
    (View.list (items.map view)).nodes = items.map view := by
  apply List.filter_eq_self.mpr
  intro child among
  obtain ⟨item, _, rfl⟩ := List.mem_map.mp among
  have single := isNode item
  cases form : view item with
  | node => rfl
  | list items =>
    -- A list is never among the nodes that it holds.
    rw [form] at single
    have among : View.list items ∈ (View.list items).nodes := by
      rw [single]
      exact List.mem_singleton_self _
    exact absurd (List.mem_filter.mp among).2 Bool.false_ne_true
  | _ =>
    rw [form] at single
    exact nomatch single

/-- Several parameters are the children that a field holds. -/
@[simp] theorem Parameter.nodes_views (params : List Parameter) :
    (View.list (Parameter.views params)).nodes = params.map Parameter.view := by
  rw [Parameter.views_eq_map, View.nodes_list Parameter.nodes_view]

/-- Several expressions are the children that a field holds. -/
@[simp] theorem Expression.nodes_views (expressions : List Expression) :
    (View.list (Expression.views expressions)).nodes = expressions.map Expression.view := by
  rw [Expression.views_eq_map, View.nodes_list Expression.nodes_view]

/-- Several statements are the children that a field holds. -/
@[simp] theorem Statement.nodes_views (statements : List Statement) :
    (View.list (Statement.views statements)).nodes = statements.map Statement.view := by
  rw [Statement.views_eq_map, View.nodes_list Statement.nodes_view]

section Children

variable (offset : Int)

/-- The children of an array are its elements. -/
theorem Expression.children_array (elements : List Expression) :
    (Expression.array offset elements).view.children = elements.map Expression.view := by
  simp [Expression.view, View.children]

/-- The children of an index expression are its two parts. -/
theorem Expression.children_member (object index : Expression) :
    (Expression.member offset object index).view.children = [object.view, index.view] := by
  simp [Expression.view, View.children]

/-- The children of a binary expression are its two sides. -/
theorem Expression.children_binary (left : Expression) (operator : String) (right : Expression) :
    (Expression.binary offset left operator right).view.children = [left.view, right.view] := by
  simp [Expression.view, View.children]

/-- The children of a conditional are its test and its two branches. -/
theorem Expression.children_conditional (test consequent alternate : Expression) :
    (Expression.conditional offset test consequent alternate).view.children =
      [test.view, consequent.view, alternate.view] := by
  simp [Expression.view, View.children]

/-- The children of a function are its parameters, its ascription if it has one, and its body. -/
theorem Expression.children_arrow (params : List Parameter) (result : Option Ascription)
    (body : Block) :
    (Expression.arrow offset params result body).view.children =
      params.map Parameter.view ++ (result.toList.map Ascription.view ++ [body.view]) := by
  simp [Expression.view, View.children]

/-- The children of a call are the callee and the arguments. -/
theorem Expression.children_call (callee : Expression) (arguments : List Expression) :
    (Expression.call offset callee arguments).view.children =
      callee.view :: arguments.map Expression.view := by
  simp [Expression.view, View.children]

/-- The children of a constant are its name, its ascription if it has one, and its value. -/
theorem Statement.children_constant (id : Identifier) (ascription : Option Ascription)
    (initial : Expression) (inferred : Option Ty) :
    (Statement.constant offset id ascription initial inferred).view.children =
      id.view :: (ascription.toList.map Ascription.view ++ [initial.view]) := by
  simp [Statement.view, View.children]

/-- The child of a return is its argument, if it has one. -/
theorem Statement.children_returning (argument : Option Expression) (inferred : Option Ty) :
    (Statement.returning offset argument inferred).view.children =
      argument.toList.map Expression.view := by
  cases argument with
  | none => rfl
  | some argument => simp [Statement.view, View.children]

/-- The children of a block are its statements. -/
theorem Block.children_view (statements : List Statement) :
    (Block.mk offset statements).view.children = statements.map Statement.view := by
  simp [Block.view, View.children]

/-- The children of a program are its statements. -/
theorem Program.children_view (program : Program) :
    program.view.children = program.body.map Statement.view := by
  simp [Program.view, View.children]

end Children

/-- The view of an ascription stands where the ascription does. -/
@[simp] theorem Ascription.offset_view (type : Ascription) : type.view.offset = type.offset := by
  cases type <;> rfl

/-- The view of an expression stands where the expression does. -/
@[simp] theorem Expression.offset_view (expression : Expression) :
    expression.view.offset = expression.offset := by
  cases expression <;> rfl

/-! ## Trees over tokens -/

/-- Trees one behind the other over a stretch of tokens. -/
inductive Laid : List Token → List View → Prop where
  | nil {tokens : List Token} : Laid tokens []
  | cons {before inside after : List Token} {token : Token} {view : View} {rest : List View}
      (offset : view.offset = token.offset) (children : Laid (token :: inside) view.children)
      (others : Laid after rest) : Laid (before ++ token :: inside ++ after) (view :: rest)

namespace Laid

variable {tokens others : List Token} {views rest : List View}

/-- Tokens in front may be left out. -/
theorem front (laid : Laid tokens views) (before : List Token) : Laid (before ++ tokens) views := by
  cases laid with
  | nil => exact .nil
  | cons offset children further =>
    rw [List.append_assoc, ← List.append_assoc before, ← List.append_assoc]
    exact .cons offset children further

/-- Trees behind other trees. -/
theorem append (laid : Laid tokens views) (further : Laid others rest) :
    Laid (tokens ++ others) (views ++ rest) := by
  induction laid with
  | nil => exact further.front _
  | cons offset children _ _ inductionHypothesis =>
    rw [List.append_assoc]
    exact .cons offset children inductionHypothesis

/-- Tokens behind may be left out. -/
theorem back (laid : Laid tokens views) (after : List Token) : Laid (tokens ++ after) views := by
  have none : Laid after [] := .nil
  have whole := laid.append none
  rwa [List.append_nil] at whole

/-- A node at a token in front of its children. -/
theorem root {token : Token} {view : View} (offset : view.offset = token.offset)
    (children : Laid (token :: tokens) view.children) : Laid (token :: tokens) [view] := by
  have whole : Laid ([] ++ token :: tokens ++ []) [view] := .cons offset children .nil
  rwa [List.append_nil] at whole

/-- A node that begins where its first child does. -/
theorem grow {first whole : View} (laid : Laid tokens [first]) (further : Laid others rest)
    (offset : whole.offset = first.offset) (children : whole.children = first :: rest) :
    Laid (tokens ++ others) [whole] := by
  cases laid with
  | @cons before inside after token _ _ begins inner _ =>
    have parts : Laid ([] ++ token :: inside ++ (after ++ others)) (first :: rest) :=
      .cons begins inner (further.front after)
    rw [← children] at parts
    rw [List.append_assoc, List.append_assoc]
    exact (root (offset.trans begins) parts).front before

/-- Every node of trees over tokens stands at one of them, and its children are laid over
tokens from there on. -/
theorem at_node (laid : Laid tokens views) {view node : View} (among : view ∈ views)
    (below : node ∈ view.preorder) :
    ∃ token inside, List.Sublist (token :: inside) tokens ∧ node.offset = token.offset ∧
      Laid (token :: inside) node.children := by
  induction laid generalizing view with
  | nil => exact nomatch among
  | @cons before inside after token first rest offset children _ inFirst inRest =>
    have here : List.Sublist (token :: inside) (before ++ token :: inside ++ after) :=
      (List.sublist_append_right before _).trans (List.sublist_append_left _ after)
    rcases List.mem_cons.mp among with rfl | later
    · rw [View.preorder_eq] at below
      rcases List.mem_cons.mp below with rfl | below
      · exact ⟨token, inside, here, offset, children⟩
      · obtain ⟨child, isChild, below⟩ := List.mem_flatMap.mp below
        obtain ⟨other, others, part, stands, laid⟩ := inFirst isChild below
        exact ⟨other, others, part.trans here, stands, laid⟩
    · obtain ⟨other, others, part, stands, laid⟩ := inRest later below
      exact ⟨other, others, part.trans (List.sublist_append_right _ after), stands, laid⟩

/-- Every node of trees over tokens stands at one of them. -/
theorem located (laid : Laid tokens views) {view node : View} (among : view ∈ views)
    (below : node ∈ view.preorder) : ∃ token ∈ tokens, node.offset = token.offset := by
  obtain ⟨token, inside, part, stands, _⟩ := laid.at_node among below
  exact ⟨token, part.subset List.mem_cons_self, stands⟩

/-- What belongs to a tree stands before what belongs to a later one. -/
theorem apart (laid : Laid tokens views) (increasing : tokens.Pairwise (·.offset < ·.offset)) :
    views.Pairwise fun one other =>
      ∀ node ∈ one.preorder, ∀ later ∈ other.preorder, node.offset < later.offset := by
  induction laid with
  | nil => exact .nil
  | @cons before inside after token first rest offset children further _ inRest =>
    obtain ⟨front, back, across⟩ := List.pairwise_append.mp increasing
    constructor
    · intro other among node below later belowLater
      have one : Laid (before ++ token :: inside) [first] := (root offset children).front before
      obtain ⟨start, starts, stands⟩ := one.located List.mem_cons_self below
      obtain ⟨next, follows, standsLater⟩ := further.located among belowLater
      rw [stands, standsLater]
      exact across start starts next follows
    · exact inRest back

/-- The nodes without children stand one behind the other. -/
theorem leaves_increasing (laid : Laid tokens views)
    (increasing : tokens.Pairwise (·.offset < ·.offset)) :
    ((views.flatMap View.leaves).map View.offset).Pairwise (· < ·) := by
  induction laid with
  | nil => exact .nil
  | @cons before inside after token first rest offset children further inFirst inRest =>
    have laid : Laid (before ++ token :: inside ++ after) (first :: rest) :=
      .cons offset children further
    have apart := laid.apart increasing
    obtain ⟨front, back, _⟩ := List.pairwise_append.mp increasing
    have own : (first.leaves.map View.offset).Pairwise (· < ·) := by
      rw [View.leaves_eq]
      split
      · exact List.pairwise_singleton _ _
      · exact inFirst (List.pairwise_append.mp front).2.1
    rw [List.flatMap_cons, List.map_append]
    apply List.pairwise_append.mpr
    refine ⟨own, inRest back, ?_⟩
    intro one isOne other isOther
    obtain ⟨leaf, below, rfl⟩ := List.mem_map.mp isOne
    obtain ⟨later, belowLater, rfl⟩ := List.mem_map.mp isOther
    obtain ⟨view, among, belowLater⟩ := List.mem_flatMap.mp belowLater
    exact List.rel_of_pairwise_cons apart among leaf (List.mem_filter.mp below).1 later
      (List.mem_filter.mp belowLater).1

end Laid

/-! ## Identifiers over tokens -/

/-- Every identifier in some trees is that of a token, with its offset and its text. -/
def Named (tokens : List Token) (views : List View) : Prop :=
  ∀ view ∈ views, ∀ node ∈ view.preorder, node.kind? = some .identifier →
    ∃ token ∈ tokens, token.kind = .identifier ∧
      node = Identifier.view { offset := token.offset, name := token.text }

namespace Named

variable {tokens others : List Token} {views rest : List View}

/-- More tokens may be given. -/
theorem mono (named : Named tokens views) (more : tokens ⊆ others) : Named others views := by
  intro view among node below identifier
  obtain ⟨token, given, kind, same⟩ := named view among node below identifier
  exact ⟨token, more given, kind, same⟩

/-- A root that is no identifier has the identifiers of its children. -/
theorem root {view : View} (other : view.kind? ≠ some .identifier)
    (children : Named tokens view.children) : Named tokens [view] := by
  intro _ among node below identifier
  rw [List.mem_singleton.mp among, View.preorder_eq] at below
  rcases List.mem_cons.mp below with rfl | below
  · exact absurd identifier other
  · obtain ⟨child, isChild, below⟩ := List.mem_flatMap.mp below
    exact children child isChild node below identifier

end Named

/-- Trees are laid over tokens, and their identifiers are taken from them. -/
structure Placed (tokens : List Token) (views : List View) : Prop where
  laid : Laid tokens views
  named : Named tokens views

namespace Placed

variable {tokens others : List Token} {views rest : List View}

/-- No trees. -/
theorem nil : Placed tokens [] :=
  ⟨.nil, List.forall_mem_nil _⟩

/-- Tokens in front may be left out. -/
theorem front (placed : Placed tokens views) (before : List Token) :
    Placed (before ++ tokens) views :=
  ⟨placed.laid.front before, placed.named.mono (List.subset_append_right before tokens)⟩

/-- Tokens behind may be left out. -/
theorem back (placed : Placed tokens views) (after : List Token) :
    Placed (tokens ++ after) views :=
  ⟨placed.laid.back after, placed.named.mono (List.subset_append_left tokens after)⟩

/-- Trees behind other trees. -/
theorem append (placed : Placed tokens views) (further : Placed others rest) :
    Placed (tokens ++ others) (views ++ rest) := by
  constructor
  · exact placed.laid.append further.laid
  · intro view among
    rcases List.mem_append.mp among with among | among
    · exact (placed.back others).named view among
    · exact (further.front tokens).named view among

/-- A node at a token in front of its children. -/
theorem root {token : Token} {view : View} (offset : view.offset = token.offset)
    (other : view.kind? ≠ some .identifier) (children : Placed (token :: tokens) view.children) :
    Placed (token :: tokens) [view] :=
  ⟨.root offset children.laid, .root other children.named⟩

/-- A node that begins where its first child does. -/
theorem grow {first whole : View} (placed : Placed tokens [first]) (further : Placed others rest)
    (other : whole.kind? ≠ some .identifier) (offset : whole.offset = first.offset)
    (children : whole.children = first :: rest) : Placed (tokens ++ others) [whole] := by
  constructor
  · exact placed.laid.grow further.laid offset children
  · apply Named.root other
    rw [children]
    exact (placed.append further).named

/-- An identifier at its token. -/
theorem identifier {token : Token} (kind : token.kind = .identifier) :
    Placed [token] [Identifier.view { offset := token.offset, name := token.text }] := by
  constructor
  · exact .root rfl .nil
  · intro view among node below _
    rw [List.mem_singleton.mp among, View.preorder_eq] at below
    exact ⟨token, List.mem_singleton_self token, kind, List.mem_singleton.mp below⟩

end Placed

/-! ## Trees over the tokens of a text -/

/-- The offsets of a tree follow the tokens of a text of some length. The root itself need not
stand at a token. -/
structure View.Follows (tokens : List Token) (length : Nat) (root : View) : Prop where
  /-- Every node below the root stands at a token that is no mark of the end. -/
  located : ∀ node ∈ root.preorder.tail,
    ∃ token ∈ tokens, token.kind ≠ .endOfFile ∧ node.offset = token.offset
  /-- No node stands behind a node below it. -/
  ascending : ∀ node ∈ root.preorder, ∀ inner ∈ node.preorder, node.offset ≤ inner.offset
  /-- What belongs to a child stands before what belongs to a later one. -/
  apart : ∀ node ∈ root.preorder, node.children.Pairwise fun one other =>
    ∀ inner ∈ one.preorder, ∀ later ∈ other.preorder, inner.offset < later.offset
  /-- The nodes without children stand one behind the other inside the text. -/
  leaves : (root.leaves.map View.offset).Pairwise (· < ·) ∧
    ∀ leaf ∈ root.leaves, 0 ≤ leaf.offset ∧ leaf.offset ≤ length

/-- More tokens may be given. -/
theorem View.Follows.mono {part tokens : List Token} {length : Nat} {root : View}
    (follows : root.Follows part length) (more : part ⊆ tokens) : root.Follows tokens length := by
  constructor
  · intro node below
    obtain ⟨token, among, located⟩ := follows.located node below
    exact ⟨token, more among, located⟩
  · exact follows.ascending
  · exact follows.apart
  · exact follows.leaves

/-- A root whose children are laid over the tokens of a text is ordered, if it stands at the
beginning of the text. -/
theorem Laid.follows {tokens : List Token} {length : Nat} {root : View}
    (laid : Laid tokens root.children) (increasing : tokens.Pairwise (·.offset < ·.offset))
    (inside : ∀ token ∈ tokens, 0 ≤ token.offset ∧ token.offset ≤ length)
    (lexemes : ∀ token ∈ tokens, token.kind ≠ .endOfFile) (origin : root.offset = 0) :
    root.Follows tokens length := by
  have children : ∀ node ∈ root.preorder.tail, ∃ child ∈ root.children, node ∈ child.preorder := by
    intro node below
    rw [View.preorder_eq, List.tail_cons] at below
    exact List.mem_flatMap.mp below
  have parts : ∀ node ∈ root.preorder, ∃ part, List.Sublist part tokens ∧
      Laid part node.children ∧ ∀ token ∈ part, node.offset ≤ token.offset := by
    intro node below
    rw [View.preorder_eq] at below
    rcases List.mem_cons.mp below with rfl | below
    · refine ⟨tokens, List.Sublist.refl _, laid, ?_⟩
      intro token among
      rw [origin]
      exact (inside token among).1
    · obtain ⟨child, isChild, below⟩ := List.mem_flatMap.mp below
      obtain ⟨token, others, part, stands, laid⟩ := laid.at_node isChild below
      refine ⟨token :: others, part, laid, ?_⟩
      intro other among
      rw [stands]
      rcases List.mem_cons.mp among with rfl | later
      · exact Int.le_refl _
      · exact Int.le_of_lt (List.rel_of_pairwise_cons (increasing.sublist part) later)
  constructor
  · intro node below
    obtain ⟨child, isChild, below⟩ := children node below
    obtain ⟨token, among, stands⟩ := laid.located isChild below
    exact ⟨token, among, lexemes token among, stands⟩
  · intro node below inner within
    obtain ⟨part, _, laid, least⟩ := parts node below
    rw [View.preorder_eq] at within
    rcases List.mem_cons.mp within with rfl | within
    · exact Int.le_refl _
    · obtain ⟨child, isChild, within⟩ := List.mem_flatMap.mp within
      obtain ⟨token, among, stands⟩ := laid.located isChild within
      rw [stands]
      exact least token among
  · intro node below
    obtain ⟨part, isPart, laid, _⟩ := parts node below
    exact laid.apart (increasing.sublist isPart)
  · rw [View.leaves_eq]
    split
    · refine ⟨List.pairwise_singleton _ _, ?_⟩
      intro leaf isRoot
      rw [List.mem_singleton.mp isRoot, origin]
      exact ⟨Int.le_refl _, Int.natCast_nonneg _⟩
    · refine ⟨laid.leaves_increasing increasing, ?_⟩
      intro leaf isLeaf
      obtain ⟨child, isChild, isLeaf⟩ := List.mem_flatMap.mp isLeaf
      obtain ⟨token, among, stands⟩ := laid.located isChild (List.mem_filter.mp isLeaf).1
      rw [stands]
      exact inside token among

end ArrowScript
