import ArrowScript.Scope.Resolution
import ArrowScript.Ty.Inference

/-!
# Rules for nodes

The name resolution and the inference go from a node to parts of it, and have a rule for some
kinds of nodes only. A walk that begins at statements meets no node of another kind,
whatever the statements are.
-/

namespace ArrowScript

/-- The nodes whose walks are parts of the walk over a node in the name resolution. -/
def Node.resolvedParts : Node → List Node
  | .statement (.constant _ _ _ initial _) => [.expression initial]
  | .statement (.returning _ argument _) => argument.toList.map .expression
  | .block body => body.statements.map .statement
  | .expression (.array _ elements) => elements.map .expression
  | .expression (.member _ object index) => [.expression object, .expression index]
  | .expression (.binary _ left _ right) => [.expression left, .expression right]
  | .expression (.conditional _ test consequent alternate) =>
    [.expression test, .expression consequent, .expression alternate]
  | .expression (.arrow _ _ _ body) => [.block body]
  | .expression (.call _ callee arguments) => .expression callee :: arguments.map .expression
  | _ => []

/-- The ascriptions of parameters. -/
def Parameter.ascriptionNodes (params : List Parameter) : List Node :=
  (params.filterMap (·.ascription)).map .ascription

/-- The nodes whose types are parts of the type of a node in the inference. The statements of a
function body belong to the function. -/
def Node.inferredParts : Node → List Node
  | .statement (.constant _ _ written initial _) =>
    .expression initial :: written.toList.map .ascription
  | .expression (.arrow _ params result body) =>
    Parameter.ascriptionNodes params ++ body.statements.map .statement ++
      result.toList.map .ascription
  | .ascription (.array _ element) => [.ascription element]
  | .ascription (.function _ params result) =>
    Parameter.ascriptionNodes params ++ [.ascription result]
  | .block _ => []
  | node => node.resolvedParts

/-- A node that is met on the way from statements to their parts, and to the parts of these. -/
inductive Met (parts : Node → List Node) (body : List Statement) : Node → Prop where
  | statement {root : Statement} (among : root ∈ body) : Met parts body (.statement root)
  | part {node part : Node} (met : Met parts body node) (among : part ∈ parts node) :
      Met parts body part

variable {body : List Statement} {node part : Node}

/-- The name resolution has a rule for the parts of every node. -/
theorem Resolver.resolveNode_part (among : part ∈ node.resolvedParts) :
    ∃ walk, resolveNode part = .ok walk := by
  have expressions (parts : List Expression) (among : part ∈ parts.map Node.expression) :
      ∃ walk, resolveNode part = .ok walk := by
    obtain ⟨root, _, rfl⟩ := List.mem_map.mp among
    exact ⟨_, rfl⟩
  match node with
  | .statement (.constant _ _ _ initial _) => exact expressions [initial] among
  | .statement (.returning _ argument _) => exact expressions argument.toList among
  | .block body =>
    obtain ⟨root, _, rfl⟩ := List.mem_map.mp among
    exact ⟨_, rfl⟩
  | .expression (.array _ elements) => exact expressions elements among
  | .expression (.member _ object index) => exact expressions [object, index] among
  | .expression (.binary _ left _ right) => exact expressions [left, right] among
  | .expression (.conditional _ test consequent alternate) =>
    exact expressions [test, consequent, alternate] among
  | .expression (.arrow _ _ _ body) =>
    obtain rfl := List.mem_singleton.mp among
    exact ⟨_, rfl⟩
  | .expression (.call _ callee arguments) => exact expressions (callee :: arguments) among
  | .expression (.number _ _) | .expression (.string _ _) | .expression (.boolean _ _)
  | .expression (.identifier _) | .ascription _ | .parameter _ | .program _ | .plain _ =>
    exact nomatch among

/-- The inference has a rule for the node, or the node is an ascription with a type. -/
def Node.Typable (node : Node) : Prop :=
  (∃ walk, Inferrer.inferNode node = .ok walk) ∨ ∃ walk, Inferrer.ascriptionNodeType node = .ok walk

/-- The inference has a rule for the parts of every node. -/
theorem Inferrer.typable_part (among : part ∈ node.inferredParts) : part.Typable := by
  have expressions (parts : List Expression) (among : part ∈ parts.map Node.expression) :
      part.Typable := by
    obtain ⟨root, _, rfl⟩ := List.mem_map.mp among
    exact .inl ⟨_, rfl⟩
  have ascriptions (parts : List Ascription) (among : part ∈ parts.map Node.ascription) :
      part.Typable := by
    obtain ⟨root, _, rfl⟩ := List.mem_map.mp among
    exact .inr ⟨_, rfl⟩
  match node with
  | .statement (.constant _ _ written initial _) =>
    rcases List.mem_cons.mp among with rfl | among
    · exact .inl ⟨_, rfl⟩
    · exact ascriptions _ among
  | .statement (.returning _ argument _) => exact expressions argument.toList among
  | .expression (.array _ elements) => exact expressions elements among
  | .expression (.member _ object index) => exact expressions [object, index] among
  | .expression (.binary _ left _ right) => exact expressions [left, right] among
  | .expression (.conditional _ test consequent alternate) =>
    exact expressions [test, consequent, alternate] among
  | .expression (.arrow _ params result body) =>
    rcases List.mem_append.mp among with among | among
    · rcases List.mem_append.mp among with among | among
      · exact ascriptions _ among
      · obtain ⟨root, _, rfl⟩ := List.mem_map.mp among
        exact .inl ⟨_, rfl⟩
    · exact ascriptions _ among
  | .expression (.call _ callee arguments) => exact expressions (callee :: arguments) among
  | .ascription (.array _ element) => exact ascriptions [element] among
  | .ascription (.function _ params result) =>
    rcases List.mem_append.mp among with among | among
    · exact ascriptions _ among
    · exact ascriptions [result] among
  | .expression (.number _ _) | .expression (.string _ _) | .expression (.boolean _ _)
  | .expression (.identifier _) | .ascription (.named _ _) | .block _ | .parameter _
  | .program _ | .plain _ =>
    exact nomatch among

/-- Both walks over statements have a rule for every node that they meet. -/
structure Ruled (body : List Statement) : Prop where
  resolved : ∀ node, Met Node.resolvedParts body node → ∃ walk, Resolver.resolveNode node = .ok walk
  inferred : ∀ node, Met Node.inferredParts body node → node.Typable

/-- There are no statements with a node for which a rule is missing. -/
theorem ruled (body : List Statement) : Ruled body where
  resolved _ met := by
    cases met with
    | statement => exact ⟨_, rfl⟩
    | part _ among => exact Resolver.resolveNode_part among
  inferred _ met := by
    cases met with
    | statement => exact .inl ⟨_, rfl⟩
    | part _ among => exact Inferrer.typable_part among

end ArrowScript
