import ArrowScript.Ty

/-!
# The store of type variables

A store holds the type variables of one inference. A variable is either free or
linked to a term, which may contain variables again. What a term stands for is its
resolution: the term with every linked variable replaced, all the way down.

Operations on a store follow links. Whenever they do, they shorten the way: every
variable that has been passed is linked to the end that was found. This changes
which links there are, but not what any term stands for.

In a store without cycles no way through links and terms meets a variable twice, so
the number of variables bounds every walk. Walks take this number as the limit of
their depth.
-/

namespace ArrowScript

/-- A type variable: the name that it is printed with, and its link, if it has one. -/
structure Cell where
  name : String
  link : Option Ty := none
  deriving Repr, Inhabited

/-- The variables of an inference. `numbered` counts the ones that were given a
number as their name. -/
structure Store where
  cells : Array Cell := #[]
  numbered : Nat := 0
  deriving Repr, Inhabited

/-- A computation that reads and changes a store. -/
abbrev Solver := StateM Store

namespace Store

/-- The term that a variable is linked to. -/
def link? (store : Store) (id : VariableId) : Option Ty := store.cells[id]?.bind Cell.link

/-- The name of a variable. -/
def nameOf (store : Store) (id : VariableId) : String :=
  (store.cells[id]?.map Cell.name).getD (Ty.defaultName id)

/-- Links a variable to a term. -/
def setLink (store : Store) (id : VariableId) (term : Ty) : Store :=
  { store with cells := store.cells.modify id fun cell => { cell with link := some term } }

/-- The end of a chain of links: a free variable or a term that is no variable. -/
def endWithin (store : Store) : (limit : Nat) → Ty → Ty
  | limit + 1, .var id =>
    match store.link? id with
    | some next => store.endWithin limit next
    | none => .var id
  | _, term => term

/-- The linked variables on a chain, in the order of the links. -/
def chainWithin (store : Store) : (limit : Nat) → Ty → List VariableId
  | limit + 1, .var id =>
    match store.link? id with
    | some next => id :: store.chainWithin limit next
    | none => []
  | _, _ => []

/-- The end of the chain that begins with a term. -/
def endOf (store : Store) (term : Ty) : Ty := store.endWithin store.cells.size term

/-- The linked variables on the chain that begins with a term. -/
def chainOf (store : Store) (term : Ty) : List VariableId :=
  store.chainWithin store.cells.size term

/-- Links several variables to one term. -/
def redirect (store : Store) (chain : List VariableId) (target : Ty) : Store :=
  chain.foldl (fun store id => store.setLink id target) store

/-- What a variable stands for, looking through a limited number of links. -/
def resolveWithin (store : Store) : (limit : Nat) → VariableId → Ty
  | 0, id => .var id
  | limit + 1, id =>
    match store.link? id with
    | none => .var id
    | some term => term.substitute (store.resolveWithin limit)

/-- What a term stands for. -/
def resolve (store : Store) (term : Ty) : Ty :=
  term.substitute (store.resolveWithin store.cells.size)

mutual

/-- The structure of a term with the given text for its variables. -/
def describeTerm (variableText : VariableId → String) : Ty → String
  | .var id => variableText id
  | .primitive kind => "PrimitiveType(" ++ kind.text ++ ")"
  | .array element => "ArrayType(" ++ describeTerm variableText element ++ ")"
  | .function params result =>
    "FunctionType([" ++ ", ".intercalate (describeTerms variableText params) ++ "], " ++
      describeTerm variableText result ++ ")"
  | .shapeless => "TypeTerm()"

/-- The structures of several terms. -/
def describeTerms (variableText : VariableId → String) : List Ty → List String
  | [] => []
  | term :: rest => describeTerm variableText term :: describeTerms variableText rest

end

/-- A variable with its link and all that is behind it. -/
def describeVariable (store : Store) : (limit : Nat) → VariableId → String
  | 0, id => store.nameOf id
  | limit + 1, id =>
    let link := match store.link? id with
      | none => "None"
      | some term => describeTerm (store.describeVariable limit) term
    "TypeVariable(" ++ store.nameOf id ++ ", link=" ++ link ++ ")"

/-- The structure of a term with the links as they are. -/
def describe (store : Store) (term : Ty) : String :=
  describeTerm (store.describeVariable (store.cells.size + 1)) term

end Store

namespace Solver

/-- A new free variable with the next number as its name. -/
def fresh : Solver VariableId :=
  modifyGet fun store =>
    (store.cells.size,
      { cells := store.cells.push { name := Ty.defaultName store.numbered }
        numbered := store.numbered + 1 })

/-- A new free variable with a name of its own, which takes no number. -/
def named (name : String) : Solver VariableId :=
  modifyGet fun store =>
    (store.cells.size, { store with cells := store.cells.push { name } })

/-- The end of the chain that begins with a term. All variables on the chain are
linked to that end. -/
def compress (term : Ty) : Solver Ty :=
  modifyGet fun store =>
    let target := store.endOf term
    (target, store.redirect (store.chainOf term) target)

/-- Replaces a variable by what it stands for, with an action for the free variables
found on the way. -/
def expandVariable {m : Type → Type} [Monad m] [MonadLiftT Solver m]
    (atFree : VariableId → m Ty) : (limit : Nat) → VariableId → m Ty
  | 0, id => return .var id
  | limit + 1, id => do
    match ← (compress (.var id) : Solver Ty) with
    | .var free => atFree free
    | term => term.traverse (expandVariable atFree limit)

/-- Replaces every linked variable of a term by what it stands for, with an action
for the free variables found on the way. -/
def expand {m : Type → Type} [Monad m] [MonadLiftT Solver m]
    (atFree : VariableId → m Ty) (term : Ty) : m Ty := do
  let limit ← (do return (← get).cells.size : Solver Nat)
  term.traverse (expandVariable atFree limit)

/-- The printed form of what a term stands for. -/
def print (term : Ty) : Solver String := do
  let expanded ← expand (fun free => (return .var free : Solver Ty)) term
  return expanded.render (← get).nameOf

/-- Tells whether a variable occurs in what another variable stands for. -/
def occursInVariable (sought : VariableId) : (limit : Nat) → VariableId → Solver Bool
  | 0, id => return id == sought
  | limit + 1, id => do
    match ← compress (.var id) with
    | .var free => return free == sought
    | term => term.anyVariable (occursInVariable sought limit)

/-- Tells whether a free variable occurs in what a term stands for. The search ends
at the first occurrence. -/
def occursIn (sought : VariableId) (term : Ty) : Solver Bool := do
  let limit := (← get).cells.size
  term.anyVariable (occursInVariable sought limit)

end Solver

end ArrowScript
