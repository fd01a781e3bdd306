import Mathlib.Data.List.Forall2
import ArrowScript.Proofs.Tree.Places
import ArrowScript.Proofs.Tree.Views
import ArrowScript.Tree.Comparison

/-!
# Comparing trees

What two trees are compared by is what is left of them when offsets, types and links are erased.
Floats are compared as numbers: the sign of a zero does not count, and a word that is no number is
different from all words, itself included.

The comparison goes through the places of both trees at once. As long as nothing differs, nodes of
one kind and lists of one length stand at the same places, so the trees have the same places there,
and the first place where something differs is the one that is reported.
-/

namespace ArrowScript

/-! ## Numbers -/

namespace Binary64

/-- Tells finite numbers and infinities from all other words. -/
def isNumber (word : Binary64) : Bool := word.finite || word.fraction == 0

/-- Tells whether a word is a zero of either sign. -/
def isZero (word : Binary64) : Bool := word.finite && word.significand == 0

/-- A word without the sign of a zero. -/
def unsigned (word : Binary64) : Binary64 := if word.isZero then ⟨0⟩ else word

/-- A zero is a number. -/
theorem isNumber_of_isZero {word : Binary64} (zero : word.isZero = true) :
    word.isNumber = true := by
  rw [isNumber, (Bool.and_eq_true_iff.mp zero).1, Bool.true_or]

/-- The words of both zeros become one, and all other words stay as they are. -/
theorem unsigned_eq_iff (left right : Binary64) :
    left.unsigned = right.unsigned ↔ left = right ∨ left.isZero = true ∧ right.isZero = true := by
  have zero : isZero ⟨0⟩ = true := by decide
  constructor
  · intro same
    unfold unsigned at same
    split at same <;> split at same
    next left right => exact .inr ⟨left, right⟩
    next _ right => exact absurd (same ▸ zero) right
    next left _ => exact absurd (same ▸ zero) left
    next => exact .inl same
  · rintro (rfl | ⟨left, right⟩)
    · rfl
    · rw [unsigned, unsigned, if_pos left, if_pos right]

/-- A word is a number with the sign of a zero or without it. -/
theorem isNumber_unsigned (word : Binary64) : word.unsigned.isNumber = word.isNumber := by
  rw [unsigned]
  split
  next zero => rw [isNumber_of_isZero zero]; decide
  next => rfl

/-- Words are equal as numbers when they are numbers, and the same up to the sign of a zero. -/
theorem equal_iff (left right : Binary64) :
    left.equal right = true ↔ left.isNumber = true ∧ left.unsigned = right.unsigned := by
  change (left.isNumber && right.isNumber &&
    (left == right || left.isZero && right.isZero)) = true ↔ _
  simp only [Bool.and_eq_true, Bool.or_eq_true, beq_iff_eq, ← unsigned_eq_iff, and_assoc]
  refine and_congr_right fun number => and_iff_right_of_imp fun same => ?_
  rw [← right.isNumber_unsigned, ← same, left.isNumber_unsigned, number]

end Binary64

/-- A numeral without the sign of a zero. -/
def Numeral.unsigned : Numeral → Numeral
  | int value => .int value
  | float word => .float word.unsigned

namespace View

/-! ## What counts -/

mutual

/-- A view without offsets, types, links and the signs of zeros. -/
def erased : View → View
  | node kind _ _ fields => .node kind 0 {} (erasedFields fields)
  | list items => .list (erasedItems items)
  | number value => .number value.unsigned
  | text value => .text value
  | boolean value => .boolean value
  | absent => .absent

/-- Erasing in all fields. -/
def erasedFields : List (String × View) → List (String × View)
  | [] => []
  | (name, view) :: rest => (name, view.erased) :: erasedFields rest

/-- Erasing in all items. -/
def erasedItems : List View → List View
  | [] => []
  | view :: rest => view.erased :: erasedItems rest

end

/-- Tells whether a view is no float, or one that is a number. -/
def isNumeric : View → Bool
  | number (.float word) => word.isNumber
  | _ => true

/-- All floats in a view are numbers. -/
def Numeric (view : View) : Prop := ∀ place ∈ view.places, place.2.isNumeric = true

/-- How two views differ in themselves, and not in what they hold. -/
def mismatch? : (found expected : View) → Option Mismatch
  | node found _ _ _, node expected _ _ _ =>
    if found = expected then none else some (.kinds expected.name found.name)
  | list found, list expected =>
    if found.length = expected.length then none
    else some (.lengths expected.length found.length)
  | text found, text expected =>
    if found = expected then none
    else some (.values (Text.quoted expected) (Text.quoted found))
  | number (.int found), number (.int expected) =>
    if found = expected then none else some (.values (toString expected) (toString found))
  | number (.float found), number (.float expected) =>
    if found.isNumber ∧ found.unsigned = expected.unsigned then none
    else some (.values expected.text found.text)
  | boolean found, boolean expected =>
    if found = expected then none
    else some (.values (Value.boolean expected).display (Value.boolean found).display)
  | absent, absent => none
  | found, expected => some (.kinds expected.kindName found.kindName)

/-- Two places are reached in the same way, and nothing differs there. -/
def Agree (found expected : List Step × View) : Prop :=
  found.1 = expected.1 ∧ found.2.mismatch? expected.2 = none

/-- What is found when two lists of places are gone through together, up to the first mismatch:
either nothing, when they agree to their ends, or the steps to the mismatch. -/
inductive FirstMismatch : (found expected : List (List Step × View)) →
    Option (List Step × Mismatch) → Prop
  | none : FirstMismatch [] [] none
  | here {steps : List Step} {one other : View} {mismatch : Mismatch}
    (differ : one.mismatch? other = some mismatch) (rest behind : List (List Step × View)) :
    FirstMismatch ((steps, one) :: rest) ((steps, other) :: behind) (some (steps, mismatch))
  | later {one other : List Step × View} {rest behind : List (List Step × View)}
    {first : Option (List Step × Mismatch)} (agree : Agree one other)
    (further : FirstMismatch rest behind first) :
    FirstMismatch (one :: rest) (other :: behind) first

/-! ## Erasing -/

variable {found expected : View}

/-- Fields are erased one by one. -/
theorem erasedFields_eq_map (fields : List (String × View)) :
    erasedFields fields = fields.map (Prod.map id erased) := by
  induction fields with
  | nil => rfl
  | cons field rest inductionHypothesis =>
    rw [erasedFields, inductionHypothesis]
    rfl

/-- Items are erased one by one. -/
theorem erasedItems_eq_map (items : List View) : erasedItems items = items.map erased := by
  induction items with
  | nil => rfl
  | cons item rest inductionHypothesis => rw [erasedItems, inductionHypothesis, List.map_cons]

/-- What an erased view holds is erased. -/
theorem parts_erased (view : View) : view.erased.parts = view.parts.map (Prod.map id erased) := by
  cases view with
  | node => simp [erased, parts, erasedFields_eq_map]
  | list => simp [erased, parts, erasedItems_eq_map, List.zipIdx_map]
  | _ => rfl

/-- All floats in a view are numbers: the root, if it is a float, and those in what it holds. -/
theorem numeric_iff (view : View) :
    view.Numeric ↔ view.isNumeric = true ∧ ∀ part ∈ view.parts, part.2.Numeric := by
  rw [Numeric, places_eq, List.forall_mem_cons]
  refine and_congr_right fun _ => ?_
  simp only [List.forall_mem_flatMap, List.forall_mem_map]
  rfl

/-- Erasing makes no number of a float that is none. -/
theorem numeric_erased (view : View) : view.erased.Numeric ↔ view.Numeric := by
  induction view using parts_induction with
  | step view inductionHypothesis =>
    have root : view.erased.isNumeric = view.isNumeric := by
      match view with
      | number (.float word) => exact word.isNumber_unsigned
      | node .. | list _ | text _ | number (.int _) | boolean _ | absent => rfl
    rw [numeric_iff, numeric_iff view, root, parts_erased, List.forall_mem_map]
    exact and_congr_right fun _ => forall₂_congr inductionHypothesis

/-- Fields are told by what a node holds. -/
theorem parts_node_inj {kind other : NodeKind} {offset further : Int} {findings more : Findings}
    {fields others : List (String × View)} :
    (node kind offset findings fields).parts = (node other further more others).parts ↔
      fields = others := by
  refine List.map_inj_right fun field other same => ?_
  obtain ⟨name, value⟩ := Prod.mk.inj same
  exact Prod.ext (Step.field.inj name) value

/-- Items are told by what a list holds. -/
theorem parts_list_inj {items others : List View} :
    (list items).parts = (list others).parts ↔ items = others := by
  refine ⟨fun same => ?_, fun same => same ▸ rfl⟩
  simpa [parts, Function.comp_def] using congrArg (List.map Prod.snd) same

/-- Views are the same when erased exactly if they do not differ in themselves, and what they hold
is the same when erased. Only a float that is no number differs from itself. -/
theorem mismatch?_eq_none_iff (found expected : View) :
    found.mismatch? expected = none ∧ found.erased.parts = expected.erased.parts ↔
      found.isNumeric = true ∧ found.erased = expected.erased := by
  cases found with
  | node =>
    cases expected with
    | node => simp [mismatch?, erased, isNumeric, parts_node_inj]
    | _ => simp [mismatch?, erased]
  | list items =>
    cases expected with
    | list others =>
      simp only [mismatch?, erased, parts_list_inj, isNumeric, list.injEq, true_and,
        ite_eq_left_iff, reduceCtorEq, imp_false, Decidable.not_not]
      refine and_iff_right_of_imp fun same => ?_
      simpa [erasedItems_eq_map] using congrArg List.length same
    | _ => simp [mismatch?, erased]
  | number value =>
    cases expected with
    | number other =>
      cases value <;> cases other <;>
        simp [mismatch?, erased, isNumeric, parts, Numeral.unsigned]
    | _ => cases value <;> simp [mismatch?, erased]
  | text | boolean | absent => cases expected <;> simp [mismatch?, erased, isNumeric, parts]

/-! ## The comparison -/

/-- Fields are compared one after the other. -/
theorem fieldDifference_eq (path : String) (found expected : List (String × View)) :
    fieldDifference path found expected = (found.zip expected).findSome? fun pair =>
      differenceAt (path ++ (Step.field pair.1.1).text) pair.1.2 pair.2.2 := by
  induction found generalizing expected with
  | nil => simp [fieldDifference]
  | cons field rest inductionHypothesis =>
    cases expected with
    | nil => simp [fieldDifference]
    | cons other further =>
      rw [fieldDifference, inductionHypothesis, List.zip_cons_cons, List.findSome?_cons,
        Step.text, ← String.append_assoc]
      cases differenceAt (path ++ "." ++ field.1) field.2 other.2 <;> rfl

/-- Items are compared one after the other. -/
theorem itemDifference_eq (path : String) (index : Nat) (found expected : List View) :
    itemDifference path index found expected =
      ((found.zipIdx index).zip (expected.zipIdx index)).findSome? fun pair =>
        differenceAt (path ++ (Step.item pair.1.2).text) pair.1.1 pair.2.1 := by
  induction found generalizing index expected with
  | nil => simp [itemDifference]
  | cons item rest inductionHypothesis =>
    cases expected with
    | nil => simp [itemDifference]
    | cons other further =>
      rw [itemDifference, inductionHypothesis, List.zipIdx_cons, List.zipIdx_cons,
        List.zip_cons_cons, List.findSome?_cons, Step.text, ← String.append_assoc,
        ← String.append_assoc]
      cases differenceAt (path ++ "[" ++ toString index ++ "]") item other <;> rfl

/-- Views that do not differ in themselves are compared by what they hold. -/
theorem differenceAt_eq (path : String) (found expected : View) :
    differenceAt path found expected =
      match found.mismatch? expected with
      | some mismatch => some ⟨path, mismatch⟩
      | none => (found.parts.zip expected.parts).findSome? fun pair =>
          differenceAt (path ++ pair.1.1.text) pair.1.2 pair.2.2 := by
  cases found with
  | node kind offset findings fields =>
    cases expected with
    | node other further more others =>
      rw [differenceAt, mismatch?, fieldDifference_eq, parts, parts, List.zip_map,
        List.findSome?_map]
      split <;> rfl
    | _ => rfl
  | list items =>
    cases expected with
    | list others =>
      rw [differenceAt, mismatch?, itemDifference_eq, parts, parts, List.zip_map,
        List.findSome?_map]
      split <;> rfl
    | _ => rfl
  | number value =>
    cases expected with
    | number other =>
      cases value <;> cases other
      case float.float found expected =>
        rw [differenceAt, mismatch?]
        simp only [← Binary64.equal_iff]
        split <;> rfl
      case int.int found expected =>
        rw [differenceAt, mismatch?]
        split <;> rfl
      all_goals rfl
    | _ => cases value <;> rfl
  | text value =>
    cases expected with
    | text other => rw [differenceAt, mismatch?]; split <;> rfl
    | _ => rfl
  | boolean value =>
    cases expected with
    | boolean other => rw [differenceAt, mismatch?]; split <;> rfl
    | _ => rfl
  | absent => cases expected <;> rfl

/-- Parts are held one by one at the same steps. -/
def Aligned (found expected : List (Step × View)) : Prop :=
  List.Forall₂ (fun one other => one.1 = other.1) found expected

/-- Parts are aligned where the steps are the same. -/
theorem Aligned.of_steps {front before : List (Step × View)}
    (steps : front.map Prod.fst = before.map Prod.fst) : Aligned front before := by
  rw [← List.forall₂_eq_eq_eq] at steps
  exact List.forall₂_map_right_iff.mp (List.forall₂_map_left_iff.mp steps)

/-- Views that do not differ in themselves hold things at the same steps. -/
theorem Formed.aligned (formed : found.Formed) (expectedFormed : expected.Formed)
    (same : found.mismatch? expected = none) : Aligned found.parts expected.parts := by
  cases formed with
  | @node kind _ _ fields names _ =>
    cases expectedFormed with
    | @node other _ _ others otherNames _ =>
      have kinds : kind = other := by simpa [mismatch?] using same
      exact .of_steps (by rw [steps_node, steps_node, names, otherNames, kinds])
    | _ => exact nomatch same
  | @list items _ =>
    cases expectedFormed with
    | @list others _ =>
      have lengths : items.length = others.length := by simpa [mismatch?] using same
      exact .of_steps (by rw [steps_list, steps_list, lengths])
    | _ => exact nomatch same
  | number value =>
    cases expectedFormed with
    | node | list => cases value <;> exact nomatch same
    | _ => exact .nil
  | text | boolean | absent =>
    cases expectedFormed with
    | node | list => exact nomatch same
    | _ => exact .nil

/-- Aligned parts agree in each pair exactly if all of them do. -/
theorem Aligned.forall_zip_iff {good : View → Prop} {front before : List (Step × View)}
    (aligned : Aligned front before) :
    (∀ pair ∈ front.zip before, good pair.1.2 ∧ pair.1.2.erased = pair.2.2.erased) ↔
      (∀ part ∈ front, good part.2) ∧
        front.map (Prod.map id erased) = before.map (Prod.map id erased) := by
  induction aligned with
  | nil => simp
  | @cons one other rest behind same _ inductionHypothesis =>
    simp only [List.zip_cons_cons, List.forall_mem_cons, inductionHypothesis, List.map_cons,
      List.cons.injEq, Prod.map, Prod.mk.injEq, id, same, true_and]
    tauto

/-- A comparison finds nothing exactly if all floats are numbers and the views are the same when
erased. -/
theorem differenceAt_eq_none_iff (path : String) (formed : found.Formed)
    (expectedFormed : expected.Formed) :
    differenceAt path found expected = none ↔ found.Numeric ∧ found.erased = expected.erased := by
  induction found using parts_induction generalizing path expected with
  | step found inductionHypothesis =>
    rw [differenceAt_eq, numeric_iff, and_right_comm, ← mismatch?_eq_none_iff]
    cases differs : found.mismatch? expected with
    | some mismatch => simp
    | none =>
      simp only [List.findSome?_eq_none_iff, true_and, parts_erased]
      rw [and_comm, ← (formed.aligned expectedFormed differs).forall_zip_iff]
      refine forall₂_congr fun pair among => ?_
      obtain ⟨one, other⟩ := List.of_mem_zip among
      exact inductionHypothesis pair.1 one _ (formed.parts _ one) (expectedFormed.parts _ other)

/-! ## The first difference -/

section Places

variable {front before rest behind : List (List Step × View)}
  {first second : Option (List Step × Mismatch)}

/-- Two stretches of places, one behind the other. -/
theorem FirstMismatch.append (one : FirstMismatch front before first)
    (other : FirstMismatch rest behind second) :
    FirstMismatch (front ++ rest) (before ++ behind) (first.or second) := by
  induction one with
  | none => exact other
  | here differ => exact .here differ _ _
  | later agree _ inductionHypothesis => exact .later agree inductionHypothesis

/-- Places one step down the tree. -/
theorem FirstMismatch.deeper (step : Step) (one : FirstMismatch front before first) :
    FirstMismatch (front.map (Prod.map (step :: ·) id)) (before.map (Prod.map (step :: ·) id))
      (first.map (Prod.map (step :: ·) id)) := by
  induction one with
  | none => exact .none
  | here differ => exact .here differ _ _
  | later agree _ inductionHypothesis =>
    exact .later ⟨congrArg (step :: ·) agree.1, agree.2⟩ inductionHypothesis

end Places

/-- A mismatch with the steps to it, as it is reported by a comparison that began at a path. -/
def report (path : String) (mismatch : List Step × Mismatch) : Difference :=
  ⟨path ++ Step.path mismatch.1, mismatch.2⟩

/-- A comparison reports the first place where something differs. -/
def Reports (path : String) (found expected : List (List Step × View))
    (outcome : Option Difference) : Prop :=
  ∃ first, FirstMismatch found expected first ∧ outcome = first.map (report path)

/-- Aligned parts are compared one after the other. -/
theorem Aligned.reports (path : String) {front before : List (Step × View)}
    (aligned : Aligned front before)
    (each : ∀ pair ∈ front.zip before, Reports (path ++ pair.1.1.text) pair.1.2.places
      pair.2.2.places (differenceAt (path ++ pair.1.1.text) pair.1.2 pair.2.2)) :
    Reports path (front.flatMap fun part => part.2.places.map (Prod.map (part.1 :: ·) id))
      (before.flatMap fun part => part.2.places.map (Prod.map (part.1 :: ·) id))
      ((front.zip before).findSome? fun pair =>
        differenceAt (path ++ pair.1.1.text) pair.1.2 pair.2.2) := by
  induction aligned with
  | nil => exact ⟨none, .none, rfl⟩
  | @cons one other rest behind same _ inductionHypothesis =>
    rw [List.zip_cons_cons, List.forall_mem_cons] at each
    obtain ⟨first, compared, outcome⟩ := each.1
    obtain ⟨second, further, later⟩ := inductionHypothesis each.2
    have front := compared.deeper one.1
    simp only [same] at front
    refine ⟨_, by simpa only [List.flatMap_cons, same] using front.append further, ?_⟩
    rw [List.zip_cons_cons, List.findSome?_cons, outcome, later]
    cases first with
    | none => rfl
    | some mismatch => simp [report, Step.path, String.append_assoc, same]

/-- A comparison tells the first place where something differs. -/
theorem differenceAt_reports (path : String) (formed : found.Formed)
    (expectedFormed : expected.Formed) :
    Reports path found.places expected.places (differenceAt path found expected) := by
  induction found using parts_induction generalizing path expected with
  | step found inductionHypothesis =>
    rw [differenceAt_eq, places_eq, places_eq expected]
    cases differs : found.mismatch? expected with
    | some mismatch => exact ⟨some ([], mismatch), .here differs _ _, by simp [report, Step.path]⟩
    | none =>
      have below := (formed.aligned expectedFormed differs).reports path
        fun pair among => by
          obtain ⟨one, other⟩ := List.of_mem_zip among
          exact inductionHypothesis pair.1 one _ (formed.parts _ one)
            (expectedFormed.parts _ other)
      obtain ⟨first, compared, outcome⟩ := below
      exact ⟨first, .later ⟨rfl, differs⟩ compared, outcome⟩

end View

/-! ## Nodes -/

namespace Node

/-- All floats in a node are numbers. -/
def Numeric (node : Node) : Prop := node.view.Numeric

/-- Nodes are found to be the same exactly if all their floats are numbers and they are the same
when offsets, types, links and the signs of zeros are erased. -/
theorem difference?_eq_none_iff (found expected : Node) :
    found.difference? expected = none ↔
      found.Numeric ∧ expected.Numeric ∧ found.view.erased = expected.view.erased := by
  rw [difference?, View.differenceAt_eq_none_iff _ found.formed expected.formed]
  refine and_congr_right fun numeric => (and_iff_right_of_imp fun same => ?_).symm
  rw [Numeric, ← View.numeric_erased, ← same, View.numeric_erased]
  exact numeric

open View in
/-- The comparison of nodes finds nothing exactly if all their floats are numbers and they are the
same but for offsets, types, links and the signs of zeros. Otherwise it reports the first place,
depth first, where kinds, lengths or values differ, by the only path that leads there. So it is an
equivalence of the nodes whose floats are all numbers, and finds a difference for all others. Views
are all that counts, since the view of a node tells everything about it. -/
theorem comparison_exact :
    (∀ found expected : Node,
      (found.difference? expected = none ↔
        found.Numeric ∧ expected.Numeric ∧ found.view.erased = expected.view.erased) ∧
      ∃ first, FirstMismatch found.view.places expected.view.places first ∧
        found.difference? expected = first.map (report expected.kind.name)) ∧
    (∀ node : Node, (node.view.places.map fun place => Step.path place.1).Nodup) ∧
    Function.Injective Node.view ∧
    Equivalence fun found expected : { node : Node // node.Numeric } =>
      found.1.difference? expected.1 = none := by
  refine ⟨fun found expected => ⟨difference?_eq_none_iff found expected, ?_⟩,
    fun node => node.formed.paths_nodup, view_injective, ?_⟩
  · exact differenceAt_reports expected.kind.name found.formed expected.formed
  · have same (found expected : { node : Node // node.Numeric }) :
        found.1.difference? expected.1 = none ↔ found.1.view.erased = expected.1.view.erased := by
      rw [difference?_eq_none_iff, and_iff_right found.2, and_iff_right expected.2]
    simp only [same]
    exact ⟨fun _ => rfl, Eq.symm, Eq.trans⟩

-- An integer differs from a float, at whatever offsets they stand.
example :
    let elements (offset : Int) (value : Numeral) : Node := .expression
      (.array offset [.number (offset + 1) (.int 1), .number (offset + 4) value])
    (elements 0 (.int 2)).difference? (elements 7 (.float (.ofDecimal 2 0))) =
      some ⟨"ArrayLiteral.elements[1].value", .kinds "float" "int"⟩ := by
  decide +kernel

/-- A float that is no number differs from itself, so the comparison is no equivalence of all
nodes. -/
theorem comparison_notANumber :
    let node : Node := .expression (.number 0 (.float .notANumber))
    node.difference? node = some ⟨"NumericLiteral.value", .values "nan" "nan"⟩ ∧
      ¬ (∀ found expected : Node,
        found.difference? expected = none ↔ found.view.erased = expected.view.erased) ∧
      ¬ Equivalence fun found expected : Node => found.difference? expected = none := by
  intro node
  have differs : node.difference? node = some ⟨"NumericLiteral.value", .values "nan" "nan"⟩ := by
    decide +kernel
  refine ⟨differs, fun exact => ?_, fun equivalence => ?_⟩
  · exact nomatch differs.symm.trans ((exact node node).mpr rfl)
  · exact nomatch differs.symm.trans (equivalence.refl node)

end Node

end ArrowScript
