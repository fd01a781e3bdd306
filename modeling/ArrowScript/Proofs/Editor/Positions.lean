import Mathlib.Data.List.Induction
import ArrowScript.Position

/-!
# Offsets and positions

A text is cut at its line breaks into lines, and there is only one way to do it. Where an offset
stands, some lines have been ended and a stretch of the next one has been passed: its position
is their number and the length of the stretch. So an offset is found again from its position,
and a position from its offset, where it is in the text at all. What is not is moved to the end
of its line, or of the last one.
-/

namespace ArrowScript

/-! ## Lines -/

namespace Text

/-- The parts of a text between the occurrences of a separator: there is at least one, none
contains the separator, and joined by it they are the text. -/
structure Parts (separator : Char) (text : List Char) (parts : List (List Char)) : Prop where
  nonempty : parts ≠ []
  intact : ∀ part ∈ parts, separator ∉ part
  joined : [separator].intercalate parts = text

variable {separator : Char} {text : List Char}

/-- A text without the separator is one part. -/
theorem split_intact (intact : separator ∉ text) : split separator text = [text] := by
  induction text with
  | nil => rfl
  | cons first rest inductionHypothesis =>
    rw [List.mem_cons, not_or] at intact
    rw [split, if_neg (Ne.symm intact.1), inductionHypothesis intact.2]

/-- What stands before the first separator is the first part. -/
theorem split_append (intact : separator ∉ text) (rest : List Char) :
    split separator (text ++ separator :: rest) = text :: split separator rest := by
  induction text with
  | nil => rw [List.nil_append, split, if_pos rfl]
  | cons first others inductionHypothesis =>
    rw [List.mem_cons, not_or] at intact
    rw [List.cons_append, split, if_neg (Ne.symm intact.1), inductionHypothesis intact.2]

/-- The parts of a text are those into which it is split. -/
theorem Parts.split_eq {parts : List (List Char)} (isParts : Parts separator text parts) :
    split separator text = parts := by
  obtain ⟨nonempty, intact, rfl⟩ := isParts
  induction parts with
  | nil => exact absurd rfl nonempty
  | cons part others inductionHypothesis =>
    obtain ⟨here, behind⟩ := List.forall_mem_cons.mp intact
    cases others with
    | nil => rw [List.intercalate_singleton, split_intact here]
    | cons next further =>
      rw [List.intercalate_cons_cons, List.append_assoc, List.singleton_append, split_append here,
        inductionHypothesis (List.cons_ne_nil _ _) behind]

/-- More characters in front of the first part are in front of the joined text. -/
theorem intercalate_append_cons (front part : List Char) (others : List (List Char)) :
    [separator].intercalate ((front ++ part) :: others) =
      front ++ [separator].intercalate (part :: others) := by
  cases others with
  | nil => rw [List.intercalate_singleton, List.intercalate_singleton]
  | cons next further =>
    rw [List.intercalate_cons_cons, List.intercalate_cons_cons, List.append_assoc,
      List.append_assoc, List.append_assoc]

/-- A text is split into its parts. -/
theorem parts_split (separator : Char) (text : List Char) :
    Parts separator text (split separator text) := by
  induction text with
  | nil => exact ⟨List.cons_ne_nil _ _, by simp [split], by simp [split]⟩
  | cons first rest inductionHypothesis =>
    obtain ⟨nonempty, intact, joined⟩ := inductionHypothesis
    obtain ⟨part, others, parts⟩ := List.exists_cons_of_ne_nil nonempty
    rw [parts] at intact joined
    obtain ⟨here, behind⟩ := List.forall_mem_cons.mp intact
    rw [split, parts]
    split
    next same =>
      refine ⟨List.cons_ne_nil _ _, List.forall_mem_cons.mpr ⟨List.not_mem_nil, intact⟩, ?_⟩
      rw [List.intercalate_cons_cons, joined, same]
      rfl
    next apart =>
      have still : separator ∉ first :: part :=
        List.not_mem_cons_of_ne_of_not_mem (Ne.symm apart) here
      refine ⟨List.cons_ne_nil _ _, List.forall_mem_cons.mpr ⟨still, behind⟩, ?_⟩
      exact (intercalate_append_cons [first] part others).trans (congrArg (first :: ·) joined)

/-- Several parts, each with the separator behind it. -/
def ended (separator : Char) (parts : List (List Char)) : List Char :=
  parts.flatMap (· ++ [separator])

/-- Every part but the last one is ended by the separator. -/
theorem intercalate_append (earlier : List (List Char)) (part : List Char)
    (others : List (List Char)) :
    [separator].intercalate (earlier ++ part :: others) =
      ended separator earlier ++ [separator].intercalate (part :: others) := by
  induction earlier with
  | nil => rfl
  | cons first rest inductionHypothesis =>
    obtain ⟨next, further, behind⟩ := List.exists_cons_of_ne_nil
      (List.append_ne_nil_of_right_ne_nil rest (List.cons_ne_nil part others))
    rw [List.cons_append, behind, List.intercalate_cons_cons, ← behind, inductionHypothesis, ended,
      ended, List.flatMap_cons, List.append_assoc, List.append_assoc, List.append_assoc]

end Text

/-! ## Where a position is -/

namespace Position

/-- After a stretch without line breaks the position is in the same line. -/
theorem after_append (text : List Char) {stretch : List Char} (unbroken : '\n' ∉ stretch) :
    after (text ++ stretch) =
      ⟨(after text).line, (after text).character + stretch.length⟩ := by
  rw [after, List.foldl_append, ← after]
  generalize after text = position
  induction stretch generalizing position with
  | nil => rfl
  | cons first rest inductionHypothesis =>
    rw [List.mem_cons, not_or] at unbroken
    rw [List.foldl_cons, step, if_neg (Ne.symm unbroken.1), inductionHypothesis unbroken.2,
      List.length_cons]
    exact congrArg (Position.mk _) (Nat.add_right_comm _ _ _)

/-- A position is given by the number of ended lines and the length of the stretch behind
them. -/
theorem after_ended {lines : List (List Char)} (unbroken : ∀ line ∈ lines, '\n' ∉ line)
    {stretch : List Char} (lineless : '\n' ∉ stretch) :
    after (Text.ended '\n' lines ++ stretch) = ⟨lines.length, stretch.length⟩ := by
  suffices atStart : after (Text.ended '\n' lines) = ⟨lines.length, 0⟩ by
    rw [after_append _ lineless, atStart, Nat.zero_add]
  induction lines using List.reverseRecOn with
  | nil => rfl
  | append_singleton lines line inductionHypothesis =>
    obtain ⟨before, last⟩ := List.forall_mem_append.mp unbroken
    have inLine := after_append (Text.ended '\n' lines) (last line (List.mem_singleton_self _))
    rw [Text.ended, List.flatMap_append, List.flatMap_singleton, ← Text.ended, ← List.append_assoc,
      after, List.foldl_append, ← after, inLine, inductionHypothesis before, List.length_append]
    rfl

/-- A position comes before another if its line does, or its place in the same line. -/
def Before (first second : Position) : Prop :=
  first.line < second.line ∨ first.line = second.line ∧ first.character < second.character

/-- A position that comes before one comes before the later ones. -/
theorem Before.trans {first second third : Position} (one : first.Before second)
    (other : second.Before third) : first.Before third := by
  unfold Before at *
  omega

/-- Every character leads to a later position. -/
theorem before_step (position : Position) (character : Char) :
    position.Before (position.step character) := by
  rw [step]
  split
  · exact .inl (Nat.lt_succ_self _)
  · exact .inr ⟨rfl, Nat.lt_succ_self _⟩

/-- A longer text leads to a later position. -/
theorem after_before (text : List Char) {stretch : List Char} (nonempty : stretch ≠ []) :
    (after text).Before (after (text ++ stretch)) := by
  rw [after, after, List.foldl_append, ← after]
  generalize after text = position
  induction stretch generalizing position with
  | nil => exact absurd rfl nonempty
  | cons first rest inductionHypothesis =>
    rw [List.foldl_cons]
    rcases List.eq_nil_or_concat rest with rfl | ⟨_, _, rfl⟩
    · exact position.before_step first
    · exact (position.before_step first).trans (inductionHypothesis (by simp) _)

end Position

open Text

variable {source : String}

/-- The position of the offset behind the front of a source. -/
theorem positionAt_front {front back : List Char} (text : source.toList = front ++ back) :
    positionAt source front.length = .after front := by
  rw [positionAt, Int.toNat_natCast, text, List.take_left]

/-- The offset of a position in one of the lines. -/
theorem offsetAt_line {earlier later : List (List Char)} {line : List Char}
    (lines : Parts '\n' source.toList (earlier ++ line :: later)) (character : Nat) :
    offsetAt source ⟨earlier.length, character⟩ =
      (ended '\n' earlier).length + min character line.length := by
  have before : (earlier ++ line :: later).length - 1 = earlier.length + later.length := by
    rw [List.length_append, List.length_cons]
    omega
  have summed (total : Nat) : earlier.foldl (fun total text => total + text.length + 1) total =
      total + (ended '\n' earlier).length := by
    clear lines before
    induction earlier generalizing total with
    | nil => rfl
    | cons first rest inductionHypothesis =>
      rw [List.foldl_cons, inductionHypothesis, ended, ended, List.flatMap_cons, List.length_append,
        List.length_append, List.length_singleton]
      omega
  rw [offsetAt, lines.split_eq]
  simp only
  rw [before, Nat.min_eq_left (Nat.le_add_right _ _), List.take_left, summed, Nat.zero_add,
    List.getElem?_append_right (Nat.le_refl _), Nat.sub_self]
  rfl

/-- Beyond the last line an offset is that in the last line. -/
theorem offsetAt_beyond {lines : List (List Char)} (isLines : Parts '\n' source.toList lines)
    {position : Position} (beyond : lines.length ≤ position.line) :
    offsetAt source position = offsetAt source ⟨lines.length - 1, position.character⟩ := by
  have last : min position.line (lines.length - 1) = lines.length - 1 := by omega
  rw [offsetAt, offsetAt, isLines.split_eq]
  simp only [last, Nat.min_self]

/-- A position in a line is found again, with its place moved to the end of the line where it
is beyond it. -/
theorem positionAt_line {earlier later : List (List Char)} {line : List Char}
    (lines : Parts '\n' source.toList (earlier ++ line :: later)) (character : Nat) :
    positionAt source (offsetAt source ⟨earlier.length, character⟩) =
      ⟨earlier.length, min character line.length⟩ := by
  obtain ⟨unbroken, others⟩ := List.forall_mem_append.mp lines.intact
  have lineless : '\n' ∉ line.take character :=
    fun among => others line List.mem_cons_self (List.mem_of_mem_take among)
  -- the ended lines and the stretch of the line are the front of the source
  have text : source.toList = (ended '\n' earlier ++ line.take character) ++
      ['\n'].intercalate (line.drop character :: later) := by
    rw [← lines.joined, intercalate_append, List.append_assoc,
      ← intercalate_append_cons (line.take character), List.take_append_drop]
  have stands : offsetAt source ⟨earlier.length, character⟩ =
      (ended '\n' earlier ++ line.take character).length := by
    rw [offsetAt_line lines, List.length_append, List.length_take]
  rw [stands, positionAt_front text, Position.after_ended unbroken lineless, List.length_take]

/-- An offset in a source is found again from its position. -/
theorem offsetAt_front {front back : List Char} (text : source.toList = front ++ back) :
    offsetAt source (positionAt source front.length) = front.length := by
  obtain ⟨nonempty, intact, joined⟩ := parts_split '\n' front
  obtain ⟨otherNonempty, otherIntact, otherJoined⟩ := parts_split '\n' back
  obtain ⟨earlier, stretch, lines⟩ : ∃ earlier stretch, split '\n' front = earlier ++ [stretch] :=
    ⟨_, _, (List.dropLast_concat_getLast nonempty).symm⟩
  obtain ⟨more, later, others⟩ := List.exists_cons_of_ne_nil otherNonempty
  rw [lines] at intact joined
  rw [others] at otherIntact otherJoined
  rw [intercalate_append, List.intercalate_singleton] at joined
  obtain ⟨unbroken, inStretch⟩ := List.forall_mem_append.mp intact
  obtain ⟨inMore, inLater⟩ := List.forall_mem_cons.mp otherIntact
  have lineless : '\n' ∉ stretch := inStretch stretch (List.mem_singleton_self _)
  -- the line that the offset is in goes on behind it
  have whole : Parts '\n' source.toList (earlier ++ (stretch ++ more) :: later) := by
    refine ⟨List.append_ne_nil_of_right_ne_nil _ (List.cons_ne_nil _ _), ?_, ?_⟩
    · refine List.forall_mem_append.mpr ⟨unbroken, List.forall_mem_cons.mpr ⟨?_, inLater⟩⟩
      exact fun among => (List.mem_append.mp among).elim lineless inMore
    · rw [intercalate_append, intercalate_append_cons, otherJoined, ← List.append_assoc, joined,
        text]
  rw [positionAt_front text, ← joined, Position.after_ended unbroken lineless, offsetAt_line whole,
    List.length_append, List.length_append, Nat.min_eq_left (Nat.le_add_right _ _)]

/-- Outside of a source an offset has the position of the nearest end. -/
theorem positionAt_clamped (source : String) (offset : Int) :
    positionAt source offset = positionAt source (min offset.toNat source.length : Nat) := by
  rw [positionAt, positionAt, Int.toNat_natCast, ← String.length_toList]
  congr 1
  exact List.take_eq_take_min

/-- Offsets and positions are inverse to each other as far as they are in the source. An offset
outside of it is moved to the nearest end, a position behind its line to the end of the line,
and one in no line to the last line. A greater offset has a later position. -/
theorem offsets_positions_inverse (source : String) :
    (∀ offset : Int, (offsetAt source (positionAt source offset) : Int) =
      max 0 (min offset source.length)) ∧
    (∃ lines, Parts '\n' source.toList lines ∧ ∀ position : Position,
      (∀ line, lines[position.line]? = some line →
        positionAt source (offsetAt source position) =
          ⟨position.line, min position.character line.length⟩) ∧
      (∀ last, lines.length ≤ position.line → lines.getLast? = some last →
        positionAt source (offsetAt source position) =
          ⟨lines.length - 1, min position.character last.length⟩)) ∧
    (∀ first second : Int, 0 ≤ first → first < second → second ≤ source.length →
      (positionAt source first).Before (positionAt source second)) := by
  refine ⟨fun offset => ?_, ⟨_, parts_split '\n' source.toList, fun position => ⟨?_, ?_⟩⟩, ?_⟩
  · have front : (source.toList.take (min offset.toNat source.length)).length =
        min offset.toNat source.length := by
      rw [List.length_take, String.length_toList]
      omega
    have found :=
      offsetAt_front (List.take_append_drop (min offset.toNat source.length) source.toList).symm
    rw [front] at found
    rw [positionAt_clamped, found]
    omega
  · intro line here
    obtain ⟨inside, rfl⟩ := List.getElem?_eq_some_iff.mp here
    have lines := parts_split '\n' source.toList
    generalize split '\n' source.toList = parts at lines inside ⊢
    have earlier : (parts.take position.line).length = position.line :=
      List.length_take_of_le (Nat.le_of_lt inside)
    have cut : parts = parts.take position.line ++ parts[position.line] ::
        parts.drop (position.line + 1) := by
      rw [List.getElem_cons_drop, List.take_append_drop]
    rw [cut] at lines
    have found := positionAt_line lines position.character
    rwa [earlier] at found
  · intro last beyond final
    have lines := parts_split '\n' source.toList
    generalize split '\n' source.toList = parts at lines beyond final ⊢
    obtain ⟨earlier, rfl⟩ := List.getLast?_eq_some_iff.mp final
    have count : (earlier ++ [last]).length - 1 = earlier.length := by
      rw [List.length_append, List.length_singleton, Nat.add_sub_cancel]
    rw [offsetAt_beyond lines beyond, count, positionAt_line lines]
  · intro first second start less stop
    obtain ⟨first, rfl⟩ := Int.eq_ofNat_of_zero_le start
    obtain ⟨second, rfl⟩ := Int.eq_ofNat_of_zero_le (Int.le_trans start (Int.le_of_lt less))
    rw [← String.length_toList] at stop
    have cut : source.toList.take second =
        source.toList.take first ++ (source.toList.drop first).take (second - first) := by
      rw [← List.take_add, Nat.add_sub_cancel' (by omega)]
    rw [positionAt, positionAt, Int.toNat_natCast, Int.toNat_natCast, cut]
    refine Position.after_before _ fun none => ?_
    have long := congrArg List.length none
    rw [List.length_take, List.length_drop, List.length_nil] at long
    omega

/-- A text of one line and two empty ones: the last offset is behind the last line break, a place
behind the first line is at its end, and what is below the last line is in it. -/
theorem offsets_positions_inverse_trailingBreaks :
    (offsetAt "ab\n\n" (positionAt "ab\n\n" 9) : Int) = 4 ∧
      positionAt "ab\n\n" (offsetAt "ab\n\n" ⟨0, 9⟩) = ⟨0, 2⟩ ∧
      positionAt "ab\n\n" (offsetAt "ab\n\n" ⟨7, 5⟩) = ⟨2, 0⟩ ∧
      (positionAt "ab\n\n" 2).Before (positionAt "ab\n\n" 3) := by
  obtain ⟨offsets, ⟨lines, isLines, positions⟩, increasing⟩ := offsets_positions_inverse "ab\n\n"
  obtain rfl : [['a', 'b'], [], []] = lines := isLines.split_eq
  exact ⟨offsets 9, (positions ⟨0, 9⟩).1 ['a', 'b'] rfl,
    (positions ⟨7, 5⟩).2 [] (by decide) rfl, increasing 2 3 (by decide) (by decide) (by decide)⟩

end ArrowScript
