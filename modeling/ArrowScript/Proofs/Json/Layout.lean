import ArrowScript.Proofs.Json.Escapes
import ArrowScript.Proofs.Json.Numerals

/-!
# Documents can be read in one way only

The first character of a document tells its form. Behind a value there is a comma, the end of
a line, or nothing, and a number goes on into none of these. Behind an item there is a comma if
another one follows, and the end of a line before the closing bracket if none does. So two
documents have the same text only if they are the same, up to floats that are no numbers.
-/

namespace ArrowScript.Json

/-! ## Recorded documents -/

mutual

/-- A document with one word for all that are no numbers. -/
def recorded : Json → Json
  | null => null
  | boolean value => boolean value
  | number value => number value.recorded
  | string value => string value
  | array items => array (recordedAll items)
  | object members => object (recordedMembers members)

/-- Several documents with one word for all that are no numbers. -/
def recordedAll : List Json → List Json
  | [] => []
  | item :: rest => item.recorded :: recordedAll rest

/-- The members of an object with one word for all that are no numbers. -/
def recordedMembers : List (String × Json) → List (String × Json)
  | [] => []
  | (key, value) :: rest => (key, value.recorded) :: recordedMembers rest

end

/-- Several documents are recorded one by one. -/
theorem recordedAll_eq_map (items : List Json) : recordedAll items = items.map recorded := by
  induction items with
  | nil => rfl
  | cons item rest inductionHypothesis => rw [recordedAll, inductionHypothesis, List.map_cons]

/-- Members are recorded one by one. -/
theorem recordedMembers_eq_map (members : List (String × Json)) :
    recordedMembers members = members.map fun member => (member.1, member.2.recorded) := by
  induction members with
  | nil => rfl
  | cons member rest inductionHypothesis =>
    rw [recordedMembers, inductionHypothesis, List.map_cons]

mutual

/-- A document is written as what is recorded of it. -/
theorem textAt_recorded (level : Nat) (document : Json) :
    document.recorded.textAt level = document.textAt level := by
  match document with
  | null | boolean _ | string _ => rfl
  | number value => exact numeralText_recorded value
  | array items =>
    exact congrArg (enclosed "[" "]" level) (itemTexts_recorded (level + 1) items)
  | object members =>
    exact congrArg (enclosed "\x7b" "\x7d" level) (memberTexts_recorded (level + 1) members)

/-- So are several documents. -/
theorem itemTexts_recorded (level : Nat) (items : List Json) :
    itemTexts level (recordedAll items) = itemTexts level items := by
  match items with
  | [] => rfl
  | item :: rest =>
    rw [recordedAll, itemTexts, textAt_recorded level item, itemTexts_recorded level rest,
      itemTexts]

/-- So are the members of an object. -/
theorem memberTexts_recorded (level : Nat) (members : List (String × Json)) :
    memberTexts level (recordedMembers members) = memberTexts level members := by
  match members with
  | [] => rfl
  | (key, value) :: rest =>
    rw [recordedMembers, memberTexts, textAt_recorded level value,
      memberTexts_recorded level rest, memberTexts]

end

/-! ## The characters of a document -/

/-- The characters of a document whose first line stands at a level of indentation. -/
def chars (level : Nat) (document : Json) : List Char := (document.textAt level).toList

/-- The characters of a member of an object. -/
def memberChars (level : Nat) (member : String × Json) : List Char :=
  '"' :: member.1.toList.flatMap escaped ++ '"' :: ':' :: ' ' :: member.2.chars level

/-- The characters of the beginning of a line. -/
def lineChars (level : Nat) : List Char := '\n' :: List.replicate (2 * level) ' '

section Enclosed

variable {Item : Type} (written : Item → List Char)

/-- Items behind a first one, each behind a comma and on a line of its own. -/
def furtherChars (level : Nat) (items : List Item) : List Char :=
  items.flatMap fun item => ',' :: lineChars level ++ written item

/-- The characters of items between brackets. -/
def enclosedChars (opening closing : Char) (level : Nat) : List Item → List Char
  | [] => [opening, closing]
  | first :: rest => opening :: lineChars (level + 1) ++ written first ++
      furtherChars written (level + 1) rest ++ lineChars level ++ [closing]

/-- Separated items are a first one and the others behind commas. -/
theorem intercalate_lines (level : Nat) (first : Item) (rest : List Item) :
    List.intercalate (',' :: lineChars level) ((first :: rest).map written) =
      written first ++ furtherChars written level rest := by
  induction rest generalizing first with
  | nil => simp [furtherChars, List.intercalate_singleton]
  | cons second rest inductionHypothesis =>
    rw [List.map_cons, List.map_cons, List.intercalate_cons_cons, ← List.map_cons,
      inductionHypothesis]
    simp [furtherChars]

/-- The beginning of a line is written as its characters. -/
theorem toList_newline (level : Nat) : (newline level).toList = lineChars level := by
  rw [newline, String.toList_append, String.toList_ofList, String.toList_ofList]
  rfl

/-- Items between brackets are written as their characters. -/
theorem toList_enclosed {opening closing : String} {opens closes : Char}
    (isOpening : opening.toList = [opens]) (isClosing : closing.toList = [closes]) (level : Nat)
    {texts : List String} {items : List Item}
    (same : texts.map String.toList = items.map written) :
    (enclosed opening closing level texts).toList =
      enclosedChars written opens closes level items := by
  match texts, items with
  | [], [] => rw [enclosed, String.toList_append, isOpening, isClosing]; rfl
  | [], _ :: _ | _ :: _, [] => exact nomatch same
  | text :: texts, first :: rest =>
    have separator : ("," ++ newline (level + 1)).toList = ',' :: lineChars (level + 1) := by
      rw [String.toList_append, toList_newline]
      rfl
    simp only [enclosed, String.toList_append, String.toList_intercalate, separator, same,
      intercalate_lines, toList_newline, isOpening, isClosing, enclosedChars]
    simp

end Enclosed

/-- A text is written between quotes. -/
theorem toList_quoted (text : String) :
    (quoted text).toList = '"' :: text.toList.flatMap escaped ++ ['"'] := by
  rw [quoted, String.toList_ofList]

/-- A truth value is written in lower case. -/
theorem chars_boolean (level : Nat) (value : Bool) :
    (boolean value).chars level =
      if value then ['t', 'r', 'u', 'e'] else ['f', 'a', 'l', 's', 'e'] := by
  cases value <;> rw [chars, textAt] <;> rfl

/-- A list is written between brackets. -/
theorem chars_array (level : Nat) (items : List Json) :
    (array items).chars level = enclosedChars (chars (level + 1)) '[' ']' level items := by
  refine toList_enclosed _ rfl rfl level ?_
  induction items with
  | nil => rfl
  | cons item rest inductionHypothesis =>
    rw [itemTexts, List.map_cons, List.map_cons, inductionHypothesis]
    rfl

/-- An object is written between braces. -/
theorem chars_object (level : Nat) (members : List (String × Json)) :
    (object members).chars level =
      enclosedChars (memberChars (level + 1)) '\x7b' '\x7d' level members := by
  refine toList_enclosed _ rfl rfl level ?_
  induction members with
  | nil => rfl
  | cons member rest inductionHypothesis =>
    rw [memberTexts, List.map_cons, List.map_cons, inductionHypothesis]
    simp [memberChars, toList_quoted, chars]

/-! ## Forms -/

/-- The character that stands for the form of a document. -/
def form : Json → Char
  | null => 'n'
  | boolean _ => 't'
  | number _ => '0'
  | string _ => '"'
  | array _ => '['
  | object _ => '\x7b'

/-- The form that a first character tells. -/
def formOf (first : Char) : Char :=
  if first = 'f' then 't'
  else if first ∈ ['n', 't', '"', '[', '\x7b'] then first
  else '0'

/-- A digit tells a number. -/
theorem formOf_digit {first : Char} (digit : first.isDigit = true) : formOf first = '0' := by
  have other {mark : Char} (noDigit : mark.isDigit = false) : first ≠ mark := by
    rintro rfl
    exact absurd digit (by simp [noDigit])
  rw [formOf, if_neg (other rfl), if_neg]
  simp only [List.mem_cons, List.not_mem_nil, or_false, not_or]
  exact ⟨other rfl, other rfl, other rfl, other rfl, other rfl⟩

/-- The text of a number begins with a character that tells numbers. -/
theorem numeralText_opens (value : Numeral) :
    ∃ first rest, (numeralText value).toList = first :: rest ∧ formOf first = '0' := by
  have signed {negative : Bool} {text : List Char}
      (opens : ∃ first ∈ text.head?, first.isDigit = true) : ∃ first rest,
        (if negative then ['-'] else []) ++ text = first :: rest ∧ formOf first = '0' := by
    cases negative with
    | true => exact ⟨'-', text, rfl, rfl⟩
    | false =>
      obtain ⟨first, isFirst, digit⟩ := opens
      obtain ⟨rest, split⟩ := List.head?_eq_some_iff.mp isFirst
      exact ⟨first, rest, split, formOf_digit digit⟩
  cases value with
  | int value => exact toList_int value ▸ signed (toDigits_opens _)
  | float number =>
    by_cases finite : number.finite = true
    · rw [numeralText, if_pos finite, Binary64.toList_text finite]
      exact signed (Binary64.magnitudeText_writes number).opens
    · rw [numeralText_infinite (Bool.eq_false_iff.mpr finite)]
      split
      · split
        · exact ⟨'-', _, rfl, rfl⟩
        · exact ⟨'I', _, rfl, rfl⟩
      · exact ⟨'N', _, rfl, rfl⟩

/-- A document begins with a character that tells its form. -/
theorem chars_opens (level : Nat) (document : Json) :
    ∃ first rest, document.chars level = first :: rest ∧ formOf first = document.form := by
  cases document with
  | null => exact ⟨'n', ['u', 'l', 'l'], by rw [chars, textAt]; rfl, rfl⟩
  | boolean value =>
    rw [chars_boolean]
    cases value <;> exact ⟨_, _, rfl, rfl⟩
  | number value => exact numeralText_opens value
  | string value => exact ⟨'"', _, toList_quoted value, rfl⟩
  | array items =>
    rw [chars_array]
    cases items <;> exact ⟨'[', _, rfl, rfl⟩
  | object members =>
    rw [chars_object]
    cases members <;> exact ⟨'\x7b', _, rfl, rfl⟩

/-- Documents that are written alike have the same form. -/
theorem form_eq {one other : Json} {level : Nat} {rest further : List Char}
    (alike : one.chars level ++ rest = other.chars level ++ further) : one.form = other.form := by
  obtain ⟨first, behind, opens, form⟩ := chars_opens level one
  obtain ⟨first', behind', opens', form'⟩ := chars_opens level other
  rw [opens, opens'] at alike
  rw [← form, ← form', (List.cons.inj alike).1]

/-! ## Reading -/

/-- Nothing that a number could go on into. -/
def EndsValue (rest : List Char) : Prop := ∀ first ∈ rest.head?, first = ',' ∨ first = '\n'

/-- Nothing is behind a whole document. -/
theorem endsValue_nil : EndsValue [] := by simp [EndsValue]

/-- A document can be read in one way: what is written like it, with anything behind that ends
a value, is recorded like it and has the same behind it. -/
def Readable (document : Json) : Prop :=
  ∀ ⦃other : Json⦄ ⦃level : Nat⦄ ⦃rest further : List Char⦄, EndsValue rest → EndsValue further →
    document.chars level ++ rest = other.chars level ++ further →
    document.recorded = other.recorded ∧ rest = further

/-- A number is read up to the comma or the end of the line. -/
theorem takeWhile_numeralText (value : Numeral) {rest : List Char} (ends : EndsValue rest) :
    ((numeralText value).toList ++ rest).takeWhile (fun next => next != ',' && next != '\n') =
      (numeralText value).toList := by
  have inline : ∀ next ∈ (numeralText value).toList, (next != ',' && next != '\n') = true := by
    intro next member
    simpa using numeralText_inline value next member
  rw [List.takeWhile_append_of_pos inline]
  cases rest with
  | nil => simp
  | cons first rest =>
    rw [List.takeWhile_cons_of_neg, List.append_nil]
    rcases ends first rfl with rfl | rfl <;> decide

/-- Numbers that are written alike are recorded alike. -/
theorem readable_number (value : Numeral) : Readable (number value) := by
  intro other level rest further ends ends' alike
  have forms := form_eq alike
  cases other with
  | number another =>
    have same : (numeralText value).toList = (numeralText another).toList := by
      rw [← takeWhile_numeralText value ends, ← takeWhile_numeralText another ends']
      exact congrArg _ alike
    constructor
    · exact congrArg number (numeralText_eq_iff.mp (String.toList_inj.mp same))
    · change (numeralText value).toList ++ rest = (numeralText another).toList ++ further at alike
      rwa [same, List.append_cancel_left_eq] at alike
  | _ => exact absurd forms (by simp [form])

/-- Texts that are written alike are the same. -/
theorem readable_string (text : String) : Readable (string text) := by
  intro other level rest further _ _ alike
  have forms := form_eq alike
  cases other with
  | string another =>
    change (quoted text).toList ++ rest = (quoted another).toList ++ further at alike
    rw [toList_quoted, toList_quoted, List.cons_append, List.cons_append, List.append_assoc,
      List.append_assoc] at alike
    obtain ⟨same, behind⟩ := quoted_inj (List.cons.inj alike).2
    rw [String.toList_inj.mp same]
    exact ⟨rfl, behind⟩
  | _ => exact absurd forms (by simp [form])

section Items

variable {Item Recorded : Type} {written : Item → List Char} {recorded : Item → Recorded}

/-- Items of one kind can be read in one way. -/
def ReadableItem (written : Item → List Char) (recorded : Item → Recorded) (item : Item) : Prop :=
  ∀ ⦃other : Item⦄ ⦃rest further : List Char⦄, EndsValue rest → EndsValue further →
    written item ++ rest = written other ++ further →
    recorded item = recorded other ∧ rest = further

/-- What is behind an item ends its value. -/
theorem endsValue_further (level : Nat) (items : List Item) (rest : List Char) :
    EndsValue (furtherChars written level items ++ '\n' :: rest) := by
  cases items with
  | nil =>
    rintro first isFirst
    exact .inr (Option.some.inj isFirst).symm
  | cons item items =>
    rintro first isFirst
    exact .inl (Option.some.inj isFirst).symm

/-- Items behind a first one are read up to the end of the line behind them. -/
theorem furtherChars_inj {level : Nat} {items others : List Item} {rest further : List Char}
    (readable : ∀ item ∈ items, ReadableItem written recorded item)
    (alike : furtherChars written level items ++ '\n' :: rest =
      furtherChars written level others ++ '\n' :: further) :
    items.map recorded = others.map recorded ∧ rest = further := by
  induction items generalizing others with
  | nil =>
    cases others with
    | nil => exact ⟨rfl, (List.cons.inj alike).2⟩
    | cons other others => exact absurd (List.cons.inj alike).1 (by decide)
  | cons item items inductionHypothesis =>
    cases others with
    | nil => exact absurd (List.cons.inj alike).1 (by decide)
    | cons other others =>
      rw [List.forall_mem_cons] at readable
      have split (first : Item) (more : List Item) (behind : List Char) :
          furtherChars written level (first :: more) ++ '\n' :: behind =
            ',' :: lineChars level ++ (written first ++
              (furtherChars written level more ++ '\n' :: behind)) := by
        simp [furtherChars]
      rw [split, split, List.append_cancel_left_eq] at alike
      obtain ⟨here, behind⟩ := readable.1 (endsValue_further level items rest)
        (endsValue_further level others further) alike
      obtain ⟨there, same⟩ := inductionHypothesis readable.2 behind
      exact ⟨by rw [List.map_cons, here, there, List.map_cons], same⟩

/-- Items between brackets are read up to the closing one. -/
theorem enclosedChars_inj {opening closing : Char} {level : Nat} {items others : List Item}
    {rest further : List Char} (readable : ∀ item ∈ items, ReadableItem written recorded item)
    (closes : closing ≠ '\n')
    (alike : enclosedChars written opening closing level items ++ rest =
      enclosedChars written opening closing level others ++ further) :
    items.map recorded = others.map recorded ∧ rest = further := by
  have split (first : Item) (more : List Item) (behind : List Char) :
      enclosedChars written opening closing level (first :: more) ++ behind =
        opening :: lineChars (level + 1) ++ (written first ++
          (furtherChars written (level + 1) more ++
            '\n' :: (List.replicate (2 * level) ' ' ++ closing :: behind))) := by
    simp [enclosedChars, lineChars]
  cases items with
  | nil =>
    cases others with
    | nil => exact ⟨rfl, (List.cons.inj (List.cons.inj alike).2).2⟩
    | cons other others => exact absurd (List.cons.inj (List.cons.inj alike).2).1 closes
  | cons item items =>
    cases others with
    | nil => exact absurd (List.cons.inj (List.cons.inj alike).2).1.symm closes
    | cons other others =>
      rw [List.forall_mem_cons] at readable
      rw [split, split, List.append_cancel_left_eq] at alike
      obtain ⟨here, behind⟩ := readable.1 (endsValue_further _ items _)
        (endsValue_further _ others _) alike
      obtain ⟨there, same⟩ := furtherChars_inj readable.2 behind
      rw [List.append_cancel_left_eq] at same
      exact ⟨by rw [List.map_cons, here, there, List.map_cons], (List.cons.inj same).2⟩

end Items

/-- A member can be read in one way if its value can. -/
theorem readable_member {level : Nat} {member : String × Json} (readable : Readable member.2) :
    ReadableItem (memberChars level) (fun member => (member.1, member.2.recorded)) member := by
  intro other rest further ends ends' alike
  simp only [memberChars, List.cons_append, List.append_assoc] at alike
  obtain ⟨keys, behind⟩ := quoted_inj (List.cons.inj alike).2
  have values := (List.cons.inj (List.cons.inj behind).2).2
  obtain ⟨same, rests⟩ := readable ends ends' values
  exact ⟨Prod.ext (String.toList_inj.mp keys) same, rests⟩

mutual

/-- Every document can be read in one way. -/
theorem readable (document : Json) : Readable document := by
  match document with
  | null =>
    intro other level rest further _ _ alike
    have forms := form_eq alike
    cases other with
    | null => exact ⟨rfl, List.append_cancel_left alike⟩
    | _ => exact absurd forms (by simp [form])
  | boolean value =>
    intro other level rest further _ _ alike
    have forms := form_eq alike
    cases other with
    | boolean another =>
      rw [chars_boolean, chars_boolean] at alike
      cases value <;> cases another
      · exact ⟨rfl, List.append_cancel_left alike⟩
      · exact absurd (List.cons.inj alike).1 (by decide)
      · exact absurd (List.cons.inj alike).1 (by decide)
      · exact ⟨rfl, List.append_cancel_left alike⟩
    | _ => exact absurd forms (by simp [form])
  | number value => exact readable_number value
  | string text => exact readable_string text
  | array items =>
    intro other level rest further _ _ alike
    have forms := form_eq alike
    cases other with
    | array others =>
      rw [chars_array, chars_array] at alike
      have all : ∀ item ∈ items, ReadableItem (chars (level + 1)) recorded item := by
        intro item among other rest further
        exact @readable_all items item among other (level + 1) rest further
      obtain ⟨same, behind⟩ := enclosedChars_inj all (by decide) alike
      rw [recorded, recorded, recordedAll_eq_map, recordedAll_eq_map, same]
      exact ⟨rfl, behind⟩
    | _ => exact absurd forms (by simp [form])
  | object members =>
    intro other level rest further _ _ alike
    have forms := form_eq alike
    cases other with
    | object others =>
      rw [chars_object, chars_object] at alike
      obtain ⟨same, behind⟩ := enclosedChars_inj
        (fun member among => readable_member (readable_members members member among))
        (by decide) alike
      rw [recorded, recorded, recordedMembers_eq_map, recordedMembers_eq_map, same]
      exact ⟨rfl, behind⟩
    | _ => exact absurd forms (by simp [form])

/-- So can each of several documents. -/
theorem readable_all (items : List Json) : ∀ item ∈ items, Readable item := by
  match items with
  | [] => exact List.forall_mem_nil _
  | item :: rest => exact List.forall_mem_cons.mpr ⟨readable item, readable_all rest⟩

/-- So can the value of each member of an object. -/
theorem readable_members (members : List (String × Json)) :
    ∀ member ∈ members, Readable member.2 := by
  match members with
  | [] => exact List.forall_mem_nil _
  | (_, value) :: rest => exact List.forall_mem_cons.mpr ⟨readable value, readable_members rest⟩

end

/-- Documents have the same text exactly when they are the same, up to floats that are no
numbers. -/
theorem text_eq_iff {one other : Json} : one.text = other.text ↔ one.recorded = other.recorded := by
  constructor
  · intro same
    have alike : one.chars 0 ++ [] = other.chars 0 ++ [] := by
      rw [List.append_nil, List.append_nil]
      exact congrArg String.toList same
    exact (readable one endsValue_nil endsValue_nil alike).1
  · intro same
    rw [text, text, ← textAt_recorded, same, textAt_recorded]

end ArrowScript.Json
