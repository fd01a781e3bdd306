import Mathlib.Data.List.TakeWhile
import ArrowScript.Proofs.Ty.Substitution

/-!
# Printed types can be read in one way only

The first character of a printed type tells its form, and a variable is printed with its
number, which ends where the digits do. A function stands between parentheses where it is
a parameter, so behind an opening parenthesis another one announces a function and nothing
else does; an arrow is always the one of the function whose parameters have just been
closed. So two types with anything behind them are printed alike only if they are the same
and the same is behind them.
-/

namespace ArrowScript.Ty

/-! ## The characters of a printed type -/

/-- The characters of a printed type. -/
def chars (term : Ty) : List Char := term.text.toList

/-- The characters of a type that is printed as a parameter. -/
def paramChars (param : Ty) : List Char :=
  if param.isFunction then '(' :: param.chars ++ [')'] else param.chars

/-- What is printed behind a first parameter: each further one after a comma. -/
def furtherChars (params : List Ty) : List Char :=
  params.flatMap fun param => ',' :: ' ' :: param.paramChars

/-- The characters of printed parameters. -/
def paramsChars : List Ty → List Char
  | [] => []
  | first :: rest => first.paramChars ++ furtherChars rest

/-- A variable is printed as a letter and its number. -/
theorem chars_var (id : VariableId) : (var id).chars = 't' :: Nat.toDigits 10 id := by
  change ("t" ++ Nat.repr id).toList = _
  rw [Nat.repr_eq_ofList_toDigits, String.toList_append, String.toList_ofList]
  simp

/-- An array is printed around its elements. -/
theorem chars_array (element : Ty) :
    (array element).chars = "Array<".toList ++ element.chars ++ ['>'] := by
  change ("Array<" ++ element.text ++ ">").toList = _
  rw [String.toList_append, String.toList_append]
  rfl

/-- A parameter is rendered as its characters, between parentheses if it is a function. -/
theorem renderParams_eq_map (params : List Ty) :
    (renderParams defaultName params).map String.toList = params.map paramChars := by
  induction params with
  | nil => rfl
  | cons param rest inductionHypothesis =>
    rw [renderParams, List.map_cons, inductionHypothesis, List.map_cons, paramChars]
    cases param.isFunction <;> simp [chars, text]

/-- Printed parameters are separated by a comma and a blank. -/
theorem intercalate_paramChars (params : List Ty) :
    List.intercalate [',', ' '] (params.map paramChars) = paramsChars params := by
  cases params with
  | nil => rfl
  | cons first rest =>
    induction rest generalizing first with
    | nil => simp [paramsChars, furtherChars, List.intercalate_singleton]
    | cons second rest inductionHypothesis =>
      rw [List.map_cons, List.map_cons, List.intercalate_cons_cons, ← List.map_cons,
        inductionHypothesis]
      simp [paramsChars, furtherChars]

/-- A function is printed as its parameters between parentheses, an arrow and its result. -/
theorem chars_function (params : List Ty) (result : Ty) :
    (function params result).chars =
      '(' :: paramsChars params ++ ')' :: " -> ".toList ++ result.chars := by
  change ("(" ++ ", ".intercalate (renderParams defaultName params) ++ ") -> " ++
    result.text).toList = _
  simp only [String.toList_append, String.toList_intercalate, renderParams_eq_map, chars]
  have separator : (", " : String).toList = [',', ' '] := rfl
  rw [separator, intercalate_paramChars]
  simp

/-! ## The first character -/

/-- The character with which a printed type begins. -/
def opening : Ty → Char
  | var _ => 't'
  | primitive .number => 'N'
  | primitive .float => 'F'
  | primitive .bool => 'B'
  | primitive .string => 'S'
  | primitive .void => 'V'
  | primitive .unknown => 'U'
  | array _ => 'A'
  | function _ _ => '('
  | shapeless => '<'

/-- A printed type begins with its first character. -/
theorem chars_opens (term : Ty) : ∃ rest, term.chars = term.opening :: rest := by
  cases term with
  | var id => exact ⟨_, chars_var id⟩
  | primitive kind => cases kind <;> exact ⟨_, rfl⟩
  | array element => exact ⟨_, chars_array element⟩
  | function params result => exact ⟨_, chars_function params result⟩
  | shapeless => exact ⟨_, rfl⟩

/-- A type begins with the same character where it is a parameter. -/
theorem paramChars_opens (param : Ty) : ∃ rest, param.paramChars = param.opening :: rest := by
  cases param with
  | function params result => exact ⟨_, rfl⟩
  | _ => exact chars_opens _

/-- No type begins with the character that closes the parameters. -/
theorem opening_ne_close (term : Ty) : term.opening ≠ ')' := by
  cases term with
  | primitive kind => cases kind <;> decide
  | _ => simp [opening]

/-- Types that begin with the same character are of one form. -/
theorem form_of_opening_eq {first second : Ty} (same : first.opening = second.opening) :
    match first with
    | var _ => ∃ id, second = var id
    | primitive kind => second = primitive kind
    | array _ => ∃ element, second = array element
    | function _ _ => ∃ params result, second = function params result
    | shapeless => second = shapeless := by
  cases first with
  | primitive kind =>
    cases second with
    | primitive other => cases kind <;> cases other <;> first | rfl | simp [opening] at same
    | _ => cases kind <;> simp [opening] at same
  | _ =>
    cases second with
    | primitive kind => cases kind <;> simp [opening] at same
    | _ => simp [opening] at same ⊢

/-- What is printed alike begins with the same character. -/
theorem opening_eq {first second : Ty} {rest other : List Char}
    (alike : first.chars ++ rest = second.chars ++ other) : first.opening = second.opening := by
  obtain ⟨behind, opens⟩ := chars_opens first
  obtain ⟨behind', opens'⟩ := chars_opens second
  rw [opens, opens'] at alike
  exact (List.cons.inj alike).1

/-- Parameters that are printed alike begin with the same character. -/
theorem opening_eq_of_params {first second : Ty} {rest other : List Char}
    (alike : first.paramChars ++ rest = second.paramChars ++ other) :
    first.opening = second.opening := by
  obtain ⟨behind, opens⟩ := paramChars_opens first
  obtain ⟨behind', opens'⟩ := paramChars_opens second
  rw [opens, opens'] at alike
  exact (List.cons.inj alike).1

/-! ## Reading -/

/-- No number goes on into the text. -/
def EndsNumber (rest : List Char) : Prop := ∀ char ∈ rest.head?, ¬ char.isDigit

/-- A number is read up to the first character that is no digit. -/
theorem takeWhile_toDigits {number : Nat} {rest : List Char} (ends : EndsNumber rest) :
    (Nat.toDigits 10 number ++ rest).takeWhile Char.isDigit = Nat.toDigits 10 number := by
  have digits : ∀ char ∈ Nat.toDigits 10 number, char.isDigit := fun char member =>
    Nat.isDigit_of_mem_toDigits (by decide) (by decide) member
  rw [List.takeWhile_append_of_pos digits]
  cases rest with
  | nil => simp
  | cons char rest => rw [List.takeWhile_cons_of_neg (ends char rfl), List.append_nil]

/-- Numbers that are printed alike are the same, and so is what is behind them. -/
theorem toDigits_append_inj {first second : Nat} {rest other : List Char}
    (ends : EndsNumber rest) (ends' : EndsNumber other)
    (alike : Nat.toDigits 10 first ++ rest = Nat.toDigits 10 second ++ other) :
    first = second ∧ rest = other := by
  have same : Nat.toDigits 10 first = Nat.toDigits 10 second := by
    rw [← takeWhile_toDigits ends, alike, takeWhile_toDigits ends']
  refine ⟨?_, by rwa [same, List.append_cancel_left_eq] at alike⟩
  have values := congrArg (Nat.ofDigitChars 10 · 0) same
  simpa [Nat.ofDigitChars_toDigits] using values

/-- A type is read in one way: what is printed like it, with anything behind that no number
goes on into, is the type with the same behind it. -/
def Readable (term : Ty) : Prop :=
  ∀ second : Ty, ∀ rest other, EndsNumber rest → EndsNumber other →
    term.chars ++ rest = second.chars ++ other → term = second ∧ rest = other

/-- A parameter is read in one way. -/
theorem Readable.param {first second : Ty} (readable : Readable first) {rest other : List Char}
    (ends : EndsNumber rest) (ends' : EndsNumber other)
    (alike : first.paramChars ++ rest = second.paramChars ++ other) :
    first = second ∧ rest = other := by
  have forms : first.isFunction = second.isFunction := by
    have form := form_of_opening_eq (opening_eq_of_params alike)
    cases first <;> grind [isFunction]
  rw [paramChars, paramChars, ← forms] at alike
  cases isFunction : first.isFunction with
  | true =>
    -- both stand between parentheses
    simp only [isFunction, if_true, List.cons_append, List.append_assoc, List.cons.injEq,
      true_and] at alike
    obtain ⟨same, behind⟩ := readable second _ _ (by simp [EndsNumber]) (by simp [EndsNumber])
      alike
    exact ⟨same, by simpa using behind⟩
  | false =>
    simp only [isFunction] at alike
    exact readable second rest other ends ends' alike

/-- Behind a parameter no number goes on. -/
theorem endsNumber_furtherChars (params : List Ty) (rest : List Char) :
    EndsNumber (furtherChars params ++ ')' :: rest) := by
  cases params <;> simp [EndsNumber, furtherChars]

/-- Further parameters are read in one way, up to the parenthesis that closes them. -/
theorem furtherChars_inj {params : List Ty} (readable : ∀ param ∈ params, Readable param)
    {others : List Ty} {rest other : List Char}
    (alike : furtherChars params ++ ')' :: rest = furtherChars others ++ ')' :: other) :
    params = others ∧ rest = other := by
  induction params generalizing others with
  | nil =>
    cases others with
    | nil => simpa [furtherChars] using alike
    | cons second others => simp [furtherChars] at alike
  | cons first params inductionHypothesis =>
    cases others with
    | nil => simp [furtherChars] at alike
    | cons second others =>
      have behind : first.paramChars ++ (furtherChars params ++ ')' :: rest) =
          second.paramChars ++ (furtherChars others ++ ')' :: other) := by
        simpa [furtherChars] using alike
      obtain ⟨rfl, tails⟩ := (readable first (by simp)).param
        (endsNumber_furtherChars params rest) (endsNumber_furtherChars others other) behind
      obtain ⟨rfl, rfl⟩ :=
        inductionHypothesis (fun param member => readable param (by simp [member])) tails
      exact ⟨rfl, rfl⟩

/-- Parameters are read in one way, up to the parenthesis that closes them. -/
theorem paramsChars_inj {params : List Ty} (readable : ∀ param ∈ params, Readable param)
    {others : List Ty} {rest other : List Char}
    (alike : paramsChars params ++ ')' :: rest = paramsChars others ++ ')' :: other) :
    params = others ∧ rest = other := by
  cases params with
  | nil =>
    cases others with
    | nil => simpa [paramsChars] using alike
    | cons second others =>
      obtain ⟨behind, opens⟩ := paramChars_opens second
      rw [paramsChars, paramsChars, opens] at alike
      exact absurd (List.cons.inj alike).1.symm (opening_ne_close second)
  | cons first params =>
    cases others with
    | nil =>
      obtain ⟨behind, opens⟩ := paramChars_opens first
      rw [paramsChars, paramsChars, opens] at alike
      exact absurd (List.cons.inj alike).1 (opening_ne_close first)
    | cons second others =>
      rw [paramsChars, paramsChars, List.append_assoc, List.append_assoc] at alike
      obtain ⟨rfl, tails⟩ := (readable first (by simp)).param
        (endsNumber_furtherChars params rest) (endsNumber_furtherChars others other) alike
      obtain ⟨rfl, rfl⟩ :=
        furtherChars_inj (fun param member => readable param (by simp [member])) tails
      exact ⟨rfl, rfl⟩

/-- Every type is read in one way. -/
theorem readable (term : Ty) : Readable term := by
  induction term with
  | var id =>
    intro second rest other ends ends' alike
    obtain ⟨id', rfl⟩ := form_of_opening_eq (opening_eq alike)
    rw [chars_var, chars_var] at alike
    obtain ⟨rfl, rfl⟩ := toDigits_append_inj ends ends' (List.cons.inj alike).2
    exact ⟨rfl, rfl⟩
  | primitive kind =>
    intro second rest other ends ends' alike
    have same : second = primitive kind := form_of_opening_eq (opening_eq alike)
    subst same
    exact ⟨rfl, List.append_cancel_left alike⟩
  | array element inductionHypothesis =>
    intro second rest other ends ends' alike
    obtain ⟨element', rfl⟩ := form_of_opening_eq (opening_eq alike)
    simp only [chars_array, List.append_assoc, List.append_cancel_left_eq] at alike
    obtain ⟨rfl, behind⟩ := inductionHypothesis element' _ _ (by simp [EndsNumber])
      (by simp [EndsNumber]) alike
    exact ⟨rfl, by simpa using behind⟩
  | function params result paramsHypothesis resultHypothesis =>
    intro second rest other ends ends' alike
    obtain ⟨params', result', rfl⟩ := form_of_opening_eq (opening_eq alike)
    simp only [chars_function, List.cons_append, List.append_assoc, List.cons.injEq,
      true_and] at alike
    obtain ⟨rfl, behind⟩ := paramsChars_inj paramsHypothesis alike
    obtain ⟨rfl, rfl⟩ := resultHypothesis result' rest other ends ends'
      (List.append_cancel_left behind)
    exact ⟨rfl, rfl⟩
  | shapeless =>
    intro second rest other ends ends' alike
    have same : second = shapeless := form_of_opening_eq (opening_eq alike)
    subst same
    exact ⟨rfl, List.append_cancel_left alike⟩

/-- Types that are printed alike are the same. -/
theorem text_injective : Function.Injective text := by
  intro first second alike
  have same : first.chars ++ [] = second.chars ++ [] := by rw [chars, chars, alike]
  exact (readable first second [] [] (by simp [EndsNumber]) (by simp [EndsNumber]) same).1

end ArrowScript.Ty
