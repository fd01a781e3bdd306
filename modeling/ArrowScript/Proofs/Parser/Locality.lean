import ArrowScript.Proofs.Parser.Braces
import ArrowScript.Proofs.Parser.Soundness

/-!
# Parsers do not look behind the end of a statement

A parser is given a bound that counts all tokens ahead, so the parsers that read the same
statement in two streams are not the same. `Alike` compares two parsers on tokens that
both streams begin with: they end with the same outcome at the same of these tokens and
have added the same diagnostics, whatever comes behind.

`Keeps` says this of parsers for parts of a statement. Before the semicolon or the closing
brace behind the statement they stop, with a result or with an error, and the braces that
are left before it are balanced again. Both facts are proved together, since the braces
are what keeps an error in a block from leaving it.
-/

namespace ArrowScript

/-- The cursor at other tokens, with some more diagnostics. -/
def Cursor.moved (cursor : Cursor) (rest : List Token) (added : List Diagnostic) : Cursor :=
  { cursor with rest, diagnostics := cursor.diagnostics ++ added }

namespace Cursor

/-- A cursor that has not moved. -/
theorem moved_nil {cursor : Cursor} {rest : List Token} (same : cursor.rest = rest) :
    cursor.moved rest [] = cursor := by
  subst same
  simp only [moved, List.append_nil]

/-- A cursor that has moved twice. -/
theorem moved_moved (cursor : Cursor) (first second : List Token) (some more : List Diagnostic) :
    (cursor.moved first some).moved second more = cursor.moved second (some ++ more) := by
  simp only [moved, List.append_assoc]

end Cursor

namespace Parser

variable {α β : Type}

/-- The two parsers do the same on the front, whatever comes behind it, and the condition
holds of the outcome and of what is left of the front. -/
def Alike (one other : Parser α) (front : List Token)
    (Holds : Except Diagnostic α → List Token → Prop) : Prop :=
  ∀ ⦃here there : Cursor⦄ ⦃tail others : List Token⦄, here.rest = front ++ tail →
    there.rest = front ++ others → ∃ outcome left added, Holds outcome left ∧
      one.runAt here = (outcome, here.moved (left ++ tail) added) ∧
      other.runAt there = (outcome, there.moved (left ++ others) added)

variable {one other : Parser α} {next following : α → Parser β}
  {positive negative accepting declining : Parser β} {front rest : List Token} {token : Token}
  {Holds First : Except Diagnostic α → List Token → Prop}
  {Last : Except Diagnostic β → List Token → Prop} {kind : TokenKind} {kinds : List TokenKind}

namespace Alike

/-- A weaker condition holds as well. -/
theorem mono (alike : Alike one other front First)
    (weaker : ∀ outcome left, First outcome left → Holds outcome left) :
    Alike one other front Holds := by
  intro here there tail others ahead beyond
  obtain ⟨outcome, left, added, holds, ran, otherRan⟩ := alike ahead beyond
  exact ⟨outcome, left, added, weaker outcome left holds, ran, otherRan⟩

/-- A result without reading. -/
theorem pure {result : α} (holds : Holds (.ok result) front) :
    Alike (pure result) (pure result) front Holds := by
  intro here there tail others ahead beyond
  refine ⟨.ok result, front, [], holds, ?_, ?_⟩
  · rw [Cursor.moved_nil ahead]
    rfl
  · rw [Cursor.moved_nil beyond]
    rfl

/-- A failure without reading. -/
theorem throw {diagnostic : Diagnostic} (holds : Holds (.error diagnostic) front) :
    Alike (throw diagnostic) (throw diagnostic) front Holds := by
  intro here there tail others ahead beyond
  refine ⟨.error diagnostic, front, [], holds, ?_, ?_⟩
  · rw [Cursor.moved_nil ahead]
    rfl
  · rw [Cursor.moved_nil beyond]
    rfl

/-- A sequence. After an error the second parsers do not run. -/
theorem bind (first : Alike one other front First)
    (failed : ∀ diagnostic left, First (.error diagnostic) left → Last (.error diagnostic) left)
    (second : ∀ result left, First (.ok result) left →
      Alike (next result) (following result) left Last) :
    Alike (one >>= next) (other >>= following) front Last := by
  intro here there tail others ahead beyond
  obtain ⟨outcome, left, added, holds, ran, otherRan⟩ := first ahead beyond
  cases outcome with
  | error diagnostic =>
      exact ⟨.error diagnostic, left, added, failed diagnostic left holds,
        runAt_bind_error ran next, runAt_bind_error otherRan following⟩
  | ok result =>
      obtain ⟨outcome, final, more, last, further, otherFurther⟩ :=
        @second result left holds (here.moved (left ++ tail) added)
          (there.moved (left ++ others) added) tail others rfl rfl
      refine ⟨outcome, final, added ++ more, last, ?_, ?_⟩
      · rw [runAt_bind_ok ran, further, Cursor.moved_moved]
      · rw [runAt_bind_ok otherRan, otherFurther, Cursor.moved_moved]

/-- A choice by the kind of the next token. -/
theorem checked
    (found : token.kind ∈ kinds → Alike positive accepting (token :: rest) Last)
    (missing : token.kind ∉ kinds → Alike negative declining (token :: rest) Last) :
    Alike (check kinds >>= fun found => if found = true then positive else negative)
      (check kinds >>= fun found => if found = true then accepting else declining)
      (token :: rest) Last := by
  intro here there tail others ahead beyond
  rw [runAt_bind_ok (runAt_check ahead), runAt_bind_ok (runAt_check beyond)]
  by_cases among : token.kind ∈ kinds
  · rw [if_pos (List.contains_iff_mem.mpr among), if_pos (List.contains_iff_mem.mpr among)]
    exact found among ahead beyond
  · rw [if_neg (fun seen => among (List.contains_iff_mem.mp seen)),
      if_neg (fun seen => among (List.contains_iff_mem.mp seen))]
    exact missing among ahead beyond

/-- A look at the next token. -/
theorem look {next following : Token → Parser β}
    (alike : Alike (next token) (following token) (token :: rest) Last) :
    Alike (peek >>= next) (peek >>= following) (token :: rest) Last := by
  intro here there tail others ahead beyond
  rw [runAt_bind_ok (runAt_peek ahead), runAt_bind_ok (runAt_peek beyond)]
  exact alike ahead beyond

/-- A failure at the next token. -/
theorem unexpected {words : String} (failed : ∀ diagnostic, Holds (.error diagnostic) front)
    (ahead : ∃ token rest, front = token :: rest) :
    Alike (unexpected words) (unexpected words) front Holds := by
  obtain ⟨token, rest, rfl⟩ := ahead
  exact .look (.throw (failed _))

/-- A step over a lexeme before a parser. -/
theorem take {next following : Token → Parser β} (lexeme : token.kind ≠ .endOfFile)
    (alike : Alike (next token) (following token) rest Last) :
    Alike (advance >>= next) (advance >>= following) (token :: rest) Last := by
  intro here there tail others ahead beyond
  rw [runAt_bind_ok (runAt_advance ahead lexeme), runAt_bind_ok (runAt_advance beyond lexeme)]
  exact alike rfl rfl

/-- A step over a lexeme. -/
theorem advance (lexeme : token.kind ≠ .endOfFile)
    {Holds : Except Diagnostic Token → List Token → Prop} (holds : Holds (.ok token) rest) :
    Alike advance advance (token :: rest) Holds := by
  intro here there tail others ahead beyond
  refine ⟨.ok token, rest, [], holds, ?_, ?_⟩
  · rw [runAt_advance ahead lexeme, Cursor.moved, List.append_nil]
    rfl
  · rw [runAt_advance beyond lexeme, Cursor.moved, List.append_nil]
    rfl

/-- A token that is required before a parser. -/
theorem expected {words : String} {next following : Token → Parser β}
    (lexeme : kind ≠ .endOfFile)
    (failed : token.kind ≠ kind → ∀ diagnostic, Last (.error diagnostic) (token :: rest))
    (found : token.kind = kind → Alike (next token) (following token) rest Last) :
    Alike (expect kind words >>= next) (expect kind words >>= following) (token :: rest) Last := by
  have required : Alike (expect kind words) (expect kind words) (token :: rest)
      fun outcome left => (outcome = .ok token ∧ left = rest ∧ token.kind = kind) ∨
        (∃ diagnostic, outcome = .error diagnostic) ∧ left = token :: rest ∧ token.kind ≠ kind := by
    refine .checked (fun among => ?_) fun missing => .unexpected (fun diagnostic => ?_)
      ⟨token, rest, rfl⟩
    · have same := List.mem_singleton.mp among
      exact .advance (same ▸ lexeme) (.inl ⟨rfl, rfl, same⟩)
    · exact .inr ⟨⟨diagnostic, rfl⟩, rfl, fun same => missing (List.mem_singleton.mpr same)⟩
  refine .bind required ?_ ?_
  · rintro diagnostic left (⟨absurd, -⟩ | ⟨-, rfl, other⟩)
    · exact nomatch absurd
    · exact failed other diagnostic
  · rintro result left (⟨same, rfl, kind⟩ | ⟨⟨_, absurd⟩, -⟩)
    · obtain rfl := Except.ok.inj same
      exact found kind
    · exact nomatch absurd

/-- A token of one of some kinds, if it comes next, before a parser. -/
theorem matched {next following : Option Token → Parser β} (lexemes : .endOfFile ∉ kinds)
    (found : token.kind ∈ kinds → Alike (next (some token)) (following (some token)) rest Last)
    (missing : token.kind ∉ kinds → Alike (next none) (following none) (token :: rest) Last) :
    Alike (match? kinds >>= next) (match? kinds >>= following) (token :: rest) Last := by
  have looked : Alike (match? kinds) (match? kinds) (token :: rest) fun outcome left =>
      (outcome = .ok (some token) ∧ left = rest ∧ token.kind ∈ kinds) ∨
        (outcome = .ok none ∧ left = token :: rest ∧ token.kind ∉ kinds) := by
    refine .checked (fun among => .take ?_ (.pure (.inl ⟨rfl, rfl, among⟩)))
      fun absent => .pure (.inr ⟨rfl, rfl, absent⟩)
    intro mark
    exact lexemes (mark ▸ among)
  refine .bind looked ?_ ?_
  · rintro diagnostic left (⟨absurd, -⟩ | ⟨absurd, -⟩) <;> exact nomatch absurd
  · rintro result left (⟨same, rfl, among⟩ | ⟨same, rfl, absent⟩)
    · obtain rfl := Except.ok.inj same
      exact found among
    · obtain rfl := Except.ok.inj same
      exact missing absent

/-- A token of a given kind that is passed if it comes next. -/
theorem accept (lexeme : kind ≠ .endOfFile) :
    Alike (accept kind) (accept kind) (token :: rest) fun outcome left =>
      (outcome = .ok true ∧ left = rest ∧ token.kind = kind) ∨
        (outcome = .ok false ∧ left = token :: rest ∧ token.kind ≠ kind) :=
  .matched (fun among => lexeme (List.mem_singleton.mp among).symm)
    (fun among => .pure (.inl ⟨rfl, rfl, List.mem_singleton.mp among⟩))
    fun absent => .pure (.inr ⟨rfl, rfl, fun same => absent (List.mem_singleton.mpr same)⟩)

/-- A choice by whether a token comes next, which is then passed. -/
theorem accepted (lexeme : kind ≠ .endOfFile)
    (found : token.kind = kind → Alike positive accepting rest Last)
    (missing : token.kind ≠ kind → Alike negative declining (token :: rest) Last) :
    Alike (Parser.accept kind >>= fun found => if found = true then positive else negative)
      (Parser.accept kind >>= fun found => if found = true then accepting else declining)
      (token :: rest) Last := by
  refine .bind (accept lexeme) ?_ ?_
  · rintro diagnostic left (⟨absurd, -⟩ | ⟨absurd, -⟩) <;> exact nomatch absurd
  · rintro result left (⟨same, rfl, present⟩ | ⟨same, rfl, absent⟩)
    · obtain rfl := Except.ok.inj same
      exact found present
    · obtain rfl := Except.ok.inj same
      exact missing absent

/-- Rules with bounds that exceed the number of tokens ahead. -/
theorem bounded {rule other : Nat → Parser α}
    (alike : ∀ steps more, front.length < steps → front.length < more →
      Alike (rule steps) (other more) front Holds) :
    Alike (bounded rule) (bounded other) front Holds := by
  intro here there tail others ahead beyond
  have enough {rest : List Token} : front.length < (front ++ rest).length + 1 := by
    rw [List.length_append]
    omega
  refine alike (here.rest.length + 1) (there.rest.length + 1) ?_ ?_ ahead beyond
  · exact ahead ▸ enough
  · exact beyond ▸ enough

end Alike

/-! ## Parsers for parts of a statement -/

/-- A condition on outcomes and on what is left of a front with so many tokens. It allows
for larger fronts, and for errors wherever a front is left. -/
class Graded (Post : Token → Nat → Except Diagnostic α → List Token → Prop) : Prop where
  larger : ∀ {stop : Token} {size more : Nat} {outcome : Except Diagnostic α} {left : List Token},
    Post stop size outcome left → size ≤ more → Post stop more outcome left
  failed : ∀ {stop : Token} {size : Nat} {left : List Token} (diagnostic : Diagnostic),
    Before stop left → left.length ≤ size → Post stop size (.error diagnostic) left

/-- The parsers do the same on fronts of at most so many tokens, and the condition holds of
what they leave. -/
def Leads (Post : Token → Nat → Except Diagnostic α → List Token → Prop) (limit : Nat)
    (one other : Parser α) : Prop :=
  ∀ ⦃stop : Token⦄ ⦃front : List Token⦄, stop.kind ∈ [.semicolon, .rightCurly] →
    Before stop front → front.length ≤ limit → Alike one other front (Post stop front.length)

/-- What is left of a front is a front with at most so many tokens. -/
def Kept (stop : Token) (size : Nat) (_ : Except Diagnostic α) (left : List Token) : Prop :=
  Before stop left ∧ left.length ≤ size

/-- The parsers do the same on fronts of at most so many tokens, and leave a front. -/
abbrev Keeps (limit : Nat) (one other : Parser α) : Prop := Leads Kept limit one other

instance : Graded (α := α) Kept where
  larger kept most := ⟨kept.1, Nat.le_trans kept.2 most⟩
  failed _ before most := ⟨before, most⟩

variable {Post : Token → Nat → Except Diagnostic β → List Token → Prop} {limit size : Nat}
  {stop : Token}

namespace Leads

/-- Fronts with fewer tokens are among those with more. -/
theorem fewer {one other : Parser β} (leads : Leads Post limit one other) (most : size ≤ limit) :
    Leads Post size one other :=
  fun _ _ ends before short => leads ends before (Nat.le_trans short most)

/-- There is no front without tokens. -/
theorem zero (one other : Parser β) : Leads Post 0 one other :=
  fun _ _ _ before short => absurd before.length_pos (by omega)

/-- A result without reading. -/
theorem pure (result : α) : Keeps limit (pure result) (pure result) :=
  fun _ _ _ before _ => .pure ⟨before, Nat.le_refl _⟩

/-- A choice by the kind of the next token. -/
theorem checked (found : Leads Post limit positive accepting)
    (missing : Leads Post limit negative declining) :
    Leads Post limit (check kinds >>= fun found => if found = true then positive else negative)
      (check kinds >>= fun found => if found = true then accepting else declining) := by
  intro stop front ends before short
  obtain ⟨token, rest, rfl⟩ := before.exists_cons
  exact .checked (fun _ => found ends before short) fun _ => missing ends before short

/-- A look at the kind of the next token. -/
theorem check (kinds : List TokenKind) : Keeps limit (check kinds) (check kinds) := by
  intro stop front ends before short
  obtain ⟨token, rest, rfl⟩ := before.exists_cons
  exact .look (.pure ⟨before, Nat.le_refl _⟩)

/-- A choice that does not depend on the tokens. -/
theorem ite {condition : Prop} [Decidable condition] (found : Leads Post limit positive accepting)
    (missing : Leads Post limit negative declining) :
    Leads Post limit (if condition then positive else negative)
      (if condition then accepting else declining) := by
  split
  · exact found
  · exact missing

/-- A look at the next token. -/
theorem look {next following : Token → Parser β}
    (leads : ∀ token, Leads Post limit (next token) (following token)) :
    Leads Post limit (peek >>= next) (peek >>= following) := by
  intro stop front ends before short
  obtain ⟨token, rest, rfl⟩ := before.exists_cons
  exact .look (leads token ends before short)

/-- Rules with bounds that exceed the number of tokens ahead. -/
theorem bounded {rule other : Nat → Parser β}
    (leads : ∀ size steps more, size ≤ limit → size < steps → size < more →
      Leads Post size (rule steps) (other more)) :
    Leads Post limit (bounded rule) (bounded other) :=
  fun _ _ ends before short => .bounded fun _ _ enough also =>
    leads _ _ _ short enough also ends before (Nat.le_refl _)

end Leads

variable [Graded Post]

/-- The condition allows for larger fronts. -/
theorem Alike.larger {one other : Parser β} (alike : Alike one other front (Post stop size))
    {more : Nat} (most : size ≤ more) : Alike one other front (Post stop more) :=
  alike.mono fun _ _ holds => Graded.larger holds most

namespace Leads

/-- A failure without reading. -/
theorem throw (diagnostic : Diagnostic) :
    Leads Post limit (throw diagnostic : Parser β) (throw diagnostic) :=
  fun _ _ _ before _ => .throw (Graded.failed diagnostic before (Nat.le_refl _))

/-- A failure at the next token. -/
theorem unexpected (words : String) :
    Leads Post limit (unexpected words : Parser β) (unexpected words) :=
  fun _ _ _ before _ => .unexpected (fun diagnostic =>
    Graded.failed diagnostic before (Nat.le_refl _)) before.exists_cons

/-- A sequence. -/
theorem bind (first : Keeps limit one other)
    (second : ∀ result, Leads Post limit (next result) (following result)) :
    Leads Post limit (one >>= next) (other >>= following) := by
  intro stop front ends before short
  refine .bind (first ends before short) (fun diagnostic _ kept =>
    Graded.failed diagnostic kept.1 kept.2) ?_
  rintro result left ⟨further, most⟩
  exact (second result ends further (Nat.le_trans most short)).larger most

/-- A result that is put into another form. -/
theorem map (keeps : Keeps limit one other) (form : α → β) :
    Keeps limit (form <$> one) (form <$> other) :=
  .bind keeps fun result => .pure (form result)

/-- A step over a token that divides no statements before a parser. -/
theorem take {next following : Token → Parser β} (ends : stop.kind ∈ [.semicolon, .rightCurly])
    (before : Before stop (token :: rest)) (short : (token :: rest).length ≤ limit + 1)
    (plain : token.kind ∉ edges) (leads : Leads Post limit (next token) (following token)) :
    Alike (advance >>= next) (advance >>= following) (token :: rest)
      (Post stop (token :: rest).length) := by
  refine .take ?_ ?_
  · intro mark
    exact plain (by rw [mark]; decide)
  · have further := before.tail ends plain
    exact (leads ends further (Nat.le_of_succ_le_succ short)).larger (Nat.le_succ _)

/-- A token that is required before a parser. -/
theorem expected {words : String} {next following : Token → Parser β} (plain : kind ∉ edges)
    (leads : ∀ token, Leads Post limit (next token) (following token)) :
    Leads Post (limit + 1) (expect kind words >>= next) (expect kind words >>= following) := by
  intro stop front ends before short
  obtain ⟨token, rest, rfl⟩ := before.exists_cons
  refine .expected ?_ (fun _ diagnostic => Graded.failed diagnostic before (Nat.le_refl _))
    fun same => ?_
  · rintro rfl
    exact plain (by decide)
  · have further := before.tail ends (same ▸ plain)
    exact (leads token ends further (Nat.le_of_succ_le_succ short)).larger (Nat.le_succ _)

/-- A token that is required, whether or not fewer tokens are left behind it. -/
theorem required {words : String} {next following : Token → Parser β} (plain : kind ∉ edges)
    (leads : ∀ token, Leads Post limit (next token) (following token)) :
    Leads Post limit (expect kind words >>= next) (expect kind words >>= following) :=
  (expected plain leads).fewer (Nat.le_succ limit)

/-- A token of one of some kinds, if it comes next, before a parser. -/
theorem matched {next following : Option Token → Parser β}
    (plain : ∀ kind ∈ kinds, kind ∉ edges)
    (found : ∀ token, Leads Post limit (next (some token)) (following (some token)))
    (missing : Leads Post (limit + 1) (next none) (following none)) :
    Leads Post (limit + 1) (match? kinds >>= next) (match? kinds >>= following) := by
  intro stop front ends before short
  obtain ⟨token, rest, rfl⟩ := before.exists_cons
  refine .matched (fun mark => plain _ mark (by decide)) (fun among => ?_)
    fun _ => missing ends before short
  have further := before.tail ends (plain _ among)
  exact (found token ends further (Nat.le_of_succ_le_succ short)).larger (Nat.le_succ _)

/-- A choice by whether a token comes next, which is then passed. -/
theorem accepted (plain : kind ∉ edges) (found : Leads Post limit positive accepting)
    (missing : Leads Post (limit + 1) negative declining) :
    Leads Post (limit + 1)
      (accept kind >>= fun found => if found = true then positive else negative)
      (accept kind >>= fun found => if found = true then accepting else declining) := by
  intro stop front ends before short
  obtain ⟨token, rest, rfl⟩ := before.exists_cons
  refine .accepted ?_ (fun same => ?_) fun _ => missing ends before short
  · rintro rfl
    exact plain (by decide)
  · have further := before.tail ends (same ▸ plain)
    exact (found ends further (Nat.le_of_succ_le_succ short)).larger (Nat.le_succ _)

/-- A choice by whether a token comes next, whether or not fewer tokens are left behind it. -/
theorem allowed (plain : kind ∉ edges) (found : Leads Post limit positive accepting)
    (missing : Leads Post limit negative declining) :
    Leads Post limit (accept kind >>= fun found => if found = true then positive else negative)
      (accept kind >>= fun found => if found = true then accepting else declining) := by
  cases limit with
  | zero => exact .zero _ _
  | succ limit => exact .accepted plain (found.fewer (Nat.le_succ limit)) missing

end Leads

end Parser

end ArrowScript
