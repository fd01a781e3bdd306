import ArrowScript.Proofs.Parser.Consumption
import ArrowScript.Proofs.Parser.Soundness

/-!
# No bound of a parser is reached

Parsers that nest or repeat are given the number of tokens ahead as a bound. Every nested
and every repeated step takes a token first, and the mark of the end is never taken, so
larger bounds make no difference: the parsers are those without bounds.

`AgreesWithin` compares two parsers that differ in their bounds. They do the same before
up to so many tokens. A parser that takes a token agrees before one token more than what
follows it does, which is how the bounds are used up no faster than the tokens.
-/

namespace ArrowScript

/-- The mark of the end is somewhere ahead. -/
def Sealed (tokens : List Token) : Prop := ∃ token ∈ tokens, token.kind = .endOfFile

namespace Sealed

variable {tokens rest : List Token} {token : Token}

/-- The mark of the end is not passed. -/
theorem passed (ended : Sealed tokens) (passed : Passed tokens rest) : Sealed rest := by
  obtain ⟨mark, among, kind⟩ := ended
  obtain ⟨skipped, rfl, lexemes⟩ := passed
  rcases List.mem_append.mp among with before | behind
  · exact absurd kind (lexemes mark before)
  · exact ⟨mark, behind, kind⟩

/-- The mark remains ahead when something is put before it. -/
theorem append (ended : Sealed tokens) (before : List Token) : Sealed (before ++ tokens) := by
  obtain ⟨mark, among, kind⟩ := ended
  exact ⟨mark, List.mem_append_right before among, kind⟩

/-- There is a token ahead. -/
theorem exists_cons (ended : Sealed tokens) : ∃ token rest, tokens = token :: rest := by
  obtain ⟨mark, among, -⟩ := ended
  exact List.exists_cons_of_ne_nil (List.ne_nil_of_mem among)

/-- The mark is behind a lexeme. -/
theorem tail (ended : Sealed (token :: rest)) (lexeme : token.kind ≠ .endOfFile) : Sealed rest :=
  ended.passed (.cons lexeme (.refl rest))

end Sealed

/-- What is passed is no longer ahead. -/
theorem Passed.length_le {tokens rest : List Token} (passed : Passed tokens rest) :
    rest.length ≤ tokens.length := by
  obtain ⟨skipped, rfl, -⟩ := passed
  rw [List.length_append]
  omega

namespace Parser

variable {α β : Type}

/-- A parser does not go back, and does not pass the mark of the end. -/
abbrev Onward (parser : Parser α) : Prop := ∀ cursor, Cursor.Onward cursor (parser.runAt cursor).2

/-- Before the tokens the parsers do the same, and pass only lexemes. -/
def Agrees (tokens : List Token) (one other : Parser α) : Prop :=
  ∀ cursor : Cursor, cursor.rest = tokens →
    other.runAt cursor = one.runAt cursor ∧ Passed tokens (one.runAt cursor).2.rest

/-- Before up to so many tokens the parsers do the same, and pass only lexemes. -/
def AgreesWithin (limit : Nat) (one other : Parser α) : Prop :=
  ∀ tokens, Sealed tokens → tokens.length ≤ limit → Agrees tokens one other

variable {one other : Parser α} {next following : α → Parser β}
  {positive negative accepting declining : Parser β} {tokens rest : List Token} {token : Token}
  {kind : TokenKind} {kinds : List TokenKind} {limit size : Nat}

namespace Agrees

/-- A sequence. -/
theorem bind (first : Agrees tokens one other)
    (second : ∀ result left, Passed tokens left → Agrees left (next result) (following result)) :
    Agrees tokens (one >>= next) (other >>= following) := by
  intro cursor ahead
  obtain ⟨same, passed⟩ := first cursor ahead
  rcases ran : one.runAt cursor with ⟨diagnostic | result, after⟩
  · rw [ran] at same passed
    rw [runAt_bind_error ran, runAt_bind_error same]
    exact ⟨rfl, passed⟩
  · rw [ran] at same passed
    rw [runAt_bind_ok ran, runAt_bind_ok same]
    obtain ⟨further, more⟩ := second result after.rest passed after rfl
    exact ⟨further, passed.trans more⟩

/-- Parsers after one that takes some tokens and answers with a result. -/
theorem after {parser : Parser α} {taken : List Token} {result : α}
    (consumes : Consumes parser taken rest result)
    (lexemes : ∀ token ∈ taken, token.kind ≠ .endOfFile)
    (agrees : Agrees rest (next result) (following result)) :
    Agrees (taken ++ rest) (parser >>= next) (parser >>= following) := by
  intro cursor ahead
  have ran := consumes cursor ahead
  rw [runAt_bind_ok ran, runAt_bind_ok ran]
  obtain ⟨same, passed⟩ := agrees { cursor with rest } rfl
  exact ⟨same, Passed.trans ⟨taken, rfl, lexemes⟩ passed⟩

/-- A step over a lexeme before a parser. What is left is behind that lexeme. -/
theorem passes {next following : Token → Parser β} (lexeme : token.kind ≠ .endOfFile)
    (agrees : Agrees rest (next token) (following token)) {cursor : Cursor}
    (ahead : cursor.rest = token :: rest) :
    (advance >>= following).runAt cursor = (advance >>= next).runAt cursor ∧
      Passed rest ((advance >>= next).runAt cursor).2.rest := by
  have ran := runAt_advance ahead lexeme
  rw [runAt_bind_ok ran, runAt_bind_ok ran]
  exact agrees { cursor with rest } rfl

/-- A step over a lexeme before a parser. -/
theorem take {next following : Token → Parser β} (lexeme : token.kind ≠ .endOfFile)
    (agrees : Agrees rest (next token) (following token)) :
    Agrees (token :: rest) (advance >>= next) (advance >>= following) := by
  intro cursor ahead
  obtain ⟨same, passed⟩ := passes lexeme agrees ahead
  exact ⟨same, .cons lexeme passed⟩

/-- A look at the next token. -/
theorem look {next following : Token → Parser β}
    (agrees : Agrees (token :: rest) (next token) (following token)) :
    Agrees (token :: rest) (peek >>= next) (peek >>= following) := by
  intro cursor ahead
  rw [runAt_bind_ok (runAt_peek ahead), runAt_bind_ok (runAt_peek ahead)]
  exact agrees cursor ahead

end Agrees

namespace AgreesWithin

/-- Fewer tokens are among more. -/
theorem fewer (agrees : AgreesWithin limit one other) (most : size ≤ limit) :
    AgreesWithin size one other :=
  fun tokens ended short => agrees tokens ended (Nat.le_trans short most)

/-- There are no tokens without a mark among them. -/
theorem zero (one other : Parser α) : AgreesWithin 0 one other := by
  intro tokens ended short
  obtain ⟨token, rest, rfl⟩ := ended.exists_cons
  exact absurd short (Nat.not_succ_le_zero _)

/-- A parser that goes onward agrees with itself. -/
theorem same (onward : Onward one) : AgreesWithin limit one one :=
  fun _ _ _ cursor ahead => ⟨rfl, ahead ▸ (onward cursor).passed⟩

/-- A step over a lexeme that is known to come next. -/
theorem take {next following : Token → Parser β} (ended : Sealed (token :: rest))
    (short : (token :: rest).length ≤ limit + 1) (lexeme : token.kind ≠ .endOfFile)
    (agrees : AgreesWithin limit (next token) (following token)) :
    Agrees (token :: rest) (advance >>= next) (advance >>= following) :=
  .take lexeme (agrees rest (ended.tail lexeme) (Nat.le_of_succ_le_succ short))

/-- A result. -/
theorem pure (result : α) : AgreesWithin limit (pure result) (pure result) := .same .refl

/-- A failure. -/
theorem throw (diagnostic : Diagnostic) :
    AgreesWithin limit (throw diagnostic : Parser α) (throw diagnostic) := .same .refl

/-- A failure at the next token. -/
theorem unexpected (words : String) :
    AgreesWithin limit (unexpected words : Parser α) (unexpected words) := .same .refl

/-- A sequence. -/
theorem bind (first : AgreesWithin limit one other)
    (second : ∀ result, AgreesWithin limit (next result) (following result)) :
    AgreesWithin limit (one >>= next) (other >>= following) :=
  fun tokens ended short => .bind (first tokens ended short) fun result left passed =>
    second result left (ended.passed passed) (Nat.le_trans passed.length_le short)

/-- A result that is put into another form. -/
theorem map (agrees : AgreesWithin limit one other) (form : α → β) :
    AgreesWithin limit (form <$> one) (form <$> other) :=
  .bind agrees fun result => .pure (form result)

/-- A choice that does not depend on the tokens. -/
theorem ite {condition : Prop} [Decidable condition]
    (found : AgreesWithin limit positive accepting)
    (missing : AgreesWithin limit negative declining) :
    AgreesWithin limit (if condition then positive else negative)
      (if condition then accepting else declining) := by
  split
  · exact found
  · exact missing

/-- A look at the next token. -/
theorem look {next following : Token → Parser β}
    (agrees : ∀ token, AgreesWithin limit (next token) (following token)) :
    AgreesWithin limit (peek >>= next) (peek >>= following) :=
  .bind (.same .refl) agrees

/-- A choice by the kind of the next token. -/
theorem checked (found : AgreesWithin limit positive accepting)
    (missing : AgreesWithin limit negative declining) :
    AgreesWithin limit (check kinds >>= fun found => if found = true then positive else negative)
      (check kinds >>= fun found => if found = true then accepting else declining) :=
  .bind (.same .refl) fun _ => .ite found missing

/-- A token that is required before a parser. -/
theorem expected {words : String} {next following : Token → Parser β} (lexeme : kind ≠ .endOfFile)
    (agrees : ∀ token, AgreesWithin limit (next token) (following token)) :
    AgreesWithin (limit + 1) (expect kind words >>= next) (expect kind words >>= following) := by
  intro tokens ended short
  obtain ⟨token, rest, rfl⟩ := ended.exists_cons
  by_cases same : token.kind = kind
  · have other : token.kind ≠ .endOfFile := same ▸ lexeme
    exact .after (.expect lexeme same rest) (List.forall_mem_singleton.mpr other)
      (agrees token rest (ended.tail other) (Nat.le_of_succ_le_succ short))
  · have missing : [kind].contains token.kind ≠ true := fun seen =>
      same (List.mem_singleton.mp (List.contains_iff_mem.mp seen))
    intro cursor ahead
    have failed : ∃ diagnostic, (expect kind words).runAt cursor = (.error diagnostic, cursor) := by
      unfold expect
      rw [runAt_bind_ok (runAt_check ahead), if_neg missing]
      exact ⟨_, rfl⟩
    obtain ⟨diagnostic, failed⟩ := failed
    rw [runAt_bind_error failed, runAt_bind_error failed, ← ahead]
    exact ⟨rfl, .refl cursor.rest⟩

/-- A token that is required, whether or not fewer tokens are left behind it. -/
theorem required {words : String} {next following : Token → Parser β} (lexeme : kind ≠ .endOfFile)
    (agrees : ∀ token, AgreesWithin limit (next token) (following token)) :
    AgreesWithin limit (expect kind words >>= next) (expect kind words >>= following) :=
  (expected lexeme agrees).fewer (Nat.le_succ limit)

/-- A token of one of some kinds, if it comes next, before a parser. -/
theorem matched {next following : Option Token → Parser β} (lexemes : .endOfFile ∉ kinds)
    (found : ∀ token, token.kind ∈ kinds →
      AgreesWithin limit (next (some token)) (following (some token)))
    (missing : AgreesWithin (limit + 1) (next none) (following none)) :
    AgreesWithin (limit + 1) (match? kinds >>= next) (match? kinds >>= following) := by
  intro tokens ended short
  obtain ⟨token, rest, rfl⟩ := ended.exists_cons
  by_cases among : token.kind ∈ kinds
  · have lexeme : token.kind ≠ .endOfFile := fun mark => lexemes (mark ▸ among)
    exact .after (.matched lexeme among rest) (List.forall_mem_singleton.mpr lexeme)
      (found token among rest (ended.tail lexeme) (Nat.le_of_succ_le_succ short))
  · exact .after (.unmatched (.of_cons among)) (List.forall_mem_nil _)
      (missing (token :: rest) ended short)

/-- A choice by whether a token comes next, which is then passed. -/
theorem accepted (lexeme : kind ≠ .endOfFile) (found : AgreesWithin limit positive accepting)
    (missing : AgreesWithin (limit + 1) negative declining) :
    AgreesWithin (limit + 1)
      (accept kind >>= fun found => if found = true then positive else negative)
      (accept kind >>= fun found => if found = true then accepting else declining) := by
  intro tokens ended short
  obtain ⟨token, rest, rfl⟩ := ended.exists_cons
  by_cases same : token.kind = kind
  · have other : token.kind ≠ .endOfFile := same ▸ lexeme
    exact .after (.accept lexeme same rest) (List.forall_mem_singleton.mpr other)
      (found rest (ended.tail other) (Nat.le_of_succ_le_succ short))
  · exact .after (.reject (.of_cons same)) (List.forall_mem_nil _)
      (missing (token :: rest) ended short)

/-- A choice by whether a token comes next, whether or not fewer tokens are left behind it. -/
theorem allowed (lexeme : kind ≠ .endOfFile) (found : AgreesWithin limit positive accepting)
    (missing : AgreesWithin limit negative declining) :
    AgreesWithin limit (accept kind >>= fun found => if found = true then positive else negative)
      (accept kind >>= fun found => if found = true then accepting else declining) := by
  cases limit with
  | zero => exact .zero _ _
  | succ limit => exact .accepted lexeme (found.fewer (Nat.le_succ limit)) missing

/-- Rules with bounds that exceed the number of tokens ahead. -/
theorem bounded {rule law : Nat → Parser α}
    (agrees : ∀ size steps more, size ≤ limit → size < steps → size < more →
      AgreesWithin size (rule steps) (law more)) :
    AgreesWithin limit (bounded rule) (bounded law) :=
  fun tokens ended short cursor ahead => by
    have enough : tokens.length < cursor.rest.length + 1 := ahead ▸ Nat.lt_succ_self _
    exact agrees _ _ _ short enough enough tokens ended (Nat.le_refl _) cursor ahead

/-- A rule with a bound, and a parser with which it agrees for every bound that exceeds the
number of tokens ahead. -/
theorem settled {rule : Nat → Parser α}
    (agrees : ∀ size steps, size ≤ limit → size < steps → AgreesWithin size (rule steps) other) :
    AgreesWithin limit (Parser.bounded rule) other :=
  fun tokens ended short cursor ahead => by
    have enough : tokens.length < cursor.rest.length + 1 := ahead ▸ Nat.lt_succ_self _
    exact agrees _ _ short enough tokens ended (Nat.le_refl _) cursor ahead

end AgreesWithin

/-! ## Types -/

section Types

variable {item partner : Parser α} {closing : TokenKind}

/-- Items after commas. -/
theorem moreItems_agrees (items : AgreesWithin limit item partner) {steps more : Nat}
    (enough : limit < steps) (also : limit < more) :
    AgreesWithin limit (moreItems item steps) (moreItems partner more) := by
  induction limit generalizing steps more with
  | zero => exact .zero _ _
  | succ limit inductionHypothesis =>
      obtain ⟨steps, rfl⟩ : ∃ fewer, steps = fewer + 1 := ⟨steps - 1, by omega⟩
      obtain ⟨more, rfl⟩ : ∃ fewer, more = fewer + 1 := ⟨more - 1, by omega⟩
      have fewer := items.fewer (Nat.le_succ limit)
      exact .accepted (by decide) (.bind fewer fun first =>
        .bind (inductionHypothesis fewer (by omega) (by omega)) fun others => .pure _) (.pure _)

/-- Items up to a closing token. -/
theorem itemsUntil_agrees (agrees : AgreesWithin limit item partner)
    (lexeme : closing ≠ .endOfFile) :
    AgreesWithin limit (itemsUntil item closing) (itemsUntil partner closing) := by
  have several : AgreesWithin limit (items item) (items partner) :=
    .bind agrees fun first => .bind (.bounded fun size steps more most enough also =>
      moreItems_agrees (agrees.fewer most) enough also) fun others => .pure _
  exact .checked (.bind (.pure _) fun found => .required lexeme fun token => .pure _)
    (.bind several fun found => .required lexeme fun token => .pure _)

variable {nested companion : Parser Ascription} {rejectAny : Bool}

/-- What may follow a colon. -/
theorem annotated_agrees {next following : Option Ascription → Parser β}
    (agrees : AgreesWithin limit nested companion)
    (second : ∀ found, AgreesWithin limit (next found) (following found)) :
    AgreesWithin limit
      (accept .colon >>= fun found =>
        if found = true then some <$> nested >>= next else pure none >>= next)
      (accept .colon >>= fun found =>
        if found = true then some <$> companion >>= following else pure none >>= following) :=
  .allowed (by decide) (.bind (.map agrees some) second) (.bind (.pure none) second)

/-- Parameters between parentheses. -/
theorem parameters_agrees (agrees : AgreesWithin limit nested companion) :
    AgreesWithin (limit + 1) (parameters nested) (parameters companion) := by
  have one : AgreesWithin limit (parameter nested) (parameter companion) :=
    .required (by decide) fun name => annotated_agrees agrees fun found => .pure _
  exact .expected (by decide) fun opening => itemsUntil_agrees one (by decide)

/-- Empty brackets after a type. -/
theorem arraySuffixes_agrees {steps more : Nat} (enough : limit < steps) (also : limit < more)
    (element : Ascription) :
    AgreesWithin limit (arraySuffixes steps element) (arraySuffixes more element) := by
  induction limit using Nat.strongRecOn generalizing steps more element with
  | _ limit inductionHypothesis =>
    obtain ⟨steps, rfl⟩ : ∃ fewer, steps = fewer + 1 := ⟨steps - 1, by omega⟩
    obtain ⟨more, rfl⟩ : ∃ fewer, more = fewer + 1 := ⟨more - 1, by omega⟩
    intro tokens ended short cursor ahead
    obtain ⟨token, rest, rfl⟩ := ended.exists_cons
    unfold arraySuffixes
    rw [runAt_bind_ok (runAt_check ahead), runAt_bind_ok (runAt_check ahead),
      runAt_bind_ok (runAt_glance 1 cursor), runAt_bind_ok (runAt_glance 1 cursor)]
    split
    next both =>
      obtain ⟨opens, closes⟩ := (Bool.and_eq_true _ _).mp both
      have bracket : token.kind ≠ .endOfFile := by
        rw [List.mem_singleton.mp (List.contains_iff_mem.mp opens)]
        decide
      have further := ended.tail bracket
      obtain ⟨second, rest, rfl⟩ := further.exists_cons
      have seen : cursor.ahead 1 = second := by
        simp only [Cursor.ahead, ahead, List.getElem?_cons_succ, List.getElem?_cons_zero,
          Option.getD_some]
      have other : second.kind ≠ .endOfFile := by
        rw [← seen, of_decide_eq_true closes]
        decide
      simp only [List.length_cons] at short
      exact Agrees.take bracket (.take other (inductionHypothesis (limit - 2) (by omega) (by omega)
        (by omega) _ rest (further.tail other) (by omega))) cursor ahead
    next => exact AgreesWithin.pure element _ ended short cursor ahead

/-- A type before the brackets after it. -/
theorem simpleAscription_agrees (agrees : AgreesWithin limit nested companion) :
    AgreesWithin (limit + 1) (simpleAscription rejectAny nested)
      (simpleAscription rejectAny companion) := by
  intro tokens ended short
  obtain ⟨token, rest, rfl⟩ := ended.exists_cons
  have lexeme {kind : TokenKind} (same : token.kind = kind) (other : kind ≠ .endOfFile) :
      token.kind ≠ .endOfFile := same ▸ other
  refine .look ?_
  by_cases primitive : token.kind.isPrimitiveType = true
  · rw [if_pos primitive, if_pos primitive]
    refine AgreesWithin.take ended short (fun mark => ?_) (.pure _)
    rw [mark] at primitive
    exact Bool.false_ne_true primitive
  rw [if_neg primitive, if_neg primitive]
  by_cases named : token.kind = .identifier
  · rw [if_pos named, if_pos named]
    split
    next rejected => exact AgreesWithin.throw _ _ ended short
    next allowed => exact AgreesWithin.take ended short (lexeme named (by decide)) (.pure _)
  rw [if_neg named, if_neg named]
  by_cases array : token.kind = .typeArray
  · rw [if_pos array, if_pos array]
    exact AgreesWithin.take ended short (lexeme array (by decide)) (.required (by decide)
      fun opening => .bind agrees fun element => .required (by decide) fun closing => .pure _)
  rw [if_neg array, if_neg array]
  by_cases opens : token.kind = .leftParen
  · rw [if_pos opens, if_pos opens]
    have whole : AgreesWithin (limit + 1) (parameters nested >>= fun params =>
        expect .arrow >>= fun _ => nested >>= fun result =>
          pure (Ascription.function token.offset params result)) _ :=
      .bind (parameters_agrees agrees) fun params => .expected (by decide) fun arrow =>
        .bind agrees fun result => .pure _
    exact whole _ ended short
  rw [if_neg opens, if_neg opens]
  exact AgreesWithin.unexpected _ _ ended short

/-- Types with bounds on their depth. -/
theorem ascriptionWithin_agrees {depth more : Nat} (enough : limit < depth)
    (also : limit < more) :
    AgreesWithin limit (ascriptionWithin rejectAny depth) (ascriptionWithin rejectAny more) := by
  induction limit generalizing depth more with
  | zero => exact .zero _ _
  | succ limit inductionHypothesis =>
      obtain ⟨depth, rfl⟩ : ∃ fewer, depth = fewer + 1 := ⟨depth - 1, by omega⟩
      obtain ⟨more, rfl⟩ : ∃ fewer, more = fewer + 1 := ⟨more - 1, by omega⟩
      exact .bind (simpleAscription_agrees (inductionHypothesis (by omega) (by omega)))
        fun simple => .bounded fun size steps others _ enough also =>
          arraySuffixes_agrees enough also simple

end Types

/-! ## Statements -/

section Expressions

variable {nested companion : Parser Expression} {cursor : Cursor}

/-- A `const` declaration behind its keyword. -/
theorem constDeclaration_passes (agrees : AgreesWithin limit nested companion)
    (ended : Sealed (token :: rest)) (short : (token :: rest).length ≤ limit + 1)
    (declares : token.kind = .constKeyword) (ahead : cursor.rest = token :: rest) :
    (constDeclaration companion).runAt cursor = (constDeclaration nested).runAt cursor ∧
      Passed rest ((constDeclaration nested).runAt cursor).2.rest := by
  have lexeme : token.kind ≠ .endOfFile := by rw [declares]; decide
  have types : AgreesWithin limit ascription ascription := .same (ascription_reads true).onward
  refine Agrees.passes lexeme (AgreesWithin.required (by decide) (fun name =>
    annotated_agrees types fun annotated => .required (by decide) fun equal => .bind agrees
      fun initial => .bind (.same (Reads.accept (by decide)).onward) fun _ => .pure _)
    rest (ended.tail lexeme) (Nat.le_of_succ_le_succ short)) ahead

/-- A `return` statement behind its keyword. -/
theorem returnStatement_passes (agrees : AgreesWithin limit nested companion)
    (ended : Sealed (token :: rest)) (short : (token :: rest).length ≤ limit + 1)
    (returns : token.kind = .returnKeyword) (ahead : cursor.rest = token :: rest) :
    (returnStatement companion).runAt cursor = (returnStatement nested).runAt cursor ∧
      Passed rest ((returnStatement nested).runAt cursor).2.rest := by
  have lexeme : token.kind ≠ .endOfFile := by rw [returns]; decide
  have closing : AgreesWithin limit (accept .semicolon) (accept .semicolon) :=
    .same (Reads.accept (by decide)).onward
  exact Agrees.passes lexeme (AgreesWithin.checked
    (.bind (.pure none) fun argument => .bind closing fun _ => .pure _)
    (.bind (.map agrees some) fun argument => .bind closing fun _ => .pure _)
    rest (ended.tail lexeme) (Nat.le_of_succ_le_succ short)) ahead

/-- A statement fails where it begins, or takes the token ahead. -/
theorem statement_agrees (agrees : AgreesWithin limit nested companion)
    (ended : Sealed (token :: rest)) (short : (token :: rest).length ≤ limit + 1)
    (ahead : cursor.rest = token :: rest) :
    (statement companion).runAt cursor = (statement nested).runAt cursor ∧
      ((∃ diagnostic, (statement nested).runAt cursor = (.error diagnostic, cursor)) ∨
        Passed rest ((statement nested).runAt cursor).2.rest) := by
  have kind_eq {kind : TokenKind} (found : [kind].contains token.kind = true) :
      token.kind = kind := List.mem_singleton.mp (List.contains_iff_mem.mp found)
  unfold statement
  rw [runAt_bind_ok (runAt_check ahead), runAt_bind_ok (runAt_check ahead)]
  split
  next declares =>
    obtain ⟨same, passed⟩ := constDeclaration_passes agrees ended short (kind_eq declares) ahead
    exact ⟨same, .inr passed⟩
  next =>
    rw [runAt_bind_ok (runAt_check ahead), runAt_bind_ok (runAt_check ahead)]
    split
    next returns =>
      obtain ⟨same, passed⟩ := returnStatement_passes agrees ended short (kind_eq returns) ahead
      exact ⟨same, .inr passed⟩
    next => exact ⟨rfl, .inl ⟨_, rfl⟩⟩

/-- Behind any token but the mark of the end and the brace that closes a block around, the next
boundary has passed that token. -/
theorem recoveryPoint_passes {inBlock : Bool} (kind : token.kind ≠ .endOfFile)
    (inside : inBlock = true → token.kind ≠ .rightCurly) (tail : List Token) :
    Passed tail (recoveryPoint inBlock 0 (token :: tail)) := by
  rw [recoveryPoint]
  split
  next mark => exact absurd mark kind
  next => exact recoveryPoint_passed inBlock 1 tail
  next closes =>
    cases inBlock with
    | true => exact absurd closes (inside rfl)
    | false => exact .refl tail
  next => exact .refl tail
  next => exact recoveryPoint_passed inBlock 0 tail

/-- A round of the loop over statements takes the token ahead. -/
theorem recovering_passes {inBlock : Bool} (agrees : AgreesWithin limit nested companion)
    (ended : Sealed (token :: rest)) (short : (token :: rest).length ≤ limit + 1)
    (kind : token.kind ≠ .endOfFile) (inside : inBlock = true → token.kind ≠ .rightCurly)
    (ahead : cursor.rest = token :: rest) :
    (recovering companion inBlock).runAt cursor = (recovering nested inBlock).runAt cursor ∧
      Passed rest ((recovering nested inBlock).runAt cursor).2.rest := by
  obtain ⟨same, passed⟩ := statement_agrees agrees ended short ahead
  rw [runAt_recovering, runAt_recovering, same]
  refine ⟨rfl, ?_⟩
  rcases ran : (statement nested).runAt cursor with ⟨diagnostic | tree, after⟩
  · rw [ran] at passed
    rcases passed with ⟨_, failed⟩ | passed
    · obtain ⟨-, rfl⟩ := Prod.mk.inj failed
      change Passed rest (recoveryPoint inBlock 0 after.rest)
      rw [ahead]
      exact recoveryPoint_passes kind inside rest
    · exact passed.trans (recoveryPoint_passed inBlock 0 after.rest)
  · rw [ran] at passed
    rcases passed with ⟨_, failed⟩ | passed
    · exact nomatch (Prod.mk.inj failed).1
    · exact passed

/-- A round of the loop over statements before others. -/
theorem round_agrees {inBlock : Bool} (agrees : AgreesWithin limit nested companion)
    (ended : Sealed (token :: rest)) (short : (token :: rest).length ≤ limit + 1)
    (kind : token.kind ≠ .endOfFile) (inside : inBlock = true → token.kind ≠ .rightCurly)
    {next following : Option Statement → Parser (List Statement)}
    (further : ∀ first, AgreesWithin rest.length (next first) (following first)) :
    Agrees (token :: rest) (recovering nested inBlock >>= next)
      (recovering companion inBlock >>= following) := by
  intro cursor ahead
  obtain ⟨same, passed⟩ := recovering_passes agrees ended short kind inside ahead
  rcases ran : (recovering nested inBlock).runAt cursor with ⟨diagnostic | first, after⟩
  · rw [ran] at same passed
    rw [runAt_bind_error ran, runAt_bind_error same]
    exact ⟨rfl, .cons kind passed⟩
  · rw [ran] at same passed
    rw [runAt_bind_ok ran, runAt_bind_ok same]
    obtain ⟨again, more⟩ :=
      further first after.rest ((ended.tail kind).passed passed) passed.length_le after rfl
    exact ⟨again, .cons kind (passed.trans more)⟩

/-- Statements up to a token that ends them, among which are the mark of the end and, in a
block, the brace that closes it. -/
theorem statements_agrees {inBlock : Bool} {ends : List TokenKind} (marks : .endOfFile ∈ ends)
    (closes : inBlock = true → .rightCurly ∈ ends) (agrees : AgreesWithin limit nested companion)
    {steps more : Nat} (most : size ≤ limit + 1) (enough : size < steps) (also : size < more) :
    AgreesWithin size (statements nested inBlock ends steps)
      (statements companion inBlock ends more) := by
  induction size generalizing steps more with
  | zero => exact .zero _ _
  | succ size inductionHypothesis =>
      obtain ⟨steps, rfl⟩ : ∃ fewer, steps = fewer + 1 := ⟨steps - 1, by omega⟩
      obtain ⟨more, rfl⟩ : ∃ fewer, more = fewer + 1 := ⟨more - 1, by omega⟩
      have further := @inductionHypothesis steps more (by omega) (by omega) (by omega)
      intro tokens ended short cursor ahead
      obtain ⟨token, rest, rfl⟩ := ended.exists_cons
      have fewer : rest.length ≤ size := Nat.le_of_succ_le_succ short
      unfold statements
      rw [runAt_bind_ok (runAt_check ahead), runAt_bind_ok (runAt_check ahead)]
      split
      next => exact ⟨rfl, ahead ▸ .refl _⟩
      next absent =>
        have missing {kind : TokenKind} (among : kind ∈ ends) : token.kind ≠ kind := fun same =>
          absent (List.contains_iff_mem.mpr (same ▸ among))
        by_cases semicolon : token.kind = .semicolon
        · have taken := Consumes.accept (by decide) semicolon rest
          exact Agrees.after taken (List.forall_mem_singleton.mpr (missing marks))
            (further rest (ended.tail (missing marks)) fewer) cursor ahead
        · have left : Consumes (accept .semicolon) [] (token :: rest) false :=
            .reject (.of_cons semicolon)
          exact Agrees.after left (List.forall_mem_nil _) (round_agrees agrees ended
            (Nat.le_trans short most) (missing marks) (fun inside => missing (closes inside))
            fun first => .bind (further.fewer fewer) fun others => .pure _) cursor ahead

/-! ## Expressions -/

/-- A block. -/
theorem block_agrees (agrees : AgreesWithin limit nested companion) :
    AgreesWithin (limit + 1) (block nested) (block companion) :=
  .required (by decide) fun opening => .bind (.bounded fun size steps more most enough also =>
    statements_agrees (by decide) (fun _ => by decide) agrees most enough also) fun body =>
      .required (by decide) fun closing => .pure _

/-- An arrow function. -/
theorem arrowFunction_agrees (agrees : AgreesWithin limit nested companion) :
    AgreesWithin (limit + 1) (arrowFunction nested) (arrowFunction companion) :=
  .look fun opening => .bind (.same (arrowHead_reads true).onward) fun ⟨params, result⟩ =>
    .required (by decide) fun arrow => .checked (.bind (block_agrees agrees) fun body => .pure _)
      (.look fun token => .throw _)

/-- A primary expression. -/
theorem primary_agrees (agrees : AgreesWithin limit nested companion) :
    AgreesWithin (limit + 1) (primary nested) (primary companion) := by
  intro tokens ended short
  obtain ⟨token, rest, rfl⟩ := ended.exists_cons
  have lexeme {kind : TokenKind} (same : token.kind = kind) (other : kind ≠ .endOfFile) :
      token.kind ≠ .endOfFile := same ▸ other
  refine .look ?_
  split
  next number =>
    refine AgreesWithin.take ended short (lexeme number (by decide)) ?_
    split
    next => exact .pure _
    next => exact .pure _
  next string => exact AgreesWithin.take ended short (lexeme string (by decide)) (.pure _)
  next truth => exact AgreesWithin.take ended short (lexeme truth (by decide)) (.pure _)
  next falsity => exact AgreesWithin.take ended short (lexeme falsity (by decide)) (.pure _)
  next name => exact AgreesWithin.take ended short (lexeme name (by decide)) (.pure _)
  next opens =>
    exact AgreesWithin.take ended short (lexeme opens (by decide))
      (.bind (itemsUntil_agrees agrees (by decide)) fun _ => .pure _)
  next opens =>
    exact AgreesWithin.take ended short (lexeme opens (by decide))
      (.bind agrees fun _ => .required (by decide) fun _ => .pure _)
  next => exact AgreesWithin.unexpected _ _ ended short

/-- What is applied to an operand. -/
theorem applications_agrees (agrees : AgreesWithin limit nested companion) {steps more : Nat}
    (most : size ≤ limit + 1) (enough : size < steps) (also : size < more)
    (applied : Expression) :
    AgreesWithin size (applications nested steps applied)
      (applications companion more applied) := by
  induction size generalizing steps more applied with
  | zero => exact .zero _ _
  | succ size inductionHypothesis =>
      obtain ⟨steps, rfl⟩ : ∃ fewer, steps = fewer + 1 := ⟨steps - 1, by omega⟩
      obtain ⟨more, rfl⟩ : ∃ fewer, more = fewer + 1 := ⟨more - 1, by omega⟩
      have inside : AgreesWithin size nested companion := agrees.fewer (by omega)
      have further (tree : Expression) := @inductionHypothesis steps more (by omega) (by omega)
        (by omega) tree
      exact .accepted (by decide)
        (.bind (itemsUntil_agrees inside (by decide)) fun _ => further _)
        (.accepted (by decide) (.bind inside fun _ => .required (by decide) fun _ => further _)
          (.pure _))

/-- An operand. -/
theorem operand_agrees (agrees : AgreesWithin limit nested companion) :
    AgreesWithin (limit + 1) (operand nested) (operand companion) :=
  .bind (.same .refl) fun _ => .bind (.same arrowAhead_reads.onward) fun _ =>
    .ite (arrowFunction_agrees agrees) (.bind (primary_agrees agrees) fun first =>
      .bounded fun _ _ _ most enough also => applications_agrees agrees most enough also first)

/-- Operands after plus signs. -/
theorem sums_agrees (agrees : AgreesWithin limit nested companion) {steps more : Nat}
    (most : size ≤ limit + 1) (enough : size < steps) (also : size < more) (left : Expression) :
    AgreesWithin size (sums nested steps left) (sums companion more left) := by
  induction size generalizing steps more left with
  | zero => exact .zero _ _
  | succ size inductionHypothesis =>
      obtain ⟨steps, rfl⟩ : ∃ fewer, steps = fewer + 1 := ⟨steps - 1, by omega⟩
      obtain ⟨more, rfl⟩ : ∃ fewer, more = fewer + 1 := ⟨more - 1, by omega⟩
      have operands : AgreesWithin size (operand nested) (operand companion) :=
        (operand_agrees agrees).fewer (by omega)
      exact .matched (by decide) (fun _ _ => .bind operands fun _ =>
        inductionHypothesis (by omega) (by omega) (by omega) _) (.pure left)

/-- A conditional. -/
theorem conditional_agrees (agrees : AgreesWithin limit nested companion) :
    AgreesWithin (limit + 1) (conditional nested) (conditional companion) := by
  have sum : AgreesWithin (limit + 1) (binary nested) (binary companion) :=
    .bind (operand_agrees agrees) fun first => .bounded fun _ _ _ most enough also =>
      sums_agrees agrees most enough also first
  exact .bind sum fun _ => .accepted (by decide) (.bind agrees fun _ =>
    .required (by decide) fun _ => .bind agrees fun _ => .pure _) (.pure _)

/-- Expressions with bounds on their depth. -/
theorem expressionWithin_agrees {depth more : Nat} (enough : limit < depth)
    (also : limit < more) :
    AgreesWithin limit (expressionWithin depth) (expressionWithin more) := by
  induction limit generalizing depth more with
  | zero => exact .zero _ _
  | succ limit inductionHypothesis =>
      obtain ⟨depth, rfl⟩ : ∃ fewer, depth = fewer + 1 := ⟨depth - 1, by omega⟩
      obtain ⟨more, rfl⟩ : ∃ fewer, more = fewer + 1 := ⟨more - 1, by omega⟩
      exact conditional_agrees (inductionHypothesis (by omega) (by omega))

/-- Expressions of any depth are those with a bound on their depth that is large enough. -/
theorem expression_agrees {depth : Nat} (enough : limit < depth) :
    AgreesWithin limit expression (expressionWithin depth) :=
  .settled fun _ _ most fits => expressionWithin_agrees fits (Nat.lt_of_le_of_lt most enough)

end Expressions

/-! ## All bounds -/

/-- Before up to so many tokens no bound is reached: every rule with a bound does what it does
with any bound that is larger. -/
structure Unbounded (limit : Nat) : Prop where
  items {α : Type} {item : Parser α} (onward : Onward item) {steps : Nat} (enough : limit < steps) :
    AgreesWithin limit (bounded (moreItems item)) (moreItems item steps)
  suffixes (element : Ascription) {steps : Nat} (enough : limit < steps) :
    AgreesWithin limit (bounded (arraySuffixes · element)) (arraySuffixes steps element)
  ascriptions (rejectAny : Bool) {depth : Nat} (enough : limit < depth) :
    AgreesWithin limit (ascription rejectAny) (ascriptionWithin rejectAny depth)
  applications {nested : Parser Expression} (onward : Onward nested) (applied : Expression)
    {steps : Nat} (enough : limit < steps) :
    AgreesWithin limit (bounded (applications nested · applied))
      (applications nested steps applied)
  sums {nested : Parser Expression} (onward : Onward nested) (left : Expression) {steps : Nat}
    (enough : limit < steps) :
    AgreesWithin limit (bounded (sums nested · left)) (sums nested steps left)
  statements {nested : Parser Expression} (onward : Onward nested) {inBlock : Bool}
    {ends : List TokenKind} (marks : .endOfFile ∈ ends)
    (closes : inBlock = true → .rightCurly ∈ ends) {steps : Nat} (enough : limit < steps) :
    AgreesWithin limit (bounded (statements nested inBlock ends))
      (statements nested inBlock ends steps)
  expressions {depth : Nat} (enough : limit < depth) :
    AgreesWithin limit expression (expressionWithin depth)

/-- No bound is ever reached. -/
theorem unbounded (limit : Nat) : Unbounded limit where
  items onward _ enough := .settled fun _ _ most fits =>
    moreItems_agrees (.same onward) fits (Nat.lt_of_le_of_lt most enough)
  suffixes element _ enough := .settled fun _ _ most fits =>
    arraySuffixes_agrees fits (Nat.lt_of_le_of_lt most enough) element
  ascriptions _ _ enough := .settled fun _ _ most fits =>
    ascriptionWithin_agrees fits (Nat.lt_of_le_of_lt most enough)
  applications onward applied _ enough := .settled fun size _ most fits =>
    have same : AgreesWithin size _ _ := .same onward
    applications_agrees same (Nat.le_succ size) fits (Nat.lt_of_le_of_lt most enough) applied
  sums onward left _ enough := .settled fun size _ most fits =>
    have same : AgreesWithin size _ _ := .same onward
    sums_agrees same (Nat.le_succ size) fits (Nat.lt_of_le_of_lt most enough) left
  statements onward _ _ marks closes _ enough := .settled fun size _ most fits =>
    have same : AgreesWithin size _ _ := .same onward
    statements_agrees marks closes same (Nat.le_succ size) fits (Nat.lt_of_le_of_lt most enough)
  expressions enough := expression_agrees enough

end Parser

end ArrowScript
