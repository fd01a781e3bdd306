import ArrowScript.Proofs.Parser.Locality

/-!
# Errors do not leave the statement or the block that they are in

Each parser is shown to do the same on the tokens before a semicolon or a closing brace,
whatever comes behind, and to leave balanced braces in front of it. The bounds on nested
and repeated steps differ with what comes behind, but all of them exceed the number of
tokens up to the end of the statement.

A block is where the two halves meet. Its statements stop at its own closing brace,
because every error in them has passed balanced braces only and the way to the next
boundary counts the others; so the block returns, and the braces behind it are balanced.
-/

namespace ArrowScript.Parser

variable {α β : Type} {limit : Nat} {stop token : Token} {front rest : List Token}

/-! ## Types -/

section Types

variable {item partner : Parser α} {closing : TokenKind}
  {Post : Token → Nat → Except Diagnostic β → List Token → Prop} [Graded Post]

/-- Items after commas. -/
theorem moreItems_keeps (items : Keeps limit item partner) {steps more : Nat}
    (enough : limit < steps) (also : limit < more) :
    Keeps limit (moreItems item steps) (moreItems partner more) := by
  induction limit generalizing steps more with
  | zero => exact .zero _ _
  | succ limit inductionHypothesis =>
      cases steps with
      | zero => omega
      | succ steps =>
        cases more with
        | zero => omega
        | succ more =>
          have fewer := items.fewer (Nat.le_succ limit)
          exact .accepted (by decide) (.bind fewer fun tree =>
            .bind (inductionHypothesis fewer (by omega) (by omega)) fun trees => .pure _) (.pure _)

/-- Items up to a closing token. -/
theorem itemsUntil_keeps (keeps : Keeps limit item partner) (plain : closing ∉ edges) :
    Keeps limit (itemsUntil item closing) (itemsUntil partner closing) := by
  have several : Keeps limit (items item) (items partner) :=
    .bind keeps fun tree => .bind (.bounded fun size steps more most enough also =>
      moreItems_keeps (keeps.fewer most) enough also) fun trees => .pure _
  exact .checked (.bind (.pure _) fun trees => .required plain fun token => .pure _)
    (.bind several fun trees => .required plain fun token => .pure _)

variable {nested companion : Parser Ascription} {rejectAny : Bool}

/-- What may follow a colon. -/
theorem annotated_leads {next following : Option Ascription → Parser β}
    (keeps : Keeps limit nested companion)
    (second : ∀ found, Leads Post limit (next found) (following found)) :
    Leads Post limit
      (accept .colon >>= fun found =>
        if found = true then some <$> nested >>= next else pure none >>= next)
      (accept .colon >>= fun found =>
        if found = true then some <$> companion >>= following else pure none >>= following) :=
  .allowed (by decide) (.bind (.map keeps some) second) (.bind (.pure none) second)

/-- A parameter. -/
theorem parameter_keeps (keeps : Keeps limit nested companion) :
    Keeps limit (parameter nested) (parameter companion) :=
  .required (by decide) fun name => annotated_leads keeps fun found => .pure _

/-- Parameters between parentheses. -/
theorem parameters_keeps (keeps : Keeps limit nested companion) :
    Keeps (limit + 1) (parameters nested) (parameters companion) :=
  .expected (by decide) fun opening => itemsUntil_keeps (parameter_keeps keeps) (by decide)

/-- Empty brackets after a type. The second bracket is looked at only where the first one is
no end of a front, so it belongs to the front as well. -/
theorem arraySuffixes_keeps {steps more : Nat} (enough : limit < steps) (also : limit < more)
    (element : Ascription) :
    Keeps limit (arraySuffixes steps element) (arraySuffixes more element) := by
  induction limit using Nat.strongRecOn generalizing steps more element with
  | _ limit inductionHypothesis =>
    obtain ⟨steps, rfl⟩ : ∃ fewer, steps = fewer + 1 := ⟨steps - 1, by omega⟩
    obtain ⟨more, rfl⟩ : ∃ fewer, more = fewer + 1 := ⟨more - 1, by omega⟩
    intro stop front ends before short here there tail others ahead beyond
    obtain ⟨token, rest, rfl⟩ := before.exists_cons
    unfold arraySuffixes
    rw [runAt_bind_ok (runAt_check ahead), runAt_bind_ok (runAt_check beyond),
      runAt_bind_ok (runAt_glance 1 here), runAt_bind_ok (runAt_glance 1 there)]
    by_cases opens : token.kind = .leftBracket
    · have further := before.tail ends (by rw [opens]; decide)
      obtain ⟨second, rest, rfl⟩ := further.exists_cons
      have seen {cursor : Cursor} {tail : List Token}
          (ahead : cursor.rest = token :: second :: rest ++ tail) : cursor.ahead 1 = second := by
        simp only [Cursor.ahead, ahead, List.cons_append, List.getElem?_cons_succ,
          List.getElem?_cons_zero, Option.getD_some]
      rw [seen ahead, seen beyond]
      split
      next both =>
        obtain ⟨-, closes⟩ := (Bool.and_eq_true _ _).mp both
        have kind := of_decide_eq_true closes
        have last := further.tail ends (by rw [kind]; decide)
        have bracket : token.kind ≠ .endOfFile := by rw [opens]; decide
        have other : second.kind ≠ .endOfFile := by rw [kind]; decide
        simp only [List.length_cons] at short
        refine Alike.take bracket (.take other ?_) ahead beyond
        refine (inductionHypothesis (limit - 2) (by omega) (by omega) (by omega) _ ends last
          (by omega)).larger ?_
        simp only [List.length_cons]
        omega
      next neither => exact Leads.pure element ends before short ahead beyond
    · have absent : [TokenKind.leftBracket].contains token.kind = false := by
        rw [Bool.eq_false_iff]
        exact fun seen => opens (List.mem_singleton.mp (List.contains_iff_mem.mp seen))
      simp only [absent, Bool.false_and]
      exact Leads.pure element ends before short ahead beyond

/-- A type before the brackets after it. -/
theorem simpleAscription_keeps (keeps : Keeps limit nested companion) :
    Keeps (limit + 1) (simpleAscription rejectAny nested)
      (simpleAscription rejectAny companion) := by
  intro stop front ends before short
  obtain ⟨token, rest, rfl⟩ := before.exists_cons
  have plain {kind : TokenKind} (same : token.kind = kind) (other : kind ∉ edges) :
      token.kind ∉ edges := same ▸ other
  refine .look ?_
  by_cases primitive : token.kind.isPrimitiveType = true
  · rw [if_pos primitive, if_pos primitive]
    refine Leads.take ends before short ?_ (.pure _)
    intro among
    exact (by decide : ∀ kind ∈ edges, ¬kind.isPrimitiveType = true) _ among primitive
  rw [if_neg primitive, if_neg primitive]
  by_cases named : token.kind = .identifier
  · rw [if_pos named, if_pos named]
    split
    next rejected => exact Leads.throw _ ends before short
    next allowed => exact Leads.take ends before short (plain named (by decide)) (.pure _)
  rw [if_neg named, if_neg named]
  by_cases array : token.kind = .typeArray
  · rw [if_pos array, if_pos array]
    exact Leads.take ends before short (plain array (by decide)) (.required (by decide)
      fun opening => .bind keeps fun element => .required (by decide) fun closing => .pure _)
  rw [if_neg array, if_neg array]
  by_cases opens : token.kind = .leftParen
  · rw [if_pos opens, if_pos opens]
    have whole : Keeps (limit + 1) (parameters nested >>= fun params => expect .arrow >>= fun _ =>
        nested >>= fun result => pure (Ascription.function token.offset params result)) _ :=
      .bind (parameters_keeps keeps) fun params => .expected (by decide) fun arrow =>
        .bind keeps fun result => .pure _
    exact whole ends before short
  rw [if_neg opens, if_neg opens]
  exact Leads.unexpected _ ends before short

/-- Types with bounds on their depth. -/
theorem ascriptionWithin_keeps {depth more : Nat} (enough : limit < depth) (also : limit < more) :
    Keeps limit (ascriptionWithin rejectAny depth) (ascriptionWithin rejectAny more) := by
  induction limit generalizing depth more with
  | zero => exact .zero _ _
  | succ limit inductionHypothesis =>
      obtain ⟨depth, rfl⟩ : ∃ fewer, depth = fewer + 1 := ⟨depth - 1, by omega⟩
      obtain ⟨more, rfl⟩ : ∃ fewer, more = fewer + 1 := ⟨more - 1, by omega⟩
      exact .bind (simpleAscription_keeps (inductionHypothesis (by omega) (by omega)))
        fun simple => .bounded fun size steps others _ enough also =>
          arraySuffixes_keeps enough also simple

/-- Types of any depth. -/
theorem ascription_keeps (rejectAny : Bool) (limit : Nat) :
    Keeps limit (ascription rejectAny) (ascription rejectAny) :=
  .bounded fun _ _ _ _ enough also => ascriptionWithin_keeps enough also

/-- The part of an arrow function before its arrow. -/
theorem arrowHead_keeps (rejectAny : Bool) (limit : Nat) :
    Keeps limit (arrowHead rejectAny) (arrowHead rejectAny) :=
  .bind ((parameters_keeps (ascription_keeps rejectAny limit)).fewer (Nat.le_succ limit))
    fun _ => annotated_leads (ascription_keeps rejectAny limit) fun _ => .pure _

/-- The look ahead for an arrow function sees the same before both tails. -/
theorem arrowAhead_keeps (limit : Nat) : Keeps limit arrowAhead arrowAhead := by
  intro stop front ends before short here there tail others ahead beyond
  obtain ⟨outcome, left, added, ⟨further, -⟩, ran, otherRan⟩ :=
    arrowHead_keeps false limit ends before short ahead beyond
  obtain ⟨token, rest, rfl⟩ := further.exists_cons
  have seen (cursor : Cursor) (tail : List Token) :
      (cursor.moved (token :: rest ++ tail) added).ahead 0 = token := ahead_cons rfl
  cases outcome with
  | ok head =>
      refine ⟨.ok (decide (token.kind = .arrow)), front, [], ⟨before, Nat.le_refl _⟩, ?_, ?_⟩
      · simp only [runAt_arrowAhead, ran, seen, Cursor.moved_nil ahead]
      · simp only [runAt_arrowAhead, otherRan, seen, Cursor.moved_nil beyond]
  | error diagnostic =>
      refine ⟨.ok false, front, [], ⟨before, Nat.le_refl _⟩, ?_, ?_⟩
      · simp only [runAt_arrowAhead, ran, Cursor.moved_nil ahead]
      · simp only [runAt_arrowAhead, otherRan, Cursor.moved_nil beyond]

end Types

/-! ## Blocks -/

/-- What comes behind a front can be counted among the tail. -/
theorem Alike.frame {one other : Parser α} {Holds : Except Diagnostic α → List Token → Prop}
    (alike : Alike one other front Holds) (behind : List Token) :
    Alike one other (front ++ behind) fun outcome left =>
      ∃ within, left = within ++ behind ∧ Holds outcome within := by
  intro here there tail others ahead beyond
  rw [List.append_assoc] at ahead beyond
  obtain ⟨outcome, left, added, holds, ran, otherRan⟩ := alike ahead beyond
  refine ⟨outcome, left ++ behind, added, ⟨left, rfl, holds⟩, ?_, ?_⟩
  · rw [ran, List.append_assoc]
  · rw [otherRan, List.append_assoc]

section Statements

variable {nested companion : Parser Expression} {inBlock : Bool}

/-- What a statement leaves behind its keyword: a part of the front, or nothing if it took
the semicolon at the end of the front. An error leaves a front. -/
def Ended (stop : Token) (size : Nat) : Except Diagnostic α → List Token → Prop
  | .ok _, left => Remains stop (size + 1) left
  | .error _, left => Before stop left ∧ left.length ≤ size

instance : Graded (α := α) Ended where
  larger {_ _ _ outcome _} ended most := by
    cases outcome with
    | ok result => exact Remains.mono ended (Nat.succ_le_succ most)
    | error diagnostic => exact ⟨ended.1, Nat.le_trans ended.2 most⟩
  failed _ before most := ⟨before, most⟩

/-- The end of a statement, with a semicolon or without. -/
theorem closing_leads (tree : Statement) :
    Leads Ended limit (accept .semicolon >>= fun _ => pure tree)
      (accept .semicolon >>= fun _ => pure tree) := by
  intro stop front ends before short
  obtain ⟨token, rest, rfl⟩ := before.exists_cons
  refine .bind (.accept (by decide)) ?_ ?_
  · rintro diagnostic left (⟨absurd, -⟩ | ⟨absurd, -⟩) <;> exact nomatch absurd
  · rintro result left (⟨-, rfl, semicolon⟩ | ⟨-, rfl, -⟩)
    · refine .pure ?_
      cases before with
      | stop => exact .nothing semicolon
      | lexeme kind following => exact .front following (by rw [List.length_cons]; omega)
      | braces opens => exact absurd (semicolon.symm.trans opens) (by decide)
    · exact .pure (.front before (Nat.lt_succ_self _))

/-- What a statement leaves. Where it fails it has not taken a semicolon that ends it. -/
def Parsed (stop : Token) (front : List Token) : Except Diagnostic α → List Token → Prop
  | .ok _, left => Remains stop front.length left
  | .error _, left => Before stop left ∧ (left.length < front.length ∨ left = front)

/-- What follows the keyword of a statement belongs to it. -/
theorem keyword_alike {next following : Token → Parser β}
    (ends : stop.kind ∈ [.semicolon, .rightCurly]) (before : Before stop (token :: rest))
    (short : (token :: rest).length ≤ limit + 1) (plain : token.kind ∉ edges)
    (leads : Leads Ended limit (next token) (following token)) :
    Alike (advance >>= next) (advance >>= following) (token :: rest)
      (Parsed stop (token :: rest)) := by
  refine .take ?_ ((leads ends (before.tail ends plain) (Nat.le_of_succ_le_succ short)).mono ?_)
  · intro mark
    exact plain (by rw [mark]; decide)
  · intro outcome left ended
    cases outcome with
    | ok result => exact ended
    | error diagnostic => exact ⟨ended.1, .inl (Nat.lt_succ_of_le ended.2)⟩

/-- A statement. -/
theorem statement_alike (keeps : Keeps limit nested companion)
    (ends : stop.kind ∈ [.semicolon, .rightCurly]) (before : Before stop front)
    (short : front.length ≤ limit + 1) :
    Alike (statement nested) (statement companion) front (Parsed stop front) := by
  obtain ⟨token, rest, rfl⟩ := before.exists_cons
  refine .checked (fun among => ?_) fun _ => .checked (fun among => ?_) fun _ => .unexpected ?_ ?_
  · have kind := List.mem_singleton.mp among
    refine keyword_alike ends before short (by rw [kind]; decide) ?_
    exact .required (by decide) fun name => annotated_leads (ascription_keeps true limit)
      fun annotated => .required (by decide) fun _ => .bind keeps fun initial => closing_leads _
  · have kind := List.mem_singleton.mp among
    refine keyword_alike ends before short (by rw [kind]; decide) ?_
    exact .checked (.bind (.pure none) fun argument => closing_leads _)
      (.bind (.map keeps some) fun argument => closing_leads _)
  · exact fun diagnostic => ⟨before, .inr rfl⟩
  · exact ⟨token, rest, rfl⟩

/-- A statement whose errors are recorded. It passes a token at least. -/
theorem recovering_alike (keeps : Keeps limit nested companion) (boundary : Boundary inBlock stop)
    (before : Before stop front) (short : front.length ≤ limit + 1)
    (starts : Next (· ∉ [.semicolon, .rightCurly]) front) :
    Alike (recovering nested inBlock) (recovering companion inBlock) front fun outcome left =>
      (∃ found, outcome = .ok found) ∧ Remains stop front.length left := by
  intro here there tail others ahead beyond
  obtain ⟨outcome, left, added, parsed, ran, otherRan⟩ :=
    statement_alike keeps boundary.among before short ahead beyond
  rw [runAt_recovering, runAt_recovering, ran, otherRan]
  cases outcome with
  | ok tree => exact ⟨.ok (some tree), left, added, ⟨⟨some tree, rfl⟩, parsed⟩, rfl, rfl⟩
  | error diagnostic =>
      obtain ⟨further, fewer | same⟩ := parsed
      · obtain ⟨final, remains, found⟩ := recoveryPoint_remains further boundary
        refine ⟨.ok none, final, added ++ [diagnostic],
          ⟨⟨none, rfl⟩, remains.mono (Nat.succ_le_of_lt fewer)⟩, ?_, ?_⟩
        · simp only [Cursor.moved, found, List.append_assoc]
        · simp only [Cursor.moved, found, List.append_assoc]
      · obtain ⟨final, remains, found⟩ := recoveryPoint_fewer before boundary starts
        refine ⟨.ok none, final, added ++ [diagnostic], ⟨⟨none, rfl⟩, remains⟩, ?_, ?_⟩
        · simp only [Cursor.moved, same, found, List.append_assoc]
        · simp only [Cursor.moved, same, found, List.append_assoc]

/-- The statements of a block, up to its closing brace. -/
theorem statements_alike (keeps : Keeps limit nested companion) (closes : stop.kind = .rightCurly)
    {steps more : Nat} (before : Before stop front) (short : front.length ≤ limit + 1)
    (enough : front.length < steps) (also : front.length < more) :
    Alike (statements nested true [.rightCurly, .endOfFile] steps)
      (statements companion true [.rightCurly, .endOfFile] more) front fun outcome left =>
        (∃ trees, outcome = .ok trees) ∧ left = [stop] := by
  induction size : front.length using Nat.strongRecOn generalizing front steps more with
  | _ size inductionHypothesis =>
    subst size
    obtain ⟨steps, rfl⟩ : ∃ fewer, steps = fewer + 1 := ⟨steps - 1, by omega⟩
    obtain ⟨more, rfl⟩ : ∃ fewer, more = fewer + 1 := ⟨more - 1, by omega⟩
    obtain ⟨token, rest, rfl⟩ := before.exists_cons
    refine .checked (fun among => .pure ?_) fun absent => .accepted (by decide)
      (fun semicolon => ?_) fun other => ?_
    · refine ⟨⟨[], rfl⟩, ?_⟩
      cases before with
      | stop => rfl
      | lexeme kind =>
          refine absurd ?_ kind
          exact (by decide : ∀ kind ∈ [TokenKind.rightCurly, .endOfFile],
            kind ∈ [TokenKind.leftCurly, .rightCurly, .endOfFile]) _ among
      | braces opens => exact absurd (opens ▸ among) (by decide)
    · simp only [List.length_cons] at short enough also
      cases before with
      | stop => exact absurd (semicolon.symm.trans closes) (by decide)
      | lexeme kind following =>
          exact inductionHypothesis _ (Nat.lt_succ_self _) following (by omega) (by omega)
            (by omega) rfl
      | braces opens => exact absurd (semicolon.symm.trans opens) (by decide)
    · have starts : Next (· ∉ [.semicolon, .rightCurly]) (token :: rest) := by
        refine .of_cons ?_
        simp only [List.mem_cons, List.not_mem_nil, or_false, not_or] at absent ⊢
        exact ⟨other, absent.1⟩
      refine .bind (recovering_alike keeps (.inr ⟨closes, rfl⟩) before short starts) ?_ ?_
      · rintro diagnostic left ⟨⟨_, absurd⟩, -⟩
        exact nomatch absurd
      · rintro first left ⟨-, remains⟩
        cases remains with
        | front further fewer =>
            refine .bind (inductionHypothesis _ fewer further (by omega) (by omega) (by omega) rfl)
              ?_ ?_
            · rintro diagnostic left ⟨⟨_, absurd⟩, -⟩
              exact nomatch absurd
            · rintro trees left ⟨-, same⟩
              exact .pure ⟨⟨_, rfl⟩, same⟩
        | nothing ends => exact absurd (ends.symm.trans closes) (by decide)

/-- A block that is closed returns, and stops behind its own closing brace. -/
theorem block_alike {opening closing : Token} {inner : List Token}
    (keeps : Keeps limit nested companion) (opens : opening.kind = .leftCurly)
    (inside : Before closing inner) (closes : closing.kind = .rightCurly)
    (short : inner.length ≤ limit + 1) (behind : List Token) :
    Alike (block nested) (block companion) (opening :: inner ++ behind) fun outcome left =>
      (∃ body, outcome = .ok body) ∧ left = behind := by
  have body : Alike (bounded (statements nested true [.rightCurly, .endOfFile]))
      (bounded (statements companion true [.rightCurly, .endOfFile])) inner fun outcome left =>
        (∃ trees, outcome = .ok trees) ∧ left = [closing] :=
    .bounded fun steps more enough also => statements_alike keeps closes inside short enough also
  refine .expected (by decide) (fun other => absurd opens other) fun _ =>
    .bind (body.frame behind) ?_ ?_
  · rintro diagnostic left ⟨_, -, ⟨_, absurd⟩, -⟩
    exact nomatch absurd
  · rintro trees left ⟨within, rfl, -, rfl⟩
    exact .expected (by decide) (fun other => absurd closes other) fun _ => .pure ⟨⟨_, rfl⟩, rfl⟩

/-- A block leaves balanced braces before the end of the statement around it. -/
theorem block_keeps (keeps : Keeps limit nested companion) :
    Keeps (limit + 1) (block nested) (block companion) := by
  intro stop front ends before short
  cases before with
  | stop =>
      refine .expected (by decide) (fun _ diagnostic => ⟨.stop, Nat.le_refl _⟩) fun opens => ?_
      rw [opens] at ends
      exact absurd ends (by decide)
  | lexeme kind following =>
      refine .expected (by decide) (fun _ diagnostic => ⟨.lexeme kind following, Nat.le_refl _⟩)
        fun opens => ?_
      rw [opens] at kind
      exact absurd (by decide) kind
  | @braces _ opening closing inner rest opens inside closes following =>
      simp only [List.cons_append, List.length_cons, List.length_append] at short
      refine (block_alike keeps opens inside closes (by omega) rest).mono ?_
      rintro outcome left ⟨-, rfl⟩
      refine ⟨following, ?_⟩
      simp only [List.cons_append, List.length_cons, List.length_append]
      omega

end Statements

/-! ## Expressions -/

section Expressions

variable {nested companion : Parser Expression}

/-- An arrow function. -/
theorem arrowFunction_keeps (keeps : Keeps limit nested companion) :
    Keeps (limit + 1) (arrowFunction nested) (arrowFunction companion) :=
  .look fun _ => .bind (arrowHead_keeps true (limit + 1)) fun ⟨_, _⟩ => .required (by decide)
    fun _ => .checked (.bind (block_keeps keeps) fun _ => .pure _) (.look fun _ => .throw _)

/-- A primary expression. -/
theorem primary_keeps (keeps : Keeps limit nested companion) :
    Keeps (limit + 1) (primary nested) (primary companion) := by
  intro stop front ends before short
  obtain ⟨token, rest, rfl⟩ := before.exists_cons
  have plain {kind : TokenKind} (same : token.kind = kind) (other : kind ∉ edges) :
      token.kind ∉ edges := same ▸ other
  refine .look ?_
  split
  next number =>
    refine Leads.take ends before short (plain number (by decide)) ?_
    split
    next => exact .pure _
    next => exact .pure _
  next string => exact Leads.take ends before short (plain string (by decide)) (.pure _)
  next truth => exact Leads.take ends before short (plain truth (by decide)) (.pure _)
  next falsity => exact Leads.take ends before short (plain falsity (by decide)) (.pure _)
  next name => exact Leads.take ends before short (plain name (by decide)) (.pure _)
  next opens =>
    exact Leads.take ends before short (plain opens (by decide))
      (.bind (itemsUntil_keeps keeps (by decide)) fun _ => .pure _)
  next opens =>
    exact Leads.take ends before short (plain opens (by decide))
      (.bind keeps fun _ => .required (by decide) fun _ => .pure _)
  next => exact Leads.unexpected _ ends before short

/-- What is applied to an operand. -/
theorem applications_keeps (keeps : Keeps limit nested companion) {size steps more : Nat}
    (most : size ≤ limit + 1) (enough : size < steps) (also : size < more)
    (applied : Expression) :
    Keeps size (applications nested steps applied) (applications companion more applied) := by
  induction size generalizing steps more applied with
  | zero => exact .zero _ _
  | succ size inductionHypothesis =>
      obtain ⟨steps, rfl⟩ : ∃ fewer, steps = fewer + 1 := ⟨steps - 1, by omega⟩
      obtain ⟨more, rfl⟩ : ∃ fewer, more = fewer + 1 := ⟨more - 1, by omega⟩
      have inside : Keeps size nested companion := keeps.fewer (by omega)
      have further (tree : Expression) := @inductionHypothesis steps more (by omega) (by omega)
        (by omega) tree
      exact .accepted (by decide)
        (.bind (itemsUntil_keeps inside (by decide)) fun _ => further _)
        (.accepted (by decide) (.bind inside fun _ => .required (by decide) fun _ => further _)
          (.pure _))

/-- An operand. -/
theorem operand_keeps (keeps : Keeps limit nested companion) :
    Keeps (limit + 1) (operand nested) (operand companion) :=
  .bind (.check _) fun _ => .bind (arrowAhead_keeps _) fun _ => .ite (arrowFunction_keeps keeps)
    (.bind (primary_keeps keeps) fun first => .bounded fun _ _ _ most enough also =>
      applications_keeps keeps most enough also first)

/-- Operands after plus signs. -/
theorem sums_keeps (keeps : Keeps limit nested companion) {size steps more : Nat}
    (most : size ≤ limit + 1) (enough : size < steps) (also : size < more) (left : Expression) :
    Keeps size (sums nested steps left) (sums companion more left) := by
  induction size generalizing steps more left with
  | zero => exact .zero _ _
  | succ size inductionHypothesis =>
      obtain ⟨steps, rfl⟩ : ∃ fewer, steps = fewer + 1 := ⟨steps - 1, by omega⟩
      obtain ⟨more, rfl⟩ : ∃ fewer, more = fewer + 1 := ⟨more - 1, by omega⟩
      have operands : Keeps size (operand nested) (operand companion) :=
        (operand_keeps keeps).fewer (by omega)
      exact .matched (by decide) (fun _ => .bind operands fun _ =>
        inductionHypothesis (by omega) (by omega) (by omega) _) (.pure left)

/-- A sum. -/
theorem binary_keeps (keeps : Keeps limit nested companion) :
    Keeps (limit + 1) (binary nested) (binary companion) :=
  .bind (operand_keeps keeps) fun first => .bounded fun _ _ _ most enough also =>
    sums_keeps keeps most enough also first

/-- A conditional. -/
theorem conditional_keeps (keeps : Keeps limit nested companion) :
    Keeps (limit + 1) (conditional nested) (conditional companion) :=
  .bind (binary_keeps keeps) fun _ => .accepted (by decide) (.bind keeps fun _ =>
    .required (by decide) fun _ => .bind keeps fun _ => .pure _) (.pure _)

/-- Expressions with bounds on their depth. -/
theorem expressionWithin_keeps {depth more : Nat} (enough : limit < depth) (also : limit < more) :
    Keeps limit (expressionWithin depth) (expressionWithin more) := by
  induction limit generalizing depth more with
  | zero => exact .zero _ _
  | succ limit inductionHypothesis =>
      obtain ⟨depth, rfl⟩ : ∃ fewer, depth = fewer + 1 := ⟨depth - 1, by omega⟩
      obtain ⟨more, rfl⟩ : ∃ fewer, more = fewer + 1 := ⟨more - 1, by omega⟩
      exact conditional_keeps (inductionHypothesis (by omega) (by omega))

/-- Expressions of any depth. -/
theorem expression_keeps (limit : Nat) : Keeps limit expression expression :=
  .bounded fun _ _ _ _ enough also => expressionWithin_keeps enough also

end Expressions

end ArrowScript.Parser
