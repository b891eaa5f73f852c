import StringHarvest.Script.Parse.Grammar

/-!
# Reading a call of string literals

What the reader of scripts makes of a statement such as `tr("a" + "b" + "c");`. The reading is
followed from the tokens on: `Spells s ts` says that the tokens from a state on are the given ones,
wherever in a text they stand and whatever white space is between them.

Every phrase from `primary` up to `moduleItems` has one lemma for a literal, for a sum of literals
or for the whole call. Loops are unrolled by `repeatFrom_succ`; the only induction is the one over
the summands in `binaryTail_summands`.

**Main theorem** (`moduleItems_call`): the tokens of a call of `tr` with a sum of string
literals are read as one statement, whose call starts at the first token and whose argument
is the sum, nested to the left.
-/

namespace StringHarvest.Script

open StringHarvest.Script.Parser

/-! ## Running readers -/

section running

variable {α β σ : Type} (c : Context) (s : State)

/-- A value is given in the state where it is asked for. -/
@[simp] theorem pure_apply (v : α) : (pure v : Parser α) c s = .done v s := rfl

/-- The second phrase goes on where the first one ends. -/
@[simp] theorem bind_apply (p : Parser α) (f : α → Parser β) :
    (p >>= f) c s = match p c s with
      | .done v s' => f v c s'
      | .failed e s' => .failed e s' := rfl

/-- A choice of phrases is the phrase of the choice. -/
@[simp] theorem ite_apply (b : Prop) [Decidable b] (p q : Parser α) :
    (if b then p else q) c s = if b then p c s else q c s := by
  split <;> rfl

/-- One round of a loop. -/
theorem repeatFrom_succ (step : σ → Parser (σ ⊕ α)) (bound : Nat) (x : σ) :
    repeatFrom step (bound + 1) x c s = match step x c s with
      | .done (.inl y) s' => repeatFrom step bound y c s'
      | .done (.inr r) s' => .done r s'
      | .failed e s' => .failed e s' := by
  simp only [repeatFrom, bind_apply]
  cases step x c s with
  | done r s' => cases r <;> rfl
  | failed e s' => rfl

end running

namespace Grammar

variable (n : Nat)

/-- One level deeper, an expression is read over the level above. -/
@[simp] theorem assign_ofDepth : (ofDepth (n + 1)).assign = assignment (ofDepth n) := rfl

/-- So is an operand. -/
@[simp] theorem unary_ofDepth : (ofDepth (n + 1)).unary = Script.unary (ofDepth n) := rfl

/-- So are the operators behind it. -/
@[simp] theorem binaryTail_ofDepth :
    (ofDepth (n + 1)).binaryTail = Script.binaryTail (ofDepth n) := rfl

/-- So is what can be constructed. -/
@[simp] theorem newCallee_ofDepth :
    (ofDepth (n + 1)).newCallee = Script.newCallee (ofDepth n) := rfl

/-- So is a statement. -/
@[simp] theorem statement_ofDepth :
    (ofDepth (n + 1)).statement = Script.statement (ofDepth n) := rfl

/-- So is an item of a module. -/
@[simp] theorem item_ofDepth : (ofDepth (n + 1)).item = moduleItem (ofDepth n) := rfl

end Grammar

open Grammar (ofDepth)

/-- The current token and those behind it, read one after the other, are the given ones. -/
def Spells (s : State) : List Token → Prop
  | [] => True
  | t :: ts => s.token = t ∧ Spells s.next ts

variable {g : Grammar} {c : Context} {s : State} {v : Option String} {n : Nat} {ts : List Token}

/-! ## One literal -/

/-- The tokens that may follow a summand. -/
def Token.EndsSummand (t : Token) : Prop := t = .punct .plus ∨ t = .punct .parenR

/-- A string is an expression. -/
theorem primary_string (h : s.token = .string v) :
    primary g c s = .done (.literal (.string v)) s.next := by
  simp [primary, context, state, h, passing, advance]

/-- No member, call or template follows a summand. -/
theorem subscripts_of_endsSummand (hb : 0 < c.bound) (hs : s.token.EndsSummand) (noCall : Bool)
    (start : Nat) (e : Expr) : subscripts g noCall start e c s = .done e s := by
  obtain ⟨b, hb⟩ : ∃ b, c.bound = b + 1 := ⟨c.bound - 1, by omega⟩
  rcases hs with hs | hs <;> simp [subscripts, repeating, repeatFrom_succ, context, state, hb, hs]

/-- Before the end of a summand it is all that is read. -/
theorem newCallee_string (hb : 0 < c.bound) (h : s.token = .string v)
    (hn : s.next.token.EndsSummand) :
    newCallee g c s = .done (.literal (.string v)) s.next := by
  simp [newCallee, position, token, h, primary_string h, Expr.isArrow,
    subscripts_of_endsSummand hb hn]

/-- So it is where a call may follow. -/
theorem leftSide_string (hb : 0 < c.bound) (h : s.token = .string v)
    (hn : s.next.token.EndsSummand) :
    leftSide (ofDepth (n + 1)) c s = .done (.literal (.string v)) s.next := by
  have hcallee := newCallee_string (g := ofDepth n) hb h hn
  rcases hn with hn | hn <;>
    simp [leftSide, context, state, h, hcallee, hn, Expr.isArrow, atPunct, Token.isPunct, atAny]

/-- So it is where an update may follow. -/
theorem unary_string (hb : 0 < c.bound) (h : s.token = .string v)
    (hn : s.next.token.EndsSummand) :
    unary (ofDepth (n + 1)) c s = .done (.literal (.string v)) s.next := by
  have hleft := leftSide_string (n := n) hb h hn
  rcases hn with hn | hn <;>
    simp [unary, context, token, h, hn, unary.postfixed, hleft, onNewLine, Expr.isArrow, atAny,
      Token.isPunct]

/-! ## A sum of literals -/

/-- A sum with one more text at its end. -/
def plus (left : Expr) (text : String) : Expr :=
  .binary "+" left (.literal (.string (some text)))

/-- A sum of literals, nested to the left. -/
def sumOf (first : String) (texts : List String) : Expr :=
  texts.foldl plus (.literal (.string (some first)))

/-- The tokens of a further summand. -/
def summand (text : String) : List Token := [.punct .plus, .string (some text)]

/-- The tokens of a sum. -/
def sumTokens (first : String) (texts : List String) : List Token :=
  .string (some first) :: texts.flatMap summand

/-- A sum of literals is the first one, or a sum with a last one. -/
theorem sumOf_eq (first : String) (texts : List String) :
    sumOf first texts = .literal (.string (some first)) ∨
      ∃ left text, sumOf first texts = plus left text := by
  rcases texts.eq_nil_or_concat with rfl | ⟨texts, text, rfl⟩
  · exact .inl rfl
  · exact .inr ⟨sumOf first texts, text, by simp [sumOf]⟩

/-- Behind a summand stands a plus sign or the parenthesis. -/
theorem Spells.endsSummand (texts : List String)
    (h : Spells s (texts.flatMap summand ++ .punct .parenR :: ts)) : s.token.EndsSummand := by
  cases texts with
  | nil => exact .inr h.1
  | cons text texts => exact .inl h.1

/-- A `+` is left to whoever reads the summands before it. -/
theorem binaryTail_of_endsSummand (hb : 0 < c.bound) (hs : s.token.EndsSummand) (e : Expr) :
    binaryTail g e 9 c s = .done e s := by
  obtain ⟨b, hb⟩ : ∃ b, c.bound = b + 1 := ⟨c.bound - 1, by omega⟩
  rcases hs with hs | hs <;>
    simp [binaryTail, repeating, repeatFrom_succ, context, state, hb, hs, Token.isWord,
      Token.operator?, Punct.precedence?]

/-- **The summands**: each round of the loop takes one of them to the right of the sum so far. -/
theorem binaryTail_summands (texts : List String) (left : Expr) (hb : texts.length < c.bound)
    (h : Spells s (texts.flatMap summand ++ .punct .parenR :: ts)) :
    ∃ s', binaryTail (ofDepth (n + 2)) left 0 c s = .done (texts.foldl plus left) s' ∧
      Spells s' (.punct .parenR :: ts) := by
  have hpos : 0 < c.bound := by omega
  simp only [binaryTail, repeating]
  -- the bound of the loop goes down while the context keeps its own
  generalize hbound : c.bound = bound at hb
  clear hbound
  induction texts generalizing left s bound with
  | nil =>
      obtain ⟨b, rfl⟩ : ∃ b, bound = b + 1 := ⟨bound - 1, by omega⟩
      refine ⟨s, ?_, h⟩
      simp [repeatFrom_succ, context, state, h.1, Token.isWord, Token.operator?, Punct.precedence?]
  | cons text texts ih =>
      obtain ⟨b, rfl⟩ : ∃ b, bound = b + 1 := ⟨bound - 1, by omega⟩
      obtain ⟨hplus, hstring, hrest⟩ := h
      have hend := Spells.endsSummand texts hrest
      have hoperand := unary_string (n := n) hpos hstring hend
      have htail := binaryTail_of_endsSummand (g := ofDepth (n + 1)) hpos hend
      obtain ⟨s', hrun, hs'⟩ := ih (plus left text) hrest b (by simpa using hb)
      refine ⟨s', ?_, hs'⟩
      rw [repeatFrom_succ, List.foldl_cons, ← hrun]
      simp [context, state, hplus, Token.isWord, Token.operator?, Punct.precedence?, Punct.text,
        advance, hoperand, htail, plus]

/-- The sum is read as an expression that is not assigned to. -/
theorem conditional_sum (first : String) (texts : List String) (hb : texts.length < c.bound)
    (h : Spells s (sumTokens first texts ++ .punct .parenR :: ts)) :
    ∃ s', conditional (ofDepth (n + 3)) c s = .done (sumOf first texts) s' ∧
      Spells s' (.punct .parenR :: ts) := by
  obtain ⟨hstring, hrest⟩ := h
  have hend := Spells.endsSummand texts hrest
  have hfirst := unary_string (n := n + 1) (by omega : 0 < c.bound) hstring hend
  obtain ⟨s', htail, hs'⟩ :=
    binaryTail_summands (n := n) texts (.literal (.string (some first))) hb hrest
  refine ⟨s', ?_, hs'⟩
  have hbinary : binary (ofDepth (n + 3)) c s = .done (sumOf first texts) s' := by
    simp [binary, attempt, hfirst, htail, Expr.isArrow, sumOf]
  rcases sumOf_eq first texts with hsum | ⟨left, text, hsum⟩ <;>
    simp [conditional, hbinary, eat, hs'.1, hsum, Expr.isArrow, plus, Token.isPunct]

/-- The sum is read as an expression that might be assigned to. -/
theorem assignment_sum (first : String) (texts : List String) (hb : texts.length < c.bound)
    (h : Spells s (sumTokens first texts ++ .punct .parenR :: ts)) :
    ∃ s', assignment (ofDepth (n + 3)) c s = .done (sumOf first texts) s' ∧
      Spells s' (.punct .parenR :: ts) := by
  have hstring : s.token = .string (some first) := h.1
  obtain ⟨s', hrun, hs'⟩ :=
    conditional_sum (n := n) (c := { c with arrowAt := none }) first texts hb h
  refine ⟨s', ?_, hs'⟩
  rcases sumOf_eq first texts with hsum | ⟨left, text, hsum⟩ <;> rw [hsum] at hrun ⊢ <;>
    simp [assignment, context, state, hstring, peek, Token.isPunct, Token.isWord,
      Token.startsArrow, within, hrun, Expr.isArrow, Expr.canBeAssigned, finishAssignment, token,
      hs'.1, Punct.assigns, plus]

/-- The sum is read as the only argument between parentheses. -/
theorem arguments_sum (first : String) (texts : List String) (hb : texts.length + 2 < c.bound)
    (h : Spells s (.punct .parenL :: sumTokens first texts ++ .punct .parenR :: ts)) :
    ∃ s', arguments (ofDepth (n + 4)) c s = .done [.item (sumOf first texts)] s' ∧
      Spells s' ts := by
  obtain ⟨hopen, hsum⟩ := h
  have hstring : s.next.token = .string (some first) := hsum.1
  obtain ⟨b, hbound⟩ : ∃ b, c.bound = b + 1 + 1 := ⟨c.bound - 2, by omega⟩
  obtain ⟨s', hrun, hs'⟩ := assignment_sum (n := n)
    (c := { c with colonFollows := false, noIn := false }) first texts (by simp; omega) hsum
  refine ⟨s'.next, ?_, hs'.2⟩
  simp only [hbound] at hrun
  simp [arguments, within, expect, hopen, Token.isPunct, repeating, hbound, repeatFrom_succ,
    atPunct, hstring, element, eat, Grammar.assignIn, hrun, hs'.1]

/-! ## The call -/

/-- A call of `tr` with a sum of literals. -/
def callOf (start : Nat) (first : String) (texts : List String) : Expr :=
  .call start (.name "tr") [.item (sumOf first texts)] false

/-- The tokens of a call as a statement, up to the end of the text. -/
def callTokens (first : String) (texts : List String) : List Token :=
  .word "tr" :: .punct .parenL :: sumTokens first texts ++ [.punct .parenR, .punct .semi, .ended]

/-- The name before the parenthesis is no parameter. -/
theorem afterName_tr (canBeArrow : Bool) (h : s.token = .punct .parenL) :
    afterName g "tr" canBeArrow c s = .done (.name "tr") s := by
  simp [afterName, onNewLine, context, peek, atName, atWord, eat, h, Token.isPunct]

/-- It is read as a name. -/
theorem primary_tr (h : Spells s (.word "tr" :: .punct .parenL :: ts)) :
    primary g c s = .done (.name "tr") s.next := by
  obtain ⟨hword, hopen, -⟩ := h
  have hname : isName c "tr" = true := by simp [isName]; decide
  simp [primary, context, state, hword, wordExpression, hname, advance, afterName_tr _ hopen]

/-- So it is where it could be constructed. -/
theorem newCallee_tr (hb : 0 < c.bound) (h : Spells s (.word "tr" :: .punct .parenL :: ts)) :
    newCallee g c s = .done (.name "tr") s.next := by
  obtain ⟨b, hb⟩ : ∃ b, c.bound = b + 1 := ⟨c.bound - 1, by omega⟩
  have hprimary := primary_tr (g := g) (c := c) h
  obtain ⟨hword, hopen, -⟩ := h
  simp [newCallee, position, token, hword, hprimary, Expr.isArrow, subscripts, repeating, hb,
    repeatFrom_succ, context, state, hopen]

variable (first : String) (texts : List String) (hb : texts.length + 2 < c.bound)
  (h : Spells s (callTokens first texts))

include hb h

/-- The call is read from its name on. -/
theorem leftSide_call :
    ∃ s', leftSide (ofDepth (n + 4)) c s = .done (callOf s.start first texts) s' ∧
      Spells s' [.punct .semi, .ended] := by
  have hcallee := newCallee_tr (g := ofDepth (n + 3)) (c := c) (by omega) h
  obtain ⟨hword, harguments⟩ := h
  obtain ⟨b, hbound⟩ : ∃ b, c.bound = b + 1 := ⟨c.bound - 1, by omega⟩
  obtain ⟨s', hrun, hs'⟩ := arguments_sum (n := n) first texts hb harguments
  refine ⟨s', ?_, hs'⟩
  simp [leftSide, context, state, hword, hcallee, Expr.isArrow, atAny, atPunct, harguments.1,
    Token.isPunct, hrun, subscripts, repeating, hbound, repeatFrom_succ, hs'.1, callOf]

/-- It is read as an operand. -/
theorem unary_call :
    ∃ s', unary (ofDepth (n + 4)) c s = .done (callOf s.start first texts) s' ∧
      Spells s' [.punct .semi, .ended] := by
  have hword : s.token = .word "tr" := h.1
  obtain ⟨s', hrun, hs'⟩ := leftSide_call (n := n) first texts hb h
  refine ⟨s', ?_, hs'⟩
  simp [unary, context, token, hword, unaryWords, unary.postfixed, hrun, callOf, Expr.isArrow,
    onNewLine, atAny, hs'.1, Token.isPunct]

/-- It is read as an expression that is not assigned to. -/
theorem conditional_call :
    ∃ s', conditional (ofDepth (n + 5)) c s = .done (callOf s.start first texts) s' ∧
      Spells s' [.punct .semi, .ended] := by
  obtain ⟨s', hrun, hs'⟩ := unary_call (n := n) first texts hb h
  obtain ⟨b, hbound⟩ : ∃ b, c.bound = b + 1 := ⟨c.bound - 1, by omega⟩
  refine ⟨s', ?_, hs'⟩
  have htail : ∀ e, Script.binaryTail (ofDepth (n + 4)) e 0 c s' = .done e s' := by
    intro e
    simp [Script.binaryTail, repeating, hbound, repeatFrom_succ, context, state, hs'.1,
      Token.isWord, Token.operator?, Punct.precedence?]
  simp [conditional, binary, attempt, hrun, callOf, Expr.isArrow, htail, eat, hs'.1, Token.isPunct]

/-- It is read as an expression that might be assigned to. -/
theorem assignment_call :
    ∃ s', assignment (ofDepth (n + 5)) c s = .done (callOf s.start first texts) s' ∧
      Spells s' [.punct .semi, .ended] := by
  have hword : s.token = .word "tr" := h.1
  have harrow : (Token.word "tr").startsArrow = true := by decide
  obtain ⟨s', hrun, hs'⟩ :=
    conditional_call (n := n) (c := { c with arrowAt := some s.start }) first texts hb h
  refine ⟨s', ?_, hs'⟩
  simp [assignment, context, state, harrow, hword, peek, Token.isPunct, Token.isWord, within, hrun,
    callOf, Expr.isArrow, Expr.canBeAssigned, finishAssignment, token, hs'.1, Punct.assigns]

/-- It is read as a statement, up to the end of the text. -/
theorem expressionStatement_call :
    ∃ s', expressionStatement (ofDepth (n + 6)) c s =
        .done (.expression (callOf s.start first texts)) s' ∧
      s'.token = .ended := by
  obtain ⟨s', hrun, hs'⟩ :=
    assignment_call (n := n) (c := { c with noIn := false }) first texts hb h
  refine ⟨s'.next, ?_, hs'.2.1⟩
  simp [expressionStatement, Grammar.expressionIn, within, Grammar.expression, hrun, callOf,
    atPunct, hs'.1, Token.isPunct, typescript, eatStatementEnd]

/-- Where a declaration could stand it is read alike. -/
theorem statement_call :
    ∃ s', statement (ofDepth (n + 6)) true true c s =
        .done (.expression (callOf s.start first texts)) s' ∧
      s'.token = .ended := by
  have hword : s.token = .word "tr" := h.1
  obtain ⟨s', hrun, hs'⟩ := expressionStatement_call (n := n)
    (c := { c with noIn := false, inConditional := false, colonFollows := false, arrowAt := none })
    first texts hb h
  refine ⟨s', ?_, hs'⟩
  simp [statement, within, token, hword, keywordStatement, declarationStatement, typescript, peek,
    hrun]

/-- **The whole statement** is read as one call, at the offset of its first token. -/
theorem moduleItems_call :
    ∃ s', moduleItems (ofDepth (n + 8)) c s =
      .done [.statement (.expression (callOf s.start first texts))] s' := by
  have hword : s.token = .word "tr" := h.1
  obtain ⟨s', hrun, hs'⟩ := statement_call (n := n) first texts hb h
  obtain ⟨b, hbound⟩ : ∃ b, c.bound = b + 1 + 1 := ⟨c.bound - 2, by omega⟩
  refine ⟨s', ?_⟩
  simp [moduleItems, repeating, hbound, repeatFrom_succ, atEnd, hword, moduleItem, token, hrun,
    hs']

end StringHarvest.Script
