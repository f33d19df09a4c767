/-
# Ways that a template never takes

The reading of a template has an answer for every token, also for those that never stand there: a
token that begins no part, and text behind text.  A detour is another answer in these two cases.
With any detours the parser is the same (`parseVia_eq`), because lexer and parser go together: a
parser stands where a lexer with the right modes hands out the current token (`Parser.Stands`), and
whatever is read keeps it so (`Parser.Stands.gives`).  Main statement: `template_agrees`.
-/
import Brace.Proofs.Parser.Ends
import Brace.Proofs.Parser.Lookback
import Brace.Proofs.Token.Modes

namespace Brace

open Brace.Parser Parsed

/-! ## Reading with detours -/

namespace Parser

/-! Bounds of what is read, from one parser to the next. -/

section

variable {n : Nat} {s t u v : Parser}

theorem lt_of_size_lt (ht : t.size < s.size) (h : s.size < n) : t.size < n := Nat.lt_trans ht h

theorem size_lt_trans (hu : u.size < t.size) (ht : t.size < s.size) : u.size < s.size :=
  Nat.lt_trans hu ht

theorem size_le_of_lt (ht : t.size < s.size) : t.size ≤ s.size := Nat.le_of_lt ht

theorem size_lt_of_rest (ht : t.size < s.size) (hu : u.size < t.size + 1) :
    u.size < s.size + 1 :=
  Nat.lt_succ_of_lt (Nat.lt_of_lt_of_le hu ht)

theorem size_lt_behind (ht : t.size < s.size) (hu : u.size < t.size + 1) (hv : v.size < u.size) :
    v.size < s.size :=
  Nat.lt_of_lt_of_le (Nat.lt_trans hv hu) ht

/-- A prefix operator is not the end. -/
theorem current_ne_eof_of_unary? {op : UnaryOp} (h : unary? s.current = some op) :
    s.current ≠ .eof := by
  intro he
  rw [he] at h
  cases h

end

/-- What else could be done with the parts of a template, in place of `parts`. -/
structure Detours where
  /-- At a token that is no text and no brace and no back-quote. -/
  other : {n : Nat} → Below n → (s : Parser) → s.size < n →
    Parsed (s.size + 1) (List TemplatePart)
  /-- At text right behind text. -/
  joined : {n : Nat} → Below n → (s : Parser) → s.size < n →
    Parsed (s.size + 1) (List TemplatePart)

variable {n : Nat}

/-- Reads the statements between the braces of an interpolation; the current token is the first of
the braces. -/
def interpolation (r : Below n) (s : Parser) (h : s.size < n) (hs : s.current ≠ .eof) :
    Parsed s.size Node :=
  (s.advance hs).andThen fun _ t ht =>
    (statements (.punct .rightBrace) r.expression t (lt_of_size_lt ht h)).andThen fun body u hu =>
      (u.expect .rightBrace).andThen fun _ v hv =>
        .done (Node.ofStatements .block body) v (size_lt_behind ht hu hv)

/-- Reads the parts of a template like `parts`, with detours.  `afterText` says that the part in
front is text, so that there is one piece of text more than there are expressions. -/
def partsVia (d : Detours) (r : Below n) (afterText : Bool) (s : Parser) (h : s.size < n) :
    Parsed (s.size + 1) (List TemplatePart) :=
  match hs : s.current with
  | .punct .backquote => .done [] s (Nat.lt_succ_self _)
  | .string text =>
    if afterText then d.joined r s h
    else
      (s.advance (by simp [hs])).andThen fun _ t ht =>
        (partsVia d r true t (lt_of_size_lt ht h)).andThen fun rest u hu =>
          .done (.text text :: rest) u (size_lt_of_rest ht hu)
  | .punct .leftBrace =>
    (interpolation r s h (by simp [hs])).andThen fun a t ht =>
      (partsVia d r false t (lt_of_size_lt ht h)).andThen fun rest u hu =>
        .done (.expression a :: rest) u (size_lt_of_rest ht hu)
  | _ => d.other r s h
termination_by s.size

/-- Reads a template between back-quotes. -/
def templateVia (d : Detours) (s : Parser) (r : Below s.size) : Parsed s.size Node :=
  (s.expect .backquote).andThen fun _ t ht =>
    (partsVia d r false t ht).andThen fun found u hu =>
      (u.expect .backquote).andThen fun _ v hv =>
        let (quasis, as) := templateParts found
        .done (.template quasis as) v (size_lt_behind ht hu hv)

/-- Reads an operand without the calls and indices behind it. -/
def primaryVia (d : Detours) (s : Parser) (r : Below s.size) : Parsed s.size Node :=
  if s.current = .punct .backquote then templateVia d s r else primary s r

/-- Reads an operand with the operators in front of it and the calls and indices behind it. -/
def operandWithVia (d : Detours) (s : Parser) (r : Below s.size) : Parsed s.size Node :=
  match ho : unary? s.current with
  | some op =>
    (s.advance (current_ne_eof_of_unary? ho)).andThen fun _ t ht =>
      (r.operand t ht).andThen fun a u hu => .done (.unary op a) u (size_lt_trans hu ht)
  | none =>
    (primaryVia d s r).andThen fun a t ht => (suffixes r a t (size_le_of_lt ht)).weaken ht

/-- Reads an expression. -/
def expressionWithVia (d : Detours) (s : Parser) (r : Below s.size) : Parsed s.size Node :=
  (operandWithVia d s r).andThen fun a t h => (operators r 0 a t h).weaken h

mutual

/-- Reads an expression. -/
def expressionVia (d : Detours) (s : Parser) : Parsed s.size Node :=
  expressionWithVia d s ⟨fun t _ => expressionVia d t, fun t _ => operandVia d t⟩
termination_by s.size

/-- Reads an operand with the operators in front of it and the calls and indices behind it. -/
def operandVia (d : Detours) (s : Parser) : Parsed s.size Node :=
  operandWithVia d s ⟨fun t _ => expressionVia d t, fun t _ => operandVia d t⟩
termination_by s.size

end

/-- Reads all that is left as a sequence of statements. -/
def programVia (d : Detours) (s : Parser) : Parsed (s.size + 1) Node :=
  (statements (n := s.size + 1) .eof (fun t _ => expressionVia d t) s (Nat.lt_succ_self _)).map
    (Node.ofStatements .program)

end Parser

/-- Parses a text with detours in its templates. -/
def parseVia (d : Detours) (text : String) : Except ParseError Node := do
  let s ← Parser.start (TokenStream.ofString text)
  (s.programVia d).toExcept

/-! ## Where a parser stands -/

namespace Parser

variable {s t : Parser} {b b' : Lookback}

/-- The parser is at the token that a lexer hands out, which remembers `b` in front of it. -/
def Stands (s : Parser) (b : Lookback) : Prop :=
  ∃ l : Lexer, l.Settled ∧ l.lookback = b ∧ l.next.1 = .ok s.current ∧ s.Follows l.next.2

/-- The current token of a parser that stands agrees with what its lexer has behind it. -/
theorem Stands.agrees (h : s.Stands b) : s.current.Agrees b := by
  obtain ⟨l, hl, rfl, hcurrent, -⟩ := h
  exact (Lexer.next_agrees hl (Prod.ext hcurrent rfl)).1

/-- A parser that stands goes on standing when it passes a token. -/
theorem Stands.passes (h : s.Stands b) (hp : s.Passes t) : t.Stands (b.after s.current) := by
  obtain ⟨l, hl, rfl, hcurrent, hfollows⟩ := h
  obtain ⟨-, hsettled, hlookback⟩ := Lexer.next_agrees hl (Prod.ext hcurrent rfl)
  obtain ⟨htoken, ht⟩ := hfollows.of_passes hp
  exact ⟨l.next.2, hsettled, hlookback hp.1, htoken, ht⟩

/-- Behind text in a template stands a brace or a back-quote. -/
theorem Stands.passes_text (h : s.Stands b) (hb : b.modes.head? = some .template) {text : String}
    (hs : s.current = .string text) (hp : s.Passes t) :
    t.current = .punct .leftBrace ∨ t.current = .punct .backquote := by
  obtain ⟨l, hl, rfl, hcurrent, hfollows⟩ := h
  rw [hs] at hcurrent
  have htoken := (hfollows.of_passes hp).1
  have hh : l.held = false := by
    refine Bool.eq_false_iff.mpr fun hh => ?_
    rw [Lexer.next_of_held hh] at hcurrent
    cases hcurrent
  have hm : l.mode = .template := by
    change l.inner.head? = _ at hb
    rw [Lexer.inner_of_not_held hh] at hb
    rw [Lexer.mode, hb]
    rfl
  obtain ⟨-, hbrace | hquote⟩ := Lexer.next_of_text hl hm hcurrent
  · exact Or.inl (Except.ok.inj (htoken.symm.trans hbrace))
  · exact Or.inr (Except.ok.inj (htoken.symm.trans hquote))

/-- Some tokens further on, the tokens that have been passed decide what is remembered. -/
theorem Stands.advances {k : Nat} (h : s.Stands b) (ha : s.Advances k t) :
    ∃ used, s.tokens = used ++ t.tokens ∧ t.Stands (used.foldl Lookback.after b) := by
  induction ha with
  | refl => exact ⟨[], rfl, h⟩
  | @step k t u _ hp ih =>
    obtain ⟨used, hused, ht⟩ := ih
    refine ⟨used ++ [t.current], ?_, ?_⟩
    · rw [hused, hp.tokens, List.append_assoc, List.singleton_append]
    · rw [List.foldl_append]
      exact ht.passes hp

variable {m n : Nat} {α β : Type}

/-- Behind a result the memory is the one that the tokens of the result lead to. -/
theorem Stands.of_moves {x : Parsed m α} {a : α} (h : s.Stands b) (hx : x.Walks s)
    (hg : x.Gives a t) (hm : Moves b s.tokens b' t.tokens) : t.Stands b' := by
  obtain ⟨k, u, ha, hstop⟩ := hx
  obtain ⟨hlt, rfl⟩ := hg
  cases hstop
  obtain ⟨used, hused, ht⟩ := h.advances ha
  obtain ⟨used', hused', rfl⟩ := hm.exists_used
  rwa [List.append_cancel_right (hused.symm.trans hused')] at ht

/-- A construct that is begun where it should be is read to where it should end. -/
theorem Stands.gives {g : Goal} {x : Parsed m g.Answer} {a : g.Answer} (h : s.Stands b)
    (hb : g.StartsAt b) (hx : x.Walks s) (hg : x.Gives a t) (htook : g.Took s a t) :
    ∃ b', t.Stands b' ∧ g.EndsAt b b' t.tokens := by
  obtain ⟨b', hm, hend⟩ := htook.1.moves hb
  exact ⟨b', h.of_moves hx hg hm, hend⟩

end Parser

/-! ## The same steps -/

variable {m n : Nat} {α β : Type} {s : Parser} {b : Lookback}

/-- Two continuations are the same if they are on every result. -/
theorem Parsed.andThen_congr {x : Parsed m α}
    {k k' : (a : α) → (t : Parser) → t.size < m → Parsed n β}
    (h : ∀ a t ht, x.Gives a t → k' a t ht = k a t ht) : x.andThen k' = x.andThen k := by
  cases x with
  | fail e left => rfl
  | done a t ht => exact h a t ht ⟨ht, rfl⟩

/-- Three readings in a row may be taken together in either way. -/
theorem Parsed.andThen_assoc {p : Nat} {γ : Type} (x : Parsed m α)
    (k : (a : α) → (t : Parser) → t.size < m → Parsed n β)
    (k' : (b : β) → (t : Parser) → t.size < n → Parsed p γ) :
    (x.andThen k).andThen k' = x.andThen fun a t ht => (k a t ht).andThen k' := by
  cases x <;> rfl

/-- Two continuations of a step are the same if they are where the parser stands behind it. -/
theorem Parser.Stands.advance_andThen {hs : s.current ≠ .eof}
    {k k' : Unit → (t : Parser) → t.size < s.size → Parsed n β} (h : s.Stands b)
    (hk : ∀ t ht, s.Passes t → t.Stands (b.after s.current) → k' () t ht = k () t ht) :
    (s.advance hs).andThen k' = (s.advance hs).andThen k :=
  andThen_congr fun _ t ht hg =>
    have hp : s.Passes t := gives_advance.mp hg
    hk t ht hp (h.passes hp)

/-- Two continuations of expected punctuation are the same if they are behind it. -/
theorem Parser.Stands.expect_andThen {p : Punct}
    {k k' : Unit → (t : Parser) → t.size < s.size → Parsed n β} (h : s.Stands b)
    (hk : ∀ t ht, t.Stands (b.after (.punct p)) → k' () t ht = k () t ht) :
    (s.expect p).andThen k' = (s.expect p).andThen k :=
  andThen_congr fun _ t ht hg => by
    obtain ⟨hc, hp⟩ := gives_expect.mp hg
    exact hk t ht (hc ▸ h.passes hp)

/-- The answer `x` is one to the construct `g` at `s`, and so is `x'`, if it is begun where it
should be. -/
structure Goal.Alike (g : Goal) (s : Parser) (x' x : Parsed m g.Answer) : Prop where
  took : ∀ a t, x.Gives a t → g.Took s a t
  walks : x.Walks s
  eq : ∀ b, s.Stands b → g.StartsAt b → x' = x

/-- Two readings in a row are the same if both parts are, the second where the first one leaves the
parser. -/
theorem Goal.Alike.andThen {g : Goal} {x' x : Parsed m g.Answer} (hx : g.Alike s x' x)
    {k k' : (a : g.Answer) → (t : Parser) → t.size < m → Parsed n β} (h : s.Stands b)
    (hb : g.StartsAt b)
    (hk : ∀ a t ht b', t.Stands b' → g.EndsAt b b' t.tokens → k' a t ht = k a t ht) :
    x'.andThen k' = x.andThen k := by
  rw [hx.eq b h hb]
  refine andThen_congr fun a t ht hg => ?_
  obtain ⟨b', ht', hend⟩ := h.gives hb hx.walks hg (hx.took a t hg)
  exact hk a t ht b' ht' hend

/-- Given reading functions that are the same where expressions and operands are begun as they
should be. -/
structure Parser.Below.Alike (r' r : Below n) : Prop where
  expression : ∀ t h, Goal.Alike .expression t (r'.expression t h) (r.expression t h)
  operand : ∀ t h, Goal.Alike .operand t (r'.operand t h) (r.operand t h)

namespace Parser

variable {r r' : Below n}

/-- What is read below the bound is read by the rules. -/
theorem Below.Alike.sound (hr : r'.Alike r) : r.Sound :=
  ⟨fun t h => (hr.expression t h).took, fun t h => (hr.operand t h).took⟩

theorem Below.Alike.walks (hr : r'.Alike r) : r.Walks :=
  ⟨fun t h => (hr.expression t h).walks, fun t h => (hr.operand t h).walks⟩

/-! ## The functions of the grammar -/

/-- Items are read alike if each of them is. -/
theorem alike_items {stop : Punct} {g : Goal} (hstop : stop ≠ .comma)
    {item' item : (t : Parser) → t.size < n → Parsed t.size g.Answer}
    (hitem : ∀ t h, g.Alike t (item' t h) (item t h)) (s : Parser) (h : s.size < n) :
    (Goal.items stop g).Alike s (items stop item' s h) (items stop item s h) where
  took _ _ := took_items hstop fun t h => (hitem t h).took
  walks := walks_items (fun t h => (hitem t h).walks) s h
  eq := by
    induction s using sizeInduction with
    | step s ih =>
      intro b hs hb
      rw [items, items]
      refine (hitem s h).andThen hs hb.item fun a t ht b' ht' hend => ?_
      obtain ⟨hm, -⟩ := hend.item hb
      refine ite_congr rfl (fun _ => rfl) fun _ => ?_
      refine ht'.expect_andThen fun u hu hu' => ?_
      refine ite_congr rfl (fun _ => rfl) fun _ => ?_
      rw [ih u (by omega) _ _ hu' ⟨hb.1, (hm ▸ hb.2.1 : Mode.InExpression b'.modes), rfl⟩]

/-- Items between brackets are read alike if each of them is. -/
theorem delimited_congr {p q : Punct} {g : Goal} (hq : q ≠ .comma)
    {item' item : (t : Parser) → t.size < s.size → Parsed t.size g.Answer}
    (hitem : ∀ t h, g.Alike t (item' t h) (item t h)) (hs : s.Stands b)
    (hb : (Goal.items q g).StartsAt (b.after (.punct p))) :
    delimited p q s item' = delimited p q s item := by
  unfold delimited
  refine hs.expect_andThen fun t ht ht' => ?_
  rw [(alike_items hq hitem t ht).eq _ ht' hb]

/-- Behind semicolons a statement can be begun. -/
theorem Stands.skipSemicolons {t : Parser} (hs : s.Stands b) (hb : Goal.expression.StartsAt b)
    (hg : (skipSemicolons s).Gives () t) :
    ∃ b', t.Stands b' ∧ Goal.expression.StartsAt b' := by
  induction s using sizeInduction generalizing b with
  | step s ih =>
    obtain ⟨-, rfl⟩ | ⟨hc, u, hu, hg⟩ := gives_skipSemicolons.mp hg
    · exact ⟨b, hs, hb⟩
    · have hu' := hs.passes hu
      rw [hc] at hu'
      exact ih u hu.size_lt hu' ⟨hb.1, rfl⟩ hg

/-- Statements are read alike if each of them is. -/
theorem alike_statements {stop : Token} (hstop : stop ≠ .punct .semicolon)
    {statement' statement : (t : Parser) → t.size < n → Parsed t.size Node}
    (hstatement : ∀ t h, Goal.Alike .expression t (statement' t h) (statement t h)) (s : Parser)
    (h : s.size < n) :
    (Goal.statements stop).Alike s (statements stop statement' s h)
      (statements stop statement s h) where
  took _ _ := took_statements hstop fun t h => (hstatement t h).took
  walks := walks_statements (fun t h => (hstatement t h).walks) s h
  eq := by
    induction s using sizeInduction with
    | step s ih =>
      intro b hs hb
      rw [statements, statements]
      refine andThen_congr fun _ t ht hg => ?_
      obtain ⟨b', ht', hb'⟩ := hs.skipSemicolons hb hg
      refine ite_congr rfl (fun _ => rfl) fun _ => ?_
      refine (hstatement t _).andThen ht' hb' fun a u hu c hu' hend => ?_
      refine ite_congr rfl (fun _ => rfl) fun _ => ?_
      refine hu'.expect_andThen fun v hv hv' => ?_
      rw [ih v (by omega) _ _ hv' ⟨(hend.1 ▸ hb'.1 : Mode.InExpression c.modes), rfl⟩]

/-- Entries are read alike. -/
theorem alike_property (hr : r'.Alike r) (s : Parser) (h : s.size < n) :
    Goal.Alike .property s (property r' s h) (property r s h) where
  took _ _ := took_property hr.sound
  walks := walks_property hr.walks s h
  eq b hs hb := by
    unfold property
    refine (hr.operand s h).andThen hs hb fun key t ht b' ht' hend => ?_
    refine ite_congr rfl (fun _ => ?_) fun _ => rfl
    refine ht'.expect_andThen fun u hu hu' => ?_
    have hb' : Goal.expression.StartsAt (b'.after (.punct .colon)) :=
      ⟨(hend.1 ▸ hb.1 : Mode.InExpression b'.modes), rfl⟩
    rw [(hr.expression u _).eq _ hu' hb']

/-- Blocks are read alike. -/
theorem block_congr (hr : r'.Alike r) {h : s.size < n} (hs : s.Stands b)
    (hb : Goal.branch.StartsAt b) : block r' s h = block r s h := by
  unfold block
  refine hs.expect_andThen fun t ht ht' => ?_
  have hb' : (Goal.statements (.punct .rightBrace)).StartsAt (b.after (.punct .leftBrace)) :=
    ⟨(Lookback.after_leftBrace hb.1).1, rfl⟩
  rw [(alike_statements (by simp) hr.expression t _).eq _ ht' hb']

theorem branch_congr (hr : r'.Alike r) {h : s.size < n} (hs : s.Stands b)
    (hb : Goal.branch.StartsAt b) : branch r' s h = branch r s h :=
  ite_congr rfl (fun _ => block_congr hr hs hb) fun _ => (hr.expression s h).eq _ hs hb

/-- Branches behind their word are read alike. -/
theorem alike_branchAfter (hr : r'.Alike r) (k : Keyword) (s : Parser) (h : s.size < n) :
    Goal.Alike (.branchAfter k) s (branchAfter k r' s h) (branchAfter k r s h) where
  took _ _ := took_branchAfter hr.sound
  walks := walks_branchAfter hr.walks s h
  eq b hs hb := by
    unfold branchAfter
    refine dite_congr rfl (fun hk => ?_) fun _ => rfl
    refine hs.advance_andThen fun t ht _ ht' => ?_
    have hb' : Goal.branch.StartsAt (b.after s.current) := by
      rw [hk]
      exact ⟨hb.1, rfl⟩
    rw [branch_congr hr ht' hb']

/-- Conditionals are read alike. -/
theorem conditional_congr {r' r : Below s.size} (hr : r'.Alike r) {hne : s.current ≠ .eof}
    (hs : s.Stands b) (hb : Goal.primary.StartsAt b) (hc : s.current = .keyword .if_) :
    conditional s r' hne = conditional s r hne := by
  unfold conditional
  refine hs.advance_andThen fun t ht _ ht' => ?_
  rw [hc] at ht'
  refine (hr.expression t ht).andThen ht' ⟨hb.1, rfl⟩ fun test u hu b' hu' hend => ?_
  have hm : Mode.InExpression b'.modes := (hend.1 : b'.modes = b.modes) ▸ hb.1
  refine (alike_branchAfter hr .then_ u _).andThen hu' ⟨hm, hend.2⟩ fun c v hv b'' hv' hend' => ?_
  have hb'' : (Goal.branchAfter .else_).StartsAt b'' := ⟨hend'.1 ▸ hm, hend'.2⟩
  rw [(alike_branchAfter hr .else_ v _).eq _ hv' hb'']

theorem grouped_congr {r' r : Below s.size} (hr : r'.Alike r) (hs : s.Stands b)
    (hb : Goal.primary.StartsAt b) : grouped s r' = grouped s r := by
  unfold grouped
  refine hs.expect_andThen fun t ht ht' => ?_
  rw [(hr.expression t ht).eq _ ht' ⟨hb.1, rfl⟩]

/-- Where no template begins, an operand is read in the same way. -/
theorem primary_congr {r' r : Below s.size} (hr : r'.Alike r) (hs : s.Stands b)
    (hb : Goal.primary.StartsAt b) (hc : s.current ≠ .punct .backquote) :
    primary s r' = primary s r := by
  unfold primary
  congr 1
  · funext _
    exact grouped_congr hr hs hb
  · funext _
    rw [delimited_congr (g := .property) (by simp) (alike_property hr) hs
      ⟨Or.inr rfl, (Lookback.after_leftBrace hb.1).1, rfl⟩]
  · funext _
    rw [delimited_congr (p := .leftBracket) (g := .expression) (by simp) hr.expression hs
      ⟨Or.inl rfl, hb.1, rfl⟩]
  · funext hquote
    exact absurd hquote hc
  · funext hif
    exact conditional_congr hr hs hb hif

/-! ## The parts of a template -/

/-- A closing quote ends the parts of a template. -/
theorem parts_of_backquote (hc : s.current = .punct .backquote) (h : s.size < n) :
    parts r s h = .done [] s (Nat.lt_succ_self _) := by
  grind [parts]

/-- A piece of text is a part, with the others behind it. -/
theorem parts_of_text {text : String} (hc : s.current = .string text) (h : s.size < n) :
    parts r s h = (s.advance (by simp [hc])).andThen fun _ t ht =>
      (parts r t (lt_of_size_lt ht h)).andThen fun rest u hu =>
        .done (.text text :: rest) u (size_lt_of_rest ht hu) := by
  grind [parts]

/-- An interpolation is a part, with the others behind it. -/
theorem parts_of_leftBrace (hc : s.current = .punct .leftBrace) (h : s.size < n) :
    parts r s h = (interpolation r s h (by simp [hc])).andThen fun a t ht =>
      (parts r t (lt_of_size_lt ht h)).andThen fun rest u hu =>
        .done (.expression a :: rest) u (size_lt_of_rest ht hu) := by
  unfold interpolation
  rw [andThen_assoc, parts]
  split
  · next hc' => cases hc.symm.trans hc'
  · next hc' => cases hc.symm.trans hc'
  · refine andThen_congr fun _ t ht _ => ?_
    rw [andThen_assoc]
    refine andThen_congr fun body u hu _ => ?_
    rw [andThen_assoc]
    rfl
  · next hbrace => exact absurd hc hbrace

variable {d : Detours} {afterText : Bool}

theorem partsVia_of_backquote (hc : s.current = .punct .backquote) (h : s.size < n) :
    partsVia d r afterText s h = .done [] s (Nat.lt_succ_self _) := by
  grind [partsVia]

/-- A piece of text is a part, unless it stands behind text. -/
theorem partsVia_of_text {text : String} (hc : s.current = .string text) (h : s.size < n) :
    partsVia d r afterText s h = if afterText then d.joined r s h else
      (s.advance (by simp [hc])).andThen fun _ t ht =>
        (partsVia d r true t (lt_of_size_lt ht h)).andThen fun rest u hu =>
          .done (.text text :: rest) u (size_lt_of_rest ht hu) := by
  grind [partsVia]

theorem partsVia_of_leftBrace (hc : s.current = .punct .leftBrace) (h : s.size < n) :
    partsVia d r afterText s h = (interpolation r s h (by simp [hc])).andThen fun a t ht =>
      (partsVia d r false t (lt_of_size_lt ht h)).andThen fun rest u hu =>
        .done (.expression a :: rest) u (size_lt_of_rest ht hu) := by
  grind [partsVia]

/-- The parser itself is one with detours: those that go on as it does. -/
theorem partsVia_parts (h : s.size < n) :
    partsVia ⟨parts, parts⟩ r afterText s h = parts r s h := by
  -- The memory of what stands in front changes nothing where both detours are the parser itself.
  induction s using sizeInduction generalizing afterText with
  | step s ih =>
    rw [partsVia]
    split
    · next hc => exact (parts_of_backquote hc h).symm
    · next text hc =>
      split
      · rfl
      · rw [parts_of_text hc]
        exact andThen_congr fun _ t ht _ => by rw [ih t ht]
    · next hc =>
      rw [parts_of_leftBrace hc]
      exact andThen_congr fun _ t ht _ => by rw [ih t ht]
    · rfl

/-- Behind text a comma or more text, which no lexer hands out in a template: both detours are
taken there, and the parser itself joins the texts. -/
example (p : Position) (e e' : ParseError) :
    let s (c : Token) : Parser :=
      ⟨.punct .backquote, p,
        ⟨[.ok (.string "a", p), .ok (c, p), .ok (.punct .backquote, p)], .eof p⟩⟩
    let d : Detours := ⟨fun _ s _ => .fail e s, fun _ s _ => .fail e' s⟩
    (expressionVia d (s (.punct .comma))).toExcept = .error e ∧
      (expressionVia d (s (.string "b"))).toExcept = .error e' ∧
      (Parser.expression (s (.string "b"))).toExcept = .ok (.template ["ab"] []) := by
  refine ⟨?_, ?_, ?_⟩ <;> cbv

/-- Behind an interpolation the template goes on. -/
theorem Stands.interpolation_andThen (hr : r'.Alike r) {h : s.size < n} {hne : s.current ≠ .eof}
    (hc : s.current = .punct .leftBrace) (hs : s.Stands b) (hb : Goal.parts.StartsAt b)
    {k' k : Node → (t : Parser) → t.size < s.size → Parsed m β}
    (hk : ∀ a t ht b', t.Stands b' → Goal.parts.StartsAt b' → k' a t ht = k a t ht) :
    (interpolation r' s h hne).andThen k' = (interpolation r s h hne).andThen k := by
  unfold interpolation
  rw [andThen_assoc, andThen_assoc]
  refine hs.advance_andThen fun t ht _ ht' => ?_
  rw [hc] at ht'
  obtain ⟨hm, hclose⟩ := Lookback.after_interpolation hb
  rw [andThen_assoc, andThen_assoc]
  refine (alike_statements (by simp) hr.expression t _).andThen ht' ⟨hm, rfl⟩
    fun body u hu b' hu' hend => ?_
  rw [andThen_assoc, andThen_assoc]
  refine hu'.expect_andThen fun v hv hv' => hk _ v _ _ hv' ?_
  -- The closing brace takes back what the opening one did.
  show (b'.after (.punct .rightBrace)).modes.head? = _
  rw [Lookback.modes_after, (hend : b'.modes = _), hclose]
  exact hb

/-- In a template there is nothing but text, braces and the back-quote at its end, and no text
behind text: no detour is taken. -/
theorem partsVia_eq (hr : r'.Alike r) (h : s.size < n) (hs : s.Stands b)
    (hb : Goal.parts.StartsAt b) (htext : afterText = true → ∀ text, s.current ≠ .string text) :
    partsVia d r' afterText s h = parts r s h := by
  induction s using sizeInduction generalizing b afterText with
  | step s ih =>
    obtain ⟨text, hc⟩ | hc | hc := hs.agrees.template hb
    · have hfresh : afterText ≠ true := fun hafter => htext hafter text hc
      rw [partsVia_of_text hc, parts_of_text hc, if_neg hfresh]
      refine hs.advance_andThen fun t ht hp ht' => ?_
      rw [hc] at ht'
      have hnext (_ : true = true) (text' : String) : t.current ≠ .string text' := by
        intro hstring
        obtain hbrace | hquote := hs.passes_text hb hc hp
        · cases hstring.symm.trans hbrace
        · cases hstring.symm.trans hquote
      rw [ih t ht (by omega) ht' hb hnext]
    · rw [partsVia_of_leftBrace hc, parts_of_leftBrace hc]
      refine hs.interpolation_andThen hr hc hb fun a t ht b' ht' hb' => ?_
      rw [ih t ht (by omega) ht' hb' fun h => absurd h Bool.false_ne_true]
    · rw [partsVia_of_backquote hc, parts_of_backquote hc]

/-- Templates are the same with any detours, as neither detour is taken. -/
theorem templateVia_eq {r' r : Below s.size} (hr : r'.Alike r) (hs : s.Stands b)
    (hb : Goal.primary.StartsAt b) : templateVia d s r' = template s r := by
  unfold templateVia template
  refine hs.expect_andThen fun t ht ht' => ?_
  rw [partsVia_eq hr ht ht' (Lookback.after_backquote hb.1).1 fun h => absurd h Bool.false_ne_true]

/-- Primaries are read alike; of these only templates have detours. -/
theorem alike_primary {r' r : Below s.size} (hr : r'.Alike r) :
    Goal.Alike .primary s (primaryVia d s r') (primary s r) where
  took _ _ := took_primary hr.sound
  walks := walks_primary s hr.walks
  eq b hs hb := by
    unfold primaryVia
    split
    · next hc =>
      rw [templateVia_eq hr hs hb]
      grind [primary]
    · next hc => exact primary_congr hr hs hb hc

/-! ## Operands and expressions -/

/-- Behind brackets, the modes are as in front of them. -/
theorem Stands.delimited_andThen {p q : Punct} {g : Goal} (hq : q ≠ .comma)
    {item' item : (t : Parser) → t.size < s.size → Parsed t.size g.Answer}
    (hitem : ∀ t h, g.Alike t (item' t h) (item t h)) (hs : s.Stands b)
    (hb : (Goal.bracketed q g).StartsAt (b.after (.punct p)))
    {k' k : (as : List g.Answer) → (t : Parser) → t.size < s.size → Parsed m β}
    (hk : ∀ as t ht b', t.Stands b' →
      (Goal.bracketed q g).EndsAt (b.after (.punct p)) b' t.tokens →
        k' as t ht = k as t ht) :
    (delimited p q s item').andThen k' = (delimited p q s item).andThen k := by
  rw [delimited_congr hq hitem hs ⟨hb.1, hb.2.2⟩]
  refine andThen_congr fun as t ht hg => ?_
  obtain ⟨us, htokens, hreads, -⟩ := took_delimited hq (fun t h => (hitem t h).took) hg
  obtain ⟨b', hmoves, hend⟩ := hreads.moves hb
  have hwalks := walks_delimited p q s fun t h => (hitem t h).walks
  exact hk as t ht b' (hs.of_moves hwalks hg (htokens ▸ .cons hmoves)) hend

/-- Behind an index the parser stands in the modes that it stood in before. -/
theorem Stands.index_andThen (hr : r'.Alike r) {h : s.size ≤ n} (hs : s.Stands b)
    (hm : Mode.InExpression b.modes) {k' k : Node → (t : Parser) → t.size < s.size → Parsed m β}
    (hk : ∀ a t ht b', t.Stands b' → b'.modes = b.modes → b'.operand = false →
      k' a t ht = k a t ht) :
    (index r' s h).andThen k' = (index r s h).andThen k := by
  unfold index
  rw [andThen_assoc, andThen_assoc]
  refine hs.expect_andThen fun t ht ht' => ?_
  rw [andThen_assoc, andThen_assoc]
  refine (hr.expression t (by omega)).andThen ht' ⟨hm, rfl⟩ fun a u hu b' hu' hend => ?_
  rw [andThen_assoc, andThen_assoc]
  exact hu'.expect_andThen fun v hv hv' => hk a v (by omega) _ hv' hend.1 rfl

/-- Suffixes are read alike. -/
theorem suffixes_congr (hr : r'.Alike r) {a : Node} (h : s.size ≤ n) (hs : s.Stands b)
    (hb : (Goal.suffixes a).StartsAt b) : suffixes r' a s h = suffixes r a s h := by
  induction s using sizeInduction generalizing b a with
  | step s ih =>
    have hitem (t : Parser) (ht : t.size < s.size) :
        Goal.Alike .expression t (r'.expression t (by omega)) (r.expression t (by omega)) :=
      hr.expression t (by omega)
    rw [suffixes, suffixes]
    refine ite_congr rfl (fun hc => ?_) fun _ => ite_congr rfl (fun hc => ?_) fun _ => rfl
    · refine hs.delimited_andThen (p := .leftParen) (q := .rightParen) (g := .expression)
        (by simp) hitem ⟨Or.inl rfl, rfl, hb.1, rfl⟩ fun as t ht b' ht' hend => ?_
      have hm : b'.modes = b.modes := hend.1
      rw [ih t ht (by omega) ht' ⟨hm ▸ hb.1, hend.2⟩]
    · refine hs.index_andThen hr hb.1 fun c t ht b' ht' hm ho => ?_
      rw [ih t ht (by omega) ht' ⟨hm ▸ hb.1, ho⟩]

theorem operator_of_unary? {c : Token} {op : UnaryOp} (h : unary? c = some op) :
    ∃ o, c = .operator o := by
  cases c with
  | operator o => exact ⟨o, rfl⟩
  | _ => cases h

/-- Operands are read alike. -/
theorem alike_operandWith {r' r : Below s.size} (hr : r'.Alike r) :
    Goal.Alike .operand s (operandWithVia d s r') (operandWith s r) where
  took _ _ := took_operandWith hr.sound
  walks := walks_operandWith s hr.walks
  eq b hs hb := by
    unfold operandWithVia operandWith
    congr 1
    · funext op ho
      obtain ⟨o, hc⟩ := operator_of_unary? ho
      refine hs.advance_andThen fun t ht _ ht' => ?_
      rw [hc] at ht'
      rw [(hr.operand t ht).eq _ ht' ⟨hb.1, rfl⟩]
    · funext ho
      refine (alike_primary hr).andThen hs hb fun a t ht b' ht' hend => ?_
      have hm : b'.modes = b.modes := hend.1
      rw [suffixes_congr hr _ ht' ⟨hm ▸ hb.1, hend.2⟩]

/-- Operators with their operands are read alike. -/
theorem alike_operators (hr : r'.Alike r) (threshold : Nat) (a : Node) (s : Parser)
    (h : s.size < n) :
    Goal.Alike (.operators threshold a) s (operators r' threshold a s h)
      (operators r threshold a s h) where
  took _ _ := took_operators hr.sound
  walks := walks_operators hr.walks threshold a s h
  eq := by
    -- The operand, what it takes, and the rest of the loop, each where the one before it ends.
    induction s using sizeInduction generalizing threshold a with
    | step s ih =>
      intro b hs hb
      rw [operators, operators]
      congr 1
      funext o strength ho
      obtain ⟨hc, -⟩ := binaryOperator?_eq_some_iff.mp ho
      refine ite_congr rfl (fun _ => rfl) fun _ => ite_congr rfl (fun _ => rfl) fun _ => ?_
      refine hs.advance_andThen fun t ht _ ht' => ?_
      rw [hc] at ht'
      refine (hr.operand t _).andThen ht' ⟨hb.1, rfl⟩ fun e u hu b' hu' hend => ?_
      have hm : b'.modes = b.modes := hend.1
      have hstronger : Goal.Alike (.operators strength e) u (operators r' strength e u (by omega))
          (operators r strength e u (by omega)) :=
        ⟨fun _ _ => took_operators hr.sound, walks_operators hr.walks strength e u _,
          ih u (by omega) strength e _⟩
      refine hstronger.andThen hu' ⟨hm ▸ hb.1, hend.2⟩ fun c v hv b'' hv' hend' => ?_
      have hm' : b''.modes = b.modes := hend'.1.trans hm
      rw [ih v (by omega) threshold _ _ _ hv' ⟨hm' ▸ hb.1, hend'.2⟩]

/-! ## All of it -/

/-- The reading functions with detours, for states of any size. -/
def fullVia (d : Detours) (n : Nat) : Below n :=
  ⟨fun t _ => expressionVia d t, fun t _ => operandVia d t⟩

/-- Below every bound the parser with detours is the parser. -/
theorem alike_full (d : Detours) (n : Nat) : (fullVia d n).Alike (full n) := by
  -- The bound goes down with the tokens, as in the parser itself.
  induction n with
  | zero => exact ⟨fun t h => absurd h (Nat.not_lt_zero _), fun t h => absurd h (Nat.not_lt_zero _)⟩
  | succ n ih =>
    have hfull {s : Parser} (h : s.size < n + 1) : (fullVia d s.size).Alike (full s.size) :=
      ⟨fun t ht => ih.expression t (by omega), fun t ht => ih.operand t (by omega)⟩
    have hoperand (s : Parser) (h : s.size < n + 1) : Goal.Alike .operand s
        (operandWithVia d s (fullVia d s.size)) (operandWith s (full s.size)) :=
      alike_operandWith (hfull h)
    constructor
    · intro s h
      refine ⟨(sound_full _).expression s h, (walks_full _).expression s h, fun b hs hb => ?_⟩
      show expressionVia d s = expression s
      rw [expressionVia, Parser.expression]
      refine (hoperand s h).andThen hs hb fun a t ht b' ht' hend => ?_
      have hm : b'.modes = b.modes := hend.1
      have hb' : (Goal.operators 0 a).StartsAt b' := ⟨hm ▸ hb.1, hend.2⟩
      exact congrArg (weaken _) ((alike_operators (hfull h) 0 a t ht).eq _ ht' hb')
    · intro s h
      refine ⟨(sound_full _).operand s h, (walks_full _).operand s h, fun b hs hb => ?_⟩
      show operandVia d s = operand s
      rw [operandVia, Parser.operand]
      exact (hoperand s h).eq b hs hb

/-- Programs are the same with any detours. -/
theorem programVia_eq (hs : s.Stands .start) : programVia d s = program s := by
  have hstatement := (alike_full d (s.size + 1)).expression
  exact congrArg (map _)
    ((alike_statements (by simp) hstatement s (Nat.lt_succ_self _)).eq _ hs ⟨nofun, rfl⟩)

end Parser

/-- A source is parsed in the same way with any detours. -/
theorem parseVia_eq (d : Detours) (source : String) : parseVia d source = parse source := by
  unfold parseVia parse
  cases hstart : Parser.start (TokenStream.ofString source) with
  | error e => rfl
  | ok s =>
    obtain ⟨hcurrent, hfollows⟩ :=
      start_stream_eq_ok (l := Lexer.ofString source) hstart
    have hs : s.Stands .start :=
      ⟨Lexer.ofString source, Lexer.settled_of_not_held rfl, rfl, hcurrent, hfollows⟩
    exact congrArg toExcept (programVia_eq hs)

/-- Whatever the text is, and however often its lexer is called, also behind errors, the modes are
nested.  So the parser finds nothing in a template but text, a brace or a back-quote, and no text
behind text, and it does not matter what it would do there. -/
theorem template_agrees (source : String) :
    (∀ n, ((Lexer.ofString source).behind n).Nested) ∧
      ∀ d, parseVia d source = parse source :=
  ⟨Lexer.nested_behind source, fun d => parseVia_eq d source⟩

end Brace
