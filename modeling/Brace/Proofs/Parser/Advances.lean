/-
# The way of a reading function

Whatever a reading function answers, it has passed some tokens one by one, none of them the end of
the source, and then stops: with a result, with a fault of the grammar, or with an error of the
lexer in the place of the next token.  `Parsed.Walks r s` says this of an answer `r` at `s`, and
every function of the grammar walks.  Main statement: `walks_program`.
-/
import Brace.Proofs.Parser.Inversion

namespace Brace

/-! ## Ways -/

/-- The parser `t` stands `k` tokens behind the parser `s`. -/
inductive Parser.Advances (s : Parser) : Nat → Parser → Prop where
  /-- No tokens. -/
  | refl : Advances s 0 s
  /-- One more token. -/
  | step {k : Nat} {t u : Parser} : Advances s k t → t.Passes u → Advances s (k + 1) u

theorem Parser.Advances.trans {s t u : Parser} {j k : Nat} (h : s.Advances j t)
    (h' : t.Advances k u) : s.Advances (j + k) u := by
  induction h' with
  | refl => exact h
  | step _ hp ih => exact .step ih hp

namespace Parsed

variable {m n : Nat} {α β : Type}

/-- An answer given at the parser `t`. -/
inductive StopsAt (t : Parser) : Parsed n α → Prop where
  /-- A result. -/
  | done (a : α) (h : t.size < n) : StopsAt t (.done a t h)
  /-- A fault of the grammar. -/
  | fault (f : SyntaxFault) : StopsAt t (.fail (t.error f) t)
  /-- A malformed token behind the current one. -/
  | malformed {e : ParseError} {left : Parser} (h : t.current ≠ .eof) :
      t.advance h = .fail e left → StopsAt t (.fail e left)

/-- The answer is given some tokens behind the parser `s`. -/
def Walks (r : Parsed n α) (s : Parser) : Prop := ∃ k t, s.Advances k t ∧ r.StopsAt t

/-- A result without reading passes nothing. -/
theorem walks_done {a : α} {s : Parser} {h : s.size < n} : (done a s h).Walks s :=
  ⟨0, s, .refl, .done a h⟩

/-- A fault is found where the parser stands. -/
theorem walks_fail {f : SyntaxFault} {s : Parser} : (fail (s.error f) s : Parsed n α).Walks s :=
  ⟨0, s, .refl, .fault f⟩

/-- One step after the other. -/
theorem Walks.andThen {r : Parsed m α} {k : (a : α) → (t : Parser) → t.size < m → Parsed n β}
    {s : Parser} (hr : r.Walks s) (hk : ∀ a t h, (k a t h).Walks t) : (r.andThen k).Walks s := by
  obtain ⟨i, t, hi, hstop⟩ := hr
  cases hstop with
  | done a h =>
    obtain ⟨j, u, hj, hstop⟩ := hk a t h
    exact ⟨i + j, u, hi.trans hj, hstop⟩
  | fault f => exact ⟨i, t, hi, .fault f⟩
  | malformed h he => exact ⟨i, t, hi, .malformed h he⟩

/-- A weaker bound leaves the way as it is. -/
theorem Walks.weaken {r : Parsed m α} {s : Parser} (hr : r.Walks s) {h : m ≤ n} :
    (r.weaken h).Walks s :=
  hr.andThen fun _ _ _ => walks_done

theorem Walks.map {f : α → β} {r : Parsed n α} {s : Parser} (hr : r.Walks s) :
    (r.map f).Walks s :=
  hr.andThen fun _ _ _ => walks_done

end Parsed

/-! ## The functions of the grammar -/

namespace Parser

open Parsed

variable {n : Nat} {α : Type}

/-- Induction on the number of tokens that a parser can still pass. -/
theorem sizeInduction {P : Parser → Prop} (step : ∀ s, (∀ t, t.size < s.size → P t) → P s)
    (s : Parser) : P s :=
  (measure size).wf.induction s step

/-- One step passes the current token or meets an error of the lexer. -/
theorem walks_advance {s : Parser} (h : s.current ≠ .eof) : (s.advance h).Walks s := by
  cases hr : s.advance h with
  | fail e left => exact ⟨0, s, .refl, .malformed h hr⟩
  | done a t ht =>
    have hp : s.Passes t := gives_advance.mp ⟨ht, hr⟩
    exact ⟨1, t, .step .refl hp, .done a ht⟩

/-- Expected punctuation is passed, or it is a fault. -/
theorem walks_expect (p : Punct) (s : Parser) : (s.expect p).Walks s := by
  unfold expect
  split
  · exact walks_advance _
  · exact walks_fail

/-- Items walk if each of them does. -/
theorem walks_items {stop : Punct} {item : (t : Parser) → t.size < n → Parsed t.size α}
    (hitem : ∀ t h, (item t h).Walks t) (s : Parser) (h : s.size < n) :
    (items stop item s h).Walks s := by
  induction s using sizeInduction with
  | step s ih =>
    rw [items]
    refine (hitem s h).andThen fun a t ht => ?_
    split
    -- The list ends behind an item.
    · exact walks_done
    refine (walks_expect .comma t).andThen fun _ u hu => ?_
    split
    -- The list ends behind a comma.
    · exact walks_done
    -- The next items are fewer tokens away from the end of the text.
    exact (ih u (by omega) _).andThen fun _ _ _ => walks_done

/-- Items between brackets walk if each of them does. -/
theorem walks_delimited (start stop : Punct) (s : Parser)
    {item : (t : Parser) → t.size < s.size → Parsed t.size α}
    (hitem : ∀ t h, (item t h).Walks t) : (delimited start stop s item).Walks s := by
  unfold delimited
  refine (walks_expect start s).andThen fun _ t ht => ?_
  refine Walks.andThen ?_ fun _ u _ => (walks_expect stop u).andThen fun _ _ _ => walks_done
  split
  · exact walks_done
  · exact (walks_items hitem t ht).weaken

/-- Separators are passed one by one. -/
theorem walks_skipSemicolons (s : Parser) : (skipSemicolons s).Walks s := by
  induction s using sizeInduction with
  | step s ih =>
    rw [skipSemicolons]
    split
    · exact (walks_advance _).andThen fun _ t ht => (ih t (by omega)).weaken
    · exact walks_done

/-- Statements walk if each of them does. -/
theorem walks_statements {stop : Token}
    {statement : (t : Parser) → t.size < n → Parsed t.size Node}
    (hstatement : ∀ t h, (statement t h).Walks t) (s : Parser) (h : s.size < n) :
    (statements stop statement s h).Walks s := by
  induction s using sizeInduction with
  | step s ih =>
    rw [statements]
    refine (walks_skipSemicolons s).andThen fun _ t ht => ?_
    split
    · exact walks_done
    -- A statement, then the end of the list or a semicolon and the others.
    refine (hstatement t _).andThen fun a u hu => ?_
    split
    · exact walks_done
    refine (walks_expect .semicolon u).andThen fun _ v hv => ?_
    exact (ih v (by omega) _).andThen fun _ _ _ => walks_done

/-- Given reading functions walk. -/
structure Below.Walks (r : Below n) : Prop where
  expression : ∀ t h, (r.expression t h).Walks t
  operand : ∀ t h, (r.operand t h).Walks t

theorem walks_grouped (s : Parser) {r : Below s.size} (hr : r.Walks) : (grouped s r).Walks s := by
  unfold grouped
  refine (walks_expect _ s).andThen fun _ t h => ?_
  refine (hr.expression t h).andThen fun a u _ => ?_
  exact (walks_expect _ u).andThen fun _ _ _ => walks_done

theorem walks_property {r : Below n} (hr : r.Walks) (s : Parser) (h : s.size < n) :
    (property r s h).Walks s := by
  unfold property
  refine (hr.operand s h).andThen fun key t _ => ?_
  split
  · refine (walks_expect .colon t).andThen fun _ u _ => ?_
    exact (hr.expression u _).andThen fun _ _ _ => walks_done
  · exact walks_fail

theorem walks_block {r : Below n} (hr : r.Walks) (s : Parser) (h : s.size < n) :
    (block r s h).Walks s := by
  unfold block
  refine (walks_expect .leftBrace s).andThen fun _ t _ => ?_
  refine (walks_statements hr.expression t _).andThen fun body u _ => ?_
  exact (walks_expect .rightBrace u).andThen fun _ _ _ => walks_done

theorem walks_branchAfter {k : Keyword} {r : Below n} (hr : r.Walks) (s : Parser)
    (h : s.size < n) : (branchAfter k r s h).Walks s := by
  unfold branchAfter
  split
  · refine (walks_advance _).andThen fun _ t _ => ?_
    refine Walks.andThen ?_ fun _ _ _ => walks_done
    unfold branch
    split
    · exact walks_block hr t _
    · exact hr.expression t _
  · exact walks_done

/-- A conditional walks from its word through its three parts. -/
theorem walks_conditional (s : Parser) {r : Below s.size} (hr : r.Walks)
    (hs : s.current ≠ .eof) : (conditional s r hs).Walks s := by
  unfold conditional
  refine (walks_advance hs).andThen fun _ t h => ?_
  refine (hr.expression t h).andThen fun test u _ => ?_
  refine (walks_branchAfter hr u _).andThen fun consequent v _ => ?_
  exact (walks_branchAfter hr v _).andThen fun _ _ _ => walks_done

/-- The parts of a template walk if their expressions do. -/
theorem walks_parts {r : Below n} (hr : r.Walks) (s : Parser) (h : s.size < n) :
    (parts r s h).Walks s := by
  induction s using sizeInduction with
  | step s ih =>
    rw [parts]
    split
    · exact walks_done
    · refine (walks_advance _).andThen fun _ t ht => ?_
      exact (ih t (by omega) _).andThen fun _ _ _ => walks_done
    · refine (walks_advance _).andThen fun _ t ht => ?_
      -- An interpolation, with its statements between the braces.
      refine (walks_statements hr.expression t _).andThen fun body u hu => ?_
      refine (walks_expect .rightBrace u).andThen fun _ v hv => ?_
      exact (ih v (by omega) _).andThen fun _ _ _ => walks_done
    · exact walks_fail

theorem walks_template (s : Parser) {r : Below s.size} (hr : r.Walks) : (template s r).Walks s := by
  unfold template
  refine (walks_expect .backquote s).andThen fun _ t h => ?_
  refine (walks_parts hr t h).andThen fun found u _ => ?_
  exact (walks_expect .backquote u).andThen fun _ _ _ => walks_done

theorem walks_primary (s : Parser) {r : Below s.size} (hr : r.Walks) : (primary s r).Walks s := by
  unfold primary
  split
  · exact walks_grouped s hr
  · exact (walks_delimited _ _ s (walks_property hr)).map
  · exact (walks_delimited _ _ s hr.expression).map
  · exact walks_template s hr
  · exact walks_conditional s hr _
  · split
    · exact (walks_advance _).map
    · exact walks_fail

/-- Calls and indices walk if their arguments do. -/
theorem walks_suffixes {r : Below n} (hr : r.Walks) (a : Node) (s : Parser) (h : s.size ≤ n) :
    (suffixes r a s h).Walks s := by
  induction s using sizeInduction generalizing a with
  | step s ih =>
    rw [suffixes]
    split
    · refine (walks_delimited _ _ s fun t _ => hr.expression t _).andThen fun arguments t ht => ?_
      exact (ih t (by omega) _ _).weaken
    split
    · refine Walks.andThen ?_ fun b t ht => (ih t (by omega) _ _).weaken
      unfold index
      refine (walks_expect .leftBracket s).andThen fun _ t _ => ?_
      refine (hr.expression t _).andThen fun b u _ => ?_
      exact (walks_expect .rightBracket u).andThen fun _ _ _ => walks_done
    · exact walks_done

theorem walks_operandWith (s : Parser) {r : Below s.size} (hr : r.Walks) :
    (operandWith s r).Walks s := by
  unfold operandWith
  split
  · refine (walks_advance _).andThen fun _ t h => ?_
    exact (hr.operand t h).andThen fun _ _ _ => walks_done
  · exact (walks_primary s hr).andThen fun a t _ => (walks_suffixes hr a t _).weaken

/-- Operators walk if their operands do. -/
theorem walks_operators {r : Below n} (hr : r.Walks) (threshold : Nat) (a : Node) (s : Parser)
    (h : s.size < n) : (operators r threshold a s h).Walks s := by
  induction s using sizeInduction generalizing threshold a with
  | step s ih =>
    rw [operators]
    split
    · exact walks_done
    split
    · exact walks_done
    split
    -- Nothing can be assigned to this operand.
    · exact walks_fail
    refine (walks_advance _).andThen fun _ t ht => ?_
    refine (hr.operand t _).andThen fun b u hu => ?_
    -- The loop calls itself twice: for the operand on the right, and to go on behind it.
    refine (ih u (by omega) _ b _).andThen fun c v hv => ?_
    exact (ih v (by omega) _ _ _).weaken

/-- The reading functions of the grammar walk. -/
theorem walks_full (n : Nat) : (full n).Walks := by
  induction n with
  | zero => exact ⟨fun t h => absurd h (Nat.not_lt_zero _), fun t h => absurd h (Nat.not_lt_zero _)⟩
  | succ n ih =>
    -- A parser with fewer tokens left reads with the functions of the induction hypothesis.
    have hfull {s : Parser} (h : s.size < n + 1) : (full s.size).Walks :=
      ⟨fun t ht => ih.expression t (by omega), fun t ht => ih.operand t (by omega)⟩
    constructor
    · intro s h
      show (expression s).Walks s
      rw [Parser.expression, expressionWith]
      refine (walks_operandWith s (hfull h)).andThen fun a t ht => ?_
      exact (walks_operators (hfull h) 0 a t ht).weaken
    · intro s h
      show (operand s).Walks s
      rw [Parser.operand]
      exact walks_operandWith s (hfull h)

/-- An expression walks. -/
theorem walks_expression (s : Parser) : (expression s).Walks s :=
  (walks_full (s.size + 1)).expression s (Nat.lt_succ_self _)

/-- A program walks. -/
theorem walks_program (s : Parser) : (program s).Walks s := by
  unfold program
  exact (walks_statements (fun t _ => walks_expression t) s _).map

end Parser

end Brace
