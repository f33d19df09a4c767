/-
# How a reading function fails

`Parsed.Faults r f` says that the answer `r` is the syntax error `f`; an error of the lexer is not
meant.  As for results, composition is described once (`faults_andThen`).  Passing a token never
breaks the grammar, so a fault comes from an expected punctuation, from a construct that is read, or
from one of the checks of the grammar.  Main statement: parsing a text fails with a fault exactly if
the program that begins at its first token does (`parse_faults_iff`).
-/
import Brace.Proofs.Token.Hands

namespace Brace

/-! ## Faults of answers -/

namespace Parsed

variable {m n : Nat} {α β : Type}

/-- The answer is a syntax error. -/
def Faults (r : Parsed n α) (f : SyntaxFault) : Prop :=
  ∃ position left, r = .fail (.malformed f position) left

@[simp]
theorem not_faults_done {a : α} {t : Parser} {h : t.size < n} {f : SyntaxFault} :
    ¬ (done a t h).Faults f := by
  rintro ⟨_, _, hd⟩
  cases hd

/-- A fault of the grammar is the fault it is made with. -/
@[simp]
theorem faults_fail {s t : Parser} {f f' : SyntaxFault} :
    (fail (s.error f') t : Parsed n α).Faults f ↔ f' = f := by
  constructor
  · rintro ⟨_, _, hd⟩
    cases hd
    rfl
  · rintro rfl
    exact ⟨_, _, rfl⟩

/-- One step after the other: the fault is that of the first step, or of the second one where the
first one ends. -/
theorem faults_andThen {r : Parsed m α} {k : (a : α) → (t : Parser) → t.size < m → Parsed n β}
    {f : SyntaxFault} :
    (r.andThen k).Faults f ↔
      r.Faults f ∨ ∃ a t, ∃ h : t.size < m, r.Gives a t ∧ (k a t h).Faults f := by
  -- The first reading has failed or given a result.
  cases r with
  | fail e s =>
    constructor
    · rintro ⟨p, t, hd⟩
      cases hd
      exact Or.inl ⟨_, _, rfl⟩
    · rintro (⟨p, t, hd⟩ | ⟨a, t, h, hg, _⟩)
      · cases hd
        exact ⟨_, _, rfl⟩
      · exact absurd hg gives_fail
  | done a t h =>
    constructor
    · intro hk
      exact Or.inr ⟨a, t, h, ⟨h, rfl⟩, hk⟩
    · rintro (hd | ⟨b, u, h', hg, hk⟩)
      · exact absurd hd not_faults_done
      · obtain ⟨rfl, rfl⟩ := (gives_done _).mp hg
        exact hk

/-- Where the second step cannot fail, the fault is that of the first one. -/
theorem faults_andThen_of_not_faults {r : Parsed m α}
    {k : (a : α) → (t : Parser) → t.size < m → Parsed n β} {f : SyntaxFault}
    (hk : ∀ a t h, ¬ (k a t h).Faults f) : (r.andThen k).Faults f ↔ r.Faults f := by
  rw [faults_andThen]
  refine or_iff_left ?_
  rintro ⟨a, t, h, -, hf⟩
  exact hk a t h hf

/-- A weaker bound keeps the faults. -/
@[simp]
theorem faults_weaken {r : Parsed m α} {h : m ≤ n} {f : SyntaxFault} :
    (r.weaken h).Faults f ↔ r.Faults f := by
  simp [weaken, faults_andThen]

@[simp]
theorem faults_map {g : α → β} {r : Parsed n α} {f : SyntaxFault} :
    (r.map g).Faults f ↔ r.Faults f := by
  simp [map, faults_andThen]

end Parsed

/-! ## Faults of the grammar -/

namespace Parser

open Parsed

variable {n : Nat} {α : Type}

/-- A token that cannot be passed is malformed, which is no fault of the grammar. -/
@[simp]
theorem not_faults_advance {s : Parser} {h : s.current ≠ .eof} {f : SyntaxFault} :
    ¬ (s.advance h).Faults f := by
  rintro ⟨p, t, hd⟩
  unfold advance at hd
  split at hd <;> cases hd

/-- Expected punctuation is a fault where something else stands. -/
theorem faults_expect {s : Parser} {p : Punct} {f : SyntaxFault} :
    (s.expect p).Faults f ↔ s.current ≠ .punct p ∧ f = .expected p s.current := by
  unfold expect
  split
  · next h => simp [h]
  · next h => simp [h, eq_comm]

/-- Passing the current token. -/
theorem advance_andThen_faults {s : Parser} {hs : s.current ≠ .eof} {f : SyntaxFault}
    {k : Unit → (t : Parser) → t.size < s.size → Parsed n α} :
    ((s.advance hs).andThen k).Faults f ↔
      ∃ t, ∃ h : s.Passes t, (k () t h.size_lt).Faults f := by
  rw [faults_andThen]
  constructor
  · rintro (h | ⟨_, t, _, hg, hk⟩)
    · exact absurd h not_faults_advance
    · exact ⟨t, gives_advance.mp hg, hk⟩
  · rintro ⟨t, hp, hk⟩
    exact Or.inr ⟨(), t, hp.size_lt, gives_advance.mpr hp, hk⟩

/-- Passing a token given by name. -/
theorem expect_andThen_faults {s : Parser} {p : Punct} {f : SyntaxFault}
    {k : Unit → (t : Parser) → t.size < s.size → Parsed n α} :
    ((s.expect p).andThen k).Faults f ↔
      s.current ≠ .punct p ∧ f = .expected p s.current ∨
        s.current = .punct p ∧ ∃ t, ∃ h : s.Passes t, (k () t h.size_lt).Faults f := by
  rw [faults_andThen, faults_expect]
  refine or_congr_right ?_
  constructor
  · rintro ⟨_, t, _, hg, hk⟩
    obtain ⟨hc, hp⟩ := gives_expect.mp hg
    exact ⟨hc, t, hp, hk⟩
  · rintro ⟨hc, t, hp, hk⟩
    exact ⟨(), t, hp.size_lt, gives_expect.mpr ⟨hc, hp⟩, hk⟩

/-- Passing a token given by name that is the current one. -/
theorem expect_andThen_faults_of_current {s : Parser} {p : Punct} {f : SyntaxFault}
    {k : Unit → (t : Parser) → t.size < s.size → Parsed n α} (hs : s.current = .punct p) :
    ((s.expect p).andThen k).Faults f ↔ ∃ t, ∃ h : s.Passes t, (k () t h.size_lt).Faults f := by
  rw [expect_andThen_faults]
  constructor
  · rintro (⟨hne, -⟩ | ⟨-, hf⟩)
    · exact absurd hs hne
    · exact hf
  · exact fun hf => Or.inr ⟨hs, hf⟩

/-- Passing a token given by name as the last step that can fail. -/
theorem expect_andThen_faults_of_not_faults {s : Parser} {p : Punct} {f : SyntaxFault}
    {k : Unit → (t : Parser) → t.size < s.size → Parsed n α}
    (hk : ∀ a t h, ¬ (k a t h).Faults f) :
    ((s.expect p).andThen k).Faults f ↔ s.current ≠ .punct p ∧ f = .expected p s.current :=
  (faults_andThen_of_not_faults hk).trans faults_expect

/-- Operators fail at an assignment to something other than a variable, in one of the operands
behind them, or further on. -/
theorem faults_operators {r : Below n} {threshold : Nat} {a : Node} {s : Parser} {h : s.size < n}
    {f : SyntaxFault} :
    (operators r threshold a s h).Faults f ↔
      ∃ o k, s.current = .operator o ∧ o.precedence? = some k ∧ threshold < k ∧
        ((o = .assign ∧ a.isIdentifier = false ∧ f = .badTarget a) ∨
          (o = .assign → a.isIdentifier = true) ∧ ∃ u, ∃ hu : u.size < n, s.Passes u ∧
            ((r.operand u hu).Faults f ∨ ∃ b v, (r.operand u hu).Gives b v ∧ ∃ hv : v.size < n,
              ((operators r k b v hv).Faults f ∨ ∃ c w, (operators r k b v hv).Gives c w ∧
                ∃ hw : w.size < n, (operators r threshold (combine o a c) w hw).Faults f))) := by
  -- In each case the faults of the other cases fall away.
  rcases operators_cases r threshold a s h with
    ⟨hstop, heq⟩ | ⟨o, k, hc, hk, hlt, ⟨ho, hi, heq⟩ | ⟨hgood, hs, heq⟩⟩
  · rw [heq]
    constructor
    · intro hf
      exact absurd hf not_faults_done
    · rintro ⟨o, k, hc, hk, hlt, -⟩
      have := hstop o k (binaryOperator?_eq_some_iff.mpr ⟨hc, hk⟩)
      omega
  · rw [heq, faults_fail]
    constructor
    · rintro rfl
      exact ⟨o, k, hc, hk, hlt, Or.inl ⟨ho, hi, rfl⟩⟩
    · rintro ⟨o', k', hc', -, -, ⟨-, -, rfl⟩ | ⟨ha, -⟩⟩
      · rfl
      · cases hc.symm.trans hc'
        exact absurd (hi.symm.trans (ha ho)) Bool.noConfusion
  · rw [heq, advance_andThen_faults]
    constructor
    · rintro ⟨u, hu, hf⟩
      have hlu := hu.size_lt
      refine ⟨o, k, hc, hk, hlt, Or.inr ⟨hgood, u, by omega, hu, ?_⟩⟩
      rcases faults_andThen.mp hf with hf | ⟨b, v, hv, hb, hf⟩
      · exact Or.inl hf
      · refine Or.inr ⟨b, v, hb, by omega, ?_⟩
        rcases faults_andThen.mp hf with hf | ⟨c, w, hw, hcw, hf⟩
        · exact Or.inl hf
        · exact Or.inr ⟨c, w, hcw, by omega, faults_weaken.mp hf⟩
    · rintro ⟨o', k', hc', hk', -, ⟨ho, hi, -⟩ | ⟨-, u, hu, hp, hf⟩⟩
      · cases hc.symm.trans hc'
        exact absurd (hi.symm.trans (hgood ho)) Bool.noConfusion
      · cases hc.symm.trans hc'
        cases hk.symm.trans hk'
        refine ⟨u, hp, faults_andThen.mpr ?_⟩
        rcases hf with hf | ⟨b, v, hb, hv, hf⟩
        · exact Or.inl hf
        · refine Or.inr ⟨b, v, hb.lt, hb, faults_andThen.mpr ?_⟩
          rcases hf with hf | ⟨c, w, hcw, hw, hf⟩
          · exact Or.inl hf
          · exact Or.inr ⟨c, w, hcw.lt, hcw, faults_weaken.mpr hf⟩

/-- A fault of an operand is one of reading it below the bound of the parser. -/
theorem faults_operand {s : Parser} {f : SyntaxFault} :
    (operand s).Faults f ↔ (operandWith s (full s.size)).Faults f := by
  rw [operand, full]

/-- A fault of an expression is one of its first operand or of the loop behind it. -/
theorem faults_expression {s : Parser} {f : SyntaxFault} :
    (expression s).Faults f ↔
      (operand s).Faults f ∨ ∃ a u, (operand s).Gives a u ∧ ∃ hu : u.size < s.size,
        (operators (full s.size) 0 a u hu).Faults f := by
  rw [expression, expressionWith, faults_andThen]
  refine or_congr faults_operand.symm ?_
  constructor
  · rintro ⟨a, u, hu, ha, hf⟩
    exact ⟨a, u, gives_operand.mpr ha, hu, faults_weaken.mp hf⟩
  · rintro ⟨a, u, ha, hu, hf⟩
    exact ⟨a, u, hu, gives_operand.mp ha, faults_weaken.mpr hf⟩

theorem not_faults_skipSemicolons {s : Parser} {f : SyntaxFault} :
    ¬ (skipSemicolons s).Faults f := by
  intro hf
  induction hk : s.size using Nat.strongRecOn generalizing s with
  | ind k ih =>
    rw [skipSemicolons] at hf
    split at hf
    · obtain ⟨t, ht, hf⟩ := advance_andThen_faults.mp hf
      have hlt := ht.size_lt
      exact ih t.size (by omega) (faults_weaken.mp hf) rfl
    · exact not_faults_done hf

/-- Statements fail in a statement, behind one that no semicolon follows, or further on. -/
theorem faults_statements {stop : Token}
    {statement : (t : Parser) → t.size < n → Parsed t.size Node} {s : Parser} {h : s.size < n}
    {f : SyntaxFault} :
    (statements stop statement s h).Faults f ↔
      ∃ u, ∃ hu : u.size < n, (skipSemicolons s).Gives () u ∧
        ¬ (u.current = stop ∨ u.current = .eof) ∧
          ((statement u hu).Faults f ∨ ∃ a v, (statement u hu).Gives a v ∧ v.current ≠ stop ∧
            (v.current ≠ .punct .semicolon ∧ f = .expected .semicolon v.current ∨
              v.current = .punct .semicolon ∧ ∃ w, ∃ hw : w.size < n, v.Passes w ∧
                (statements stop statement w hw).Faults f)) := by
  -- Both directions go through the function step by step; skipping separators has no fault.
  rw [statements, faults_andThen]
  constructor
  · rintro (hf | ⟨_, u, hu, hskip, hf⟩)
    · exact absurd hf not_faults_skipSemicolons
    · refine ⟨u, by omega, hskip, ?_⟩
      split at hf
      · exact absurd hf not_faults_done
      · next hc =>
        refine ⟨hc, ?_⟩
        rcases faults_andThen.mp hf with hf | ⟨a, v, hv, ha, hf⟩
        · exact Or.inl hf
        · refine Or.inr ⟨a, v, ha, ?_⟩
          split at hf
          · exact absurd hf not_faults_done
          · next hstop =>
            refine ⟨hstop, (expect_andThen_faults.mp hf).imp_right ?_⟩
            rintro ⟨hsemi, w, hw, hf⟩
            have hlw := hw.size_lt
            exact ⟨hsemi, w, by omega, hw,
              (faults_andThen_of_not_faults fun _ _ _ => not_faults_done).mp hf⟩
  · rintro ⟨u, hu, hskip, hc, hf⟩
    refine Or.inr ⟨(), u, hskip.lt, hskip, ?_⟩
    rw [if_neg hc, faults_andThen]
    rcases hf with hf | ⟨a, v, ha, hstop, hf⟩
    · exact Or.inl hf
    · refine Or.inr ⟨a, v, ha.lt, ha, ?_⟩
      rw [if_neg hstop, expect_andThen_faults]
      refine hf.imp_right ?_
      rintro ⟨hsemi, w, hw, hp, hf⟩
      exact ⟨hsemi, w, hp, faults_andThen.mpr (Or.inl hf)⟩

/-- A program fails where its first statement does. -/
theorem faults_program_of_expression {s : Parser} {f : SyntaxFault}
    (hs : s.current ≠ .punct .semicolon ∧ s.current ≠ .eof) (hf : (expression s).Faults f) :
    (program s).Faults f := by
  rw [program, faults_map, faults_statements]
  refine ⟨s, Nat.lt_succ_self _, gives_skipSemicolons.mpr (Or.inl ⟨hs.1, rfl⟩), ?_, Or.inl hf⟩
  rw [or_self]
  exact hs.2

end Parser

/-! ## Whole texts -/

/-- Parsing a text breaks the grammar exactly if reading all of its tokens as a program does. -/
theorem parse_faults_iff {source : String} {f : SyntaxFault} :
    (∃ position, parse source = .error (.malformed f position)) ↔
      ∃ s, Parser.start (TokenStream.ofString source) = .ok s ∧ s.program.Faults f := by
  have hparse (e : ParseError) : (∃ s, Parser.start (TokenStream.ofString source) = .ok s ∧
      s.program.toExcept = .error e) → parse source = .error e := by
    rintro ⟨s, hs, he⟩
    simp [parse, hs, he, bind, Except.bind]
  constructor
  · rintro ⟨p, h⟩
    unfold parse at h
    cases hs : Parser.start (TokenStream.ofString source) with
    | error e =>
      -- A parser starts at a token, so only the lexer can fail here.
      rw [hs] at h
      obtain rfl : e = _ := Except.error.inj h
      unfold Parser.start at hs
      split at hs <;> cases hs
    | ok s =>
      rw [hs] at h
      refine ⟨s, rfl, ?_⟩
      change s.program.toExcept = _ at h
      cases hr : s.program with
      | fail e t =>
        rw [hr] at h
        exact ⟨p, t, congrArg (Parsed.fail · t) (Except.error.inj h)⟩
      | done a t ht =>
        rw [hr] at h
        cases h
  · rintro ⟨s, hs, p, t, hr⟩
    exact ⟨p, hparse _ ⟨s, hs, by rw [hr]; rfl⟩⟩

end Brace
