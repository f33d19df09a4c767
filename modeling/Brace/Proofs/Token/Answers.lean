/-
# The answers of a lexer

A lexer can be called as often as one likes, also behind an error.  `Lexer.behind l n` is the lexer
`l` behind `n` calls, and `Lexer.answer l n` is its answer to the next one, without the place where
it is given.  Lexers that differ by their positions only give the same answers
(`Lexer.answer_eq_of_extends`), and whether a text is parsed, and to which tree, depends on the
answers alone (`parse_eq_ok_congr`).
-/
import Brace.Proofs.Token.Extends

namespace Brace

namespace Lexer

/-! ## Calls -/

/-- The lexer behind a number of calls. -/
def behind (l : Lexer) : Nat → Lexer
  | 0 => l
  | n + 1 => l.next.2.behind n

/-- The answer to a call behind others, without its place. -/
def answer (l : Lexer) (n : Nat) : Except LexFault Token :=
  (l.behind n).next.1.mapError LexError.fault

variable {l l' : Lexer}

/-- The lexer behind one more call is the one behind the next answer. -/
theorem behind_succ (l : Lexer) (n : Nat) : l.behind (n + 1) = (l.behind n).next.2 := by
  induction n generalizing l with
  | zero => rfl
  | succ n ih => exact ih l.next.2

theorem answer_eq_ok_iff {n : Nat} {t : Token} :
    l.answer n = .ok t ↔ (l.behind n).next.1 = .ok t := by
  rw [answer]
  cases (l.behind n).next.1 <;> simp [Except.mapError]

/-- The answers of a lexer are its first answer and those of the lexer behind it. -/
theorem forall_answer_eq_iff : (∀ n, l.answer n = l'.answer n) ↔
    l.answer 0 = l'.answer 0 ∧ ∀ n, l.next.2.answer n = l'.next.2.answer n := by
  constructor
  · exact fun h => ⟨h 0, fun n => h (n + 1)⟩
  · rintro ⟨hzero, hsucc⟩ n
    cases n with
    | zero => exact hzero
    | succ n => exact hsucc n

/-! ## Lexers at the same place -/

theorem Extends.symm (h : l.Extends l' []) : l'.Extends l [] :=
  ⟨by rw [h.rest, List.append_nil, List.append_nil], h.modes.symm, h.held.symm, h.operand.symm⟩

/-- Two calls have the same answer, up to its place, and the lexers behind them differ by their
positions only. -/
def Mirrors (r r' : Except LexError Token × Lexer) : Prop :=
  r.1.mapError LexError.fault = r'.1.mapError LexError.fault ∧ r.2.Extends r'.2 []

theorem Extends.forward_all (h : l.Extends l' []) (n : Nat) :
    (l.forward n).Extends (l'.forward n) [] := by
  refine ⟨?_, h.modes, h.held, h.operand⟩
  show l'.cursor.rest.drop n = l.cursor.rest.drop n ++ []
  rw [h.rest, List.append_nil, List.append_nil]

theorem mirrors_emit (h : l.Extends l' []) (n : Nat) (t : Token) :
    Mirrors (l.emit n t) (l'.emit n t) := ⟨rfl, h.forward_all n⟩

theorem mirrors_refuse (h : l.Extends l' []) (n : Nat) (fault : LexFault) :
    Mirrors (l.refuse n fault) (l'.refuse n fault) := ⟨rfl, h.forward_all n⟩

theorem mirrors_readRegExp (h : l.Extends l' []) : Mirrors l.readRegExp l'.readRegExp := by
  have hrest : l'.cursor.rest = l.cursor.rest := by rw [h.rest, List.append_nil]
  unfold readRegExp
  rw [hrest]
  split
  · exact mirrors_refuse h _ _
  · split
    · exact mirrors_emit h _ _
    · exact mirrors_refuse h _ _

theorem mirrors_readFrom (h : l.Extends l' []) (c : Char) (rest : List Char) :
    Mirrors (l.readFrom c rest) (l'.readFrom c rest) := by
  unfold readFrom
  simp only [h.operand, h.modes]
  -- The kinds of tokens are tried in turn, and the text alone decides at every step.
  split
  · split
    · exact mirrors_emit h _ _
    · exact mirrors_refuse h _ _
  split
  · split
    · exact mirrors_emit h _ _
    · exact mirrors_refuse h _ _
  split
  · exact mirrors_emit h _ _
  split
  · exact mirrors_readRegExp h
  split
  · split <;> exact mirrors_emit h _ _
  split
  · split <;> exact mirrors_emit h _ _
  split
  · exact mirrors_emit (h.withModes (.template :: l.modes)) _ _
  split
  · exact mirrors_emit (h.withModes (Mode.openBrace l.modes)) _ _
  split
  · exact mirrors_emit (h.withModes (Mode.closeBrace l.modes)) _ _
  split
  · exact mirrors_emit h _ _
  · exact mirrors_emit h _ _
  · exact mirrors_refuse h _ _

/-- What an expression begins with is read alike behind whatever layout there is. -/
theorem mirrors_readExpression
    (h : (l.forward (Scan.layout false l.cursor.rest)).Extends
      (l'.forward (Scan.layout false l'.cursor.rest)) []) :
    Mirrors l.readExpression l'.readExpression := by
  unfold readExpression
  generalize l.forward (Scan.layout false l.cursor.rest) = k at h
  generalize l'.forward (Scan.layout false l'.cursor.rest) = k' at h
  have hrest : k'.cursor.rest = k.cursor.rest := by rw [h.rest, List.append_nil]
  simp only [hrest, h.mode_eq]
  split
  · split
    · exact mirrors_refuse h _ _
    · exact mirrors_emit h _ _
  · exact mirrors_readFrom h _ _

/-- In the text of a template lexers in front of the same text answer alike. -/
theorem mirrors_readTemplate (h : l.Extends l' []) : Mirrors l.readTemplate l'.readTemplate := by
  have hrest : l'.cursor.rest = l.cursor.rest := by rw [h.rest, List.append_nil]
  unfold readTemplate
  simp only [hrest, h.modes]
  split
  · exact mirrors_refuse h _ _
  · exact mirrors_emit (h.withModes l.modes.tail) _ _
  · exact mirrors_emit h _ _
  · exact mirrors_emit (h.withModes (.interpolation 0 :: l.modes)) _ _
  · exact mirrors_emit ((h.withModes (.interpolation 0 :: l.modes)).withHeld true) _ _

/-- Lexers in front of the same text read alike. -/
theorem mirrors_read (h : l.Extends l' []) : Mirrors l.read l'.read := by
  have hrest : l'.cursor.rest = l.cursor.rest := by rw [h.rest, List.append_nil]
  unfold read
  rw [h.held, h.mode_eq]
  split
  · exact mirrors_emit (h.withHeld false) _ _
  · split
    · exact mirrors_readTemplate h
    · exact mirrors_readExpression (hrest ▸ h.forward_all _)

/-- Lexers that read alike answer alike. -/
theorem mirrors_next (h : Mirrors l.read l'.read) : Mirrors l.next l'.next := by
  obtain ⟨hanswer, hm⟩ := h
  unfold next
  generalize l.read = r at hanswer hm
  generalize l'.read = r' at hanswer hm
  obtain ⟨r, m⟩ := r
  obtain ⟨r', m'⟩ := r'
  -- Both answers are errors with one message, or both are the same token.
  cases r with
  | error e =>
    cases r' with
    | error e' => exact ⟨hanswer, hm⟩
    | ok t => cases hanswer
  | ok t =>
    cases r' with
    | error e => cases hanswer
    | ok t' =>
      obtain rfl : t = t' := Except.ok.inj hanswer
      exact ⟨rfl, hm.remember t⟩

/-- Lexers that differ by their positions only give the same answers. -/
theorem answer_eq_of_extends (h : l.Extends l' []) (n : Nat) : l.answer n = l'.answer n := by
  induction n generalizing l l' with
  | zero => exact (mirrors_next (mirrors_read h)).1
  | succ n ih => exact ih (mirrors_next (mirrors_read h)).2

/-- The tokens in front of the end of the source are the same if the answers are. -/
theorem Yields.of_answers {ts : List Token} (h : l.Yields ts)
    (heq : ∀ n, l.answer n = l'.answer n) : l'.Yields ts := by
  induction h generalizing l' with
  | eof hn =>
    have hok := answer_eq_ok_iff.mp ((heq 0).symm.trans (answer_eq_ok_iff.mpr (congrArg _ hn)))
    exact .eof (Prod.ext hok rfl)
  | cons hn ht _ ih =>
    have hok := answer_eq_ok_iff.mp ((heq 0).symm.trans (answer_eq_ok_iff.mpr (congrArg _ hn)))
    refine .cons (Prod.ext hok rfl) ht (ih fun n => ?_)
    -- The answers behind the first one are the answers behind the first call.
    have hsucc := (forall_answer_eq_iff.mp heq).2 n
    rwa [hn] at hsucc

end Lexer

/-- Texts with the same answers are parsed to the same tree, if they are parsed. -/
theorem parse_eq_ok_congr {source source' : String}
    (h : ∀ n, (Lexer.ofString source).answer n = (Lexer.ofString source').answer n) (a : Node) :
    parse source = .ok a ↔ parse source' = .ok a := by
  rw [parse_eq_ok_iff, parse_eq_ok_iff]
  constructor
  · rintro ⟨ts, hy, hr⟩
    exact ⟨ts, hy.of_answers h, hr⟩
  · rintro ⟨ts, hy, hr⟩
    exact ⟨ts, hy.of_answers fun n => (h n).symm, hr⟩

end Brace
