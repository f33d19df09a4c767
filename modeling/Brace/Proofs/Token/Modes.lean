/-
# The stack of modes

Modes nest in one way only: in an expression there are templates, in each of them at most one
interpolation is open, and in this the next template (`Mode.stack`).  `Mode.Turns` says what one
call of a lexer can do to the modes, and each of these steps keeps them nested
(`Lexer.exists_stack`).  At the end of the source nothing is open (`Lexer.modes_of_eof`), and behind
a piece of text there is always a further token (`Lexer.next_of_text`).  `Lexer.Nested` is all of
this together.
-/
import Brace.Proofs.Token.Progress

namespace Brace

/-! ## Nested modes -/

namespace Mode

/-- The modes inside of some interpolations, the innermost one first; each of them is given by the
number of braces open in it, and stands in a template of its own.  There may be one more template
in front, in whose text the lexer is. -/
def stack (depths : List Nat) (inText : Bool) : List Mode :=
  (if inText then [.template] else []) ++
    depths.flatMap (fun depth => [.interpolation depth, .template]) ++ [.expression]

/-- What a call can do to the modes.  A depth is lowered by one at a time, and never from zero: at
zero a closing brace ends the interpolation. -/
inductive Turns : List Mode → List Mode → Prop where
  /-- Nothing. -/
  | stay (modes : List Mode) : Turns modes modes
  /-- A template is opened, in an expression. -/
  | openTemplate {modes : List Mode} : InExpression modes → Turns modes (.template :: modes)
  /-- The text of a template ends. -/
  | closeTemplate (outer : List Mode) : Turns (.template :: outer) outer
  /-- An interpolation is opened, in the text of a template. -/
  | openInterpolation (outer : List Mode) :
      Turns (.template :: outer) (.interpolation 0 :: .template :: outer)
  /-- An interpolation without open braces ends. -/
  | closeInterpolation (outer : List Mode) : Turns (.interpolation 0 :: outer) outer
  /-- A brace is opened in an interpolation. -/
  | openBrace (depth : Nat) (outer : List Mode) :
      Turns (.interpolation depth :: outer) (.interpolation (depth + 1) :: outer)
  /-- A brace is closed in an interpolation. -/
  | closeBrace (depth : Nat) (outer : List Mode) :
      Turns (.interpolation (depth + 1) :: outer) (.interpolation depth :: outer)

variable {modes modes' outer : List Mode} {depths : List Nat} {inText : Bool}

theorem stack_ne_nil : stack depths inText ≠ [] := by
  simp [stack]

/-- A stack with a template on top is in the text of the template. -/
theorem stack_eq_template (h : stack depths inText = .template :: outer) :
    inText = true ∧ outer = stack depths false := by
  cases inText with
  | true => exact ⟨rfl, (List.cons.inj h).2.symm⟩
  | false => cases depths <;> cases h

/-- A stack with an interpolation on top has the text of a template below it. -/
theorem stack_eq_interpolation {depth : Nat}
    (h : stack depths inText = .interpolation depth :: outer) :
    inText = false ∧ ∃ behind, depths = depth :: behind ∧ outer = stack behind true := by
  cases inText with
  | true => cases h
  | false =>
    cases depths with
    | nil => cases h
    | cons d behind =>
      obtain ⟨hd, rfl⟩ := List.cons.inj h
      obtain rfl := Mode.interpolation.inj hd
      exact ⟨rfl, behind, rfl, rfl⟩

/-- An expression is at the bottom of the stack. -/
theorem stack_eq_expression (h : stack depths inText = .expression :: outer) :
    stack depths inText = [.expression] := by
  cases inText with
  | true => cases h
  | false =>
    cases depths with
    | nil => rfl
    | cons => cases h

/-- Nested modes are turned to nested modes. -/
theorem Turns.exists_stack (h : Turns (stack depths inText) modes) :
    ∃ depths' inText', modes = stack depths' inText' := by
  -- The mode on top tells the shape of the stack below it.
  generalize hm : stack depths inText = before at h
  cases h with
  | stay => exact ⟨depths, inText, hm.symm⟩
  | openTemplate hin =>
    cases inText with
    | true => exact absurd rfl (hm ▸ hin)
    | false => exact ⟨depths, true, by rw [← hm]; rfl⟩
  | closeTemplate =>
    obtain ⟨-, rfl⟩ := stack_eq_template hm
    exact ⟨depths, false, rfl⟩
  | openInterpolation =>
    obtain ⟨-, rfl⟩ := stack_eq_template hm
    exact ⟨0 :: depths, false, rfl⟩
  | closeInterpolation =>
    obtain ⟨-, behind, -, rfl⟩ := stack_eq_interpolation hm
    exact ⟨behind, true, rfl⟩
  | openBrace depth =>
    obtain ⟨-, behind, -, rfl⟩ := stack_eq_interpolation hm
    exact ⟨(depth + 1) :: behind, false, rfl⟩
  | closeBrace depth =>
    obtain ⟨-, behind, -, rfl⟩ := stack_eq_interpolation hm
    exact ⟨depth :: behind, false, rfl⟩

/-- What a token does to the modes is a single step. -/
theorem turns_after (modes : List Mode) (t : Token) : Turns modes (after modes t) := by
  -- Quotes and braces depend on the mode on top; every other token leaves the modes.
  cases t with
  | punct p =>
    cases p with
    | backquote =>
      cases modes with
      | nil => exact .openTemplate nofun
      | cons m outer =>
        cases m with
        | template => exact .closeTemplate outer
        | expression | interpolation => exact .openTemplate (by simp [InExpression])
    | leftBrace =>
      cases modes with
      | nil => exact .stay _
      | cons m outer =>
        cases m with
        | template => exact .openInterpolation outer
        | expression => exact .stay _
        | interpolation depth => exact .openBrace depth outer
    | rightBrace =>
      cases modes with
      | nil => exact .stay _
      | cons m outer =>
        cases m with
        | interpolation depth =>
          cases depth with
          | zero => exact .closeInterpolation outer
          | succ depth => exact .closeBrace depth outer
        | expression | template => exact .stay _
    | _ => exact .stay _
  | _ => exact .stay _

end Mode

/-! ## One call -/

namespace Lexer

variable {l : Lexer}

/-- A mode other than that of the start is on top of a stack. -/
theorem modes_eq_cons {m : Mode} (h : l.mode = m) (hm : m ≠ .expression) :
    ∃ outer, l.modes = m :: outer := by
  unfold mode at h
  cases hmodes : l.modes with
  | nil =>
    rw [hmodes] at h
    exact absurd h.symm hm
  | cons m' outer =>
    rw [hmodes] at h
    exact ⟨outer, congrArg (· :: outer) h⟩

/-- An error leaves a lexer settled, and so does a token. -/
theorem settled_next (hs : l.Settled) : l.next.2.Settled := by
  cases hx : l.next.1 with
  | error e =>
    obtain ⟨-, n, hn⟩ := next_of_error hx
    rw [hn]
    exact hs
  | ok t => exact (follows_next hs t hx).1

theorem settled_behind (source : String) (n : Nat) : ((ofString source).behind n).Settled := by
  induction n with
  | zero => exact settled_of_not_held rfl
  | succ n ih =>
    rw [behind_succ]
    exact settled_next ih

/-- What a token that is handed out has done to the modes.  An interpolation is opened together with
the text in front of it, so the brace that is held back no longer does anything. -/
theorem modes_of_next (hs : l.Settled) {t : Token} (h : l.next.1 = .ok t) :
    (l.held = true ∧ t = .punct .leftBrace ∧ l.next.2.modes = l.modes) ∨
      (l.held = false ∧ l.next.2.modes = Mode.after l.modes t) ∨
      (l.held = false ∧ (∃ s, t = .string s) ∧
        ∃ outer, l.modes = .template :: outer ∧ l.next.2.modes = .interpolation 0 :: l.modes) := by
  obtain ⟨k, hr, hk⟩ := next_eq_ok_iff.mp (Prod.ext h rfl : l.next = (.ok t, l.next.2))
  obtain ⟨hsettled, -, hinner⟩ := follows_read hs t (by rw [hr])
  have htakes := takes_read l
  rw [hr] at hsettled hinner htakes
  rw [hk, modes_remember]
  have unheld (hh : l.held = false) (hh' : k.held = false) : k.modes = Mode.after l.modes t := by
    rwa [inner_of_not_held hh, inner_of_not_held hh'] at hinner
  cases htakes with
  | held hh => exact Or.inl ⟨hh, rfl, rfl⟩
  | eof hh => exact Or.inr (Or.inl ⟨hh, unheld hh hh⟩)
  | token modes hh => exact Or.inr (Or.inl ⟨hh, unheld hh hh⟩)
  | text s hh =>
    obtain ⟨outer, hmodes⟩ := hsettled rfl
    exact Or.inr (Or.inr ⟨hh, ⟨s, rfl⟩, outer, (List.cons.inj hmodes).2, rfl⟩)

/-- A call takes the modes one step further at most. -/
theorem turns_next (hs : l.Settled) : Mode.Turns l.modes l.next.2.modes := by
  cases hx : l.next.1 with
  | error e =>
    obtain ⟨-, n, hn⟩ := next_of_error hx
    rw [hn]
    exact .stay _
  | ok t =>
    obtain ⟨-, -, hsame⟩ | ⟨-, hafter⟩ | ⟨-, -, outer, htemplate, hopen⟩ := modes_of_next hs hx
    · rw [hsame]
      exact .stay _
    · rw [hafter]
      exact Mode.turns_after _ _
    · rw [hopen, htemplate]
      exact .openInterpolation outer

/-- A closing brace lowers a depth, and at zero it ends the interpolation instead. -/
theorem modes_of_rightBrace (hs : l.Settled) (h : l.next.1 = .ok (.punct .rightBrace)) :
    l.next.2.modes = Mode.closeBrace l.modes := by
  obtain ⟨-, hbrace, -⟩ | ⟨-, hafter⟩ | ⟨-, ⟨s, hstring⟩, -⟩ := modes_of_next hs h
  · cases hbrace
  · exact hafter
  · cases hstring

/-- A piece of the text of a template is not empty, and a brace or a back-quote follows. -/
theorem next_of_text (hs : l.Settled) (hm : l.mode = .template) {s : String}
    (h : l.next.1 = .ok (.string s)) : s ≠ "" ∧
      (l.next.2.next.1 = .ok (.punct .leftBrace) ∨
        l.next.2.next.1 = .ok (.punct .backquote)) := by
  obtain ⟨outer, hmodes⟩ := modes_eq_cons hm (by simp)
  have hh : l.held = false := by
    refine Bool.eq_false_iff.mpr fun hh => ?_
    obtain ⟨outer', hheld⟩ := hs hh
    cases hmodes.symm.trans hheld
  have hne {text : List Char} (htext : text ≠ []) : String.ofList text ≠ "" := by
    intro hempty
    have hnil := congrArg String.toList hempty
    rw [String.toList_ofList] at hnil
    exact htext hnil
  obtain ⟨k, hr, hk⟩ := next_eq_ok_iff.mp (Prod.ext h rfl : l.next = (.ok (.string s), l.next.2))
  rw [read_of_template hh hmodes, readTemplate] at hr
  split at hr
  · cases hr
  · cases hr
  · next hstop htext =>
    -- The back-quote behind the text has not been taken.
    obtain ⟨ds, hds⟩ := Scan.drop_template hstop
    cases hr
    refine ⟨hne htext, Or.inr ?_⟩
    have hat : l.next.2.At ⟨'\x60' :: ds, .template :: outer, false⟩ := by
      rw [hk, remember_of_ne (by simp)]
      exact ⟨hds, hmodes, hh, rfl⟩
    obtain ⟨m, hands, -⟩ := lexes_backquote .nil _ hat
    cases hands with
    | cons hn => exact congrArg Prod.fst hn
  · cases hr
  · next hstop htext =>
    cases hr
    refine ⟨hne htext, Or.inl ?_⟩
    -- The brace has been seen with the text and is held back for the next call.
    have hheld : l.next.2.held = true := by
      rw [hk, remember_of_ne (by simp)]
      rfl
    rw [next_of_held hheld]

/-! ## Any number of calls -/

/-- Behind any calls, also behind errors, the modes are nested. -/
theorem exists_stack (source : String) (n : Nat) :
    ∃ depths inText, ((ofString source).behind n).modes = Mode.stack depths inText := by
  induction n with
  | zero => exact ⟨[], false, rfl⟩
  | succ n ih =>
    obtain ⟨depths, inText, hmodes⟩ := ih
    have hturns := turns_next (settled_behind source n)
    rw [hmodes] at hturns
    rw [behind_succ]
    exact hturns.exists_stack

/-- At the end of the source nothing is open. -/
theorem modes_of_eof {depths : List Nat} {inText : Bool}
    (hstack : l.modes = Mode.stack depths inText) (h : l.next.1 = .ok .eof) :
    l.modes = [.expression] := by
  obtain ⟨-, hin, hno, -⟩ := next_eq_eof_iff.mp h
  cases hmodes : l.modes with
  | nil =>
    rw [hmodes] at hstack
    cases inText <;> cases depths <;> cases hstack
  | cons m outer =>
    rw [hmodes] at hin
    have hmode : l.mode = m := by
      rw [mode, hmodes]
      rfl
    cases m with
    | template => exact absurd rfl hin
    | interpolation depth => exact absurd hmode (hno depth)
    | expression =>
      rw [hmodes] at hstack
      exact hstack.trans (Mode.stack_eq_expression hstack.symm)

/-- What holds of the modes of a lexer, and of its next call. -/
structure Nested (l : Lexer) : Prop where
  /-- The modes are nested. -/
  stack : ∃ depths inText, l.modes = Mode.stack depths inText
  /-- There is a mode. -/
  ne_nil : l.modes ≠ []
  /-- Only a brace is held back, where an interpolation has just been opened. -/
  held : l.held = true → l.modes.head? = some (.interpolation 0) ∧
    l.next.1 = .ok (.punct .leftBrace)
  /-- The call takes the modes one step further at most, so that a depth is lowered only from a
  positive one. -/
  turns : Mode.Turns l.modes l.next.2.modes
  /-- At depth zero a closing brace ends the interpolation. -/
  closes : ∀ outer, l.modes = .interpolation 0 :: outer →
    l.next.1 = .ok (.punct .rightBrace) → l.next.2.modes = outer
  /-- At the end of the source nothing is open. -/
  eof : l.next.1 = .ok .eof → l.modes = [.expression] ∧ l.next.2.modes = [.expression]
  /-- A piece of the text of a template is not empty, and a brace or a back-quote follows. -/
  text : ∀ s, l.mode = .template → l.next.1 = .ok (.string s) → s ≠ "" ∧
    (l.next.2.next.1 = .ok (.punct .leftBrace) ∨ l.next.2.next.1 = .ok (.punct .backquote))

/-- Behind any calls a lexer of a source is nested. -/
theorem nested_behind (source : String) (n : Nat) : ((ofString source).behind n).Nested := by
  obtain ⟨depths, inText, hstack⟩ := exists_stack source n
  have hs := settled_behind source n
  refine ⟨⟨depths, inText, hstack⟩, hstack ▸ Mode.stack_ne_nil, fun hh => ?_, turns_next hs,
    fun outer hmodes hbrace => ?_, fun heof => ?_, fun s hm hstring => next_of_text hs hm hstring⟩
  · obtain ⟨outer, hmodes⟩ := hs hh
    rw [hmodes, next_of_held hh]
    exact ⟨rfl, rfl⟩
  · rw [modes_of_rightBrace hs hbrace, hmodes]
    rfl
  · have hmodes := modes_of_eof hstack heof
    obtain ⟨-, hbrace, -⟩ | ⟨-, hafter⟩ | ⟨-, ⟨s, hstring⟩, -⟩ := modes_of_next hs heof
    · cases hbrace
    · exact ⟨hmodes, hafter.trans hmodes⟩
    · cases hstring

end Lexer

end Brace
