/-
# Positions of errors in the body of a template

The body of a template is parsed between back-quotes, and the error of a body carries a position of
the text with them.  So every column on the first line is one larger than in the body, and there is
a place behind the body that the body does not have.  Main statement: the position is one of the
body exactly if reading has stopped inside of it and not at the end of its first line
(`position_of_parseTemplate_eq_error`).
-/
import Brace.Proofs.Parser.Places
import Brace.Proofs.Parser.TemplateBody

namespace Brace

namespace Position

variable {cs p q : List Char} {c : Char}

/-! ## Positions of a text -/

/-- A place is one of a text if it is the position of an opening segment. -/
def In (place : Position) (cs : List Char) : Prop := ∃ p, p <+: cs ∧ place = ofText p

/-- Behind a text the line is larger by its line feeds. -/
theorem line_after (place : Position) (cs : List Char) :
    (place.after cs).line = place.line + cs.count '\n' := by
  induction cs generalizing place with
  | nil => rfl
  | cons c cs ih =>
    rw [after_cons, ih, advance]
    split
    · next hc =>
      rw [hc, List.count_cons_self]
      exact Nat.add_right_comm _ _ _
    · next hc => rw [List.count_cons_of_ne hc]

/-- On one line the column is larger by the characters. -/
theorem column_after (place : Position) (h : '\n' ∉ cs) :
    (place.after cs).column = place.column + cs.length := by
  induction cs generalizing place with
  | nil => rfl
  | cons c cs ih =>
    rw [List.mem_cons, not_or] at h
    rw [after_cons, ih _ h.2, advance, if_neg (Ne.symm h.1), List.length_cons]
    exact Nat.add_right_comm _ _ _

/-- Without a line feed the column counts all characters. -/
theorem ofText_of_not_mem (h : '\n' ∉ p) : ofText p = ⟨1, p.length⟩ := by
  have hline := line_after start p
  have hcolumn := column_after start h
  rw [List.count_eq_zero.mpr h] at hline
  rw [start_after] at hline hcolumn
  rw [← Nat.zero_add p.length]
  exact congrArg₂ mk hline hcolumn

/-- Only a text without a line feed leads to the first line. -/
theorem not_mem_of_line (h : (ofText p).line = 1) : '\n' ∉ p := by
  have hline : 1 + p.count '\n' = 1 := h
  exact List.count_eq_zero.mp (by omega)

/-- One more character in front changes the columns of the first line, and nothing else. -/
theorem ofText_cons (hc : c ≠ '\n') (p : List Char) :
    ofText (c :: p) = if '\n' ∈ p then ofText p else ⟨1, p.length + 1⟩ := by
  split
  · next h =>
    have hstop : ∃ d ∈ p.reverse, (d != '\n') = false := ⟨'\n', List.mem_reverse.mpr h, by simp⟩
    have hcolumn : (c :: p).reverse.takeWhile (· != '\n') = p.reverse.takeWhile (· != '\n') := by
      rw [List.reverse_cons, List.takeWhile_append, if_neg]
      intro hall
      have heq := (List.takeWhile_prefix (· != '\n')).eq_of_length hall
      obtain ⟨d, hd, hfalse⟩ := hstop
      have htrue := List.mem_takeWhile_imp (heq.symm ▸ hd)
      rw [hfalse] at htrue
      cases htrue
    rw [ofText, ofText, hcolumn, List.count_cons_of_ne hc]
  · next h => exact ofText_of_not_mem (by simp [Ne.symm hc, h])

/-- Opening segments of one text are told apart by their positions. -/
theorem eq_of_ofText_eq (hp : p <+: cs) (hq : q <+: cs) (h : ofText p = ofText q) : p = q := by
  have longer {p q : List Char} (hpq : p <+: q) (h : ofText p = ofText q) : p = q := by
    obtain ⟨t, rfl⟩ := hpq
    rw [← start_after, ← start_after, after_append] at h
    have hline := (congrArg line h).trans (line_after _ t)
    have hnone : '\n' ∉ t := List.count_eq_zero.mp (by omega)
    have hcolumn := (congrArg column h).trans (column_after _ hnone)
    have hnil : t = [] := List.eq_nil_of_length_eq_zero (by omega)
    rw [hnil, List.append_nil]
  rcases List.prefix_or_prefix_of_prefix hp hq with hpq | hqp
  · exact longer hpq h
  · exact (longer hqp h.symm).symm

/-- With one character in front of a text and one behind it, a place is still one of the text if it
is inside, and on the first line only if this line goes on. -/
theorem in_ofText_cons_iff {d : Char} (hc : c ≠ '\n') (hp : p <+: cs ++ [d]) :
    (ofText (c :: p)).In cs ↔
      p <+: cs ∧ ('\n' ∈ p ∨ ∃ x, x ≠ '\n' ∧ p ++ [x] <+: cs) := by
  rw [ofText_cons hc]
  constructor
  · rintro ⟨q, hq, heq⟩
    have hqd : q <+: cs ++ [d] := hq.trans (List.prefix_append _ _)
    split at heq
    · next h =>
      -- Behind a new line the place does not tell that a character stands in front.
      obtain rfl := eq_of_ofText_eq hp hqd heq
      exact ⟨hq, Or.inl h⟩
    · next h =>
      -- On the first line the segment of the text is longer by one character.
      have hfree := not_mem_of_line (congrArg line heq).symm
      rw [ofText_of_not_mem hfree] at heq
      have hlength : p.length + 1 = q.length := congrArg column heq
      obtain ⟨t, rfl⟩ := List.prefix_of_prefix_length_le hp hqd (by omega)
      rw [List.length_append] at hlength
      obtain ⟨x, rfl⟩ := List.length_eq_one_iff.mp (show t.length = 1 by omega)
      refine ⟨(List.prefix_append _ _).trans hq, Or.inr ⟨x, ?_, hq⟩⟩
      rintro rfl
      exact hfree (by simp)
  -- A line feed makes the place forget the character in front; without one there has to be room for
  -- it.
  · rintro ⟨hpc, hgoes⟩
    split
    · exact ⟨p, hpc, rfl⟩
    · next h =>
      obtain ⟨x, hx, hpx⟩ := hgoes.resolve_left h
      have hfree : '\n' ∉ p ++ [x] := by simp [h, Ne.symm hx]
      refine ⟨p ++ [x], hpx, ?_⟩
      rw [ofText_of_not_mem hfree, List.length_append, List.length_singleton]

end Position

/-! ## Errors of bodies -/

/-- A reading function fails with an error that has a place. -/
theorem Parsed.Walks.exists_position {n : Nat} {α : Type} {e : ParseError} {s left : Parser}
    (h : (Parsed.fail e left : Parsed n α).Walks s) : ∃ place, e.position? = some place := by
  obtain ⟨k, t, -, hstop⟩ := h
  cases hstop with
  | fault f => exact ⟨_, rfl⟩
  | malformed hne he =>
    unfold Parser.advance at he
    split at he
    · next e' _ _ =>
      obtain ⟨rfl, -⟩ := Parsed.fail.inj he
      exact ⟨e'.position, rfl⟩
    · cases he

/-- What is read of a text between back-quotes begins with the first of them. -/
theorem exists_start_of_template (text : String) :
    ∃ s, Parser.start (TokenStream.ofString ("`" ++ text ++ "`")) = .ok s ∧
      s.Behind ('\x60' :: (text.toList ++ ['\x60'])) ['\x60'] := by
  obtain ⟨m, hands, hm⟩ := lexes_punct .backquote (by nofun) _ (at_template text)
  have hchars : ("`" ++ text ++ "`").toList = '\x60' :: (text.toList ++ ['\x60']) := by simp
  cases hands with
  | cons hn _ hnil =>
    cases hnil
    have hfirst := Cursor.behind_ofString ("`" ++ text ++ "`")
    rw [hchars] at hfirst
    obtain ⟨q, hq, -⟩ := Lexer.behind_next (l := .ofString ("`" ++ text ++ "`")) hfirst
    rw [hn] at hq
    -- The first token is the back-quote that was added, and nothing else has been read.
    have hread : q = ['\x60'] := by
      have hall := hq.chars
      rw [hm.chars, List.nil_append, ← List.singleton_append (l := text.toList ++ _)] at hall
      exact List.append_cancel_right hall
    cases hs : Parser.start (TokenStream.ofString ("`" ++ text ++ "`")) with
    | error e =>
      obtain ⟨e', -, he⟩ := Parser.start_stream_eq_error hs
      rw [hn] at he
      cases he
    | ok s =>
      obtain ⟨-, hfollows⟩ := Parser.start_stream_eq_ok hs
      rw [hn] at hfollows
      exact ⟨s, rfl, m, hfollows, hread ▸ hq⟩

/-- Every error of a body has a place, which is the position of a segment of the text with the
back-quotes; `r` is this segment without the first of them.  On the first line the column is one
larger than in the body.  The place is one of the body exactly if `r` does not reach over its end,
and on the first line only if `r` is not all of this line. -/
theorem position_of_parseTemplate_eq_error {text : String} {e : ParseError}
    (h : parseTemplate text = .error e) :
    ∃ place r, e.position? = some place ∧ r <+: text.toList ++ ['\x60'] ∧
      place = .ofText ('\x60' :: r) ∧
      place = (if '\n' ∈ r then .ofText r else ⟨1, r.length + 1⟩) ∧
      (place.In text.toList ↔
        r <+: text.toList ∧ ('\n' ∈ r ∨ ∃ c, c ≠ '\n' ∧ r ++ [c] <+: text.toList)) := by
  obtain ⟨s, hs, hbehind⟩ := exists_start_of_template text
  have hparse := (parse_eq_start _).symm.trans h
  rw [hs] at hparse
  have hwalks := Parser.walks_program s
  have hparse : s.program.toExcept = .error e := hparse
  cases hr : s.program with
  | done a left hlt =>
    rw [hr] at hparse
    cases hparse
  | fail e' left =>
    rw [hr] at hparse hwalks
    obtain rfl : e' = e := Except.error.inj hparse
    -- The walk of the parser stops where the error is, so its place is true of what has been read.
    obtain ⟨place, hplace⟩ := hwalks.exists_position
    obtain ⟨r, ⟨-, herror⟩, l, -, hl⟩ := hwalks.report hbehind
    have hin : r <+: text.toList ++ ['\x60'] := (List.cons_prefix_cons.mp hl.isPrefix).2
    obtain rfl : place = .ofText ('\x60' :: r) := herror place hplace
    exact ⟨_, r, hplace, hin, rfl, Position.ofText_cons (by decide) r,
      Position.in_ofText_cons_iff (by decide) hin⟩

/-- A number with two points at the end of a body of four characters: the error is reported behind
the fifth one. -/
theorem position_of_parseTemplate_eq_error_number :
    parseTemplate "\x7b1.." = .error (.lex ⟨.doubleDot, ⟨1, 5⟩⟩) ∧
      ¬ Position.In ⟨1, 5⟩ ['\x7b', '1', '.', '.'] := by
  have hparse : parseTemplate "\x7b1.." = .error (.lex ⟨.doubleDot, ⟨1, 5⟩⟩) := by cbv
  refine ⟨hparse, ?_⟩
  obtain ⟨place, r, hplace, -, -, hcolumn, hin⟩ := position_of_parseTemplate_eq_error hparse
  obtain rfl : (⟨1, 5⟩ : Position) = place := Option.some.inj hplace
  intro hinside
  obtain ⟨hr, hnewline | ⟨c, -, hc⟩⟩ := hin.mp hinside
  · exact absurd (hr.subset hnewline) (by decide)
  · split at hcolumn
    · next hnewline => exact absurd (hr.subset hnewline) (by decide)
    · have hlength : 5 = r.length + 1 := congrArg Position.column hcolumn
      have hle := hc.length_le
      rw [List.length_append, List.length_singleton] at hle
      have hfour : "\x7b1..".toList.length = 4 := by decide
      omega

end Brace
