/-
# Positions of lexers and parsers

A lexer takes characters from the front of a source and reports errors where it stops, so it has
read a segment of the source at every time (`Lexer.behind_next`).  A parser goes along with a lexer,
also behind errors (`Parsed.Walks.report`).  So all positions that they show are true, and a parsed
text has been read completely.  Main statement: `positions_true`.
-/
import Brace.Proofs.Parser.Ends
import Brace.Proofs.Source.Places

namespace Brace

open Parsed

variable {cs p : List Char}

/-! ## Lexers -/

namespace Lexer

/-- The position of the error in an answer. -/
def errorPosition? : Except LexError Token → Option Position
  | .ok _ => none
  | .error e => some e.position

/-- A call reads on, and its answer shows no other place than the one behind it. -/
theorem behind_next {l : Lexer} (h : l.cursor.Behind cs p) :
    ∃ q, l.next.2.cursor.Behind cs (p ++ q) ∧
      ∀ e ∈ errorPosition? l.next.1, e = .ofText (p ++ q) := by
  obtain ⟨n, hn⟩ := l.cursor_next
  have hbehind := h.forward n
  rw [← hn] at hbehind
  refine ⟨_, hbehind, ?_⟩
  cases hx : l.next.1 with
  | ok t => simp [errorPosition?]
  | error e =>
    intro e' he
    obtain rfl : e.position = e' := Option.some.inj he
    exact (next_of_error hx).1.trans hbehind.position

/-- After any number of calls a lexer has read a segment of the source. -/
theorem exists_behind {l : Lexer} (h : l.cursor.Behind cs p) (n : Nat) :
    ∃ q, (l.behind n).cursor.Behind cs (p ++ q) := by
  induction n with
  | zero => exact ⟨[], (List.append_nil p).symm ▸ h⟩
  | succ n ih =>
    obtain ⟨q, hq⟩ := ih
    obtain ⟨q', hq', -⟩ := behind_next hq
    rw [behind_succ]
    exact ⟨q ++ q', List.append_assoc p q q' ▸ hq'⟩

end Lexer

namespace TokenIterator

/-- The calls of a lexer. -/
inductive Call where
  /-- Asks for the next token. -/
  | token
  /-- Asks for the next token, unless an error or the end has been met in this way. -/
  | item
  /-- Asks for the position. -/
  | position

/-- A call, and the lexer behind it. -/
def call (i : TokenIterator) : Call → Report × TokenIterator
  | .token =>
    (⟨i.lexer.next.2.position, Lexer.errorPosition? i.lexer.next.1⟩,
      { i with lexer := i.lexer.next.2 })
  | .item => (⟨i.next?.2.lexer.position, i.next?.1.bind Lexer.errorPosition?⟩, i.next?.2)
  | .position => (⟨i.lexer.position, none⟩, i)

/-- Whatever is called, what is told is true of the segment that has been read. -/
theorem behind_call {i : TokenIterator} (h : i.lexer.cursor.Behind cs p) (c : Call) :
    ∃ q, (i.call c).1.Tells (p ++ q) ∧ (i.call c).2.lexer.cursor.Behind cs (p ++ q) := by
  have stays : ∃ q, Report.Tells ⟨i.lexer.position, none⟩ (p ++ q) ∧
      i.lexer.cursor.Behind cs (p ++ q) := h.stays (by simp)
  obtain ⟨q, hq, herror⟩ := Lexer.behind_next h
  cases c with
  | token => exact ⟨q, ⟨hq.position, herror⟩, hq⟩
  | position => exact stays
  | item =>
    show ∃ q, Report.Tells ⟨i.next?.2.lexer.position, i.next?.1.bind Lexer.errorPosition?⟩
      (p ++ q) ∧ i.next?.2.lexer.cursor.Behind cs (p ++ q)
    unfold next?
    split
    · exact stays
    · generalize i.lexer.next = r at hq herror
      obtain ⟨x, m⟩ := r
      cases x with
      | error e => exact ⟨q, ⟨hq.position, herror⟩, hq⟩
      | ok t =>
        dsimp only
        split
        · exact ⟨q, ⟨hq.position, nofun⟩, hq⟩
        · exact ⟨q, ⟨hq.position, herror⟩, hq⟩

end TokenIterator

/-! ## Parsers -/

/-- What an answer shows, and the parser behind it. -/
def Parsed.report {n : Nat} {α : Type} : Parsed n α → Report × Parser
  | .done _ left _ => (⟨left.position, none⟩, left)
  | .fail e left => (⟨left.position, e.position?⟩, left)

/-- A parser that goes along with a lexer that has read some of a text. -/
def Parser.Behind (cs : List Char) (s : Parser) (p : List Char) : Prop :=
  ∃ l : Lexer, s.Follows l ∧ l.cursor.Behind cs p

/-- A reading function reads on, and its answer shows no other place than the one behind it. -/
theorem Parsed.Walks.report {n : Nat} {α : Type} {r : Parsed n α} {s : Parser} (hr : r.Walks s)
    (h : s.Behind cs p) : ∃ q, r.report.1.Tells (p ++ q) ∧ r.report.2.Behind cs (p ++ q) := by
  obtain ⟨l, hs, hl⟩ := h
  obtain ⟨k, t, hk, hstop⟩ := hr
  have ht := hk.follows hs
  obtain ⟨q, hq⟩ := Lexer.exists_behind hl k
  have hposition : t.position = .ofText (p ++ q) := ht.position.trans hq.position
  cases hstop with
  | done a h => exact ⟨q, ⟨hposition, nofun⟩, _, ht, hq⟩
  | fault f =>
    refine ⟨q, ⟨hposition, ?_⟩, _, ht, hq⟩
    intro e he
    exact (Option.some.inj he).symm.trans hposition
  | malformed hne he =>
    -- The error is that of one more call of the lexer.
    obtain ⟨e, rfl, hx, -, hleft⟩ := ht.of_advance_eq_fail he
    obtain ⟨q', hq', herror⟩ := Lexer.behind_next hq
    rw [List.append_assoc] at hq' herror
    rw [hx] at herror
    exact ⟨q ++ q', ⟨hleft.position.trans hq'.position, herror⟩, _, hleft, hq'⟩

namespace Parser

/-- The calls of a parser. -/
inductive Call where
  /-- Parses all that is left. -/
  | program
  /-- Parses one expression. -/
  | expression

/-- A call, and the parser behind it. -/
def call (s : Parser) : Call → Report × Parser
  | .program => s.program.report
  | .expression => s.expression.report

/-- Whatever is called, a parser tells the truth about the segment that it has read. -/
theorem behind_call (s : Parser) (p : List Char) (c : Call) (h : s.Behind cs p) :
    ∃ q, (s.call c).1.Tells (p ++ q) ∧ (s.call c).2.Behind cs (p ++ q) := by
  cases c with
  | program => exact (walks_program s).report h
  | expression => exact (walks_expression s).report h

/-- A parser is made from a lexer, which reads a token, and is called then.  If there is no token,
there is no parser. -/
def reports (l : Lexer) (calls : List Call) : List Report :=
  match start l.stream with
  | .error e => [⟨l.next.2.position, e.position?⟩]
  | .ok s => ⟨s.position, none⟩ :: (callAll call calls s).1

/-- All reports of a run of calls are true. -/
theorem trueFrom_reports {l : Lexer} (h : l.cursor.Behind cs p) (calls : List Call) :
    Report.TrueFrom cs p (reports l calls) := by
  obtain ⟨q, hq, herror⟩ := Lexer.behind_next h
  unfold reports
  cases hs : start l.stream with
  | error e =>
    obtain ⟨e, rfl, hx⟩ := start_stream_eq_error hs
    rw [hx] at herror
    exact .cons hq.isPrefix ⟨hq.position, herror⟩ (.nil _)
  | ok s =>
    obtain ⟨-, hfollows⟩ := start_stream_eq_ok hs
    have hcalls := trueFrom_callAll (fun _ _ h => h.elim fun _ hl => hl.2.isPrefix) behind_call
      calls ⟨l.next.2, hfollows, hq⟩ fun q _ => .nil q
    rw [List.append_nil] at hcalls
    exact .cons hq.isPrefix ⟨hfollows.position.trans hq.position, nofun⟩ hcalls

/-- Behind a program, the current token is the end of the source. -/
theorem current_of_gives_program {s t : Parser} {a : Node} (h : s.program.Gives a t) :
    t.current = .eof := by
  obtain ⟨body, hb, -⟩ := gives_program.mp h
  have hstop := (took_statements (by simp) (sound_full _).expression hb).1.stops
  rwa [Goal.Stops, or_self, front_tokens] at hstop

end Parser

/-! ## Whole texts -/

/-- A text that is parsed is read to its end. -/
theorem exists_follows_of_parse {source : String} {a : Node} (h : parse source = .ok a) :
    ∃ s t n, Parser.start (TokenStream.ofString source) = .ok s ∧ s.program.Gives a t ∧
      t.Follows ((Lexer.ofString source).behind n) ∧
      ((Lexer.ofString source).behind n).cursor.rest = [] := by
  have hparse := (parse_eq_start source).symm.trans h
  cases hs : Parser.start (TokenStream.ofString source) with
  | error e =>
    rw [hs] at hparse
    cases hparse
  | ok s =>
    rw [hs] at hparse
    obtain ⟨t, hgives⟩ := Parsed.toExcept_eq_ok_iff.mp hparse
    obtain ⟨hcurrent, hfollows⟩ := Parser.start_stream_eq_ok hs
    obtain ⟨k, u, hk, hstop⟩ := Parser.walks_program s
    obtain ⟨hlt, hdone⟩ := hgives
    rw [hdone] at hstop
    cases hstop
    have hgives : s.program.Gives a t := ⟨hlt, hdone⟩
    obtain ⟨htoken, -⟩ := hk.handed hcurrent hfollows
    rw [Parser.current_of_gives_program hgives] at htoken
    refine ⟨s, t, k + 1, rfl, hgives, hk.follows hfollows, ?_⟩
    rw [Lexer.behind_succ]
    exact Lexer.rest_of_eof htoken

/-- The positions of cursors, lexers and parsers are true, whatever is called and however the calls
end: each call shows the position of an opening segment of the source, behind the call and in its
error, and the segments never get shorter.  A parser may be made from a lexer behind any calls of
it.  Where parsing a text succeeds, all of the text has been read. -/
theorem positions_true (source : String) :
    (∀ calls, Report.Truthful source (callAll Cursor.call calls (.ofString source)).1) ∧
    (∀ calls, Report.Truthful source
      (callAll TokenIterator.call calls (.ofString source)).1) ∧
    (∀ calls calls', Report.Truthful source
      ((callAll TokenIterator.call calls (.ofString source)).1 ++
        Parser.reports (callAll TokenIterator.call calls (.ofString source)).2.lexer calls')) ∧
    ∀ a, parse source = .ok a → ∃ s t n, Parser.start (TokenStream.ofString source) = .ok s ∧
      s.program.Gives a t ∧ t.Follows ((Lexer.ofString source).behind n) ∧
      ((Lexer.ofString source).behind n).cursor.rest = [] ∧
      t.position = .ofText source.toList := by
  have hlexer (calls : List TokenIterator.Call) {rs : List Report}
      (hrs : ∀ q, (callAll TokenIterator.call calls
          (.ofString source)).2.lexer.cursor.Behind source.toList q →
        Report.TrueFrom source.toList q rs) :
      Report.Truthful source
        ((callAll TokenIterator.call calls (.ofString source)).1 ++ rs) :=
    (trueFrom_callAll (R := fun i p => i.lexer.cursor.Behind source.toList p)
      (fun _ _ h => h.isPrefix) (fun _ _ c h => TokenIterator.behind_call h c) calls
      (Cursor.behind_ofString source) hrs).truthful
  refine ⟨Cursor.truthful source, fun calls => ?_, fun calls calls' => ?_, fun a ha => ?_⟩
  · have htrue := hlexer calls fun q _ => .nil q
    rwa [List.append_nil] at htrue
  · exact hlexer calls fun q hq => Parser.trueFrom_reports hq calls'
  · obtain ⟨s, t, n, hs, hgives, hfollows, hrest⟩ := exists_follows_of_parse ha
    obtain ⟨q, hq⟩ := Lexer.exists_behind (l := .ofString source) (Cursor.behind_ofString source) n
    have hall : [] ++ q = source.toList := hq.eq_of_rest_eq_nil hrest
    exact ⟨s, t, n, hs, hgives, hfollows, hrest,
      hfollows.position.trans (hq.position.trans (congrArg _ hall))⟩

/-- A name with an empty line behind it: the position is that of the whole text. -/
theorem positions_true_name :
    parse "a\n" = .ok (.identifier "a") ∧
      ∃ s t, Parser.start (TokenStream.ofString "a\n") = .ok s ∧
        s.program.Gives (.identifier "a") t ∧ t.position = ⟨2, 0⟩ := by
  have hparse : parse "a\n" = .ok (.identifier "a") := by
    have hyields : (Lexer.ofString "a\n").Yields [.identifier "a"] := .cons rfl nofun (.eof rfl)
    refine parse_eq_ok_iff.mpr ⟨_, hyields, [_], .lastStatement nofun ?_ rfl, rfl⟩
    exact .expression (.plain (.literal rfl) (.suffixesEnd nofun nofun)) (.operatorsEnd nofun)
  obtain ⟨s, t, n, hs, hgives, -, -, hposition⟩ := (positions_true "a\n").2.2.2 _ hparse
  exact ⟨hparse, s, t, hs, hgives, hposition⟩

end Brace
