/-
# Reading comes to an end

A parser goes along with its lexer: what it passes is what the lexer hands out, call by call
(`Parser.Advances.follows`).  So the bound on the tokens of a text is a bound on the tokens that are
passed when it is parsed.  Main statement: `reading_ends`.
-/
import Brace.Proofs.Parser.Advances
import Brace.Proofs.Token.Progress

namespace Brace

open Parsed

/-! ## Going along with a lexer -/

namespace Parser

/-- The parser stands where the lexer stands, and has its answers ahead. -/
structure Follows (s : Parser) (l : Lexer) : Prop where
  /-- The tokens behind the current one. -/
  stream : s.stream = l.stream
  /-- The place behind the token that was read last. -/
  position : s.position = l.position

variable {s t left : Parser} {l : Lexer}

/-- What is next in the stream of a lexer is the next answer of the lexer. -/
theorem follows_of_next (h : l.stream.next = (.ok (t.current, t.position), t.stream)) :
    l.next.1 = .ok t.current ∧ t.Follows l.next.2 := by
  rw [Lexer.next_stream] at h
  obtain ⟨hx, hstream⟩ := Prod.mk.inj h
  cases hn : l.next.1 with
  | error e =>
    rw [hn] at hx
    cases hx
  | ok u =>
    rw [hn] at hx
    obtain ⟨hu, hp⟩ := Prod.mk.inj (Except.ok.inj hx)
    exact ⟨congrArg _ hu, hstream.symm, hp.symm⟩

/-- A parser that passes a token goes along with one call of its lexer. -/
theorem Follows.of_passes (h : s.Follows l) (hp : s.Passes t) :
    l.next.1 = .ok t.current ∧ t.Follows l.next.2 :=
  follows_of_next (h.stream ▸ hp.2)

/-- A token that cannot be passed is an error of the lexer, and the current token stays. -/
theorem Follows.of_advance_eq_fail (h : s.Follows l) {hs : s.current ≠ .eof} {e : ParseError}
    (he : s.advance hs = .fail e left) :
    ∃ e', e = .lex e' ∧ l.next.1 = .error e' ∧ left.current = s.current ∧
      left.Follows l.next.2 := by
  unfold advance at he
  split at he
  · next e' stream hn =>
    rw [h.stream, Lexer.next_stream] at hn
    obtain ⟨hx, hstream⟩ := Prod.mk.inj hn
    obtain ⟨rfl, rfl⟩ := Parsed.fail.inj he
    cases hl : l.next.1 with
    | ok u =>
      rw [hl] at hx
      cases hx
    | error e'' =>
      rw [hl] at hx
      obtain rfl := Except.error.inj hx
      exact ⟨_, rfl, rfl, rfl, hstream.symm, (Lexer.next_of_error hl).1⟩
  · cases he

/-- A parser starts at the first token of a lexer. -/
theorem start_stream_eq_ok (h : start l.stream = .ok s) :
    l.next.1 = .ok s.current ∧ s.Follows l.next.2 :=
  follows_of_next (start_eq_ok_iff.mp h)

/-- A parser that does not start has met an error of its lexer. -/
theorem start_stream_eq_error {e : ParseError} (h : start l.stream = .error e) :
    ∃ e', e = .lex e' ∧ l.next.1 = .error e' := by
  unfold start at h
  rw [Lexer.next_stream] at h
  cases hl : l.next.1 with
  | ok u =>
    rw [hl] at h
    cases h
  | error e' =>
    rw [hl] at h
    exact ⟨e', (Except.error.inj h).symm, rfl⟩

/-- Passing some tokens is calling the lexer as often. -/
theorem Advances.follows {k : Nat} (h : s.Advances k t) (hs : s.Follows l) :
    t.Follows (l.behind k) := by
  induction h with
  | refl => exact hs
  | step _ hp ih =>
    rw [Lexer.behind_succ]
    exact (ih.of_passes hp).2

/-- The lexer has handed out what is passed, and none of it is the end of the source. -/
theorem Advances.handed {k : Nat} (h : s.Advances k t) (hcurrent : l.next.1 = .ok s.current)
    (hs : s.Follows l.next.2) :
    (l.behind k).next.1 = .ok t.current ∧
      ∀ i < k, ∃ u, (l.behind i).next.1 = .ok u ∧ u ≠ .eof := by
  induction h with
  | refl => exact ⟨hcurrent, fun i hi => absurd hi (Nat.not_lt_zero i)⟩
  | @step k t u h hp ih =>
    obtain ⟨htoken, hbefore⟩ := ih
    refine ⟨((h.follows hs).of_passes hp).1, fun i hi => ?_⟩
    rcases Nat.lt_succ_iff_lt_or_eq.mp hi with hi | rfl
    · exact hbefore i hi
    · exact ⟨t.current, htoken, hp.1⟩

end Parser

/-! ## Whole texts -/

/-- Where all answers are tokens, there are as many tokens as answers. -/
theorem Lexer.length_tokensAmong {l : Lexer} {k : Nat}
    (h : ∀ i < k, ∃ u, (l.behind i).next.1 = .ok u ∧ u ≠ .eof) :
    (l.tokensAmong k).length = k := by
  induction k with
  | zero => rfl
  | succ k ih =>
    obtain ⟨u, hu, hne⟩ := h k (Nat.lt_succ_self k)
    rw [tokensAmong_succ, List.length_append, ih fun i hi => h i (Nat.lt_succ_of_lt hi),
      token?_eq_some_iff.mpr ⟨hu, hne⟩]
    rfl

/-- Parsing a text is starting at its first token, and reading a program from there on. -/
theorem parse_eq_start (source : String) :
    parse source = (Parser.start (TokenStream.ofString source)).bind fun s =>
      s.program.toExcept := rfl

/-- Reading the tokens of a text comes to an end, and so does parsing it.

Every answer of the lexer that is no error is the end of the source, or the brace that has been held
back, or is read from at least one character.  So there are at most as many tokens as characters,
however often the lexer is called.  Behind the end of the source it stays where it is.

Parsing fails at the first token, or it passes at most as many tokens as there are characters and
stops there.  No token that is passed is the end of the source, and neither is the one behind which
a malformed token is found. -/
theorem reading_ends (source : String) :
    (∀ n t, ((Lexer.ofString source).behind n).next.1 = .ok t → t = .eof ∨
      (t = .punct .leftBrace ∧ ((Lexer.ofString source).behind n).held = true ∧
        ((Lexer.ofString source).behind (n + 1)).held = false ∧
        ((Lexer.ofString source).behind (n + 1)).cursor =
          ((Lexer.ofString source).behind n).cursor) ∨
      ∃ c cs, ((Lexer.ofString source).behind n).cursor.rest =
        c :: cs ++ ((Lexer.ofString source).behind (n + 1)).cursor.rest) ∧
    (∀ n, ((Lexer.ofString source).tokensAmong n).length ≤ source.length) ∧
    (∀ n k, ((Lexer.ofString source).behind n).next.1 = .ok .eof → n < k →
      ((Lexer.ofString source).behind k).next =
          (.ok .eof, (Lexer.ofString source).behind (n + 1)) ∧
        (Lexer.ofString source).behind k = (Lexer.ofString source).behind (n + 1)) ∧
    ((∃ e, (Lexer.ofString source).next.1 = .error e ∧ parse source = .error (.lex e)) ∨
      ∃ s k t, Parser.start (TokenStream.ofString source) = .ok s ∧
        parse source = s.program.toExcept ∧ s.Advances k t ∧ s.program.StopsAt t ∧
        k ≤ source.length ∧ ((Lexer.ofString source).behind k).next.1 = .ok t.current ∧
        ∀ i < k, ∃ u, ((Lexer.ofString source).behind i).next.1 = .ok u ∧ u ≠ .eof) := by
  refine ⟨fun n t h => ?_, Lexer.length_tokensAmong_le source,
    fun n k h hk => Lexer.next_behind_of_eof h hk, ?_⟩
  · rw [Lexer.behind_succ]
    exact Lexer.eof_or_held_or_consumes h
  · have hparse := parse_eq_start source
    -- The first token is taken before the grammar is asked for anything.
    cases hs : Parser.start (TokenStream.ofString source) with
    | error e =>
      rw [hs] at hparse
      obtain ⟨e', rfl, he⟩ := Parser.start_stream_eq_error hs
      exact Or.inl ⟨e', he, hparse⟩
    | ok s =>
      rw [hs] at hparse
      obtain ⟨hcurrent, hfollows⟩ := Parser.start_stream_eq_ok hs
      obtain ⟨k, t, hadvances, hstop⟩ := Parser.walks_program s
      -- All tokens in front of the last one were other than the end, so they count against the
      -- bound.
      obtain ⟨htoken, hbefore⟩ := hadvances.handed hcurrent hfollows
      have hk := Lexer.length_tokensAmong_le source k
      rw [Lexer.length_tokensAmong hbefore] at hk
      exact Or.inr ⟨s, k, t, rfl, hparse, hadvances, hstop, hk, htoken, hbefore⟩

/-- The brace of an interpolation is handed out without a character, and so is the end of the
source, as often as one likes. -/
theorem reading_ends_template :
    ((Lexer.ofString "\x60a\x7bb\x7d\x60").behind 2).next.1 = .ok (.punct .leftBrace) ∧
      ((Lexer.ofString "\x60a\x7bb\x7d\x60").behind 2).held = true ∧
      ((Lexer.ofString "\x60a\x7bb\x7d\x60").behind 6).next.1 = .ok .eof ∧
      ((Lexer.ofString "\x60a\x7bb\x7d\x60").behind 9).next.1 = .ok .eof ∧
      ∃ s k t, Parser.start (TokenStream.ofString "\x60a\x7bb\x7d\x60") = .ok s ∧
        s.Advances k t ∧ s.program.StopsAt t ∧ k ≤ 6 := by
  obtain ⟨htoken, -, heof, hparse⟩ := reading_ends "\x60a\x7bb\x7d\x60"
  have hbrace : ((Lexer.ofString "\x60a\x7bb\x7d\x60").behind 2).next.1 =
      .ok (.punct .leftBrace) := by rfl
  -- The brace behind the text is held back, as it does not take a character.
  have hheld : ((Lexer.ofString "\x60a\x7bb\x7d\x60").behind 2).held = true := by
    obtain h | ⟨-, h, -⟩ | ⟨c, cs, h⟩ := htoken 2 _ hbrace
    · cases h
    · exact h
    · have hlength := congrArg List.length h
      have hsame : ((Lexer.ofString "\x60a\x7bb\x7d\x60").behind 3).cursor.rest.length =
          ((Lexer.ofString "\x60a\x7bb\x7d\x60").behind 2).cursor.rest.length := by rfl
      rw [List.length_append, hsame, List.length_cons] at hlength
      omega
  have hend : ((Lexer.ofString "\x60a\x7bb\x7d\x60").behind 6).next.1 = .ok .eof := by rfl
  refine ⟨hbrace, hheld, hend, congrArg Prod.fst (heof 6 9 hend (by decide)).1, ?_⟩
  obtain ⟨e, he, -⟩ | ⟨s, k, t, hs, -, hk, hstop, hle, -⟩ := hparse
  · cases he
  · exact ⟨s, k, t, hs, hk, hstop, hle⟩

end Brace
