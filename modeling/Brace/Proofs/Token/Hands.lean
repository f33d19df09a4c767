/-
# The tokens that a lexer hands out

`Lexer.Hands l ts m` says that the lexer `l` hands out the tokens `ts` and is `m` then;
`Lexer.Yields l ts` says that it hands out `ts` and comes to the end of the source, without an
error.  Main statement: parsing a text succeeds exactly if its lexer comes to the end and the
rules read the tokens (`parse_eq_ok_iff`).
-/
import Brace.Proofs.Parser.Agreement

namespace Brace

namespace Lexer

/-! ## Handing out tokens -/

/-- The lexer hands out tokens one after the other, without an error. -/
inductive Hands : Lexer → List Token → Lexer → Prop where
  /-- No tokens. -/
  | nil (l : Lexer) : Hands l [] l
  /-- One more token. -/
  | cons {l m k : Lexer} {t : Token} {ts : List Token} :
      l.next = (.ok t, m) → t ≠ .eof → Hands m ts k → Hands l (t :: ts) k

/-- The lexer hands out tokens and then comes to the end of the source, without an error. -/
inductive Yields : Lexer → List Token → Prop where
  /-- The end of the source. -/
  | eof {l m : Lexer} : l.next = (.ok .eof, m) → Yields l []
  /-- One more token. -/
  | cons {l m : Lexer} {t : Token} {ts : List Token} :
      l.next = (.ok t, m) → t ≠ .eof → Yields m ts → Yields l (t :: ts)

/-- A token is handed out where it is read, and is remembered. -/
theorem next_eq_ok_iff {l m : Lexer} {t : Token} :
    l.next = (.ok t, m) ↔ ∃ k, l.read = (.ok t, k) ∧ m = k.remember t := by
  unfold next
  constructor
  · intro h
    split at h
    · next u k hr =>
      cases h
      exact ⟨k, hr, rfl⟩
    · cases h
  · rintro ⟨k, hr, rfl⟩
    rw [hr]

theorem Hands.append {l m k : Lexer} {ts us : List Token} (h : Hands l ts m) (h' : Hands m us k) :
    Hands l (ts ++ us) k := by
  induction h with
  | nil => exact h'
  | cons hn ht _ ih => exact .cons hn ht (ih h')

/-- A lexer that hands out tokens and then comes to the end comes to the end with all of them. -/
theorem Hands.yields {l m : Lexer} {ts us : List Token} (h : Hands l ts m) (h' : Yields m us) :
    Yields l (ts ++ us) := by
  induction h with
  | nil => exact h'
  | cons hn ht _ ih => exact .cons hn ht (ih h')

/-- What has been handed out is at the front of all that is handed out. -/
theorem Hands.exists_yields {l m : Lexer} {ts us : List Token} (h : l.Hands ts m)
    (hy : l.Yields us) : ∃ vs, us = ts ++ vs ∧ m.Yields vs := by
  induction h generalizing us with
  | nil => exact ⟨us, rfl, hy⟩
  | cons hn ht _ ih =>
    cases hy with
    | eof hn' =>
      cases hn.symm.trans hn'
      exact absurd rfl ht
    | cons hn' _ hy =>
      cases hn.symm.trans hn'
      obtain ⟨vs, rfl, hm⟩ := ih hy
      exact ⟨vs, rfl, hm⟩

/-! ## The stream of a lexer -/

/-- At the end of the source nothing lies ahead. -/
theorem stream_of_eof {l m : Lexer} (h : l.next = (.ok .eof, m)) :
    l.stream = ⟨[], .eof m.position⟩ := by
  rw [stream]
  split
  · next t m' h' =>
    obtain ⟨ht, rfl⟩ := Prod.mk.inj (h.symm.trans h')
    obtain rfl := Except.ok.inj ht
    rw [dif_pos rfl]
  · next h' => cases h.symm.trans h'

/-- A token that is handed out lies ahead, and behind it what the next lexer hands out. -/
theorem stream_of_ok {l m : Lexer} {t : Token} (h : l.next = (.ok t, m)) (ht : t ≠ .eof) :
    l.stream = m.stream.cons (.ok (t, m.position)) := by
  rw [stream]
  split
  · next t' m' h' =>
    obtain ⟨ht', rfl⟩ := Prod.mk.inj (h.symm.trans h')
    obtain rfl := Except.ok.inj ht'
    rw [dif_neg ht]
  · next h' => cases h.symm.trans h'

/-- An error lies ahead, and reading goes on behind it if characters have been passed. -/
theorem stream_of_error {l m : Lexer} {e : LexError} (h : l.next = (.error e, m)) :
    l.stream = if m.size < l.size then m.stream.cons (.error e) else ⟨[], .stuck e⟩ := by
  rw [stream]
  split
  · next h' => cases h.symm.trans h'
  · next e' m' h' =>
    obtain ⟨he, rfl⟩ := Prod.mk.inj (h.symm.trans h')
    obtain rfl := Except.error.inj he
    rfl

/-- A lexer comes to the end of the source exactly if its stream has no error; the tokens of the
stream are the ones that it hands out. -/
theorem yields_iff (l : Lexer) (ts : List Token) :
    l.Yields ts ↔ Closed l.stream.ending l.stream.ahead ∧ tokensOf l.stream.ahead = ts := by
  -- Both sides go on with the lexer behind the next answer, where less is left.
  induction hk : l.size using Nat.strongRecOn generalizing l ts with
  | ind k ih =>
    -- The next answer is the end, a token or an error, and each decides on both sides.
    cases hn : l.next with
    | mk answer m =>
      cases answer with
      | ok t =>
        by_cases ht : t = .eof
        · subst ht
          rw [stream_of_eof hn]
          constructor
          · intro h
            cases h with
            | eof => exact ⟨⟨_, rfl⟩, rfl⟩
            | cons hn' hne _ =>
              cases hn.symm.trans hn'
              exact absurd rfl hne
          · rintro ⟨-, rfl⟩
            exact .eof hn
        · rw [stream_of_ok hn ht]
          have hm := ih m.size (by have := size_next_lt hn ht; omega) m
          simp only [TokenStream.cons, Closed, tokensOf, ht, false_or, if_false]
          constructor
          · intro h
            cases h with
            | eof hn' =>
              cases hn.symm.trans hn'
              exact absurd rfl ht
            | cons hn' _ hy =>
              cases hn.symm.trans hn'
              obtain ⟨hc, rfl⟩ := (hm _ rfl).mp hy
              exact ⟨hc, rfl⟩
          · rintro ⟨hc, rfl⟩
            exact .cons hn ht ((hm _ rfl).mpr ⟨hc, rfl⟩)
      | error e =>
        have hno : ¬ l.Yields ts := by
          intro h
          cases h with
          | eof hn' => cases hn.symm.trans hn'
          | cons hn' _ _ => cases hn.symm.trans hn'
        rw [stream_of_error hn]
        split
        · simp [TokenStream.cons, Closed, hno]
        · simp [Closed, hno]

end Lexer

/-! ## Parsing -/

/-- A parser starts with the first token. -/
theorem Parser.start_eq_ok_iff {stream : TokenStream} {s : Parser} :
    Parser.start stream = .ok s ↔ stream.next = (.ok (s.current, s.position), s.stream) := by
  obtain ⟨current, position, rest⟩ := s
  unfold Parser.start
  split
  · next t p stream' h => simp [h, and_assoc]
  · next e stream' h => simp [h]

/-- Where a lexer comes to the end of a text, a parser starts with its tokens and nothing else lies
ahead. -/
theorem Lexer.Yields.exists_start {source : String} {ts : List Token}
    (h : (Lexer.ofString source).Yields ts) :
    ∃ s, Parser.start (TokenStream.ofString source) = .ok s ∧ s.Clean ∧ s.tokens = ts := by
  obtain ⟨hc, rfl⟩ := (Lexer.yields_iff _ _).mp h
  obtain ⟨s, hs⟩ := Parser.exists_next_of_closed hc
  obtain ⟨htokens, hclean⟩ := Parser.tokens_of_next hs
  exact ⟨s, Parser.start_eq_ok_iff.mpr hs, hclean.mpr hc, htokens⟩

/-- A text is parsed exactly if its lexer comes to the end of the text without an error and the
rules read all of its tokens as a program. -/
theorem parse_eq_ok_iff {source : String} {a : Node} :
    parse source = .ok a ↔ ∃ ts, (Lexer.ofString source).Yields ts ∧ ReadsProgram ts a := by
  have hparse : parse source = .ok a ↔ ∃ s, Parser.start (TokenStream.ofString source) = .ok s ∧
      s.program.toExcept = .ok a := by
    unfold parse
    cases Parser.start (TokenStream.ofString source) with
    | error e => simp [bind, Except.bind]
    | ok s => simp [bind, Except.bind]
  rw [hparse]
  constructor
  · rintro ⟨s, hs, h⟩
    obtain ⟨htokens, hclean⟩ := Parser.tokens_of_next (Parser.start_eq_ok_iff.mp hs)
    obtain ⟨hc, hr⟩ := gives_program_iff.mp (Parsed.toExcept_eq_ok_iff.mp h)
    exact ⟨s.tokens, (Lexer.yields_iff _ _).mpr ⟨hclean.mp hc, htokens.symm⟩, hr⟩
  · rintro ⟨ts, hy, hr⟩
    obtain ⟨s, hs, hclean, rfl⟩ := hy.exists_start
    exact ⟨s, hs, Parsed.toExcept_eq_ok_iff.mpr (gives_program_iff.mpr ⟨hclean, hr⟩)⟩

end Brace
