/-
# The results of reading functions

A `Parsed` carries the bound by which the grammar's recursion terminates.  `Parsed.Gives` forgets
the bound: it relates an answer to its result and to the parser behind it.  How results are
composed is said once, in `gives_andThen`, so that no later proof takes an answer apart.

A parser is then seen as the list of the tokens that it can still pass, `Parser.tokens`, and
`Parser.Clean` says that nothing but these tokens and the end of the source lies ahead.
-/
import Brace.Parser.Text

namespace Brace

/-! ## Results without their bounds -/

namespace Parsed

variable {m n : Nat} {α β : Type}

/-- The answer is the result `a` with the parser `t` behind it. -/
def Gives (r : Parsed n α) (a : α) (t : Parser) : Prop := ∃ h, r = .done a t h

@[simp]
theorem gives_done {a b : α} {t u : Parser} (h : t.size < n) :
    (done a t h).Gives b u ↔ a = b ∧ t = u := by
  constructor
  · rintro ⟨_, hd⟩
    cases hd
    exact ⟨rfl, rfl⟩
  · rintro ⟨rfl, rfl⟩
    exact ⟨h, rfl⟩

/-- A fault gives no result. -/
@[simp]
theorem gives_fail {e : ParseError} {s t : Parser} {a : α} :
    ¬ (fail e s : Parsed n α).Gives a t := by
  rintro ⟨_, hd⟩
  cases hd

/-- The parser behind a result respects the bound of the answer. -/
theorem Gives.lt {r : Parsed n α} {a : α} {t : Parser} (h : r.Gives a t) : t.size < n := h.1

/-- One step after the other: the second one goes on where the first one ends. -/
theorem gives_andThen {r : Parsed m α} {k : (a : α) → (t : Parser) → t.size < m → Parsed n β}
    {b : β} {u : Parser} :
    (r.andThen k).Gives b u ↔ ∃ a t, ∃ h : t.size < m, r.Gives a t ∧ (k a t h).Gives b u := by
  constructor
  · intro h
    cases r with
    | fail e s => exact absurd h gives_fail
    | done a t ht => exact ⟨a, t, ht, ⟨ht, rfl⟩, h⟩
  · rintro ⟨a, t, _, ⟨_, rfl⟩, h⟩
    exact h

/-- Where the second step only makes something of the first result, it ends where the first one
does. -/
theorem gives_andThen_done {f : α → β} {r : Parsed m α}
    {hle : α → ∀ t : Parser, t.size < m → t.size < n} {b : β} {u : Parser} :
    (r.andThen fun a t h => .done (f a) t (hle a t h)).Gives b u ↔ ∃ a, r.Gives a u ∧ f a = b := by
  rw [gives_andThen]
  constructor
  · rintro ⟨a, t, _, hr, hd⟩
    obtain ⟨hb, rfl⟩ := (gives_done _).mp hd
    exact ⟨a, hr, hb⟩
  · rintro ⟨a, hr, rfl⟩
    exact ⟨a, u, hr.lt, hr, by simp⟩

/-- A weaker bound gives the same result. -/
@[simp]
theorem gives_weaken {r : Parsed m α} {h : m ≤ n} {a : α} {t : Parser} :
    (r.weaken h).Gives a t ↔ r.Gives a t := by
  rw [weaken, gives_andThen_done]
  simp

theorem gives_map {f : α → β} {r : Parsed n α} {b : β} {t : Parser} :
    (r.map f).Gives b t ↔ ∃ a, r.Gives a t ∧ f a = b := by
  rw [map, gives_andThen_done]

/-- An answer without its state is a result exactly if it gives one. -/
theorem toExcept_eq_ok_iff {r : Parsed n α} {a : α} :
    r.toExcept = .ok a ↔ ∃ t, r.Gives a t := by
  cases r with
  | fail e s => simp [toExcept]
  | done b s h =>
    simp only [toExcept, gives_done, Except.ok.injEq]
    exact ⟨fun hb => ⟨s, hb, rfl⟩, fun ⟨_, hb, _⟩ => hb⟩

end Parsed

/-! ## The tokens ahead -/

/-- The tokens at the front of the answers of a lexer, up to an error or the end of the source. -/
def tokensOf : List Lexeme → List Token
  | .ok (t, _) :: rest => if t = .eof then [] else t :: tokensOf rest
  | _ => []

/-- The answers of a lexer come to the end of the source without an error. -/
def Closed (ending : Ending) : List Lexeme → Prop
  | .ok (t, _) :: rest => t = .eof ∨ Closed ending rest
  | .error _ :: _ => False
  | [] => ∃ p, ending = .eof p

/-- The token at the front of a list; the end of the source if there is none. -/
def front : List Token → Token
  | [] => .eof
  | t :: _ => t

@[simp]
theorem front_nil : front [] = .eof := rfl

@[simp]
theorem front_cons (t : Token) (ts : List Token) : front (t :: ts) = t := rfl

namespace Parser

/-- The tokens that a parser can still pass, the current one first. -/
def tokens (s : Parser) : List Token :=
  if s.current = .eof then [] else s.current :: tokensOf s.stream.ahead

/-- Nothing but tokens lies ahead, and then the end of the source. -/
def Clean (s : Parser) : Prop := s.current = .eof ∨ Closed s.stream.ending s.stream.ahead

/-- The front of the tokens is the current one. -/
theorem front_tokens (s : Parser) : front s.tokens = s.current := by
  unfold tokens
  split
  · next h => exact h.symm
  · rfl

theorem tokens_eq_cons {s : Parser} (h : s.current ≠ .eof) :
    s.tokens = s.current :: tokensOf s.stream.ahead := by
  simp [tokens, h]

theorem current_ne_eof_of_tokens_eq_cons {s : Parser} {t : Token} {ts : List Token}
    (h : s.tokens = t :: ts) : s.current ≠ .eof := by
  intro he
  simp [tokens, he] at h

/-! ## Passing a token -/

/-- The parser `t` stands one token behind the parser `s`. -/
def Passes (s t : Parser) : Prop :=
  s.current ≠ .eof ∧ s.stream.next = (.ok (t.current, t.position), t.stream)

/-- One step gives a result if the current token is passed. -/
theorem gives_advance {s t : Parser} {h : s.current ≠ .eof} {u : Unit} :
    (s.advance h).Gives u t ↔ s.Passes t := by
  unfold advance Passes
  split
  · next e stream he =>
    simp [he]
  · next c p stream hc =>
    rw [Parsed.gives_done, hc]
    constructor
    · rintro ⟨_, rfl⟩
      exact ⟨h, rfl⟩
    · rintro ⟨_, ht⟩
      obtain ⟨c', p', stream'⟩ := t
      simp only [Prod.mk.injEq, Except.ok.injEq] at ht
      obtain ⟨⟨rfl, rfl⟩, rfl⟩ := ht
      exact ⟨rfl, rfl⟩

/-- Punctuation that is expected is passed if it is there. -/
theorem gives_expect {p : Punct} {s t : Parser} {u : Unit} :
    (s.expect p).Gives u t ↔ s.current = .punct p ∧ s.Passes t := by
  unfold expect
  split
  · next h => simp [gives_advance, h]
  · next h => simp [h]

/-- The parser at the next token of a stream sees the tokens of the stream, and nothing else lies
ahead of it exactly if nothing else lies in the stream. -/
theorem tokens_of_next {stream : TokenStream} {t : Parser}
    (h : stream.next = (.ok (t.current, t.position), t.stream)) :
    t.tokens = tokensOf stream.ahead ∧ (t.Clean ↔ Closed stream.ending stream.ahead) := by
  unfold TokenStream.next at h
  split at h
  · next x ahead hx =>
    obtain ⟨rfl, hs⟩ := Prod.mk.inj h
    rw [hx, Parser.tokens, Clean, ← hs]
    exact ⟨rfl, Iff.rfl⟩
  · next position hx hp =>
    obtain ⟨he, -⟩ := Prod.mk.inj h
    -- Nothing is ahead, so the parser gets the end of the source.
    have ht : t.current = .eof := by
      simp only [Except.ok.injEq, Prod.mk.injEq] at he
      exact he.1.symm
    rw [hx, Parser.tokens, if_pos ht, Closed]
    exact ⟨rfl, fun _ => ⟨position, hp⟩, fun _ => Or.inl ht⟩
  · next e hx _ =>
    -- An error of the lexer is ahead, so the parser gets no token.
    cases (Prod.mk.inj h).1

/-- A stream without errors has a next token. -/
theorem exists_next_of_closed {stream : TokenStream} (h : Closed stream.ending stream.ahead) :
    ∃ t : Parser, stream.next = (.ok (t.current, t.position), t.stream) := by
  cases ha : stream.ahead with
  | nil =>
    rw [ha, Closed] at h
    obtain ⟨p, hp⟩ := h
    exact ⟨⟨.eof, p, stream⟩, by simp [TokenStream.next, ha, hp]⟩
  | cons x ahead =>
    rw [ha] at h
    cases x with
    -- A stream that is closed has no error ahead.
    | error e => exact h.elim
    | ok y => exact ⟨⟨y.1, y.2, ⟨ahead, stream.ending⟩⟩, by simp [TokenStream.next, ha]⟩

/-- Passing a token takes it off the list. -/
theorem Passes.tokens {s t : Parser} (h : s.Passes t) : s.tokens = s.current :: t.tokens := by
  rw [tokens_eq_cons h.1, (tokens_of_next h.2).1]

/-- An error ahead stays ahead. -/
theorem Passes.clean {s t : Parser} (h : s.Passes t) (ht : t.Clean) : s.Clean :=
  Or.inr ((tokens_of_next h.2).2.mp ht)

/-- Where nothing but tokens lies ahead, the current one can be passed. -/
theorem Clean.passes {s : Parser} (hs : s.Clean) (h : s.current ≠ .eof) :
    ∃ t, s.Passes t ∧ t.Clean := by
  have hc := hs.resolve_left h
  obtain ⟨t, ht⟩ := exists_next_of_closed hc
  exact ⟨t, ⟨h, ht⟩, (tokens_of_next ht).2.mpr hc⟩

end Parser

end Brace
