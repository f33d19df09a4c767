/-
# What a lexer looks back at

Between two tokens a lexer remembers its modes, and of the token that was handed out last whether an
operand is expected behind it.  Both are determined by the tokens handed out so far
(`Lookback.after`).  What is remembered decides how a slash is read: `Token.Agrees` says which
tokens are possible.  Main statement: the tokens of every text agree with what is remembered in
front of them (`aligned_tokensOf`), also those in front of a malformed token.
-/
import Brace.Proofs.Token.Lexical

namespace Brace

/-! ## What is remembered -/

/-- What a lexer remembers between two tokens. -/
structure Lookback where
  /-- The modes, the innermost one first. -/
  modes : List Mode
  /-- Whether a slash begins a regular expression. -/
  operand : Bool

/-- What is remembered behind a token. -/
def Lookback.after (b : Lookback) (t : Token) : Lookback := ⟨Mode.after b.modes t, t.expectsOperand⟩

@[simp]
theorem Lookback.modes_after (b : Lookback) (t : Token) :
    (b.after t).modes = Mode.after b.modes t := rfl

/-- What is remembered at the start of a text. -/
def Lookback.start : Lookback := ⟨[.expression], true⟩

/-- A token that can be handed out with the given memory. -/
structure Token.Agrees (b : Lookback) (t : Token) : Prop where
  /-- In a template there are only pieces of text, interpolations, and the closing back-quote. -/
  template : b.modes.head? = some .template →
    (∃ s, t = .string s) ∨ t = .punct .leftBrace ∨ t = .punct .backquote
  /-- A slash is an operator only where no operand is expected. -/
  slash : t = .operator .slash → b.operand = false
  /-- A regular expression stands only where an operand is expected. -/
  regexp : ∀ pattern flags, t = .regexp pattern flags → b.operand = true

/-- Tokens that agree with what is remembered in front of each of them. -/
def Aligned : Lookback → List Token → Prop
  | _, [] => True
  | b, t :: ts => t.Agrees b ∧ Aligned (b.after t) ts

/-- Passing tokens takes one memory to another. -/
inductive Moves : Lookback → List Token → Lookback → List Token → Prop where
  /-- No tokens. -/
  | refl (b : Lookback) (ts : List Token) : Moves b ts b ts
  /-- One more token. -/
  | cons {b b' : Lookback} {t : Token} {ts us : List Token} :
      Moves (b.after t) ts b' us → Moves b (t :: ts) b' us

namespace Moves

variable {b b' b'' : Lookback} {t : Token} {ts us vs : List Token}

theorem trans (h : Moves b ts b' us) (h' : Moves b' us b'' vs) : Moves b ts b'' vs := by
  induction h with
  | refl => exact h'
  | cons _ ih => exact .cons (ih h')

theorem snoc (h : Moves b ts b' (t :: us)) : Moves b ts (b'.after t) us :=
  h.trans (.cons (.refl _ _))

/-- Where tokens agree with what is remembered, those behind the first ones do. -/
theorem aligned (h : Moves b ts b' us) (ha : Aligned b ts) : Aligned b' us := by
  induction h with
  | refl => exact ha
  | cons _ ih => exact ih ha.2

/-- The tokens that are passed decide about the memory behind them. -/
theorem exists_used (h : Moves b ts b' us) :
    ∃ used, ts = used ++ us ∧ b' = used.foldl Lookback.after b := by
  induction h with
  | refl b ts => exact ⟨[], rfl, rfl⟩
  | @cons b b' t ts us _ ih =>
    obtain ⟨used, rfl, hb⟩ := ih
    exact ⟨t :: used, rfl, hb⟩

end Moves

/-- The token at the front agrees, as the end of the source always does. -/
theorem Aligned.front_agrees {b : Lookback} {ts : List Token} (h : Aligned b ts) :
    front ts = .eof ∨ (front ts).Agrees b := by
  cases ts with
  | nil => exact Or.inl rfl
  | cons => exact Or.inr h.1

/-- In an expression every token agrees, apart from slashes and regular expressions. -/
theorem agrees_of_plain {b : Lookback} {t : Token} (hm : Mode.InExpression b.modes)
    (hs : t ≠ .operator .slash) (hr : ∀ pattern flags, t ≠ .regexp pattern flags) : t.Agrees b :=
  ⟨fun h => absurd h hm, fun h => absurd h hs, fun p f h => absurd h (hr p f)⟩

/-! ## One token -/

namespace Lexer

/-- What a lexer remembers. -/
def lookback (l : Lexer) : Lookback := ⟨l.inner, l.atOperand⟩

/-- In the modes at the start, no brace is held back. -/
theorem Settled.held_eq_false {l : Lexer} (h : l.Settled)
    (hm : l.lookback.modes = [.expression]) : l.held = false := by
  refine Bool.eq_false_iff.mpr fun hh => ?_
  obtain ⟨outer, ho⟩ := h hh
  rw [lookback, inner, if_pos hh, ho] at hm
  cases hm

/-- An answer is an error, or a token that agrees with what the lexer remembers. -/
def Answers (l : Lexer) (r : Except LexError Token × Lexer) : Prop :=
  ∀ t, r.1 = .ok t → t.Agrees l.lookback

theorem answers_refuse (l l' : Lexer) (n : Nat) (fault : LexFault) :
    l.Answers (l'.refuse n fault) := fun _ h => nomatch h

theorem answers_emit {l l' : Lexer} {n : Nat} {t : Token} (h : t.Agrees l.lookback) :
    l.Answers (l'.emit n t) := by
  intro u hu
  obtain rfl : t = u := Except.ok.inj hu
  exact h

/-- What is read in an expression agrees with what is remembered. -/
theorem ReadsFrom.answers {l : Lexer} {c : Char} {rest : List Char}
    {r : Except LexError Token × Lexer} (h : l.ReadsFrom c rest r) (hh : l.held = false)
    (hm : Mode.InExpression l.modes) : l.Answers r := by
  have hin : Mode.InExpression l.lookback.modes := by
    rw [lookback, inner_of_not_held hh]
    exact hm
  have emits {l' : Lexer} {n : Nat} {t : Token} (hs : t ≠ .operator .slash)
      (hr : ∀ pattern flags, t ≠ .regexp pattern flags) : l.Answers (l'.emit n t) :=
    answers_emit (agrees_of_plain hin hs hr)
  cases h with
  | openString | doubleDot | openRegExp | badFlags | badCharacter => exact answers_refuse _ _ _ _
  | word => exact emits (ofWord_ne _).1 (ofWord_ne _).2.1
  | regexp _ ha _ _ =>
    -- A regular expression is only tried where an operand is expected.
    exact answers_emit ⟨fun h => absurd h hin, nofun, fun _ _ _ => ha⟩
  | comparisonEqual ho _ | comparison ho _ =>
    refine emits ?_ nofun
    rcases ho with ⟨-, rfl⟩ | ⟨-, rfl⟩ <;> nofun
  | @operator o hslash ho =>
    refine answers_emit ⟨fun h => absurd h hin, fun he => ?_, nofun⟩
    obtain rfl : o = .slash := Token.operator.inj he
    refine hslash ?_
    unfold Operator.ofChar? at ho
    split at ho <;> first | rfl | cases ho
  | _ => exact emits nofun nofun

/-- What is read in a template agrees with what is remembered. -/
theorem ReadsTemplate.answers {l : Lexer} {r : Except LexError Token × Lexer}
    (h : l.ReadsTemplate r) : l.Answers r := by
  cases h with
  | endOfSource => exact answers_refuse _ _ _ _
  | backquote => exact answers_emit ⟨fun _ => Or.inr (Or.inr rfl), nofun, nofun⟩
  | text => exact answers_emit ⟨fun _ => Or.inl ⟨_, rfl⟩, nofun, nofun⟩
  | brace => exact answers_emit ⟨fun _ => Or.inr (Or.inl rfl), nofun, nofun⟩
  | textAndBrace => exact answers_emit ⟨fun _ => Or.inl ⟨_, rfl⟩, nofun, nofun⟩

/-- Whatever is read agrees with what is remembered. -/
theorem answers_read (l : Lexer) : l.Answers l.read := by
  have h := l.readsToken
  generalize l.read = r at h ⊢
  cases h with
  | held => exact answers_emit ⟨fun _ => Or.inr (Or.inl rfl), nofun, nofun⟩
  | template _ _ h => exact h.answers
  | openInterpolation => exact answers_refuse _ _ _ _
  | eof hh hmode _ _ _ =>
    refine answers_emit (agrees_of_plain ?_ nofun nofun)
    rw [lookback, inner_of_not_held hh]
    exact inExpression_iff.mpr hmode
  | expression hh hmode hk _ h =>
    subst hk
    exact h.answers hh (inExpression_iff.mpr hmode)

/-- A token that is handed out agrees, and is remembered. -/
theorem next_agrees {l m : Lexer} {t : Token} (hs : l.Settled) (h : l.next = (.ok t, m)) :
    t.Agrees l.lookback ∧ m.Settled ∧ (t ≠ .eof → m.lookback = l.lookback.after t) := by
  have hfollows := follows_next hs t
  rw [h] at hfollows
  obtain ⟨hm, -, hi⟩ := hfollows rfl
  obtain ⟨k, hr, rfl⟩ := next_eq_ok_iff.mp h
  refine ⟨answers_read l t (by rw [hr]), hm, fun ht => ?_⟩
  have hoperand : (k.remember t).atOperand = t.expectsOperand := by
    rw [remember, if_neg ht]
    rfl
  show Lookback.mk _ _ = Lookback.mk _ _
  rw [hi, hoperand]
  rfl

/-! ## All tokens -/

/-- Tokens that are handed out agree, and are remembered. -/
theorem Hands.aligned {l m : Lexer} {ts : List Token} (h : l.Hands ts m) (hs : l.Settled) :
    Aligned l.lookback ts ∧ m.Settled ∧ m.lookback = ts.foldl Lookback.after l.lookback := by
  induction h with
  | nil l => exact ⟨trivial, hs, rfl⟩
  | cons hn ht _ ih =>
    obtain ⟨ha, hm, hl⟩ := next_agrees hs hn
    rw [hl ht] at ih
    obtain ⟨hall, hk⟩ := ih hm
    exact ⟨⟨ha, hall⟩, hk⟩

/-- A lexer hands out the tokens at the front of its stream. -/
theorem hands_tokensOf (l : Lexer) : ∃ m, l.Hands (tokensOf l.stream.ahead) m := by
  induction hk : l.size using Nat.strongRecOn generalizing l with
  | ind k ih =>
    cases hn : l.next with
    | mk answer m =>
      cases answer with
      | ok t =>
        by_cases ht : t = .eof
        · subst ht
          rw [stream_of_eof hn]
          exact ⟨l, .nil l⟩
        · obtain ⟨k, hands⟩ := ih m.size (by have := size_next_lt hn ht; omega) m rfl
          refine ⟨k, ?_⟩
          rw [stream_of_ok hn ht, TokenStream.cons, tokensOf, if_neg ht]
          exact .cons hn ht hands
      | error e =>
        rw [stream_of_error hn]
        split <;> exact ⟨l, .nil l⟩

end Lexer

/-- The tokens of a text agree with what is remembered in front of them. -/
theorem aligned_tokensOf (source : String) :
    Aligned .start (tokensOf (TokenStream.ofString source).ahead) := by
  obtain ⟨m, hands⟩ := (Lexer.ofString source).hands_tokensOf
  exact (hands.aligned (Lexer.settled_of_not_held rfl)).1

end Brace
