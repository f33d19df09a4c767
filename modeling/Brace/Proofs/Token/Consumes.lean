/-
# What is left of a text behind its tokens

A token is taken from the front of the characters, so what is left is an end of the text
(`Lexer.consumes_next`).  For a back-quote among the tokens, there is one among the characters
(`Lexer.Hands.count_le`).
-/
import Brace.Proofs.Token.Hands
import Brace.Proofs.Token.Lexical

namespace Brace

/-! ## One token -/

namespace Scan

/-- The text of a template that a back-quote ends is read up to it. -/
theorem drop_template {opened : Bool} {cs : List Char}
    (h : (template opened cs).stop = .backquote) :
    ∃ ds, cs.drop (template opened cs).length = '\x60' :: ds := by
  fun_induction template opened cs <;> simp_all [TemplateRun.after, ← List.drop_drop]

end Scan

namespace Lexer

/-- The back-quotes still to be read. -/
def backquotes (l : Lexer) : Nat := l.cursor.rest.count '\x60'

/-- An answer is an error, or a token from the front of the characters; for a back-quote a character
that is one has been passed. -/
def Consumes (l : Lexer) (r : Except LexError Token × Lexer) : Prop :=
  ∀ t, r.1 = .ok t → r.2.cursor.rest <:+ l.cursor.rest ∧
    (t = .punct .backquote → r.2.backquotes < l.backquotes)

theorem consumes_refuse (l l' : Lexer) (n : Nat) (fault : LexFault) :
    l.Consumes (l'.refuse n fault) := fun _ h => nomatch h

theorem consumes_emit {l l' : Lexer} {n : Nat} {t : Token} (hr : l'.cursor.rest <:+ l.cursor.rest)
    (ht : t ≠ .punct .backquote) : l.Consumes (l'.emit n t) := by
  intro u hu
  obtain rfl : t = u := Except.ok.inj hu
  exact ⟨(List.drop_suffix n _).trans hr, fun h => absurd h ht⟩

/-- A back-quote is taken together with its character. -/
theorem consumes_emit_backquote {l l' : Lexer} {n : Nat} {t : Token} {cs : List Char}
    (hr : l'.cursor.rest <:+ l.cursor.rest) (hn : l'.cursor.rest.drop n = '\x60' :: cs) :
    l.Consumes (l'.emit (n + 1) t) := by
  intro u _
  have hrest : (l'.emit (n + 1) t).2.cursor.rest = cs := by
    show l'.cursor.rest.drop (n + 1) = cs
    rw [← List.drop_drop, hn]
    rfl
  have hsuffix : '\x60' :: cs <:+ l.cursor.rest := hn ▸ (List.drop_suffix n _).trans hr
  have hcount := hsuffix.sublist.count_le '\x60'
  rw [List.count_cons_self] at hcount
  refine ⟨?_, fun _ => ?_⟩
  · rw [hrest]
    exact (List.suffix_cons _ _).trans hsuffix
  · unfold backquotes
    rw [hrest]
    exact hcount

/-- What is read from a template is taken from the front. -/
theorem ReadsTemplate.consumes {l : Lexer} {r : Except LexError Token × Lexer}
    (h : l.ReadsTemplate r) : l.Consumes r := by
  cases h with
  | endOfSource => exact consumes_refuse _ _ _ _
  | backquote hrun hstop _ =>
    subst hrun
    obtain ⟨cs, hcs⟩ := Scan.drop_template hstop
    exact consumes_emit_backquote (List.suffix_refl _) hcs
  | text | brace | textAndBrace => exact consumes_emit (List.suffix_refl _) (by simp)

/-- What is read from an expression is taken from the front. -/
theorem ReadsFrom.consumes {l k : Lexer} {c : Char} {rest : List Char}
    {r : Except LexError Token × Lexer} (h : k.ReadsFrom c rest r)
    (hk : k.cursor.rest <:+ l.cursor.rest) (hc : k.cursor.rest = c :: rest) : l.Consumes r := by
  cases h with
  | openString | doubleDot | openRegExp | badFlags | badCharacter => exact consumes_refuse _ _ _ _
  | word => exact consumes_emit hk ((ofWord_ne _).2.2.1 _)
  | backquote hquote =>
    have hrest : k.cursor.rest.drop 0 = '\x60' :: rest := hquote ▸ hc
    exact consumes_emit_backquote hk hrest
  | @punct p hquote _ _ hp =>
    refine consumes_emit hk fun he => hquote ?_
    obtain rfl : p = .backquote := Token.punct.inj he
    have hchar := List.find?_some hp
    simpa [Punct.char, eq_comm] using hchar
  | _ => exact consumes_emit hk (by simp)

/-- Whatever is read is taken from the front. -/
theorem consumes_read (l : Lexer) : l.Consumes l.read := by
  have h := l.readsToken
  generalize l.read = r at h ⊢
  cases h with
  | held => exact consumes_emit (List.suffix_refl _) (by simp)
  | template _ _ h => exact h.consumes
  | openInterpolation => exact consumes_refuse _ _ _ _
  | eof _ _ _ hk =>
    subst hk
    exact consumes_emit (List.drop_suffix _ _) (by simp)
  | expression _ _ hk hc h =>
    subst hk
    exact h.consumes (List.drop_suffix _ _) hc

/-- A token takes characters from the front, and a back-quote takes one of the back-quotes. -/
theorem consumes_next {l m : Lexer} {t : Token} (h : l.next = (.ok t, m)) :
    m.cursor.rest <:+ l.cursor.rest ∧ (t = .punct .backquote → m.backquotes < l.backquotes) := by
  obtain ⟨k, hr, rfl⟩ := next_eq_ok_iff.mp h
  have hread := consumes_read l t (by rw [hr])
  rw [hr] at hread
  rw [backquotes, cursor_remember]
  exact hread

/-! ## Several tokens -/

/-- There are at least as many back-quotes among the characters as among the tokens. -/
theorem Hands.count_le {l m : Lexer} {ts : List Token} (h : l.Hands ts m) :
    m.cursor.rest <:+ l.cursor.rest ∧
      ts.count (.punct .backquote) + m.backquotes ≤ l.backquotes := by
  induction h with
  | nil l => exact ⟨List.suffix_refl _, by simp⟩
  | @cons l m k t ts hn _ _ ih =>
    obtain ⟨hsuffix, hcount⟩ := ih
    obtain ⟨hrest, hquote⟩ := consumes_next hn
    refine ⟨hsuffix.trans hrest, ?_⟩
    -- A back-quote that is handed out is one character less.
    by_cases ht : t = .punct .backquote
    · have hlt := hquote ht
      rw [ht, List.count_cons_self]
      omega
    · have hle : m.backquotes ≤ l.backquotes := hrest.sublist.count_le _
      rw [List.count_cons_of_ne ht]
      omega

/-- What is handed out up to the end of the source is handed out part by part. -/
theorem Yields.split {l : Lexer} {ts us : List Token} (h : l.Yields (ts ++ us)) :
    ∃ m, l.Hands ts m ∧ m.Yields us := by
  induction ts generalizing l with
  | nil => exact ⟨l, .nil l, h⟩
  | cons t ts ih =>
    cases h with
    | cons hn ht h =>
      obtain ⟨m, hands, hm⟩ := ih h
      exact ⟨m, .cons hn ht hands, hm⟩

/-- Where no characters and no brace are left, no tokens are. -/
theorem Yields.eq_nil {l : Lexer} {ts : List Token} (h : l.Yields ts) (hr : l.cursor.rest = [])
    (hh : l.held = false) : ts = [] := by
  cases h with
  | eof => rfl
  | cons hn ht _ =>
    have hlt := size_next_lt hn ht
    simp [size, hr, hh] at hlt

end Lexer

end Brace
