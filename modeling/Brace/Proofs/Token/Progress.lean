/-
# What a call of a lexer takes

`Lexer.Takes l r` lists all that reading a token can do to a lexer, one rule for each kind of
answer.  What is left to a lexer, the characters still to be read and a brace that is held back,
bounds the tokens that it can hand out: each of them uses up one at least
(`Lexer.length_tokensAmong_le`).  Behind the end of the source a lexer stays where it is
(`Lexer.next_of_eof`).  So the stream of the answers follows the lexer call by call
(`Lexer.next_stream`).
-/
import Brace.Proofs.Token.Padding

namespace Brace

namespace Scan

/-- The brace that ends the text of a template is taken in addition to the text, unless it stands in
front. -/
theorem template_text_length_add_le {opened : Bool} {cs : List Char}
    (h : (template opened cs).stop = .interpolation) :
    (template opened cs).text.length + (!opened).toNat ≤ (template opened cs).length := by
  fun_induction template opened cs with
  | case1 => exact Nat.le_refl 0
  | case4 => exact Nat.le_refl 0
  | case5 => cases h
  | case9 => cases h
  | case2 _ _ _ ih | case3 _ _ ih | case6 _ ih | case7 _ ih | case8 _ ih | case10 _ _ _ _ _ ih
  | case11 _ _ _ _ _ _ _ ih =>
    have hle := ih h
    simp only [TemplateRun.after, List.length_append, List.length_cons, List.length_nil,
      Bool.not_true, Bool.not_false, Bool.toNat_true, Bool.toNat_false] at hle ⊢
    omega

end Scan

namespace Lexer

variable {l m : Lexer} {r : Except LexError Token × Lexer} {t : Token}

/-! ## One call -/

/-- All that reading a token can do to a lexer. -/
inductive Takes (l : Lexer) : Except LexError Token × Lexer → Prop where
  /-- A brace that is held back is handed out. -/
  | held : l.held = true → Takes l ({ l with held := false }.emit 0 (.punct .leftBrace))
  /-- Some characters are taken and a fault is reported. -/
  | refused (n : Nat) (fault : LexFault) : l.held = false → Takes l (l.refuse n fault)
  /-- All that is left is taken, and is no token. -/
  | eof : l.held = false → Takes l (l.emit l.cursor.rest.length .eof)
  /-- A token is read from one character or more. -/
  | token (modes : List Mode) {n : Nat} {t : Token} : l.held = false → 0 < n →
      l.cursor.rest ≠ [] → t ≠ .eof → Takes l ({ l with modes := modes }.emit n t)
  /-- The text of a template is read, and the brace behind it, which is held back. -/
  | text {n : Nat} (s : String) : l.held = false → 1 < n → n ≤ l.cursor.rest.length →
      Takes l ({ l with modes := .interpolation 0 :: l.modes, held := true }.emit n (.string s))

/-- A piece of the text of a template takes a character at least, and an opening brace behind it is
held back. -/
theorem ReadsTemplate.takes (h : l.ReadsTemplate r) (hh : l.held = false) : l.Takes r := by
  -- The bounds on a run of text from which the bounds on the characters taken follow in each case.
  have hle := Scan.template_length_le false l.cursor.rest
  have htext := Scan.template_text_length_le false l.cursor.rest
  have hquote := Scan.template_length_lt false l.cursor.rest
  have hbrace := @Scan.template_text_length_add_le false l.cursor.rest
  have hne {n : Nat} (h : n < l.cursor.rest.length) : l.cursor.rest ≠ [] :=
    List.length_pos_iff.mp (Nat.zero_lt_of_lt h)
  cases h with
  | endOfSource => exact .refused _ _ hh
  | backquote hrun hstop _ =>
    subst hrun
    exact .token _ hh (Nat.succ_pos _) (hne (hquote hstop)) (by simp)
  | text hrun hstop hsome =>
    subst hrun
    have hpos := List.length_pos_iff.mpr hsome
    exact .token l.modes hh (by omega) (hne (hquote hstop)) (by simp)
  | brace hrun hstop _ =>
    subst hrun
    have hlt := Nat.lt_of_lt_of_le (Nat.zero_lt_succ _) (hbrace hstop)
    exact .token _ hh hlt (hne (n := 0) (Nat.lt_of_lt_of_le hlt hle)) (by simp)
  | textAndBrace hrun hstop hsome =>
    subst hrun
    have hpos := List.length_pos_iff.mpr hsome
    -- The text is handed out first, and the brace behind it is taken but held back.
    exact .text _ hh (Nat.lt_of_lt_of_le (Nat.succ_lt_succ hpos) (hbrace hstop)) hle

/-- Characters are taken one after the other. -/
theorem emit_forward (l : Lexer) (modes : List Mode) (k n : Nat) (t : Token) :
    { l.forward k with modes := modes }.emit n t = { l with modes := modes }.emit (k + n) t := by
  simp only [emit, forward, Cursor.forward_forward]

/-- An error further on in the text, seen from where the layout began. -/
theorem refuse_forward (l : Lexer) (k n : Nat) (fault : LexFault) :
    (l.forward k).refuse n fault = l.refuse (k + n) fault := by
  simp only [refuse, forward, Cursor.forward_forward]

/-- A token is read behind `k` characters of layout. -/
theorem ReadsFrom.takes {k : Nat} {c : Char} {rest : List Char}
    (h : (l.forward k).ReadsFrom c rest r) (hh : l.held = false)
    (hk : (l.forward k).cursor.rest = c :: rest) : l.Takes r := by
  -- There is a character behind the layout, so the text is not empty.
  have hne : l.cursor.rest ≠ [] := by
    intro hnil
    rw [forward, Cursor.forward_rest, hnil, List.drop_nil] at hk
    cases hk
  -- The layout counts to what is taken for the token.
  have emits (modes : List Mode) {n : Nat} {t : Token} (hn : 0 < n) (ht : t ≠ .eof) :
      l.Takes ({ l.forward k with modes := modes }.emit n t) := by
    rw [emit_forward]
    exact .token modes hh (Nat.add_pos_right k hn) hne ht
  have refuses (n : Nat) (fault : LexFault) : l.Takes ((l.forward k).refuse n fault) := by
    rw [refuse_forward]
    exact .refused _ _ hh
  cases h with
  | openString | doubleDot | openRegExp | badFlags | badCharacter => exact refuses _ _
  | number hc hn =>
    have hpos := number_length_pos hc rest
    rw [hn] at hpos
    exact emits l.modes hpos (by simp)
  | word => exact emits l.modes (Nat.succ_pos _) (ofWord_ne _).2.2.2
  | regexp => exact emits l.modes (by omega) (by simp)
  | comparisonEqual => exact emits l.modes Nat.two_pos (by simp)
  | backquote | leftBrace | rightBrace => exact emits _ Nat.one_pos (by simp)
  | string | comparison | punct | operator => exact emits l.modes (Nat.succ_pos _) (by simp)

/-- Where only layout is left, moving over it is moving to the end. -/
theorem layout_eq_length (h : (l.forward (Scan.layout false l.cursor.rest)).cursor.rest = []) :
    Scan.layout false l.cursor.rest = l.cursor.rest.length :=
  Nat.le_antisymm (Scan.layout_le false _) (List.drop_eq_nil_iff.mp h)

/-- What reading a token does is one of the listed things. -/
theorem takes_read (l : Lexer) : l.Takes l.read := by
  have h := l.readsToken
  generalize l.read = r at h ⊢
  cases h with
  | held hh => exact .held hh
  | template hh _ h => exact h.takes hh
  | openInterpolation hh _ hk _ =>
    subst hk
    rw [refuse_forward]
    exact .refused _ _ hh
  | eof hh _ _ hk hnil =>
    subst hk
    -- At the end of the source the layout is all that is taken.
    have hsum := emit_forward l l.modes (Scan.layout false l.cursor.rest) 0 .eof
    rw [Nat.add_zero, layout_eq_length hnil] at hsum
    rw [layout_eq_length hnil]
    exact hsum ▸ .eof hh
  | expression hh _ hk hc h =>
    subst hk
    exact h.takes hh hc

/-! ## Where a call stops -/

/-- Characters are taken from the front. -/
theorem Takes.cursor (h : l.Takes r) : ∃ n, r.2.cursor = l.cursor.forward n := by
  cases h with
  | held _ => exact ⟨0, rfl⟩
  | refused n _ _ => exact ⟨n, rfl⟩
  | eof _ => exact ⟨_, rfl⟩
  | @token _ n _ _ _ _ _ => exact ⟨n, rfl⟩
  | @text n _ _ _ _ => exact ⟨n, rfl⟩

/-- An error is reported where the lexer stops, and leaves everything but the cursor as it is. -/
theorem Takes.of_error {e : LexError} (h : l.Takes r) (he : r.1 = .error e) :
    e.position = r.2.position ∧ ∃ n, r.2 = l.forward n := by
  cases h with
  | refused n fault _ =>
    obtain rfl := Except.error.inj he
    exact ⟨rfl, n, rfl⟩
  | _ => cases he

theorem cursor_next (l : Lexer) : ∃ n, l.next.2.cursor = l.cursor.forward n := by
  have hread := (takes_read l).cursor
  unfold next
  split
  · next hr =>
    rw [hr] at hread
    rw [cursor_remember]
    exact hread
  · next hr =>
    rw [hr] at hread
    exact hread

/-- An error is told where the lexer stands behind it, and nothing but the place in the text has
changed. -/
theorem next_of_error {e : LexError} (h : l.next.1 = .error e) :
    e.position = l.next.2.position ∧ ∃ n, l.next.2 = l.forward n := by
  have hread : l.next = l.read := by
    unfold next at h ⊢
    split at h
    · cases h
    · next hr => rw [hr]
  rw [hread] at h ⊢
  exact (takes_read l).of_error h

/-- Moving forward without taking anything is staying. -/
theorem forward_eq_self {n : Nat} (h : l.cursor.rest.length ≤ (l.cursor.rest.drop n).length) :
    l.forward n = l := by
  have hn : n = 0 ∨ l.cursor.rest = [] := by
    rw [List.length_drop] at h
    rw [← List.length_eq_zero_iff]
    omega
  obtain ⟨⟨rest, position⟩, modes, held, previous⟩ := l
  rcases hn with rfl | rfl
  · simp [forward]
  · simp [forward, Cursor.forward]

/-! ## What is left -/

/-- What is left to a lexer: the characters still to be read and a brace that is held back. -/
def remaining (l : Lexer) : Nat := l.cursor.rest.length + l.held.toNat

/-- Nothing is put back, and a token other than the end of the source uses something up. -/
theorem Takes.remaining (h : l.Takes r) : r.2.remaining ≤ l.remaining ∧
    ∀ t, r.1 = .ok t → t ≠ .eof → r.2.remaining < l.remaining := by
  cases h with
  | held hh =>
    simp only [Lexer.remaining, emit, forward, Cursor.forward_zero, hh, Bool.toNat_false,
      Bool.toNat_true]
    -- The brace that was held back counted as one.
    exact ⟨by omega, fun _ _ _ => by omega⟩
  | refused n _ _ =>
    simp only [Lexer.remaining, refuse, forward, Cursor.forward_rest, List.length_drop]
    -- An error may leave as much as there was, but it hands out no token.
    refine ⟨by omega, ?_⟩
    intro t ht
    cases ht
  | eof _ =>
    simp only [Lexer.remaining, emit, forward, Cursor.forward_rest, List.length_drop]
    exact ⟨by omega, fun t ht hne => absurd (Except.ok.inj ht).symm hne⟩
  | token _ _ hn hne _ =>
    have hpos := List.length_pos_iff.mpr hne
    simp only [Lexer.remaining, emit, forward, Cursor.forward_rest, List.length_drop]
    exact ⟨by omega, fun _ _ _ => by omega⟩
  | text _ hh hn hle =>
    -- Two characters at least have been taken for the text and the brace behind it, which is still
    -- to be handed out.
    simp only [Lexer.remaining, emit, forward, Cursor.forward_rest, List.length_drop, hh,
      Bool.toNat_false, Bool.toNat_true]
    exact ⟨by omega, fun _ _ _ => by omega⟩

@[simp]
theorem remaining_remember (l : Lexer) (t : Token) : (l.remember t).remaining = l.remaining := by
  unfold remember
  split <;> rfl

/-- What is left becomes less with every token in front of the end of the source, and it never
becomes more. -/
theorem remaining_next (l : Lexer) : l.next.2.remaining ≤ l.remaining ∧
    ∀ t, l.next.1 = .ok t → t ≠ .eof → l.next.2.remaining < l.remaining := by
  have hread := (takes_read l).remaining
  unfold next
  split
  · next hr =>
    rw [hr] at hread
    simpa using hread
  · next hr =>
    rw [hr] at hread
    exact hread

/-- A token is the end of the source, or a brace that has been held back, or is read from one
character or more. -/
theorem eof_or_held_or_consumes (h : l.next.1 = .ok t) : t = .eof ∨
    (t = .punct .leftBrace ∧ l.held = true ∧ l.next.2.held = false ∧
      l.next.2.cursor = l.cursor) ∨
    ∃ c cs, l.cursor.rest = c :: cs ++ l.next.2.cursor.rest := by
  by_cases ht : t = .eof
  · exact Or.inl ht
  refine Or.inr ?_
  cases hh : l.held with
  | true =>
    have hnext := next_of_held hh
    rw [hnext] at h
    obtain rfl := Except.ok.inj h
    exact Or.inl ⟨rfl, rfl, by rw [hnext], by rw [hnext]⟩
  | false =>
    obtain ⟨cs, hcs⟩ := (consumes_next (Prod.ext h rfl : l.next = (.ok t, l.next.2))).1
    have hlt := (remaining_next l).2 t h ht
    -- No character taken and no brace held back would leave as much as before.
    cases cs with
    | nil =>
      rw [List.nil_append] at hcs
      simp only [remaining, hcs, hh, Bool.toNat_false] at hlt
      omega
    | cons c cs => exact Or.inr ⟨c, cs, hcs.symm⟩

/-! ## Several calls -/

/-- The token of an answer, if it has one other than the end of the source. -/
def token? : Except LexError Token → Option Token
  | .ok t => if t = .eof then none else some t
  | .error _ => none

theorem token?_eq_some_iff {x : Except LexError Token} :
    token? x = some t ↔ x = .ok t ∧ t ≠ .eof := by
  cases x with
  | error e => simp [token?]
  | ok u =>
    simp only [token?, Except.ok.injEq]
    split
    · next hu =>
      subst hu
      simp [eq_comm]
    · next hu =>
      rw [Option.some.injEq]
      constructor
      · rintro rfl
        exact ⟨rfl, hu⟩
      · exact And.left

/-- The tokens among the first `n` answers of a lexer, behind errors too. -/
def tokensAmong (l : Lexer) (n : Nat) : List Token :=
  (List.range n).filterMap fun i => token? (l.behind i).next.1

/-- The last of the calls adds its token, if it hands out one. -/
theorem tokensAmong_succ (l : Lexer) (n : Nat) :
    l.tokensAmong (n + 1) = l.tokensAmong n ++ (token? (l.behind n).next.1).toList := by
  rw [tokensAmong, List.range_succ, List.filterMap_append, tokensAmong]
  cases hx : token? (l.behind n).next.1 <;> simp [hx]

/-- Every token uses something up. -/
theorem length_tokensAmong_add_le (l : Lexer) (n : Nat) :
    (l.tokensAmong n).length + (l.behind n).remaining ≤ l.remaining := by
  -- The sum of the tokens so far and of what is left never grows.
  induction n with
  | zero => exact Nat.le_of_eq (Nat.zero_add _)
  | succ n ih =>
    obtain ⟨hle, hlt⟩ := remaining_next (l.behind n)
    rw [tokensAmong_succ, behind_succ, List.length_append]
    cases hx : token? (l.behind n).next.1 with
    | none =>
      simp only [Option.toList_none, List.length_nil]
      omega
    | some t =>
      -- A token that counts has made what is left smaller by one at least.
      obtain ⟨ht, hne⟩ := token?_eq_some_iff.mp hx
      have hlt := hlt t ht hne
      simp only [Option.toList_some, List.length_singleton]
      omega

/-- There are at most as many tokens as characters. -/
theorem length_tokensAmong_le (source : String) (n : Nat) :
    ((ofString source).tokensAmong n).length ≤ source.length := by
  have hle := length_tokensAmong_add_le (ofString source) n
  have hall : (ofString source).remaining = source.length := by
    simp [remaining, ofString, Cursor.ofString, String.length_toList]
  omega

/-- Behind the end of the source the lexer stays where it is, and comes to the end again. -/
theorem next_of_eof (h : l.next.1 = .ok .eof) : l.next.2.next = (.ok .eof, l.next.2) := by
  obtain ⟨hh, hm, hno, hlen⟩ := next_eq_eof_iff.mp h
  have hrest := rest_of_eof h
  have hnext : l.next.2 = l.forward l.cursor.rest.length := by rw [next_of_layout hh hm hno hlen]
  have hlayout : Scan.layout false l.next.2.cursor.rest = l.next.2.cursor.rest.length := by
    rw [hrest]
    rfl
  have hagain : l.next.2.next = (.ok .eof, l.next.2.forward l.next.2.cursor.rest.length) :=
    next_of_layout (by rw [hnext]; exact hh) (by rw [hnext]; exact hm) (by rw [hnext]; exact hno)
      hlayout
  rw [hagain, forward_eq_self]
  rw [hrest, List.length_nil]
  exact Nat.zero_le _

/-- Once the end of the source has been handed out, it is handed out by every later call. -/
theorem next_behind_of_eof {n k : Nat} (h : (l.behind n).next.1 = .ok .eof) (hk : n < k) :
    (l.behind k).next = (.ok .eof, l.behind (n + 1)) ∧ l.behind k = l.behind (n + 1) := by
  induction hk with
  | refl =>
    refine ⟨?_, rfl⟩
    rw [behind_succ]
    exact next_of_eof h
  | @step k _ ih =>
    have hsame : l.behind (k + 1) = l.behind (n + 1) := by rw [behind_succ, ih.1]
    obtain ⟨hnext, hbehind⟩ := ih
    rw [hbehind] at hnext
    exact ⟨hsame ▸ hnext, hsame⟩

/-! ## The stream of the answers -/

/-- An error that takes nothing leaves the lexer where it is. -/
theorem eq_of_error_of_size_le {e : LexError} {m : Lexer} (h : l.next = (.error e, m))
    (hsize : l.size ≤ m.size) : m = l := by
  obtain ⟨n, hforward⟩ : ∃ n, m = l.forward n := by
    have herror := (next_of_error (l := l) (by rw [h])).2
    rwa [h] at herror
  refine hforward.trans (forward_eq_self ?_)
  rw [hforward] at hsize
  simp only [size, forward, Cursor.forward_rest] at hsize
  omega

/-- The stream of the answers follows the lexer. -/
theorem next_stream (l : Lexer) :
    l.stream.next = (l.next.1.map fun t => (t, l.next.2.position), l.next.2.stream) := by
  cases hn : l.next with
  | mk answer m =>
    cases answer with
    | ok t =>
      by_cases ht : t = .eof
      · -- The lexer stays at the end of the source, and so does the stream.
        subst ht
        have hagain : m.next = (.ok .eof, m) := by
          have := next_of_eof (l := l) (by rw [hn])
          rwa [hn] at this
        rw [stream_of_eof hn, stream_of_eof hagain]
        rfl
      · rw [stream_of_ok hn ht]
        rfl
    | error e =>
      rw [stream_of_error hn]
      split
      · rfl
      · next hlt =>
        -- An error that takes nothing comes again with every further call.
        obtain rfl := eq_of_error_of_size_le hn (Nat.le_of_not_lt hlt)
        rw [stream_of_error hn, if_neg hlt]
        rfl

end Lexer

end Brace
