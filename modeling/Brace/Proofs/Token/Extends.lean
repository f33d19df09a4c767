/-
# Texts with something behind them

A lexer that comes to the end of a text reads the same tokens from a longer text, if what is added
begins with a delimiter: the last name or number ends where it ended before, and a new line ends an
open comment.  The modes have to be those of the start again at the end of the text, so that what is
added is read in an expression.  Main statement: `Yields.append`.
-/
import Brace.Proofs.Token.Lookback
import Brace.Proofs.Token.Lexes

namespace Brace

/-! ## Lexemes -/

namespace Scan

/-- Layout is not longer than the text. -/
theorem layout_le (opened : Bool) (cs : List Char) : layout opened cs ≤ cs.length := by
  fun_induction layout opened cs <;> simp_all

/-- Layout with something behind it stays what it is. -/
theorem layout_extend {opened : Bool} {cs : List Char} (h : cs.drop (layout opened cs) ≠ [])
    (ds : List Char) : layout opened (cs ++ ds) = layout opened cs := by
  fun_induction layout opened cs <;> simp_all [layout]

/-- Whatever is layout up to the end is so up to a new line, which also ends an open comment. -/
theorem layout_newline {opened : Bool} {cs : List Char} (h : cs.drop (layout opened cs) = [])
    {c : Char} (hc : isBlank c = false ∧ c ≠ '#') (ds : List Char) :
    layout opened (cs ++ '\n' :: c :: ds) = cs.length + 1 := by
  have hend : layout false (c :: ds) = 0 := by
    rw [layout, if_neg (by simp [hc.1]), if_neg hc.2]
  fun_induction layout opened cs with
  | case1 opened =>
    rw [List.nil_append]
    cases opened with
    | false => rw [layout, if_pos (by decide), hend, List.length_nil]
    | true =>
      rw [layout, show ('\n' != '\n' && '\n' != '#') = false from rfl, hend, List.length_nil]
  | case5 c cs hb hn => simp_all
  | _ => simp_all [layout]

/-- A quoted text ends at its quote and goes on behind any other character but a backslash. -/
theorem quoted_cons {quote c : Char} (hc : c ≠ '\\') (cs : List Char) :
    quoted quote (c :: cs) = if c = quote then some ([], 1)
      else (quoted quote cs).map fun (text, n) => (c :: text, n + 1) := by
  rw [quoted]
  · intro he
    exact absurd he hc
  · intro d ds he
    exact absurd he hc

/-- A character with which neither the last nor any other character is taken together. -/
theorem ne_backslash {c : Char} {cs : List Char} (hnil : c = '\\' → cs = [] → False)
    (hcons : ∀ d ds, c = '\\' → cs = d :: ds → False) : c ≠ '\\' := by
  intro hc
  cases cs with
  | nil => exact hnil hc rfl
  | cons d cs => exact hcons d cs hc rfl

/-- A quoted text that ends is read in the same way with more behind it. -/
theorem quoted_extend {quote : Char} {cs text : List Char} {n : Nat}
    (h : quoted quote cs = some (text, n)) (ds : List Char) :
    quoted quote (cs ++ ds) = some (text, n) ∧ n ≤ cs.length := by
  -- The cases are those of the scanner; what is added comes into play only where the text would
  -- end.
  fun_induction quoted quote cs generalizing text n with
  | case1 => cases h
  | case2 => cases h
  | case3 c cs ih =>
    obtain ⟨⟨t, k⟩, hq, he⟩ := Option.map_eq_some_iff.mp h
    cases he
    obtain ⟨hq', hk⟩ := ih hq
    rw [List.cons_append, List.cons_append, quoted, hq']
    refine ⟨rfl, ?_⟩
    simp only [List.length_cons]
    omega
  -- A quote that is a backslash would have been taken together with the next character.
  | case4 cs hnil hcons =>
    cases h
    have hc := ne_backslash hnil hcons
    rw [List.cons_append, quoted_cons hc, if_pos rfl]
    exact ⟨rfl, by simp⟩
  | case5 c cs hnil hcons hne ih =>
    have hc := ne_backslash hnil hcons
    obtain ⟨⟨t, k⟩, hq, he⟩ := Option.map_eq_some_iff.mp h
    cases he
    obtain ⟨hq', hk⟩ := ih hq
    rw [List.cons_append, quoted_cons hc, if_neg hne, hq']
    refine ⟨rfl, ?_⟩
    simp only [List.length_cons]
    omega

/-- A pattern that ends is read in the same way with more behind it. -/
theorem pattern_extend {escaped : Bool} {cs text : List Char} {n : Nat}
    (h : pattern escaped cs = some (text, n)) (ds : List Char) :
    pattern escaped (cs ++ ds) = some (text, n) ∧ n ≤ cs.length := by
  fun_induction pattern escaped cs generalizing text n with
  | case1 => cases h
  | case2 escaped c cs hc =>
    cases h
    rw [List.cons_append, pattern, if_pos hc]
    exact ⟨rfl, by simp⟩
  | case3 escaped c cs hc ih =>
    obtain ⟨⟨t, k⟩, hq, he⟩ := Option.map_eq_some_iff.mp h
    cases he
    obtain ⟨hq', hk⟩ := ih hq
    rw [List.cons_append, pattern, if_neg hc, hq']
    refine ⟨rfl, ?_⟩
    simp only [List.length_cons]
    omega

/-- Flags are read in the same way in front of a delimiter. -/
theorem flags_extend {seen cs fs : List Char} (h : flags seen cs = .ok fs) {ds : List Char}
    (hds : Delimited ds) :
    flags seen (cs ++ ds) = .ok fs ∧ fs.length ≤ seen.length + cs.length := by
  fun_induction flags seen cs with
  | case1 seen =>
    cases h
    refine ⟨?_, by simp⟩
    cases ds with
    | nil => rfl
    | cons c ds =>
      have hc := hds c rfl
      rw [List.nil_append, flags, if_neg (by simp [not_isNameChar_of_mem_delimiters c hc]),
        if_pos (mem_delimiters_iff.mp hc)]
  | case2 seen c cs hc ih =>
    obtain ⟨hf, hlen⟩ := ih h
    rw [List.cons_append, flags, if_pos hc]
    refine ⟨hf, ?_⟩
    simp only [List.length_cons] at hlen ⊢
    omega
  | case3 seen c cs hc hblank =>
    cases h
    rw [List.cons_append, flags, if_neg hc, if_pos hblank]
    exact ⟨rfl, by simp⟩
  | case4 => cases h

/-- What is taken as long as no delimiter comes is the same in front of a delimiter. -/
theorem takeWhile_extend {p : Char → Bool} (hp : ∀ c ∈ delimiters, p c = false) (cs : List Char)
    {ds : List Char} (hds : Delimited ds) : (cs ++ ds).takeWhile p = cs.takeWhile p := by
  induction cs with
  | nil =>
    cases ds with
    | nil => rfl
    | cons c ds => simp [hp c (hds c rfl)]
  | cons c cs ih => simp [List.takeWhile_cons, ih]

/-- A delimiter behind a text brings no other character to its front. -/
theorem head?_extend (cs : List Char) {ds : List Char} (hds : Delimited ds) {c : Char}
    (hc : c ∉ delimiters) : (cs ++ ds).head? = some c ↔ cs.head? = some c := by
  cases cs with
  | nil =>
    rw [List.nil_append]
    exact ⟨fun h => absurd (hds c h) hc, fun h => nomatch h⟩
  | cons d cs => rfl

/-- A number is read in the same way in front of a delimiter. -/
theorem number_extend {cs : List Char} {l : Number.Literal} {n : Nat} (h : number cs = (some l, n))
    {ds : List Char} (hds : Delimited ds) :
    number (cs ++ ds) = (some l, n) ∧ n ≤ cs.length := by
  have hdigit (cs : List Char) :=
    takeWhile_extend (fun c hc => (not_isNameChar_of_mem_delimiters c hc).2.1) cs hds
  have hle (cs : List Char) : (cs.takeWhile Char.isDigit).length ≤ cs.length :=
    (List.takeWhile_sublist _).length_le
  have hdrop (cs : List Char) : (cs ++ ds).drop (cs.takeWhile Char.isDigit).length =
      cs.drop (cs.takeWhile Char.isDigit).length ++ ds :=
    List.drop_append_of_le_length (hle cs)
  have hpoint : '.' ∉ delimiters := by decide
  have hlen := congrArg List.length (List.take_append_drop (cs.takeWhile Char.isDigit).length cs)
  -- The digits end in the same place, so what follows them is the same up to the end of the text.
  unfold number at h ⊢
  simp only [hdigit, hdrop] at h ⊢
  generalize hw : cs.drop (cs.takeWhile Char.isDigit).length = rest at h ⊢
  split at h
  · next more =>
    rw [List.cons_append]
    simp only [hdigit, hdrop, head?_extend _ hds hpoint]
    split at h
    · cases h
    · next hdot =>
      cases h
      rw [if_neg hdot]
      refine ⟨rfl, ?_⟩
      have := hle more
      have := hle cs
      rw [hw] at hlen
      simp at hlen
      omega
  · next hnot =>
    -- A point that was not there is not added, since it is no delimiter.
    cases h
    refine ⟨?_, hle cs⟩
    split
    · next more hmore =>
      have hhead := (head?_extend rest hds hpoint).mp (by rw [hmore]; rfl)
      obtain ⟨more', rfl⟩ := List.head?_eq_some_iff.mp hhead
      exact absurd rfl (hnot more')
    · rfl

/-- The text of a template is read in the same way if what stops it is seen. -/
theorem template_extend {opened : Bool} {cs : List Char}
    (h : (template opened cs).stop = .backquote ∨
      (template opened cs).stop = .interpolation ∧ cs.drop (template opened cs).length ≠ [])
    (ds : List Char) : template opened (cs ++ ds) = template opened cs := by
  fun_induction template opened cs with
  | case11 c cs h1 h2 h3 hq hb ih =>
    cases cs with
    | nil => simp [template, TemplateRun.after] at h
    | cons d cs =>
      have hrest := ih (by simpa [TemplateRun.after, ← List.drop_drop] using h)
      rw [List.cons_append, List.cons_append, template, if_neg hq, if_neg hb, ← List.cons_append,
        hrest]
      all_goals simp_all
  | _ => simp_all [template, TemplateRun.after, ← List.drop_drop]

end Scan

/-! ## Lexers -/

namespace Lexer

/-- The lexer `l'` differs from `l` only by the characters `ds` at the end of its text, and perhaps
by its position. -/
structure Extends (l l' : Lexer) (ds : List Char) : Prop where
  /-- The characters still to be read. -/
  rest : l'.cursor.rest = l.cursor.rest ++ ds
  /-- The modes. -/
  modes : l'.modes = l.modes
  /-- Whether a brace is held back. -/
  held : l'.held = l.held
  /-- Whether an operand is expected. -/
  operand : l'.atOperand = l.atOperand

/-- Nothing is left to be read, but an interpolation is open. -/
def Unclosed (l : Lexer) : Prop :=
  l.cursor.rest = [] ∧ ∃ depth outer, l.modes = .interpolation depth :: outer

/-- The text of a template is read up to an interpolation, and nothing is left behind its brace. -/
structure OpensAtEnd (l : Lexer) : Prop where
  /-- No brace is held back. -/
  held : l.held = false
  /-- The lexer is in the text of a template. -/
  mode : l.mode = .template
  /-- An interpolation stops the text. -/
  stop : (Scan.template false l.cursor.rest).stop = .interpolation
  /-- Nothing is left. -/
  drop : l.cursor.rest.drop (Scan.template false l.cursor.rest).length = []

/-- A token that is handed out is handed out by a lexer with more text, too. -/
def Continues (ds : List Char) (r r' : Except LexError Token × Lexer) : Prop :=
  ∀ t, r.1 = .ok t → r'.1 = .ok t ∧ r.2.Extends r'.2 ds

variable {l l' : Lexer} {ds : List Char}

theorem Extends.mode_eq (h : l.Extends l' ds) : l'.mode = l.mode := by
  rw [mode, mode, h.modes]

theorem Extends.withModes (h : l.Extends l' ds) (modes : List Mode) :
    Extends { l with modes := modes } { l' with modes := modes } ds :=
  ⟨h.rest, rfl, h.held, h.operand⟩

theorem Extends.withHeld (h : l.Extends l' ds) (held : Bool) :
    Extends { l with held := held } { l' with held := held } ds :=
  ⟨h.rest, h.modes, rfl, h.operand⟩

/-- What is remembered of a token is the same. -/
theorem Extends.remember (h : l.Extends l' ds) (t : Token) :
    (l.remember t).Extends (l'.remember t) ds := by
  unfold Lexer.remember
  split
  · exact h
  · exact ⟨h.rest, h.modes, h.held, rfl⟩

theorem Extends.forward (h : l.Extends l' ds) {n : Nat} (hn : n ≤ l.cursor.rest.length) :
    (l.forward n).Extends (l'.forward n) ds := by
  refine ⟨?_, h.modes, h.held, h.operand⟩
  show l'.cursor.rest.drop n = l.cursor.rest.drop n ++ ds
  rw [h.rest, List.drop_append_of_le_length hn]

theorem continues_refuse {r : Except LexError Token × Lexer} (n : Nat) (fault : LexFault) :
    Continues ds (l.refuse n fault) r := fun _ h => nomatch h

theorem continues_emit (h : l.Extends l' ds) {n : Nat} (hn : n ≤ l.cursor.rest.length) (t : Token) :
    Continues ds (l.emit n t) (l'.emit n t) := fun _ ht => ⟨ht, h.forward hn⟩

/-- A regular expression is read in the same way in front of a delimiter. -/
theorem continues_readRegExp (h : l.Extends l' ds) (hds : Delimited ds) (hne : l.cursor.rest ≠ []) :
    Continues ds l.readRegExp l'.readRegExp := by
  have htail : l'.cursor.rest.tail = l.cursor.rest.tail ++ ds := by
    rw [h.rest, List.tail_append_of_ne_nil hne]
  have hlen := List.length_pos_iff.mpr hne
  unfold readRegExp
  -- First the pattern, then the flags behind it.
  split
  · exact continues_refuse _ _
  · next pattern n hp =>
    obtain ⟨hp', hn⟩ := Scan.pattern_extend hp ds
    rw [List.length_tail] at hn
    have hdrop : l'.cursor.rest.drop (n + 1) = l.cursor.rest.drop (n + 1) ++ ds := by
      rw [h.rest, List.drop_append_of_le_length (by omega)]
    rw [htail, hp']
    split
    · next flags hf =>
      obtain ⟨hf', hfn⟩ := Scan.flags_extend hf hds
      simp only [hdrop, hf']
      refine continues_emit h ?_ _
      rw [List.length_drop, List.length_nil] at hfn
      omega
    · exact continues_refuse _ _

/-- A token in an expression is read in the same way in front of a delimiter. -/
theorem continues_readFrom (h : l.Extends l' ds) (hds : Delimited ds) {c : Char} {rest : List Char}
    (hrest : l.cursor.rest = c :: rest) :
    Continues ds (l.readFrom c rest) (l'.readFrom c (rest ++ ds)) := by
  have hlen : l.cursor.rest.length = rest.length + 1 := by rw [hrest, List.length_cons]
  have emits {n : Nat} (t : Token) (hn : n ≤ rest.length + 1) :
      Continues ds (l.emit n t) (l'.emit n t) := continues_emit h (hlen ▸ hn) t
  have hequals : (rest ++ ds).head? = some '=' ↔ rest.head? = some '=' :=
    Scan.head?_extend rest hds (by decide)
  have hword : (rest ++ ds).takeWhile Scan.isNameChar = rest.takeWhile Scan.isNameChar :=
    Scan.takeWhile_extend (fun c hc => (not_isNameChar_of_mem_delimiters c hc).1) rest hds
  -- With these facts both lexers take the same branch.
  unfold readFrom
  simp only [hequals, hword, h.operand, h.modes]
  split
  · split
    · next text n hq =>
      obtain ⟨hq', hn⟩ := Scan.quoted_extend hq ds
      rw [hq']
      exact emits _ (by omega)
    · exact continues_refuse _ _
  split
  · split
    · next literal n hl =>
      obtain ⟨hl', hn⟩ := Scan.number_extend hl hds
      rw [← List.cons_append, hl']
      exact emits _ hn
    · exact continues_refuse _ _
  split
  · exact emits _ (Nat.succ_le_succ (List.takeWhile_sublist _).length_le)
  split
  · exact continues_readRegExp h hds (by simp [hrest])
  split
  · split
    · next hhead =>
      obtain ⟨more, rfl⟩ := List.head?_eq_some_iff.mp hhead
      exact emits _ (by simp)
    · exact emits _ (by omega)
  split
  · split
    · next hhead =>
      obtain ⟨more, rfl⟩ := List.head?_eq_some_iff.mp hhead
      exact emits _ (by simp)
    · exact emits _ (by omega)
  have hone : 1 ≤ l.cursor.rest.length := by omega
  split
  · exact continues_emit (h.withModes (.template :: l.modes)) hone _
  split
  · exact continues_emit (h.withModes (Mode.openBrace l.modes)) hone _
  split
  · exact continues_emit (h.withModes (Mode.closeBrace l.modes)) hone _
  split
  · exact emits _ (by omega)
  · exact emits _ (by omega)
  · exact continues_refuse _ _

/-- Behind the layout, the character at the front decides. -/
theorem readExpression_of_drop {c : Char} {rest : List Char}
    (h : l.cursor.rest.drop (Scan.layout false l.cursor.rest) = c :: rest) :
    l.readExpression = (l.forward (Scan.layout false l.cursor.rest)).readFrom c rest := by
  have hrest : (l.forward (Scan.layout false l.cursor.rest)).cursor.rest = c :: rest := h
  unfold readExpression
  simp only [hrest]

/-- Where nothing but layout is left, the end of the source is handed out, unless an interpolation
is open. -/
theorem readExpression_of_drop_eq_nil
    (h : l.cursor.rest.drop (Scan.layout false l.cursor.rest) = []) :
    (∀ t, l.readExpression.1 = .ok t → ∀ depth, l.mode ≠ .interpolation depth) ∧
      ((∀ depth, l.mode ≠ .interpolation depth) →
        l.readExpression = (l.forward (Scan.layout false l.cursor.rest)).emit 0 .eof) := by
  have hrest : (l.forward (Scan.layout false l.cursor.rest)).cursor.rest = [] := h
  have hmode : (l.forward (Scan.layout false l.cursor.rest)).mode = l.mode := rfl
  unfold readExpression
  simp only [hrest, hmode]
  split
  · next depth hm =>
    refine ⟨fun t ht => ?_, fun hno => absurd hm (hno depth)⟩
    cases ht
  · next hno => exact ⟨fun _ _ => hno, fun _ => rfl⟩

/-- Where more text is added, the end of the source is not handed out again. -/
theorem continues_readExpression (h : l.Extends l' ds) (hds : Delimited ds)
    (hor : ds = [] ∨ l.readExpression.1 ≠ .ok .eof) :
    Continues ds l.readExpression l'.readExpression := by
  have hlayout := Scan.layout_le false l.cursor.rest
  -- Behind the layout the text ends, or a token begins.
  cases hdrop : l.cursor.rest.drop (Scan.layout false l.cursor.rest) with
  | nil =>
    intro t ht
    have hno := (readExpression_of_drop_eq_nil hdrop).1 t ht
    have heof := (readExpression_of_drop_eq_nil hdrop).2 hno
    rw [heof] at ht hor ⊢
    obtain rfl | hne := hor
    · have hrest : l'.cursor.rest = l.cursor.rest := by rw [h.rest, List.append_nil]
      rw [(readExpression_of_drop_eq_nil (hrest ▸ hdrop)).2 (h.mode_eq ▸ hno), hrest]
      exact ⟨ht, (h.forward hlayout).forward (Nat.zero_le _)⟩
    · exact absurd rfl hne
  | cons c rest =>
    have hlayout' := Scan.layout_extend (hdrop ▸ List.cons_ne_nil c rest) ds
    -- The layout ends at the same character, as there is one.
    have hdrop' : l'.cursor.rest.drop (Scan.layout false l'.cursor.rest) = c :: (rest ++ ds) := by
      rw [h.rest, hlayout', List.drop_append_of_le_length hlayout, hdrop, List.cons_append]
    rw [readExpression_of_drop hdrop, readExpression_of_drop hdrop', h.rest, hlayout']
    exact continues_readFrom (h.forward hlayout) hds hdrop

/-- Where an interpolation stops the text of a template, its brace is handed out if there is no
text, and held back otherwise. -/
theorem readTemplate_of_interpolation
    (h : (Scan.template false l.cursor.rest).stop = .interpolation) :
    let text := (Scan.template false l.cursor.rest).text
    l.readTemplate = Lexer.emit
      { l with modes := .interpolation 0 :: l.modes, held := !text.isEmpty || l.held }
      (Scan.template false l.cursor.rest).length
      (if text.isEmpty then .punct .leftBrace else .string (String.ofList text)) := by
  unfold readTemplate
  generalize Scan.template false l.cursor.rest = run at h
  obtain ⟨text, n, stop⟩ := run
  obtain rfl : stop = .interpolation := h
  cases text <;> rfl

/-- In a template, a token is read in the same way if the run of its characters is the same. -/
theorem continues_readTemplate_of_run (h : l.Extends l' ds)
    (hrun : Scan.template false l'.cursor.rest = Scan.template false l.cursor.rest) :
    Continues ds l.readTemplate l'.readTemplate := by
  have hle := Scan.template_length_le false l.cursor.rest
  have hlt := Scan.template_length_lt false l.cursor.rest
  unfold readTemplate
  simp only [hrun, h.modes]
  split
  · exact continues_refuse _ _
  · next hstop _ => exact continues_emit (h.withModes l.modes.tail) (hlt hstop) _
  · exact continues_emit h hle _
  · exact continues_emit (h.withModes (.interpolation 0 :: l.modes)) hle _
  · exact continues_emit ((h.withModes (.interpolation 0 :: l.modes)).withHeld true) hle _

/-- Where more text is added, the text of a template ends as before if its end has been seen. -/
theorem continues_readTemplate (h : l.Extends l' ds)
    (hor : ds = [] ∨ ((Scan.template false l.cursor.rest).stop = .interpolation →
      l.cursor.rest.drop (Scan.template false l.cursor.rest).length ≠ [])) :
    Continues ds l.readTemplate l'.readTemplate := by
  intro t ht
  refine continues_readTemplate_of_run h ?_ t ht
  rw [h.rest]
  -- What stops the text is seen, unless it is the end of the text.
  cases hstop : (Scan.template false l.cursor.rest).stop with
  | endOfSource =>
    unfold readTemplate at ht
    simp only [hstop] at ht
    cases ht
  | backquote => exact Scan.template_extend (Or.inl hstop) ds
  | interpolation =>
    obtain rfl | hseen := hor
    · rw [List.append_nil]
    · exact Scan.template_extend (Or.inr ⟨hstop, hseen hstop⟩) ds

/-- A token is read in the same way, unless the text ends here. -/
theorem continues_read (h : l.Extends l' ds) (hds : Delimited ds)
    (hor : ds = [] ∨ l.read.1 ≠ .ok .eof ∧ ¬ l.OpensAtEnd) :
    Continues ds l.read l'.read := by
  unfold read at hor ⊢
  rw [h.held, h.mode_eq]
  split at hor
  · next hh =>
    rw [if_pos hh, if_pos hh]
    exact continues_emit (h.withHeld false) (Nat.zero_le _) _
  · next hh =>
    rw [if_neg hh, if_neg hh]
    split at hor
    · next hm =>
      exact continues_readTemplate h (hor.imp_right fun ho hstop hdrop =>
        ho.2 ⟨Bool.eq_false_iff.mpr hh, hm, hstop, hdrop⟩)
    · exact continues_readExpression h hds (hor.imp_right And.left)

/-- The same token is handed out where there is more text. -/
theorem next_extends {m : Lexer} {t : Token} (h : l.Extends l' ds) (hds : Delimited ds)
    (hn : l.next = (.ok t, m))
    (hor : ds = [] ∨ t ≠ .eof ∧ ¬ l.OpensAtEnd) :
    ∃ m', l'.next = (.ok t, m') ∧ m.Extends m' ds := by
  obtain ⟨k, hr, rfl⟩ := next_eq_ok_iff.mp hn
  have hcontinues := continues_read h hds
  rw [hr] at hcontinues
  obtain ⟨hr', hk⟩ := hcontinues
    (hor.imp_right fun ⟨ht, ho⟩ => ⟨fun he => ht (Except.ok.inj he), ho⟩) t rfl
  exact ⟨_, next_eq_ok_iff.mpr ⟨_, Prod.ext hr' rfl, rfl⟩, hk.remember t⟩

/-- The interpolation that begins at the end of the text is left open. -/
theorem OpensAtEnd.unclosed {m : Lexer} {t : Token} (h : l.OpensAtEnd) (hn : l.next = (.ok t, m)) :
    m.Unclosed := by
  obtain ⟨k, hr, rfl⟩ := next_eq_ok_iff.mp hn
  have hk : l.readTemplate = (.ok t, k) := by
    rw [← hr, read, if_neg (by simp [h.held]), h.mode]
  obtain ⟨-, rfl⟩ := Prod.mk.inj (hk.symm.trans (readTemplate_of_interpolation h.stop))
  rw [Unclosed, cursor_remember, modes_remember]
  exact ⟨h.drop, 0, _, rfl⟩

/-! ## All tokens -/

/-- Where an interpolation is left open, the end of the source is never come to without an error. -/
theorem Unclosed.not_yields (h : l.Unclosed) (ts : List Token) : ¬ l.Yields ts := by
  have hstuck {l m : Lexer} {t : Token} (h : l.Unclosed) (hn : l.next = (.ok t, m)) :
      t = .punct .leftBrace ∧ m.Unclosed := by
    obtain ⟨hrest, depth, outer, hmodes⟩ := h
    obtain ⟨k, hr, rfl⟩ := next_eq_ok_iff.mp hn
    cases hh : l.held with
    | true =>
      rw [read, if_pos hh] at hr
      cases hr
      exact ⟨rfl, by rw [← hrest]; rfl, depth, outer, hmodes⟩
    | false =>
      have hin : Mode.InExpression l.modes := by
        rw [hmodes]
        nofun
      have hdrop : l.cursor.rest.drop (Scan.layout false l.cursor.rest) = [] := by
        rw [hrest, List.drop_nil]
      rw [read_of_inExpression hh hin] at hr
      refine absurd ?_ ((readExpression_of_drop_eq_nil hdrop).1 t (by rw [hr]) depth)
      rw [mode, hmodes]
      rfl
  -- All that such a lexer hands out is the brace that it holds back.
  intro hy
  induction hy with
  | eof hn => cases (hstuck h hn).1
  | cons hn _ _ ih => exact ih (hstuck h hn).2

/-- Where a character is left, the end of the source has not been come to. -/
theorem readFrom_ne_eof (l : Lexer) (c : Char) (rest : List Char) :
    (l.readFrom c rest).1 ≠ .ok .eof := by
  have h := l.readsFrom c rest
  generalize l.readFrom c rest = r at h ⊢
  intro heof
  cases h with
  | word => exact (ofWord_ne _).2.2.2 (Except.ok.inj heof)
  | _ => cases heof

/-- At the end of a text in the modes of the start, a new line is layout, and what stands behind it
is read in an expression. -/
theorem read_newline {m : Lexer} {c : Char} (hc : Scan.isBlank c = false ∧ c ≠ '#') {cs : List Char}
    (hm : l.modes = [.expression]) (hh : l.held = false) (hn : l.next = (.ok .eof, m))
    (h : l.Extends l' ('\n' :: c :: cs)) :
    ∃ k : Lexer, l'.read = k.readFrom c cs ∧ k.At ⟨c :: cs, [.expression], l.atOperand⟩ := by
  have hin : Mode.InExpression l.modes := by
    rw [hm]
    nofun
  have hdrop : l.cursor.rest.drop (Scan.layout false l.cursor.rest) = [] := by
    obtain ⟨k, hr, -⟩ := next_eq_ok_iff.mp hn
    rw [read_of_inExpression hh hin] at hr
    cases hdrop : l.cursor.rest.drop (Scan.layout false l.cursor.rest) with
    | nil => rfl
    | cons d ds =>
      rw [readExpression_of_drop hdrop] at hr
      exact absurd (congrArg Prod.fst hr) (readFrom_ne_eof _ d ds)
  have hlayout := Scan.layout_newline hdrop hc cs
  have hdrop' : l'.cursor.rest.drop (Scan.layout false l'.cursor.rest) = c :: cs := by
    rw [h.rest, hlayout, List.drop_append]
    simp
  refine ⟨l'.forward (Scan.layout false l'.cursor.rest), ?_, hdrop', h.modes.trans hm,
    h.held.trans hh, h.operand⟩
  rw [read_of_inExpression (h.held.trans hh) (h.modes ▸ hin), readExpression_of_drop hdrop']

/-- Two lexers at the same spot hand out the same tokens. -/
theorem Yields.same {ts : List Token} (h : l.Yields ts) (he : l.Extends l' []) : l'.Yields ts := by
  induction h generalizing l' with
  | eof hn =>
    obtain ⟨m', hn', -⟩ := next_extends he delimited_nil hn (Or.inl rfl)
    exact .eof hn'
  | cons hn ht _ ih =>
    obtain ⟨m', hn', hm⟩ := next_extends he delimited_nil hn (Or.inl rfl)
    exact .cons hn' ht (ih hm)

/-- A text that leaves the lexer in the modes of the start can be followed by a new line, a
semicolon and a second text. -/
theorem Yields.extend {ts : List Token} (h : l.Yields ts) (hs : l.Settled)
    (hend : (ts.foldl Lookback.after l.lookback).modes = [.expression]) {cs : List Char}
    (he : l.Extends l' ('\n' :: ';' :: cs)) :
    ∃ m, l'.Hands (ts ++ [.punct .semicolon]) m ∧ m.At ⟨cs, [.expression], true⟩ := by
  -- The tokens stay the same to the end, where the new line and the semicolon are read.
  induction h generalizing l' with
  | @eof l m hn =>
    have hheld := hs.held_eq_false hend
    have hmodes : l.modes = [.expression] := by
      rw [← inner_of_not_held hheld]
      exact hend
    obtain ⟨k, hread, hk⟩ := read_newline (by decide) hmodes hheld hn he
    refine ⟨_, hands_of_read (by nofun) (hread.trans rfl), ?_, hk.modes, hk.held, rfl⟩
    show k.cursor.rest.drop 1 = cs
    rw [hk.chars]
    rfl
  | cons hn ht hy ih =>
    obtain ⟨-, hm, hl⟩ := next_agrees hs hn
    rw [List.foldl_cons, ← hl ht] at hend
    -- No interpolation is open at the end, or the first text would not have been read.
    have hopens := fun ho : OpensAtEnd _ => (ho.unclosed hn).not_yields _ hy
    have hds : Delimited ('\n' :: ';' :: cs) := delimited_cons (by decide) _
    obtain ⟨m', hn', he'⟩ := next_extends he hds hn (Or.inr ⟨ht, hopens⟩)
    obtain ⟨k, hands, hk⟩ := ih hm hend he'
    exact ⟨k, .cons hn' ht hands, hk⟩

/-- A new line and a semicolon behind a text that leaves the lexer in the modes of the start: the
tokens of both texts are handed out, with the semicolon between them. -/
theorem Yields.append {source source' : String} {ts us : List Token}
    (h : (ofString source).Yields ts)
    (hend : (ts.foldl Lookback.after .start).modes = [.expression])
    (h' : (ofString source').Yields us) :
    (ofString (source ++ "\n;" ++ source')).Yields (ts ++ .punct .semicolon :: us) := by
  have he : (ofString source).Extends (ofString (source ++ "\n;" ++ source'))
      ('\n' :: ';' :: source'.toList) :=
    ⟨by simp [ofString, Cursor.ofString], rfl, rfl, rfl⟩
  obtain ⟨m, hands, hm⟩ := h.extend (settled_of_not_held rfl) hend he
  have hsame : (ofString source').Extends m [] := by
    refine ⟨?_, hm.modes, hm.held, hm.operand⟩
    rw [hm.chars, List.append_nil]
    rfl
  rw [← List.singleton_append, ← List.append_assoc]
  exact hands.yields (h'.same hsame)

end Lexer

end Brace
