/-
# How far a lexer looks ahead

A lexer hands out the same tokens from two texts that are the same up to a delimiter, this included,
as long as it takes nothing but what stands in front of it (`Lexer.Hands.forks`).  So what stands
between the braces of an interpolation is read in the same way whatever stands behind the closing
one: `lexes_of_hands_rightBrace`, the main statement.
-/
import Brace.Proofs.Token.Consumes
import Brace.Proofs.Token.Restricts

namespace Brace

/-! ## Lexemes -/

namespace Scan

/-- The text of a template is read in the same way if all of it and the character behind it are the
same. -/
theorem template_forks {opened : Bool} {cs ds : List Char} {d : Char}
    (hstop : (template opened (cs ++ d :: ds)).stop ≠ .endOfSource)
    (hle : (template opened (cs ++ d :: ds)).length ≤ cs.length) (ds' : List Char) :
    template opened (cs ++ d :: ds') = template opened (cs ++ d :: ds) := by
  have hlt : (template opened (cs ++ d :: ds)).length < (cs ++ [d]).length := by
    rw [List.length_append]
    exact Nat.lt_succ_of_le hle
  rw [List.append_cons cs d ds] at hstop hlt ⊢
  rw [List.append_cons cs d ds']
  have hwithin : (template opened (cs ++ [d] ++ ds)).Within (cs ++ [d]).length := by
    cases hs : (template opened (cs ++ [d] ++ ds)).stop with
    | endOfSource => exact absurd hs hstop
    | backquote => exact Or.inr ⟨hs, hlt⟩
    | interpolation => exact Or.inl ⟨hs, Nat.le_of_lt hlt⟩
  have hsame := template_restrict hwithin
  rw [← hsame] at hlt hwithin ⊢
  refine template_extend ?_ ds'
  obtain ⟨hs, -⟩ | ⟨hs, -⟩ := hwithin
  · exact Or.inr ⟨hs, fun hnil => Nat.not_le.mpr hlt (List.drop_eq_nil_iff.mp hnil)⟩
  · exact Or.inl hs

/-- Where the text of a template has been read up to a back-quote, it is read like this whatever
stands there instead. -/
theorem template_append_of_backquote {opened : Bool} {cs ds text : List Char}
    (h : template opened (cs ++ '\x60' :: ds) = ⟨text, cs.length, .backquote⟩)
    (rest : List Char) :
    template opened (cs ++ rest) = (template false rest).after text cs.length := by
  have hafter {run run' : TemplateRun} {piece text : List Char} {n k : Nat}
      (h : run.after piece k = ⟨text, n + k, .backquote⟩)
      (ih : ∀ {text}, run = ⟨text, n, .backquote⟩ → run' = (template false rest).after text n) :
      run'.after piece k = (template false rest).after text (n + k) := by
    obtain ⟨rfl, hlength, hstop⟩ := TemplateRun.mk.inj h
    have hn : run.length = n := Nat.add_left_cancel (hlength.trans (Nat.add_comm n k))
    have hrun : run = ⟨run.text, n, .backquote⟩ := by rw [← hn, ← hstop]
    rw [ih hrun, TemplateRun.after_after, Nat.add_comm]
  fun_induction template opened cs generalizing text with
  | case1 => cases h
  | case2 c cs hc ih =>
    rw [List.cons_append, template, if_pos hc] at h ⊢
    exact hafter h ih
  | case3 cs hc ih =>
    rw [List.cons_append, template, if_neg hc, if_pos rfl] at h ⊢
    exact hafter h ih
  | case4 c cs hc hq =>
    rw [List.cons_append, template, if_neg hc, if_neg hq] at h
    cases h
  | case5 =>
    obtain rfl : [] = text := congrArg TemplateRun.text h
    exact ReadsAs.nil rest
  | case6 cs ih | case7 cs ih | case8 cs ih =>
    rw [List.cons_append, List.cons_append, template] at h ⊢
    exact hafter (k := 2) h ih
  | case9 => cases h
  | case10 cs _ _ _ hq ih =>
    rw [List.cons_append, template, if_neg hq, if_pos rfl] at h ⊢
    · exact hafter h ih
    all_goals simp
  | case11 c cs h1 h2 h3 hq hb ih =>
    -- A backslash at the end would have been taken together with the back-quote.
    have hlast : ¬ (cs = [] ∧ c = '\\') := by
      rintro ⟨rfl, rfl⟩
      have hlength : 2 + (template false ds).length = 1 := congrArg TemplateRun.length h
      omega
    have hcons (es : List Char) :
        template false (c :: cs ++ es) = (template false (cs ++ es)).after [c] 1 := by
      rw [List.cons_append, template, if_neg hq, if_neg hb]
      all_goals
        rintro fs rfl heq
        cases cs with
        | nil => exact hlast ⟨rfl, rfl⟩
        | cons d cs =>
          obtain ⟨rfl, -⟩ := List.cons.inj heq
          simp_all
    rw [hcons] at h ⊢
    exact hafter h ih

/-- Layout ends at a character that is none, whatever stands behind this. -/
theorem layout_forks {opened : Bool} {cs ds : List Char} {d : Char}
    (h : layout opened (cs ++ d :: ds) = cs.length) (ds' : List Char) :
    layout opened (cs ++ d :: ds') = cs.length := by
  have hlt : cs.length < (cs ++ [d]).length := by simp
  rw [List.append_cons] at h ⊢
  have hsame : layout opened (cs ++ [d]) = cs.length :=
    (layout_restrict (h.trans_lt hlt)).trans h
  rw [layout_extend _ ds', hsame]
  rw [hsame, List.drop_left]
  exact List.cons_ne_nil d []

end Scan

namespace Lexer

/-! ## One token -/

/-- The lexers `l` and `l'` are the same up to a place from which one has the characters `ds` left
and the other the characters `ds'`. -/
def Forks (l l' : Lexer) (ds ds' : List Char) : Prop :=
  ∃ k : Lexer, k.Extends l ds ∧ k.Extends l' ds'

variable {k l l' m : Lexer} {ds ds' : List Char} {d : Char} {t : Token}

theorem Extends.le_length (h : k.Extends l ds) (hne : ds ≠ []) {n : Nat}
    (hlen : ds.length ≤ (l.cursor.rest.drop n).length) : n ≤ k.cursor.rest.length := by
  have hpos := List.length_pos_iff.mpr hne
  rw [h.rest, List.length_drop, List.length_append] at hlen
  omega

/-- The text of a template that is read has been seen to end, and is taken. -/
theorem stop_ne_of_readTemplate (hr : l.readTemplate = (.ok t, m)) :
    (Scan.template false l.cursor.rest).stop ≠ .endOfSource ∧
      m.cursor.rest.length ≤
        (l.cursor.rest.drop (Scan.template false l.cursor.rest).length).length := by
  unfold readTemplate at hr
  generalize Scan.template false l.cursor.rest = run at hr ⊢
  obtain ⟨text, n, stop⟩ := run
  cases stop with
  | endOfSource => cases hr
  | backquote | interpolation =>
    constructor
    · intro h
      cases h
    · cases text
      all_goals
        cases hr
        simp only [forward, Cursor.forward_rest, List.length_drop]
        omega

/-- The text of a template is read in the same way if nothing is taken behind the place at which the
texts begin to differ. -/
theorem readTemplate_forks (h : k.Extends l (d :: ds)) (h' : k.Extends l' (d :: ds'))
    (hr : l.readTemplate = (.ok t, m)) (hlen : (d :: ds).length ≤ m.cursor.rest.length) :
    ∃ m', l'.readTemplate = (.ok t, m') ∧ m.Forks m' (d :: ds) (d :: ds') := by
  -- The text of the template ends before the two continuations part, so it is the same run.
  have hrun : Scan.template false l'.cursor.rest = Scan.template false l.cursor.rest := by
    obtain ⟨hstop, htaken⟩ := stop_ne_of_readTemplate hr
    have hle := Nat.le_trans hlen htaken
    rw [h.rest] at hstop hle ⊢
    rw [h'.rest]
    refine Scan.template_forks hstop ?_ ds'
    rw [List.length_drop, List.length_append] at hle
    simp only [List.length_cons] at hle
    omega
  have hmodes : l'.modes = l.modes := h'.modes.trans h.modes.symm
  have hle {n : Nat} := h.le_length (List.cons_ne_nil d ds) (n := n)
  unfold readTemplate at hr ⊢
  simp only [hrun, hmodes] at hr ⊢
  split at hr
  · cases hr
  all_goals cases hr
  · exact ⟨_, rfl, _, (h.withModes l.modes.tail).forward (hle hlen),
      (h'.withModes l.modes.tail).forward (hle hlen)⟩
  · exact ⟨_, rfl, _, h.forward (hle hlen), h'.forward (hle hlen)⟩
  · exact ⟨_, rfl, _, (h.withModes (.interpolation 0 :: l.modes)).forward (hle hlen),
      (h'.withModes (.interpolation 0 :: l.modes)).forward (hle hlen)⟩
  · have hk := (h.withModes (.interpolation 0 :: l.modes)).withHeld true
    have hk' := (h'.withModes (.interpolation 0 :: l.modes)).withHeld true
    exact ⟨_, rfl, _, hk.forward (hle hlen), hk'.forward (hle hlen)⟩

/-- Outside of templates, a token is read in the same way if the texts begin to differ behind a
delimiter, and nothing is taken from there on. -/
theorem readExpression_forks (h : k.Extends l (d :: ds)) (h' : k.Extends l' (d :: ds'))
    (hd : d ∈ delimiters) (hh : l.held = false) (hr : l.readExpression = (.ok t, m)) (ht : t ≠ .eof)
    (hlen : (d :: ds).length ≤ m.cursor.rest.length) :
    ∃ m', l'.readExpression = (.ok t, m') ∧ m.Forks m' (d :: ds) (d :: ds') := by
  -- The token is read from the part that both have in common, and with more text behind that.
  obtain ⟨hk, hextends⟩ : k.readExpression.1 = .ok t ∧ k.readExpression.2.Extends m (d :: ds) := by
    have hrestricts := restricts_readExpression h (List.cons_ne_nil d ds) hh t
    rw [hr] at hrestricts
    exact hrestricts rfl hlen
  have heof : k.readExpression.1 ≠ .ok .eof := by
    rw [hk]
    exact fun he => ht (Except.ok.inj he)
  obtain ⟨hr', hextends'⟩ :=
    continues_readExpression h' (delimited_cons hd ds') (Or.inr heof) t hk
  exact ⟨_, Prod.ext hr' rfl, _, hextends, hextends'⟩

/-- The same token is handed out if the texts begin to differ behind a delimiter, and nothing is
taken from there on. -/
theorem next_forks (h : l.Forks l' (d :: ds) (d :: ds')) (hd : d ∈ delimiters)
    (hn : l.next = (.ok t, m)) (ht : t ≠ .eof) (hlen : (d :: ds).length ≤ m.cursor.rest.length) :
    ∃ m', l'.next = (.ok t, m') ∧ m.Forks m' (d :: ds) (d :: ds') := by
  obtain ⟨k, h, h'⟩ := h
  obtain ⟨j, hr, rfl⟩ := next_eq_ok_iff.mp hn
  rw [cursor_remember] at hlen
  -- A brace that is held back, the text of a template, or a token of an expression.
  have hread : ∃ j', l'.read = (.ok t, j') ∧ j.Forks j' (d :: ds) (d :: ds') := by
    unfold read at hr ⊢
    rw [h'.held, h'.mode_eq]
    rw [h.held, h.mode_eq] at hr
    split at hr
    · next hheld =>
      cases hr
      have hle := h.le_length (List.cons_ne_nil d ds) hlen
      rw [if_pos hheld]
      exact ⟨_, rfl, _, (h.withHeld false).forward hle, (h'.withHeld false).forward hle⟩
    · next hheld =>
      rw [if_neg hheld]
      split at hr
      · exact readTemplate_forks h h' hr hlen
      · exact readExpression_forks h h' hd (h.held.trans (Bool.eq_false_iff.mpr hheld)) hr ht hlen
  obtain ⟨j', hr', i, hi, hi'⟩ := hread
  exact ⟨_, next_eq_ok_iff.mpr ⟨j', hr', rfl⟩, _, hi.remember t, hi'.remember t⟩

/-! ## Several tokens -/

/-- The same tokens are handed out if the texts begin to differ behind a delimiter, and nothing is
taken from there on. -/
theorem Hands.forks {ts : List Token} (h : l.Hands ts m) (hf : l.Forks l' (d :: ds) (d :: ds'))
    (hd : d ∈ delimiters) (hlen : (d :: ds).length ≤ m.cursor.rest.length) :
    ∃ m', l'.Hands ts m' ∧ m.Forks m' (d :: ds) (d :: ds') := by
  induction h generalizing l' with
  | nil => exact ⟨l', .nil l', hf⟩
  | cons hn ht hands ih =>
    have hle := Nat.le_trans hlen hands.count_le.1.length_le
    obtain ⟨k', hn', hk⟩ := next_forks hf hd hn ht hle
    obtain ⟨m', hands', hm⟩ := ih hk hlen
    exact ⟨m', .cons hn' ht hands', hm⟩

/-! ## Braces that close an interpolation -/

/-- A closing brace is handed out in an expression, behind layout. -/
theorem next_rightBrace (h : l.next = (.ok (.punct .rightBrace), m)) :
    l.held = false ∧ Mode.InExpression l.modes ∧ m.modes = Mode.closeBrace l.modes ∧
      ∃ cs, l.cursor.rest = cs ++ '\x7d' :: m.cursor.rest ∧
        Scan.layout false l.cursor.rest = cs.length := by
  obtain ⟨k, hr, rfl⟩ := next_eq_ok_iff.mp h
  rw [cursor_remember, modes_remember]
  have hread := l.readsToken
  generalize l.read = r at hread hr
  cases hread with
  | held | openInterpolation | eof => cases hr
  | template _ _ htemplate =>
    -- In the text of a template there are no closing braces.
    cases htemplate <;> cases hr
  | expression hh hmode hk hrest hfrom =>
    subst hk
    refine ⟨hh, inExpression_iff.mpr hmode, ?_⟩
    cases hfrom with
    | rightBrace hc =>
      subst hc
      cases hr
      have hdrop : l.cursor.rest.drop (Scan.layout false l.cursor.rest) = '\x7d' :: _ := hrest
      refine ⟨rfl, l.cursor.rest.take (Scan.layout false l.cursor.rest), ?_, ?_⟩
      · show _ = _ ++ '\x7d' :: (l.cursor.rest.drop (Scan.layout false l.cursor.rest)).drop 1
        rw [hdrop, List.drop_one, List.tail_cons, ← hdrop, List.take_append_drop]
      · rw [List.length_take, Nat.min_eq_left (Scan.layout_le _ _)]
    | word =>
      exact absurd (Except.ok.inj (congrArg Prod.fst hr)) ((ofWord_ne _).2.2.1 _)
    | punct _ _ hc hp =>
      cases hr
      exact absurd (by simpa [Punct.char, eq_comm] using List.find?_some hp) hc
    | _ => cases hr

end Lexer

/-- What a lexer reads in front of a closing brace is read in the same way, and so is the brace,
whatever stands behind it. -/
theorem lexes_of_hands_rightBrace {l m k : Lexer} {rest : List Char} {modes : List Mode}
    {operand : Bool} {ts : List Token} (hl : l.At ⟨rest, modes, operand⟩) (hands : l.Hands ts m)
    (hn : m.next = (.ok (.punct .rightBrace), k)) :
    ∃ inner, rest = inner ++ '\x7d' :: k.cursor.rest ∧
      ∀ cs, Lexes ⟨inner ++ '\x7d' :: cs, modes, operand⟩ (ts ++ [Token.punct .rightBrace])
        ⟨cs, k.modes, false⟩ := by
  obtain ⟨hheld, hm, hmodes, layout, hrest, hlayout⟩ := Lexer.next_rightBrace hn
  obtain ⟨before, hbefore⟩ := hands.count_le.1
  have hsplit : rest = before ++ layout ++ '\x7d' :: k.cursor.rest := by
    have hchars : l.cursor.rest = rest := hl.chars
    rw [← hchars, ← hbefore, hrest, List.append_assoc]
  refine ⟨before ++ layout, hsplit, fun cs l' hl' => ?_⟩
  -- The two lexers have the same text in front of the brace and different texts behind it.
  have hforks : l.Forks l' ('\x7d' :: k.cursor.rest) ('\x7d' :: cs) :=
    ⟨{ l with cursor := ⟨before ++ layout, l.cursor.position⟩ },
      ⟨hl.chars.trans hsplit, rfl, rfl, rfl⟩,
      ⟨hl'.chars, hl'.modes.trans hl.modes.symm, hl'.held.trans hl.held.symm,
        hl'.operand.trans hl.operand.symm⟩⟩
  have hlen : ('\x7d' :: k.cursor.rest).length ≤ m.cursor.rest.length := by
    rw [hrest, List.length_append]
    exact Nat.le_add_left _ _
  obtain ⟨m', hands', j, hj, hj'⟩ := hands.forks hforks (by decide) hlen
  -- The brace is still to be read, behind the same layout.
  have hjrest : j.cursor.rest = layout := List.append_cancel_right (hj.rest.symm.trans hrest)
  have hm' : m'.At ⟨layout ++ '\x7d' :: cs, m.modes, m.atOperand⟩ :=
    ⟨hjrest ▸ hj'.rest, hj'.modes.trans hj.modes.symm,
      hj'.held.trans (hj.held.symm.trans hheld), hj'.operand.trans hj.operand.symm⟩
  have hclose : Lexes ⟨'\x7d' :: cs, m.modes, m.atOperand⟩ [.punct .rightBrace]
      ⟨cs, k.modes, false⟩ := by
    rw [hmodes]
    exact lexes_punct .rightBrace hm
  have hbehind : Scan.layout false (layout ++ '\x7d' :: cs) =
      layout.length + Scan.layout false ('\x7d' :: cs) :=
    Scan.layout_forks (hrest ▸ hlayout) cs
  obtain ⟨k', hk, hk'⟩ := hclose.behind_layout hm (List.cons_ne_nil _ _) hbehind m' hm'
  exact ⟨k', hands'.append hk, hk'⟩

end Brace
