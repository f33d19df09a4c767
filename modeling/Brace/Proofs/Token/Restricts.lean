/-
# Texts with something cut off

A token only depends on the characters that it takes, and on whether there are more of its kind.  So
a lexer hands out the same token if its text is cut off somewhere behind what the call takes:
nothing that could go on is added then.  There is one exception.  A piece of the text of a template
is only handed out if what stops it is seen, but a back-quote that stops it is not taken.  Main
statement: `Lexer.next_restricts`, the converse of `Lexer.next_extends`.
-/
import Brace.Proofs.Token.Extends

namespace Brace

/-! ## Lexemes -/

namespace Scan

/-- Layout that ends early ends there without the characters behind it, too. -/
theorem layout_restrict {opened : Bool} {cs ds : List Char}
    (h : layout opened (cs ++ ds) < cs.length) : layout opened cs = layout opened (cs ++ ds) := by
  fun_induction layout opened cs <;> simp_all [layout]

theorem quoted_pos {quote : Char} {cs text : List Char} {n : Nat}
    (h : quoted quote cs = some (text, n)) : 0 < n := by
  unfold quoted at h
  split at h
  · cases h
  · cases h
  · obtain ⟨⟨t, k⟩, -, he⟩ := Option.map_eq_some_iff.mp h
    cases he
    exact Nat.succ_pos _
  · split at h
    · cases h
      exact Nat.one_pos
    · obtain ⟨⟨t, k⟩, -, he⟩ := Option.map_eq_some_iff.mp h
      cases he
      exact Nat.succ_pos _

/-- A string that is closed within the first characters is read without the others as well. -/
theorem quoted_restrict {quote : Char} {cs ds text : List Char} {n : Nat}
    (h : quoted quote (cs ++ ds) = some (text, n)) (hn : n ≤ cs.length) :
    quoted quote cs = some (text, n) := by
  fun_induction quoted quote cs generalizing text n with
  -- An empty text would have to close the string.
  | case1 => exact absurd (quoted_pos h) (Nat.not_lt.mpr hn)
  | case2 =>
    cases ds with
    | nil => exact h
    | cons d ds =>
      -- The character behind the backslash would have been taken with it.
      rw [List.singleton_append, quoted] at h
      obtain ⟨⟨t, k⟩, -, he⟩ := Option.map_eq_some_iff.mp h
      cases he
      simp at hn
  | case3 c cs ih =>
    rw [List.cons_append, List.cons_append, quoted] at h
    obtain ⟨⟨t, k⟩, hq, he⟩ := Option.map_eq_some_iff.mp h
    cases he
    rw [ih hq (by simpa using hn)]
    rfl
  | case4 cs hnil hcons =>
    rw [List.cons_append, quoted_cons (ne_backslash hnil hcons), if_pos rfl] at h
    exact h
  | case5 c cs hnil hcons hne ih =>
    rw [List.cons_append, quoted_cons (ne_backslash hnil hcons), if_neg hne] at h
    obtain ⟨⟨t, k⟩, hq, he⟩ := Option.map_eq_some_iff.mp h
    cases he
    rw [ih hq (by simpa using hn)]
    rfl

theorem pattern_pos {escaped : Bool} {cs text : List Char} {n : Nat}
    (h : pattern escaped cs = some (text, n)) : 0 < n := by
  unfold pattern at h
  split at h
  · cases h
  · split at h
    · cases h
      exact Nat.one_pos
    · obtain ⟨⟨t, k⟩, -, he⟩ := Option.map_eq_some_iff.mp h
      cases he
      exact Nat.succ_pos _

/-- So is a regular expression that is closed there. -/
theorem pattern_restrict {escaped : Bool} {cs ds text : List Char} {n : Nat}
    (h : pattern escaped (cs ++ ds) = some (text, n)) (hn : n ≤ cs.length) :
    pattern escaped cs = some (text, n) := by
  fun_induction pattern escaped cs generalizing text n with
  | case1 => exact absurd (pattern_pos h) (Nat.not_lt.mpr hn)
  | case2 escaped c cs hc =>
    rw [List.cons_append, pattern, if_pos hc] at h
    exact h
  | case3 escaped c cs hc ih =>
    rw [List.cons_append, pattern, if_neg hc] at h
    obtain ⟨⟨t, k⟩, hp, he⟩ := Option.map_eq_some_iff.mp h
    cases he
    rw [ih hp (by simpa using hn)]
    rfl

/-- Flags are only added to those already read. -/
theorem flags_length_le {seen cs fs : List Char} (h : flags seen cs = .ok fs) :
    seen.length ≤ fs.length := by
  fun_induction flags seen cs with
  | case1 | case3 =>
    cases h
    simp
  | case2 seen c cs hc ih => exact Nat.le_of_succ_le (ih h)
  | case4 => cases h

/-- The flags of a regular expression are read alike if none of them stands behind the cut. -/
theorem flags_restrict {seen cs ds fs : List Char} (h : flags seen (cs ++ ds) = .ok fs)
    (hn : fs.length ≤ seen.length + cs.length) : flags seen cs = .ok fs := by
  fun_induction flags seen cs with
  | case1 seen =>
    cases ds with
    | nil => exact h
    | cons d ds =>
      rw [List.nil_append, flags] at h
      split at h
      · -- A flag behind the text would have been taken.
        have := flags_length_le h
        simp at this hn
        omega
      · split at h
        · exact h
        · cases h
  | case2 seen c cs hc ih =>
    rw [List.cons_append, flags, if_pos hc] at h
    exact ih h (by simpa [Nat.add_comm, Nat.add_left_comm] using hn)
  -- A delimiter in front of the cut ends the flags in both texts.
  | case3 seen c cs hc hblank =>
    rw [List.cons_append, flags, if_neg hc, if_pos hblank] at h
    exact h
  | case4 seen c cs hc hblank =>
    rw [List.cons_append, flags, if_neg hc, if_neg hblank] at h
    cases h

/-- A run of characters that ends within the first ones is the run of these. -/
theorem takeWhile_restrict (p : Char → Bool) (cs ds : List Char)
    (h : ((cs ++ ds).takeWhile p).length ≤ cs.length) :
    cs.takeWhile p = (cs ++ ds).takeWhile p := by
  rw [List.takeWhile_append] at h ⊢
  split at h
  · next heq =>
    rw [List.length_append] at h
    have hds : ds.takeWhile p = [] := List.eq_nil_of_length_eq_zero (by omega)
    rw [if_pos heq, hds, List.append_nil]
    exact (List.takeWhile_sublist p).eq_of_length heq
  · next hne => rw [if_neg hne]

/-- A number that is written in the first characters is read from them alone, since the characters
that end it do not matter. -/
theorem number_restrict {cs ds : List Char} {l : Number.Literal} {n : Nat}
    (h : number (cs ++ ds) = (some l, n)) (hn : n ≤ cs.length) : number cs = (some l, n) := by
  have hdrop {cs ds : List Char} {k : Nat} (hk : k ≤ cs.length) :
      (cs ++ ds).drop k = cs.drop k ++ ds := List.drop_append_of_le_length hk
  unfold number at h ⊢
  simp only at h ⊢
  -- With a point, the whole part, the point and the digits behind it all lie in front of the cut.
  split at h
  · next more hmore =>
    split at h
    · cases h
    · next hdot =>
      cases h
      have hwhole := takeWhile_restrict Char.isDigit cs ds (by omega)
      rw [← hwhole] at hmore hn ⊢
      -- The point has been taken, so it stands in front of the cut.
      cases hrest : cs.drop (cs.takeWhile Char.isDigit).length with
      | nil =>
        have := List.drop_eq_nil_iff.mp hrest
        omega
      | cons d rest =>
        rw [hdrop (by omega), hrest, List.cons_append] at hmore
        obtain ⟨rfl, rfl⟩ := List.cons.inj hmore
        have hlen := congrArg List.length hrest
        simp at hlen
        have hfraction := takeWhile_restrict Char.isDigit rest ds (by omega)
        rw [← hfraction] at hn hdot ⊢
        simp only
        rw [if_neg]
        intro hhead
        obtain ⟨more', hmore'⟩ := List.head?_eq_some_iff.mp hhead
        refine hdot ?_
        rw [hdrop (by omega), hmore']
        rfl
  · next hnot =>
    cases h
    have hwhole := takeWhile_restrict Char.isDigit cs ds hn
    rw [← hwhole] at hnot hn ⊢
    split
    · next more hmore =>
      -- A point in the shorter text would be one in the longer text.
      refine absurd ?_ (hnot (more ++ ds))
      rw [hdrop hn, hmore]
      rfl
    · rfl

/-- What stops a run stands among the first `n` characters, or is an interpolation that begins
there. -/
def TemplateRun.Within (run : TemplateRun) (n : Nat) : Prop :=
  run.stop = .interpolation ∧ run.length ≤ n ∨ run.stop = .backquote ∧ run.length < n

theorem TemplateRun.Within.length_le {run : TemplateRun} {n : Nat} (h : run.Within n) :
    run.length ≤ n := by
  obtain ⟨-, hn⟩ | ⟨-, hn⟩ := h
  · exact hn
  · exact Nat.le_of_lt hn

/-- Characters in front of a run move the cut as far as they are long. -/
theorem TemplateRun.within_after {text : List Char} {k n : Nat} {run : TemplateRun} :
    (run.after text k).Within (n + k) ↔ run.Within n := by
  unfold Within after
  simp only
  constructor
  all_goals
    rintro (⟨hs, hn⟩ | ⟨hs, hn⟩)
    · exact Or.inl ⟨hs, by omega⟩
    · exact Or.inr ⟨hs, by omega⟩

/-- A run that is stopped at once by an interpolation has no text. -/
theorem template_within_zero {opened : Bool} {cs : List Char}
    (h : (template opened cs).Within 0) :
    opened = true ∧ template opened cs = ⟨[], 0, .interpolation⟩ := by
  obtain ⟨hs, hn⟩ | ⟨-, hn⟩ := h
  · cases opened with
    | false => exact absurd (template_length_pos _ hs) (Nat.not_lt.mpr hn)
    | true =>
      have htext := Nat.le_trans (template_text_length_le true cs) hn
      generalize template true cs = run at hs hn htext
      obtain ⟨text, n, stop⟩ := run
      obtain rfl : text = [] := List.eq_nil_of_length_eq_zero (Nat.le_zero.mp htext)
      obtain rfl : n = 0 := Nat.le_zero.mp hn
      obtain rfl : stop = .interpolation := hs
      exact ⟨rfl, rfl⟩
  · cases hn

/-- A backslash in front of the cut that stands for itself does so also with the characters behind
the cut: with one of these it would be read together, and then the text would reach behind the cut.
-/
theorem backslash_append_ne {c d : Char} {cs ds : List Char}
    (hd : d = '\x7b' ∨ d = '\x60' ∨ d = '\\')
    (h : (template false (c :: (cs ++ ds))).Within (cs.length + 1))
    (hcs : ∀ ds, c = '\\' → cs = d :: ds → False) (es : List Char) (hc : c = '\\') :
    cs ++ ds ≠ d :: es := by
  intro heq
  cases cs with
  | nil =>
    rw [hc, heq] at h
    have hle := h.length_le
    rcases hd with rfl | rfl | rfl
    all_goals
      rw [template] at hle
      simp [TemplateRun.after] at hle
      omega
  | cons e cs =>
    obtain ⟨rfl, -⟩ := List.cons.inj heq
    exact hcs cs hc rfl

/-- The text of a template is read in the same way if what stops it stands in front of the cut, or
if the cut stands where an interpolation begins. -/
theorem template_restrict {opened : Bool} {cs ds : List Char}
    (h : (template opened (cs ++ ds)).Within cs.length) :
    template opened cs = template opened (cs ++ ds) := by
  -- Character by character: what is read in front of the cut is the same, and the run ends before
  -- it.
  fun_induction template opened cs with
  | case1 => exact (template_within_zero h).2.symm
  | case2 c cs hc ih =>
    rw [List.cons_append, template, if_pos hc] at h ⊢
    rw [ih (TemplateRun.within_after.mp h)]
  | case3 cs hc ih =>
    rw [List.cons_append, template, if_neg hc, if_pos rfl] at h ⊢
    rw [ih (TemplateRun.within_after.mp h)]
  | case4 c cs hc hq => rw [List.cons_append, template, if_neg hc, if_neg hq]
  | case5 => cases (template_within_zero h).1
  | case6 cs ih | case7 cs ih | case8 cs ih =>
    rw [List.cons_append, List.cons_append, template] at h ⊢
    rw [ih (TemplateRun.within_after.mp h)]
  | case9 cs h1 h2 h3 =>
    rw [List.cons_append, template, if_pos rfl]
    all_goals simp
  | case10 cs h1 h2 h3 h4 ih =>
    rw [List.cons_append, template, if_neg h4, if_pos rfl] at h ⊢
    · rw [ih (TemplateRun.within_after.mp h)]
    all_goals simp
  | case11 c cs h1 h2 h3 hq hb ih =>
    -- A backslash in front of the cut would take the first character behind it, but the run ends
    -- here.
    have hrun : template false (c :: cs ++ ds) = (template false (cs ++ ds)).after [c] 1 := by
      rw [List.cons_append, template, if_neg hq, if_neg hb]
      · exact backslash_append_ne (Or.inl rfl) h h1
      · exact backslash_append_ne (Or.inr (Or.inl rfl)) h h2
      · exact backslash_append_ne (Or.inr (Or.inr rfl)) h h3
    rw [hrun] at h ⊢
    rw [ih (TemplateRun.within_after.mp h)]

end Scan

/-! ## Lexers -/

namespace Lexer

/-- A token for which nothing is taken from the last characters `ds` is handed out without them,
too. -/
def Restricts (ds : List Char) (r r' : Except LexError Token × Lexer) : Prop :=
  ∀ t, r'.1 = .ok t → ds.length ≤ r'.2.cursor.rest.length → r.1 = .ok t ∧ r.2.Extends r'.2 ds

variable {l l' : Lexer} {ds : List Char}

/-- An error puts no condition on the shorter text. -/
theorem restricts_refuse {r : Except LexError Token × Lexer} (n : Nat) (fault : LexFault) :
    Restricts ds r (l'.refuse n fault) := fun _ h => nomatch h

/-- It is enough to hand out the same token if all that is taken for it stands in front of the
cut. -/
theorem restricts_emit_of (h : l.Extends l' ds) (hne : ds ≠ []) {n : Nat} {t : Token}
    {r : Except LexError Token × Lexer} (hr : n ≤ l.cursor.rest.length → r = l.emit n t) :
    Restricts ds r (l'.emit n t) := by
  intro u hu hlen
  have hpos := List.length_pos_iff.mpr hne
  have hn : n ≤ l.cursor.rest.length := by
    change ds.length ≤ (l'.cursor.rest.drop n).length at hlen
    rw [h.rest, List.length_drop, List.length_append] at hlen
    omega
  rw [hr hn]
  exact ⟨hu, h.forward hn⟩

theorem restricts_emit (h : l.Extends l' ds) (hne : ds ≠ []) (n : Nat) (t : Token) :
    Restricts ds (l.emit n t) (l'.emit n t) := restricts_emit_of h hne fun _ => rfl

/-- A regular expression is read alike if neither it nor its flags are cut. -/
theorem restricts_readRegExp (h : l.Extends l' ds) (hne : ds ≠ []) (hl : l.cursor.rest ≠ []) :
    Restricts ds l.readRegExp l'.readRegExp := by
  have htail : l'.cursor.rest.tail = l.cursor.rest.tail ++ ds := by
    rw [h.rest, List.tail_append_of_ne_nil hl]
  have hlen : l.cursor.rest.tail.length = l.cursor.rest.length - 1 := List.length_tail
  rw [readRegExp.eq_def l', htail]
  split
  · exact restricts_refuse _ _
  · next pattern n hp =>
    split
    · next flags hf =>
      refine restricts_emit_of h hne fun hn => ?_
      rw [h.rest, List.drop_append_of_le_length (by omega)] at hf
      have hf' := Scan.flags_restrict hf (by rw [List.length_drop, List.length_nil]; omega)
      unfold readRegExp
      simp only [Scan.pattern_restrict hp (by omega), hf']
    · exact restricts_refuse _ _

/-- Each kind of token is read alike if it is not cut.  The kinds are taken in the order in which
the lexer tries them. -/
theorem restricts_readFrom (h : l.Extends l' ds) (hne : ds ≠ []) {c : Char} {rest : List Char}
    (hrest : l.cursor.rest = c :: rest) :
    Restricts ds (l.readFrom c rest) (l'.readFrom c (rest ++ ds)) := by
  have hlen : l.cursor.rest.length = rest.length + 1 := by rw [hrest, List.length_cons]
  have emits (n : Nat) (t : Token) : Restricts ds (l.emit n t) (l'.emit n t) :=
    restricts_emit h hne n t
  unfold readFrom
  simp only [h.operand, h.modes]
  split
  · cases hq : Scan.quoted c (rest ++ ds) with
    | none => exact restricts_refuse _ _
    | some q =>
      refine restricts_emit_of h hne fun hn => ?_
      rw [Scan.quoted_restrict hq (by omega)]
  split
  · cases hl : Scan.number (c :: (rest ++ ds)) with
    | mk literal n =>
      cases literal with
      | none => exact restricts_refuse _ _
      | some literal =>
        refine restricts_emit_of h hne fun hn => ?_
        rw [← List.cons_append] at hl
        rw [Scan.number_restrict hl (by simpa [hlen] using hn)]
  split
  · refine restricts_emit_of h hne fun hn => ?_
    rw [Scan.takeWhile_restrict _ rest ds (by omega)]
  split
  · exact restricts_readRegExp h hne (by simp [hrest])
  -- A comparison looks one character further, and that character may be the first behind the cut.
  have hequals {t u : Token} : Restricts ds
      (if rest.head? = some '=' then l.emit 2 t else l.emit 1 u)
      (if (rest ++ ds).head? = some '=' then l'.emit 2 t else l'.emit 1 u) := by
    cases rest with
    | nil =>
      rw [List.nil_append, List.head?_nil, if_neg nofun]
      split
      · refine restricts_emit_of h hne fun hn => ?_
        -- The sign of equality would have been taken from behind the cut.
        simp [hlen] at hn
      · exact emits _ _
    | cons d rest =>
      rw [List.cons_append, List.head?_cons, List.head?_cons]
      split <;> exact emits _ _
  split
  · exact hequals
  split
  · exact hequals
  split
  · exact restricts_emit (h.withModes (.template :: l.modes)) hne _ _
  split
  · exact restricts_emit (h.withModes (Mode.openBrace l.modes)) hne _ _
  split
  · exact restricts_emit (h.withModes (Mode.closeBrace l.modes)) hne _ _
  split
  · exact emits _ _
  · exact emits _ _
  · exact restricts_refuse _ _

/-- So is the layout in front of it, which ends where the token begins. -/
theorem restricts_readExpression (h : l.Extends l' ds) (hne : ds ≠ []) (hh : l'.held = false) :
    Restricts ds l.readExpression l'.readExpression := by
  intro t ht hlen
  have hpos := List.length_pos_iff.mpr hne
  cases hdrop' : l'.cursor.rest.drop (Scan.layout false l'.cursor.rest) with
  | nil =>
    -- At the end of the source nothing is left.
    obtain ⟨hno, heof⟩ := readExpression_of_drop_eq_nil hdrop'
    rw [heof (hno t ht)] at hlen
    change ds.length ≤ ((l'.cursor.rest.drop _).drop 0).length at hlen
    rw [hdrop'] at hlen
    simp at hlen
    exact absurd hlen hne
  | cons c rest' =>
    have hrest' : (l'.forward (Scan.layout false l'.cursor.rest)).cursor.rest = c :: rest' := hdrop'
    have hread := readExpression_of_drop hdrop'
    have hsmaller := (shrinks_readFrom _ hrest').2 t (hread ▸ ht) fun he =>
      readFrom_ne_eof _ c rest' (he ▸ hread ▸ ht)
    rw [← hread] at hsmaller
    -- The token takes a character, so what stands in front of it ends in front of the cut.
    have hlayout : Scan.layout false l'.cursor.rest < l.cursor.rest.length := by
      simp only [size, forward, Cursor.forward_rest, hh, Bool.toNat_false, List.length_drop,
        congrArg List.length h.rest, List.length_append] at hsmaller
      omega
    rw [h.rest] at hlayout
    have hsame := Scan.layout_restrict hlayout
    rw [← h.rest] at hsame hlayout
    have hdrop : l'.cursor.rest.drop (Scan.layout false l'.cursor.rest) =
        l.cursor.rest.drop (Scan.layout false l'.cursor.rest) ++ ds := by
      rw [h.rest, List.drop_append_of_le_length (Nat.le_of_lt (h.rest ▸ hlayout))]
    rw [← hsame] at hdrop hdrop'
    cases hrest : l.cursor.rest.drop (Scan.layout false l.cursor.rest) with
    | nil =>
      have := List.drop_eq_nil_iff.mp hrest
      omega
    | cons d rest =>
      rw [hdrop, hrest] at hdrop'
      obtain ⟨rfl, rfl⟩ := List.cons.inj hdrop'
      rw [hread, ← hsame] at ht hlen ⊢
      rw [readExpression_of_drop hrest]
      exact restricts_readFrom (h.forward (by omega)) hne hrest t ht hlen

/-- What stops the text of a template stands in front of the cut, or an interpolation begins
there. -/
theorem within_of_readTemplate {t : Token} (h : l.Extends l' ds) (hne : ds ≠ [])
    (ht : l'.readTemplate.1 = .ok t) (hlen : ds.length ≤ l'.readTemplate.2.cursor.rest.length)
    (hseam : l'.readTemplate.2.cursor.rest = ds → l'.readTemplate.2.modes ≠ l'.modes) :
    (Scan.template false l'.cursor.rest).Within l.cursor.rest.length := by
  have hpos := List.length_pos_iff.mpr hne
  -- What is left holds all that was put behind, so no more than the first part has been taken.
  have hdrop (n : Nat) (hn : ds.length ≤ (l'.cursor.rest.drop n).length) :
      n ≤ l.cursor.rest.length := by
    rw [h.rest, List.length_drop, List.length_append] at hn
    omega
  unfold readTemplate at ht hlen hseam
  simp only at ht hlen hseam
  split at ht
  · cases ht
  · next hs htext =>
    simp only [hs, htext] at hlen
    exact Or.inr ⟨hs, hdrop _ hlen⟩
  · next hs _ =>
    -- The back-quote is not taken, so it may stand behind the cut.
    simp only [hs] at hlen hseam
    have hle := hdrop _ hlen
    refine Or.inr ⟨hs, Nat.lt_of_le_of_ne hle fun heq => hseam ?_ rfl⟩
    show l'.cursor.rest.drop _ = ds
    rw [heq, h.rest, List.drop_left]
  · next hs htext =>
    simp only [hs, htext] at hlen
    exact Or.inl ⟨hs, hdrop _ hlen⟩
  · next hs _ =>
    simp only [hs] at hlen
    exact Or.inl ⟨hs, hdrop _ hlen⟩

/-- The text of a template is read in the same way where the text is cut off behind what is taken,
unless the cut stands in front of the back-quote that stops it. -/
theorem template_eq_of_readTemplate {k : Lexer} {t : Token} (h : l.Extends l' ds) (hne : ds ≠ [])
    (hm : l'.mode = .template) (hr : l'.readTemplate = (.ok t, k))
    (hlen : ds.length ≤ k.cursor.rest.length)
    (hseam : k.cursor.rest = ds → Mode.InExpression k.modes) :
    Scan.template false l.cursor.rest = Scan.template false l'.cursor.rest := by
  have hwithin : (Scan.template false l'.cursor.rest).Within l.cursor.rest.length := by
    refine within_of_readTemplate h hne (congrArg Prod.fst hr) ?_ ?_
    all_goals rw [hr]
    · exact hlen
    · intro heq hmodes
      exact inExpression_iff.mp (hmodes ▸ hseam heq) hm
  rw [h.rest] at hwithin ⊢
  exact Scan.template_restrict hwithin

theorem restricts_readTemplate (h : l.Extends l' ds) (hne : ds ≠ [])
    (hrun : Scan.template false l.cursor.rest = Scan.template false l'.cursor.rest) :
    Restricts ds l.readTemplate l'.readTemplate := by
  unfold readTemplate
  simp only [hrun, h.modes]
  split
  · exact restricts_refuse _ _
  · exact restricts_emit (h.withModes l.modes.tail) hne _ _
  · exact restricts_emit h hne _ _
  · exact restricts_emit (h.withModes (.interpolation 0 :: l.modes)) hne _ _
  · exact restricts_emit ((h.withModes (.interpolation 0 :: l.modes)).withHeld true) hne _ _

/-- The same token is read where the text is cut off behind what is taken, unless the cut stands in
front of the back-quote that stops a piece of the text of a template. -/
theorem restricts_read {k : Lexer} {t : Token} (h : l.Extends l' ds) (hne : ds ≠ [])
    (hr : l'.read = (.ok t, k)) (hlen : ds.length ≤ k.cursor.rest.length)
    (hseam : k.cursor.rest = ds → Mode.InExpression k.modes) :
    l.read.1 = .ok t ∧ l.read.2.Extends k ds := by
  unfold read at hr ⊢
  rw [h.held, h.mode_eq] at hr
  -- A brace that is held back, the text of a template, or an expression.
  by_cases hh : l.held = true
  · rw [if_pos hh] at hr ⊢
    have := restricts_emit (h.withHeld false) hne 0 (.punct .leftBrace) t
    rw [hr] at this
    exact this rfl hlen
  · rw [if_neg hh] at hr ⊢
    split at hr
    · next hm =>
      have hrun := template_eq_of_readTemplate h hne (h.mode_eq.trans hm) hr hlen hseam
      have := restricts_readTemplate h hne hrun t
      rw [hr] at this
      exact this rfl hlen
    · next hm =>
      have := restricts_readExpression h hne (h.held.trans (Bool.eq_false_iff.mpr hh)) t
      rw [hr] at this
      exact this rfl hlen

/-- The same token is handed out where the text is cut off in this way. -/
theorem next_restricts {m' : Lexer} {t : Token} (h : l.Extends l' ds) (hne : ds ≠ [])
    (hn : l'.next = (.ok t, m')) (hlen : ds.length ≤ m'.cursor.rest.length)
    (hseam : m'.cursor.rest = ds → Mode.InExpression m'.modes) :
    ∃ m, l.next = (.ok t, m) ∧ m.Extends m' ds := by
  obtain ⟨k, hr, rfl⟩ := next_eq_ok_iff.mp hn
  rw [cursor_remember] at hlen hseam
  rw [modes_remember] at hseam
  obtain ⟨hanswer, hextends⟩ := restricts_read h hne hr hlen hseam
  exact ⟨_, next_eq_ok_iff.mpr ⟨_, Prod.ext hanswer rfl, rfl⟩, hextends.remember t⟩

end Lexer

end Brace
