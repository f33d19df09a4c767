/-
# Layout between tokens

Layout can be put between any two tokens of a text: the answers of the lexer stay the same, errors
included, if what is put in begins with a blank and has no open comment, and if the lexer is not in
the text of a template there.  There is one exception.  Where the text ends in an open comment and
the lexer has come to its end, what is put in is read from inside this comment.  Main statement:
`answer_insertAt_iff`.
-/
import Brace.Proofs.Token.Answers
import Brace.Proofs.Token.Consumes
import Brace.Proofs.Token.Layout
import Brace.Proofs.Token.Restricts

namespace Brace

namespace Lexer

variable {l l' m : Lexer} {cs ds : List Char} {t : Token}

/-! ## Behind the layout -/

/-- The lexer `l'` differs from `l` by its position and by layout in front of the characters still
to be read. -/
structure Padded (l l' : Lexer) (cs : List Char) : Prop where
  /-- The characters still to be read. -/
  rest : l'.cursor.rest = cs ++ l.cursor.rest
  /-- What is read first is layout. -/
  layout : IsLayout cs
  /-- It is read in an expression. -/
  expression : Mode.InExpression l.modes
  /-- The modes. -/
  modes : l'.modes = l.modes
  /-- Whether a brace is held back. -/
  held : l'.held = l.held
  /-- Whether an operand is expected. -/
  operand : l'.atOperand = l.atOperand

/-- A brace that is held back is handed out. -/
theorem next_of_held (hh : l.held = true) : l.next =
    (.ok (.punct .leftBrace), ⟨l.cursor, l.modes, false, some (.punct .leftBrace)⟩) := by
  rw [next, read, if_pos hh]
  dsimp only [emit, forward]
  rw [Cursor.forward_zero, remember_of_ne (by simp)]

/-- Layout in front of a token is passed over.  In front of it, a brace may be held back. -/
theorem Padded.next (h : l.Padded l' cs) : l.answer 0 = l'.answer 0 ∧
    (l.next.2.Extends l'.next.2 [] ∨ l.next.2.Padded l'.next.2 cs) := by
  cases hh : l.held with
  | true =>
    rw [answer, answer, behind, behind, next_of_held hh, next_of_held (h.held.trans hh)]
    -- A brace that is held back is handed out without a look at the text, so the blanks stay.
    exact ⟨rfl, Or.inr ⟨h.rest, h.layout, h.expression, h.modes, rfl, rfl⟩⟩
  | false =>
    have hread : Mirrors l.read l'.read := by
      rw [read_of_inExpression hh h.expression,
        read_of_inExpression (h.held.trans hh) (h.modes ▸ h.expression)]
      -- The blanks count to the layout in front of the token, so that both lexers read the token
      -- from the same characters.
      apply mirrors_readExpression
      refine ⟨?_, h.modes, h.held, h.operand⟩
      obtain ⟨hlayout, hclosed⟩ := Scan.layout_of_isLayout h.layout
      show l'.cursor.rest.drop _ = l.cursor.rest.drop _ ++ []
      rw [h.rest, Scan.layout_append hlayout, hclosed, List.drop_append, List.append_nil]
      simp
    exact ⟨(mirrors_next hread).1, Or.inl (mirrors_next hread).2⟩

/-- Layout in front of the characters changes no answer. -/
theorem Padded.answer_eq (h : l.Padded l' cs) (n : Nat) : l.answer n = l'.answer n := by
  induction n generalizing l l' with
  | zero => exact h.next.1
  | succ n ih =>
    rcases h.next.2 with hsame | hpadded
    · exact answer_eq_of_extends hsame n
    · exact ih hpadded

/-! ## In front of the layout -/

/-- The lexers differ by layout behind some characters that both of them have still to read. -/
def Parted (l l' : Lexer) (cs ds : List Char) : Prop :=
  ∃ k : Lexer, k.Extends l ds ∧ k.Extends l' (cs ++ ds)

/-- Where nothing but what stands behind the layout is left, the layout stands in front. -/
theorem Parted.padded (h : Parted l l' cs ds) (hcs : IsLayout cs) (hrest : l.cursor.rest = ds)
    (hm : Mode.InExpression l.modes) : l.Padded l' cs := by
  obtain ⟨k, hk, hk'⟩ := h
  refine ⟨?_, hcs, hm, hk'.modes.trans hk.modes.symm, hk'.held.trans hk.held.symm,
    hk'.operand.trans hk.operand.symm⟩
  have hnil : k.cursor.rest = [] := List.self_eq_append_left.mp (hrest ▸ hk.rest)
  rw [hk'.rest, hnil, hrest, List.nil_append]

/-- Layout with nothing behind it stands at the end. -/
theorem Parted.extends (h : Parted l l' cs []) : l.Extends l' cs := by
  obtain ⟨k, hk, hk'⟩ := h
  refine ⟨?_, hk'.modes.trans hk.modes.symm, hk'.held.trans hk.held.symm,
    hk'.operand.trans hk.operand.symm⟩
  rw [hk'.rest, hk.rest, List.append_nil, List.append_nil]

/-- Where the text of a template is read up to an interpolation, the text is handed out, or the
brace if there is none, and the lexer goes on behind the brace. -/
theorem OpensAtEnd.next_of_extends {k : Lexer} (ho : k.OpensAtEnd) (h : k.Extends l ds)
    {text : List Char} {n : Nat}
    (hrun : Scan.template false l.cursor.rest = ⟨text, n, .interpolation⟩) :
    ∃ x, x = (if text.isEmpty then .punct .leftBrace else .string (String.ofList text)) ∧
      l.next =
        (.ok x, ⟨l.cursor.forward n, .interpolation 0 :: k.modes, !text.isEmpty, some x⟩) := by
  refine ⟨_, rfl, ?_⟩
  have hread : l.read = l.readTemplate := by
    rw [read, if_neg (by simp [h.held, ho.held]), h.mode_eq, ho.mode]
  rw [readTemplate_of_interpolation (by rw [hrun])] at hread
  simp only [hrun, h.modes, h.held, ho.held, Bool.or_false] at hread
  rw [next, hread]
  dsimp only [emit]
  rw [remember_of_ne (by split <;> simp)]
  rfl

/-- Where the characters that both lexers have still to read end with the brace of an interpolation,
blanks behind it are taken together with it. -/
theorem OpensAtEnd.padded {k : Lexer} (ho : k.OpensAtEnd) (h : k.Extends l ds)
    (h' : k.Extends l' (cs ++ ds)) (hcs : IsLayout cs)
    (hds : Scan.template true ds = ⟨[], 0, .interpolation⟩) :
    l.answer 0 = l'.answer 0 ∧ l.next.2.cursor.rest = ds ∧
      ∃ rest, l.next.2.Padded l'.next.2 rest := by
  have hlen := List.drop_eq_nil_iff.mp ho.drop
  obtain ⟨blanks, rest, rfl, hrest, hblanks⟩ := Scan.template_of_isLayout hcs hds
  have hrun := Scan.template_append ho.stop hlen ds
  have hrun' := Scan.template_append ho.stop hlen (blanks ++ rest ++ ds)
  rw [hds, ← h.rest] at hrun
  rw [hblanks, ← h'.rest] at hrun'
  simp only [Scan.TemplateRun.after, List.append_nil] at hrun hrun'
  -- Both lexers hand out the same token and go on behind the brace and the blanks.
  obtain ⟨x, hx, hl⟩ := ho.next_of_extends h hrun
  obtain ⟨x', hx', hl'⟩ := ho.next_of_extends h' hrun'
  obtain rfl : x' = x := hx'.trans hx.symm
  have hafter : l.next.2.cursor.rest = ds := by
    rw [hl]
    show l.cursor.rest.drop k.cursor.rest.length = ds
    rw [h.rest, List.drop_left]
  refine ⟨?_, hafter, rest, ?_, hrest, ?_, ?_, ?_, ?_⟩
  -- The tokens are the same.
  · show l.next.1.mapError _ = l'.next.1.mapError _
    rw [hl, hl']
  -- The blanks are taken together with the brace, and a rest of the layout is left in front of the
  -- text.
  · rw [hafter, hl']
    show l'.cursor.rest.drop (k.cursor.rest.length + blanks.length) = rest ++ ds
    rw [h'.rest, ← List.drop_drop, List.drop_left, List.append_assoc, List.drop_left]
  · simp [hl, Mode.InExpression]
  all_goals
    rw [hl, hl']
  all_goals rfl

/-- A token that is taken from the characters in front is handed out also where these are all. -/
theorem Extends.next_front {k : Lexer} (hk : k.Extends l ds) (hn : l.next = (.ok t, m))
    (hlen : ds.length ≤ m.cursor.rest.length)
    (hseam : m.cursor.rest = ds → Mode.InExpression m.modes) :
    ∃ j, k.next = (.ok t, j) ∧ j.Extends m ds := by
  by_cases hne : ds = []
  · subst hne
    obtain ⟨j, hj, hjm⟩ := next_extends hk.symm delimited_nil hn (Or.inl rfl)
    exact ⟨j, hj, hjm.symm⟩
  · exact next_restricts hk hne hn hlen hseam

/-- If the text of a template ends with the characters in front, also where others stand behind it,
then it is the brace of an interpolation that ends it. -/
theorem OpensAtEnd.template_behind {k : Lexer} (ho : k.OpensAtEnd) (hk : k.Extends l ds)
    (hn : l.next = (.ok t, m)) (hlen : ds.length ≤ m.cursor.rest.length)
    (hseam : m.cursor.rest = ds → Mode.InExpression m.modes) :
    Scan.template true ds = ⟨[], 0, .interpolation⟩ := by
  by_cases hne : ds = []
  · rw [hne, Scan.template]
  · obtain ⟨j, hr, rfl⟩ := next_eq_ok_iff.mp hn
    rw [cursor_remember] at hlen hseam
    rw [modes_remember] at hseam
    have hread : l.readTemplate = (.ok t, j) := by
      rw [← hr, read, if_neg (by simp [hk.held, ho.held]), hk.mode_eq, ho.mode]
    -- The text is read alike with and without `ds`, so nothing of `ds` belongs to it.
    have hrun := template_eq_of_readTemplate hk hne (hk.mode_eq.trans ho.mode) hread hlen hseam
    rw [hk.rest, Scan.template_append ho.stop (List.drop_eq_nil_iff.mp ho.drop)] at hrun
    have hlength := congrArg Scan.TemplateRun.length hrun
    have hstop := congrArg Scan.TemplateRun.stop hrun
    have hle := Scan.template_length_le false k.cursor.rest
    simp only [Scan.TemplateRun.after] at hlength hstop
    exact (Scan.template_within_zero (Or.inl ⟨hstop.symm.trans ho.stop, by omega⟩)).2

/-- A token that is taken from the characters that both lexers have still to read is handed out by
both. -/
theorem Parted.next (h : Parted l l' cs ds) (hcs : IsLayout cs) (hdelimited : Delimited (cs ++ ds))
    (hn : l.next = (.ok t, m)) (ht : t ≠ .eof) (hlen : ds.length ≤ m.cursor.rest.length)
    (hseam : m.cursor.rest = ds → Mode.InExpression m.modes) :
    l.answer 0 = l'.answer 0 ∧ (Parted m l'.next.2 cs ds ∨
      m.cursor.rest = ds ∧ ∃ rest, m.Padded l'.next.2 rest) := by
  obtain ⟨k, hk, hk'⟩ := h
  by_cases ho : k.OpensAtEnd
  · -- The layout is taken together with the brace, or stands in front of an expression.
    have hm : l.next.2 = m := congrArg Prod.snd hn
    obtain ⟨hanswer, hrest, hpadded⟩ :=
      ho.padded hk hk' hcs (ho.template_behind hk hn hlen hseam)
    rw [hm] at hrest hpadded
    exact ⟨hanswer, Or.inr ⟨hrest, hpadded⟩⟩
  · -- The token is handed out where the characters in front are all, and then with the layout, too.
    obtain ⟨j, hj, hjm⟩ := hk.next_front hn hlen hseam
    obtain ⟨m', hn', hjm'⟩ := next_extends hk' hdelimited hj (Or.inr ⟨ht, ho⟩)
    have hm' : l'.next.2 = m' := congrArg Prod.snd hn'
    refine ⟨?_, Or.inl ⟨j, hjm, hm' ▸ hjm'⟩⟩
    show l.next.1.mapError _ = l'.next.1.mapError _
    rw [hn, hn']

/-! ## At the end of the source -/

/-- Where only layout is left and no interpolation is open, the end of the source is handed out. -/
theorem next_of_layout (hh : l.held = false) (hm : Mode.InExpression l.modes)
    (hno : ∀ depth, l.mode ≠ .interpolation depth)
    (hlen : Scan.layout false l.cursor.rest = l.cursor.rest.length) :
    l.next = (.ok .eof, l.forward l.cursor.rest.length) := by
  have hdrop := List.drop_eq_nil_iff.mpr (Nat.le_of_eq hlen.symm)
  rw [next, read_of_inExpression hh hm, (readExpression_of_drop_eq_nil hdrop).2 hno, hlen]
  dsimp only [emit, forward]
  rw [Cursor.forward_zero]
  rfl

/-- The end of the source is handed out where only layout is left, and no interpolation is open. -/
theorem next_eq_eof_iff : l.next.1 = .ok .eof ↔ l.held = false ∧ Mode.InExpression l.modes ∧
    (∀ depth, l.mode ≠ .interpolation depth) ∧
      Scan.layout false l.cursor.rest = l.cursor.rest.length := by
  have hlayout := Scan.layout_le false l.cursor.rest
  constructor
  · intro heof
    obtain ⟨k, hr, -⟩ := next_eq_ok_iff.mp (Prod.ext heof rfl : l.next = (.ok .eof, l.next.2))
    -- A brace that is held back would be the answer, and not the end of the source.
    have hh : l.held = false := by
      refine Bool.eq_false_iff.mpr fun hh => ?_
      rw [read, if_pos hh] at hr
      cases hr
    -- In the text of a template the end of the source is an error.
    have hm : Mode.InExpression l.modes := by
      intro hm
      have hagrees := answers_read l .eof (congrArg Prod.fst hr)
      rcases hagrees.template (by rw [lookback, inner_of_not_held hh, hm]) with ⟨s, hs⟩ | hs | hs
      all_goals cases hs
    rw [read_of_inExpression hh hm] at hr
    cases hdrop : l.cursor.rest.drop (Scan.layout false l.cursor.rest) with
    | nil =>
      exact ⟨hh, hm, (readExpression_of_drop_eq_nil hdrop).1 .eof (congrArg Prod.fst hr),
        Nat.le_antisymm hlayout (List.drop_eq_nil_iff.mp hdrop)⟩
    | cons c rest =>
      rw [readExpression_of_drop hdrop] at hr
      exact absurd (congrArg Prod.fst hr) (readFrom_ne_eof _ c rest)
  · rintro ⟨hh, hm, hno, hlen⟩
    rw [next_of_layout hh hm hno hlen]

/-- At the end of the source, layout that is added changes no answer exactly if it is layout behind
what was left. -/
theorem Extends.next_of_eof (h : l.Extends l' cs) (hcs : IsLayout cs)
    (heof : l.next.1 = .ok .eof) :
    (l.answer 0 = l'.answer 0 ↔
      (¬ IsLayout l.cursor.rest → ∃ es, IsLayout ('#' :: (cs ++ es)))) ∧
    (l.answer 0 = l'.answer 0 → l.next.2.Extends l'.next.2 []) := by
  obtain ⟨hh, hm, hno, hlen⟩ := next_eq_eof_iff.mp heof
  -- The longer text ends here as well if and only if its layout goes to its end.
  have hanswer : l.answer 0 = l'.answer 0 ↔
      Scan.layout false l'.cursor.rest = l'.cursor.rest.length := by
    have hzero : l.answer 0 = .ok .eof := answer_eq_ok_iff.mpr heof
    rw [hzero, eq_comm, answer_eq_ok_iff]
    show l'.next.1 = _ ↔ _
    rw [next_eq_eof_iff, h.held, h.modes, h.mode_eq]
    exact ⟨fun h => h.2.2.2, fun h => ⟨hh, hm, hno, h⟩⟩
  constructor
  · rw [hanswer, h.rest]
    exact Scan.layout_append_eq_length_iff hlen hcs
  · intro hsame
    have hlen' := hanswer.mp hsame
    -- Both lexers have taken all of their texts.
    have hread : Mirrors l.read l'.read := by
      rw [read_of_inExpression hh hm,
        read_of_inExpression (h.held.trans hh) (h.modes ▸ hm)]
      apply mirrors_readExpression
      refine ⟨?_, h.modes, h.held, h.operand⟩
      show l'.cursor.rest.drop _ = l.cursor.rest.drop _ ++ []
      rw [hlen, hlen', List.drop_length, List.drop_length, List.append_nil]
    exact (mirrors_next hread).2

/-! ## Several calls -/

theorem rest_of_eof (heof : l.next.1 = .ok .eof) : l.next.2.cursor.rest = [] := by
  obtain ⟨hh, hm, hno, hlen⟩ := next_eq_eof_iff.mp heof
  rw [next_of_layout hh hm hno hlen]
  exact List.drop_length

/-- The first calls of a lexer succeed. -/
def Succeeds (l : Lexer) (k : Nat) : Prop := ∀ i < k, ∃ t, l.answer i = .ok t

theorem Succeeds.next {k : Nat} (h : l.Succeeds (k + 1)) : l.next.2.Succeeds k :=
  fun i hi => h (i + 1) (Nat.succ_lt_succ hi)

/-- The first of the calls answers with a token. -/
theorem Succeeds.exists_next {k : Nat} (h : l.Succeeds (k + 1)) :
    ∃ t, l.next = (.ok t, l.next.2) := by
  obtain ⟨t, ht⟩ := h 0 (Nat.succ_pos k)
  exact ⟨t, Prod.ext (answer_eq_ok_iff.mp ht) rfl⟩

/-- What is left behind some calls is an end of what is left behind fewer calls. -/
theorem Succeeds.suffix {i k : Nat} (h : l.Succeeds k) (hik : i ≤ k) :
    (l.behind k).cursor.rest <:+ (l.behind i).cursor.rest := by
  induction hik with
  | refl => exact List.suffix_refl _
  | @step k _ ih =>
    obtain ⟨t, ht⟩ := h k (Nat.lt_succ_self k)
    rw [behind_succ]
    exact (consumes_next (Prod.ext (answer_eq_ok_iff.mp ht) rfl)).1.trans
      (ih fun j hj => h j (Nat.lt_succ_of_lt hj))

/-- In the text of a template, every call but that for a held brace takes a character. -/
theorem inExpression_of_rest_eq {k : Nat} (h : l.Succeeds k)
    (hrest : (l.behind k).cursor.rest = l.cursor.rest)
    (hm : Mode.InExpression (l.behind k).modes) : Mode.InExpression l.modes := by
  induction k generalizing l with
  | zero => exact hm
  | succ k ih =>
    obtain ⟨t, hn⟩ := h.exists_next
    have hsuffix : l.next.2.cursor.rest <:+ l.cursor.rest := (consumes_next hn).1
    have hsuffix' : l.cursor.rest <:+ l.next.2.cursor.rest :=
      hrest ▸ h.next.suffix (Nat.zero_le k)
    have hsame : l.next.2.cursor.rest = l.cursor.rest :=
      hsuffix.eq_of_length (Nat.le_antisymm hsuffix.length_le hsuffix'.length_le)
    have hnext := ih h.next (hrest.trans hsame.symm) hm
    -- Nothing but a brace that is held back is handed out without a character being taken.
    cases hh : l.held with
    | true =>
      rw [next_of_held hh] at hnext
      exact hnext
    | false =>
      -- Another token takes a character, and at the end of the source the modes stay.
      by_contra hno
      have hne : t ≠ .eof := by
        rintro rfl
        exact hno (next_eq_eof_iff.mp (congrArg Prod.fst hn)).2.1
      have hlt := size_next_lt hn hne
      simp only [size, hsame, hh, Bool.toNat_false] at hlt
      omega

/-- Within its first calls a lexer comes to the end of the source, inside a comment that is not
closed. -/
def EndsInComment (l : Lexer) (k : Nat) : Prop :=
  ∃ i < k, l.answer i = .ok .eof ∧ ¬ IsLayout (l.behind i).cursor.rest

/-- Either the first call comes to the end inside a comment, or one of the calls behind it. -/
theorem endsInComment_succ_iff {k : Nat} : l.EndsInComment (k + 1) ↔
    l.answer 0 = .ok .eof ∧ ¬ IsLayout l.cursor.rest ∨ l.next.2.EndsInComment k := by
  constructor
  · rintro ⟨i, hi, h⟩
    cases i with
    | zero => exact Or.inl h
    | succ i => exact Or.inr ⟨i, Nat.lt_of_succ_lt_succ hi, h⟩
  · rintro (h | ⟨i, hi, h⟩)
    · exact ⟨0, Nat.succ_pos k, h⟩
    · exact ⟨i + 1, Nat.succ_lt_succ hi, h⟩

/-- Where nothing is taken, no comment is. -/
theorem not_endsInComment_of_rest_eq {k : Nat} (h : l.Succeeds k)
    (hrest : (l.behind k).cursor.rest = l.cursor.rest) : ¬ l.EndsInComment k := by
  rintro ⟨i, hi, heof, hno⟩
  have hnil : (l.behind (i + 1)).cursor.rest = [] := by
    rw [behind_succ]
    exact rest_of_eof (answer_eq_ok_iff.mp heof)
  have hk := h.suffix (Nat.succ_le_of_lt hi)
  rw [hnil, List.suffix_nil, hrest] at hk
  have hi' : (l.behind i).cursor.rest <:+ l.cursor.rest :=
    Succeeds.suffix (fun j hj => h j (Nat.lt_trans hj hi)) (Nat.zero_le i)
  rw [hk, List.suffix_nil] at hi'
  rw [hi'] at hno
  exact hno .nil

/-- Layout that is put in where some calls have come to changes no answer, unless a comment is open
there and the layout is none inside it. -/
theorem Parted.answer_eq_iff {k : Nat} (h : Parted l l' cs ds) (hcs : IsLayout cs)
    (hdelimited : Delimited (cs ++ ds)) (hok : l.Succeeds k)
    (hrest : (l.behind k).cursor.rest = ds) (hm : Mode.InExpression (l.behind k).modes) :
    (∀ n, l.answer n = l'.answer n) ↔
      (l.EndsInComment k → ∃ es, IsLayout ('#' :: (cs ++ es))) := by
  induction k generalizing l l' with
  | zero =>
    -- The lexer stands where the layout is put in.
    refine ⟨fun _ hends => ?_, fun _ => (h.padded hcs hrest hm).answer_eq⟩
    obtain ⟨i, hi, -⟩ := hends
    cases hi
  | succ k ih =>
    obtain ⟨t, hn⟩ := hok.exists_next
    have hsuffix : ds <:+ l.next.2.cursor.rest := hrest ▸ hok.next.suffix (Nat.zero_le k)
    rw [forall_answer_eq_iff, endsInComment_succ_iff]
    -- Behind the end of the source nothing is left, so the layout is put in at the end of the text
    -- and is read from inside an open comment if there is one.
    by_cases ht : t = .eof
    · have heof : l.next.1 = .ok .eof := ht ▸ congrArg Prod.fst hn
      have hnil := rest_of_eof heof
      obtain rfl : ds = [] := List.suffix_nil.mp (hnil ▸ hsuffix)
      have hno : ¬ l.next.2.EndsInComment k :=
        not_endsInComment_of_rest_eq hok.next (hrest.trans hnil.symm)
      have hzero : l.answer 0 = .ok .eof := answer_eq_ok_iff.mpr heof
      obtain ⟨hiff, hsame⟩ := h.extends.next_of_eof hcs heof
      rw [or_iff_left hno, and_iff_right hzero, ← hiff]
      exact ⟨And.left, fun h => ⟨h, answer_eq_of_extends (hsame h)⟩⟩
    · have hno : l.answer 0 ≠ .ok .eof := fun heof =>
        ht (Except.ok.inj ((congrArg Prod.fst hn).symm.trans (answer_eq_ok_iff.mp heof)))
      obtain ⟨hanswer, hnext⟩ := h.next hcs hdelimited hn ht hsuffix.length_le fun heq =>
        inExpression_of_rest_eq hok.next (hrest.trans heq.symm) hm
      rw [and_iff_right hanswer, or_iff_right fun h => hno h.1]
      -- Either the layout still lies ahead, or it has been read with this token.
      rcases hnext with hparted | ⟨hds, rest, hpadded⟩
      · exact ih hparted hok.next hrest hm
      · exact ⟨fun _ hends => absurd hends
          (not_endsInComment_of_rest_eq hok.next (hrest.trans hds.symm)),
          fun _ => hpadded.answer_eq⟩

/-- The number of characters of a source that are taken in the first `k` calls. -/
def taken (source : String) (k : Nat) : Nat :=
  source.toList.length - ((ofString source).behind k).cursor.rest.length

/-- A source with characters put in behind what is taken in the first `k` calls. -/
def insertAt (source : String) (k : Nat) (cs : List Char) : String :=
  String.ofList
    (source.toList.take (taken source k) ++ cs ++ source.toList.drop (taken source k))

/-- What is left of a source is what has not been taken. -/
theorem Succeeds.rest_eq_drop {source : String} {k : Nat} (h : (ofString source).Succeeds k) :
    ((ofString source).behind k).cursor.rest = source.toList.drop (taken source k) := by
  obtain ⟨front, hfront⟩ : ((ofString source).behind k).cursor.rest <:+ source.toList :=
    h.suffix (Nat.zero_le k)
  rw [taken, ← hfront, List.length_append, Nat.add_sub_cancel, List.drop_left]

end Lexer

open Lexer

/-- Layout that begins with a blank can be put in behind any calls of the lexer that succeed and do
not end in the text of a template.  All answers stay the same, and so does the tree, if there is
one.  The exception is the end of a source inside a comment: what is put in there has to be layout
behind a number sign, or the answers change. -/
theorem answer_insertAt_iff {source : String} {k : Nat} {c : Char} {cs : List Char}
    (hok : (ofString source).Succeeds k) (hm : ((ofString source).behind k).mode ≠ .template)
    (hc : Scan.isBlank c = true) (hcs : IsLayout cs) :
    let source' := insertAt source k (c :: cs)
    let fits := (ofString source).EndsInComment k → ∃ es, IsLayout ('#' :: (c :: cs ++ es))
    ((∀ n, (ofString source).answer n = (ofString source').answer n) ↔ fits) ∧
      (fits → ∀ a, parse source = .ok a ↔ parse source' = .ok a) := by
  intro source' fits
  have hrest := hok.rest_eq_drop
  have hparted : Parted (ofString source) (ofString source') (c :: cs)
      ((ofString source).behind k).cursor.rest := by
    refine ⟨ofString (String.ofList (source.toList.take (taken source k))), ⟨?_, rfl, rfl, rfl⟩,
      ⟨?_, rfl, rfl, rfl⟩⟩
    · show source.toList = (String.ofList _).toList ++ _
      rw [String.toList_ofList, hrest, List.take_append_drop]
    · show (insertAt source k (c :: cs)).toList = (String.ofList _).toList ++ _
      rw [insertAt, String.toList_ofList, String.toList_ofList, hrest, List.append_assoc]
  -- The blank at the front ends a name or a number in front of it.
  have hdelimited : Delimited (c :: cs ++ ((ofString source).behind k).cursor.rest) :=
    delimited_cons (mem_delimiters_iff.mpr (by rw [hc, Bool.true_or])) _
  have hiff := hparted.answer_eq_iff (.blank hc hcs) hdelimited hok rfl (inExpression_iff.mpr hm)
  exact ⟨hiff, fun hfits => parse_eq_ok_congr (hiff.mpr hfits)⟩

/-- A comment can be put in behind the brace of an interpolation, also before this brace is handed
out. -/
theorem answer_insertAt_held_brace :
    (ofString "\x60a\x7bb\x7d\x60").Succeeds 2 ∧
      ((ofString "\x60a\x7bb\x7d\x60").behind 2).mode ≠ .template ∧ Scan.isBlank ' ' = true ∧
      IsLayout ['#', 'x', '\n'] ∧
      insertAt "\x60a\x7bb\x7d\x60" 2 [' ', '#', 'x', '\n'] = "\x60a\x7b #x\nb\x7d\x60" ∧
      (∀ n, (ofString "\x60a\x7bb\x7d\x60").answer n =
        (ofString "\x60a\x7b #x\nb\x7d\x60").answer n) ∧
      ∀ a, parse "\x60a\x7bb\x7d\x60" = .ok a ↔ parse "\x60a\x7b #x\nb\x7d\x60" = .ok a := by
  have hzero : (ofString "\x60a\x7bb\x7d\x60").answer 0 = .ok (.punct .backquote) := by rfl
  have hone : (ofString "\x60a\x7bb\x7d\x60").answer 1 = .ok (.string "a") := by rfl
  have hok : (ofString "\x60a\x7bb\x7d\x60").Succeeds 2 := by
    intro i hi
    interval_cases i
    · exact ⟨_, hzero⟩
    · exact ⟨_, hone⟩
  have hm : ((ofString "\x60a\x7bb\x7d\x60").behind 2).mode ≠ .template := by decide
  have hcs : IsLayout ['#', 'x', '\n'] :=
    @IsLayout.comment ['x'] '\n' [] (by simp) (Or.inr rfl) .nil
  have hends : ¬ (ofString "\x60a\x7bb\x7d\x60").EndsInComment 2 := by
    rintro ⟨i, hi, heof, -⟩
    interval_cases i
    · cases hzero.symm.trans heof
    · cases hone.symm.trans heof
  have hsource' : insertAt "\x60a\x7bb\x7d\x60" 2 [' ', '#', 'x', '\n'] =
      "\x60a\x7b #x\nb\x7d\x60" := by decide
  obtain ⟨hiff, hparse⟩ := answer_insertAt_iff hok hm (c := ' ') rfl hcs
  rw [hsource'] at hiff hparse
  have hfits (h : (ofString "\x60a\x7bb\x7d\x60").EndsInComment 2) :
      ∃ es, IsLayout ('#' :: (' ' :: ['#', 'x', '\n'] ++ es)) := absurd h hends
  exact ⟨hok, hm, rfl, hcs, hsource', hiff.mpr hfits, hparse hfits⟩

/-- What is put in behind a comment that the end of the source leaves open can close this comment,
and what stands behind it then is read. -/
theorem answer_insertAt_open_comment :
    ¬ ∀ (source : String) (k : Nat) (c : Char) (cs : List Char), (ofString source).Succeeds k →
      ((ofString source).behind k).mode ≠ .template → Scan.isBlank c = true → IsLayout cs →
        ∀ n, (ofString source).answer n = (ofString (insertAt source k (c :: cs))).answer n := by
  intro h
  have heof : (ofString "#a").answer 0 = .ok .eof := by rfl
  have hok : (ofString "#a").Succeeds 1 := by
    intro i hi
    interval_cases i
    exact ⟨_, heof⟩
  have hcs : IsLayout ['#', 'c', '#'] :=
    @IsLayout.comment ['c'] '#' [] (by simp) (Or.inl rfl) .nil
  have hsame := h "#a" 1 ' ' ['#', 'c', '#'] hok (by decide) rfl hcs 0
  have hsource' : insertAt "#a" 1 [' ', '#', 'c', '#'] = "#a #c#" := by decide
  have hname : (ofString "#a #c#").answer 0 = .ok (.identifier "c") := by rfl
  rw [hsource', heof, hname] at hsame
  cases hsame

end Brace
