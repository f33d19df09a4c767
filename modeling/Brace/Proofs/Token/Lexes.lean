/-
# Reading a written text token by token

`Lexes s ts t` says that every lexer at the spot `s` hands out the tokens `ts` and is at the spot
`t` then.  A spot is what decides about the tokens to come: the characters, the modes, and whether
an operand is expected; positions do not matter.  There is one lemma for each kind of token as it is
written in a source, and the tokens of a longer text are put together by `Lexes.append`.
-/
import Brace.Proofs.Number.Shortest
import Brace.Proofs.Token.Lexical

namespace Brace

/-! ## Spots -/

/-- What decides about the tokens to come. -/
structure Spot where
  /-- The characters still to be read. -/
  chars : List Char
  /-- The modes, the innermost one first. -/
  modes : List Mode
  /-- Whether an operand is expected. -/
  operand : Bool

/-- A lexer is at a spot, and no brace is held back. -/
structure Lexer.At (l : Lexer) (s : Spot) : Prop where
  /-- The characters still to be read. -/
  chars : l.cursor.rest = s.chars
  /-- The modes. -/
  modes : l.modes = s.modes
  /-- No brace is held back. -/
  held : l.held = false
  /-- Whether an operand is expected. -/
  operand : l.atOperand = s.operand

/-- Every lexer at the spot `s` hands out the tokens `ts` and is at the spot `t` then. -/
def Lexes (s : Spot) (ts : List Token) (t : Spot) : Prop :=
  ∀ l : Lexer, l.At s → ∃ m, l.Hands ts m ∧ m.At t

namespace Lexes

theorem refl (s : Spot) : Lexes s [] s := fun l hl => ⟨l, .nil l, hl⟩

/-- Tokens are handed out one list behind the other, from spot to spot. -/
theorem append {s t u : Spot} {ts us : List Token} (h : Lexes s ts t) (h' : Lexes t us u) :
    Lexes s (ts ++ us) u := by
  intro l hl
  obtain ⟨m, hm, hmt⟩ := h l hl
  obtain ⟨k, hk, hku⟩ := h' m hmt
  exact ⟨k, hm.append hk, hku⟩

theorem cons {s t u : Spot} {x : Token} {us : List Token} (h : Lexes s [x] t)
    (h' : Lexes t us u) : Lexes s (x :: us) u := h.append h'

end Lexes

/-! ## One token -/

namespace Lexer

/-- Every token but the end is remembered. -/
theorem remember_of_ne {t : Token} (ht : t ≠ .eof) (l : Lexer) :
    l.remember t = { l with previous := some t } := if_neg ht

/-- A token for which characters are taken, as a step from spot to spot. -/
theorem hands_of_read {l m : Lexer} {x : Token} (hx : x ≠ .eof) (h : l.read = (.ok x, m)) :
    l.Hands [x] { m with previous := some x } := by
  refine .cons ?_ hx (.nil _)
  rw [next, h, ← remember_of_ne hx]

end Lexer

variable {text cs : List Char} {modes modes' : List Mode} {operand : Bool} {x : Token}

/-- A token is read where every lexer at the spot emits it. -/
theorem lexes_of_emit (hx : x ≠ .eof)
    (h : ∀ l : Lexer, l.At ⟨text ++ cs, modes, operand⟩ →
      l.read = ({ l with modes := modes' } : Lexer).emit text.length x) :
    Lexes ⟨text ++ cs, modes, operand⟩ [x] ⟨cs, modes', x.expectsOperand⟩ := by
  intro l hl
  refine ⟨_, Lexer.hands_of_read hx (h l hl), ?_, rfl, hl.held, rfl⟩
  show l.cursor.rest.drop text.length = _
  rw [hl.chars, List.drop_left]

namespace Lexer

/-- Without layout in front, a token is read from the first character. -/
theorem readExpression_of_cons {l : Lexer} {c : Char} {cs : List Char}
    (h : l.cursor.rest = c :: cs) (hc : Scan.isBlank c = false ∧ c ≠ '#') :
    l.readExpression = l.readFrom c cs := by
  have hlayout : Scan.layout false l.cursor.rest = 0 := by
    rw [h, Scan.layout, if_neg (by simp [hc.1]), if_neg hc.2]
  have hforward : l.forward 0 = l := by
    rw [forward, Cursor.forward_zero]
  unfold readExpression
  simp only [hlayout, hforward]
  split
  · next hnil => cases h.symm.trans hnil
  · next hcons =>
    obtain ⟨rfl, rfl⟩ := List.cons.inj (h.symm.trans hcons)
    rfl

/-- In an expression a token is read behind the layout. -/
theorem read_of_inExpression {l : Lexer} (hh : l.held = false)
    (hm : Mode.InExpression l.modes) : l.read = l.readExpression := by
  unfold read
  rw [if_neg (by simp [hh])]
  split
  · next hmode => exact absurd hmode (inExpression_iff.mp hm)
  · rfl

/-- Where no characters are left, the end of the source is handed out. -/
theorem At.yields {l : Lexer} {operand : Bool} (h : l.At ⟨[], [.expression], operand⟩) :
    l.Yields [] := by
  have hrest : (l.forward (Scan.layout false l.cursor.rest)).cursor.rest = [] := by
    show l.cursor.rest.drop _ = []
    rw [h.chars, List.drop_nil]
  have hmode : (l.forward (Scan.layout false l.cursor.rest)).mode = .expression := by
    show l.modes.head?.getD .expression = _
    rw [h.modes]
    rfl
  have hread : l.read = (l.forward (Scan.layout false l.cursor.rest)).emit 0 .eof := by
    have hm : Mode.InExpression l.modes := by
      rw [h.modes]
      nofun
    rw [read_of_inExpression h.held hm, readExpression]
    simp only [hrest, hmode]
  refine .eof (m := (l.forward (Scan.layout false l.cursor.rest)).forward 0) ?_
  rw [next, hread]
  rfl

end Lexer

/-- Where a lexer reads an expression, the character at the front decides which token is read. -/
theorem lexes_of_readFrom {c : Char} (hx : x ≠ .eof) (hm : Mode.InExpression modes)
    (hc : Scan.isBlank c = false ∧ c ≠ '#')
    (h : ∀ l : Lexer, l.At ⟨c :: text ++ cs, modes, operand⟩ →
      l.readFrom c (text ++ cs) = ({ l with modes := modes' } : Lexer).emit (text.length + 1) x) :
    Lexes ⟨c :: text ++ cs, modes, operand⟩ [x] ⟨cs, modes', x.expectsOperand⟩ := by
  apply lexes_of_emit hx
  intro l hl
  rw [Lexer.read_of_inExpression hl.held (hl.modes ▸ hm), Lexer.readExpression_of_cons hl.chars hc]
  exact h l hl

/-- The same where the token leaves the modes as they are. -/
theorem lexes_of_readFrom_emit {c : Char} (hx : x ≠ .eof) (hm : Mode.InExpression modes)
    (hc : Scan.isBlank c = false ∧ c ≠ '#')
    (h : ∀ l : Lexer, l.At ⟨c :: text ++ cs, modes, operand⟩ →
      l.readFrom c (text ++ cs) = l.emit (text.length + 1) x) :
    Lexes ⟨c :: text ++ cs, modes, operand⟩ [x] ⟨cs, modes, x.expectsOperand⟩ := by
  apply lexes_of_readFrom hx hm hc
  intro l hl
  have hmodes : l.modes = modes := hl.modes
  rw [h l hl, ← hmodes]

/-- Layout in front of tokens is passed over. -/
theorem Lexes.behind_layout {ds : List Char} {ts : List Token} {t : Spot}
    (hm : Mode.InExpression modes) (hts : ts ≠ [])
    (hcs : Scan.layout false (cs ++ ds) = cs.length + Scan.layout false ds)
    (h : Lexes ⟨ds, modes, operand⟩ ts t) : Lexes ⟨cs ++ ds, modes, operand⟩ ts t := by
  intro l hl
  have hl' : (l.forward cs.length).At ⟨ds, modes, operand⟩ := by
    refine ⟨?_, hl.modes, hl.held, hl.operand⟩
    show l.cursor.rest.drop cs.length = ds
    rw [hl.chars, List.drop_left]
  -- Both lexers pass the layout and stand at the same character.
  have hread : l.read = (l.forward cs.length).read := by
    rw [Lexer.read_of_inExpression hl.held (hl.modes ▸ hm),
      Lexer.read_of_inExpression hl'.held (hl'.modes ▸ hm)]
    unfold Lexer.readExpression
    have hforward : l.forward (Scan.layout false l.cursor.rest) =
        (l.forward cs.length).forward (Scan.layout false (l.forward cs.length).cursor.rest) := by
      rw [hl'.chars, hl.chars, hcs]
      simp only [Lexer.forward, Cursor.forward_forward]
    simp only [hforward]
  obtain ⟨m, hm, hmt⟩ := h _ hl'
  cases hm with
  | nil => exact absurd rfl hts
  | cons hn hne hrest =>
    refine ⟨m, .cons ?_ hne hrest, hmt⟩
    rwa [Lexer.next, hread]

theorem Lexes.blank {ts : List Token} {t : Spot} (hm : Mode.InExpression modes) (hts : ts ≠ [])
    (h : Lexes ⟨cs, modes, operand⟩ ts t) : Lexes ⟨' ' :: cs, modes, operand⟩ ts t := by
  have hcs : Scan.layout false ([' '] ++ cs) = [' '].length + Scan.layout false cs := by
    rw [List.singleton_append, Scan.layout, if_pos (by decide), List.length_singleton, Nat.add_comm]
  exact h.behind_layout hm hts hcs

/-! ## Punctuation -/

/-- Punctuation is handed out as its token, and changes the modes. -/
theorem lexes_punct (p : Punct) (hm : Mode.InExpression modes) :
    Lexes ⟨p.char :: cs, modes, operand⟩ [.punct p]
      ⟨cs, Mode.after modes (.punct p), (Token.punct p).expectsOperand⟩ := by
  obtain ⟨hquote, hbrace⟩ := Mode.after_of_inExpression hm
  have hafter (l : Lexer) (hl : l.At ⟨p.char :: cs, modes, operand⟩) :
      l.readFrom p.char cs =
        ({ l with modes := Mode.after modes (.punct p) } : Lexer).emit 1 (.punct p) := by
    have hmodes : l.modes = modes := hl.modes
    have hemit : l.emit 1 (.punct p) = Lexer.emit { l with modes := modes } 1 (.punct p) := by
      rw [← hmodes]
    -- Quotes and braces change the modes, the other signs leave them.
    unfold Lexer.readFrom
    cases p
    case backquote =>
      rw [hquote, ← hmodes]
      rfl
    case leftBrace =>
      rw [hbrace, ← hmodes]
      rfl
    case rightBrace =>
      rw [← hmodes]
      rfl
    all_goals exact hemit
  have hblank : Scan.isBlank p.char = false ∧ p.char ≠ '#' := by
    cases p <;> decide
  show Lexes ⟨p.char :: [] ++ cs, modes, operand⟩ _ _
  exact lexes_of_readFrom (by simp) hm hblank hafter

/-! ## Operands -/

/-- What begins a name is no digit. -/
theorem not_isDigit_of_isNameStart {c : Char} (h : Scan.isNameStart c = true) :
    c.isDigit = false := by
  by_cases hc : c = '_'
  · subst hc
    decide
  · simp only [Scan.isNameStart, Char.isAlpha, Char.isUpper, Char.isLower, Char.isDigit, beq_iff_eq,
      hc, Bool.or_eq_true, or_false, Bool.and_eq_true, Bool.and_eq_false_iff, decide_eq_true_eq,
      decide_eq_false_iff_not, UInt32.le_iff_toNat_le, ge_iff_le] at h ⊢
    simp at h ⊢
    omega

/-- Neither a name nor a number begins like layout, a quoted text or the end of a block. -/
theorem starts_ne {c : Char} (h : Scan.isNameStart c = true ∨ c.isDigit = true) :
    (Scan.isBlank c = false ∧ c ≠ '#') ∧ ¬ (c = '"' ∨ c = '\'') ∧ c ≠ '\x7d' := by
  have hnot : c ∉ [' ', '\t', '\n', '\r', '#', '"', '\'', '\x7d'] := by
    intro hc
    have hall : [' ', '\t', '\n', '\r', '#', '"', '\'', '\x7d'].all
        (fun d => !(Scan.isNameStart d || d.isDigit)) = true := by decide
    have hnone := List.all_eq_true.mp hall c hc
    rcases h with h | h <;> simp [h] at hnone
  simp only [List.mem_cons, List.not_mem_nil, or_false, not_or] at hnot
  simp [Scan.isBlank, hnot]

/-- A quoted text is handed out as the text that it stands for. -/
theorem lexes_quote (s : String) (hm : Mode.InExpression modes) :
    Lexes ⟨(Node.quote s).toList ++ cs, modes, operand⟩ [.string s] ⟨cs, modes, false⟩ := by
  rw [toList_quote]
  refine lexes_of_readFrom_emit (by simp) hm (by decide) fun l _ => ?_
  unfold Lexer.readFrom
  rw [if_pos (Or.inl rfl), List.append_assoc, List.singleton_append, Scan.quoted_escapeQuoted]
  simp only [String.ofList_toList, List.length_append, List.length_singleton]

/-- A word is read up to a delimiter. -/
theorem lexes_word {c : Char} {word : List Char} (hc : Scan.isNameStart c = true)
    (hword : ∀ d ∈ word, Scan.isNameChar d = true) (hcs : Delimited cs)
    (hm : Mode.InExpression modes) :
    Lexes ⟨c :: word ++ cs, modes, operand⟩ [Token.ofWord (String.ofList (c :: word))]
      ⟨cs, modes, (Token.ofWord (String.ofList (c :: word))).expectsOperand⟩ := by
  obtain ⟨-, -, -, hne⟩ := ofWord_ne (String.ofList (c :: word))
  obtain ⟨hlayout, hquote, -⟩ := starts_ne (Or.inl hc)
  have htake : (word ++ cs).takeWhile Scan.isNameChar = word :=
    takeWhile_append_of_delimited (fun d hd => (not_isNameChar_of_mem_delimiters d hd).1) hword hcs
  refine lexes_of_readFrom_emit hne hm hlayout fun l _ => ?_
  unfold Lexer.readFrom
  rw [if_neg hquote, if_neg (by simp [not_isDigit_of_isNameStart hc]), if_pos hc]
  simp only [htake]

/-- A name is read up to a delimiter. -/
theorem lexes_name {name : String} (h : IsName name) (hcs : Delimited cs)
    (hm : Mode.InExpression modes) :
    Lexes ⟨name.toList ++ cs, modes, operand⟩ [.identifier name] ⟨cs, modes, false⟩ := by
  obtain ⟨⟨c, word, hspell, hc, hword⟩, hfree⟩ := h
  have hname : Token.ofWord (String.ofList (c :: word)) = .identifier name := by
    rw [← hspell, String.ofList_toList, ofWord_of_not_mem hfree]
  have hlex : Lexes ⟨c :: word ++ cs, modes, operand⟩ _ _ := lexes_word hc hword hcs hm
  rw [hname] at hlex
  rw [hspell]
  exact hlex

/-- A finite number is read up to a delimiter. -/
theorem lexes_number {x : Float} (hx : Limits.printable.number x) (hcs : Delimited cs)
    (hm : Mode.InExpression modes) :
    Lexes ⟨(Number.text x).toList ++ cs, modes, operand⟩ [.number x] ⟨cs, modes, false⟩ := by
  obtain ⟨l, htext, hw, hf, hne, he, rfl⟩ := Number.exists_literal_of_text hx
  obtain ⟨c, whole, hwhole⟩ := List.exists_cons_of_ne_nil hne
  have hread := Number.number_append hw hf he hcs
  obtain ⟨digits, hchars⟩ : ∃ digits, l.chars = c :: digits := by
    rw [Number.Literal.chars, hwhole]
    exact ⟨_, rfl⟩
  have hc : c.isDigit = true := hw c (hwhole ▸ List.mem_cons_self)
  obtain ⟨hlayout, hquote, -⟩ := starts_ne (Or.inr hc)
  rw [htext, hchars]
  refine lexes_of_readFrom_emit (by simp) hm hlayout fun k _ => ?_
  unfold Lexer.readFrom
  rw [if_neg hquote, if_pos hc, ← List.cons_append, ← hchars, hread, hchars, List.length_cons]

/-- A regular expression is read where an operand is expected, up to a delimiter. -/
theorem lexes_regexp {pattern flags : String} (hp : isPattern pattern.toList = true)
    (hf : IsFlags flags) (hcs : Delimited cs) (hm : Mode.InExpression modes) :
    Lexes ⟨'/' :: (pattern.toList ++ '/' :: flags.toList) ++ cs, modes, true⟩
      [.regexp pattern flags] ⟨cs, modes, false⟩ := by
  have hpattern := Scan.pattern_append hp (flags.toList ++ cs)
  have hflags : Scan.flags [] (flags.toList ++ cs) = .ok flags.toList :=
    Scan.flags_append (by simpa using hf.distinct) hf.flags hcs
  have hrest : pattern.toList ++ '/' :: flags.toList ++ cs =
      pattern.toList ++ '/' :: (flags.toList ++ cs) := by
    simp
  have hdrop : ('/' :: (pattern.toList ++ '/' :: (flags.toList ++ cs))).drop
      (pattern.toList.length + 1 + 1) = flags.toList ++ cs := by
    rw [List.drop_succ_cons, List.drop_append]
    simp
  refine lexes_of_readFrom_emit (by simp) hm (by decide) fun l hl => ?_
  have hread : l.readFrom '/' (pattern.toList ++ '/' :: flags.toList ++ cs) = l.readRegExp := by
    unfold Lexer.readFrom
    rw [if_neg (by decide), if_neg (by decide), if_neg (by decide), if_pos ⟨rfl, hl.operand⟩]
  rw [hread, Lexer.readRegExp, hl.chars]
  simp only [List.cons_append, List.tail_cons, hrest, hpattern, hdrop, hflags,
    String.ofList_toList, List.length_append, List.length_cons]
  congr 1
  omega

/-! ## Operators -/

/-- An operator that begins like a name is a word. -/
theorem ofWord_spelling {o : Operator} {c : Char} {word : List Char}
    (ho : o.spelling.toList = c :: word) (hc : Scan.isNameStart c = true) :
    (∀ d ∈ word, Scan.isNameChar d = true) ∧ Token.ofWord o.spelling = .operator o := by
  cases o <;> simp [Operator.spelling] at ho <;> obtain ⟨rfl, rfl⟩ := ho <;>
    first
    | exact ⟨List.all_eq_true.mp rfl, by decide⟩
    | exact absurd hc (by decide)

/-- The sign of an operator is read where no operand is expected, if a blank follows it. -/
theorem readFrom_sign {o : Operator} {c : Char} {sign : List Char}
    (ho : o.spelling.toList = c :: sign) (hc : Scan.isNameStart c = false) {l : Lexer}
    (hl : l.atOperand = false) :
    l.readFrom c (sign ++ ' ' :: cs) = l.emit (sign.length + 1) (.operator o) := by
  unfold Lexer.readFrom
  cases o <;> simp [Operator.spelling] at ho <;> obtain ⟨rfl, rfl⟩ := ho <;>
    first
    | exact absurd hc (by decide)
    | simp [hl, Scan.isNameStart, Char.isAlpha, Char.isUpper, Char.isLower, Char.isDigit,
        Punct.ofChar?, Punct.all, Punct.char, Operator.ofChar?]

theorem isBlank_spelling {o : Operator} {c : Char} {sign : List Char}
    (ho : o.spelling.toList = c :: sign) : Scan.isBlank c = false ∧ c ≠ '#' := by
  cases o <;> simp [Operator.spelling] at ho <;> obtain ⟨rfl, rfl⟩ := ho <;> decide

/-- An operator between two operands, or the sign of an assignment, is read up to the blank behind
it. -/
theorem lexes_operator (o : Operator) (hm : Mode.InExpression modes) :
    Lexes ⟨o.spelling.toList ++ ' ' :: cs, modes, false⟩ [.operator o]
      ⟨' ' :: cs, modes, true⟩ := by
  obtain ⟨c, word, ho⟩ : ∃ c word, o.spelling.toList = c :: word := by
    cases o <;> simp [Operator.spelling]
  have hcs : Delimited (' ' :: cs) := delimited_cons (by decide) cs
  by_cases hc : Scan.isNameStart c = true
  · obtain ⟨hword, hof⟩ := ofWord_spelling ho hc
    have hname : Token.ofWord (String.ofList (c :: word)) = .operator o := by
      rw [← ho, String.ofList_toList, hof]
    have hlex : Lexes ⟨c :: word ++ ' ' :: cs, modes, false⟩ _ _ := lexes_word hc hword hcs hm
    rw [hname] at hlex
    rw [ho]
    exact hlex
  · rw [ho]
    exact lexes_of_readFrom_emit (by simp) hm (isBlank_spelling ho) fun l hl =>
      readFrom_sign ho (Bool.eq_false_iff.mpr hc) hl.operand

/-- A sign in front of an operand is read whatever stands behind it. -/
theorem lexes_sign {o : Operator} {c : Char} (ho : c = '+' ∧ o = .plus ∨ c = '-' ∧ o = .minus)
    (hm : Mode.InExpression modes) :
    Lexes ⟨c :: cs, modes, operand⟩ [.operator o] ⟨cs, modes, true⟩ := by
  have hblank : Scan.isBlank c = false ∧ c ≠ '#' := by
    rcases ho with ⟨rfl, -⟩ | ⟨rfl, -⟩ <;> decide
  have hread (l : Lexer) : l.readFrom c cs = l.emit 1 (.operator o) := by
    unfold Lexer.readFrom
    rcases ho with ⟨rfl, rfl⟩ | ⟨rfl, rfl⟩ <;>
      simp [Scan.isNameStart, Char.isAlpha, Char.isUpper, Char.isLower, Char.isDigit,
        Punct.ofChar?, Punct.all, Punct.char, Operator.ofChar?]
  show Lexes ⟨c :: [] ++ cs, modes, operand⟩ _ _
  exact lexes_of_readFrom_emit (by simp) hm hblank fun l _ => hread l

/-- The operator that an operation in front of its operand is written with. -/
def UnaryOp.sign : UnaryOp → Operator
  | not => .not
  | plus => .plus
  | minus => .minus

/-- The sign of a prefix operator is read as this operator. -/
theorem UnaryOp.unary?_sign (op : UnaryOp) : op.sign.unary? = some op := by
  cases op <;> rfl

/-- The operator that an operation between two operands is written with. -/
def BinaryOp.sign : BinaryOp → Operator
  | equal => .is
  | notEqual => .isnt
  | less => .less
  | greater => .greater
  | lessEqual => .lessEqual
  | greaterEqual => .greaterEqual
  | test => .match_
  | add => .plus
  | subtract => .minus
  | multiply => .star
  | divide => .slash
  | remainder => .percent
  | and => .and
  | or => .or

/-- The sign of an operator between operands is read as this operator. -/
theorem BinaryOp.binary?_sign (op : BinaryOp) : op.sign.binary? = some op := by
  cases op <;> rfl

/-- Every operator between operands has a precedence. -/
theorem BinaryOp.exists_precedence (op : BinaryOp) : ∃ k, op.sign.precedence? = some k := by
  cases op <;> exact ⟨_, rfl⟩

/-- A prefix operator is read wherever it stands. -/
theorem lexes_unary (op : UnaryOp) (text : String) {ts : List Token} {t : Spot}
    (hm : Mode.InExpression modes) (hts : ts ≠ [])
    (h : Lexes ⟨text.toList ++ cs, modes, true⟩ ts t) :
    Lexes ⟨(Node.unarySource op text).toList ++ cs, modes, operand⟩
      (.operator op.sign :: ts) t := by
  -- A word needs a blank behind it, a sign does not.
  cases op with
  | not =>
    have hchars : (Node.unarySource .not text).toList ++ cs =
        'n' :: ['o', 't'] ++ ' ' :: (text.toList ++ cs) := by
      simp [Node.unarySource]
    have hnot : Lexes ⟨'n' :: ['o', 't'] ++ ' ' :: (text.toList ++ cs), modes, operand⟩
        [.operator .not] ⟨' ' :: (text.toList ++ cs), modes, true⟩ :=
      lexes_word (by decide) (List.all_eq_true.mp rfl) (delimited_cons (by decide) _) hm
    rw [hchars]
    exact hnot.cons (h.blank hm hts)
  | plus =>
    have hchars : (Node.unarySource .plus text).toList ++ cs = '+' :: (text.toList ++ cs) := by
      simp [Node.unarySource, UnaryOp.spelling]
    rw [hchars]
    exact (lexes_sign (Or.inl ⟨rfl, rfl⟩) hm).cons h
  | minus =>
    have hchars : (Node.unarySource .minus text).toList ++ cs = '-' :: (text.toList ++ cs) := by
      simp [Node.unarySource, UnaryOp.spelling]
    rw [hchars]
    exact (lexes_sign (Or.inr ⟨rfl, rfl⟩) hm).cons h

/-! ## Templates -/

/-- The token of a piece of the text of a template, if there is any text. -/
def pieceTokens (text : List Char) : List Token :=
  if text = [] then [] else [.string (String.ofList text)]

namespace Lexer

/-- In a template a token is read from its text. -/
theorem read_of_template {l : Lexer} {outer : List Mode} (hh : l.held = false)
    (hm : l.modes = .template :: outer) : l.read = l.readTemplate := by
  unfold read
  rw [if_neg (by simp [hh])]
  have hmode : l.mode = .template := by
    rw [mode, hm]
    rfl
  rw [hmode]

end Lexer

/-- In a template the back-quote ends it, if no text is in front. -/
theorem lexes_backquote {raw : List Char} (h : Scan.ReadsAs raw []) :
    Lexes ⟨raw ++ '\x60' :: cs, .template :: modes, operand⟩ [.punct .backquote]
      ⟨cs, modes, false⟩ := by
  have hrun : Scan.template false (raw ++ '\x60' :: cs) = ⟨[], raw.length, .backquote⟩ := by
    rw [h]
    simp [Scan.template, Scan.TemplateRun.after]
  rw [List.append_cons]
  refine lexes_of_emit (by simp) fun l hl => ?_
  rw [← List.append_cons] at hl
  rw [Lexer.read_of_template hl.held hl.modes, Lexer.readTemplate, hl.chars]
  simp only [hrun, hl.modes, List.tail_cons, List.length_append, List.length_singleton]

/-- The text of a template is read up to the closing back-quote. -/
theorem lexes_template_end {raw text : List Char} (h : Scan.ReadsAs raw text) :
    Lexes ⟨raw ++ '\x60' :: cs, .template :: modes, operand⟩
      (pieceTokens text ++ [Token.punct .backquote]) ⟨cs, modes, false⟩ := by
  cases text with
  | nil => exact lexes_backquote h
  | cons c text =>
    have hrun : Scan.template false (raw ++ '\x60' :: cs) =
        ⟨c :: text, raw.length, .backquote⟩ := by
      rw [h]
      simp [Scan.template, Scan.TemplateRun.after]
    have hpiece : Lexes ⟨raw ++ '\x60' :: cs, .template :: modes, operand⟩
        [.string (String.ofList (c :: text))] ⟨[] ++ '\x60' :: cs, .template :: modes, false⟩ := by
      refine lexes_of_emit (by simp) fun l hl => ?_
      have hmodes : l.modes = .template :: modes := hl.modes
      rw [Lexer.read_of_template hl.held hmodes, Lexer.readTemplate, hl.chars, ← hmodes]
      simp only [hrun]
    exact hpiece.append (lexes_backquote .nil)

/-- The text of a template is read up to the brace of an interpolation. -/
theorem lexes_of_template_interpolation {raw text : List Char}
    (hrun : Scan.template false (raw ++ cs) = ⟨text, raw.length, .interpolation⟩) :
    Lexes ⟨raw ++ cs, .template :: modes, operand⟩
      (pieceTokens text ++ [Token.punct .leftBrace])
      ⟨cs, .interpolation 0 :: .template :: modes, true⟩ := by
  cases text with
  | nil =>
    refine lexes_of_emit (by simp) fun l hl => ?_
    rw [Lexer.read_of_template hl.held hl.modes, Lexer.readTemplate, hl.chars]
    simp only [hrun, hl.modes]
  | cons d text =>
    -- The brace has been taken together with the text, and is handed out behind it.
    intro l hl
    have hread : l.read = ({ l with modes := .interpolation 0 :: l.modes, held := true } :
        Lexer).emit raw.length (.string (String.ofList (d :: text))) := by
      rw [Lexer.read_of_template hl.held hl.modes, Lexer.readTemplate, hl.chars]
      simp only [hrun]
    have hands := Lexer.hands_of_read (by simp) hread
    refine ⟨_, hands.append (Lexer.hands_of_read (by simp) rfl), ?_, ?_, rfl, rfl⟩
    · show (l.cursor.rest.drop raw.length).drop 0 = _
      rw [hl.chars, List.drop_left, List.drop_zero]
    · show .interpolation 0 :: l.modes = _
      rw [hl.modes]

/-- The text of a template is read up to an interpolation that is not empty. -/
theorem lexes_template_interpolation {raw text : List Char} {c : Char}
    (h : Scan.ReadsAs raw text) (hc : Scan.isBlank c = false ∧ c ≠ '\x7d') :
    Lexes ⟨raw ++ '\x7b' :: c :: cs, .template :: modes, operand⟩
      (pieceTokens text ++ [Token.punct .leftBrace])
      ⟨c :: cs, .interpolation 0 :: .template :: modes, true⟩ := by
  have hstop : Scan.template false ('\x7b' :: c :: cs) = ⟨[], 1, .interpolation⟩ := by
    rw [Scan.template, if_neg (by decide), if_pos rfl, Scan.template, if_neg (by simp [hc.1]),
      if_neg hc.2]
    · rfl
    all_goals
      intro _ he
      cases he
  rw [List.append_cons]
  refine lexes_of_template_interpolation ?_
  rw [← List.append_cons, h, hstop]
  simp [Scan.TemplateRun.after]

end Brace
