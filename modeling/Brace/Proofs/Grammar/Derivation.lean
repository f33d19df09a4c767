/-
# What is read follows the grammar

Whatever is read from the front of a list of tokens covers the form of its construct there
(`Reads.covers`).  Two checks of the parser are made on nodes where the grammar has tokens: what is
assigned to must be a variable, and the key of an object a name, a text or a number.  A node of
this kind is only ever read from its token, perhaps in parentheses (`Reads.keyed`).
-/
import Brace.Proofs.Grammar.Form
import Brace.Proofs.Parser.Reads

namespace Brace

open Brace.Parser (literal? combine)

/-! ## Forms of constructs -/

/-- The form of what is read for a construct.  The sign of an assignment stands directly behind a
variable, in front of everything else. -/
def Goal.form : Goal → Form
  | .expression => .symbol .expression
  | .operand => .symbol .atom
  | .primary => .symbol .primary
  | .suffixes _ => .many (.symbol .suffix)
  | .operators threshold a =>
    if threshold = 0 ∧ a.isIdentifier = true then
      .tail ∪ (.one (.operator .assign) ++ .symbol .chain)
    else .tail
  | .items _ item => .commas item.form
  | .bracketed stop item => .optional (.commas item.form) ++ .punct stop
  | .property => .entry
  | .statements _ => .symbol .statements
  | .parts => .parts
  | .branch => .symbol .branch
  | .branchAfter k => .branchAfter k

/-! ## Keys and targets -/

theorem isLiteral_iff {t : Token} : t.isLiteral = true ↔ ∃ a, literal? t = some a := by
  cases t <;> simp [Token.isLiteral, literal?]

/-- A token is a key or a name of the grammar just if its node is one. -/
theorem isKey_iff_of_literal? {t : Token} {a : Node} (h : literal? t = some a) :
    t.isKey = a.isKey ∧ t.isIdentifier = a.isIdentifier := by
  cases t <;> cases h <;> exact ⟨rfl, rfl⟩

/-- A variable is a key. -/
theorem isKey_of_isIdentifier {a : Node} (h : a.isIdentifier = true) : a.isKey = true := by
  cases a <;> first | rfl | cases h

/-- What an operator stands above is neither a key nor a variable. -/
theorem isKey_combine (o : Operator) (a b : Node) :
    (combine o a b).isKey = false ∧ (combine o a b).isIdentifier = false := by
  unfold combine
  split <;> exact ⟨rfl, rfl⟩

/-- How a key or a variable is read for a construct: as its token in parentheses, with nothing
behind it. -/
def Goal.Keyed : (g : Goal) → List Token → g.Answer → List Token → Prop
  | .expression, ts, a, us | .operand, ts, a, us | .primary, ts, a, us =>
    (a.isKey = true → Covers (.symbol .key) ts us) ∧
      (a.isIdentifier = true → Covers (.symbol .target) ts us)
  | .suffixes b, ts, a, us | .operators _ b, ts, a, us => a.isKey = true → a = b ∧ ts = us
  | _, _, _, _ => True

/-- A key or a variable is read from a token alone, perhaps in parentheses. -/
theorem Reads.keyed {g : Goal} {ts us : List Token} {a : g.Answer} (h : Reads g ts a us) :
    g.Keyed ts a us := by
  -- A call, an index and an operator leave no key, so behind a key nothing has been taken.
  induction h with
  | unary _ _ _ => exact ⟨(nomatch ·), (nomatch ·)⟩
  | @expression ts us vs a b _ _ iha ihb | @plain ts us vs a b _ _ iha ihb =>
    constructor
    · intro hb
      obtain ⟨rfl, rfl⟩ := ihb hb
      exact iha.1 hb
    · intro hb
      obtain ⟨rfl, rfl⟩ := ihb (isKey_of_isIdentifier hb)
      exact iha.2 hb
  | @literal ts t a ha =>
    obtain ⟨hk, hi⟩ := isKey_iff_of_literal? ha
    constructor
    · intro h
      exact Covers.key_iff.mpr (Or.inl ⟨t, hk.trans h, rfl⟩)
    · intro h
      cases t with
      | identifier name => exact Covers.target_iff.mpr (Or.inl ⟨name, rfl⟩)
      | _ => cases hi.trans h
  -- Parentheses leave no trace in the tree, and the grammar allows them around keys and targets.
  | grouped _ ih =>
    constructor
    · intro h
      exact Covers.key_iff.mpr (Or.inr ⟨_, rfl, ih.1 h⟩)
    · intro h
      exact Covers.target_iff.mpr (Or.inr ⟨_, rfl, ih.2 h⟩)
  | object _ _ | array _ _ | template _ _ | conditional _ _ _ _ _ _ =>
    exact ⟨(nomatch ·), (nomatch ·)⟩
  | suffixesEnd _ _ => exact fun _ => ⟨rfl, rfl⟩
  | call _ _ _ ih | index _ _ _ ih =>
    intro h
    obtain ⟨rfl, -⟩ := ih h
    cases h
  | operatorsEnd _ => exact fun _ => ⟨rfl, rfl⟩
  | fold _ _ _ _ _ _ _ _ ih =>
    intro h
    obtain ⟨rfl, -⟩ := ih h
    cases (isKey_combine _ _ _).1.symm.trans h
  | _ => trivial

/-! ## What is read -/

/-- The operators that are read behind something other than a variable have atoms behind them. -/
theorem Covers.tail_of_operators {threshold : Nat} {a : Node} {ts us : List Token}
    (h : Covers (Goal.operators threshold a).form ts us)
    (ha : 0 < threshold ∨ a.isIdentifier = false) : Covers .tail ts us := by
  rw [Goal.form, if_neg] at h
  · exact h
  · rintro ⟨h0, hi⟩
    rcases ha with ha | ha
    · omega
    · exact nomatch ha.symm.trans hi

/-- A loop of operators covers its tail where it does not assign. -/
theorem Covers.operators_of_tail {threshold : Nat} {a : Node} {ts us : List Token}
    (h : Covers .tail ts us) : Covers (Goal.operators threshold a).form ts us := by
  unfold Goal.form
  split
  · exact Covers.alt_iff.mpr (Or.inl h)
  · exact h

/-- An operator with a precedence is one of the grammar, unless it assigns. -/
theorem isBinary_of_precedence? {o : Operator} {k : Nat} (h : o.precedence? = some k)
    (ho : o ≠ .assign) : (Token.operator o).isBinary = true := by
  simp [Token.isBinary, h, ho]

theorem isUnary_iff {t : Token} :
    t.isUnary = true ↔ ∃ o op, t = .operator o ∧ o.unary? = some op := by
  cases t with
  | operator o => cases o <;> simp [Token.isUnary, Operator.unary?]
  | _ => simp [Token.isUnary]

/-- Whatever is read has the form of its construct. -/
theorem Reads.covers {g : Goal} {ts us : List Token} {a : g.Answer} (h : Reads g ts a us) :
    Covers g.form ts us := by
  -- One case for each rule of reading, with the rule of the grammar it stands for.
  induction h with
  | @expression ts us vs a b ha _ iha ihb =>
    -- Only a variable may have a sign of assignment behind it.
    by_cases hi : a.isIdentifier = true
    · rw [Goal.form, if_pos ⟨rfl, hi⟩, Covers.alt_iff, Covers.seq_iff] at ihb
      rcases ihb with ht | ⟨ws, hs, hc⟩
      · exact Covers.expression_iff.mpr (Or.inr (Covers.chain_iff.mpr ⟨us, iha, ht⟩))
      · obtain rfl := Covers.one_iff.mp hs
        exact Covers.expression_iff.mpr (Or.inl ⟨ws, ha.keyed.2 hi, hc⟩)
    · have ht := ihb.tail_of_operators (Or.inr (Bool.eq_false_iff.mpr hi))
      exact Covers.expression_iff.mpr (Or.inr (Covers.chain_iff.mpr ⟨us, iha, ht⟩))
  | unary ho _ ih =>
    exact Covers.atom_iff.mpr (Or.inl ⟨_, _, isUnary_iff.mpr ⟨_, _, rfl, ho⟩, rfl, ih⟩)
  | plain _ _ iha ihb => exact Covers.atom_iff.mpr (Or.inr ⟨_, iha, ihb⟩)
  | literal ha => exact Covers.primary_iff.mpr (Or.inl ⟨_, isLiteral_iff.mpr ⟨_, ha⟩, rfl⟩)
  | grouped _ ih => exact Covers.primary_iff.mpr (Or.inr (Or.inl ⟨_, rfl, ih⟩))
  | object _ ih =>
    simp only [Goal.form, Covers.seq_iff, Covers.punct_iff, exists_eq_right] at ih
    exact Covers.primary_iff.mpr (Or.inr (Or.inr (Or.inr (Or.inl ⟨_, rfl, ih⟩))))
  | array _ ih =>
    simp only [Goal.form, Covers.seq_iff, Covers.punct_iff, exists_eq_right] at ih
    exact Covers.primary_iff.mpr (Or.inr (Or.inr (Or.inl ⟨_, rfl, ih⟩)))
  | template _ ih =>
    exact Covers.primary_iff.mpr (Or.inr (Or.inr (Or.inr (Or.inr (Or.inl ⟨_, rfl, ih⟩)))))
  | conditional _ _ _ iha ihb ihc =>
    exact Covers.primary_iff.mpr
      (Or.inr (Or.inr (Or.inr (Or.inr (Or.inr ⟨_, _, _, rfl, iha, ihb, ihc⟩)))))
  | suffixesEnd _ _ => exact Covers.none
  | call _ _ iha ihb =>
    simp only [Goal.form, Covers.seq_iff, Covers.punct_iff, exists_eq_right] at iha
    exact Covers.more (Covers.suffix_iff.mpr (Or.inl ⟨_, rfl, iha⟩)) ihb
  | index _ _ iha ihb => exact Covers.more (Covers.suffix_iff.mpr (Or.inr ⟨_, rfl, iha⟩)) ihb
  | operatorsEnd _ => exact Covers.operators_of_tail Covers.none
  | @fold ts us vs ws threshold k o a b c d hk hlt ha _ _ _ ihb ihc ihd =>
    have hc := ihc.tail_of_operators (Or.inl (by omega))
    have hd := ihd.tail_of_operators (Or.inr (isKey_combine o a c).2)
    have htail : Covers .tail us ws := Covers.many_append hc hd
    by_cases ho : o = .assign
    -- The sign of an assignment has the least strength, so the threshold is zero in front of it.
    · subst ho
      obtain rfl : 1 = k := Option.some.inj hk
      rw [Goal.form, if_pos ⟨by omega, ha rfl⟩, Covers.alt_iff, Covers.seq_iff]
      exact Or.inr ⟨ts, Covers.one_iff.mpr rfl, Covers.chain_iff.mpr ⟨us, ihb, htail⟩⟩
    · exact Covers.operators_of_tail
        (Covers.tail_iff.mpr (Or.inr ⟨_, ts, us, isBinary_of_precedence? hk ho, rfl, ihb, htail⟩))
  | lastItem _ _ ih => exact Covers.commas_iff.mpr (Or.inl ih)
  | trailingComma _ _ _ ih => exact Covers.commas_iff.mpr (Or.inr (Or.inl ih))
  | nextItem _ _ _ _ iha ihb => exact Covers.commas_iff.mpr (Or.inr (Or.inr ⟨_, iha, ihb⟩))
  | noItems =>
    rw [Goal.form, Covers.seq_iff]
    exact ⟨_, Covers.optional_iff.mpr (Or.inl rfl), Covers.punct_iff.mpr rfl⟩
  | someItems _ _ _ ih =>
    rw [Goal.form, Covers.seq_iff]
    exact ⟨_, Covers.optional_iff.mpr (Or.inr ih), Covers.punct_iff.mpr rfl⟩
  | property ha hkey _ iha ihb => exact Covers.entry_iff.mpr ⟨_, ha.keyed.1 hkey, ihb⟩
  | skip _ ih => exact Covers.statements_iff.mpr (Or.inr (Or.inl ⟨_, rfl, ih⟩))
  | noStatements _ _ => exact Covers.statements_iff.mpr (Or.inl rfl)
  | lastStatement _ _ _ ih => exact Covers.statements_iff.mpr (Or.inr (Or.inr (Or.inl ih)))
  | nextStatement _ _ _ _ iha ihb =>
    exact Covers.statements_iff.mpr (Or.inr (Or.inr (Or.inr ⟨_, iha, ihb⟩)))
  | partsEnd => exact Covers.none
  | text _ ih => exact Covers.parts_iff.mpr (Or.inr (Or.inl ⟨_, _, rfl, ih⟩))
  | interpolation _ _ iha ihb =>
    exact Covers.parts_iff.mpr (Or.inr (Or.inr ⟨_, _, rfl, iha, ihb⟩))
  | block _ ih => exact Covers.branch_iff.mpr (Or.inl ⟨_, rfl, ih⟩)
  | bareBranch hne _ ih => exact Covers.branch_iff.mpr (Or.inr ⟨hne, ih⟩)
  | someBranch _ ih => exact Covers.branchAfter_iff.mpr (Or.inr ⟨_, rfl, ih⟩)
  | noBranch _ => exact Covers.branchAfter_iff.mpr (Or.inl rfl)

end Brace
