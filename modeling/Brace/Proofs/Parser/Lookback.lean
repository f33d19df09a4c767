/-
# The lexer looks back, the parser ahead

A slash begins a regular expression or is a division, and the lexer decides by the token in front of
it, without knowing the parser.  The decision is always the one that the grammar needs: where a
construct is begun, the lexer is in the right mode and expects an operand exactly if the construct
begins with one (`Goal.StartsAt`), and where an operand ends none is expected (`Reads.moves`).  So
every construct that is begun on the way is begun rightly (`Reaches.moves`).  Main statement:
`slash_agrees`.
-/
import Brace.Proofs.Node.Parsed
import Brace.Proofs.Parser.Calls
import Brace.Proofs.Token.Lookback

namespace Brace

open Brace.Parser

/-! ## What constructs need and leave -/

/-- What is remembered where a construct is begun.  Behind an operand none is expected; items and
statements, the operands themselves, begin where one is. -/
def Goal.StartsAt : Goal → Lookback → Prop
  | .parts, b => b.modes.head? = some .template
  | .suffixes _, b | .operators _ _, b | .branchAfter _, b =>
    Mode.InExpression b.modes ∧ b.operand = false
  | .items _ item, b =>
    (item = .expression ∨ item = .property) ∧ Mode.InExpression b.modes ∧ b.operand = true
  | .bracketed stop item, b =>
    (item = .expression ∨ item = .property) ∧ (Token.punct stop).expectsOperand = false ∧
      Mode.InExpression b.modes ∧ b.operand = true
  | _, b => Mode.InExpression b.modes ∧ b.operand = true

/-- What is remembered behind a construct: the modes in front of it, and that no operand is
expected, unless items or statements end with a separator. -/
def Goal.EndsAt : Goal → Lookback → Lookback → List Token → Prop
  | .bracketed stop _, b, b', _ => b'.modes = Mode.after b.modes (.punct stop) ∧ b'.operand = false
  | .items stop _, b, b', us => b'.modes = b.modes ∧ (b'.operand = false ∨ front us = .punct stop)
  | .statements _, b, b', _ | .parts, b, b', _ => b'.modes = b.modes
  | _, b, b', _ => b'.modes = b.modes ∧ b'.operand = false

/-- What is remembered at a site.  Punctuation is expected behind an operand, or it stands there, or
nothing does. -/
def Site.StartsAt : Site → Lookback → List Token → Prop
  | .read g, b, _ => g.StartsAt b
  | .pass p, b, us => b.operand = false ∨ front us = .punct p ∨ front us = .eof

variable {b b' : Lookback} {ts us : List Token}

/-- Where a list is begun its first item is begun. -/
theorem Goal.StartsAt.item {stop : Punct} {item : Goal} (h : (Goal.items stop item).StartsAt b) :
    item.StartsAt b := by
  obtain ⟨rfl | rfl, hm⟩ := h
  · exact hm
  · exact hm

/-- Where an item ends the modes are those of the list, and no operand is expected. -/
theorem Goal.EndsAt.item {stop : Punct} {item : Goal} (h : (Goal.items stop item).StartsAt b)
    (hend : item.EndsAt b b' us) : b'.modes = b.modes ∧ b'.operand = false := by
  obtain ⟨rfl | rfl, -⟩ := h
  · exact hend
  · exact hend

/-- Behind an opening brace an expression is read, and the closing one takes back what it did. -/
theorem Lookback.after_leftBrace (hm : Mode.InExpression b.modes) :
    Mode.InExpression (b.after (.punct .leftBrace)).modes ∧
      Mode.after (b.after (.punct .leftBrace)).modes (.punct .rightBrace) = b.modes := by
  obtain ⟨hclose, hm'⟩ := Mode.closeBrace_openBrace hm
  rw [modes_after, (Mode.after_of_inExpression hm).2]
  exact ⟨hm', hclose⟩

/-- Behind the back-quote that opens a template, its parts are read, and the closing one takes back
what it did. -/
theorem Lookback.after_backquote (hm : Mode.InExpression b.modes) :
    (b.after (.punct .backquote)).modes.head? = some .template ∧
      Mode.after (b.after (.punct .backquote)).modes (.punct .backquote) = b.modes := by
  rw [modes_after, (Mode.after_of_inExpression hm).1]
  exact ⟨rfl, rfl⟩

/-- Behind the brace that opens an interpolation, statements are read, and the closing one takes
back what it did. -/
theorem Lookback.after_interpolation (hm : b.modes.head? = some .template) :
    Mode.InExpression (b.after (.punct .leftBrace)).modes ∧
      Mode.after (b.after (.punct .leftBrace)).modes (.punct .rightBrace) = b.modes := by
  obtain ⟨outer, ho⟩ : ∃ outer, b.modes = .template :: outer := by
    cases h : b.modes with
    | nil =>
      rw [h] at hm
      cases hm
    | cons m outer =>
      rw [h] at hm
      exact ⟨outer, congrArg (· :: outer) (Option.some.inj hm)⟩
  rw [after, ho]
  exact ⟨nofun, rfl⟩

/-! ## Constructs that are read -/

/-- A construct that is begun where it should be takes the memory of the lexer to what it leaves. -/
theorem Reads.moves {g : Goal} {a : g.Answer} (h : Reads g ts a us) (hb : g.StartsAt b) :
    ∃ b', Moves b ts b' us ∧ g.EndsAt b b' us := by
  -- In front of a part stands the memory behind the part before it, after the token between them.
  induction h generalizing b with
  | expression _ _ iha ihb | plain _ _ iha ihb =>
    obtain ⟨c, hc, hcm, hco⟩ := iha hb
    obtain ⟨d, hd, hdm, hdo⟩ := ihb (b := c) ⟨hcm ▸ hb.1, hco⟩
    exact ⟨d, hc.trans hd, hdm.trans hcm, hdo⟩
  | @unary _ _ o _ _ _ _ ih =>
    obtain ⟨c, hc, hend⟩ := ih (b := b.after (.operator o)) ⟨hb.1, rfl⟩
    exact ⟨c, .cons hc, hend⟩
  | @literal ts t a ha =>
    refine ⟨b.after t, .cons (.refl _ _), ?_⟩
    cases t <;> first | exact ⟨rfl, rfl⟩ | cases ha
  | grouped _ ih =>
    obtain ⟨c, hc, hcm, -⟩ := ih (b := b.after (.punct .leftParen)) ⟨hb.1, rfl⟩
    exact ⟨_, .cons hc.snoc, hcm, rfl⟩
  | object _ ih =>
    -- The braces may stand in an interpolation, which counts them.
    obtain ⟨hm, hclose⟩ := Lookback.after_leftBrace hb.1
    obtain ⟨c, hc, hcm, hco⟩ := ih (b := b.after (.punct .leftBrace)) ⟨Or.inr rfl, rfl, hm, rfl⟩
    exact ⟨c, .cons hc, hcm.trans hclose, hco⟩
  | array _ ih =>
    obtain ⟨c, hc, hcm, hco⟩ :=
      ih (b := b.after (.punct .leftBracket)) ⟨Or.inl rfl, rfl, hb.1, rfl⟩
    exact ⟨c, .cons hc, hcm, hco⟩
  | template _ ih =>
    obtain ⟨hm, hclose⟩ := Lookback.after_backquote hb.1
    obtain ⟨c, hc, hcm⟩ := ih (b := b.after (.punct .backquote)) hm
    refine ⟨_, .cons hc.snoc, ?_, rfl⟩
    rw [Lookback.modes_after, hcm, hclose]
  | conditional _ _ _ iha ihb ihc =>
    obtain ⟨c, hc, hcm, hco⟩ := iha (b := b.after (.keyword .if_)) ⟨hb.1, rfl⟩
    have hcm : c.modes = b.modes := hcm
    obtain ⟨d, hd, hdm, hdo⟩ := ihb (b := c) ⟨hcm ▸ hb.1, hco⟩
    have hdm : d.modes = b.modes := hdm.trans hcm
    obtain ⟨e, he, hem, heo⟩ := ihc (b := d) ⟨hdm ▸ hb.1, hdo⟩
    exact ⟨e, .cons (hc.trans (hd.trans he)), hem.trans hdm, heo⟩
  -- Nothing is passed, and the operand in front has ended already.
  | suffixesEnd _ _ => exact ⟨b, .refl _ _, rfl, hb.2⟩
  | call _ _ iha ihb =>
    obtain ⟨c, hc, hcm, hco⟩ :=
      iha (b := b.after (.punct .leftParen)) ⟨Or.inl rfl, rfl, hb.1, rfl⟩
    have hcm : c.modes = b.modes := hcm
    obtain ⟨d, hd, hdm, hdo⟩ := ihb (b := c) ⟨hcm ▸ hb.1, hco⟩
    exact ⟨d, .cons (hc.trans hd), hdm.trans hcm, hdo⟩
  | index _ _ iha ihb =>
    obtain ⟨c, hc, hcm, -⟩ := iha (b := b.after (.punct .leftBracket)) ⟨hb.1, rfl⟩
    have hcm : (c.after (.punct .rightBracket)).modes = b.modes := hcm
    obtain ⟨d, hd, hdm, hdo⟩ := ihb (b := c.after (.punct .rightBracket)) ⟨hcm ▸ hb.1, rfl⟩
    exact ⟨d, .cons (hc.snoc.trans hd), hdm.trans hcm, hdo⟩
  | operatorsEnd _ => exact ⟨b, .refl _ _, rfl, hb.2⟩
  | @fold _ _ _ _ _ _ o _ _ _ _ _ _ _ _ _ _ ihb ihc ihd =>
    obtain ⟨c, hc, hcm, hco⟩ := ihb (b := b.after (.operator o)) ⟨hb.1, rfl⟩
    have hcm : c.modes = b.modes := hcm
    obtain ⟨d, hd, hdm, hdo⟩ := ihc (b := c) ⟨hcm ▸ hb.1, hco⟩
    have hdm : d.modes = b.modes := hdm.trans hcm
    obtain ⟨e, he, hem, heo⟩ := ihd (b := d) ⟨hdm ▸ hb.1, hdo⟩
    exact ⟨e, .cons (hc.trans (hd.trans he)), hem.trans hdm, heo⟩
  -- A list may end behind an item or behind a comma, where an operand is still expected.
  | lastItem _ _ ih =>
    obtain ⟨c, hc, hend⟩ := ih hb.item
    obtain ⟨hcm, hco⟩ := hend.item hb
    exact ⟨c, hc, hcm, Or.inl hco⟩
  | trailingComma _ _ hstop ih =>
    obtain ⟨c, hc, hend⟩ := ih hb.item
    obtain ⟨hcm, -⟩ := hend.item hb
    exact ⟨_, hc.snoc, hcm, Or.inr hstop⟩
  | nextItem _ _ _ _ iha ihb =>
    obtain ⟨c, hc, hend⟩ := iha hb.item
    obtain ⟨hcm, -⟩ := hend.item hb
    have hcm : (c.after (.punct .comma)).modes = b.modes := hcm
    obtain ⟨d, hd, hdm, hdo⟩ := ihb (b := c.after (.punct .comma)) ⟨hb.1, hcm ▸ hb.2.1, rfl⟩
    exact ⟨d, hc.snoc.trans hd, hdm.trans hcm, hdo⟩
  | noItems => exact ⟨_, .cons (.refl _ _), rfl, hb.2.1⟩
  -- Behind a last comma an operand is expected, but the bracket that stands there ends one.
  | someItems _ _ _ ih =>
    obtain ⟨hitem, hstop, hm⟩ := hb
    obtain ⟨c, hc, hcm, -⟩ := ih (b := b) ⟨hitem, hm⟩
    refine ⟨_, hc.snoc, ?_, hstop⟩
    rw [Lookback.modes_after, hcm]
  | property _ _ _ iha ihb =>
    obtain ⟨c, hc, hcm, -⟩ := iha (b := b) hb
    have hcm : (c.after (.punct .colon)).modes = b.modes := hcm
    obtain ⟨d, hd, hdm, hdo⟩ := ihb (b := c.after (.punct .colon)) ⟨hcm ▸ hb.1, rfl⟩
    exact ⟨d, hc.snoc.trans hd, hdm.trans hcm, hdo⟩
  | skip _ ih =>
    obtain ⟨c, hc, hcm⟩ := ih (b := b.after (.punct .semicolon)) ⟨hb.1, rfl⟩
    exact ⟨c, .cons hc, hcm⟩
  | noStatements _ _ => exact ⟨b, .refl _ _, rfl⟩
  | lastStatement _ _ _ ih =>
    obtain ⟨c, hc, hcm, -⟩ := ih (b := b) hb
    exact ⟨c, hc, hcm⟩
  | nextStatement _ _ _ _ iha ihb =>
    obtain ⟨c, hc, hcm, -⟩ := iha (b := b) hb
    have hcm : (c.after (.punct .semicolon)).modes = b.modes := hcm
    obtain ⟨d, hd, hdm⟩ := ihb (b := c.after (.punct .semicolon)) ⟨hcm ▸ hb.1, rfl⟩
    exact ⟨d, hc.snoc.trans hd, hdm.trans hcm⟩
  | partsEnd => exact ⟨b, .refl _ _, rfl⟩
  | @text _ _ s _ _ ih =>
    obtain ⟨c, hc, hcm⟩ := ih (b := b.after (.string s)) hb
    exact ⟨c, .cons hc, hcm⟩
  -- The braces of an interpolation open and close a mode of its own.
  | interpolation _ _ iha ihb =>
    obtain ⟨hm, hclose⟩ := Lookback.after_interpolation hb
    obtain ⟨c, hc, hcm⟩ := iha (b := b.after (.punct .leftBrace)) ⟨hm, rfl⟩
    have hcm : (c.after (.punct .rightBrace)).modes = b.modes := by
      rw [Lookback.modes_after, hcm, hclose]
    obtain ⟨d, hd, hdm⟩ := ihb (b := c.after (.punct .rightBrace)) (by rw [Goal.StartsAt, hcm, hb])
    exact ⟨d, .cons (hc.snoc.trans hd), hdm.trans hcm⟩
  | block _ ih =>
    obtain ⟨hm, hclose⟩ := Lookback.after_leftBrace hb.1
    obtain ⟨c, hc, hcm⟩ := ih (b := b.after (.punct .leftBrace)) ⟨hm, rfl⟩
    refine ⟨_, .cons hc.snoc, ?_, rfl⟩
    rw [Lookback.modes_after, hcm, hclose]
  | bareBranch _ _ ih => exact ih (b := b) hb
  | @someBranch _ _ k _ _ ih =>
    obtain ⟨c, hc, hend⟩ := ih (b := b.after (.keyword k)) ⟨hb.1, rfl⟩
    exact ⟨c, .cons hc, hend⟩
  | noBranch _ => exact ⟨b, .refl _ _, rfl, hb.2⟩

/-! ## Constructs that are begun -/

/-- Where a construct is begun rightly, so is each of its parts. -/
theorem Calls.moves {g : Goal} {x : Site} (h : Calls g ts x us) (hb : g.StartsAt b) :
    ∃ b', Moves b ts b' us ∧ x.StartsAt b' us := by
  -- What stands in front of the part is passed token by token, or has been read (`Reads.moves`).
  cases h with
  -- An operand is begun where the expression is begun; operators stand behind an operand.
  | leftOperand => exact ⟨b, .refl _ _, hb⟩
  | operators ha =>
    obtain ⟨c, hc, hcm, hco⟩ := ha.moves (b := b) hb
    exact ⟨c, hc, hcm ▸ hb.1, hco⟩
  | unary _ => exact ⟨_, .cons (.refl _ _), hb.1, rfl⟩
  | primary _ => exact ⟨b, .refl _ _, hb⟩
  | suffixes ha =>
    obtain ⟨c, hc, hcm, hco⟩ := ha.moves (b := b) hb
    exact ⟨c, hc, hcm ▸ hb.1, hco⟩
  | grouped => exact ⟨_, .cons (.refl _ _), hb.1, rfl⟩
  | groupedEnd ha =>
    obtain ⟨c, hc, -, hco⟩ := ha.moves (b := b.after (.punct .leftParen)) ⟨hb.1, rfl⟩
    exact ⟨c, .cons hc, Or.inl hco⟩
  | object => exact ⟨_, .cons (.refl _ _), Or.inr rfl, rfl, (Lookback.after_leftBrace hb.1).1, rfl⟩
  | array => exact ⟨_, .cons (.refl _ _), Or.inl rfl, rfl, hb.1, rfl⟩
  | template => exact ⟨_, .cons (.refl _ _), (Lookback.after_backquote hb.1).1⟩
  | templateEnd hf =>
    obtain ⟨c, hc, -⟩ :=
      hf.moves (b := b.after (.punct .backquote)) (Lookback.after_backquote hb.1).1
    exact ⟨c, .cons hc, Or.inr (Or.inl hf.stops)⟩
  | test => exact ⟨_, .cons (.refl _ _), hb.1, rfl⟩
  | consequent ha =>
    obtain ⟨c, hc, hcm, hco⟩ := ha.moves (b := b.after (.keyword .if_)) ⟨hb.1, rfl⟩
    have hcm : c.modes = b.modes := hcm
    exact ⟨c, .cons hc, hcm ▸ hb.1, hco⟩
  | alternate ha hb' =>
    obtain ⟨c, hc, hcm, hco⟩ := ha.moves (b := b.after (.keyword .if_)) ⟨hb.1, rfl⟩
    have hcm : c.modes = b.modes := hcm
    obtain ⟨d, hd, hdm, hdo⟩ := hb'.moves (b := c) ⟨hcm ▸ hb.1, hco⟩
    have hdm : d.modes = b.modes := hdm.trans hcm
    exact ⟨d, .cons (hc.trans hd), hdm ▸ hb.1, hdo⟩
  -- Arguments and indices are begun behind an opening bracket.
  | arguments => exact ⟨_, .cons (.refl _ _), Or.inl rfl, rfl, hb.1, rfl⟩
  | called ha =>
    obtain ⟨c, hc, hcm, hco⟩ :=
      ha.moves (b := b.after (.punct .leftParen)) ⟨Or.inl rfl, rfl, hb.1, rfl⟩
    have hcm : c.modes = b.modes := hcm
    exact ⟨c, .cons hc, hcm ▸ hb.1, hco⟩
  | index => exact ⟨_, .cons (.refl _ _), hb.1, rfl⟩
  | indexEnd ha =>
    obtain ⟨c, hc, -, hco⟩ := ha.moves (b := b.after (.punct .leftBracket)) ⟨hb.1, rfl⟩
    exact ⟨c, .cons hc, Or.inl hco⟩
  | indexed ha =>
    obtain ⟨c, hc, hcm, -⟩ := ha.moves (b := b.after (.punct .leftBracket)) ⟨hb.1, rfl⟩
    have hcm : (c.after (.punct .rightBracket)).modes = b.modes := hcm
    exact ⟨_, .cons hc.snoc, hcm ▸ hb.1, rfl⟩
  | rightOperand _ _ => exact ⟨_, .cons (.refl _ _), hb.1, rfl⟩
  | @stronger _ _ _ _ o _ _ _ _ ha =>
    obtain ⟨c, hc, hcm, hco⟩ := ha.moves (b := b.after (.operator o)) ⟨hb.1, rfl⟩
    have hcm : c.modes = b.modes := hcm
    exact ⟨c, .cons hc, hcm ▸ hb.1, hco⟩
  | @later _ _ _ _ _ o _ _ _ _ _ ha hc' =>
    obtain ⟨c, hc, hcm, hco⟩ := ha.moves (b := b.after (.operator o)) ⟨hb.1, rfl⟩
    have hcm : c.modes = b.modes := hcm
    obtain ⟨d, hd, hdm, hdo⟩ := hc'.moves (b := c) ⟨hcm ▸ hb.1, hco⟩
    have hdm : d.modes = b.modes := hdm.trans hcm
    exact ⟨d, .cons (hc.trans hd), hdm ▸ hb.1, hdo⟩
  -- Items are begun where their list is, and behind commas.
  | item => exact ⟨b, .refl _ _, hb.item⟩
  | comma ha =>
    obtain ⟨c, hc, hend⟩ := ha.moves hb.item
    exact ⟨c, hc, Or.inl (hend.item hb).2⟩
  | items ha =>
    obtain ⟨c, hc, hend⟩ := ha.moves hb.item
    have hcm : (c.after (.punct .comma)).modes = b.modes := (hend.item hb).1
    exact ⟨_, hc.snoc, hb.1, hcm ▸ hb.2.1, rfl⟩
  | noItems hend => exact ⟨b, .refl _ _, Or.inr hend⟩
  | someItems => exact ⟨b, .refl _ _, hb.1, hb.2.2⟩
  | itemsEnd ha =>
    obtain ⟨c, hc, -, hco⟩ := ha.moves (b := b) ⟨hb.1, hb.2.2⟩
    exact ⟨c, hc, hco.imp_right Or.inl⟩
  | key => exact ⟨b, .refl _ _, hb⟩
  | colon ha =>
    obtain ⟨c, hc, -, hco⟩ := ha.moves (b := b) hb
    exact ⟨c, hc, Or.inl hco⟩
  | value ha =>
    obtain ⟨c, hc, hcm, -⟩ := ha.moves (b := b) hb
    have hcm : (c.after (.punct .colon)).modes = b.modes := hcm
    exact ⟨_, hc.snoc, hcm ▸ hb.1, rfl⟩
  | skip => exact ⟨_, .cons (.refl _ _), hb.1, rfl⟩
  | statement => exact ⟨b, .refl _ _, hb⟩
  | semicolon ha =>
    obtain ⟨c, hc, -, hco⟩ := ha.moves (b := b) hb
    exact ⟨c, hc, Or.inl hco⟩
  | statements ha =>
    obtain ⟨c, hc, hcm, -⟩ := ha.moves (b := b) hb
    have hcm : (c.after (.punct .semicolon)).modes = b.modes := hcm
    exact ⟨_, hc.snoc, hcm ▸ hb.1, rfl⟩
  -- In a template, texts keep the mode and interpolations bring in their own.
  | text => exact ⟨_, .cons (.refl _ _), hb⟩
  | interpolation => exact ⟨_, .cons (.refl _ _), (Lookback.after_interpolation hb).1, rfl⟩
  | interpolationEnd ha =>
    obtain ⟨c, hc, -⟩ :=
      ha.moves (b := b.after (.punct .leftBrace)) ⟨(Lookback.after_interpolation hb).1, rfl⟩
    exact ⟨c, .cons hc, Or.inr ha.stops⟩
  | interpolated ha =>
    obtain ⟨hm, hclose⟩ := Lookback.after_interpolation hb
    obtain ⟨c, hc, hcm⟩ := ha.moves (b := b.after (.punct .leftBrace)) ⟨hm, rfl⟩
    refine ⟨_, .cons hc.snoc, ?_⟩
    show (c.after (.punct .rightBrace)).modes.head? = _
    rw [Lookback.modes_after, hcm, hclose]
    exact hb
  | block => exact ⟨_, .cons (.refl _ _), (Lookback.after_leftBrace hb.1).1, rfl⟩
  | blockEnd ha =>
    obtain ⟨c, hc, -⟩ :=
      ha.moves (b := b.after (.punct .leftBrace)) ⟨(Lookback.after_leftBrace hb.1).1, rfl⟩
    exact ⟨c, .cons hc, Or.inr ha.stops⟩
  | bareBranch => exact ⟨b, .refl _ _, hb⟩
  | branch => exact ⟨_, .cons (.refl _ _), hb.1, rfl⟩

/-- Wherever the parser comes to on its way, it is begun rightly. -/
theorem Reaches.moves {g : Goal} {x : Site} (h : Reaches g ts x us) (hb : g.StartsAt b) :
    ∃ b', Moves b ts b' us ∧ x.StartsAt b' us := by
  induction h generalizing b with
  | here => exact ⟨b, .refl _ _, hb⟩
  | pass hc => exact hc.moves hb
  | part hc _ ih =>
    obtain ⟨c, hm, hstart⟩ := hc.moves hb
    obtain ⟨d, hm', hend⟩ := ih hstart
    exact ⟨d, hm.trans hm', hend⟩

/-- On the way through a text, the token at a site agrees with what is remembered there. -/
theorem Reaches.exists_agrees {source : String} {x : Site}
    (h : Reaches (.statements .eof) (tokensOfString source) x us) :
    ∃ b, x.StartsAt b us ∧ (front us = .eof ∨ (front us).Agrees b) := by
  obtain ⟨b, hmoves, hstart⟩ := h.moves (b := .start) ⟨nofun, rfl⟩
  exact ⟨b, hstart, (hmoves.aligned (aligned_tokensOf source)).front_agrees⟩

/-! ## Slashes -/

/-- No token of a template is a slash or a regular expression, and where an operand is read there is
no division. -/
theorem Reaches.front_ne_slash {source : String} {x : Site}
    (h : Reaches (.statements .eof) (tokensOfString source) x us)
    (hx : x = .read .primary ∨ x = .read .parts) : front us ≠ .operator .slash := by
  intro hs
  obtain ⟨b, hstart, heof | hagrees⟩ := h.exists_agrees
  · cases hs.symm.trans heof
  · rcases hx with rfl | rfl
    · cases hstart.2.symm.trans (hagrees.slash hs)
    · obtain ⟨s, ht⟩ | ht | ht := hagrees.template hstart <;> cases hs.symm.trans ht

/-- Where an operand has ended there is no regular expression. -/
theorem Reaches.front_ne_regexp {source : String} {x : Site}
    (h : Reaches (.statements .eof) (tokensOfString source) x us)
    (hx : (∃ p, x = .pass p) ∨ (∃ a, x = .read (.suffixes a)) ∨ ∃ k a, x = .read (.operators k a))
    (pattern flags : String) : front us ≠ .regexp pattern flags := by
  intro hs
  obtain ⟨b, hstart, heof | hagrees⟩ := h.exists_agrees
  · cases hs.symm.trans heof
  · have hoperand := hagrees.regexp pattern flags hs
    rcases hx with ⟨p, rfl⟩ | ⟨a, rfl⟩ | ⟨k, a, rfl⟩
    · rcases hstart with hb | hp | he
      · cases hb.symm.trans hoperand
      · cases hs.symm.trans hp
      · cases hs.symm.trans he
    · cases hstart.2.symm.trans hoperand
    · cases hstart.2.symm.trans hoperand

/-- Whatever the text is, on its way through it the parser never tries to read an operand from a
division, and never finds a regular expression where punctuation is expected or an operand has just
ended.  So no text fails because of such a token. -/
theorem slash_agrees (source : String) :
    (∀ us, Reaches (.statements .eof) (tokensOfString source) (.read .primary) us →
        front us ≠ .operator .slash) ∧
      (∀ us p, Reaches (.statements .eof) (tokensOfString source) (.pass p) us →
        ∀ pattern flags, front us ≠ .regexp pattern flags) ∧
      (∀ us k a, Reaches (.statements .eof) (tokensOfString source) (.read (.operators k a)) us →
        ∀ pattern flags, front us ≠ .regexp pattern flags) ∧
      (∀ position,
        parse source ≠ .error (.malformed (.unexpected (.operator .slash)) position)) ∧
      ∀ p pattern flags position,
        parse source ≠ .error (.malformed (.expected p (.regexp pattern flags)) position) := by
  refine ⟨fun us h => h.front_ne_slash (Or.inl rfl),
    fun us p h => h.front_ne_regexp (Or.inl ⟨p, rfl⟩),
    fun us k a h => h.front_ne_regexp (Or.inr (Or.inr ⟨k, a, rfl⟩)), fun position herr => ?_,
    fun p pattern flags position herr => ?_⟩
  -- The error is found at a site that is reached, and no site that can have it has a slash in
  -- front.
  · obtain ⟨x, us, hreach, hbreaks⟩ := exists_reaches_of_parse_eq_error herr
    cases x with
    | pass q => cases hbreaks.2
    | read g =>
      cases g with
      | primary =>
        exact hreach.front_ne_slash (Or.inl rfl) (SyntaxFault.unexpected.inj hbreaks).symm
      | parts => exact hreach.front_ne_slash (Or.inr rfl) (SyntaxFault.unexpected.inj hbreaks).symm
      | property => exact nomatch hbreaks
      | operators k a => cases hbreaks
      | _ => exact hbreaks.elim
  · obtain ⟨x, us, hreach, hbreaks⟩ := exists_reaches_of_parse_eq_error herr
    cases x with
    | pass q =>
      exact hreach.front_ne_regexp (Or.inl ⟨q, rfl⟩) pattern flags
        (SyntaxFault.expected.inj hbreaks.2).2.symm
    | read g =>
      cases g with
      | primary => cases hbreaks
      | parts => cases hbreaks
      | property => exact nomatch hbreaks
      | operators k a => cases hbreaks
      | _ => exact hbreaks.elim

end Brace
