/-
# What the parser answers is regular

The tokens of a source can be handed out along the modes of a lexer, and every construct of the
grammar leaves the modes as it found them.  So what the lexer settles token by token holds for the
nodes made of the tokens (`Reads.keeps`), and the text between the back-quotes of a template was
read in the mode of a template.  The other facts are settled by the parser.  Main statement: the
tree of the tokens of a source is regular (`ReadsProgram.regular`).
-/
import Brace.Proofs.Node.Nodes
import Brace.Proofs.Parser.Reads
import Brace.Proofs.Token.Lexical

namespace Brace

open Brace.Parser (literal? combine templateParts TemplatePart)

/-! ## Answers -/

/-- What a part of a template is like. -/
def Parser.TemplatePart.Fine : TemplatePart → Prop
  | .text s => IsQuasi s.toList
  | .expression a => Regular .parsed .interpolation a

/-- What is answered for a construct: regular nodes, if those that it was begun with are regular. -/
def Goal.Fine : (g : Goal) → g.Answer → Prop
  | .expression, a | .operand, a | .primary, a => Regular .parsed .expression a
  | .suffixes b, a | .operators _ b, a =>
    Regular .parsed .expression b → Regular .parsed .expression a
  | .items _ item, as | .bracketed _ item, as => ∀ a ∈ as, item.Fine a
  | .property, p =>
    p.1.isKey = true ∧ Regular .parsed .expression p.1 ∧ Regular .parsed .expression p.2
  | .statements _, as => ∀ a ∈ as, Regular .parsed .expression a
  | .parts, found => ∀ part ∈ found, part.Fine
  | .branch, a => Regular .parsed .branch a
  | .branchAfter _, b => ∀ a, b = some a → Regular .parsed .branch a

/-- The modes in which a construct is begun.  The items between brackets are expressions, or the
entries of an object. -/
def Goal.Begins : Goal → List Mode → Prop
  | .parts, modes => modes.head? = some .template
  | .items _ item, modes | .bracketed _ item, modes =>
    (item = .expression ∨ item = .property) ∧ Mode.InExpression modes
  | _, modes => Mode.InExpression modes

/-- The modes behind a construct: those in front of it, except that the closing bracket of items is
read together with them and the opening one is not. -/
def Goal.leaves : Goal → List Mode → List Mode
  | .bracketed stop _, modes => Mode.after modes (.punct stop)
  | _, modes => modes

/-- A construct turns tokens that can be handed out into regular nodes, and leaves tokens that can
be handed out. -/
def Goal.Keeps (g : Goal) (ts : List Token) (a : g.Answer) (us : List Token) : Prop :=
  ∀ modes, g.Begins modes → Lexical modes ts → g.Fine a ∧ Lexical (g.leaves modes) us

/-! ## Nodes made of nodes -/

/-- A literal is regular if its token fits the modes that it was read in. -/
theorem regular_of_literal? {modes : List Mode} {t : Token} {a : Node} (h : literal? t = some a)
    (ht : t.Fits modes) : Regular .parsed .expression a := by
  cases t <;> cases h
  · exact .number ht
  · exact .string _
  · exact .boolean _
  · exact .null
  · exact .regexp ht.1 ht.2
  · exact .identifier ht

/-- What an operator makes of regular operands is regular. -/
theorem regular_combine {o : Operator} {k : Nat} {a b : Node} (ho : o.precedence? = some k)
    (hi : o = .assign → a.isIdentifier = true) (ha : Regular .parsed .expression a)
    (hb : Regular .parsed .expression b) : Regular .parsed .expression (combine o a b) := by
  unfold combine
  split
  · exact .binary ha hb
  · next hop =>
    have : o = .assign := by
      revert hop ho
      cases o <;> simp [Operator.binary?, Operator.precedence?]
    exact .assign (hi this) ha hb

/-- The pieces of text and the expressions of a template alternate, beginning and ending with a
piece of text. -/
theorem templateParts_fine {found : List TemplatePart} (h : ∀ part ∈ found, part.Fine) :
    (templateParts found).1.length = (templateParts found).2.length + 1 ∧
      (∀ q ∈ (templateParts found).1, IsQuasi q.toList) ∧
        ∀ a ∈ (templateParts found).2, Regular .parsed .interpolation a := by
  have hempty : IsQuasi "".toList := isQuasi_iff.mpr rfl
  induction found with
  | nil => exact ⟨rfl, by simpa [templateParts] using hempty, by simp [templateParts]⟩
  | cons part found ih =>
    rw [List.forall_mem_cons] at h
    obtain ⟨hlen, hq, ha⟩ := ih h.2
    cases part with
    | expression a =>
      refine ⟨congrArg (· + 1) hlen, ?_, ?_⟩
      · exact List.forall_mem_cons.mpr ⟨hempty, hq⟩
      · exact List.forall_mem_cons.mpr ⟨h.1, ha⟩
    -- A text goes in front of the first piece, which is there because the pieces outnumber the
    -- expressions.
    | text s =>
      cases hqs : (templateParts found).1 with
      | nil =>
        rw [hqs] at hlen
        cases hlen
      | cons q quasis =>
        rw [hqs] at hlen hq
        rw [List.forall_mem_cons] at hq
        simp only [templateParts, hqs, List.headD_cons, List.tail_cons]
        refine ⟨hlen, List.forall_mem_cons.mpr ⟨?_, hq.2⟩, ha⟩
        rw [String.toList_append]
        exact IsQuasi.append h.1 hq.1

/-- Statements are regular as one node, unless there is only one and it is not to stand alone. -/
theorem regular_ofStatements {place : Place} {wrap : List Node → Node}
    (hplace : place ≠ .expression) {as : List Node}
    (h : ∀ a ∈ as, Regular .parsed .expression a)
    (hwrap : as.length ≠ 1 → Regular .parsed place (wrap as)) :
    Regular .parsed place (Node.ofStatements wrap as) := by
  unfold Node.ofStatements
  split
  · next a => exact .expression hplace (h a List.mem_cons_self)
  · next hne =>
    refine hwrap fun hl => ?_
    obtain ⟨a, rfl⟩ := List.length_eq_one_iff.mp hl
    exact hne a rfl

/-! ## Constructs -/

/-- An item is read in the modes in which its list begins. -/
theorem Goal.Keeps.item {stop : Punct} {item : Goal} {ts us : List Token} {a : item.Answer}
    (h : item.Keeps ts a us) {modes : List Mode} (hm : (Goal.items stop item).Begins modes)
    (ht : Lexical modes ts) : item.Fine a ∧ Lexical modes us := by
  obtain ⟨rfl | rfl, hm⟩ := hm
  · exact h modes hm ht
  · exact h modes hm ht

/-- What is read is regular, and the rest of the tokens is handed out in the same modes. -/
theorem Reads.keeps {g : Goal} {ts us : List Token} {a : g.Answer} (h : Reads g ts a us) :
    g.Keeps ts a us := by
  -- The induction is on the reading; the modes are those in which the construct begins.
  induction h with
  | expression _ _ iha ihb | plain _ _ iha ihb =>
    intro modes hm ht
    obtain ⟨ha, hu⟩ := iha modes hm ht
    obtain ⟨hb, hv⟩ := ihb modes hm hu
    exact ⟨hb ha, hv⟩
  | unary _ _ ih =>
    intro modes hm ht
    obtain ⟨ha, hu⟩ := ih modes hm ht.2
    exact ⟨.unary ha, hu⟩
  | @literal ts t a ha =>
    intro modes hm ht
    refine ⟨regular_of_literal? ha ht.1, ?_⟩
    cases t <;> first | exact ht.2 | cases ha
  | grouped _ ih =>
    intro modes hm ht
    obtain ⟨ha, hu⟩ := ih modes hm ht.2
    exact ⟨ha, hu.2⟩
  | object _ ih =>
    intro modes hm ht
    -- The opening brace is counted by the mode, and the closing brace takes it back.
    have hopen := ht.2
    rw [(Mode.after_of_inExpression hm).2] at hopen
    obtain ⟨hclose, hm'⟩ := Mode.closeBrace_openBrace hm
    obtain ⟨hps, hu⟩ := ih _ ⟨Or.inr rfl, hm'⟩ hopen
    have hu' : Lexical (Mode.closeBrace (Mode.openBrace modes)) _ := hu
    rw [hclose] at hu'
    exact ⟨.object (fun p hp => (hps p hp).1) (fun p hp => (hps p hp).2.1)
      (fun p hp => (hps p hp).2.2), hu'⟩
  | array _ ih =>
    intro modes hm ht
    obtain ⟨has, hu⟩ := ih modes ⟨Or.inl rfl, hm⟩ ht.2
    exact ⟨.array has, hu⟩
  | template _ ih =>
    intro modes hm ht
    have hopen := ht.2
    rw [(Mode.after_of_inExpression hm).1] at hopen
    obtain ⟨hfound, hu⟩ := ih (.template :: modes) rfl hopen
    obtain ⟨hl, hq, ha⟩ := templateParts_fine hfound
    exact ⟨.template hl hq ha, hu.2⟩
  | conditional _ _ _ iha ihb ihc =>
    intro modes hm ht
    obtain ⟨ha, hu⟩ := iha modes hm ht.2
    obtain ⟨hb, hv⟩ := ihb modes hm hu
    obtain ⟨hc, hw⟩ := ihc modes hm hv
    exact ⟨.conditional ha hb hc, hw⟩
  | suffixesEnd _ _ => exact fun modes _ ht => ⟨id, ht⟩
  | call _ _ iha ihb =>
    intro modes hm ht
    obtain ⟨has, hu⟩ := iha modes ⟨Or.inl rfl, hm⟩ ht.2
    obtain ⟨hb, hv⟩ := ihb modes hm hu
    exact ⟨fun ha => hb (.call ha has), hv⟩
  | index _ _ iha ihb =>
    intro modes hm ht
    obtain ⟨hc, hu⟩ := iha modes hm ht.2
    obtain ⟨hb, hv⟩ := ihb modes hm hu.2
    exact ⟨fun ha => hb (.member ha hc), hv⟩
  | operatorsEnd _ => exact fun modes _ ht => ⟨id, ht⟩
  | fold ho _ hi _ _ _ ihb ihc ihd =>
    intro modes hm ht
    obtain ⟨hb, hu⟩ := ihb modes hm ht.2
    obtain ⟨hc, hv⟩ := ihc modes hm hu
    obtain ⟨hd, hw⟩ := ihd modes hm hv
    exact ⟨fun ha => hd (regular_combine ho hi ha (hc hb)), hw⟩
  | lastItem _ _ ih =>
    intro modes hm ht
    obtain ⟨ha, hu⟩ := ih.item hm ht
    exact ⟨by simpa [Goal.Fine] using ha, hu⟩
  | trailingComma _ _ _ ih =>
    intro modes hm ht
    obtain ⟨ha, hu⟩ := ih.item hm ht
    exact ⟨by simpa [Goal.Fine] using ha, hu.2⟩
  | nextItem _ _ _ _ iha ihb =>
    intro modes hm ht
    obtain ⟨ha, hu⟩ := iha.item hm ht
    obtain ⟨has, hv⟩ := ihb modes hm hu.2
    exact ⟨List.forall_mem_cons.mpr ⟨ha, has⟩, hv⟩
  | noItems => exact fun modes _ ht => ⟨List.forall_mem_nil _, ht.2⟩
  | someItems _ _ _ ih =>
    intro modes hm ht
    obtain ⟨has, hu⟩ := ih modes hm ht
    exact ⟨has, hu.2⟩
  | property _ hkey _ iha ihb =>
    intro modes hm ht
    obtain ⟨ha, hu⟩ := iha modes hm ht
    obtain ⟨hb, hv⟩ := ihb modes hm hu.2
    exact ⟨⟨hkey, ha, hb⟩, hv⟩
  | skip _ ih => exact fun modes hm ht => ih modes hm ht.2
  | noStatements _ _ => exact fun modes _ ht => ⟨List.forall_mem_nil _, ht⟩
  | lastStatement _ _ _ ih =>
    intro modes hm ht
    obtain ⟨ha, hu⟩ := ih modes hm ht
    exact ⟨by simpa [Goal.Fine] using ha, hu⟩
  | nextStatement _ _ _ _ iha ihb =>
    intro modes hm ht
    obtain ⟨ha, hu⟩ := iha modes hm ht
    obtain ⟨has, hv⟩ := ihb modes hm hu.2
    exact ⟨List.forall_mem_cons.mpr ⟨ha, has⟩, hv⟩
  | partsEnd => exact fun modes _ ht => ⟨List.forall_mem_nil _, ht⟩
  | text _ ih =>
    intro modes hm ht
    obtain ⟨hfound, hu⟩ := ih modes hm ht.2
    have hs := ht.1.resolve_left fun h => h hm
    exact ⟨List.forall_mem_cons.mpr ⟨hs, hfound⟩, hu⟩
  | interpolation _ _ iha ihb =>
    intro modes hm ht
    -- The opening brace begins an interpolation, and the closing one ends it.
    obtain ⟨outer, rfl⟩ : ∃ outer, modes = .template :: outer := by
      cases modes with
      | nil => cases hm
      | cons m outer => exact ⟨outer, congrArg (· :: outer) (Option.some.inj hm)⟩
    obtain ⟨has, hu⟩ := iha (.interpolation 0 :: .template :: outer) nofun ht.2
    obtain ⟨hfound, hv⟩ := ihb (.template :: outer) rfl hu.2
    have ha : Regular .parsed .interpolation (Node.ofStatements .block _) :=
      regular_ofStatements (by decide) has fun hl => .sequence hl has
    exact ⟨List.forall_mem_cons.mpr ⟨ha, hfound⟩, hv⟩
  | block _ ih =>
    intro modes hm ht
    have hopen := ht.2
    rw [(Mode.after_of_inExpression hm).2] at hopen
    obtain ⟨hclose, hm'⟩ := Mode.closeBrace_openBrace hm
    obtain ⟨has, hu⟩ := ih _ hm' hopen
    have hu' : Lexical (Mode.closeBrace (Mode.openBrace modes)) _ := hu.2
    rw [hclose] at hu'
    exact ⟨.block has, hu'⟩
  | bareBranch _ _ ih =>
    intro modes hm ht
    obtain ⟨ha, hu⟩ := ih modes hm ht
    exact ⟨.expression nofun ha, hu⟩
  | someBranch _ ih =>
    intro modes hm ht
    obtain ⟨ha, hu⟩ := ih modes hm ht.2
    exact ⟨fun b hb => Option.some.inj hb ▸ ha, hu⟩
  | noBranch _ => exact fun modes _ ht => ⟨(fun _ ha => nomatch ha), ht⟩

/-- The tree of the tokens of a source is regular. -/
theorem ReadsProgram.regular {source : String} {ts : List Token} {n : Node}
    (h : ReadsProgram ts n) (hy : (Lexer.ofString source).Yields ts) :
    Regular .parsed .root n := by
  obtain ⟨body, hbody, rfl⟩ := h
  obtain ⟨hfine, -⟩ := hbody.keeps [.expression] nofun (Lexer.lexical_of_yields hy)
  exact regular_ofStatements (by decide) hfine fun hl => .program hl hfine

/-- The nodes of a parsed tree are regular, each at its place. -/
theorem exists_regular_of_mem_nodes {source : String} {n m : Node} (h : parse source = .ok n)
    (hm : m ∈ n.nodes) : ∃ place, Regular .parsed place m := by
  obtain ⟨ts, hyields, hreads⟩ := parse_eq_ok_iff.mp h
  exact (hreads.regular hyields).of_mem_nodes m hm

end Brace
