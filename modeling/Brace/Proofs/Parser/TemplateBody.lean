/-
# Texts that are parsed as the body of a template

The body of a template is put between back-quotes and parsed as a text of its own.  A back-quote in
the body can end the template, and what stands behind is read as code, so the answer need not be a
template.  It is one exactly if nothing but semicolons stands behind the template that the text
begins with; this is so if there is no back-quote in the body.  Main statement:
`isTemplate_iff_of_parseTemplate`.
-/
import Brace.Proofs.Node.Written
import Brace.Proofs.Parser.Lookback
import Brace.Proofs.Token.Consumes

namespace Brace

open Brace.Parser

/-! ## Templates as answers -/

/-- Whether a node is a template. -/
def Node.isTemplate : Node → Bool
  | .template .. => true
  | _ => false

/-- What an operator stands above is not a template. -/
theorem isTemplate_combine (o : Operator) (a b : Node) : (combine o a b).isTemplate = false := by
  unfold combine
  split <;> rfl

/-- Whatever stands behind an operand or between statements turns the answer into something else. -/
def Goal.Bare : (g : Goal) → List Token → g.Answer → List Token → Prop
  | .suffixes a, ts, b, us | .operators _ a, ts, b, us => b.isTemplate = true → b = a ∧ ts = us
  | .statements _, ts, as, us =>
    (as = [] → ∃ skipped, ts = skipped ++ us ∧ ∀ t ∈ skipped, t = .punct .semicolon) ∧
      ((∀ t ∈ ts, t = .punct .semicolon) → as = [])
  | _, _, _, _ => True

/-- No statement begins with a semicolon or at the end of the source. -/
theorem Reads.not_semicolons {ts us : List Token} {a : Node} (h : Reads .expression ts a us) :
    ¬ ∀ t ∈ ts, t = .punct .semicolon := by
  obtain ⟨hsemi, heof⟩ := h.front_ne_of_expression
  cases ts with
  | nil => exact absurd rfl heof
  | cons t ts => exact fun hall => hsemi (hall t List.mem_cons_self)

/-- Where a template is read behind an operand, nothing has been passed. -/
theorem Reads.bare {g : Goal} {ts us : List Token} {a : g.Answer} (h : Reads g ts a us) :
    g.Bare ts a us := by
  induction h with
  | suffixesEnd _ _ => exact fun _ => ⟨rfl, rfl⟩
  | call _ _ _ ih =>
    intro hb
    obtain ⟨rfl, -⟩ := ih hb
    cases hb
  | index _ _ _ ih =>
    intro hb
    obtain ⟨rfl, -⟩ := ih hb
    cases hb
  | operatorsEnd _ => exact fun _ => ⟨rfl, rfl⟩
  | fold _ _ _ _ _ _ _ _ ih =>
    intro hb
    obtain ⟨rfl, -⟩ := ih hb
    cases (isTemplate_combine _ _ _).symm.trans hb
  | skip _ ih =>
    refine ⟨fun has => ?_, fun hall => ih.2 (List.forall_mem_cons.mp hall).2⟩
    obtain ⟨skipped, rfl, hall⟩ := ih.1 has
    exact ⟨_ :: skipped, rfl, List.forall_mem_cons.mpr ⟨rfl, hall⟩⟩
  | noStatements _ _ => exact ⟨fun _ => ⟨[], rfl, List.forall_mem_nil _⟩, fun _ => rfl⟩
  | lastStatement _ ha _ _ => exact ⟨nofun, fun hall => absurd hall ha.not_semicolons⟩
  | nextStatement _ _ ha _ _ _ => exact ⟨nofun, fun hall => absurd hall ha.not_semicolons⟩
  | _ => trivial

/-- Behind a template, an expression is the template exactly if nothing is read there. -/
theorem Reads.of_backquote {ts us : List Token} {a : Node}
    (h : Reads .expression (.punct .backquote :: ts) a us) :
    ∃ found rest, Reads .parts ts found (.punct .backquote :: rest) ∧
      (a.isTemplate = true →
        a = .template (templateParts found).1 (templateParts found).2 ∧ rest = us) ∧
      (front rest = .punct .semicolon ∨ rest = [] →
        a = .template (templateParts found).1 (templateParts found).2 ∧ rest = us) := by
  cases h with
  | expression ha hb =>
    cases ha with
    | @plain _ rest _ _ _ hp hs =>
      cases hp with
      | literal hl => cases hl
      | @template _ _ found hparts =>
        -- A template with a suffix or an operator behind it is no longer a template.
        refine ⟨found, rest, hparts, ?_, ?_⟩
        · intro ht
          obtain ⟨rfl, rfl⟩ := hb.bare ht
          obtain ⟨rfl, rfl⟩ := hs.bare ht
          exact ⟨rfl, rfl⟩
        · intro hrest
          have hfront : front rest = .punct .semicolon ∨ front rest = .eof := by
            rcases hrest with hf | rfl
            · exact Or.inl hf
            · exact Or.inr rfl
          cases hs with
          | suffixesEnd =>
            cases hb with
            | operatorsEnd => exact ⟨rfl, rfl⟩
            | fold => rcases hfront with hf | hf <;> cases hf
          | call => rcases hfront with hf | hf <;> cases hf
          | index => rcases hfront with hf | hf <;> cases hf

/-- A program that begins with a template is this template exactly if nothing but semicolons stands
behind it. -/
theorem ReadsProgram.of_backquote {ts : List Token} {n : Node}
    (h : ReadsProgram (.punct .backquote :: ts) n) :
    ∃ found rest, Reads .parts ts found (.punct .backquote :: rest) ∧
      (n.isTemplate = true ↔ ∀ t ∈ rest, t = .punct .semicolon) ∧
      (n.isTemplate = true → n = .template (templateParts found).1 (templateParts found).2) := by
  have hfront {rest : List Token} (hall : ∀ t ∈ rest, t = .punct .semicolon) :
      front rest = .punct .semicolon ∨ rest = [] := by
    cases rest with
    | nil => exact Or.inr rfl
    | cons t rest => exact Or.inl (hall t List.mem_cons_self)
  obtain ⟨body, hbody, rfl⟩ := h
  -- One statement, or several with separators between them.
  cases hbody with
  | @lastStatement _ _ _ a _ ha _ =>
    obtain ⟨found, rest, hparts, htemplate, hrest⟩ := ha.of_backquote
    refine ⟨found, rest, hparts, ⟨?_, ?_⟩, fun ht => (htemplate ht).1⟩
    · intro ht
      rw [(htemplate ht).2]
      exact List.forall_mem_nil _
    · intro hall
      show a.isTemplate = true
      rw [(hrest (hfront hall)).1]
      rfl
  | @nextStatement _ us _ _ a as _ _ ha has =>
    obtain ⟨found, rest, hparts, htemplate, hrest⟩ := ha.of_backquote
    -- With more statements the answer is a program.
    have hsingle (ht : (Node.ofStatements .program (a :: as)).isTemplate = true) :
        as = [] ∧ a.isTemplate = true := by
      cases as with
      | nil => exact ⟨rfl, ht⟩
      | cons => cases ht
    refine ⟨found, rest, hparts, ⟨?_, ?_⟩, ?_⟩
    · intro ht
      obtain ⟨hnil, ht⟩ := hsingle ht
      obtain ⟨skipped, hus, hall⟩ := has.bare.1 hnil
      rw [List.append_nil] at hus
      rw [(htemplate ht).2, hus]
      exact List.forall_mem_cons.mpr ⟨rfl, hall⟩
    · intro hall
      obtain ⟨rfl, rfl⟩ := hrest (hfront hall)
      rw [has.bare.2 (List.forall_mem_cons.mp hall).2]
      rfl
    · intro ht
      obtain ⟨rfl, ht⟩ := hsingle ht
      exact (htemplate ht).1

/-! ## Bodies without back-quotes -/

/-- An end of a text that lacks its last character is empty. -/
theorem suffix_eq_nil {c : Char} {cs ds : List Char} (h : ds <:+ cs ++ [c]) (hc : c ∉ ds) :
    ds = [] := by
  rcases List.eq_nil_or_concat ds with rfl | ⟨init, d, rfl⟩
  · rfl
  · obtain ⟨before, hcs⟩ := h
    rw [List.concat_eq_append, ← List.append_assoc] at hcs
    obtain rfl : d = c := by simpa using (List.append_inj' hcs rfl).2
    simp at hc

theorem Lexer.At.lookback_eq {cs : List Char} {modes : List Mode} {operand : Bool} {l : Lexer}
    (h : l.At ⟨cs, modes, operand⟩) : l.lookback = ⟨modes, operand⟩ := by
  rw [Lexer.lookback, Lexer.inner_of_not_held h.held, h.modes, h.operand]

/-- A template that is closed by a back-quote for which there is only one character ends at this
character. -/
theorem eq_nil_of_parts {text : List Char} {l : Lexer} {ts rest : List Token}
    {found : List TemplatePart} (hl : l.At ⟨'\x60' :: (text ++ ['\x60']), [.expression], true⟩)
    (hy : l.Yields (.punct .backquote :: ts))
    (hr : Reads .parts ts found (.punct .backquote :: rest)) (htext : '\x60' ∉ text) :
    rest = [] := by
  obtain ⟨b, hmoves, hmodes⟩ := hr.moves (b := Lookback.start.after (.punct .backquote)) rfl
  obtain ⟨used, rfl, rfl⟩ := hmoves.exists_used
  have hlookback : l.lookback = .start := hl.lookback_eq
  have hsplit : .punct .backquote :: (used ++ .punct .backquote :: rest) =
      .punct .backquote :: (used ++ [Token.punct .backquote]) ++ rest := by
    simp
  rw [hsplit] at hy
  obtain ⟨m, hands, hm⟩ := hy.split
  obtain ⟨-, hsettled, hend⟩ := hands.aligned (Lexer.settled_of_not_held hl.held)
  have hheld : m.held = false := by
    refine hsettled.held_eq_false ?_
    rw [hend, hlookback, List.foldl_cons, List.foldl_append, List.foldl_cons, List.foldl_nil,
      Lookback.modes_after, hmodes]
    rfl
  -- Two back-quotes have been handed out, and there are no more of them.
  obtain ⟨hsuffix, hcount⟩ := hands.count_le
  have htwo : l.backquotes = 2 := by
    rw [Lexer.backquotes, hl.chars, List.count_cons_self, List.count_append,
      List.count_eq_zero.mpr htext]
    rfl
  have hnone : '\x60' ∉ m.cursor.rest := by
    rw [htwo, List.count_cons_self, List.count_append, List.count_singleton_self] at hcount
    exact List.count_eq_zero.mp (show m.backquotes = 0 by omega)
  rw [hl.chars, ← List.cons_append] at hsuffix
  exact hm.eq_nil (suffix_eq_nil hsuffix hnone) hheld

/-! ## The answer -/

/-- The lexer at the start of a body between back-quotes. -/
theorem at_template (text : String) : (Lexer.ofString ("`" ++ text ++ "`")).At
    ⟨'\x60' :: (text.toList ++ ['\x60']), [.expression], true⟩ :=
  ⟨by simp [Lexer.ofString, Cursor.ofString], rfl, rfl, rfl⟩

/-- The first token of a body between back-quotes is the opening one, and the text of the template
stands behind it. -/
theorem exists_cons_of_yields {text : String} {ts : List Token}
    (h : (Lexer.ofString ("`" ++ text ++ "`")).Yields ts) :
    ∃ us, ∃ m : Lexer, ts = .punct .backquote :: us ∧
      m.At ⟨text.toList ++ ['\x60'], [.template, .expression], false⟩ ∧ m.Yields us := by
  obtain ⟨m, hands, hm⟩ := lexes_punct .backquote (by nofun) _ (at_template text)
  obtain ⟨us, rfl, hy⟩ := hands.exists_yields h
  exact ⟨us, m, rfl, hm, hy⟩

/-- What is parsed as the body of a template begins with a template.  If nothing but semicolons
stands behind it, the answer is this template; if anything else does, the answer is no template.
Nothing at all stands behind it if there is no back-quote in the body. -/
theorem isTemplate_iff_of_parseTemplate {text : String} {n : Node}
    (h : parseTemplate text = .ok n) :
    ∃ ts found rest, (Lexer.ofString ("`" ++ text ++ "`")).Yields (.punct .backquote :: ts) ∧
      Reads .parts ts found (.punct .backquote :: rest) ∧
      (n.isTemplate = true ↔ ∀ t ∈ rest, t = .punct .semicolon) ∧
      (n.isTemplate = true → n = .template (templateParts found).1 (templateParts found).2) ∧
      ('\x60' ∉ text.toList → rest = [] ∧ n.isTemplate = true) := by
  obtain ⟨ts, hy, hr⟩ := parse_eq_ok_iff.mp h
  obtain ⟨ts, -, rfl, -⟩ := exists_cons_of_yields hy
  obtain ⟨found, rest, hparts, hiff, htemplate⟩ := hr.of_backquote
  refine ⟨ts, found, rest, hy, hparts, hiff, htemplate, fun htext => ?_⟩
  obtain rfl := eq_nil_of_parts (at_template text) hy hparts htext
  exact ⟨rfl, hiff.mpr (List.forall_mem_nil _)⟩

/-- A body that ends the template and begins another one is read as two statements. -/
theorem isTemplate_iff_of_parseTemplate_semicolon :
    let n := Node.program [.template [""] [], .template [""] []]
    parseTemplate "`;`" = .ok n ∧ n.isTemplate = false ∧
      ∃ ts found rest, (Lexer.ofString "``;``").Yields (.punct .backquote :: ts) ∧
        Reads .parts ts found (.punct .backquote :: rest) ∧ ∃ t ∈ rest, t ≠ .punct .semicolon := by
  intro n
  have hopen (cs : List Char) (operand : Bool) : Lexes ⟨'\x60' :: cs, [.expression], operand⟩
      [.punct .backquote] ⟨cs, [.template, .expression], false⟩ :=
    lexes_punct .backquote nofun
  have hclose (cs : List Char) (operand : Bool) :
      Lexes ⟨'\x60' :: cs, [.template, .expression], operand⟩ [.punct .backquote]
        ⟨cs, [.expression], false⟩ :=
    lexes_template_end Scan.ReadsAs.nil
  have hsemicolon (cs : List Char) (operand : Bool) : Lexes ⟨';' :: cs, [.expression], operand⟩
      [.punct .semicolon] ⟨cs, [.expression], true⟩ :=
    lexes_punct .semicolon nofun
  -- The back-quote that is added in front is closed by the first one of the body.
  have hlexes := (hopen ['\x60', ';', '\x60', '\x60'] true).cons ((hclose _ _).cons
    ((hsemicolon _ _).cons ((hopen _ _).cons (hclose [] _))))
  obtain ⟨l, hands, hl⟩ := hlexes _ (at_template "`;`")
  have htemplate (ts : List Token) (hts : front ts = .punct .semicolon ∨ front ts = .eof) :
      Reads .expression (.punct .backquote :: .punct .backquote :: ts) (.template [""] []) ts := by
    have hends : (front ts).closes = true := by rcases hts with h | h <;> rw [h] <;> rfl
    obtain ⟨hcall, hindex, hop⟩ := Token.ends_of_closes hends
    exact .expression (.plain (.template .partsEnd) (.suffixesEnd hcall hindex))
      (.operatorsEnd fun o k hk => nomatch hop.symm.trans hk)
  have hparse : parseTemplate "`;`" = .ok n :=
    parse_eq_ok_iff.mpr ⟨_, hands.yields hl.yields, _, .nextStatement nofun nofun
      (htemplate _ (Or.inl rfl)) (.lastStatement nofun (htemplate [] (Or.inr rfl)) rfl), rfl⟩
  obtain ⟨ts, found, rest, hy, hparts, hiff, -⟩ := isTemplate_iff_of_parseTemplate hparse
  refine ⟨hparse, rfl, ts, found, rest, hy, hparts, ?_⟩
  by_contra hnone
  simp only [not_exists, not_and, not_not] at hnone
  cases hiff.mpr hnone

end Brace
