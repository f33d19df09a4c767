/-
# Parsing and writing

The trees that the parser answers are regular (`regular_of_parse`).  A printable tree survives being
written and parsed (`parse_source_of_printable`).  Whatever tree the parser answers, its source text
is parsed again, but only the printable ones come back (`parse_source_iff_printable`): lost are the
numbers that are too large for a double, and the expressions of a template that are sequences
without a statement.
-/
import Brace.Proofs.Node.Parsed
import Brace.Proofs.Node.Readable

namespace Brace

/-! ## Parsed trees are regular -/

/-- Every tree that the parser answers is regular. -/
theorem regular_of_parse {source : String} {n : Node} (h : parse source = .ok n) :
    Regular .parsed .root n := by
  obtain ⟨ts, hyields, hreads⟩ := parse_eq_ok_iff.mp h
  exact hreads.regular hyields

/-- A semicolon in a template is a sequence without a statement. -/
theorem parse_semicolon_in_template :
    parse "`\x7b;\x7d`" = .ok (.template ["", ""] [.block []]) := by
  -- Token by token, with the mode that each is read in.
  have hopen : Lexes ⟨['\x60', '\x7b', ';', '\x7d', '\x60'], [.expression], true⟩
      [.punct .backquote] ⟨['\x7b', ';', '\x7d', '\x60'], [.template, .expression], false⟩ :=
    lexes_punct .backquote nofun
  have hbrace : Lexes ⟨['\x7b', ';', '\x7d', '\x60'], [.template, .expression], false⟩
      [.punct .leftBrace]
      ⟨[';', '\x7d', '\x60'], [.interpolation 0, .template, .expression], true⟩ :=
    lexes_template_interpolation Scan.ReadsAs.nil (by decide)
  have hsemicolon : Lexes ⟨[';', '\x7d', '\x60'], [.interpolation 0, .template, .expression], true⟩
      [.punct .semicolon] ⟨['\x7d', '\x60'], [.interpolation 0, .template, .expression], true⟩ :=
    lexes_punct .semicolon nofun
  have hend : Lexes ⟨['\x7d', '\x60'], [.interpolation 0, .template, .expression], true⟩
      [.punct .rightBrace] ⟨['\x60'], [.template, .expression], false⟩ :=
    lexes_punct .rightBrace nofun
  have hclose : Lexes ⟨['\x60'], [.template, .expression], false⟩
      [.punct .backquote] ⟨[], [.expression], false⟩ :=
    lexes_template_end Scan.ReadsAs.nil
  have hlexes := hopen.cons (hbrace.cons (hsemicolon.cons (hend.cons hclose)))
  obtain ⟨l, hands, hl⟩ := hlexes (Lexer.ofString "`\x7b;\x7d`") ⟨rfl, rfl, rfl, rfl⟩
  have hrest : Reads .parts [.punct .backquote] [] [.punct .backquote] := .partsEnd
  have hparts := Reads.interpolation (.skip (.noStatements nofun (Or.inl rfl))) hrest
  -- The semicolon is skipped, and no statement is left for the interpolation.
  refine parse_eq_ok_iff.mpr ⟨_, hands.yields hl.yields, [_], .lastStatement nofun ?_ rfl, rfl⟩
  exact .expression (.plain (.template hparts) (.suffixesEnd nofun nofun)) (.operatorsEnd nofun)

/-- The parser also answers regular trees that are not printable. -/
theorem regular_of_parse_semicolon_in_template :
    parse "`\x7b;\x7d`" = .ok (.template ["", ""] [.block []]) ∧
      Regular .parsed .root (.template ["", ""] [.block []]) :=
  ⟨parse_semicolon_in_template, regular_of_parse parse_semicolon_in_template⟩

/-! ## Written trees are parsed -/

/-- The source text of a printable tree is parsed, and the tree comes back. -/
theorem parse_source_of_printable {n : Node} (h : Regular .printable .root n) :
    parse n.source = .ok n := by
  have hparse := parse_source h.parsed_of_printable
  rwa [reread_of_printable h] at hparse

/-- A tree with a prefix operator below an index, an empty block, escaped texts and a sequence in a
template. -/
theorem parse_source_of_printable_conditional :
    let n := Node.conditional (.member (.unary .minus (.identifier "a")) (.string "\""))
      (some (.block [])) (some (.template ["\x60", ""] [.block [.null, .boolean true]]))
    Regular .printable .root n ∧
      n.source = "(if (-a)[\"\\\"\"] then \x7b\x7d else `\\`\x7bnull; true\x7d`)" ∧
        parse n.source = .ok n := by
  intro n
  have hname : IsName "a" := ⟨⟨'a', [], rfl, by decide, List.forall_mem_nil _⟩, by decide⟩
  have hquasis : ∀ q ∈ ["\x60", ""], IsQuasi q.toList := by
    intro q hq
    rw [isQuasi_iff]
    revert q
    decide
  -- From the inside out: the sequence, the template, and the two branches.
  have hsequence : Regular .printable .interpolation (.block [.null, .boolean true]) := by
    refine .sequence (Nat.le_refl 2) fun a ha => ?_
    simp only [List.mem_cons, List.not_mem_nil, or_false] at ha
    rcases ha with rfl | rfl
    · exact .null
    · exact .boolean true
  have htemplate : Regular .printable .branch
      (.template ["\x60", ""] [.block [.null, .boolean true]]) := by
    refine .expression nofun (.template rfl hquasis fun a ha => ?_)
    rwa [List.mem_singleton.mp ha]
  have hblock : Regular .printable .branch (.block []) := .block (List.forall_mem_nil _)
  have h : Regular .printable .root n :=
    .expression nofun (.conditional (.member (.unary (.identifier hname)) (.string _))
      (fun x hx => Option.some.inj hx ▸ hblock) (fun x hx => Option.some.inj hx ▸ htemplate))
  exact ⟨h, by decide, parse_source_of_printable h⟩

/-- The source text of every tree that the parser answers is parsed again.  The tree comes back, or
just an equal one, if and only if it is printable. -/
theorem parse_source_iff_printable {source : String} {n : Node} (h : parse source = .ok n) :
    (∃ m, parse n.source = .ok m) ∧
      (parse n.source = .ok n ↔ Regular .printable .root n) ∧
        ((∃ m, parse n.source = .ok m ∧ m.same n = true) ↔ Regular .printable .root n) := by
  obtain ⟨ts, hyields, hreads⟩ := parse_eq_ok_iff.mp h
  have hregular := hreads.regular hyields
  have hparse := parse_source hregular
  refine ⟨⟨n.reread, hparse⟩, ?_, ?_⟩
  · rw [hparse, Except.ok.injEq]
    exact reread_eq_self_iff hregular
  · rw [hparse]
    simp only [Except.ok.injEq, exists_eq_left']
    exact same_reread_iff hregular

/-- The sequence without a statement is lost. -/
theorem parse_source_semicolon_in_template :
    parse "`\x7b;\x7d`" = .ok (.template ["", ""] [.block []]) ∧
      (Node.template ["", ""] [.block []]).source = "`\x7b\x7d`" ∧
        ¬ ∃ m, parse "`\x7b\x7d`" = .ok m ∧ m.same (.template ["", ""] [.block []]) = true := by
  have hsource : (Node.template ["", ""] [.block []]).source = "`\x7b\x7d`" := by decide
  have hnot : ¬ Regular .printable .root (.template ["", ""] [.block []]) := by
    intro h
    cases h with
    | expression _ h =>
      cases h with
      | template _ _ hregular =>
        cases isEmpty_of_printable (hregular (.block []) List.mem_cons_self)
      | expression hplace _ => exact hplace rfl
  have hback := (parse_source_iff_printable parse_semicolon_in_template).2.2
  rw [hsource] at hback
  exact ⟨parse_semicolon_in_template, hsource, fun h => hnot (hback.mp h)⟩

end Brace
