/-
# How the body of a template is made

A body without back-quotes is made of pieces of text and of interpolations (`IsBody`): each
interpolation is read in the same way whatever stands behind its closing brace.  So a body behind a
body is a body, in which two pieces of text have become one (`IsBody.append`).  Main statement: the
texts that are parsed as bodies are these (`parseTemplate_eq_ok_iff`).
-/
import Brace.Proofs.Node.Readable
import Brace.Proofs.Parser.Lookahead
import Brace.Proofs.Parser.TemplateBody
import Brace.Proofs.Token.Lookahead

namespace Brace

open Brace.Parser

/-! ## Bodies -/

/-- The modes in which the text of a template is read, if it is the first one of a source. -/
abbrev bodyModes : List Mode := [.template, .expression]

/-- The characters are the body of a template with the given pieces of text and expressions. -/
inductive IsBody : List Char → List String → List Node → Prop where
  /-- A piece of text. -/
  | piece {raw text : List Char} : Scan.ReadsAs raw text → IsBody raw [String.ofList text] []
  /-- A piece of text up to the brace of an interpolation and the blanks behind it, statements up to
  the closing brace, and the rest of the body. -/
  | interpolation {raw text inner rest : List Char} {ts : List Token} {as bs : List Node}
      {quasis : List String} :
      (∀ cs, Scan.template false (raw ++ (inner ++ '\x7d' :: cs)) =
        ⟨text, raw.length, .interpolation⟩) →
      (∀ cs, Lexes ⟨inner ++ '\x7d' :: cs, .interpolation 0 :: bodyModes, true⟩
        (ts ++ [Token.punct .rightBrace]) ⟨cs, bodyModes, false⟩) →
      (∀ us, Reads (.statements (.punct .rightBrace)) (ts ++ .punct .rightBrace :: us) as
        (.punct .rightBrace :: us)) →
      IsBody rest quasis bs →
        IsBody (raw ++ (inner ++ '\x7d' :: rest)) (String.ofList text :: quasis)
          (Node.ofStatements .block as :: bs)

/-- A piece of text in front of a body goes on with the first piece of the body. -/
theorem IsBody.of_piece_append {raw text cs : List Char} {q : String} {quasis : List String}
    {bs : List Node} (hraw : Scan.ReadsAs raw text) (h : IsBody cs (q :: quasis) bs) :
    IsBody (raw ++ cs) ((String.ofList text ++ q) :: quasis) bs := by
  cases h with
  | piece hcs =>
    rw [← String.ofList_append]
    exact .piece (hraw.append hcs)
  | interpolation hrun hlexes hreads hrest =>
    rw [← String.ofList_append, ← List.append_assoc]
    refine .interpolation (fun cs => ?_) hlexes hreads hrest
    rw [List.append_assoc, hraw, hrun, List.length_append]
    rfl

theorem IsBody.length_eq {cs : List Char} {quasis : List String} {as : List Node}
    (h : IsBody cs quasis as) : quasis.length = as.length + 1 := by
  induction h with
  | piece => rfl
  | interpolation _ _ _ _ ih => rw [List.length_cons, List.length_cons, ih]

/-- A body behind a body is a body: the last piece of the first one and the first piece of the
second one are joined. -/
theorem IsBody.append {cs ds : List Char} {ps quasis : List String} {as bs : List Node} {q : String}
    (h : IsBody cs ps as) (h' : IsBody ds (q :: quasis) bs) :
    ∃ qs p, ps = qs ++ [p] ∧ IsBody (cs ++ ds) (qs ++ (p ++ q) :: quasis) (as ++ bs) := by
  induction h with
  | piece hraw => exact ⟨[], _, rfl, h'.of_piece_append hraw⟩
  | interpolation hrun hlexes hreads _ ih =>
    obtain ⟨qs, p, rfl, hbody⟩ := ih
    refine ⟨_ :: qs, p, rfl, ?_⟩
    rw [List.append_assoc, List.append_assoc, List.cons_append]
    exact .interpolation hrun hlexes hreads hbody

/-! ## From bodies to templates -/

/-- A piece of text alone is a template without expressions. -/
theorem templateParts_piece (text : List Char) :
    templateParts (pieceParts text) = ([String.ofList text], []) := by
  have hparts := templateParts_pieceParts text []
  rw [List.append_nil] at hparts
  simp [hparts, templateParts]

/-- A piece of text and an interpolation go in front of the template behind them. -/
theorem templateParts_interpolation (text : List Char) (a : Node) (found : List TemplatePart) :
    templateParts (pieceParts text ++ .expression a :: found) =
      (String.ofList text :: (templateParts found).1, a :: (templateParts found).2) := by
  rw [templateParts_pieceParts]
  simp [templateParts]

/-- What the parts of a body are read from, up to the closing back-quote. -/
theorem IsBody.exists_tokens {cs : List Char} {quasis : List String} {as : List Node}
    (h : IsBody cs quasis as) :
    ∃ ts found, (∀ ds operand, Lexes ⟨cs ++ '\x60' :: ds, bodyModes, operand⟩
        (ts ++ [Token.punct .backquote]) ⟨ds, [.expression], false⟩) ∧
      (∀ us, Reads .parts (ts ++ .punct .backquote :: us) found (.punct .backquote :: us)) ∧
      templateParts found = (quasis, as) := by
  -- Piece by piece: the tokens of the text, and those of the interpolation between braces.
  induction h with
  | @piece raw text hraw =>
    refine ⟨pieceTokens text, pieceParts text, fun _ _ => lexes_template_end hraw, fun us => ?_, ?_⟩
    · have hend : Reads .parts (.punct .backquote :: us) [] (.punct .backquote :: us) := .partsEnd
      simpa using reads_pieceTokens text hend
    · exact templateParts_piece text
  | @interpolation raw text inner rest ts body _ _ hrun hlexes hreads _ ih =>
    obtain ⟨us, found, hlexes', hreads', hfound⟩ := ih
    refine ⟨pieceTokens text ++ .punct .leftBrace :: (ts ++ .punct .rightBrace :: us),
      pieceParts text ++ .expression (Node.ofStatements .block body) :: found, ?_, ?_, ?_⟩
    · intro ds operand
      have hopen : Lexes ⟨_, bodyModes, operand⟩ _ ⟨_, .interpolation 0 :: bodyModes, true⟩ :=
        lexes_of_template_interpolation (hrun (rest ++ '\x60' :: ds))
      have hall := hopen.append ((hlexes (rest ++ '\x60' :: ds)).append (hlexes' ds false))
      simpa using hall
    · intro vs
      have hparts := Reads.interpolation (hreads (us ++ .punct .backquote :: vs)) (hreads' vs)
      simpa using reads_pieceTokens text hparts
    · rw [templateParts_interpolation, hfound]

/-- Bodies are parsed. -/
theorem parseTemplate_of_isBody {text : String} {quasis : List String} {as : List Node}
    (h : IsBody text.toList quasis as) : parseTemplate text = .ok (.template quasis as) := by
  obtain ⟨ts, found, hlexes, hreads, hfound⟩ := h.exists_tokens
  have hopen : Lexes ⟨'\x60' :: (text.toList ++ ['\x60']), [.expression], true⟩
      [.punct .backquote] ⟨text.toList ++ ['\x60'], bodyModes, false⟩ :=
    lexes_punct .backquote nofun
  obtain ⟨m, hands, hm⟩ := hopen.cons (hlexes [] false) _ (at_template text)
  have htemplate : Reads .expression (.punct .backquote :: (ts ++ [.punct .backquote]))
      (.template (templateParts found).1 (templateParts found).2) [] :=
    .expression (.plain (.template (hreads [])) (.suffixesEnd nofun nofun)) (.operatorsEnd nofun)
  rw [hfound] at htemplate
  refine parse_eq_ok_iff.mpr ⟨_, hands.yields hm.yields, _, .lastStatement nofun ?_ rfl, rfl⟩
  rw [List.append_nil]
  exact htemplate

/-! ## From templates to bodies -/

/-- What is read from the tokens of a piece begins with its part. -/
theorem Reads.of_pieceTokens {text : List Char} {ts us : List Token} {found : List TemplatePart}
    (h : Reads .parts (pieceTokens text ++ ts) found us) :
    ∃ found', found = pieceParts text ++ found' ∧ Reads .parts ts found' us := by
  unfold pieceTokens at h
  unfold pieceParts
  split at h
  · next htext =>
    rw [if_pos htext]
    exact ⟨found, rfl, h⟩
  · next htext =>
    rw [if_neg htext]
    cases h with
    | text h => exact ⟨_, rfl, h⟩

/-- Where a lexer comes to the end of the source without an error, the text of a template has
ended. -/
theorem stop_ne_of_yields {cs : List Char} {outer : List Mode} {operand : Bool} {l : Lexer}
    {ts : List Token} (hl : l.At ⟨cs, .template :: outer, operand⟩) (hy : l.Yields ts) :
    (Scan.template false cs).stop ≠ .endOfSource := by
  obtain ⟨t, m, hn⟩ : ∃ t m, l.next = (.ok t, m) := by
    cases hy with
    | eof hn => exact ⟨_, _, hn⟩
    | cons hn _ _ => exact ⟨_, _, hn⟩
  obtain ⟨k, hr, -⟩ := Lexer.next_eq_ok_iff.mp hn
  rw [Lexer.read_of_template hl.held hl.modes] at hr
  have hchars : l.cursor.rest = cs := hl.chars
  exact hchars ▸ (Lexer.stop_ne_of_readTemplate hr).1

/-- A text up to a back-quote that is the only one is a piece. -/
theorem readsAs_of_stop {cs : List Char} (hq : '\x60' ∉ cs)
    (hstop : (Scan.template false (cs ++ ['\x60'])).stop = .backquote) :
    Scan.ReadsAs cs (Scan.template false (cs ++ ['\x60'])).text := by
  have hlt := Scan.template_length_lt _ _ hstop
  obtain ⟨ds, hdrop⟩ := Scan.drop_template hstop
  have hlength : (Scan.template false (cs ++ ['\x60'])).length = cs.length := by
    generalize (Scan.template false (cs ++ ['\x60'])).length = n at hlt hdrop
    rw [List.length_append, List.length_singleton, Nat.lt_succ_iff] at hlt
    refine (Nat.lt_or_eq_of_le hlt).resolve_left fun hless => ?_
    rw [List.drop_append_of_le_length hlt, List.drop_eq_getElem_cons hless] at hdrop
    exact hq ((List.cons.inj hdrop).1 ▸ List.getElem_mem hless)
  have hrun : Scan.template false (cs ++ ['\x60']) =
      ⟨(Scan.template false (cs ++ ['\x60'])).text, cs.length, .backquote⟩ := by
    rw [← hlength, ← hstop]
  exact Scan.template_append_of_backquote hrun

/-- The text of a template in front of an interpolation. -/
theorem exists_raw_of_stop {cs : List Char}
    (hstop : (Scan.template false cs).stop = .interpolation) :
    ∃ raw rest text, cs = raw ++ rest ∧
      Scan.template false (raw ++ rest) = ⟨text, raw.length, .interpolation⟩ := by
  set run := Scan.template false cs with hrun
  have hlength : (cs.take run.length).length = run.length :=
    List.length_take_of_le (Scan.template_length_le _ _)
  refine ⟨cs.take run.length, cs.drop run.length, run.text, (List.take_append_drop _ _).symm, ?_⟩
  rw [List.take_append_drop, hlength, ← hstop, ← hrun]

/-- The text of a template in front of an interpolation is read in the same way whatever stands
behind the interpolation. -/
theorem template_of_interpolation {raw inner ds text : List Char}
    (h : Scan.template false (raw ++ (inner ++ '\x7d' :: ds)) =
      ⟨text, raw.length, .interpolation⟩) (ds' : List Char) :
    Scan.template false (raw ++ (inner ++ '\x7d' :: ds')) = ⟨text, raw.length, .interpolation⟩ := by
  rw [← List.append_assoc] at h ⊢
  have hstop : (Scan.template false (raw ++ inner ++ '\x7d' :: ds)).stop ≠ .endOfSource := by
    rw [h]
    nofun
  have hle : (Scan.template false (raw ++ inner ++ '\x7d' :: ds)).length ≤
      (raw ++ inner).length := by
    rw [h, List.length_append]
    exact Nat.le_add_right _ _
  rw [Scan.template_forks hstop hle, h]

/-- What an interpolation is read from, behind its brace and up to the closing one: this much is
read in the same way whatever stands behind it, and then the text of the template goes on. -/
theorem exists_interpolation {rest : List Char} {l : Lexer} {ts us : List Token} {as : List Node}
    (hl : l.At ⟨rest, .interpolation 0 :: bodyModes, true⟩) (hy : l.Yields ts)
    (hr : Reads (.statements (.punct .rightBrace)) ts as (.punct .rightBrace :: us)) :
    ∃ inner used behind, ∃ m : Lexer, rest = inner ++ '\x7d' :: behind ∧
      (∀ cs, Lexes ⟨inner ++ '\x7d' :: cs, .interpolation 0 :: bodyModes, true⟩
        (used ++ [Token.punct .rightBrace]) ⟨cs, bodyModes, false⟩) ∧
      (∀ vs, Reads (.statements (.punct .rightBrace)) (used ++ .punct .rightBrace :: vs) as
        (.punct .rightBrace :: vs)) ∧
      m.At ⟨behind, bodyModes, false⟩ ∧ m.Yields us := by
  obtain ⟨used, rfl, hused⟩ := hr.exists_used
  obtain ⟨m, hands, hm⟩ := hy.split
  cases hm with
  | @cons _ k _ _ hn _ hk =>
    obtain ⟨hheld, -, hmodes, -⟩ := Lexer.next_rightBrace hn
    obtain ⟨inner, hrest, hlexes⟩ := lexes_of_hands_rightBrace hl hands hn
    -- The statements have left the modes as they were.
    have hbody : k.modes = bodyModes := by
      obtain ⟨b, hmoves, hb⟩ := hr.moves (b := ⟨.interpolation 0 :: bodyModes, true⟩) ⟨nofun, rfl⟩
      obtain ⟨used', hsame, rfl⟩ := hmoves.exists_used
      obtain rfl : used = used' := List.append_cancel_right hsame
      obtain ⟨-, -, hm⟩ := hands.aligned (Lexer.settled_of_not_held hl.held)
      have hinner : m.modes = .interpolation 0 :: bodyModes := by
        rw [← Lexer.inner_of_not_held hheld]
        show m.lookback.modes = _
        rw [hm, hl.lookback_eq]
        exact hb
      rw [hmodes, hinner]
      rfl
    rw [hbody] at hlexes
    obtain ⟨k', hands', hk'⟩ := hlexes k.cursor.rest l (hrest ▸ hl)
    obtain ⟨vs, hvs, hy'⟩ := hands'.exists_yields hy
    obtain rfl : us = vs := by simpa using hvs
    exact ⟨inner, used, k.cursor.rest, k', hrest, hlexes, fun vs => hused _ rfl, hk', hy'⟩

/-- Behind a closing brace, the last character of a text is still to come if it is another one. -/
theorem exists_behind_brace {cs front rest : List Char} {c : Char} (hc : c ≠ '\x7d')
    (h : cs ++ [c] = front ++ '\x7d' :: rest) :
    ∃ cs', rest = cs' ++ [c] ∧ cs = front ++ '\x7d' :: cs' := by
  rcases List.eq_nil_or_concat rest with rfl | ⟨cs', c', rfl⟩
  · exact absurd (List.singleton_inj.mp (List.append_inj' h rfl).2) hc
  · have hall : cs ++ [c] = (front ++ '\x7d' :: cs') ++ [c'] := by
      simpa using h
    obtain ⟨hcs, hlast⟩ := List.append_inj' hall rfl
    cases hlast
    exact ⟨cs', List.concat_eq_append, hcs⟩

/-- The parts of a template are read from a body, up to a back-quote that is the only one. -/
theorem isBody_of_reads {cs : List Char} {operand : Bool} {l : Lexer} {ts : List Token}
    {found : List TemplatePart} (hl : l.At ⟨cs ++ ['\x60'], bodyModes, operand⟩)
    (hq : '\x60' ∉ cs) (hy : l.Yields ts) (hr : Reads .parts ts found [.punct .backquote]) :
    IsBody cs (templateParts found).1 (templateParts found).2 := by
  -- What is left of the body is read again where an interpolation has ended.
  induction hk : cs.length using Nat.strongRecOn generalizing cs operand l ts found with
  | ind k ih =>
    cases hstop : (Scan.template false (cs ++ ['\x60'])).stop with
    | endOfSource => exact absurd hstop (stop_ne_of_yields hl hy)
    | backquote =>
      have hraw := readsAs_of_stop hq hstop
      -- The whole rest is one piece, and nothing but the closing quote is behind it.
      have hend : Lexes ⟨cs ++ ['\x60'], bodyModes, operand⟩ _ ⟨[], [.expression], false⟩ :=
        lexes_template_end hraw
      obtain ⟨m, hands, hm⟩ := hend l hl
      obtain ⟨us, rfl, hus⟩ := hands.exists_yields hy
      obtain rfl := hus.eq_nil hm.chars hm.held
      rw [List.append_assoc] at hr
      obtain ⟨behind, rfl, hbehind⟩ := hr.of_pieceTokens
      cases hbehind with
      | partsEnd =>
        rw [List.append_nil, templateParts_piece]
        exact .piece hraw
    | interpolation =>
      obtain ⟨raw, rest, text, hsplit, hrun⟩ := exists_raw_of_stop hstop
      rw [hsplit] at hl
      have hopen : Lexes ⟨raw ++ rest, bodyModes, operand⟩ _
          ⟨rest, .interpolation 0 :: bodyModes, true⟩ :=
        lexes_of_template_interpolation hrun
      obtain ⟨l', hands, hl'⟩ := hopen l hl
      obtain ⟨us, rfl, hus⟩ := hands.exists_yields hy
      rw [List.append_assoc] at hr
      obtain ⟨behind, rfl, hbehind⟩ := hr.of_pieceTokens
      cases hbehind with
      | interpolation hbody hparts =>
        obtain ⟨inner, used, rest', m, rfl, hlexes, hreads, hm, hvs⟩ :=
          exists_interpolation hl' hus hbody
        -- The closing back-quote is still to be read.
        rw [← List.append_assoc] at hsplit
        obtain ⟨cs', rfl, rfl⟩ := exists_behind_brace (by decide) hsplit
        rw [List.append_assoc] at hq hk ⊢
        have hq' : '\x60' ∉ cs' := fun hmem => hq (by simp [hmem])
        have hrest := ih cs'.length (by simp at hk; omega) hm hq' hvs hparts rfl
        rw [templateParts_interpolation]
        exact .interpolation (template_of_interpolation hrun) hlexes hreads hrest

/-! ## The answer -/

/-- A text without back-quotes that is parsed as the body of a template is one. -/
theorem isBody_of_parseTemplate {text : String} {n : Node} (htext : '\x60' ∉ text.toList)
    (h : parseTemplate text = .ok n) :
    ∃ quasis as, n = .template quasis as ∧ IsBody text.toList quasis as := by
  obtain ⟨ts, hy, hr⟩ := parse_eq_ok_iff.mp h
  obtain ⟨ts, l, rfl, hl, hy'⟩ := exists_cons_of_yields hy
  obtain ⟨found, rest, hparts, hiff, hn⟩ := hr.of_backquote
  obtain rfl := eq_nil_of_parts (at_template text) hy hparts htext
  exact ⟨_, _, hn (hiff.mpr (List.forall_mem_nil _)), isBody_of_reads hl htext hy' hparts⟩

/-- A text without back-quotes is parsed exactly if it is a body, and the answer is the template
with its pieces of text and its expressions. -/
theorem parseTemplate_eq_ok_iff {text : String} {n : Node} (htext : '\x60' ∉ text.toList) :
    parseTemplate text = .ok n ↔
      ∃ quasis as, n = .template quasis as ∧ IsBody text.toList quasis as := by
  refine ⟨isBody_of_parseTemplate htext, ?_⟩
  rintro ⟨quasis, as, rfl, hbody⟩
  exact parseTemplate_of_isBody hbody

end Brace
