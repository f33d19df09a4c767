/-
# The source text of a regular tree

The source text of a regular tree is parsed, and the answer is the tree that it is read back as
(`parse_source`).  The induction follows the tree: `Node.Readable` says that the text of a node can
be used as an operand, and `Place.Rereads` says for each place what the text there has to be.  In a
template, an empty sequence leaves nothing, and the pieces of text around it are read as one.
-/
import Brace.Proofs.Node.Parsed
import Brace.Proofs.Node.Written

namespace Brace

open Brace.Parser (literal? combine templateParts TemplatePart)
open Node (parenthesized operandSource branchSource interpolationSource templateSource rereadParts)

/-! ## Literals -/

theorem starts_of_name_or_digit {c : Char} (h : Scan.isNameStart c = true ∨ c.isDigit = true)
    (cs : List Char) : Starts (c :: cs) :=
  ⟨c, cs, rfl, (starts_ne h).1.1, (starts_ne h).2.2⟩

/-- A number that can be printed is written as an operand. -/
theorem enclosed_number {x : Float} (hx : Limits.printable.number x) :
    Enclosed (Number.text x).toList [.number x] (.number x) := by
  refine .of_literal rfl ?_ fun cs modes hcs hm => lexes_number hx hcs hm
  obtain ⟨l, htext, hw, -, hne, -⟩ := Number.exists_literal_of_text hx
  obtain ⟨c, whole, hwhole⟩ := List.exists_cons_of_ne_nil hne
  rw [htext, Number.Literal.chars, hwhole]
  exact starts_of_name_or_digit (Or.inr (hw c (hwhole ▸ List.mem_cons_self))) _

theorem enclosed_string (s : String) : Enclosed (Node.quote s).toList [.string s] (.string s) := by
  refine .of_literal rfl ?_ fun cs modes _ hm => lexes_quote s hm
  rw [toList_quote]
  exact ⟨'"', _, rfl, by decide⟩

theorem enclosed_identifier {name : String} (h : IsName name) :
    Enclosed name.toList [.identifier name] (.identifier name) := by
  refine .of_literal rfl ?_ fun cs modes hcs hm => lexes_name h hcs hm
  obtain ⟨c, cs, hspell, hc, -⟩ := h.spelled
  rw [hspell]
  exact starts_of_name_or_digit (Or.inl hc) cs

/-- The reserved words that are literals. -/
theorem enclosed_word {word : String} {t : Token} {a : Node} (hlit : literal? t = some a)
    (hof : Token.ofWord word = t) (hoperand : t.expectsOperand = false)
    (hspelled : ∃ c cs, word.toList = c :: cs ∧ Scan.isNameStart c = true ∧
      ∀ d ∈ cs, Scan.isNameChar d = true) :
    Enclosed word.toList [t] a := by
  obtain ⟨c, cs, hspell, hc, hcs⟩ := hspelled
  have hword : Token.ofWord (String.ofList (c :: cs)) = t := by
    rw [← hspell, String.ofList_toList, hof]
  rw [hspell]
  refine .of_literal hlit (starts_of_name_or_digit (Or.inl hc) cs) fun rest modes hrest hm => ?_
  have hlex : Lexes ⟨c :: cs ++ rest, modes, true⟩ _ _ := lexes_word hc hcs hrest hm
  rw [hword, hoperand] at hlex
  exact hlex

theorem enclosed_boolean (b : Bool) :
    Enclosed (toString b).toList [.boolean b] (.boolean b) := by
  cases b with
  | true =>
    exact enclosed_word rfl (by decide) rfl ⟨'t', ['r', 'u', 'e'], rfl, by decide,
      List.all_eq_true.mp rfl⟩
  | false =>
    exact enclosed_word rfl (by decide) rfl ⟨'f', ['a', 'l', 's', 'e'], rfl, by decide,
      List.all_eq_true.mp rfl⟩

theorem enclosed_null : Enclosed "null".toList [.null] .null :=
  enclosed_word rfl (by decide) rfl ⟨'n', ['u', 'l', 'l'], rfl, by decide, List.all_eq_true.mp rfl⟩

/-- A regular expression with a regular pattern and flags is written as an operand. -/
theorem enclosed_regexp {pattern flags : String} (hp : isPattern pattern.toList = true)
    (hf : IsFlags flags) :
    Enclosed ("/" ++ pattern ++ "/" ++ flags).toList [.regexp pattern flags]
      (.regexp pattern flags) := by
  have hchars : ("/" ++ pattern ++ "/" ++ flags).toList =
      '/' :: (pattern.toList ++ '/' :: flags.toList) := by
    simp
  rw [hchars]
  exact .of_literal rfl ⟨'/', _, rfl, by decide⟩ fun cs modes hcs hm => lexes_regexp hp hf hcs hm

/-! ## Expressions -/

/-- The source text of a node is the text of an operand, from which the node is read back. -/
def Node.Readable (n : Node) : Prop :=
  (∃ ts, Enclosed n.source.toList ts n.reread) ∨
    n.isUnary = true ∧ ∃ ts, Written n.source.toList ts n.reread

namespace Node.Readable

variable {n : Node}

/-- The text of a readable node is written in tokens. -/
theorem exists_written (h : n.Readable) : ∃ ts, Written n.source.toList ts n.reread := by
  rcases h with ⟨ts, h⟩ | ⟨-, ts, h⟩
  · exact ⟨ts, h.toWritten⟩
  · exact ⟨ts, h⟩

/-- The text of a readable node is an expression in front of a closing token. -/
theorem exists_phrase (h : n.Readable) :
    ∃ ts, Phrase .expression (·.closes = true) n.source.toList ts n.reread := by
  obtain ⟨ts, h⟩ := h.exists_written
  exact ⟨ts, h.phrase⟩

/-- In parentheses, every expression can be called or indexed. -/
theorem exists_parenthesized (h : n.Readable) :
    ∃ ts, Enclosed (parenthesized n.source).toList ts n.reread := by
  obtain ⟨ts, h⟩ := h.exists_phrase
  rw [toList_parenthesized]
  exact ⟨_, h.parenthesized⟩

/-- In parentheses, if it needs them, a readable node is an operand. -/
theorem exists_operand (h : n.Readable) :
    ∃ ts, Enclosed (operandSource n n.source).toList ts n.reread := by
  unfold operandSource
  split
  · exact h.exists_parenthesized
  · next hunary =>
    rcases h with h | ⟨hu, -⟩
    · exact h
    · exact absurd hu hunary

/-- A readable node is written as a branch, in parentheses where it begins like a block. -/
theorem exists_branch (h : n.Readable) (hblock : n.isBlock = false) :
    ∃ ts, Phrase .branch Token.Ends (branchSource n n.source).toList ts n.reread := by
  unfold branchSource
  split
  · obtain ⟨ts, h⟩ := h.exists_parenthesized
    refine ⟨ts, h.branch ?_⟩
    rw [toList_parenthesized]
    nofun
  · next hbrace =>
    obtain ⟨ts, h⟩ := h.exists_written
    exact ⟨ts, h.branch fun hhead => hbrace ⟨hhead, hblock⟩⟩

end Node.Readable

/-! ## Templates -/

/-- The parts of a template that a piece of text is, if there is any text. -/
def pieceParts (text : List Char) : List TemplatePart :=
  if text = [] then [] else [.text (String.ofList text)]

/-- Two pieces of text in a row are read as one. -/
theorem templateParts_text_text (s t : String) (found : List TemplatePart) :
    templateParts (.text s :: .text t :: found) = templateParts (.text (s ++ t) :: found) := by
  simp [templateParts, String.append_assoc]

/-- An empty piece of text adds nothing to what follows it. -/
theorem templateParts_text_empty (found : List TemplatePart) :
    templateParts (.text "" :: found) = templateParts found := by
  cases found with
  | nil => rfl
  | cons part found => cases part <;> simp [templateParts]

/-- Whether a piece of text that is empty is there or not makes no difference. -/
theorem templateParts_pieceParts (text : List Char) (found : List TemplatePart) :
    templateParts (pieceParts text ++ found) =
      templateParts (.text (String.ofList text) :: found) := by
  unfold pieceParts
  split
  · next h =>
    subst h
    exact (templateParts_text_empty found).symm
  · rfl

/-- A piece of text is read from its token, or from none if it is empty. -/
theorem reads_pieceTokens (text : List Char) {ts us : List Token} {found : List TemplatePart}
    (h : Reads .parts ts found us) :
    Reads .parts (pieceTokens text ++ ts) (pieceParts text ++ found) us := by
  unfold pieceTokens pieceParts
  split
  · exact h
  · exact .text h

/-- The text of a template up to its closing back-quote. -/
structure TemplateWritten (text : List Char) (ts : List Token) (found : List TemplatePart) :
    Prop where
  /-- It is handed out as the tokens. -/
  lexes : ∀ cs modes operand,
    Lexes ⟨text ++ '\x60' :: cs, .template :: modes, operand⟩ (ts ++ [Token.punct .backquote])
      ⟨cs, modes, false⟩
  /-- The parts are read from them. -/
  reads : ∀ us, Reads .parts (ts ++ Token.punct .backquote :: us) found (.punct .backquote :: us)

namespace TemplateWritten

variable {raw text rest inner : List Char} {ts ts' : List Token} {found : List TemplatePart}

/-- A piece of text is written in its token. -/
theorem piece (h : Scan.ReadsAs raw text) :
    TemplateWritten raw (pieceTokens text) (pieceParts text) where
  lexes _ _ _ := lexes_template_end h
  reads us := by
    have hr : Reads .parts (.punct .backquote :: us) [] (.punct .backquote :: us) := .partsEnd
    simpa using reads_pieceTokens text hr

/-- A piece of text with an expression behind it. -/
theorem interpolation {body : List Node} (hraw : Scan.ReadsAs raw text)
    (hbody : Phrase (.statements (.punct .rightBrace)) (· = .punct .rightBrace) inner ts body)
    (h : TemplateWritten rest ts' found) :
    TemplateWritten (raw ++ '\x7b' :: (inner ++ '\x7d' :: rest))
      (pieceTokens text ++ Token.punct .leftBrace :: (ts ++ Token.punct .rightBrace :: ts'))
      (pieceParts text ++ TemplatePart.expression (Node.ofStatements .block body) :: found) where
  lexes cs modes operand := by
    obtain ⟨c, inner, rfl, hc⟩ := hbody.starts
    have hopen : Lexes
        ⟨raw ++ '\x7b' :: c :: (inner ++ '\x7d' :: (rest ++ '\x60' :: cs)), .template :: modes,
          operand⟩
        (pieceTokens text ++ [Token.punct .leftBrace])
        ⟨c :: (inner ++ '\x7d' :: (rest ++ '\x60' :: cs)), .interpolation 0 :: .template :: modes,
          true⟩ :=
      lexes_template_interpolation hraw hc
    have hinner := hbody.spells ('\x7d' :: (rest ++ '\x60' :: cs))
      (.interpolation 0 :: .template :: modes) (delimited_cons (by decide) _) nofun
    have hclose : Lexes
        ⟨'\x7d' :: (rest ++ '\x60' :: cs), .interpolation 0 :: .template :: modes, false⟩
        [.punct .rightBrace] ⟨rest ++ '\x60' :: cs, .template :: modes, false⟩ :=
      lexes_punct .rightBrace nofun
    -- The modes in which the two braces are read match: what the first one opens the second one
    -- closes.
    have hall := hopen.append (hinner.append (hclose.cons (h.lexes cs modes false)))
    simpa using hall
  reads us := by
    have hparts := Reads.interpolation (hbody.reads (.punct .rightBrace :: _) rfl) (h.reads us)
    simpa using reads_pieceTokens text hparts

end TemplateWritten

/-- The text of an expression of a template: statements in braces, which are read back as the
expression. -/
def Node.Interpolated (a : Node) : Prop :=
  ∃ inner ts body, (interpolationSource a a.source).toList = '\x7b' :: (inner ++ ['\x7d']) ∧
    Phrase (.statements (.punct .rightBrace)) (· = .punct .rightBrace) inner ts body ∧
      Node.ofStatements .block body = a.reread

/-- An empty sequence is written as a pair of braces. -/
theorem source_of_isEmpty {a : Node} (h : a.isEmpty = true) :
    (interpolationSource a a.source).toList = ['\x7b', '\x7d'] := by
  unfold Node.isEmpty at h
  split at h
  · rfl
  · cases h

/-- The rest of a template, behind the characters `raw` of a piece that are read as `text`.  An
empty sequence leaves nothing, so the piece goes on behind it. -/
theorem exists_template {quasis : List String} {as : List Node}
    (hlen : quasis.length = as.length + 1) (hq : ∀ q ∈ quasis, IsQuasi q.toList)
    (ha : ∀ a ∈ as, a.isEmpty = true ∨ a.Interpolated) {raw text : List Char}
    (hraw : Scan.ReadsAs raw text) :
    ∃ ts found, TemplateWritten (raw ++ (templateSource quasis as).toList) ts found ∧
      templateParts found =
        templateParts (.text (String.ofList text) :: rereadParts quasis as) := by
  -- What has been read of the current piece is carried along as `raw`, with the text it stands for.
  induction as generalizing quasis raw text with
  | nil =>
    obtain ⟨q, rfl⟩ := List.length_eq_one_iff.mp hlen
    have hpiece := hraw.append (Scan.readsAs_escapeQuasi (hq q List.mem_cons_self))
    refine ⟨pieceTokens (text ++ q.toList), pieceParts (text ++ q.toList), ?_, ?_⟩
    · have hchars : (templateSource [q] []).toList = escapeQuasi q.toList := by
        simp [templateSource, toList_quasi]
      rw [hchars]
      exact .piece hpiece
    · have h := templateParts_pieceParts (text ++ q.toList) []
      rw [List.append_nil] at h
      simp [h, rereadParts, templateParts_text_text, String.ofList_append]
  | cons a as ih =>
    obtain _ | ⟨q, quasis⟩ := quasis
    · cases hlen
    have hlen' : quasis.length = as.length + 1 := Nat.succ.inj hlen
    have hpiece := hraw.append (Scan.readsAs_escapeQuasi (hq q List.mem_cons_self))
    rw [List.forall_mem_cons] at hq ha
    have hchars : (templateSource (q :: quasis) (a :: as)).toList = escapeQuasi q.toList ++
        ((interpolationSource a a.source).toList ++ (templateSource quasis as).toList) := by
      simp [templateSource, toList_quasi]
    rw [hchars, rereadParts]
    by_cases hempty : a.isEmpty = true
    · -- The empty braces are read as part of the piece, which goes on with the next one.
      obtain ⟨ts, found, hwritten, hparts⟩ :=
        ih hlen' hq.2 ha.2 (hpiece.append Scan.readsAs_braces)
      refine ⟨ts, found, ?_, ?_⟩
      · rw [source_of_isEmpty hempty]
        simpa using hwritten
      · rw [hparts, if_pos hempty, templateParts_text_text, List.append_nil, String.ofList_append,
          String.ofList_toList]
    · -- The interpolation ends the piece, and nothing of the next one has been read.
      obtain ⟨inner, ts, body, hsource, hbody, hread⟩ := ha.1.resolve_left hempty
      obtain ⟨ts', found, hwritten, hparts⟩ := ih hlen' hq.2 ha.2 .nil
      have hrest : raw ++ (escapeQuasi q.toList ++
          ((interpolationSource a a.source).toList ++ (templateSource quasis as).toList)) =
          raw ++ escapeQuasi q.toList ++
            '\x7b' :: (inner ++ '\x7d' :: ([] ++ (templateSource quasis as).toList)) := by
        rw [hsource]
        simp
      have htext : templateParts (.text (String.ofList []) :: rereadParts quasis as) =
          templateParts (rereadParts quasis as) :=
        templateParts_text_empty _
      rw [hrest]
      refine ⟨_, _, .interpolation hpiece hbody hwritten, ?_⟩
      rw [hread, templateParts_pieceParts, if_neg hempty, templateParts_text_text,
        String.ofList_append, String.ofList_toList]
      simp only [templateParts, hparts.trans htext]

/-- A template whose expressions can be interpolated is written as an operand. -/
theorem enclosed_template {quasis : List String} {as : List Node}
    (hlen : quasis.length = as.length + 1) (hq : ∀ q ∈ quasis, IsQuasi q.toList)
    (ha : ∀ a ∈ as, a.isEmpty = true ∨ a.Interpolated) :
    ∃ ts, Enclosed (Node.template quasis as).source.toList ts (Node.template quasis as).reread := by
  obtain ⟨ts, found, hwritten, hparts⟩ := exists_template hlen hq ha .nil
  have hreread : (Node.template quasis as).reread =
      .template (templateParts found).1 (templateParts found).2 := by
    rw [Node.reread, hparts, show String.ofList [] = "" from rfl, templateParts_text_empty]
  rw [Node.toList_source_template, hreread]
  refine ⟨.punct .backquote :: (ts ++ [Token.punct .backquote]),
    .of_primary ⟨'\x60', _, rfl, by decide⟩ ?_ (fun cs modes _ hm => ?_) fun us => ?_⟩
  · intro hfront
    cases hfront
  · have hopen : Lexes
        ⟨'\x60' :: ((templateSource quasis as).toList ++ '\x60' :: cs), modes, true⟩ _ _ :=
      lexes_punct .backquote hm
    rw [(Mode.after_of_inExpression hm).1] at hopen
    simpa using hopen.cons (hwritten.lexes cs modes false)
  · rw [List.cons_append, List.append_assoc]
    exact .template (hwritten.reads us)

/-! ## All nodes -/

theorem Fills.yields {source : String} {ts : List Token} (h : Fills source.toList ts) :
    (Lexer.ofString source).Yields ts := by
  have hlexes : ∃ operand,
      Lexes ⟨source.toList, [.expression], true⟩ ts ⟨[], [.expression], operand⟩ := by
    rcases h with ⟨hs, rfl⟩ | h
    · rw [hs]
      exact ⟨true, .refl _⟩
    · have hall := h [] [.expression] delimited_nil nofun
      rw [List.append_nil] at hall
      exact ⟨false, hall⟩
  obtain ⟨operand, hlexes⟩ := hlexes
  obtain ⟨m, hands, hm⟩ := hlexes (Lexer.ofString source) ⟨rfl, rfl, rfl, rfl⟩
  have hyields := hands.yields hm.yields
  rwa [List.append_nil] at hyields

/-- A text whose tokens are read as statements to the end is parsed. -/
theorem parse_of_fills {source : String} {ts : List Token} {body : List Node}
    (h : Fills source.toList ts) (hr : Reads (.statements .eof) ts body []) :
    parse source = .ok (Node.ofStatements .program body) :=
  parse_eq_ok_iff.mpr ⟨ts, h.yields, body, hr, rfl⟩

/-- What the text at a place of a tree is read back as. -/
def Place.Rereads : Place → Node → Prop
  | .expression, n => n.Readable
  | .branch, n => ∃ ts, Phrase .branch Token.Ends (branchSource n n.source).toList ts n.reread
  | .interpolation, n => n.isEmpty = true ∨ n.Interpolated
  | .root, n => parse n.source = .ok n.reread

/-- An expression of a regular tree is not a block. -/
theorem isBlock_of_regular {limits : Limits} {n : Node} (h : Regular limits .expression n) :
    n.isBlock = false := by
  cases h <;> first | rfl | contradiction

/-- Each of several readable nodes is an expression in front of a closing token. -/
theorem exists_phrases {as : List Node} (h : ∀ a ∈ as, a.Readable) :
    ∀ a ∈ as, ∃ ts, Phrase .expression (·.closes = true) a.source.toList ts a.reread :=
  fun a ha => (h a ha).exists_phrase

/-- Readable nodes with semicolons between them are a sequence of statements. -/
theorem exists_sequence {a : Node} {as : List Node} (h : ∀ b ∈ a :: as, b.Readable) {close : Token}
    (hclose : close.closes = true ∧ close ≠ .punct .semicolon) :
    ∃ ts, Phrase (.statements close) (· = close)
      (String.intercalate "; " (Node.sources (a :: as))).toList ts (Node.rereads (a :: as)) := by
  rw [Node.toList_intercalate_sources, Node.rereads_eq_map]
  exact exists_statements hclose a as (exists_phrases h)

/-- Statements are read up to a closing brace, or up to the end of the source. -/
theorem exists_fills {as : List Node} (h : ∀ a ∈ as, a.Readable) {close : Token}
    (hclose : close.closes = true ∧ close ≠ .punct .semicolon) :
    ∃ ts, Fills (String.intercalate "; " (Node.sources as)).toList ts ∧
      ∀ us, front us = close → Reads (.statements close) (ts ++ us) (Node.rereads as) us := by
  cases as with
  | nil =>
    refine ⟨[], Or.inl ⟨rfl, rfl⟩, fun us hus => .noStatements ?_ (Or.inl hus)⟩
    rw [List.nil_append, hus]
    exact hclose.2
  | cons a as =>
    obtain ⟨ts, hphrase⟩ := exists_sequence h hclose
    exact ⟨ts, Or.inr hphrase.spells, hphrase.reads⟩

/-- The answer for a sequence is the sequence, unless it is a single statement. -/
theorem ofStatements_rereads (wrap : List Node → Node) {as : List Node} (hlen : as.length ≠ 1) :
    Node.ofStatements wrap (Node.rereads as) = wrap (Node.rereads as) := by
  unfold Node.ofStatements
  split
  · next a ha =>
    have hl := congrArg List.length ha
    rw [Node.rereads_eq_map, List.length_map] at hl
    exact absurd hl hlen
  · rfl

namespace Node.Readable

variable {n a b : Node} {as : List Node}

/-- An infinite number is written as a word, which is a name. -/
theorem number {x : Float} (hx : Limits.parsed.number x) : (Node.number x).Readable := by
  refine Or.inl ?_
  rw [source, reread]
  cases hfinite : Number.isFinite x with
  | true => exact ⟨_, enclosed_number ⟨hfinite, hx.2⟩⟩
  | false =>
    rw [Number.text_of_not_isFinite hx hfinite]
    have hname : IsName "inf" :=
      ⟨⟨'i', ['n', 'f'], rfl, by decide, List.all_eq_true.mp rfl⟩, by decide⟩
    exact ⟨_, enclosed_identifier hname⟩

theorem unary (op : UnaryOp) (h : a.Readable) : (Node.unary op a).Readable := by
  obtain ⟨ts, h⟩ := h.exists_written
  refine Or.inr ⟨rfl, .operator op.sign :: ts, ?_⟩
  rw [source, reread]
  exact h.unary op

theorem binary (op : BinaryOp) (ha : a.Readable) (hb : b.Readable) :
    (Node.binary op a b).Readable := by
  obtain ⟨ts, ha⟩ := ha.exists_written
  obtain ⟨us, hb⟩ := hb.exists_written
  obtain ⟨k, hk⟩ := op.exists_precedence
  have hop := op.binary?_sign
  have hphrase := ha.operation hk (fun he => nomatch hop.symm.trans (congrArg _ he)) hb
  refine Or.inl ⟨.punct .leftParen ::
    (ts ++ Token.operator op.sign :: us ++ [Token.punct .rightParen]), ?_⟩
  rw [source, reread, toList_parenthesized]
  simpa [combine, hop, Operator.spelling_of_binary? hop] using hphrase.parenthesized

theorem assign (hi : a.isIdentifier = true) (ha : a.Readable) (hb : b.Readable) :
    (Node.assign a b).Readable := by
  obtain ⟨ts, ha⟩ := ha.exists_written
  obtain ⟨us, hb⟩ := hb.exists_written
  have hphrase := ha.operation (o := .assign) rfl (fun _ => isIdentifier_reread hi) hb
  refine Or.inl ⟨.punct .leftParen ::
    (ts ++ Token.operator .assign :: us ++ [Token.punct .rightParen]), ?_⟩
  rw [source, reread, toList_parenthesized]
  simpa [combine, Operator.binary?, Operator.spelling] using hphrase.parenthesized

theorem call (ha : a.Readable) (has : ∀ b ∈ as, b.Readable) : (Node.call a as).Readable := by
  obtain ⟨ts, ha⟩ := ha.exists_operand
  obtain ⟨us, hfills, hreads⟩ := exists_bracketed (fun _ => id)
    (show (Punct.leftParen, Punct.rightParen) ∈ Punct.brackets by decide) (exists_phrases has)
  have hcall := ha.followed (by decide) hfills fun vs b ws hb => .call (hreads vs) hb
  refine Or.inl ⟨ts ++ Token.punct .leftParen :: (us ++ [Token.punct .rightParen]), ?_⟩
  rw [toList_source_call, reread, rereads_eq_map]
  exact hcall

theorem member (ha : a.Readable) (hb : b.Readable) : (Node.member a b).Readable := by
  obtain ⟨ts, ha⟩ := ha.exists_operand
  obtain ⟨us, hb⟩ := hb.exists_phrase
  refine Or.inl ⟨ts ++ Token.punct .leftBracket :: (us ++ [Token.punct .rightBracket]), ?_⟩
  rw [source, reread]
  simpa using ha.member hb

theorem array (has : ∀ b ∈ as, b.Readable) : (Node.array as).Readable := by
  obtain ⟨us, hfills, hreads⟩ := exists_bracketed (fun _ => id)
    (show (Punct.leftBracket, Punct.rightBracket) ∈ Punct.brackets by decide) (exists_phrases has)
  have harray := Enclosed.of_bracketed (by decide) hfills fun vs => .array (hreads vs)
  refine Or.inl ⟨.punct .leftBracket :: (us ++ [Token.punct .rightBracket]), ?_⟩
  rw [toList_source_array, reread, rereads_eq_map]
  exact harray

theorem object {ps : List (Node × Node)} (hkey : ∀ p ∈ ps, p.1.isKey = true)
    (ha : ∀ p ∈ ps, p.1.Readable) (hb : ∀ p ∈ ps, p.2.Readable) : (Node.object ps).Readable := by
  have hps : ∀ p ∈ ps, ∃ ts, Phrase .property (·.closes = true)
      (p.1.source ++ ": " ++ p.2.source).toList ts (p.1.reread, p.2.reread) := by
    intro p hp
    obtain ⟨ts, ha⟩ := (ha p hp).exists_written
    obtain ⟨us, hb⟩ := (hb p hp).exists_written
    refine ⟨ts ++ Token.punct .colon :: us, ?_⟩
    simpa using ha.property (isKey_reread (hkey p hp)) hb.phrase hb.ne_nil
  obtain ⟨us, hfills, hreads⟩ := exists_bracketed (fun _ => id)
    (show (Punct.leftBrace, Punct.rightBrace) ∈ Punct.brackets by decide) hps
  have hobject := Enclosed.of_bracketed (by decide) hfills fun vs => .object (hreads vs)
  refine Or.inl ⟨.punct .leftBrace :: (us ++ [Token.punct .rightBrace]), ?_⟩
  rw [toList_source_object, reread, rereadPairs_eq_map]
  exact hobject

/-- A branch is written behind its word, and nothing is written of a missing one. -/
theorem exists_branchWritten (k : Keyword) {b : Option Node}
    (h : ∀ x, b = some x → Place.branch.Rereads x) :
    ∃ ts, BranchWritten k (branchOf (" " ++ k.word ++ " ") b).toList ts (rereadOption b) := by
  cases b with
  | none => exact ⟨[], .none⟩
  | some x =>
    obtain ⟨ts, hx⟩ := h x rfl
    refine ⟨.keyword k :: ts, ?_⟩
    simpa [branchOf, rereadOption] using BranchWritten.some (k := k) hx

/-- A conditional is readable if its condition and its branches are. -/
theorem conditional {b c : Option Node} (ha : a.Readable)
    (hb : ∀ x, b = some x → Place.branch.Rereads x)
    (hc : ∀ x, c = some x → Place.branch.Rereads x) : (Node.conditional a b c).Readable := by
  obtain ⟨ts, ha⟩ := ha.exists_written
  obtain ⟨us, hb⟩ := exists_branchWritten .then_ hb
  obtain ⟨vs, hc⟩ := exists_branchWritten .else_ hc
  have hphrase := ha.conditional hb hc
  refine Or.inl ⟨.punct .leftParen ::
    (Token.keyword .if_ :: (ts ++ us ++ vs) ++ [Token.punct .rightParen]), ?_⟩
  rw [source, reread, toList_parenthesized]
  simpa [Keyword.word] using hphrase.parenthesized

end Node.Readable

section Sequences

variable {as : List Node}

/-- A block is written as a branch. -/
theorem exists_blockBranch (h : ∀ a ∈ as, a.Readable) : Place.branch.Rereads (.block as) := by
  have hclose : (Token.punct .rightBrace).closes = true ∧
      Token.punct .rightBrace ≠ .punct .semicolon := ⟨rfl, nofun⟩
  obtain ⟨ts, hfills, hreads⟩ := exists_fills h hclose
  refine ⟨.punct .leftBrace :: (ts ++ [Token.punct .rightBrace]), ?_⟩
  have hchars : (branchSource (.block as) (Node.block as).source).toList =
      '\x7b' :: ((String.intercalate "; " (Node.sources as)).toList ++ ['\x7d']) := by
    rw [branchSource, if_neg (by simp [Node.isBlock]), Node.source, Node.toList_braced]
  rw [hchars, Node.reread]
  exact hfills.block fun us => hreads _ rfl

/-- A sequence of other than one statement is written as an interpolation. -/
theorem interpolated_block (hlen : as.length ≠ 1) (h : ∀ a ∈ as, a.Readable) :
    Place.interpolation.Rereads (.block as) := by
  cases as with
  | nil => exact Or.inl rfl
  | cons a as =>
    have hclose : (Token.punct .rightBrace).closes = true ∧
        Token.punct .rightBrace ≠ .punct .semicolon := ⟨rfl, nofun⟩
    obtain ⟨ts, hphrase⟩ := exists_sequence h hclose
    refine Or.inr ⟨_, ts, _, ?_, hphrase, ?_⟩
    · show (Node.block (a :: as)).source.toList = _
      rw [Node.source, Node.toList_braced]
    · rw [ofStatements_rereads _ hlen, Node.reread]

/-- The text of a program of other than one statement is parsed. -/
theorem parse_program (hlen : as.length ≠ 1) (h : ∀ a ∈ as, a.Readable) :
    Place.root.Rereads (.program as) := by
  have hclose : Token.eof.closes = true ∧ Token.eof ≠ .punct .semicolon := ⟨rfl, nofun⟩
  obtain ⟨ts, hfills, hreads⟩ := exists_fills h hclose
  have hr := hreads [] rfl
  rw [List.append_nil] at hr
  have hparse := parse_of_fills hfills hr
  rwa [ofStatements_rereads _ hlen] at hparse

end Sequences

/-- An expression is read back at every place. -/
theorem Node.Readable.rereads {a : Node} (h : a.Readable) (hblock : a.isBlock = false)
    (place : Place) : place.Rereads a := by
  cases place with
  | expression => exact h
  | branch => exact h.exists_branch hblock
  | interpolation =>
    obtain ⟨ts, hphrase⟩ := h.exists_phrase
    have hstatement : Phrase (.statements (.punct .rightBrace)) _ _ ts [a.reread] :=
      hphrase.statement rfl
    refine Or.inr ⟨a.source.toList, ts, [a.reread], ?_, hstatement, rfl⟩
    rw [interpolationSource, if_neg (by simp [hblock]), Node.toList_braced]
  | root =>
    obtain ⟨ts, hphrase⟩ := h.exists_phrase
    have hstatement : Phrase (.statements .eof) _ _ ts [a.reread] := hphrase.statement rfl
    have hr := hstatement.reads [] rfl
    rw [List.append_nil] at hr
    exact parse_of_fills (Or.inr hstatement.spells) hr

/-- The text at every place of a regular tree is read back. -/
theorem rereads_of_regular {place : Place} {n : Node} (h : Regular .parsed place n) :
    place.Rereads n := by
  -- One lemma for each rule of regular trees.
  induction h with
  | number hx => exact .number hx
  | string s => exact Or.inl ⟨_, enclosed_string s⟩
  | boolean b => exact Or.inl ⟨_, enclosed_boolean b⟩
  | null => exact Or.inl ⟨_, enclosed_null⟩
  | regexp hp hf => exact Or.inl ⟨_, enclosed_regexp hp hf⟩
  | identifier hname => exact Or.inl ⟨_, enclosed_identifier hname⟩
  | unary _ ih => exact .unary _ ih
  | binary _ _ iha ihb => exact .binary _ iha ihb
  | assign hi _ _ iha ihb => exact .assign hi iha ihb
  | call _ _ iha ihb => exact .call iha ihb
  | member _ _ iha ihb => exact .member iha ihb
  | object hk _ _ iha ihb => exact .object hk iha ihb
  | array _ ih => exact .array ih
  | template hlen hq _ ih => exact Or.inl (enclosed_template hlen hq ih)
  | conditional _ _ _ iha ihb ihc => exact .conditional iha ihb ihc
  | block _ ih => exact exists_blockBranch ih
  | sequence hlen _ ih => exact interpolated_block hlen ih
  | program hlen _ ih => exact parse_program hlen ih
  | @expression place a _ h ih => exact Node.Readable.rereads ih (isBlock_of_regular h) place

/-- The source text of a regular tree is parsed, and the answer is what the tree is read back as. -/
theorem parse_source {n : Node} (h : Regular .parsed .root n) : parse n.source = .ok n.reread :=
  rereads_of_regular h

end Brace
