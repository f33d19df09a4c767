/-
# The parser reads as the rules say

Main statements: a reading function gives a result only as the rules of `Reads` have it
(`took_expression`), and it gives whatever the rules have if no error lies ahead (`Reads.runs`).
Together they describe the parser on a whole source, `program_gives_iff`.
-/
import Brace.Proofs.Parser.Inversion
import Brace.Proofs.Parser.Reads

namespace Brace

open Brace.Parser Parsed

variable {n : Nat}

/-! ## From results to rules -/

/-- From the parser `s` to the parser `t` the construct `g` is read as the rules have it, and no
error is passed over. -/
def Goal.Took (g : Goal) (s : Parser) (a : g.Answer) (t : Parser) : Prop :=
  Reads g s.tokens a t.tokens ∧ (t.Clean → s.Clean)

/-- Every result of given reading functions is read as the rules have it. -/
structure Parser.Below.Sound (r : Below n) : Prop where
  expression : ∀ t h a u, (r.expression t h).Gives a u → Goal.Took .expression t a u
  operand : ∀ t h a u, (r.operand t h).Gives a u → Goal.Took .operand t a u

/-- The token that is passed stands in front of the others. -/
theorem Parser.Passes.tokens_of_current {s t : Parser} {c : Token} (h : s.Passes t)
    (hc : s.current = c) : s.tokens = c :: t.tokens :=
  hc ▸ h.tokens

/-- Items are read by the rules, if each item is. -/
theorem took_items {stop : Punct} {g : Goal} (hstop : stop ≠ .comma)
    {item : (t : Parser) → t.size < n → Parsed t.size g.Answer}
    (hitem : ∀ t h a u, (item t h).Gives a u → g.Took t a u) {s t : Parser} {h : s.size < n}
    {as : List g.Answer} (hg : (items stop item s h).Gives as t) :
    Goal.Took (.items stop g) s as t := by
  induction hk : s.size using Nat.strongRecOn generalizing s as t with
  | ind k ih =>
    obtain ⟨a, u, ha, hrest⟩ := gives_items.mp hg
    have hlt := ha.lt
    obtain ⟨hr, hclean⟩ := hitem s h a u ha
    obtain ⟨hc, rfl, rfl⟩ | ⟨hc, hcomma, v, hv, hp, hrest⟩ := hrest
    · exact ⟨.lastItem hr (by rwa [front_tokens]), hclean⟩
    · rw [hp.tokens_of_current hcomma] at hr
      obtain ⟨hs, rfl, rfl⟩ | ⟨hs, bs, rfl, hb⟩ := hrest
      · exact ⟨.trailingComma hstop hr (by rwa [front_tokens]), hclean ∘ hp.clean⟩
      · have hlv := hp.size_lt
        obtain ⟨hbs, hback⟩ := ih v.size (by omega) hb rfl
        exact ⟨.nextItem hstop hr (by rwa [front_tokens]) hbs, hclean ∘ hp.clean ∘ hback⟩

/-- Items between brackets are read by the rules. -/
theorem took_delimited {start stop : Punct} {g : Goal} (hstop : stop ≠ .comma) {s t : Parser}
    {item : (t : Parser) → t.size < s.size → Parsed t.size g.Answer}
    (hitem : ∀ t h a u, (item t h).Gives a u → g.Took t a u) {as : List g.Answer}
    (hg : (delimited start stop s item).Gives as t) :
    ∃ us, s.tokens = .punct start :: us ∧ Reads (.bracketed stop g) us as t.tokens ∧
      (t.Clean → s.Clean) := by
  obtain ⟨hs, u, hu, v, hbody, hc, hw⟩ := gives_delimited.mp hg
  refine ⟨u.tokens, hu.tokens_of_current hs, ?_⟩
  have hv := hw.tokens_of_current hc
  obtain ⟨he, rfl, rfl⟩ | ⟨hne, hitems⟩ := hbody
  · rw [hv]
    exact ⟨.noItems, hu.clean ∘ hw.clean⟩
  · obtain ⟨hr, hclean⟩ := took_items hstop hitem hitems
    rw [hv] at hr
    rw [not_or, ← front_tokens] at hne
    exact ⟨.someItems hne.1 hne.2 hr, hu.clean ∘ hclean ∘ hw.clean⟩

/-- Separators that are skipped may stand in front of any statements. -/
theorem took_skipSemicolons (stop : Token) {s t : Parser} (hg : (skipSemicolons s).Gives () t) :
    t.current ≠ .punct .semicolon ∧ (t.Clean → s.Clean) ∧
      ∀ as us, Reads (.statements stop) t.tokens as us →
        Reads (.statements stop) s.tokens as us := by
  induction hk : s.size using Nat.strongRecOn generalizing s with
  | ind k ih =>
    obtain ⟨hc, rfl⟩ | ⟨hc, u, hu, hg⟩ := gives_skipSemicolons.mp hg
    · exact ⟨hc, id, fun _ _ => id⟩
    · have hlt := hu.size_lt
      obtain ⟨ht, hclean, hr⟩ := ih u.size (by omega) hg rfl
      refine ⟨ht, hu.clean ∘ hclean, fun as us h => ?_⟩
      rw [hu.tokens_of_current hc]
      exact .skip (hr as us h)

/-- Statements are read by the rules, if each statement is. -/
theorem took_statements {stop : Token} (hstop : stop ≠ .punct .semicolon)
    {statement : (t : Parser) → t.size < n → Parsed t.size Node}
    (hstatement : ∀ t h a u, (statement t h).Gives a u → Goal.Took .expression t a u)
    {s t : Parser} {h : s.size < n} {as : List Node}
    (hg : (statements stop statement s h).Gives as t) :
    Goal.Took (.statements stop) s as t := by
  induction hk : s.size using Nat.strongRecOn generalizing s as t with
  | ind k ih =>
    obtain ⟨u, hu, hskip, hrest⟩ := gives_statements.mp hg
    obtain ⟨hsemi, hclean, hr⟩ := took_skipSemicolons stop hskip
    have hlu := hskip.lt
    suffices hmain : Goal.Took (.statements stop) u as t from
      ⟨hr _ _ hmain.1, hclean ∘ hmain.2⟩
    -- Behind the separators the sequence ends, or a statement stands there.
    obtain ⟨he, rfl, rfl⟩ | ⟨he, a, v, ha, hrest⟩ := hrest
    · exact ⟨.noStatements (by rwa [front_tokens]) (by rwa [front_tokens]), id⟩
    · obtain ⟨hra, hback⟩ := hstatement u hu a v ha
      have hne : front u.tokens ≠ stop := by
        rw [front_tokens]
        exact fun h => he (Or.inl h)
      -- The statement is the last one, or a separator stands behind it.
      obtain ⟨hs, rfl, rfl⟩ | ⟨hs, hsemi', w, hw, hp, bs, rfl, hb⟩ := hrest
      · exact ⟨.lastStatement hne hra (by rwa [front_tokens]), hback⟩
      · rw [hp.tokens_of_current hsemi'] at hra
        have hlw := hp.size_lt
        have hlv := ha.lt
        obtain ⟨hbs, hbk⟩ := ih w.size (by omega) hb rfl
        exact ⟨.nextStatement hne hstop hra hbs, hback ∘ hp.clean ∘ hbk⟩

/-- Entries are read by the rules. -/
theorem took_property {r : Below n} (hr : r.Sound) {s t : Parser} {h : s.size < n}
    {p : Node × Node} (hg : (property r s h).Gives p t) : Goal.Took .property s p t := by
  obtain ⟨key, u, hkey, hk, hc, v, hv, hp, a, rfl, ha⟩ := gives_property.mp hg
  obtain ⟨hrk, hck⟩ := hr.operand s h key u hkey
  obtain ⟨hra, hca⟩ := hr.expression v hv a t ha
  rw [hp.tokens_of_current hc] at hrk
  exact ⟨.property hrk hk hra, hck ∘ hp.clean ∘ hca⟩

/-- Branches are read by the rules. -/
theorem took_branch {r : Below n} (hr : r.Sound) {s t : Parser} {h : s.size < n} {a : Node}
    (hg : (branch r s h).Gives a t) : Goal.Took .branch s a t := by
  obtain ⟨hc, hb⟩ | ⟨hc, ha⟩ := gives_branch.mp hg
  · obtain ⟨-, u, hu, hp, body, v, hbody, hv, hq, rfl⟩ := gives_block.mp hb
    obtain ⟨hrb, hclean⟩ := took_statements (by simp) hr.expression hbody
    rw [hq.tokens_of_current hv] at hrb
    refine ⟨?_, hp.clean ∘ hclean ∘ hq.clean⟩
    rw [hp.tokens_of_current hc]
    exact .block hrb
  · obtain ⟨hra, hclean⟩ := hr.expression s h a t ha
    exact ⟨.bareBranch (by rwa [front_tokens]) hra, hclean⟩

/-- Branches behind their word are read by the rules, also where they are missing. -/
theorem took_branchAfter {k : Keyword} {r : Below n} (hr : r.Sound) {s t : Parser}
    {h : s.size < n} {b : Option Node} (hg : (branchAfter k r s h).Gives b t) :
    Goal.Took (.branchAfter k) s b t := by
  obtain ⟨hc, rfl, rfl⟩ | ⟨hc, u, hu, hp, a, rfl, ha⟩ := gives_branchAfter.mp hg
  · exact ⟨.noBranch (by rwa [front_tokens]), id⟩
  · obtain ⟨hra, hclean⟩ := took_branch hr ha
    refine ⟨?_, hp.clean ∘ hclean⟩
    rw [hp.tokens_of_current hc]
    exact .someBranch hra

/-- The parts of a template are read by the rules, up to its closing quote. -/
theorem took_parts {r : Below n} (hr : r.Sound) {s t : Parser} {h : s.size < n}
    {found : List TemplatePart} (hg : (parts r s h).Gives found t) :
    Goal.Took .parts s found t ∧ t.current = .punct .backquote := by
  induction hk : s.size using Nat.strongRecOn generalizing s found t with
  | ind k ih =>
    -- The closing quote, a piece of text, or an interpolation.
    obtain ⟨hc, rfl, rfl⟩ | ⟨text, rest, hc, rfl, u, hu, hp, hrest⟩ |
      ⟨hc, u, hu, hp, body, v, hb, hv, w, hw, hq, rest, rfl, hrest⟩ := gives_parts.mp hg
    · refine ⟨⟨?_, id⟩, hc⟩
      rw [tokens_eq_cons (by simp [hc]), hc]
      exact .partsEnd
    · have hlt := hp.size_lt
      obtain ⟨⟨hrr, hclean⟩, ht⟩ := ih u.size (by omega) hrest rfl
      refine ⟨⟨?_, hp.clean ∘ hclean⟩, ht⟩
      rw [hp.tokens_of_current hc]
      exact .text hrr
    · have hlu := hp.size_lt
      have hlv := hb.lt
      have hlw := hq.size_lt
      obtain ⟨hrb, hcb⟩ := took_statements (by simp) hr.expression hb
      rw [hq.tokens_of_current hv] at hrb
      obtain ⟨⟨hrr, hclean⟩, ht⟩ := ih w.size (by omega) hrest rfl
      refine ⟨⟨?_, hp.clean ∘ hcb ∘ hq.clean ∘ hclean⟩, ht⟩
      rw [hp.tokens_of_current hc]
      exact .interpolation hrb hrr

/-- Primaries are read by the rules. -/
theorem took_primary {s t : Parser} {r : Below s.size} (hr : r.Sound) {a : Node}
    (hg : (primary s r).Gives a t) : Goal.Took .primary s a t := by
  -- In parentheses, an object, an array, a template, a conditional, or a literal.
  obtain ⟨hc, hg'⟩ | ⟨hc, ps, hg', rfl⟩ | ⟨hc, as, hg', rfl⟩ | ⟨hc, hg'⟩ | ⟨hc, hs, hg'⟩ |
    ⟨ha, hp⟩ := gives_primary.mp hg
  · obtain ⟨-, u, hu, v, ha, hv, hq⟩ := gives_grouped.mp hg'
    obtain ⟨hra, hclean⟩ := hr.expression u hu.size_lt a v ha
    rw [hq.tokens_of_current hv] at hra
    refine ⟨?_, hu.clean ∘ hclean ∘ hq.clean⟩
    rw [hu.tokens_of_current hc]
    exact .grouped hra
  · obtain ⟨us, hs, hrp, hclean⟩ :=
      took_delimited (g := .property) (by simp) (fun _ _ _ _ => took_property hr) hg'
    refine ⟨?_, hclean⟩
    rw [hs]
    exact .object hrp
  · obtain ⟨us, hs, hra, hclean⟩ :=
      took_delimited (g := .expression) (by simp) hr.expression hg'
    refine ⟨?_, hclean⟩
    rw [hs]
    exact .array hra
  · obtain ⟨-, u, hu, found, v, hf, hv, hq, rfl⟩ := gives_template.mp hg'
    obtain ⟨⟨hrf, hclean⟩, -⟩ := took_parts hr hf
    rw [hq.tokens_of_current hv] at hrf
    refine ⟨?_, hu.clean ∘ hclean ∘ hq.clean⟩
    rw [hu.tokens_of_current hc]
    exact .template hrf
  · obtain ⟨u, hu, test, v, htest, hv, b, w, hb, hw, c, hcc, rfl⟩ := gives_conditional.mp hg'
    obtain ⟨hrt, hct⟩ := hr.expression u hu.size_lt test v htest
    obtain ⟨hrb, hcb⟩ := took_branchAfter hr hb
    obtain ⟨hrc, hcc⟩ := took_branchAfter hr hcc
    refine ⟨?_, hu.clean ∘ hct ∘ hcb ∘ hcc⟩
    rw [hu.tokens_of_current hc]
    exact .conditional hrt hrb hrc
  · refine ⟨?_, hp.clean⟩
    rw [hp.tokens]
    exact .literal ha

/-- Calls and indices are read by the rules. -/
theorem took_suffixes {r : Below n} (hr : r.Sound) {a b : Node} {s t : Parser} {h : s.size ≤ n}
    (hg : (suffixes r a s h).Gives b t) : Goal.Took (.suffixes a) s b t := by
  induction hk : s.size using Nat.strongRecOn generalizing s a t with
  | ind k ih =>
    -- No suffix, a call, or an index.
    obtain ⟨h1, h2, rfl, rfl⟩ | ⟨hc, as, u, hu, has, hrest⟩ |
      ⟨hc, v, hv, hp, c, w, hcc, he, u, hu, hq, hrest⟩ := gives_suffixes.mp hg
    · exact ⟨.suffixesEnd (by rwa [front_tokens]) (by rwa [front_tokens]), id⟩
    · obtain ⟨us, hs, hra, hclean⟩ := took_delimited (g := .expression) (by simp)
        (fun t ht => hr.expression t (Nat.lt_of_lt_of_le ht h)) has
      have hlt := has.lt
      obtain ⟨hrr, hback⟩ := ih u.size (by omega) hrest rfl
      refine ⟨?_, hclean ∘ hback⟩
      rw [hs]
      exact .call hra hrr
    · obtain ⟨hrc, hclean⟩ := hr.expression v hv c w hcc
      rw [hq.tokens_of_current he] at hrc
      have hlv := hp.size_lt
      have hlw := hcc.lt
      have hlu := hq.size_lt
      obtain ⟨hrr, hback⟩ := ih u.size (by omega) hrest rfl
      refine ⟨?_, hp.clean ∘ hclean ∘ hq.clean ∘ hback⟩
      rw [hp.tokens_of_current hc]
      exact .index hrc hrr

/-- Operands are read by the rules. -/
theorem took_operandWith {s t : Parser} {r : Below s.size} (hr : r.Sound) {a : Node}
    (hg : (operandWith s r).Gives a t) : Goal.Took .operand s a t := by
  obtain ⟨op, ho, u, hu, b, rfl, hb⟩ | ⟨-, b, u, hb, hu, ha⟩ := gives_operandWith.mp hg
  · obtain ⟨hrb, hclean⟩ := hr.operand u hu.size_lt b t hb
    refine ⟨?_, hu.clean ∘ hclean⟩
    rw [hu.tokens]
    cases hc : s.current with
    | operator o =>
      rw [hc] at ho
      exact .unary ho hrb
    | _ =>
      rw [hc] at ho
      cases ho
  · obtain ⟨hrb, hcb⟩ := took_primary hr hb
    obtain ⟨hra, hca⟩ := took_suffixes hr ha
    exact ⟨.plain hrb hra, hcb ∘ hca⟩

/-- Operators and their operands are read by the rules. -/
theorem took_operators {r : Below n} (hr : r.Sound) {threshold : Nat} {a d : Node} {s t : Parser}
    {h : s.size < n} (hg : (operators r threshold a s h).Gives d t) :
    Goal.Took (.operators threshold a) s d t := by
  induction hk : s.size using Nat.strongRecOn generalizing s threshold a d t with
  | ind k ih =>
    -- The loop stops, or it takes an operator, its operand and what this operand takes.
    obtain ⟨hend, rfl, rfl⟩ |
        ⟨o, j, hc, hj, hlt, hassign, u, hu, hp, b, v, hb, hv, c, w, hcc, hw, hd⟩ :=
      gives_operators.mp hg
    · exact ⟨.operatorsEnd (by rwa [front_tokens]), id⟩
    · have hlu := hp.size_lt
      have hlv := hb.lt
      have hlw := hcc.lt
      obtain ⟨hrb, hcb⟩ := hr.operand u hu b v hb
      obtain ⟨hrc, hcl⟩ := ih v.size (by omega) hcc rfl
      obtain ⟨hrd, hcd⟩ := ih w.size (by omega) hd rfl
      refine ⟨?_, hp.clean ∘ hcb ∘ hcl ∘ hcd⟩
      rw [hp.tokens_of_current hc]
      exact .fold hj hlt hassign hrb hrc hrd

/-- The reading functions of the grammar follow the rules. -/
theorem sound_full (n : Nat) : (full n).Sound := by
  induction n with
  | zero => exact ⟨fun t h => by omega, fun t h => by omega⟩
  | succ n ih =>
    have hs {s : Parser} (h : s.size < n + 1) : (full s.size).Sound :=
      ⟨fun t ht => ih.expression t (by omega), fun t ht => ih.operand t (by omega)⟩
    have hoperand (s : Parser) (h : s.size < n + 1) (a : Node) (t : Parser)
        (hg : (operand s).Gives a t) : Goal.Took .operand s a t :=
      took_operandWith (hs h) (gives_operand.mp hg)
    refine ⟨fun s h b t hg => ?_, hoperand⟩
    obtain ⟨a, u, ha, hu, hb⟩ := gives_expression.mp hg
    obtain ⟨hra, hca⟩ := hoperand s h a u ha
    obtain ⟨hrb, hcb⟩ := took_operators (hs h) hb
    exact ⟨.expression hra hrb, hca ∘ hcb⟩

/-! ## From rules to results -/

/-- The reading function of the construct `g` gives the result `a` in the parser `s` and leaves the
parser `t`, whatever bound it is called with. -/
def Goal.Runs : (g : Goal) → Parser → g.Answer → Parser → Prop
  | .expression, s, a, t => (Parser.expression s).Gives a t
  | .operand, s, a, t => (Parser.operand s).Gives a t
  | .primary, s, a, t => (Parser.primary s (full s.size)).Gives a t
  | .suffixes b, s, a, t => ∀ n h, (Parser.suffixes (full n) b s h).Gives a t
  | .operators k b, s, a, t => ∀ n h, (Parser.operators (full n) k b s h).Gives a t
  | .items stop g, s, as, t =>
    ∀ n (item : (t : Parser) → t.size < n → Parsed t.size g.Answer),
      (∀ t h a u, g.Runs t a u → (item t h).Gives a u) →
        ∀ h, (Parser.items stop item s h).Gives as t
  | .bracketed stop g, s, as, t =>
    ∀ (start : Punct) (p : Parser) (item : (t : Parser) → t.size < p.size → Parsed t.size g.Answer),
      p.current = .punct start → p.Passes s → (∀ t h a u, g.Runs t a u → (item t h).Gives a u) →
        (delimited start stop p item).Gives as t
  | .property, s, p, t => ∀ n h, (Parser.property (full n) s h).Gives p t
  | .statements stop, s, as, t =>
    ∀ n h, (Parser.statements (n := n) stop (fun t _ => Parser.expression t) s h).Gives as t
  | .parts, s, found, t => ∀ n h, (Parser.parts (full n) s h).Gives found t
  | .branch, s, a, t => ∀ n h, (Parser.branch (full n) s h).Gives a t
  | .branchAfter k, s, b, t => ∀ n h, (Parser.branchAfter k (full n) s h).Gives b t

/-- Wherever the tokens `ts` and no error lie ahead, the construct `g` is read from them, and the
tokens `us` and no error lie ahead behind it. -/
def Goal.Follows (g : Goal) (ts : List Token) (a : g.Answer) (us : List Token) : Prop :=
  ∀ ⦃s : Parser⦄, s.Clean → s.tokens = ts → ∃ t, t.Clean ∧ t.tokens = us ∧ g.Runs s a t

/-! ### Tokens around a construct -/

namespace Parser.Clean

variable {s : Parser} {c c' : Token} {ts us : List Token} {g : Goal} {a : g.Answer}

/-- Where nothing but tokens lies ahead, the first one is the current one and can be passed. -/
theorem pass (hs : s.Clean) (h : s.tokens = c :: ts) :
    s.current = c ∧ ∃ t, s.Passes t ∧ t.Clean ∧ t.tokens = ts := by
  have hc := current_ne_eof_of_tokens_eq_cons h
  obtain ⟨t, hp, ht⟩ := hs.passes hc
  have he := hp.tokens.symm.trans h
  simp only [List.cons.injEq] at he
  exact ⟨he.1, t, hp, ht, he.2⟩

/-- A construct behind a token. -/
theorem pass_then (hs : s.Clean) (h : s.tokens = c :: ts) (hg : g.Follows ts a us) :
    s.current = c ∧ ∃ u, s.Passes u ∧ ∃ t, t.Clean ∧ t.tokens = us ∧ g.Runs u a t := by
  obtain ⟨hc, u, hp, hu, htu⟩ := hs.pass h
  exact ⟨hc, u, hp, hg hu htu⟩

/-- A construct in front of a token. -/
theorem then_pass (hs : s.Clean) (h : s.tokens = ts) (hg : g.Follows ts a (c :: us)) :
    ∃ u, g.Runs s a u ∧ u.current = c ∧ ∃ t, u.Passes t ∧ t.Clean ∧ t.tokens = us := by
  obtain ⟨u, hu, htu, ha⟩ := hg hs h
  obtain ⟨hc, t, hp, ht, htt⟩ := hu.pass htu
  exact ⟨u, ha, hc, t, hp, ht, htt⟩

/-- A construct between two tokens. -/
theorem pass_around (hs : s.Clean) (h : s.tokens = c :: ts) (hg : g.Follows ts a (c' :: us)) :
    s.current = c ∧ ∃ u, s.Passes u ∧ ∃ v, g.Runs u a v ∧ v.current = c' ∧
      ∃ t, v.Passes t ∧ t.Clean ∧ t.tokens = us := by
  obtain ⟨hc, u, hp, hu, htu⟩ := hs.pass h
  exact ⟨hc, u, hp, hu.then_pass htu hg⟩

end Parser.Clean

/-! ### Constructs made of constructs

What the reading functions of the parts give is put together to what the function of the whole
gives; the bounds of the calls hold because every part leaves less ahead. -/

namespace Goal.Runs

variable {s t u v w : Parser}

/-- A conditional runs through its condition and its branches. -/
theorem conditional {a : Node} {b c : Option Node} (hs : s.current = .keyword .if_)
    (hp : s.Passes u) (ha : Goal.Runs .expression u a v)
    (hb : Goal.Runs (.branchAfter .then_) v b w) (hc : Goal.Runs (.branchAfter .else_) w c t) :
    Goal.Runs .primary s (.conditional a b c) t := by
  have hlu := hp.size_lt
  have hlv := Gives.lt ha
  have hlw := (hb s.size (by omega)).lt
  refine gives_primary.mpr (Or.inr (Or.inr (Or.inr (Or.inr (Or.inl ⟨hs, hp.1, ?_⟩)))))
  exact gives_conditional.mpr ⟨u, hp, a, v, ha, by omega, b, w, hb _ _, by omega, c, hc _ _, rfl⟩

/-- A call runs through its arguments and goes on behind them. -/
theorem call {a b : Node} {as : List Node} (hs : s.current = .punct .leftParen) (hp : s.Passes u)
    (has : Goal.Runs (.bracketed .rightParen .expression) u as v)
    (hb : Goal.Runs (.suffixes (.call a as)) v b t) : Goal.Runs (.suffixes a) s b t := by
  intro n h
  have hd := has .leftParen s (fun t ht => (full n).expression t (Nat.lt_of_lt_of_le ht h)) hs hp
    fun _ _ _ _ => id
  have hlt := hd.lt
  exact gives_suffixes.mpr (Or.inr (Or.inl ⟨hs, as, v, by omega, hd, hb _ _⟩))

/-- An index runs through its expression and goes on behind the bracket. -/
theorem index {a b c : Node} (hs : s.current = .punct .leftBracket) (hp : s.Passes u)
    (hb : Goal.Runs .expression u b v) (hv : v.current = .punct .rightBracket) (hq : v.Passes w)
    (hc : Goal.Runs (.suffixes (.member a b)) w c t) : Goal.Runs (.suffixes a) s c t := by
  intro n h
  have hlu := hp.size_lt
  have hlv := Gives.lt hb
  have hlw := hq.size_lt
  exact gives_suffixes.mpr (Or.inr (Or.inr
    ⟨hs, u, by omega, hp, b, v, hb, hv, w, by omega, hq, hc _ _⟩))

/-- An operator runs through its operand, what that takes, and the rest of the loop. -/
theorem fold {threshold k : Nat} {o : Operator} {a b c d : Node} (ho : o.precedence? = some k)
    (hk : threshold < k) (hassign : o = .assign → a.isIdentifier = true)
    (hs : s.current = .operator o) (hp : s.Passes u) (hb : Goal.Runs .operand u b v)
    (hc : Goal.Runs (.operators k b) v c w)
    (hd : Goal.Runs (.operators threshold (combine o a c)) w d t) :
    Goal.Runs (.operators threshold a) s d t := by
  intro n h
  have hlu := hp.size_lt
  have hlv := Gives.lt hb
  have hlw := (hc n (by omega)).lt
  exact gives_operators.mpr (Or.inr ⟨o, k, hs, ho, hk, hassign, u, by omega, hp, b, v, hb,
    by omega, c, w, hc _ _, by omega, hd _ _⟩)

/-- The last item may have a comma behind it. -/
theorem trailingComma {stop : Punct} {item : Goal} {a : item.Answer} (hstop : stop ≠ .comma)
    (ha : item.Runs s a u) (hu : u.current = .punct .comma) (hp : u.Passes t)
    (ht : t.current = .punct stop) : Goal.Runs (.items stop item) s [a] t := by
  intro n f hf h
  have hg := hf s h a u ha
  have hlu := hg.lt
  have hlt := hp.size_lt
  refine gives_items.mpr ⟨a, u, hg, Or.inr ⟨?_, hu, t, by omega, hp, Or.inl ⟨ht, rfl, rfl⟩⟩⟩
  rw [hu]
  simpa using hstop.symm

/-- An item runs, a comma is passed, and the other items run. -/
theorem nextItem {stop : Punct} {item : Goal} {a : item.Answer} {as : List item.Answer}
    (hstop : stop ≠ .comma) (ha : item.Runs s a u) (hu : u.current = .punct .comma)
    (hp : u.Passes v) (hv : v.current ≠ .punct stop) (has : Goal.Runs (.items stop item) v as t) :
    Goal.Runs (.items stop item) s (a :: as) t := by
  intro n f hf h
  have hg := hf s h a u ha
  have hlu := hg.lt
  have hlv := hp.size_lt
  refine gives_items.mpr ⟨a, u, hg, Or.inr ⟨?_, hu, v, by omega, hp, Or.inr
    ⟨hv, as, rfl, has n f hf _⟩⟩⟩
  rw [hu]
  simpa using hstop.symm

/-- An entry runs through its key, the colon and its value. -/
theorem property {key a : Node} (hkey : Goal.Runs .operand s key u) (hk : key.isKey = true)
    (hu : u.current = .punct .colon) (hp : u.Passes v) (ha : Goal.Runs .expression v a t) :
    Goal.Runs .property s (key, a) t := by
  intro n h
  have hlu := Gives.lt hkey
  have hlv := hp.size_lt
  exact gives_property.mpr ⟨key, u, hkey, hk, hu, v, by omega, hp, a, rfl, ha⟩

/-- A separator in front of statements is passed. -/
theorem skip {stop : Token} {as : List Node} (hs : s.current = .punct .semicolon)
    (hp : s.Passes u) (has : Goal.Runs (.statements stop) u as t) :
    Goal.Runs (.statements stop) s as t := by
  intro n h
  have hlu := hp.size_lt
  obtain ⟨v, hv, hskip, hrest⟩ := gives_statements.mp (has n (by omega))
  exact gives_statements.mpr
    ⟨v, hv, gives_skipSemicolons.mpr (Or.inr ⟨hs, u, hp, hskip⟩), hrest⟩

/-- A statement runs, the separator is passed, and the other statements run. -/
theorem nextStatement {stop : Token} {a : Node} {as : List Node}
    (hstop : stop ≠ .punct .semicolon) (hsemi : s.current ≠ .punct .semicolon)
    (hs : ¬ (s.current = stop ∨ s.current = .eof)) (ha : Goal.Runs .expression s a u)
    (hu : u.current = .punct .semicolon) (hp : u.Passes v)
    (has : Goal.Runs (.statements stop) v as t) : Goal.Runs (.statements stop) s (a :: as) t := by
  intro n h
  have hlu := Gives.lt ha
  have hlv := hp.size_lt
  refine gives_statements.mpr ⟨s, h, gives_skipSemicolons.mpr (Or.inl ⟨hsemi, rfl⟩), Or.inr
    ⟨hs, a, u, ha, Or.inr ⟨?_, hu, v, by omega, hp, as, rfl, has _ _⟩⟩⟩
  rw [hu]
  exact hstop.symm

/-- An interpolation runs between its braces, and the template goes on. -/
theorem interpolation {as : List Node} {found : List TemplatePart}
    (hs : s.current = .punct .leftBrace) (hp : s.Passes u)
    (has : Goal.Runs (.statements (.punct .rightBrace)) u as v)
    (hv : v.current = .punct .rightBrace) (hq : v.Passes w) (hf : Goal.Runs .parts w found t) :
    Goal.Runs .parts s (.expression (Node.ofStatements .block as) :: found) t := by
  intro n h
  have hlu := hp.size_lt
  have hlv := (has s.size hlu).lt
  have hlw := hq.size_lt
  exact gives_parts.mpr (Or.inr (Or.inr
    ⟨hs, u, by omega, hp, as, v, has _ _, hv, w, by omega, hq, found, rfl, hf _ _⟩))

/-- A block runs between its braces. -/
theorem block {as : List Node} (hs : s.current = .punct .leftBrace) (hp : s.Passes u)
    (has : Goal.Runs (.statements (.punct .rightBrace)) u as v)
    (hv : v.current = .punct .rightBrace) (hq : v.Passes t) :
    Goal.Runs .branch s (.block as) t := by
  intro n h
  have hlu := hp.size_lt
  exact gives_branch.mpr (Or.inl ⟨hs, gives_block.mpr
    ⟨hs, u, by omega, hp, as, v, has _ _, hv, hq, rfl⟩⟩)

end Goal.Runs

/-! ### All constructs -/

/-- What the rules have is what the parser does, as long as no error lies ahead. -/
theorem Reads.runs {g : Goal} {ts us : List Token} {a : g.Answer} (hr : Reads g ts a us) :
    g.Follows ts a us := by
  -- The parser that is left by one part is the one that the next part is read in.
  induction hr with
  -- Operands: what stands behind an operand is read with the operand as an argument.
  | expression _ _ iha ihb =>
    intro s hs hts
    obtain ⟨u, hu, htu, ha⟩ := iha hs hts
    obtain ⟨t, ht, htt, hb⟩ := ihb hu htu
    exact ⟨t, ht, htt, gives_expression.mpr ⟨_, u, ha, ha.lt, hb _ _⟩⟩
  | @unary _ _ o op _ ho _ ih =>
    intro s hs hts
    obtain ⟨hc, u, hp, t, ht, htt, ha⟩ := hs.pass_then hts ih
    refine ⟨t, ht, htt, gives_operand.mpr (gives_operandWith.mpr ?_)⟩
    refine Or.inl ⟨op, ?_, u, hp, _, rfl, ha⟩
    rw [hc]
    exact ho
  | plain hprimary _ iha ihb =>
    intro s hs hts
    obtain ⟨u, hu, htu, ha⟩ := iha hs hts
    obtain ⟨t, ht, htt, hb⟩ := ihb hu htu
    refine ⟨t, ht, htt, gives_operand.mpr (gives_operandWith.mpr ?_)⟩
    refine Or.inr ⟨?_, _, u, ha, ?_, hb _ _⟩
    · rw [← front_tokens, hts]
      exact hprimary.unary?_front
    · exact Nat.le_of_lt ha.lt
  -- Primaries.  The current token says which of the branches of the parser is taken.
  | literal ha =>
    intro s hs hts
    obtain ⟨rfl, t, hp, ht, htt⟩ := hs.pass hts
    refine ⟨t, ht, htt, gives_primary.mpr ?_⟩
    exact Or.inr (Or.inr (Or.inr (Or.inr (Or.inr ⟨ha, hp⟩))))
  | grouped _ ih =>
    intro s hs hts
    obtain ⟨hc, u, hp, v, ha, hv, t, hq, ht, htt⟩ := hs.pass_around hts ih
    refine ⟨t, ht, htt, gives_primary.mpr (Or.inl ⟨hc, ?_⟩)⟩
    exact gives_grouped.mpr ⟨hc, u, hp, v, ha, hv, hq⟩
  | object _ ih =>
    intro s hs hts
    obtain ⟨hc, u, hp, t, ht, htt, hb⟩ := hs.pass_then hts ih
    refine ⟨t, ht, htt, gives_primary.mpr (Or.inr (Or.inl ⟨hc, _, ?_, rfl⟩))⟩
    exact hb _ _ _ hc hp fun v hv b w hvw => hvw _ _
  | array _ ih =>
    intro s hs hts
    obtain ⟨hc, u, hp, t, ht, htt, hb⟩ := hs.pass_then hts ih
    refine ⟨t, ht, htt, gives_primary.mpr (Or.inr (Or.inr (Or.inl ⟨hc, _, ?_, rfl⟩)))⟩
    exact hb _ _ _ hc hp fun v hv b w hvw => hvw
  | template _ ih =>
    intro s hs hts
    obtain ⟨hc, u, hp, v, hf, hv, t, hq, ht, htt⟩ := hs.pass_around hts ih
    refine ⟨t, ht, htt, gives_primary.mpr (Or.inr (Or.inr (Or.inr (Or.inl ⟨hc, ?_⟩))))⟩
    exact gives_template.mpr ⟨hc, u, hp, _, v, hf _ _, hv, hq, rfl⟩
  | conditional _ _ _ iha ihb ihc =>
    intro s hs hts
    obtain ⟨hcs, u, hp, v, hv, htv, ha⟩ := hs.pass_then hts iha
    obtain ⟨w, hw, htw, hb⟩ := ihb hv htv
    obtain ⟨t, ht, htt, hc⟩ := ihc hw htw
    exact ⟨t, ht, htt, .conditional hcs hp ha hb hc⟩
  -- Suffixes: where there is none, the parser stands still.
  | suffixesEnd h1 h2 =>
    rintro s hs rfl
    rw [front_tokens] at h1 h2
    exact ⟨s, hs, rfl, fun n h => gives_suffixes.mpr (Or.inl ⟨h1, h2, rfl, rfl⟩)⟩
  | call _ _ iha ihb =>
    intro s hs hts
    obtain ⟨hc, u, hp, v, hv, htv, ha⟩ := hs.pass_then hts iha
    obtain ⟨t, ht, htt, hb⟩ := ihb hv htv
    exact ⟨t, ht, htt, .call hc hp ha hb⟩
  | index _ _ iha ihb =>
    intro s hs hts
    obtain ⟨hc, u, hp, v, ha, hv, w, hq, hw, htw⟩ := hs.pass_around hts iha
    obtain ⟨t, ht, htt, hb⟩ := ihb hw htw
    exact ⟨t, ht, htt, .index hc hp ha hv hq hb⟩
  -- Operators: the rule and the loop compare with the same threshold.
  | operatorsEnd hend =>
    rintro s hs rfl
    rw [front_tokens] at hend
    exact ⟨s, hs, rfl, fun n h => gives_operators.mpr (Or.inl ⟨hend, rfl, rfl⟩)⟩
  | fold hk hlt hassign _ _ _ ihb ihc ihd =>
    intro s hs hts
    obtain ⟨hcs, u, hp, v, hv, htv, hb⟩ := hs.pass_then hts ihb
    obtain ⟨w, hw, htw, hc⟩ := ihc hv htv
    obtain ⟨t, ht, htt, hd⟩ := ihd hw htw
    exact ⟨t, ht, htt, .fold hk hlt hassign hcs hp hb hc hd⟩
  -- Items.  The rules speak of a construct `item`, the parser has a function for it, so the
  -- function is quantified over here.
  | lastItem _ hend ih =>
    intro s hs hts
    obtain ⟨t, ht, rfl, ha⟩ := ih hs hts
    rw [front_tokens] at hend
    exact ⟨t, ht, rfl, fun n item hitem h => gives_items.mpr
      ⟨_, t, hitem s h _ t ha, Or.inl ⟨hend, rfl, rfl⟩⟩⟩
  | trailingComma hstop _ hend ih =>
    intro s hs hts
    obtain ⟨u, ha, hc, t, hp, ht, rfl⟩ := hs.then_pass hts ih
    rw [front_tokens] at hend
    exact ⟨t, ht, rfl, .trailingComma hstop ha hc hp hend⟩
  | nextItem hstop _ hend _ iha ihb =>
    intro s hs hts
    obtain ⟨u, ha, hc, v, hp, hv, rfl⟩ := hs.then_pass hts iha
    obtain ⟨t, ht, htt, hb⟩ := ihb hv rfl
    rw [front_tokens] at hend
    exact ⟨t, ht, htt, .nextItem hstop ha hc hp hend hb⟩
  -- The closing bracket is passed by the function for the brackets, not by that for the items.
  | noItems =>
    intro s hs hts
    obtain ⟨hc, t, hp, ht, htt⟩ := hs.pass hts
    refine ⟨t, ht, htt, fun start p item hcp hps hitem => gives_delimited.mpr ?_⟩
    exact ⟨hcp, s, hps, s, Or.inl ⟨Or.inl hc, rfl, rfl⟩, hc, hp⟩
  | someItems hne heof _ ih =>
    rintro s hs rfl
    obtain ⟨u, ha, hc, t, hp, ht, htt⟩ := hs.then_pass rfl ih
    rw [front_tokens] at hne heof
    refine ⟨t, ht, htt, fun start p item hcp hps hitem => gives_delimited.mpr ?_⟩
    exact ⟨hcp, s, hps, u, Or.inr ⟨not_or.mpr ⟨hne, heof⟩, ha _ item hitem _⟩, hc, hp⟩
  | property _ hkey _ iha ihb =>
    intro s hs hts
    obtain ⟨u, ha, hc, v, hp, hv, htv⟩ := hs.then_pass hts iha
    obtain ⟨t, ht, htt, hb⟩ := ihb hv htv
    exact ⟨t, ht, htt, .property ha hkey hc hp hb⟩
  -- Statements.  Separators are skipped in front of each of them, which for a statement are none.
  | skip _ ih =>
    intro s hs hts
    obtain ⟨hc, u, hp, t, ht, htt, ha⟩ := hs.pass_then hts ih
    exact ⟨t, ht, htt, .skip hc hp ha⟩
  | noStatements hsemi hend =>
    rintro s hs rfl
    rw [front_tokens] at hsemi hend
    exact ⟨s, hs, rfl, fun n h => gives_statements.mpr
      ⟨s, h, gives_skipSemicolons.mpr (Or.inl ⟨hsemi, rfl⟩), Or.inl ⟨hend, rfl, rfl⟩⟩⟩
  | lastStatement hne hra hend ih =>
    rintro s hs rfl
    obtain ⟨t, ht, rfl, ha⟩ := ih hs rfl
    -- An expression begins with neither a separator nor the end, so nothing is skipped.
    obtain ⟨hsemi, heof⟩ := hra.front_ne_of_expression
    rw [front_tokens] at hne hend hsemi heof
    exact ⟨t, ht, rfl, fun n h => gives_statements.mpr
      ⟨s, h, gives_skipSemicolons.mpr (Or.inl ⟨hsemi, rfl⟩), Or.inr
        ⟨not_or.mpr ⟨hne, heof⟩, _, t, ha, Or.inl ⟨hend, rfl, rfl⟩⟩⟩⟩
  | nextStatement hne hstop hra _ iha ihb =>
    rintro s hs rfl
    obtain ⟨u, ha, hc, v, hp, hv, htv⟩ := hs.then_pass rfl iha
    obtain ⟨t, ht, htt, hb⟩ := ihb hv htv
    obtain ⟨hsemi, heof⟩ := hra.front_ne_of_expression
    rw [front_tokens] at hne hsemi heof
    exact ⟨t, ht, htt, .nextStatement hstop hsemi (not_or.mpr ⟨hne, heof⟩) ha hc hp hb⟩
  -- Parts of a template, up to the closing quote, which is left for the template.
  | partsEnd =>
    intro s hs hts
    have hc := (hs.pass hts).1
    exact ⟨s, hs, hts, fun n h => gives_parts.mpr (Or.inl ⟨hc, rfl, rfl⟩)⟩
  | text _ ih =>
    intro s hs hts
    obtain ⟨hc, u, hp, t, ht, htt, ha⟩ := hs.pass_then hts ih
    have hlu := hp.size_lt
    exact ⟨t, ht, htt, fun n h => gives_parts.mpr (Or.inr (Or.inl
      ⟨_, _, hc, rfl, u, by omega, hp, ha _ _⟩))⟩
  | interpolation _ _ iha ihb =>
    intro s hs hts
    obtain ⟨hc, u, hp, v, ha, hv, w, hq, hw, htw⟩ := hs.pass_around hts iha
    obtain ⟨t, ht, htt, hb⟩ := ihb hw htw
    exact ⟨t, ht, htt, .interpolation hc hp ha hv hq hb⟩
  -- Branches: a brace begins a block, and the word of the branch decides whether there is one.
  | block _ ih =>
    intro s hs hts
    obtain ⟨hc, u, hp, v, ha, hv, t, hq, ht, htt⟩ := hs.pass_around hts ih
    exact ⟨t, ht, htt, .block hc hp ha hv hq⟩
  | bareBranch hne _ ih =>
    rintro s hs rfl
    obtain ⟨t, ht, htt, ha⟩ := ih hs rfl
    rw [front_tokens] at hne
    exact ⟨t, ht, htt, fun n h => gives_branch.mpr (Or.inr ⟨hne, ha⟩)⟩
  | someBranch _ ih =>
    intro s hs hts
    obtain ⟨hc, u, hp, t, ht, htt, ha⟩ := hs.pass_then hts ih
    have hlu := hp.size_lt
    exact ⟨t, ht, htt, fun n h => gives_branchAfter.mpr (Or.inr
      ⟨hc, u, by omega, hp, _, rfl, ha _ _⟩)⟩
  | noBranch hne =>
    rintro s hs rfl
    rw [front_tokens] at hne
    exact ⟨s, hs, rfl, fun n h => gives_branchAfter.mpr (Or.inl ⟨hne, rfl, rfl⟩)⟩

/-! ## A whole source -/

/-- All that is left is read as a program exactly if no error lies ahead and the rules read all of
its tokens. -/
theorem gives_program_iff {s : Parser} {a : Node} :
    (∃ t, (program s).Gives a t) ↔ s.Clean ∧ ReadsProgram s.tokens a := by
  constructor
  · rintro ⟨t, h⟩
    obtain ⟨body, hb, ha⟩ := gives_program.mp h
    obtain ⟨hr, hclean⟩ := took_statements (by simp) (sound_full _).expression hb
    have hend : t.current = .eof := by
      have hstop := hr.stops
      rwa [Goal.Stops, or_self, front_tokens] at hstop
    have htokens : t.tokens = [] := by simp [Parser.tokens, hend]
    rw [htokens] at hr
    exact ⟨hclean (Or.inl hend), body, hr, ha⟩
  · rintro ⟨hs, body, hr, ha⟩
    obtain ⟨t, -, -, hb⟩ := hr.runs hs rfl
    exact ⟨t, gives_program.mpr ⟨body, hb _ _, ha⟩⟩

end Brace
