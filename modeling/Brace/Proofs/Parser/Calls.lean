/-
# What the parser does on its way

`Calls g ts x us` says that a parser that reads the construct `g` from the tokens `ts` comes to the
tokens `us` and does `x` there: it begins a part of `g`, or it passes punctuation that it expects.
There is one rule for each place in the grammar where this happens, and `Reaches` follows the calls
down to any depth.  Whether what is begun can be completed is left open.  Main statement: wherever
parsing a text fails, the fault is found at a site that is reached
(`exists_reaches_of_parse_eq_error`).
-/
import Brace.Proofs.Parser.Faults

namespace Brace

open Brace.Parser Parsed

/-! ## Sites -/

/-- What a parser is about to do. -/
inductive Site where
  /-- To read a construct. -/
  | read (g : Goal)
  /-- To pass punctuation that it expects. -/
  | pass (p : Punct)

/-- A parser that reads a construct from some tokens comes to other tokens, and begins a part of the
construct there or expects punctuation there.  Opening brackets are not listed: they are only
expected where they have been seen. -/
inductive Calls : Goal → List Token → Site → List Token → Prop where
  /-- The first operand of an expression. -/
  | leftOperand {ts : List Token} : Calls .expression ts (.read .operand) ts
  /-- The operators behind it. -/
  | operators {ts us : List Token} {a : Node} :
      Reads .operand ts a us → Calls .expression ts (.read (.operators 0 a)) us
  /-- The operand behind a prefix operator. -/
  | unary {ts : List Token} {o : Operator} {op : UnaryOp} :
      o.unary? = some op → Calls .operand (.operator o :: ts) (.read .operand) ts
  /-- An operand without prefix operators. -/
  | primary {ts : List Token} :
      Parser.unary? (front ts) = none → Calls .operand ts (.read .primary) ts
  /-- The calls and indices behind it. -/
  | suffixes {ts us : List Token} {a : Node} :
      Reads .primary ts a us → Calls .operand ts (.read (.suffixes a)) us
  /-- The expression in parentheses. -/
  | grouped {ts : List Token} : Calls .primary (.punct .leftParen :: ts) (.read .expression) ts
  /-- The closing parenthesis. -/
  | groupedEnd {ts us : List Token} {a : Node} :
      Reads .expression ts a us → Calls .primary (.punct .leftParen :: ts) (.pass .rightParen) us
  /-- The entries of an object. -/
  | object {ts : List Token} :
      Calls .primary (.punct .leftBrace :: ts) (.read (.bracketed .rightBrace .property)) ts
  /-- The elements of a list. -/
  | array {ts : List Token} :
      Calls .primary (.punct .leftBracket :: ts) (.read (.bracketed .rightBracket .expression)) ts
  /-- The parts of a template. -/
  | template {ts : List Token} : Calls .primary (.punct .backquote :: ts) (.read .parts) ts
  /-- The closing back-quote. -/
  | templateEnd {ts us : List Token} {found : List TemplatePart} :
      Reads .parts ts found us → Calls .primary (.punct .backquote :: ts) (.pass .backquote) us
  /-- The test of a conditional. -/
  | test {ts : List Token} : Calls .primary (.keyword .if_ :: ts) (.read .expression) ts
  /-- Its first branch. -/
  | consequent {ts us : List Token} {a : Node} :
      Reads .expression ts a us →
        Calls .primary (.keyword .if_ :: ts) (.read (.branchAfter .then_)) us
  /-- Its second branch. -/
  | alternate {ts us vs : List Token} {a : Node} {b : Option Node} :
      Reads .expression ts a us → Reads (.branchAfter .then_) us b vs →
        Calls .primary (.keyword .if_ :: ts) (.read (.branchAfter .else_)) vs
  /-- The arguments of a call. -/
  | arguments {ts : List Token} {a : Node} :
      Calls (.suffixes a) (.punct .leftParen :: ts) (.read (.bracketed .rightParen .expression)) ts
  /-- What stands behind a call. -/
  | called {ts us : List Token} {a : Node} {as : List Node} :
      Reads (.bracketed .rightParen .expression) ts as us →
        Calls (.suffixes a) (.punct .leftParen :: ts) (.read (.suffixes (.call a as))) us
  /-- An index. -/
  | index {ts : List Token} {a : Node} :
      Calls (.suffixes a) (.punct .leftBracket :: ts) (.read .expression) ts
  /-- The bracket behind an index. -/
  | indexEnd {ts us : List Token} {a b : Node} :
      Reads .expression ts b us →
        Calls (.suffixes a) (.punct .leftBracket :: ts) (.pass .rightBracket) us
  /-- What stands behind an index. -/
  | indexed {ts us : List Token} {a b : Node} :
      Reads .expression ts b (.punct .rightBracket :: us) →
        Calls (.suffixes a) (.punct .leftBracket :: ts) (.read (.suffixes (.member a b))) us
  /-- The operand on the right of an operator. -/
  | rightOperand {ts : List Token} {threshold k : Nat} {o : Operator} {a : Node} :
      o.precedence? = some k → threshold < k →
        Calls (.operators threshold a) (.operator o :: ts) (.read .operand) ts
  /-- The operators that bind more strongly. -/
  | stronger {ts us : List Token} {threshold k : Nat} {o : Operator} {a b : Node} :
      o.precedence? = some k → threshold < k → Reads .operand ts b us →
        Calls (.operators threshold a) (.operator o :: ts) (.read (.operators k b)) us
  /-- The operators that come later. -/
  | later {ts us vs : List Token} {threshold k : Nat} {o : Operator} {a b c : Node} :
      o.precedence? = some k → threshold < k → Reads .operand ts b us →
        Reads (.operators k b) us c vs →
          Calls (.operators threshold a) (.operator o :: ts)
            (.read (.operators threshold (combine o a c))) vs
  /-- An item. -/
  | item {ts : List Token} {stop : Punct} {item : Goal} :
      Calls (.items stop item) ts (.read item) ts
  /-- The comma behind an item. -/
  | comma {ts us : List Token} {stop : Punct} {item : Goal} {a : item.Answer} :
      Reads item ts a us → Calls (.items stop item) ts (.pass .comma) us
  /-- The items behind a comma. -/
  | items {ts us : List Token} {stop : Punct} {item : Goal} {a : item.Answer} :
      Reads item ts a (.punct .comma :: us) →
        Calls (.items stop item) ts (.read (.items stop item)) us
  /-- The closing bracket where there are no items. -/
  | noItems {ts : List Token} {stop : Punct} {item : Goal} :
      front ts = .punct stop ∨ front ts = .eof → Calls (.bracketed stop item) ts (.pass stop) ts
  /-- The items in brackets. -/
  | someItems {ts : List Token} {stop : Punct} {item : Goal} :
      Calls (.bracketed stop item) ts (.read (.items stop item)) ts
  /-- The closing bracket behind items. -/
  | itemsEnd {ts us : List Token} {stop : Punct} {item : Goal} {as : List item.Answer} :
      Reads (.items stop item) ts as us → Calls (.bracketed stop item) ts (.pass stop) us
  /-- The key of an entry. -/
  | key {ts : List Token} : Calls .property ts (.read .operand) ts
  /-- The colon behind a key. -/
  | colon {ts us : List Token} {a : Node} :
      Reads .operand ts a us → Calls .property ts (.pass .colon) us
  /-- The value of an entry. -/
  | value {ts us : List Token} {a : Node} :
      Reads .operand ts a (.punct .colon :: us) → Calls .property ts (.read .expression) us
  /-- The statements behind a semicolon that ends no statement. -/
  | skip {ts : List Token} {stop : Token} :
      Calls (.statements stop) (.punct .semicolon :: ts) (.read (.statements stop)) ts
  /-- A statement. -/
  | statement {ts : List Token} {stop : Token} : Calls (.statements stop) ts (.read .expression) ts
  /-- The semicolon behind a statement. -/
  | semicolon {ts us : List Token} {stop : Token} {a : Node} :
      Reads .expression ts a us → Calls (.statements stop) ts (.pass .semicolon) us
  /-- The statements behind a statement. -/
  | statements {ts us : List Token} {stop : Token} {a : Node} :
      Reads .expression ts a (.punct .semicolon :: us) →
        Calls (.statements stop) ts (.read (.statements stop)) us
  /-- The parts of a template behind a piece of text. -/
  | text {ts : List Token} {s : String} : Calls .parts (.string s :: ts) (.read .parts) ts
  /-- The statements of an interpolation. -/
  | interpolation {ts : List Token} :
      Calls .parts (.punct .leftBrace :: ts) (.read (.statements (.punct .rightBrace))) ts
  /-- The closing brace of an interpolation. -/
  | interpolationEnd {ts us : List Token} {as : List Node} :
      Reads (.statements (.punct .rightBrace)) ts as us →
        Calls .parts (.punct .leftBrace :: ts) (.pass .rightBrace) us
  /-- The parts of a template behind an interpolation. -/
  | interpolated {ts us : List Token} {as : List Node} :
      Reads (.statements (.punct .rightBrace)) ts as (.punct .rightBrace :: us) →
        Calls .parts (.punct .leftBrace :: ts) (.read .parts) us
  /-- The statements of a branch in braces. -/
  | block {ts : List Token} :
      Calls .branch (.punct .leftBrace :: ts) (.read (.statements (.punct .rightBrace))) ts
  /-- The closing brace of a branch. -/
  | blockEnd {ts us : List Token} {as : List Node} :
      Reads (.statements (.punct .rightBrace)) ts as us →
        Calls .branch (.punct .leftBrace :: ts) (.pass .rightBrace) us
  /-- A branch without braces. -/
  | bareBranch {ts : List Token} : Calls .branch ts (.read .expression) ts
  /-- The branch behind its word. -/
  | branch {ts : List Token} {k : Keyword} :
      Calls (.branchAfter k) (.keyword k :: ts) (.read .branch) ts

/-- A parser that reads a construct from some tokens does something in front of other tokens, in the
construct or in a part of it. -/
inductive Reaches : Goal → List Token → Site → List Token → Prop where
  /-- The construct itself. -/
  | here {g : Goal} {ts : List Token} : Reaches g ts (.read g) ts
  /-- Punctuation that is expected in the construct itself. -/
  | pass {g : Goal} {ts us : List Token} {p : Punct} :
      Calls g ts (.pass p) us → Reaches g ts (.pass p) us
  /-- Something in a part of the construct. -/
  | part {g h : Goal} {ts us vs : List Token} {x : Site} :
      Calls g ts (.read h) us → Reaches h us x vs → Reaches g ts x vs

/-! ## Faults at sites -/

/-- The token at a site is wrong: no operand or part of a template begins with it, or it is not the
expected one. -/
def Site.Breaks : Site → List Token → SyntaxFault → Prop
  | .read .primary, us, f | .read .parts, us, f => f = .unexpected (front us)
  | .read .property, _, f => ∃ key, f = .badKey key
  | .read (.operators _ a), _, f => f = .badTarget a
  | .pass p, us, f => front us ≠ .punct p ∧ f = .expected p (front us)
  | _, _, _ => False

/-- A fault is found at a site that is reached. -/
def Strays (g : Goal) (ts : List Token) (f : SyntaxFault) : Prop :=
  ∃ x us, Reaches g ts x us ∧ x.Breaks us f

/-- A construct goes astray where it cannot begin. -/
theorem Strays.here {g : Goal} {ts : List Token} {f : SyntaxFault} (h : (Site.read g).Breaks ts f) :
    Strays g ts f :=
  ⟨.read g, ts, .here, h⟩

/-- A construct goes astray where a part of it does. -/
theorem Strays.part {g h : Goal} {ts us : List Token} {f : SyntaxFault}
    (hf : Strays h us f) (hc : Calls g ts (.read h) us) : Strays g ts f := by
  obtain ⟨x, vs, hr, hb⟩ := hf
  exact ⟨x, vs, .part hc hr, hb⟩

/-- Other punctuation stands where a call expects some. -/
theorem Strays.pass {g : Goal} {ts : List Token} {p : Punct} {s : Parser} {f : SyntaxFault}
    (hf : s.current ≠ .punct p ∧ f = .expected p s.current) (hc : Calls g ts (.pass p) s.tokens) :
    Strays g ts f := by
  rw [← front_tokens] at hf
  exact ⟨.pass p, s.tokens, .pass hc, hf⟩

/-! ## Every fault is found -/

variable {n : Nat} {f : SyntaxFault}

/-- Every fault of given reading functions is found at a site that is reached. -/
structure Parser.Below.Strays (r : Below n) : Prop extends r.Sound where
  expression_strays : ∀ t h f, (r.expression t h).Faults f → Brace.Strays .expression t.tokens f
  operand_strays : ∀ t h f, (r.operand t h).Faults f → Brace.Strays .operand t.tokens f

/-- A fault among items is found in one of them or behind one. -/
theorem strays_items {stop : Punct} {g : Goal}
    {item : (t : Parser) → t.size < n → Parsed t.size g.Answer}
    (hitem : ∀ t h a u, (item t h).Gives a u → g.Took t a u)
    (hstrays : ∀ t h f, (item t h).Faults f → Strays g t.tokens f) {s : Parser} {h : s.size < n}
    (hf : (items stop item s h).Faults f) : Strays (.items stop g) s.tokens f := by
  induction hk : s.size using Nat.strongRecOn generalizing s with
  | ind k ih =>
    rw [Parser.items] at hf
    rcases faults_andThen.mp hf with hf | ⟨a, u, hu, ha, hf⟩
    · exact (hstrays s h f hf).part .item
    · obtain ⟨hr, -⟩ := hitem s h a u ha
      split at hf
      · exact absurd hf not_faults_done
      · rcases expect_andThen_faults.mp hf with hf | ⟨hc, v, hv, hf⟩
        · exact .pass hf (.comma hr)
        · split at hf
          · exact absurd hf not_faults_done
          · have hlv := hv.size_lt
            rw [hv.tokens_of_current hc] at hr
            rw [faults_andThen_of_not_faults fun _ _ _ => not_faults_done] at hf
            exact (ih v.size (by omega) hf rfl).part (.items hr)

/-- A fault between brackets is found among the items or at the closing bracket. -/
theorem strays_delimited {start stop : Punct} {g : Goal} (hstop : stop ≠ .comma) {s : Parser}
    {item : (t : Parser) → t.size < s.size → Parsed t.size g.Answer}
    (hitem : ∀ t h a u, (item t h).Gives a u → g.Took t a u)
    (hstrays : ∀ t h f, (item t h).Faults f → Strays g t.tokens f) (hs : s.current = .punct start)
    (hf : (delimited start stop s item).Faults f) :
    ∃ us, s.tokens = .punct start :: us ∧ Strays (.bracketed stop g) us f := by
  rw [delimited] at hf
  obtain ⟨u, hu, hf⟩ := (expect_andThen_faults_of_current hs).mp hf
  refine ⟨u.tokens, hu.tokens_of_current hs, ?_⟩
  rcases faults_andThen.mp hf with hf | ⟨as, v, hv, hg, hf⟩
  · split at hf
    · exact absurd hf not_faults_done
    · exact (strays_items hitem hstrays (faults_weaken.mp hf)).part .someItems
  · have hcall : Calls (.bracketed stop g) u.tokens (.pass stop) v.tokens := by
      split at hg
      · next hend =>
        obtain ⟨-, rfl⟩ := (gives_done _).mp hg
        rw [← front_tokens] at hend
        exact .noItems hend
      · exact .itemsEnd (took_items hstop hitem (gives_weaken.mp hg)).1
    exact .pass ((expect_andThen_faults_of_not_faults fun _ _ _ => not_faults_done).mp hf) hcall

/-- Semicolons in front of statements are passed over. -/
theorem strays_skipSemicolons {stop : Token} {s t : Parser} (hg : (skipSemicolons s).Gives () t)
    (hf : Strays (.statements stop) t.tokens f) : Strays (.statements stop) s.tokens f := by
  induction hk : s.size using Nat.strongRecOn generalizing s with
  | ind k ih =>
    obtain ⟨-, rfl⟩ | ⟨hc, u, hu, hg⟩ := gives_skipSemicolons.mp hg
    · exact hf
    · have hlt := hu.size_lt
      rw [hu.tokens_of_current hc]
      exact (ih u.size (by omega) hg rfl).part .skip

/-- A fault among statements is found in one of them. -/
theorem strays_statements {stop : Token}
    {statement : (t : Parser) → t.size < n → Parsed t.size Node}
    (hstatement : ∀ t h a u, (statement t h).Gives a u → Goal.Took .expression t a u)
    (hstrays : ∀ t h f, (statement t h).Faults f → Strays .expression t.tokens f) {s : Parser}
    {h : s.size < n} (hf : (statements stop statement s h).Faults f) :
    Strays (.statements stop) s.tokens f := by
  induction hk : s.size using Nat.strongRecOn generalizing s with
  | ind k ih =>
    obtain ⟨u, hu, hskip, -, hf⟩ := faults_statements.mp hf
    refine strays_skipSemicolons hskip ?_
    obtain hf | ⟨a, v, ha, -, hf⟩ := hf
    · exact (hstrays u hu f hf).part .statement
    · obtain ⟨hr, -⟩ := hstatement u hu a v ha
      obtain hf | ⟨hc, w, hw, hp, hf⟩ := hf
      · exact .pass hf (.semicolon hr)
      · rw [hp.tokens_of_current hc] at hr
        have hlu := hskip.lt
        have hlv := ha.lt
        have hlw := hp.size_lt
        exact (ih w.size (by omega) hf rfl).part (.statements hr)

/-- A fault in an entry is found in its key, at the colon or in its value. -/
theorem strays_property {r : Below n} (hr : r.Strays) {s : Parser} {h : s.size < n}
    (hf : (property r s h).Faults f) : Strays .property s.tokens f := by
  rw [Parser.property] at hf
  rcases faults_andThen.mp hf with hf | ⟨key, u, hu, hkey, hf⟩
  · exact (hr.operand_strays s h f hf).part .key
  · obtain ⟨hrk, -⟩ := hr.operand s h key u hkey
    split at hf
    · rcases expect_andThen_faults.mp hf with hf | ⟨hc, v, hv, hf⟩
      · exact .pass hf (.colon hrk)
      · rw [hv.tokens_of_current hc] at hrk
        rw [faults_andThen_of_not_faults fun _ _ _ => not_faults_done] at hf
        exact (hr.expression_strays v _ f hf).part (.value hrk)
    · exact .here ⟨key, (faults_fail.mp hf).symm⟩

/-- A fault in a branch is found in its block or its expression. -/
theorem strays_branch {r : Below n} (hr : r.Strays) {s : Parser} {h : s.size < n}
    (hf : (branch r s h).Faults f) : Strays .branch s.tokens f := by
  rw [Parser.branch] at hf
  split at hf
  · next hs =>
    rw [Parser.block] at hf
    obtain ⟨u, hu, hf⟩ := (expect_andThen_faults_of_current hs).mp hf
    rw [hu.tokens_of_current hs]
    rcases faults_andThen.mp hf with hf | ⟨body, v, hv, hb, hf⟩
    · exact (strays_statements hr.expression hr.expression_strays hf).part .block
    · rw [expect_andThen_faults_of_not_faults fun _ _ _ => not_faults_done] at hf
      exact .pass hf (.blockEnd (took_statements (by simp) hr.expression hb).1)
  · exact (hr.expression_strays s h f hf).part .bareBranch

/-- A fault behind a word is found in the branch. -/
theorem strays_branchAfter {k : Keyword} {r : Below n} (hr : r.Strays) {s : Parser}
    {h : s.size < n} (hf : (branchAfter k r s h).Faults f) :
    Strays (.branchAfter k) s.tokens f := by
  rw [Parser.branchAfter] at hf
  split at hf
  · next hs =>
    obtain ⟨u, hu, hf⟩ := advance_andThen_faults.mp hf
    rw [hu.tokens_of_current hs]
    rw [faults_andThen_of_not_faults fun _ _ _ => not_faults_done] at hf
    exact (strays_branch hr hf).part .branch
  · exact absurd hf not_faults_done

/-- A fault in a template is found in an interpolation, behind it, or at a token that is no part. -/
theorem strays_parts {r : Below n} (hr : r.Strays) {s : Parser} {h : s.size < n}
    (hf : (parts r s h).Faults f) : Strays .parts s.tokens f := by
  -- A part that has been read is passed, and the fault lies in those behind it.
  induction hk : s.size using Nat.strongRecOn generalizing s with
  | ind k ih =>
    rw [Parser.parts] at hf
    split at hf
    · exact absurd hf not_faults_done
    · next text hs =>
      obtain ⟨u, hu, hf⟩ := advance_andThen_faults.mp hf
      have hlt := hu.size_lt
      rw [hu.tokens_of_current hs]
      rw [faults_andThen_of_not_faults fun _ _ _ => not_faults_done] at hf
      exact (ih u.size (by omega) hf rfl).part .text
    · next hs =>
      obtain ⟨u, hu, hf⟩ := advance_andThen_faults.mp hf
      rw [hu.tokens_of_current hs]
      rcases faults_andThen.mp hf with hf | ⟨body, v, hv, hb, hf⟩
      · exact (strays_statements hr.expression hr.expression_strays hf).part .interpolation
      · have hrb := (took_statements (by simp) hr.expression hb).1
        rcases expect_andThen_faults.mp hf with hf | ⟨hc, w, hw, hf⟩
        · exact .pass hf (.interpolationEnd hrb)
        · have hlu := hu.size_lt
          have hlw := hw.size_lt
          rw [hw.tokens_of_current hc] at hrb
          rw [faults_andThen_of_not_faults fun _ _ _ => not_faults_done] at hf
          exact (ih w.size (by omega) hf rfl).part (.interpolated hrb)
    · refine .here ?_
      rw [Site.Breaks, front_tokens]
      exact (faults_fail.mp hf).symm

/-- A fault in parentheses is found in the expression or at the closing one. -/
theorem strays_grouped {s : Parser} {r : Below s.size} (hr : r.Strays)
    (hs : s.current = .punct .leftParen) (hf : (grouped s r).Faults f) :
    Strays .primary s.tokens f := by
  rw [Parser.grouped] at hf
  obtain ⟨u, hu, hf⟩ := (expect_andThen_faults_of_current hs).mp hf
  rw [hu.tokens_of_current hs]
  rcases faults_andThen.mp hf with hf | ⟨a, v, hv, ha, hf⟩
  · exact (hr.expression_strays u _ f hf).part .grouped
  · rw [expect_andThen_faults_of_not_faults fun _ _ _ => not_faults_done] at hf
    exact .pass hf (.groupedEnd (hr.expression u _ a v ha).1)

/-- A fault in a template is found in its parts. -/
theorem strays_template {s : Parser} {r : Below s.size} (hr : r.Strays)
    (hs : s.current = .punct .backquote) (hf : (template s r).Faults f) :
    Strays .primary s.tokens f := by
  rw [Parser.template] at hf
  obtain ⟨u, hu, hf⟩ := (expect_andThen_faults_of_current hs).mp hf
  rw [hu.tokens_of_current hs]
  rcases faults_andThen.mp hf with hf | ⟨found, v, hv, hfound, hf⟩
  · exact (strays_parts hr hf).part .template
  · rw [expect_andThen_faults_of_not_faults fun _ _ _ => not_faults_done] at hf
    exact .pass hf (.templateEnd (took_parts hr.toSound hfound).1.1)

/-- A fault in a conditional is found in its condition or in a branch. -/
theorem strays_conditional {s : Parser} {r : Below s.size} (hr : r.Strays)
    {h : s.current ≠ .eof} (hs : s.current = .keyword .if_)
    (hf : (conditional s r h).Faults f) : Strays .primary s.tokens f := by
  rw [Parser.conditional] at hf
  obtain ⟨u, hu, hf⟩ := advance_andThen_faults.mp hf
  rw [hu.tokens_of_current hs]
  rcases faults_andThen.mp hf with hf | ⟨a, v, hv, ha, hf⟩
  · exact (hr.expression_strays u _ f hf).part .test
  · have hra := (hr.expression u _ a v ha).1
    rcases faults_andThen.mp hf with hf | ⟨b, w, hw, hb, hf⟩
    · exact (strays_branchAfter hr hf).part (.consequent hra)
    · have hrb := (took_branchAfter hr.toSound hb).1
      rw [faults_andThen_of_not_faults fun _ _ _ => not_faults_done] at hf
      exact (strays_branchAfter hr hf).part (.alternate hra hrb)

/-- A fault in a primary is found in the construct that its first token begins, or at this token. -/
theorem strays_primary {s : Parser} {r : Below s.size} (hr : r.Strays)
    (hf : (primary s r).Faults f) : Strays .primary s.tokens f := by
  -- One branch for each construct; the last one is a token that begins none.
  unfold Parser.primary at hf
  split at hf
  · next hs => exact strays_grouped hr hs hf
  · next hs =>
    obtain ⟨us, hts, hstrays⟩ := strays_delimited (g := .property) (by simp)
      (fun _ _ _ _ => took_property hr.toSound) (fun _ _ _ => strays_property hr) hs
      (faults_map.mp hf)
    rw [hts]
    exact hstrays.part .object
  · next hs =>
    obtain ⟨us, hts, hstrays⟩ := strays_delimited (g := .expression) (by simp) hr.expression
      hr.expression_strays hs (faults_map.mp hf)
    rw [hts]
    exact hstrays.part .array
  · next hs => exact strays_template hr hs hf
  · next hs => exact strays_conditional hr hs hf
  · split at hf
    · exact absurd (faults_map.mp hf) not_faults_advance
    · refine .here ?_
      rw [Site.Breaks, front_tokens]
      exact (faults_fail.mp hf).symm

/-- An index is read between its brackets. -/
theorem took_index {r : Below n} (hr : r.Sound) {b : Node} {s t : Parser} {h : s.size ≤ n}
    (hg : (index r s h).Gives b t) :
    ∃ us, s.tokens = .punct .leftBracket :: us ∧
      Reads .expression us b (.punct .rightBracket :: t.tokens) := by
  obtain ⟨hs, v, hv, hp, w, hb, he, hq⟩ := gives_index.mp hg
  obtain ⟨hrb, -⟩ := hr.expression v hv b w hb
  rw [hq.tokens_of_current he] at hrb
  exact ⟨v.tokens, hp.tokens_of_current hs, hrb⟩

/-- A fault in an index is found in its expression or at the closing bracket. -/
theorem strays_index {r : Below n} (hr : r.Strays) {s : Parser} {h : s.size ≤ n} (a : Node)
    (hs : s.current = .punct .leftBracket) (hf : (index r s h).Faults f) :
    Strays (.suffixes a) s.tokens f := by
  rw [Parser.index] at hf
  obtain ⟨u, hu, hf⟩ := (expect_andThen_faults_of_current hs).mp hf
  rw [hu.tokens_of_current hs]
  rcases faults_andThen.mp hf with hf | ⟨b, v, hv, hb, hf⟩
  · exact (hr.expression_strays u _ f hf).part .index
  · rw [expect_andThen_faults_of_not_faults fun _ _ _ => not_faults_done] at hf
    exact .pass hf (.indexEnd (hr.expression u _ b v hb).1)

/-- A fault among suffixes is found in one of them. -/
theorem strays_suffixes {r : Below n} (hr : r.Strays) {a : Node} {s : Parser} {h : s.size ≤ n}
    (hf : (suffixes r a s h).Faults f) : Strays (.suffixes a) s.tokens f := by
  -- A suffix that has been read goes into the callee, and the fault lies in those behind it.
  induction hk : s.size using Nat.strongRecOn generalizing s a with
  | ind k ih =>
    have hsound (t : Parser) (ht : t.size < s.size) := hr.expression t (Nat.lt_of_lt_of_le ht h)
    have hstrays (t : Parser) (ht : t.size < s.size) :=
      hr.expression_strays t (Nat.lt_of_lt_of_le ht h)
    rw [Parser.suffixes] at hf
    split at hf
    · next hs =>
      rcases faults_andThen.mp hf with hf | ⟨as, u, hu, has, hf⟩
      · obtain ⟨us, hts, hf⟩ := strays_delimited (g := .expression) (by simp) hsound hstrays hs hf
        rw [hts]
        exact hf.part .arguments
      · obtain ⟨us, hts, hra, -⟩ := took_delimited (g := .expression) (by simp) hsound has
        rw [hts]
        exact (ih u.size (by omega) (faults_weaken.mp hf) rfl).part (.called hra)
    · split at hf
      · next hs =>
        rcases faults_andThen.mp hf with hf | ⟨b, u, hu, hb, hf⟩
        · exact strays_index hr a hs hf
        · obtain ⟨us, hts, hrb⟩ := took_index hr.toSound hb
          rw [hts]
          exact (ih u.size (by omega) (faults_weaken.mp hf) rfl).part (.indexed hrb)
      · exact absurd hf not_faults_done

/-- A fault in an operand is found behind its prefix operator, in its primary or in a suffix. -/
theorem strays_operandWith {s : Parser} {r : Below s.size} (hr : r.Strays)
    (hf : (operandWith s r).Faults f) : Strays .operand s.tokens f := by
  unfold Parser.operandWith at hf
  split at hf
  · next op ho =>
    obtain ⟨u, hu, hf⟩ := advance_andThen_faults.mp hf
    rw [faults_andThen_of_not_faults fun _ _ _ => not_faults_done] at hf
    have hstrays := hr.operand_strays u _ f hf
    rw [hu.tokens]
    cases hc : s.current with
    | operator o =>
      rw [hc] at ho
      exact hstrays.part (.unary ho)
    | _ =>
      rw [hc] at ho
      cases ho
  · next ho =>
    rw [← front_tokens] at ho
    rcases faults_andThen.mp hf with hf | ⟨a, u, hu, ha, hf⟩
    · exact (strays_primary hr hf).part (.primary ho)
    · have htook := (took_primary hr.toSound ha).1
      exact (strays_suffixes hr (faults_weaken.mp hf)).part (.suffixes htook)

/-- A fault behind an operator is found in its operand or in what the operand takes. -/
theorem strays_operators {r : Below n} (hr : r.Strays) {threshold : Nat} {a : Node} {s : Parser}
    {h : s.size < n} (hf : (operators r threshold a s h).Faults f) :
    Strays (.operators threshold a) s.tokens f := by
  induction hk : s.size using Nat.strongRecOn generalizing s threshold a with
  | ind k ih =>
    obtain ⟨o, j, hc, hj, hlt, ⟨-, -, rfl⟩ | ⟨-, u, hu, hp, hf⟩⟩ := faults_operators.mp hf
    · exact .here rfl
    · have hlu := hp.size_lt
      rw [hp.tokens_of_current hc]
      rcases hf with hf | ⟨b, v, hb, hv, hf⟩
      · exact (hr.operand_strays u hu f hf).part (.rightOperand hj hlt)
      · have hlv := hb.lt
        have hrb := (hr.operand u hu b v hb).1
        rcases hf with hf | ⟨c, w, hcc, hw, hf⟩
        · exact (ih v.size (by omega) hf rfl).part (.stronger hj hlt hrb)
        · have hlw := hcc.lt
          have hrc := (took_operators hr.toSound hcc).1
          exact (ih w.size (by omega) hf rfl).part (.later hj hlt hrb hrc)

/-- Every fault of the reading functions of the grammar is found at a site that is reached. -/
theorem strays_full (n : Nat) : (full n).Strays := by
  -- The bound goes down with every token, and a parser at the bound is used below it only.
  induction n with
  | zero => exact { sound_full 0 with
      expression_strays := fun t h => by omega
      operand_strays := fun t h => by omega }
  | succ n ih =>
    have hs {s : Parser} (h : s.size < n + 1) : (full s.size).Strays :=
      { sound_full s.size with
        expression_strays := fun t ht => ih.expression_strays t (by omega)
        operand_strays := fun t ht => ih.operand_strays t (by omega) }
    have hoperand (s : Parser) (h : s.size < n + 1) (f : SyntaxFault) (hf : (operand s).Faults f) :
        Strays .operand s.tokens f :=
      strays_operandWith (hs h) (faults_operand.mp hf)
    refine { sound_full (n + 1) with
      expression_strays := fun s h f hf => ?_
      operand_strays := hoperand }
    rcases faults_expression.mp hf with hf | ⟨a, u, ha, hu, hf⟩
    · exact (hoperand s h f hf).part .leftOperand
    · have hra := (took_operandWith (sound_full _) (gives_operand.mp ha)).1
      exact (strays_operators (hs h) hf).part (.operators hra)

/-! ## Whole texts -/

/-- The tokens of a text, up to the first one that is malformed. -/
def tokensOfString (source : String) : List Token := tokensOf (TokenStream.ofString source).ahead

/-- Where parsing a text fails at the grammar, the fault is found at a site that is reached. -/
theorem exists_reaches_of_parse_eq_error {source : String} {position : Position}
    (h : parse source = .error (.malformed f position)) :
    ∃ x us, Reaches (.statements .eof) (tokensOfString source) x us ∧ x.Breaks us f := by
  obtain ⟨s, hs, hf⟩ := parse_faults_iff.mp ⟨position, h⟩
  rw [program, faults_map] at hf
  rw [tokensOfString, ← (tokens_of_next (start_eq_ok_iff.mp hs)).1]
  exact strays_statements (sound_full _).expression (strays_full _).expression_strays hf

end Brace
