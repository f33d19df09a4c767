/-
# Texts one behind the other

Behind a semicolon the grammar starts anew: it treats the semicolon like the end of the source at
every level, so whatever is read up to the end is read up to a semicolon as well (`Reads.extend`),
and statements can be put behind statements (`Reads.append_statements`).  The lexer has left every
template and every brace of the first text where its statements end, by `Reads.moves`.  Main
statement: `parse_append`.
-/
import Brace.Proofs.Parser.Lookback
import Brace.Proofs.Token.Extends

namespace Brace

open Brace.Parser

/-! ## Tokens with something behind them -/

/-- The first token is the same with more tokens behind, unless there was none. -/
theorem front_append {ts : List Token} (h : front ts ≠ .eof) (vs : List Token) :
    front (ts ++ vs) = front ts := by
  cases ts with
  | nil => exact absurd rfl h
  | cons t ts => rfl

/-- A token that neither stands at the front nor is added at the end is not at the front. -/
theorem front_append_ne {ts vs : List Token} {t : Token} (h : front ts ≠ t) (hv : front vs ≠ t) :
    front (ts ++ vs) ≠ t := by
  cases ts with
  | nil => exact hv
  | cons u ts => exact h

/-- The constructs that are read up to a token have come to it, and not to the end of the source.
Items are expressions or properties, and no semicolon ends them. -/
def Goal.Ended : Goal → List Token → Prop
  | .items stop item, us =>
    (item = .expression ∨ item = .property) ∧ stop ≠ .semicolon ∧ front us ≠ .eof
  | .bracketed stop item, _ => (item = .expression ∨ item = .property) ∧ stop ≠ .semicolon
  | .statements _, us => front us ≠ .eof
  | _, _ => True

/-- An item of a list that has ended has ended. -/
theorem Goal.Ended.item {stop : Punct} {item : Goal} {us : List Token}
    (h : (Goal.items stop item).Ended us) (vs : List Token) : item.Ended vs := by
  obtain ⟨rfl | rfl, -⟩ := h
  · trivial
  · trivial

/-- What is read is read with a semicolon behind it, too. -/
theorem Reads.extend {g : Goal} {ts us vs : List Token} {a : g.Answer} (h : Reads g ts a us)
    (hend : g.Ended us) (hvs : front vs = .punct .semicolon) : Reads g (ts ++ vs) a (us ++ vs) := by
  -- No rule that looks at the front but does not pass it wants a semicolon there.
  have hne {ts : List Token} {t : Token} (ht : front ts ≠ t) (hsemi : Token.punct .semicolon ≠ t) :
      front (ts ++ vs) ≠ t := front_append_ne ht (hvs ▸ hsemi)
  induction h with
  | expression _ _ iha ihb => exact .expression (iha trivial) (ihb trivial)
  | unary ho _ ih => exact .unary ho (ih trivial)
  | plain _ _ iha ihb => exact .plain (iha trivial) (ihb trivial)
  | literal ha => exact .literal ha
  | grouped _ ih => exact .grouped (ih trivial)
  | object _ ih => exact .object (ih ⟨Or.inr rfl, nofun⟩)
  | array _ ih => exact .array (ih ⟨Or.inl rfl, nofun⟩)
  | template _ ih => exact .template (ih trivial)
  | conditional _ _ _ iha ihb ihc => exact .conditional (iha trivial) (ihb trivial) (ihc trivial)
  | suffixesEnd hcall hindex => exact .suffixesEnd (hne hcall nofun) (hne hindex nofun)
  | call _ _ iha ihb => exact .call (iha ⟨Or.inl rfl, nofun⟩) (ihb trivial)
  | index _ _ iha ihb => exact .index (iha trivial) (ihb trivial)
  | @operatorsEnd ts threshold a hop =>
    -- Where nothing was left, the semicolon stands now, and it is no operator.
    refine .operatorsEnd fun o k hk => ?_
    by_cases hts : front ts = .eof
    · cases ts with
      | nil =>
        rw [List.nil_append, hvs] at hk
        cases hk
      | cons t ts => exact hop o k hk
    · exact hop o k (front_append hts vs ▸ hk)
  | fold ho hk hi _ _ _ ihb ihc ihd =>
    exact .fold ho hk hi (ihb trivial) (ihc trivial) (ihd trivial)
  -- A construct that has come to its token does not see what is added behind it.
  | lastItem _ hstop ih =>
    have hstop := hstop.resolve_right hend.2.2
    exact .lastItem (ih (hend.item _)) (Or.inl ((front_append hend.2.2 vs).trans hstop))
  | trailingComma hc _ hstop ih =>
    exact .trailingComma hc (ih (hend.item _)) ((front_append hend.2.2 vs).trans hstop)
  | nextItem hc _ hstop _ iha ihb =>
    have hsemi : Token.punct .semicolon ≠ .punct _ := fun he => hend.2.1 (Token.punct.inj he).symm
    exact .nextItem hc (iha (hend.item _)) (hne hstop hsemi) (ihb hend)
  | noItems => exact .noItems
  | someItems hstop heof _ ih =>
    have hsemi : Token.punct .semicolon ≠ .punct _ := fun he => hend.2 (Token.punct.inj he).symm
    exact .someItems (hne hstop hsemi) (hne heof nofun) (ih ⟨hend.1, hend.2, nofun⟩)
  | property _ hkey _ iha ihb => exact .property (iha trivial) hkey (ihb trivial)
  | skip _ ih => exact .skip (ih hend)
  | noStatements hsemi hstop =>
    have hfront := front_append hend vs
    exact .noStatements (hfront ▸ hsemi) (Or.inl (hfront.trans (hstop.resolve_right hend)))
  | lastStatement hstop ha hus ih =>
    have hfront := front_append ha.front_ne_of_expression.2 vs
    exact .lastStatement (hfront ▸ hstop) (ih trivial) ((front_append hend vs).trans hus)
  | nextStatement hstop hsemi ha _ iha ihb =>
    have hfront := front_append ha.front_ne_of_expression.2 vs
    exact .nextStatement (hfront ▸ hstop) hsemi (iha trivial) (ihb hend)
  | partsEnd => exact .partsEnd
  | text _ ih => exact .text (ih trivial)
  | interpolation _ _ iha ihb => exact .interpolation (iha nofun) (ihb trivial)
  | block _ ih => exact .block (ih nofun)
  | bareBranch hbrace _ ih => exact .bareBranch (hne hbrace nofun) (ih trivial)
  | someBranch _ ih => exact .someBranch (ih trivial)
  | noBranch hk => exact .noBranch (hne hk nofun)

/-- Statements behind statements. -/
theorem Reads.append_statements {vs : List Token} {bs : List Node} :
    ∀ {ts : List Token} {as : List Node}, Reads (.statements .eof) ts as [] →
      Reads (.statements .eof) vs bs [] →
      Reads (.statements .eof) (ts ++ .punct .semicolon :: vs) (as ++ bs) []
  | _, _, .skip has, hbs => .skip (has.append_statements hbs)
  | _, _, .noStatements _ _, hbs => .skip hbs
  | _, _, .lastStatement _ ha _, hbs =>
    .nextStatement (front_append_ne ha.front_ne_of_expression.2 nofun) nofun (ha.extend trivial rfl)
      hbs
  | _, _, .nextStatement hstop hsemi ha has, hbs =>
    .nextStatement (front_append_ne hstop nofun) hsemi (ha.extend trivial rfl)
      (has.append_statements hbs)

/-! ## Programs -/

/-- The statements of a node: those of a program, and any other node itself. -/
def Node.body : Node → List Node
  | .program as => as
  | a => [a]

theorem Regular.body_eq {limits : Limits} {a : Node} (h : Regular limits .expression a) :
    a.body = [a] := by
  cases h with
  | expression hp _ => exact absurd rfl hp
  | _ => rfl

/-- No statement is a program itself, so the statements of a program are what it is made of. -/
theorem body_ofStatements {limits : Limits} {as : List Node}
    (h : ∀ a ∈ as, Regular limits .expression a) : (Node.ofStatements .program as).body = as :=
  match as with
  | [] => rfl
  | [_] => (h _ List.mem_cons_self).body_eq
  | _ :: _ :: _ => rfl

/-- A text that is parsed is a sequence of tokens that are read as the statements of the answer, and
leaves the modes of the start. -/
theorem exists_statements_of_parse {source : String} {n : Node} (h : parse source = .ok n) :
    ∃ ts, (Lexer.ofString source).Yields ts ∧ Reads (.statements .eof) ts n.body [] ∧
      Node.ofStatements .program n.body = n ∧
      (ts.foldl Lookback.after .start).modes = [.expression] := by
  obtain ⟨ts, hy, as, has, rfl⟩ := parse_eq_ok_iff.mp h
  obtain ⟨hregular, -⟩ := has.keeps [.expression] nofun (Lexer.lexical_of_yields hy)
  obtain ⟨b, hmoves, hmodes⟩ := has.moves (b := .start) ⟨nofun, rfl⟩
  obtain ⟨used, hused, rfl⟩ := hmoves.exists_used
  rw [List.append_nil] at hused
  have hbody : (Node.ofStatements .program as).body = as := body_ofStatements hregular
  rw [hbody]
  exact ⟨ts, hy, has, rfl, hused ▸ hmodes⟩

/-- A text behind another one, with a new line and a semicolon between them, has the statements of
both. -/
theorem parse_append {source source' : String} {m n : Node} (hm : parse source = .ok m)
    (hn : parse source' = .ok n) :
    parse (source ++ "\n;" ++ source') = .ok (Node.ofStatements .program (m.body ++ n.body)) := by
  obtain ⟨ts, hts, hm', -, hmodes⟩ := exists_statements_of_parse hm
  obtain ⟨us, hus, hn', -, -⟩ := exists_statements_of_parse hn
  exact parse_eq_ok_iff.mpr ⟨_, hts.append hmodes hus, _, hm'.append_statements hn', rfl⟩

end Brace
