/-
# How far the grammar looks ahead

The grammar is read from left to right and looks at one token behind what it has passed.  So the
tokens of a construct are read in the same way if other tokens stand behind them, as long as the
first of these is the same (`Reads.swap`).  Main statement: `Reads.exists_used`.
-/
import Brace.Proofs.Parser.Reads

namespace Brace

open Brace.Parser

/-! ## Other tokens behind the same ones -/

/-- `Swaps us vs ts ts'` says that `ts` ends with `us`, and that `ts'` is `ts` with `vs` instead. -/
inductive Swaps (us vs : List Token) : List Token → List Token → Prop where
  /-- Nothing stands in front. -/
  | refl : Swaps us vs us vs
  /-- One more token in front. -/
  | cons {ts ts' : List Token} (t : Token) : Swaps us vs ts ts' → Swaps us vs (t :: ts) (t :: ts')

namespace Swaps

variable {us vs ts ts' rs rs' : List Token}

theorem trans (h : Swaps us vs ts ts') (h' : Swaps ts ts' rs rs') : Swaps us vs rs rs' := by
  induction h' with
  | refl => exact h
  | cons t _ ih => exact ih.cons t

/-- Tokens that are swapped behind a construct do not change its front. -/
theorem front_eq (h : Swaps us vs ts ts') (hfront : front vs = front us) :
    front ts' = front ts := by
  cases h with
  | refl => exact hfront
  | cons => rfl

/-- The tokens of a construct are the same in front of either rest. -/
theorem exists_used (h : Swaps us vs ts ts') : ∃ used, ts = used ++ us ∧ ts' = used ++ vs := by
  induction h with
  | refl => exact ⟨[], rfl, rfl⟩
  | cons t _ ih =>
    obtain ⟨used, rfl, rfl⟩ := ih
    exact ⟨t :: used, rfl, rfl⟩

end Swaps

/-! ## Reading -/

/-- What is read is read in the same way with other tokens behind it, if the first one is the
same. -/
theorem Reads.swap {g : Goal} {ts us : List Token} {a : g.Answer} (h : Reads g ts a us)
    (vs : List Token) (hvs : front vs = front us) :
    ∃ ts', Swaps us vs ts ts' ∧ Reads g ts' a vs := by
  -- The tokens behind the last part decide about those behind the part before it, and so on.
  induction h generalizing vs with
  | expression _ _ iha ihb =>
    obtain ⟨us', hus, hb⟩ := ihb _ hvs
    obtain ⟨ts', hts, ha⟩ := iha _ (hus.front_eq hvs)
    exact ⟨ts', hus.trans hts, .expression ha hb⟩
  | unary ho _ ih =>
    obtain ⟨ts', hts, ha⟩ := ih _ hvs
    exact ⟨_, hts.cons _, .unary ho ha⟩
  | plain _ _ iha ihb =>
    obtain ⟨us', hus, hb⟩ := ihb _ hvs
    obtain ⟨ts', hts, ha⟩ := iha _ (hus.front_eq hvs)
    exact ⟨ts', hus.trans hts, .plain ha hb⟩
  | literal ha => exact ⟨_, .cons _ .refl, .literal ha⟩
  -- In front of a bracket any rest will do, as the bracket is what is looked at.
  | grouped _ ih =>
    obtain ⟨ts', hts, ha⟩ := ih (.punct .rightParen :: vs) rfl
    exact ⟨_, ((Swaps.refl.cons _).trans hts).cons _, .grouped ha⟩
  | object _ ih =>
    obtain ⟨ts', hts, ha⟩ := ih _ hvs
    exact ⟨_, hts.cons _, .object ha⟩
  | array _ ih =>
    obtain ⟨ts', hts, ha⟩ := ih _ hvs
    exact ⟨_, hts.cons _, .array ha⟩
  | template _ ih =>
    obtain ⟨ts', hts, ha⟩ := ih (.punct .backquote :: vs) rfl
    exact ⟨_, ((Swaps.refl.cons _).trans hts).cons _, .template ha⟩
  | conditional _ _ _ iha ihb ihc =>
    obtain ⟨vs', hvs', hc⟩ := ihc _ hvs
    obtain ⟨us', hus, hb⟩ := ihb _ (hvs'.front_eq hvs)
    obtain ⟨ts', hts, ha⟩ := iha _ (hus.front_eq (hvs'.front_eq hvs))
    exact ⟨_, ((hvs'.trans hus).trans hts).cons _, .conditional ha hb hc⟩
  | suffixesEnd hcall hindex => exact ⟨vs, .refl, .suffixesEnd (hvs ▸ hcall) (hvs ▸ hindex)⟩
  | call _ _ iha ihb =>
    obtain ⟨us', hus, hb⟩ := ihb _ hvs
    obtain ⟨ts', hts, ha⟩ := iha _ (hus.front_eq hvs)
    exact ⟨_, (hus.trans hts).cons _, .call ha hb⟩
  | index _ _ iha ihb =>
    obtain ⟨us', hus, hb⟩ := ihb _ hvs
    obtain ⟨ts', hts, ha⟩ := iha (.punct .rightBracket :: us') rfl
    exact ⟨_, ((hus.cons _).trans hts).cons _, .index ha hb⟩
  -- Where nothing is passed, the token that was looked at is still the first one.
  | operatorsEnd hop => exact ⟨vs, .refl, .operatorsEnd (hvs ▸ hop)⟩
  | fold ho hk hi _ _ _ ihb ihc ihd =>
    obtain ⟨vs', hvs', hd⟩ := ihd _ hvs
    obtain ⟨us', hus, hc⟩ := ihc _ (hvs'.front_eq hvs)
    obtain ⟨ts', hts, hb⟩ := ihb _ (hus.front_eq (hvs'.front_eq hvs))
    exact ⟨_, ((hvs'.trans hus).trans hts).cons _, .fold ho hk hi hb hc hd⟩
  | lastItem _ hstop ih =>
    obtain ⟨ts', hts, ha⟩ := ih _ hvs
    exact ⟨ts', hts, .lastItem ha (hvs ▸ hstop)⟩
  | trailingComma hc _ hstop ih =>
    obtain ⟨ts', hts, ha⟩ := ih (.punct .comma :: vs) rfl
    exact ⟨ts', (Swaps.refl.cons _).trans hts, .trailingComma hc ha (hvs ▸ hstop)⟩
  | nextItem hc _ hstop _ iha ihb =>
    obtain ⟨us', hus, has⟩ := ihb _ hvs
    obtain ⟨ts', hts, ha⟩ := iha (.punct .comma :: us') rfl
    exact ⟨ts', (hus.cons _).trans hts, .nextItem hc ha (hus.front_eq hvs ▸ hstop) has⟩
  | noItems => exact ⟨_, .cons _ .refl, .noItems⟩
  | someItems hstop heof _ ih =>
    obtain ⟨ts', hts, has⟩ := ih (.punct _ :: vs) rfl
    have hfront := hts.front_eq rfl
    exact ⟨ts', (Swaps.refl.cons _).trans hts, .someItems (hfront ▸ hstop) (hfront ▸ heof) has⟩
  | property _ hkey _ iha ihb =>
    obtain ⟨us', hus, hb⟩ := ihb _ hvs
    obtain ⟨ts', hts, ha⟩ := iha (.punct .colon :: us') rfl
    exact ⟨ts', (hus.cons _).trans hts, .property ha hkey hb⟩
  | skip _ ih =>
    obtain ⟨ts', hts, has⟩ := ih _ hvs
    exact ⟨_, hts.cons _, .skip has⟩
  | noStatements hsemi hstop => exact ⟨vs, .refl, .noStatements (hvs ▸ hsemi) (hvs ▸ hstop)⟩
  | lastStatement hstop _ hend ih =>
    obtain ⟨ts', hts, ha⟩ := ih _ hvs
    exact ⟨ts', hts, .lastStatement (hts.front_eq hvs ▸ hstop) ha (hvs.trans hend)⟩
  | nextStatement hstop hsemi _ _ iha ihb =>
    obtain ⟨us', hus, has⟩ := ihb _ hvs
    obtain ⟨ts', hts, ha⟩ := iha (.punct .semicolon :: us') rfl
    exact ⟨ts', (hus.cons _).trans hts, .nextStatement (hts.front_eq rfl ▸ hstop) hsemi ha has⟩
  -- The closing quote is not passed, and so it has to be the first token of the rest.
  | partsEnd =>
    cases vs with
    | nil => cases hvs
    | cons t vs =>
      obtain rfl : t = .punct .backquote := hvs
      exact ⟨_, .refl, .partsEnd⟩
  | text _ ih =>
    obtain ⟨ts', hts, hfound⟩ := ih _ hvs
    exact ⟨_, hts.cons _, .text hfound⟩
  | interpolation _ _ iha ihb =>
    obtain ⟨us', hus, hfound⟩ := ihb _ hvs
    obtain ⟨ts', hts, has⟩ := iha (.punct .rightBrace :: us') rfl
    exact ⟨_, ((hus.cons _).trans hts).cons _, .interpolation has hfound⟩
  | block _ ih =>
    obtain ⟨ts', hts, has⟩ := ih (.punct .rightBrace :: vs) rfl
    exact ⟨_, ((Swaps.refl.cons _).trans hts).cons _, .block has⟩
  | bareBranch hbrace _ ih =>
    obtain ⟨ts', hts, ha⟩ := ih _ hvs
    exact ⟨ts', hts, .bareBranch (hts.front_eq hvs ▸ hbrace) ha⟩
  | someBranch _ ih =>
    obtain ⟨ts', hts, ha⟩ := ih _ hvs
    exact ⟨_, hts.cons _, .someBranch ha⟩
  | noBranch hk => exact ⟨vs, .refl, .noBranch (hvs ▸ hk)⟩

/-- The tokens of a construct are read in the same way wherever the same token stands behind
them. -/
theorem Reads.exists_used {g : Goal} {ts us : List Token} {a : g.Answer} (h : Reads g ts a us) :
    ∃ used, ts = used ++ us ∧ ∀ vs, front vs = front us → Reads g (used ++ vs) a vs := by
  obtain ⟨_, hswaps, -⟩ := h.swap us rfl
  obtain ⟨used, hts, -⟩ := hswaps.exists_used
  refine ⟨used, hts, fun vs hvs => ?_⟩
  obtain ⟨_, hswaps', hreads⟩ := h.swap vs hvs
  obtain ⟨used', hts', rfl⟩ := hswaps'.exists_used
  rwa [List.append_cancel_right (hts.symm.trans hts')]

end Brace
