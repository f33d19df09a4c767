/-
# Whatever has the form of a program is read

The grammar is ambiguous, and reading is greedy: it takes every call, index, operator and branch
that it can, and may stop at another place than a given derivation does.  So the proof follows all
derivations at once.  `Before f K ts` says that `ts` begins with the form `f` and that a list in `K`
stands behind it, and `K` `Continues` expressions if it is closed under what greedy reading takes
from its front.  Reading an expression from a list in `Before f K` then leaves a list in `K`
(`reads_of_before`).
-/
import Brace.Proofs.Grammar.Derivation
import Brace.Proofs.Token.Hands

namespace Brace

open Brace.Parser (literal? binaryOperator? binaryOperator?_eq_some_iff combine)

/-! ## What can stand behind an expression -/

/-- The tokens `ts` begin with the form `f`, and a list in `K` stands behind it. -/
def Before (f : Form) (K : List Token → Prop) (ts : List Token) : Prop :=
  ∃ us, Covers f ts us ∧ K us

theorem Before.mono {f : Form} {K L : List Token → Prop} {ts : List Token} (h : Before f K ts)
    (hKL : ∀ us, K us → L us) : Before f L ts := by
  obtain ⟨us, hf, hK⟩ := h
  exact ⟨us, hf, hKL us hK⟩

/-- A repetition ends here or begins with one more item. -/
theorem Before.many_iff {f : Form} {K : List Token → Prop} {ts : List Token} :
    Before (.many f) K ts ↔ K ts ∨ Before f (Before (.many f) K) ts := by
  constructor
  · rintro ⟨us, h, hK⟩
    rcases Covers.many_iff.mp h with rfl | ⟨vs, hf, hm⟩
    · exact Or.inl hK
    · exact Or.inr ⟨vs, hf, us, hm, hK⟩
  · rintro (hK | ⟨vs, hf, us, hm, hK⟩)
    · exact ⟨ts, Covers.none, hK⟩
    · exact ⟨us, Covers.more hf hm, hK⟩

/-- A tail of operators ends here or begins with an operator and its operand. -/
theorem Before.tail_iff {K : List Token → Prop} {ts : List Token} :
    Before .tail K ts ↔ K ts ∨ ∃ t us, t.isBinary = true ∧ ts = t :: us ∧
      Before (.symbol .atom) (Before .tail K) us := by
  constructor
  · rintro ⟨us, h, hK⟩
    rcases Covers.tail_iff.mp h with rfl | ⟨t, vs, ws, ht, rfl, ha, hm⟩
    · exact Or.inl hK
    · exact Or.inr ⟨t, vs, ht, rfl, ws, ha, us, hm, hK⟩
  · rintro (hK | ⟨t, vs, ht, rfl, ws, ha, us, hm, hK⟩)
    · exact ⟨ts, Covers.none, hK⟩
    · exact ⟨us, Covers.tail_iff.mpr (Or.inr ⟨t, vs, ws, ht, rfl, ha, hm⟩), hK⟩

/-- A branch is missing or stands behind its word. -/
theorem Before.branchAfter_iff {k : Keyword} {K : List Token → Prop} {ts : List Token} :
    Before (.branchAfter k) K ts ↔
      K ts ∨ ∃ us, ts = .keyword k :: us ∧ Before (.symbol .branch) K us := by
  constructor
  · rintro ⟨us, h, hK⟩
    rcases Covers.branchAfter_iff.mp h with rfl | ⟨vs, rfl, hb⟩
    · exact Or.inl hK
    · exact Or.inr ⟨vs, rfl, us, hb, hK⟩
  · rintro (hK | ⟨vs, rfl, us, hb, hK⟩)
    · exact ⟨ts, Covers.branchAfter_iff.mpr (Or.inl rfl), hK⟩
    · exact ⟨us, Covers.branchAfter_iff.mpr (Or.inr ⟨vs, rfl, hb⟩), hK⟩

/-- Lists that can stand behind an expression: whatever greedy reading takes from the front of one
of them leaves another one, and none begins with the sign of an assignment. -/
structure Continues (K : List Token → Prop) : Prop where
  /-- An operator has an atom behind it. -/
  operator : ∀ {t : Token} {us : List Token},
    t.isBinary = true → K (t :: us) → Before (.symbol .atom) K us
  /-- An opening bracket begins a call or an index. -/
  suffix : ∀ {ts : List Token},
    front ts = .punct .leftParen ∨ front ts = .punct .leftBracket → K ts →
      Before (.symbol .suffix) K ts
  /-- The word of a branch has a branch behind it. -/
  branch : ∀ {k : Keyword} {us : List Token},
    k ≠ .if_ → K (.keyword k :: us) → Before (.symbol .branch) K us
  /-- There is no sign of an assignment. -/
  assign : ∀ {us : List Token}, ¬ K (.operator .assign :: us)

/-- The operators of the grammar are those that bind more strongly than an assignment. -/
theorem precedence?_of_isBinary {t : Token} (h : t.isBinary = true) :
    ∃ o k, binaryOperator? t = some (o, k) ∧ 1 < k := by
  cases t with
  | operator o => cases o <;> first | exact ⟨_, _, rfl, by decide⟩ | cases h
  | _ => cases h

/-- Lists that begin with a token that ends every expression can stand behind one. -/
theorem continues_of_closes {K : List Token → Prop}
    (h : ∀ ts, K ts → (front ts).closes = true) : Continues K where
  operator := by
    intro t us ht hK
    have hc : t.closes = true := h _ hK
    cases t <;> first | cases ht | cases hc
  suffix := by
    intro ts ht hK
    have hc := h ts hK
    rcases ht with ht | ht <;> rw [ht] at hc <;> cases hc
  branch := fun _ hK => nomatch h _ hK
  assign := fun hK => nomatch h _ hK

namespace Continues

variable {K : List Token → Prop}

/-- Where a list continues expressions, so does a tail of operators in front of it. -/
theorem tail (hK : Continues K) : Continues (Before .tail K) := by
  have hsub (us : List Token) (h : K us) : Before .tail K us := Before.tail_iff.mpr (Or.inl h)
  -- The tail may be empty, and then the list itself is at the front; an operator is not the token
  -- that is asked for in the other cases.
  constructor
  · intro t us ht h
    rcases Before.tail_iff.mp h with h | ⟨u, vs, _, he, h⟩
    · exact (hK.operator ht h).mono hsub
    · cases he
      exact h
  · intro ts ht h
    rcases Before.tail_iff.mp h with h | ⟨u, vs, hu, rfl, _⟩
    · exact (hK.suffix ht h).mono hsub
    · rcases ht with rfl | rfl <;> cases hu
  · intro k us hk h
    rcases Before.tail_iff.mp h with h | ⟨u, vs, hu, he, _⟩
    · exact (hK.branch hk h).mono hsub
    · cases he
      cases hu
  · intro us h
    rcases Before.tail_iff.mp h with h | ⟨u, vs, hu, he, _⟩
    · exact hK.assign h
    · cases he
      cases hu

/-- Where a list continues expressions, so do calls and indices in front of it. -/
theorem suffixes (hK : Continues K) : Continues (Before (.many (.symbol .suffix)) K) := by
  have hsub (us : List Token) (h : K us) : Before (.many (.symbol .suffix)) K us :=
    Before.many_iff.mpr (Or.inl h)
  have hfront {L : List Token → Prop} {ts : List Token} (h : Before (.symbol .suffix) L ts) :
      front ts = .punct .leftParen ∨ front ts = .punct .leftBracket := by
    obtain ⟨us, h, _⟩ := h
    rcases Covers.suffix_iff.mp h with ⟨_, rfl, _⟩ | ⟨_, rfl, _⟩
    · exact Or.inl rfl
    · exact Or.inr rfl
  -- A suffix begins with a bracket, which is neither an operator nor a word.
  constructor
  · intro t us ht h
    rcases Before.many_iff.mp h with h | h
    · exact (hK.operator ht h).mono hsub
    · rcases hfront h with rfl | rfl <;> cases ht
  · intro ts ht h
    rcases Before.many_iff.mp h with h | h
    · exact (hK.suffix ht h).mono hsub
    · exact h
  · intro k us hk h
    rcases Before.many_iff.mp h with h | h
    · exact (hK.branch hk h).mono hsub
    · rcases hfront h with h | h <;> cases h
  · intro us h
    rcases Before.many_iff.mp h with h | h
    · exact hK.assign h
    · rcases hfront h with h | h <;> cases h

/-- Where a list continues expressions, so does a branch in front of it. -/
theorem branchAfter {k : Keyword} (hK : Continues K) :
    Continues (Before (.branchAfter k) K) := by
  have hsub (us : List Token) (h : K us) : Before (.branchAfter k) K us :=
    Before.branchAfter_iff.mpr (Or.inl h)
  constructor
  · intro t us ht h
    rcases Before.branchAfter_iff.mp h with h | ⟨_, he, _⟩
    · exact (hK.operator ht h).mono hsub
    · cases he
      cases ht
  · intro ts ht h
    rcases Before.branchAfter_iff.mp h with h | ⟨_, rfl, _⟩
    · exact (hK.suffix ht h).mono hsub
    · rcases ht with ht | ht <;> cases ht
  -- The other word of a conditional may be what stands in front, and its branch may be missing.
  · intro l us hl h
    rcases Before.branchAfter_iff.mp h with h | ⟨_, he, h⟩
    · exact (hK.branch hl h).mono hsub
    · cases he
      exact h.mono hsub
  · intro us h
    rcases Before.branchAfter_iff.mp h with h | ⟨_, he, _⟩
    · exact hK.assign h
    · cases he

end Continues

/-! ## Keys and targets -/

/-- A target is a key: it is a name, perhaps in parentheses. -/
theorem Covers.key_of_target {ts us : List Token} (h : Covers (.symbol .target) ts us) :
    Covers (.symbol .key) ts us := by
  induction ts generalizing us with
  | nil => rcases Covers.target_iff.mp h with ⟨_, he⟩ | ⟨_, he, _⟩ <;> cases he
  | cons t vs ih =>
    rcases Covers.target_iff.mp h with ⟨name, he⟩ | ⟨_, he, hc⟩
    · exact Covers.key_iff.mpr (Or.inl ⟨_, rfl, he⟩)
    · cases he
      exact Covers.key_iff.mpr (Or.inr ⟨vs, rfl, ih hc⟩)

/-- A key is read as a node that can be one, and a target as a variable. -/
theorem reads_of_key {ts us : List Token} (h : Covers (.symbol .key) ts us)
    (hp : front us ≠ .punct .leftParen) (hb : front us ≠ .punct .leftBracket) :
    ∃ a, Reads .operand ts a us ∧ a.isKey = true ∧
      (Covers (.symbol .target) ts us → a.isIdentifier = true) := by
  induction ts generalizing us with
  | nil => rcases Covers.key_iff.mp h with ⟨_, _, he⟩ | ⟨_, he, _⟩ <;> cases he
  | cons t vs ih =>
    rcases Covers.key_iff.mp h with ⟨t', ht, he⟩ | ⟨_, he, hc⟩ <;> cases he
    · obtain ⟨a, ha⟩ := isLiteral_iff.mp (isLiteral_of_isKey ht)
      obtain ⟨hk, hi⟩ := isKey_iff_of_literal? ha
      refine ⟨a, .plain (.literal ha) (.suffixesEnd hp hb), hk ▸ ht, fun hc => hi ▸ ?_⟩
      rcases Covers.target_iff.mp hc with ⟨name, he⟩ | ⟨_, he, _⟩ <;> cases he
      · rfl
      · cases ht
    · obtain ⟨a, ha, hk, hi⟩ := ih hc (by simp) (by simp)
      have hend : Reads (.operators 0 a) (.punct .rightParen :: us) a (.punct .rightParen :: us) :=
        .operatorsEnd fun _ _ h => nomatch h
      refine ⟨a, .plain (.grouped (.expression ha hend)) (.suffixesEnd hp hb), hk, fun hc => ?_⟩
      rcases Covers.target_iff.mp hc with ⟨name, he⟩ | ⟨_, he, hc⟩ <;> cases he
      exact hi hc

/-! ## Reading lists shorter than a bound -/

/-- Expressions and atoms with lists in `K` behind them are read, and leave a list in `K`. -/
def Complete (n : Nat) : Prop :=
  ∀ ts : List Token, ts.length < n → ∀ K, Continues K →
    (Before (.symbol .expression) K ts → ∃ a us, Reads .expression ts a us ∧ K us) ∧
      (Before (.symbol .atom) K ts → ∃ a us, Reads .operand ts a us ∧ K us)

section

variable {n : Nat} (hn : Complete n) {K : List Token → Prop}

include hn

/-- An expression is read up to the token behind it if that token ends every expression. -/
theorem Complete.expression_to {ts us : List Token} (h : Covers (.symbol .expression) ts us)
    (hlt : ts.length < n) (hc : (front us).closes = true) :
    ∃ a, Reads .expression ts a us := by
  have hK : Continues (· = us) := continues_of_closes fun _ he => he ▸ hc
  obtain ⟨a, _, ha, rfl⟩ := (hn ts hlt _ hK).1 ⟨us, h, rfl⟩
  exact ⟨a, ha⟩

/-- An entry of an object is read from a list that begins with one. -/
theorem Complete.property {ts : List Token} (hK : Continues K) (h : Before .entry K ts)
    (hlt : ts.length < n) : ∃ a us, Reads .property ts a us ∧ K us := by
  obtain ⟨us, h, hus⟩ := h
  obtain ⟨vs, hkey, ha⟩ := Covers.entry_iff.mp h
  obtain ⟨key, hread, hk, _⟩ := reads_of_key hkey (by simp) (by simp)
  have := hkey.length_le
  obtain ⟨a, ws, ha, hws⟩ := (hn vs (by simp at this; omega) K hK).1 ⟨us, ha, hus⟩
  exact ⟨(key, a), ws, .property hread hk ha, hws⟩

end

/-- Whether the items of brackets can be read one by one. -/
structure Goal.Itemized (g : Goal) (n : Nat) : Prop where
  /-- An item begins like an operand. -/
  front : ∀ {ts us : List Token}, Covers g.form ts us → (front ts).opensOperand = true
  /-- An item with tokens behind it that end every expression is read. -/
  reads : ∀ {ts : List Token} {K : List Token → Prop}, ts.length < n → Continues K →
    Before g.form K ts → ∃ a us, Reads g ts a us ∧ K us

/-- Expressions are read as items of a list. -/
theorem Complete.itemized_expression {n : Nat} (hn : Complete n) :
    Goal.expression.Itemized n where
  front := Covers.front_of_expression
  reads := fun hlt hK h => (hn _ hlt _ hK).1 h

/-- Entries are read as items of a list. -/
theorem Complete.itemized_property {n : Nat} (hn : Complete n) : Goal.property.Itemized n where
  front := fun h => by
    obtain ⟨_, h, _⟩ := Covers.entry_iff.mp h
    exact Covers.front_of_key h
  reads := fun hlt hK h => hn.property hK h hlt

/-- A list with an item does not begin with a closing token. -/
theorem Goal.Itemized.front_ne_of_commas {g : Goal} {n : Nat} (hg : g.Itemized n)
    {ts us : List Token} (h : Covers (.commas g.form) ts us) {t : Token} (ht : t.closes = true) :
    Brace.front ts ≠ t := by
  obtain ⟨_, h, _⟩ := Covers.seq_iff.mp h
  obtain ⟨_, h, _⟩ := Covers.seq_iff.mp h
  rintro rfl
  exact nomatch (hg.front h).symm.trans (opensOperand_eq_false_of_closes ht)

/-- Behind an item of brackets stand the tokens `us` that end the items, or a comma and then those
tokens or more items. -/
inductive AfterItem (f : Form) (us : List Token) : List Token → Prop where
  /-- The item is the last one. -/
  | last : AfterItem f us us
  /-- There is a comma behind the last item. -/
  | trailingComma : AfterItem f us (.punct .comma :: us)
  /-- There are more items behind the comma. -/
  | more {ws : List Token} : Covers (.commas f) ws us → AfterItem f us (.punct .comma :: ws)

/-- Nothing greedy reading takes stands behind an item, where the list is closed. -/
theorem continues_afterItem {f : Form} {us : List Token} (h : (front us).closes = true) :
    Continues (AfterItem f us) :=
  continues_of_closes fun vs hvs => by
    cases hvs with
    | last => exact h
    | trailingComma => rfl
    | more _ => rfl

/-- Items begin with one item, behind which the list is closed or goes on. -/
theorem before_afterItem {f : Form} {ts us : List Token} (h : Covers (.commas f) ts us) :
    Before f (AfterItem f us) ts := by
  rcases Covers.commas_iff.mp h with h | h | ⟨vs, h, h'⟩
  · exact ⟨_, h, .last⟩
  · exact ⟨_, h, .trailingComma⟩
  · exact ⟨_, h, .more h'⟩

/-- Items with commas between them are read up to the bracket behind them. -/
theorem Goal.Itemized.items {g : Goal} {n : Nat} (hg : g.Itemized n) {stop : Punct}
    (hstop : (Token.punct stop).closes = true ∧ stop ≠ .comma) {ts us : List Token}
    (h : Covers (.commas g.form) ts (.punct stop :: us)) (hlt : ts.length < n) :
    ∃ as, Reads (.items stop g) ts as (.punct stop :: us) := by
  induction hk : ts.length using Nat.strongRecOn generalizing ts with
  | ind k ih =>
    have hK : Continues (AfterItem g.form (.punct stop :: us)) := continues_afterItem hstop.1
    obtain ⟨a, vs, ha, hvs⟩ := hg.reads hlt hK (before_afterItem h)
    have hle := ha.covers.length_lt hg.front
    cases hvs with
    | last => exact ⟨[a], .lastItem ha (Or.inl rfl)⟩
    | trailingComma => exact ⟨[a], .trailingComma hstop.2 ha rfl⟩
    | @more ws h' =>
      rw [List.length_cons] at hle
      obtain ⟨as, has⟩ := ih ws.length (by omega) h' (by omega) rfl
      exact ⟨a :: as, .nextItem hstop.2 ha (hg.front_ne_of_commas h' hstop.1) has⟩

/-- The items between brackets are read to the closing bracket, if there are any. -/
theorem Goal.Itemized.bracketed {g : Goal} {n : Nat} (hg : g.Itemized n) {stop : Punct}
    (hstop : (Token.punct stop).closes = true ∧ stop ≠ .comma) {ts us : List Token}
    (h : Covers (.optional (.commas g.form)) ts (.punct stop :: us)) (hlt : ts.length < n) :
    ∃ as, Reads (.bracketed stop g) ts as us := by
  rcases Covers.optional_iff.mp h with rfl | h
  · exact ⟨[], .noItems⟩
  · obtain ⟨as, has⟩ := hg.items hstop h hlt
    exact ⟨as, .someItems (hg.front_ne_of_commas h hstop.1) (hg.front_ne_of_commas h rfl) has⟩

/-- Behind a statement stand the tokens `us` that end the statements, or a semicolon and then more
statements. -/
inductive AfterStatement (us : List Token) : List Token → Prop where
  /-- The statement is the last one. -/
  | last : AfterStatement us us
  /-- There are more statements behind the semicolon. -/
  | more {ws : List Token} :
      Covers (.symbol .statements) ws us → AfterStatement us (.punct .semicolon :: ws)

/-- Nothing greedy reading takes stands behind a statement, where the sequence is closed. -/
theorem continues_afterStatement {us : List Token} (h : (front us).closes = true) :
    Continues (AfterStatement us) :=
  continues_of_closes fun vs hvs => by
    cases hvs with
    | last => exact h
    | more _ => rfl

/-- Statements are none, or a semicolon with statements behind it, or begin with an expression. -/
theorem Covers.statements_cases {ts us : List Token} (h : Covers (.symbol .statements) ts us) :
    ts = us ∨ (∃ vs, ts = .punct .semicolon :: vs ∧ Covers (.symbol .statements) vs us) ∨
      Before (.symbol .expression) (AfterStatement us) ts := by
  rcases Covers.statements_iff.mp h with rfl | ⟨vs, rfl, h'⟩ | h | ⟨vs, h, h'⟩
  · exact Or.inl rfl
  · exact Or.inr (Or.inl ⟨vs, rfl, h'⟩)
  · exact Or.inr (Or.inr ⟨us, h, .last⟩)
  · exact Or.inr (Or.inr ⟨_, h, .more h'⟩)

/-- An expression does not begin with a closing token. -/
theorem Before.front_ne_of_closes {K : List Token → Prop} {ts : List Token}
    (h : Before (.symbol .expression) K ts) {t : Token} (ht : t.closes = true) :
    front ts ≠ t := by
  obtain ⟨_, h, _⟩ := h
  rintro rfl
  exact nomatch h.front_of_expression.symm.trans (opensOperand_eq_false_of_closes ht)

section

variable {n : Nat} (hn : Complete n) {K : List Token → Prop}

include hn

/-- Statements are read up to the token behind them if it ends every expression. -/
theorem Complete.statements {ts us : List Token} {stop : Token}
    (hstop : stop = .punct .rightBrace ∨ stop = .eof) (hus : front us = stop)
    (h : Covers (.symbol .statements) ts us) (hlt : ts.length < n) :
    ∃ as, Reads (.statements stop) ts as us := by
  have hclose : stop.closes = true := by rcases hstop with rfl | rfl <;> rfl
  have hne : stop ≠ .punct .semicolon := by rcases hstop with rfl | rfl <;> simp
  -- The recursion is on the number of tokens, as a separator may be skipped without a statement.
  induction hk : ts.length using Nat.strongRecOn generalizing ts with
  | ind k ih =>
    rcases h.statements_cases with rfl | ⟨vs, rfl, h'⟩ | hbefore
    · exact ⟨[], .noStatements (hus ▸ hne) (Or.inl hus)⟩
    · rw [List.length_cons] at hk hlt
      obtain ⟨as, has⟩ := ih vs.length (by omega) h' (by omega) rfl
      exact ⟨as, .skip has⟩
    · obtain ⟨a, vs, ha, hvs⟩ :=
        (hn ts hlt _ (continues_afterStatement (hus ▸ hclose))).1 hbefore
      have hle := ha.covers.length_lt Covers.front_of_expression
      have hfront := hbefore.front_ne_of_closes hclose
      -- What is left is the end of the sequence or a separator.
      cases hvs with
      | last => exact ⟨[a], .lastStatement hfront ha hus⟩
      | @more ws h' =>
        rw [List.length_cons] at hle
        obtain ⟨as, has⟩ := ih ws.length (by omega) h' (by omega) rfl
        exact ⟨a :: as, .nextStatement hfront hne ha has⟩

/-- The parts of a template are read to its closing quote. -/
theorem Complete.parts {ts us : List Token} (h : Covers .parts ts (.punct .backquote :: us))
    (hlt : ts.length < n) : ∃ found, Reads .parts ts found (.punct .backquote :: us) := by
  induction hk : ts.length using Nat.strongRecOn generalizing ts with
  | ind k ih =>
    rcases Covers.parts_iff.mp h with rfl | ⟨s, vs, rfl, hp⟩ | ⟨vs, ws, rfl, hs, hp⟩
    · exact ⟨[], .partsEnd⟩
    · rw [List.length_cons] at hk hlt
      obtain ⟨found, hfound⟩ := ih vs.length (by omega) hp (by omega) rfl
      exact ⟨_, .text hfound⟩
    · rw [List.length_cons] at hk hlt
      have := hs.length_le
      rw [List.length_cons] at this
      obtain ⟨as, has⟩ := hn.statements (Or.inl rfl) rfl hs (by omega)
      obtain ⟨found, hfound⟩ := ih ws.length (by omega) hp (by omega) rfl
      exact ⟨_, .interpolation has hfound⟩

/-- A branch is read from a list that begins with one. -/
theorem Complete.branch {ts : List Token} (hK : Continues K)
    (h : Before (.symbol .branch) K ts) (hlt : ts.length < n) :
    ∃ a us, Reads .branch ts a us ∧ K us := by
  obtain ⟨us, h, hus⟩ := h
  rcases Covers.branch_iff.mp h with ⟨vs, rfl, hs⟩ | ⟨hne, he⟩
  · rw [List.length_cons] at hlt
    obtain ⟨as, has⟩ := hn.statements (Or.inl rfl) rfl hs (by omega)
    exact ⟨_, us, .block has, hus⟩
  · obtain ⟨a, vs, ha, hvs⟩ := (hn ts hlt K hK).1 ⟨us, he, hus⟩
    exact ⟨a, vs, .bareBranch hne ha, hvs⟩

/-- A branch is read greedily: also if the derivation leaves its word to an outer conditional. -/
theorem Complete.branchAfter {k : Keyword} (hk : k ≠ .if_) {ts : List Token} (hK : Continues K)
    (h : Before (.branchAfter k) K ts) (hlt : ts.length < n) :
    ∃ a us, Reads (.branchAfter k) ts a us ∧ K us := by
  by_cases hf : front ts = .keyword k
  · have hb : ∃ us, ts = .keyword k :: us ∧ Before (.symbol .branch) K us := by
      rcases Before.branchAfter_iff.mp h with h | h
      · cases ts with
        | nil => cases hf
        | cons t us =>
          obtain rfl : t = .keyword k := hf
          exact ⟨us, rfl, hK.branch hk h⟩
      · exact h
    obtain ⟨us, rfl, hb⟩ := hb
    rw [List.length_cons] at hlt
    obtain ⟨a, vs, ha, hvs⟩ := hn.branch hK hb (by omega)
    exact ⟨some a, vs, .someBranch ha, hvs⟩
  · rcases Before.branchAfter_iff.mp h with h | ⟨us, rfl, _⟩
    · exact ⟨none, ts, .noBranch hf, h⟩
    · exact absurd rfl hf

/-- A primary is read from a list that begins with one. -/
theorem Complete.primary {ts : List Token} (hK : Continues K)
    (h : Before (.symbol .primary) K ts) (hle : ts.length ≤ n) :
    ∃ a us, Reads .primary ts a us ∧ K us := by
  obtain ⟨us, h, hus⟩ := h
  rcases Covers.primary_iff.mp h with ⟨t, ht, rfl⟩ | ⟨vs, rfl, hc⟩ | ⟨vs, rfl, hc⟩ |
    ⟨vs, rfl, hc⟩ | ⟨vs, rfl, hc⟩ | ⟨vs, ws, xs, rfl, hc, hthen, helse⟩ <;>
    rw [List.length_cons] at hle
  · obtain ⟨a, ha⟩ := isLiteral_iff.mp ht
    exact ⟨a, us, .literal ha, hus⟩
  · obtain ⟨a, ha⟩ := hn.expression_to hc (by omega) rfl
    exact ⟨a, us, .grouped ha, hus⟩
  · obtain ⟨as, has⟩ := hn.itemized_expression.bracketed ⟨rfl, by simp⟩ hc (by omega)
    exact ⟨_, us, .array has, hus⟩
  · obtain ⟨ps, hps⟩ := hn.itemized_property.bracketed ⟨rfl, by simp⟩ hc (by omega)
    exact ⟨_, us, .object hps, hus⟩
  · obtain ⟨found, hfound⟩ := hn.parts hc (by omega)
    exact ⟨_, us, .template hfound, hus⟩
  · -- The words of both branches can stand behind the condition.
    have hbefore : Before (.symbol .expression)
        (Before (.branchAfter .then_) (Before (.branchAfter .else_) K)) vs :=
      ⟨ws, hc, xs, hthen, us, helse, hus⟩
    obtain ⟨a, ws', ha, hws⟩ := (hn vs (by omega) _ hK.branchAfter.branchAfter).1 hbefore
    have hle₁ := ha.covers.length_le
    obtain ⟨b, xs', hb, hxs⟩ := hn.branchAfter (by simp) hK.branchAfter hws (by omega)
    have hle₂ := hb.covers.length_le
    obtain ⟨d, ys, hd, hys⟩ := hn.branchAfter (by simp) hK hxs (by omega)
    exact ⟨_, ys, .conditional ha hb hd, hys⟩

/-- All calls and indices are read. -/
theorem Complete.suffixes (a : Node) {ts : List Token} (hK : Continues K)
    (h : Before (.many (.symbol .suffix)) K ts) (hle : ts.length ≤ n) :
    ∃ b us, Reads (.suffixes a) ts b us ∧ K us := by
  induction hk : ts.length using Nat.strongRecOn generalizing ts a with
  | ind k ih =>
    -- A bracket in front is always taken, whatever the derivation does with it.
    by_cases hf : front ts = .punct .leftParen ∨ front ts = .punct .leftBracket
    · obtain ⟨us, hs, hus⟩ := hK.suffixes.suffix hf h
      rcases Covers.suffix_iff.mp hs with ⟨vs, rfl, hi⟩ | ⟨vs, rfl, hi⟩ <;>
        rw [List.length_cons] at hle hk <;> have hle' := hi.length_le <;>
        rw [List.length_cons] at hle'
      · obtain ⟨as, has⟩ := hn.itemized_expression.bracketed ⟨rfl, by simp⟩ hi (by omega)
        obtain ⟨b, ws, hb, hws⟩ := ih us.length (by omega) (.call a as) hus (by omega) rfl
        exact ⟨b, ws, .call has hb, hws⟩
      · obtain ⟨c, hc⟩ := hn.expression_to hi (by omega) rfl
        obtain ⟨b, ws, hb, hws⟩ := ih us.length (by omega) (.member a c) hus (by omega) rfl
        exact ⟨b, ws, .index hc hb, hws⟩
    · rw [not_or] at hf
      refine ⟨a, ts, .suffixesEnd hf.1 hf.2, ?_⟩
      rcases Before.many_iff.mp h with h | ⟨us, h, _⟩
      · exact h
      · rcases Covers.suffix_iff.mp h with ⟨_, rfl, _⟩ | ⟨_, rfl, _⟩
        · exact absurd rfl hf.1
        · exact absurd rfl hf.2

/-- An operand is read from a list that begins with one. -/
theorem Complete.operand {ts : List Token} (hK : Continues K)
    (h : Before (.symbol .atom) K ts) (hle : ts.length ≤ n) :
    ∃ a us, Reads .operand ts a us ∧ K us := by
  obtain ⟨us, h, hus⟩ := h
  rcases Covers.atom_iff.mp h with ⟨t, vs, ht, rfl, ha⟩ | ⟨vs, hp, hs⟩
  · rw [List.length_cons] at hle
    obtain ⟨o, op, rfl, ho⟩ := isUnary_iff.mp ht
    obtain ⟨a, ws, ha, hws⟩ := (hn vs (by omega) K hK).2 ⟨us, ha, hus⟩
    exact ⟨_, ws, .unary ho ha, hws⟩
  · obtain ⟨a, ws, ha, hws⟩ := hn.primary hK.suffixes ⟨vs, hp, us, hs, hus⟩ hle
    obtain ⟨b, xs, hb, hxs⟩ := hn.suffixes a hK hws (Nat.le_trans ha.covers.length_le hle)
    exact ⟨b, xs, .plain ha hb, hxs⟩

/-- Operators are read as long as they bind strongly enough, whichever atoms and operators the
derivation has there. -/
theorem Complete.operators (threshold : Nat) (a : Node) {ts : List Token} (hK : Continues K)
    (h : Before .tail K ts) (hlt : ts.length < n) :
    ∃ b us, Reads (.operators threshold a) ts b us ∧ Before .tail K us ∧
      ∀ o k, binaryOperator? (front us) = some (o, k) → k ≤ threshold := by
  induction hk : ts.length using Nat.strongRecOn generalizing ts a threshold with
  | ind m ih =>
    -- The loop stops at an operator that binds too weakly, and it is then still in front of a tail.
    by_cases hend : ∀ o k, binaryOperator? (front ts) = some (o, k) → k ≤ threshold
    · exact ⟨a, ts, .operatorsEnd hend, h, hend⟩
    · obtain ⟨o, k, vs, rfl, hp, hlt'⟩ : ∃ o k vs, ts = .operator o :: vs ∧
          o.precedence? = some k ∧ threshold < k := by
        simp only [Classical.not_forall, Nat.not_le] at hend
        obtain ⟨o, k, ho, hlt'⟩ := hend
        obtain ⟨hf, hp⟩ := binaryOperator?_eq_some_iff.mp ho
        cases ts with
        | nil => cases hf
        | cons t vs => exact ⟨o, k, vs, congrArg (· :: vs) hf, hp, hlt'⟩
      have ho : o ≠ .assign := fun he => hK.tail.assign (he ▸ h)
      rw [List.length_cons] at hk hlt
      obtain ⟨b, us, hb, hus⟩ := (hn vs (by omega) _ hK.tail).2
        (hK.tail.operator (isBinary_of_precedence? hp ho) h)
      have hle := hb.covers.length_le
      -- The loop of the right operand and the one behind it both have fewer tokens.
      obtain ⟨c, ws, hc, hws, _⟩ := ih us.length (by omega) k b hus (by omega) rfl
      have hle' := hc.covers.length_le
      obtain ⟨d, xs, hd, hxs, hxend⟩ :=
        ih ws.length (by omega) threshold (combine o a c) hws (by omega) rfl
      exact ⟨d, xs, .fold hp hlt' (fun he => absurd he ho) hb hc hd, hxs, hxend⟩

/-- Behind all operators that are not assignments nothing of a chain is left. -/
theorem Complete.operators_all {threshold : Nat} (hthreshold : threshold ≤ 1) (a : Node)
    {ts : List Token} (hK : Continues K) (h : Before .tail K ts) (hlt : ts.length < n) :
    ∃ b us, Reads (.operators threshold a) ts b us ∧ K us := by
  obtain ⟨b, us, hb, hus, hend⟩ := hn.operators threshold a hK h hlt
  refine ⟨b, us, hb, ?_⟩
  rcases Before.tail_iff.mp hus with h | ⟨t, vs, ht, rfl, _⟩
  · exact h
  · obtain ⟨o, k, hp, hk⟩ := precedence?_of_isBinary ht
    have := hend o k hp
    omega

/-- An expression is read from a list that begins with one. -/
theorem Complete.expression {ts : List Token} (hK : Continues K)
    (h : Before (.symbol .expression) K ts) (hle : ts.length ≤ n) :
    ∃ a us, Reads .expression ts a us ∧ K us := by
  obtain ⟨us, h, hus⟩ := h
  rcases Covers.expression_iff.mp h with ⟨vs, ht, hc⟩ | hc
  -- An assignment: its target, the sign, and a chain of operands for the value.
  · obtain ⟨ws, ha, htail⟩ := Covers.chain_iff.mp hc
    obtain ⟨a, hread, _, hi⟩ := reads_of_key ht.key_of_target (by simp) (by simp)
    have hlt := ht.length_le
    rw [List.length_cons] at hlt
    obtain ⟨b, xs, hb, hxs⟩ := (hn vs (by omega) _ hK.tail).2 ⟨ws, ha, us, htail, hus⟩
    have hle₁ := hb.covers.length_le
    obtain ⟨c, ys, hc, hys⟩ := hn.operators_all (Nat.le_refl 1) b hK hxs (by omega)
    -- Nothing is left behind the value, so an assignment is never followed by an operator.
    have hle₂ := hc.covers.length_le
    obtain ⟨d, zs, hd, hzs⟩ := hn.operators_all (Nat.zero_le 1) (combine .assign a c) hK
      (Before.tail_iff.mpr (Or.inl hys)) (by omega)
    exact ⟨d, zs, .expression hread (.fold rfl Nat.zero_lt_one (fun _ => hi ht) hb hc hd), hzs⟩
  · obtain ⟨vs, ha, htail⟩ := Covers.chain_iff.mp hc
    obtain ⟨a, ws, ha, hws⟩ := hn.operand hK.tail ⟨vs, ha, us, htail, hus⟩ hle
    have hlt := ha.covers.length_lt Covers.front_of_atom
    obtain ⟨b, xs, hb, hxs⟩ := hn.operators_all (Nat.zero_le 1) a hK hws (by omega)
    exact ⟨b, xs, .expression ha hb, hxs⟩

end

/-- Forms of every length are read. -/
theorem complete (n : Nat) : Complete n := by
  induction n with
  | zero => exact fun ts h => absurd h (Nat.not_lt_zero _)
  | succ n ih =>
    intro ts h K hK
    have hle := Nat.le_of_lt_succ h
    exact ⟨fun h => ih.expression hK h hle, fun h => ih.operand hK h hle⟩

/-! ## Programs -/

/-- A list of tokens is read as a program exactly if it has the form of one. -/
theorem readsProgram_iff_derives {ts : List Token} :
    (∃ n, ReadsProgram ts n) ↔ Derives (.symbol .program) ts := by
  have hprogram : Derives (.symbol .program) ts ↔ Covers (.symbol .statements) ts [] := by
    rw [derives_iff_covers, Covers.symbol_iff]
    rfl
  rw [hprogram]
  constructor
  · rintro ⟨_, body, h, _⟩
    exact h.covers
  · intro h
    obtain ⟨body, hbody⟩ := (complete _).statements (Or.inr rfl) rfl h (Nat.lt_succ_self _)
    exact ⟨_, body, hbody, rfl⟩

/-- A source is parsed exactly if its lexer comes to the end of it without an error and the tokens
form a program. -/
theorem parse_succeeds_iff_derives (source : String) :
    (∃ n, parse source = .ok n) ↔
      ∃ ts, (Lexer.ofString source).Yields ts ∧ Derives (.symbol .program) ts := by
  constructor
  · rintro ⟨n, h⟩
    obtain ⟨ts, hy, hr⟩ := parse_eq_ok_iff.mp h
    exact ⟨ts, hy, readsProgram_iff_derives.mp ⟨n, hr⟩⟩
  · rintro ⟨ts, hy, hd⟩
    obtain ⟨n, hr⟩ := readsProgram_iff_derives.mpr hd
    exact ⟨n, parse_eq_ok_iff.mpr ⟨ts, hy, hr⟩⟩

end Brace
