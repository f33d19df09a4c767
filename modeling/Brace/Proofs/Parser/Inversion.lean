/-
# What each reading function can do

One statement for each function of the grammar: its result in terms of the results of the functions
that it calls.  Nothing else is used of the functions afterwards.
-/
import Brace.Proofs.Parser.Answer

namespace Brace.Parser

open Parsed

variable {n : Nat} {α : Type}

/-! ## Passing tokens -/

/-- Behind a token less is left to read. -/
theorem Passes.size_lt {s t : Parser} (h : s.Passes t) : t.size < s.size :=
  (gives_advance (u := ()) (h := h.1) |>.mpr h).lt

/-- Passing a token given by name. -/
theorem expect_andThen_gives {s u : Parser} {p : Punct} {b : α}
    {k : Unit → (t : Parser) → t.size < s.size → Parsed n α} :
    ((s.expect p).andThen k).Gives b u ↔
      s.current = .punct p ∧ ∃ t, ∃ h : s.Passes t, (k () t h.size_lt).Gives b u := by
  rw [gives_andThen]
  constructor
  · rintro ⟨_, t, _, he, hk⟩
    obtain ⟨hc, hp⟩ := gives_expect.mp he
    exact ⟨hc, t, hp, hk⟩
  · rintro ⟨hc, t, hp, hk⟩
    exact ⟨(), t, hp.size_lt, gives_expect.mpr ⟨hc, hp⟩, hk⟩

/-- Passing a token given by name as the last step. -/
theorem expect_andThen_done_gives {s u : Parser} {p : Punct} {a b : α}
    {hle : ∀ t : Parser, t.size < s.size → t.size < n} :
    ((s.expect p).andThen fun _ t h => .done a t (hle t h)).Gives b u ↔
      s.current = .punct p ∧ s.Passes u ∧ a = b := by
  rw [gives_andThen_done]
  constructor
  · rintro ⟨_, he, hb⟩
    obtain ⟨hc, hp⟩ := gives_expect.mp he
    exact ⟨hc, hp, hb⟩
  · rintro ⟨hc, hp, hb⟩
    exact ⟨(), gives_expect.mpr ⟨hc, hp⟩, hb⟩

/-- Passing the current token. -/
theorem advance_andThen_gives {s u : Parser} {hs : s.current ≠ .eof} {b : α}
    {k : Unit → (t : Parser) → t.size < s.size → Parsed n α} :
    ((s.advance hs).andThen k).Gives b u ↔
      ∃ t, ∃ h : s.Passes t, (k () t h.size_lt).Gives b u := by
  rw [gives_andThen]
  constructor
  · rintro ⟨_, t, _, he, hk⟩
    exact ⟨t, gives_advance.mp he, hk⟩
  · rintro ⟨t, hp, hk⟩
    exact ⟨(), t, hp.size_lt, gives_advance.mpr hp, hk⟩

/-! ## Items and statements -/

/-- Items: one of them, and behind it the end of the list or a comma with more items or none. -/
theorem gives_items {stop : Punct} {item : (t : Parser) → t.size < n → Parsed t.size α}
    {s t : Parser} {h : s.size < n} {as : List α} :
    (items stop item s h).Gives as t ↔
      ∃ a u, (item s h).Gives a u ∧
        ((u.current = .punct stop ∨ u.current = .eof) ∧ as = [a] ∧ t = u ∨
          ¬ (u.current = .punct stop ∨ u.current = .eof) ∧ u.current = .punct .comma ∧
            ∃ v, ∃ hv : v.size < n, u.Passes v ∧
              (v.current = .punct stop ∧ as = [a] ∧ t = v ∨
                v.current ≠ .punct stop ∧
                  ∃ bs, as = a :: bs ∧ (items stop item v hv).Gives bs t)) := by
  -- From the function to its steps, and back.
  rw [items, gives_andThen]
  constructor
  · rintro ⟨a, u, hu, ha, h'⟩
    refine ⟨a, u, ha, ?_⟩
    split at h'
    · next hc =>
      obtain ⟨rfl, rfl⟩ := (gives_done _).mp h'
      exact Or.inl ⟨hc, rfl, rfl⟩
    · next hc =>
      obtain ⟨hcomma, v, hp, h'⟩ := expect_andThen_gives.mp h'
      refine Or.inr ⟨hc, hcomma, v, by have := hp.size_lt; omega, hp, ?_⟩
      split at h'
      · next hv =>
        obtain ⟨rfl, rfl⟩ := (gives_done _).mp h'
        exact Or.inl ⟨hv, rfl, rfl⟩
      · next hv =>
        obtain ⟨bs, hb, rfl⟩ := gives_andThen_done.mp h'
        exact Or.inr ⟨hv, bs, rfl, hb⟩
  · rintro ⟨a, u, ha, ⟨hc, rfl, rfl⟩ | ⟨hc, hcomma, v, hv, hp, h'⟩⟩
    · refine ⟨a, t, ha.lt, ha, ?_⟩
      rw [if_pos hc]
      simp
    · refine ⟨a, u, ha.lt, ha, ?_⟩
      rw [if_neg hc, expect_andThen_gives]
      refine ⟨hcomma, v, hp, ?_⟩
      obtain ⟨hs, rfl, rfl⟩ | ⟨hs, bs, rfl, hb⟩ := h'
      · rw [if_pos hs]
        simp
      · rw [if_neg hs, gives_andThen_done]
        exact ⟨bs, hb, rfl⟩

/-- Items between brackets: the opening bracket, no items or some, the closing bracket. -/
theorem gives_delimited {start stop : Punct} {s t : Parser}
    {item : (t : Parser) → t.size < s.size → Parsed t.size α} {as : List α} :
    (delimited start stop s item).Gives as t ↔
      s.current = .punct start ∧ ∃ u, ∃ h : s.Passes u, ∃ v,
        ((u.current = .punct stop ∨ u.current = .eof) ∧ as = [] ∧ v = u ∨
          ¬ (u.current = .punct stop ∨ u.current = .eof) ∧
            (items stop item u h.size_lt).Gives as v) ∧
        v.current = .punct stop ∧ v.Passes t := by
  rw [delimited, expect_andThen_gives]
  constructor
  · rintro ⟨hs, u, hu, h'⟩
    obtain ⟨bs, v, hv, hb, h'⟩ := gives_andThen.mp h'
    obtain ⟨hstop, hw, rfl⟩ := expect_andThen_done_gives.mp h'
    refine ⟨hs, u, hu, v, ?_, hstop, hw⟩
    split at hb
    · next hc =>
      obtain ⟨rfl, rfl⟩ := (gives_done _).mp hb
      exact Or.inl ⟨hc, rfl, rfl⟩
    · next hc => exact Or.inr ⟨hc, gives_weaken.mp hb⟩
  · rintro ⟨hs, u, hu, v, hb, hc, hw⟩
    refine ⟨hs, u, hu, gives_andThen.mpr ?_⟩
    have lt : v.size < s.size := by
      have := hu.size_lt
      obtain ⟨-, -, rfl⟩ | ⟨-, hb⟩ := hb
      · exact this
      · have := hb.lt
        omega
    refine ⟨as, v, lt, ?_, expect_andThen_done_gives.mpr ⟨hc, hw, rfl⟩⟩
    obtain ⟨hc, rfl, rfl⟩ | ⟨hc, hb⟩ := hb
    · rw [if_pos hc]
      simp
    · rw [if_neg hc]
      exact gives_weaken.mpr hb

/-- Separators are passed as long as there are any. -/
theorem gives_skipSemicolons {s t : Parser} :
    (skipSemicolons s).Gives () t ↔
      s.current ≠ .punct .semicolon ∧ t = s ∨
        s.current = .punct .semicolon ∧ ∃ u, s.Passes u ∧ (skipSemicolons u).Gives () t := by
  rw [skipSemicolons]
  split
  · next hc =>
    rw [advance_andThen_gives]
    simp [hc]
  · next hc => simp [hc, eq_comm]

/-- Statements: behind the separators the end, or one of them with the end or a separator behind it.
-/
theorem gives_statements {stop : Token}
    {statement : (t : Parser) → t.size < n → Parsed t.size Node} {s t : Parser} {h : s.size < n}
    {as : List Node} :
    (statements stop statement s h).Gives as t ↔
      ∃ u, ∃ hu : u.size < n, (skipSemicolons s).Gives () u ∧
        ((u.current = stop ∨ u.current = .eof) ∧ as = [] ∧ t = u ∨
          ¬ (u.current = stop ∨ u.current = .eof) ∧
            ∃ a v, (statement u hu).Gives a v ∧
              (v.current = stop ∧ as = [a] ∧ t = v ∨
                v.current ≠ stop ∧ v.current = .punct .semicolon ∧
                  ∃ w, ∃ hw : w.size < n, v.Passes w ∧
                    ∃ bs, as = a :: bs ∧ (statements stop statement w hw).Gives bs t)) := by
  rw [statements, gives_andThen]
  constructor
  · rintro ⟨_, u, hu, hskip, h'⟩
    refine ⟨u, by omega, hskip, ?_⟩
    split at h'
    · next hc =>
      obtain ⟨rfl, rfl⟩ := (gives_done _).mp h'
      exact Or.inl ⟨hc, rfl, rfl⟩
    · next hc =>
      obtain ⟨a, v, hv, ha, h'⟩ := gives_andThen.mp h'
      refine Or.inr ⟨hc, a, v, ha, ?_⟩
      split at h'
      · next hstop =>
        obtain ⟨rfl, rfl⟩ := (gives_done _).mp h'
        exact Or.inl ⟨hstop, rfl, rfl⟩
      · next hstop =>
        obtain ⟨hsemi, w, hw, h'⟩ := expect_andThen_gives.mp h'
        obtain ⟨bs, hb, rfl⟩ := gives_andThen_done.mp h'
        exact Or.inr ⟨hstop, hsemi, w, by have := hw.size_lt; omega, hw, bs, rfl, hb⟩
  · rintro ⟨u, hu, hskip, h'⟩
    refine ⟨(), u, hskip.lt, hskip, ?_⟩
    obtain ⟨hc, rfl, rfl⟩ | ⟨hc, a, v, ha, h'⟩ := h'
    · rw [if_pos hc]
      simp
    · rw [if_neg hc, gives_andThen]
      refine ⟨a, v, ha.lt, ha, ?_⟩
      obtain ⟨hstop, rfl, rfl⟩ | ⟨hstop, hsemi, w, hw, hp, bs, rfl, hb⟩ := h'
      · rw [if_pos hstop]
        simp
      · rw [if_neg hstop, expect_andThen_gives]
        exact ⟨hsemi, w, hp, gives_andThen_done.mpr ⟨bs, hb, rfl⟩⟩

/-! ## Operands -/

/-- Parentheses: the opening one, an expression, the closing one. -/
theorem gives_grouped {s t : Parser} {r : Below s.size} {a : Node} :
    (grouped s r).Gives a t ↔
      s.current = .punct .leftParen ∧ ∃ u, ∃ hu : s.Passes u, ∃ v,
        (r.expression u hu.size_lt).Gives a v ∧ v.current = .punct .rightParen ∧ v.Passes t := by
  rw [grouped, expect_andThen_gives]
  refine and_congr_right fun _ => exists_congr fun u => exists_congr fun hu => ?_
  rw [gives_andThen]
  constructor
  · rintro ⟨b, v, _, hb, h⟩
    obtain ⟨hc, hw, rfl⟩ := expect_andThen_done_gives.mp h
    exact ⟨v, hb, hc, hw⟩
  · rintro ⟨v, hb, hc, hw⟩
    exact ⟨a, v, hb.lt, hb, expect_andThen_done_gives.mpr ⟨hc, hw, rfl⟩⟩

/-- An entry: a key, a colon, an expression. -/
theorem gives_property {r : Below n} {s t : Parser} {h : s.size < n} {p : Node × Node} :
    (property r s h).Gives p t ↔
      ∃ key u, (r.operand s h).Gives key u ∧ key.isKey = true ∧ u.current = .punct .colon ∧
        ∃ v, ∃ hv : v.size < n, u.Passes v ∧
          ∃ a, p = (key, a) ∧ (r.expression v hv).Gives a t := by
  rw [property, gives_andThen]
  constructor
  · rintro ⟨key, u, hu, hkey, h'⟩
    split at h'
    · next hk =>
      obtain ⟨hc, v, hv, h'⟩ := expect_andThen_gives.mp h'
      obtain ⟨a, ha, rfl⟩ := gives_andThen_done.mp h'
      exact ⟨key, u, hkey, hk, hc, v, by have := hv.size_lt; omega, hv, a, rfl, ha⟩
    · exact absurd h' gives_fail
  · rintro ⟨key, u, hkey, hk, hc, v, hv, hp, a, rfl, ha⟩
    refine ⟨key, u, hkey.lt, hkey, ?_⟩
    rw [if_pos hk, expect_andThen_gives]
    exact ⟨hc, v, hp, gives_andThen_done.mpr ⟨a, ha, rfl⟩⟩

/-- A block: a brace, statements, a brace. -/
theorem gives_block {r : Below n} {s t : Parser} {h : s.size < n} {a : Node} :
    (block r s h).Gives a t ↔
      s.current = .punct .leftBrace ∧ ∃ u, ∃ hu : u.size < n, s.Passes u ∧ ∃ body v,
        (statements (.punct .rightBrace) r.expression u hu).Gives body v ∧
          v.current = .punct .rightBrace ∧ v.Passes t ∧ a = .block body := by
  rw [block, expect_andThen_gives]
  refine and_congr_right fun _ => ?_
  constructor
  · rintro ⟨u, hu, h'⟩
    obtain ⟨body, v, _, hb, h'⟩ := gives_andThen.mp h'
    obtain ⟨hc, hw, rfl⟩ := expect_andThen_done_gives.mp h'
    exact ⟨u, by have := hu.size_lt; omega, hu, body, v, hb, hc, hw, rfl⟩
  · rintro ⟨u, hu, hp, body, v, hb, hc, hw, rfl⟩
    refine ⟨u, hp, gives_andThen.mpr ⟨body, v, hb.lt, hb, ?_⟩⟩
    exact expect_andThen_done_gives.mpr ⟨hc, hw, rfl⟩

/-- A branch: a block where a brace stands, otherwise an expression. -/
theorem gives_branch {r : Below n} {s t : Parser} {h : s.size < n} {a : Node} :
    (branch r s h).Gives a t ↔
      (s.current = .punct .leftBrace ∧ (block r s h).Gives a t) ∨
        (s.current ≠ .punct .leftBrace ∧ (r.expression s h).Gives a t) := by
  unfold branch
  split
  · next hc => simp [hc]
  · next hc => simp [hc]

/-- A branch behind its word, if the word is there. -/
theorem gives_branchAfter {k : Keyword} {r : Below n} {s t : Parser} {h : s.size < n}
    {b : Option Node} :
    (branchAfter k r s h).Gives b t ↔
      (s.current ≠ .keyword k ∧ b = none ∧ t = s) ∨
        (s.current = .keyword k ∧ ∃ u, ∃ hu : u.size < n, s.Passes u ∧
          ∃ a, b = some a ∧ (branch r u hu).Gives a t) := by
  unfold branchAfter
  split
  · next hc =>
    rw [advance_andThen_gives]
    constructor
    · rintro ⟨u, hu, h'⟩
      obtain ⟨a, ha, rfl⟩ := gives_andThen_done.mp h'
      exact Or.inr ⟨hc, u, by have := hu.size_lt; omega, hu, a, rfl, ha⟩
    · rintro (⟨hne, -⟩ | ⟨-, u, hu, hp, a, rfl, ha⟩)
      · exact absurd hc hne
      · exact ⟨u, hp, gives_andThen_done.mpr ⟨a, ha, rfl⟩⟩
  · next hc =>
    simp only [gives_done, ne_eq, hc, not_false_eq_true, true_and, false_and, or_false]
    exact and_congr eq_comm eq_comm

/-- A conditional: its word, a condition, and two branches that may be missing. -/
theorem gives_conditional {s t : Parser} {r : Below s.size} {hs : s.current ≠ .eof} {a : Node} :
    (conditional s r hs).Gives a t ↔
      ∃ u, ∃ hu : s.Passes u, ∃ test v, (r.expression u hu.size_lt).Gives test v ∧
        ∃ hv : v.size < s.size, ∃ b w, (branchAfter .then_ r v hv).Gives b w ∧
          ∃ hw : w.size < s.size, ∃ c, (branchAfter .else_ r w hw).Gives c t ∧
            a = .conditional test b c := by
  rw [conditional, advance_andThen_gives]
  refine exists_congr fun u => exists_congr fun hu => ?_
  have := hu.size_lt
  rw [gives_andThen]
  constructor
  · rintro ⟨test, v, hv, htest, h⟩
    obtain ⟨b, w, hw, hb, h⟩ := gives_andThen.mp h
    obtain ⟨c, hc, rfl⟩ := gives_andThen_done.mp h
    exact ⟨test, v, htest, by omega, b, w, hb, by omega, c, hc, rfl⟩
  · rintro ⟨test, v, htest, hv, b, w, hb, hw, c, hc, rfl⟩
    refine ⟨test, v, htest.lt, htest, gives_andThen.mpr ⟨b, w, hb.lt, hb, ?_⟩⟩
    exact gives_andThen_done.mpr ⟨c, hc, rfl⟩

/-! ## Templates -/

/-- The parts of a template: none in front of the closing quote, or a text or an interpolation with
more parts. -/
theorem gives_parts {r : Below n} {s t : Parser} {h : s.size < n} {found : List TemplatePart} :
    (parts r s h).Gives found t ↔
      (s.current = .punct .backquote ∧ found = [] ∧ t = s) ∨
        (∃ text rest, s.current = .string text ∧ found = .text text :: rest ∧
          ∃ u, ∃ hu : u.size < n, s.Passes u ∧ (parts r u hu).Gives rest t) ∨
        (s.current = .punct .leftBrace ∧ ∃ u, ∃ hu : u.size < n, s.Passes u ∧
          ∃ body v, (statements (.punct .rightBrace) r.expression u hu).Gives body v ∧
            v.current = .punct .rightBrace ∧ ∃ w, ∃ hw : w.size < n, v.Passes w ∧
              ∃ rest, found = .expression (Node.ofStatements .block body) :: rest ∧
                (parts r w hw).Gives rest t) := by
  rw [parts]
  split
  · next hs => simp [hs, eq_comm]
  · next text hs =>
    rw [advance_andThen_gives]
    constructor
    · rintro ⟨u, hu, h'⟩
      obtain ⟨rest, hr, rfl⟩ := gives_andThen_done.mp h'
      exact Or.inr (Or.inl ⟨text, rest, hs, rfl, u, by have := hu.size_lt; omega, hu, hr⟩)
    · rintro (⟨hc, -⟩ | ⟨text', rest, hc, rfl, u, hu, hp, hr⟩ | ⟨hc, -⟩)
      · cases hs.symm.trans hc
      · cases hs.symm.trans hc
        exact ⟨u, hp, gives_andThen_done.mpr ⟨rest, hr, rfl⟩⟩
      · cases hs.symm.trans hc
  · next hs =>
    rw [advance_andThen_gives]
    constructor
    · rintro ⟨u, hu, h'⟩
      obtain ⟨body, v, hv, hb, h'⟩ := gives_andThen.mp h'
      obtain ⟨hc, w, hw, h'⟩ := expect_andThen_gives.mp h'
      obtain ⟨rest, hr, rfl⟩ := gives_andThen_done.mp h'
      have hlu := hu.size_lt
      have hlw := hw.size_lt
      exact Or.inr (Or.inr ⟨hs, u, by omega, hu, body, v, hb, hc, w, by omega, hw, rest, rfl, hr⟩)
    · rintro (⟨hc, -⟩ | ⟨text', rest, hc, -⟩ |
        ⟨-, u, hu, hp, body, v, hb, hc, w, hw, hq, rest, rfl, hr⟩)
      · cases hs.symm.trans hc
      · cases hs.symm.trans hc
      · refine ⟨u, hp, gives_andThen.mpr ⟨body, v, hb.lt, hb, ?_⟩⟩
        refine expect_andThen_gives.mpr ⟨hc, w, hq, ?_⟩
        exact gives_andThen_done.mpr ⟨rest, hr, rfl⟩
  · next h1 h2 h3 =>
    constructor
    · intro h'
      exact absurd h' gives_fail
    · rintro (⟨hc, -⟩ | ⟨text', rest, hc, -⟩ | ⟨hc, -⟩)
      · exact absurd hc h1
      · exact absurd hc (h2 text')
      · exact absurd hc h3

/-- A template: a quote, its parts, a quote. -/
theorem gives_template {s t : Parser} {r : Below s.size} {a : Node} :
    (template s r).Gives a t ↔
      s.current = .punct .backquote ∧ ∃ u, ∃ hu : s.Passes u, ∃ found v,
        (parts r u hu.size_lt).Gives found v ∧ v.current = .punct .backquote ∧ v.Passes t ∧
          a = .template (templateParts found).1 (templateParts found).2 := by
  rw [template, expect_andThen_gives]
  refine and_congr_right fun _ => exists_congr fun u => exists_congr fun hu => ?_
  rw [gives_andThen]
  constructor
  · rintro ⟨found, v, _, hf, h⟩
    obtain ⟨hc, hw, rfl⟩ := expect_andThen_done_gives.mp h
    exact ⟨found, v, hf, hc, hw, rfl⟩
  · rintro ⟨found, v, hf, hc, hw, rfl⟩
    exact ⟨found, v, hf.lt, hf, expect_andThen_done_gives.mpr ⟨hc, hw, rfl⟩⟩

/-! ## Calls and indices -/

/-- A primary: the first token says which construct it is. -/
theorem gives_primary {s t : Parser} {r : Below s.size} {a : Node} :
    (primary s r).Gives a t ↔
      (s.current = .punct .leftParen ∧ (grouped s r).Gives a t) ∨
        (s.current = .punct .leftBrace ∧
          ∃ ps, (delimited .leftBrace .rightBrace s (property r)).Gives ps t ∧ .object ps = a) ∨
        (s.current = .punct .leftBracket ∧
          ∃ as, (delimited .leftBracket .rightBracket s r.expression).Gives as t ∧ .array as = a) ∨
        (s.current = .punct .backquote ∧ (template s r).Gives a t) ∨
        (s.current = .keyword .if_ ∧ ∃ hs, (conditional s r hs).Gives a t) ∨
        (literal? s.current = some a ∧ s.Passes t) := by
  unfold primary
  split
  · next hs => simp [hs, literal?]
  · next hs => simp [hs, literal?, gives_map]
  · next hs => simp [hs, literal?, gives_map]
  · next hs => simp [hs, literal?]
  · next hs => simp [hs, literal?]
  · next h1 h2 h3 h4 h5 =>
    -- Nothing but a literal is left.
    simp only [eq_false h1, eq_false h2, eq_false h3, eq_false h4, eq_false h5, false_and, false_or]
    split
    · next b hb =>
      rw [gives_map]
      constructor
      · rintro ⟨_, hp, rfl⟩
        exact ⟨hb, gives_advance.mp hp⟩
      · rintro ⟨ha, hp⟩
        exact ⟨(), gives_advance.mpr hp, Option.some.inj (hb.symm.trans ha)⟩
    · next hb =>
      constructor
      · intro h
        exact absurd h gives_fail
      · rintro ⟨ha, -⟩
        cases hb.symm.trans ha

/-- An index: a bracket, an expression, a bracket. -/
theorem gives_index {r : Below n} {s t : Parser} {h : s.size ≤ n} {b : Node} :
    (index r s h).Gives b t ↔
      s.current = .punct .leftBracket ∧ ∃ v, ∃ hv : v.size < n, s.Passes v ∧ ∃ w,
        (r.expression v hv).Gives b w ∧ w.current = .punct .rightBracket ∧ w.Passes t := by
  rw [index, expect_andThen_gives]
  refine and_congr_right fun _ => exists_congr fun v => ?_
  constructor
  · rintro ⟨hp, h'⟩
    obtain ⟨c, w, _, hc, h'⟩ := gives_andThen.mp h'
    obtain ⟨he, hq, rfl⟩ := expect_andThen_done_gives.mp h'
    exact ⟨by have := hp.size_lt; omega, hp, w, hc, he, hq⟩
  · rintro ⟨hv, hp, w, hc, he, hq⟩
    exact ⟨hp, gives_andThen.mpr ⟨b, w, hc.lt, hc, expect_andThen_done_gives.mpr ⟨he, hq, rfl⟩⟩⟩

/-- Suffixes: none, a call with more of them, or an index with more of them. -/
theorem gives_suffixes {r : Below n} {a b : Node} {s t : Parser} {h : s.size ≤ n} :
    (suffixes r a s h).Gives b t ↔
      (s.current ≠ .punct .leftParen ∧ s.current ≠ .punct .leftBracket ∧ b = a ∧ t = s) ∨
        (s.current = .punct .leftParen ∧ ∃ as u, ∃ hu : u.size ≤ n,
          (delimited .leftParen .rightParen s fun t ht =>
            r.expression t (Nat.lt_of_lt_of_le ht h)).Gives as u ∧
              (suffixes r (.call a as) u hu).Gives b t) ∨
        (s.current = .punct .leftBracket ∧ ∃ v, ∃ hv : v.size < n, s.Passes v ∧
          ∃ c w, (r.expression v hv).Gives c w ∧ w.current = .punct .rightBracket ∧
            ∃ u, ∃ hu : u.size ≤ n, w.Passes u ∧ (suffixes r (.member a c) u hu).Gives b t) := by
  rw [suffixes]
  split
  · next hs =>
    rw [gives_andThen]
    constructor
    · rintro ⟨as, u, hu, has, h'⟩
      exact Or.inr (Or.inl ⟨hs, as, u, by omega, has, gives_weaken.mp h'⟩)
    · rintro (⟨hc, -⟩ | ⟨-, as, u, hu, has, h'⟩ | ⟨hc, -⟩)
      · exact absurd hs hc
      · exact ⟨as, u, has.lt, has, gives_weaken.mpr h'⟩
      · cases hs.symm.trans hc
  · next hs =>
    split
    · next hb =>
      rw [gives_andThen]
      constructor
      · rintro ⟨c, u, hu, hc, h'⟩
        obtain ⟨-, v, hv, hp, w, hd, he, hq⟩ := gives_index.mp hc
        exact Or.inr (Or.inr ⟨hb, v, hv, hp, c, w, hd, he, u, by omega, hq, gives_weaken.mp h'⟩)
      · rintro (⟨-, hc, -⟩ | ⟨hc, -⟩ | ⟨-, v, hv, hp, c, w, hc, he, u, hu, hq, h'⟩)
        · exact absurd hb hc
        · exact absurd hc hs
        · have hindex : (index r s h).Gives c u :=
            gives_index.mpr ⟨hb, v, hv, hp, w, hc, he, hq⟩
          exact ⟨c, u, hindex.lt, hindex, gives_weaken.mpr h'⟩
    · next hb =>
      rw [gives_done]
      simp only [hs, hb, ne_eq, not_false_eq_true, true_and, false_and, or_false]
      exact and_congr eq_comm eq_comm

/-- An operand: a prefix operator with an operand, or a primary with suffixes. -/
theorem gives_operandWith {s t : Parser} {r : Below s.size} {a : Node} :
    (operandWith s r).Gives a t ↔
      (∃ op, unary? s.current = some op ∧ ∃ u, ∃ hu : s.Passes u,
        ∃ b, a = .unary op b ∧ (r.operand u hu.size_lt).Gives b t) ∨
        (unary? s.current = none ∧ ∃ b u, (primary s r).Gives b u ∧
          ∃ hu : u.size ≤ s.size, (suffixes r b u hu).Gives a t) := by
  unfold operandWith
  split
  · next op ho =>
    rw [advance_andThen_gives]
    constructor
    · rintro ⟨u, hu, h⟩
      obtain ⟨b, hb, rfl⟩ := gives_andThen_done.mp h
      exact Or.inl ⟨op, ho, u, hu, b, rfl, hb⟩
    · rintro (⟨op', ho', u, hu, b, rfl, hb⟩ | ⟨hn, -⟩)
      · cases ho.symm.trans ho'
        exact ⟨u, hu, gives_andThen_done.mpr ⟨b, hb, rfl⟩⟩
      · cases ho.symm.trans hn
  · next ho =>
    rw [gives_andThen]
    constructor
    · rintro ⟨b, u, hu, hb, h⟩
      exact Or.inr ⟨ho, b, u, hb, by omega, gives_weaken.mp h⟩
    · rintro (⟨op, ho', -⟩ | ⟨-, b, u, hb, hu, h⟩)
      · cases ho.symm.trans ho'
      · exact ⟨b, u, hb.lt, hb, gives_weaken.mpr h⟩

/-! ## Operators -/

/-- An operator that may stand between operands is a token with its precedence. -/
theorem binaryOperator?_eq_some_iff {t : Token} {o : Operator} {k : Nat} :
    binaryOperator? t = some (o, k) ↔ t = .operator o ∧ o.precedence? = some k := by
  unfold binaryOperator?
  split
  · next p =>
    rw [Option.map_eq_some_iff]
    constructor
    · rintro ⟨j, hj, he⟩
      cases he
      exact ⟨rfl, hj⟩
    · rintro ⟨he, hk⟩
      cases he
      exact ⟨k, hk, rfl⟩
  · next h =>
    constructor
    · intro he
      cases he
    · rintro ⟨rfl, -⟩
      exact absurd rfl (h o)

/-- What is left behind an operand and what it takes is less than what was left in front. -/
theorem size_lt_behind_operand {s t u v : Parser} (ht : t.size < s.size) (hu : u.size < t.size)
    (hv : v.size < u.size + 1) : v.size < s.size := by omega

/-- Reading operators stops where none is that binds strongly enough, fails at an assignment to
something other than a variable, and passes the operator otherwise. -/
theorem operators_cases (r : Below n) (threshold : Nat) (a : Node) (s : Parser) (h : s.size < n) :
    ((∀ o k, binaryOperator? s.current = some (o, k) → k ≤ threshold) ∧
        operators r threshold a s h = .done a s (Nat.lt_succ_self _)) ∨
      ∃ o k, s.current = .operator o ∧ o.precedence? = some k ∧ threshold < k ∧
        ((o = .assign ∧ a.isIdentifier = false ∧
            operators r threshold a s h = .fail (s.error (.badTarget a)) s) ∨
          (o = .assign → a.isIdentifier = true) ∧ ∃ hs, operators r threshold a s h =
            (s.advance hs).andThen fun _ t ht =>
              (r.operand t (Nat.lt_trans ht h)).andThen fun b u hu =>
                (operators r k b u (Nat.lt_trans hu (Nat.lt_trans ht h))).andThen fun c v hv =>
                  (operators r threshold (combine o a c) v
                    (Nat.lt_trans (size_lt_behind_operand ht hu hv) h)).weaken
                      (Nat.succ_le_succ (Nat.le_of_lt (size_lt_behind_operand ht hu hv)))) := by
  -- No operator, one that binds too weakly, a bad target, or one more round of the loop.
  rw [operators]
  split
  · next ho => exact Or.inl ⟨fun o k hk => (by cases ho.symm.trans hk), rfl⟩
  next o k ho =>
  obtain ⟨hc, hk⟩ := binaryOperator?_eq_some_iff.mp ho
  split
  · next hle =>
    refine Or.inl ⟨fun o' k' hk' => ?_, rfl⟩
    cases ho.symm.trans hk'
    exact hle
  next hle =>
  have hlt : threshold < k := Nat.not_le.mp hle
  split
  · next hbad => exact Or.inr ⟨o, k, hc, hk, hlt, Or.inl ⟨hbad.1, hbad.2, rfl⟩⟩
  · next hgood =>
    have htarget : o = .assign → a.isIdentifier = true := fun he =>
      (Bool.not_eq_false _).mp fun hi => hgood ⟨he, hi⟩
    have hs : s.current ≠ .eof := by
      rw [hc]
      simp
    exact Or.inr ⟨o, k, hc, hk, hlt, Or.inr ⟨htarget, hs, rfl⟩⟩

/-- Operators: the loop stops, or it folds one operator with its operand and goes on. -/
theorem gives_operators {r : Below n} {threshold : Nat} {a d : Node} {s t : Parser}
    {h : s.size < n} :
    (operators r threshold a s h).Gives d t ↔
      ((∀ o k, binaryOperator? s.current = some (o, k) → k ≤ threshold) ∧ d = a ∧ t = s) ∨
        ∃ o k, s.current = .operator o ∧ o.precedence? = some k ∧ threshold < k ∧
          (o = .assign → a.isIdentifier = true) ∧ ∃ u, ∃ hu : u.size < n, s.Passes u ∧
            ∃ b v, (r.operand u hu).Gives b v ∧ ∃ hv : v.size < n,
              ∃ c w, (operators r k b v hv).Gives c w ∧ ∃ hw : w.size < n,
                (operators r threshold (combine o a c) w hw).Gives d t := by
  -- In each case the alternatives that are about another operator, or about none, fall away.
  rcases operators_cases r threshold a s h with
    ⟨hstop, heq⟩ | ⟨o, k, hc, hk, hlt, ⟨ho, hi, heq⟩ | ⟨hgood, hs, heq⟩⟩
  · rw [heq, gives_done]
    constructor
    · rintro ⟨rfl, rfl⟩
      exact Or.inl ⟨hstop, rfl, rfl⟩
    · rintro (⟨-, rfl, rfl⟩ | ⟨o, k, hc, hk, hlt, -⟩)
      · exact ⟨rfl, rfl⟩
      · have := hstop o k (binaryOperator?_eq_some_iff.mpr ⟨hc, hk⟩)
        omega
  · rw [heq]
    constructor
    · intro h'
      exact absurd h' gives_fail
    · rintro (⟨hstop, -⟩ | ⟨o', k', hc', -, -, ha, -⟩)
      · have := hstop o k (binaryOperator?_eq_some_iff.mpr ⟨hc, hk⟩)
        omega
      · cases hc.symm.trans hc'
        exact absurd (hi.symm.trans (ha ho)) Bool.noConfusion
  · rw [heq, advance_andThen_gives]
    constructor
    · rintro ⟨u, hu, h'⟩
      obtain ⟨b, v, hv, hb, h'⟩ := gives_andThen.mp h'
      obtain ⟨c, w, hw, hcw, h'⟩ := gives_andThen.mp h'
      have hlu := hu.size_lt
      exact Or.inr ⟨o, k, hc, hk, hlt, hgood, u, by omega, hu, b, v, hb, by omega, c, w, hcw,
        by omega, gives_weaken.mp h'⟩
    · rintro (⟨hstop, -⟩ | ⟨o', k', hc', hk', -, -, u, hu, hp, b, v, hb, hv, c, w, hcw, hw, h'⟩)
      · have := hstop o k (binaryOperator?_eq_some_iff.mpr ⟨hc, hk⟩)
        omega
      · cases hc.symm.trans hc'
        cases hk.symm.trans hk'
        refine ⟨u, hp, gives_andThen.mpr ⟨b, v, hb.lt, hb, ?_⟩⟩
        exact gives_andThen.mpr ⟨c, w, hcw.lt, hcw, gives_weaken.mpr h'⟩

/-! ## Expressions -/

/-- The reading functions of the grammar, for states of any size. -/
def full (n : Nat) : Below n := ⟨fun t _ => expression t, fun t _ => operand t⟩

/-- An operand below the bound of the parser. -/
theorem gives_operand {s t : Parser} {a : Node} :
    (operand s).Gives a t ↔ (operandWith s (full s.size)).Gives a t := by
  rw [operand, full]

/-- An expression: an operand and the loop of operators behind it. -/
theorem gives_expression {s t : Parser} {b : Node} :
    (expression s).Gives b t ↔
      ∃ a u, (operand s).Gives a u ∧ ∃ hu : u.size < s.size,
        (operators (full s.size) 0 a u hu).Gives b t := by
  rw [expression, expressionWith, gives_andThen]
  constructor
  · rintro ⟨a, u, hu, ha, h⟩
    exact ⟨a, u, gives_operand.mpr ha, hu, gives_weaken.mp h⟩
  · rintro ⟨a, u, ha, hu, h⟩
    exact ⟨a, u, hu, gives_operand.mp ha, gives_weaken.mpr h⟩

/-- A program: statements up to the end. -/
theorem gives_program {s t : Parser} {a : Node} :
    (program s).Gives a t ↔
      ∃ body, (statements (n := s.size + 1) .eof (fun t _ => expression t) s
        (Nat.lt_succ_self _)).Gives body t ∧ Node.ofStatements .program body = a := by
  rw [program, gives_map]

end Brace.Parser
