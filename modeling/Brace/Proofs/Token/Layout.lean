/-
# Layout

Layout is made of blanks and comments (`IsLayout`).  A lexer passes over it in front of a token
(`Scan.layout_of_isLayout`), and also over a comment that the end of the text leaves open; what
stands behind such a comment is read from inside it (`Scan.layout_true_eq_length_iff`).  Behind the
brace of an interpolation, blanks are taken together with the brace (`Scan.template_of_isLayout`).
-/
import Brace.Proofs.Token.Extends

namespace Brace

/-! ## Blanks and comments -/

/-- Blanks and closed comments. -/
inductive IsLayout : List Char → Prop where
  /-- Nothing at all. -/
  | nil : IsLayout []
  /-- A blank. -/
  | blank {c : Char} {cs : List Char} : Scan.isBlank c = true → IsLayout cs → IsLayout (c :: cs)
  /-- A comment, up to a number sign or the end of the line. -/
  | comment {text : List Char} {c : Char} {cs : List Char} :
      (∀ d ∈ text, d ≠ '#' ∧ d ≠ '\n') → c = '#' ∨ c = '\n' → IsLayout cs →
        IsLayout ('#' :: (text ++ c :: cs))

namespace Scan

/-- Whether a comment is open behind a character of layout. -/
def inComment (opened : Bool) (c : Char) : Bool :=
  if opened then c != '\n' && c != '#' else c == '#'

/-- A blank does not open a comment. -/
theorem inComment_of_isBlank {c : Char} (h : isBlank c = true) : inComment false c = false := by
  refine Bool.eq_false_iff.mpr fun hc => ?_
  obtain rfl : c = '#' := beq_iff_eq.mp hc
  cases h

variable {opened : Bool} {cs ds : List Char}

/-- Layout behind layout is read on from where the first part ends, inside a comment or not. -/
theorem layout_append (h : layout opened cs = cs.length) (ds : List Char) :
    layout opened (cs ++ ds) = cs.length + layout (cs.foldl inComment opened) ds := by
  fun_induction layout opened cs with
  | case1 => simp
  | case2 c cs ih =>
    rw [List.cons_append, layout, ih (Nat.succ.inj h), List.foldl_cons, List.length_cons]
    show _ = _ + layout (List.foldl inComment (c != '\n' && c != '#') cs) ds
    omega
  | case3 c cs hc ih =>
    rw [List.cons_append, layout, if_pos hc, ih (Nat.succ.inj h), List.foldl_cons,
      inComment_of_isBlank hc, List.length_cons]
    omega
  | case4 cs hc ih =>
    rw [List.cons_append, layout, if_neg hc, if_pos rfl, ih (Nat.succ.inj h), List.foldl_cons,
      List.length_cons]
    show _ = _ + layout (List.foldl inComment true cs) ds
    omega
  | case5 => cases h

/-- What is layout with something behind it is layout. -/
theorem layout_of_append (h : cs.length ≤ layout opened (cs ++ ds)) :
    layout opened cs = cs.length := by
  by_contra hne
  have hlt := Nat.lt_of_le_of_ne (layout_le opened cs) hne
  have hdrop : cs.drop (layout opened cs) ≠ [] := fun hnil =>
    Nat.not_le.mpr hlt (List.drop_eq_nil_iff.mp hnil)
  rw [layout_extend hdrop ds] at h
  exact Nat.not_le.mpr hlt h

/-- The text of a comment is layout, and the comment is open behind it. -/
theorem layout_of_comment (h : ∀ d ∈ cs, d ≠ '#' ∧ d ≠ '\n') :
    layout true cs = cs.length ∧ cs.foldl inComment true = true := by
  induction cs with
  | nil => exact ⟨rfl, rfl⟩
  | cons d cs ih =>
    obtain ⟨⟨hsign, hline⟩, h⟩ := List.forall_mem_cons.mp h
    have hd : (d != '\n' && d != '#') = true := by simp [hsign, hline]
    constructor
    · rw [layout, hd, (ih h).1, List.length_cons]
    · show cs.foldl inComment (d != '\n' && d != '#') = true
      rw [hd, (ih h).2]

/-- Layout is passed over to its end, and leaves no comment open. -/
theorem layout_of_isLayout (h : IsLayout cs) :
    layout false cs = cs.length ∧ cs.foldl inComment false = false := by
  induction h with
  | nil => exact ⟨rfl, rfl⟩
  | @blank c cs hc _ ih =>
    rw [layout, if_pos hc, ih.1, List.foldl_cons, inComment_of_isBlank hc]
    exact ⟨rfl, ih.2⟩
  | @comment text c cs htext hc _ ih =>
    obtain ⟨hinside, hopen⟩ := layout_of_comment htext
    have hclosed : inComment true c = false := by
      rcases hc with rfl | rfl <;> rfl
    have hcs : layout true (c :: cs) = cs.length + 1 := by
      rw [layout]
      show layout (inComment true c) cs + 1 = _
      rw [hclosed, ih.1]
    constructor
    · rw [layout, if_neg (by decide), if_pos rfl, layout_append hinside, hopen, hcs]
      simp
    · show (text ++ c :: cs).foldl inComment true = false
      rw [List.foldl_append, hopen, List.foldl_cons, hclosed, ih.2]

/-- What is passed over completely and leaves no comment open is layout. -/
theorem isLayout_of_layout (h : layout opened cs = cs.length)
    (hclosed : cs.foldl inComment opened = false) :
    IsLayout (if opened then '#' :: cs else cs) := by
  -- The cases are those of the scanner; an open comment counts as if its sign stood in front.
  fun_induction layout opened cs with
  | case1 opened =>
    obtain rfl : opened = false := hclosed
    exact .nil
  | case2 c cs ih =>
    have hrest := ih (Nat.succ.inj h) hclosed
    by_cases hc : c = '#' ∨ c = '\n'
    · -- The comment ends here.
      rw [if_neg (by rcases hc with rfl | rfl <;> decide)] at hrest
      exact @IsLayout.comment [] c cs (List.forall_mem_nil _) hc hrest
    · obtain ⟨hsign, hline⟩ := not_or.mp hc
      rw [if_pos (by simp [hsign, hline])] at hrest
      generalize hds : '#' :: cs = ds at hrest
      cases hrest with
      | nil => cases hds
      | blank hb _ =>
        cases hds
        cases hb
      | @comment text d rest htext hd hrest =>
        obtain rfl : cs = text ++ d :: rest := (List.cons.inj hds).2
        have hall := List.forall_mem_cons.mpr ⟨⟨hsign, hline⟩, htext⟩
        exact @IsLayout.comment (c :: text) d rest hall hd hrest
  | case3 c cs hc ih =>
    refine .blank hc (ih (Nat.succ.inj h) ?_)
    rwa [List.foldl_cons, inComment_of_isBlank hc] at hclosed
  | case4 cs hc ih => exact ih (Nat.succ.inj h) hclosed
  | case5 => cases h

/-- What is layout inside a comment is what layout goes on with behind a number sign. -/
theorem layout_true_eq_length_iff :
    layout true cs = cs.length ↔ ∃ ds, IsLayout ('#' :: (cs ++ ds)) := by
  constructor
  · intro h
    cases hopen : cs.foldl inComment true with
    | false => exact ⟨[], by simpa using isLayout_of_layout h hopen⟩
    | true =>
      have hlayout : layout true (cs ++ ['\n']) = (cs ++ ['\n']).length := by
        rw [layout_append h, hopen, List.length_append]
        rfl
      have hclosed : (cs ++ ['\n']).foldl inComment true = false := by
        rw [List.foldl_append, hopen]
        rfl
      exact ⟨['\n'], isLayout_of_layout hlayout hclosed⟩
  · rintro ⟨ds, h⟩
    obtain ⟨hlayout, -⟩ := layout_of_isLayout h
    rw [layout, if_neg (by decide), if_pos rfl] at hlayout
    have hall : layout true (cs ++ ds) = (cs ++ ds).length := Nat.succ.inj hlayout
    apply layout_of_append
    rw [hall, List.length_append]
    exact Nat.le_add_right _ _

/-- Layout at the end of a text goes on with layout, unless this ends an open comment and is not
layout behind it. -/
theorem layout_append_eq_length_iff (h : layout false cs = cs.length) (hds : IsLayout ds) :
    layout false (cs ++ ds) = (cs ++ ds).length ↔
      (¬ IsLayout cs → ∃ es, IsLayout ('#' :: (ds ++ es))) := by
  rw [layout_append h, List.length_append, Nat.add_left_cancel_iff, ← layout_true_eq_length_iff]
  cases hopen : cs.foldl inComment false with
  | false =>
    have hcs : IsLayout cs := isLayout_of_layout h hopen
    exact ⟨fun _ hno => absurd hcs hno, fun _ => (layout_of_isLayout hds).1⟩
  | true =>
    have hno : ¬ IsLayout cs := fun hcs => by
      cases hopen.symm.trans (layout_of_isLayout hcs).2
    exact ⟨fun hlayout _ => hlayout, fun hlayout => hlayout hno⟩

/-- The text of a template up to an interpolation, behind whose brace nothing is left, goes on with
what is added. -/
theorem template_append (hs : (template opened cs).stop = .interpolation)
    (hn : cs.length ≤ (template opened cs).length) (ds : List Char) :
    template opened (cs ++ ds) = (template true ds).after (template opened cs).text cs.length := by
  -- The characters in front are read in the same way, and their text stands in front of the rest.
  have hafter {run rest : TemplateRun} {text : List Char} {n k : Nat}
      (h : run = (template true ds).after rest.text n) :
      run.after text k = (template true ds).after (rest.after text k).text (n + k) := by
    rw [h, TemplateRun.after_after, Nat.add_comm]
    rfl
  have hless {k n : Nat} {run : TemplateRun} {text : List Char}
      (h : n + k ≤ (run.after text k).length) : n ≤ run.length :=
    Nat.le_of_add_le_add_left (Nat.add_comm n k ▸ h)
  -- The whole text has been taken, so no case ends before its last character.
  fun_induction template opened cs with
  | case1 => simp [TemplateRun.after]
  | case2 c cs hc ih =>
    rw [List.cons_append, template, if_pos hc]
    exact hafter (ih hs (hless hn))
  | case3 cs hc ih =>
    rw [List.cons_append, template, if_neg hc, if_pos rfl]
    exact hafter (ih hs (hless hn))
  | case4 => cases hn
  | case5 => cases hs
  | case6 cs ih | case7 cs ih | case8 cs ih =>
    rw [List.cons_append, List.cons_append, template]
    exact hafter (ih hs (hless (k := 2) hn))
  | case9 => cases hs
  | case10 cs _ _ _ hq ih =>
    rw [List.cons_append, template, if_neg hq, if_pos rfl]
    · exact hafter (ih hs (hless hn))
    all_goals simp
  | case11 c cs h1 h2 h3 hq hb ih =>
    cases cs with
    | nil => cases hs
    | cons d cs =>
      rw [List.cons_append, List.cons_append, template, if_neg hq, if_neg hb, ← List.cons_append]
      · exact hafter (ih hs (hless hn))
      all_goals
        intro es hc heq
        obtain ⟨rfl, -⟩ := List.cons.inj heq
        simp_all

/-- Blanks behind the brace of an interpolation are taken together with it. -/
theorem template_of_isLayout (h : IsLayout cs)
    (hds : template true ds = ⟨[], 0, .interpolation⟩) :
    ∃ blanks rest, cs = blanks ++ rest ∧ IsLayout rest ∧
      template true (cs ++ ds) = ⟨[], blanks.length, .interpolation⟩ := by
  induction h with
  | nil => exact ⟨[], [], rfl, .nil, hds⟩
  | @blank c cs hc _ ih =>
    obtain ⟨blanks, rest, rfl, hrest, hrun⟩ := ih
    refine ⟨c :: blanks, rest, rfl, hrest, ?_⟩
    rw [List.cons_append, template, if_pos hc, hrun, TemplateRun.after, List.length_cons,
      Nat.add_comm 1]
    rfl
  | @comment text c cs htext hc hcs _ =>
    refine ⟨[], _, rfl, .comment htext hc hcs, ?_⟩
    rw [List.cons_append, template, if_neg (by decide), if_neg (by decide)]
    rfl

end Scan

end Brace
