/-
# Slashes in patterns

Read from left to right, a backslash belongs to the character behind it, so two backslashes in front
of a slash are an escaped backslash, and the slash is a plain one.  `Regex.unescapePairs` takes the
backslash away from escaped slashes in this sense, `Regex.unescapeSlashes` looks at the last
backslash only.

The two agree exactly if the backslashes in front of every slash are none or an odd number, as they
are in the pattern of a literal, since a slash behind an even number of them ends the literal.  Main
statement: `Regex.unescapeSlashes_eq_unescapePairs_iff`.
-/
import Brace.Pattern
import Brace.Regex.Builtin
import Brace.Proofs.Node.Readable

namespace Brace

namespace Regex

/-! ## Reading by pairs -/

/-- Takes the backslash away from an escaped slash, where a backslash belongs to the character
behind it. -/
def unescapePairs : List Char → List Char
  | '\\' :: '/' :: rest => '/' :: unescapePairs rest
  | '\\' :: c :: rest => '\\' :: c :: unescapePairs rest
  | c :: rest => c :: unescapePairs rest
  | [] => []

/-- The backslashes in front of every slash are none or an odd number. -/
def SlashesPaired (cs : List Char) : Prop :=
  ∀ before after, before ++ '/' :: after = cs →
    backslashes before = 0 ∨ backslashes before % 2 = 1

/-! ## Runs of backslashes -/

/-- Backslashes, as many as given. -/
abbrev backslashRun (k : Nat) : List Char := List.replicate k '\\'

variable {c : Char} {cs : List Char}

theorem backslashes_run (k : Nat) : backslashes (backslashRun k) = k := by
  simp [backslashes]

/-- Only the backslashes behind the last other character count. -/
theorem backslashes_append_cons (before : List Char) (hc : c ≠ '\\') (cs : List Char) :
    backslashes (before ++ c :: cs) = backslashes cs := by
  induction cs using List.reverseRecOn with
  | nil =>
    rw [backslashes_append_singleton, if_neg hc]
    rfl
  | append_singleton cs d ih =>
    rw [← List.cons_append, ← List.append_assoc, backslashes_append_singleton,
      backslashes_append_singleton, ih]

/-- Texts that begin with backslashes and another character. -/
theorem run_append_cons_inj {j k : Nat} {ds : List Char} (hc : c ≠ '\\') :
    backslashRun j ++ c :: cs = backslashRun k ++ c :: ds ↔ j = k ∧ cs = ds := by
  constructor
  · intro h
    induction j generalizing k with
    | zero =>
      cases k with
      | zero => exact ⟨rfl, (List.cons.inj h).2⟩
      | succ k => exact absurd (List.cons.inj h).1 hc
    | succ j ih =>
      cases k with
      | zero => exact absurd (List.cons.inj h).1.symm hc
      | succ k =>
        obtain ⟨rfl, hcs⟩ := ih (List.cons.inj h).2
        exact ⟨rfl, hcs⟩
  · rintro ⟨rfl, rfl⟩
    rfl

theorem slashesPaired_run (k : Nat) : SlashesPaired (backslashRun k) := by
  intro before after h
  have hmem : '/' ∈ backslashRun k := by simp [← h]
  cases List.eq_of_mem_replicate hmem

/-- The backslashes in front of another character count for this one only. -/
theorem slashesPaired_run_append_cons {k : Nat} (hc : c ≠ '\\') :
    SlashesPaired (backslashRun k ++ c :: cs) ↔
      (c = '/' → k = 0 ∨ k % 2 = 1) ∧ SlashesPaired cs := by
  constructor
  · refine fun h => ⟨?_, fun before after hcs => ?_⟩
    · rintro rfl
      simpa only [backslashes_run] using h (backslashRun k) cs rfl
    · have := h (backslashRun k ++ c :: before) after (by simp [hcs])
      rwa [backslashes_append_cons _ hc] at this
  · rintro ⟨hslash, hcs⟩ before after h
    have hat (hbefore : before = backslashRun k) (heq : '/' :: after = c :: cs) :
        backslashes before = 0 ∨ backslashes before % 2 = 1 := by
      rw [hbefore, backslashes_run]
      exact hslash (List.cons.inj heq).1.symm
    rcases List.append_eq_append_iff.mp h with ⟨front, hrun, hrest⟩ | ⟨behind, hbefore, hrest⟩
    · -- No slash is among the backslashes.
      cases front with
      | nil => exact hat (by rw [hrun, List.append_nil]) hrest
      | cons d front =>
        obtain ⟨rfl, -⟩ := List.cons.inj hrest
        have hmem : '/' ∈ backslashRun k := by simp [hrun]
        cases List.eq_of_mem_replicate hmem
    · cases behind with
      | nil => exact hat (by rw [hbefore, List.append_nil]) hrest.symm
      | cons d behind =>
        obtain ⟨rfl, hbehind⟩ := List.cons.inj hrest
        rw [hbefore, backslashes_append_cons _ hc]
        exact hcs behind after hbehind.symm

/-! ## Both ways of reading a run -/

theorem unescapeSlashes_cons (hc : c ≠ '\\') (cs : List Char) :
    unescapeSlashes (c :: cs) = c :: unescapeSlashes cs := by
  rw [unescapeSlashes]
  rintro rest heq
  exact absurd heq hc

/-- A character other than a backslash is kept, read in pairs as well. -/
theorem unescapePairs_cons (hc : c ≠ '\\') (cs : List Char) :
    unescapePairs (c :: cs) = c :: unescapePairs cs := by
  rw [unescapePairs]
  · rintro rest heq
    exact absurd heq hc
  · rintro d rest heq
    exact absurd heq hc

/-- A backslash stays if no slash stands behind it. -/
theorem unescapeSlashes_backslash (h : cs.head? ≠ some '/') :
    unescapeSlashes ('\\' :: cs) = '\\' :: unescapeSlashes cs := by
  rw [unescapeSlashes]
  rintro rest - rfl
  exact h rfl

/-- A pair stays if its second character is no slash. -/
theorem unescapePairs_backslash (hc : c ≠ '/') (cs : List Char) :
    unescapePairs ('\\' :: c :: cs) = '\\' :: c :: unescapePairs cs := by
  rw [unescapePairs]
  exact hc

theorem unescapeSlashes_run (k : Nat) : unescapeSlashes (backslashRun k) = backslashRun k := by
  induction k with
  | zero => rfl
  | succ k ih =>
    cases k with
    | zero => rfl
    | succ k => exact congrArg ('\\' :: ·) ih

theorem unescapePairs_run (k : Nat) : unescapePairs (backslashRun k) = backslashRun k := by
  induction k using Nat.twoStepInduction with
  | zero => rfl
  | one => rfl
  | more k ih _ => exact congrArg ('\\' :: '\\' :: ·) ih

/-- Of the backslashes in front of a slash the last one is taken away, whatever their number. -/
theorem unescapeSlashes_run_append_cons (k : Nat) (hc : c ≠ '\\') (cs : List Char) :
    unescapeSlashes (backslashRun k ++ c :: cs) =
      backslashRun (if c = '/' then k - 1 else k) ++ c :: unescapeSlashes cs := by
  induction k with
  | zero =>
    rw [Nat.zero_sub, ite_self]
    exact unescapeSlashes_cons hc cs
  | succ k ih =>
    -- Only the backslash right in front of the slash is looked at, so the first ones are kept.
    cases k with
    | zero =>
      by_cases hslash : c = '/'
      · subst hslash
        rfl
      · have hhead : (c :: cs).head? ≠ some '/' := fun heq => hslash (Option.some.inj heq)
        rw [if_neg hslash, ← unescapeSlashes_cons hc]
        exact unescapeSlashes_backslash hhead
    | succ k =>
      have hfirst : unescapeSlashes (backslashRun (k + 2) ++ c :: cs) =
          '\\' :: unescapeSlashes (backslashRun (k + 1) ++ c :: cs) := rfl
      rw [hfirst, ih]
      split <;> rfl

/-- Of the backslashes in front of a slash the last one is taken away if their number is odd. -/
theorem unescapePairs_run_append_cons (k : Nat) (hc : c ≠ '\\') (cs : List Char) :
    unescapePairs (backslashRun k ++ c :: cs) =
      backslashRun (if c = '/' ∧ k % 2 = 1 then k - 1 else k) ++ c :: unescapePairs cs := by
  -- Backslashes are taken two by two, which leaves none or one in front of the slash.
  induction k using Nat.twoStepInduction with
  | zero =>
    rw [Nat.zero_sub, ite_self]
    exact unescapePairs_cons hc cs
  | one =>
    by_cases hslash : c = '/'
    · subst hslash
      rfl
    · rw [if_neg fun h => hslash h.1]
      exact unescapePairs_backslash hslash cs
  | more k ih _ =>
    have hfirst : unescapePairs (backslashRun (k + 2) ++ c :: cs) =
        '\\' :: '\\' :: unescapePairs (backslashRun k ++ c :: cs) := rfl
    have hnumber : (if c = '/' ∧ (k + 2) % 2 = 1 then k + 2 - 1 else k + 2) =
        (if c = '/' ∧ k % 2 = 1 then k - 1 else k) + 2 := by
      rw [Nat.add_mod_right]
      split <;> omega
    rw [hfirst, ih, hnumber]
    rfl

/-! ## Where they agree -/

/-- Behind a run of backslashes both readings of the text agree just if its slashes are paired. -/
theorem unescapeSlashes_run_append_eq_iff (k : Nat) (cs : List Char) :
    unescapeSlashes (backslashRun k ++ cs) = unescapePairs (backslashRun k ++ cs) ↔
      SlashesPaired (backslashRun k ++ cs) := by
  -- The induction goes along the text, with the backslashes read so far in front of the rest.
  induction cs generalizing k with
  | nil =>
    rw [List.append_nil, unescapeSlashes_run, unescapePairs_run]
    exact iff_of_true rfl (slashesPaired_run k)
  | cons c cs ih =>
    by_cases hc : c = '\\'
    · subst hc
      have hrun : backslashRun k ++ '\\' :: cs = backslashRun (k + 1) ++ cs := by
        rw [List.append_cons, ← List.replicate_succ']
      rw [hrun]
      exact ih (k + 1)
    · rw [unescapeSlashes_run_append_cons k hc, unescapePairs_run_append_cons k hc,
        run_append_cons_inj hc, slashesPaired_run_append_cons hc]
      refine and_congr ?_ (ih 0)
      by_cases hslash : c = '/'
      -- The first reading drops one of `k` backslashes, the second one only if `k` is odd.
      · simp only [hslash, if_true, true_and, forall_const]
        split <;> omega
      · simp [hslash]

/-- Both ways of reading agree exactly if the backslashes in front of every slash are none or an odd
number. -/
theorem unescapeSlashes_eq_iff (cs : List Char) :
    unescapeSlashes cs = unescapePairs cs ↔ SlashesPaired cs :=
  unescapeSlashes_run_append_eq_iff 0 cs

/-- The pattern of a literal does not begin with a slash. -/
theorem head_ne_slash_of_isPattern (h : isPattern cs = true) : cs.head? ≠ some '/' := by
  cases cs with
  | nil => simp
  | cons c cs =>
    rintro heq
    cases heq
    cases h

/-- In the pattern of a literal every slash is escaped. -/
theorem slashesPaired_of_isPattern (h : isPattern cs = true) : SlashesPaired cs := by
  rw [← unescapeSlashes_eq_iff]
  -- A backslash in a literal has a character behind it, and an escaped one is read together with
  -- it.
  fun_induction isPattern cs with
  | case1 => rfl
  | case2 => cases h
  | case3 c cs ih =>
    by_cases hslash : c = '/'
    · subst hslash
      exact congrArg ('/' :: ·) (ih h)
    · have hhead : (c :: cs).head? ≠ some '/' := fun heq => hslash (Option.some.inj heq)
      rw [unescapeSlashes_backslash hhead, unescapePairs_backslash hslash, ← ih h]
      by_cases hc : c = '\\'
      · subst hc
        rw [unescapeSlashes_backslash (head_ne_slash_of_isPattern h)]
      · rw [unescapeSlashes_cons hc]
  | case4 c cs hsingle hpair ih =>
    have hc : c ≠ '\\' := by
      rintro rfl
      cases cs with
      | nil => exact hsingle rfl rfl
      | cons d cs => exact hpair d cs rfl rfl
    rw [unescapeSlashes_cons hc, unescapePairs_cons hc, ih (Bool.and_eq_true_iff.mp h).2]

end Regex

/-! ## Patterns of literals and of other texts -/

/-- A regular expression in a regular tree has the pattern of a literal. -/
theorem Regular.isPattern_of_regexp {limits : Limits} {place : Place} {source flags : String}
    (h : Regular limits place (.regexp source flags)) : isPattern source.toList = true := by
  generalize hn : Node.regexp source flags = n at h
  induction h with
  | regexp hpattern _ =>
    cases hn
    exact hpattern
  | expression _ _ ih => exact ih hn
  | _ => cases hn

namespace Regex

/-- Taking the backslashes away from slashes keeps the pairs of a pattern exactly if the backslashes
in front of every slash are none or an odd number.  From such a pattern, the expression is read that
the pairs stand for.  All patterns of literals in a parsed source are among them. -/
theorem unescapeSlashes_eq_unescapePairs_iff [Engine] (source : String) :
    (unescapeSlashes source.toList = unescapePairs source.toList ↔ SlashesPaired source.toList) ∧
      (SlashesPaired source.toList → ∀ flags, compile source flags =
        Engine.compile (.ofFlags flags) (String.ofList (unescapePairs source.toList))) ∧
      ∀ text n flags, parse text = .ok n → Node.regexp source flags ∈ n.nodes →
        SlashesPaired source.toList := by
  refine ⟨unescapeSlashes_eq_iff source.toList, ?_, ?_⟩
  · intro h flags
    rw [compile, (unescapeSlashes_eq_iff _).mpr h]
  · intro text n flags hparse hm
    obtain ⟨place, hregular⟩ := exists_regular_of_mem_nodes hparse hm
    exact slashesPaired_of_isPattern hregular.isPattern_of_regexp

/-- The literal `/\\\//` looks for a backslash and a slash behind it.  Without its third backslash
this is no literal; as a pattern of another origin it is taken for a slash alone. -/
theorem unescapeSlashes_eq_unescapePairs_iff_separators :
    let literal := "\\\\\\/"
    let other := "\\\\/"
    parse "/\\\\\\//" = .ok (.regexp literal "") ∧ SlashesPaired literal.toList ∧
      compile literal "" = Engine.compile (.ofFlags "") other ∧
      ¬ SlashesPaired other.toList ∧ unescapePairs other.toList = other.toList ∧
      unescapeSlashes other.toList = "\\/".toList ∧
      (Engine.compile (.ofFlags "") other).toOption.map (Engine.isMatch · "/") = some false ∧
      (Pattern.of? other "").map (·.test "/") = some true := by
  intro literal other
  have hregular : Regular .parsed .expression (.regexp literal "") :=
    .regexp (by decide) ⟨List.forall_mem_nil _, List.nodup_nil⟩
  have hparse := parse_source (.expression nofun hregular)
  rw [show (Node.regexp literal "").source = "/\\\\\\//" by decide] at hparse
  obtain ⟨-, hread, hliteral⟩ := unescapeSlashes_eq_unescapePairs_iff literal
  obtain ⟨hiff, -, -⟩ := unescapeSlashes_eq_unescapePairs_iff other
  have hpaired : SlashesPaired literal.toList := hliteral _ _ "" hparse (Node.mem_nodes_self _)
  have hpairs : String.ofList (unescapePairs literal.toList) = other := by decide
  have hkept : unescapePairs other.toList = other.toList := by decide
  have hlast : unescapeSlashes other.toList = "\\/".toList := by decide
  have hother : ¬ SlashesPaired other.toList := by
    rw [← hiff, hlast, hkept]
    decide
  exact ⟨hparse, hpaired, hpairs ▸ hread hpaired "", hother, hkept, hlast,
    by decide +kernel, by decide +kernel⟩

end Regex

end Brace
