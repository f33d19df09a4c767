/-
# The texts of tokens

A piece of a template, a regular expression and its flags are read character by character.  This
module says for each of these loops what the texts are like that it answers, and that it reads such
a text back as it is written in a source.  The condition on the backslashes of a piece of a template
looks both ways from every brace; `quasiFrom` is the same condition read from the left.
-/
import Brace.Node.Source
import Brace.Proofs.Node.Regular

namespace Brace

/-! ## Pieces of a template -/

/-- Whether the backslashes in front of braces, back-quotes and the end come in pairs, if an odd
number of them stands in front. -/
def quasiFrom : Bool → List Char → Bool
  | odd, [] => !odd
  | odd, c :: cs =>
    if c = '\\' then quasiFrom (!odd) cs
    else if c = '\x7b' ∨ c = '\x60' then !odd && quasiFrom false cs
    else quasiFrom false cs

theorem backslashes_append_singleton (cs : List Char) (c : Char) :
    backslashes (cs ++ [c]) = if c = '\\' then backslashes cs + 1 else 0 := by
  unfold backslashes
  rw [List.reverse_append, List.reverse_singleton, List.singleton_append, List.takeWhile_cons]
  by_cases hc : c = '\\' <;> simp [hc]

theorem stopsQuasi_cons {c : Char} {cs : List Char} :
    StopsQuasi (c :: cs) ↔ c = '\x7b' ∨ c = '\x60' := by
  simp [StopsQuasi]

/-- The condition on a text is one on its front and one on the rest, which stands behind one
character more. -/
theorem forall_backslashes_cons_iff {front cs : List Char} {c : Char} :
    (∀ before after, before ++ after = c :: cs → StopsQuasi after →
        backslashes (front ++ before) % 2 = 0) ↔
      (StopsQuasi (c :: cs) → backslashes front % 2 = 0) ∧
        ∀ before after, before ++ after = cs → StopsQuasi after →
          backslashes (front ++ [c] ++ before) % 2 = 0 := by
  constructor
  · intro h
    -- The brace may be the first character, or it stands further on and the first character belongs
    -- to what is in front.
    refine ⟨fun hs => ?_, fun before after he hs => ?_⟩
    · have := h [] (c :: cs) rfl hs
      rwa [List.append_nil] at this
    · have := h (c :: before) after (congrArg (c :: ·) he) hs
      rwa [List.append_cons] at this
  · rintro ⟨h, h'⟩ before after he hs
    cases before with
    | nil =>
      obtain rfl : after = c :: cs := he
      rw [List.append_nil]
      exact h hs
    | cons b before =>
      obtain ⟨rfl, he'⟩ := List.cons.inj he
      rw [List.append_cons]
      exact h' before after he' hs

/-- Behind the characters `front` the condition on the rest depends on their last backslashes
only. -/
theorem quasiFrom_iff (front cs : List Char) :
    quasiFrom (backslashes front % 2 = 1) cs = true ↔
      ∀ before after, before ++ after = cs → StopsQuasi after →
        backslashes (front ++ before) % 2 = 0 := by
  -- The run of backslashes at the end of `front` is all that counts, and only whether it is odd.
  induction cs generalizing front with
  | nil =>
    simp only [quasiFrom, List.append_eq_nil_iff]
    constructor
    · rintro h _ _ ⟨rfl, rfl⟩ -
      rw [List.append_nil]
      simp at h
      omega
    · intro h
      have := h [] [] ⟨rfl, rfl⟩ (Or.inl rfl)
      rw [List.append_nil] at this
      simp
      omega
  | cons c cs ih =>
    rw [forall_backslashes_cons_iff, ← ih, stopsQuasi_cons, backslashes_append_singleton, quasiFrom]
    by_cases hc : c = '\\'
    · subst hc
      -- One backslash more makes an odd run even, and an even one odd.
      have hodd : (!decide (backslashes front % 2 = 1)) =
          decide ((backslashes front + 1) % 2 = 1) := by
        rw [← decide_not]
        congr 1
        apply propext
        omega
      simp [hodd]
    · by_cases hs : c = '\x7b' ∨ c = '\x60'
      · simp only [hc, hs, if_true, if_false, Bool.and_eq_true, forall_const]
        simp
      · simp [hc, hs]

theorem isQuasi_iff {cs : List Char} : IsQuasi cs ↔ quasiFrom false cs = true :=
  (quasiFrom_iff [] cs).symm

/-- Pieces can be joined. -/
theorem quasiFrom_append {odd : Bool} {cs ds : List Char} (h : quasiFrom odd cs = true)
    (h' : quasiFrom false ds = true) : quasiFrom odd (cs ++ ds) = true := by
  fun_induction quasiFrom odd cs with
  | case1 odd =>
    -- An open backslash at the end of the first part is excluded by the condition on it.
    cases odd
    · exact h'
    · cases h
  | case2 odd cs ih =>
    rw [List.cons_append, quasiFrom, if_pos rfl]
    exact ih h
  | case3 odd c cs hc hs ih =>
    rw [Bool.and_eq_true] at h
    rw [List.cons_append, quasiFrom, if_neg hc, if_pos hs, Bool.and_eq_true]
    exact ⟨h.1, ih h.2⟩
  | case4 odd c cs hc hs ih =>
    rw [List.cons_append, quasiFrom, if_neg hc, if_neg hs]
    exact ih h

theorem IsQuasi.append {cs ds : List Char} (h : IsQuasi cs) (h' : IsQuasi ds) :
    IsQuasi (cs ++ ds) :=
  isQuasi_iff.mpr (quasiFrom_append (isQuasi_iff.mp h) (isQuasi_iff.mp h'))

/-- The characters of a piece of a template as they are written. -/
def escapeQuasi (cs : List Char) : List Char :=
  cs.flatMap fun c => if c = '\x7b' ∨ c = '\x60' then ['\\', c] else [c]

theorem toList_quasi (s : String) : (Node.quasi s).toList = escapeQuasi s.toList := by
  rw [Node.quasi, String.toList_ofList, escapeQuasi]

/-- A brace or a back-quote is written with a backslash in front of it. -/
theorem escapeQuasi_cons_special {c : Char} (hc : c = '\x7b' ∨ c = '\x60') (cs : List Char) :
    escapeQuasi (c :: cs) = '\\' :: c :: escapeQuasi cs := by
  rw [escapeQuasi, List.flatMap_cons, if_pos hc]
  rfl

/-- Any other character is written as it is. -/
theorem escapeQuasi_cons_plain {c : Char} (hc : ¬ (c = '\x7b' ∨ c = '\x60')) (cs : List Char) :
    escapeQuasi (c :: cs) = c :: escapeQuasi cs := by
  rw [escapeQuasi, List.flatMap_cons, if_neg hc]
  rfl

namespace Scan

/-- Two runs of characters in front are one. -/
theorem TemplateRun.after_after (text text' : List Char) (n n' : Nat) (run : TemplateRun) :
    (run.after text' n').after text n = run.after (text ++ text') (n + n') := by
  simp [TemplateRun.after, Nat.add_assoc]

/-- A character that is not special is read as it is. -/
theorem template_cons {c : Char} {cs : List Char} (hc : c ≠ '\\') (hb : c ≠ '\x7b')
    (hq : c ≠ '\x60') : template false (c :: cs) = (template false cs).after [c] 1 := by
  rw [template]
  · rw [if_neg hq, if_neg hb]
  all_goals
    rintro _ rfl
    exact absurd rfl hc

/-- A backslash in front of a character that is not special is read as it is. -/
theorem template_backslash_cons {c : Char} {cs : List Char} (hc : c ≠ '\\') (hb : c ≠ '\x7b')
    (hq : c ≠ '\x60') :
    template false ('\\' :: c :: cs) = (template false cs).after ['\\', c] 2 := by
  rw [template]
  · rw [if_neg (by decide), if_neg (by decide), template_cons hc hb hq, TemplateRun.after_after]
    rfl
  all_goals
    intro _ he
    cases he
    exact fun h => absurd (List.cons.inj h).1 (by assumption)

/-- The characters `raw` of a template are read as `text`, whatever stands behind them. -/
def ReadsAs (raw text : List Char) : Prop :=
  ∀ rest, template false (raw ++ rest) = (template false rest).after text raw.length

theorem ReadsAs.nil : ReadsAs [] [] := fun rest => by
  simp [TemplateRun.after]

theorem ReadsAs.append {raw raw' text text' : List Char} (h : ReadsAs raw text)
    (h' : ReadsAs raw' text') : ReadsAs (raw ++ raw') (text ++ text') := by
  intro rest
  rw [List.append_assoc, h, h', TemplateRun.after_after, List.length_append]

/-- An empty pair of braces leaves nothing. -/
theorem readsAs_braces : ReadsAs ['\x7b', '\x7d'] [] := by
  intro rest
  show template false ('\x7b' :: '\x7d' :: rest) = _
  rw [template, if_neg (by decide), if_pos rfl, template, if_neg (by decide), if_pos rfl,
    TemplateRun.after_after]
  · rfl
  all_goals
    intro _ he
    cases he

/-- A piece of a template is read back as it is written.  If a backslash stands in front, it is read
together with the piece. -/
theorem readsAs_escapeQuasi_from (odd : Bool) (cs : List Char) (h : quasiFrom odd cs = true) :
    ReadsAs ((if odd then ['\\'] else []) ++ escapeQuasi cs)
      ((if odd then ['\\'] else []) ++ cs) := by
  -- While `odd` holds, the backslash in front is not yet paired with a character.
  fun_induction quasiFrom odd cs with
  | case1 odd =>
    cases odd
    · exact .nil
    · cases h
  | case2 odd cs ih =>
    rw [escapeQuasi_cons_plain (by decide)]
    cases odd with
    | false => exact ih h
    | true =>
      -- The two backslashes are read as a pair, and both stay in the text.
      have hcs : ReadsAs (escapeQuasi cs) cs := ih h
      intro rest
      show template false ('\\' :: '\\' :: (escapeQuasi cs ++ rest)) = _
      rw [template, hcs, TemplateRun.after_after, Nat.add_comm 2]
      rfl
  | case3 odd c cs hc hs ih =>
    rw [Bool.and_eq_true, Bool.not_eq_true'] at h
    -- A brace has no open backslash in front of it, so the backslash written is its own.
    obtain ⟨rfl, h⟩ := h
    have hcs : ReadsAs (escapeQuasi cs) cs := ih h
    intro rest
    rw [escapeQuasi_cons_special hs]
    show template false ('\\' :: c :: (escapeQuasi cs ++ rest)) = _
    rcases hs with rfl | rfl <;> rw [template, hcs, TemplateRun.after_after, Nat.add_comm 2] <;>
      rfl
  | case4 odd c cs hc hs ih =>
    have hcs : ReadsAs (escapeQuasi cs) cs := ih h
    intro rest
    rw [escapeQuasi_cons_plain hs]
    rw [not_or] at hs
    -- An open backslash is read with the character behind it, which is not special.
    cases odd with
    | false =>
      show template false (c :: (escapeQuasi cs ++ rest)) = _
      rw [template_cons hc hs.1 hs.2, hcs, TemplateRun.after_after, Nat.add_comm 1]
      rfl
    | true =>
      show template false ('\\' :: c :: (escapeQuasi cs ++ rest)) = _
      rw [template_backslash_cons hc hs.1 hs.2, hcs, TemplateRun.after_after, Nat.add_comm 2]
      rfl

/-- What is written for a piece of a template is read as the piece. -/
theorem readsAs_escapeQuasi {cs : List Char} (h : IsQuasi cs) : ReadsAs (escapeQuasi cs) cs :=
  readsAs_escapeQuasi_from false cs (isQuasi_iff.mp h)

/-- The text of a template that is read up to a back-quote or an interpolation is a piece. -/
theorem quasiFrom_template (opened : Bool) (cs : List Char)
    (h : (template opened cs).stop ≠ .endOfSource) :
    quasiFrom false (template opened cs).text = true := by
  fun_induction template opened cs with
  | case1 => rfl
  | case2 c cs _ ih => exact ih h
  | case3 cs _ ih => exact ih h
  | case4 => rfl
  | case5 => exact absurd rfl h
  | case6 cs ih => exact ih h
  | case7 cs ih => exact ih h
  | case8 cs ih => exact ih h
  | case9 => rfl
  | case10 cs _ _ _ _ ih => exact ih h
  | case11 c cs hbrace hquote hbackslash hq hb ih =>
    by_cases hc : c = '\\'
    -- A backslash that is read alone has a character behind it that is not special.
    · subst hc
      cases cs with
      | nil => exact absurd rfl h
      | cons d ds =>
        have hd : d ≠ '\\' ∧ d ≠ '\x7b' ∧ d ≠ '\x60' := by
          refine ⟨?_, ?_, ?_⟩ <;> rintro rfl
          · exact hbackslash ds rfl rfl
          · exact hbrace ds rfl rfl
          · exact hquote ds rfl rfl
        have hds := ih h
        rw [template_cons hd.1 hd.2.1 hd.2.2] at hds ⊢
        simp only [TemplateRun.after, List.cons_append, List.nil_append, quasiFrom, hd, if_false,
          or_self, if_true] at hds ⊢
        exact hds
    -- Any other character closes no backslash and opens none.
    · show quasiFrom false (c :: (template false cs).text) = true
      rw [quasiFrom, if_neg hc, if_neg (by simp [hq, hb])]
      exact ih h

end Scan

/-! ## Delimiters -/

/-- The characters that end a name, a number and the flags of a regular expression. -/
def delimiters : List Char :=
  [' ', '\t', '\n', '\r', '(', ')', '[', ']', '\x7b', '\x7d', ',', ':', ';', '\x60']

theorem mem_delimiters_iff {c : Char} :
    c ∈ delimiters ↔ (Scan.isBlank c || (Punct.ofChar? c).isSome) = true := by
  simp only [delimiters, Scan.isBlank, Punct.ofChar?, Punct.all, List.find?_isSome, Bool.or_eq_true,
    beq_iff_eq, decide_eq_true_eq, List.mem_cons, List.not_mem_nil, or_false]
  simp only [exists_eq_or_imp, exists_eq_left, Punct.char, eq_comm (b := c), or_assoc]

/-- A list of characters is empty or begins with a delimiter. -/
def Delimited (cs : List Char) : Prop := ∀ c, cs.head? = some c → c ∈ delimiters

theorem delimited_nil : Delimited [] := fun _ h => nomatch h

theorem delimited_cons {c : Char} (hc : c ∈ delimiters) (cs : List Char) : Delimited (c :: cs) := by
  intro d hd
  obtain rfl := Option.some.inj hd
  exact hc

/-- A delimiter goes on no word, number or flags. -/
theorem not_isNameChar_of_mem_delimiters :
    ∀ c ∈ delimiters, Scan.isNameChar c = false ∧ c.isDigit = false ∧ c ≠ '.' ∧
      Scan.isFlag c = false := by
  have hall : delimiters.all (fun c => decide (Scan.isNameChar c = false ∧ c.isDigit = false ∧
      c ≠ '.' ∧ Scan.isFlag c = false)) = true := by decide
  exact fun c hc => of_decide_eq_true (List.all_eq_true.mp hall c hc)

/-- A run of characters that no delimiter continues ends where a delimiter follows. -/
theorem takeWhile_append_of_delimited {p : Char → Bool} {cs rest : List Char}
    (hp : ∀ c ∈ delimiters, p c = false) (h : ∀ c ∈ cs, p c = true) (hr : Delimited rest) :
    (cs ++ rest).takeWhile p = cs := by
  rw [List.takeWhile_append_of_pos h]
  cases rest with
  | nil => simp
  | cons c rest => simp [hp c (hr c rfl)]

/-! ## Regular expressions -/

namespace Scan

/-- Apart from a backslash, a character of a pattern is anything but a slash. -/
theorem isPattern_cons {c : Char} (hc : c ≠ '\\') (cs : List Char) :
    isPattern (c :: cs) = (decide (c ≠ '/') && isPattern cs) := by
  rw [isPattern]
  · intro he
    exact absurd he hc
  · intro _ _ he
    exact absurd he hc

/-- A pattern is read up to the slash behind it. -/
theorem pattern_append {cs : List Char} (h : isPattern cs = true) (rest : List Char) :
    pattern false (cs ++ '/' :: rest) = some (cs, cs.length + 1) := by
  fun_induction isPattern cs with
  | case1 => simp [pattern]
  | case2 => cases h
  | case3 c cs ih => simp [pattern, ih h]
  | case4 c cs hnil hcons ih =>
    rw [Bool.and_eq_true, decide_eq_true_eq] at h
    have hc : c ≠ '\\' := fun he => by
      cases cs with
      | nil => exact hnil he rfl
      | cons d ds => exact hcons d ds he rfl
    have hc' : (c == '\\' && !false) = false := by simp [hc]
    rw [List.cons_append, pattern, if_neg (by simp [h.1]), hc', ih h.2]
    rfl

/-- Whatever is read up to a slash is a pattern. -/
theorem isPattern_of_pattern {escaped : Bool} {cs text : List Char} {n : Nat}
    (h : pattern escaped cs = some (text, n)) :
    isPattern ((if escaped then ['\\'] else []) ++ text) = true := by
  induction cs generalizing escaped text n with
  | nil => cases h
  | cons c cs ih =>
    rw [pattern] at h
    split at h
    · next hc =>
      -- The slash that closes the expression ends the text; no backslash is open there.
      obtain ⟨-, rfl⟩ := hc
      obtain ⟨rfl, -⟩ := Prod.mk.inj (Option.some.inj h)
      rfl
    · next hc =>
      obtain ⟨⟨text', n'⟩, ht, he⟩ := Option.map_eq_some_iff.mp h
      obtain ⟨rfl, -⟩ := Prod.mk.inj he
      have ih := ih ht
      cases escaped with
      | true => simpa [isPattern] using ih
      | false =>
        by_cases hb : c = '\\'
        · subst hb
          exact ih
        -- A slash with no backslash in front would have closed the expression.
        · have hslash : c ≠ '/' := fun he => hc ⟨he, rfl⟩
          simpa [isPattern_cons hb, hslash, hb] using ih

/-! ## Flags -/

/-- Flags are read up to a delimiter. -/
theorem flags_append {seen cs rest : List Char} (hd : (seen ++ cs).Nodup)
    (hf : ∀ c ∈ cs, isFlag c = true) (hr : Delimited rest) :
    flags seen (cs ++ rest) = .ok (seen.reverse ++ cs) := by
  induction cs generalizing seen with
  | nil =>
    cases rest with
    | nil => simp [flags]
    | cons c rest =>
      have hc := hr c rfl
      rw [List.nil_append, flags, if_neg (by simp [not_isNameChar_of_mem_delimiters c hc]),
        if_pos (mem_delimiters_iff.mp hc), List.append_nil]
  | cons c cs ih =>
    -- The flag is not yet among those seen, since no flag stands there twice.
    have hnot : c ∉ seen := fun hm =>
      (List.nodup_append.mp hd).2.2 c hm c (List.mem_cons_self) rfl
    have hperm : (seen ++ c :: cs).Perm (c :: (seen ++ cs)) := List.perm_middle
    have hd' : ((c :: seen) ++ cs).Nodup := hperm.nodup_iff.mp hd
    rw [List.cons_append, flags, if_pos (by simp [hf c List.mem_cons_self, hnot]),
      ih hd' fun d hd => hf d (List.mem_cons_of_mem _ hd)]
    simp

/-- Whatever is read as flags is a set of flags. -/
theorem isFlags_of_flags {seen cs fs : List Char} (h : flags seen cs = .ok fs)
    (hd : seen.Nodup) (hf : ∀ c ∈ seen, isFlag c = true) :
    fs.Nodup ∧ ∀ c ∈ fs, isFlag c = true := by
  induction cs generalizing seen with
  | nil =>
    obtain rfl := Except.ok.inj h
    exact ⟨(List.reverse_perm seen).nodup_iff.mpr hd, fun c hc => hf c (List.mem_reverse.mp hc)⟩
  | cons c cs ih =>
    rw [flags] at h
    split at h
    · next hc =>
      simp only [Bool.and_eq_true, Bool.not_eq_true', List.contains_eq_mem,
        decide_eq_false_iff_not] at hc
      -- A flag is only taken if it is one and has not been seen.
      refine ih h (List.nodup_cons.mpr ⟨hc.2, hd⟩) fun d hd => ?_
      rcases List.mem_cons.mp hd with rfl | hd
      · exact hc.1
      · exact hf d hd
    · split at h
      · obtain rfl := Except.ok.inj h
        exact ⟨(List.reverse_perm seen).nodup_iff.mpr hd, fun c hc => hf c (List.mem_reverse.mp hc)⟩
      · cases h

/-! ## Quoted texts -/

/-- The characters of a quoted text as they are written. -/
def escapeQuoted (cs : List Char) : List Char :=
  cs.flatMap fun c => if c = '"' ∨ c = '\\' then ['\\', c] else [c]

/-- A quoted text is read back as it is written. -/
theorem quoted_escapeQuoted (cs rest : List Char) :
    quoted '"' (escapeQuoted cs ++ '"' :: rest) = some (cs, (escapeQuoted cs).length + 1) := by
  induction cs with
  | nil => simp [escapeQuoted, quoted]
  | cons c cs ih =>
    -- A quote and a backslash are written with a backslash, which is dropped in reading.
    by_cases hc : c = '"' ∨ c = '\\'
    · have hcons : escapeQuoted (c :: cs) = '\\' :: c :: escapeQuoted cs := by
        rw [escapeQuoted, List.flatMap_cons, if_pos hc]
        rfl
      rw [hcons, List.cons_append, List.cons_append, quoted, ih]
      rfl
    · have hcons : escapeQuoted (c :: cs) = c :: escapeQuoted cs := by
        rw [escapeQuoted, List.flatMap_cons, if_neg hc]
        rfl
      rw [not_or] at hc
      rw [hcons, List.cons_append, quoted]
      · rw [if_neg hc.1, ih]
        rfl
      · exact fun he => absurd he hc.2
      · exact fun _ _ he => absurd he hc.2

end Scan

/-- A quoted text between its quotes. -/
theorem toList_quote (s : String) :
    (Node.quote s).toList = '"' :: (Scan.escapeQuoted s.toList ++ ['"']) := by
  rw [Node.quote, String.toList_ofList, Scan.escapeQuoted]
  rfl

/-! ## Names -/

/-- Any word that is not reserved is a name. -/
theorem ofWord_of_not_mem {word : String} (h : word ∉ reservedWords) :
    Token.ofWord word = .identifier word := by
  have hne : ∀ s ∈ reservedWords, s ≠ word := fun s hs he => h (he ▸ hs)
  -- Each table of words is part of the reserved words.
  have hop : Operator.ofWord? word = none := by
    rw [Operator.ofWord?, List.find?_eq_none]
    intro o ho
    rw [decide_eq_true_eq]
    exact hne _ (by revert o; decide)
  have hkey : Keyword.ofWord? word = none := by
    rw [Keyword.ofWord?, List.find?_eq_none]
    intro k hk
    rw [decide_eq_true_eq]
    exact hne _ (by revert k; decide)
  have h1 : word ≠ "true" := (hne _ (by decide)).symm
  have h2 : word ≠ "false" := (hne _ (by decide)).symm
  have h3 : word ≠ "null" := (hne _ (by decide)).symm
  rw [Token.ofWord, if_neg h1, if_neg h2, if_neg h3, hop, hkey]

/-- A word is a name exactly if it is not reserved. -/
theorem ofWord_eq_identifier_iff {word name : String} :
    Token.ofWord word = .identifier name ↔ word = name ∧ word ∉ reservedWords := by
  constructor
  · intro h
    have hnot : word ∉ reservedWords := fun hm => by
      have hall : ∀ w ∈ reservedWords,
          (match Token.ofWord w with | .identifier _ => true | _ => false) = false := by decide
      have hw := hall word hm
      rw [h] at hw
      cases hw
    rw [ofWord_of_not_mem hnot] at h
    exact ⟨Token.identifier.inj h, hnot⟩
  · rintro ⟨rfl, h⟩
    exact ofWord_of_not_mem h

/-- A word is neither a slash, a regular expression, punctuation nor the end of the source. -/
theorem ofWord_ne (word : String) :
    Token.ofWord word ≠ .operator .slash ∧
      (∀ pattern flags, Token.ofWord word ≠ .regexp pattern flags) ∧
      (∀ p, Token.ofWord word ≠ .punct p) ∧ Token.ofWord word ≠ .eof := by
  unfold Token.ofWord
  split
  · exact ⟨nofun, nofun, nofun, nofun⟩
  split
  · exact ⟨nofun, nofun, nofun, nofun⟩
  split
  · exact ⟨nofun, nofun, nofun, nofun⟩
  split
  · next _ o ho =>
    -- No operator that is a word is a slash.
    refine ⟨fun he => ?_, nofun, nofun, nofun⟩
    obtain rfl : o = .slash := Token.operator.inj he
    have hmem := List.mem_of_find?_eq_some ho
    simp at hmem
  · exact ⟨nofun, nofun, nofun, nofun⟩
  · exact ⟨nofun, nofun, nofun, nofun⟩

end Brace
