/-
# Written texts

`Written text ts a` says that the characters `text` are handed out as the tokens `ts`, and that the
operand `a` is read from them unless a call or an index stands behind.  A text that is `Enclosed`
can be called and indexed as well, and a `Phrase` needs something behind it that ends an expression.
There is one lemma for each way in which a text is put together from other ones.
-/
import Brace.Proofs.Node.Reread
import Brace.Proofs.Parser.Reads
import Brace.Proofs.Token.Lexes

namespace Brace

open Brace.Parser (literal? binaryOperator? combine)

variable {text text' : List Char} {ts us : List Token}

/-! ## Texts and their tokens -/

/-- Where an operand is expected, the characters are handed out as the tokens. -/
def Spells (text : List Char) (ts : List Token) : Prop :=
  ∀ cs modes, Delimited cs → Mode.InExpression modes →
    Lexes ⟨text ++ cs, modes, true⟩ ts ⟨cs, modes, false⟩

/-- What stands between brackets; it may be missing. -/
def Fills (text : List Char) (ts : List Token) : Prop :=
  text = [] ∧ ts = [] ∨ Spells text ts

theorem Punct.char_mem_delimiters (p : Punct) : p.char ∈ delimiters := by
  cases p <;> decide

/-- A separator with a blank behind it. -/
theorem Spells.separated {p : Punct} (hp : p = .comma ∨ p = .colon ∨ p = .semicolon)
    (h : Spells text ts) (h' : Spells text' us) (hus : us ≠ []) :
    Spells (text ++ p.char :: ' ' :: text') (ts ++ Token.punct p :: us) := by
  intro cs modes hcs hm
  have hsep : Lexes ⟨p.char :: ' ' :: (text' ++ cs), modes, false⟩ [.punct p]
      ⟨' ' :: (text' ++ cs), modes, true⟩ := by
    have hlex : Lexes ⟨p.char :: ' ' :: (text' ++ cs), modes, false⟩ _ _ := lexes_punct p hm
    rcases hp with rfl | rfl | rfl <;> exact hlex
  have hchars : text ++ p.char :: ' ' :: text' ++ cs =
      text ++ (p.char :: ' ' :: (text' ++ cs)) := by
    simp
  rw [hchars]
  refine (h _ _ (delimited_cons p.char_mem_delimiters _) hm).append (hsep.cons ?_)
  exact (h' cs modes hcs hm).blank hm hus

/-- A word, or a sign, between two texts with blanks around it. -/
theorem Spells.between {word : List Char} {x : Token}
    (hx : ∀ cs modes, Mode.InExpression modes →
      Lexes ⟨word ++ ' ' :: cs, modes, false⟩ [x] ⟨' ' :: cs, modes, true⟩)
    (h : Spells text ts) (h' : Spells text' us) (hus : us ≠ []) :
    Spells (text ++ ' ' :: (word ++ ' ' :: text')) (ts ++ x :: us) := by
  intro cs modes hcs hm
  have hchars : text ++ ' ' :: (word ++ ' ' :: text') ++ cs =
      text ++ (' ' :: (word ++ ' ' :: (text' ++ cs))) := by
    simp
  rw [hchars]
  refine (h _ _ (delimited_cons (by decide) _) hm).append (Lexes.blank hm (by simp) ?_)
  exact (hx _ _ hm).cons ((h' cs modes hcs hm).blank hm hus)

/-- A word with a space behind it is handed out as its token. -/
theorem lexes_keyword (k : Keyword) {cs : List Char} {modes : List Mode} {operand : Bool}
    (hm : Mode.InExpression modes) :
    Lexes ⟨k.word.toList ++ ' ' :: cs, modes, operand⟩ [.keyword k] ⟨' ' :: cs, modes, true⟩ := by
  obtain ⟨c, word, hk, hc, hword⟩ : ∃ c word, k.word.toList = c :: word ∧
      Scan.isNameStart c = true ∧ ∀ d ∈ word, Scan.isNameChar d = true := by
    cases k <;> exact ⟨_, _, rfl, by decide, List.all_eq_true.mp rfl⟩
  have hof : Token.ofWord (String.ofList (c :: word)) = .keyword k := by
    rw [← hk, String.ofList_toList]
    cases k <;> decide
  have hlex : Lexes ⟨c :: word ++ ' ' :: cs, modes, operand⟩ _ _ :=
    lexes_word hc hword (delimited_cons (by decide) cs) hm
  rw [hof] at hlex
  rw [hk]
  exact hlex

/-! ## Brackets -/

/-- The brackets that belong together. -/
def Punct.brackets : List (Punct × Punct) :=
  [(leftParen, rightParen), (leftBracket, rightBracket), (leftBrace, rightBrace)]

variable {start stop : Punct}

/-- Between brackets an expression is read, and the closing one takes back what the opening one
did. -/
theorem Mode.after_brackets (hb : (start, stop) ∈ Punct.brackets) {modes : List Mode}
    (hm : InExpression modes) :
    InExpression (after modes (.punct start)) ∧
      after (after modes (.punct start)) (.punct stop) = modes := by
  simp only [Punct.brackets, List.mem_cons, Prod.mk.injEq, List.not_mem_nil, or_false] at hb
  rcases hb with ⟨rfl, rfl⟩ | ⟨rfl, rfl⟩ | ⟨rfl, rfl⟩
  · exact ⟨hm, rfl⟩
  · exact ⟨hm, rfl⟩
  · obtain ⟨hclose, hm'⟩ := closeBrace_openBrace hm
    rw [(after_of_inExpression hm).2]
    exact ⟨hm', hclose⟩

/-- What is to come behind brackets: an operand behind the opening one, none behind the closing one.
-/
theorem expectsOperand_brackets (hb : (start, stop) ∈ Punct.brackets) :
    (Token.punct start).expectsOperand = true ∧ (Token.punct stop).expectsOperand = false ∧
      (Token.punct stop).closes = true ∧ stop ≠ .comma := by
  have hall : ∀ b ∈ Punct.brackets, (Token.punct b.1).expectsOperand = true ∧
      (Token.punct b.2).expectsOperand = false ∧ (Token.punct b.2).closes = true ∧
        b.2 ≠ .comma := by
    decide
  exact hall _ hb

/-- A text between brackets is handed out between their tokens. -/
theorem Fills.lexes_bracketed (hb : (start, stop) ∈ Punct.brackets) (h : Fills text ts)
    {cs : List Char} {modes : List Mode} {operand : Bool} (hm : Mode.InExpression modes) :
    Lexes ⟨start.char :: (text ++ stop.char :: cs), modes, operand⟩
      (.punct start :: (ts ++ [Token.punct stop])) ⟨cs, modes, false⟩ := by
  obtain ⟨hin, hclose⟩ := Mode.after_brackets hb hm
  obtain ⟨hstart, hstop, -⟩ := expectsOperand_brackets hb
  have hopen : Lexes ⟨start.char :: (text ++ stop.char :: cs), modes, operand⟩ _ _ :=
    lexes_punct start hm
  have hend (operand : Bool) : Lexes ⟨stop.char :: cs, _, operand⟩ _ _ := lexes_punct stop hin
  rw [hstart] at hopen
  rw [hclose, hstop] at hend
  refine hopen.cons ?_
  rcases h with ⟨rfl, rfl⟩ | h
  · exact hend true
  · exact (h _ _ (delimited_cons stop.char_mem_delimiters cs) hin).append (hend false)

/-- A text between brackets has its tokens wherever it stands. -/
theorem Fills.bracketed (hb : (start, stop) ∈ Punct.brackets) (h : Fills text ts) :
    Spells (start.char :: (text ++ [stop.char])) (.punct start :: (ts ++ [Token.punct stop])) := by
  intro cs modes _ hm
  have hchars : start.char :: (text ++ [stop.char]) ++ cs =
      start.char :: (text ++ stop.char :: cs) := by
    simp
  rw [hchars]
  exact h.lexes_bracketed hb hm

/-! ## Operands -/

/-- A text begins neither with a blank nor with a closing brace. -/
def Starts (text : List Char) : Prop :=
  ∃ c cs, text = c :: cs ∧ Scan.isBlank c = false ∧ c ≠ '\x7d'

/-- Whether neither a call, an index nor an operator begins with a token. -/
def Token.Ends (t : Token) : Prop :=
  t ≠ .punct .leftParen ∧ t ≠ .punct .leftBracket ∧ binaryOperator? t = none

/-- The text of an operand. -/
structure Written (text : List Char) (ts : List Token) (a : Node) : Prop where
  /-- It begins neither with a blank nor with a closing brace. -/
  starts : Starts text
  /-- Its first token is a brace only if its first character is one. -/
  brace : front ts = .punct .leftBrace → text.head? = some '\x7b'
  /-- It is handed out as the tokens. -/
  spells : Spells text ts
  /-- The operand is read from them if neither a call nor an index follows. -/
  reads : ∀ us, front us ≠ .punct .leftParen → front us ≠ .punct .leftBracket →
    Reads .operand (ts ++ us) a us

/-- The text of an operand that can be called or indexed. -/
structure Enclosed (text : List Char) (ts : List Token) (a : Node) : Prop
    extends Written text ts a where
  /-- Calls and indices that follow belong to it. -/
  suffix : ∀ us b vs, Reads (.suffixes a) us b vs → Reads .operand (ts ++ us) b vs

/-- The text of a construct, if a token follows that may stand behind it. -/
structure Phrase (g : Goal) (Follow : Token → Prop) (text : List Char) (ts : List Token)
    (a : g.Answer) : Prop where
  /-- It begins neither with a blank nor with a closing brace. -/
  starts : Starts text
  /-- It is handed out as the tokens. -/
  spells : Spells text ts
  /-- The construct is read from them. -/
  reads : ∀ us, Follow (front us) → Reads g (ts ++ us) a us

theorem Starts.append (h : Starts text) (text' : List Char) : Starts (text ++ text') := by
  obtain ⟨c, cs, rfl, hc⟩ := h
  exact ⟨c, cs ++ text', rfl, hc⟩

theorem Punct.starts (hb : (start, stop) ∈ Punct.brackets) (text : List Char) :
    Starts (start.char :: text) := by
  have hall : ∀ b ∈ Punct.brackets, Scan.isBlank b.1.char = false ∧ b.1.char ≠ '\x7d' := by
    decide
  exact ⟨start.char, text, rfl, hall _ hb⟩

/-- A closing token ends an expression. -/
theorem Token.ends_of_closes {t : Token} (h : t.closes = true) : t.Ends := by
  refine ⟨?_, ?_, ?_⟩
  · rintro rfl
    cases h
  · rintro rfl
    cases h
  · cases t <;> first | rfl | cases h

theorem Token.ends_keyword (k : Keyword) : (Token.keyword k).Ends := ⟨nofun, nofun, rfl⟩

namespace Written

variable {a b : Node}

theorem ne_nil (h : Written text ts a) : ts ≠ [] := by
  rintro rfl
  have ho : (front []).opensOperand = true := (h.reads [] nofun nofun).opens
  cases ho

/-- The first token is that of the text itself, whatever stands behind. -/
theorem front_append (h : Written text ts a) (us : List Token) : front (ts ++ us) = front ts := by
  cases ts with
  | nil => exact absurd rfl h.ne_nil
  | cons => rfl

/-- A written operand is an expression in front of whatever ends one. -/
theorem reads_expression (h : Written text ts a) (hus : (front us).Ends) :
    Reads .expression (ts ++ us) a us := by
  refine .expression (h.reads us hus.1 hus.2.1) (.operatorsEnd fun o k he => ?_)
  cases hus.2.2.symm.trans he

/-- A written operand is a phrase. -/
theorem phrase (h : Written text ts a) :
    Phrase .expression (·.closes = true) text ts a where
  starts := h.starts
  spells := h.spells
  reads _ hus := h.reads_expression (Token.ends_of_closes hus)

/-- An operator in front of a written operand is a written operand. -/
theorem unary (op : UnaryOp) {s : String} (h : Written s.toList ts a) :
    Written (Node.unarySource op s).toList (.operator op.sign :: ts) (.unary op a) where
  starts := by
    cases op with
    | not => exact ⟨'n', 'o' :: 't' :: ' ' :: s.toList, by simp [Node.unarySource], by decide⟩
    | plus => exact ⟨'+', s.toList, by simp [Node.unarySource, UnaryOp.spelling], by decide⟩
    | minus => exact ⟨'-', s.toList, by simp [Node.unarySource, UnaryOp.spelling], by decide⟩
  brace := nofun
  spells cs modes hcs hm := lexes_unary op s hm h.ne_nil (h.spells cs modes hcs hm)
  reads us hcall hindex := .unary op.unary?_sign (h.reads us hcall hindex)

/-- An operator between two operands. -/
theorem operation {o : Operator} {k : Nat} (ho : o.precedence? = some k)
    (hi : o = .assign → a.isIdentifier = true) (ha : Written text ts a)
    (hb : Written text' us b) :
    Phrase .expression (·.closes = true) (text ++ ' ' :: (o.spelling.toList ++ ' ' :: text'))
      (ts ++ Token.operator o :: us) (combine o a b) where
  starts := ha.starts.append _
  spells := ha.spells.between (fun _ _ hm => lexes_operator o hm) hb.spells hb.ne_nil
  reads vs hvs := by
    obtain ⟨hcall, hindex, hop⟩ := Token.ends_of_closes hvs
    have hpos : 0 < k := by
      cases o <;> cases ho <;> decide
    have hend (threshold : Nat) (c : Node) : Reads (.operators threshold c) vs c vs :=
      .operatorsEnd fun o k he => nomatch hop.symm.trans he
    rw [List.append_assoc]
    refine .expression (ha.reads _ nofun nofun) ?_
    exact .fold ho hpos hi (hb.reads vs hcall hindex) (hend k b) (hend 0 _)

end Written

/-- An operand without prefix operators, calls and indices can be called or indexed. -/
theorem Enclosed.of_suffix {a : Node} (hs : Starts text)
    (hbrace : front ts = .punct .leftBrace → text.head? = some '\x7b') (hspells : Spells text ts)
    (h : ∀ us b vs, Reads (.suffixes a) us b vs → Reads .operand (ts ++ us) b vs) :
    Enclosed text ts a where
  starts := hs
  brace := hbrace
  spells := hspells
  reads us hcall hindex := h us a us (.suffixesEnd hcall hindex)
  suffix := h

/-- A text from which a primary is read is enclosed. -/
theorem Enclosed.of_primary {a : Node} (hs : Starts text)
    (hbrace : front ts = .punct .leftBrace → text.head? = some '\x7b') (hspells : Spells text ts)
    (h : ∀ us, Reads .primary (ts ++ us) a us) : Enclosed text ts a :=
  .of_suffix hs hbrace hspells fun us _ _ hb => .plain (h us) hb

/-- A literal is enclosed. -/
theorem Enclosed.of_literal {t : Token} {a : Node} (h : literal? t = some a) (hs : Starts text)
    (hspells : Spells text [t]) : Enclosed text [t] a := by
  refine .of_primary hs ?_ hspells fun us => .literal h
  rintro rfl
  cases h

/-- A list, an object, or an expression in parentheses. -/
theorem Enclosed.of_bracketed {a : Node} (hb : (start, stop) ∈ Punct.brackets) (h : Fills text ts)
    (hr : ∀ us, Reads .primary (.punct start :: (ts ++ Token.punct stop :: us)) a us) :
    Enclosed (start.char :: (text ++ [stop.char]))
      (.punct start :: (ts ++ [Token.punct stop])) a := by
  refine .of_primary (Punct.starts hb _) ?_ (h.bracketed hb) fun us => ?_
  · intro he
    obtain rfl : start = .leftBrace := Token.punct.inj he
    rfl
  · rw [List.cons_append, List.append_assoc]
    exact hr us

/-- A phrase in parentheses is enclosed. -/
theorem Phrase.parenthesized {a : Node} (h : Phrase .expression (·.closes = true) text ts a) :
    Enclosed ('(' :: (text ++ [')'])) (.punct .leftParen :: (ts ++ [Token.punct .rightParen])) a :=
  .of_bracketed (by decide) (Or.inr h.spells) fun us => .grouped (h.reads _ rfl)

/-- A call or an index behind an operand. -/
theorem Enclosed.followed {a c : Node} (hb : (start, stop) ∈ Punct.brackets)
    (h : Enclosed text ts a) (hfills : Fills text' us)
    (hr : ∀ vs b ws, Reads (.suffixes c) vs b ws →
      Reads (.suffixes a) (.punct start :: (us ++ Token.punct stop :: vs)) b ws) :
    Enclosed (text ++ start.char :: (text' ++ [stop.char]))
      (ts ++ Token.punct start :: (us ++ [Token.punct stop])) c := by
  -- A suffix leaves the front of the text alone and adds to what is read behind it.
  refine .of_suffix (h.starts.append _) (fun he => ?_) (fun cs modes _ hm => ?_)
    fun vs b ws hb => ?_
  · rw [h.front_append] at he
    rw [List.head?_append, h.brace he]
    rfl
  · have hchars : text ++ start.char :: (text' ++ [stop.char]) ++ cs =
        text ++ start.char :: (text' ++ stop.char :: cs) := by
      simp
    rw [hchars]
    exact (h.spells _ modes (delimited_cons start.char_mem_delimiters _) hm).append
      (hfills.lexes_bracketed hb hm)
  · have htokens : ts ++ Token.punct start :: (us ++ [Token.punct stop]) ++ vs =
        ts ++ Token.punct start :: (us ++ Token.punct stop :: vs) := by
      simp
    rw [htokens]
    exact h.suffix _ b ws (hr vs b ws hb)

/-- An enclosed text with an index is enclosed. -/
theorem Enclosed.member {a b : Node} (h : Enclosed text ts a)
    (h' : Phrase .expression (·.closes = true) text' us b) :
    Enclosed (text ++ '[' :: (text' ++ [']']))
      (ts ++ Token.punct .leftBracket :: (us ++ [Token.punct .rightBracket])) (.member a b) :=
  .followed (by decide) h (Or.inr h'.spells) fun _ _ _ hc => .index (h'.reads _ rfl) hc

/-- A key, a colon and a phrase are an entry. -/
theorem Written.property {a b : Node} (h : Written text ts a) (hkey : a.isKey = true)
    (h' : Phrase .expression (·.closes = true) text' us b) (hus : us ≠ []) :
    Phrase .property (·.closes = true) (text ++ ':' :: ' ' :: text')
      (ts ++ Token.punct .colon :: us) (a, b) where
  starts := h.starts.append _
  spells := h.spells.separated (Or.inr (Or.inl rfl)) h'.spells hus
  reads vs hvs := by
    rw [List.append_assoc]
    exact .property (h.reads _ nofun nofun) hkey (h'.reads vs hvs)

/-! ## Items and statements -/

/-- Tokens that open an operand are not none. -/
theorem ne_nil_of_opens (h : (front ts).opensOperand = true) : ts ≠ [] := by
  rintro rfl
  cases h

/-- No token that an operand begins with ends an expression. -/
theorem ne_of_opensOperand {t u : Token} (h : t.opensOperand = true) (hu : u.closes = true) :
    t ≠ u := by
  rintro rfl
  exact nomatch (opensOperand_eq_false_of_closes hu).symm.trans h

theorem opens_append (h : (front ts).opensOperand = true) (us : List Token) :
    (front (ts ++ us)).opensOperand = true := by
  cases ts with
  | nil => cases h
  | cons => exact h

/-- The tokens of a phrase open an operand. -/
theorem Phrase.opens {item : Goal} {a : item.Answer} (h : Phrase item (·.closes = true) text ts a)
    (hitem : ∀ ts, item.Opens ts → (front ts).opensOperand = true) :
    (front ts).opensOperand = true := by
  have ho := hitem _ (h.reads [] rfl).opens
  rwa [List.append_nil] at ho

section Lists

variable {α : Type} {write : α → List Char} {item : Goal} {answer : α → item.Answer}

/-- Constructs with separators and blanks between them, as the rules for a list of them read
them. -/
theorem exists_joined (hitem : ∀ ts, item.Opens ts → (front ts).opensOperand = true) {p : Punct}
    (hp : p = .comma ∨ p = .semicolon) {close : Token} (hclose : close.closes = true)
    {Joined : List Token → List item.Answer → List Token → Prop}
    (hlast : ∀ ts us a, Reads item ts a us → (front ts).opensOperand = true → front us = close →
      Joined ts [a] us)
    (hnext : ∀ ts us vs a as, Reads item ts a (.punct p :: us) → (front ts).opensOperand = true →
      (front us).opensOperand = true → Joined us as vs → Joined ts (a :: as) vs)
    (x : α) (xs : List α)
    (h : ∀ y ∈ x :: xs, ∃ ts, Phrase item (·.closes = true) (write y) ts (answer y)) :
    ∃ ts, (front ts).opensOperand = true ∧
      Starts ([p.char, ' '].intercalate ((x :: xs).map write)) ∧
      Spells ([p.char, ' '].intercalate ((x :: xs).map write)) ts ∧
        ∀ us, front us = close → Joined (ts ++ us) ((x :: xs).map answer) us := by
  obtain ⟨ts, hx⟩ := h x List.mem_cons_self
  -- The first construct is read in front of the separator, the last one in front of `close`.
  induction xs generalizing x ts with
  | nil =>
    refine ⟨ts, hx.opens hitem, by simpa using hx.starts, by simpa using hx.spells,
      fun us hus => ?_⟩
    have hr := hx.reads us (hus ▸ hclose)
    exact hlast _ _ _ hr (hitem _ hr.opens) hus
  | cons y xs ih =>
    have hxs : ∀ z ∈ y :: xs, ∃ ts, Phrase item (·.closes = true) (write z) ts (answer z) :=
      fun z hz => h z (List.mem_cons_of_mem x hz)
    obtain ⟨us, hy⟩ := hxs y List.mem_cons_self
    obtain ⟨us, hopens, -, hspells, hreads⟩ := ih y hxs us hy
    have hp' : p = .comma ∨ p = .colon ∨ p = .semicolon := hp.imp_right Or.inr
    -- The first construct ends at the separator, whatever stands behind the last one.
    have hr (vs : List Token) : Reads item (ts ++ Token.punct p :: us ++ vs) (answer x)
        (.punct p :: (us ++ vs)) := by
      rw [List.append_assoc]
      refine hx.reads _ ?_
      rcases hp with rfl | rfl <;> rfl
    have hopens' : (front (ts ++ Token.punct p :: us)).opensOperand = true := by
      have ho := hitem _ (hr []).opens
      rwa [List.append_nil] at ho
    rw [List.map_cons, List.map_cons, List.intercalate_cons_cons, List.append_assoc]
    refine ⟨ts ++ Token.punct p :: us, hopens', hx.starts.append _,
      hx.spells.separated hp' hspells (ne_nil_of_opens hopens), fun vs hvs => ?_⟩
    exact hnext _ _ _ _ _ (hr vs) (opens_append hopens' vs) (opens_append hopens vs) (hreads vs hvs)

/-- Any number of items is read up to and with its closing bracket. -/
theorem exists_bracketed (hitem : ∀ ts, item.Opens ts → (front ts).opensOperand = true)
    (hb : (start, stop) ∈ Punct.brackets) {xs : List α}
    (h : ∀ x ∈ xs, ∃ ts, Phrase item (·.closes = true) (write x) ts (answer x)) :
    ∃ ts, Fills ([',', ' '].intercalate (xs.map write)) ts ∧
      ∀ us, Reads (.bracketed stop item) (ts ++ Token.punct stop :: us) (xs.map answer) us := by
  obtain ⟨-, -, hcloses, hcomma⟩ := expectsOperand_brackets hb
  cases xs with
  | nil => exact ⟨[], Or.inl ⟨rfl, rfl⟩, fun us => .noItems⟩
  | cons x xs =>
    obtain ⟨ts, hopens, -, hspells, hreads⟩ := exists_joined hitem (Or.inl rfl) hcloses
      (fun _ _ _ hr _ hus => Reads.lastItem hr (Or.inl hus))
      (fun _ _ _ _ _ hr _ hus has =>
        Reads.nextItem hcomma hr (ne_of_opensOperand hus hcloses) has) x xs h
    exact ⟨ts, Or.inr hspells, fun us => .someItems
      (ne_of_opensOperand (opens_append hopens _) hcloses)
      (ne_of_opensOperand (opens_append hopens _) rfl) (hreads _ rfl)⟩

/-- A phrase is a statement where a sequence is closed. -/
theorem Phrase.statement {a : Node} (h : Phrase .expression (·.closes = true) text ts a)
    {close : Token} (hclose : close.closes = true) :
    Phrase (.statements close) (· = close) text ts [a] where
  starts := h.starts
  spells := h.spells
  reads us hus := by
    have hr := h.reads us (hus ▸ hclose)
    exact .lastStatement (ne_of_opensOperand hr.opens hclose) hr hus

/-- Statements with semicolons and blanks between them are read up to the token that ends them. -/
theorem exists_statements {answer : α → Node} {close : Token}
    (hclose : close.closes = true ∧ close ≠ .punct .semicolon) (x : α) (xs : List α)
    (h : ∀ y ∈ x :: xs, ∃ ts, Phrase .expression (·.closes = true) (write y) ts (answer y)) :
    ∃ ts, Phrase (.statements close) (· = close) ([';', ' '].intercalate ((x :: xs).map write)) ts
      ((x :: xs).map answer) := by
  have hne {ts : List Token} (h : (front ts).opensOperand = true) : front ts ≠ close :=
    ne_of_opensOperand h hclose.1
  obtain ⟨ts, -, hstarts, hspells, hreads⟩ := exists_joined (fun _ => id) (Or.inr rfl) hclose.1
    (fun _ _ _ hr hts hus => Reads.lastStatement (hne hts) hr hus)
    (fun _ _ _ _ _ hr hts _ has => Reads.nextStatement (hne hts) hclose.2 hr has) x xs h
  exact ⟨ts, hstarts, hspells, hreads⟩

end Lists

/-! ## Conditionals -/

/-- A branch that does not begin with a brace. -/
theorem Written.branch {a : Node} (h : Written text ts a) (hbrace : text.head? ≠ some '\x7b') :
    Phrase .branch Token.Ends text ts a where
  starts := h.starts
  spells := h.spells
  reads us hus := by
    refine .bareBranch (fun he => hbrace (h.brace ?_)) (h.reads_expression hus)
    rwa [h.front_append] at he

/-- A branch in braces. -/
theorem Fills.block {as : List Node} (h : Fills text ts)
    (hr : ∀ us, Reads (.statements (.punct .rightBrace)) (ts ++ Token.punct .rightBrace :: us) as
      (.punct .rightBrace :: us)) :
    Phrase .branch Token.Ends ('\x7b' :: (text ++ ['\x7d']))
      (.punct .leftBrace :: (ts ++ [Token.punct .rightBrace])) (.block as) := by
  have hb : (Punct.leftBrace, Punct.rightBrace) ∈ Punct.brackets := by decide
  refine ⟨Punct.starts hb _, h.bracketed hb, fun us _ => ?_⟩
  rw [List.cons_append, List.append_assoc]
  exact .block (hr us)

/-- A branch behind its word, or nothing. -/
inductive BranchWritten (k : Keyword) : List Char → List Token → Option Node → Prop where
  /-- There is no branch. -/
  | none : BranchWritten k [] [] none
  /-- There is a branch. -/
  | some {text : List Char} {ts : List Token} {a : Node} :
      Phrase .branch Token.Ends text ts a →
        BranchWritten k (' ' :: (k.word.toList ++ ' ' :: text)) (.keyword k :: ts) (some a)

namespace BranchWritten

variable {k : Keyword} {b : Option Node}

/-- A text goes on with the text of a branch. -/
theorem spells (h : BranchWritten k text' us b) (ht : Spells text ts) :
    Spells (text ++ text') (ts ++ us) := by
  cases h with
  | none => simpa using ht
  | some h =>
    refine ht.between (fun _ _ hm => lexes_keyword k hm) h.spells ?_
    rintro rfl
    have hr := h.reads [] ⟨nofun, nofun, rfl⟩
    cases hr with
    | bareBranch _ he => exact he.front_ne_of_expression.2 rfl

/-- A branch is read in front of whatever ends an expression and is not its word. -/
theorem reads (h : BranchWritten k text us b) {vs : List Token} (hvs : (front vs).Ends)
    (hk : front vs ≠ .keyword k) : Reads (.branchAfter k) (us ++ vs) b vs := by
  cases h with
  | none => exact .noBranch hk
  | some h => exact .someBranch (h.reads vs hvs)

theorem front_append (h : BranchWritten k text us b) (vs : List Token) :
    front (us ++ vs) = .keyword k ∨ front (us ++ vs) = front vs := by
  cases h with
  | none => exact Or.inr rfl
  | some _ => exact Or.inl rfl

/-- What begins with a branch ends an expression, if what stands behind it does. -/
theorem ends_append (h : BranchWritten k text us b) {vs : List Token} (hvs : (front vs).Ends) :
    (front (us ++ vs)).Ends := by
  rcases h.front_append vs with he | he
  · rw [he]
    exact Token.ends_keyword k
  · rwa [he]

end BranchWritten

/-- A conditional is written with its branches behind their words. -/
theorem Written.conditional {a : Node} {b c : Option Node} {btext ctext : List Char}
    {bs cs : List Token} (ha : Written text ts a) (hb : BranchWritten .then_ btext bs b)
    (hc : BranchWritten .else_ ctext cs c) :
    Phrase .expression (·.closes = true) ('i' :: 'f' :: ' ' :: (text ++ btext ++ ctext))
      (.keyword .if_ :: (ts ++ bs ++ cs)) (.conditional a b c) where
  starts := ⟨'i', _, rfl, by decide⟩
  spells cs' modes hcs hm := by
    have htest := hc.spells (hb.spells ha.spells) cs' modes hcs hm
    refine (lexes_keyword .if_ hm).cons (htest.blank hm ?_)
    simp [ha.ne_nil]
  reads us hus := by
    have hends := Token.ends_of_closes hus
    -- What stands behind is neither word, so a missing branch is not taken from there.
    have hthen : front us ≠ .keyword .then_ := fun he => nomatch he ▸ hus
    have helse : front us ≠ .keyword .else_ := fun he => nomatch he ▸ hus
    have hthen' : front (cs ++ us) ≠ .keyword .then_ := by
      rcases hc.front_append us with he | he <;> rw [he]
      · nofun
      · exact hthen
    have htokens : Token.keyword .if_ :: (ts ++ bs ++ cs) ++ us =
        .keyword .if_ :: (ts ++ (bs ++ (cs ++ us))) := by
      simp
    rw [htokens]
    refine .expression (.plain (.conditional
      (ha.reads_expression (hb.ends_append (hc.ends_append hends)))
      (hb.reads (hc.ends_append hends) hthen') (hc.reads hends helse))
      (.suffixesEnd hends.1 hends.2.1)) (.operatorsEnd fun o k he => ?_)
    cases hends.2.2.symm.trans he

end Brace
