/-
# The grammar of the language

The grammar says which lists of tokens are programs.  The right side of a rule is a `Form`, built
from classes of tokens and from the symbols of the grammar by sequence, choice and repetition, and
`Derives f ts` says that the whole list `ts` has the form `f`.  Nothing here says how a list is
read, and many lists have a form in more than one way.

How a form begins a longer list is `Covers`, with an equation for each way in which a form is built,
so that a rule unfolds into the tokens of a list one by one.
-/
import Brace.Proofs.Parser.Reads

namespace Brace

/-! ## Classes of tokens -/

namespace Token

/-- Whether a token is an operand by itself. -/
def isLiteral : Token → Bool
  | number _ | string _ | boolean _ | null | regexp .. | identifier _ => true
  | _ => false

/-- Whether a token is a text. -/
def isString : Token → Bool
  | string _ => true
  | _ => false

/-- Whether a token is a name. -/
def isIdentifier : Token → Bool
  | identifier _ => true
  | _ => false

/-- Whether a token can be the key of an object. -/
def isKey : Token → Bool
  | identifier _ | string _ | number _ => true
  | _ => false

/-- Whether a token is an operator that can stand in front of an operand. -/
def isUnary : Token → Bool
  | operator .not | operator .plus | operator .minus => true
  | _ => false

/-- Whether a token is an operator that can stand between two operands, the sign of an assignment
apart. -/
def isBinary : Token → Bool
  | operator o => o ≠ .assign && o.precedence?.isSome
  | _ => false

end Token

/-! ## Rules -/

/-- The symbols of the grammar. -/
inductive Symbol where
  /-- A whole source. -/
  | program
  /-- Statements with semicolons between them. -/
  | statements
  /-- An assignment, or a chain. -/
  | expression
  /-- What can be assigned to. -/
  | target
  /-- Atoms with operators between them. -/
  | chain
  /-- An operand with its prefix operators, calls and indices. -/
  | atom
  /-- A call or an index. -/
  | suffix
  /-- Expressions with commas between them. -/
  | list
  /-- An operand. -/
  | primary
  /-- The entries of an object. -/
  | properties
  /-- The key of an entry. -/
  | key
  /-- A conditional. -/
  | conditional
  /-- A branch of a conditional. -/
  | branch
  deriving DecidableEq, Repr

/-- The right side of a rule. -/
inductive Form where
  /-- A token of a class. -/
  | token (is : Token → Bool)
  /-- Anything that has the form of a symbol. -/
  | symbol (s : Symbol)
  /-- Nothing. -/
  | empty
  /-- One form behind the other. -/
  | seq (f g : Form)
  /-- One form or the other. -/
  | alt (f g : Form)
  /-- A form any number of times. -/
  | many (f : Form)
  /-- A form, but not with the given token at its front. -/
  | excluding (t : Token) (f : Form)

namespace Form

instance : Append Form := ⟨seq⟩

instance : Union Form := ⟨alt⟩

/-- A given token. -/
def one (t : Token) : Form := token fun u => u = t

/-- A given punctuation. -/
def punct (p : Punct) : Form := one (.punct p)

/-- A form or nothing. -/
def optional (f : Form) : Form := empty ∪ f

/-- A form between two brackets. -/
def between (start stop : Punct) (f : Form) : Form := punct start ++ f ++ punct stop

/-- A form once or more with commas between, and perhaps a comma behind. -/
def commas (f : Form) : Form := f ++ many (punct .comma ++ f) ++ optional (punct .comma)

/-- Statements in braces. -/
def block : Form := between .leftBrace .rightBrace (symbol .statements)

/-- The entry of an object. -/
def entry : Form := symbol .key ++ punct .colon ++ symbol .expression

/-- Operators with atoms behind them. -/
def tail : Form := many (token Token.isBinary ++ symbol .atom)

/-- What stands between the back-quotes of a template. -/
def parts : Form := many (token Token.isString ∪ block)

/-- A branch behind its word, or nothing. -/
def branchAfter (k : Keyword) : Form := optional (one (.keyword k) ++ symbol .branch)

end Form

open Form in
/-- The rules of the grammar. -/
def Symbol.rule : Symbol → Form
  | program => symbol .statements
  | statements =>
    many (punct .semicolon) ++
      optional (symbol .expression ++
        many (punct .semicolon ++ many (punct .semicolon) ++ symbol .expression) ++
        many (punct .semicolon))
  | expression => (symbol .target ++ one (.operator .assign) ++ symbol .chain) ∪ symbol .chain
  | target => token Token.isIdentifier ∪ between .leftParen .rightParen (symbol .target)
  | chain => symbol .atom ++ tail
  | atom => (token Token.isUnary ++ symbol .atom) ∪ (symbol .primary ++ many (symbol .suffix))
  | suffix =>
    between .leftParen .rightParen (symbol .list) ∪
      between .leftBracket .rightBracket (symbol .expression)
  | list => optional (commas (symbol .expression))
  | primary =>
    token Token.isLiteral ∪ between .leftParen .rightParen (symbol .expression) ∪
      between .leftBracket .rightBracket (symbol .list) ∪
      between .leftBrace .rightBrace (symbol .properties) ∪ between .backquote .backquote parts ∪
      symbol .conditional
  | properties => optional (commas entry)
  | key => token Token.isKey ∪ between .leftParen .rightParen (symbol .key)
  | conditional =>
    one (.keyword .if_) ++ symbol .expression ++ branchAfter .then_ ++ branchAfter .else_
  | branch => block ∪ excluding (.punct .leftBrace) (symbol .expression)

/-! ## Derivations -/

/-- A whole list of tokens has a form. -/
inductive Derives : Form → List Token → Prop where
  /-- A token of the class. -/
  | token {is : Token → Bool} {t : Token} : is t = true → Derives (.token is) [t]
  /-- The right side of the rule. -/
  | symbol {s : Symbol} {ts : List Token} : Derives s.rule ts → Derives (.symbol s) ts
  /-- No tokens. -/
  | empty : Derives .empty []
  /-- A list of each form. -/
  | seq {f g : Form} {ts us : List Token} :
      Derives f ts → Derives g us → Derives (.seq f g) (ts ++ us)
  /-- A list of the first form. -/
  | left {f g : Form} {ts : List Token} : Derives f ts → Derives (.alt f g) ts
  /-- A list of the second form. -/
  | right {f g : Form} {ts : List Token} : Derives g ts → Derives (.alt f g) ts
  /-- No list of the form. -/
  | none {f : Form} : Derives (.many f) []
  /-- One list of the form in front of others. -/
  | more {f : Form} {ts us : List Token} :
      Derives f ts → Derives (.many f) us → Derives (.many f) (ts ++ us)
  /-- A list of the form with another token at its front. -/
  | excluding {t : Token} {f : Form} {ts : List Token} :
      front ts ≠ t → Derives f ts → Derives (.excluding t f) ts

/-! ## Forms at the front of a list -/

/-- The tokens `ts` begin with a list of the form `f`, and `us` stands behind it. -/
def Covers (f : Form) (ts us : List Token) : Prop := ∃ ws, Derives f ws ∧ ts = ws ++ us

/-- A list has a form if the form begins it and nothing is left. -/
theorem derives_iff_covers {f : Form} {ts : List Token} : Derives f ts ↔ Covers f ts [] := by
  constructor
  · intro h
    exact ⟨ts, h, (List.append_nil ts).symm⟩
  · rintro ⟨ws, h, rfl⟩
    rwa [List.append_nil]

namespace Covers

theorem length_le {f : Form} {ts us : List Token} (h : Covers f ts us) :
    us.length ≤ ts.length := by
  obtain ⟨ws, -, rfl⟩ := h
  simp

@[simp]
theorem token_iff {is : Token → Bool} {ts us : List Token} :
    Covers (.token is) ts us ↔ ∃ t, is t = true ∧ ts = t :: us := by
  constructor
  · rintro ⟨_, h, rfl⟩
    cases h with
    | token ht => exact ⟨_, ht, rfl⟩
  · rintro ⟨t, ht, rfl⟩
    exact ⟨[t], .token ht, rfl⟩

@[simp]
theorem one_iff {t : Token} {ts us : List Token} : Covers (.one t) ts us ↔ ts = t :: us := by
  simp [Form.one]

@[simp]
theorem punct_iff {p : Punct} {ts us : List Token} :
    Covers (.punct p) ts us ↔ ts = .punct p :: us := one_iff

/-- A symbol begins a list as its rule does. -/
theorem symbol_iff {s : Symbol} {ts us : List Token} :
    Covers (.symbol s) ts us ↔ Covers s.rule ts us := by
  constructor
  · rintro ⟨ws, h, rfl⟩
    cases h with
    | symbol h => exact ⟨ws, h, rfl⟩
  · rintro ⟨ws, h, rfl⟩
    exact ⟨ws, .symbol h, rfl⟩

@[simp]
theorem empty_iff {ts us : List Token} : Covers .empty ts us ↔ ts = us := by
  constructor
  · rintro ⟨_, h, rfl⟩
    cases h
    rfl
  · rintro rfl
    exact ⟨[], .empty, rfl⟩

/-- A sequence begins a list with its first form, and with its second form what is left. -/
@[simp]
theorem seq_iff {f g : Form} {ts us : List Token} :
    Covers (f ++ g) ts us ↔ ∃ vs, Covers f ts vs ∧ Covers g vs us := by
  constructor
  · rintro ⟨_, h, rfl⟩
    cases h with
    | seq hf hg => exact ⟨_, ⟨_, hf, List.append_assoc ..⟩, ⟨_, hg, rfl⟩⟩
  · rintro ⟨_, ⟨v, hf, rfl⟩, ⟨w, hg, rfl⟩⟩
    exact ⟨v ++ w, .seq hf hg, (List.append_assoc ..).symm⟩

/-- A choice begins a list as one of its forms does. -/
@[simp]
theorem alt_iff {f g : Form} {ts us : List Token} :
    Covers (f ∪ g) ts us ↔ Covers f ts us ∨ Covers g ts us := by
  constructor
  · rintro ⟨ws, h, rfl⟩
    cases h with
    | left h => exact Or.inl ⟨ws, h, rfl⟩
    | right h => exact Or.inr ⟨ws, h, rfl⟩
  · rintro (⟨ws, h, rfl⟩ | ⟨ws, h, rfl⟩)
    · exact ⟨ws, .left h, rfl⟩
    · exact ⟨ws, .right h, rfl⟩

/-- A repetition is empty, or one item with a repetition behind it. -/
theorem many_iff {f : Form} {ts us : List Token} :
    Covers (.many f) ts us ↔ ts = us ∨ ∃ vs, Covers f ts vs ∧ Covers (.many f) vs us := by
  constructor
  · rintro ⟨_, h, rfl⟩
    cases h with
    | none => exact Or.inl rfl
    | more hf hg => exact Or.inr ⟨_, ⟨_, hf, List.append_assoc ..⟩, ⟨_, hg, rfl⟩⟩
  · rintro (rfl | ⟨_, ⟨v, hf, rfl⟩, ⟨w, hg, rfl⟩⟩)
    · exact ⟨[], .none, rfl⟩
    · exact ⟨v ++ w, .more hf hg, (List.append_assoc ..).symm⟩

theorem none {f : Form} {ts : List Token} : Covers (.many f) ts ts := many_iff.mpr (Or.inl rfl)

/-- A repetition has one item more. -/
theorem more {f : Form} {ts us vs : List Token} (h : Covers f ts us)
    (h' : Covers (.many f) us vs) : Covers (.many f) ts vs :=
  many_iff.mpr (Or.inr ⟨us, h, h'⟩)

/-- Repetitions can be put together. -/
theorem many_append {f : Form} {ts us vs : List Token} (h : Covers (.many f) ts us)
    (h' : Covers (.many f) us vs) : Covers (.many f) ts vs := by
  obtain ⟨ws, h, rfl⟩ := h
  generalize hf : Form.many f = g at h
  induction h with
  | none =>
    cases hf
    exact h'
  | more hd _ _ ih =>
    cases hf
    exact more ⟨_, hd, List.append_assoc ..⟩ (ih rfl)
  | _ => cases hf

@[simp]
theorem optional_iff {f : Form} {ts us : List Token} :
    Covers (.optional f) ts us ↔ ts = us ∨ Covers f ts us := by
  simp [Form.optional]

/-- What is between brackets begins behind the opening one and is followed by the closing one. -/
@[simp]
theorem between_iff {start stop : Punct} {f : Form} {ts us : List Token} :
    Covers (.between start stop f) ts us ↔
      ∃ vs, ts = .punct start :: vs ∧ Covers f vs (.punct stop :: us) := by
  simp only [Form.between, seq_iff, punct_iff]
  constructor
  · rintro ⟨_, ⟨vs, rfl, h⟩, rfl⟩
    exact ⟨vs, rfl, h⟩
  · rintro ⟨vs, rfl, h⟩
    exact ⟨_, ⟨vs, rfl, h⟩, rfl⟩

/-- A form that must not begin with a token begins a list without it. -/
theorem excluding_iff {t : Token} {f : Form} {ts us : List Token} :
    Covers (.excluding t f) ts us ↔ ∃ ws, Derives f ws ∧ front ws ≠ t ∧ ts = ws ++ us := by
  constructor
  · rintro ⟨ws, h, rfl⟩
    cases h with
    | excluding hne h => exact ⟨ws, h, hne, rfl⟩
  · rintro ⟨ws, h, hne, rfl⟩
    exact ⟨ws, .excluding hne h, rfl⟩

end Covers

/-! ## The rules, unfolded -/

namespace Covers

variable {ts us : List Token}

/-- An expression is an assignment or a chain. -/
theorem expression_iff :
    Covers (.symbol .expression) ts us ↔
      (∃ vs, Covers (.symbol .target) ts (.operator .assign :: vs) ∧
        Covers (.symbol .chain) vs us) ∨ Covers (.symbol .chain) ts us := by
  rw [symbol_iff]
  simp only [Symbol.rule, alt_iff, seq_iff, one_iff]
  constructor
  · rintro (⟨vs, ⟨_, h, rfl⟩, h'⟩ | h)
    · exact Or.inl ⟨vs, h, h'⟩
    · exact Or.inr h
  · rintro (⟨vs, h, h'⟩ | h)
    · exact Or.inl ⟨vs, ⟨_, h, rfl⟩, h'⟩
    · exact Or.inr h

/-- A target is a name or a target in parentheses. -/
theorem target_iff :
    Covers (.symbol .target) ts us ↔ (∃ name, ts = .identifier name :: us) ∨
      ∃ vs, ts = .punct .leftParen :: vs ∧
        Covers (.symbol .target) vs (.punct .rightParen :: us) := by
  rw [symbol_iff]
  simp only [Symbol.rule, alt_iff, between_iff, token_iff]
  constructor
  · rintro (⟨t, ht, rfl⟩ | h)
    · cases t <;> first | exact Or.inl ⟨_, rfl⟩ | cases ht
    · exact Or.inr h
  · rintro (⟨name, rfl⟩ | h)
    · exact Or.inl ⟨_, rfl, rfl⟩
    · exact Or.inr h

/-- A key is a name, a text or a number, or a key in parentheses. -/
theorem key_iff :
    Covers (.symbol .key) ts us ↔ (∃ t : Token, t.isKey = true ∧ ts = t :: us) ∨
      ∃ vs, ts = .punct .leftParen :: vs ∧
        Covers (.symbol .key) vs (.punct .rightParen :: us) := by
  rw [symbol_iff]
  simp only [Symbol.rule, alt_iff, between_iff, token_iff]

/-- A chain is an atom with a tail. -/
theorem chain_iff :
    Covers (.symbol .chain) ts us ↔
      ∃ vs, Covers (.symbol .atom) ts vs ∧ Covers .tail vs us := by
  rw [symbol_iff]
  simp only [Symbol.rule, seq_iff]

/-- A tail is empty, or an operator, an atom and a tail. -/
theorem tail_iff :
    Covers .tail ts us ↔ ts = us ∨ ∃ t vs ws, t.isBinary = true ∧ ts = t :: vs ∧
      Covers (.symbol .atom) vs ws ∧ Covers .tail ws us := by
  rw [Form.tail, many_iff]
  simp only [seq_iff, token_iff]
  constructor
  · rintro (h | ⟨ws, ⟨vs, ⟨t, ht, rfl⟩, h⟩, h'⟩)
    · exact Or.inl h
    · exact Or.inr ⟨t, vs, ws, ht, rfl, h, h'⟩
  · rintro (h | ⟨t, vs, ws, ht, rfl, h, h'⟩)
    · exact Or.inl h
    · exact Or.inr ⟨ws, ⟨vs, ⟨t, ht, rfl⟩, h⟩, h'⟩

/-- An atom has a prefix operator, or it is a primary with suffixes. -/
theorem atom_iff :
    Covers (.symbol .atom) ts us ↔
      (∃ t vs, t.isUnary = true ∧ ts = t :: vs ∧ Covers (.symbol .atom) vs us) ∨
        ∃ vs, Covers (.symbol .primary) ts vs ∧ Covers (.many (.symbol .suffix)) vs us := by
  rw [symbol_iff]
  simp only [Symbol.rule, alt_iff, seq_iff, token_iff]
  constructor
  · rintro (⟨vs, ⟨t, ht, rfl⟩, h⟩ | h)
    · exact Or.inl ⟨t, vs, ht, rfl, h⟩
    · exact Or.inr h
  · rintro (⟨t, vs, ht, rfl, h⟩ | h)
    · exact Or.inl ⟨vs, ⟨t, ht, rfl⟩, h⟩
    · exact Or.inr h

/-- A suffix is the arguments of a call, or an index. -/
theorem suffix_iff :
    Covers (.symbol .suffix) ts us ↔
      (∃ vs, ts = .punct .leftParen :: vs ∧
        Covers (.optional (.commas (.symbol .expression))) vs (.punct .rightParen :: us)) ∨
      ∃ vs, ts = .punct .leftBracket :: vs ∧
        Covers (.symbol .expression) vs (.punct .rightBracket :: us) := by
  rw [symbol_iff]
  simp only [Symbol.rule, alt_iff, between_iff, symbol_iff (s := .list)]

/-- A primary is a literal, or one of the five bracketed and worded constructs. -/
theorem primary_iff :
    Covers (.symbol .primary) ts us ↔
      (∃ t : Token, t.isLiteral = true ∧ ts = t :: us) ∨
      (∃ vs, ts = .punct .leftParen :: vs ∧
        Covers (.symbol .expression) vs (.punct .rightParen :: us)) ∨
      (∃ vs, ts = .punct .leftBracket :: vs ∧
        Covers (.optional (.commas (.symbol .expression))) vs (.punct .rightBracket :: us)) ∨
      (∃ vs, ts = .punct .leftBrace :: vs ∧
        Covers (.optional (.commas .entry)) vs (.punct .rightBrace :: us)) ∨
      (∃ vs, ts = .punct .backquote :: vs ∧ Covers .parts vs (.punct .backquote :: us)) ∨
      ∃ vs ws xs, ts = .keyword .if_ :: vs ∧ Covers (.symbol .expression) vs ws ∧
        Covers (.branchAfter .then_) ws xs ∧ Covers (.branchAfter .else_) xs us := by
  rw [symbol_iff]
  simp only [Symbol.rule, alt_iff, between_iff, token_iff, symbol_iff (s := .list),
    symbol_iff (s := .properties), symbol_iff (s := .conditional), seq_iff, one_iff, or_assoc]
  constructor
  · rintro (h | h | h | h | h | ⟨_, ⟨_, ⟨_, rfl, h⟩, h'⟩, h''⟩)
    all_goals first
      | exact Or.inr (Or.inr (Or.inr (Or.inr (Or.inr ⟨_, _, _, rfl, h, h', h''⟩))))
      | simp only [h, true_or, or_true]
  · rintro (h | h | h | h | h | ⟨_, _, _, rfl, h, h', h''⟩)
    all_goals first
      | exact Or.inr (Or.inr (Or.inr (Or.inr (Or.inr ⟨_, ⟨_, ⟨_, rfl, h⟩, h'⟩, h''⟩))))
      | simp only [h, true_or, or_true]

/-- Items with commas: the last one, perhaps with a comma behind it, or one with others behind. -/
theorem commas_iff {f : Form} :
    Covers (.commas f) ts us ↔ Covers f ts us ∨ Covers f ts (.punct .comma :: us) ∨
      ∃ vs, Covers f ts (.punct .comma :: vs) ∧ Covers (.commas f) vs us := by
  simp only [Form.commas, seq_iff, optional_iff, punct_iff]
  constructor
  -- The rule repeats a comma with an item; the equation takes the first item away from the front.
  · rintro ⟨xs, ⟨vs, hf, hm⟩, hend⟩
    rcases many_iff.mp hm with rfl | ⟨ws, hc, hm'⟩
    · rcases hend with rfl | rfl
      · exact Or.inl hf
      · exact Or.inr (Or.inl hf)
    · simp only [seq_iff, punct_iff] at hc
      obtain ⟨ys, rfl, hf'⟩ := hc
      exact Or.inr (Or.inr ⟨ys, hf, xs, ⟨ws, hf', hm'⟩, hend⟩)
  · rintro (hf | hf | ⟨vs, hf, xs, ⟨ws, hf', hm⟩, hend⟩)
    · exact ⟨us, ⟨us, hf, none⟩, Or.inl rfl⟩
    · exact ⟨_, ⟨_, hf, none⟩, Or.inr rfl⟩
    · refine ⟨xs, ⟨_, hf, ?_⟩, hend⟩
      refine more ?_ hm
      simp only [seq_iff, punct_iff]
      exact ⟨vs, rfl, hf'⟩

/-- Statements: none, or a semicolon or a statement in front, and then perhaps others. -/
theorem statements_iff :
    Covers (.symbol .statements) ts us ↔ ts = us ∨
      (∃ vs, ts = .punct .semicolon :: vs ∧ Covers (.symbol .statements) vs us) ∨
      Covers (.symbol .expression) ts us ∨
      ∃ vs, Covers (.symbol .expression) ts (.punct .semicolon :: vs) ∧
        Covers (.symbol .statements) vs us := by
  -- The rule begins with semicolons, so an empty statement in front is a case of its own.
  simp only [symbol_iff (s := .statements), Symbol.rule, seq_iff, optional_iff]
  constructor
  · rintro ⟨vs, hs, h⟩
    rcases many_iff.mp hs with rfl | ⟨ws, hc, hs₁⟩
    · rcases h with rfl | ⟨xs, ⟨ws, he, hm⟩, hs'⟩
      · exact Or.inl rfl
      -- Behind the first statement stand semicolons, and perhaps another statement behind them.
      · refine Or.inr (Or.inr ?_)
        rcases many_iff.mp hm with rfl | ⟨ys, hc, hm'⟩
        · rcases many_iff.mp hs' with rfl | ⟨ys, hc, hs₁⟩
          · exact Or.inl he
          · obtain rfl := punct_iff.mp hc
            exact Or.inr ⟨ys, he, us, hs₁, Or.inl rfl⟩
        · simp only [seq_iff, punct_iff] at hc
          obtain ⟨zs, ⟨as, rfl, hs₁⟩, he'⟩ := hc
          exact Or.inr ⟨as, he, zs, hs₁, Or.inr ⟨xs, ⟨ys, he', hm'⟩, hs'⟩⟩
    · obtain rfl := punct_iff.mp hc
      exact Or.inr (Or.inl ⟨ws, rfl, vs, hs₁, h⟩)
  · rintro (rfl | ⟨vs, rfl, ws, hs, h⟩ | he | ⟨vs, he, ws, hs, h⟩)
    · exact ⟨ts, none, Or.inl rfl⟩
    · exact ⟨ws, more (punct_iff.mpr rfl) hs, h⟩
    · exact ⟨ts, none, Or.inr ⟨us, ⟨us, he, none⟩, none⟩⟩
    · refine ⟨ts, none, Or.inr ?_⟩
      rcases h with rfl | ⟨xs, ⟨ys, he', hm⟩, hs'⟩
      · exact ⟨_, ⟨_, he, none⟩, more (punct_iff.mpr rfl) hs⟩
      · refine ⟨xs, ⟨_, he, ?_⟩, hs'⟩
        refine more ?_ hm
        simp only [seq_iff, punct_iff]
        exact ⟨ws, ⟨vs, rfl, hs⟩, he'⟩

/-- The parts of a template are none, or begin with a piece of text or with an interpolation. -/
theorem parts_iff :
    Covers .parts ts us ↔ ts = us ∨
      (∃ s vs, ts = .string s :: vs ∧ Covers .parts vs us) ∨
      ∃ vs ws, ts = .punct .leftBrace :: vs ∧
        Covers (.symbol .statements) vs (.punct .rightBrace :: ws) ∧ Covers .parts ws us := by
  rw [Form.parts, many_iff]
  simp only [alt_iff, token_iff, Form.block, between_iff]
  constructor
  · rintro (h | ⟨ws, (⟨t, ht, rfl⟩ | ⟨vs, rfl, h⟩), h'⟩)
    · exact Or.inl h
    · cases t with
      | string s => exact Or.inr (Or.inl ⟨s, ws, rfl, h'⟩)
      | _ => cases ht
    · exact Or.inr (Or.inr ⟨vs, ws, rfl, h, h'⟩)
  · rintro (h | ⟨s, vs, rfl, h'⟩ | ⟨vs, ws, rfl, h, h'⟩)
    · exact Or.inl h
    · exact Or.inr ⟨vs, Or.inl ⟨_, rfl, rfl⟩, h'⟩
    · exact Or.inr ⟨ws, Or.inr ⟨vs, rfl, h⟩, h'⟩

theorem branchAfter_iff {k : Keyword} :
    Covers (.branchAfter k) ts us ↔ ts = us ∨
      ∃ vs, ts = .keyword k :: vs ∧ Covers (.symbol .branch) vs us := by
  simp only [Form.branchAfter, optional_iff, seq_iff, one_iff]

/-- An entry is a key, a colon and an expression. -/
theorem entry_iff :
    Covers .entry ts us ↔ ∃ vs, Covers (.symbol .key) ts (.punct .colon :: vs) ∧
      Covers (.symbol .expression) vs us := by
  simp only [Form.entry, seq_iff, punct_iff]
  constructor
  · rintro ⟨vs, ⟨_, h, rfl⟩, h'⟩
    exact ⟨vs, h, h'⟩
  · rintro ⟨vs, h, h'⟩
    exact ⟨vs, ⟨_, h, rfl⟩, h'⟩

end Covers

/-! ## What forms begin with -/

/-- A literal opens an operand. -/
theorem opensOperand_of_isLiteral {t : Token} (h : t.isLiteral = true) :
    t.opensOperand = true := by
  cases t <;> first | rfl | cases h

theorem opensOperand_of_isUnary {t : Token} (h : t.isUnary = true) : t.opensOperand = true := by
  cases t with
  | operator o => cases o <;> first | rfl | cases h
  | _ => cases h

theorem isLiteral_of_isKey {t : Token} (h : t.isKey = true) : t.isLiteral = true := by
  cases t <;> first | rfl | cases h

namespace Covers

variable {ts us : List Token}

/-- A primary begins with a token that opens an operand. -/
theorem front_of_primary (h : Covers (.symbol .primary) ts us) :
    (front ts).opensOperand = true := by
  rcases primary_iff.mp h with ⟨t, ht, rfl⟩ | ⟨_, rfl, _⟩ | ⟨_, rfl, _⟩ | ⟨_, rfl, _⟩ |
    ⟨_, rfl, _⟩ | ⟨_, _, _, rfl, _⟩
  · exact opensOperand_of_isLiteral ht
  all_goals rfl

theorem front_of_atom (h : Covers (.symbol .atom) ts us) : (front ts).opensOperand = true := by
  rcases atom_iff.mp h with ⟨t, _, ht, rfl, _⟩ | ⟨_, h, _⟩
  · exact opensOperand_of_isUnary ht
  · exact front_of_primary h

theorem front_of_key (h : Covers (.symbol .key) ts us) : (front ts).opensOperand = true := by
  rcases key_iff.mp h with ⟨t, ht, rfl⟩ | ⟨_, rfl, _⟩
  · exact opensOperand_of_isLiteral (isLiteral_of_isKey ht)
  · rfl

/-- An expression begins with a token that opens an operand. -/
theorem front_of_expression (h : Covers (.symbol .expression) ts us) :
    (front ts).opensOperand = true := by
  rcases expression_iff.mp h with ⟨_, h, _⟩ | h
  · rcases target_iff.mp h with ⟨_, rfl⟩ | ⟨_, rfl, _⟩ <;> rfl
  · obtain ⟨_, h, _⟩ := chain_iff.mp h
    exact front_of_atom h

/-- A form that begins like an operand covers at least one token. -/
theorem length_lt {f : Form} (hf : ∀ {ts us}, Covers f ts us → (front ts).opensOperand = true)
    (h : Covers f ts us) : us.length < ts.length := by
  obtain ⟨ws, hd, rfl⟩ := h
  cases ws with
  | nil => cases hf (derives_iff_covers.mp hd)
  | cons w ws =>
    rw [List.length_append, List.length_cons]
    omega

/-- A branch: statements in braces, or an expression that does not begin with a brace. -/
theorem branch_iff :
    Covers (.symbol .branch) ts us ↔
      (∃ vs, ts = .punct .leftBrace :: vs ∧
        Covers (.symbol .statements) vs (.punct .rightBrace :: us)) ∨
      front ts ≠ .punct .leftBrace ∧ Covers (.symbol .expression) ts us := by
  rw [symbol_iff]
  simp only [Symbol.rule, alt_iff, Form.block, between_iff, excluding_iff]
  refine or_congr Iff.rfl ?_
  -- An expression has a token at its front, which is then the front of the whole list.
  have hfront {ws : List Token} (h : Derives (.symbol .expression) ws) :
      front (ws ++ us) = front ws := by
    cases ws with
    | nil => cases front_of_expression (derives_iff_covers.mp h)
    | cons => rfl
  constructor
  · rintro ⟨ws, h, hne, rfl⟩
    exact ⟨(hfront h).symm ▸ hne, ws, h, rfl⟩
  · rintro ⟨hne, ws, h, rfl⟩
    exact ⟨ws, h, hfront h ▸ hne, rfl⟩

end Covers

end Brace
