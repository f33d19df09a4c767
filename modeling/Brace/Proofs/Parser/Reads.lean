/-
# How the grammar reads a list of tokens

`Reads g ts a rest` says that the construct `g`, read from the front of the tokens `ts`, is `a` and
that the tokens `rest` are left.  There is one rule for each way a construct can go on, and at
every point the token at the front decides which rule applies.  Whatever is proved about reading
by induction follows these rules; that they are the rules of the parser is shown separately.
-/
import Brace.Proofs.Parser.Answer

namespace Brace

open Brace.Parser (literal? binaryOperator? combine templateParts TemplatePart)

/-! ## Constructs -/

/-- The constructs of the grammar. -/
inductive Goal where
  /-- An expression. -/
  | expression
  /-- An operand with its prefix operators, calls and indices. -/
  | operand
  /-- An operand without them. -/
  | primary
  /-- The calls and indices behind an operand. -/
  | suffixes (a : Node)
  /-- The operators behind an operand that bind more strongly than a threshold. -/
  | operators (threshold : Nat) (a : Node)
  /-- One item or more with commas between them, up to a closing bracket. -/
  | items (stop : Punct) (item : Goal)
  /-- Any number of items with their closing bracket. -/
  | bracketed (stop : Punct) (item : Goal)
  /-- A key and a value. -/
  | property
  /-- Statements up to a token. -/
  | statements (stop : Token)
  /-- The parts of a template. -/
  | parts
  /-- A branch of a conditional. -/
  | branch
  /-- A branch behind its word, if the word is there. -/
  | branchAfter (k : Keyword)

/-- What is read for a construct. -/
@[reducible]
def Goal.Answer : Goal → Type
  | expression | operand | primary | suffixes _ | operators _ _ | branch => Node
  | items _ item | bracketed _ item => List item.Answer
  | property => Node × Node
  | statements _ => List Node
  | parts => List TemplatePart
  | branchAfter _ => Option Node

/-! ## Reading -/

/-- A construct is read from the front of a list of tokens and leaves the rest of it. -/
inductive Reads : (g : Goal) → List Token → g.Answer → List Token → Prop where
  /-- An operand and the operators behind it. -/
  | expression {ts us vs : List Token} {a b : Node} :
      Reads .operand ts a us → Reads (.operators 0 a) us b vs → Reads .expression ts b vs
  /-- A prefix operator. -/
  | unary {ts us : List Token} {o : Operator} {op : UnaryOp} {a : Node} :
      o.unary? = some op → Reads .operand ts a us →
        Reads .operand (.operator o :: ts) (.unary op a) us
  /-- No prefix operator. -/
  | plain {ts us vs : List Token} {a b : Node} :
      Reads .primary ts a us → Reads (.suffixes a) us b vs → Reads .operand ts b vs
  /-- A token that is an operand by itself. -/
  | literal {ts : List Token} {t : Token} {a : Node} :
      literal? t = some a → Reads .primary (t :: ts) a ts
  /-- An expression in parentheses. -/
  | grouped {ts us : List Token} {a : Node} :
      Reads .expression ts a (.punct .rightParen :: us) →
        Reads .primary (.punct .leftParen :: ts) a us
  /-- An object. -/
  | object {ts us : List Token} {ps : List (Node × Node)} :
      Reads (.bracketed .rightBrace .property) ts ps us →
        Reads .primary (.punct .leftBrace :: ts) (.object ps) us
  /-- A list. -/
  | array {ts us : List Token} {as : List Node} :
      Reads (.bracketed .rightBracket .expression) ts as us →
        Reads .primary (.punct .leftBracket :: ts) (.array as) us
  /-- A template. -/
  | template {ts us : List Token} {found : List TemplatePart} :
      Reads .parts ts found (.punct .backquote :: us) →
        Reads .primary (.punct .backquote :: ts)
          (.template (templateParts found).1 (templateParts found).2) us
  /-- A conditional. -/
  | conditional {ts us vs ws : List Token} {a : Node} {b c : Option Node} :
      Reads .expression ts a us → Reads (.branchAfter .then_) us b vs →
        Reads (.branchAfter .else_) vs c ws →
          Reads .primary (.keyword .if_ :: ts) (.conditional a b c) ws
  /-- Neither a call nor an index. -/
  | suffixesEnd {ts : List Token} {a : Node} :
      front ts ≠ .punct .leftParen → front ts ≠ .punct .leftBracket →
        Reads (.suffixes a) ts a ts
  /-- A call. -/
  | call {ts us vs : List Token} {a b : Node} {as : List Node} :
      Reads (.bracketed .rightParen .expression) ts as us →
        Reads (.suffixes (.call a as)) us b vs →
          Reads (.suffixes a) (.punct .leftParen :: ts) b vs
  /-- An index. -/
  | index {ts us vs : List Token} {a b c : Node} :
      Reads .expression ts b (.punct .rightBracket :: us) →
        Reads (.suffixes (.member a b)) us c vs →
          Reads (.suffixes a) (.punct .leftBracket :: ts) c vs
  /-- No operator that binds strongly enough. -/
  | operatorsEnd {ts : List Token} {threshold : Nat} {a : Node} :
      (∀ o k, binaryOperator? (front ts) = some (o, k) → k ≤ threshold) →
        Reads (.operators threshold a) ts a ts
  /-- An operator that binds strongly enough; only a variable can be assigned to. -/
  | fold {ts us vs ws : List Token} {threshold k : Nat} {o : Operator} {a b c d : Node} :
      o.precedence? = some k → threshold < k → (o = .assign → a.isIdentifier = true) →
        Reads .operand ts b us → Reads (.operators k b) us c vs →
          Reads (.operators threshold (combine o a c)) vs d ws →
            Reads (.operators threshold a) (.operator o :: ts) d ws
  /-- The only item, or the last one. -/
  | lastItem {ts us : List Token} {stop : Punct} {item : Goal} {a : item.Answer} :
      Reads item ts a us → front us = .punct stop ∨ front us = .eof →
        Reads (.items stop item) ts [a] us
  /-- The last item with a comma behind it. -/
  | trailingComma {ts us : List Token} {stop : Punct} {item : Goal} {a : item.Answer} :
      stop ≠ .comma → Reads item ts a (.punct .comma :: us) → front us = .punct stop →
        Reads (.items stop item) ts [a] us
  /-- An item with another one behind it. -/
  | nextItem {ts us vs : List Token} {stop : Punct} {item : Goal} {a : item.Answer}
      {as : List item.Answer} :
      stop ≠ .comma → Reads item ts a (.punct .comma :: us) → front us ≠ .punct stop →
        Reads (.items stop item) us as vs → Reads (.items stop item) ts (a :: as) vs
  /-- No items. -/
  | noItems {ts : List Token} {stop : Punct} {item : Goal} :
      Reads (.bracketed stop item) (.punct stop :: ts) [] ts
  /-- At least one item. -/
  | someItems {ts us : List Token} {stop : Punct} {item : Goal} {as : List item.Answer} :
      front ts ≠ .punct stop → front ts ≠ .eof →
        Reads (.items stop item) ts as (.punct stop :: us) → Reads (.bracketed stop item) ts as us
  /-- A key and a value. -/
  | property {ts us vs : List Token} {key a : Node} :
      Reads .operand ts key (.punct .colon :: us) → key.isKey = true →
        Reads .expression us a vs → Reads .property ts (key, a) vs
  /-- An empty statement. -/
  | skip {ts us : List Token} {stop : Token} {as : List Node} :
      Reads (.statements stop) ts as us →
        Reads (.statements stop) (.punct .semicolon :: ts) as us
  /-- No statements. -/
  | noStatements {ts : List Token} {stop : Token} :
      front ts ≠ .punct .semicolon → front ts = stop ∨ front ts = .eof →
        Reads (.statements stop) ts [] ts
  /-- The last statement. -/
  | lastStatement {ts us : List Token} {stop : Token} {a : Node} :
      front ts ≠ stop → Reads .expression ts a us → front us = stop →
        Reads (.statements stop) ts [a] us
  /-- A statement with a semicolon behind it. -/
  | nextStatement {ts us vs : List Token} {stop : Token} {a : Node} {as : List Node} :
      front ts ≠ stop → stop ≠ .punct .semicolon →
        Reads .expression ts a (.punct .semicolon :: us) →
          Reads (.statements stop) us as vs → Reads (.statements stop) ts (a :: as) vs
  /-- No more parts. -/
  | partsEnd {ts : List Token} :
      Reads .parts (.punct .backquote :: ts) [] (.punct .backquote :: ts)
  /-- A piece of text. -/
  | text {ts us : List Token} {s : String} {found : List TemplatePart} :
      Reads .parts ts found us → Reads .parts (.string s :: ts) (.text s :: found) us
  /-- An expression, or statements, in braces. -/
  | interpolation {ts us vs : List Token} {as : List Node} {found : List TemplatePart} :
      Reads (.statements (.punct .rightBrace)) ts as (.punct .rightBrace :: us) →
        Reads .parts us found vs →
          Reads .parts (.punct .leftBrace :: ts)
            (.expression (Node.ofStatements .block as) :: found) vs
  /-- A branch in braces. -/
  | block {ts us : List Token} {as : List Node} :
      Reads (.statements (.punct .rightBrace)) ts as (.punct .rightBrace :: us) →
        Reads .branch (.punct .leftBrace :: ts) (.block as) us
  /-- A branch that does not begin with a brace. -/
  | bareBranch {ts us : List Token} {a : Node} :
      front ts ≠ .punct .leftBrace → Reads .expression ts a us → Reads .branch ts a us
  /-- The word of a branch and the branch. -/
  | someBranch {ts us : List Token} {k : Keyword} {a : Node} :
      Reads .branch ts a us → Reads (.branchAfter k) (.keyword k :: ts) (some a) us
  /-- No branch. -/
  | noBranch {ts : List Token} {k : Keyword} :
      front ts ≠ .keyword k → Reads (.branchAfter k) ts none ts

/-- A whole list of tokens is read as a sequence of statements. -/
def ReadsProgram (ts : List Token) (n : Node) : Prop :=
  ∃ body, Reads (.statements .eof) ts body [] ∧ Node.ofStatements .program body = n

/-! ## What operands begin and end with -/

/-- Whether an operand can begin with a token. -/
def Token.opensOperand : Token → Bool
  | .operator o => o.unary?.isSome
  | .punct p =>
    match p with
    | .leftParen | .leftBracket | .leftBrace | .backquote => true
    | _ => false
  | .keyword k => k = .if_
  | .eof => false
  | _ => true

/-- Whether a token ends every expression in front of it. -/
def Token.closes : Token → Bool
  | .punct .rightParen | .punct .rightBracket | .punct .rightBrace | .punct .comma
  | .punct .colon | .punct .semicolon | .eof => true
  | _ => false

/-- What the constructs that begin with an operand have at their front. -/
def Goal.Opens : Goal → List Token → Prop
  | .expression, ts | .operand, ts | .primary, ts | .property, ts => (front ts).opensOperand = true
  | .items _ item, ts => item.Opens ts
  | _, _ => True

/-- A literal opens an operand. -/
theorem opensOperand_of_literal? {t : Token} {a : Node} (h : literal? t = some a) :
    t.opensOperand = true := by
  cases t <;> first | rfl | cases h

theorem opensOperand_of_unary? {o : Operator} {op : UnaryOp} (h : o.unary? = some op) :
    (Token.operator o).opensOperand = true := by
  simp [Token.opensOperand, h]

/-- A closing token opens no operand. -/
theorem opensOperand_eq_false_of_closes {t : Token} (h : t.closes = true) :
    t.opensOperand = false := by
  cases t with
  | punct p => cases p <;> first | rfl | cases h
  | eof => rfl
  | _ => cases h

/-- What is read begins with a token that may begin it. -/
theorem Reads.opens {g : Goal} {ts us : List Token} {a : g.Answer} (h : Reads g ts a us) :
    g.Opens ts := by
  -- A construct begins as its first operand does, and an operand with its first token.
  induction h with
  | expression _ _ ih _ => exact ih
  | unary ho _ _ => exact opensOperand_of_unary? ho
  | plain _ _ ih _ => exact ih
  | literal ha => exact opensOperand_of_literal? ha
  | lastItem _ _ ih => exact ih
  | trailingComma _ _ _ ih => exact ih
  | nextItem _ _ _ _ ih _ => exact ih
  | property _ _ _ ih _ => exact ih
  | _ => trivial

/-- An expression is never read where a statement ends. -/
theorem Reads.front_ne_of_expression {ts us : List Token} {a : Node}
    (h : Reads .expression ts a us) :
    front ts ≠ .punct .semicolon ∧ front ts ≠ .eof := by
  have ho : (front ts).opensOperand = true := h.opens
  constructor <;> intro he <;> rw [he] at ho <;> cases ho

/-- No prefix operator stands in front of an operand without prefix operators. -/
theorem Reads.unary?_front {ts us : List Token} {a : Node} (h : Reads .primary ts a us) :
    Parser.unary? (front ts) = none := by
  cases h with
  | literal ha =>
    rename_i t
    cases t <;> first | rfl | cases ha
  | _ => rfl

/-- What stands behind the constructs that are read up to a token. -/
def Goal.Stops : Goal → List Token → Prop
  | .statements stop, us => front us = stop ∨ front us = .eof
  | .parts, us => front us = .punct .backquote
  | _, _ => True

/-- Statements are read up to the token that ends them, or to the end of the source, and the parts
of a template up to its back-quote. -/
theorem Reads.stops {g : Goal} {ts us : List Token} {a : g.Answer} (h : Reads g ts a us) :
    g.Stops us := by
  -- A list of statements ends as its last part does.
  induction h with
  | skip _ ih => exact ih
  | noStatements _ hend => exact hend
  | lastStatement _ _ hend => exact Or.inl hend
  | nextStatement _ _ _ _ _ ih => exact ih
  | partsEnd => rfl
  | text _ ih => exact ih
  | interpolation _ _ _ ih => exact ih
  | _ => trivial

end Brace
