/-
# The grammar

The grammar from its sequences and operands up to the operators.  Two kinds of sequences occur:
items between brackets with commas, and statements with semicolons.  A function here reads the
parts of its construct with given functions for expressions and for operands, which are only
called on smaller states; `expression` and `operand` at the end tie the knot.

Operators are read by climbing over binding strengths: `operators` folds every operator that binds
more strongly than a threshold into the operand on its left, reading its right operand with the
operator's own strength as the threshold.  Operators of equal strength fold to the left.
-/
import Brace.Parser.State

namespace Brace.Parser

/-! ## Items between brackets -/

/-- Reads one item or more with commas between them, up to `stop` or the end of the source; a comma
may stand behind the last one. -/
def items {α : Type} {n : Nat} (stop : Punct)
    (item : (t : Parser) → t.size < n → Parsed t.size α) (s : Parser) (h : s.size < n) :
    Parsed s.size (List α) :=
  (item s h).andThen fun a t _ =>
    if t.current = .punct stop ∨ t.current = .eof then .done [a] t (by omega)
    else
      (t.expect .comma).andThen fun _ u _ =>
        if u.current = .punct stop then .done [a] u (by omega)
        else
          (items stop item u (by omega)).andThen fun rest v _ => .done (a :: rest) v (by omega)
termination_by s.size

/-- Reads any number of items between brackets. -/
def delimited {α : Type} (start stop : Punct) (s : Parser)
    (item : (t : Parser) → t.size < s.size → Parsed t.size α) : Parsed s.size (List α) :=
  (s.expect start).andThen fun _ t h =>
    let body : Parsed s.size (List α) :=
      if t.current = .punct stop ∨ t.current = .eof then .done [] t h
      else (items stop item t h).weaken (by omega)
    body.andThen fun as u _ => (u.expect stop).andThen fun _ v _ => .done as v (by omega)

/-! ## Statements -/

/-- Passes any number of semicolons. -/
def skipSemicolons (s : Parser) : Parsed (s.size + 1) Unit :=
  if h : s.current = .punct .semicolon then
    (s.advance (by simp [h])).andThen fun _ t _ => (skipSemicolons t).weaken (by omega)
  else .done () s (Nat.lt_succ_self _)
termination_by s.size

/-- Reads statements with semicolons between them, up to the token `stop` or the end of the source.
Any number of semicolons may stand in front of, between and behind the statements. -/
def statements {n : Nat} (stop : Token)
    (statement : (t : Parser) → t.size < n → Parsed t.size Node) (s : Parser) (h : s.size < n) :
    Parsed (s.size + 1) (List Node) :=
  (skipSemicolons s).andThen fun _ t _ =>
    if t.current = stop ∨ t.current = .eof then .done [] t (by omega)
    else
      (statement t (by omega)).andThen fun a u _ =>
        if u.current = stop then .done [a] u (by omega)
        else
          (u.expect .semicolon).andThen fun _ v _ =>
            (statements stop statement v (by omega)).andThen fun rest w _ =>
              .done (a :: rest) w (by omega)
termination_by s.size

/-! ## Reading smaller states -/

/-- Functions that read expressions and operands in states smaller than `n`. -/
structure Below (n : Nat) where
  /-- Reads an expression. -/
  expression : (t : Parser) → t.size < n → Parsed t.size Node
  /-- Reads an operand. -/
  operand : (t : Parser) → t.size < n → Parsed t.size Node

/-! ## Operands -/

/-- The node of a token that is an operand by itself. -/
def literal? : Token → Option Node
  | .number x => some (.number x)
  | .string s => some (.string s)
  | .boolean b => some (.boolean b)
  | .null => some .null
  | .regexp pattern flags => some (.regexp pattern flags)
  | .identifier name => some (.identifier name)
  | _ => none

/-- Reads an expression in parentheses. -/
def grouped (s : Parser) (r : Below s.size) : Parsed s.size Node :=
  (s.expect .leftParen).andThen fun _ t h =>
    (r.expression t h).andThen fun a u _ =>
      (u.expect .rightParen).andThen fun _ v _ => .done a v (by omega)

/-- Reads a key and its value with a colon between them. -/
def property {n : Nat} (r : Below n) (s : Parser) (h : s.size < n) :
    Parsed s.size (Node × Node) :=
  (r.operand s h).andThen fun key t _ =>
    if key.isKey then
      (t.expect .colon).andThen fun _ u _ =>
        (r.expression u (by omega)).andThen fun a v _ => .done (key, a) v (by omega)
    else .fail (t.error (.badKey key)) t

/-- Reads statements in braces. -/
def block {n : Nat} (r : Below n) (s : Parser) (h : s.size < n) : Parsed s.size Node :=
  (s.expect .leftBrace).andThen fun _ t _ =>
    (statements (.punct .rightBrace) r.expression t (by omega)).andThen fun body u _ =>
      (u.expect .rightBrace).andThen fun _ v _ => .done (.block body) v (by omega)

/-- Reads a branch of a conditional: a block if it begins with a brace. -/
def branch {n : Nat} (r : Below n) (s : Parser) (h : s.size < n) : Parsed s.size Node :=
  if s.current = .punct .leftBrace then block r s h else r.expression s h

/-- Reads a branch behind its word, if the word is there. -/
def branchAfter {n : Nat} (k : Keyword) (r : Below n) (s : Parser) (h : s.size < n) :
    Parsed (s.size + 1) (Option Node) :=
  if hk : s.current = .keyword k then
    (s.advance (by simp [hk])).andThen fun _ t _ =>
      (branch r t (by omega)).andThen fun a u _ => .done (some a) u (by omega)
  else .done none s (Nat.lt_succ_self _)

/-- Reads a conditional; the current token is its first word. -/
def conditional (s : Parser) (r : Below s.size) (hs : s.current ≠ .eof) : Parsed s.size Node :=
  (s.advance hs).andThen fun _ t h =>
    (r.expression t h).andThen fun test u _ =>
      (branchAfter .then_ r u (by omega)).andThen fun consequent v _ =>
        (branchAfter .else_ r v (by omega)).andThen fun alternate w _ =>
          .done (.conditional test consequent alternate) w (by omega)

/-! ## Templates -/

/-- A part of a template. -/
inductive TemplatePart where
  /-- A piece of text. -/
  | text (s : String)
  /-- An expression. -/
  | expression (a : Node)
  deriving Inhabited

/-- The pieces of text and the expressions of a template.  There is one piece more than there are
expressions; pieces without an expression between them are joined. -/
def templateParts : List TemplatePart → List String × List Node
  | [] => ([""], [])
  | .text s :: parts =>
    let (quasis, as) := templateParts parts
    -- A piece of text is joined to the one that follows it.
    ((s ++ quasis.headD "") :: quasis.tail, as)
  | .expression a :: parts =>
    let (quasis, as) := templateParts parts
    ("" :: quasis, a :: as)

/-- Reads the parts of a template up to its closing back-quote. -/
def parts {n : Nat} (r : Below n) (s : Parser) (h : s.size < n) :
    Parsed (s.size + 1) (List TemplatePart) :=
  match hs : s.current with
  | .punct .backquote => .done [] s (Nat.lt_succ_self _)
  | .string text =>
    (s.advance (by simp [hs])).andThen fun _ t _ =>
      (parts r t (by omega)).andThen fun rest u _ => .done (.text text :: rest) u (by omega)
  | .punct .leftBrace =>
    (s.advance (by simp [hs])).andThen fun _ t _ =>
      (statements (.punct .rightBrace) r.expression t (by omega)).andThen fun body u _ =>
        (u.expect .rightBrace).andThen fun _ v _ =>
          (parts r v (by omega)).andThen fun rest w _ =>
            .done (.expression (Node.ofStatements .block body) :: rest) w (by omega)
  | _ => .fail s.unexpected s
termination_by s.size

/-- Reads a template between back-quotes. -/
def template (s : Parser) (r : Below s.size) : Parsed s.size Node :=
  (s.expect .backquote).andThen fun _ t h =>
    (parts r t h).andThen fun found u _ =>
      (u.expect .backquote).andThen fun _ v _ =>
        let (quasis, as) := templateParts found
        .done (.template quasis as) v (by omega)

/-! ## Calls and indices -/

/-- Reads an operand without the calls and indices behind it. -/
def primary (s : Parser) (r : Below s.size) : Parsed s.size Node :=
  match hs : s.current with
  | .punct .leftParen => grouped s r
  -- An operand in braces is an object; a block only stands where a branch is read.
  | .punct .leftBrace => (delimited .leftBrace .rightBrace s (property r)).map .object
  | .punct .leftBracket => (delimited .leftBracket .rightBracket s r.expression).map .array
  | .punct .backquote => template s r
  | .keyword .if_ => conditional s r (by simp [hs])
  | t =>
    match ha : literal? t with
    | some a =>
      (s.advance fun he => by
        rw [← hs, he] at ha
        cases ha).map fun _ => a
    | none => .fail s.unexpected s

/-- Reads the index behind a bracket. -/
def index {n : Nat} (r : Below n) (s : Parser) (h : s.size ≤ n) : Parsed s.size Node :=
  (s.expect .leftBracket).andThen fun _ t _ =>
    (r.expression t (by omega)).andThen fun a u _ =>
      (u.expect .rightBracket).andThen fun _ v _ => .done a v (by omega)

/-- Reads the calls and indices behind an operand. -/
def suffixes {n : Nat} (r : Below n) (a : Node) (s : Parser) (h : s.size ≤ n) :
    Parsed (s.size + 1) Node :=
  if s.current = .punct .leftParen then
    (delimited .leftParen .rightParen s fun t ht => r.expression t (by omega)).andThen
      fun arguments t _ => (suffixes r (.call a arguments) t (by omega)).weaken (by omega)
  else if s.current = .punct .leftBracket then
    (index r s h).andThen fun b t _ => (suffixes r (.member a b) t (by omega)).weaken (by omega)
  else .done a s (Nat.lt_succ_self _)
termination_by s.size

/-- The operation that a token stands for in front of an operand. -/
def unary? : Token → Option UnaryOp
  | .operator o => o.unary?
  | _ => none

/-- Reads an operand with the operators in front of it and the calls and indices behind it. -/
def operandWith (s : Parser) (r : Below s.size) : Parsed s.size Node :=
  match ho : unary? s.current with
  | some op =>
    (s.advance fun he => by
      rw [he] at ho
      cases ho).andThen fun _ t h =>
        (r.operand t h).andThen fun a u _ => .done (.unary op a) u (by omega)
  | none =>
    (primary s r).andThen fun a t _ => (suffixes r a t (by omega)).weaken (by omega)

/-! ## Operators -/

/-- An operator that can stand between two operands, with its binding strength. -/
def binaryOperator? : Token → Option (Operator × Nat)
  | .operator o => o.precedence?.map (o, ·)
  | _ => none

/-- The node of an operator between two operands. -/
def combine (o : Operator) (a b : Node) : Node :=
  match o.binary? with
  | some op => .binary op a b
  | none => .assign a b

/-- Folds the operators that bind more strongly than `threshold` into the operand `a` on their
left. -/
def operators {n : Nat} (r : Below n) (threshold : Nat) (a : Node) (s : Parser) (h : s.size < n) :
    Parsed (s.size + 1) Node :=
  match ho : binaryOperator? s.current with
  | none => .done a s (Nat.lt_succ_self _)
  | some (o, strength) =>
    if strength ≤ threshold then .done a s (Nat.lt_succ_self _)
    -- The target is checked before the operator is passed, so the error is told in front of it.
    else if o = .assign ∧ a.isIdentifier = false then .fail (s.error (.badTarget a)) s
    else
      (s.advance fun he => by
        rw [he] at ho
        cases ho).andThen fun _ t _ =>
          (r.operand t (by omega)).andThen fun b u _ =>
            -- What binds more strongly belongs to the right operand; then the loop goes on with the
            -- new left one.
            (operators r strength b u (by omega)).andThen fun c v _ =>
              (operators r threshold (combine o a c) v (by omega)).weaken (by omega)
termination_by s.size

/-- Reads an expression. -/
def expressionWith (s : Parser) (r : Below s.size) : Parsed s.size Node :=
  (operandWith s r).andThen fun a t h => (operators r 0 a t h).weaken (by omega)

/-! ## Tying the knot -/

mutual

/-- Reads an expression. -/
def expression (s : Parser) : Parsed s.size Node :=
  expressionWith s ⟨fun t _ => expression t, fun t _ => operand t⟩
termination_by s.size

/-- Reads an operand with the operators in front of it and the calls and indices behind it. -/
def operand (s : Parser) : Parsed s.size Node :=
  operandWith s ⟨fun t _ => expression t, fun t _ => operand t⟩
termination_by s.size

end

/-- Reads all that is left as a sequence of statements.  A single one is answered as it is. -/
def program (s : Parser) : Parsed (s.size + 1) Node :=
  (statements (n := s.size + 1) .eof (fun t _ => expression t) s (Nat.lt_succ_self _)).map
    (Node.ofStatements .program)

end Brace.Parser
