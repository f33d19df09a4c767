/-
# The numbers of a tree

A number gets into a tree in one way only: as a number among the tokens that the tree is read from.
Main statement: the numbers of a tree are the numbers among its tokens, in the same order
(`ReadsProgram.numbers`).
-/
import Brace.Proofs.Node.Nodes
import Brace.Proofs.Parser.Reads

namespace Brace

open Brace.Parser (literal? combine templateParts TemplatePart)

/-! ## Numbers -/

namespace Node

/-- The value of a node that is a number. -/
def number? : Node → Option Float
  | number x => some x
  | _ => none

/-- The numbers of a tree in the order of the source. -/
def numbers (n : Node) : List Float := n.nodes.filterMap number?

/-- The numbers of a tree are those of its nodes. -/
theorem mem_numbers_iff {n : Node} {x : Float} : x ∈ n.numbers ↔ number x ∈ n.nodes := by
  rw [numbers, List.mem_filterMap]
  constructor
  · rintro ⟨m, hm, hx⟩
    cases m <;> cases hx
    exact hm
  · exact fun h => ⟨_, h, rfl⟩

/-- The numbers of a node are its own and those of its children, from left to right. -/
theorem numbers_eq (n : Node) : n.numbers = n.number?.toList ++ n.children.flatMap numbers := by
  have hchildren : (n.children.flatMap nodes).filterMap number? = n.children.flatMap numbers :=
    List.filterMap_flatMap
  rw [numbers, nodes_eq, List.filterMap_cons, hchildren]
  cases n.number? <;> rfl

/-- A node that is not a number has the numbers of its children. -/
theorem numbers_of_children {n : Node} (h : n.number? = none) :
    n.numbers = n.children.flatMap numbers := by
  rw [numbers_eq, h]
  rfl

/-- An operator adds no number to those of its operands. -/
theorem numbers_combine (o : Operator) (a b : Node) :
    (combine o a b).numbers = a.numbers ++ b.numbers := by
  unfold combine
  split
  all_goals
    rw [numbers_of_children rfl]
    simp [children]

/-- Statements keep their numbers, also where one of them is not wrapped. -/
theorem numbers_ofStatements {wrap : List Node → Node} (as : List Node)
    (h : (wrap as).numbers = as.flatMap numbers) :
    (ofStatements wrap as).numbers = as.flatMap numbers := by
  unfold ofStatements
  split
  · simp
  · exact h

end Node

/-- The value of a token that is a number. -/
def Token.number? : Token → Option Float
  | .number x => some x
  | _ => none

/-- The numbers among the tokens of a source. -/
def literals (ts : List Token) : List Float := ts.filterMap Token.number?

theorem literals_cons (t : Token) (ts : List Token) :
    literals (t :: ts) = t.number?.toList ++ literals ts := by
  rw [literals, List.filterMap_cons]
  cases t.number? <;> rfl

/-! ## Constructs -/

/-- The numbers of a part of a template. -/
def Parser.TemplatePart.numbers : TemplatePart → List Float
  | .text _ => []
  | .expression a => a.numbers

/-- The numbers of what is read for a construct. -/
def Goal.numbers : (g : Goal) → g.Answer → List Float
  | .expression, a | .operand, a | .primary, a | .suffixes _, a | .operators _ _, a
  | .branch, a => a.numbers
  | .items _ item, as | .bracketed _ item, as => as.flatMap item.numbers
  | .property, p => p.1.numbers ++ p.2.numbers
  | .statements _, as => as.flatMap Node.numbers
  | .parts, found => found.flatMap TemplatePart.numbers
  | .branchAfter _, b => b.toList.flatMap Node.numbers

/-- The numbers of the operand that a construct is begun with. -/
def Goal.begun : Goal → List Float
  | .suffixes a | .operators _ a => a.numbers
  | _ => []

/-- A literal has the number of its token. -/
theorem numbers_of_literal? {t : Token} {a : Node} (h : literal? t = some a) :
    a.numbers = t.number?.toList := by
  rw [Node.numbers_eq]
  cases t <;> cases h <;> rfl

/-- The numbers of a template are those of its interpolations. -/
theorem numbers_templateParts (found : List TemplatePart) :
    (templateParts found).2.flatMap Node.numbers = found.flatMap TemplatePart.numbers := by
  induction found with
  | nil => rfl
  | cons part found ih =>
    cases part with
    | expression a => exact congrArg (a.numbers ++ ·) ih
    | text s => exact ih

/-- The items between brackets are not begun with an operand. -/
def Goal.Plain : Goal → Prop
  | .items _ item | .bracketed _ item => item.begun = [] ∧ item.Plain
  | _ => True

/-- A construct takes the numbers of its answer from the operand that it was begun with and from
the tokens in front of the ones that it leaves. -/
theorem Reads.numbers {g : Goal} {ts us : List Token} {a : g.Answer} (h : Reads g ts a us)
    (hg : g.Plain) : g.begun ++ literals ts = g.numbers a ++ literals us := by
  -- Only numbers count among the tokens, so the other tokens that a rule names can be left out.
  induction h with
  | expression _ _ iha ihb | plain _ _ iha ihb => exact (iha trivial).trans (ihb trivial)
  | @unary ts us o op a _ _ ih =>
    have ih : literals ts = a.numbers ++ literals us := ih trivial
    show literals ts = (Node.unary op a).numbers ++ literals us
    rw [ih, Node.numbers_of_children (n := .unary op a) rfl]
    simp [Node.children]
  | @literal ts t a ha =>
    show literals (t :: ts) = a.numbers ++ literals ts
    rw [literals_cons, numbers_of_literal? ha]
  | grouped _ ih => exact ih trivial
  | @object ts us ps _ ih =>
    have ih : literals ts = ps.flatMap Goal.property.numbers ++ literals us := ih ⟨rfl, trivial⟩
    show literals ts = (Node.object ps).numbers ++ literals us
    rw [ih, Node.numbers_of_children rfl]
    simp [Node.children, List.flatMap_assoc, Goal.numbers]
  | @array ts us as _ ih =>
    have ih : literals ts = as.flatMap Node.numbers ++ literals us := ih ⟨rfl, trivial⟩
    show literals ts = (Node.array as).numbers ++ literals us
    rw [ih, Node.numbers_of_children rfl]
    rfl
  | @template ts us found _ ih =>
    have ih : literals ts = found.flatMap TemplatePart.numbers ++ literals us := ih trivial
    show literals ts = (Node.template _ (templateParts found).2).numbers ++ literals us
    rw [ih, Node.numbers_of_children rfl, ← numbers_templateParts]
    rfl
  | @conditional ts us vs ws a b c _ _ _ iha ihb ihc =>
    have iha : literals ts = a.numbers ++ literals us := iha trivial
    have ihb : literals us = b.toList.flatMap Node.numbers ++ literals vs := ihb trivial
    have ihc : literals vs = c.toList.flatMap Node.numbers ++ literals ws := ihc trivial
    show literals ts = (Node.conditional a b c).numbers ++ literals ws
    rw [iha, ihb, ihc, Node.numbers_of_children (n := .conditional a b c) rfl]
    simp [Node.children]
  | suffixesEnd _ _ | operatorsEnd _ => rfl
  -- The callee has been read before, like the operand on the left of an operator.
  | @call ts us vs a b as _ _ iha ihb =>
    have iha : literals ts = as.flatMap Node.numbers ++ literals us := iha ⟨rfl, trivial⟩
    have ihb : (Node.call a as).numbers ++ literals us = b.numbers ++ literals vs := ihb trivial
    show a.numbers ++ literals ts = b.numbers ++ literals vs
    rw [iha, ← ihb, Node.numbers_of_children (n := .call a as) rfl]
    simp [Node.children]
  | @index ts us vs a b c _ _ iha ihb =>
    have iha : literals ts = b.numbers ++ literals us := iha trivial
    have ihb : (Node.member a b).numbers ++ literals us = c.numbers ++ literals vs := ihb trivial
    show a.numbers ++ literals ts = c.numbers ++ literals vs
    rw [iha, ← ihb, Node.numbers_of_children (n := .member a b) rfl]
    simp [Node.children]
  -- The operand on the left has been read before, and its numbers come first.
  | @fold ts us vs ws _ _ o a b c d _ _ _ _ _ _ ihb ihc ihd =>
    have ihb : literals ts = b.numbers ++ literals us := ihb trivial
    have ihc : b.numbers ++ literals us = c.numbers ++ literals vs := ihc trivial
    have ihd : (combine o a c).numbers ++ literals vs = d.numbers ++ literals ws := ihd trivial
    show a.numbers ++ literals ts = d.numbers ++ literals ws
    rw [ihb, ihc, ← ihd, Node.numbers_combine, List.append_assoc]
  -- Items begin with nothing, so the numbers in front are none.
  | @lastItem ts us stop item a _ _ ih | @trailingComma ts us stop item a _ _ _ ih =>
    have ih : item.begun ++ literals ts = item.numbers a ++ literals us := ih hg.2
    show literals ts = [a].flatMap item.numbers ++ literals us
    rw [hg.1] at ih
    simpa using ih
  | @nextItem ts us vs stop item a as _ _ _ _ iha ihb =>
    have iha : item.begun ++ literals ts = item.numbers a ++ literals us := iha hg.2
    have ihb : literals us = as.flatMap item.numbers ++ literals vs := ihb hg
    show literals ts = (a :: as).flatMap item.numbers ++ literals vs
    rw [hg.1, List.nil_append] at iha
    rw [iha, ihb, List.flatMap_cons, List.append_assoc]
  | noItems => rfl
  | someItems _ _ _ ih => exact ih hg
  | @property ts us vs key a _ _ _ iha ihb =>
    have iha : literals ts = key.numbers ++ literals us := iha trivial
    have ihb : literals us = a.numbers ++ literals vs := ihb trivial
    show literals ts = key.numbers ++ a.numbers ++ literals vs
    rw [iha, ihb, List.append_assoc]
  | skip _ ih => exact ih trivial
  | noStatements _ _ => rfl
  | @lastStatement ts us _ a _ _ _ ih =>
    have ih : literals ts = a.numbers ++ literals us := ih trivial
    show literals ts = [a].flatMap Node.numbers ++ literals us
    simpa using ih
  | @nextStatement ts us vs _ a as _ _ _ _ iha ihb =>
    have iha : literals ts = a.numbers ++ literals us := iha trivial
    have ihb : literals us = as.flatMap Node.numbers ++ literals vs := ihb trivial
    show literals ts = (a :: as).flatMap Node.numbers ++ literals vs
    rw [iha, ihb, List.flatMap_cons, List.append_assoc]
  | partsEnd => rfl
  | text _ ih => exact ih trivial
  | @interpolation ts us vs as found _ _ iha ihb =>
    have iha : literals ts = as.flatMap Node.numbers ++ literals us := iha trivial
    have ihb : literals us = found.flatMap TemplatePart.numbers ++ literals vs := ihb trivial
    have has : (Node.ofStatements .block as).numbers = as.flatMap Node.numbers :=
      Node.numbers_ofStatements as (Node.numbers_of_children rfl)
    show literals ts = (Node.ofStatements .block as).numbers ++
      found.flatMap TemplatePart.numbers ++ literals vs
    rw [iha, ihb, has, List.append_assoc]
  | @block ts us as _ ih =>
    have ih : literals ts = as.flatMap Node.numbers ++ literals us := ih trivial
    show literals ts = (Node.block as).numbers ++ literals us
    rw [ih, Node.numbers_of_children rfl]
    rfl
  | bareBranch _ _ ih => exact ih trivial
  | @someBranch ts us _ a _ ih =>
    have ih : literals ts = a.numbers ++ literals us := ih trivial
    show literals ts = [a].flatMap Node.numbers ++ literals us
    simpa using ih
  | noBranch _ => rfl

/-- The numbers of a tree are the numbers among its tokens, in the same order. -/
theorem ReadsProgram.numbers {ts : List Token} {n : Node} (h : ReadsProgram ts n) :
    n.numbers = literals ts := by
  obtain ⟨body, hbody, rfl⟩ := h
  have hnumbers : literals ts = body.flatMap Node.numbers := by
    simpa [Goal.begun, Goal.numbers, literals] using hbody.numbers trivial
  rw [hnumbers]
  exact Node.numbers_ofStatements body (Node.numbers_of_children rfl)

end Brace
