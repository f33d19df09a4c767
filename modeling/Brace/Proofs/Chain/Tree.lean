/-
# Trees over a chain of operands

A chain is an operand with links behind it, each an operator and one more operand.  A `ChainTree`
puts the operands of a chain together two by two, and keeps them in order.  It is `Ordered` if no
operator stands above one that binds more weakly, and of two operators that bind equally strongly
the later one stands above.  Main statement: a chain has at most one ordered tree
(`ChainTree.Spans.unique`).
-/
import Brace.Parser.Grammar

namespace Brace

open Brace.Parser (combine)

/-- How strongly an operator binds between two operands. -/
def Operator.strength (o : Operator) : Nat := o.precedence?.getD 0

/-! ## Trees -/

/-- A way to put the operands of a chain together. -/
inductive ChainTree where
  /-- A single operand. -/
  | leaf (a : Node)
  /-- Two parts of a chain with the operator between them. -/
  | branch (left : ChainTree) (o : Operator) (right : ChainTree)

namespace ChainTree

/-- The first operand. -/
def first : ChainTree → Node
  | leaf a => a
  | branch l _ _ => l.first

/-- The operators, each with the operand behind it. -/
def links : ChainTree → List (Operator × Node)
  | leaf _ => []
  | branch l o r => l.links ++ (o, r.first) :: r.links

/-- The node that the tree stands for. -/
def node : ChainTree → Node
  | leaf a => a
  | branch l o r => combine o l.node r.node

/-- Every operator binds at most as strongly as those to its left below it, and more weakly than
those to its right below it. -/
def Ordered : ChainTree → Prop
  | leaf _ => True
  | branch l o r =>
    l.Ordered ∧ r.Ordered ∧ (∀ p ∈ l.links, o.strength ≤ p.1.strength) ∧
      ∀ p ∈ r.links, o.strength < p.1.strength

/-- The tree is ordered and has the operands and operators of a chain. -/
structure Spans (t : ChainTree) (a : Node) (chain : List (Operator × Node)) : Prop where
  /-- The first operand. -/
  first : t.first = a
  /-- The links. -/
  links : t.links = chain
  /-- The tree is ordered. -/
  ordered : t.Ordered

/-- Two ordered trees over the parts of a chain make one over the whole, if the operator between
them binds at most as strongly as those in front and more weakly than those behind. -/
theorem Spans.branch {l r : ChainTree} {a b : Node} {o : Operator}
    {chain chain' : List (Operator × Node)} (hl : l.Spans a chain) (hr : r.Spans b chain')
    (hle : ∀ p ∈ chain, o.strength ≤ p.1.strength) (hlt : ∀ p ∈ chain', o.strength < p.1.strength) :
    (ChainTree.branch l o r).Spans a (chain ++ (o, b) :: chain') := by
  refine ⟨hl.first, ?_, hl.ordered, hr.ordered, ?_, ?_⟩
  · rw [ChainTree.links, hl.links, hr.links, hr.first]
  · rwa [hl.links]
  · rwa [hr.links]

/-! ## Uniqueness -/

/-- The last one of the weakest elements of a list splits it in one way only. -/
theorem split_unique {α : Type} {f : α → Nat} {xs ys xs' ys' : List α} {x x' : α}
    (hx : ∀ y ∈ xs, f x ≤ f y) (hy : ∀ y ∈ ys, f x < f y) (hx' : ∀ y ∈ xs', f x' ≤ f y)
    (hy' : ∀ y ∈ ys', f x' < f y) (h : xs ++ x :: ys = xs' ++ x' :: ys') :
    xs = xs' ∧ x = x' ∧ ys = ys' := by
  -- If one split came earlier than the other, each element would be weaker than the other one.
  have hearlier {xs ys xs' ys' zs : List α} {x x' z : α} (hy : ∀ y ∈ ys, f x < f y)
      (hx' : ∀ y ∈ xs', f x' ≤ f y) (hxs : xs' = xs ++ z :: zs)
      (hys : x :: ys = z :: zs ++ x' :: ys') : False := by
    obtain ⟨rfl, rfl⟩ := List.cons.inj hys
    have hlt := hy x' (by simp)
    have hle := hx' x (by simp [hxs])
    omega
  -- One of the two splits is not later than the other.
  rcases List.append_eq_append_iff.mp h with ⟨zs, hxs, hys⟩ | ⟨zs, hxs, hys⟩
  · cases zs with
    | nil =>
      rw [List.append_nil] at hxs
      exact ⟨hxs.symm, List.cons.inj hys⟩
    | cons z zs => exact (hearlier hy hx' hxs hys).elim
  · cases zs with
    | nil =>
      rw [List.append_nil] at hxs
      obtain ⟨hhead, htail⟩ := List.cons.inj hys
      exact ⟨hxs, hhead.symm, htail.symm⟩
    | cons z zs => exact (hearlier hy' hx hxs hys).elim

theorem links_branch_ne_nil (l : ChainTree) (o : Operator) (r : ChainTree) :
    (branch l o r).links ≠ [] := by
  simp [links]

/-- An ordered tree is determined by its operands and operators. -/
theorem eq_of_ordered {t u : ChainTree} (ht : t.Ordered) (hu : u.Ordered)
    (hfirst : t.first = u.first) (hlinks : t.links = u.links) : t = u := by
  -- The trees are compared from their roots down.
  induction t generalizing u with
  | leaf a =>
    cases u with
    | leaf b => exact congrArg leaf hfirst
    | branch l o r => exact absurd hlinks.symm (links_branch_ne_nil l o r)
  | branch l o r ihl ihr =>
    cases u with
    | leaf b => exact absurd hlinks (links_branch_ne_nil l o r)
    | branch l' o' r' =>
      obtain ⟨hl, hr, hle, hlt⟩ := ht
      obtain ⟨hl', hr', hle', hlt'⟩ := hu
      -- The root of each tree is the last one of the operators that bind most weakly.
      obtain ⟨hleft, hroot, hright⟩ :=
        split_unique (f := fun p => p.1.strength) hle hlt hle' hlt' hlinks
      obtain ⟨rfl, hfirst'⟩ := Prod.mk.inj hroot
      obtain rfl := ihl hl hl' hfirst hleft
      obtain rfl := ihr hr hr' hfirst' hright
      rfl

/-- A chain has at most one ordered tree. -/
theorem Spans.unique {t u : ChainTree} {a : Node} {chain : List (Operator × Node)}
    (ht : t.Spans a chain) (hu : u.Spans a chain) : t = u :=
  eq_of_ordered ht.ordered hu.ordered (ht.first.trans hu.first.symm) (ht.links.trans hu.links.symm)

end ChainTree

end Brace
