/-
# The nodes of a tree

`Node.children` lists the direct parts of a node in the order of the source, and `Node.nodes` all
nodes of a tree, each in front of its children.  Whatever a node has if its children have it, every
node has (`Node.induction`).  The nodes of a regular tree are regular (`Regular.of_mem_nodes`).
-/
import Brace.Proofs.Node.Regular

namespace Brace

namespace Node

/-! ## Children -/

/-- The direct parts of a node, in the order of the source. -/
def children : Node → List Node
  | unary _ a => [a]
  | binary _ a b | assign a b | member a b => [a, b]
  | call f as => f :: as
  | object ps => ps.flatMap fun p => [p.1, p.2]
  | array as | template _ as | program as | block as => as
  | conditional a b c => a :: (b.toList ++ c.toList)
  | number _ | string _ | boolean _ | null | raw _ | regexp .. | identifier _ | components _ => []

/-- A child is smaller than the node. -/
theorem sizeOf_lt_of_mem_children {n c : Node} (h : c ∈ n.children) : sizeOf c < sizeOf n := by
  cases n with
  | unary | binary | assign | member =>
    simp only [children, List.mem_cons, List.not_mem_nil, or_false] at h
    rcases h with rfl | rfl
    all_goals simp <;> omega
  | call f as =>
    rcases List.mem_cons.mp h with rfl | h
    · simp
      omega
    · have := List.sizeOf_lt_of_mem h
      simp
      omega
  -- The children are keys and values, which are smaller than their entry.
  | object ps =>
    obtain ⟨p, hp, hc⟩ := List.mem_flatMap.mp h
    have := List.sizeOf_lt_of_mem hp
    obtain ⟨a, b⟩ := p
    simp only [List.mem_cons, List.not_mem_nil, or_false, Prod.mk.sizeOf_spec] at hc this
    rcases hc with rfl | rfl
    all_goals
      simp
      omega
  | array as | template quasis as | program as | block as =>
    have hlt : sizeOf c < sizeOf as := List.sizeOf_lt_of_mem h
    simp
    omega
  | conditional a b c =>
    simp only [children, List.mem_cons, List.mem_append, Option.mem_toList] at h
    rcases h with rfl | h | h
    · simp
      omega
    all_goals
      obtain rfl := h
      simp
      omega
  | _ => cases h

/-- What a node has if its children have it, every node has. -/
@[elab_as_elim]
theorem induction {P : Node → Prop} (step : ∀ n, (∀ c ∈ n.children, P c) → P n) (n : Node) :
    P n :=
  step n fun c _ => induction step c
termination_by n
decreasing_by exact sizeOf_lt_of_mem_children ‹_›

/-! ## All nodes -/

/-- The nodes of a tree, each in front of its children. -/
def nodes (n : Node) : List Node := n :: n.children.attach.flatMap fun c => nodes c.1
termination_by n
decreasing_by exact sizeOf_lt_of_mem_children c.2

theorem nodes_eq (n : Node) : n.nodes = n :: n.children.flatMap nodes := by
  rw [nodes]
  congr 1
  rw [List.flatMap_subtype (g := nodes) fun _ _ => rfl, List.unattach_attach]

theorem mem_nodes_iff {m n : Node} : m ∈ n.nodes ↔ m = n ∨ ∃ c ∈ n.children, m ∈ c.nodes := by
  rw [nodes_eq, List.mem_cons, List.mem_flatMap]

theorem mem_nodes_self (n : Node) : n ∈ n.nodes := mem_nodes_iff.mpr (Or.inl rfl)

theorem mem_nodes_of_mem_children {m c n : Node} (hc : c ∈ n.children) (hm : m ∈ c.nodes) :
    m ∈ n.nodes :=
  mem_nodes_iff.mpr (Or.inr ⟨c, hc, hm⟩)

end Node

/-! ## Regular trees -/

variable {limits : Limits} {place : Place} {n : Node}

/-- The children of a regular node are regular, each at its place. -/
theorem Regular.of_mem_children (h : Regular limits place n) :
    ∀ c ∈ n.children, ∃ place, Regular limits place c := by
  -- Each rule asks for regular parts; only a place around an expression has the children of the
  -- expression.
  induction h with
  | unary ha _ =>
    intro c hc
    exact ⟨_, List.mem_singleton.mp hc ▸ ha⟩
  | binary ha hb _ _ | assign _ ha hb _ _ | member ha hb _ _ =>
    intro c hc
    simp only [Node.children, List.mem_cons, List.not_mem_nil, or_false] at hc
    rcases hc with rfl | rfl
    · exact ⟨_, ha⟩
    · exact ⟨_, hb⟩
  | call ha has _ _ =>
    intro c hc
    rcases List.mem_cons.mp hc with rfl | hc
    · exact ⟨_, ha⟩
    · exact ⟨_, has c hc⟩
  | object _ hkeys hvalues _ _ =>
    intro c hc
    obtain ⟨p, hp, hc⟩ := List.mem_flatMap.mp hc
    simp only [List.mem_cons, List.not_mem_nil, or_false] at hc
    rcases hc with rfl | rfl
    · exact ⟨_, hkeys p hp⟩
    · exact ⟨_, hvalues p hp⟩
  | array has _ | template _ _ has _ | block has _ | sequence _ has _ | program _ has _ =>
    exact fun c hc => ⟨_, has c hc⟩
  | conditional ha hb hc _ _ _ =>
    intro x hx
    simp only [Node.children, List.mem_cons, List.mem_append, Option.mem_toList] at hx
    rcases hx with rfl | hx | hx
    · exact ⟨_, ha⟩
    · exact ⟨_, hb x hx⟩
    · exact ⟨_, hc x hx⟩
  | expression _ _ ih => exact ih
  | _ => exact nofun

/-- All nodes of a regular tree are regular, each at its place. -/
theorem Regular.of_mem_nodes (h : Regular limits place n) :
    ∀ m ∈ n.nodes, ∃ place, Regular limits place m := by
  induction n using Node.induction generalizing place with
  | step n ih =>
    intro m hm
    rcases Node.mem_nodes_iff.mp hm with rfl | ⟨c, hc, hm⟩
    · exact ⟨place, h⟩
    · obtain ⟨_, hregular⟩ := h.of_mem_children c hc
      exact ih c hc hregular m hm

end Brace
