/-
# Where an evaluation has effects

An evaluation changes its surroundings in three ways: it writes a variable, it calls a function of
the host, and it lets the environment evaluate components.  The places of a tree where this happens
are its sites.  `Node.sites` lists them from left to right; no site occurs twice
(`Node.nodup_sites`).
-/
import Brace.Node.Basic
import Mathlib.Data.List.Infix
import Mathlib.Data.List.Nodup

namespace Brace

/-! ## Sites -/

/-- The place of a node in a tree: the numbers of the children on the way to it. -/
abbrev Path := List Nat

/-- The kinds of effects. -/
inductive EffectKind where
  /-- A variable is written. -/
  | set
  /-- A function is called. -/
  | call
  /-- Components are evaluated. -/
  | components
  deriving DecidableEq, Repr

/-- A place where an evaluation has an effect. -/
structure EffectSite where
  /-- The place of the node. -/
  path : Path
  /-- The kind of the effect. -/
  kind : EffectKind
  deriving DecidableEq, Repr

namespace Node

mutual

/-- The sites of a node at the given place, from left to right: the effect of a node itself comes
behind those of its children.  The target of an assignment is not evaluated. -/
def sites (path : Path) : Node → List EffectSite
  | assign _ a => sites (path ++ [1]) a ++ [⟨path, .set⟩]
  | call f args => sites (path ++ [0]) f ++ sitesOfAll path 1 args ++ [⟨path, .call⟩]
  | components _ => [⟨path, .components⟩]
  | unary _ a => sites (path ++ [0]) a
  | binary _ a b | member a b => sites (path ++ [0]) a ++ sites (path ++ [1]) b
  | object properties => sitesOfPairs path 0 properties
  | array as | template _ as | program as | block as => sitesOfAll path 0 as
  | conditional a b c =>
    sites (path ++ [0]) a ++ sitesOfBranch (path ++ [1]) b ++ sitesOfBranch (path ++ [2]) c
  | number _ | string _ | boolean _ | null | raw _ | regexp .. | identifier _ => []

/-- The sites of the children from the number `i` on. -/
def sitesOfAll (path : Path) (i : Nat) : List Node → List EffectSite
  | [] => []
  | a :: as => sites (path ++ [i]) a ++ sitesOfAll path (i + 1) as

/-- The sites of the entries of an object whose first key has the number `i`: those of a key in
front of those of its value. -/
def sitesOfPairs (path : Path) (i : Nat) : List (Node × Node) → List EffectSite
  | [] => []
  | (a, b) :: rest =>
    sites (path ++ [i]) a ++ sites (path ++ [i + 1]) b ++ sitesOfPairs path (i + 2) rest

/-- The sites of a branch, if there is one. -/
def sitesOfBranch (path : Path) : Option Node → List EffectSite
  | none => []
  | some a => sites path a

end

/-! ## No site occurs twice -/

/-- Sites at or below a place, none of them twice. -/
structure SpreadAt (path : Path) (ss : List EffectSite) : Prop where
  /-- They lie at the place or below it. -/
  below : ∀ s ∈ ss, path <+: s.path
  /-- None occurs twice. -/
  nodup : ss.Nodup

/-- Sites at or below the children of a place from the number `i` up to `j`, none of them twice. -/
structure SpreadBelow (path : Path) (i j : Nat) (ss : List EffectSite) : Prop where
  /-- They lie below these children. -/
  below : ∀ s ∈ ss, ∃ k, i ≤ k ∧ k < j ∧ path ++ [k] <+: s.path
  /-- None occurs twice. -/
  nodup : ss.Nodup

section Spread

variable {path : Path} {i j k : Nat} {ss ts : List EffectSite}

theorem SpreadAt.nil : SpreadAt path [] := ⟨nofun, List.nodup_nil⟩

theorem SpreadBelow.nil : SpreadBelow path i j [] := ⟨nofun, List.nodup_nil⟩

/-- What is spread at a child is spread below the node, among the children with this number. -/
theorem SpreadAt.child (h : SpreadAt (path ++ [i]) ss) : SpreadBelow path i (i + 1) ss :=
  ⟨fun s hs => ⟨i, Nat.le_refl i, Nat.lt_succ_self i, h.below s hs⟩, h.nodup⟩

/-- What is spread below a node is spread at it. -/
theorem SpreadBelow.at (h : SpreadBelow path i j ss) : SpreadAt path ss := by
  refine ⟨fun s hs => ?_, h.nodup⟩
  obtain ⟨k, -, -, hp⟩ := h.below s hs
  exact (List.prefix_append path [k]).trans hp

/-- Sites of earlier children in front of those of later ones. -/
theorem SpreadBelow.append (h : SpreadBelow path i j ss) (h' : SpreadBelow path j k ts)
    (hij : i ≤ j) (hjk : j ≤ k) : SpreadBelow path i k (ss ++ ts) := by
  refine ⟨fun s hs => ?_, List.nodup_append'.mpr ⟨h.nodup, h'.nodup, fun s hs hs' => ?_⟩⟩
  · rcases List.mem_append.mp hs with hs | hs
    · obtain ⟨m, him, hmj, hp⟩ := h.below s hs
      exact ⟨m, him, by omega, hp⟩
    · obtain ⟨m, hjm, hmk, hp⟩ := h'.below s hs
      exact ⟨m, by omega, hmk, hp⟩
  · -- The number of the child can be read off the place of a site.
    obtain ⟨m, -, hmj, hp⟩ := h.below s hs
    obtain ⟨n, hjn, -, hq⟩ := h'.below s hs'
    have heq : path ++ [m] = path ++ [n] :=
      (List.prefix_of_prefix_length_le hp hq (by simp)).eq_of_length (by simp)
    obtain rfl : m = n := by simpa using heq
    omega

/-- The effect of a node behind those of its children. -/
theorem SpreadBelow.effect (h : SpreadBelow path i j ss) (kind : EffectKind) :
    SpreadAt path (ss ++ [⟨path, kind⟩]) := by
  refine ⟨fun s hs => ?_, List.nodup_append'.mpr ⟨h.nodup, List.nodup_singleton _, ?_⟩⟩
  · rcases List.mem_append.mp hs with hs | hs
    · exact h.at.below s hs
    · rw [List.mem_singleton.mp hs]
  · intro s hs hs'
    rw [List.mem_singleton.mp hs'] at hs
    obtain ⟨m, -, -, hp⟩ := h.below _ hs
    have hlen := hp.length_le
    simp only [List.length_append, List.length_singleton] at hlen
    omega

end Spread

mutual

/-- The sites of a node are at the node or below it, and no site is there twice. -/
theorem spreadAt_sites (path : Path) : ∀ n : Node, SpreadAt path (sites path n)
  | assign _ a => by
    rw [sites]
    exact (spreadAt_sites _ a).child.effect .set
  | call f args => by
    rw [sites]
    have hargs := spreadBelow_sitesOfAll path 1 args
    exact ((spreadAt_sites _ f).child.append hargs (by omega) (by omega)).effect .call
  | components _ => by
    rw [sites]
    exact (SpreadBelow.nil (i := 0) (j := 0)).effect .components
  | unary _ a => by
    rw [sites]
    exact (spreadAt_sites _ a).child.at
  | binary _ a b | member a b => by
    rw [sites]
    have hb := (spreadAt_sites (path ++ [1]) b).child
    exact ((spreadAt_sites _ a).child.append hb (by omega) (by omega)).at
  | object properties => by
    rw [sites]
    exact (spreadBelow_sitesOfPairs path 0 properties).at
  | array as | template _ as | program as | block as => by
    rw [sites]
    exact (spreadBelow_sitesOfAll path 0 as).at
  -- The branches of a conditional have numbers of their own, also where the first one is missing.
  | conditional a b c => by
    rw [sites]
    have hb := (spreadAt_sitesOfBranch (path ++ [1]) b).child
    have hc := (spreadAt_sitesOfBranch (path ++ [2]) c).child
    have hab := (spreadAt_sites _ a).child.append hb (by omega) (by omega)
    exact (hab.append hc (by omega) (by omega)).at
  | number _ | string _ | boolean _ | null | raw _ | regexp .. | identifier _ => by
    rw [sites]
    exact .nil

/-- The sites of nodes in a list are below the children that the nodes are. -/
theorem spreadBelow_sitesOfAll (path : Path) (i : Nat) :
    ∀ as : List Node, SpreadBelow path i (i + as.length) (sitesOfAll path i as)
  | [] => by
    rw [sitesOfAll]
    exact .nil
  | a :: as => by
    rw [sitesOfAll, List.length_cons, Nat.add_comm as.length, ← Nat.add_assoc]
    have has := spreadBelow_sitesOfAll path (i + 1) as
    exact (spreadAt_sites _ a).child.append has (by omega) (by omega)

/-- The sites of entries are below the children for keys and values, which take turns. -/
theorem spreadBelow_sitesOfPairs (path : Path) (i : Nat) :
    ∀ ps : List (Node × Node), SpreadBelow path i (i + 2 * ps.length) (sitesOfPairs path i ps)
  | [] => by
    rw [sitesOfPairs]
    exact .nil
  | (a, b) :: ps => by
    rw [sitesOfPairs, List.length_cons, Nat.mul_succ, Nat.add_comm (2 * ps.length), ← Nat.add_assoc]
    have hb := (spreadAt_sites (path ++ [i + 1]) b).child
    have hab := (spreadAt_sites _ a).child.append hb (by omega) (by omega)
    exact hab.append (spreadBelow_sitesOfPairs path (i + 2) ps) (by omega) (by omega)

/-- The sites of a branch are at the branch or below it. -/
theorem spreadAt_sitesOfBranch (path : Path) :
    ∀ b : Option Node, SpreadAt path (sitesOfBranch path b)
  | none => by
    rw [sitesOfBranch]
    exact .nil
  | some a => by
    rw [sitesOfBranch]
    exact spreadAt_sites path a

end

/-- No site occurs twice. -/
theorem nodup_sites (path : Path) (n : Node) : (sites path n).Nodup := (spreadAt_sites path n).nodup

/-! ## Nodes that leave children out -/

/-- Whether the values of some children decide if others are evaluated. -/
def isConditional : Node → Bool
  | binary .and .. | binary .or .. | conditional .. => true
  | _ => false

/-- Every child is evaluated, unless there is a failure. -/
def Unconditional (n : Node) : Prop :=
  n.isConditional = false ∧ ∀ quasis as, n = template quasis as → as.length ≤ quasis.length

end Node

end Brace
