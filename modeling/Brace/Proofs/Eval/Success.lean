/-
# Evaluations that cannot fail

Every error of an evaluation has a cause in the tree: a call, a text that is made a regular
expression, an assignment to something other than a variable, or components
(`Node.cause_of_run_eq_error`).  A tree without these has a value in every environment, however the
values in it are combined.  Main statement: `Node.run_eq_ok`.
-/
import Brace.Eval.Scope
import Brace.Proofs.Eval.Parsed
import Brace.Regex.Builtin

namespace Brace.Node

/-! ## Nodes that may fail -/

/-- Whether the evaluation of a node can fail, apart from that of its parts and from a target that
is no variable: it is a call, a regular expression, a search or components. -/
def mayFail : Node → Bool
  | call .. | components _ => true
  | n => n.searches

/-- A node that searches is a node that may fail. -/
theorem mayFail_of_searches {m : Node} (h : m.searches = true) : m.mayFail = true := by
  unfold mayFail
  split
  · rfl
  · rfl
  · exact h

section

open EvalM

variable [Regex.Engine] {σ : Type} {env : Environment σ} {n : Node}

/-! ## The causes of errors -/

/-- What in a tree can make its evaluation in an environment fail with an error. -/
inductive Cause (env : Environment σ) (n : Node) : EvalError → Prop where
  /-- A text that is made a regular expression and is none. -/
  | badPattern {m : Node} {message source : String} (hm : m ∈ n.nodes)
      (hsearch : m.searches = true) : Cause env n (@EvalError.badPattern message source)
  /-- A call of something that is no function. -/
  | notCallable {f : Node} {args : List Node} (hm : call f args ∈ n.nodes) :
      Cause env n (.notCallable f)
  /-- An assignment to something that is no variable. -/
  | badTarget {target a : Node} (hm : assign target a ∈ n.nodes)
      (hnot : target.isIdentifier = false) : Cause env n (.badTarget target)
  /-- A call of a function that fails. -/
  | call {f : Node} {args : List Node} (hm : call f args ∈ n.nodes) {id : Nat} {xs : List Value}
      {s : σ} {e : EvalError} (he : ((env.call id xs).run.run s).1 = .error e) : Cause env n e
  /-- Components that the environment fails to evaluate. -/
  | components {entries : Fields Json} (hm : components entries ∈ n.nodes) {s : σ} {e : EvalError}
      (he : ((env.components entries).run.run s).1 = .error e) : Cause env n e

/-- No step of an evaluation fails without a cause.  Operators other than the search, members, keys,
templates and statements are not among the steps that fail. -/
theorem relatesSteps_cause (env : Environment σ) (n : Node) :
    RelatesSteps (.idle env) (.idle env) (fun x _ _ => FailsOnly (Cause env n) x) n where
  pure := .pure
  bind := .bind
  around _ _ _ h := h
  read _ _ _ := by
    -- An environment has a value for every variable.
    intro s e h
    cases h
  write _ _ _ _ _ := by
    intro s e h
    cases h
  -- The other steps fail only where the tree has a node that asks for them.
  call _ _ _ hm _ _ _ _ he := .call hm he
  components _ _ hm _ _ he := .components hm he
  notCallable _ _ hm _ := .throw (.notCallable hm)
  badTarget _ _ hm hnot _ := .throw (.badTarget hm hnot)
  badPattern _ hm hsearch _ _ := .throw (.badPattern hm hsearch)

/-- Every error of an evaluation has a cause in the tree. -/
theorem cause_of_run_eq_error {s : σ} {e : EvalError} (h : (n.run env s).1 = .error e) :
    Cause env n e :=
  relates_eval (relatesSteps_cause env n) s e h

/-! ## Trees without a cause -/

/-- A tree that only assigns to variables, and in which no other node can fail, has no cause for an
error. -/
theorem not_cause {e : EvalError} (hfail : ∀ m ∈ n.nodes, m.mayFail = false)
    (htargets : ∀ target a, assign target a ∈ n.nodes → target.isIdentifier = true) :
    ¬ Cause env n e := by
  intro h
  cases h with
  | badPattern hm hsearch =>
    cases (hfail _ hm).symm.trans (mayFail_of_searches hsearch)
  | badTarget hm hnot => cases hnot.symm.trans (htargets _ _ hm)
  | notCallable hm | call hm _ | components hm _ => cases hfail _ hm

/-- A tree without calls, regular expressions, searches and components, which only assigns to
variables as parsed trees do, has a value in every environment and state. -/
theorem run_eq_ok (hfail : ∀ m ∈ n.nodes, m.mayFail = false)
    (htargets : (∀ target a, assign target a ∈ n.nodes → target.isIdentifier = true) ∨
      ∃ source, parse source = .ok n)
    (env : Environment σ) (s : σ) : ∃ a t, n.run env s = (.ok a, t) := by
  replace htargets : ∀ target a, assign target a ∈ n.nodes → target.isIdentifier = true :=
    htargets.elim id fun ⟨_, hparse⟩ => (wellMade_of_parse hparse).targets
  generalize hrun : n.run env s = r
  obtain ⟨answer, t⟩ := r
  cases answer with
  | ok a => exact ⟨a, t, rfl⟩
  | error e =>
    have hcause : Cause env n e := cause_of_run_eq_error (congrArg Prod.fst hrun)
    exact absurd hcause (not_cause hfail htargets)

end

/-- In the empty scope, members of an unbound variable, a list as a key and operators on lists and
texts do no harm. -/
theorem run_eq_ok_members :
    let n := program [assign (identifier "x") (member (member (identifier "a") (string "b"))
        (string "c")),
      object [(array [identifier "a"], binary .multiply (unary .minus (array [identifier "x"]))
        (string "k"))]]
    (∀ m ∈ n.nodes, m.mayFail = false) ∧
      (∀ target a, assign target a ∈ n.nodes → target.isIdentifier = true) ∧
      ∃ a t, n.run (Scoped.environment Host.none) ⟨.empty, ()⟩ = (.ok a, t) := by
  intro n
  have hfail : ∀ m ∈ n.nodes, m.mayFail = false := by
    simp [n, nodes_eq, children, mayFail, searches]
  have htargets : ∀ target a, assign target a ∈ n.nodes → target.isIdentifier = true := by
    simp [n, nodes_eq, children, isIdentifier]
  exact ⟨hfail, htargets, run_eq_ok hfail (.inl htargets) _ _⟩

end Brace.Node
