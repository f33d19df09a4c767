/-
# Evaluation that skips nothing

`Node.evalEager` is the evaluator without short cuts: `and` and `or` evaluate both operands and
combine their values, and a conditional evaluates every branch it has before it chooses.

A tree that only reads variables cannot tell the two evaluators apart.  What is skipped would have
succeeded and changed nothing (`Node.silent_eval`), so it may as well be done and its value thrown
away (`EvalM.Silent.bind_const`).  Main statement: `Node.run_eq_runEager`.
-/
import Brace.Eval.Scope
import Brace.Proofs.Eval.Observed
import Brace.Regex.Builtin

namespace Brace.Node

open EvalM

/-- Whether a node does nothing but read variables and compute with their values: it is no call, no
assignment, no regular expression, no search and no description of components. -/
def readsOnly : Node → Bool
  | call .. | assign .. | components _ => false
  | n => !n.searches

section

variable [Regex.Engine] {σ : Type}

/-! ## The evaluator without short cuts -/

mutual

/-- The value of a node, with all its parts evaluated. -/
def evalEager (env : Environment σ) : Node → EvalM σ Value
  | number x => pure (.number x)
  | string s => pure (.string s)
  | boolean b => pure (.boolean b)
  | null => pure .null
  | raw j => pure (Value.ofJson j)
  | regexp source flags => compile source flags
  | identifier name => env.read name
  | unary op a => do
    let x ← a.evalEager env
    pure (op.apply x)
  | binary op a b => do
    let x ← a.evalEager env
    let y ← b.evalEager env
    MonadExcept.ofExcept (op.apply x y)
  | assign (identifier name) a => do
    let x ← a.evalEager env
    env.write name x
  | assign target _ => throw (.badTarget target)
  | call f args => do
    match ← f.evalEager env with
    | .function id =>
      let xs ← evalAllEager env args
      env.call id xs
    | _ => throw (.notCallable f)
  | member a b => do
    let x ← a.evalEager env
    let y ← b.evalEager env
    pure (x.getMember y)
  | object properties => do
    let entries ← evalPropertiesEager env properties
    pure (.object (Fields.ofList entries))
  | array elements => do
    let xs ← evalAllEager env elements
    pure (.array xs)
  | template quasis expressions => do
    let s ← evalTemplateEager env quasis expressions
    pure (.string s)
  | program body | block body => evalBodyEager env .null body
  | conditional a b c => do
    let x ← a.evalEager env
    let y ← evalBranchEager env b
    let z ← evalBranchEager env c
    pure (if x.isTruthy then y else z)
  | components entries => env.components entries

/-- The values of nodes. -/
def evalAllEager (env : Environment σ) : List Node → EvalM σ (List Value)
  | [] => pure []
  | a :: as => do
    let x ← a.evalEager env
    let xs ← evalAllEager env as
    pure (x :: xs)

/-- The entries of an object literal. -/
def evalPropertiesEager (env : Environment σ) :
    List (Node × Node) → EvalM σ (List (String × Value))
  | [] => pure []
  | (a, b) :: rest => do
    let key ← a.evalEager env
    let x ← b.evalEager env
    let entries ← evalPropertiesEager env rest
    pure ((key.display, x) :: entries)

/-- The text of a template. -/
def evalTemplateEager (env : Environment σ) (quasis : List String) : List Node → EvalM σ String
  | [] => pure (String.join quasis)
  | a :: as =>
    match quasis with
    | [] => pure ""
    | q :: qs => do
      let x ← a.evalEager env
      let rest ← evalTemplateEager env qs as
      pure (q ++ x.interpolated ++ rest)

/-- The value of the last of several statements; `last` is the value of the statement in front. -/
def evalBodyEager (env : Environment σ) (last : Value) : List Node → EvalM σ Value
  | [] => pure last
  | a :: as => do
    let x ← a.evalEager env
    evalBodyEager env x as

/-- The value of a branch, `null` if it is missing. -/
def evalBranchEager (env : Environment σ) : Option Node → EvalM σ Value
  | none => pure .null
  | some a => a.evalEager env

end

/-- The answer of evaluating all of a node and the state that this leaves. -/
def runEager (env : Environment σ) (n : Node) (s : σ) : Except EvalError Value × σ :=
  (n.evalEager env).run.run s

/-! ## Trees that only read -/

variable {env : Environment σ}

/-- Reading a variable leaves the state alone where the environment reads purely. -/
theorem silent_read (henv : env.ReadsPurely) (name : String) : Silent (env.read name) :=
  fun s => ⟨env.get name s, congrArg (Prod.map Except.ok id) (henv name s)⟩

/-- Trees that only read are evaluated without effect. -/
theorem silent_eval (henv : env.ReadsPurely) {n : Node} (h : ∀ m ∈ n.nodes, m.readsOnly = true) :
    Silent (n.eval env) := by
  -- A tree that only reads has no node that asks for one of the other steps.
  have hsteps : RelatesSteps (.idle env) (.idle env) (fun x _ _ => Silent x) n := {
    pure := Silent.pure
    bind := Silent.bind
    around := fun _ _ _ hm => hm
    read := fun _ name _ => silent_read henv name
    write := fun _ name a hm => by cases h _ hm
    call := fun _ f args hm => by cases h _ hm
    components := fun _ entries hm => by cases h _ hm
    notCallable := fun f args hm => by cases h _ hm
    badTarget := fun target a hm => by cases h _ hm
    badPattern := fun m hm hsearch => by
      have := h m hm
      unfold readsOnly at this
      split at this <;> simp_all }
  exact relates_eval hsteps

/-! ## Both evaluators -/

/-- The right operand may be evaluated in any case if this has no effect. -/
theorem bind_apply_of_silent (op : BinaryOp) (x : Value) {y : EvalM σ Value} (h : Silent y) :
    (y >>= fun b => MonadExcept.ofExcept (op.apply x b)) =
      if op.decidedBy x then pure x else y >>= fun b => MonadExcept.ofExcept (op.apply x b) := by
  split
  next hdecided =>
    have happly (b : Value) : (MonadExcept.ofExcept (op.apply x b) : EvalM σ Value) = pure x := by
      rw [BinaryOp.apply_of_decidedBy hdecided]
      rfl
    simp only [happly]
    exact h.bind_const _
  next => rfl

/-- Both branches may be evaluated before the choice if this has no effect. -/
theorem bind_ite_of_silent (test : Bool) {y z : EvalM σ Value} (hy : Silent y) (hz : Silent z) :
    (y >>= fun b => z >>= fun c => pure (if test then b else c)) = if test then y else z := by
  cases test with
  | true =>
    simp only [if_true, hz.bind_const]
    exact bind_pure y
  | false =>
    simp only [Bool.false_eq_true, if_false, hy.bind_const]
    exact bind_pure z

/-- The nodes have the same evaluation with and without short cuts. -/
abbrev SameEager (env : Environment σ) (as : List Node) : Prop :=
  ∀ a ∈ as, a.evalEager env = a.eval env

/-- Lists are evaluated alike if their items are. -/
theorem evalAllEager_eq (as : List Node) (h : SameEager env as) :
    evalAllEager env as = evalAll env as := by
  induction as with
  | nil => rw [evalAllEager, evalAll]
  | cons a as ih =>
    obtain ⟨ha, has⟩ := List.forall_mem_cons.mp h
    rw [evalAllEager, evalAll, ha, ih has]

/-- Entries are evaluated alike if their keys and values are. -/
theorem evalPropertiesEager_eq {ps : List (Node × Node)}
    (h : SameEager env (object ps).children) :
    evalPropertiesEager env ps = evalProperties env ps := by
  induction ps with
  | nil => rw [evalPropertiesEager, evalProperties]
  | cons p ps ih =>
    obtain ⟨ha, h⟩ := List.forall_mem_cons.mp h
    obtain ⟨hb, hps⟩ := List.forall_mem_cons.mp h
    rw [evalPropertiesEager, evalProperties, ha, hb, ih hps]

/-- Templates are evaluated alike if their expressions are. -/
theorem evalTemplateEager_eq (as : List Node) (h : SameEager env as) (quasis : List String) :
    evalTemplateEager env quasis as = evalTemplate env quasis as := by
  induction as generalizing quasis with
  | nil => rw [evalTemplateEager, evalTemplate]
  | cons a as ih =>
    obtain ⟨ha, has⟩ := List.forall_mem_cons.mp h
    cases quasis with
    | nil => rw [evalTemplateEager, evalTemplate]
    | cons q quasis => rw [evalTemplateEager, evalTemplate, ha, ih has]

/-- Sequences of statements are evaluated alike if the statements are. -/
theorem evalBodyEager_eq (as : List Node) (h : SameEager env as) (last : Value) :
    evalBodyEager env last as = evalBody env last as := by
  induction as generalizing last with
  | nil => rw [evalBodyEager, evalBody]
  | cons a as ih =>
    obtain ⟨ha, has⟩ := List.forall_mem_cons.mp h
    rw [evalBodyEager, evalBody, ha]
    congr 1
    funext x
    exact ih has x

theorem evalBranchEager_eq {b : Option Node} (h : SameEager env b.toList) :
    evalBranchEager env b = evalBranch env b := by
  cases b with
  | none => rw [evalBranchEager, evalBranch]
  | some a => rw [evalBranchEager, evalBranch, h a List.mem_cons_self]

/-- Branches that only read are evaluated without effect. -/
theorem silent_evalBranch {b : Option Node} (h : ∀ a ∈ b.toList, Silent (a.eval env)) :
    Silent (evalBranch env b) := by
  cases b with
  | none =>
    rw [evalBranch]
    exact .pure _
  | some a =>
    rw [evalBranch]
    exact h a List.mem_cons_self

/-- A tree that only reads has the same evaluation with and without short cuts. -/
theorem evalEager_eq_eval (henv : env.ReadsPurely) {n : Node}
    (h : ∀ m ∈ n.nodes, m.readsOnly = true) : n.evalEager env = n.eval env := by
  induction n using Node.induction with
  | step n ih =>
    have hself := h n n.mem_nodes_self
    have hsub (c : Node) (hc : c ∈ n.children) : ∀ m ∈ c.nodes, m.readsOnly = true :=
      fun m hm => h m (mem_nodes_of_mem_children hc hm)
    -- Of the children two things are used: that both evaluators agree on them, and that they may be
    -- evaluated without being asked for.
    have hsilent (c : Node) (hc : c ∈ n.children) : Silent (c.eval env) :=
      silent_eval henv (hsub c hc)
    replace ih : SameEager env n.children := fun c hc => ih c hc (hsub c hc)
    -- Only operators and conditionals have short cuts, and what these skip is without effect.
    cases n with
    | number | string | boolean | null | raw | identifier =>
      rw [evalEager, eval]
    | regexp | call | assign | components => cases hself
    | unary op a =>
      rw [evalEager, eval, ih a (by simp [children])]
    | binary op a b =>
      rw [evalEager, eval, ih a (by simp [children]), ih b (by simp [children])]
      congr 1
      funext x
      exact bind_apply_of_silent op x (hsilent b (by simp [children]))
    | member a b =>
      rw [evalEager, eval, ih a (by simp [children]), ih b (by simp [children])]
    | object ps =>
      rw [evalEager, eval, evalPropertiesEager_eq ih]
    | array as =>
      rw [evalEager, eval, evalAllEager_eq as ih]
    | template quasis as =>
      rw [evalEager, eval, evalTemplateEager_eq as ih]
    | program as | block as =>
      rw [evalEager, eval, evalBodyEager_eq as ih]
    | conditional a b c =>
      have hb (m : Node) (hm : m ∈ b.toList) : m ∈ (conditional a b c).children :=
        List.mem_cons_of_mem _ (List.mem_append_left _ hm)
      have hc (m : Node) (hm : m ∈ c.toList) : m ∈ (conditional a b c).children :=
        List.mem_cons_of_mem _ (List.mem_append_right _ hm)
      rw [evalEager, eval, ih a (by simp [children]),
        evalBranchEager_eq fun m hm => ih m (hb m hm),
        evalBranchEager_eq fun m hm => ih m (hc m hm)]
      congr 1
      funext x
      exact bind_ite_of_silent x.isTruthy
        (silent_evalBranch fun m hm => hsilent m (hb m hm))
        (silent_evalBranch fun m hm => hsilent m (hc m hm))

/-- On a tree that only reads variables, in an environment that reading does not change, the
evaluator with short cuts and the one without them both succeed, with the same value, and change
nothing. -/
theorem run_eq_runEager (henv : env.ReadsPurely) {n : Node}
    (h : ∀ m ∈ n.nodes, m.readsOnly = true) (s : σ) :
    ∃ a, n.run env s = (.ok a, s) ∧ n.runEager env s = (.ok a, s) := by
  obtain ⟨a, ha⟩ := silent_eval henv h s
  refine ⟨a, ha, ?_⟩
  rw [runEager, evalEager_eq_eval henv h]
  exact ha

-- What is skipped in other trees may fail.
example (s : σ) :
    let n := binary .and null (call null [])
    n.run env s = (.ok .null, s) ∧ n.runEager env s = (.error (.notCallable null), s) :=
  ⟨rfl, rfl⟩

end

/-- An operand and a branch that are skipped could as well be evaluated. -/
theorem run_eq_runEager_conditional :
    let n := conditional (binary .and (identifier "b") (identifier "a")) (some (identifier "b"))
      (some (binary .or (identifier "a") (member (identifier "b") (string "c"))))
    let env := Scoped.environment Host.none
    let s : Scoped Unit := ⟨.ofList [("a", .string "k")], ()⟩
    env.ReadsPurely ∧ (∀ m ∈ n.nodes, m.readsOnly = true) ∧
      n.run env s = (.ok (.string "k"), s) ∧ n.runEager env s = (.ok (.string "k"), s) := by
  intro n env s
  have henv : env.ReadsPurely := fun _ _ => rfl
  have h : ∀ m ∈ n.nodes, m.readsOnly = true := by
    simp [n, nodes_eq, children, readsOnly, searches]
  have hrun : n.run env s = (.ok (.string "k"), s) := rfl
  obtain ⟨a, ha, heager⟩ := run_eq_runEager henv h s
  rw [hrun] at ha
  exact ⟨henv, h, hrun, heager.trans ha.symm⟩

end Brace.Node
