/-
# Evaluation under observation

`Node.evalBy` is the evaluator with an observer.  The observer is told the place of every node that
is evaluated: the environment may depend on it, and something may be done around the evaluation.
With an observer who only looks on it is the evaluator itself (`Node.evalBy_idle`).

All statements on evaluations go through one induction, `Node.relates_evalBy`: what holds of the
steps of two evaluations, and is kept when one computation is put behind another, holds of the
evaluations.  A statement on one evaluation is the case of an evaluation beside itself.
-/
import Brace.Proofs.Eval.Sequence
import Brace.Proofs.Eval.Sites
import Brace.Proofs.Node.Nodes

namespace Brace

variable [Regex.Engine]

/-- What an evaluation under observation needs from its surroundings. -/
structure Observer (σ : Type) where
  /-- The environment that serves the node at a place. -/
  env : Path → Environment σ
  /-- What is done around the evaluation of the node at a place. -/
  around : Path → Node → EvalM σ Value → EvalM σ Value

namespace Observer

variable {σ : Type}

/-- The observer who only tells the environment the place. -/
def placed (env : Path → Environment σ) : Observer σ := ⟨env, fun _ _ x => x⟩

/-- The observer who only looks on. -/
abbrev idle (env : Environment σ) : Observer σ := placed fun _ => env

/-- An observer who looks at places gives the environment of the place. -/
@[simp]
theorem placed_env (env : Path → Environment σ) (path : Path) : (placed env).env path = env path :=
  rfl

@[simp]
theorem placed_around (env : Path → Environment σ) (path : Path) (n : Node) (x : EvalM σ Value) :
    (placed env).around path n x = x := rfl

end Observer

/-! ## Operations that fail -/

/-- A pattern that is refused is named in the error by its source. -/
theorem Pattern.eq_badPattern_of_compile {source flags : String} {e : EvalError}
    (h : compile source flags = .error e) :
    ∃ message, e = @EvalError.badPattern message source := by
  unfold compile at h
  cases hp : make source flags with
  | ok p =>
    rw [hp] at h
    cases h
  | error message =>
    rw [hp] at h
    exact ⟨message, (Except.error.inj h).symm⟩

/-- Only a search fails, and only because its pattern is refused. -/
theorem BinaryOp.apply_eq_error {op : BinaryOp} {x y : Value} {e : EvalError}
    (h : op.apply x y = .error e) :
    op = .test ∧ ∃ message, e = @EvalError.badPattern message y.display := by
  -- Of all operations only a search can fail, when its pattern is compiled.
  cases op with
  | test =>
    refine ⟨rfl, ?_⟩
    rw [apply, Value.search] at h
    cases hp : y.toPattern with
    | error f =>
      rw [hp] at h
      obtain rfl := Except.error.inj h
      -- A value that is a pattern already is not compiled again.
      unfold Value.toPattern at hp
      split at hp
      · cases hp
      · exact Pattern.eq_badPattern_of_compile hp
    | ok p =>
      rw [hp] at h
      cases h
  | _ => cases h

namespace Node

open EvalM

variable {σ τ : Type}

/-! ## The evaluator with an observer -/

mutual

/-- The value of the node at a place, with an observer of the evaluations of its parts. -/
def evalBy (o : Observer σ) (path : Path) : Node → EvalM σ Value
  | number x => pure (.number x)
  | string s => pure (.string s)
  | boolean b => pure (.boolean b)
  | null => pure .null
  | raw j => pure (Value.ofJson j)
  | regexp source flags => compile source flags
  | identifier name => (o.env path).read name
  | unary op a => do
    let x ← o.around (path ++ [0]) a (a.evalBy o (path ++ [0]))
    pure (op.apply x)
  | binary op a b => do
    let x ← o.around (path ++ [0]) a (a.evalBy o (path ++ [0]))
    if op.decidedBy x then pure x
    else
      let y ← o.around (path ++ [1]) b (b.evalBy o (path ++ [1]))
      MonadExcept.ofExcept (op.apply x y)
  | assign (identifier name) a => do
    let x ← o.around (path ++ [1]) a (a.evalBy o (path ++ [1]))
    (o.env path).write name x
  | assign target _ => throw (.badTarget target)
  | call f args => do
    match ← o.around (path ++ [0]) f (f.evalBy o (path ++ [0])) with
    | .function id =>
      let xs ← evalAllBy o path 1 args
      (o.env path).call id xs
    | _ => throw (.notCallable f)
  | member a b => do
    let x ← o.around (path ++ [0]) a (a.evalBy o (path ++ [0]))
    let y ← o.around (path ++ [1]) b (b.evalBy o (path ++ [1]))
    pure (x.getMember y)
  | object properties => do
    let entries ← evalPropertiesBy o path 0 properties
    pure (.object (Fields.ofList entries))
  | array elements => do
    let xs ← evalAllBy o path 0 elements
    pure (.array xs)
  | template quasis expressions => do
    let s ← evalTemplateBy o path 0 quasis expressions
    pure (.string s)
  | program body | block body => evalBodyBy o path 0 .null body
  | conditional a b c => do
    let x ← o.around (path ++ [0]) a (a.evalBy o (path ++ [0]))
    if x.isTruthy then evalBranchBy o (path ++ [1]) b else evalBranchBy o (path ++ [2]) c
  | components entries => (o.env path).components entries

/-- The values of the children from the number `i` on. -/
def evalAllBy (o : Observer σ) (path : Path) (i : Nat) : List Node → EvalM σ (List Value)
  | [] => pure []
  | a :: as => do
    let x ← o.around (path ++ [i]) a (a.evalBy o (path ++ [i]))
    let xs ← evalAllBy o path (i + 1) as
    pure (x :: xs)

/-- The entries of an object literal whose first key has the number `i`. -/
def evalPropertiesBy (o : Observer σ) (path : Path) (i : Nat) :
    List (Node × Node) → EvalM σ (List (String × Value))
  | [] => pure []
  | (a, b) :: rest => do
    let key ← o.around (path ++ [i]) a (a.evalBy o (path ++ [i]))
    let x ← o.around (path ++ [i + 1]) b (b.evalBy o (path ++ [i + 1]))
    let entries ← evalPropertiesBy o path (i + 2) rest
    pure ((key.display, x) :: entries)

/-- The text of a template whose first expression has the number `i`. -/
def evalTemplateBy (o : Observer σ) (path : Path) (i : Nat) (quasis : List String) :
    List Node → EvalM σ String
  | [] => pure (String.join quasis)
  | a :: as =>
    match quasis with
    | [] => pure ""
    | q :: qs => do
      let x ← o.around (path ++ [i]) a (a.evalBy o (path ++ [i]))
      let rest ← evalTemplateBy o path (i + 1) qs as
      pure (q ++ x.interpolated ++ rest)

/-- The value of the last of several statements, the first of which has the number `i`. -/
def evalBodyBy (o : Observer σ) (path : Path) (i : Nat) (last : Value) :
    List Node → EvalM σ Value
  | [] => pure last
  | a :: as => do
    let x ← o.around (path ++ [i]) a (a.evalBy o (path ++ [i]))
    evalBodyBy o path (i + 1) x as

/-- The value of a branch at the given place, `null` if it is missing. -/
def evalBranchBy (o : Observer σ) (path : Path) : Option Node → EvalM σ Value
  | none => pure .null
  | some a => o.around path a (a.evalBy o path)

end

/-! ## The observer who only looks on -/

section Idle

variable (env : Environment σ)

mutual

/-- An observer who only looks on changes nothing, wherever the node stands. -/
theorem evalBy_idle (path : Path) : ∀ n : Node, n.evalBy (.idle env) path = n.eval env
  | number _ | string _ | boolean _ | null | raw _ | regexp .. | identifier _ | components _ => by
    rw [evalBy, eval]
    all_goals rfl
  | unary op a => by
    rw [evalBy, eval, Observer.placed_around, evalBy_idle _ a]
  | binary op a b | member a b => by
    simp only [evalBy, eval, Observer.placed_around, evalBy_idle _ a, evalBy_idle _ b]
  | assign target a => by
    -- The equation for a target that is no variable asks for a proof that it is none.
    cases target with
    | identifier name =>
      rw [evalBy, eval, Observer.placed_around, Observer.placed_env, evalBy_idle _ a]
    | _ =>
      rw [evalBy, eval]
      all_goals simp
  | call f args => by
    rw [evalBy, eval, Observer.placed_around, evalBy_idle _ f]
    -- What is called decides whether the arguments are evaluated.
    refine bind_congr fun x => ?_
    cases x with
    | function id => exact congrArg (· >>= env.call id) (evalAllBy_idle path 1 args)
    | _ => rfl
  | object properties => by
    rw [evalBy, eval, evalPropertiesBy_idle path 0 properties]
  | array elements => by
    rw [evalBy, eval, evalAllBy_idle path 0 elements]
  | template quasis expressions => by
    rw [evalBy, eval, evalTemplateBy_idle path 0 quasis expressions]
  | program body | block body => by
    rw [evalBy, eval, evalBodyBy_idle path 0 .null body]
  | conditional a b c => by
    simp only [evalBy, eval, Observer.placed_around, evalBy_idle _ a, evalBranchBy_idle _ b,
      evalBranchBy_idle _ c]

theorem evalAllBy_idle (path : Path) (i : Nat) :
    ∀ as : List Node, evalAllBy (.idle env) path i as = evalAll env as
  | [] => by rw [evalAllBy, evalAll]
  | a :: as => by
    rw [evalAllBy, evalAll, Observer.placed_around, evalBy_idle _ a, evalAllBy_idle path _ as]

/-- Nothing changes for the entries of an object literal. -/
theorem evalPropertiesBy_idle (path : Path) (i : Nat) :
    ∀ ps : List (Node × Node), evalPropertiesBy (.idle env) path i ps = evalProperties env ps
  | [] => by rw [evalPropertiesBy, evalProperties]
  | (a, b) :: ps => by
    rw [evalPropertiesBy, evalProperties, Observer.placed_around, Observer.placed_around,
      evalBy_idle _ a, evalBy_idle _ b, evalPropertiesBy_idle path _ ps]

/-- Nothing changes for the expressions of a template. -/
theorem evalTemplateBy_idle (path : Path) (i : Nat) :
    ∀ (quasis : List String) (as : List Node),
      evalTemplateBy (.idle env) path i quasis as = evalTemplate env quasis as
  | _, [] => by rw [evalTemplateBy, evalTemplate]
  | [], _ :: _ => by rw [evalTemplateBy, evalTemplate]
  | _ :: quasis, a :: as => by
    rw [evalTemplateBy, evalTemplate, Observer.placed_around, evalBy_idle _ a,
      evalTemplateBy_idle path _ quasis as]

/-- Nothing changes for a sequence of statements. -/
theorem evalBodyBy_idle (path : Path) (i : Nat) (last : Value) :
    ∀ as : List Node, evalBodyBy (.idle env) path i last as = evalBody env last as
  | [] => by rw [evalBodyBy, evalBody]
  | a :: as => by
    rw [evalBodyBy, evalBody, Observer.placed_around, evalBy_idle _ a]
    -- The value of the first statement is not known yet, so the rest is compared for every value.
    congr 1
    funext x
    exact evalBodyBy_idle path _ x as

theorem evalBranchBy_idle (path : Path) :
    ∀ b : Option Node, evalBranchBy (.idle env) path b = evalBranch env b
  | none => by rw [evalBranchBy, evalBranch]
  | some a => by rw [evalBranchBy, evalBranch, Observer.placed_around, evalBy_idle path a]

end

end Idle

/-! ## Related evaluations -/

/-- Whether a node makes a text a regular expression. -/
def searches : Node → Bool
  | regexp .. | binary .test .. => true
  | _ => false

/-- Sites may be left out. -/
def SkipsSites (R : {α : Type} → EvalM σ α → EvalM τ α → List EffectSite → Prop) : Prop :=
  ∀ {α : Type} {x : EvalM σ α} {y : EvalM τ α} {ss ts : List EffectSite},
    ss.Sublist ts → R x y ss → R x y ts

/-- A relation of two computations and of the sites at which they have effects.  It is kept when one
computation is put behind another, and it holds of what two evaluations of a node do step by step.
A step is taken only if the tree has a node that asks for it.  Where sites are of no interest, the
relation does not look at them. -/
structure RelatesSteps (o : Observer σ) (o' : Observer τ)
    (R : {α : Type} → EvalM σ α → EvalM τ α → List EffectSite → Prop) (n : Node) : Prop where
  /-- The same value, without an effect. -/
  pure : ∀ {α : Type} (a : α), R (pure a) (pure a) []
  /-- One computation behind another, and its sites behind those of the other. -/
  bind : ∀ {α β : Type} {x : EvalM σ α} {y : EvalM τ α} {k : α → EvalM σ β} {l : α → EvalM τ β}
    {ss ts : List EffectSite},
    R x y ss → (∀ a, R (k a) (l a) ts) → R (x >>= k) (y >>= l) (ss ++ ts)
  /-- What the observers do. -/
  around : ∀ path, ∀ m ∈ n.nodes,
    R (m.evalBy o path) (m.evalBy o' path) (sites path m) →
      R (o.around path m (m.evalBy o path)) (o'.around path m (m.evalBy o' path)) (sites path m)
  /-- Reading a variable, which is no effect. -/
  read : ∀ path name, identifier name ∈ n.nodes →
    R ((o.env path).read name) ((o'.env path).read name) []
  /-- Writing a variable. -/
  write : ∀ path name a, assign (identifier name) a ∈ n.nodes → ∀ x,
    R ((o.env path).write name x) ((o'.env path).write name x) [⟨path, .set⟩]
  /-- Calling a function. -/
  call : ∀ path f args, call f args ∈ n.nodes → ∀ id xs,
    R ((o.env path).call id xs) ((o'.env path).call id xs) [⟨path, .call⟩]
  /-- Evaluating components. -/
  components : ∀ path entries, components entries ∈ n.nodes →
    R ((o.env path).components entries) ((o'.env path).components entries) [⟨path, .components⟩]
  /-- Calling what is not a function.  Behind a failure no site is reached. -/
  notCallable : ∀ f args, Node.call f args ∈ n.nodes → ∀ ss,
    R (throw (.notCallable f) : EvalM σ Value) (throw (.notCallable f)) ss
  /-- Assigning to something other than a variable. -/
  badTarget : ∀ target a, assign target a ∈ n.nodes → target.isIdentifier = false → ∀ ss,
    R (throw (.badTarget target) : EvalM σ Value) (throw (.badTarget target)) ss
  /-- Refusing a regular expression. -/
  badPattern : ∀ m ∈ n.nodes, m.searches = true → ∀ message source,
    R (throw (@EvalError.badPattern message source) : EvalM σ Value)
      (throw (@EvalError.badPattern message source)) []

section Steps

variable {o : Observer σ} {o' : Observer τ}
  {R : {α : Type} → EvalM σ α → EvalM τ α → List EffectSite → Prop} {root : Node}

theorem RelatesSteps.map (h : RelatesSteps o o' R root) {α β : Type} {x : EvalM σ α}
    {y : EvalM τ α} {k : α → EvalM σ β} {l : α → EvalM τ β} {ss : List EffectSite} (hx : R x y ss)
    (hk : ∀ a, R (k a) (l a) []) : R (x >>= k) (y >>= l) ss := by
  have := h.bind hx hk
  rwa [List.append_nil] at this

/-- The result of an operation, if this fails only by refusing a pattern. -/
theorem RelatesSteps.ofExcept (h : RelatesSteps o o' R root) {m : Node} (hm : m ∈ root.nodes)
    {r : Except EvalError Value}
    (hr : ∀ e, r = .error e →
      m.searches = true ∧ ∃ message source, e = @EvalError.badPattern message source) :
    R (MonadExcept.ofExcept r) (MonadExcept.ofExcept r) [] := by
  cases r with
  | ok z => exact h.pure z
  | error e =>
    obtain ⟨hsearch, message, source, rfl⟩ := hr e rfl
    exact h.badPattern m hm hsearch message source

/-- The operations are related: they answer or fail without the environment, and only with a bad
pattern. -/
theorem RelatesSteps.apply (h : RelatesSteps o o' R root) {op : BinaryOp} {a b : Node}
    (hn : binary op a b ∈ root.nodes) (x y : Value) :
    R (MonadExcept.ofExcept (op.apply x y)) (MonadExcept.ofExcept (op.apply x y)) [] := by
  refine h.ofExcept hn fun e he => ?_
  obtain ⟨rfl, message, rfl⟩ := BinaryOp.apply_eq_error he
  exact ⟨rfl, message, y.display, rfl⟩

/-- The literals of regular expressions are related: they are compiled, or the pattern is refused.
-/
theorem RelatesSteps.compile (h : RelatesSteps o o' R root) {source flags : String}
    (hn : regexp source flags ∈ root.nodes) :
    R (compile source flags) (compile source flags) [] := by
  refine h.ofExcept hn fun e he => ⟨rfl, ?_⟩
  cases hp : Pattern.compile source flags with
  | ok p =>
    rw [hp] at he
    cases he
  | error f =>
    rw [hp] at he
    obtain rfl := Except.error.inj he
    obtain ⟨message, rfl⟩ := Pattern.eq_badPattern_of_compile hp
    exact ⟨message, source, rfl⟩

/-- The nodes have related evaluations wherever they stand, observers included. -/
abbrev RelatesParts (o : Observer σ) (o' : Observer τ)
    (R : {α : Type} → EvalM σ α → EvalM τ α → List EffectSite → Prop) (as : List Node) : Prop :=
  ∀ a ∈ as, ∀ path,
    R (o.around path a (a.evalBy o path)) (o'.around path a (a.evalBy o' path)) (sites path a)

/-- Evaluations of lists are related if those of their items are. -/
theorem relates_evalAllBy (h : RelatesSteps o o' R root) (path : Path) {as : List Node}
    (has : RelatesParts o o' R as) (i : Nat) :
    R (evalAllBy o path i as) (evalAllBy o' path i as) (sitesOfAll path i as) := by
  induction as generalizing i with
  | nil =>
    rw [evalAllBy, evalAllBy, sitesOfAll]
    exact h.pure _
  | cons a as ih =>
    obtain ⟨ha, has⟩ := List.forall_mem_cons.mp has
    rw [evalAllBy, evalAllBy, sitesOfAll]
    exact h.bind (ha _) fun x => h.map (ih has (i + 1)) fun xs => h.pure _

/-- Evaluations of entries are related if those of keys and values are. -/
theorem relates_evalPropertiesBy (h : RelatesSteps o o' R root) (path : Path)
    {ps : List (Node × Node)} (hps : RelatesParts o o' R (object ps).children) (i : Nat) :
    R (evalPropertiesBy o path i ps) (evalPropertiesBy o' path i ps) (sitesOfPairs path i ps) := by
  induction ps generalizing i with
  | nil =>
    rw [evalPropertiesBy, evalPropertiesBy, sitesOfPairs]
    exact h.pure _
  | cons p ps ih =>
    -- The children of an object are its keys and values by turns.
    obtain ⟨ha, hps⟩ := List.forall_mem_cons.mp hps
    obtain ⟨hb, hps⟩ := List.forall_mem_cons.mp hps
    rw [evalPropertiesBy, evalPropertiesBy, sitesOfPairs, List.append_assoc]
    exact h.bind (ha _) fun key => h.bind (hb _) fun x =>
      h.map (ih hps (i + 2)) fun entries => h.pure _

/-- Expressions without a piece of text in front of them are not evaluated. -/
theorem relates_evalTemplateBy (h : RelatesSteps o o' R root) (path : Path) {as : List Node}
    (has : RelatesParts o o' R as) {quasis : List String}
    (hskip : as.length ≤ quasis.length ∨ SkipsSites R) (i : Nat) :
    R (evalTemplateBy o path i quasis as) (evalTemplateBy o' path i quasis as)
      (sitesOfAll path i as) := by
  induction as generalizing quasis i with
  | nil =>
    rw [evalTemplateBy, evalTemplateBy, sitesOfAll]
    exact h.pure _
  | cons a as ih =>
    obtain ⟨ha, has⟩ := List.forall_mem_cons.mp has
    cases quasis with
    | nil =>
      -- The pieces of text are used up: either there are too few, or sites may be left out.
      rw [evalTemplateBy, evalTemplateBy]
      rcases hskip with hlen | hskip
      · cases hlen
      · exact hskip (List.nil_sublist _) (h.pure _)
    | cons q quasis =>
      rw [evalTemplateBy, evalTemplateBy, sitesOfAll]
      have hrest := ih has (hskip.imp_left Nat.le_of_succ_le_succ) (i + 1)
      exact h.bind (ha _) fun x => h.map hrest fun rest => h.pure _

/-- Evaluations of sequences of statements are related if those of the statements are. -/
theorem relates_evalBodyBy (h : RelatesSteps o o' R root) (path : Path) {as : List Node}
    (has : RelatesParts o o' R as) (i : Nat) (last : Value) :
    R (evalBodyBy o path i last as) (evalBodyBy o' path i last as) (sitesOfAll path i as) := by
  induction as generalizing i last with
  | nil =>
    rw [evalBodyBy, evalBodyBy, sitesOfAll]
    exact h.pure _
  | cons a as ih =>
    obtain ⟨ha, has⟩ := List.forall_mem_cons.mp has
    rw [evalBodyBy, evalBodyBy, sitesOfAll]
    exact h.bind (ha _) fun x => ih has (i + 1) x

/-- Evaluations of a branch are related if there is none or those of its node are. -/
theorem relates_evalBranchBy (h : RelatesSteps o o' R root) (path : Path) {b : Option Node}
    (hb : RelatesParts o o' R b.toList) :
    R (evalBranchBy o path b) (evalBranchBy o' path b) (sitesOfBranch path b) := by
  cases b with
  | none =>
    rw [evalBranchBy, evalBranchBy, sitesOfBranch]
    exact h.pure _
  | some a =>
    rw [evalBranchBy, evalBranchBy, sitesOfBranch]
    exact hb a List.mem_cons_self path

/-- Evaluations with related steps are related: with all sites of the node if each of its nodes has
its children evaluated, or if sites may be left out. -/
theorem relates_evalBy (h : RelatesSteps o o' R root) (n : Node)
    (hn : ∀ m ∈ n.nodes, m ∈ root.nodes)
    (hskip : (∀ m ∈ n.nodes, m.Unconditional) ∨ SkipsSites R) (path : Path) :
    R (n.evalBy o path) (n.evalBy o' path) (sites path n) := by
  -- The induction goes down the tree, while the steps stay those of all nodes of `root`.
  induction n using Node.induction generalizing path with
  | step n ih =>
    have hself : n ∈ root.nodes := hn n n.mem_nodes_self
    have hselfskip : n.Unconditional ∨ SkipsSites R :=
      hskip.imp_left fun h => h n n.mem_nodes_self
    -- What is known of the children already covers what the observers do around them.
    replace ih : RelatesParts o o' R n.children := by
      intro c hc path
      have hsub (m : Node) (hm : m ∈ c.nodes) : m ∈ n.nodes := mem_nodes_of_mem_children hc hm
      refine h.around path c (hn c (hsub c c.mem_nodes_self)) ?_
      exact ih c hc (fun m hm => hn m (hsub m hm))
        (hskip.imp_left fun h m hm => h m (hsub m hm)) path
    cases n with
    | number | string | boolean | null | raw =>
      rw [evalBy, evalBy, sites]
      exact h.pure _
    | regexp source flags =>
      rw [evalBy, evalBy, sites]
      exact h.compile hself
    | identifier name =>
      rw [evalBy, evalBy, sites]
      exact h.read path name hself
    | unary op a =>
      rw [evalBy, evalBy, sites]
      exact h.map (ih a (by simp [children]) _) fun x => h.pure _
    | binary op a b =>
      rw [evalBy, evalBy, sites]
      refine h.bind (ih a (by simp [children]) _) fun x => ?_
      split
      · next hdecided =>
        -- The left operand decides, and the sites of the right one are left out.
        rcases hselfskip with ⟨hop, -⟩ | hskip
        · cases op <;> first | cases hdecided | cases hop
        · exact hskip (List.nil_sublist _) (h.pure x)
      · exact h.map (ih b (by simp [children]) _) fun y => h.apply hself x y
    | assign target a =>
      cases target with
      | identifier name =>
        rw [evalBy, evalBy, sites]
        exact h.bind (ih a (by simp [children]) _) fun x => h.write path name a hself x
      | _ =>
        rw [evalBy, evalBy]
        · exact h.badTarget _ a hself rfl _
        all_goals simp
    | call f args =>
      rw [evalBy, evalBy, sites, List.append_assoc]
      refine h.bind (ih f (by simp [children]) _) fun x => ?_
      -- The arguments are only evaluated where a function has been called.
      have hargs := relates_evalAllBy h path (fun a ha => ih a (List.mem_cons_of_mem f ha)) 1
      cases x with
      | function id => exact h.bind hargs fun xs => h.call path f args hself id xs
      | _ => exact h.notCallable f args hself _
    | member a b =>
      rw [evalBy, evalBy, sites]
      exact h.bind (ih a (by simp [children]) _) fun x =>
        h.map (ih b (by simp [children]) _) fun y => h.pure _
    | object ps =>
      rw [evalBy, evalBy, sites]
      exact h.map (relates_evalPropertiesBy h path ih 0) fun entries => h.pure _
    | array as =>
      rw [evalBy, evalBy, sites]
      exact h.map (relates_evalAllBy h path ih 0) fun xs => h.pure _
    | template quasis as =>
      rw [evalBy, evalBy, sites]
      have hlen := hselfskip.imp_left fun h => h.2 quasis as rfl
      exact h.map (relates_evalTemplateBy h path ih hlen 0) fun s => h.pure _
    | program as | block as =>
      rw [evalBy, evalBy, sites]
      exact relates_evalBodyBy h path ih 0 .null
    | conditional a b c =>
      rw [evalBy, evalBy, sites, List.append_assoc]
      -- One of the branches is left out, so sites may be.
      obtain ⟨hno, -⟩ | hskip := hselfskip
      · cases hno
      refine h.bind (ih a (by simp [children]) _) fun x => ?_
      have hb := relates_evalBranchBy h (path ++ [1]) (b := b) fun y hy =>
        ih y (List.mem_cons_of_mem _ (List.mem_append_left _ hy))
      have hc := relates_evalBranchBy h (path ++ [2]) (b := c) fun y hy =>
        ih y (List.mem_cons_of_mem _ (List.mem_append_right _ hy))
      split
      · exact hskip (List.sublist_append_left _ _) hb
      · exact hskip (List.sublist_append_right _ _) hc
    | components entries =>
      rw [evalBy, evalBy, sites]
      exact h.components path entries hself

end Steps

section Unsited

variable {R : {α : Type} → EvalM σ α → EvalM τ α → Prop} {n : Node}

/-- A relation that does not look at sites holds of the evaluations if it holds of their steps. -/
theorem relates_evalBy_unsited {o : Observer σ} {o' : Observer τ}
    (h : RelatesSteps o o' (fun x y _ => R x y) n) (path : Path) :
    R (n.evalBy o path) (n.evalBy o' path) :=
  relates_evalBy h n (fun _ hm => hm) (.inr fun _ hxy => hxy) path

/-- Evaluations in two environments in which the steps are related are related. -/
theorem relates_eval {env : Environment σ} {env' : Environment τ}
    (h : RelatesSteps (.idle env) (.idle env') (fun x y _ => R x y) n) :
    R (n.eval env) (n.eval env') := by
  have := relates_evalBy_unsited h []
  rwa [evalBy_idle, evalBy_idle] at this

end Unsited

/-! ## Where evaluations lead -/

/-- An evaluation leads where its steps lead.  Values and failures leave the state alone; what is
left to show is where the environment and the observer lead. -/
theorem relatesSteps_leads {o : Observer σ} {T : σ → σ → Prop} {n : Node} (hrefl : ∀ s, T s s)
    (htrans : ∀ {s t u}, T s t → T t u → T s u)
    (haround : ∀ path, ∀ m ∈ n.nodes, Leads T (m.evalBy o path) →
      Leads T (o.around path m (m.evalBy o path)))
    (hread : ∀ path name, Leads T ((o.env path).read name))
    (hwrite : ∀ path name a, assign (identifier name) a ∈ n.nodes → ∀ x,
      Leads T ((o.env path).write name x))
    (hcall : ∀ path id xs, Leads T ((o.env path).call id xs))
    (hcomponents : ∀ path entries, components entries ∈ n.nodes →
      Leads T ((o.env path).components entries)) :
    RelatesSteps o o (fun x _ _ => Leads T x) n where
  pure _ := hrefl
  bind := Leads.bind (T := T) htrans
  around := haround
  read path name _ := hread path name
  write := hwrite
  call path _ _ _ := hcall path
  components := hcomponents
  notCallable _ _ _ _ := hrefl
  badTarget _ _ _ _ _ := hrefl
  badPattern _ _ _ _ _ := hrefl

end Node

end Brace
