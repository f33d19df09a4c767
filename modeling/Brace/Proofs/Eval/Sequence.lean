/-
# Programs one after the other

The statements of a program are evaluated in order, and the first failure ends the evaluation.  So a
sequence is evaluated by evaluating its first part and then, if that succeeds, the rest in the state
that is left (`evalBody_append`).  Main statement: `run_parse_append`.
-/
import Brace.Eval.Node
import Brace.Proofs.Eval.Computation
import Brace.Proofs.Node.Readable
import Brace.Proofs.Parser.Sequence
import Brace.Regex.Builtin

namespace Brace

namespace Node

open EvalM

variable [Regex.Engine] {σ : Type} (env : Environment σ)

/-! ## Statements -/

/-- Statements behind statements go on with the value of the statements in front. -/
theorem evalBody_append (last : Value) (as bs : List Node) :
    evalBody env last (as ++ bs) = (do
      let x ← evalBody env last as
      evalBody env x bs) := by
  induction as generalizing last with
  | nil => rw [List.nil_append, evalBody, pure_bind]
  | cons a as ih =>
    rw [List.cons_append, evalBody, evalBody, bind_assoc]
    congr 1
    funext x
    exact ih x

/-- The value in front of statements only counts if there are none. -/
theorem evalBody_eq_ite (last : Value) (as : List Node) :
    evalBody env last as = if as.isEmpty then pure last else evalBody env .null as := by
  cases as with
  | nil =>
    rw [evalBody]
    rfl
  | cons a as =>
    rw [evalBody, evalBody]
    rfl

theorem evalBody_singleton (a : Node) : evalBody env .null [a] = a.eval env := by
  simp only [evalBody, bind_pure]

/-- A node is evaluated like its statements. -/
theorem evalBody_body (n : Node) : evalBody env .null n.body = n.eval env := by
  cases n with
  | program as => rw [eval, body]
  | _ => exact evalBody_singleton env _

/-- A program is evaluated as the sequence of its statements, also where it is only one. -/
theorem eval_ofStatements (as : List Node) :
    (ofStatements .program as).eval env = evalBody env .null as := by
  match as with
  | [a] => exact (evalBody_singleton env a).symm
  | [] | _ :: _ :: _ =>
    show (program _).eval env = _
    rw [eval]

/-- The statements of two nodes are evaluated by evaluating one node after the other. -/
theorem eval_ofStatements_append (m n : Node) :
    (ofStatements .program (m.body ++ n.body)).eval env = (do
      let x ← m.eval env
      let y ← n.eval env
      pure (if n.body.isEmpty then x else y)) := by
  rw [eval_ofStatements, evalBody_append, evalBody_body]
  congr 1
  funext x
  rw [evalBody_eq_ite, evalBody_body]
  -- Without statements the second node succeeds and changes nothing.
  by_cases hn : n.body.isEmpty
  · rw [← evalBody_body, List.isEmpty_iff.mp hn, evalBody]
    rfl
  · simp only [hn]
    exact (bind_pure _).symm

/-! ## Runs -/

/-- Statements behind other ones are run if these succeed, in the state that they leave. -/
theorem run_ofStatements_append (m n : Node) (s : σ) :
    (ofStatements .program (m.body ++ n.body)).run env s =
      match m.run env s with
      | (.error e, t) => (.error e, t)
      | (.ok x, t) =>
        match n.run env t with
        | (.error e, u) => (.error e, u)
        | (.ok y, u) => (.ok (if n.body.isEmpty then x else y), u) := by
  simp only [run, eval_ofStatements_append, run_bind]
  obtain ⟨r, t⟩ := (m.eval env).run.run s
  cases r with
  | error e => rfl
  | ok x =>
    dsimp only
    obtain ⟨r, u⟩ := (n.eval env).run.run t
    cases r with
    | error e => rfl
    | ok y => rfl

end Node

section

variable [Regex.Engine]

/-- Two texts that are parsed are parsed one behind the other, with a new line and a semicolon
between them.  The answer has the statements of both.  It is evaluated by evaluating the first one
and then, if that succeeds, the second one in the state that is left; the value is that of the
second one, unless it has no statements. -/
theorem run_parse_append {source source' : String} {m n : Node} (hm : parse source = .ok m)
    (hn : parse source' = .ok n) :
    parse (source ++ "\n;" ++ source') = .ok (Node.ofStatements .program (m.body ++ n.body)) ∧
      ∀ {σ : Type} (env : Environment σ) (s : σ),
        (Node.ofStatements .program (m.body ++ n.body)).run env s =
          match m.run env s with
          | (.error e, t) => (.error e, t)
          | (.ok x, t) =>
            match n.run env t with
            | (.error e, u) => (.error e, u)
            | (.ok y, u) => (.ok (if n.body.isEmpty then x else y), u) :=
  ⟨parse_append hm hn, fun env s => Node.run_ofStatements_append env m n s⟩

end

/-- What the first text assigns is read by the second one. -/
theorem run_parse_append_assignment :
    let m := Node.assign (.identifier "a") .null
    let n := Node.identifier "a"
    parse "(a = null)" = .ok m ∧ parse "a" = .ok n ∧
      parse "(a = null)\n;a" = .ok (.program [m, n]) ∧
      ∀ {σ : Type} (env : Environment σ) (s : σ), (Node.program [m, n]).run env s =
        (env.load "a" (env.set "a" .null s).2).map .ok id := by
  intro m n
  have hname : IsName "a" := ⟨⟨'a', [], rfl, by decide, List.forall_mem_nil _⟩, by decide⟩
  have hregular : Regular .parsed .expression n := .identifier hname
  have hm : parse m.source = .ok m := parse_source (.expression nofun (.assign rfl hregular .null))
  have hn : parse n.source = .ok n := parse_source (.expression nofun hregular)
  rw [show m.source = "(a = null)" by decide] at hm
  rw [show n.source = "a" by decide] at hn
  obtain ⟨hparse, hrun⟩ := run_parse_append hm hn
  rw [show "(a = null)" ++ "\n;" ++ "a" = "(a = null)\n;a" by decide] at hparse
  refine ⟨hm, hn, hparse, fun env s => (hrun env s).trans ?_⟩
  -- The second text reads the variable in the state that the first one has left.
  have hset : m.run env s = (.ok (env.set "a" .null s).1, (env.set "a" .null s).2) := rfl
  have hget (t) : n.run env t = (env.load "a" t).map .ok id := rfl
  simp only [hset, hget]
  rfl

end Brace
