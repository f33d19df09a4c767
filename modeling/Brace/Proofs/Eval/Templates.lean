/-
# Templates one behind the other

A template is evaluated from left to right, and its text is put together from what the pieces and
the expressions leave.  So where a template is cut in two inside a piece of text, its text is that
of the first part and that of the second one, which is evaluated in the state that the first one
leaves (`Node.evalTemplate_append`).  The bodies of templates are put together in the same way.
Main statement: `run_parseTemplate_append`.
-/
import Brace.Proofs.Eval.Sequence
import Brace.Proofs.Parser.Bodies
import Brace.Regex.Builtin

namespace Brace

namespace Node

open EvalM

variable [Regex.Engine] {σ : Type} (env : Environment σ)

/-! ## Pieces of text -/

/-- A piece of text in front of a template stands in front of its text. -/
theorem evalTemplate_piece_append (q r : String) (rs : List String) (as : List Node) :
    evalTemplate env ((q ++ r) :: rs) as = (do
      let t ← evalTemplate env (r :: rs) as
      pure (q ++ t)) := by
  cases as with
  | nil => simp only [evalTemplate, String.join_cons, pure_bind, String.append_assoc]
  | cons a as => simp only [evalTemplate, bind_assoc, pure_bind, String.append_assoc]

/-- A template that is cut inside a piece of text is evaluated by evaluating one part after the
other. -/
theorem evalTemplate_append {qs : List String} {as : List Node} (hlen : qs.length = as.length)
    (q r : String) (rs : List String) (bs : List Node) :
    evalTemplate env (qs ++ (q ++ r) :: rs) (as ++ bs) = (do
      let s ← evalTemplate env (qs ++ [q]) as
      let t ← evalTemplate env (r :: rs) bs
      pure (s ++ t)) := by
  induction as generalizing qs with
  | nil =>
    obtain rfl := List.eq_nil_of_length_eq_zero hlen
    rw [List.nil_append, List.nil_append, evalTemplate_piece_append]
    simp [evalTemplate]
  | cons a as ih =>
    obtain ⟨p, qs, rfl⟩ := List.exists_cons_of_length_eq_add_one hlen
    simp only [List.cons_append, evalTemplate, ih (Nat.succ.inj hlen), bind_assoc, pure_bind,
      String.append_assoc]

/-! ## Runs -/

/-- The value of a template is its text. -/
theorem run_template (quasis : List String) (as : List Node) (s : σ) :
    (template quasis as).run env s =
      match (evalTemplate env quasis as).run.run s with
      | (.error e, t) => (.error e, t)
      | (.ok x, t) => (.ok (.string x), t) := by
  rw [run, eval, run_bind]
  obtain ⟨x, t⟩ := (evalTemplate env quasis as).run.run s
  cases x with
  | error e => rfl
  | ok x => rfl

/-- A template that is cut inside a piece of text is run by running one part and then, if this
succeeds, the other one in the state that is left. -/
theorem run_template_append {qs : List String} {as : List Node} (hlen : qs.length = as.length)
    (q r : String) (rs : List String) (bs : List Node) (s : σ) :
    (template (qs ++ (q ++ r) :: rs) (as ++ bs)).run env s =
      match (template (qs ++ [q]) as).run env s with
      | (.error e, t) => (.error e, t)
      | (.ok x, t) =>
        match (template (r :: rs) bs).run env t with
        | (.error e, u) => (.error e, u)
        | (.ok y, u) => (.ok (.string (x.interpolated ++ y.interpolated)), u) := by
  simp only [run_template, evalTemplate_append env hlen, run_bind]
  obtain ⟨x, t⟩ := (evalTemplate env (qs ++ [q]) as).run.run s
  cases x with
  | error e => rfl
  | ok x =>
    dsimp only
    obtain ⟨y, u⟩ := (evalTemplate env (r :: rs) bs).run.run t
    cases y with
    | error e => rfl
    | ok y => rfl

end Node

section

variable [Regex.Engine]

/-- Two texts without back-quotes that are parsed as bodies of templates are parsed one behind the
other.  The answer has the expressions of both, and the pieces of text of both, of which the last
one of the first text and the first one of the second text are joined.  If evaluating the first
template and then the second one gives two texts, evaluating the answer gives both of them, one
behind the other, and leaves the same state. -/
theorem run_parseTemplate_append {text text' : String} {m n : Node} (htext : '\x60' ∉ text.toList)
    (htext' : '\x60' ∉ text'.toList) (hm : parseTemplate text = .ok m)
    (hn : parseTemplate text' = .ok n) :
    ∃ qs q r rs as bs, m = .template (qs ++ [q]) as ∧ n = .template (r :: rs) bs ∧
      parseTemplate (text ++ text') = .ok (.template (qs ++ (q ++ r) :: rs) (as ++ bs)) ∧
      ∀ {σ : Type} (env : Environment σ) (s t u : σ) (x y : String),
        m.run env s = (.ok (.string x), t) → n.run env t = (.ok (.string y), u) →
          (Node.template (qs ++ (q ++ r) :: rs) (as ++ bs)).run env s =
            (.ok (.string (x ++ y)), u) := by
  obtain ⟨ps, as, rfl, hbody⟩ := (parseTemplate_eq_ok_iff htext).mp hm
  obtain ⟨ps', bs, rfl, hbody'⟩ := (parseTemplate_eq_ok_iff htext').mp hn
  -- The texts have a piece more than expressions, so the last and the first piece are there to be
  -- joined.
  obtain ⟨r, rs, rfl⟩ := List.exists_cons_of_length_eq_add_one hbody'.length_eq
  obtain ⟨qs, q, rfl, happend⟩ := hbody.append hbody'
  have hlen : qs.length = as.length := by simpa using hbody.length_eq
  have hboth : '\x60' ∉ (text ++ text').toList := by
    rw [String.toList_append, List.mem_append, not_or]
    exact ⟨htext, htext'⟩
  refine ⟨qs, q, r, rs, as, bs, rfl, rfl, (parseTemplate_eq_ok_iff hboth).mpr ?_, ?_⟩
  · rw [String.toList_append]
    exact ⟨_, _, rfl, happend⟩
  · intro σ env s t u x y hx hy
    rw [Node.run_template_append env hlen, hx]
    dsimp only
    rw [hy]
    rfl

end

/-- What the first text assigns is read by the second one. -/
theorem run_parseTemplate_append_assignment :
    let m := Node.template ["a", ""] [.assign (.identifier "x") .null]
    let n := Node.template ["", "b"] [.identifier "x"]
    let joined := Node.template ["a", "", "b"] [.assign (.identifier "x") .null, .identifier "x"]
    parseTemplate "a\x7b(x = null)\x7d" = .ok m ∧ parseTemplate "\x7bx\x7db" = .ok n ∧
      parseTemplate "a\x7b(x = null)\x7d\x7bx\x7db" = .ok joined ∧
      ∀ {σ : Type} (env : Environment σ) (s : σ),
        let (x, t) := env.set "x" .null s
        let (y, u) := env.load "x" t
        joined.run env s =
          (.ok (.string ("a" ++ x.interpolated ++ (y.interpolated ++ "b"))), u) := by
  intro m n joined
  have hname : IsName "x" := ⟨⟨'x', [], rfl, by decide, List.forall_mem_nil _⟩, by decide⟩
  have hregular : Regular .parsed .expression (.identifier "x") := .identifier hname
  have hquasis : ∀ q ∈ ["a", "", "b"], IsQuasi q.toList := by
    intro q hq
    rw [isQuasi_iff]
    revert q
    decide
  have hm : parse m.source = .ok m := by
    refine parse_source (.expression nofun (.template rfl ?_ fun a ha => ?_))
    · exact fun q hq => hquasis q (List.mem_append_left ["b"] hq)
    · rw [List.mem_singleton.mp ha]
      exact .expression nofun (.assign rfl hregular .null)
  have hn : parse n.source = .ok n := by
    refine parse_source (.expression nofun (.template rfl ?_ fun a ha => ?_))
    · exact fun q hq => hquasis q (List.mem_cons_of_mem _ hq)
    · rw [List.mem_singleton.mp ha]
      exact .expression nofun hregular
  -- Between back quotes stands the body that is to be parsed.
  rw [show m.source = "`" ++ "a\x7b(x = null)\x7d" ++ "`" by decide] at hm
  rw [show n.source = "`" ++ "\x7bx\x7db" ++ "`" by decide] at hn
  obtain ⟨qs, q, r, rs, as, bs, hm', hn', hparse, hrun⟩ :=
    run_parseTemplate_append (by decide) (by decide) hm hn
  obtain ⟨hqs, rfl⟩ := Node.template.inj hm'
  obtain ⟨hrs, rfl⟩ := Node.template.inj hn'
  obtain ⟨rfl, hq⟩ := List.append_inj' (show ["a"] ++ [""] = qs ++ [q] from hqs) rfl
  cases hq
  cases hrs
  refine ⟨hm, hn, hparse, fun env s => ?_⟩
  -- The value that is assigned in the first part is read in the second one.
  have hfirst : m.run env s = (.ok (.string ("a" ++ (env.set "x" .null s).1.interpolated ++ "")),
    (env.set "x" .null s).2) := rfl
  have hsecond (t) : n.run env t =
      (.ok (.string ("" ++ (env.load "x" t).1.interpolated ++ "b")), (env.load "x" t).2) := rfl
  have h := hrun env _ _ _ _ _ hfirst (hsecond _)
  simpa using h

end Brace
