/-
# Climbing over binding strengths

The text of a chain is read as the ordered tree over the chain.  The invariant of the loop is about
the tree that has been folded so far: it is ordered, and the operator that comes next binds at most
as strongly as every operator in it, so that it may stand above all of them (`Linked.climbs`).
An assignment binds more weakly than every other operator; behind anything but a single variable it
is an error (`Linked.faults`).  Main statement: `parse_chainSource`.
-/
import Brace.Proofs.Chain.Tree
import Brace.Proofs.Node.Roundtrip
import Brace.Proofs.Parser.Faults

namespace Brace

open Brace.Parser

/-! ## The text of a chain -/

/-- The operands and the operators of a chain with blanks between them. -/
def chainSource (a : Node) : List (Operator × Node) → String
  | [] => a.source
  | (o, b) :: chain => a.source ++ " " ++ o.spelling ++ " " ++ chainSource b chain

/-- Whether a node is a sequence of statements, at the top or in braces. -/
def Node.isSequence : Node → Bool
  | .program _ | .block _ => true
  | _ => false

/-- A node survives being written and parsed, and is not a sequence of statements. -/
structure Node.IsOperand (a : Node) : Prop where
  /-- It is printable. -/
  printable : Regular .printable .root a
  /-- It is not a sequence of statements. -/
  single : a.isSequence = false

/-- The parts of a chain: operands, and operators that can stand between two of them. -/
structure IsChain (a : Node) (chain : List (Operator × Node)) : Prop where
  /-- The first operand. -/
  first : a.IsOperand
  /-- The other operands. -/
  operands : ∀ p ∈ chain, p.2.IsOperand
  /-- The operators. -/
  operators : ∀ p ∈ chain, p.1.precedence?.isSome = true

/-- The chain begins with an assignment to a variable, and contains no other assignment. -/
def IsAssignment (a : Node) (chain : List (Operator × Node)) : Prop :=
  ∃ b more, chain = (.assign, b) :: more ∧ a.isIdentifier = true ∧ ∀ p ∈ more, p.1 ≠ .assign

theorem Operator.strength_eq {o : Operator} {k : Nat} (h : o.precedence? = some k) :
    o.strength = k := by
  rw [strength, h]
  rfl

/-- An assignment binds more weakly than all other operators. -/
theorem Operator.strength_pos {o : Operator} (h : o.precedence?.isSome = true) :
    0 < o.strength ∧ (o ≠ .assign → 1 < o.strength) := by
  revert h
  cases o <;> decide

/-! ## The tokens of a chain -/

/-- The tokens behind the first operand: the operators, and behind each one tokens from which its
operand is read. -/
inductive Linked : List (Operator × Node) → List Token → Prop where
  /-- Nothing behind the first operand. -/
  | nil : Linked [] []
  /-- One more operator and its operand. -/
  | cons {o : Operator} {b : Node} {chain : List (Operator × Node)} {us ts : List Token} :
      o.precedence?.isSome = true →
        (∀ vs, front vs ≠ .punct .leftParen → front vs ≠ .punct .leftBracket →
          Reads .operand (us ++ vs) b vs) →
          Linked chain ts → Linked ((o, b) :: chain) (.operator o :: (us ++ ts))

variable {a b : Node} {chain more : List (Operator × Node)} {ts us : List Token} {o : Operator}

/-- An operand is written in some tokens. -/
theorem Node.IsOperand.exists_written (h : a.IsOperand) : ∃ ts, Written a.source.toList ts a := by
  obtain ⟨h, hs⟩ := h
  cases h with
  | program => cases hs
  | expression _ h =>
    have hreadable : a.Readable := rereads_of_regular h.parsed_of_printable
    obtain ⟨ts, hw⟩ := hreadable.exists_written
    rw [reread_of_printable h] at hw
    exact ⟨ts, hw⟩

/-- The text of a chain is handed out as the tokens of its first operand and those of its links. -/
theorem IsChain.exists_linked (h : IsChain a chain) :
    ∃ us ts, Written a.source.toList us a ∧ Linked chain ts ∧
      Spells (chainSource a chain).toList (us ++ ts) := by
  -- The first operand changes with the chain, since the operand behind a link begins what is left.
  induction chain generalizing a with
  | nil =>
    obtain ⟨us, hw⟩ := h.first.exists_written
    refine ⟨us, [], hw, .nil, ?_⟩
    rw [List.append_nil]
    exact hw.spells
  | cons p chain ih =>
    obtain ⟨o, b⟩ := p
    obtain ⟨hb, hoperands⟩ := List.forall_mem_cons.mp h.operands
    obtain ⟨ho, hoperators⟩ := List.forall_mem_cons.mp h.operators
    obtain ⟨us, hw⟩ := h.first.exists_written
    obtain ⟨vs, ts, hv, hlinked, hspells⟩ := ih ⟨hb, hoperands, hoperators⟩
    refine ⟨us, .operator o :: (vs ++ ts), hw, .cons ho hv.reads hlinked, ?_⟩
    -- Each operator has a space on both sides, which keeps it apart from the operands.
    have hchars : (chainSource a ((o, b) :: chain)).toList =
        a.source.toList ++ ' ' :: (o.spelling.toList ++ ' ' :: (chainSource b chain).toList) := by
      simp [chainSource]
    rw [hchars]
    exact hw.spells.between (fun _ _ hm => lexes_operator o hm) hspells (by simp [hv.ne_nil])

namespace Linked

/-- The parser looks at the operator of the first link, or at the end. -/
theorem front_eq (h : Linked chain ts) :
    front ts = ((chain.head?.map fun p => Token.operator p.1).getD .eof) := by
  cases h <;> rfl

/-- Links begin neither with a call nor with an index. -/
theorem front_ne (h : Linked chain ts) (p : Punct) : front ts ≠ .punct p := by
  rw [h.front_eq]
  cases chain <;> nofun

theorem eq_nil (h : Linked [] ts) : ts = [] := by
  cases h
  rfl

theorem isSome (h : Linked chain ts) : ∀ p ∈ chain, p.1.precedence?.isSome = true := by
  induction h with
  | nil => exact List.forall_mem_nil _
  | cons ho _ _ ih => exact List.forall_mem_cons.mpr ⟨ho, ih⟩

/-- Where the next operator binds too weakly, no operator is read. -/
theorem reads_end (h : Linked chain ts) {k : Nat}
    (hhead : ∀ p, chain.head? = some p → p.1.strength ≤ k) (a : Node) :
    Reads (.operators k a) ts a ts := by
  refine .operatorsEnd fun o j hj => ?_
  obtain ⟨hfront, hprec⟩ := binaryOperator?_eq_some_iff.mp hj
  rw [h.front_eq] at hfront
  cases chain with
  | nil => cases hfront
  | cons p chain =>
    obtain rfl : p.1 = o := Token.operator.inj hfront
    rw [← Operator.strength_eq hprec]
    exact hhead p rfl

end Linked

/-! ## The loop -/

/-- Behind a folded tree `t` the operators that bind more strongly than `k` are folded into it, up
to links `left` that begin with an operator that does not. -/
structure Climbs (k : Nat) (t : ChainTree) (chain : List (Operator × Node)) (ts : List Token)
    (u : ChainTree) (taken left : List (Operator × Node)) (us : List Token) : Prop where
  /-- The links are taken from the front. -/
  split : chain = taken ++ left
  /-- The tree has the folded links and those that are taken. -/
  spans : u.Spans t.first (t.links ++ taken)
  /-- Those that are taken bind strongly enough. -/
  lt : ∀ p ∈ taken, k < p.1.strength
  /-- The next one does not. -/
  le : ∀ p, left.head? = some p → p.1.strength ≤ k
  /-- The tokens of the others are left. -/
  linked : Linked left us
  /-- So the operators are read. -/
  reads : Reads (.operators k t.node) ts u.node us

namespace Climbs

variable {k : Nat} {t r u : ChainTree} {taken left taken' left' : List (Operator × Node)}
  {vs ws : List Token}

/-- The loop does not make the chain longer, which is why the recursion over it ends. -/
theorem length_le (h : Climbs k t chain ts u taken left us) : left.length ≤ chain.length := by
  rw [h.split, List.length_append]
  omega

/-- An operator stands above a tree that it binds at most as strongly as, and above the right
operand that has taken what binds more strongly. -/
theorem spans_branch (h : Climbs o.strength (.leaf b) chain ts r taken left us) (ht : t.Ordered)
    (hle : ∀ q ∈ t.links, o.strength ≤ q.1.strength) :
    (ChainTree.branch t o r).Spans t.first (t.links ++ (o, b) :: taken) :=
  have hr : r.Spans b taken := h.spans
  .branch ⟨rfl, rfl, ht⟩ hr hle h.lt

/-- The operator behind the right operand may stand above both operands. -/
theorem le_branch (h : Climbs o.strength (.leaf b) chain ts r taken left us) (ht : t.Ordered)
    (hle : ∀ q ∈ t.links, o.strength ≤ q.1.strength) {p : Operator × Node}
    (hp : left.head? = some p) :
    ∀ q ∈ (ChainTree.branch t o r).links, p.1.strength ≤ q.1.strength := by
  have hpo : p.1.strength ≤ o.strength := h.le p hp
  intro q hq
  rw [(h.spans_branch ht hle).links, List.mem_append, List.mem_cons] at hq
  rcases hq with hq | rfl | hq
  · exact hpo.trans (hle q hq)
  · exact hpo
  · exact hpo.trans (h.lt q hq).le

/-- One operator is folded: its right operand takes what binds more strongly, and the loop goes on
with the operator above both. -/
theorem fold (hprec : o.precedence? = some o.strength) (hlt : k < o.strength) (hne : o ≠ .assign)
    (hb : Reads .operand (us ++ ts) b ts) (ht : t.Ordered)
    (hle : ∀ q ∈ t.links, o.strength ≤ q.1.strength)
    (hr : Climbs o.strength (.leaf b) chain ts r taken left vs)
    (hu : Climbs k (.branch t o r) left vs u taken' left' ws) :
    Climbs k t ((o, b) :: chain) (.operator o :: (us ++ ts)) u ((o, b) :: taken ++ taken') left'
      ws where
  -- The links of the right operand come first, then those that the loop takes afterwards.
  split := by
    rw [hr.split, hu.split]
    simp
  spans := by
    -- The tree that goes on has the operator at its root, so its own links are counted in.
    have htree := hr.spans_branch ht hle
    have hspans := hu.spans
    rw [htree.links, htree.first] at hspans
    simpa using hspans
  lt := by
    intro p hp
    rw [List.cons_append, List.mem_cons, List.mem_append] at hp
    rcases hp with rfl | hp | hp
    · exact hlt
    · exact hlt.trans (hr.lt p hp)
    · exact hu.lt p hp
  le := hu.le
  linked := hu.linked
  reads := .fold hprec hlt (fun he => absurd he hne) hb hr.reads hu.reads

/-- An assignment binds too weakly to be taken. -/
theorem exists_assign (h : Climbs k t chain ts u taken left us) (hk : 0 < k)
    (hassign : ∃ p ∈ chain, p.1 = .assign) : ∃ p ∈ left, p.1 = .assign := by
  obtain ⟨p, hp, he⟩ := hassign
  rw [h.split, List.mem_append] at hp
  refine ⟨p, hp.resolve_left fun ht => ?_, he⟩
  have hlt : k < p.1.strength := h.lt p ht
  have hone : Operator.strength .assign = 1 := rfl
  rw [he] at hlt
  omega

end Climbs

/-- Operators are folded into an ordered tree, as long as the next one may stand above all operators
in it.  An assignment is not read, either because there is none or because it binds too weakly. -/
theorem Linked.climbs (h : Linked chain ts) {k : Nat} {t : ChainTree} (ht : t.Ordered)
    (hhead : ∀ p, chain.head? = some p → ∀ q ∈ t.links, p.1.strength ≤ q.1.strength)
    (hassign : 0 < k ∨ ∀ p ∈ chain, p.1 ≠ .assign) :
    ∃ u taken left us, Climbs k t chain ts u taken left us := by
  -- Both the right operand and what stands behind it have fewer links.
  induction hn : chain.length using Nat.strongRecOn generalizing chain ts k t with
  | ind n ih =>
    -- Either the loop ends here, or the next operator binds more strongly than `k` and is folded.
    by_cases hend : ∀ p, chain.head? = some p → p.1.strength ≤ k
    · refine ⟨t, [], chain, ts, rfl, ?_, List.forall_mem_nil _, hend, h, h.reads_end hend _⟩
      rw [List.append_nil]
      exact ⟨rfl, rfl, ht⟩
    · cases h with
      | nil => exact absurd (fun p hp => nomatch hp) hend
      | @cons o b chain us ts ho hb hlinked =>
        obtain ⟨j, hprec⟩ := Option.isSome_iff_exists.mp ho
        obtain rfl := Operator.strength_eq hprec
        have hlt : k < o.strength := by
          by_contra hle
          refine hend fun p hp => ?_
          obtain rfl : (o, b) = p := Option.some.inj hp
          exact Nat.le_of_not_lt hle
        have hne : o ≠ .assign := by
          rintro rfl
          have hone : Operator.strength .assign = 1 := rfl
          exact hassign.resolve_left (by omega) _ List.mem_cons_self rfl
        have hle : ∀ q ∈ t.links, o.strength ≤ q.1.strength := hhead (o, b) rfl
        rw [List.length_cons] at hn
        -- The right operand takes what binds more strongly than the operator in front of it.
        obtain ⟨r, taken, left, vs, hr⟩ := ih chain.length (by omega) hlinked (k := o.strength)
          (t := .leaf b) trivial (fun _ _ _ hq => nomatch hq) (Or.inl (by omega)) rfl
        have hlen := hr.length_le
        -- The loop goes on with the operator above both operands.
        have hrest : 0 < k ∨ ∀ p ∈ left, p.1 ≠ .assign := by
          refine hassign.imp_right fun hno p hp => hno p (List.mem_cons_of_mem _ ?_)
          rw [hr.split]
          exact List.mem_append_right _ hp
        obtain ⟨u, taken', left', ws, hu⟩ := ih left.length (by omega) hr.linked
          (hr.spans_branch ht hle).ordered (fun _ hp => hr.le_branch ht hle hp) hrest rfl
        have hoperand := hb ts (hlinked.front_ne _) (hlinked.front_ne _)
        exact ⟨u, _, left', ws, hr.fold hprec hlt hne hoperand ht hle hu⟩

/-- Without assignments, all operators are folded, behind a threshold that no other operator is
below. -/
theorem Linked.exists_spans (h : Linked chain ts) (hno : ∀ p ∈ chain, p.1 ≠ .assign) (a : Node)
    {k : Nat} (hk : k ≤ 1) :
    ∃ t : ChainTree, t.Spans a chain ∧ Reads (.operators k a) ts t.node [] := by
  -- The loop is entered with the first operand as the whole tree.
  obtain ⟨u, taken, left, us, hu⟩ := h.climbs (k := k) (t := .leaf a) trivial
    (fun _ _ _ hq => nomatch hq) (Or.inr hno)
  cases left with
  | nil =>
    obtain rfl : us = [] := hu.linked.eq_nil
    have hchain : chain = taken := by simpa using hu.split
    exact ⟨u, hchain ▸ hu.spans, hu.reads⟩
  | cons p left =>
    have hp : p ∈ chain := by simp [hu.split]
    have hle := hu.le p rfl
    have hlt := (Operator.strength_pos (h.isSome p hp)).2 (hno p hp)
    omega

/-! ## Assignments that are errors -/

/-- An operator is not a name, so nothing can be assigned to what it stands above. -/
theorem not_isAssignment_combine (o : Operator) (a b : Node) :
    ¬ IsAssignment (combine o a b) chain := by
  rintro ⟨-, -, -, hi, -⟩
  unfold combine at hi
  split at hi <;> cases hi

/-- Where a chain is no assignment but an assignment occurs in it, one occurs behind its first link,
unless the first link itself is one to no variable. -/
theorem exists_assign_tail (h : ¬ IsAssignment a ((o, b) :: chain))
    (hassign : ∃ p ∈ (o, b) :: chain, p.1 = .assign) (ho : o = .assign → a.isIdentifier = true) :
    ∃ p ∈ chain, p.1 = .assign := by
  obtain ⟨p, hp, he⟩ := hassign
  rcases List.mem_cons.mp hp with rfl | hp
  · by_contra hnone
    refine h ⟨b, chain, ?_, ho he, fun q hq hqe => hnone ⟨q, hq, hqe⟩⟩
    rw [← he]
  · exact ⟨p, hp, he⟩

/-- An assignment behind anything but a single variable is an error, however far ahead it is. -/
theorem Linked.faults (h : Linked chain ts) (hassign : ∃ p ∈ chain, p.1 = .assign)
    (hnot : ¬ IsAssignment a chain) {s : Parser} (hs : s.Clean) (hts : s.tokens = ts) {n : Nat}
    (hn : s.size < n) :
    ∃ target, (operators (full n) 0 a s hn).Faults (.badTarget target) := by
  -- Behind the right operand of the first operator stands a shorter chain.
  induction hlen : chain.length using Nat.strongRecOn generalizing chain ts a s with
  | ind m ih =>
    cases h with
    | nil => simp at hassign
    | @cons o b chain us ts ho hb hlinked =>
      obtain ⟨j, hprec⟩ := Option.isSome_iff_exists.mp ho
      obtain rfl := Operator.strength_eq hprec
      obtain ⟨hpos, -⟩ := Operator.strength_pos ho
      obtain ⟨hc, v, hv, hvclean, hvtokens⟩ := hs.pass hts
      -- The first operator is the faulty one, or the fault is behind its right operand.
      by_cases hbad : o = .assign ∧ a.isIdentifier = false
      · exact ⟨a, faults_operators.mpr
          ⟨o, _, hc, hprec, hpos, Or.inl ⟨hbad.1, hbad.2, rfl⟩⟩⟩
      · have hgood : o = .assign → a.isIdentifier = true := fun he =>
          (Bool.not_eq_false _).mp fun hi => hbad ⟨he, hi⟩
        -- The right operand is read with what it takes, and the loop goes on at `x`.
        obtain ⟨w, hw, hwtokens, hbw⟩ :=
          (hb ts (hlinked.front_ne _) (hlinked.front_ne _)).runs hvclean hvtokens
        obtain ⟨r, taken, left, vs, hr⟩ := hlinked.climbs (k := o.strength) (t := .leaf b) trivial
          (fun _ _ _ hq => nomatch hq) (Or.inl hpos)
        obtain ⟨x, hx, hxtokens, hrx⟩ := hr.reads.runs hw hwtokens
        have hvn : v.size < n := hv.size_lt.trans hn
        have hwn : w.size < n := hbw.lt.trans hvn
        have hxn : x.size < n := by
          have := (hrx n hwn).lt
          omega
        -- The right operand stops in front of an assignment, which is therefore left over.
        have hleft := hr.exists_assign hpos (exists_assign_tail hnot hassign hgood)
        have hshort : left.length < m := by
          rw [← hlen]
          exact Nat.lt_succ_of_le hr.length_le
        obtain ⟨target, hf⟩ := ih left.length hshort hr.linked hleft
          (not_isAssignment_combine o a r.node) hx hxtokens hxn rfl
        exact ⟨target, faults_operators.mpr ⟨o, _, hc, hprec, hpos, Or.inr ⟨hgood, v, hvn, hv,
          Or.inr ⟨b, w, hbw, hwn, Or.inr ⟨r.node, x, hrx n hwn, hxn, hf⟩⟩⟩⟩⟩

/-! ## Texts -/

/-- A text that is a single expression is parsed as this expression. -/
theorem parse_of_expression {source : String} (hspells : Spells source.toList ts)
    (h : Reads .expression ts a []) : parse source = .ok a := by
  have hfront : front ts ≠ .eof := h.front_ne_of_expression.2
  exact parse_of_fills (Or.inr hspells) (.lastStatement hfront h rfl)

/-- A chain without assignments is parsed as the ordered tree over it.  Where there are assignments,
the chain is parsed exactly if it assigns to a variable at the beginning and nowhere else; the value
is the ordered tree over the other links.  If not, the target of an assignment is no variable. -/
theorem parse_chainSource (h : IsChain a chain) :
    ((∀ p ∈ chain, p.1 ≠ .assign) →
        ∃ t : ChainTree, t.Spans a chain ∧ (∀ u : ChainTree, u.Spans a chain → u = t) ∧
          parse (chainSource a chain) = .ok t.node) ∧
      (∀ b more, chain = (.assign, b) :: more → a.isIdentifier = true →
        (∀ p ∈ more, p.1 ≠ .assign) →
          ∃ t : ChainTree, t.Spans b more ∧ (∀ u : ChainTree, u.Spans b more → u = t) ∧
            parse (chainSource a chain) = .ok (.assign a t.node)) ∧
      ((∃ p ∈ chain, p.1 = .assign) → ¬ IsAssignment a chain →
        ∃ target position,
          parse (chainSource a chain) = .error (.malformed (.badTarget target) position)) := by
  obtain ⟨us, ts, hw, hlinked, hspells⟩ := h.exists_linked
  have hoperand : Reads .operand (us ++ ts) a ts :=
    hw.reads ts (hlinked.front_ne _) (hlinked.front_ne _)
  -- No assignment, an assignment to a name, and an assignment that is a fault.
  refine ⟨fun hno => ?_, fun b more hchain hi hno => ?_, fun hassign hnot => ?_⟩
  · obtain ⟨t, ht, hreads⟩ := hlinked.exists_spans hno a (Nat.zero_le 1)
    exact ⟨t, ht, fun u hu => hu.unique ht,
      parse_of_expression hspells (.expression hoperand hreads)⟩
  · subst hchain
    cases hlinked with
    | @cons _ _ _ vs ts ho hb hlinked =>
      obtain ⟨t, ht, hreads⟩ := hlinked.exists_spans hno b (Nat.le_refl 1)
      have hfold : Reads (.operators 0 a) (.operator .assign :: (vs ++ ts)) (.assign a t.node) [] :=
        .fold rfl Nat.one_pos (fun _ => hi) (hb ts (hlinked.front_ne _) (hlinked.front_ne _)) hreads
          (.operatorsEnd nofun)
      exact ⟨t, ht, fun u hu => hu.unique ht,
        parse_of_expression hspells (.expression hoperand hfold)⟩
  -- The first operand is read without a fault, and the fault of the loop becomes that of the text.
  · obtain ⟨s, hs, hclean, htokens⟩ := (Fills.yields (Or.inr hspells)).exists_start
    obtain ⟨v, hv, hvtokens, hav⟩ := hoperand.runs hclean htokens
    obtain ⟨target, hf⟩ := hlinked.faults hassign hnot hv hvtokens hav.lt
    have hexpression : (expression s).Faults (.badTarget target) :=
      faults_expression.mpr (Or.inr ⟨a, v, hav, hav.lt, hf⟩)
    -- A statement is begun here, since the first token opens an operand.
    have hfront : s.current ≠ .punct .semicolon ∧ s.current ≠ .eof := by
      rw [← front_tokens, htokens]
      have ho : (front (us ++ ts)).opensOperand = true := hoperand.opens
      constructor <;> intro he <;> rw [he] at ho <;> cases ho
    exact ⟨target, parse_faults_iff.mpr ⟨s, hs, faults_program_of_expression hfront hexpression⟩⟩

/-- A name is an operand. -/
theorem isOperand_identifier {name : String} (h : IsName name) :
    (Node.identifier name).IsOperand :=
  ⟨.expression nofun (.identifier h), rfl⟩

/-- A product stands below both differences, and of these the later one stands above; two
assignments in one chain are an error. -/
theorem parse_chainSource_differences :
    let a := Node.identifier "a"
    let b := Node.identifier "b"
    let chain := [(Operator.minus, b), (.star, a), (.minus, b)]
    IsChain a chain ∧ chainSource a chain = "a - b * a - b" ∧
      parse "a - b * a - b" =
        .ok (.binary .subtract (.binary .subtract a (.binary .multiply b a)) b) ∧
      ∃ target position,
        parse "a = b = a" = .error (.malformed (.badTarget target) position) := by
  intro a b chain
  have ha : a.IsOperand :=
    isOperand_identifier ⟨⟨'a', [], rfl, by decide, List.forall_mem_nil _⟩, by decide⟩
  have hb : b.IsOperand :=
    isOperand_identifier ⟨⟨'b', [], rfl, by decide, List.forall_mem_nil _⟩, by decide⟩
  have hchain : IsChain a chain := ⟨ha, by simp [chain, ha, hb], by decide⟩
  have hassign : IsChain a [(.assign, b), (.assign, a)] := ⟨ha, by simp [ha, hb], by decide⟩
  have hsource : chainSource a chain = "a - b * a - b" := by decide
  -- The product is under the last difference, and the differences lean to the left.
  let tree : ChainTree :=
    .branch (.branch (.leaf a) .minus (.branch (.leaf b) .star (.leaf a))) .minus (.leaf b)
  have htree : tree.Spans a chain :=
    ⟨rfl, rfl, by simp [tree, ChainTree.Ordered, ChainTree.links, ChainTree.first,
      Operator.strength, Operator.precedence?]⟩
  refine ⟨hchain, hsource, ?_, ?_⟩
  · obtain ⟨t, -, hunique, hparse⟩ := (parse_chainSource hchain).1 (by simp [chain])
    rw [hsource, ← hunique tree htree] at hparse
    exact hparse
  · refine (parse_chainSource hassign).2.2 ⟨_, List.mem_cons_self, rfl⟩ ?_
    rintro ⟨_, more, hmore, -, hno⟩
    obtain ⟨-, rfl⟩ := List.cons.inj hmore
    exact hno _ List.mem_cons_self rfl

end Brace
