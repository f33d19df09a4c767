/-
# Stored trees are read back

A number that is not finite is written as `null`, and no number is read from `null`: the JSON form
of a tree is read back exactly if every number of the tree is finite (`Node.ofJson?_toJson_eq`).
The numbers of a parsed tree are the literals of its source, so what the check of a source answers
is read back exactly if no literal is too large for a double (`Node.stored_iff_finite`).
-/
import Brace.Command.Check
import Brace.Proofs.Node.Literals
import Brace.Proofs.Node.Readable
import Brace.Proofs.Node.Reading
import Brace.Proofs.Parser.Calls
import Brace.Regex.Builtin
import Mathlib.Logic.Basic

namespace Brace

namespace Node

/-! ## Reading what was written -/

/-- Every number of a tree is finite. -/
def AllFinite (n : Node) : Prop := ∀ x, number x ∈ n.nodes → Number.isFinite x = true

/-- The entries of the components of a tree are maps without the name that is kept for the kind. -/
def KeepsKind (n : Node) : Prop :=
  ∀ entries, components entries ∈ n.nodes →
    Fields.Ascending entries ∧ Fields.lookup? "type" entries = none

/-- The numbers of a tree are finite if that of its root is and those of its children are. -/
theorem allFinite_iff {n : Node} :
    n.AllFinite ↔
      (∀ x, n = number x → Number.isFinite x = true) ∧ ∀ c ∈ n.children, c.AllFinite := by
  constructor
  · intro h
    exact ⟨fun x hx => h x (hx ▸ mem_nodes_self n),
      fun c hc x hx => h x (mem_nodes_of_mem_children hc hx)⟩
  · rintro ⟨hself, hchildren⟩ x hx
    rcases mem_nodes_iff.mp hx with hx | ⟨c, hc, hx⟩
    · exact hself x hx.symm
    · exact hchildren c hc x hx

/-- What a tree says of all its nodes it says of the nodes of a child. -/
theorem KeepsKind.of_mem_children {n c : Node} (h : n.KeepsKind) (hc : c ∈ n.children) :
    c.KeepsKind := fun entries he => h entries (mem_nodes_of_mem_children hc he)

theorem listToJson_eq (as : List Node) : listToJson as = as.map toJson := by
  induction as with
  | nil => rw [listToJson]; rfl
  | cons a as ih => rw [listToJson, ih]; rfl

/-- The JSON form of an entry of an object literal. -/
def pairJson (p : Node × Node) : Json :=
  Json.ofMembers [("key", p.1.toJson), ("value", p.2.toJson)]

theorem pairsToJson_eq (ps : List (Node × Node)) : pairsToJson ps = ps.map pairJson := by
  induction ps with
  | nil => rw [pairsToJson]; rfl
  | cons p ps ih => rw [pairsToJson, ih]; rfl

/-- A list is read back if all of its items are. -/
theorem mapM_map_eq_ite {α β : Type} {read : β → Option α} {write : α → β} {P : α → Prop}
    [DecidablePred P] {as : List α} (h : ∀ a ∈ as, read (write a) = if P a then some a else none) :
    (as.map write).mapM read = if ∀ a ∈ as, P a then some as else none := by
  induction as with
  | nil => simp
  | cons a as ih =>
    rw [List.forall_mem_cons] at h
    rw [List.map_cons, List.mapM_cons, h.1, ih h.2]
    by_cases ha : P a
    · by_cases has : ∀ b ∈ as, P b
      · rw [if_pos ha, if_pos has, if_pos (List.forall_mem_cons.mpr ⟨ha, has⟩)]
        rfl
      · rw [if_pos ha, if_neg has, if_neg fun h => has (List.forall_mem_cons.mp h).2]
        rfl
    · rw [if_neg ha, if_neg fun h => ha (List.forall_mem_cons.mp h).1]
      rfl

open Classical in
/-- An entry is read back just if its key and its value are finite. -/
theorem entryOfJson?_pairJson {p : Node × Node}
    (h : ∀ c ∈ [p.1, p.2], ofJson? true c.toJson = if c.AllFinite then some c else none) :
    entryOfJson? (pairJson p) =
      if ∀ c ∈ [p.1, p.2], c.AllFinite then some p else none := by
  rw [List.forall_mem_cons, List.forall_mem_singleton] at h
  have hkey : Fields.lookup? "key"
      (Fields.ofList [("key", p.1.toJson), ("value", p.2.toJson)]) = some p.1.toJson := by
    simp [Fields.lookup?]
  have hvalue : Fields.lookup? "value"
      (Fields.ofList [("key", p.1.toJson), ("value", p.2.toJson)]) = some p.2.toJson := by
    simp [Fields.lookup?]
  rw [entryOfJson?_eq, pairJson, Json.ofMembers, record?]
  by_cases ha : p.1.AllFinite <;> by_cases hb : p.2.AllFinite <;> simp [*]

/-- To go on under a condition is to go on where it holds. -/
theorem ite_bind {α β : Type} (P : Prop) [Decidable P] (a : α) (f : α → Option β) :
    (if P then some a else none).bind f = if P then f a else none := by
  split <;> rfl

open Classical in
/-- A list is read back just if its nodes are finite. -/
theorem listOfJson?_listToJson (as : List Node)
    (h : ∀ a ∈ as, ofJson? true a.toJson = if a.AllFinite then some a else none) :
    listOfJson? (.array (listToJson as)) = if ∀ a ∈ as, a.AllFinite then some as else none := by
  rw [listOfJson?, itemsOfJson?_eq, listToJson_eq]
  exact mapM_map_eq_ite h

open Classical in
/-- Entries are read back just if their keys and values are finite. -/
theorem pairsOfJson?_pairsToJson (ps : List (Node × Node))
    (h : ∀ p ∈ ps, ∀ c ∈ [p.1, p.2],
      ofJson? true c.toJson = if c.AllFinite then some c else none) :
    pairsOfJson? (.array (pairsToJson ps)) =
      if ∀ p ∈ ps, ∀ c ∈ [p.1, p.2], c.AllFinite then some ps else none := by
  rw [pairsOfJson?, entriesOfJson?_eq, pairsToJson_eq]
  refine mapM_map_eq_ite (P := fun p : Node × Node => ∀ c ∈ [p.1, p.2], c.AllFinite) ?_
  exact fun p hp => entryOfJson?_pairJson (h p hp)

theorem readQuasi?_quasiJson (q : String) : readQuasi? (quasiJson q) = some q := by
  simp [readQuasi?, quasiJson, tagged, Json.ofMembers, record?, Fields.lookup?, readString?]

theorem readQuasis?_map (quasis : List String) :
    readQuasis? (.array (quasis.map quasiJson)) = some quasis := by
  have h : ∀ q ∈ quasis, readQuasi? (quasiJson q) = if True then some q else none :=
    fun q _ => by rw [readQuasi?_quasiJson, if_pos trivial]
  exact (mapM_map_eq_ite h).trans (if_pos fun _ _ => trivial)

/-- No node is written as `null`, so that a branch is not lost. -/
theorem toJson_ne_null (n : Node) : n.toJson ≠ .null := by
  cases n <;> exact nofun

/-- A branch that is there is read back as a node is. -/
theorem branchOfJson?_toJson (n : Node) :
    branchOfJson? n.toJson = (ofJson? true n.toJson).map some := by
  rw [branchOfJson?]
  · rfl
  · exact fun h => toJson_ne_null n h

open Classical in
/-- A branch is read back just if it is finite or missing. -/
theorem branchOfJson?_map {b : Option Node}
    (h : ∀ a ∈ b.toList, ofJson? true a.toJson = if a.AllFinite then some a else none) :
    (b.map toJson).elim (some none) branchOfJson? =
      if ∀ a ∈ b.toList, a.AllFinite then some b else none := by
  cases b with
  | none => exact (if_pos nofun).symm
  | some a =>
    have ha := h a (Option.mem_toList.mpr rfl)
    rw [Option.map_some, Option.elim_some, branchOfJson?_toJson, ha]
    by_cases hfinite : a.AllFinite <;> simp [hfinite]

/-- What is found among the members of a conditional. -/
theorem lookup?_conditional (a : Node) (b c : Option Node) :
    let parts := ("test", a.toJson) :: (branchToJson "consequent" b ++ branchToJson "alternate" c)
    let members := Fields.ofList (("type", .string "IfStatement") :: parts)
    Fields.lookup? "type" parts.reverse = none ∧
      Fields.lookup? "test" members = some a.toJson ∧
      Fields.lookup? "consequent" members = b.map toJson ∧
      Fields.lookup? "alternate" members = c.map toJson := by
  cases b <;> cases c <;> simp [branchToJson, Fields.lookup?]

/-- The entries of the components of a tree are kept beside the kind. -/
theorem erase_ofList_type {entries : List (String × Json)} (j : Json)
    (h : Fields.Ascending entries) (htype : Fields.lookup? "type" entries = none) :
    Fields.erase "type" (Fields.ofList (("type", j) :: entries)) = entries := by
  refine ((Fields.ascending_ofList _).erase _).ext h fun name => ?_
  rw [Fields.lookup?_erase, Fields.lookup?_ofList, List.reverse_cons, Fields.lookup?_append,
    h.lookup?_reverse]
  split
  · next hname => rw [hname, htype]
  · next hname => simp [Fields.lookup?, Ne.symm hname]

open Classical in
/-- The JSON form of a tree is read back if every number of the tree is finite, and refused if one
is not. -/
theorem ofJson?_toJson_eq (nested : Bool) (n : Node) (h : n.KeepsKind) :
    ofJson? nested n.toJson = if n.AllFinite then some n else none := by
  -- Both sides are compared part by part; a node is read back if its own number and all parts are.
  induction n using Node.induction generalizing nested with
  | step n ih =>
    replace ih : ∀ c ∈ n.children,
        ofJson? true c.toJson = if c.AllFinite then some c else none :=
      fun c hc => ih c hc true (h.of_mem_children hc)
    simp only [n.allFinite_iff]
    cases n with
    | number x =>
      rw [toJson, ofJson?_tagged rfl, numberJson]
      -- A number that is not finite is written as `null`, and this is not read as a number.
      by_cases hx : Number.isFinite x = true
      all_goals simp [assemble?, Fields.lookup?, readNumber?, children, hx]
    | string | boolean | null | raw | regexp | identifier =>
      rw [toJson, ofJson?_tagged rfl]
      simp [assemble?, Fields.lookup?, readString?, readBool?, children]
    | unary op a =>
      have ha := ih a List.mem_cons_self
      rw [toJson, ofJson?_tagged rfl]
      simp [assemble?, Fields.lookup?, readSpelling?, UnaryOp.ofSpelling?_spelling, children, ha,
        ite_bind]
    | binary op a b =>
      have ha := ih a List.mem_cons_self
      have hb := ih b (List.mem_cons_of_mem _ List.mem_cons_self)
      rw [toJson, ofJson?_tagged rfl]
      simp [assemble?, Fields.lookup?, readSpelling?, BinaryOp.ofSpelling?_spelling, children, ha,
        hb, ite_bind, ite_and]
    | assign a b | member a b =>
      have ha := ih a List.mem_cons_self
      have hb := ih b (List.mem_cons_of_mem _ List.mem_cons_self)
      rw [toJson, ofJson?_tagged rfl]
      simp [assemble?, Fields.lookup?, children, ha, hb, ite_bind, ite_and]
    | call f as =>
      have hf := ih f List.mem_cons_self
      have has := listOfJson?_listToJson as fun a ha => ih a (List.mem_cons_of_mem f ha)
      rw [toJson, ofJson?_tagged rfl]
      simp [assemble?, Fields.lookup?, children, hf, has, ite_bind, ite_and]
    | array as | program as | block as =>
      have has := listOfJson?_listToJson as ih
      rw [toJson, ofJson?_tagged rfl]
      simp [assemble?, Fields.lookup?, children, has, ite_bind]
    | template quasis as =>
      have has := listOfJson?_listToJson as ih
      rw [toJson, ofJson?_tagged rfl]
      simp [assemble?, Fields.lookup?, readQuasis?_map, children, has, ite_bind]
    | object ps =>
      have hps := pairsOfJson?_pairsToJson ps fun p hp c hc =>
        ih c (List.mem_flatMap.mpr ⟨p, hp, hc⟩)
      rw [toJson, ofJson?_tagged rfl]
      simp only [children, List.forall_mem_flatMap]
      simp [assemble?, Fields.lookup?, hps, ite_bind]
    | components entries =>
      -- The kind is written beside the entries, and taken from them again.
      obtain ⟨hasc, htype⟩ := h entries (mem_nodes_self _)
      rw [toJson, ofJson?_tagged (by rwa [hasc.lookup?_reverse])]
      simp [assemble?, erase_ofList_type _ hasc htype, children]
    | conditional a b c =>
      have ha := ih a List.mem_cons_self
      have hb := branchOfJson?_map (b := b) fun x hx =>
        ih x (List.mem_cons_of_mem _ (List.mem_append_left _ hx))
      have hc := branchOfJson?_map (b := c) fun x hx =>
        ih x (List.mem_cons_of_mem _ (List.mem_append_right _ hx))
      obtain ⟨htype, htest, hconsequent, halternate⟩ := lookup?_conditional a b c
      rw [toJson, ofJson?_tagged htype]
      simp only [children, List.forall_mem_cons, List.forall_mem_append]
      simp only [assemble?, Parts.node_ofMembers, Parts.branch_ofMembers, htest, hconsequent,
        halternate, hb, hc]
      simp [ha, ite_bind, ite_and]

/-! ## Trees of a source -/

/-- A tree is finite if the numbers in it are. -/
theorem allFinite_iff_numbers {n : Node} :
    n.AllFinite ↔ ∀ x ∈ n.numbers, Number.isFinite x = true :=
  forall_congr' fun _ => imp_congr_left mem_numbers_iff.symm

end Node

/-- A literal is finite unless it is too large for a double. -/
theorem Number.isFinite_iff_of_parsed {x : Float} (h : Limits.parsed.number x) :
    isFinite x = true ↔ parts x ≠ .infinite false := by
  rcases parts_of_signClear h.2 with hx | hx | ⟨m, e, hx⟩
  · exact absurd hx h.1
  · simp [isFinite, hx]
  · simp [isFinite, hx]

namespace Regular

variable {limits : Limits} {place : Place} {n : Node}

/-- A number of a regular tree is within the limits. -/
theorem number_within (h : Regular limits place n) {x : Float} (hn : n = .number x) :
    limits.number x := by
  induction h with
  | number hx =>
    cases hn
    exact hx
  | expression _ _ ih => exact ih hn
  | _ => cases hn

/-- A regular tree has no components. -/
theorem ne_components (h : Regular limits place n) (entries : List (String × Json)) :
    n ≠ .components entries := by
  induction h with
  | expression _ _ ih => exact ih
  | _ => exact nofun

/-- There are no components in a regular tree. -/
theorem keepsKind (h : Regular limits place n) : n.KeepsKind := fun entries he => by
  obtain ⟨_, hregular⟩ := h.of_mem_nodes _ he
  exact absurd rfl (hregular.ne_components entries)

/-- The numbers of a regular tree are within the limits. -/
theorem numbers_within (h : Regular limits place n) : ∀ x ∈ n.numbers, limits.number x := by
  intro x hx
  obtain ⟨_, hregular⟩ := h.of_mem_nodes _ (Node.mem_numbers_iff.mp hx)
  exact hregular.number_within rfl

end Regular

/-- The text that is parsed. -/
def CheckOptions.text (o : CheckOptions) : String :=
  if o.template then "`" ++ o.expression ++ "`" else o.expression

theorem CheckOptions.parse_eq (o : CheckOptions) : o.parse = Brace.parse o.text := by
  unfold CheckOptions.parse CheckOptions.text
  split <;> rfl

/-- A parsed tree has no components, and every number of it is finite unless a literal of the source
is too large for a double. -/
theorem keepsKind_and_allFinite_iff_of_parse {source : String} {n : Node}
    (h : parse source = .ok n) :
    n.KeepsKind ∧
      (n.AllFinite ↔
        ∀ x, Token.number x ∈ tokensOfString source → Number.parts x ≠ .infinite false) := by
  obtain ⟨ts, hyields, hreads⟩ := parse_eq_ok_iff.mp h
  have hregular := hreads.regular hyields
  obtain ⟨-, htokens⟩ := (Lexer.yields_iff _ _).mp hyields
  have hmem (x : Float) : x ∈ n.numbers ↔ Token.number x ∈ tokensOfString source := by
    rw [hreads.numbers, ← htokens, literals, List.mem_filterMap]
    constructor
    · rintro ⟨t, ht, hx⟩
      cases t <;> cases hx
      exact ht
    · exact fun hx => ⟨_, hx, rfl⟩
  refine ⟨hregular.keepsKind, Node.allFinite_iff_numbers.trans (forall_congr' fun x => ?_)⟩
  rw [← hmem]
  exact forall_congr' fun hx => Number.isFinite_iff_of_parsed (hregular.numbers_within x hx)

namespace Node

/-- A tree is read back from its JSON form exactly if all of its numbers are finite, and refused
otherwise; its components must not use the name that is kept for the kind.  The tree that the check
of a source answers is read back as the parsed one exactly if no literal of the source is
infinite. -/
theorem stored_iff_finite [Regex.Engine] :
    (∀ n : Node, n.KeepsKind →
      (ofJson? false n.toJson = some n ↔ n.AllFinite) ∧
        (¬ n.AllFinite → ofJson? false n.toJson = none)) ∧
      ∀ (o : CheckOptions) (n : Node), o.ast = true → o.syntaxOnly = false → o.parse = .ok n →
        ∃ j, o.check = .ok (.tree j) ∧
          (ofJson? false j = some n ↔
            ∀ x, Token.number x ∈ tokensOfString o.text → Number.parts x ≠ .infinite false) := by
  have hread (n : Node) (h : n.KeepsKind) : ofJson? false n.toJson = some n ↔ n.AllFinite := by
    rw [ofJson?_toJson_eq false n h]
    split
    · next hfinite => exact iff_of_true rfl hfinite
    · next hfinite => exact iff_of_false nofun hfinite
  refine ⟨fun n h => ⟨hread n h, fun hfinite => ?_⟩, fun o n hast hsyntax hparse => ?_⟩
  · rw [ofJson?_toJson_eq false n h, if_neg hfinite]
  · obtain ⟨hkeeps, hliterals⟩ := keepsKind_and_allFinite_iff_of_parse (o.parse_eq ▸ hparse)
    refine ⟨n.toJson, ?_, (hread n hkeeps).trans hliterals⟩
    simp [CheckOptions.check, hparse, hsyntax, hast, Except.mapError, bind, Except.bind, pure,
      Except.pure]

/-- Components are read back beside the literal `null`, but not beside an infinite number; the tree
of the source `null` is read back. -/
theorem stored_iff_finite_components :
    let beside (x : Node) := array [components [("a", .int 1)], x]
    let o : CheckOptions := { expression := "null", ast := true }
    ofJson? false (beside null).toJson = some (beside null) ∧
      ofJson? false (beside (number Number.infinity)).toJson = none ∧
      ∃ j, o.check = .ok (.tree j) ∧ ofJson? false j = some null := by
  intro beside o
  obtain ⟨htrees, hchecks⟩ := stored_iff_finite
  -- The members of the components are sorted and none of them has the name of the kind.
  have hkeeps (x : Node) (hx : x.nodes = [x]) (hne : ∀ entries, x ≠ components entries) :
      (beside x).KeepsKind := by
    intro entries he
    simp only [beside, nodes_eq (array _), nodes_eq (components _), children, hx,
      List.flatMap_cons, List.flatMap_nil, List.append_nil, List.mem_cons, List.mem_append,
      List.not_mem_nil, or_false] at he
    rcases he with he | he | he
    · cases he
    · cases he
      exact ⟨List.pairwise_singleton .., rfl⟩
    · exact absurd he.symm (hne entries)
  have hparse : Brace.parse "null" = .ok null := by
    have h := parse_source (n := null) (.expression (by simp) .null)
    rwa [show null.source = "null" by decide] at h
  have hnull : null.AllFinite := fun x hx => by simp [nodes_eq, children] at hx
  refine ⟨(htrees _ (hkeeps null ?_ (by simp))).1.mpr ?_,
    (htrees _ (hkeeps (number Number.infinity) ?_ (by simp))).2 ?_, ?_⟩
  · rw [nodes_eq, children, List.flatMap_nil]
  · intro x hx
    simp [beside, nodes_eq, children] at hx
  · rw [nodes_eq, children, List.flatMap_nil]
  · intro hfinite
    have hnot : Number.isFinite Number.infinity = false := by decide
    have hyes := hfinite Number.infinity (by simp [beside, nodes_eq, children])
    exact Bool.false_ne_true (hnot.symm.trans hyes)
  · obtain ⟨j, hj, hread⟩ := hchecks o null rfl rfl (o.parse_eq.trans hparse)
    exact ⟨j, hj, hread.mpr ((keepsKind_and_allFinite_iff_of_parse hparse).2.mp hnull)⟩

end Node

end Brace
