/-
# What a source text is read back as

`Node.reread n` is the node that the source text of a regular node `n` is read back as.  It is `n`
itself, except that two things are lost: an infinite number is written as a word, which is a name,
and an empty sequence in a template is written as an empty pair of braces, which leaves nothing.
Hence exactly the printable trees are read back as they are (`reread_eq_self_iff`), and no other one
is read back as an equal tree (`same_reread_iff`).
-/
import Brace.Parser.Grammar
import Brace.Proofs.Number.Bits

namespace Brace

open Brace.Parser (templateParts TemplatePart)

namespace Node

/-! ## Rereading -/

/-- Whether a node is an empty sequence of statements. -/
def isEmpty : Node → Bool
  | block [] => true
  | _ => false

mutual

/-- The node that the source text of a node is read back as. -/
def reread : Node → Node
  | number x => if Number.isFinite x = true then number x else identifier "inf"
  | unary op a => unary op (reread a)
  | binary op a b => binary op (reread a) (reread b)
  | assign a b => assign (reread a) (reread b)
  | call a as => call (reread a) (rereads as)
  | member a b => member (reread a) (reread b)
  | object ps => object (rereadPairs ps)
  | array as => array (rereads as)
  | template quasis as =>
    template (templateParts (rereadParts quasis as)).1 (templateParts (rereadParts quasis as)).2
  | program as => program (rereads as)
  | block as => block (rereads as)
  | conditional a b c => conditional (reread a) (rereadOption b) (rereadOption c)
  | n => n

/-- The nodes that the source texts of nodes are read back as. -/
def rereads : List Node → List Node
  | [] => []
  | a :: as => reread a :: rereads as

/-- The entries that the source texts of entries are read back as. -/
def rereadPairs : List (Node × Node) → List (Node × Node)
  | [] => []
  | (a, b) :: ps => (reread a, reread b) :: rereadPairs ps

/-- The parts that the text of a template is read back as. -/
def rereadParts : List String → List Node → List TemplatePart
  | [], _ => []
  | quasis, [] => quasis.map .text
  | q :: quasis, a :: as =>
    if a.isEmpty then .text q :: rereadParts quasis as
    else .text q :: .expression (reread a) :: rereadParts quasis as

/-- The branch that the source text of a branch is read back as. -/
def rereadOption : Option Node → Option Node
  | none => none
  | some a => some (reread a)

end

theorem rereads_eq_map (as : List Node) : rereads as = as.map reread := by
  induction as with
  | nil => rfl
  | cons a as ih => rw [rereads, ih, List.map_cons]

theorem rereadPairs_eq_map (ps : List (Node × Node)) :
    rereadPairs ps = ps.map fun p => (reread p.1, reread p.2) := by
  induction ps with
  | nil => rfl
  | cons p ps ih => rw [rereadPairs, ih, List.map_cons]

/-- A variable is read back as a variable. -/
theorem isIdentifier_reread {n : Node} (h : n.isIdentifier = true) :
    n.reread.isIdentifier = true := by
  cases n with
  | identifier => rfl
  | _ => cases h

/-- A key is read back as a key; an infinite number becomes a name, which is a key as well. -/
theorem isKey_reread {n : Node} (h : n.isKey = true) : n.reread.isKey = true := by
  cases n with
  | number x =>
    rw [reread]
    split <;> rfl
  | string | identifier => rfl
  | _ => cases h

/-! ## Equal nodes -/

/-- Equal lists of nodes have equal lengths. -/
theorem length_eq_of_sameAll {as bs : List Node} (h : sameAll as bs = true) :
    as.length = bs.length := by
  induction as generalizing bs with
  | nil =>
    cases bs with
    | nil => rfl
    | cons => simp [sameAll] at h
  | cons a as ih =>
    cases bs with
    | nil => simp [sameAll] at h
    | cons b bs =>
      rw [sameAll, Bool.and_eq_true] at h
      exact congrArg (· + 1) (ih h.2)

theorem sameAll_map_iff {f : Node → Node} {as : List Node} :
    sameAll (as.map f) as = true ↔ ∀ a ∈ as, same (f a) a = true := by
  induction as with
  | nil => simp [sameAll]
  | cons a as ih => simp [sameAll, ih]

/-- A list of entries is equal to what is made of keys and values if each of them is. -/
theorem samePairs_map_iff {f : Node → Node} {ps : List (Node × Node)} :
    samePairs (ps.map fun p => (f p.1, f p.2)) ps = true ↔
      ∀ p ∈ ps, same (f p.1) p.1 = true ∧ same (f p.2) p.2 = true := by
  induction ps with
  | nil => simp [samePairs]
  | cons p ps ih =>
    obtain ⟨a, b⟩ := p
    rw [List.map_cons, samePairs, Bool.and_eq_true, Bool.and_eq_true, ih, List.forall_mem_cons]

theorem sameOption_map_iff {f : Node → Node} {b : Option Node} :
    sameOption (b.map f) b = true ↔ ∀ a, b = some a → same (f a) a = true := by
  cases b with
  | none => simp [sameOption]
  | some a => simp [sameOption]

/-- A regular node is equal to itself: none of its numbers is not a number. -/
theorem same_self {place : Place} {n : Node} (h : Regular .parsed place n) : same n n = true := by
  have hall {as : List Node} (h : ∀ a ∈ as, same a a = true) : sameAll as as = true := by
    simpa using sameAll_map_iff (f := id).mpr h
  have hoption {b : Option Node} (h : ∀ a, b = some a → same a a = true) :
      sameOption b b = true := by
    simpa using sameOption_map_iff (f := id).mpr h
  induction h with
  | number hx =>
    rw [same]
    exact Number.beq_self hx.1
  | string | boolean | null | regexp | identifier => simp [same]
  | unary _ ih => simp [same, ih]
  | binary _ _ iha ihb => simp [same, iha, ihb]
  | assign _ _ _ iha ihb => simp [same, iha, ihb]
  | call _ _ iha ihb => simp [same, iha, hall ihb]
  | member _ _ iha ihb => simp [same, iha, ihb]
  | object _ _ _ iha ihb =>
    simpa [same] using samePairs_map_iff (f := id).mpr fun p hp => ⟨iha p hp, ihb p hp⟩
  | array _ ih => simpa [same] using hall ih
  | template _ _ _ ih => simpa [same] using hall ih
  | conditional _ _ _ iha ihb ihc => simp [same, iha, hoption ihb, hoption ihc]
  | block _ ih => simpa [same] using hall ih
  | sequence _ _ ih => simpa [same] using hall ih
  | program _ _ ih => simpa [same] using hall ih
  | expression _ _ ih => exact ih

end Node

open Node

/-! ## What is read back as it is -/

theorem rereadOption_eq_map (b : Option Node) : rereadOption b = b.map reread := by
  cases b <;> rfl

/-- The pieces of a template without empty sequences are kept. -/
theorem templateParts_rereadParts {quasis : List String} {as : List Node}
    (hlen : quasis.length = as.length + 1) (h : ∀ a ∈ as, a.isEmpty = false) :
    templateParts (rereadParts quasis as) = (quasis, rereads as) := by
  induction as generalizing quasis with
  | nil =>
    obtain ⟨q, rfl⟩ := List.length_eq_one_iff.mp hlen
    simp [rereadParts, rereads, templateParts]
  | cons a as ih =>
    obtain _ | ⟨q, quasis⟩ := quasis
    · cases hlen
    rw [List.forall_mem_cons] at h
    rw [rereadParts, if_neg (by simp [h.1]), templateParts, templateParts,
      ih (Nat.succ.inj hlen) h.2]
    simp [rereads]

/-- Where there are only texts there is no expression. -/
theorem templateParts_map_text (quasis : List String) :
    (templateParts (quasis.map .text)).2 = [] := by
  induction quasis with
  | nil => rfl
  | cons q quasis ih => simpa [templateParts] using ih

/-- A template is read back with at most as many expressions as it has. -/
theorem length_templateParts_rereadParts_le (quasis : List String) (as : List Node) :
    (templateParts (rereadParts quasis as)).2.length ≤ as.length := by
  induction as generalizing quasis with
  | nil =>
    cases quasis with
    | nil => exact Nat.le_refl 0
    | cons q quasis =>
      exact Nat.le_of_eq (congrArg List.length (templateParts_map_text (q :: quasis)))
  | cons a as ih =>
    cases quasis with
    | nil => simp [rereadParts, templateParts]
    | cons q quasis =>
      have := ih quasis
      rw [rereadParts]
      split <;> simp [templateParts] <;> omega

/-- If no expression of a template is lost, then none of them is an empty sequence. -/
theorem isEmpty_of_length {quasis : List String} {as : List Node}
    (hlen : quasis.length = as.length + 1)
    (h : (templateParts (rereadParts quasis as)).2.length = as.length) :
    ∀ a ∈ as, a.isEmpty = false := by
  -- Each expression leaves one behind or none, so all of them have to leave one.
  induction as generalizing quasis with
  | nil => simp
  | cons a as ih =>
    obtain _ | ⟨q, quasis⟩ := quasis
    · cases hlen
    have hle := length_templateParts_rereadParts_le quasis as
    rw [rereadParts] at h
    rw [List.forall_mem_cons]
    cases hempty : a.isEmpty with
    | true =>
      -- It would be lost, and the others cannot make up for it.
      rw [hempty, if_pos rfl] at h
      simp only [templateParts, List.length_cons] at h
      omega
    | false =>
      rw [hempty, if_neg (by simp)] at h
      simp only [templateParts, List.length_cons] at h
      exact ⟨rfl, ih (Nat.succ.inj hlen) (by omega)⟩

/-- An expression that can be printed is not an empty sequence. -/
theorem isEmpty_of_printable {a : Node} (h : Regular .printable .interpolation a) :
    a.isEmpty = false := by
  cases h with
  | @sequence as hl _ =>
    cases as with
    | nil => exact absurd hl (Nat.not_le.mpr Nat.two_pos)
    | cons => rfl
  | expression _ he => cases he <;> first | rfl | contradiction

/-- A printable tree is read back as it is. -/
theorem reread_of_printable {place : Place} {n : Node} (h : Regular .printable place n) :
    n.reread = n := by
  have hall {as : List Node} (h : ∀ a ∈ as, a.reread = a) : rereads as = as := by
    rw [rereads_eq_map, List.map_congr_left h, List.map_id']
  have hoption {b : Option Node} (h : ∀ a, b = some a → a.reread = a) : rereadOption b = b := by
    cases b with
    | none => rfl
    | some a => rw [rereadOption, h a rfl]
  induction h with
  | number hx => rw [reread, if_pos hx.1]
  | string | boolean | null | regexp | identifier => rfl
  | unary _ ih => rw [reread, ih]
  | binary _ _ iha ihb => rw [reread, iha, ihb]
  | assign _ _ _ iha ihb => rw [reread, iha, ihb]
  | call _ _ iha ihb => rw [reread, iha, hall ihb]
  | member _ _ iha ihb => rw [reread, iha, ihb]
  | @object ps _ _ _ iha ihb =>
    have hps : ∀ p ∈ ps, (p.1.reread, p.2.reread) = p := fun p hp => by
      rw [iha p hp, ihb p hp]
    rw [reread, rereadPairs_eq_map, List.map_congr_left hps, List.map_id']
  | array _ ih => rw [reread, hall ih]
  -- No expression is empty, so that the pieces of text stay apart.
  | template hlen _ hregular ih =>
    have hparts := templateParts_rereadParts hlen fun a ha => isEmpty_of_printable (hregular a ha)
    rw [reread, hparts, hall ih]
  | conditional _ _ _ iha ihb ihc => rw [reread, iha, hoption ihb, hoption ihc]
  | block _ ih => rw [reread, hall ih]
  | sequence _ _ ih => rw [reread, hall ih]
  | program _ _ ih => rw [reread, hall ih]
  | expression _ _ ih => exact ih

/-- A regular tree that is read back as an equal one is printable, unless it is an empty sequence in
a template. -/
theorem printable_of_same {place : Place} {n : Node} (h : Regular .parsed place n)
    (heq : same n.reread n = true) (hempty : place ≠ .interpolation ∨ n.isEmpty = false) :
    Regular .printable place n := by
  have hall {as : List Node} (h : sameAll (rereads as) as = true) :
      ∀ a ∈ as, same a.reread a = true := by
    rw [rereads_eq_map] at h
    exact sameAll_map_iff.mp h
  have hoption {b : Option Node} (h : sameOption (rereadOption b) b = true) :
      ∀ a, b = some a → same a.reread a = true := by
    rw [rereadOption_eq_map] at h
    exact sameOption_map_iff.mp h
  induction h with
  -- An infinite number is read back as a name, which is no number.
  | @number x hx =>
    rw [reread] at heq
    split at heq
    · next hfinite => exact .number ⟨hfinite, hx.2⟩
    · simp [same] at heq
  | string s => exact .string s
  | boolean b => exact .boolean b
  | null => exact .null
  | regexp hp hf => exact .regexp hp hf
  | identifier hname => exact .identifier hname
  | unary _ ih =>
    simp only [reread, same, Bool.and_eq_true] at heq
    exact .unary (ih heq.2 (.inl (by decide)))
  | binary _ _ iha ihb =>
    simp only [reread, same, Bool.and_eq_true] at heq
    exact .binary (iha heq.1.2 (.inl (by decide))) (ihb heq.2 (.inl (by decide)))
  | assign hi _ _ iha ihb =>
    simp only [reread, same, Bool.and_eq_true] at heq
    exact .assign hi (iha heq.1 (.inl (by decide))) (ihb heq.2 (.inl (by decide)))
  | call _ _ iha ihb =>
    simp only [reread, same, Bool.and_eq_true] at heq
    exact .call (iha heq.1 (.inl (by decide)))
      fun b hb => ihb b hb (hall heq.2 b hb) (.inl (by decide))
  | member _ _ iha ihb =>
    simp only [reread, same, Bool.and_eq_true] at heq
    exact .member (iha heq.1 (.inl (by decide))) (ihb heq.2 (.inl (by decide)))
  | object hk _ _ iha ihb =>
    rw [reread, rereadPairs_eq_map, same, samePairs_map_iff] at heq
    exact .object hk (fun p hp => iha p hp (heq p hp).1 (.inl (by decide)))
      (fun p hp => ihb p hp (heq p hp).2 (.inl (by decide)))
  | array _ ih =>
    rw [reread, same] at heq
    exact .array fun a ha => ih a ha (hall heq a ha) (.inl (by decide))
  -- As many expressions are read back as there were, so that none of them was empty.
  | template hlen hq _ ih =>
    rw [reread, same, Bool.and_eq_true] at heq
    have hempty := isEmpty_of_length hlen (length_eq_of_sameAll heq.2)
    rw [templateParts_rereadParts hlen hempty] at heq
    exact .template hlen hq fun a ha => ih a ha (hall heq.2 a ha) (.inr (hempty a ha))
  | conditional _ _ _ iha ihb ihc =>
    simp only [reread, same, Bool.and_eq_true] at heq
    exact .conditional (iha heq.1.1 (.inl (by decide)))
      (fun x hx => ihb x hx (hoption heq.1.2 x hx) (.inl (by decide)))
      (fun x hx => ihc x hx (hoption heq.2 x hx) (.inl (by decide)))
  | block _ ih =>
    rw [reread, same] at heq
    exact .block fun a ha => ih a ha (hall heq a ha) (.inl (by decide))
  | @sequence as hl _ ih =>
    rw [reread, same] at heq
    refine .sequence ?_ fun a ha => ih a ha (hall heq a ha) (.inl (by decide))
    -- There is not exactly one statement, and there is at least one.
    have hne : as.length ≠ 1 := hl
    have hpos : as ≠ [] := by
      rintro rfl
      exact hempty.elim (absurd rfl) Bool.noConfusion
    have hlong := List.length_pos_iff.mpr hpos
    show 2 ≤ as.length
    omega
  | program hl _ ih =>
    rw [reread, same] at heq
    exact .program hl fun a ha => ih a ha (hall heq a ha) (.inl (by decide))
  | expression hne _ ih => exact .expression hne (ih heq (.inl (by decide)))

/-- Exactly the printable trees are read back as equal ones. -/
theorem same_reread_iff {n : Node} (h : Regular .parsed .root n) :
    same n.reread n = true ↔ Regular .printable .root n := by
  refine ⟨fun heq => printable_of_same h heq (.inl (by decide)), fun hprintable => ?_⟩
  rw [reread_of_printable hprintable]
  exact same_self h

/-- Exactly the printable trees are read back as they are. -/
theorem reread_eq_self_iff {n : Node} (h : Regular .parsed .root n) :
    n.reread = n ↔ Regular .printable .root n := by
  refine ⟨fun heq => (same_reread_iff h).mp ?_, reread_of_printable⟩
  rw [heq]
  exact same_self h

end Brace
