/-
# True positions

The position of a text counts its line feeds and the characters behind the last one
(`Position.ofText`).  An object that reads a source shows positions call by call: the one that it
reports behind the call, and the one of the error that the call returns.  `Report.Truthful` says
that they are positions of opening segments of the source that never get shorter.  An object that
moves forward only is truthful if every single call is (`truthful_callAll`), and a cursor is
(`Cursor.truthful`).
-/
import Brace.Source.LexError
import Mathlib.Data.List.Forall2
import Mathlib.Data.List.Induction

namespace Brace

/-! ## The position of a text -/

/-- The line of a text is one more than the number of its line feeds, and its column is the number
of characters behind the last one. -/
def Position.ofText (p : List Char) : Position :=
  ⟨1 + p.count '\n', (p.reverse.takeWhile (· != '\n')).length⟩

/-- Reading a text from the start leads to its position. -/
theorem Position.start_after (p : List Char) : start.after p = ofText p := by
  -- The characters are counted from the front, so the last one is split off.
  induction p using List.reverseRecOn with
  | nil => rfl
  | append_singleton p c ih =>
    rw [after_append, ih, after_cons, after_nil, advance]
    split
    · next hc =>
      rw [hc]
      simp [ofText, Nat.add_assoc]
    · next hc => simp [ofText, hc]

/-! ## Reports -/

/-- The positions that a call shows. -/
structure Report where
  /-- The position that is reported behind the call. -/
  position : Position
  /-- The position of the error that the call returns. -/
  error? : Option Position

namespace Report

/-- All positions that a call shows are that of the text `p`. -/
def Tells (r : Report) (p : List Char) : Prop :=
  r.position = .ofText p ∧ ∀ e ∈ r.error?, e = .ofText p

/-- The positions that some calls show are those of opening segments of the source, each of them at
least as long as the one before. -/
def Truthful (source : String) (rs : List Report) : Prop :=
  ∃ ps : List (List Char), List.Forall₂ Tells rs ps ∧ (∀ p ∈ ps, p <+: source.toList) ∧
    ps.Pairwise fun p q => p.length ≤ q.length

/-- The positions that some calls show are those of opening segments of the text `cs` that begin
with `p`, each of them beginning with the one before. -/
inductive TrueFrom (cs : List Char) : List Char → List Report → Prop where
  /-- No calls. -/
  | nil (p : List Char) : TrueFrom cs p []
  /-- One more call, before the others. -/
  | cons {p q : List Char} {r : Report} {rs : List Report} :
      p ++ q <+: cs → r.Tells (p ++ q) → TrueFrom cs (p ++ q) rs → TrueFrom cs p (r :: rs)

/-- True reports tell of beginnings of the source that never get shorter. -/
theorem TrueFrom.exists_prefixes {cs p : List Char} {rs : List Report} (h : TrueFrom cs p rs) :
    ∃ ps : List (List Char), List.Forall₂ Tells rs ps ∧ (∀ q ∈ ps, q <+: cs) ∧
      (p :: ps).Pairwise fun p q => p.length ≤ q.length := by
  induction h with
  | nil p => exact ⟨[], .nil, by simp, by simp⟩
  | @cons p q r rs hfront htells _ ih =>
    -- The segments of the later reports are longer, since each begins with this one.
    obtain ⟨ps, hps, hin, hgrow⟩ := ih
    have hle : p.length ≤ (p ++ q).length := by simp
    refine ⟨(p ++ q) :: ps, .cons htells hps, List.forall_mem_cons.mpr ⟨hfront, hin⟩,
      List.pairwise_cons.mpr ⟨?_, hgrow⟩⟩
    intro t ht
    rcases List.mem_cons.mp ht with rfl | ht
    · exact hle
    · exact Nat.le_trans hle (List.rel_of_pairwise_cons hgrow ht)

/-- Reports that are true from some beginning on are truthful. -/
theorem TrueFrom.truthful {source : String} {p : List Char} {rs : List Report}
    (h : TrueFrom source.toList p rs) : Truthful source rs := by
  obtain ⟨ps, hps, hin, hgrow⟩ := h.exists_prefixes
  exact ⟨ps, hps, hin, hgrow.of_cons⟩

end Report

/-! ## Calls one after the other -/

section Calls

variable {σ ι : Type}

/-- Makes some calls one after the other.  The answer is what each of them shows, and the object
behind them. -/
def callAll (call : σ → ι → Report × σ) : List ι → σ → List Report × σ
  | [], s => ([], s)
  | c :: cs, s =>
    ((call s c).1 :: (callAll call cs (call s c).2).1, (callAll call cs (call s c).2).2)

/-- An object that has read a segment of the text `cs` at every time, and shows its position, shows
true positions.  Behind the calls, other reports may follow. -/
theorem trueFrom_callAll {call : σ → ι → Report × σ} {cs : List Char} {R : σ → List Char → Prop}
    (hfront : ∀ s p, R s p → p <+: cs)
    (hcall : ∀ s p c, R s p → ∃ q, (call s c).1.Tells (p ++ q) ∧ R (call s c).2 (p ++ q))
    (calls : List ι) {s : σ} {p : List Char} (h : R s p) {rs : List Report}
    (hrs : ∀ q, R (callAll call calls s).2 q → Report.TrueFrom cs q rs) :
    Report.TrueFrom cs p ((callAll call calls s).1 ++ rs) := by
  induction calls generalizing s p with
  | nil => exact hrs p h
  | cons c calls ih =>
    obtain ⟨q, htells, hat⟩ := hcall s p c h
    exact .cons (hfront _ _ hat) htells (ih hat hrs)

/-- If every single call shows the position of what has been read, some calls do. -/
theorem truthful_callAll {call : σ → ι → Report × σ} {source : String} {R : σ → List Char → Prop}
    (hfront : ∀ s p, R s p → p <+: source.toList)
    (hcall : ∀ s p c, R s p → ∃ q, (call s c).1.Tells (p ++ q) ∧ R (call s c).2 (p ++ q))
    {s : σ} {p : List Char} (h : R s p) (calls : List ι) :
    Report.Truthful source (callAll call calls s).1 := by
  have htrue := trueFrom_callAll hfront hcall calls h fun q _ => .nil q
  rw [List.append_nil] at htrue
  exact htrue.truthful

end Calls

/-! ## Cursors -/

namespace Cursor

/-- The cursor has read the segment `p` at the front of the text `cs`. -/
structure Behind (cs : List Char) (k : Cursor) (p : List Char) : Prop where
  /-- What has been read, and what has not. -/
  chars : p ++ k.rest = cs
  /-- The place. -/
  position : k.position = .ofText p

variable {cs p : List Char} {k : Cursor}

theorem behind_ofString (source : String) : (ofString source).Behind source.toList [] := ⟨rfl, rfl⟩

theorem Behind.isPrefix (h : k.Behind cs p) : p <+: cs := ⟨k.rest, h.chars⟩

/-- Moving on is reading more. -/
theorem Behind.forward (h : k.Behind cs p) (n : Nat) :
    (k.forward n).Behind cs (p ++ k.rest.take n) := by
  constructor
  · rw [forward_rest, List.append_assoc, List.take_append_drop]
    exact h.chars
  · show k.position.after (k.rest.take n) = _
    rw [h.position, ← Position.start_after, ← Position.start_after, Position.after_append]

/-- A call that reads nothing shows the place where the cursor stands. -/
theorem Behind.stays (h : k.Behind cs p) {e? : Option Position} (he : ∀ e ∈ e?, e = k.position) :
    ∃ q, Report.Tells ⟨k.position, e?⟩ (p ++ q) ∧ k.Behind cs (p ++ q) := by
  refine ⟨[], ?_⟩
  rw [List.append_nil]
  exact ⟨⟨h.position, fun e hmem => (he e hmem).trans h.position⟩, h⟩

theorem Behind.eq_of_rest_eq_nil (h : k.Behind cs p) (hrest : k.rest = []) : p = cs := by
  rw [← h.chars, hrest, List.append_nil]

/-- The calls of a cursor. -/
inductive Call where
  /-- Looks at the next character. -/
  | peek
  /-- Reads a character. -/
  | next
  /-- Asks whether everything has been read. -/
  | atEnd
  /-- Asks for the position. -/
  | position
  /-- Makes an error with the given wording. -/
  | fail (message : String)
  /-- Reads as long as the characters are accepted. -/
  | readWhile (accepts : List Char → Char → Bool)

/-- A call, and the cursor behind it. -/
def call (k : Cursor) : Call → Report × Cursor
  | .next => (⟨k.next.2.position, none⟩, k.next.2)
  | .readWhile accepts =>
    (⟨(k.readWhile accepts).2.position, none⟩, (k.readWhile accepts).2)
  | .fail message => (⟨k.position, some (k.fail (.stated message)).position⟩, k)
  | .peek | .atEnd | .position => (⟨k.position, none⟩, k)

/-- Whatever is called, what is told is true of what has been read. -/
theorem Behind.call (h : k.Behind cs p) (c : Call) :
    ∃ q, (k.call c).1.Tells (p ++ q) ∧ (k.call c).2.Behind cs (p ++ q) := by
  have moves (n : Nat) : ∃ q, Report.Tells ⟨(k.forward n).position, none⟩ (p ++ q) ∧
      (k.forward n).Behind cs (p ++ q) :=
    ⟨_, ⟨(h.forward n).position, by simp⟩, h.forward n⟩
  cases c with
  | next => exact moves 1
  | readWhile accepts => exact moves _
  -- An error is told in the place where the cursor stands.
  | fail message =>
    apply h.stays
    intro e he
    exact (Option.some.inj he).symm
  | peek | atEnd | position => exact h.stays (by simp)

/-- All positions that a cursor shows are true, whatever is called. -/
theorem truthful (source : String) (calls : List Call) :
    Report.Truthful source (callAll Cursor.call calls (ofString source)).1 :=
  truthful_callAll (R := fun k => k.Behind source.toList) (fun _ _ h => h.isPrefix)
    (fun _ _ c h => h.call c) (behind_ofString source) calls

end Cursor

end Brace
