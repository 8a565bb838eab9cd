import Blackboard.Sentence.Template

/-!
# The parse cache is not seen

A cache is faithful if every text that it keeps is kept with what it is read as
(`ParseCache.Faithful`). Nothing else can be kept, and **reading through a faithful cache is reading
without one** (`ParseCache.Faithful.parse_eq`), whatever the capacity.

So what a template stands for can be said without a cache (`Template.read`).
-/

namespace Blackboard

/-! ## 1. Faithful caches -/

namespace ParseCache

/-- Every text is kept with what it is read as. -/
def Faithful (c : ParseCache) : Prop := ∀ e ∈ c.kept, Sentence.parse e.1 = .ok e.2

section Faithful

variable {c : ParseCache}

theorem faithful_empty (capacity : Nat) : (empty capacity).Faithful :=
  fun _ h => absurd h List.not_mem_nil

theorem faithful_clear (c : ParseCache) : c.clear.Faithful := fun _ h => absurd h List.not_mem_nil

theorem Faithful.makeRoom (h : c.Faithful) : c.makeRoom.Faithful := by
  unfold ParseCache.makeRoom
  split
  · exact faithful_clear c
  · exact h

/-- **Reading through a faithful cache is reading without one.** -/
theorem Faithful.parse_eq (h : c.Faithful) (text : String) :
    (c.parse text).1 = Sentence.parse text := by
  unfold ParseCache.parse
  cases hkept : lookupEntry text c.kept with
  | some s => exact (h _ (OrderedMap.mem_of_lookupEntry hkept)).symm
  | none => cases Sentence.parse text <;> rfl

theorem Faithful.parse (h : c.Faithful) (text : String) : (c.parse text).2.Faithful := by
  unfold ParseCache.parse
  cases lookupEntry text c.kept with
  | some s => exact h
  | none =>
    cases hread : Sentence.parse text with
    | error e => exact h.makeRoom
    | ok s =>
      intro e he
      rcases List.mem_cons.mp he with rfl | he
      · exact hread
      · exact h.makeRoom e he

end Faithful

end ParseCache

/-! ## 2. Templates -/

namespace Template

/-- Reads the text and fills the holes, without a cache. -/
def read (t : Template) : Except Failure Sentence :=
  match Sentence.parse t.text with
  | .error e => .error e
  | .ok s =>
    if s.holeCount = t.fillers.length then .ok (s.fill t.fillers)
    else .error (.arity s.holeCount t.fillers.length)

/-- **A template is materialized to what it is read as.** -/
theorem materialize_eq {c : ParseCache} (h : c.Faithful) (t : Template) :
    (t.materialize c).1 = t.read := by
  have hparse := h.parse_eq t.text
  unfold Template.materialize Template.read
  rw [← hparse]
  cases hread : c.parse t.text with
  | mk r c' =>
    cases r with
    | error e => rfl
    | ok s =>
      dsimp only
      split
      · rfl
      · rfl

theorem faithful_materialize {c : ParseCache} (h : c.Faithful) (t : Template) :
    (t.materialize c).2.Faithful := by
  have hparse := h.parse t.text
  unfold Template.materialize
  cases hread : c.parse t.text with
  | mk r c' =>
    rw [hread] at hparse
    cases r with
    | error e => exact hparse
    | ok s =>
      dsimp only
      split
      · exact hparse
      · exact hparse

end Template

end Blackboard
