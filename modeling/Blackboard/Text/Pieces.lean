/-!
# Cutting a row into pieces

A text or another row is cut from left to right. A rule looks at the first element and at what
follows it and answers with a piece and with the number of FURTHER elements that the piece covers,
so every piece covers at least one element and the cutting ends by itself.

The main statement is `cut_cons`: cutting goes on where the piece ends.
-/

namespace Blackboard

variable {ε α : Type}

/-- Leaves out `skip` elements and cuts the rest by a rule. -/
def cutFrom (next : ε → List ε → α × Nat) : Nat → List ε → List α
  | _, [] => []
  | skip + 1, _ :: cs => cutFrom next skip cs
  | 0, c :: cs => (next c cs).1 :: cutFrom next (next c cs).2 cs

/-- The pieces of a row. -/
def cut (next : ε → List ε → α × Nat) (cs : List ε) : List α := cutFrom next 0 cs

theorem cutFrom_eq_cut_drop (next : ε → List ε → α × Nat) (skip : Nat) (cs : List ε) :
    cutFrom next skip cs = cut next (cs.drop skip) := by
  induction cs generalizing skip with
  | nil => cases skip <;> rfl
  | cons c cs ih =>
    cases skip with
    | zero => rfl
    | succ n => simpa [cutFrom] using ih n

/-- **The first piece is the one that the rule gives, and cutting goes on behind it.** -/
theorem cut_cons (next : ε → List ε → α × Nat) (c : ε) (cs : List ε) :
    cut next (c :: cs) = (next c cs).1 :: cut next (cs.drop (next c cs).2) := by
  rw [← cutFrom_eq_cut_drop]
  rfl

end Blackboard
