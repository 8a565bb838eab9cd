import Blackboard.Sentence.Basic
import Mathlib.Data.List.Forall2

/-!
# Equality of terms

Matching compares terms by `Term.equal`, while a stored fact is known by its text. This file ties
the two together:

* equality is symmetric and transitive, and everything but a NaN is equal to itself;
* two sentences are equal if their terms are, place by place (`Sentence.equal_iff`);
* **equal sentences have the same text** (`Sentence.render_eq_of_equal`): the two zeros, which are
  the only terms that are equal without being the same, are written alike.

The converse does not hold; see `Proofs/Keys`.
-/

namespace Blackboard

/-! ## 1. Numbers -/

namespace Binary64

/-- Whether this is not a number. -/
def isNaN : Binary64 → Bool
  | .nan => true
  | _ => false

/-- Numbers that are equal are the same, or both are zero. -/
theorem eq_or_isZero_of_equal {x y : Binary64} (h : x.equal y = true) :
    x = y ∨ (x.isZero = true ∧ y.isZero = true) := by
  cases x with
  | finite s r =>
    cases y with
    | finite t q =>
      simp only [equal, Bool.and_eq_true, Bool.or_eq_true, beq_iff_eq] at h
      obtain ⟨rfl, rfl | hz⟩ := h
      · exact Or.inl rfl
      · exact Or.inr ⟨by simpa [isZero] using hz, by simpa [isZero] using hz⟩
    | infinity _ => simp [equal] at h
    | nan => simp [equal] at h
  | infinity s =>
    cases y with
    | infinity t =>
      simp only [equal, beq_iff_eq] at h
      exact Or.inl (by rw [h])
    | finite _ _ => simp [equal] at h
    | nan => simp [equal] at h
  | nan => simp [equal] at h

theorem equal_symm {x y : Binary64} (h : x.equal y = true) : y.equal x = true := by
  cases x <;> cases y <;> grind [equal]

theorem equal_trans {x y z : Binary64} (hxy : x.equal y = true) (hyz : y.equal z = true) :
    x.equal z = true := by
  cases x <;> cases y <;> cases z <;> simp_all [equal]
  grind

theorem equal_self {x : Binary64} (h : x.isNaN = false) : x.equal x = true := by
  cases x <;> simp_all [equal, isNaN]

end Binary64

/-! ## 2. Literals and terms -/

namespace Literal

/-- Whether this is the literal of a NaN. -/
def isNaN : Literal → Bool
  | number x => x.isNaN
  | _ => false

theorem equal_symm {a b : Literal} (h : a.equal b = true) : b.equal a = true := by
  cases a with
  | number x =>
    cases b with
    | number y => exact Binary64.equal_symm h
    | _ => simp [equal] at h
  | _ => cases b <;> simp_all [equal]

theorem equal_trans {a b c : Literal} (hab : a.equal b = true) (hbc : b.equal c = true) :
    a.equal c = true := by
  cases b with
  | number y =>
    cases a with
    | number x =>
      cases c with
      | number z => exact Binary64.equal_trans hab hbc
      | _ => simp [equal] at hbc
    | _ => simp [equal] at hab
  | _ => cases a <;> cases c <;> simp_all [equal]

theorem equal_self {a : Literal} (h : a.isNaN = false) : a.equal a = true := by
  cases a with
  | number x => exact Binary64.equal_self h
  | _ => simp [equal]

/-- Equal literals are written alike. -/
theorem chars_eq_of_equal {a b : Literal} (h : a.equal b = true) : a.chars = b.chars := by
  cases a with
  | number x =>
    cases b with
    | number y =>
      rcases Binary64.eq_or_isZero_of_equal h with rfl | ⟨hx, hy⟩
      · rfl
      · simp [chars, hx, hy]
    | _ => simp [equal] at h
  | _ => cases b <;> simp_all [equal]

end Literal

namespace Term

/-- Whether this is the literal of a NaN. -/
def isNaN : Term → Bool
  | literal value => value.isNaN
  | _ => false

theorem equal_symm {a b : Term} (h : a.equal b = true) : b.equal a = true := by
  cases a with
  | literal v =>
    cases b with
    | literal w => exact Literal.equal_symm h
    | _ => simp [equal] at h
  | _ => cases b <;> simp_all [equal]

theorem equal_trans {a b c : Term} (hab : a.equal b = true) (hbc : b.equal c = true) :
    a.equal c = true := by
  cases b with
  | literal v =>
    cases a with
    | literal u =>
      cases c with
      | literal w => exact Literal.equal_trans hab hbc
      | _ => simp [equal] at hbc
    | _ => simp [equal] at hab
  | _ => cases a <;> cases c <;> simp_all [equal]

theorem equal_self {a : Term} (h : a.isNaN = false) : a.equal a = true := by
  cases a with
  | literal v => exact Literal.equal_self h
  | _ => simp [equal]

/-- Equal terms are written alike. -/
theorem chars_eq_of_equal {a b : Term} (h : a.equal b = true) : a.chars = b.chars := by
  cases a with
  | literal v =>
    cases b with
    | literal w => exact Literal.chars_eq_of_equal h
    | _ => simp [equal] at h
  | _ => cases b <;> simp_all [equal, chars]

theorem isHole_of_isGround {t : Term} (h : t.isGround = true) : t.isHole = false := by
  cases t <;> simp_all [isGround, isHole]

end Term

/-! ## 3. Sentences -/

namespace Sentence

/-- Whether a NaN occurs in the sentence. -/
def hasNaN (s : Sentence) : Bool := s.any Term.isNaN

theorem equal_iff {s t : Sentence} :
    equal s t = true ↔ List.Forall₂ (fun a b => a.equal b = true) s t := by
  induction s generalizing t with
  | nil => cases t <;> simp [equal]
  | cons a s ih =>
    cases t with
    | nil => simp [equal]
    | cons b t => simp [equal, ih]

theorem equal_symm {s t : Sentence} (h : equal s t = true) : equal t s = true := by
  rw [equal_iff] at h ⊢
  exact h.flip.imp fun _ _ => Term.equal_symm

theorem equal_trans {s t u : Sentence} (hst : equal s t = true) (htu : equal t u = true) :
    equal s u = true := by
  induction s generalizing t u with
  | nil =>
    cases t with
    | nil => exact htu
    | cons b t => simp [equal] at hst
  | cons a s ih =>
    cases t with
    | nil => simp [equal] at hst
    | cons b t =>
      cases u with
      | nil => simp [equal] at htu
      | cons c u =>
        simp only [equal, Bool.and_eq_true] at hst htu ⊢
        exact ⟨Term.equal_trans hst.1 htu.1, ih hst.2 htu.2⟩

theorem chars_eq_of_equal {s t : Sentence} (h : equal s t = true) : chars s = chars t := by
  rw [equal_iff] at h
  induction h with
  | nil => rfl
  | cons hab _ ih =>
    simp only [chars, List.flatMap_cons] at ih ⊢
    rw [Term.chars_eq_of_equal hab, ih]

/-- **Equal sentences have the same text.** -/
theorem render_eq_of_equal {s t : Sentence} (h : equal s t = true) : s.render = t.render := by
  rw [render, render, chars_eq_of_equal h]

end Sentence

end Blackboard
