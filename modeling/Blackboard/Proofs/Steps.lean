import Mathlib.Data.List.Forall2

/-!
# Rows of steps that can fail

A step on every element of a list, one after another up to the first failure, goes through exactly
if each of them does, and the results are theirs (`mapM_eq_ok_iff`). It fails as the first step does
that fails (`mapM_eq_error_iff`). If there is only one reason to fail, it does not matter which step
that is (`mapM_eq_ite`).
-/

namespace Blackboard

variable {ε α β : Type} {f : α → Except ε β}

/-- **The results of a row of steps are those of its steps.** -/
theorem mapM_eq_ok_iff {l : List α} {bs : List β} :
    l.mapM f = .ok bs ↔ List.Forall₂ (fun a b => f a = .ok b) l bs := by
  induction l generalizing bs with
  | nil =>
    rw [List.mapM_nil, List.forall₂_nil_left_iff]
    constructor
    · intro h
      cases h
      rfl
    · intro h
      rw [h]
      rfl
  | cons a l ih =>
    rw [List.mapM_cons, List.forall₂_cons_left_iff]
    constructor
    · intro h
      cases ha : f a with
      | error e =>
        rw [ha] at h
        cases h
      | ok b =>
        cases hl : l.mapM f with
        | error e =>
          rw [ha, hl] at h
          cases h
        | ok bs =>
          rw [ha, hl] at h
          cases h
          exact ⟨b, bs, rfl, ih.mp hl, rfl⟩
    · intro h
      obtain ⟨b, bs, ha, hl, rfl⟩ := h
      rw [ha, ih.mpr hl]
      rfl

/-- **A row of steps fails as the first of its steps that fails.** -/
theorem mapM_eq_error_iff {l : List α} {e : ε} :
    l.mapM f = .error e ↔ ∃ front a back, l = front ++ a :: back ∧
      (∀ b ∈ front, ∃ c, f b = .ok c) ∧ f a = .error e := by
  constructor
  · intro h
    induction l with
    | nil => cases h
    | cons a l ih =>
      rw [List.mapM_cons] at h
      cases ha : f a with
      | error e' =>
        rw [ha] at h
        cases h
        exact ⟨[], a, l, rfl, by simp, ha⟩
      | ok b =>
        cases hl : l.mapM f with
        | ok bs =>
          rw [ha, hl] at h
          cases h
        | error e' =>
          rw [ha, hl] at h
          cases h
          obtain ⟨front, d, back, rfl, hfront, hd⟩ := ih hl
          refine ⟨a :: front, d, back, rfl, fun c hc => ?_, hd⟩
          rcases List.mem_cons.mp hc with rfl | hc
          · exact ⟨b, ha⟩
          · exact hfront c hc
  · rintro ⟨front, a, back, rfl, hfront, ha⟩
    induction front with
    | nil =>
      rw [List.nil_append, List.mapM_cons, ha]
      rfl
    | cons b front ih =>
      obtain ⟨c, hc⟩ := hfront b List.mem_cons_self
      rw [List.cons_append, List.mapM_cons, hc, ih fun d hd => hfront d (List.mem_cons_of_mem _ hd)]
      rfl

theorem exists_mapM_eq_ok {Q : α → β → Prop} {l : List α}
    (h : ∀ a ∈ l, ∃ b, f a = .ok b ∧ Q a b) : ∃ bs, l.mapM f = .ok bs ∧ List.Forall₂ Q l bs := by
  induction l with
  | nil => exact ⟨[], rfl, .nil⟩
  | cons a l ih =>
    obtain ⟨b, hb, hQ⟩ := h a List.mem_cons_self
    obtain ⟨bs, hbs, hQs⟩ := ih fun c hc => h c (List.mem_cons_of_mem _ hc)
    refine ⟨b :: bs, ?_, .cons hQ hQs⟩
    rw [List.mapM_cons, hb, hbs]
    rfl

/-- A row of steps goes through exactly if each of them does. -/
theorem exists_mapM_eq_ok_iff {l : List α} :
    (∃ bs, l.mapM f = .ok bs) ↔ ∀ a ∈ l, ∃ b, f a = .ok b := by
  constructor
  · rintro ⟨bs, hbs⟩
    have hall := mapM_eq_ok_iff.mp hbs
    clear hbs
    induction hall with
    | nil => simp
    | cons ha _ ih => exact List.forall_mem_cons.mpr ⟨⟨_, ha⟩, ih⟩
  · intro h
    obtain ⟨bs, hbs, -⟩ := exists_mapM_eq_ok fun a ha => (h a ha).imp fun _ hb => ⟨hb, trivial⟩
    exact ⟨bs, hbs⟩

open scoped Classical in
/-- Where every step that fails does so for the same reason, the row fails if one of its steps
    does. -/
theorem mapM_eq_ite {c : α → Prop} {g : α → β} {r : ε} {l : List α} {C : Prop}
    (hC : C ↔ ∃ a ∈ l, c a) (h : ∀ a ∈ l, f a = if c a then .error r else .ok (g a)) :
    l.mapM f = if C then .error r else .ok (l.map g) := by
  induction l generalizing C with
  | nil =>
    rw [if_neg (by simp [hC])]
    rfl
  | cons a l ih =>
    rw [List.mapM_cons, h a List.mem_cons_self,
      ih Iff.rfl fun b hb => h b (List.mem_cons_of_mem _ hb)]
    simp only [hC, List.exists_mem_cons_iff]
    by_cases ha : c a
    · simp [ha, bind, Except.bind]
    · by_cases hl : ∃ b ∈ l, c b <;> simp [ha, hl, bind, Except.bind, pure, Except.pure]

/-- Steps that go on from changed elements to changed results change the row of results. -/
theorem mapM_map {g : α → α} {k : β → β} (h : ∀ a, f (g a) = (f a).map k) (l : List α) :
    (l.map g).mapM f = (l.mapM f).map (List.map k) := by
  induction l with
  | nil => rfl
  | cons a l ih =>
    rw [List.map_cons, List.mapM_cons, List.mapM_cons, h, ih]
    cases f a with
    | error e => rfl
    | ok b => cases l.mapM f <;> rfl

/-- What holds of the result of every step holds of all results. -/
theorem forall_of_mapM_eq_ok {Q : β → Prop} {l : List α} {bs : List β} (h : l.mapM f = .ok bs)
    (hsteps : ∀ a ∈ l, ∀ b, f a = .ok b → Q b) : ∀ b ∈ bs, Q b := by
  have hall := mapM_eq_ok_iff.mp h
  clear h
  induction hall with
  | nil => exact fun _ hb => absurd hb List.not_mem_nil
  | cons ha _ ih =>
    intro b hb
    rcases List.mem_cons.mp hb with rfl | hb
    · exact hsteps _ List.mem_cons_self b ha
    · exact ih (fun c hc => hsteps c (List.mem_cons_of_mem _ hc)) b hb

end Blackboard
