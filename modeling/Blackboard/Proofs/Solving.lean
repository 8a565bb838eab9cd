import Blackboard.Proofs.Matching
import Blackboard.Proofs.Steps
import Blackboard.Proofs.StoreInvariant
import Blackboard.Store.Query

/-!
# Solving queries

Solving a query goes through the facts once for every pattern, so it tries the rows of as many facts
as there are patterns, those with an earlier fact in an earlier place first (`rows`). On ground facts
it keeps a row exactly if the matches from left to right go through (`Store.solve_eq`).

A hole in a pattern is a fault, but only if the query comes to it: the patterns before match a row of
facts, one after another, and some fact is as long as the pattern with the hole and is matched by it
up to the hole (`Store.ComesToHole`). Where a fact is too long or too short, an earlier place does not
match, an earlier pattern matches nothing or the store is empty, the hole is not seen. **Coming to a
hole is the only way in which a query can fail** (`Store.solve_eq_ite`,
`Store.selectBindings_faults_iff`). A pattern with a hole that is not come to matches nothing, so there
is no solution then.
-/

namespace Blackboard

/-! ## 1. Rows -/

section Rows

variable {α β : Type}

/-- The rows of `n` elements of a list, in the order of the places of their elements. -/
def rows (l : List α) : Nat → List (List α)
  | 0 => [[]]
  | n + 1 => l.flatMap fun a => (rows l n).map (a :: ·)

theorem mem_rows {l : List α} {n : Nat} {r : List α} :
    r ∈ rows l n ↔ r.length = n ∧ ∀ a ∈ r, a ∈ l := by
  induction n generalizing r with
  | zero =>
    simp only [rows, List.mem_singleton, List.length_eq_zero_iff]
    constructor
    · rintro rfl
      exact ⟨rfl, fun _ h => absurd h List.not_mem_nil⟩
    · exact And.left
  | succ n ih =>
    simp only [rows, List.mem_flatMap, List.mem_map, ih]
    constructor
    · rintro ⟨a, ha, r, ⟨rfl, hr⟩, rfl⟩
      refine ⟨rfl, fun b hb => ?_⟩
      rcases List.mem_cons.mp hb with rfl | hb
      · exact ha
      · exact hr b hb
    · rintro ⟨hlen, hr⟩
      cases r with
      | nil => simp at hlen
      | cons a r =>
        refine ⟨a, hr a List.mem_cons_self, r, ⟨by simpa using hlen, fun b hb => ?_⟩, rfl⟩
        exact hr b (List.mem_cons_of_mem _ hb)

theorem rows_map (f : α → β) (l : List α) (n : Nat) :
    rows (l.map f) n = (rows l n).map (List.map f) := by
  induction n with
  | zero => rfl
  | succ n ih => simp [rows, ih, List.flatMap_map, List.map_flatMap, Function.comp_def]

/-- The rows of places come in increasing lexicographic order. -/
theorem pairwise_rows {l : List Nat} (h : l.Pairwise (· < ·)) (n : Nat) :
    (rows l n).Pairwise (· < ·) := by
  induction n with
  | zero => exact List.pairwise_singleton _ _
  | succ n ih =>
    rw [rows, List.pairwise_flatMap]
    constructor
    · intro a _
      rw [List.pairwise_map]
      exact ih.imp fun hlt => List.Lex.cons hlt
    · refine h.imp fun {a b} hab => ?_
      intro r hr r' hr'
      obtain ⟨s, _, rfl⟩ := List.mem_map.mp hr
      obtain ⟨s', _, rfl⟩ := List.mem_map.mp hr'
      exact List.Lex.rel hab

/-- What is kept of a list stands next to what it is kept for. -/
theorem forall₂_filter_filterMap (f : α → Option β) (l : List α) :
    List.Forall₂ (fun a b => a ∈ l ∧ f a = some b) (l.filter fun a => (f a).isSome)
      (l.filterMap f) := by
  induction l with
  | nil => exact .nil
  | cons a l ih =>
    have hl := ih.imp fun c b hcb => (⟨List.mem_cons_of_mem a hcb.1, hcb.2⟩ : c ∈ a :: l ∧ f c = some b)
    cases ha : f a with
    | none => simpa [List.filter_cons, List.filterMap_cons, ha] using hl
    | some b =>
      simp only [List.filter_cons, List.filterMap_cons, ha, Option.isSome_some, if_true]
      exact .cons ⟨List.mem_cons_self, ha⟩ hl

end Rows

/-! ## 2. Coming to a hole -/

/-- Patterns match facts one after another, from one environment to the next. -/
inductive MatchInTurn : List Sentence → List Fact → Env → Env → Prop where
  | nil (e : Env) : MatchInTurn [] [] e e
  | cons {p : Sentence} {f : Fact} {ps : List Sentence} {fs : List Fact} {e e₁ e₂ : Env} :
    matchSentence p f.terms e = .ok (some e₁) → MatchInTurn ps fs e₁ e₂ →
      MatchInTurn (p :: ps) (f :: fs) e e₂

namespace Store

/-- A query comes to a hole: the patterns before one of them match a row of facts, and from there
    the match of that pattern with a fact comes to a hole. -/
def ComesToHole (facts : List Fact) (patterns : List Sentence) (e : Env) : Prop :=
  ∃ k p row f e', patterns[k]? = some p ∧ (∀ g ∈ row, g ∈ facts) ∧
    MatchInTurn (patterns.take k) row e e' ∧ f ∈ facts ∧ p.MeetsHole f.terms e'

section ComesToHole

variable {facts : List Fact} {p : Sentence} {ps : List Sentence} {e : Env}

theorem not_comesToHole_nil : ¬ ComesToHole facts [] e := by
  rintro ⟨k, p, row, f, e', hk, -⟩
  cases hk

/-- A query comes to a hole in its first pattern, or behind a fact that it matches. -/
theorem comesToHole_cons :
    ComesToHole facts (p :: ps) e ↔
      ∃ f ∈ facts, p.MeetsHole f.terms e ∨
        ∃ e₁, matchSentence p f.terms e = .ok (some e₁) ∧ ComesToHole facts ps e₁ := by
  constructor
  · rintro ⟨k, q, row, f, e', hk, hrow, hmatch, hf, hhole⟩
    cases k with
    | zero =>
      obtain rfl : p = q := Option.some.inj hk
      cases hmatch
      exact ⟨f, hf, .inl hhole⟩
    | succ k =>
      cases hmatch with
      | @cons _ g _ fs _ e₁ _ hg hrest =>
        have hfs : ∀ h ∈ fs, h ∈ facts := fun h hh => hrow h (List.mem_cons_of_mem _ hh)
        refine ⟨g, hrow g List.mem_cons_self, .inr ⟨e₁, hg, ?_⟩⟩
        exact ⟨k, q, fs, f, e', hk, hfs, hrest, hf, hhole⟩
  · rintro ⟨f, hf, hhole | ⟨e₁, hg, k, q, row, g, e', hk, hrow, hmatch, hgmem, hhole⟩⟩
    · exact ⟨0, p, [], f, e, rfl, fun _ h => absurd h List.not_mem_nil, .nil e, hf, hhole⟩
    · refine ⟨k + 1, q, f :: row, g, e', hk, ?_, .cons hg hmatch, hgmem, hhole⟩
      intro h hh
      rcases List.mem_cons.mp hh with rfl | hh
      · exact hf
      · exact hrow h hh

end ComesToHole

/-! ## 3. Solving -/

open scoped Classical in
/-- **Solving a query faults exactly if it comes to a hole**, and tries every row otherwise. -/
theorem solve_eq_ite {facts : List Fact} (hf : ∀ f ∈ facts, f.terms.isGround = true)
    {ps : List Sentence} {e : Env} (he : e.IsGround) :
    solve facts ps e =
      if ComesToHole facts ps e then .error holeFault
      else .ok ((rows facts ps.length).filterMap fun r =>
        Sentence.matchedEach ps (r.map Fact.terms) e) := by
  induction ps generalizing e with
  | nil => rw [if_neg not_comesToHole_nil]; rfl
  | cons p ps ih =>
    unfold solve
    rw [mapM_eq_ite (C := ComesToHole facts (p :: ps) e) (r := holeFault)
      (g := fun f => (rows facts ps.length).filterMap fun r =>
        Sentence.matchedEach (p :: ps) ((f :: r).map Fact.terms) e) comesToHole_cons]
    · split
      · rfl
      · simp only [List.length_cons, rows, List.filterMap_flatMap, List.filterMap_map]
        rfl
    · -- what is found behind one fact
      intro f hfacts
      rw [matchSentence_eq_ite he.findsGround (hf f hfacts)]
      by_cases hhole : p.MeetsHole f.terms e
      · simp [hhole, bind, Except.bind]
      · cases hm : Sentence.matched p f.terms e with
        | none =>
          simp [hhole, hm, Sentence.matchedEach, bind, Except.bind, pure, Except.pure]
        | some e₁ =>
          have hrest := ih (Sentence.isGround_of_matched he (hf f hfacts) hm)
          simp only [hhole, if_false, false_or, Except.ok.injEq, Option.some.injEq, exists_eq_left',
            Sentence.matchedEach, List.map_cons, hm, Option.bind_some]
          exact hrest

theorem not_comesToHole {facts : List Fact} {ps : List Sentence}
    (hp : ∀ p ∈ ps, p.hasHoles = false) (e : Env) : ¬ ComesToHole facts ps e := by
  rintro ⟨k, p, row, f, e', hk, -, -, -, hhole⟩
  exact Sentence.not_meetsHole (hp p (List.mem_of_getElem? hk)) f.terms e' hhole

/-- **Solving a query on ground facts tries every row once** and keeps those whose matches from left
    to right go through. -/
theorem solve_eq {facts : List Fact} (hf : ∀ f ∈ facts, f.terms.isGround = true)
    {ps : List Sentence} (hp : ∀ p ∈ ps, p.hasHoles = false) {e : Env} (he : e.IsGround) :
    solve facts ps e =
      .ok ((rows facts ps.length).filterMap fun r =>
        Sentence.matchedEach ps (r.map Fact.terms) e) := by
  rw [solve_eq_ite hf he, if_neg (not_comesToHole hp e)]

/-! ## 4. Faults -/

/-- No row goes through a pattern with a hole. -/
theorem filterMap_rows_eq_nil {facts : List Fact} (hf : ∀ f ∈ facts, f.terms.isGround = true)
    {ps : List Sentence} (hholes : ∃ p ∈ ps, p.hasHoles = true) (e : Env) :
    ((rows facts ps.length).filterMap fun r =>
      Sentence.matchedEach ps (r.map Fact.terms) e) = [] := by
  obtain ⟨p, hp, hhole⟩ := hholes
  rw [List.filterMap_eq_nil_iff]
  intro r hr
  rw [Option.eq_none_iff_forall_ne_some]
  intro e' he'
  have hrow : ∀ f ∈ r.map Fact.terms, f.isGround = true := by
    intro f hmem
    obtain ⟨g, hg, rfl⟩ := List.mem_map.mp hmem
    exact hf g ((mem_rows.mp hr).2 g hg)
  rw [Sentence.hasHoles_of_matchedEach hrow he' p hp] at hhole
  cases hhole

/-- **A query fails exactly if it comes to a hole**, and always with the same fault. In every other
    case it is answered; with a hole anywhere in it, it has no solutions then. -/
theorem selectBindings_faults_iff (history : List Command) (patterns : List Sentence) :
    let s := empty.after history
    (s.selectBindings patterns = .error (.matchFault .holeInQuery) ↔
        ComesToHole s.facts.values patterns .empty) ∧
      (¬ ComesToHole s.facts.values patterns .empty → ∃ found,
        s.selectBindings patterns = .ok found ∧
          ((∃ p ∈ patterns, p.hasHoles = true) → found = [])) := by
  intro s
  have hs : Sound (fun _ => True) s := sound_after history
  have hground : ∀ f ∈ s.facts.values, f.terms.isGround = true := fun f hf => hs.isGround_of_mem hf
  have hsolve : solve s.facts.values patterns .empty = _ :=
    solve_eq_ite hground Env.isGround_empty
  by_cases hhole : ComesToHole s.facts.values patterns .empty
  · rw [if_pos hhole] at hsolve
    rw [selectBindings, hsolve]
    exact ⟨iff_of_true rfl hhole, fun hnot => absurd hhole hnot⟩
  · rw [if_neg hhole] at hsolve
    rw [selectBindings, hsolve]
    refine ⟨iff_of_false (fun h => nomatch h) hhole, fun _ => ⟨_, rfl, fun hholes => ?_⟩⟩
    rw [filterMap_rows_eq_nil hground hholes, List.map_nil]

/-- A hole is come to behind a variable, and masked by a word that does not match. -/
theorem selectBindings_faults_or_masked :
    let s := empty.after [.assert "a" [.identifier "x", .word " ", .number .zero]]
    let p : Sentence := [.variable "who", .word " ", .hole]
    let q : Sentence := [.variable "who", .word ",", .hole]
    ComesToHole s.facts.values [p] .empty ∧ ¬ ComesToHole s.facts.values [q, p] .empty ∧
      ∃ found, s.selectBindings [q, p] = .ok found ∧
        ((∃ r ∈ [q, p], r.hasHoles = true) → found = []) := by
  intro s p q
  let history : List Command := [.assert "a" [.identifier "x", .word " ", .number .zero]]
  have hp := selectBindings_faults_iff history [p]
  have hq := selectBindings_faults_iff history [q, p]
  have hfound : s.selectBindings [q, p] = .ok [] := by rfl
  have hmasked : ¬ ComesToHole s.facts.values [q, p] .empty := by
    intro hhole
    have hfault := hq.1.mpr hhole
    rw [hfound] at hfault
    cases hfault
  exact ⟨hp.1.mp (by rfl), hmasked, hq.2 hmasked⟩

end Store

end Blackboard
