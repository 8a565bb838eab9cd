import Blackboard.Proofs.Join
import Blackboard.Proofs.Keys
import Blackboard.Proofs.Removals

/-!
# Retractions and queries

A retraction and a query of the same pattern go two ways. A query matches the pattern with every
fact. A retraction does so only for a pattern with variables or wildcards, and takes away what is
found; any other pattern takes away what stands under its text.

* With variables or wildcards, **a retraction takes away what a query finds**: as many facts as the
  query has solutions, and those are the facts that the pattern matches.
* Whatever the pattern, **a query finds nothing after the retraction**. A fact that a ground pattern
  matches is equal to it, and what is equal has the same text, so it has been taken away by its text
  (`Sentence.strikes_of_accepts`). The text may take away more than is matched; see `Proofs/Keys`.

Both are `Store.retract_selected`.
-/

namespace Blackboard

/-! ## 1. What is matched is struck -/

namespace Sentence

/-- A pattern without holes, variables and wildcards is ground. -/
theorem isGround_of_closed {p : Sentence} (hholes : p.hasHoles = false) (hopen : p.isOpen = false) :
    p.isGround = true := by
  rw [isGround, List.all_eq_true]
  intro t ht
  have hhole : ¬ t.isHole = true := List.any_eq_false.mp hholes t ht
  have hvar : ¬ t.isOpen = true := List.any_eq_false.mp hopen t ht
  cases t <;> simp_all [Term.isGround, Term.isHole, Term.isOpen]

/-- Whether a pattern matches a fact is found out by matching. -/
instance (p : Sentence) (f : Fact) : Decidable (p.Accepts f) :=
  match h : matchSentence p f.terms .empty with
  | .ok (some e) => .isTrue ⟨e, h⟩
  | .ok none => .isFalse fun ⟨_, he⟩ => nomatch h.symm.trans he
  | .error _ => .isFalse fun ⟨_, he⟩ => nomatch h.symm.trans he

section Strikes

variable {p : Sentence} {f : Fact}

theorem accepts_iff_matched (hholes : p.hasHoles = false) (hf : f.terms.isGround = true) :
    p.Accepts f ↔ (Sentence.matched p f.terms .empty).isSome = true := by
  rw [Accepts, matchSentence_eq Env.isGround_empty.findsGround hholes hf, Option.isSome_iff_exists]
  simp only [Except.ok.injEq]

/-- A pattern with variables or wildcards strikes what it matches. -/
theorem strikes_of_isOpen (hopen : p.isOpen = true) : p.strikes f = decide (p.Accepts f) := by
  rw [strikes, if_pos hopen, Bool.eq_iff_iff, decide_eq_true_iff, Accepts]
  rcases matchSentence p f.terms .empty with _ | _ | _ <;> simp

/-- **A fact that a pattern matches is struck by it**, by its text if the pattern is ground. -/
theorem strikes_of_accepts (hholes : p.hasHoles = false) (hf : f.terms.isGround = true)
    (h : p.Accepts f) : p.strikes f = true := by
  cases hopen : p.isOpen with
  | true => rw [strikes_of_isOpen hopen, decide_eq_true h]
  | false =>
    have hequal : equal p f.terms = true :=
      (accepts_iff_equal (isGround_of_closed hholes hopen) hf).mp h
    simp [strikes, hopen, Fact.key, render_eq_of_equal hequal]

end Strikes

end Sentence

/-! ## 2. Queries of one pattern -/

namespace Store

section Single

variable {P : Sentence → Prop} {s : Store} {p : Sentence}

/-- A query of one pattern has a solution for every fact that the pattern matches. -/
theorem Sound.exists_select_single (h : Sound P s) (hholes : p.hasHoles = false) :
    ∃ solutions, s.select [p] = .ok solutions ∧
      solutions.length = s.facts.values.countP fun f => decide (p.Accepts f) := by
  obtain ⟨solutions, hselect, hshown⟩ := h.exists_shown (List.forall_mem_singleton.mpr hholes)
  refine ⟨solutions, hselect, ?_⟩
  have hrows : rows s.facts.values [p].length = s.facts.values.map fun f => [f] := by
    simp [rows, List.map_eq_flatMap]
  rw [← hshown.length_eq, hrows, List.filterMap_map, List.length_filterMap_eq_countP]
  refine List.countP_congr fun f hf => ?_
  rw [decide_eq_true_iff, Sentence.accepts_iff_matched hholes (h.isGround_of_mem hf)]
  simp [Sentence.matchedEach]

/-- Where a pattern matches no fact, a query has no solutions. -/
theorem Sound.select_single_eq_nil (h : Sound P s) (hholes : p.hasHoles = false)
    (hnone : ∀ f ∈ s.facts.values, ¬ p.Accepts f) : s.select [p] = .ok [] := by
  obtain ⟨solutions, hselect, hlength⟩ := h.exists_select_single hholes
  have hzero : solutions.length = 0 := by
    rw [hlength, List.countP_eq_zero]
    intro f hf
    simp [hnone f hf]
  rw [hselect, List.eq_nil_of_length_eq_zero hzero]

end Single

/-! ## 3. Retracting what is selected -/

/-- **A retraction of a pattern with variables or wildcards takes away the facts that the pattern
    matches**, as many as a query has solutions, and leaves the others as they are. **After the
    retraction of any pattern a query finds nothing.** -/
theorem retract_selected (history : List Command) {p : Sentence} (hholes : p.hasHoles = false) :
    let s := empty.after history
    (p.isOpen = true → ∃ solutions, s.select [p] = .ok solutions ∧
      s.retract p = (.ok solutions.length, s.without fun f => decide (p.Accepts f))) ∧
      (s.retract p).2.select [p] = .ok [] := by
  intro s
  have hs : Sound (fun _ => True) s := sound_after history
  rw [hs.retract_eq hholes]
  constructor
  · intro hopen
    obtain ⟨solutions, hselect, hlength⟩ := hs.exists_select_single hholes
    have hstrikes : p.strikes = fun f => decide (p.Accepts f) :=
      funext fun _ => Sentence.strikes_of_isOpen hopen
    exact ⟨solutions, hselect, by rw [hstrikes, hlength]⟩
  · refine (hs.without p.strikes).select_single_eq_nil hholes fun f hf haccepts => ?_
    rw [values_without, List.mem_filter, Bool.not_eq_true'] at hf
    obtain ⟨hmem, hleft⟩ := hf
    rw [Sentence.strikes_of_accepts hholes (hs.isGround_of_mem hmem) haccepts] at hleft
    cases hleft

/-- A pattern with a variable takes away the zeros of both signs, and a ground one the zero of the
    other sign. -/
theorem retract_selected_zeros :
    let history : List Command :=
      [.assert "a" [.identifier "x", .word " ", .number (.ofRank true 0)],
        .assert "b" [.identifier "y", .word " ", .number .zero], .assert "a" [.word "z"]]
    let p : Sentence := [.variable "who", .word " ", .number .zero]
    let q : Sentence := [.identifier "x", .word " ", .number .zero]
    let s := empty.after history
    p.hasHoles = false ∧ q.hasHoles = false ∧ p.isOpen = true ∧
      (∃ solutions, s.select [p] = .ok solutions ∧
        s.retract p = (.ok solutions.length, s.without fun f => decide (p.Accepts f))) ∧
      (s.retract p).2.select [p] = .ok [] ∧ (s.retract q).2.select [q] = .ok [] := by
  intro history p q s
  have hp := retract_selected history (p := p) (by decide)
  have hq := retract_selected history (p := q) (by decide)
  exact ⟨by decide, by decide, by decide, hp.1 (by decide), hp.2, hq.2⟩

end Store

end Blackboard
