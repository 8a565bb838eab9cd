import Blackboard.Proofs.Bindings
import Blackboard.Proofs.Equality
import Blackboard.Match.Matching

/-!
# Matching against ground facts

Against ground facts, under environments that bind ground terms, matching faults only if it comes to
a hole of the pattern (`matchSentence_eq_ite`). What it does otherwise is said by three functions
without faults: `Term.matched`, `Sentence.matched` and `Sentence.matchedEach` for a term, a sentence
and a row of sentences.

What they accept is said by assignments. A pattern FITS a fact under an assignment of terms to
variables if, place by place, what the assignment makes of the pattern equals the fact; a wildcard
fits everything. **A match extends the environment to one that agrees with exactly those assignments
that agreed before and under which the pattern fits** (`Sentence.matched_iff`). So binding a variable
at its first occurrence loses no assignment, and no case split over the outcome of a match is needed
later on.

What a match binds is said by the list of all occurrences of variables: the first one of each name
counts (`Sentence.eq_note_of_matchedEach`).
-/

namespace Blackboard

/-! ## 1. Environments -/

namespace Env

/-- Only ground terms are bound. -/
def IsGround (e : Env) : Prop := ∀ b ∈ e.frames, b.2.isGround = true

/-- Only ground terms are found; a frame behind a later one of its name may hold anything. -/
def FindsGround (e : Env) : Prop := ∀ name t, e.lookup name = some t → t.isGround = true

theorem isGround_empty : IsGround empty := fun _ h => absurd h List.not_mem_nil

theorem IsGround.bind {e : Env} (h : e.IsGround) {t : Term} (ht : t.isGround = true)
    (name : String) : (e.bind name t).IsGround := by
  intro b hb
  rcases List.mem_cons.mp hb with rfl | hb
  · exact ht
  · exact h b hb

theorem IsGround.findsGround {e : Env} (h : e.IsGround) : e.FindsGround :=
  fun name t ht => h (name, t) (OrderedMap.mem_of_lookupEntry ht)

theorem FindsGround.bind {e : Env} (h : e.FindsGround) {t : Term} (ht : t.isGround = true)
    (name : String) : (e.bind name t).FindsGround := by
  intro m u hm
  rw [lookup_bind] at hm
  split at hm
  · cases hm
    exact ht
  · exact h m u hm

end Env

/-! ## 2. Matching without faults -/

/-- The environment after a match of a term, where no fault is possible. -/
def Term.matched : Term → Term → Env → Option Env
  | .wildcard, _, e => some e
  | .variable name, f, e =>
    match e.lookup name with
    | none => some (e.bind name f)
    | some t => if t.equal f then some e else none
  | p, f, e => if p.equal f then some e else none

/-- The environment after a match of a sentence, where no fault is possible. -/
def Sentence.matched : Sentence → Sentence → Env → Option Env
  | [], [], e => some e
  | p :: ps, f :: fs, e => (p.matched f e).bind (Sentence.matched ps fs)
  | _, _, _ => none

/-- The environment after the matches of a row of sentences with a row of sentences. -/
def Sentence.matchedEach : List Sentence → List Sentence → Env → Option Env
  | [], [], e => some e
  | p :: ps, f :: fs, e => (Sentence.matched p f e).bind (matchedEach ps fs)
  | _, _, _ => none

/-- A match leaves the environment as it was or binds one name to the fact. -/
theorem Term.eq_or_bind_of_matched {p f : Term} {e e' : Env} (h : p.matched f e = some e') :
    e' = e ∨ ∃ name, e' = e.bind name f := by
  unfold Term.matched at h
  split at h
  · exact Or.inl (Option.some.inj h).symm
  · split at h
    · exact Or.inr ⟨_, (Option.some.inj h).symm⟩
    · exact Or.inl (Option.some.inj (Option.ite_none_right_eq_some.mp h).2).symm
  · exact Or.inl (Option.some.inj (Option.ite_none_right_eq_some.mp h).2).symm

theorem Term.isGround_of_matched {p f : Term} {e e' : Env} (he : e.IsGround)
    (hf : f.isGround = true) (h : p.matched f e = some e') : e'.IsGround := by
  rcases eq_or_bind_of_matched h with rfl | ⟨name, rfl⟩
  · exact he
  · exact he.bind hf name

theorem Term.findsGround_of_matched {p f : Term} {e e' : Env} (he : e.FindsGround)
    (hf : f.isGround = true) (h : p.matched f e = some e') : e'.FindsGround := by
  rcases eq_or_bind_of_matched h with rfl | ⟨name, rfl⟩
  · exact he
  · exact he.bind hf name

theorem Sentence.isGround_of_matched {p f : Sentence} {e e' : Env} (he : e.IsGround)
    (hf : f.isGround = true) (h : Sentence.matched p f e = some e') : e'.IsGround := by
  induction p generalizing f e with
  | nil =>
    cases f with
    | nil =>
      cases h
      exact he
    | cons b f => cases h
  | cons a p ih =>
    cases f with
    | nil => cases h
    | cons b f =>
      simp only [isGround, List.all_cons, Bool.and_eq_true] at hf
      obtain ⟨e₁, h₁, h₂⟩ := Option.bind_eq_some_iff.mp h
      exact ih (Term.isGround_of_matched he hf.1 h₁) hf.2 h₂

theorem Sentence.isGround_of_matchedEach {ps fs : List Sentence} {e e' : Env} (he : e.IsGround)
    (hf : ∀ f ∈ fs, f.isGround = true) (h : matchedEach ps fs e = some e') : e'.IsGround := by
  induction ps generalizing fs e with
  | nil =>
    cases fs with
    | nil =>
      cases h
      exact he
    | cons f fs => cases h
  | cons p ps ih =>
    cases fs with
    | nil => cases h
    | cons f fs =>
      obtain ⟨e₁, h₁, h₂⟩ := Option.bind_eq_some_iff.mp h
      have he₁ := isGround_of_matched he (hf f List.mem_cons_self) h₁
      exact ih he₁ (fun g hg => hf g (List.mem_cons_of_mem _ hg)) h₂

/-- A ground term that stands for a variable is compared with the fact. -/
theorem matchTermWithin_ground {t f : Term} (ht : t.isGround = true) (hf : f.isGround = true)
    (steps : Nat) (e : Env) :
    matchTermWithin steps t f e = .ok (if t.equal f then some e else none) := by
  cases t <;> cases f <;> simp_all [matchTermWithin, Term.isGround]

/-- **Matching a term without a fault.** -/
theorem matchTerm_eq {p f : Term} {e : Env} (he : e.FindsGround) (hp : p.isHole = false)
    (hf : f.isGround = true) : matchTerm p f e = .ok (p.matched f e) := by
  unfold matchTerm
  cases p with
  | hole => cases hp
  | wildcard => cases f <;> simp_all [matchTermWithin, Term.isGround, Term.matched]
  | «variable» name =>
    cases hl : e.lookup name with
    | none => cases f <;> simp_all [matchTermWithin, Term.isGround, Term.matched]
    | some t =>
      have hpos : 0 < e.size := List.length_pos_of_mem (OrderedMap.mem_of_lookupEntry hl)
      obtain ⟨n, hn⟩ := Nat.exists_eq_add_of_lt hpos
      have hstep : matchTermWithin (n + 1) (.variable name) f e = matchTermWithin n t f e := by
        cases f <;> simp_all [matchTermWithin, Term.isGround]
      rw [hn, Nat.zero_add, hstep, matchTermWithin_ground (he _ _ hl) hf]
      simp [Term.matched, hl]
  | identifier _ => exact matchTermWithin_ground rfl hf _ _
  | word _ => exact matchTermWithin_ground rfl hf _ _
  | literal _ => exact matchTermWithin_ground rfl hf _ _
  | blobRef _ => exact matchTermWithin_ground rfl hf _ _

theorem Sentence.matched_of_length_ne {p f : Sentence} (h : p.length ≠ f.length) (e : Env) :
    Sentence.matched p f e = none := by
  induction p generalizing f e with
  | nil =>
    cases f with
    | nil => exact absurd rfl h
    | cons b f => rfl
  | cons a p ih =>
    cases f with
    | nil => rfl
    | cons b f =>
      have h' : p.length ≠ f.length := fun hl => h (by simp [hl])
      unfold Sentence.matched
      cases a.matched b e with
      | none => rfl
      | some e₁ => exact ih h' e₁

/-! ## 3. Holes -/

/-- The fault of a query that comes to a hole. -/
def holeFault : Failure := .matchFault .holeInQuery

/-- A pattern has a hole, and the fact is matched up to there. -/
def Sentence.StopsAtHole (p f : Sentence) (e : Env) : Prop :=
  ∃ j e', p[j]? = some .hole ∧ matchAll (p.take j) (f.take j) e = .ok (some e')

/-- A match comes to a hole: the fact is as long as the pattern and is matched up to there. -/
def Sentence.MeetsHole (p f : Sentence) (e : Env) : Prop :=
  p.length = f.length ∧ p.StopsAtHole f e

namespace Sentence

theorem not_stopsAtHole_nil (f : Sentence) (e : Env) : ¬ StopsAtHole [] f e := by
  rintro ⟨j, e', hj, -⟩
  cases hj

theorem stopsAtHole_hole (p : Sentence) (b : Term) (f : Sentence) (e : Env) :
    StopsAtHole (.hole :: p) (b :: f) e :=
  ⟨0, e, rfl, rfl⟩

/-- Behind a term that is no hole, a hole is come to if the term matches. -/
theorem stopsAtHole_cons {a b : Term} {p f : Sentence} {e : Env} (ha : a.isHole = false) :
    StopsAtHole (a :: p) (b :: f) e ↔
      ∃ e₁, matchTerm a b e = .ok (some e₁) ∧ StopsAtHole p f e₁ := by
  constructor
  · rintro ⟨j, e', hj, hmatch⟩
    cases j with
    | zero =>
      obtain rfl : a = .hole := Option.some.inj hj
      cases ha
    | succ j =>
      simp only [List.take_succ_cons, matchAll] at hmatch
      split at hmatch
      · exact ⟨_, ‹_›, j, e', hj, hmatch⟩
      · rename_i hfailed
        exact absurd hmatch (hfailed e')
  · rintro ⟨e₁, h₁, j, e', hj, hmatch⟩
    refine ⟨j + 1, e', hj, ?_⟩
    rw [List.take_succ_cons, List.take_succ_cons, matchAll, h₁]
    exact hmatch

/-- A pattern with a hole matches no ground fact. -/
theorem hasHoles_of_matched {p f : Sentence} {e e' : Env} (hf : f.isGround = true)
    (h : Sentence.matched p f e = some e') : p.hasHoles = false := by
  induction p generalizing f e with
  | nil => rfl
  | cons a p ih =>
    cases f with
    | nil => cases h
    | cons b f =>
      simp only [isGround, List.all_cons, Bool.and_eq_true] at hf
      obtain ⟨e₁, h₁, h₂⟩ := Option.bind_eq_some_iff.mp h
      rw [hasHoles, List.any_cons, Bool.or_eq_false_iff]
      refine ⟨?_, ih hf.2 h₂⟩
      cases a with
      | hole => cases b <;> simp_all [Term.matched, Term.equal, Term.isGround]
      | _ => rfl

theorem hasHoles_of_matchedEach {ps fs : List Sentence} {e e' : Env}
    (hf : ∀ f ∈ fs, f.isGround = true) (h : matchedEach ps fs e = some e') :
    ∀ p ∈ ps, p.hasHoles = false := by
  induction ps generalizing fs e with
  | nil => exact fun p hp => absurd hp List.not_mem_nil
  | cons p ps ih =>
    cases fs with
    | nil => cases h
    | cons f fs =>
      obtain ⟨e₁, h₁, h₂⟩ := Option.bind_eq_some_iff.mp h
      intro q hq
      rcases List.mem_cons.mp hq with rfl | hq
      · exact hasHoles_of_matched (hf f List.mem_cons_self) h₁
      · exact ih (fun g hg => hf g (List.mem_cons_of_mem _ hg)) h₂ q hq

end Sentence

theorem matchTerm_hole (b : Term) (e : Env) : matchTerm .hole b e = .error holeFault := by
  unfold matchTerm matchTermWithin
  rfl

open scoped Classical in
theorem matchAll_eq_ite {p f : Sentence} {e : Env} (he : e.FindsGround) (hf : f.isGround = true)
    (hlen : p.length = f.length) :
    matchAll p f e =
      if p.StopsAtHole f e then .error holeFault else .ok (Sentence.matched p f e) := by
  induction p generalizing f e with
  | nil =>
    cases f with
    | nil => rw [if_neg (Sentence.not_stopsAtHole_nil [] e)]; rfl
    | cons b f => simp at hlen
  | cons a p ih =>
    cases f with
    | nil => simp at hlen
    | cons b f =>
      simp only [Sentence.isGround, List.all_cons, Bool.and_eq_true] at hf
      cases ha : a.isHole with
      | true =>
        obtain rfl : a = .hole := by cases a <;> simp_all [Term.isHole]
        rw [if_pos (Sentence.stopsAtHole_hole p b f e), matchAll, matchTerm_hole]
      | false =>
        rw [matchAll, Sentence.stopsAtHole_cons ha, matchTerm_eq he ha hf.1]
        cases h : a.matched b e with
        | none => simp [Sentence.matched, h]
        | some e₁ =>
          have hrest := ih (Term.findsGround_of_matched he hf.1 h) hf.2 (by simpa using hlen)
          simpa [Sentence.matched, h] using hrest

open scoped Classical in
/-- **Matching a ground fact faults exactly if it comes to a hole.** -/
theorem matchSentence_eq_ite {p f : Sentence} {e : Env} (he : e.FindsGround)
    (hf : f.isGround = true) :
    matchSentence p f e =
      if p.MeetsHole f e then .error holeFault else .ok (Sentence.matched p f e) := by
  unfold matchSentence
  split
  · rename_i hlen
    rw [matchAll_eq_ite he hf hlen]
    simp only [Sentence.MeetsHole, hlen, true_and]
  · rename_i hlen
    rw [if_neg fun h => hlen h.1, Sentence.matched_of_length_ne hlen]

/-- A pattern without holes meets none. -/
theorem Sentence.not_meetsHole {p : Sentence} (hp : p.hasHoles = false) (f : Sentence) (e : Env) :
    ¬ p.MeetsHole f e := by
  rintro ⟨-, j, e', hj, -⟩
  have hhole : Term.hole ∈ p := List.mem_of_getElem? hj
  simpa [Term.isHole] using List.any_eq_false.mp hp .hole hhole

/-- **Matching a sentence without a fault.** -/
theorem matchSentence_eq {p f : Sentence} {e : Env} (he : e.FindsGround)
    (hp : p.hasHoles = false) (hf : f.isGround = true) :
    matchSentence p f e = .ok (Sentence.matched p f e) := by
  rw [matchSentence_eq_ite he hf, if_neg (Sentence.not_meetsHole hp f e)]

/-! ## 4. Assignments -/

/-- A term for every variable. -/
abbrev Assignment := String → Term

/-- Whether a term of a pattern, with its variable replaced, equals a term of a fact. A wildcard
    stands for every term. -/
def Term.fits (σ : Assignment) : Term → Term → Bool
  | .wildcard, _ => true
  | .variable name, f => (σ name).equal f
  | p, f => p.equal f

/-- A pattern, with its variables replaced, equals a fact, place by place and in its length. -/
def Sentence.Fits (σ : Assignment) (p f : Sentence) : Prop :=
  List.Forall₂ (fun a b => a.fits σ b = true) p f

/-- An assignment gives every bound variable a term that equals the one it is bound to. -/
def Env.Agrees (e : Env) (σ : Assignment) : Prop :=
  ∀ name t, e.lookup name = some t → (σ name).equal t = true

theorem Env.agrees_empty (σ : Assignment) : Env.empty.Agrees σ := fun _ _ h => nomatch h

theorem Env.agrees_bind {e : Env} {σ : Assignment} {name : String} {t : Term}
    (hl : e.lookup name = none) :
    (e.bind name t).Agrees σ ↔ e.Agrees σ ∧ (σ name).equal t = true := by
  constructor
  · intro h
    refine ⟨fun m u hm => ?_, h name t (by simp)⟩
    have hne : m ≠ name := fun heq => by simp [heq, hl] at hm
    exact h m u (by simp [hne, hm])
  · rintro ⟨h, ht⟩ m u hm
    by_cases hne : m = name
    · subst hne
      simp only [lookup_bind, if_true, Option.some.injEq] at hm
      exact hm ▸ ht
    · exact h m u (by simpa [hne] using hm)

/-- A match keeps exactly the assignments under which the term fits. -/
theorem Term.matched_iff {σ : Assignment} {p f : Term} {e : Env} :
    (∃ e', p.matched f e = some e' ∧ e'.Agrees σ) ↔ e.Agrees σ ∧ p.fits σ f = true := by
  have hcompare : ∀ t : Term,
      (∃ e', (if t.equal f then some e else none) = some e' ∧ e'.Agrees σ) ↔
        e.Agrees σ ∧ t.equal f = true := by
    intro t
    cases t.equal f <;> simp
  cases p with
  | wildcard => simp [matched, fits]
  | «variable» name =>
    cases hl : e.lookup name with
    | none => simp [matched, fits, hl, Env.agrees_bind hl]
    | some t =>
      simp only [matched, fits, hl, hcompare]
      -- the bound term and the assigned one are equal, so they equal the same facts
      constructor
      · rintro ⟨he, ht⟩
        exact ⟨he, equal_trans (he name t hl) ht⟩
      · rintro ⟨he, ht⟩
        exact ⟨he, equal_trans (equal_symm (he name t hl)) ht⟩
  | identifier _ => exact hcompare _
  | word _ => exact hcompare _
  | literal _ => exact hcompare _
  | blobRef _ => exact hcompare _
  | hole => exact hcompare _

/-- **A match keeps exactly the assignments under which the pattern fits.** -/
theorem Sentence.matched_iff {σ : Assignment} {p f : Sentence} {e : Env} :
    (∃ e', Sentence.matched p f e = some e' ∧ e'.Agrees σ) ↔ e.Agrees σ ∧ Fits σ p f := by
  induction p generalizing f e with
  | nil =>
    cases f with
    | nil => simp [Sentence.matched, Fits]
    | cons b f => simp [Sentence.matched, Fits]
  | cons a p ih =>
    cases f with
    | nil => simp [Sentence.matched, Fits]
    | cons b f =>
      simp only [Fits, List.forall₂_cons, ← and_assoc, ← Term.matched_iff]
      constructor
      · rintro ⟨e', h, hσ⟩
        obtain ⟨e₁, h₁, h₂⟩ := Option.bind_eq_some_iff.mp h
        obtain ⟨hσ₁, hfits⟩ := ih.mp ⟨e', h₂, hσ⟩
        exact ⟨⟨e₁, h₁, hσ₁⟩, hfits⟩
      · rintro ⟨⟨e₁, h₁, hσ₁⟩, hfits⟩
        obtain ⟨e', h₂, hσ⟩ := ih.mpr ⟨hσ₁, hfits⟩
        exact ⟨e', Option.bind_eq_some_iff.mpr ⟨e₁, h₁, h₂⟩, hσ⟩

/-- Matching a row keeps exactly the assignments under which every pattern fits its fact. -/
theorem Sentence.matchedEach_iff {σ : Assignment} {ps fs : List Sentence} {e : Env} :
    (∃ e', matchedEach ps fs e = some e' ∧ e'.Agrees σ) ↔
      e.Agrees σ ∧ List.Forall₂ (Fits σ) ps fs := by
  induction ps generalizing fs e with
  | nil => cases fs <;> simp [matchedEach]
  | cons p ps ih =>
    cases fs with
    | nil => simp [matchedEach]
    | cons f fs =>
      simp only [List.forall₂_cons, ← and_assoc, ← Sentence.matched_iff]
      constructor
      · rintro ⟨e', h, hσ⟩
        obtain ⟨e₁, h₁, h₂⟩ := Option.bind_eq_some_iff.mp h
        obtain ⟨hσ₁, hfits⟩ := ih.mp ⟨e', h₂, hσ⟩
        exact ⟨⟨e₁, h₁, hσ₁⟩, hfits⟩
      · rintro ⟨⟨e₁, h₁, hσ₁⟩, hfits⟩
        obtain ⟨e', h₂, hσ⟩ := ih.mpr ⟨hσ₁, hfits⟩
        exact ⟨e', Option.bind_eq_some_iff.mpr ⟨e₁, h₁, h₂⟩, hσ⟩

/-! ## 5. What a match binds -/

/-- The occurrence of a variable, with the term that stands in its place. -/
def Term.occurrence : Term → Term → List (String × Term)
  | .variable name, f => [(name, f)]
  | _, _ => []

/-- The occurrences of variables in a pattern, with the terms that stand in their places. -/
def Sentence.occurrences : Sentence → Sentence → List (String × Term)
  | a :: p, b :: f => a.occurrence b ++ occurrences p f
  | _, _ => []

/-- The occurrences of variables in a row of patterns. -/
def Sentence.occurrencesEach : List Sentence → List Sentence → List (String × Term)
  | p :: ps, f :: fs => occurrences p f ++ occurrencesEach ps fs
  | _, _ => []

/-- The variables of a sentence, from left to right. -/
def Sentence.varNames : Sentence → List String
  | [] => []
  | .variable name :: s => name :: varNames s
  | _ :: s => varNames s

/-- What stands in the place of a variable is a term of a fact. -/
theorem Sentence.mem_of_mem_occurrences {p f : Sentence} {name : String} {t : Term}
    (h : (name, t) ∈ occurrences p f) : t ∈ f := by
  induction p generalizing f with
  | nil => cases h
  | cons a p ih =>
    cases f with
    | nil => cases h
    | cons b f =>
      rcases List.mem_append.mp h with h | h
      · cases a <;> simp_all [Term.occurrence]
      · exact List.mem_cons_of_mem _ (ih h)

theorem Sentence.mem_of_mem_occurrencesEach {ps fs : List Sentence} {name : String} {t : Term}
    (h : (name, t) ∈ occurrencesEach ps fs) : ∃ f ∈ fs, t ∈ f := by
  induction ps generalizing fs with
  | nil => cases h
  | cons p ps ih =>
    cases fs with
    | nil => cases h
    | cons f fs =>
      rcases List.mem_append.mp h with h | h
      · exact ⟨f, List.mem_cons_self, mem_of_mem_occurrences h⟩
      · obtain ⟨g, hg, ht⟩ := ih h
        exact ⟨g, List.mem_cons_of_mem _ hg, ht⟩

/-- In rows of the same length, every variable has an occurrence. -/
theorem Sentence.names_occurrences {p f : Sentence} (h : p.length = f.length) :
    (occurrences p f).map Prod.fst = varNames p := by
  induction p generalizing f with
  | nil => rfl
  | cons a p ih =>
    cases f with
    | nil => simp at h
    | cons b f => cases a <;> simp [occurrences, Term.occurrence, varNames, ih (by simpa using h)]

theorem Sentence.names_occurrencesEach {σ : Assignment} {ps fs : List Sentence}
    (h : List.Forall₂ (Fits σ) ps fs) :
    (occurrencesEach ps fs).map Prod.fst = ps.flatMap varNames := by
  induction h with
  | nil => rfl
  | cons hpf _ ih => simp [occurrencesEach, ih, names_occurrences hpf.length_eq]

theorem Term.eq_note_of_matched {p f : Term} {e e' : Env} (h : p.matched f e = some e') :
    e' = (p.occurrence f).foldl Env.note e := by
  cases p with
  | «variable» name =>
    cases hl : e.lookup name with
    | none =>
      simp only [matched, hl, Option.some.injEq] at h
      simp [occurrence, Env.note, hl, h]
    | some t =>
      simp only [matched, hl, Option.ite_none_right_eq_some, Option.some.injEq] at h
      simp [occurrence, Env.note, hl, ← h.2]
  | wildcard => simp_all [matched, occurrence]
  | _ =>
    simp only [matched, Option.ite_none_right_eq_some, Option.some.injEq] at h
    exact h.2.symm

theorem Sentence.eq_note_of_matched {p f : Sentence} {e e' : Env}
    (h : Sentence.matched p f e = some e') : e' = (occurrences p f).foldl Env.note e := by
  induction p generalizing f e with
  | nil =>
    cases f with
    | nil => exact (Option.some.inj h).symm
    | cons b f => cases h
  | cons a p ih =>
    cases f with
    | nil => cases h
    | cons b f =>
      obtain ⟨e₁, h₁, h₂⟩ := Option.bind_eq_some_iff.mp h
      rw [occurrences, List.foldl_append, ← Term.eq_note_of_matched h₁]
      exact ih h₂

/-- **A match of a row binds every variable at its first occurrence.** -/
theorem Sentence.eq_note_of_matchedEach {ps fs : List Sentence} {e e' : Env}
    (h : matchedEach ps fs e = some e') : e' = (occurrencesEach ps fs).foldl Env.note e := by
  induction ps generalizing fs e with
  | nil =>
    cases fs with
    | nil => exact (Option.some.inj h).symm
    | cons f fs => cases h
  | cons p ps ih =>
    cases fs with
    | nil => cases h
    | cons f fs =>
      obtain ⟨e₁, h₁, h₂⟩ := Option.bind_eq_some_iff.mp h
      rw [occurrencesEach, List.foldl_append, ← Sentence.eq_note_of_matched h₁]
      exact ih h₂

/-- What the matches of a row bind is a term of one of the facts. -/
theorem Sentence.mem_of_matchedEach {ps fs : List Sentence} {e : Env}
    (h : matchedEach ps fs .empty = some e) {name : String} {t : Term}
    (ht : e.lookup name = some t) : ∃ f ∈ fs, t ∈ f := by
  have hnoted : e = Env.noted (occurrencesEach ps fs) := eq_note_of_matchedEach h
  rw [hnoted, Env.lookup_noted] at ht
  exact mem_of_mem_occurrencesEach (OrderedMap.mem_of_lookupEntry ht)

/-- Where the facts are ground and without NaN, so is what the matches of a row bind. -/
theorem Sentence.plain_of_matchedEach {ps fs : List Sentence}
    (hfs : ∀ f ∈ fs, f.isGround = true ∧ f.hasNaN = false) {e : Env}
    (h : matchedEach ps fs .empty = some e) {name : String} {t : Term}
    (ht : e.lookup name = some t) : t.isGround = true ∧ t.isNaN = false := by
  obtain ⟨f, hf, htf⟩ := mem_of_matchedEach h ht
  obtain ⟨hground, hnan⟩ := hfs f hf
  exact ⟨List.all_eq_true.mp hground t htf, by simpa using List.any_eq_false.mp hnan t htf⟩

end Blackboard
