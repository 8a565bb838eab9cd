import Blackboard.Proofs.Matching

/-!
# What a match answers

A match of a pattern with a ground fact has two outcomes. If it goes through, it extends the
environment by the variables of the pattern, each at the term of the fact where the variable stands
first, and the pattern then says the fact (`Sentence.Match`). If it does not, no assignment of terms
that agrees with the environment makes the pattern the fact. There is no third outcome
(`matchSentence_decides`).

The first occurrence is forced: a later one, or a term that was bound before, is compared with the
fact, and an assignment has one term for all of them. That is why nothing is lost although the first
failure ends a match (`Sentence.matched_iff`).
-/

namespace Blackboard

/-! ## 1. Extensions -/

namespace Env

/-- Every name that is bound keeps its term. -/
def Extends (e' e : Env) : Prop := ∀ name t, e.lookup name = some t → e'.lookup name = some t

theorem extends_foldl_note (occurrences : List (String × Term)) (e : Env) :
    (occurrences.foldl note e).Extends e := by
  intro name t h
  rw [lookup_foldl_note, h, Option.some_or]

end Env

/-! ## 2. First occurrences -/

section FirstOccurrence

variable {p f : Sentence} {name : String}

/-- The first occurrence of a name is where its variable stands first. -/
theorem Sentence.lookupEntry_occurrences (hlen : p.length = f.length) :
    lookupEntry name (occurrences p f) = f[p.idxOf (.variable name)]? := by
  induction p generalizing f with
  | nil =>
    cases f with
    | nil => rfl
    | cons b f => simp at hlen
  | cons a p ih =>
    cases f with
    | nil => simp at hlen
    | cons b f =>
      have hrest := ih (f := f) (by simpa using hlen)
      by_cases ha : a = .variable name
      · subst ha
        simp [occurrences, Term.occurrence, lookupEntry]
      · -- no entry of the name stands before the rest
        have hskip : lookupEntry name (occurrences (a :: p) (b :: f)) =
            lookupEntry name (occurrences p f) := by
          cases a with
          | «variable» m =>
            have hne : name ≠ m := fun heq => ha (by rw [heq])
            simp [occurrences, Term.occurrence, lookupEntry, hne]
          | _ => rfl
        rw [hskip, hrest, List.idxOf_cons_ne _ ha, List.getElem?_cons_succ]

end FirstOccurrence

/-! ## 3. Patterns under an environment -/

/-- The term that an environment makes of a term: variables that are bound give way to their
    terms. -/
def Term.under (e : Env) : Term → Term
  | .variable name => (e.lookup name).getD (.variable name)
  | t => t

/-- An environment makes a pattern a fact, place by place; a wildcard stands for every term. -/
def Sentence.Becomes (e : Env) (p f : Sentence) : Prop :=
  List.Forall₂ (fun a b => a = .wildcard ∨ (a.under e).equal b = true) p f

/-- What a term has become stays so in every extension. -/
theorem Term.becomes_of_extends {a b : Term} {e e' : Env} (h : e'.Extends e) (hb : b.isGround = true)
    (hab : a = .wildcard ∨ (a.under e).equal b = true) :
    a = .wildcard ∨ (a.under e').equal b = true := by
  refine hab.imp_right fun hab => ?_
  cases a with
  | «variable» name =>
    cases hl : e.lookup name with
    | some t => simpa [under, hl, h name t hl] using hab
    | none =>
      -- an unbound variable equals no ground term
      simp only [under, hl, Option.getD_none] at hab
      cases b <;> simp [equal, isGround] at hab hb
  | _ => exact hab

/-- After a match, the term of the pattern says the term of the fact. -/
theorem Term.becomes_of_matched {a b : Term} {e e' : Env} (hb : b.isNaN = false)
    (h : a.matched b e = some e') : a = .wildcard ∨ (a.under e').equal b = true := by
  cases a with
  | wildcard => exact Or.inl rfl
  | «variable» name =>
    right
    cases hl : e.lookup name with
    | none =>
      simp only [matched, hl, Option.some.injEq] at h
      simpa [under, ← h] using equal_self hb
    | some t =>
      simp only [matched, hl, Option.ite_none_right_eq_some, Option.some.injEq] at h
      simpa [under, ← h.2, hl] using h.1
  | _ =>
    simp only [matched, Option.ite_none_right_eq_some] at h
    exact Or.inr h.1

theorem Sentence.extends_of_matched {p f : Sentence} {e e' : Env}
    (h : Sentence.matched p f e = some e') : e'.Extends e := by
  rw [eq_note_of_matched h]
  exact Env.extends_foldl_note _ e

/-- **After a match, the pattern says the fact**: the later terms only extend what the earlier ones
    have bound. -/
theorem Sentence.becomes_of_matched {p f : Sentence} {e e' : Env} (hf : f.isGround = true)
    (hnan : f.hasNaN = false) (h : Sentence.matched p f e = some e') : Becomes e' p f := by
  induction p generalizing f e with
  | nil =>
    cases f with
    | nil => exact .nil
    | cons b f => cases h
  | cons a p ih =>
    cases f with
    | nil => cases h
    | cons b f =>
      simp only [isGround, List.all_cons, Bool.and_eq_true] at hf
      simp only [hasNaN, List.any_cons, Bool.or_eq_false_iff] at hnan
      obtain ⟨e₁, h₁, h₂⟩ := Option.bind_eq_some_iff.mp h
      refine .cons ?_ (ih hf.2 hnan.2 h₂)
      exact Term.becomes_of_extends (extends_of_matched h₂) hf.1
        (Term.becomes_of_matched hnan.1 h₁)

/-! ## 4. The two outcomes -/

/-- A match of a pattern with a fact that has extended an environment. -/
structure Sentence.Match (p f : Sentence) (e e' : Env) : Prop where
  /-- The pattern is as long as the fact. -/
  length_eq : p.length = f.length
  /-- What was bound keeps its term. -/
  keeps : e'.Extends e
  /-- The variables are those that were bound and those of the pattern. -/
  names : ∀ name, (e'.lookup name).isSome ↔ (e.lookup name).isSome ∨ .variable name ∈ p
  /-- A new variable is bound to the term of the fact where it stands first. -/
  first : ∀ name, e.lookup name = none → e'.lookup name = f[p.idxOf (.variable name)]?
  /-- With its variables replaced, the pattern is the fact. -/
  becomes : Becomes e' p f

section Outcomes

variable {p f : Sentence} {e e' : Env}

theorem Sentence.match_of_matched (hf : f.isGround = true) (hnan : f.hasNaN = false)
    (h : Sentence.matched p f e = some e') : Match p f e e' := by
  have hbecomes := becomes_of_matched hf hnan h
  have hlen : p.length = f.length := hbecomes.length_eq
  have hlookup : ∀ name, e'.lookup name =
      (e.lookup name).or f[p.idxOf (.variable name)]? := by
    intro name
    rw [eq_note_of_matched h, Env.lookup_foldl_note, lookupEntry_occurrences hlen]
  exact {
    length_eq := hlen
    keeps := extends_of_matched h
    names := fun name => by
      rw [hlookup, Option.isSome_or, Bool.or_eq_true, isSome_getElem?, ← hlen,
        List.idxOf_lt_length_iff]
    first := fun name hl => by rw [hlookup, hl, Option.none_or]
    becomes := hbecomes }

/-- If a match does not go through, no assignment that agrees with the environment fits. -/
theorem Sentence.not_fits_of_matched (h : Sentence.matched p f e = none) {σ : Assignment}
    (hσ : e.Agrees σ) : ¬ Fits σ p f := by
  intro hfits
  obtain ⟨e', he', -⟩ := matched_iff.mpr ⟨hσ, hfits⟩
  rw [h] at he'
  cases he'

/-- **A match decides**: it extends the environment, or no assignment fits. It never faults. -/
theorem matchSentence_decides (hp : p.hasHoles = false) (hf : f.isGround = true)
    (hnan : f.hasNaN = false) (he : e.FindsGround) :
    (∃ e', matchSentence p f e = .ok (some e') ∧ Sentence.Match p f e e') ∨
      (matchSentence p f e = .ok none ∧ ∀ σ : Assignment, e.Agrees σ → ¬ Sentence.Fits σ p f) := by
  rw [matchSentence_eq he hp hf]
  cases h : Sentence.matched p f e with
  | some e' => exact Or.inl ⟨e', rfl, Sentence.match_of_matched hf hnan h⟩
  | none => exact Or.inr ⟨rfl, fun _ => Sentence.not_fits_of_matched h⟩

/-- A bound variable meets the zero of the other sign, and a new one stands in two places. -/
theorem matchSentence_decides_zeros :
    let p : Sentence := [.variable "x", .word " ", .variable "n", .wildcard, .variable "x"]
    let f : Sentence := [.identifier "a", .word " ", .number (.ofRank true 0), .identifier "b",
      .identifier "a"]
    let e : Env := Env.empty.bind "n" (.number .zero)
    p.hasHoles = false ∧ f.isGround = true ∧ f.hasNaN = false ∧ e.FindsGround ∧
      ∃ e', matchSentence p f e = .ok (some e') ∧ Sentence.Match p f e e' := by
  intro p f e
  have he : e.FindsGround := Env.isGround_empty.findsGround.bind rfl "n"
  refine ⟨by decide, by decide, by decide, he, ?_⟩
  refine (matchSentence_decides (by decide) (by decide) (by decide) he).resolve_right ?_
  rintro ⟨hnone, -⟩
  revert hnone
  decide

end Outcomes

end Blackboard
