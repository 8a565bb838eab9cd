import Blackboard.Proofs.Join
import Mathlib.Data.List.Perm.Basic
import Mathlib.Data.Multiset.Bind

/-!
# The order of patterns

A query goes through its patterns from left to right, and a variable is bound where it stands first.
In another order of the patterns other places bind and other places are compared, so a solution may
show another of several equal terms. That is all that changes: **the solutions of a query are, up to
their order and up to equality of their values, those of the query with its patterns in any other
order** (`Store.select_perm`).

A row of facts is told by its pairings, each pattern with its fact. Putting the patterns into another
order puts the pairings into another order (`pairings_perm`), and the environment that a row of
pairings leaves behind agrees with exactly the assignments under which every pattern fits its fact
(`Env.ofPairing_iff`), which does not speak of an order. Two environments that agree with the same
assignments bind the same names to equal terms (`Env.alike_of_agrees`).
-/

namespace Blackboard

/-! ## 1. Lists up to their order -/

section Rearranged

variable {α β γ δ : Type} {R : α → β → Prop}

/-- The elements of a list stand for those of another, each for one, in any order. -/
def Rearranged (R : α → β → Prop) (l : List α) (l' : List β) : Prop :=
  ∃ m, List.Forall₂ R l m ∧ m.Perm l'

theorem rearranged_of_rel {l : List α} {l' : List β} (h : Multiset.Rel R l l') :
    Rearranged R l l' := by
  induction l generalizing l' with
  | nil =>
    obtain rfl : l' = [] := (Multiset.coe_eq_zero l').mp (Multiset.rel_zero_left.mp h)
    exact ⟨[], .nil, .nil⟩
  | cons a l ih =>
    rw [← Multiset.cons_coe, Multiset.rel_cons_left] at h
    obtain ⟨b, t, hab, ht, hl'⟩ := h
    obtain ⟨l'', rfl⟩ := Quot.exists_rep t
    obtain ⟨m, hm, hperm⟩ := ih ht
    exact ⟨b :: m, .cons hab hm, (hperm.cons b).trans (Multiset.coe_eq_coe.mp hl').symm⟩

theorem Rearranged.length_eq {l : List α} {l' : List β} (h : Rearranged R l l') :
    l.length = l'.length := by
  obtain ⟨m, hm, hperm⟩ := h
  rw [hm.length_eq, hperm.length_eq]

/-- What is kept of rearranged lists is rearranged. -/
theorem Rearranged.filterMap {S : γ → δ → Prop} {f : α → Option γ} {g : β → Option δ}
    {l : List α} {l' : List β} (h : Rearranged (fun a b => Option.Rel S (f a) (g b)) l l') :
    Rearranged S (l.filterMap f) (l'.filterMap g) := by
  obtain ⟨m, hm, hperm⟩ := h
  exact ⟨m.filterMap g, List.rel_filterMap (fun _ _ h => h) hm, hperm.filterMap g⟩

/-- What is shown of rearranged lists is rearranged. -/
theorem Rearranged.shown {A : α → γ → Prop} {B : β → δ → Prop} {S : γ → δ → Prop} {l : List α}
    {l' : List β} {s : List γ} {s' : List δ} (h : Rearranged R l l') (hs : List.Forall₂ A l s)
    (hs' : List.Forall₂ B l' s') (hshown : ∀ a b c d, R a b → A a c → B b d → S c d) :
    Rearranged S s s' := by
  obtain ⟨m, hm, hperm⟩ := h
  obtain ⟨m', hm', hperm'⟩ := List.perm_comp_forall₂ hperm hs'
  refine ⟨m', ?_, hperm'⟩
  clear hperm hperm' hs'
  induction hm generalizing s m' with
  | nil =>
    cases hs
    cases hm'
    exact .nil
  | cons hab _ ih =>
    cases hs with
    | cons hac hs =>
      cases hm' with
      | cons hbd hm' => exact .cons (hshown _ _ _ _ hab hac hbd) (ih hs _ hm')

end Rearranged

/-! ## 2. Pairings -/

section Pairings

variable {α β : Type}

/-- The rows of as many elements of a list as there are patterns, each element with its pattern. -/
def pairings (ps : List α) (l : List β) : List (List (α × β)) := (rows l ps.length).map ps.zip

theorem pairings_cons (p : α) (ps : List α) (l : List β) :
    pairings (p :: ps) l = l.flatMap fun b => (pairings ps l).map ((p, b) :: ·) := by
  simp [pairings, rows, List.map_flatMap, Function.comp_def]

theorem snd_of_mem_pairings {ps : List α} {l : List β} {r : List (α × β)}
    (h : r ∈ pairings ps l) {b : β} (hb : b ∈ r.map Prod.snd) : b ∈ l := by
  obtain ⟨bs, hbs, rfl⟩ := List.mem_map.mp h
  obtain ⟨hlen, hmem⟩ := mem_rows.mp hbs
  rw [List.map_snd_zip hlen.le] at hb
  exact hmem b hb

/-- **Patterns in another order have the same pairings, in another order.** -/
theorem pairings_perm {ps qs : List α} (h : ps.Perm qs) (l : List β) :
    Multiset.Rel List.Perm (pairings ps l : Multiset (List (α × β))) (pairings qs l) := by
  induction h with
  | nil => exact Multiset.rel_refl_of_refl_on fun r _ => .refl r
  | cons p _ ih =>
    simp only [pairings_cons, ← Multiset.coe_bind, ← Multiset.map_coe]
    refine Multiset.rel_bind ?_ Multiset.rel_eq_refl
    rintro b _ rfl
    exact Multiset.rel_map.mpr (ih.mono fun _ _ _ _ hperm => hperm.cons _)
  | swap p q ps =>
    simp only [pairings_cons, List.map_flatMap, List.map_map, ← Multiset.coe_bind,
      ← Multiset.map_coe]
    -- the two elements are chosen in the other order
    rw [Multiset.bind_bind]
    refine Multiset.rel_bind ?_ Multiset.rel_eq_refl
    rintro a _ rfl
    refine Multiset.rel_bind ?_ Multiset.rel_eq_refl
    rintro b _ rfl
    exact Multiset.rel_map.mpr (Multiset.rel_refl_of_refl_on fun r _ => .swap _ _ r)
  | trans _ _ ih₁ ih₂ =>
    have : IsTrans (List (α × β)) List.Perm := ⟨fun _ _ _ => .trans⟩
    exact ih₁.trans _ ih₂

end Pairings

/-! ## 3. Environments that agree with the same assignments -/

namespace Env

/-- Only ground terms that are no NaN are found. -/
def FindsPlain (e : Env) : Prop :=
  ∀ name t, e.lookup name = some t → t.isGround = true ∧ t.isNaN = false

/-- The same names are bound, to equal terms. -/
def Alike (e e' : Env) : Prop :=
  ∀ name, Option.Rel (fun t u => t.equal u = true) (e.lookup name) (e'.lookup name)

/-- The assignment that an environment is. What is not bound stands for a hole, which no ground term
    equals. -/
def assignment (e : Env) : Assignment := fun name => (e.lookup name).getD .hole

theorem FindsPlain.agrees {e : Env} (h : e.FindsPlain) : e.Agrees e.assignment := by
  intro name t ht
  rw [assignment, ht, Option.getD_some]
  exact Term.equal_self (h name t ht).2

/-- An environment that agrees with the assignment of another one finds terms that are found
    there. -/
theorem Agrees.exists_lookup {e e' : Env} (h : e.Agrees e'.assignment) (he : e.FindsPlain)
    {name : String} {t : Term} (ht : e.lookup name = some t) :
    ∃ u, e'.lookup name = some u ∧ u.equal t = true := by
  have hequal := h name t ht
  cases hu : e'.lookup name with
  | some u => exact ⟨u, rfl, by simpa [assignment, hu] using hequal⟩
  | none =>
    have hground := (he name t ht).1
    rw [assignment, hu, Option.getD_none] at hequal
    cases t <;> simp_all [Term.equal, Term.isGround]

/-- **Environments that agree with the same assignments bind the same names to equal terms.** -/
theorem alike_of_agrees {e e' : Env} (he : e.FindsPlain) (he' : e'.FindsPlain)
    (h : ∀ σ, e.Agrees σ ↔ e'.Agrees σ) : e.Alike e' := by
  have hfound : e.Agrees e'.assignment := (h _).mpr he'.agrees
  have hfound' : e'.Agrees e.assignment := (h _).mp he.agrees
  intro name
  cases ht : e.lookup name with
  | none =>
    cases hu : e'.lookup name with
    | none => exact .none
    | some u =>
      obtain ⟨t, ht', -⟩ := hfound'.exists_lookup he' hu
      rw [ht] at ht'
      cases ht'
  | some t =>
    obtain ⟨u, hu, hequal⟩ := hfound.exists_lookup he ht
    rw [hu]
    exact .some (Term.equal_symm hequal)

/-! ## 4. The environment of a row -/

/-- The environment that a row of pairings leaves behind. -/
def ofPairing (r : List (Sentence × Sentence)) : Option Env :=
  Sentence.matchedEach (r.map Prod.fst) (r.map Prod.snd) .empty

/-- The environment of a row agrees with the assignments under which every pattern of the row fits
    its fact. -/
theorem ofPairing_iff {r : List (Sentence × Sentence)} {σ : Assignment} :
    (∃ e, ofPairing r = some e ∧ e.Agrees σ) ↔ ∀ x ∈ r, Sentence.Fits σ x.1 x.2 := by
  rw [ofPairing, Sentence.matchedEach_iff, List.forall₂_map_left_iff, List.forall₂_map_right_iff,
    List.forall₂_same, and_iff_right (agrees_empty σ)]

/-- Where the facts are ground and without NaN, so is what is bound. -/
theorem findsPlain_ofPairing {r : List (Sentence × Sentence)}
    (hr : ∀ f ∈ r.map Prod.snd, f.isGround = true ∧ f.hasNaN = false) {e : Env}
    (h : ofPairing r = some e) : e.FindsPlain :=
  fun _ _ ht => Sentence.plain_of_matchedEach hr h ht

/-- **Rows of the same pairings leave behind the same bindings**, or none of them goes through. -/
theorem rel_ofPairing {r r' : List (Sentence × Sentence)} (hperm : r.Perm r')
    (hr : ∀ f ∈ r.map Prod.snd, f.isGround = true ∧ f.hasNaN = false) :
    Option.Rel Alike (ofPairing r) (ofPairing r') := by
  have hr' : ∀ f ∈ r'.map Prod.snd, f.isGround = true ∧ f.hasNaN = false :=
    fun f hf => hr f ((hperm.map Prod.snd).mem_iff.mpr hf)
  have hagrees : ∀ σ, (∃ e, ofPairing r = some e ∧ e.Agrees σ) ↔
      ∃ e, ofPairing r' = some e ∧ e.Agrees σ := by
    intro σ
    simp only [ofPairing_iff, hperm.mem_iff]
  cases h : ofPairing r with
  | none =>
    cases h' : ofPairing r' with
    | none => exact .none
    | some e' =>
      have he' := findsPlain_ofPairing hr' h'
      obtain ⟨e, he, -⟩ := (hagrees e'.assignment).mpr ⟨e', h', he'.agrees⟩
      rw [h] at he
      cases he
  | some e =>
    have he := findsPlain_ofPairing hr h
    obtain ⟨e', h', -⟩ := (hagrees e.assignment).mp ⟨e, h, he.agrees⟩
    rw [h']
    refine .some (alike_of_agrees he (findsPlain_ofPairing hr' h') fun σ => ?_)
    simpa [h, h'] using hagrees σ

end Env

/-! ## 5. Solutions -/

/-- Equality of values, numbers being compared as numbers. -/
def Value.equal (v w : Value) : Bool := v.toTerm.equal w.toTerm

/-- Two solutions have the same names and, for each name, equal values. -/
structure Solution.Same (a b : Solution) : Prop where
  names : ∀ name, name ∈ a.keys ↔ name ∈ b.keys
  values : ∀ name v w, a.get? name = some v → b.get? name = some w → v.equal w = true

/-- A solution has the values that are bound. -/
theorem Solution.Shows.get? {solution : Solution} {b : Bindings} (h : solution.Shows b)
    (name : String) : (solution.get? name).map Value.toTerm = b.get? name := by
  obtain ⟨es⟩ := b
  obtain rfl : solution.entries.map (fun e => (e.1, e.2.toTerm)) = es := h
  show (lookupEntry name solution.entries).map Value.toTerm = lookupEntry name _
  induction solution.entries with
  | nil => rfl
  | cons e vs ih => by_cases hname : name = e.1 <;> simp [lookupEntry, hname, ih]

/-- Environments that are alike are shown by the same solutions. -/
theorem Solution.same_of_alike {e e' : Env} {a b : Solution} (h : e.Alike e')
    (ha : a.Shows e.bindings) (hb : b.Shows e'.bindings) : a.Same b := by
  have hrel : ∀ name, Option.Rel (fun t u => t.equal u = true)
      ((a.get? name).map Value.toTerm) ((b.get? name).map Value.toTerm) := by
    intro name
    rw [ha.get?, hb.get?, Env.get?_bindings, Env.get?_bindings]
    exact h name
  have hkeys : ∀ (c : Solution) name, name ∈ c.keys ↔ (c.get? name).isSome = true :=
    fun _ _ => OrderedMap.isSome_lookupEntry.symm
  constructor
  · intro name
    rw [hkeys, hkeys]
    have hname := hrel name
    cases hv : a.get? name <;> cases hw : b.get? name <;> simp_all
  · intro name v w hv hw
    have hname := hrel name
    rw [hv, hw] at hname
    cases hname with
    | some hequal => exact hequal

namespace Store

/-- Solving a query tries every pairing. -/
theorem filterMap_rows (patterns : List Sentence) (facts : List Fact) :
    ((rows facts patterns.length).filterMap fun r =>
      Sentence.matchedEach patterns (r.map Fact.terms) .empty) =
      (pairings patterns (facts.map Fact.terms)).filterMap Env.ofPairing := by
  rw [pairings, rows_map, List.map_map, List.filterMap_map]
  refine List.filterMap_congr fun r hr => ?_
  have hlen : (r.map Fact.terms).length = patterns.length := by simp [(mem_rows.mp hr).1]
  simp only [Function.comp_apply, Env.ofPairing, List.map_fst_zip hlen.ge, List.map_snd_zip hlen.le]

/-- **The order of the patterns does not change the answer**: in any other order they have the same
    solutions, in some other order. -/
theorem select_perm (history : List Command)
    (hNaN : ∀ f ∈ (empty.after history).facts.values, f.terms.hasNaN = false)
    {ps qs : List Sentence} (hperm : ps.Perm qs) (hholes : ∀ p ∈ ps, p.hasHoles = false) :
    ∃ solutions solutions', (empty.after history).select ps = .ok solutions ∧
      (empty.after history).select qs = .ok solutions' ∧
      Rearranged Solution.Same solutions solutions' ∧ solutions.length = solutions'.length := by
  have hs : Sound (fun f => f.hasNaN = false) (empty.after history) :=
    (sound_after history).with_holds hNaN
  obtain ⟨solutions, hselect, hshown⟩ := hs.exists_shown hholes
  obtain ⟨solutions', hselect', hshown'⟩ :=
    hs.exists_shown fun q hq => hholes q (hperm.mem_iff.mpr hq)
  rw [filterMap_rows] at hshown hshown'
  have hpairings : Rearranged (fun r r' => Option.Rel Env.Alike (Env.ofPairing r) (Env.ofPairing r'))
      (pairings ps ((empty.after history).facts.values.map Fact.terms))
      (pairings qs ((empty.after history).facts.values.map Fact.terms)) := by
    refine rearranged_of_rel ((pairings_perm hperm _).mono fun r hr r' _ hrr => ?_)
    refine Env.rel_ofPairing hrr fun f hf => ?_
    obtain ⟨fact, hfact, rfl⟩ := List.mem_map.mp (snd_of_mem_pairings hr hf)
    exact ⟨hs.isGround_of_mem hfact, hs.holds_of_mem hfact⟩
  have hsame : Rearranged Solution.Same solutions solutions' :=
    hpairings.filterMap.shown hshown hshown' fun _ _ _ _ => Solution.same_of_alike
  exact ⟨solutions, solutions', hselect, hselect', hsame, hsame.length_eq⟩

/-- A variable is shown by the zero of one sign or of the other, whichever pattern comes first, and
    the variables come in the order in which the patterns bind them. -/
theorem select_perm_zeros :
    let history : List Command :=
      [.assert "a" [.identifier "x", .word " ", .number .zero],
        .assert "b" [.number (.ofRank true 0), .word " ", .identifier "y"]]
    let p : Sentence := [.variable "who", .word " ", .variable "n"]
    let q : Sentence := [.variable "n", .wildcard, .variable "whom"]
    let found : List Solution :=
      [⟨[("who", .identifier "x"), ("n", .literal (.number .zero)), ("whom", .identifier "y")]⟩]
    let found' : List Solution :=
      [⟨[("n", .literal (.number (.ofRank true 0))), ("whom", .identifier "y"),
        ("who", .identifier "x")]⟩]
    (∀ f ∈ (empty.after history).facts.values, f.terms.hasNaN = false) ∧ [p, q].Perm [q, p] ∧
      (∀ r ∈ [p, q], r.hasHoles = false) ∧
      (empty.after history).select [p, q] = .ok found ∧
      (empty.after history).select [q, p] = .ok found' ∧
      Rearranged Solution.Same found found' := by
  intro history p q found found'
  have hNaN : ∀ f ∈ (empty.after history).facts.values, f.terms.hasNaN = false := by decide +kernel
  have hperm : [p, q].Perm [q, p] := .swap _ _ _
  have hholes : ∀ r ∈ [p, q], r.hasHoles = false := by decide
  have hfound : (empty.after history).select [p, q] = .ok found := rfl
  have hfound' : (empty.after history).select [q, p] = .ok found' := rfl
  obtain ⟨solutions, solutions', hselect, hselect', hsame, -⟩ :=
    select_perm history hNaN hperm hholes
  rw [hfound] at hselect
  rw [hfound'] at hselect'
  cases hselect
  cases hselect'
  exact ⟨hNaN, hperm, hholes, hfound, hfound', hsame⟩

end Store

end Blackboard
