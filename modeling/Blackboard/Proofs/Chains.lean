import Blackboard.Proofs.Matching
import Mathlib.Data.List.Nodup
import Mathlib.Logic.Relation

/-!
# Chains of variables

A variable may be bound to a variable, so matching goes from variable to variable until it comes to a
term that leads no further. Nothing on that way gets smaller; what decreases is the number of bound
variables that were not visited yet.

* `Env.Chain` says which variables are visited and which term comes last. A chain visits nothing
  twice (`Env.Chain.nodup`), so it is no longer than the environment (`Env.Chain.length_le`). If no
  variable leads back to itself, every term has a chain (`Env.Acyclic.exists_chain`).
* `Term.MatchEnds` is the recursion of matching without a bound on its steps. Where it ends, matching
  gives its result (`Term.matchEnds_iff`), so the bound in `matchTerm` cuts nothing off.
* A match with a ground fact adds an end to a chain and no link, so that an environment without
  cycles stays one. **Under such an environment, and under all that come from it, matching ends**
  (`Env.Acyclic.matching_ends`).
-/

namespace Blackboard

/-! ## 1. Chains -/

namespace Env

/-- A variable is bound to another one. -/
def Leads (e : Env) (x y : String) : Prop := e.lookup x = some (.variable y)

/-- Going from variable to variable never leads back to a variable that was visited. -/
def Acyclic (e : Env) : Prop := ∀ x, ¬ Relation.TransGen e.Leads x x

/-- The term is no variable that is bound. -/
def IsLast (e : Env) (t : Term) : Prop := ∀ x, t = .variable x → e.lookup x = none

/-- From a term on, the bound variables that are visited, and the last term. -/
inductive Chain (e : Env) : Term → List String → Term → Prop
  | last {t : Term} (h : e.IsLast t) : Chain e t [] t
  | step {x : String} {t u : Term} {xs : List String} (h : e.lookup x = some t)
      (hrest : Chain e t xs u) : Chain e (.variable x) (x :: xs) u

variable {e : Env} {t u v : Term} {xs ys : List String}

theorem isLast_variable {x : String} (h : e.lookup x = none) : e.IsLast (.variable x) := by
  rintro y ⟨⟩
  exact h

theorem isLast_of_ne (h : ∀ x, t ≠ .variable x) : e.IsLast t := fun x hx => absurd hx (h x)

theorem Chain.isLast (h : e.Chain t xs u) : e.IsLast u := by
  induction h with
  | last h => exact h
  | step h hrest ih => exact ih

/-- A term has one chain at most. -/
theorem Chain.unique (h : e.Chain t xs u) (h' : e.Chain t ys v) : xs = ys ∧ u = v := by
  induction h generalizing ys with
  | last h =>
    cases h' with
    | last => exact ⟨rfl, rfl⟩
    | step h₁ => exact nomatch h₁.symm.trans (h _ rfl)
  | step h hrest ih =>
    cases h' with
    | last h₁ => exact nomatch h.symm.trans (h₁ _ rfl)
    | step h₁ hrest₁ =>
      obtain rfl := Option.some.inj (h.symm.trans h₁)
      obtain ⟨rfl, rfl⟩ := ih hrest₁
      exact ⟨rfl, rfl⟩

/-- A visited variable is bound. -/
theorem Chain.isSome_lookup (h : e.Chain t xs u) : ∀ x ∈ xs, (e.lookup x).isSome = true := by
  induction h with
  | last h => exact fun x hx => absurd hx List.not_mem_nil
  | step h hrest ih => exact List.forall_mem_cons.mpr ⟨by rw [h]; rfl, ih⟩

/-- The chain of a visited variable is a part of the chain on which it is visited. -/
theorem Chain.of_mem (h : e.Chain t xs u) {x : String} (hx : x ∈ xs) :
    ∃ ys, e.Chain (.variable x) ys u ∧ ys.length ≤ xs.length := by
  induction h with
  | last h => cases hx
  | step h hrest ih =>
    rcases List.mem_cons.mp hx with rfl | hx
    · exact ⟨_, .step h hrest, Nat.le_refl _⟩
    · obtain ⟨ys, hys, hlength⟩ := ih hx
      exact ⟨ys, hys, Nat.le_succ_of_le hlength⟩

/-- **A chain visits nothing twice.** -/
theorem Chain.nodup (h : e.Chain t xs u) : xs.Nodup := by
  induction h with
  | last h => exact List.nodup_nil
  | @step x t u xs h hrest ih =>
    refine List.nodup_cons.mpr ⟨fun hx => ?_, ih⟩
    -- a second visit would begin the same chain once more, but as a part of itself
    obtain ⟨ys, hys, hlength⟩ := hrest.of_mem hx
    obtain ⟨rfl, -⟩ := hys.unique (.step h hrest)
    exact absurd hlength (Nat.not_succ_le_self _)

/-- There are no more bound variables than frames. -/
theorem length_le_size {xs : List String} (hn : xs.Nodup)
    (hbound : ∀ x ∈ xs, (e.lookup x).isSome = true) : xs.length ≤ e.size := by
  have hsubset : xs ⊆ e.frames.map Prod.fst := by
    intro x hx
    obtain ⟨t, ht⟩ := Option.isSome_iff_exists.mp (hbound x hx)
    exact List.mem_map_of_mem (OrderedMap.mem_of_lookupEntry ht)
  simpa [size] using hn.length_le_of_subset hsubset

/-- **A chain is no longer than the environment.** -/
theorem Chain.length_le (h : e.Chain t xs u) : xs.length ≤ e.size :=
  length_le_size h.nodup h.isSome_lookup

/-! ## 2. Environments without cycles -/

/-- From a term to which all visited variables lead, there is a chain. What decreases is the number
    of frames of variables that were not visited. -/
theorem Acyclic.exists_chain_of_visited (he : e.Acyclic) (visited : List String)
    (hn : visited.Nodup) (hbound : ∀ y ∈ visited, (e.lookup y).isSome = true) (t : Term)
    (hleads : ∀ x, t = .variable x → ∀ y ∈ visited, Relation.TransGen e.Leads y x) :
    ∃ xs u, e.Chain t xs u := by
  by_cases hlast : e.IsLast t
  · exact ⟨[], t, .last hlast⟩
  obtain ⟨x, rfl, hx⟩ : ∃ x, t = .variable x ∧ e.lookup x ≠ none := by
    simpa [IsLast] using hlast
  obtain ⟨t, ht⟩ := Option.ne_none_iff_exists'.mp hx
  have hnew : x ∉ visited := fun hmem => he x (hleads x rfl x hmem)
  have hn' : (x :: visited).Nodup := List.nodup_cons.mpr ⟨hnew, hn⟩
  have hbound' : ∀ y ∈ x :: visited, (e.lookup y).isSome = true :=
    List.forall_mem_cons.mpr ⟨by rw [ht]; rfl, hbound⟩
  have hroom : visited.length < e.size := length_le_size hn' hbound'
  obtain ⟨xs, u, hchain⟩ := he.exists_chain_of_visited (x :: visited) hn' hbound' t <| by
    rintro z rfl y hy
    rcases List.mem_cons.mp hy with rfl | hy
    · exact .single ht
    · exact (hleads x rfl y hy).tail ht
  exact ⟨x :: xs, u, .step ht hchain⟩
termination_by e.size - visited.length
decreasing_by
  simp only [List.length_cons]
  omega

/-- **Where nothing leads back, every term has a chain.** -/
theorem Acyclic.exists_chain (he : e.Acyclic) (t : Term) : ∃ xs u, e.Chain t xs u :=
  he.exists_chain_of_visited [] List.nodup_nil nofun t (fun _ _ _ hy => absurd hy List.not_mem_nil)

theorem Chain.of_leads {x y : String} (hxy : e.Leads x y) (h : e.Chain (.variable x) xs u) :
    ∃ ys, e.Chain (.variable y) ys u ∧ ys.length < xs.length := by
  cases h with
  | last hlast => exact nomatch hxy.symm.trans (hlast x rfl)
  | step h hrest =>
    obtain rfl := Option.some.inj (h.symm.trans hxy)
    exact ⟨_, hrest, Nat.lt_succ_self _⟩

/-- Further on, chains are shorter. -/
theorem Chain.of_transGen {x y : String} (hxy : Relation.TransGen e.Leads x y)
    (h : e.Chain (.variable x) xs u) :
    ∃ ys, e.Chain (.variable y) ys u ∧ ys.length < xs.length := by
  induction hxy with
  | single hstep => exact h.of_leads hstep
  | tail _ hstep ih =>
    obtain ⟨ys, hys, hlt⟩ := ih
    obtain ⟨zs, hzs, hlt'⟩ := hys.of_leads hstep
    exact ⟨zs, hzs, Nat.lt_trans hlt' hlt⟩

/-- **There are no cycles exactly if every variable has a chain.** -/
theorem acyclic_iff : e.Acyclic ↔ ∀ x, ∃ xs u, e.Chain (.variable x) xs u := by
  constructor
  · exact fun he x => he.exists_chain (.variable x)
  · intro hchain x hxx
    obtain ⟨xs, u, h⟩ := hchain x
    obtain ⟨ys, hys, hlt⟩ := h.of_transGen hxx
    obtain ⟨rfl, -⟩ := h.unique hys
    exact Nat.lt_irrefl _ hlt

/-- A name that is bound to no variable leads nowhere. -/
theorem Acyclic.bind (he : e.Acyclic) (ht : ∀ y, t ≠ .variable y) (name : String) :
    (e.bind name t).Acyclic := by
  intro x hxx
  refine he x (Relation.TransGen.mono (fun a b hab => ?_) x x hxx)
  unfold Leads at hab ⊢
  rw [lookup_bind] at hab
  split at hab
  · exact absurd (Option.some.inj hab) (ht b)
  · exact hab

end Env

/-! ## 3. Matching along a chain -/

/-- The recursion of matching a term: it ends, with a result. -/
inductive Term.MatchEnds : Term → Term → Env → Matched → Prop
  | hole {p f : Term} {e : Env} (h : p.isHole = true ∨ f.isHole = true) :
      MatchEnds p f e (.error holeFault)
  | wildcard {f : Term} {e : Env} (hf : f.isHole = false) : MatchEnds .wildcard f e (.ok (some e))
  | unbound {x : String} {f : Term} {e : Env} (hf : f.isHole = false) (h : e.lookup x = none) :
      MatchEnds (.variable x) f e (.ok (some (e.bind x f)))
  | bound {x : String} {t f : Term} {e : Env} {r : Matched} (hf : f.isHole = false)
      (h : e.lookup x = some t) (hrest : MatchEnds t f e r) : MatchEnds (.variable x) f e r
  | compared {p f : Term} {e : Env} (hp : p.isGround = true) (hf : f.isHole = false) :
      MatchEnds p f e (.ok (if p.equal f then some e else none))

namespace Term

variable {p f u : Term} {e : Env} {xs : List String}

/-- **What a match with the last term of a chain gives**, whatever is left of the steps. -/
theorem matchTermWithin_of_isLast (hu : e.IsLast u) (hf : f.isHole = false) (steps : Nat) :
    matchTermWithin steps u f e =
      if u.isHole then .error holeFault else .ok (u.matched f e) := by
  cases u with
  | «variable» x => cases f <;> simp_all [matchTermWithin, matched, isHole, hu x rfl]
  | _ => cases f <;> simp_all [matchTermWithin, matched, isHole, holeFault]

theorem matchTerm_of_isLast (hu : e.IsLast u) (hf : f.isHole = false) :
    matchTerm u f e = if u.isHole then .error holeFault else .ok (u.matched f e) :=
  matchTermWithin_of_isLast hu hf e.size

theorem matchTerm_fact_hole (p : Term) (e : Env) :
    matchTerm p .hole e = .error holeFault := by
  unfold matchTerm
  cases p <;> simp [matchTermWithin, holeFault]

/-- Within as many steps as there are variables on its chain, a term matches as the last term. -/
theorem matchTermWithin_of_chain (h : e.Chain p xs u) (hf : f.isHole = false) {steps : Nat}
    (hsteps : xs.length ≤ steps) : matchTermWithin steps p f e = matchTerm u f e := by
  induction h generalizing steps with
  | last h => rw [matchTermWithin_of_isLast h hf, matchTerm_of_isLast h hf]
  | @step x t u xs h hrest ih =>
    obtain ⟨n, rfl⟩ := Nat.exists_eq_add_of_lt hsteps
    have hnext : matchTermWithin (xs.length + n + 1) (.variable x) f e =
        matchTermWithin (xs.length + n) t f e := by
      cases f <;> simp_all [matchTermWithin, isHole]
    rw [hnext, ih (Nat.le_add_right _ _)]

/-- **A term matches as the last term of its chain.** -/
theorem matchTerm_of_chain (h : e.Chain p xs u) (hf : f.isHole = false) :
    matchTerm p f e = matchTerm u f e :=
  matchTermWithin_of_chain h hf h.length_le

/-- The recursion ends along a chain. -/
theorem matchEnds_of_chain (h : e.Chain p xs u) (hf : f.isHole = false) :
    p.MatchEnds f e (matchTerm u f e) := by
  induction h with
  | @last t h =>
    rw [matchTerm_of_isLast h hf]
    cases t with
    | hole => exact .hole (.inl rfl)
    | wildcard => exact .wildcard hf
    | «variable» x =>
      rw [matched, h x rfl]
      exact .unbound hf (h x rfl)
    | _ => exact .compared rfl hf
  | step h hrest ih => exact .bound hf h ih

/-- Where the recursion ends, it ran along a chain, and the result is that of the last term. -/
theorem MatchEnds.exists_chain {r : Matched} (h : p.MatchEnds f e r) (hf : f.isHole = false) :
    ∃ xs u, e.Chain p xs u ∧ matchTerm u f e = r := by
  induction h with
  | @hole p f e h =>
    have hp : p.isHole = true := h.resolve_right (by simp [hf])
    obtain rfl : p = .hole := by cases p <;> simp_all [isHole]
    exact ⟨[], .hole, .last (Env.isLast_of_ne (by simp)), matchTerm_hole f e⟩
  | @wildcard f e _ =>
    have hlast : e.IsLast .wildcard := Env.isLast_of_ne (by simp)
    exact ⟨[], .wildcard, .last hlast, matchTerm_of_isLast hlast hf⟩
  | @unbound x f e _ h =>
    refine ⟨[], .variable x, .last (Env.isLast_variable h), ?_⟩
    rw [matchTerm_of_isLast (Env.isLast_variable h) hf]
    simp [isHole, matched, h]
  | bound _ h _ ih =>
    obtain ⟨xs, u, hchain, hr⟩ := ih hf
    exact ⟨_, u, .step h hchain, hr⟩
  | @compared p f e hp _ =>
    have hlast : e.IsLast p := Env.isLast_of_ne fun x hx => by simp [hx, isGround] at hp
    refine ⟨[], p, .last hlast, ?_⟩
    rw [matchTerm_of_isLast hlast hf]
    cases p <;> simp_all [isHole, isGround, matched]

/-- **The recursion ends exactly if there is a chain to run along, and matching gives its result.** -/
theorem matchEnds_iff {r : Matched} (hf : f.isHole = false) :
    p.MatchEnds f e r ↔ (∃ xs u, e.Chain p xs u) ∧ matchTerm p f e = r := by
  constructor
  · intro h
    obtain ⟨xs, u, hchain, hr⟩ := h.exists_chain hf
    exact ⟨⟨xs, u, hchain⟩, (matchTerm_of_chain hchain hf).trans hr⟩
  · rintro ⟨⟨xs, u, hchain⟩, rfl⟩
    rw [matchTerm_of_chain hchain hf]
    exact matchEnds_of_chain hchain hf

/-- **The bound on the steps of matching cuts nothing off**: where the recursion ends, matching gives
    its result. -/
theorem MatchEnds.matchTerm_eq {r : Matched} (h : p.MatchEnds f e r) : matchTerm p f e = r := by
  cases hf : f.isHole with
  | false => exact ((matchEnds_iff hf).mp h).2
  | true =>
    obtain rfl : f = .hole := by cases f <;> simp_all [isHole]
    cases h with
    | hole => exact matchTerm_fact_hole p e
    | wildcard hf => cases hf
    | unbound hf => cases hf
    | bound hf => cases hf
    | compared hp hf => cases hf

/-- A recursion that ends has no fault but that of a hole. -/
theorem MatchEnds.fault_eq {r : Matched} (h : p.MatchEnds f e r) {fault : Failure}
    (hr : r = .error fault) : fault = holeFault := by
  induction h with
  | hole => exact (Except.error.inj hr).symm
  | bound _ _ _ ih => exact ih hr
  | wildcard => cases hr
  | unbound => cases hr
  | compared => cases hr

end Term

/-- Where no variable leads back to itself, matching a term ends. -/
theorem Env.Acyclic.matchTerm_ends {e : Env} (he : e.Acyclic) (p : Term) {f : Term}
    (hf : f.isHole = false) : p.MatchEnds f e (matchTerm p f e) :=
  (Term.matchEnds_iff hf).mpr ⟨he.exists_chain p, rfl⟩

/-- **There are no cycles exactly if matching ends for every term.** -/
theorem Env.acyclic_iff_ends {e : Env} {f : Term} (hf : f.isHole = false) :
    e.Acyclic ↔ ∀ p : Term, ∃ r, p.MatchEnds f e r := by
  constructor
  · exact fun he p => ⟨_, he.matchTerm_ends p hf⟩
  · intro hends
    refine Env.acyclic_iff.mpr fun x => ?_
    obtain ⟨r, hr⟩ := hends (.variable x)
    exact ((Term.matchEnds_iff hf).mp hr).1

/-- A match with a ground term makes no cycle: it adds the end of a chain at most. -/
theorem Env.Acyclic.of_matchTerm {e e' : Env} (he : e.Acyclic) {p f : Term} (hf : f.isGround = true)
    (h : matchTerm p f e = .ok (some e')) : e'.Acyclic := by
  have hhole : f.isHole = false := Term.isHole_of_isGround hf
  obtain ⟨xs, u, hchain⟩ := he.exists_chain p
  rw [Term.matchTerm_of_chain hchain hhole,
    Term.matchTerm_of_isLast hchain.isLast hhole] at h
  split at h
  · cases h
  · rcases Term.eq_or_bind_of_matched (Except.ok.inj h) with rfl | ⟨name, rfl⟩
    · exact he
    · refine he.bind ?_ name
      rintro y rfl
      cases hf

/-! ## 4. Sentences -/

namespace Sentence

/-- The recursion of matching the terms of two rows one after another: it ends, with a result. -/
inductive AllEnd : Sentence → Sentence → Env → Matched → Prop
  | nil {e : Env} : AllEnd [] [] e (.ok (some e))
  | next {p f : Term} {ps fs : Sentence} {e e₁ : Env} {r : Matched}
      (h : p.MatchEnds f e (.ok (some e₁))) (hrest : AllEnd ps fs e₁ r) :
      AllEnd (p :: ps) (f :: fs) e r
  | stop {p f : Term} {ps fs : Sentence} {e : Env} {r : Matched} (h : p.MatchEnds f e r)
      (hr : ∀ e₁, r ≠ .ok (some e₁)) : AllEnd (p :: ps) (f :: fs) e r

/-- Matching a sentence ends, with a result. -/
def MatchEnds (p f : Sentence) (e : Env) (r : Matched) : Prop :=
  if p.length = f.length then p.AllEnd f e r else r = .ok none

variable {p f : Sentence} {e : Env} {r : Matched}

theorem AllEnd.matchAll_eq (h : p.AllEnd f e r) : matchAll p f e = r := by
  induction h with
  | nil => rfl
  | next h _ ih =>
    rw [matchAll, h.matchTerm_eq]
    exact ih
  | @stop a b ps fs e r h hr =>
    rw [matchAll, h.matchTerm_eq]
    split
    · exact absurd rfl (hr _)
    · rfl

/-- Where matching a sentence ends, it gives the result of the recursion. -/
theorem MatchEnds.matchSentence_eq (h : p.MatchEnds f e r) : matchSentence p f e = r := by
  unfold MatchEnds at h
  unfold matchSentence
  split at h
  · rename_i hlength
    rw [if_pos hlength, h.matchAll_eq]
  · rename_i hlength
    rw [if_neg hlength, h]

theorem AllEnd.fault_eq (h : p.AllEnd f e r) {fault : Failure} (hr : r = .error fault) :
    fault = holeFault := by
  induction h with
  | nil => cases hr
  | next _ _ ih => exact ih hr
  | stop h _ => exact h.fault_eq hr

/-- Where matching a sentence ends, it has no fault but that of a hole. -/
theorem MatchEnds.fault_eq (h : p.MatchEnds f e r) {fault : Failure} (hr : r = .error fault) :
    fault = holeFault := by
  unfold MatchEnds at h
  split at h
  · exact h.fault_eq hr
  · cases h.symm.trans hr

end Sentence

theorem Env.Acyclic.matchAll_ends {e : Env} (he : e.Acyclic) {p f : Sentence}
    (hf : f.isGround = true) (hlength : p.length = f.length) :
    p.AllEnd f e (matchAll p f e) := by
  induction p generalizing f e with
  | nil =>
    cases f with
    | nil => exact .nil
    | cons b f => cases hlength
  | cons a p ih =>
    cases f with
    | nil => cases hlength
    | cons b f =>
      simp only [Sentence.isGround, List.all_cons, Bool.and_eq_true] at hf
      have hends := he.matchTerm_ends a (Term.isHole_of_isGround hf.1)
      rw [matchAll]
      split
      · rename_i e₁ h₁
        exact .next (h₁ ▸ hends) (ih (he.of_matchTerm hf.1 h₁) hf.2 (Nat.succ.inj hlength))
      · rename_i hfailed
        exact .stop hends hfailed

theorem Env.Acyclic.of_allEnd {e e' : Env} (he : e.Acyclic) {p f : Sentence}
    (hf : f.isGround = true) {r : Matched} (h : p.AllEnd f e r) (hr : r = .ok (some e')) :
    e'.Acyclic := by
  induction h with
  | nil =>
    cases hr
    exact he
  | next h _ ih =>
    simp only [Sentence.isGround, List.all_cons, Bool.and_eq_true] at hf
    exact ih (he.of_matchTerm hf.1 h.matchTerm_eq) hf.2 hr
  | stop _ hfailed => exact absurd hr (hfailed e')

/-- A match with a ground sentence makes no cycle. -/
theorem Env.Acyclic.of_matchSentence {e e' : Env} (he : e.Acyclic) {p f : Sentence}
    (hf : f.isGround = true) (h : matchSentence p f e = .ok (some e')) : e'.Acyclic := by
  unfold matchSentence at h
  split at h
  · rename_i hlength
    exact he.of_allEnd hf (he.matchAll_ends hf hlength) h
  · cases h

/-! ## 5. Rows of matches -/

namespace Env

/-- Matching against ground facts ends, for every term and for every sentence. -/
def MatchingEnds (e : Env) : Prop :=
  (∀ p f : Term, f.isGround = true → p.MatchEnds f e (matchTerm p f e)) ∧
    ∀ p f : Sentence, f.isGround = true → p.MatchEnds f e (matchSentence p f e)

/-- A match against a ground fact takes one environment to the other. -/
inductive MatchStep (e e' : Env) : Prop
  | term {p f : Term} (hf : f.isGround = true) (h : matchTerm p f e = .ok (some e'))
  | sentence {p f : Sentence} (hf : f.isGround = true) (h : matchSentence p f e = .ok (some e'))

variable {e e' : Env}

theorem Acyclic.ends (he : e.Acyclic) : e.MatchingEnds := by
  refine ⟨fun p f hf => he.matchTerm_ends p (Term.isHole_of_isGround hf), fun p f hf => ?_⟩
  unfold Sentence.MatchEnds matchSentence
  split
  · rename_i hlength
    exact he.matchAll_ends hf hlength
  · rfl

theorem Acyclic.of_matchStep (he : e.Acyclic) (h : e.MatchStep e') : e'.Acyclic := by
  cases h with
  | term hf h => exact he.of_matchTerm hf h
  | sentence hf h => exact he.of_matchSentence hf h

theorem Acyclic.of_matchSteps (he : e.Acyclic) (h : Relation.ReflTransGen MatchStep e e') :
    e'.Acyclic := by
  induction h with
  | refl => exact he
  | tail _ hstep ih => exact ih.of_matchStep hstep

/-- **Under an environment without cycles, matching ends**; only a hole makes it fault. A variable
    matches as the last term of its chain, and one that stands last is bound to the fact. A match
    against a ground fact leaves an environment without cycles behind, so matching goes on to end
    after any row of such matches. -/
theorem Acyclic.matching_ends (he : e.Acyclic) :
    e.MatchingEnds ∧
      (∀ p f : Sentence, f.isGround = true → ∀ fault, matchSentence p f e = .error fault →
        fault = holeFault) ∧
      (∀ x, ∃ xs u, e.Chain (.variable x) xs u ∧ ∀ f : Term, f.isGround = true →
        matchTerm (.variable x) f e = matchTerm u f e ∧
          ∀ y, u = .variable y → matchTerm (.variable x) f e = .ok (some (e.bind y f))) ∧
      (∀ e', e.MatchStep e' → e'.Acyclic) ∧
      ∀ e', Relation.ReflTransGen MatchStep e e' → e'.Acyclic ∧ e'.MatchingEnds := by
  refine ⟨he.ends, fun p f hf fault h => (he.ends.2 p f hf).fault_eq h, fun x => ?_,
    fun e' h => he.of_matchStep h, fun e' h => ⟨he.of_matchSteps h, (he.of_matchSteps h).ends⟩⟩
  obtain ⟨xs, u, hchain⟩ := he.exists_chain (.variable x)
  refine ⟨xs, u, hchain, fun f hf => ?_⟩
  have hlast := Term.matchTerm_of_chain hchain (Term.isHole_of_isGround hf)
  refine ⟨hlast, ?_⟩
  rintro y rfl
  rw [hlast, Term.matchTerm_of_isLast hchain.isLast (Term.isHole_of_isGround hf)]
  simp [Term.isHole, Term.matched, hchain.isLast y rfl]

/-- From `z` by way of `x` to `y`, which is not bound and gets the fact. -/
theorem matching_ends_behind_chain :
    let e := (empty.bind "x" (.variable "y")).bind "z" (.variable "x")
    e.Acyclic ∧ e.MatchingEnds ∧
      matchTerm (.variable "z") (.word "a") e = .ok (some (e.bind "y" (.word "a"))) := by
  intro e
  have hchain : e.Chain (.variable "z") ["z", "x"] (.variable "y") :=
    .step rfl (.step rfl (.last (isLast_variable rfl)))
  have he : e.Acyclic := by
    refine acyclic_iff.mpr fun m => ?_
    by_cases hz : m = "z"
    · exact ⟨_, _, hz ▸ hchain⟩
    · by_cases hx : m = "x"
      · subst hx
        exact ⟨["x"], _, .step rfl (.last (isLast_variable rfl))⟩
      · exact ⟨[], _, .last (isLast_variable (by simp [e, hz, hx]))⟩
  obtain ⟨hends, -, hvariables, -⟩ := he.matching_ends
  obtain ⟨xs, u, h, hmatch⟩ := hvariables "z"
  obtain ⟨-, rfl⟩ := h.unique hchain
  exact ⟨he, hends, (hmatch (.word "a") rfl).2 "y" rfl⟩

end Env

end Blackboard
