import Blackboard.Proofs.Arrivals

/-!
# What a store says about its history

Three things can be told of a store from the history that led to it (`Store.history_kept`).

* Its texts are distinct, every fact stands under its own text, and every fact is ground, also in
  the evidence at any depth.
* What is found under a text is what was brought in under it last: the sentence and the asserter of
  the latest assertion, with the evidence that was cited with this very assertion and none otherwise
  (`Store.brought`). The reason is that **every command takes facts away by a test and then puts in
  what it brings** (`Store.Sound.perform_eq`).
* The texts stand in the order in which they last came in, counted in single changes
  (`Store.ArrivesLast`).
-/

namespace Blackboard

/-- A fact is ground, and so is all its evidence, at any depth. -/
inductive Fact.Grounded : Fact → Prop where
  | intro {f : Fact} (terms : f.terms.isGround = true) (evidence : ∀ e ∈ f.evidence, Grounded e) :
    Grounded f

namespace Store

/-! ## 1. What is brought in -/

/-- The facts that a command brings into a store, one for each assertion that succeeds. An assertion
    whose evidence is taken has, as evidence, what then stands under the cited texts. -/
def brings (s : Store) : Command → List Fact
  | .assert asserter terms =>
    match s.assert asserter terms with
    | (.ok _, _) => [{ terms, asserter }]
    | (.error _, _) => []
  | .assertCiting asserter terms cited =>
    match s.assert asserter terms with
    | (.error _, _) => []
    | (.ok key, there) =>
      match there.cite key cited with
      | (.error _, _) => [{ terms, asserter }]
      | (.ok _, _) => [{ terms, asserter, evidence := cited.filterMap fun e => there.get? e.render }]
  | .apply asserter retractions assertions =>
    match s.apply asserter retractions assertions with
    | (.ok _, _) => factsOf asserter assertions
    | (.error _, _) => []
  | .retract _ | .forgetAbout _ | .forgetBy _ => []

/-- The facts that a history brings in, from a store on. -/
def brought (s : Store) : List Command → List Fact
  | [] => []
  | c :: history => s.brings c ++ brought (s.perform c).2 history

section Sound

variable {P : Sentence → Prop} {s : Store}

theorem putAll_one (s : Store) (f : Fact) :
    s.put f = (s.without fun _ => false).putAll [f] := by
  rw [without_none]
  rfl

/-- **Every command takes facts away by a test and then puts in what it brings.** -/
theorem Sound.perform_eq (h : Sound P s) (c : Command) :
    ∃ test, (s.perform c).2 = (s.without test).putAll (s.brings c) := by
  have hnothing : s = (s.without fun _ => false).putAll [] := (without_none s).symm
  cases c with
  | assert asserter terms =>
    refine ⟨fun _ => false, ?_⟩
    rw [Store.perform, brings]
    by_cases hground : terms.isGround = true
    · rw [assert_of_isGround s asserter hground]
      exact putAll_one s _
    · rw [assert_of_not_isGround s asserter hground]
      exact hnothing
  | assertCiting asserter terms cited =>
    refine ⟨fun _ => false, ?_⟩
    rw [Store.perform, brings, Store.assertCiting]
    by_cases hground : terms.isGround = true
    · rw [assert_of_isGround s asserter hground]
      dsimp only
      cases hcite : (s.put { terms, asserter }).cite terms.render cited with
      | mk r s' =>
        cases r with
        | error e =>
          rw [cite_eq_error hcite]
          exact putAll_one s _
        | ok g =>
          -- the fact is put once more, now with its evidence
          obtain ⟨-, f, hf, rfl, rfl⟩ := cite_eq_ok hcite
          have hkey : terms.render = Fact.key { terms, asserter } := rfl
          rw [get?_put, if_pos hkey] at hf
          cases hf
          refine Eq.trans ?_ (putAll_one s _)
          exact congrArg Store.mk (OrderedMap.insert_insert s.facts _ _ _)
    · rw [assert_of_not_isGround s asserter hground]
      exact hnothing
  | retract pattern =>
    rw [Store.perform, brings]
    cases hholes : pattern.hasHoles with
    | true => exact ⟨fun _ => false, by rw [Store.retract, if_pos hholes]; exact hnothing⟩
    | false => exact ⟨pattern.strikes, by rw [h.retract_eq hholes]; rfl⟩
  | forgetAbout name =>
    exact ⟨fun f => f.mentions name, by rw [Store.perform, forgetAbout, h.removeWhere_eq]; rfl⟩
  | forgetBy asserter =>
    exact ⟨fun f => f.asserter == asserter, by rw [Store.perform, forgetBy, h.removeWhere_eq]; rfl⟩
  | apply asserter retractions assertions =>
    rw [Store.perform, brings]
    by_cases hok : Accepted retractions assertions
    · exact ⟨_, by rw [h.apply_eq asserter hok]⟩
    · obtain ⟨e, he⟩ := apply_refused s asserter hok
      exact ⟨fun _ => false, by rw [he]; exact hnothing⟩

/-! ## 2. What is found was brought in last -/

/-- What is found in a store is ground with its evidence, and is what a row of facts has last under
    its text. -/
structure Kept (log : List Fact) (s : Store) : Prop where
  grounded : ∀ k f, s.get? k = some f → f.Grounded
  latest : ∀ k f, s.get? k = some f → lastOf log k = some f

theorem lastOf_append (fs gs : List Fact) (k : String) :
    lastOf (fs ++ gs) k = (lastOf gs k).or (lastOf fs k) := by
  rw [lastOf, List.filter_append, List.getLast?_append]
  rfl

theorem mem_of_lastOf {fs : List Fact} {k : String} {f : Fact} (h : lastOf fs k = some f) :
    f ∈ fs :=
  (List.mem_filter.mp (List.mem_of_getLast? h)).1

theorem kept_empty : Kept [] empty where
  grounded _ _ h := nomatch h
  latest _ _ h := nomatch h

theorem Kept.without {log : List Fact} (h : Kept log s) (hn : s.facts.keys.Nodup)
    (test : Fact → Bool) : Kept log (s.without test) := by
  have hthere : ∀ k f, (s.without test).get? k = some f → s.get? k = some f := by
    intro k f hf
    rw [get?_without hn, Option.filter_eq_some_iff] at hf
    exact hf.1
  exact ⟨fun k f hf => h.grounded k f (hthere k f hf), fun k f hf => h.latest k f (hthere k f hf)⟩

theorem Kept.putAll {log fs : List Fact} (h : Kept log s) (hfs : ∀ f ∈ fs, f.Grounded) :
    Kept (log ++ fs) (s.putAll fs) where
  grounded k f hf := by
    rw [get?_putAll, Option.or_eq_some_iff] at hf
    rcases hf with hf | ⟨-, hf⟩
    · exact hfs f (mem_of_lastOf hf)
    · exact h.grounded k f hf
  latest k f hf := by
    rw [get?_putAll] at hf
    rw [lastOf_append]
    cases hlast : lastOf fs k with
    | some g =>
      rw [hlast] at hf
      exact hf
    | none =>
      rw [hlast] at hf
      exact h.latest k f hf

/-- What a command brings into a store of ground facts is ground, with its evidence. -/
theorem grounded_brings (h : ∀ k f, s.get? k = some f → f.Grounded) (c : Command) :
    ∀ f ∈ s.brings c, f.Grounded := by
  have hplain : ∀ (terms : Sentence) (asserter : String), terms.isGround = true →
      Fact.Grounded { terms, asserter } :=
    fun terms asserter hground => .intro hground fun e he => absurd he List.not_mem_nil
  cases c with
  | assert asserter terms =>
    rw [brings]
    by_cases hground : terms.isGround = true
    · rw [assert_of_isGround s asserter hground]
      exact fun f hf => List.mem_singleton.mp hf ▸ hplain terms asserter hground
    · rw [assert_of_not_isGround s asserter hground]
      exact fun f hf => absurd hf List.not_mem_nil
  | assertCiting asserter terms cited =>
    rw [brings]
    by_cases hground : terms.isGround = true
    · rw [assert_of_isGround s asserter hground]
      dsimp only
      split
      · exact fun f hf => List.mem_singleton.mp hf ▸ hplain terms asserter hground
      · intro f hf
        rw [List.mem_singleton.mp hf]
        refine .intro hground fun e he => ?_
        obtain ⟨t, -, ht⟩ := List.mem_filterMap.mp he
        rw [get?_put] at ht
        split at ht
        · exact Option.some.inj ht ▸ hplain terms asserter hground
        · exact h _ e ht
    · rw [assert_of_not_isGround s asserter hground]
      exact fun f hf => absurd hf List.not_mem_nil
  | apply asserter retractions assertions =>
    rw [brings]
    by_cases hok : Accepted retractions assertions
    · cases happly : s.apply asserter retractions assertions with
      | mk r s' =>
        cases r with
        | error e => exact fun f hf => absurd hf List.not_mem_nil
        | ok o =>
          intro f hf
          obtain ⟨terms, hterms, rfl⟩ := List.mem_map.mp hf
          exact hplain terms asserter (hok.2 terms hterms)
    · obtain ⟨e, he⟩ := apply_refused s asserter hok
      rw [he]
      exact fun f hf => absurd hf List.not_mem_nil
  | retract pattern => exact fun f hf => absurd hf List.not_mem_nil
  | forgetAbout name => exact fun f hf => absurd hf List.not_mem_nil
  | forgetBy asserter => exact fun f hf => absurd hf List.not_mem_nil

/-- A command keeps what is said of the store by what was brought in. -/
theorem Kept.perform {log : List Fact} (h : Kept log s) (hs : Sound P s) (c : Command) :
    Kept (log ++ s.brings c) (s.perform c).2 := by
  obtain ⟨test, htest⟩ := hs.perform_eq c
  rw [htest]
  exact (h.without hs.distinct test).putAll (grounded_brings h.grounded c)

theorem Kept.after {log : List Fact} {s : Store} (h : Kept log s) (hs : Sound (fun _ => True) s)
    (history : List Command) : Kept (log ++ s.brought history) (s.after history) := by
  induction history generalizing log s with
  | nil =>
    rw [brought, List.append_nil]
    exact h
  | cons c history ih =>
    have hc := ih (h.perform hs c) (hs.perform fun _ _ _ => trivial)
    rw [List.append_assoc] at hc
    exact hc

end Sound

/-- **What a store keeps of its history.** Its texts are distinct and are those of its facts, which
    are ground together with their evidence. What is found under a text is what was brought in under
    it last, with the evidence that was taken with it; evidence is taken only if all of it is ground
    and stored. The texts stand in the order in which they came in last, counted in the single changes
    that the commands are made of. -/
theorem history_kept (history : List Command) :
    let s := empty.after history
    (s.facts.keys.Nodup ∧ (∀ e ∈ s.facts.entries, e.1 = e.2.terms.render) ∧
        ∀ f ∈ s.facts.values, f.Grounded) ∧
      (∀ k f, s.get? k = some f → lastOf (empty.brought history) k = some f) ∧
      (∀ there key cited g after, cite there key cited = (.ok g, after) →
        ∀ e ∈ cited, e.isGround = true ∧ (there.get? e.render).isSome = true) ∧
      s = stage history (changes history).length ∧
      ∀ k ∈ s.facts.keys, ∀ k' ∈ s.facts.keys,
        s.facts.keys.idxOf k < s.facts.keys.idxOf k' ↔
          ∃ i i', ArrivesLast history k i ∧ ArrivesLast history k' i' ∧ i < i' := by
  intro s
  have hs : Sound (fun _ => True) s := sound_after history
  have hkept : Kept ([] ++ empty.brought history) s := kept_empty.after sound_empty history
  rw [List.nil_append] at hkept
  refine ⟨⟨hs.distinct, hs.keyed, fun f hf => ?_⟩, hkept.latest,
    fun _ _ _ _ _ hcite => (cite_eq_ok hcite).1, after_eq_stage history,
    fun k hk k' hk' => idxOf_lt_iff_arrives hk hk'⟩
  exact hkept.grounded f.key f (hs.get?_eq_some_iff.mpr ⟨hf, rfl⟩)

end Store

end Blackboard
