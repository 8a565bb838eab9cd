import Blackboard.Proofs.Batches

/-!
# The order in which texts came in

The texts of a store stand in the order in which they last came in: of two stored texts the one that
went from absent to present before the other stands before it (`Store.idxOf_lt_iff_arrives`).

A command may consist of several changes, and a batch may take a text away and bring it in again. So
time is counted in single changes: every command does what its changes do one after another
(`Store.Sound.perform_eq_changes`), and a single change takes texts away or brings at most one text
in, at the end (`Store.keys_change`). This alone gives the order (`pairwise_since`).
-/

namespace Blackboard

namespace Store

/-! ## 1. Evidence -/

/-- **Evidence that is taken is stored**, every piece of it, and is put under the text with it. -/
theorem cite_eq_ok {s s' : Store} {key : String} {evidence : List Sentence} {g : Fact}
    (h : s.cite key evidence = (.ok g, s')) :
    (∀ e ∈ evidence, e.isGround = true ∧ (s.get? e.render).isSome = true) ∧
      ∃ f, s.get? key = some f ∧ g = f.citing (evidence.filterMap fun e => s.get? e.render) ∧
        s' = ⟨s.facts.insert key g⟩ := by
  unfold cite at h
  dsimp only at h
  split at h
  · rename_i htaken
    rw [Bool.and_eq_true, List.isEmpty_iff, List.isEmpty_iff, List.map_eq_nil_iff,
      List.filter_eq_nil_iff, List.filter_eq_nil_iff] at htaken
    have hground : ∀ e ∈ evidence, e.isGround = true := by simpa using htaken.1
    have hstored : ∀ e ∈ evidence, (s.get? e.render).isSome = true := by
      intro e he
      have hmem : e.render ∈ (evidence.filter Sentence.isGround).map Sentence.render :=
        List.mem_map_of_mem (List.mem_filter.mpr ⟨he, hground e he⟩)
      have hcontains : s.facts.contains e.render = true := by simpa using htaken.2 _ hmem
      exact hcontains
    split at h
    · rename_i f hf
      cases h
      exact ⟨fun e he => ⟨hground e he, hstored e he⟩, f, hf, rfl, rfl⟩
    · cases h
  · cases h

/-- Evidence that is refused changes nothing. -/
theorem cite_eq_error {s s' : Store} {key : String} {evidence : List Sentence} {e : Failure}
    (h : s.cite key evidence = (.error e, s')) : s' = s := by
  unfold cite at h
  dsimp only at h
  split at h
  · split at h
    · cases h
    · cases h
      rfl
  · cases h
    rfl

/-! ## 2. Single changes -/

/-- A single change of a store. -/
inductive Change where
  | assert (asserter : String) (fact : Sentence)
  | cite (key : String) (evidence : List Sentence)
  | retract (pattern : Sentence)
  | forgetAbout (name : String)
  | forgetBy (asserter : String)
deriving Repr

/-- Carries out a single change. -/
def change (s : Store) : Change → Store
  | .assert asserter fact => (s.assert asserter fact).2
  | .cite key evidence => (s.cite key evidence).2
  | .retract pattern => (s.retract pattern).2
  | .forgetAbout name => (s.forgetAbout name).2
  | .forgetBy asserter => (s.forgetBy asserter).2

instance (retractions assertions : List Sentence) : Decidable (Accepted retractions assertions) :=
  inferInstanceAs (Decidable (_ ∧ _))

/-- The single changes that a command is made of. A batch that is refused is made of none. -/
def Command.changes : Command → List Change
  | .assert asserter fact => [.assert asserter fact]
  | .assertCiting asserter fact evidence =>
    .assert asserter fact :: if fact.isGround then [.cite fact.render evidence] else []
  | .retract pattern => [.retract pattern]
  | .forgetAbout name => [.forgetAbout name]
  | .forgetBy asserter => [.forgetBy asserter]
  | .apply asserter retractions assertions =>
    if Accepted retractions assertions then
      retractions.map .retract ++ assertions.map (.assert asserter)
    else []

/-- The single changes of a history. -/
def changes (history : List Command) : List Change := history.flatMap Command.changes

/-- The store after the first `n` single changes of a history. -/
def stage (history : List Command) (n : Nat) : Store := ((changes history).take n).foldl change empty

section Changes

variable {P : Sentence → Prop} {s : Store}

theorem Sound.foldl_retract (h : Sound P s) {ps : List Sentence}
    (hps : ∀ p ∈ ps, p.hasHoles = false) :
    (ps.map Change.retract).foldl change s = (s.retractEach ps).2 := by
  induction ps generalizing s with
  | nil => rfl
  | cons p ps ih =>
    have hrest : ∀ q ∈ ps, q.hasHoles = false := fun q hq => hps q (List.mem_cons_of_mem _ hq)
    have hp := h.retract_eq (hps p List.mem_cons_self)
    have hs := h.without p.strikes
    rw [List.map_cons, List.foldl_cons, change, hp, ih hs hrest, Store.retractEach, hp]
    dsimp only
    rw [hs.retractEach_eq hrest]

theorem foldl_assert (s : Store) (asserter : String) {fs : List Sentence}
    (hfs : ∀ f ∈ fs, f.isGround = true) :
    (fs.map (Change.assert asserter)).foldl change s = (s.assertEach asserter fs).2 := by
  induction fs generalizing s with
  | nil => rfl
  | cons f fs ih =>
    have hrest : ∀ g ∈ fs, g.isGround = true := fun g hg => hfs g (List.mem_cons_of_mem _ hg)
    have hf := assert_of_isGround s asserter (hfs f List.mem_cons_self)
    rw [List.map_cons, List.foldl_cons, change, hf, ih _ hrest, assertEach, hf]
    dsimp only
    rw [assertEach_eq _ asserter hrest]

/-- **A command does what its single changes do.** -/
theorem Sound.perform_eq_changes (h : Sound P s) (c : Command) :
    (s.perform c).2 = c.changes.foldl change s := by
  cases c with
  | assertCiting asserter terms evidence =>
    rw [Store.perform, Command.changes, Store.assertCiting, List.foldl_cons, change]
    by_cases hground : terms.isGround = true
    · rw [assert_of_isGround s asserter hground, if_pos hground]
      rfl
    · rw [assert_of_not_isGround s asserter hground, if_neg hground]
      rfl
  | apply asserter retractions assertions =>
    rw [Store.perform, Command.changes]
    by_cases hok : Accepted retractions assertions
    · rw [if_pos hok, List.foldl_append, h.foldl_retract hok.1, foldl_assert _ _ hok.2,
        h.apply_eq asserter hok, h.retractEach_eq hok.1, assertEach_eq _ _ hok.2]
    · obtain ⟨e, he⟩ := apply_refused s asserter hok
      rw [if_neg hok, he]
      rfl
  | assert asserter terms => rfl
  | retract pattern => rfl
  | forgetAbout name => rfl
  | forgetBy asserter => rfl

theorem Sound.after_eq_changes {s : Store} (h : Sound (fun _ => True) s) (history : List Command) :
    s.after history = (changes history).foldl change s := by
  induction history generalizing s with
  | nil => rfl
  | cons c history ih =>
    rw [changes, List.flatMap_cons, List.foldl_append, ← h.perform_eq_changes]
    exact ih (h.perform fun _ _ _ => trivial)

/-- The last stage of a history is the store after it. -/
theorem after_eq_stage (history : List Command) :
    empty.after history = stage history (changes history).length := by
  rw [stage, List.take_length, sound_empty.after_eq_changes]

/-- Removing texts keeps the others in their order. -/
theorem keys_removeAll (s : Store) (ks : List String) :
    (s.removeAll ks).2.facts.keys.Sublist s.facts.keys := by
  induction ks generalizing s with
  | nil => exact List.Sublist.refl _
  | cons k ks ih =>
    refine (ih ⟨s.facts.erase k⟩).trans ?_
    rw [OrderedMap.keys_erase]
    exact List.filter_sublist

/-- **A single change takes texts away or brings one text in, at the end.** -/
theorem keys_change (s : Store) (c : Change) :
    (s.change c).facts.keys.Sublist s.facts.keys ∨
      ∃ k ∉ s.facts.keys, (s.change c).facts.keys = s.facts.keys ++ [k] := by
  have hput : ∀ k f, (s.facts.insert k f).keys.Sublist s.facts.keys ∨
      ∃ j ∉ s.facts.keys, (s.facts.insert k f).keys = s.facts.keys ++ [j] := by
    intro k f
    rw [OrderedMap.keys_insert]
    by_cases hk : k ∈ s.facts.keys
    · exact Or.inl (by rw [if_pos hk])
    · exact Or.inr ⟨k, hk, by rw [if_neg hk]⟩
  have hsame : s.facts.keys.Sublist s.facts.keys := List.Sublist.refl _
  cases c with
  | assert asserter terms =>
    by_cases hground : terms.isGround = true
    · rw [change, assert_of_isGround s asserter hground]
      exact hput _ _
    · rw [change, assert_of_not_isGround s asserter hground]
      exact Or.inl hsame
  | cite key evidence =>
    rw [change]
    cases hcite : s.cite key evidence with
    | mk r s' =>
      cases r with
      | error e =>
        rw [cite_eq_error hcite]
        exact Or.inl hsame
      | ok g =>
        obtain ⟨-, f, -, -, rfl⟩ := cite_eq_ok hcite
        exact hput _ _
  | retract pattern =>
    left
    rw [change, Store.retract]
    split
    · exact hsame
    · split
      · split
        · exact keys_removeAll s _
        · exact hsame
      · exact keys_removeAll s _
  | forgetAbout name => exact Or.inl (keys_removeAll s _)
  | forgetBy asserter => exact Or.inl (keys_removeAll s _)

/-- From one stage to the next, texts go or one text comes in at the end. -/
theorem keys_stage_succ (history : List Command) (n : Nat) :
    (stage history (n + 1)).facts.keys.Sublist (stage history n).facts.keys ∨
      ∃ k ∉ (stage history n).facts.keys,
        (stage history (n + 1)).facts.keys = (stage history n).facts.keys ++ [k] := by
  rw [stage, List.take_add_one, List.foldl_append]
  cases (changes history)[n]? with
  | none => exact Or.inl (List.Sublist.refl _)
  | some c => exact keys_change _ c

end Changes

end Store

/-! ## 3. The order of arrival -/

section Order

variable {K : Nat → List String}

/-- The text is not there at stage `i`, and is there from the next stage up to stage `n`. -/
def Since (K : Nat → List String) (n : Nat) (k : String) (i : Nat) : Prop :=
  i < n ∧ k ∉ K i ∧ ∀ j, i < j → j ≤ n → k ∈ K j

theorem Since.unique {n i i' : Nat} {k : String} (h : Since K n k i) (h' : Since K n k i') :
    i = i' := by
  rcases Nat.lt_trichotomy i i' with hlt | heq | hlt
  · exact absurd (h.2.2 i' hlt (Nat.le_of_lt h'.1)) h'.2.1
  · exact heq
  · exact absurd (h'.2.2 i hlt (Nat.le_of_lt h.1)) h.2.1

/-- A text that stays has been there since the same stage. -/
theorem since_succ_iff {n i : Nat} {k : String} (hn : k ∈ K n) (hn' : k ∈ K (n + 1)) :
    Since K (n + 1) k i ↔ Since K n k i := by
  constructor
  · rintro ⟨hi, habsent, hthere⟩
    have hne : i ≠ n := fun h => habsent (h ▸ hn)
    exact ⟨by omega, habsent, fun j hj hjn => hthere j hj (by omega)⟩
  · rintro ⟨hi, habsent, hthere⟩
    refine ⟨by omega, habsent, fun j hj hjn => ?_⟩
    rcases Nat.lt_or_ge n j with hlt | hge
    · exact (show n + 1 = j by omega) ▸ hn'
    · exact hthere j hj hge

/-- **Where texts go or come in one by one at the end, they stand in the order in which they came in
    last.** -/
theorem pairwise_since (hzero : K 0 = [])
    (hstep : ∀ n, (K (n + 1)).Sublist (K n) ∨ ∃ k ∉ K n, K (n + 1) = K n ++ [k]) (n : Nat) :
    (∀ k ∈ K n, ∃ i, Since K n k i) ∧
      (K n).Pairwise fun k k' => ∀ i i', Since K n k i → Since K n k' i' → i < i' := by
  induction n with
  | zero => simp [hzero]
  | succ n ih =>
    obtain ⟨hsince, horder⟩ := ih
    rcases hstep n with hsub | ⟨k, hk, happend⟩
    · refine ⟨fun j hj => ?_, ?_⟩
      · obtain ⟨i, hi⟩ := hsince j (hsub.subset hj)
        exact ⟨i, (since_succ_iff (hsub.subset hj) hj).mpr hi⟩
      · refine (horder.sublist hsub).imp_of_mem fun {a b} ha hb hab i i' hi hi' => ?_
        exact hab i i' ((since_succ_iff (hsub.subset ha) ha).mp hi)
          ((since_succ_iff (hsub.subset hb) hb).mp hi')
    · have hstays : ∀ j ∈ K n, j ∈ K (n + 1) := fun j hj => happend ▸ List.mem_append_left _ hj
      have hnew : Since K (n + 1) k n := by
        refine ⟨Nat.lt_succ_self n, hk, fun j hj hjn => ?_⟩
        rw [show j = n + 1 by omega, happend]
        exact List.mem_append_right _ List.mem_cons_self
      refine ⟨fun j hj => ?_, ?_⟩
      · rw [happend, List.mem_append, List.mem_singleton] at hj
        rcases hj with hj | rfl
        · obtain ⟨i, hi⟩ := hsince j hj
          exact ⟨i, (since_succ_iff hj (hstays j hj)).mpr hi⟩
        · exact ⟨n, hnew⟩
      · conv in K (n + 1) => rw [happend]
        rw [List.pairwise_append]
        refine ⟨?_, List.pairwise_singleton _ _, fun j hj k' hk' i i' hi hi' => ?_⟩
        · refine horder.imp_of_mem fun {a b} ha hb hab i i' hi hi' => ?_
          exact hab i i' ((since_succ_iff ha (hstays a ha)).mp hi)
            ((since_succ_iff hb (hstays b hb)).mp hi')
        · -- what comes in with the last change comes after all else
          rw [List.mem_singleton.mp hk'] at hi'
          rw [hi'.unique hnew]
          exact ((since_succ_iff hj (hstays j hj)).mp hi).1

end Order

namespace Store

/-- With the change after stage `i` the text goes from absent to present. -/
def Arrives (history : List Command) (k : String) (i : Nat) : Prop :=
  k ∉ (stage history i).facts.keys ∧ k ∈ (stage history (i + 1)).facts.keys

/-- The text comes in after stage `i`, and not once more later on. -/
def ArrivesLast (history : List Command) (k : String) (i : Nat) : Prop :=
  Arrives history k i ∧ ∀ j, i < j → ¬ Arrives history k j

section Arrival

variable {history : List Command} {k k' : String} {i i' : Nat}

theorem ArrivesLast.unique (h : ArrivesLast history k i) (h' : ArrivesLast history k i') :
    i = i' := by
  rcases Nat.lt_trichotomy i i' with hlt | heq | hlt
  · exact absurd h'.1 (h.2 i' hlt)
  · exact heq
  · exact absurd h.1 (h'.2 i hlt)

/-- Behind the last change the stages stay the same. -/
theorem stage_of_le {n : Nat} (h : (changes history).length ≤ n) :
    stage history n = stage history (changes history).length := by
  rw [stage, stage, List.take_of_length_le h, List.take_length]

/-- What has been there since a stage came in last after it. -/
theorem arrivesLast_of_since
    (h : Since (fun n => (stage history n).facts.keys) (changes history).length k i) :
    ArrivesLast history k i := by
  obtain ⟨hi, habsent, hthere⟩ := h
  refine ⟨⟨habsent, hthere (i + 1) (Nat.lt_succ_self i) hi⟩, fun j hj harrives => harrives.1 ?_⟩
  rcases Nat.le_total j (changes history).length with hle | hge
  · exact hthere j hj hle
  · rw [stage_of_le hge]
    exact hthere _ hi (Nat.le_refl _)

/-- **Of two stored texts the one that came in last before the other stands before it.** -/
theorem idxOf_lt_iff_arrives (hk : k ∈ (empty.after history).facts.keys)
    (hk' : k' ∈ (empty.after history).facts.keys) :
    (empty.after history).facts.keys.idxOf k < (empty.after history).facts.keys.idxOf k' ↔
      ∃ i i', ArrivesLast history k i ∧ ArrivesLast history k' i' ∧ i < i' := by
  have hn : (empty.after history).facts.keys.Nodup := (sound_after history).distinct
  rw [after_eq_stage] at hk hk' hn ⊢
  obtain ⟨hsince, horder⟩ := pairwise_since (K := fun n => (stage history n).facts.keys) rfl
    (keys_stage_succ history) (changes history).length
  -- positions go with the times
  have hlt : ∀ {a b : String} {i i' : Nat},
      a ∈ (stage history (changes history).length).facts.keys →
      b ∈ (stage history (changes history).length).facts.keys →
      Since (fun n => (stage history n).facts.keys) (changes history).length a i →
      Since (fun n => (stage history n).facts.keys) (changes history).length b i' →
      (stage history (changes history).length).facts.keys.idxOf a <
        (stage history (changes history).length).facts.keys.idxOf b → i < i' := by
    intro a b i i' ha hb hi hi' hab
    have hrel := List.pairwise_iff_getElem.mp horder _ _ (List.idxOf_lt_length_of_mem ha)
      (List.idxOf_lt_length_of_mem hb) hab
    rw [List.getElem_idxOf, List.getElem_idxOf] at hrel
    exact hrel i i' hi hi'
  obtain ⟨i, hi⟩ := hsince k hk
  obtain ⟨i', hi'⟩ := hsince k' hk'
  constructor
  · exact fun hab => ⟨i, i', arrivesLast_of_since hi, arrivesLast_of_since hi', hlt hk hk' hi hi' hab⟩
  · rintro ⟨j, j', hj, hj', hjj⟩
    rw [hj.unique (arrivesLast_of_since hi), hj'.unique (arrivesLast_of_since hi')] at hjj
    rcases Nat.lt_trichotomy ((stage history (changes history).length).facts.keys.idxOf k)
      ((stage history (changes history).length).facts.keys.idxOf k') with h | h | h
    · exact h
    · rw [List.idxOf_inj hk] at h
      subst h
      rw [hi.unique hi'] at hjj
      exact absurd hjj (Nat.lt_irrefl _)
    · exact absurd (hlt hk' hk hi' hi h) (Nat.lt_asymm hjj)

end Arrival

end Store

end Blackboard
