import Blackboard.Store.Command

/-!
# What every store keeps

Whatever is done to a store, the texts of its facts are distinct, every fact stands under its own
text, and every fact is ground (`Store.Sound`). The predicate takes along any property `P` of
sentences that all asserted sentences have, such as being free of NaNs.

A store changes in two ways only: a fact is taken away, or a fact is put under its own text. So each
operation is followed down to `Sound.erase` and `Sound.put`, and a history down to its commands
(`Store.after_sound`).
-/

namespace Blackboard

namespace Store

/-- A ground sentence is put under its text. -/
theorem assert_of_isGround (s : Store) (asserter : String) {f : Sentence}
    (hf : f.isGround = true) :
    s.assert asserter f = (.ok f.render, s.put { terms := f, asserter }) := by
  rw [Store.assert, if_pos hf]
  rfl

/-- Any other sentence is refused. -/
theorem assert_of_not_isGround (s : Store) (asserter : String) {f : Sentence}
    (hf : ¬ f.isGround = true) :
    s.assert asserter f = (.error (.ungroundedAssert f.render), s) := by
  rw [Store.assert, if_neg hf]

/-! ## 1. The invariant -/

/-- The texts are distinct, every fact stands under its own text and is ground, and its terms have
    the property `P`. -/
structure Sound (P : Sentence → Prop) (s : Store) : Prop where
  distinct : s.facts.keys.Nodup
  keyed : ∀ e ∈ s.facts.entries, e.1 = e.2.key
  ground : ∀ e ∈ s.facts.entries, e.2.terms.isGround = true
  holds : ∀ e ∈ s.facts.entries, P e.2.terms

section Sound

variable {P : Sentence → Prop} {s : Store}

theorem sound_empty : Sound P empty where
  distinct := List.nodup_nil
  keyed _ h := absurd h List.not_mem_nil
  ground _ h := absurd h List.not_mem_nil
  holds _ h := absurd h List.not_mem_nil

theorem Sound.erase (h : Sound P s) (k : String) : Sound P ⟨s.facts.erase k⟩ where
  distinct := OrderedMap.nodup_keys_erase h.distinct k
  keyed e he := h.keyed e (OrderedMap.mem_entries_erase.mp he).1
  ground e he := h.ground e (OrderedMap.mem_entries_erase.mp he).1
  holds e he := h.holds e (OrderedMap.mem_entries_erase.mp he).1

theorem Sound.put (h : Sound P s) {f : Fact} (hg : f.terms.isGround = true) (hP : P f.terms) :
    Sound P (s.put f) where
  distinct := OrderedMap.nodup_keys_insert h.distinct _ _
  keyed e he := by
    rcases OrderedMap.mem_of_mem_insert he with rfl | he
    · rfl
    · exact h.keyed e he
  ground e he := by
    rcases OrderedMap.mem_of_mem_insert he with rfl | he
    · exact hg
    · exact h.ground e he
  holds e he := by
    rcases OrderedMap.mem_of_mem_insert he with rfl | he
    · exact hP
    · exact h.holds e he

/-- The facts of a store are ground. -/
theorem Sound.isGround_of_mem (h : Sound P s) {f : Fact} (hf : f ∈ s.facts.values) :
    f.terms.isGround = true := by
  obtain ⟨e, he, rfl⟩ := List.mem_map.mp hf
  exact h.ground e he

theorem Sound.holds_of_mem (h : Sound P s) {f : Fact} (hf : f ∈ s.facts.values) : P f.terms := by
  obtain ⟨e, he, rfl⟩ := List.mem_map.mp hf
  exact h.holds e he

/-- A property that all facts of a sound store have is kept as well. -/
theorem Sound.with_holds (h : Sound P s) {Q : Sentence → Prop}
    (hQ : ∀ f ∈ s.facts.values, Q f.terms) : Sound Q s where
  distinct := h.distinct
  keyed := h.keyed
  ground := h.ground
  holds _ he := hQ _ (List.mem_map_of_mem he)

/-- A fact of a store is found under its text, and nothing else is. -/
theorem Sound.get?_eq_some_iff (h : Sound P s) {k : String} {f : Fact} :
    s.get? k = some f ↔ f ∈ s.facts.values ∧ f.key = k := by
  constructor
  · intro hk
    have he := OrderedMap.mem_of_get? hk
    exact ⟨List.mem_map.mpr ⟨_, he, rfl⟩, (h.keyed _ he).symm⟩
  · rintro ⟨hf, rfl⟩
    obtain ⟨e, he, rfl⟩ := List.mem_map.mp hf
    have hk : (e.2.key, e.2) ∈ s.facts.entries := by rw [← h.keyed e he]; exact he
    exact OrderedMap.get?_of_mem h.distinct hk

/-! ## 2. The operations -/

theorem Sound.removeAll (h : Sound P s) (ks : List String) : Sound P (s.removeAll ks).2 := by
  induction ks generalizing s with
  | nil => exact h
  | cons k ks ih => exact ih (h.erase k)

theorem Sound.assert (h : Sound P s) (asserter : String) {terms : Sentence}
    (hP : terms.isGround = true → P terms) : Sound P (s.assert asserter terms).2 := by
  unfold Store.assert
  split
  · rename_i hg
    exact h.put hg (hP hg)
  · exact h

theorem Sound.cite (h : Sound P s) (key : String) (evidence : List Sentence) :
    Sound P (s.cite key evidence).2 := by
  unfold Store.cite
  dsimp only
  split
  · split
    · rename_i f hf
      obtain ⟨hmem, rfl⟩ := h.get?_eq_some_iff.mp hf
      have hg : f.terms.isGround = true := h.isGround_of_mem hmem
      have hP : P f.terms := h.holds_of_mem hmem
      exact h.put (f := f.citing _) hg hP
    · exact h
  · exact h

theorem Sound.assertCiting (h : Sound P s) (asserter : String) {terms : Sentence}
    (hP : terms.isGround = true → P terms) (evidence : List Sentence) :
    Sound P (s.assertCiting asserter terms evidence).2 := by
  unfold Store.assertCiting
  have ha := h.assert asserter hP
  split
  · rename_i heq
    rw [heq] at ha
    exact ha.cite _ _
  · rename_i heq
    rw [heq] at ha
    exact ha

theorem Sound.retract (h : Sound P s) (pattern : Sentence) : Sound P (s.retract pattern).2 := by
  unfold Store.retract
  split
  · exact h
  · split
    · split
      · exact h.removeAll _
      · exact h
    · exact h.removeAll _

theorem Sound.retractEach (h : Sound P s) (patterns : List Sentence) :
    Sound P (s.retractEach patterns).2 := by
  induction patterns generalizing s with
  | nil => exact h
  | cons p ps ih =>
    have hp := h.retract p
    unfold Store.retractEach
    split
    · rename_i heq
      rw [heq] at hp
      have hps := ih hp
      split
      · rename_i heq'
        rw [heq'] at hps
        exact hps
      · exact hps
    · exact hp

theorem Sound.assertEach (h : Sound P s) (asserter : String) {facts : List Sentence}
    (hP : ∀ f ∈ facts, f.isGround = true → P f) : Sound P (s.assertEach asserter facts).2 := by
  induction facts generalizing s with
  | nil => exact h
  | cons f fs ih =>
    have hf := h.assert asserter (hP f List.mem_cons_self)
    unfold Store.assertEach
    split
    · rename_i heq
      rw [heq] at hf
      have hfs := ih hf fun g hg => hP g (List.mem_cons_of_mem _ hg)
      split
      · rename_i heq'
        rw [heq'] at hfs
        exact hfs
      · exact hfs
    · rename_i heq
      rw [heq] at hf
      exact hf

theorem Sound.apply (h : Sound P s) (asserter : String) (retractions : List Sentence)
    {assertions : List Sentence} (hP : ∀ f ∈ assertions, f.isGround = true → P f) :
    Sound P (s.apply asserter retractions assertions).2 := by
  unfold Store.apply
  split
  · exact h
  · split
    · exact h
    · have hr := h.retractEach retractions
      split
      · rename_i heq
        rw [heq] at hr
        exact hr
      · rename_i heq
        rw [heq] at hr
        have ha := hr.assertEach asserter hP
        split
        · rename_i heq'
          rw [heq'] at ha
          exact ha
        · rename_i heq'
          rw [heq'] at ha
          exact ha

end Sound

/-! ## 3. Histories -/

/-- The sentences that a command may bring into a store. -/
def Command.asserted : Command → List Sentence
  | .assert _ fact | .assertCiting _ fact _ => [fact]
  | .apply _ _ assertions => assertions
  | .retract _ | .forgetAbout _ | .forgetBy _ => []

/-- **A command keeps the invariant.** -/
theorem Sound.perform {P : Sentence → Prop} {s : Store} (h : Sound P s) {c : Command}
    (hP : ∀ f ∈ c.asserted, f.isGround = true → P f) : Sound P (s.perform c).2 := by
  cases c with
  | assert asserter fact => exact h.assert asserter (hP fact List.mem_cons_self)
  | assertCiting asserter fact evidence =>
    exact h.assertCiting asserter (hP fact List.mem_cons_self) evidence
  | retract pattern => exact h.retract pattern
  | forgetAbout name => exact h.removeAll _
  | forgetBy asserter => exact h.removeAll _
  | apply asserter retractions assertions => exact h.apply asserter retractions hP

/-- **Every store that a history leads to is sound**, with any property that all asserted sentences
    have. -/
theorem after_sound {P : Sentence → Prop} {s : Store} (h : Sound P s) {history : List Command}
    (hP : ∀ c ∈ history, ∀ f ∈ c.asserted, f.isGround = true → P f) :
    Sound P (s.after history) := by
  induction history generalizing s with
  | nil => exact h
  | cons c cs ih =>
    have hc := h.perform (hP c List.mem_cons_self)
    exact ih hc fun d hd => hP d (List.mem_cons_of_mem _ hd)

theorem after_append (s : Store) (history later : List Command) :
    s.after (history ++ later) = (s.after history).after later :=
  List.foldl_append

/-- Every store that a history leads to from the empty one is sound. -/
theorem sound_after (history : List Command) : Sound (fun _ => True) (empty.after history) :=
  after_sound sound_empty fun _ _ _ _ _ => trivial

end Store

end Blackboard
