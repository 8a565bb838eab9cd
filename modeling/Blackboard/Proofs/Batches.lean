import Blackboard.Proofs.Bindings
import Blackboard.Proofs.Removals

/-!
# What a batch does

On a sound store a batch is refused as a whole or goes through as a whole. It is refused if a
pattern has holes or an assertion is not ground, and then nothing has changed
(`Store.apply_refused`). Otherwise no step of it can fail (`Store.Sound.apply_eq`): what any of the
patterns strikes is gone, and the assertions are put into what is left, one after another.

A row of facts that is put into a store replaces facts in their places and brings the other texts
behind them, each where it stands first in the row (`Store.keys_putAll`); under a text the last
fact of the row counts (`Store.get?_putAll`). Together this is **the store after a batch**
(`Store.apply_outcome`).
-/

namespace Blackboard.Store

/-! ## 1. Putting rows of facts -/

/-- The store with a row of facts, each put under its text. -/
def putAll (s : Store) (fs : List Fact) : Store := fs.foldl put s

/-- The last fact of a row that has the given text. -/
def lastOf (fs : List Fact) (k : String) : Option Fact := (fs.filter fun f => f.key == k).getLast?

theorem get?_put (s : Store) (f : Fact) (k : String) :
    (s.put f).get? k = if k = f.key then some f else s.get? k :=
  OrderedMap.get?_insert s.facts f.key f k

theorem putAll_concat (s : Store) (fs : List Fact) (f : Fact) :
    s.putAll (fs ++ [f]) = (s.putAll fs).put f := by
  simp [putAll]

theorem lastOf_concat (fs : List Fact) (f : Fact) (k : String) :
    lastOf (fs ++ [f]) k = if k = f.key then some f else lastOf fs k := by
  by_cases hk : k = f.key
  · simp [lastOf, hk]
  · simp [lastOf, hk, Ne.symm hk]

theorem isSome_lastOf {fs : List Fact} {k : String} :
    (lastOf fs k).isSome = true ↔ k ∈ fs.map Fact.key := by
  rw [lastOf, Option.isSome_iff_ne_none, Ne, List.getLast?_eq_none_iff, List.filter_eq_nil_iff]
  simp

/-- Under a text the last fact of the row counts. -/
theorem get?_putAll (s : Store) (fs : List Fact) (k : String) :
    (s.putAll fs).get? k = (lastOf fs k).or (s.get? k) := by
  induction fs using List.reverseRecOn with
  | nil => rfl
  | append_singleton fs f ih =>
    rw [putAll_concat, lastOf_concat, get?_put]
    split
    · rfl
    · exact ih

/-- The texts that were there stay in their places, and the others come behind them, each where it
    stands first in the row. -/
theorem keys_putAll (s : Store) (fs : List Fact) :
    (s.putAll fs).facts.keys =
      s.facts.keys ++ (fs.map Fact.key).eraseDups.filter (· ∉ s.facts.keys) := by
  induction fs using List.reverseRecOn with
  | nil => simp [putAll]
  | append_singleton fs f ih =>
    rw [putAll_concat, List.map_append, List.map_singleton, eraseDups_concat]
    show ((s.putAll fs).facts.insert f.key f).keys = _
    rw [OrderedMap.keys_insert, ih]
    by_cases hold : f.key ∈ s.facts.keys
    · by_cases hrow : f.key ∈ fs.map Fact.key
      · simp [hold, hrow]
      · simp [hold, hrow]
    · by_cases hrow : f.key ∈ fs.map Fact.key
      · simp [hold, hrow]
      · simp [hold, hrow]

section Sound

variable {P : Sentence → Prop} {s : Store}

/-! ## 2. Batches -/

/-- The facts that an asserter makes of sentences. -/
def factsOf (asserter : String) (assertions : List Sentence) : List Fact :=
  assertions.map fun terms => { terms, asserter }

theorem key_factsOf (asserter : String) (assertions : List Sentence) :
    (factsOf asserter assertions).map Fact.key = assertions.map Sentence.render := by
  simp [factsOf, Function.comp_def, Fact.key]

theorem lastOf_factsOf (asserter : String) (assertions : List Sentence) (k : String) :
    lastOf (factsOf asserter assertions) k =
      ((assertions.filter fun f => f.render == k).getLast?).map fun terms =>
        { terms, asserter } := by
  rw [lastOf, factsOf, List.filter_map, List.getLast?_map]
  rfl

/-- Ground sentences are put into the store as facts. -/
theorem assertEach_eq (s : Store) (asserter : String) {fs : List Sentence}
    (hfs : ∀ f ∈ fs, f.isGround = true) :
    s.assertEach asserter fs = (.ok fs.length, s.putAll (factsOf asserter fs)) := by
  induction fs generalizing s with
  | nil => rfl
  | cons f fs ih =>
    have hrest := ih (s.put { terms := f, asserter }) fun g hg => hfs g (List.mem_cons_of_mem _ hg)
    rw [assertEach, assert_of_isGround s asserter (hfs f List.mem_cons_self)]
    dsimp only
    rw [hrest]
    rfl

/-- Whether a batch is taken: no pattern has holes, and all assertions are ground. -/
def Accepted (retractions assertions : List Sentence) : Prop :=
  (∀ p ∈ retractions, p.hasHoles = false) ∧ ∀ f ∈ assertions, f.isGround = true

theorem not_accepted_iff {retractions assertions : List Sentence} :
    ¬ Accepted retractions assertions ↔
      (∃ p ∈ retractions, p.hasHoles = true) ∨ ∃ f ∈ assertions, f.isGround = false := by
  rw [Accepted, not_and_or]
  simp

/-- A batch that is not taken changes nothing. -/
theorem apply_refused (s : Store) (asserter : String) {retractions assertions : List Sentence}
    (h : ¬ Accepted retractions assertions) :
    ∃ e, s.apply asserter retractions assertions = (.error e, s) := by
  rw [Store.apply]
  cases hholes : retractions.find? Sentence.hasHoles with
  | some p => exact ⟨_, rfl⟩
  | none =>
    cases hground : assertions.find? fun f => !f.isGround with
    | some f => exact ⟨_, rfl⟩
    | none =>
      rw [List.find?_eq_none] at hholes hground
      refine absurd ⟨fun p hp => ?_, fun f hf => ?_⟩ h
      · simpa using hholes p hp
      · simpa using hground f hf

theorem accepted_of_apply {asserter : String} {retractions assertions : List Sentence}
    {o : FlushOutcome} (h : (s.apply asserter retractions assertions).1 = .ok o) :
    Accepted retractions assertions := by
  by_contra hrefused
  obtain ⟨e, he⟩ := apply_refused s asserter hrefused
  rw [he] at h
  cases h

/-- **A batch that is taken goes through**: what its patterns strike is gone, and its assertions are
    put into what is left. -/
theorem Sound.apply_eq (h : Sound P s) (asserter : String) {retractions assertions : List Sentence}
    (hok : Accepted retractions assertions) :
    s.apply asserter retractions assertions =
      (.ok ⟨s.facts.values.countP fun f => retractions.any (·.strikes f), assertions.length⟩,
        (s.without fun f => retractions.any (·.strikes f)).putAll
          (factsOf asserter assertions)) := by
  have hholes : retractions.find? Sentence.hasHoles = none :=
    List.find?_eq_none.mpr fun p hp => by simp [hok.1 p hp]
  have hground : (assertions.find? fun f => !f.isGround) = none :=
    List.find?_eq_none.mpr fun f hf => by simp [hok.2 f hf]
  rw [Store.apply, hholes, hground]
  dsimp only
  rw [h.retractEach_eq hok.1]
  dsimp only
  rw [assertEach_eq _ asserter hok.2]

/-- Under a text of the store after a batch is found what is asserted last under it, and what was
    found before if nothing is. -/
theorem get?_putAll_factsOf (hn : s.facts.keys.Nodup) {test : Fact → Bool} {asserter : String}
    {assertions : List Sentence} {k : String}
    (hk : k ∈ ((s.without test).putAll (factsOf asserter assertions)).facts.keys) :
    ((s.without test).putAll (factsOf asserter assertions)).get? k =
      match (assertions.filter fun f => f.render == k).getLast? with
      | some terms => some { terms, asserter }
      | none => s.get? k := by
  rw [get?_putAll, lastOf_factsOf]
  cases hlast : (assertions.filter fun f => f.render == k).getLast? with
  | some terms => rfl
  | none =>
    -- a text that is not asserted is there because it was kept
    have hnew : k ∉ (factsOf asserter assertions).map Fact.key := by
      rw [← isSome_lastOf, lastOf_factsOf, hlast]
      simp
    rw [keys_putAll, List.mem_append] at hk
    refine get?_without_of_mem hn (hk.resolve_right fun hk => hnew ?_)
    exact List.mem_eraseDups.mp (List.mem_filter.mp hk).1

/-- A batch without holes whose assertions are ground goes through. -/
theorem Sound.exists_apply (h : Sound P s) (asserter : String) {retractions assertions : List Sentence}
    (hr : ∀ p ∈ retractions, p.hasHoles = false) (ha : ∀ f ∈ assertions, f.isGround = true) :
    ∃ o s', s.apply asserter retractions assertions = (.ok o, s') :=
  ⟨_, _, h.apply_eq asserter ⟨hr, ha⟩⟩

end Sound

/-- **The store after a batch.** A batch fails exactly if one of its patterns has holes or one of its
    assertions is not ground, and then the store is as before. Otherwise what no pattern strikes
    stays in its order, the texts that are new come behind it, each where it is first asserted, and
    what is asserted stands as it is asserted last, by the asserter of the batch and without
    evidence. All else is as it was. The counts are those of the facts that were struck and of the
    assertions. -/
theorem apply_outcome (history : List Command) (asserter : String)
    (retractions assertions : List Sentence) :
    let s := empty.after history
    let r := s.apply asserter retractions assertions
    let struck : Fact → Bool := fun f => retractions.any (·.strikes f)
    let kept : List String := (s.facts.entries.filter fun e => !struck e.2).map Prod.fst
    ((∃ e, r.1 = .error e) ↔
        (∃ p ∈ retractions, p.hasHoles = true) ∨ ∃ f ∈ assertions, f.isGround = false) ∧
      ((∃ e, r.1 = .error e) → r.2 = s) ∧
      ∀ o, r.1 = .ok o →
        o.retracted = s.facts.values.countP struck ∧ o.asserted = assertions.length ∧
        r.2.facts.keys = kept ++ (assertions.map Sentence.render).eraseDups.filter (· ∉ kept) ∧
        ∀ k ∈ r.2.facts.keys, r.2.get? k =
          match (assertions.filter fun f => f.render == k).getLast? with
          | some terms => some { terms, asserter }
          | none => s.get? k := by
  intro s r struck kept
  have hs : Sound (fun _ => True) s := sound_after history
  by_cases hok : Accepted retractions assertions
  · have happly : r = _ := hs.apply_eq asserter hok
    have hnone : ¬ ∃ e, r.1 = .error e := by
      rintro ⟨e, he⟩
      rw [happly] at he
      cases he
    refine ⟨iff_of_false hnone fun hbad => not_accepted_iff.mpr hbad hok,
      fun herror => absurd herror hnone, fun o ho => ?_⟩
    rw [happly] at ho ⊢
    cases ho
    refine ⟨rfl, rfl, ?_, fun k hk => get?_putAll_factsOf hs.distinct hk⟩
    rw [keys_putAll, key_factsOf]
    rfl
  · obtain ⟨e, he⟩ := apply_refused s asserter hok
    have hr : r = (.error e, s) := he
    rw [hr]
    exact ⟨iff_of_true ⟨e, rfl⟩ (not_accepted_iff.mp hok), fun _ => rfl, fun o ho => by cases ho⟩

end Blackboard.Store
