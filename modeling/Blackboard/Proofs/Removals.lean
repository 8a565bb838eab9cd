import Blackboard.Proofs.Matching
import Blackboard.Proofs.StoreInvariant

/-!
# What is taken away

On a sound store every operation that takes facts away leaves a store that is said by a test on
facts: the others, in their order (`Store.without`). The number that it answers with is the number of
facts for which the test holds.

* The facts under given texts are taken away each once, however often a text is given
  (`Store.removeAll_eq`).
* A pattern strikes a fact by its text or by a match (`Sentence.strikes`). **A retraction takes away
  what its pattern strikes** (`Store.Sound.retract_eq`), and a row of retractions what any of its
  patterns strikes (`Store.Sound.retractEach_eq`).
* Forgetting takes away the facts that mention a name, or those of an asserter
  (`Store.Sound.removeWhere_eq`).
-/

namespace Blackboard

/-! ## 1. Stores without some facts -/

namespace Store

/-- The store without the facts for which a test holds. -/
def without (s : Store) (test : Fact → Bool) : Store :=
  ⟨⟨s.facts.entries.filter fun e => !test e.2⟩⟩

section Without

variable {P : Sentence → Prop} {s : Store}

theorem without_without (s : Store) (test test' : Fact → Bool) :
    (s.without test).without test' = s.without fun f => test f || test' f := by
  simp only [without, List.filter_filter, Bool.not_or]
  congr 3
  funext e
  rw [Bool.and_comm]

theorem without_none (s : Store) : (s.without fun _ => false) = s := by
  obtain ⟨⟨es⟩⟩ := s
  simp [without]

theorem values_without (s : Store) (test : Fact → Bool) :
    (s.without test).facts.values = s.facts.values.filter fun f => !test f := by
  simp [without, OrderedMap.values, List.filter_map, Function.comp_def]

/-- The test holds for the facts that are taken away, each counted once. -/
theorem countP_without (s : Store) (test test' : Fact → Bool) :
    s.facts.values.countP test + (s.without test).facts.values.countP test' =
      s.facts.values.countP fun f => test f || test' f := by
  rw [values_without]
  induction s.facts.values with
  | nil => rfl
  | cons f fs ih =>
    cases htest : test f with
    | true => simp [htest, ← ih, Nat.add_right_comm]
    | false => simp [List.countP_cons, htest, ← ih, Nat.add_assoc]

/-- The facts that are taken away and those that are left are all of them. -/
theorem size_without (s : Store) (test : Fact → Bool) :
    s.facts.values.countP test + (s.without test).size = s.size := by
  have hsize : ∀ t : Store, t.size = t.facts.values.length := by
    simp [size, OrderedMap.size, OrderedMap.values]
  rw [hsize, hsize, values_without, ← List.countP_eq_length_filter]
  simpa using (List.length_eq_countP_add_countP test).symm

/-- Facts are not taken away twice. -/
theorem without_of_imp (s : Store) {test test' : Fact → Bool}
    (h : ∀ f, test' f = true → test f = true) :
    (s.without test).without test' = s.without test ∧
      (s.without test).facts.values.countP test' = 0 := by
  constructor
  · have hor : (fun f => test f || test' f) = test := by
      funext f
      cases hf : test' f with
      | true => simp [h f hf]
      | false => simp
    rw [without_without, hor]
  · rw [List.countP_eq_zero, values_without]
    intro f hf htest'
    simp [h f htest'] at hf

/-- What is found without some facts is what was found, unless the test holds for it. -/
theorem get?_without (hn : s.facts.keys.Nodup) (test : Fact → Bool) (k : String) :
    (s.without test).get? k = (s.get? k).filter fun f => !test f := by
  obtain ⟨⟨es⟩⟩ := s
  show lookupEntry k (es.filter fun e => !test e.2) = (lookupEntry k es).filter fun f => !test f
  replace hn : (es.map Prod.fst).Nodup := hn
  induction es with
  | nil => rfl
  | cons e es ih =>
    rw [List.map_cons, List.nodup_cons] at hn
    have hrest := ih hn.2
    by_cases hk : k = e.1
    · subst hk
      cases htest : test e.2 with
      | false => simp [lookupEntry, htest, Option.filter]
      | true =>
        -- the key stands nowhere else
        have hnone : lookupEntry e.1 es = none := by
          rw [← Option.not_isSome_iff_eq_none, OrderedMap.isSome_lookupEntry]
          exact hn.1
        rw [List.filter_cons_of_neg (by simp [htest]), hrest, hnone]
        simp [lookupEntry, htest, Option.filter]
    · cases htest : test e.2 with
      | false => simpa [lookupEntry, htest, hk] using hrest
      | true => simpa [lookupEntry, htest, hk] using hrest

/-- The texts that are left are those under which the test does not hold. -/
theorem keys_without (hn : s.facts.keys.Nodup) (test : Fact → Bool) :
    (s.without test).facts.keys = s.facts.keys.filter fun k => (s.get? k).any fun f => !test f := by
  have hentries : ∀ e ∈ s.facts.entries,
      (!test e.2) = (s.get? e.1).any fun f => !test f := by
    intro e he
    have hget : s.get? e.1 = some e.2 := OrderedMap.get?_of_mem hn he
    rw [hget, Option.any_some]
  rw [OrderedMap.keys, without, List.filter_congr hentries, OrderedMap.keys, List.filter_map]
  rfl

theorem nodup_without (hn : s.facts.keys.Nodup) (test : Fact → Bool) :
    (s.without test).facts.keys.Nodup := by
  rw [keys_without hn]
  exact hn.filter _

/-- Under a text that is left the same is found. -/
theorem get?_without_of_mem (hn : s.facts.keys.Nodup) {test : Fact → Bool} {k : String}
    (hk : k ∈ (s.without test).facts.keys) : (s.without test).get? k = s.get? k := by
  rw [keys_without hn, List.mem_filter, Option.any_eq_true] at hk
  obtain ⟨-, f, hf, htest⟩ := hk
  rw [get?_without hn, hf, Option.filter, if_pos htest]

theorem Sound.without (h : Sound P s) (test : Fact → Bool) : Sound P (s.without test) where
  distinct := nodup_without h.distinct test
  keyed e he := h.keyed e (List.mem_of_mem_filter he)
  ground e he := h.ground e (List.mem_of_mem_filter he)
  holds e he := h.holds e (List.mem_of_mem_filter he)

end Without

/-! ## 2. Removing by texts -/

/-- Of distinct texts one more is among the given ones if one more is given that is there. -/
theorem countP_contains_cons {keys : List String} (hn : keys.Nodup) (k : String)
    (ks : List String) :
    keys.countP ((k :: ks).contains ·) =
      (keys.filter (· != k)).countP (ks.contains ·) + if k ∈ keys then 1 else 0 := by
  rw [List.countP_eq_countP_filter_add keys _ (· != k)]
  congr 1
  · refine List.countP_congr fun j hj => ?_
    have hne : j ≠ k := by simpa using (List.mem_filter.mp hj).2
    simp [hne]
  · have hall : ∀ j ∈ keys.filter fun j => !(j != k), (k :: ks).contains j = true := by
      intro j hj
      have heq : j = k := by simpa using (List.mem_filter.mp hj).2
      simp [heq]
    rw [List.countP_eq_length.mpr hall, ← hn.count]
    simp [List.count, List.countP_eq_length_filter, bne, Bool.not_not]

/-- Texts that are not there are passed over, and a text that is given twice counts once. -/
theorem removeAll_eq {s : Store} (hn : s.facts.keys.Nodup) (ks : List String) :
    s.removeAll ks =
      (s.facts.keys.countP (ks.contains ·),
        ⟨⟨s.facts.entries.filter fun e => !ks.contains e.1⟩⟩) := by
  induction ks generalizing s with
  | nil => simp [removeAll]
  | cons k ks ih =>
    have hrest := ih (s := ⟨s.facts.erase k⟩) (OrderedMap.nodup_keys_erase hn k)
    have hthere : s.facts.contains k = true ↔ k ∈ s.facts.keys := OrderedMap.isSome_lookupEntry
    rw [removeAll, hrest, countP_contains_cons hn, OrderedMap.keys_erase]
    simp only [OrderedMap.erase, List.filter_filter, hthere]
    refine Prod.ext ?_ ?_
    · by_cases hk : k ∈ s.facts.keys <;> simp [hk]
    · simp only [List.contains_cons, Bool.not_or, bne, Bool.and_comm]

/-- Removing texts by which exactly the facts are known for which a test holds. -/
theorem removeAll_eq_without {s : Store} (hn : s.facts.keys.Nodup) {ks : List String}
    {test : Fact → Bool} (hks : ∀ e ∈ s.facts.entries, e.1 ∈ ks ↔ test e.2 = true) :
    s.removeAll ks = (s.facts.values.countP test, s.without test) := by
  have htest : ∀ e ∈ s.facts.entries, ks.contains e.1 = test e.2 := by
    intro e he
    rw [Bool.eq_iff_iff, ← hks e he, List.contains_iff_mem]
  have hcount : s.facts.keys.countP (ks.contains ·) = s.facts.values.countP test := by
    simp only [OrderedMap.keys, OrderedMap.values, List.countP_map]
    exact List.countP_congr fun e he => by simp [← htest e he]
  have hkept : (s.facts.entries.filter fun e => !ks.contains e.1) =
      s.facts.entries.filter fun e => !test e.2 :=
    List.filter_congr fun e he => by rw [htest e he]
  rw [removeAll_eq hn, hcount, hkept]
  rfl

/-- **Facts are forgotten by a test.** -/
theorem Sound.removeWhere_eq {P : Sentence → Prop} {s : Store} (h : Sound P s)
    (test : Fact → Bool) :
    s.removeWhere test = (s.facts.values.countP test, s.without test) := by
  refine removeAll_eq_without h.distinct fun e he => ?_
  rw [List.mem_map]
  constructor
  · rintro ⟨d, hd, hkey⟩
    obtain ⟨hd, htest⟩ := List.mem_filter.mp hd
    -- entries of one text are one entry
    have hget : s.get? e.1 = some e.2 := OrderedMap.get?_of_mem h.distinct he
    have hget' : s.get? d.1 = some d.2 := OrderedMap.get?_of_mem h.distinct hd
    rw [hkey, hget] at hget'
    exact (Option.some.inj hget') ▸ htest
  · intro htest
    exact ⟨e, List.mem_filter.mpr ⟨he, htest⟩, rfl⟩

end Store

/-! ## 3. Retractions -/

/-- Whether the retraction of a pattern takes a fact away. A pattern with variables or wildcards
    takes away what it matches, any other the fact of its text. -/
def Sentence.strikes (p : Sentence) (f : Fact) : Bool :=
  if p.isOpen then matchSentence p f.terms .empty matches .ok (some _) else f.key == p.render

namespace Store

section Sound

variable {P : Sentence → Prop} {s : Store}

/-- The facts that a pattern matches are found without a fault. -/
theorem matching_eq {es : List (String × Fact)} (hes : ∀ e ∈ es, e.2.terms.isGround = true)
    {p : Sentence} (hp : p.hasHoles = false) (hopen : p.isOpen = true) :
    matching p es = .ok ((es.filter fun e => p.strikes e.2).map Prod.fst) := by
  induction es with
  | nil => rfl
  | cons e es ih =>
    have hmatch := matchSentence_eq Env.isGround_empty.findsGround hp (hes e List.mem_cons_self)
    have hrest := ih fun d hd => hes d (List.mem_cons_of_mem _ hd)
    rw [matching, hmatch, hrest, List.filter_cons]
    simp only [Sentence.strikes, hopen, if_true, hmatch]
    cases Sentence.matched p e.2.terms .empty with
    | none => rfl
    | some _ => rfl

/-- **A retraction takes away what its pattern strikes.** -/
theorem Sound.retract_eq (h : Sound P s) {p : Sentence} (hp : p.hasHoles = false) :
    s.retract p = (.ok (s.facts.values.countP p.strikes), s.without p.strikes) := by
  rw [Store.retract, if_neg (by simp [hp])]
  split
  · rename_i hopen
    rw [matching_eq h.ground hp hopen]
    have hwhere := h.removeWhere_eq p.strikes
    unfold removeWhere at hwhere
    dsimp only
    rw [hwhere]
  · rename_i hopen
    have hkey : ∀ e ∈ s.facts.entries, e.1 ∈ [p.render] ↔ p.strikes e.2 = true := by
      intro e he
      simp [Sentence.strikes, hopen, h.keyed e he]
    rw [removeAll_eq_without h.distinct hkey]

/-- **Retractions take away what any of their patterns strikes**, and count it once. -/
theorem Sound.retractEach_eq (h : Sound P s) {ps : List Sentence}
    (hps : ∀ p ∈ ps, p.hasHoles = false) :
    s.retractEach ps = (.ok (s.facts.values.countP fun f => ps.any (·.strikes f)),
      s.without fun f => ps.any (·.strikes f)) := by
  induction ps generalizing s with
  | nil => simp [Store.retractEach, without_none]
  | cons p ps ih =>
    have hrest := ih (h.without p.strikes) fun q hq => hps q (List.mem_cons_of_mem _ hq)
    rw [Store.retractEach, h.retract_eq (hps p List.mem_cons_self)]
    dsimp only
    rw [hrest]
    simp only [countP_without, without_without, List.any_cons]

end Sound

end Store

end Blackboard
