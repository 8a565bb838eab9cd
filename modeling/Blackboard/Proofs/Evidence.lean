import Blackboard.Client.Local
import Blackboard.Proofs.Arrivals
import Blackboard.Proofs.Buffers

/-!
# Evidence

An assertion may cite other sentences as its evidence. They are looked up after the fact is stored,
so a fact may cite itself, and they are sorted in two passes, while a third one collects the facts.
The passes agree: **evidence is taken exactly if every sentence of it is ground and stored**
(`Store.cite_of_citable`), and otherwise each sentence that is not is reported in one of two lists
(`Store.cite_of_not_citable`).

* What is taken is kept as the facts that are stored at that moment, one for each cited sentence.
* What is refused leaves the fact stored without evidence. This is the only failure of an assertion
  that changes the store; and none changes what waits in the buffer of the client that makes it
  (`Store.assertCiting_outcome`).
-/

namespace Blackboard

/-- A row of look-ups that all find something finds one thing for each element. -/
theorem forall₂_filterMap {α β : Type} {g : α → Option β} {l : List α}
    (h : ∀ a ∈ l, (g a).isSome = true) :
    List.Forall₂ (fun a b => g a = some b) l (l.filterMap g) := by
  induction l with
  | nil => exact .nil
  | cons a l ih =>
    obtain ⟨b, hb⟩ := Option.isSome_iff_exists.mp (h a List.mem_cons_self)
    rw [List.filterMap_cons_some hb]
    exact .cons hb (ih fun c hc => h c (List.mem_cons_of_mem _ hc))

namespace Store

/-! ## 1. What can be cited -/

/-- A sentence can be cited: it is ground, and a fact stands under its text. -/
def Citable (s : Store) (e : Sentence) : Prop := e.isGround = true ∧ e.render ∈ s.facts.keys

instance (s : Store) (e : Sentence) : Decidable (s.Citable e) := inferInstanceAs (Decidable (_ ∧ _))

/-- The texts of the sentences that are not ground, in their order. -/
def ungrounded (evidence : List Sentence) : List String :=
  (evidence.filter fun e => !e.isGround).map Sentence.render

/-- The texts of the ground sentences under which nothing is stored, in their order. -/
def unstored (s : Store) (evidence : List Sentence) : List String :=
  (evidence.filter fun e => e.isGround && decide (e.render ∉ s.facts.keys)).map Sentence.render

section Cite

variable {s : Store} {key : String} {evidence : List Sentence}

theorem contains_iff_mem_keys {k : String} : s.facts.contains k = true ↔ k ∈ s.facts.keys :=
  OrderedMap.isSome_lookupEntry

/-- Sentences are reported as missing exactly if they are ground and not stored. -/
theorem missing_eq_unstored (s : Store) (evidence : List Sentence) :
    (((evidence.filter Sentence.isGround).map Sentence.render).filter fun k =>
      !s.facts.contains k) = s.unstored evidence := by
  rw [List.filter_map, List.filter_filter, unstored]
  congr 1
  refine List.filter_congr fun e _ => ?_
  have hcontains : (!s.facts.contains e.render) = decide (e.render ∉ s.facts.keys) := by
    rw [Bool.eq_iff_iff]
    simp [← contains_iff_mem_keys]
  rw [Function.comp_apply, hcontains, Bool.and_comm]

/-- Nothing is reported exactly if all can be cited. -/
theorem citable_iff : (∀ e ∈ evidence, s.Citable e) ↔
    (ungrounded evidence).isEmpty = true ∧ (s.unstored evidence).isEmpty = true := by
  simp only [ungrounded, unstored, List.isEmpty_iff, List.map_eq_nil_iff, List.filter_eq_nil_iff,
    Citable]
  grind

/-- **Evidence that can be cited is taken**, and is kept as the facts that are stored. -/
theorem cite_of_citable {f : Fact} (hkey : s.get? key = some f)
    (h : ∀ e ∈ evidence, s.Citable e) :
    ∃ cited, List.Forall₂ (fun e c => s.get? e.render = some c) evidence cited ∧
      s.cite key evidence = (.ok (f.citing cited), ⟨s.facts.insert key (f.citing cited)⟩) := by
  refine ⟨evidence.filterMap fun e => s.get? e.render, forall₂_filterMap fun e he => ?_, ?_⟩
  · exact OrderedMap.isSome_lookupEntry.mpr (h e he).2
  · obtain ⟨hground, hstored⟩ := citable_iff.mp h
    unfold cite
    dsimp only
    rw [missing_eq_unstored, hstored, Bool.and_true, hkey]
    exact if_pos hground

/-- **Evidence that cannot be cited is reported**, all of it, and nothing changes. -/
theorem cite_of_not_citable (h : ¬ ∀ e ∈ evidence, s.Citable e) :
    s.cite key evidence =
      (.error (.invalidEvidence (ungrounded evidence) (s.unstored evidence)), s) := by
  unfold cite
  dsimp only
  rw [missing_eq_unstored, if_neg]
  · rfl
  · rwa [citable_iff, ← Bool.and_eq_true] at h

end Cite

/-! ## 2. Assertions that cite -/

section Assert

variable {s : Store} {f : Sentence}

/-- The fact that was asserted stands under its text. -/
theorem get?_assert (s : Store) (asserter : String) (hf : f.isGround = true) :
    (s.assert asserter f).2.get? f.render = some { terms := f, asserter } := by
  rw [assert_of_isGround s asserter hf]
  exact (get?_put s _ _).trans (if_pos rfl)

/-- Another fact in the place of a stored one. -/
theorem replace_stored {k : String} (h : (s.get? k).isSome = true) (g : Fact) :
    (s.facts.insert k g).keys = s.facts.keys ∧
      ∀ j, (s.facts.insert k g).get? j = if j = k then some g else s.get? j := by
  have hmem : k ∈ s.facts.keys := OrderedMap.isSome_lookupEntry.mp h
  rw [OrderedMap.keys_insert, if_pos hmem]
  exact ⟨rfl, OrderedMap.get?_insert s.facts k g⟩

/-- The fact is stored first, and then its evidence is looked up. -/
theorem assertCiting_of_isGround (s : Store) (asserter : String) (hf : f.isGround = true)
    (evidence : List Sentence) :
    s.assertCiting asserter f evidence = (s.assert asserter f).2.cite f.render evidence := by
  rw [assertCiting, assert_of_isGround s asserter hf]

theorem assertCiting_of_not_isGround (s : Store) (asserter : String) (hf : ¬ f.isGround = true)
    (evidence : List Sentence) :
    s.assertCiting asserter f evidence = (.error (.ungroundedAssert f.render), s) := by
  rw [assertCiting, assert_of_not_isGround s asserter hf]

/-- Only an assertion whose evidence is refused fails and leaves another store. -/
theorem assertCiting_unchanged {asserter : String} {evidence : List Sentence} {e : Failure}
    (he : (s.assertCiting asserter f evidence).1 = .error e)
    (hother : ∀ withVariables missing, e ≠ .invalidEvidence withVariables missing) :
    (s.assertCiting asserter f evidence).2 = s := by
  by_cases hf : f.isGround = true
  · rw [assertCiting_of_isGround s asserter hf] at he
    by_cases hall : ∀ e ∈ evidence, (s.assert asserter f).2.Citable e
    · obtain ⟨cited, -, hcite⟩ := cite_of_citable (get?_assert s asserter hf) hall
      rw [hcite] at he
      cases he
    · rw [cite_of_not_citable hall] at he
      cases he
      exact absurd rfl (hother _ _)
  · rw [assertCiting_of_not_isGround s asserter hf]

end Assert

end Store

/-! ## 3. Clients -/

namespace LocalClient

/-- **An assertion that cites evidence keeps what waits in the buffer**, and of its failures only a
    refusal of the evidence can change the store. -/
theorem assertCiting_kept (c : LocalClient) (s : Store) (fact : Template)
    (evidence : List Template) :
    let made := c.assertCiting s fact evidence
    made.2.1.buffer.asserts = c.buffer.asserts ∧
      made.2.1.buffer.retracts = c.buffer.retracts ∧
      ∀ e, made.1 = .error e → (∀ withVariables missing,
        e ≠ .invalidEvidence withVariables missing) → made.2.2 = s := by
  unfold assertCiting
  obtain ⟨r, hfact⟩ := c.buffer.materialize_cache fact
  rw [hfact]
  cases r with
  | error e => exact ⟨rfl, rfl, fun _ _ _ => rfl⟩
  | ok f =>
    dsimp only
    obtain ⟨r, cache, hall⟩ := MutationBuffer.materializeAll_cache
      { c.buffer with cache := (fact.materialize c.buffer.cache).2 } evidence
    rw [hall]
    cases r with
    | error e => exact ⟨rfl, rfl, fun _ _ _ => rfl⟩
    | ok cited => exact ⟨rfl, rfl, fun e he hother => Store.assertCiting_unchanged he hother⟩

end LocalClient

namespace Store

/-- **What comes of an assertion that cites evidence.** It succeeds exactly if all that is cited is
    ground and stored once the fact is. Then the store differs from the one in which the fact was
    asserted alone only in the evidence of the fact, which are the facts that are stored under the
    cited texts, one for each. Otherwise the store is the one in which the fact was asserted alone,
    and all that could not be cited is reported. A client that makes the assertion keeps what waits
    in its buffer, and any other failure leaves the store as it was. -/
theorem assertCiting_outcome (s : Store) (asserter : String) {f : Sentence}
    (hf : f.isGround = true) (evidence : List Sentence) :
    let there := (s.assert asserter f).2
    let made := s.assertCiting asserter f evidence
    ((∃ g, made.1 = .ok g) ↔ ∀ e ∈ evidence, e.isGround = true ∧ e.render ∈ there.facts.keys) ∧
      (∀ g, made.1 = .ok g →
        there.get? f.render = some { terms := f, asserter } ∧
          (∃ cited, g = { terms := f, asserter, evidence := cited } ∧
            List.Forall₂ (fun e c => there.get? e.render = some c) evidence cited) ∧
          made.2.facts.keys = there.facts.keys ∧
          ∀ k, made.2.get? k = if k = f.render then some g else there.get? k) ∧
      (∀ e, made.1 = .error e →
        made.2 = there ∧
          e = .invalidEvidence ((evidence.filter fun e => !e.isGround).map Sentence.render)
            ((evidence.filter fun e =>
              e.isGround && decide (e.render ∉ there.facts.keys)).map Sentence.render)) ∧
      ∀ (c : LocalClient) (fact : Template) (evidence : List Template),
        let made := c.assertCiting s fact evidence
        made.2.1.buffer.asserts = c.buffer.asserts ∧
          made.2.1.buffer.retracts = c.buffer.retracts ∧
          ∀ e, made.1 = .error e → (∀ withVariables missing,
            e ≠ .invalidEvidence withVariables missing) → made.2.2 = s := by
  intro there made
  have hfact : there.get? f.render = some { terms := f, asserter } := get?_assert s asserter hf
  have hmade : made = there.cite f.render evidence := assertCiting_of_isGround s asserter hf evidence
  have hclient := fun (c : LocalClient) fact evidence => c.assertCiting_kept s fact evidence
  by_cases hall : ∀ e ∈ evidence, there.Citable e
  · obtain ⟨cited, hcited, hcite⟩ := cite_of_citable hfact hall
    rw [hmade, hcite]
    refine ⟨iff_of_true ⟨_, rfl⟩ hall, ?_, nofun, hclient⟩
    rintro g ⟨⟩
    exact ⟨hfact, ⟨cited, rfl, hcited⟩, replace_stored (by rw [hfact]; rfl) _⟩
  · rw [hmade, cite_of_not_citable hall]
    refine ⟨iff_of_false nofun hall, nofun, ?_, hclient⟩
    rintro e ⟨⟩
    exact ⟨rfl, rfl⟩

/-- A fact that cites itself twice, with another fact between, and a row of evidence in which a
    variable stands and a missing sentence stands twice. -/
theorem assertCiting_outcome_itself :
    let s := empty.after [.assert "b" [.word "y"]]
    let f : Sentence := [.identifier "x"]
    let y : Sentence := [.word "y"]
    let z : Sentence := [.word "z"]
    f.isGround = true ∧
      (∃ g, (s.assertCiting "a" f [f, y, f]).1 = .ok g ∧ g.terms = f ∧
        g.evidence.map Fact.asserter = ["a", "b", "a"]) ∧
      ∃ e, (s.assertCiting "a" f [z, [.variable "v"], y, z]).1 = .error e ∧
        e = .invalidEvidence ["$v"] ["z", "z"] := by
  intro s f y z
  have hf : f.isGround = true := rfl
  obtain ⟨hiff, htaken, -, -⟩ := assertCiting_outcome s "a" hf [f, y, f]
  obtain ⟨hiff', -, hrefused, -⟩ := assertCiting_outcome s "a" hf [z, [.variable "v"], y, z]
  refine ⟨hf, ?_, ?_⟩
  · obtain ⟨g, hg⟩ := hiff.mpr (by decide +kernel)
    obtain ⟨-, ⟨cited, rfl, hcited⟩, -⟩ := htaken g hg
    have hx : ((s.assert "a" f).2.get? f.render).map Fact.asserter = some "a" := by decide +kernel
    have hy : ((s.assert "a" f).2.get? y.render).map Fact.asserter = some "b" := by decide +kernel
    obtain _ | ⟨h₁, _ | ⟨h₂, _ | ⟨h₃, ⟨⟩⟩⟩⟩ := hcited
    rw [h₁] at hx h₃
    rw [h₂] at hy
    cases h₃
    exact ⟨_, hg, rfl, by simp_all⟩
  · cases hmade : (s.assertCiting "a" f [z, [.variable "v"], y, z]).1 with
    | ok g => exact absurd (hiff'.mp ⟨g, hmade⟩) (by decide +kernel)
    | error e =>
      obtain ⟨-, rfl⟩ := hrefused e hmade
      exact ⟨_, rfl, by decide +kernel⟩

end Store

end Blackboard
