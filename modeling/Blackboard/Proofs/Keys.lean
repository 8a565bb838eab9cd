import Blackboard.Proofs.Matching
import Blackboard.Proofs.ParseCache
import Blackboard.Proofs.Separated
import Blackboard.Proofs.StoreInvariant
import Blackboard.Client.Local

/-!
# Texts as keys

An assertion and the retraction of a ground sentence find a stored fact by its text, while matching
compares terms. The two agree on a store that distinguishes the sentence: every stored fact of its
text is equal to it (`Store.Distinguishes`).

* **That condition is exact**, for what an assertion replaces and for what a retraction removes
  (`Store.text_finds_equal_iff_distinguishes`).
* It holds where all sentences are read back from their texts
  (`Store.Sound.distinguishes_of_readsBack`), and so where nothing but legible ones was ever asserted
  (`Sentence.IsLegible`).
* It cannot be had for one sentence in all stores: whatever the sentence, a client can flush a
  different one of the same text (`Store.exists_flush_not_distinguishes`).
-/

namespace Blackboard

/-! ## 1. Sentences that are known by their texts -/

namespace Sentence

theorem hasHoles_of_isGround {f : Sentence} (h : f.isGround = true) : f.hasHoles = false := by
  rw [hasHoles, List.any_eq_false]
  intro t ht hhole
  have hground : t.isGround = true := List.all_eq_true.mp h t ht
  rw [Term.isHole_of_isGround hground] at hhole
  cases hhole

theorem isOpen_of_isGround {f : Sentence} (h : f.isGround = true) : f.isOpen = false := by
  rw [isOpen, List.any_eq_false]
  intro t ht hopen
  have hground : t.isGround = true := List.all_eq_true.mp h t ht
  cases t <;> simp_all [Term.isOpen, Term.isGround]

/-! ## 2. Matching a ground sentence -/

/-- A pattern matches the terms of a fact. -/
def Accepts (p : Sentence) (fact : Fact) : Prop :=
  ∃ e, matchSentence p fact.terms .empty = .ok (some e)

/-- A match of a ground sentence is a comparison. -/
theorem matched_of_isGround {p f : Sentence} (hp : p.isGround = true) (e : Env) :
    Sentence.matched p f e = if equal p f then some e else none := by
  induction p generalizing f with
  | nil => cases f <;> rfl
  | cons a p ih =>
    cases f with
    | nil => rfl
    | cons b f =>
      simp only [isGround, List.all_cons, Bool.and_eq_true] at hp
      have hterm : a.matched b e = if a.equal b then some e else none := by
        cases a with
        | «variable» name => cases hp.1
        | wildcard => cases hp.1
        | hole => cases hp.1
        | _ => rfl
      rw [Sentence.matched, hterm, equal]
      cases hab : a.equal b with
      | false => rfl
      | true => exact ih hp.2

/-- **A ground sentence matches the facts that are equal to it.** -/
theorem accepts_iff_equal {f : Sentence} {fact : Fact} (hf : f.isGround = true)
    (hfact : fact.terms.isGround = true) : f.Accepts fact ↔ equal f fact.terms = true := by
  rw [Accepts, matchSentence_eq Env.isGround_empty.findsGround (hasHoles_of_isGround hf) hfact,
    matched_of_isGround hf]
  cases equal f fact.terms <;> simp

end Sentence

/-! ## 3. What is found under a text -/

namespace Store

/-- An assertion puts the sentence in the place of a stored fact. -/
def Replaces (s : Store) (asserter : String) (f : Sentence) (fact : Fact) : Prop :=
  fact ∈ s.facts.values ∧ (s.assert asserter f).2.get? fact.key = some { terms := f, asserter }

/-- A retraction takes a stored fact away. -/
def Removes (s : Store) (f : Sentence) (fact : Fact) : Prop :=
  fact ∈ s.facts.values ∧ fact ∉ (s.retract f).2.facts.values

/-- Every stored fact of the text of a sentence is equal to the sentence. -/
def Distinguishes (s : Store) (f : Sentence) : Prop :=
  ∀ fact ∈ s.facts.values, fact.key = f.render → Sentence.equal f fact.terms = true

section Ground

variable {P : Sentence → Prop} {s : Store} {f : Sentence} {fact : Fact}

theorem retract_of_isGround (hf : f.isGround = true) :
    (s.retract f).2 = ⟨s.facts.erase f.render⟩ := by
  simp [Store.retract, Sentence.hasHoles_of_isGround hf, Sentence.isOpen_of_isGround hf, removeAll]

/-- An assertion replaces the fact of its text, and no other. -/
theorem Sound.replaces_iff (h : Sound P s) (asserter : String) (hf : f.isGround = true) :
    s.Replaces asserter f fact ↔ fact ∈ s.facts.values ∧ fact.key = f.render := by
  refine and_congr_right fun hfact => ?_
  have hbefore : s.get? fact.key = some fact := h.get?_eq_some_iff.mpr ⟨hfact, rfl⟩
  rw [assert_of_isGround s asserter hf]
  show (s.facts.insert f.render _).get? fact.key = some _ ↔ fact.key = f.render
  rw [OrderedMap.get?_insert]
  by_cases hkey : fact.key = f.render
  · simp [hkey]
  · rw [if_neg hkey]
    -- a fact that stays and is what was asserted would have the text of the sentence
    refine iff_of_false (fun hsame => hkey ?_) hkey
    have hfact : fact = { terms := f, asserter } := Option.some.inj (hbefore.symm.trans hsame)
    rw [hfact, Fact.key]

/-- The retraction of a ground sentence removes the fact of its text, and no other. -/
theorem Sound.removes_iff (h : Sound P s) (hf : f.isGround = true) :
    s.Removes f fact ↔ fact ∈ s.facts.values ∧ fact.key = f.render := by
  have hafter : Sound P (s.retract f).2 := h.retract f
  refine and_congr_right fun hfact => ?_
  have hthere : fact ∈ (s.retract f).2.facts.values ↔ (s.retract f).2.get? fact.key = some fact := by
    rw [hafter.get?_eq_some_iff, and_iff_left rfl]
  have hbefore : s.get? fact.key = some fact := h.get?_eq_some_iff.mpr ⟨hfact, rfl⟩
  rw [hthere, retract_of_isGround hf]
  show ¬ (s.facts.erase f.render).get? fact.key = some fact ↔ fact.key = f.render
  rw [OrderedMap.get?_erase]
  by_cases hkey : fact.key = f.render
  · simp [hkey]
  · rw [if_neg hkey]
    exact iff_of_false (fun hne => hne hbefore) hkey

/-- Where all asserted sentences are read back, a sentence that is read back is distinguished. -/
theorem Sound.distinguishes_of_readsBack (h : Sound Sentence.ReadsBack s) (hf : f.ReadsBack) :
    s.Distinguishes f :=
  fun _ hfact hkey => hf.equal_of_render_eq (h.holds_of_mem hfact) hkey.symm

end Ground

/-- **What is found under the text of a sentence is equal to it exactly if the store distinguishes
    the sentence**: for what an assertion replaces, for what a retraction removes, and for the
    retraction to remove what matching accepts. A store distinguishes the sentence if it and all
    that was ever asserted is read back, which the sentences tell by themselves: those that are
    separated are, and those that were read from texts in which they keep apart. -/
theorem text_finds_equal_iff_distinguishes (history : List Command) (asserter : String)
    {f : Sentence} (hf : f.isGround = true) :
    let s := empty.after history
    ((∀ fact, s.Replaces asserter f fact → Sentence.equal f fact.terms = true) ↔
        s.Distinguishes f) ∧
      ((∀ fact, s.Removes f fact → Sentence.equal f fact.terms = true) ↔ s.Distinguishes f) ∧
      ((∀ fact ∈ s.facts.values, s.Removes f fact ↔ f.Accepts fact) ↔ s.Distinguishes f) ∧
      ((∀ c ∈ history, ∀ g ∈ c.asserted, g.ReadsBack) → f.ReadsBack → s.Distinguishes f) ∧
      ((∀ c ∈ history, ∀ g ∈ c.asserted, g.IsLegible) → f.IsLegible → s.Distinguishes f) := by
  intro s
  have hsound : Sound (fun _ => True) s := after_sound sound_empty fun _ _ _ _ _ => trivial
  have haccepts : ∀ fact ∈ s.facts.values, f.Accepts fact ↔ Sentence.equal f fact.terms = true :=
    fun fact hfact => Sentence.accepts_iff_equal hf (hsound.isGround_of_mem hfact)
  have hreadsBack : (∀ c ∈ history, ∀ g ∈ c.asserted, g.ReadsBack) → f.ReadsBack →
      s.Distinguishes f := by
    intro hall hback
    have hback' : Sound Sentence.ReadsBack s :=
      after_sound sound_empty fun c hc g hg _ => hall c hc g hg
    exact hback'.distinguishes_of_readsBack hback
  refine ⟨?_, ?_, ?_, hreadsBack, fun hall hlegible => ?_⟩
  · simp only [hsound.replaces_iff asserter hf, and_imp, Distinguishes]
  · simp only [hsound.removes_iff hf, and_imp, Distinguishes]
  · constructor
    · intro h fact hfact hkey
      exact (haccepts fact hfact).mp ((h fact hfact).mp ((hsound.removes_iff hf).mpr ⟨hfact, hkey⟩))
    · intro h fact hfact
      rw [haccepts fact hfact, hsound.removes_iff hf, and_iff_right hfact]
      exact ⟨h fact hfact, fun hequal => (Sentence.render_eq_of_equal hequal).symm⟩
  · exact hreadsBack (fun c hc g hg => Sentence.readsBack_of_isLegible (hall c hc g hg))
      (Sentence.readsBack_of_isLegible hlegible)

/-- `1 2` with its space is distinguished in a store that lists it beside the number 12, so only
    what equals it is found under its text. -/
theorem text_finds_equal_one_two :
    let f : Sentence := [.number (.ofNat 1), .word " ", .number (.ofNat 2)]
    let g : Sentence := [.number (.ofNat 12)]
    let history : List Command := [.apply "ann" [] [f], .assert "bob" g]
    let s := empty.after history
    f.isGround = true ∧ f.isSeparated = true ∧
      (∀ c ∈ history, ∀ h ∈ c.asserted, h.isSeparated = true) ∧
      s.facts.values.map Fact.terms = [f, g] ∧ s.Distinguishes f ∧
      (∀ fact, s.Replaces "ann" f fact → Sentence.equal f fact.terms = true) ∧
      (∀ fact, s.Removes f fact → Sentence.equal f fact.terms = true) ∧
      (∀ fact ∈ s.facts.values, s.Removes f fact ↔ f.Accepts fact) := by
  intro f g history s
  have hground : f.isGround = true := by decide
  have hf : f.isSeparated = true := by decide +kernel
  have hasserted : ∀ c ∈ history, ∀ h ∈ c.asserted, h.isSeparated = true := by decide +kernel
  obtain ⟨hreplaces, hremoves, haccepts, -, hdistinguishes⟩ :=
    text_finds_equal_iff_distinguishes history "ann" hground
  have hs : s.Distinguishes f := hdistinguishes (fun c hc h hh => .inl (hasserted c hc h hh)) (.inl hf)
  exact ⟨hground, hf, hasserted, by decide +kernel, hs, hreplaces.mpr hs, hremoves.mpr hs,
    haccepts.mpr hs⟩

/-- The retraction of the number 12 takes away the numbers 1 and 2, which it does not match. Both
    are read from templates. -/
theorem twelve_removes_one_two :
    let f : Sentence := [.number (.ofNat 1), .number (.ofNat 2)]
    let g : Sentence := [.number (.ofNat 12)]
    let s := empty.after [.apply "ann" [] [f]]
    Template.read ⟨"1+2", []⟩ = .ok f ∧ Template.read ⟨"12", []⟩ = .ok g ∧
      s.facts.values.map Fact.terms = [f] ∧ (s.retract g).2.facts.values = [] ∧
      matchSentence g f .empty = .ok none ∧ Sentence.equal g f = false := by
  decide +kernel

end Store

/-! ## 4. Every text stands for more than one sentence -/

namespace Sentence

theorem length_eq_of_equal {f g : Sentence} (h : equal f g = true) : f.length = g.length :=
  (equal_iff.mp h).length_eq

/-- Another sentence of the same text: the text as a word, with an empty word behind it where the
    sentence is a single term itself. -/
def inWords (f : Sentence) : Sentence :=
  if f.length = 1 then [.word f.render, .word ""] else [.word f.render]

theorem render_inWords (f : Sentence) : f.inWords.render = f.render := by
  unfold inWords
  split
  · simp [render, chars, Term.chars]
  · simp [render, chars, Term.chars]

theorem equal_inWords (f : Sentence) : equal f f.inWords = false := by
  cases h : equal f f.inWords with
  | false => rfl
  | true =>
    have hlength := length_eq_of_equal h
    unfold inWords at hlength
    split at hlength
    · simp_all
    · simp_all

theorem isGround_inWords (f : Sentence) : f.inWords.isGround = true := by
  unfold inWords
  split
  · rfl
  · rfl

end Sentence

/-- The template whose holes are filled with the words. -/
def Template.inWords (f : Sentence) : Template :=
  if f.length = 1 then ⟨"__", f.inWords⟩ else ⟨"_", f.inWords⟩

theorem Template.read_inWords (f : Sentence) : (Template.inWords f).read = .ok f.inWords := by
  have hhole : Sentence.parse "_" = .ok [.hole] := by decide +kernel
  have htwo : Sentence.parse "__" = .ok [.hole, .hole] := by decide +kernel
  by_cases hone : f.length = 1
  · rw [inWords, if_pos hone, Sentence.inWords, if_pos hone, read, htwo]
    rfl
  · rw [inWords, if_neg hone, Sentence.inWords, if_neg hone, read, hhole]
    rfl

/-- **Whatever the sentence, a client can flush a different one of the same text.** -/
theorem Store.exists_flush_not_distinguishes (f : Sentence) (id : String) (cacheCapacity : Nat) :
    ∃ t, ¬ ((LocalClient.new id cacheCapacity).perform .empty (.assertNow t)).2.2.Distinguishes
      f := by
  refine ⟨Template.inWords f, fun h => ?_⟩
  have hread : ((Template.inWords f).materialize (.empty cacheCapacity)).1 = .ok f.inWords := by
    rw [Template.materialize_eq (ParseCache.faithful_empty cacheCapacity), Template.read_inWords]
  have hstore : ((LocalClient.new id cacheCapacity).perform .empty
      (.assertNow (Template.inWords f))).2.2 =
      Store.put .empty { terms := f.inWords, asserter := id } := by
    obtain ⟨c, hc⟩ : ∃ c, (Template.inWords f).materialize (.empty cacheCapacity) =
        (.ok f.inWords, c) := ⟨_, Prod.ext hread rfl⟩
    have hground := f.isGround_inWords
    simp [LocalClient.perform, LocalClient.new, MutationBuffer.empty, MutationBuffer.plan,
      MutationBuffer.planNow, MutationBuffer.pushAssert, MutationBuffer.materialize, hc,
      Except.bind, MutationBuffer.checkFact, hground, MutationBuffer.planFlush,
      MutationBuffer.hasPending, Store.answer, Store.apply, retractEach, assertEach,
      Store.assert]
  rw [hstore] at h
  have hequal := h { terms := f.inWords, asserter := id } List.mem_cons_self f.render_inWords
  rw [f.equal_inWords] at hequal
  cases hequal

end Blackboard
