import Blackboard.Proofs.Buffers

/-!
# Whatever a cache keeps, the same is read

A cache is used any number of times, in any order: texts are read through it, templates are
materialized, and it is cleared (`ParseCache.Use`). What it keeps decides how long an answer takes,
never what is answered.

* The texts that are kept are distinct, each with what it is read as, and they are at most one more
  than the capacity (`ParseCache.Tidy`). Every use keeps it so (`ParseCache.Tidy.use`).
* A text that cannot be read is not kept, and one that can be is kept from then on, also if its
  template is then refused for the number of its fillers (`ParseCache.kept_of_error`,
  `ParseCache.kept_of_ok`).
* What a template stands for is the sentence with each hole filled by the filler of its number
  (`Sentence.filled_iff`).

So two buffers whose caches differ in their capacities answer the same, and the same waits in them
(`MutationBuffer.Alike.run`).
-/

namespace Blackboard

/-! ## 1. Filled holes -/

namespace Sentence

/-- The sentence `f` is `s` with its holes filled: for a hole behind `n` others stands the filler of
    number `n`, and all other terms are as they were. -/
def Filled (s : Sentence) (fillers : List Term) (f : Sentence) : Prop :=
  f.length = s.length ∧ ∀ (i : Nat) (t : Term), s[i]? = some t →
    f[i]? = if t.isHole then fillers[holeCount (s.take i)]? else some t

theorem filled_fill {s : Sentence} {fillers : List Term} (h : s.holeCount = fillers.length) :
    s.Filled fillers (s.fill fillers) := by
  induction s generalizing fillers with
  | nil => exact ⟨rfl, fun _ _ hi => nomatch hi⟩
  | cons t s ih =>
    -- the filler of a hole is used up, and the numbers behind it go down by one
    cases ht : t.isHole with
    | true =>
      obtain rfl : t = .hole := by cases t <;> first | rfl | cases ht
      cases fillers with
      | nil => simp [holeCount, ht] at h
      | cons x xs =>
        have hrest : holeCount s = xs.length := by simpa [holeCount, ht] using h
        obtain ⟨hlength, hterms⟩ := ih hrest
        refine ⟨by simp [fill, hlength], fun i t hi => ?_⟩
        cases i with
        | zero =>
          cases hi
          rfl
        | succ i =>
          have hterm := hterms i t hi
          simpa [fill, holeCount, ht] using hterm
    | false =>
      have hfill : fill (t :: s) fillers = t :: fill s fillers := by
        cases t <;> cases fillers <;> first | rfl | cases ht
      have hrest : holeCount s = fillers.length := by simpa [holeCount, ht] using h
      obtain ⟨hlength, hterms⟩ := ih hrest
      refine ⟨by simp [hfill, hlength], fun i t' hi => ?_⟩
      cases i with
      | zero =>
        cases hi
        simp [hfill, ht]
      | succ i =>
        have hterm := hterms i t' hi
        simpa [hfill, holeCount, ht] using hterm

/-- **Filling is the only way to fill the holes.** -/
theorem filled_iff {s : Sentence} {fillers : List Term} {f : Sentence}
    (h : s.holeCount = fillers.length) : s.Filled fillers f ↔ f = s.fill fillers := by
  constructor
  · rintro ⟨hlength, hterms⟩
    obtain ⟨hlength', hterms'⟩ := filled_fill h
    refine List.ext_getElem? fun i => ?_
    cases hi : s[i]? with
    | some t => rw [hterms i t hi, hterms' i t hi]
    | none =>
      rw [List.getElem?_eq_none_iff] at hi
      rw [List.getElem?_eq_none (hlength ▸ hi), List.getElem?_eq_none (hlength' ▸ hi)]
  · rintro rfl
    exact filled_fill h

end Sentence

namespace Template

theorem read_eq_ok_iff {t : Template} {f : Sentence} : t.read = .ok f ↔
    ∃ s, Sentence.parse t.text = .ok s ∧ s.holeCount = t.fillers.length ∧
      s.Filled t.fillers f := by
  unfold Template.read
  cases Sentence.parse t.text with
  | error e => simp
  | ok s =>
    by_cases h : s.holeCount = t.fillers.length
    · simp [h, Sentence.filled_iff h, eq_comm]
    · simp [h]

theorem read_eq_error_iff {t : Template} {e : Failure} : t.read = .error e ↔
    Sentence.parse t.text = .error e ∨
      ∃ s, Sentence.parse t.text = .ok s ∧ s.holeCount ≠ t.fillers.length ∧
        e = .arity s.holeCount t.fillers.length := by
  unfold Template.read
  cases Sentence.parse t.text with
  | error e => simp
  | ok s =>
    by_cases h : s.holeCount = t.fillers.length
    · simp [h]
    · simp only [h, if_false, Except.error.injEq, reduceCtorEq, Except.ok.injEq, false_or]
      constructor
      · rintro rfl
        exact ⟨s, rfl, h, rfl⟩
      · rintro ⟨_, rfl, -, rfl⟩
        rfl

end Template

namespace ParseCache

/-! ## 2. Uses of a cache -/

/-- What a cache is used for. -/
inductive Use where
  | parse (text : String)
  | materialize (t : Template)
  | clear
deriving Repr

/-- The text that a use looks up. -/
def Use.text? : Use → Option String
  | .parse text => some text
  | .materialize t => some t.text
  | .clear => none

/-- What a use answers, if anything is asked, and the cache afterwards. -/
def use (c : ParseCache) : Use → Option (Except Failure Sentence) × ParseCache
  | .parse text =>
    let (r, c) := c.parse text
    (some r, c)
  | .materialize t =>
    let (r, c) := t.materialize c
    (some r, c)
  | .clear => (none, c.clear)

/-- The cache after a row of uses. -/
def after (c : ParseCache) (uses : List Use) : ParseCache := uses.foldl (fun c u => (c.use u).2) c

section Uses

variable {c : ParseCache} {text : String}

/-- **What comes of a text**: it is found, or it is read and kept, or it cannot be read. -/
theorem parse_cases (c : ParseCache) (text : String) :
    (∃ s, (text, s) ∈ c.kept ∧ c.parse text = (.ok s, c)) ∨
      text ∉ c.kept.map Prod.fst ∧
        ((∃ s, Sentence.parse text = .ok s ∧
            c.parse text = (.ok s, { c.makeRoom with kept := (text, s) :: c.makeRoom.kept })) ∨
          ∃ e, Sentence.parse text = .error e ∧ c.parse text = (.error e, c.makeRoom)) := by
  unfold ParseCache.parse
  cases hkept : lookupEntry text c.kept with
  | some s => exact .inl ⟨s, OrderedMap.mem_of_lookupEntry hkept, rfl⟩
  | none =>
    have hnew : text ∉ c.kept.map Prod.fst := by
      rw [← OrderedMap.isSome_lookupEntry, hkept]
      simp
    cases Sentence.parse text with
    | ok s => exact .inr ⟨hnew, .inl ⟨s, rfl, rfl⟩⟩
    | error e => exact .inr ⟨hnew, .inr ⟨e, rfl, rfl⟩⟩

/-- Filling the holes leaves the cache as reading the text has left it. -/
theorem materialize_snd (c : ParseCache) (t : Template) :
    (t.materialize c).2 = (c.parse t.text).2 := by
  unfold Template.materialize
  rcases c.parse t.text with ⟨r, d⟩
  cases r with
  | error e => rfl
  | ok s =>
    dsimp only
    split
    · rfl
    · rfl

theorem use_snd_of_text {u : Use} (hu : u.text? = some text) :
    (c.use u).2 = (c.parse text).2 := by
  cases u with
  | parse text' =>
    cases hu
    rfl
  | materialize t =>
    cases hu
    exact materialize_snd c t
  | clear => cases hu

theorem mem_of_mem_makeRoom {e : String × Sentence} (he : e ∈ c.makeRoom.kept) : e ∈ c.kept := by
  unfold makeRoom at he
  split at he
  · exact absurd he List.not_mem_nil
  · exact he

theorem size_makeRoom_le (c : ParseCache) : c.makeRoom.size ≤ c.capacity := by
  unfold makeRoom
  split
  · exact Nat.zero_le _
  · rename_i hroom
    exact Nat.le_of_not_lt hroom

/-- A text that cannot be read adds nothing to what is kept. -/
theorem kept_of_error {e : Failure} (htext : Sentence.parse text = .error e) (hc : c.Faithful) :
    (c.parse text).2.kept ⊆ c.kept := by
  rcases parse_cases c text with ⟨s, hs, -⟩ | ⟨-, ⟨s, hs, -⟩ | ⟨e', -, heq⟩⟩
  · have hread := hc _ hs
    rw [htext] at hread
    cases hread
  · rw [htext] at hs
    cases hs
  · rw [heq]
    exact fun _ he => mem_of_mem_makeRoom he

/-- A text that can be read is kept then, and nothing else is that was not kept before. -/
theorem kept_of_ok {s : Sentence} (htext : Sentence.parse text = .ok s) (hc : c.Faithful) :
    (text, s) ∈ (c.parse text).2.kept ∧
      ∀ e ∈ (c.parse text).2.kept, e ∈ c.kept ∨ e = (text, s) := by
  rcases parse_cases c text with ⟨s', hs', heq⟩ | ⟨-, ⟨s', hs', heq⟩ | ⟨e, he, -⟩⟩
  · have hread := hc _ hs'
    rw [htext] at hread
    cases hread
    rw [heq]
    exact ⟨hs', fun _ he => .inl he⟩
  · rw [htext] at hs'
    cases hs'
    rw [heq]
    refine ⟨List.mem_cons_self, fun e he => ?_⟩
    rcases List.mem_cons.mp he with rfl | he
    · exact .inr rfl
    · exact .inl (mem_of_mem_makeRoom he)
  · rw [htext] at he
    cases he

/-- The texts are kept once, each with what it is read as, and there are at most as many as the
    capacity says and one more. -/
structure Tidy (capacity : Nat) (c : ParseCache) : Prop where
  capacity_eq : c.capacity = capacity
  faithful : c.Faithful
  distinct : (c.kept.map Prod.fst).Nodup
  size_le : c.size ≤ capacity + 1

variable {capacity : Nat}

theorem tidy_empty (capacity : Nat) : (empty capacity).Tidy capacity where
  capacity_eq := rfl
  faithful := faithful_empty capacity
  distinct := List.nodup_nil
  size_le := Nat.zero_le _

theorem Tidy.clear (h : c.Tidy capacity) : c.clear.Tidy capacity where
  capacity_eq := h.capacity_eq
  faithful := faithful_clear c
  distinct := List.nodup_nil
  size_le := Nat.zero_le _

theorem Tidy.makeRoom (h : c.Tidy capacity) : c.makeRoom.Tidy capacity := by
  unfold ParseCache.makeRoom
  split
  · exact h.clear
  · exact h

theorem Tidy.parse (h : c.Tidy capacity) (text : String) : (c.parse text).2.Tidy capacity := by
  have hfaithful := h.faithful.parse text
  rcases parse_cases c text with ⟨s, -, heq⟩ | ⟨hnew, ⟨s, -, heq⟩ | ⟨e, -, heq⟩⟩
  · rw [heq]
    exact h
  · rw [heq] at hfaithful ⊢
    have hroom := h.capacity_eq ▸ size_makeRoom_le c
    refine ⟨h.makeRoom.capacity_eq, hfaithful, ?_, Nat.succ_le_succ hroom⟩
    rw [List.map_cons, List.nodup_cons]
    refine ⟨fun hmem => hnew ?_, h.makeRoom.distinct⟩
    obtain ⟨e, he, heq⟩ := List.mem_map.mp hmem
    exact List.mem_map.mpr ⟨e, mem_of_mem_makeRoom he, heq⟩
  · rw [heq]
    exact h.makeRoom

/-- **Every use keeps a cache tidy.** -/
theorem Tidy.use (h : c.Tidy capacity) (u : Use) : (c.use u).2.Tidy capacity := by
  cases u with
  | parse text => exact h.parse text
  | materialize t =>
    have hcache : (c.use (.materialize t)).2 = (c.parse t.text).2 := use_snd_of_text rfl
    rw [hcache]
    exact h.parse t.text
  | clear => exact h.clear

theorem Tidy.after (h : c.Tidy capacity) (uses : List Use) : (c.after uses).Tidy capacity := by
  induction uses generalizing c with
  | nil => exact h
  | cons u uses ih => exact ih (h.use u)

theorem use_parse (hc : c.Faithful) (text : String) :
    (c.use (.parse text)).1 = some (Sentence.parse text) :=
  congrArg some (hc.parse_eq text)

theorem use_materialize (hc : c.Faithful) (t : Template) :
    (c.use (.materialize t)).1 = some t.read :=
  congrArg some (Template.materialize_eq hc t)

end Uses

end ParseCache

/-! ## 3. Buffers over caches -/

namespace MutationBuffer

/-- What can be done with a buffer. -/
inductive Operation where
  | materialize (t : Template)
  | materializeAll (ts : List Template)
  | materializePattern (t : Template)
  | materializePatterns (ts : List Template)
  | pushAssert (t : Template)
  | pushRetract (t : Template)
  | clear
  | clearCache
deriving Repr

/-- What an operation answers: the sentences that are asked for, if any are. -/
def perform (b : MutationBuffer) : Operation → Except Failure (List Sentence) × MutationBuffer
  | .materialize t =>
    let (r, b) := b.materialize t
    (r.map ([·]), b)
  | .materializeAll ts => b.materializeAll ts
  | .materializePattern t =>
    let (r, b) := b.materializePattern t
    (r.map ([·]), b)
  | .materializePatterns ts => b.materializePatterns ts
  | .pushAssert t =>
    let (r, b) := b.pushAssert t
    (r.map fun _ => [], b)
  | .pushRetract t =>
    let (r, b) := b.pushRetract t
    (r.map fun _ => [], b)
  | .clear => (.ok [], b.clear)
  | .clearCache => (.ok [], b.clearCache)

/-- What can be seen of a buffer after an operation: what was answered, and what waits. -/
structure Glimpse where
  answer : Except Failure (List Sentence)
  asserts : List Sentence
  retracts : List Sentence

/-- What can be seen of a buffer after each of a row of operations. -/
def run (b : MutationBuffer) : List Operation → List Glimpse
  | [] => []
  | o :: operations =>
    let (answer, b) := b.perform o
    ⟨answer, b.asserts, b.retracts⟩ :: run b operations

section Alike

variable {b d : MutationBuffer}

/-- What answers by itself and changes nothing but the cache, whatever is kept there, answers the
    same in buffers in which the same waits. -/
theorem Alike.of_reading {α : Type} {f : MutationBuffer → α × MutationBuffer} {r : α}
    (hf : ∀ {b : MutationBuffer}, b.cache.Faithful →
      ∃ c, c.Faithful ∧ f b = (r, { b with cache := c })) (h : b.Alike d) :
    (f d).1 = (f b).1 ∧ (f b).2.Alike (f d).2 := by
  obtain ⟨hb, c, hc, rfl⟩ := h
  obtain ⟨c₁, hc₁, heq₁⟩ := hf hb
  obtain ⟨c₂, hc₂, heq₂⟩ := hf (b := { b with cache := c }) hc
  rw [heq₁, heq₂]
  exact ⟨rfl, hc₁, c₂, hc₂, rfl⟩

/-- **One operation on two buffers in which the same waits answers the same**, and the same waits
    in them afterwards. -/
theorem Alike.perform (h : b.Alike d) (o : Operation) :
    (d.perform o).1 = (b.perform o).1 ∧ (b.perform o).2.Alike (d.perform o).2 := by
  cases o with
  | materialize t =>
    refine h.of_reading (f := (·.perform (.materialize t))) (r := t.read.map ([·])) fun hb => ?_
    obtain ⟨c, hc, heq⟩ := materialize_eq hb t
    exact ⟨c, hc, by rw [MutationBuffer.perform, heq]⟩
  | materializeAll ts =>
    exact h.of_reading (f := (·.materializeAll ts)) fun hb => materializeAll_eq hb ts
  | materializePattern t =>
    refine h.of_reading (f := (·.perform (.materializePattern t)))
      (r := (t.read.bind checkPattern).map ([·])) fun hb => ?_
    obtain ⟨c, hc, heq⟩ := materialize_eq hb t
    exact ⟨c, hc, by rw [MutationBuffer.perform, materializePattern, heq]⟩
  | materializePatterns ts =>
    exact h.of_reading (f := (·.materializePatterns ts)) fun hb => materializePatterns_eq hb ts
  | pushAssert t =>
    obtain ⟨hr, hafter⟩ := h.pushAssert t
    exact ⟨by simp only [MutationBuffer.perform, hr], hafter⟩
  | pushRetract t =>
    obtain ⟨hr, hafter⟩ := h.pushRetract t
    exact ⟨by simp only [MutationBuffer.perform, hr], hafter⟩
  | clear =>
    obtain ⟨hb, c, hc, rfl⟩ := h
    exact ⟨rfl, hb, c, hc, rfl⟩
  | clearCache =>
    obtain ⟨_, c, _, rfl⟩ := h
    exact ⟨rfl, ParseCache.faithful_clear _, c.clear, ParseCache.faithful_clear _, rfl⟩

theorem Alike.run (h : b.Alike d) (operations : List Operation) :
    d.run operations = b.run operations := by
  induction operations generalizing b d with
  | nil => rfl
  | cons o operations ih =>
    obtain ⟨hanswer, hafter⟩ := h.perform o
    rw [MutationBuffer.run, MutationBuffer.run]
    dsimp only
    rw [hanswer, hafter.asserts, hafter.retracts, ih hafter]

end Alike

end MutationBuffer

/-- **A cache is not seen.** Whatever a cache of any capacity has been used for, a text is answered
    with what it is read as; a template is answered with its sentence filled, exactly if its text
    can be read and has as many holes as there are fillers, and otherwise with the failure of the
    text or with both numbers. The kept texts are distinct, each kept with what it is read as, and
    are at most one more than the capacity. A text that cannot be read adds nothing, and one that
    can be read adds at most itself. Two buffers with caches of any capacities answer the same, and
    the same waits in them. -/
theorem ParseCache.not_seen :
    (∀ (capacity : Nat) (history : List Use),
      let c := (empty capacity).after history
      (∀ e ∈ c.kept, Sentence.parse e.1 = .ok e.2) ∧ (c.kept.map Prod.fst).Nodup ∧
        c.size ≤ capacity + 1 ∧
        (∀ text, (c.use (.parse text)).1 = some (Sentence.parse text)) ∧
        (∀ t : Template, ∃ r, (c.use (.materialize t)).1 = some r ∧
          (∀ f, r = .ok f ↔ ∃ s, Sentence.parse t.text = .ok s ∧
            s.holeCount = t.fillers.length ∧ s.Filled t.fillers f) ∧
          ∀ e, r = .error e ↔ Sentence.parse t.text = .error e ∨
            ∃ s, Sentence.parse t.text = .ok s ∧ s.holeCount ≠ t.fillers.length ∧
              e = .arity s.holeCount t.fillers.length) ∧
        ∀ u text, u.text? = some text →
          (∀ e, Sentence.parse text = .error e → (c.use u).2.kept ⊆ c.kept) ∧
            ∀ s, Sentence.parse text = .ok s → (text, s) ∈ (c.use u).2.kept ∧
              ∀ e ∈ (c.use u).2.kept, e ∈ c.kept ∨ e = (text, s)) ∧
      ∀ (m n : Nat) (operations : List MutationBuffer.Operation),
        (MutationBuffer.empty m).run operations = (MutationBuffer.empty n).run operations := by
  refine ⟨fun capacity history => ?_,
    fun m n operations => ((MutationBuffer.alike_empty m n).run operations).symm⟩
  intro c
  have hc : c.Tidy capacity := (tidy_empty capacity).after history
  refine ⟨hc.faithful, hc.distinct, hc.size_le, use_parse hc.faithful, fun t => ?_,
    fun u text hu => ?_⟩
  · exact ⟨_, use_materialize hc.faithful t, fun _ => Template.read_eq_ok_iff,
      fun _ => Template.read_eq_error_iff⟩
  · rw [use_snd_of_text hu]
    exact ⟨fun e he => kept_of_error he hc.faithful, fun s hs => kept_of_ok hs hc.faithful⟩

/-- A template that is refused for the number of its fillers has its text kept. -/
theorem ParseCache.keeps_refused_template :
    let refused := (empty 10).use (.materialize ⟨"_ and _", [.number (.ofNat 1)]⟩)
    (empty 10).size = 0 ∧ refused.1 = some (.error (.arity 2 1)) ∧ refused.2.size = 1 := by
  decide +kernel

end Blackboard
