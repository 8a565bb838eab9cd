import Blackboard.Proofs.ParseCache
import Blackboard.Proofs.Steps
import Blackboard.Client.Action

/-!
# What waits in a buffer

Whatever a client does, what waits to be asserted is ground, what waits to be retracted has no
holes, and the cache is faithful (`MutationBuffer.Ready`); a call that an action ends in takes only
such sentences to the store (`MutationBuffer.Ready.plan`). As with stores, the predicate takes along
any property `P` that all sentences have which templates are read as.

The cache of a buffer is not seen: each operation answers and changes what waits as the readings of
its templates say, and leaves some faithful cache behind. So **two buffers in which the same waits
plan the same** (`MutationBuffer.Alike.plan`), whatever the capacities of their caches.
-/

namespace Blackboard

/-- The template, if it can be read, is read as a sentence with a property. -/
def Template.Yields (P : Sentence → Prop) (t : Template) : Prop := ∀ s, t.read = .ok s → P s

/-- The templates of an action. -/
def Action.templates : Action → List Template
  | .assert t | .retract t | .assertNow t | .retractNow t => [t]
  | .select ts => ts
  | .flush | .forgetAbout _ | .forgetMine | .listFacts | .clearCache => []

/-- What a call takes to the store: retracted sentences and patterns without holes, ground
    assertions, all of them with a property. -/
def Call.Ready (P : Sentence → Prop) : Call → Prop
  | .apply retractions assertions =>
    (∀ p ∈ retractions, p.hasHoles = false ∧ P p) ∧ ∀ f ∈ assertions, f.isGround = true ∧ P f
  | .select patterns => ∀ p ∈ patterns, p.hasHoles = false ∧ P p
  | .forgetAbout _ | .forgetMine | .listFacts => True

theorem Call.Ready.imp {P Q : Sentence → Prop} (hPQ : ∀ f, P f → Q f) {c : Call} (h : c.Ready P) :
    c.Ready Q := by
  cases c with
  | apply retractions assertions =>
    exact ⟨fun p hp => (h.1 p hp).imp_right (hPQ p), fun f hf => (h.2 f hf).imp_right (hPQ f)⟩
  | select patterns => exact fun p hp => (h p hp).imp_right (hPQ p)
  | _ => trivial

/-- The call that a plan ends in, if it ends in one, is ready. -/
def Plan.Ready (P : Sentence → Prop) : Plan → Prop
  | .call c => c.Ready P
  | .answer _ => True

namespace MutationBuffer

/-! ## 1. The operations without the cache -/

theorem bind_checkFact_eq_ok {x : Except Failure Sentence} {s : Sentence} :
    x.bind checkFact = .ok s ↔ x = .ok s ∧ s.isGround = true := by
  cases x with
  | error e => simp [Except.bind]
  | ok f =>
    show checkFact f = .ok s ↔ _
    unfold checkFact
    split <;> grind

theorem bind_checkPattern_eq_ok {x : Except Failure Sentence} {s : Sentence} :
    x.bind checkPattern = .ok s ↔ x = .ok s ∧ s.hasHoles = false := by
  cases x with
  | error e => simp [Except.bind]
  | ok f =>
    show checkPattern f = .ok s ↔ _
    unfold checkPattern
    split <;> grind

/-- Reading a template changes nothing but the cache. -/
theorem materialize_cache (b : MutationBuffer) (t : Template) :
    ∃ r, b.materialize t = (r, { b with cache := (t.materialize b.cache).2 }) :=
  ⟨_, rfl⟩

/-- Reading templates in a way that changes nothing but the cache changes nothing else. -/
theorem materializeWith_cache
    {read : MutationBuffer → Template → Except Failure Sentence × MutationBuffer}
    (hread : ∀ b t, ∃ r cache, read b t = (r, { b with cache := cache }))
    (b : MutationBuffer) (ts : List Template) :
    ∃ r cache, b.materializeWith read ts = (r, { b with cache := cache }) := by
  induction ts generalizing b with
  | nil => exact ⟨.ok [], b.cache, rfl⟩
  | cons t ts ih =>
    obtain ⟨r, cache, heq⟩ := hread b t
    rw [materializeWith, heq]
    cases r with
    | error e => exact ⟨.error e, cache, rfl⟩
    | ok s =>
      obtain ⟨r, cache', hrest⟩ := ih { b with cache := cache }
      dsimp only
      rw [hrest]
      exact ⟨_, cache', rfl⟩

/-- Reading templates changes nothing but the cache. -/
theorem materializeAll_cache (b : MutationBuffer) (ts : List Template) :
    ∃ r cache, b.materializeAll ts = (r, { b with cache := cache }) :=
  materializeWith_cache (fun b t => (b.materialize_cache t).imp fun _ heq => ⟨_, heq⟩) b ts

/-- Reading templates of patterns changes nothing but the cache. -/
theorem materializePatterns_cache (b : MutationBuffer) (ts : List Template) :
    ∃ r cache, b.materializePatterns ts = (r, { b with cache := cache }) := by
  refine materializeWith_cache (fun b t => ?_) b ts
  obtain ⟨r, hread⟩ := b.materialize_cache t
  exact ⟨_, _, by rw [materializePattern, hread]⟩

section Cache

variable {b : MutationBuffer} (h : b.cache.Faithful)

include h

theorem materialize_eq (t : Template) :
    ∃ c, c.Faithful ∧ b.materialize t = (t.read, { b with cache := c }) := by
  refine ⟨_, Template.faithful_materialize h t, ?_⟩
  rw [materialize, ← Template.materialize_eq h t]

/-- What an assertion lets wait is what its template is read as, if that is ground. -/
theorem pushAssert_eq (t : Template) : ∃ c, c.Faithful ∧ b.pushAssert t =
    match t.read.bind checkFact with
    | .ok s => (.ok (), { b with cache := c, asserts := b.asserts ++ [s] })
    | .error e => (.error e, { b with cache := c }) := by
  obtain ⟨c, hc, heq⟩ := materialize_eq h t
  refine ⟨c, hc, ?_⟩
  cases hread : t.read.bind checkFact with
  | error e => simp only [pushAssert, heq, hread]
  | ok s => simp only [pushAssert, heq, hread]

/-- What a retraction lets wait is what its template is read as, if that has no holes. -/
theorem pushRetract_eq (t : Template) : ∃ c, c.Faithful ∧ b.pushRetract t =
    match t.read.bind checkPattern with
    | .ok s => (.ok (), { b with cache := c, retracts := b.retracts ++ [s] })
    | .error e => (.error e, { b with cache := c }) := by
  obtain ⟨c, hc, heq⟩ := materialize_eq h t
  refine ⟨c, hc, ?_⟩
  rw [pushRetract, materializePattern, heq]
  dsimp only
  cases t.read.bind checkPattern <;> rfl

/-- Templates are read one after another up to the first failure, in any way that does not show the
    cache. -/
theorem materializeWith_eq
    {read : MutationBuffer → Template → Except Failure Sentence × MutationBuffer}
    {spell : Template → Except Failure Sentence}
    (hread : ∀ {b : MutationBuffer}, b.cache.Faithful → ∀ t,
      ∃ c, c.Faithful ∧ read b t = (spell t, { b with cache := c })) (ts : List Template) :
    ∃ c, c.Faithful ∧ b.materializeWith read ts = (ts.mapM spell, { b with cache := c }) := by
  induction ts generalizing b with
  | nil => exact ⟨b.cache, h, rfl⟩
  | cons t ts ih =>
    obtain ⟨c, hc, heq⟩ := hread h t
    rw [materializeWith, heq, List.mapM_cons]
    cases spell t with
    | error e => exact ⟨c, hc, rfl⟩
    | ok s =>
      obtain ⟨c', hc', heq'⟩ := ih (b := { b with cache := c }) hc
      refine ⟨c', hc', ?_⟩
      dsimp only
      rw [heq']
      cases ts.mapM spell <;> rfl

theorem materializeAll_eq (ts : List Template) : ∃ c, c.Faithful ∧
    b.materializeAll ts = (ts.mapM Template.read, { b with cache := c }) :=
  materializeWith_eq h (fun hb t => materialize_eq hb t) ts

theorem materializePatterns_eq (ts : List Template) : ∃ c, c.Faithful ∧
    b.materializePatterns ts =
      (ts.mapM fun t => t.read.bind checkPattern, { b with cache := c }) := by
  refine materializeWith_eq h (fun {b} hb t => ?_) ts
  obtain ⟨c, hc, heq⟩ := materialize_eq hb t
  exact ⟨c, hc, by rw [materializePattern, heq]⟩

end Cache

/-! ## 2. Readiness -/

/-- What waits can go into a batch, and what is read is read as it stands. -/
structure Ready (P : Sentence → Prop) (b : MutationBuffer) : Prop where
  faithful : b.cache.Faithful
  asserts : ∀ f ∈ b.asserts, f.isGround = true ∧ P f
  retracts : ∀ p ∈ b.retracts, p.hasHoles = false ∧ P p

section Ready

variable {P : Sentence → Prop} {b : MutationBuffer}

theorem ready_empty (cacheCapacity : Nat) : (empty cacheCapacity).Ready P where
  faithful := ParseCache.faithful_empty cacheCapacity
  asserts _ h := absurd h List.not_mem_nil
  retracts _ h := absurd h List.not_mem_nil

theorem Ready.clear (h : b.Ready P) : b.clear.Ready P where
  faithful := h.faithful
  asserts _ h := absurd h List.not_mem_nil
  retracts _ h := absurd h List.not_mem_nil

theorem Ready.pushAssert (h : b.Ready P) {t : Template} (ht : t.Yields P) :
    (b.pushAssert t).2.Ready P := by
  obtain ⟨c, hc, heq⟩ := pushAssert_eq h.faithful t
  rw [heq]
  cases hread : t.read.bind checkFact with
  | error e => exact { h with faithful := hc }
  | ok s =>
    obtain ⟨hs, hground⟩ := bind_checkFact_eq_ok.mp hread
    refine { h with faithful := hc, asserts := fun f hf => ?_ }
    rcases List.mem_append.mp hf with hf | hf
    · exact h.asserts f hf
    · rw [List.mem_singleton.mp hf]
      exact ⟨hground, ht s hs⟩

theorem Ready.pushRetract (h : b.Ready P) {t : Template} (ht : t.Yields P) :
    (b.pushRetract t).2.Ready P := by
  obtain ⟨c, hc, heq⟩ := pushRetract_eq h.faithful t
  rw [heq]
  cases hread : t.read.bind checkPattern with
  | error e => exact { h with faithful := hc }
  | ok s =>
    obtain ⟨hs, hholes⟩ := bind_checkPattern_eq_ok.mp hread
    refine { h with faithful := hc, retracts := fun p hp => ?_ }
    rcases List.mem_append.mp hp with hp | hp
    · exact h.retracts p hp
    · rw [List.mem_singleton.mp hp]
      exact ⟨hholes, ht s hs⟩

theorem Ready.planFlush (h : b.Ready P) : b.planFlush.Ready P := by
  unfold MutationBuffer.planFlush
  split
  · exact ⟨h.retracts, h.asserts⟩
  · trivial

theorem Ready.planNow {x : Except Failure Unit × MutationBuffer} (h : x.2.Ready P) :
    (planNow x).1.Ready P ∧ (planNow x).2.Ready P := by
  obtain ⟨r, b⟩ := x
  cases r with
  | error e => exact ⟨trivial, h⟩
  | ok u => exact ⟨h.planFlush, h⟩

theorem ready_patterns {ts : List Template} (hts : ∀ t ∈ ts, t.Yields P) {ps : List Sentence}
    (h : (ts.mapM fun t => t.read.bind checkPattern) = .ok ps) :
    ∀ p ∈ ps, p.hasHoles = false ∧ P p := by
  refine forall_of_mapM_eq_ok h fun t ht p hread => ?_
  obtain ⟨hp, hholes⟩ := bind_checkPattern_eq_ok.mp hread
  exact ⟨hholes, hts t ht p hp⟩

/-- **An action keeps the buffer ready**, and takes only what is ready to the store. -/
theorem Ready.plan (h : b.Ready P) {a : Action} (ha : ∀ t ∈ a.templates, t.Yields P) :
    (b.plan a).1.Ready P ∧ (b.plan a).2.Ready P := by
  cases a with
  | assert t => exact ⟨trivial, h.pushAssert (ha t List.mem_cons_self)⟩
  | retract t => exact ⟨trivial, h.pushRetract (ha t List.mem_cons_self)⟩
  | flush => exact ⟨h.planFlush, h⟩
  | assertNow t => exact Ready.planNow (h.pushAssert (ha t List.mem_cons_self))
  | retractNow t => exact Ready.planNow (h.pushRetract (ha t List.mem_cons_self))
  | forgetAbout name => exact ⟨trivial, h⟩
  | forgetMine => exact ⟨trivial, h⟩
  | select ts =>
    obtain ⟨c, hc, heq⟩ := materializePatterns_eq h.faithful ts
    unfold MutationBuffer.plan
    dsimp only
    rw [heq]
    cases hread : ts.mapM fun t => t.read.bind checkPattern with
    | error e => exact ⟨trivial, { h with faithful := hc }⟩
    | ok ps => exact ⟨ready_patterns ha hread, { h with faithful := hc }⟩
  | listFacts => exact ⟨trivial, h⟩
  | clearCache => exact ⟨trivial, { h with faithful := ParseCache.faithful_clear _ }⟩

theorem Ready.settle (h : b.Ready P) (c : Call) (r : Except Failure Answer) :
    (b.settle c r).Ready P := by
  unfold MutationBuffer.settle
  split
  · exact h.clear
  · exact h

end Ready

/-! ## 3. Buffers in which the same waits -/

/-- The same waits in two buffers with faithful caches. -/
structure Alike (b d : MutationBuffer) : Prop where
  faithful : b.cache.Faithful
  eq : ∃ c, c.Faithful ∧ d = { b with cache := c }

section Alike

variable {b d : MutationBuffer}

theorem alike_empty (m n : Nat) : (empty m).Alike (empty n) :=
  ⟨ParseCache.faithful_empty m, _, ParseCache.faithful_empty n, rfl⟩

theorem Alike.asserts (h : b.Alike d) : d.asserts = b.asserts := by
  obtain ⟨_, c, _, rfl⟩ := h
  rfl

theorem Alike.retracts (h : b.Alike d) : d.retracts = b.retracts := by
  obtain ⟨_, c, _, rfl⟩ := h
  rfl

theorem Alike.pushAssert (h : b.Alike d) (t : Template) :
    (d.pushAssert t).1 = (b.pushAssert t).1 ∧ (b.pushAssert t).2.Alike (d.pushAssert t).2 := by
  obtain ⟨hb, c, hc, rfl⟩ := h
  obtain ⟨c₁, hc₁, heq₁⟩ := pushAssert_eq hb t
  obtain ⟨c₂, hc₂, heq₂⟩ := pushAssert_eq (b := { b with cache := c }) hc t
  rw [heq₁, heq₂]
  cases t.read.bind checkFact with
  | error e => exact ⟨rfl, hc₁, c₂, hc₂, rfl⟩
  | ok s => exact ⟨rfl, hc₁, c₂, hc₂, rfl⟩

theorem Alike.pushRetract (h : b.Alike d) (t : Template) :
    (d.pushRetract t).1 = (b.pushRetract t).1 ∧ (b.pushRetract t).2.Alike (d.pushRetract t).2 := by
  obtain ⟨hb, c, hc, rfl⟩ := h
  obtain ⟨c₁, hc₁, heq₁⟩ := pushRetract_eq hb t
  obtain ⟨c₂, hc₂, heq₂⟩ := pushRetract_eq (b := { b with cache := c }) hc t
  rw [heq₁, heq₂]
  cases t.read.bind checkPattern with
  | error e => exact ⟨rfl, hc₁, c₂, hc₂, rfl⟩
  | ok s => exact ⟨rfl, hc₁, c₂, hc₂, rfl⟩

theorem Alike.planFlush (h : b.Alike d) : d.planFlush = b.planFlush := by
  obtain ⟨_, c, _, rfl⟩ := h
  rfl

theorem Alike.planNow {x y : Except Failure Unit × MutationBuffer} (hr : y.1 = x.1)
    (h : x.2.Alike y.2) :
    (planNow y).1 = (planNow x).1 ∧ (planNow x).2.Alike (planNow y).2 := by
  obtain ⟨r, b⟩ := x
  obtain ⟨r', d⟩ := y
  cases hr
  cases r with
  | error e => exact ⟨rfl, h⟩
  | ok u => exact ⟨h.planFlush, h⟩

/-- **Buffers in which the same waits plan the same**, and the same waits in them afterwards. -/
theorem Alike.plan (h : b.Alike d) (a : Action) :
    (d.plan a).1 = (b.plan a).1 ∧ (b.plan a).2.Alike (d.plan a).2 := by
  cases a with
  | assert t =>
    obtain ⟨hr, hafter⟩ := h.pushAssert t
    exact ⟨by simp only [MutationBuffer.plan, hr], hafter⟩
  | retract t =>
    obtain ⟨hr, hafter⟩ := h.pushRetract t
    exact ⟨by simp only [MutationBuffer.plan, hr], hafter⟩
  | flush => exact ⟨h.planFlush, h⟩
  | assertNow t => exact Alike.planNow (h.pushAssert t).1 (h.pushAssert t).2
  | retractNow t => exact Alike.planNow (h.pushRetract t).1 (h.pushRetract t).2
  | forgetAbout name => exact ⟨rfl, h⟩
  | forgetMine => exact ⟨rfl, h⟩
  | select ts =>
    obtain ⟨hb, c, hc, rfl⟩ := h
    obtain ⟨c₁, hc₁, heq₁⟩ := materializePatterns_eq hb ts
    obtain ⟨c₂, hc₂, heq₂⟩ := materializePatterns_eq (b := { b with cache := c }) hc ts
    unfold MutationBuffer.plan
    dsimp only
    rw [heq₁, heq₂]
    cases ts.mapM fun t => t.read.bind checkPattern with
    | error e => exact ⟨rfl, hc₁, c₂, hc₂, rfl⟩
    | ok ps => exact ⟨rfl, hc₁, c₂, hc₂, rfl⟩
  | listFacts => exact ⟨rfl, h⟩
  | clearCache =>
    obtain ⟨_, c, _, rfl⟩ := h
    exact ⟨rfl, ParseCache.faithful_clear _, c.clear, ParseCache.faithful_clear _, rfl⟩

theorem Alike.settle (h : b.Alike d) (c : Call) (r : Except Failure Answer) :
    (b.settle c r).Alike (d.settle c r) := by
  obtain ⟨hb, c', hc', rfl⟩ := h
  unfold MutationBuffer.settle
  split
  · exact ⟨hb, c', hc', rfl⟩
  · exact ⟨hb, c', hc', rfl⟩

end Alike

/-- Settling only asks whether there was an answer. -/
theorem settle_map (b : MutationBuffer) (c : Call) (r : Except Failure Answer)
    (f : Answer → Answer) : b.settle c (r.map f) = b.settle c r := by
  cases r with
  | error e => rfl
  | ok a => cases c <;> rfl

end MutationBuffer

end Blackboard
