import Blackboard.Board
import Blackboard.Proofs.Clients

/-!
# What a client does to the store

What a client does is an action, or an assertion that cites evidence (`Move`). What comes of an
action is said by what waits in the buffer: a template is refused, or what it is read as joins what
waits, and all of it may then be flushed (`MutationBuffer.comes_plan`).

Of the store a client sees nothing but answers. Which commands a move takes to the store
(`Client.commands`) and what becomes of the client (`Client.next`) is settled before the store is
asked, because over a network that delivers a flush always goes through (`Client.move_eq`).
-/

namespace Blackboard

/-! ## 1. Moves -/

/-- What a client can do: an action, or an assertion that cites its evidence. -/
inductive Move where
  | act (a : Action)
  | assertCiting (fact : Template) (evidence : List Template)
deriving Repr

namespace Move

/-- What a move answers. -/
inductive Report where
  | answer (a : Answer)
  | fact (f : Fact)
deriving Repr

/-- The templates that a move lets wait to be asserted. -/
def asserted : Move → List Template
  | .act (.assert t) | .act (.assertNow t) => [t]
  | _ => []

/-- The templates that a move lets wait to be retracted. -/
def retracted : Move → List Template
  | .act (.retract t) | .act (.retractNow t) => [t]
  | _ => []

/-- Whether a move ends in a flush, unless a template is refused before. -/
def flushes : Move → Bool
  | .act .flush | .act (.assertNow _) | .act (.retractNow _) => true
  | _ => false

/-- Whether a move can change a store: it does more than let something wait, ask, list or clear the
    cache. -/
def mayWrite : Move → Bool
  | .act (.assert _) | .act (.retract _) | .act (.select _) | .act .listFacts
  | .act .clearCache => false
  | _ => true

/-- What the templates are read as that a move lets wait to be asserted. -/
def asserts (m : Move) : List Sentence := m.asserted.filterMap fun t => t.read.toOption

/-- What the templates are read as that a move lets wait to be retracted. -/
def retracts (m : Move) : List Sentence := m.retracted.filterMap fun t => t.read.toOption

/-- What a move lets wait can be read, and can go into a batch. -/
def Readable (m : Move) : Prop :=
  (∀ t ∈ m.asserted, ∃ f, t.read = .ok f ∧ f.isGround = true) ∧
    ∀ t ∈ m.retracted, ∃ p, t.read = .ok p ∧ p.hasHoles = false

/-- Whether there was an answer, and not a failure. -/
def wentThrough (r : Option (Except Failure Report)) : Bool := r matches some (.ok _)

/-- Whether a move may change the store, by what waits before it and by what it answers: a flush of
    something, a retraction of everything about a name or of all that is one's own, or an assertion
    that cites evidence. -/
def writes (c : Client) (r : Option (Except Failure Report)) : Move → Bool
  | .act .flush => c.buffer.hasPending
  | .act (.assertNow _) | .act (.retractNow _) => wentThrough r
  | .act (.forgetAbout _) | .act .forgetMine | .assertCiting _ _ => r.isSome
  | .act _ => false

end Move

/-! ## 2. What waits after an action -/

namespace MutationBuffer

/-- The buffer in which what an action lets wait waits too, with another cache. -/
def waiting (b : MutationBuffer) (a : Action) (cache : ParseCache) : MutationBuffer where
  cache := cache
  asserts := b.asserts ++ (Move.act a).asserts
  retracts := b.retracts ++ (Move.act a).retracts

/-- What can come of an action in a buffer. -/
inductive Comes (b : MutationBuffer) (a : Action) : Plan × MutationBuffer → Prop where
  /-- A template is refused, and the same waits as before. -/
  | refused {e : Failure} {cache : ParseCache} (hflush : a ≠ .flush) :
      Comes b a (.answer (.error e), { b with cache := cache })
  | waits {cache : ParseCache} (hflush : (Move.act a).flushes = false)
      (hread : (Move.act a).Readable) : Comes b a (.answer (.ok .done), b.waiting a cache)
  /-- All that waits is flushed. Unless a flush was asked for, something does wait. -/
  | flushed {cache : ParseCache} (hflush : (Move.act a).flushes = true)
      (hread : (Move.act a).Readable)
      (hpending : a = .flush ∨ (b.waiting a cache).hasPending = true) :
      Comes b a ((b.waiting a cache).planFlush, b.waiting a cache)
  /-- Something else is asked of the store. -/
  | asks {call : Call} {cache : ParseCache} (hflush : (Move.act a).flushes = false)
      (hasserted : (Move.act a).asserted = []) (hretracted : (Move.act a).retracted = [])
      (hcall : ∀ retractions assertions, call ≠ .apply retractions assertions) :
      Comes b a (.call call, { b with cache := cache })

section Comes

variable {b : MutationBuffer}

/-- Nothing more waits after an action without templates that could. -/
theorem waiting_of_nothing {a : Action} (ha : (Move.act a).asserted = [])
    (hr : (Move.act a).retracted = []) (cache : ParseCache) :
    b.waiting a cache = { b with cache := cache } := by
  simp [waiting, Move.asserts, Move.retracts, ha, hr]

theorem readable_of_nothing {m : Move} (ha : m.asserted = []) (hr : m.retracted = []) :
    m.Readable := by
  rw [Move.Readable, ha, hr]
  exact ⟨fun _ h => absurd h List.not_mem_nil, fun _ h => absurd h List.not_mem_nil⟩

/-- An assertion is refused, or what it says waits. -/
theorem pushAssert_cases (h : b.cache.Faithful) {a : Action} {t : Template}
    (ha : (Move.act a).asserted = [t]) (hr : (Move.act a).retracted = []) :
    (∃ e cache, b.pushAssert t = (.error e, { b with cache := cache })) ∨
      (Move.act a).Readable ∧ ∃ cache, b.pushAssert t = (.ok (), b.waiting a cache) ∧
        (b.waiting a cache).hasPending = true := by
  obtain ⟨cache, -, heq⟩ := pushAssert_eq h t
  cases hread : t.read.bind checkFact with
  | error e => exact .inl ⟨e, cache, by rw [heq, hread]⟩
  | ok f =>
    obtain ⟨hf, hground⟩ := bind_checkFact_eq_ok.mp hread
    have hwaits : { b with cache := cache, asserts := b.asserts ++ [f] } = b.waiting a cache := by
      simp [waiting, Move.asserts, Move.retracts, ha, hr, hf, Except.toOption]
    refine .inr ⟨⟨?_, ?_⟩, cache, by rw [heq, hread, ← hwaits], by simp [← hwaits, hasPending]⟩
    · simpa [ha] using ⟨f, hf, hground⟩
    · simp [hr]

/-- A retraction is refused, or what it says waits. -/
theorem pushRetract_cases (h : b.cache.Faithful) {a : Action} {t : Template}
    (ha : (Move.act a).asserted = []) (hr : (Move.act a).retracted = [t]) :
    (∃ e cache, b.pushRetract t = (.error e, { b with cache := cache })) ∨
      (Move.act a).Readable ∧ ∃ cache, b.pushRetract t = (.ok (), b.waiting a cache) ∧
        (b.waiting a cache).hasPending = true := by
  obtain ⟨cache, -, heq⟩ := pushRetract_eq h t
  cases hread : t.read.bind checkPattern with
  | error e => exact .inl ⟨e, cache, by rw [heq, hread]⟩
  | ok p =>
    obtain ⟨hp, hholes⟩ := bind_checkPattern_eq_ok.mp hread
    have hwaits : { b with cache := cache, retracts := b.retracts ++ [p] } =
        b.waiting a cache := by
      simp [waiting, Move.asserts, Move.retracts, ha, hr, hp, Except.toOption]
    refine .inr ⟨⟨?_, ?_⟩, cache, by rw [heq, hread, ← hwaits], by simp [← hwaits, hasPending]⟩
    · simp [ha]
    · simpa [hr] using ⟨p, hp, hholes⟩

/-- **What comes of an action.** -/
theorem comes_plan (h : b.cache.Faithful) (a : Action) : b.Comes a (b.plan a) := by
  cases a with
  | assert t =>
    rcases pushAssert_cases h (a := .assert t) rfl rfl with ⟨e, cache, heq⟩ | ⟨hread, cache, heq, -⟩
    · rw [plan, heq]
      exact .refused (by simp)
    · rw [plan, heq]
      exact .waits rfl hread
  | retract t =>
    rcases pushRetract_cases h (a := .retract t) rfl rfl with ⟨e, cache, heq⟩ | ⟨hread, cache, heq, -⟩
    · rw [plan, heq]
      exact .refused (by simp)
    · rw [plan, heq]
      exact .waits rfl hread
  | flush =>
    have hsame : b.waiting .flush b.cache = b := waiting_of_nothing rfl rfl b.cache
    have hflushed : b.Comes .flush ((b.waiting .flush b.cache).planFlush, b.waiting .flush b.cache) :=
      .flushed rfl (readable_of_nothing rfl rfl) (.inl rfl)
    rw [hsame] at hflushed
    exact hflushed
  | assertNow t =>
    rcases pushAssert_cases h (a := .assertNow t) rfl rfl with
      ⟨e, cache, heq⟩ | ⟨hread, cache, heq, hpending⟩
    · rw [plan, heq]
      exact .refused (by simp)
    · rw [plan, heq]
      exact .flushed rfl hread (.inr hpending)
  | retractNow t =>
    rcases pushRetract_cases h (a := .retractNow t) rfl rfl with
      ⟨e, cache, heq⟩ | ⟨hread, cache, heq, hpending⟩
    · rw [plan, heq]
      exact .refused (by simp)
    · rw [plan, heq]
      exact .flushed rfl hread (.inr hpending)
  | forgetAbout name => exact .asks rfl rfl rfl (by simp)
  | forgetMine => exact .asks rfl rfl rfl (by simp)
  | select ts =>
    obtain ⟨cache, -, heq⟩ := materializePatterns_eq h ts
    rw [plan, heq]
    cases ts.mapM fun t => t.read.bind checkPattern with
    | error e => exact .refused (by simp)
    | ok ps => exact .asks rfl rfl rfl (by simp)
  | listFacts => exact .asks rfl rfl rfl (by simp)
  | clearCache =>
    rw [plan, clearCache, ← waiting_of_nothing (a := .clearCache) rfl rfl]
    exact .waits rfl (readable_of_nothing rfl rfl)

end Comes

/-- Only a batch that goes through changes what waits. -/
theorem settle_of_not_apply (b : MutationBuffer) {call : Call}
    (hcall : ∀ retractions assertions, call ≠ .apply retractions assertions)
    (r : Except Failure Answer) : b.settle call r = b := by
  cases call with
  | apply retractions assertions => exact absurd rfl (hcall retractions assertions)
  | _ => rfl

theorem hasPending_eq_false_iff {b : MutationBuffer} :
    b.hasPending = false ↔ b.asserts = [] ∧ b.retracts = [] := by
  simp [hasPending]

end MutationBuffer

/-! ## 3. Clients -/

namespace Client

/-- The client with another buffer. -/
def withBuffer : Client → MutationBuffer → Client
  | near c, buffer => near { c with buffer }
  | far c, buffer => far { c with buffer }

/-- What arrives at the store of a sentence in a batch. Of what a far client sends, numbers that are
    not finite arrive as `null`. -/
def carries : Client → Sentence → Sentence
  | near _, f => f
  | far _, f => f.onWire

/-- A client makes a move, a far one over a network that delivers. A far client cannot cite
    evidence. -/
def move (c : Client) (s : Store) : Move → Option (Except Failure Move.Report) × Client × Store
  | .act a =>
    match c with
    | near c =>
      let (r, c, s) := c.perform s a
      (some (r.map .answer), near c, s)
    | far c =>
      let (r, c, s) := c.perform Server.deliver s a
      (some (r.map .answer), far c, s)
  | .assertCiting fact evidence =>
    match c with
    | near c =>
      let (r, c, s) := c.assertCiting s fact evidence
      (some (r.map .fact), near c, s)
    | far c => (none, far c, s)

/-- The commands that a call becomes at the store. -/
def callCommands (c : Client) : Call → List Store.Command
  | .apply retractions assertions =>
    [.apply c.id (retractions.map c.carries) (assertions.map c.carries)]
  | .forgetAbout name => [.forgetAbout name]
  | .forgetMine => [.forgetBy c.id]
  | .select _ | .listFacts => []

/-- The commands that a move takes to the store. -/
def commands (c : Client) : Move → List Store.Command
  | .act a =>
    match (c.buffer.plan a).1 with
    | .call call => c.callCommands call
    | .answer _ => []
  | .assertCiting fact evidence =>
    match c, fact.read, evidence.mapM Template.read with
    | near c, .ok fact, .ok evidence => [.assertCiting c.id fact evidence]
    | _, _, _ => []

/-- The client after a move: a batch that was flushed no longer waits. -/
def next (c : Client) : Move → Client
  | .act a =>
    match c.buffer.plan a with
    | (.call call, buffer) => c.withBuffer (buffer.settle call (.ok .done))
    | (.answer _, buffer) => c.withBuffer buffer
  | .assertCiting fact evidence =>
    match c with
    | near c =>
      match c.buffer.materialize fact with
      | (.ok _, buffer) => near { c with buffer := (buffer.materializeAll evidence).2 }
      | (.error _, buffer) => near { c with buffer }
    | far c => far c

section Moves

variable {c : Client} {s : Store}

theorem map_carries (c : Client) {fs : List Sentence} (h : ∀ f ∈ fs, f.isFinite = true) :
    fs.map c.carries = fs := by
  cases c with
  | near c => exact List.map_id fs
  | far c => exact Sentence.map_onWire_of_isFinite h

@[simp] theorem buffer_withBuffer (c : Client) (b : MutationBuffer) :
    (c.withBuffer b).buffer = b := by
  cases c <;> rfl

/-- What the buffer answers by itself does not reach the store. -/
theorem move_of_answer {a : Action} {r : Except Failure Answer} {b : MutationBuffer}
    (h : c.buffer.plan a = (.answer r, b)) :
    c.move s (.act a) = (some (r.map .answer), c.withBuffer b, s) := by
  cases c with
  | near c =>
    have hplan : c.buffer.plan a = (.answer r, b) := h
    simp only [move, LocalClient.perform, hplan, withBuffer]
  | far c =>
    have hplan : c.buffer.plan a = (.answer r, b) := h
    simp only [move, RemoteClient.perform, hplan, withBuffer]

/-- A batch that is ready goes through, and no longer waits. -/
theorem move_of_apply (hs : s.Sound fun _ => True) {a : Action} {R A : List Sentence}
    {b : MutationBuffer} (h : c.buffer.plan a = (.call (.apply R A), b))
    (hready : (Call.apply R A).Ready fun _ => True) :
    ∃ o s', s.apply c.id (R.map c.carries) (A.map c.carries) = (.ok o, s') ∧
      c.move s (.act a) = (some (.ok (.answer (.outcome o))), c.withBuffer b.clear, s') := by
  have hr : ∀ p ∈ R, p.hasHoles = false := fun p hp => (hready.1 p hp).1
  have ha : ∀ f ∈ A, f.isGround = true := fun f hf => (hready.2 f hf).1
  cases c with
  | near c =>
    obtain ⟨o, s', happly⟩ := hs.exists_apply c.id hr ha
    have hplan : c.buffer.plan a = (.call (.apply R A), b) := h
    have hall : ∀ fs : List Sentence, fs.map (near c).carries = fs := List.map_id
    rw [hall, hall]
    refine ⟨o, s', happly, ?_⟩
    simp only [move, LocalClient.perform, hplan, Store.answer, happly]
    rfl
  | far c =>
    obtain ⟨o, s', happly, hdeliver⟩ := Server.exists_deliver_apply hs c.id hr ha
    have hplan : c.buffer.plan a = (.call (.apply R A), b) := h
    refine ⟨o, s', happly, ?_⟩
    simp only [move, RemoteClient.perform, hplan, hdeliver, RemoteClient.readReply,
      RemoteClient.readBody_succeeded (FlushResponse.take_reads _)]
    rfl

/-- Any other call leaves what waits as it is. -/
theorem move_of_call {a : Action} {call : Call} {b : MutationBuffer}
    (h : c.buffer.plan a = (.call call, b))
    (hcall : ∀ retractions assertions, call ≠ .apply retractions assertions) :
    ∃ r, c.move s (.act a) = (some r, c.withBuffer b, s.after (c.callCommands call)) := by
  have hsettle := b.settle_of_not_apply hcall
  cases c with
  | near c =>
    have hplan : c.buffer.plan a = (.call call, b) := h
    simp only [move, LocalClient.perform, hplan, hsettle]
    refine ⟨_, Prod.ext rfl (Prod.ext rfl ?_)⟩
    cases call with
    | apply R A => exact absurd rfl (hcall R A)
    | _ => rfl
  | far c =>
    have hplan : c.buffer.plan a = (.call call, b) := h
    simp only [move, RemoteClient.perform, hplan, hsettle]
    refine ⟨_, Prod.ext rfl (Prod.ext rfl ?_)⟩
    cases call with
    | apply R A => exact absurd rfl (hcall R A)
    | _ => rfl

/-- **What a move does to the store, and to the client, is settled before the store is asked.** -/
theorem move_eq (hs : s.Sound fun _ => True) (hb : c.buffer.Ready fun _ => True) (m : Move) :
    (c.move s m).2 = (c.next m, s.after (c.commands m)) := by
  cases m with
  | act a =>
    have hcall := (hb.plan (a := a) fun _ _ _ _ => trivial).1
    rcases hplan : c.buffer.plan a with ⟨p, b⟩
    rw [hplan] at hcall
    simp only [next, commands, hplan]
    cases p with
    | answer r => rw [move_of_answer hplan]; rfl
    | call call =>
      by_cases hbatch : ∃ R A, call = .apply R A
      · obtain ⟨R, A, rfl⟩ := hbatch
        obtain ⟨o, s', happly, hmove⟩ := move_of_apply hs hplan hcall
        have hstore : (s.apply c.id (R.map c.carries) (A.map c.carries)).2 = s' := by rw [happly]
        rw [hmove, ← hstore]
        rfl
      · obtain ⟨r, hmove⟩ := move_of_call (s := s) hplan fun R A heq => hbatch ⟨R, A, heq⟩
        rw [hmove]
        cases call with
        | apply R A => exact absurd ⟨R, A, rfl⟩ hbatch
        | _ => rfl
  | assertCiting fact evidence =>
    cases c with
    | far c => rfl
    | near c =>
      have hfaithful : c.buffer.cache.Faithful := hb.faithful
      obtain ⟨cache, hcache, hfact⟩ := MutationBuffer.materialize_eq hfaithful fact
      simp only [move, LocalClient.assertCiting, next, commands, hfact]
      cases fact.read with
      | error e => rfl
      | ok f =>
        obtain ⟨cache', -, hevidence⟩ := MutationBuffer.materializeAll_eq
          (b := { c.buffer with cache := cache }) hcache evidence
        simp only [hevidence]
        cases evidence.mapM Template.read with
        | error e => rfl
        | ok es => rfl

/-- Citing evidence leaves what waits as it is. -/
theorem next_assertCiting (hb : c.buffer.cache.Faithful) (fact : Template)
    (evidence : List Template) : ∃ cache, cache.Faithful ∧
      c.next (.assertCiting fact evidence) = c.withBuffer { c.buffer with cache := cache } := by
  cases c with
  | far c => exact ⟨c.buffer.cache, hb, rfl⟩
  | near c =>
    have hfaithful : c.buffer.cache.Faithful := hb
    obtain ⟨cache, hcache, hfact⟩ := MutationBuffer.materialize_eq hfaithful fact
    simp only [next, hfact]
    cases fact.read with
    | error e => exact ⟨cache, hcache, rfl⟩
    | ok f =>
      obtain ⟨cache', hcache', hevidence⟩ := MutationBuffer.materializeAll_eq
        (b := { c.buffer with cache := cache }) hcache evidence
      simp only [hevidence]
      exact ⟨cache', hcache', rfl⟩

theorem ready_next (hb : c.buffer.Ready fun _ => True) (m : Move) :
    (c.next m).buffer.Ready fun _ => True := by
  cases m with
  | act a =>
    have hready := (hb.plan (a := a) fun _ _ _ _ => trivial).2
    rcases hplan : c.buffer.plan a with ⟨p, b⟩
    rw [hplan] at hready
    simp only [next, hplan]
    cases p with
    | answer r => simpa using hready
    | call call => simpa using hready.settle call (.ok .done)
  | assertCiting fact evidence =>
    obtain ⟨cache, hcache, hnext⟩ := next_assertCiting hb.faithful fact evidence
    rw [hnext, buffer_withBuffer]
    exact { hb with faithful := hcache }

/-- Whether a move takes a command to the store, or would if its templates can be read. -/
def reaches (c : Client) : Move → Bool
  | .act a => !(c.commands (.act a)).isEmpty
  | .assertCiting _ _ => c matches near _

/-- What comes of a move: what waits then, and what a flush has taken to the store. -/
structure Outcome (c : Client) (s : Store) (m : Move) (r : Option (Except Failure Move.Report)) :
    Prop where
  readable : Move.wentThrough r = true → m.Readable
  asserts : (c.next m).buffer.asserts =
    if m.flushes && Move.wentThrough r then []
    else c.buffer.asserts ++ if Move.wentThrough r then m.asserts else []
  retracts : (c.next m).buffer.retracts =
    if m.flushes && Move.wentThrough r then []
    else c.buffer.retracts ++ if Move.wentThrough r then m.retracts else []
  flush : m = .act .flush → Move.wentThrough r = true
  batch : m.flushes = true → Move.wentThrough r = true →
    ∃ o, r = some (.ok (.answer (.outcome o))) ∧
      s.apply c.id ((c.buffer.retracts ++ m.retracts).map c.carries)
        ((c.buffer.asserts ++ m.asserts).map c.carries) = (.ok o, s.after (c.commands m))

/-- What comes of a flush that takes all to the store that waits, with what the move lets wait. -/
theorem outcome_of_flushed {m : Move} {o : FlushOutcome} (hflush : m.flushes = true)
    (hread : m.Readable) (hr : (c.move s m).1 = some (.ok (.answer (.outcome o))))
    (hasserts : (c.next m).buffer.asserts = []) (hretracts : (c.next m).buffer.retracts = [])
    (happly : s.apply c.id ((c.buffer.retracts ++ m.retracts).map c.carries)
      ((c.buffer.asserts ++ m.asserts).map c.carries) = (.ok o, s.after (c.commands m))) :
    c.Outcome s m (c.move s m).1 := by
  rw [hr]
  exact {
    readable := fun _ => hread
    asserts := by simp [hasserts, hflush, Move.wentThrough]
    retracts := by simp [hretracts, hflush, Move.wentThrough]
    flush := fun _ => rfl
    batch := fun _ _ => ⟨o, rfl, happly⟩ }

/-- **What comes of a move.** -/
theorem outcome (hs : s.Sound fun _ => True) (hb : c.buffer.Ready fun _ => True) (m : Move) :
    c.Outcome s m (c.move s m).1 := by
  cases m with
  | act a =>
    have hcomes := MutationBuffer.comes_plan hb.faithful a
    have hready := (hb.plan (a := a) fun _ _ _ _ => trivial).1
    generalize hplan : c.buffer.plan a = x at hcomes hready
    cases hcomes with
    | refused hflush =>
      rw [move_of_answer hplan]
      exact {
        readable := nofun
        asserts := by simp [next, hplan, Move.wentThrough, Except.map]
        retracts := by simp [next, hplan, Move.wentThrough, Except.map]
        flush := fun h => absurd (Move.act.inj h) hflush
        batch := nofun }
    | waits hflush hread =>
      rw [move_of_answer hplan]
      exact {
        readable := fun _ => hread
        asserts := by
          simp [next, hplan, Move.wentThrough, Except.map, hflush, MutationBuffer.waiting]
        retracts := by
          simp [next, hplan, Move.wentThrough, Except.map, hflush, MutationBuffer.waiting]
        flush := fun _ => rfl
        batch := fun h => by rw [hflush] at h; cases h }
    | @flushed cache hflush hread hpending =>
      unfold MutationBuffer.planFlush at hplan hready
      split at hplan
      · rename_i hwaits
        rw [if_pos hwaits] at hready
        obtain ⟨o, s', happly, hmove⟩ := move_of_apply hs hplan hready
        have hcommands : s.after (c.commands (.act a)) = s' := by
          rw [commands, hplan]
          exact congrArg Prod.snd happly
        refine outcome_of_flushed hflush hread (by rw [hmove]) ?_ ?_ (hcommands ▸ happly)
        · simp [next, hplan, MutationBuffer.settle, MutationBuffer.clear]
        · simp [next, hplan, MutationBuffer.settle, MutationBuffer.clear]
      · rename_i hnothing
        rw [Bool.not_eq_true, MutationBuffer.hasPending_eq_false_iff] at hnothing
        obtain ⟨hasserts, hretracts⟩ := hnothing
        refine outcome_of_flushed hflush hread (by rw [move_of_answer hplan]; rfl) ?_ ?_ ?_
        · simpa [next, hplan] using hasserts
        · simpa [next, hplan] using hretracts
        · -- the empty batch changes nothing
          change c.buffer.asserts ++ (Move.act a).asserts = [] at hasserts
          change c.buffer.retracts ++ (Move.act a).retracts = [] at hretracts
          rw [hasserts, hretracts, commands, hplan]
          rfl
    | asks hflush hasserted hretracted hcall =>
      obtain ⟨r, hmove⟩ := move_of_call (s := s) hplan hcall
      rw [hmove]
      have hsettle := fun b => MutationBuffer.settle_of_not_apply b hcall
      exact {
        readable := fun _ => MutationBuffer.readable_of_nothing hasserted hretracted
        asserts := by simp [next, hplan, hsettle, hflush, Move.asserts, hasserted]
        retracts := by simp [next, hplan, hsettle, hflush, Move.retracts, hretracted]
        flush := by
          rintro ⟨⟩
          cases hflush
        batch := fun h => by rw [hflush] at h; cases h }
  | assertCiting fact evidence =>
    obtain ⟨cache, -, hnext⟩ := next_assertCiting hb.faithful fact evidence
    exact {
      readable := fun _ => MutationBuffer.readable_of_nothing rfl rfl
      asserts := by simp [hnext, Move.flushes, Move.asserts, Move.asserted]
      retracts := by simp [hnext, Move.flushes, Move.retracts, Move.retracted]
      flush := nofun
      batch := nofun }

theorem mayWrite_of_reaches {m : Move} (h : c.reaches m = true) : m.mayWrite = true := by
  by_contra hquiet
  cases m with
  | assertCiting fact evidence => exact hquiet rfl
  | act a =>
    cases a with
    | assert t => cases h
    | retract t => cases h
    | select ts =>
      rw [reaches, commands, MutationBuffer.plan] at h
      rcases hread : c.buffer.materializePatterns ts with ⟨r, b⟩
      rw [hread] at h
      cases r <;> cases h
    | listFacts => cases h
    | clearCache => cases h
    | _ => exact hquiet rfl

/-- An immediate change goes through exactly if it takes a batch to the store. -/
theorem wentThrough_of_now (hs : s.Sound fun _ => True) (hb : c.buffer.Ready fun _ => True)
    {a : Action} (hflush : (Move.act a).flushes = true) (hnow : a ≠ .flush) :
    Move.wentThrough (c.move s (.act a)).1 = c.reaches (.act a) := by
  have hcomes := MutationBuffer.comes_plan hb.faithful a
  have hready := (hb.plan (a := a) fun _ _ _ _ => trivial).1
  generalize hplan : c.buffer.plan a = x at hcomes hready
  cases hcomes with
  | refused =>
    rw [move_of_answer hplan, reaches, commands, hplan]
    rfl
  | waits hwaits => exact absurd hflush (by simp [hwaits])
  | flushed _ _ hpending =>
    rw [MutationBuffer.planFlush, if_pos (hpending.resolve_left hnow)] at hplan hready
    obtain ⟨o, s', -, hmove⟩ := move_of_apply hs hplan hready
    rw [hmove, reaches, commands, hplan]
    rfl
  | asks hwaits => exact absurd hflush (by simp [hwaits])

/-- **Only a move that may change the store takes a command to it.** -/
theorem writes_eq (hs : s.Sound fun _ => True) (hb : c.buffer.Ready fun _ => True) (m : Move) :
    m.writes c (c.move s m).1 = c.reaches m := by
  have hquiet : m.mayWrite = false → c.reaches m = false := fun h => by
    by_contra hreaches
    rw [mayWrite_of_reaches (by simpa using hreaches)] at h
    cases h
  cases m with
  | assertCiting fact evidence => cases c <;> rfl
  | act a =>
    cases a with
    | assert t => exact (hquiet rfl).symm
    | retract t => exact (hquiet rfl).symm
    | flush =>
      rw [Move.writes, reaches, commands, MutationBuffer.plan, MutationBuffer.planFlush]
      cases c.buffer.hasPending <;> rfl
    | assertNow t => exact wentThrough_of_now hs hb rfl (by simp)
    | retractNow t => exact wentThrough_of_now hs hb rfl (by simp)
    | forgetAbout name => cases c <;> rfl
    | forgetMine => cases c <;> rfl
    | select ts => exact (hquiet rfl).symm
    | listFacts => exact (hquiet rfl).symm
    | clearCache => exact (hquiet rfl).symm

theorem commands_of_not_reaches {m : Move} (h : c.reaches m = false) : c.commands m = [] := by
  cases m with
  | act a => simpa [reaches] using h
  | assertCiting fact evidence =>
    cases c with
    | near c => cases h
    | far c => rfl

end Moves

end Client

end Blackboard
