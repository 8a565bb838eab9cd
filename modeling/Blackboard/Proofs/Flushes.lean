import Blackboard.Proofs.Interleavings

/-!
# Flushes next to the store

A near client checks what it lets wait when it is called, and the store checks the batch once more.
The two checks are not the same ones, and fillers may put variables and holes into a sentence after
it was read. Still **a flush next to the store never fails** (`Board.flush_goes_through`): whatever
has happened on the board, what waits is ground or without holes (`Board.Ready`), so the store takes
the batch, and nothing waits any more.

A move that fails is refused before it lets anything wait, so a failure leaves the buffer as it was.
-/

namespace Blackboard

/-! ## 1. Near clients -/

namespace Client

section Readable

variable {c : Client} {s : Store}

/-- An immediate change whose template can go into a batch takes the batch to the store. -/
theorem reaches_of_readable (hb : c.buffer.cache.Faithful) {a : Action}
    (hflush : (Move.act a).flushes = true) (hnow : a ≠ .flush) (hread : (Move.act a).Readable) :
    c.reaches (.act a) = true := by
  cases a with
  | assertNow t =>
    obtain ⟨f, hf, hground⟩ := hread.1 t List.mem_cons_self
    obtain ⟨cache, -, heq⟩ := MutationBuffer.pushAssert_eq hb t
    rw [MutationBuffer.bind_checkFact_eq_ok.mpr ⟨hf, hground⟩] at heq
    simp [reaches, commands, MutationBuffer.plan, heq, MutationBuffer.planNow,
      MutationBuffer.planFlush, MutationBuffer.hasPending, callCommands]
  | retractNow t =>
    obtain ⟨p, hp, hholes⟩ := hread.2 t List.mem_cons_self
    obtain ⟨cache, -, heq⟩ := MutationBuffer.pushRetract_eq hb t
    rw [MutationBuffer.bind_checkPattern_eq_ok.mpr ⟨hp, hholes⟩] at heq
    simp [reaches, commands, MutationBuffer.plan, heq, MutationBuffer.planNow,
      MutationBuffer.planFlush, MutationBuffer.hasPending, callCommands]
  | flush => exact absurd rfl hnow
  | _ => cases hflush

/-- **A move that flushes goes through exactly if what it lets wait can go into a batch.** -/
theorem wentThrough_iff_readable (hs : s.Sound fun _ => True)
    (hb : c.buffer.Ready fun _ => True) {m : Move} (hflush : m.flushes = true) :
    Move.wentThrough (c.move s m).1 = true ↔ m.Readable := by
  refine ⟨(outcome hs hb m).readable, fun hread => ?_⟩
  cases m with
  | assertCiting fact evidence => cases hflush
  | act a =>
    by_cases hnow : a = .flush
    · exact (outcome hs hb (.act a)).flush (congrArg Move.act hnow)
    · rw [wentThrough_of_now hs hb hflush hnow]
      exact reaches_of_readable hb.faithful hflush hnow hread

end Readable

/-- A near client answers every move. -/
theorem exists_report_near (c : LocalClient) (s : Store) (m : Move) :
    ∃ r, ((near c).move s m).1 = some r := by
  cases m <;> exact ⟨_, rfl⟩

/-- A near client stays near. -/
theorem exists_next_near (c : LocalClient) (m : Move) : ∃ d, (near c).next m = near d := by
  cases m with
  | act a =>
    rcases hplan : c.buffer.plan a with ⟨p, b⟩
    have hplan' : (near c).buffer.plan a = (p, b) := hplan
    cases p <;> exact ⟨_, by simp only [next, hplan']; rfl⟩
  | assertCiting fact evidence =>
    rcases hread : c.buffer.materialize fact with ⟨r, b⟩
    cases r <;> exact ⟨_, by simp only [next, hread]; rfl⟩

end Client

namespace Board

/-! ## 2. All that can happen on a board -/

/-- What can happen on a board. -/
inductive Event where
  | connect (handle : String) (id : Option String)
  | join (handle host : String) (port : Nat) (id : String) (cacheCapacity : Nat)
  | leave (handle : String)
  | disconnect (id : String)
  | move (handle : String) (m : Move)
  /-- The store is worked on past all clients. -/
  | command (c : Store.Command)
deriving Repr

/-- The board after an event. -/
def step (b : Board) : Event → Board
  | .connect handle id => (b.connect handle id).2
  | .join handle host port id cacheCapacity => b.join handle (.new host port id cacheCapacity)
  | .leave handle => (b.leave handle).2
  | .disconnect id => (b.disconnect id).2
  | .move handle m => (b.move handle m).2
  | .command c => (b.onStore (·.perform c)).2

/-- The board after a row of events. -/
def after (b : Board) (events : List Event) : Board := events.foldl step b

section Ready

variable {b : Board}

theorem ready_of_nothing (cacheCapacity : Nat) : (empty cacheCapacity).Ready where
  sound := Store.sound_empty
  buffers _ _ h := nomatch h

/-- A client that has done nothing yet may come under any handle. -/
theorem Ready.insert (hb : b.Ready) (handle : String) {c : Client}
    (hc : c.buffer.Ready fun _ => True) (registry : Registry) :
    Ready { b with registry, clients := b.clients.insert handle c } where
  sound := hb.sound
  buffers k d hd := by
    have hget := OrderedMap.get?_insert b.clients handle c k
    rw [client?, hget] at hd
    split at hd
    · cases hd
      exact hc
    · exact hb.buffers k d hd

/-- A handle may be let go of. -/
theorem Ready.erase (hb : b.Ready) (handle : String) (registry : Registry) :
    Ready { b with registry, clients := b.clients.erase handle } where
  sound := hb.sound
  buffers k d hd := by
    have hget := OrderedMap.get?_erase b.clients handle k
    rw [client?, hget] at hd
    split at hd
    · cases hd
    · exact hb.buffers k d hd

/-- **Every event keeps what waits ready for a batch.** -/
theorem Ready.step (hb : b.Ready) (e : Event) : (b.step e).Ready := by
  cases e with
  | connect handle id =>
    rcases hid : b.registry.connect id with ⟨r, registry⟩
    cases r with
    | error e =>
      simp only [Board.step, connect, hid]
      exact ⟨hb.sound, hb.buffers⟩
    | ok id =>
      simp only [Board.step, connect, hid]
      exact hb.insert handle (MutationBuffer.ready_empty _) registry
  | join handle host port id cacheCapacity =>
    exact hb.insert handle (MutationBuffer.ready_empty _) b.registry
  | leave handle =>
    simp only [Board.step, leave]
    split
    · exact hb.erase handle _
    · exact hb.erase handle b.registry
  | disconnect id => exact ⟨hb.sound, hb.buffers⟩
  | move handle m => exact Turn.ready_after (t := ⟨b, handle, m⟩) hb
  | command c => exact ⟨hb.sound.perform fun _ _ _ => trivial, hb.buffers⟩

theorem Ready.after (hb : b.Ready) (events : List Event) : (b.after events).Ready := by
  induction events generalizing b with
  | nil => exact hb
  | cons e events ih => exact ih (hb.step e)

end Ready

/-! ## 3. Moves of near clients -/

/-- What comes of a move of a near client: a failure leaves what waits as it was, and a flush goes
    through and leaves nothing. -/
theorem Ready.near_move {b : Board} (hb : b.Ready) {handle : String} {c : LocalClient}
    (hc : b.client? handle = some (.near c)) (m : Move) :
    ∃ r d, (b.move handle m).1 = some r ∧ (b.move handle m).2.client? handle = some (.near d) ∧
      (∀ e, r = .error e →
        d.buffer.asserts = c.buffer.asserts ∧ d.buffer.retracts = c.buffer.retracts) ∧
      (m.flushes = true → m.Readable →
        (∃ o, r = .ok (.answer (.outcome o))) ∧ d.buffer.asserts = [] ∧ d.buffer.retracts = []) := by
  have hbuffer := hb.buffers handle (.near c) hc
  have hreport : (b.move handle m).1 = ((Client.near c).move b.store m).1 := (move_of_some hc m).1
  obtain ⟨r, hr⟩ := Client.exists_report_near c b.store m
  obtain ⟨d, hd⟩ := Client.exists_next_near c m
  have hout := Client.outcome hb.sound hbuffer m
  have hasserts := hout.asserts
  have hretracts := hout.retracts
  rw [hd] at hasserts hretracts
  refine ⟨r, d, hreport.trans hr, ?_, ?_, fun hflush hread => ?_⟩
  · rw [(move_of_some hc m).2.2 handle, if_pos rfl, Client.move_eq hb.sound hbuffer m, hd]
  · rintro e rfl
    have hfailed : Move.wentThrough ((Client.near c).move b.store m).1 = false := by rw [hr]; rfl
    simp only [hfailed, Bool.and_false, Bool.false_eq_true, if_false, List.append_nil]
      at hasserts hretracts
    exact ⟨hasserts, hretracts⟩
  · have hwent := (Client.wentThrough_iff_readable hb.sound hbuffer hflush).mpr hread
    obtain ⟨o, ho, -⟩ := hout.batch hflush hwent
    simp only [hwent, hflush, Bool.and_true, if_true] at hasserts hretracts
    exact ⟨⟨o, Option.some.inj (hr.symm.trans ho)⟩, hasserts, hretracts⟩

/-- **A flush next to the store never fails.** Whatever has happened on a board, and whatever the
    fillers were: what a near client lets wait to be asserted is ground, what it lets wait to be
    retracted has no holes, and a flush goes through and leaves nothing waiting. A move that fails
    leaves what waits as it was; an immediate change fails only if its own template is refused. -/
theorem flush_goes_through (cacheCapacity : Nat) (events : List Event) {handle : String}
    {c : LocalClient} (hc : ((empty cacheCapacity).after events).client? handle = some (.near c)) :
    let b := (empty cacheCapacity).after events
    (∀ f ∈ c.buffer.asserts, f.isGround = true) ∧
      (∀ p ∈ c.buffer.retracts, p.hasHoles = false) ∧
      (∃ o d, (b.move handle (.act .flush)).1 = some (.ok (.answer (.outcome o))) ∧
        (b.move handle (.act .flush)).2.client? handle = some (.near d) ∧
        d.buffer.asserts = [] ∧ d.buffer.retracts = []) ∧
      ∀ m, ∃ r d, (b.move handle m).1 = some r ∧
        (b.move handle m).2.client? handle = some (.near d) ∧
        (∀ e, r = .error e →
          d.buffer.asserts = c.buffer.asserts ∧ d.buffer.retracts = c.buffer.retracts) ∧
        (m.flushes = true → m.Readable →
          (∃ o, r = .ok (.answer (.outcome o))) ∧
            d.buffer.asserts = [] ∧ d.buffer.retracts = []) := by
  intro b
  have hb : b.Ready := (ready_of_nothing cacheCapacity).after events
  have hbuffer := hb.buffers handle (.near c) hc
  refine ⟨fun f hf => (hbuffer.asserts f hf).1, fun p hp => (hbuffer.retracts p hp).1, ?_,
    hb.near_move hc⟩
  obtain ⟨r, d, hr, hd, -, hflush⟩ := hb.near_move hc (.act .flush)
  obtain ⟨⟨o, rfl⟩, hnothing⟩ := hflush rfl (MutationBuffer.readable_of_nothing rfl rfl)
  exact ⟨o, d, hr, hd, hnothing⟩

/-- Fillers that are variables and holes are refused, and so is evidence that is not stored; a filler
    that is a wildcard may be retracted. -/
theorem flush_goes_through_fillers :
    let events : List Event :=
      [.connect "a" (some "ann"),
        .move "a" (.act (.assert ⟨"x _", [.identifier "y"]⟩)),
        .move "a" (.act (.assert ⟨"x _", [.variable "v"]⟩)),
        .move "a" (.act (.retract ⟨"_ z", [.hole]⟩)),
        .move "a" (.act (.retract ⟨"_ z", [.wildcard]⟩)),
        .move "a" (.act (.select [⟨"$ _", [.hole]⟩])),
        .move "a" (.assertCiting ⟨"x", []⟩ [⟨"y", []⟩]),
        .move "a" (.act .clearCache)]
    let b := (empty 10).after events
    ∃ c, b.client? "a" = some (.near c) ∧
      c.buffer.asserts = [[.word "x", .word " ", .identifier "y"]] ∧
      c.buffer.retracts = [[.wildcard, .word " ", .word "z"]] ∧
      ∃ o d, (b.move "a" (.act .flush)).1 = some (.ok (.answer (.outcome o))) ∧
        (b.move "a" (.act .flush)).2.client? "a" = some (.near d) ∧
        d.buffer.asserts = [] ∧ d.buffer.retracts = [] := by
  intro events b
  -- Only a near client takes evidence to the store.
  have hnear : (b.client? "a").any (·.reaches (.assertCiting ⟨"x", []⟩ [])) = true := by
    decide +kernel
  have hwaits : (b.client? "a").map (fun c => (c.buffer.asserts, c.buffer.retracts)) =
      some ([[.word "x", .word " ", .identifier "y"]], [[.wildcard, .word " ", .word "z"]]) := by
    decide +kernel
  obtain ⟨c, hc, hreaches⟩ := (Option.any_eq_true _ _).mp hnear
  cases c with
  | far c => exact absurd hreaches Bool.false_ne_true
  | near c =>
    rw [hc, Option.map_some, Option.some.injEq, Prod.mk.injEq] at hwaits
    exact ⟨c, hc, hwaits.1, hwaits.2, (flush_goes_through 10 events hc).2.2.1⟩

end Board

end Blackboard
