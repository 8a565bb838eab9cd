import Blackboard.Proofs.Moves
import Mathlib.Data.List.DropRight

/-!
# Clients that share a store

Any number of clients make their moves on a board one after another, in any order; far ones over a
network that delivers. What a client lets wait reaches the store with its next flush and not before,
and only what its own calls since the last one have let wait, each once and in their order.

One invariant says it (`Board.Follows`): what waits in the buffer of a client is what its calls since
its last flush have let wait. It is kept by every turn (`Follows.turn`).

Between its turns at the store a client goes on by itself (`Board.trail`), so the store at the end is
given by each client's own moves and by the order of the turns that may change the store. **All else
may be moved past the turns of others** (`Board.interleaved_turns`).

What a far client lets wait travels as a text. Its finite numbers arrive, because a numeral is read
as the number nearest to it (`Json.Number.ofNumeral`); for an infinity or a NaN there is no numeral,
and it arrives as `null` (`Board.far_flush_infinity`).
-/

namespace Blackboard

namespace Board

/-! ## 1. Turns -/

/-- The client of a handle makes a move, over a network that delivers if it is far. -/
def move (b : Board) (handle : String) : Move → Option (Except Failure Move.Report) × Board
  | .act a =>
    let (r, b) := b.act Server.deliver handle a
    (r.map (Except.map .answer), b)
  | .assertCiting fact evidence =>
    let (r, b) := b.assertCiting handle fact evidence
    (r.map (Except.map .fact), b)

/-- A turn: the board before it, the handle that is called, and the move. -/
structure Turn where
  before : Board
  handle : String
  move : Move

/-- The turns in which the moves of a row are made one after another. -/
def turns (b : Board) : List (String × Move) → List Turn
  | [] => []
  | (handle, m) :: moves => ⟨b, handle, m⟩ :: turns (b.move handle m).2 moves

/-- The board after a row of moves. -/
def run (b : Board) (moves : List (String × Move)) : Board :=
  moves.foldl (fun b m => (b.move m.1 m.2).2) b

namespace Turn

/-- What is answered, if anybody is called who can make the move. -/
def report (t : Turn) : Option (Except Failure Move.Report) := (t.before.move t.handle t.move).1

/-- The board after a turn. -/
def after (t : Turn) : Board := (t.before.move t.handle t.move).2

/-- The client that is called, as it is before the turn. -/
def caller (t : Turn) : Option Client := t.before.client? t.handle

/-- Whether there is an answer, and not a failure. -/
def wentThrough (t : Turn) : Bool := Move.wentThrough t.report

/-- Whether the turn may change the store: it flushes something that waits, retracts everything about
    a name or everything of a client, or asserts something and cites evidence. -/
def writes (t : Turn) : Bool := t.caller.any fun c => t.move.writes c t.report

/-- Whether the turn ends in a flush that goes through. -/
def flushed (t : Turn) : Bool := t.move.flushes && t.wentThrough

/-- What a turn that goes through lets wait to be asserted. -/
def asserts (t : Turn) : List Sentence := if t.wentThrough then t.move.asserts else []

/-- What a turn that goes through lets wait to be retracted. -/
def retracts (t : Turn) : List Sentence := if t.wentThrough then t.move.retracts else []

end Turn

/-- The turns of a client since its last flush that went through. -/
def unflushed (handle : String) (past : List Turn) : List Turn :=
  (past.filter fun t => t.handle == handle).rtakeWhile fun t => !t.flushed

/-- A store that a history leads to, and clients that have done nothing yet. -/
structure Begins (b : Board) : Prop where
  store : ∃ history, b.store = Store.empty.after history
  clients : ∀ handle c, b.client? handle = some c → ∃ n, c.buffer = .empty n

/-! ## 2. What a turn does -/

/-- The store is sound, and what waits in the buffers can go into batches. -/
structure Ready (b : Board) : Prop where
  sound : b.store.Sound fun _ => True
  buffers : ∀ handle c, b.client? handle = some c → c.buffer.Ready fun _ => True

theorem Begins.ready {b : Board} (h : b.Begins) : b.Ready where
  sound := by
    obtain ⟨history, hstore⟩ := h.store
    rw [hstore]
    exact Store.sound_after history
  buffers handle c hc := by
    obtain ⟨n, hbuffer⟩ := h.clients handle c hc
    rw [hbuffer]
    exact MutationBuffer.ready_empty n

/-- A board with an empty store and new clients is one on which nothing has been done yet. -/
theorem begins_of_new {b : Board} (hstore : b.store = .empty)
    (hclients : ∀ c ∈ b.clients.values, ∃ n, c.buffer = .empty n) : b.Begins where
  store := ⟨[], hstore⟩
  clients _ c hc := hclients c (List.mem_map_of_mem (OrderedMap.mem_of_get? hc))

section Turns

variable {b : Board} {handle : String} {c : Client}

theorem client?_update (b : Board) (handle : String) (c : Client) (s : Store) (k : String) :
    (b.update handle c s).client? k = if k = handle then some c else b.client? k :=
  OrderedMap.get?_insert b.clients handle c k

/-- Where nobody is called nothing happens. -/
theorem move_of_none (h : b.client? handle = none) (m : Move) : b.move handle m = (none, b) := by
  cases m with
  | act a => simp only [move, act, h]; rfl
  | assertCiting fact evidence => simp only [move, assertCiting, h]; rfl

/-- The client that is called makes its move, and the others stay as they are. -/
theorem move_of_some (h : b.client? handle = some c) (m : Move) :
    (b.move handle m).1 = (c.move b.store m).1 ∧
      (b.move handle m).2.store = (c.move b.store m).2.2 ∧
      ∀ k, (b.move handle m).2.client? k =
        if k = handle then some (c.move b.store m).2.1 else b.client? k := by
  cases m with
  | act a =>
    cases c with
    | near c =>
      simp only [move, act, h]
      exact ⟨rfl, rfl, client?_update b handle _ _⟩
    | far c =>
      simp only [move, act, h]
      exact ⟨rfl, rfl, client?_update b handle _ _⟩
  | assertCiting fact evidence =>
    cases c with
    | near c =>
      simp only [move, assertCiting, h]
      exact ⟨rfl, rfl, client?_update b handle _ _⟩
    | far c =>
      simp only [move, assertCiting, h]
      refine ⟨rfl, rfl, fun k => ?_⟩
      split
      · rename_i hk
        rw [hk, h]
        rfl
      · rfl

end Turns

namespace Turn

variable {t : Turn} {c : Client}

/-- The commands that a turn takes to the store. -/
def commands (t : Turn) : List Store.Command := t.caller.elim [] (·.commands t.move)

theorem client?_after (hr : t.before.Ready) (k : String) :
    t.after.client? k =
      if k = t.handle then t.caller.map (·.next t.move) else t.before.client? k := by
  cases hc : t.caller with
  | none =>
    rw [after, move_of_none hc]
    split
    · rename_i hk
      rw [hk]
      exact hc
    · rfl
  | some c =>
    rw [after, (move_of_some hc t.move).2.2 k,
      c.move_eq hr.sound (hr.buffers t.handle c hc) t.move]
    rfl

/-- **A turn takes its commands to the store**, and does nothing else to it. -/
theorem store_after (hr : t.before.Ready) :
    t.after.store = t.before.store.after t.commands := by
  cases hc : t.caller with
  | none =>
    rw [after, move_of_none hc, commands, hc]
    rfl
  | some c =>
    rw [after, (move_of_some hc t.move).2.1, c.move_eq hr.sound (hr.buffers t.handle c hc) t.move,
      commands, hc]
    rfl

theorem ready_after (hr : t.before.Ready) : t.after.Ready where
  sound := by
    rw [store_after hr]
    exact Store.after_sound hr.sound fun _ _ _ _ _ => trivial
  buffers k c hc := by
    rw [client?_after hr] at hc
    split at hc
    · obtain ⟨d, hd, rfl⟩ := Option.map_eq_some_iff.mp hc
      exact Client.ready_next (hr.buffers t.handle d hd) t.move
    · exact hr.buffers k c hc

/-- What comes of the move of the client that is called. -/
theorem outcome (hr : t.before.Ready) (hc : t.caller = some c) :
    c.Outcome t.before.store t.move t.report := by
  rw [report, (move_of_some hc t.move).1]
  exact Client.outcome hr.sound (hr.buffers t.handle c hc) t.move

/-- Whether a turn may change the store is settled before the store is asked. -/
theorem writes_eq (hr : t.before.Ready) : t.writes = t.caller.any (·.reaches t.move) := by
  rw [writes]
  cases hc : t.caller with
  | none => rfl
  | some c =>
    rw [report, (move_of_some hc t.move).1]
    exact Client.writes_eq hr.sound (hr.buffers t.handle c hc) t.move

theorem commands_of_not_writes (hr : t.before.Ready) (h : t.writes = false) : t.commands = [] := by
  rw [writes_eq hr] at h
  rw [commands]
  cases hc : t.caller with
  | none => rfl
  | some c =>
    rw [hc] at h
    exact Client.commands_of_not_reaches h

end Turn

theorem Ready.turns {b : Board} (hb : b.Ready) {moves : List (String × Move)} :
    ∀ t ∈ b.turns moves, t.before.Ready := by
  induction moves generalizing b with
  | nil => exact fun t ht => absurd ht List.not_mem_nil
  | cons m moves ih =>
    intro t ht
    rcases List.mem_cons.mp ht with rfl | ht
    · exact hb
    · exact ih (Turn.ready_after (t := ⟨b, m.1, m.2⟩) hb) t ht

/-! ## 3. What waits -/

section Unflushed

variable {handle : String} {past : List Turn} {t : Turn}

theorem unflushed_of_ne (h : t.handle ≠ handle) :
    unflushed handle (past ++ [t]) = unflushed handle past := by
  simp [unflushed, List.filter_append, h]

theorem unflushed_of_flushed (h : t.flushed = true) : unflushed t.handle (past ++ [t]) = [] := by
  simp [unflushed, List.filter_append, h]

theorem unflushed_of_not_flushed (h : t.flushed = false) :
    unflushed t.handle (past ++ [t]) = unflushed t.handle past ++ [t] := by
  simp [unflushed, List.filter_append, h]

end Unflushed

/-- In every buffer waits what the turns of its client since the last flush have let wait. -/
def Follows (b : Board) (past : List Turn) : Prop :=
  ∀ handle c, b.client? handle = some c →
    c.buffer.asserts = (unflushed handle past).flatMap Turn.asserts ∧
      c.buffer.retracts = (unflushed handle past).flatMap Turn.retracts

theorem Begins.follows {b : Board} (h : b.Begins) : b.Follows [] := by
  intro handle c hc
  obtain ⟨n, hbuffer⟩ := h.clients handle c hc
  rw [hbuffer]
  exact ⟨rfl, rfl⟩

/-- **A turn keeps what waits in step with what was called.** -/
theorem Follows.turn {t : Turn} {past : List Turn} (hr : t.before.Ready)
    (h : t.before.Follows past) : t.after.Follows (past ++ [t]) := by
  intro handle d hd
  rw [Turn.client?_after hr] at hd
  split at hd
  · rename_i hhandle
    subst hhandle
    obtain ⟨c, hc, rfl⟩ := Option.map_eq_some_iff.mp hd
    obtain ⟨hasserts, hretracts⟩ := h t.handle c hc
    have hout := Turn.outcome hr hc
    rw [hout.asserts, hout.retracts]
    cases hflushed : t.flushed with
    | true =>
      rw [unflushed_of_flushed hflushed]
      rw [Turn.flushed, Turn.wentThrough] at hflushed
      simp [hflushed]
    | false =>
      rw [unflushed_of_not_flushed hflushed, List.flatMap_append, List.flatMap_append, hasserts,
        hretracts]
      rw [Turn.flushed, Turn.wentThrough] at hflushed
      simp only [hflushed, List.flatMap_singleton]
      exact ⟨rfl, rfl⟩
  · rename_i hne
    rw [unflushed_of_ne (Ne.symm hne)]
    exact h handle d hd

/-- What waits at every turn is what was called since the last flush. -/
theorem Follows.turns {b : Board} {past : List Turn} (hr : b.Ready) (h : b.Follows past)
    {moves : List (String × Move)} {pre post : List Turn} {t : Turn}
    (heq : b.turns moves = pre ++ t :: post) : t.before.Follows (past ++ pre) := by
  induction moves generalizing b past pre with
  | nil => exact absurd heq.symm (List.append_ne_nil_of_right_ne_nil _ nofun)
  | cons m moves ih =>
    cases pre with
    | nil =>
      obtain ⟨rfl, -⟩ := List.cons.inj heq
      rw [List.append_nil]
      exact h
    | cons u pre =>
      obtain ⟨rfl, hrest⟩ := List.cons.inj heq
      have hfollows := ih (Turn.ready_after (t := ⟨b, m.1, m.2⟩) hr)
        (Follows.turn (t := ⟨b, m.1, m.2⟩) hr h) hrest
      rwa [List.append_assoc] at hfollows

/-! ## 4. Clients by themselves -/

/-- The moves of a client, each with the client as it is then, if there is one. -/
def trail (c : Option Client) : List Move → List (Option Client × Move)
  | [] => []
  | m :: moves => (c, m) :: trail (c.map (·.next m)) moves

/-- The moves of a handle. -/
def movesOf (handle : String) (moves : List (String × Move)) : List Move :=
  (moves.filter fun m => m.1 == handle).map Prod.snd

theorem movesOf_cons_self (handle : String) (m : Move) (moves : List (String × Move)) :
    movesOf handle ((handle, m) :: moves) = m :: movesOf handle moves := by
  simp [movesOf]

theorem movesOf_cons_of_ne {handle k : String} (h : k ≠ handle) (m : Move)
    (moves : List (String × Move)) : movesOf handle ((k, m) :: moves) = movesOf handle moves := by
  simp [movesOf, h]

section Trail

variable {b : Board} {moves : List (String × Move)}

/-- **A client goes on by itself**, whatever the others do. -/
theorem trail_eq (hb : b.Ready) (handle : String) :
    ((b.turns moves).filter fun t => t.handle == handle).map (fun t => (t.caller, t.move)) =
      trail (b.client? handle) (movesOf handle moves) := by
  induction moves generalizing b with
  | nil => rfl
  | cons m moves ih =>
    obtain ⟨k, m⟩ := m
    have hrest := ih (Turn.ready_after (t := ⟨b, k, m⟩) hb)
    rw [Turn.client?_after hb] at hrest
    by_cases hk : k = handle
    · subst hk
      rw [if_pos rfl] at hrest
      rw [turns, List.filter_cons_of_pos (by simp), List.map_cons, movesOf_cons_self, trail]
      exact congrArg _ hrest
    · rw [if_neg (Ne.symm hk)] at hrest
      rw [turns, List.filter_cons_of_neg (by simp [hk]), movesOf_cons_of_ne hk]
      exact hrest

/-- The client of a handle after its own moves. -/
theorem client?_run (hb : b.Ready) (handle : String) :
    (b.run moves).client? handle =
      (movesOf handle moves).foldl (fun c m => c.map (·.next m)) (b.client? handle) := by
  induction moves generalizing b with
  | nil => rfl
  | cons m moves ih =>
    obtain ⟨k, m⟩ := m
    have hrest := ih (Turn.ready_after (t := ⟨b, k, m⟩) hb)
    rw [Turn.client?_after hb] at hrest
    by_cases hk : k = handle
    · subst hk
      rw [if_pos rfl] at hrest
      rw [movesOf_cons_self, List.foldl_cons]
      exact hrest
    · rw [if_neg (Ne.symm hk)] at hrest
      rw [movesOf_cons_of_ne hk]
      exact hrest

section Written

-- Which turns count is said by the client that is called and by its move. The turns that take
-- commands to the store have to be among them.
variable {counts : Option Client → Move → Bool}
  (hcounts : ∀ c m, Option.any (Client.reaches · m) c = true → counts c m = true)

/-- The turns that count, by their handles and with the commands that they take to the store. -/
def written (b : Board) (counts : Option Client → Move → Bool) (moves : List (String × Move)) :
    List (String × List Store.Command) :=
  ((b.turns moves).filter fun t => counts t.caller t.move).map fun t => (t.handle, t.commands)

include hcounts in
/-- **The store at the end is what the turns make of it that count.** -/
theorem store_run (hb : b.Ready) :
    (b.run moves).store = b.store.after ((b.written counts moves).flatMap Prod.snd) := by
  induction moves generalizing b with
  | nil => rfl
  | cons m moves ih =>
    have hrest := ih (Turn.ready_after (t := ⟨b, m.1, m.2⟩) hb)
    have hcommands : (b.written counts (m :: moves)).flatMap Prod.snd =
        (Turn.commands ⟨b, m.1, m.2⟩) ++
          ((Turn.after ⟨b, m.1, m.2⟩).written counts moves).flatMap Prod.snd := by
      rw [written, turns, List.filter_cons]
      cases hcount : counts (Turn.caller ⟨b, m.1, m.2⟩) m.2 with
      | true => rfl
      | false =>
        have hquiet : Turn.writes ⟨b, m.1, m.2⟩ = false := by
          by_contra hwrites
          rw [Bool.not_eq_false, Turn.writes_eq hb] at hwrites
          rw [hcounts _ _ hwrites] at hcount
          cases hcount
        rw [Turn.commands_of_not_writes hb hquiet]
        rfl
    rw [hcommands, Store.after_append, ← Turn.store_after (t := ⟨b, m.1, m.2⟩) hb]
    exact hrest

/-- What a client takes to the store depends on its own moves only. -/
theorem filter_written (hb : b.Ready) (handle : String) :
    (b.written counts moves).filter (fun x => x.1 == handle) =
      ((trail (b.client? handle) (movesOf handle moves)).filter fun x => counts x.1 x.2).map
        fun x => (handle, x.1.elim [] (·.commands x.2)) := by
  have hturns : (b.written counts moves).filter (fun x => x.1 == handle) =
      (((b.turns moves).filter fun t => counts t.caller t.move).filter fun t =>
        t.handle == handle).map fun t => (t.handle, t.commands) := by
    rw [written, List.filter_map]
    rfl
  rw [hturns, List.filter_comm, ← trail_eq hb, List.filter_map, List.map_map]
  refine List.map_congr_left fun t ht => ?_
  have hhandle : t.handle = handle := by
    simpa using (List.mem_filter.mp (List.mem_of_mem_filter ht)).2
  rw [hhandle]
  rfl

end Written

end Trail

/-- Two rows of labelled elements are equal if the labels are the same, and under each label the
    same elements stand in the same order. -/
theorem eq_of_filter_eq {α : Type} {l l' : List (String × α)}
    (hlabels : l.map Prod.fst = l'.map Prod.fst)
    (hrows : ∀ k, l.filter (fun x => x.1 == k) = l'.filter fun x => x.1 == k) : l = l' := by
  induction l generalizing l' with
  | nil => exact (List.map_eq_nil_iff.mp hlabels.symm).symm
  | cons x l ih =>
    cases l' with
    | nil => cases hlabels
    | cons y l' =>
      obtain ⟨hlabel, hrest⟩ := List.cons.inj hlabels
      have hfirst := hrows x.1
      rw [List.filter_cons_of_pos (by simp), List.filter_cons_of_pos (by simp [hlabel])] at hfirst
      obtain ⟨rfl, -⟩ := List.cons.inj hfirst
      refine congrArg _ (ih hrest fun k => ?_)
      have hk := hrows k
      by_cases hx : x.1 = k
      · rw [List.filter_cons_of_pos (by simp [hx]), List.filter_cons_of_pos (by simp [hx])] at hk
        exact (List.cons.inj hk).2
      · rwa [List.filter_cons_of_neg (by simp [hx]), List.filter_cons_of_neg (by simp [hx])] at hk

/-! ## 5. Runs -/

section Runs

variable {b : Board} {moves moves' : List (String × Move)}

/-- **A flush takes to the store what its client has let wait since the last one**, and nothing
    else. -/
theorem Begins.flush (hb : b.Begins) {pre post : List Turn} {t : Turn} {c : Client}
    (heq : b.turns moves = pre ++ t :: post) (hc : t.caller = some c)
    (hflush : t.move.flushes = true) (hwent : t.wentThrough = true) :
    ∃ o, t.report = some (.ok (.answer (.outcome o))) ∧
      t.before.store.apply c.id
          (((unflushed t.handle pre ++ [t]).flatMap Turn.retracts).map c.carries)
          (((unflushed t.handle pre ++ [t]).flatMap Turn.asserts).map c.carries) =
        (.ok o, t.after.store) := by
  have hr : t.before.Ready := hb.ready.turns t (by rw [heq]; simp)
  obtain ⟨hasserts, hretracts⟩ := Follows.turns hb.ready hb.follows heq t.handle c hc
  rw [List.nil_append] at hasserts hretracts
  have hbatch := (Turn.outcome hr hc).batch hflush hwent
  rw [hasserts, hretracts] at hbatch
  have hlast : ∀ own : Turn → List Sentence, (unflushed t.handle pre ++ [t]).flatMap own =
      (unflushed t.handle pre).flatMap own ++ own t := fun own => by simp
  have ha : t.asserts = t.move.asserts := if_pos hwent
  have hret : t.retracts = t.move.retracts := if_pos hwent
  rw [hlast, hlast, ha, hret]
  rw [Turn.store_after hr, Turn.commands, hc]
  exact hbatch

/-- **Two runs in which every client makes the same moves, and the turns that count come in the same
    order, end the same.** -/
theorem Ready.run_eq (hb : b.Ready) {counts : Option Client → Move → Bool}
    (hcounts : ∀ c m, Option.any (Client.reaches · m) c = true → counts c m = true)
    (hmoves : ∀ handle, moves'.filter (fun m => m.1 == handle) =
      moves.filter fun m => m.1 == handle)
    (horder : (b.written counts moves').map Prod.fst = (b.written counts moves).map Prod.fst) :
    (b.run moves').store = (b.run moves).store ∧
      ∀ handle, (b.run moves').client? handle = (b.run moves).client? handle := by
  have hown : ∀ handle, movesOf handle moves' = movesOf handle moves := fun handle =>
    congrArg (List.map Prod.snd) (hmoves handle)
  have hwritten : b.written counts moves' = b.written counts moves := by
    refine eq_of_filter_eq horder fun handle => ?_
    rw [filter_written hb, filter_written hb, hown]
  refine ⟨?_, fun handle => ?_⟩
  · rw [store_run hcounts hb, store_run hcounts hb, hwritten]
  · rw [client?_run hb, client?_run hb, hown]

/-- The handles of the turns that count by their moves are those of these moves. -/
theorem labels_of_moves (b : Board) (test : Move → Bool) (moves : List (String × Move)) :
    (b.written (fun _ m => test m) moves).map Prod.fst =
      (moves.filter fun m => test m.2).map Prod.fst := by
  rw [written, List.map_map]
  induction moves generalizing b with
  | nil => rfl
  | cons m moves ih =>
    rw [turns, List.filter_cons, List.filter_cons]
    cases htest : test m.2 with
    | true => exact congrArg (m.1 :: ·) (ih (b.move m.1 m.2).2)
    | false => exact ih (b.move m.1 m.2).2

/-- The handles of the turns that count by what they take to the store are those of the turns that
    may change it. -/
theorem Ready.labels_of_writes (hb : b.Ready) (moves : List (String × Move)) :
    (b.written (fun c m => c.any (Client.reaches · m)) moves).map Prod.fst =
      ((b.turns moves).filter Turn.writes).map Turn.handle := by
  rw [written, List.map_map,
    List.filter_congr fun t ht => (Turn.writes_eq (hb.turns t ht)).symm]
  rfl

end Runs

/-- **Nothing is lost, doubled or early when clients take turns.** On a board on which the clients
    have done nothing yet, through any row of moves:

    * only a turn that flushes something that waits, retracts everything of a kind, or cites evidence
      changes the store;
    * a template is materialized to the same at every turn, and what goes through can go into a batch;
    * a flush goes through, and the store then is what the batch makes of it that has just what the
      calls since the client's last flush have let wait. What a near client takes to the store arrives
      as it is, and what a far one sends if its numbers are finite, a numeral being read as the number
      nearest to it;
    * another row in which every client makes the same moves, and in which the moves that can change
      a store, or only the turns that may change this one, come in the same order, leads to the same
      store and the same clients. -/
theorem interleaved_turns {b : Board} (hb : b.Begins) (moves : List (String × Move)) :
    (∀ t ∈ b.turns moves, t.after.store ≠ t.before.store → t.writes = true) ∧
      (∀ t ∈ b.turns moves, ∀ c, t.caller = some c →
        (∀ x : Template, (c.buffer.materialize x).1 = x.read) ∧
          (t.wentThrough = true → t.move.Readable)) ∧
      (∀ pre t post c, b.turns moves = pre ++ t :: post → t.caller = some c →
        t.move.flushes = true →
        (t.move = .act .flush → t.wentThrough = true) ∧
          (t.wentThrough = true →
            let calls := unflushed t.handle pre ++ [t]
            let retractions := calls.flatMap Turn.retracts
            let assertions := calls.flatMap Turn.asserts
            (∃ o, t.report = some (.ok (.answer (.outcome o))) ∧
              t.before.store.apply c.id (retractions.map c.carries) (assertions.map c.carries) =
                (.ok o, t.after.store)) ∧
              ((∃ d, c = .near d) ∨ (∀ f ∈ retractions ++ assertions, f.isFinite = true) →
                retractions.map c.carries = retractions ∧
                  assertions.map c.carries = assertions))) ∧
      ∀ moves',
        (∀ handle, moves'.filter (fun m => m.1 == handle) = moves.filter fun m => m.1 == handle) →
        ((moves'.filter fun m => m.2.mayWrite).map Prod.fst =
            (moves.filter fun m => m.2.mayWrite).map Prod.fst ∨
          ((b.turns moves').filter Turn.writes).map Turn.handle =
            ((b.turns moves).filter Turn.writes).map Turn.handle) →
        (b.run moves').store = (b.run moves).store ∧
          ∀ handle, (b.run moves').client? handle = (b.run moves).client? handle := by
  have hr : ∀ t ∈ b.turns moves, t.before.Ready := hb.ready.turns
  refine ⟨fun t ht hne => ?_, fun t ht c hc => ⟨fun x => ?_, (Turn.outcome (hr t ht) hc).readable⟩,
    fun pre t post c heq hc hflush => ⟨?_, fun hwent => ⟨hb.flush heq hc hflush hwent, fun hf => ?_⟩⟩,
    fun moves' hmoves horder => ?_⟩
  · by_contra hquiet
    rw [Bool.not_eq_true] at hquiet
    rw [Turn.store_after (hr t ht), Turn.commands_of_not_writes (hr t ht) hquiet] at hne
    exact hne rfl
  · obtain ⟨cache, -, hread⟩ :=
      MutationBuffer.materialize_eq ((hr t ht).buffers t.handle c hc).faithful x
    rw [hread]
  · exact (Turn.outcome (hr t (by rw [heq]; simp)) hc).flush
  · rcases hf with ⟨d, rfl⟩ | hf
    · exact ⟨List.map_id _, List.map_id _⟩
    · exact ⟨c.map_carries fun f h => hf f (List.mem_append_left _ h),
        c.map_carries fun f h => hf f (List.mem_append_right _ h)⟩
  · rcases horder with horder | horder
    · rw [← b.labels_of_moves, ← b.labels_of_moves] at horder
      refine hb.ready.run_eq (fun c m h => ?_) hmoves horder
      obtain ⟨c, -, hreaches⟩ := (Option.any_eq_true _ _).mp h
      exact Client.mayWrite_of_reaches hreaches
    · rw [← hb.ready.labels_of_writes, ← hb.ready.labels_of_writes] at horder
      exact hb.ready.run_eq (fun _ _ h => h) hmoves horder

/-- What a near client asserts waits while a far one asserts something at once. Whether it waits
    before that or only afterwards makes no difference to the store. -/
theorem interleaved_turns_two :
    let b := (((empty 10).connect "a" (some "ann")).2).join "b" (.new "localhost" 80 "bob" 10)
    let moves : List (String × Move) := [("a", .act (.assert ⟨"x _", [.identifier "y"]⟩)),
      ("b", .act (.assertNow ⟨"z", []⟩)), ("b", .act (.retract ⟨"$f", []⟩)), ("a", .act .flush)]
    let moves' : List (String × Move) := [("b", .act (.assertNow ⟨"z", []⟩)),
      ("a", .act (.assert ⟨"x _", [.identifier "y"]⟩)), ("a", .act .flush),
      ("b", .act (.retract ⟨"$f", []⟩))]
    let pre := (b.turns moves).take 3
    let t : Turn := ⟨b.run (moves.take 3), "a", .act .flush⟩
    b.Begins ∧ b.turns moves = pre ++ [t] ∧
      (unflushed t.handle pre ++ [t]).flatMap Turn.asserts =
        [[.word "x", .word " ", .identifier "y"]] ∧
      (∃ o, t.report = some (.ok (.answer (.outcome o)))) ∧
      ((b.turns moves).filter Turn.writes).map Turn.handle = ["b", "a"] ∧
      (b.run moves).store.allFacts = ["z", "x #y"] ∧
      (b.run moves').store = (b.run moves).store := by
  intro b moves moves' pre t
  have hb : b.Begins :=
    begins_of_new rfl (List.forall_mem_cons.mpr ⟨⟨10, rfl⟩, List.forall_mem_singleton.mpr ⟨10, rfl⟩⟩)
  have hmoves : ∀ handle, moves'.filter (fun m => m.1 == handle) =
      moves.filter fun m => m.1 == handle := by
    intro handle
    by_cases ha : "a" = handle
    · subst ha
      rfl
    · by_cases hb : "b" = handle
      · subst hb
        rfl
      · simp [moves, moves', ha, hb]
  have hwrites : ((b.turns moves).filter Turn.writes).map Turn.handle = ["b", "a"] := by
    decide +kernel
  have hwrites' : ((b.turns moves').filter Turn.writes).map Turn.handle = ["b", "a"] := by
    decide +kernel
  have hturns : b.turns moves = pre ++ [t] := rfl
  obtain ⟨c, hc⟩ := Option.isSome_iff_exists.mp (by decide +kernel : t.caller.isSome = true)
  have hall := interleaved_turns hb moves
  obtain ⟨hwent, hbatch⟩ := hall.2.2.1 pre t [] c hturns hc rfl
  obtain ⟨⟨o, hreport, -⟩, -⟩ := hbatch (hwent rfl)
  exact ⟨hb, hturns, by decide +kernel, ⟨o, hreport⟩, hwrites, by decide +kernel,
    (hall.2.2.2 moves' hmoves (.inr (hwrites'.trans hwrites.symm))).1⟩

/-- **An infinity that a far client lets wait does not reach the store.** Its flush goes through, but
    what arrives of it is `null`, and the store is not the one that the batch of what waited makes. -/
theorem far_flush_infinity :
    let b := (empty 10).join "b" (.new "localhost" 80 "bob" 10)
    let moves : List (String × Move) :=
      [("b", .act (.assert ⟨"_", [.number (.infinity false)]⟩)), ("b", .act .flush)]
    let pre := (b.turns moves).take 1
    let t : Turn := ⟨b.run (moves.take 1), "b", .act .flush⟩
    let calls := unflushed t.handle pre ++ [t]
    let called := t.before.store.apply "bob" (calls.flatMap Turn.retracts)
      (calls.flatMap Turn.asserts)
    b.Begins ∧ b.turns moves = pre ++ [t] ∧ t.wentThrough = true ∧
      calls.flatMap Turn.retracts = [] ∧
      calls.flatMap Turn.asserts = [[.number (.infinity false)]] ∧
      (FlushRequest.mk "bob" [] (calls.flatMap Turn.asserts)).toJson.text =
        "\x7b\"clientId\":\"bob\",\"retractions\":[],\"assertions\":[[\x7b\"value\":null\x7d]]\x7d" ∧
      called.2.allFacts = ["inf"] ∧ t.after.store.allFacts = ["null"] ∧
      t.after.store ≠ called.2 := by
  intro b moves pre t calls called
  have hb : b.Begins := begins_of_new rfl (List.forall_mem_singleton.mpr ⟨10, rfl⟩)
  have hcalled : called.2.allFacts = ["inf"] := by decide +kernel
  have hafter : t.after.store.allFacts = ["null"] := by decide +kernel
  refine ⟨hb, rfl, by decide +kernel, by decide +kernel, by decide +kernel, by decide +kernel,
    hcalled, hafter, fun hsame => ?_⟩
  rw [hsame, hcalled] at hafter
  simp at hafter

end Board

end Blackboard
