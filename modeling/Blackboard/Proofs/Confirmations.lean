import Blackboard.Proofs.JsonTexts
import Blackboard.Proofs.Moves

/-!
# What no server has confirmed still waits

A far client learns nothing of its requests but the replies, and any reply may come for any
request, or none. A reply confirms a batch if its status means success and its body can be read as
the answer to a flush (`Reply.Confirms`), and **only a reply that confirms a batch empties the
buffer** (`RemoteClient.perform_flush_of_confirms`, `RemoteClient.perform_flush_of_not_confirms`).

Over a row of actions, whatever comes for their requests, nothing is lost and nothing is doubled:
the batches that were confirmed and what still waits are together what the actions have let wait,
in their order (`RemoteClient.conserves`).
-/

namespace Blackboard

/-! ## 1. Replies -/

/-- The reply confirms a batch with an outcome: its status means success, and its body can be read
    as the answer to a flush with the counts of the outcome. -/
def Reply.Confirms (reply : Reply) (o : FlushOutcome) : Prop :=
  ∃ status body response, reply = .answered status body ∧ 200 ≤ status ∧ status < 300 ∧
    FlushResponse.take.whole body.tokens = .ok response ∧
    o = ⟨response.retracted, response.asserted⟩

theorem Reply.Confirms.unique {reply : Reply} {o o' : FlushOutcome} (h : reply.Confirms o)
    (h' : reply.Confirms o') : o = o' := by
  obtain ⟨status, body, response, rfl, -, -, hbody, rfl⟩ := h
  obtain ⟨_, _, response', ⟨⟩, -, -, hbody', rfl⟩ := h'
  rw [hbody] at hbody'
  cases hbody'
  rfl

/-- A way of sending that writes down each request with the reply that came for it. -/
def Server.noting {σ : Type} (send : Request → σ → Reply × σ) (r : Request)
    (w : σ × List (Request × Reply)) : Reply × σ × List (Request × Reply) :=
  let (reply, after) := send r w.1
  (reply, after, w.2 ++ [(r, reply)])

namespace RemoteClient

/-- **A batch is either confirmed, or the flush fails.** -/
theorem readReply_apply (reply : Reply) (retractions assertions : List Sentence) :
    (∃ o, reply.Confirms o ∧
        readReply reply (.apply retractions assertions) = .ok (.outcome o)) ∨
      (∀ o, ¬ reply.Confirms o) ∧
        ∃ cause, readReply reply (.apply retractions assertions) = .error (.transport cause) := by
  cases reply with
  | lost =>
    refine .inr ⟨?_, _, rfl⟩
    rintro o ⟨_, _, _, ⟨⟩, -⟩
  | answered status body =>
    cases hstatus : Http.isSuccess status with
    | false =>
      refine .inr ⟨?_, .refused (Http.statusText status) (failureText body), ?_⟩
      · rintro o ⟨_, _, _, ⟨⟩, hlow, hhigh, -⟩
        simp [Http.isSuccess, hlow, hhigh] at hstatus
      · simp only [readReply, readBody, hstatus]
        rfl
    | true =>
      cases hbody : FlushResponse.take.whole body.tokens with
      | ok response =>
        have hrange : 200 ≤ status ∧ status < 300 := by simpa [Http.isSuccess] using hstatus
        refine .inl ⟨_, ⟨status, body, response, rfl, hrange.1, hrange.2, hbody, rfl⟩, ?_⟩
        simp only [readReply, readBody, hstatus, if_true, hbody]
        rfl
      | error fault =>
        refine .inr ⟨?_, .undecodable, ?_⟩
        · rintro o ⟨_, _, _, ⟨⟩, -, -, hread, -⟩
          rw [hbody] at hread
          cases hread
        · simp only [readReply, readBody, hstatus, if_true, hbody]
          rfl

/-! ## 2. Flushes -/

section Flush

variable {σ : Type} {send : Server.Request → σ → Reply × σ} {c : RemoteClient} {w : σ}

/-- Where nothing waits, a flush sends nothing. -/
theorem perform_flush_of_nothing (h : c.buffer.hasPending = false) :
    c.perform send w .flush = (.ok (.outcome ⟨0, 0⟩), c, w) :=
  perform_of_answer (MutationBuffer.plan_flush_of_nothing h)

/-- A batch that is confirmed no longer waits. -/
theorem perform_flush_of_confirms {reply : Reply} {w' : σ} {o : FlushOutcome}
    (h : c.buffer.hasPending = true)
    (hsend : send (request c.id (.apply c.buffer.retracts c.buffer.asserts)) w = (reply, w'))
    (hreply : reply.Confirms o) :
    c.perform send w .flush =
      (.ok (.outcome o), { c with buffer := { c.buffer with asserts := [], retracts := [] } }, w')
    := by
  rw [perform_of_call (MutationBuffer.plan_flush_of_pending h) hsend]
  rcases readReply_apply reply c.buffer.retracts c.buffer.asserts with ⟨o', ho', hread⟩ | ⟨hnone, -⟩
  · rw [hread, hreply.unique ho']
    rfl
  · exact absurd hreply (hnone o)

/-- A batch that is not confirmed waits as before. -/
theorem perform_flush_of_not_confirms {reply : Reply} {w' : σ} (h : c.buffer.hasPending = true)
    (hsend : send (request c.id (.apply c.buffer.retracts c.buffer.asserts)) w = (reply, w'))
    (hreply : ∀ o, ¬ reply.Confirms o) :
    ∃ cause, c.perform send w .flush = (.error (.transport cause), c, w') := by
  rcases readReply_apply reply c.buffer.retracts c.buffer.asserts with
    ⟨o, ho, -⟩ | ⟨-, cause, hread⟩
  · exact absurd ho (hreply o)
  · refine ⟨cause, ?_⟩
    rw [perform_of_call (MutationBuffer.plan_flush_of_pending h) hsend, hread]
    rfl

end Flush

end RemoteClient

/-! ## 3. Other calls -/

/-- Whether an action asks something of the store past the buffer. -/
def Action.asks : Action → Bool
  | .select _ | .forgetAbout _ | .forgetMine | .listFacts => true
  | .assert _ | .retract _ | .flush | .assertNow _ | .retractNow _ | .clearCache => false

/-- The batch that a plan ends in, if it ends in one: what is retracted and what is asserted. -/
def Plan.batch? : Plan → Option (List Sentence × List Sentence)
  | .call (.apply retractions assertions) => some (retractions, assertions)
  | _ => none

theorem Plan.batch?_of_not_apply {call : Call}
    (hcall : ∀ retractions assertions, call ≠ .apply retractions assertions) :
    (Plan.call call).batch? = none := by
  cases call with
  | apply retractions assertions => exact absurd rfl (hcall retractions assertions)
  | _ => rfl

/-- What is asked past the buffer leaves what waits as it is, and is no batch. -/
theorem MutationBuffer.plan_of_asks (b : MutationBuffer) {a : Action} (ha : a.asks = true) :
    ∃ p cache, b.plan a = (p, { b with cache := cache }) ∧ p.batch? = none := by
  cases a with
  | select ts =>
    obtain ⟨r, cache, heq⟩ := b.materializePatterns_cache ts
    rw [plan, heq]
    cases r with
    | error e => exact ⟨_, cache, rfl, rfl⟩
    | ok ps => exact ⟨_, cache, rfl, rfl⟩
  | forgetAbout name => exact ⟨_, b.cache, rfl, rfl⟩
  | forgetMine => exact ⟨_, b.cache, rfl, rfl⟩
  | listFacts => exact ⟨_, b.cache, rfl, rfl⟩
  | _ => cases ha

/-- **What is asked past the buffer leaves what waits as it is**, whatever comes back. -/
theorem RemoteClient.waiting_of_asks {σ : Type} (send : Server.Request → σ → Reply × σ)
    (c : RemoteClient) (w : σ) {a : Action} (ha : a.asks = true) :
    (c.perform send w a).2.1.buffer.asserts = c.buffer.asserts ∧
      (c.perform send w a).2.1.buffer.retracts = c.buffer.retracts := by
  obtain ⟨p, cache, hplan, hbatch⟩ := c.buffer.plan_of_asks ha
  cases p with
  | answer r =>
    rw [perform_of_answer hplan]
    exact ⟨rfl, rfl⟩
  | call call =>
    have hcall : ∀ R A, call ≠ .apply R A := by
      rintro R A rfl
      cases hbatch
    rw [perform_of_call hplan rfl, MutationBuffer.settle_of_not_apply _ hcall]
    exact ⟨rfl, rfl⟩

/-! ## 4. Rows of actions -/

/-- What an action lets wait to be asserted: what its template is read as, if that is ground. -/
def Action.assertions (a : Action) : List Sentence :=
  (Move.act a).asserted.filterMap fun t => (t.read.bind MutationBuffer.checkFact).toOption

/-- What an action lets wait to be retracted: what its template is read as, if that has no holes. -/
def Action.retractions (a : Action) : List Sentence :=
  (Move.act a).retracted.filterMap fun t => (t.read.bind MutationBuffer.checkPattern).toOption

namespace MutationBuffer

/-- The buffer in which what an action lets wait waits too. -/
def letting (b : MutationBuffer) (a : Action) (cache : ParseCache) : MutationBuffer :=
  ⟨cache, b.asserts ++ a.assertions, b.retracts ++ a.retractions⟩

section Letting

variable {b : MutationBuffer}

theorem letting_of_nothing {a : Action} (ha : a.assertions = []) (hr : a.retractions = [])
    (cache : ParseCache) : b.letting a cache = { b with cache := cache } := by
  rw [letting, ha, hr, List.append_nil, List.append_nil]

theorem pushAssert_letting (h : b.cache.Faithful) {a : Action} {t : Template}
    (ha : (Move.act a).asserted = [t]) (hr : (Move.act a).retracted = []) :
    ∃ cache, cache.Faithful ∧ (b.pushAssert t).2 = b.letting a cache := by
  obtain ⟨cache, hcache, heq⟩ := pushAssert_eq h t
  refine ⟨cache, hcache, ?_⟩
  rw [heq]
  cases hread : t.read.bind checkFact with
  | error e => simp [letting, Action.assertions, Action.retractions, ha, hr, hread, Except.toOption]
  | ok f => simp [letting, Action.assertions, Action.retractions, ha, hr, hread, Except.toOption]

theorem pushRetract_letting (h : b.cache.Faithful) {a : Action} {t : Template}
    (ha : (Move.act a).asserted = []) (hr : (Move.act a).retracted = [t]) :
    ∃ cache, cache.Faithful ∧ (b.pushRetract t).2 = b.letting a cache := by
  obtain ⟨cache, hcache, heq⟩ := pushRetract_eq h t
  refine ⟨cache, hcache, ?_⟩
  rw [heq]
  cases hread : t.read.bind checkPattern with
  | error e => simp [letting, Action.assertions, Action.retractions, ha, hr, hread, Except.toOption]
  | ok p => simp [letting, Action.assertions, Action.retractions, ha, hr, hread, Except.toOption]

theorem batch?_planFlush {batch : List Sentence × List Sentence}
    (h : b.planFlush.batch? = some batch) : batch = (b.retracts, b.asserts) := by
  unfold planFlush at h
  split at h
  · cases h
    rfl
  · cases h

theorem planNow_snd (x : Except Failure Unit × MutationBuffer) : (planNow x).2 = x.2 := by
  obtain ⟨r, b⟩ := x
  cases r <;> rfl

theorem batch?_planNow {x : Except Failure Unit × MutationBuffer}
    {batch : List Sentence × List Sentence} (h : (planNow x).1.batch? = some batch) :
    batch = (x.2.retracts, x.2.asserts) := by
  obtain ⟨r, b⟩ := x
  cases r with
  | error e => cases h
  | ok u => exact batch?_planFlush h

/-- **What an action lets wait joins what waits**, and a batch is all that waits then. -/
theorem plan_letting (h : b.cache.Faithful) (a : Action) : ∃ cache, cache.Faithful ∧
    (b.plan a).2 = b.letting a cache ∧
      ∀ batch ∈ (b.plan a).1.batch?,
        batch = ((b.letting a cache).retracts, (b.letting a cache).asserts) := by
  have hnone : ∀ d : MutationBuffer, ∀ batch ∈ (none : Option (List Sentence × List Sentence)),
      batch = (d.retracts, d.asserts) :=
    fun _ batch hbatch => absurd hbatch (Option.not_mem_none batch)
  cases a with
  | assert t =>
    obtain ⟨cache, hcache, heq⟩ := pushAssert_letting h (a := .assert t) rfl rfl
    exact ⟨cache, hcache, heq, hnone _⟩
  | retract t =>
    obtain ⟨cache, hcache, heq⟩ := pushRetract_letting h (a := .retract t) rfl rfl
    exact ⟨cache, hcache, heq, hnone _⟩
  | flush =>
    have hsame : b.letting .flush b.cache = b := letting_of_nothing rfl rfl b.cache
    exact ⟨b.cache, h, hsame.symm, fun batch hbatch => hsame.symm ▸ batch?_planFlush hbatch⟩
  | assertNow t =>
    obtain ⟨cache, hcache, heq⟩ := pushAssert_letting h (a := .assertNow t) rfl rfl
    refine ⟨cache, hcache, (planNow_snd _).trans heq, fun batch hbatch => ?_⟩
    rw [← heq]
    exact batch?_planNow hbatch
  | retractNow t =>
    obtain ⟨cache, hcache, heq⟩ := pushRetract_letting h (a := .retractNow t) rfl rfl
    refine ⟨cache, hcache, (planNow_snd _).trans heq, fun batch hbatch => ?_⟩
    rw [← heq]
    exact batch?_planNow hbatch
  | select ts =>
    obtain ⟨cache, hcache, heq⟩ := materializePatterns_eq h ts
    have hsame : b.letting (.select ts) cache = { b with cache := cache } :=
      letting_of_nothing rfl rfl cache
    rw [plan, heq]
    cases ts.mapM fun t => t.read.bind checkPattern with
    | error e => exact ⟨cache, hcache, hsame.symm, hnone _⟩
    | ok ps => exact ⟨cache, hcache, hsame.symm, hnone _⟩
  | clearCache =>
    exact ⟨b.cache.clear, ParseCache.faithful_clear _, (letting_of_nothing rfl rfl _).symm, hnone _⟩
  | forgetAbout name => exact ⟨b.cache, h, (letting_of_nothing rfl rfl _).symm, hnone _⟩
  | forgetMine => exact ⟨b.cache, h, (letting_of_nothing rfl rfl _).symm, hnone _⟩
  | listFacts => exact ⟨b.cache, h, (letting_of_nothing rfl rfl _).symm, hnone _⟩

end Letting

end MutationBuffer

namespace RemoteClient

variable {σ : Type} (send : Server.Request → σ → Reply × σ)

/-- The client after a row of actions, with the surroundings. -/
def after (c : RemoteClient) (w : σ) : List Action → RemoteClient × σ
  | [] => (c, w)
  | a :: actions =>
    let (_, c, w) := c.perform send w a
    after c w actions

/-- The batch that an action takes to the server, if it does and the flush goes through. -/
def flushed (c : RemoteClient) (w : σ) (a : Action) : List (List Sentence × List Sentence) :=
  match (c.perform send w a).1 with
  | .ok _ => (c.buffer.plan a).1.batch?.toList
  | .error _ => []

/-- The batches of a row of actions whose flushes went through. -/
def confirmed (c : RemoteClient) (w : σ) : List Action → List (List Sentence × List Sentence)
  | [] => []
  | a :: actions =>
    let (_, d, w') := c.perform send w a
    c.flushed send w a ++ confirmed d w' actions

section Rows

variable {c : RemoteClient} {w : σ}

/-- **One action loses nothing**: what is flushed by it and what waits after it is what waited
    before it, and what it lets wait. -/
theorem conserves_one (h : c.buffer.cache.Faithful) (a : Action) :
    (c.perform send w a).2.1.buffer.cache.Faithful ∧
      (c.flushed send w a).flatMap Prod.snd ++ (c.perform send w a).2.1.buffer.asserts =
        c.buffer.asserts ++ a.assertions ∧
      (c.flushed send w a).flatMap Prod.fst ++ (c.perform send w a).2.1.buffer.retracts =
        c.buffer.retracts ++ a.retractions := by
  obtain ⟨cache, hcache, hwaits, hbatch⟩ := MutationBuffer.plan_letting h a
  rcases hplan : c.buffer.plan a with ⟨p, b⟩
  rw [hplan] at hwaits hbatch
  obtain rfl : b = c.buffer.letting a cache := hwaits
  unfold flushed
  cases p with
  | answer r =>
    rw [perform_of_answer hplan, hplan]
    cases r <;> exact ⟨hcache, rfl, rfl⟩
  | call call =>
    rw [perform_of_call hplan rfl, hplan]
    by_cases happly : ∃ R A, call = .apply R A
    · obtain ⟨R, A, rfl⟩ := happly
      cases hbatch _ rfl
      -- all that waits is in the batch, and then either nothing waits any more or all of it does
      rcases readReply_apply (send (request c.id (.apply _ _)) w).1 _ _ with
        ⟨o, -, hread⟩ | ⟨-, cause, hread⟩
      · rw [hread]
        refine ⟨hcache, ?_, ?_⟩
        · exact (List.append_nil _).trans (List.append_nil _)
        · exact (List.append_nil _).trans (List.append_nil _)
      · rw [hread]
        exact ⟨hcache, rfl, rfl⟩
    · have hcall : ∀ R A, call ≠ .apply R A := fun R A heq => happly ⟨R, A, heq⟩
      rw [MutationBuffer.settle_of_not_apply _ hcall, Plan.batch?_of_not_apply hcall]
      cases readReply (send (request c.id call) w).1 call <;> exact ⟨hcache, rfl, rfl⟩

/-- **Nothing is lost over a row of actions**, and nothing is flushed again that was confirmed: what
    was confirmed and what still waits is what waited at first and what the actions let wait. -/
theorem conserves (h : c.buffer.cache.Faithful) (actions : List Action) :
    (c.confirmed send w actions).flatMap Prod.snd ++ (c.after send w actions).1.buffer.asserts =
        c.buffer.asserts ++ actions.flatMap Action.assertions ∧
      (c.confirmed send w actions).flatMap Prod.fst ++
          (c.after send w actions).1.buffer.retracts =
        c.buffer.retracts ++ actions.flatMap Action.retractions := by
  induction actions generalizing c w with
  | nil => exact ⟨(List.append_nil _).symm, (List.append_nil _).symm⟩
  | cons a actions ih =>
    -- what waits in between is left out
    have hjoin : ∀ {x y p q r l m : List Sentence}, x ++ q = p ++ l → y ++ r = q ++ m →
        x ++ y ++ r = p ++ (l ++ m) := by
      intro x y p q r l m hfirst hrest
      rw [List.append_assoc, hrest, ← List.append_assoc, hfirst, List.append_assoc]
    obtain ⟨hcache, hasserts, hretracts⟩ := conserves_one send h a (w := w)
    obtain ⟨hasserts', hretracts'⟩ := ih hcache (w := (c.perform send w a).2.2)
    simp only [confirmed, after, List.flatMap_cons, List.flatMap_append]
    exact ⟨hjoin hasserts hasserts', hjoin hretracts hretracts'⟩

end Rows

/-- **What no server has confirmed still waits**, whatever comes for the requests. Where nothing
    waits, a flush sends nothing. Otherwise it sends one request, which puts the batch under the id
    of the client, what is retracted and what is asserted in their orders: that is what is read of
    its body, numbers that are not finite as `null`. If the reply confirms the batch, the flush
    answers with the counts of the reply, and nothing waits any more; in every other case it fails,
    and the client is as before. All else that is asked leaves what waits as it is. Over a row of
    actions the batches that were confirmed and what still waits are together what was let wait. -/
theorem unconfirmed_waits {σ : Type} (send : Server.Request → σ → Reply × σ) :
    (∀ (c : RemoteClient) (w : σ) (log : List (Server.Request × Reply)),
      let R := c.buffer.retracts
      let A := c.buffer.asserts
      let json := (FlushRequest.mk c.id R A).toJson
      let batch := Server.Request.flush (.ofJson json)
      let reply := (send batch w).1
      let done := c.perform (Server.noting send) (w, log) .flush
      (A = [] ∧ R = [] → done = (.ok (.outcome ⟨0, 0⟩), c, w, log)) ∧
        (¬ (A = [] ∧ R = []) →
          batch.message =
            { method := "PUT", path := "/facts", query := "",
              contentType := some "application/json", body := some json.text } ∧
          FlushRequest.take.whole (Payload.ofText json.text).tokens =
            .ok ⟨c.id, R.map Sentence.onWire, A.map Sentence.onWire⟩ ∧
          ((∀ f ∈ R ++ A, f.isFinite = true) →
            FlushRequest.take.whole (Payload.ofText json.text).tokens = .ok ⟨c.id, R, A⟩) ∧
          done.2.2 = ((send batch w).2, log ++ [(batch, reply)]) ∧
          (∀ o, reply.Confirms o → done.1 = .ok (.outcome o) ∧
            done.2.1 = { c with buffer := { c.buffer with asserts := [], retracts := [] } }) ∧
          ((∀ o, ¬ reply.Confirms o) →
            (∃ cause, done.1 = .error (.transport cause)) ∧ done.2.1 = c))) ∧
      (∀ (c : RemoteClient) (w : σ) (a : Action), a.asks = true →
        (c.perform send w a).2.1.buffer.asserts = c.buffer.asserts ∧
          (c.perform send w a).2.1.buffer.retracts = c.buffer.retracts) ∧
      ∀ (host : String) (port : Nat) (id : String) (cacheCapacity : Nat) (w : σ)
        (actions : List Action),
        let c := new host port id cacheCapacity
        (c.confirmed send w actions).flatMap Prod.snd ++
            (c.after send w actions).1.buffer.asserts = actions.flatMap Action.assertions ∧
          (c.confirmed send w actions).flatMap Prod.fst ++
            (c.after send w actions).1.buffer.retracts = actions.flatMap Action.retractions := by
  refine ⟨fun c w log => ?_, fun c w a => c.waiting_of_asks send w,
    fun host port id n w actions => conserves send (ParseCache.faithful_empty n) actions⟩
  intro R A json batch reply done
  have hsend : Server.noting send batch (w, log) =
      (reply, (send batch w).2, log ++ [(batch, reply)]) := rfl
  have hbody : FlushRequest.take.whole (Payload.ofText json.text).tokens =
      .ok ⟨c.id, R.map Sentence.onWire, A.map Sentence.onWire⟩ := by
    rw [Payload.ofText_text (FlushRequest.isExact_toJson _)]
    exact (FlushRequest.take_reads _).whole
  refine ⟨fun hnothing => ?_, fun hwaits => ⟨rfl, hbody, fun hfinite => ?_, ?_⟩⟩
  · exact perform_flush_of_nothing (MutationBuffer.hasPending_eq_false_iff.mpr hnothing)
  · rw [hbody, Sentence.map_onWire_of_isFinite fun f hf => hfinite f (List.mem_append_left _ hf),
      Sentence.map_onWire_of_isFinite fun f hf => hfinite f (List.mem_append_right _ hf)]
  · have hpending : c.buffer.hasPending = true := by
      rw [← Bool.not_eq_false, MutationBuffer.hasPending_eq_false_iff]
      exact hwaits
    by_cases hreply : ∃ o, reply.Confirms o
    · obtain ⟨o, ho⟩ := hreply
      have hdone : done = _ := perform_flush_of_confirms hpending hsend ho
      rw [hdone]
      refine ⟨rfl, fun o' ho' => ⟨?_, rfl⟩, fun hnone => absurd ho (hnone o)⟩
      rw [Reply.Confirms.unique ho ho']
    · rw [not_exists] at hreply
      obtain ⟨cause, hdone⟩ := perform_flush_of_not_confirms hpending hsend hreply
      have hdone : done = _ := hdone
      rw [hdone]
      exact ⟨rfl, fun o ho => absurd ho (hreply o), fun _ => ⟨⟨cause, rfl⟩, rfl⟩⟩

/-- The first request is lost, and a server answers the others from its store. What the first flush
    could not take there goes with the second one, and what is let wait then is not in it. -/
theorem unconfirmed_waits_second :
    let send : Server.Request → Nat × Store → Reply × Nat × Store := fun r w =>
      if w.1 = 0 then (.lost, 1, w.2)
      else ((Server.deliver r w.2).1, w.1 + 1, (Server.deliver r w.2).2)
    let actions : List Action :=
      [.assert ⟨"x", []⟩, .flush, .retract ⟨"_", [.wildcard]⟩, .assertNow ⟨"y", []⟩,
        .retract ⟨"z", []⟩]
    let c := new "localhost" 80 "ann" 10
    let w : Nat × Store := (0, .empty)
    c.confirmed send w actions = [([[.wildcard]], [[.word "x"], [.word "y"]])] ∧
      (c.after send w actions).1.buffer.asserts = [] ∧
      (c.after send w actions).1.buffer.retracts = [[.word "z"]] ∧
      (c.after send w actions).2.1 = 2 ∧ (c.after send w actions).2.2.allFacts = ["x", "y"] := by
  intro send actions c w
  have hconfirmed : c.confirmed send w actions =
      [([[.wildcard]], [[.word "x"], [.word "y"]])] := by decide +kernel
  have hlet : actions.flatMap Action.assertions = [[.word "x"], [.word "y"]] ∧
      actions.flatMap Action.retractions = [[.wildcard], [.word "z"]] := by decide +kernel
  have hc : new "localhost" 80 "ann" 10 = c := rfl
  obtain ⟨hasserts, hretracts⟩ := (unconfirmed_waits send).2.2 "localhost" 80 "ann" 10 w actions
  rw [hc, hconfirmed, hlet.1] at hasserts
  rw [hc, hconfirmed, hlet.2] at hretracts
  exact ⟨hconfirmed, List.append_right_eq_self.mp hasserts, List.append_cancel_left hretracts,
    by decide +kernel, by decide +kernel⟩

end RemoteClient

end Blackboard
