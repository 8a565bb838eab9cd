import Blackboard.Client.Local
import Blackboard.Client.Remote
import Blackboard.Proofs.Batches
import Blackboard.Proofs.Buffers
import Blackboard.Proofs.Join
import Blackboard.Proofs.Messages
import Blackboard.Proofs.ReadBack

/-!
# Near and far clients do the same

A client next to the store and a client that reaches it over a network that delivers are run side
by side through the same actions. Nothing that can be seen of the two differs, step by step: what
is answered, what waits, and the store (`runs_agree`). The one exception is what JSON has no word
for: an infinity or a NaN of a stored fact arrives as `null` in a solution, and only there
(`runs_differ_infinity`). Requests and answers travel as texts, and are read as their texts are
(`Server.readsText_request`, `Server.readsText_answer`); finite numbers arrive because a numeral is
read as the number nearest to it (`Json.Number.ofNumeral`).

The two buffers stay alike because their caches are not seen; a call and the request that it becomes
have the same effect because messages are read as they were sent, and because the server never has a
reason to refuse: what waits is ready for a batch (`Server.deliver_request`).
-/

namespace Blackboard

/-! ## 1. Templates with finite numbers -/

theorem Term.isFinite_of_read {token : Token} {t : Term} (h : token.term = .ok t) :
    t.isFinite = true := by
  cases token with
  | numeral n =>
    obtain ⟨hfinite, rfl⟩ := Token.term_numeral h
    exact hfinite
  | keyword k =>
    cases h
    cases k <;> rfl
  | _ =>
    cases h
    rfl

/-- Numbers that are read from a text are finite. -/
theorem Sentence.isFinite_of_parse {text : String} {f : Sentence} (h : parse text = .ok f) :
    f.isFinite = true := by
  obtain ⟨ts, hts, -, -⟩ := exists_tokens h
  clear h
  induction hts with
  | nil => rfl
  | cons ht _ ih =>
    rw [isFinite, List.all_cons, Term.isFinite_of_read ht]
    exact ih

theorem Sentence.isFinite_fill {s : Sentence} {fs : List Term} (hs : s.isFinite = true)
    (hfs : ∀ t ∈ fs, t.isFinite = true) : (s.fill fs).isFinite = true := by
  induction s generalizing fs with
  | nil => exact hs
  | cons t s ih =>
    rw [isFinite, List.all_cons, Bool.and_eq_true] at hs
    cases fs with
    | nil =>
      have hfill : fill (t :: s) [] = t :: fill s [] := by cases t <;> rfl
      rw [hfill, isFinite, List.all_cons, hs.1]
      exact ih hs.2 hfs
    | cons x fs =>
      cases t with
      | hole =>
        rw [fill, isFinite, List.all_cons, hfs x List.mem_cons_self]
        exact ih hs.2 fun y hy => hfs y (List.mem_cons_of_mem _ hy)
      | _ =>
        rw [fill, isFinite, List.all_cons, hs.1]
        · exact ih hs.2 hfs
        · nofun

/-- A template whose fillers are finite is read as a sentence whose numbers are. -/
theorem Template.yields_isFinite {t : Template} (h : ∀ x ∈ t.fillers, x.isFinite = true) :
    t.Yields fun s => s.isFinite = true := by
  intro s hs
  unfold Template.read at hs
  cases hparse : Sentence.parse t.text with
  | error e =>
    rw [hparse] at hs
    cases hs
  | ok f =>
    rw [hparse] at hs
    dsimp only at hs
    split at hs
    · cases hs
      exact Sentence.isFinite_fill (Sentence.isFinite_of_parse hparse) h
    · cases hs

/-! ## 2. What arrives of an answer -/

/-- What arrives of a value. -/
def Value.onWire : Value → Value
  | literal value => literal value.onWire
  | v => v

/-- What arrives of a solution. -/
def Solution.onWire (found : Solution) : Solution :=
  ⟨found.entries.map fun e => (e.1, e.2.onWire)⟩

/-- What arrives of an answer. -/
def Answer.onWire : Answer → Answer
  | .solutions found => .solutions (found.map Solution.onWire)
  | a => a

theorem Value.ofTerm_onWire (t : Term) : ofTerm t.onWire = (ofTerm t).map onWire := by
  cases t <;> rfl

/-- The values of what arrives of bindings are what arrives of their values. -/
theorem Solution.ofBindings_onWire (b : Bindings) :
    ofBindings (Bindings.onWire b) = (ofBindings b).map onWire := by
  obtain ⟨es⟩ := b
  have hes : ofEntries (es.map fun e => (e.1, e.2.onWire)) =
      (ofEntries es).map (List.map fun e => (e.1, e.2.onWire)) := by
    induction es with
    | nil => rfl
    | cons e es ih =>
      rw [List.map_cons, ofEntries, ofEntries, ih, Value.ofTerm_onWire]
      cases Value.ofTerm e.2 with
      | error _ => rfl
      | ok v => cases ofEntries es <;> rfl
  show (ofEntries (es.map fun e => (e.1, e.2.onWire))).bind _ = _
  rw [hes]
  show _ = ((ofEntries es).bind _).map onWire
  cases ofEntries es <;> rfl

/-! ## 3. Calls -/

theorem RemoteClient.readBody_succeeded {α : Type} {take : Json.Reader α} {j : Json} {a : α}
    (h : take.Reads j.tokens a) : readBody take (.answered 200 (.ofJson j)) = .ok a := by
  have hwhole : take.whole (Payload.ofJson j).tokens = .ok a := h.whole
  have hsuccess : Http.isSuccess 200 = true := rfl
  simp only [readBody, hsuccess, if_true, hwhole]

namespace Server

theorem deliver_of_succeeded {r : Request} {s s' : Store} {j : Json}
    (h : answer s r = (succeeded j, s')) : deliver r s = (.answered 200 (.ofJson j), s') := by
  rw [deliver, h]
  rfl

section Calls

variable {P : Sentence → Prop} {s : Store} (hs : s.Sound P) (id : String)

include hs

/-- What arrives of a batch that can be taken goes through, and the server has applied it. -/
theorem exists_deliver_apply {retractions assertions : List Sentence}
    (hr : ∀ p ∈ retractions, p.hasHoles = false) (ha : ∀ f ∈ assertions, f.isGround = true) :
    ∃ o s', s.apply id (retractions.map Sentence.onWire) (assertions.map Sentence.onWire) =
        (.ok o, s') ∧
      deliver (RemoteClient.request id (.apply retractions assertions)) s =
        (.answered 200 (.ofJson (FlushResponse.ofOutcome o).toJson), s') := by
  obtain ⟨o, s', happly⟩ := hs.exists_apply id
    (List.forall_mem_map.mpr fun p hp => (Sentence.hasHoles_onWire p).trans (hr p hp))
    (List.forall_mem_map.mpr fun f hf => (Sentence.isGround_onWire f).trans (ha f hf))
  refine ⟨o, s', happly, deliver_of_succeeded ?_⟩
  have hbatch := FlushRequest.take_reads ⟨id, retractions, assertions⟩ []
  rw [List.append_nil] at hbatch
  unfold answer RemoteClient.request Payload.ofJson
  dsimp only
  rw [hbatch]
  dsimp only
  rw [happly]
  rfl

/-- A query that is ready is answered, and what arrives are what arrives of the bindings. -/
theorem exists_deliver_select {patterns : List Sentence}
    (hready : (Call.select patterns).Ready fun f => f.isFinite = true) :
    ∃ found, s.selectBindings patterns = .ok found ∧
      deliver (RemoteClient.request id (.select patterns)) s =
        (.answered 200 (.ofJson (solutionsJson found)), s) ∧
      (Json.takeArray (Bindings.take 2)).Reads (solutionsJson found).tokens
        (found.map Bindings.onWire) := by
  obtain ⟨found, hfound, hdistinct⟩ := hs.exists_found fun p hp => (hready p hp).1
  refine ⟨found, hfound, deliver_of_succeeded ?_,
    Bindings.takeArray_reads (fun b hb => (hdistinct b hb).1) (by decide)⟩
  have hlevel : 1 + 1 < Json.depthLimit := by decide
  have hquery := (Sentence.takeList_reads patterns hlevel).whole
  rw [Sentence.map_onWire_of_isFinite fun p hp => (hready p hp).2] at hquery
  unfold answer RemoteClient.request Payload.ofJson readQuery
  dsimp only
  rw [hquery]
  show (respond solutionsJson (s.selectBindings patterns), s) = _
  rw [hfound]
  rfl

/-- **A call and the request that it becomes do the same**: the answer arrives, and the store is the
    same afterwards. -/
theorem deliver_request {call : Call} (hready : call.Ready fun f => f.isFinite = true) :
    RemoteClient.readReply (deliver (RemoteClient.request id call) s).1 call =
        (s.answer id call).1.map Answer.onWire ∧
      (deliver (RemoteClient.request id call) s).2 = (s.answer id call).2 := by
  cases call with
  | apply retractions assertions =>
    obtain ⟨o, s', happly, hdeliver⟩ := exists_deliver_apply hs id
      (fun p hp => (hready.1 p hp).1) fun f hf => (hready.2 f hf).1
    rw [Sentence.map_onWire_of_isFinite fun p hp => (hready.1 p hp).2,
      Sentence.map_onWire_of_isFinite fun f hf => (hready.2 f hf).2] at happly
    rw [hdeliver, Store.answer, happly]
    refine ⟨?_, rfl⟩
    rw [RemoteClient.readReply, RemoteClient.readBody_succeeded (FlushResponse.take_reads _)]
    rfl
  | forgetAbout name =>
    refine ⟨?_, rfl⟩
    rw [deliver_of_succeeded rfl, RemoteClient.readReply,
      RemoteClient.readBody_succeeded (ForgetResponse.take_reads _)]
    rfl
  | forgetMine =>
    refine ⟨?_, rfl⟩
    rw [deliver_of_succeeded rfl, RemoteClient.readReply,
      RemoteClient.readBody_succeeded (ForgetResponse.take_reads _)]
    rfl
  | select patterns =>
    obtain ⟨found, hfound, hdeliver, hreads⟩ := exists_deliver_select hs id hready
    rw [hdeliver, Store.answer, Store.select, hfound, RemoteClient.readReply,
      RemoteClient.readBody_succeeded hreads]
    refine ⟨?_, rfl⟩
    show ((found.map Bindings.onWire).mapM Solution.ofBindings).bind _ =
      ((found.mapM Solution.ofBindings).map _).map _
    rw [mapM_map Solution.ofBindings_onWire]
    cases found.mapM Solution.ofBindings <;> rfl
  | listFacts =>
    have hreads : (Json.takeArray Json.takeString).Reads
        (Json.array (s.allFacts.map Json.string)).tokens s.allFacts := by
      refine Json.reads_array ?_
      rw [List.forall₂_map_left_iff, List.forall₂_same]
      exact fun text _ => Json.takeString_reads text
    refine ⟨?_, rfl⟩
    rw [deliver_of_succeeded rfl, RemoteClient.readReply, RemoteClient.readBody_succeeded hreads]
    rfl

end Calls

end Server

/-- A store stays sound under a call that is ready. -/
theorem Store.Sound.answer {P : Sentence → Prop} {s : Store} (hs : s.Sound P) (id : String)
    {call : Call} (hready : call.Ready P) : (s.answer id call).2.Sound P := by
  cases call with
  | apply retractions assertions => exact hs.apply id retractions fun f hf _ => (hready.2 f hf).2
  | forgetAbout name => exact hs.removeAll _
  | forgetMine => exact hs.removeAll _
  | select patterns => exact hs
  | listFacts => exact hs

/-- From a store with finite numbers all of an answer arrives. -/
theorem Store.Sound.map_onWire_answer {s : Store} (hs : s.Sound fun f => f.isFinite = true)
    (id : String) {call : Call} (hready : call.Ready fun f => f.isFinite = true) :
    (s.answer id call).1.map Answer.onWire = (s.answer id call).1 := by
  cases call with
  | apply retractions assertions =>
    rw [Store.answer]
    cases s.apply id retractions assertions with
    | mk r s' => cases r <;> rfl
  | forgetAbout name => rfl
  | forgetMine => rfl
  | select patterns =>
    obtain ⟨found, hfound, hterms⟩ := hs.exists_found fun p hp => (hready p hp).1
    have hsame : found.map Bindings.onWire = found := by
      refine (List.map_congr_left fun b hb => ?_).trans (List.map_id found)
      refine Bindings.onWire_of_isFinite fun e he => ?_
      obtain ⟨f, hf, hterm⟩ := (hterms b hb).2 e he
      exact List.all_eq_true.mp (hs.holds_of_mem hf) e.2 hterm
    have hvalues := mapM_map Solution.ofBindings_onWire found
    rw [hsame] at hvalues
    rw [Store.answer, Store.select, hfound]
    show ((found.mapM Solution.ofBindings).map _).map _ = (found.mapM Solution.ofBindings).map _
    cases hsolutions : found.mapM Solution.ofBindings with
    | error e => rfl
    | ok solutions =>
      rw [hsolutions] at hvalues
      have harrived : solutions = solutions.map Solution.onWire := Except.ok.inj hvalues
      show Except.ok (Answer.solutions (solutions.map Solution.onWire)) = _
      rw [← harrived]
      rfl
  | listFacts => rfl

/-! ## 4. Runs -/

/-- What can be seen after an action: what was answered, what waits, and the store. -/
structure Observation where
  answer : Except Failure Answer
  asserts : List Sentence
  retracts : List Sentence
  store : Store

/-- What arrives of what can be seen. -/
def Observation.onWire (o : Observation) : Observation :=
  { o with answer := o.answer.map Answer.onWire }

/-- What can be seen of a client next to a store after each of its actions. -/
def LocalClient.run (c : LocalClient) (s : Store) : List Action → List Observation
  | [] => []
  | a :: actions =>
    let (answer, c, s) := c.perform s a
    ⟨answer, c.buffer.asserts, c.buffer.retracts, s⟩ :: run c s actions

/-- What can be seen of a far client after each of its actions, with a way of sending requests. -/
def RemoteClient.run (send : Server.Request → Store → Reply × Store) (c : RemoteClient) (s : Store) :
    List Action → List Observation
  | [] => []
  | a :: actions =>
    let (answer, c, s) := c.perform send s a
    ⟨answer, c.buffer.asserts, c.buffer.retracts, s⟩ :: run send c s actions

/-- A near and a far client of the same id in whose buffers the same waits, ready and finite. -/
structure Corresponds (l : LocalClient) (r : RemoteClient) : Prop where
  id : r.id = l.id
  alike : l.buffer.Alike r.buffer
  ready : l.buffer.Ready fun f => f.isFinite = true

theorem corresponds_new (id host : String) (port m n : Nat) :
    Corresponds (.new id m) (.new host port id n) where
  id := rfl
  alike := MutationBuffer.alike_empty m n
  ready := MutationBuffer.ready_empty m

section Runs

variable {P : Sentence → Prop} {s : Store} {l : LocalClient} {r : RemoteClient}

/-- What a buffer answers by itself arrives as it is. -/
theorem MutationBuffer.map_onWire_answer {b : MutationBuffer} {a : Action}
    {x : Except Failure Answer} (h : (b.plan a).1 = .answer x) : x.map Answer.onWire = x := by
  have hflush : ∀ d : MutationBuffer, d.planFlush = .answer x → x.map Answer.onWire = x := by
    intro d hd
    unfold MutationBuffer.planFlush at hd
    split at hd
    · cases hd
    · cases hd
      rfl
  have hnow : ∀ y, (planNow y).1 = .answer x → x.map Answer.onWire = x := by
    intro y hy
    obtain ⟨r, d⟩ := y
    cases r with
    | error e =>
      cases hy
      rfl
    | ok u => exact hflush d hy
  have hdone : ∀ y : Except Failure Unit, Plan.answer (y.map fun _ => .done) = .answer x →
      x.map Answer.onWire = x := by
    intro y hy
    cases y <;> cases hy <;> rfl
  cases a with
  | assert t => exact hdone _ h
  | retract t => exact hdone _ h
  | flush => exact hflush _ h
  | assertNow t => exact hnow _ h
  | retractNow t => exact hnow _ h
  | forgetAbout name => cases h
  | forgetMine => cases h
  | select ts =>
    simp only [MutationBuffer.plan] at h
    cases hps : b.materializePatterns ts with
    | mk r d =>
      rw [hps] at h
      cases r <;> cases h
      rfl
  | listFacts => cases h
  | clearCache =>
    cases h
    rfl

/-- **One action of a near client and of a far one do the same.** -/
theorem perform_agrees (hs : s.Sound P) (hP : ∀ f : Sentence, f.isFinite = true → P f)
    (h : Corresponds l r) {a : Action}
    (ha : ∀ t ∈ a.templates, t.Yields fun f => f.isFinite = true) :
    (r.perform Server.deliver s a).1 = (l.perform s a).1.map Answer.onWire ∧
      Corresponds (l.perform s a).2.1 (r.perform Server.deliver s a).2.1 ∧
      (r.perform Server.deliver s a).2.2 = (l.perform s a).2.2 ∧ (l.perform s a).2.2.Sound P := by
  obtain ⟨hplan, halike⟩ := h.alike.plan a
  obtain ⟨hcall, hready⟩ := h.ready.plan ha
  rcases hnear : l.buffer.plan a with ⟨p, b⟩
  rcases hfar : r.buffer.plan a with ⟨q, d⟩
  rw [hnear, hfar] at hplan halike
  rw [hnear] at hcall hready
  cases hplan
  rw [LocalClient.perform, RemoteClient.perform, hnear, hfar]
  cases p with
  | answer x =>
    have hown := MutationBuffer.map_onWire_answer (b := l.buffer) (a := a) (x := x)
      (by rw [hnear])
    exact ⟨hown.symm, ⟨h.id, halike, hready⟩, rfl, hs⟩
  | call c =>
    obtain ⟨hanswer, hstore⟩ := Server.deliver_request hs l.id hcall
    rw [← h.id] at hanswer hstore
    -- the answers differ at most in what they say, and both or none of them is a failure
    have hsettle := halike.settle c (s.answer r.id c).1
    rw [← MutationBuffer.settle_map d c _ Answer.onWire, ← hanswer] at hsettle
    rw [← h.id]
    exact ⟨hanswer, ⟨rfl, hsettle, hready.settle c _⟩, hstore, hs.answer r.id (hcall.imp hP)⟩

theorem run_agrees (hs : s.Sound P) (hP : ∀ f : Sentence, f.isFinite = true → P f)
    (h : Corresponds l r) {actions : List Action}
    (ha : ∀ a ∈ actions, ∀ t ∈ a.templates, t.Yields fun f => f.isFinite = true) :
    r.run Server.deliver s actions = (l.run s actions).map Observation.onWire := by
  induction actions generalizing s l r with
  | nil => rfl
  | cons a actions ih =>
    have hstep := perform_agrees hs hP h (ha a List.mem_cons_self)
    rcases hnear : l.perform s a with ⟨x, l', s'⟩
    rcases hfar : r.perform Server.deliver s a with ⟨y, r', s''⟩
    rw [hnear, hfar] at hstep
    obtain ⟨hanswer, hafter, hstore, hsound⟩ := hstep
    cases hanswer
    cases hstore
    have hrest := ih hsound hafter fun b hb => ha b (List.mem_cons_of_mem _ hb)
    rw [RemoteClient.run, LocalClient.run, hnear, hfar]
    dsimp only
    rw [hrest, hafter.alike.asserts, hafter.alike.retracts]
    rfl

/-- From a store with finite numbers all of an answer to a near client arrives. -/
theorem LocalClient.map_onWire_perform (hs : s.Sound fun f => f.isFinite = true)
    (h : Corresponds l r) {a : Action}
    (ha : ∀ t ∈ a.templates, t.Yields fun f => f.isFinite = true) :
    (l.perform s a).1.map Answer.onWire = (l.perform s a).1 := by
  have hcall := (h.ready.plan ha).1
  rcases hplan : l.buffer.plan a with ⟨p, b⟩
  rw [hplan] at hcall
  rw [LocalClient.perform, hplan]
  cases p with
  | answer x =>
    exact MutationBuffer.map_onWire_answer (b := l.buffer) (a := a) (by rw [hplan])
  | call c => exact hs.map_onWire_answer l.id hcall

theorem LocalClient.map_onWire_run (hs : s.Sound fun f => f.isFinite = true)
    (h : Corresponds l r) {actions : List Action}
    (ha : ∀ a ∈ actions, ∀ t ∈ a.templates, t.Yields fun f => f.isFinite = true) :
    (l.run s actions).map Observation.onWire = l.run s actions := by
  induction actions generalizing s l r with
  | nil => rfl
  | cons a actions ih =>
    have hanswer := map_onWire_perform hs h (ha a List.mem_cons_self)
    obtain ⟨_, hafter, _, hsound⟩ := perform_agrees hs (fun _ hf => hf) h (ha a List.mem_cons_self)
    have hrest := ih hsound hafter fun b hb => ha b (List.mem_cons_of_mem _ hb)
    rcases hnear : l.perform s a with ⟨x, l', s'⟩
    rw [hnear] at hanswer hrest
    rw [LocalClient.run, hnear]
    dsimp only at hanswer hrest ⊢
    rw [List.map_cons, hrest, Observation.onWire, hanswer]

end Runs

/-- **A near and a far client do the same.** From every store that a history leads to, and through
    every row of actions whose fillers are finite, the two answer the same, the same waits in their
    buffers, and the store is the same, after each action. A solution arrives with `null` for a
    number of the store that is not finite; if there is none, all is the same. -/
theorem runs_agree (history : List Store.Command) (id host : String) (port m n : Nat)
    {actions : List Action}
    (hfinite : ∀ a ∈ actions, ∀ t ∈ a.templates, ∀ x ∈ t.fillers, x.isFinite = true) :
    let s := Store.empty.after history
    let near := (LocalClient.new id m).run s actions
    let far := (RemoteClient.new host port id n).run Server.deliver s actions
    far = near.map Observation.onWire ∧
      ((∀ f ∈ s.facts.values, f.terms.isFinite = true) → far = near) := by
  intro s near far
  have hyields : ∀ a ∈ actions, ∀ t ∈ a.templates, t.Yields fun f => f.isFinite = true :=
    fun a ha t ht => Template.yields_isFinite (hfinite a ha t ht)
  have hcorresponds := corresponds_new id host port m n
  have hsound : s.Sound fun _ => True := Store.after_sound Store.sound_empty fun _ _ _ _ _ => trivial
  have hagrees : far = near.map Observation.onWire :=
    run_agrees hsound (fun _ _ => trivial) hcorresponds hyields
  refine ⟨hagrees, fun hs => ?_⟩
  have hsound' : s.Sound fun f => f.isFinite = true :=
    { hsound with holds := fun e he => hs e.2 (List.mem_map_of_mem he) }
  rw [hagrees]
  exact LocalClient.map_onWire_run hsound' hcorresponds hyields

/-- The two agree on a flush, a query with two variables, and the retraction of everything. -/
theorem runs_agree_flush_select :
    let history : List Store.Command := [.assert "bob" [.identifier "x", .word " ", .number .zero]]
    let actions : List Action :=
      [.assert ⟨"#y _", [.number (.ofNat 2)]⟩, .flush, .select [⟨"$who $n", []⟩], .forgetMine]
    let s := Store.empty.after history
    (∀ a ∈ actions, ∀ t ∈ a.templates, ∀ x ∈ t.fillers, x.isFinite = true) ∧
      (∀ f ∈ s.facts.values, f.terms.isFinite = true) ∧
      (RemoteClient.new "localhost" 80 "ann" 0).run Server.deliver s actions =
        (LocalClient.new "ann" 10).run s actions := by
  have hfacts : ∀ f ∈ (Store.empty.after
      [.assert "bob" [.identifier "x", .word " ", .number .zero]]).facts.values,
      f.terms.isFinite = true := by decide
  have hfillers : ∀ a ∈ [Action.assert ⟨"#y _", [.number (.ofNat 2)]⟩, .flush,
      .select [⟨"$who $n", []⟩], .forgetMine],
      ∀ t ∈ a.templates, ∀ x ∈ t.fillers, x.isFinite = true := by decide +kernel
  exact ⟨hfillers, hfacts, (runs_agree _ "ann" "localhost" 80 10 0 hfillers).2 hfacts⟩

/-- **An infinity in the store is seen by a near client only.** The same query of it answers the
    infinity to a near client and `null` to a far one, for `null` is what the server has sent. -/
theorem runs_differ_infinity :
    let history : List Store.Command := [.assert "bob" [.number (.infinity false)]]
    let actions : List Action := [.select [⟨"$n", []⟩]]
    let s := Store.empty.after history
    let near := (LocalClient.new "ann" 10).run s actions
    let far := (RemoteClient.new "localhost" 80 "ann" 10).run Server.deliver s actions
    (∀ a ∈ actions, ∀ t ∈ a.templates, ∀ x ∈ t.fillers, x.isFinite = true) ∧
      s.allFacts = ["inf"] ∧
      near.map Observation.answer =
        [.ok (.solutions [⟨[("n", .literal (.number (.infinity false)))]⟩])] ∧
      (s.selectBindings [[.variable "n"]]).map (fun found => (Server.solutionsJson found).text) =
        .ok "[\x7b\"n\":\x7b\"value\":null\x7d\x7d]" ∧
      far.map Observation.answer = [.ok (.solutions [⟨[("n", .literal .null)]⟩])] ∧
      far ≠ near := by
  intro history actions s near far
  have hnear : near.map Observation.answer =
      [.ok (.solutions [⟨[("n", .literal (.number (.infinity false)))]⟩])] := rfl
  have hfar : far.map Observation.answer = [.ok (.solutions [⟨[("n", .literal .null)]⟩])] := rfl
  refine ⟨by decide +kernel, by decide +kernel, hnear, by decide +kernel, hfar, fun hsame => ?_⟩
  rw [hsame, hnear] at hfar
  simp at hfar

end Blackboard
