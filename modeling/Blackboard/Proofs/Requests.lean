import Blackboard.Http.Exchange
import Blackboard.Http.Status
import Blackboard.Proofs.Batches

/-!
# What comes in over HTTP

No message can spoil a store, whatever stands in it. A message that is understood asks one of four
things (`Http.Message.request_cases`), and what the server does for it is a row of commands, none or
one (`Server.answer_store`, `Http.serve_store`). So **a row of messages is a history of commands**
(`Http.served_eq_after`), and every store that messages lead to is sound.

The status tells whether anything was done: of a failure nothing is left (`Http.serve_of_failure`).
A batch is answered with success exactly if its message can be read as one that is taken
(`Http.serve_put`).
-/

namespace Blackboard

/-! ## 1. Requests -/

/-- Whether a fact is to be forgotten: the facts that mention the name are if there is one, and
    those of the client if there is none. -/
def ForgetParams.forgets (p : ForgetParams) (f : Fact) : Bool :=
  match p.name with
  | some name => f.mentions name
  | none => f.asserter == p.clientId

namespace Server

/-- What a request does to a store: the command that it comes to, if any. -/
def Request.commands : Request → List Store.Command
  | .select _ | .listFacts => []
  | .flush batch =>
    match FlushRequest.take batch.tokens with
    | .error _ => []
    | .ok (b, _) => [.apply b.clientId b.retractions b.assertions]
  | .forget params =>
    match params.name with
    | some name => [.forgetAbout name]
    | none => [.forgetBy params.clientId]

/-- **A request does what its commands do**, and nothing else. -/
theorem answer_store (s : Store) (r : Request) : (answer s r).2 = s.after r.commands := by
  cases r with
  | select query => rfl
  | listFacts => rfl
  | flush batch =>
    rw [answer, Request.commands]
    cases FlushRequest.take batch.tokens with
    | error fault => rfl
    | ok read => rfl
  | forget params =>
    rw [answer, Request.commands]
    cases params.name with
    | some name => rfl
    | none => rfl

theorem isSuccess_failed (f : Failure) : Http.isSuccess (failed f).status = false := by
  rw [failed, statusOf]
  split <;> rfl

theorem isSuccess_refused (fault : DecodeFault) :
    Http.isSuccess (refused fault).status = false := by
  cases fault <;> rfl

section Sound

variable {P : Sentence → Prop} {s : Store}

/-- What is answered to a batch that can be read. -/
theorem answer_flush {batch : Payload} {b : FlushRequest} {rest : List Json.Token}
    (h : FlushRequest.take batch.tokens = .ok (b, rest)) :
    answer s (.flush batch) =
      (respond (fun o => (FlushResponse.ofOutcome o).toJson)
        (s.apply b.clientId b.retractions b.assertions).1,
        (s.apply b.clientId b.retractions b.assertions).2) := by
  rw [answer, h]

/-- A batch that can be read is answered with success exactly if it is taken. -/
theorem isSuccess_answer_flush (hs : s.Sound P) {batch : Payload} {b : FlushRequest}
    {rest : List Json.Token} (h : FlushRequest.take batch.tokens = .ok (b, rest)) :
    Http.isSuccess (answer s (.flush batch)).1.status = true ↔
      Store.Accepted b.retractions b.assertions := by
  rw [answer_flush h]
  by_cases hok : Store.Accepted b.retractions b.assertions
  · rw [hs.apply_eq b.clientId hok]
    exact iff_of_true rfl hok
  · obtain ⟨e, he⟩ := s.apply_refused b.clientId hok
    rw [he]
    refine iff_of_false ?_ hok
    rw [respond, isSuccess_failed]
    exact Bool.false_ne_true

/-- **A request that is answered with a failure changes nothing.** -/
theorem answer_of_failure (hs : s.Sound P) {r : Request}
    (h : Http.isSuccess (answer s r).1.status = false) : (answer s r).2 = s := by
  cases r with
  | select query => rfl
  | listFacts => rfl
  | forget params => cases h
  | flush batch =>
    cases hread : FlushRequest.take batch.tokens with
    | error fault => rw [answer, hread]
    | ok read =>
      obtain ⟨b, rest⟩ := read
      have hrefused : ¬ Store.Accepted b.retractions b.assertions := by
        rw [← isSuccess_answer_flush hs hread, h]
        exact Bool.false_ne_true
      obtain ⟨e, he⟩ := s.apply_refused b.clientId hrefused
      rw [answer_flush hread, he]

end Sound

end Server

namespace Http

/-! ## 2. Fields -/

section Fields

variable {name : String} {pairs : List (String × String)}

theorem fst_of_mem_field {e : String × String} (he : e ∈ pairs.filter (·.1 == name)) :
    e.1 = name := by
  simpa using (List.mem_filter.mp he).2

/-- A field that must be there once has the value that it has there. -/
theorem requiredField_eq_ok_iff {v : String} :
    requiredField name pairs = .ok v ↔ pairs.filter (·.1 == name) = [(name, v)] := by
  unfold requiredField
  split
  · rename_i k w hfield
    obtain rfl : k = name :=
      fst_of_mem_field (e := (k, w)) (hfield ▸ List.mem_singleton_self _)
    rw [hfield]
    simp
  · rename_i hfield
    exact iff_of_false nofun fun heq => hfield _ _ heq

theorem requiredField_eq_error {status : Nat} (h : requiredField name pairs = .error status) :
    status = 400 := by
  unfold requiredField at h
  split at h <;> cases h
  rfl

/-- A field that may be there once has the value that it has there, or none. -/
theorem optionalField_eq_ok_iff {v : Option String} :
    optionalField name pairs = .ok v ↔
      pairs.filter (·.1 == name) = (v.map fun v => (name, v)).toList := by
  unfold optionalField
  split
  · rename_i hfield
    rw [hfield]
    cases v <;> simp
  · rename_i k w hfield
    obtain rfl : k = name :=
      fst_of_mem_field (e := (k, w)) (hfield ▸ List.mem_singleton_self _)
    rw [hfield]
    cases v <;> simp
  · rename_i hnone hone
    refine iff_of_false nofun fun heq => ?_
    cases v with
    | none => exact hnone heq
    | some w => exact hone _ _ heq

theorem optionalField_eq_error {status : Nat} (h : optionalField name pairs = .error status) :
    status = 400 := by
  unfold optionalField at h
  split at h <;> cases h
  rfl

end Fields

/-! ## 3. Messages -/

namespace Message

/-- The batch that a message carries: its content type announces JSON, and its body begins with a
    batch. -/
def batch? (m : Message) : Option FlushRequest :=
  if m.contentType.any isJsonType then
    match FlushRequest.take (Payload.ofText (m.body.getD "")).tokens with
    | .ok (b, _) => some b
    | .error _ => none
  else none

/-- What a message names to be forgotten: its query string has one client, and at most one name. -/
def Names (m : Message) (p : ForgetParams) : Prop :=
  (Form.decodePairs m.query).filter (·.1 == "clientId") = [("clientId", p.clientId)] ∧
    (Form.decodePairs m.query).filter (·.1 == "name") = (p.name.map fun n => ("name", n)).toList

variable {m : Message}

theorem batch?_eq_some_iff {b : FlushRequest} :
    m.batch? = some b ↔ m.contentType.any isJsonType = true ∧
      ∃ rest, FlushRequest.take (Payload.ofText (m.body.getD "")).tokens = .ok (b, rest) := by
  unfold batch?
  cases hread : FlushRequest.take (Payload.ofText (m.body.getD "")).tokens with
  | error fault => simp
  | ok read => simp [Prod.ext_iff]

theorem routeSelect_cases (m : Message) :
    (∃ text, routeSelect m = .ok (.select (.ofText text))) ∨ routeSelect m = .error 400 := by
  unfold routeSelect
  cases htext : requiredField "query" (Form.decodePairs m.query) with
  | ok text => exact .inl ⟨text, rfl⟩
  | error status =>
    obtain rfl := requiredField_eq_error htext
    exact .inr rfl

theorem routeFlush_cases (m : Message) :
    (m.contentType.any isJsonType = true ∧
        routeFlush m = .ok (.flush (.ofText (m.body.getD "")))) ∨ routeFlush m = .error 415 := by
  unfold routeFlush
  split
  · rename_i htype
    exact .inl ⟨htype, rfl⟩
  · exact .inr rfl

theorem routeForget_of_names {p : ForgetParams} (h : m.Names p) :
    routeForget m = .ok (.forget p) := by
  unfold routeForget
  dsimp only
  rw [requiredField_eq_ok_iff.mpr h.1, optionalField_eq_ok_iff.mpr h.2]
  rfl

theorem routeForget_cases (m : Message) :
    (∃ p, m.Names p ∧ routeForget m = .ok (.forget p)) ∨ routeForget m = .error 400 := by
  unfold routeForget
  dsimp only
  cases hid : requiredField "clientId" (Form.decodePairs m.query) with
  | error status =>
    obtain rfl := requiredField_eq_error hid
    exact .inr rfl
  | ok id =>
    cases hname : optionalField "name" (Form.decodePairs m.query) with
    | error status =>
      obtain rfl := optionalField_eq_error hname
      exact .inr rfl
    | ok name =>
      have hnames : m.Names ⟨id, name⟩ :=
        ⟨requiredField_eq_ok_iff.mp hid, optionalField_eq_ok_iff.mp hname⟩
      exact .inl ⟨_, hnames, rfl⟩

theorem request_put (hmethod : m.method = "PUT") (hpath : m.path = "/facts") :
    m.request = routeFlush m := by
  simp [request, hmethod, hpath]

theorem request_delete (hmethod : m.method = "DELETE") (hpath : m.path = "/facts") :
    m.request = routeForget m := by
  simp [request, hmethod, hpath]

/-- **What a message asks**: it is not understood and fails, or it is one of four requests. -/
theorem request_cases (m : Message) :
    (∃ status, m.request = .error status ∧ isSuccess status = false) ∨
      ((m.method = "GET" ∨ m.method = "HEAD") ∧ m.path = "/facts" ∧
        ∃ text, m.request = .ok (.select (.ofText text))) ∨
      ((m.method = "GET" ∨ m.method = "HEAD") ∧ m.path = "/facts/all" ∧
        m.request = .ok .listFacts) ∨
      (m.method = "PUT" ∧ m.path = "/facts" ∧ m.contentType.any isJsonType = true ∧
        m.request = .ok (.flush (.ofText (m.body.getD "")))) ∨
      m.method = "DELETE" ∧ m.path = "/facts" ∧ ∃ p, m.Names p ∧ m.request = .ok (.forget p) := by
  obtain ⟨routed, hrouted⟩ : ∃ routed, m.request = routed := ⟨_, rfl⟩
  rw [hrouted]
  unfold request at hrouted
  split at hrouted
  · rename_i hpath
    split at hrouted
    · rename_i hmethod
      rcases routeSelect_cases m with ⟨text, hroute⟩ | hroute
      · exact .inr (.inl ⟨.inl hmethod, hpath, text, hrouted.symm.trans hroute⟩)
      · exact .inl ⟨400, hrouted.symm.trans hroute, rfl⟩
    · rename_i hmethod
      rcases routeSelect_cases m with ⟨text, hroute⟩ | hroute
      · exact .inr (.inl ⟨.inr hmethod, hpath, text, hrouted.symm.trans hroute⟩)
      · exact .inl ⟨400, hrouted.symm.trans hroute, rfl⟩
    · rename_i hmethod
      rcases routeFlush_cases m with ⟨htype, hroute⟩ | hroute
      · exact .inr (.inr (.inr (.inl ⟨hmethod, hpath, htype, hrouted.symm.trans hroute⟩)))
      · exact .inl ⟨415, hrouted.symm.trans hroute, rfl⟩
    · rename_i hmethod
      rcases routeForget_cases m with ⟨p, hp, hroute⟩ | hroute
      · exact .inr (.inr (.inr (.inr ⟨hmethod, hpath, p, hp, hrouted.symm.trans hroute⟩)))
      · exact .inl ⟨400, hrouted.symm.trans hroute, rfl⟩
    · exact .inl ⟨405, hrouted.symm, rfl⟩
  · split at hrouted
    · rename_i hpath
      split at hrouted
      · rename_i hmethod
        exact .inr (.inr (.inl ⟨.inl hmethod, hpath, hrouted.symm⟩))
      · rename_i hmethod
        exact .inr (.inr (.inl ⟨.inr hmethod, hpath, hrouted.symm⟩))
      · exact .inl ⟨405, hrouted.symm, rfl⟩
    · exact .inl ⟨404, hrouted.symm, rfl⟩

/-- What a message does to a store: the command that its request comes to, if any. -/
def commands (m : Message) : List Store.Command :=
  if m.method = "OPTIONS" then []
  else
    match m.request with
    | .error _ => []
    | .ok r => r.commands

theorem commands_of_method (hput : m.method ≠ "PUT") (hdelete : m.method ≠ "DELETE") :
    m.commands = [] := by
  unfold commands
  split
  · rfl
  · rcases m.request_cases with
      ⟨status, hr, -⟩ | ⟨-, -, text, hr⟩ | ⟨-, -, hr⟩ | ⟨hmethod, -⟩ | ⟨hmethod, -⟩
    · rw [hr]
    · rw [hr]
      rfl
    · rw [hr]
      rfl
    · exact absurd hmethod hput
    · exact absurd hmethod hdelete

end Message

/-! ## 4. Exchanges -/

/-- The store after a row of messages. -/
def served (s : Store) (messages : List Message) : Store :=
  messages.foldl (fun s m => (serve s m).2) s

section Serve

variable {s : Store} {m : Message}

theorem serve_of_error (hmethod : m.method ≠ "OPTIONS") {status : Nat}
    (h : m.request = .error status) : serve s m = (⟨status, none, false⟩, s) := by
  rw [serve, if_neg hmethod, h]

theorem serve_of_ok (hmethod : m.method ≠ "OPTIONS") {r : Server.Request} (h : m.request = .ok r) :
    (serve s m).1.status = (Server.answer s r).1.status ∧
      (serve s m).2 = (Server.answer s r).2 := by
  rw [serve, if_neg hmethod, h]
  exact ⟨rfl, rfl⟩

/-- **A message does what its commands do**, and nothing else. -/
theorem serve_store (s : Store) (m : Message) : (serve s m).2 = s.after m.commands := by
  by_cases hmethod : m.method = "OPTIONS"
  · rw [serve, if_pos hmethod, Message.commands, if_pos hmethod]
    rfl
  · rw [Message.commands, if_neg hmethod]
    cases hr : m.request with
    | error status =>
      rw [serve_of_error hmethod hr]
      rfl
    | ok r => rw [(serve_of_ok hmethod hr).2, Server.answer_store]

/-- **A row of messages is a history of commands.** -/
theorem served_eq_after (s : Store) (messages : List Message) :
    served s messages = s.after (messages.flatMap Message.commands) := by
  induction messages generalizing s with
  | nil => rfl
  | cons m messages ih =>
    rw [List.flatMap_cons, Store.after_append, ← serve_store]
    exact ih _

section Sound

variable {P : Sentence → Prop} (hs : s.Sound P)

include hs

/-- **A message that is answered with a failure changes nothing.** -/
theorem serve_of_failure (h : isSuccess (serve s m).1.status = false) : (serve s m).2 = s := by
  by_cases hmethod : m.method = "OPTIONS"
  · rw [serve, if_pos hmethod]
  · cases hr : m.request with
    | error status => rw [serve_of_error hmethod hr]
    | ok r =>
      obtain ⟨hstatus, hstore⟩ := serve_of_ok (s := s) hmethod hr
      rw [hstatus] at h
      rw [hstore, Server.answer_of_failure hs h]

/-- A batch that a message carries is answered with success exactly if it is taken, and then it is
    applied. -/
theorem serve_batch (hmethod : m.method = "PUT") (hpath : m.path = "/facts") {b : FlushRequest}
    (hb : m.batch? = some b) :
    (isSuccess (serve s m).1.status = true ↔ Store.Accepted b.retractions b.assertions) ∧
      (serve s m).2 = (s.apply b.clientId b.retractions b.assertions).2 := by
  obtain ⟨htype, rest, hread⟩ := Message.batch?_eq_some_iff.mp hb
  have hr : m.request = .ok (.flush (.ofText (m.body.getD ""))) := by
    rw [Message.request_put hmethod hpath, routeFlush, if_pos htype]
  obtain ⟨hstatus, hstore⟩ := serve_of_ok (s := s) (by simp [hmethod]) hr
  rw [hstatus, hstore]
  exact ⟨Server.isSuccess_answer_flush hs hread, by rw [Server.answer_flush hread]⟩

/-- **A batch is answered with success exactly if its message can be read as one that is taken.** -/
theorem serve_put (hmethod : m.method = "PUT") :
    isSuccess (serve s m).1.status = true ↔
      m.path = "/facts" ∧ ∃ b, m.batch? = some b ∧ Store.Accepted b.retractions b.assertions := by
  constructor
  · intro h
    rcases m.request_cases with
      ⟨status, hr, hfail⟩ | ⟨hget, -⟩ | ⟨hget, -⟩ | ⟨-, hpath, htype, hr⟩ | ⟨hdelete, -⟩
    · rw [serve_of_error (by simp [hmethod]) hr, hfail] at h
      cases h
    · simp [hmethod] at hget
    · simp [hmethod] at hget
    · cases hread : FlushRequest.take (Payload.ofText (m.body.getD "")).tokens with
      | error fault =>
        obtain ⟨hstatus, -⟩ := serve_of_ok (s := s) (by simp [hmethod]) hr
        rw [hstatus, Server.answer, hread, Server.isSuccess_refused] at h
        cases h
      | ok read =>
        have hb : m.batch? = some read.1 := Message.batch?_eq_some_iff.mpr ⟨htype, read.2, hread⟩
        exact ⟨hpath, read.1, hb, (serve_batch hs hmethod hpath hb).1.mp h⟩
    · simp [hmethod] at hdelete
  · rintro ⟨hpath, b, hb, hok⟩
    exact (serve_batch hs hmethod hpath hb).1.mpr hok

/-- **What a message names is forgotten.** -/
theorem serve_names (hmethod : m.method = "DELETE") (hpath : m.path = "/facts") {p : ForgetParams}
    (hp : m.Names p) :
    isSuccess (serve s m).1.status = true ∧ (serve s m).2 = s.without p.forgets := by
  have hr : m.request = .ok (.forget p) :=
    (Message.request_delete hmethod hpath).trans (Message.routeForget_of_names hp)
  obtain ⟨hstatus, hstore⟩ := serve_of_ok (s := s) (by simp [hmethod]) hr
  rw [hstatus, hstore]
  refine ⟨rfl, ?_⟩
  have hwithout : (s.removeWhere p.forgets).2 = s.without p.forgets := by rw [hs.removeWhere_eq]
  rw [← hwithout]
  obtain ⟨id, name⟩ := p
  cases name with
  | some name => rfl
  | none => rfl

/-- A message that is to forget is answered with success exactly if it names what. -/
theorem serve_delete (hmethod : m.method = "DELETE") :
    isSuccess (serve s m).1.status = true ↔ m.path = "/facts" ∧ ∃ p, m.Names p := by
  constructor
  · intro h
    rcases m.request_cases with
      ⟨status, hr, hfail⟩ | ⟨hget, -⟩ | ⟨hget, -⟩ | ⟨hput, -⟩ | ⟨-, hpath, p, hp, -⟩
    · rw [serve_of_error (by simp [hmethod]) hr, hfail] at h
      cases h
    · simp [hmethod] at hget
    · simp [hmethod] at hget
    · simp [hmethod] at hput
    · exact ⟨hpath, p, hp⟩
  · rintro ⟨hpath, p, hp⟩
    exact (serve_names hs hmethod hpath hp).1

end Sound

end Serve

/-- **No message can spoil a store.** Whatever was done to a store, and whatever messages it has
    served since, its texts are distinct, and every fact in it is ground and stands under its own
    text. Of the next message: if it is answered with a failure, or asks neither to flush nor to
    forget, the store stays as it is. A batch is answered with success exactly if its message can be
    read as a batch without holes in what is retracted whose assertions are all ground, and then
    that batch is applied. What a message names to be forgotten is taken away and nothing else: the
    facts that mention the name if one is given, and otherwise those of the client. -/
theorem messages_keep_store (history : List Store.Command) (messages : List Message) :
    let s := served (Store.empty.after history) messages
    (s.facts.keys.Nodup ∧
        ∀ e ∈ s.facts.entries, e.1 = e.2.terms.render ∧ e.2.terms.isGround = true) ∧
      ∀ m : Message,
        let r := serve s m
        (isSuccess r.1.status = false → r.2 = s) ∧
          (m.method ≠ "PUT" → m.method ≠ "DELETE" → r.2 = s) ∧
          (m.method = "PUT" →
            (isSuccess r.1.status = true ↔ m.path = "/facts" ∧ ∃ b, m.batch? = some b ∧
                (∀ p ∈ b.retractions, p.hasHoles = false) ∧
                ∀ f ∈ b.assertions, f.isGround = true) ∧
              (isSuccess r.1.status = true → ∀ b, m.batch? = some b →
                ∃ o, s.apply b.clientId b.retractions b.assertions = (.ok o, r.2))) ∧
          (m.method = "DELETE" →
            (isSuccess r.1.status = true ↔ m.path = "/facts" ∧ ∃ p, m.Names p) ∧
              (isSuccess r.1.status = true → ∀ p, m.Names p →
                r.2.facts.entries = s.facts.entries.filter fun e =>
                  match p.name with
                  | some name => !e.2.terms.mentions name
                  | none => e.2.asserter != p.clientId)) := by
  intro s
  have hs : s.Sound fun _ => True := by
    have hafter : s = Store.empty.after (history ++ messages.flatMap Message.commands) := by
      rw [Store.after_append, ← served_eq_after]
    rw [hafter]
    exact Store.sound_after _
  refine ⟨⟨hs.distinct, fun e he => ⟨hs.keyed e he, hs.ground e he⟩⟩, fun m => ?_⟩
  intro r
  refine ⟨serve_of_failure hs, fun hput hdelete => ?_, fun hmethod => ⟨serve_put hs hmethod, ?_⟩,
    fun hmethod => ⟨serve_delete hs hmethod, ?_⟩⟩
  · have hnone := serve_store s m
    rw [Message.commands_of_method hput hdelete] at hnone
    exact hnone
  · intro hsuccess b hb
    obtain ⟨hpath, -⟩ := (serve_put hs hmethod).mp hsuccess
    obtain ⟨hiff, hstore⟩ := serve_batch hs hmethod hpath hb
    have hok := hiff.mp hsuccess
    obtain ⟨o, s', happly⟩ := hs.exists_apply b.clientId hok.1 hok.2
    rw [happly] at hstore
    refine ⟨o, ?_⟩
    show _ = (_, (serve s m).2)
    rw [hstore, happly]
  · intro hsuccess p hp
    obtain ⟨hpath, -⟩ := (serve_delete hs hmethod).mp hsuccess
    show (serve s m).2.facts.entries = _
    rw [(serve_names hs hmethod hpath hp).2]
    obtain ⟨id, name⟩ := p
    cases name with
    | some name => rfl
    | none => rfl

/-- A batch is applied, one with a variable in what it asserts is refused, and the empty name is a
    name: what stands under it is forgotten, and the facts of the client stay. The message before
    all of them names no client and is refused. -/
theorem messages_keep_store_empty_name :
    let s := served
      (Store.empty.after [.assert "ann" [.identifier ""], .assert "bob" [.identifier "x"]])
      [{ method := "DELETE", path := "/facts", query := "name=" }]
    let batch : Message :=
      { method := "PUT", path := "/facts", query := "", contentType := some "application/json",
        body := some ("\x7b\"clientId\":\"bob\",\"retractions\":[[\x7b\"id\":\"x\"\x7d]]," ++
          "\"assertions\":[[\x7b\"value\":1\x7d]]\x7d") }
    let openBatch : Message :=
      { batch with
        body := some "\x7b\"clientId\":\"bob\",\"assertions\":[[\x7b\"variable\":\"n\"\x7d]]\x7d" }
    let forget : Message :=
      { method := "DELETE", path := "/facts", query := "clientId=bob&name=" }
    batch.batch? = some ⟨"bob", [[.identifier "x"]], [[.number (.ofNat 1)]]⟩ ∧
      isSuccess (serve s batch).1.status = true ∧ (serve s batch).2.facts.keys = ["#", "1"] ∧
      openBatch.batch? = some ⟨"bob", [], [[.variable "n"]]⟩ ∧
      isSuccess (serve s openBatch).1.status = false ∧ (serve s openBatch).2 = s ∧
      isSuccess (serve s forget).1.status = true ∧ (serve s forget).2.facts.keys = ["#x"] := by
  intro s batch openBatch forget
  have hkept := (messages_keep_store
    [.assert "ann" [.identifier ""], .assert "bob" [.identifier "x"]]
    [{ method := "DELETE", path := "/facts", query := "name=" }]).2
  have hbatch : batch.batch? = some ⟨"bob", [[.identifier "x"]], [[.number (.ofNat 1)]]⟩ := by
    decide +kernel
  have hopen : openBatch.batch? = some ⟨"bob", [], [[.variable "n"]]⟩ := by decide +kernel
  have hnames : forget.Names ⟨"bob", some ""⟩ := by
    unfold Message.Names
    decide +kernel
  obtain ⟨-, -, hput, -⟩ := hkept batch
  obtain ⟨htaken, happly⟩ := hput rfl
  have htaken : isSuccess (serve s batch).1.status = true :=
    htaken.mpr ⟨rfl, _, hbatch, by decide, by decide⟩
  obtain ⟨o, happly⟩ := happly htaken _ hbatch
  obtain ⟨hunchanged, -, hput, -⟩ := hkept openBatch
  have hrefused : isSuccess (serve s openBatch).1.status = false := by
    refine Bool.eq_false_iff.mpr fun hsuccess => ?_
    obtain ⟨-, b, hb, -, hground⟩ := (hput rfl).1.mp hsuccess
    rw [hopen] at hb
    cases hb
    exact absurd (hground _ List.mem_cons_self) (by decide)
  obtain ⟨-, -, -, hdelete⟩ := hkept forget
  obtain ⟨hsuccess, hentries⟩ := hdelete rfl
  have hsuccess : isSuccess (serve s forget).1.status = true := hsuccess.mpr ⟨rfl, _, hnames⟩
  refine ⟨hbatch, htaken, ?_, hopen, hrefused, hunchanged hrefused, hsuccess, ?_⟩
  · have hstore : (s.apply "bob" [[.identifier "x"]] [[.number (.ofNat 1)]]).2.facts.keys =
        ["#", "1"] := by
      decide +kernel
    rw [happly] at hstore
    exact hstore
  · rw [OrderedMap.keys, hentries hsuccess _ hnames]
    decide +kernel

end Http

end Blackboard
