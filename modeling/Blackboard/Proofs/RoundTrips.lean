import Blackboard.Proofs.Messages
import Blackboard.Http.Server

/-!
# Wire forms go round

What is encoded and decoded again is what it was, as long as its numbers are finite: terms, batches,
queries, solutions and all other requests and answers (`decode_encode`).

The object of a term may carry members beside its own one. The reader takes the first key that it
knows, so **members whose keys are not known, or come later in that order, change nothing**
(`Term.ofJson_among`).
-/

namespace Blackboard

/-! ## 1. Members among others -/

namespace Json

variable {key : String}

theorem member?_eq_none {members : List (String × Json)} (h : ∀ m ∈ members, m.1 ≠ key) :
    member? key members = none := by
  rw [member?, List.lookup_eq_none_iff]
  intro m hm
  simpa using (h m (List.mem_reverse.mp hm)).symm

/-- A member is found among members of other keys. -/
theorem member?_among {before after : List (String × Json)} (v : Json)
    (h : ∀ m ∈ after, m.1 ≠ key) : member? key (before ++ (key, v) :: after) = some v := by
  have hafter : after.reverse.lookup key = none := member?_eq_none h
  simp [member?, List.lookup_append, hafter]

end Json

namespace Term

/-- The keys that tell what kind of term an object is, in the order in which they are looked for. -/
def wireKeys : List String := ["id", "word", "value", "blobRef", "variable", "wildcard", "hole"]

/-- The key of the one member of a wire form. -/
def wireKey : Term → String
  | identifier _ => "id"
  | word _ => "word"
  | literal _ => "value"
  | blobRef _ => "blobRef"
  | .variable _ => "variable"
  | wildcard => "wildcard"
  | hole => "hole"

/-- The value of the one member of a wire form. -/
def wireValue : Term → Json
  | identifier s | word s | blobRef s | .variable s => .string s
  | literal value => value.toJson
  | wildcard | hole => .bool true

theorem toJson_eq (t : Term) : t.toJson = .object [(t.wireKey, t.wireValue)] := by
  cases t <;> rfl

/-- Members are read as a term if they have its key and its value, and none of the keys that are
    looked for before. -/
theorem ofMembers?_eq (t : Term) {members : List (String × Json)}
    (hown : Json.member? t.wireKey members = some t.wireValue)
    (hearlier : ∀ key ∈ wireKeys, wireKeys.idxOf key < wireKeys.idxOf t.wireKey →
      Json.member? key members = none) :
    ofMembers? members = some t.onWire := by
  cases t with
  | literal value =>
    simp [wireKeys, wireKey, List.idxOf_cons] at hearlier
    simp [wireKey, wireValue] at hown
    simp [ofMembers?, hearlier, hown, Literal.ofJson?_toJson, onWire]
  | _ =>
    simp [wireKeys, wireKey, List.idxOf_cons] at hearlier
    simp [wireKey, wireValue] at hown
    simp [ofMembers?, hearlier, hown, Json.asString?, onWire]

/-- **Members that are not known, or that are looked for later, change nothing.** -/
theorem ofJson_among (t : Term) {before after : List (String × Json)}
    (hlater : ∀ m ∈ before ++ after, wireKeys.idxOf t.wireKey < wireKeys.idxOf m.1) :
    ofJson (.object (before ++ (t.wireKey, t.wireValue) :: after)) = .ok t.onWire := by
  have hown : Json.member? t.wireKey (before ++ (t.wireKey, t.wireValue) :: after) =
      some t.wireValue := by
    refine Json.member?_among t.wireValue fun m hm heq => ?_
    have hm := hlater m (List.mem_append_right _ hm)
    rw [heq] at hm
    exact Nat.lt_irrefl _ hm
  have hearlier : ∀ key ∈ wireKeys, wireKeys.idxOf key < wireKeys.idxOf t.wireKey →
      Json.member? key (before ++ (t.wireKey, t.wireValue) :: after) = none := by
    intro key _ hkey
    refine Json.member?_eq_none fun m hm heq => ?_
    subst heq
    rw [List.mem_append, List.mem_cons] at hm
    rcases hm with hm | rfl | hm
    · exact Nat.lt_asymm hkey (hlater m (List.mem_append_left _ hm))
    · exact Nat.lt_irrefl _ hkey
    · exact Nat.lt_asymm hkey (hlater m (List.mem_append_right _ hm))
  rw [ofJson]
  simp only [ofMembers?_eq t hown hearlier]

end Term

/-! ## 2. Whole messages -/

theorem FlushRequest.decode_partial (clientId : String)
    (retractions assertions : Option (List Sentence))
    (h : ∀ s ∈ retractions.getD [] ++ assertions.getD [], s.isFinite = true) :
    take.decode (partialJson clientId retractions assertions) =
      .ok ⟨clientId, retractions.getD [], assertions.getD []⟩ := by
  have hread := (reads_partial clientId retractions assertions).whole
  rwa [Sentence.map_onWire_of_isFinite fun s hs => h s (List.mem_append_left _ hs),
    Sentence.map_onWire_of_isFinite fun s hs => h s (List.mem_append_right _ hs)] at hread

theorem Sentence.decode_list {ps : List Sentence} (h : ∀ p ∈ ps, p.isFinite = true) :
    (takeList 1).decode (listToJson ps) = .ok ps := by
  have hread : (takeList 1).Reads (listToJson ps).tokens (ps.map onWire) :=
    takeList_reads ps (by decide)
  rw [map_onWire_of_isFinite h] at hread
  exact hread.whole

theorem Bindings.decode_toJson {b : Bindings} (hdistinct : b.keys.Nodup)
    (h : ∀ e ∈ b.entries, e.2.isFinite = true) : (take 1).decode b.toJson = .ok b := by
  have hread : (take 1).Reads b.toJson.tokens b.onWire := take_reads hdistinct (by decide)
  rw [onWire_of_isFinite h] at hread
  exact hread.whole

theorem Bindings.decode_list {found : List Bindings} (hdistinct : ∀ b ∈ found, b.keys.Nodup)
    (h : ∀ b ∈ found, ∀ e ∈ b.entries, e.2.isFinite = true) :
    (Json.takeArray (take 2)).decode (Server.solutionsJson found) = .ok found := by
  have hsame : found.map onWire = found.map id :=
    List.map_congr_left fun b hb => onWire_of_isFinite (h b hb)
  have hread : (Json.takeArray (take 2)).Reads (Server.solutionsJson found).tokens
      (found.map onWire) := takeArray_reads hdistinct (by decide)
  rw [hsame, List.map_id] at hread
  exact hread.whole

/-- **What is encoded is decoded as what it was**, if its numbers are finite: a term, also among
    members that are not known or come later in the order of the keys; a batch, of which lists may be
    missing; what to forget, with a name or without; the answers; a query; and a solution with its
    names in their order, alone or in a list. -/
theorem decode_encode :
    (∀ t : Term, t.isFinite = true →
      Term.ofJson t.toJson = .ok t ∧ t.toJson = .object [(t.wireKey, t.wireValue)] ∧
        ∀ before after : List (String × Json),
          (∀ m ∈ before ++ after,
            Term.wireKeys.idxOf t.wireKey < Term.wireKeys.idxOf m.1) →
          Term.ofJson (.object (before ++ (t.wireKey, t.wireValue) :: after)) = .ok t) ∧
      (∀ r : FlushRequest, (∀ s ∈ r.retractions ++ r.assertions, s.isFinite = true) →
        FlushRequest.take.decode r.toJson = .ok r) ∧
      (∀ (clientId : String) (retractions assertions : Option (List Sentence)),
        (∀ s ∈ retractions.getD [] ++ assertions.getD [], s.isFinite = true) →
        FlushRequest.take.decode (FlushRequest.partialJson clientId retractions assertions) =
          .ok ⟨clientId, retractions.getD [], assertions.getD []⟩) ∧
      (∀ p : ForgetParams, ForgetParams.take.decode p.toJson = .ok p) ∧
      (∀ r : FlushResponse, FlushResponse.take.decode r.toJson = .ok r) ∧
      (∀ r : ForgetResponse, ForgetResponse.take.decode r.toJson = .ok r) ∧
      (∀ r : ErrorResponse, ErrorResponse.take.decode r.toJson = .ok r) ∧
      (∀ ps : List Sentence, (∀ p ∈ ps, p.isFinite = true) →
        (Sentence.takeList 1).decode (Sentence.listToJson ps) = .ok ps) ∧
      (∀ b : Bindings, b.keys.Nodup → (∀ e ∈ b.entries, e.2.isFinite = true) →
        (Bindings.take 1).decode b.toJson = .ok b) ∧
      ∀ found : List Bindings, (∀ b ∈ found, b.keys.Nodup) →
        (∀ b ∈ found, ∀ e ∈ b.entries, e.2.isFinite = true) →
        (Json.takeArray (Bindings.take 2)).decode (Server.solutionsJson found) = .ok found := by
  refine ⟨fun t ht => ⟨?_, t.toJson_eq, fun before after hlater => ?_⟩,
    fun r => FlushRequest.decode_partial r.clientId (some r.retractions) (some r.assertions),
    FlushRequest.decode_partial, fun p => p.take_reads.whole, fun r => r.take_reads.whole,
    fun r => r.take_reads.whole, fun r => r.take_reads.whole, fun _ => Sentence.decode_list,
    fun _ => Bindings.decode_toJson, fun _ => Bindings.decode_list⟩
  · rw [t.ofJson_toJson, Term.onWire_of_isFinite ht]
  · rw [t.ofJson_among hlater, Term.onWire_of_isFinite ht]

/-- A `null` among later keys, a batch without retractions, and a solution with two names. -/
theorem decode_encode_among :
    Term.ofJson (.object [("hole", .bool true), ("value", .null), ("note", .string "x"),
        ("blobRef", .string "y")]) = .ok (.literal .null) ∧
      FlushRequest.take.decode (FlushRequest.partialJson "ann" none
        (some [[.identifier "x", .word " ", .number (.ofRank true 0)]])) =
          .ok ⟨"ann", [], [[.identifier "x", .word " ", .number (.ofRank true 0)]]⟩ ∧
      (Bindings.take 1).decode
          (Bindings.toJson ⟨[("y", .string "b"), ("x", .identifier "a")]⟩) =
        .ok ⟨[("y", .string "b"), ("x", .identifier "a")]⟩ := by
  obtain ⟨hterm, -, hpartial, -, -, -, -, -, hbindings, -⟩ := decode_encode
  exact ⟨(hterm (.literal .null) rfl).2.2 [("hole", .bool true)]
    [("note", .string "x"), ("blobRef", .string "y")] (by decide),
    hpartial "ann" none (some [[.identifier "x", .word " ", .number (.ofRank true 0)]]) (by decide),
    hbindings ⟨[("y", .string "b"), ("x", .identifier "a")]⟩ (by decide) (by decide)⟩

end Blackboard
