import Blackboard.Proofs.JsonReaders
import Blackboard.Wire.Message

/-!
# Messages are read as they were sent

What is written into a message is read out of it again. One thing is lost on the way: JSON has no
word for an infinity or a NaN, and such a literal arrives as `null`. What arrives of a literal, a
term or a sentence is its form on the wire (`Term.onWire`), which is the term itself if its numbers
are finite (`Sentence.onWire_of_isFinite`).

* A term is read as what arrives of it (`Term.take_reads`), and so are lists of sentences
  (`Sentence.takeList_reads`) and bindings, whose names keep their order (`Bindings.take_reads`).
* A batch arrives with what arrives of its sentences (`FlushRequest.take_reads`); all other
  requests and answers arrive as they are.
-/

namespace Blackboard

/-! ## 1. What arrives -/

namespace Literal

/-- Whether this is no number, or a finite one. -/
def isFinite : Literal → Bool
  | number x => x.isFinite
  | _ => true

/-- What arrives of a literal. -/
def onWire (v : Literal) : Literal := if v.isFinite then v else null

theorem ofJson?_toJson (v : Literal) : ofJson? v.toJson = some v.onWire := by
  cases v with
  | number x =>
    rw [toJson, onWire, isFinite]
    split
    · rfl
    · rfl
  | _ => rfl

/-- What is written of a literal is a scalar that a text can hold. -/
theorem toJson_scalar (v : Literal) (depth : Nat) :
    v.toJson.tokens = [.scalar v.toJson] ∧ v.toJson.isSound depth = true := by
  cases v with
  | number x =>
    rw [toJson]
    split
    · rename_i hfinite
      exact ⟨rfl, hfinite⟩
    · exact ⟨rfl, rfl⟩
  | _ => exact ⟨rfl, rfl⟩

end Literal

namespace Term

/-- Whether no infinity and no NaN stands here. -/
def isFinite : Term → Bool
  | literal value => value.isFinite
  | _ => true

/-- What arrives of a term. -/
def onWire : Term → Term
  | literal value => literal value.onWire
  | t => t

theorem onWire_of_isFinite {t : Term} (h : t.isFinite = true) : t.onWire = t := by
  cases t with
  | literal value =>
    have hvalue : value.isFinite = true := h
    rw [onWire, Literal.onWire, if_pos hvalue]
  | _ => rfl

/-- **The wire form of a term is read as what arrives of the term.** -/
theorem ofJson_toJson (t : Term) : ofJson t.toJson = .ok t.onWire := by
  cases t with
  | literal value =>
    have hmembers : ofMembers? [("value", value.toJson)] = some (literal value.onWire) := by
      show (Literal.ofJson? value.toJson).map literal = _
      rw [Literal.ofJson?_toJson]
      rfl
    rw [toJson, ofJson]
    simp only [hmembers, onWire]
  | _ => rfl

/-- The wire form of a term is a container that a text can hold. -/
theorem isSound_toJson (t : Term) {depth : Nat} (h : 0 < depth) :
    t.toJson.isSound depth = true := by
  cases t with
  | literal value =>
    simp [toJson, Json.isSound, Json.membersSound, h, (value.toJson_scalar _).2]
  | _ => simp [toJson, Json.isSound, Json.membersSound, h]

theorem take_reads (t : Term) {level : Nat} (h : level < Json.depthLimit) :
    (take level).Reads t.toJson.tokens t.onWire := by
  intro rest
  have hsound := t.isSound_toJson (Nat.sub_pos_of_lt h)
  have hvalue : Json.takeValue level (t.toJson.tokens ++ rest) = .ok (t.toJson, rest) := by
    rw [Json.takeValue, Json.take?_tokens]
    simp only [hsound, if_true]
  rw [take, hvalue]
  show ((ofJson t.toJson).mapError _).bind _ = _
  rw [ofJson_toJson]
  rfl

end Term

/-! ## 2. Sentences and bindings -/

namespace Sentence

/-- Whether no infinity and no NaN stands in the sentence. -/
def isFinite (s : Sentence) : Bool := s.all Term.isFinite

/-- What arrives of a sentence. -/
def onWire (s : Sentence) : Sentence := s.map Term.onWire

theorem onWire_of_isFinite {s : Sentence} (h : s.isFinite = true) : s.onWire = s := by
  have hterms : ∀ t ∈ s, t.onWire = id t := by
    intro t ht
    exact Term.onWire_of_isFinite (List.all_eq_true.mp h t ht)
  rw [onWire, List.map_congr_left hterms, List.map_id]

/-- A hole arrives as a hole, and nothing else does. -/
theorem hasHoles_onWire (s : Sentence) : s.onWire.hasHoles = s.hasHoles := by
  have hterm : ∀ t : Term, t.onWire.isHole = t.isHole := by
    intro t
    cases t <;> rfl
  simp [hasHoles, onWire, List.any_map, Function.comp_def, hterm]

/-- What can stand in a stored fact can do so when it arrives. -/
theorem isGround_onWire (s : Sentence) : s.onWire.isGround = s.isGround := by
  have hterm : ∀ t : Term, t.onWire.isGround = t.isGround := by
    intro t
    cases t <;> rfl
  simp [isGround, onWire, List.all_map, Function.comp_def, hterm]

theorem take_reads (s : Sentence) {level : Nat} (h : level < Json.depthLimit) :
    (take level).Reads s.toJson.tokens s.onWire := by
  refine Json.reads_array ?_
  rw [onWire, List.forall₂_map_left_iff, List.forall₂_map_right_iff, List.forall₂_same]
  exact fun t _ => t.take_reads h

theorem takeList_reads (ss : List Sentence) {level : Nat} (h : level + 1 < Json.depthLimit) :
    (takeList level).Reads (listToJson ss).tokens (ss.map onWire) := by
  refine Json.reads_array ?_
  rw [List.forall₂_map_left_iff, List.forall₂_map_right_iff, List.forall₂_same]
  exact fun s _ => s.take_reads h

theorem map_onWire_of_isFinite {ss : List Sentence} (h : ∀ s ∈ ss, s.isFinite = true) :
    ss.map onWire = ss := by
  have hsame : ss.map onWire = ss.map id :=
    List.map_congr_left fun s hs => onWire_of_isFinite (h s hs)
  rw [hsame, List.map_id]

end Sentence

namespace OrderedMap

theorem insertEntry_of_notMem {κ α : Type} [DecidableEq κ] {k : κ} {es : List (κ × α)}
    (h : k ∉ es.map Prod.fst) (v : α) : insertEntry k v es = es ++ [(k, v)] := by
  induction es with
  | nil => rfl
  | cons e es ih =>
    rw [List.map_cons, List.mem_cons, not_or] at h
    rw [insertEntry, if_neg h.1, ih h.2, List.cons_append]

end OrderedMap

namespace Bindings

/-- What arrives of bindings. -/
def onWire (b : Bindings) : Bindings := ⟨b.entries.map fun e => (e.1, e.2.onWire)⟩

theorem onWire_of_isFinite {b : Bindings} (h : ∀ e ∈ b.entries, e.2.isFinite = true) :
    onWire b = b := by
  have hentries : ∀ e ∈ b.entries, (e.1, e.2.onWire) = id e := by
    intro e he
    rw [Term.onWire_of_isFinite (h e he)]
    rfl
  rw [onWire, List.map_congr_left hentries, List.map_id]

theorem takeEntry_reads (b : Bindings) (name : String) (t : Term) {level : Nat}
    (h : level < Json.depthLimit) :
    (takeEntry level b).Reads (.scalar (.string name) :: .colon :: t.toJson.tokens)
      (b.insert name t.onWire) := by
  intro rest
  show (Term.take level (t.toJson.tokens ++ rest)).bind _ = _
  rw [t.take_reads h]
  rfl

theorem chain_entries {level : Nat} (h : level < Json.depthLimit) (before : Bindings)
    {es : List (String × Term)} (hdistinct : (es.map Prod.fst).Nodup)
    (hfresh : ∀ e ∈ es, e.1 ∉ before.keys) :
    Json.Chain (takeEntry level) before
      (Json.membersTokens (es.map fun e => (e.1, e.2.toJson)))
      ⟨before.entries ++ es.map fun e => (e.1, e.2.onWire)⟩ := by
  induction es generalizing before with
  | nil =>
    rw [List.map_nil, List.map_nil, List.append_nil]
    exact .nil
  | cons e es ih =>
    rw [List.map_cons, List.nodup_cons] at hdistinct
    have hinsert : before.insert e.1 e.2.onWire = ⟨before.entries ++ [(e.1, e.2.onWire)]⟩ := by
      rw [OrderedMap.insert, OrderedMap.insertEntry_of_notMem (hfresh e List.mem_cons_self)]
    have hentries := ih ⟨before.entries ++ [(e.1, e.2.onWire)]⟩ hdistinct.2 (by
      intro d hd hkey
      rw [OrderedMap.keys, List.map_append, List.mem_append] at hkey
      rcases hkey with hkey | hkey
      · exact hfresh d (List.mem_cons_of_mem _ hd) hkey
      · have hsame : d.1 = e.1 := List.mem_singleton.mp hkey
        exact hdistinct.1 (hsame ▸ List.mem_map_of_mem hd))
    rw [List.append_assoc, ← hinsert] at hentries
    exact .cons (takeEntry_reads before e.1 e.2 h) hentries

/-- **Bindings arrive with their names in the same order.** -/
theorem take_reads {b : Bindings} (hdistinct : b.keys.Nodup) {level : Nat}
    (h : level < Json.depthLimit) : (take level).Reads b.toJson.tokens b.onWire := by
  intro rest
  have hchain := chain_entries h .empty hdistinct fun _ _ => List.not_mem_nil
  have hentries := Json.takeItems_pieces Json.closes_object hchain Json.membersTokens_opens rest
  rw [toJson, Json.tokens_object_append]
  exact hentries

theorem takeArray_reads {found : List Bindings} (hdistinct : ∀ b ∈ found, b.keys.Nodup)
    {level : Nat} (h : level < Json.depthLimit) :
    (Json.takeArray (take level)).Reads (Json.array (found.map toJson)).tokens
      (found.map onWire) := by
  refine Json.reads_array ?_
  rw [List.forall₂_map_left_iff, List.forall₂_map_right_iff, List.forall₂_same]
  exact fun b hb => take_reads (hdistinct b hb) h

end Bindings

/-! ## 3. Batches and answers -/

theorem Json.takeString_reads (s : String) : Json.takeString.Reads [.scalar (.string s)] s :=
  fun _ => rfl

theorem Json.takeNat_reads (n : Nat) : Json.takeNat.Reads (Json.ofNat n).tokens n :=
  fun _ => rfl

/-- A field is read if its value is. -/
theorem Json.Field.of_reads {α δ : Type} {name : String} {get : δ → Option α} {set : δ → α → δ}
    {take : Json.Reader α} {ts : List Json.Token} {a : α} (h : take.Reads ts a) (d : δ) :
    ((Json.Field.of name get set take).take d).Reads ts (set d a) := by
  intro rest
  show (take (ts ++ rest)).bind _ = _
  rw [h rest]
  rfl

/-- The JSON form of a batch in which lists may be missing. -/
def FlushRequest.partialJson (clientId : String) (retractions assertions : Option (List Sentence)) :
    Json :=
  .object (("clientId", .string clientId) ::
    ((retractions.map fun ss => ("retractions", Sentence.listToJson ss)).toList ++
      (assertions.map fun ss => ("assertions", Sentence.listToJson ss)).toList))

/-- A list that is missing is read as the empty one. -/
theorem FlushRequest.reads_partial (clientId : String)
    (retractions assertions : Option (List Sentence)) :
    take.Reads (partialJson clientId retractions assertions).tokens
      ⟨clientId, (retractions.getD []).map Sentence.onWire,
        (assertions.getD []).map Sentence.onWire⟩ := by
  have hlist : ∀ ss, (Sentence.takeList 2).Reads (Sentence.listToJson ss).tokens
      (ss.map Sentence.onWire) := fun ss => Sentence.takeList_reads ss (by decide)
  cases retractions with
  | none =>
    cases assertions with
    | none =>
      exact Json.Format.reads_object
        (.cons rfl rfl (Json.Field.of_reads (Json.takeString_reads _) _) .nil) rfl
    | some A =>
      exact Json.Format.reads_object
        (.cons rfl rfl (Json.Field.of_reads (Json.takeString_reads _) _)
          (.cons rfl rfl (Json.Field.of_reads (hlist A) _) .nil)) rfl
  | some R =>
    cases assertions with
    | none =>
      exact Json.Format.reads_object
        (.cons rfl rfl (Json.Field.of_reads (Json.takeString_reads _) _)
          (.cons rfl rfl (Json.Field.of_reads (hlist R) _) .nil)) rfl
    | some A =>
      exact Json.Format.reads_object
        (.cons rfl rfl (Json.Field.of_reads (Json.takeString_reads _) _)
          (.cons rfl rfl (Json.Field.of_reads (hlist R) _)
            (.cons rfl rfl (Json.Field.of_reads (hlist A) _) .nil))) rfl

/-- **A batch arrives with what arrives of its sentences.** -/
theorem FlushRequest.take_reads (r : FlushRequest) :
    take.Reads r.toJson.tokens
      ⟨r.clientId, r.retractions.map Sentence.onWire, r.assertions.map Sentence.onWire⟩ :=
  reads_partial r.clientId (some r.retractions) (some r.assertions)

/-- The answer to a flush arrives as it is. -/
theorem FlushResponse.take_reads (r : FlushResponse) : take.Reads r.toJson.tokens r := by
  refine Json.Format.reads_object
    (.cons rfl rfl (Json.Field.of_reads (Json.takeString_reads _) _)
      (.cons rfl rfl (Json.Field.of_reads (Json.takeNat_reads _) _)
        (.cons rfl rfl (Json.Field.of_reads (Json.takeNat_reads _) _) .nil))) ?_
  rfl

/-- The answer to a request to forget arrives as it is. -/
theorem ForgetResponse.take_reads (r : ForgetResponse) : take.Reads r.toJson.tokens r := by
  refine Json.Format.reads_object
    (.cons rfl rfl (Json.Field.of_reads (Json.takeString_reads _) _)
      (.cons rfl rfl (Json.Field.of_reads (Json.takeNat_reads _) _) .nil)) ?_
  rfl

/-- What to forget arrives as it is, also if no name is given. -/
theorem ForgetParams.take_reads (p : ForgetParams) : take.Reads p.toJson.tokens p := by
  obtain ⟨clientId, name⟩ := p
  cases name with
  | none =>
    exact Json.Format.reads_object
      (.cons rfl rfl (Json.Field.of_reads (Json.takeString_reads _) _) .nil) rfl
  | some n =>
    have hname : Json.takeString?.Reads [.scalar (.string n)] (some n) := fun _ => rfl
    exact Json.Format.reads_object
      (.cons rfl rfl (Json.Field.of_reads (Json.takeString_reads _) _)
        (.cons rfl rfl (Json.Field.of_reads hname _) .nil)) rfl

/-- The answer of failure arrives as it is. -/
theorem ErrorResponse.take_reads (r : ErrorResponse) : take.Reads r.toJson.tokens r :=
  Json.Format.reads_object
    (.cons rfl rfl (Json.Field.of_reads (Json.takeString_reads _) _)
      (.cons rfl rfl (Json.Field.of_reads (Json.takeString_reads _) _) .nil)) rfl

end Blackboard
