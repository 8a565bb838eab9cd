import Blackboard.Json.Decode
import Mathlib.Data.List.Forall2

/-!
# Readers read what was written

The tokens of a value are read as the value, whatever stands behind them: the machine that reads
values goes through them and ends up with the value in its place (`Json.take?_tokens`).

A reader READS a row of tokens as `a` if it answers `a` in front of anything and leaves that
behind (`Json.Reader.Reads`). Arrays and objects are rows of pieces with commas between them, each
of which changes a state (`Json.Chain`); what is read of the pieces is read of the row
(`Json.takeItems_pieces`). From that come arrays (`Json.reads_array`) and messages
(`Json.Format.reads_object`).
-/

namespace Blackboard.Json

/-! ## 1. Rows of tokens -/

theorem separatedBy_cons {α : Type} (sep : α) (p : List α) (ps : List (List α)) :
    separatedBy sep (p :: ps) = p ++ ps.flatMap (sep :: ·) := by
  induction ps generalizing p with
  | nil => simp [separatedBy]
  | cons q ps ih =>
    show p ++ sep :: separatedBy sep (q :: ps) = _
    rw [ih, List.flatMap_cons, List.cons_append]

/-- A token that a value can begin with. -/
def Token.opens : Token → Bool
  | openArray | openObject | scalar _ => true
  | _ => false

/-- A value begins with a token that opens it. -/
theorem exists_tokens_eq_cons (j : Json) : ∃ t ts, j.tokens = t :: ts ∧ t.opens = true := by
  cases j <;> exact ⟨_, _, rfl, rfl⟩

theorem tokens_array_append (vs : List Json) (rest : List Token) :
    (Json.array vs).tokens ++ rest =
      .openArray :: (separatedBy .comma (itemsTokens vs) ++ .closeArray :: rest) := by
  rw [tokens, List.append_cons (separatedBy .comma (itemsTokens vs))]
  rfl

theorem tokens_object_append (ms : List (String × Json)) (rest : List Token) :
    (Json.object ms).tokens ++ rest =
      .openObject :: (separatedBy .comma (membersTokens ms) ++ .closeObject :: rest) := by
  rw [tokens, List.append_cons (separatedBy .comma (membersTokens ms))]
  rfl

theorem itemsTokens_opens {vs : List Json} :
    ∀ p ∈ itemsTokens vs, ∃ t ts, p = t :: ts ∧ t.opens = true := by
  induction vs with
  | nil => exact fun _ h => absurd h List.not_mem_nil
  | cons v vs ih =>
    intro p hp
    rcases List.mem_cons.mp hp with rfl | hp
    · exact exists_tokens_eq_cons v
    · exact ih p hp

theorem membersTokens_opens {ms : List (String × Json)} :
    ∀ p ∈ membersTokens ms, ∃ t ts, p = t :: ts ∧ t.opens = true := by
  induction ms with
  | nil => exact fun _ h => absurd h List.not_mem_nil
  | cons m ms ih =>
    intro p hp
    rcases List.mem_cons.mp hp with rfl | hp
    · exact ⟨_, _, rfl, rfl⟩
    · exact ih p hp

/-! ## 2. Values -/

/-- In front of a value, the place of the first item is a place for any value. -/
theorem run_itemOrEnd {t : Token} (ht : t.opens = true) (around : List Layer) (ts : List Token) :
    (ReadState.itemOrEnd around).run id (t :: ts) =
      (ReadState.value (.item [] :: around)).run id (t :: ts) := by
  cases t with
  | closeArray => cases ht
  | _ => rfl

mutual

/-- The machine goes through the tokens of a value and puts it into its place. -/
theorem run_tokens : ∀ (j : Json) (around : List Layer) (rest : List Token),
    (ReadState.value around).run id (j.tokens ++ rest) = (deliver j around).run id rest
  | .null, _, _ => rfl
  | .bool _, _, _ => rfl
  | .number _, _, _ => rfl
  | .string _, _, _ => rfl
  | .array [], _, _ => rfl
  | .array (v :: vs), around, rest => by
    obtain ⟨t, ts, htokens, ht⟩ := exists_tokens_eq_cons v
    have hitems := run_items vs v [] around rest
    rw [tokens_array_append, itemsTokens, separatedBy_cons, List.append_assoc]
    show (ReadState.itemOrEnd around).run id _ = _
    rw [htokens, List.cons_append, run_itemOrEnd ht, ← List.cons_append, ← htokens, run_tokens v]
    exact hitems
  | .object [], _, _ => rfl
  | .object ((k, v) :: ms), around, rest => by
    have hmembers := run_members ms k v [] around rest
    rw [tokens_object_append, membersTokens, separatedBy_cons, List.append_assoc]
    show (ReadState.value (.member [] k :: around)).run id (v.tokens ++ _) = _
    rw [run_tokens v]
    exact hmembers

/-- The machine goes through the items of an array behind the one that was read last. -/
theorem run_items : ∀ (vs : List Json) (v : Json) (before : List Json) (around : List Layer)
    (rest : List Token),
    (ReadState.separator v (.item before) around).run id
        ((itemsTokens vs).flatMap (.comma :: ·) ++ .closeArray :: rest) =
      (deliver (.array (before.reverse ++ v :: vs)) around).run id rest
  | [], v, before, around, rest => by
    show (deliver (.array (v :: before).reverse) around).run id rest = _
    rw [List.reverse_cons]
  | w :: ws, v, before, around, rest => by
    have hitems := run_items ws w (v :: before) around rest
    rw [itemsTokens, List.flatMap_cons, List.cons_append, List.cons_append, List.append_assoc]
    show (ReadState.value (.item (v :: before) :: around)).run id _ = _
    rw [run_tokens w]
    rw [List.reverse_cons, List.append_assoc] at hitems
    exact hitems

/-- The machine goes through the members of an object behind the one that was read last. -/
theorem run_members : ∀ (ms : List (String × Json)) (k : String) (v : Json)
    (before : List (String × Json)) (around : List Layer) (rest : List Token),
    (ReadState.separator v (.member before k) around).run id
        ((membersTokens ms).flatMap (.comma :: ·) ++ .closeObject :: rest) =
      (deliver (.object (before.reverse ++ (k, v) :: ms)) around).run id rest
  | [], k, v, before, around, rest => by
    show (deliver (.object ((k, v) :: before).reverse) around).run id rest = _
    rw [List.reverse_cons]
  | (l, w) :: ms, k, v, before, around, rest => by
    have hmembers := run_members ms l w ((k, v) :: before) around rest
    rw [membersTokens, List.flatMap_cons]
    simp only [List.cons_append, List.append_assoc]
    show (ReadState.value (.member ((k, v) :: before) l :: around)).run id _ = _
    rw [run_tokens w]
    rw [List.reverse_cons, List.append_assoc] at hmembers
    exact hmembers

end

/-- **The tokens of a value are read as the value.** -/
theorem take?_tokens (j : Json) (rest : List Token) :
    take? (j.tokens ++ rest) = some (j, rest) := by
  rw [take?, run_tokens]
  cases rest <;> rfl

/-! ## 3. Rows of pieces -/

variable {α σ δ : Type}

/-- The reader answers `a` in front of anything, and leaves that behind. -/
def Reader.Reads (take : Reader α) (ts : List Token) (a : α) : Prop :=
  ∀ rest, take (ts ++ rest) = .ok (a, rest)

theorem Reader.Reads.whole {take : Reader α} {ts : List Token} {a : α} (h : take.Reads ts a) :
    take.whole ts = .ok a := by
  have hend := h []
  rw [List.append_nil] at hend
  rw [Reader.whole, hend]
  rfl

/-- Pieces that are read one after another, each from the state that the one before led to. -/
inductive Chain (item : σ → Reader σ) : σ → List (List Token) → σ → Prop where
  | nil {s : σ} : Chain item s [] s
  | cons {s s' s'' : σ} {p : List Token} {ps : List (List Token)} :
    (item s).Reads p s' → Chain item s' ps s'' → Chain item s (p :: ps) s''

/-- A token that closes a row. -/
structure Closes (isEnd : Token → Bool) (close : Token) : Prop where
  ends : isEnd close = true
  ne_comma : close ≠ .comma
  not_opens : ∀ t, t.opens = true → isEnd t = false

theorem closes_array : Closes Token.closesArray .closeArray where
  ends := rfl
  ne_comma := nofun
  not_opens t ht := by cases t <;> first | rfl | cases ht

theorem closes_object : Closes Token.closesObject .closeObject where
  ends := rfl
  ne_comma := nofun
  not_opens t ht := by cases t <;> first | rfl | cases ht

section Rows

variable {isEnd : Token → Bool} {close : Token} {item : σ → Reader σ}

theorem takeMore_pieces (hclose : Closes isEnd close) {s s' : σ} {ps : List (List Token)}
    (h : Chain item s ps s') {fuel : Nat} (hfuel : ps.length < fuel) (rest : List Token) :
    takeMore isEnd item fuel s (ps.flatMap (.comma :: ·) ++ close :: rest) = .ok (s', rest) := by
  induction h generalizing fuel with
  | nil =>
    obtain ⟨n, rfl⟩ : ∃ n, fuel = n + 1 := ⟨fuel - 1, by simp at hfuel; omega⟩
    rw [List.flatMap_nil, List.nil_append]
    cases close with
    | comma => exact absurd rfl hclose.ne_comma
    | _ => simp [takeMore, hclose.ends]
  | @cons s s' s'' p ps hp _ ih =>
    obtain ⟨n, rfl⟩ : ∃ n, fuel = n + 1 := ⟨fuel - 1, by simp at hfuel; omega⟩
    rw [List.flatMap_cons, List.cons_append, List.cons_append, List.append_assoc, takeMore, hp]
    exact ih (by simpa using hfuel)

theorem length_le_flatMap_cons {β : Type} (sep : β) (ps : List (List β)) :
    ps.length ≤ (ps.flatMap (sep :: ·)).length := by
  induction ps with
  | nil => exact Nat.le_refl _
  | cons p ps ih =>
    rw [List.flatMap_cons, List.length_append, List.length_cons, List.length_cons]
    omega

/-- **What is read of the pieces one after another is read of the row.** -/
theorem takeItems_pieces (hclose : Closes isEnd close) {s s' : σ} {ps : List (List Token)}
    (h : Chain item s ps s') (hopens : ∀ p ∈ ps, ∃ t ts, p = t :: ts ∧ t.opens = true)
    (rest : List Token) :
    takeItems isEnd item s (separatedBy .comma ps ++ close :: rest) = .ok (s', rest) := by
  cases h with
  | nil => simp [separatedBy, takeItems, hclose.ends]
  | @cons _ s₁ _ p ps hp hps =>
    obtain ⟨t, ts, rfl, ht⟩ := hopens p List.mem_cons_self
    have hlength : ps.length < (ps.flatMap (Token.comma :: ·) ++ close :: rest).length + 1 := by
      have hle := length_le_flatMap_cons Token.comma ps
      rw [List.length_append]
      omega
    have hfirst := hp (ps.flatMap (.comma :: ·) ++ close :: rest)
    rw [List.cons_append] at hfirst
    rw [separatedBy_cons, List.append_assoc, List.cons_append, takeItems, hclose.not_opens t ht,
      hfirst]
    exact takeMore_pieces hclose hps hlength rest

end Rows

/-! ## 4. Arrays and messages -/

/-- An item is put in front of those that were read before. -/
def pushItem (take : Reader α) (before : List α) : Reader (List α) := fun ts => do
  let (a, ts) ← take ts
  return (a :: before, ts)

theorem pushItem_reads {take : Reader α} {ts : List Token} {a : α} (h : take.Reads ts a)
    (before : List α) : (pushItem take before).Reads ts (a :: before) := by
  intro rest
  show (take (ts ++ rest)).bind _ = _
  rw [h rest]
  rfl

/-- **An array is read if each of its items is.** -/
theorem reads_array {take : Reader α} {js : List Json} {as : List α}
    (h : List.Forall₂ (fun j a => take.Reads j.tokens a) js as) :
    (takeArray take).Reads (Json.array js).tokens as := by
  intro rest
  have hchain : ∀ before, Chain (pushItem take) before (itemsTokens js) (as.reverse ++ before) := by
    induction h with
    | nil => exact fun _ => .nil
    | @cons j a js as hj _ ih =>
      intro before
      rw [List.reverse_cons, List.append_assoc]
      exact .cons (pushItem_reads hj before) (ih _)
  have hitems := takeItems_pieces closes_array (hchain []) itemsTokens_opens rest
  rw [List.append_nil] at hitems
  rw [tokens_array_append]
  show (takeItems Token.closesArray (pushItem take) [] _).bind _ = _
  rw [hitems]
  show Except.ok (as.reverse.reverse, rest) = _
  rw [List.reverse_reverse]

namespace Format

/-- Members that lead a message from one draft to another: each of them is a field that is not set
    yet, and its value is read. -/
inductive Fills (f : Format δ α) : δ → List (String × Json) → δ → Prop where
  | nil {d : δ} : Fills f d [] d
  | cons {d d' d'' : δ} {k : String} {v : Json} {ms : List (String × Json)} {field : Field δ} :
    f.fields.find? (·.name == k) = some field → field.isSet d = false →
      (field.take d).Reads v.tokens d' → Fills f d' ms d'' → Fills f d ((k, v) :: ms) d''

variable {f : Format δ α}

theorem Fills.chain {d d' : δ} {ms : List (String × Json)} (h : f.Fills d ms d') :
    Chain f.takeMember d (membersTokens ms) d' := by
  induction h with
  | nil => exact .nil
  | @cons d d' d'' k v ms field hfield hset hread _ ih =>
    refine .cons (fun rest => ?_) ih
    have hv := hread rest
    simp only [takeMember, takeKey, List.cons_append, takeColon, bind, Except.bind, hfield, hset]
    exact hv

/-- **A message is read if its members lead to a draft that makes it.** -/
theorem reads_object {ms : List (String × Json)} {d : δ} {a : α} (h : f.Fills f.start ms d)
    (hfinish : f.finish d = some a) : f.take.Reads (Json.object ms).tokens a := by
  intro rest
  have hmembers := takeItems_pieces closes_object h.chain membersTokens_opens rest
  rw [tokens_object_append]
  unfold Format.take takeDraft
  dsimp only
  rw [hmembers]
  simp only [bind, Except.bind, hfinish]
  rfl

end Format

end Blackboard.Json
