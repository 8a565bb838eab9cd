import Blackboard.Registry
import Mathlib.Data.List.Nodup
import Mathlib.Data.List.Range

/-!
# Who is connected

Ids that clients ask for and ids that are generated are of one kind, so the search for an id may
come upon candidates that are taken. It ends all the same: different numbers make different ids
(`Registry.generatedId_injective`), so the connected ids cannot take all of one more candidates than
there are of them (`Registry.exists_free`, `Registry.seeks_freshNumber`).

What is asked of a registry, one thing after another, is told by its log (`Registry.log`).
**Connected are those of whom the log says last that they joined** (`Registry.mem_after_iff`). The
candidates of all searches are the numbers from one on, none of them twice
(`Registry.candidates_eq`), so that what is given out only grows (`Registry.pairwise_numbers`).
-/

namespace Blackboard.Registry

/-! ## 1. Generated ids -/

/-- **Different numbers make different ids.** -/
theorem generatedId_injective : Function.Injective generatedId := by
  intro m n h
  have hchars : Nat.toDigits 10 m = Nat.toDigits 10 n := by
    simpa [generatedId, ← String.toList_inj] using h
  rw [← Nat.ofDigitChars_toDigits (b := 10) (n := m) (by decide) (by decide), hchars,
    Nat.ofDigitChars_toDigits (by decide) (by decide)]

/-- Of one more numbers than there are taken ids, one makes an id that is not taken. -/
theorem exists_free (taken : List String) (n : Nat) :
    ∃ m ∈ List.range' n (taken.length + 1), generatedId m ∉ taken := by
  by_contra hall
  simp only [not_exists, not_and, not_not] at hall
  have hsubset : (List.range' n (taken.length + 1)).map generatedId ⊆ taken := by
    intro id hid
    obtain ⟨m, hm, rfl⟩ := List.mem_map.mp hid
    exact hall m hm
  have hnodup : ((List.range' n (taken.length + 1)).map generatedId).Nodup :=
    (List.nodup_range' 1).map generatedId_injective
  have hlength := hnodup.length_le_of_subset hsubset
  rw [List.length_map, List.length_range'] at hlength
  exact absurd hlength (Nat.not_succ_le_self _)

/-! ## 2. The search -/

/-- The search for an id that is not taken: from a number on, candidates are tried one after
    another, and the first that is not taken is the one. -/
inductive Seeks (taken : List String) : Nat → List Nat → Nat → Prop
  | found {n : Nat} (h : generatedId n ∉ taken) : Seeks taken n [n] n
  | next {n k : Nat} {tried : List Nat} (h : generatedId n ∈ taken)
      (hs : Seeks taken (n + 1) tried k) : Seeks taken n (n :: tried) k

section Seeks

variable {taken : List String} {n k : Nat} {tried : List Nat}

theorem Seeks.free (h : Seeks taken n tried k) : generatedId k ∉ taken := by
  induction h with
  | found hfree => exact hfree
  | next _ _ ih => exact ih

/-- The search from a number comes to one outcome only. -/
theorem Seeks.unique (h : Seeks taken n tried k) {tried' : List Nat} {k' : Nat}
    (h' : Seeks taken n tried' k') : tried = tried' ∧ k = k' := by
  induction h generalizing tried' k' with
  | found hfree =>
    cases h' with
    | found => exact ⟨rfl, rfl⟩
    | next htaken => exact absurd htaken hfree
  | next htaken hs ih =>
    cases h' with
    | found hfree => exact absurd htaken hfree
    | next _ hs' =>
      obtain ⟨rfl, rfl⟩ := ih hs'
      exact ⟨rfl, rfl⟩

/-- A number whose id is not taken is come to if those of all numbers before it are. -/
theorem seeks_of_free (hfree : generatedId k ∉ taken) (hle : n ≤ k)
    (htaken : ∀ m, n ≤ m → m < k → generatedId m ∈ taken) :
    Seeks taken n (List.range' n (k + 1 - n)) k := by
  obtain ⟨d, rfl⟩ := Nat.exists_eq_add_of_le hle
  induction d generalizing n with
  | zero =>
    rw [show n + 0 + 1 - n = 1 by omega]
    exact .found hfree
  | succ d ih =>
    rw [show n + (d + 1) = n + 1 + d by omega] at hfree htaken ⊢
    rw [show n + 1 + d + 1 - n = (n + 1 + d + 1 - (n + 1)) + 1 by omega]
    refine .next (htaken n (Nat.le_refl n) (by omega)) (ih hfree (by omega) fun m hm => ?_)
    exact htaken m (by omega)

/-- **The search ends**, with the number of the registry, after at most one more candidates than
    there are connected ids. -/
theorem seeks_freshNumber (r : Registry) :
    Seeks r.connected r.nextNumber (List.range' r.nextNumber (r.freshNumber + 1 - r.nextNumber))
        r.freshNumber ∧
      r.nextNumber ≤ r.freshNumber ∧ r.freshNumber ≤ r.nextNumber + r.connected.length := by
  obtain ⟨m, hm, hfree⟩ := exists_free r.connected r.nextNumber
  have hfound : ((List.range' r.nextNumber (r.connected.length + 1)).find?
      fun n => !r.connected.contains (generatedId n)).isSome := by
    rw [List.find?_isSome]
    exact ⟨m, hm, by simpa using hfree⟩
  obtain ⟨k, hk⟩ := Option.isSome_iff_exists.mp hfound
  have hfresh : r.freshNumber = k := by
    rw [freshNumber, ← List.range'_eq_map_range, hk]
    rfl
  rw [List.find?_range'_eq_some, List.mem_range'_1] at hk
  obtain ⟨hfree, ⟨hle, hlt⟩, htaken⟩ := hk
  rw [hfresh]
  refine ⟨seeks_of_free (by simpa using hfree) hle fun j hj hjk => ?_, hle, by omega⟩
  simpa using htaken j hj hjk

end Seeks

/-! ## 3. The log -/

/-- What is asked of a registry. -/
inductive Call where
  | connect (id : Option String)
  | disconnect (id : String)
deriving Repr

/-- What the log tells: that an id has joined, or that it was freed. -/
inductive Event where
  | joined (id : String)
  | left (id : String)
deriving DecidableEq, Repr

/-- Carries out a call. -/
def step (r : Registry) : Call → Registry
  | .connect id => (r.connect id).2
  | .disconnect id => (r.disconnect id).2

/-- The registry after a row of calls. -/
def after (r : Registry) (calls : List Call) : Registry := calls.foldl step r

/-- What is told along a row of calls, each in the registry that it comes to. -/
def along {α : Type} (tell : Registry → Call → List α) (r : Registry) : List Call → List α
  | [] => []
  | c :: calls => tell r c ++ along tell (r.step c) calls

/-- What the log tells of a call. A call that is refused is not told of. -/
def events (r : Registry) : Call → List Event
  | .connect id =>
    match (r.connect id).1 with
    | .ok id => [.joined id]
    | .error _ => []
  | .disconnect id => [.left id]

/-- The log of a row of calls. -/
def log (r : Registry) (calls : List Call) : List Event := along events r calls

/-- Whether the last that a log says of an id is that it joined. -/
def Event.Stands (id : String) (log : List Event) : Prop :=
  ∃ past later, log = past ++ .joined id :: later ∧ .joined id ∉ later ∧ .left id ∉ later

section Log

variable {r : Registry} {c : Call} {id : String}

theorem along_append {α : Type} (tell : Registry → Call → List α) (r : Registry)
    (calls more : List Call) :
    along tell r (calls ++ more) = along tell r calls ++ along tell (r.after calls) more := by
  induction calls generalizing r with
  | nil => rfl
  | cons c calls ih => rw [List.cons_append, along, along, ih, List.append_assoc]; rfl

/-- The last event of a log decides of its own id, and of all others what was told before. -/
theorem Event.stands_concat {log : List Event} {e : Event} :
    Stands id (log ++ [e]) ↔ e = .joined id ∨ e ≠ .left id ∧ Stands id log := by
  constructor
  · rintro ⟨past, later, heq, hjoined, hleft⟩
    rcases List.eq_nil_or_concat' later with rfl | ⟨later, e', rfl⟩
    · exact .inl (List.singleton_inj.mp (List.append_inj' heq rfl).2)
    · rw [← List.cons_append, ← List.append_assoc] at heq
      obtain ⟨hlog, he⟩ := List.append_inj' heq rfl
      obtain rfl : e = e' := List.singleton_inj.mp he
      simp only [List.mem_append, List.mem_singleton, not_or] at hjoined hleft
      exact .inr ⟨Ne.symm hleft.2, past, later, hlog, hjoined.1, hleft.1⟩
  · intro h
    by_cases he : e = .joined id
    · exact ⟨log, [], by rw [he], List.not_mem_nil, List.not_mem_nil⟩
    · obtain ⟨hne, past, later, rfl, hjoined, hleft⟩ := h.resolve_left he
      refine ⟨past, later ++ [e], by simp, ?_, ?_⟩
      · simp [hjoined, Ne.symm he]
      · simp [hleft, Ne.symm hne]

theorem Event.not_stands_nil : ¬ Stands id [] := by
  rintro ⟨past, later, heq, -⟩
  simp at heq

/-- What a call does: nothing, or someone joins who was not connected, or an id is freed. -/
theorem step_cases (r : Registry) (c : Call) :
    (r.events c = [] ∧ (r.step c).connected = r.connected) ∨
      (∃ id, r.events c = [.joined id] ∧ id ∉ r.connected ∧
        (r.step c).connected = id :: r.connected) ∨
      ∃ id, r.events c = [.left id] ∧ (r.step c).connected = r.connected.erase id := by
  cases c with
  | disconnect id => exact .inr (.inr ⟨id, rfl, rfl⟩)
  | connect asked =>
    cases asked with
    | none => exact .inr (.inl ⟨_, rfl, (seeks_freshNumber r).1.free, rfl⟩)
    | some id =>
      by_cases hid : id ∈ r.connected
      · exact .inl (by simp [events, step, connect, hid])
      · exact .inr (.inl ⟨id, by simp [events, step, connect, hid]⟩)

theorem nodup_step (h : r.connected.Nodup) (c : Call) : (r.step c).connected.Nodup := by
  rcases r.step_cases c with ⟨-, hsame⟩ | ⟨id, -, hfree, hmore⟩ | ⟨id, -, hless⟩
  · rw [hsame]
    exact h
  · rw [hmore]
    exact List.nodup_cons.mpr ⟨hfree, h⟩
  · rw [hless]
    exact h.erase id

theorem nodup_after (h : r.connected.Nodup) (calls : List Call) :
    (r.after calls).connected.Nodup := by
  induction calls generalizing r with
  | nil => exact h
  | cons c calls ih => exact ih (nodup_step h c)

/-- After a call the ids of whom the log says so are connected if those were before it. -/
theorem mem_step_iff (h : r.connected.Nodup) {told : List Event}
    (htold : id ∈ r.connected ↔ Event.Stands id told) :
    id ∈ (r.step c).connected ↔ Event.Stands id (told ++ r.events c) := by
  rcases r.step_cases c with ⟨hnone, hsame⟩ | ⟨j, hjoined, -, hmore⟩ | ⟨j, hleft, hless⟩
  · rw [hnone, hsame, List.append_nil]
    exact htold
  · rw [hjoined, hmore, Event.stands_concat, List.mem_cons, ← htold]
    simp [eq_comm]
  · rw [hleft, hless, Event.stands_concat, h.mem_erase_iff, ← htold]
    simp [eq_comm]

/-- **Connected are those of whom the log says last that they joined.** -/
theorem mem_after_iff (calls : List Call) :
    id ∈ (empty.after calls).connected ↔ Event.Stands id (empty.log calls) := by
  induction calls using List.reverseRecOn with
  | nil => exact iff_of_false List.not_mem_nil Event.not_stands_nil
  | append_singleton calls c ih =>
    have hlog : empty.log (calls ++ [c]) = empty.log calls ++ (empty.after calls).events c := by
      rw [log, along_append]
      simp [along, log]
    have hafter : empty.after (calls ++ [c]) = (empty.after calls).step c := by simp [after]
    rw [hlog, hafter]
    exact mem_step_iff (nodup_after List.nodup_nil calls) ih

end Log

/-! ## 4. The numbers that are given out -/

/-- The candidates that a call tries. -/
def tried (r : Registry) : Call → List Nat
  | .connect none => List.range' r.nextNumber (r.freshNumber + 1 - r.nextNumber)
  | .connect (some _) | .disconnect _ => []

/-- The number that a call gives out, if it generates an id. -/
def given (r : Registry) : Call → List Nat
  | .connect none => [r.freshNumber]
  | .connect (some _) | .disconnect _ => []

/-- The candidates of all searches of a row of calls. -/
def candidates (r : Registry) (calls : List Call) : List Nat := along tried r calls

/-- All numbers that a row of calls gives out. -/
def numbers (r : Registry) (calls : List Call) : List Nat := along given r calls

section Numbers

theorem connect_some (r : Registry) (id : String) :
    r.connect (some id) =
      if id ∈ r.connected then (.error (.duplicateClientId id), r)
      else (.ok id, { r with connected := id :: r.connected }) := by
  simp [connect]

/-- A call goes on with the numbers where its candidates end. -/
theorem tried_eq (r : Registry) (c : Call) :
    r.tried c = List.range' r.nextNumber (r.tried c).length ∧
      (r.step c).nextNumber = r.nextNumber + (r.tried c).length := by
  cases c with
  | disconnect id => exact ⟨rfl, rfl⟩
  | connect asked =>
    cases asked with
    | none =>
      have hle := (seeks_freshNumber r).2.1
      simp only [tried, List.length_range', step, connect, true_and]
      omega
    | some id =>
      refine ⟨rfl, ?_⟩
      rw [step, connect_some]
      split <;> rfl

/-- **The candidates of all searches are consecutive numbers.** -/
theorem candidates_eq (r : Registry) (calls : List Call) :
    r.candidates calls = List.range' r.nextNumber (r.candidates calls).length ∧
      (r.after calls).nextNumber = r.nextNumber + (r.candidates calls).length := by
  induction calls generalizing r with
  | nil => exact ⟨rfl, rfl⟩
  | cons c calls ih =>
    obtain ⟨hfirst, hnext⟩ := r.tried_eq c
    obtain ⟨hrest, hlast⟩ := ih (r.step c)
    have hcons : r.candidates (c :: calls) = r.tried c ++ (r.step c).candidates calls := rfl
    rw [hnext] at hrest hlast
    constructor
    · rw [hcons, List.length_append, ← List.range'_append_1, ← hfirst, ← hrest]
    · rw [hcons, List.length_append, ← Nat.add_assoc]
      exact hlast

theorem along_sublist {α : Type} {tell tell' : Registry → Call → List α}
    (h : ∀ r c, (tell r c).Sublist (tell' r c)) (r : Registry) (calls : List Call) :
    (along tell r calls).Sublist (along tell' r calls) := by
  induction calls generalizing r with
  | nil => exact List.Sublist.refl _
  | cons c calls ih => exact (h r c).append (ih (r.step c))

/-- What is given out is among the candidates, in their order. -/
theorem numbers_sublist (r : Registry) (calls : List Call) :
    (r.numbers calls).Sublist (r.candidates calls) := by
  refine along_sublist (fun r c => ?_) r calls
  cases c with
  | disconnect id => exact List.Sublist.refl _
  | connect asked =>
    cases asked with
    | none =>
      have hle := (seeks_freshNumber r).2.1
      rw [given, tried, List.singleton_sublist, List.mem_range'_1]
      omega
    | some id => exact List.Sublist.refl _

/-- **What is given out only grows.** -/
theorem pairwise_numbers (r : Registry) (calls : List Call) :
    (r.numbers calls).Pairwise (· < ·) := by
  refine List.Pairwise.sublist (r.numbers_sublist calls) ?_
  rw [(r.candidates_eq calls).1]
  exact List.pairwise_lt_range' 1

end Numbers

/-- **The registry of clients.** After any row of calls, connected are exactly the ids of whom the
    log says last that they joined, each of them once. An id that is asked for is refused if it is
    connected, and then nothing changes; any other joins. A client that asks for none always joins:
    the search has one outcome and tries at most one more candidates than there are connected ids,
    and its number makes an id that is not connected. The candidates of all searches are the numbers
    from one on, each once, and the next search goes on behind them. So the numbers that are given
    out grow, and no id is generated twice. -/
theorem registry_after (calls : List Call) :
    let r := empty.after calls
    (r.connected.Nodup ∧ ∀ id, id ∈ r.connected ↔ ∃ past later,
        empty.log calls = past ++ .joined id :: later ∧ .joined id ∉ later ∧ .left id ∉ later) ∧
      (∀ id,
        (id ∈ r.connected → r.connect (some id) = (.error (.duplicateClientId id), r)) ∧
          (id ∉ r.connected →
            r.connect (some id) = (.ok id, { r with connected := id :: r.connected }))) ∧
      (∃ k, (∀ tried j, Seeks r.connected r.nextNumber tried j ↔
          tried = r.tried (.connect none) ∧ j = k) ∧
        (r.tried (.connect none)).length ≤ r.connected.length + 1 ∧
        generatedId k ∉ r.connected ∧ r.given (.connect none) = [k] ∧
        r.connect none = (.ok (generatedId k), ⟨generatedId k :: r.connected, k + 1⟩)) ∧
      (empty.numbers calls).Pairwise (· < ·) ∧
      ((empty.numbers calls).map generatedId).Nodup ∧
      (empty.candidates calls = List.range' 1 (empty.candidates calls).length ∧
        r.nextNumber = 1 + (empty.candidates calls).length) := by
  intro r
  have hgrow := empty.pairwise_numbers calls
  have hdistinct : (empty.numbers calls).Nodup := hgrow.imp Nat.ne_of_lt
  refine ⟨⟨nodup_after List.nodup_nil calls, fun id => mem_after_iff calls⟩, fun id => ⟨?_, ?_⟩, ?_,
    hgrow, hdistinct.map generatedId_injective, empty.candidates_eq calls⟩
  · intro hid
    rw [connect_some, if_pos hid]
  · intro hid
    rw [connect_some, if_neg hid]
  · obtain ⟨hseeks, hle, hbound⟩ := seeks_freshNumber r
    refine ⟨r.freshNumber, fun tried j => ⟨fun h => h.unique hseeks, ?_⟩, ?_, hseeks.free, rfl, rfl⟩
    · rintro ⟨rfl, rfl⟩
      exact hseeks
    · rw [tried, List.length_range']
      omega

/-- A taken id is passed over, and a freed one is not generated again. -/
example : empty.numbers [.connect (some "_2"), .connect none, .connect none, .disconnect "_1",
    .connect none] = [1, 3, 4] := by decide +kernel

end Blackboard.Registry
