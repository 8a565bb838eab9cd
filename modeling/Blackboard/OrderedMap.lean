/-!
# Ordered maps

A map that keeps its keys in the order in which they came in. Inserting under a key that is there
replaces the value and leaves the key in its place; erasing a key leaves the others in their order.

The view of a map is its list of entries. Every operation is described by what it does to the keys
(`keys_insert`, `keys_erase`) and by what can then be looked up (`get?_insert`, `get?_erase`).
-/

namespace Blackboard

/-- The value of the first entry with the given key. -/
def lookupEntry {κ α : Type} [DecidableEq κ] (k : κ) : List (κ × α) → Option α
  | [] => none
  | (k', v) :: rest => if k = k' then some v else lookupEntry k rest

/-- A map by its entries, in order. -/
structure OrderedMap (κ α : Type) where
  entries : List (κ × α)
deriving Repr

namespace OrderedMap

variable {κ α : Type} [DecidableEq κ]

/-- The map without entries. -/
def empty : OrderedMap κ α := ⟨[]⟩

/-- The keys in their order. -/
def keys (m : OrderedMap κ α) : List κ := m.entries.map Prod.fst

/-- The values in the order of their keys. -/
def values (m : OrderedMap κ α) : List α := m.entries.map Prod.snd

/-- The number of entries. -/
def size (m : OrderedMap κ α) : Nat := m.entries.length

/-- Whether there are no entries. -/
def isEmpty (m : OrderedMap κ α) : Bool := m.entries.isEmpty

/-- The value under a key. -/
def get? (m : OrderedMap κ α) (k : κ) : Option α := lookupEntry k m.entries

/-- Whether a key is there. -/
def contains (m : OrderedMap κ α) (k : κ) : Bool := (m.get? k).isSome

/-- Puts a value under a key of a list of entries. -/
def insertEntry (k : κ) (v : α) : List (κ × α) → List (κ × α)
  | [] => [(k, v)]
  | (k', v') :: rest => if k = k' then (k, v) :: rest else (k', v') :: insertEntry k v rest

/-- Puts a value under a key: in its place if the key is there, at the end otherwise. -/
def insert (m : OrderedMap κ α) (k : κ) (v : α) : OrderedMap κ α := ⟨insertEntry k v m.entries⟩

/-- Takes a key away. -/
def erase (m : OrderedMap κ α) (k : κ) : OrderedMap κ α :=
  ⟨m.entries.filter fun e => e.1 != k⟩

/-- The map of a list of entries, of which later ones replace the values of earlier ones. -/
def ofList (es : List (κ × α)) : OrderedMap κ α := es.foldl (fun m e => m.insert e.1 e.2) empty

/-! ## Look-ups and keys -/

theorem lookupEntry_insertEntry (k : κ) (v : α) (es : List (κ × α)) (j : κ) :
    lookupEntry j (insertEntry k v es) = if j = k then some v else lookupEntry j es := by
  induction es with
  | nil => simp [insertEntry, lookupEntry]
  | cons e es ih =>
    obtain ⟨k', v'⟩ := e
    by_cases hk : k = k'
    · subst hk
      by_cases hj : j = k <;> simp [insertEntry, lookupEntry, hj]
    · by_cases hj : j = k'
      · subst hj
        simp [insertEntry, lookupEntry, hk, Ne.symm hk]
      · simp [insertEntry, lookupEntry, hk, hj, ih]

@[simp] theorem get?_insert (m : OrderedMap κ α) (k : κ) (v : α) (j : κ) :
    (m.insert k v).get? j = if j = k then some v else m.get? j :=
  lookupEntry_insertEntry k v m.entries j

@[simp] theorem get?_erase (m : OrderedMap κ α) (k j : κ) :
    (m.erase k).get? j = if j = k then none else m.get? j := by
  obtain ⟨es⟩ := m
  show lookupEntry j (es.filter fun e => e.1 != k) = if j = k then none else lookupEntry j es
  induction es with
  | nil => simp [lookupEntry]
  | cons e es ih =>
    obtain ⟨k', v'⟩ := e
    by_cases hk : k' = k
    · subst hk
      by_cases hj : j = k'
      · subst hj
        simpa using ih
      · simpa [lookupEntry, hj] using ih
    · by_cases hj : j = k'
      · subst hj
        simp [lookupEntry, hk]
      · simpa [lookupEntry, hk, hj] using ih

theorem keys_insert (m : OrderedMap κ α) (k : κ) (v : α) :
    (m.insert k v).keys = if k ∈ m.keys then m.keys else m.keys ++ [k] := by
  obtain ⟨es⟩ := m
  show (insertEntry k v es).map Prod.fst =
    if k ∈ es.map Prod.fst then es.map Prod.fst else es.map Prod.fst ++ [k]
  induction es with
  | nil => simp [insertEntry]
  | cons e es ih =>
    obtain ⟨k', v'⟩ := e
    by_cases hk : k = k'
    · simp [insertEntry, hk]
    · simp only [insertEntry, hk, if_false, List.map_cons, ih, List.mem_cons, false_or]
      by_cases hm : k ∈ es.map Prod.fst <;> simp [hm]

theorem keys_erase (m : OrderedMap κ α) (k : κ) : (m.erase k).keys = m.keys.filter (· != k) := by
  simp [erase, keys, List.filter_map, Function.comp_def]

/-! ## Entries -/

theorem mem_entries_erase {m : OrderedMap κ α} {k : κ} {e : κ × α} :
    e ∈ (m.erase k).entries ↔ e ∈ m.entries ∧ e.1 ≠ k := by
  simp [erase]

theorem mem_of_mem_insertEntry {k : κ} {v : α} {es : List (κ × α)} {e : κ × α}
    (h : e ∈ insertEntry k v es) : e = (k, v) ∨ e ∈ es := by
  induction es with
  | nil => exact Or.inl (List.mem_singleton.mp h)
  | cons d es ih =>
    unfold insertEntry at h
    split at h
    · rcases List.mem_cons.mp h with rfl | h
      · exact Or.inl rfl
      · exact Or.inr (List.mem_cons_of_mem _ h)
    · rcases List.mem_cons.mp h with rfl | h
      · exact Or.inr List.mem_cons_self
      · exact (ih h).imp_right (List.mem_cons_of_mem _)

/-- After an insertion an entry is the new one or was there before. -/
theorem mem_of_mem_insert {m : OrderedMap κ α} {k : κ} {v : α} {e : κ × α}
    (h : e ∈ (m.insert k v).entries) : e = (k, v) ∨ e ∈ m.entries :=
  mem_of_mem_insertEntry h

theorem mem_of_lookupEntry {k : κ} {v : α} {es : List (κ × α)} (h : lookupEntry k es = some v) :
    (k, v) ∈ es := by
  induction es with
  | nil => cases h
  | cons d es ih =>
    unfold lookupEntry at h
    split at h
    · rename_i hk
      subst hk
      cases h
      exact List.mem_cons_self
    · exact List.mem_cons_of_mem _ (ih h)

theorem lookupEntry_of_mem {k : κ} {v : α} {es : List (κ × α)} (hn : (es.map Prod.fst).Nodup)
    (h : (k, v) ∈ es) : lookupEntry k es = some v := by
  induction es with
  | nil => cases h
  | cons d es ih =>
    simp only [List.map_cons, List.nodup_cons] at hn
    rcases List.mem_cons.mp h with rfl | h
    · simp [lookupEntry]
    · have hk : k ≠ d.1 := fun e => hn.1 (e ▸ List.mem_map_of_mem h)
      simp [lookupEntry, hk, ih hn.2 h]

theorem isSome_lookupEntry {k : κ} {es : List (κ × α)} :
    (lookupEntry k es).isSome = true ↔ k ∈ es.map Prod.fst := by
  induction es with
  | nil => simp [lookupEntry]
  | cons d es ih =>
    by_cases hk : k = d.1
    · simp [lookupEntry, hk]
    · simp [lookupEntry, hk, ih]

/-- What is found under a key is an entry. -/
theorem mem_of_get? {m : OrderedMap κ α} {k : κ} {v : α} (h : m.get? k = some v) :
    (k, v) ∈ m.entries :=
  mem_of_lookupEntry h

/-- Where the keys are distinct, every entry is found under its key. -/
theorem get?_of_mem {m : OrderedMap κ α} {k : κ} {v : α} (hn : m.keys.Nodup)
    (h : (k, v) ∈ m.entries) : m.get? k = some v :=
  lookupEntry_of_mem hn h

theorem insertEntry_insertEntry (k : κ) (v w : α) (es : List (κ × α)) :
    insertEntry k w (insertEntry k v es) = insertEntry k w es := by
  induction es with
  | nil => simp [insertEntry]
  | cons e es ih => by_cases hk : k = e.1 <;> simp [insertEntry, hk, ih]

/-- Of two values that are put under the same key the second one counts. -/
theorem insert_insert (m : OrderedMap κ α) (k : κ) (v w : α) :
    (m.insert k v).insert k w = m.insert k w :=
  congrArg OrderedMap.mk (insertEntry_insertEntry k v w m.entries)

/-- Maps with the same distinct keys, in the same order, under which the same is found are equal. -/
theorem ext_get? {m m' : OrderedMap κ α} (hn : m.keys.Nodup) (hkeys : m.keys = m'.keys)
    (hget : ∀ k, m.get? k = m'.get? k) : m = m' := by
  obtain ⟨es⟩ := m
  obtain ⟨es'⟩ := m'
  congr 1
  replace hn : (es.map Prod.fst).Nodup := hn
  replace hkeys : es.map Prod.fst = es'.map Prod.fst := hkeys
  replace hget : ∀ k, lookupEntry k es = lookupEntry k es' := hget
  refine List.ext_getElem (by simpa using congrArg List.length hkeys) fun i hi hi' => ?_
  have hkey : es[i].1 = es'[i].1 := by
    have hboth := congrArg (fun ks => ks[i]?) hkeys
    simpa [hi, hi'] using hboth
  have hfound : lookupEntry es[i].1 es = some es[i].2 := lookupEntry_of_mem hn (List.getElem_mem hi)
  have hfound' : lookupEntry es'[i].1 es' = some es'[i].2 :=
    lookupEntry_of_mem (hkeys ▸ hn) (List.getElem_mem hi')
  rw [hget, hkey, hfound'] at hfound
  exact Prod.ext hkey (Option.some.inj hfound).symm

theorem nodup_keys_insert {m : OrderedMap κ α} (h : m.keys.Nodup) (k : κ) (v : α) :
    (m.insert k v).keys.Nodup := by
  rw [keys_insert]
  split
  · exact h
  · rename_i hk
    rw [List.nodup_append]
    refine ⟨h, by simp, ?_⟩
    intro a ha b hb hab
    rw [List.mem_singleton] at hb
    exact hk (hb ▸ hab ▸ ha)

theorem nodup_keys_erase {m : OrderedMap κ α} (h : m.keys.Nodup) (k : κ) :
    (m.erase k).keys.Nodup := by
  rw [keys_erase]
  exact h.filter _

end OrderedMap

end Blackboard
