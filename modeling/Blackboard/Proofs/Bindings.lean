import Blackboard.Match.Env
import Mathlib.Data.List.Induction

/-!
# The bindings of an environment

An environment is read in two ways: `Env.lookup` stops at the latest frame of a name, and
`Env.bindings` goes through the frames from the earliest on. The two agree (`Env.get?_bindings`),
and the names of the bindings are those of the frames, each where it stands first
(`Env.keys_bindings`).

`Env.noted` is the environment that a row of occurrences leaves behind when a name is bound at its
first occurrence only.
-/

namespace Blackboard

/-! ## 1. First occurrences -/

section EraseDups

variable {α : Type} [DecidableEq α]

/-- An element at the end stays if it stands nowhere before. -/
theorem eraseDups_concat (l : List α) (a : α) :
    (l ++ [a]).eraseDups = if a ∈ l then l.eraseDups else l.eraseDups ++ [a] := by
  rw [List.eraseDups_append]
  by_cases h : a ∈ l
  · have hrest : [a].removeAll l = [] := by simp [List.removeAll, h]
    simp [hrest, h]
  · have hrest : [a].removeAll l = [a] := by simp [List.removeAll, h]
    simp [hrest, h, List.eraseDups_cons]

theorem eraseDups_eraseDups (l : List α) : l.eraseDups.eraseDups = l.eraseDups := by
  induction l using List.reverseRecOn with
  | nil => rfl
  | append_singleton l a ih =>
    rw [eraseDups_concat]
    split
    · exact ih
    · rename_i ha
      rw [eraseDups_concat, if_neg (fun h => ha (List.mem_eraseDups.mp h)), ih]

end EraseDups

/-! ## 2. Maps of lists of entries -/

namespace OrderedMap

variable {κ α : Type} [DecidableEq κ]

theorem ofList_concat (es : List (κ × α)) (e : κ × α) :
    ofList (es ++ [e]) = (ofList es).insert e.1 e.2 := by
  simp [ofList]

/-- The keys of a list of entries stand where they stand first in the list. -/
theorem keys_ofList (es : List (κ × α)) : (ofList es).keys = (es.map Prod.fst).eraseDups := by
  induction es using List.reverseRecOn with
  | nil => rfl
  | append_singleton es e ih =>
    rw [ofList_concat, keys_insert, ih, List.map_append, List.map_singleton, eraseDups_concat]
    simp only [List.mem_eraseDups]

/-- Of the entries with the same key the last one counts. -/
theorem get?_ofList (es : List (κ × α)) (k : κ) :
    (ofList es).get? k = lookupEntry k es.reverse := by
  induction es using List.reverseRecOn with
  | nil => rfl
  | append_singleton es e ih =>
    rw [ofList_concat, get?_insert, ih, List.reverse_concat]
    rfl

theorem nodup_keys_ofList (es : List (κ × α)) : (ofList es).keys.Nodup := by
  induction es using List.reverseRecOn with
  | nil => exact List.nodup_nil
  | append_singleton es e ih =>
    rw [ofList_concat]
    exact nodup_keys_insert ih e.1 e.2

theorem mem_of_mem_ofList {es : List (κ × α)} {e : κ × α} (h : e ∈ (ofList es).entries) :
    e ∈ es := by
  induction es using List.reverseRecOn with
  | nil => cases h
  | append_singleton es d ih =>
    rw [ofList_concat] at h
    rcases mem_of_mem_insert h with rfl | h
    · simp
    · exact List.mem_append_left _ (ih h)

end OrderedMap

/-! ## 3. The two views -/

namespace Env

/-- The names of the frames, in the order in which they were bound. -/
def names (e : Env) : List String := e.frames.reverse.map Prod.fst

@[simp] theorem lookup_empty (name : String) : empty.lookup name = none := rfl

@[simp] theorem lookup_bind (e : Env) (name : String) (t : Term) (m : String) :
    (e.bind name t).lookup m = if m = name then some t else e.lookup m := rfl

@[simp] theorem names_bind (e : Env) (name : String) (t : Term) :
    (e.bind name t).names = e.names ++ [name] := by
  simp [names, bind]

/-- **The bindings give every name the term that it was bound to last.** -/
theorem get?_bindings (e : Env) (name : String) : e.bindings.get? name = e.lookup name := by
  rw [bindings, OrderedMap.get?_ofList, List.reverse_reverse, lookup]

/-- **The bindings stand in the order in which the names were first bound.** -/
theorem keys_bindings (e : Env) : e.bindings.keys = e.names.eraseDups :=
  OrderedMap.keys_ofList _

/-! ## 4. Binding at the first occurrence -/

/-- Binds a name unless it is bound. -/
def note (e : Env) (b : String × Term) : Env :=
  if (e.lookup b.1).isSome then e else e.bind b.1 b.2

/-- The environment that a row of occurrences leaves behind. -/
def noted (occurrences : List (String × Term)) : Env := occurrences.foldl note empty

theorem noted_concat (occurrences : List (String × Term)) (b : String × Term) :
    noted (occurrences ++ [b]) = (noted occurrences).note b := by
  simp [noted]

/-- A name that is not bound yet is bound to the term of its first occurrence. -/
theorem lookup_foldl_note (occurrences : List (String × Term)) (e : Env) (name : String) :
    (occurrences.foldl note e).lookup name = (e.lookup name).or (lookupEntry name occurrences) := by
  induction occurrences generalizing e with
  | nil => simp [lookupEntry]
  | cons b bs ih =>
    rw [List.foldl_cons, ih]
    by_cases hb : name = b.1
    · subst hb
      cases hl : e.lookup b.1 <;> simp [note, hl, lookupEntry]
    · cases hl : e.lookup b.1 <;> simp [note, hl, lookupEntry, hb]

/-- Every name is bound to the term of its first occurrence. -/
theorem lookup_noted (occurrences : List (String × Term)) (name : String) :
    (noted occurrences).lookup name = lookupEntry name occurrences := by
  rw [noted, lookup_foldl_note, lookup_empty, Option.none_or]

/-- The names are bound in the order of their first occurrences. -/
theorem names_noted (occurrences : List (String × Term)) :
    (noted occurrences).names = (occurrences.map Prod.fst).eraseDups := by
  induction occurrences using List.reverseRecOn with
  | nil => rfl
  | append_singleton bs b ih =>
    rw [noted_concat, note, lookup_noted, List.map_append, List.map_singleton, eraseDups_concat, ← ih]
    by_cases hb : b.1 ∈ bs.map Prod.fst
    · rw [if_pos hb, if_pos (OrderedMap.isSome_lookupEntry.mpr hb)]
    · rw [if_neg hb, if_neg (fun h => hb (OrderedMap.isSome_lookupEntry.mp h)), names_bind]

end Env

end Blackboard
