import Blackboard.Proofs.Bindings
import Mathlib.Data.List.Basic

/-!
# Environments that branch

Environments are extended side by side and share what they have in common: a frame knows the frame
behind it, and binding makes one new frame. A `FramePool` holds all frames that were made, and an
environment is known by its latest frame.

* `FramePool.Built` says by which row of bindings an environment was built while other environments
  were built next to it. What is bound in front of one environment never shows in another one
  (`FramePool.Built.env_eq`).
* **The two views of an environment agree, and they are what its own row of bindings says**, whatever
  was bound on other branches (`Env.views_agree`): of the bindings of a name the latest one
  counts, and the names stand in the order of their first bindings.
-/

namespace Blackboard

/-! ## 1. One row of bindings -/

section FirstOccurrences

variable {α : Type} [DecidableEq α]

/-- Without their repetitions, elements stand in the order of their first occurrences. -/
theorem pairwise_eraseDups (l : List α) :
    l.eraseDups.Pairwise fun a b => l.idxOf a < l.idxOf b := by
  induction l using List.reverseRecOn with
  | nil => exact .nil
  | append_singleton l a ih =>
    have hbefore : l.eraseDups.Pairwise fun b c => (l ++ [a]).idxOf b < (l ++ [a]).idxOf c := by
      refine ih.imp_of_mem fun hb hc hlt => ?_
      rw [List.mem_eraseDups] at hb hc
      rwa [List.idxOf_append_of_mem hb, List.idxOf_append_of_mem hc]
    rw [eraseDups_concat]
    split
    · exact hbefore
    · rename_i ha
      refine List.pairwise_append.mpr ⟨hbefore, List.pairwise_singleton _ _, ?_⟩
      intro b hb c hc
      rw [List.mem_eraseDups] at hb
      rw [List.mem_singleton] at hc
      rw [hc, List.idxOf_append_of_mem hb, List.idxOf_append_of_notMem ha]
      exact Nat.lt_of_lt_of_le (List.idxOf_lt_length_iff.mpr hb) (Nat.le_add_right _ _)

end FirstOccurrences

/-- What is found under a key is the value of the first entry with that key. -/
theorem OrderedMap.lookupEntry_eq_some_iff {κ α : Type} [DecidableEq κ] {k : κ} {v : α}
    {es : List (κ × α)} :
    lookupEntry k es = some v ↔
      ∃ front back, es = front ++ (k, v) :: back ∧ ∀ e ∈ front, e.1 ≠ k := by
  induction es with
  | nil => simp [lookupEntry]
  | cons e es ih =>
    rw [lookupEntry]
    by_cases hk : k = e.1
    · rw [if_pos hk]
      constructor
      · intro h
        exact ⟨[], es, by rw [← Option.some.inj h, hk]; rfl, by simp⟩
      · rintro ⟨front, back, hes, hfront⟩
        cases front with
        | nil => rw [(List.cons.inj hes).1]
        | cons d front =>
          obtain ⟨rfl, -⟩ := List.cons.inj hes
          exact absurd hk.symm (hfront e List.mem_cons_self)
    · rw [if_neg hk, ih]
      constructor
      · rintro ⟨front, back, rfl, hfront⟩
        exact ⟨e :: front, back, rfl, List.forall_mem_cons.mpr ⟨fun heq => hk heq.symm, hfront⟩⟩
      · rintro ⟨front, back, hes, hfront⟩
        cases front with
        | nil => exact absurd (congrArg Prod.fst (List.cons.inj hes).1).symm hk
        | cons d front =>
          exact ⟨front, back, (List.cons.inj hes).2, fun c hc => hfront c (List.mem_cons_of_mem _ hc)⟩

namespace Env

/-- The environment that a row of bindings builds. -/
def bound (bs : List (String × Term)) : Env := bs.foldl (fun e b => e.bind b.1 b.2) empty

theorem bound_concat (bs : List (String × Term)) (b : String × Term) :
    bound (bs ++ [b]) = (bound bs).bind b.1 b.2 := by
  simp [bound]

theorem frames_bound (bs : List (String × Term)) : (bound bs).frames = bs.reverse := by
  induction bs using List.reverseRecOn with
  | nil => rfl
  | append_singleton bs b ih =>
    rw [bound_concat, List.reverse_concat, ← ih]
    rfl

/-- **What is looked up is the latest binding of the name.** -/
theorem lookup_bound_iff {bs : List (String × Term)} {name : String} {t : Term} :
    (bound bs).lookup name = some t ↔
      ∃ front back, bs = front ++ (name, t) :: back ∧ ∀ b ∈ back, b.1 ≠ name := by
  rw [lookup, frames_bound, OrderedMap.lookupEntry_eq_some_iff]
  constructor
  · rintro ⟨back, front, hbs, hback⟩
    refine ⟨front.reverse, back.reverse, ?_, fun b hb => hback b (List.mem_reverse.mp hb)⟩
    rw [← List.reverse_reverse bs, hbs]
    simp
  · rintro ⟨front, back, rfl, hback⟩
    exact ⟨back.reverse, front.reverse, by simp, fun b hb => hback b (List.mem_reverse.mp hb)⟩

theorem names_bound (bs : List (String × Term)) : (bound bs).names = bs.map Prod.fst := by
  rw [names, frames_bound, List.reverse_reverse]

/-- The bindings are what can be looked up. -/
theorem mem_bindings_iff {e : Env} {name : String} {t : Term} :
    (name, t) ∈ e.bindings.entries ↔ e.lookup name = some t := by
  rw [← get?_bindings]
  constructor
  · exact OrderedMap.get?_of_mem (OrderedMap.nodup_keys_ofList _)
  · exact OrderedMap.mem_of_get?

end Env

/-! ## 2. Shared frames -/

/-- A binding, and the frame behind it by its number: by how many frames were made before it. -/
structure Frame where
  name : String
  term : Term
  parent : Option Nat
deriving DecidableEq, Repr

/-- All frames that were made, the latest first. -/
structure FramePool where
  frames : List Frame
deriving DecidableEq, Repr

namespace FramePool

/-- No frames. -/
def empty : FramePool := ⟨[]⟩

/-- The number of frames. -/
def size (p : FramePool) : Nat := p.frames.length

/-- The bindings from a frame on, going from each frame to the one behind it. -/
def chain : List Frame → Option Nat → List (String × Term)
  | _, none => []
  | [], some _ => []
  | f :: older, some i =>
    if i = older.length then (f.name, f.term) :: chain older f.parent else chain older (some i)

/-- The environment with a latest frame, or the empty one. -/
def env (p : FramePool) (head : Option Nat) : Env := ⟨chain p.frames head⟩

/-- Binds a name in front of an environment: makes a frame, and gives the number of it. -/
def bind (p : FramePool) (head : Option Nat) (name : String) (t : Term) : FramePool × Option Nat :=
  (⟨⟨name, t, head⟩ :: p.frames⟩, some p.size)

/-- An environment was built by a row of bindings. Between them, bindings were made in front of
    other environments. -/
inductive Built : FramePool → Option Nat → List (String × Term) → Prop where
  | none (p : FramePool) : Built p none []
  | bind {p : FramePool} {head : Option Nat} {bs : List (String × Term)} (h : Built p head bs)
      (name : String) (t : Term) :
      Built (p.bind head name t).1 (p.bind head name t).2 (bs ++ [(name, t)])
  | elsewhere {p : FramePool} {head : Option Nat} {bs : List (String × Term)} (h : Built p head bs)
      (other : Option Nat) (name : String) (t : Term) : Built (p.bind other name t).1 head bs

@[simp] theorem chain_none (fs : List Frame) : chain fs none = [] := by
  cases fs <;> rfl

/-- A new frame is a binding in front of the environment that it was made for. -/
theorem env_bind_new (p : FramePool) (head : Option Nat) (name : String) (t : Term) :
    (p.bind head name t).1.env (p.bind head name t).2 = (p.env head).bind name t := by
  simp [env, bind, chain, size, Env.bind]

/-- **A new frame changes no environment of older frames.** -/
theorem env_bind_old {p : FramePool} {head : Option Nat} (hhead : ∀ i ∈ head, i < p.size)
    (other : Option Nat) (name : String) (t : Term) :
    (p.bind other name t).1.env head = p.env head := by
  cases head with
  | none => simp [env]
  | some i =>
    have hne : i ≠ p.frames.length := Nat.ne_of_lt (hhead i rfl)
    simp [env, bind, chain, hne]

section Built

variable {p : FramePool} {head : Option Nat} {bs : List (String × Term)}

/-- The frames of an environment were made. -/
theorem Built.lt_size (h : Built p head bs) : ∀ i ∈ head, i < p.size := by
  induction h with
  | none p => exact nofun
  | @bind p head bs h name t ih =>
    rintro i ⟨⟩
    exact Nat.lt_succ_self p.size
  | elsewhere h other name t ih =>
    intro i hi
    exact Nat.lt_succ_of_lt (ih i hi)

/-- **An environment is what its own row of bindings builds.** -/
theorem Built.env_eq (h : Built p head bs) : p.env head = .bound bs := by
  induction h with
  | none p => simp [env, Env.bound, Env.empty]
  | bind h name t ih => rw [env_bind_new, ih, Env.bound_concat]
  | elsewhere h other name t ih => rw [env_bind_old h.lt_size, ih]

end Built

/-- Every row of bindings builds an environment. -/
theorem exists_built (bs : List (String × Term)) : ∃ p head, Built p head bs := by
  induction bs using List.reverseRecOn with
  | nil => exact ⟨empty, none, .none _⟩
  | append_singleton bs b ih =>
    obtain ⟨p, head, h⟩ := ih
    exact ⟨_, _, h.bind b.1 b.2⟩

end FramePool

/-! ## 3. The two views -/

/-- **The two views of an environment agree**: the bindings are what can be looked up, and that is the
    latest binding of each name; the names are distinct and stand in the order of their first
    bindings. However the environment was built next to others, binding in front of it or of any
    other one makes one more environment and changes neither view. -/
theorem Env.views_agree (bs : List (String × Term)) :
    let e := bound bs
    (∀ name t, (name, t) ∈ e.bindings.entries ↔ e.lookup name = some t) ∧
      (∀ name t, e.lookup name = some t ↔
        ∃ front back, bs = front ++ (name, t) :: back ∧ ∀ b ∈ back, b.1 ≠ name) ∧
      e.bindings.keys.Nodup ∧ (∀ name, name ∈ e.bindings.keys ↔ name ∈ bs.map Prod.fst) ∧
      (e.bindings.keys.Pairwise fun m n =>
        (bs.map Prod.fst).idxOf m < (bs.map Prod.fst).idxOf n) ∧
      (∃ p head, FramePool.Built p head bs) ∧
      ∀ p head, FramePool.Built p head bs → p.env head = e ∧
        ∀ other name t,
          let later := p.bind other name t
          later.1.env later.2 = (p.env other).bind name t ∧
            (∀ m, (later.1.env head).lookup m = e.lookup m) ∧
            (later.1.env head).bindings = e.bindings := by
  intro e
  have hkeys : e.bindings.keys = (bs.map Prod.fst).eraseDups := by
    rw [keys_bindings, names_bound]
  refine ⟨fun name t => mem_bindings_iff, fun name t => lookup_bound_iff,
    OrderedMap.nodup_keys_ofList _, fun name => ?_, ?_, FramePool.exists_built bs,
    fun p head hbuilt => ⟨hbuilt.env_eq, fun other name t => ?_⟩⟩
  · rw [hkeys, List.mem_eraseDups]
  · rw [hkeys]
    exact pairwise_eraseDups _
  · have hold : (p.bind other name t).1.env head = e :=
      (FramePool.env_bind_old hbuilt.lt_size other name t).trans hbuilt.env_eq
    exact ⟨FramePool.env_bind_new p other name t, fun m => by rw [hold], by rw [hold]⟩

/-- Two branches in front of `x`, one of which binds `x` again: the name keeps its place. -/
example :
    let x := FramePool.empty.bind none "x" (.word "1")
    let left := x.1.bind x.2 "y" (.word "2")
    let right := left.1.bind x.2 "y" (.word "3")
    let again := right.1.bind left.2 "x" (.word "4")
    (again.1.env again.2).bindings.entries = [("x", .word "4"), ("y", .word "2")] ∧
      (again.1.env right.2).bindings.entries = [("x", .word "1"), ("y", .word "3")] ∧
      (again.1.env x.2).bindings.entries = [("x", .word "1")] := by
  decide

end Blackboard
