import Blackboard.Proofs.Solving

/-!
# Queries are joins

Solving a query tries the rows of as many facts as there are patterns and keeps those whose matches
from left to right go through (`Store.solve_eq`). A row goes through exactly if there is one assignment
under which every pattern fits its fact (`Store.Answers`).

**The solutions of a query stand for the rows that answer it, each row once and in the order of
places** (`Store.select_joins`).
-/

namespace Blackboard

/-! ## 1. Values of ground terms -/

theorem Value.exists_ofTerm {t : Term} (h : t.isGround = true) :
    ∃ v, Value.ofTerm t = .ok v ∧ v.toTerm = t := by
  cases t with
  | identifier name => exact ⟨.identifier name, rfl, rfl⟩
  | word text => exact ⟨.word text, rfl, rfl⟩
  | literal value => exact ⟨.literal value, rfl, rfl⟩
  | blobRef id => exact ⟨.blobRef id, rfl, rfl⟩
  | «variable» _ => cases h
  | wildcard => cases h
  | hole => cases h

/-- A solution shows the terms that bindings hold. -/
def Solution.Shows (solution : Solution) (b : Bindings) : Prop :=
  solution.entries.map (fun e => (e.1, e.2.toTerm)) = b.entries

theorem Solution.exists_ofBindings {b : Bindings} (h : ∀ e ∈ b.entries, e.2.isGround = true) :
    ∃ solution, Solution.ofBindings b = .ok solution ∧ solution.Shows b := by
  obtain ⟨es⟩ := b
  have hes : ∃ vs, Solution.ofEntries es = .ok vs ∧ vs.map (fun e => (e.1, e.2.toTerm)) = es := by
    induction es with
    | nil => exact ⟨[], rfl, rfl⟩
    | cons e es ih =>
      obtain ⟨v, hv, hterm⟩ := Value.exists_ofTerm (h e List.mem_cons_self)
      obtain ⟨vs, hvs, hterms⟩ := ih fun d hd => h d (List.mem_cons_of_mem _ hd)
      refine ⟨(e.1, v) :: vs, ?_, by simp [hterm, hterms]⟩
      simp [Solution.ofEntries, hv, hvs, bind, Except.bind, pure, Except.pure]
  obtain ⟨vs, hvs, hterms⟩ := hes
  exact ⟨⟨vs⟩, by simp [Solution.ofBindings, hvs, bind, Except.bind, pure, Except.pure], hterms⟩

/-! ## 2. The rows that answer a query -/

namespace Store

/-- The fact at a place of the store. -/
def factAt (s : Store) (i : Nat) : Fact := s.facts.values[i]?.getD default

/-- The terms of the facts at the given places. -/
def termsAt (s : Store) (places : List Nat) : List Sentence :=
  places.map fun i => (s.factAt i).terms

/-- The facts at the given places answer the patterns: there is one for each pattern, and under one
    assignment of ground terms every pattern fits its fact. -/
def Answers (s : Store) (patterns : List Sentence) (places : List Nat) : Prop :=
  places.length = patterns.length ∧ (∀ i ∈ places, i < s.size) ∧
    ∃ σ : Assignment, (∀ name, (σ name).isGround = true) ∧
      List.Forall₂ (Sentence.Fits σ) patterns (s.termsAt places)

/-- Every variable stands in its first place, with the term of the fact in that place. -/
def BindsFirst (s : Store) (patterns : List Sentence) (places : List Nat) (b : Bindings) : Prop :=
  b.keys = (patterns.flatMap Sentence.varNames).eraseDups ∧
    ∀ name, b.get? name =
      lookupEntry name (Sentence.occurrencesEach patterns (s.termsAt places))

theorem values_eq_map_factAt (s : Store) : s.facts.values = (List.range s.size).map s.factAt := by
  have hsize : s.size = s.facts.values.length := by simp [size, OrderedMap.size, OrderedMap.values]
  apply List.ext_getElem
  · simp [hsize]
  · intro i hi _
    simp [factAt, hi]

theorem factAt_mem {s : Store} {i : Nat} (hi : i < s.size) : s.factAt i ∈ s.facts.values := by
  rw [values_eq_map_factAt]
  exact List.mem_map_of_mem (List.mem_range.mpr hi)

/-- A row that goes through leaves behind the bindings of the first places. -/
theorem bindsFirst_of_matchedEach {s : Store} {patterns : List Sentence} {places : List Nat}
    (h : s.Answers patterns places) {e : Env}
    (he : Sentence.matchedEach patterns (s.termsAt places) .empty = some e) :
    s.BindsFirst patterns places e.bindings := by
  obtain ⟨_, _, σ, _, hfits⟩ := h
  have hocc : e = Env.noted (Sentence.occurrencesEach patterns (s.termsAt places)) :=
    Sentence.eq_note_of_matchedEach he
  constructor
  · rw [Env.keys_bindings, hocc, Env.names_noted, eraseDups_eraseDups,
      Sentence.names_occurrencesEach hfits]
  · intro name
    rw [Env.get?_bindings, hocc, Env.lookup_noted]

section Row

variable {s : Store} (hs : Sound (fun f => f.hasNaN = false) s) {patterns : List Sentence}
  {places : List Nat}

include hs

theorem isGround_termsAt (hplaces : ∀ i ∈ places, i < s.size) :
    ∀ f ∈ s.termsAt places, f.isGround = true := by
  intro f hf
  obtain ⟨i, hi, rfl⟩ := List.mem_map.mp hf
  exact hs.isGround_of_mem (factAt_mem (hplaces i hi))

/-- What the matches of a row bind is ground and no NaN. -/
theorem bound_of_matchedEach (hplaces : ∀ i ∈ places, i < s.size) {e : Env}
    (h : Sentence.matchedEach patterns (s.termsAt places) .empty = some e) {name : String}
    {t : Term} (ht : e.lookup name = some t) : t.isGround = true ∧ t.isNaN = false := by
  refine Sentence.plain_of_matchedEach (fun f hf => ?_) h ht
  obtain ⟨i, hi, rfl⟩ := List.mem_map.mp hf
  have hmem := factAt_mem (hplaces i hi)
  exact ⟨hs.isGround_of_mem hmem, hs.holds_of_mem hmem⟩

/-- **The matches of a row go through exactly if the row answers the query.** -/
theorem answers_iff_matchedEach (hlen : places.length = patterns.length)
    (hplaces : ∀ i ∈ places, i < s.size) :
    s.Answers patterns places ↔
      (Sentence.matchedEach patterns (s.termsAt places) .empty).isSome = true := by
  rw [Option.isSome_iff_exists]
  constructor
  · rintro ⟨_, _, σ, _, hfits⟩
    obtain ⟨e, he, _⟩ := Sentence.matchedEach_iff.mpr ⟨Env.agrees_empty σ, hfits⟩
    exact ⟨e, he⟩
  · rintro ⟨e, he⟩
    -- unbound variables may stand for anything
    let σ : Assignment := fun name => (e.lookup name).getD (.word "")
    have hagrees : e.Agrees σ := by
      intro name t ht
      simp only [σ, ht, Option.getD_some]
      exact Term.equal_self (bound_of_matchedEach hs hplaces he ht).2
    refine ⟨hlen, hplaces, σ, fun name => ?_, (Sentence.matchedEach_iff.mp ⟨e, he, hagrees⟩).2⟩
    cases hl : e.lookup name with
    | none => simp [σ, hl, Term.isGround]
    | some t => simpa [σ, hl] using (bound_of_matchedEach hs hplaces he hl).1

/-- The places of the rows that go through, and the bindings that they leave behind. -/
theorem exists_selectBindings (hholes : ∀ p ∈ patterns, p.hasHoles = false) :
    ∃ (answers : List (List Nat)) (found : List Bindings),
      answers.Pairwise (· < ·) ∧ (∀ is, is ∈ answers ↔ s.Answers patterns is) ∧
      s.selectBindings patterns = .ok found ∧
      List.Forall₂ (s.BindsFirst patterns) answers found ∧
      ∀ b ∈ found, ∀ e ∈ b.entries, e.2.isGround = true := by
  let go : List Nat → Option Env := fun is =>
    Sentence.matchedEach patterns (s.termsAt is) .empty
  let candidates := rows (List.range s.size) patterns.length
  have hcandidate : ∀ is, is ∈ candidates ↔
      is.length = patterns.length ∧ ∀ i ∈ is, i < s.size := by
    intro is
    simp only [candidates, mem_rows, List.mem_range]
  have hsolve : solve s.facts.values patterns .empty = .ok (candidates.filterMap go) := by
    rw [solve_eq (fun f hf => hs.isGround_of_mem hf) hholes Env.isGround_empty,
      values_eq_map_factAt, rows_map, List.filterMap_map]
    simp [candidates, go, termsAt, Function.comp_def]
  refine ⟨candidates.filter fun is => (go is).isSome,
    (candidates.filterMap go).map Env.bindings, ?_, ?_, ?_, ?_, ?_⟩
  · exact (pairwise_rows List.pairwise_lt_range _).filter _
  · intro is
    rw [List.mem_filter, hcandidate]
    constructor
    · rintro ⟨⟨hlen, his⟩, hgo⟩
      exact (answers_iff_matchedEach hs hlen his).mpr hgo
    · intro h
      exact ⟨⟨h.1, h.2.1⟩, (answers_iff_matchedEach hs h.1 h.2.1).mp h⟩
  · rw [selectBindings, hsolve]
    rfl
  · rw [List.forall₂_map_right_iff]
    refine (forall₂_filter_filterMap go candidates).imp fun is e hkept => ?_
    obtain ⟨his, hgo⟩ := hkept
    obtain ⟨hlen, hbound⟩ := (hcandidate is).mp his
    have hanswers := (answers_iff_matchedEach hs hlen hbound).mpr (Option.isSome_of_eq_some hgo)
    exact bindsFirst_of_matchedEach hanswers hgo
  · intro b hb
    obtain ⟨e, he, rfl⟩ := List.mem_map.mp hb
    obtain ⟨is, his, hgo⟩ := List.mem_filterMap.mp he
    have hground := Sentence.isGround_of_matchedEach Env.isGround_empty
      (isGround_termsAt hs ((hcandidate is).mp his).2) hgo
    intro entry hentry
    exact hground entry (List.mem_reverse.mp (OrderedMap.mem_of_mem_ofList hentry))

end Row

/-- A query is answered with bindings of distinct names to terms of stored facts. -/
theorem Sound.exists_found {P : Sentence → Prop} {s : Store} (hs : Sound P s)
    {patterns : List Sentence} (hholes : ∀ p ∈ patterns, p.hasHoles = false) :
    ∃ found, s.selectBindings patterns = .ok found ∧ ∀ b ∈ found, b.keys.Nodup ∧
      ∀ e ∈ b.entries, ∃ f ∈ s.facts.values, e.2 ∈ f.terms := by
  have hsolve := solve_eq (fun f hf => hs.isGround_of_mem hf) hholes Env.isGround_empty
  rw [selectBindings, hsolve]
  refine ⟨_, rfl, fun b hb => ?_⟩
  obtain ⟨e, he, rfl⟩ := List.mem_map.mp hb
  obtain ⟨r, hr, hmatched⟩ := List.mem_filterMap.mp he
  have hkeys : e.bindings.keys.Nodup := OrderedMap.nodup_keys_ofList _
  refine ⟨hkeys, fun d hd => ?_⟩
  -- what a name is bound to stands in its first place
  have hlookup : e.lookup d.1 = some d.2 := by
    rw [← Env.get?_bindings]
    exact OrderedMap.get?_of_mem hkeys hd
  obtain ⟨f, hf, hd⟩ := Sentence.mem_of_matchedEach hmatched hlookup
  obtain ⟨fact, hfact, rfl⟩ := List.mem_map.mp hf
  exact ⟨fact, (mem_rows.mp hr).2 fact hfact, hd⟩

/-- Selecting shows what the bindings hold. -/
theorem exists_select {s : Store} {patterns : List Sentence} {found : List Bindings}
    (hfound : s.selectBindings patterns = .ok found)
    (hground : ∀ b ∈ found, ∀ e ∈ b.entries, e.2.isGround = true) :
    ∃ solutions, s.select patterns = .ok solutions ∧
      List.Forall₂ (fun b solution => solution.Shows b) found solutions := by
  obtain ⟨solutions, hok, hshows⟩ := exists_mapM_eq_ok fun b hb =>
    Solution.exists_ofBindings (hground b hb)
  exact ⟨solutions, by rw [select, hfound]; exact hok, hshows⟩

/-- The solutions of a query show the environments of the rows that go through. -/
theorem Sound.exists_shown {P : Sentence → Prop} {s : Store} (hs : Sound P s)
    {patterns : List Sentence} (hholes : ∀ p ∈ patterns, p.hasHoles = false) :
    ∃ solutions, s.select patterns = .ok solutions ∧
      List.Forall₂ (fun (e : Env) (solution : Solution) => solution.Shows e.bindings)
        ((rows s.facts.values patterns.length).filterMap fun r =>
          Sentence.matchedEach patterns (r.map Fact.terms) .empty) solutions := by
  have hsolve := solve_eq (fun f hf => hs.isGround_of_mem hf) hholes Env.isGround_empty
  obtain ⟨found, hfound, hentries⟩ := hs.exists_found hholes
  have hground : ∀ b ∈ found, ∀ e ∈ b.entries, e.2.isGround = true := by
    intro b hb e he
    obtain ⟨f, hf, hterm⟩ := (hentries b hb).2 e he
    exact List.all_eq_true.mp (hs.isGround_of_mem hf) e.2 hterm
  obtain ⟨solutions, hselect, hshows⟩ := exists_select hfound hground
  rw [selectBindings, hsolve] at hfound
  cases hfound
  exact ⟨solutions, hselect, List.forall₂_map_left_iff.mp hshows⟩

/-- **A query answers with the rows of facts that fit its patterns under one assignment**, in the
    order of their places and each row once; a solution shows, for every variable, the term in its
    first place. Nothing that a query does is a fault. -/
theorem select_joins (history : List Command)
    (hNaN : ∀ c ∈ history, ∀ f ∈ c.asserted, f.hasNaN = false) (patterns : List Sentence)
    (hholes : ∀ p ∈ patterns, p.hasHoles = false) :
    ∃ (answers : List (List Nat)) (found : List Bindings) (solutions : List Solution),
      answers.Pairwise (· < ·) ∧
      (∀ is, is ∈ answers ↔ (empty.after history).Answers patterns is) ∧
      (empty.after history).selectBindings patterns = .ok found ∧
      List.Forall₂ ((empty.after history).BindsFirst patterns) answers found ∧
      (empty.after history).select patterns = .ok solutions ∧
      List.Forall₂ (fun b solution => solution.Shows b) found solutions := by
  have hs : Sound (fun f => f.hasNaN = false) (empty.after history) :=
    after_sound sound_empty fun c hc f hf _ => hNaN c hc f hf
  obtain ⟨answers, found, hsorted, hanswers, hfound, hbinds, hground⟩ :=
    exists_selectBindings hs hholes
  obtain ⟨solutions, hselect, hshows⟩ := exists_select hfound hground
  exact ⟨answers, found, solutions, hsorted, hanswers, hfound, hbinds, hselect, hshows⟩

/-- Two facts are joined by a variable that both patterns share. -/
theorem select_joins_shared_variable :
    let history : List Command :=
      [.assert "a" [.identifier "x", .word " ", .number .zero],
        .assert "b" [.number .zero, .word " ", .identifier "y"]]
    let patterns : List Sentence :=
      [[.variable "who", .word " ", .variable "n"], [.variable "n", .wildcard, .variable "whom"]]
    (∀ c ∈ history, ∀ f ∈ c.asserted, f.hasNaN = false) ∧
    (∀ p ∈ patterns, p.hasHoles = false) ∧
    ∃ (answers : List (List Nat)) (found : List Bindings) (solutions : List Solution),
      answers.Pairwise (· < ·) ∧
      (∀ is, is ∈ answers ↔ (empty.after history).Answers patterns is) ∧
      (empty.after history).selectBindings patterns = .ok found ∧
      List.Forall₂ ((empty.after history).BindsFirst patterns) answers found ∧
      (empty.after history).select patterns = .ok solutions ∧
      List.Forall₂ (fun b solution => solution.Shows b) found solutions :=
  ⟨by decide, by decide, select_joins _ (by decide) _ (by decide)⟩

end Store

end Blackboard
