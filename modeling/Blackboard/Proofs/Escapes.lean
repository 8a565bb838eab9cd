import Blackboard.Proofs.Numerals
import Blackboard.Text.Escape

/-!
# Reading escapes back

A line feed and a tab are written as escapes, and a backslash is written as it is. So a text that
has a backslash in front of `n` or `t` is taken for one with an escape in it.

* Writing never matters to the reader: what is written of a text is read as the text itself would be
  (`unescape_escape_eq`). Hence only those texts are read back from which there is nothing to read
  (`unescape_eq_self_iff`).
* **A text is read back exactly if no backslash stands directly in front of `n` or `t`, and whatever
  was read is such a text** (`unescape_escape_iff`).
-/

namespace Blackboard

/-! ## 1. What was written -/

theorem of_mem_escape {cs : List Char} {c : Char} (h : c ∈ escape cs) :
    c ≠ '\n' ∧ c ≠ '\t' ∧ (c = '"' → c ∈ cs) := by
  induction cs using escape.induct with
  | case1 => cases h
  | case2 cs ih =>
    simp only [escape, List.mem_cons] at h
    rcases h with rfl | rfl | h
    · exact ⟨by decide, by decide, fun hc => absurd hc (by decide)⟩
    · exact ⟨by decide, by decide, fun hc => absurd hc (by decide)⟩
    · obtain ⟨hnl, htab, hquote⟩ := ih h
      exact ⟨hnl, htab, fun hc => List.mem_cons_of_mem _ (hquote hc)⟩
  | case3 cs ih =>
    simp only [escape, List.mem_cons] at h
    rcases h with rfl | rfl | h
    · exact ⟨by decide, by decide, fun hc => absurd hc (by decide)⟩
    · exact ⟨by decide, by decide, fun hc => absurd hc (by decide)⟩
    · obtain ⟨hnl, htab, hquote⟩ := ih h
      exact ⟨hnl, htab, fun hc => List.mem_cons_of_mem _ (hquote hc)⟩
  | case4 d cs hd hd' ih =>
    rw [escape.eq_4 _ _ hd hd'] at h
    rcases List.mem_cons.mp h with rfl | h
    · exact ⟨hd, hd', fun _ => List.mem_cons_self⟩
    · obtain ⟨hnl, htab, hquote⟩ := ih h
      exact ⟨hnl, htab, fun hc => List.mem_cons_of_mem _ (hquote hc)⟩

theorem head?_escape {cs : List Char} {c : Char} (hc : c ≠ '\\')
    (h : (escape cs).head? = some c) : cs.head? = some c := by
  unfold escape at h
  split at h
  · cases h
  · exact absurd (Option.some.inj h).symm hc
  · exact absurd (Option.some.inj h).symm hc
  · exact h

/-- Puts a text in the place of every occurrence of a character. -/
def replaceChar (c : Char) (text cs : List Char) : List Char :=
  cs.flatMap fun d => if d = c then text else [d]

/-- Escapes are written by two replacements, first that of line feeds and then that of tabs. No tab
    comes in by the first one. -/
theorem escape_eq_replaceChar (cs : List Char) :
    escape cs = replaceChar '\t' ['\\', 't'] (replaceChar '\n' ['\\', 'n'] cs) := by
  simp only [replaceChar, List.flatMap_assoc]
  induction cs using escape.induct with
  | case1 => rfl
  | case2 cs ih => simp [escape, ih]
  | case3 cs ih => simp [escape, ih]
  | case4 c cs hnl htab ih =>
    rw [escape.eq_4 c cs hnl htab, List.flatMap_cons, if_neg hnl, ← ih, List.flatMap_singleton,
      if_neg htab]
    rfl

/-! ## 2. What was read -/

theorem quote_mem_of_unescape {cs : List Char} (h : '"' ∈ unescape cs) : '"' ∈ cs := by
  induction cs using unescape.induct with
  | case1 => cases h
  | case2 cs ih =>
    simp only [unescape, List.mem_cons] at h
    rcases h with h | h
    · cases h
    · simp [ih h]
  | case3 cs ih =>
    simp only [unescape, List.mem_cons] at h
    rcases h with h | h
    · cases h
    · simp [ih h]
  | case4 c cs hn ht ih =>
    rw [unescape.eq_4 c cs hn ht] at h
    rcases List.mem_cons.mp h with h | h
    · rw [h]
      exact List.mem_cons_self
    · exact List.mem_cons_of_mem _ (ih h)

theorem head?_unescape {cs : List Char} {c : Char} (hnl : c ≠ '\n') (htab : c ≠ '\t')
    (h : (unescape cs).head? = some c) : cs.head? = some c := by
  unfold unescape at h
  split at h
  · cases h
  · exact absurd (Option.some.inj h).symm hnl
  · exact absurd (Option.some.inj h).symm htab
  · exact h

theorem escape_unescape {cs : List Char} (h : ∀ c ∈ cs, c ≠ '\n' ∧ c ≠ '\t') :
    escape (unescape cs) = cs := by
  induction cs using unescape.induct with
  | case1 => rfl
  | case2 cs ih => rw [unescape, escape, ih fun d hd => h d (by simp [hd])]
  | case3 cs ih => rw [unescape, escape, ih fun d hd => h d (by simp [hd])]
  | case4 c cs hn ht ih =>
    obtain ⟨hnl, htab⟩ := h c List.mem_cons_self
    rw [unescape.eq_4 c cs hn ht, escape.eq_4 _ _ hnl htab,
      ih fun d hd => h d (List.mem_cons_of_mem _ hd)]

/-! ## 3. Texts without escapes -/

/-- Whether a backslash stands directly in front of `n` or `t`. -/
def hasEscape : List Char → Bool
  | [] => false
  | c :: cs => c == '\\' && beginsWith (fun d => d == 'n' || d == 't') cs || hasEscape cs

/-- No backslash stands directly in front of `n` or `t`. -/
def EscapeFree (cs : List Char) : Prop := ∀ u c v, cs = u ++ '\\' :: c :: v → c ≠ 'n' ∧ c ≠ 't'

theorem hasEscape_eq_false_iff {cs : List Char} : hasEscape cs = false ↔ EscapeFree cs := by
  rw [EscapeFree]
  induction cs with
  | nil => simp [hasEscape]
  | cons d cs ih =>
    rw [hasEscape, Bool.or_eq_false_iff, ih]
    constructor
    · rintro ⟨hfirst, hrest⟩ u c v heq
      cases u with
      | nil =>
        obtain ⟨rfl, rfl⟩ := List.cons.inj heq
        simpa using hfirst
      | cons e u => exact hrest u c v (List.cons.inj heq).2
    · intro h
      refine ⟨?_, fun u c v heq => h (d :: u) c v (by rw [heq]; rfl)⟩
      rw [Bool.and_eq_false_iff]
      by_cases hd : d = '\\'
      · right
        cases cs with
        | nil => rfl
        | cons c v =>
          obtain ⟨hn, ht⟩ := h [] c v (by rw [hd]; rfl)
          simp [hn, ht]
      · left
        simpa using hd

/-- A character at which no escape begins. -/
theorem hasEscape_cons_of_free {c : Char} {cs : List Char}
    (hn : ∀ ds, c = '\\' → cs ≠ 'n' :: ds) (ht : ∀ ds, c = '\\' → cs ≠ 't' :: ds) :
    hasEscape (c :: cs) = hasEscape cs := by
  have hfirst : (c == '\\' && beginsWith (fun d => d == 'n' || d == 't') cs) = false := by
    rw [Bool.and_eq_false_iff]
    by_cases hc : c = '\\'
    · right
      cases cs with
      | nil => rfl
      | cons d ds =>
        have hd : d ≠ 'n' := fun heq => hn ds hc (by rw [heq])
        have hd' : d ≠ 't' := fun heq => ht ds hc (by rw [heq])
        simp [hd, hd']
    · left
      simpa using hc
  rw [hasEscape, hfirst, Bool.false_or]

/-- No backslash of what was read stands in front of `n` or `t`. -/
theorem hasEscape_unescape (cs : List Char) : hasEscape (unescape cs) = false := by
  induction cs using unescape.induct with
  | case1 => rfl
  | case2 cs ih => simp [unescape, hasEscape, ih]
  | case3 cs ih => simp [unescape, hasEscape, ih]
  | case4 c cs hn ht ih =>
    -- a letter at the front of what was read was at the front before
    have hhead : ∀ d ds, d ≠ '\n' → d ≠ '\t' → unescape cs = d :: ds → ∃ es, cs = d :: es := by
      intro d ds hnl htab heq
      exact List.head?_eq_some_iff.mp (head?_unescape hnl htab (by rw [heq]; rfl))
    rw [unescape.eq_4 c cs hn ht, hasEscape_cons_of_free, ih]
    · intro ds hc heq
      obtain ⟨es, hes⟩ := hhead 'n' ds (by decide) (by decide) heq
      exact hn es hc hes
    · intro ds hc heq
      obtain ⟨es, hes⟩ := hhead 't' ds (by decide) (by decide) heq
      exact ht es hc hes

/-- Only a text without escapes is read as it stands. -/
theorem unescape_eq_self_iff {cs : List Char} : unescape cs = cs ↔ hasEscape cs = false := by
  induction cs using unescape.induct with
  | case1 => exact iff_of_true rfl rfl
  | case2 cs ih => simp [unescape, hasEscape]
  | case3 cs ih => simp [unescape, hasEscape]
  | case4 c cs hn ht ih =>
    rw [unescape.eq_4 c cs hn ht, hasEscape_cons_of_free hn ht, ← ih, List.cons_inj_right]

/-! ## 4. Reading what was written -/

/-- **What is written of a text is read as the text itself is read.** The escapes of line feeds and
    tabs are read back, and a backslash stays in front of what it stood in front of. -/
theorem unescape_escape_eq (cs : List Char) : unescape (escape cs) = unescape cs := by
  induction cs using unescape.induct with
  | case1 => rfl
  | case2 cs ih => simp [escape, unescape, ih]
  | case3 cs ih => simp [escape, unescape, ih]
  | case4 c cs hn ht ih =>
    rw [unescape.eq_4 c cs hn ht, ← ih]
    by_cases hnl : c = '\n'
    · rw [hnl, escape, unescape]
    · by_cases htab : c = '\t'
      · rw [htab, escape, unescape]
      · have hhead : ∀ d ds, d ≠ '\\' → escape cs = d :: ds → ∃ es, cs = d :: es := by
          intro d ds hd heq
          exact List.head?_eq_some_iff.mp (head?_escape hd (by rw [heq]; rfl))
        rw [escape.eq_4 _ _ hnl htab, unescape.eq_4]
        · intro ds hc heq
          obtain ⟨es, hes⟩ := hhead 'n' ds (by decide) heq
          exact hn es hc hes
        · intro ds hc heq
          obtain ⟨es, hes⟩ := hhead 't' ds (by decide) heq
          exact ht es hc hes

/-- What has no escapes in it is read again when it is escaped. -/
theorem unescape_escape {cs : List Char} (h : hasEscape cs = false) :
    unescape (escape cs) = cs := by
  rw [unescape_escape_eq, unescape_eq_self_iff.mpr h]

/-- **A text is read back exactly if no backslash in it stands directly in front of `n` or `t`.** What
    was read from the body of a string is such a text. Escapes are written by replacing the two
    characters, wherever they stand. -/
theorem unescape_escape_iff (s body : List Char) :
    escape s = replaceChar '\t' ['\\', 't'] (replaceChar '\n' ['\\', 'n'] s) ∧
      (unescape (escape s) = s ↔ EscapeFree s) ∧ EscapeFree (unescape body) ∧
      unescape (escape (unescape body)) = unescape body := by
  have hfree := hasEscape_unescape body
  refine ⟨escape_eq_replaceChar s, ?_, hasEscape_eq_false_iff.mp hfree, unescape_escape hfree⟩
  rw [unescape_escape_eq, unescape_eq_self_iff, hasEscape_eq_false_iff]

/-- A backslash in front of a line feed is kept apart from it, and one in front of `n` is not. -/
example :
    unescape (escape ['\\', '\n', 'n']) = ['\\', '\n', 'n'] ∧
      unescape (escape ['\\', '\\', 'n']) = ['\\', '\n'] :=
  ⟨rfl, rfl⟩

end Blackboard
