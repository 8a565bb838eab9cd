import Blackboard.Proofs.Evidence
import Blackboard.Proofs.Refusals
import Blackboard.Proofs.Separated
import Mathlib.Data.List.TakeWhile

/-!
# Blanks take a text apart

What stands on one side of a blank has no say in how the other side is read, and the blanks
themselves count as one space.

* A blank goes on with no name, no keyword and no numeral, and no sign or mark stands behind one. So
  tokens are cut alike whether a text ends or a blank comes next (`Token.Tile.append_blank`), and
  only a string, which may have blanks in it, could reach across.
* Trimming goes by the same blanks: it takes those at the ends and leaves those in the middle
  (`exists_trimBlanks_append`).
* **Two texts with blanks between them are read one after the other**
  (`Sentence.parseChars_append`), and so **a text is read block by block**
  (`Sentence.parseChars_eq_blocks`). What the blanks are and how many does not matter.
-/

namespace Blackboard

/-! ## 1. Nothing looks past a blank -/

theorem isDigit_of_isBlank {c : Char} (h : isBlank c = true) : c.isDigit = false := by
  refine Bool.eq_false_iff.mpr fun hdigit => ?_
  rw [isBlank_of_isDigit hdigit] at h
  cases h

theorem ofChar?_of_isBlank {c : Char} (h : isBlank c = true) : Sign.ofChar? c = none := by
  refine Option.eq_none_iff_forall_ne_some.mpr fun s hs => ?_
  rw [Sign.ofChar?_eq_some hs] at h
  cases s <;> cases h

theorem not_mark_of_isBlank {c : Char} (h : isBlank c = true) :
    c ≠ '.' ∧ ¬(c = 'e' ∨ c = 'E') := by
  refine ⟨?_, ?_⟩
  · rintro rfl
    cases h
  · rintro (rfl | rfl)
    · cases h
    · cases h

section Behind

variable {x : Char} (hx : isBlank x = true) (rest us : List Char)

include hx

/-- A text begins as it does in front of a blank, as far as characters of other kinds go. -/
theorem beginsWith_append_blank {p : Char → Bool} (hp : ∀ c, isBlank c = true → p c = false) :
    beginsWith p (rest ++ x :: us) = beginsWith p rest := by
  cases rest with
  | nil => exact hp x hx
  | cons c cs => rfl

theorem takeWhile_append_blank {p : Char → Bool} (hp : ∀ c, isBlank c = true → p c = false) :
    (rest ++ x :: us).takeWhile p = rest.takeWhile p := by
  induction rest with
  | nil => simp [hp x hx]
  | cons c cs ih => rw [List.cons_append, List.takeWhile_cons, List.takeWhile_cons, ih]

theorem Sign.scan_append_blank :
    Sign.scan (rest ++ x :: us) = ((Sign.scan rest).1, (Sign.scan rest).2 ++ x :: us) := by
  cases rest with
  | nil => simp [scan, ofChar?_of_isBlank hx]
  | cons c cs =>
    rw [List.cons_append, scan, scan]
    cases ofChar? c <;> rfl

theorem Exponent.scan?_append_blank : Exponent.scan? (rest ++ x :: us) = Exponent.scan? rest := by
  cases rest with
  | nil => exact scan?_eq_none_of_head us (not_mark_of_isBlank hx).2
  | cons c cs =>
    rw [List.cons_append, scan?, scan?, Sign.scan_append_blank hx]
    simp only [takeWhile_append_blank hx _ us fun _ => isDigit_of_isBlank]

theorem Numeral.fractionDigits_append_blank :
    Numeral.fractionDigits (rest ++ x :: us) = Numeral.fractionDigits rest := by
  cases rest with
  | nil => exact fractionDigits_eq_nil us (not_mark_of_isBlank hx).1
  | cons c cs =>
    by_cases hc : c = '.'
    · subst hc
      exact takeWhile_append_blank hx cs us fun _ => isDigit_of_isBlank
    · rw [List.cons_append, fractionDigits_eq_nil _ hc, fractionDigits_eq_nil _ hc]

theorem Numeral.endsBefore_append_blank (n : Numeral) :
    n.endsBefore (rest ++ x :: us) = n.endsBefore rest := by
  rw [endsBefore, endsBefore, beginsWith_append_blank hx rest us fun _ => isDigit_of_isBlank,
    Exponent.scan?_append_blank hx, fractionDigits_append_blank hx]

theorem Token.isSome_markedAt?_of_blank : (Token.markedAt? (x :: us)).isSome = true := by
  rw [markedAt?_other us (isSigil_of_isBlank hx)]
  cases Keyword.scan? (x :: us) with
  | some k => rfl
  | none =>
    cases Numeral.scan? (x :: us) with
    | some n => rfl
    | none => simp [spaceAt?, hx]

namespace Token

variable {rest us}

/-- **A token that is no word stands before a text that goes on behind a blank**, unless it is blanks
    itself and the text goes on right behind it. -/
theorem Stands.append_blank {t : Token} (h : t.Stands rest) (hmarked : t.isMarked = true)
    (hlast : rest = [] → t.chars.getLast?.any isBlank = false) : t.Stands (rest ++ x :: us) := by
  have hname := beginsWith_append_blank hx rest us fun _ => isNameChar_of_isBlank
  cases t with
  | identifier name => exact ⟨h.1, hname.trans h.2⟩
  | keyword k => exact hname.trans h
  | numeral n => exact ⟨h.1, (Numeral.endsBefore_append_blank hx rest us n).trans h.2⟩
  | quoted body => exact h
  | «variable» name => exact ⟨h.1, h.2.1, hname.trans h.2.2⟩
  | wildcard => exact hname.trans h
  | hole => trivial
  | space blanks =>
    refine ⟨h.1, h.2.1, ?_⟩
    cases rest with
    | nil =>
      have hnone := hlast rfl
      rw [chars, (blank_ends_of_space h).2] at hnone
      cases hnone
    | cons c cs => exact h.2.2
  | word text => cases hmarked

/-- **Tokens without quotation marks are cut alike in front of a blank**, if they do not end in blanks
    themselves. -/
theorem Tile.append_blank {ts vs : List Token} (h : Tile ts) (hvs : Tile vs)
    (hspelling : spelling vs = x :: us) (hquote : '"' ∉ spelling ts)
    (hlast : (spelling ts).getLast?.any isBlank = false) : Tile (ts ++ vs) := by
  induction ts with
  | nil => exact hvs
  | cons t ts ih =>
    have hrest : spelling (ts ++ vs) = spelling ts ++ x :: us := by
      rw [spelling, List.flatMap_append, ← hspelling]
      rfl
    rw [spelling_cons, List.mem_append, not_or] at hquote
    have htail : (spelling ts).getLast?.any isBlank = false := by
      cases hnil : spelling ts with
      | nil => rfl
      | cons c cs =>
        rw [spelling_cons, hnil, List.getLast?_append_of_ne_nil _ (List.cons_ne_nil c cs)] at hlast
        exact hlast
    have htile := ih h.2 hquote.2 htail
    refine ⟨?_, htile⟩
    change t.Stands (spelling (ts ++ vs))
    rw [hrest]
    cases hmarked : t.isMarked with
    | true =>
      refine h.1.append_blank hx hmarked fun hnil => ?_
      rw [spelling_cons, hnil, List.append_nil] at hlast
      exact hlast
    | false =>
      cases t with
      | word text =>
        have hword := h.1
        -- behind the word the same marked token begins as before, or the blank does
        have hnext : (markedAt? (spelling ts ++ x :: us)).isSome = true := by
          cases ts with
          | nil => exact isSome_markedAt?_of_blank hx us
          | cons t' ts =>
            have hmarks := (wordChars_append_iff.mp hword.2).2 (spelling_ne_nil h.2)
            have hmarked' := isMarked_of_markedAt? h.2.1 hmarks
            rw [← hrest]
            exact Option.isSome_of_mem (markedAt?_of_stands hmarked' htile.1)
        refine word_stands_before hword (fun _ => hnext) (fun hname => ?_) ?_ (Or.inl ?_)
        · rw [beginsWith_append_blank hx _ us fun _ => isNameChar_of_isBlank]
          exact hname
        · rw [beginsWith_append_blank hx _ us fun _ => isDigit_of_isBlank]
          cases hsign : text.getLast?.any isSign with
          | false => exact Or.inl rfl
          | true => exact Or.inr (sign_of_word hword hsign)
        · simpa [chars] using hquote.1
      | _ => cases hmarked

end Token

end Behind

/-! ## 2. Trimming -/

theorem trimBlanks_eq_nil_iff {cs : List Char} :
    trimBlanks cs = [] ↔ ∀ c ∈ cs, isBlank c = true := by
  rw [trimBlanks, List.reverse_eq_nil_iff, List.dropWhile_eq_nil_iff]
  constructor
  · intro h
    have hall : ∀ c ∈ cs.dropWhile isBlank, isBlank c = true := fun c hc =>
      h c (List.mem_reverse.mpr hc)
    have hnil : cs.dropWhile isBlank = [] := by
      cases hdrop : cs.dropWhile isBlank with
      | nil => rfl
      | cons c ds =>
        have hhead := beginsWith_dropWhile isBlank cs
        rw [hdrop, beginsWith_cons, hall c (by simp [hdrop])] at hhead
        cases hhead
    exact List.dropWhile_eq_nil_iff.mp hnil
  · intro h c hc
    rw [List.dropWhile_eq_nil_iff.mpr h] at hc
    cases hc

/-- Blanks around a text do not count. -/
theorem trimBlanks_append_blanks {l m r : List Char} (hl : ∀ c ∈ l, isBlank c = true)
    (hr : ∀ c ∈ r, isBlank c = true) : trimBlanks (l ++ m ++ r) = trimBlanks m := by
  have hr' : ∀ c ∈ r.reverse, isBlank c = true := fun c hc => hr c (List.mem_reverse.mp hc)
  rw [trimBlanks, trimBlanks, List.append_assoc, List.dropWhile_append_of_pos hl,
    List.dropWhile_append]
  cases hm : m.dropWhile isBlank with
  | nil => simp [List.dropWhile_eq_nil_iff.mpr hr]
  | cons c ds =>
    simp only [List.isEmpty_cons, Bool.false_eq_true, if_false, List.reverse_append]
    rw [List.dropWhile_append_of_pos hr']

/-- A text is what is left of it between blanks. -/
theorem exists_trimBlanks (cs : List Char) :
    ∃ l r, cs = l ++ trimBlanks cs ++ r ∧ (∀ c ∈ l, isBlank c = true) ∧
      ∀ c ∈ r, isBlank c = true := by
  have hall (ds : List Char) : ∀ c ∈ ds.takeWhile isBlank, isBlank c = true := fun c hc =>
    List.all_eq_true.mp List.all_takeWhile c hc
  refine ⟨cs.takeWhile isBlank, ((cs.dropWhile isBlank).reverse.takeWhile isBlank).reverse, ?_,
    hall cs, fun c hc => hall _ c (List.mem_reverse.mp hc)⟩
  rw [trimBlanks, List.append_assoc, ← List.reverse_append, List.takeWhile_append_dropWhile,
    List.reverse_reverse, List.takeWhile_append_dropWhile]

/-- **Trimming two texts with blanks between them trims each on its outer side.** The blanks in the
    middle become more, by those that the texts have on their inner sides. -/
theorem exists_trimBlanks_append {a w b : List Char} (ha : trimBlanks a ≠ [])
    (hb : trimBlanks b ≠ []) (hne : w ≠ []) (hw : ∀ c ∈ w, isBlank c = true) :
    ∃ x us, (∀ c ∈ x :: us, isBlank c = true) ∧
      trimBlanks (a ++ w ++ b) = trimBlanks a ++ (x :: us ++ trimBlanks b) := by
  obtain ⟨la, ra, hatext, hla, hra⟩ := exists_trimBlanks a
  obtain ⟨lb, rb, hbtext, hlb, hrb⟩ := exists_trimBlanks b
  have hmiddle : ∀ c ∈ ra ++ w ++ lb, isBlank c = true := by
    intro c hc
    rcases List.mem_append.mp hc with hc | hc
    · rcases List.mem_append.mp hc with hc | hc
      · exact hra c hc
      · exact hw c hc
    · exact hlb c hc
  have hends : trimBlanks (trimBlanks a ++ (ra ++ w ++ lb ++ trimBlanks b)) =
      trimBlanks a ++ (ra ++ w ++ lb ++ trimBlanks b) := by
    apply trimBlanks_of_ends
    · rw [beginsWith_append ha]
      exact (ends_trimBlanks a).1
    · rw [List.getLast?_append_of_ne_nil _ (by simp [hb]), List.getLast?_append_of_ne_nil _ hb]
      exact (ends_trimBlanks b).2
  have htext : a ++ w ++ b = la ++ (trimBlanks a ++ (ra ++ w ++ lb ++ trimBlanks b)) ++ rb := by
    conv => lhs; rw [hatext, hbtext]
    simp only [List.append_assoc]
  cases hblanks : ra ++ w ++ lb with
  | nil => simp [hne] at hblanks
  | cons x us =>
    rw [hblanks] at hmiddle hends htext
    exact ⟨x, us, hmiddle, by rw [htext, trimBlanks_append_blanks hla hrb, hends]⟩

/-! ## 3. Two texts with blanks between them -/

/-- **The tokens of two texts with blanks between them** are those of the one, a space, and those of
    the other. -/
theorem Token.exists_ofText_append {a w b : List Char} (hquote : '"' ∉ a)
    (ha : trimBlanks a ≠ []) (hb : trimBlanks b ≠ []) (hne : w ≠ [])
    (hw : ∀ c ∈ w, isBlank c = true) :
    ∃ blanks, ofText (trimBlanks (a ++ w ++ b)) =
      ofText (trimBlanks a) ++ .space blanks :: ofText (trimBlanks b) := by
  obtain ⟨x, us, hblanks, htrim⟩ := exists_trimBlanks_append ha hb hne hw
  obtain ⟨htexta, htilea⟩ := ofText_eq_iff.mp (rfl : ofText (trimBlanks a) = _)
  obtain ⟨htextb, htileb⟩ := ofText_eq_iff.mp (rfl : ofText (trimBlanks b) = _)
  have hquote' : '"' ∉ trimBlanks a := by
    obtain ⟨l, r, htext, -, -⟩ := exists_trimBlanks a
    intro hmem
    apply hquote
    rw [htext]
    exact List.mem_append_left _ (List.mem_append_right _ hmem)
  have hlast := (ends_trimBlanks a).2
  rw [htexta] at hquote' hlast
  have hspace : Tile (.space (x :: us) :: ofText (trimBlanks b)) := by
    refine ⟨⟨List.cons_ne_nil x us, hblanks, ?_⟩, htileb⟩
    rw [← htextb]
    exact (ends_trimBlanks b).1
  have htile := htilea.append_blank (hblanks x List.mem_cons_self) hspace rfl hquote' hlast
  refine ⟨x :: us, ofText_eq_iff.mpr ⟨?_, htile⟩⟩
  rw [htrim, spelling, List.flatMap_append]
  exact congrArg₂ (· ++ ·) htexta (congrArg (x :: us ++ ·) htextb)

namespace Sentence

/-- **A text is read in two halves, cut at blanks.** -/
theorem parseChars_append {a w b : List Char} (hquote : '"' ∉ a)
    (ha : trimBlanks a ≠ []) (hb : trimBlanks b ≠ []) (hne : w ≠ [])
    (hw : ∀ c ∈ w, isBlank c = true) :
    parseChars .factOrPattern (a ++ w ++ b) =
      (parseChars .factOrPattern a).bind fun g =>
        (parseChars .factOrPattern b).map fun h => g ++ .word " " :: h := by
  obtain ⟨blanks, htokens⟩ := Token.exists_ofText_append hquote ha hb hne hw
  have hspace : (Token.space blanks).term = .ok (.word " ") := rfl
  rw [parseChars_eq, parseChars_eq, parseChars_eq, htokens, List.mapM_append, List.mapM_cons, hspace]
  cases (Token.ofText (trimBlanks b)).mapM Token.term <;> rfl

end Sentence

/-! ## 4. The blocks of a text -/

/-- The pieces of a text between its blanks. -/
def blocks (cs : List Char) : List (List Char) := (cs.splitOnP isBlank).filter fun b => !b.isEmpty

theorem blocks_nil : blocks [] = [] := rfl

theorem blocks_append_cons {x : Char} (hx : isBlank x = true) (a b : List Char) :
    blocks (a ++ x :: b) = blocks a ++ blocks b := by
  rw [blocks, List.splitOnP_append_cons a b hx, List.filter_append]
  rfl

theorem blocks_of_no_blanks {b : List Char} (hne : b ≠ []) (hb : ∀ c ∈ b, isBlank c = false) :
    blocks b = [b] := by
  have hempty : b.isEmpty = false := by simpa using hne
  rw [blocks, List.splitOnP_eq_singleton hb]
  simp [hempty]

theorem blocks_append_blanks {l : List Char} (hl : ∀ c ∈ l, isBlank c = true) (cs : List Char) :
    blocks (l ++ cs) = blocks cs := by
  induction l with
  | nil => rfl
  | cons x l ih =>
    have hfirst : blocks (x :: (l ++ cs)) = blocks [] ++ blocks (l ++ cs) :=
      blocks_append_cons (hl x List.mem_cons_self) [] (l ++ cs)
    rw [List.cons_append, hfirst, blocks_nil, List.nil_append,
      ih fun c hc => hl c (List.mem_cons_of_mem _ hc)]

theorem blocks_of_blanks {cs : List Char} (h : ∀ c ∈ cs, isBlank c = true) : blocks cs = [] := by
  rw [← List.append_nil cs, blocks_append_blanks h, blocks_nil]

/-- **What stands in front of a blank or of the end is the first block**, and the others are those of
    what follows. -/
theorem blocks_cons {l b r : List Char} (hl : ∀ c ∈ l, isBlank c = true) (hne : b ≠ [])
    (hb : ∀ c ∈ b, isBlank c = false) (hr : ∀ x us, r = x :: us → isBlank x = true) :
    blocks (l ++ b ++ r) = b :: blocks r := by
  rw [List.append_assoc, blocks_append_blanks hl]
  cases r with
  | nil => rw [List.append_nil, blocks_of_no_blanks hne hb, blocks_nil]
  | cons x us =>
    have hx := hr x us rfl
    have hrest : blocks (x :: us) = blocks [] ++ blocks us := blocks_append_cons hx [] us
    rw [blocks_append_cons hx, blocks_of_no_blanks hne hb, hrest, blocks_nil]
    rfl

example : blocks " ab\n\t#c ".toList = [['a', 'b'], ['#', 'c']] := by decide +kernel

theorem exists_first_block {cs : List Char} (h : trimBlanks cs ≠ []) :
    ∃ l b r, cs = l ++ b ++ r ∧ (∀ c ∈ l, isBlank c = true) ∧ b ≠ [] ∧
      (∀ c ∈ b, isBlank c = false) ∧ ∀ x us, r = x :: us → isBlank x = true := by
  have hhead := beginsWith_dropWhile isBlank cs
  have hstop := beginsWith_dropWhile (fun c => !isBlank c) (cs.dropWhile isBlank)
  refine ⟨cs.takeWhile isBlank, (cs.dropWhile isBlank).takeWhile fun c => !isBlank c,
    (cs.dropWhile isBlank).dropWhile fun c => !isBlank c, ?_, ?_, ?_, ?_, ?_⟩
  · rw [List.append_assoc, List.takeWhile_append_dropWhile, List.takeWhile_append_dropWhile]
  · exact fun c hc => List.all_eq_true.mp List.all_takeWhile c hc
  · cases hdrop : cs.dropWhile isBlank with
    | nil => exact absurd (trimBlanks_eq_nil_iff.mpr (List.dropWhile_eq_nil_iff.mp hdrop)) h
    | cons c ds =>
      rw [hdrop, beginsWith_cons] at hhead
      simp [hhead]
  · intro c hc
    have hc' := List.all_eq_true.mp List.all_takeWhile c hc
    simpa using hc'
  · intro x us hrest
    rw [hrest] at hstop
    simpa using hstop

theorem blocks_ne_nil {cs : List Char} (h : trimBlanks cs ≠ []) : blocks cs ≠ [] := by
  obtain ⟨l, b, r, rfl, hl, hne, hb, hr⟩ := exists_first_block h
  rw [blocks_cons hl hne hb hr]
  exact List.cons_ne_nil b _

namespace Sentence

theorem parseChars_of_trimBlanks_eq {a b : List Char} (h : trimBlanks a = trimBlanks b) :
    parseChars .factOrPattern a = parseChars .factOrPattern b := by
  rw [parseChars_eq, parseChars_eq, h]

/-- **A text is read block by block**, and a space comes between the blocks. -/
theorem parseChars_eq_blocks {cs : List Char} (hquote : '"' ∉ cs) :
    parseChars .factOrPattern cs =
      ((blocks cs).mapM (parseChars .factOrPattern)).map (List.intercalate [.word " "]) := by
  by_cases hblank : trimBlanks cs = []
  · rw [parseChars_eq, hblank, blocks_of_blanks (trimBlanks_eq_nil_iff.mp hblank)]
    rfl
  · obtain ⟨l, b, r, rfl, hl, hne, hb, hr⟩ := exists_first_block hblank
    rw [blocks_cons hl hne hb hr, List.mapM_cons]
    rw [List.mem_append, not_or] at hquote
    have hfirst : trimBlanks (l ++ b) = trimBlanks b := by
      have htrim := trimBlanks_append_blanks (m := b) hl (List.forall_mem_nil _)
      rwa [List.append_nil] at htrim
    by_cases hrest : trimBlanks r = []
    · have hr' := trimBlanks_eq_nil_iff.mp hrest
      rw [blocks_of_blanks hr', parseChars_of_trimBlanks_eq (trimBlanks_append_blanks hl hr')]
      cases parseChars .factOrPattern b <;> simp [Except.map, bind, Except.bind, pure, Except.pure]
    · have hlen : r.length < (l ++ b ++ r).length := by
        have hpos := List.length_pos_iff.mpr hne
        simp only [List.length_append]
        omega
      have ih := parseChars_eq_blocks hquote.2
      cases r with
      | nil => exact absurd rfl hrest
      | cons x us =>
        have hx : ∀ c ∈ [x], isBlank c = true := List.forall_mem_singleton.mpr (hr x us rfl)
        have htail : trimBlanks (x :: us) = trimBlanks us := by
          have htrim := trimBlanks_append_blanks (m := us) hx (List.forall_mem_nil _)
          rwa [List.append_nil] at htrim
        have hb' : trimBlanks (l ++ b) ≠ [] := by
          rw [hfirst, trimBlanks_of_ends (blank_of_no_blanks hb).1 (blank_of_no_blanks hb).2]
          exact hne
        have happend := parseChars_append hquote.1 hb' (htail ▸ hrest) (List.cons_ne_nil x []) hx
        rw [List.append_assoc _ [x] us, List.singleton_append, parseChars_of_trimBlanks_eq hfirst,
          parseChars_of_trimBlanks_eq htail.symm, ih] at happend
        rw [happend]
        cases parseChars .factOrPattern b with
        | error e => rfl
        | ok g =>
          cases hread : (blocks (x :: us)).mapM (parseChars .factOrPattern) with
          | error e => rfl
          | ok hs =>
            have hlength := (mapM_eq_ok_iff.mp hread).length_eq
            have hne' : hs ≠ [] := by
              rintro rfl
              exact blocks_ne_nil hrest (List.length_eq_zero_iff.mp hlength)
            have hjoin : g ++ .word " " :: List.intercalate [.word " "] hs =
                List.intercalate [.word " "] (g :: hs) := by
              rw [List.intercalate_cons_of_ne_nil hne', List.append_assoc, List.singleton_append]
            exact congrArg Except.ok hjoin
termination_by cs.length

/-! ## 5. Texts in other spacing -/

theorem parse_eq_ok_iff_parseChars {text : String} {f : Sentence} :
    parse text = .ok f ↔ parseChars .factOrPattern text.toList = .ok f :=
  parse_eq_ok_iff.trans mapM_eq_ok_iff.symm

/-- A text with two others in it and blanks between them is read if these are. -/
theorem parse_append_eq_ok_iff {a w b : String} {f : Sentence} (hquote : '"' ∉ a.toList)
    (ha : ∃ c ∈ a.toList, isBlank c = false) (hb : ∃ c ∈ b.toList, isBlank c = false)
    (hne : w ≠ "") (hw : ∀ c ∈ w.toList, isBlank c = true) :
    parse (a ++ w ++ b) = .ok f ↔
      ∃ g h, parse a = .ok g ∧ parse b = .ok h ∧ f = g ++ .word " " :: h := by
  have htrim {cs : List Char} (hcs : ∃ c ∈ cs, isBlank c = false) : trimBlanks cs ≠ [] := by
    obtain ⟨c, hc, hblank⟩ := hcs
    intro hnil
    rw [trimBlanks_eq_nil_iff.mp hnil c hc] at hblank
    cases hblank
  have happend := parseChars_append hquote (htrim ha) (htrim hb) (by simpa using hne) hw
  simp only [parse_eq_ok_iff_parseChars, String.toList_append, happend]
  cases parseChars .factOrPattern a.toList with
  | error e => simp [Except.bind]
  | ok g =>
    cases parseChars .factOrPattern b.toList with
    | error e => simp [Except.bind, Except.map]
    | ok h => simp [Except.bind, Except.map, eq_comm]

/-- Texts with the same blocks are read alike. -/
theorem parse_eq_ok_iff_of_blocks {c d : String} (hc : '"' ∉ c.toList) (hd : '"' ∉ d.toList)
    (h : blocks c.toList = blocks d.toList) (f : Sentence) :
    parse c = .ok f ↔ parse d = .ok f := by
  rw [parse_eq_ok_iff_parseChars, parse_eq_ok_iff_parseChars, parseChars_eq_blocks hc,
    parseChars_eq_blocks hd, h]

end Sentence

/-- A ground sentence that is asserted again is stored under the same text. -/
theorem Store.assert_again (s : Store) (first second : String) {f : Sentence}
    (hf : f.isGround = true) :
    let stored := (s.assert first f).2
    (s.assert first f).1 = .ok f.render ∧ (stored.assert second f).1 = .ok f.render ∧
      (stored.assert second f).2.allFacts = stored.allFacts := by
  intro stored
  have hstored : (stored.get? f.render).isSome = true := by
    rw [get?_assert s first hf]
    rfl
  rw [assert_of_isGround s first hf, assert_of_isGround stored second hf]
  exact ⟨rfl, rfl, (replace_stored hstored _).1⟩

namespace Sentence

/-- **Blanks take a text apart.** A text of two texts that are not blank, with blanks between them
    and no quotation mark in the first, is read exactly if both of them are; it is read as the one, a
    space and the other. So texts without quotation marks that have the same blocks, differing only
    in the blanks around these, are read as the same sentence, and what is asserted by one of them
    is found and replaced by the other. -/
theorem parse_splits_at_blanks :
    (∀ a w b : String, '"' ∉ a.toList → (∃ c ∈ a.toList, isBlank c = false) →
      (∃ c ∈ b.toList, isBlank c = false) → w ≠ "" → (∀ c ∈ w.toList, isBlank c = true) →
      ((∃ f, parse (a ++ w ++ b) = .ok f) ↔ (∃ g, parse a = .ok g) ∧ ∃ h, parse b = .ok h) ∧
        ∀ g h, parse a = .ok g → parse b = .ok h →
          parse (a ++ w ++ b) = .ok (g ++ .word " " :: h)) ∧
      ∀ c d : String, '"' ∉ c.toList → '"' ∉ d.toList → blocks c.toList = blocks d.toList →
        (∀ f, parse c = .ok f ↔ parse d = .ok f) ∧
          ∀ (s : Store) (first second : String) (f g : Sentence), parse c = .ok f →
            parse d = .ok g → f.isGround = true →
            let stored := (s.assert first f).2
            (s.assert first f).1 = .ok f.render ∧ (stored.assert second g).1 = .ok f.render ∧
              (stored.assert second g).2.allFacts = stored.allFacts := by
  constructor
  · intro a w b hquote ha hb hne hw
    have happend (f : Sentence) := parse_append_eq_ok_iff (f := f) hquote ha hb hne hw
    refine ⟨?_, fun g h hg hh => (happend _).mpr ⟨g, h, hg, hh, rfl⟩⟩
    constructor
    · rintro ⟨f, hf⟩
      obtain ⟨g, h, hg, hh, -⟩ := (happend f).mp hf
      exact ⟨⟨g, hg⟩, h, hh⟩
    · rintro ⟨⟨g, hg⟩, h, hh⟩
      exact ⟨_, (happend _).mpr ⟨g, h, hg, hh, rfl⟩⟩
  · intro c d hc hd hblocks
    have halike := parse_eq_ok_iff_of_blocks hc hd hblocks
    refine ⟨halike, fun s first second f g hf hg hground => ?_⟩
    rw [(halike f).mp hf] at hg
    cases hg
    exact s.assert_again first second hground

/-- A sign in front of a digit and a name in front of a keyword, with other blanks than a space
    between them. -/
theorem parse_splits_at_blanks_sign :
    let f : Sentence := [.identifier "a", .word " ", .word "+"]
    let g : Sentence := [.number (.ofNat 2), .word " ", .literal (.bool true)]
    let h : Sentence := f ++ .word " " :: g
    let stored := (Store.empty.assert "one" h).2
    parse " #a  +" = .ok f ∧ parse "2\ttrue" = .ok g ∧
      parse (" #a  +" ++ "\u00A0\n" ++ "2\ttrue") = .ok h ∧
      blocks "#a + 2 true".toList = blocks " #a\t+ \n2  true ".toList ∧
      parse "#a + 2 true" = .ok h ∧ parse " #a\t+ \n2  true " = .ok h ∧ h.isGround = true ∧
      (stored.assert "two" h).1 = .ok h.render ∧
      (stored.assert "two" h).2.allFacts = stored.allFacts := by
  have hf : parse " #a  +" = .ok [.identifier "a", .word " ", .word "+"] := by decide +kernel
  have hg : parse "2\ttrue" = .ok [.number (.ofNat 2), .word " ", .literal (.bool true)] := by
    decide +kernel
  have hblocks : blocks "#a + 2 true".toList = blocks " #a\t+ \n2  true ".toList := by
    decide +kernel
  have hh : parse "#a + 2 true" = .ok [.identifier "a", .word " ", .word "+", .word " ",
      .number (.ofNat 2), .word " ", .literal (.bool true)] := by
    decide +kernel
  have happend := (parse_splits_at_blanks.1 " #a  +" "\u00A0\n" "2\ttrue" (by decide +kernel)
    ⟨'#', by decide +kernel, rfl⟩ ⟨'2', by decide +kernel, rfl⟩ (by decide +kernel)
    (List.all_eq_true.mp (by decide +kernel))).2 _ _ hf hg
  obtain ⟨halike, hstored⟩ := parse_splits_at_blanks.2 "#a + 2 true" " #a\t+ \n2  true "
    (by decide +kernel) (by decide +kernel) hblocks
  have hh' := (halike _).mp hh
  exact ⟨hf, hg, happend, hblocks, hh, hh', rfl,
    (hstored Store.empty "one" "two" _ _ hh hh' rfl).2⟩

end Sentence

end Blackboard
