import Blackboard.Proofs.Removals
import Blackboard.Store.Command
import Mathlib.Algebra.GroupWithZero.Nat

/-!
# The order of removals

Four kinds of removal go by four criteria: the text of a ground pattern, what any other pattern
matches, a name that is mentioned, and an asserter. Each of them takes a fact away for what the fact
itself is, whatever else is stored (`Store.Command.strikes`), and leaves the others in their order
(`Store.Sound.perform_removal`). So a row of removals takes away what any of them strikes
(`Store.Sound.after_removals`), and each fact is counted once, by the first removal that strikes it
(`Store.Sound.reports_removals`).

From there **the order of removals does not matter**, for the store and for the sum of the counts, and
a removal that is repeated finds nothing (`Store.removals_commute`).
-/

namespace Blackboard

namespace Store

/-! ## 1. Removals -/

/-- Whether a command only takes facts away: it forgets, or it retracts a pattern without holes. -/
def Command.isRemoval : Command → Bool
  | .retract pattern => !pattern.hasHoles
  | .forgetAbout _ | .forgetBy _ => true
  | .assert .. | .assertCiting .. | .apply .. => false

/-- Whether a removal takes a fact away. -/
def Command.strikes : Command → Fact → Bool
  | .retract pattern, f => pattern.strikes f
  | .forgetAbout name, f => f.mentions name
  | .forgetBy asserter, f => f.asserter == asserter
  | .assert .., _ | .assertCiting .., _ | .apply .., _ => false

/-- What the commands of a row report, one after another. -/
def reports (s : Store) : List Command → List (Except Failure Report)
  | [] => []
  | c :: cs => (s.perform c).1 :: (s.perform c).2.reports cs

section Sound

variable {P : Sentence → Prop} {s : Store}

/-! ## 2. One removal -/

/-- **A removal takes away what it strikes** and reports how many facts that were. -/
theorem Sound.perform_removal (h : Sound P s) {c : Command} (hc : c.isRemoval = true) :
    s.perform c = (.ok (.count (s.facts.values.countP c.strikes)), s.without c.strikes) := by
  cases c with
  | retract pattern =>
    have hholes : pattern.hasHoles = false := by simpa [Command.isRemoval] using hc
    rw [Store.perform, h.retract_eq hholes]
    rfl
  | forgetAbout name =>
    rw [Store.perform, forgetAbout, h.removeWhere_eq]
    rfl
  | forgetBy asserter =>
    rw [Store.perform, forgetBy, h.removeWhere_eq]
    rfl
  | assert => cases hc
  | assertCiting => cases hc
  | apply => cases hc

/-! ## 3. Rows of removals -/

/-- **Removals take away what any of them strikes.** -/
theorem Sound.after_removals (h : Sound P s) {cs : List Command}
    (hcs : ∀ c ∈ cs, c.isRemoval = true) :
    s.after cs = s.without fun f => cs.any (·.strikes f) := by
  induction cs generalizing s with
  | nil => simp [after, without_none]
  | cons c cs ih =>
    have hrest := ih (h.without c.strikes) fun d hd => hcs d (List.mem_cons_of_mem _ hd)
    rw [after, List.foldl_cons, h.perform_removal (hcs c List.mem_cons_self)]
    rw [after] at hrest
    simp only [hrest, without_without, List.any_cons]

/-- **Removals count every fact that any of them strikes once.** -/
theorem Sound.reports_removals (h : Sound P s) {cs : List Command}
    (hcs : ∀ c ∈ cs, c.isRemoval = true) :
    ∃ ns : List Nat, s.reports cs = ns.map (fun n => .ok (.count n)) ∧
      ns.sum = s.facts.values.countP fun f => cs.any (·.strikes f) := by
  induction cs generalizing s with
  | nil => exact ⟨[], rfl, by simp⟩
  | cons c cs ih =>
    obtain ⟨ns, hreports, hsum⟩ :=
      ih (h.without c.strikes) fun d hd => hcs d (List.mem_cons_of_mem _ hd)
    refine ⟨s.facts.values.countP c.strikes :: ns, ?_, ?_⟩
    · rw [reports, h.perform_removal (hcs c List.mem_cons_self), hreports]
      rfl
    · simp only [List.sum_cons, hsum, countP_without, List.any_cons]

end Sound

/-- **The order of removals does not matter**: in any order they leave the same store, and the counts
    that they report add up to the number of facts that are gone. Afterwards each of them takes
    nothing more away. -/
theorem removals_commute (history : List Command) {cs ds : List Command}
    (hcs : ∀ c ∈ cs, c.isRemoval = true) (hperm : cs.Perm ds) :
    let s := empty.after history
    s.after ds = s.after cs ∧
      (∃ ns ms : List Nat, s.reports cs = ns.map (fun n => .ok (.count n)) ∧
        s.reports ds = ms.map (fun n => .ok (.count n)) ∧ ms.sum = ns.sum ∧
        ns.sum + (s.after cs).size = s.size) ∧
      ∀ c ∈ cs, (s.after cs).perform c = (.ok (.count 0), s.after cs) := by
  intro s
  have hs : Sound (fun _ => True) s := sound_after history
  have hds : ∀ d ∈ ds, d.isRemoval = true := fun d hd => hcs d (hperm.mem_iff.mpr hd)
  have hany : ∀ f, ds.any (·.strikes f) = cs.any (·.strikes f) := fun f => hperm.symm.any_eq
  obtain ⟨ns, hreports, hsum⟩ := hs.reports_removals hcs
  obtain ⟨ms, hreports', hsum'⟩ := hs.reports_removals hds
  have hsame : s.after ds = s.after cs := by
    simp only [hs.after_removals hcs, hs.after_removals hds, hany]
  refine ⟨hsame, ⟨ns, ms, hreports, hreports', ?_, ?_⟩, fun c hc => ?_⟩
  · simp only [hsum, hsum', hany]
  · rw [hsum, hs.after_removals hcs]
    exact s.size_without _
  · have hstruck : ∀ f, c.strikes f = true → cs.any (·.strikes f) = true :=
      fun f hf => List.any_eq_true.mpr ⟨c, hc, hf⟩
    obtain ⟨hstore, hcount⟩ := s.without_of_imp hstruck
    rw [hs.after_removals hcs, (hs.without _).perform_removal (hcs c hc), hstore, hcount]

/-- A fact that a pattern matches, that mentions the name and that is of the asserter is counted
    once in either order: by the pattern in the first row, and by the name in the second. What no
    removal strikes stays. -/
theorem removals_commute_overlapping :
    let pattern : Sentence := [.variable "v", .wildcard, .identifier "y"]
    let history : List Command :=
      [.assert "a" [.identifier "x", .word " ", .identifier "y"], .assert "b" [.identifier "y"],
        .assert "a" [.word "z"], .assert "b" [.word "w"]]
    let cs : List Command := [.retract pattern, .forgetAbout "y", .forgetBy "a"]
    let ds : List Command := [.forgetAbout "y", .retract pattern, .forgetBy "a"]
    let s := empty.after history
    (∀ c ∈ cs, c.isRemoval = true) ∧ cs.Perm ds ∧
      s.reports cs = [.ok (.count 1), .ok (.count 1), .ok (.count 1)] ∧
      s.reports ds = [.ok (.count 2), .ok (.count 0), .ok (.count 1)] ∧
      s.allFacts = ["#x #y", "#y", "z", "w"] ∧
      (s.retract pattern).2.allFacts = ["#y", "z", "w"] ∧
      (s.forgetAbout "y").2.allFacts = ["z", "w"] ∧
      (s.after cs).allFacts = ["w"] ∧ s.after ds = s.after cs ∧
      ∀ c ∈ cs, (s.after cs).perform c = (.ok (.count 0), s.after cs) := by
  intro pattern history cs ds s
  have hcs : ∀ c ∈ cs, c.isRemoval = true := by decide
  have hperm : cs.Perm ds := .swap _ _ _
  obtain ⟨hsame, -, hagain⟩ := removals_commute history hcs hperm
  exact ⟨hcs, hperm, rfl, rfl, by decide +kernel, by decide +kernel, by decide +kernel,
    by decide +kernel, hsame, hagain⟩

end Store

end Blackboard
