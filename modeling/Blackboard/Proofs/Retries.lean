import Blackboard.Client.Remote
import Blackboard.Proofs.Batches
import Mathlib.Logic.Function.Iterate

/-!
# Sending a batch again

A client whose flush gets no answer cannot know whether the server has applied the batch. It keeps
the batch and sends it again (`RemoteClient.perform_flush_lost`), so a batch may be applied more than
once in a row.

The second time, the patterns can strike only what the batch itself asserts: all else that they
strike is gone already. What is struck is asserted again as it was, so the same is found under every
text (`Store.get?_refill_refill`), though a fact may have moved to the end. The third time strikes the
same facts as the second, which stand at the end already, and nothing moves
(`Store.refill_refill_refill`). **From the second time on nothing changes** (`Store.apply_again`).
-/

namespace Blackboard

/-- A client whose flush gets no answer has sent what waits in its buffer, and is as before. -/
theorem RemoteClient.perform_flush_lost {σ : Type} (send : Server.Request → σ → Reply × σ)
    (c : RemoteClient) (w : σ) (hpending : c.buffer.hasPending = true)
    (hlost : ∀ r, (send r w).1 = .lost) :
    c.perform send w .flush = (.error (.transport .lost), c,
      (send (request c.id (.apply c.buffer.retracts c.buffer.asserts)) w).2) := by
  have hreply : send (request c.id (.apply c.buffer.retracts c.buffer.asserts)) w =
      (.lost, (send (request c.id (.apply c.buffer.retracts c.buffer.asserts)) w).2) :=
    Prod.ext (hlost _) rfl
  rw [perform_of_call (MutationBuffer.plan_flush_of_pending hpending) hreply]
  rfl

namespace Store

section Refill

variable {s : Store} (test : Fact → Bool) (fs : List Fact)

/-- The store without the facts for which a test holds, with a row of facts put into it. -/
def refill (s : Store) : Store := (s.without test).putAll fs

theorem nodup_putAll {s : Store} (hn : s.facts.keys.Nodup) : (s.putAll fs).facts.keys.Nodup := by
  induction fs using List.reverseRecOn with
  | nil => exact hn
  | append_singleton fs f ih =>
    rw [putAll_concat]
    exact OrderedMap.nodup_keys_insert ih f.key f

theorem nodup_refill (hn : s.facts.keys.Nodup) : (s.refill test fs).facts.keys.Nodup :=
  nodup_putAll fs (nodup_without hn test)

theorem get?_refill (hn : s.facts.keys.Nodup) (k : String) :
    (s.refill test fs).get? k = (lastOf fs k).or ((s.get? k).filter fun f => !test f) := by
  rw [refill, get?_putAll, get?_without hn]

/-- The second time the same is found under every text. -/
theorem get?_refill_refill (hn : s.facts.keys.Nodup) (k : String) :
    ((s.refill test fs).refill test fs).get? k = (s.refill test fs).get? k := by
  rw [get?_refill _ _ (nodup_refill test fs hn), get?_refill _ _ hn]
  cases lastOf fs k with
  | some f => rfl
  | none => simp [Option.filter_filter]

/-- Where the same is found before and after, what is left of the store is left of it again: the
    facts that were put behind it are struck. -/
theorem keys_without_refill (hn : s.facts.keys.Nodup)
    (hsame : ∀ k, (s.refill test fs).get? k = s.get? k) :
    ((s.refill test fs).without test).facts.keys = (s.without test).facts.keys := by
  rw [keys_without (nodup_refill test fs hn)]
  simp only [hsame]
  rw [refill, keys_putAll, List.filter_append, keys_without hn]
  have hleft : ∀ k, (s.get? k).any (fun f => !test f) = true → k ∈ s.facts.keys := by
    intro k hk
    obtain ⟨f, hf, -⟩ := (Option.any_eq_true _ _).mp hk
    exact List.mem_map_of_mem (OrderedMap.mem_of_get? hf)
  have hput : ((fs.map Fact.key).eraseDups.filter (· ∉ s.facts.keys.filter fun k =>
      (s.get? k).any fun f => !test f)).filter (fun k => (s.get? k).any fun f => !test f) = [] := by
    refine List.filter_eq_nil_iff.mpr fun k hk hstays => ?_
    have hnew := of_decide_eq_true (List.mem_filter.mp hk).2
    exact hnew (List.mem_filter.mpr ⟨hleft k hstays, hstays⟩)
  rw [hput, List.append_nil, List.filter_filter]
  simp only [Bool.and_self]

/-- **The third time nothing moves any more.** -/
theorem refill_refill_refill (hn : s.facts.keys.Nodup) :
    ((s.refill test fs).refill test fs).refill test fs = (s.refill test fs).refill test fs := by
  have hn₁ := nodup_refill test fs hn
  have hn₂ := nodup_refill test fs hn₁
  have hleft := keys_without_refill test fs hn₁ (get?_refill_refill test fs hn)
  have hkeys : (((s.refill test fs).refill test fs).refill test fs).facts.keys =
      ((s.refill test fs).refill test fs).facts.keys := by
    conv_lhs => rw [refill, keys_putAll, hleft]
    conv_rhs => rw [refill, keys_putAll]
  have hget := get?_refill_refill test fs hn₁
  exact congrArg Store.mk (OrderedMap.ext_get? (nodup_refill test fs hn₂) hkeys hget)

end Refill

section Batch

variable {P : Sentence → Prop} {s : Store} {id : String} {retractions assertions : List Sentence}

/-- A batch refills the store. -/
theorem Sound.apply_eq_refill (hs : Sound P s) (hok : Accepted retractions assertions) :
    (s.apply id retractions assertions).2 =
      s.refill (fun f => retractions.any (·.strikes f)) (factsOf id assertions) :=
  congrArg Prod.snd (hs.apply_eq id hok)

theorem Sound.iterate_apply {s : Store} (hs : Sound (fun _ => True) s) (n : Nat) :
    Sound (fun _ => True) ((fun s : Store => (s.apply id retractions assertions).2)^[n] s) := by
  induction n with
  | zero => exact hs
  | succ n ih =>
    rw [Function.iterate_succ_apply']
    exact ih.apply id retractions fun _ _ _ => trivial

end Batch

/-- **A batch that goes through may be sent again.** The second time the same is found under every
    text, though the order may change, and from then on the store stays as it is. Every time the batch
    goes through. A client that holds the batch and gets no answer sends just this batch and goes on
    holding it. -/
theorem apply_again (history : List Command) (id : String) {retractions assertions : List Sentence}
    (h : ∃ o, ((empty.after history).apply id retractions assertions).1 = .ok o) :
    let flush := fun s : Store => (s.apply id retractions assertions).2
    let first := flush (empty.after history)
    let second := flush first
    (∀ k, second.get? k = first.get? k) ∧ (∀ n, flush^[n] second = second) ∧
      (∀ n, ∃ o, ((flush^[n] first).apply id retractions assertions).1 = .ok o) ∧
      ∀ c : RemoteClient, c.id = id → c.buffer.retracts = retractions →
        c.buffer.asserts = assertions → c.buffer.hasPending = true →
        ∀ {σ : Type} (send : Server.Request → σ → Reply × σ) (w : σ), (∀ r, (send r w).1 = .lost) →
          c.perform send w .flush = (.error (.transport .lost), c,
            (send (RemoteClient.request id (.apply retractions assertions)) w).2) := by
  intro flush first second
  obtain ⟨o, ho⟩ := h
  have hok : Accepted retractions assertions := accepted_of_apply ho
  have hs := sound_after history
  have hfirst : Sound (fun _ => True) first := hs.iterate_apply 1
  have hsecond : Sound (fun _ => True) second := hs.iterate_apply 2
  -- all of it is said by refilling
  have first_eq : first = _ := hs.apply_eq_refill hok
  have second_eq : second = _ := hfirst.apply_eq_refill hok
  have third_eq : flush second = _ := hsecond.apply_eq_refill hok
  refine ⟨fun k => ?_, fun n => ?_, fun n => ?_, ?_⟩
  · rw [second_eq, first_eq]
    exact get?_refill_refill _ _ hs.distinct k
  · have hfixed : flush second = second := by
      rw [third_eq, second_eq, first_eq]
      exact refill_refill_refill _ _ hs.distinct
    exact Function.iterate_fixed hfixed n
  · exact ⟨_, congrArg Prod.fst ((hfirst.iterate_apply n).apply_eq id hok)⟩
  · rintro c rfl rfl rfl hpending σ send w hlost
    exact c.perform_flush_lost send w hpending hlost

/-- The second time a fact moves: it takes the place of one that the pattern does not match, and is
    then matched by it. -/
theorem apply_again_moving :
    let history : List Command := [.assert "bob" [.word "0", .word "x"]]
    let retractions : List Sentence := [[.number .zero, .wildcard]]
    let assertions : List Sentence := [[.number .zero, .word "x"], [.word "y"]]
    let flush := fun s : Store => (s.apply "ann" retractions assertions).2
    let first := flush (empty.after history)
    let second := flush first
    (∃ o, ((empty.after history).apply "ann" retractions assertions).1 = .ok o) ∧
      first.allFacts = ["0x", "y"] ∧ second.allFacts = ["y", "0x"] ∧
      (∀ k, second.get? k = first.get? k) ∧ ∀ n, flush^[n] second = second := by
  intro history retractions assertions flush first second
  have hok : ∃ o, ((empty.after history).apply "ann" retractions assertions).1 = .ok o :=
    ⟨⟨0, 2⟩, by decide +kernel⟩
  have hagain := apply_again history "ann" hok
  exact ⟨hok, by decide +kernel, by decide +kernel, hagain.1, hagain.2.1⟩

end Store

end Blackboard
