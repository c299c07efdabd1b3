import QueryFold.Proofs.Chain.Resolution

/-!
# Chains whose nodes are in a row

A chain that is made by adding nodes to its end (`Chain.push`) has all of them in a row: each node
takes the result of the one before it. Its links pass the check, and the route from a node is that
node and all nodes before it, the last one first.
-/

namespace QueryFold

namespace Chain

/-- The chain is made by adding nodes to its end, each of which takes the result of the last one. -/
inductive Pushed : Chain → Prop where
  /-- No nodes. -/
  | empty (resultType : Ty) : Pushed (.empty resultType)
  /-- A further node. -/
  | push {c : Chain} (h : Pushed c) (identifier : String) (operation : Operation) :
      Pushed (c.push identifier operation)

/-- The node before a position. -/
def linkAt : (position : Nat) → Option NodeId
  | 0 => none
  | i + 1 => some ⟨i⟩

/-- Links in order pass the check. -/
theorem checkLinksFrom_of_linked {position : Nat} {ns : List Node}
    (h : ∀ (i : Nat) (n : Node), ns[i]? = some n →
      n.id = ⟨position + i⟩ ∧ ∀ id, n.source = some id → id.value < position + i) :
    checkLinksFrom position ns = .ok () := by
  induction ns generalizing position with
  | nil => rfl
  | cons n ns ih =>
    obtain ⟨hid, hsource⟩ := h 0 n rfl
    have rest : checkLinksFrom (position + 1) ns = .ok () := by
      apply ih
      intro i m hm
      have := h (i + 1) m (by simpa using hm)
      rwa [show position + (i + 1) = position + 1 + i by omega] at this
    rw [checkLinksFrom, hid, if_neg (by simp)]
    cases source : n.source with
    | none => exact rest
    | some link =>
      have : link.value < position := hsource link source
      simp only [if_neg (Nat.not_le.mpr this), rest]

theorem checkLinks_eq_ok_iff {c : Chain} : c.checkLinks = .ok () ↔ c.Linked := by
  refine ⟨linked_of_checkLinks, fun h => checkLinksFrom_of_linked fun i n hn => ?_⟩
  rw [Nat.zero_add]
  exact ⟨h.numbered i n hn, fun id => h.backward i n id hn⟩

namespace Pushed

variable {c : Chain}

/-- What a node carries besides its operation and its identifier is known from its position. -/
theorem of_getElem? (h : c.Pushed) {i : Nat} {n : Node} (hn : c.nodes[i]? = some n) :
    n.id = ⟨i⟩ ∧ n.source = linkAt i ∧ n.callSite = n.operation.name := by
  induction h generalizing i n with
  | empty _ => simp [Chain.empty] at hn
  | @push c _ identifier operation ih =>
    rw [Chain.push, pushFrom, List.getElem?_append] at hn
    split_ifs at hn with hi
    · exact ih hn
    · obtain ⟨hlast, rfl⟩ := List.getElem?_eq_some_iff.mp hn
      obtain rfl : i = c.nodes.length := by
        rw [List.length_singleton] at hlast
        omega
      refine ⟨by simp [nextId], ?_, by simp⟩
      cases hl : c.nodes.getLast? with
      | none =>
        rw [List.getLast?_eq_none_iff] at hl
        simp [hl, linkAt]
      | some m =>
        have hm := hl
        rw [List.getLast?_eq_getElem?] at hm
        have hlt := (List.getElem?_eq_some_iff.mp hm).1
        obtain ⟨k, hk⟩ : ∃ k, c.nodes.length = k + 1 := ⟨c.nodes.length - 1, by omega⟩
        simp only [hk, Nat.add_sub_cancel] at hm
        simp [hk, linkAt, (ih hm).1]

theorem linked (h : c.Pushed) : c.Linked where
  numbered i n hn := (h.of_getElem? hn).1
  backward i n id hn hs := by
    rw [(h.of_getElem? hn).2.1] at hs
    cases i with
    | zero => cases hs
    | succ i =>
      cases hs
      exact Nat.lt_succ_self i

theorem source_eq (h : c.Pushed) {i : Nat} {n : Node} (hn : c.nodes[i + 1]? = some n) :
    n.source = some ⟨i⟩ :=
  (h.of_getElem? hn).2.1

/-- The route from a node goes on with the node before. -/
theorem route_eq (h : c.Pushed) {i : Nat} {n : Node} (hn : c.nodes[i + 1]? = some n) :
    c.route ⟨i + 1⟩ = .via n (c.route ⟨i⟩) := by
  rw [h.linked.route_eq hn, routeAfter, h.source_eq hn]

end Pushed

end Chain

end QueryFold
