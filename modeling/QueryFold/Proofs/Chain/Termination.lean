import QueryFold.Proofs.Chain.Asking
import QueryFold.Proofs.Chain.Renaming

/-!
# Resolution ends

Links that are in order lead to smaller and smaller numbers, so resolution over them ends. A build
asks about a chain only after the links of that chain were checked, be it the chain that is built or
one that is nested there. So every build ends, whatever the links of its chains are: those that are
not in order are refused before anything is asked (`resolution_terminates`).

That the check is needed can be seen on a chain whose links lead in a circle. Asked about a node on
the circle, resolution would go around for ever; the build of the chain fails at once.
-/

namespace QueryFold

variable {α : Type} {own : Chain → Prop} {checked : List Chain}

/-- The outcome if calls are answered by a recursion that enters at most `depth` nodes one within
the other. -/
def Calls.within (depth : Nat) (x : Calls α) : Option α := x.replied (Call.within depth)

/-- If calls are only about chains whose links were found in order, some depth is enough. -/
theorem Calls.Guarded.exists_within {x : Calls α} (h : x.Guarded own checked)
    (linked : ∀ chain ∈ checked, chain.checkLinks = .ok ()) :
    ∃ least, ∀ depth, least ≤ depth → x.within depth = some x.answered := by
  induction x generalizing checked with
  | done a => exact ⟨0, fun _ _ => rfl⟩
  | check chain go ih =>
    simp only [within, replied, answered]
    cases outcome : chain.checkLinks with
    | error e => exact ih _ (h.2.1 e) linked
    | ok _ => exact ih _ h.2.2 (List.forall_mem_cons.mpr ⟨outcome, linked⟩)
  | call c go ih =>
    obtain ⟨least, enough⟩ := ih c.answer (h.2 _) linked
    have inOrder := Chain.linked_of_checkLinks (linked _ h.1)
    refine ⟨max (c.node.value + 1) least, fun depth deep => ?_⟩
    have here : c.within depth = some c.answer := Call.within_eq_answer inOrder (by omega)
    have later := enough depth (by omega)
    rw [within, replied, here]
    exact later

/-- **Resolution ends over checked links, and builds resolve over no other ones.** If the links of
a chain pass the check, a call about a node of it leads to calls about nodes with smaller numbers
only, and ends after at most as many nodes, one within the other, as there are up to that node.
Whatever the links of a chain are, its build makes calls only about chains whose links passed the
check before, and ends with the outcome of the build. -/
theorem resolution_terminates :
    (∀ c : Call, c.chain.checkLinks = .ok () →
      Asks (Call.Below c.chain c.ledger c.node) c.body c.answer ∧
        ∀ depth, c.node.value < depth → c.within depth = some c.answer) ∧
    ∀ (ids : Nat → SourceId) (settings : Settings) (chain : Chain),
      Shows (·.Within chain) [] (chain.toQuery (m := Calls) ids settings)
          (chain.toQuery ids settings) ∧
        ∀ k, ∃ least, ∀ depth, least ≤ depth →
          ((chain.toQuery (m := Calls) ids settings).run.run k).within depth =
            some (execute (chain.toQuery ids settings) k) := by
  refine ⟨fun c checked => ?_, fun ids settings chain => ?_⟩
  · have linked := Chain.linked_of_checkLinks checked
    exact ⟨Call.asks_body linked, fun depth deep => Call.within_eq_answer linked deep⟩
  · have shows : Shows (·.Within chain) [] _ (chain.toQuery ids settings) :=
      chain.shows_build settings 0 fun _ h => h
    refine ⟨shows, fun k => ?_⟩
    rw [← shows.answered]
    exact (shows.guarded k).exists_within (by simp)

/-! ### Examples -/

namespace Sample

/-- What is recorded when the title of the chefs has been defined. -/
def entitled : Ledger where
  records := [(⟨0⟩, ⟨some .main, some cookItem⟩), (⟨1⟩, ⟨some (.body 0), some titleItem⟩)]

/-- Who is meant by a lambda about the chefs that are selected. -/
def meant : Call := ⟨chefs, entitled, ⟨3⟩, .lambda ⟨[chef], titled⟩⟩

/-- Cooks that are restricted twice, where each restriction takes the result of the other one. -/
def circle : Chain where
  nodes := [⟨⟨0⟩, none, "c", "", .mainSource cooks⟩,
    ⟨⟨1⟩, some ⟨2⟩, "c", "", .filter ⟨[cook], assistant⟩⟩,
    ⟨⟨2⟩, some ⟨1⟩, "c", "", .filter ⟨[cook], assistant⟩⟩,
    ⟨⟨3⟩, some ⟨2⟩, "c", "", .select ⟨[cook], .param cook⟩⟩]
  resultType := Ty.queryable (Ty.plain "Cook")

end Sample

/-- A call about the chefs has its answer after four nodes. For one about the circle no depth is
enough, but the build of the circle ends: its links are refused. -/
theorem resolution_terminates_circle :
    Sample.chefs.checkLinks = .ok () ∧
      Sample.meant.within 4 = some (Sample.chefs.resolveLambda Sample.entitled ⟨3⟩
        ⟨[Sample.chef], Sample.titled⟩) ∧
      (∀ depth, Call.within depth
        ⟨Sample.circle, Sample.entitled, ⟨1⟩, .item Sample.cook Sample.titled⟩ = none) ∧
      ∃ depth, ((Sample.circle.toQuery (m := Calls) SourceId.countUp {}).run.run 0).within depth =
        some (.error (.misuse (.forwardLink "Where node n1" ⟨2⟩)), 0) := by
  obtain ⟨resolution, builds⟩ := resolution_terminates
  have checked : Sample.chefs.checkLinks = .ok () := rfl
  obtain ⟨least, enough⟩ := (builds SourceId.countUp {} Sample.circle).2 0
  refine ⟨checked, (resolution Sample.meant checked).2 4 (by decide), fun depth => ?_, least, ?_⟩
  · refine Call.within_eq_none (S := fun id => id = ⟨1⟩ ∨ id = ⟨2⟩) ?_ (.inl rfl) _ _ depth
    rintro id (rfl | rfl)
    · exact ⟨_, _, rfl, rfl, rfl, .inr rfl⟩
    · exact ⟨_, _, rfl, rfl, rfl, .inl rfl⟩
  · rw [enough least (Nat.le_refl _)]
    rfl

/-- Three nodes are not enough for the call about the chefs. -/
example : (Sample.meant.within 3).isNone := by decide

end QueryFold
