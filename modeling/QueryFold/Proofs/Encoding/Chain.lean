import QueryFold.Encoding.Chain
import QueryFold.Proofs.Encoding.Language

/-!
# Chains are read back

Operations, nodes and chains hold each other as expressions and queries do, and are read
back for the same reason: one induction on the fuel for all three. The expressions of an
operation are read with fuel of their own.
-/

namespace QueryFold

open Json (Undoes items?_map optional_cons_self height_variant_object height_object
  heightMembers_cons height_array)

@[simp] theorem NodeId.ofJson?_toJson (id : NodeId) : NodeId.ofJson? id.toJson = some id := by
  simp [NodeId.toJson, NodeId.ofJson?]

theorem NodeId.toJson_ne_null (id : NodeId) : id.toJson ≠ .null := by
  simp [NodeId.toJson]

/-! ### Chains without floats -/

mutual

/-- Whether an operation holds no float. -/
def Operation.floatFree : Operation → Bool
  | .mainSource e => e.floatFree
  | .subQuerySource chain => chain.floatFree
  | .selectMany collection result => collection.floatFree && result.all Lambda.floatFree
  | .filter predicate => predicate.floatFree
  | .orderBy key _ _ => key.floatFree
  | .select selector => selector.floatFree
  | .define _ value => value.floatFree
  | .groupBy key element => key.floatFree && element.all Lambda.floatFree
  | .cast _ _ => true
  | .resultOperator op => op.floatFree

/-- Whether the operation of a node holds no float. -/
def Node.floatFree : Node → Bool
  | ⟨_, _, _, _, operation⟩ => operation.floatFree

/-- Whether no one of several nodes holds a float. -/
def nodesFloatFree : List Node → Bool
  | [] => true
  | n :: ns => n.floatFree && nodesFloatFree ns

/-- Whether no node of a chain holds a float. -/
def Chain.floatFree : Chain → Bool
  | ⟨nodes, _⟩ => nodesFloatFree nodes

end

theorem nodesFloatFree_eq_all (ns : List Node) : nodesFloatFree ns = ns.all Node.floatFree :=
  eq_all_of_cons rfl (fun _ _ => rfl) ns

theorem nodesToJson_eq_map (ns : List Node) : nodesToJson ns = ns.map Node.toJson :=
  eq_map_of_cons rfl (fun _ _ => rfl) ns

/-! ### One step of the readers -/

variable {origin : Origin} {fuel : Nat}

/-- An optional lambda is read back if it holds no float. -/
theorem optional_lambda {name : String} {members : List (String × Json)} {o : Option Lambda}
    (h : o.all Lambda.floatFree) :
    Json.optional ((name, optionToJson Lambda.toJson o) :: members) name (Lambda.ofJson? origin) =
      some o := by
  refine optional_cons_self Lambda.toJson_ne_null ?_
  rintro l rfl
  exact Lambda.ofJson?_toJson h

/-- The readers of operations, nodes and chains undo their writers on values without floats whose
documents are lower than `fuel`. -/
structure ReadsChain (origin : Origin) (fuel : Nat) : Prop where
  operation : Undoes (Operation.readWithin origin fuel) Operation.toJson Operation.floatFree fuel
  node : Undoes (Node.readWithin origin fuel) Node.toJson Node.floatFree fuel
  chain : Undoes (Chain.readWithin origin fuel) Chain.toJson Chain.floatFree fuel

namespace ReadsChain

theorem operation_succ (h : ReadsChain origin fuel) :
    Undoes (Operation.readWithin origin (fuel + 1)) Operation.toJson Operation.floatFree
      (fuel + 1) := by
  intro op hfree hlow
  cases op with
  | mainSource e =>
    rw [Operation.floatFree] at hfree
    simp [Operation.toJson, Operation.readWithin, Expr.ofJson?_toJson hfree]
  | subQuerySource chain =>
    rw [Operation.floatFree] at hfree
    simp only [Operation.toJson, height_variant_object, heightMembers_cons] at hlow
    have hchain := h.chain chain hfree (by omega)
    simp [Operation.toJson, Operation.readWithin, hchain]
  | selectMany collection result =>
    rw [Operation.floatFree, Bool.and_eq_true] at hfree
    simp [Operation.toJson, Operation.readWithin, Lambda.ofJson?_toJson hfree.1,
      optional_lambda hfree.2]
  | filter predicate =>
    rw [Operation.floatFree] at hfree
    simp [Operation.toJson, Operation.readWithin, Lambda.ofJson?_toJson hfree]
  | orderBy key direction thenBy =>
    rw [Operation.floatFree] at hfree
    simp [Operation.toJson, Operation.readWithin, Lambda.ofJson?_toJson hfree]
  | select selector =>
    rw [Operation.floatFree] at hfree
    simp [Operation.toJson, Operation.readWithin, Lambda.ofJson?_toJson hfree]
  | define name value =>
    rw [Operation.floatFree] at hfree
    simp [Operation.toJson, Operation.readWithin, Lambda.ofJson?_toJson hfree]
  | groupBy key element =>
    rw [Operation.floatFree, Bool.and_eq_true] at hfree
    simp [Operation.toJson, Operation.readWithin, Lambda.ofJson?_toJson hfree.1,
      optional_lambda hfree.2]
  | cast kind type => simp [Operation.toJson, Operation.readWithin]
  | resultOperator op =>
    rw [Operation.floatFree] at hfree
    simp [Operation.toJson, Operation.readWithin, ResultOp.ofJson?_toJson hfree]

theorem node_succ (h : ReadsChain origin fuel) :
    Undoes (Node.readWithin origin (fuel + 1)) Node.toJson Node.floatFree (fuel + 1) := by
  rintro ⟨id, source, identifier, callSite, operation⟩ hfree hlow
  rw [Node.floatFree] at hfree
  simp only [Node.toJson, height_object, heightMembers_cons] at hlow
  have hoperation := h.operation operation hfree (by omega)
  simp [Node.toJson, Node.readWithin, NodeId.toJson_ne_null, hoperation]

theorem chain_succ (h : ReadsChain origin fuel) :
    Undoes (Chain.readWithin origin (fuel + 1)) Chain.toJson Chain.floatFree (fuel + 1) := by
  rintro ⟨nodes, resultType⟩ hfree hlow
  rw [Chain.floatFree, nodesFloatFree_eq_all] at hfree
  simp only [Chain.toJson, nodesToJson_eq_map, height_object, heightMembers_cons,
    height_array] at hlow
  have hnodes := h.node.list hfree (by omega)
  simp [Chain.toJson, nodesToJson_eq_map, Chain.readWithin, items?_map hnodes]

end ReadsChain

theorem readsChain_within (origin : Origin) (fuel : Nat) : ReadsChain origin fuel := by
  induction fuel with
  | zero => exact ⟨.zero, .zero, .zero⟩
  | succ fuel ih => exact ⟨ih.operation_succ, ih.node_succ, ih.chain_succ⟩

theorem Chain.ofJson?_toJson {c : Chain} (h : c.floatFree) :
    Chain.ofJson? origin c.toJson = some c :=
  (readsChain_within origin _).chain c h (Nat.lt_succ_self _)

end QueryFold
