import QueryFold.Encoding.Outline
import QueryFold.Encoding.Settings
import QueryFold.Proofs.Encoding.Chain
import QueryFold.Proofs.Query.WellFormed

/-!
# Reading undoes writing

Outlines and settings are read back as well, although their readers give a default to every
field that is missing: their writers leave no field out.

`reading_undoes_writing` says it of everything that is written as a document of its own. It
is about documents and not about their texts: the reader of texts refuses a document that
is nested too deep, and no limit stands here.
-/

namespace QueryFold

variable {origin : Origin}

/-! ### Outlines -/

namespace OutlineEntry

/-- Whether the expression of an entry holds no float. -/
def floatFree : OutlineEntry → Bool
  | source _ e => e.floatFree
  | filter predicate => predicate.floatFree
  | define _ value => value.floatFree
  | order _ _ key => key.floatFree

theorem ofJson?_toJson {entry : OutlineEntry} (h : entry.floatFree) :
    ofJson? origin entry.toJson = some entry := by
  cases entry with
  | source item e =>
    rw [floatFree] at h
    simp [toJson, ofJson?, Expr.ofJson?_toJson h]
  | filter predicate =>
    rw [floatFree] at h
    simp [toJson, ofJson?, Expr.ofJson?_toJson h]
  | define item value =>
    rw [floatFree] at h
    simp [toJson, ofJson?, Expr.ofJson?_toJson h]
  | order first direction key =>
    rw [floatFree] at h
    simp [toJson, ofJson?, Expr.ofJson?_toJson h]

end OutlineEntry

namespace Outline

/-- Whether no expression of an outline holds a float. -/
def floatFree (o : Outline) : Bool :=
  o.root.all Expr.floatFree && o.entries.all OutlineEntry.floatFree &&
    o.projections.all Expr.floatFree

theorem ofJson?_toJson {o : Outline} (h : o.floatFree) : ofJson? origin o.toJson = some o := by
  rw [floatFree, Bool.and_eq_true, Bool.and_eq_true, List.all_eq_true, List.all_eq_true] at h
  obtain ⟨⟨hroot, hentries⟩, hprojections⟩ := h
  have hroot : ∀ e ∈ o.root, Expr.ofJson? origin e.toJson = some e := by
    intro e he
    rw [he] at hroot
    exact Expr.ofJson?_toJson hroot
  have hentries : ∀ e ∈ o.entries, OutlineEntry.ofJson? origin e.toJson = some e :=
    fun e he => OutlineEntry.ofJson?_toJson (hentries e he)
  have hprojections : ∀ e ∈ o.projections, Expr.ofJson? origin e.toJson = some e :=
    fun e he => Expr.ofJson?_toJson (hprojections e he)
  simp [toJson, ofJson?, Json.optional_cons_self Expr.toJson_ne_null hroot,
    Json.items?_map hentries, Json.items?_map hprojections]

end Outline

/-! ### Settings -/

theorem Settings.ofJson?_toJson (s : Settings) : Settings.ofJson? s.toJson = some s := by
  rw [Settings.toJson, Settings.ofJson?]
  -- Field by field: the kernel would count up to the bound of `word?` to check a `simp` here.
  refine Option.bind_eq_some_iff.mpr ⟨_, Json.fields?_object (by simp), ?_⟩
  refine Option.bind_eq_some_iff.mpr ⟨s.maxDepth, ?_, ?_⟩
  · rw [Json.defaulted_cons_self, Json.word?_int]
  · exact Option.bind_eq_some_iff.mpr ⟨s.validate, by simp, rfl⟩

/-! ### Everything that has a document -/

/-- Every value without floats is what the reader finds in its document, wherever the document
comes from. -/
theorem reading_undoes_writing (origin : Origin) :
    (∀ t : Ty, Ty.ofJson? t.toJson = some t) ∧
    (∀ p : Param, Param.ofJson? p.toJson = some p) ∧
    (∀ l : Literal, l.floatFree → Literal.ofJson? l.toJson = some l) ∧
    (∀ e : Expr, e.floatFree → Expr.ofJson? origin e.toJson = some e) ∧
    (∀ op : ResultOp, op.floatFree → ResultOp.ofJson? origin op.toJson = some op) ∧
    (∀ c : Clause, c.floatFree → Clause.ofJson? origin c.toJson = some c) ∧
    (∀ q : Query, q.floatFree → Query.ofJson? origin q.toJson = some q) ∧
    (∀ c : Chain, c.floatFree → Chain.ofJson? origin c.toJson = some c) ∧
    (∀ o : Outline, o.floatFree → Outline.ofJson? origin o.toJson = some o) ∧
    (∀ s : Settings, Settings.ofJson? s.toJson = some s) :=
  ⟨Ty.ofJson?_toJson, Param.ofJson?_toJson, fun _ => Literal.ofJson?_toJson,
    fun _ => Expr.ofJson?_toJson, fun _ => ResultOp.ofJson?_toJson, fun _ => Clause.ofJson?_toJson,
    fun _ => Query.ofJson?_toJson, fun _ => Chain.ofJson?_toJson, fun _ => Outline.ofJson?_toJson,
    Settings.ofJson?_toJson⟩

namespace Sample

/-- The first three items of a result. -/
def three : ResultOp := .argument .take (.ofInt 3)

/-- The first names of a brigade. -/
def badges : Chain where
  nodes := [⟨⟨0⟩, none, "n", "", .mainSource (.subQuery brigade)⟩,
    ⟨⟨1⟩, some ⟨0⟩, "n", "Take", .resultOperator three⟩]
  resultType := Ty.queryable (Ty.plain "string")

/-- The names of a brigade as an outline. -/
def named : Outline where
  root := some (.subQuery brigade)
  entries := [.source ⟨"n", Ty.plain "string"⟩ (.subQuery brigade)]
  projections := [.param ⟨"n", Ty.plain "string"⟩]

end Sample

theorem reading_undoes_writing_badges :
    Literal.ofJson? (Literal.integer 3).toJson = some (.integer 3) ∧
    Expr.ofJson? .text (Expr.subQuery Sample.brigade).toJson = some (.subQuery Sample.brigade) ∧
    ResultOp.ofJson? .text Sample.three.toJson = some Sample.three ∧
    (∀ c ∈ Sample.brigade.body, Clause.ofJson? .text c.toJson = some c) ∧
    Query.ofJson? .text Sample.brigade.toJson = some Sample.brigade ∧
    Chain.ofJson? .text Sample.badges.toJson = some Sample.badges ∧
    Outline.ofJson? .text Sample.named.toJson = some Sample.named := by
  obtain ⟨-, -, literal, expr, op, clause, query, chain, outline, -⟩ :=
    reading_undoes_writing .text
  exact ⟨literal _ rfl, expr _ (by decide), op _ (by decide),
    fun c hc => clause c (List.all_eq_true.mp (by decide : Sample.brigade.body.all _) c hc),
    query _ (by decide), chain _ (by decide), outline _ (by decide)⟩

end QueryFold
