import SchemaScript.Proofs.Script.Grounding

/-!
# One pass after another

A script goes through the kinds of objects in one order, and through all schemas for each kind. So its pieces
stand in the order of their passes (`pieces_ranked`), and what is written for the objects of one kind in one
schema stands together (`exists_passScript`).
-/

namespace SchemaScript

namespace ObjectKind

/-- The kinds in the order of their passes. -/
def order : List ObjectKind :=
  [.type, .sequence, .table, .view, .function, .aggregate, .procedure]

theorem mem_order (kind : ObjectKind) : kind ∈ order := by
  cases kind <;> decide

/-- The place of the kind's pass; extensions and schemas come before all of them. -/
def rank (kind : ObjectKind) : Nat :=
  order.idxOf kind + 2

theorem pairwise_order : order.Pairwise fun a b => a.rank < b.rank := by
  decide

end ObjectKind

/-- The place of the pass in which the object is written. -/
def Tag.rank : Tag → Nat
  | .extension _ => 0
  | .schema _ => 1
  | .object _ kind _ => kind.rank

theorem Tag.rank_of_objectKind? {tag : Tag} {kind : ObjectKind} (h : tag.objectKind? = some kind) :
    tag.rank = kind.rank := by
  rcases tag with _ | _ | ⟨schema, found, key⟩
  · simp [objectKind?] at h
  · simp [objectKind?] at h
  · obtain rfl : found = kind := Option.some.inj h
    rfl

namespace Diff

variable {p : Pair} {old new : Catalog} {target : Option String} {kind : ObjectKind} {ps : List Piece}

@[simp] theorem Pair.rank_tag (p : Pair) (kind : ObjectKind) (key : String) :
    (p.tag kind key).rank = kind.rank := rfl

/-- What is written in one schema for the objects of a kind. -/
def passOf (new : Catalog) : ObjectKind → Pair → Logged (List Piece)
  | .type => types
  | .sequence => sequences
  | .table => tables new
  | .view => views
  | .function => functions
  | .aggregate => aggregates
  | .procedure => procedures

theorem yields_passOf (new : Catalog) (kind : ObjectKind) (p : Pair) :
    Yields (Grounded p kind) (passOf new kind p) := by
  cases kind with
  | type => exact yields_types p
  | sequence => exact yields_sequences p
  | table => exact yields_tables new p
  | view => exact yields_views p
  | function => exact yields_functions p
  | aggregate => exact yields_aggregates p
  | procedure => exact yields_procedures p

/-! ## The rows of a script -/

/-- A script is the row of its extensions, that of its schemas, and a row for each kind. -/
theorem exists_rows (h : (pieces old new target).result = .ok ps) :
    ∃ (ofExtensions ofSchemas : List Piece) (rowOf : ObjectKind → List Piece),
      (extensions old new).result = .ok ofExtensions ∧
      (schemas old new (Text.given target)).result = .ok ofSchemas ∧
      (∀ kind, (collect (pairs old new (Text.given target)) (passOf new kind)).result =
        .ok (rowOf kind)) ∧
      ps = ofExtensions ++ ofSchemas ++ ObjectKind.order.flatMap rowOf := by
  obtain ⟨ofExtensions, hextensions, h⟩ := Logged.result_bind_eq_ok.mp h
  obtain ⟨ofSchemas, hschemas, h⟩ := Logged.result_bind_eq_ok.mp h
  obtain ⟨ofTypes, htypes, h⟩ := Logged.result_bind_eq_ok.mp h
  obtain ⟨ofSequences, hsequences, h⟩ := Logged.result_bind_eq_ok.mp h
  obtain ⟨ofTables, htables, h⟩ := Logged.result_bind_eq_ok.mp h
  obtain ⟨ofViews, hviews, h⟩ := Logged.result_bind_eq_ok.mp h
  obtain ⟨ofFunctions, hfunctions, h⟩ := Logged.result_bind_eq_ok.mp h
  obtain ⟨ofAggregates, haggregates, h⟩ := Logged.result_bind_eq_ok.mp h
  obtain ⟨ofProcedures, hprocedures, h⟩ := Logged.result_bind_eq_ok.mp h
  obtain ⟨rfl⟩ := h
  refine ⟨ofExtensions, ofSchemas, fun
    | .type => ofTypes
    | .sequence => ofSequences
    | .table => ofTables
    | .view => ofViews
    | .function => ofFunctions
    | .aggregate => ofAggregates
    | .procedure => ofProcedures, hextensions, hschemas, fun kind => ?_, ?_⟩
  · cases kind <;> assumption
  · simp [ObjectKind.order]

theorem objectKind?_of_mem_row {row : List Piece} {x : Piece}
    (h : (collect (pairs old new target) (passOf new kind)).result = .ok row) (hx : x ∈ row) :
    x.tag.objectKind? = some kind :=
  (yields_walked (yields_passOf new kind) row h x hx).2

/-! ## The order of the pieces -/

theorem yields_rank_extensions : Yields (fun x => x.tag.rank = 0) (extensions old new) := by
  refine yields_bind fun _ _ => yields_bind fun _ _ => yields_pure fun x hx => ?_
  obtain ⟨⟨key, e⟩, -, hx⟩ := List.mem_filterMap.mp hx
  by_cases hne : e.ddl = ""
  · simp [hne] at hx
  · obtain rfl : _ = x := by simpa [hne] using hx
    rfl

theorem yields_rank_schemas : Yields (fun x => x.tag.rank = 1) (schemas old new target) :=
  yields_collect fun _ _ => yields_emit fun _ => rfl

theorem pairwise_of_rank_eq {n : Nat} (h : ∀ x ∈ ps, x.tag.rank = n) :
    ps.Pairwise fun x y => x.tag.rank ≤ y.tag.rank :=
  List.pairwise_of_forall_mem_list fun x hx y hy => ((h x hx).trans (h y hy).symm).le

/-- Pieces of an earlier pass come first. -/
theorem pieces_ranked (h : (pieces old new target).result = .ok ps) :
    ps.Pairwise fun x y => x.tag.rank ≤ y.tag.rank := by
  obtain ⟨ofExtensions, ofSchemas, rowOf, hextensions, hschemas, hrows, rfl⟩ := exists_rows h
  have hfirst := yields_rank_extensions ofExtensions hextensions
  have hsecond := yields_rank_schemas ofSchemas hschemas
  have hrow (kind : ObjectKind) : ∀ x ∈ rowOf kind, x.tag.rank = kind.rank := fun x hx =>
    Tag.rank_of_objectKind? (objectKind?_of_mem_row (hrows kind) hx)
  have hlow : ∀ x ∈ ofExtensions ++ ofSchemas, x.tag.rank ≤ 1 := fun x hx =>
    (List.mem_append.mp hx).elim (fun hx => (hfirst x hx).le.trans zero_le_one)
      fun hx => (hsecond x hx).le
  have hhigh : ∀ y ∈ ObjectKind.order.flatMap rowOf, 2 ≤ y.tag.rank := fun y hy => by
    obtain ⟨kind, -, hy⟩ := List.mem_flatMap.mp hy
    exact hrow kind y hy ▸ Nat.le_add_left 2 _
  refine List.pairwise_append.mpr ⟨List.pairwise_append.mpr
    ⟨pairwise_of_rank_eq hfirst, pairwise_of_rank_eq hsecond, ?_⟩, List.pairwise_flatMap.mpr ⟨?_, ?_⟩, ?_⟩
  · exact fun x hx y _ => (hfirst x hx).le.trans (Nat.zero_le _)
  · exact fun kind _ => pairwise_of_rank_eq (hrow kind)
  · refine ObjectKind.pairwise_order.imp fun {a b} hlt x hx y hy => ?_
    rw [hrow a x hx, hrow b y hy]
    exact hlt.le
  · exact fun x hx y hy => (hlow x hx).trans (Nat.le_of_succ_le (hhigh y hy))

/-! ## One pass -/

/-- The pass for a kind is one row of a script, and nothing else in the script is there because of an
object of that kind. -/
theorem exists_pass (kind : ObjectKind) (h : (pieces old new target).result = .ok ps) :
    ∃ row before after,
      (collect (pairs old new (Text.given target)) (passOf new kind)).result = .ok row ∧
      ps = before ++ row ++ after ∧ ∀ x ∈ before ++ after, x.tag.objectKind? ≠ some kind := by
  obtain ⟨ofExtensions, ofSchemas, rowOf, hextensions, hschemas, hrows, rfl⟩ := exists_rows h
  obtain ⟨first, last, hsplit⟩ := List.append_of_mem kind.mem_order
  have hothers : ∀ other ∈ first ++ last, other ≠ kind := by
    have hnodup : ObjectKind.order.Nodup := by decide
    rw [hsplit] at hnodup
    rintro other hother rfl
    exact (List.nodup_middle.mp hnodup).notMem hother
  refine ⟨rowOf kind, ofExtensions ++ ofSchemas ++ first.flatMap rowOf, last.flatMap rowOf,
    hrows kind, by simp [hsplit], fun x hx => ?_⟩
  simp only [List.mem_append, List.mem_flatMap] at hx
  have hother {other : ObjectKind} (hmem : other ∈ first ++ last) (hx : x ∈ rowOf other) :
      x.tag.objectKind? ≠ some kind := fun htag =>
    hothers other hmem (Option.some.inj ((objectKind?_of_mem_row (hrows other) hx).symm.trans htag))
  rcases hx with ((hx | hx) | ⟨other, hmem, hx⟩) | ⟨other, hmem, hx⟩
  · simp [(yields_extensions ofExtensions hextensions x hx).2]
  · simp [(yields_schemas ofSchemas hschemas x hx).2]
  · exact hother (List.mem_append_left last hmem) hx
  · exact hother (List.mem_append_right first hmem) hx

/-- Schemas are gone through in the order of their names. -/
theorem pairwise_keys_pairs (old new : Catalog) (target : Option String) :
    (pairs old new target).Pairwise fun p q => p.key < q.key :=
  List.pairwise_map.mpr (new.schemas.pairwise_lt_sorted.sublist List.filter_sublist)

/-- In one pass, what is written for one schema stands together. -/
theorem exists_passScript_of_collect {row : List Piece} (hp : p ∈ pairs old new target)
    (h : (collect (pairs old new target) (passOf new kind)).result = .ok row) :
    ∃ own before after, (passOf new kind p).result = .ok own ∧ row = before ++ own ++ after ∧
      ∀ x ∈ before ++ after, ∀ key, x.tag ≠ p.tag kind key := by
  obtain ⟨first, last, hsplit⟩ := List.append_of_mem hp
  have hothers : ∀ q ∈ first ++ last, q.key ≠ p.key := by
    have hkeys := pairwise_keys_pairs old new target
    rw [hsplit, List.pairwise_append, List.pairwise_cons] at hkeys
    obtain ⟨-, ⟨hlast, -⟩, hfirst⟩ := hkeys
    intro q hq
    rcases List.mem_append.mp hq with hq | hq
    · exact (hfirst q hq p List.mem_cons_self).ne
    · exact (hlast q hq).ne'
  have hother {items : List Pair} {pieces : List Piece} (hitems : ∀ q ∈ items, q.key ≠ p.key)
      (hpieces : (collect items (passOf new kind)).result = .ok pieces) (x : Piece) (hx : x ∈ pieces)
      (key : String) : x.tag ≠ p.tag kind key := by
    obtain ⟨q, hq, own, hown, hx⟩ := (mem_collect hpieces).mp hx
    obtain ⟨found, -, htag, -⟩ := yields_passOf new kind q own hown x hx
    rw [htag]
    exact fun he => hitems q hq (Tag.object.inj he).1
  rw [hsplit] at h
  obtain ⟨before, _, hbefore, hrest, rfl⟩ := collect_append_eq_ok.mp h
  obtain ⟨own, after, hown, hafter, rfl⟩ := collect_cons_eq_ok.mp hrest
  refine ⟨own, before, after, hown, (List.append_assoc before own after).symm, fun x hx => ?_⟩
  rcases List.mem_append.mp hx with hx | hx
  · exact hother (fun q hq => hothers q (List.mem_append_left last hq)) hbefore x hx
  · exact hother (fun q hq => hothers q (List.mem_append_right first hq)) hafter x hx

/-- All pieces that are there because of the schema's objects of a kind stand in one row. -/
theorem exists_passScript (kind : ObjectKind) (hp : p ∈ pairs old new (Text.given target))
    (h : (pieces old new target).result = .ok ps) :
    ∃ own before after, (passOf new kind p).result = .ok own ∧ ps = before ++ own ++ after ∧
      ∀ x ∈ before ++ after, ∀ key, x.tag ≠ p.tag kind key := by
  obtain ⟨row, first, last, hrow, rfl, hothers⟩ := exists_pass kind h
  obtain ⟨own, before, after, hown, rfl, hrest⟩ := exists_passScript_of_collect hp hrow
  refine ⟨own, first ++ before, after ++ last, hown, by simp, fun x hx key htag => ?_⟩
  have hkind : x.tag.objectKind? = some kind := by rw [htag]; rfl
  simp only [List.mem_append] at hx hothers hrest
  rcases hx with (hx | hx) | (hx | hx)
  · exact hothers x (.inl hx) hkind
  · exact hrest x (.inl hx) key htag
  · exact hrest x (.inr hx) key htag
  · exact hothers x (.inr hx) hkind

/-- Where `R` holds of any two elements of which one is an outsider, outsiders before and after a row do
not matter. -/
theorem pairwise_between {α : Type} {R : α → α → Prop} {Outside : α → Prop} {row before after : List α}
    (h : row.Pairwise R) (hothers : ∀ x ∈ before ++ after, Outside x)
    (hR : ∀ x y, Outside x ∨ Outside y → R x y) : (before ++ row ++ after).Pairwise R := by
  refine List.pairwise_append.mpr ⟨List.pairwise_append.mpr ⟨?_, h, ?_⟩, ?_, ?_⟩
  · exact List.pairwise_of_forall_mem_list fun x hx y _ =>
      hR x y (.inl (hothers x (List.mem_append_left after hx)))
  · exact fun x hx y _ => hR x y (.inl (hothers x (List.mem_append_left after hx)))
  · exact List.pairwise_of_forall_mem_list fun x hx y _ =>
      hR x y (.inl (hothers x (List.mem_append_right before hx)))
  · exact fun x _ y hy => hR x y (.inr (hothers y (List.mem_append_right before hy)))

end Diff
end SchemaScript
