import SchemaScript.Proofs.Inspect.Change

/-!
# Rows as changes

What each query's rows do is a change of the part that the query belongs to (`confined_row`). Only rows about
schemas and about what stands in them create a schema, and only the one that they name.
-/

namespace SchemaScript.Inspect

variable {α : Type}

/-! ## Functions of one part of a table -/

/-- Sees and replaces one part of a table. -/
def Within (p : TablePart) (f : Table → Except Fault Table) : Prop :=
  ∃ g : p.Content → Except Fault p.Content, ∀ t, f t = (g (p.lens.get t)).map fun a => p.lens.set a t

theorem within_ok (p : TablePart) (g : p.Content → p.Content) :
    Within p fun t => .ok (p.lens.set (g (p.lens.get t)) t) :=
  ⟨fun a => .ok (g a), fun _ => rfl⟩

theorem within_bind {p : TablePart} (x : Except Fault α) {f : α → Table → Except Fault Table}
    (h : ∀ a, Within p (f a)) : Within p fun t => x >>= fun a => f a t := by
  cases x with
  | error e => exact ⟨fun _ => .error e, fun _ => rfl⟩
  | ok a => exact h a

theorem within_ite {p : TablePart} (b : Bool) {f g : Table → Except Fault Table} (hf : Within p f)
    (hg : Within p g) : Within p fun t => if b then f t else g t := by
  cases b
  · exact hg
  · exact hf

/-! ## Steps that change one part -/

/-- The step is a change of one part, and the only schema that it can create is a given one, if any. -/
def Confined (p : Part) (created : Option String) (step : Catalog → Logged Catalog) : Prop :=
  ∃ change : Change p, ∀ c, (step c).result = change.run c ∧
    ∀ c', (step c).result = .ok c' → ∀ n, n ∈ c'.schemas.names ↔ n ∈ c.schemas.names ∨ created = some n

section

variable {created : Option String}

theorem confined_of_fail {p : Part} {step : Catalog → Logged Catalog} {e : Fault} (h : ∀ c, step c = .fail e) :
    Confined p created step :=
  ⟨.fault e, fun c => ⟨by rw [h c]; rfl, fun _ hok => by rw [h c] at hok; contradiction⟩⟩

theorem Confined.congr {p : Part} {step step' : Catalog → Logged Catalog} (h : Confined p created step)
    (heq : ∀ c, (step' c).result = (step c).result) : Confined p created step' := by
  obtain ⟨change, hchange⟩ := h
  refine ⟨change, fun c => ?_⟩
  rw [heq c]
  exact hchange c

theorem confined_bind {p : Part} (x : Logged α) {step : α → Catalog → Logged Catalog}
    (h : ∀ a, Confined p created (step a)) : Confined p created fun c => x >>= fun a => step a c := by
  rcases hx : x.result with e | a
  · have hfail (c : Catalog) : (x >>= fun a => step a c).result = .error e := by
      rw [Logged.bind_of_error hx]
    exact ⟨.fault e, fun c => ⟨hfail c, fun _ hok => by rw [hfail c] at hok; contradiction⟩⟩
  · obtain ⟨change, hchange⟩ := h a
    refine ⟨change, fun c => ?_⟩
    dsimp only
    rw [Logged.bind_of_ok hx]
    exact hchange c

theorem confined_atTable {p : TablePart} {f : Table → Except Fault Table} (schema table : Json)
    (h : Within p f) : Confined (.inTable p) none fun c => atTable c schema table f := by
  obtain ⟨g, hg⟩ := h
  refine ⟨.inTable (Cell.name schema) (Cell.name table) g, fun c => ?_⟩
  dsimp only
  unfold atTable
  rw [Change.run]
  cases ht : c.findTable? (Cell.name schema) (Cell.name table) with
  | none =>
    refine ⟨rfl, fun c' hok n => ?_⟩
    obtain rfl := Except.ok.inj hok
    simp
  | some t =>
    dsimp only
    rw [hg t]
    cases hget : g (p.lens.get t) with
    | error e => exact ⟨rfl, fun _ hok => by contradiction⟩
    | ok a =>
      refine ⟨congrArg Except.ok (Change.modifyTable_const ht (p.lens.set a)), fun c' hok n => ?_⟩
      obtain rfl := Except.ok.inj hok
      simp

theorem confined_extensions (f : Entries Extension → Entries Extension) :
    Confined .extensions none fun c => pure { c with extensions := f c.extensions } := by
  refine ⟨.extensions f, fun c => ⟨rfl, fun c' hok n => ?_⟩⟩
  obtain rfl := Except.ok.inj hok
  simp

theorem confined_partitions (f : List PartitionAttachment → List PartitionAttachment)
    (g : List IndexAttachment → List IndexAttachment) :
    Confined .partitions none fun c =>
      pure { c with partitions := f c.partitions, indexPartitions := g c.indexPartitions } := by
  refine ⟨.partitions f g, fun c => ⟨rfl, fun c' hok n => ?_⟩⟩
  obtain rfl := Except.ok.inj hok
  simp

/-- A change of one part of a schema, which is created if it is missing. -/
theorem confined_updateSchema (p : SchemaPart) (name : String) (g : p.Content → p.Content) :
    Confined (.inSchema p) (some name) fun c =>
      pure (c.updateSchema name fun s => p.lens.set (g (p.lens.get s)) s) := by
  refine ⟨.inSchema name fun a => .ok (some (g a)), fun c => ⟨rfl, fun c' hok n => ?_⟩⟩
  obtain rfl := Except.ok.inj hok
  rw [Change.mem_names_updateSchema, Option.some.injEq]

/-- What is done to a type, done to all types; nothing where the type is not among them. -/
def changeType (name : String) (f : UserType → Except Fault UserType) (types : Entries UserType) :
    Except Fault (Option (Entries UserType)) :=
  match types.get? name with
  | none => .ok none
  | some found => (f found).map fun changed => some (types.put name changed)

theorem confined_atType (schema type : Json) (f : UserType → Except Fault UserType) :
    Confined (.inSchema .types) none fun c => atType c schema type f := by
  refine ⟨.inSchema (Cell.name schema) (changeType (Cell.name type) f), fun c => ?_⟩
  dsimp only
  unfold atType Change.run
  dsimp only [SchemaPart.lens]
  unfold changeType Catalog.schemaOrNew
  cases hs : c.schemas.get? (Cell.name schema) with
  | none =>
    refine ⟨rfl, fun c' hok n => ?_⟩
    obtain rfl := Except.ok.inj hok
    simp
  | some s =>
    rw [Option.bind_some, Option.getD_some]
    cases s.types.get? (Cell.name type) with
    | none =>
      refine ⟨rfl, fun c' hok n => ?_⟩
      obtain rfl := Except.ok.inj hok
      simp
    | some found =>
      dsimp only
      cases f found with
      | error e => exact ⟨rfl, fun _ hok => by contradiction⟩
      | ok changed =>
        have hsame : (c.updateSchema (Cell.name schema) fun u =>
              { u with types := u.types.put (Cell.name type) changed }) =
            c.updateSchema (Cell.name schema) fun u =>
              { u with types := s.types.put (Cell.name type) changed } := by
          simp only [Catalog.updateSchema, Catalog.schemaOrNew, hs, Option.getD_some]
        refine ⟨congrArg Except.ok hsame, fun c' hok n => ?_⟩
        obtain rfl := Except.ok.inj hok
        have hmem := Entries.contains_iff_mem_names.mp (Entries.contains_of_get? hs)
        rw [Change.mem_names_updateSchema]
        exact ⟨fun h => .inl (h.elim id fun heq => heq ▸ hmem), fun h => .inl (h.resolve_right (by simp))⟩

/-- Of several routines with one name the first one stays. -/
def keepFirst (name : String) (value : α) (entries : Entries α) : Entries α :=
  if entries.contains name then entries else entries.put name value

theorem result_putFirst (word : String) (identity : α → String) (schema name : Json) (entries : Entries α)
    (value : α) :
    (putFirst word identity schema name entries value).result =
      .ok (keepFirst (Cell.name name) value entries) := by
  unfold putFirst keepFirst Entries.contains
  cases entries.get? (Cell.name name) <;> rfl

/-- Only a new name adds a routine; a part may consist of several kinds of routines. -/
theorem confined_putFirst {p : SchemaPart} (view : Lens p.Content (Entries α)) (word : String)
    (identity : α → String) (schema name : Json) (value : α) :
    Confined (.inSchema p) (some (Cell.name schema)) fun c =>
      putFirst word identity schema name (view.get (p.lens.get (c.schemaOrNew (Cell.name schema)))) value >>=
        fun entries => pure (c.updateSchema (Cell.name schema) fun s =>
          p.lens.set (view.set entries (p.lens.get s)) s) := by
  refine (confined_updateSchema p (Cell.name schema) fun a =>
    view.set (keepFirst (Cell.name name) value (view.get a)) a).congr fun c => ?_
  rw [Logged.bind_of_ok (result_putFirst ..)]
  rfl

end

/-! ## Rows about what belongs to tables -/

theorem confined_columnRow (row : Row) : Confined (.inTable .columns) none (columnRow · row) := by
  fun_cases columnRow {} row with
  | case1 schema table =>
    refine confined_atTable schema table (within_ite _ ?_ ?_)
    all_goals
      repeat refine within_bind _ fun _ => ?_
      exact within_ok .columns fun columns : List Column => columns ++ [_]
  | case2 row h => exact confined_of_fail fun c => columnRow.eq_2 c row h

theorem confined_constraintRow (row : Row) : Confined (.inTable .constraints) none (constraintRow · row) := by
  fun_cases constraintRow {} row with
  | case1 schema table =>
    refine confined_atTable schema table ?_
    refine within_bind _ fun kind => within_bind _ fun columns => within_ite _ ?_ ?_
    all_goals
      repeat refine within_bind _ fun _ => ?_
      exact within_ok .constraints (·.put _ _)
  | case2 row h => exact confined_of_fail fun c => constraintRow.eq_2 c row h

theorem confined_indexRow (row : Row) : Confined (.inTable .indexes) none (indexRow · row) := by
  fun_cases indexRow {} row with
  | case1 schema table => exact confined_atTable schema table (within_ok .indexes (·.put _ _))
  | case2 row h => exact confined_of_fail fun c => indexRow.eq_2 c row h

theorem confined_triggerRow (row : Row) : Confined (.inTable .triggers) none (triggerRow · row) := by
  fun_cases triggerRow {} row with
  | case1 schema table name code =>
    refine confined_atTable schema table ?_
    cases code
    all_goals
      refine within_bind _ fun bits => within_ite _ ?_ (within_ite _ ?_ ?_)
      all_goals exact within_bind _ fun written => within_ok .triggers (·.put _ _)
  | case2 row h => exact confined_of_fail fun c => triggerRow.eq_2 c row h

theorem confined_policyRow (row : Row) : Confined (.inTable .policies) none (policyRow · row) := by
  fun_cases policyRow {} row with
  | case1 schema table =>
    refine confined_atTable schema table ?_
    repeat refine within_bind _ fun _ => ?_
    exact within_ok .policies (·.put _ _)
  | case2 row h => exact confined_of_fail fun c => policyRow.eq_2 c row h

/-! ## Rows about what stands in schemas -/

section

variable (row : Row)

theorem confined_schemaRow : Confined (.inSchema .owner) (row.head?.map Cell.name) (schemaRow · row) := by
  fun_cases schemaRow {} row with
  | case1 name owner => exact confined_updateSchema .owner _ fun _ => ⟨owner⟩
  | case2 row h => exact confined_of_fail fun c => schemaRow.eq_2 c row h

theorem confined_sequenceRow :
    Confined (.inSchema .sequences) (row.head?.map Cell.name) (sequenceRow · row) := by
  fun_cases sequenceRow {} row with
  | case1 =>
    repeat refine confined_bind _ fun _ => ?_
    exact confined_updateSchema .sequences _ (·.put _ _)
  | case2 row h => exact confined_of_fail fun c => sequenceRow.eq_2 c row h

theorem confined_viewRow : Confined (.inSchema .views) (row.head?.map Cell.name) (viewRow · row) := by
  fun_cases viewRow {} row with
  | case1 => exact confined_bind _ fun query => confined_updateSchema .views _ (·.put _ _)
  | case2 row h => exact confined_of_fail fun c => viewRow.eq_2 c row h

theorem confined_routineRow :
    Confined (.inSchema .routines) (row.head?.map Cell.name) (routineRow · row) := by
  fun_cases routineRow {} row with
  | case1 schema name kind =>
    simp only [routineRow, if_pos ‹_›]
    exact confined_putFirst (p := .routines) Lens.snd ..
  | case2 schema name kind =>
    simp only [routineRow, if_neg ‹_›]
    exact confined_putFirst (p := .routines) Lens.fst ..
  | case3 row h => exact confined_of_fail fun c => routineRow.eq_2 c row h

theorem confined_aggregateRow :
    Confined (.inSchema .aggregates) (row.head?.map Cell.name) (aggregateRow · row) := by
  fun_cases aggregateRow {} row with
  | case1 schema name =>
    refine confined_bind _ fun type => ?_
    exact confined_putFirst (p := .aggregates) Lens.id ..
  | case2 row h => exact confined_of_fail fun c => aggregateRow.eq_2 c row h

theorem confined_typeRow : Confined (.inSchema .types) (row.head?.map Cell.name) (typeRow · row) := by
  fun_cases typeRow {} row with
  | case1 =>
    repeat refine confined_bind _ fun _ => ?_
    exact confined_updateSchema .types _ (·.put _ _)
  | case2 row h => exact confined_of_fail fun c => typeRow.eq_2 c row h

theorem confined_memberRow : Confined (.inSchema .types) none (memberRow · row) := by
  fun_cases memberRow {} row with
  | case1 schema type => exact confined_atType schema type _
  | case2 row h => exact confined_of_fail fun c => memberRow.eq_2 c row h

theorem confined_domainConstraintRow : Confined (.inSchema .types) none (domainConstraintRow · row) := by
  fun_cases domainConstraintRow {} row with
  | case1 schema type => exact confined_atType schema type _
  | case2 row h => exact confined_of_fail fun c => domainConstraintRow.eq_2 c row h

/-! ## Other rows -/

theorem confined_extensionRow : Confined .extensions none (extensionRow · row) := by
  fun_cases extensionRow {} row with
  | case1 name => exact confined_extensions (·.put (Cell.name name) _)
  | case2 row h => exact confined_of_fail fun c => extensionRow.eq_2 c row h

theorem confined_partitionRow : Confined .partitions none (partitionRow · row) := by
  fun_cases partitionRow {} row with
  | case1 _ _ _ _ _ _ hindex =>
    simp only [partitionRow, if_pos hindex]
    exact confined_partitions id (· ++ [_])
  | case2 _ _ _ _ _ _ hindex hbound =>
    simp only [partitionRow, if_neg hindex, if_pos hbound]
    exact confined_partitions (· ++ [_]) id
  | case3 _ _ _ _ _ _ hindex hunbound =>
    simp only [partitionRow, if_neg hindex, if_neg hunbound]
    exact confined_partitions id id
  | case4 row h => exact confined_of_fail fun c => partitionRow.eq_2 c row h

end

/-! ## Any row -/

/-- The schema that a row needs and that is created if it is missing. -/
def Query.created? : Query → Row → Option String
  | .schemas, row | .tables, row | .sequences, row | .views, row | .routines, row | .aggregates, row
  | .types, row => row.head?.map Cell.name
  | _, _ => none

/-- A row of a part's query changes that part. -/
theorem confined_row {p : Part} {q : Query} (h : q ∈ p.queries) (row : Row) :
    Confined p (q.created? row) (q.row · row) := by
  rcases p with _ | _ | p | p
  · obtain rfl := List.mem_singleton.mp h
    exact confined_extensionRow row
  · obtain rfl := List.mem_singleton.mp h
    exact confined_partitionRow row
  · cases p with
    | types =>
      rcases List.mem_cons.mp h with rfl | h
      · exact confined_typeRow row
      · rcases List.mem_cons.mp h with rfl | h
        · exact confined_memberRow row
        · obtain rfl := List.mem_singleton.mp h
          exact confined_domainConstraintRow row
    | owner => obtain rfl := List.mem_singleton.mp h; exact confined_schemaRow row
    | sequences => obtain rfl := List.mem_singleton.mp h; exact confined_sequenceRow row
    | views => obtain rfl := List.mem_singleton.mp h; exact confined_viewRow row
    | routines => obtain rfl := List.mem_singleton.mp h; exact confined_routineRow row
    | aggregates => obtain rfl := List.mem_singleton.mp h; exact confined_aggregateRow row
  · cases p with
    | columns => obtain rfl := List.mem_singleton.mp h; exact confined_columnRow row
    | constraints => obtain rfl := List.mem_singleton.mp h; exact confined_constraintRow row
    | indexes => obtain rfl := List.mem_singleton.mp h; exact confined_indexRow row
    | triggers => obtain rfl := List.mem_singleton.mp h; exact confined_triggerRow row
    | policies => obtain rfl := List.mem_singleton.mp h; exact confined_policyRow row

end SchemaScript.Inspect
