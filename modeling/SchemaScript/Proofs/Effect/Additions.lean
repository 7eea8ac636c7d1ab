import SchemaScript.Proofs.Catalog.Contents
import SchemaScript.Proofs.Effect.Filing

/-!
# What statements that create objects add

What such a statement puts into a catalog does not depend on the catalog, and it shows only under the tags that
the statement defines (`exists_adds`). So statements that define nothing in common may come in any order
(`agrees_of_perm`).
-/

namespace SchemaScript

namespace Effect

open Sql

variable {default : String}

/-! ## Definitions -/

/-- The schemas, extensions and objects that a statement defines; a serial column also defines its sequence. -/
def definitions (default : String) : Statement → List Tag
  | .createSchema (some name) _ => [.schema name]
  | .createExtension name _ _ => [.extension name]
  | .createTable definition =>
    let schema := schemaOf default definition.relation
    let table := definition.relation.name
    .object schema .table table ::
      (definition.elements.filterMap serialColumn?).map fun column =>
        .object schema .sequence (table ++ "_" ++ column ++ "_seq")
  | .createView relation _ _ => [.object (schemaOf default relation) .view relation.name]
  | .createRoutine definition =>
    let (schema, name) := splitPath default definition.path
    [.object schema (if definition.isProcedure then .procedure else .function) name]
  | .createAggregate definition =>
    let (schema, name) := splitPath default definition.path
    [.object schema .aggregate name]
  | .createEnum path _ | .createDomain path _ _ =>
    let (schema, name) := splitPath default path
    [.object schema .type name]
  | .createComposite relation _ => [.object (schemaOf default relation) .type relation.name]
  | .createSequence relation _ => [.object (schemaOf default relation) .sequence relation.name]
  | _ => []

theorem exists_definition_of_mem {s : Statement} {schema name : String}
    (h : .object schema .table name ∈ definitions default s) : ∃ definition, s = .createTable definition := by
  cases s with
  | createTable definition => exact ⟨definition, rfl⟩
  | createRoutine definition =>
    cases hprocedure : definition.isProcedure <;> simp [definitions, hprocedure] at h
  | createSchema name owner => cases name <;> simp [definitions] at h
  | _ => simp [definitions] at h

/-! ## Additions -/

/-- What comes into a catalog: under some tags contents that replace others, a schema if there is none of that
name, and partitions. -/
structure Addition where
  sets : Tag → Option Content := fun _ => none
  needs : Option String := none
  attached : List PartitionAttachment := []

namespace Addition

/-- A schema is created without an owner. -/
def fresh (a : Addition) : Tag → Option Content
  | .schema key => if a.needs = some key then some (.schema .absent) else none
  | _ => none

/-- The first catalog with the addition is the second one. -/
structure Turns (a : Addition) (c c' : Catalog) : Prop where
  metadata : c'.metadata = c.metadata
  contents : ∀ tag, c'.at? tag = (a.sets tag).or ((c.at? tag).or (a.fresh tag))
  partitions : c'.partitions = c.partitions ++ a.attached
  indexPartitions : c'.indexPartitions = c.indexPartitions

variable {a b : Addition} {c c' d d' e e' : Catalog}

theorem Turns.agrees (h : a.Turns c d) (h' : a.Turns c' d') (hc : c.Agrees c') : d.Agrees d' where
  metadata := by rw [h.metadata, h'.metadata, hc.metadata]
  contents tag := by rw [h.contents, h'.contents, hc.contents]
  partitions := by
    rw [h.partitions, h'.partitions]
    exact hc.partitions.append_right a.attached
  indexPartitions := by rw [h.indexPartitions, h'.indexPartitions, hc.indexPartitions]

/-- Two additions that set nothing in common may come in either order. -/
theorem Turns.swap (hapart : ∀ tag, a.sets tag = none ∨ b.sets tag = none) (ha : a.Turns c d)
    (hb : b.Turns d e) (hb' : b.Turns c d') (ha' : a.Turns d' e') : e.Agrees e' where
  metadata := by rw [hb.metadata, ha.metadata, ha'.metadata, hb'.metadata]
  contents tag := by
    have hfresh : (a.fresh tag).or (b.fresh tag) = (b.fresh tag).or (a.fresh tag) := by
      cases tag with
      | schema key =>
        unfold fresh
        by_cases ha : a.needs = some key <;> by_cases hb : b.needs = some key <;> simp [ha, hb]
      | extension key => rfl
      | object schema kind key => rfl
    rw [hb.contents, ha.contents, ha'.contents, hb'.contents]
    rcases hapart tag with hnone | hnone
    · rw [hnone, Option.none_or, Option.none_or]
      cases b.sets tag with
      | some x => rfl
      | none => rw [Option.none_or, Option.none_or, Option.or_assoc, Option.or_assoc, hfresh]
    · rw [hnone, Option.none_or, Option.none_or]
      cases a.sets tag with
      | some x => rfl
      | none => rw [Option.none_or, Option.none_or, Option.or_assoc, Option.or_assoc, hfresh]
  partitions := by
    rw [hb.partitions, ha.partitions, ha'.partitions, hb'.partitions, List.append_assoc,
      List.append_assoc]
    exact List.perm_append_comm.append_left c.partitions
  indexPartitions := by
    rw [hb.indexPartitions, ha.indexPartitions, ha'.indexPartitions, hb'.indexPartitions]

/-- Objects that are put into a schema, and partitions that are attached. -/
def inSchema (schema : String) (objects : List (String × Content))
    (attached : List PartitionAttachment) : Addition where
  sets
    | .object s kind name => if s = schema then Schema.written objects kind name else none
    | _ => none
  needs := some schema
  attached := attached

theorem turns_inSchema (c : Catalog) (schema : String) (objects : List (String × Content))
    (attached : List PartitionAttachment) :
    (inSchema schema objects attached).Turns c
      { c.updateSchema schema (·.putAll objects) with partitions := c.partitions ++ attached } where
  metadata := rfl
  partitions := rfl
  indexPartitions := rfl
  contents tag := by
    refine (Catalog.at?_updateSchema c schema (·.putAll objects) tag).trans ?_
    cases tag with
    | extension key => simp [inSchema, fresh]
    | schema key =>
      by_cases hkey : key = schema
      · subst hkey
        simp [inSchema, fresh, Catalog.at?_schemaOrNew]
      · simp [inSchema, fresh, hkey, Ne.symm hkey]
    | object holder kind key =>
      by_cases hholder : holder = schema
      · subst hholder
        simp [inSchema, fresh, Schema.at?_putAll, Catalog.at?_schemaOrNew_object]
      · simp [inSchema, fresh, hholder]

end Addition

/-! ## Tables -/

/-- The schema and the name of a table that the statement creates without columns. -/
def bareTable? (default : String) : Statement → Option (String × String)
  | .createTable definition =>
    if definition.elements.any isColumn then none
    else some (schemaOf default definition.relation, definition.relation.name)
  | _ => none

theorem Edits.columns_eq_nil_iff {t t' : Table} (h : Edits default t t') :
    t'.columns = [] ↔ t.columns = [] := by
  have hlength := congrArg List.length h.map_fixedPart_eq
  simp only [List.length_map] at hlength
  rw [← List.length_eq_zero_iff, ← List.length_eq_zero_iff, hlength]

variable {d d' : Draft}

/-- What one element adds to a draft. -/
theorem addElement_adds {element : TableElement}
    (h : (addElement default d element).result = .ok d') :
    (d'.table.columns = [] ↔ d.table.columns = [] ∧ isColumn element = false) ∧
    ∀ q ∈ d'.sequences, q ∈ d.sequences ∨
      ∃ column, serialColumn? element = some column ∧ q = serialSequence d.table column q.dataType.spelled := by
  cases gains_addElement h with
  | serial hserial _ hedits =>
    refine ⟨hedits.columns_eq_nil_iff.trans (by simp [isColumn]), fun q hq => ?_⟩
    rcases List.mem_append.mp hq with hq | hq
    · exact .inl hq
    · obtain rfl := List.mem_singleton.mp hq
      exact .inr ⟨_, hserial, rfl⟩
  | typed _ _ hedits =>
    exact ⟨hedits.columns_eq_nil_iff.trans (by simp [isColumn]), fun q hq => .inl hq⟩
  | edited hother hedits =>
    exact ⟨hedits.columns_eq_nil_iff.trans (by simp [hother]), fun q hq => .inl hq⟩

theorem addElements_columns {elements : List TableElement}
    (h : (elements.foldlM (addElement default) d).result = .ok d') :
    d'.table.columns = [] ↔ d.table.columns = [] ∧ elements.any isColumn = false := by
  induction elements generalizing d with
  | nil =>
    obtain rfl := Except.ok.inj h
    simp
  | cons element elements ih =>
    rw [List.foldlM_cons] at h
    obtain ⟨next, hnext, hrest⟩ := Logged.result_bind_eq_ok.mp h
    rw [ih hrest, (addElement_adds hnext).1, and_assoc, List.any_cons, Bool.or_eq_false_iff]

/-- The parts of a drafted table come from its definition. -/
theorem draftOf_adds {definition : TableDefinition} (h : (draftOf default definition).result = .ok d) :
    (d.table.columns = [] ↔ definition.elements.any isColumn = false) ∧
    ∀ q ∈ d.sequences, ∃ column ∈ definition.elements.filterMap serialColumn?,
      q.name.spelled = definition.relation.name ++ "_" ++ column ++ "_seq" ∧
        q.ownerTable = (definition.relation.name : Field String) ∧
        q.ownerColumn = (column : Field String) := by
  obtain ⟨drafted, hdrafted, h⟩ := Logged.result_bind_eq_ok.mp h
  have hsame : d.table.columns = drafted.table.columns ∧ d.sequences = drafted.sequences := by
    split at h <;> (obtain rfl := Except.ok.inj h; exact ⟨rfl, rfl⟩)
  have hsequences := Logged.keeps_foldlM
    (Q := fun d : Draft => d.Filed (schemaOf default definition.relation) definition.relation.name ∧
      ∀ q ∈ d.sequences, ∃ column ∈ definition.elements.filterMap serialColumn?,
        q.name.spelled = definition.relation.name ++ "_" ++ column ++ "_seq" ∧
          q.ownerTable = (definition.relation.name : Field String) ∧ q.ownerColumn = (column : Field String))
    (fun element helement d d' hd hstep => ?_) ⟨filed_newDraft _ _ _, by simp⟩ hdrafted
  · rw [hsame.1, hsame.2]
    exact ⟨(addElements_columns hdrafted).trans (and_iff_right rfl), hsequences.2⟩
  · refine ⟨filed_addElement hd.1 hstep, fun q hq => ?_⟩
    rcases (addElement_adds hstep).2 q hq with hq | ⟨column, hcolumn, hq⟩
    · exact hd.2 q hq
    · refine ⟨column, List.mem_filterMap.mpr ⟨element, helement, hcolumn⟩, ?_⟩
      rw [hq]
      refine ⟨?_, hd.1.table.name, rfl⟩
      show d.table.name.spelled ++ "_" ++ column ++ "_seq" = _
      rw [hd.1.table.name, Field.spelled_text]

/-! ## Statements that create -/

/-- The statement's effect is the addition, whatever the catalog. -/
structure Addition.Adds (a : Addition) (default : String) (s : Statement) : Prop where
  defined : ∀ tag x, a.sets tag = some x → tag ∈ definitions default s
  /-- A table without columns is declared so. -/
  tables : ∀ tag t, a.sets tag = some (.table t) → t.columns = [] → ∃ schema name,
    bareTable? default s = some (schema, name) ∧ tag = .object schema .table name
  turns : ∀ c c', effect default c s = .ok c' → a.Turns c c'

theorem mem_of_written {objects : List (String × Content)} {kind : ObjectKind} {name : String}
    {x : Content} (h : Schema.written objects kind name = some x) :
    (name, x) ∈ objects ∧ x.kind? = some kind := by
  obtain ⟨⟨n, y⟩, hfind, rfl⟩ := Option.map_eq_some_iff.mp h
  obtain ⟨hkind, rfl⟩ : y.kind? = some kind ∧ n = name := by simpa using List.find?_some hfind
  exact ⟨List.mem_reverse.mp (List.mem_of_find?_eq_some hfind), hkind⟩

/-- What is set in a schema is one of the objects. -/
theorem Addition.of_inSchema {schema : String} {objects : List (String × Content)}
    {attached : List PartitionAttachment} {tag : Tag} {x : Content}
    (h : (Addition.inSchema schema objects attached).sets tag = some x) :
    ∃ kind name, tag = .object schema kind name ∧ (name, x) ∈ objects ∧ x.kind? = some kind := by
  cases tag with
  | object holder kind name =>
    obtain ⟨rfl, hwritten⟩ := Option.ite_none_right_eq_some.mp h
    exact ⟨kind, name, rfl, mem_of_written hwritten⟩
  | schema key => contradiction
  | extension key => contradiction

variable {s : Statement}

theorem adds_nothing (h : ∀ c c', effect default c s = .ok c' → c' = c) :
    Addition.Adds {} default s where
  defined tag x hx := by contradiction
  tables tag t ht := by contradiction
  turns c c' hc := by
    obtain rfl := h c c' hc
    refine ⟨rfl, fun tag => ?_, (List.append_nil _).symm, rfl⟩
    have hfresh : Addition.fresh {} tag = none := by cases tag <;> rfl
    rw [hfresh, Option.or_none]
    rfl

/-- One object is put into a schema. -/
theorem adds_put {schema name : String} {kind : ObjectKind} {x : Content}
    (hdefined : definitions default s = [.object schema kind name]) (hkind : x.kind? = some kind)
    (htable : kind ≠ .table)
    (h : ∀ c c', effect default c s = .ok c' → c' = c.updateSchema schema fun s => s.put name x) :
    (Addition.inSchema schema [(name, x)] []).Adds default s := by
  have hsets {tag : Tag} {y : Content} (hy : (Addition.inSchema schema [(name, x)] []).sets tag = some y) :
      tag = .object schema kind name ∧ y = x := by
    obtain ⟨k, n, rfl, hmem, hk⟩ := Addition.of_inSchema hy
    obtain ⟨rfl, rfl⟩ := Prod.mk.inj (List.mem_singleton.mp hmem)
    obtain rfl := Option.some.inj (hk.symm.trans hkind)
    exact ⟨rfl, rfl⟩
  refine ⟨fun tag y hy => ?_, fun tag t ht => ?_, fun c c' hc => ?_⟩
  · rw [hdefined, (hsets hy).1]
    exact List.mem_singleton_self _
  · rw [← (hsets ht).2] at hkind
    exact absurd (Option.some.inj hkind).symm htable
  · obtain rfl := h c c' hc
    have hturns := Addition.turns_inSchema c schema [(name, x)] []
    rwa [List.append_nil] at hturns

theorem putAll_sequences (s : Schema) (sequences : List Sequence) :
    s.putAll (sequences.map fun q => (q.name.spelled, .sequence q)) = putSequences sequences s := by
  induction sequences generalizing s with
  | nil => rfl
  | cons q sequences ih => exact ih (s.put q.name.spelled (.sequence q))

/-- What a drafted table puts into its schema, the sequences first. -/
def objectsOf (d : Draft) (name : String) : List (String × Content) :=
  d.sequences.map (fun q => (q.name.spelled, .sequence q)) ++ [(name, .table d.table)]

theorem objectsOf_cases {name key : String} {x : Content} (h : (key, x) ∈ objectsOf d name) :
    (∃ q ∈ d.sequences, key = q.name.spelled ∧ x = .sequence q) ∨ key = name ∧ x = .table d.table := by
  rcases List.mem_append.mp h with h | h
  · obtain ⟨q, hq, heq⟩ := List.mem_map.mp h
    obtain ⟨rfl, rfl⟩ := Prod.mk.inj heq
    exact .inl ⟨q, hq, rfl, rfl⟩
  · exact .inr (Prod.mk.inj (List.mem_singleton.mp h))

theorem putAll_objectsOf (s : Schema) (d : Draft) (name : String) : s.putAll (objectsOf d name) =
    { putSequences d.sequences s with tables := (putSequences d.sequences s).tables.put name d.table } := by
  unfold objectsOf
  show List.foldl _ _ (_ ++ _) = _
  rw [List.foldl_append]
  exact congrArg (fun s => s.put name (.table d.table)) (putAll_sequences s d.sequences)

theorem eq_of_createTable {definition : TableDefinition} {c c' : Catalog}
    (hdraft : (draftOf default definition).result = .ok d)
    (h : effect default c (.createTable definition) = .ok c') :
    c' = { c.updateSchema (schemaOf default definition.relation)
        (·.putAll (objectsOf d definition.relation.name)) with
      partitions := c.partitions ++ (attachmentOf default definition).toList } := by
  obtain ⟨drafted, hdrafted, h⟩ := Logged.result_bind_eq_ok.mp h
  obtain rfl := Except.ok.inj (hdrafted.symm.trans hdraft)
  rw [funext fun s => putAll_objectsOf s drafted definition.relation.name]
  dsimp only at h
  split at h <;> exact (Except.ok.inj h).symm

theorem exists_adds_createTable (definition : TableDefinition) :
    ∃ a : Addition, a.Adds default (.createTable definition) := by
  cases hdraft : (draftOf default definition).result with
  | error fault =>
    refine ⟨{}, adds_nothing fun c c' hc => ?_⟩
    obtain ⟨d, hd, -⟩ := Logged.result_bind_eq_ok.mp hc
    rw [hdraft] at hd
    contradiction
  | ok d =>
    obtain ⟨hcolumns, hsequences⟩ := draftOf_adds hdraft
    refine ⟨.inSchema (schemaOf default definition.relation) (objectsOf d definition.relation.name)
      (attachmentOf default definition).toList, fun tag x hx => ?_, fun tag t ht hnil => ?_,
      fun c c' hc => ?_⟩
    · obtain ⟨kind, name, rfl, hobject, hkind⟩ := Addition.of_inSchema hx
      rcases objectsOf_cases hobject with ⟨q, hq, rfl, rfl⟩ | ⟨rfl, rfl⟩
      · obtain rfl := Option.some.inj hkind
        obtain ⟨column, hcolumn, hname, -⟩ := hsequences q hq
        refine List.mem_cons_of_mem _ (List.mem_map.mpr ⟨column, hcolumn, ?_⟩)
        rw [hname]
      · obtain rfl := Option.some.inj hkind
        exact List.mem_cons_self ..
    · obtain ⟨kind, name, rfl, hobject, hkind⟩ := Addition.of_inSchema ht
      rcases objectsOf_cases hobject with ⟨q, -, -, hne⟩ | ⟨rfl, htable⟩
      · contradiction
      · obtain rfl := Option.some.inj hkind
        obtain rfl := Content.table.inj htable
        exact ⟨_, _, if_neg (by rw [hcolumns.mp hnil]; decide), rfl⟩
    · rw [eq_of_createTable hdraft hc]
      exact Addition.turns_inSchema c _ _ _

theorem exists_adds_createSequence (relation : RelationName) (options : List SequenceOption) :
    ∃ a : Addition, a.Adds default (.createSequence relation options) := by
  cases hoptions : options.foldlM sequenceOption
      { schema := schemaOf default relation, name := relation.name } with
  | error fault =>
    refine ⟨{}, adds_nothing fun c c' hc => ?_⟩
    change createSequence default c relation options = .ok c' at hc
    unfold createSequence at hc
    dsimp only at hc
    rw [hoptions] at hc
    contradiction
  | ok q =>
    refine ⟨_, adds_put (x := .sequence q) rfl rfl (by decide) fun c c' hc => ?_⟩
    change createSequence default c relation options = .ok c' at hc
    unfold createSequence at hc
    dsimp only at hc
    rw [hoptions] at hc
    exact (Except.ok.inj hc).symm

/-- The parameter list of a routine. -/
def signatureOf (definition : RoutineDefinition) : String :=
  commaList ((definition.parameters.mapIdx parameterAt).map (·.sql))

/-- The routine has the parameters and the result that the definition gives it. -/
inductive IsRoutine (definition : RoutineDefinition) : Content → Prop
  | function {f : StoredFunction} (signature : f.signature = (signatureOf definition : Field String))
      (returnType : f.returnType = (resultType definition : Field String)) : IsRoutine definition (.function f)
  | procedure {p : Procedure} (signature : p.signature = (signatureOf definition : Field String)) :
    IsRoutine definition (.procedure p)

/-- Whether a routine has a body only shows in the log. -/
theorem result_createRoutine (default : String) (definition : RoutineDefinition) :
    ∃ x : Content, x.kind? = some (if definition.isProcedure then .procedure else .function) ∧
      IsRoutine definition x ∧ ∀ c, (createRoutine default c definition).result =
        .ok (c.updateSchema (splitPath default definition.path).1 fun s =>
          s.put (splitPath default definition.path).2 x) := by
  by_cases hprocedure : definition.isProcedure
  · refine ⟨.procedure ?procedure, by rw [if_pos hprocedure]; rfl, ?made, fun c => ?result⟩
    case result =>
      unfold createRoutine
      dsimp only
      simp only [hprocedure, if_true]
      split <;> rfl
    case made => exact .procedure rfl
  · refine ⟨.function ?function, by rw [if_neg hprocedure]; rfl, ?made, fun c => ?result⟩
    case result =>
      unfold createRoutine
      dsimp only
      simp only [hprocedure]
      split <;> rfl
    case made => exact .function rfl rfl

theorem exists_adds_createRoutine (definition : RoutineDefinition) :
    ∃ a : Addition, a.Adds default (.createRoutine definition) := by
  obtain ⟨x, hkind, -, hresult⟩ := result_createRoutine default definition
  refine ⟨_, adds_put rfl hkind ?_ fun c c' hc => Except.ok.inj (hc.symm.trans (hresult c))⟩
  split <;> decide

theorem exists_adds_createSchema (name owner : Option String) :
    ∃ a : Addition, a.Adds default (.createSchema name owner) := by
  cases name with
  | none => exact ⟨{}, adds_nothing fun c c' hc => (Except.ok.inj hc).symm⟩
  | some name =>
    let owned : Option Content := (Text.given owner).map fun o => .schema o
    let a : Addition := { sets := fun tag => if tag = .schema name then owned else none, needs := some name }
    refine ⟨a, fun tag x hx => ?_, fun tag t ht => ?_, fun c c' hc => ?_⟩
    · obtain ⟨rfl, -⟩ := Option.ite_none_right_eq_some.mp hx
      exact List.mem_singleton_self _
    · obtain ⟨-, howned⟩ := Option.ite_none_right_eq_some.mp ht
      obtain ⟨o, -, hne⟩ := Option.map_eq_some_iff.mp howned
      contradiction
    · obtain rfl := Except.ok.inj hc
      refine ⟨rfl, fun tag => ?_, (List.append_nil _).symm, rfl⟩
      refine (Catalog.at?_updateSchema c name _ tag).trans ?_
      cases tag with
      | extension key => simp [a, Addition.fresh]
      | schema key =>
        by_cases hkey : key = name
        · subst hkey
          cases howner : Text.given owner with
          | none => simp [a, owned, Addition.fresh, howner, Catalog.at?_schemaOrNew]
          | some o => simp [a, owned, Addition.fresh, howner]
        · simp [a, Addition.fresh, hkey, Ne.symm hkey]
      | object holder kind key =>
        by_cases hholder : holder = name
        · subst hholder
          cases howner : Text.given owner <;>
            simp [a, Addition.fresh, ← Catalog.at?_schemaOrNew_object, Schema.at?]
        · simp [a, Addition.fresh, hholder]

theorem exists_adds_createExtension (name : String) (schema version : Option String) :
    ∃ a : Addition, a.Adds default (.createExtension name schema version) := by
  let extension : Extension := { name, schema, version }
  let a : Addition := { sets := fun tag => if tag = .extension name then some (.extension extension) else none }
  refine ⟨a, fun tag x hx => ?_, fun tag t ht => ?_, fun c c' hc => ?_⟩
  · obtain ⟨rfl, -⟩ := Option.ite_none_right_eq_some.mp hx
    exact List.mem_singleton_self _
  · obtain ⟨-, hne⟩ := Option.ite_none_right_eq_some.mp ht
    simp at hne
  · obtain rfl := Except.ok.inj hc
    refine ⟨rfl, fun tag => ?_, (List.append_nil _).symm, rfl⟩
    cases tag with
    | extension key =>
      by_cases hkey : key = name <;>
        simp [a, extension, Addition.fresh, createExtension, Catalog.at?_extension, Entries.get?_put, hkey]
    | schema key => simp [a, Addition.fresh, createExtension, Catalog.at?_schema]
    | object schema kind key => simp [a, Addition.fresh, createExtension, Catalog.at?_object]

/-- What a statement adds that creates something depends on the statement alone. -/
theorem exists_adds (default : String) (hs : s.isDependent = false) :
    ∃ a : Addition, a.Adds default s := by
  cases s with
  | createTable definition => exact exists_adds_createTable definition
  | createSequence relation options => exact exists_adds_createSequence relation options
  | createRoutine definition => exact exists_adds_createRoutine definition
  | createSchema name owner => exact exists_adds_createSchema name owner
  | createExtension name schema version => exact exists_adds_createExtension name schema version
  | createView relation definition materialized =>
    exact ⟨_, adds_put (x := .view _) rfl rfl (by decide) fun c c' hc =>
      (Except.ok.inj hc).symm⟩
  | createAggregate definition =>
    exact ⟨_, adds_put (x := .aggregate _) rfl rfl (by decide) fun c c' hc =>
      (Except.ok.inj hc).symm⟩
  | createEnum path labels =>
    exact ⟨_, adds_put (x := .type _) rfl rfl (by decide) fun c c' hc =>
      (Except.ok.inj hc).symm⟩
  | createDomain path base rules =>
    exact ⟨_, adds_put (x := .type _) rfl rfl (by decide) fun c c' hc =>
      (Except.ok.inj hc).symm⟩
  | createComposite relation members =>
    exact ⟨_, adds_put (x := .type _) rfl rfl (by decide) fun c c' hc =>
      (Except.ok.inj hc).symm⟩
  | createTableAs | define label | other label =>
    exact ⟨{}, adds_nothing fun c c' hc => (Except.ok.inj hc).symm⟩
  | createIndex definition | createTrigger definition | createPolicy definition
  | alterTable relation commands | alterIndex relation commands | comment kind path text
  | otherComment label => contradiction

/-! ## Any order -/

/-- Nothing is defined by both statements. -/
def Apart (default : String) (s t : Statement) : Prop :=
  List.Disjoint (definitions default s) (definitions default t)

instance (default : String) : DecidableRel (Apart default) := fun s t =>
  decidable_of_iff (∀ tag ∈ definitions default s, tag ∉ definitions default t) Iff.rfl

theorem Apart.symm {t : Statement} (h : Apart default s t) : Apart default t s :=
  List.Disjoint.symm h

variable {c c' e e' : Catalog} {all all' : List Statement}

theorem agrees_effect (hs : s.isDependent = false) (h : c.Agrees c') {d d' : Catalog}
    (hd : effect default c s = .ok d) (hd' : effect default c' s = .ok d') : d.Agrees d' := by
  obtain ⟨a, ha⟩ := exists_adds default hs
  exact (ha.turns c d hd).agrees (ha.turns c' d' hd') h

theorem agrees_effects (hfirst : ∀ s ∈ all, s.isDependent = false) (h : c.Agrees c')
    (he : all.foldlM (effect default) c = .ok e) (he' : all.foldlM (effect default) c' = .ok e') :
    e.Agrees e' := by
  induction all generalizing c c' with
  | nil =>
    obtain rfl := Except.ok.inj he
    obtain rfl := Except.ok.inj he'
    exact h
  | cons s all ih =>
    rw [List.forall_mem_cons] at hfirst
    rw [List.foldlM_cons] at he he'
    obtain ⟨d, hd, he⟩ := exists_of_bind_eq_ok he
    obtain ⟨d', hd', he'⟩ := exists_of_bind_eq_ok he'
    exact ih hfirst.2 (agrees_effect hfirst.1 h hd hd') he he'

/-- Two statements in turn, either way around. -/
theorem agrees_swap {t : Statement} {d d' : Catalog} (hs : s.isDependent = false) (ht : t.isDependent = false)
    (hapart : Apart default s t) (hd : effect default c s = .ok d) (he : effect default d t = .ok e)
    (hd' : effect default c t = .ok d') (he' : effect default d' s = .ok e') : e.Agrees e' := by
  obtain ⟨a, ha⟩ := exists_adds default hs
  obtain ⟨b, hb⟩ := exists_adds default ht
  have hsets (tag : Tag) : a.sets tag = none ∨ b.sets tag = none := by
    by_contra hboth
    rw [not_or] at hboth
    obtain ⟨x, hx⟩ := Option.ne_none_iff_exists'.mp hboth.1
    obtain ⟨y, hy⟩ := Option.ne_none_iff_exists'.mp hboth.2
    exact hapart (ha.defined tag x hx) (hb.defined tag y hy)
  exact Addition.Turns.swap hsets (ha.turns c d hd) (hb.turns d e he) (hb.turns c d' hd') (ha.turns d' e' he')

/-- Statements that define nothing in common may come in any order. -/
theorem agrees_of_perm (hperm : all.Perm all') (hfirst : ∀ s ∈ all, s.isDependent = false)
    (hapart : all.Pairwise (Apart default)) (htaken : ∀ s ∈ all, refusal? default s = none)
    (hc : c.Writable) (he : all.foldlM (effect default) c = .ok e)
    (he' : all'.foldlM (effect default) c = .ok e') : e.Agrees e' := by
  -- every list on the way has a run from the same catalog, since no statement is refused
  induction hperm generalizing c e e' with
  | nil =>
    obtain rfl := Except.ok.inj he
    obtain rfl := Except.ok.inj he'
    exact .refl _
  | @cons s all all' hperm ih =>
    rw [List.forall_mem_cons] at hfirst htaken
    rw [List.foldlM_cons] at he he'
    obtain ⟨d, hd, he⟩ := exists_of_bind_eq_ok he
    obtain ⟨d', hd', he'⟩ := exists_of_bind_eq_ok he'
    obtain rfl := Except.ok.inj (hd.symm.trans hd')
    exact ih hfirst.2 (List.pairwise_cons.mp hapart).2 htaken.2 (writable_effect hc hd) he he'
  | swap s t all =>
    rw [List.forall_mem_cons, List.forall_mem_cons] at hfirst
    rw [List.foldlM_cons] at he he'
    obtain ⟨d, hd, he⟩ := exists_of_bind_eq_ok he
    obtain ⟨d', hd', he'⟩ := exists_of_bind_eq_ok he'
    rw [List.foldlM_cons] at he he'
    obtain ⟨f, hf, he⟩ := exists_of_bind_eq_ok he
    obtain ⟨f', hf', he'⟩ := exists_of_bind_eq_ok he'
    have hdisjoint : Apart default t s := (List.pairwise_cons.mp hapart).1 s (by simp)
    exact agrees_effects hfirst.2.2 (agrees_swap hfirst.1 hfirst.2.1 hdisjoint hd hf hd' hf') he he'
  | @trans first second third hperm hperm' ih ih' =>
    have hfirst' : ∀ s ∈ second, s.isDependent = false := fun s hs => hfirst s (hperm.mem_iff.mpr hs)
    have htaken' : ∀ s ∈ second, refusal? default s = none := fun s hs =>
      htaken s (hperm.mem_iff.mpr hs)
    obtain ⟨m, hm⟩ := exists_effects hc htaken'
    have hapart' : second.Pairwise (Apart default) :=
      (hperm.pairwise_iff fun h => h.symm).mp hapart
    exact (ih hfirst hapart htaken hc he hm).trans (ih' hfirst' hapart' htaken' hc hm he')

end Effect
end SchemaScript
