import SchemaScript.Proofs.Ddl.Addressing
import SchemaScript.Proofs.Effect.Edits
import SchemaScript.Proofs.Effect.Outcome

/-!
# Scripts file their objects properly

Each edit of a table keeps what the table owns in order (`Edit.orderly`), each statement keeps the catalog
filed (`filed_applyTo`), and so does the copying of columns to partitions at the end (`filed_inheritAll`). A
catalog that a script describes is therefore filed after every statement on the way and at the end, and all
that is written about a table has the same reference to it (`Catalog.filed_ofSql`).
-/

namespace SchemaScript

namespace Effect

open Relation (ReflTransGen)
open Sql

variable {default : String} {t t' : Table} {c c' : Catalog}

/-! ## Edits -/

theorem each_changeNamed? {α : Type} {Fits : String → α → Prop} {entries entries' : Entries α}
    {name : String} {f : α → α} (h : entries.Each Fits)
    (hchange : changeNamed? entries name f = some entries') (hf : ∀ a, Fits name a → Fits name (f a)) :
    entries'.Each Fits := by
  obtain ⟨value, hvalue, rfl⟩ := Option.map_eq_some_iff.mp hchange
  exact h.put (hf value (h name value hvalue))

theorem numbered_keyColumns (names : List String) : Numbered (·.position) (keyColumns names) :=
  numbered_mapIdx names fun _ _ => rfl

theorem filed_constraintOf {clause : ConstraintClause} {c : Constraint}
    (h : constraintOf default t clause = some c) : c.Filed t.schema t.name c.name.spelled := by
  unfold constraintOf at h
  dsimp only at h
  split at h
  all_goals
    simp only [Option.some.injEq, reduceCtorEq] at h
    try subst h
  all_goals
    refine ⟨rfl, rfl, rfl, ?_, ?_⟩
    · first | exact numbered_keyColumns _ | exact numbered_nil
    · first | exact numbered_keyColumns _ | exact numbered_nil

theorem orderly_putConstraint (h : t.Orderly) {c : Constraint}
    (hc : c.Filed t.schema t.name c.name.spelled) : (putConstraint t c).Orderly :=
  { h with constraints := h.constraints.put hc }

/-- What an edit adds names the table. -/
theorem Edit.orderly (h : t.Orderly) (hedit : Edit default t t') : t'.Orderly := by
  cases hedit with
  | @columns columns same =>
    have hpositions : columns.map (·.position) = t.columns.map (·.position) := by
      simpa [fixedPart, Function.comp_def] using congrArg (List.map (·.position)) same
    exact { h with columns := h.columns.of_map_eq hpositions }
  | constraint hc => exact orderly_putConstraint h (filed_constraintOf hc)
  | index definition =>
    refine { h with indexes := h.indexes.put ⟨rfl, rfl, rfl, ?_, rfl⟩ }
    exact numbered_mapIdx definition.elements fun _ _ => rfl
  | trigger definition => exact { h with triggers := h.triggers.put ⟨rfl, rfl, rfl⟩ }
  | policy definition => exact { h with policies := h.policies.put ⟨rfl, rfl, rfl⟩ }
  | rowSecurity enabled => exact { h with }
  | comment text => exact { h with }
  | constraintComment hchange =>
    refine { h with constraints := each_changeNamed? h.constraints hchange fun x hx => ?_ }
    exact { hx with }
  | triggerComment hchange =>
    refine { h with triggers := each_changeNamed? h.triggers hchange fun x hx => ?_ }
    exact { hx with }
  | indexComment hchange =>
    refine { h with indexes := each_changeNamed? h.indexes hchange fun x hx => ?_ }
    exact { hx with }

theorem Edits.orderly (h : t.Orderly) (hedits : Edits default t t') : t'.Orderly := by
  induction hedits with
  | refl => exact h
  | tail _ hedit ih => exact hedit.orderly ih

theorem Edits.filed {schema name : String} (h : t.Filed schema name) (hedits : Edits default t t') :
    t'.Filed schema name := by
  obtain ⟨hschema, hname⟩ := hedits.name_eq
  exact ⟨hname.trans h.name, hschema.trans h.schema, hedits.orderly h.orderly⟩

/-! ## Additions to objects -/

theorem filed_commentObject? {schema name : String} {s s' : Schema} {kind : CommentKind}
    {text : Option String} (h : s.Filed schema) (hchange : commentObject? s kind name text = some s')
    (htables : s'.tables = s.tables) : s'.Filed schema := by
  have hfiled : s'.tables.Each (Table.Filed schema) := htables ▸ h.tables
  cases kind with
  | table | index =>
    obtain ⟨tables, -, rfl⟩ := Option.map_eq_some_iff.mp hchange
    exact { h with tables := hfiled }
  | view | materializedView =>
    obtain ⟨views, hviews, rfl⟩ := Option.map_eq_some_iff.mp hchange
    exact { h with views := each_changeNamed? h.views hviews fun _ hx => { hx with } }
  | sequence =>
    obtain ⟨sequences, hsequences, rfl⟩ := Option.map_eq_some_iff.mp hchange
    exact { h with sequences := each_changeNamed? h.sequences hsequences fun _ hx => { hx with } }
  | type | domain =>
    obtain ⟨types, htypes, rfl⟩ := Option.map_eq_some_iff.mp hchange
    refine { h with types := each_changeNamed? h.types htypes fun _ hx => ?_ }
    exact { hx with kind := { hx.kind with } }
  | function =>
    obtain ⟨functions, hfunctions, rfl⟩ := Option.map_eq_some_iff.mp hchange
    exact { h with functions := each_changeNamed? h.functions hfunctions fun _ hx => { hx with } }
  | procedure =>
    obtain ⟨procedures, hprocedures, rfl⟩ := Option.map_eq_some_iff.mp hchange
    exact { h with procedures := each_changeNamed? h.procedures hprocedures fun _ hx => { hx with } }
  | aggregate =>
    obtain ⟨aggregates, haggregates, rfl⟩ := Option.map_eq_some_iff.mp hchange
    exact { h with aggregates := each_changeNamed? h.aggregates haggregates fun _ hx => { hx with } }
  | extension | column | constraint | trigger => contradiction

theorem Amends.filed (h : c.Filed) (hamends : Amends default c c') : c'.Filed := by
  cases hamends with
  | unchanged => exact h
  | table found edits parts =>
    have htable := h.findTable? found
    have hmodified := h.modifyTable fun _ _ => edits.filed htable
    refine { hmodified with partitions := fun a ha => ?_ }
    rcases List.mem_append.mp ha with ha | ha
    · exact h.partitions a ha
    · obtain ⟨hschema, hname, childSchema, childTable, hchild⟩ := parts a ha
      exact ⟨_, _, childSchema, childTable, hschema.trans htable.schema, hname.trans htable.name, hchild⟩
  | indexPartitions gained => exact { h with }
  | object found change tables =>
    exact { h with schemas := h.schemas.put (filed_commentObject? (h.schemas _ _ found) change tables) }
  | extension hchange =>
    exact { h with extensions := each_changeNamed? h.extensions hchange fun _ hx => hx }

/-! ## New objects -/

theorem filed_createView (h : c.Filed) (relation : RelationName) (definition : String)
    (materialized : Bool) : (createView default c relation definition materialized).Filed := by
  unfold createView
  exact h.updateSchema fun _ hs => { hs with views := hs.views.put ⟨rfl, rfl⟩ }

theorem filed_putType {schema name : String} (h : c.Filed) {type : UserType}
    (htype : type.Filed schema name) : (putType c schema name type).Filed :=
  h.updateSchema fun _ hs => { hs with types := hs.types.put htype }

theorem filed_domainRules {schema name : String} {type : UserType} (h : type.Filed schema name)
    (hkind : type.kind = .domain) (rules : List DomainRule) :
    (rules.foldl domainRule type).Filed schema name := by
  induction rules generalizing type with
  | nil => exact h
  | cons rule rules ih =>
    have hrule : (domainRule type rule).kind = .domain := by cases rule <;> exact hkind
    refine ih ?_ hrule
    have hlabels : (domainRule type rule).labels = type.labels := by cases rule <;> rfl
    have hmembers : (domainRule type rule).members = type.members := by cases rule <;> rfl
    refine ⟨?_, ?_, ⟨.inr ?_, .inr ?_, .inl hrule⟩, ?_⟩
    · cases rule <;> exact h.name
    · cases rule <;> exact h.schema
    · rw [hlabels]
      exact h.kind.labels.resolve_left (by simp [hkind])
    · rw [hmembers]
      exact h.kind.members.resolve_left (by simp [hkind])
    · rw [hmembers]
      exact h.members

theorem filed_createDomain (h : c.Filed) (path : List String) (base : WrittenType)
    (rules : List DomainRule) : (createDomain default c path base rules).Filed := by
  refine filed_putType h (filed_domainRules ?_ rfl rules)
  exact ⟨rfl, rfl, ⟨.inr rfl, .inr rfl, .inl rfl⟩, numbered_nil⟩

theorem filed_createComposite (h : c.Filed) (relation : RelationName)
    (members : List (String × WrittenType)) : (createComposite default c relation members).Filed := by
  refine filed_putType h ⟨rfl, rfl, ⟨.inr rfl, .inl rfl, .inr ⟨rfl, rfl, rfl, rfl⟩⟩, ?_⟩
  exact numbered_mapIdx members fun _ _ => rfl

/-- Options change neither the name of a sequence nor its schema. -/
theorem filed_sequenceOptions {schema name : String} (options : List SequenceOption) {s : Sequence}
    (h : FiledUnder Sequence.name Sequence.schema schema name s) :
    Gives (FiledUnder Sequence.name Sequence.schema schema name)
      (options.foldlM sequenceOption s) := by
  refine gives_foldlM (fun s h option _ => ?_) h
  cases option with
  | start n | increment n => exact (gives_wholeNumber n).bind fun _ _ => { h with }
  | minimum n | maximum n => exact (gives_maybeWholeNumber n).bind fun _ _ => { h with }
  | dataType type | cycle enabled => exact { h with }
  | ownedBy path =>
    dsimp only [sequenceOption]
    split
    · exact { h with }
    · exact h
  | other => exact h

theorem filed_createSequence (h : c.Filed) {relation : RelationName} {options : List SequenceOption}
    (hresult : createSequence default c relation options = .ok c') : c'.Filed := by
  have hoptions : Gives
      (FiledUnder Sequence.name Sequence.schema (schemaOf default relation) relation.name)
      (options.foldlM sequenceOption { schema := schemaOf default relation, name := relation.name }) :=
    filed_sequenceOptions options ⟨rfl, rfl⟩
  unfold createSequence at hresult
  dsimp only at hresult
  cases hs : options.foldlM sequenceOption
      { schema := schemaOf default relation, name := relation.name } with
  | error fault =>
    rw [hs] at hresult
    contradiction
  | ok s =>
    rw [hs] at hresult hoptions
    obtain rfl := Except.ok.inj hresult
    exact h.updateSchema fun _ hschema => { hschema with sequences := hschema.sequences.put hoptions }

theorem filed_createRoutine (h : c.Filed) {definition : RoutineDefinition}
    (hresult : (createRoutine default c definition).result = .ok c') : c'.Filed := by
  unfold createRoutine at hresult
  dsimp only at hresult
  -- whether the routine has a body only shows in the log
  split_ifs at hresult
  all_goals
    obtain rfl := Except.ok.inj hresult
    refine h.updateSchema fun _ hs => ?_
  · exact { hs with procedures := hs.procedures.put ⟨rfl, rfl⟩ }
  · exact { hs with functions := hs.functions.put ⟨rfl, rfl⟩ }
  · exact { hs with procedures := hs.procedures.put ⟨rfl, rfl⟩ }
  · exact { hs with functions := hs.functions.put ⟨rfl, rfl⟩ }

theorem aggregateEntry_sameName (hasArguments : Bool) (a : Aggregate)
    (entry : String × DefinitionValue) :
    (aggregateEntry hasArguments a entry).name = a.name ∧
      (aggregateEntry hasArguments a entry).schema = a.schema := by
  unfold aggregateEntry
  dsimp only
  split
  · exact ⟨rfl, rfl⟩
  · exact ⟨rfl, rfl⟩
  · exact ⟨rfl, rfl⟩
  · exact ⟨rfl, rfl⟩
  · split <;> exact ⟨rfl, rfl⟩
  · exact ⟨rfl, rfl⟩

theorem filed_createAggregate (h : c.Filed) (definition : AggregateDefinition) :
    (createAggregate default c definition).Filed := by
  have hentries {schema name : String} (hasArguments : Bool) (entries : List (String × DefinitionValue))
      (a : Aggregate) (ha : FiledUnder Aggregate.name Aggregate.schema schema name a) :
      FiledUnder Aggregate.name Aggregate.schema schema name
        (entries.foldl (aggregateEntry hasArguments) a) := by
    induction entries generalizing a with
    | nil => exact ha
    | cons entry entries ih =>
      obtain ⟨hname, hschema⟩ := aggregateEntry_sameName hasArguments a entry
      exact ih _ ⟨hname.trans ha.name, hschema.trans ha.schema⟩
  unfold createAggregate
  refine h.updateSchema fun s hs => ?_
  exact { hs with aggregates := hs.aggregates.put (hentries _ _ _ ⟨rfl, rfl⟩) }

/-! ## New tables -/

/-- A table in the making is filed, and its sequences belong to its schema. -/
structure Draft.Filed (schema name : String) (d : Draft) : Prop where
  table : d.table.Filed schema name
  sequences : ∀ q ∈ d.sequences,
    FiledUnder Sequence.name Sequence.schema schema q.name.spelled q

theorem gives_typedColumn_position (t : Table) (name : String) (position : Int) (type : WrittenType) :
    Gives (fun c => c.position = (position : Field Int)) (typedColumn t name position type) := by
  have hnumber (written : String) : Gives (fun _ => True) (wholeModifier written) :=
    gives_wholeNumber _
  unfold typedColumn
  dsimp only
  split
  · rfl
  · split
    · split <;> rfl
    · split
      · exact (hnumber _).bind fun _ _ => rfl
      · split
        · refine (hnumber _).bind fun _ _ => ?_
          split
          · rfl
          · exact (hnumber _).bind fun _ _ => rfl
        · rfl

variable {schema name : String} {d : Draft}

theorem filed_addElement (h : d.Filed schema name) {element : TableElement} {d' : Draft}
    (hresult : (addElement default d element).result = .ok d') : d'.Filed schema name := by
  -- the next position is the number of columns so far and one
  have happend {c : Column} (hc : c.position = (Int.ofNat d.table.columns.length + 1 : Int)) :
      { d.table with columns := d.table.columns ++ [c] }.Filed schema name := by
    refine { h.table with orderly := { h.table.orderly with columns := ?_ } }
    exact h.table.orderly.columns.append_one hc
  cases gains_addElement hresult with
  | serial _ hposition hedits =>
    refine ⟨hedits.filed (happend hposition), fun q hq => ?_⟩
    rcases List.mem_append.mp hq with hq | hq
    · exact h.sequences q hq
    · obtain rfl := List.mem_singleton.mp hq
      exact ⟨rfl, h.table.schema⟩
  | @typed definition _ _ _ htyped hedits =>
    have hposition := gives_typedColumn_position d.table definition.name
      (Int.ofNat d.table.columns.length + 1) definition.type
    rw [htyped] at hposition
    exact ⟨hedits.filed (happend hposition), h.sequences⟩
  | edited _ hedits => exact ⟨hedits.filed h.table, h.sequences⟩

theorem filed_newDraft (schema name : String) (kind : TableKind) :
    Draft.Filed schema name { table := { schema, name, kind } } := by
  refine ⟨⟨rfl, rfl, numbered_nil, ?_, ?_, ?_, ?_⟩, by simp⟩
  all_goals exact Entries.each_empty

theorem filed_draftOf {definition : TableDefinition}
    (hresult : (draftOf default definition).result = .ok d) :
    d.Filed (schemaOf default definition.relation) definition.relation.name := by
  obtain ⟨drafted, hdrafted, hresult⟩ := Logged.result_bind_eq_ok.mp hresult
  have hfiled := Logged.keeps_foldlM
    (Q := Draft.Filed (schemaOf default definition.relation) definition.relation.name)
    (fun element _ d d' hd hstep => filed_addElement hd hstep) (filed_newDraft _ _ _) hdrafted
  split at hresult
  · obtain rfl := Except.ok.inj hresult
    exact hfiled
  · obtain rfl := Except.ok.inj hresult
    exact ⟨{ hfiled.table with orderly := { hfiled.table.orderly with } }, hfiled.sequences⟩

theorem filed_putSequences {s : Schema} (h : s.Filed schema) {sequences : List Sequence}
    (hsequences : ∀ q ∈ sequences, FiledUnder Sequence.name Sequence.schema schema q.name.spelled q) :
    (putSequences sequences s).Filed schema := by
  have hall (sequences : List Sequence) (all : Entries Sequence)
      (hall : all.Each (FiledUnder Sequence.name Sequence.schema schema))
      (hsequences : ∀ q ∈ sequences, FiledUnder Sequence.name Sequence.schema schema q.name.spelled q) :
      (sequences.foldl (fun all q => all.put q.name.spelled q) all).Each
        (FiledUnder Sequence.name Sequence.schema schema) := by
    induction sequences generalizing all with
    | nil => exact hall
    | cons q sequences ih =>
      rw [List.forall_mem_cons] at hsequences
      exact ih _ (hall.put hsequences.1) hsequences.2
  exact { h with sequences := hall sequences _ h.sequences hsequences }

theorem named_attachmentOf {definition : TableDefinition} {a : PartitionAttachment}
    (h : attachmentOf default definition = some a) : a.Named := by
  unfold attachmentOf at h
  split at h
  · obtain rfl := Option.some.inj h
    exact ⟨_, _, _, _, rfl, rfl, rfl, rfl⟩
  · contradiction

theorem filed_createTable (h : c.Filed) {definition : TableDefinition}
    (hresult : (createTable default c definition).result = .ok c') : c'.Filed := by
  obtain ⟨d, hd, hresult⟩ := Logged.result_bind_eq_ok.mp hresult
  have hdraft := filed_draftOf hd
  have hupdated : (c.updateSchema (schemaOf default definition.relation) fun s =>
      { putSequences d.sequences s with
        tables := (putSequences d.sequences s).tables.put definition.relation.name d.table }).Filed := by
    refine h.updateSchema fun s hs => ?_
    have hs := filed_putSequences hs hdraft.sequences
    exact { hs with tables := hs.tables.put hdraft.table }
  have hpartitions : ∀ a ∈ c.partitions ++ (attachmentOf default definition).toList, a.Named := by
    intro a ha
    rcases List.mem_append.mp ha with ha | ha
    · exact h.partitions a ha
    · exact named_attachmentOf (Option.mem_toList.mp ha)
  dsimp only at hresult
  split at hresult
  all_goals
    obtain rfl := Except.ok.inj hresult
    exact { hupdated with partitions := hpartitions }

/-! ## Statements -/

/-- Every statement leaves a filed catalog filed. -/
theorem filed_applyTo (h : c.Filed) {s : Statement} (hresult : (applyTo default c s).result = .ok c') :
    c'.Filed := by
  by_cases hs : s.isDependent
  · exact (amends_of_isDependent hs hresult).filed h
  · cases s with
    | createTable definition => exact filed_createTable h hresult
    | createSequence relation options => exact filed_createSequence h hresult
    | createRoutine definition => exact filed_createRoutine h hresult
    | createExtension name schema version =>
      obtain rfl := Except.ok.inj hresult
      exact { h with extensions := h.extensions.put rfl }
    | createView relation definition materialized =>
      obtain rfl := Except.ok.inj hresult
      exact filed_createView h relation definition materialized
    | createAggregate definition =>
      obtain rfl := Except.ok.inj hresult
      exact filed_createAggregate h definition
    | createEnum path labels =>
      obtain rfl := Except.ok.inj hresult
      exact filed_putType h ⟨rfl, rfl, ⟨.inl rfl, .inr rfl, .inr ⟨rfl, rfl, rfl, rfl⟩⟩, numbered_nil⟩
    | createComposite relation members =>
      obtain rfl := Except.ok.inj hresult
      exact filed_createComposite h relation members
    | createDomain path base rules =>
      obtain rfl := Except.ok.inj hresult
      exact filed_createDomain h path base rules
    | createTableAs | define label | other label | createSchema name owner =>
      obtain rfl := Except.ok.inj hresult
      exact h
    | createIndex definition | createTrigger definition | createPolicy definition
    | alterTable relation commands | alterIndex relation commands | comment kind path text
    | otherComment label => exact absurd rfl hs

theorem filed_effect (h : c.Filed) {s : Statement} (hresult : effect default c s = .ok c') :
    c'.Filed := by
  by_cases hschema : ∃ name owner, s = .createSchema name owner
  · obtain ⟨name, owner, rfl⟩ := hschema
    obtain rfl := Except.ok.inj hresult
    cases name with
    | none => exact h
    | some name =>
      simp only [createSchema]
      refine h.updateSchema fun s hs => ?_
      split
      · exact { hs with }
      · exact hs
  · rw [effect_eq_applyTo hschema] at hresult
    exact filed_applyTo h hresult

/-- After any number of statements the catalog is filed. -/
theorem filed_effects (h : c.Filed) {all : List Statement}
    (hresult : all.foldlM (effect default) c = .ok c') : c'.Filed :=
  keeps_foldlM (fun _ _ _ _ hc hstep => filed_effect hc hstep) h hresult

theorem filed_start : start.Filed where
  schemas := Entries.each_empty
  extensions := Entries.each_empty
  partitions := List.forall_mem_nil _

theorem filed_inheritColumns (h : c.Filed) (a : PartitionAttachment) : (inheritColumns c a).Filed := by
  unfold inheritColumns
  split
  · split
    · exact h
    · next parent hparent =>
      refine h.modifyTable fun child hchild => ?_
      split
      · refine { hchild with orderly := { hchild.orderly with columns := ?_ } }
        exact (h.findTable? hparent).orderly.columns
      · exact hchild
  · exact h

theorem filed_inheritAll (h : c.Filed) : (inheritAll c).Filed := by
  have hall (attachments : List PartitionAttachment) {c : Catalog} (h : c.Filed) :
      (attachments.foldl inheritColumns c).Filed := by
    induction attachments generalizing c with
    | nil => exact h
    | cons a attachments ih => exact ih (filed_inheritColumns h a)
  exact hall c.partitions h

/-- A script that describes a catalog can be run statement by statement up to any place. -/
theorem exists_run {all : List Statement} (h : (catalogOf default all).result = .ok c) :
    (∃ progress, ((inOrder all).foldlM (apply default) { catalog := start }).result = .ok progress ∧
      c = inheritAll progress.catalog) ∧
    ∀ done rest, inOrder all = done ++ rest →
      ∃ progress, (done.foldlM (apply default) { catalog := start }).result = .ok progress := by
  obtain ⟨progress, hrun, hlast⟩ := Logged.result_bind_eq_ok.mp h
  refine ⟨⟨progress, hrun, ?_⟩, fun done rest hall => ?_⟩
  · cases hnameless : progress.namelessFirst with
    | some first =>
      rw [hnameless] at hlast
      contradiction
    | none =>
      rw [hnameless] at hlast
      exact (Except.ok.inj hlast).symm
  · rw [hall, List.foldlM_append] at hrun
    obtain ⟨halfway, hdone, -⟩ := Logged.result_bind_eq_ok.mp hrun
    exact ⟨halfway, hdone⟩

theorem filed_catalogOf {all : List Statement} (h : (catalogOf default all).result = .ok c) : c.Filed := by
  obtain ⟨⟨progress, hrun, rfl⟩, -⟩ := exists_run h
  exact filed_inheritAll (filed_effects filed_start (effects_of_run hrun))

end Effect

namespace Catalog

open Effect

/-- A script that is accepted leaves a filed catalog behind after each of its statements and at the end, and
whatever is written about a table of that catalog names the table as `CREATE TABLE` does. -/
theorem filed_ofSql {sql default : String} {c : Catalog}
    (h : (Catalog.ofSql sql default).result = .ok c) :
    (∃ all, Sql.statements sql = .ok all ∧ ∀ done rest, inOrder all = done ++ rest →
      ∃ progress, (done.foldlM (apply default) { catalog := start }).result = .ok progress ∧
        progress.catalog.Filed) ∧
    c.Filed ∧
    ∀ schema name t, c.findTable? schema name = some t →
      ∀ target, t.Addressed target (Ddl.reference (schema : Field String) (name : Field String) target) := by
  rcases hsql : Sql.statements sql with flaw | all
  · rw [Catalog.ofSql_of_error hsql] at h
    contradiction
  · rw [Catalog.ofSql_of_ok hsql] at h
    obtain ⟨-, hhalfway⟩ := exists_run h
    have hfiled := filed_catalogOf h
    refine ⟨⟨all, rfl, fun done rest hall => ?_⟩, hfiled, fun schema name t ht target => ?_⟩
    · obtain ⟨halfway, hdone⟩ := hhalfway done rest hall
      exact ⟨halfway, hdone, filed_effects filed_start (effects_of_run hdone)⟩
    · have htable := hfiled.findTable? ht
      rw [← htable.name, ← htable.schema]
      exact htable.orderly.addressed target

/-- An index that the script comes to before its table. -/
def quarry : String :=
  "create index on site.\"Pit\" (id); create table site.\"Pit\" (id serial primary key)"

theorem quarry_filed :
    ∃ c t, (Catalog.ofSql quarry "public").result = .ok c ∧ c.Filed ∧
      c.findTable? "site" "Pit" = some t ∧ t.Addressed none "site.\"Pit\"" ∧
      t.Addressed (some "site") "\"Pit\"" := by
  have hkept : ((Catalog.ofSql quarry "public").result.toOption.bind
      fun c => c.findTable? "site" "Pit").isSome := by decide +kernel
  obtain ⟨t, ht⟩ := Option.isSome_iff_exists.mp hkept
  obtain ⟨c, hc, ht⟩ := Option.bind_eq_some_iff.mp ht
  obtain ⟨-, hfiled, haddressed⟩ := filed_ofSql (eq_ok_of_toOption hc)
  exact ⟨c, t, eq_ok_of_toOption hc, hfiled, ht, haddressed _ _ t ht none,
    haddressed _ _ t ht (some "site")⟩

end Catalog
end SchemaScript
