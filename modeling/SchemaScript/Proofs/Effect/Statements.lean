import SchemaScript.Effect.Script
import SchemaScript.Proofs.Effect.Tables

/-!
# Statements and well-typed catalogs

A statement either is refused, which has nothing to do with the catalog so far, or takes effect and keeps
the catalog well typed (`applyTo_outcome`). Apart from numbers that are none, only a comment on a column without
a table is refused (`refusal?_cases`).
-/

namespace SchemaScript

/-- A well-typed schema in which every type has a text for its name, so that types can be put in order. -/
structure Schema.Writable (s : Schema) : Prop where
  name : s.name.isTextual
  owner : s.owner.isTextual
  tables : s.tables.all (·.isTyped)
  views : s.views.all (·.isTyped)
  functions : s.functions.all (·.isTyped)
  procedures : s.procedures.all (·.isTyped)
  aggregates : s.aggregates.all (·.isTyped)
  sequences : s.sequences.all (·.isTyped)
  policies : s.policies.all (·.isTyped)
  types : s.types.all (·.isTyped)
  typeNames : s.types.all (·.name.stored.isText)

structure Catalog.Writable (c : Catalog) : Prop where
  schemas : ∀ entry ∈ c.schemas.pairs, entry.2.Writable
  extensions : c.extensions.all (·.isTyped)
  partitions : ∀ a ∈ c.partitions, a.isTyped
  indexPartitions : ∀ a ∈ c.indexPartitions, a.isTyped

theorem Schema.Writable.isTyped {s : Schema} (h : s.Writable) : s.isTyped := by
  simp only [Schema.isTyped, Bool.and_eq_true]
  exact ⟨⟨⟨⟨⟨⟨⟨⟨⟨h.name, h.owner⟩, h.tables⟩, h.views⟩, h.functions⟩, h.procedures⟩, h.aggregates⟩,
    h.sequences⟩, h.policies⟩, h.types⟩

namespace Catalog

variable {c : Catalog}

theorem Writable.isTyped (h : c.Writable) : c.isTyped := by
  simp only [Catalog.isTyped, Bool.and_eq_true, List.all_eq_true, Entries.all_iff]
  exact ⟨⟨⟨fun entry he => (h.schemas entry he).isTyped, Entries.all_iff.mp h.extensions⟩,
    h.partitions⟩, h.indexPartitions⟩

theorem Writable.get? (h : c.Writable) {name : String} {s : Schema}
    (hs : c.schemas.get? name = some s) : s.Writable :=
  h.schemas (name, s) (Entries.get?_eq_some_iff.mp hs)

theorem Writable.put (h : c.Writable) {s : Schema} (hs : s.Writable) (name : String) :
    { c with schemas := c.schemas.put name s }.Writable :=
  { h with
    schemas := fun entry he => by
      rcases Entries.mem_of_mem_putPair he with rfl | he
      · exact hs
      · exact h.schemas entry he }

theorem Writable.updateSchema (h : c.Writable) (name : String) {f : Schema → Schema}
    (hf : ∀ s, s.Writable → (f s).Writable) : (c.updateSchema name f).Writable := by
  refine h.put (hf _ ?_) name
  unfold schemaOrNew
  rcases hs : c.schemas.get? name with _ | s
  · constructor <;> rfl
  · exact h.get? hs

theorem Writable.findTable? (h : c.Writable) {schema name : String} {t : Table}
    (ht : c.findTable? schema name = some t) : t.isTyped := by
  obtain ⟨s, hs, ht⟩ := Option.bind_eq_some_iff.mp ht
  exact Entries.all_get? (h.get? hs).tables ht

theorem Writable.modifyTable (h : c.Writable) {f : Table → Table}
    (hf : ∀ t, t.isTyped → (f t).isTyped) (schema name : String) :
    (c.modifyTable schema name f).Writable := by
  unfold Catalog.modifyTable Entries.modify
  split
  · next s hs =>
    have hs := h.get? hs
    refine h.put ?_ schema
    exact { hs with tables := Entries.all_modify hs.tables hf }
  · exact h

end Catalog

namespace Effect

open Sql

variable {default : String} {c : Catalog}

/-! ## Objects -/

theorem writable_createExtension (h : c.Writable) (name : String) (schema version : Option String) :
    (createExtension c name schema version).Writable :=
  { h with extensions := Entries.all_put h.extensions (by simp [Extension.isTyped]) }

theorem writable_createView (h : c.Writable) (relation : RelationName) (definition : String)
    (materialized : Bool) : (createView default c relation definition materialized).Writable := by
  unfold createView
  refine h.updateSchema _ fun s hs => ?_
  exact { hs with views := Entries.all_put hs.views (by simp [View.isTyped]) }

theorem writable_putType (h : c.Writable) (schema name : String) {type : UserType}
    (htype : type.isTyped) (hname : type.name.stored.isText) :
    (putType c schema name type).Writable := by
  refine h.updateSchema _ fun s hs => ?_
  exact { hs with
    types := Entries.all_put hs.types htype
    typeNames := Entries.all_put hs.typeNames hname }

theorem writable_createEnum (h : c.Writable) (path labels : List String) :
    (createEnum default c path labels).Writable :=
  writable_putType h _ _ (by simp [UserType.isTyped]) rfl

theorem writable_createComposite (h : c.Writable) (relation : RelationName)
    (members : List (String × WrittenType)) :
    (createComposite default c relation members).Writable := by
  refine writable_putType h _ _ ?_ rfl
  simp only [UserType.isTyped, Bool.and_eq_true, List.all_eq_true]
  refine ⟨⟨⟨by simp, by simp⟩, fun m hm => ?_⟩, by simp⟩
  obtain ⟨i, hi, rfl⟩ := List.mem_mapIdx.mp hm
  rfl

theorem writable_createDomain (h : c.Writable) (path : List String) (base : WrittenType)
    (rules : List DomainRule) : (createDomain default c path base rules).Writable := by
  have hrules (rules : List DomainRule) (type : UserType) (htype : type.isTyped)
      (hname : type.name.stored.isText) :
      (rules.foldl domainRule type).isTyped ∧ (rules.foldl domainRule type).name.stored.isText := by
    induction rules generalizing type with
    | nil => exact ⟨htype, hname⟩
    | cons rule rules ih =>
      refine ih _ ?_ ?_
      · cases rule <;> simp_all [domainRule, UserType.isTyped, DomainConstraint.isTyped]
      · cases rule <;> exact hname
  refine writable_putType h _ _ (hrules rules _ ?_ rfl).1 (hrules rules _ ?_ rfl).2 <;>
    simp [UserType.isTyped]

theorem gives_sequenceOptions (options : List SequenceOption) {s : Sequence} (h : s.isTyped) :
    Gives (·.isTyped) (options.foldlM sequenceOption s) := by
  refine gives_foldlM (fun s h option _ => ?_) h
  cases option with
  | start n | increment n => exact (gives_wholeNumber n).bind fun _ _ => h
  | minimum n | maximum n => exact (gives_maybeWholeNumber n).bind fun _ _ => h
  | cycle enabled => exact h
  | dataType type =>
    show Sequence.isTyped _
    simp_all [Sequence.isTyped]
  | ownedBy path =>
    dsimp only [sequenceOption]
    split
    · show Sequence.isTyped _
      simp_all [Sequence.isTyped]
    · exact h
  | other => exact h

/-! ## Routines -/

theorem exists_createRoutine (default : String) (h : c.Writable) (definition : RoutineDefinition) :
    ∃ c', (createRoutine default c definition).result = .ok c' ∧ c'.Writable := by
  have hfunction {f : StoredFunction} (hf : f.isTyped) (schema name : String) : (c.updateSchema schema
      fun s => { s with functions := s.functions.put name f }).Writable := by
    refine h.updateSchema schema fun s hs => ?_
    exact { hs with functions := Entries.all_put hs.functions hf }
  have hprocedure {p : Procedure} (hp : p.isTyped) (schema name : String) : (c.updateSchema schema
      fun s => { s with procedures := s.procedures.put name p }).Writable := by
    refine h.updateSchema schema fun s hs => ?_
    exact { hs with procedures := Entries.all_put hs.procedures hp }
  unfold createRoutine
  dsimp only
  -- a routine without a body is put on record all the same
  split_ifs
  · exact ⟨_, rfl, hprocedure (by simp [Procedure.isTyped]) _ _⟩
  · exact ⟨_, rfl, hfunction (by simp [StoredFunction.isTyped]) _ _⟩
  · exact ⟨_, rfl, hprocedure (by simp [Procedure.isTyped]) _ _⟩
  · exact ⟨_, rfl, hfunction (by simp [StoredFunction.isTyped]) _ _⟩

theorem isTyped_aggregateEntry {a : Aggregate} (h : a.isTyped) (hasArguments : Bool)
    (entry : String × DefinitionValue) : (aggregateEntry hasArguments a entry).isTyped := by
  obtain ⟨key, value⟩ := entry
  unfold aggregateEntry
  dsimp only
  split
  · simp_all [Aggregate.isTyped]
  · split <;> simp_all [Aggregate.isTyped]
  · simp_all [Aggregate.isTyped]
  · simp_all [Aggregate.isTyped]
  · split
    · exact h
    · simp_all [Aggregate.isTyped]
  · exact h

theorem writable_createAggregate (h : c.Writable) (definition : AggregateDefinition) :
    (createAggregate default c definition).Writable := by
  have hentries (hasArguments : Bool) (entries : List (String × DefinitionValue)) (a : Aggregate)
      (ha : a.isTyped) : (entries.foldl (aggregateEntry hasArguments) a).isTyped := by
    induction entries generalizing a with
    | nil => exact ha
    | cons entry entries ih => exact ih _ (isTyped_aggregateEntry ha hasArguments entry)
  unfold createAggregate
  refine h.updateSchema _ fun s hs => ?_
  exact { hs with
    aggregates := Entries.all_put hs.aggregates (hentries _ _ _ (by simp [Aggregate.isTyped])) }

/-! ## Comments -/

variable {text : Option String} {name : String}

theorem writable_commentObject? {s s' : Schema} {kind : CommentKind} (h : s.Writable)
    (hchange : commentObject? s kind name text = some s') : s'.Writable := by
  cases kind with
  | table =>
    obtain ⟨tables, htables, rfl⟩ := Option.map_eq_some_iff.mp hchange
    exact { h with tables := all_changeNamed? h.tables (fun _ ht => Table.isTyped_commented ht) htables }
  | view | materializedView =>
    obtain ⟨views, hviews, rfl⟩ := Option.map_eq_some_iff.mp hchange
    exact { h with views := all_changeNamed? h.views (fun _ hv => by simp_all [View.isTyped]) hviews }
  | sequence =>
    obtain ⟨sequences, hsequences, rfl⟩ := Option.map_eq_some_iff.mp hchange
    exact { h with
      sequences := all_changeNamed? h.sequences (fun _ hq => by simp_all [Sequence.isTyped]) hsequences }
  | type | domain =>
    obtain ⟨types, htypes, rfl⟩ := Option.map_eq_some_iff.mp hchange
    exact { h with
      types := all_changeNamed? h.types (fun _ ht => by simp_all [UserType.isTyped]) htypes
      typeNames := all_changeNamed? h.typeNames (fun _ ht => by exact ht) htypes }
  | function =>
    obtain ⟨functions, hfunctions, rfl⟩ := Option.map_eq_some_iff.mp hchange
    exact { h with
      functions := all_changeNamed? h.functions (fun _ hf => by simp_all [StoredFunction.isTyped])
        hfunctions }
  | procedure =>
    obtain ⟨procedures, hprocedures, rfl⟩ := Option.map_eq_some_iff.mp hchange
    exact { h with
      procedures := all_changeNamed? h.procedures (fun _ hp => by simp_all [Procedure.isTyped])
        hprocedures }
  | aggregate =>
    obtain ⟨aggregates, haggregates, rfl⟩ := Option.map_eq_some_iff.mp hchange
    exact { h with
      aggregates := all_changeNamed? h.aggregates (fun _ ha => by simp_all [Aggregate.isTyped])
        haggregates }
  | index =>
    obtain ⟨⟨key, t⟩, ht, rfl⟩ := Option.map_eq_some_iff.mp hchange
    have ht := isTyped_commentIndex? (Entries.all_iff.mp h.tables) ht
    exact { h with tables := Entries.all_put h.tables ht }
  | extension | column | constraint | trigger => contradiction

theorem writable_commentOnPart? {c' : Catalog} {kind : CommentKind} {path : List String}
    (h : c.Writable) (hchange : commentOnPart? default c kind path text = some c') : c'.Writable := by
  unfold commentOnPart? at hchange
  dsimp only at hchange
  split at hchange
  · contradiction
  · next t ht =>
    obtain ⟨t', hpart, rfl⟩ := Option.map_eq_some_iff.mp hchange
    exact h.modifyTable (fun _ _ => isTyped_commentPart? (h.findTable? ht) hpart) _ _

theorem writable_commentOn? {c' : Catalog} {kind : CommentKind} {path : List String}
    (h : c.Writable) (hchange : commentOn? default c kind path text = some c') : c'.Writable := by
  unfold commentOn? at hchange
  split at hchange
  · obtain ⟨extensions, hextensions, rfl⟩ := Option.map_eq_some_iff.mp hchange
    exact { h with
      extensions := all_changeNamed? h.extensions (fun _ he => by simp_all [Extension.isTyped])
        hextensions }
  · exact writable_commentOnPart? h hchange
  · exact writable_commentOnPart? h hchange
  · exact writable_commentOnPart? h hchange
  · dsimp only at hchange
    split at hchange
    · contradiction
    · next s hs =>
      obtain ⟨s', hobject, rfl⟩ := Option.map_eq_some_iff.mp hchange
      exact h.put (writable_commentObject? (h.get? hs) hobject) _

/-! ## Statements -/

/-- The comment names a column but no table. -/
def isLooseColumn : Statement → Bool
  | .comment .column path _ => path.length < 2
  | _ => false

/-- A schema is declared without a name of its own. -/
def isNamelessSchema : Statement → Bool
  | .createSchema none _ => true
  | _ => false

/-- Why a statement is refused, if it is. -/
def refusal? (default : String) (s : Statement) : Option Fault :=
  match s with
  | .createTable definition =>
    match (draftOf default definition).result with
    | .ok _ => none
    | .error fault => some fault
  | .createSequence relation options =>
    match options.foldlM sequenceOption { schema := schemaOf default relation, name := relation.name } with
    | .ok _ => none
    | .error fault => some fault
  | s => if isLooseColumn s then some .columnWithoutTable else none

theorem refusal?_cases {s : Statement} {fault : Fault} (h : refusal? default s = some fault) :
    fault.isInput ∨ fault = .columnWithoutTable ∧ isLooseColumn s := by
  unfold refusal? at h
  split at h
  · next definition =>
    split at h
    · contradiction
    · next fault' hfault =>
      obtain rfl := Option.some.inj h
      have hgives := gives_draftOf default definition
      rw [hfault] at hgives
      exact .inl hgives
  · next relation options =>
    split at h
    · contradiction
    · next fault' hfault =>
      obtain rfl := Option.some.inj h
      have hgives := gives_sequenceOptions options
        (s := { schema := schemaOf default relation, name := relation.name }) (by simp [Sequence.isTyped])
      rw [hfault] at hgives
      exact .inl hgives
  · split at h
    · next hloose => exact .inr ⟨(Option.some.inj h).symm, hloose⟩
    · contradiction

theorem refusal?_of_isLooseColumn {s : Statement} (h : isLooseColumn s) :
    refusal? default s = some .columnWithoutTable := by
  unfold refusal?
  split
  · contradiction
  · contradiction
  · rw [if_pos h]

variable {default : String} {c : Catalog}

theorem exists_withTable (h : c.Writable) (relation : RelationName) {f : Table → Logged Table}
    (hf : ∀ t, t.isTyped → ∃ t', (f t).result = .ok t' ∧ t'.isTyped) :
    ∃ c', (withTable default c relation f).result = .ok c' ∧ c'.Writable := by
  unfold withTable
  dsimp only
  split
  · exact ⟨c, rfl, h⟩
  · next t ht =>
    obtain ⟨t', ht', htyped⟩ := hf t (h.findTable? ht)
    exact ⟨_, Logged.result_bind_eq_ok.mpr ⟨t', ht', rfl⟩, h.modifyTable (fun _ _ => htyped) _ _⟩

theorem exists_alterTable (h : c.Writable) (relation : RelationName) (commands : List AlterCommand) :
    ∃ c', (alterTable default c relation commands).result = .ok c' ∧ c'.Writable := by
  unfold alterTable
  dsimp only
  split
  · exact exists_withTable h relation fun t ht => ⟨t, rfl, ht⟩
  · next t ht =>
    have hstart : Change.Typed { table := t } := ⟨h.findTable? ht, by simp⟩
    obtain ⟨change, hchange, htyped⟩ := exists_applyCommands default hstart commands
    refine ⟨_, Logged.result_bind_eq_ok.mpr ⟨change, hchange, rfl⟩, ?_⟩
    have hmodified := h.modifyTable (fun _ _ => htyped.table) (schemaOf default relation) relation.name
    refine { hmodified with partitions := fun a ha => ?_ }
    rcases List.mem_append.mp ha with ha | ha
    · exact h.partitions a ha
    · exact htyped.partitions a ha

theorem exists_alterIndex (h : c.Writable) (relation : RelationName) (commands : List AlterCommand) :
    ∃ c', (alterIndex default c relation commands).result = .ok c' ∧ c'.Writable := by
  have hfound (commands : List AlterCommand) (found : List IndexAttachment)
      (hfound : ∀ a ∈ found, a.isTyped) : ∃ found',
      (commands.foldlM (indexCommand default relation) found).result = .ok found' ∧
        ∀ a ∈ found', a.isTyped := by
    induction commands generalizing found with
    | nil => exact ⟨found, rfl, hfound⟩
    | cons command commands ih =>
      rw [List.foldlM_cons]
      obtain ⟨next, hnext, htyped⟩ : ∃ next,
          (indexCommand default relation found command).result = .ok next ∧ ∀ a ∈ next, a.isTyped := by
        cases command with
        | attachPartition child bound =>
          refine ⟨_, rfl, fun a ha => ?_⟩
          rcases List.mem_append.mp ha with ha | ha
          · exact hfound a ha
          · rw [List.mem_singleton.mp ha]
            rfl
        | addConstraint clause => exact ⟨found, rfl, hfound⟩
        | rowSecurity enabled => exact ⟨found, rfl, hfound⟩
        | other label => exact ⟨found, rfl, hfound⟩
      obtain ⟨last, hlast, htyped⟩ := ih next htyped
      exact ⟨last, Logged.result_bind_eq_ok.mpr ⟨next, hnext, hlast⟩, htyped⟩
  obtain ⟨found, hresult, htyped⟩ := hfound commands [] (by simp)
  refine ⟨_, Logged.result_bind_eq_ok.mpr ⟨found, hresult, rfl⟩, ?_⟩
  exact { h with
    indexPartitions := fun a ha => (List.mem_append.mp ha).elim (h.indexPartitions a) (htyped a) }

theorem writable_putSequences {s : Schema} (h : s.Writable) {sequences : List Sequence}
    (hsequences : ∀ q ∈ sequences, q.isTyped) : (putSequences sequences s).Writable := by
  have hall (sequences : List Sequence) (all : Entries Sequence) (hall : all.all (·.isTyped))
      (hsequences : ∀ q ∈ sequences, q.isTyped) :
      (sequences.foldl (fun all q => all.put q.name.spelled q) all).all (·.isTyped) := by
    induction sequences generalizing all with
    | nil => exact hall
    | cons q sequences ih =>
      rw [List.forall_mem_cons] at hsequences
      exact ih _ (Entries.all_put hall hsequences.1) hsequences.2
  exact { h with sequences := hall _ _ h.sequences hsequences }

/-- A table that can be drafted is put on record. -/
theorem exists_createTable (h : c.Writable) {definition : TableDefinition} {d : Draft}
    (hd : (draftOf default definition).result = .ok d) :
    ∃ c', (createTable default c definition).result = .ok c' ∧ c'.Writable := by
  have hdraft : d.Typed := by
    have hgives := gives_draftOf default definition
    rwa [hd] at hgives
  have hput (attachments : List PartitionAttachment) (hattached : ∀ a ∈ attachments, a.isTyped) :
      { c.updateSchema (schemaOf default definition.relation) fun s =>
          { putSequences d.sequences s with
            tables := (putSequences d.sequences s).tables.put definition.relation.name d.table } with
        partitions := c.partitions ++ attachments }.Writable := by
    have hupdated := h.updateSchema (schemaOf default definition.relation) (f := fun s =>
      { putSequences d.sequences s with
        tables := (putSequences d.sequences s).tables.put definition.relation.name d.table })
      fun s hs => by
        have hs := writable_putSequences hs hdraft.sequences
        exact { hs with tables := Entries.all_put hs.tables hdraft.table }
    exact { hupdated with
      partitions := fun a ha => (List.mem_append.mp ha).elim (h.partitions a) (hattached a) }
  have hattached : ∀ a ∈ (attachmentOf default definition).toList, a.isTyped := fun a ha =>
    isTyped_attachmentOf (Option.mem_toList.mp ha)
  refine ⟨_, Logged.result_bind_eq_ok.mpr ⟨d, hd, ?_⟩, hput _ hattached⟩
  dsimp only
  split <;> rfl

/-- What becomes of statements: they are refused, or take effect and leave a value with the property. -/
def Outcome {α : Type} (P : α → Prop) (refusal : Option Fault) (result : Except Fault α) : Prop :=
  match refusal with
  | some fault => result = .error fault
  | none => ∃ a, result = .ok a ∧ P a

theorem createTable_outcome (h : c.Writable) (definition : TableDefinition) :
    Outcome Catalog.Writable (refusal? default (.createTable definition))
      (createTable default c definition).result := by
  rcases hdraft : (draftOf default definition).result with fault | d
  · have hrefused : refusal? default (.createTable definition) = some fault := by
      simp [refusal?, hdraft]
    rw [hrefused, createTable, Logged.result_bind, hdraft]
    rfl
  · have htaken : refusal? default (.createTable definition) = none := by simp [refusal?, hdraft]
    rw [htaken]
    exact exists_createTable h hdraft

theorem createSequence_outcome (h : c.Writable) (relation : RelationName)
    (options : List SequenceOption) :
    Outcome Catalog.Writable (refusal? default (.createSequence relation options))
      (createSequence default c relation options) := by
  have hgives := gives_sequenceOptions options
    (s := { schema := schemaOf default relation, name := relation.name }) (by simp [Sequence.isTyped])
  unfold createSequence refusal?
  dsimp only
  split
  · next q hq =>
    rw [hq] at hgives ⊢
    refine ⟨_, rfl, h.updateSchema _ fun s hs => ?_⟩
    exact { hs with sequences := Entries.all_put hs.sequences hgives }
  · next fault hfault =>
    rw [hfault]
    rfl

theorem comment_outcome (h : c.Writable) (kind : CommentKind) (path : List String)
    (text : Option String) :
    Outcome Catalog.Writable (refusal? default (.comment kind path text))
      (comment default c kind path text).result := by
  have hloose : isLooseColumn (.comment kind path text) = (kind == .column && path.length < 2) := by
    cases kind <;> rfl
  unfold comment
  by_cases hrefused : kind == .column && path.length < 2
  · rw [if_pos hrefused, refusal?_of_isLooseColumn (hloose.trans hrefused)]
    rfl
  · have htaken : refusal? default (.comment kind path text) = none := by
      show (if isLooseColumn _ then _ else _) = _
      rw [if_neg (by rwa [hloose])]
    rw [if_neg hrefused, htaken]
    split
    · next c' hc' => exact ⟨c', rfl, writable_commentOn? h hc'⟩
    · exact ⟨c, rfl, h⟩

/-- A statement is refused for itself, whatever the catalog; otherwise it takes effect. -/
theorem applyTo_outcome (default : String) (h : c.Writable) (s : Statement) :
    Outcome Catalog.Writable (refusal? default s) (applyTo default c s).result := by
  cases s with
  | createTable definition => exact createTable_outcome h definition
  | createSequence relation options => exact createSequence_outcome h relation options
  | comment kind path text => exact comment_outcome h kind path text
  | createRoutine definition => exact exists_createRoutine default h definition
  | createIndex definition =>
    exact exists_withTable h definition.table fun t ht => ⟨_, rfl, isTyped_addIndex ht definition⟩
  | createTrigger definition =>
    exact exists_withTable h definition.table fun t ht => ⟨_, rfl, isTyped_addTrigger ht definition⟩
  | createPolicy definition =>
    exact exists_withTable h definition.table fun t ht => ⟨_, rfl, isTyped_addPolicy ht definition⟩
  | alterTable relation commands => exact exists_alterTable h relation commands
  | alterIndex relation commands => exact exists_alterIndex h relation commands
  | createExtension name schema version =>
    exact ⟨_, rfl, writable_createExtension h name schema version⟩
  | createView relation definition materialized =>
    exact ⟨_, rfl, writable_createView h relation definition materialized⟩
  | createAggregate definition => exact ⟨_, rfl, writable_createAggregate h definition⟩
  | createEnum path labels => exact ⟨_, rfl, writable_createEnum h path labels⟩
  | createComposite relation members => exact ⟨_, rfl, writable_createComposite h relation members⟩
  | createDomain path base rules => exact ⟨_, rfl, writable_createDomain h path base rules⟩
  | createTableAs => exact ⟨c, rfl, h⟩
  | define label => exact ⟨c, rfl, h⟩
  | otherComment label => exact ⟨c, rfl, h⟩
  | other label => exact ⟨c, rfl, h⟩
  | createSchema name owner => exact ⟨c, rfl, h⟩

end Effect
end SchemaScript
