import SchemaScript.Proofs.Catalog.Renaming
import SchemaScript.Proofs.Effect.Naming
import SchemaScript.Proofs.Effect.Ordering

/-!
# Names of indexes

A statement puts its index under the name that it gives or, without one, under a name made from the table and the
columns, whatever is there already. So the indexes of a table are those of the statements about it, added one after
another, and a catalog has as many indexes as the script has such statements just if no two of them come to the same
name in the same table (`indexes_of_script`).
-/

namespace SchemaScript

open Sql

/-- The index without what is said about it. -/
def Index.bare (i : Index) : Index :=
  { i with comment := .absent }

/-- The schema, the table and the name of each index. -/
def Catalog.indexPlaces (c : Catalog) : List (String × String × String) :=
  c.schemas.pairs.flatMap fun (schema, s) =>
    s.tables.pairs.flatMap fun (table, t) => t.indexes.names.map (schema, table, ·)

namespace Effect

variable {default schema name n : String} {all : List Statement} {s : Statement} {c c' : Catalog} {t t' : Table}
  {definition : IndexDefinition}

/-! ## What statements say -/

/-- A table with nothing in it. -/
def emptyTable (schema name : String) : Table :=
  { schema, name }

/-- The name under which a statement puts its index. -/
def entryName (default : String) (definition : IndexDefinition) : String :=
  let table := emptyTable (schemaOf default definition.table) definition.table.name
  Text.givenOr definition.name (indexName table (definition.elements.mapIdx indexColumn))

/-- The schema and the table that a statement names, and the name under which it puts its index there. -/
def place (default : String) (definition : IndexDefinition) : String × String × String :=
  (schemaOf default definition.table, definition.table.name, entryName default definition)

/-- What the statement defines, if it creates an index. -/
def indexDefinition? : Statement → Option IndexDefinition
  | .createIndex definition => some definition
  | _ => none

/-- All indexes that a script creates, in its order. -/
def indexDefinitions (all : List Statement) : List IndexDefinition :=
  all.filterMap indexDefinition?

/-- Those of one table. -/
def definitionsOn (default schema name : String) (all : List Statement) : List IndexDefinition :=
  (indexDefinitions all).filter fun d => schemaOf default d.table = schema ∧ d.table.name = name

/-! ## One table -/

/-- What an index takes from its table, and the indexes that are there. -/
def indexPart (t : Table) : Field String × Field String × Entries Index :=
  (t.schema, t.name, t.indexes.map Index.bare)

theorem isApart_indexPart : IsApart indexPart :=
  ⟨fun _ _ => rfl, fun _ _ => rfl⟩

theorem indexPart_addIndex (h : indexPart t = indexPart t') (definition : IndexDefinition) :
    indexPart (addIndex t definition) = indexPart (addIndex t' definition) := by
  obtain ⟨hschema, hrest⟩ := Prod.mk.inj h
  obtain ⟨hname, hindexes⟩ := Prod.mk.inj hrest
  unfold indexPart addIndex indexName
  rw [← Entries.put_map, ← Entries.put_map, hschema, hname, hindexes]

theorem indexPart_foldl_addIndex (h : indexPart t = indexPart t') (definitions : List IndexDefinition) :
    indexPart (definitions.foldl addIndex t) = indexPart (definitions.foldl addIndex t') := by
  induction definitions generalizing t t' with
  | nil => exact h
  | cons definition definitions ih => exact ih (indexPart_addIndex h definition)

theorem bare_foldl_addIndex (h : t.indexes.map Index.bare = t.indexes) (definitions : List IndexDefinition) :
    (definitions.foldl addIndex t).indexes.map Index.bare = (definitions.foldl addIndex t).indexes := by
  induction definitions generalizing t with
  | nil => exact h
  | cons definition definitions ih =>
    refine ih ?_
    unfold addIndex
    rw [← Entries.put_map, h]
    rfl

/-- Only an index changes what there is of indexes, but for their comments. -/
theorem indexPart_of_alters (h : Alters default s (.table t) (.table t')) (hs : indexDefinition? s = none) :
    indexPart t' = indexPart t := by
  cases h with
  | index => contradiction
  | unchanged | trigger | policy | comment => rfl
  | altered hchange => exact isApart_indexPart.applyCommands_eq (fun _ _ => rfl) hchange
  | @partComment kind _ _ _ part text hpart =>
    cases kind with
    | column | constraint | trigger =>
      obtain ⟨entries, -, rfl⟩ := Option.map_eq_some_iff.mp hpart
      rfl
    | extension | table | view | materializedView | sequence | type | domain | function | procedure
    | aggregate | index => contradiction
  | indexComment hindexes =>
    obtain ⟨index, hindex, rfl⟩ := exists_of_changeNamed? hindexes
    have hsame := congrArg (Entries.map Index.bare) (Entries.put_of_get? hindex)
    unfold indexPart
    rw [← Entries.put_map] at hsame ⊢
    exact congrArg (fun entries => (t.schema, t.name, entries)) hsame

/-! ## Statements -/

theorem definitionsOn_cons (s : Statement) (all : List Statement) : definitionsOn default schema name (s :: all) =
    definitionsOn default schema name [s] ++ definitionsOn default schema name all := by
  unfold definitionsOn indexDefinitions
  rw [← List.singleton_append, List.filterMap_append, List.filter_append]

theorem definitionsOn_of_none (hs : indexDefinition? s = none) : definitionsOn default schema name [s] = [] := by
  unfold definitionsOn indexDefinitions
  rw [List.filterMap_cons_none hs]
  rfl

/-- A statement adds its index to the one table, and no other statement adds any. -/
theorem indexPart_effect (hs : s.isDependent) (h : effect default c s = .ok c') (schema name : String) :
    (c'.findTable? schema name).map indexPart =
      (c.findTable? schema name).map fun t =>
        indexPart ((definitionsOn default schema name [s]).foldl addIndex t) := by
  by_cases hnone : indexDefinition? s = none
  · rw [definitionsOn_of_none hnone]
    have hrel := steps_of_isDependent hs h (.object schema .table name) (by simp)
    rw [Catalog.at?_table, Catalog.at?_table] at hrel
    rcases ht : c.findTable? schema name with _ | t <;> rcases ht' : c'.findTable? schema name with _ | t' <;>
      rw [ht, ht'] at hrel
    · rfl
    · contradiction
    · contradiction
    · obtain ⟨halters⟩ := hrel
      exact congrArg some (indexPart_of_alters halters hnone)
  · cases s with
    | createIndex definition =>
      have hdefinitions : definitionsOn default schema name [.createIndex definition] =
          if schemaOf default definition.table = schema ∧ definition.table.name = name then [definition] else [] := by
        simp [definitionsOn, indexDefinitions, indexDefinition?, List.filter_singleton]
      change (withTable default c definition.table _).result = .ok c' at h
      unfold withTable at h
      dsimp only at h
      rw [hdefinitions]
      by_cases hplace : schemaOf default definition.table = schema ∧ definition.table.name = name
      · obtain ⟨rfl, rfl⟩ := hplace
        rw [if_pos ⟨rfl, rfl⟩]
        cases ht : c.findTable? (schemaOf default definition.table) definition.table.name with
        | none =>
          rw [ht] at h
          obtain rfl := Except.ok.inj h
          rw [ht]
          rfl
        | some t =>
          rw [ht] at h
          obtain rfl := Except.ok.inj h
          rw [Catalog.findTable?_modifyTable, if_pos ⟨rfl, rfl⟩, ht]
          rfl
      · rw [if_neg hplace]
        split at h
        · obtain rfl := Except.ok.inj h
          rfl
        · obtain rfl := Except.ok.inj h
          rw [Catalog.findTable?_modifyTable, if_neg fun h => hplace ⟨h.1.symm, h.2.symm⟩]
          rfl
    | _ => exact absurd rfl hnone

theorem indexPart_effects (hall : ∀ s ∈ all, s.isDependent) (h : all.foldlM (effect default) c = .ok c')
    (schema name : String) :
    (c'.findTable? schema name).map indexPart =
      (c.findTable? schema name).map fun t => indexPart ((definitionsOn default schema name all).foldl addIndex t) := by
  induction all generalizing c with
  | nil =>
    obtain rfl := Except.ok.inj h
    rfl
  | cons s all ih =>
    rw [List.foldlM_cons] at h
    obtain ⟨next, hnext, hrest⟩ := exists_of_bind_eq_ok h
    have hstep := indexPart_effect (hall s List.mem_cons_self) hnext schema name
    rw [ih (fun s hs => hall s (List.mem_cons_of_mem _ hs)) hrest, definitionsOn_cons]
    simp only [List.foldl_append]
    rcases ht : c.findTable? schema name with _ | t <;> rcases ht' : next.findTable? schema name with _ | t' <;>
      rw [ht, ht'] at hstep
    · rfl
    · contradiction
    · contradiction
    · exact congrArg some (indexPart_foldl_addIndex (Option.some.inj hstep) _)

/-- A new table has no indexes. -/
theorem indexPart_draftOf {definition : TableDefinition} {d : Draft} (h : (draftOf default definition).result = .ok d) :
    indexPart d.table = indexPart (emptyTable (schemaOf default definition.relation) definition.relation.name) := by
  obtain ⟨drafted, hdrafted, h⟩ := Logged.result_bind_eq_ok.mp h
  have hkept : indexPart d.table = indexPart drafted.table := by
    split at h <;> (obtain rfl := Except.ok.inj h; rfl)
  rw [hkept, isApart_indexPart.addElements_eq hdrafted]
  rfl

theorem indexPart_first (hall : ∀ s ∈ all, s.isDependent = false) (h : all.foldlM (effect default) start = .ok c)
    (hc : c.findTable? schema name = some t) : indexPart t = indexPart (emptyTable schema name) := by
  have hkept := keeps_foldlM (Q := fun c : Catalog => c.Writable ∧
    ∀ schema name t, c.findTable? schema name = some t → indexPart t = indexPart (emptyTable schema name))
    (fun s hs c c' hsofar hstep => ?_) ⟨writable_start, fun schema name t ht => by contradiction⟩ h
  · exact hkept.2 schema name t hc
  · refine ⟨writable_effect hsofar.1 hstep, fun schema name t ht => ?_⟩
    have hat : c'.at? (.object schema .table name) = some (.table t) := by rw [Catalog.at?_table, ht]; rfl
    rcases creates_or_of_effect (hall s hs) hsofar.1 hstep (by simp) hat with hcreates | hbefore
    · obtain ⟨definition, d, -, hd, rfl, rfl, hx⟩ := exists_draft_of_creates hcreates
      obtain rfl := Content.table.inj hx
      exact indexPart_draftOf hd
    · rw [Catalog.at?_table] at hbefore
      obtain ⟨t', ht', hx⟩ := Option.map_eq_some_iff.mp hbefore
      obtain rfl := Content.table.inj hx
      exact hsofar.2 schema name t' ht'

/-! ## Whole scripts -/

/-- Of the indexes of a table, but for their comments, there are those of the statements about it. -/
theorem indexPart_catalogOf (h : (catalogOf default all).result = .ok c) (ht : c.findTable? schema name = some t) :
    indexPart t = indexPart ((definitionsOn default schema name all).foldl addIndex (emptyTable schema name)) := by
  obtain ⟨first, last, hfirst, hlast, rfl⟩ := exists_parts h
  have hlater : definitionsOn default schema name (all.filter (·.isDependent)) =
      definitionsOn default schema name all := by
    unfold definitionsOn indexDefinitions
    rw [List.filterMap_filter]
    congr 1
    refine List.filterMap_congr fun s _ => ?_
    cases s <;> rfl
  have hrun := indexPart_effects (fun s hs => (List.mem_filter.mp hs).2) hlast schema name
  rw [← map_inheritAll (f := indexPart) fun _ _ => rfl, ht, hlater] at hrun
  obtain ⟨t', ht', hsame⟩ := Option.map_eq_some_iff.mp hrun.symm
  rw [← hsame]
  have hempty := indexPart_first (fun s hs => by simpa using (List.mem_filter.mp hs).2) hfirst ht'
  exact indexPart_foldl_addIndex hempty _

theorem mem_names_foldl_addIndex (default : String) {definitions : List IndexDefinition}
    (hname : ∀ d ∈ definitions,
      Text.givenOr d.name (indexName t (d.elements.mapIdx indexColumn)) = entryName default d) :
    n ∈ (definitions.foldl addIndex t).indexes.names ↔
      n ∈ t.indexes.names ∨ n ∈ definitions.map (entryName default) := by
  induction definitions generalizing t with
  | nil => simp
  | cons d definitions ih =>
    have hnames : n ∈ (addIndex t d).indexes.names ↔ n = entryName default d ∨ n ∈ t.indexes.names := by
      rw [← hname d List.mem_cons_self]
      exact Entries.mem_names_put
    have hrest := ih (t := addIndex t d) fun d' hd' => hname d' (List.mem_cons_of_mem d hd')
    rw [List.foldl_cons, hrest, hnames, List.map_cons, List.mem_cons, or_comm (a := n = _), or_assoc]

theorem mem_names_iff_place (h : (catalogOf default all).result = .ok c) (ht : c.findTable? schema name = some t) :
    n ∈ t.indexes.names ↔ (schema, name, n) ∈ (indexDefinitions all).map (place default) := by
  have hindexes := congrArg (fun part => part.2.2.names) (indexPart_catalogOf h ht)
  unfold indexPart at hindexes
  rw [Entries.names_map, Entries.names_map] at hindexes
  have hplace (d : IndexDefinition) : d ∈ definitionsOn default schema name all ↔
      d ∈ indexDefinitions all ∧ schemaOf default d.table = schema ∧ d.table.name = name := by
    simp [definitionsOn]
  rw [hindexes, mem_names_foldl_addIndex default fun d hd => ?_]
  · rw [List.mem_map, List.mem_map]
    constructor
    · rintro (hnone | ⟨d, hd, rfl⟩)
      · contradiction
      · obtain ⟨hmem, rfl, rfl⟩ := (hplace d).mp hd
        exact ⟨d, hmem, rfl⟩
    · rintro ⟨d, hd, hsame⟩
      obtain ⟨hschema, hrest⟩ := Prod.mk.inj hsame
      obtain ⟨hname, hn⟩ := Prod.mk.inj hrest
      exact .inr ⟨d, (hplace d).mpr ⟨hd, hschema, hname⟩, hn⟩
  · obtain ⟨-, rfl, rfl⟩ := (hplace d).mp hd
    rfl

end Effect

theorem Catalog.mem_indexPlaces {c : Catalog} {schema name n : String} :
    (schema, name, n) ∈ c.indexPlaces ↔ ∃ t, c.findTable? schema name = some t ∧ n ∈ t.indexes.names := by
  unfold Catalog.indexPlaces Catalog.findTable?
  simp only [List.mem_flatMap, List.mem_map, Prod.mk.injEq, Option.bind_eq_some_iff, Entries.get?_eq_some_iff]
  constructor
  · rintro ⟨⟨schema, s⟩, hs, ⟨name, t⟩, ht, n, hn, rfl, rfl, rfl⟩
    exact ⟨t, ⟨s, hs, ht⟩, hn⟩
  · rintro ⟨t, ⟨s, hs, ht⟩, hn⟩
    exact ⟨(schema, s), hs, (name, t), ht, n, hn, rfl, rfl, rfl⟩

theorem Entries.nodup_flatMap {α β : Type} {entries : Entries α} {f : String × α → List β} (key : β → String)
    (hkey : ∀ pair, ∀ b ∈ f pair, key b = pair.1) (hf : ∀ pair ∈ entries.pairs, (f pair).Nodup) :
    (entries.pairs.flatMap f).Nodup := by
  refine List.nodup_flatMap.mpr ⟨hf, (List.pairwise_map.mp entries.nodup).imp fun hne b hb hb' => hne ?_⟩
  rw [← hkey _ b hb, ← hkey _ b hb']

theorem Catalog.nodup_indexPlaces (c : Catalog) : c.indexPlaces.Nodup := by
  refine Entries.nodup_flatMap (·.1) (fun (schema, s) place hplace => ?_) fun (schema, s) _ =>
    Entries.nodup_flatMap (·.2.1) (fun (table, t) place hplace => ?_) fun (table, t) _ => ?_
  · obtain ⟨⟨table, t⟩, -, hplace⟩ := List.mem_flatMap.mp hplace
    obtain ⟨n, -, rfl⟩ := List.mem_map.mp hplace
    rfl
  · obtain ⟨n, -, rfl⟩ := List.mem_map.mp hplace
    rfl
  · exact t.indexes.nodup.map fun n n' hsame => (Prod.mk.inj (Prod.mk.inj hsame).2).2

open Effect

/-- The indexes of a table are those of the statements about it, one put after another under its name; with statements
about tables that are there, the catalog has an index for each place that one of them names, and so one for each
statement just if no two of them name the same place. -/
theorem Catalog.indexes_of_script {sql default : String} {c : Catalog}
    (h : (Catalog.ofSql sql default).result = .ok c) : ∃ all, Sql.statements sql = .ok all ∧
    (∀ schema name t, c.findTable? schema name = some t → t.indexes.map Index.bare =
      ((definitionsOn default schema name all).foldl addIndex (emptyTable schema name)).indexes) ∧
    ((∀ d ∈ indexDefinitions all, (c.findTable? (schemaOf default d.table) d.table.name).isSome) →
      c.indexPlaces.Perm ((indexDefinitions all).map (place default)).dedup ∧
      (c.indexPlaces.length = (indexDefinitions all).length ↔
        ((indexDefinitions all).map (place default)).Nodup)) := by
  obtain ⟨all, hall, h⟩ : ∃ all, Sql.statements sql = .ok all ∧ (catalogOf default all).result = .ok c := by
    cases hall : Sql.statements sql with
    | error flaw =>
      rw [Catalog.ofSql_of_error hall] at h
      contradiction
    | ok all =>
      rw [Catalog.ofSql_of_ok hall] at h
      exact ⟨all, rfl, h⟩
  refine ⟨all, hall, fun schema name t ht => ?_, fun hthere => ?_⟩
  · have hpart := congrArg (·.2.2) (indexPart_catalogOf h ht)
    exact hpart.trans (bare_foldl_addIndex rfl _)
  · have hperm : c.indexPlaces.Perm ((indexDefinitions all).map (place default)).dedup := by
      refine (List.perm_ext_iff_of_nodup c.nodup_indexPlaces (List.nodup_dedup _)).mpr fun (schema, name, n) => ?_
      rw [List.mem_dedup, Catalog.mem_indexPlaces]
      constructor
      · rintro ⟨t, ht, hn⟩
        exact (mem_names_iff_place h ht).mp hn
      · intro hplace
        obtain ⟨d, hd, hsame⟩ := List.mem_map.mp hplace
        obtain ⟨rfl, hrest⟩ := Prod.mk.inj hsame
        obtain ⟨rfl, -⟩ := Prod.mk.inj hrest
        obtain ⟨t, ht⟩ := Option.isSome_iff_exists.mp (hthere d hd)
        exact ⟨t, ht, (mem_names_iff_place h ht).mpr hplace⟩
    refine ⟨hperm, ?_⟩
    rw [hperm.length_eq, ← List.length_map (place default)]
    constructor
    · intro hlength
      rw [← (List.dedup_sublist _).eq_of_length hlength]
      exact List.nodup_dedup _
    · intro hnodup
      rw [hnodup.dedup]

/-- Two indexes without names on one column. -/
def orders : String :=
  "create table orders (placed date, paid date); create index on orders (placed); create index on orders (placed desc);
   create index on orders (paid)"

/-- The third statement has replaced the index of the second one. -/
theorem orders_lose_index : ∃ c, (Catalog.ofSql orders "public").result = .ok c ∧
    c.indexPlaces = [("public", "orders", "orders_placed_idx"), ("public", "orders", "orders_paid_idx")] ∧
    ∃ all, Sql.statements orders = .ok all ∧ (indexDefinitions all).length = 3 ∧
      (∀ d ∈ indexDefinitions all, (c.findTable? (schemaOf "public" d.table) d.table.name).isSome) ∧
      (∀ d ∈ indexDefinitions all, d.name = none) ∧
      ¬ ((indexDefinitions all).map (place "public")).Nodup := by
  have hread : ∃ c ∈ (Catalog.ofSql orders "public").result.toOption,
      c.indexPlaces = [("public", "orders", "orders_placed_idx"), ("public", "orders", "orders_paid_idx")] ∧
      ∃ all ∈ (Sql.statements orders).toOption, (indexDefinitions all).length = 3 ∧
        (∀ d ∈ indexDefinitions all, (c.findTable? (schemaOf "public" d.table) d.table.name).isSome) ∧
        ∀ d ∈ indexDefinitions all, d.name = none := by
    decide +kernel
  obtain ⟨c, hc, hplaces, all, hall, hthree, hthere, hunnamed⟩ := hread
  have hc := eq_ok_of_toOption hc
  have hall := eq_ok_of_toOption hall
  obtain ⟨all', hall', -, hcount⟩ := Catalog.indexes_of_script hc
  obtain rfl := Except.ok.inj (hall.symm.trans hall')
  refine ⟨c, hc, hplaces, all, hall, hthree, hthere, hunnamed, fun hnodup => ?_⟩
  have hlength := (hcount hthere).2.mpr hnodup
  rw [hplaces, hthree] at hlength
  exact absurd hlength (by decide)

end SchemaScript
