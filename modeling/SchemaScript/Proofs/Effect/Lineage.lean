import SchemaScript.Proofs.Effect.Ordering

/-!
# Lines of partitions

The attachments are gone through once, in the order in which the script has them. So a partition without columns of
its own has those of the nearest table above it that declares some, if the attachments that lead down to it from
there come in this order; otherwise it stays without columns (`columns_of_line`).
-/

namespace SchemaScript

/-- From a partition to the table above it. -/
abbrev Link := (Field String × Field String) × (Field String × Field String)

def PartitionAttachment.link (a : PartitionAttachment) : Link :=
  (a.child, (a.parentSchema, a.parentTable))

namespace Effect

open Sql

variable {default sql : String} {c d : Catalog} {a : PartitionAttachment} {x y z w : String × String}
  {attached attachments : List PartitionAttachment} {l : Link} {path : List Link} {s : Statement}
  {all : List Statement}

/-- The link between two tables, each by its schema and its name. -/
def linkOf (x y : String × String) : Link := ((x.1, x.2), (y.1, y.2))

/-! ## Paths -/

/-- What is left of a path when the link has been gone through. -/
def passed (l : Link) : List Link → List Link
  | [] => []
  | first :: path => if first = l then path else first :: path

theorem sublist_cons_iff_passed {links : List Link} :
    path.Sublist (l :: links) ↔ (passed l path).Sublist links := by
  cases path with
  | nil => simp [passed]
  | cons first path =>
    have hpassed : passed l (first :: path) = if first = l then path else first :: path := rfl
    by_cases hfirst : first = l
    · rw [hpassed, if_pos hfirst, hfirst, List.cons_sublist_cons]
    · rw [hpassed, if_neg hfirst]
      constructor
      · intro h
        cases h with
        | cons _ h => exact h
        | cons_cons => exact absurd rfl hfirst
      · intro h
        exact h.cons l

theorem passed_append_singleton {link : Link} (h : path ≠ [] ∨ link ≠ l) :
    passed l (path ++ [link]) = passed l path ++ [link] := by
  cases path with
  | nil =>
    rcases h with h | h
    · exact absurd rfl h
    · simp [passed, h]
  | cons first path =>
    by_cases hfirst : first = l <;> simp [passed, hfirst]

/-- The path leads down to a table from the nearest one above it that has columns, where `has?` says of a table that
is there whether it has any. On the way every table is attached to the one above it, and to no other. -/
inductive Line (has? : String × String → Option Bool) (attached : List PartitionAttachment) :
    String × String → List Link → String × String → Prop
  | own {x : String × String} (columns : has? x = some true) : Line has? attached x [] x
  | under {x y w : String × String} {path : List Link} (bare : has? x = some false)
      (place : linkOf x y ∈ attached.map (·.link))
      (sole : ∀ a ∈ attached, a.child = (linkOf x y).1 → a.link = linkOf x y)
      (above : Line has? attached y path w) : Line has? attached x (path ++ [linkOf x y]) w

theorem Line.cases_path {has? : String × String → Option Bool} (h : Line has? attached x path w) :
    path = [] ∧ x = w ∨ path ≠ [] ∧ has? x = some false := by
  cases h with
  | own => exact .inl ⟨rfl, rfl⟩
  | under bare => exact .inr ⟨by simp, bare⟩

theorem Line.sublist_of_short {has? : String × String → Option Bool} (h : Line has? attached x path w)
    (hshort : path.length ≤ 1) : path.Sublist (attached.map (·.link)) := by
  cases h with
  | own => exact List.nil_sublist _
  | @under _ y _ path bare place =>
    have hnil : path = [] := by
      apply List.eq_nil_of_length_eq_zero
      simpa using hshort
    rw [hnil, List.nil_append, List.singleton_sublist]
    exact place

/-! ## One attachment -/

def columnsOf? (c : Catalog) (x : String × String) : Option (List Column) :=
  (c.findTable? x.1 x.2).map (·.columns)

def hasColumns? (c : Catalog) (x : String × String) : Option Bool :=
  (columnsOf? c x).map fun columns => columns != []

theorem hasColumns?_eq_true_iff :
    hasColumns? c x = some true ↔ ∃ columns, columnsOf? c x = some columns ∧ columns ≠ [] := by
  simp [hasColumns?]

theorem hasColumns?_eq_false_iff : hasColumns? c x = some false ↔ columnsOf? c x = some [] := by
  simp [hasColumns?]

theorem columnsOf?_inheritColumns (h : a.Named) (c : Catalog) (x : String × String) :
    columnsOf? (inheritColumns c a) x =
      (columnsOf? c x).map fun columns =>
        if columns = [] then (source? c [a] x.1 x.2).getD [] else columns := by
  unfold columnsOf?
  rw [findTable?_inheritColumns h, Option.map_map, Option.map_map]
  congr 1
  funext t
  cases hsource : source? c [a] x.1 x.2 with
  | none => by_cases hnil : t.columns = [] <;> simp [fill, hnil]
  | some columns => by_cases hnil : t.columns = [] <;> simp [fill, hnil]

theorem source?_of_link (h : a.link = linkOf x y) : source? c [a] x.1 x.2 = columnsOf? c y := by
  obtain ⟨hchild, hparent⟩ := Prod.mk.inj h
  obtain ⟨hschema, htable⟩ := Prod.mk.inj hparent
  unfold source?
  rw [List.find?_singleton, hchild]
  simp [hschema, htable, columnsOf?]

/-- Columns stay as they are. -/
theorem columnsOf?_of_full (h : a.Named) {columns : List Column} (hx : columnsOf? c x = some columns)
    (hfull : columns ≠ []) : columnsOf? (inheritColumns c a) x = some columns := by
  rw [columnsOf?_inheritColumns h, hx, Option.map_some, if_neg hfull]

theorem columnsOf?_of_other (h : a.Named) (hother : a.child ≠ (linkOf x y).1) :
    columnsOf? (inheritColumns c a) x = columnsOf? c x := by
  have hnone : source? c [a] x.1 x.2 = none := source?_eq_none (List.forall_mem_singleton.mpr hother)
  rw [columnsOf?_inheritColumns h, hnone]
  cases columnsOf? c x with
  | none => rfl
  | some columns => by_cases hnil : columns = [] <;> simp [hnil]

/-- A table without columns has those of the table above it. -/
theorem columnsOf?_of_link (h : a.Named) (hlink : a.link = linkOf x y) (hx : columnsOf? c x = some [])
    {columns : List Column} (hy : columnsOf? c y = some columns) :
    columnsOf? (inheritColumns c a) x = some columns := by
  rw [columnsOf?_inheritColumns h, hx, source?_of_link hlink, hy]
  rfl

/-- The line to a table is the shorter for it if the attachment is at its upper end. The columns that it leads to
stay the same. -/
theorem Line.step (h : Line (hasColumns? c) attached x path w) (ha : a ∈ attached) (hnamed : a.Named) :
    ∃ w', Line (hasColumns? (inheritColumns c a)) attached x (passed a.link path) w' ∧
      columnsOf? (inheritColumns c a) w' = columnsOf? c w := by
  induction h with
  | @own x columns =>
    obtain ⟨columns, hx, hfull⟩ := hasColumns?_eq_true_iff.mp columns
    have hkept := columnsOf?_of_full hnamed hx hfull
    exact ⟨x, .own (hasColumns?_eq_true_iff.mpr ⟨columns, hkept, hfull⟩), hkept.trans hx.symm⟩
  | @under x y w path bare place sole above ih =>
    obtain ⟨w', hline, hcolumns⟩ := ih
    have hx := hasColumns?_eq_false_iff.mp bare
    by_cases hchild : a.child = (linkOf x y).1
    · have hlink := sole a ha hchild
      cases above with
      | own columns =>
        -- the table above has columns, and now this one has them too
        obtain ⟨columns, hy, hfull⟩ := hasColumns?_eq_true_iff.mp columns
        have hfilled := columnsOf?_of_link hnamed hlink hx hy
        refine ⟨x, ?_, hfilled.trans hy.symm⟩
        have hrest : passed a.link ([] ++ [linkOf x y]) = [] := by simp [passed, hlink]
        rw [hrest]
        exact .own (hasColumns?_eq_true_iff.mpr ⟨columns, hfilled, hfull⟩)
      | @under _ _ _ rest bare' _ _ _ =>
        have hy := hasColumns?_eq_false_iff.mp bare'
        have hempty := columnsOf?_of_link hnamed hlink hx hy
        rw [passed_append_singleton (.inl (by simp))]
        exact ⟨w', .under (hasColumns?_eq_false_iff.mpr hempty) place sole hline, hcolumns⟩
    · have hsame : columnsOf? (inheritColumns c a) x = columnsOf? c x :=
        columnsOf?_of_other hnamed hchild
      have hother : linkOf x y ≠ a.link := by
        intro heq
        exact hchild (congrArg Prod.fst heq).symm
      rw [passed_append_singleton (.inr hother)]
      exact ⟨w', .under (hasColumns?_eq_false_iff.mpr (hsame.trans hx)) place sole hline, hcolumns⟩

/-! ## All attachments -/

/-- When some of the attachments have been gone through, nothing is left of the line exactly if its path stands
among them. -/
theorem Line.run (h : Line (hasColumns? c) attached x path w)
    (hnamed : ∀ a ∈ attachments, a ∈ attached ∧ a.Named) :
    ∃ rest w', Line (hasColumns? (attachments.foldl inheritColumns c)) attached x rest w' ∧
      columnsOf? (attachments.foldl inheritColumns c) w' = columnsOf? c w ∧
      (rest = [] ↔ path.Sublist (attachments.map (·.link))) := by
  induction attachments generalizing c path w with
  | nil =>
    refine ⟨path, w, h, rfl, ?_⟩
    rw [List.map_nil, List.sublist_nil]
  | cons a attachments ih =>
    rw [List.forall_mem_cons] at hnamed
    obtain ⟨w', hline, hcolumns⟩ := h.step hnamed.1.1 hnamed.1.2
    obtain ⟨rest, w'', hrest, hcolumns', hiff⟩ := ih hline hnamed.2
    refine ⟨rest, w'', hrest, hcolumns'.trans hcolumns, ?_⟩
    rw [hiff, List.map_cons, sublist_cons_iff_passed]

theorem columnsOf?_inherit_of_full (hnamed : ∀ a ∈ attachments, a.Named) {columns : List Column}
    (hx : columnsOf? c x = some columns) (hfull : columns ≠ []) :
    columnsOf? (attachments.foldl inheritColumns c) x = some columns := by
  induction attachments generalizing c with
  | nil => exact hx
  | cons a attachments ih =>
    rw [List.forall_mem_cons] at hnamed
    exact ih hnamed.2 (columnsOf?_of_full hnamed.1 hx hfull)

theorem Line.exists_columns (h : Line (hasColumns? c) attached x path w) :
    ∃ columns, columnsOf? c w = some columns ∧ columns ≠ [] := by
  induction h with
  | own columns => exact hasColumns?_eq_true_iff.mp columns
  | under _ _ _ _ ih => exact ih

/-- A table below has the columns of the one above if the path from there stands among the attachments, and no
columns otherwise. -/
theorem Line.columns_inheritAll (h : Line (hasColumns? c) c.partitions x path w)
    (hnamed : ∀ a ∈ c.partitions, a.Named) :
    columnsOf? (inheritAll c) w = columnsOf? c w ∧
      columnsOf? (inheritAll c) x =
        if path.Sublist (c.partitions.map (·.link)) then columnsOf? c w else some [] := by
  obtain ⟨columns, hw, hfull⟩ := h.exists_columns
  refine ⟨(columnsOf?_inherit_of_full hnamed hw hfull).trans hw.symm, ?_⟩
  obtain ⟨rest, w', hrest, hcolumns, hiff⟩ := h.run fun a ha => ⟨ha, hnamed a ha⟩
  rcases hrest.cases_path with ⟨hnil, rfl⟩ | ⟨hne, hbare⟩
  · rw [if_pos (hiff.mp hnil)]
    exact hcolumns
  · rw [if_neg fun hpath => hne (hiff.mpr hpath)]
    exact hasColumns?_eq_false_iff.mp hbare

/-! ## What the statements declare -/

def tableDefinition? : Statement → Option TableDefinition
  | .createTable definition => some definition
  | _ => none

/-- Whether the table is declared with columns, if it is declared; the last definition of the table counts. -/
def declaresColumns? (default : String) (all : List Statement) (x : String × String) : Option Bool :=
  ((all.filterMap tableDefinition?).reverse.find? fun definition =>
    (schemaOf default definition.relation, definition.relation.name) == x).map fun definition =>
      definition.elements.any isColumn

theorem declaresColumns?_append_singleton (default : String) (all : List Statement) (s : Statement)
    (x : String × String) : declaresColumns? default (all ++ [s]) x =
      (declaresColumns? default [s] x).or (declaresColumns? default all x) := by
  unfold declaresColumns?
  rw [List.filterMap_append, List.reverse_append, List.find?_append, Option.map_or]

theorem filterMap_tableDefinition?_filter_dependent (all : List Statement) :
    (all.filter (·.isDependent)).filterMap tableDefinition? = [] := by
  apply List.filterMap_eq_nil_iff.mpr
  intro s hs
  have hdependent := List.of_mem_filter hs
  cases s with
  | createTable definition => contradiction
  | _ => rfl

theorem filterMap_tableDefinition?_filter (all : List Statement) :
    (all.filter (!·.isDependent)).filterMap tableDefinition? = all.filterMap tableDefinition? := by
  rw [List.filterMap_filter]
  apply List.filterMap_congr
  intro s _
  cases s <;> rfl

theorem declaresColumns?_inOrder (default : String) (all : List Statement) :
    declaresColumns? default (inOrder all) = declaresColumns? default all := by
  funext x
  unfold declaresColumns? inOrder
  rw [List.filterMap_append, filterMap_tableDefinition?_filter, filterMap_tableDefinition?_filter_dependent,
    List.append_nil]

/-! ## What the statements do -/

theorem findTable?_createTable {definition : TableDefinition} {draft : Draft}
    (hdraft : (draftOf default definition).result = .ok draft)
    (h : effect default c (.createTable definition) = .ok d) :
    d.findTable? (schemaOf default definition.relation) definition.relation.name = some draft.table := by
  rw [eq_of_createTable hdraft h]
  unfold Catalog.findTable? Catalog.updateSchema
  simp [Entries.get?_put, putAll_objectsOf]

/-- A statement that creates something leaves all tables as they are that it does not define. -/
theorem findTable?_effect (hs : s.isDependent = false) (h : effect default c s = .ok d) {schema name : String}
    (hother : .object schema .table name ∉ definitions default s) :
    d.findTable? schema name = c.findTable? schema name := by
  obtain ⟨a, ha⟩ := exists_adds default hs
  have hset : a.sets (.object schema .table name) = none := by
    rw [Option.eq_none_iff_forall_ne_some]
    intro x hx
    exact hother (ha.defined _ x hx)
  have hcontents := (ha.turns c d h).contents (.object schema .table name)
  rw [hset, Option.none_or, Catalog.at?_table, Catalog.at?_table] at hcontents
  have hsame : (d.findTable? schema name).map Content.table = (c.findTable? schema name).map Content.table :=
    hcontents.trans (Option.or_none ..)
  exact Option.map_injective (fun _ _ => Content.table.inj) hsame

theorem mem_definitions_createTable_iff {definition : TableDefinition} :
    .object x.1 .table x.2 ∈ definitions default (.createTable definition) ↔
      (schemaOf default definition.relation, definition.relation.name) = x := by
  rw [Prod.ext_iff]
  simp [definitions, eq_comm]

theorem declaresColumns?_eq_none (h : .object x.1 .table x.2 ∉ definitions default s) :
    declaresColumns? default [s] x = none := by
  cases s with
  | createTable definition =>
    rw [mem_definitions_createTable_iff] at h
    simp [declaresColumns?, tableDefinition?, h]
  | _ => rfl

/-- After a statement that tables have columns which are declared with some. -/
theorem hasColumns?_effect (h : effect default c s = .ok d) (x : String × String) :
    hasColumns? d x = (declaresColumns? default [s] x).or (hasColumns? c x) := by
  by_cases hdefined : .object x.1 .table x.2 ∈ definitions default s
  · obtain ⟨definition, rfl⟩ := exists_definition_of_mem hdefined
    obtain rfl := mem_definitions_createTable_iff.mp hdefined
    have hdraft : ∃ draft, (draftOf default definition).result = .ok draft := by
      obtain ⟨draft, hdraft, -⟩ := Logged.result_bind_eq_ok.mp h
      exact ⟨draft, hdraft⟩
    obtain ⟨draft, hdraft⟩ := hdraft
    have hdeclared : declaresColumns? default [.createTable definition]
        (schemaOf default definition.relation, definition.relation.name) =
          some (definition.elements.any isColumn) := by
      simp [declaresColumns?, tableDefinition?]
    rw [hdeclared, Option.some_or]
    unfold hasColumns? columnsOf?
    rw [findTable?_createTable hdraft h, Option.map_some, Option.map_some]
    have hiff := (draftOf_adds hdraft).1
    cases hany : definition.elements.any isColumn <;> simp [hiff, hany]
  · rw [declaresColumns?_eq_none hdefined, Option.none_or]
    unfold hasColumns? columnsOf?
    cases hs : s.isDependent with
    | false => rw [findTable?_effect hs h hdefined]
    | true =>
      -- the table was there before, and what is done to it takes no column and gives none
      have hrel := (amends_effect hs h).findTable?_rel x.1 x.2
      generalize c.findTable? x.1 x.2 = before at hrel ⊢
      generalize d.findTable? x.1 x.2 = after at hrel ⊢
      cases hrel with
      | none => rfl
      | @some t t' hedits =>
        have hsame : (t'.columns != []) = (t.columns != []) := by
          rw [Bool.eq_iff_iff, bne_iff_ne, bne_iff_ne]
          exact not_congr hedits.columns_eq_nil_iff
        exact congrArg some hsame

theorem hasColumns?_effects (h : all.foldlM (effect default) start = .ok c) :
    hasColumns? c = declaresColumns? default all := by
  funext x
  induction all using List.reverseRecOn generalizing c with
  | nil =>
    obtain rfl := Except.ok.inj h
    rfl
  | append_singleton all s ih =>
    rw [List.foldlM_append] at h
    obtain ⟨before, hbefore, h⟩ := exists_of_bind_eq_ok h
    obtain ⟨after, hafter, h⟩ := exists_of_bind_eq_ok h
    obtain rfl := Except.ok.inj h
    rw [hasColumns?_effect hafter, ih hbefore, declaresColumns?_append_singleton]

/-! ## The order of attachments -/

theorem partitions_effect (hs : s.isDependent = false) (h : effect default c s = .ok d) :
    d.partitions = c.partitions ++ ((tableDefinition? s).bind (attachmentOf default)).toList := by
  cases s with
  | createTable definition =>
    obtain ⟨draft, hdraft, -⟩ := Logged.result_bind_eq_ok.mp h
    rw [eq_of_createTable hdraft h]
    rfl
  | createRoutine definition =>
    obtain ⟨x, -, -, hresult⟩ := result_createRoutine default definition
    obtain rfl := Except.ok.inj ((hresult c).symm.trans h)
    exact (List.append_nil _).symm
  | createSequence relation options =>
    obtain ⟨q, -, h⟩ := exists_of_bind_eq_ok (show (options.foldlM sequenceOption _ >>= _) = .ok d from h)
    obtain rfl := Except.ok.inj h
    exact (List.append_nil _).symm
  | createSchema name owner =>
    obtain rfl := Except.ok.inj h
    cases name <;> exact (List.append_nil _).symm
  | createExtension | createView | createTableAs | createAggregate | define | createEnum | createComposite
  | createDomain | other =>
    obtain rfl := Except.ok.inj h
    exact (List.append_nil _).symm
  | createIndex | alterTable | alterIndex | createTrigger | createPolicy | comment | otherComment => contradiction

theorem partitions_effects (hall : ∀ s ∈ all, s.isDependent = false)
    (h : all.foldlM (effect default) c = .ok d) :
    d.partitions = c.partitions ++ (all.filterMap tableDefinition?).filterMap (attachmentOf default) := by
  induction all generalizing c with
  | nil =>
    obtain rfl := Except.ok.inj h
    exact (List.append_nil _).symm
  | cons s all ih =>
    rw [List.forall_mem_cons] at hall
    rw [List.foldlM_cons] at h
    obtain ⟨next, hnext, h⟩ := exists_of_bind_eq_ok h
    rw [ih hall.2 h, partitions_effect hall.1 hnext, List.append_assoc]
    cases hdefinition : tableDefinition? s with
    | none => simp [hdefinition]
    | some definition => cases hattached : attachmentOf default definition <;> simp [hdefinition, hattached]

/-- Other attachments come after those that are there. -/
theorem prefix_partitions_effect (hs : s.isDependent) (h : effect default c s = .ok d) :
    c.partitions <+: d.partitions := by
  cases amends_effect hs h with
  | table found edits parts => exact List.prefix_append _ _
  | _ => exact List.prefix_rfl

/-! ## Whole scripts -/

/-- The attachments that definitions make are gone through first, in the order of the definitions. -/
theorem prefix_partitions (h : (catalogOf default all).result = .ok c) :
    (all.filterMap tableDefinition?).filterMap (attachmentOf default) <+: c.partitions := by
  obtain ⟨first, last, hfirst, hlast, rfl⟩ := exists_parts h
  have hmade := partitions_effects (fun s hs => by simpa using List.of_mem_filter hs) hfirst
  have hmore : first.partitions <+: last.partitions :=
    keeps_foldlM (Q := fun c : Catalog => first.partitions <+: c.partitions)
      (fun s hs _ _ hsofar hstep => hsofar.trans (prefix_partitions_effect (List.of_mem_filter hs) hstep))
      List.prefix_rfl hlast
  rw [filterMap_tableDefinition?_filter] at hmade
  rw [show (inheritAll last).partitions = last.partitions from (inherit_same last last.partitions).2.1]
  have hstart : start.partitions = [] := rfl
  rw [hstart, List.nil_append] at hmade
  exact hmade ▸ hmore

/-- A table that is declared without columns has those of the nearest table above it that is declared with some
exactly if the attachments from there down to it come in this order; otherwise it has none. Where they come from the
definitions of tables, this is the order of the definitions. -/
theorem columns_of_line (hread : Sql.statements sql = .ok all) (h : (Catalog.ofSql sql default).result = .ok c)
    (hline : Line (declaresColumns? default all) c.partitions x path w) :
    ∃ t u, c.findTable? x.1 x.2 = some t ∧ c.findTable? w.1 w.2 = some u ∧ u.columns ≠ [] ∧
      (t.columns = u.columns ↔ path.Sublist (c.partitions.map (·.link))) ∧
      (t.columns ≠ u.columns → t.columns = []) ∧ (path.length ≤ 1 → t.columns = u.columns) ∧
      (all.filterMap tableDefinition?).filterMap (attachmentOf default) <+: c.partitions := by
  rw [Catalog.ofSql_of_ok hread] at h
  have horder := prefix_partitions h
  obtain ⟨⟨progress, hrun, rfl⟩, -⟩ := exists_run h
  have heffects := effects_of_run hrun
  have hnamed := (filed_effects filed_start heffects).partitions
  have hsame : (inheritAll progress.catalog).partitions = progress.catalog.partitions :=
    (inherit_same progress.catalog progress.catalog.partitions).2.1
  rw [hsame] at hline horder ⊢
  have hdeclared : hasColumns? progress.catalog = declaresColumns? default all :=
    (hasColumns?_effects heffects).trans (declaresColumns?_inOrder default all)
  rw [← hdeclared] at hline
  obtain ⟨columns, hcolumns, hfull⟩ := hline.exists_columns
  obtain ⟨hw, hx⟩ := hline.columns_inheritAll hnamed
  rw [hcolumns] at hw hx
  obtain ⟨u, hu, rfl⟩ := Option.map_eq_some_iff.mp hw
  by_cases hpath : path.Sublist (progress.catalog.partitions.map (·.link))
  · rw [if_pos hpath] at hx
    obtain ⟨t, ht, htu⟩ := Option.map_eq_some_iff.mp hx
    exact ⟨t, u, ht, hu, hfull, iff_of_true htu hpath, fun hne => absurd htu hne, fun _ => htu, horder⟩
  · rw [if_neg hpath] at hx
    obtain ⟨t, ht, hnil⟩ := Option.map_eq_some_iff.mp hx
    have hne : t.columns ≠ u.columns := by
      rw [hnil]
      exact hfull.symm
    refine ⟨t, u, ht, hu, hfull, iff_of_false hne hpath, fun _ => hnil, fun hshort => ?_, horder⟩
    -- the one attachment of a short path is among the others
    exact absurd (hline.sublist_of_short hshort) hpath

/-- The days come before the months, whose columns they wait for. -/
def almanac : String :=
  "create table days partition of months default;
   create table months partition of years default partition by list (day);
   create table years (day date) partition by list (day)"

def almanacAttached : List PartitionAttachment :=
  [{ parentSchema := "public", parentTable := "months", childSchema := "public", childTable := "days",
     bound := "DEFAULT" },
   { parentSchema := "public", parentTable := "years", childSchema := "public", childTable := "months",
     bound := "DEFAULT" }]

theorem almanac_days_bare : ∃ all c t u, Sql.statements almanac = .ok all ∧
    (Catalog.ofSql almanac "public").result = .ok c ∧
    Line (declaresColumns? "public" all) c.partitions ("public", "days")
      [linkOf ("public", "months") ("public", "years"), linkOf ("public", "days") ("public", "months")]
      ("public", "years") ∧
    c.findTable? "public" "days" = some t ∧ c.findTable? "public" "years" = some u ∧
    t.columns = [] ∧ u.columns ≠ [] := by
  have hread : ∃ all ∈ (Sql.statements almanac).toOption,
      ["days", "months", "years"].map (fun name => declaresColumns? "public" all ("public", name)) =
        [some false, some false, some true] ∧
      ∃ c ∈ (catalogOf "public" all).result.toOption, c.partitions = almanacAttached := by
    decide +kernel
  obtain ⟨all, hall, hdeclared, c, hc, hattached⟩ := hread
  simp only [List.map_cons, List.map_nil, List.cons.injEq, and_true] at hdeclared
  obtain ⟨hdays, hmonths, hyears⟩ := hdeclared
  have hall := eq_ok_of_toOption hall
  have hc : (Catalog.ofSql almanac "public").result = .ok c := by
    rw [Catalog.ofSql_of_ok hall]
    exact eq_ok_of_toOption hc
  have hlinks : c.partitions.map (·.link) =
      [linkOf ("public", "days") ("public", "months"), linkOf ("public", "months") ("public", "years")] := by
    rw [hattached]
    rfl
  have hsole {x y : String × String}
      (hxy : ∀ l ∈ c.partitions.map (·.link), l.1 = (linkOf x y).1 → l = linkOf x y) :
      ∀ a ∈ c.partitions, a.child = (linkOf x y).1 → a.link = linkOf x y :=
    fun a ha => hxy a.link (List.mem_map_of_mem ha)
  have hupper : Line (declaresColumns? "public" all) c.partitions ("public", "months")
      [linkOf ("public", "months") ("public", "years")] ("public", "years") := by
    apply Line.under hmonths ?_ (hsole ?_) (.own hyears) <;> rw [hlinks] <;> decide
  have hline : Line (declaresColumns? "public" all) c.partitions ("public", "days")
      [linkOf ("public", "months") ("public", "years"), linkOf ("public", "days") ("public", "months")]
      ("public", "years") := by
    apply Line.under hdays ?_ (hsole ?_) hupper <;> rw [hlinks] <;> decide
  obtain ⟨t, u, ht, hu, hfull, hiff, hbare, -, -⟩ := columns_of_line hall hc hline
  have hne : t.columns ≠ u.columns := by
    intro heq
    have hpath := hiff.mp heq
    rw [hlinks] at hpath
    exact absurd hpath (by decide)
  exact ⟨all, c, t, u, hall, hc, hline, ht, hu, hbare hne, hfull⟩

end Effect
end SchemaScript
