import SchemaScript.Ddl.Object
import SchemaScript.Ddl.Table
import SchemaScript.Proofs.Ddl.Checks
import SchemaScript.Proofs.Effect.Filing
import SchemaScript.Proofs.Source.ReportedColumn
import SchemaScript.Proofs.Source.ScriptColumn

/-!
# Columns of a type from the table's own schema

Both sources leave out the schema of such a type, and nothing puts it back: `CREATE TABLE` shows the bare name in
a script of any target, while `CREATE TYPE` shows the schema in every script but its own
(`named_as_created_iff`).
-/

namespace SchemaScript

open Sql

variable {holder own : String} {target : Option String} {column : Column}

/-! ## The bare name -/

/-- The column has a type of the schema's own, by its bare name. -/
structure Column.IsOfType (c : Column) (own : String) : Prop where
  dataType : c.dataType = ("USER-DEFINED" : Field String)
  userType : c.userType = (own : Field String)

theorem ne_of_isSystemName {name : String} (hown : OwnName own) (hname : isSystemName name) : own ≠ name := by
  rintro rfl
  rw [hown.unknown] at hname
  contradiction

/-- Whatever else the column has, it shows the bare name. -/
theorem Column.IsOfType.typeText? (h : column.IsOfType own) (hown : OwnName own) (target : Option String) :
    column.typeText? target = some own := by
  have hserial : column.isSerial = false := by
    have hkeyword : serialKeyword? (column.dataType.givenOr "") = none := by
      rw [h.dataType]
      decide
    unfold Column.isSerial
    rw [hkeyword]
    cases column.default.given <;> simp
  have hvarying : own ≠ "character varying" := ne_of_isSystemName hown (by decide)
  have hfixed : own ≠ "character" := ne_of_isSystemName hown (by decide)
  have hnumeric : own ≠ "numeric" := ne_of_isSystemName hown (by decide)
  unfold Column.typeText?
  rw [hserial, if_neg Bool.false_ne_true,
    Column.declaredType_of_user h.dataType h.userType hown.nonempty, Option.map_some, hown.canonicalType_eq]
  have hdrop : dropSchema (some own) target = some own := dropSchema_of_no_point (hown.not_mem rfl) target
  cases column.maxLength.text? <;> cases column.precision.text? <;> simp [hvarying, hfixed, hnumeric, hdrop]

/-- The line of the column in `CREATE TABLE`. -/
theorem mem_lines_of_isOfType {t : Table} {name : String} (h : column.IsOfType own) (hown : OwnName own)
    (hcolumn : column ∈ t.columns) (hname : column.name = (name : Field String)) (target : Option String) :
    " ".intercalate ([quoteName name, own] ++ t.columnOptions target column) ∈ t.lines target := by
  have hline : t.columnText? target column =
      some (" ".intercalate ([quoteName name, own] ++ t.columnOptions target column)) := by
    unfold Table.columnText?
    rw [hname, Field.text?_text, h.typeText? hown target]
  exact List.mem_append_left _ (List.mem_filterMap.mpr ⟨column, mem_byPosition.mpr hcolumn, hline⟩)

/-! ## From a script -/

namespace Effect

variable {default : String} {d d' : Draft} {x : Column}

/-- What is known of a column of a draft stays. -/
theorem mem_fixedParts_addElement {element : TableElement} (h : x ∈ d.table.columns.map fixedPart)
    (hstep : (addElement default d element).result = .ok d') : x ∈ d'.table.columns.map fixedPart := by
  cases gains_addElement hstep with
  | serial _ _ hedits | typed _ _ hedits =>
    rw [hedits.map_fixedPart_eq, List.map_append]
    exact List.mem_append_left _ h
  | edited _ hedits => rwa [hedits.map_fixedPart_eq]

/-- A column that is declared with the schema in front of its type loses it where the table's schema is the same. -/
theorem mem_fixedParts_of_declared {definition : ColumnDefinition} (hholder : PlainName holder) (hown : OwnName own)
    (hschema : d.table.schema = (holder : Field String)) (hpath : definition.type.path = [holder, own])
    (hmodifiers : definition.type.modifiers = []) (hbounds : definition.type.bounds = [])
    (hstep : (addElement default d (.column definition)).result = .ok d') :
    ∃ column ∈ d'.table.columns.map fixedPart, column.name = (definition.name : Field String) ∧
      column.IsOfType own := by
  have harray : definition.type.isArray = false := by
    unfold WrittenType.isArray
    rw [hbounds]
    rfl
  have hbase : definition.type.base = holder ++ "." ++ own :=
    (WrittenType.base_of_schema hpath hholder.notCatalog).trans (hown.canonicalType_qualified hholder)
  have hname : ColumnType.nameFor d.table.schema.given holder own = own := by
    rw [ColumnType.nameFor_given _ hholder hschema]
    exact if_neg (not_not_intro rfl)
  cases gains_addElement hstep with
  | serial hserial =>
    unfold serialColumn? at hserial
    dsimp only at hserial
    rw [harray, if_neg Bool.false_ne_true, hbase, OwnName.serialBase?_qualified] at hserial
    contradiction
  | @typed _ column t _ htyped hedits =>
    rw [typedColumn_of_user _ _ _ hholder hown harray (storedModifiers_eq_nil hmodifiers) hbase, hname] at htyped
    have hmem : fixedPart column ∈ t.columns.map fixedPart := by
      rw [hedits.map_fixedPart_eq, List.map_append]
      exact List.mem_append_right _ (List.mem_singleton_self _)
    rw [← Except.ok.inj htyped] at hmem
    exact ⟨_, hmem, rfl, rfl, rfl⟩
  | edited hother => contradiction

/-- A table of the schema has the column, whatever is added to the table later. -/
theorem exists_isOfType {definition : TableDefinition} {element : ColumnDefinition} {t : Table}
    (hholder : PlainName holder) (hown : OwnName own) (hschema : schemaOf default definition.relation = holder)
    (helement : .column element ∈ definition.elements) (hpath : element.type.path = [holder, own])
    (hmodifiers : element.type.modifiers = []) (hbounds : element.type.bounds = [])
    (hdraft : (draftOf default definition).result = .ok d) (hedits : Edits default d.table t) :
    ∃ column ∈ t.columns, column.name = (element.name : Field String) ∧ column.IsOfType own := by
  obtain ⟨before, after, helements⟩ := List.append_of_mem helement
  obtain ⟨drafted, hdrafted, hdraft⟩ := Logged.result_bind_eq_ok.mp hdraft
  have hsame : d.table.columns = drafted.table.columns := by
    split at hdraft <;> (obtain rfl := Except.ok.inj hdraft; rfl)
  rw [helements, List.foldlM_append] at hdrafted
  obtain ⟨early, hearly, hdrafted⟩ := Logged.result_bind_eq_ok.mp hdrafted
  rw [List.foldlM_cons] at hdrafted
  obtain ⟨next, hnext, hlate⟩ := Logged.result_bind_eq_ok.mp hdrafted
  have hfiled := Logged.keeps_foldlM
    (Q := Draft.Filed (schemaOf default definition.relation) definition.relation.name)
    (fun element _ d d' hd hstep => filed_addElement hd hstep) (filed_newDraft _ _ _) hearly
  have hearlySchema : early.table.schema = (holder : Field String) := hschema ▸ hfiled.table.schema
  obtain ⟨part, hpart, hname, htype⟩ :=
    mem_fixedParts_of_declared hholder hown hearlySchema hpath hmodifiers hbounds hnext
  have hkept : part ∈ drafted.table.columns.map fixedPart := Logged.keeps_foldlM
    (Q := fun d : Draft => part ∈ d.table.columns.map fixedPart)
    (fun _ _ _ _ hmem hstep => mem_fixedParts_addElement hmem hstep) hpart hlate
  rw [← hsame, ← hedits.map_fixedPart_eq] at hkept
  obtain ⟨column, hcolumn, rfl⟩ := List.mem_map.mp hkept
  exact ⟨column, hcolumn, hname, htype.dataType, htype.userType⟩

end Effect

/-! ## From a database -/

namespace Inspect

/-- A row that reports a type of the table's own schema leaves its bare name, whatever else the row says. -/
theorem exists_isOfType_of_row {c c' : Catalog} {t : Table} {table name : String}
    {position default nullable maxLength precision scale comment identity generation start increment maximum
      minimum cycle : Json}
    (ht : c.findTable? holder table = some t)
    (hrow : (columnRow c [.text holder, .text table, .text name, position, default, nullable,
      .text "USER-DEFINED", .text holder, .text own, maxLength, precision, scale, comment, identity, generation,
      start, increment, maximum, minimum, cycle]).result = .ok c') :
    ∃ column : Column, column.name = (name : Field String) ∧ column.IsOfType own ∧
      c' = c.modifyTable holder table fun _ => { t with columns := t.columns ++ [column] } := by
  have hfound : c.findTable? (Cell.name (.text holder)) (Cell.name (.text table)) = some t := ht
  unfold columnRow atTable at hrow
  dsimp only at hrow
  rw [hfound] at hrow
  dsimp only at hrow
  obtain ⟨changed, hchanged, hrow⟩ := Logged.result_bind_eq_ok.mp hrow
  obtain rfl := Except.ok.inj hrow
  have hword : Cell.isWord "ARRAY" (.text "USER-DEFINED") = false := rfl
  rw [hword, if_neg Bool.false_ne_true, Logged.result_ofResult] at hchanged
  obtain ⟨dataType, hdataType, hchanged⟩ := exists_of_bind_eq_ok hchanged
  obtain rfl := Except.ok.inj hdataType
  obtain ⟨place, -, hchanged⟩ := exists_of_bind_eq_ok hchanged
  obtain ⟨length, -, hchanged⟩ := exists_of_bind_eq_ok hchanged
  obtain ⟨digits, -, hchanged⟩ := exists_of_bind_eq_ok hchanged
  obtain ⟨decimals, -, hchanged⟩ := exists_of_bind_eq_ok hchanged
  obtain ⟨first, -, hchanged⟩ := exists_of_bind_eq_ok hchanged
  obtain ⟨step, -, hchanged⟩ := exists_of_bind_eq_ok hchanged
  obtain ⟨largest, -, hchanged⟩ := exists_of_bind_eq_ok hchanged
  obtain ⟨least, -, hchanged⟩ := exists_of_bind_eq_ok hchanged
  obtain rfl := Except.ok.inj hchanged
  refine ⟨_, ?_, ⟨?_, ?_⟩, rfl⟩
  · rfl
  · rfl
  · simp [userTypeName]

end Inspect

/-! ## The name of the type -/

/-- The statement that creates a type calls it by a reference. -/
theorem UserType.exists_ddl_eq {u : UserType} (h : u.isComplete) (target : Option String) :
    ∃ rest, u.ddl target = "CREATE TYPE " ++ Ddl.reference u.schema u.name target ++ rest ∨
      u.ddl target = "CREATE DOMAIN " ++ Ddl.reference u.schema u.name target ++ rest := by
  unfold UserType.ddl
  rw [h, Bool.not_true, if_neg Bool.false_ne_true]
  dsimp only
  cases u.kind with
  | enum => exact ⟨_, .inl (String.append_assoc ..)⟩
  | composite => exact ⟨_, .inl (String.append_assoc ..)⟩
  | domain => exact ⟨_, .inr (String.append_assoc ..)⟩

theorem quoteName_eq_self_iff (hown : PlainName own) : quoteName own = own ↔ needsQuotes own = false := by
  unfold quoteName
  by_cases hquotes : needsQuotes own
  · rw [if_pos hquotes]
    refine iff_of_false (fun heq => ?_) (by simp [hquotes])
    have hmem : '"' ∈ own.toList := by
      rw [← heq]
      simp [quoted]
    exact hown.not_mem rfl hmem
  · rw [if_neg hquotes]
    exact iff_of_true rfl (by simpa using hquotes)

/-- The bare name is the reference only where the schema is the target. -/
theorem eq_reference_iff (hholder : PlainName holder) (hown : PlainName own) (target : Option String) :
    own = Ddl.reference (holder : Field String) (own : Field String) target ↔
      target = some holder ∧ needsQuotes own = false := by
  have hgiven : Text.given (⟨.text holder⟩ : Field String).given = some holder := by
    rw [Field.given_text, if_neg hholder.nonempty]
    exact Text.given_eq_some_iff.mpr ⟨rfl, hholder.nonempty⟩
  unfold Ddl.reference qualified qualified?
  rw [hgiven, Field.text?_text]
  dsimp only
  by_cases htarget : target = some holder
  · subst htarget
    rw [if_pos (beq_self_eq_true _), Option.map_some, Text.spelled_some, eq_comm, quoteName_eq_self_iff hown]
    exact (and_iff_right rfl).symm
  · refine iff_of_false (fun heq => ?_) fun h => htarget h.1
    have hpoint : '.' ∈ own.toList := by
      rw [heq, if_neg (by simpa using Ne.symm htarget)]
      simp
    exact hown.not_mem rfl hpoint

/-- A column of a type from the table's own schema shows the type's bare name in `CREATE TABLE`, be it declared in
a script or reported by a database, and the type is created under a reference; the two are the same name exactly if
the schema is the target and the name is written without quotes. -/
theorem named_as_created_iff (hholder : PlainName holder) (hown : OwnName own) (target : Option String) :
    (∀ (default : String) (definition : TableDefinition) (element : ColumnDefinition) (draft : Effect.Draft)
      (t : Table), Effect.schemaOf default definition.relation = holder →
      .column element ∈ definition.elements → element.type.path = [holder, own] → element.type.modifiers = [] →
      element.type.bounds = [] → (Effect.draftOf default definition).result = .ok draft →
      Effect.Edits default draft.table t →
      ∃ column ∈ t.columns, column.name = (element.name : Field String) ∧
        " ".intercalate ([quoteName element.name, own] ++ t.columnOptions target column) ∈ t.lines target) ∧
    (∀ (c c' : Catalog) (t : Table) (table name : String) (position default nullable maxLength precision scale comment
      identity generation start increment maximum minimum cycle : Json), c.findTable? holder table = some t →
      (Inspect.columnRow c [.text holder, .text table, .text name, position, default, nullable,
        .text "USER-DEFINED", .text holder, .text own, maxLength, precision, scale, comment, identity, generation,
        start, increment, maximum, minimum, cycle]).result = .ok c' →
      ∃ (column : Column) (t' : Table), c' = (c.modifyTable holder table fun _ => t') ∧
        t' = { t with columns := t.columns ++ [column] } ∧ column.name = (name : Field String) ∧
        " ".intercalate ([quoteName name, own] ++ t'.columnOptions target column) ∈ t'.lines target) ∧
    (∀ u : UserType, u.schema = (holder : Field String) → u.name = (own : Field String) → u.isComplete →
      ∃ rest,
        u.ddl target = "CREATE TYPE " ++ Ddl.reference (holder : Field String) (own : Field String) target ++ rest ∨
        u.ddl target =
          "CREATE DOMAIN " ++ Ddl.reference (holder : Field String) (own : Field String) target ++ rest) ∧
    (own = Ddl.reference (holder : Field String) (own : Field String) target ↔
      target = some holder ∧ needsQuotes own = false) := by
  refine ⟨?_, ?_, ?_, eq_reference_iff hholder hown.toPlainName target⟩
  · intro default definition element draft t hschema helement hpath hmodifiers hbounds hdraft hedits
    obtain ⟨column, hcolumn, hname, htype⟩ :=
      Effect.exists_isOfType hholder hown hschema helement hpath hmodifiers hbounds hdraft hedits
    exact ⟨column, hcolumn, hname, mem_lines_of_isOfType htype hown hcolumn hname target⟩
  · intro c c' t table name _ _ _ _ _ _ _ _ _ _ _ _ _ _ ht hrow
    obtain ⟨column, hname, htype, hc'⟩ := Inspect.exists_isOfType_of_row ht hrow
    refine ⟨column, _, hc', rfl, hname, mem_lines_of_isOfType htype hown ?_ hname target⟩
    exact List.mem_append_right _ (List.mem_singleton_self column)
  · intro u hschema hname hcomplete
    rw [← hschema, ← hname]
    exact u.exists_ddl_eq hcomplete target

/-- A diary whose moods are of a type of its own schema. -/
def diary : TableDefinition where
  relation := { schema := some "app", name := "diary" }
  elements := [.column { name := "mood", type := { path := ["app", "mood"] } }]

theorem diary_mood_unnamed : ∃ (draft : Effect.Draft) (column : Column),
    (Effect.draftOf "public" diary).result = .ok draft ∧ column ∈ draft.table.columns ∧
    " ".intercalate (["mood", "mood"] ++ draft.table.columnOptions none column) ∈ draft.table.lines none ∧
    "mood" ≠ Ddl.reference ("app" : String) ("mood" : String) none := by
  have hholder : PlainName "app" := by decide +kernel
  have hown : OwnName "mood" := by decide +kernel
  obtain ⟨hscript, -, -, hreference⟩ := named_as_created_iff hholder hown none
  obtain ⟨draft, hdraft⟩ : ∃ draft, (Effect.draftOf "public" diary).result.toOption = some draft :=
    Option.isSome_iff_exists.mp (by decide +kernel)
  have hdraft := eq_ok_of_toOption hdraft
  obtain ⟨column, hcolumn, -, hline⟩ := hscript "public" diary _ draft draft.table (by decide +kernel)
    (List.mem_singleton_self _) rfl rfl rfl hdraft .refl
  have hquoted : quoteName "mood" = "mood" := by decide +kernel
  exact ⟨draft, column, hdraft, hcolumn, hquoted ▸ hline, mt hreference.mp (by decide)⟩

end SchemaScript
