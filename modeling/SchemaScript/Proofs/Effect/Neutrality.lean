import SchemaScript.Proofs.Ddl.Renaming
import SchemaScript.Proofs.Effect.Renaming
import SchemaScript.Proofs.Effect.Supply
import SchemaScript.Proofs.Text.Basic

/-!
# Scripts that keep clear of two schemas

A statement avoids a schema if it neither spells the schema out nor hands on a text that begins with it
(`Statement.Avoids`). Statements that avoid two schemas describe, with one of the two as the default schema, a
catalog that is neutral between them (`neutral_catalogOf`): it speaks of the default schema only by the fields
that place an object.
-/

namespace SchemaScript

open Sql Effect

/-! ## The texts that a statement hands on -/

namespace Sql

def TableElement.defaults : TableElement → List String
  | .column definition => definition.rules.filterMap (·.default?)
  | _ => []

/-- The defaults of the columns that the statement declares. -/
def Statement.defaults : Statement → List String
  | .createTable definition => definition.elements.flatMap (·.defaults)
  | _ => []

def DefinitionValue.spelled : DefinitionValue → String
  | .type t => t.text
  | .text written => written

/-- The type that an aggregate works on. -/
def stateType? (entry : String × DefinitionValue) : Option String :=
  if Text.lower entry.1 == "stype" then some entry.2.spelled else none

/-- What the statement hands on as a reference that may begin with a schema: the type of a result, the type that
an aggregate works on, and the function of a trigger. -/
def Statement.references : Statement → List String
  | .createRoutine definition => (resultType definition).toList
  | .createAggregate definition => definition.entries.filterMap stateType?
  | .createTrigger definition => [".".intercalate definition.function]
  | _ => []

/-- The statement neither names the schema nor hands on a text that begins with it, and it declares columns,
members and domains of types that are written without a schema. -/
structure Statement.Avoids (schema : String) (s : Statement) : Prop where
  schemas : schema ∉ s.schemas
  types : ∀ type ∈ s.types, '.' ∉ type.base.toList
  references : ∀ text ∈ s.references, isQualifiedBy schema text = false
  defaults : ∀ text ∈ s.defaults, Text.contains text ("nextval('" ++ schema ++ ".") = false

instance (schema : String) (s : Statement) : Decidable (s.Avoids schema) :=
  decidable_of_iff
    (schema ∉ s.schemas ∧ (∀ type ∈ s.types, '.' ∉ type.base.toList) ∧
      (∀ text ∈ s.references, isQualifiedBy schema text = false) ∧
      ∀ text ∈ s.defaults, Text.contains text ("nextval('" ++ schema ++ ".") = false)
    ⟨fun ⟨hschemas, htypes, hreferences, hdefaults⟩ => ⟨hschemas, htypes, hreferences, hdefaults⟩,
      fun ⟨hschemas, htypes, hreferences, hdefaults⟩ => ⟨hschemas, htypes, hreferences, hdefaults⟩⟩

end Sql

namespace Effect

variable {d e : String}

/-! ## Texts -/

theorem showsSame_none : ShowsSame d e none := rfl

theorem showsSame_of_not_qualified {text : String} (hd : isQualifiedBy d text = false)
    (he : isQualifiedBy e text = false) : ShowsSame d e (some text) := by
  unfold ShowsSame
  rw [dropSchema_of_not_qualified hd, dropSchema_of_not_qualified he]

theorem showsSame_canonicalType (h : Distinct d e) {text : String} (htext : Unqualified text.toList) :
    ShowsSame d e (some (canonicalType text)) :=
  showsSame_of_not_qualified (isQualifiedBy_of_unqualified htext.canonicalType h.leftOpen)
    (isQualifiedBy_of_unqualified htext.canonicalType h.rightOpen)

theorem showsSame_given {text : String} (h : ShowsSame d e (some text)) :
    ShowsSame d e (text : Field String).given := by
  rw [Field.given_text]
  split
  · exact showsSame_none
  · exact h

theorem defaultText_of_not_contains {text schema : String}
    (h : Text.contains text ("nextval('" ++ schema ++ ".") = false) :
    Ddl.defaultText text (some schema) = dropCast text := by
  unfold Ddl.defaultText
  dsimp only
  split
  · rfl
  · rw [Text.replaceAll_of_not_contains h]

/-! ## Columns -/

theorem unqualified_enclosed {front : String} (h : '.' ∉ front.toList) (inner : String) :
    Unqualified (front ++ enclosed inner).toList := by
  have hletters : (front ++ enclosed inner).toList = front.toList ++ '(' :: (inner ++ ")").toList := by
    simp [enclosed]
  rw [hletters]
  exact unqualified_append h _

theorem unqualified_text {type : WrittenType} (h : '.' ∉ type.base.toList) : Unqualified type.text.toList := by
  have hfront : '.' ∉ ((if type.isSetOf then "SETOF " else "") ++ type.base).toList := by
    rw [String.toList_append, List.mem_append, not_or]
    exact ⟨by split <;> decide, h⟩
  have hbrackets : '.' ∉ (if type.isArray then "[]" else "").toList := by split <;> decide
  unfold WrittenType.text
  dsimp only
  generalize (if type.isSetOf then "SETOF " else "") ++ type.base = front at hfront ⊢
  rw [String.toList_append]
  refine Unqualified.append ?_ hbrackets
  split
  · rw [String.append_empty]
    exact unqualified_of_no_point hfront
  · exact unqualified_enclosed hfront _

/-- The column is of a type that has no schema in front. -/
structure IsBare (c : Column) : Prop where
  dataType : ∃ text : String, c.dataType = text ∧ Unqualified text.toList
  userType : c.userType = .absent ∨ ∃ text : String, c.userType = text ∧ Unqualified text.toList

theorem IsBare.showsSame (h : Distinct d e) {c : Column} (hc : IsBare c) :
    ShowsSame d e (c.declaredType.map canonicalType) := by
  obtain ⟨⟨dataType, hdataType, hbare⟩, huser⟩ := hc
  have hplain : ShowsSame d e (c.dataType.text?.map canonicalType) := by
    rw [hdataType, Field.text?_text]
    exact showsSame_canonicalType h hbare
  unfold Column.declaredType
  split
  · obtain huser | ⟨userType, huser, hbare⟩ := huser
    · rw [huser]
      exact showsSame_none
    · rw [huser, Field.text?_text]
      exact showsSame_canonicalType h hbare
  · exact hplain

theorem gives_typedColumn_bare {type : WrittenType} (htype : '.' ∉ type.base.toList) (t : Table) (name : String)
    (position : Int) :
    Gives (fun c => IsBare c ∧ c.default = .absent) (typedColumn t name position type) := by
  have hnumber (written : String) : Gives (fun _ => True) (wholeModifier written) :=
    gives_wholeNumber _
  have hbase : Unqualified type.base.toList := unqualified_of_no_point htype
  have hplain {c : Column} (hdata : c.dataType = type.base) (huser : c.userType = .absent)
      (hdefault : c.default = .absent) : IsBare c ∧ c.default = .absent :=
    ⟨⟨⟨_, hdata, hbase⟩, .inl huser⟩, hdefault⟩
  unfold typedColumn
  dsimp only
  split
  · exact ⟨⟨⟨_, rfl, unqualified_text htype⟩, .inl rfl⟩, rfl⟩
  · split
    · split
      · exact hplain rfl rfl rfl
      · refine ⟨⟨⟨"USER-DEFINED", rfl, by decide⟩, .inr ⟨type.base, ?_, hbase⟩⟩, rfl⟩
        rw [dropSchema_of_no_point htype]
        rfl
    · split
      · exact (hnumber _).bind fun _ _ => hplain rfl rfl rfl
      · split
        · refine (hnumber _).bind fun _ _ => ?_
          split
          · exact hplain rfl rfl rfl
          · exact (hnumber _).bind fun _ _ => hplain rfl rfl rfl
        · refine ⟨⟨⟨_, rfl, ?_⟩, .inl rfl⟩, rfl⟩
          exact unqualified_enclosed htype _

theorem neutral_typedColumn (h : Distinct d e) {type : WrittenType} (htype : '.' ∉ type.base.toList) {t : Table}
    {name : String} {position : Int} {c : Column} (hc : typedColumn t name position type = .ok c) :
    c.Neutral d e := by
  have hgives := gives_typedColumn_bare htype t name position
  rw [hc] at hgives
  obtain ⟨hbare, hdefault⟩ := hgives
  refine ⟨hbare.showsSame h, .inr fun text htext => ?_⟩
  rw [hdefault] at htext
  contradiction

/-- A column of a serial type is written as such, whatever its sequence is called. -/
theorem neutral_serialColumn (h : Distinct d e) {type base default : String} (hbase : serialBase? type = some base)
    {c : Column} (hdata : c.dataType = base) (huser : c.userType = .absent) (hdefault : c.default = default)
    (hdraws : Text.contains default "nextval(") : c.Neutral d e := by
  have hunqualified : Unqualified base.toList := by
    unfold serialBase? at hbase
    split_ifs at hbase
    all_goals
      obtain rfl := Option.some.inj hbase
      decide
  refine ⟨IsBare.showsSame h ⟨⟨base, hdata, hunqualified⟩, .inl huser⟩, .inl ?_⟩
  have hempty : Text.contains "" "nextval(" = false := by decide
  obtain ⟨hwhole, hne⟩ := isSome_serialKeyword?_of_serialBase? hbase
  have hgiven : default ≠ "" := by
    rintro rfl
    rw [hempty] at hdraws
    contradiction
  have htype : (base : Field String).givenOr "" = base := by simp [Field.givenOr, Field.given_text, hne]
  unfold Column.isSerial
  rw [hdefault, Field.given_text, if_neg hgiven, hdata, htype]
  simp only [hdraws, hwhole, Bool.and_self]

/-! ## Tables -/

section

variable {t t' : Table} {relation : RelationName}

theorem schemaOf_ne (hne : d ≠ e) (h : e ∉ relation.schemas) : schemaOf d relation ≠ e := by
  unfold schemaOf Text.givenOr
  cases hgiven : Text.given relation.schema with
  | none => exact hne
  | some x =>
    rintro rfl
    exact h (by simp [RelationName.schemas, (Text.given_eq_some_iff.mp hgiven).1])

theorem spares_schemaOf (hne : d ≠ e) (h : e ∉ relation.schemas) :
    Field.Spares e (schemaOf d relation : Field String) :=
  .inr ⟨_, rfl, schemaOf_ne hne h⟩

theorem splitPath_ne {path : List String} (hne : d ≠ e) (h : e ∉ pathSchemas path) :
    (splitPath d path).1 ≠ e := by
  unfold splitPath
  unfold pathSchemas RelationName.ofPath at h
  split
  · exact hne
  · exact hne
  · next hpath =>
    rw [hpath] at h
    rintro rfl
    exact h (by simp [RelationName.schemas])

theorem forall_mem_modifyFirst {P : Column → Prop} {f : Column → Column} (hf : ∀ c, P c → P (f c))
    (p : Column → Bool) {columns : List Column} (h : ∀ c ∈ columns, P c) :
    ∀ c ∈ Table.modifyFirst p f columns, P c := by
  induction columns with
  | nil => exact h
  | cons c columns ih =>
    rw [List.forall_mem_cons] at h
    rw [Table.modifyFirst]
    split
    · exact List.forall_mem_cons.mpr ⟨hf c h.1, h.2⟩
    · exact List.forall_mem_cons.mpr ⟨h.1, ih h.2⟩

theorem neutral_modifyColumn (h : t.Neutral d e) {f : Column → Column}
    (hf : ∀ c, c.Neutral d e → (f c).Neutral d e) (name : String) : (t.modifyColumn name f).Neutral d e :=
  { h with columns := forall_mem_modifyFirst hf _ h.columns }

theorem neutral_changeLast (h : t.Neutral d e) {f : Column → Column}
    (hf : ∀ c, c.Neutral d e → (f c).Neutral d e) : (changeLast t f).Neutral d e := by
  refine { h with columns := fun c hc => ?_ }
  have hc : c ∈ t.columns.modify (t.columns.length - 1) f := hc
  obtain ⟨i, hi⟩ := List.mem_iff_getElem?.mp hc
  rw [List.getElem?_modify] at hi
  obtain ⟨before, hbefore, rfl⟩ := Option.map_eq_some_iff.mp hi
  have hbefore := h.columns before (List.mem_of_getElem? hbefore)
  split
  · exact hf before hbefore
  · exact hbefore

theorem neutral_addConstraint (hne : d ≠ e) (h : t.Neutral d e) {clause : ConstraintClause}
    (hclause : e ∉ clause.schemas) (ht : (addConstraint d t clause).result = .ok t') : t'.Neutral d e := by
  have hconstraint {c : Constraint} (hc : constraintOf d t clause = some c) : c.Neutral e := by
    unfold constraintOf at hc
    unfold ConstraintClause.schemas at hclause
    dsimp only at hc
    split at hc
    · obtain rfl := Option.some.inj hc
      exact .inl rfl
    · obtain rfl := Option.some.inj hc
      exact .inl rfl
    · obtain rfl := Option.some.inj hc
      exact .inl rfl
    · obtain rfl := Option.some.inj hc
      exact .inl rfl
    · next hrule =>
      rw [hrule] at hclause
      obtain rfl := Option.some.inj hc
      exact spares_schemaOf hne hclause
    · contradiction
  have hnulls (columns : List String) {t : Table} (h : t.Neutral d e) : (withoutNulls t columns).Neutral d e := by
    unfold withoutNulls
    induction columns generalizing t with
    | nil => exact h
    | cons name columns ih =>
      refine ih (neutral_modifyColumn h ?_ name)
      exact fun _ hc => ⟨hc.type, hc.default⟩
  unfold addConstraint at ht
  split at ht
  · obtain rfl := Except.ok.inj ht
    exact h
  · next c hc =>
    obtain rfl := Except.ok.inj ht
    have hput : (putConstraint t c).Neutral d e := { h with constraints := h.constraints.put (hconstraint hc) }
    split
    · exact hnulls _ hput
    · exact hput

theorem neutral_applyRule (h : Distinct d e) (ht : t.Neutral d e) {rule : ColumnRule} (hrule : e ∉ rule.schemas)
    (hdefault : ∀ text, rule.default? = some text →
      Ddl.defaultText text (some d) = Ddl.defaultText text (some e))
    (hresult : (applyRule d t rule).result = .ok t') : t'.Neutral d e := by
  cases rule with
  | notNull | null =>
    obtain rfl := Except.ok.inj hresult
    exact neutral_changeLast ht fun _ hc => ⟨hc.type, hc.default⟩
  | default value =>
    obtain rfl := Except.ok.inj hresult
    refine neutral_changeLast ht fun _ hc => ⟨hc.type, .inr fun text htext => ?_⟩
    obtain rfl : value.defaultText = text := Option.some.inj ((Field.text?_text _).symm.trans htext)
    exact hdefault _ rfl
  | identity always options =>
    obtain ⟨identity, -, hresult⟩ := Logged.result_bind_eq_ok.mp hresult
    obtain rfl := Except.ok.inj hresult
    exact neutral_changeLast ht fun _ hc => ⟨hc.type, hc.default⟩
  | constraint clause => exact neutral_addConstraint h.ne ht hrule hresult

/-- What an element of a table has to say for the table to stay neutral. -/
structure Harmless (d e : String) (element : TableElement) : Prop where
  schemas : e ∉ element.schemas
  types : ∀ type ∈ element.types, '.' ∉ type.base.toList
  defaults : ∀ text ∈ element.defaults, Ddl.defaultText text (some d) = Ddl.defaultText text (some e)

theorem neutral_addElement (h : Distinct d e) {draft draft' : Draft} (ht : draft.table.Neutral d e)
    {element : TableElement} (helement : Harmless d e element)
    (hresult : (addElement d draft element).result = .ok draft') : draft'.table.Neutral d e := by
  cases element with
  | column definition =>
    obtain ⟨next, hnext, hresult⟩ := Logged.result_bind_eq_ok.mp hresult
    obtain ⟨t, hrules, hresult⟩ := Logged.result_bind_eq_ok.mp hresult
    obtain rfl := Except.ok.inj hresult
    have happend {c : Column} (hc : c.Neutral d e) :
        { draft.table with columns := draft.table.columns ++ [c] }.Neutral d e := by
      refine { ht with columns := fun c' hc' => ?_ }
      rcases List.mem_append.mp hc' with hc' | hc'
      · exact ht.columns c' hc'
      · obtain rfl := List.mem_singleton.mp hc'
        exact hc
    have hadded : next.table.Neutral d e := by
      -- the default of a serial column may name the schema, but the column is written by its keyword
      change addColumn d draft definition = .ok next at hnext
      unfold addColumn at hnext
      dsimp only at hnext
      split at hnext
      · next base hbase =>
        obtain rfl := Except.ok.inj hnext
        obtain ⟨-, hbase⟩ := Option.ite_none_left_eq_some.mp hbase
        exact happend (neutral_serialColumn h hbase rfl rfl rfl (contains_serialDefault ..))
      · obtain ⟨column, hcolumn, hnext⟩ := exists_of_bind_eq_ok hnext
        obtain rfl := Except.ok.inj hnext
        exact happend (neutral_typedColumn h (helement.types _ (List.mem_singleton_self _)) hcolumn)
    refine Logged.keeps_foldlM (fun rule hrule t t' ht hstep => ?_) hadded hrules
    refine neutral_applyRule h ht (fun he => ?_) (fun text htext => ?_) hstep
    · exact helement.schemas (List.mem_flatMap.mpr ⟨rule, hrule, he⟩)
    · exact helement.defaults text (List.mem_filterMap.mpr ⟨rule, hrule, htext⟩)
  | constraint clause =>
    obtain ⟨t, ht', hresult⟩ := Logged.result_bind_eq_ok.mp hresult
    obtain rfl := Except.ok.inj hresult
    exact neutral_addConstraint h.ne ht helement.schemas ht'
  | other label =>
    obtain rfl := Except.ok.inj hresult
    exact ht

end

theorem harmless_of_avoids {definition : TableDefinition} (hd : (Statement.createTable definition).Avoids d)
    (he : (Statement.createTable definition).Avoids e) {element : TableElement}
    (helement : element ∈ definition.elements) : Harmless d e element where
  schemas hmem := he.schemas
    (List.mem_append_left _ (List.mem_append_right _ (List.mem_flatMap.mpr ⟨element, helement, hmem⟩)))
  types type htype := hd.types type (List.mem_flatMap.mpr ⟨element, helement, htype⟩)
  defaults text htext := by
    have hmem : text ∈ (Statement.createTable definition).defaults :=
      List.mem_flatMap.mpr ⟨element, helement, htext⟩
    rw [defaultText_of_not_contains (hd.defaults text hmem), defaultText_of_not_contains (he.defaults text hmem)]

theorem neutral_draftOf (h : Distinct d e) {definition : TableDefinition}
    (helements : ∀ element ∈ definition.elements, Harmless d e element) {draft : Draft}
    (hresult : (draftOf d definition).result = .ok draft) : draft.table.Neutral d e := by
  obtain ⟨drafted, hdrafted, hresult⟩ := Logged.result_bind_eq_ok.mp hresult
  have hneutral : drafted.table.Neutral d e := by
    refine Logged.keeps_foldlM (Q := fun draft => draft.table.Neutral d e)
      (fun element helement _ _ ht hstep => neutral_addElement h ht (helements element helement) hstep) ?_ hdrafted
    exact ⟨by simp, Entries.each_empty, Entries.each_empty⟩
  split at hresult
  · obtain rfl := Except.ok.inj hresult
    exact hneutral
  · obtain rfl := Except.ok.inj hresult
    exact { hneutral with }

/-! ## Catalogs -/

section

variable {c c' : Catalog} {s s' : Schema} {t t' : Table} {relation : RelationName} {text : Option String}

theorem neutral_newSchema (name : String) : Schema.Neutral d e { name := (name : Field String) } where
  tables := Entries.each_empty
  functions := Entries.each_empty
  aggregates := Entries.each_empty
  types := Entries.each_empty

theorem neutral_updateSchema (h : c.Neutral d e) {name : String} (hname : name ≠ e) {f : Schema → Schema}
    (hf : ∀ s, s.Neutral d e → (f s).Neutral d e) : (c.updateSchema name f).Neutral d e := by
  refine { h with schemas := h.schemas.put ⟨hname, hf _ ?_⟩ }
  unfold Catalog.schemaOrNew
  cases hs : c.schemas.get? name with
  | none => exact neutral_newSchema name
  | some s => exact (h.schemas name s hs).2

theorem neutral_findTable? (h : c.Neutral d e) {schema name : String} (ht : c.findTable? schema name = some t) :
    t.Neutral d e := by
  obtain ⟨s, hs, ht⟩ := Option.bind_eq_some_iff.mp ht
  exact (h.schemas schema s hs).2.tables name t ht

theorem neutral_modifyTable (h : c.Neutral d e) {f : Table → Table}
    (hf : ∀ t, t.Neutral d e → (f t).Neutral d e) (schema name : String) :
    (c.modifyTable schema name f).Neutral d e := by
  refine { h with schemas := h.schemas.modify fun s hs => ⟨hs.1, ?_⟩ }
  exact { hs.2 with tables := hs.2.tables.modify fun t ht => hf t ht }

theorem neutral_createTable (h : Distinct d e) (hc : c.Neutral d e) {definition : TableDefinition}
    (hd : (Statement.createTable definition).Avoids d) (he : (Statement.createTable definition).Avoids e)
    (hresult : (createTable d c definition).result = .ok c') : c'.Neutral d e := by
  have hrelation : e ∉ definition.relation.schemas := fun hmem =>
    he.schemas (List.mem_append_left _ (List.mem_append_left _ hmem))
  rw [result_createTable] at hresult
  cases hdraft : (draftOf d definition).result with
  | error fault =>
    rw [hdraft] at hresult
    contradiction
  | ok draft =>
    rw [hdraft] at hresult
    obtain rfl := Except.ok.inj hresult
    have htable := neutral_draftOf h (fun element helement => harmless_of_avoids hd he helement) hdraft
    have hput := neutral_updateSchema hc (schemaOf_ne h.ne hrelation) (f := putDraft definition.relation.name draft)
      fun s hs => { hs with tables := hs.tables.put htable }
    exact { hput with }

theorem neutral_withTable (hc : c.Neutral d e) {f : Table → Logged Table}
    (hf : ∀ t t', t.Neutral d e → (f t).result = .ok t' → t'.Neutral d e)
    (hresult : (withTable d c relation f).result = .ok c') : c'.Neutral d e := by
  unfold withTable at hresult
  dsimp only at hresult
  split at hresult
  · obtain rfl := Except.ok.inj hresult
    exact hc
  · next t ht =>
    obtain ⟨t', ht', hresult⟩ := Logged.result_bind_eq_ok.mp hresult
    obtain rfl := Except.ok.inj hresult
    exact neutral_modifyTable hc (fun _ _ => hf t t' (neutral_findTable? hc ht) ht') ..

theorem neutral_addTrigger (h : Distinct d e) (ht : t.Neutral d e) {definition : TriggerDefinition}
    (hd : (Statement.createTrigger definition).Avoids d) (he : (Statement.createTrigger definition).Avoids e) :
    (addTrigger t definition).Neutral d e := by
  refine { ht with triggers := ht.triggers.put ?_ }
  have hfunction := List.mem_singleton_self (".".intercalate definition.function)
  have hshown : ShowsSame d e (some (".".intercalate definition.function ++
      if definition.arguments.isEmpty then "" else enclosed (commaList (definition.arguments.map literal)))) := by
    split
    · rw [String.append_empty]
      exact showsSame_of_not_qualified (hd.references _ hfunction) (he.references _ hfunction)
    · unfold enclosed
      rw [String.append_assoc, ← String.append_assoc]
      exact showsSame_of_not_qualified (isQualifiedBy_append (hd.references _ hfunction) h.leftOpen _)
        (isQualifiedBy_append (he.references _ hfunction) h.rightOpen _)
  unfold Trigger.Neutral
  rw [Field.text?_text]
  exact hshown

theorem neutral_alterTable (h : Distinct d e) (hc : c.Neutral d e) {commands : List AlterCommand}
    (hcommands : e ∉ commands.flatMap (·.schemas))
    (hresult : (alterTable d c relation commands).result = .ok c') : c'.Neutral d e := by
  unfold alterTable at hresult
  dsimp only at hresult
  split at hresult
  · refine neutral_withTable hc (fun t t' ht ht' => ?_) hresult
    obtain rfl := Except.ok.inj ht'
    exact ht
  · next t ht =>
    obtain ⟨change, hchange, hresult⟩ := Logged.result_bind_eq_ok.mp hresult
    obtain rfl := Except.ok.inj hresult
    have hchanged : change.table.Neutral d e := by
      refine Logged.keeps_foldlM (Q := fun change : Change => change.table.Neutral d e)
        (fun command hcommand change change' hneutral hstep => ?_) (neutral_findTable? hc ht) hchange
      cases command with
      | addConstraint clause =>
        obtain ⟨t', ht', hstep⟩ := Logged.result_bind_eq_ok.mp hstep
        obtain rfl := Except.ok.inj hstep
        exact neutral_addConstraint h.ne hneutral
          (fun he => hcommands (List.mem_flatMap.mpr ⟨_, hcommand, he⟩)) ht'
      | rowSecurity enabled =>
        obtain rfl := Except.ok.inj hstep
        exact { hneutral with }
      | attachPartition child bound | other label =>
        obtain rfl := Except.ok.inj hstep
        exact hneutral
    exact { neutral_modifyTable hc (fun _ _ => hchanged) _ _ with }

theorem neutral_alterIndex (h : Distinct d e) (hc : c.Neutral d e) {commands : List AlterCommand}
    (hrelation : e ∉ relation.schemas) (hcommands : e ∉ commands.flatMap (·.schemas))
    (hresult : (alterIndex d c relation commands).result = .ok c') : c'.Neutral d e := by
  obtain ⟨found, hfound, hresult⟩ := Logged.result_bind_eq_ok.mp hresult
  obtain rfl := Except.ok.inj hresult
  have hneutral : ∀ a ∈ found, a.Neutral e := by
    refine Logged.keeps_foldlM (Q := fun found => ∀ a ∈ found, IndexAttachment.Neutral e a)
      (fun command hcommand found found' hneutral hstep => ?_) (by simp) hfound
    cases command with
    | attachPartition child bound =>
      obtain rfl := Except.ok.inj hstep
      intro a ha
      rcases List.mem_append.mp ha with ha | ha
      · exact hneutral a ha
      · obtain rfl := List.mem_singleton.mp ha
        exact ⟨spares_schemaOf h.ne hrelation, spares_schemaOf h.ne fun he =>
          hcommands (List.mem_flatMap.mpr ⟨_, hcommand, he⟩)⟩
    | addConstraint clause | rowSecurity enabled | other label =>
      obtain rfl := Except.ok.inj hstep
      exact hneutral
  exact { hc with indexPartitions := List.forall_mem_append.mpr ⟨hc.indexPartitions, hneutral⟩ }

/-! ## Comments -/

theorem neutral_commentObject? (h : s.Neutral d e) {kind : CommentKind} {name : String}
    (hchange : commentObject? s kind name text = some s') : s'.Neutral d e := by
  cases kind with
  | table =>
    obtain ⟨tables, htables, rfl⟩ := Option.map_eq_some_iff.mp hchange
    exact { h with tables := each_changeNamed? h.tables htables fun _ ht => { ht with } }
  | index =>
    obtain ⟨⟨key, t'⟩, hkey, rfl⟩ := Option.map_eq_some_iff.mp hchange
    obtain ⟨t, indexes, hmem, -, rfl⟩ := exists_of_commentIndex? hkey
    have ht := h.tables key t (Entries.get?_eq_some_iff.mpr hmem)
    exact { h with tables := h.tables.put { ht with } }
  | view | materializedView | sequence | procedure =>
    obtain ⟨entries, -, rfl⟩ := Option.map_eq_some_iff.mp hchange
    exact { h with }
  | type | domain =>
    obtain ⟨types, htypes, rfl⟩ := Option.map_eq_some_iff.mp hchange
    exact { h with types := each_changeNamed? h.types htypes fun _ ht => { ht with } }
  | function =>
    obtain ⟨functions, hfunctions, rfl⟩ := Option.map_eq_some_iff.mp hchange
    exact { h with functions := each_changeNamed? h.functions hfunctions fun _ hr => hr }
  | aggregate =>
    obtain ⟨aggregates, haggregates, rfl⟩ := Option.map_eq_some_iff.mp hchange
    exact { h with aggregates := each_changeNamed? h.aggregates haggregates fun _ ha => { ha with } }
  | extension | column | constraint | trigger => contradiction

theorem neutral_commentPart? (h : t.Neutral d e) {kind : CommentKind} {name : String}
    (hchange : commentPart? t kind name text = some t') : t'.Neutral d e := by
  cases kind with
  | column =>
    obtain ⟨c, -, rfl⟩ := Option.map_eq_some_iff.mp hchange
    refine neutral_modifyColumn h ?_ name
    exact fun _ hc => ⟨hc.type, hc.default⟩
  | constraint =>
    obtain ⟨constraints, hconstraints, rfl⟩ := Option.map_eq_some_iff.mp hchange
    exact { h with constraints := each_changeNamed? h.constraints hconstraints fun _ hc => hc }
  | trigger =>
    obtain ⟨triggers, htriggers, rfl⟩ := Option.map_eq_some_iff.mp hchange
    exact { h with triggers := each_changeNamed? h.triggers htriggers fun _ hr => hr }
  | extension | table | view | materializedView | sequence | type | domain | function | procedure
  | aggregate | index => contradiction

theorem neutral_commentOnPart? (h : c.Neutral d e) {kind : CommentKind} {path : List String}
    (hchange : commentOnPart? d c kind path text = some c') : c'.Neutral d e := by
  unfold commentOnPart? at hchange
  dsimp only at hchange
  split at hchange
  · contradiction
  · next t ht =>
    obtain ⟨t', hpart, rfl⟩ := Option.map_eq_some_iff.mp hchange
    exact neutral_modifyTable h (fun _ _ => neutral_commentPart? (neutral_findTable? h ht) hpart) _ _

theorem neutral_comment (h : c.Neutral d e) {kind : CommentKind} {path : List String}
    (hresult : (comment d c kind path text).result = .ok c') : c'.Neutral d e := by
  have hnamed (hchange : commentOn? d c kind path text = some c') : c'.Neutral d e := by
    unfold commentOn? at hchange
    split at hchange
    · obtain ⟨extensions, -, rfl⟩ := Option.map_eq_some_iff.mp hchange
      exact { h with }
    · exact neutral_commentOnPart? h hchange
    · exact neutral_commentOnPart? h hchange
    · exact neutral_commentOnPart? h hchange
    · dsimp only at hchange
      split at hchange
      · contradiction
      · next s hs =>
        obtain ⟨s', hobject, rfl⟩ := Option.map_eq_some_iff.mp hchange
        obtain ⟨hname, hneutral⟩ := h.schemas _ s hs
        exact { h with schemas := h.schemas.put ⟨hname, neutral_commentObject? hneutral hobject⟩ }
  unfold comment at hresult
  split at hresult
  · contradiction
  · split at hresult
    · next hchange =>
      obtain rfl := Except.ok.inj hresult
      exact hnamed hchange
    · obtain rfl := Except.ok.inj hresult
      exact h

/-! ## Routines and types -/

theorem neutral_createRoutine (h : Distinct d e) (hc : c.Neutral d e) {definition : RoutineDefinition}
    (hd : (Statement.createRoutine definition).Avoids d) (he : (Statement.createRoutine definition).Avoids e)
    (hresult : (createRoutine d c definition).result = .ok c') : c'.Neutral d e := by
  have hpath := splitPath_ne h.ne he.schemas
  have hresultType : ShowsSame d e ((resultType definition : Option String) : Field String).given := by
    cases hreturns : resultType definition with
    | none => exact showsSame_none
    | some text =>
      have hmem : text ∈ (Statement.createRoutine definition).references := by
        simp [Statement.references, hreturns]
      exact showsSame_given (showsSame_of_not_qualified (hd.references text hmem) (he.references text hmem))
  unfold createRoutine at hresult
  dsimp only at hresult
  -- whether the routine has a body only shows in the log
  split_ifs at hresult
  all_goals
    obtain rfl := Except.ok.inj hresult
    refine neutral_updateSchema hc hpath fun s hs => ?_
  · exact { hs with }
  · exact { hs with functions := hs.functions.put hresultType }
  · exact { hs with }
  · exact { hs with functions := hs.functions.put hresultType }

theorem neutral_aggregateEntry {a : Aggregate} (ha : a.Neutral d e) (hasArguments : Bool)
    {entry : String × DefinitionValue} (hd : d ∉ supportSchemas entry) (he : e ∉ supportSchemas entry)
    (hstate : ∀ text, stateType? entry = some text → ShowsSame d e (some text)) :
    (aggregateEntry hasArguments a entry).Neutral d e := by
  obtain ⟨key, value⟩ := entry
  have hsupport (hkey : ["sfunc", "finalfunc"].contains (Text.lower key) = true) :
      ∀ x ∈ ((supportFunction value).1 : Field String).given, x ≠ d ∧ x ≠ e := by
    unfold supportSchemas at hd he
    rw [if_pos hkey] at hd he
    cases hschema : (supportFunction value).1 with
    | none => exact nofun
    | some y =>
      rw [hschema, Option.toList_some, List.mem_singleton] at hd he
      intro x hx
      obtain ⟨-, hx⟩ := Option.ite_none_left_eq_some.mp ((Field.given_text y).symm.trans hx)
      exact Option.some.inj hx ▸ ⟨Ne.symm hd, Ne.symm he⟩
  unfold aggregateEntry
  dsimp only
  split
  · next hkey => exact { ha with transition := hsupport (by rw [hkey]; decide) }
  · next hkey =>
    have hshown : ShowsSame d e (some value.spelled) := by
      refine hstate _ ?_
      unfold stateType?
      rw [hkey]
      rfl
    cases value with
    | type _ | text _ => exact { ha with state := showsSame_given hshown }
  · exact { ha with }
  · next hkey => exact { ha with final := hsupport (by rw [hkey]; decide) }
  · split
    · exact ha
    · exact { ha with }
  · exact ha

theorem neutral_createAggregate (h : Distinct d e) (hc : c.Neutral d e) {definition : AggregateDefinition}
    (hd : (Statement.createAggregate definition).Avoids d) (he : (Statement.createAggregate definition).Avoids e) :
    (createAggregate d c definition).Neutral d e := by
  have hentries (hasArguments : Bool) (entries : List (String × DefinitionValue))
      (hmem : ∀ entry ∈ entries, entry ∈ definition.entries) {a : Aggregate} (ha : a.Neutral d e) :
      (entries.foldl (aggregateEntry hasArguments) a).Neutral d e := by
    induction entries generalizing a with
    | nil => exact ha
    | cons entry entries ih =>
      rw [List.forall_mem_cons] at hmem
      refine ih hmem.2 (neutral_aggregateEntry ha hasArguments (fun hx => ?_) (fun hx => ?_) fun text htext => ?_)
      · exact hd.schemas (List.mem_append_right _ (List.mem_flatMap.mpr ⟨entry, hmem.1, hx⟩))
      · exact he.schemas (List.mem_append_right _ (List.mem_flatMap.mpr ⟨entry, hmem.1, hx⟩))
      · have htext : text ∈ (Statement.createAggregate definition).references :=
          List.mem_filterMap.mpr ⟨entry, hmem.1, htext⟩
        exact showsSame_of_not_qualified (hd.references text htext) (he.references text htext)
  have hpath := splitPath_ne h.ne fun hx => he.schemas (List.mem_append_left _ hx)
  unfold createAggregate
  dsimp only
  refine neutral_updateSchema hc hpath fun s hs => ?_
  refine { hs with aggregates := hs.aggregates.put (hentries _ _ (fun _ h => h) ?_) }
  exact ⟨nofun, nofun, showsSame_none⟩

theorem neutral_putType (hc : c.Neutral d e) {schema : String} (hschema : schema ≠ e) (name : String)
    {type : UserType} (htype : type.Neutral d e) : (putType c schema name type).Neutral d e :=
  neutral_updateSchema hc hschema fun _ hs => { hs with types := hs.types.put htype }

theorem showsSame_typeText (h : Distinct d e) {type : WrittenType} (htype : '.' ∉ type.base.toList) :
    ShowsSame d e ((type.text : Field String).text?.map canonicalType) := by
  rw [Field.text?_text]
  exact showsSame_canonicalType h (unqualified_text htype)

theorem neutral_createComposite (h : Distinct d e) (hc : c.Neutral d e) (hrelation : e ∉ relation.schemas)
    {members : List (String × WrittenType)} (hmembers : ∀ type ∈ members.map (·.2), '.' ∉ type.base.toList) :
    (createComposite d c relation members).Neutral d e := by
  refine neutral_putType hc (schemaOf_ne h.ne hrelation) _ ⟨showsSame_none, fun m hm => ?_⟩
  obtain ⟨i, hi, rfl⟩ := List.mem_mapIdx.mp hm
  exact showsSame_typeText h (hmembers _ (List.mem_map_of_mem (List.getElem_mem hi)))

theorem neutral_createDomain (h : Distinct d e) (hc : c.Neutral d e) {path : List String}
    (hpath : e ∉ pathSchemas path) {base : WrittenType} (hbase : '.' ∉ base.base.toList)
    (rules : List DomainRule) : (createDomain d c path base rules).Neutral d e := by
  have hrules (rules : List DomainRule) {type : UserType} (htype : type.Neutral d e) :
      (rules.foldl domainRule type).Neutral d e := by
    induction rules generalizing type with
    | nil => exact htype
    | cons rule rules ih =>
      refine ih ?_
      cases rule with
      | other => exact htype
      | notNull | default value | check name condition => exact { htype with }
  refine neutral_putType hc (splitPath_ne h.ne hpath) _ (hrules rules ?_)
  exact ⟨showsSame_typeText h hbase, by simp⟩

/-! ## Scripts -/

theorem neutral_effect (h : Distinct d e) (hc : c.Neutral d e) {statement : Statement}
    (hd : statement.Avoids d) (he : statement.Avoids e) (hresult : effect d c statement = .ok c') :
    c'.Neutral d e := by
  cases statement with
  | createSchema name owner =>
    obtain rfl := Except.ok.inj hresult
    cases name with
    | none => exact hc
    | some name =>
      have hname : name ≠ e := by
        rintro rfl
        exact he.schemas (by simp [Statement.schemas])
      unfold createSchema
      dsimp only
      refine neutral_updateSchema hc hname fun s hs => ?_
      split
      · exact { hs with }
      · exact hs
  | createTable definition => exact neutral_createTable h hc hd he hresult
  | createRoutine definition => exact neutral_createRoutine h hc hd he hresult
  | createAggregate definition =>
    obtain rfl := Except.ok.inj hresult
    exact neutral_createAggregate h hc hd he
  | createComposite relation members =>
    obtain rfl := Except.ok.inj hresult
    exact neutral_createComposite h hc he.schemas hd.types
  | createDomain path base rules =>
    obtain rfl := Except.ok.inj hresult
    exact neutral_createDomain h hc he.schemas (hd.types base (List.mem_singleton_self _)) rules
  | createEnum path labels =>
    obtain rfl := Except.ok.inj hresult
    exact neutral_putType hc (splitPath_ne h.ne he.schemas) _ ⟨showsSame_none, by simp⟩
  | createView relation definition materialized =>
    obtain rfl := Except.ok.inj hresult
    unfold createView
    dsimp only
    refine neutral_updateSchema hc (schemaOf_ne h.ne he.schemas) fun s hs => ?_
    exact { hs with }
  | createSequence relation options =>
    change createSequence d c relation options = .ok c' at hresult
    unfold createSequence at hresult
    obtain ⟨q, -, hresult⟩ := exists_of_bind_eq_ok hresult
    obtain rfl := Except.ok.inj hresult
    refine neutral_updateSchema hc (schemaOf_ne h.ne he.schemas) fun s hs => ?_
    exact { hs with }
  | createIndex definition =>
    refine neutral_withTable hc (fun t t' ht ht' => ?_) hresult
    obtain rfl := Except.ok.inj ht'
    exact { ht with }
  | createTrigger definition =>
    refine neutral_withTable hc (fun t t' ht ht' => ?_) hresult
    obtain rfl := Except.ok.inj ht'
    exact neutral_addTrigger h ht hd he
  | createPolicy definition =>
    refine neutral_withTable hc (fun t t' ht ht' => ?_) hresult
    obtain rfl := Except.ok.inj ht'
    exact { ht with }
  | alterTable relation commands =>
    exact neutral_alterTable h hc (fun hx => he.schemas (List.mem_append_right _ hx)) hresult
  | alterIndex relation commands =>
    exact neutral_alterIndex h hc (fun hx => he.schemas (List.mem_append_left _ hx))
      (fun hx => he.schemas (List.mem_append_right _ hx)) hresult
  | comment kind path text => exact neutral_comment hc hresult
  | createExtension name schema version =>
    obtain rfl := Except.ok.inj hresult
    exact { hc with }
  | createTableAs | define label | otherComment label | other label =>
    obtain rfl := Except.ok.inj hresult
    exact hc

theorem neutral_start : Catalog.Neutral d e start where
  schemas := Entries.each_empty
  indexPartitions := List.forall_mem_nil _

theorem neutral_inheritAll (hc : c.Neutral d e) : (inheritAll c).Neutral d e := by
  have hone {c : Catalog} (hc : c.Neutral d e) (a : PartitionAttachment) : (inheritColumns c a).Neutral d e := by
    unfold inheritColumns
    split
    · split
      · exact hc
      · next parent hparent =>
        refine neutral_modifyTable hc (fun child hchild => ?_) _ _
        split
        · exact { hchild with columns := (neutral_findTable? hc hparent).columns }
        · exact hchild
    · exact hc
  have hall (attachments : List PartitionAttachment) {c : Catalog} (hc : c.Neutral d e) :
      (attachments.foldl inheritColumns c).Neutral d e := by
    induction attachments generalizing c with
    | nil => exact hc
    | cons a attachments ih => exact ih (hone hc a)
  exact hall c.partitions hc

/-- Statements that avoid two schemas describe, for the one, a catalog that is neutral between them. -/
theorem neutral_catalogOf (h : Distinct d e) {all : List Statement}
    (hall : ∀ s ∈ all, s.Avoids d ∧ s.Avoids e) (hresult : (catalogOf d all).result = .ok c) :
    c.Neutral d e := by
  obtain ⟨⟨progress, hrun, rfl⟩, -⟩ := exists_run hresult
  refine neutral_inheritAll (keeps_foldlM (fun s hs c c' hc hstep => ?_) neutral_start (effects_of_run hrun))
  have hs := hall s (mem_inOrder.mp hs)
  exact neutral_effect h hc hs.1 hs.2 hstep

end

end Effect
end SchemaScript
