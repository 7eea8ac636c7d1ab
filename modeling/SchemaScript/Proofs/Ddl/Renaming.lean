import SchemaScript.Proofs.Catalog.Filing
import SchemaScript.Proofs.Catalog.Renaming
import SchemaScript.Proofs.Ddl.Checks
import SchemaScript.Proofs.Ddl.Reordering
import SchemaScript.Proofs.Sql.Unqualified
import Mathlib.Logic.Equiv.Basic

/-!
# Statements for one schema or another

An object of the schema `d` is neutral between `d` and `e` if it does not name `e`, and none of its texts begins
with one of the two. Such an object is written for `d` as it is written for `e` once the two schemas have
exchanged their names (`exchange`), and it is refused alike.
-/

namespace SchemaScript

open Sql

/-- Each of two schemas gets the name of the other. -/
def exchange (d e : String) : String ↪ String :=
  (Equiv.swap d e).toEmbedding

section

variable {d e x : String}

@[simp] theorem exchange_left (d e : String) : exchange d e d = e :=
  Equiv.swap_apply_left d e

theorem exchange_eq_right_iff : exchange d e x = e ↔ x = d :=
  (exchange d e).injective.eq_iff' (exchange_left d e)

theorem exchange_of_ne (hd : x ≠ d) (he : x ≠ e) : exchange d e x = x :=
  Equiv.swap_apply_of_ne_of_ne hd he

end

/-! ## Neutral objects -/

section

variable (d e : String)

/-- The field names another schema than `e`, or none. -/
def Field.Spares (e : String) (schema : Field String) : Prop :=
  schema = .absent ∨ ∃ x : String, schema = x ∧ x ≠ e

/-- Leaving out the schema in front comes to the same for both. -/
def ShowsSame (text : Option String) : Prop :=
  dropSchema text (some d) = dropSchema text (some e)

structure Column.Neutral (c : Column) : Prop where
  type : ShowsSame d e (c.declaredType.map canonicalType)
  default : c.isSerial ∨
    ∀ text, c.default.text? = some text → Ddl.defaultText text (some d) = Ddl.defaultText text (some e)

def Constraint.Neutral (c : Constraint) : Prop :=
  c.referencedSchema.Spares e

def Trigger.Neutral (t : Trigger) : Prop :=
  ShowsSame d e t.function.text?

structure Table.Neutral (t : Table) : Prop where
  columns : ∀ c ∈ t.columns, c.Neutral d e
  constraints : t.constraints.Each fun _ c => c.Neutral e
  triggers : t.triggers.Each fun _ r => r.Neutral d e

def StoredFunction.Neutral (r : StoredFunction) : Prop :=
  ShowsSame d e r.returnType.given

structure Aggregate.Neutral (a : Aggregate) : Prop where
  transition : ∀ x ∈ a.transitionSchema.given, x ≠ d ∧ x ≠ e
  final : ∀ x ∈ a.finalSchema.given, x ≠ d ∧ x ≠ e
  state : ShowsSame d e a.stateType.given

structure UserType.Neutral (t : UserType) : Prop where
  base : ShowsSame d e (t.base.text?.map canonicalType)
  members : ∀ m ∈ t.members, ShowsSame d e (m.dataType.text?.map canonicalType)

structure Schema.Neutral (s : Schema) : Prop where
  tables : s.tables.Each fun _ t => t.Neutral d e
  functions : s.functions.Each fun _ r => r.Neutral d e
  aggregates : s.aggregates.Each fun _ a => a.Neutral d e
  types : s.types.Each fun _ t => t.Neutral d e

structure IndexAttachment.Neutral (a : IndexAttachment) : Prop where
  parent : a.parentSchema.Spares e
  child : a.childSchema.Spares e

/-- Nothing that the catalog keeps tells the schemas `d` and `e` apart, and it does not keep `e` itself. -/
structure Catalog.Neutral (c : Catalog) : Prop where
  schemas : c.schemas.Each fun key s => key ≠ e ∧ s.Neutral d e
  indexPartitions : ∀ a ∈ c.indexPartitions, a.Neutral e

end

/-! ## References -/

variable {d e : String}

/-- Two schemas with different names, which are not empty and have no opening parenthesis in them. -/
structure Distinct (d e : String) : Prop where
  ne : d ≠ e
  left : d ≠ ""
  right : e ≠ ""
  leftOpen : '(' ∉ d.toList
  rightOpen : '(' ∉ e.toList

theorem Field.spares_text (h : d ≠ e) : Field.Spares e (d : Field String) :=
  .inr ⟨d, rfl, h⟩

section

variable (h : Distinct d e)
include h

theorem exchange_empty : exchange d e "" = "" :=
  exchange_of_ne h.left.symm h.right.symm

theorem isGiven_rename {schema : Field String} (hschema : schema.Spares e) :
    (schema.rename (exchange d e)).isGiven = schema.isGiven := by
  obtain rfl | ⟨x, rfl, -⟩ := hschema
  · rfl
  · by_cases hx : x = ""
    · rw [hx, Field.rename_text, exchange_empty h]
    · have hmoved : exchange d e x ≠ "" := fun hempty =>
        hx ((exchange d e).injective (hempty.trans (exchange_empty h).symm))
      simp [Field.isGiven, Json.isNothing, hx, hmoved]

omit h in
theorem qualified?_text (x : String) (name : Option String) (target : String) :
    qualified? (x : Field String).given name (some target) =
      if x = "" ∨ x = target then name.map quoteName else some (quoteName x ++ "." ++ nameText name) := by
  rw [Field.given_text]
  by_cases hempty : x = ""
  · rw [if_pos hempty, if_pos (.inl hempty)]
    rfl
  · have hgiven : Text.given (some x) = some x := Text.given_eq_some_iff.mpr ⟨rfl, hempty⟩
    rw [if_neg hempty]
    unfold qualified?
    simp [hgiven, hempty]

omit h in
/-- A reference seen from `d` looks as it does from `e` after the exchange. -/
theorem qualified?_rename {schema : Field String} (hschema : schema.Spares e) (name : Option String) :
    qualified? (schema.rename (exchange d e)).given name (some e) = qualified? schema.given name (some d) := by
  obtain rfl | ⟨x, rfl, hx⟩ := hschema
  · rfl
  · rw [Field.rename_text, qualified?_text, qualified?_text]
    by_cases hd : x = d
    · rw [hd, exchange_left, if_pos (.inr rfl), if_pos (.inr rfl)]
    · rw [exchange_of_ne hd hx]
      simp only [hd, hx]

omit h in
theorem reference_rename {schema : Field String} (hschema : schema.Spares e) (name : Field String) :
    Ddl.reference (schema.rename (exchange d e)) name (some e) = Ddl.reference schema name (some d) :=
  congrArg Text.spelled (qualified?_rename hschema name.text?)

omit h in
theorem needReference_rename {schema : Field String} (hschema : schema.Spares e) (f : String → String)
    (name : Field String) : Ddl.needReference (schema.rename f) name = Ddl.needReference schema name := by
  obtain rfl | ⟨x, rfl, -⟩ := hschema
  · rfl
  · unfold Ddl.needReference
    rw [Field.rename_text, Field.needText_text, Field.needText_text]

end

/-! ## Tables -/

section

variable {t : Table} {c : Constraint} {i : Index} {r : Trigger} {p : Policy}

theorem Constraint.showsAlike_rename (f : String → String) (c : Constraint) : c.ShowsAlike (c.rename f) where
  kind := rfl
  columnNames := List.Perm.refl _
  condition := rfl
  line := rfl
  check := rfl

theorem Table.showsAlike_rename (f : String → String) (t : Table) :
    t.constraints.Alike Constraint.ShowsAlike (t.rename f).constraints := by
  intro name
  show Option.Rel _ (t.constraints.get? name) ((t.constraints.map (Constraint.rename f)).get? name)
  rw [Entries.get?_map]
  cases t.constraints.get? name with
  | none => exact .none
  | some c => exact .some (c.showsAlike_rename f)

/-- A column of a neutral table is written the same. -/
theorem Table.columnText?_of_neutral {column : Column} (h : column.Neutral d e) (t : Table) :
    t.columnText? (some e) column = t.columnText? (some d) column := by
  have htype : column.typeText? (some e) = column.typeText? (some d) := by
    have hdrop : dropSchema _ (some d) = dropSchema _ (some e) := h.type
    unfold Column.typeText?
    simp only [hdrop]
  have hoptions : t.columnOptions (some e) column = t.columnOptions (some d) column := by
    unfold columnOptions
    rcases h.default with hserial | hdefault
    · simp only [hserial, if_true]
    · cases htext : column.default.text? with
      | none => rfl
      | some text => simp only [hdefault text htext]
  unfold columnText?
  rw [htype, hoptions]

variable (h : Distinct d e)
include h

theorem isGiven_both : Text.isGiven (some e) = Text.isGiven (some d) := by
  have hgiven {x : String} (hx : x ≠ "") : Text.isGiven (some x) = true := by
    simp [Text.isGiven, Text.given, hx]
  rw [hgiven h.left, hgiven h.right]

theorem Column.check_eq (column : Column) : column.check (some e) = column.check (some d) := by
  unfold Column.check Column.checkDefaultText
  rw [isGiven_both h]

namespace Table

omit h in
theorem lines_rename (ht : t.Neutral d e) : (t.rename (exchange d e)).lines (some e) = t.lines (some d) := by
  rw [← lines_congr (t.showsAlike_rename _) rfl]
  unfold lines
  refine congrArg (· ++ _) (List.filterMap_congr fun column hcolumn => ?_)
  exact columnText?_of_neutral (ht.columns column (mem_byPosition.mp hcolumn)) t

theorem ddl_rename (hschema : t.schema = (d : Field String)) (ht : t.Neutral d e) :
    (t.rename (exchange d e)).ddl (some e) = t.ddl (some d) := by
  have hreference : Ddl.reference (t.rename (exchange d e)).schema (t.rename (exchange d e)).name (some e) =
      Ddl.reference t.schema t.name (some d) := reference_rename (hschema ▸ Field.spares_text h.ne) t.name
  unfold ddl
  rw [lines_rename ht, hreference]
  rfl

theorem check_rename (hschema : t.schema = (d : Field String)) :
    (t.rename (exchange d e)).check (some e) = t.check (some d) := by
  have hreference : Ddl.needReference (t.rename (exchange d e)).schema (t.rename (exchange d e)).name =
      Ddl.needReference t.schema t.name := needReference_rename (hschema ▸ Field.spares_text h.ne) _ t.name
  have hlines : (t.rename (exchange d e)).constraints.sortedValues.forM checkLine =
      t.constraints.sortedValues.forM checkLine :=
    (forM_congr (fun _ _ hxy => hxy.check) (t.showsAlike_rename _).forall₂_sortedValues).symm
  unfold check
  rw [hreference, hlines, funext (Column.check_eq h)]
  rfl

theorem rowSecurityDdl_rename (hschema : t.schema = (d : Field String)) :
    (t.rename (exchange d e)).rowSecurityDdl (some e) = t.rowSecurityDdl (some d) := by
  have hreference : Ddl.reference (t.rename (exchange d e)).schema (t.rename (exchange d e)).name (some e) =
      Ddl.reference t.schema t.name (some d) := reference_rename (hschema ▸ Field.spares_text h.ne) t.name
  unfold rowSecurityDdl
  rw [hreference]
  rfl

theorem checkRowSecurity_rename (hschema : t.schema = (d : Field String)) :
    (t.rename (exchange d e)).checkRowSecurity = t.checkRowSecurity := by
  have hreference : Ddl.needReference (t.rename (exchange d e)).schema (t.rename (exchange d e)).name =
      Ddl.needReference t.schema t.name := needReference_rename (hschema ▸ Field.spares_text h.ne) _ t.name
  unfold checkRowSecurity
  rw [hreference]
  rfl

end Table

/-! ## What tables own -/

namespace Constraint

theorem foreignSchema_rename (hc : c.Neutral e) :
    (c.rename (exchange d e)).foreignSchema = c.foreignSchema.rename (exchange d e) := by
  have hgiven : (c.rename (exchange d e)).referencedSchema.isGiven = c.referencedSchema.isGiven :=
    isGiven_rename h hc
  unfold foreignSchema
  rw [hgiven]
  split <;> rfl

omit h in
theorem spares_foreignSchema (hschema : c.schema.Spares e) (hc : c.Neutral e) : c.foreignSchema.Spares e := by
  unfold foreignSchema
  split
  · exact hc
  · exact hschema

variable (hschema : c.schema.Spares e) (hc : c.Neutral e)
include hschema hc

theorem clause_rename : (c.rename (exchange d e)).clause (some e) = c.clause (some d) := by
  have hreference : Ddl.reference (c.rename (exchange d e)).foreignSchema
        (c.rename (exchange d e)).referencedTable (some e) =
      Ddl.reference c.foreignSchema c.referencedTable (some d) := by
    rw [foreignSchema_rename h hc]
    exact reference_rename (spares_foreignSchema hschema hc) _
  have hkey : (c.rename (exchange d e)).foreignKeyClause (some e) = c.foreignKeyClause (some d) := by
    funext columns referenced
    unfold foreignKeyClause
    rw [hreference]
    rfl
  unfold clause
  rw [hkey]
  rfl

theorem ddl_rename : (c.rename (exchange d e)).ddl (some e) = c.ddl (some d) := by
  have hreference : Ddl.reference (c.rename (exchange d e)).schema (c.rename (exchange d e)).table (some e) =
      Ddl.reference c.schema c.table (some d) := reference_rename hschema c.table
  unfold ddl
  rw [clause_rename h hschema hc, hreference]
  rfl

theorem check_rename : (c.rename (exchange d e)).check (some e) = c.check (some d) := by
  have hreference : Ddl.needReference (c.rename (exchange d e)).schema (c.rename (exchange d e)).table =
      Ddl.needReference c.schema c.table := needReference_rename hschema _ c.table
  have hforeign : Ddl.needReference (c.rename (exchange d e)).foreignSchema
        (c.rename (exchange d e)).referencedTable =
      Ddl.needReference c.foreignSchema c.referencedTable := by
    rw [foreignSchema_rename h hc]
    exact needReference_rename (spares_foreignSchema hschema hc) _ _
  have hclause : (c.rename (exchange d e)).checkClause = c.checkClause := by
    unfold checkClause
    rw [hforeign]
    rfl
  unfold check
  rw [hclause, clause_rename h hschema hc, hreference]
  rfl

end Constraint

omit h

namespace Index

variable (hschema : i.schema.Spares e)
include hschema

theorem ddl_rename (hdefinition : i.definition = .absent) :
    (i.rename (exchange d e)).ddl (some e) = i.ddl (some d) := by
  have hreference (name : Field String) : Ddl.reference (i.rename (exchange d e)).schema name (some e) =
      Ddl.reference i.schema name (some d) := reference_rename hschema name
  have hcolumns : (i.rename (exchange d e)).fromColumns? (some e) = i.fromColumns? (some d) := by
    unfold fromColumns?
    rw [hreference]
    rfl
  have hrenamed : (i.rename (exchange d e)).definition = .absent := hdefinition
  unfold ddl
  rw [hcolumns, hreference, hdefinition, hrenamed]
  rfl

theorem check_rename (f : String → String) : (i.rename f).check = i.check := by
  have hreference (name : Field String) : Ddl.needReference (i.rename f).schema name =
      Ddl.needReference i.schema name := needReference_rename hschema f name
  have hcolumns : (i.rename f).checkColumns = i.checkColumns := by
    unfold checkColumns
    rw [hreference]
    rfl
  unfold check
  rw [hcolumns, hreference]
  rfl

end Index

namespace Trigger

theorem ddl_rename (hschema : r.schema.Spares e) (hr : r.Neutral d e) :
    (r.rename (exchange d e)).ddl (some e) = r.ddl (some d) := by
  have hreference : Ddl.reference (r.rename (exchange d e)).schema (r.rename (exchange d e)).table (some e) =
      Ddl.reference r.schema r.table (some d) := reference_rename hschema r.table
  have hfunction : functionText (r.rename (exchange d e)).function.text? (some e) =
      functionText r.function.text? (some d) := by
    have hdrop : dropSchema r.function.text? (some d) = dropSchema r.function.text? (some e) := hr
    unfold functionText
    rw [hdrop]
    rfl
  unfold ddl
  rw [hreference, hfunction]
  rfl

theorem check_rename (hschema : r.schema.Spares e) (f : String → String) : (r.rename f).check = r.check := by
  have hreference : Ddl.needReference (r.rename f).schema (r.rename f).table =
      Ddl.needReference r.schema r.table := needReference_rename hschema f r.table
  unfold check
  rw [hreference]
  rfl

end Trigger

namespace Policy

theorem ddl_rename (hschema : p.schema.Spares e) : (p.rename (exchange d e)).ddl (some e) = p.ddl (some d) := by
  have hreference : Ddl.reference (p.rename (exchange d e)).schema (p.rename (exchange d e)).table (some e) =
      Ddl.reference p.schema p.table (some d) := reference_rename hschema p.table
  unfold ddl
  rw [hreference]
  rfl

theorem check_rename (hschema : p.schema.Spares e) (f : String → String) : (p.rename f).check = p.check := by
  have hreference : Ddl.needReference (p.rename f).schema (p.rename f).table =
      Ddl.needReference p.schema p.table := needReference_rename hschema f p.table
  unfold check
  rw [hreference]
  rfl

end Policy

namespace IndexAttachment

variable {a : IndexAttachment} (ha : a.Neutral e)
include ha

theorem ddl_rename : (a.rename (exchange d e)).ddl (some e) = a.ddl (some d) := by
  have hparent : Ddl.reference (a.rename (exchange d e)).parentSchema (a.rename (exchange d e)).parentIndex
      (some e) = Ddl.reference a.parentSchema a.parentIndex (some d) := reference_rename ha.parent _
  have hchild : Ddl.reference (a.rename (exchange d e)).childSchema (a.rename (exchange d e)).childIndex
      (some e) = Ddl.reference a.childSchema a.childIndex (some d) := reference_rename ha.child _
  unfold ddl
  rw [hparent, hchild]

theorem check_rename (f : String → String) : (a.rename f).check = a.check := by
  have hparent : Ddl.needReference (a.rename f).parentSchema (a.rename f).parentIndex =
      Ddl.needReference a.parentSchema a.parentIndex := needReference_rename ha.parent f _
  have hchild : Ddl.needReference (a.rename f).childSchema (a.rename f).childIndex =
      Ddl.needReference a.childSchema a.childIndex := needReference_rename ha.child f _
  unfold check
  rw [hparent, hchild]

end IndexAttachment
end

/-! ## Other objects -/

section

variable {v : View} {q : Sequence} {g : StoredFunction} {p : Procedure} {a : Aggregate} {t : UserType}

theorem View.ddl_rename (hschema : v.schema.Spares e) :
    (v.rename (exchange d e)).ddl (some e) = v.ddl (some d) := by
  have hreference : Ddl.reference (v.rename (exchange d e)).schema (v.rename (exchange d e)).name (some e) =
      Ddl.reference v.schema v.name (some d) := reference_rename hschema v.name
  unfold ddl
  rw [hreference]
  rfl

theorem View.check_rename (hschema : v.schema.Spares e) (f : String → String) : (v.rename f).check = v.check := by
  have hreference : Ddl.needReference (v.rename f).schema (v.rename f).name =
      Ddl.needReference v.schema v.name := needReference_rename hschema f v.name
  unfold check
  rw [hreference]
  rfl

theorem Sequence.ddl_rename (hschema : q.schema.Spares e) :
    (q.rename (exchange d e)).ddl (some e) = q.ddl (some d) := by
  have hreference : Ddl.reference (q.rename (exchange d e)).schema (q.rename (exchange d e)).name (some e) =
      Ddl.reference q.schema q.name (some d) := reference_rename hschema q.name
  unfold ddl
  rw [hreference]
  rfl

theorem Sequence.check_rename (hschema : q.schema.Spares e) (f : String → String) :
    (q.rename f).check = q.check := by
  have hreference : Ddl.needReference (q.rename f).schema (q.rename f).name =
      Ddl.needReference q.schema q.name := needReference_rename hschema f q.name
  unfold check
  rw [hreference]
  rfl

theorem Procedure.ddl_rename (hschema : p.schema.Spares e) :
    (p.rename (exchange d e)).ddl (some e) = p.ddl (some d) := by
  have hreference : Ddl.reference (p.rename (exchange d e)).schema (p.rename (exchange d e)).name (some e) =
      Ddl.reference p.schema p.name (some d) := reference_rename hschema p.name
  unfold ddl
  rw [hreference]
  rfl

theorem Procedure.check_rename (hschema : p.schema.Spares e) (f : String → String) :
    (p.rename f).check = p.check := by
  have hreference : Ddl.needReference (p.rename f).schema (p.rename f).name =
      Ddl.needReference p.schema p.name := needReference_rename hschema f p.name
  unfold check
  rw [hreference]
  rfl

theorem StoredFunction.ddl_rename (hschema : g.schema.Spares e) (hg : g.Neutral d e) :
    (g.rename (exchange d e)).ddl (some e) = g.ddl (some d) := by
  have hreference : Ddl.reference (g.rename (exchange d e)).schema (g.rename (exchange d e)).name (some e) =
      Ddl.reference g.schema g.name (some d) := reference_rename hschema g.name
  have hreturns : (g.rename (exchange d e)).returnType = g.returnType := rfl
  unfold Neutral ShowsSame at hg
  unfold ddl
  rw [hreference, hreturns]
  cases hgiven : g.returnType.given with
  | none => rfl
  | some type =>
    rw [hgiven] at hg
    simp only [← hg]
    rfl

theorem UserType.ddl_rename (hschema : t.schema.Spares e) (ht : t.Neutral d e) :
    (t.rename (exchange d e)).ddl (some e) = t.ddl (some d) := by
  have hreference : Ddl.reference (t.rename (exchange d e)).schema (t.rename (exchange d e)).name (some e) =
      Ddl.reference t.schema t.name (some d) := reference_rename hschema t.name
  have htype {type : Field String} (htype : ShowsSame d e (type.text?.map canonicalType)) :
      Ddl.typeText type (some e) = Ddl.typeText type (some d) :=
    congrArg Text.spelled (Eq.symm htype)
  have hmembers : compositeBody (some e) (t.rename (exchange d e)).members =
      compositeBody (some d) t.members := by
    unfold compositeBody
    refine congrArg (fun lines => " AS (\n" ++ ",\n".intercalate lines ++ "\n);") ?_
    refine List.map_congr_left fun m hm => ?_
    unfold Member.ddl
    rw [htype (ht.members m (mem_byPosition.mp hm))]
  have hdomain : domainBody (some e) (t.rename (exchange d e)) = domainBody (some d) t := by
    show domainBody (some e) t = _
    unfold domainBody
    rw [htype ht.base]
  unfold ddl
  rw [hreference, hmembers, hdomain]
  rfl

theorem UserType.check_rename (hschema : t.schema.Spares e) (f : String → String) :
    (t.rename f).check = t.check := by
  have hreference : Ddl.needReference (t.rename f).schema (t.rename f).name =
      Ddl.needReference t.schema t.name := needReference_rename hschema f t.name
  unfold check
  rw [hreference]
  rfl

variable (h : Distinct d e)
include h

theorem StoredFunction.check_rename (hschema : g.schema.Spares e) (f : String → String) :
    (g.rename f).check (some e) = g.check (some d) := by
  have hreference : Ddl.needReference (g.rename f).schema (g.rename f).name =
      Ddl.needReference g.schema g.name := needReference_rename hschema f g.name
  unfold check
  rw [hreference, isGiven_both h]
  rfl

theorem Aggregate.check_rename (hschema : a.schema.Spares e) (f : String → String) :
    (a.rename f).check (some e) = a.check (some d) := by
  have hreference : Ddl.needReference (a.rename f).schema (a.rename f).name =
      Ddl.needReference a.schema a.name := needReference_rename hschema f a.name
  unfold check
  rw [hreference, isGiven_both h]
  rfl

omit h

theorem Aggregate.ddl_rename (hschema : a.schema.Spares e) (ha : a.Neutral d e) :
    (a.rename (exchange d e)).ddl (some e) = a.ddl (some d) := by
  have hreference : Ddl.reference (a.rename (exchange d e)).schema (a.rename (exchange d e)).name (some e) =
      Ddl.reference a.schema a.name (some d) := reference_rename hschema a.name
  have hsupport {schema : Field String} (hsupport : ∀ x ∈ schema.given, x ≠ d ∧ x ≠ e)
      (name : Field String) : supportText name schema (some e) = supportText name schema (some d) := by
    unfold supportText
    cases hgiven : schema.given with
    | none => rfl
    | some x =>
      obtain ⟨hd, he⟩ := hsupport x hgiven
      simp [hd, he]
  have htransition : supportText (a.rename (exchange d e)).transition
        (a.rename (exchange d e)).transitionSchema (some e) =
      supportText a.transition a.transitionSchema (some d) := hsupport ha.transition a.transition
  have hfinal : supportText (a.rename (exchange d e)).final (a.rename (exchange d e)).finalSchema (some e) =
      supportText a.final a.finalSchema (some d) := hsupport ha.final a.final
  have hstate : dropSchema (a.rename (exchange d e)).stateType.given (some e) =
      dropSchema a.stateType.given (some d) := Eq.symm ha.state
  unfold ddl
  rw [hreference, htransition, hfinal, hstate]
  rfl

end
end SchemaScript
