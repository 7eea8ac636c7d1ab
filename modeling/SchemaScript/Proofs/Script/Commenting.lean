import SchemaScript.Proofs.Effect.Outcome
import SchemaScript.Proofs.Effect.Supply
import SchemaScript.Proofs.Script.Coverage
import SchemaScript.Proofs.Script.Reordering
import SchemaScript.Proofs.Sql.Writing

/-!
# Comments in a script

An object with statements of its own brings its comments along, each as a statement that follows the one it is
created by (`Subject.ddl_eq_remarks`). Such a statement is read back as the comment it was written for
(`Remark.IsShaped.statements_sql`) and sets it on whatever then stands at its path (`Effect.exists_commentOn?`).
A constraint that stands inside `CREATE TABLE` has no statement of its own, and its comment is in no script
(`Catalog.diff_eq_of_recommented`).
-/

namespace SchemaScript

open Sql (CommentKind pathText namingText kindText)
open Sql.Reader (kindNaming)

/-! ## Comments as statements -/

/-- A comment on the object of the kind with that path; a routine is named together with its parameters. -/
structure Remark where
  kind : CommentKind
  path : List String
  parameters : String := ""
  text : String
  deriving DecidableEq

def Remark.sql (r : Remark) : String :=
  "COMMENT ON " ++ kindText r.kind ++ " " ++ namingText (kindNaming r.kind) r.path ++ r.parameters ++ " IS " ++
    Sql.literal r.text ++ ";"

theorem Remark.sql_eq (r : Remark) : r.sql =
    "COMMENT ON " ++ kindText r.kind ++ " " ++ namingText (kindNaming r.kind) r.path ++ r.parameters ++ " IS " ++
      Sql.literal r.text ++ ";" := rfl

theorem Remark.sql_eq_remarkText {r : Remark} (h : r.parameters = "") :
    r.sql = Sql.remarkText r.kind r.path r.text := by
  rw [sql_eq, Sql.remarkText_eq, h, String.append_empty]

theorem Field.isGiven_text {s : String} (h : s ≠ "") : (s : Field String).isGiven := by
  simp [Field.isGiven, Json.isNothing, h]

namespace Ddl

/-- The names in a reference as seen from the schema `target`. -/
def path (schema name : Field String) (target : Option String) : List String :=
  match Text.given schema.given with
  | none => [name.spelled]
  | some s => if some s == target then [name.spelled] else [s, name.spelled]

theorem given_of_isGiven {f : Field String} (h : f.isGiven) : f.given = some f.spelled :=
  if_pos h

theorem text?_of_isGiven {f : Field String} (h : f.isGiven) : f.text? = some f.spelled := by
  refine if_neg fun hnull => ?_
  rw [Field.isGiven, hnull] at h
  contradiction

theorem nameText_of_isGiven {name : Field String} (h : name.isGiven) : nameText name = Sql.quoteName name.spelled := by
  rw [nameText, text?_of_isGiven h]
  rfl

theorem reference_eq_pathText {name : Field String} (h : name.isGiven) (schema : Field String)
    (target : Option String) : reference schema name target = pathText (path schema name target) := by
  have hone : pathText [name.spelled] = Sql.quoteName name.spelled := String.intercalate_singleton
  rw [reference, text?_of_isGiven h, Sql.qualified, Sql.qualified?, path]
  cases Text.given schema.given with
  | none => exact hone.symm
  | some s =>
    dsimp only
    split
    · exact hone.symm
    · simp [pathText, Sql.nameText, Text.spelled]

theorem pathText_path_concat (schema name : Field String) (target : Option String) (last : String) :
    pathText (path schema name target ++ [last]) = pathText (path schema name target) ++ "." ++ Sql.quoteName last := by
  rw [path]
  cases Text.given schema.given with
  | none => simp [pathText, String.append_assoc]
  | some s =>
    dsimp only
    split <;> simp [pathText, String.append_assoc]

/-- The comment on an object, if there is one. -/
def remarks (kind : CommentKind) (path : List String) (comment : Field String) (parameters : String := "") :
    List Remark :=
  (comment.given.map fun text => { kind, path, parameters, text }).toList

section

variable (kind : CommentKind) (path : List String) (parameters : String) {subject : String}
  (h : subject = kindText kind ++ " " ++ namingText (kindNaming kind) path ++ parameters)
include h

theorem commentStatement_eq (text : String) :
    commentStatement subject text = Remark.sql { kind, path, parameters, text } := by
  rw [commentStatement, Remark.sql_eq, h]
  simp only [String.append_assoc]

theorem commentAfter_eq (creation : String) (comment : Field String) :
    creation ++ commentAfter subject comment = "\n\n".intercalate
      ((creation ++ commentAfter subject .absent) :: (remarks kind path comment parameters).map Remark.sql) := by
  rw [commentAfter, commentAfter, remarks]
  cases comment.given with
  | none => simp
  | some text => simp [commentStatement_eq kind path parameters h, String.append_assoc]

end

end Ddl

def Column.uncommented (c : Column) : Column :=
  { c with comment := .absent }

namespace Table

open Ddl (path remarks)

variable {t : Table} {target : Option String}

def uncommented (t : Table) : Table :=
  { t with comment := .absent, columns := t.columns.map Column.uncommented }

theorem sortedColumns_uncommented : t.uncommented.sortedColumns = t.sortedColumns.map Column.uncommented := by
  rw [sortedColumns, sortedColumns, byPosition, byPosition]
  exact (Order.map_sort Column.uncommented (fun _ _ => rfl) t.columns).symm

theorem lines_uncommented : t.uncommented.lines target = t.lines target := by
  have hcolumn : t.uncommented.columnText? target = t.columnText? target := rfl
  rw [lines, lines, sortedColumns_uncommented, hcolumn, List.filterMap_map]
  rfl

theorem comments_uncommented (name : String) : t.uncommented.comments name = [] := by
  rw [comments, sortedColumns_uncommented, List.filterMap_map]
  exact List.filterMap_eq_nil_iff.mpr fun _ _ => rfl

theorem comments_eq (h : t.isComplete) (target : Option String) :
    t.comments (pathText (path t.schema t.name target)) =
      (remarks .table (path t.schema t.name target) t.comment ++ t.sortedColumns.flatMap fun c =>
        remarks .column (path t.schema t.name target ++ [c.name.spelled]) c.comment).map Remark.sql := by
  have hcolumn (c : Column) (hc : c ∈ t.sortedColumns) :
      (c.comment.given.map fun text => Ddl.commentStatement ("COLUMN " ++ pathText (path t.schema t.name target) ++
        "." ++ Ddl.nameText c.name) text).toList =
      (remarks .column (path t.schema t.name target ++ [c.name.spelled]) c.comment).map Remark.sql := by
    have hname : c.name.isGiven := by
      have hall := List.all_eq_true.mp (Bool.and_eq_true_iff.mp h).2 c (mem_byPosition.mp hc)
      exact (Bool.and_eq_true_iff.mp hall).1
    rw [remarks, Ddl.nameText_of_isGiven hname]
    cases c.comment.given with
    | none => rfl
    | some text =>
      refine congrArg (List.cons · []) (Ddl.commentStatement_eq .column _ "" ?_ text)
      simp [kindText, kindNaming, namingText, Ddl.pathText_path_concat, String.append_assoc]
  rw [comments, List.map_append, List.map_flatMap, List.filterMap_eq_flatMap_toList]
  refine congrArg₂ (· ++ ·) ?_ (List.flatMap_congr hcolumn)
  rw [remarks]
  cases t.comment.given with
  | none => rfl
  | some text =>
    refine congrArg (List.cons · []) (Ddl.commentStatement_eq .table _ "" ?_ text)
    simp [kindText, kindNaming, namingText]

end Table

namespace Subject

open Ddl (path)

variable {s : Subject} {target : Option String}

/-- The comments that the object's statements bring along. -/
def remarks (target : Option String) : Subject → List Remark
  | extension e => Ddl.remarks .extension [e.name.spelled] e.comment
  | type t => Ddl.remarks (if t.isDomain then .domain else .type) (path t.schema t.name target) t.comment
  | sequence s => Ddl.remarks .sequence (path s.schema s.name target) s.comment
  | table t => Ddl.remarks .table (path t.schema t.name target) t.comment ++
      t.sortedColumns.flatMap fun c =>
        Ddl.remarks .column (path t.schema t.name target ++ [c.name.spelled]) c.comment
  | constraint c => Ddl.remarks .constraint (path c.schema c.table target ++ [c.name.spelled]) c.comment
  | index i => Ddl.remarks .index (path i.schema i.name target) i.comment
  | trigger t => Ddl.remarks .trigger (path t.schema t.table target ++ [t.name.spelled]) t.comment
  | view v => Ddl.remarks (if v.materialized.isGiven then .materializedView else .view)
      (path v.schema v.name target) v.comment
  | function f => Ddl.remarks .function (path f.schema f.name target) f.comment ("(" ++ f.arguments.spelled ++ ")")
  | aggregate a => Ddl.remarks .aggregate (path a.schema a.name target) a.comment
      ("(" ++ a.arguments.givenOr "*" ++ ")")
  | procedure p => Ddl.remarks .procedure (path p.schema p.name target) p.comment
      ("(" ++ p.arguments.spelled ++ ")")
  | schema _ | rowSecurity _ | policy _ => []

def uncommented : Subject → Subject
  | extension e => extension { e with comment := .absent }
  | type t => type { t with comment := .absent }
  | sequence s => sequence { s with comment := .absent }
  | table t => table t.uncommented
  | constraint c => constraint { c with comment := .absent }
  | index i => index { i with comment := .absent }
  | trigger t => trigger { t with comment := .absent }
  | view v => view { v with comment := .absent }
  | function f => function { f with comment := .absent }
  | aggregate a => aggregate { a with comment := .absent }
  | procedure p => procedure { p with comment := .absent }
  | s => s

theorem onTable_text {schema table name : Field String} (htable : table.isGiven) (hname : name.isGiven)
    (target : Option String) :
    namingText .onTable (path schema table target ++ [name.spelled]) =
      Ddl.nameText name ++ " ON " ++ Ddl.reference schema table target := by
  rw [namingText, List.getLastD_concat, List.dropLast_concat, Ddl.nameText_of_isGiven hname,
    Ddl.reference_eq_pathText htable]

/-- A comment adds its statement behind the others, and nothing else. -/
theorem ddl_eq_remarks (h : s.ddl target ≠ "") :
    s.ddl target = "\n\n".intercalate (s.uncommented.ddl target :: (s.remarks target).map Remark.sql) := by
  cases s with
  | extension e =>
    have hname : e.name.isGiven := by
      by_contra hmissing
      simp [ddl, Extension.ddl, Field.given_of_not_isGiven (eq_false_of_ne_true hmissing)] at h
    simp only [ddl, uncommented, remarks, Extension.ddl, Ddl.given_of_isGiven hname]
    exact Ddl.commentAfter_eq _ _ _ (by simp [kindText, namingText, pathText, kindNaming]) _ _
  | schema s => simp [ddl, uncommented, remarks]
  | type t =>
    have hcomplete : t.isComplete := by
      by_contra hmissing
      simp [ddl, UserType.ddl, hmissing] at h
    have hname : t.name.isGiven := (Bool.and_eq_true_iff.mp hcomplete).1
    have huncommented : ({ t with comment := .absent } : UserType).isComplete := hcomplete
    have hreference := Ddl.reference_eq_pathText hname t.schema target
    obtain ⟨schema, name, kind, labels, members, base, notNull, default, constraints, comment⟩ := t
    simp only [ddl, uncommented, remarks, UserType.ddl, hcomplete, huncommented, hreference]
    cases kind with
    | enum => exact Ddl.commentAfter_eq .type _ "" (by simp [kindText, namingText, kindNaming]) _ _
    | composite => exact Ddl.commentAfter_eq .type _ "" (by simp [kindText, namingText, kindNaming]) _ _
    | domain => exact Ddl.commentAfter_eq .domain _ "" (by simp [kindText, namingText, kindNaming]) _ _
  | sequence s =>
    have hname : s.name.isGiven := by
      by_contra hmissing
      simp [ddl, Sequence.ddl, hmissing] at h
    simp only [ddl, uncommented, remarks, Sequence.ddl, hname, Ddl.reference_eq_pathText hname]
    exact Ddl.commentAfter_eq _ _ _ (by simp [kindText, namingText, kindNaming]) _ _
  | table t =>
    have hcomplete : t.isComplete := by
      by_contra hmissing
      simp [ddl, Table.ddl, hmissing] at h
    have hname : t.name.isGiven := (Bool.and_eq_true_iff.mp hcomplete).1
    have huncommented : t.uncommented.isComplete := by
      simpa [Table.isComplete, Table.uncommented, Column.uncommented] using hcomplete
    have hclause : t.uncommented.partitionClause = t.partitionClause := rfl
    have hreference : Ddl.reference t.uncommented.schema t.uncommented.name target =
        pathText (path t.schema t.name target) := Ddl.reference_eq_pathText hname t.schema target
    simp only [ddl, uncommented, remarks, Table.ddl, hcomplete, huncommented, Table.lines_uncommented,
      Table.comments_uncommented, hclause, hreference, Ddl.reference_eq_pathText hname,
      Table.comments_eq hcomplete target, Bool.not_true, Bool.false_eq_true, if_false,
      String.intercalate_singleton]
  | rowSecurity t => simp [ddl, uncommented, remarks]
  | constraint c =>
    have hname : c.name.isGiven := by
      by_contra hmissing
      simp [ddl, Constraint.ddl, Field.given_of_not_isGiven (eq_false_of_ne_true hmissing)] at h
    have htable : c.table.isGiven := by
      by_contra hmissing
      simp [ddl, Constraint.ddl, hmissing] at h
    have hclause : c.clause target ≠ "" := by
      intro hempty
      simp [ddl, Constraint.ddl, hempty] at h
    have huncommented : ({ c with comment := .absent } : Constraint).clause target ≠ "" := hclause
    simp only [ddl, uncommented, remarks, Constraint.ddl, hclause, huncommented, htable, Ddl.given_of_isGiven hname,
      Ddl.reference_eq_pathText htable, beq_iff_eq, Bool.not_true, Bool.or_false, if_false]
    refine Ddl.commentAfter_eq _ _ _ ?_ _ _
    rw [kindNaming, onTable_text htable hname, Ddl.nameText_of_isGiven hname, Ddl.reference_eq_pathText htable]
    simp [kindText, String.append_assoc]
  | index i =>
    have hname : i.name.isGiven := by
      by_contra hmissing
      simp [ddl, Index.ddl, hmissing] at h
    have hdefinition (d : String) :
        ({ i with comment := .absent } : Index).fromDefinition d target = i.fromDefinition d target := rfl
    have hcolumns : ({ i with comment := .absent } : Index).fromColumns? target = i.fromColumns? target := rfl
    simp only [ddl, uncommented, remarks, Index.ddl, hname, hdefinition, hcolumns, Bool.not_true, Bool.false_eq_true,
      if_false, Ddl.reference_eq_pathText hname] at h ⊢
    have hsubject : "INDEX " ++ pathText (path i.schema i.name target) =
        kindText .index ++ " " ++ namingText (kindNaming .index) (path i.schema i.name target) ++ "" := by
      simp [kindText, namingText, kindNaming]
    cases hgiven : i.definition.given with
    | some d => exact Ddl.commentAfter_eq .index _ "" hsubject _ _
    | none =>
      simp only [hgiven] at h
      cases hmade : i.fromColumns? target with
      | none => simp [hmade] at h
      | some text => exact Ddl.commentAfter_eq .index _ "" hsubject _ _
  | trigger t =>
    have hcomplete : t.isComplete := by
      by_contra hmissing
      simp [ddl, Trigger.ddl, hmissing] at h
    have huncommented : ({ t with comment := .absent } : Trigger).isComplete := hcomplete
    obtain ⟨hname, htable⟩ : t.name.isGiven ∧ t.table.isGiven := by
      simp only [Trigger.isComplete, Bool.and_eq_true] at hcomplete
      exact hcomplete.1.1
    simp only [ddl, uncommented, remarks, Trigger.ddl, hcomplete, huncommented]
    refine Ddl.commentAfter_eq _ _ _ ?_ _ _
    rw [kindNaming, onTable_text htable hname]
    simp [kindText, String.append_assoc]
  | policy p => simp [ddl, uncommented, remarks]
  | view v =>
    have hname : v.name.isGiven := by
      by_contra hmissing
      simp [ddl, View.ddl, hmissing] at h
    have hquery : v.query ≠ "" := by
      intro hempty
      simp [ddl, View.ddl, hempty] at h
    have huncommented : ({ v with comment := .absent } : View).query ≠ "" := hquery
    simp only [ddl, uncommented, remarks, View.ddl, hname, hquery, huncommented, Ddl.reference_eq_pathText hname,
      beq_iff_eq, Bool.not_true, Bool.false_or, if_false]
    refine Ddl.commentAfter_eq _ _ "" ?_ _ _
    simp only [View.keyword]
    split <;> simp [kindText, namingText, kindNaming]
  | function f =>
    have hcomplete : f.isComplete := by
      by_contra hmissing
      simp [ddl, StoredFunction.ddl, hmissing] at h
    have huncommented : ({ f with comment := .absent } : StoredFunction).isComplete := hcomplete
    have hname : f.name.isGiven := (Bool.and_eq_true_iff.mp hcomplete).1
    simp only [ddl, uncommented, remarks, StoredFunction.ddl, hcomplete, huncommented,
      Ddl.reference_eq_pathText hname]
    exact Ddl.commentAfter_eq _ _ _ (by simp [kindText, namingText, kindNaming, String.append_assoc]) _ _
  | aggregate a =>
    have hcomplete : a.isComplete := by
      by_contra hmissing
      simp [ddl, Aggregate.ddl, hmissing] at h
    have huncommented : ({ a with comment := .absent } : Aggregate).isComplete := hcomplete
    have hname : a.name.isGiven := by
      simp only [Aggregate.isComplete, Bool.and_eq_true] at hcomplete
      exact hcomplete.1.1
    simp only [ddl, uncommented, remarks, Aggregate.ddl, hcomplete, huncommented, Ddl.reference_eq_pathText hname]
    exact Ddl.commentAfter_eq _ _ _ (by simp [kindText, namingText, kindNaming, String.append_assoc]) _ _
  | procedure p =>
    have hcomplete : p.isComplete := by
      by_contra hmissing
      simp [ddl, Procedure.ddl, hmissing] at h
    have huncommented : ({ p with comment := .absent } : Procedure).isComplete := hcomplete
    have hname : p.name.isGiven := (Bool.and_eq_true_iff.mp hcomplete).1
    simp only [ddl, uncommented, remarks, Procedure.ddl, hcomplete, huncommented, Ddl.reference_eq_pathText hname]
    exact Ddl.commentAfter_eq _ _ _ (by simp [kindText, namingText, kindNaming, String.append_assoc]) _ _

end Subject

namespace Effect

/-! ## What a comment does -/

/-- The comment of an object of a schema, if it is there. -/
def commentOfObject? (s : Schema) (kind : CommentKind) (name : String) : Option (Field String) :=
  match kind with
  | .table => (s.tables.get? name).map (·.comment)
  | .view | .materializedView => (s.views.get? name).map (·.comment)
  | .sequence => (s.sequences.get? name).map (·.comment)
  | .type | .domain => (s.types.get? name).map (·.comment)
  | .function => (s.functions.get? name).map (·.comment)
  | .procedure => (s.procedures.get? name).map (·.comment)
  | .aggregate => (s.aggregates.get? name).map (·.comment)
  | .index => (s.tables.pairs.findSome? fun entry => entry.2.indexes.get? name).map (·.comment)
  | _ => none

/-- The comment of what belongs to a table. -/
def commentOfPart? (t : Table) (kind : CommentKind) (name : String) : Option (Field String) :=
  match kind with
  | .column => (t.column? name).map (·.comment)
  | .constraint => (t.constraints.get? name).map (·.comment)
  | .trigger => (t.triggers.get? name).map (·.comment)
  | _ => none

/-- The comment of the object that a path stands for. -/
def commentAt? (default : String) (c : Catalog) (kind : CommentKind) (path : List String) :
    Option (Field String) :=
  match kind with
  | .extension => (c.extensions.get? (path.getLastD "")).map (·.comment)
  | .column | .constraint | .trigger =>
    let (schema, name) := splitPath default path.dropLast
    (c.findTable? schema name).bind fun t => commentOfPart? t kind (path.getLastD "")
  | _ =>
    let (schema, name) := splitPath default path
    (c.schemas.get? schema).bind fun s => commentOfObject? s kind name

variable {default name : String} {c : Catalog} {s : Schema} {t : Table} {kind : CommentKind} {path : List String}

theorem changeNamed?_of_get? {α : Type} {entries : Entries α} {value : α} (h : entries.get? name = some value)
    (f : α → α) : changeNamed? entries name f = some (entries.put name (f value)) := by
  rw [changeNamed?, h]
  rfl

/-- What is changed under its name is found there. -/
theorem exists_changeNamed? {α β : Type} (entries : Entries α) (comment : α → Field String) {f : α → α}
    {store : Entries α → β} (stored : β → Entries α) {text : Option String}
    (hf : ∀ x, comment (f x) = (text : Field String)) (hstore : ∀ e, stored (store e) = e)
    (h : ((entries.get? name).map comment).isSome) :
    ∃ b, (changeNamed? entries name f).map store = some b ∧
      ((stored b).get? name).map comment = some (text : Field String) := by
  obtain ⟨value, hvalue⟩ := Option.isSome_iff_exists.mp (Option.isSome_map ▸ h)
  refine ⟨_, by rw [changeNamed?_of_get? hvalue, Option.map_some], ?_⟩
  rw [hstore, Entries.get?_put, if_pos rfl, Option.map_some, hf]

theorem column?_modifyColumn (t : Table) (name : String) {f : Column → Column} (hf : ∀ c, (f c).name = c.name) :
    (t.modifyColumn name f).column? name = (t.column? name).map f := by
  have hfind (p : Column → Bool) (hp : ∀ c, p (f c) = p c) (columns : List Column) :
      (Table.modifyFirst p f columns).find? p = (columns.find? p).map f := by
    induction columns with
    | nil => rfl
    | cons c columns ih =>
      rw [Table.modifyFirst]
      split
      · next hc => rw [List.find?_cons_of_pos (by rw [hp, hc]), List.find?_cons_of_pos hc, Option.map_some]
      · next hc => rw [List.find?_cons_of_neg hc, List.find?_cons_of_neg hc, ih]
  exact hfind _ (fun c => by rw [hf]) t.columns

theorem commentIndex?_found {tables : List (String × Table)} (hnodup : (tables.map (·.1)).Nodup) {index : Index}
    (h : tables.findSome? (fun entry => entry.2.indexes.get? name) = some index) (text : Option String) :
    ∃ key t', commentIndex? name text tables = some (key, t') ∧
      (Entries.putPair key t' tables).findSome? (fun entry => entry.2.indexes.get? name) =
        some { index with comment := text } := by
  induction tables with
  | nil => contradiction
  | cons entry tables ih =>
    obtain ⟨k, t⟩ := entry
    obtain ⟨hk, hnodup⟩ := List.nodup_cons.mp hnodup
    cases hindex : t.indexes.get? name with
    | some found =>
      obtain rfl : found = index := by simpa [hindex] using h
      refine ⟨k, _, by rw [commentIndex?, changeNamed?_of_get? hindex], ?_⟩
      simp [Entries.putPair, Entries.get?_put]
    | none =>
      obtain ⟨key, t', hcomment, hafter⟩ := ih hnodup (by simpa [hindex] using h)
      obtain ⟨t₀, -, hmem, -⟩ := exists_of_commentIndex? hcomment
      have hne : k ≠ key := by
        rintro rfl
        exact hk (List.mem_map.mpr ⟨_, hmem, rfl⟩)
      refine ⟨key, t', ?_, ?_⟩
      · rw [commentIndex?, changeNamed?, hindex]
        exact hcomment
      · rw [Entries.putPair, if_neg hne]
        simpa [hindex] using hafter

section

variable (text : Option String)

theorem exists_commentObject? (h : (commentOfObject? s kind name).isSome) : ∃ s',
    commentObject? s kind name text = some s' ∧ commentOfObject? s' kind name = some (text : Field String) := by
  cases kind with
  | table => exact exists_changeNamed? s.tables (·.comment) Schema.tables (fun _ => rfl) (fun _ => rfl) h
  | view | materializedView =>
    exact exists_changeNamed? s.views (·.comment) Schema.views (fun _ => rfl) (fun _ => rfl) h
  | sequence => exact exists_changeNamed? s.sequences (·.comment) Schema.sequences (fun _ => rfl) (fun _ => rfl) h
  | type | domain => exact exists_changeNamed? s.types (·.comment) Schema.types (fun _ => rfl) (fun _ => rfl) h
  | function => exact exists_changeNamed? s.functions (·.comment) Schema.functions (fun _ => rfl) (fun _ => rfl) h
  | procedure => exact exists_changeNamed? s.procedures (·.comment) Schema.procedures (fun _ => rfl) (fun _ => rfl) h
  | aggregate => exact exists_changeNamed? s.aggregates (·.comment) Schema.aggregates (fun _ => rfl) (fun _ => rfl) h
  | index =>
    rw [commentOfObject?, Option.isSome_map] at h
    obtain ⟨index, hindex⟩ := Option.isSome_iff_exists.mp h
    obtain ⟨key, t', hcomment, hafter⟩ := commentIndex?_found s.tables.nodup hindex text
    refine ⟨{ s with tables := s.tables.put key t' }, by rw [commentObject?, hcomment]; rfl, ?_⟩
    rw [commentOfObject?]
    exact congrArg (Option.map (·.comment)) hafter
  | extension | column | constraint | trigger => contradiction

theorem exists_commentPart? (h : (commentOfPart? t kind name).isSome) : ∃ t',
    commentPart? t kind name text = some t' ∧ commentOfPart? t' kind name = some (text : Field String) := by
  cases kind with
  | column =>
    rw [commentOfPart?, Option.isSome_map] at h
    obtain ⟨column, hcolumn⟩ := Option.isSome_iff_exists.mp h
    refine ⟨_, by rw [commentPart?, commentColumn?, hcolumn, Option.map_some], ?_⟩
    have hafter := column?_modifyColumn t name (f := fun c => { c with comment := text }) fun _ => rfl
    rw [commentOfPart?, hafter, hcolumn]
    rfl
  | constraint => exact exists_changeNamed? t.constraints (·.comment) Table.constraints (fun _ => rfl) (fun _ => rfl) h
  | trigger => exact exists_changeNamed? t.triggers (·.comment) Table.triggers (fun _ => rfl) (fun _ => rfl) h
  | extension | table | view | materializedView | sequence | type | domain | function | procedure | aggregate
  | index => contradiction

/-- Whatever a path stands for takes the comment that is set on it. -/
theorem exists_commentOn? (h : (commentAt? default c kind path).isSome) : ∃ c',
    commentOn? default c kind path text = some c' ∧
      commentAt? default c' kind path = some (text : Field String) := by
  have hpart (h : ((c.findTable? (splitPath default path.dropLast).1 (splitPath default path.dropLast).2).bind
        fun t => commentOfPart? t kind (path.getLastD "")).isSome) :
      ∃ c', commentOnPart? default c kind path text = some c' ∧
        ((c'.findTable? (splitPath default path.dropLast).1 (splitPath default path.dropLast).2).bind
          fun t => commentOfPart? t kind (path.getLastD "")) = some (text : Field String) := by
    obtain ⟨comment, hfound⟩ := Option.isSome_iff_exists.mp h
    obtain ⟨t, ht, hcomment⟩ := Option.bind_eq_some_iff.mp hfound
    obtain ⟨t', hchange, hafter⟩ := exists_commentPart? text (Option.isSome_of_eq_some hcomment)
    refine ⟨c.modifyTable (splitPath default path.dropLast).1 (splitPath default path.dropLast).2 fun _ => t', ?_, ?_⟩
    · simp only [commentOnPart?, ht, hchange, Option.map_some]
    · rw [Catalog.findTable?_modifyTable, if_pos ⟨rfl, rfl⟩, ht]
      exact hafter
  have hobject (h : ((c.schemas.get? (splitPath default path).1).bind
        fun s => commentOfObject? s kind (splitPath default path).2).isSome) :
      ∃ s s', c.schemas.get? (splitPath default path).1 = some s ∧
        commentObject? s kind (splitPath default path).2 text = some s' ∧
        commentOfObject? s' kind (splitPath default path).2 = some (text : Field String) := by
    obtain ⟨comment, hfound⟩ := Option.isSome_iff_exists.mp h
    obtain ⟨s, hs, hcomment⟩ := Option.bind_eq_some_iff.mp hfound
    obtain ⟨s', hchange, hafter⟩ := exists_commentObject? text (Option.isSome_of_eq_some hcomment)
    exact ⟨s, s', hs, hchange, hafter⟩
  cases kind with
  | extension =>
    exact exists_changeNamed? c.extensions (·.comment) Catalog.extensions (fun _ => rfl) (fun _ => rfl) h
  | column | constraint | trigger => exact hpart h
  | table | view | materializedView | sequence | type | domain | function | procedure | aggregate | index =>
    obtain ⟨s, s', hs, hcomment, hafter⟩ := hobject h
    refine ⟨{ c with schemas := c.schemas.put (splitPath default path).1 s' }, ?_, ?_⟩
    · simp only [commentOn?, hs, hcomment, Option.map_some]
    · simp only [commentAt?, Entries.get?_put, if_pos, Option.bind_some, hafter]

end

end Effect

/-! ## What a comment in a script is on -/

/-- The path stands for an object that has the comment. Of columns and indexes of one name it stands for the first. -/
def Remark.IsOn (default : String) (c : Catalog) (r : Remark) : Prop :=
  ∃ comment, Effect.commentAt? default c r.kind r.path = some comment ∧
    (r.kind ≠ .column → r.kind ≠ .index → comment.given = some r.text)

namespace Ddl

variable {kind : CommentKind} {names : List String} {comment : Field String} {parameters : String} {r : Remark}

theorem mem_remarks : r ∈ remarks kind names comment parameters ↔
    ∃ text, comment.given = some text ∧ { kind, path := names, parameters, text } = r := by
  simp [remarks]

/-- A path is taken apart again, as long as only names of the default schema stand alone. -/
theorem splitPath_path {default schema : String} {target : Option String} (hschema : schema ≠ "")
    (htarget : target = none ∨ target = some default) (name : String) :
    Effect.splitPath default (path (schema : Field String) (name : Field String) target) = (schema, name) := by
  have hgiven : Text.given (⟨.text schema⟩ : Field String).given = some schema := by
    rw [Field.given_text, if_neg hschema]
    simp [Text.given, hschema]
  rw [path, hgiven]
  dsimp only
  split
  · next heq =>
    obtain rfl | rfl := htarget
    · simp at heq
    · obtain rfl : schema = default := by simpa using heq
      rfl
  · rfl

end Ddl

namespace Diff

variable {default : String} {old new : Catalog} {target : Option String} {s : Subject} {x : Piece} {r : Remark}

open Ddl (mem_remarks splitPath_path)

section

variable {key name : String} {sc : Schema} {t : Table} (hfound : new.schemas.get? key = some sc) (hkey : key ≠ "")
  (htarget : target = none ∨ target = some default)
include hfound hkey htarget

theorem isOn_object {kind : CommentKind} {comment found : Field String}
    (hkind : kind ∉ [.extension, .column, .constraint, .trigger])
    (h : Effect.commentOfObject? sc kind name = some found) (hcomment : kind ≠ .index → found = comment)
    {parameters : String}
    (hr : r ∈ Ddl.remarks kind (Ddl.path (key : Field String) (name : Field String) target) comment parameters) :
    r.IsOn default new := by
  obtain ⟨text, htext, rfl⟩ := mem_remarks.mp hr
  refine ⟨found, ?_, fun _ hindex => by rw [hcomment hindex, htext]⟩
  cases kind with
  | extension | column | constraint | trigger => simp at hkind
  | table | view | materializedView | sequence | type | domain | function | procedure | aggregate | index =>
    simp only [Effect.commentAt?, splitPath_path hkey htarget, hfound, Option.bind_some, h]

theorem isOn_part {kind : CommentKind} {comment found : Field String} {part : String}
    (hkind : kind ∈ [.column, .constraint, .trigger]) (ht : sc.tables.get? name = some t)
    (h : Effect.commentOfPart? t kind part = some found) (hcomment : kind ≠ .column → found = comment)
    (hr : r ∈ Ddl.remarks kind (Ddl.path (key : Field String) (name : Field String) target ++ [part]) comment) :
    r.IsOn default new := by
  obtain ⟨text, htext, rfl⟩ := mem_remarks.mp hr
  refine ⟨found, ?_, fun hcolumn _ => by rw [hcomment hcolumn, htext]⟩
  have htable : new.findTable? key name = some t := by rw [Catalog.findTable?, hfound, Option.bind_some, ht]
  cases kind with
  | column | constraint | trigger =>
    simp only [Effect.commentAt?, List.dropLast_concat, List.getLastD_concat, splitPath_path hkey htarget, htable,
      Option.bind_some, h]
  | extension | table | view | materializedView | sequence | type | domain | function | procedure | aggregate
  | index => simp at hkind

end

/-- What a remark of a table or of its parts is on. -/
theorem isOn_ofTable {key name : String} {sc : Schema} {t : Table} {p : Pair}
    (hfound : new.schemas.get? key = some sc) (hkey : key ≠ "") (htarget : target = none ∨ target = some default)
    (hkept : sc.tables.get? name = some t) (ht : t.Filed key name)
    (hcolumns : ∀ c ∈ t.columns, ∃ column : String, c.name = (column : Field String))
    (h : OfTable p name t s x) (hr : r ∈ s.remarks target) : r.IsOn default new := by
  cases h with
  | self =>
    rw [Subject.remarks, ht.name, ht.schema] at hr
    rcases List.mem_append.mp hr with hr | hr
    · exact isOn_object hfound hkey htarget (by decide) (by rw [Effect.commentOfObject?, hkept]; rfl) (fun _ => rfl) hr
    · obtain ⟨c, hc, hr⟩ := List.mem_flatMap.mp hr
      have hmem : c ∈ t.columns := mem_byPosition.mp hc
      obtain ⟨column, hcolumn⟩ := hcolumns c hmem
      have hany : (t.column? c.name.spelled).isSome :=
        List.find?_isSome.mpr ⟨c, hmem, beq_iff_eq.mpr (by rw [hcolumn, Field.spelled_text])⟩
      obtain ⟨found, hcolumn⟩ := Option.isSome_iff_exists.mp hany
      exact isOn_part hfound hkey htarget (by decide) hkept (by rw [Effect.commentOfPart?, hcolumn]; rfl)
        (fun hne => absurd rfl hne) hr
  | owned _ owned =>
    cases owned with
    | @index indexKey i kept _ =>
      have hi := ht.orderly.indexes _ _ kept
      rw [Subject.remarks, hi.name, hi.schema, ht.schema] at hr
      have hany : (sc.tables.pairs.findSome? fun entry => entry.2.indexes.get? indexKey).isSome := by
        rw [List.findSome?_isSome_iff]
        exact ⟨(name, t), Entries.get?_eq_some_iff.mp hkept, by rw [kept]; rfl⟩
      obtain ⟨found, hindex⟩ := Option.isSome_iff_exists.mp hany
      exact isOn_object hfound hkey htarget (by decide) (by rw [Effect.commentOfObject?, hindex]; rfl)
        (fun hne => absurd rfl hne) hr
    | constraint kept _ =>
      have hc := ht.orderly.constraints _ _ kept
      rw [Subject.remarks, hc.name, hc.schema, hc.table, ht.schema, ht.name, Field.spelled_text] at hr
      exact isOn_part hfound hkey htarget (by decide) hkept (by rw [Effect.commentOfPart?, kept]; rfl) (fun _ => rfl) hr
    | trigger kept =>
      have hg := ht.orderly.triggers _ _ kept
      rw [Subject.remarks, hg.name, hg.schema, hg.table, ht.schema, ht.name, Field.spelled_text] at hr
      exact isOn_part hfound hkey htarget (by decide) hkept (by rw [Effect.commentOfPart?, kept]; rfl) (fun _ => rfl) hr
    | rowSecurity => simp [Subject.remarks] at hr
    | policy => simp [Subject.remarks] at hr

/-- In the catalog of a script, a remark is on the object it is written for. -/
theorem Covers.isOn {all : List Sql.Statement} (h : Covers old new target s x)
    (hnew : (Effect.catalogOf default all).result = .ok new) (hkeys : ∀ key ∈ new.schemas.names, key ≠ "")
    (htarget : Text.given target = none ∨ Text.given target = some default)
    (hr : r ∈ s.remarks (Text.given target)) : r.IsOn default new := by
  have hfiled := Effect.filed_catalogOf hnew
  cases h with
  | extension kept _ =>
    obtain ⟨text, htext, rfl⟩ := mem_remarks.mp hr
    refine ⟨_, ?_, fun _ _ => htext⟩
    rw [Effect.commentAt?, hfiled.extensions _ _ kept]
    exact congrArg (Option.map _) kept
  | schema => simp [Subject.remarks] at hr
  | @inSchema p _ _ _ walked held =>
    obtain ⟨hfound, -, -⟩ := Pair.get?_of_mem_pairs walked
    have hkey := hkeys p.key (Entries.contains_iff_mem_names.mp (Entries.contains_of_get? hfound))
    have hschema := hfiled.schemas p.key p.schema hfound
    cases held with
    | @type key t kept _ =>
      have ht := hschema.types _ _ kept
      rw [Subject.remarks, ht.name, ht.schema] at hr
      have hcomment (kind : CommentKind) (hkind : kind = .domain ∨ kind = .type) :
          Effect.commentOfObject? p.schema kind key = some t.comment := by
        rcases hkind with rfl | rfl <;> rw [Effect.commentOfObject?, kept] <;> rfl
      split at hr
      · exact isOn_object hfound hkey htarget (by decide) (hcomment _ (.inl rfl)) (fun _ => rfl) hr
      · exact isOn_object hfound hkey htarget (by decide) (hcomment _ (.inr rfl)) (fun _ => rfl) hr
    | sequence kept _ _ =>
      have hs := hschema.sequences _ _ kept
      rw [Subject.remarks, hs.name, hs.schema] at hr
      exact isOn_object hfound hkey htarget (by decide) (by rw [Effect.commentOfObject?, kept]; rfl) (fun _ => rfl) hr
    | @table name t _ _ visited part =>
      have ht : new.findTable? p.key name = some t := by
        rw [Catalog.findTable?, hfound, Option.bind_some, visited.kept]
      exact isOn_ofTable hfound hkey htarget visited.kept (hschema.tables _ _ visited.kept)
        (fun _ hc => Effect.exists_columnName hnew ht hc) part hr
    | @view key v kept _ =>
      have hv := hschema.views _ _ kept
      rw [Subject.remarks, hv.name, hv.schema] at hr
      have hcomment (kind : CommentKind) (hkind : kind = .view ∨ kind = .materializedView) :
          Effect.commentOfObject? p.schema kind key = some v.comment := by
        rcases hkind with rfl | rfl <;> rw [Effect.commentOfObject?, kept] <;> rfl
      split at hr
      · exact isOn_object hfound hkey htarget (by decide) (hcomment _ (.inr rfl)) (fun _ => rfl) hr
      · exact isOn_object hfound hkey htarget (by decide) (hcomment _ (.inl rfl)) (fun _ => rfl) hr
    | function kept _ =>
      have hf := hschema.functions _ _ kept
      rw [Subject.remarks, hf.name, hf.schema] at hr
      exact isOn_object hfound hkey htarget (by decide) (by rw [Effect.commentOfObject?, kept]; rfl) (fun _ => rfl) hr
    | aggregate kept _ =>
      have ha := hschema.aggregates _ _ kept
      rw [Subject.remarks, ha.name, ha.schema] at hr
      exact isOn_object hfound hkey htarget (by decide) (by rw [Effect.commentOfObject?, kept]; rfl) (fun _ => rfl) hr
    | procedure kept _ =>
      have hp := hschema.procedures _ _ kept
      rw [Subject.remarks, hp.name, hp.schema] at hr
      exact isOn_object hfound hkey htarget (by decide) (by rw [Effect.commentOfObject?, kept]; rfl) (fun _ => rfl) hr

end Diff

/-! ## Comments without a statement -/

/-- The constraints differ at most in their comments. -/
inductive Constraint.Recommented (c : Constraint) : Constraint → Prop
  | change (comment : Field String) : c.Recommented { c with comment }

/-- The tables differ at most in the comments on constraints that stand inside `CREATE TABLE`. -/
inductive Table.Recommented (t : Table) : Table → Prop
  | change {constraints : Entries Constraint} (same : t.constraints.Alike Constraint.Recommented constraints)
      (outside : ∀ key c, t.constraints.get? key = some c → t.isInline key c = false →
        constraints.get? key = some c) : t.Recommented { t with constraints }

inductive Schema.Recommented (s : Schema) : Schema → Prop
  | change {tables : Entries Table} (same : s.tables.Alike Table.Recommented tables) :
      s.Recommented { s with tables }

inductive Catalog.Recommented (c : Catalog) : Catalog → Prop
  | change {schemas : Entries Schema} (same : c.schemas.Alike Schema.Recommented schemas) :
      c.Recommented { c with schemas }

/-- One entry changes, and the others are as they were. -/
theorem Entries.Alike.put_of_get? {α : Type} {r : α → α → Prop} (hrefl : ∀ x, r x x) {entries : Entries α}
    {name : String} {x y : α} (h : entries.get? name = some x) (hxy : r x y) :
    entries.Alike r (entries.put name y) := by
  intro n
  rw [Entries.get?_put]
  split
  · next hn =>
    rw [hn, h]
    exact .some hxy
  · cases entries.get? n with
    | none => exact .none
    | some z => exact .some (hrefl z)

theorem Table.recommented_refl (t : Table) : t.Recommented t :=
  .change (fun n => by cases t.constraints.get? n with
    | none => exact .none
    | some c => exact .some (.change c.comment)) fun _ _ h _ => h

theorem Schema.recommented_refl (s : Schema) : s.Recommented s :=
  .change fun n => by cases s.tables.get? n with
    | none => exact .none
    | some t => exact .some t.recommented_refl

theorem Catalog.recommented_modifyTable {c : Catalog} {schema name key : String} {t : Table} {k : Constraint}
    (ht : c.findTable? schema name = some t) (hk : t.constraints.get? key = some k) (hinline : t.isInline key k)
    (comment : Field String) : c.Recommented (c.modifyTable schema name fun _ =>
      { t with constraints := t.constraints.put key { k with comment } }) := by
  obtain ⟨s, hs, ht⟩ := Option.bind_eq_some_iff.mp ht
  rw [Effect.modifyTable_const hs ht]
  refine .change (Entries.Alike.put_of_get? Schema.recommented_refl hs (.change ?_))
  refine Entries.Alike.put_of_get? Table.recommented_refl ht (.change ?_ ?_)
  · exact Entries.Alike.put_of_get? (fun k => .change k.comment) hk (.change comment)
  · intro other kept hkept houtside
    rw [Entries.get?_put, if_neg ?_, hkept]
    rintro rfl
    obtain rfl : k = kept := Option.some.inj (hk.symm.trans hkept)
    rw [hinline] at houtside
    contradiction

theorem Constraint.Recommented.showsAlike {c c' : Constraint} (h : c.Recommented c') : c.ShowsAlike c' := by
  obtain ⟨comment⟩ := h
  exact ⟨rfl, .refl _, rfl, rfl, rfl⟩

namespace Table.Recommented

variable {t t' : Table} {target : Option String}

theorem showsAlike (h : t.Recommented t') : t.constraints.Alike Constraint.ShowsAlike t'.constraints := by
  obtain ⟨same, -⟩ := h
  exact same.mono fun _ _ hc => hc.showsAlike

theorem ddl_eq (h : t.Recommented t') : t.ddl target = t'.ddl target := by
  have hlines (hcolumns : t.sortedColumns = t'.sortedColumns) : t.lines target = t'.lines target :=
    lines_congr h.showsAlike hcolumns
  obtain ⟨-, -⟩ := h
  rw [ddl, ddl, hlines rfl]
  rfl

theorem check_eq (h : t.Recommented t') : t.check target = t'.check target := by
  have hlines : t.constraints.sortedValues.forM checkLine = t'.constraints.sortedValues.forM checkLine :=
    forM_congr (fun _ _ hc => hc.check) h.showsAlike.forall₂_sortedValues
  obtain ⟨-, -⟩ := h
  rw [check, check, hlines]
  rfl

theorem forall₂_foreignKeys (h : t.Recommented t') :
    List.Forall₂ Constraint.Recommented t.foreignKeys t'.foreignKeys := by
  obtain ⟨same, -⟩ := h
  refine forall₂_filter (fun c c' hc => ?_) same.forall₂_sortedValues
  rw [hc.showsAlike.kind]

/-- The constraints with statements of their own are the same. -/
theorem outside_eq (h : t.Recommented t') : (t.constraints.sorted.filter fun entry => !t.isInline entry.1 entry.2) =
    t'.constraints.sorted.filter fun entry => !t'.isInline entry.1 entry.2 := by
  have hinline := isInline_congr h.showsAlike
  obtain @⟨constraints, same, outside⟩ := h
  have hfiltered := forall₂_filter (p := fun entry => !t.isInline entry.1 entry.2)
    (q := fun entry => !({ t with constraints } : Table).isInline entry.1 entry.2)
    (fun x y hxy => by rw [hinline _ hxy.2.showsAlike, hxy.1]) same.forall₂_sorted
  rw [← List.forall₂_eq_eq_eq]
  refine List.forall₂_iff_get.mpr ⟨hfiltered.length_eq, fun i hi hi' => ?_⟩
  obtain ⟨hname, -⟩ := hfiltered.get hi hi'
  obtain ⟨hmem, houtside⟩ := List.mem_filter.mp (List.get_mem _ ⟨i, hi⟩)
  obtain ⟨hmem', -⟩ := List.mem_filter.mp (List.get_mem _ ⟨i, hi'⟩)
  have hkept := outside _ _ (Entries.get?_of_mem_sorted hmem) (by simpa using houtside)
  have hkept' := Entries.get?_of_mem_sorted hmem'
  rw [← hname, hkept] at hkept'
  exact Prod.ext hname (Option.some.inj hkept')

end Table.Recommented

namespace Schema.Recommented

variable {s s' : Schema}

theorem tableEdges_eq (h : s.Recommented s') : s.tableEdges = s'.tableEdges := by
  obtain ⟨same⟩ := h
  refine Schema.tableEdges_congr same (fun _ _ ht => ht.forall₂_foreignKeys) fun name c c' hc => ?_
  obtain ⟨comment⟩ := hc
  have hcontains := same.contains_eq
  simp only [keyEffect, hcontains]

end Schema.Recommented

namespace Diff

variable {old new new' : Catalog} {target : Option String}

/-- The pairs differ at most in such comments. -/
inductive Pair.Recommented (p : Pair) : Pair → Prop
  | change {schema : Schema} (same : p.schema.Recommented schema) : p.Recommented { p with schema }

theorem tables_eq_of_recommented (hnew : new.Recommented new') {p p' : Pair} (hp : p.Recommented p') :
    (tables new p).result = (tables new' p').result := by
  obtain ⟨hschema⟩ := hp
  have hedges := hschema.tableEdges_eq
  obtain ⟨same⟩ := hschema
  obtain ⟨-⟩ := hnew
  refine tables_congr_of same rfl hedges ⟨rfl, rfl⟩ fun name parent t t' ht => ?_
  have hddl : t.ddl p.target = t'.ddl p.target := ht.ddl_eq
  have hcheck : t.check p.target = t'.check p.target := ht.check_eq
  have houtside := ht.outside_eq
  obtain ⟨-, -⟩ := ht
  simp only [tablePieces, tableParts, hddl, hcheck, houtside]
  rfl

theorem pieces_eq_of_recommented (h : new.Recommented new') :
    (pieces old new target).result = (pieces old new' target).result := by
  have hpairs : List.Forall₂ Pair.Recommented (pairs old new (Text.given target))
      (pairs old new' (Text.given target)) := by
    obtain ⟨same⟩ := h
    exact forall₂_pairs_of same (Text.given target) fun _ _ _ _ hs => .change hs
  have hschemas : (schemas old new (Text.given target)).result = (schemas old new' (Text.given target)).result := by
    obtain ⟨same⟩ := h
    refine collect_congr (forall₂_filter (fun _ _ hxy => by rw [hxy.1]) same.forall₂_sorted) ?_
    rintro ⟨key, s⟩ ⟨_, s'⟩ ⟨rfl, hs⟩
    obtain ⟨-⟩ := hs
    rfl
  refine pieces_congr_of ?_ hschemas hpairs (fun p p' hp => ?_) fun p p' hp => tables_eq_of_recommented h hp
  · obtain ⟨-⟩ := h
    rfl
  · obtain ⟨⟨-⟩⟩ := hp
    simp only [ownPasses, List.forall_mem_cons]
    exact ⟨rfl, rfl, rfl, rfl, rfl, rfl, fun _ hnil => absurd hnil List.not_mem_nil⟩

end Diff

theorem Catalog.diff_eq_of_recommented (h : new.Recommented new') (old : Catalog) (target : Option String)
    (withHeadings : Bool) : (old.diff new target withHeadings).result = (old.diff new' target withHeadings).result := by
  have hpieces : (Diff.pieces old new target).result = (Diff.pieces old new' target).result :=
    Diff.pieces_eq_of_recommented h
  obtain ⟨-⟩ := h
  rw [diff, diff]
  exact Logged.result_bind_congr hpieces fun pieces => rfl

/-! ## Comments of a script -/

namespace Remark

variable {r : Remark}

/-- Only a routine is named with parameters, and what stands on a table is named behind it. -/
def IsShaped (r : Remark) : Prop :=
  match r.kind with
  | .extension => r.path.length = 1
  | .column | .constraint | .trigger => 2 ≤ r.path.length
  | .function | .procedure | .aggregate => r.parameters ≠ ""
  | _ => r.path ≠ []

/-- The names of the path are read back as they are, and so is the text. -/
structure IsPlain (r : Remark) : Prop where
  parameters : r.parameters = ""
  names : ∀ n ∈ r.path, Sql.IsKept n
  text : '\x00' ∉ r.text.toList
  type : kindNaming r.kind = .type → ∀ n ∈ r.path.head?,
    Sql.Reader.nameOf? Sql.isFunctionName (some (Sql.nameToken n)) = some n

theorem IsShaped.isNamedBy (h : r.IsShaped) (hplain : r.IsPlain) : Sql.IsNamedBy (kindNaming r.kind) r.path := by
  have htype := hplain.type
  have hparameters := hplain.parameters
  unfold IsShaped at h
  cases hkind : r.kind with
  | function | procedure | aggregate =>
    rw [hkind] at h
    exact absurd hparameters h
  | type | domain =>
    rw [hkind] at h htype
    exact ⟨h, htype rfl⟩
  | extension | table | view | materializedView | sequence | index | column | constraint | trigger =>
    rw [hkind] at h
    first | exact h | exact List.ne_nil_of_length_pos (Nat.lt_of_lt_of_le Nat.zero_lt_two h)

theorem IsShaped.statements_sql (h : r.IsShaped) (hplain : r.IsPlain) :
    Sql.statements r.sql = .ok [.comment r.kind r.path (some r.text)] := by
  rw [sql_eq_remarkText hplain.parameters]
  exact Sql.statements_remarkText (h.isNamedBy hplain) hplain.names hplain.text

/-- The comment is set wherever the path stands for something. -/
theorem IsShaped.set (h : r.IsShaped) {default : String} {c : Catalog}
    (hfound : (Effect.commentAt? default c r.kind r.path).isSome) : ∃ c',
      (Effect.comment default c r.kind r.path (some r.text)).result = .ok c' ∧
      Effect.commentAt? default c' r.kind r.path = some (r.text : Field String) := by
  obtain ⟨c', hset, hafter⟩ := Effect.exists_commentOn? (some r.text) hfound
  have hcolumn : (r.kind == .column && decide (r.path.length < 2)) = false := by
    rw [Bool.and_eq_false_imp, beq_iff_eq]
    intro hkind
    rw [IsShaped, hkind] at h
    exact decide_eq_false (Nat.not_lt.mpr h)
  refine ⟨c', ?_, hafter⟩
  rw [Effect.comment, hset, hcolumn]
  rfl

end Remark

theorem Ddl.path_ne_nil (schema name : Field String) (target : Option String) : path schema name target ≠ [] := by
  unfold path
  split
  · simp
  · split <;> simp

theorem Subject.isShaped {s : Subject} {target : Option String} {r : Remark} (h : r ∈ s.remarks target) :
    r.IsShaped := by
  have hpart (schema name : Field String) (last : String) : 2 ≤ (Ddl.path schema name target ++ [last]).length := by
    have := List.length_pos_iff.mpr (Ddl.path_ne_nil schema name target)
    rw [List.length_append, List.length_singleton]
    omega
  have hroutine (arguments : String) : "(" ++ arguments ++ ")" ≠ "" := by simp
  cases s with
  | schema | rowSecurity | policy => simp [remarks] at h
  | table t =>
    rcases List.mem_append.mp h with h | h
    · obtain ⟨text, -, rfl⟩ := Ddl.mem_remarks.mp h
      exact Ddl.path_ne_nil _ _ _
    · obtain ⟨c, -, h⟩ := List.mem_flatMap.mp h
      obtain ⟨text, -, rfl⟩ := Ddl.mem_remarks.mp h
      exact hpart _ _ _
  | type t =>
    obtain ⟨text, -, rfl⟩ := Ddl.mem_remarks.mp h
    unfold Remark.IsShaped
    cases t.isDomain <;> exact Ddl.path_ne_nil _ _ _
  | view v =>
    obtain ⟨text, -, rfl⟩ := Ddl.mem_remarks.mp h
    unfold Remark.IsShaped
    cases v.materialized.isGiven <;> exact Ddl.path_ne_nil _ _ _
  | extension e =>
    obtain ⟨text, -, rfl⟩ := Ddl.mem_remarks.mp h
    rfl
  | sequence | index =>
    obtain ⟨text, -, rfl⟩ := Ddl.mem_remarks.mp h
    exact Ddl.path_ne_nil _ _ _
  | constraint | trigger =>
    obtain ⟨text, -, rfl⟩ := Ddl.mem_remarks.mp h
    exact hpart _ _ _
  | function | aggregate | procedure =>
    obtain ⟨text, -, rfl⟩ := Ddl.mem_remarks.mp h
    exact hroutine _

/-- The comments of an object follow its statement. Each is a comment of the catalog, is read back as it is, and is
set on whatever its path then stands for. -/
structure BringsComments (default : String) (c : Catalog) (target : Option String) (s : Subject) (x : Piece) :
    Prop where
  text : x.text = "\n\n".intercalate (s.uncommented.ddl target :: (s.remarks target).map Remark.sql)
  isOn : (∀ key ∈ c.schemas.names, key ≠ "") → ∀ r ∈ s.remarks target, r.IsOn default c
  read : ∀ r ∈ s.remarks target, r.IsPlain → Sql.statements r.sql = .ok [.comment r.kind r.path (some r.text)]
  set : ∀ r ∈ s.remarks target, ∀ c', (Effect.commentAt? default c' r.kind r.path).isSome → ∃ c'',
    (Effect.comment default c' r.kind r.path (some r.text)).result = .ok c'' ∧
    Effect.commentAt? default c'' r.kind r.path = some (r.text : Field String)

theorem Diff.Covers.bringsComments {default : String} {all : List Sql.Statement} {old new : Catalog}
    {target : Option String} {s : Subject} {x : Piece} (h : Covers old new target s x) (hx : x.text ≠ "")
    (hnew : (Effect.catalogOf default all).result = .ok new)
    (htarget : Text.given target = none ∨ Text.given target = some default) :
    BringsComments default new (Text.given target) s x where
  text := by
    rw [h.text_eq.1] at hx ⊢
    exact Subject.ddl_eq_remarks hx
  isOn hkeys r hr := h.isOn hnew hkeys htarget hr
  read r hr hplain := (Subject.isShaped hr).statements_sql hplain
  set r hr c' hfound := (Subject.isShaped hr).set hfound

variable {sql default : String} {c : Catalog} {target : Option String}

/-- What has a statement of its own in a script brings its comments along. The comments on constraints that stand
inside `CREATE TABLE` leave no trace: the script is the same whatever they are. -/
theorem comments_of_dump (h : (Catalog.ofSql sql default).result = .ok c)
    (htarget : Text.given target = none ∨ Text.given target = some default) :
    (∃ ps, (Diff.pieces {} c target).result = .ok ps ∧ ∀ s x, Diff.Covers {} c target s x → x ∈ ps →
      BringsComments default c (Text.given target) s x) ∧
    ∀ c' withHeadings, c.Recommented c' → (c'.dump target withHeadings).result = (c.dump target withHeadings).result := by
  refine ⟨?_, fun c' withHeadings hc' => (Catalog.diff_eq_of_recommented hc' {} target withHeadings).symm⟩
  obtain ⟨text, htext⟩ := (Effect.writable_ofSql h).ends_dump target false
  obtain ⟨ps, hpieces, -⟩ := Logged.result_bind_eq_ok.mp htext
  refine ⟨ps, hpieces, fun s x hcovers hx => ?_⟩
  rcases hsql : Sql.statements sql with flaw | all
  · rw [Catalog.ofSql_of_error hsql] at h
    contradiction
  · rw [Catalog.ofSql_of_ok hsql] at h
    have hwritten := ((Diff.mem_pieces_iff hpieces hcovers.text_eq.2).mp hx).1
    exact hcovers.bringsComments hwritten h htarget

/-- A comment on a table, and one on its primary key. -/
def annotated : String :=
  "create table t (a int primary key); comment on table t is 'all of them'; " ++
    "comment on constraint t_pkey on t is 'x'"

/-- The script that is written for `annotated`. -/
def annotatedDump : String :=
  "CREATE TABLE t (\n    a integer PRIMARY KEY\n);\n\nCOMMENT ON TABLE t IS 'all of them';\n"

/-- What an annotated script keeps of its comments: the table has the one it had, and the key has none. -/
theorem annotated_comments : ∃ c again,
    (Catalog.ofSql annotated "public").result = .ok c ∧
    Effect.commentAt? "public" c .table ["t"] = some ("all of them" : Field String) ∧
    Effect.commentAt? "public" c .constraint ["t", "t_pkey"] = some ("x" : Field String) ∧
    (c.dump (some "public") false).result = .ok annotatedDump ∧
    (Catalog.ofSql annotatedDump "public").result = .ok again ∧
    Effect.commentAt? "public" again .table ["t"] = some ("all of them" : Field String) ∧
    Effect.commentAt? "public" again .constraint ["t", "t_pkey"] = some .absent ∧
    (∃ ps, (Diff.pieces {} c (some "public")).result = .ok ps ∧
      ∀ s x, Diff.Covers {} c (some "public") s x → x ∈ ps → BringsComments "public" c (some "public") s x) ∧
    ∀ c' withHeadings, c.Recommented c' →
      (c'.dump (some "public") withHeadings).result = (c.dump (some "public") withHeadings).result := by
  have hrun (sql : String) (table key : Field String) (text : String)
      (h : ((Catalog.ofSql sql "public").result.toOption.bind fun c =>
        if Effect.commentAt? "public" c .table ["t"] = some table ∧
            Effect.commentAt? "public" c .constraint ["t", "t_pkey"] = some key then
          (c.dump (some "public") false).result.toOption
        else none) = some text) :
      ∃ c, (Catalog.ofSql sql "public").result = .ok c ∧
        Effect.commentAt? "public" c .table ["t"] = some table ∧
        Effect.commentAt? "public" c .constraint ["t", "t_pkey"] = some key ∧
        (c.dump (some "public") false).result = .ok text := by
    obtain ⟨c, hc, hdump⟩ := Option.bind_eq_some_iff.mp h
    obtain ⟨⟨htable, hkey⟩, hdump⟩ := Option.ite_none_right_eq_some.mp hdump
    exact ⟨c, eq_ok_of_toOption hc, htable, hkey, eq_ok_of_toOption hdump⟩
  obtain ⟨c, hc, htable, hkey, hdump⟩ := hrun annotated "all of them" "x" annotatedDump (by decide +kernel)
  obtain ⟨again, hagain, htable', hkey', -⟩ :=
    hrun annotatedDump "all of them" .absent annotatedDump (by decide +kernel)
  obtain ⟨hbrings, hlost⟩ := @comments_of_dump _ _ _ (some "public") hc (.inr rfl)
  exact ⟨c, again, hc, htable, hkey, hdump, hagain, htable', hkey', hbrings, hlost⟩

/-- A comment on a constraint inside `CREATE TABLE` changes no script. -/
theorem dump_of_comment_inline {t : Table} {k : Constraint} {text : Option String} {path : List String} {c' : Catalog}
    (ht : c.findTable? (Effect.splitPath default path.dropLast).1 (Effect.splitPath default path.dropLast).2 = some t)
    (hk : t.constraints.get? (path.getLastD "") = some k) (hinline : t.isInline (path.getLastD "") k)
    (h : (Effect.comment default c .constraint path text).result = .ok c') (withHeadings : Bool) :
    (c'.dump target withHeadings).result = (c.dump target withHeadings).result := by
  refine (Catalog.diff_eq_of_recommented ?_ {} target withHeadings).symm
  have hset : Effect.commentPart? t .constraint (path.getLastD "") text =
      some { t with constraints := t.constraints.put (path.getLastD "") { k with comment := text } } := by
    rw [Effect.commentPart?, Effect.changeNamed?_of_get? hk, Option.map_some]
  simp only [Effect.comment, Effect.commentOn?, Effect.commentOnPart?, ht, hset, Option.map_some] at h
  obtain ⟨rfl⟩ := h
  exact Catalog.recommented_modifyTable ht hk hinline text

end SchemaScript
