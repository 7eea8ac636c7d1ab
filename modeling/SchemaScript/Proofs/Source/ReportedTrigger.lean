import SchemaScript.Ddl.Routine
import SchemaScript.Inspect.Query
import SchemaScript.Proofs.Catalog.Contents
import SchemaScript.Proofs.Effect.Gives
import SchemaScript.Proofs.Inspect.Rows
import SchemaScript.Proofs.Sql.TypeName

/-!
# Triggers that a database reports

A trigger is kept with the name of its function, and with the schema of the function in front of it unless the table
stands in that schema too. When the trigger is written, the target schema is taken off again. So the schema of the
function is missing from the call where it is the target schema, but also where it is that of the table
(`call_of_report`).
-/

namespace SchemaScript

open Sql

/-! ## Statements of triggers -/

/-- The trigger of that name on a table. -/
def Catalog.trigger? (c : Catalog) (schema table name : String) : Option Trigger :=
  (c.findTable? schema table).bind fun t => t.triggers.get? name

namespace Trigger

variable {t : Trigger}

/-- What stands before the call. -/
def leadText (t : Trigger) (target : Option String) : String :=
  "CREATE TRIGGER " ++ Ddl.nameText t.name ++ " " ++ t.timing.sql ++ " " ++ eventText t.events ++ " ON " ++
    Ddl.reference t.schema t.table target ++ " FOR EACH " ++ t.granularity.text ++
    t.condition.given.elim "" fun c => " WHEN " ++ Ddl.wrapped c

/-- What stands behind the statement. -/
def remark (t : Trigger) (target : Option String) : String :=
  Ddl.commentAfter ("TRIGGER " ++ Ddl.nameText t.name ++ " ON " ++ Ddl.reference t.schema t.table target) t.comment

theorem ddl_eq_call (h : t.isComplete) (target : Option String) :
    t.ddl target = t.leadText target ++ " EXECUTE FUNCTION " ++ functionText t.function.text? target ++ ";" ++
      t.remark target := by
  unfold ddl leadText remark
  rw [h, Bool.not_true, if_neg Bool.false_ne_true]
  dsimp only
  cases t.condition.given <;> rfl

end Trigger

/-! ## Names and calls -/

/-- A name in which nothing looks like a schema, a quote or a call. -/
structure IsSimpleName (name : String) : Prop where
  nonempty : name ≠ ""
  noPoint : '.' ∉ name.toList
  noQuote : '"' ∉ name.toList
  noCall : ')' ∉ name.toList

theorem Trigger.functionText_of_noCall {function target : Option String} {name : String}
    (hdrop : dropSchema function target = some name) (h : ')' ∉ name.toList) :
    functionText function target = name ++ "()" := by
  have hend : Text.endsWith name ")" = false := by
    rw [Text.endsWith, ← Bool.not_eq_true, List.isSuffixOf_iff_suffix]
    intro hs
    exact h (hs.subset (List.mem_singleton_self _))
  rw [functionText, hdrop, Text.spelled_some, hend]
  rfl

/-! ## Rows of triggers -/

/-- What a database reports of a trigger. The cells that have no part in the call may hold anything that can be
read. -/
structure TriggerReport where
  schema : String
  table : Json
  name : Json
  code : Json
  bits : Int
  codeRead : code = .integer bits ∨ ∃ b, code = .flag b ∧ bits = if b then 1 else 0
  functionSchema : String
  function : String
  simpleSchema : IsSimpleName functionSchema
  simple : IsSimpleName function
  definition : Json
  written : String
  definitionRead : definition.isNothing ∧ written = "" ∨
    ¬ definition.isNothing ∧ definition.isText ∧ written = definition.plain
  comment : Json

namespace TriggerReport

open Inspect

variable (r : TriggerReport)

def row : Row :=
  [.text r.schema, r.table, r.name, r.code, .text r.functionSchema, .text r.function, r.definition, r.comment]

/-- The trigger that is kept. -/
def trigger : Trigger where
  schema := r.schema
  table := ⟨r.table⟩
  name := ⟨r.name⟩
  timing := timingOf r.bits
  events := eventsOf r.bits
  granularity := if hasBit r.bits 0 then .row else .statement
  function :=
    if Json.text r.functionSchema == Json.text r.schema then r.function else r.functionSchema ++ "." ++ r.function
  condition := (triggerCondition? r.written.toList).map String.ofList
  comment := ⟨r.comment⟩

/-- Where the trigger is kept. -/
def kept (c : Catalog) : Option Trigger :=
  c.trigger? r.schema (Cell.name r.table) (Cell.name r.name)

/-- The row reports a trigger of the same name on the same table. -/
def IsNamedLike (row : Row) : Prop :=
  row[0]?.map Cell.name = some r.schema ∧ row[1]?.map Cell.name = some (Cell.name r.table) ∧
    row[2]?.map Cell.name = some (Cell.name r.name)

/-! ### What is kept -/

theorem result_triggerRow {c : Catalog} {t : Table} (ht : c.findTable? r.schema (Cell.name r.table) = some t) :
    (triggerRow c r.row).result = .ok (c.modifyTable r.schema (Cell.name r.table) fun _ =>
      { t with triggers := t.triggers.put (Cell.name r.name) r.trigger }) := by
  have hname : Cell.name (.text r.schema) = r.schema := rfl
  unfold row triggerRow atTable trigger
  dsimp only
  rw [hname, ht]
  rcases r.codeRead with hcode | ⟨b, hcode, hbits⟩
  · rw [hcode]
    rcases r.definitionRead with ⟨hnothing, hwritten⟩ | ⟨hsomething, htext, hwritten⟩
    · simp only [hnothing, hwritten, if_true]
      rfl
    · simp only [hsomething, htext, hwritten, if_true]
      rfl
  · rw [hcode, hbits]
    rcases r.definitionRead with ⟨hnothing, hwritten⟩ | ⟨hsomething, htext, hwritten⟩
    · simp only [hnothing, hwritten, if_true]
      rfl
    · simp only [hsomething, htext, hwritten, if_true]
      rfl

/-- A row about a trigger adds one under its name to its table, if there is such a table. -/
theorem exists_of_triggerRow {c c' : Catalog} {row : Row} (h : (triggerRow c row).result = .ok c') :
    c' = c ∨ ∃ schema table name rest t g, row = schema :: table :: name :: rest ∧
      c.findTable? (Cell.name schema) (Cell.name table) = some t ∧
      c' = c.modifyTable (Cell.name schema) (Cell.name table) fun _ =>
        { t with triggers := t.triggers.put (Cell.name name) g } := by
  fun_cases triggerRow c row with
  | case1 schema table name code functionSchema function definition comment =>
    unfold triggerRow atTable at h
    dsimp only at h
    split at h
    · exact .inl (Except.ok.inj h).symm
    · next t ht =>
      obtain ⟨changed, hchanged, h⟩ := Logged.result_bind_eq_ok.mp h
      obtain rfl := Except.ok.inj h
      rw [Logged.result_ofResult] at hchanged
      have hput : ∃ g, changed = { t with triggers := t.triggers.put (Cell.name name) g } := by
        clear h
        cases code
        all_goals
          obtain ⟨bits, -, hchanged⟩ := exists_of_bind_eq_ok hchanged
          split at hchanged
          · exact ⟨_, (Except.ok.inj hchanged).symm⟩
          · split at hchanged
            · exact ⟨_, (Except.ok.inj hchanged).symm⟩
            · contradiction
      obtain ⟨g, rfl⟩ := hput
      exact .inr ⟨schema, table, name, _, t, g, rfl, ht, rfl⟩
  | case2 row hwidth =>
    rw [triggerRow.eq_2 c row hwidth] at h
    contradiction

/-- The table stays, and a row about another trigger leaves what is kept of this one. -/
theorem kept_triggerRow {c c' : Catalog} {row : Row} (h : (triggerRow c row).result = .ok c') :
    ((c.findTable? r.schema (Cell.name r.table)).isSome → (c'.findTable? r.schema (Cell.name r.table)).isSome) ∧
      (¬ r.IsNamedLike row → r.kept c' = r.kept c) := by
  obtain rfl | ⟨schema, table, name, rest, t, g, rfl, ht, rfl⟩ := exists_of_triggerRow h
  · exact ⟨id, fun _ => rfl⟩
  · unfold kept Catalog.trigger?
    rw [Catalog.findTable?_modifyTable]
    by_cases hplace : r.schema = Cell.name schema ∧ Cell.name r.table = Cell.name table
    · rw [if_pos hplace, hplace.1, hplace.2, ht]
      refine ⟨fun _ => rfl, fun hother => ?_⟩
      have hname : Cell.name r.name ≠ Cell.name name := by
        intro hname
        exact hother ⟨congrArg some hplace.1.symm, congrArg some hplace.2.symm, congrArg some hname.symm⟩
      simp [Entries.get?_put, hname]
    · rw [if_neg hplace]
      exact ⟨id, fun _ => rfl⟩

theorem kept_absorb {c : Catalog} {rows : List Row} (hother : ∀ row ∈ rows, ¬ r.IsNamedLike row) :
    r.kept (absorb triggerRow c rows).catalog = r.kept c := by
  induction rows generalizing c with
  | nil => rfl
  | cons row rows ih =>
    obtain ⟨hrow, hrows⟩ := List.forall_mem_cons.mp hother
    rw [absorb]
    dsimp only
    split
    · next next hnext => exact (ih hrows).trans ((r.kept_triggerRow hnext).2 hrow)
    · rfl

/-- Of the rows about a trigger that are read, the last one counts; a row that cannot be read only ends the
reading. -/
theorem kept_load {c : Catalog} {before after : List Row}
    (htable : (c.findTable? r.schema (Cell.name r.table)).isSome)
    (hread : (Query.triggers.load c before).fault = none) (hlast : ∀ row ∈ after, ¬ r.IsNamedLike row) :
    r.kept (Query.triggers.load c (before ++ r.row :: after)).catalog = some r.trigger := by
  show r.kept (absorb triggerRow c (before ++ r.row :: after)).catalog = _
  replace hread : (absorb triggerRow c before).fault = none := hread
  induction before generalizing c with
  | nil =>
    obtain ⟨t, ht⟩ := Option.isSome_iff_exists.mp htable
    rw [List.nil_append, absorb, r.result_triggerRow ht]
    dsimp only
    rw [r.kept_absorb hlast]
    unfold kept Catalog.trigger?
    rw [Catalog.findTable?_modifyTable, if_pos ⟨rfl, rfl⟩, ht]
    simp [Entries.get?_put]
  | cons row before ih =>
    rw [absorb] at hread
    rw [List.cons_append, absorb]
    dsimp only at hread ⊢
    split at hread
    · next next hnext => exact ih ((r.kept_triggerRow hnext).1 htable) hread
    · contradiction

/-! ### How it is called -/

def bareCall : String :=
  r.function ++ "()"

def fullCall : String :=
  r.functionSchema ++ "." ++ r.function ++ "()"

theorem fullCall_ne_bareCall : r.fullCall ≠ r.bareCall := by
  intro heq
  have hlength := congrArg String.length heq
  simp only [fullCall, bareCall, String.length_append] at hlength
  exact r.simpleSchema.nonempty (String.length_eq_zero_iff.mp (by omega))

/-- The call in the statement that is written. -/
def call (target : Option String) : String :=
  if r.functionSchema = r.schema ∨ target = some r.functionSchema then r.bareCall else r.fullCall

/-- The call that finds the function: a name without a schema is looked up in the target schema. -/
def neededCall (target : Option String) : String :=
  if target = some r.functionSchema then r.bareCall else r.fullCall

theorem call_eq_neededCall_iff (target : Option String) :
    r.call target = r.neededCall target ↔ (r.functionSchema = r.schema → target = some r.schema) := by
  unfold call neededCall
  by_cases htarget : target = some r.functionSchema
  · rw [if_pos (.inr htarget), if_pos htarget]
    exact iff_of_true rfl fun hschema => hschema ▸ htarget
  · rw [if_neg htarget]
    by_cases hschema : r.functionSchema = r.schema
    · rw [if_pos (.inl hschema)]
      exact iff_of_false r.fullCall_ne_bareCall.symm fun h => htarget (hschema ▸ h hschema)
    · rw [if_neg (not_or.mpr ⟨hschema, htarget⟩)]
      exact iff_of_true rfl fun h => absurd h hschema

theorem functionText_trigger (target : Option String) :
    Trigger.functionText r.trigger.function.text? target = r.call target := by
  have hcallFree : ')' ∉ (r.functionSchema ++ "." ++ r.function).toList := by
    simp [r.simpleSchema.noCall, r.simple.noCall]
  have hquoteFree : '"' ∉ (r.functionSchema ++ "." ++ r.function).toList := by
    simp [r.simpleSchema.noQuote, r.simple.noQuote]
  unfold call
  by_cases hschema : r.functionSchema = r.schema
  · have hfunction : r.trigger.function = (r.function : Field String) := by simp [trigger, hschema]
    rw [hfunction, Field.text?_text, if_pos (.inl hschema)]
    exact Trigger.functionText_of_noCall (dropSchema_of_no_point r.simple.noPoint target) r.simple.noCall
  · have hfunction : r.trigger.function = (r.functionSchema ++ "." ++ r.function : String) := by
      simp [trigger, hschema]
    have hdrop := dropSchema_qualified r.simpleSchema.nonempty r.simpleSchema.noPoint r.simple.noPoint hquoteFree target
    rw [hfunction, Field.text?_text]
    by_cases htarget : target = some r.functionSchema
    · rw [if_pos htarget] at hdrop
      rw [if_pos (.inr htarget)]
      exact Trigger.functionText_of_noCall hdrop r.simple.noCall
    · rw [if_neg htarget] at hdrop
      rw [if_neg (not_or.mpr ⟨hschema, htarget⟩)]
      exact Trigger.functionText_of_noCall hdrop hcallFree

theorem isComplete_trigger : r.trigger.isComplete ↔
    ¬ r.name.isNothing ∧ ¬ r.table.isNothing ∧ eventsOf r.bits ≠ [] := by
  have hfunction : r.trigger.function.isGiven := by
    by_cases hschema : r.functionSchema = r.schema <;>
      simp [trigger, hschema, Field.isGiven, Json.isNothing, r.simple.nonempty]
  have hparts : r.trigger.isComplete =
      (!r.name.isNothing && !r.table.isNothing && r.trigger.function.isGiven && !(eventsOf r.bits).isEmpty) := rfl
  rw [hparts, hfunction]
  simp [and_assoc]

/-- The statement of a reported trigger calls the function without its schema also where that is the schema of the
table and not the target schema. In that case, and in no other one, the call is not the one that finds the
function. -/
theorem call_of_report {c : Catalog} {before after : List Row}
    (htable : (c.findTable? r.schema (Cell.name r.table)).isSome)
    (hread : (Query.triggers.load c before).fault = none) (hlast : ∀ row ∈ after, ¬ r.IsNamedLike row) :
    ∃ t, r.kept (Query.triggers.load c (before ++ r.row :: after)).catalog = some t ∧
      (t.isComplete ↔ ¬ r.name.isNothing ∧ ¬ r.table.isNothing ∧ eventsOf r.bits ≠ []) ∧
      ∀ target, (t.isComplete → t.ddl target =
          t.leadText target ++ " EXECUTE FUNCTION " ++ r.call target ++ ";" ++ t.remark target) ∧
        (r.call target = r.neededCall target ↔ (r.functionSchema = r.schema → target = some r.schema)) := by
  refine ⟨r.trigger, r.kept_load htable hread hlast, r.isComplete_trigger, fun target => ⟨fun hcomplete => ?_, ?_⟩⟩
  · rw [Trigger.ddl_eq_call hcomplete, functionText_trigger]
  · exact r.call_eq_neededCall_iff target

/-- A trigger on the table `app.t` that calls the function `audit` in the same schema. -/
def audit (name : String) : TriggerReport where
  schema := "app"
  table := .text "t"
  name := .text name
  code := .integer 5
  bits := 5
  codeRead := .inl rfl
  functionSchema := "app"
  function := "audit"
  simpleSchema := ⟨by decide, by decide, by decide, by decide⟩
  simple := ⟨by decide, by decide, by decide, by decide⟩
  definition := .null
  written := ""
  definitionRead := .inl ⟨rfl, rfl⟩
  comment := .null

/-- For the target schema `public` the statement does not say that the function is in `app`. -/
theorem audit_called_bare :
    let c : Catalog := ({} : Catalog).updateSchema "app" fun s =>
      { s with tables := s.tables.put "t" { schema := "app", name := "t" } }
    let watch := audit "watch"
    (c.findTable? "app" "t").isSome ∧ (Query.triggers.load c [(audit "first").row]).fault = none ∧
      (∀ row ∈ [(audit "last").row], ¬ watch.IsNamedLike row) ∧
      ∃ t, watch.kept (Query.triggers.load c [(audit "first").row, watch.row, (audit "last").row]).catalog = some t ∧
        t.ddl (some "public") =
          t.leadText (some "public") ++ " EXECUTE FUNCTION " ++ "audit()" ++ ";" ++ t.remark (some "public") ∧
        watch.neededCall (some "public") = "app.audit()" ∧ watch.call (some "public") ≠ "app.audit()" := by
  intro c watch
  have htable : (c.findTable? "app" "t").isSome := by decide
  have hread : (Query.triggers.load c [(audit "first").row]).fault = none := by decide
  have hlast : ∀ row ∈ [(audit "last").row], ¬ watch.IsNamedLike row := by
    intro row hrow
    obtain rfl := List.mem_singleton.mp hrow
    rintro ⟨-, -, hname⟩
    exact absurd hname (by decide)
  obtain ⟨t, hkept, hcomplete, hcall⟩ := watch.call_of_report htable hread hlast
  obtain ⟨hwritten, hfound⟩ := hcall (some "public")
  have hneeded : watch.neededCall (some "public") = "app.audit()" := by decide
  refine ⟨htable, hread, hlast, t, hkept, ?_, hneeded, fun heq => ?_⟩
  · exact hwritten (hcomplete.mpr ⟨by decide, by decide, by decide⟩)
  · exact absurd (hfound.mp (heq.trans hneeded.symm) rfl) (by decide)

end TriggerReport

end SchemaScript
