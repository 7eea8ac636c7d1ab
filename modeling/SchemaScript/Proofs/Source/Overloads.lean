import SchemaScript.Proofs.Effect.Naming
import SchemaScript.Proofs.Inspect.Overloads

/-!
# Overloads in scripts

Of all routines of a kind that a script creates under one name a catalog has the last one, with the comment that the
name gets, and no warning tells of the others (`overloads_of_sources`). A database reports its routines to a catalog
that keeps the first one and warns of each of the others.
-/

namespace SchemaScript

namespace Effect

open Sql

variable {default : String} {all : List Statement} {s : Statement} {c c' : Catalog} {r : RoutineName}

/-! ## What a script tells -/

/-- Only what is of use in finding mistakes is told. -/
def Quiet {α : Type} (x : Logged α) : Prop :=
  ∀ entry ∈ x.log, entry.level = .debug

theorem quiet_of_nil {α : Type} {x : Logged α} (h : x.log = []) : Quiet x := by
  intro entry hentry
  rw [h] at hentry
  contradiction

theorem quiet_debug (text : String) : Quiet (Logged.debug text) := by
  intro entry hentry
  rw [List.mem_singleton.mp hentry]

theorem Quiet.bind {α β : Type} {x : Logged α} {f : α → Logged β} (hx : Quiet x) (hf : ∀ a, Quiet (f a)) :
    Quiet (x >>= f) := by
  rcases hresult : x.result with fault | a
  · rw [Logged.bind_of_error hresult]
    exact hx
  · rw [Logged.bind_of_ok hresult]
    intro entry hentry
    exact (List.mem_append.mp hentry).elim (hx entry) (hf a entry)

theorem quiet_foldlM {α β : Type} {f : β → α → Logged β} (hf : ∀ b a, Quiet (f b a)) (b : β) (items : List α) :
    Quiet (items.foldlM f b) := by
  induction items generalizing b with
  | nil => exact quiet_of_nil rfl
  | cons a items ih =>
    rw [List.foldlM_cons]
    exact (hf b a).bind ih

theorem quiet_addConstraint (default : String) (table : Table) (clause : ConstraintClause) :
    Quiet (addConstraint default table clause) := by
  unfold addConstraint
  split
  · exact (quiet_debug _).bind fun _ => quiet_of_nil rfl
  · exact quiet_of_nil rfl

theorem quiet_applyRule (default : String) (table : Table) (rule : ColumnRule) :
    Quiet (applyRule default table rule) := by
  cases rule with
  | notNull | null | default value => exact quiet_of_nil rfl
  | identity always options => exact (quiet_of_nil rfl).bind fun _ => quiet_of_nil rfl
  | constraint clause => exact quiet_addConstraint default table clause

theorem quiet_draftOf (default : String) (definition : TableDefinition) : Quiet (draftOf default definition) := by
  refine (quiet_foldlM (fun draft element => ?_) _ _).bind fun draft => ?_
  · cases element with
    | column definition =>
      exact (quiet_of_nil rfl).bind fun draft =>
        (quiet_foldlM (quiet_applyRule default) _ _).bind fun _ => quiet_of_nil rfl
    | constraint clause => exact (quiet_addConstraint default _ clause).bind fun _ => quiet_of_nil rfl
    | other label => exact (quiet_debug _).bind fun _ => quiet_of_nil rfl
  · split <;> exact quiet_of_nil rfl

theorem quiet_createTable (default : String) (c : Catalog) (definition : TableDefinition) :
    Quiet (createTable default c definition) := by
  refine (quiet_draftOf default definition).bind fun draft => ?_
  dsimp only
  split
  · exact (quiet_debug _).bind fun _ => quiet_of_nil rfl
  · exact quiet_of_nil rfl

theorem quiet_createRoutine (default : String) (c : Catalog) (definition : RoutineDefinition) :
    Quiet (createRoutine default c definition) := by
  unfold createRoutine
  dsimp only
  split
  · refine (quiet_debug _).bind fun _ => ?_
    split <;> exact quiet_of_nil rfl
  · split <;> exact quiet_of_nil rfl

theorem quiet_withTable (default : String) (c : Catalog) (relation : RelationName) {f : Table → Logged Table}
    (hf : ∀ table, Quiet (f table)) : Quiet (withTable default c relation f) := by
  unfold withTable
  dsimp only
  split
  · exact (quiet_debug _).bind fun _ => quiet_of_nil rfl
  · exact (hf _).bind fun _ => quiet_of_nil rfl

theorem quiet_alterTable (default : String) (c : Catalog) (relation : RelationName) (commands : List AlterCommand) :
    Quiet (alterTable default c relation commands) := by
  unfold alterTable
  dsimp only
  split
  · exact quiet_withTable default c relation fun _ => quiet_of_nil rfl
  · refine (quiet_foldlM (fun change command => ?_) _ _).bind fun _ => quiet_of_nil rfl
    cases command with
    | addConstraint clause => exact (quiet_addConstraint default _ clause).bind fun _ => quiet_of_nil rfl
    | rowSecurity enabled | attachPartition child bound => exact quiet_of_nil rfl
    | other label => exact (quiet_debug _).bind fun _ => quiet_of_nil rfl

theorem quiet_alterIndex (default : String) (c : Catalog) (relation : RelationName) (commands : List AlterCommand) :
    Quiet (alterIndex default c relation commands) := by
  refine (quiet_foldlM (fun found command => ?_) _ _).bind fun _ => quiet_of_nil rfl
  cases command with
  | attachPartition child bound => exact quiet_of_nil rfl
  | _ => exact (quiet_debug _).bind fun _ => quiet_of_nil rfl

theorem quiet_comment (default : String) (c : Catalog) (kind : CommentKind) (path : List String)
    (text : Option String) : Quiet (comment default c kind path text) := by
  unfold comment
  split
  · exact quiet_of_nil rfl
  · split
    · exact quiet_of_nil rfl
    · exact (quiet_debug _).bind fun _ => quiet_of_nil rfl

theorem quiet_applyTo (default : String) (c : Catalog) (s : Statement) : Quiet (applyTo default c s) := by
  cases s with
  | createTable definition => exact quiet_createTable default c definition
  | createRoutine definition => exact quiet_createRoutine default c definition
  | createIndex definition => exact quiet_withTable default c definition.table fun _ => quiet_of_nil rfl
  | createTrigger definition => exact quiet_withTable default c definition.table fun _ => quiet_of_nil rfl
  | createPolicy definition => exact quiet_withTable default c definition.table fun _ => quiet_of_nil rfl
  | alterTable relation commands => exact quiet_alterTable default c relation commands
  | alterIndex relation commands => exact quiet_alterIndex default c relation commands
  | comment kind path text => exact quiet_comment default c kind path text
  | createTableAs | define label | otherComment label | other label =>
    exact (quiet_debug _).bind fun _ => quiet_of_nil rfl
  | _ => exact quiet_of_nil rfl

theorem quiet_catalogOf (default : String) (all : List Statement) : Quiet (catalogOf default all) := by
  refine (quiet_foldlM (fun progress s => ?_) _ _).bind fun progress => ?_
  · cases s with
    | createSchema name owner => exact quiet_of_nil rfl
    | _ => exact (quiet_applyTo default progress.catalog _).bind fun _ => quiet_of_nil rfl
  · dsimp only
    split
    · exact quiet_of_nil rfl
    · exact (quiet_debug _).bind fun _ => quiet_of_nil rfl

/-! ## What a script leaves -/

/-- The routine that a statement by itself puts under the name. -/
def created? (default : String) (s : Statement) (r : RoutineName) : Option Content :=
  (effect default start s).toOption.bind (·.at? r.tag)

/-- The routines that a script creates under the name, in its order. -/
def described (default : String) (all : List Statement) (r : RoutineName) : List Content :=
  all.filterMap (created? default · r)

theorem created?_of_isDependent (hs : s.isDependent) (r : RoutineName) : created? default s r = none := by
  unfold created?
  cases heffect : effect default start s with
  | error fault => rfl
  | ok c =>
    have hrel := steps_of_isDependent hs heffect r.tag (by simp [RoutineName.tag])
    rw [show start.at? r.tag = none from rfl] at hrel
    cases hafter : c.at? r.tag with
    | none => exact hafter
    | some x =>
      rw [hafter] at hrel
      contradiction

theorem at?_effect_of_not_isDependent (hs : s.isDependent = false) (hc : c.Writable)
    (h : effect default c s = .ok c') (r : RoutineName) :
    c'.at? r.tag = (created? default s r).or (c.at? r.tag) := by
  have htag : ∀ key, r.tag ≠ .schema key := by simp [RoutineName.tag]
  obtain ⟨first, hfirst, hafter⟩ := exists_effect_start hs hc h htag
  rw [hafter, created?, hfirst]
  rfl

theorem bare_of_alters {x y : Content} (h : Alters default s x y) (hx : x.kind? ≠ some .table) :
    y.commented none = x.commented none := by
  cases h with
  | unchanged => rfl
  | comment => exact Content.commented_commented ..
  | _ => exact absurd rfl hx

theorem kind?_of_at?_tag {x : Content} (h : c.at? r.tag = some x) : x.kind? = some r.kind.objectKind := by
  obtain ⟨kind, schema, name⟩ := r
  rw [RoutineName.tag, ← Catalog.at?_schemaOrNew_object] at h
  cases kind with
  | function | procedure | aggregate =>
    obtain ⟨routine, -, rfl⟩ := Option.map_eq_some_iff.mp h
    rfl

/-- A statement puts what it creates over what is there. -/
theorem bare_effect (hc : c.Writable) (h : effect default c s = .ok c') (r : RoutineName) :
    (c'.at? r.tag).map (·.commented none) =
      ((created? default s r).or (c.at? r.tag)).map (·.commented none) := by
  by_cases hs : s.isDependent
  · rw [created?_of_isDependent hs, Option.none_or]
    have hrel := steps_of_isDependent hs h r.tag (by simp [RoutineName.tag])
    rcases hx : c.at? r.tag with _ | x <;> rcases hy : c'.at? r.tag with _ | y <;> rw [hx, hy] at hrel
    · contradiction
    · contradiction
    · obtain ⟨halters⟩ := hrel
      have hkind : x.kind? ≠ some .table := by
        rw [kind?_of_at?_tag hx]
        cases r.kind <;> decide
      exact congrArg some (bare_of_alters halters hkind)
  · rw [at?_effect_of_not_isDependent (Bool.eq_false_of_not_eq_true hs) hc h]

theorem bare_effects (hc : c.Writable) (h : all.foldlM (effect default) c = .ok c') (r : RoutineName) :
    (c'.at? r.tag).map (·.commented none) =
      ((described default all r).getLast?.or (c.at? r.tag)).map (·.commented none) := by
  induction all generalizing c with
  | nil =>
    obtain rfl := Except.ok.inj h
    rfl
  | cons s all ih =>
    rw [List.foldlM_cons] at h
    obtain ⟨next, hnext, hrest⟩ := exists_of_bind_eq_ok h
    rw [ih (writable_effect hc hnext) hrest, Option.map_or, bare_effect hc hnext, ← Option.map_or, ← Option.or_assoc]
    congr 2
    unfold described
    rw [List.filterMap_cons]
    cases hcreated : created? default s r with
    | none => simp
    | some x =>
      dsimp only
      rw [List.getLast?_cons]
      cases (all.filterMap (created? default · r)).getLast? <;> rfl

theorem described_inOrder (default : String) (all : List Statement) (r : RoutineName) :
    described default (inOrder all) r = described default all r := by
  have hfirst : described default (all.filter (!·.isDependent)) r = described default all r := by
    unfold described
    rw [List.filterMap_filter]
    refine List.filterMap_congr fun s _ => ?_
    cases hs : s.isDependent with
    | false => rfl
    | true => exact (created?_of_isDependent hs r).symm
  have hlater : described default (all.filter (·.isDependent)) r = [] :=
    List.filterMap_eq_nil_iff.mpr fun s hs => created?_of_isDependent (List.mem_filter.mp hs).2 r
  unfold inOrder
  rw [described, List.filterMap_append]
  exact (congrArg₂ (· ++ ·) hfirst hlater).trans (List.append_nil _)

/-- But for its comment the catalog has the routine that was created last. -/
theorem bare_catalogOf (h : (catalogOf default all).result = .ok c) (r : RoutineName) :
    (c.at? r.tag).map (·.commented none) = (described default all r).getLast?.map (·.commented none) := by
  obtain ⟨⟨progress, hrun, rfl⟩, -⟩ := exists_run h
  have hnotTable (schema name : String) : r.tag ≠ .object schema .table name := by
    obtain ⟨kind, holder, key⟩ := r
    cases kind <;> simp [RoutineName.tag, RoutineKind.objectKind]
  unfold inheritAll
  rw [(inherit_same progress.catalog progress.catalog.partitions).2.2.2 r.tag hnotTable,
    bare_effects writable_start (effects_of_run hrun), described_inOrder, show start.at? r.tag = none from rfl,
    Option.or_none]

end Effect

/-! ## Both sources -/

open Inspect Effect

/-- The catalog of a database has the first routine that is reported under a name, and its log warns of each of the
others. The catalog of a script has the last routine that is created under a name, but for its comment, and its log
warns of nothing; so a script is treated like a database only if it creates no routine twice. -/
theorem overloads_of_sources {names : List String} {answers : Query → List Row} {database : Catalog}
    {sql default : String} {script : Catalog}
    (hdatabase : (Inspection.ofDatabase names (Query.all.map answers)).logged.result = .ok database)
    (hscript : (Catalog.ofSql sql default).result = .ok script) :
    KeepsFirst (reported (told answers Query.all)) (database.at? ·.tag)
      (Inspection.ofDatabase names (Query.all.map answers)).logged.log ∧
    ∃ all, Sql.statements sql = .ok all ∧
      (Catalog.ofSql sql default).log.filter (·.isWarning) = [] ∧
      (∀ r, (script.at? r.tag).map (·.commented none) = (described default all r).getLast?.map (·.commented none)) ∧
      (KeepsFirst (fun r => (described default all r).map (·.commented none))
        (fun r => (script.at? r.tag).map (·.commented none)) (Catalog.ofSql sql default).log ↔
          ∀ r, (described default all r).length ≤ 1) := by
  refine ⟨keepsFirst_ofDatabase hdatabase, ?_⟩
  cases hall : Sql.statements sql with
  | error flaw =>
    rw [Catalog.ofSql_of_error hall] at hscript
    contradiction
  | ok all =>
    rw [Catalog.ofSql_of_ok hall] at hscript ⊢
    have hlast := bare_catalogOf hscript
    have hquiet : (catalogOf default all).log.filter (·.isWarning) = [] := by
      refine List.filter_eq_nil_iff.mpr fun entry hentry => ?_
      rw [LogEntry.isWarning, quiet_catalogOf default all entry hentry]
      decide
    refine ⟨all, rfl, hquiet, hlast, fun h r => ?_, fun h => ⟨fun r => ?_, [], hquiet, fun r => ?_⟩⟩
    · obtain ⟨left, htold, hleft⟩ := h.told
      rw [hquiet] at htold
      obtain rfl := List.map_eq_nil_iff.mp htold.symm
      have hnone := hleft r
      rcases hfound : described default all r with _ | ⟨first, others⟩
      · simp
      · rw [hfound] at hnone
        cases others with
        | nil => simp
        | cons second others => contradiction
    · rw [hlast]
      rcases hfound : described default all r with _ | ⟨first, _ | ⟨second, others⟩⟩
      · rfl
      · rfl
      · have hlength := h r
        rw [hfound] at hlength
        simp at hlength
    · rcases hfound : described default all r with _ | ⟨first, _ | ⟨second, others⟩⟩
      · rfl
      · rfl
      · have hlength := h r
        rw [hfound] at hlength
        simp at hlength

/-- Two functions of one name and different arguments. -/
def areas : String :=
  "create function area(radius int) returns int language sql as 'select 3 * radius * radius'; " ++
    "create function area(shape text) returns int language sql as 'select 0';"

/-- The database keeps the first of two procedures and tells of the other one. The script has lost the first of two
functions. -/
theorem areas_lost : ∃ database script all,
    (Inspection.ofDatabase [] (Query.all.map shopAnswers)).logged.result = .ok database ∧
    (Catalog.ofSql areas "public").result = .ok script ∧ Sql.statements areas = .ok all ∧
    (database.at? (.object "tools" .procedure "note")).map (·.identity) = some "note(message text)" ∧
    (script.at? (.object "public" .function "area")).map (·.identity) = some "area(text)" ∧
    KeepsFirst (reported (told shopAnswers Query.all)) (database.at? ·.tag)
      (Inspection.ofDatabase [] (Query.all.map shopAnswers)).logged.log ∧
    ¬ KeepsFirst (fun r => (described "public" all r).map (·.commented none))
      (fun r => (script.at? r.tag).map (·.commented none)) (Catalog.ofSql areas "public").log := by
  have hdatabase : ∃ database ∈ (Inspection.ofDatabase [] (Query.all.map shopAnswers)).logged.result.toOption,
      (database.at? (.object "tools" .procedure "note")).map (·.identity) = some "note(message text)" := by
    decide +kernel
  have hscript : ∃ all ∈ (Sql.statements areas).toOption,
      (described "public" all ⟨.function, "public", "area"⟩).length = 2 ∧
      ∃ script ∈ (Catalog.ofSql areas "public").result.toOption,
        (script.at? (.object "public" .function "area")).map (·.identity) = some "area(text)" := by
    decide +kernel
  obtain ⟨database, hdatabase, hnote⟩ := hdatabase
  obtain ⟨all, hall, htwice, script, hscript, harea⟩ := hscript
  have hdatabase := eq_ok_of_toOption hdatabase
  have hscript := eq_ok_of_toOption hscript
  have hall := eq_ok_of_toOption hall
  obtain ⟨hkeeps, all', hall', -, -, hiff⟩ := overloads_of_sources hdatabase hscript
  obtain rfl := Except.ok.inj (hall.symm.trans hall')
  refine ⟨database, script, all, hdatabase, hscript, hall, hnote, harea, hkeeps, fun h => ?_⟩
  have honce := hiff.mp h ⟨.function, "public", "area"⟩
  omega

end SchemaScript
