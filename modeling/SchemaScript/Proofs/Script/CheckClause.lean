import SchemaScript.Proofs.Ddl.Keys
import SchemaScript.Proofs.Ddl.Parentheses
import SchemaScript.Proofs.Effect.KeyPlaces
import SchemaScript.Proofs.Effect.Naming
import SchemaScript.Proofs.Text.Basic

/-!
# Clauses of check constraints

A condition is written behind the word `CHECK` and between parentheses, but one that begins with the letters of the
word is written as it stands (`writesCheck`). A script's conditions never bring the word along, yet a column may be
called `checksum`. Every check of a script is written so from a condition of its statements (`checks_written`).
-/

namespace SchemaScript

namespace Ddl

/-! ## The word and what stands behind it -/

/-- The first letters are those of `CHECK`, small or capital. -/
def beginsCheck (s : List Char) : Bool :=
  (s.take 5).map Char.toUpper == "CHECK".toList

/-- A parenthesis opens, maybe with blanks in front of it. -/
def opens (s : List Char) : Bool :=
  (s.dropWhile Sql.isSpace).head? == some '('

/-- The word `CHECK`, and what begins with a parenthesis. -/
def isCheckClause (s : List Char) : Bool :=
  beginsCheck s && opens (s.drop 5)

/-- What a condition is written as. -/
structure WritesCheck (condition : String) : Prop where
  kept : beginsCheck (Text.strip condition).toList → checkText condition = Text.strip condition
  put : ¬ beginsCheck (Text.strip condition).toList → checkText condition = "CHECK " ++ wrapped condition
  shows : Shows (Text.strip condition) (checkText condition)
  isCheckClause_iff : isCheckClause (checkText condition).toList ↔
    (beginsCheck (Text.strip condition).toList → opens ((Text.strip condition).toList.drop 5))

theorem startsWith_check_iff (s : String) : Text.startsWith (Text.upper s) "CHECK" ↔ beginsCheck s.toList := by
  rw [Text.startsWith_upper_iff, beginsCheck, beq_iff_eq]

theorem head?_wrapped (e : String) : (wrapped e).toList.head? = some '(' := by
  obtain ⟨hsame, hpair⟩ := wrapped_eq e
  by_cases hlooks : LooksEnclosed (Text.strip e).toList
  · rw [hsame hlooks, hlooks.opens]
  · rw [hpair hlooks]
    simp

theorem shows_wrapped (e : String) : Shows (Text.strip e) (wrapped e) := by
  obtain ⟨hsame, hpair⟩ := wrapped_eq e
  by_cases hlooks : LooksEnclosed (Text.strip e).toList
  · rw [hsame hlooks]
    exact shows_self _
  · rw [hpair hlooks]
    exact ((shows_self _).append_left "(").append_right ")"

theorem writesCheck (condition : String) : WritesCheck condition := by
  have hkept (h : beginsCheck (Text.strip condition).toList) : checkText condition = Text.strip condition := by
    unfold checkText
    dsimp only
    rw [if_pos ((startsWith_check_iff _).mpr h)]
  have hput (h : ¬ beginsCheck (Text.strip condition).toList) :
      checkText condition = "CHECK " ++ wrapped condition :=
    (shownWrapped condition none).check fun hstarts => h ((startsWith_check_iff _).mp hstarts)
  by_cases hbegins : beginsCheck (Text.strip condition).toList
  · refine ⟨hkept, hput, ?_, ?_⟩
    · rw [hkept hbegins]
      exact shows_self _
    · rw [hkept hbegins, isCheckClause, hbegins, Bool.true_and]
      exact ⟨fun h _ => h, fun h => h rfl⟩
  · refine ⟨hkept, hput, ?_, iff_of_true ?_ fun h => absurd h hbegins⟩
    · rw [hput hbegins]
      exact (shows_wrapped condition).append_left "CHECK "
    · obtain ⟨r, hr⟩ := List.head?_eq_some_iff.mp (head?_wrapped condition)
      have hword : "CHECK ".toList = ['C', 'H', 'E', 'C', 'K', ' '] := rfl
      rw [hput hbegins, String.toList_append, hr, hword]
      rfl

end Ddl

/-! ## The constraint in a script -/

/-- The constraint is written as the clause of its condition, by itself and within its table. -/
structure Constraint.WrittenAs (k : Constraint) (t : Table) (condition : String) (target : Option String) : Prop where
  clause : k.clause target = Ddl.checkText condition
  line : (k.name.given.elim "" fun name => "CONSTRAINT " ++ Sql.quoteName name ++ " ") ++ Ddl.checkText condition ∈
    t.lines target
  table : t.isComplete → Ddl.Shows (Ddl.checkText condition) (t.ddl target)

/-- A check without columns is written so, whatever its condition is. -/
theorem Constraint.writtenAs {k : Constraint} {t : Table} {key condition : String}
    (hk : t.constraints.get? key = some k) (hkind : k.kind = .check) (hcolumns : k.columns = [])
    (hreferenced : k.referencedColumns = []) (hcondition : k.condition = (condition : Field String))
    (hgiven : condition ≠ "") (target : Option String) : k.WrittenAs t condition target := by
  have hstored : k.condition.given = some condition := by
    rw [hcondition, Field.given_text, if_neg hgiven]
  have hline : Table.checkLine? k = some
      ((k.name.given.elim "" fun name => "CONSTRAINT " ++ Sql.quoteName name ++ " ") ++ Ddl.checkText condition) := by
    rw [Table.checkLine?, hkind, hstored]
    cases k.name.given <;> simp
  have hmem : (k.name.given.elim "" fun name => "CONSTRAINT " ++ Sql.quoteName name ++ " ") ++
      Ddl.checkText condition ∈ t.lines target := by
    obtain ⟨before, after, hsplit, -⟩ := Entries.exists_sorted_split hk
    refine List.mem_append_right _ (List.mem_filterMap.mpr ⟨k, ?_, hline⟩)
    rw [Entries.sortedValues, hsplit]
    simp
  refine ⟨?_, hmem, fun hcomplete => ?_⟩
  · have hnone : columnList? k.sortedColumns = some "()" ∧ columnList? k.sortedReferencedColumns = some "()" := by
      rw [sortedColumns, sortedReferencedColumns, hcolumns, hreferenced]
      exact ⟨rfl, rfl⟩
    rw [clause, hnone.1, hnone.2]
    dsimp only
    rw [hkind, hstored]
  · have hindented := List.mem_map_of_mem (f := ("    " ++ ·)) hmem
    have hbody : Ddl.Shows (Ddl.checkText condition) (Table.body (t.lines target)) := by
      rw [Table.body, List.isEmpty_eq_false_iff.mpr (List.ne_nil_of_mem hmem), if_neg Bool.false_ne_true]
      exact (((((Ddl.shows_self _).append_left _).append_left "    ").intercalate hindented ",\n").append_left
        " (\n").append_right "\n)"
    rw [Table.ddl, hcomplete]
    exact (((hbody.append_left _).append_right _).append_right ";").intercalate List.mem_cons_self "\n\n"

namespace Effect

open Sql

/-- The constraints that a statement declares. -/
def declaredBy : Statement → List ConstraintClause
  | .createTable definition => definition.elements.flatMap clausesOf
  | .alterTable _ commands => commands.filterMap fun command => match command with
    | .addConstraint clause => some clause
    | _ => none
  | _ => []

/-- A statement of the script checks the condition. -/
def Checks (all : List Statement) (condition : String) : Prop :=
  ∃ s ∈ all, ∃ clause ∈ declaredBy s, clause.rule = .check condition

/-- A check holds one of the conditions and no columns. -/
def HoldsCondition (said : String → Prop) (k : Constraint) : Prop :=
  k.kind = .check → k.columns = [] ∧ k.referencedColumns = [] ∧
    ∃ condition, said condition ∧ k.condition = (condition : Field String)

variable {default schema name : String} {all : List Statement} {said : String → Prop} {t t' : Table}

/-- Every check of the table holds a condition that was said. -/
def ConditionsSaid (said : String → Prop) (t : Table) : Prop :=
  t.constraints.Each fun _ => HoldsCondition said

theorem holdsCondition_constraintOf {clause : ConstraintClause} {k : Constraint}
    (hsaid : ∀ condition, clause.rule = .check condition → said condition)
    (h : constraintOf default t clause = some k) : HoldsCondition said k := by
  unfold constraintOf at h
  dsimp only at h
  intro hkind
  split at h
  · obtain rfl := Option.some.inj h
    contradiction
  · obtain rfl := Option.some.inj h
    contradiction
  · next condition hrule =>
    obtain rfl := Option.some.inj h
    exact ⟨rfl, rfl, condition, hsaid condition hrule, rfl⟩
  · obtain rfl := Option.some.inj h
    contradiction
  · obtain rfl := Option.some.inj h
    contradiction
  · contradiction

theorem ConditionsSaid.addConstraint {clause : ConstraintClause} (h : ConditionsSaid said t)
    (hsaid : ∀ condition, clause.rule = .check condition → said condition)
    (hadd : (addConstraint default t clause).result = .ok t') : ConditionsSaid said t' := by
  unfold Effect.addConstraint at hadd
  split at hadd
  · obtain rfl := Except.ok.inj hadd
    exact h
  · next k hk =>
    obtain rfl := Except.ok.inj hadd
    have hput : ConditionsSaid said (putConstraint t k) := h.put (holdsCondition_constraintOf hsaid hk)
    split
    · rw [withoutNulls_eq]
      exact hput
    · exact hput

theorem ConditionsSaid.applyRule {rule : ColumnRule} (h : ConditionsSaid said t)
    (hsaid : ∀ clause condition, rule = .constraint clause → clause.rule = .check condition → said condition)
    (happly : (applyRule default t rule).result = .ok t') : ConditionsSaid said t' := by
  cases rule with
  | notNull | null | default value =>
    obtain rfl := Except.ok.inj happly
    exact h
  | identity always options =>
    obtain ⟨identity, -, happly⟩ := Logged.result_bind_eq_ok.mp happly
    obtain rfl := Except.ok.inj happly
    exact h
  | constraint clause => exact h.addConstraint (fun condition => hsaid clause condition rfl) happly

theorem ConditionsSaid.addElement {d d' : Draft} {element : TableElement} (h : ConditionsSaid said d.table)
    (hsaid : ∀ clause ∈ clausesOf element, ∀ condition, clause.rule = .check condition → said condition)
    (hadd : (addElement default d element).result = .ok d') : ConditionsSaid said d'.table := by
  cases element with
  | column definition =>
    obtain ⟨next, hnext, hadd⟩ := Logged.result_bind_eq_ok.mp hadd
    obtain ⟨t, ht, hadd⟩ := Logged.result_bind_eq_ok.mp hadd
    obtain rfl := Except.ok.inj hadd
    have hsame : next.table.constraints = d.table.constraints := by
      change addColumn default d definition = .ok next at hnext
      unfold addColumn at hnext
      dsimp only at hnext
      split at hnext
      · obtain rfl := Except.ok.inj hnext
        rfl
      · obtain ⟨column, -, hnext⟩ := exists_of_bind_eq_ok hnext
        obtain rfl := Except.ok.inj hnext
        rfl
    have hfirst : ConditionsSaid said next.table := by
      rw [ConditionsSaid, hsame]
      exact h
    refine Logged.keeps_foldlM (Q := ConditionsSaid said) (fun rule hrule _ _ hsofar hstep =>
      hsofar.applyRule (fun clause condition heq => hsaid clause ?_ condition) hstep) hfirst ht
    exact List.mem_filterMap.mpr ⟨rule, hrule, by rw [heq]⟩
  | constraint clause =>
    obtain ⟨t, ht, hadd⟩ := Logged.result_bind_eq_ok.mp hadd
    obtain rfl := Except.ok.inj hadd
    exact h.addConstraint (hsaid clause (List.mem_singleton_self clause)) ht
  | other label =>
    obtain rfl := Except.ok.inj hadd
    exact h

theorem conditionsSaid_draftOf {definition : TableDefinition} {d : Draft}
    (hsaid : .createTable definition ∈ all) (h : (draftOf default definition).result = .ok d) :
    ConditionsSaid (Checks all) d.table := by
  obtain ⟨drafted, hdrafted, h⟩ := Logged.result_bind_eq_ok.mp h
  have hall : ConditionsSaid (Checks all) drafted.table := by
    refine Logged.keeps_foldlM (Q := fun d : Draft => ConditionsSaid (Checks all) d.table)
      (fun element helement _ _ hsofar hstep => hsofar.addElement (fun clause hclause condition hrule => ?_) hstep)
      ?_ hdrafted
    · exact ⟨_, hsaid, clause, List.mem_flatMap.mpr ⟨element, helement, hclause⟩, hrule⟩
    · exact Entries.each_empty
  split at h <;> (obtain rfl := Except.ok.inj h; exact hall)

theorem ConditionsSaid.applyCommands {relation : RelationName} {commands : List AlterCommand} {change : Change}
    (h : ConditionsSaid (Checks all) t) (hsaid : .alterTable relation commands ∈ all)
    (hchange : (commands.foldlM (applyCommand default) { table := t }).result = .ok change) :
    ConditionsSaid (Checks all) change.table := by
  refine Logged.keeps_foldlM (Q := fun c : Change => ConditionsSaid (Checks all) c.table)
    (fun command hcommand c c' hsofar hstep => ?_) h hchange
  cases command with
  | addConstraint clause =>
    obtain ⟨next, hnext, hstep⟩ := Logged.result_bind_eq_ok.mp hstep
    obtain rfl := Except.ok.inj hstep
    refine hsofar.addConstraint (fun condition hrule => ⟨_, hsaid, clause, ?_, hrule⟩) hnext
    exact List.mem_filterMap.mpr ⟨_, hcommand, rfl⟩
  | rowSecurity enabled | attachPartition child bound | other label =>
    obtain rfl := Except.ok.inj hstep
    exact hsofar

theorem ConditionsSaid.alters {s : Statement} (h : ConditionsSaid (Checks all) t) (hsaid : s ∈ all)
    (halters : Alters default s (.table t) (.table t')) : ConditionsSaid (Checks all) t' := by
  cases halters with
  | altered hchange => exact h.applyCommands hsaid hchange
  | @partComment kind _ _ _ part text hpart =>
    cases kind with
    | column =>
      obtain ⟨c, -, rfl⟩ := Option.map_eq_some_iff.mp hpart
      exact h
    | constraint =>
      obtain ⟨constraints, hconstraints, rfl⟩ := Option.map_eq_some_iff.mp hpart
      exact each_changeNamed? h hconstraints fun _ hk => hk
    | trigger =>
      obtain ⟨triggers, -, rfl⟩ := Option.map_eq_some_iff.mp hpart
      exact h
    | extension | table | view | materializedView | sequence | type | domain | function | procedure
    | aggregate | index => contradiction
  | _ => exact h

/-- The checks of every table of a script hold conditions of its statements. -/
theorem conditionsSaid_of_comes {attached : List PartitionAttachment} {tag : Tag} {x : Content}
    (h : Comes default all attached tag x) :
    ∀ schema name t, tag = .object schema .table name → x = .table t → ConditionsSaid (Checks all) t := by
  induction h with
  | created said creates =>
    rintro schema name t rfl rfl
    obtain ⟨definition, d, rfl, hd, rfl, rfl, ht⟩ := exists_draft_of_creates creates
    obtain rfl := Content.table.inj ht
    exact conditionsSaid_draftOf said hd
  | @altered _ tag x x' said before alters ih =>
    rintro schema name t rfl rfl
    cases x with
    | table u => exact (ih schema name u rfl rfl).alters said alters
    | _ => nomatch alters
  | @filled schema name parentSchema parentTable t parent child bare place above ihChild ihAbove =>
    rintro _ _ _ ⟨⟩ ⟨⟩
    exact ihChild schema name t rfl rfl

end Effect

namespace Catalog

/-- The checks of the table are written as the conditions that the script's statements give. -/
def ChecksWritten (all : List Sql.Statement) (t : Table) : Prop :=
  ∀ key k, t.constraints.get? key = some k → k.kind = .check →
    ∃ condition, Effect.Checks all condition ∧ k.condition = (condition : Field String) ∧
      (condition ≠ "" → ∀ target, k.WrittenAs t condition target)

/-- A condition is written as a check clause unless it begins with the letters of the word and no parenthesis
follows. For every check of a script one of its conditions is written so, by itself and within the table. -/
theorem checks_written (condition sql default : String) : Ddl.WritesCheck condition ∧
    ∀ c, (Catalog.ofSql sql default).result = .ok c → ∃ all, Sql.statements sql = .ok all ∧
      ∀ schema name t, c.findTable? schema name = some t → ChecksWritten all t := by
  refine ⟨Ddl.writesCheck condition, fun c h => ?_⟩
  rcases hsql : Sql.statements sql with flaw | all
  · rw [Catalog.ofSql_of_error hsql] at h
    contradiction
  · rw [Catalog.ofSql_of_ok hsql] at h
    refine ⟨all, rfl, fun schema name t ht key k hk hkind => ?_⟩
    have hplace : c.at? (.object schema .table name) = some (.table t) := by
      rw [Catalog.at?_table, ht, Option.map_some]
    have hcomes := Effect.comes_of_at? h (fun _ => by simp) hplace
    obtain ⟨hcolumns, hreferenced, said, hsaid, hholds⟩ :=
      Effect.conditionsSaid_of_comes hcomes schema name t rfl rfl key k hk hkind
    exact ⟨said, hsaid, hholds, fun hgiven target =>
      Constraint.writtenAs hk hkind hcolumns hreferenced hholds hgiven target⟩

/-- A table with a check on a column whose name begins with the letters. -/
def checksums : String :=
  "create table t (checksum int, check (checksum > 0))"

/-- The check is written without the word, and what is written is not read again. -/
theorem checksums_written : ∃ c all t, (Catalog.ofSql checksums "public").result = .ok c ∧
    Sql.statements checksums = .ok all ∧ c.findTable? "public" "t" = some t ∧ ChecksWritten all t ∧
    Ddl.checkText "checksum > 0" = "checksum > 0" ∧ ¬ Ddl.isCheckClause (Ddl.checkText "checksum > 0").toList ∧
    (c.dump (some "public") false).result =
      .ok "CREATE TABLE t (\n    checksum integer,\n    CONSTRAINT t_check checksum > 0\n);\n" ∧
    (Catalog.ofSql "CREATE TABLE t (\n    checksum integer,\n    CONSTRAINT t_check checksum > 0\n);\n"
      "public").result.toOption = none := by
  have hkept : ((Catalog.ofSql checksums "public").result.toOption.bind
      fun c => c.findTable? "public" "t").isSome := by decide +kernel
  have hdump : ((Catalog.ofSql checksums "public").result.toOption.bind
      fun c => (c.dump (some "public") false).result.toOption) =
      some "CREATE TABLE t (\n    checksum integer,\n    CONSTRAINT t_check checksum > 0\n);\n" := by decide +kernel
  obtain ⟨t, ht⟩ := Option.isSome_iff_exists.mp hkept
  obtain ⟨c, hc, ht⟩ := Option.bind_eq_some_iff.mp ht
  rw [hc, Option.bind_some] at hdump
  obtain ⟨hwrites, hscript⟩ := checks_written "checksum > 0" checksums "public"
  obtain ⟨all, hall, hchecks⟩ := hscript c (eq_ok_of_toOption hc)
  have hbegins : Ddl.beginsCheck (Text.strip "checksum > 0").toList := by decide +kernel
  have hsame : Ddl.checkText "checksum > 0" = "checksum > 0" :=
    (hwrites.kept hbegins).trans (by decide +kernel)
  refine ⟨c, all, t, eq_ok_of_toOption hc, hall, ht, hchecks _ _ t ht, hsame, fun h => ?_,
    eq_ok_of_toOption hdump, by decide +kernel⟩
  exact absurd (hwrites.isCheckClause_iff.mp h hbegins) (by decide +kernel)

end Catalog
end SchemaScript
