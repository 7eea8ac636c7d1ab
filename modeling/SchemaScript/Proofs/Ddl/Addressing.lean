import SchemaScript.Ddl.Table
import SchemaScript.Ddl.Index
import SchemaScript.Ddl.Routine
import SchemaScript.Proofs.Catalog.Filing

/-!
# Statements that name the table they belong to

Where all that a table owns names the table, each statement about it has the reference in its place that
`CREATE TABLE` uses (`Table.Orderly.addressed`).
-/

namespace SchemaScript

namespace Ddl

/-- Nothing, or words set apart by a blank. -/
def IsTail (text : String) : Prop := text = "" ∨ ∃ words, text = " " ++ words

theorem isTail_empty : IsTail "" := .inl rfl

theorem isTail_words (lead rest : String) : IsTail (" " ++ lead ++ rest) :=
  .inr ⟨lead ++ rest, String.append_assoc ..⟩

theorem IsTail.append {text more : String} (h : IsTail text) (hmore : IsTail more) :
    IsTail (text ++ more) := by
  rcases h with rfl | ⟨words, rfl⟩
  · rwa [String.empty_append]
  · exact isTail_words words more

/-- A method stands after a blank, and so do the columns where there is none. -/
theorem exists_after_blank (before columns clause : String) {method : String} (h : IsTail method) :
    ∃ rest, before ++ method ++ " (" ++ columns ++ ")" ++ clause = before ++ " " ++ rest := by
  rcases h with rfl | ⟨words, rfl⟩
  · refine ⟨"(" ++ columns ++ ")" ++ clause, ?_⟩
    rw [String.append_empty, show " (" = " " ++ "(" from rfl]
    simp only [String.append_assoc]
  · exact ⟨words ++ " (" ++ columns ++ ")" ++ clause, by simp only [String.append_assoc]⟩

end Ddl

open Ddl

/-- Each statement about the table or about what it owns is left out or names the table by the reference. -/
structure Table.Addressed (t : Table) (target : Option String) (reference : String) : Prop where
  created : t.ddl target = "" ∨ ∃ rest, t.ddl target = "CREATE TABLE " ++ reference ++ " (" ++ rest
  secured : t.rowSecurityDdl target = "" ∨
    t.rowSecurityDdl target = "ALTER TABLE " ++ reference ++ " ENABLE ROW LEVEL SECURITY;"
  constraints : ∀ key c, t.constraints.get? key = some c → c.ddl target = "" ∨
    c.ddl target = "ALTER TABLE " ++ reference ++ " ADD CONSTRAINT " ++ Sql.quoteName key ++ " " ++
      c.clause target ++ ";" ++
      commentAfter ("CONSTRAINT " ++ Sql.quoteName key ++ " ON " ++ reference) c.comment
  indexes : ∀ key i, t.indexes.get? key = some i → i.ddl target = "" ∨
    ∃ rest, i.ddl target = "CREATE " ++ (if i.isUnique.isGiven then "UNIQUE " else "") ++ "INDEX " ++
      (if i.isConcurrent.isGiven then "CONCURRENTLY " else "") ++ Sql.quoteName key ++ " ON " ++
      reference ++ " " ++ rest
  triggers : ∀ key g, t.triggers.get? key = some g → g.ddl target = "" ∨
    ∃ rest, g.ddl target = "CREATE TRIGGER " ++ Sql.quoteName key ++ " " ++ g.timing.sql ++ " " ++
      Trigger.eventText g.events ++ " ON " ++ reference ++ " FOR EACH " ++ rest ++ ";" ++
      commentAfter ("TRIGGER " ++ Sql.quoteName key ++ " ON " ++ reference) g.comment
  policies : ∀ key p, t.policies.get? key = some p → p.ddl target = "" ∨
    ∃ tail, IsTail tail ∧
      p.ddl target = "CREATE POLICY " ++ Sql.quoteName key ++ " ON " ++ reference ++ tail ++ ";"

section

variable {t : Table} {target : Option String} {key : String}

theorem Table.created_ddl (t : Table) (target : Option String) : t.ddl target = "" ∨
    ∃ rest, t.ddl target = "CREATE TABLE " ++ reference t.schema t.name target ++ " (" ++ rest := by
  have hbody (lines : List String) : ∃ rest, Table.body lines = " (" ++ rest := by
    unfold Table.body
    split
    · exact ⟨")", rfl⟩
    · exact ⟨_, by rw [show " (\n" = " (" ++ "\n" from rfl, String.append_assoc, String.append_assoc]⟩
  unfold Table.ddl
  split
  · exact .inl rfl
  · obtain ⟨rest, hrest⟩ := hbody (t.lines target)
    right
    dsimp only
    rw [hrest]
    cases hcomments : t.comments (reference t.schema t.name target) with
    | nil => exact ⟨rest ++ t.partitionClause ++ ";", by simp [String.append_assoc]⟩
    | cons comment comments =>
      refine ⟨rest ++ t.partitionClause ++ ";" ++ ("\n\n" ++ "\n\n".intercalate (comment :: comments)), ?_⟩
      rw [String.intercalate_cons_cons]
      simp only [String.append_assoc]

theorem Constraint.Filed.ddl_eq {c : Constraint} (h : c.Filed t.schema t.name key) :
    c.ddl target = "" ∨
    c.ddl target = "ALTER TABLE " ++ reference t.schema t.name target ++ " ADD CONSTRAINT " ++
      Sql.quoteName key ++ " " ++ c.clause target ++ ";" ++
      commentAfter ("CONSTRAINT " ++ Sql.quoteName key ++ " ON " ++ reference t.schema t.name target)
        c.comment := by
  unfold Constraint.ddl
  dsimp only
  split
  · exact .inl rfl
  · rw [h.name, Field.given_text, h.schema, h.table]
    split
    · next name hname =>
      split at hname
      · contradiction
      · obtain rfl := Option.some.inj hname
        exact .inr rfl
    · exact .inl rfl

theorem Index.Filed.fromColumns?_eq {i : Index} (h : i.Filed t.schema t.name key)
    (target : Option String) :
    i.fromColumns? target = none ∨
    ∃ rest, i.fromColumns? target = some ("CREATE " ++ (if i.isUnique.isGiven then "UNIQUE " else "") ++
      "INDEX " ++ (if i.isConcurrent.isGiven then "CONCURRENTLY " else "") ++ Sql.quoteName key ++ " ON " ++
      reference t.schema t.name target ++ " " ++ rest) := by
  unfold Index.fromColumns?
  split
  · exact .inl rfl
  · right
    rw [h.name, h.schema, h.table]
    refine (exists_after_blank _ _ _ ?_).imp fun _ => congrArg some
    cases i.method.given with
    | none => exact isTail_empty
    | some m =>
      dsimp only
      split
      · exact isTail_empty
      · exact isTail_words "USING " m

theorem Index.Filed.ddl_eq {i : Index} (h : i.Filed t.schema t.name key) : i.ddl target = "" ∨
    ∃ rest, i.ddl target = "CREATE " ++ (if i.isUnique.isGiven then "UNIQUE " else "") ++ "INDEX " ++
      (if i.isConcurrent.isGiven then "CONCURRENTLY " else "") ++ Sql.quoteName key ++ " ON " ++
      reference t.schema t.name target ++ " " ++ rest := by
  have hmore (lead rest close comment : String) :
      ∃ more, lead ++ rest ++ close ++ comment = lead ++ more :=
    ⟨rest ++ close ++ comment, by simp only [String.append_assoc]⟩
  -- the statement is built from the columns, for no definition is stored
  unfold Index.ddl
  rw [h.definition, Field.given_absent]
  split
  · exact .inl rfl
  · dsimp only
    rcases h.fromColumns?_eq target with hnone | ⟨rest, hsome⟩
    · rw [hnone]
      exact .inl rfl
    · rw [hsome]
      exact .inr (hmore _ rest _ _)

theorem Trigger.Filed.ddl_eq {g : Trigger} (h : g.Filed t.schema t.name key) : g.ddl target = "" ∨
    ∃ rest, g.ddl target = "CREATE TRIGGER " ++ Sql.quoteName key ++ " " ++ g.timing.sql ++ " " ++
      Trigger.eventText g.events ++ " ON " ++ reference t.schema t.name target ++ " FOR EACH " ++ rest ++
      ";" ++ commentAfter ("TRIGGER " ++ Sql.quoteName key ++ " ON " ++ reference t.schema t.name target)
        g.comment := by
  unfold Trigger.ddl
  split
  · exact .inl rfl
  · rw [h.name, h.schema, h.table]
    right
    refine ⟨g.granularity.text ++ (g.condition.given.elim "" fun c => " WHEN " ++ wrapped c) ++
      " EXECUTE FUNCTION " ++ Trigger.functionText g.function.text? target, ?_⟩
    simp only [String.append_assoc]
    cases g.condition.given <;> rfl

theorem Policy.Filed.ddl_eq {p : Policy} (h : p.Filed t.schema t.name key) : p.ddl target = "" ∨
    ∃ tail, IsTail tail ∧ p.ddl target =
      "CREATE POLICY " ++ Sql.quoteName key ++ " ON " ++ reference t.schema t.name target ++ tail ++ ";" := by
  unfold Policy.ddl
  split
  · exact .inl rfl
  · rw [h.name, h.schema, h.table]
    right
    refine ⟨(if p.permissive.isGiven then "" else " AS RESTRICTIVE") ++
      ((if p.command == .all then "" else " FOR " ++ p.command.text) ++
      ((if p.roles.isGiven then " TO " ++ ", ".intercalate p.roles.texts else "") ++
      ((p.visible.given.elim "" fun e => " USING " ++ wrapped e) ++
      p.allowed.given.elim "" fun e => " WITH CHECK " ++ wrapped e))), ?_, ?_⟩
    · refine .append ?_ (.append ?_ (.append ?_ (.append ?_ ?_)))
      · split
        · exact isTail_empty
        · exact isTail_words "AS RESTRICTIVE" ""
      · split
        · exact isTail_empty
        · exact isTail_words "FOR " _
      · split
        · exact isTail_words "TO " _
        · exact isTail_empty
      · cases p.visible.given with
        | none => exact isTail_empty
        | some e => exact isTail_words "USING " _
      · cases p.allowed.given with
        | none => exact isTail_empty
        | some e => exact isTail_words "WITH CHECK " _
    · simp only [String.append_assoc]
      cases p.visible.given <;> cases p.allowed.given <;> rfl

theorem Table.Orderly.addressed (h : t.Orderly) (target : Option String) :
    t.Addressed target (reference t.schema t.name target) where
  created := t.created_ddl target
  secured := by
    unfold Table.rowSecurityDdl
    split
    · exact .inr rfl
    · exact .inl rfl
  constraints key c hc := (h.constraints key c hc).ddl_eq
  indexes key i hi := (h.indexes key i hi).ddl_eq
  triggers key g hg := (h.triggers key g hg).ddl_eq
  policies key p hp := (h.policies key p hp).ddl_eq

end
end SchemaScript
