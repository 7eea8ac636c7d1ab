import SchemaScript.Proofs.Ddl.Keys
import SchemaScript.Proofs.Script.Totality

/-!
# Every key once

A table's primary key, its unique keys and its checks each end up in one place of a script: in the table's
own statement or, as far as keys are concerned, in one statement after it (`keys_realised_once`).
-/

namespace SchemaScript

open Table (WellKept Covers)

namespace Diff

variable {p : Pair} {new : Catalog} {t : Table} {tag : Tag} {parts : List Piece} {key : String}
  {c : Constraint}

/-! ## Statements of constraints -/

def constraintPiece (p : Pair) (tag : Tag) (entry : String × Constraint) : Piece :=
  { tag, kind := .constraint, name := entry.1, schema := p.heading, text := entry.2.ddl p.target }

theorem yields_kind {tag : Tag} {kind : PieceKind} {name schema : String} {owner : Option String}
    {checked : Except Fault Unit} {text : String} (h : kind ≠ .constraint) :
    Yields (·.kind ≠ .constraint) (emit tag kind name schema owner checked text) :=
  yields_emit fun _ => h

/-- Of what a table owns, the constraints outside its own statement are written, each by itself. -/
theorem filter_constraint_tableParts (h : (tableParts p tag new t).result = .ok parts) :
    parts.filter (·.kind == .constraint) =
      ((t.constraints.sorted.filter fun entry => !t.isInline entry.1 entry.2).map
        (constraintPiece p tag)).filter (·.text != "") := by
  obtain ⟨indexes, hindexes, h⟩ := Logged.result_bind_eq_ok.mp h
  obtain ⟨constraints, hconstraints, h⟩ := Logged.result_bind_eq_ok.mp h
  obtain ⟨triggers, htriggers, h⟩ := Logged.result_bind_eq_ok.mp h
  obtain ⟨security, hsecurity, h⟩ := Logged.result_bind_eq_ok.mp h
  obtain ⟨policies, hpolicies, h⟩ := Logged.result_bind_eq_ok.mp h
  obtain ⟨rfl⟩ := h
  have hnone {others : List Piece} (hkinds : ∀ x ∈ others, x.kind ≠ .constraint) :
      others.filter (·.kind == .constraint) = [] :=
    List.filter_eq_nil_iff.mpr fun x hx => by simpa using hkinds x hx
  have hindex : ∀ x ∈ indexes, x.kind ≠ .constraint := by
    refine yields_collect (fun entry _ => ?_) indexes hindexes
    refine (yields_kind (by decide)).bind fun own hown => ?_
    refine (yields_collect fun a _ => yields_kind (by decide)).bind fun attached hattached => ?_
    exact yields_pure fun x hx => (List.mem_append.mp hx).elim (hown x) (hattached x)
  have htrigger := yields_collect (fun _ _ => yields_kind (by decide)) triggers htriggers
  have hrow := yields_kind (by decide) security hsecurity
  have hpolicy := yields_collect (fun _ _ => yields_kind (by decide)) policies hpolicies
  obtain ⟨-, hown⟩ := (collect_emit_eq_ok (constraintPiece p tag)
    fun entry => entry.2.check p.target).mp hconstraints
  have hkind : ∀ x ∈ constraints, x.kind == .constraint := by
    intro x hx
    rw [hown] at hx
    obtain ⟨entry, -, rfl⟩ := List.mem_map.mp (List.mem_of_mem_filter hx)
    rfl
  simp only [List.filter_append, hnone hindex, hnone htrigger, hnone hrow, hnone hpolicy,
    List.nil_append, List.append_nil]
  rw [List.filter_eq_self.mpr hkind, hown]

/-- The statements of the constraint kept under a name: one if it stands outside the table's own
statement and there is something to write, and none otherwise. -/
theorem filter_name_tableParts (h : (tableParts p tag new t).result = .ok parts)
    (hkept : t.constraints.get? key = some c) :
    parts.filter (fun x => x.name == key && x.kind == .constraint) =
      if t.isInline key c || c.ddl p.target == "" then [] else [constraintPiece p tag (key, c)] := by
  have hown : (t.constraints.sorted.filter fun entry => !t.isInline entry.1 entry.2).filter
      (fun entry => entry.1 == key && entry.2.ddl p.target != "") =
        if t.isInline key c || c.ddl p.target == "" then [] else [(key, c)] := by
    have horder : (fun entry : String × Constraint =>
        (entry.1 == key && entry.2.ddl p.target != "") && !t.isInline entry.1 entry.2) =
          fun entry => (!t.isInline entry.1 entry.2 && entry.2.ddl p.target != "") &&
            entry.1 == key := by
      funext entry
      ac_rfl
    rw [List.filter_filter, horder, ← List.filter_filter, Entries.filter_name_sorted hkept]
    by_cases hinline : t.isInline key c <;> by_cases htext : c.ddl p.target = "" <;>
      simp [hinline, htext]
  rw [← List.filter_filter, filter_constraint_tableParts h, List.filter_filter, List.filter_map]
  exact (congrArg (List.map (constraintPiece p tag)) hown).trans (by split <;> rfl)

/-! ## A table's keys and checks -/

/-- A key on columns of the table has something to write. -/
theorem ddl_ne_empty (h : t.WellKept) (hkept : t.constraints.get? key = some c) {word : String}
    (hword : c.kind.keyWord? = some word) (hcolumns : c.columns ≠ []) (target : Option String) :
    c.ddl target ≠ "" := by
  obtain ⟨hkey, hname, htable⟩ := h.kept key c hkept
  have hlist (columns : List KeyColumn) (hnamed : ∀ k ∈ columns, k.name.isGiven) :
      ∃ text, Constraint.columnList? (byPosition (·.position) columns) = some text := by
    have hall : (byPosition (·.position) columns).all (·.name.isGiven) :=
      List.all_eq_true.mpr fun k hk => hnamed k (Order.mem_sort.mp hk)
    exact ⟨_, by rw [Constraint.columnList?, if_pos hall]⟩
  obtain ⟨own, hown⟩ := hlist c.columns fun k hk => by
    obtain ⟨column, hcolumn, hname⟩ := List.mem_map.mp (h.covered key c hkept k hk)
    exact hname ▸ (h.columns column hcolumn).1
  obtain ⟨others, hothers⟩ := hlist c.referencedColumns (h.referenced key c hkept)
  have hclause : c.clause target ≠ "" := by
    rw [Constraint.clause, Constraint.sortedColumns, Constraint.sortedReferencedColumns, hown, hothers]
    rcases hkind : c.kind <;> rw [hkind] at hword <;>
      simp [ConstraintKind.keyWord?, hcolumns] at hword ⊢
  have hgiven : c.table.isGiven := htable ▸ h.named
  have hnamed : c.name.given = some key := by rw [hname, Field.given_text, if_neg hkey]
  simp [Constraint.ddl, hclause, hgiven, hnamed]

/-- The statement of the constraint that is kept under `key`, if a table's parts hold one. -/
def statementsOf (parts : List Piece) (key : String) : List Piece :=
  parts.filter fun x => x.name == key && x.kind == .constraint

/-- Where a table's keys, its checks and its bars on nulls are written. -/
structure KeysRealised (p : Pair) (tag : Tag) (t : Table) (parts : List Piece) : Prop where
  /-- The definition of the one column has the word of the key once. -/
  inside : ∀ key c word, t.constraints.get? key = some c → c.kind.keyWord? = some word →
    t.isInline key c → statementsOf parts key = [] ∧
      ∃ k column type, c.columns = [k] ∧ t.columns.filter (·.name == k.name) = [column] ∧
        (t.columnOptions p.target column).count word = 1 ∧
        " ".intercalate ([Sql.quoteName column.name.spelled, type] ++
          t.columnOptions p.target column) ∈ t.lines p.target
  outside : ∀ key c word, t.constraints.get? key = some c → c.kind.keyWord? = some word →
    c.columns ≠ [] → t.isInline key c = false →
      statementsOf parts key = [constraintPiece p tag (key, c)] ∧ c.ddl p.target ≠ ""
  behind : ∀ column ∈ t.columns, ∀ kind word, ConstraintKind.keyWord? kind = some word →
    word ∈ t.columnOptions p.target column →
      ∃! key, ∃ c, t.Covers kind column.name key c ∧ t.isInline key c
  check : ∀ key c, t.constraints.get? key = some c → c.kind = .check → c.condition.isGiven →
    statementsOf parts key = [] ∧
      ∃ line, Table.checkLine? c = some line ∧ (t.lines p.target).count line = 1
  notNull : ∀ column ∈ t.columns, column.nullable.isGiven = false →
    "NOT NULL" ∈ t.columnOptions p.target column ∨
      ∃ key c, t.constraints.get? key = some c ∧ c.kind = .primaryKey ∧
        ∃ k ∈ c.columns, k.name = column.name

theorem statementsOf_of_isInline (hparts : (tableParts p tag new t).result = .ok parts)
    (hkept : t.constraints.get? key = some c) (h : t.isInline key c) : statementsOf parts key = [] := by
  rw [statementsOf, filter_name_tableParts hparts hkept, h]
  rfl

theorem keysRealised (h : t.WellKept) (hparts : (tableParts p tag new t).result = .ok parts) :
    KeysRealised p tag t parts where
  inside key c word hkept hword hinline := by
    obtain ⟨k, hk, hcovers⟩ := Table.covers_of_isInline hword hkept hinline
    have hsole := (hcovers.isInline_iff hword).mp hinline
    obtain ⟨column, hcolumn⟩ := h.exists_column (h.covered key c hkept k (by simp [hk]))
    have hmem : column ∈ t.columns ∧ column.name = k.name := by
      have := List.mem_filter.mp (hcolumn ▸ List.mem_singleton.mpr rfl :
        column ∈ t.columns.filter (·.name == k.name))
      exact ⟨this.1, by simpa using this.2⟩
    obtain ⟨type, hline⟩ := h.mem_lines p.target hmem.1
    refine ⟨statementsOf_of_isInline hparts hkept hinline, k, column, type, hk, hcolumn, ?_, hline⟩
    rw [Table.count_keyWord hword, hmem.2, hsole]
    rfl
  outside key c word hkept hword hcolumns hinline := by
    have htext := ddl_ne_empty h hkept hword hcolumns p.target
    refine ⟨?_, htext⟩
    rw [statementsOf, filter_name_tableParts hparts hkept, hinline]
    simp [htext]
  behind column hcolumn kind word hword hmem := by
    have hsome : (t.soleConstraint? column.name kind).isSome := by
      have hcount : (t.columnOptions p.target column).count word = _ := Table.count_keyWord hword
      have hpos := List.count_pos_iff.mpr hmem
      by_contra hnone
      rw [if_neg hnone] at hcount
      omega
    obtain ⟨key, hkey⟩ := Option.isSome_iff_exists.mp hsome
    obtain ⟨c, hc⟩ := Table.covers_of_soleConstraint? hkey
    refine ⟨key, ⟨c, hc, (hc.isInline_iff hword).mpr hkey⟩, ?_⟩
    rintro other ⟨c', hc', hinline⟩
    have hother := (hc'.isInline_iff hword).mp hinline
    exact Option.some.inj (hother.symm.trans hkey)
  check key c hkept hkind hcondition := by
    have hinline : t.isInline key c := by simp [Table.isInline, hkind, hcondition]
    refine ⟨statementsOf_of_isInline hparts hkept hinline, ?_⟩
    obtain ⟨hkey, hname, -⟩ := h.kept key c hkept
    have hgiven : c.condition.given = some c.condition.spelled := by simp [Field.given, hcondition]
    have hline := Table.checkLine?_eq hkind hname hkey hgiven
    exact ⟨_, hline, h.count_checkLine hkept hline⟩
  notNull column _ hnullable := by
    by_cases hkey : column.name ∈ t.primaryKeyColumns
    · exact .inr (Table.exists_primaryKey hkey)
    · exact .inl (Table.mem_notNull_iff.mpr ⟨hnullable, hkey⟩)

/-- A well-kept table is created with its lines, and every key and every check has its one place. -/
theorem keys_realised_once (h : t.WellKept) (ht : t.isTyped)
    (hnew : new.indexPartitions.all (·.isTyped)) (p : Pair) (tag : Tag) :
    t.check p.target = .ok () ∧
      (∃ after, t.ddl p.target = "CREATE TABLE " ++ Ddl.reference t.schema t.name p.target ++
        Table.body (t.lines p.target) ++ after) ∧
      ∃ parts, (tableParts p tag new t).result = .ok parts ∧ KeysRealised p tag t parts := by
  obtain ⟨parts, hparts⟩ : (tableParts p tag new t).Ends := ends_tableParts hnew ht
  refine ⟨Table.check_of_isTyped ht, ?_, parts, hparts, keysRealised h hparts⟩
  simp only [Table.ddl, h.isComplete, Bool.not_true, Bool.false_eq_true, if_false]
  rcases t.comments (Ddl.reference t.schema t.name p.target) with _ | ⟨comment, comments⟩
  · exact ⟨t.partitionClause ++ ";", by simp [String.append_assoc]⟩
  · rw [String.intercalate_cons_cons]
    exact ⟨t.partitionClause ++ ";" ++ ("\n\n" ++ "\n\n".intercalate (comment :: comments)),
      by simp only [String.append_assoc]⟩

def register : Table where
  schema := "public"
  name := "register"
  columns :=
    [{ name := "day", position := (1 : Int), dataType := "date", nullable := false },
     { name := "entry", position := (2 : Int), dataType := "int4", nullable := false },
     { name := "code", position := (3 : Int), dataType := "text", nullable := false }]
  constraints := .ofPairs
    [("one_a_day",
      { schema := "public", table := "register", name := "one_a_day", kind := .primaryKey,
        columns := [{ name := "entry", position := (2 : Int) },
          { name := "day", position := (1 : Int) }] }),
     ("one_code",
      { schema := "public", table := "register", name := "one_code", kind := .unique,
        columns := [{ name := "code", position := (1 : Int) }] }),
     ("again",
      { schema := "public", table := "register", name := "again", kind := .unique,
        columns := [{ name := "code", position := (1 : Int) }] }),
     ("counted",
      { schema := "public", table := "register", name := "counted", kind := .check,
        condition := "entry > 0" })]

def registerPair : Pair where
  key := "public"
  schema := { name := "public", tables := .ofPairs [("register", register)] }
  old := none
  target := some "public"

def registerParts : List Piece :=
  [{ tag := registerPair.tag .table "register", kind := .constraint, name := "one_a_day", schema := "-",
     text := "ALTER TABLE register ADD CONSTRAINT one_a_day PRIMARY KEY (day, entry);" },
   { tag := registerPair.tag .table "register", kind := .constraint, name := "one_code", schema := "-",
     text := "ALTER TABLE register ADD CONSTRAINT one_code UNIQUE (code);" }]

theorem wellKept_register : register.WellKept where
  named := by decide
  columns := by decide
  distinct := by decide
  kept key c hkept := by
    have hall : ∀ entry ∈ register.constraints.pairs, entry.1 ≠ "" ∧
        entry.2.name = (entry.1 : Field String) ∧ entry.2.table = register.name := by decide +kernel
    exact hall _ (Entries.get?_eq_some_iff.mp hkept)
  covered key c hkept := by
    have hall : ∀ entry ∈ register.constraints.pairs, ∀ k ∈ entry.2.columns,
        k.name ∈ register.columns.map (·.name) := by decide +kernel
    exact hall _ (Entries.get?_eq_some_iff.mp hkept)
  referenced key c hkept := by
    have hall : ∀ entry ∈ register.constraints.pairs, ∀ k ∈ entry.2.referencedColumns,
        k.name.isGiven := by decide +kernel
    exact hall _ (Entries.get?_eq_some_iff.mp hkept)

/-- Of two keys on one column the second by name is a statement, as is the key on two columns. -/
theorem register_keys_once :
    register.lines (some "public") =
      ["day date", "entry integer", "code text NOT NULL UNIQUE",
       "CONSTRAINT counted CHECK (entry > 0)"] ∧
    (tableParts registerPair (registerPair.tag .table "register") {} register).result =
      .ok registerParts ∧
    KeysRealised registerPair (registerPair.tag .table "register") register registerParts := by
  have hparts : (tableParts registerPair (registerPair.tag .table "register") {} register).result =
      .ok registerParts := by decide +kernel
  obtain ⟨-, -, parts, hparts', hkeys⟩ := @keys_realised_once {} register wellKept_register
    (by decide +kernel) (by decide) registerPair (registerPair.tag .table "register")
  obtain rfl : registerParts = parts := Except.ok.inj (hparts.symm.trans hparts')
  exact ⟨by decide +kernel, hparts, hkeys⟩

end Diff
end SchemaScript
