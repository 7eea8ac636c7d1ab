import SchemaScript.Proofs.Script.Coverage
import SchemaScript.Proofs.Script.KeyPlacement
import SchemaScript.Proofs.Script.Keys

/-!
# The constraints of one table

The constraints of a table that stand outside its own statement are added in the order of their names, whatever
they are (`pieces_constraintsAscend`). So a key that a foreign key of the same table needs is there in time
exactly if its name is the smaller one (`key_before_foreignKey_iff`).
-/

namespace SchemaScript.Diff

variable {p : Pair} {old new : Catalog} {target : Option String} {ps : Partitions} {walk : Walk}
  {pieces own parts : List Piece} {x y : Piece} {name key foreign : String} {t : Table} {tag : Tag}
  {parent : Option String} {c k f : Constraint}

/-- The constraints of one table come in the order of the names under which they are kept. -/
def ConstraintsAscend (p : Pair) (x y : Piece) : Prop :=
  ∀ table, x.tag = p.tag .table table → y.tag = p.tag .table table →
    x.kind = .constraint → y.kind = .constraint → x.name < y.name

/-! ## One table -/

theorem pairwise_tableParts (h : (tableParts p tag new t).result = .ok parts) :
    parts.Pairwise fun x y => x.kind = .constraint → y.kind = .constraint → x.name < y.name := by
  have hnames : (parts.filter (·.kind == .constraint)).Pairwise fun x y => x.name < y.name := by
    rw [filter_constraint_tableParts h]
    apply List.Pairwise.filter
    rw [List.pairwise_map]
    exact t.constraints.pairwise_lt_sorted.filter _
  rw [List.pairwise_filter] at hnames
  apply hnames.imp
  intro x y hlt hx hy
  exact hlt (by simp [hx]) (by simp [hy])

theorem pairwise_tablePieces (h : (tablePieces p new ps name t parent).result = .ok own) :
    own.Pairwise (ConstraintsAscend p) := by
  rcases tablePieces_cases h with ⟨-, rfl⟩ | ⟨parts, -, -, hparts, rfl⟩
  · exact List.Pairwise.nil
  · -- what stands ahead of the parts is no constraint
    have hplace : ∀ x ∈ attaching p ps parent name, x.kind ≠ .constraint := by
      intro x hx
      simp [(mem_attaching hx).2]
    rw [List.pairwise_cons, List.pairwise_append]
    refine ⟨?_, ?_, ?_, ?_⟩
    · intro y _ table _ _ hkind
      cases hkind
    · apply List.pairwise_of_forall_mem_list
      intro x hx y _ table _ _ hkind
      exact absurd hkind (hplace x hx)
    · apply (pairwise_tableParts hparts).imp
      intro x y hlt table _ _
      exact hlt
    · intro x hx y _ table _ _ hkind
      exact absurd hkind (hplace x hx)

/-! ## All tables -/

theorem tag_of_mem_tablePieces (ht : p.schema.tables.get? name = some t)
    (h : (tablePieces p new ps name t parent).result = .ok own) (hx : x ∈ own) :
    x.tag = p.tag .table name := by
  obtain ⟨parts, hparts, rfl⟩ := tablePieces_eq_block ht h
  exact tag_of_mem_block hparts hx

theorem walkTables_constraintsAscend (h : (walkTables new p).result = .ok walk) :
    walk.pieces.Pairwise (ConstraintsAscend p) := by
  refine (walkTables_induct (I := fun w => w.pieces.Pairwise (ConstraintsAscend p) ∧
    ∀ x ∈ w.pieces, ∃ name ∈ w.handled, x.tag = p.tag .table name) ?_ h ?_).1
  · rintro w parent name t own ht hnew - hown ⟨hascend, htags⟩
    have hown_tag : ∀ y ∈ own, y.tag = p.tag .table name :=
      fun y hy => tag_of_mem_tablePieces ht hown hy
    constructor
    · refine List.pairwise_append.mpr ⟨hascend, pairwise_tablePieces hown, ?_⟩
      intro x hx y hy table hxt hyt
      -- the earlier piece is there because of another table
      obtain ⟨other, hother, hx⟩ := htags x hx
      have hsame : other = name := by
        rw [tag_table_inj (hx.symm.trans hxt), tag_table_inj ((hown_tag y hy).symm.trans hyt)]
      exact absurd (hsame ▸ hother) hnew
    · intro x hx
      rcases List.mem_append.mp hx with hx | hx
      · obtain ⟨other, hother, hx⟩ := htags x hx
        exact ⟨other, List.mem_append_left _ hother, hx⟩
      · exact ⟨name, by simp, hown_tag x hx⟩
  · exact ⟨List.Pairwise.nil, by simp⟩

/-- In a whole script the constraints of each table of the schema are added in the order of their names. -/
theorem pieces_constraintsAscend (hp : p ∈ pairs old new (Text.given target))
    (h : (Diff.pieces old new target).result = .ok pieces) :
    pieces.Pairwise (ConstraintsAscend p) := by
  obtain ⟨walk, before, after, hwalk, rfl, hothers⟩ := exists_tableScript hp h
  apply pairwise_between (walkTables_constraintsAscend hwalk) hothers
  intro x y hxy table hxt hyt
  rcases hxy with hx | hy
  · simp [Pair.tableName?_eq_some_iff.mpr hxt] at hx
  · simp [Pair.tableName?_eq_some_iff.mpr hyt] at hy

theorem mem_constraintPiece (hp : p ∈ pairs old new (Text.given target)) (hvisited : Visits p new name t)
    (hwritten : t.ddl p.target ≠ "") (h : (Diff.pieces old new target).result = .ok pieces)
    (hkept : t.constraints.get? key = some c) (houtside : t.isInline key c = false)
    (htext : c.ddl p.target ≠ "") : constraintPiece p (p.tag .table name) (key, c) ∈ pieces := by
  apply (mem_pieces_iff h rfl).mpr
  exact ⟨htext, _, .inSchema hp (.table hvisited (.owned hwritten (.constraint hkept houtside)))⟩

/-! ## Keys and foreign keys -/

/-- A key on several columns, like every foreign key, has a statement of its own. Where a key and a foreign
key of one table both have one, the key comes first exactly if its name is the smaller one. -/
theorem key_before_foreignKey_iff (hp : p ∈ pairs old new (Text.given target))
    (hvisited : Visits p new name t) (hwritten : t.ddl p.target ≠ "")
    (h : (Diff.pieces old new target).result = .ok pieces)
    (hk : t.constraints.get? key = some k) (hkey : k.kind = .primaryKey ∨ k.kind = .unique)
    (hf : t.constraints.get? foreign = some f) (hforeign : f.kind = .foreignKey) :
    (2 ≤ k.columns.length → t.isInline key k = false) ∧
      (t.isInline key k = false → k.ddl p.target ≠ "" → f.ddl p.target ≠ "" →
        constraintPiece p (p.tag .table name) (key, k) ∈ pieces ∧
        constraintPiece p (p.tag .table name) (foreign, f) ∈ pieces ∧
        ∀ i j : Nat, pieces[i]? = some (constraintPiece p (p.tag .table name) (key, k)) →
          pieces[j]? = some (constraintPiece p (p.tag .table name) (foreign, f)) →
            (i < j ↔ key < foreign)) := by
  constructor
  · intro hlength
    unfold Table.isInline
    rcases hkey with hkey | hkey <;> rw [hkey]
    all_goals
      dsimp only
      split
      · next column hcolumns => simp [hcolumns] at hlength
      · rfl
  · intro houtside hktext hftext
    have hfoutside : t.isInline foreign f = false := by simp [Table.isInline, hforeign]
    refine ⟨mem_constraintPiece hp hvisited hwritten h hk houtside hktext,
      mem_constraintPiece hp hvisited hwritten h hf hfoutside hftext, fun i j hi hj => ?_⟩
    have hascend := pieces_constraintsAscend hp h
    constructor
    · intro hlt
      exact rel_of_lt hascend hi hj hlt name rfl rfl rfl rfl
    · intro hlt
      apply lt_of_pairwise hascend hi hj
      · intro heq
        have hname : key = foreign := congrArg Piece.name heq
        exact absurd hname (ne_of_lt hlt)
      · intro hback
        exact absurd (hback name rfl rfl rfl rfl) (not_lt_of_gt hlt)

/-- Whoever is employed has a superior in the same company. -/
def employeesKey : Constraint where
  schema := "firm"
  table := "employees"
  name := "employees_pkey"
  kind := .primaryKey
  columns := [{ name := "company", position := (1 : Int) }, { name := "id", position := (2 : Int) }]

def superiorKey : Constraint where
  schema := "firm"
  table := "employees"
  name := "employees_company_fkey"
  kind := .foreignKey
  columns := [{ name := "company", position := (1 : Int) }, { name := "boss", position := (2 : Int) }]
  referencedTable := "employees"
  referencedColumns :=
    [{ name := "company", position := (1 : Int) }, { name := "id", position := (2 : Int) }]

def employees : Table where
  schema := "firm"
  name := "employees"
  columns :=
    [{ name := "company", position := (1 : Int), dataType := "integer" },
     { name := "id", position := (2 : Int), dataType := "integer" },
     { name := "boss", position := (3 : Int), dataType := "integer" }]
  constraints := .ofPairs
    [("employees_pkey", employeesKey), ("employees_company_fkey", superiorKey)]

def firm : Catalog where
  schemas := .ofPairs [("firm", { name := "firm", tables := .ofPairs [("employees", employees)] })]

def firmPair : Pair where
  key := "firm"
  schema := { name := "firm", tables := .ofPairs [("employees", employees)] }
  old := none
  target := some "firm"

def firmScript : List Piece :=
  [{ tag := firmPair.tag .table "employees", kind := .table, name := "employees", schema := "-",
     text := "CREATE TABLE employees (\n    company integer,\n    id integer,\n    boss integer\n);" },
   { tag := firmPair.tag .table "employees", kind := .constraint, name := "employees_company_fkey",
     schema := "-",
     text := "ALTER TABLE employees ADD CONSTRAINT employees_company_fkey " ++
       "FOREIGN KEY (company, boss) REFERENCES employees (company, id);" },
   { tag := firmPair.tag .table "employees", kind := .constraint, name := "employees_pkey",
     schema := "-",
     text := "ALTER TABLE employees ADD CONSTRAINT employees_pkey PRIMARY KEY (company, id);" }]

/-- The names are those that the keys have by default, and the table refers to a key that comes too late. -/
theorem superior_before_employees :
    (Diff.pieces {} firm (some "firm")).result = .ok firmScript ∧
      superiorKey.RefersTo "firm" "firm" "employees" ∧
      superiorKey.referencedColumns = employeesKey.columns ∧
      firmScript[2]? = some (constraintPiece firmPair (firmPair.tag .table "employees")
        ("employees_pkey", employeesKey)) ∧
      firmScript[1]? = some (constraintPiece firmPair (firmPair.tag .table "employees")
        ("employees_company_fkey", superiorKey)) ∧
      ¬ "employees_pkey" < "employees_company_fkey" := by
  have hp : firmPair ∈ pairs {} firm (Text.given (some "firm")) := by decide +kernel
  have hscript : (Diff.pieces {} firm (some "firm")).result = .ok firmScript := by decide +kernel
  have hvisited : Visits firmPair firm "employees" employees :=
    ⟨by decide +kernel, .root (by decide +kernel) (by decide +kernel), by decide +kernel⟩
  have hrefers : superiorKey.RefersTo "firm" "firm" "employees" :=
    ⟨rfl, by decide +kernel, rfl, by decide +kernel⟩
  have hlate : firmScript[2]? = some (constraintPiece firmPair (firmPair.tag .table "employees")
      ("employees_pkey", employeesKey)) := by decide +kernel
  have hearly : firmScript[1]? = some (constraintPiece firmPair (firmPair.tag .table "employees")
      ("employees_company_fkey", superiorKey)) := by decide +kernel
  have hkey : employees.constraints.get? "employees_pkey" = some employeesKey := by decide +kernel
  have hforeign : employees.constraints.get? "employees_company_fkey" = some superiorKey := by
    decide +kernel
  obtain ⟨houtside, horder⟩ := key_before_foreignKey_iff hp hvisited (by decide +kernel) hscript
    hkey (.inl rfl) hforeign rfl
  obtain ⟨-, -, hiff⟩ := horder (houtside (by decide)) (by decide +kernel) (by decide +kernel)
  refine ⟨hscript, hrefers, rfl, hlate, hearly, fun hless => ?_⟩
  exact absurd ((hiff 2 1 hlate hearly).mpr hless) (by decide)

end SchemaScript.Diff
