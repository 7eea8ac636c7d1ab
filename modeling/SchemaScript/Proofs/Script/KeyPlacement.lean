import SchemaScript.Proofs.Script.TablePieces
import SchemaScript.Proofs.Script.WalkOrder

/-!
# Where foreign keys are added

In a schema without partitions whose tables do not refer to each other in a circle, everything that is written for a
table comes after everything that is written for the tables it refers to (`referenced_before`). In general a foreign
key comes after the creation of the table that it refers to exactly if that table is handled first: inside a schema
the trees of partitions decide (`key_after_creation_iff`), between schemas their names do
(`key_across_schemas_iff`).
-/

namespace SchemaScript.Diff

variable {p : Pair} {old new : Catalog} {target : Option String} {walk : Walk} {name : String}
  {pieces : List Piece}

/-- No table comes before one to which it refers. -/
theorem sortedTables_pairwise {s : Schema} (h : ∀ name, ¬ Relation.TransGen s.Refers name name) :
    (Order.topological s.tables.names s.tableEdges).names.Pairwise fun a b => ¬ s.Refers a b := by
  have hacyclic : Order.Acyclic s.tables.names s.tableEdges := by
    intro a hcircle
    have hback : Relation.TransGen (Function.swap s.Refers) a a :=
      hcircle.lift id fun b c hedge =>
        show s.Refers c b from Schema.mem_tableEdges_iff.mp hedge.2.2.2
    exact h a (Relation.transGen_swap.mp hback)
  refine (Order.topological_pairwise hacyclic).imp fun hedge hrefers => ?_
  exact hedge (Schema.mem_tableEdges_iff.mpr hrefers)

/-- Without partitions the tables are handled in the sorted order. -/
theorem handled_sublist (halone : (Partitions.inSchema new p.schema.name).attachments = [])
    (h : (walkTables new p).result = .ok walk) : walk.handled.Sublist (rootTables new p) := by
  rw [result_walkTables] at h
  refine foldlM_induct (fun past w => w.handled.Sublist past) h ?_ (List.Sublist.refl [])
  intro past name w w' _ hw hpast
  rcases tableTree_cases hw with ⟨-, rfl⟩ | ⟨t, own, names, -, -, -, hnames, hw⟩
  · exact hpast.trans (List.sublist_append_left past [name])
  · have hnone : names = [] := by
      refine List.eq_nil_iff_forall_not_mem.mpr fun child hchild => ?_
      obtain ⟨a, ha, -⟩ := (Partitions.mem_children_iff hnames).mp hchild
      simp [halone] at ha
    subst hnone
    obtain ⟨rfl⟩ : Except.ok (ε := Fault) (w.visit name own) = .ok w' := hw
    exact hpast.append (List.Sublist.refl [name])

/-- The later piece is not there because of a table to which the earlier one's table refers. -/
def Forward (p : Pair) (x y : Piece) : Prop :=
  ∀ table referenced, p.schema.Refers table referenced → x.tag = p.tag .table table →
    y.tag ≠ p.tag .table referenced

theorem tag_table_inj {other : String} (h : p.tag .table name = p.tag .table other) :
    name = other := by
  simpa [Pair.tag] using h

theorem pairwise_forward_of_layout {ps : Partitions} {parents : String → Option String}
    {partsOf : String → List Piece} (hlayout : walk.Layout p ps parents partsOf)
    (h : walk.handled.Pairwise fun a b => ¬ p.schema.Refers a b) :
    walk.pieces.Pairwise (Forward p) := by
  have htag {n : String} {x : Piece} (hx : x ∈ block p ps (parents n) (partsOf n) n) :
      x.tag = p.tag .table n := tag_of_mem_block (hlayout.part n) hx
  rw [hlayout.pieces, List.pairwise_flatMap]
  constructor
  · intro n _
    refine List.pairwise_of_forall_mem_list fun x hx y hy table referenced hrefers hxt hyt => ?_
    -- both are there because of the one table, which does not refer to itself
    obtain rfl := tag_table_inj ((htag hx).symm.trans hxt)
    exact hrefers.1 (tag_table_inj ((htag hy).symm.trans hyt)).symm
  · refine h.imp fun {a b} hrefers x hx y hy table referenced hr hxt hyt => ?_
    obtain rfl := tag_table_inj ((htag hx).symm.trans hxt)
    obtain rfl := tag_table_inj ((htag hy).symm.trans hyt)
    exact hrefers hr

/-- Pieces that are there for other reasons do not matter. -/
theorem pairwise_forward_append {before after : List Piece} (h : pieces.Pairwise (Forward p))
    (hothers : ∀ x ∈ before ++ after, p.tableName? x.tag = none) :
    (before ++ pieces ++ after).Pairwise (Forward p) := by
  have hother {x : Piece} (hx : p.tableName? x.tag = none) (n : String) : x.tag ≠ p.tag .table n :=
    fun htag => by simp [Pair.tableName?_eq_some_iff.mpr htag] at hx
  refine pairwise_between h hothers fun x y hxy table referenced _ hxt => ?_
  rcases hxy with hx | hy
  · exact absurd hxt (hother hx table)
  · exact hother hy referenced

/-- Everything that is written for a table comes after everything written for a table it refers to. -/
theorem referenced_before (hp : p ∈ pairs old new (Text.given target))
    (halone : (Partitions.inSchema new p.schema.name).attachments = [])
    (hacyclic : ∀ name, ¬ Relation.TransGen p.schema.Refers name name)
    (h : (Diff.pieces old new target).result = .ok pieces) {table referenced : String}
    (hrefers : p.schema.Refers table referenced) {i j : Nat} {x y : Piece}
    (hi : pieces[i]? = some x) (hx : x.tag = p.tag .table referenced)
    (hj : pieces[j]? = some y) (hy : y.tag = p.tag .table table) : i < j := by
  obtain ⟨walk, before, after, hwalk, rfl, hothers⟩ := exists_tableScript hp h
  obtain ⟨parents, partsOf, hlayout⟩ := exists_layout hwalk
  have hhandled : walk.handled.Pairwise fun a b => ¬ p.schema.Refers a b :=
    (sortedTables_pairwise hacyclic).sublist
      ((handled_sublist halone hwalk).trans List.filter_sublist)
  have hforward := pairwise_forward_append (pairwise_forward_of_layout hlayout hhandled) hothers
  rcases Nat.lt_trichotomy i j with hlt | rfl | hlt
  · exact hlt
  · obtain rfl : x = y := Option.some_inj.mp (hi.symm.trans hj)
    exact absurd (tag_table_inj (hx.symm.trans hy)) hrefers.1
  · obtain ⟨hilen, higet⟩ := List.getElem?_eq_some_iff.mp hi
    obtain ⟨hjlen, hjget⟩ := List.getElem?_eq_some_iff.mp hj
    have hpair := List.pairwise_iff_getElem.mp hforward j i hjlen hilen hlt
    rw [higet, hjget] at hpair
    exact absurd hx (hpair table referenced hrefers hy)

/-- Accounts belong to users. -/
def officeSchema : Schema where
  name := "office"
  tables :=
    (Entries.empty.put "accounts"
      { schema := "office"
        name := "accounts"
        columns := [{ name := "user", position := (1 : Int), dataType := "integer" }]
        constraints := Entries.empty.put "owner"
          { schema := "office"
            table := "accounts"
            name := "owner"
            kind := .foreignKey
            columns := [{ name := "user", position := (1 : Int) }]
            referencedTable := "users"
            referencedColumns := [{ name := "id", position := (1 : Int) }] } }).put "users"
      { schema := "office"
        name := "users"
        columns := [{ name := "id", position := (1 : Int), dataType := "integer" }] }

def office : Catalog where
  schemas := Entries.empty.put "office" officeSchema

def officePair : Pair where
  key := "office"
  schema := officeSchema
  old := none
  target := none

theorem officeSchema_refers {table referenced : String} (h : officeSchema.Refers table referenced) :
    table = "accounts" ∧ referenced = "users" := by
  have hedges : officeSchema.tableEdges = [⟨"users", "accounts"⟩] := by decide +kernel
  have hedge := Schema.mem_tableEdges_iff.mpr h
  rw [hedges, List.mem_singleton, Order.Edge.mk.injEq] at hedge
  exact hedge.symm

def officePieces : List Piece :=
  [{ tag := .schema "office", kind := .schema, name := "office", schema := "-",
     text := "CREATE SCHEMA office;" },
   { tag := officePair.tag .table "users", kind := .table, name := "users", schema := "office",
     text := "CREATE TABLE office.users (\n    id integer\n);" },
   { tag := officePair.tag .table "accounts", kind := .table, name := "accounts",
     schema := "office",
     text := "CREATE TABLE office.accounts (\n    \"user\" integer\n);" },
   { tag := officePair.tag .table "accounts", kind := .constraint, name := "owner",
     schema := "office",
     text := "ALTER TABLE office.accounts ADD CONSTRAINT owner FOREIGN KEY (\"user\") " ++
       "REFERENCES office.users (id);" }]

theorem office_users_first :
    ∃ x y, officePieces[1]? = some x ∧ x.tag = officePair.tag .table "users" ∧
      officePieces[3]? = some y ∧ y.tag = officePair.tag .table "accounts" ∧ 1 < 3 := by
  have hp : officePair ∈ pairs {} office (Text.given none) := by decide +kernel
  have hpieces : (Diff.pieces {} office none).result = .ok officePieces := by decide +kernel
  have hrefers : officeSchema.Refers "accounts" "users" :=
    Schema.mem_tableEdges_iff.mp (by decide +kernel)
  have hacyclic := Order.acyclic_of_single (by decide) fun _ _ => officeSchema_refers
  exact ⟨_, _, rfl, rfl, rfl, rfl,
    referenced_before hp (by decide +kernel) hacyclic hpieces hrefers rfl rfl rfl rfl⟩

end SchemaScript.Diff

/-!
## Where foreign keys are added

A foreign key is added with the other parts of its own table. So it comes after the creation of the table that it
refers to exactly if that table is handled first: inside a schema the trees of partitions decide
(`key_after_creation_iff`), between schemas their names do (`key_across_schemas_iff`).
-/

namespace SchemaScript

/-- The constraint is a foreign key to the table `referenced` of the schema named `schema`; a key that
names no schema means its own. -/
structure Constraint.RefersTo (c : Constraint) (own schema : Field String) (referenced : String) :
    Prop where
  isKey : c.kind = .foreignKey
  isGiven : c.referencedTable.isGiven
  named : c.referencedTable = (referenced : Field String)
  inSchema : (if c.referencedSchema.isGiven then c.referencedSchema else own) = schema

namespace Diff

variable {p q : Pair} {old new : Catalog} {target : Option String} {ps : Partitions} {walk : Walk}
  {pieces parts : List Piece} {x y : Piece} {name table referenced : String} {schema : Field String}

/-! ## A statement that adds a foreign key -/

/-- The piece adds a foreign key of `table` that refers to the table `referenced` of `schema`. -/
structure AddsKey (p : Pair) (table : String) (schema : Field String) (referenced : String)
    (y : Piece) : Prop where
  tagged : y.tag = p.tag .table table
  isConstraint : y.kind = .constraint
  key : ∃ t c, p.schema.tables.get? table = some t ∧ t.constraints.get? y.name = some c ∧
    c.RefersTo p.schema.name schema referenced

theorem AddsKey.notCreation (h : AddsKey p table schema referenced y) :
    y.createsTable = false := by
  simp [Piece.createsTable, h.isConstraint]

/-- Inside one schema a key to another table counts for the order of tables. -/
theorem AddsKey.refers (h : AddsKey p table p.schema.name referenced y) (hne : referenced ≠ table)
    (hcontains : p.schema.tables.contains referenced) : p.schema.Refers table referenced := by
  obtain ⟨t, c, ht, hc, hrefers⟩ := h.key
  refine ⟨hne, hcontains, t, ht, y.name, c, hc, hrefers.isKey, hrefers.isGiven, hrefers.named,
    fun hgiven => ?_⟩
  have hschema := hrefers.inSchema
  rwa [if_pos hgiven] at hschema

/-! ## Inside one schema -/

/-- The tables of the two pieces stand in the order `r`, or they are one table, which the second piece
does not create. -/
def InOrder (p : Pair) (r : String → String → Prop) (x y : Piece) : Prop :=
  ∀ a b, x.tag = p.tag .table a → y.tag = p.tag .table b → r a b ∨ a = b ∧ y.createsTable = false

theorem pairwise_block (hparts : ∀ x ∈ parts, IsPart (p.tag .table name) x)
    {parent : Option String} :
    (block p ps parent parts name).Pairwise fun _ y => y.createsTable = false := by
  unfold block
  split
  · have hrest : ∀ y ∈ attaching p ps parent name ++ parts, y.createsTable = false := by
      intro y hy
      rcases List.mem_append.mp hy with hy | hy
      · simp [Piece.createsTable, (mem_attaching hy).2]
      · exact (hparts y hy).notCreation
    refine List.pairwise_cons.mpr ⟨hrest, ?_⟩
    exact List.pairwise_of_forall_mem_list fun _ _ y hy => hrest y hy
  · exact List.Pairwise.nil

theorem pairwise_inOrder {r : String → String → Prop} {parents : String → Option String}
    {partsOf : String → List Piece} (hlayout : walk.Layout p ps parents partsOf)
    (h : walk.handled.Pairwise r) : walk.pieces.Pairwise (InOrder p r) := by
  have htag {n : String} {x : Piece} (hx : x ∈ block p ps (parents n) (partsOf n) n) :
      x.tag = p.tag .table n := tag_of_mem_block (hlayout.part n) hx
  rw [hlayout.pieces, List.pairwise_flatMap]
  constructor
  · intro n _
    refine List.Pairwise.imp_of_mem ?_ (pairwise_block (hlayout.part n))
    intro x y hx hy hlater a b ha hb
    have hna := tag_table_inj ((htag hx).symm.trans ha)
    have hnb := tag_table_inj ((htag hy).symm.trans hb)
    exact .inr ⟨hna.symm.trans hnb, hlater⟩
  · refine h.imp ?_
    intro m n hmn x hx y hy a b ha hb
    obtain rfl := tag_table_inj ((htag hx).symm.trans ha)
    obtain rfl := tag_table_inj ((htag hy).symm.trans hb)
    exact .inl hmn

/-- What is written for the tables of a schema is in the order in which they are handled. -/
theorem pieces_inOrder_of {r : String → String → Prop} (hp : p ∈ pairs old new (Text.given target))
    (h : (Diff.pieces old new target).result = .ok pieces)
    (hr : ∀ walk, (walkTables new p).result = .ok walk → walk.handled.Pairwise r) :
    pieces.Pairwise (InOrder p r) := by
  obtain ⟨walk, before, after, hwalk, rfl, hothers⟩ := exists_tableScript hp h
  obtain ⟨parents, partsOf, hlayout⟩ := exists_layout hwalk
  refine pairwise_between (pairwise_inOrder hlayout (hr walk hwalk)) hothers ?_
  intro x y hxy a b ha hb
  rcases hxy with hx | hy
  · simp [Pair.tableName?_eq_some_iff.mpr ha] at hx
  · simp [Pair.tableName?_eq_some_iff.mpr hb] at hy

/-- What is written for the tables of a schema follows the trees of partitions. -/
theorem pieces_inOrder (hp : p ∈ pairs old new (Text.given target))
    (hsingle : ((Partitions.inSchema new p.schema.name).attachments.map (·.childTable)).Nodup)
    (h : (Diff.pieces old new target).result = .ok pieces) :
    pieces.Pairwise (InOrder p (Ahead p (.inSchema new p.schema.name))) :=
  pieces_inOrder_of hp h fun _ hwalk => handled_pairwise hsingle hwalk

theorem rel_of_lt {α : Type} {R : α → α → Prop} {l : List α} {x y : α} {i j : Nat}
    (h : l.Pairwise R) (hi : l[i]? = some x) (hj : l[j]? = some y) (hlt : i < j) : R x y := by
  obtain ⟨hilen, rfl⟩ := List.getElem?_eq_some_iff.mp hi
  obtain ⟨hjlen, rfl⟩ := List.getElem?_eq_some_iff.mp hj
  exact List.pairwise_iff_getElem.mp h i j hilen hjlen hlt

theorem lt_of_pairwise {α : Type} {R : α → α → Prop} {l : List α} {x y : α} {i j : Nat}
    (h : l.Pairwise R) (hi : l[i]? = some x) (hj : l[j]? = some y) (hne : x ≠ y) (hR : ¬ R y x) :
    i < j := by
  rcases Nat.lt_trichotomy i j with hlt | rfl | hlt
  · exact hlt
  · exact absurd (Option.some.inj (hi.symm.trans hj)) hne
  · exact absurd (rel_of_lt h hj hi hlt) hR

/-- Of two members of a list one stands ahead of the other. -/
theorem sublist_or_sublist {l : List String} {a b : String} (ha : a ∈ l) (hb : b ∈ l) (h : a ≠ b) :
    [a, b].Sublist l ∨ [b, a].Sublist l := by
  obtain ⟨i, hi, rfl⟩ := List.getElem_of_mem ha
  obtain ⟨j, hj, rfl⟩ := List.getElem_of_mem hb
  have hahead : l.Pairwise fun a b => [a, b].Sublist l :=
    List.pairwise_iff_forall_sublist.mpr fun h => h
  rcases Nat.lt_trichotomy i j with hlt | rfl | hlt
  · exact .inl (List.pairwise_iff_getElem.mp hahead i j hi hj hlt)
  · exact absurd rfl h
  · exact .inr (List.pairwise_iff_getElem.mp hahead j i hj hi hlt)

/-- A table that is no partition comes ahead of the tables that refer to it and are no partitions. -/
theorem ahead_of_refers (hacyclic : ∀ name, ¬ Relation.TransGen p.schema.Refers name name)
    (h : p.schema.Refers table referenced)
    (htable : ps.isPartition p.schema.tables table = false)
    (hreferenced : ps.isPartition p.schema.tables referenced = false) :
    Ahead p ps referenced table := by
  have hmem {n : String} (hn : p.schema.tables.contains n) :
      n ∈ (Order.topological p.schema.tables.names p.schema.tableEdges).names :=
    Order.mem_topological.mpr (Entries.contains_iff_mem_names.mp hn)
  obtain ⟨hne, hcontains, t, ht, -⟩ := id h
  rcases sublist_or_sublist (hmem hcontains) (hmem (Entries.contains_of_get? ht)) hne with hs | hs
  · exact .trees hreferenced htable hs .refl .refl
  · exact absurd h (List.pairwise_iff_forall_sublist.mp (sortedTables_pairwise hacyclic) hs)

/-- A foreign key comes after the creation of the table that it refers to exactly if this is its own
table or one that is handled ahead of it, and so it does where neither table is a partition. -/
theorem key_after_creation_iff (hp : p ∈ pairs old new (Text.given target))
    (hsingle : ((Partitions.inSchema new p.schema.name).attachments.map (·.childTable)).Nodup)
    (hattached : ∀ name,
      ¬ Relation.TransGen (Partitions.inSchema new p.schema.name).Attached name name)
    (hacyclic : ∀ name, ¬ Relation.TransGen p.schema.Refers name name)
    (h : (Diff.pieces old new target).result = .ok pieces) {i j : Nat}
    (hi : pieces[i]? = some x) (hx : x.tag = p.tag .table referenced) (hcreates : x.createsTable)
    (hj : pieces[j]? = some y) (hy : AddsKey p table p.schema.name referenced y) :
    (i < j ↔ referenced = table ∨ Ahead p (.inSchema new p.schema.name) referenced table) ∧
      ((Partitions.inSchema new p.schema.name).isPartition p.schema.tables table = false →
        (Partitions.inSchema new p.schema.name).isPartition p.schema.tables referenced = false →
        i < j) := by
  have horder := pieces_inOrder hp hsingle h
  have hne : x ≠ y := by
    rintro rfl
    simp [hy.notCreation] at hcreates
  have hiff : i < j ↔ referenced = table ∨ Ahead p (.inSchema new p.schema.name) referenced table := by
    constructor
    · intro hlt
      obtain ⟨hilen, rfl⟩ := List.getElem?_eq_some_iff.mp hi
      obtain ⟨hjlen, rfl⟩ := List.getElem?_eq_some_iff.mp hj
      have hpair := List.pairwise_iff_getElem.mp horder i j hilen hjlen hlt
      rcases hpair referenced table hx hy.tagged with hahead | ⟨heq, -⟩
      · exact .inr hahead
      · exact .inl heq
    · intro hahead
      -- were the key ahead, its table would come ahead of the one that comes ahead of it
      refine lt_of_pairwise horder hi hj hne fun hback => ?_
      rcases hback table referenced hy.tagged hx with hback | ⟨-, hnone⟩
      · rcases hahead with rfl | hahead
        · exact Ahead.asymm hsingle hattached hback hback
        · exact Ahead.asymm hsingle hattached hahead hback
      · simp [hnone] at hcreates
  refine ⟨hiff, fun htable hreferenced => hiff.mpr ?_⟩
  by_cases hself : referenced = table
  · exact .inl hself
  · have hcontains : p.schema.tables.contains referenced := by
      have hholds := (yields_pieces old new target pieces h x (List.mem_of_getElem? hi)).holds
      rwa [hx, Pair.tag, Catalog.holds, (Pair.get?_of_mem_pairs hp).1, Option.any_some] at hholds
    exact .inr (ahead_of_refers hacyclic (hy.refers hself hcontains) htable hreferenced)

/-- What is recent is one partition of the events, and each of its rows names a venue. -/
def calendarSchema : Schema where
  name := "calendar"
  tables :=
    ((Entries.empty.put "events"
      { schema := "calendar"
        name := "events"
        columns := [{ name := "place", position := (1 : Int), dataType := "integer" }]
        isPartitioned := true
        partitionStrategy := "list"
        partitionKey := "place" }).put "recent"
      { schema := "calendar"
        name := "recent"
        columns := [{ name := "place", position := (1 : Int), dataType := "integer" }]
        constraints := Entries.empty.put "location"
          { schema := "calendar"
            table := "recent"
            name := "location"
            kind := .foreignKey
            columns := [{ name := "place", position := (1 : Int) }]
            referencedTable := "venues"
            referencedColumns := [{ name := "id", position := (1 : Int) }] } }).put "venues"
      { schema := "calendar"
        name := "venues"
        columns := [{ name := "id", position := (1 : Int), dataType := "integer" }] }

def calendar : Catalog where
  schemas := Entries.empty.put "calendar" calendarSchema
  partitions := [{ parentSchema := "calendar", parentTable := "events", childSchema := "calendar",
                   childTable := "recent", bound := "DEFAULT" }]

def calendarPair : Pair where
  key := "calendar"
  schema := calendarSchema
  old := none
  target := none

def calendarPieces : List Piece :=
  [{ tag := .schema "calendar", kind := .schema, name := "calendar", schema := "-",
     text := "CREATE SCHEMA calendar;" },
   { tag := calendarPair.tag .table "events", kind := .table, name := "events",
     schema := "calendar",
     text := "CREATE TABLE calendar.events (\n    place integer\n)\nPARTITION BY LIST (place);" },
   { tag := calendarPair.tag .table "recent", kind := .table, name := "recent",
     schema := "calendar", text := "CREATE TABLE calendar.recent (\n    place integer\n);" },
   { tag := calendarPair.tag .table "recent", kind := .tableAttach, name := "recent",
     schema := "calendar",
     text := "ALTER TABLE calendar.events ATTACH PARTITION calendar.recent DEFAULT;" },
   { tag := calendarPair.tag .table "recent", kind := .constraint, name := "location",
     schema := "calendar",
     text := "ALTER TABLE calendar.recent ADD CONSTRAINT location FOREIGN KEY (place) " ++
       "REFERENCES calendar.venues (id);" },
   { tag := calendarPair.tag .table "venues", kind := .table, name := "venues",
     schema := "calendar", text := "CREATE TABLE calendar.venues (\n    id integer\n);" }]

theorem calendarSchema_refers {table referenced : String}
    (h : calendarSchema.Refers table referenced) : table = "recent" ∧ referenced = "venues" := by
  have hedges : calendarSchema.tableEdges = [⟨"venues", "recent"⟩] := by decide +kernel
  have hedge := Schema.mem_tableEdges_iff.mpr h
  rw [hedges, List.mem_singleton, Order.Edge.mk.injEq] at hedge
  exact hedge.symm

theorem calendar_attached {parent name : String}
    (h : (Partitions.inSchema calendar "calendar").Attached parent name) :
    parent = "events" ∧ name = "recent" := by
  obtain ⟨a, ha, hparent, hchild⟩ := h
  have hone : (Partitions.inSchema calendar "calendar").attachments = calendar.partitions := by
    decide +kernel
  rw [hone, calendar, List.mem_singleton] at ha
  subst ha
  simp_all

theorem calendar_key_early :
    ∃ x y, calendarPieces[5]? = some x ∧ x.tag = calendarPair.tag .table "venues" ∧
      x.createsTable ∧ calendarPieces[4]? = some y ∧
      AddsKey calendarPair "recent" "calendar" "venues" y ∧
      ¬ ("venues" = "recent" ∨ Ahead calendarPair (.inSchema calendar "calendar") "venues" "recent") := by
  have hp : calendarPair ∈ pairs {} calendar (Text.given none) := by decide +kernel
  have hpieces : (Diff.pieces {} calendar none).result = .ok calendarPieces := by decide +kernel
  have hattached := Order.acyclic_of_single (by decide) fun _ _ => calendar_attached
  have hacyclic := Order.acyclic_of_single (by decide) fun _ _ => calendarSchema_refers
  have hkey : AddsKey calendarPair "recent" "calendar" "venues" calendarPieces[4] :=
    ⟨rfl, rfl, _, _, rfl, rfl, rfl, by decide +kernel, rfl, by decide +kernel⟩
  refine ⟨_, _, rfl, rfl, by decide +kernel, rfl, hkey, fun hahead => ?_⟩
  have hlt := (key_after_creation_iff hp (by decide +kernel) hattached hacyclic hpieces
    (i := 5) (j := 4) rfl rfl (by decide +kernel) rfl hkey).1.mpr hahead
  exact absurd hlt (by decide)

/-! ## Between schemas -/

/-- The schemas of the two pieces' tables come in the order of their names. -/
def SchemasAscend (x y : Piece) : Prop :=
  ∀ s s' a b, x.tag = .object s .table a → y.tag = .object s' .table b → s ≤ s'

theorem pairwise_schemasAscend {items : List Pair} (hitems : items.Pairwise fun p q => p.key < q.key)
    (h : (collect items (tables new)).result = .ok pieces) : pieces.Pairwise SchemasAscend := by
  have hkey {p : Pair} {own : List Piece} (hown : (tables new p).result = .ok own) {x : Piece}
      (hx : x ∈ own) {s n : String} (htag : x.tag = .object s .table n) : s = p.key := by
    obtain ⟨name, -, hname, -⟩ := yields_tables new p own hown x hx
    exact (Tag.object.inj (hname.symm.trans htag)).1.symm
  refine pairwise_collect hitems h (fun p _ own hown => ?_) ?_
  · refine List.pairwise_of_forall_mem_list fun x hx y hy s s' a b hs hs' => ?_
    rw [hkey hown hx hs, hkey hown hy hs']
  · intro p q hlt own other hown hother x hx y hy s s' a b hs hs'
    rw [hkey hown hx hs, hkey hother hy hs']
    exact hlt.le

/-- What is written for tables follows the order of the schemas' names. -/
theorem pieces_schemasAscend (h : (Diff.pieces old new target).result = .ok pieces) :
    pieces.Pairwise SchemasAscend := by
  obtain ⟨written, before, after, hwritten, rfl, hothers⟩ := exists_pass .table h
  refine pairwise_between (pairwise_schemasAscend (pairwise_keys_pairs old new _) hwritten) hothers ?_
  intro x y hxy s s' a b hs hs'
  rcases hxy with hx | hy
  · simp [hs, Tag.objectKind?] at hx
  · simp [hs', Tag.objectKind?] at hy

/-- A foreign key comes after the creation of a table of another schema that it refers to exactly if
the other schema's name is the smaller one. -/
theorem key_across_schemas_iff (hother : q.key ≠ p.key)
    (h : (Diff.pieces old new target).result = .ok pieces) {i j : Nat}
    (hi : pieces[i]? = some x) (hx : x.tag = q.tag .table referenced) (hcreates : x.createsTable)
    (hj : pieces[j]? = some y) (hy : AddsKey p table q.schema.name referenced y) :
    i < j ↔ q.key < p.key := by
  have horder := pieces_schemasAscend h
  have hne : x ≠ y := by
    rintro rfl
    simp [hy.notCreation] at hcreates
  constructor
  · intro hlt
    obtain ⟨hilen, rfl⟩ := List.getElem?_eq_some_iff.mp hi
    obtain ⟨hjlen, rfl⟩ := List.getElem?_eq_some_iff.mp hj
    have hle := List.pairwise_iff_getElem.mp horder i j hilen hjlen hlt _ _ _ _ hx hy.tagged
    exact lt_of_le_of_ne hle hother
  · intro hlt
    refine lt_of_pairwise horder hi hj hne fun hback => ?_
    exact absurd (hback _ _ _ _ hy.tagged hx) (not_le_of_gt hlt)

/-- The people of the records are kept in another schema. -/
def recordsSchema : Schema where
  name := "records"
  tables := Entries.empty.put "notes"
    { schema := "records"
      name := "notes"
      columns := [{ name := "author", position := (1 : Int), dataType := "integer" }]
      constraints := Entries.empty.put "writer"
        { schema := "records"
          table := "notes"
          name := "writer"
          kind := .foreignKey
          columns := [{ name := "author", position := (1 : Int) }]
          referencedSchema := "staff"
          referencedTable := "people" } }

def staffSchema : Schema where
  name := "staff"
  tables := Entries.empty.put "people"
    { schema := "staff"
      name := "people"
      columns := [{ name := "id", position := (1 : Int), dataType := "integer" }] }

def archive : Catalog where
  schemas := (Entries.empty.put "records" recordsSchema).put "staff" staffSchema

def recordsPair : Pair where
  key := "records"
  schema := recordsSchema
  old := none
  target := none

def staffPair : Pair where
  key := "staff"
  schema := staffSchema
  old := none
  target := none

def archivePieces : List Piece :=
  [{ tag := .schema "records", kind := .schema, name := "records", schema := "-",
     text := "CREATE SCHEMA records;" },
   { tag := .schema "staff", kind := .schema, name := "staff", schema := "-",
     text := "CREATE SCHEMA staff;" },
   { tag := recordsPair.tag .table "notes", kind := .table, name := "notes", schema := "records",
     text := "CREATE TABLE records.notes (\n    author integer\n);" },
   { tag := recordsPair.tag .table "notes", kind := .constraint, name := "writer",
     schema := "records",
     text := "ALTER TABLE records.notes ADD CONSTRAINT writer FOREIGN KEY (author) " ++
       "REFERENCES staff.people;" },
   { tag := staffPair.tag .table "people", kind := .table, name := "people", schema := "staff",
     text := "CREATE TABLE staff.people (\n    id integer\n);" }]

theorem archive_key_early :
    ∃ x y, archivePieces[4]? = some x ∧ x.tag = staffPair.tag .table "people" ∧ x.createsTable ∧
      archivePieces[3]? = some y ∧ AddsKey recordsPair "notes" "staff" "people" y ∧
      ¬ staffPair.key < recordsPair.key := by
  have hpieces : (Diff.pieces {} archive none).result = .ok archivePieces := by decide +kernel
  have hkey : AddsKey recordsPair "notes" "staff" "people" archivePieces[3] :=
    ⟨rfl, rfl, _, _, rfl, rfl, rfl, by decide +kernel, rfl, by decide +kernel⟩
  refine ⟨_, _, rfl, rfl, by decide +kernel, rfl, hkey, fun hless => ?_⟩
  have hlt := (key_across_schemas_iff (p := recordsPair) (q := staffPair) (by decide) hpieces
    (i := 4) (j := 3) rfl rfl (by decide +kernel) rfl hkey).mpr hless
  exact absurd hlt (by decide)

end Diff
end SchemaScript
