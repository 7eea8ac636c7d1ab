import SchemaScript.Proofs.Effect.Gives
import SchemaScript.Proofs.Inspect.Rows

/-!
# Parts in any order

Asked for in any order, the parts of a catalog come out the same (`load_any_order`): what is loaded for one part
is seen by no other, and all of them only look at which tables there are.
-/

namespace SchemaScript.Inspect

variable {names names' : List String} {answers : Query → List Row} {parts order order' : List Part} {p q : Part}
  {c c' d d' : Catalog}

theorem exists_of_map_eq_ok {ε α β : Type} {x : Except ε α} {f : α → β} {b : β} (h : x.map f = .ok b) :
    ∃ a, x = .ok a ∧ f a = b := by
  cases x with
  | error e => contradiction
  | ok a => exact ⟨a, rfl, Except.ok.inj h⟩

/-! ## Asking for parts -/

/-- Asks for parts, one after the other, where `answers` has the rows of each query. -/
def loadParts (names : List String) (answers : Query → List Row) (c : Catalog) (parts : List Part) :
    Logged Catalog :=
  let queries := parts.flatMap Part.queries
  (ask names c queries (queries.map answers)).logged

/-- A row with the query that it answers. -/
abbrev Told := Query × Row

/-- What a row does, with what it tells. -/
def Told.read (c : Catalog) (t : Told) : Logged Catalog :=
  t.1.row c t.2

def Told.run (c : Catalog) (told : Told) : Except Fault Catalog :=
  (told.1.row c told.2).result

/-- The rows that count, query by query. -/
def told (answers : Query → List Row) (queries : List Query) : List Told :=
  queries.flatMap fun query => (query.counted (answers query)).map (query, ·)

theorem mem_told {queries : List Query} {t : Told} (h : t ∈ told answers queries) : t.1 ∈ queries := by
  obtain ⟨query, hquery, hrow⟩ := List.mem_flatMap.mp h
  obtain ⟨row, -, rfl⟩ := List.mem_map.mp hrow
  exact hquery

def Loading.logged (loading : Loading) : Logged Catalog :=
  match loading.fault with
  | some fault => ⟨loading.log, .error fault⟩
  | none => ⟨loading.log, .ok loading.catalog⟩

theorem logged_absorb (query : Query) (rows : List Row) (c : Catalog) :
    (rows.map (query, ·)).foldlM Told.read c = (absorb query.row c rows).logged := by
  induction rows generalizing c with
  | nil => rfl
  | cons row rows ih =>
    have hread : Told.read c (query, row) = query.row c row := rfl
    rw [List.map_cons, List.foldlM_cons, absorb, hread]
    dsimp only
    cases hrow : (query.row c row).result with
    | error fault => rw [Logged.bind_of_error hrow]; rfl
    | ok next =>
      rw [Logged.bind_of_ok hrow, ih next]
      unfold Loading.logged
      dsimp only
      cases (absorb query.row next rows).fault <;> rfl

theorem logged_ask (names : List String) (answers : Query → List Row) (queries : List Query) (c : Catalog) :
    (ask names c queries (queries.map answers)).logged = (told answers queries).foldlM Told.read c := by
  induction queries generalizing c with
  | nil => rfl
  | cons query queries ih =>
    rw [told, List.flatMap_cons, List.foldlM_append, logged_absorb, List.map_cons, ask, List.headD_cons,
      List.tail_cons, Query.load]
    unfold Loading.logged
    dsimp only
    cases hfault : (absorb query.row c (query.counted (answers query))).fault with
    | some fault => rw [Logged.bind_of_error rfl]; rfl
    | none =>
      rw [Logged.bind_of_ok rfl]
      dsimp only
      have hrest := ih (absorb query.row c (query.counted (answers query))).catalog
      rw [told] at hrest
      rw [← hrest]
      unfold Inspection.logged
      dsimp only
      cases (ask names _ queries (queries.map answers)).fault <;> rfl

theorem result_ask (names : List String) (answers : Query → List Row) (queries : List Query) (c : Catalog) :
    (ask names c queries (queries.map answers)).logged.result = (told answers queries).foldlM Told.run c := by
  rw [logged_ask]
  exact Logged.result_foldlM Told.read _ c

theorem result_loadParts (names : List String) (answers : Query → List Row) (c : Catalog) (parts : List Part) :
    (loadParts names answers c parts).result = (told answers (parts.flatMap Part.queries)).foldlM Told.run c :=
  result_ask ..

theorem result_loadParts_cons (names : List String) (answers : Query → List Row) (c : Catalog) (p : Part)
    (parts : List Part) :
    (loadParts names answers c (p :: parts)).result =
      (loadParts names answers c [p]).result >>= fun c' => (loadParts names answers c' parts).result := by
  simp only [result_loadParts, List.flatMap_cons, List.flatMap_nil, List.append_nil, told, List.flatMap_append,
    List.foldlM_append]

/-! ## The rows of one part -/

/-- What the rows of one part leave as it is, and the schemas that they create. -/
structure Keeps (p : Part) (created : String → Prop) (c c' : Catalog) : Prop where
  ground : Ground c c'
  others : ∀ q, q ≠ p → q.AgreeOn c c'
  schemas : ∀ name, name ∈ c'.schemas.names ↔ name ∈ c.schemas.names ∨ created name

/-- One of the rows needs the schema. -/
def Creates (rows : List Told) (name : String) : Prop :=
  ∃ t ∈ rows, t.1.created? t.2 = some name

variable {rows : List Told}

theorem keeps_rows (hrows : ∀ t ∈ rows, t.1 ∈ p.queries) (h : rows.foldlM Told.run c = .ok c') :
    Keeps p (Creates rows) c c' := by
  induction rows generalizing c with
  | nil =>
    obtain rfl := Except.ok.inj h
    exact ⟨.refl c, fun q _ => .refl q c, fun name => by simp [Creates]⟩
  | cons t rows ih =>
    rw [List.foldlM_cons] at h
    obtain ⟨next, hnext, hrest⟩ := exists_of_bind_eq_ok h
    obtain ⟨change, hchange⟩ := confined_row (hrows t List.mem_cons_self) t.2
    obtain ⟨hground, hothers⟩ := Change.keeps ((hchange c).1.symm.trans hnext)
    have hkeeps := ih (fun u hu => hrows u (List.mem_cons_of_mem t hu)) hrest
    refine ⟨hground.trans hkeeps.ground, fun q hq => (hothers q hq).trans (hkeeps.others q hq), fun name => ?_⟩
    rw [hkeeps.schemas, (hchange c).2 next hnext name, or_assoc]
    simp [Creates]

/-- Catalogs that agree on the part get the same from its rows; only parts of tables look at which tables there
are. -/
theorem agreeOn_rows (hrows : ∀ t ∈ rows, t.1 ∈ p.queries) (h : rows.foldlM Told.run c = .ok c')
    (hground : p.IsOfTable → Ground c d) (hp : p.AgreeOn c d) :
    ∃ d', rows.foldlM Told.run d = .ok d' ∧ p.AgreeOn c' d' := by
  induction rows generalizing c d with
  | nil =>
    obtain rfl := Except.ok.inj h
    exact ⟨d, rfl, hp⟩
  | cons t rows ih =>
    rw [List.foldlM_cons] at h
    obtain ⟨next, hnext, hrest⟩ := exists_of_bind_eq_ok h
    obtain ⟨change, hchange⟩ := confined_row (hrows t List.mem_cons_self) t.2
    obtain ⟨next', hnext', hp'⟩ := Change.agrees ((hchange c).1.symm.trans hnext) hground hp
    have hrun : Told.run d t = .ok next' := (hchange d).1.trans hnext'
    have hground' : p.IsOfTable → Ground next next' := fun hp =>
      (Change.keeps ((hchange c).1.symm.trans hnext)).1.symm.trans ((hground hp).trans (Change.keeps hnext').1)
    rw [List.foldlM_cons, hrun]
    exact ih (fun u hu => hrows u (List.mem_cons_of_mem t hu)) hrest hground' hp'

/-! ## Several parts -/

/-- The rows of a part. -/
def Part.told (p : Part) (answers : Query → List Row) : List Told :=
  Inspect.told answers p.queries

theorem keeps_loadParts (h : (loadParts names answers c [p]).result = .ok c') :
    Keeps p (Creates (p.told answers)) c c' := by
  rw [result_loadParts, List.flatMap_singleton] at h
  exact keeps_rows (fun t => mem_told) h

theorem agreeOn_loadParts (names' : List String) (h : (loadParts names answers c [p]).result = .ok c')
    (hground : p.IsOfTable → Ground c d) (hp : p.AgreeOn c d) :
    ∃ d', (loadParts names' answers d [p]).result = .ok d' ∧ p.AgreeOn c' d' := by
  rw [result_loadParts, List.flatMap_singleton] at h ⊢
  exact agreeOn_rows (fun t => mem_told) h hground hp

/-- Each part is as if it had been loaded alone, and all else is as it was. -/
structure Loaded (answers : Query → List Row) (parts : List Part) (c c' : Catalog) : Prop where
  ground : Ground c c'
  others : ∀ q, q ∉ parts → q.AgreeOn c c'
  alone : ∀ p ∈ parts, ∃ d, (loadParts [] answers c [p]).result = .ok d ∧ p.AgreeOn d c'
  schemas : ∀ name, name ∈ c'.schemas.names ↔
    name ∈ c.schemas.names ∨ ∃ p ∈ parts, Creates (p.told answers) name

theorem loaded_of_ok (hnodup : parts.Nodup) (h : (loadParts names answers c parts).result = .ok c') :
    Loaded answers parts c c' := by
  induction parts generalizing c with
  | nil =>
    rw [result_loadParts] at h
    obtain rfl := Except.ok.inj h
    exact ⟨.refl c, fun q _ => .refl q c, fun p hp => by contradiction, fun name => by simp⟩
  | cons p parts ih =>
    obtain ⟨hp, hnodup⟩ := List.nodup_cons.mp hnodup
    rw [result_loadParts_cons] at h
    obtain ⟨next, hnext, hrest⟩ := exists_of_bind_eq_ok h
    have hkeeps := keeps_loadParts hnext
    have hloaded := ih hnodup hrest
    refine ⟨hkeeps.ground.trans hloaded.ground, fun q hq => ?_, fun q hq => ?_, fun name => ?_⟩
    · obtain ⟨hqp, hq⟩ := not_or.mp (List.mem_cons.not.mp hq)
      exact (hkeeps.others q hqp).trans (hloaded.others q hq)
    · rcases List.mem_cons.mp hq with rfl | hq
      · obtain ⟨d, hd, hagree⟩ := agreeOn_loadParts [] hnext (fun _ => .refl c) (.refl q c)
        exact ⟨d, hd, hagree.symm.trans (hloaded.others q hp)⟩
      · have hne : q ≠ p := fun heq => hp (heq ▸ hq)
        obtain ⟨d, hd, hagree⟩ := hloaded.alone q hq
        obtain ⟨d', hd', hagree'⟩ :=
          agreeOn_loadParts [] hd (fun _ => hkeeps.ground.symm) (hkeeps.others q hne).symm
        exact ⟨d', hd', hagree'.symm.trans hagree⟩
    · rw [hloaded.schemas, hkeeps.schemas, or_assoc]
      simp

/-- No part is in another's way. -/
theorem ok_of_alone (hnodup : parts.Nodup)
    (h : ∀ p ∈ parts, ∃ d, (loadParts [] answers c [p]).result = .ok d) :
    ∃ c', (loadParts names answers c parts).result = .ok c' := by
  induction parts generalizing c with
  | nil => exact ⟨c, rfl⟩
  | cons p parts ih =>
    obtain ⟨hp, hnodup⟩ := List.nodup_cons.mp hnodup
    obtain ⟨d, hd⟩ := h p List.mem_cons_self
    obtain ⟨next, hnext, -⟩ := agreeOn_loadParts names hd (fun _ => .refl c) (.refl p c)
    have hkeeps := keeps_loadParts hnext
    rw [result_loadParts_cons, hnext]
    refine ih hnodup fun q hq => ?_
    obtain ⟨e, he⟩ := h q (List.mem_cons_of_mem p hq)
    have hne : q ≠ p := fun heq => hp (heq ▸ hq)
    obtain ⟨e', he', -⟩ := agreeOn_loadParts [] he (fun _ => hkeeps.ground) (hkeeps.others q hne)
    exact ⟨e', he'⟩

theorem Loaded.rearranged (h : Loaded answers order c c') (h' : Loaded answers order' c d')
    (hall : ∀ p, p ∈ order) (hall' : ∀ p, p ∈ order') : Rearranged c' d' := by
  refine (h.ground.symm.trans h'.ground).rearranged (fun p => ?_) fun name => ?_
  · obtain ⟨d, hd, hagree⟩ := h.alone p (hall p)
    obtain ⟨e, he, hagree'⟩ := h'.alone p (hall' p)
    obtain rfl := Except.ok.inj (hd.symm.trans he)
    exact hagree.symm.trans hagree'
  · rw [h.schemas, h'.schemas]
    simp only [hall, hall']

/-! ## Rows about tables that are not there -/

/-- The query is about what belongs to tables. -/
def Query.isOfTable : Query → Bool
  | .columns | .constraints | .indexes | .triggers | .policies => true
  | _ => false

/-- The row is about a table that the catalog does not have. -/
def isStray (c : Catalog) (query : Query) (row : Row) : Bool :=
  query.isOfTable &&
    match row with
    | schema :: table :: _ => (c.findTable? (Cell.name schema) (Cell.name table)).isNone
    | _ => false

/-- The rows but for those about tables that the catalog does not have. -/
def withoutStrays (c : Catalog) (answers : Query → List Row) (query : Query) : List Row :=
  (answers query).filter fun row => !isStray c query row

/-- Rows of the right width change a table, which their first two cells name. -/
def IsAtTable (step : Catalog → Row → Logged Catalog) : Prop :=
  ∀ c row, (∃ e, step c row = .fail e) ∨
    ∃ schema table rest f, row = schema :: table :: rest ∧ step c row = atTable c schema table f

theorem isAtTable_row {query : Query} (h : query.isOfTable) : IsAtTable query.row := by
  intro c row
  cases query with
  | columns =>
    change (∃ e, columnRow c row = _) ∨ ∃ _ _ _ _, _ ∧ columnRow c row = _
    fun_cases columnRow c row with
    | case1 => exact .inr ⟨_, _, _, _, rfl, rfl⟩
    | case2 => exact .inl ⟨_, rfl⟩
  | constraints =>
    change (∃ e, constraintRow c row = _) ∨ ∃ _ _ _ _, _ ∧ constraintRow c row = _
    fun_cases constraintRow c row with
    | case1 => exact .inr ⟨_, _, _, _, rfl, rfl⟩
    | case2 => exact .inl ⟨_, rfl⟩
  | indexes =>
    change (∃ e, indexRow c row = _) ∨ ∃ _ _ _ _, _ ∧ indexRow c row = _
    fun_cases indexRow c row with
    | case1 => exact .inr ⟨_, _, _, _, rfl, rfl⟩
    | case2 => exact .inl ⟨_, rfl⟩
  | triggers =>
    change (∃ e, triggerRow c row = _) ∨ ∃ _ _ _ _, _ ∧ triggerRow c row = _
    fun_cases triggerRow c row with
    | case1 => exact .inr ⟨_, _, _, _, rfl, rfl⟩
    | case2 => exact .inl ⟨_, rfl⟩
  | policies =>
    change (∃ e, policyRow c row = _) ∨ ∃ _ _ _ _, _ ∧ policyRow c row = _
    fun_cases policyRow c row with
    | case1 => exact .inr ⟨_, _, _, _, rfl, rfl⟩
    | case2 => exact .inl ⟨_, rfl⟩
  | _ => contradiction

theorem run_stray {t : Told} (h : t.run c = .ok c') (hstray : isStray c t.1 t.2) : c' = c := by
  obtain ⟨query, row⟩ := t
  obtain ⟨hquery, hmissing⟩ := Bool.and_eq_true_iff.mp hstray
  unfold Told.run at h
  rcases isAtTable_row hquery c row with ⟨e, hfail⟩ | ⟨schema, table, rest, f, rfl, hrow⟩
  · rw [hfail] at h
    contradiction
  · rw [hrow, atTable, Option.isNone_iff_eq_none.mp hmissing] at h
    exact (Except.ok.inj h).symm

theorem isStray_congr (h : Ground c d) (query : Query) (row : Row) : isStray c query row = isStray d query row := by
  unfold isStray
  split
  · next schema table _ =>
    have hmap := congrArg Option.isNone (h.findTable?_map (Cell.name schema) (Cell.name table))
    rw [Option.isNone_map, Option.isNone_map] at hmap
    rw [hmap]
  · rfl

theorem filter_stray {base : Catalog} (hrows : ∀ t ∈ rows, ∃ p : Part, t.1 ∈ p.queries)
    (hground : Ground base c) (h : rows.foldlM Told.run c = .ok c') :
    (rows.filter fun t => !isStray base t.1 t.2).foldlM Told.run c = .ok c' := by
  induction rows generalizing c with
  | nil => exact h
  | cons t rows ih =>
    rw [List.foldlM_cons] at h
    obtain ⟨next, hnext, hrest⟩ := exists_of_bind_eq_ok h
    obtain ⟨p, hp⟩ := hrows t List.mem_cons_self
    obtain ⟨change, hchange⟩ := confined_row hp t.2
    have hground' := hground.trans (Change.keeps ((hchange c).1.symm.trans hnext)).1
    have hih := ih (fun u hu => hrows u (List.mem_cons_of_mem t hu)) hground' hrest
    by_cases hstray : isStray base t.1 t.2
    · rw [List.filter_cons_of_neg (by simpa using hstray)]
      rw [isStray_congr hground] at hstray
      rwa [run_stray hnext hstray] at hih
    · rw [List.filter_cons_of_pos (by simpa using hstray), List.foldlM_cons, hnext]
      exact hih

theorem told_withoutStrays (c : Catalog) (answers : Query → List Row) (queries : List Query) :
    told (withoutStrays c answers) queries = (told answers queries).filter fun t => !isStray c t.1 t.2 := by
  have hcounted (query : Query) : query.counted (withoutStrays c answers query) =
      (query.counted (answers query)).filter fun row => !isStray c query row := by
    unfold withoutStrays
    cases query with
    | version => simp [Query.counted, isStray, Query.isOfTable]
    | _ => rfl
  simp only [told, hcounted, List.filter_flatMap, List.filter_map]
  rfl

/-! ## All parts -/

/-- In whatever order the parts are asked for, the catalog is the same up to the order of its schemas. The rows of
one part change that part alone and create the schemas that they need. For parts of tables, rows about tables that
are not there might as well be missing; for other parts it makes no difference which tables there are. -/
theorem load_any_order (horder : order.Perm Part.all) (horder' : order'.Perm Part.all)
    (h : (loadParts names answers c order).result = .ok c') :
    (∃ d, (loadParts names' answers c order').result = .ok d ∧ Rearranged c' d) ∧
    (∀ p, ∃ d, (loadParts names answers c [p]).result = .ok d ∧ Keeps p (Creates (p.told answers)) c d) ∧
    (loadParts names (withoutStrays c answers) c order).result = .ok c' ∧
    ∀ p d, ¬ p.IsOfTable → p.AgreeOn c d →
      ∃ d', (loadParts names answers d [p]).result = .ok d' ∧ p.AgreeOn c' d' := by
  have hall (p : Part) : p ∈ order := horder.mem_iff.mpr p.mem_all
  have hall' (p : Part) : p ∈ order' := horder'.mem_iff.mpr p.mem_all
  have hloaded := loaded_of_ok (horder.nodup_iff.mpr Part.nodup_all) h
  refine ⟨?_, fun p => ?_, ?_, fun p d hp hd => ?_⟩
  · have hok : ∃ d, (loadParts names' answers c order').result = .ok d :=
      ok_of_alone (horder'.nodup_iff.mpr Part.nodup_all) fun p _ =>
        (hloaded.alone p (hall p)).imp fun _ h => h.1
    obtain ⟨d, hd⟩ := hok
    have hloaded' := loaded_of_ok (horder'.nodup_iff.mpr Part.nodup_all) hd
    exact ⟨d, hd, hloaded.rearranged hloaded' hall hall'⟩
  · obtain ⟨d, hd, -⟩ := hloaded.alone p (hall p)
    obtain ⟨e, he, -⟩ := agreeOn_loadParts names hd (fun _ => .refl c) (.refl p c)
    exact ⟨e, he, keeps_loadParts he⟩
  · rw [result_loadParts] at h ⊢
    rw [told_withoutStrays]
    refine filter_stray (fun t ht => ?_) (.refl c) h
    obtain ⟨p, -, hp⟩ := List.mem_flatMap.mp (mem_told ht)
    exact ⟨p, hp⟩
  · obtain ⟨e, he, hagree⟩ := hloaded.alone p (hall p)
    obtain ⟨d', hd', hagree'⟩ := agreeOn_loadParts names he (fun h => absurd h hp) hd
    exact ⟨d', hd', hagree.symm.trans hagree'⟩

/-- A column of a table that is there and one of a table that is not, schemas that come in with an extension, a
sequence, a composite type and two routines of one name, and a partition of a table that is not there. -/
def shopAnswers : Query → List Row
  | .schemas => [[.text "public", .text "postgres"]]
  | .extensions => [[.text "citext", .text "public", .text "1.6", .null]]
  | .tables => [[.text "public", .text "orders", .text "r", .text "p", .null, .flag false, .null]]
  | .columns =>
    ["orders", "invoices"].map fun table =>
      [.text "public", .text table, .text "total", .integer 1, .null, .text "NO", .text "numeric",
        .text "pg_catalog", .text "numeric", .null, .integer 10, .integer 2, .null, .text "NO", .null, .null,
        .null, .null, .null, .text "NO"]
  | .sequences =>
    [[.text "audit", .text "entry_id", .text "bigint", .integer 1, .integer 1, .integer 1, .null, .flag false,
      .text "entries", .text "id", .null]]
  | .routines =>
    ["message text", "message json"].map fun arguments =>
      [.text "tools", .text "note", .text "p", .text "sql", .text arguments, .text arguments, .null,
        .text "select 1", .text "v", .flag false, .flag false, .null]
  | .types =>
    [[.text "public", .text "price", .text "c", .null, .null, .null, .flag false, .null]]
  | .members => [[.text "public", .text "price", .text "amount", .text "numeric", .integer 1]]
  | .partitions =>
    [[.text "public", .text "visits", .text "public", .text "visits_2024", .text "r", .text "DEFAULT"]]
  | _ => []

/-- What is there once the tables are. -/
def shop : Catalog :=
  (Query.tables.load {} (shopAnswers .tables)).catalog

theorem shop_in_two_orders :
    ∃ c d, (loadParts [] shopAnswers shop Part.all).result = .ok c ∧
      (loadParts ["public"] shopAnswers shop Part.all.reverse).result = .ok d ∧ Rearranged c d ∧
      c.schemas.names = ["public", "audit", "tools"] ∧ d.schemas.names = ["public", "tools", "audit"] ∧
      (loadParts [] (withoutStrays shop shopAnswers) shop Part.all).result = .ok c := by
  have hok : (loadParts [] shopAnswers shop Part.all).result.map (·.schemas.names) =
      .ok ["public", "audit", "tools"] := by
    decide +kernel
  have hreverse : (loadParts ["public"] shopAnswers shop Part.all.reverse).result.map (·.schemas.names) =
      .ok ["public", "tools", "audit"] := by
    decide +kernel
  obtain ⟨c, hc, hnames⟩ := exists_of_map_eq_ok hok
  have hany : (∃ d, (loadParts ["public"] shopAnswers shop Part.all.reverse).result = .ok d ∧
      Rearranged c d) ∧ _ :=
    load_any_order (.refl Part.all) (List.reverse_perm Part.all) hc
  obtain ⟨⟨d, hd, hsame⟩, -, hstrays, -⟩ := hany
  rw [hd] at hreverse
  exact ⟨c, d, hc, hd, hsame, hnames, Except.ok.inj hreverse, hstrays⟩

/-- A partition is taken up though neither of its tables is there. -/
theorem partition_without_tables :
    shop.findTable? "public" "visits" = none ∧ shop.findTable? "public" "visits_2024" = none ∧
      shop.partitions = [] ∧
      (loadParts [] shopAnswers shop [.partitions]).result.map (·.partitions.length) = .ok 1 := by
  decide +kernel

end SchemaScript.Inspect
