import SchemaScript.Ignore.Rules
import SchemaScript.Proofs.Catalog.Normal
import SchemaScript.Proofs.Script.Addition
import SchemaScript.Proofs.Script.Passes
import SchemaScript.Proofs.Sql.TypeName

/-!
# What rules leave of a catalog

A name stays if no plain pattern matches it or an exception does, whatever the order of the patterns. So leaving
objects out twice leaves out no more, and since both catalogs of a script are asked for the same names, it does not
matter whether the older one is filtered as well (`ignoring_keeps`).
-/

namespace SchemaScript

/-! ## Patterns -/

namespace Ignore

variable {patterns patterns' : List String} {name pattern e : String}

/-- No plain pattern matches the name, or the rest of a pattern after `!` does. -/
def Keeps (patterns : List String) (name : String) : Prop :=
  (∀ p ∈ patterns, (∀ e, p ≠ "!" ++ e) → matchesName p name = false) ∨
    ∃ e, "!" ++ e ∈ patterns ∧ matchesName e name

theorem exception?_eq_some_iff : exception? pattern = some e ↔ pattern = "!" ++ e := by
  unfold exception?
  rw [Option.map_eq_some_iff]
  simp only [Sql.after?_eq_some_iff]
  constructor
  · rintro ⟨rest, hrest, rfl⟩
    exact String.toList_inj.mp (by simpa using hrest)
  · rintro rfl
    exact ⟨e.toList, by simp, by simp⟩

theorem isIgnored_eq_false_iff : isIgnored name patterns = false ↔ Keeps patterns name := by
  have hplain (p : String) : (exception? p).isNone ↔ ∀ e, p ≠ "!" ++ e := by
    rw [Option.isNone_iff_eq_none, Option.eq_none_iff_forall_ne_some]
    exact forall_congr' fun e => not_congr exception?_eq_some_iff
  have hexcepted : (patterns.any fun p => (exception? p).any fun e => matchesName e name) = true ↔
      ∃ e, "!" ++ e ∈ patterns ∧ matchesName e name := by
    simp only [List.any_eq_true, Option.any_eq_true, exception?_eq_some_iff]
    constructor
    · rintro ⟨p, hp, e, rfl, hmatch⟩
      exact ⟨e, hp, hmatch⟩
    · rintro ⟨e, he, hmatch⟩
      exact ⟨_, he, e, rfl, hmatch⟩
  rw [isIgnored, Bool.and_eq_false_iff, Bool.not_eq_false', hexcepted, List.any_eq_false]
  refine or_congr (forall_congr' fun p => forall_congr' fun _ => ?_) Iff.rfl
  rw [Bool.and_eq_true, hplain, not_and, Bool.not_eq_true]

/-- Neither the order of the patterns nor their repetition counts. -/
theorem isIgnored_congr (h : ∀ p, p ∈ patterns ↔ p ∈ patterns') :
    isIgnored name patterns = isIgnored name patterns' := by
  rw [Bool.eq_iff_iff, ← not_iff_not, Bool.not_eq_true, Bool.not_eq_true, isIgnored_eq_false_iff,
    isIgnored_eq_false_iff]
  unfold Keeps
  simp only [h]

end Ignore

/-! ## Catalogs -/

/-- The entries under the names that the patterns keep, as they were and in their order. -/
structure Entries.KeptBy {α : Type} (patterns : List String) (entries kept : Entries α) : Prop where
  sublist : kept.pairs.Sublist entries.pairs
  get?_iff : ∀ name value,
    kept.get? name = some value ↔ entries.get? name = some value ∧ Ignore.Keeps patterns name

/-- The objects of six kinds are those that the rules keep, and the rest is as it was. -/
structure Schema.KeptBy (rules : IgnoreRules) (s kept : Schema) : Prop where
  tables : s.tables.KeptBy rules.tables kept.tables
  views : s.views.KeptBy rules.views kept.views
  functions : s.functions.KeptBy rules.functions kept.functions
  procedures : s.procedures.KeptBy rules.procedures kept.procedures
  types : s.types.KeptBy rules.types kept.types
  sequences : s.sequences.KeptBy rules.sequences kept.sequences
  rest : kept = { s with
    tables := kept.tables, views := kept.views, functions := kept.functions,
    procedures := kept.procedures, types := kept.types, sequences := kept.sequences }

structure Catalog.KeptBy (rules : IgnoreRules) (c kept : Catalog) : Prop where
  schemas : List.Forall₂ (fun entry found => entry.1 = found.1 ∧ entry.2.KeptBy rules found.2)
    c.schemas.pairs kept.schemas.pairs
  rest : kept = { c with schemas := kept.schemas }

namespace IgnoreRules

variable {rules rules' : IgnoreRules}

/-- The patterns for objects of a kind; aggregates are never left out. -/
def patterns (rules : IgnoreRules) : ObjectKind → List String
  | .type => rules.types
  | .sequence => rules.sequences
  | .table => rules.tables
  | .view => rules.views
  | .function => rules.functions
  | .aggregate => []
  | .procedure => rules.procedures

/-- The same patterns for each kind, in any order and any number of times. -/
def SamePatterns (rules rules' : IgnoreRules) : Prop :=
  ∀ kind p, p ∈ rules.patterns kind ↔ p ∈ rules'.patterns kind

theorem keptBy_keep {α : Type} (patterns : List String) (entries : Entries α) :
    entries.KeptBy patterns (keep patterns entries) := by
  refine ⟨List.filter_sublist, fun name value => ?_⟩
  rw [Entries.get?_eq_some_iff, Entries.get?_eq_some_iff, ← Ignore.isIgnored_eq_false_iff]
  show (name, value) ∈ List.filter _ _ ↔ _
  rw [List.mem_filter, Bool.not_eq_true']

theorem keptBy_filterSchema (rules : IgnoreRules) (s : Schema) : s.KeptBy rules (rules.filterSchema s) where
  tables := keptBy_keep _ _
  views := keptBy_keep _ _
  functions := keptBy_keep _ _
  procedures := keptBy_keep _ _
  types := keptBy_keep _ _
  sequences := keptBy_keep _ _
  rest := rfl

theorem keptBy_without (rules : IgnoreRules) (c : Catalog) : c.KeptBy rules (c.without rules) := by
  refine ⟨?_, rfl⟩
  show List.Forall₂ _ c.schemas.pairs (c.schemas.pairs.map _)
  rw [List.forall₂_map_right_iff, List.forall₂_same]
  exact fun entry _ => ⟨rfl, keptBy_filterSchema rules entry.2⟩

theorem keep_congr {α : Type} {patterns patterns' : List String} (h : ∀ p, p ∈ patterns ↔ p ∈ patterns')
    (entries : Entries α) : keep patterns entries = keep patterns' entries := by
  unfold keep
  simp only [Ignore.isIgnored_congr h]

theorem filterSchema_congr (h : rules.SamePatterns rules') : rules.filterSchema = rules'.filterSchema := by
  funext s
  unfold filterSchema
  have htables : keep rules.tables s.tables = keep rules'.tables s.tables := keep_congr (h .table) _
  have hviews : keep rules.views s.views = keep rules'.views s.views := keep_congr (h .view) _
  have hfunctions : keep rules.functions s.functions = keep rules'.functions s.functions :=
    keep_congr (h .function) _
  have hprocedures : keep rules.procedures s.procedures = keep rules'.procedures s.procedures :=
    keep_congr (h .procedure) _
  have htypes : keep rules.types s.types = keep rules'.types s.types := keep_congr (h .type) _
  have hsequences : keep rules.sequences s.sequences = keep rules'.sequences s.sequences :=
    keep_congr (h .sequence) _
  rw [htables, hviews, hfunctions, hprocedures, htypes, hsequences]

theorem keep_keep {α : Type} (patterns : List String) (entries : Entries α) :
    keep patterns (keep patterns entries) = keep patterns entries := by
  refine Entries.eq_of_pairs ?_
  show List.filter _ (List.filter _ _) = List.filter _ _
  rw [List.filter_filter]
  simp only [Bool.and_self]

theorem filterSchema_filterSchema (rules : IgnoreRules) (s : Schema) :
    rules.filterSchema (rules.filterSchema s) = rules.filterSchema s := by
  simp only [filterSchema, keep_keep]

theorem without_without (rules : IgnoreRules) (c : Catalog) :
    (c.without rules).without rules = c.without rules := by
  have hschemas : (c.schemas.map rules.filterSchema).map rules.filterSchema =
      c.schemas.map rules.filterSchema := by
    refine Entries.eq_of_pairs ?_
    simp only [Entries.map, List.map_map, Function.comp_def, filterSchema_filterSchema]
  unfold Catalog.without
  rw [hschemas]

end IgnoreRules

/-! ## Scripts -/

namespace Diff

section

variable {p : Pair} {older : Option Schema} {new : Catalog} {ps : Partitions}

/-- Of the schema's objects the same are new to `older`. -/
def Pair.SeesAlike (p : Pair) (older : Option Schema) : Prop :=
  ∀ kind key, p.schema.holds kind key → Pair.isNew { p with old := older } kind key = p.isNew kind key

variable (h : p.SeesAlike older)

include h

theorem added_eq_of_seesAlike {α : Type} {entries : Schema → Entries α} (kind : ObjectKind)
    (hholds : ∀ s key, s.holds kind key = (entries s).contains key) :
    Pair.added { p with old := older } entries = p.added entries := by
  rw [Pair.added_eq _ kind hholds, Pair.added_eq p kind hholds]
  refine List.filter_congr fun entry hentry => h kind entry.1 ?_
  rw [hholds]
  exact Pair.contains_of_mem_added (p := p.fresh) hentry

theorem tablePieces_eq_of_seesAlike {name : String} {t : Table} {parent : Option String}
    (ht : p.schema.tables.get? name = some t) :
    tablePieces { p with old := older } new ps name t parent = tablePieces p new ps name t parent := by
  have hcreated : isCreated { p with old := older } name t = isCreated p name t :=
    congrArg (t.kind != .view && ·) (h .table name (Entries.contains_of_get? ht))
  unfold tablePieces
  rw [hcreated]
  rfl

theorem tableTree_eq_of_seesAlike (depth : Nat) :
    tableTree { p with old := older } new ps depth = tableTree p new ps depth := by
  induction depth with
  | zero => rfl
  | succ depth ih =>
    funext parent walk name
    by_cases hdone : p.schema.tables.contains name → name ∈ walk.handled
    · have hkept : tableTree { p with old := older } new ps (depth + 1) parent walk name = pure walk :=
        tableTree_of_done hdone
      rw [hkept, tableTree_of_done hdone]
    · obtain ⟨hcontains, hnew⟩ := Classical.not_imp.mp hdone
      obtain ⟨t, ht⟩ := Option.isSome_iff_exists.mp hcontains
      rw [tableTree_of_new (p := p) ht hnew, ← tablePieces_eq_of_seesAlike h ht, ← ih]
      exact tableTree_of_new ht hnew

theorem passOf_eq_of_seesAlike (kind : ObjectKind) :
    passOf new kind { p with old := older } = passOf new kind p := by
  cases kind with
  | type =>
    show types _ = types _
    unfold types
    rw [added_eq_of_seesAlike h .type fun _ _ => rfl]
    rfl
  | sequence =>
    show sequences _ = sequences _
    unfold sequences
    rw [added_eq_of_seesAlike h .sequence fun _ _ => rfl]
    rfl
  | table =>
    show tables new _ = tables new _
    unfold tables walkTables
    simp only [tableTree_eq_of_seesAlike h]
  | view =>
    show views _ = views _
    unfold views
    refine Logged.bind_congr_of_ok fun names hnames => ?_
    have hfilter : (names.filter fun name => older.all fun old => !old.views.contains name) =
        names.filter fun name => p.old.all fun old => !old.views.contains name :=
      List.filter_congr fun name hname => h .view name ((Schema.mem_sortViews hnames).mp hname)
    show collect (names.filter fun name => older.all fun old => !old.views.contains name) _ = _
    rw [hfilter]
    rfl
  | function =>
    show functions _ = functions _
    unfold functions
    rw [added_eq_of_seesAlike h .function fun _ _ => rfl]
    rfl
  | aggregate =>
    show aggregates _ = aggregates _
    unfold aggregates
    rw [added_eq_of_seesAlike h .aggregate fun _ _ => rfl]
    rfl
  | procedure =>
    show procedures _ = procedures _
    unfold procedures
    rw [added_eq_of_seesAlike h .procedure fun _ _ => rfl]
    rfl

end

/-! ## Leaving objects out of the older catalog -/

section

variable (rules : IgnoreRules) (old new : Catalog) (target : Option String)

theorem contains_keep {α : Type} (patterns : List String) (entries : Entries α) (name : String) :
    (IgnoreRules.keep patterns entries).contains name =
      (entries.contains name && !Ignore.isIgnored name patterns) := by
  rw [Bool.eq_iff_iff, Bool.and_eq_true, Entries.contains_iff_mem_names, Entries.contains_iff_mem_names]
  show name ∈ List.map _ (List.filter _ _) ↔ name ∈ List.map _ _ ∧ _
  simp only [List.mem_map, List.mem_filter]
  constructor
  · rintro ⟨entry, ⟨hentry, hkept⟩, rfl⟩
    exact ⟨⟨entry, hentry, rfl⟩, hkept⟩
  · rintro ⟨⟨entry, hentry, rfl⟩, hkept⟩
    exact ⟨entry, ⟨hentry, hkept⟩, rfl⟩

theorem holds_filterSchema (s : Schema) (kind : ObjectKind) (key : String) :
    (rules.filterSchema s).holds kind key =
      (s.holds kind key && !Ignore.isIgnored key (rules.patterns kind)) := by
  cases kind with
  | aggregate => exact (Bool.and_true _).symm
  | type | sequence | table | view | function | procedure => exact contains_keep _ _ _

/-- A schema without ignored objects does not ask for them. -/
theorem seesAlike_filterSchema {p : Pair} {s : Schema} (hp : p.schema = rules.filterSchema s) :
    p.SeesAlike (p.old.map rules.filterSchema) := by
  intro kind key hholds
  rw [hp, holds_filterSchema, Bool.and_eq_true] at hholds
  unfold Pair.isNew
  rcases p.old with _ | o
  · rfl
  · simp only [Option.map_some, Option.all_some, holds_filterSchema, hholds.2, Bool.and_true]

theorem pairs_without : pairs (old.without rules) new target =
    (pairs old new target).map fun p => { p with old := p.old.map rules.filterSchema } := by
  unfold pairs
  rw [List.map_map]
  refine List.map_congr_left fun entry _ => ?_
  show Pair.mk _ _ ((old.schemas.map rules.filterSchema).get? entry.1) _ = _
  rw [Entries.get?_map]
  rfl

theorem collect_without (kind : ObjectKind) :
    collect (pairs (old.without rules) (new.without rules) target) (passOf (new.without rules) kind) =
      collect (pairs old (new.without rules) target) (passOf (new.without rules) kind) := by
  rw [pairs_without, collect_map]
  refine collect_congr_of_mem fun p hp => ?_
  have hget := (Pair.get?_of_mem_pairs hp).1
  unfold Catalog.without at hget
  rw [Entries.get?_map, Option.map_eq_some_iff] at hget
  obtain ⟨s, -, hs⟩ := hget
  exact passOf_eq_of_seesAlike (seesAlike_filterSchema rules hs.symm) kind

theorem schemas_without : schemas (old.without rules) new target = schemas old new target := by
  have hcontains (key : String) : (old.without rules).schemas.contains key = old.schemas.contains key := by
    unfold Entries.contains Catalog.without
    rw [Entries.get?_map, Option.isSome_map]
  unfold schemas
  simp only [hcontains]

theorem pieces_without : pieces (old.without rules) (new.without rules) target =
    pieces old (new.without rules) target := by
  have hschemas := schemas_without rules old (new.without rules) (Text.given target)
  have hpasses := collect_without rules old new (Text.given target)
  have htypes := hpasses .type
  have hsequences := hpasses .sequence
  have htables := hpasses .table
  have hviews := hpasses .view
  have hfunctions := hpasses .function
  have haggregates := hpasses .aggregate
  have hprocedures := hpasses .procedure
  simp only [passOf] at htypes hsequences htables hviews hfunctions haggregates hprocedures
  unfold pieces
  simp only [hschemas, htypes, hsequences, htables, hviews, hfunctions, haggregates, hprocedures]
  rfl

end

end Diff

/-- Rules leave the objects whose names they keep and all else, in whatever order the patterns come. Filtering twice
is filtering once, and a script that leads to a filtered catalog does not depend on whether the older one is
filtered. -/
theorem ignoring_keeps (catalog : Catalog) (rules : IgnoreRules) :
    (catalog.ignoring (some rules)).result = .ok (catalog.without rules) ∧
    catalog.KeptBy rules (catalog.without rules) ∧
    (∀ rules', rules.SamePatterns rules' → catalog.without rules' = catalog.without rules) ∧
    (catalog.without rules).without rules = catalog.without rules ∧
    ∀ old target withHeadings, (old.without rules).diff (catalog.without rules) target withHeadings =
      Catalog.diff old (catalog.without rules) target withHeadings := by
  refine ⟨rfl, IgnoreRules.keptBy_without rules catalog, fun rules' hsame => ?_,
    IgnoreRules.without_without rules catalog, fun old target withHeadings => ?_⟩
  · unfold Catalog.without
    rw [IgnoreRules.filterSchema_congr hsame]
  · unfold Catalog.diff
    rw [Diff.pieces_without]

/-- Leaves out what is there for a while, but for one table. -/
def passing : IgnoreRules where
  tables := ["tmp_*", "!tmp_stock"]
  types := ["t?"]

/-- The same with the patterns in another order, and one of them twice. -/
def passingAgain : IgnoreRules where
  tables := ["!tmp_stock", "tmp_*", "tmp_*"]
  types := ["t?"]

def pantry : Catalog where
  schemas := .ofPairs [("pantry",
    { name := "pantry"
      tables := .ofPairs
        [("tmp_list", { schema := "pantry", name := "tmp_list" }),
         ("tmp_stock", { schema := "pantry", name := "tmp_stock" }),
         ("jars", { schema := "pantry", name := "jars" })]
      types := .ofPairs [("t1", { schema := "pantry", name := "t1" })] })]

theorem pantry_kept :
    (pantry.without passing).schemas.values.map (fun s => (s.tables.names, s.types.names)) =
        [(["tmp_stock", "jars"], [])] ∧
      pantry.without passingAgain = pantry.without passing ∧
      (pantry.without passing).diff (pantry.without passing) none true =
        pantry.diff (pantry.without passing) none true := by
  obtain ⟨-, -, hsame, -, hdiff⟩ := ignoring_keeps pantry passing
  refine ⟨by decide +kernel, hsame passingAgain fun kind p => ?_, hdiff pantry none true⟩
  cases kind with
  | table => simp [IgnoreRules.patterns, passing, passingAgain, or_comm]
  | type | sequence | view | function | aggregate | procedure => exact Iff.rfl

end SchemaScript
