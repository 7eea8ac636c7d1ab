import SchemaScript.Proofs.Effect.Neutrality
import SchemaScript.Proofs.Order.Dependencies
import SchemaScript.Proofs.Script.Grounding
import SchemaScript.Proofs.Script.Reordering
import SchemaScript.Proofs.Script.Target

/-!
# A script for one schema or another

A catalog that is neutral between the schemas `d` and `e` has a script for `d`. Once the two schemas have
exchanged their names, it has the same script for `e` (`Catalog.dump_rename`): the pieces are the same but for
the schema under which they are filed, which no script shows.
-/

namespace SchemaScript

/-! ## Where pieces are filed -/

def Tag.refile (schema : String) : Tag → Tag
  | .object _ kind key => .object schema kind key
  | tag => tag

/-- The piece as it is filed for an object of another schema. -/
def Piece.refile (schema : String) (x : Piece) : Piece :=
  { x with tag := x.tag.refile schema }

theorem Piece.map_block_refile (withHeadings : Bool) (schema : String) (pieces : List Piece) :
    (pieces.map (Piece.refile schema)).map (Piece.block withHeadings) =
      pieces.map (Piece.block withHeadings) := by
  rw [List.map_map]
  rfl

theorem scriptOf_refile (withHeadings : Bool) (m : Metadata) (schema : String)
    (before made after : Except Fault (List Piece)) :
    scriptOf withHeadings m before made (after.map (List.map (Piece.refile schema))) =
      scriptOf withHeadings m before made after := by
  rcases before with fault | first
  · rfl
  rcases made with fault | row
  · rfl
  rcases after with fault | last
  · rfl
  show Except.ok (renderPieces withHeadings m (first ++ row ++ last.map (Piece.refile schema))) =
    Except.ok (renderPieces withHeadings m (first ++ row ++ last))
  rw [renderPieces_eq, renderPieces_eq, scriptText, scriptText]
  simp only [List.map_append, Piece.map_block_refile]

namespace Diff

variable {α : Type} {d e : String} {s : Schema} {c : Catalog}

/-! ## Rows of pieces -/

theorem result_emit_refile (schema : String) (tag : Tag) (kind : PieceKind) (name heading : String)
    (owner : Option String) (checked : Except Fault Unit) (text : String) :
    (emit (tag.refile schema) kind name heading owner checked text).result =
      (emit tag kind name heading owner checked text).result.map (List.map (Piece.refile schema)) := by
  cases checked with
  | error fault => rfl
  | ok done =>
    show (if text == "" then _ else _ : Logged (List Piece)).result =
      (if text == "" then _ else _ : Logged (List Piece)).result.map _
    split <;> rfl

theorem result_collect_refile {items : List α} {pieces pieces' : α → Logged (List Piece)}
    (h : ∀ a ∈ items, (pieces' a).result = (pieces a).result.map (List.map (Piece.refile e))) :
    (collect items pieces').result = (collect items pieces).result.map (List.map (Piece.refile e)) := by
  have hrows : (items.mapM pieces').result =
      (items.mapM pieces).result.map (List.map (List.map (Piece.refile e))) := by
    induction items with
    | nil => rfl
    | cons a items ih =>
      rw [List.forall_mem_cons] at h
      rw [List.mapM_cons, List.mapM_cons]
      refine Logged.result_bind_map h.1 fun own _ => ?_
      exact Logged.result_bind_map (ih h.2) fun rows _ => rfl
  exact Logged.result_bind_map hrows fun rows _ => congrArg Except.ok List.map_flatten.symm

section

variable {entries : Entries α} {g : α → α} {pieces pieces' : String × α → Logged (List Piece)}
  (hpieces : ∀ key x, entries.get? key = some x →
    (pieces' (key, g x)).result = (pieces (key, x)).result.map (List.map (Piece.refile e)))
include hpieces

theorem result_collect_kept {keep keep' : String × α → Bool}
    (hkeep : ∀ key x, keep' (key, g x) = keep (key, x)) :
    (collect ((entries.map g).sorted.filter keep') pieces').result =
      (collect (entries.sorted.filter keep) pieces).result.map (List.map (Piece.refile e)) := by
  have hfilter : (keep' ∘ fun pair : String × α => (pair.1, g pair.2)) = keep :=
    funext fun pair => hkeep pair.1 pair.2
  rw [Entries.sorted_map, List.filter_map, hfilter, collect_map]
  refine result_collect_refile fun pair hpair => ?_
  exact hpieces pair.1 pair.2 (Entries.get?_of_mem_sorted (List.mem_of_mem_filter hpair))

theorem result_collect_sorted :
    (collect (entries.map g).sorted pieces').result =
      (collect entries.sorted pieces).result.map (List.map (Piece.refile e)) := by
  have hall : (collect ((entries.map g).sorted.filter fun _ => true) pieces').result =
      (collect (entries.sorted.filter fun _ => true) pieces).result.map (List.map (Piece.refile e)) :=
    result_collect_kept hpieces fun _ _ => rfl
  rwa [List.filter_true, List.filter_true] at hall

end

/-! ## The schema that a script is for -/

/-- The schema as the one that the script is for, where there is nothing older. -/
def Pair.only (key : String) (s : Schema) : Pair :=
  { key, schema := s, old := none, target := some key }

/-- The schema once `d` and `e` have exchanged their names, as the one that the script is for. -/
abbrev Pair.exchanged (d e : String) (s : Schema) : Pair :=
  Pair.only e (s.rename (exchange d e))

theorem pairs_only (c : Catalog) (key : String) :
    pairs {} c (some key) = (c.schemas.get? key).toList.map (Pair.only key) := by
  rw [pairs_some]
  cases c.schemas.get? key <;> rfl

section

variable (h : Distinct d e) (hfiled : s.Filed d) (hneutral : s.Neutral d e)

include h hfiled in
theorem heading_rename : (Pair.exchanged d e s).heading = (Pair.only d s).heading := by
  have hheading {key : String} (hkey : key ≠ "") (s : Schema) (hname : s.name = (key : Field String)) :
      (Pair.only key s).heading = "-" := by
    have hgiven : Text.given (some key) = some key := Text.given_eq_some_iff.mpr ⟨rfl, hkey⟩
    unfold Pair.heading Sql.headingSchema Pair.only
    dsimp only
    rw [hgiven, hname, Field.given_text, if_neg hkey]
    simp
  have hname : (s.rename (exchange d e)).name = (e : Field String) := by
    unfold Schema.rename
    rw [hfiled.name, Field.rename_text, exchange_left]
  rw [hheading h.left s hfiled.name, hheading h.right _ hname]

/-- One statement for an object that either schema writes the same. -/
theorem result_emit_only (h : Distinct d e) (hfiled : s.Filed d) (kind : ObjectKind) (key : String)
    (piece : PieceKind) (name : String) {checked checked' : Except Fault Unit} {text text' : String}
    (hcheck : checked' = checked) (htext : text' = text) :
    (emit ((Pair.exchanged d e s).tag kind key) piece name
        (Pair.exchanged d e s).heading none checked' text').result =
      (emit ((Pair.only d s).tag kind key) piece name (Pair.only d s).heading none checked text).result.map
        (List.map (Piece.refile e)) := by
  rw [heading_rename h hfiled, hcheck, htext]
  exact result_emit_refile e ((Pair.only d s).tag kind key) ..

include h hfiled

theorem sequences_rename :
    (sequences (Pair.exchanged d e s)).result =
      (sequences (Pair.only d s)).result.map (List.map (Piece.refile e)) := by
  refine result_collect_kept (fun key q hq => ?_) fun _ _ => rfl
  have hschema := (hfiled.sequences key q hq).schema ▸ Field.spares_text h.ne
  dsimp only
  unfold sequence
  have howned : (q.rename (exchange d e)).isOwned = q.isOwned := rfl
  rw [howned]
  split
  · rfl
  · exact result_emit_only h hfiled .sequence key .sequence key (Sequence.check_rename hschema _)
      (Sequence.ddl_rename hschema)

theorem procedures_rename :
    (procedures (Pair.exchanged d e s)).result =
      (procedures (Pair.only d s)).result.map (List.map (Piece.refile e)) := by
  refine result_collect_kept (fun key p hp => ?_) fun _ _ => rfl
  have hschema := (hfiled.procedures key p hp).schema ▸ Field.spares_text h.ne
  exact result_emit_only h hfiled .procedure key .procedure _ (Procedure.check_rename hschema _)
    (Procedure.ddl_rename hschema)

include hneutral

theorem functions_rename :
    (functions (Pair.exchanged d e s)).result =
      (functions (Pair.only d s)).result.map (List.map (Piece.refile e)) := by
  refine result_collect_kept (fun key r hr => ?_) fun _ _ => rfl
  have hschema := (hfiled.functions key r hr).schema ▸ Field.spares_text h.ne
  exact result_emit_only h hfiled .function key .function _ (StoredFunction.check_rename h hschema _)
    (StoredFunction.ddl_rename hschema (hneutral.functions key r hr))

theorem aggregates_rename :
    (aggregates (Pair.exchanged d e s)).result =
      (aggregates (Pair.only d s)).result.map (List.map (Piece.refile e)) := by
  refine result_collect_kept (fun key a ha => ?_) fun _ _ => rfl
  have hschema := (hfiled.aggregates key a ha).schema ▸ Field.spares_text h.ne
  exact result_emit_only h hfiled .aggregate key .aggregate _ (Aggregate.check_rename h hschema _)
    (Aggregate.ddl_rename hschema (hneutral.aggregates key a ha))

omit h hfiled hneutral in
theorem result_sortTypes_rename (f : String → String) (types : List (String × UserType)) :
    (sortTypes (types.map fun t => (t.1, t.2.rename f))).result =
      (sortTypes types).result.map (List.map fun t => (t.1, t.2.rename f)) := by
  have hnames (types : List (String × UserType)) :
      (types.map fun t => (t.1, t.2.rename f)).map (·.2.name) = types.map (·.2.name) := by
    rw [List.map_map]
    rfl
  have hsort (types : List (String × UserType)) :
      (Order.sort (fun a b => a.2.name.stored.precedes b.2.name.stored) types).map
          (fun t => (t.1, t.2.rename f)) =
        Order.sort (fun a b => a.2.name.stored.precedes b.2.name.stored)
          (types.map fun t => (t.1, t.2.rename f)) := by
    apply Order.map_sort
    exact fun _ _ => rfl
  unfold sortTypes
  dsimp only
  rw [List.filter_map, List.filter_map, hnames, hnames]
  show (if isSortable ((types.filter fun t => !t.2.isDomain).map _) &&
    isSortable ((types.filter fun t => t.2.isDomain).map _) then _ else _ : Logged _).result = _
  split
  · rw [Logged.result_pure, Logged.result_pure]
    refine congrArg Except.ok ?_
    rw [List.map_append, hsort, hsort]
    rfl
  · rfl

theorem types_rename :
    (types (Pair.exchanged d e s)).result =
      (types (Pair.only d s)).result.map (List.map (Piece.refile e)) := by
  have hadded : (Pair.exchanged d e s).added (·.types) =
      ((Pair.only d s).added (·.types)).map fun t => (t.1, t.2.rename (exchange d e)) := by
    unfold Pair.added
    exact (congrArg (List.filter _) (Entries.sorted_map ..)).trans List.filter_map
  unfold types
  rw [hadded]
  refine Logged.result_bind_map (result_sortTypes_rename _ _) fun sorted hsorted => ?_
  rw [collect_map]
  refine result_collect_refile fun entry hentry => ?_
  obtain ⟨key, t⟩ := entry
  have ht := Entries.get?_of_mem_sorted (List.mem_of_mem_filter (mem_of_sortTypes hsorted hentry))
  have hschema := (hfiled.types key t ht).schema ▸ Field.spares_text h.ne
  exact result_emit_only h hfiled .type key _ _ (UserType.check_rename hschema _)
    (UserType.ddl_rename hschema (hneutral.types key t ht))

omit h hfiled hneutral in
theorem result_sortViews_rename (f : String → String) (s : Schema) :
    (s.rename f).sortViews.result = s.sortViews.result := by
  have hviews : (s.rename f).views = s.views.map (View.rename f) := rfl
  have hnames : (s.rename f).views.names = s.views.names := by
    rw [hviews, Entries.names_map]
  have hedges : (s.rename f).viewEdges = s.viewEdges := by
    unfold Schema.viewEdges
    dsimp only
    rw [hviews, Entries.sortedNames_map, Entries.sorted_map, List.flatMap_map]
    rfl
  have hneed : (s.rename f).views.sortedValues.forM (·.definition.needText) =
      s.views.sortedValues.forM (·.definition.needText) := by
    rw [hviews, Entries.sortedValues_map]
    show forM (s.views.sortedValues.map (View.rename f)) (fun v : View => v.definition.needText) = _
    rw [List.forM_map]
    rfl
  unfold Schema.sortViews
  rw [hneed, hnames, hedges]

omit hneutral in
theorem views_rename :
    (views (Pair.exchanged d e s)).result =
      (views (Pair.only d s)).result.map (List.map (Piece.refile e)) := by
  have hnames : (Pair.exchanged d e s).schema.sortViews.result =
      (Pair.only d s).schema.sortViews.result.map id :=
    (result_sortViews_rename _ s).trans (congrFun Except.map_id _).symm
  unfold views
  refine Logged.result_bind_map hnames fun names _ => ?_
  refine result_collect_refile fun name _ => ?_
  have hget : (Pair.exchanged d e s).schema.views.get? name =
      ((Pair.only d s).schema.views.get? name).map (View.rename (exchange d e)) := Entries.get?_map ..
  unfold view
  rw [hget]
  cases hview : (Pair.only d s).schema.views.get? name with
  | none => rfl
  | some v =>
    have hschema := (hfiled.views name v hview).schema ▸ Field.spares_text h.ne
    exact result_emit_only h hfiled .view name _ name (View.check_rename hschema _) (View.ddl_rename hschema)

end

/-! ## Partitions -/

namespace Partitions

/-- The same attachments, with the schemas under other names. -/
def rename (f : String → String) (ps : Partitions) : Partitions :=
  ⟨ps.attachments.map (PartitionAttachment.rename f)⟩

theorem inSchema_rename (f : String ↪ String) (c : Catalog) (schema : Field String) :
    inSchema (c.rename f) (schema.rename f) = (inSchema c schema).rename f := by
  have hbeq (x y : Field String) : (x.rename f == y.rename f) = (x == y) := (Field.rename_injective f).beq_eq
  show Partitions.mk ((c.partitions.map (PartitionAttachment.rename f)).filter _) = _
  rw [List.filter_map]
  refine congrArg (fun l => Partitions.mk (List.map (PartitionAttachment.rename f) l)) ?_
  refine List.filter_congr fun a _ => ?_
  exact congrArg₂ and (hbeq a.parentSchema schema) (hbeq a.childSchema schema)

variable (f : String → String) (ps : Partitions) (name : String)

theorem last?_rename : (ps.rename f).last? name = (ps.last? name).map (PartitionAttachment.rename f) := by
  unfold last? rename
  rw [← List.map_reverse, List.find?_map]
  rfl

theorem bound?_rename : (ps.rename f).bound? name = ps.bound? name := by
  unfold bound?
  rw [last?_rename]
  cases ps.last? name <;> rfl

theorem isPartition_rename {tables tables' : Entries Table} (h : tables'.contains = tables.contains) :
    (ps.rename f).isPartition tables' name = ps.isPartition tables name := by
  unfold isPartition
  rw [last?_rename, h]
  cases ps.last? name <;> rfl

theorem children_rename : (ps.rename f).children name = ps.children name := by
  unfold children rename
  dsimp only
  rw [List.filter_map, List.map_map]
  rfl

end Partitions

/-! ## Tables -/

def Walk.refile (schema : String) (walk : Walk) : Walk :=
  { walk with pieces := walk.pieces.map (Piece.refile schema) }

theorem Walk.visit_refile (schema : String) (walk : Walk) (name : String) (own : List Piece) :
    (walk.refile schema).visit name (own.map (Piece.refile schema)) = (walk.visit name own).refile schema := by
  unfold visit refile
  rw [List.map_append]

section

variable (h : Distinct d e) (hfiled : s.Filed d)
include h hfiled

section

variable {t : Table} {name : String}

theorem index_rename (hc : ∀ a ∈ c.indexPartitions, a.Neutral e) {i : Index}
    (hschema : i.schema = (d : Field String)) (hdefinition : i.definition = .absent) (kind : ObjectKind)
    (owner key : String) :
    (index (Pair.exchanged d e s) ((Pair.exchanged d e s).tag kind owner)
        (c.rename (exchange d e)) key (i.rename (exchange d e))).result =
      (index (Pair.only d s) ((Pair.only d s).tag kind owner) c key i).result.map
        (List.map (Piece.refile e)) := by
  have hspares := hschema ▸ Field.spares_text h.ne
  have hplaces : (c.rename (exchange d e)).indexPartitions.filter
        (fun a => a.childSchema == (Pair.exchanged d e s).schema.name &&
          a.childIndex == (key : Field String)) =
      (c.indexPartitions.filter fun a => a.childSchema == s.name && a.childIndex == (key : Field String)).map
        (IndexAttachment.rename (exchange d e)) := by
    refine List.filter_map.trans (congrArg _ (List.filter_congr fun a _ => ?_))
    exact congrArg (· && _) ((Field.rename_injective (exchange d e)).beq_eq (a := a.childSchema) (b := s.name))
  unfold index
  refine Logged.result_bind_map (result_emit_only h hfiled kind owner .index key
    (Index.check_rename hspares _) (Index.ddl_rename hspares hdefinition)) fun own _ => ?_
  refine Logged.result_bind_map ?_ fun attached _ => congrArg Except.ok List.map_append.symm
  rw [hplaces, collect_map]
  refine result_collect_refile fun a ha => ?_
  have hneutral := hc a (List.mem_of_mem_filter ha)
  exact result_emit_only h hfiled kind owner .indexAttach key (IndexAttachment.check_rename hneutral _)
    (IndexAttachment.ddl_rename hneutral)

theorem tableParts_rename (hc : ∀ a ∈ c.indexPartitions, a.Neutral e) (ht : t.Filed d name)
    (hneutral : t.Neutral d e) :
    (tableParts (Pair.exchanged d e s) ((Pair.exchanged d e s).tag .table name)
        (c.rename (exchange d e)) (t.rename (exchange d e))).result =
      (tableParts (Pair.only d s) ((Pair.only d s).tag .table name) c t).result.map
        (List.map (Piece.refile e)) := by
  have hspares : t.schema.Spares e := ht.schema ▸ Field.spares_text h.ne
  have hinline (key : String) (x : Constraint) :
      (t.rename (exchange d e)).isInline key (x.rename (exchange d e)) = t.isInline key x :=
    (Table.isInline_congr (t.showsAlike_rename _) key (x.showsAlike_rename _)).symm
  unfold tableParts
  refine Logged.result_bind_map (g := List.map (Piece.refile e)) ?_ fun indexes _ => ?_
  · refine result_collect_kept (fun key i hi => ?_) fun _ _ => rfl
    have hi := ht.orderly.indexes key i hi
    exact index_rename h hfiled hc (hi.schema.trans ht.schema) hi.definition .table name key
  refine Logged.result_bind_map (g := List.map (Piece.refile e)) ?_ fun constraints _ => ?_
  · refine result_collect_kept (fun key x hx => ?_) fun key x => congrArg not (hinline key x)
    have hown := (ht.orderly.constraints key x hx).schema ▸ hspares
    have hx := hneutral.constraints key x hx
    exact result_emit_only h hfiled .table name .constraint key (Constraint.check_rename h hown hx)
      (Constraint.ddl_rename h hown hx)
  refine Logged.result_bind_map (g := List.map (Piece.refile e)) ?_ fun triggers _ => ?_
  · refine result_collect_sorted fun key r hr => ?_
    have hown := (ht.orderly.triggers key r hr).schema ▸ hspares
    exact result_emit_only h hfiled .table name .trigger key (Trigger.check_rename hown _)
      (Trigger.ddl_rename hown (hneutral.triggers key r hr))
  refine Logged.result_bind_map (g := List.map (Piece.refile e)) ?_ fun security _ => ?_
  · exact result_emit_only h hfiled .table name .table _ (Table.checkRowSecurity_rename h ht.schema)
      (Table.rowSecurityDdl_rename h ht.schema)
  refine Logged.result_bind_map (g := List.map (Piece.refile e)) ?_ fun policies _ => ?_
  · refine result_collect_sorted fun key p hp => ?_
    have hown := (ht.orderly.policies key p hp).schema ▸ hspares
    exact result_emit_only h hfiled .table name .policy key (Policy.check_rename hown _) (Policy.ddl_rename hown)
  exact congrArg Except.ok (by simp only [List.map_append])

theorem attachment_rename (ps : Partitions) (name : String) (parent : Option String) :
    (attachment (Pair.exchanged d e s) (ps.rename (exchange d e)) name parent).result =
      (attachment (Pair.only d s) ps name parent).result.map (List.map (Piece.refile e)) := by
  have hspares : s.name.Spares e := hfiled.name ▸ Field.spares_text h.ne
  cases parent with
  | none => rfl
  | some parent =>
    refine result_emit_only h hfiled .table name .tableAttach name ?_ ?_
    · show ((s.name.rename (exchange d e)).needText : Except Fault Unit) = s.name.needText
      rw [hfiled.name, Field.rename_text, Field.needText_text, Field.needText_text]
    · show Ddl.attachPartition (Sql.qualified? (s.name.rename (exchange d e)).given (some parent) (some e))
        (Sql.qualified? (s.name.rename (exchange d e)).given (some name) (some e)) _ = _
      rw [qualified?_rename hspares, qualified?_rename hspares, Partitions.bound?_rename]
      rfl

theorem tablePieces_rename (hc : ∀ a ∈ c.indexPartitions, a.Neutral e) (ps : Partitions) (ht : t.Filed d name)
    (hneutral : t.Neutral d e) (parent : Option String) :
    (tablePieces (Pair.exchanged d e s) (c.rename (exchange d e)) (ps.rename (exchange d e)) name
        (t.rename (exchange d e)) parent).result =
      (tablePieces (Pair.only d s) c ps name t parent).result.map (List.map (Piece.refile e)) := by
  have hcreated : isCreated (Pair.exchanged d e s) name (t.rename (exchange d e)) =
      isCreated (Pair.only d s) name t := rfl
  unfold tablePieces
  rw [hcreated]
  split
  · rfl
  refine Logged.result_bind_map (g := List.map (Piece.refile e)) ?_ fun own _ => ?_
  · exact result_emit_only h hfiled .table name .table name (Table.check_rename h ht.schema)
      (Table.ddl_rename h ht.schema hneutral)
  rw [List.isEmpty_map]
  split
  · rfl
  refine Logged.result_bind_map (attachment_rename h hfiled ps name parent) fun attached _ => ?_
  refine Logged.result_bind_map (tableParts_rename h hfiled hc ht hneutral) fun parts _ => ?_
  exact congrArg Except.ok (by simp only [List.map_append])

end

variable (hneutral : s.Neutral d e)
include hneutral

theorem tableTree_rename (hc : ∀ a ∈ c.indexPartitions, a.Neutral e) (ps : Partitions) (depth : Nat)
    (parent : Option String) (walk : Walk) (name : String) :
    (tableTree (Pair.exchanged d e s) (c.rename (exchange d e)) (ps.rename (exchange d e)) depth
        parent (walk.refile e) name).result =
      (tableTree (Pair.only d s) c ps depth parent walk name).result.map (Walk.refile e) := by
  -- both walks handle the same tables; `refile` only touches the pieces, which no step looks at
  induction depth generalizing parent walk name with
  | zero => rfl
  | succ depth ih =>
    have hget : (Pair.exchanged d e s).schema.tables.get? name =
        ((Pair.only d s).schema.tables.get? name).map (Table.rename (exchange d e)) := Entries.get?_map ..
    have hcontains : (Pair.exchanged d e s).schema.tables.contains name =
        (Pair.only d s).schema.tables.contains name := Entries.contains_map ..
    by_cases hdone : (Pair.only d s).schema.tables.contains name → name ∈ walk.handled
    · have hdone' : (Pair.exchanged d e s).schema.tables.contains name → name ∈ (walk.refile e).handled :=
        hcontains ▸ hdone
      rw [tableTree_of_done hdone, tableTree_of_done hdone']
      rfl
    · simp only [Classical.not_imp] at hdone
      obtain ⟨hin, hfresh⟩ := hdone
      obtain ⟨t, ht⟩ := Option.isSome_iff_exists.mp hin
      have hfresh' : name ∉ (walk.refile e).handled := hfresh
      rw [ht] at hget
      rw [tableTree_of_new ht hfresh, tableTree_of_new hget hfresh']
      refine Logged.result_bind_map (tablePieces_rename h hfiled hc ps (hfiled.tables name t ht)
        (hneutral.tables name t ht) parent) fun own _ => ?_
      refine Logged.result_bind_map (g := id) ?_ fun names _ => ?_
      · rw [Partitions.children_rename, Except.map_id]
        rfl
      · rw [Walk.visit_refile]
        exact Logged.foldlM_map (fun child _ walk => ih (some name) walk child) _

omit hfiled in
theorem tableEdges_rename : (s.rename (exchange d e)).tableEdges = s.tableEdges := by
  have hcontains : (s.rename (exchange d e)).tables.contains = s.tables.contains :=
    funext fun name => Entries.contains_map ..
  refine (Schema.tableEdges_congr (r := fun t t' => t' = t.rename (exchange d e) ∧ t.Neutral d e)
    (q := fun c c' => c' = c.rename (exchange d e) ∧ c.Neutral e) (fun name => ?_) ?_ ?_).symm
  · show Option.Rel _ (s.tables.get? name) ((s.tables.map (Table.rename (exchange d e))).get? name)
    rw [Entries.get?_map]
    cases ht : s.tables.get? name with
    | none => exact .none
    | some t => exact .some ⟨rfl, hneutral.tables name t ht⟩
  · rintro t _ ⟨rfl, ht⟩
    have hkeys : (t.rename (exchange d e)).foreignKeys = t.foreignKeys.map (Constraint.rename (exchange d e)) := by
      show (t.constraints.map (Constraint.rename (exchange d e))).sortedValues.filter _ = _
      rw [Entries.sortedValues_map, List.filter_map]
      rfl
    rw [hkeys, List.forall₂_map_right_iff]
    refine List.forall₂_same.mpr fun c hc => ⟨rfl, ?_⟩
    obtain ⟨entry, hentry, rfl⟩ := List.mem_map.mp (List.mem_of_mem_filter hc)
    exact ht.constraints entry.1 entry.2 (Entries.get?_of_mem_sorted hentry)
  · rintro name c _ ⟨rfl, hc⟩
    have hgiven : (c.rename (exchange d e)).referencedSchema.isGiven = c.referencedSchema.isGiven :=
      isGiven_rename h hc
    have hother : ((c.rename (exchange d e)).referencedSchema != (s.rename (exchange d e)).name) =
        (c.referencedSchema != s.name) := congrArg not (Field.rename_injective _).beq_eq
    unfold Schema.keyEffect
    rw [hgiven, hother, hcontains]
    rfl

theorem tables_rename (hc : ∀ a ∈ c.indexPartitions, a.Neutral e) :
    (tables (c.rename (exchange d e)) (Pair.exchanged d e s)).result =
      (tables c (Pair.only d s)).result.map (List.map (Piece.refile e)) := by
  have htables : (s.rename (exchange d e)).tables = s.tables.map (Table.rename (exchange d e)) := rfl
  have hpartitions : Partitions.inSchema (c.rename (exchange d e)) (s.rename (exchange d e)).name =
      (Partitions.inSchema c s.name).rename (exchange d e) := Partitions.inSchema_rename ..
  have hcontains : (s.rename (exchange d e)).tables.contains = s.tables.contains :=
    funext fun name => Entries.contains_map ..
  have hroots : rootTables (c.rename (exchange d e)) (Pair.exchanged d e s) =
      rootTables c (Pair.only d s) := by
    unfold rootTables Pair.exchanged Pair.only
    dsimp only
    rw [tableEdges_rename h hneutral, hpartitions, htables, Entries.names_map]
    exact List.filter_congr fun name _ => congrArg not (Partitions.isPartition_rename _ _ name hcontains)
  have hwalk : (walkTables (c.rename (exchange d e)) (Pair.exchanged d e s)).result =
      (walkTables c (Pair.only d s)).result.map (Walk.refile e) := by
    rw [result_walkTables, result_walkTables, hroots]
    unfold Pair.exchanged Pair.only
    dsimp only
    rw [hpartitions, htables, Entries.size_map]
    exact Logged.foldlM_map (fun name _ walk => tableTree_rename h hfiled hneutral hc _ _ none walk name) {}
  exact Logged.result_bind_map hwalk fun walk _ => rfl

end

/-! ## The whole script -/

theorem walked_rename (h : Distinct d e) (hfiled : c.Filed) (hneutral : c.Neutral d e) :
    (walked {} (c.rename (exchange d e)) e).result =
      (walked {} c d).result.map (List.map (Piece.refile e)) := by
  have hpairs : pairs {} (c.rename (exchange d e)) (some e) =
      (c.schemas.get? d).toList.map (Pair.exchanged d e) := by
    have hget := c.get?_schemas_rename (exchange d e) d
    rw [exchange_left] at hget
    rw [pairs_only, hget]
    cases c.schemas.get? d <;> rfl
  have hpass {pass pass' : Pair → Logged (List Piece)}
      (hone : ∀ s, s.Filed d → s.Neutral d e → (pass' (Pair.exchanged d e s)).result =
        (pass (Pair.only d s)).result.map (List.map (Piece.refile e))) :
      (collect (pairs {} (c.rename (exchange d e)) (some e)) pass').result =
        (collect (pairs {} c (some d)) pass).result.map (List.map (Piece.refile e)) := by
    rw [hpairs, pairs_only, collect_map, collect_map]
    refine result_collect_refile fun s hs => ?_
    have hs := Option.mem_toList.mp hs
    exact hone s (hfiled.schemas d s hs) (hneutral.schemas d s hs).2
  unfold walked
  dsimp only
  refine Logged.result_bind_map (hpass fun s hs hn => types_rename h hs hn) fun types _ => ?_
  refine Logged.result_bind_map (hpass fun s hs _ => sequences_rename h hs) fun sequences _ => ?_
  refine Logged.result_bind_map (hpass fun s hs hn => tables_rename h hs hn hneutral.indexPartitions)
    fun tables _ => ?_
  refine Logged.result_bind_map (hpass fun s hs _ => views_rename h hs) fun views _ => ?_
  refine Logged.result_bind_map (hpass fun s hs hn => functions_rename h hs hn) fun functions _ => ?_
  refine Logged.result_bind_map (hpass fun s hs hn => aggregates_rename h hs hn) fun aggregates _ => ?_
  refine Logged.result_bind_map (hpass fun s hs _ => procedures_rename h hs) fun procedures _ => ?_
  exact congrArg Except.ok (by simp only [List.map_append])

/-- The statements that create other schemas are the same. -/
theorem schemas_rename (h : Distinct d e) (hfiled : c.Filed) (hneutral : c.Neutral d e) :
    (schemas {} (c.rename (exchange d e)) (some e)).result = (schemas {} c (some d)).result := by
  have hpairs : (c.rename (exchange d e)).schemas.pairs.filter (fun entry => some entry.1 != some e) =
      (c.schemas.pairs.filter fun entry => some entry.1 != some d).map fun entry =>
        (entry.1, entry.2.rename (exchange d e)) := by
    have hall : (c.rename (exchange d e)).schemas.pairs =
        c.schemas.pairs.map fun entry => (exchange d e entry.1, entry.2.rename (exchange d e)) := List.map_map
    have hkeep : ((fun entry : String × Schema => some entry.1 != some e) ∘ fun entry : String × Schema =>
        (exchange d e entry.1, entry.2.rename (exchange d e))) = fun entry => some entry.1 != some d := by
      funext entry
      rw [Bool.eq_iff_iff]
      simp [exchange_eq_right_iff]
    rw [hall, List.filter_map, hkeep]
    refine List.map_congr_left fun entry hentry => ?_
    obtain ⟨hmem, hd⟩ := List.mem_filter.mp hentry
    have he := (hneutral.schemas entry.1 entry.2 (Entries.get?_eq_some_iff.mpr hmem)).1
    rw [exchange_of_ne (by simpa using hd) he]
  -- the exchange can move `d` among the sorted names, so it has to be left out before sorting
  have hsorted : (c.rename (exchange d e)).schemas.sorted.filter (fun entry => some entry.1 != some e) =
      (c.schemas.sorted.filter fun entry => some entry.1 != some d).map fun entry =>
        (entry.1, entry.2.rename (exchange d e)) := by
    have hfilter (p : String × Schema → Bool) (entries : Entries Schema) :
        entries.sorted.filter p = Order.sort (fun a b => a.1 ≤ b.1) (entries.pairs.filter p) :=
      Order.filter_sort (Order.le_name_trans Prod.fst) (Order.le_name_total Prod.fst) p entries.pairs
    rw [hfilter, hfilter, hpairs]
    symm
    apply Order.map_sort
    exact fun _ _ => rfl
  have hheading {x : String} (hx : x ≠ "") : Sql.headingSchema none (some x) = "-" := by
    have hgiven : Text.given (some x) = some x := Text.given_eq_some_iff.mpr ⟨rfl, hx⟩
    unfold Sql.headingSchema
    rw [hgiven]
    rfl
  show (collect ((c.rename (exchange d e)).schemas.sorted.filter fun entry => some entry.1 != some e) _).result =
    (collect (c.schemas.sorted.filter fun entry => some entry.1 != some d) _).result
  rw [hsorted, collect_map, hheading h.left, hheading h.right]
  refine congrArg Logged.result (collect_congr_of_mem fun entry hentry => ?_)
  obtain ⟨hmem, hd⟩ := List.mem_filter.mp hentry
  have hget := Entries.get?_of_mem_sorted hmem
  have hname : (entry.2.rename (exchange d e)).name = entry.2.name := by
    show entry.2.name.rename (exchange d e) = _
    rw [(hfiled.schemas _ _ hget).name, Field.rename_text,
      exchange_of_ne (by simpa using hd) (hneutral.schemas _ _ hget).1]
  dsimp only
  rw [Schema.check, Schema.check, Schema.ddl, Schema.ddl, hname]
  rfl

end Diff

/-- A catalog that is neutral between two schemas has the same script for the one as for the other, once they
have exchanged their names. -/
theorem Catalog.dump_rename {c : Catalog} {d e : String} (h : Distinct d e) (hfiled : c.Filed)
    (hneutral : c.Neutral d e) (withHeadings : Bool) :
    ((c.rename (exchange d e)).dump (some e) withHeadings).result = (c.dump (some d) withHeadings).result := by
  unfold dump
  rw [result_diff_some _ _ h.right, result_diff_some _ _ h.left, Diff.walked_rename h hfiled hneutral,
    Diff.schemas_rename h hfiled hneutral, scriptOf_refile]
  rfl

/-! ## The script of a text -/

/-- The script for a schema that a text has if names without a schema belong to that one. -/
def scriptFor (sql schema : String) (withHeadings : Bool) : Logged String := do
  (← Catalog.ofSql sql schema).dump (some schema) withHeadings

open Sql Effect

theorem dump_catalogOf_eq {d e : String} (h : Distinct d e) {all : List Statement}
    (hall : ∀ s ∈ all, s.Avoids d ∧ s.Avoids e) (withHeadings : Bool) :
    (catalogOf e all >>= fun c => c.dump (some e) withHeadings).result =
      (catalogOf d all >>= fun c => c.dump (some d) withHeadings).result := by
  have hkeeps : ∀ s ∈ all, s.Keeps (exchange d e) := by
    intro s hs
    obtain ⟨hd, he⟩ := hall s hs
    refine ⟨fun x hx => exchange_of_ne ?_ ?_, hd.types⟩
    · exact fun hxd => hd.schemas (hxd ▸ hx)
    · exact fun hxe => he.schemas (hxe ▸ hx)
  have hcatalog : (catalogOf e all).result = (catalogOf d all).result.map (Catalog.rename (exchange d e)) := by
    rw [← catalogOf_rename hkeeps, exchange_left]
  rw [Logged.result_bind, Logged.result_bind, hcatalog]
  cases hresult : (catalogOf d all).result with
  | error fault => rfl
  | ok c => exact c.dump_rename h (filed_catalogOf hresult) (neutral_catalogOf h hall hresult) withHeadings

/-- Clubs, and members who refer to them. -/
def clubs : String :=
  "create table clubs (id serial primary key); create table members (club int references clubs)"

def clubStatements : List Statement :=
  [.createTable {
      relation := ⟨none, "clubs"⟩
      elements := [.column {
        name := "id"
        type := { path := ["serial"] }
        rules := [.constraint { column := some "id", rule := .primaryKey }] }] },
    .createTable {
      relation := ⟨none, "members"⟩
      elements := [.column {
        name := "club"
        type := .ofKeyword "int4"
        rules := [.constraint {
          column := some "club"
          rule := .references { table := ⟨none, "clubs"⟩ } false false }] }] }]

/-- A type under the name by which the system knows one of its own, and a remark on that one. -/
def remarkOnKeyword : String :=
  "create type int4 as enum ('a'); comment on type int is 'x'"

end SchemaScript
