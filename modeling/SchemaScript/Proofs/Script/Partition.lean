import SchemaScript.Proofs.Script.TablePieces

/-!
# Tables and their partitions

The walk through the tables of a schema ends by itself, whatever the attachments (`walkTables_eq`).
Without a circle of attachments it misses no table (`reached_of_acyclic`), and where no table is
attached twice every partition is attached to the parent on record, right after it is created.
-/

namespace SchemaScript.Diff

variable {p : Pair} {old new : Catalog} {target : Option String} {ps : Partitions} {walk walk' : Walk}
  {parent : Option String} {name : String}

/-! ## The walk ends by itself -/

theorem foldlM_congr {step other : Walk → String → Logged Walk} {names : List String}
    (I : Walk → Prop) (hwalk : I walk)
    (hsame : ∀ name ∈ names, ∀ w, I w → step w name = other w name)
    (hstep : ∀ name ∈ names, ∀ w w', I w → (step w name).result = .ok w' → I w') :
    names.foldlM step walk = names.foldlM other walk := by
  induction names generalizing walk with
  | nil => rfl
  | cons name names ih =>
    rw [List.foldlM_cons, List.foldlM_cons, hsame name (by simp) walk hwalk]
    refine Logged.bind_congr_of_ok fun w hw => ih (hstep name (by simp) walk w hwalk ?_) ?_ ?_
    · rw [hsame name (by simp) walk hwalk, hw]
    · exact fun n hn => hsame n (List.mem_cons_of_mem name hn)
    · exact fun n hn => hstep n (List.mem_cons_of_mem name hn)

/-- Where partitions may be nested as deep as there are tables left, the bound plays no part. -/
theorem tableTree_depth {depth depth' : Nat} (hsane : walk.Sane p ps)
    (henters : Enters p ps walk parent name)
    (h : p.schema.tables.size < depth + walk.handled.length)
    (h' : p.schema.tables.size < depth' + walk.handled.length) :
    tableTree p new ps depth parent walk name = tableTree p new ps depth' parent walk name := by
  have hlength := hsane.length_le
  induction depth generalizing depth' parent walk name with
  | zero => omega
  | succ depth ih =>
    obtain ⟨depth', rfl⟩ : ∃ d, depth' = d + 1 := ⟨depth' - 1, by omega⟩
    by_cases hdone : p.schema.tables.contains name → name ∈ walk.handled
    · rw [tableTree_of_done hdone, tableTree_of_done hdone]
    · simp only [Classical.not_imp] at hdone
      obtain ⟨hcontains, hnew⟩ := hdone
      obtain ⟨t, ht⟩ := Option.isSome_iff_exists.mp hcontains
      rw [tableTree_of_new ht hnew, tableTree_of_new ht hnew]
      refine Logged.bind_congr_of_ok fun own hown => ?_
      refine Logged.bind_congr_of_ok fun names hnames => ?_
      have hvisit : (walk.visit name own).Sane p ps := preserved_sane ht hnew henters hown hsane
      have hchild {child : String} (hc : child ∈ names) {w : Walk}
          (hw : (walk.visit name own).handled <+: w.handled) : Enters p ps w (some name) child :=
        ⟨hw.mem (by simp), (Partitions.mem_children_iff hnames).mp hc⟩
      -- one more table is handled, which makes up for the smaller bound
      refine foldlM_congr (fun w => w.Sane p ps ∧ (walk.visit name own).handled <+: w.handled)
        ⟨hvisit, List.prefix_rfl⟩ ?_ ?_
      · rintro child hc w ⟨hs, hgrows⟩
        have hmore := hgrows.length_le
        simp only [Walk.handled_visit, List.length_append, List.length_singleton] at hmore
        exact ih hs (hchild hc hgrows) (by omega) (by omega) hs.length_le
      · rintro child hc w w' ⟨hs, hgrows⟩ hw
        exact ⟨tableTree_induct preserved_sane hw (hchild hc hgrows) hs,
          hgrows.trans (handled_grows hw)⟩

/-- However deep partitions may be nested, the walk goes the same way. -/
theorem walkTables_eq {depth : Nat} (h : p.schema.tables.size < depth) :
    walkTables new p = (do
      let ps := Partitions.inSchema new p.schema.name
      let names ← p.schema.sortTables
      (names.filter fun name => !ps.isPartition p.schema.tables name).foldlM
        (tableTree p new ps depth none) {}) := by
  refine Logged.bind_congr_of_ok fun names _ => ?_
  refine foldlM_congr (fun w => w.Sane p (.inSchema new p.schema.name))
    ⟨List.nodup_nil, by simp⟩ ?_ ?_
  · intro name hname w hs
    have hroot : Enters p (.inSchema new p.schema.name) w none name := by
      simpa [Enters] using (List.mem_filter.mp hname).2
    exact tableTree_depth hs hroot (by omega) (by omega)
  · intro name hname w w' hs hw
    have hroot : Enters p (.inSchema new p.schema.name) w none name := by
      simpa [Enters] using (List.mem_filter.mp hname).2
    exact tableTree_induct preserved_sane hw hroot hs

/-! ## Recorded parents -/

/-- The table of the schema to which the table is attached last. -/
def Partitions.recordedParent? (ps : Partitions) (tables : Entries Table) (name : String) :
    Option String :=
  (ps.last? name).bind fun a => a.parentTable.stored.string?.filter tables.contains

theorem Partitions.isPartition_eq (ps : Partitions) (tables : Entries Table) (name : String) :
    ps.isPartition tables name = (ps.recordedParent? tables name).isSome := by
  unfold isPartition recordedParent?
  rcases ps.last? name with _ | a
  · rfl
  · rcases hs : a.parentTable.stored.string? with _ | parent <;> simp [hs]

theorem Partitions.attached_of_recordedParent? {tables : Entries Table} {q : String}
    (h : ps.recordedParent? tables name = some q) : ps.Attached q name ∧ tables.contains q := by
  obtain ⟨a, ha, h⟩ := Option.bind_eq_some_iff.mp h
  obtain ⟨hstored, hcontains⟩ := Option.filter_eq_some_iff.mp h
  refine ⟨⟨a, List.mem_reverse.mp (List.mem_of_find?_eq_some ha), ?_, ?_⟩, hcontains⟩
  · exact Field.stored_eq_text_iff.mp (Json.string?_eq_some_iff.mp hstored)
  · simpa using List.find?_some ha

/-- Where no table is attached twice, the attachment on record is the only one. -/
theorem Partitions.last?_eq_of_mem (hsingle : (ps.attachments.map (·.childTable)).Nodup)
    {a : PartitionAttachment} (ha : a ∈ ps.attachments)
    (hchild : a.childTable = (name : Field String)) : ps.last? name = some a := by
  rcases hlast : ps.last? name with _ | b
  · have hnone := List.find?_eq_none.mp hlast a (List.mem_reverse.mpr ha)
    simp [hchild] at hnone
  · have hb := List.mem_reverse.mp (List.mem_of_find?_eq_some hlast)
    have hbchild : b.childTable = (name : Field String) := by simpa using List.find?_some hlast
    rw [List.inj_on_of_nodup_map hsingle ha hb (hchild.trans hbchild.symm)]

/-- A walk comes to every partition from its recorded parent. -/
theorem Walk.Layout.parent_eq {parents : String → Option String} {partsOf : String → List Piece}
    (h : walk.Layout p ps parents partsOf) (hsane : walk.Sane p ps)
    (hsingle : (ps.attachments.map (·.childTable)).Nodup) (hname : name ∈ walk.handled) :
    parents name = ps.recordedParent? p.schema.tables name := by
  rcases hparent : parents name with _ | q
  · have hroot := h.root name hname hparent
    rw [Partitions.isPartition_eq] at hroot
    exact (Option.not_isSome_iff_eq_none.mp (Bool.eq_false_iff.mp hroot)).symm
  · obtain ⟨hsub, a, ha, haparent, hachild⟩ := h.child name hname q hparent
    have hq : p.schema.tables.contains q := (hsane.reached q (hsub.subset (by simp))).contains
    rw [Partitions.recordedParent?, Partitions.last?_eq_of_mem hsingle ha hachild, Option.bind_some,
      haparent]
    simp [Json.string?, Option.filter, hq]

theorem Walk.Layout.with_recordedParent {parents : String → Option String}
    {partsOf : String → List Piece} (h : walk.Layout p ps parents partsOf) (hsane : walk.Sane p ps)
    (hsingle : (ps.attachments.map (·.childTable)).Nodup) :
    walk.Layout p ps (ps.recordedParent? p.schema.tables) partsOf := by
  have hparent {n : String} (hn : n ∈ walk.handled) := h.parent_eq hsane hsingle hn
  refine ⟨fun n hn hroot => ?_, fun n hn q hq => ?_, h.part, ?_⟩
  · exact h.root n hn ((hparent hn).trans hroot)
  · exact h.child n hn q ((hparent hn).trans hq)
  · rw [h.pieces]
    exact List.flatMap_congr fun n hn => by rw [hparent hn]

/-! ## Every table is reached unless attachments go in a circle -/

theorem reached_of_acyclic (hacyclic : ∀ name, ¬ Relation.TransGen ps.Attached name name)
    (h : p.schema.tables.contains name) : Reached p ps name := by
  have hwf := Order.wellFounded_of_acyclic p.schema.tables.names hacyclic
  suffices hall : ∀ n : {n // n ∈ p.schema.tables.names}, Reached p ps n.1 from
    hall ⟨name, Entries.contains_iff_mem_names.mp h⟩
  intro n
  induction n using hwf.induction with
  | _ n ih =>
    have hn := Entries.contains_iff_mem_names.mpr n.2
    rcases hparent : ps.recordedParent? p.schema.tables n.1 with _ | q
    · exact .root hn (by rw [Partitions.isPartition_eq, hparent]; rfl)
    · obtain ⟨hattached, hq⟩ := Partitions.attached_of_recordedParent? hparent
      exact .child (ih ⟨q, Entries.contains_iff_mem_names.mp hq⟩ (.single hattached)) hattached hn

/-! ## The tables that a script creates -/

/-- The tables of the schema that the pieces create, one after another. -/
def Pair.created (p : Pair) (pieces : List Piece) : List String :=
  (pieces.filter (·.createsTable)).filterMap fun x => p.tableName? x.tag

theorem Walk.Layout.created_eq {parents : String → Option String} {partsOf : String → List Piece}
    (h : walk.Layout p ps parents partsOf) :
    p.created walk.pieces = walk.handled.filter fun name => (creation? p name).isSome := by
  rw [Pair.created, h.filter_createsTable, List.filterMap_filterMap, ← List.filterMap_eq_filter]
  refine List.filterMap_congr fun name _ => ?_
  rcases hcreation : creation? p name with _ | x
  · simp [Option.guard, hcreation]
  · have htag := (createsTable_of_creation? hcreation).1
    simp [Option.guard, hcreation, Pair.tableName?_eq_some_iff.mpr htag]

theorem created_append_of_none {before after pieces : List Piece}
    (h : ∀ x ∈ before ++ after, p.tableName? x.tag = none) :
    p.created (before ++ pieces ++ after) = p.created pieces := by
  have hnone {others : List Piece} (hothers : ∀ x ∈ others, x ∈ before ++ after) :
      (others.filter (·.createsTable)).filterMap (fun x => p.tableName? x.tag) = [] :=
    List.filterMap_eq_nil_iff.mpr fun x hx => h x (hothers x (List.mem_of_mem_filter hx))
  simp only [Pair.created, List.filter_append, List.filterMap_append]
  rw [hnone fun x hx => List.mem_append_left after hx,
    hnone fun x hx => List.mem_append_right before hx, List.nil_append, List.append_nil]

/-- A partitioned table with one partition. -/
def ledgerSchema : Schema where
  name := "ledger"
  tables :=
    (Entries.empty.put "entries"
      { schema := "ledger"
        name := "entries"
        columns := [{ name := "day", position := (1 : Int), dataType := "date" }]
        isPartitioned := true
        partitionStrategy := "range"
        partitionKey := "day" }).put "recent"
      { schema := "ledger"
        name := "recent"
        columns := [{ name := "day", position := (1 : Int), dataType := "date" }] }

def ledger : Catalog where
  schemas := Entries.empty.put "ledger" ledgerSchema
  partitions :=
    [{ parentSchema := "ledger", parentTable := "entries", childSchema := "ledger",
       childTable := "recent", bound := "DEFAULT" }]

def ledgerPair : Pair where
  key := "ledger"
  schema := ledgerSchema
  old := none
  target := none

theorem ledger_acyclic (name : String) :
    ¬ Relation.TransGen (Partitions.inSchema ledger ledgerSchema.name).Attached name name := by
  refine Order.acyclic_of_single (show "entries" ≠ "recent" by decide) ?_ name
  rintro a b ⟨attachment, hmem, hparent, hchild⟩
  have hone : (Partitions.inSchema ledger ledgerSchema.name).attachments = ledger.partitions := by
    decide +kernel
  rw [hone] at hmem
  obtain rfl := List.mem_singleton.mp hmem
  exact ⟨by simpa [eq_comm] using hparent, by simpa [eq_comm] using hchild⟩

end SchemaScript.Diff
