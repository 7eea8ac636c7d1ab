import SchemaScript.Proofs.Ddl.Reordering
import SchemaScript.Proofs.Script.TableWalk

/-!
# Scripts for catalogs that differ by order

A script depends on what the newer catalog keeps, not on the order in which it came in: catalogs that are
alike have the same script, or are refused for the same reason (`Catalog.diff_eq_of_alike`).
-/

namespace SchemaScript

variable {new new' old : Catalog} {target : Option String}

/-! ## The order of tables and views -/

theorem Order.topological_eq_of_perm {names names' : List String} (h : names.Perm names')
    (edges : List Edge) : topological names edges = topological names' edges := by
  have hsorted : sortedSet names = sortedSet names' := by
    rw [sortedSet, sortedSet, sort_names_eq_of_perm h]
  rw [topological, topological, hsorted]

/-- Tables are in the same order where their foreign keys come to the same. -/
theorem Schema.tableEdges_congr {s s' : Schema} {r : Table → Table → Prop} {q : Constraint → Constraint → Prop}
    (htables : s.tables.Alike r s'.tables)
    (hkeys : ∀ t t', r t t' → List.Forall₂ q t.foreignKeys t'.foreignKeys)
    (heffect : ∀ name c c', q c c' → s.keyEffect name c = s'.keyEffect name c') :
    s.tableEdges = s'.tableEdges := by
  have hall : List.Forall₂ (fun x y => x.1 = y.1 ∧ q x.2 y.2) s.foreignKeys s'.foreignKeys := by
    refine List.rel_flatMap htables.forall₂_sorted fun x y hxy => ?_
    rw [List.forall₂_map_left_iff, List.forall₂_map_right_iff]
    exact (hkeys _ _ hxy.2).imp fun _ _ hc => ⟨hxy.1, hc⟩
  refine filterMap_eq_of_forall₂ (fun x y hxy => ?_) hall
  obtain ⟨name, c⟩ := x
  obtain ⟨name', c'⟩ := y
  obtain ⟨rfl, hc⟩ := hxy
  simp only [heffect name c c' hc]

namespace Schema.Alike

variable {s s' : Schema}

theorem keyEffect_eq (h : s.Alike s') (name : String) {c c' : Constraint} (hc : c.Alike c') :
    s.keyEffect name c = s'.keyEffect name c' := by
  have hcontains := h.tables.contains_eq
  obtain ⟨-, -⟩ := hc
  rw [keyEffect, keyEffect, h.name]
  simp only [hcontains]

theorem tableEdges_eq (h : s.Alike s') : s.tableEdges = s'.tableEdges :=
  tableEdges_congr h.tables (fun _ _ ht => ht.forall₂_foreignKeys) fun name _ _ hc => h.keyEffect_eq name hc

theorem sortViews_eq (h : s.Alike s') : s.sortViews = s'.sortViews := by
  have hedges : s.viewEdges = s'.viewEdges := by
    rw [viewEdges, viewEdges, h.views.sortedNames_eq, h.views.sorted_eq]
  rw [sortViews, sortViews, Entries.sortedValues, Entries.sortedValues, h.views.sorted_eq,
    Order.sortLogged, Order.sortLogged, hedges, Order.topological_eq_of_perm h.views.names_perm]

end Schema.Alike

namespace Diff

/-! ## Partitions -/

/-- The same partitions, as far as a script asks for them. -/
structure Partitions.Alike (ps ps' : Partitions) : Prop where
  last : ps.last? = ps'.last?
  children : ps.children = ps'.children

namespace Partitions

variable {ps ps' : Partitions}

theorem Alike.bound?_eq (h : ps.Alike ps') : ps.bound? = ps'.bound? := by
  funext child
  rw [bound?, bound?, h.last]

theorem last?_eq (ps : Partitions) (child : String) :
    ps.last? child =
      (ps.attachments.filter fun a => a.childTable == (child : Field String)).getLast? := by
  rw [last?, ← List.head?_filter, List.filter_reverse, List.head?_reverse]

theorem attachments_inSchema (c : Catalog) (schema : Field String) :
    (inSchema c schema).attachments =
      c.partitions.filter fun a => a.parentSchema == schema && a.childSchema == schema := rfl

theorem alike_inSchema (h : new.Alike new') (schema : Field String) :
    (inSchema new schema).Alike (inSchema new' schema) := by
  constructor
  · funext child
    rw [last?_eq, last?_eq, attachments_inSchema, attachments_inSchema, List.filter_filter,
      List.filter_filter]
    refine congrArg List.getLast? (h.partitions.filter_eq fun x y hx hy => ?_)
    simp only [Bool.and_eq_true, beq_iff_eq] at hx hy
    rw [PartitionAttachment.child, PartitionAttachment.child, hx.1, hy.1, hx.2.2, hy.2.2]
    exact fun hne => hne rfl
  · funext parent
    have hperm : (inSchema new schema).attachments.Perm (inSchema new' schema).attachments :=
      (h.partitions.filter _).perm
    have hfound := (hperm.filter fun a => a.parentTable == (parent : Field String)).map
      (·.childTable.stored)
    show (if Json.areOrdered _ then _ else _) = (if Json.areOrdered _ then _ else _)
    rw [Json.areOrdered_perm hfound, Order.sort_names_eq_of_perm (hfound.filterMap Json.string?)]

end Partitions

theorem attachedIndexes_eq (h : new.Alike new') (schema : Field String) (key : String) :
    (new.indexPartitions.filter fun a =>
        a.childSchema == schema && a.childIndex == (key : Field String)) =
      new'.indexPartitions.filter fun a =>
        a.childSchema == schema && a.childIndex == (key : Field String) := by
  refine h.indexPartitions.filter_eq fun x y hx hy => ?_
  simp only [Bool.and_eq_true, beq_iff_eq] at hx hy
  rw [IndexAttachment.child, IndexAttachment.child, hx.1, hy.1, hx.2, hy.2]
  exact fun hne => hne rfl

/-! ## Schemas side by side -/

structure Pair.Alike (p p' : Pair) : Prop where
  key : p.key = p'.key
  old : p.old = p'.old
  target : p.target = p'.target
  schema : p.schema.Alike p'.schema

namespace Pair.Alike

variable {p p' : Pair}

theorem tag_eq (h : p.Alike p') : p.tag = p'.tag := by
  funext kind key
  rw [tag, tag, h.key]

theorem heading_eq (h : p.Alike p') : p.heading = p'.heading := by
  rw [heading, heading, h.schema.name, h.target]

theorem forall₂_added {α : Type} {r : α → α → Prop} {entries : Schema → Entries α} (h : p.Alike p')
    (hentries : (entries p.schema).Alike r (entries p'.schema)) :
    List.Forall₂ (fun x y => x.1 = y.1 ∧ r x.2 y.2) (p.added entries) (p'.added entries) := by
  rw [added, added, h.old]
  refine forall₂_filter (fun x y hxy => ?_) hentries.forall₂_sorted
  rw [hxy.1]

theorem added_eq {α : Type} {entries : Schema → Entries α} (h : p.Alike p')
    (hentries : (entries p.schema).Alike Eq (entries p'.schema)) :
    p.added entries = p'.added entries := by
  rw [added, added, h.old, hentries.sorted_eq]

end Pair.Alike

theorem forall₂_pairs_of {r : Schema → Schema → Prop} {q : Pair → Pair → Prop}
    (hschemas : new.schemas.Alike r new'.schemas) (target : Option String)
    (hpair : ∀ key s s' older, r s s' → q ⟨key, s, older, target⟩ ⟨key, s', older, target⟩) :
    List.Forall₂ q (pairs old new target) (pairs old new' target) := by
  rw [pairs, pairs, List.forall₂_map_left_iff, List.forall₂_map_right_iff]
  refine (forall₂_filter (fun _ _ hxy => by rw [hxy.1]) hschemas.forall₂_sorted).imp ?_
  rintro ⟨key, s⟩ ⟨_, s'⟩ ⟨rfl, hs⟩
  exact hpair key s s' _ hs

theorem forall₂_pairs (h : new.Alike new') (target : Option String) :
    List.Forall₂ Pair.Alike (pairs old new target) (pairs old new' target) :=
  forall₂_pairs_of h.schemas target fun _ _ _ _ hs => ⟨rfl, rfl, rfl, hs⟩

/-! ## Tables -/

section

variable {p p' : Pair} {ps ps' : Partitions} {t t' : Table}

theorem attachment_eq (hp : p.Alike p') (hps : ps.Alike ps') (name : String)
    (parent : Option String) : attachment p ps name parent = attachment p' ps' name parent := by
  cases parent with
  | none => rfl
  | some parent =>
    rw [attachment, attachment, hp.tag_eq, hp.heading_eq, hp.target, hp.schema.name, hps.bound?_eq]

theorem index_congr (hnew : new.Alike new') (hp : p.Alike p') (tag : Tag) (key : String)
    {i i' : Index} (hi : i.Alike i') :
    (index p tag new key i).result = (index p' tag new' key i').result := by
  rw [index, index, hp.heading_eq, hp.target, hi.ddl_eq, hi.check_eq, hp.schema.name,
    attachedIndexes_eq hnew]

theorem tableParts_congr (hnew : new.Alike new') (hp : p.Alike p') (tag : Tag) (ht : t.Alike t') :
    (tableParts p tag new t).result = (tableParts p' tag new' t').result := by
  have hinline := ht.isInline_eq
  obtain ⟨-, hconstraints, hindexes, htriggers, hpolicies⟩ := ht
  have hindexes := forall₂_filter (p := fun entry => !entry.2.isPrimary.isGiven)
    (q := fun entry => !entry.2.isPrimary.isGiven)
    (fun _ _ hxy => by rw [hxy.2.isPrimary_eq]) hindexes.forall₂_sorted
  have hconstraints := forall₂_filter (p := fun entry => !t.isInline entry.1 entry.2)
    (fun _ _ hxy => by rw [hinline _ hxy.2, hxy.1]) hconstraints.forall₂_sorted
  refine Logged.result_bind_congr (collect_congr hindexes ?_) fun indexes => ?_
  · rintro ⟨key, i⟩ ⟨_, i'⟩ ⟨rfl, hi⟩
    exact index_congr hnew hp tag key hi
  refine Logged.result_bind_congr (collect_congr hconstraints ?_) fun constraints => ?_
  · rintro ⟨key, c⟩ ⟨_, c'⟩ ⟨rfl, hc⟩
    dsimp only
    rw [hp.heading_eq, hp.target, hc.ddl_eq, hc.check_eq]
  refine Logged.result_bind_congr (collect_congr htriggers.forall₂_sorted ?_) fun triggers => ?_
  · rintro ⟨key, r⟩ ⟨_, r'⟩ ⟨rfl, hr⟩
    dsimp only
    rw [hp.heading_eq, hp.target, hr.ddl_eq, hr.check_eq]
  rw [hp.heading_eq, hp.target, hpolicies.sorted_eq]
  rfl

theorem tablePieces_congr (hnew : new.Alike new') (hp : p.Alike p') (hps : ps.Alike ps')
    (name : String) (ht : t.Alike t') (parent : Option String) :
    (tablePieces p new ps name t parent).result =
      (tablePieces p' new' ps' name t' parent).result := by
  have hcreated : isCreated p name t = isCreated p' name t' := by
    obtain ⟨-, -, -, -, -⟩ := ht
    rw [isCreated, isCreated, hp.old]
  rw [tablePieces, tablePieces, hcreated, hp.tag_eq, hp.heading_eq, hp.target, ht.ddl_eq, ht.check_eq,
    attachment_eq hp hps]
  split
  · rfl
  · refine Logged.result_bind_congr rfl fun own => ?_
    split
    · rfl
    · refine Logged.result_bind_congr rfl fun attached => ?_
      exact Logged.result_bind_congr (tableParts_congr hnew hp _ ht) fun parts => rfl

theorem foldlM_result_congr {step other : Walk → String → Logged Walk}
    (hstep : ∀ walk name, (step walk name).result = (other walk name).result) (names : List String)
    (walk : Walk) : (names.foldlM step walk).result = (names.foldlM other walk).result := by
  induction names generalizing walk with
  | nil => rfl
  | cons name names ih =>
    rw [List.foldlM_cons, List.foldlM_cons]
    exact Logged.result_bind_congr (hstep walk name) ih

section

variable {r : Table → Table → Prop} (htables : p.schema.tables.Alike r p'.schema.tables)
include htables

/-- A walk goes the same way where the same tables have the same pieces. -/
theorem tableTree_congr (hchildren : ps.children = ps'.children)
    (hpieces : ∀ name parent t t', r t t' →
      (tablePieces p new ps name t parent).result = (tablePieces p' new' ps' name t' parent).result)
    (depth : Nat) (parent : Option String) (walk : Walk) (name : String) :
    (tableTree p new ps depth parent walk name).result =
      (tableTree p' new' ps' depth parent walk name).result := by
  induction depth generalizing parent walk name with
  | zero => rw [tableTree, tableTree]
  | succ depth ih =>
    have hcontains := htables.contains_eq name
    by_cases hdone : p.schema.tables.contains name → name ∈ walk.handled
    · rw [tableTree_of_done hdone, tableTree_of_done (hcontains ▸ hdone)]
    · simp only [Classical.not_imp] at hdone
      obtain ⟨hin, hfresh⟩ := hdone
      obtain ⟨t, ht⟩ := Option.isSome_iff_exists.mp hin
      obtain ⟨t', ht'⟩ := Option.isSome_iff_exists.mp (hcontains ▸ hin)
      have htable := htables name
      rw [ht, ht'] at htable
      obtain ⟨htable⟩ | _ := htable
      rw [tableTree_of_new ht hfresh, tableTree_of_new ht' hfresh, hchildren]
      refine Logged.result_bind_congr (hpieces name parent t t' htable) fun own => ?_
      refine Logged.result_bind_congr rfl fun names => ?_
      exact foldlM_result_congr (fun w n => ih (some name) w n) names (walk.visit name own)

theorem tables_congr_of (hname : p.schema.name = p'.schema.name)
    (hedges : p.schema.tableEdges = p'.schema.tableEdges)
    (hps : (Partitions.inSchema new p.schema.name).Alike (.inSchema new' p'.schema.name))
    (hpieces : ∀ name parent t t', r t t' →
      (tablePieces p new (.inSchema new p.schema.name) name t parent).result =
        (tablePieces p' new' (.inSchema new' p'.schema.name) name t' parent).result) :
    (tables new p).result = (tables new' p').result := by
  have hcontains : p.schema.tables.contains = p'.schema.tables.contains := funext htables.contains_eq
  have hroots : rootTables new p = rootTables new' p' := by
    rw [rootTables, rootTables, hedges, Order.topological_eq_of_perm htables.names_perm]
    simp only [Partitions.isPartition, hps.last, hcontains]
  have hwalk : (walkTables new p).result = (walkTables new' p').result := by
    rw [result_walkTables, result_walkTables, hroots, htables.size_eq]
    exact foldlM_result_congr (tableTree_congr htables hps.children hpieces _ none) _ _
  rw [tables, tables, hname]
  exact Logged.result_bind_congr hwalk fun walk => rfl

end

theorem tables_congr (hnew : new.Alike new') (hp : p.Alike p') :
    (tables new p).result = (tables new' p').result := by
  have hps : (Partitions.inSchema new p.schema.name).Alike (.inSchema new' p'.schema.name) := by
    rw [hp.schema.name]
    exact Partitions.alike_inSchema hnew _
  exact tables_congr_of hp.schema.tables hp.schema.name hp.schema.tableEdges_eq hps
    fun name parent _ _ ht => tablePieces_congr hnew hp hps name ht parent

end

/-! ## The other passes -/

section

variable {p p' : Pair}

/-- Types under the same names that are alike. -/
def TypesAlike (x y : String × UserType) : Prop :=
  x.1 = y.1 ∧ x.2.Alike y.2

theorem sortTypes_alike {l l' : List (String × UserType)} (h : List.Forall₂ TypesAlike l l') :
    (∃ sorted sorted', sortTypes l = pure sorted ∧ sortTypes l' = pure sorted' ∧
      List.Forall₂ TypesAlike sorted sorted') ∨
    (sortTypes l = .fail .unordered ∧ sortTypes l' = .fail .unordered) := by
  have hplain := forall₂_filter (p := fun t => !t.2.isDomain) (q := fun t => !t.2.isDomain)
    (fun _ _ hxy => by rw [hxy.2.isDomain_eq]) h
  have hdomains := forall₂_filter (p := fun t => t.2.isDomain) (q := fun t => t.2.isDomain)
    (fun _ _ hxy => by rw [hxy.2.isDomain_eq]) h
  have hnames {m m' : List (String × UserType)} (hm : List.Forall₂ TypesAlike m m') :
      isSortable (m.map (·.2.name)) = isSortable (m'.map (·.2.name)) :=
    congrArg isSortable (map_eq_of_forall₂ (fun _ _ hxy => hxy.2.name_eq) hm)
  have hbefore (a b a' b' : String × UserType) (ha : TypesAlike a a') (hb : TypesAlike b b') :
      a.2.name.stored.precedes b.2.name.stored = a'.2.name.stored.precedes b'.2.name.stored := by
    rw [ha.2.name_eq, hb.2.name_eq]
  by_cases hsortable : isSortable ((l.filter fun t => !t.2.isDomain).map (·.2.name)) &&
      isSortable ((l.filter fun t => t.2.isDomain).map (·.2.name))
  · have hsortable' := hsortable
    rw [hnames hplain, hnames hdomains] at hsortable'
    exact .inl ⟨_, _, if_pos hsortable, if_pos hsortable', List.rel_append
      (Order.forall₂_sort hbefore hplain) (Order.forall₂_sort hbefore hdomains)⟩
  · have hsortable' := hsortable
    rw [hnames hplain, hnames hdomains] at hsortable'
    exact .inr ⟨if_neg hsortable, if_neg hsortable'⟩

theorem types_congr (hp : p.Alike p') : (types p).result = (types p').result := by
  have hadded : List.Forall₂ TypesAlike (p.added (·.types)) (p'.added (·.types)) :=
    hp.forall₂_added hp.schema.types
  rw [types, types]
  rcases sortTypes_alike hadded with ⟨sorted, sorted', hs, hs', halike⟩ | ⟨hs, hs'⟩
  · rw [hs, hs', pure_bind, pure_bind]
    refine collect_congr halike ?_
    rintro ⟨key, t⟩ ⟨_, t'⟩ ⟨rfl, ht⟩
    dsimp only
    rw [hp.tag_eq, hp.heading_eq, hp.target, ht.name_eq, ht.isDomain_eq, ht.ddl_eq, ht.check_eq]
  · rw [hs, hs', Logged.bind_of_error (Logged.result_fail _),
      Logged.bind_of_error (Logged.result_fail _)]

theorem views_eq (hp : p.Alike p') : views p = views p' := by
  have hview : view p = view p' := by
    funext name
    rw [view, view, hp.schema.views.get?_eq, hp.tag_eq, hp.heading_eq, hp.target]
  rw [views, views, hp.schema.sortViews_eq, hp.old, hview]

theorem sequences_eq (hp : p.Alike p') : sequences p = sequences p' := by
  have hadded : p.added (·.sequences) = p'.added (·.sequences) := hp.added_eq hp.schema.sequences
  have hsequence : sequence p = sequence p' := by
    funext key s
    rw [sequence, sequence, hp.tag_eq, hp.heading_eq, hp.target]
  rw [sequences, sequences, hadded, hsequence]

theorem functions_eq (hp : p.Alike p') : functions p = functions p' := by
  have hadded : p.added (·.functions) = p'.added (·.functions) := hp.added_eq hp.schema.functions
  rw [functions, functions, hadded, hp.tag_eq, hp.heading_eq, hp.target]

theorem aggregates_eq (hp : p.Alike p') : aggregates p = aggregates p' := by
  have hadded : p.added (·.aggregates) = p'.added (·.aggregates) := hp.added_eq hp.schema.aggregates
  rw [aggregates, aggregates, hadded, hp.tag_eq, hp.heading_eq, hp.target]

theorem procedures_eq (hp : p.Alike p') : procedures p = procedures p' := by
  have hadded : p.added (·.procedures) = p'.added (·.procedures) := hp.added_eq hp.schema.procedures
  rw [procedures, procedures, hadded, hp.tag_eq, hp.heading_eq, hp.target]

end

theorem extensions_eq (h : new.Alike new') : extensions old new = extensions old new' := by
  rw [extensions, extensions, h.extensions.sorted_eq]

theorem schemas_congr (h : new.Alike new') :
    (schemas old new target).result = (schemas old new' target).result := by
  refine collect_congr (forall₂_filter (fun _ _ hxy => by rw [hxy.1]) h.schemas.forall₂_sorted) ?_
  rintro ⟨key, s⟩ ⟨_, s'⟩ ⟨rfl, hs⟩
  dsimp only
  rw [hs.owner, Schema.check, Schema.check, Schema.ddl, Schema.ddl, hs.name]

/-- The passes that look at no other schema. -/
def ownPasses : List (Pair → Logged (List Piece)) :=
  [types, sequences, views, functions, aggregates, procedures]

/-- Scripts are the same where every pass is. -/
theorem pieces_congr_of {r : Pair → Pair → Prop} (hextensions : extensions old new = extensions old new')
    (hschemas : (schemas old new (Text.given target)).result = (schemas old new' (Text.given target)).result)
    (hpairs : List.Forall₂ r (pairs old new (Text.given target)) (pairs old new' (Text.given target)))
    (hown : ∀ p p', r p p' → ∀ pass ∈ ownPasses, (pass p).result = (pass p').result)
    (htables : ∀ p p', r p p' → (tables new p).result = (tables new' p').result) :
    (pieces old new target).result = (pieces old new' target).result := by
  have hpass {pass : Pair → Logged (List Piece)} (hpass : pass ∈ ownPasses) :
      (collect (pairs old new (Text.given target)) pass).result =
        (collect (pairs old new' (Text.given target)) pass).result :=
    collect_congr hpairs fun p p' hp => hown p p' hp pass hpass
  rw [pieces, pieces, hextensions]
  refine Logged.result_bind_congr rfl fun _ => ?_
  refine Logged.result_bind_congr hschemas fun _ => ?_
  refine Logged.result_bind_congr (hpass (by simp [ownPasses])) fun _ => ?_
  refine Logged.result_bind_congr (hpass (by simp [ownPasses])) fun _ => ?_
  refine Logged.result_bind_congr (collect_congr hpairs htables) fun _ => ?_
  refine Logged.result_bind_congr (hpass (by simp [ownPasses])) fun _ => ?_
  refine Logged.result_bind_congr (hpass (by simp [ownPasses])) fun _ => ?_
  refine Logged.result_bind_congr (hpass (by simp [ownPasses])) fun _ => ?_
  exact Logged.result_bind_congr (hpass (by simp [ownPasses])) fun _ => rfl

theorem pieces_congr (h : new.Alike new') :
    (pieces old new target).result = (pieces old new' target).result := by
  refine pieces_congr_of (extensions_eq h) (schemas_congr h) (forall₂_pairs h (Text.given target)) ?_
    fun p p' hp => tables_congr h hp
  intro p p' hp
  simp only [ownPasses, List.forall_mem_cons]
  exact ⟨types_congr hp, by rw [sequences_eq hp], by rw [views_eq hp], by rw [functions_eq hp],
    by rw [aggregates_eq hp], by rw [procedures_eq hp], nofun⟩

end Diff

/-- Catalogs that differ at most in what has no order of its own are added to an older one by the same
script, or refused for the same reason. -/
theorem Catalog.diff_eq_of_alike (h : new.Alike new') (old : Catalog) (target : Option String)
    (withHeadings : Bool) :
    (old.diff new target withHeadings).result = (old.diff new' target withHeadings).result := by
  rw [diff, diff, h.metadata]
  exact Logged.result_bind_congr (Diff.pieces_congr h) fun pieces => rfl

/-- Boxes, and the parts in them: the lists as `columns`, `keys` and `events` give them, and the tables put
in order by `arrange`. -/
def plantOf (arrange : Table → Table → Entries Table) (columns : List Column) (keys : List KeyColumn)
    (events : List Event) : Catalog where
  schemas := Entries.empty.put "plant"
    { name := "plant"
      tables := arrange
        { schema := "plant"
          name := "boxes"
          columns := [{ name := "id", position := (1 : Int), dataType := "integer" }] }
        { schema := "plant"
          name := "parts"
          columns
          constraints := Entries.empty.put "once"
            { schema := "plant", table := "parts", name := "once", kind := .unique, columns := keys }
          triggers := Entries.empty.put "audit"
            { schema := "plant", table := "parts", name := "audit", events, function := "note" } } }

def plant : Catalog :=
  plantOf (fun boxes parts => (Entries.empty.put "boxes" boxes).put "parts" parts)
    [{ name := "code", position := (1 : Int), dataType := "text" },
     { name := "box", position := (2 : Int), dataType := "integer" }]
    [{ name := "box", position := (1 : Int) }, { name := "code", position := (2 : Int) }]
    [.insert, .delete]

/-- The same plant as it may come in some other time. -/
def plantAgain : Catalog :=
  plantOf (fun boxes parts => (Entries.empty.put "parts" parts).put "boxes" boxes)
    [{ name := "box", position := (2 : Int), dataType := "integer" },
     { name := "code", position := (1 : Int), dataType := "text" }]
    [{ name := "code", position := (2 : Int) }, { name := "box", position := (1 : Int) }]
    [.delete, .insert, .delete]

theorem rearranged_pair {α : Type} {Apart : α → α → Prop} {x y : α} (h : Apart x y) :
    Rearranged Apart [x, y] [y, x] :=
  .inr ⟨List.Perm.swap y x [], by simpa using h⟩

theorem plant_alike : plant.Alike plantAgain := by
  refine ⟨rfl, .put .empty "plant" ⟨rfl, rfl, .put_put .empty (by decide) ?_ ?_, .empty, .empty, .empty,
    .empty, .empty, .empty, .empty⟩, .empty, .inl rfl, .inl rfl⟩
  · exact .reorder (.inl rfl) .empty .empty .empty .empty
  · refine .reorder (rearranged_pair ?_) (.put .empty "once" (.reorder (rearranged_pair ?_) (.inl rfl)))
      .empty (.put .empty "audit" (.reorder fun event => ?_)) .empty
    · exact positionsApart_of_ne rfl rfl (by decide)
    · exact positionsApart_of_ne rfl rfl (by decide)
    · cases event <;> decide

theorem plant_script_same :
    plant ≠ plantAgain ∧
      (({} : Catalog).diff plant (some "plant") false).result = .ok
        ("CREATE TABLE boxes (\n    id integer\n);\n\n" ++
          "CREATE TABLE parts (\n    code text,\n    box integer\n);\n\n" ++
          "ALTER TABLE parts ADD CONSTRAINT once UNIQUE (box, code);\n\n" ++
          "CREATE TRIGGER audit AFTER INSERT OR DELETE ON parts FOR EACH ROW " ++
          "EXECUTE FUNCTION note();\n") ∧
      (({} : Catalog).diff plant (some "plant") false).result =
        (({} : Catalog).diff plantAgain (some "plant") false).result :=
  ⟨by decide +kernel, by decide +kernel, Catalog.diff_eq_of_alike plant_alike {} (some "plant") false⟩

end SchemaScript
