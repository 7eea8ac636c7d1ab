import SchemaScript.Proofs.Effect.Additions
import SchemaScript.Proofs.Effect.Inheritance
import SchemaScript.Proofs.Script.Reordering

/-!
# Statements in another order

Where a script says nothing twice (`Unambiguous`), its statements describe the same catalog in every order that
keeps those that add to objects in theirs (`catalog_of_perm`). Statements that create may come in any
order by `agrees_of_perm`, the others cannot tell the catalogs apart (`reordered_effects`), and neither can the
partitions that wait for their columns (`agrees_inheritAll`).
-/

namespace SchemaScript

/-- No two tables of a schema have an index of one name. -/
def Catalog.IndexesApart (c : Catalog) : Prop :=
  ∀ schema name name' t t', c.findTable? schema name = some t → c.findTable? schema name' = some t' →
    ∀ index, t.indexes.contains index → t'.indexes.contains index → name = name'

theorem Catalog.indexesApart_iff {c : Catalog} : c.IndexesApart ↔
    ∀ s ∈ c.schemas.pairs, ∀ a ∈ s.2.tables.pairs, ∀ b ∈ s.2.tables.pairs,
      ∀ index ∈ a.2.indexes.names, index ∈ b.2.indexes.names → a.1 = b.1 := by
  constructor
  · rintro h ⟨schema, s⟩ hs ⟨name, t⟩ ht ⟨name', t'⟩ ht' index hindex hindex'
    have hfound {n : String} {u : Table} (hu : (n, u) ∈ s.tables.pairs) : c.findTable? schema n = some u :=
      Option.bind_eq_some_iff.mpr ⟨s, Entries.get?_eq_some_iff.mpr hs, Entries.get?_eq_some_iff.mpr hu⟩
    exact h schema name name' t t' (hfound ht) (hfound ht') index (Entries.contains_iff_mem_names.mpr hindex)
      (Entries.contains_iff_mem_names.mpr hindex')
  · intro h schema name name' t t' ht ht' index hindex hindex'
    obtain ⟨s, hs, ht⟩ := Option.bind_eq_some_iff.mp ht
    obtain ⟨s', hs', ht'⟩ := Option.bind_eq_some_iff.mp ht'
    obtain rfl := Option.some.inj (hs.symm.trans hs')
    exact h (schema, s) (Entries.get?_eq_some_iff.mp hs) (name, t) (Entries.get?_eq_some_iff.mp ht) (name', t')
      (Entries.get?_eq_some_iff.mp ht') index (Entries.contains_iff_mem_names.mp hindex)
      (Entries.contains_iff_mem_names.mp hindex')

instance (c : Catalog) : Decidable c.IndexesApart :=
  decidable_of_iff _ Catalog.indexesApart_iff.symm

/-- The same for the tables of one schema. -/
def TablesApart (tables : Entries Table) : Prop :=
  ∀ name name' t t', tables.get? name = some t → tables.get? name' = some t' →
    ∀ index, t.indexes.contains index → t'.indexes.contains index → name = name'

theorem Catalog.IndexesApart.tablesApart {c : Catalog} (h : c.IndexesApart) {schema : String} {s : Schema}
    (hs : c.schemas.get? schema = some s) : TablesApart s.tables :=
  fun name name' t t' ht ht' => h schema name name' t t' (Option.bind_eq_some_iff.mpr ⟨s, hs, ht⟩)
    (Option.bind_eq_some_iff.mpr ⟨s, hs, ht'⟩)

namespace Effect

open Sql

variable {default : String} {c c' d d' : Catalog} {s : Statement} {name : String} {text : Option String}

/-! ## Comments -/

theorem rel_map {α β γ δ : Type} {r : α → β → Prop} {r' : γ → δ → Prop} {f : α → γ} {g : β → δ}
    (hfg : ∀ x y, r x y → r' (f x) (g y)) {x : Option α} {y : Option β} (h : Option.Rel r x y) :
    Option.Rel r' (x.map f) (y.map g) := by
  cases h with
  | none => exact .none
  | some hxy => exact .some (hfg _ _ hxy)

theorem changeNamed?_rel {α : Type} {a b : Entries α} (h : a.Alike Eq b) (name : String) (f : α → α) :
    Option.Rel (Entries.Alike Eq) (changeNamed? a name f) (changeNamed? b name f) := by
  unfold changeNamed?
  rw [h.get?_eq name]
  cases b.get? name with
  | none => exact .none
  | some x => exact .some (h.put name rfl)

/-- The comment goes to the one table that has the index. -/
theorem commentIndex?_of_mem {tables : List (String × Table)} {key : String} {t : Table}
    {indexes : Entries Index} (hmem : (key, t) ∈ tables)
    (hindexes : changeNamed? t.indexes name (fun x => { x with comment := text }) = some indexes)
    (honly : ∀ entry ∈ tables, entry.2.indexes.contains name → entry = (key, t)) :
    commentIndex? name text tables = some (key, { t with indexes }) := by
  induction tables with
  | nil => contradiction
  | cons entry tables ih =>
    obtain ⟨k, u⟩ := entry
    rw [List.forall_mem_cons] at honly
    unfold commentIndex?
    split
    · next others hothers =>
      obtain ⟨x, hx, -⟩ := Option.map_eq_some_iff.mp hothers
      obtain ⟨rfl, rfl⟩ := Prod.mk.inj (honly.1 (Entries.contains_of_get? hx))
      rw [Option.some.inj (hothers.symm.trans hindexes)]
    · next hnone =>
      rcases List.mem_cons.mp hmem with heq | hmem
      · obtain ⟨rfl, rfl⟩ := Prod.mk.inj heq
        rw [hindexes] at hnone
        contradiction
      · exact ih hmem honly.2

theorem commentIndex?_eq {tables tables' : Entries Table} (h : tables.Alike Eq tables')
    (hapart : TablesApart tables) :
    commentIndex? name text tables.pairs = commentIndex? name text tables'.pairs := by
  have hone {a b : Entries Table} (hab : a.Alike Eq b) (hb : TablesApart b) {entry : String × Table}
      (ha : commentIndex? name text a.pairs = some entry) : commentIndex? name text b.pairs = some entry := by
    obtain ⟨key, t'⟩ := entry
    obtain ⟨t, indexes, hmem, hindexes, rfl⟩ := exists_of_commentIndex? ha
    have ht : b.get? key = some t := (hab.get?_eq key).symm.trans (Entries.get?_eq_some_iff.mpr hmem)
    obtain ⟨x, hx, -⟩ := Option.map_eq_some_iff.mp hindexes
    refine commentIndex?_of_mem (Entries.get?_eq_some_iff.mp ht) hindexes fun entry hentry hcontains => ?_
    obtain ⟨k, u⟩ := entry
    have hu : b.get? k = some u := Entries.get?_eq_some_iff.mpr hentry
    obtain rfl := hb k key u t hu ht name hcontains (Entries.contains_of_get? hx)
    rw [Option.some.inj (hu.symm.trans ht)]
  have hsymm : tables'.Alike Eq tables := Entries.alike_eq_iff.mpr fun n => (h.get?_eq n).symm
  have hapart' : TablesApart tables' := fun n n' t t' ht ht' =>
    hapart n n' t t' ((h.get?_eq n).trans ht) ((h.get?_eq n').trans ht')
  exact Option.ext fun entry => ⟨hone h hapart', hone hsymm hapart⟩

theorem commentObject?_rel {s s' : Schema} (h : s.Reordered s') (hapart : TablesApart s.tables)
    (kind : CommentKind) (name : String) (text : Option String) :
    Option.Rel Schema.Reordered (commentObject? s kind name text) (commentObject? s' kind name text) := by
  unfold commentObject?
  cases kind with
  | table => exact rel_map (fun _ _ hx => { h with tables := hx }) (changeNamed?_rel h.tables _ _)
  | view | materializedView =>
    exact rel_map (fun _ _ hx => { h with views := hx }) (changeNamed?_rel h.views _ _)
  | sequence => exact rel_map (fun _ _ hx => { h with sequences := hx }) (changeNamed?_rel h.sequences _ _)
  | type | domain => exact rel_map (fun _ _ hx => { h with types := hx }) (changeNamed?_rel h.types _ _)
  | function => exact rel_map (fun _ _ hx => { h with functions := hx }) (changeNamed?_rel h.functions _ _)
  | procedure => exact rel_map (fun _ _ hx => { h with procedures := hx }) (changeNamed?_rel h.procedures _ _)
  | aggregate => exact rel_map (fun _ _ hx => { h with aggregates := hx }) (changeNamed?_rel h.aggregates _ _)
  | index =>
    dsimp only
    rw [commentIndex?_eq h.tables hapart]
    cases commentIndex? name text s'.tables.pairs with
    | none => exact .none
    | some entry => exact .some { h with tables := h.tables.put entry.1 rfl }
  | extension | column | constraint | trigger => exact .none

theorem commentOnPart?_rel (h : c.Reordered c') (kind : CommentKind) (path : List String)
    (text : Option String) :
    Option.Rel Catalog.Reordered (commentOnPart? default c kind path text)
      (commentOnPart? default c' kind path text) := by
  unfold commentOnPart?
  dsimp only
  rw [h.findTable?_eq]
  split
  · exact .none
  · next t ht =>
    cases commentPart? t kind (path.getLastD "") text with
    | none => exact .none
    | some t' => exact .some (h.modifyTable _ _ _)

theorem commentOn?_rel (h : c.Reordered c') (hapart : c.IndexesApart) (kind : CommentKind)
    (path : List String) (text : Option String) :
    Option.Rel Catalog.Reordered (commentOn? default c kind path text)
      (commentOn? default c' kind path text) := by
  unfold commentOn?
  split
  · exact rel_map (fun _ _ hx => { h with extensions := hx }) (changeNamed?_rel h.extensions _ _)
  · exact commentOnPart?_rel h .column path text
  · exact commentOnPart?_rel h .constraint path text
  · exact commentOnPart?_rel h .trigger path text
  · dsimp only
    generalize hpath : splitPath default path = target
    obtain ⟨schema, name⟩ := target
    have hschema := h.schemas schema
    cases hs : c.schemas.get? schema with
    | none =>
      rw [hs] at hschema
      cases hs' : c'.schemas.get? schema with
      | none => exact .none
      | some s' =>
        rw [hs'] at hschema
        contradiction
    | some s =>
      rw [hs] at hschema
      cases hs' : c'.schemas.get? schema with
      | none =>
        rw [hs'] at hschema
        contradiction
      | some s' =>
        rw [hs'] at hschema
        obtain ⟨hsame⟩ := hschema
        exact rel_map (fun _ _ hx => h.put schema hx)
          (commentObject?_rel hsame (hapart.tablesApart hs) _ name text)

/-! ## Statements that add to objects -/

theorem reordered_withTable (h : c.Reordered c') {relation : RelationName} {f : Table → Logged Table}
    (hd : (withTable default c relation f).result = .ok d)
    (hd' : (withTable default c' relation f).result = .ok d') : d.Reordered d' := by
  unfold withTable at hd hd'
  dsimp only at hd hd'
  rw [h.findTable?_eq] at hd
  split at hd
  · next hnone =>
    rw [hnone] at hd'
    obtain rfl := Except.ok.inj hd
    obtain rfl := Except.ok.inj hd'
    exact h
  · next t ht =>
    rw [ht] at hd'
    obtain ⟨u, hu, hd⟩ := Logged.result_bind_eq_ok.mp hd
    obtain ⟨u', hu', hd'⟩ := Logged.result_bind_eq_ok.mp hd'
    obtain rfl := Except.ok.inj (hu.symm.trans hu')
    obtain rfl := Except.ok.inj hd
    obtain rfl := Except.ok.inj hd'
    exact h.modifyTable _ _ _

theorem reordered_alterTable (h : c.Reordered c') {relation : RelationName} {commands : List AlterCommand}
    (hd : (alterTable default c relation commands).result = .ok d)
    (hd' : (alterTable default c' relation commands).result = .ok d') : d.Reordered d' := by
  unfold alterTable at hd hd'
  dsimp only at hd hd'
  rw [h.findTable?_eq] at hd
  split at hd
  · next hnone =>
    rw [hnone] at hd'
    exact reordered_withTable h hd hd'
  · next t ht =>
    rw [ht] at hd'
    obtain ⟨change, hchange, hd⟩ := Logged.result_bind_eq_ok.mp hd
    obtain ⟨change', hchange', hd'⟩ := Logged.result_bind_eq_ok.mp hd'
    obtain rfl := Except.ok.inj (hchange.symm.trans hchange')
    obtain rfl := Except.ok.inj hd
    obtain rfl := Except.ok.inj hd'
    exact { h.modifyTable _ _ _ with partitions := h.partitions.append_right change.partitions }

theorem reordered_comment (h : c.Reordered c') (hapart : c.IndexesApart) {kind : CommentKind}
    {path : List String} (hd : (comment default c kind path text).result = .ok d)
    (hd' : (comment default c' kind path text).result = .ok d') : d.Reordered d' := by
  have hrel : Option.Rel Catalog.Reordered (commentOn? default c kind path text)
    (commentOn? default c' kind path text) := commentOn?_rel h hapart kind path text
  unfold comment at hd hd'
  split at hd
  · contradiction
  · next hnamed =>
    rw [if_neg hnamed] at hd'
    generalize commentOn? default c kind path text = x at hd hrel
    generalize commentOn? default c' kind path text = y at hd' hrel
    cases hrel with
    | none =>
      obtain rfl := Except.ok.inj hd
      obtain rfl := Except.ok.inj hd'
      exact h
    | some hxy =>
      obtain rfl := Except.ok.inj hd
      obtain rfl := Except.ok.inj hd'
      exact hxy

/-- A statement that adds to objects finds the same ones. -/
theorem reordered_effect (h : c.Reordered c') (hapart : c.IndexesApart) (hs : s.isDependent)
    (hd : effect default c s = .ok d) (hd' : effect default c' s = .ok d') : d.Reordered d' := by
  cases s with
  | createIndex definition => exact reordered_withTable h hd hd'
  | createTrigger definition => exact reordered_withTable h hd hd'
  | createPolicy definition => exact reordered_withTable h hd hd'
  | alterTable relation commands => exact reordered_alterTable h hd hd'
  | comment kind path text => exact reordered_comment h hapart hd hd'
  | alterIndex relation commands =>
    obtain ⟨found, hfound, hd⟩ := Logged.result_bind_eq_ok.mp hd
    obtain ⟨found', hfound', hd'⟩ := Logged.result_bind_eq_ok.mp hd'
    obtain rfl := Except.ok.inj (hfound.symm.trans hfound')
    obtain rfl := Except.ok.inj hd
    obtain rfl := Except.ok.inj hd'
    exact { h with indexPartitions := by rw [h.indexPartitions] }
  | otherComment label =>
    obtain rfl := Except.ok.inj hd
    obtain rfl := Except.ok.inj hd'
    exact h
  | _ => contradiction

/-! ## What tables keep -/

theorem Edits.contains_index {t t' : Table} (h : Edits default t t') {index : String}
    (ht : t.indexes.contains index) : t'.indexes.contains index := by
  have hput {entries : Entries Index} {key : String} {x : Index} (hcontains : entries.contains index) :
      (entries.put key x).contains index := by
    rw [Entries.contains_iff_mem_names] at hcontains ⊢
    exact Entries.mem_names_put.mpr (.inr hcontains)
  induction h with
  | refl => exact ht
  | tail _ hedit ih =>
    cases hedit with
    | index definition => exact hput ih
    | indexComment hchange =>
      obtain ⟨x, -, rfl⟩ := Option.map_eq_some_iff.mp hchange
      exact hput ih
    | _ => exact ih

/-- A statement that adds to objects keeps all tables and edits some. -/
theorem Amends.findTable?_rel (h : Amends default c c') (schema name : String) :
    Option.Rel (Edits default) (c.findTable? schema name) (c'.findTable? schema name) := by
  have hsame (x : Option Table) : Option.Rel (Edits default) x x := by
    cases x with
    | none => exact .none
    | some t => exact .some .refl
  cases h with
  | unchanged => exact hsame _
  | @table schema' name' t t' found edits gained parts =>
    show Option.Rel _ _ ((c.modifyTable schema' name' fun _ => t').findTable? schema name)
    rw [Catalog.findTable?_modifyTable]
    split
    · next hhere =>
      rw [hhere.1, hhere.2, found]
      exact .some edits
    · exact hsame _
  | indexPartitions gained => exact hsame _
  | @object schema' name' s s' kind text found change tables =>
    have htables : ({ c with schemas := c.schemas.put schema' s' } : Catalog).findTable? schema name =
        c.findTable? schema name := by
      unfold Catalog.findTable?
      rw [Entries.get?_put]
      split
      · next hhere =>
        rw [hhere, found, Option.bind_some, Option.bind_some, tables]
      · rfl
    rw [htables]
    exact hsame _
  | extension hchange => exact hsame _

theorem amends_effect (hs : s.isDependent) (hd : effect default c s = .ok d) : Amends default c d := by
  cases s with
  | createSchema name owner => contradiction
  | _ => exact amends_of_isDependent hs hd

theorem indexesApart_of_rel {R : Table → Table → Prop}
    (hR : ∀ t t', R t t' → ∀ index, t.indexes.contains index → t'.indexes.contains index)
    (hrel : ∀ schema name, Option.Rel R (c.findTable? schema name) (d.findTable? schema name))
    (h : d.IndexesApart) : c.IndexesApart := by
  have hkept {schema name : String} {t : Table} (ht : c.findTable? schema name = some t) :
      ∃ t', d.findTable? schema name = some t' ∧ R t t' := by
    have hrel := hrel schema name
    rw [ht] at hrel
    generalize d.findTable? schema name = y at hrel ⊢
    obtain ⟨hkept⟩ := hrel
    exact ⟨_, rfl, hkept⟩
  intro schema name name' t t' ht ht' index hindex hindex'
  obtain ⟨u, hu, htu⟩ := hkept ht
  obtain ⟨u', hu', htu'⟩ := hkept ht'
  exact h schema name name' u u' hu hu' index (hR t u htu index hindex) (hR t' u' htu' index hindex')

theorem indexesApart_effects {all : List Statement} (hall : ∀ s ∈ all, s.isDependent)
    (hd : all.foldlM (effect default) c = .ok d) (h : d.IndexesApart) : c.IndexesApart := by
  induction all generalizing c with
  | nil =>
    obtain rfl := Except.ok.inj hd
    exact h
  | cons s all ih =>
    rw [List.forall_mem_cons] at hall
    rw [List.foldlM_cons] at hd
    obtain ⟨next, hnext, hd⟩ := exists_of_bind_eq_ok hd
    exact indexesApart_of_rel (fun _ _ hedits _ => hedits.contains_index)
      (amends_effect hall.1 hnext).findTable?_rel (ih hall.2 hd)

/-- Statements that add to objects make the same of the same objects. -/
theorem reordered_effects {all : List Statement} (h : c.Reordered c') (hall : ∀ s ∈ all, s.isDependent)
    (hapart : d.IndexesApart) (hd : all.foldlM (effect default) c = .ok d)
    (hd' : all.foldlM (effect default) c' = .ok d') : d.Reordered d' := by
  induction all generalizing c c' with
  | nil =>
    obtain rfl := Except.ok.inj hd
    obtain rfl := Except.ok.inj hd'
    exact h
  | cons s all ih =>
    have happly := indexesApart_effects hall hd hapart
    rw [List.forall_mem_cons] at hall
    rw [List.foldlM_cons] at hd hd'
    obtain ⟨next, hnext, hd⟩ := exists_of_bind_eq_ok hd
    obtain ⟨next', hnext', hd'⟩ := exists_of_bind_eq_ok hd'
    exact ih (reordered_effect h happly hall.1 hnext hnext') hall.2 hd hd'

/-! ## Tables without columns -/

/-- Every table without columns is declared so by one of the statements. -/
def Declared (default : String) (all : List Statement) (c : Catalog) : Prop :=
  ∀ schema name t, c.findTable? schema name = some t → t.columns = [] →
    (schema, name) ∈ all.filterMap (bareTable? default)

variable {all all' : List Statement}

theorem declared_effect (h : Declared default all c) (hs : s ∈ all) (hd : effect default c s = .ok d) :
    Declared default all d := by
  intro schema name t ht hnil
  cases hdependent : s.isDependent with
  | true =>
    -- the table was there before, and was edited at most
    have hrel := (amends_effect hdependent hd).findTable?_rel schema name
    rw [ht] at hrel
    generalize hbefore : c.findTable? schema name = before at hrel
    obtain ⟨hedits⟩ := hrel
    exact h schema name _ hbefore (hedits.columns_eq_nil_iff.mp hnil)
  | false =>
    obtain ⟨a, ha⟩ := exists_adds default hdependent
    have hcontents : d.at? (.object schema .table name) =
        (a.sets (.object schema .table name)).or ((c.at? (.object schema .table name)).or none) :=
      (ha.turns c d hd).contents (.object schema .table name)
    rw [Option.or_none, Catalog.at?_table, Catalog.at?_table, ht, Option.map_some] at hcontents
    cases hset : a.sets (.object schema .table name) with
    | some x =>
      rw [hset, Option.some_or] at hcontents
      obtain rfl := Option.some.inj hcontents
      obtain ⟨schema', name', hbare, htag⟩ := ha.tables _ t hset hnil
      obtain ⟨rfl, -, rfl⟩ := Tag.object.inj htag
      exact List.mem_filterMap.mpr ⟨s, hs, hbare⟩
    | none =>
      rw [hset, Option.none_or] at hcontents
      obtain ⟨before, hbefore, htable⟩ := Option.map_eq_some_iff.mp hcontents.symm
      obtain rfl := Content.table.inj htable
      exact h schema name before hbefore hnil

theorem declared_effects (hall : ∀ s ∈ all, s ∈ all') (hd : all.foldlM (effect default) start = .ok d) :
    Declared default all' d := by
  have hstart : Declared default all' start := fun schema name t ht => by
    obtain ⟨s, hs, -⟩ := Option.bind_eq_some_iff.mp ht
    contradiction
  exact keeps_foldlM (fun s hs _ _ h hstep => declared_effect h (hall s hs) hstep) hstart hd

/-! ## Whole scripts -/

/-- Nothing is said twice in the script: no two statements that create define the same, no two indexes of a
schema have one name, each partition is attached once, and none that is declared without columns has
partitions itself. -/
@[mk_iff] structure Unambiguous (default : String) (all : List Statement) (c : Catalog) : Prop where
  definitions : (all.filter (!·.isDependent)).Pairwise (Apart default)
  indexes : c.IndexesApart
  attachedOnce : (c.partitions.map PartitionAttachment.child).Nodup
  columns : ∀ table ∈ all.filterMap (bareTable? default), ∀ a ∈ c.partitions, ∀ b ∈ c.partitions,
    a.child = ((table.1 : Field String), (table.2 : Field String)) → (b.parentSchema, b.parentTable) ≠ a.child

instance (default : String) (all : List Statement) (c : Catalog) : Decidable (Unambiguous default all c) :=
  decidable_of_iff _ (unambiguous_iff default all c).symm

/-- A statement whose only trace is in the log. -/
def isSkipped : Statement → Bool
  | .createTableAs | .define _ | .otherComment _ | .other _ => true
  | _ => false

theorem result_apply_of_isSkipped (hs : isSkipped s) (progress : Progress) :
    (apply default progress s).result = .ok progress := by
  cases s with
  | createTableAs | define label | otherComment label | other label => rfl
  | _ => contradiction

theorem inOrder_filter (all : List Statement) (p : Statement → Bool) :
    inOrder (all.filter p) = (inOrder all).filter p := by
  unfold inOrder
  rw [List.filter_append, List.filter_comm (fun s : Statement => !s.isDependent),
    List.filter_comm (fun s : Statement => s.isDependent)]

/-- Statements that are skipped may stand anywhere. -/
theorem result_catalogOf_filter (default : String) (all : List Statement) :
    (catalogOf default (all.filter (!isSkipped ·))).result = (catalogOf default all).result := by
  have hrun (items : List Statement) (progress : Progress) :
      ((items.filter (!isSkipped ·)).foldlM (apply default) progress).result =
        (items.foldlM (apply default) progress).result := by
    induction items generalizing progress with
    | nil => rfl
    | cons s items ih =>
      rw [List.filter_cons, List.foldlM_cons]
      by_cases hs : isSkipped s
      · rw [if_neg (by simpa using hs), Logged.result_bind, result_apply_of_isSkipped hs]
        exact ih progress
      · rw [if_pos (by simpa using hs), List.foldlM_cons]
        exact Logged.result_bind_congr rfl ih
  unfold catalogOf
  rw [inOrder_filter]
  refine Logged.result_bind_congr (hrun _ _) fun progress => ?_
  dsimp only
  split <;> rfl

theorem findTable?_inheritAll {q : Catalog} (hsettled : Settled q q.partitions) (schema name : String) :
    (inheritAll q).findTable? schema name =
      (q.findTable? schema name).map (fill (source? q q.partitions schema name)) :=
  findTable?_inherit hsettled schema name

/-- The last step leaves the indexes as they are. -/
theorem indexesApart_of_inheritAll {q : Catalog} (hsettled : Settled q q.partitions)
    (h : (inheritAll q).IndexesApart) : q.IndexesApart := by
  refine indexesApart_of_rel (R := fun t t' => t'.indexes = t.indexes)
    (fun t t' hsame index hindex => hsame ▸ hindex) (fun schema name => ?_) h
  rw [findTable?_inheritAll hsettled]
  cases q.findTable? schema name with
  | none => exact .none
  | some t => exact .some (indexes_fill _ t)

theorem Unambiguous.settled {q : Catalog} (h : Unambiguous default all (inheritAll q)) (hfiled : q.Filed)
    (hdeclared : Declared default all q) : Settled q q.partitions := by
  have hpartitions : (inheritAll q).partitions = q.partitions := (inherit_same q q.partitions).2.1
  have honce := h.attachedOnce
  have hcolumns := h.columns
  rw [hpartitions] at honce hcolumns
  refine ⟨hfiled.partitions, honce, fun a ha b hb schema name t hchild ht hnil => ?_⟩
  rw [← hchild]
  exact hcolumns (schema, name) (hdeclared schema name t ht hnil) a ha b hb hchild

/-- A script that describes a catalog has run its two parts one after the other. -/
theorem exists_parts (h : (catalogOf default all).result = .ok c) : ∃ first last,
    (all.filter (!·.isDependent)).foldlM (effect default) start = .ok first ∧
    (all.filter (·.isDependent)).foldlM (effect default) first = .ok last ∧ c = inheritAll last := by
  obtain ⟨⟨progress, hrun, rfl⟩, -⟩ := exists_run h
  have hboth := effects_of_run hrun
  unfold inOrder at hboth
  rw [List.foldlM_append] at hboth
  obtain ⟨first, hfirst, hlast⟩ := exists_of_bind_eq_ok hboth
  exact ⟨first, progress.catalog, hfirst, hlast, rfl⟩

theorem exists_catalogOf_iff : (∃ c, (catalogOf default all).result = .ok c) ↔
    (∀ s ∈ all, refusal? default s = none) ∧ ¬ ∃ s ∈ all, isNamelessSchema s := by
  rcases catalogOf_cases default all with
    ⟨fault, hrefused, hresult⟩ | ⟨-, hnameless, first, hresult⟩ | ⟨hnone, hnamed, c, hresult, -⟩
  · refine iff_of_false (fun ⟨c, hc⟩ => ?_) fun h => ?_
    · rw [hresult] at hc
      contradiction
    · obtain ⟨hnone, -⟩ := h
      obtain ⟨s, hs, hsome⟩ := List.exists_of_findSome?_eq_some hrefused
      rw [hnone s (mem_inOrder.mp hs)] at hsome
      contradiction
  · refine iff_of_false (fun ⟨c, hc⟩ => ?_) fun h => h.2 hnameless
    rw [hresult] at hc
    contradiction
  · exact iff_of_true ⟨c, hresult⟩ ⟨hnone, hnamed⟩

/-- Both orders describe the same catalog. -/
theorem reordered_catalogOf (hperm : all.Perm all')
    (hlater : all.filter (·.isDependent) = all'.filter (·.isDependent))
    (hc : (catalogOf default all).result = .ok c) (hc' : (catalogOf default all').result = .ok c')
    (h : Unambiguous default all c) : c.Reordered c' := by
  obtain ⟨htaken, -⟩ := exists_catalogOf_iff.mp ⟨c, hc⟩
  obtain ⟨first, last, hfirst, hlast, rfl⟩ := exists_parts hc
  obtain ⟨first', last', hfirst', hlast', rfl⟩ := exists_parts hc'
  rw [← hlater] at hlast'
  have hfiled := filed_effects filed_start hfirst
  have hfiled' := filed_effects filed_start hfirst'
  have hwhole : (inOrder all).foldlM (effect default) start = .ok last := by
    unfold inOrder
    rw [List.foldlM_append, hfirst]
    exact hlast
  have hdeclared : Declared default all last := declared_effects (fun s hs => mem_inOrder.mp hs) hwhole
  have hsettled := h.settled (filed_effects hfiled hlast) hdeclared
  -- the statements that create, then those that add, then the partitions
  have hagrees : first.Agrees first' :=
    agrees_of_perm (hperm.filter _) (fun s hs => by simpa using List.of_mem_filter hs) h.definitions
      (fun s hs => htaken s (List.mem_of_mem_filter hs)) writable_start hfirst hfirst'
  have hreordered : last.Reordered last' :=
    reordered_effects (hagrees.reordered hfiled hfiled') (fun s hs => List.of_mem_filter hs)
      (indexesApart_of_inheritAll hsettled h.indexes) hlast hlast'
  have hinherited := agrees_inheritAll hreordered.agrees hsettled
  exact hinherited.reordered (filed_inheritAll (filed_effects hfiled hlast))
    (filed_inheritAll (filed_effects hfiled' hlast'))

/-- Catalogs that differ in the order of entries and partitions have one script. -/
theorem exists_dump_eq (h : c.Reordered c') (honce : (c.partitions.map PartitionAttachment.child).Nodup)
    (hc : c.Writable) (target : Option String) (withHeadings : Bool) :
    ∃ text, (c.dump target withHeadings).result = .ok text ∧
      (c'.dump target withHeadings).result = .ok text := by
  obtain ⟨text, htext⟩ := hc.ends_dump target withHeadings
  refine ⟨text, htext, ?_⟩
  rw [← htext]
  unfold Catalog.dump Catalog.diff
  rw [h.metadata]
  exact Logged.result_bind_congr (Diff.pieces_congr (h.alike honce)).symm fun _ => rfl

/-- The order of statements does not matter where the script is unambiguous and those that add to objects
keep theirs; statements that are skipped never matter. -/
theorem catalog_of_perm (default : String) (all : List Statement) :
    (∀ all', all.Perm all' → all.filter (·.isDependent) = all'.filter (·.isDependent) →
      ((∃ c, (catalogOf default all).result = .ok c) ↔ ∃ c', (catalogOf default all').result = .ok c') ∧
      ∀ c c', (catalogOf default all).result = .ok c → (catalogOf default all').result = .ok c' →
        Unambiguous default all c → c.Reordered c' ∧
        ∀ target withHeadings, ∃ text, (c.dump target withHeadings).result = .ok text ∧
          (c'.dump target withHeadings).result = .ok text) ∧
    ∀ all', all.filter (!isSkipped ·) = all'.filter (!isSkipped ·) →
      (catalogOf default all).result = (catalogOf default all').result := by
  refine ⟨fun all' hperm hlater => ⟨?_, fun c c' hc hc' h => ?_⟩, fun all' hkept => ?_⟩
  · rw [exists_catalogOf_iff, exists_catalogOf_iff]
    simp only [hperm.mem_iff]
  · have hreordered := reordered_catalogOf hperm hlater hc hc' h
    have hwritable : c.Writable := by
      rcases catalogOf_cases default all with
        ⟨fault, -, hresult⟩ | ⟨-, -, first, hresult⟩ | ⟨-, -, d, hresult, hwritable⟩
      · rw [hresult] at hc
        contradiction
      · rw [hresult] at hc
        contradiction
      · exact Except.ok.inj (hresult.symm.trans hc) ▸ hwritable
    exact ⟨hreordered, exists_dump_eq hreordered h.attachedOnce hwritable⟩
  · rw [← result_catalogOf_filter default all, hkept, result_catalogOf_filter]

/-- An index and a partition that come before their table. -/
def orchard : String :=
  "create index on trees (row); create table saplings partition of trees default;
   create table trees (id serial, row int) partition by list (row); vacuum"

theorem orchard_reversed : ∃ all c c', Sql.statements orchard = .ok all ∧
    (catalogOf "public" all).result = .ok c ∧ (catalogOf "public" all.reverse).result = .ok c' ∧
    c.Reordered c' ∧ (c.dump (some "public") true).result = (c'.dump (some "public") true).result := by
  have hread : ∃ all ∈ (Sql.statements orchard).toOption,
      all.filter (·.isDependent) = all.reverse.filter (·.isDependent) ∧
      ∃ c ∈ (catalogOf "public" all).result.toOption, Unambiguous "public" all c := by decide +kernel
  obtain ⟨all, hall, hlater, c, hc, hunambiguous⟩ := hread
  have hc := eq_ok_of_toOption hc
  obtain ⟨hbuilds, hsame⟩ := (catalog_of_perm "public" all).1 all.reverse (List.reverse_perm all).symm hlater
  obtain ⟨c', hc'⟩ := hbuilds.mp ⟨c, hc⟩
  obtain ⟨hreordered, hdump⟩ := hsame c c' hc hc' hunambiguous
  obtain ⟨text, htext, htext'⟩ := hdump (some "public") true
  exact ⟨all, c, c', eq_ok_of_toOption hall, hc, hc', hreordered, htext.trans htext'.symm⟩

end Effect
end SchemaScript
