import SchemaScript.Proofs.Catalog.Contents
import SchemaScript.Proofs.Effect.Outcome

/-!
# The columns of partitions

When all statements have taken effect, a table without columns has those of the table to which it is attached
(`findTable?_inheritAll`), whatever the order in which the partitions are gone through (`agrees_inheritAll`). For
this each table is attached once, and one that waits for columns has no partitions itself (`Settled`).
-/

namespace SchemaScript.Effect

open Sql

variable {c c' : Catalog} {a : PartitionAttachment} {attachments attachments' : List PartitionAttachment}
  {schema name : String}

/-- The columns of the table to which a table is attached. -/
def source? (c : Catalog) (attachments : List PartitionAttachment) (schema name : String) :
    Option (List Column) :=
  (attachments.find? fun a => a.child = ((schema : Field String), (name : Field String))).bind fun a =>
    match a.parentSchema.text?, a.parentTable.text? with
    | some parentSchema, some parentTable => (c.findTable? parentSchema parentTable).map (·.columns)
    | _, _ => none

/-- The table with these columns, unless it has some of its own. -/
def fill (columns : Option (List Column)) (t : Table) : Table :=
  match columns with
  | some columns => if t.columns.isEmpty then { t with columns } else t
  | none => t

@[simp] theorem fill_none (t : Table) : fill none t = t := rfl

theorem fill_of_columns {t : Table} (h : t.columns ≠ []) (columns : Option (List Column)) :
    fill columns t = t := by
  cases columns with
  | none => rfl
  | some columns => simp [fill, h]

theorem indexes_fill (columns : Option (List Column)) (t : Table) :
    (fill columns t).indexes = t.indexes := by
  unfold fill
  split
  · split <;> rfl
  · rfl

theorem source?_cons (c : Catalog) (a : PartitionAttachment) (attachments : List PartitionAttachment)
    (schema name : String) :
    source? c (a :: attachments) schema name =
      if a.child = ((schema : Field String), (name : Field String)) then source? c [a] schema name
      else source? c attachments schema name := by
  unfold source?
  rw [List.find?_cons, List.find?_cons]
  by_cases h : a.child = ((schema : Field String), (name : Field String)) <;> simp [h]

/-! ## One attachment -/

/-- One attachment changes the table that is attached, and only if it has no columns. -/
theorem findTable?_inheritColumns (h : a.Named) (c : Catalog) (schema name : String) :
    (inheritColumns c a).findTable? schema name =
      (c.findTable? schema name).map (fill (source? c [a] schema name)) := by
  obtain ⟨parentSchema, parentTable, childSchema, childTable, hps, hpt, hcs, hct⟩ := h
  have hchild : a.child = ((childSchema : Field String), (childTable : Field String)) :=
    Prod.ext hcs hct
  have hsource : source? c [a] schema name =
      if schema = childSchema ∧ name = childTable then
        (c.findTable? parentSchema parentTable).map (·.columns)
      else none := by
    unfold source?
    rw [List.find?_singleton, hchild]
    by_cases hsame : schema = childSchema ∧ name = childTable
    · obtain ⟨rfl, rfl⟩ := hsame
      simp [hps, hpt]
    · have hother : ¬ (childSchema = schema ∧ childTable = name) := fun h => hsame ⟨h.1.symm, h.2.symm⟩
      rw [if_neg hsame, if_neg (by simpa using hother), Option.bind_none]
  unfold inheritColumns
  rw [hps, hpt, hcs, hct, hsource]
  simp only [Field.text?_text]
  cases hparent : c.findTable? parentSchema parentTable with
  | none =>
    rw [Option.map_none, ite_self]
    exact Option.map_id'.symm
  | some parent =>
    dsimp only
    rw [Catalog.findTable?_modifyTable]
    by_cases hsame : schema = childSchema ∧ name = childTable
    · rw [if_pos hsame, if_pos hsame, hsame.1, hsame.2]
      rfl
    · rw [if_neg hsame, if_neg hsame]
      exact Option.map_id'.symm

/-! ## All attachments -/

/-- Every table is attached once, and none that waits for columns is one to which others are attached. -/
structure Settled (c : Catalog) (attachments : List PartitionAttachment) : Prop where
  named : ∀ a ∈ attachments, a.Named
  once : (attachments.map PartitionAttachment.child).Nodup
  full : ∀ a ∈ attachments, ∀ b ∈ attachments, ∀ (schema name : String) t,
    a.child = ((schema : Field String), (name : Field String)) → c.findTable? schema name = some t →
    t.columns = [] → (b.parentSchema, b.parentTable) ≠ ((schema : Field String), (name : Field String))

theorem child_of_source? {columns : List Column} (h : source? c [a] schema name = some columns) :
    a.child = ((schema : Field String), (name : Field String)) := by
  by_contra hother
  rw [source?_cons, if_neg hother] at h
  contradiction

theorem source?_eq_none (h : ∀ a ∈ attachments, a.child ≠ ((schema : Field String), (name : Field String))) :
    source? c attachments schema name = none := by
  unfold source?
  rw [List.find?_eq_none.mpr (by simpa using h), Option.bind_none]

theorem Settled.rest (h : Settled c (a :: attachments)) : Settled (inheritColumns c a) attachments := by
  refine ⟨fun b hb => h.named b (List.mem_cons_of_mem a hb), (List.nodup_cons.mp h.once).2, ?_⟩
  intro x hx y hy schema name t hchild ht hnil
  rw [findTable?_inheritColumns (h.named a (List.mem_cons_self ..))] at ht
  obtain ⟨before, hbefore, rfl⟩ := Option.map_eq_some_iff.mp ht
  have hempty : before.columns = [] := by
    by_contra hcolumns
    rw [fill_of_columns hcolumns] at hnil
    exact hcolumns hnil
  exact h.full x (List.mem_cons_of_mem a hx) y (List.mem_cons_of_mem a hy) schema name before hchild hbefore
    hempty

/-- The columns of parents do not change on the way. -/
theorem Settled.source?_eq (h : Settled c (a :: attachments)) (schema name : String) :
    source? (inheritColumns c a) attachments schema name = source? c attachments schema name := by
  unfold source?
  cases hfind : attachments.find? fun a => a.child = ((schema : Field String), (name : Field String)) with
  | none => rfl
  | some b =>
    have hb : b ∈ a :: attachments := List.mem_cons_of_mem a (List.mem_of_find?_eq_some hfind)
    obtain ⟨parentSchema, parentTable, -, -, hps, hpt, -, -⟩ := h.named b hb
    rw [Option.bind_some, Option.bind_some, hps, hpt]
    simp only [Field.text?_text]
    rw [findTable?_inheritColumns (h.named a (List.mem_cons_self ..)), Option.map_map]
    refine Option.map_congr fun parent hparent => ?_
    show (fill _ parent).columns = parent.columns
    cases hsource : source? c [a] parentSchema parentTable with
    | none => rfl
    | some columns =>
      have hfull : parent.columns ≠ [] := fun hnil =>
        h.full a (List.mem_cons_self ..) b hb parentSchema parentTable parent (child_of_source? hsource)
          hparent hnil (Prod.ext hps hpt)
      rw [fill_of_columns hfull]

/-- A table without columns ends up with those of the table to which it is attached. -/
theorem findTable?_inherit (h : Settled c attachments) (schema name : String) :
    (attachments.foldl inheritColumns c).findTable? schema name =
      (c.findTable? schema name).map (fill (source? c attachments schema name)) := by
  induction attachments generalizing c with
  | nil => exact Option.map_id'.symm
  | cons a attachments ih =>
    rw [List.foldl_cons, ih h.rest, h.source?_eq, findTable?_inheritColumns (h.named a (List.mem_cons_self ..)),
      Option.map_map, source?_cons c a attachments]
    by_cases hchild : a.child = ((schema : Field String), (name : Field String))
    · have honce : source? c attachments schema name = none := source?_eq_none fun b hb hb' =>
        (List.nodup_cons.mp h.once).1 (List.mem_map.mpr ⟨b, hb, hb'.trans hchild.symm⟩)
      rw [if_pos hchild, honce]
      rfl
    · rw [if_neg hchild, source?_cons c a [], if_neg hchild]
      rfl

theorem inheritColumns_same (c : Catalog) (a : PartitionAttachment) :
    (inheritColumns c a).metadata = c.metadata ∧ (inheritColumns c a).partitions = c.partitions ∧
      (inheritColumns c a).indexPartitions = c.indexPartitions ∧
      ∀ tag, (∀ schema name, tag ≠ .object schema .table name) → (inheritColumns c a).at? tag = c.at? tag := by
  unfold inheritColumns
  split
  · split
    · exact ⟨rfl, rfl, rfl, fun _ _ => rfl⟩
    · refine ⟨rfl, rfl, rfl, fun tag htag => ?_⟩
      rw [Catalog.at?_modifyTable, if_neg (htag _ _)]
  · exact ⟨rfl, rfl, rfl, fun _ _ => rfl⟩

theorem inherit_same (c : Catalog) (attachments : List PartitionAttachment) :
    (attachments.foldl inheritColumns c).metadata = c.metadata ∧
      (attachments.foldl inheritColumns c).partitions = c.partitions ∧
      (attachments.foldl inheritColumns c).indexPartitions = c.indexPartitions ∧
      ∀ tag, (∀ schema name, tag ≠ .object schema .table name) →
        (attachments.foldl inheritColumns c).at? tag = c.at? tag := by
  induction attachments generalizing c with
  | nil => exact ⟨rfl, rfl, rfl, fun _ _ => rfl⟩
  | cons a attachments ih =>
    obtain ⟨hmetadata, hpartitions, hindexes, hcontents⟩ := inheritColumns_same c a
    obtain ⟨hmetadata', hpartitions', hindexes', hcontents'⟩ := ih (inheritColumns c a)
    exact ⟨hmetadata'.trans hmetadata, hpartitions'.trans hpartitions, hindexes'.trans hindexes,
      fun tag htag => (hcontents' tag htag).trans (hcontents tag htag)⟩

/-- Of a table only the columns are taken over, so what does not depend on them stays as it is. -/
theorem map_inheritColumns {α : Type} {f : Table → α} (hf : ∀ t columns, f { t with columns } = f t) (c : Catalog)
    (a : PartitionAttachment) (schema name : String) :
    ((inheritColumns c a).findTable? schema name).map f = (c.findTable? schema name).map f := by
  unfold inheritColumns
  split
  · split
    · rfl
    · rw [Catalog.findTable?_modifyTable]
      split
      · next hhere =>
        rw [hhere.1, hhere.2, Option.map_map]
        refine Option.map_congr fun t _ => ?_
        dsimp only [Function.comp_apply]
        split
        · exact hf t _
        · rfl
      · rfl
  · rfl

theorem map_inheritAll {α : Type} {f : Table → α} (hf : ∀ t columns, f { t with columns } = f t) (c : Catalog)
    (schema name : String) :
    ((inheritAll c).findTable? schema name).map f = (c.findTable? schema name).map f := by
  unfold inheritAll
  generalize c.partitions = attachments
  induction attachments generalizing c with
  | nil => rfl
  | cons a attachments ih => rw [List.foldl_cons, ih, map_inheritColumns hf]

/-! ## In any order -/

theorem Settled.perm (h : Settled c attachments) (hperm : attachments.Perm attachments')
    (hsame : ∀ schema name, c.findTable? schema name = c'.findTable? schema name) :
    Settled c' attachments' where
  named a ha := h.named a (hperm.mem_iff.mpr ha)
  once := ((hperm.map _).nodup_iff).mp h.once
  full a ha b hb schema name t hchild ht :=
    h.full a (hperm.mem_iff.mpr ha) b (hperm.mem_iff.mpr hb) schema name t hchild ((hsame _ _).trans ht)

theorem rearranged_of_nodup (hperm : attachments.Perm attachments')
    (h : (attachments.map PartitionAttachment.child).Nodup) :
    Rearranged (fun a b => a.child ≠ b.child) attachments attachments' :=
  .inr ⟨hperm, List.pairwise_map.mp h⟩

theorem source?_perm (hperm : attachments.Perm attachments')
    (h : (attachments.map PartitionAttachment.child).Nodup)
    (hsame : ∀ schema name, c.findTable? schema name = c'.findTable? schema name) (schema name : String) :
    source? c attachments schema name = source? c' attachments' schema name := by
  have hfind : (attachments.find? fun a => a.child = ((schema : Field String), (name : Field String))) =
      attachments'.find? fun a => a.child = ((schema : Field String), (name : Field String)) := by
    rw [← List.head?_filter, ← List.head?_filter,
      (rearranged_of_nodup hperm h).filter_eq fun a b ha hb hne => ?_]
    simp only [decide_eq_true_eq] at ha hb
    exact hne (ha.trans hb.symm)
  unfold source?
  rw [hfind]
  simp only [hsame]

/-- It does not matter in which order the partitions were attached. -/
theorem agrees_inheritAll (h : c.Agrees c') (hsettled : Settled c c.partitions) :
    (inheritAll c).Agrees (inheritAll c') := by
  have hsame := h.findTable?_eq
  have hsettled' := hsettled.perm h.partitions hsame
  obtain ⟨hmetadata, hpartitions, hindexes, hcontents⟩ := inherit_same c c.partitions
  obtain ⟨hmetadata', hpartitions', hindexes', hcontents'⟩ := inherit_same c' c'.partitions
  have hattached : (inheritAll c).partitions.Perm (inheritAll c').partitions := by
    unfold inheritAll
    rw [hpartitions, hpartitions']
    exact h.partitions
  unfold inheritAll
  refine ⟨by rw [hmetadata, hmetadata', h.metadata], fun tag => ?_, hattached,
    by rw [hindexes, hindexes', h.indexPartitions]⟩
  by_cases htag : ∃ schema name, tag = .object schema .table name
  · obtain ⟨schema, name, rfl⟩ := htag
    rw [Catalog.at?_table, Catalog.at?_table, findTable?_inherit hsettled, findTable?_inherit hsettled',
      hsame, source?_perm h.partitions hsettled.once hsame]
  · have hother : ∀ schema name, tag ≠ .object schema .table name := fun schema name heq =>
      htag ⟨schema, name, heq⟩
    rw [hcontents tag hother, hcontents' tag hother, h.contents]

end SchemaScript.Effect
