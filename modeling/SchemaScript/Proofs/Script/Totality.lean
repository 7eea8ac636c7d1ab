import SchemaScript.Proofs.Ddl.Checks
import SchemaScript.Proofs.Script.Grounding

/-!
# Scripts of well-typed catalogs

A script of a well-typed catalog can be written, unless among the types or among the domains of one schema
some are named and others not (`pieces_ends_iff`). Nothing depends on the older catalog being well typed.
-/

namespace SchemaScript

variable {α β : Type}

namespace Logged

/-- The computation ends with a value. -/
def Ends (x : Logged α) : Prop := ∃ a, x.result = .ok a

theorem ends_pure (a : α) : (pure a : Logged α).Ends := ⟨a, rfl⟩

theorem ends_debug (text : String) : (debug text).Ends := ⟨(), rfl⟩

theorem ends_bind_iff {x : Logged α} {f : α → Logged β} :
    (x >>= f).Ends ↔ ∃ a, x.result = .ok a ∧ (f a).Ends := by
  simp only [Ends, result_bind_eq_ok]
  exact exists_comm.trans (exists_congr fun a => exists_and_left)

theorem Ends.bind {x : Logged α} {f : α → Logged β} (hx : x.Ends)
    (hf : ∀ a, x.result = .ok a → (f a).Ends) : (x >>= f).Ends := by
  obtain ⟨a, ha⟩ := hx
  exact ends_bind_iff.mpr ⟨a, ha, hf a ha⟩

theorem ends_foldlM {f : β → α → Logged β} {items : List α} (h : ∀ b, ∀ a ∈ items, (f b a).Ends)
    (start : β) : (items.foldlM f start).Ends := by
  induction items generalizing start with
  | nil => exact ends_pure start
  | cons a items ih =>
    rw [List.foldlM_cons]
    exact (h start a (by simp)).bind fun b _ => ih (fun b c hc => h b c (List.mem_cons_of_mem a hc)) b

end Logged

namespace Diff

open Logged (ends_pure ends_debug ends_foldlM)

variable {p : Pair} {old new : Catalog} {target : Option String} {ps : Partitions} {t : Table}
  {tag : Tag} {name : String}

theorem ends_emit {kind : PieceKind} {name schema : String} {owner : Option String}
    {checked : Except Fault Unit} {text : String} (h : checked = .ok ()) :
    (emit tag kind name schema owner checked text).Ends :=
  ⟨_, emit_eq_ok.mpr ⟨h, rfl⟩⟩

theorem ends_collect {items : List α} {pieces : α → Logged (List Piece)}
    (h : ∀ a ∈ items, (pieces a).Ends) : (collect items pieces).Ends := by
  induction items with
  | nil => exact ⟨[], collect_nil⟩
  | cons a items ih =>
    obtain ⟨own, hown⟩ := h a (by simp)
    obtain ⟨rest, hrest⟩ := ih fun b hb => h b (List.mem_cons_of_mem a hb)
    exact ⟨_, collect_cons_eq_ok.mpr ⟨own, rest, hown, hrest, rfl⟩⟩

/-- A row ends exactly if the pieces of every item do. -/
theorem ends_collect_iff {items : List α} {pieces : α → Logged (List Piece)} :
    (collect items pieces).Ends ↔ ∀ a ∈ items, (pieces a).Ends := by
  refine ⟨?_, ends_collect⟩
  induction items with
  | nil => simp
  | cons a items ih =>
    rintro ⟨_, h⟩
    obtain ⟨own, rest, hown, hrest, -⟩ := collect_cons_eq_ok.mp h
    exact List.forall_mem_cons.mpr ⟨⟨own, hown⟩, ih ⟨rest, hrest⟩⟩

/-! ## Tables -/

theorem ends_index (hnew : new.indexPartitions.all (·.isTyped)) {i : Index} (hi : i.isTyped)
    (key : String) : (index p tag new key i).Ends := by
  refine (ends_emit (Index.check_of_isTyped hi)).bind fun own _ => ?_
  refine (ends_collect fun a ha => ends_emit ?_).bind fun attached _ => ends_pure _
  exact IndexAttachment.check_of_isTyped (List.all_eq_true.mp hnew a (List.mem_of_mem_filter ha))

theorem ends_tableParts (hnew : new.indexPartitions.all (·.isTyped)) (ht : t.isTyped) :
    (tableParts p tag new t).Ends := by
  have hsecurity := Table.checkRowSecurity_of_isTyped ht
  simp only [Table.isTyped, Bool.and_eq_true] at ht
  obtain ⟨⟨⟨⟨-, hconstraints⟩, hindexes⟩, htriggers⟩, hpolicies⟩ := ht
  refine (ends_collect fun entry he => ends_index hnew
    (Entries.all_sorted hindexes entry (List.mem_of_mem_filter he)) _).bind fun indexes _ => ?_
  refine (ends_collect fun entry he => ends_emit (Constraint.check_of_isTyped
    (Entries.all_sorted hconstraints entry (List.mem_of_mem_filter he)))).bind fun constraints _ => ?_
  refine (ends_collect fun entry he => ends_emit (Trigger.check_of_isTyped
    (Entries.all_sorted htriggers entry he))).bind fun triggers _ => ?_
  refine (ends_emit hsecurity).bind fun security _ => ?_
  exact (ends_collect fun entry he => ends_emit (Policy.check_of_isTyped
    (Entries.all_sorted hpolicies entry he))).bind fun policies _ => ends_pure _

theorem ends_attachment (hschema : p.schema.name.isTextual) (parent : Option String) :
    (attachment p ps name parent).Ends := by
  rcases parent with _ | parent
  · exact ends_pure _
  · exact ends_emit (Field.needText_of_isTextual hschema)

theorem ends_tablePieces (hnew : new.indexPartitions.all (·.isTyped))
    (hschema : p.schema.name.isTextual) (ht : t.isTyped) (parent : Option String) :
    (tablePieces p new ps name t parent).Ends := by
  unfold tablePieces
  dsimp only
  split
  · exact ends_pure _
  · refine (ends_emit (Table.check_of_isTyped ht)).bind fun own _ => ?_
    split
    · exact ends_pure _
    · exact (ends_attachment hschema parent).bind fun attach _ =>
        (ends_tableParts hnew ht).bind fun parts _ => ends_pure _

theorem ends_children (h : ∀ a ∈ ps.attachments, a.isTyped) (parent : String) :
    (ps.children parent).Ends := by
  have hordered : Json.areOrdered ((ps.attachments.filter fun a =>
      a.parentTable == (parent : Field String)).map (·.childTable.stored)) := by
    have hall : ((ps.attachments.filter fun a =>
        a.parentTable == (parent : Field String)).map (·.childTable.stored)).all Json.isText := by
      rw [List.all_map, List.all_eq_true]
      exact fun a ha => (Bool.and_eq_true_iff.mp (h a (List.mem_of_mem_filter ha))).2
    simp [Json.areOrdered, hall]
  unfold Partitions.children
  simp only [hordered, if_true]
  exact ends_pure _

theorem ends_tableTree (hnew : new.isTyped) (hschema : p.schema.isTyped)
    (hps : ∀ a ∈ ps.attachments, a.isTyped) (depth : Nat) (parent : Option String) (walk : Walk)
    (name : String) : (tableTree p new ps depth parent walk name).Ends := by
  simp only [Catalog.isTyped, Bool.and_eq_true] at hnew
  simp only [Schema.isTyped, Bool.and_eq_true] at hschema
  obtain ⟨⟨⟨⟨⟨⟨⟨⟨⟨hname, -⟩, htables⟩, -⟩, -⟩, -⟩, -⟩, -⟩, -⟩, -⟩ := hschema
  induction depth generalizing parent walk name with
  | zero => exact ends_pure walk
  | succ depth ih =>
    unfold tableTree
    split
    · exact ends_pure walk
    · next t ht =>
      split
      · exact ends_pure walk
      · refine (ends_tablePieces hnew.2 hname (Entries.all_get? htables ht) parent).bind fun own _ => ?_
        exact (ends_children hps name).bind fun names _ =>
          ends_foldlM (fun walk child _ => ih (some name) walk child) _

theorem ends_tables (hnew : new.isTyped) (hschema : p.schema.isTyped) : (tables new p).Ends := by
  have hps : ∀ a ∈ (Partitions.inSchema new p.schema.name).attachments, a.isTyped := by
    simp only [Catalog.isTyped, Bool.and_eq_true] at hnew
    exact fun a ha => List.all_eq_true.mp hnew.1.2 a (List.mem_of_mem_filter ha)
  have hwalk : (walkTables new p).Ends := by
    refine Logged.Ends.bind ⟨_, Schema.result_sortTables p.schema⟩ fun names _ => ?_
    exact ends_foldlM (fun walk name _ => ends_tableTree hnew hschema hps _ none walk name) _
  exact hwalk.bind fun walk _ => (ends_debug _).bind fun _ _ => ends_pure _

/-! ## Other objects -/

/-- The types and the domains that are added can each be put in order. -/
def Pair.typesOrdered (p : Pair) : Bool :=
  let added := p.added (·.types)
  isSortable ((added.filter fun t => !t.2.isDomain).map (·.2.name)) &&
    isSortable ((added.filter fun t => t.2.isDomain).map (·.2.name))

theorem ends_sortTypes_iff {found : List (String × UserType)} : (sortTypes found).Ends ↔
    isSortable ((found.filter fun t => !t.2.isDomain).map (·.2.name)) &&
      isSortable ((found.filter fun t => t.2.isDomain).map (·.2.name)) := by
  unfold sortTypes
  dsimp only
  split
  · next h => exact iff_of_true (ends_pure _) h
  · next h =>
    refine iff_of_false ?_ h
    rintro ⟨sorted, hsorted⟩
    simp at hsorted

theorem ends_types_iff (h : p.schema.types.all (·.isTyped)) :
    (types p).Ends ↔ p.typesOrdered := by
  have hsort : (sortTypes (p.added (·.types))).Ends ↔ p.typesOrdered := ends_sortTypes_iff
  rw [← hsort]
  constructor
  · rintro ⟨ps, hps⟩
    obtain ⟨sorted, hsorted, -⟩ := Logged.result_bind_eq_ok.mp hps
    exact ⟨sorted, hsorted⟩
  · refine fun hsorted => hsorted.bind fun sorted hsorted => ends_collect fun entry he => ends_emit ?_
    exact UserType.check_of_isTyped
      (Entries.all_sorted h entry (List.mem_of_mem_filter (mem_of_sortTypes hsorted he)))

theorem ends_added {entries : Schema → Entries α} {isTyped : α → Bool}
    {pieces : String × α → Logged (List Piece)} (h : (entries p.schema).all isTyped)
    (hpieces : ∀ entry, isTyped entry.2 → (pieces entry).Ends) :
    (collect (p.added entries) pieces).Ends :=
  ends_collect fun entry he => hpieces entry (Entries.all_sorted h entry (List.mem_of_mem_filter he))

theorem ends_sequences (h : p.schema.sequences.all (·.isTyped)) : (sequences p).Ends := by
  refine ends_added h fun (key, s) hs => ?_
  show (sequence p key s).Ends
  unfold sequence
  split
  · exact (ends_debug _).bind fun _ _ => ends_pure _
  · exact ends_emit (Sequence.check_of_isTyped hs)

theorem ends_views (h : p.schema.views.all (·.isTyped)) : (views p).Ends := by
  have hsorted : p.schema.sortViews.Ends := by
    refine Logged.Ends.bind ⟨(), forM_eq_ok.mpr fun v hv => ?_⟩ fun _ _ => ⟨_, rfl⟩
    exact View.needText_of_isTyped (Entries.all_sortedValues h v hv)
  refine hsorted.bind fun names _ => ends_collect fun name _ => ?_
  unfold view
  split
  · exact ends_pure _
  · next v hv => exact ends_emit (View.check_of_isTyped (Entries.all_get? h hv))

theorem ends_extensions (hnew : new.extensions.all (·.isTyped)) : (extensions old new).Ends := by
  refine Logged.Ends.bind ⟨(), forM_eq_ok.mpr fun entry he => ?_⟩ fun _ _ =>
    (ends_debug _).bind fun _ _ => ends_pure _
  exact Extension.check_of_isTyped (Entries.all_sorted hnew entry (List.mem_of_mem_filter he))

theorem ends_schemas (hnew : new.schemas.all (·.isTyped)) : (schemas old new target).Ends :=
  ends_collect fun entry he => ends_emit (Schema.check_of_isTyped
    (Entries.all_sorted hnew entry (List.mem_of_mem_filter he)))

/-! ## The whole script -/

/-- Only the order of types can keep the script of a well-typed catalog from being written. -/
theorem pieces_ends_iff (hnew : new.isTyped) : (pieces old new target).Ends ↔
    ∀ p ∈ pairs old new (Text.given target), p.typesOrdered := by
  have hcatalog := hnew
  simp only [Catalog.isTyped, Bool.and_eq_true] at hcatalog
  obtain ⟨⟨⟨hschemas, hextensions⟩, -⟩, -⟩ := hcatalog
  have hschema (p : Pair) (hp : p ∈ pairs old new (Text.given target)) : p.schema.isTyped :=
    Entries.all_get? hschemas (Pair.get?_of_mem_pairs hp).1
  have htypes : (collect (pairs old new (Text.given target)) types).Ends ↔
      ∀ p ∈ pairs old new (Text.given target), p.typesOrdered := by
    rw [ends_collect_iff]
    refine forall₂_congr fun p hp => ends_types_iff ?_
    exact (Bool.and_eq_true_iff.mp (hschema p hp)).2
  constructor
  · rintro ⟨ps, h⟩
    obtain ⟨_, _, h⟩ := Logged.result_bind_eq_ok.mp h
    obtain ⟨_, _, h⟩ := Logged.result_bind_eq_ok.mp h
    obtain ⟨ofTypes, h, _⟩ := Logged.result_bind_eq_ok.mp h
    exact htypes.mp ⟨ofTypes, h⟩
  · intro hordered
    have hpass {pass : Pair → Logged (List Piece)} (h : ∀ p, p.schema.isTyped → (pass p).Ends) :
        (collect (pairs old new (Text.given target)) pass).Ends :=
      ends_collect fun p hp => h p (hschema p hp)
    refine (ends_extensions hextensions).bind fun _ _ => (ends_schemas hschemas).bind fun _ _ =>
      (htypes.mpr hordered).bind fun _ _ => ?_
    refine (hpass fun p hp => ?_).bind fun _ _ =>
      (hpass fun p hp => ends_tables hnew hp).bind fun _ _ => (hpass fun p hp => ?_).bind fun _ _ =>
      (hpass fun p hp => ?_).bind fun _ _ => (hpass fun p hp => ?_).bind fun _ _ =>
      (hpass fun p hp => ?_).bind fun _ _ => ends_pure _
    all_goals
      simp only [Schema.isTyped, Bool.and_eq_true] at hp
      obtain ⟨⟨⟨⟨⟨⟨⟨⟨⟨-, -⟩, -⟩, hviews⟩, hfunctions⟩, hprocedures⟩, haggregates⟩, hsequences⟩, -⟩, -⟩ := hp
    · exact ends_sequences hsequences
    · exact ends_views hviews
    · exact ends_added hfunctions fun _ he => ends_emit (StoredFunction.check_of_isTyped he)
    · exact ends_added haggregates fun _ he => ends_emit (Aggregate.check_of_isTyped he)
    · exact ends_added hprocedures fun _ he => ends_emit (Procedure.check_of_isTyped he)

end Diff
end SchemaScript
