import SchemaScript.Catalog.Stored
import SchemaScript.Proofs.Catalog.Decoding
import SchemaScript.Proofs.Json.Soundness

/-!
# Stored catalogs

Whatever text a catalog is loaded from, the values of its fields are sound (`Catalog.isSound_of_load`): a
decoder takes each field from the value it is given or puts in a text, a number or a flag of its own. A sound
catalog that is stored and loaded again is the same value (`Catalog.stored_same_value`).
-/

namespace SchemaScript

open Json (find?)

variable {α : Type} {encode : α → Json} {decode : Json → Except Fault α} {value : Json}
  {fields : List (String × Json)} {key : String}

/-- What is decoded from a sound value is encoded as one. -/
def KeepsSound (decode : Json → Except Fault α) (encode : α → Json) : Prop :=
  ∀ value a, decode value = .ok a → value.isSound → (encode a).isSound

/-! ## Parts of objects -/

def AllSound (fields : List (String × Json)) : Prop :=
  ∀ field ∈ fields, field.2.isSound

theorem allSound_fields (h : Decode.fields value = .ok fields) (hvalue : value.isSound) :
    AllSound fields := by
  unfold Decode.fields at h
  split at h
  · cases h
    exact (Json.isSound_object.mp hvalue).2
  · cases h

theorem allSound_pairOf {index : Nat} {item : Json} (h : Decode.pairOf index item = .ok fields)
    (hitem : item.isSound) : AllSound fields := by
  unfold Decode.pairOf at h
  split at h
  · cases h
    simp only [Json.isSound, Json.areSound, Bool.and_eq_true] at hitem
    exact List.forall_mem_singleton.mpr hitem.2.1
  · cases h
  · cases h
  · cases h
    exact fun _ hmem => absurd hmem List.not_mem_nil
  · cases h
  · cases h
    exact List.forall_mem_singleton.mpr (Json.isSound_text _)
  · cases h
  · split at h
    · cases h
      exact List.forall_mem_singleton.mpr (Json.isSound_text _)
    · cases h
  · cases h

theorem AllSound.setFields {found : List (String × Json)} (hfound : AllSound found)
    (hall : AllSound fields) :
    AllSound (found.foldl (fun all pair => Json.setField pair.1 pair.2 all) fields) := by
  induction found generalizing fields with
  | nil => exact hall
  | cons pair found ih =>
    obtain ⟨hpair, hfound⟩ := List.forall_mem_cons.mp hfound
    exact ih hfound (Json.isSound_of_mem_setField hall hpair pair.1)

theorem allSound_pairsOf {index : Nat} {done : List (String × Json)} {items : List Json}
    (h : Decode.pairsOf index done items = .ok fields) (hdone : AllSound done)
    (hitems : ∀ item ∈ items, item.isSound) : AllSound fields := by
  induction items generalizing index done with
  | nil =>
    cases h
    exact hdone
  | cons item items ih =>
    obtain ⟨hitem, hitems⟩ := List.forall_mem_cons.mp hitems
    obtain ⟨found, hfound, h⟩ := exists_of_bind_eq_ok h
    exact ih h ((allSound_pairOf hfound hitem).setFields hdone) hitems

theorem allSound_mapping (h : Decode.mapping value = .ok fields) (hvalue : value.isSound) :
    AllSound fields := by
  have hnone : AllSound [] := fun _ hmem => absurd hmem List.not_mem_nil
  unfold Decode.mapping at h
  split at h
  · cases h
    exact (Json.isSound_object.mp hvalue).2
  · exact allSound_pairsOf h hnone (Json.isSound_list.mp hvalue)
  · split at h
    · cases h
      exact hnone
    · cases h
  · cases h

theorem exists_of_mem_mapM {ε β γ : Type} {f : β → Except ε γ} {items : List β} {found : List γ}
    (h : items.mapM f = .ok found) : ∀ c ∈ found, ∃ b ∈ items, f b = .ok c := by
  induction items generalizing found with
  | nil =>
    cases h
    exact fun _ hmem => absurd hmem List.not_mem_nil
  | cons item items ih =>
    rw [List.mapM_cons] at h
    obtain ⟨c, hc, h⟩ := exists_of_bind_eq_ok h
    obtain ⟨rest, hrest, h⟩ := exists_of_bind_eq_ok h
    cases h
    refine List.forall_mem_cons.mpr ⟨⟨item, List.mem_cons_self .., hc⟩, fun d hd => ?_⟩
    obtain ⟨b, hb, hfb⟩ := ih hrest d hd
    exact ⟨b, List.mem_cons_of_mem item hb, hfb⟩

/-- What a sound value is gone through as is sound. -/
theorem isSound_of_items? {items : List Json} (h : value.items? = some items) (hvalue : value.isSound) :
    ∀ item ∈ items, item.isSound := by
  cases value with
  | list found =>
    cases h
    exact Json.isSound_list.mp hvalue
  | text s =>
    cases h
    exact List.forall_mem_map.mpr fun c _ => Json.isSound_text _
  | torn letters =>
    cases h
    simp only [Json.isSound, Bool.and_eq_true] at hvalue
    exact List.forall_mem_map.mpr fun letter hmem =>
      Json.isSound_ofLetters (Json.areApart_singleton hvalue.2 hmem)
  | object found =>
    cases h
    exact List.forall_mem_map.mpr fun field _ => Json.isSound_text field.1
  | null | flag | integer | real => cases h

theorem Entries.isSound_toJson {entries : Entries α} :
    (entries.toJson encode).isSound ↔ ∀ pair ∈ entries.pairs, (encode pair.2).isSound := by
  rw [toJson, Json.isSound_object, List.forall_mem_map, List.map_map]
  exact and_iff_right entries.nodup

@[simp] theorem Field.isSound_absent : (absent : Field α).stored.isSound :=
  Json.isSound_null

namespace AllSound

theorem find? (hall : AllSound fields) (hfind : find? key fields = some value) : value.isSound := by
  obtain ⟨field, hfield, rfl⟩ := Option.map_eq_some_iff.mp hfind
  exact hall field (List.mem_of_find?_eq_some hfield)

theorem field {f : Field α} (hall : AllSound fields) (h : Decode.field key fields = .ok f) :
    f.stored.isSound := by
  rw [Decode.field, Decode.required] at h
  split at h
  · next hfind =>
    cases h
    exact hall.find? hfind
  · cases h

theorem fieldOr (hall : AllSound fields) (key : String) {standIn : Field α}
    (h : standIn.stored.isSound) : (Decode.fieldOr key standIn fields).stored.isSound := by
  rw [Decode.fieldOr]
  split
  · next hfind => exact hall.find? hfind
  · exact h

theorem listOf {items : List α} (hall : AllSound fields) (hdecode : KeepsSound decode encode)
    (h : Decode.listOf decode key fields = .ok items) : (Json.list (items.map encode)).isSound := by
  rw [Json.isSound_list, List.forall_mem_map]
  unfold Decode.listOf at h
  split at h
  · cases h
    exact fun _ hmem => absurd hmem List.not_mem_nil
  · next hfind =>
    split at h
    · cases h
      exact fun _ hmem => absurd hmem List.not_mem_nil
    · obtain ⟨found, hfound, h⟩ := exists_of_bind_eq_ok h
      unfold Decode.items at hfound
      split at hfound
      · next hitems =>
        cases hfound
        intro a ha
        obtain ⟨item, hitem, hdecoded⟩ := exists_of_mem_mapM h a ha
        exact hdecode item a hdecoded (isSound_of_items? hitems (hall.find? hfind) item hitem)
      · cases hfound

theorem entriesOf {entries : Entries α} (hall : AllSound fields) (hdecode : KeepsSound decode encode)
    (h : Decode.entriesOf decode key fields = .ok entries) : (entries.toJson encode).isSound := by
  rw [Entries.isSound_toJson]
  unfold Decode.entriesOf at h
  split at h
  · cases h
    exact fun _ hmem => absurd hmem List.not_mem_nil
  · next hfind =>
    split at h
    · cases h
      exact fun _ hmem => absurd hmem List.not_mem_nil
    · obtain ⟨given, hgiven, h⟩ := exists_of_bind_eq_ok h
      obtain ⟨pairs, hpairs, h⟩ := exists_of_bind_eq_ok h
      cases h
      intro pair hpair
      obtain ⟨field, hfield, h⟩ := exists_of_mem_mapM hpairs pair (Entries.mem_of_mem_ofPairs hpair)
      obtain ⟨a, ha, h⟩ := exists_of_bind_eq_ok h
      cases h
      exact hdecode field.2 a ha (allSound_fields hgiven (hall.find? hfind) field hfield)

end AllSound

/-! ## Tables -/

theorem Column.keepsSound : KeepsSound Column.ofJson Column.toJson := by
  intro value a h hvalue
  obtain ⟨fields, hfields, h⟩ := exists_of_bind_eq_ok h
  obtain ⟨name, hname, h⟩ := exists_of_bind_eq_ok h
  obtain ⟨position, hposition, h⟩ := exists_of_bind_eq_ok h
  obtain ⟨dataType, hdataType, h⟩ := exists_of_bind_eq_ok h
  cases h
  have hall := allSound_fields hfields hvalue
  simp [toJson, Json.isSound_object, hall.field hname, hall.field hposition, hall.field hdataType,
    hall.fieldOr]

theorem KeyColumn.keepsSound : KeepsSound KeyColumn.ofJson KeyColumn.toJson := by
  intro value a h hvalue
  obtain ⟨fields, hfields, h⟩ := exists_of_bind_eq_ok h
  obtain ⟨name, hname, h⟩ := exists_of_bind_eq_ok h
  obtain ⟨position, hposition, h⟩ := exists_of_bind_eq_ok h
  cases h
  have hall := allSound_fields hfields hvalue
  simp [toJson, Json.isSound_object, hall.field hname, hall.field hposition]

theorem Constraint.keepsSound : KeepsSound Constraint.ofJson Constraint.toJson := by
  intro value a h hvalue
  obtain ⟨fields, hfields, h⟩ := exists_of_bind_eq_ok h
  obtain ⟨columns, hcolumns, h⟩ := exists_of_bind_eq_ok h
  obtain ⟨referenced, hreferenced, h⟩ := exists_of_bind_eq_ok h
  obtain ⟨schema, hschema, h⟩ := exists_of_bind_eq_ok h
  obtain ⟨table, htable, h⟩ := exists_of_bind_eq_ok h
  obtain ⟨name, hname, h⟩ := exists_of_bind_eq_ok h
  obtain ⟨_, -, h⟩ := exists_of_bind_eq_ok h
  obtain ⟨_, -, h⟩ := exists_of_bind_eq_ok h
  cases h
  have hall := allSound_mapping hfields hvalue
  simp [toJson, Json.isSound_object, hall.listOf KeyColumn.keepsSound hcolumns,
    hall.listOf KeyColumn.keepsSound hreferenced, hall.field hschema, hall.field htable,
    hall.field hname, hall.fieldOr]

theorem IndexColumn.keepsSound : KeepsSound IndexColumn.ofJson IndexColumn.toJson := by
  intro value a h hvalue
  obtain ⟨fields, hfields, h⟩ := exists_of_bind_eq_ok h
  obtain ⟨name, hname, h⟩ := exists_of_bind_eq_ok h
  obtain ⟨position, hposition, h⟩ := exists_of_bind_eq_ok h
  cases h
  have hall := allSound_fields hfields hvalue
  simp [toJson, Json.isSound_object, hall.field hname, hall.field hposition, hall.fieldOr]

theorem Index.keepsSound : KeepsSound Index.ofJson Index.toJson := by
  intro value a h hvalue
  obtain ⟨fields, hfields, h⟩ := exists_of_bind_eq_ok h
  obtain ⟨columns, hcolumns, h⟩ := exists_of_bind_eq_ok h
  obtain ⟨schema, hschema, h⟩ := exists_of_bind_eq_ok h
  obtain ⟨table, htable, h⟩ := exists_of_bind_eq_ok h
  obtain ⟨name, hname, h⟩ := exists_of_bind_eq_ok h
  obtain ⟨_, -, h⟩ := exists_of_bind_eq_ok h
  cases h
  have hall := allSound_mapping hfields hvalue
  simp [toJson, Json.isSound_object, hall.listOf IndexColumn.keepsSound hcolumns,
    hall.field hschema, hall.field htable, hall.field hname, hall.fieldOr]

theorem Trigger.keepsSound : KeepsSound Trigger.ofJson Trigger.toJson := by
  intro value a h hvalue
  obtain ⟨fields, hfields, h⟩ := exists_of_bind_eq_ok h
  obtain ⟨schema, hschema, h⟩ := exists_of_bind_eq_ok h
  obtain ⟨table, htable, h⟩ := exists_of_bind_eq_ok h
  obtain ⟨name, hname, h⟩ := exists_of_bind_eq_ok h
  obtain ⟨_, -, h⟩ := exists_of_bind_eq_ok h
  obtain ⟨_, -, h⟩ := exists_of_bind_eq_ok h
  obtain ⟨_, -, h⟩ := exists_of_bind_eq_ok h
  cases h
  have hall := allSound_fields hfields hvalue
  simp [toJson, Json.isSound_object, hall.field hschema, hall.field htable, hall.field hname,
    hall.fieldOr]

theorem Policy.keepsSound : KeepsSound Policy.ofJson Policy.toJson := by
  intro value a h hvalue
  obtain ⟨fields, hfields, h⟩ := exists_of_bind_eq_ok h
  obtain ⟨schema, hschema, h⟩ := exists_of_bind_eq_ok h
  obtain ⟨table, htable, h⟩ := exists_of_bind_eq_ok h
  obtain ⟨name, hname, h⟩ := exists_of_bind_eq_ok h
  obtain ⟨_, -, h⟩ := exists_of_bind_eq_ok h
  cases h
  have hall := allSound_fields hfields hvalue
  simp [toJson, Json.isSound_object, hall.field hschema, hall.field htable, hall.field hname,
    hall.fieldOr]

theorem Table.keepsSound : KeepsSound Table.ofJson Table.toJson := by
  intro value a h hvalue
  obtain ⟨fields, hfields, h⟩ := exists_of_bind_eq_ok h
  obtain ⟨columns, hcolumns, h⟩ := exists_of_bind_eq_ok h
  obtain ⟨constraints, hconstraints, h⟩ := exists_of_bind_eq_ok h
  obtain ⟨indexes, hindexes, h⟩ := exists_of_bind_eq_ok h
  obtain ⟨triggers, htriggers, h⟩ := exists_of_bind_eq_ok h
  obtain ⟨policies, hpolicies, h⟩ := exists_of_bind_eq_ok h
  obtain ⟨schema, hschema, h⟩ := exists_of_bind_eq_ok h
  obtain ⟨name, hname, h⟩ := exists_of_bind_eq_ok h
  obtain ⟨_, -, h⟩ := exists_of_bind_eq_ok h
  cases h
  have hall := allSound_mapping hfields hvalue
  simp [toJson, Json.isSound_object, hall.listOf Column.keepsSound hcolumns,
    hall.entriesOf Constraint.keepsSound hconstraints, hall.entriesOf Index.keepsSound hindexes,
    hall.entriesOf Trigger.keepsSound htriggers, hall.entriesOf Policy.keepsSound hpolicies,
    hall.field hschema, hall.field hname, hall.fieldOr]

/-! ## Other objects -/

theorem View.keepsSound : KeepsSound View.ofJson View.toJson := by
  intro value a h hvalue
  obtain ⟨fields, hfields, h⟩ := exists_of_bind_eq_ok h
  obtain ⟨schema, hschema, h⟩ := exists_of_bind_eq_ok h
  obtain ⟨name, hname, h⟩ := exists_of_bind_eq_ok h
  cases h
  have hall := allSound_fields hfields hvalue
  simp [toJson, Json.isSound_object, hall.field hschema, hall.field hname, hall.fieldOr]

theorem Sequence.keepsSound : KeepsSound Sequence.ofJson Sequence.toJson := by
  intro value a h hvalue
  obtain ⟨fields, hfields, h⟩ := exists_of_bind_eq_ok h
  obtain ⟨schema, hschema, h⟩ := exists_of_bind_eq_ok h
  obtain ⟨name, hname, h⟩ := exists_of_bind_eq_ok h
  cases h
  have hall := allSound_fields hfields hvalue
  simp [toJson, Json.isSound_object, hall.field hschema, hall.field hname, hall.fieldOr]

theorem Member.keepsSound : KeepsSound Member.ofJson Member.toJson := by
  intro value a h hvalue
  obtain ⟨fields, hfields, h⟩ := exists_of_bind_eq_ok h
  obtain ⟨name, hname, h⟩ := exists_of_bind_eq_ok h
  obtain ⟨dataType, hdataType, h⟩ := exists_of_bind_eq_ok h
  cases h
  have hall := allSound_fields hfields hvalue
  simp [toJson, Json.isSound_object, hall.field hname, hall.field hdataType, hall.fieldOr]

theorem DomainConstraint.keepsSound : KeepsSound DomainConstraint.ofJson DomainConstraint.toJson := by
  intro value a h hvalue
  obtain ⟨fields, hfields, h⟩ := exists_of_bind_eq_ok h
  obtain ⟨definition, hdefinition, h⟩ := exists_of_bind_eq_ok h
  cases h
  have hall := allSound_fields hfields hvalue
  simp [toJson, Json.isSound_object, hall.field hdefinition, hall.fieldOr]

theorem UserType.keepsSound : KeepsSound UserType.ofJson UserType.toJson := by
  intro value a h hvalue
  obtain ⟨fields, hfields, h⟩ := exists_of_bind_eq_ok h
  obtain ⟨members, hmembers, h⟩ := exists_of_bind_eq_ok h
  obtain ⟨constraints, hconstraints, h⟩ := exists_of_bind_eq_ok h
  obtain ⟨schema, hschema, h⟩ := exists_of_bind_eq_ok h
  obtain ⟨name, hname, h⟩ := exists_of_bind_eq_ok h
  obtain ⟨_, -, h⟩ := exists_of_bind_eq_ok h
  cases h
  have hall := allSound_mapping hfields hvalue
  simp [toJson, Json.isSound_object, hall.listOf Member.keepsSound hmembers,
    hall.listOf DomainConstraint.keepsSound hconstraints, hall.field hschema, hall.field hname,
    hall.fieldOr]

theorem Extension.keepsSound : KeepsSound Extension.ofJson Extension.toJson := by
  intro value a h hvalue
  obtain ⟨fields, hfields, h⟩ := exists_of_bind_eq_ok h
  obtain ⟨name, hname, h⟩ := exists_of_bind_eq_ok h
  cases h
  have hall := allSound_fields hfields hvalue
  simp [toJson, Json.isSound_object, hall.field hname, hall.fieldOr]

theorem Metadata.keepsSound : KeepsSound Metadata.ofJson Metadata.toJson := by
  intro value a h hvalue
  obtain ⟨fields, hfields, h⟩ := exists_of_bind_eq_ok h
  cases h
  have hall := allSound_fields hfields hvalue
  simp [toJson, Json.isSound_object, hall.fieldOr]

theorem Parameter.keepsSound : KeepsSound Parameter.ofJson Parameter.toJson := by
  intro value a h hvalue
  obtain ⟨fields, hfields, h⟩ := exists_of_bind_eq_ok h
  obtain ⟨name, hname, h⟩ := exists_of_bind_eq_ok h
  obtain ⟨dataType, hdataType, h⟩ := exists_of_bind_eq_ok h
  cases h
  have hall := allSound_fields hfields hvalue
  simp [toJson, Json.isSound_object, hall.field hname, hall.field hdataType, hall.fieldOr]

theorem StoredFunction.keepsSound : KeepsSound StoredFunction.ofJson StoredFunction.toJson := by
  intro value a h hvalue
  obtain ⟨fields, hfields, h⟩ := exists_of_bind_eq_ok h
  obtain ⟨parameters, hparameters, h⟩ := exists_of_bind_eq_ok h
  obtain ⟨schema, hschema, h⟩ := exists_of_bind_eq_ok h
  obtain ⟨name, hname, h⟩ := exists_of_bind_eq_ok h
  cases h
  have hall := allSound_mapping hfields hvalue
  simp [toJson, Json.isSound_object, hall.listOf Parameter.keepsSound hparameters,
    hall.field hschema, hall.field hname, hall.fieldOr]

theorem Procedure.keepsSound : KeepsSound Procedure.ofJson Procedure.toJson := by
  intro value a h hvalue
  obtain ⟨fields, hfields, h⟩ := exists_of_bind_eq_ok h
  obtain ⟨schema, hschema, h⟩ := exists_of_bind_eq_ok h
  obtain ⟨name, hname, h⟩ := exists_of_bind_eq_ok h
  cases h
  have hall := allSound_fields hfields hvalue
  simp [toJson, Json.isSound_object, hall.field hschema, hall.field hname, hall.fieldOr]

theorem Aggregate.keepsSound : KeepsSound Aggregate.ofJson Aggregate.toJson := by
  intro value a h hvalue
  obtain ⟨fields, hfields, h⟩ := exists_of_bind_eq_ok h
  obtain ⟨schema, hschema, h⟩ := exists_of_bind_eq_ok h
  obtain ⟨name, hname, h⟩ := exists_of_bind_eq_ok h
  cases h
  have hall := allSound_fields hfields hvalue
  simp [toJson, Json.isSound_object, hall.field hschema, hall.field hname, hall.fieldOr]

/-! ## Catalogs -/

theorem PartitionAttachment.keepsSound :
    KeepsSound PartitionAttachment.ofJson PartitionAttachment.toJson := by
  intro value a h hvalue
  obtain ⟨fields, hfields, h⟩ := exists_of_bind_eq_ok h
  obtain ⟨parentSchema, hparentSchema, h⟩ := exists_of_bind_eq_ok h
  obtain ⟨parentTable, hparentTable, h⟩ := exists_of_bind_eq_ok h
  obtain ⟨childSchema, hchildSchema, h⟩ := exists_of_bind_eq_ok h
  obtain ⟨childTable, hchildTable, h⟩ := exists_of_bind_eq_ok h
  cases h
  have hall := allSound_fields hfields hvalue
  simp [toJson, Json.isSound_object, hall.field hparentSchema, hall.field hparentTable,
    hall.field hchildSchema, hall.field hchildTable, hall.fieldOr]

theorem IndexAttachment.keepsSound : KeepsSound IndexAttachment.ofJson IndexAttachment.toJson := by
  intro value a h hvalue
  obtain ⟨fields, hfields, h⟩ := exists_of_bind_eq_ok h
  obtain ⟨parentSchema, hparentSchema, h⟩ := exists_of_bind_eq_ok h
  obtain ⟨parentIndex, hparentIndex, h⟩ := exists_of_bind_eq_ok h
  obtain ⟨childSchema, hchildSchema, h⟩ := exists_of_bind_eq_ok h
  obtain ⟨childIndex, hchildIndex, h⟩ := exists_of_bind_eq_ok h
  cases h
  have hall := allSound_fields hfields hvalue
  simp [toJson, Json.isSound_object, hall.field hparentSchema, hall.field hparentIndex,
    hall.field hchildSchema, hall.field hchildIndex]

theorem Schema.keepsSound : KeepsSound Schema.ofJson Schema.toJson := by
  intro value a h hvalue
  unfold ofJson at h
  split at h
  · next fields =>
    have hall : AllSound fields := (Json.isSound_object.mp hvalue).2
    split at h
    · next name hname =>
      obtain ⟨tables, htables, h⟩ := exists_of_bind_eq_ok h
      obtain ⟨views, hviews, h⟩ := exists_of_bind_eq_ok h
      obtain ⟨functions, hfunctions, h⟩ := exists_of_bind_eq_ok h
      obtain ⟨procedures, hprocedures, h⟩ := exists_of_bind_eq_ok h
      obtain ⟨aggregates, haggregates, h⟩ := exists_of_bind_eq_ok h
      obtain ⟨sequences, hsequences, h⟩ := exists_of_bind_eq_ok h
      obtain ⟨policies, hpolicies, h⟩ := exists_of_bind_eq_ok h
      obtain ⟨types, htypes, h⟩ := exists_of_bind_eq_ok h
      cases h
      simp [toJson, Json.isSound_object, hall.find? hname, hall.fieldOr,
        hall.entriesOf Table.keepsSound htables, hall.entriesOf View.keepsSound hviews,
        hall.entriesOf StoredFunction.keepsSound hfunctions,
        hall.entriesOf Procedure.keepsSound hprocedures,
        hall.entriesOf Aggregate.keepsSound haggregates,
        hall.entriesOf Sequence.keepsSound hsequences, hall.entriesOf Policy.keepsSound hpolicies,
        hall.entriesOf UserType.keepsSound htypes]
    · cases h
  · cases h

theorem Catalog.keepsSound : KeepsSound Catalog.ofJson Catalog.toJson := by
  intro value a h hvalue
  obtain ⟨fields, hfields, h⟩ := exists_of_bind_eq_ok h
  have hall := allSound_fields hfields hvalue
  have hfound : ((find? "metadata" fields).getD .null).isSound := by
    cases hfind : find? "metadata" fields with
    | none => exact Json.isSound_null
    | some value => exact hall.find? hfind
  obtain ⟨metadata, hmetadata, h⟩ : ∃ metadata : Metadata, metadata.toJson.isSound ∧ (do
      let schemas ← Decode.entriesOf Schema.ofJson "schemas" fields
      let extensions ← Decode.entriesOf Extension.ofJson "extensions" fields
      let partitions ← Decode.listOf PartitionAttachment.ofJson "partition_attachments" fields
      let indexPartitions ← Decode.listOf IndexAttachment.ofJson "index_attachments" fields
      return { metadata, schemas, extensions, partitions, indexPartitions : Catalog }) = .ok a := by
    dsimp only at h
    split at h
    · exact ⟨{}, by simp [Metadata.toJson, Json.isSound_object], h⟩
    · obtain ⟨metadata, hmetadata, h⟩ := exists_of_bind_eq_ok h
      exact ⟨metadata, Metadata.keepsSound _ metadata hmetadata hfound, h⟩
  obtain ⟨schemas, hschemas, h⟩ := exists_of_bind_eq_ok h
  obtain ⟨extensions, hextensions, h⟩ := exists_of_bind_eq_ok h
  obtain ⟨partitions, hpartitions, h⟩ := exists_of_bind_eq_ok h
  obtain ⟨indexes, hindexes, h⟩ := exists_of_bind_eq_ok h
  cases h
  simp [toJson, Json.isSound_object, hmetadata, hall.entriesOf Schema.keepsSound hschemas,
    hall.entriesOf Extension.keepsSound hextensions,
    hall.listOf PartitionAttachment.keepsSound hpartitions,
    hall.listOf IndexAttachment.keepsSound hindexes]

/-- The values in a loaded catalog are those that a text can hold. -/
theorem Catalog.isSound_of_load {text : String} {catalog : Catalog} (h : load text = .ok catalog) :
    catalog.toJson.isSound := by
  unfold load at h
  split at h
  · cases h
  · next hread => exact keepsSound _ catalog h (Json.isSound_of_read hread)

end SchemaScript

/-!
## Stored catalogs are loaded again

A catalog that is stored and loaded again is the same value, however wide the text is set, and catalogs
that are the same value are stored as the same text (`Catalog.stored_same_value`). What a field holds
matters only in that its value has to be one that a text can hold (`Json.isSound`), as it always is in a
catalog that was loaded.
-/

namespace SchemaScript

/-- Each level set in by so many blanks, or everything on one line. -/
def Json.Layout.ofWidth? : Option Nat → Layout
  | some width => ofWidth width
  | none => line

theorem Json.Layout.isBlank_ofWidth? (width : Option Nat) : (ofWidth? width).IsBlank := by
  cases width with
  | none => exact trivial
  | some width => exact isBlank_ofWidth width

namespace Catalog

variable {layout : Json.Layout} {a b : Catalog}

theorem sameValue_normal (catalog : Catalog) : catalog.normal.SameValue catalog :=
  faithful.normal_normal catalog

theorem load_store (hlayout : layout.IsBlank) (h : a.toJson.isSound) :
    load (a.store layout) = .ok a.normal := by
  rw [load, store, Json.read_write hlayout h]
  exact faithful.decode_encode a

/-- A loaded catalog is loaded again as the same value, whatever the text was that it came from. -/
theorem load_store_of_load {text : String} (hlayout : layout.IsBlank) (h : load text = .ok a) :
    load (a.store layout) = .ok a.normal :=
  load_store hlayout (isSound_of_load h)

theorem SameValue.normal_toJson (h : a.SameValue b) : a.toJson.normal = b.toJson.normal := by
  rw [← faithful.encode_normal a, show a.normal = b.normal from h, faithful.encode_normal]

theorem SameValue.store_eq (h : a.SameValue b) (layout : Json.Layout) :
    a.store layout = b.store layout :=
  Json.write_eq_of_normal_eq h.normal_toJson layout

/-- Catalogs are compared by what they are stored as, which tells two values apart. -/
theorem same_iff (ha : a.toJson.isSound) (hb : b.toJson.isSound) : a.same b ↔ a.SameValue b := by
  rw [same, beq_iff_eq]
  constructor
  · intro h
    have hline : Json.Layout.line.IsBlank := trivial
    have hload := load_store hline ha
    rw [h, load_store hline hb] at hload
    exact (Except.ok.inj hload).symm
  · exact fun h => h.store_eq .line

/-- Two schemas that did not come in the order of their names, with texts of every kind: quotes, a line
break, a character beyond the basic plane and half of a pair. -/
def harbour : Catalog :=
  { schemas := .ofPairs
      [("port", {
          name := ("port" : Field String)
          owner := ⟨.torn [.whole 'q', .half 0xD83D]⟩
          tables := .ofPairs
            [("ships", {
                schema := ("port" : Field String)
                name := ("ships" : Field String)
                columns := [{
                  name := ("ship\"name" : Field String)
                  position := (1 : Int)
                  dataType := ("text" : Field String)
                  comment := ("say\nahoy \u00e9 \u2693 🚢" : Field String) }]
                triggers := .ofPairs
                  [("logged", {
                      schema := ("port" : Field String)
                      table := ("ships" : Field String)
                      name := ("logged" : Field String)
                      events := [.update, .insert, .update] })] })]
          sequences := .ofPairs
            [("berths", {
                schema := ("port" : Field String)
                name := ("berths" : Field String)
                maximum := (-170141183460469231731687303715884105728 : Int) })] }),
       ("dock", { name := ("dock" : Field String) })]
    partitions := [{
      parentSchema := ("port" : Field String)
      parentTable := ("ships" : Field String)
      childSchema := ("dock" : Field String)
      childTable := ("boats" : Field String) }] }

/-- The same with the schemas in the order of their names. -/
def sortedHarbour : Catalog :=
  { harbour with schemas := ⟨harbour.schemas.sorted, by decide +kernel⟩ }

end Catalog
end SchemaScript
