import SchemaScript.Catalog.Decode
import SchemaScript.Catalog.Stored
import SchemaScript.Proofs.Catalog.Normal

/-!
# Decoding what was encoded

A catalog decoded from the normal form of its JSON value is the catalog in normal form, and catalogs
with one normal form are encoded as values with one normal form (`Catalog.faithful`). This goes object by
object: a decoder asks for fields by name only, and in the normal form of an object each field is found
with its value in normal form.
-/

namespace SchemaScript

open Json (find?)

variable {α : Type} {encode : α → Json} {decode : Json → Except Fault α} {normal : α → α}

/-- Decoding inverts encoding, up to normal forms. -/
structure Faithful (encode : α → Json) (decode : Json → Except Fault α) (normal : α → α) : Prop where
  decode_encode : ∀ a, decode (encode a).normal = .ok (normal a)
  encode_normal : ∀ a, (encode (normal a)).normal = (encode a).normal

namespace Faithful

theorem normal_normal (h : Faithful encode decode normal) (a : α) : normal (normal a) = normal a := by
  have hdecode := h.decode_encode (normal a)
  rw [h.encode_normal, h.decode_encode] at hdecode
  exact (Except.ok.inj hdecode).symm

theorem mapM_encode (h : Faithful encode decode normal) (items : List α) :
    ((items.map encode).map Json.normal).mapM decode = .ok (items.map normal) := by
  induction items with
  | nil => rfl
  | cons item items ih =>
    rw [List.map_cons, List.map_cons, List.mapM_cons, h.decode_encode, ih]
    rfl

theorem list_normal (h : Faithful encode decode normal) (items : List α) :
    (Json.list ((items.map normal).map encode)).normal = (Json.list (items.map encode)).normal := by
  rw [Json.normal_list, Json.normal_list, List.map_map, List.map_map, List.map_map]
  exact congrArg Json.list (List.map_congr_left fun a _ => h.encode_normal a)

end Faithful

/-! ## Parts of objects -/

/-- Each of the fields is found, with its value in normal form. -/
def Finds (fields sorted : List (String × Json)) : Prop :=
  ∀ field ∈ fields, find? field.1 sorted = some field.2.normal

theorem decode_object {fields : List (String × Json)} {a : α} (hnames : (fields.map (·.1)).Nodup)
    (h : ∀ sorted, Finds fields sorted → decode (.object sorted) = .ok a) :
    decode (Json.object fields).normal = .ok a := by
  obtain ⟨sorted, hnormal, hfinds⟩ := Json.exists_normal_object hnames
  rw [hnormal, h sorted hfinds]

section

variable {fields sorted : List (String × Json)}

theorem Finds.listOf (hfinds : Finds fields sorted) (h : Faithful encode decode normal) (key : String)
    (items : List α) (hmem : (key, Json.list (items.map encode)) ∈ fields) :
    Decode.listOf decode key sorted = .ok (items.map normal) := by
  have hfind := hfinds _ hmem
  rw [Json.normal_list] at hfind
  simp only [Decode.listOf, hfind]
  rcases items with _ | ⟨item, items⟩
  · rfl
  · exact h.mapM_encode (item :: items)

/-- Every member of a closed set is found by its word. -/
def Worded (all : List α) (word : α → String) : Prop :=
  ∀ a, (all.find? fun b => word b == word a) = some a

theorem Worded.choose {all : List α} {word : α → String} (h : Worded all word) (choice : Choice)
    (a : α) :
    Decode.choose all word choice (.text (word a)) = .ok a := by
  simp only [Decode.choose, h a]

theorem Finds.choiceOr {all : List α} {word : α → String} (hfinds : Finds fields sorted)
    (h : Worded all word) (key : String) (a : α) (hmem : (key, Json.text (word a)) ∈ fields)
    (choice : Choice) (standIn : α) : Decode.choiceOr all word choice key standIn sorted = .ok a := by
  have hfind := hfinds _ hmem
  rw [Json.normal_text] at hfind
  simp only [Decode.choiceOr, hfind, h.choose]

end

/-! ## Entries -/

namespace Entries

variable {pairs : List (String × α)}

theorem pairs_normal (normal : α → α) (entries : Entries α) :
    (entries.normal normal).pairs = entries.sorted.map fun pair => (pair.1, normal pair.2) :=
  Json.sortFields_map normal entries.pairs

theorem toJson_normal (encode : α → Json) (entries : Entries α) :
    (entries.toJson encode).normal =
      .object (entries.sorted.map fun pair => (pair.1, (encode pair.2).normal)) := by
  rw [toJson, Json.normal_object, Json.sortFields_map, List.map_map]
  rfl

theorem ofPairs_normal (normal : α → α) (entries : Entries α) :
    ofPairs (entries.sorted.map fun pair => (pair.1, normal pair.2)) = entries.normal normal := by
  rw [← pairs_normal]
  exact eq_of_pairs (pairs_ofPairs (entries.normal normal).nodup)

theorem normal_toJson_normal (h : Faithful encode decode normal) (entries : Entries α) :
    ((entries.normal normal).toJson encode).normal = (entries.toJson encode).normal := by
  have hsorted : (entries.normal normal).sorted = (entries.normal normal).pairs :=
    Json.sortFields_sortFields (entries.map normal).pairs
  rw [toJson_normal, toJson_normal, hsorted, pairs_normal, List.map_map]
  exact congrArg Json.object (List.map_congr_left fun pair _ => by
    rw [Function.comp_apply, h.encode_normal])

end Entries

theorem Finds.entriesOf {fields sorted : List (String × Json)} (hfinds : Finds fields sorted)
    (h : Faithful encode decode normal) (key : String) (entries : Entries α)
    (hmem : (key, entries.toJson encode) ∈ fields) :
    Decode.entriesOf decode key sorted = .ok (entries.normal normal) := by
  have hfind := hfinds _ hmem
  have hpairs (pairs : List (String × α)) :
      (pairs.map fun pair => (pair.1, (encode pair.2).normal)).mapM
        (fun field => do return (field.1, ← decode field.2)) =
          .ok (pairs.map fun pair => (pair.1, normal pair.2)) := by
    induction pairs with
    | nil => rfl
    | cons pair pairs ih =>
      rw [List.map_cons, List.mapM_cons, ih, h.decode_encode]
      rfl
  rw [Entries.toJson_normal] at hfind
  simp only [Decode.entriesOf, hfind, Decode.fields, bind, Except.bind]
  rw [← Entries.ofPairs_normal]
  rcases entries.sorted with _ | ⟨pair, pairs⟩
  · rfl
  · have hall := hpairs (pair :: pairs)
    simp only [bind, Except.bind] at hall
    rw [hall]
    rfl

/-! ## Tables -/

theorem Column.faithful : Faithful Column.toJson Column.ofJson Column.normal where
  decode_encode c := decode_object (by simp) fun sorted hfinds => by
    simp only [Finds, List.forall_mem_cons] at hfinds
    simp only [Column.ofJson, Decode.fields, Decode.field, Decode.required, Decode.fieldOr, hfinds,
      bind, Except.bind, Except.map]
    rfl
  encode_normal c := by
    simp only [Column.toJson, Column.normal, Field.normal, Json.normal_object_fields, Json.normalFields,
      Json.normal_normal]

theorem KeyColumn.faithful : Faithful KeyColumn.toJson KeyColumn.ofJson KeyColumn.normal where
  decode_encode c := decode_object (by simp) fun sorted hfinds => by
    simp only [Finds, List.forall_mem_cons] at hfinds
    simp only [KeyColumn.ofJson, Decode.fields, Decode.field, Decode.required, hfinds, bind,
      Except.bind, Except.map]
    rfl
  encode_normal c := by
    simp only [KeyColumn.toJson, KeyColumn.normal, Field.normal, Json.normal_object_fields,
      Json.normalFields, Json.normal_normal]

theorem ConstraintKind.worded : Worded ConstraintKind.all ConstraintKind.text := by
  rintro ⟨⟩ <;> rfl

theorem Constraint.faithful : Faithful Constraint.toJson Constraint.ofJson Constraint.normal where
  decode_encode c := decode_object (by simp) fun sorted hfinds => by
    have hcolumns := hfinds.listOf KeyColumn.faithful "columns" c.columns (by simp)
    have hreferenced := hfinds.listOf KeyColumn.faithful "referenced_columns" c.referencedColumns
      (by simp)
    simp only [Finds, List.forall_mem_cons, Json.normal_text] at hfinds
    simp only [Constraint.ofJson, Decode.mapping, Decode.field, Decode.required, Decode.fieldOr, hfinds,
      hcolumns, hreferenced, ConstraintKind.worded.choose, bind, Except.bind, Except.map]
    rfl
  encode_normal c := by
    simp only [Constraint.toJson, Constraint.normal, Field.normal, Json.normal_object_fields,
      Json.normalFields, Json.normal_normal, KeyColumn.faithful.list_normal]

theorem IndexColumn.faithful : Faithful IndexColumn.toJson IndexColumn.ofJson IndexColumn.normal where
  decode_encode c := decode_object (by simp) fun sorted hfinds => by
    simp only [Finds, List.forall_mem_cons] at hfinds
    simp only [IndexColumn.ofJson, Decode.fields, Decode.field, Decode.required, Decode.fieldOr,
      hfinds, bind, Except.bind, Except.map]
    rfl
  encode_normal c := by
    simp only [IndexColumn.toJson, IndexColumn.normal, Field.normal, Json.normal_object_fields,
      Json.normalFields, Json.normal_normal]

theorem IndexKind.worded : Worded IndexKind.all IndexKind.text := by
  rintro ⟨⟩ <;> rfl

theorem Index.faithful : Faithful Index.toJson Index.ofJson Index.normal where
  decode_encode index := decode_object (by simp) fun sorted hfinds => by
    have hcolumns := hfinds.listOf IndexColumn.faithful "columns" index.columns (by simp)
    have hkind := hfinds.choiceOr IndexKind.worded "type" index.kind (by simp) .indexKind .regular
    simp only [Finds, List.forall_mem_cons] at hfinds
    simp only [Index.ofJson, Decode.mapping, Decode.field, Decode.required, Decode.fieldOr, hfinds,
      hcolumns, hkind, bind, Except.bind, Except.map]
    rfl
  encode_normal index := by
    simp only [Index.toJson, Index.normal, Field.normal, Json.normal_object_fields, Json.normalFields,
      Json.normal_normal, IndexColumn.faithful.list_normal]

theorem Event.worded : Worded Event.all Event.text := by
  rintro ⟨⟩ <;> rfl

theorem Finds.events {fields sorted : List (String × Json)} (hfinds : Finds fields sorted)
    (events : List Event) (hmem : ("events", Json.ofTexts (events.map Event.text)) ∈ fields) :
    Decode.events sorted = .ok events := by
  have hfind := hfinds _ hmem
  have hall (events : List Event) :
      ((events.map fun event => Json.text event.text).mapM
        (Decode.choose Event.all Event.text .event)) = .ok events := by
    induction events with
    | nil => rfl
    | cons event events ih =>
      rw [List.map_cons, List.mapM_cons, Event.worded.choose, ih]
      rfl
  rw [Json.ofTexts, Json.normal_list, List.map_map, List.map_map] at hfind
  simp only [Function.comp_def, Json.normal_text] at hfind
  simp only [Decode.events, hfind]
  exact hall events

theorem Timing.worded : Worded Timing.all Timing.text := by
  rintro ⟨⟩ <;> rfl

theorem Granularity.worded : Worded Granularity.all Granularity.text := by
  rintro ⟨⟩ <;> rfl

theorem Trigger.faithful : Faithful Trigger.toJson Trigger.ofJson Trigger.normal where
  decode_encode t := decode_object (by simp) fun sorted hfinds => by
    have htiming := hfinds.choiceOr Timing.worded "timing" t.timing (by simp) .timing .after
    have hlevel := hfinds.choiceOr Granularity.worded "level" t.granularity (by simp) .level .row
    have hevents := hfinds.events t.events (by simp)
    simp only [Finds, List.forall_mem_cons] at hfinds
    simp only [Trigger.ofJson, Decode.fields, Decode.field, Decode.required, Decode.fieldOr, hfinds,
      htiming, hlevel, hevents, bind, Except.bind, Except.map]
    rfl
  encode_normal t := by
    simp only [Trigger.toJson, Trigger.normal, Field.normal, Json.normal_object_fields,
      Json.normalFields, Json.normal_normal]

theorem PolicyCommand.worded : Worded PolicyCommand.every PolicyCommand.text := by
  rintro ⟨⟩ <;> rfl

theorem Policy.faithful : Faithful Policy.toJson Policy.ofJson Policy.normal where
  decode_encode p := decode_object (by simp) fun sorted hfinds => by
    have hcommand := hfinds.choiceOr PolicyCommand.worded "command" p.command (by simp)
      .policyCommand .all
    simp only [Finds, List.forall_mem_cons] at hfinds
    simp only [Policy.ofJson, Decode.fields, Decode.field, Decode.required, Decode.fieldOr, hfinds,
      hcommand, bind, Except.bind, Except.map]
    rfl
  encode_normal p := by
    simp only [Policy.toJson, Policy.normal, Field.normal, Json.normal_object_fields, Json.normalFields,
      Json.normal_normal]

theorem TableKind.worded : Worded TableKind.all TableKind.text := by
  rintro ⟨⟩ <;> rfl

theorem Table.faithful : Faithful Table.toJson Table.ofJson Table.normal where
  decode_encode t := decode_object (by simp) fun sorted hfinds => by
    have hcolumns := hfinds.listOf Column.faithful "columns" t.columns (by simp)
    have hconstraints := hfinds.entriesOf Constraint.faithful "constraints" t.constraints (by simp)
    have hindexes := hfinds.entriesOf Index.faithful "indexes" t.indexes (by simp)
    have htriggers := hfinds.entriesOf Trigger.faithful "triggers" t.triggers (by simp)
    have hpolicies := hfinds.entriesOf Policy.faithful "policies" t.policies (by simp)
    have hkind := hfinds.choiceOr TableKind.worded "type" t.kind (by simp) .tableKind .base
    simp only [Finds, List.forall_mem_cons] at hfinds
    simp only [Table.ofJson, Decode.mapping, Decode.field, Decode.required, Decode.fieldOr, hfinds,
      hcolumns, hconstraints, hindexes, htriggers, hpolicies, hkind, bind, Except.bind, Except.map]
    rfl
  encode_normal t := by
    simp only [Table.toJson, Table.normal, Field.normal, Json.normal_object_fields, Json.normalFields,
      Json.normal_normal, Column.faithful.list_normal, Entries.normal_toJson_normal Constraint.faithful,
      Entries.normal_toJson_normal Index.faithful, Entries.normal_toJson_normal Trigger.faithful,
      Entries.normal_toJson_normal Policy.faithful]

/-! ## Other objects -/

theorem View.faithful : Faithful View.toJson View.ofJson View.normal where
  decode_encode v := decode_object (by simp) fun sorted hfinds => by
    simp only [Finds, List.forall_mem_cons] at hfinds
    simp only [View.ofJson, Decode.fields, Decode.field, Decode.required, Decode.fieldOr, hfinds, bind,
      Except.bind, Except.map]
    rfl
  encode_normal v := by
    simp only [View.toJson, View.normal, Field.normal, Json.normal_object_fields, Json.normalFields,
      Json.normal_normal]

theorem Sequence.faithful : Faithful Sequence.toJson Sequence.ofJson Sequence.normal where
  decode_encode s := decode_object (by simp) fun sorted hfinds => by
    simp only [Finds, List.forall_mem_cons] at hfinds
    simp only [Sequence.ofJson, Decode.fields, Decode.field, Decode.required, Decode.fieldOr,
      hfinds, bind, Except.bind, Except.map]
    rfl
  encode_normal s := by
    simp only [Sequence.toJson, Sequence.normal, Field.normal, Json.normal_object_fields,
      Json.normalFields, Json.normal_normal]

theorem Member.faithful : Faithful Member.toJson Member.ofJson Member.normal where
  decode_encode m := decode_object (by simp) fun sorted hfinds => by
    simp only [Finds, List.forall_mem_cons] at hfinds
    simp only [Member.ofJson, Decode.fields, Decode.field, Decode.required, Decode.fieldOr, hfinds,
      bind, Except.bind, Except.map]
    rfl
  encode_normal m := by
    simp only [Member.toJson, Member.normal, Field.normal, Json.normal_object_fields, Json.normalFields,
      Json.normal_normal]

theorem DomainConstraint.faithful :
    Faithful DomainConstraint.toJson DomainConstraint.ofJson DomainConstraint.normal where
  decode_encode c := decode_object (by simp) fun sorted hfinds => by
    simp only [Finds, List.forall_mem_cons] at hfinds
    simp only [DomainConstraint.ofJson, Decode.fields, Decode.field, Decode.required,
      Decode.fieldOr, hfinds, bind, Except.bind, Except.map]
    rfl
  encode_normal c := by
    simp only [DomainConstraint.toJson, DomainConstraint.normal, Field.normal,
      Json.normal_object_fields, Json.normalFields, Json.normal_normal]

theorem TypeKind.worded : Worded TypeKind.all TypeKind.text := by
  rintro ⟨⟩ <;> rfl

theorem UserType.faithful : Faithful UserType.toJson UserType.ofJson UserType.normal where
  decode_encode t := decode_object (by simp) fun sorted hfinds => by
    have hmembers := hfinds.listOf Member.faithful "columns" t.members (by simp)
    have hconstraints := hfinds.listOf DomainConstraint.faithful "constraints" t.constraints (by simp)
    have hkind := hfinds.choiceOr TypeKind.worded "kind" t.kind (by simp) .typeKind .enum
    simp only [Finds, List.forall_mem_cons] at hfinds
    simp only [UserType.ofJson, Decode.mapping, Decode.field, Decode.required, Decode.fieldOr, hfinds,
      hmembers, hconstraints, hkind, bind, Except.bind, Except.map]
    rfl
  encode_normal t := by
    simp only [UserType.toJson, UserType.normal, Field.normal, Json.normal_object_fields,
      Json.normalFields, Json.normal_normal, Member.faithful.list_normal, DomainConstraint.faithful.list_normal]

theorem Extension.faithful : Faithful Extension.toJson Extension.ofJson Extension.normal where
  decode_encode e := decode_object (by simp) fun sorted hfinds => by
    simp only [Finds, List.forall_mem_cons] at hfinds
    simp only [Extension.ofJson, Decode.fields, Decode.field, Decode.required, Decode.fieldOr,
      hfinds, bind, Except.bind, Except.map]
    rfl
  encode_normal e := by
    simp only [Extension.toJson, Extension.normal, Field.normal, Json.normal_object_fields,
      Json.normalFields, Json.normal_normal]

theorem Metadata.faithful : Faithful Metadata.toJson Metadata.ofJson Metadata.normal where
  decode_encode m := decode_object (by simp) fun sorted hfinds => by
    simp only [Finds, List.forall_mem_cons] at hfinds
    simp only [Metadata.ofJson, Decode.fields, Decode.fieldOr, hfinds, bind, Except.bind]
    rfl
  encode_normal m := by
    simp only [Metadata.toJson, Metadata.normal, Field.normal, Json.normal_object_fields,
      Json.normalFields, Json.normal_normal]

/-! ## Routines -/

theorem Parameter.faithful : Faithful Parameter.toJson Parameter.ofJson Parameter.normal where
  decode_encode p := decode_object (by simp) fun sorted hfinds => by
    simp only [Finds, List.forall_mem_cons] at hfinds
    simp only [Parameter.ofJson, Decode.fields, Decode.field, Decode.required, Decode.fieldOr,
      hfinds, bind, Except.bind, Except.map]
    rfl
  encode_normal p := by
    simp only [Parameter.toJson, Parameter.normal, Field.normal, Json.normal_object_fields,
      Json.normalFields, Json.normal_normal]

theorem StoredFunction.faithful :
    Faithful StoredFunction.toJson StoredFunction.ofJson StoredFunction.normal where
  decode_encode f := decode_object (by simp) fun sorted hfinds => by
    have hparameters := hfinds.listOf Parameter.faithful "parameters" f.parameters (by simp)
    simp only [Finds, List.forall_mem_cons] at hfinds
    simp only [StoredFunction.ofJson, Decode.mapping, Decode.field, Decode.required,
      Decode.fieldOr, hfinds, hparameters, bind, Except.bind, Except.map]
    rfl
  encode_normal f := by
    simp only [StoredFunction.toJson, StoredFunction.normal, Field.normal, Json.normal_object_fields,
      Json.normalFields, Json.normal_normal, Parameter.faithful.list_normal]

theorem Procedure.faithful : Faithful Procedure.toJson Procedure.ofJson Procedure.normal where
  decode_encode p := decode_object (by simp) fun sorted hfinds => by
    simp only [Finds, List.forall_mem_cons] at hfinds
    simp only [Procedure.ofJson, Decode.fields, Decode.field, Decode.required, Decode.fieldOr,
      hfinds, bind, Except.bind, Except.map]
    rfl
  encode_normal p := by
    simp only [Procedure.toJson, Procedure.normal, Field.normal, Json.normal_object_fields,
      Json.normalFields, Json.normal_normal]

theorem Aggregate.faithful : Faithful Aggregate.toJson Aggregate.ofJson Aggregate.normal where
  decode_encode a := decode_object (by simp) fun sorted hfinds => by
    simp only [Finds, List.forall_mem_cons] at hfinds
    simp only [Aggregate.ofJson, Decode.fields, Decode.field, Decode.required, Decode.fieldOr,
      hfinds, bind, Except.bind, Except.map]
    rfl
  encode_normal a := by
    simp only [Aggregate.toJson, Aggregate.normal, Field.normal, Json.normal_object_fields,
      Json.normalFields, Json.normal_normal]

/-! ## Catalogs -/

theorem PartitionAttachment.faithful :
    Faithful PartitionAttachment.toJson PartitionAttachment.ofJson PartitionAttachment.normal where
  decode_encode a := decode_object (by simp) fun sorted hfinds => by
    simp only [Finds, List.forall_mem_cons] at hfinds
    simp only [PartitionAttachment.ofJson, Decode.fields, Decode.field, Decode.required,
      Decode.fieldOr, hfinds, bind, Except.bind, Except.map]
    rfl
  encode_normal a := by
    simp only [PartitionAttachment.toJson, PartitionAttachment.normal, Field.normal,
      Json.normal_object_fields, Json.normalFields, Json.normal_normal]

theorem IndexAttachment.faithful :
    Faithful IndexAttachment.toJson IndexAttachment.ofJson IndexAttachment.normal where
  decode_encode a := decode_object (by simp) fun sorted hfinds => by
    simp only [Finds, List.forall_mem_cons] at hfinds
    simp only [IndexAttachment.ofJson, Decode.fields, Decode.field, Decode.required, hfinds, bind,
      Except.bind, Except.map]
    rfl
  encode_normal a := by
    simp only [IndexAttachment.toJson, IndexAttachment.normal, Field.normal,
      Json.normal_object_fields, Json.normalFields, Json.normal_normal]

theorem Schema.faithful : Faithful Schema.toJson Schema.ofJson Schema.normal where
  decode_encode s := decode_object (by simp) fun sorted hfinds => by
    have htables := hfinds.entriesOf Table.faithful "tables" s.tables (by simp)
    have hviews := hfinds.entriesOf View.faithful "views" s.views (by simp)
    have hfunctions := hfinds.entriesOf StoredFunction.faithful "functions" s.functions (by simp)
    have hprocedures := hfinds.entriesOf Procedure.faithful "procedures" s.procedures (by simp)
    have haggregates := hfinds.entriesOf Aggregate.faithful "aggregates" s.aggregates (by simp)
    have hsequences := hfinds.entriesOf Sequence.faithful "sequences" s.sequences (by simp)
    have hpolicies := hfinds.entriesOf Policy.faithful "policies" s.policies (by simp)
    have htypes := hfinds.entriesOf UserType.faithful "types" s.types (by simp)
    simp only [Finds, List.forall_mem_cons] at hfinds
    simp only [Schema.ofJson, Decode.fieldOr, hfinds, htables, hviews, hfunctions, hprocedures,
      haggregates, hsequences, hpolicies, htypes, bind, Except.bind]
    rfl
  encode_normal s := by
    simp only [Schema.toJson, Schema.normal, Field.normal, Json.normal_object_fields, Json.normalFields,
      Json.normal_normal, Entries.normal_toJson_normal Table.faithful,
      Entries.normal_toJson_normal View.faithful, Entries.normal_toJson_normal StoredFunction.faithful,
      Entries.normal_toJson_normal Procedure.faithful, Entries.normal_toJson_normal Aggregate.faithful,
      Entries.normal_toJson_normal Sequence.faithful, Entries.normal_toJson_normal Policy.faithful,
      Entries.normal_toJson_normal UserType.faithful]

/-- Metadata has fields, so its value does not count as nothing. -/
theorem Metadata.isNothing_normal (m : Metadata) : m.toJson.normal.isNothing = false := by
  rw [toJson, Json.normal_object, Json.isNothing, List.isEmpty_eq_false_iff, ← List.length_pos_iff,
    List.length_map, (Json.sortFields_perm _).length_eq]
  exact Nat.zero_lt_succ _

theorem Catalog.faithful : Faithful Catalog.toJson Catalog.ofJson Catalog.normal where
  decode_encode c := decode_object (by simp) fun sorted hfinds => by
    have hschemas := hfinds.entriesOf Schema.faithful "schemas" c.schemas (by simp)
    have hextensions := hfinds.entriesOf Extension.faithful "extensions" c.extensions (by simp)
    have hpartitions := hfinds.listOf PartitionAttachment.faithful "partition_attachments" c.partitions
      (by simp)
    have hindexes := hfinds.listOf IndexAttachment.faithful "index_attachments" c.indexPartitions
      (by simp)
    simp only [Finds, List.forall_mem_cons] at hfinds
    simp only [Catalog.ofJson, Decode.fields, hfinds, hschemas, hextensions, hpartitions, hindexes,
      Option.getD_some, Metadata.isNothing_normal, Bool.false_eq_true, if_false,
      Metadata.faithful.decode_encode, bind, Except.bind]
    rfl
  encode_normal c := by
    simp only [Catalog.toJson, Catalog.normal, Json.normal_object_fields, Json.normalFields,
      Metadata.faithful.encode_normal, Entries.normal_toJson_normal Schema.faithful,
      Entries.normal_toJson_normal Extension.faithful, PartitionAttachment.faithful.list_normal,
      IndexAttachment.faithful.list_normal]

end SchemaScript
