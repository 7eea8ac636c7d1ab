import SchemaScript.Proofs.Ddl.Needs
import SchemaScript.Proofs.Script.Coverage
import SchemaScript.Proofs.Script.KeyPlacement

/-!
# The order of types

Types are written in the order of their names, domains after all others. What a type is built on plays no part in
that, so a type comes after the types that it is built on exactly if names and kinds happen to put it there
(`parts_first_iff`).
-/

namespace SchemaScript

/-- The second type is that of a member of the first one or its base, or an array of it is. -/
def UserType.IsBuiltOn (whole part : UserType) : Prop :=
  ∃ text ∈ whole.parts, Sql.NamesType part.schema.spelled part.name.spelled text

namespace Diff

variable {p : Pair} {old new : Catalog} {target : Option String} {a b : String × UserType}
  {x y : Piece} {own ps : List Piece}

/-! ## Names and kinds -/

/-- The first type is put before the second one: it is no domain and the second one is, or its name comes first;
between equal names decides what the types are kept under. -/
def TypeFirst (a b : String × UserType) : Prop :=
  if a.2.isDomain = b.2.isDomain then
    a.2.name.stored.precedes b.2.name.stored ∧ (b.2.name.stored.precedes a.2.name.stored → a.1 < b.1)
  else b.2.isDomain

instance (a b : String × UserType) : Decidable (TypeFirst a b) := by
  unfold TypeFirst
  infer_instance

theorem TypeFirst.asymm (h : TypeFirst a b) : ¬ TypeFirst b a := by
  intro hback
  unfold TypeFirst at h hback
  by_cases hkind : a.2.isDomain = b.2.isDomain
  · rw [if_pos hkind] at h
    rw [if_pos hkind.symm] at hback
    exact lt_asymm (h.2 hback.1) (hback.2 h.1)
  · rw [if_neg hkind] at h
    rw [if_neg (Ne.symm hkind)] at hback
    exact hkind (hback.trans h.symm)

theorem pairwise_sortTypes {types sorted : List (String × UserType)}
    (htypes : types.Pairwise fun a b => a.1 < b.1) (h : (sortTypes types).result = .ok sorted) :
    sorted.Pairwise TypeFirst := by
  have htrans := fun a b c : String × UserType =>
    Json.precedes_trans (a := a.2.name.stored) (b := b.2.name.stored) (c := c.2.name.stored)
  have htotal := fun a b : String × UserType => Json.precedes_total a.2.name.stored b.2.name.stored
  have hsort (domain : Bool) (part : List (String × UserType)) (hpart : part.Sublist types)
      (hkind : ∀ a ∈ part, a.2.isDomain = domain) :
      (Order.sort (fun a b => a.2.name.stored.precedes b.2.name.stored) part).Pairwise TypeFirst := by
    have hstable : (Order.sort (fun a b => a.2.name.stored.precedes b.2.name.stored) part).Pairwise
        fun a b => a.2.name.stored.precedes b.2.name.stored ∧
          (b.2.name.stored.precedes a.2.name.stored → a.1 < b.1) :=
      Order.pairwise_sort_stable htrans htotal (htypes.sublist hpart)
    refine hstable.imp_of_mem fun {a b} ha hb hab => ?_
    unfold TypeFirst
    rw [if_pos ((hkind a (Order.mem_sort.mp ha)).trans (hkind b (Order.mem_sort.mp hb)).symm)]
    exact hab
  unfold sortTypes at h
  dsimp only at h
  split at h
  · obtain rfl : _ = sorted := by simpa using h
    refine List.pairwise_append.mpr ⟨hsort false _ List.filter_sublist ?_, hsort true _ List.filter_sublist ?_, ?_⟩
    · intro a ha
      simpa using (List.mem_filter.mp ha).2
    · intro a ha
      simpa using (List.mem_filter.mp ha).2
    · intro a ha b hb
      have hplain : a.2.isDomain = false := by
        simpa using (List.mem_filter.mp (Order.mem_sort.mp ha)).2
      have hdomain : b.2.isDomain = true := by
        simpa using (List.mem_filter.mp (Order.mem_sort.mp hb)).2
      unfold TypeFirst
      rw [if_neg (by simp [hplain, hdomain])]
      exact hdomain
  · simp at h

/-! ## In a whole script -/

/-- The piece is there because of this type of the schema. -/
structure Pair.WritesType (p : Pair) (entry : String × UserType) (x : Piece) : Prop where
  kept : p.schema.types.get? entry.1 = some entry.2
  tagged : x.tag = p.tag .type entry.1

theorem Pair.WritesType.inj (h : p.WritesType a x) (h' : p.WritesType b x) : a = b := by
  have hkey : a.1 = b.1 := (Tag.object.inj (h.tagged.symm.trans h'.tagged)).2.2
  have hvalue : some a.2 = some b.2 := by rw [← h.kept, hkey, h'.kept]
  exact Prod.ext hkey (Option.some.inj hvalue)

/-- The types because of which the pieces are there stand in order. -/
def InTypeOrder (p : Pair) (x y : Piece) : Prop :=
  ∀ a b, p.WritesType a x → p.WritesType b y → TypeFirst a b

theorem pairwise_types (h : (types p).result = .ok own) : own.Pairwise (InTypeOrder p) := by
  obtain ⟨sorted, hsorted, h⟩ := Logged.result_bind_eq_ok.mp h
  obtain ⟨-, rfl⟩ := (collect_emit_eq_ok (fun entry : String × UserType => p.piece (p.tag .type entry.1)
    (if entry.2.isDomain then .domain else .type) entry.2.name.spelled (.type entry.2))
    (fun entry => entry.2.check)).mp h
  have hadded : (p.added (·.types)).Pairwise fun a b => a.1 < b.1 :=
    p.schema.types.pairwise_lt_sorted.sublist List.filter_sublist
  refine List.Pairwise.filter _ (List.pairwise_map.mpr ?_)
  refine (pairwise_sortTypes hadded hsorted).imp_of_mem ?_
  intro a b ha hb hab a' b' ha' hb'
  have hwrites {entry : String × UserType} (hentry : entry ∈ sorted) :
      p.WritesType entry (p.piece (p.tag .type entry.1) (if entry.2.isDomain then .domain else .type)
        entry.2.name.spelled (.type entry.2)) :=
    ⟨((Pair.mem_added .type fun _ _ => rfl).mp (mem_of_sortTypes hsorted hentry)).1, rfl⟩
  rw [ha'.inj (hwrites ha), hb'.inj (hwrites hb)]
  exact hab

theorem pieces_inTypeOrder (hp : p ∈ pairs old new (Text.given target))
    (h : (pieces old new target).result = .ok ps) : ps.Pairwise (InTypeOrder p) := by
  obtain ⟨own, before, after, hown, rfl, hothers⟩ := exists_passScript .type hp h
  refine pairwise_between (pairwise_types hown) hothers ?_
  intro x y hxy a b ha hb
  rcases hxy with hx | hy
  · exact absurd ha.tagged (hx a.1)
  · exact absurd hb.tagged (hy b.1)

/-- Of two types the script writes that one first which is put first. -/
theorem type_lt_iff (hp : p ∈ pairs old new (Text.given target))
    (h : (pieces old new target).result = .ok ps) {i j : Nat} (hi : ps[i]? = some x)
    (hj : ps[j]? = some y) (hx : p.WritesType a x) (hy : p.WritesType b y) : i < j ↔ TypeFirst a b := by
  have horder := pieces_inTypeOrder hp h
  constructor
  · exact fun hlt => rel_of_lt horder hi hj hlt a b hx hy
  · intro hfirst
    refine lt_of_pairwise horder hi hj ?_ fun hback => ?_
    · rintro rfl
      obtain rfl := hx.inj hy
      exact hfirst.asymm hfirst
    · exact hfirst.asymm (hback b a hy hx)

/-! ## Types and their parts -/

/-- The type is to be created, and its statement is not empty. -/
structure Pair.CreatesType (p : Pair) (entry : String × UserType) : Prop where
  kept : p.schema.types.get? entry.1 = some entry.2
  added : p.isNew .type entry.1
  written : entry.2.ddl p.target ≠ ""

theorem createsType_iff (hp : p ∈ pairs old new (Text.given target))
    (h : (pieces old new target).result = .ok ps) :
    p.CreatesType a ↔ ∃ (i : Nat) (x : Piece), ps[i]? = some x ∧ p.WritesType a x := by
  constructor
  · rintro ⟨kept, added, written⟩
    have hcovers := Covers.inSchema hp (.type kept added)
    have hmem := (mem_pieces_iff h hcovers.text_eq.2).mpr ⟨written, _, hcovers⟩
    obtain ⟨i, hi⟩ := List.mem_iff_getElem?.mp hmem
    exact ⟨i, _, hi, kept, rfl⟩
  · rintro ⟨i, x, hi, kept, htag⟩
    have hmem := List.mem_of_getElem? hi
    have hkind := (yields_pieces old new target ps h x hmem).wellFormed.kind
    have hattachment : x.isAttachment = false := by
      rw [htag, Pair.pieceKinds_tag] at hkind
      unfold Piece.isAttachment
      revert hkind
      cases x.kind <;> decide
    obtain ⟨htext, s, hcovers⟩ := (mem_pieces_iff h hattachment).mp hmem
    cases hcovers with
    | extension | schema => nomatch htag
    | @inSchema q kind _ _ walked held =>
      obtain ⟨key, hkey⟩ := held.exists_tag
      obtain ⟨hpair, rfl, rfl⟩ := Tag.object.inj (hkey.symm.trans htag)
      obtain rfl := Pair.eq_of_key hp walked hpair
      cases held with
      | @type key t found added =>
        obtain rfl : key = a.1 := (Tag.object.inj htag).2.2
        obtain rfl := Option.some.inj (found.symm.trans kept)
        exact ⟨kept, added, htext⟩

/-- Every type comes after the types of the schema that it is built on and that the script creates. -/
def PartsFirst (p : Pair) (ps : List Piece) : Prop :=
  ∀ (i j : Nat) (x y : Piece) (part whole : String × UserType), ps[i]? = some x → ps[j]? = some y →
    p.WritesType part x → p.WritesType whole y → whole.2.IsBuiltOn part.2 → i < j

/-- Types come after the types that they are built on exactly if each part is put before its whole. -/
theorem parts_first_iff (hp : p ∈ pairs old new (Text.given target))
    (h : (pieces old new target).result = .ok ps) :
    PartsFirst p ps ↔ ∀ part whole, p.CreatesType part → p.CreatesType whole →
      whole.2.IsBuiltOn part.2 → TypeFirst part whole := by
  constructor
  · intro hfirst part whole hpart hwhole hbuilt
    obtain ⟨i, x, hi, hx⟩ := (createsType_iff hp h).mp hpart
    obtain ⟨j, y, hj, hy⟩ := (createsType_iff hp h).mp hwhole
    exact (type_lt_iff hp h hi hj hx hy).mp (hfirst i j x y part whole hi hj hx hy hbuilt)
  · intro hfirst i j x y part whole hi hj hx hy hbuilt
    have hpart := (createsType_iff hp h).mpr ⟨i, x, hi, hx⟩
    have hwhole := (createsType_iff hp h).mpr ⟨j, y, hj, hy⟩
    exact (type_lt_iff hp h hi hj hx hy).mpr (hfirst part whole hpart hwhole hbuilt)

/-- The script creates both types, the second one built on the first. -/
def Pair.Builds (p : Pair) (part whole : String) : Prop :=
  ∃ t u, p.CreatesType (part, t) ∧ p.CreatesType (whole, u) ∧ u.IsBuiltOn t

def tone : UserType where
  schema := "belfry"
  name := "tone"
  labels := ["low", "high"]

def alarm : UserType where
  schema := "belfry"
  name := "alarm"
  kind := .composite
  members := [{ name := "sound", dataType := "tone", position := (1 : Int) }]

def belfry : Schema where
  name := "belfry"
  types := .ofPairs [("alarm", alarm), ("tone", tone)]

def belfryPair : Pair where
  key := "belfry"
  schema := belfry
  old := none
  target := some "belfry"

def belfryScript : List Piece :=
  [{ tag := belfryPair.tag .type "alarm", kind := .type, name := "alarm", schema := "-",
     text := "CREATE TYPE alarm AS (\n    sound tone\n);" },
   { tag := belfryPair.tag .type "tone", kind := .type, name := "tone", schema := "-",
     text := "CREATE TYPE tone AS ENUM (\n    'low',\n    'high'\n);" }]

theorem belfry_builds {part whole : String} (h : belfryPair.Builds part whole) :
    part = "tone" ∧ whole = "alarm" := by
  obtain ⟨t, u, ⟨hpart, -, -⟩, ⟨hwhole, -, -⟩, text, htext, hnamed⟩ := h
  have hcases {key : String} {t : UserType} (hkept : belfry.types.get? key = some t) :
      key = "alarm" ∧ t = alarm ∨ key = "tone" ∧ t = tone := by
    have hpairs : belfry.types.pairs = [("alarm", alarm), ("tone", tone)] := by decide +kernel
    have hmem := Entries.get?_eq_some_iff.mp hkept
    rw [hpairs] at hmem
    simpa using hmem
  rcases hcases hwhole with ⟨rfl, rfl⟩ | ⟨rfl, rfl⟩
  · obtain rfl : text = "tone" := by simpa [UserType.parts, alarm] using htext
    rcases hcases hpart with ⟨rfl, rfl⟩ | ⟨rfl, rfl⟩
    · exact absurd hnamed.length_le (by decide)
    · exact ⟨rfl, rfl⟩
  · simp [UserType.parts, tone] at htext

/-- The alarm has a tone and no type is built on itself, but the alarm is written first. -/
theorem belfry_part_late :
    (pieces {} { schemas := .ofPairs [("belfry", belfry)] } (some "belfry")).result = .ok belfryScript ∧
      (∀ a, ¬ Relation.TransGen belfryPair.Builds a a) ∧ belfryPair.Builds "tone" "alarm" ∧
      ¬ PartsFirst belfryPair belfryScript := by
  have hscript : (pieces {} { schemas := .ofPairs [("belfry", belfry)] } (some "belfry")).result =
      .ok belfryScript := by decide +kernel
  have hp : belfryPair ∈ pairs {} { schemas := .ofPairs [("belfry", belfry)] } (some "belfry") := by
    decide +kernel
  have htone : belfryPair.CreatesType ("tone", tone) :=
    ⟨by decide +kernel, by decide +kernel, by decide +kernel⟩
  have halarm : belfryPair.CreatesType ("alarm", alarm) :=
    ⟨by decide +kernel, by decide +kernel, by decide +kernel⟩
  have hbuilt : alarm.IsBuiltOn tone := ⟨"tone", by decide +kernel, .element (.bare (.inl rfl))⟩
  refine ⟨hscript, Order.acyclic_of_single (by decide) fun _ _ => belfry_builds,
    ⟨tone, alarm, htone, halarm, hbuilt⟩, fun hfirst => ?_⟩
  have hput := (parts_first_iff hp hscript).mp hfirst ("tone", tone) ("alarm", alarm) htone halarm hbuilt
  exact absurd hput (by decide +kernel)

end Diff
end SchemaScript
