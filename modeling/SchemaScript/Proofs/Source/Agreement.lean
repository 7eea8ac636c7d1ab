import SchemaScript.Proofs.Source.ReportedColumn
import SchemaScript.Proofs.Source.ScriptColumn

/-!
# One type from two sources

A script and the database that it makes are meant to give the same text for the type of a column. They do for the
types of `ColumnType.RendersAlike` and for no others (`ColumnType.texts_eq_iff`), and the columns that both sources
leave in a catalog show nothing else (`ColumnType.renders_alike_iff`).
-/

namespace SchemaScript

open Sql

namespace ColumnType

variable {t : SystemType} {modifiers : List Int} {holder own schema : String} {target : Option String}

/-- The types of which a report loses nothing that a script keeps, in a table of the schema. -/
def RendersAlike (type : ColumnType) (schema : String) (target : Option String) : Prop :=
  match type.element, type.array with
  | .system t modifiers, none =>
    t.internal ≠ "char" ∧ t.internal ≠ "varbit" ∧
      (modifiers = [] ∨ t.internal = "varchar" ∨ t.internal = "bpchar" ∨ t.internal = "interval" ∨
        t.internal = "numeric" ∧ modifiers.length ≠ 1)
  | .system t modifiers, some _ => isSystemName t.internal ∧ (modifiers = [] ∨ t.internal = "interval")
  | .user holder _, none => type.isQualified ∨ holder = schema ∨ target = some holder
  | .user _ _, some _ => False

/-! ## Types of the system -/

theorem shown_nil (spelling : String) : shown spelling [] = spelling := rfl

/-- Modifiers stand between parentheses. -/
theorem mem_shown {spelling : String} (hspelling : '(' ∉ spelling.toList) :
    '(' ∈ (shown spelling modifiers).toList ↔ modifiers ≠ [] := by
  cases modifiers with
  | nil => simpa [shown] using hspelling
  | cons n rest => simp [shown, modifiersText, enclosed]

/-- A precision alone is told apart from one with a scale. -/
theorem shown_precision_ne (p : Int) : shown "numeric" [p] ≠ shown "numeric" [p, 0] := by
  intro heq
  have hcomma : ',' ∈ (shown "numeric" [p, 0]).toList := by simp [shown, modifiersText, enclosed]
  rw [← heq] at hcomma
  have hnone : ',' ∉ (Text.writeInteger p).toList := not_mem_writeInteger (by decide) (by decide) p
  simp [shown, modifiersText, enclosed, hnone] at hcomma

/-- Of a number with one modifier a report shows two. -/
theorem shown_number_iff (hcount : modifiers.length ≤ 2) (hnumeric : t.internal = "numeric") :
    shown "numeric" modifiers = shown "numeric" (reportModifiers t modifiers) ↔ modifiers.length ≠ 1 := by
  rcases modifiers_cases hcount with rfl | ⟨p, rfl⟩ | ⟨p, s, rfl⟩
  · rw [show reportModifiers t [] = [] by simp [reportModifiers, hnumeric]]
    exact iff_of_true rfl (by simp)
  · rw [show reportModifiers t [p] = [p, 0] by simp [reportModifiers, hnumeric]]
    exact iff_of_false (shown_precision_ne p) (by simp)
  · rw [show reportModifiers t [p, s] = [p, s] by simp [reportModifiers, hnumeric]]
    exact iff_of_true rfl (by simp)

/-- Where a report has none of the modifiers, there may be none. -/
theorem shown_bare_iff (ht : t.Spelt) : shown t.spelling modifiers = canonicalType t.reported ↔
    t.internal ≠ "char" ∧ t.internal ≠ "varbit" ∧ modifiers = [] := by
  constructor
  · intro heq
    have hnone : modifiers = [] := by
      by_contra hsome
      have hmem := (mem_shown ht.noParenthesis.1).mpr hsome
      rw [heq] at hmem
      exact ht.noParenthesis.2 hmem
    rw [hnone, shown_nil] at heq
    obtain ⟨hchar, hvarbit⟩ := ht.agrees.mp heq.symm
    exact ⟨hchar, hvarbit, hnone⟩
  · rintro ⟨hchar, hvarbit, rfl⟩
    exact (ht.agrees.mpr ⟨hchar, hvarbit⟩).symm

theorem shown_eq_iff (ht : t.Spelt) (hcount : modifiers.length ≤ t.arity) :
    shown t.spelling (scriptModifiers t modifiers) =
        shown (canonicalType t.reported) (reportModifiers t modifiers) ↔
      t.internal ≠ "char" ∧ t.internal ≠ "varbit" ∧
        (modifiers = [] ∨ t.internal = "varchar" ∨ t.internal = "bpchar" ∨ t.internal = "interval" ∨
          t.internal = "numeric" ∧ modifiers.length ≠ 1) := by
  by_cases htext : t.internal = "varchar" ∨ t.internal = "bpchar"
  · -- the length is kept by both
    have hother : t.internal ≠ "char" ∧ t.internal ≠ "varbit" ∧ t.internal ≠ "interval" := by
      rcases htext with h | h <;> rw [h] <;> decide
    have hscript : scriptModifiers t modifiers = modifiers := if_neg hother.2.2
    have hreport : reportModifiers t modifiers = modifiers := if_pos htext
    rw [hscript, hreport, ht.agrees.mpr ⟨hother.1, hother.2.1⟩]
    exact iff_of_true rfl ⟨hother.1, hother.2.1, .inr (htext.imp id .inl)⟩
  by_cases hinterval : t.internal = "interval"
  · -- the digits are kept by neither
    have hscript : scriptModifiers t modifiers = [] := if_pos hinterval
    have hreport : reportModifiers t modifiers = [] := by simp [reportModifiers, hinterval]
    have hother : t.internal ≠ "char" ∧ t.internal ≠ "varbit" := by rw [hinterval]; decide
    rw [hscript, hreport, ht.agrees.mpr hother]
    exact iff_of_true rfl ⟨hother.1, hother.2, .inr (.inr (.inr (.inl hinterval)))⟩
  have hscript : scriptModifiers t modifiers = modifiers := if_neg hinterval
  by_cases hnumeric : t.internal = "numeric"
  · have hother : t.internal ≠ "char" ∧ t.internal ≠ "varbit" := by rw [hnumeric]; decide
    have hspelling := ht.agrees.mpr hother
    rw [hscript, ← hspelling, ht.numbers.2.mpr hnumeric,
      shown_number_iff (Nat.le_trans hcount ht.arity.1) hnumeric]
    refine ⟨fun hlength => ⟨hother.1, hother.2, .inr (.inr (.inr (.inr ⟨hnumeric, hlength⟩)))⟩, ?_⟩
    rintro ⟨-, -, rfl | h | h | h | ⟨-, hlength⟩⟩
    · simp
    · exact absurd (.inl h) htext
    · exact absurd (.inr h) htext
    · exact absurd h hinterval
    · exact hlength
  · -- a report has none of the modifiers
    have hreport : reportModifiers t modifiers = [] := by simp [reportModifiers, htext, hnumeric]
    obtain ⟨hvarchar, hfixed⟩ := not_or.mp htext
    rw [hscript, hreport, shown_nil, shown_bare_iff ht]
    simp [hvarchar, hfixed, hinterval, hnumeric]

theorem scriptModifiers_eq_nil_iff :
    scriptModifiers t modifiers = [] ↔ modifiers = [] ∨ t.internal = "interval" := by
  unfold scriptModifiers
  by_cases hinterval : t.internal = "interval" <;> simp [hinterval]

/-- Of an array a report has the internal name, which is taken apart for known elements only. -/
theorem array_eq_iff (ht : t.Spelt) :
    t.spelling ++ modifiersText (scriptModifiers t modifiers) ++ "[]" = canonicalType ("_" ++ t.internal) ↔
      isSystemName t.internal ∧ (modifiers = [] ∨ t.internal = "interval") := by
  rw [canonicalType_underscore ht, ← scriptModifiers_eq_nil_iff]
  by_cases hknown : isSystemName t.internal
  · rw [if_pos hknown]
    simp only [hknown, true_and]
    constructor
    · intro heq
      have hletters := congrArg String.toList heq
      simp only [String.toList_append, List.append_assoc, List.append_cancel_left_eq] at hletters
      have hempty := List.append_left_eq_self.mp hletters
      cases hkept : scriptModifiers t modifiers with
      | nil => rfl
      | cons n rest => simp [hkept, modifiersText, enclosed] at hempty
    · intro hnone
      rw [hnone]
      simp [modifiersText]
  · rw [if_neg hknown]
    refine iff_of_false (fun heq => ?_) fun h => hknown h.1
    have hbracket : ']' ∈ ("_" ++ t.internal).toList := by
      rw [← heq]
      simp
    exact ht.plain.not_mem (c := ']') rfl (by simpa using hbracket)

/-! ## All types -/

/-- Both sources give one text for the type exactly if it renders alike. -/
theorem texts_eq_iff {type : ColumnType} (h : type.IsDeclared) :
    type.scriptText schema target = type.reportText schema target ↔ type.RendersAlike schema target := by
  obtain ⟨element, isQualified, array, fields⟩ := type
  cases element with
  | system t modifiers =>
    have ht := spelt_of_mem h.1
    cases array with
    | none => exact shown_eq_iff ht h.2
    | some bound => exact array_eq_iff ht
  | user holder own =>
    obtain ⟨hholder, hown⟩ := h
    cases array with
    | none =>
      unfold scriptText reportText RendersAlike
      dsimp only
      by_cases hsame : holder = schema
      · simp [hsame]
      cases isQualified with
      | true => simp [hsame]
      | false =>
        rw [if_neg (by simp), if_pos hsame]
        unfold nameFor
        by_cases htarget : target = some holder
        · simp [htarget]
        · rw [if_neg htarget]
          refine iff_of_false (fun heq => ?_) (by simp [hsame, htarget])
          have hpoint : '.' ∈ own.toList := by
            rw [heq]
            simp
          exact hown.not_mem rfl hpoint
    | some bound =>
      refine iff_of_false (fun heq => ?_) id
      have hbracket : ']' ∈ ("_" ++ own).toList := by
        have htext : reportText ⟨.user holder own, isQualified, some bound, fields⟩ schema target = "_" ++ own := rfl
        rw [← htext, ← heq]
        unfold scriptText
        simp
      exact hown.not_mem (c := ']') rfl (by simpa using hbracket)

/-! ## Columns -/

/-- No type that a column is declared with asks for a sequence. -/
theorem serialBase?_written {type : ColumnType} (h : type.IsDeclared) :
    (if type.written.isArray then none else serialBase? type.written.base) = none := by
  obtain ⟨element, isQualified, array, fields⟩ := type
  cases array with
  | some bound => rfl
  | none =>
    cases element with
    | system t modifiers =>
      have ht := spelt_of_mem h.1
      rw [if_neg (by simp [written, WrittenType.isArray]), base_system ht, ht.noSerial]
    | user holder own =>
      obtain ⟨hholder, hown⟩ := h
      rw [if_neg (by simp [written, WrittenType.isArray]), base_user hholder hown]
      split
      · exact OwnName.serialBase?_qualified holder own
      · exact hown.noSerial

/-- A column of any type is taken over from a statement and from a database, in a table of the schema; the types
that both columns show are the same, for a script of any target, exactly if the type renders alike. -/
theorem renders_alike_iff {type : ColumnType} (h : type.IsDeclared) {draft : Effect.Draft} {c : Catalog}
    {t : Table} {schema table : String} (hschema : draft.table.schema = (schema : Field String))
    (ht : c.findTable? schema table = some t) (default name : String) (position : Int) :
    ∃ declared reported : Column,
      Effect.addColumn default draft { name, type := type.written } =
        .ok { draft with table := { draft.table with columns := draft.table.columns ++ [declared] } } ∧
      (Inspect.columnRow c (type.row schema table name position)).result =
        .ok (c.modifyTable schema table fun _ => { t with columns := t.columns ++ [reported] }) ∧
      ∀ target, ∃ text text', declared.typeText? target = some text ∧ reported.typeText? target = some text' ∧
        (text = text' ↔ type.RendersAlike schema target) := by
  obtain ⟨declared, hdeclared, htext⟩ :=
    exists_typedColumn draft.table name (Int.ofNat draft.table.columns.length + 1) h hschema
  obtain ⟨reported, hreported, htext'⟩ := exists_columnRow_text name position h ht
  refine ⟨declared, reported, ?_, hreported, fun target =>
    ⟨_, _, htext target, htext' target, texts_eq_iff h⟩⟩
  unfold Effect.addColumn
  dsimp only
  rw [serialBase?_written h]
  dsimp only
  rw [hdeclared]
  rfl

/-- Three bits. -/
def switches : ColumnType where
  element := .system ⟨"bit", "bit", 1⟩ [3]

def panels : Table where
  schema := "public"
  name := "panels"
  kind := .base

def panelled : Catalog :=
  Catalog.updateSchema {} "public" fun s => { s with tables := s.tables.put "panels" panels }

/-- A report leaves one bit of them. -/
theorem switches_differ : ∃ (declared reported : Column) (text text' : String),
    Effect.addColumn "public" { table := panels } { name := "switches", type := switches.written } =
      .ok { table := { panels with columns := [declared] } } ∧
    (Inspect.columnRow panelled (switches.row "public" "panels" "switches" 1)).result =
      .ok (panelled.modifyTable "public" "panels" fun _ => { panels with columns := [reported] }) ∧
    declared.typeText? none = some text ∧ reported.typeText? none = some text' ∧ text ≠ text' := by
  obtain ⟨declared, reported, hdeclared, hreported, hboth⟩ := @renders_alike_iff switches
    ⟨by decide +kernel, by decide⟩ { table := panels } panelled panels "public" "panels" rfl rfl "public" "switches" 1
  obtain ⟨text, text', htext, htext', hsame⟩ := hboth none
  have hlost : ¬ switches.RendersAlike "public" none := by
    rintro ⟨-, -, hkept⟩
    revert hkept
    decide
  exact ⟨declared, reported, text, text', hdeclared, hreported, htext, htext', mt hsame.mp hlost⟩

end ColumnType
end SchemaScript
