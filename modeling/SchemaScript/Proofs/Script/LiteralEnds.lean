import SchemaScript.Effect.Attached
import SchemaScript.Proofs.Script.Commenting
import SchemaScript.Proofs.Sql.TypeName

/-!
# Literals that end where they were written to

Read from its opening quote on, a text literal gives back the text and leaves what stands behind it, and nothing else is
read so (`readLiteral_eq_some_iff`). In what is written, a mark that goes on with no literal stands behind each of them
(`HasLiteral`). So no comment, label, initial condition or argument of a trigger reaches over the end of its literal
(`texts_stand`).
-/

namespace SchemaScript

open Sql

namespace Sql

/-! ## Reading a literal -/

/-- Reads a literal from its opening quote on: its text, and what stands behind its closing quote. -/
def readLiteral : List Char → Option (List Char × List Char)
  | '\'' :: r => scanLiteral r
  | _ => none

variable {s t rest : List Char} {text : String}

theorem scanLiteral_eq_some_iff :
    scanLiteral s = some (t, rest) ↔ s = doubleApostrophes t ++ '\'' :: rest ∧ rest.head? ≠ some '\'' := by
  constructor
  · intro h
    fun_induction scanLiteral s generalizing t with
    | case1 => contradiction
    | case2 r ih =>
      obtain ⟨⟨t, rest⟩, hfound, heq⟩ := Option.map_eq_some_iff.mp h
      obtain ⟨rfl, rfl⟩ := Prod.mk.inj heq
      obtain ⟨rfl, hrest⟩ := ih hfound
      exact ⟨rfl, hrest⟩
    | case3 r hother =>
      obtain ⟨rfl, rfl⟩ := Prod.mk.inj (Option.some.inj h)
      refine ⟨rfl, fun hquote => ?_⟩
      obtain ⟨r', rfl⟩ := List.head?_eq_some_iff.mp hquote
      exact hother r' rfl
    | case4 c r _ hother ih =>
      obtain ⟨⟨t, rest⟩, hfound, heq⟩ := Option.map_eq_some_iff.mp h
      obtain ⟨rfl, rfl⟩ := Prod.mk.inj heq
      obtain ⟨rfl, hrest⟩ := ih hfound
      refine ⟨?_, hrest⟩
      rw [doubleApostrophes, if_neg hother]
      rfl
  · rintro ⟨rfl, hrest⟩
    exact scanLiteral_doubleApostrophes hrest t

/-- A literal is what is read as its text, in front of anything but another quote. -/
theorem readLiteral_eq_some_iff :
    readLiteral s = some (text.toList, rest) ↔ s = (literal text).toList ++ rest ∧ rest.head? ≠ some '\'' := by
  rw [toList_literal]
  cases s with
  | nil => simp [readLiteral]
  | cons c s =>
    by_cases hc : c = '\''
    · subst hc
      rw [readLiteral, scanLiteral_eq_some_iff]
      simp
    · simp [readLiteral, hc]

/-! ## What stands behind a literal -/

/-- A mark behind which no literal goes on, in the same line or in the next. -/
inductive EndsLiteral : List Char → Prop
  | mark {d : Char} {rest : List Char} (ends : d ∈ [';', ',', ')']) : EndsLiteral (d :: rest)
  | line (rest : List Char) : EndsLiteral ('\n' :: ')' :: rest)

theorem EndsLiteral.append (h : EndsLiteral s) (t : List Char) : EndsLiteral (s ++ t) := by
  cases h with
  | mark ends => exact .mark ends
  | line rest => exact .line (rest ++ t)

/-- The literal of the text is a part of the other text, in front of a mark that ends it. -/
def HasLiteral (text other : String) : Prop :=
  ∃ back : String, EndsLiteral back.toList ∧ Ddl.Shows (literal text ++ back) other

/-- The literal of the text is a part of the other text. Read from its opening quote on it gives back the text and
leaves what stands behind it; a script is read the same way. -/
def StandsIn (text other : String) : Prop :=
  ∃ before after, other.toList = before ++ ((literal text).toList ++ after) ∧
    readLiteral ((literal text).toList ++ after) = some (text.toList, after) ∧
    firstWord ((literal text).toList ++ after) = ((literal text).toList ++ after, some (.word (.text text) after))

variable {other front back gap : String} {items : List String}

theorem HasLiteral.standsIn (h : HasLiteral text other) : StandsIn text other := by
  obtain ⟨back, hback, before, rest, rfl⟩ := h
  have hends : EndsLiteral (back.toList ++ rest.toList) := hback.append _
  generalize hafter : back.toList ++ rest.toList = after at hends
  have hquote : after.head? ≠ some '\'' := by
    cases hends with
    | mark ends =>
      rintro ⟨⟩
      exact absurd ends (by decide)
    | line rest => exact nofun
  refine ⟨before.toList, after, by simp [← hafter], readLiteral_eq_some_iff.mpr ⟨rfl, hquote⟩, ?_⟩
  cases hends with
  | mark ends => exact firstWord_literal text ends _
  | line rest => exact firstWord_literal_of_ends text (by decide) rfl

namespace HasLiteral

theorem of_append (front text : String) (h : EndsLiteral back.toList) :
    HasLiteral text (front ++ literal text ++ back) :=
  ⟨back, h, front, "", by simp [String.append_assoc]⟩

theorem append (h : HasLiteral text other) (back : String) : HasLiteral text (other ++ back) :=
  h.imp fun _ => And.imp_right (·.append_right back)

theorem prepend (h : HasLiteral text other) (front : String) : HasLiteral text (front ++ other) :=
  h.imp fun _ => And.imp_right (·.append_left front)

theorem intercalate {item : String} (h : HasLiteral text item) (hmem : item ∈ items) (gap : String) :
    HasLiteral text (gap.intercalate items) :=
  h.imp fun _ => And.imp_right (·.intercalate hmem gap)

/-- An item that ends with a literal is followed by a gap or by what stands behind the list. -/
theorem of_mem_intercalate (h : front ++ literal text ∈ items) (hgap : EndsLiteral gap.toList)
    (hback : EndsLiteral back.toList) : HasLiteral text (gap.intercalate items ++ back) := by
  obtain ⟨before, after, heq, rfl | ⟨more, rfl⟩⟩ := exists_intercalate_split h gap
  · have hwhole : gap.intercalate items ++ back = before ++ front ++ literal text ++ back := by
      simp [heq, String.append_assoc]
    exact hwhole ▸ of_append _ text hback
  · have hwhole : gap.intercalate items ++ back = before ++ front ++ literal text ++ (gap ++ more ++ back) := by
      simp [heq, String.append_assoc]
    refine hwhole ▸ of_append _ text ?_
    rw [String.append_assoc, String.toList_append]
    exact hgap.append _

end HasLiteral

end Sql

/-! ## Comments, labels and initial conditions -/

theorem Remark.hasLiteral (r : Remark) : HasLiteral r.text r.sql := by
  rw [sql_eq]
  exact .of_append _ r.text (.mark (by decide))

variable {target : Option String}

theorem Subject.hasLiteral_ddl {s : Subject} {r : Remark} (h : s.ddl target ≠ "") (hr : r ∈ s.remarks target) :
    HasLiteral r.text (s.ddl target) := by
  rw [ddl_eq_remarks h]
  exact r.hasLiteral.intercalate (List.mem_cons_of_mem _ (List.mem_map_of_mem hr)) _

theorem UserType.hasLiteral_ddl {t : UserType} {label : String} (h : t.ddl target ≠ "") (hkind : t.kind = .enum)
    (hlabel : label ∈ t.labels.texts) : HasLiteral label (t.ddl target) := by
  have hcomplete : t.isComplete := by
    by_contra hmissing
    simp [ddl, hmissing] at h
  have hbody : HasLiteral label (enumBody t.labels.texts) := by
    have hmem : "    " ++ literal label ∈ t.labels.texts.map fun label => "    " ++ literal label :=
      List.mem_map_of_mem hlabel
    have hlabels : HasLiteral label
        (",\n".intercalate (t.labels.texts.map fun label => "    " ++ literal label) ++ "\n);") :=
      .of_mem_intercalate hmem (.mark (by decide)) (.line _)
    rw [enumBody, if_neg (by simpa using List.ne_nil_of_mem hlabel), String.append_assoc]
    exact hlabels.prepend _
  simp only [ddl, hcomplete, hkind]
  exact (hbody.prepend _).append _

theorem Aggregate.hasLiteral_ddl {a : Aggregate} {condition : String} (h : a.ddl target ≠ "")
    (hcondition : a.initialCondition.text? = some condition) : HasLiteral condition (a.ddl target) := by
  have hcomplete : a.isComplete := by
    by_contra hmissing
    simp [ddl, hmissing] at h
  have hoption (before after : List String) : HasLiteral condition
      (",\n".intercalate ((before ++ ["INITCOND = " ++ literal condition] ++ after).map ("    " ++ ·)) ++ "\n);") := by
    have hindented : "    INITCOND = " ++ literal condition = "    " ++ ("INITCOND = " ++ literal condition) := by
      rw [← String.append_assoc]
      rfl
    have hmem : "    INITCOND = " ++ literal condition ∈
        (before ++ ["INITCOND = " ++ literal condition] ++ after).map ("    " ++ ·) :=
      List.mem_map.mpr ⟨_, by simp, hindented.symm⟩
    exact .of_mem_intercalate hmem (.mark (by decide)) (.line _)
  simp only [ddl, hcomplete, hcondition]
  refine HasLiteral.append ?_ _
  rw [String.append_assoc]
  exact (hoption _ _).prepend _

/-! ## Arguments of triggers -/

/-- A part without a parenthesis that is cut off in front of a call ends in front of its arguments. -/
theorem exists_of_append_eq_call {w rest path arguments : List Char} (hopen : '(' ∉ w)
    (h : w ++ rest = path ++ '(' :: arguments) : ∃ front, rest = front ++ '(' :: arguments := by
  rcases List.append_eq_append_iff.mp h with ⟨front, -, hrest⟩ | ⟨more, rfl, hcall⟩
  · exact ⟨front, hrest⟩
  · rcases more with _ | ⟨c, more⟩
    · exact ⟨[], hcall.symm⟩
    · obtain ⟨rfl, -⟩ := List.cons.inj hcall
      exact absurd (List.mem_append_right path List.mem_cons_self) hopen

theorem hasLiteral_dropSchema {text path arguments : String} (hopen : '(' ∉ (Text.spelled target).toList)
    (h : HasLiteral text (enclosed arguments)) :
    HasLiteral text (Text.spelled (dropSchema (some (path ++ enclosed arguments)) target)) := by
  have hwhole : HasLiteral text (path ++ enclosed arguments) := h.prepend path
  have hcut {w rest : List Char} (hw : '(' ∉ w)
      (hrest : Text.after? w (path ++ enclosed arguments).toList = some rest) : HasLiteral text (String.ofList rest) := by
    have hcall : (path ++ enclosed arguments).toList = path.toList ++ '(' :: (arguments.toList ++ [')']) := by
      simp [enclosed]
    obtain ⟨front, hfront⟩ := exists_of_append_eq_call hw ((after?_eq_some_iff.mp hrest).symm.trans hcall)
    have hshown : String.ofList rest = String.ofList front ++ enclosed arguments := by
      refine String.toList_inj.mp ?_
      simp [hfront, enclosed]
    exact hshown ▸ h.prepend _
  unfold dropSchema
  cases hgiven : Text.given target with
  | none => exact hwhole
  | some schema =>
    obtain ⟨rfl, -⟩ := Text.given_eq_some_iff.mp hgiven
    rw [Text.spelled_some] at hopen
    dsimp only
    split
    · next rest hrest => exact hcut (by simp [hopen]) hrest
    · split
      · next rest hrest => exact hcut (by simp [hopen]) hrest
      · exact hwhole

theorem Trigger.hasLiteral_ddl {t : Trigger} {text path arguments : String} (h : t.ddl target ≠ "")
    (hopen : '(' ∉ (Text.spelled target).toList) (hfunction : t.function.text? = some (path ++ enclosed arguments))
    (harguments : HasLiteral text (enclosed arguments)) : HasLiteral text (t.ddl target) := by
  have hcomplete : t.isComplete := by
    by_contra hmissing
    simp [ddl, hmissing] at h
  have hname : HasLiteral text (Text.spelled (dropSchema (some (path ++ enclosed arguments)) target)) :=
    hasLiteral_dropSchema hopen harguments
  have hparentheses {name : String} (hname : HasLiteral text name) :
      HasLiteral text (if Text.endsWith name ")" then name else name ++ "()") := by
    split
    · exact hname
    · exact hname.append _
  have hcall : HasLiteral text (functionText t.function.text? target) := by
    rw [hfunction]
    exact hparentheses hname
  simp only [ddl, hcomplete]
  exact ((hcall.prepend _).append _).append _

theorem hasLiteral_commaList {text : String} {texts : List String} (h : text ∈ texts) :
    HasLiteral text (enclosed (commaList (texts.map literal))) := by
  have hmem : "" ++ literal text ∈ texts.map literal := by
    rw [String.empty_append]
    exact List.mem_map_of_mem h
  have hitems : HasLiteral text (", ".intercalate (texts.map literal) ++ ")") :=
    .of_mem_intercalate hmem (.mark (by decide)) (.mark (by decide))
  rw [enclosed, commaList, String.append_assoc]
  exact hitems.prepend "("

/-- An extension whose comment begins and ends like the end of its literal. -/
def breakout : Extension :=
  { name := "hstore", comment := "'; DROP TABLE t; --''" }

end SchemaScript
