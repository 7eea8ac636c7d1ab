import SchemaScript.Proofs.Effect.Outcome
import SchemaScript.Proofs.Script.Commenting
import SchemaScript.Proofs.Sql.ScriptText

/-!
# Scripts that create one object

A statement that creates an object, and a comment on the object behind it, leave a catalog with that object and nothing
else (`exists_catalogOf_commented`). A comment changes nothing of an object but its comment.
-/

namespace SchemaScript

open Sql

/-! ## Names and comments that are written -/

/-- In the target schema the name alone is written. -/
theorem Ddl.path_target (schema name : String) : path schema name (some schema) = [name] := by
  have hname : (name : Field String).spelled = name := rfl
  unfold path
  rw [Field.given_text, hname]
  by_cases hschema : schema = ""
  · rw [if_pos hschema, Text.given_none]
  · rw [if_neg hschema, Text.given_eq_some_iff.mpr ⟨rfl, hschema⟩]
    exact if_pos (beq_self_eq_true _)

/-- A comment as an object has one: none, or a text that is not empty and can be read. -/
def IsComment (comment : Option String) : Prop :=
  ∀ text ∈ comment, text ≠ "" ∧ '\x00' ∉ text.toList

theorem IsComment.given {comment : Option String} (h : IsComment comment) :
    (comment : Field String).given = comment := by
  cases comment with
  | none => rfl
  | some text => exact (Field.given_text text).trans (if_neg (h text rfl).1)

/-! ## Comments on objects -/

/-- The content with another comment; a schema has none. -/
def Content.withComment (text : Field String) : Content → Content
  | .schema owner => .schema owner
  | .extension x => .extension { x with comment := text }
  | .type x => .type { x with comment := text }
  | .sequence x => .sequence { x with comment := text }
  | .table x => .table { x with comment := text }
  | .view x => .view { x with comment := text }
  | .function x => .function { x with comment := text }
  | .aggregate x => .aggregate { x with comment := text }
  | .procedure x => .procedure { x with comment := text }

@[simp] theorem Content.kind?_withComment (text : Field String) (x : Content) :
    (x.withComment text).kind? = x.kind? := by
  cases x <;> rfl

/-- The kind of the objects of a schema that such a comment is about. -/
def Sql.CommentKind.object? : CommentKind → Option ObjectKind
  | .table => some .table
  | .view | .materializedView => some .view
  | .sequence => some .sequence
  | .type | .domain => some .type
  | .function => some .function
  | .procedure => some .procedure
  | .aggregate => some .aggregate
  | .extension | .index | .column | .constraint | .trigger => none

namespace Effect

variable {default name : String} {c : Catalog} {kind : CommentKind} {o : ObjectKind} {x : Content}

theorem commentObject?_of_at? {s : Schema} (hkind : kind.object? = some o) (h : s.at? o name = some x)
    (text : Option String) : commentObject? s kind name text = some (s.put name (x.withComment text)) := by
  cases kind
  all_goals
    first
    | contradiction
    | obtain rfl := Option.some.inj hkind
      obtain ⟨value, hvalue, rfl⟩ := Option.map_eq_some_iff.mp h
      rw [commentObject?, changeNamed?_of_get? hvalue]
      rfl

theorem commentOn?_object {schema : String} {path : List String} (hkind : kind.object? = some o)
    (hpath : splitPath default path = (schema, name)) (text : Option String) : commentOn? default c kind path text =
      (c.schemas.get? schema).bind fun s => (commentObject? s kind name text).map fun s =>
        { c with schemas := c.schemas.put schema s } := by
  cases kind
  all_goals
    first
    | contradiction
    | simp only [commentOn?, hpath]
      cases c.schemas.get? schema <;> rfl

theorem result_comment_eq {path : List String} (hkind : kind.object? = some o) (text : Option String) :
    (comment default c kind path text).result = .ok ((commentOn? default c kind path text).getD c) := by
  have hcolumn : (kind == .column) = false := by
    cases kind <;> first | contradiction | rfl
  rw [comment, hcolumn]
  cases commentOn? default c kind path text <;> rfl

/-- A comment on an object that is there. -/
theorem result_comment {schema : String} {path : List String} (hkind : kind.object? = some o)
    (hpath : splitPath default path = (schema, name)) (h : c.at? (.object schema o name) = some x)
    (text : Option String) :
    (comment default c kind path text).result =
      .ok (c.updateSchema schema fun s => s.put name (x.withComment text)) := by
  obtain ⟨s, hs, hx⟩ := Option.bind_eq_some_iff.mp h
  rw [result_comment_eq hkind, commentOn?_object hkind hpath, hs, Option.bind_some, commentObject?_of_at? hkind hx,
    Option.map_some, Option.getD_some, Catalog.updateSchema, Catalog.schemaOrNew, hs, Option.getD_some]

/-- A comment on an object that is not there. -/
theorem result_comment_of_none {schema : String} {path : List String} (hkind : kind.object? = some o)
    (hpath : splitPath default path = (schema, name)) (h : c.at? (.object schema o name) = none)
    (text : Option String) : (comment default c kind path text).result = .ok c := by
  have hnone {s : Schema} (hs : c.schemas.get? schema = some s) : commentObject? s kind name text = none := by
    have hx : s.at? o name = none := by
      rw [Catalog.at?, hs, Option.bind_some] at h
      exact h
    cases kind
    all_goals
      first
      | contradiction
      | obtain rfl := Option.some.inj hkind
        rw [commentObject?, changeNamed?, Option.map_eq_none_iff.mp hx]
        rfl
  rw [result_comment_eq hkind, commentOn?_object hkind hpath]
  cases hs : c.schemas.get? schema with
  | none => rfl
  | some s =>
    rw [Option.bind_some, hnone hs]
    rfl

theorem put_twice {α : Type} (entries : Entries α) (name : String) (v w : α) :
    (entries.put name v).put name w = entries.put name w :=
  Entries.eq_of_pairs (Entries.putPair_twice ..)

theorem updateSchema_twice (c : Catalog) (schema : String) (f g : Schema → Schema) :
    (c.updateSchema schema f).updateSchema schema g = c.updateSchema schema fun s => g (f s) := by
  simp [Catalog.updateSchema, Catalog.schemaOrNew, Entries.get?_put, put_twice]

theorem put_withComment (s : Schema) (name : String) (x : Content) (text text' : Field String) :
    (s.put name (x.withComment text)).put name ((x.withComment text).withComment text') =
      s.put name (x.withComment text') := by
  cases x <;> simp [Schema.put, Content.withComment, put_twice]

/-! ## Runs of statements -/

/-- Statements that declare no schema and take effect one after another. -/
theorem result_catalogOf_of_effects {all : List Statement}
    (hnamed : ∀ s ∈ all, ∀ name owner, s ≠ .createSchema name owner)
    (h : (inOrder all).foldlM (effect default) start = .ok c) :
    (catalogOf default all).result = .ok (inheritAll c) := by
  have hrun (all : List Statement) (hnamed : ∀ s ∈ all, ∀ name owner, s ≠ .createSchema name owner) (first : Catalog)
      (h : all.foldlM (effect default) first = .ok c) :
      (all.foldlM (apply default) { catalog := first }).result = .ok { catalog := c } := by
    induction all generalizing first with
    | nil =>
      obtain rfl := Except.ok.inj h
      rfl
    | cons s all ih =>
      rw [List.foldlM_cons] at h
      obtain ⟨next, hnext, hrest⟩ := exists_of_bind_eq_ok h
      have hs : ¬ ∃ name owner, s = .createSchema name owner := by
        rintro ⟨name, owner, heq⟩
        exact hnamed s List.mem_cons_self name owner heq
      rw [effect_eq_applyTo hs] at hnext
      rw [List.foldlM_cons, Logged.result_bind, result_apply hs, hnext]
      exact ih (fun s hs => hnamed s (List.mem_cons_of_mem _ hs)) next hrest
  have hall := hrun (inOrder all) (fun s hs => hnamed s (mem_inOrder.mp hs)) start h
  rw [catalogOf, Logged.result_bind, hall]
  rfl

/-- Statements that add to objects come last anyway. -/
theorem inOrder_cons {s : Statement} (hs : s.isDependent = false) {later : List Statement}
    (hlater : ∀ s ∈ later, s.isDependent) : inOrder (s :: later) = s :: later := by
  have hnone : later.filter (!·.isDependent) = [] := by simpa using hlater
  rw [inOrder, List.filter_cons, List.filter_cons, hs, hnone, List.filter_eq_self.mpr hlater]
  rfl

theorem inheritAll_updateSchema (f : Schema → Schema) :
    inheritAll (start.updateSchema default f) = start.updateSchema default f := rfl

/-- A script that creates something and then comments this or something else. -/
theorem result_catalogOf_commented {s : Statement} (hs : s.isDependent = false)
    (hnamed : ∀ name owner, s ≠ .createSchema name owner) {f g : Schema → Schema} {path : List String}
    {text : Option String} (heffect : effect default start s = .ok (start.updateSchema default f))
    (hcomment : (comment default (start.updateSchema default f) kind path text).result =
      .ok (start.updateSchema default g)) :
    (catalogOf default [s, .comment kind path text]).result = .ok (start.updateSchema default g) := by
  have horder : inOrder [s, .comment kind path text] = [s, .comment kind path text] :=
    inOrder_cons hs (List.forall_mem_singleton.mpr rfl)
  rw [← inheritAll_updateSchema g]
  refine result_catalogOf_of_effects ?_ ?_
  · rintro t (_ | ⟨_, _ | ⟨_, ⟨⟩⟩⟩)
    · exact hnamed
    · exact nofun
  · rw [horder, List.foldlM_cons, heffect]
    show (comment default (start.updateSchema default f) kind path text).result >>= _ = _
    rw [hcomment]
    rfl

/-- The comments that a statement is followed by: one or none. -/
def commentStatements (kind : CommentKind) (path : List String) (comment : Option String) : List Statement :=
  comment.toList.map fun text => .comment kind path (some text)

theorem toList_commentAfter {path : List String} {text subject : String} (hgiven : text ≠ "")
    (hsubject : subject = kindText kind ++ " " ++ namingText (Reader.kindNaming kind) path) :
    (Ddl.commentAfter subject (some text : Option String)).toList =
      '\n' :: '\n' :: (remarkText kind path text).toList := by
  have hremark : Ddl.commentStatement subject text = remarkText kind path text := by
    rw [Ddl.commentStatement_eq kind path "" (by rw [hsubject, String.append_empty]), Remark.sql_eq_remarkText rfl]
  have hcomment : ((some text : Option String) : Field String).given = some text :=
    (Field.given_text text).trans (if_neg hgiven)
  rw [Ddl.commentAfter, hcomment]
  dsimp only
  rw [hremark, String.toList_append]
  rfl

/-- The comment behind a statement is read. -/
theorem isScript_commentAfter {path : List String} {text : Option String} (htext : IsComment text)
    (h : IsNamedBy (Reader.kindNaming kind) path) (hpath : ∀ n ∈ path, IsKept n) {subject : String}
    (hsubject : subject = kindText kind ++ " " ++ namingText (Reader.kindNaming kind) path) :
    IsScript (Ddl.commentAfter subject text).toList (commentStatements kind path text) := by
  cases text with
  | none => exact isScript_nil
  | some text =>
    obtain ⟨hgiven, hzero⟩ := htext text rfl
    rw [toList_commentAfter hgiven hsubject]
    exact (isScript_remarkText h hpath hzero).behind_newline.behind_newline

variable {path : List String}

theorem at?_start_put (hx : x.kind? = some o) (text : Field String) :
    (start.updateSchema default fun u => u.put name (x.withComment text)).at? (.object default o name) =
      some (x.withComment text) := by
  rw [Catalog.at?_updateSchema]
  simp [Schema.at?_put, hx]

theorem at?_start_put_of_ne {schema other : String} (h : ¬ (schema = default ∧ other = name)) :
    (start.updateSchema default fun u => u.put name x).at? (.object schema o other) = none := by
  rw [Catalog.at?_updateSchema]
  dsimp only
  split
  · next hschema =>
    rw [Schema.at?_put, if_neg fun hother => h ⟨hschema, hother.2⟩]
    cases o <;> rfl
  · rfl

/-- A script that creates an object of the default schema without a comment, and then comments it or not. -/
theorem exists_catalogOf_commented {s : Statement} (hs : s.isDependent = false)
    (hnamed : ∀ name owner, s ≠ .createSchema name owner) (hkind : kind.object? = some o) (hx : x.kind? = some o)
    (hpath : splitPath default path = (default, name))
    (heffect : effect default start s = .ok (start.updateSchema default fun u => u.put name (x.withComment .absent)))
    (comment : Option String) :
    ∃ c, (catalogOf default (s :: commentStatements kind path comment)).result = .ok c ∧
      c.at? (.object default o name) = some (x.withComment comment) := by
  refine ⟨start.updateSchema default fun u => u.put name (x.withComment comment), ?_, at?_start_put hx comment⟩
  cases comment with
  | none =>
    have horder : inOrder [s] = [s] := inOrder_cons hs (List.forall_mem_nil _)
    rw [← inheritAll_updateSchema]
    refine result_catalogOf_of_effects (List.forall_mem_singleton.mpr hnamed) ?_
    show (inOrder [s]).foldlM (effect default) start = _
    rw [horder, List.foldlM_cons, heffect]
    rfl
  | some text =>
    have hset := result_comment hkind hpath (at?_start_put hx .absent) (some text)
    rw [updateSchema_twice, funext fun u => put_withComment u name x _ _] at hset
    exact result_catalogOf_commented hs hnamed heffect hset

end Effect
end SchemaScript
