import SchemaScript.Ddl.Table
import SchemaScript.Proofs.Effect.Filing
import SchemaScript.Proofs.Effect.Renaming
import SchemaScript.Proofs.Sql.BoundText

/-!
# Bounds on their way through a catalog

A table that is created as a partition and one that is attached later leave the same attachment. The statement that is
written for it is read as that attachment again, unless a value of the bound is not read as it is printed
(`bound_of_routes`). Literals are read as they are printed (`Literal.isStable`).
-/

namespace SchemaScript.Sql

/-- A word that stands for a value in a bound. -/
inductive ValueWord
  | yes
  | no
  | null
  | minimum
  | maximum

namespace ValueWord

def word : ValueWord → String
  | yes => "true"
  | no => "false"
  | null => "null"
  | minimum => "minvalue"
  | maximum => "maxvalue"

/-- The ends of a range are read as columns. -/
def phrase : ValueWord → Phrase
  | yes => .ofConstant "TRUE"
  | no => .ofConstant "FALSE"
  | null => .ofConstant "NULL"
  | minimum => Reader.columnWithParts "minvalue" []
  | maximum => Reader.columnWithParts "maxvalue" []

end ValueWord

/-- A value that is written without operators. -/
inductive Literal
  | number (n : Int)
  | text (s : String) (noZero : '\x00' ∉ s.toList)
  | word (w : ValueWord)

namespace Literal

def tokens : Literal → List Token
  | number n => numberTokens n
  | text s _ => [.text s]
  | word w => [.word w.word]

def phrase : Literal → Phrase
  | number n => .ofNumber (writtenNumber n)
  | text s _ => .ofText s
  | word w => w.phrase

end Literal

namespace Reader

section

variable {r : Rules} {extent : Extent} {rank : Nat} {next : Token} {more : List Token}

theorem operandWith_digits (n : Nat) (hnext : next = .symbol "," ∨ next = .symbol ")") (places : Nat → Nat × String) :
    operandWith r extent rank (lexemesAt places (digitsToken n :: next :: more)) =
      .ok (.ofNumber (naturalNumber n), lexemesAt (fun i => places (i + 1)) (next :: more)) := by
  have hprefix : prefixOperation r extent (lexemesAt places (digitsToken n :: next :: more)) =
      .ok (.ofNumber (naturalNumber n), lexemesAt (fun i => places (i + 1)) (next :: more)) := by
    unfold digitsToken integerToken naturalNumber
    split <;> rfl
  exact bind_ok hprefix (operations_ends _ hnext _)

theorem expression_literal (l : Literal) (depth : Nat) (hnext : next = .symbol "," ∨ next = .symbol ")")
    (places : Nat → Nat × String) :
    ∃ places', (rulesTo (depth + 2)).expression (lexemesAt places (l.tokens ++ next :: more)) =
      .ok (l.phrase, lexemesAt places' (next :: more)) := by
  cases l with
  | number n =>
    cases n with
    | ofNat n => exact ⟨_, operandWith_digits n hnext places⟩
    | negSucc n =>
      have hdigits : operandWith (rulesTo depth) .full Binding.sign.rank
          (lexemesAt (fun i => places (i + 1)) (digitsToken (n + 1) :: next :: more)) =
            .ok (.ofNumber (naturalNumber (n + 1)), lexemesAt (fun i => places (i + 2)) (next :: more)) :=
        operandWith_digits (n + 1) hnext _
      have hprefix : prefixOperation (rulesTo (depth + 1)) .full
          (lexemesAt places (.symbol "-" :: digitsToken (n + 1) :: next :: more)) =
            .ok (.ofNumber (writtenNumber (.negSucc n)), lexemesAt (fun i => places (i + 2)) (next :: more)) :=
        bind_ok rfl (bind_ok rfl (bind_ok rfl (bind_ok hdigits rfl)))
      exact ⟨_, bind_ok hprefix (operations_ends _ hnext _)⟩
  | text s _ =>
    have hprefix : prefixOperation (rulesTo (depth + 1)) .full (lexemesAt places (.text s :: next :: more)) =
        .ok (.ofText s, lexemesAt (fun i => places (i + 1)) (next :: more)) := rfl
    exact ⟨_, bind_ok hprefix (operations_ends _ hnext _)⟩
  | word w =>
    have hprefix : prefixOperation (rulesTo (depth + 1)) .full (lexemesAt places (.word w.word :: next :: more)) =
        .ok (w.phrase, lexemesAt (fun i => places (i + 1)) (next :: more)) := by
      rcases hnext with rfl | rfl <;> cases w <;> rfl
    exact ⟨_, bind_ok hprefix (operations_ends _ hnext _)⟩

end

end Reader

/-! ## Printed literals -/

namespace Literal

def value (l : Literal) : Value where
  tokens := l.tokens
  phrase := l.phrase
  isRead depth hdepth next hnext places more := by
    obtain ⟨depth, rfl⟩ : ∃ k, depth = k + 2 := ⟨depth - 2, by omega⟩
    exact Reader.expression_literal l depth hnext places

theorem scansAs_text (l : Literal) : ScansAs [',', ')'] l.phrase.text.toList l.tokens := by
  cases l with
  | number n =>
    have htext : (number n).phrase.text = Text.writeInteger n := text_writtenNumber n
    rw [htext]
    refine ⟨not_mem_writeInteger (by decide) rfl n, length_numberTokens_le n, fun d hd rest more hrest => ?_⟩
    have hends : endsNumber d := by
      simp only [List.mem_cons, List.not_mem_nil, or_false] at hd
      rcases hd with rfl | rfl <;> rfl
    exact scans_number n hends hrest
  | text s noZero =>
    refine ⟨not_mem_literal (by decide) noZero, ?_, fun d hd rest more hrest => ?_⟩
    · show 1 ≤ (literal s).toList.length
      simp [literal, String.toList_append]
    · exact scans_cons (firstWord_literal s (List.mem_cons_of_mem _ hd) rest) hrest
  | word w =>
    have hword (d : Char) (hd : d ∈ [',', ')']) (rest : List Char) :
        frontWords 1 (w.phrase.text.toList ++ d :: rest) = some ([.word w.word], d :: rest) := by
      simp only [List.mem_cons, List.not_mem_nil, or_false] at hd
      rcases hd with rfl | rfl <;> cases w <;> rfl
    refine ⟨?_, ?_, fun d hd rest more hrest => scans_frontWords (hword d hd rest) hrest⟩
    · show '\x00' ∉ w.phrase.text.toList
      cases w <;> decide
    · show 1 ≤ w.phrase.text.toList.length
      cases w <;> decide

/-- A literal is printed as it is read. -/
theorem isStable (l : Literal) : l.value.IsStable := by
  refine ⟨l.value, l.tokens, rfl, l.scansAs_text, ?_⟩
  cases l with
  | number n =>
    have hunjoined : BeginsApart (numberTokens n ++ []) := unjoined_number n ⟨List.isChain_nil, nofun⟩
    rw [List.append_nil] at hunjoined
    exact hunjoined.1.joined
  | text | word => rfl

end Literal

end SchemaScript.Sql

/-!
## Bounds on their way through a catalog

A table that is created as a partition and one that is attached later leave the same attachment. The statement that is
written for it is read as that attachment again, unless a value of the bound is not read as it is printed
(`bound_of_routes`).
-/

namespace SchemaScript.Effect

open Sql

variable {default : String} {parent child : List String} {bound : String}

/-- What a catalog keeps of a partition. -/
def attachmentAt (default : String) (parent child : List String) (bound : String) : PartitionAttachment where
  parentSchema := schemaOf default (.ofPath parent)
  parentTable := (RelationName.ofPath parent).name
  childSchema := schemaOf default (.ofPath child)
  childTable := (RelationName.ofPath child).name
  bound := bound

/-- The statement leaves one more attachment. -/
def Attaches (default : String) (s : Statement) (a : PartitionAttachment) (c : Catalog) : Prop :=
  ∃ c', effect default c s = .ok c' ∧ c'.partitions = c.partitions ++ [a]

theorem attaches_partitionOf (default : String) (child parent : List String) (bound : String) (c : Catalog) :
    Attaches default (.createTable (partitionOf child parent bound)) (attachmentAt default parent child bound) c := by
  have hresult := result_createTable default c (partitionOf child parent bound)
  exact ⟨_, hresult, rfl⟩

/-- The parent is known by the names that it is filed under. -/
theorem attaches_attachmentStatement {c : Catalog} (hfiled : c.Filed) (child : List String) (bound : String)
    (hparent : (c.findTable? (schemaOf default (.ofPath parent)) (RelationName.ofPath parent).name).isSome) :
    Attaches default (attachmentStatement parent child bound) (attachmentAt default parent child bound) c := by
  obtain ⟨t, ht⟩ := Option.isSome_iff_exists.mp hparent
  obtain ⟨s, hs, htable⟩ := Option.bind_eq_some_iff.mp ht
  have hfiledTable : t.Filed (schemaOf default (.ofPath parent)) (RelationName.ofPath parent).name :=
    (hfiled.schemas _ s hs).tables _ t htable
  have hresult : effect default c (attachmentStatement parent child bound) =
      (alterTable default c (.ofPath parent) [.attachPartition (.ofPath child) bound]).result := rfl
  unfold alterTable at hresult
  dsimp only at hresult
  rw [ht] at hresult
  refine ⟨_, hresult, ?_⟩
  unfold attachmentAt
  rw [← hfiledTable.schema, ← hfiledTable.name]
  rfl

theorem attachPartition_eq (parent child : List String) (bound : Bound) :
    Ddl.attachPartition (some (pathText parent)) (some (pathText child)) (some bound.text) =
      attachmentText parent child bound.text := by
  have htext : Text.given (some bound.text) = some bound.text := Text.given_eq_some_iff.mpr ⟨rfl, bound.text_ne_empty⟩
  unfold Ddl.attachPartition
  rw [htext]
  rfl

/-- Both ways to give a table a bound leave the same attachment. The statement that is written for it is read as that
attachment, for any parent and child, if the values of the bound are read as they are printed. -/
theorem bound_of_routes {sql sql' : String} (hchild : IsPath child) (hparent : IsPath parent) (bound : Bound)
    (hcreated : HasWords sql (partitionTokens child parent bound))
    (hattached : HasWords sql' (attachmentTokens parent child bound)) :
    statements sql = .ok [.createTable (partitionOf child parent bound.text)] ∧
    statements sql' = .ok [attachmentStatement parent child bound.text] ∧
    (∀ default c, Attaches default (.createTable (partitionOf child parent bound.text))
      (attachmentAt default parent child bound.text) c) ∧
    (∀ default c, c.Filed →
      (c.findTable? (schemaOf default (.ofPath parent)) (RelationName.ofPath parent).name).isSome →
      Attaches default (attachmentStatement parent child bound.text) (attachmentAt default parent child bound.text) c) ∧
    ((∀ v ∈ bound.values, v.IsStable) → ∀ parent child, IsPath parent → IsPath child →
      statements (Ddl.attachPartition (some (pathText parent)) (some (pathText child)) (some bound.text)) =
        .ok [attachmentStatement parent child bound.text]) := by
  refine ⟨statements_partition hchild hparent bound hcreated, statements_attachment hparent hchild bound hattached,
    fun default c => attaches_partitionOf default child parent bound.text c,
    fun default c hfiled hthere => attaches_attachmentStatement hfiled child bound.text hthere,
    fun hstable parent child hparent hchild => ?_⟩
  obtain ⟨again, htext, hwords⟩ := exists_hasWords_attachment hparent hchild hstable
  rw [attachPartition_eq, ← htext]
  rw [← htext] at hwords
  exact statements_attachment hparent hchild again hwords

/-- The sales from the beginning of a year on. -/
def salesBound : Bound :=
  .between ⟨(Literal.text "2024-01-01" (by decide)).value, []⟩ ⟨(Literal.word .maximum).value, []⟩

def salesCreated : String :=
  "create table sales_2024 partition of sales for values from ('2024-01-01') to (maxvalue);"

def salesAttached : String :=
  "alter table sales attach partition sales_2024 for values from ('2024-01-01') to (MAXVALUE);"

theorem sales_bound : ∃ s s' c,
    statements salesCreated = .ok [s] ∧ statements salesAttached = .ok [s'] ∧
    effect "public" start (.createTable { relation := { name := "sales" } }) = .ok c ∧
    Attaches "public" s (attachmentAt "public" ["sales"] ["sales_2024"] salesBound.text) c ∧
    Attaches "public" s' (attachmentAt "public" ["sales"] ["sales_2024"] salesBound.text) c ∧
    statements "ALTER TABLE sales ATTACH PARTITION sales_2024 FOR VALUES FROM ('2024-01-01') TO (maxvalue);" =
      .ok [s'] := by
  have hsales : IsPath ["sales"] := by
    refine ⟨by decide, ?_, by decide⟩
    rintro _ (_ | ⟨_, ⟨⟩⟩)
    exact ⟨by decide, by decide +kernel, by decide, fun _ => by decide⟩
  have hchild : IsPath ["sales_2024"] := by
    refine ⟨by decide, ?_, by decide⟩
    rintro _ (_ | ⟨_, ⟨⟩⟩)
    exact ⟨by decide, by decide +kernel, by decide, fun _ => by decide⟩
  have hcreated : HasWords salesCreated (partitionTokens ["sales_2024"] ["sales"] salesBound) :=
    hasWords_of_frontWords 17 (partitionTokens ["sales_2024"] ["sales"] salesBound) (by decide +kernel)
      (by decide +kernel) (by decide +kernel) (by decide +kernel)
  have hattached : HasWords salesAttached (attachmentTokens ["sales"] ["sales_2024"] salesBound) :=
    hasWords_of_frontWords 17 (attachmentTokens ["sales"] ["sales_2024"] salesBound) (by decide +kernel)
      (by decide +kernel) (by decide +kernel) (by decide +kernel)
  have hstable : ∀ v ∈ salesBound.values, v.IsStable := by
    rintro _ (_ | ⟨_, _ | ⟨_, ⟨⟩⟩⟩)
    · exact Literal.isStable _
    · exact Literal.isStable _
  obtain ⟨hs, hs', hcreates, hattaches, hwritten⟩ := bound_of_routes hchild hsales salesBound hcreated hattached
  have hthere : (effect "public" start (.createTable { relation := { name := "sales" } })).toOption.any
      fun c => (c.findTable? "public" "sales").isSome := by
    decide +kernel
  obtain ⟨c, hc, htable⟩ := (Option.any_eq_true ..).mp hthere
  have hc := eq_ok_of_toOption hc
  have htext : Ddl.attachPartition (some (pathText ["sales"])) (some (pathText ["sales_2024"])) (some salesBound.text) =
      "ALTER TABLE sales ATTACH PARTITION sales_2024 FOR VALUES FROM ('2024-01-01') TO (maxvalue);" := by
    decide +kernel
  have hagain := hwritten hstable ["sales"] ["sales_2024"] hsales hchild
  rw [htext] at hagain
  exact ⟨_, _, c, hs, hs', hc, hcreates "public" c, hattaches "public" c (filed_effect filed_start hc) htable, hagain⟩

-- A comparison inside another one is printed without its parentheses, and what is printed is refused.
example : (statements
    "create table c partition of p for values in ((1 between 0 and 2) between false and true)").toOption =
      some [.createTable (partitionOf ["c"] ["p"] "FOR VALUES IN (1 BETWEEN 0 AND 2 BETWEEN FALSE AND TRUE)")] := by
  decide +kernel

example : (statements (Ddl.attachPartition (some "p") (some "c")
    (some "FOR VALUES IN (1 BETWEEN 0 AND 2 BETWEEN FALSE AND TRUE)"))).toOption = none := by
  decide +kernel

end SchemaScript.Effect
