import SchemaScript.Script.Diff
import Mathlib.Data.List.Forall2

/-!
# Pieces that a pass emits

What one statement and a row of items contribute. `Yields` says what holds of every piece a computation
ends with, and `collect_filter` that leaving out items beforehand leaves out their pieces.
-/

namespace SchemaScript.Diff

variable {α : Type} {tag : Tag} {kind : PieceKind} {name schema : String} {owner : Option String}
  {checked : Except Fault Unit} {text : String} {ps : List Piece}

/-! ## One statement -/

theorem emit_eq_ok :
    (emit tag kind name schema owner checked text).result = .ok ps ↔
      checked = .ok () ∧
        ps = if text = "" then [] else [{ tag, kind, name, schema, owner, text }] := by
  rw [emit, Logged.result_check_bind_eq_ok, @eq_comm _ ps]
  by_cases h : text = ""
  · simp only [h, beq_self_eq_true, if_true, Logged.result_debug_bind, Logged.result_pure,
      Except.ok.injEq]
  · simp only [beq_iff_eq, h, if_false, Logged.result_pure, Except.ok.injEq]

theorem mem_emit {x : Piece} (h : (emit tag kind name schema owner checked text).result = .ok ps) :
    x ∈ ps ↔ x.text ≠ "" ∧ x = { tag, kind, name, schema, owner, text } := by
  obtain ⟨-, rfl⟩ := emit_eq_ok.mp h
  split
  · next htext => simpa using fun hne hx => hne (hx ▸ htext)
  · next htext =>
    rw [List.mem_singleton]
    exact ⟨fun hx => ⟨hx ▸ htext, hx⟩, And.right⟩

/-! ## What holds of every piece -/

/-- If the computation ends with pieces, `P` holds of each. -/
def Yields (P : Piece → Prop) (pieces : Logged (List Piece)) : Prop :=
  ∀ ps, pieces.result = .ok ps → ∀ x ∈ ps, P x

section

variable {P : Piece → Prop}

theorem Yields.mono {Q : Piece → Prop} {pieces : Logged (List Piece)} (hp : Yields P pieces)
    (h : ∀ x, P x → Q x) : Yields Q pieces :=
  fun ps hps x hx => h x (hp ps hps x hx)

theorem yields_pure {ps : List Piece} (h : ∀ x ∈ ps, P x) : Yields P (pure ps) := by
  rintro _ ⟨⟩
  exact h

theorem yields_emit (h : text ≠ "" → P { tag, kind, name, schema, owner, text }) :
    Yields P (emit tag kind name schema owner checked text) := by
  intro ps hps x hx
  obtain ⟨-, rfl⟩ := emit_eq_ok.mp hps
  split at hx
  · simp at hx
  · next hne =>
    obtain rfl := List.mem_singleton.mp hx
    exact h hne

theorem yields_bind {β : Type} {x : Logged β} {f : β → Logged (List Piece)}
    (h : ∀ b, x.result = .ok b → Yields P (f b)) : Yields P (x >>= f) := by
  intro ps hps
  obtain ⟨b, hb, hf⟩ := Logged.result_bind_eq_ok.mp hps
  exact h b hb ps hf

/-- The pieces of a first computation take part in the rest. -/
theorem Yields.bind {pieces : Logged (List Piece)} {f : List Piece → Logged (List Piece)}
    (hp : Yields P pieces) (h : ∀ ps, (∀ x ∈ ps, P x) → Yields P (f ps)) :
    Yields P (pieces >>= f) :=
  yields_bind fun ps hps => h ps (hp ps hps)

end

/-! ## A row of items -/

@[simp] theorem collect_nil {pieces : α → Logged (List Piece)} :
    (collect [] pieces).result = .ok [] := by
  simp [collect]

theorem collect_cons_eq_ok {a : α} {items : List α} {pieces : α → Logged (List Piece)} :
    (collect (a :: items) pieces).result = .ok ps ↔
      ∃ own rest, (pieces a).result = .ok own ∧ (collect items pieces).result = .ok rest ∧
        ps = own ++ rest := by
  simp only [collect, List.mapM_cons, bind_assoc, pure_bind, List.flatten_cons,
    Logged.result_bind_eq_ok, Logged.result_pure, Except.ok.injEq]
  constructor
  · rintro ⟨own, hown, rows, hrows, rfl⟩
    exact ⟨own, rows.flatten, hown, ⟨rows, hrows, rfl⟩, rfl⟩
  · rintro ⟨own, _, hown, ⟨rows, hrows, rfl⟩, rfl⟩
    exact ⟨own, hown, rows, hrows, rfl⟩

/-- The pieces of a row are those of its items. -/
theorem mem_collect {items : List α} {pieces : α → Logged (List Piece)} {x : Piece}
    (h : (collect items pieces).result = .ok ps) :
    x ∈ ps ↔ ∃ a ∈ items, ∃ own, (pieces a).result = .ok own ∧ x ∈ own := by
  induction items generalizing ps with
  | nil =>
    obtain rfl : ps = [] := by simpa [eq_comm] using h
    simp
  | cons a items ih =>
    obtain ⟨own, rest, hown, hrest, rfl⟩ := collect_cons_eq_ok.mp h
    have hfirst : (∃ own, (pieces a).result = .ok own ∧ x ∈ own) ↔ x ∈ own := by
      refine ⟨?_, fun hx => ⟨own, hown, hx⟩⟩
      rintro ⟨own', hown', hx⟩
      obtain rfl := Except.ok.inj (hown.symm.trans hown')
      exact hx
    rw [List.mem_append, List.exists_mem_cons_iff, hfirst, ih hrest]

theorem collect_append_eq_ok {items rest : List α} {pieces : α → Logged (List Piece)} :
    (collect (items ++ rest) pieces).result = .ok ps ↔
      ∃ first second, (collect items pieces).result = .ok first ∧
        (collect rest pieces).result = .ok second ∧ ps = first ++ second := by
  induction items generalizing ps with
  | nil =>
    constructor
    · exact fun h => ⟨[], ps, collect_nil, h, rfl⟩
    · rintro ⟨first, second, hfirst, hsecond, rfl⟩
      obtain rfl : first = [] := by simpa [eq_comm] using hfirst
      exact hsecond
  | cons a items ih =>
    simp only [List.cons_append, collect_cons_eq_ok, ih]
    constructor
    · rintro ⟨own, _, hown, ⟨first, second, hfirst, hsecond, rfl⟩, rfl⟩
      exact ⟨own ++ first, second, ⟨own, first, hown, hfirst, rfl⟩, hsecond,
        (List.append_assoc own first second).symm⟩
    · rintro ⟨_, second, ⟨own, first, hown, hfirst, rfl⟩, hsecond, rfl⟩
      exact ⟨own, first ++ second, hown, ⟨first, second, hfirst, hsecond, rfl⟩,
        List.append_assoc own first second⟩

/-- A row of statements ends if all of them can be written, with those that have a text. -/
theorem collect_emit_eq_ok {items : List α} (piece : α → Piece) (checked : α → Except Fault Unit) :
    (collect items fun a => emit (piece a).tag (piece a).kind (piece a).name (piece a).schema
      (piece a).owner (checked a) (piece a).text).result = .ok ps ↔
      (∀ a ∈ items, checked a = .ok ()) ∧ ps = (items.map piece).filter (·.text != "") := by
  induction items generalizing ps with
  | nil => simp [eq_comm]
  | cons a items ih =>
    simp only [collect_cons_eq_ok, emit_eq_ok, ih, List.forall_mem_cons, List.map_cons,
      List.filter_cons]
    constructor
    · rintro ⟨_, _, ⟨ha, rfl⟩, ⟨hitems, rfl⟩, rfl⟩
      refine ⟨⟨ha, hitems⟩, ?_⟩
      by_cases h : (piece a).text = "" <;> simp [h]
    · rintro ⟨⟨ha, hitems⟩, rfl⟩
      refine ⟨_, _, ⟨ha, rfl⟩, ⟨hitems, rfl⟩, ?_⟩
      by_cases h : (piece a).text = "" <;> simp [h]

theorem yields_collect {P : Piece → Prop} {items : List α} {pieces : α → Logged (List Piece)}
    (h : ∀ a ∈ items, Yields P (pieces a)) : Yields P (collect items pieces) := by
  induction items with
  | nil =>
    intro ps hps
    obtain rfl : ps = [] := by simpa [eq_comm] using hps
    simp
  | cons a items ih =>
    intro ps hps x hx
    obtain ⟨own, rest, hown, hrest, rfl⟩ := collect_cons_eq_ok.mp hps
    rcases List.mem_append.mp hx with hx | hx
    · exact h a (by simp) own hown x hx
    · exact ih (fun b hb => h b (List.mem_cons_of_mem a hb)) rest hrest x hx

/-- Pieces are in the order `R` if those of each item are, and those of any two items in the order `r`. -/
theorem pairwise_collect {R : Piece → Piece → Prop} {r : α → α → Prop} {items : List α}
    {pieces : α → Logged (List Piece)} (hitems : items.Pairwise r)
    (h : (collect items pieces).result = .ok ps)
    (hself : ∀ a ∈ items, ∀ own, (pieces a).result = .ok own → own.Pairwise R)
    (hcross : ∀ a b, r a b → ∀ own other, (pieces a).result = .ok own → (pieces b).result = .ok other →
      ∀ x ∈ own, ∀ y ∈ other, R x y) : ps.Pairwise R := by
  induction items generalizing ps with
  | nil =>
    obtain rfl : ps = [] := by simpa [eq_comm] using h
    exact List.Pairwise.nil
  | cons a items ih =>
    obtain ⟨hfirst, hitems⟩ := List.pairwise_cons.mp hitems
    obtain ⟨own, rest, hown, hrest, rfl⟩ := collect_cons_eq_ok.mp h
    refine List.pairwise_append.mpr ⟨hself a List.mem_cons_self own hown,
      ih hitems hrest fun b hb => hself b (List.mem_cons_of_mem a hb), ?_⟩
    intro x hx y hy
    obtain ⟨b, hb, other, hother, hy⟩ := (mem_collect hrest).mp hy
    exact hcross a b (hfirst b hb) own other hown hother x hx y hy

/-- Items that are alike in turn have the same pieces. -/
theorem collect_congr {β : Type} {r : α → β → Prop} {items : List α} {items' : List β}
    {pieces : α → Logged (List Piece)} {pieces' : β → Logged (List Piece)}
    (h : List.Forall₂ r items items') (hpieces : ∀ a b, r a b → (pieces a).result = (pieces' b).result) :
    (collect items pieces).result = (collect items' pieces').result := by
  have hrows : (items.mapM pieces).result = (items'.mapM pieces').result := by
    induction h with
    | nil => rfl
    | cons hab _ ih =>
      rw [List.mapM_cons, List.mapM_cons]
      refine Logged.result_bind_congr (hpieces _ _ hab) fun own => ?_
      exact Logged.result_bind_congr ih fun _ => rfl
  exact Logged.result_bind_congr hrows fun _ => rfl

theorem collect_congr_of_mem {items : List α} {pieces pieces' : α → Logged (List Piece)}
    (h : ∀ a ∈ items, pieces a = pieces' a) : collect items pieces = collect items pieces' := by
  have hrows : items.mapM pieces = items.mapM pieces' := by
    induction items with
    | nil => rfl
    | cons a items ih =>
      rw [List.mapM_cons, List.mapM_cons, h a List.mem_cons_self,
        ih fun b hb => h b (List.mem_cons_of_mem a hb)]
  rw [collect, collect, hrows]

theorem collect_map {β : Type} (f : β → α) (items : List β) (pieces : α → Logged (List Piece)) :
    collect (items.map f) pieces = collect items fun b => pieces (f b) := by
  rw [collect, collect, List.mapM_map]
  rfl

/-- If every item's pieces shrink to those that `keep` accepts, so do the pieces of the row. -/
theorem collect_keep {items : List α} {pieces fewer : α → Logged (List Piece)}
    {keep : Piece → Bool}
    (h : (collect items pieces).result = .ok ps)
    (hitem : ∀ a ∈ items, ∀ own, (pieces a).result = .ok own →
      (fewer a).result = .ok (own.filter keep)) :
    (collect items fewer).result = .ok (ps.filter keep) := by
  induction items generalizing ps with
  | nil =>
    obtain rfl : ps = [] := by simpa [eq_comm] using h
    simp
  | cons a items ih =>
    obtain ⟨own, rest, hown, hrest, rfl⟩ := collect_cons_eq_ok.mp h
    refine collect_cons_eq_ok.mpr ⟨_, _, hitem a (by simp) own hown,
      ih hrest fun b hb => hitem b (List.mem_cons_of_mem a hb), ?_⟩
    rw [List.filter_append]

/-- Leaving items out beforehand leaves out their pieces, if `keep` tells the pieces of the items
that stay from those of the items that go. -/
theorem collect_filter {items : List α} {pieces : α → Logged (List Piece)} {stays : α → Bool}
    {keep : Piece → Bool} (h : (collect items pieces).result = .ok ps)
    (hkeep : ∀ a ∈ items, ∀ own, (pieces a).result = .ok own → ∀ x ∈ own, keep x = stays a) :
    (collect (items.filter stays) pieces).result = .ok (ps.filter keep) := by
  induction items generalizing ps with
  | nil =>
    obtain rfl : ps = [] := by simpa [eq_comm] using h
    simp
  | cons a items ih =>
    obtain ⟨own, rest, hown, hrest, rfl⟩ := collect_cons_eq_ok.mp h
    have hrest := ih hrest fun b hb => hkeep b (List.mem_cons_of_mem a hb)
    have hself := hkeep a (by simp) own hown
    rw [List.filter_append]
    by_cases ha : stays a
    · rw [List.filter_cons_of_pos ha, List.filter_eq_self.mpr fun x hx => (hself x hx).trans ha]
      exact collect_cons_eq_ok.mpr ⟨own, _, hown, hrest, rfl⟩
    · have hnone : own.filter keep = [] := List.filter_eq_nil_iff.mpr fun x hx => by
        rwa [hself x hx]
      rw [List.filter_cons_of_neg ha, hnone]
      exact hrest

end SchemaScript.Diff
