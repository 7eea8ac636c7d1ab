import SchemaScript.Sql.Name

/-!
# Names as they are written

A name in front of a character that can be no part of it can be read off: two names that are written alike
there are the same, and so is what follows (`quoteName_append_inj`). No written name begins with a capital
letter.
-/

namespace SchemaScript.Sql

theorem ne_of_isBareStart {c d : Char} (hc : isBareStart c) (hd : isBareStart d = false) : c ≠ d := by
  rintro rfl
  rw [hc] at hd
  contradiction

/-- The character can stand in no bare name and is no quote, so it ends whatever name stands in front of
it. -/
def endsName (d : Char) : Bool :=
  !isBareContinue d && d != '"' && d != '\n'

section

variable {d : Char}

theorem not_mem_of_isBare {s : List Char} (hd : endsName d) (h : isBare s) : d ∉ s := by
  simp only [endsName, Bool.and_eq_true, Bool.not_eq_true', bne_iff_ne] at hd
  obtain ⟨⟨hd, -⟩, hline⟩ := hd
  have hcontinue (r : List Char) (hr : allBareContinue r) : d ∉ r := by
    fun_induction allBareContinue r with
    | case1 => simp
    | case2 => simpa using hline
    | case3 c r hlast ih =>
      obtain ⟨hc, hr⟩ := Bool.and_eq_true_iff.mp hr
      have hne : d ≠ c := by
        rintro rfl
        rw [hd] at hc
        contradiction
      simp [hne, ih hr]
  rcases s with _ | ⟨c, r⟩
  · simp
  · obtain ⟨hc, hr⟩ := Bool.and_eq_true_iff.mp h
    have hne : d ≠ c := by
      rintro rfl
      rw [isBareContinue, hc, Bool.true_or, Bool.true_or] at hd
      contradiction
    simp [hne, hcontinue r hr]

/-- What stands up to the first character of a kind can be read off. -/
theorem append_cons_inj {a b r s : List Char} (ha : d ∉ a) (hb : d ∉ b)
    (h : a ++ d :: r = b ++ d :: s) : a = b ∧ r = s := by
  have hfront {x y : List Char} (hx : d ∉ x) : (x ++ d :: y).takeWhile (· != d) = x := by
    have hne : ∀ c ∈ x, (c != d) = true := fun c hc => bne_iff_ne.mpr fun heq => hx (heq ▸ hc)
    rw [List.takeWhile_append_of_pos hne, List.takeWhile_cons_of_neg (by simp), List.append_nil]
  have hab := congrArg (List.takeWhile (· != d)) h
  rw [hfront ha, hfront hb] at hab
  subst hab
  simpa using h

/-- Up to the quote that ends it, a text with its quotes written twice can be read off. -/
theorem doubleQuotes_inj {a b r s : List Char} (hd : d ≠ '"')
    (h : doubleQuotes a ++ '"' :: d :: r = doubleQuotes b ++ '"' :: d :: s) : a = b ∧ r = s := by
  induction a generalizing b with
  | nil =>
    rcases b with _ | ⟨e, b⟩
    · simpa [doubleQuotes] using h
    · by_cases he : e = '"'
      · simp [doubleQuotes, he, hd] at h
      · simp [doubleQuotes, he, Ne.symm he] at h
  | cons c a ih =>
    rcases b with _ | ⟨e, b⟩
    · by_cases hc : c = '"' <;> simp [doubleQuotes, hc, Ne.symm hd] at h
    · have hhead : c = e ∧ doubleQuotes a ++ '"' :: d :: r = doubleQuotes b ++ '"' :: d :: s := by
        by_cases hc : c = '"' <;> by_cases he : e = '"'
        · simpa [doubleQuotes, hc, he] using h
        · simp [doubleQuotes, hc, he, Ne.symm he] at h
        · simp [doubleQuotes, hc, he] at h
        · simpa [doubleQuotes, hc, he] using h
      exact ⟨by rw [hhead.1, (ih hhead.2).1], (ih hhead.2).2⟩

end

/-- A name is written bare, or between quotes. -/
theorem quoteName_cases {name : String} (h : name ≠ "") :
    ((quoteName name).toList = name.toList ∧ isBare name.toList) ∨
      (quoteName name).toList = '"' :: (doubleQuotes name.toList ++ ['"']) := by
  unfold quoteName
  by_cases hquotes : needsQuotes name
  · exact .inr (by simp [hquotes, quoted])
  · refine .inl ⟨by rw [if_neg hquotes], ?_⟩
    simpa [needsQuotes, h] using fun hbare : _ = false => hquotes (by simp [needsQuotes, h, hbare])

/-- The first letter of a name as it is written. -/
theorem exists_front {name : String} (h : name ≠ "") :
    ∃ c r, (quoteName name).toList = c :: r ∧ (isBareStart c ∨ c = '"') := by
  rcases quoteName_cases h with ⟨hname, hbare⟩ | hname
  · rw [hname]
    rcases hlist : name.toList with _ | ⟨c, r⟩
    · rw [hlist] at hbare
      contradiction
    · rw [hlist] at hbare
      exact ⟨c, r, rfl, .inl (Bool.and_eq_true_iff.mp hbare).1⟩
  · exact ⟨'"', _, hname, .inr rfl⟩

/-- In front of a character that ends it, a name can be read off. -/
theorem quoteName_append_inj {a b : String} {d : Char} {r s : List Char} (hd : endsName d)
    (h : (quoteName a).toList ++ d :: r = (quoteName b).toList ++ d :: s) : a = b ∧ r = s := by
  have hquote : d ≠ '"' := by
    simp only [endsName, Bool.and_eq_true, bne_iff_ne] at hd
    exact hd.1.2
  have hstart : isBareStart d = false := by
    simp only [endsName, Bool.and_eq_true, Bool.not_eq_true', isBareContinue, Bool.or_eq_false_iff] at hd
    exact hd.1.1.1.1
  have hempty {name : String} {r s : List Char} (h : d :: r = (quoteName name).toList ++ d :: s) :
      name = "" := by
    by_cases hne : name = ""
    · exact hne
    · obtain ⟨c, rest, hfront, hc⟩ := exists_front hne
      rw [hfront] at h
      obtain rfl := (List.cons.inj h).1
      simp [hstart, hquote] at hc
  have hmixed {bare other r s : List Char} (hbare : isBare bare)
      (h : bare ++ d :: r = '"' :: (doubleQuotes other ++ ['"']) ++ d :: s) : False := by
    rcases bare with _ | ⟨c, bare⟩
    · contradiction
    · have hc : isBareStart c := (Bool.and_eq_true_iff.mp hbare).1
      exact ne_of_isBareStart hc rfl (List.cons.inj h).1
  by_cases ha : a = ""
  · subst ha
    obtain rfl := hempty (r := r) (s := s) h
    exact ⟨rfl, List.tail_eq_of_cons_eq h⟩
  by_cases hb : b = ""
  · subst hb
    exact absurd (hempty (r := s) (s := r) h.symm) ha
  rcases quoteName_cases ha with ⟨ha, hbareA⟩ | ha <;> rcases quoteName_cases hb with ⟨hb, hbareB⟩ | hb <;>
    rw [ha, hb] at h
  · obtain ⟨hname, hrest⟩ :=
      append_cons_inj (not_mem_of_isBare hd hbareA) (not_mem_of_isBare hd hbareB) h
    exact ⟨String.toList_injective hname, hrest⟩
  · exact (hmixed hbareA h).elim
  · exact (hmixed hbareB h.symm).elim
  · obtain ⟨hname, hrest⟩ := doubleQuotes_inj (a := a.toList) (b := b.toList) (r := r) (s := s) hquote
      (by simpa using h)
    exact ⟨String.toList_injective hname, hrest⟩

theorem head?_quoteName (name : String) : (quoteName name).toList.head? ≠ some 'C' := by
  by_cases h : name = ""
  · subst h
    decide
  · obtain ⟨c, r, hfront, hc⟩ := exists_front h
    rw [hfront, List.head?_cons, ne_eq, Option.some.injEq]
    rintro rfl
    exact absurd hc (by decide)

/-! ## Texts one after another -/

/-- Every text but the first stands behind what separates them. -/
theorem toList_intercalate_cons (gap first : String) (others : List String) :
    (gap.intercalate (first :: others)).toList = first.toList ++ others.flatMap fun s => gap.toList ++ s.toList := by
  induction others generalizing first with
  | nil => simp
  | cons next others ih =>
    rw [String.intercalate_cons_cons, String.toList_append, String.toList_append, ih, List.flatMap_cons,
      List.append_assoc, List.append_assoc]

/-- Behind an item of a list stands a gap, or nothing. -/
theorem exists_intercalate_split {item : String} {items : List String} (h : item ∈ items) (gap : String) :
    ∃ front back, gap.intercalate items = front ++ item ++ back ∧ (back = "" ∨ ∃ more, back = gap ++ more) := by
  induction items with
  | nil => contradiction
  | cons first items ih =>
    rcases items with _ | ⟨next, items⟩
    · obtain rfl := List.mem_singleton.mp h
      exact ⟨"", "", by simp, .inl rfl⟩
    · rw [String.intercalate_cons_cons]
      rcases List.mem_cons.mp h with rfl | hlater
      · exact ⟨"", gap ++ gap.intercalate (next :: items), by simp [String.append_assoc], .inr ⟨_, rfl⟩⟩
      · obtain ⟨front, back, heq, hback⟩ := ih hlater
        exact ⟨first ++ gap ++ front, back, by simp [heq, String.append_assoc], hback⟩

theorem intercalate_blank (first : String) (others : List String) :
    " ".intercalate (first :: others) = first ++ String.join (others.map (" " ++ ·)) := by
  refine String.toList_inj.mp ?_
  rw [toList_intercalate_cons, String.toList_append, String.toList_join, List.flatMap_map]
  simp only [String.toList_append]

end SchemaScript.Sql
