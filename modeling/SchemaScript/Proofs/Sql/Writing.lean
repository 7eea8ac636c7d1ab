import Mathlib.Data.List.Chain
import SchemaScript.Proofs.Sql.Comments
import SchemaScript.Proofs.Sql.Quoting
import SchemaScript.Proofs.Sql.Reading
import SchemaScript.Proofs.Text.Basic

/-!
# What is written and read back

A name that is quoted where it has to be is read back as itself (`readsName_quoteName`). One that is written as it
is comes back only if it is its own spelling: in lower case, made of the characters of a bare name, and a word that
may be a name (`readsName_iff`).
-/

namespace SchemaScript.Sql

open Reader (nameOf?)

/-! ## Names as they are -/

/-- The first word of the text is the name, and `rest` is what follows. A bare word has to be `allowed` as a name. -/
def ReadsName (allowed : String → Bool) (s : List Char) (name : String) (rest : List Char) : Prop :=
  ∃ token, firstWord s = (s, some (.word token rest)) ∧ nameOf? allowed (some token) = some name

/-- A bare word is folded to this name and not cut. -/
def IsOwnSpelling (name : String) : Prop :=
  IsName name.toList ∧ clipName (name.toList.map Char.toLower) = name

/-- The word is no name. -/
def NamesNothing (allowed : String → Bool) (w : Scanned) : Prop :=
  ∀ token rest, w = .word token rest → nameOf? allowed (some token) = none

section

variable {allowed : String → Bool} {s r rest : List Char} {c d : Char} {name : String}

theorem namesNothing_flawed (cause : Cause) (place : Option (List Char)) :
    NamesNothing allowed (.flawed cause place) := nofun

theorem namesNothing_flawedWord (flaw : WordFlaw) (start rest : List Char) :
    NamesNothing allowed (.flawedWord flaw start rest) := nofun

theorem namesNothing_scanned {α : Type} {flaw : WordFlaw} {start : List Char}
    {word : List α → List Char → Scanned} (h : ∀ content rest, NamesNothing allowed (word content rest))
    (inside : Inside α) : NamesNothing allowed (inside.scanned flaw start word) := by
  cases inside with
  | closed content rest => exact h content rest
  | unclosed => exact namesNothing_flawedWord _ _ _
  | flawed flaw isShown place rest =>
    cases isShown
    · exact nofun
    · exact namesNothing_flawedWord _ _ _

theorem namesNothing_symbol (characters : String) (rest : List Char) :
    NamesNothing allowed (.word (.symbol characters) rest) := by
  rintro _ _ ⟨⟩
  rfl

theorem namesNothing_text (value : String) (rest : List Char) :
    NamesNothing allowed (.word (.text value) rest) := by
  rintro _ _ ⟨⟩
  rfl

theorem namesNothing_integerToken (value : Nat) (written rest : List Char) :
    NamesNothing allowed (.word (integerToken value written) rest) := by
  rintro _ _ ⟨⟩
  unfold integerToken
  split <;> rfl

theorem namesNothing_ite {p : Prop} [Decidable p] {v w : Scanned} (hv : NamesNothing allowed v)
    (hw : NamesNothing allowed w) : NamesNothing allowed (if p then v else w) := by
  split
  · exact hv
  · exact hw

theorem namesNothing_decimalNumber (s : List Char) : NamesNothing allowed (decimalNumber s) := by
  have hnumber (written rest : List Char) :
      NamesNothing allowed (.word (.number (String.ofList written)) rest) := by
    rintro _ _ ⟨⟩
    rfl
  unfold decimalNumber
  dsimp only
  generalize exponentRun _ = exponent
  cases exponent with
  | none => exact namesNothing_flawedWord _ _ _
  | some digits =>
    exact namesNothing_ite (namesNothing_flawedWord _ _ _)
      (namesNothing_ite (namesNothing_integerToken _ _ _) (hnumber _ _))

theorem namesNothing_basedNumber (isDigit : Char → Bool) (base : Nat) (flaw : WordFlaw) (s : List Char) :
    NamesNothing allowed (basedNumber isDigit base flaw s) :=
  namesNothing_ite (namesNothing_flawedWord _ _ _)
    (namesNothing_ite (namesNothing_flawedWord _ _ _) (namesNothing_integerToken _ _ _))

theorem namesNothing_numberWord (s : List Char) : NamesNothing allowed (numberWord s) := by
  unfold numberWord
  split
  · split
    · exact namesNothing_basedNumber _ _ _ _
    split
    · exact namesNothing_basedNumber _ _ _ _
    split
    · exact namesNothing_basedNumber _ _ _ _
    · exact namesNothing_decimalNumber _
  · exact namesNothing_decimalNumber _

theorem namesNothing_dollarWord (s : List Char) : NamesNothing allowed (dollarWord s) := by
  unfold dollarWord
  split
  · split
    · exact namesNothing_symbol _ _
    · split
      · exact namesNothing_text _ _
      · exact namesNothing_flawedWord _ _ _
  · dsimp only
    split
    · rintro _ _ ⟨⟩
      rfl
    · exact namesNothing_flawedWord _ _ _

theorem namesNothing_operatorWord (s : List Char) : NamesNothing allowed (operatorWord s) := by
  unfold operatorWord
  dsimp only
  split
  · exact namesNothing_flawedWord _ _ _
  · exact namesNothing_symbol _ _

theorem namesNothing_byteText (bytes : List Nat) (rest : List Char) : NamesNothing allowed (byteText bytes rest) := by
  unfold byteText
  split
  · exact namesNothing_text _ _
  · exact namesNothing_flawed _ _

/-- What a letter in front of a quote makes of it is no name, unless the quote is left for the next word. -/
theorem letteredWord?_names (allowed : String → Bool) {w : Scanned} (h : letteredWord? s = some w) :
    NamesNothing allowed w ∨ ∃ t, w = .word (.word "nchar") ('\'' :: t) := by
  unfold letteredWord? at h
  split at h
  · dsimp only at h
    split at h
    · obtain rfl := Option.some.inj h
      exact .inl (namesNothing_scanned (fun _ _ => namesNothing_byteText _ _) _)
    split at h
    · obtain rfl := Option.some.inj h
      exact .inl (namesNothing_scanned (fun _ _ => by rintro _ _ ⟨⟩; rfl) _)
    split at h
    · obtain rfl := Option.some.inj h
      exact .inl (namesNothing_scanned (fun _ _ => by rintro _ _ ⟨⟩; rfl) _)
    split at h
    · obtain rfl := Option.some.inj h
      exact .inr ⟨_, rfl⟩
    · contradiction
  · dsimp only at h
    split at h
    · contradiction
    split at h
    · obtain rfl := Option.some.inj h
      exact .inl (namesNothing_scanned (fun _ _ => by rintro _ _ ⟨⟩) _)
    split at h
    · obtain rfl := Option.some.inj h
      left
      unfold quotedWord
      split
      · exact namesNothing_flawedWord _ _ _
      · exact namesNothing_flawedWord _ _ _
      · exact nofun
    · contradiction
  · contradiction

theorem length_of_quotedInside {inner : List Char} (h : quotedInside s = some (inner, rest)) :
    inner.length + rest.length < s.length := by
  fun_induction quotedInside s generalizing inner with
  | case1 => contradiction
  | case2 r ih =>
    obtain ⟨found, hfound, h⟩ := Option.map_eq_some_iff.mp h
    obtain ⟨rfl, rfl⟩ := Prod.mk.inj h
    have := ih hfound
    simp only [List.length_cons]
    omega
  | case3 r =>
    obtain ⟨rfl, rfl⟩ := Prod.mk.inj (Option.some.inj h)
    simp
  | case4 c r hdouble hquote ih =>
    obtain ⟨found, hfound, h⟩ := Option.map_eq_some_iff.mp h
    obtain ⟨rfl, rfl⟩ := Prod.mk.inj h
    have := ih hfound
    simp only [List.length_cons]
    omega

/-- A word at the very front of a text. -/
theorem firstWord_front (hspace : isSpace c = false) (hdash : c ≠ '-') (hslash : c ≠ '/') :
    firstWord (c :: r) = (c :: r, some (nextWord (c :: r))) := by
  rw [← firstWord_blank hspace hdash hslash]
  exact firstWord_congr (afterGap_space rfl (c :: r)).symm

theorem nextWord_of_firstWord {w : Scanned} (h : firstWord s = (s, some w)) :
    w = nextWord s ∨ ∃ flaw start, w = .flawedWord flaw start [] := by
  unfold firstWord at h
  dsimp only at h
  split at h
  · simp at h
  · obtain ⟨-, h⟩ := Prod.mk.inj h
    exact .inr ⟨_, _, (Option.some.inj h).symm⟩
  · obtain ⟨hs, h⟩ := Prod.mk.inj h
    rw [hs] at h
    exact .inl (Option.some.inj h).symm

/-- A word that names something is a bare name or a quoted one. -/
theorem plainWord_names {token : Token} (h : plainWord s = .word token rest)
    (hname : nameOf? allowed (some token) = some name) :
    (s.head?.any isNameStart ∧ bareName s = .word token rest) ∨
      ∃ t inner, s = '"' :: t ∧ quotedInside t = some (inner, rest) ∧ token = .quotedName (clipName inner) := by
  have hnone {w : Scanned} (hw : NamesNothing allowed w) (h : w = .word token rest) : False := by
    rw [hw token rest h] at hname
    contradiction
  unfold plainWord at h
  split at h
  · exact (hnone (namesNothing_symbol _ _) h).elim
  · exact (hnone (namesNothing_scanned (fun _ _ => namesNothing_text _ _) _) h).elim
  · next t =>
    right
    unfold quotedWord at h
    split at h
    · contradiction
    · contradiction
    · next inner r _ hinner =>
      obtain ⟨rfl, rfl⟩ := Scanned.word.inj h
      exact ⟨t, inner, rfl, hinner, rfl⟩
  · exact (hnone (namesNothing_dollarWord _) h).elim
  · exact (hnone (namesNothing_symbol _ _) h).elim
  · exact (hnone (namesNothing_symbol _ _) h).elim
  · exact (hnone (namesNothing_symbol _ _) h).elim
  · exact (hnone (namesNothing_ite (namesNothing_decimalNumber _) (namesNothing_symbol _ _)) h).elim
  · next c t _ _ _ _ _ _ _ =>
    split at h
    · next hc => exact .inl ⟨hc, h⟩
    · exact (hnone (namesNothing_ite (namesNothing_numberWord _)
        (namesNothing_ite (namesNothing_operatorWord _) (namesNothing_symbol _ _))) h).elim

theorem nextWord_of_reads {token : Token} (h : firstWord s = (s, some (.word token rest))) :
    nextWord s = .word token rest := by
  obtain hword | ⟨flaw, start, hword⟩ := nextWord_of_firstWord h
  · exact hword.symm
  · nomatch hword

theorem firstWord_ownSpelling (h : IsOwnSpelling name) (hd : isBreak d) (rest : List Char) :
    firstWord (name.toList ++ d :: rest) = (name.toList ++ d :: rest, some (.word (.word name) (d :: rest))) := by
  obtain ⟨hname, hspelling⟩ := h
  have hword := nextWord_bareName hname hd rest
  rw [hspelling] at hword
  obtain ⟨c, r, hlist, hc⟩ := hname.exists_cons
  rw [hlist, List.cons_append] at hword ⊢
  rw [firstWord_front (isSpace_of_isNameStart hc) (ne_of_isNameStart hc rfl) (ne_of_isNameStart hc rfl), hword]

/-- As it is, a name is read back exactly if it is its own spelling. -/
theorem readsName_iff (hd : isBreak d) :
    ReadsName allowed (name.toList ++ d :: rest) name (d :: rest) ↔ IsOwnSpelling name ∧ allowed name := by
  obtain ⟨hend, hquotes, hquote, -⟩ := isBreak_iff.mp hd
  constructor
  · rintro ⟨token, hword, hname⟩
    have hnext := nextWord_of_reads hword
    rw [nextWord] at hnext
    cases hlettered : letteredWord? (name.toList ++ d :: rest) with
    | some w =>
      rw [hlettered, Option.getD_some] at hnext
      obtain hnone | ⟨t, hnchar⟩ := letteredWord?_names allowed hlettered
      · rw [hnone token _ hnext] at hname
        contradiction
      · rw [hnchar] at hnext
        exact absurd (List.cons.inj (Scanned.word.inj hnext).2).1.symm hquote
    | none =>
      rw [hlettered, Option.getD_none] at hnext
      obtain ⟨hstart, hbare⟩ | ⟨t, inner, hlist, hinner, rfl⟩ := plainWord_names hnext hname
      · obtain ⟨rfl, hrest⟩ := Scanned.word.inj hbare
        have hrun : (name.toList ++ d :: rest).takeWhile isNameContinue = name.toList := by
          have hsplit := List.takeWhile_append_dropWhile (p := isNameContinue) (l := name.toList ++ d :: rest)
          rw [hrest] at hsplit
          exact List.append_cancel_right hsplit
        have hfront : name.toList.head?.any isNameStart := by
          rcases hlist : name.toList with _ | ⟨c, r⟩
          · rw [hlist, List.nil_append, List.head?_cons, Option.any_some] at hstart
            rw [isNameContinue, hstart, Bool.true_or, Bool.true_or] at hend
            contradiction
          · simpa [hlist] using hstart
        have hall : name.toList.all isNameContinue := by
          rw [← hrun, List.all_takeWhile]
        rw [hrun] at hname
        by_cases hallowed : allowed (clipName (name.toList.map Char.toLower))
        · have hspelling : clipName (name.toList.map Char.toLower) = name := by
            simpa [nameOf?, hallowed] using hname
          rw [hspelling] at hallowed
          exact ⟨⟨⟨hfront, hall⟩, hspelling⟩, hallowed⟩
        · simp [nameOf?, hallowed] at hname
      · have hclip : clipName inner = name := by simpa [nameOf?] using hname
        have hshort : name.toList.length ≤ inner.length := by
          rw [← hclip, clipName, String.toList_ofList]
          exact (clip_sublist nameBytes inner).length_le
        have hlength := length_of_quotedInside hinner
        have hall := congrArg List.length hlist
        simp only [List.length_append, List.length_cons] at hall hlength
        omega
  · rintro ⟨hspelling, hallowed⟩
    exact ⟨.word name, firstWord_ownSpelling hspelling hd rest, by simp [nameOf?, hallowed]⟩

/-- A name as a catalog keeps it: not empty, not too long, without the character that ends a text, and on one line
where it stands bare. -/
structure IsKept (name : String) : Prop where
  nonempty : name ≠ ""
  fits : clipName name.toList = name
  noZero : '\x00' ∉ name.toList
  oneLine : isBare name.toList → '\n' ∉ name.toList

/-- The token of a name that is quoted where it has to be. -/
def nameToken (name : String) : Token :=
  if needsQuotes name then .quotedName name else .word name

theorem toNat_of_isBareContinue (h : isBareContinue c) : c.toNat < 128 := by
  simp only [isBareContinue, isBareStart, Char.isDigit, Bool.or_eq_true, Bool.and_eq_true, decide_eq_true_eq,
    beq_iff_eq, Char.le_def, UInt32.le_iff_toNat_le] at h
  rcases h with ((⟨-, h⟩ | rfl) | ⟨-, h⟩) | rfl
  · exact Nat.lt_of_le_of_lt h (by decide)
  · decide
  · exact Nat.lt_of_le_of_lt h (by decide)
  · decide

theorem isBareContinue_facts (h : isBareContinue c) :
    isNameContinue c ∧ c.toLower = c ∧ (isBareStart c → isNameStart c) := by
  have hall : ∀ n < 128, isBareContinue (Char.ofNat n) → isNameContinue (Char.ofNat n) ∧
      (Char.ofNat n).toLower = Char.ofNat n ∧ (isBareStart (Char.ofNat n) → isNameStart (Char.ofNat n)) := by
    decide +kernel
  have hc := hall c.toNat (toNat_of_isBareContinue h)
  rw [Char.ofNat_toNat] at hc
  exact hc h

/-- What may stand without quotes: small letters and underscores, and behind the first also digits and dollars. -/
def IsBareWord (word : List Char) : Prop :=
  word.head?.any isBareStart ∧ word.all isBareContinue

theorem IsBareWord.isBareContinue {word : List Char} (h : IsBareWord word) : ∀ c ∈ word, isBareContinue c :=
  List.all_eq_true.mp h.2

theorem allBareContinue_iff : allBareContinue s ↔
    s.all isBareContinue ∨ ∃ front, front.all isBareContinue ∧ s = front ++ ['\n'] := by
  fun_induction allBareContinue s with
  | case1 => simp
  | case2 => simp
  | case3 c r hlast ih =>
    rw [Bool.and_eq_true, ih, List.all_cons, Bool.and_eq_true, and_or_left]
    refine or_congr_right ⟨?_, ?_⟩
    · rintro ⟨hc, front, hfront, rfl⟩
      exact ⟨c :: front, by rw [List.all_cons, hc, hfront, Bool.and_self], rfl⟩
    · rintro ⟨front, hfront, heq⟩
      rcases front with _ | ⟨d, front⟩
      · obtain ⟨rfl, rfl⟩ := List.cons.inj heq
        exact absurd rfl (hlast rfl)
      · obtain ⟨rfl, rfl⟩ := List.cons.inj heq
        rw [List.all_cons, Bool.and_eq_true] at hfront
        exact ⟨hfront.1, front, hfront.2, rfl⟩

/-- What is taken for bare may have a line break at its end. -/
theorem isBare_iff : isBare s ↔ IsBareWord s ∨ ∃ word, IsBareWord word ∧ s = word ++ ['\n'] := by
  have hstart {c : Char} {r : List Char} : IsBareWord (c :: r) ↔ isBareStart c ∧ r.all isBareContinue := by
    simp +contextual [IsBareWord, isBareContinue]
  rcases s with _ | ⟨c, r⟩
  · simp [isBare, IsBareWord]
  · rw [isBare, Bool.and_eq_true, allBareContinue_iff, hstart, and_or_left]
    refine or_congr_right ⟨?_, ?_⟩
    · rintro ⟨hc, front, hfront, rfl⟩
      exact ⟨c :: front, hstart.mpr ⟨hc, hfront⟩, rfl⟩
    · rintro ⟨word, hword, heq⟩
      rcases word with _ | ⟨d, front⟩
      · simp [IsBareWord] at hword
      · obtain ⟨rfl, rfl⟩ := List.cons.inj heq
        obtain ⟨hd, hfront⟩ := hstart.mp hword
        exact ⟨hd, front, hfront, rfl⟩

theorem isBareContinue_of_mem {s : List Char} (h : isBare s) (hline : '\n' ∉ s) : ∀ c ∈ s, isBareContinue c := by
  rcases isBare_iff.mp h with hword | ⟨word, -, rfl⟩
  · exact hword.isBareContinue
  · exact absurd (by simp) hline

/-- A name as it should be: not empty, at most 63 bytes long, without the character that ends a text and without a line
break at its end. -/
structure IsProperName (name : String) : Prop where
  nonempty : name ≠ ""
  short : name.utf8ByteSize ≤ 63
  noZero : '\x00' ∉ name.toList
  noBreak : name.toList.getLast? ≠ some '\n'

instance (name : String) : Decidable (IsProperName name) :=
  decidable_of_iff (name ≠ "" ∧ name.utf8ByteSize ≤ 63 ∧ '\x00' ∉ name.toList ∧ name.toList.getLast? ≠ some '\n')
    ⟨fun ⟨nonempty, short, noZero, noBreak⟩ => ⟨nonempty, short, noZero, noBreak⟩,
      fun ⟨nonempty, short, noZero, noBreak⟩ => ⟨nonempty, short, noZero, noBreak⟩⟩

theorem clip_eq_self {room : Nat} {s : List Char} (h : (String.ofList s).utf8ByteSize ≤ room) : clip room s = s := by
  induction s generalizing room with
  | nil => rfl
  | cons c s ih =>
    have hsize : (String.ofList (c :: s)).utf8ByteSize = c.utf8Size + (String.ofList s).utf8ByteSize := by
      rw [← List.singleton_append, String.ofList_append, String.utf8ByteSize_append]
      exact congrArg (· + _) String.utf8ByteSize_singleton
    rw [clip, if_pos (by omega), ih (by omega)]

/-- A proper name is kept: only at its end could a bare name have a line break. -/
theorem IsProperName.isKept (h : IsProperName name) : IsKept name where
  nonempty := h.nonempty
  fits := by
    have hshort : (String.ofList name.toList).utf8ByteSize ≤ nameBytes := by
      rw [String.ofList_toList]
      exact h.short
    rw [clipName, clip_eq_self hshort, String.ofList_toList]
  noZero := h.noZero
  oneLine hbare := by
    rcases isBare_iff.mp hbare with hword | ⟨word, -, hname⟩
    · exact fun hmem => absurd (hword.isBareContinue _ hmem) (by decide)
    · exact absurd (by rw [hname, List.getLast?_concat]) h.noBreak

theorem lower_of_isBare (h : isBare name.toList) : Text.lower name = name := by
  have hword {word : List Char} (hword : IsBareWord word) : ∀ c ∈ word, c.toNat < 128 ∧ c.toLower = c := fun c hc =>
    ⟨toNat_of_isBareContinue (hword.isBareContinue c hc), (isBareContinue_facts (hword.isBareContinue c hc)).2.1⟩
  refine Text.lower_eq_self fun c hc => ?_
  rcases isBare_iff.mp h with hbare | ⟨word, hbare, hname⟩
  · exact hword hbare c hc
  · rw [hname, List.mem_append, List.mem_singleton] at hc
    rcases hc with hc | rfl
    · exact hword hbare c hc
    · decide

/-- A name that is written bare is read back as it is. -/
theorem isOwnSpelling_of_isBare (h : IsKept name) (hbare : isBare name.toList) : IsOwnSpelling name := by
  have hcontinue := isBareContinue_of_mem hbare (h.oneLine hbare)
  have hlower : name.toList.map Char.toLower = name.toList :=
    (List.map_congr_left fun c hc => (isBareContinue_facts (hcontinue c hc)).2.1).trans (List.map_id _)
  refine ⟨⟨?_, ?_⟩, by rw [hlower, h.fits]⟩
  · rcases hlist : name.toList with _ | ⟨c, r⟩
    · rw [hlist] at hbare
      contradiction
    · rw [hlist] at hbare hcontinue
      exact (isBareContinue_facts (hcontinue c List.mem_cons_self)).2.2 (Bool.and_eq_true_iff.mp hbare).1
  · exact List.all_eq_true.mpr fun c hc => (isBareContinue_facts (hcontinue c hc)).1

theorem isReserved_of_not_needsQuotes (h : name ≠ "") (hquotes : needsQuotes name = false) :
    isReserved name = false ∧ isBare name.toList := by
  obtain ⟨hreserved, hbare⟩ : isReserved (Text.lower name) = false ∧ isBare name.toList := by
    simpa [needsQuotes, h] using hquotes
  rw [lower_of_isBare hbare] at hreserved
  exact ⟨hreserved, hbare⟩

theorem nameOf?_nameToken (h : name ≠ "") (hallowed : ∀ w, isReserved w = false → allowed w) :
    nameOf? allowed (some (nameToken name)) = some name := by
  unfold nameToken
  split
  · rfl
  · next hquotes =>
    have hname := hallowed name (isReserved_of_not_needsQuotes h (eq_false_of_ne_true hquotes)).1
    simp [nameOf?, hname]

/-- A name that is quoted where it has to be is read back. -/
theorem firstWord_quoteName (h : IsKept name) (hd : isBreak d) (rest : List Char) :
    firstWord ((quoteName name).toList ++ d :: rest) =
      ((quoteName name).toList ++ d :: rest, some (.word (nameToken name) (d :: rest))) := by
  unfold quoteName nameToken
  by_cases hquotes : needsQuotes name
  · rw [if_pos hquotes, if_pos hquotes, quoted, String.toList_ofList, List.cons_append, List.cons_append,
      List.append_assoc, List.singleton_append]
    have hne : name.toList ≠ [] := by simpa using h.nonempty
    rw [firstWord_front rfl (by decide) (by decide), nextWord_quotedName hne (isBreak_iff.mp hd).2.1, h.fits]
  · rw [if_neg hquotes, if_neg hquotes]
    have hbare := (isReserved_of_not_needsQuotes h.nonempty (eq_false_of_ne_true hquotes)).2
    exact firstWord_ownSpelling (isOwnSpelling_of_isBare h hbare) hd rest

theorem readsName_quoteName (h : IsKept name) (hd : isBreak d)
    (hallowed : ∀ w, isReserved w = false → allowed w) :
    ReadsName allowed ((quoteName name).toList ++ d :: rest) name (d :: rest) :=
  ⟨nameToken name, firstWord_quoteName h hd rest, nameOf?_nameToken h.nonempty hallowed⟩

/-- Words that may not name a column or a table are never written bare. -/
theorem isColumnName_of_not_isReserved (w : String) (h : isReserved w = false) : isColumnName w := by
  have hreserved : ∀ w ∈ reservedKeywords ++ functionKeywords, isReserved w := by decide +kernel
  by_contra hcolumn
  have hmem : w ∈ reservedKeywords ++ functionKeywords := by
    simpa [isColumnName, isReservedKeyword, isFunctionKeyword, or_iff_not_imp_left] using hcolumn
  rw [hreserved w hmem] at h
  contradiction

end

/-! ## Paths and texts -/

/-- Names with points between them, each quoted where it has to be. -/
def pathText (path : List String) : String :=
  ".".intercalate (path.map quoteName)

def pointedTokens (names : List String) : List Token :=
  names.flatMap fun name => [.symbol ".", nameToken name]

def pathTokens : List String → List Token
  | [] => []
  | name :: names => nameToken name :: pointedTokens names

section

variable {d : Char} {names path : List String} {rest : List Char} {more : List Token}

theorem toList_pathText_cons (name : String) (names : List String) : (pathText (name :: names)).toList =
    (quoteName name).toList ++ names.flatMap fun n => '.' :: (quoteName n).toList := by
  rw [pathText, List.map_cons, toList_intercalate_cons, List.flatMap_map]
  rfl

/-- Behind a name of a path comes a point, or what follows the path. -/
theorem exists_break (names : List String) (hd : isBreak d) (rest : List Char) :
    ∃ e t, (names.flatMap fun n => '.' :: (quoteName n).toList) ++ d :: rest = e :: t ∧ isBreak e := by
  cases names with
  | nil => exact ⟨d, rest, rfl, hd⟩
  | cons next names => exact ⟨'.', _, rfl, rfl⟩

theorem isDigit_of_isBareStart {c : Char} (h : isBareStart c) : c.isDigit = false := by
  rw [← Bool.not_eq_true]
  intro hdigit
  simp only [isBareStart, Char.isDigit, Bool.or_eq_true, Bool.and_eq_true, decide_eq_true_eq, beq_iff_eq,
    Char.le_def, UInt32.le_iff_toNat_le, ge_iff_le] at h hdigit
  rcases h with ⟨h, -⟩ | rfl
  · exact absurd (Nat.le_trans h hdigit.2) (by decide)
  · exact absurd hdigit.2 (by decide)

theorem scans_pointed (hnames : ∀ n ∈ names, IsKept n) (hd : isBreak d) (hrest : Scans (d :: rest) more) :
    Scans ((names.flatMap fun n => '.' :: (quoteName n).toList) ++ d :: rest) (pointedTokens names ++ more) := by
  induction names with
  | nil => exact hrest
  | cons name names ih =>
    obtain ⟨hname, hnames⟩ := List.forall_mem_cons.mp hnames
    obtain ⟨c, r, hfront, hc⟩ := exists_front hname.nonempty
    have hpoint (s : List Char) : firstWord ('.' :: ((quoteName name).toList ++ s)) =
        ('.' :: ((quoteName name).toList ++ s),
          some (.word (.symbol ".") ((quoteName name).toList ++ s))) := by
      have hfacts : c ≠ '.' ∧ c ≠ '\'' ∧ c ≠ '&' ∧ c.isDigit = false := by
        rcases hc with hc | rfl
        · exact ⟨ne_of_isBareStart hc rfl, ne_of_isBareStart hc rfl, ne_of_isBareStart hc rfl,
            isDigit_of_isBareStart hc⟩
        · decide
      obtain ⟨hpoint, hquote, hand, hdigit⟩ := hfacts
      rw [hfront, List.cons_append, firstWord_front rfl (by decide) (by decide), nextWord,
        letteredWord?_name hquote hand, Option.getD_none, plainWord, if_neg (by simp [hdigit])]
      exact hpoint
    obtain ⟨e, t, htail, he⟩ := exists_break names hd rest
    have hlater := ih hnames
    rw [htail] at hlater
    have hscan := scans_cons (hpoint (e :: t)) (scans_cons (firstWord_quoteName hname he t) hlater)
    simpa [pointedTokens, ← htail] using hscan

theorem scans_path (hnonempty : path ≠ []) (hpath : ∀ n ∈ path, IsKept n) (hd : isBreak d)
    (hrest : Scans (d :: rest) more) :
    Scans ((pathText path).toList ++ d :: rest) (pathTokens path ++ more) := by
  obtain ⟨name, names, rfl⟩ := List.exists_cons_of_ne_nil hnonempty
  obtain ⟨hname, hnames⟩ := List.forall_mem_cons.mp hpath
  have hlater := scans_pointed hnames hd hrest
  obtain ⟨e, t, htail, he⟩ := exists_break names hd rest
  rw [htail] at hlater
  rw [toList_pathText_cons, List.append_assoc, htail]
  exact scans_cons (firstWord_quoteName hname he t) hlater

/-- Blanks in front of a text do not count. -/
theorem Scans.behind_blank {s : List Char} {tokens : List Token} (h : Scans s tokens) :
    Scans (' ' :: s) tokens := by
  rw [← List.singleton_append]
  exact h.behind_gap (afterGap_space rfl s)

theorem toList_literal (text : String) :
    (literal text).toList = '\'' :: (doubleApostrophes text.toList ++ ['\'']) := by
  simp [literal, escapeLiteral, String.toList_append]

theorem scanLiteral_doubleApostrophes (hrest : rest.head? ≠ some '\'') (s : List Char) :
    scanLiteral (doubleApostrophes s ++ '\'' :: rest) = some (s, rest) := by
  induction s with
  | nil =>
    show scanLiteral ('\'' :: rest) = _
    rw [scanLiteral]
    rintro r rfl
    exact hrest rfl
  | cons c s ih =>
    rw [doubleApostrophes]
    split
    · next hc =>
      rw [List.cons_append, List.cons_append, scanLiteral, ih, hc]
      rfl
    · next hc =>
      rw [List.cons_append, scanLiteral, ih]
      · rfl
      · exact fun _ hquote _ => hc hquote
      · exact hc

/-- A text is read back where neither the text nor another line of it goes on. -/
theorem firstWord_literal_of_ends (text : String) (hquote : d ≠ '\'') (hends : continued .line (d :: rest) = none) :
    firstWord ((literal text).toList ++ d :: rest) =
      ((literal text).toList ++ d :: rest, some (.word (.text text) (d :: rest))) := by
  have hlist : (literal text).toList ++ d :: rest = '\'' :: (doubleApostrophes text.toList ++ '\'' :: d :: rest) := by
    simp [toList_literal]
  have hinside (parts : Nat) : Inside.whole (fun s => .ofOption (scanLiteral s)) (parts + 1)
      (doubleApostrophes text.toList ++ '\'' :: d :: rest) = .closed text.toList (d :: rest) := by
    rw [Inside.whole, scanLiteral_doubleApostrophes (by simpa using hquote)]
    dsimp only [Inside.ofOption]
    rw [hends]
  rw [hlist, firstWord_front rfl (by decide) (by decide), nextWord, letteredWord?_other (by decide), Option.getD_none,
    plainWord, plainText, List.length_append, List.length_cons, ← Nat.add_assoc, hinside]
  simp [Inside.scanned, textWord]

/-- A text is read back in front of a character that neither is part of it nor goes on with it. -/
theorem firstWord_literal (text : String) (hd : d ∈ [';', ',', ')']) (rest : List Char) :
    firstWord ((literal text).toList ++ d :: rest) =
      ((literal text).toList ++ d :: rest, some (.word (.text text) (d :: rest))) := by
  have hquote : d ≠ '\'' := by
    rintro rfl
    contradiction
  refine firstWord_literal_of_ends text hquote ?_
  simp only [List.mem_cons, List.not_mem_nil, or_false] at hd
  rcases hd with rfl | rfl | rfl <;> rfl

end

/-! ## Reading a path -/

namespace Reader

section

variable {r : Rules} {names path : List String} {more : List Token} {places : Nat → Nat × String}

theorem nameWith_token {allowed : String → Bool} {token : Token} {name : String}
    (h : nameOf? allowed (some token) = some name) (places : Nat → Nat × String) (more : List Token) :
    nameWith allowed (lexemesAt places (token :: more)) =
      .ok (name, lexemesAt (fun i => places (i + 1)) more) := by
  refine bind_ok rfl ?_
  rw [lexemesAt, List.getElem?_cons_zero, Option.map_some, h]
  rfl

/-- No other name of the path follows. -/
def EndsPath (more : List Token) : Prop :=
  more.head? ≠ some (.symbol ".")

/-- The next name of a path, if a point is in front. -/
def nextLabel : Reader (Option String) := do
  if ← acceptSymbol "." then return some (← label) else return none

theorem nextLabel_some {name : String} (h : name ≠ "") (places : Nat → Nat × String) (more : List Token) :
    nextLabel (lexemesAt places (.symbol "." :: nameToken name :: more)) =
      .ok (some name, lexemesAt (fun i => places (i + 2)) more) := by
  have haccept : acceptSymbol "." (lexemesAt places (.symbol "." :: nameToken name :: more)) =
      .ok (true, lexemesAt (fun i => places (i + 1)) (nameToken name :: more)) := rfl
  exact bind_ok haccept (bind_ok (nameWith_token (nameOf?_nameToken h fun _ _ => rfl) _ more) rfl)

theorem nextLabel_none (h : EndsPath more) : nextLabel (lexemesAt places more) = .ok (none, lexemesAt places more) := by
  cases more with
  | nil => rfl
  | cons token more =>
    have hpoint : (some token == some (Token.symbol ".")) = false := by
      rw [beq_eq_false_iff_ne]
      exact h
    have haccept : acceptSymbol "." (lexemesAt places (token :: more)) =
        .ok (false, lexemesAt places (token :: more)) := by
      refine bind_ok rfl ?_
      rw [lexemesAt, List.getElem?_cons_zero, Option.map_some, hpoint]
      rfl
    exact test_false haccept rfl

theorem length_lexemesAt (places : Nat → Nat × String) (tokens : List Token) :
    (lexemesAt places tokens).length = tokens.length := by
  induction tokens generalizing places with
  | nil => rfl
  | cons token tokens ih => rw [lexemesAt, List.length_cons, ih, List.length_cons]

/-! ### Items one after another -/

section

variable {α β : Type} {next : Reader (Option α)} {tokens : β → List Token} {value : β → α} {items : List β}

/-- The reader takes the item from its words, whatever follows them. -/
def ReadsItem (next : Reader (Option α)) (tokens : List Token) (a : α) : Prop :=
  ∀ places rest, ∃ places', next (lexemesAt places (tokens ++ rest)) = .ok (some a, lexemesAt places' rest)

/-- The reader finds nothing more in front of these words. -/
def EndsItems (next : Reader (Option α)) (more : List Token) : Prop :=
  ∀ places, next (lexemesAt places more) = .ok (none, lexemesAt places more)

theorem repeatUpTo_tokens (hnext : ∀ b ∈ items, ReadsItem next (tokens b) (value b)) (hend : EndsItems next more)
    {limit : Nat} (hlimit : items.length < limit) (places : Nat → Nat × String) (found : List α) :
    ∃ places', repeatUpTo (fun found => do return (← next).map (· :: found)) limit found
        (lexemesAt places (items.flatMap tokens ++ more)) =
      .ok ((items.map value).reverse ++ found, lexemesAt places' more) := by
  induction items generalizing places limit found with
  | nil =>
    obtain ⟨limit, rfl⟩ := Nat.exists_eq_add_one_of_ne_zero (Nat.ne_zero_of_lt hlimit)
    exact ⟨places, bind_ok (bind_ok (hend places) rfl) rfl⟩
  | cons b items ih =>
    obtain ⟨limit, rfl⟩ := Nat.exists_eq_add_one_of_ne_zero (Nat.ne_zero_of_lt hlimit)
    obtain ⟨hb, hnext⟩ := List.forall_mem_cons.mp hnext
    obtain ⟨places', hread⟩ := hb places (items.flatMap tokens ++ more)
    obtain ⟨places'', hlater⟩ := ih hnext (Nat.lt_of_succ_lt_succ hlimit) places' (value b :: found)
    refine ⟨places'', ?_⟩
    rw [List.flatMap_cons, List.append_assoc, List.map_cons, List.reverse_cons, List.append_assoc]
    exact repeatUpTo_some (bind_ok hread rfl) hlater

theorem length_le_length_flatMap (hwords : ∀ b ∈ items, tokens b ≠ []) :
    items.length ≤ (items.flatMap tokens).length := by
  induction items with
  | nil => exact Nat.zero_le _
  | cons b items ih =>
    obtain ⟨hb, hwords⟩ := List.forall_mem_cons.mp hwords
    have hlater := ih hwords
    have := List.length_pos_iff.mpr hb
    rw [List.flatMap_cons, List.length_append, List.length_cons]
    omega

/-- Items are read one after another, up to what ends them. -/
theorem many_tokens (value : β → α) (hnext : ∀ b ∈ items, ReadsItem next (tokens b) (value b))
    (hend : EndsItems next more) (hwords : ∀ b ∈ items, tokens b ≠ []) (places : Nat → Nat × String) :
    ∃ places', many next (lexemesAt places (items.flatMap tokens ++ more)) =
      .ok (items.map value, lexemesAt places' more) := by
  have hlimit : items.length < (lexemesAt places (items.flatMap tokens ++ more)).length + 1 := by
    have hshort := length_le_length_flatMap hwords
    rw [length_lexemesAt, List.length_append]
    omega
  obtain ⟨places', hfound⟩ := repeatUpTo_tokens hnext hend hlimit places []
  refine ⟨places', bind_ok hfound ?_⟩
  rw [List.append_nil, List.reverse_reverse]
  rfl

/-! ### Lists -/

/-- The reader takes an item of a list from its words, in front of the comma or the parenthesis behind it. -/
def ReadsInList (item : Reader α) (tokens : List Token) (a : α) : Prop :=
  ∀ next, next = .symbol "," ∨ next = .symbol ")" → ∀ places more, ∃ places',
    item (lexemesAt places (tokens ++ next :: more)) = .ok (a, lexemesAt places' (next :: more))

variable {item : Reader α}

/-- The next item of a list, if there is one. -/
def nextInList (item : Reader α) : Reader (Option α) := do
  if ← acceptSymbol "," then return some (← item) else return none

/-- Behind an item comes a comma, or the parenthesis that closes the list. -/
theorem exists_behind_item (tokens : β → List Token) (items : List β) (more : List Token) : ∃ next rest,
    (items.flatMap fun b => .symbol "," :: tokens b) ++ .symbol ")" :: more = next :: rest ∧
      (next = .symbol "," ∨ next = .symbol ")") := by
  cases items with
  | nil => exact ⟨_, _, rfl, .inr rfl⟩
  | cons => exact ⟨_, _, rfl, .inl rfl⟩

theorem repeatUpTo_list (hitems : ∀ b ∈ items, ReadsInList item (tokens b) (value b)) {limit : Nat}
    (hlimit : items.length < limit) (places : Nat → Nat × String) (more : List Token) (found : List α) :
    ∃ places', repeatUpTo (fun found => do return (← nextInList item).map (· :: found)) limit found
        (lexemesAt places ((items.flatMap fun b => .symbol "," :: tokens b) ++ .symbol ")" :: more)) =
      .ok ((items.map value).reverse ++ found, lexemesAt places' (.symbol ")" :: more)) := by
  induction items generalizing places limit found with
  | nil =>
    obtain ⟨limit, rfl⟩ := Nat.exists_eq_add_one_of_ne_zero (Nat.ne_zero_of_lt hlimit)
    exact ⟨places, rfl⟩
  | cons b items ih =>
    obtain ⟨limit, rfl⟩ := Nat.exists_eq_add_one_of_ne_zero (Nat.ne_zero_of_lt hlimit)
    obtain ⟨hb, hitems⟩ := List.forall_mem_cons.mp hitems
    obtain ⟨next, rest, hrest, hnext⟩ := exists_behind_item tokens items more
    have hlater (places : Nat → Nat × String) := ih hitems (Nat.lt_of_succ_lt_succ hlimit) places (value b :: found)
    rw [hrest] at hlater
    obtain ⟨places', hread⟩ := hb next hnext (fun i => places (i + 1)) rest
    obtain ⟨places'', hlater⟩ := hlater places'
    refine ⟨places'', ?_⟩
    rw [List.flatMap_cons, List.cons_append, List.cons_append, List.append_assoc, hrest, List.map_cons,
      List.reverse_cons, List.append_assoc]
    have haccept : acceptSymbol "," (lexemesAt places (.symbol "," :: (tokens b ++ next :: rest))) =
        .ok (true, lexemesAt (fun i => places (i + 1)) (tokens b ++ next :: rest)) := rfl
    exact repeatUpTo_some (bind_ok (bind_ok haccept (bind_ok hread rfl)) rfl) hlater

/-- The items of a list are read one after another, up to the parenthesis that closes it. -/
theorem list_items (value : β → α) {first : β}
    (hitems : ∀ b ∈ first :: items, ReadsInList item (tokens b) (value b)) (places : Nat → Nat × String)
    (more : List Token) :
    ∃ places', list item (lexemesAt places
        (tokens first ++ ((items.flatMap fun b => .symbol "," :: tokens b) ++ .symbol ")" :: more))) =
      .ok (value first :: items.map value, lexemesAt places' (.symbol ")" :: more)) := by
  obtain ⟨hfirst, hitems⟩ := List.forall_mem_cons.mp hitems
  obtain ⟨next, rest, hrest, hnext⟩ := exists_behind_item tokens items more
  obtain ⟨places', hfirst⟩ := hfirst next hnext places rest
  rw [← hrest] at hfirst
  have hlimit : items.length < (lexemesAt places'
      ((items.flatMap fun b => .symbol "," :: tokens b) ++ .symbol ")" :: more)).length + 1 := by
    have hshort : items.length ≤ (items.flatMap fun b => Token.symbol "," :: tokens b).length :=
      length_le_length_flatMap fun _ _ => List.cons_ne_nil _ _
    rw [length_lexemesAt, List.length_append]
    omega
  obtain ⟨places'', hothers⟩ := repeatUpTo_list hitems hlimit places' more []
  refine ⟨places'', bind_ok hfirst (bind_ok (bind_ok hothers ?_) rfl)⟩
  rw [List.append_nil, List.reverse_reverse]
  rfl

end

theorem pointedLabels_tokens (hnames : ∀ n ∈ names, n ≠ "") (hmore : EndsPath more) (places : Nat → Nat × String) :
    ∃ places', pointedLabels (lexemesAt places (pointedTokens names ++ more)) =
      .ok (names, lexemesAt places' more) := by
  have hnext : ∀ n ∈ names, ReadsItem nextLabel [.symbol ".", nameToken n] n :=
    fun n hn places rest => ⟨_, nextLabel_some (hnames n hn) places rest⟩
  obtain ⟨places', hread⟩ := many_tokens id hnext (fun _ => nextLabel_none hmore)
    (fun _ _ => List.cons_ne_nil _ _) places
  rw [List.map_id] at hread
  exact ⟨places', hread⟩

theorem anyName_tokens (hnonempty : path ≠ []) (hpath : ∀ n ∈ path, n ≠ "") (hmore : EndsPath more)
    (places : Nat → Nat × String) :
    ∃ places', anyName (lexemesAt places (pathTokens path ++ more)) = .ok (path, lexemesAt places' more) := by
  obtain ⟨name, names, rfl⟩ := List.exists_cons_of_ne_nil hnonempty
  obtain ⟨hname, hnames⟩ := List.forall_mem_cons.mp hpath
  obtain ⟨places', hlabels⟩ := pointedLabels_tokens hnames hmore fun i => places (i + 1)
  have hfirst := nameWith_token (nameOf?_nameToken hname isColumnName_of_not_isReserved) places
    (pointedTokens names ++ more)
  exact ⟨places', bind_ok hfirst (bind_ok hlabels rfl)⟩

/-! ## Reading a comment -/

/-- The words for objects of a kind. -/
def kindWords : CommentKind → List String
  | .extension => ["extension"]
  | .table => ["table"]
  | .view => ["view"]
  | .materializedView => ["materialized", "view"]
  | .sequence => ["sequence"]
  | .type => ["type"]
  | .domain => ["domain"]
  | .function => ["function"]
  | .procedure => ["procedure"]
  | .aggregate => ["aggregate"]
  | .index => ["index"]
  | .column => ["column"]
  | .constraint => ["constraint"]
  | .trigger => ["trigger"]

def kindNaming : CommentKind → Naming
  | .extension => .name
  | .type | .domain => .type
  | .function | .procedure => .routine
  | .aggregate => .aggregate
  | .trigger | .constraint => .onTable
  | _ => .path

theorem outerStatement_comment (places : Nat → Nat × String) (more : List Token) :
    outerStatement r (lexemesAt places (.word "comment" :: .word "on" :: more)) =
      commentStatement r (lexemesAt (fun i => places (i + 2)) more) := by
  refine bind_ok rfl (bind_ok rfl (bind_ok rfl (bind_ok rfl ?_)))
  exact bind_ok rfl rfl

theorem commentStatement_kind {kind : CommentKind} (h : kind ≠ .constraint) (places : Nat → Nat × String)
    (more : List Token) : ∃ places', commentStatement r (lexemesAt places ((kindWords kind).map .word ++ more)) =
      (objectName r (kindNaming kind) >>= fun path => commentText >>= fun text =>
        pure (.comment kind path text)) (lexemesAt places' more) := by
  cases kind with
  | constraint => exact absurd rfl h
  | _ => exact ⟨_, rfl⟩

/-- What stands behind the object: its comment. -/
def remarkTokens (text : String) : List Token :=
  [.word "is", .text text, .symbol ";"]

theorem commentText_tokens (places : Nat → Nat × String) (text : String) :
    commentText (lexemesAt places (remarkTokens text)) =
      .ok (some text, lexemesAt (fun i => places (i + 2)) [.symbol ";"]) := rfl

theorem pathOnTable_tokens (hnonempty : path ≠ []) (hpath : ∀ n ∈ path, n ≠ "") (hmore : EndsPath more)
    {name : String} (hname : name ≠ "") (places : Nat → Nat × String) :
    ∃ places', pathOnTable (lexemesAt places (nameToken name :: .word "on" :: (pathTokens path ++ more))) =
      .ok (path ++ [name], lexemesAt places' more) := by
  obtain ⟨places', hanyName⟩ := anyName_tokens hnonempty hpath hmore fun i => places (i + 2)
  have hfirst := nameWith_token (nameOf?_nameToken hname isColumnName_of_not_isReserved) places
    (.word "on" :: (pathTokens path ++ more))
  exact ⟨places', bind_ok hfirst (bind_ok rfl (bind_ok hanyName rfl))⟩

/-- Behind the first name of a path comes a point, or what follows the path. -/
theorem isColumnNameAhead_path (hnonempty : path ≠ []) (places : Nat → Nat × String) (text : String) :
    isColumnNameAhead 1 (lexemesAt places (pathTokens path ++ remarkTokens text)) =
      .ok (false, lexemesAt places (pathTokens path ++ remarkTokens text)) := by
  obtain ⟨name, names, rfl⟩ := List.exists_cons_of_ne_nil hnonempty
  cases names <;> rfl

/-- A table may be named `domain`. -/
theorem constraintComment_tokens (hnonempty : path ≠ []) (hpath : ∀ n ∈ path, n ≠ "") {name : String}
    (hname : name ≠ "") (places : Nat → Nat × String) (text : String) :
    ∃ places', constraintComment (lexemesAt places (nameToken name :: .word "on" ::
        (pathTokens path ++ remarkTokens text))) =
      .ok (.comment .constraint (path ++ [name]) (some text), lexemesAt places' [.symbol ";"]) := by
  have hmore : EndsPath (remarkTokens text) := by simp [EndsPath, remarkTokens]
  obtain ⟨places', hanyName⟩ := anyName_tokens hnonempty hpath hmore fun i => places (i + 2)
  have hfirst := nameWith_token (nameOf?_nameToken hname isColumnName_of_not_isReserved) places
    (.word "on" :: (pathTokens path ++ remarkTokens text))
  have hahead := isColumnNameAhead_path hnonempty (fun i => places (i + 2)) text
  refine ⟨fun i => places' (i + 2), bind_ok hfirst (bind_ok rfl (bind_ok rfl (bind_ok hahead ?_)))⟩
  rw [Bool.and_false]
  exact bind_ok hanyName (bind_ok (commentText_tokens places' text) rfl)

theorem keywordType_tokens {name : String} {second : Token} (hsecond : second ≠ .word "precision")
    (hname : nameOf? isFunctionName (some (nameToken name)) = some name) (places : Nat → Nat × String)
    (more : List Token) :
    keywordType r true (lexemesAt places (nameToken name :: second :: more)) =
      .ok (none, lexemesAt places (nameToken name :: second :: more)) := by
  unfold nameToken at hname ⊢
  split
  · rfl
  · next hquotes =>
    rw [if_neg hquotes] at hname
    have hfunction : isFunctionName name := by
      by_contra hfunction
      simp [nameOf?, hfunction] at hname
    have hdouble : atWords ["double", "precision"] (lexemesAt places (.word "double" :: second :: more)) =
        .ok (false, lexemesAt places (.word "double" :: second :: more)) := by
      have hne : ([Token.word "double", second] == ["double", "precision"].map Token.word) = false := by
        simp [hsecond]
      exact congrArg (fun b => Except.ok (b, lexemesAt places (.word "double" :: second :: more))) hne
    unfold keywordType
    refine bind_ok rfl ?_
    simp only [lexemesAt, List.getElem?_cons_zero, Option.map_some]
    -- Of the words that begin a keyword's type, only `double` can also name a type.
    split
    all_goals try (exfalso; revert hfunction; decide)
    · exact bind_ok (test_false hdouble rfl) rfl
    · rfl

theorem acceptWord_nameToken {name : String} {w : String} (hw : isFunctionName w = false)
    (hname : nameOf? isFunctionName (some (nameToken name)) = some name) :
    acceptWord w (lexemesAt places (nameToken name :: more)) =
      .ok (false, lexemesAt places (nameToken name :: more)) := by
  have hne : (some (nameToken name) == some (Token.word w)) = false := by
    rw [beq_eq_false_iff_ne]
    intro heq
    rw [heq, nameOf?, hw] at hname
    contradiction
  refine bind_ok rfl ?_
  rw [lexemesAt, List.getElem?_cons_zero, Option.map_some, hne]
  rfl

theorem typeObject_tokens (hnonempty : path ≠ []) (hpath : ∀ n ∈ path, n ≠ "")
    (hfirst : ∀ n ∈ path.head?, nameOf? isFunctionName (some (nameToken n)) = some n) (places : Nat → Nat × String)
    (text : String) : ∃ places', typeObject r (lexemesAt places (pathTokens path ++ remarkTokens text)) =
      .ok (path, lexemesAt places' (remarkTokens text)) := by
  obtain ⟨name, names, rfl⟩ := List.exists_cons_of_ne_nil hnonempty
  have hname := hfirst name rfl
  obtain ⟨-, hnames⟩ := List.forall_mem_cons.mp hpath
  have hmore : EndsPath (remarkTokens text) := by simp [EndsPath, remarkTokens]
  obtain ⟨second, rest, hrest, hsecond⟩ : ∃ second rest,
      pointedTokens names ++ remarkTokens text = second :: rest ∧ second ≠ .word "precision" := by
    cases names with
    | nil => exact ⟨_, _, rfl, by decide⟩
    | cons next names => exact ⟨_, _, rfl, by decide⟩
  obtain ⟨places', hlabels⟩ := pointedLabels_tokens hnames hmore fun i => places (i + 1)
  have hkeyword := keywordType_tokens (r := r) hsecond hname places rest
  rw [← hrest] at hkeyword
  have hfunction := nameWith_token hname places (pointedTokens names ++ remarkTokens text)
  have hsimple : simpleType r (lexemesAt places (pathTokens (name :: names) ++ remarkTokens text)) =
      .ok ({ path := name :: names, modifiers := [] }, lexemesAt places' (remarkTokens text)) :=
    bind_ok hkeyword (bind_ok hfunction (bind_ok hlabels rfl))
  refine ⟨places', bind_ok (bind_ok (acceptWord_nameToken (by decide) hname) (bind_ok hsimple rfl)) rfl⟩

end

end Reader

/-! ## Statements that comment -/

open Reader (Naming kindWords kindNaming remarkTokens)

/-- The words for objects of a kind as they are written. -/
def kindText : CommentKind → String
  | .extension => "EXTENSION"
  | .table => "TABLE"
  | .view => "VIEW"
  | .materializedView => "MATERIALIZED VIEW"
  | .sequence => "SEQUENCE"
  | .type => "TYPE"
  | .domain => "DOMAIN"
  | .function => "FUNCTION"
  | .procedure => "PROCEDURE"
  | .aggregate => "AGGREGATE"
  | .index => "INDEX"
  | .column => "COLUMN"
  | .constraint => "CONSTRAINT"
  | .trigger => "TRIGGER"

/-- How a statement names an object; what belongs to a table is named by the last name of its path. -/
def namingText : Naming → List String → String
  | .onTable, path => quoteName (path.getLastD "") ++ " ON " ++ pathText path.dropLast
  | _, path => pathText path

def namingTokens : Naming → List String → List Token
  | .onTable, path => nameToken (path.getLastD "") :: .word "on" :: pathTokens path.dropLast
  | _, path => pathTokens path

/-- Objects are named by such paths. A routine is named together with its parameters, and a type by a word that may
name one. -/
def IsNamedBy : Naming → List String → Prop
  | .path, path => path ≠ []
  | .name, path => path.length = 1
  | .onTable, path => 2 ≤ path.length
  | .type, path => path ≠ [] ∧ ∀ n ∈ path.head?, nameOf? isFunctionName (some (nameToken n)) = some n
  | _, _ => False

/-- The statement that comments on the object of the kind with that path. -/
def remarkText (kind : CommentKind) (path : List String) (text : String) : String :=
  "COMMENT ON " ++ kindText kind ++ " " ++ namingText (kindNaming kind) path ++ " IS " ++ literal text ++ ";"

-- here and for other texts, an equation by definition is faster than the one that is made for it
theorem remarkText_eq (kind : CommentKind) (path : List String) (text : String) : remarkText kind path text =
    "COMMENT ON " ++ kindText kind ++ " " ++ namingText (kindNaming kind) path ++ " IS " ++ literal text ++ ";" :=
  rfl

def commentTokens (kind : CommentKind) (path : List String) (text : String) : List Token :=
  .word "comment" :: .word "on" ::
    ((kindWords kind).map .word ++ (namingTokens (kindNaming kind) path ++ remarkTokens text))

section

variable {kind : CommentKind} {naming : Naming} {path : List String} {text : String}

theorem IsNamedBy.nonempty (h : IsNamedBy naming path) : path ≠ [] := by
  rintro rfl
  cases naming <;> simp [IsNamedBy] at h

/-- A path of at least two names. -/
theorem exists_of_onTable (h : 2 ≤ path.length) :
    ∃ name, path.getLastD "" = name ∧ path.dropLast ≠ [] ∧ path.dropLast ++ [name] = path := by
  have hne : path ≠ [] := List.ne_nil_of_length_pos (Nat.lt_of_lt_of_le (by decide) h)
  refine ⟨path.getLastD "", rfl, ?_, ?_⟩
  · intro hempty
    have hlength := congrArg List.length hempty
    rw [List.length_dropLast, List.length_nil] at hlength
    omega
  · rw [List.getLastD_eq_getLast?, List.getLast?_eq_some_getLast hne, Option.getD_some,
      List.dropLast_concat_getLast hne]

theorem scans_naming (h : IsNamedBy naming path) (hpath : ∀ n ∈ path, IsKept n) {rest : List Char} {more : List Token}
    (hrest : Scans (' ' :: rest) more) :
    Scans ((namingText naming path).toList ++ ' ' :: rest) (namingTokens naming path ++ more) := by
  cases naming with
  | onTable =>
    obtain ⟨name, hname, htable, hall⟩ := exists_of_onTable h
    have hmem : ∀ n ∈ path.dropLast ++ [name], IsKept n := by rwa [hall]
    have hscans := (scans_path htable (fun n hn => hmem n (List.mem_append_left _ hn)) rfl hrest).behind_blank
    have hon : Scans (' ' :: 'O' :: 'N' :: ' ' :: ((pathText path.dropLast).toList ++ ' ' :: rest))
        (.word "on" :: (pathTokens path.dropLast ++ more)) := scans_cons rfl hscans
    have hfirst := scans_cons (firstWord_quoteName (hmem name (by simp)) rfl _) hon
    have hlist : (namingText .onTable path).toList ++ ' ' :: rest = (quoteName name).toList ++
        ' ' :: 'O' :: 'N' :: ' ' :: ((pathText path.dropLast).toList ++ ' ' :: rest) := by
      rw [namingText, hname]
      simp [String.toList_append]
    rw [hlist, namingTokens, hname]
    exact hfirst
  | _ => exact scans_path h.nonempty hpath rfl hrest

theorem objectName_tokens {r : Rules} (h : IsNamedBy naming path) (hpath : ∀ n ∈ path, n ≠ "")
    (places : Nat → Nat × String) (text : String) :
    ∃ places', Reader.objectName r naming (lexemesAt places (namingTokens naming path ++ remarkTokens text)) =
      .ok (path, lexemesAt places' (remarkTokens text)) := by
  have hmore : Reader.EndsPath (remarkTokens text) := by simp [Reader.EndsPath, remarkTokens]
  cases naming with
  | path => exact Reader.anyName_tokens h hpath hmore places
  | name =>
    obtain ⟨name, rfl⟩ := List.length_eq_one_iff.mp h
    have hname := nameOf?_nameToken (hpath name (by simp)) isColumnName_of_not_isReserved
    exact ⟨_, Reader.bind_ok (Reader.nameWith_token hname places (remarkTokens text)) rfl⟩
  | onTable =>
    obtain ⟨name, hname, htable, hall⟩ := exists_of_onTable h
    have hmem : ∀ n ∈ path.dropLast ++ [name], n ≠ "" := by rwa [hall]
    have hread := Reader.pathOnTable_tokens htable
      (fun n hn => hmem n (List.mem_append_left _ hn)) hmore (hmem name (by simp)) places
    rw [hall] at hread
    rw [namingTokens, hname]
    exact hread
  | type => exact Reader.typeObject_tokens h.1 hpath h.2 places text
  | _ => exact h.elim

theorem scans_remarkText (h : IsNamedBy (kindNaming kind) path) (hpath : ∀ n ∈ path, IsKept n) (text : String) :
    Scans (remarkText kind path text).toList (commentTokens kind path text) := by
  have hend : Scans (' ' :: 'I' :: 'S' :: ' ' :: ((literal text).toList ++ [';'])) (remarkTokens text) :=
    scans_cons rfl (scans_cons (firstWord_literal text (by decide) []) (scans_cons rfl (scans_nil rfl))).behind_blank
  have hfront (s : List Char) : ∃ n, frontWords n (("COMMENT ON " ++ kindText kind).toList ++ ' ' :: s) =
      some (.word "comment" :: .word "on" :: (kindWords kind).map .word, ' ' :: s) := by
    cases kind with
    | materializedView => exact ⟨4, rfl⟩
    | _ => exact ⟨3, rfl⟩
  have hlist : (remarkText kind path text).toList = ("COMMENT ON " ++ kindText kind).toList ++
      ' ' :: ((namingText (kindNaming kind) path).toList ++
        ' ' :: 'I' :: 'S' :: ' ' :: ((literal text).toList ++ [';'])) := by
    simp [remarkText_eq, String.toList_append]
  obtain ⟨n, hn⟩ := hfront ((namingText (kindNaming kind) path).toList ++
    ' ' :: 'I' :: 'S' :: ' ' :: ((literal text).toList ++ [';']))
  rw [hlist]
  exact scans_frontWords hn (scans_naming h hpath hend).behind_blank

theorem outerStatement_commentTokens {r : Rules} (h : IsNamedBy (kindNaming kind) path)
    (hpath : ∀ n ∈ path, n ≠ "") (places : Nat → Nat × String) (text : String) :
    ∃ places', Reader.outerStatement r (lexemesAt places (commentTokens kind path text)) =
      .ok (.comment kind path (some text), lexemesAt places' [.symbol ";"]) := by
  rw [commentTokens, Reader.outerStatement_comment]
  by_cases hkind : kind = .constraint
  · subst hkind
    obtain ⟨name, hname, htable, hall⟩ := exists_of_onTable h
    have hmem : ∀ n ∈ path.dropLast ++ [name], n ≠ "" := by rwa [hall]
    obtain ⟨places', hread⟩ := Reader.constraintComment_tokens htable
      (fun n hn => hmem n (List.mem_append_left _ hn)) (hmem name (by simp)) (fun i => places (i + 3)) text
    rw [hall] at hread
    have haccept : Reader.acceptWord "constraint" (lexemesAt (fun i => places (i + 2))
        (.word "constraint" :: nameToken name :: .word "on" :: (pathTokens path.dropLast ++ remarkTokens text))) =
        .ok (true, lexemesAt (fun i => places (i + 3))
          (nameToken name :: .word "on" :: (pathTokens path.dropLast ++ remarkTokens text))) := rfl
    rw [← hname] at haccept hread
    exact ⟨places', Reader.bind_ok haccept hread⟩
  · obtain ⟨places', hkind⟩ := Reader.commentStatement_kind (r := r) hkind (fun i => places (i + 2))
      (namingTokens (kindNaming kind) path ++ remarkTokens text)
    obtain ⟨places'', hname⟩ := objectName_tokens (r := r) h hpath places' text
    rw [hkind]
    exact ⟨_, Reader.bind_ok hname (Reader.bind_ok (Reader.commentText_tokens places'' text) rfl)⟩

/-- Whether the second token changes the meaning of the first. -/
def isJoinedTo : Token → Token → Bool
  | .word name, .word next => isJoined name next
  | _, _ => false

/-- No token changes the meaning of the one before it. -/
def Unjoined (tokens : List Token) : Prop :=
  tokens.IsChain fun a b => isJoinedTo a b = false

theorem Unjoined.joinAll {tokens : List Token} (h : Unjoined tokens) (places : Nat → Nat × String) :
    Lexeme.joinAll (lexemesAt places tokens) = lexemesAt places tokens := by
  induction tokens generalizing places with
  | nil => rfl
  | cons token tokens ih =>
    cases tokens with
    | nil => rfl
    | cons next tokens =>
      obtain ⟨hfirst, hrest⟩ := List.isChain_cons_cons.mp h
      have hlater := ih hrest fun i => places (i + 1)
      rw [lexemesAt] at hlater
      rw [lexemesAt, lexemesAt, Lexeme.joinAll, hlater]
      cases token <;> cases next <;> first | rfl | (rw [isJoinedTo] at hfirst; simp [hfirst])

/-- The token has no part in such a change, whatever stands next to it. -/
def StandsApart (token : Token) : Prop :=
  ∀ other, isJoinedTo token other = false ∧ isJoinedTo other token = false

theorem standsApart_word {w : String} (h : w ∉ ["format", "not", "nulls", "with", "without", "json", "between",
    "ilike", "in", "like", "similar", "first", "last", "ordinality", "time"]) : StandsApart (.word w) := by
  intro other
  cases other with
  | word other =>
    simp only [isJoinedTo, isJoined]
    constructor <;> split <;> simp_all
  | _ => exact ⟨rfl, rfl⟩

theorem standsApart_symbol (characters : String) : StandsApart (.symbol characters) := by
  rintro (_ | _) <;> exact ⟨rfl, rfl⟩

theorem standsApart_text (text : String) : StandsApart (.text text) := by
  rintro (_ | _) <;> exact ⟨rfl, rfl⟩

theorem StandsApart.cons {token : Token} {tokens : List Token} (h : StandsApart token) (htokens : Unjoined tokens) :
    Unjoined (token :: tokens) :=
  List.isChain_cons.mpr ⟨fun next _ => (h next).1, htokens⟩

/-- What follows does not change the meaning of any token in front of it. -/
def BeginsApart (tokens : List Token) : Prop :=
  Unjoined tokens ∧ ∀ token ∈ tokens.head?, StandsApart token

theorem StandsApart.begins {token : Token} {tokens : List Token} (h : StandsApart token) (htokens : Unjoined tokens) :
    BeginsApart (token :: tokens) :=
  ⟨h.cons htokens, by simpa using h⟩

theorem BeginsApart.behind {tokens : List Token} (h : BeginsApart tokens) (token : Token) :
    Unjoined (token :: tokens) :=
  List.isChain_cons.mpr ⟨fun next hnext => (h.2 next hnext token).2, h.1⟩

theorem beginsApart_pointed (names : List String) {tokens : List Token} (h : BeginsApart tokens) :
    BeginsApart (pointedTokens names ++ tokens) := by
  induction names with
  | nil => exact h
  | cons name names ih => exact (standsApart_symbol ".").begins (ih.behind (nameToken name))

theorem unjoined_path (path : List String) {tokens : List Token} (h : BeginsApart tokens) :
    Unjoined (pathTokens path ++ tokens) := by
  cases path with
  | nil => exact h.1
  | cons name names => exact (beginsApart_pointed names h).behind (nameToken name)

theorem unjoined_commentTokens (kind : CommentKind) (path : List String) (text : String) :
    Unjoined (commentTokens kind path text) := by
  have hremark : BeginsApart (remarkTokens text) :=
    (standsApart_word (by decide)).begins ((standsApart_text text).cons
      ((standsApart_symbol ";").cons (List.isChain_nil)))
  have hnaming : Unjoined (namingTokens (kindNaming kind) path ++ remarkTokens text) := by
    cases kindNaming kind with
    | onTable =>
      have hon : BeginsApart (.word "on" :: (pathTokens path.dropLast ++ remarkTokens text)) :=
        (standsApart_word (by decide)).begins (unjoined_path path.dropLast hremark)
      exact hon.behind (nameToken (path.getLastD ""))
    | _ => exact unjoined_path path hremark
  have hwords (words : List String) (h : ∀ w ∈ words, StandsApart (.word w)) :
      Unjoined (words.map .word ++ (namingTokens (kindNaming kind) path ++ remarkTokens text)) := by
    induction words with
    | nil => exact hnaming
    | cons w words ih =>
      obtain ⟨hw, hwords⟩ := List.forall_mem_cons.mp h
      exact hw.cons (ih hwords)
  have hkind : ∀ w ∈ kindWords kind, StandsApart (.word w) := by
    intro w hw
    refine standsApart_word ?_
    revert w
    cases kind <;> decide
  exact (standsApart_word (by decide)).cons ((standsApart_word (by decide)).cons (hwords _ hkind))

theorem length_quoteName_pos {name : String} (h : name ≠ "") : 0 < (quoteName name).toList.length := by
  obtain ⟨c, r, hfront, -⟩ := exists_front h
  rw [hfront]
  exact Nat.succ_pos _

theorem length_pathTokens_le (hpath : ∀ n ∈ path, n ≠ "") :
    (pathTokens path).length ≤ (pathText path).toList.length := by
  cases path with
  | nil => exact Nat.zero_le _
  | cons name names =>
    obtain ⟨hname, hnames⟩ := List.forall_mem_cons.mp hpath
    have hpointed (names : List String) (hnames : ∀ n ∈ names, n ≠ "") : (pointedTokens names).length ≤
        (names.flatMap fun n => '.' :: (quoteName n).toList).length := by
      induction names with
      | nil => exact Nat.le_refl _
      | cons next names ih =>
        obtain ⟨hnext, hnames⟩ := List.forall_mem_cons.mp hnames
        have hlater := ih hnames
        have := length_quoteName_pos hnext
        rw [pointedTokens] at hlater ⊢
        simp only [List.flatMap_cons, List.length_append, List.length_cons, List.length_nil]
        omega
    have := hpointed names hnames
    have := length_quoteName_pos hname
    rw [pathTokens, List.length_cons, toList_pathText_cons, List.length_append]
    omega

theorem not_mem_quoteName {name : String} {c : Char} (hc : c ≠ '"') (h : c ∉ name.toList) :
    c ∉ (quoteName name).toList := by
  have hdouble (s : List Char) (h : c ∉ s) : c ∉ doubleQuotes s := by
    intro hmem
    obtain ⟨e, he, hmem⟩ := List.mem_flatMap.mp hmem
    split at hmem
    · simp [hc] at hmem
    · obtain rfl := List.mem_singleton.mp hmem
      exact h he
  by_cases hname : name = ""
  · subst hname
    simp [quoteName, needsQuotes]
  rcases quoteName_cases hname with ⟨htext, -⟩ | htext <;> rw [htext]
  · exact h
  · simp [hc, hdouble _ h]

theorem not_mem_pathText {c : Char} (hquote : c ≠ '"') (hpoint : c ≠ '.') (h : ∀ n ∈ path, c ∉ n.toList) :
    c ∉ (pathText path).toList := by
  cases path with
  | nil => simp [pathText]
  | cons name names =>
    obtain ⟨hname, hnames⟩ := List.forall_mem_cons.mp h
    rw [toList_pathText_cons]
    simp only [List.mem_append, List.mem_flatMap, List.mem_cons, not_or, not_exists, not_and]
    exact ⟨not_mem_quoteName hquote hname, fun n hn => ⟨hpoint, not_mem_quoteName hquote (hnames n hn)⟩⟩

theorem not_mem_literal {c : Char} (hc : c ≠ '\'') (h : c ∉ text.toList) : c ∉ (literal text).toList := by
  have hdouble (s : List Char) (h : c ∉ s) : c ∉ doubleApostrophes s := by
    induction s with
    | nil => exact h
    | cons e s ih =>
      obtain ⟨he, hs⟩ := not_or.mp (mt List.mem_cons.mpr h)
      rw [doubleApostrophes]
      split <;> simp [ih hs, hc, he]
  simp [toList_literal, hc, hdouble _ h]

theorem reads_remarkText (h : IsNamedBy (kindNaming kind) path) (hpath : ∀ n ∈ path, IsKept n)
    (htext : '\x00' ∉ text.toList) : Reads (remarkText kind path text).toList (commentTokens kind path text) where
  scans := scans_remarkText h hpath text
  noZero := by
    have hkind : '\x00' ∉ ("COMMENT ON " ++ kindText kind ++ " ").toList := by
      cases kind <;> decide +kernel
    have hliteral : '\x00' ∉ (literal text).toList := not_mem_literal (by decide) htext
    have hnaming : '\x00' ∉ (namingText (kindNaming kind) path).toList := by
      cases hnaming : kindNaming kind with
      | onTable =>
        rw [hnaming] at h
        obtain ⟨name, hname, -, hall⟩ := exists_of_onTable h
        have hmem : ∀ n ∈ path.dropLast ++ [name], '\x00' ∉ n.toList := by
          rw [hall]
          exact fun n hn => (hpath n hn).noZero
        have htable : '\x00' ∉ (pathText path.dropLast).toList :=
          not_mem_pathText (by decide) (by decide) fun n hn => hmem n (List.mem_append_left _ hn)
        have hown := not_mem_quoteName (c := '\x00') (by decide) (hmem name (by simp))
        rw [namingText, hname]
        simp [String.toList_append, hown, htable]
      | _ => exact not_mem_pathText (by decide) (by decide) fun n hn => (hpath n hn).noZero
    rw [remarkText_eq]
    simp only [String.toList_append, List.mem_append, not_or] at hkind ⊢
    exact ⟨⟨⟨⟨hkind, hnaming⟩, by decide⟩, hliteral⟩, by decide⟩
  short := by
    have hnaming :
        (namingTokens (kindNaming kind) path).length ≤ (namingText (kindNaming kind) path).toList.length := by
      cases hnaming : kindNaming kind with
      | onTable =>
        rw [hnaming] at h
        obtain ⟨name, hname, -, hall⟩ := exists_of_onTable h
        have hmem : ∀ n ∈ path.dropLast ++ [name], n ≠ "" := by
          rw [hall]
          exact fun n hn => (hpath n hn).nonempty
        have htable := length_pathTokens_le fun n hn => hmem n (List.mem_append_left _ hn)
        simp only [namingTokens, namingText, String.toList_append, List.length_append, List.length_cons]
        have hon : " ON ".toList.length = 4 := rfl
        omega
      | _ => exact length_pathTokens_le fun n hn => (hpath n hn).nonempty
    have hkind : (kindWords kind).length ≤ 2 := by
      cases kind <;> decide
    simp only [remarkText_eq, commentTokens, remarkTokens, String.toList_append, List.length_append, List.length_cons,
      List.length_map, List.length_nil]
    have hfront : "COMMENT ON ".toList.length = 11 := rfl
    omega

theorem nextStatement_commentTokens {r : Rules} (h : IsNamedBy (kindNaming kind) path) (hpath : ∀ n ∈ path, n ≠ "")
    (places : Nat → Nat × String) (text : String) (found : List Statement) :
    Reader.nextStatement r found (lexemesAt places (commentTokens kind path text)) =
      .ok (some (.comment kind path (some text) :: found), []) := by
  obtain ⟨places', houter⟩ := outerStatement_commentTokens (r := r) h hpath places text
  exact Reader.test_false rfl (Reader.bind_ok rfl (Reader.bind_ok houter rfl))

/-- A statement that comments on an object is read back as that comment. -/
theorem statements_remarkText (h : IsNamedBy (kindNaming kind) path) (hpath : ∀ n ∈ path, IsKept n)
    (htext : '\x00' ∉ text.toList) :
    statements (remarkText kind path text) = .ok [.comment kind path (some text)] := by
  have hreads := reads_remarkText h hpath htext
  obtain ⟨places, hscan⟩ := scan_of_scans hreads.scans hreads.noZero hreads.short
  rw [(unjoined_commentTokens kind path text).joinAll] at hscan
  have hnext := nextStatement_commentTokens (r := Reader.rulesFor (scan (remarkText kind path text))) h
    (fun n hn => (hpath n hn).nonempty) places text []
  have hall : Reader.script (Reader.rulesFor (scan (remarkText kind path text)))
      (lexemesAt places (commentTokens kind path text)) = .ok ([.comment kind path (some text)], []) :=
    Reader.bind_ok (Reader.repeatUpTo_some hnext rfl) rfl
  rw [statements]
  rw [← hscan] at hall
  show Except.bind (Reader.script _ _) _ = _
  rw [hall]
  rfl

end

end SchemaScript.Sql
