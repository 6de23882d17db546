import Linework.Storage.Document
import Linework.Proofs.Storage.Calendar

/-!
# `Linework.Proofs.Storage.Naming`: what the names of saved files say

A document without a name is saved under the time. The stamp of a moment writes the numbers of the
moment one after another, the year first, each with as many digits as its place has. Numbers of the
same width are in the order of their texts (`padded_strictMonoOn`), so two stamps are in the order
of the fields (`stamp_append_lt_iff`), and that is the order of time.

The year takes four digits up to 9999. After that it gets a sign and one digit more, and before the
year zero a sign, so the order ends there.

A document with a name is saved under the name with the extension, which is not added twice.
-/

set_option autoImplicit false

namespace Linework

namespace Text

/-- Texts that begin alike long are in the order of their beginnings, or of what follows them. -/
theorem append_lt_append_iff {a b : List Char} (alike : a.length = b.length) (x y : List Char) :
    a ++ x < b ++ y ↔ a < b ∨ a = b ∧ x < y := by
  -- Both beginnings get shorter together, as they are alike long.
  induction a generalizing b with
  | nil =>
    obtain rfl := List.eq_nil_of_length_eq_zero alike.symm
    simp
  | cons c a ih =>
    cases b with
    | nil => cases alike
    | cons d b =>
      simp only [List.cons_append, List.cons_lt_cons_iff, ih (Nat.succ.inj alike), List.cons.injEq]
      tauto

/-- A tail that was put behind a text is cut off again. -/
theorem beforeTail?_append (s tail : String) : beforeTail? tail (s ++ tail) = some s := by
  have ends : tail.toList.isSuffixOf (s ++ tail).toList = true :=
    List.isSuffixOf_iff_suffix.mpr ⟨s.toList, String.toList_append.symm⟩
  rw [beforeTail?, if_pos ends, String.length_append, Nat.add_sub_cancel, String.toList_append,
    ← String.length_toList, List.take_left, String.ofList_toList]

end Text

namespace CivilTime

/-! ## Numbers of one width -/

section Padded

variable {width : Nat}

/-- A number that fits is written with its width. -/
theorem length_padded (pos : 0 < width) {n : Nat} (fits : n < 10 ^ width) :
    (padded width n).length = width := by
  have short : (Nat.toDigits 10 n).length ≤ width :=
    (Nat.length_toDigits_le_iff (by decide) pos).mpr fits
  rw [padded, List.length_append, List.length_replicate]
  omega

/-- The last digit stands behind the others, which are zeros if there are none. -/
theorem padded_succ (pos : 0 < width) (n : Nat) :
    padded (width + 1) n = padded width (n / 10) ++ [(n % 10).digitChar] := by
  unfold padded
  dsimp only
  -- A number of one digit has zeros before it, and any other one the digits of its tenth.
  rcases Nat.lt_or_ge n 10 with one | more
  · obtain ⟨zeros, rfl⟩ := Nat.exists_eq_add_of_lt pos
    rw [Nat.div_eq_of_lt one, Nat.mod_eq_of_lt one, Nat.toDigits_of_lt_base one]
    simp [List.replicate_succ']
  · rw [Nat.toDigits_of_base_le (by decide) more, List.length_append, List.length_singleton,
      Nat.add_sub_add_right, List.append_assoc]

/-- The digits are in the order of their values. -/
theorem digitChar_lt_digitChar : ∀ n < 10, ∀ m < n, m.digitChar < n.digitChar := by
  decide

/-- A smaller number of one width comes first. -/
theorem padded_lt_padded (width : Nat) {m n : Nat} (less : m < n) (fits : n < 10 ^ width) :
    padded width m < padded width n := by
  induction width generalizing m n with
  | zero => omega
  | succ width ih =>
    rcases Nat.eq_zero_or_pos width with rfl | pos
    · -- A number of one digit has none before it, so it is not cut like the longer ones.
      have one : padded 1 m = [m.digitChar] ∧ padded 1 n = [n.digitChar] := by
        rw [padded, padded, Nat.toDigits_of_lt_base (by omega), Nat.toDigits_of_lt_base (by omega)]
        exact ⟨rfl, rfl⟩
      rw [one.1, one.2]
      exact List.cons_lt_cons_iff.mpr (.inl (digitChar_lt_digitChar n fits m less))
    have fits' : n / 10 < 10 ^ width := by omega
    have alike : (padded width (m / 10)).length = (padded width (n / 10)).length := by
      rw [length_padded pos fits', length_padded pos (by omega)]
    rw [padded_succ pos, padded_succ pos, Text.append_lt_append_iff alike]
    -- The digits before the last differ, or they are the same and the last digits differ.
    rcases (Nat.div_le_div_right less.le : m / 10 ≤ n / 10).lt_or_eq with before | same
    · exact .inl (ih before fits')
    · have last := digitChar_lt_digitChar (n % 10) (Nat.mod_lt _ (by decide)) (m % 10) (by omega)
      exact .inr ⟨by rw [same], List.cons_lt_cons_iff.mpr (.inl last)⟩

/-- So numbers of one width are in their order as texts. -/
theorem padded_strictMonoOn (width : Nat) : StrictMonoOn (padded width) (Set.Iio (10 ^ width)) :=
  fun _ _ _ fits less => padded_lt_padded width less fits

/-- Texts that begin with numbers of one width are in the order of the numbers, or of what follows
them. -/
theorem padded_append_lt_iff (pos : 0 < width) {m n : Nat} (fits : m < 10 ^ width)
    (fits' : n < 10 ^ width) (x y : List Char) :
    padded width m ++ x < padded width n ++ y ↔ m < n ∨ m = n ∧ x < y := by
  have alike : (padded width m).length = (padded width n).length := by
    rw [length_padded pos fits, length_padded pos fits']
  have grows := padded_strictMonoOn width
  rw [Text.append_lt_append_iff alike, grows.lt_iff_lt fits fits', grows.injOn.eq_iff fits fits']

end Padded

/-! ## Stamps -/

/-- The year takes four digits and each of the other numbers two. -/
structure FitsStamp (t : CivilTime) : Prop where
  year_nonneg : 0 ≤ t.year
  year_le : t.year ≤ 9999
  month_lt : t.month < 10 ^ 2
  day_lt : t.day < 10 ^ 2
  hour_lt : t.hour < 10 ^ 2
  minute_lt : t.minute < 10 ^ 2
  second_lt : t.second < 10 ^ 2

/-- A year of four digits is written as they are, without a sign. -/
theorem FitsStamp.yearText_eq {t : CivilTime} (fits : t.FitsStamp) :
    yearText t.year = padded 4 t.year.natAbs := by
  rw [yearText, if_neg (by have := fits.year_nonneg; omega),
    if_neg (by have := fits.year_le; omega)]

/-- And it fits four digits. -/
theorem FitsStamp.natAbs_lt {t : CivilTime} (fits : t.FitsStamp) : t.year.natAbs < 10 ^ 4 := by
  have nonneg := fits.year_nonneg
  have le := fits.year_le
  omega

/-- Stamps are in the order of the fields, whatever follows both. -/
theorem stamp_append_lt_iff {t u : CivilTime} (ht : t.FitsStamp) (hu : u.FitsStamp)
    (rest : List Char) :
    t.stamp.toList ++ rest < u.stamp.toList ++ rest ↔ t.fields < u.fields := by
  have four : 0 < 4 := by decide
  have two : 0 < 2 := by decide
  have year : t.year.natAbs < u.year.natAbs ↔ t.year < u.year := by
    have nonneg := ht.year_nonneg
    have nonneg' := hu.year_nonneg
    omega
  have sameYear : t.year.natAbs = u.year.natAbs ↔ t.year = u.year := by
    have nonneg := ht.year_nonneg
    have nonneg' := hu.year_nonneg
    omega
  -- The six numbers are compared from the first on, each with all that follows it.
  simp only [stamp, fields, String.toList_ofList, ht.yearText_eq, hu.yearText_eq,
    List.append_assoc, List.cons_append, List.cons_lt_cons_iff,
    padded_append_lt_iff four ht.natAbs_lt hu.natAbs_lt,
    padded_append_lt_iff two ht.month_lt hu.month_lt, padded_append_lt_iff two ht.day_lt hu.day_lt,
    padded_append_lt_iff two ht.hour_lt hu.hour_lt,
    padded_append_lt_iff two ht.minute_lt hu.minute_lt,
    padded_append_lt_iff two ht.second_lt hu.second_lt, year, sameYear, lt_irrefl, Nat.cast_lt,
    Nat.cast_inj, false_or, true_and]

/-- The moment of an instant has a stamp if its year takes four digits. -/
theorem fitsStamp_ofInstant {i : Instant} (years : (ofInstant i).year ∈ Set.Icc 0 9999) :
    (ofInstant i).FitsStamp := by
  have valid := isValid_ofUnixSeconds i.seconds
  have days := daysInMonth_le (ofUnixSeconds i.seconds).year (ofUnixSeconds i.seconds).month
  have leap : i.leap < 2 := Nat.div_lt_of_lt_mul i.nanos_lt
  exact {
    year_nonneg := years.1
    year_le := years.2
    month_lt := by
      have := valid.month_le
      change (ofUnixSeconds i.seconds).month < 10 ^ 2
      omega
    day_lt := by
      have := valid.day_le
      change (ofUnixSeconds i.seconds).day < 10 ^ 2
      omega
    hour_lt := valid.hour_lt.trans (by decide)
    minute_lt := valid.minute_lt.trans (by decide)
    second_lt := by
      have := valid.second_lt
      change (ofUnixSeconds i.seconds).second + i.leap < 10 ^ 2
      omega }

end CivilTime

/-! ## Names of files -/

/-- Unnamed documents that are saved in years of four digits are in the order of time. -/
theorem saveFileName_lt_iff (extension : String) {s t : Instant}
    (hs : (CivilTime.ofInstant s).year ∈ Set.Icc 0 9999)
    (ht : (CivilTime.ofInstant t).year ∈ Set.Icc 0 9999) :
    saveFileName "" extension s < saveFileName "" extension t ↔ s.wholeSecond < t.wholeSecond := by
  rw [← CivilTime.fields_ofInstant_lt_iff, String.lt_iff_toList_lt]
  simp only [saveFileName, if_true, String.toList_append]
  exact CivilTime.stamp_append_lt_iff (CivilTime.fitsStamp_ofInstant hs)
    (CivilTime.fitsStamp_ofInstant ht) _

/-- They have the same name exactly if they are saved in the same whole second. -/
theorem saveFileName_eq_iff (extension : String) {s t : Instant}
    (hs : (CivilTime.ofInstant s).year ∈ Set.Icc 0 9999)
    (ht : (CivilTime.ofInstant t).year ∈ Set.Icc 0 9999) :
    saveFileName "" extension s = saveFileName "" extension t ↔ s.wholeSecond = t.wholeSecond := by
  -- Names are equal where neither is less than the other, and so are seconds.
  rw [le_antisymm_iff, ← not_lt, ← not_lt, saveFileName_lt_iff extension ht hs,
    saveFileName_lt_iff extension hs ht, not_lt, not_lt, ← le_antisymm_iff]

/-- A name that ends in the extension is kept. -/
theorem saveFileName_of_isSuffix {name extension : String} (named : name ≠ "")
    (carries : ("." ++ extension).toList <:+ name.toList) (now : Instant) :
    saveFileName name extension now = name := by
  rw [saveFileName, if_neg named, if_pos (List.isSuffixOf_iff_suffix.mpr carries)]

/-- A name that does not end in the extension gets it. -/
theorem saveFileName_of_not_isSuffix {name extension : String} (named : name ≠ "")
    (lacks : ¬ ("." ++ extension).toList <:+ name.toList) (now : Instant) :
    saveFileName name extension now = name ++ ("." ++ extension) := by
  rw [saveFileName, if_neg named, if_neg fun carries =>
    lacks (List.isSuffixOf_iff_suffix.mp carries)]

/-- No file has an empty name. -/
theorem saveFileName_ne_empty (name extension : String) (now : Instant) :
    saveFileName name extension now ≠ "" := by
  intro empty
  have ends := isSuffix_saveFileName name extension now
  rw [empty, String.toList_empty, List.suffix_nil] at ends
  simp at ends

/-- The extension is not part of a document's name. -/
theorem documentName_append (name : String) :
    documentName (name ++ ("." ++ documentExtension)) = name := by
  rw [documentName, Text.beforeTail?_append, Option.getD_some]

/-- A name without the extension is the document's name. -/
theorem documentName_of_not_isSuffix {name : String}
    (lacks : ¬ ("." ++ documentExtension).toList <:+ name.toList) : documentName name = name := by
  rw [documentName, Text.beforeTail?, if_neg fun carries =>
    lacks (List.isSuffixOf_iff_suffix.mp carries), Option.getD_none]

/-- A file has the document name that the document was saved under. -/
theorem documentName_saveFileName {name : String} (named : name ≠ "") (now : Instant) :
    documentName (saveFileName name documentExtension now) = documentName name := by
  -- The extension is there already, or it is added now and cut off again.
  by_cases carries : ("." ++ documentExtension).toList <:+ name.toList
  · rw [saveFileName_of_isSuffix named carries]
  · rw [saveFileName_of_not_isSuffix named carries, documentName_append,
      documentName_of_not_isSuffix carries]

/-- Files of documents without a name are in the order of the seconds they were saved in, over all
years of four digits, and have one name only within a second. The file of a document with a name
ends in the extension, is its own file when it is saved again, and has the document's name. -/
theorem saveFileName_ordered_and_stable (extension : String) :
    (∀ s t : Instant, (CivilTime.ofInstant s).year ∈ Set.Icc 0 9999 →
      (CivilTime.ofInstant t).year ∈ Set.Icc 0 9999 →
        (saveFileName "" extension s < saveFileName "" extension t
          ↔ s.wholeSecond < t.wholeSecond) ∧
        (saveFileName "" extension s = saveFileName "" extension t
          ↔ s.wholeSecond = t.wholeSecond)) ∧
    ∀ (name : String) (s t : Instant), name ≠ "" →
      ("." ++ extension).toList <:+ (saveFileName name extension s).toList ∧
      saveFileName (saveFileName name extension s) extension t = saveFileName name extension s ∧
      (extension = "thtm" →
        documentName (saveFileName name extension s) = documentName name) := by
  constructor
  · intro s t hs ht
    exact ⟨saveFileName_lt_iff extension hs ht, saveFileName_eq_iff extension hs ht⟩
  · intro name s t named
    have ends := isSuffix_saveFileName name extension s
    have kept := saveFileName_of_isSuffix (saveFileName_ne_empty name extension s) ends t
    refine ⟨ends, kept, ?_⟩
    rintro rfl
    exact documentName_saveFileName named s

/-- A leap second comes after the second before it, and a name that is the extension alone is
kept. -/
theorem saveFileName_ordered_and_stable_in_leap_second :
    let before : Instant := ⟨1483228799, 999999999, by decide, by decide⟩
    let leap : Instant := ⟨1483228799, 1000000000, by decide, by decide⟩
    (CivilTime.ofInstant before).year ∈ Set.Icc 0 9999 ∧
      (CivilTime.ofInstant leap).year ∈ Set.Icc 0 9999 ∧
      saveFileName "" "thtm" before < saveFileName "" "thtm" leap ∧
      saveFileName "" "thtm" before ≠ saveFileName "" "thtm" leap ∧
      (".thtm" : String) ≠ "" ∧
      saveFileName (saveFileName ".thtm" "thtm" before) "thtm" leap
        = saveFileName ".thtm" "thtm" before ∧
      documentName (saveFileName ".thtm" "thtm" before) = documentName ".thtm" := by
  intro before leap
  have years : (CivilTime.ofInstant before).year ∈ Set.Icc 0 9999 := by decide
  have years' : (CivilTime.ofInstant leap).year ∈ Set.Icc 0 9999 := by decide
  have earlier : before.wholeSecond < leap.wholeSecond := by decide
  have named : (".thtm" : String) ≠ "" := by decide
  obtain ⟨ordered, stable⟩ := saveFileName_ordered_and_stable "thtm"
  obtain ⟨less, same⟩ := ordered before leap years years'
  obtain ⟨-, kept, shown⟩ := stable ".thtm" before leap named
  exact ⟨years, years', less.mpr earlier, fun h => earlier.ne (same.mp h), named, kept, shown rfl⟩

example : saveFileName "" "thtm" ⟨1483228799, 1000000000, by decide, by decide⟩
    = "2016-12-31-23-59-60.thtm" := by
  decide

end Linework
