import SpendingLedger.Proofs.Text.Digits
import SpendingLedger.Timestamp.Json

/-!
Every instant is read back from its text, signed years and the leap seconds of clocks included. A
leap second that is not counted with second 59 is read as the second that follows, and no text is
read as one.
-/

namespace SpendingLedger

/-! ### What the text of a time tells -/

namespace TimeOfDay

/-- There is no leap second, or it is where clocks have them. -/
def IsRegular (t : TimeOfDay) : Prop := t.nanos < 1000000000 ∨ t.second = 59

instance (t : TimeOfDay) : Decidable t.IsRegular :=
  inferInstanceAs (Decidable (t.nanos < 1000000000 ∨ t.second = 59))

/-- The time with the same text that is read from it: a leap second within a minute has the text of
the second that follows. -/
def asRead (t : TimeOfDay) : TimeOfDay :=
  if h : t.IsRegular then t
  else
    { hour := t.hour, minute := t.minute, second := t.second + 1, nanos := t.nanos - 1000000000
      hour_lt := t.hour_lt, minute_lt := t.minute_lt
      second_lt := by
        have hsecond := t.second_lt
        have hlast : t.second ≠ 59 := fun hlast => h (.inr hlast)
        omega
      nanos_lt := Nat.lt_of_le_of_lt (Nat.sub_le _ _) t.nanos_lt }

theorem asRead_eq_self_iff (t : TimeOfDay) : t.asRead = t ↔ t.IsRegular := by
  constructor
  · intro h
    refine Decidable.byContradiction fun hregular => ?_
    rw [asRead, dif_neg hregular] at h
    have hsecond : t.second + 1 = t.second := congrArg TimeOfDay.second h
    omega
  · intro h
    rw [asRead, dif_pos h]

end TimeOfDay

namespace Timestamp

/-- The instant that the text of this one is read as. -/
def asRead (t : Timestamp) : Timestamp := { t with time := t.time.asRead }

theorem asRead_eq_self_iff (t : Timestamp) : t.asRead = t ↔ t.time.IsRegular := by
  rw [← TimeOfDay.asRead_eq_self_iff]
  constructor
  · exact congrArg Timestamp.time
  · intro h
    rw [asRead, h]

/-- What is read has the same text. -/
theorem print_asRead (t : Timestamp) : t.asRead.print = t.print := by
  by_cases h : t.time.IsRegular
  · rw [t.asRead_eq_self_iff.2 h]
  · obtain ⟨hnanos, -⟩ : 1000000000 ≤ t.time.nanos ∧ t.time.second ≠ 59 := by
      simpa [TimeOfDay.IsRegular] using h
    have hlt := t.time.nanos_lt
    have hdiv : t.time.nanos / 1000000000 = 1 := by omega
    have hrest : (t.time.nanos - 1000000000) / 1000000000 = 0 := by omega
    have hmod : (t.time.nanos - 1000000000) % 1000000000 = t.time.nanos % 1000000000 := by omega
    simp only [print, timeText, asRead, TimeOfDay.asRead, dif_neg h, hdiv, hrest, hmod]

theorem toJson_asRead (t : Timestamp) : t.asRead.toJson = t.toJson := by
  rw [toJson, toText, print_asRead, toJson, toText]

open Text (AllDigits value paddedDigits isBlank trimStart)

/-! ### Numbers -/

theorem isDecimal_eq : isDecimal = Char.isDigit := funext Text.isSome_digit?

theorem valueOf_eq {cs : List Char} (h : AllDigits cs) : valueOf cs = value cs :=
  Text.foldl_filterMap_digit? h 0

theorem trimStart_cons {c : Char} (h : isBlank c = false) (cs : List Char) :
    trimStart (c :: cs) = c :: cs := by
  rw [trimStart, List.dropWhile_cons_of_neg (by simp [h])]

theorem trimStart_digits {cs : List Char} (h : AllDigits cs) (hne : cs ≠ []) (rest : List Char) :
    trimStart (cs ++ rest) = cs ++ rest := by
  obtain ⟨c, cs, rfl⟩ := List.exists_cons_of_ne_nil hne
  exact trimStart_cons (Text.isBlank_of_isDigit (h c List.mem_cons_self)) _

/-- A number is read where as many digits stand as may, or something else follows them. -/
theorem number?_append {k : Nat} {cs rest : List Char} (h : AllDigits cs) (hne : cs ≠ [])
    (hk : cs.length ≤ k) (hrest : cs.length = k ∨ ∀ c ∈ rest.head?, c.isDigit = false) :
    number? k (cs ++ rest) = some (value cs, rest) := by
  have htake : ((cs ++ rest).take k).takeWhile isDecimal = cs := by
    rw [isDecimal_eq, List.take_append, List.take_of_length_le hk]
    refine (Text.takeWhile_allDigits h _ fun c hc => ?_).1
    rcases hrest with heq | hrest
    · rw [heq, Nat.sub_self] at hc
      simp at hc
    · refine hrest c ?_
      rw [List.head?_take] at hc
      split at hc
      · contradiction
      · exact hc
  rw [number?, htake, List.drop_left, valueOf_eq h]
  simp [hne]

theorem pair?_append {n : Nat} (hn : n < 100) (rest : List Char) :
    pair? (paddedDigits 2 n ++ rest) = some (n, rest) := by
  have hall := Text.allDigits_paddedDigits 2 n
  have hne := Text.paddedDigits_ne_nil 2 n
  have hlength := Text.length_paddedDigits (k := 2) (by decide) hn
  rw [pair?, trimStart_digits hall hne, number?_append hall hne (by omega) (.inl hlength),
    Text.value_paddedDigits]

theorem mark?_cons {c : Char} (h : isBlank c = false) (rest : List Char) :
    mark? c (c :: rest) = some rest := by
  rw [mark?, trimStart_cons h]
  simp

/-! ### Dates -/

theorem year?_append {year : Int} (h : year.natAbs < 10 ^ 6) (rest : List Char) :
    year? (yearText year ++ '-' :: rest) = some (year, '-' :: rest) := by
  have hall := Text.allDigits_paddedDigits 4 year.natAbs
  have hne := Text.paddedDigits_ne_nil 4 year.natAbs
  have hvalue := Text.value_paddedDigits 4 year.natAbs
  have hdash : ∀ c ∈ ('-' :: rest).head?, c.isDigit = false := by
    rintro c ⟨⟩
    rfl
  rw [yearText]
  split
  · have hlength := Text.length_paddedDigits (k := 4) (n := year.natAbs) (by decide) (by omega)
    have hnumber := number?_append hall hne (Nat.le_of_eq hlength) (.inr hdash)
    rw [year?, trimStart_digits hall hne]
    split
    · next heq => exact nomatch hall.isDigit_head hne heq
    · next heq => exact nomatch hall.isDigit_head hne heq
    · rw [hnumber, hvalue]
      simp only [Option.bind_eq_bind, Option.bind_some, Option.pure_def, Option.some.injEq,
        Prod.mk.injEq, and_true]
      omega
  · have hnumber := number?_append hall hne
      (k := (paddedDigits 4 year.natAbs ++ '-' :: rest).length)
      (by rw [List.length_append]; omega) (.inr hdash)
    split <;> rw [year?, List.cons_append, trimStart_cons rfl] <;>
      simp only [hnumber, hvalue, Option.bind_eq_bind, Option.bind_some, Option.pure_def,
        Option.some.injEq, Prod.mk.injEq, and_true] <;> omega

theorem daysInMonth_le (year : Int) (month : Nat) : daysInMonth year month ≤ 31 := by
  rw [daysInMonth]
  repeat' split
  all_goals omega

theorem date?_append (d : Date) (rest : List Char) :
    date? (dateText d ++ rest) = some (d, rest) := by
  obtain ⟨year, month, day, hyear, hmonth, hday⟩ := d
  have hdays := daysInMonth_le year month
  rw [dateText, date?]
  simp only [List.append_assoc, List.cons_append]
  rw [year?_append (by omega), Option.bind_eq_bind, Option.bind_some, mark?_cons rfl]
  simp only [Option.bind_eq_bind, Option.bind_some]
  rw [pair?_append (by omega)]
  simp only [Option.bind_some]
  rw [mark?_cons rfl]
  simp only [Option.bind_some]
  rw [pair?_append (by omega)]
  simp only [Option.bind_some]
  rw [Date.of?, dif_pos ⟨hyear, hmonth, hday⟩]
  rfl

/-! ### Times of day -/

/-- The fraction of a second is read to the nanosecond, however few places are written. -/
theorem fraction?_append {nanos : Nat} (h : nanos < 10 ^ 9) (rest : List Char) :
    fraction? (fractionText nanos ++ 'Z' :: rest) = some (nanos, 'Z' :: rest) := by
  have hplaces (width n : Nat) (hwidth : 0 < width) (hle : width ≤ 9) (hn : n < 10 ^ width) :
      fraction? ('.' :: paddedDigits width n ++ 'Z' :: rest) =
        some (n * 10 ^ (9 - width), 'Z' :: rest) := by
    have hall := Text.allDigits_paddedDigits width n
    have hlength := Text.length_paddedDigits hwidth hn
    obtain ⟨htake, hdrop⟩ := Text.takeWhile_allDigits hall ('Z' :: rest) (by
      rintro c ⟨⟩
      rfl)
    have hne : (paddedDigits width n).isEmpty = false := by
      simpa using Text.paddedDigits_ne_nil width n
    rw [List.cons_append, fraction?, isDecimal_eq, htake, hdrop, hlength,
      List.take_of_length_le (by omega), valueOf_eq hall, Text.value_paddedDigits, hne]
    rfl
  rw [fractionText]
  split
  · next hzero => rw [hzero]; rfl
  · split
    · rw [hplaces 3 _ (by decide) (by decide) (by omega)]
      simp only [Option.some.injEq, Prod.mk.injEq, and_true]
      omega
    · split
      · rw [hplaces 6 _ (by decide) (by decide) (by omega)]
        simp only [Option.some.injEq, Prod.mk.injEq, and_true]
        omega
      · rw [hplaces 9 _ (by decide) (by decide) h]
        simp only [Option.some.injEq, Prod.mk.injEq, and_true]
        omega

/-- A fraction that is read is less than a second. -/
theorem fraction?_lt {cs rest : List Char} {nanos : Nat} (h : fraction? cs = some (nanos, rest)) :
    nanos < 10 ^ 9 := by
  rw [fraction?.eq_def] at h
  split at h
  · next rest' =>
    have hall : AllDigits ((rest'.takeWhile isDecimal).take 9) := fun c hc => by
      have hdigits := List.all_eq_true.1 (List.all_takeWhile (p := isDecimal) (l := rest'))
      rw [← isDecimal_eq]
      exact hdigits c (List.mem_of_mem_take hc)
    obtain ⟨-, hnanos, -⟩ := by simpa using h
    calc nanos
        = value ((rest'.takeWhile isDecimal).take 9) *
            10 ^ (9 - (rest'.takeWhile isDecimal).length) := by rw [← hnanos, valueOf_eq hall]
      _ < 10 ^ ((rest'.takeWhile isDecimal).take 9).length *
            10 ^ (9 - (rest'.takeWhile isDecimal).length) :=
          Nat.mul_lt_mul_of_pos_right (Text.value_lt hall) (Nat.pow_pos (by decide))
      _ = 10 ^ 9 := by
          rw [← Nat.pow_add, List.length_take]
          congr 1
          omega
  · cases h
    decide

/-- A leap second, written as the second 60, is read as one. Any other has the text of an ordinary
second, and is read as that one. -/
theorem of?_written (t : TimeOfDay) :
    TimeOfDay.of? t.hour t.minute (t.second + t.nanos / 1000000000) (t.nanos % 1000000000) =
      some t.asRead := by
  have hhour := t.hour_lt
  have hminute := t.minute_lt
  have hsecond := t.second_lt
  have hnanos := t.nanos_lt
  by_cases hless : t.nanos < 1000000000
  · have hdiv : t.nanos / 1000000000 = 0 := Nat.div_eq_of_lt hless
    have hmod : t.nanos % 1000000000 = t.nanos := Nat.mod_eq_of_lt hless
    have hne : t.second ≠ 60 := by omega
    rw [TimeOfDay.asRead, dif_pos (.inl hless)]
    simp [TimeOfDay.of?, hdiv, hmod, hne, hhour, hminute, hsecond, hnanos]
  · have hdiv : t.nanos / 1000000000 = 1 := by omega
    have hmod : t.nanos % 1000000000 = t.nanos - 1000000000 := by omega
    by_cases hlast : t.second = 59
    · have hback : t.nanos - 1000000000 + 1000000000 = t.nanos := by omega
      have hsixty : t.second + 1 = 60 := by omega
      rw [TimeOfDay.asRead, dif_pos (.inr hlast), hdiv, hmod, TimeOfDay.of?]
      simp only [hsixty, ↓reduceIte, hback, ← hlast]
      exact dif_pos ⟨hhour, hminute, hsecond, hnanos⟩
    · have hne : t.second + 1 ≠ 60 := by omega
      have hlt : t.second + 1 < 60 := by omega
      have hrest : t.nanos - 1000000000 < 2000000000 := by omega
      rw [TimeOfDay.asRead, dif_neg (by simp [TimeOfDay.IsRegular, hless, hlast])]
      simp [TimeOfDay.of?, hdiv, hmod, hne, hlt, hrest, hhour, hminute]

theorem time?_append (t : TimeOfDay) (rest : List Char) :
    time? (timeText t ++ 'Z' :: rest) = some (t.asRead, 'Z' :: rest) := by
  have hhour := t.hour_lt
  have hminute := t.minute_lt
  have hsecond := t.second_lt
  have hnanos := t.nanos_lt
  rw [timeText, time?]
  simp only [List.append_assoc, List.cons_append]
  rw [pair?_append (by omega), Option.bind_eq_bind, Option.bind_some, mark?_cons rfl]
  simp only [Option.bind_eq_bind, Option.bind_some]
  rw [pair?_append (by omega)]
  simp only [Option.bind_some]
  rw [mark?_cons rfl]
  simp only [Option.bind_some]
  rw [pair?_append (by omega)]
  simp only [Option.bind_some]
  rw [fraction?_append
    (show t.nanos % 1000000000 < 10 ^ 9 from Nat.mod_lt t.nanos (by decide))]
  simp only [Option.bind_some]
  rw [of?_written]
  rfl

/-- A second 60 is the only leap second that is read, and it follows second 59. -/
theorem isRegular_of_of? {hour minute second nanos : Nat} {t : TimeOfDay} (hnanos : nanos < 10 ^ 9)
    (h : TimeOfDay.of? hour minute second nanos = some t) : t.IsRegular := by
  rw [TimeOfDay.of?] at h
  split at h
  next second' nanos' heq =>
  obtain ⟨_, ⟨⟩⟩ := Option.dite_none_right_eq_some.1 h
  split at heq
  · cases heq
    exact .inr rfl
  · cases heq
    exact .inl hnanos

theorem isRegular_of_time? {cs rest : List Char} {t : TimeOfDay} (h : time? cs = some (t, rest)) :
    t.IsRegular := by
  simp only [time?, Option.bind_eq_bind, Option.bind_eq_some_iff, Option.pure_def,
    Option.some.injEq, Prod.mk.injEq] at h
  obtain ⟨_, -, _, -, _, -, _, -, _, -, ⟨nanos, _⟩, hfraction, _, hof, rfl, -⟩ := h
  exact isRegular_of_of? (fraction?_lt hfraction) hof

/-! ### Instants -/

/-- A clock that is some minutes ahead shows the same seconds. -/
theorem isRegular_of_ofLocal? {date : Date} {time : TimeOfDay} {offset : Int} {t : Timestamp}
    (htime : time.IsRegular) (h : ofLocal? date time offset = some t) : t.time.IsRegular := by
  have hkept {hour minute : Nat} {time' : TimeOfDay}
      (hof : TimeOfDay.of? hour minute time.second time.nanos = some time') : time'.IsRegular := by
    have hne : time.second ≠ 60 := Nat.ne_of_lt time.second_lt
    rw [TimeOfDay.of?, if_neg hne] at hof
    obtain ⟨_, ⟨⟩⟩ := Option.dite_none_right_eq_some.1 hof
    exact htime
  rw [ofLocal?] at h
  simp only [Option.bind_eq_bind, Option.pure_def] at h
  repeat' split at h
  all_goals
    obtain ⟨_, -, time', hof, h⟩ := by simpa only [Option.bind_eq_some_iff] using h
    cases h
    exact hkept hof

/-- What is read from a text is in no leap second, or in one where clocks have them. -/
theorem isRegular_of_read? {cs : List Char} {t : Timestamp} (h : read? cs = some t) :
    t.time.IsRegular := by
  simp only [read?, Option.bind_eq_bind, Option.bind_eq_some_iff] at h
  obtain ⟨⟨_, cs⟩, -, h⟩ := h
  cases cs with
  | nil => contradiction
  | cons c cs =>
    obtain ⟨-, h⟩ := Option.ite_none_right_eq_some.1 h
    simp only [Option.bind_eq_some_iff] at h
    obtain ⟨⟨time, _⟩, htime, ⟨offset, _⟩, -, h⟩ := h
    obtain ⟨-, h⟩ := Option.ite_none_right_eq_some.1 h
    exact isRegular_of_ofLocal? (isRegular_of_time? htime) h

theorem ofLocal?_zero (t : Timestamp) : ofLocal? t.date t.time 0 = some t := by
  obtain ⟨date, ⟨hour, minute, second, nanos, hhour, hminute, hsecond, hnanos⟩⟩ := t
  have hneg : ¬((hour : Int) * 60 + minute - 0 < 0) := by omega
  have hday : (hour : Int) * 60 + minute - 0 < 1440 := by omega
  have hminutes : (((hour : Int) * 60 + minute - 0) % 1440).toNat = hour * 60 + minute := by omega
  have hhours : (hour * 60 + minute) / 60 = hour := by omega
  have hrest : (hour * 60 + minute) % 60 = minute := by omega
  have hne : second ≠ 60 := by omega
  simp only [ofLocal?, hneg, hday, hminutes, hhours, hrest, ↓reduceIte, TimeOfDay.of?, hne,
    Option.bind_eq_bind, Option.bind_some]
  rw [dif_pos ⟨hhour, hminute, hsecond, hnanos⟩]
  rfl

/-- An instant is read back from its text, but for a leap second within a minute. -/
theorem read?_print (t : Timestamp) : read? t.print = some t.asRead := by
  have hoffset : offset? (trimStart ['Z']) = some (0, []) := by
    rw [trimStart_cons rfl]
    rfl
  have hrest : (trimStart ([] : List Char)).isEmpty = true := rfl
  have hprint : t.print = dateText t.date ++ 'T' :: (timeText t.time ++ ['Z']) := by
    rw [print, List.append_assoc, List.cons_append]
  rw [hprint, read?, date?_append]
  simp only [Option.bind_eq_bind, Option.bind_some]
  rw [if_pos (by decide), time?_append]
  simp only [Option.bind_some, hoffset, hrest, ↓reduceIte]
  exact ofLocal?_zero t.asRead

theorem ofScalar_toText (t : Timestamp) : ofScalar (.text t.toText) = .ok t.asRead := by
  have hread : read? t.toText.toList = some t.asRead := by
    rw [toText, String.toList_ofList, read?_print]
  have hstring : (Json.Scalar.text t.toText).string = .ok t.toText := rfl
  simp only [ofScalar, hstring, Bind.bind, Except.bind, hread]
  rfl

end Timestamp

end SpendingLedger
