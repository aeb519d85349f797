import SpendingLedger.Proofs.Timestamp.RoundTrip

/-!
The texts of RFC 3339 itself, with every number at its full width and nothing between the parts.
All of them are read. The reader takes others as well, which are shorter.
-/

namespace SpendingLedger

/-! ### The days around a day -/

namespace Date

theorem isSome_of? {year : Int} {month day : Nat} (hyear : -262143 ≤ year ∧ year ≤ 262142)
    (hmonth : 1 ≤ month ∧ month ≤ 12) (hday : 1 ≤ day ∧ day ≤ daysInMonth year month) :
    (of? year month day).isSome := by
  rw [of?, dif_pos ⟨hyear, hmonth, hday⟩]
  rfl

theorem daysInMonth_pos (year : Int) (month : Nat) : 1 ≤ daysInMonth year month := by
  rw [daysInMonth]
  repeat' split
  all_goals omega

theorem isSome_next? {d : Date} (h : d.year ≤ 9999) : d.next?.isSome := by
  obtain ⟨hlow, hhigh⟩ := d.year_mem
  obtain ⟨hfirst, hlast⟩ := d.month_mem
  simp only [next?, Option.orElse_eq_orElse, Option.orElse_eq_or, Option.isSome_or,
    Bool.or_eq_true]
  by_cases hmonth : d.month = 12
  · exact .inr (.inr (isSome_of? (by omega) (by decide) (by simp [daysInMonth])))
  · exact .inr (.inl (isSome_of? (by omega) (by omega) ⟨Nat.le_refl _, daysInMonth_pos _ _⟩))

theorem isSome_previous? {d : Date} (h : 0 ≤ d.year) : d.previous?.isSome := by
  obtain ⟨hlow, hhigh⟩ := d.year_mem
  obtain ⟨hfirst, hlast⟩ := d.month_mem
  have hday := d.day_mem
  rw [previous?]
  split
  · exact isSome_of? (by omega) (by omega) (by omega)
  · split
    · exact isSome_of? (by omega) (by omega) ⟨daysInMonth_pos _ _, Nat.le_refl _⟩
    · exact isSome_of? (by omega) (by decide) (by simp [daysInMonth])

end Date

namespace Timestamp

open Text (AllDigits paddedDigits trimStart)

/-- A fraction of a second, or none. -/
inductive IsFraction : List Char → Prop
  | none : IsFraction []
  | digits {ds : List Char} (h : AllDigits ds) (hne : ds ≠ []) : IsFraction ('.' :: ds)

/-- An offset from universal time. -/
inductive IsOffset : List Char → Prop
  | zero {mark : Char} (h : mark = 'Z' ∨ mark = 'z') : IsOffset [mark]
  | signed {sign : Char} {hours minutes : Nat} (h : sign = '+' ∨ sign = '-') (hhours : hours < 24)
      (hminutes : minutes < 60) :
    IsOffset (sign :: (paddedDigits 2 hours ++ ':' :: paddedDigits 2 minutes))

/-- A day of the calendar and a time of the clock as RFC 3339 has them. A second may be a leap
second. -/
inductive IsStandard : List Char → Prop
  | intro {date : Date} {mark : Char} {hour minute second : Nat} {fraction offset : List Char}
      (hyear : 0 ≤ date.year ∧ date.year ≤ 9999) (hmark : mark = 'T' ∨ mark = 't' ∨ mark = ' ')
      (hhour : hour < 24) (hminute : minute < 60) (hsecond : second ≤ 60)
      (hfraction : IsFraction fraction) (hoffset : IsOffset offset) :
    IsStandard (dateText date ++ mark :: (paddedDigits 2 hour ++ ':' :: (paddedDigits 2 minute ++
      ':' :: (paddedDigits 2 second ++ (fraction ++ offset)))))

/-! ### Parts -/

theorem twoDigits?_append {n : Nat} (hn : n < 100) (rest : List Char) :
    twoDigits? (paddedDigits 2 n ++ rest) = some (n, rest) := by
  have hall := Text.allDigits_paddedDigits 2 n
  have hvalue := Text.value_paddedDigits 2 n
  have hlength := Text.length_paddedDigits (k := 2) (by decide) hn
  obtain ⟨a, b, hab⟩ : ∃ a b, paddedDigits 2 n = [a, b] := by
    match paddedDigits 2 n, hlength with
    | [a, b], _ => exact ⟨a, b, rfl⟩
  rw [hab] at hall hvalue ⊢
  have ha := Text.digit?_of_isDigit (hall a (by simp))
  have hb := Text.digit?_of_isDigit (hall b (by simp))
  simp only [List.cons_append, List.nil_append, twoDigits?, ha, hb, Option.bind_eq_bind,
    Option.bind_some, Option.pure_def, Option.some.injEq, Prod.mk.injEq, and_true]
  simpa [Text.value, Nat.ofDigitChars_cons] using hvalue

theorem fraction?_standard {fraction rest : List Char} (h : IsFraction fraction)
    (hrest : ∀ c ∈ rest.head?, c.isDigit = false ∧ c ≠ '.') :
    ∃ nanos, fraction? (fraction ++ rest) = some (nanos, rest) := by
  cases h with
  | none =>
    refine ⟨0, ?_⟩
    rw [List.nil_append, fraction?]
    rintro rest' rfl
    exact (hrest '.' rfl).2 rfl
  | @digits ds hall hne =>
    obtain ⟨htake, hdrop⟩ := Text.takeWhile_allDigits hall rest fun c hc => (hrest c hc).1
    refine ⟨valueOf (ds.take 9) * 10 ^ (9 - ds.length), ?_⟩
    rw [List.cons_append, fraction?, isDecimal_eq, htake, hdrop]
    simp [hne]

theorem IsOffset.head {offset : List Char} (h : IsOffset offset) :
    ∀ c ∈ offset.head?, c.isDigit = false ∧ c ≠ '.' ∧ Text.isBlank c = false := by
  cases h with
  | zero h => rcases h with rfl | rfl <;> (rintro c ⟨⟩; decide)
  | signed h _ _ => rcases h with rfl | rfl <;> (rintro c ⟨⟩; decide)

theorem span?_standard {hours minutes : Nat} (hhours : hours < 24) (hminutes : minutes < 60) :
    span? (paddedDigits 2 hours ++ ':' :: paddedDigits 2 minutes) =
      some (hours * 60 + minutes, []) := by
  have hskip : (':' :: paddedDigits 2 minutes).dropWhile (fun c => c == ':' || Text.isBlank c) =
      paddedDigits 2 minutes := by
    obtain ⟨c, cs, hcs⟩ := List.exists_cons_of_ne_nil (Text.paddedDigits_ne_nil 2 minutes)
    have hc : c.isDigit = true := Text.allDigits_paddedDigits 2 minutes c (by simp [hcs])
    have hcolon : c ≠ ':' := by
      rintro rfl
      cases hc
    rw [hcs, List.dropWhile_cons_of_pos (by simp),
      List.dropWhile_cons_of_neg (by simp [hcolon, Text.isBlank_of_isDigit hc])]
  have hminutes? := twoDigits?_append (n := minutes) (by omega) []
  rw [List.append_nil] at hminutes?
  simp only [span?, twoDigits?_append (n := hours) (by omega), Option.bind_eq_bind,
    Option.bind_some, hskip, hminutes?, hhours, hminutes, and_self, ↓reduceIte, Option.pure_def]

theorem offset?_standard {offset : List Char} (h : IsOffset offset) :
    ∃ minutes : Int, offset? (trimStart offset) = some (minutes, []) := by
  cases h with
  | zero h =>
    refine ⟨0, ?_⟩
    rcases h with rfl | rfl <;> rfl
  | @signed sign hours minutes h hhours hminutes =>
    have hspan := span?_standard hhours hminutes
    rcases h with rfl | rfl
    · refine ⟨((hours * 60 + minutes : Nat) : Int), ?_⟩
      rw [trimStart_cons rfl, offset?, hspan]
      rfl
    · refine ⟨-((hours * 60 + minutes : Nat) : Int), ?_⟩
      rw [trimStart_cons rfl, offset?, hspan]
      rfl

/-- Every time of the clock is one, a leap second after any minute included. -/
theorem of?_isSome {hour minute second nanos : Nat} (hhour : hour < 24) (hminute : minute < 60)
    (hsecond : second ≤ 60) (hnanos : nanos < 1000000000) :
    ∃ t, TimeOfDay.of? hour minute second nanos = some t := by
  by_cases hleap : second = 60
  · have htime : hour < 24 ∧ minute < 60 ∧ 59 < 60 ∧ nanos + 1000000000 < 2000000000 :=
      ⟨hhour, hminute, by omega, by omega⟩
    subst hleap
    exact ⟨_, dif_pos htime⟩
  · have htime : hour < 24 ∧ minute < 60 ∧ second < 60 ∧ nanos < 2000000000 :=
      ⟨hhour, hminute, by omega, by omega⟩
    simp only [TimeOfDay.of?, hleap, ↓reduceIte, dif_pos htime]
    exact ⟨_, rfl⟩

/-! ### Instants -/

theorem isSome_ofLocal? {date : Date} (hyear : 0 ≤ date.year ∧ date.year ≤ 9999)
    (time : TimeOfDay) (offset : Int) : (ofLocal? date time offset).isSome := by
  obtain ⟨before, hbefore⟩ := Option.isSome_iff_exists.1 (Date.isSome_previous? hyear.1)
  obtain ⟨after, hafter⟩ := Option.isSome_iff_exists.1 (Date.isSome_next? hyear.2)
  have hsecond : time.second ≠ 60 := Nat.ne_of_lt time.second_lt
  have htime (m : Nat) (hm : m < 1440) : m / 60 < 24 ∧ m % 60 < 60 ∧ time.second < 60 ∧
      time.nanos < 2000000000 :=
    ⟨by omega, by omega, time.second_lt, time.nanos_lt⟩
  simp only [ofLocal?, Option.bind_eq_bind, TimeOfDay.of?, hsecond, ↓reduceIte, hbefore, hafter,
    Option.bind_some]
  rw [dif_pos (htime _ (by omega))]
  split
  · rfl
  · split <;> rfl

/-- Every text of RFC 3339 is read. -/
theorem isSome_read? {cs : List Char} (h : IsStandard cs) : (read? cs).isSome := by
  obtain @⟨date, mark, hour, minute, second, fraction, offset, hyear, hmark, hhour, hminute,
    hsecond, hfraction, hoffset⟩ := h
  have hhead (c : Char) (hc : c ∈ offset.head?) : c.isDigit = false ∧ c ≠ '.' :=
    ⟨(hoffset.head c hc).1, (hoffset.head c hc).2.1⟩
  obtain ⟨nanos, hnanos?⟩ := fraction?_standard hfraction hhead
  obtain ⟨time, htime⟩ := of?_isSome hhour hminute hsecond (fraction?_lt hnanos?)
  obtain ⟨minutes, hoffset?⟩ := offset?_standard hoffset
  have hread : time? (paddedDigits 2 hour ++ ':' :: (paddedDigits 2 minute ++
      ':' :: (paddedDigits 2 second ++ (fraction ++ offset)))) = some (time, offset) := by
    simp only [time?, pair?_append (show hour < 100 by omega),
      pair?_append (show minute < 100 by omega), pair?_append (show second < 100 by omega),
      mark?_cons (show Text.isBlank ':' = false from rfl), hnanos?, htime, Option.bind_eq_bind,
      Option.bind_some, Option.pure_def]
  have hmark' : (mark == 't' || mark == 'T' || mark == ' ') = true := by
    rcases hmark with rfl | rfl | rfl <;> rfl
  simp only [read?, date?_append, Option.bind_eq_bind, Option.bind_some, hmark', ↓reduceIte, hread,
    hoffset?]
  exact isSome_ofLocal? hyear time minutes

theorem IsOffset.length_pos {offset : List Char} (h : IsOffset offset) : 1 ≤ offset.length := by
  cases h <;> simp

/-- A text of RFC 3339 has its full length. -/
theorem IsStandard.length_le {cs : List Char} (h : IsStandard cs) : 20 ≤ cs.length := by
  obtain @⟨date, mark, hour, minute, second, fraction, offset, hyear, hmark, hhour, hminute,
    hsecond, hfraction, hoffset⟩ := h
  have hlength {k n : Nat} : k ≤ (paddedDigits k n).length := by
    rw [paddedDigits, List.length_append, List.length_replicate]
    omega
  have hdate : 10 ≤ (dateText date).length := by
    have hyear4 := hlength (k := 4) (n := date.year.natAbs)
    have hmonth := hlength (k := 2) (n := date.month)
    have hday := hlength (k := 2) (n := date.day)
    simp only [dateText, yearText, hyear, and_self, ↓reduceIte, List.length_append,
      List.length_cons]
    omega
  have hhour2 := hlength (k := 2) (n := hour)
  have hminute2 := hlength (k := 2) (n := minute)
  have hsecond2 := hlength (k := 2) (n := second)
  have hoffset1 := hoffset.length_pos
  simp only [List.length_append, List.length_cons]
  omega

end Timestamp

end SpendingLedger
