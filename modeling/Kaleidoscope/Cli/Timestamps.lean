import Kaleidoscope.Cli.CivilDays
import Kaleidoscope.Library.Traverse

/-!
# Timestamps and instants

A timestamp is read if it has one of two shapes and names a date and a time of day. Its instant is
computed as long as it fits into 64 bits.
-/

namespace Kaleidoscope.Cli

open Calendar Decimal Utf8

/-- A date from 1970 to 9999 and a time of day, with the digits of a fraction of the second. -/
structure Stamp where
  date : Date
  hour : Nat
  minute : Nat
  second : Nat
  fraction : Text
  year_mem : 1970 ≤ date.year ∧ date.year ≤ 9999
  hour_lt : hour < 24
  minute_lt : minute < 60
  second_lt : second < 60
  fraction_digits : IsDigits fraction
  fraction_length : fraction.length ≤ 9

/-- What follows the seconds: a fraction has a point. -/
def ending (fraction : Text) : Text :=
  if fraction = [] then ['Z'] else '.' :: (fraction ++ ['Z'])

/-- `YYYY-MM-DDTHH:MM:SSZ`, or `YYYY-MM-DDTHH:MM:SS.D..DZ` with one to nine digits. -/
def Stamp.text (stamp : Stamp) : Text :=
  fixed 4 stamp.date.year.toNat ++ '-' :: (fixed 2 stamp.date.month ++ '-' ::
    (fixed 2 stamp.date.day ++ 'T' :: (fixed 2 stamp.hour ++ ':' :: (fixed 2 stamp.minute ++ ':' ::
      (fixed 2 stamp.second ++ ending stamp.fraction)))))

/-- The nanoseconds of a fraction of the second. -/
def fractionNanos (fraction : Text) : Nat := value fraction * 10 ^ (9 - fraction.length)

/-- The nanoseconds since midnight. -/
def Stamp.nanosOfDay (stamp : Stamp) : Nat :=
  (stamp.hour * 3600 + stamp.minute * 60 + stamp.second) * 1000000000 +
    fractionNanos stamp.fraction

/-- A timestamp denotes the instant whose day is its date. -/
def Stamp.Denotes (stamp : Stamp) (ns : Nat) : Prop :=
  ∃ days, epoch.after days = stamp.date ∧ ns = days * 86400000000000 + stamp.nanosOfDay

/-- What is read from a timestamp. -/
def Stamp.components (stamp : Stamp) : Components :=
  ⟨stamp.date.year.toNat, stamp.date.month, stamp.date.day, stamp.hour, stamp.minute, stamp.second,
    fractionNanos stamp.fraction⟩

section Reading

variable {bytes : Bytes}

theorem punct_eq_ok_iff {pos : Nat} {c : Char} :
    punct bytes pos c = .ok () ↔ Char.ofNat (bytes.getD pos 0).toNat = c := by
  simp [punct]

theorem inRange_eq_ok_iff {field : String} {value low high : Nat} {u : Unit} :
    inRange field value low high = .ok u ↔ low ≤ value ∧ value ≤ high := by
  rw [inRange]
  split_ifs with h <;> simp [h]

theorem hasFraction_eq_ok_iff {len : Nat} {fraction : Bool} :
    hasFraction len = .ok fraction ↔
      fraction = false ∧ len = 20 ∨ fraction = true ∧ 22 ≤ len ∧ len ≤ 30 := by
  rw [hasFraction]
  split_ifs with hplain hlong
  · simp [hplain, eq_comm]
  · simp [hplain, hlong, eq_comm]
  · simp [hplain]
    omega

/-- Digits are read one by one. -/
theorem accumulate_asBytes {t : Text} (h : IsDigits t) (acc pos : Nat) :
    accumulate acc pos (asBytes t) = .ok (Nat.ofDigitChars 10 t acc) := by
  rw [asBytes_digits h]
  induction t generalizing acc pos with
  | nil => rfl
  | cons c t ih =>
    have hc := isDigit_iff.mp (h c List.mem_cons_self)
    have hbyte : (UInt8.ofNat c.toNat).toNat = c.toNat := by
      rw [UInt8.toNat_ofNat']
      omega
    rw [List.map_cons, accumulate, hbyte, if_pos hc,
      ih (fun d hd => h d (List.mem_cons_of_mem c hd)), Nat.ofDigitChars_cons, Nat.mul_comm 10]
    rfl

/-- Nothing else is read. -/
theorem accumulate_eq_ok {acc pos n : Nat} (h : accumulate acc pos bytes = .ok n) :
    ∃ t, IsDigits t ∧ bytes = asBytes t ∧ n = Nat.ofDigitChars 10 t acc := by
  induction bytes generalizing acc pos with
  | nil =>
    cases h
    exact ⟨[], List.forall_mem_nil _, rfl, rfl⟩
  | cons b bytes ih =>
    rw [accumulate] at h
    split_ifs at h with hdigit
    · obtain ⟨t, ht, rfl, rfl⟩ := ih h
      have hchar := toNat_ofNat_byte b
      have hencode := asBytes_singleton (c := Char.ofNat b.toNat) (by omega)
      rw [hchar, UInt8.ofNat_toNat] at hencode
      refine ⟨Char.ofNat b.toNat :: t, ?_, ?_, ?_⟩
      · rintro c (_ | ⟨_, hc⟩)
        · exact isDigit_iff.mpr (by rwa [hchar])
        · exact ht c hc
      · rw [← List.singleton_append (l := t), asBytes_append, hencode]
        rfl
      · rw [Nat.ofDigitChars_cons, hchar, Nat.mul_comm 10]
        rfl

/-- What was read up to a position goes on with the digits that are read there. -/
theorem take_digits {first last n : Nat} {s : Text} (hs : bytes.take first = asBytes s)
    (hle : first ≤ last) (hlast : last ≤ bytes.length) (h : digits bytes first last = .ok n) :
    ∃ t, IsDigits t ∧ t.length = last - first ∧ value t = n ∧
      bytes.take last = asBytes (s ++ t) := by
  obtain ⟨t, ht, hslice, hn⟩ := accumulate_eq_ok h
  refine ⟨t, ht, ?_, hn.symm, ?_⟩
  · have hlength := congrArg List.length hslice
    rw [List.length_drop, List.length_take_of_le hlast, asBytes_digits ht, List.length_map]
      at hlength
    exact hlength.symm
  · calc
      bytes.take last = (bytes.take last).take first ++ (bytes.take last).drop first :=
        (List.take_append_drop _ _).symm
      _ = asBytes (s ++ t) := by
        rw [List.take_take, min_eq_left hle, hs, hslice, asBytes_append]

/-- It goes on with a character that is found there. -/
theorem take_punct {pos : Nat} {c : Char} {s : Text} (hs : bytes.take pos = asBytes s)
    (hpos : pos < bytes.length) (hc : c.toNat < 128) (h : punct bytes pos c = .ok ()) :
    bytes.take (pos + 1) = asBytes (s ++ [c]) := by
  rw [punct_eq_ok_iff, List.getD_eq_getElem?_getD, List.getElem?_eq_getElem hpos,
    Option.getD_some] at h
  have hbyte : bytes[pos] = UInt8.ofNat c.toNat := by
    rw [← h, toNat_ofNat_byte, UInt8.ofNat_toNat]
  rw [List.take_succ_eq_append_getElem hpos, hs, hbyte, asBytes_append, asBytes_singleton hc]

/-- Digits that stand at a position are read. -/
theorem digits_of_drop {first last : Nat} {t rest : Text}
    (h : bytes.drop first = asBytes (t ++ rest)) (ht : IsDigits t)
    (hlength : first + t.length = last) :
    digits bytes first last = .ok (value t) ∧ bytes.drop last = asBytes rest := by
  have hencoded : (asBytes t).length = t.length := by rw [asBytes_digits ht, List.length_map]
  rw [asBytes_append] at h
  constructor
  · have hslice : (bytes.take last).drop first = asBytes t := by
      rw [List.drop_take, h, ← hlength, Nat.add_sub_cancel_left, ← hencoded, List.take_left]
    rw [digits, hslice, accumulate_asBytes ht, value]
  · rw [← hlength, ← List.drop_drop, h, ← hencoded, List.drop_left]

/-- A number that stands at a position is read. -/
theorem fixed_of_drop {first width last n : Nat} {rest : Text}
    (h : bytes.drop first = asBytes (fixed width n ++ rest)) (hwidth : 0 < width)
    (hn : n < 10 ^ width) (hlast : first + width = last) :
    digits bytes first last = .ok n ∧ bytes.drop last = asBytes rest := by
  have hread := digits_of_drop h (isDigits_fixed width n)
    (hlast ▸ congrArg (first + ·) (length_fixed hwidth hn))
  rwa [value_fixed] at hread

/-- A character that stands at a position is found. -/
theorem punct_of_drop {pos : Nat} {c : Char} {rest : Text}
    (h : bytes.drop pos = asBytes (c :: rest)) (hc : c.toNat < 128) :
    punct bytes pos c = .ok () ∧ bytes.drop (pos + 1) = asBytes rest := by
  rw [← List.singleton_append, asBytes_append, asBytes_singleton hc, List.singleton_append] at h
  constructor
  · have hget : bytes.getD pos 0 = UInt8.ofNat c.toNat := by
      rw [List.getD_eq_getElem?_getD, ← List.head?_drop, h]
      rfl
    rw [punct_eq_ok_iff, hget, UInt8.toNat_ofNat', Nat.mod_eq_of_lt (by omega), Char.ofNat_toNat]
  · rw [← List.drop_drop, h]
    rfl

/-- The checks succeed together. -/
theorem readComponents_eq_ok_iff {c : Components} :
    readComponents bytes = .ok c ↔ ∃ fraction, hasFraction bytes.length = .ok fraction ∧
      (punct bytes 4 '-' = .ok () ∧ punct bytes 7 '-' = .ok () ∧ punct bytes 10 'T' = .ok () ∧
        punct bytes 13 ':' = .ok () ∧ punct bytes 16 ':' = .ok () ∧
          punctEnd bytes fraction = .ok ()) ∧
      (digits bytes 0 4 = .ok c.year ∧ digits bytes 5 7 = .ok c.month ∧
        digits bytes 8 10 = .ok c.day ∧ digits bytes 11 13 = .ok c.hour ∧
          digits bytes 14 16 = .ok c.minute ∧ digits bytes 17 19 = .ok c.second ∧
            fractionalNanos bytes fraction = .ok c.fractionalNanos) ∧
      (1970 ≤ c.year ∧ c.year ≤ 9999) ∧ (1 ≤ c.month ∧ c.month ≤ 12) ∧
        (1 ≤ c.day ∧ c.day ≤ daysInMonth c.year c.month) ∧ c.hour ≤ 23 ∧ c.minute ≤ 59 ∧
          c.second ≤ 59 := by
  simp only [readComponents, Traverse.bind_eq_ok_iff, inRange_eq_ok_iff, Nat.zero_le, true_and,
    exists_const]
  constructor
  · rintro ⟨fraction, hfraction, _, h4, _, h7, _, h10, _, h13, _, h16, _, hend, _, hyear, _, hmonth,
      _, hday, _, hhour, _, hminute, _, hsecond, hyears, hmonths, hdays, hhours, hminutes,
      hseconds, _, hnanos, h⟩
    cases h
    exact ⟨fraction, hfraction, ⟨h4, h7, h10, h13, h16, hend⟩,
      ⟨hyear, hmonth, hday, hhour, hminute, hsecond, hnanos⟩, hyears, hmonths, hdays, hhours,
      hminutes, hseconds⟩
  · rintro ⟨fraction, hfraction, ⟨h4, h7, h10, h13, h16, hend⟩,
      ⟨hyear, hmonth, hday, hhour, hminute, hsecond, hnanos⟩, hyears, hmonths, hdays, hhours,
      hminutes, hseconds⟩
    exact ⟨fraction, hfraction, _, h4, _, h7, _, h10, _, h13, _, h16, _, hend, _, hyear, _, hmonth,
      _, hday, _, hhour, _, hminute, _, hsecond, hyears, hmonths, hdays, hhours, hminutes,
      hseconds, _, hnanos, rfl⟩

/-- What was read up to the end of the seconds goes on with one of the two endings. -/
theorem take_ending {fraction : Bool} {n : Nat} {s : Text} (hs : bytes.take 19 = asBytes s)
    (hfraction : hasFraction bytes.length = .ok fraction)
    (hend : punctEnd bytes fraction = .ok ()) (hnanos : fractionalNanos bytes fraction = .ok n) :
    ∃ t, IsDigits t ∧ t.length ≤ 9 ∧ fractionNanos t = n ∧ bytes = asBytes (s ++ ending t) := by
  rcases hasFraction_eq_ok_iff.mp hfraction with ⟨rfl, hlen⟩ | ⟨rfl, hlen⟩
  · have htake := take_punct hs (by omega) (by decide) hend
    rw [List.take_of_length_le (by omega)] at htake
    cases hnanos
    exact ⟨[], List.forall_mem_nil _, Nat.zero_le _, rfl, htake⟩
  · simp only [punctEnd, if_true, Traverse.bind_eq_ok_iff] at hend
    obtain ⟨_, hpoint, hzone⟩ := hend
    have hpoint := take_punct hs (by omega) (by decide) hpoint
    cases hdigits : digits bytes 20 (bytes.length - 1) with
    | error e =>
      simp only [fractionalNanos, if_true, hdigits] at hnanos
      cases hnanos
    | ok acc =>
      simp only [fractionalNanos, if_true, hdigits] at hnanos
      cases hnanos
      obtain ⟨t, ht, hlength, hvalue, htake⟩ :=
        take_digits hpoint (by omega) (Nat.sub_le _ _) hdigits
      have hzone := take_punct htake (by omega) (by decide) hzone
      rw [List.take_of_length_le (by omega)] at hzone
      have hne : t ≠ [] := List.length_pos_iff.mp (by omega)
      refine ⟨t, ht, by omega, by rw [fractionNanos, hvalue, hlength], ?_⟩
      rw [hzone, ending, if_neg hne]
      simp only [List.append_assoc, List.cons_append, List.nil_append]

/-- Each of the two endings is read. -/
theorem ending_of_drop {t : Text} (h : bytes.drop 19 = asBytes (ending t)) (ht : IsDigits t)
    (hlength : t.length ≤ 9) :
    ∃ fraction, hasFraction bytes.length = .ok fraction ∧ punctEnd bytes fraction = .ok () ∧
      fractionalNanos bytes fraction = .ok (fractionNanos t) := by
  have hencoded : (asBytes t).length = t.length := by rw [asBytes_digits ht, List.length_map]
  have hlen := congrArg List.length h
  rw [List.length_drop] at hlen
  rw [ending] at h hlen
  split_ifs at h hlen with hempty
  · subst hempty
    rw [asBytes_singleton (by decide), List.length_singleton] at hlen
    exact ⟨false, hasFraction_eq_ok_iff.mpr (.inl ⟨rfl, by omega⟩),
      (punct_of_drop h (by decide)).1, rfl⟩
  · have hpos := List.length_pos_iff.mpr hempty
    rw [← List.singleton_append, asBytes_append, asBytes_append, asBytes_singleton (by decide),
      asBytes_singleton (by decide), List.length_append, List.length_append, hencoded,
      List.length_singleton, List.length_singleton] at hlen
    obtain ⟨hpoint, h⟩ := punct_of_drop h (by decide)
    have hplace : 20 + t.length = bytes.length - 1 := by omega
    obtain ⟨hdigits, h⟩ := digits_of_drop h ht hplace
    have hzone := (punct_of_drop h (by decide)).1
    refine ⟨true, hasFraction_eq_ok_iff.mpr (.inr ⟨rfl, by omega⟩), ?_, ?_⟩
    · simp only [punctEnd, if_true, Traverse.bind_eq_ok_iff]
      exact ⟨(), hpoint, hzone⟩
    · have hplaces : bytes.length - 1 - 20 = t.length := by omega
      simp only [fractionalNanos, if_true, hdigits, hplaces]
      rfl

end Reading

theorem isLeapYear_iff (year : Nat) : isLeapYear year = true ↔ IsLeap year := by
  simp only [isLeapYear, IsLeap, Bool.or_eq_true, Bool.and_eq_true, beq_iff_eq, bne_iff_ne]
  omega

/-- The days of a month are those of the calendar. -/
theorem daysInMonth_eq (year : Nat) {month : Nat} (h : 1 ≤ month ∧ month ≤ 12) :
    daysInMonth year month = daysIn year month := by
  obtain ⟨hpos, hle⟩ := h
  interval_cases month
  case «2» =>
    simp only [daysInMonth, daysIn, isLeapYear_iff, if_true]
  all_goals rfl

/-- What is read is a timestamp. -/
theorem stamp_of_readComponents {s : Text} {c : Components}
    (h : readComponents (asBytes s) = .ok c) :
    ∃ stamp : Stamp, s = stamp.text ∧ c = stamp.components := by
  obtain ⟨fraction, hfraction, ⟨h4, h7, h10, h13, h16, hend⟩,
    ⟨hyear, hmonth, hday, hhour, hminute, hsecond, hnanos⟩, hyears, hmonths, hdays, hhours,
    hminutes, hseconds⟩ := readComponents_eq_ok_iff.mp h
  have hlen : 20 ≤ (asBytes s).length := by
    rcases hasFraction_eq_ok_iff.mp hfraction with ⟨-, hlen⟩ | ⟨-, hlen⟩ <;> omega
  obtain ⟨year, hyearDigits, hyearLength, hyear, htake⟩ :=
    take_digits (s := []) rfl (Nat.zero_le 4) (by omega) hyear
  have htake := take_punct htake (by omega) (by decide) h4
  obtain ⟨month, hmonthDigits, hmonthLength, hmonth, htake⟩ :=
    take_digits htake (by omega) (by omega) hmonth
  have htake := take_punct htake (by omega) (by decide) h7
  obtain ⟨day, hdayDigits, hdayLength, hday, htake⟩ :=
    take_digits htake (by omega) (by omega) hday
  have htake := take_punct htake (by omega) (by decide) h10
  obtain ⟨hour, hhourDigits, hhourLength, hhour, htake⟩ :=
    take_digits htake (by omega) (by omega) hhour
  have htake := take_punct htake (by omega) (by decide) h13
  obtain ⟨minute, hminuteDigits, hminuteLength, hminute, htake⟩ :=
    take_digits htake (by omega) (by omega) hminute
  have htake := take_punct htake (by omega) (by decide) h16
  obtain ⟨second, hsecondDigits, hsecondLength, hsecond, htake⟩ :=
    take_digits htake (by omega) (by omega) hsecond
  obtain ⟨t, ht, htLength, hnanos, hbytes⟩ := take_ending htake hfraction hend hnanos
  -- Each run of digits is the text of the number that it writes.
  have hfixed {width n : Nat} {u : Text} (hu : IsDigits u) (hlength : u.length = width + 1)
      (hvalue : value u = n) : u = fixed (width + 1) n := by
    rw [← hvalue, ← hlength, fixed_value hu (List.ne_nil_of_length_eq_add_one hlength)]
  have htext : s = fixed 4 c.year ++ '-' :: (fixed 2 c.month ++ '-' :: (fixed 2 c.day ++ 'T' ::
      (fixed 2 c.hour ++ ':' :: (fixed 2 c.minute ++ ':' :: (fixed 2 c.second ++ ending t))))) := by
    have hdecoded := congrArg fromUtf8 hbytes
    rw [fromUtf8_asBytes, fromUtf8_asBytes] at hdecoded
    rw [Option.some.inj hdecoded, hfixed hyearDigits hyearLength hyear,
      hfixed hmonthDigits hmonthLength hmonth, hfixed hdayDigits hdayLength hday,
      hfixed hhourDigits hhourLength hhour, hfixed hminuteDigits hminuteLength hminute,
      hfixed hsecondDigits hsecondLength hsecond]
    simp only [List.nil_append, List.append_assoc, List.cons_append]
  have hyears : 1970 ≤ (c.year : Int) ∧ (c.year : Int) ≤ 9999 := by omega
  refine ⟨⟨⟨c.year, c.month, c.day, hmonths, daysInMonth_eq c.year hmonths ▸ hdays⟩, c.hour,
    c.minute, c.second, t, hyears, by omega, by omega, by omega, ht, htLength⟩, htext, ?_⟩
  rw [Stamp.components, hnanos]
  rfl

/-- Every timestamp is read. -/
theorem readComponents_text (stamp : Stamp) :
    readComponents (asBytes stamp.text) = .ok stamp.components := by
  have hyears := stamp.year_mem
  have hmonth := stamp.date.month_mem
  have hday := stamp.date.day_mem
  have hdays : daysIn stamp.date.year stamp.date.month ≤ 31 := by
    rw [daysIn]
    split_ifs <;> decide
  have hhour := stamp.hour_lt
  have hminute := stamp.minute_lt
  have hsecond := stamp.second_lt
  obtain ⟨bytes, hdrop⟩ : ∃ bytes : Bytes, bytes.drop 0 = asBytes stamp.text := ⟨_, rfl⟩
  rw [← hdrop, List.drop_zero]
  rw [Stamp.text] at hdrop
  obtain ⟨hread0, hdrop⟩ := fixed_of_drop hdrop (by decide) (by omega) rfl
  obtain ⟨h4, hdrop⟩ := punct_of_drop hdrop (by decide)
  obtain ⟨hread5, hdrop⟩ := fixed_of_drop hdrop (by decide) (by omega) rfl
  obtain ⟨h7, hdrop⟩ := punct_of_drop hdrop (by decide)
  obtain ⟨hread8, hdrop⟩ := fixed_of_drop hdrop (by decide) (by omega) rfl
  obtain ⟨h10, hdrop⟩ := punct_of_drop hdrop (by decide)
  obtain ⟨hread11, hdrop⟩ := fixed_of_drop hdrop (by decide) (by omega) rfl
  obtain ⟨h13, hdrop⟩ := punct_of_drop hdrop (by decide)
  obtain ⟨hread14, hdrop⟩ := fixed_of_drop hdrop (by decide) (by omega) rfl
  obtain ⟨h16, hdrop⟩ := punct_of_drop hdrop (by decide)
  obtain ⟨hread17, hdrop⟩ := fixed_of_drop hdrop (by decide) (by omega) rfl
  obtain ⟨fraction, hfraction, hend, hnanos⟩ :=
    ending_of_drop hdrop stamp.fraction_digits stamp.fraction_length
  have hyear : (stamp.date.year.toNat : Int) = stamp.date.year := Int.toNat_of_nonneg (by omega)
  refine readComponents_eq_ok_iff.mpr ⟨fraction, hfraction, ⟨h4, h7, h10, h13, h16, hend⟩,
    ⟨hread0, hread5, hread8, hread11, hread14, hread17, hnanos⟩, ?_, hmonth, ?_,
    Nat.le_of_lt_succ hhour, Nat.le_of_lt_succ hminute, Nat.le_of_lt_succ hsecond⟩
  · simp only [Stamp.components]
    omega
  · simp only [Stamp.components]
    rwa [daysInMonth_eq _ hmonth, hyear]

/-- The timestamps are what is read. -/
theorem readComponents_iff {s : Text} {c : Components} :
    readComponents (asBytes s) = .ok c ↔
      ∃ stamp : Stamp, s = stamp.text ∧ c = stamp.components := by
  refine ⟨stamp_of_readComponents, ?_⟩
  rintro ⟨stamp, rfl, rfl⟩
  exact readComponents_text stamp

section Instants

variable {arithmetic : Arithmetic}

theorem Arithmetic.result_of_lt {exact : Nat} (h : exact < 2 ^ 64) :
    arithmetic.result exact = some exact := if_pos h

theorem Arithmetic.lt_of_result {exact n : Nat} (h : arithmetic.result exact = some n) :
    n < 2 ^ 64 := by
  by_cases hexact : exact < 2 ^ 64
  · rw [Arithmetic.result_of_lt hexact] at h
    exact Option.some.inj h ▸ hexact
  · cases arithmetic with
    | panicking =>
      simp only [Arithmetic.result, hexact, if_false, reduceCtorEq] at h
    | wrapping =>
      simp only [Arithmetic.result, hexact, if_false, Option.some.injEq] at h
      exact h ▸ Nat.mod_lt _ (by decide)

/-- The instant that the components name. -/
def exactNanos (c : Components) : Nat :=
  ((daysFromCivil c.year c.month c.day).toNat * 86400 +
    (c.hour * 3600 + c.minute * 60 + c.second)) * 1000000000 + c.fractionalNanos

/-- An instant that fits is computed. -/
theorem totalNanos_of_lt {c : Components} (h : exactNanos c < 2 ^ 64) :
    totalNanos arithmetic c = some (exactNanos c) := by
  have hnanos := (Nat.le_add_right _ _).trans_lt h
  have hseconds := (Nat.le_mul_of_pos_right _ (by decide)).trans_lt hnanos
  have hdays := (Nat.le_add_right _ _).trans_lt hseconds
  simp only [totalNanos, Option.bind_eq_bind]
  rw [Arithmetic.result_of_lt hdays, Option.bind_some, Arithmetic.result_of_lt hseconds,
    Option.bind_some, Arithmetic.result_of_lt hnanos, Option.bind_some]
  exact Arithmetic.result_of_lt h

/-- Any other makes the arithmetic overflow. -/
theorem totalNanos_panicking {c : Components} (h : ¬ exactNanos c < 2 ^ 64) :
    totalNanos .panicking c = none := by
  have hsome {n m : Nat} (hm : Arithmetic.panicking.result n = some m) : m = n := by
    simp only [Arithmetic.result] at hm
    split_ifs at hm
    exact (Option.some.inj hm).symm
  by_contra hne
  obtain ⟨n, hn⟩ := Option.ne_none_iff_exists'.mp hne
  simp only [totalNanos, Option.bind_eq_bind, Option.bind_eq_some_iff] at hn
  obtain ⟨secsOfDays, hdays, totalSeconds, hseconds, nanosOfSeconds, hnanos, htotal⟩ := hn
  have hlt := Arithmetic.lt_of_result htotal
  rw [hsome htotal, hsome hnanos, hsome hseconds, hsome hdays] at hlt
  exact h hlt

/-- A timestamp denotes the instant that its components name. -/
theorem denotes_iff {stamp : Stamp} {ns : Nat} :
    stamp.Denotes ns ↔ ns = exactNanos stamp.components := by
  have hnonneg := dayNumber_nonneg_iff.mpr stamp.year_mem.1
  have hyear : (stamp.date.year.toNat : Int) = stamp.date.year :=
    Int.toNat_of_nonneg (by have := stamp.year_mem; omega)
  have hexact : exactNanos stamp.components =
      (dayNumber stamp.date).toNat * 86400000000000 + stamp.nanosOfDay := by
    simp only [exactNanos, Stamp.components, Stamp.nanosOfDay, dayNumber, hyear]
    ring
  rw [hexact, Stamp.Denotes]
  constructor
  · rintro ⟨days, hdays, rfl⟩
    rw [epoch_after_eq_iff.mp hdays, Int.toNat_natCast]
  · intro h
    exact ⟨_, epoch_after_eq_iff.mpr (Int.toNat_of_nonneg hnonneg).symm, h⟩

/-- A timestamp whose instant fits is read as that instant, and none that does not. -/
theorem parse_eq_ok_iff {s : String} {ns : Nat} :
    parseIso8601UtcNanos arithmetic s = some (.ok ns) ↔
      ∃ stamp : Stamp, s = String.ofList stamp.text ∧
        totalNanos arithmetic stamp.components = some ns := by
  rw [parseIso8601UtcNanos]
  constructor
  · intro h
    cases hread : readComponents (asBytes s.toList) with
    | error e =>
      simp only [hread] at h
      cases h
    | ok c =>
      simp only [hread, Option.map_eq_some_iff, Except.ok.injEq] at h
      obtain ⟨_, htotal, rfl⟩ := h
      obtain ⟨stamp, htext, rfl⟩ := readComponents_iff.mp hread
      exact ⟨stamp, by rw [← htext, String.ofList_toList], htotal⟩
  · rintro ⟨stamp, rfl, htotal⟩
    rw [String.toList_ofList, readComponents_text]
    exact congrArg (Option.map Except.ok) htotal

/-- Whether reading a text panics. -/
theorem parse_eq_none_iff {s : String} :
    parseIso8601UtcNanos arithmetic s = none ↔
      ∃ stamp : Stamp, s = String.ofList stamp.text ∧
        totalNanos arithmetic stamp.components = none := by
  rw [parseIso8601UtcNanos]
  constructor
  · intro h
    cases hread : readComponents (asBytes s.toList) with
    | error e =>
      simp only [hread] at h
      cases h
    | ok c =>
      simp only [hread, Option.map_eq_none_iff] at h
      obtain ⟨stamp, htext, rfl⟩ := readComponents_iff.mp hread
      exact ⟨stamp, by rw [← htext, String.ofList_toList], h⟩
  · rintro ⟨stamp, rfl, htotal⟩
    rw [String.toList_ofList, readComponents_text]
    exact congrArg (Option.map Except.ok) htotal

end Instants

/-- What is printed is a timestamp with nine digits that denotes the instant. -/
theorem formatIso8601UtcNanos_eq (ns : UInt64) :
    ∃ stamp : Stamp, stamp.fraction.length = 9 ∧
      formatIso8601UtcNanos ns = String.ofList stamp.text ∧ stamp.Denotes ns.toNat := by
  have hns := ns.toNat_lt
  obtain ⟨days, hdays⟩ : ∃ days, days = ns.toNat / 1000000000 / 86400 := ⟨_, rfl⟩
  have hnumber := dayNumber_after_epoch days
  have hyear : 1970 ≤ (epoch.after days).year :=
    dayNumber_nonneg_iff.mp (hnumber ▸ Int.natCast_nonneg days)
  have hle := le_dayNumber hyear
  have hlength : (fixed 9 (ns.toNat % 1000000000)).length = 9 :=
    length_fixed (by decide) (by omega)
  refine ⟨⟨epoch.after days, ns.toNat / 1000000000 % 86400 / 3600,
    ns.toNat / 1000000000 % 86400 % 3600 / 60, ns.toNat / 1000000000 % 86400 % 60,
    fixed 9 (ns.toNat % 1000000000), ⟨hyear, by omega⟩, by omega, by omega, by omega,
    isDigits_fixed _ _, hlength.le⟩, hlength, ?_, days, rfl, ?_⟩
  · have hyearText : yearText (epoch.after days).year = fixed 4 (epoch.after days).year.toNat :=
      if_pos (by omega)
    have hne : fixed 9 (ns.toNat % 1000000000) ≠ [] := List.length_pos_iff.mp (by omega)
    rw [formatIso8601UtcNanos, ← hdays, civilFromDays_natCast]
    simp only [hyearText, Stamp.text, ending, hne, if_false, List.append_assoc, List.cons_append]
  · have hfraction : fractionNanos (fixed 9 (ns.toNat % 1000000000)) = ns.toNat % 1000000000 := by
      rw [fractionNanos, value_fixed, hlength, Nat.sub_self, pow_zero, mul_one]
    simp only [Stamp.nanosOfDay, hfraction]
    omega

/-- A text is read as what it denotes: a timestamp as its instant, anything else as an error, and
no operation overflows. -/
structure ReadExactly (s : String) : Prop where
  result : ∀ arithmetic ns, parseIso8601UtcNanos arithmetic s = some (.ok ns) ↔
    ∃ stamp : Stamp, s = String.ofList stamp.text ∧ stamp.Denotes ns
  noOverflow : parseIso8601UtcNanos .panicking s ≠ none

theorem readExactly_iff {s : String} :
    ReadExactly s ↔ ∀ stamp : Stamp, s = String.ofList stamp.text →
      ∀ ns, stamp.Denotes ns → ns < 2 ^ 64 := by
  constructor
  · rintro ⟨-, hno⟩ stamp hs ns hns
    rw [denotes_iff] at hns
    by_contra hlt
    rw [hns] at hlt
    exact hno (parse_eq_none_iff.mpr ⟨stamp, hs, totalNanos_panicking hlt⟩)
  · intro h
    have hlt {stamp : Stamp} (hs : s = String.ofList stamp.text) :
        exactNanos stamp.components < 2 ^ 64 := h stamp hs _ (denotes_iff.mpr rfl)
    constructor
    · intro arithmetic ns
      rw [parse_eq_ok_iff]
      refine exists_congr fun stamp => and_congr_right fun hs => ?_
      rw [totalNanos_of_lt (hlt hs), denotes_iff, Option.some.injEq, eq_comm]
    · rw [Ne, parse_eq_none_iff]
      rintro ⟨stamp, hs, hnone⟩
      rw [totalNanos_of_lt (hlt hs)] at hnone
      cases hnone

/-- Every instant of 64 bits is printed as its date and time and read back, and a text is read as
what it denotes unless that is a later instant. -/
theorem timestamps_exact (ns : UInt64) (s : String) :
    ((∀ arithmetic,
        parseIso8601UtcNanos arithmetic (formatIso8601UtcNanos ns) = some (.ok ns.toNat)) ∧
      ∃ stamp : Stamp, stamp.fraction.length = 9 ∧
        formatIso8601UtcNanos ns = String.ofList stamp.text ∧ stamp.Denotes ns.toNat) ∧
    (ReadExactly s ↔ ∀ stamp : Stamp, s = String.ofList stamp.text →
      ∀ ns, stamp.Denotes ns → ns < 2 ^ 64) := by
  refine ⟨⟨fun arithmetic => ?_, formatIso8601UtcNanos_eq ns⟩, readExactly_iff⟩
  obtain ⟨stamp, -, htext, hdenotes⟩ := formatIso8601UtcNanos_eq ns
  have hexact := denotes_iff.mp hdenotes
  refine parse_eq_ok_iff.mpr ⟨stamp, htext, ?_⟩
  rw [totalNanos_of_lt (hexact ▸ ns.toNat_lt), hexact]

/-- The last second of the year 9999 is a timestamp, and its arithmetic overflows. -/
theorem last_second :
    ¬ ReadExactly "9999-12-31T23:59:59Z" ∧
      parseIso8601UtcNanos .panicking "9999-12-31T23:59:59Z" = none ∧
      parseIso8601UtcNanos .wrapping "9999-12-31T23:59:59Z" = some (.ok 13594627840775828992) := by
  have hpanics : parseIso8601UtcNanos .panicking "9999-12-31T23:59:59Z" = none := by
    decide +kernel
  exact ⟨fun h => h.noOverflow hpanics, hpanics, by decide +kernel⟩

end Kaleidoscope.Cli
