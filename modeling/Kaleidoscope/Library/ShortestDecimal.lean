import Kaleidoscope.Library.Binary64
import Kaleidoscope.Library.Duration

/-!
# The shortest decimal that reads back

A double is printed as a decimal of as few digits as possible that is nearer to it than to any other
double; of two such decimals, the nearer one. Decimals are tried digit by digit.
-/

namespace Binary64

/-- The decimal in units of `10 ^ q` that reads back, below the number or above it. -/
def candidate (x : ℚ) (q : ℤ) : Option (ℕ × ℤ) :=
  let low := ⌊x / 10 ^ q⌋₊
  if nearest (low * 10 ^ q) = x ∧
      (nearest ((low + 1 : ℕ) * 10 ^ q) = x → x - low * 10 ^ q < (low + 1 : ℕ) * 10 ^ q - x) then
    some (low, q)
  else if nearest ((low + 1 : ℕ) * 10 ^ q) = x then some (low + 1, q)
  else none

/-- The digits of the shortest decimal, and the power of ten of the last one. No double has more
than 767 digits. -/
def shortest (x : ℚ) : ℕ × ℤ :=
  ((List.range 800).findSome? fun n : ℕ => candidate x (Int.log 10 x - n)).getD (0, 0)

/-- A decimal without an exponent. -/
def positional (digits : ℕ) : ℤ → String
  | .ofNat q => toString (digits * 10 ^ q)
  | .negSucc n =>
    Duration.fmtDecimal (digits / 10 ^ (n + 1)) (digits % 10 ^ (n + 1)) (n + 1) ""

/-- `f64::to_string` of a finite double. -/
def display (bits : UInt64) : String :=
  let magnitude := |value bits|
  let sign := if bits.toNat / 2 ^ 63 = 0 then "" else "-"
  if magnitude = 0 then sign ++ "0"
  else
    let decimal := shortest magnitude
    sign ++ positional decimal.1 decimal.2

/-- The first number of a range that has a result. -/
theorem exists_findSome?_range {α : Type*} {f : ℕ → Option α} {m N : ℕ} (hm : m < N)
    (h : (f m).isSome) :
    ∃ n ≤ m, ∃ a, f n = some a ∧ (List.range N).findSome? f = some a ∧ ∀ i < n, f i = none := by
  classical
  have hex : ∃ n, (f n).isSome := ⟨m, h⟩
  obtain ⟨a, ha⟩ := Option.isSome_iff_exists.mp (Nat.find_spec hex)
  have hnone : ∀ i < Nat.find hex, f i = none := fun i hi =>
    Option.not_isSome_iff_eq_none.mp (Nat.find_min hex hi)
  have hle : Nat.find hex ≤ m := Nat.find_min' hex h
  refine ⟨Nat.find hex, hle, a, ha, List.findSome?_eq_some_iff.mpr ?_, hnone⟩
  have hsplit : N = Nat.find hex + (N - Nat.find hex - 1 + 1) := by omega
  refine ⟨List.range (Nat.find hex), Nat.find hex,
    (List.range (N - Nat.find hex - 1)).map (fun i => Nat.find hex + (i + 1)), ?_, ha,
    fun i hi => hnone i (List.mem_range.mp hi)⟩
  rw [hsplit, List.range_add, List.range_succ_eq_map, List.map_cons, List.map_map, Nat.add_zero,
    ← hsplit]
  rfl

section Shortest

variable {x : ℚ}

theorem candidate_exponent {q : ℤ} {decimal : ℕ × ℤ} (h : candidate x q = some decimal) :
    decimal.2 = q := by
  simp only [candidate] at h
  split_ifs at h <;> cases h <;> rfl

/-- A number lies between its neighbours in the units of a power of ten. -/
theorem neighbours (hpos : 0 < x) (q : ℤ) : (⌊x / 10 ^ q⌋₊ : ℚ) * 10 ^ q ≤ x ∧
    x ≤ ((⌊x / 10 ^ q⌋₊ + 1 : ℕ) : ℚ) * 10 ^ q := by
  have hunit : (0 : ℚ) < 10 ^ q := zpow_pos (by norm_num) q
  refine ⟨(le_div_iff₀ hunit).mp (Nat.floor_le (div_pos hpos hunit).le), ?_⟩
  refine ((div_lt_iff₀ hunit).mp ?_).le
  exact_mod_cast Nat.lt_floor_add_one (x / 10 ^ q)

theorem units_mono {d e : ℕ} (h : d ≤ e) (q : ℤ) : (d : ℚ) * 10 ^ q ≤ e * 10 ^ q :=
  mul_le_mul_of_nonneg_right (Nat.cast_le.mpr h) (zpow_pos (by norm_num) q).le

/-- A candidate is there if some decimal in its units reads back. -/
theorem candidate_isSome (hpos : 0 < x) (hdouble : nearest x = x) {q : ℤ} {d : ℕ}
    (h : nearest (d * 10 ^ q) = x) : (candidate x q).isSome := by
  have hunit : (0 : ℚ) < 10 ^ q := zpow_pos (by norm_num) q
  obtain ⟨hlow, hhigh⟩ := neighbours hpos q
  have hside : nearest ((⌊x / 10 ^ q⌋₊ : ℚ) * 10 ^ q) = x ∨
      nearest (((⌊x / 10 ^ q⌋₊ + 1 : ℕ) : ℚ) * 10 ^ q) = x := by
    rcases le_or_gt ((d : ℚ) * 10 ^ q) x with hd | hd
    · have hle : d ≤ ⌊x / 10 ^ q⌋₊ := Nat.le_floor ((le_div_iff₀ hunit).mpr hd)
      exact .inl (nearest_between (by positivity) h hdouble (units_mono hle q) hlow)
    · have hlt : ⌊x / 10 ^ q⌋₊ < d := by
        refine (Nat.floor_lt (div_pos hpos hunit).le).mpr ?_
        exact (div_lt_iff₀ hunit).mpr hd
      exact .inr (nearest_between hpos.le hdouble h hhigh (units_mono hlt q))
  simp only [candidate]
  split_ifs with hboth hup
  · rfl
  · rfl
  · have hdown := hside.resolve_right hup
    exact absurd ⟨hdown, fun hup' => absurd hup' hup⟩ hboth

/-- It reads back, and no other decimal in its units that does is nearer. -/
theorem of_candidate (hpos : 0 < x) {q : ℤ} {decimal : ℕ × ℤ}
    (h : candidate x q = some decimal) :
    nearest (decimal.1 * 10 ^ q) = x ∧
      ∀ d : ℕ, nearest (d * 10 ^ q) = x → |x - decimal.1 * 10 ^ q| ≤ |x - d * 10 ^ q| := by
  obtain ⟨hlow, hhigh⟩ := neighbours hpos q
  -- a decimal below is at most the lower candidate, one above at least the upper one
  have hbelow {d : ℕ} (hd : d ≤ ⌊x / 10 ^ q⌋₊) : (d : ℚ) * 10 ^ q ≤ ⌊x / 10 ^ q⌋₊ * 10 ^ q :=
    units_mono hd q
  have habove {d : ℕ} (hd : ⌊x / 10 ^ q⌋₊ + 1 ≤ d) :
      ((⌊x / 10 ^ q⌋₊ + 1 : ℕ) : ℚ) * 10 ^ q ≤ d * 10 ^ q := units_mono hd q
  simp only [candidate] at h
  split_ifs at h with hdown hup
  · cases h
    refine ⟨hdown.1, fun d hd => ?_⟩
    rcases Nat.lt_or_ge ⌊x / 10 ^ q⌋₊ d with hlt | hle
    · have hge := habove hlt
      have hreads := nearest_between hpos.le (hdown.1 ▸ nearest_nearest _) hd hhigh hge
      have hnear := hdown.2 hreads
      rw [abs_of_nonneg (sub_nonneg.mpr hlow), abs_of_nonpos (by linarith)]
      linarith
    · have hle := hbelow hle
      rw [abs_of_nonneg (sub_nonneg.mpr hlow), abs_of_nonneg (by linarith)]
      linarith
  · cases h
    refine ⟨hup, fun d hd => ?_⟩
    rcases Nat.lt_or_ge ⌊x / 10 ^ q⌋₊ d with hlt | hle
    · have hge := habove hlt
      rw [abs_of_nonpos (by linarith), abs_of_nonpos (by linarith)]
      linarith
    · have hle := hbelow hle
      have hreads : nearest ((⌊x / 10 ^ q⌋₊ : ℚ) * 10 ^ q) = x :=
        nearest_between (by positivity) hd (hup ▸ nearest_nearest _) hle hlow
      have hfar : ((⌊x / 10 ^ q⌋₊ + 1 : ℕ) : ℚ) * 10 ^ q - x ≤ x - ⌊x / 10 ^ q⌋₊ * 10 ^ q :=
        not_lt.mp fun hlt => hdown ⟨hreads, fun _ => hlt⟩
      rw [abs_of_nonpos (by linarith), abs_of_nonneg (by linarith)]
      linarith

/-- Where some decimal of at most 800 digits reads back, the shortest one is of no finer unit, and
no decimal of a coarser unit that is a digit's reads back. -/
theorem shortest_spec (hpos : 0 < x) (hdouble : nearest x = x) {q₀ : ℤ} {d₀ : ℕ}
    (h : nearest (d₀ * 10 ^ q₀) = x) (hle : q₀ ≤ Int.log 10 x) (hlt : Int.log 10 x < q₀ + 800) :
    ∃ d q, shortest x = (d, q) ∧ candidate x q = some (d, q) ∧ q₀ ≤ q ∧ q ≤ Int.log 10 x ∧
      ∀ q', q < q' → q' ≤ Int.log 10 x → ∀ d' : ℕ, nearest (d' * 10 ^ q') ≠ x := by
  have hexponent {q : ℤ} (hq : q ≤ Int.log 10 x) :
      Int.log 10 x - ((Int.log 10 x - q).toNat : ℤ) = q := by omega
  have hsome : (candidate x (Int.log 10 x - ((Int.log 10 x - q₀).toNat : ℤ))).isSome := by
    rw [hexponent hle]
    exact candidate_isSome hpos hdouble h
  obtain ⟨n, hn, ⟨d, q⟩, hcandidate, hfound, hnone⟩ :=
    exists_findSome?_range (f := fun n : ℕ => candidate x (Int.log 10 x - n)) (N := 800)
      (by omega) hsome
  obtain rfl : q = Int.log 10 x - n := candidate_exponent hcandidate
  refine ⟨d, _, ?_, hcandidate, by omega, by omega, fun q' hq hq' d' hread => ?_⟩
  · rw [shortest, hfound, Option.getD_some]
  · have hcand := candidate_isSome hpos hdouble hread
    have hskipped := hnone (Int.log 10 x - q').toNat (by omega)
    rw [hexponent hq'] at hskipped
    rw [hskipped] at hcand
    cases hcand

end Shortest

section Integers

/-- The first number has no more zeros at its end than the second. -/
def NoMoreZeros (u v : ℤ) : Prop := ∀ p : ℕ, (10 : ℤ) ^ p ∣ u → (10 : ℤ) ^ p ∣ v

/-- Of the integers with the same nearest double none has more zeros at its end, and none of as many
is nearer to the double. -/
def Roundest (v : ℤ) : Prop :=
  ∀ u : ℤ, nearest u = nearest v →
    NoMoreZeros u v ∧ (NoMoreZeros v u → |nearest v - v| ≤ |nearest v - u|)

theorem nearest_one : nearest 1 = 1 := by
  have h := nearest_of_significand (n := 1) (s := 0) (by norm_num) (by norm_num)
  simpa using h

theorem one_le_nearest {q : ℚ} (h : 1 ≤ q) : 1 ≤ nearest q := by
  rw [← nearest_one]
  exact nearest_mono zero_le_one h

theorem nearest_pos_iff {v : ℤ} : 0 < nearest v ↔ 0 < v := by
  constructor
  · intro h
    by_contra hle
    have hneg : (0 : ℚ) ≤ ((-v : ℤ) : ℚ) := by exact_mod_cast (by omega : 0 ≤ -v)
    have hnonneg := nearest_nonneg hneg
    rw [Int.cast_neg, nearest_neg] at hnonneg
    linarith
  · intro h
    exact zero_lt_one.trans_le (one_le_nearest (by exact_mod_cast h))

theorem lastPlace_intCast_gt (v : ℤ) (hv : v ≠ 0) : -1074 < lastPlace v := by
  have hone : (1 : ℚ) ≤ |(v : ℚ)| := by exact_mod_cast Int.one_le_abs hv
  have hmono := lastPlace_mono (a := 1) (b := v) (by simpa using hone)
  have hlog : Int.log 2 |(1 : ℚ)| = 0 := by rw [abs_one, Int.log_one_right]
  rw [lastPlace, if_neg one_ne_zero, hlog] at hmono
  exact lt_of_lt_of_le (by norm_num) hmono

/-- The nearest double of an integer is relatively close. -/
theorem abs_sub_nearest_intCast_le (v : ℤ) : 2 ^ 53 * |v - nearest v| ≤ |(v : ℚ)| := by
  by_cases hv : v = 0
  · simp [hv]
  · have hle := abs_sub_nearest_le (v : ℚ)
    have hulp := ulp_le_abs (lastPlace_intCast_gt v hv)
    linarith

/-- A power of two from the first on is an integer. -/
theorem exists_zpow_eq_intCast {s : ℤ} (hs : 0 ≤ s) : (2 : ℚ) ^ s = ((2 ^ s.toNat : ℤ) : ℚ) := by
  obtain ⟨n, rfl⟩ := Int.eq_ofNat_of_zero_le hs
  push_cast
  rw [zpow_natCast, Int.toNat_natCast]

/-- An integer is a double if its unit is less than one. -/
theorem nearest_of_lastPlace_nonpos {v : ℤ} (h : lastPlace v ≤ 0) : nearest v = v := by
  obtain ⟨n, hn⟩ := exists_zpow_eq_mul h
  refine nearest_of_eq_mul (n := v * n) ?_
  rw [zpow_zero] at hn
  rw [ulp, Int.cast_mul, mul_assoc, ← hn, mul_one]

/-- The nearest double of an integer is one. -/
theorem exists_nearest_eq_intCast (v : ℤ) : ∃ f : ℤ, nearest v = f := by
  rcases le_total (lastPlace v) 0 with h | h
  · exact ⟨v, nearest_of_lastPlace_nonpos h⟩
  · refine ⟨RoundEven.roundEven ((v : ℚ) / ulp v) * 2 ^ (lastPlace v).toNat, ?_⟩
    rw [nearest, Int.cast_mul, ← exists_zpow_eq_intCast h, ulp]

/-- Two multiples of the power of ten of the first digit of a double that read back are equal. -/
theorem eq_of_firstDigit {x : ℚ} {u v d : ℤ} {k : ℕ} (hx : x < 10 ^ (k + 1)) (hu : nearest u = x)
    (hv : nearest v = x) (hpos : 0 < v) (hd : u - v = d * 10 ^ k) : u = v := by
  by_contra hne
  have hupos : 0 < u := nearest_pos_iff.mp (hu ▸ hv ▸ nearest_pos_iff.mpr hpos)
  have hcloseu := abs_sub_nearest_intCast_le u
  have hclosev := abs_sub_nearest_intCast_le v
  have hupos' : (0 : ℚ) < u := by exact_mod_cast hupos
  have hpos' : (0 : ℚ) < v := by exact_mod_cast hpos
  rw [hu, abs_of_pos hupos'] at hcloseu
  rw [hv, abs_of_pos hpos'] at hclosev
  have hulow := neg_le_of_abs_le (le_refl |u - x|)
  have huhigh := le_of_abs_le (le_refl |u - x|)
  have hvlow := neg_le_of_abs_le (le_refl |v - x|)
  have hvhigh := le_of_abs_le (le_refl |v - x|)
  have hten : (10 : ℚ) ^ (k + 1) = 10 * 10 ^ k := pow_succ' 10 k
  have hfar : (10 : ℚ) ^ k ≤ |(u : ℚ) - v| := by
    have hdne : d ≠ 0 := by
      rintro rfl
      exact hne (by omega)
    have hcast : (u : ℚ) - v = d * 10 ^ k := by exact_mod_cast hd
    rw [hcast, abs_mul, abs_of_pos (show (0 : ℚ) < 10 ^ k by positivity)]
    exact le_mul_of_one_le_left (by positivity) (by exact_mod_cast Int.one_le_abs hdne)
  rcases abs_choice ((u : ℚ) - v) with habs | habs <;> rw [habs] at hfar <;> linarith

/-- What is printed for the nearest double of a positive integer. -/
theorem exists_printed {v : ℤ} (hv : 0 < v) (hlt : nearest v < 2 ^ 1024) :
    ∃ c : ℕ, positional (shortest (nearest v)).1 (shortest (nearest v)).2 = toString c ∧
      nearest ((c : ℤ) : ℚ) = nearest v ∧ Roundest c := by
  obtain ⟨f, hf⟩ := exists_nearest_eq_intCast v
  have hpos : 0 < nearest v := nearest_pos_iff.mpr hv
  obtain ⟨f, rfl⟩ : ∃ n : ℕ, f = n := by
    rw [hf] at hpos
    exact Int.eq_ofNat_of_zero_le (by exact_mod_cast hpos.le)
  have hlog : 0 ≤ Int.log 10 (nearest v) := by
    have hone := Int.log_mono_right (b := 10) zero_lt_one
      (one_le_nearest (q := v) (by exact_mod_cast hv))
    rwa [Int.log_one_right] at hone
  have hdigits : Int.log 10 (nearest v) < 800 := by
    refine (Int.lt_zpow_iff_log_lt (by norm_num) hpos).mp (hlt.trans ?_)
    calc (2 : ℚ) ^ 1024 = (2 ^ 2) ^ 512 := by rw [← pow_mul]
      _ < 10 ^ 512 := pow_lt_pow_left₀ (by norm_num) (by norm_num) (by norm_num)
      _ ≤ (10 : ℕ) ^ (800 : ℤ) := by
        rw [zpow_ofNat, Nat.cast_ofNat]
        exact pow_le_pow_right₀ (by norm_num) (by norm_num)
  have hself : nearest ((f : ℚ) * 10 ^ (0 : ℤ)) = nearest v := by
    rw [zpow_zero, mul_one, ← Int.cast_natCast, ← hf, nearest_nearest]
  obtain ⟨d, q, hshortest, hcandidate, hq, hqlog, hcoarse⟩ :=
    shortest_spec hpos (nearest_nearest _) hself hlog (by omega)
  obtain ⟨k, rfl⟩ := Int.eq_ofNat_of_zero_le hq
  obtain ⟨hreads, hnear⟩ := of_candidate hpos hcandidate
  have hprinted : nearest (((d * 10 ^ k : ℕ) : ℤ) : ℚ) = nearest v := by
    rw [← hreads]
    push_cast
    rw [zpow_natCast]
  have hmultiple {u : ℤ} {m : ℕ} (hu : nearest u = nearest v) (hm : (10 : ℤ) ^ m ∣ u) :
      ∃ j : ℕ, (u : ℚ) = j * 10 ^ m ∧ nearest (j * 10 ^ (m : ℤ)) = nearest v := by
    obtain ⟨j, rfl⟩ := hm
    have hjpos : 0 < 10 ^ m * j := nearest_pos_iff.mp (hu ▸ hpos)
    obtain ⟨j, rfl⟩ := Int.eq_ofNat_of_zero_le (pos_of_mul_pos_right hjpos (by positivity)).le
    refine ⟨j, by push_cast; ring, ?_⟩
    rw [zpow_natCast, ← hu]
    push_cast
    rw [mul_comm]
  refine ⟨d * 10 ^ k, by rw [hshortest]; rfl, hprinted, fun u hu => ?_⟩
  rw [hprinted] at hu ⊢
  constructor
  · intro p hp
    rcases le_or_gt p k with hle | hgt
    · push_cast
      exact (pow_dvd_pow 10 hle).mul_left _
    · -- a coarser decimal reads back only if its unit is that of no digit
      obtain ⟨l, hl⟩ := Int.eq_ofNat_of_zero_le hlog
      have hkl : l ≤ k := by
        by_contra hlt
        obtain ⟨j, -, hj⟩ := hmultiple hu ((pow_dvd_pow 10 (min_le_left p l)).trans hp)
        exact hcoarse (min p l : ℕ) (by omega) (by omega) j hj
      have hsame : u = ((d * 10 ^ k : ℕ) : ℤ) := by
        obtain ⟨j, hj⟩ := (pow_dvd_pow 10 hgt.le).trans hp
        have hx : nearest v < 10 ^ (k + 1) := by
          have hx := Int.lt_zpow_succ_log_self (b := 10) (by norm_num) (nearest (v : ℚ))
          refine hx.trans_le ?_
          rw [hl, Nat.cast_ofNat]
          exact_mod_cast zpow_le_zpow_right₀ (a := (10 : ℚ)) (by norm_num)
            (by omega : (l : ℤ) + 1 ≤ ((k + 1 : ℕ) : ℤ))
        have hcpos := nearest_pos_iff.mp (hprinted ▸ hpos)
        refine eq_of_firstDigit hx hu hprinted hcpos (d := j - d) ?_
        rw [hj]
        push_cast
        ring
      rwa [← hsame]
  · intro hzeros
    obtain ⟨j, hj, hreadsj⟩ := hmultiple hu (hzeros k (by push_cast; exact dvd_mul_left _ _))
    have hle := hnear j hreadsj
    rw [zpow_natCast] at hle
    push_cast
    rwa [hj]

/-- Two integers with the same nearest double that are both the roundest are equal. -/
theorem Roundest.unique {v c : ℤ} (hv : Roundest v) (hc : Roundest c)
    (hsame : nearest c = nearest v) : c = v := by
  by_contra hne
  obtain ⟨f, hf⟩ := exists_nearest_eq_intCast v
  have hcv := hv c hsame
  have hvc := hc v hsame.symm
  have hdist : |nearest v - v| = |nearest v - c| :=
    le_antisymm (hcv.2 hvc.1) (hsame ▸ hvc.2 hcv.1)
  have hsum : c + v = 2 * f := by
    rw [hf] at hdist
    have hcast : |f - v| = |f - c| := by exact_mod_cast hdist
    rcases abs_eq_abs.mp hcast with h | h <;> omega
  -- then the double itself has as many zeros, and is nearer
  have hzeros : NoMoreZeros v f := by
    intro p hp
    have hdiff : c - v = 2 * (f - v) := by omega
    have hplace : (p : ℤ) ≤ lastPlace v := by
      by_contra hlt
      have hle : (10 : ℤ) ^ p ≤ |c - v| := Int.le_of_dvd (abs_pos.mpr (sub_ne_zero.mpr hne))
        ((dvd_abs _ _).mpr (dvd_sub (hvc.1 p hp) hp))
      have hclose : |(c : ℚ) - v| ≤ ulp v := by
        have hhalf := abs_sub_nearest_le (v : ℚ)
        have hcast : (c : ℚ) - v = 2 * (f - v) := by exact_mod_cast hdiff
        rwa [hcast, ← hf, abs_mul, abs_two, abs_sub_comm]
      have hulp : ulp v < (2 : ℚ) ^ p := by
        rw [← zpow_natCast, ulp]
        exact zpow_lt_zpow_right₀ (by norm_num) (not_le.mp hlt)
      have hpow : (2 : ℚ) ^ p ≤ 10 ^ p := pow_le_pow_left₀ (by norm_num) (by norm_num) p
      have hle' : (10 : ℚ) ^ p ≤ |(c : ℚ) - v| := by exact_mod_cast hle
      linarith
    have htwo : (2 : ℤ) ^ p ∣ f := by
      obtain ⟨n, hn⟩ := exists_zpow_eq_mul hplace
      refine ⟨RoundEven.roundEven ((v : ℚ) / ulp v) * n, ?_⟩
      have hcast : (f : ℚ) = RoundEven.roundEven ((v : ℚ) / ulp v) * (n * 2 ^ p) := by
        rw [← hf, nearest, ← zpow_natCast, ← hn, ulp]
      rw [mul_comm, mul_assoc]
      exact_mod_cast hcast
    have hfive : (5 : ℤ) ^ p ∣ f := by
      have hdvd : (10 : ℤ) ^ p ∣ 2 * f := hsum ▸ dvd_add (hvc.1 p hp) hp
      have hcoprime : IsCoprime ((5 : ℤ) ^ p) 2 := by
        exact IsCoprime.pow_left (by norm_num)
      refine hcoprime.dvd_of_dvd_mul_left (dvd_trans ?_ hdvd)
      exact pow_dvd_pow_of_dvd (by norm_num) p
    have hten : (10 : ℤ) ^ p = 2 ^ p * 5 ^ p := by rw [← mul_pow]; norm_num
    rw [hten]
    exact (IsCoprime.pow (by norm_num)).mul_dvd htwo hfive
  have hself : nearest (f : ℚ) = nearest v := by rw [← hf, nearest_nearest]
  have hle := (hv f hself).2 hzeros
  rw [hf, sub_self, abs_zero] at hle
  have hfv : f = v := by
    have hzero := abs_nonpos_iff.mp hle
    exact_mod_cast sub_eq_zero.mp hzero
  omega

/-- A double that an integer was rounded to is printed as that integer if it is the roundest. -/
theorem positional_shortest_eq_iff {v : ℕ} (hv : 0 < v) (hlt : nearest v < 2 ^ 1024) :
    positional (shortest (nearest v)).1 (shortest (nearest v)).2 = toString v ↔
      Roundest v := by
  obtain ⟨c, hprinted, hsame, hc⟩ := exists_printed (v := v) (by exact_mod_cast hv) hlt
  rw [Int.cast_natCast] at hprinted
  rw [hprinted]
  constructor
  · intro h
    have hdigits : Nat.toDigits 10 c = Nat.toDigits 10 v := String.ofList_injective h
    have heq : c = v := by
      rw [← Nat.ofDigitChars_ten_toDigits (n := c), hdigits, Nat.ofDigitChars_ten_toDigits]
    rwa [← heq]
  · intro h
    rw [Int.natCast_inj.mp (h.unique hc hsame)]

theorem NoMoreZeros.neg {u v : ℤ} (h : NoMoreZeros u v) : NoMoreZeros (-u) (-v) :=
  fun p hp => (h p (neg_dvd.mpr ((dvd_neg (a := (10 : ℤ) ^ p)).mp hp) |> neg_dvd.mp)).neg_right

theorem Roundest.neg {v : ℤ} (h : Roundest v) : Roundest (-v) := by
  intro u hu
  have hu' : nearest ((-u : ℤ) : ℚ) = nearest v := by
    rw [Int.cast_neg, nearest_neg, hu, Int.cast_neg, nearest_neg, neg_neg]
  obtain ⟨hzeros, hnear⟩ := h (-u) hu'
  constructor
  · simpa using hzeros.neg
  · intro hmore
    have hle := hnear (by simpa using hmore.neg)
    rw [← abs_neg, ← abs_neg (nearest v - _)] at hle
    push_cast at hle ⊢
    rw [nearest_neg]
    convert hle using 2 <;> ring

/-- Integers of 53 bits are doubles. -/
theorem nearest_intCast {v : ℤ} (hv : |v| ≤ 2 ^ 53) : nearest v = v := by
  simpa using nearest_of_significand (n := v) (s := 0) (by norm_num) hv

/-- They are the roundest: only the next integer has the same double as one of them. -/
theorem roundest_of_abs_le {v : ℤ} (hv : |v| ≤ 2 ^ 53) : Roundest v := by
  intro u hu
  rw [nearest_intCast hv] at hu ⊢
  refine ⟨fun p hp => ?_, fun _ => by rw [sub_self, abs_zero]; exact abs_nonneg _⟩
  by_cases hsmall : |u| ≤ 2 ^ 53
  · rw [nearest_intCast hsmall] at hu
    rwa [← Int.cast_injective hu]
  · have hclose := abs_sub_nearest_intCast_le u
    rw [hu] at hclose
    have hclose' : 2 ^ 53 * |u - v| ≤ |u| := by exact_mod_cast hclose
    have hodd : u = 2 ^ 53 + 1 ∨ u = -(2 ^ 53 + 1) := by
      rcases abs_cases u with ⟨h, _⟩ | ⟨h, _⟩ <;> rcases abs_cases v with ⟨h', _⟩ | ⟨h', _⟩ <;>
        rcases abs_cases (u - v) with ⟨h'', _⟩ | ⟨h'', _⟩ <;> omega
    cases p with
    | zero => exact one_dvd v
    | succ p =>
      have hten : (10 : ℤ) ∣ u := (dvd_pow_self 10 (Nat.succ_ne_zero p)).trans hp
      omega

/-- `as f64` of an integer. -/
def ofInt (v : ℤ) : UInt64 := encode (nearest v)

theorem abs_nearest_le {v : ℤ} (hv : |v| ≤ 2 ^ 63) : |nearest v| ≤ 2 ^ 63 := by
  have hbound : nearest ((2 ^ 63 : ℤ) : ℚ) = 2 ^ 63 := by
    have h := nearest_of_significand (n := 2 ^ 53) (s := 10) (by norm_num) (by norm_num)
    norm_num at h ⊢
    exact h
  obtain ⟨hlow, hhigh⟩ := abs_le.mp hv
  rcases le_total 0 v with hpos | hneg
  · have hnonneg : (0 : ℚ) ≤ v := by exact_mod_cast hpos
    rw [abs_of_nonneg (nearest_nonneg hnonneg), ← hbound]
    exact nearest_mono hnonneg (by exact_mod_cast hhigh)
  · have hnonneg : (0 : ℚ) ≤ ((-v : ℤ) : ℚ) := by exact_mod_cast neg_nonneg.mpr hneg
    have habs : |nearest v| = nearest ((-v : ℤ) : ℚ) := by
      rw [← abs_neg, ← nearest_neg, ← Int.cast_neg, abs_of_nonneg (nearest_nonneg hnonneg)]
    rw [habs, ← hbound]
    exact nearest_mono hnonneg (by exact_mod_cast (by omega : -v ≤ 2 ^ 63))

theorem abs_nearest_lt {v : ℤ} (hv : |v| ≤ 2 ^ 63) : |nearest v| < 2 ^ 1024 := by
  have hpow : (2 : ℚ) ^ 63 < 2 ^ 1024 := pow_lt_pow_right₀ one_lt_two (by norm_num)
  exact (abs_nearest_le hv).trans_lt hpow

theorem abs_nearest_eq (v : ℤ) : |nearest v| = nearest v.natAbs := by
  rw [Nat.cast_natAbs, Int.cast_abs]
  rcases abs_choice (v : ℚ) with h | h <;> rw [h]
  · rw [abs_of_nonneg (nearest_nonneg (abs_eq_self.mp h))]
  · rw [← abs_neg, ← nearest_neg, abs_of_nonneg (nearest_nonneg (h ▸ abs_nonneg _))]

/-- What is printed for an integer that goes through a double. -/
theorem display_ofInt {v : ℤ} (hv : |v| ≤ 2 ^ 63) (hne : v ≠ 0) :
    display (ofInt v) = (if v < 0 then "-" else "") ++
      positional (shortest (nearest v.natAbs)).1 (shortest (nearest v.natAbs)).2 := by
  have hlt := abs_nearest_lt hv
  have hvalue : value (ofInt v) = nearest v := value_encode (nearest_nearest _) hlt
  have hneg : nearest v < 0 ↔ v < 0 := by
    rw [← neg_pos, ← nearest_neg, ← Int.cast_neg, nearest_pos_iff, neg_pos]
  have hnonzero : nearest (v.natAbs : ℚ) ≠ 0 := by
    have hpos : 0 < nearest ((v.natAbs : ℤ) : ℚ) := nearest_pos_iff.mpr (by omega)
    rw [Int.cast_natCast] at hpos
    exact hpos.ne'
  have hsign : (ofInt v).toNat / 2 ^ 63 = if v < 0 then 1 else 0 := by
    rw [ofInt, sign_encode (nearest_nearest _) hlt]
    simp only [hneg]
  simp only [display, hvalue, abs_nearest_eq, hsign, if_neg hnonzero]
  by_cases h : v < 0
  · rw [if_pos h, if_neg one_ne_zero, if_pos h]
  · rw [if_neg h, if_pos rfl, if_neg h]

/-- An integer of 64 bits that goes through a double is printed as itself if it is the roundest. -/
theorem display_ofInt_eq_iff {v : ℤ} (hv : |v| ≤ 2 ^ 63) :
    display (ofInt v) = toString v ↔ Roundest v := by
  by_cases hzero : v = 0
  · subst hzero
    have hzeros (u : ℤ) (hu : nearest u = nearest ((0 : ℤ) : ℚ)) : u = 0 := by
      rcases lt_trichotomy u 0 with hneg | rfl | hpos
      · have hpos : 0 < nearest ((-u : ℤ) : ℚ) := nearest_pos_iff.mpr (by omega)
        rw [Int.cast_neg, nearest_neg, hu, Int.cast_zero, nearest_zero] at hpos
        exact absurd hpos (by norm_num)
      · rfl
      · have hpos := nearest_pos_iff.mpr hpos
        rw [hu, Int.cast_zero, nearest_zero] at hpos
        exact absurd hpos (lt_irrefl _)
    refine iff_of_true ?_ fun u hu => ?_
    · have hvalue : value (ofInt 0) = nearest ((0 : ℤ) : ℚ) :=
        value_encode (nearest_nearest _) (abs_nearest_lt hv)
      have hsign : (ofInt 0).toNat / 2 ^ 63 = 0 := by
        rw [ofInt, sign_encode (nearest_nearest _) (abs_nearest_lt hv)]
        simp
      have hmagnitude : |nearest ((0 : ℤ) : ℚ)| = 0 := by simp
      simp only [display, hvalue, hsign, hmagnitude, if_true]
      rfl
    · obtain rfl := hzeros u hu
      exact ⟨fun _ => id, fun _ => le_rfl⟩
  · have hpos : 0 < v.natAbs := Int.natAbs_pos.mpr hzero
    have hlt : nearest (v.natAbs : ℚ) < 2 ^ 1024 := by
      rw [← abs_nearest_eq]
      exact abs_nearest_lt hv
    have hiff := positional_shortest_eq_iff hpos hlt
    rw [display_ofInt hv hzero]
    rcases lt_or_gt_of_ne hzero with hneg | hpos'
    · obtain ⟨n, rfl⟩ : ∃ n : ℕ, v = -n := ⟨v.natAbs, by omega⟩
      rw [Int.natAbs_neg, Int.natAbs_natCast] at hiff ⊢
      have hstring : toString (-(n : ℤ)) = "-" ++ toString n := by
        obtain ⟨m, rfl⟩ : ∃ m, n = m + 1 := ⟨n - 1, by omega⟩
        rfl
      rw [if_pos hneg, hstring, String.append_right_inj, hiff]
      exact ⟨Roundest.neg, fun h => by simpa using h.neg⟩
    · obtain ⟨n, rfl⟩ : ∃ n : ℕ, v = n := ⟨v.natAbs, by omega⟩
      rw [Int.natAbs_natCast] at hiff ⊢
      have hstring : toString (n : ℤ) = toString n := rfl
      rw [if_neg (by omega), hstring, String.empty_append, hiff]

end Integers

end Binary64
