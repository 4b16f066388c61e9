import PolicyText.Calendar.Duration
import PolicyText.Proofs.Calendar.Row
import PolicyText.Proofs.Outcome
import PolicyText.Proofs.Text.Digits
import PolicyText.Proofs.Text.Trim

/-!
# The text of a duration

A duration is read back from what it is written as in documents (`Duration.parse?_text`).  The minus
sign stands in front of the whole seconds and holds for the places behind the point as well; in a
duration of less than a second it is the only trace of the sign, since `-0` is read as zero.

The same digits can be written behind `PT` (`Duration.inSeconds`).  There the sign is taken off
before the whole seconds are read, so that a fraction of a second keeps it; but the least whole
second of 64 bits has none of 64 bits opposite to it, and is not read (`Duration.read_inSeconds`).
-/

namespace PolicyText.Duration

open Text

lemma nanoseconds_eq (d : Duration) :
    signed (decide (d.nanoseconds < 0)) d.wholeSeconds * nanosecondsPerSecond
        + (if d.nanoseconds < 0 then -((d.nanoseconds.natAbs % 10 ^ 9 : Nat) : Int)
          else (d.nanoseconds.natAbs % 10 ^ 9 : Nat))
      = d.nanoseconds := by
  by_cases hNegative : d.nanoseconds < 0 <;>
    simp only [signed, wholeSeconds, nanosecondsPerSecond, hNegative, decide_true, decide_false,
      if_true, Bool.false_eq_true, if_false] <;>
    omega

lemma contains_wholeSeconds (d : Duration) :
    IntegerRange.int64.contains (signed (decide (d.nanoseconds < 0)) d.wholeSeconds) = true := by
  have hWhole : signed (decide (d.nanoseconds < 0)) d.wholeSeconds
      = d.nanoseconds.tdiv nanosecondsPerSecond := by
    by_cases hNegative : d.nanoseconds < 0 <;>
      simp only [signed, wholeSeconds, hNegative, decide_true, decide_false, if_true,
        Bool.false_eq_true, if_false, Int.ofNat_tdiv]
    · have hNat : (d.nanoseconds.natAbs : Int) = -d.nanoseconds := by omega
      rw [hNat, Int.neg_tdiv, Int.neg_neg]
      rfl
    · have hNat : (d.nanoseconds.natAbs : Int) = d.nanoseconds := by omega
      rw [hNat]
      rfl
  have hBounded := d.bounded
  rwa [isDuration, ← hWhole] at hBounded

/-- The text of a duration begins with a minus sign exactly if it is negative. -/
lemma head?_text (d : Duration) :
    (d.text.head? == some '-') = decide (d.nanoseconds < 0) := by
  by_cases hNegative : d.nanoseconds < 0
  · rw [text, if_pos hNegative, decide_eq_true hNegative]
    rfl
  · obtain ⟨c, rest, hDecimal⟩ := List.exists_cons_of_ne_nil (decimal_ne_nil d.wholeSeconds)
    have hDigit : c.isDigit = true := isDigit_of_mem_decimal (by rw [hDecimal]; simp)
    rw [text, if_neg hNegative, List.nil_append, hDecimal, List.cons_append, List.head?_cons,
      decide_eq_false hNegative, beq_eq_false_iff_ne, ne_eq, Option.some.injEq]
    exact (not_sign_of_isDigit hDigit).2

lemma placesValue_paddedDecimal {places : Nat} (hPlaces : places < 10 ^ 9) :
    placesValue (paddedDecimal 9 places) = places := by
  have hLength := length_paddedDecimal (by decide) hPlaces
  rw [placesValue, digitsValue_eq fun c hc => isDigit_of_mem_paddedDecimal hc, hLength,
    ofDigitChars_paddedDecimal, Nat.sub_self, Nat.pow_zero, Nat.mul_one]

/-! ## The text in a document -/

/-- A duration is read back from its text. -/
lemma parse?_text (d : Duration) : parse? d.text = some d := by
  have hPlaces : d.nanoseconds.natAbs % 10 ^ 9 < 10 ^ 9 := Nat.mod_lt _ (by decide)
  have hLength := length_paddedDecimal (by decide) hPlaces
  have hDigits : ∀ c ∈ paddedDecimal 9 (d.nanoseconds.natAbs % 10 ^ 9), c.isDigit = true :=
    fun c hc => isDigit_of_mem_paddedDecimal hc
  have hWholeRun : ∀ c ∈ (if d.nanoseconds < 0 then ['-'] else []) ++ decimal d.wholeSeconds,
      (c != '.') = true := by
    intro c hc
    rw [bne_iff_ne]
    rintro rfl
    obtain hSign | hDigit := List.mem_append.1 hc
    · split at hSign
      · cases List.mem_singleton.1 hSign
      · cases hSign
    · cases isDigit_of_mem_decimal hDigit
  have hTake : d.text.takeWhile (· != '.')
      = (if d.nanoseconds < 0 then ['-'] else []) ++ decimal d.wholeSeconds :=
    takeWhile_append_cons hWholeRun rfl
  have hDrop : (d.text.dropWhile (· != '.')).drop 1
      = paddedDecimal 9 (d.nanoseconds.natAbs % 10 ^ 9) := by
    rw [text, dropWhile_append_cons hWholeRun rfl]
    rfl
  have hWhole : readInteger .int64
        ((if d.nanoseconds < 0 then ['-'] else []) ++ decimal d.wholeSeconds)
      = .ok (signed (decide (d.nanoseconds < 0)) d.wholeSeconds) := by
    have hRead := readInteger_signed (by decide) d.contains_wholeSeconds (fun _ => by decide)
    simpa only [decide_eq_true_eq] using hRead
  have hValue : placesValue ((paddedDecimal 9 (d.nanoseconds.natAbs % 10 ^ 9)).take 9)
      = d.nanoseconds.natAbs % 10 ^ 9 := by
    rw [List.take_of_length_le (Nat.le_of_eq hLength), placesValue_paddedDecimal hPlaces]
  have hNotEmpty : (paddedDecimal 9 (d.nanoseconds.natAbs % 10 ^ 9)).isEmpty = false :=
    List.isEmpty_eq_false_iff.2 (paddedDecimal_ne_nil _ _)
  have hAll : (paddedDecimal 9 (d.nanoseconds.natAbs % 10 ^ 9)).all Char.isDigit = true :=
    List.all_eq_true.2 hDigits
  rw [parse?]
  simp only [hTake, hDrop, hWhole, hValue, head?_text, hNotEmpty, hAll, decide_eq_true_eq,
    Bool.not_true, Bool.or_false, Bool.false_eq_true, if_false, nanoseconds_eq]
  exact dif_pos d.bounded

/-! ## A duration in seconds -/

lemma ofNanoseconds_nanoseconds (d : Duration) : ofNanoseconds d.nanoseconds = .ok d := by
  rw [ofNanoseconds, ofNanoseconds?, dif_pos d.bounded]

/-- A number of seconds behind `PT` is read as that many seconds. -/
lemma read_seconds (sign : Sign) {run : List Char} (hRun : ∀ c ∈ run, c.isDigit = true ∨ c = '.')
    (hNonempty : run ≠ []) :
    read ('P' :: 'T' :: (sign.text ++ run ++ ['S'])) = ofSeconds (sign.text ++ run) := by
  have hAmounts : readAmounts [] (sign.text ++ run ++ ['S']) = .ok [⟨sign.text ++ run, 'S'⟩] :=
    readAmounts_number sign hRun hNonempty (fun _ => rfl) []
  have hTime : (sign.text ++ run ++ ['S']).isEmpty = false :=
    List.isEmpty_eq_false_iff.2 (List.append_ne_nil_of_right_ne_nil _ (List.cons_ne_nil _ _))
  have hSum : addTime none zero [⟨sign.text ++ run, 'S'⟩] = ofSeconds (sign.text ++ run) := by
    have hPlace : unitPlace .duration timeUnits none 'S' = .ok 2 := rfl
    have hAmount : ofTimeAmount ⟨sign.text ++ run, 'S'⟩ = ofSeconds (sign.text ++ run) := rfl
    simp only [addTime, hPlace, hAmount]
    cases ofSeconds (sign.text ++ run) with
    | error fault => rfl
    | ok part =>
      have hAdd : zero.add part = .ok part := by
        rw [add, show zero.nanoseconds = 0 from rfl, Int.zero_add, ofNanoseconds_nanoseconds]
      simp only [hAdd]
  have hRead : read ('P' :: 'T' :: (sign.text ++ run ++ ['S'])) =
      if !false && (sign.text ++ run ++ ['S']).isEmpty then .error .missingTime
      else (do
        let times ← readAmounts [] (sign.text ++ run ++ ['S'])
        let sum ← addTime none zero times
        if times.isEmpty then .error (.empty .duration) else .ok sum) :=
    rfl
  rw [hRead, hTime, hAmounts, Except.ok_bind, hSum]
  cases ofSeconds (sign.text ++ run) <;> rfl

/-- Whole seconds and nine places are read as what they amount to, if the seconds have 64 bits
before their sign is looked at. -/
lemma ofSeconds_decimal (sign : Sign) (whole : Nat) {places : Nat} (hPlaces : places < 10 ^ 9) :
    ofSeconds (sign.text ++ (decimal whole ++ '.' :: paddedDecimal 9 places)) =
      (wholeAmount (decimal whole) 'S').bind fun seconds =>
        ofNanoseconds (sign.apply (seconds * nanosecondsPerSecond + places)) := by
  obtain ⟨c, rest, hWhole⟩ := List.exists_cons_of_ne_nil (decimal_ne_nil whole)
  have hSign : takeSign (sign.text ++ (decimal whole ++ '.' :: paddedDecimal 9 places))
      = (decide (sign = .minus), decimal whole ++ '.' :: paddedDecimal 9 places) := by
    have hDigit : c.isDigit = true := isDigit_of_mem_decimal (by rw [hWhole]; simp)
    obtain ⟨hPlus, hMinus⟩ := not_sign_of_isDigit hDigit
    rw [hWhole, List.cons_append]
    exact takeSign_append sign hPlus hMinus
  have hRun : ∀ c ∈ decimal whole, (c != '.') = true :=
    fun c hc => bne_iff_ne.2 (ne_of_isDigit (isDigit_of_mem_decimal hc) rfl)
  have hTake : (decimal whole ++ '.' :: paddedDecimal 9 places).takeWhile (· != '.')
      = decimal whole := takeWhile_append_cons hRun (bne_self_eq_false '.')
  have hDrop : (decimal whole ++ '.' :: paddedDecimal 9 places).dropWhile (· != '.')
      = '.' :: paddedDecimal 9 places := dropWhile_append_cons hRun (bne_self_eq_false '.')
  have hEmpty : (decimal whole).isEmpty = false := List.isEmpty_eq_false_iff.2 (decimal_ne_nil whole)
  have hLength : ¬ 9 < (paddedDecimal 9 places).length :=
    Nat.not_lt.2 (Nat.le_of_eq (length_paddedDecimal (by decide) hPlaces))
  have hAll : (paddedDecimal 9 places).all Char.isDigit = true :=
    List.all_eq_true.2 fun c hc => isDigit_of_mem_paddedDecimal hc
  rw [ofSeconds, hSign]
  simp only [hTake, hDrop, hEmpty, hLength, hAll, placesValue_paddedDecimal hPlaces,
    List.drop_succ_cons, List.drop_zero, Bool.false_and, decide_false, Bool.not_true, Bool.or_false,
    Bool.false_eq_true, if_false, Sign.ite_minus]
  cases wholeAmount (decimal whole) 'S' <;> rfl

/-- Seconds and a fraction of a second that is not on the other side of zero, as they are written
behind `PT`. -/
def inSeconds (seconds fraction : Int) : List Char :=
  'P' :: 'T' :: ((if seconds < 0 ∨ fraction < 0 then ['-'] else []) ++ decimal seconds.natAbs ++
    '.' :: paddedDecimal 9 fraction.natAbs ++ ['S'])

lemma tdiv_of_fraction {seconds fraction : Int} (hFraction : fraction.natAbs < nanosecondsPerSecond)
    (hPositive : 0 < seconds → 0 ≤ fraction) (hNegative : seconds < 0 → fraction ≤ 0) :
    (seconds * nanosecondsPerSecond + fraction).tdiv nanosecondsPerSecond = seconds := by
  rw [nanosecondsPerSecond] at hFraction ⊢
  obtain hSign | hSign := Int.le_total 0 (seconds * 10 ^ 9 + fraction)
  · rw [Int.tdiv_eq_ediv_of_nonneg hSign]
    omega
  · have hTurned : 0 ≤ -(seconds * 10 ^ 9 + fraction) := Int.neg_nonneg_of_nonpos hSign
    rw [← Int.neg_neg (seconds * 10 ^ 9 + fraction), Int.neg_tdiv,
      Int.tdiv_eq_ediv_of_nonneg hTurned]
    omega

lemma exists_sign_inSeconds {seconds fraction : Int} (hPositive : 0 < seconds → 0 ≤ fraction)
    (hNegative : seconds < 0 → fraction ≤ 0) :
    ∃ sign : Sign, sign.text = (if seconds < 0 ∨ fraction < 0 then ['-'] else []) ∧
      sign.apply (seconds.natAbs * nanosecondsPerSecond + fraction.natAbs)
        = seconds * nanosecondsPerSecond + fraction := by
  rw [nanosecondsPerSecond]
  by_cases hMinus : seconds < 0 ∨ fraction < 0
  · refine ⟨.minus, (if_pos hMinus).symm, ?_⟩
    rw [Sign.apply]
    omega
  · refine ⟨.absent, (if_neg hMinus).symm, ?_⟩
    simp only [Sign.apply]
    omega

lemma isDigit_or_of_mem_seconds {whole places : Nat} {c : Char}
    (hc : c ∈ decimal whole ++ '.' :: paddedDecimal 9 places) : c.isDigit = true ∨ c = '.' := by
  obtain hc | hc := List.mem_append.1 hc
  · exact Or.inl (isDigit_of_mem_decimal hc)
  · exact (List.mem_cons.1 hc).symm.imp_left isDigit_of_mem_paddedDecimal

/-- **Every duration but those of the least whole second can be written in seconds.**  The sign is
taken off before the whole seconds are read, and without it the least of them do not have 64
bits. -/
theorem read_inSeconds (seconds fraction : Int)
    (hSeconds : IntegerRange.int64.contains seconds = true)
    (hFraction : fraction.natAbs < nanosecondsPerSecond)
    (hPositive : 0 < seconds → 0 ≤ fraction) (hNegative : seconds < 0 → fraction ≤ 0) :
    ∃ d : Duration, d.nanoseconds = seconds * nanosecondsPerSecond + fraction ∧
      read (inSeconds seconds fraction) =
        if seconds = -2 ^ 63 then .error (.invalidAmount "9223372036854775808" 'S') else .ok d := by
  have hBounded : isDuration (seconds * nanosecondsPerSecond + fraction) = true := by
    rw [isDuration, tdiv_of_fraction hFraction hPositive hNegative]
    exact hSeconds
  refine ⟨⟨_, hBounded⟩, rfl, ?_⟩
  obtain ⟨sign, hText, hSigned⟩ := exists_sign_inSeconds hPositive hNegative
  have hPlaces : fraction.natAbs < 10 ^ 9 := by
    rw [nanosecondsPerSecond] at hFraction
    omega
  rw [inSeconds, ← hText, List.append_assoc sign.text,
    read_seconds sign (fun _ => isDigit_or_of_mem_seconds)
      (List.append_ne_nil_of_left_ne_nil (decimal_ne_nil _) _),
    ofSeconds_decimal sign _ hPlaces, wholeAmount]
  split_ifs with hLeast
  · rw [hLeast]
    rfl
  · have hWhole : IntegerRange.int64.contains (seconds.natAbs : Int) = true := by
      simp only [IntegerRange.contains, Bool.and_eq_true, decide_eq_true_eq] at hSeconds ⊢
      simp only [IntegerRange.int64] at hSeconds ⊢
      omega
    have hRead : readInteger .int64 (decimal seconds.natAbs) = .ok (seconds.natAbs : Int) :=
      @readInteger_signed .int64 false _ (by decide) hWhole (fun h => absurd h Bool.false_ne_true)
    simp only [hRead, Except.bind, hSigned]
    exact ofNanoseconds_nanoseconds ⟨_, hBounded⟩

/-- Half a second before zero has no whole seconds to which its sign could belong, and is read. -/
theorem read_inSeconds_half :
    inSeconds 0 (-500000000) = "PT-0.500000000S".toList ∧
      ∃ d : Duration, d.nanoseconds = -500000000 ∧ read (inSeconds 0 (-500000000)) = .ok d := by
  obtain ⟨d, hNanoseconds, hRead⟩ := read_inSeconds 0 (-500000000) (by decide) (by decide)
    (fun h => absurd h (by decide)) (fun h => absurd h (by decide))
  exact ⟨by decide +kernel, d, hNanoseconds, hRead⟩

/-- The least whole second makes a duration, and that duration written in seconds is refused. -/
theorem read_inSeconds_least :
    (∃ d : Duration, d.nanoseconds = -2 ^ 63 * nanosecondsPerSecond) ∧
      inSeconds (-2 ^ 63) 0 = "PT-9223372036854775808.000000000S".toList ∧
      read "PT-9223372036854775808.000000000S".toList
        = .error (.invalidAmount "9223372036854775808" 'S') :=
  ⟨⟨⟨_, by decide +kernel⟩, rfl⟩, by decide +kernel, Except.eq_error_of_failsWith (by decide +kernel)⟩

end PolicyText.Duration
