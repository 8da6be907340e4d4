import FlowHub.PricingWorkspace.Loading
import Mathlib.Algebra.Order.Round

namespace FlowHub.PricingWorkspace

open Python Txn List Option

/-- A number to so many places, halves away from zero. -/
def halfAway (places : ℕ) (x : ℚ) : ℚ :=
  (if x < 0 then -round (-x * 10 ^ places) else round (x * 10 ^ places) : ℤ) / 10 ^ places

/-- The rational that an operation on prices comes to. -/
def exact : BulkTransformationKind → ℚ → ℚ → ℚ
  | .increasePriceFixed, base, operand => base + operand
  | .decreasePriceFixed, base, operand => base - operand
  | .increasePricePercent, base, operand => base * (1 + operand / 100)
  | .decreasePricePercent, base, operand => base * (1 - operand / 100)
  | _, _, operand => operand

theorem pow_ten_pos (n : ℕ) : (0 : ℚ) < 10 ^ n := by positivity

theorem addDecimal_value (left right : Decimal) :
    (addDecimal left right).value = left.value + right.value := by
  have hleft := Decimal.value_scaled (le_max_left left.scale right.scale)
  have hright := Decimal.value_scaled (le_max_right left.scale right.scale)
  have hne := (pow_ten_pos (max left.scale right.scale)).ne'
  rw [Decimal.value, addDecimal, Int.cast_add, hleft, hright, ← add_mul, mul_div_cancel_right₀ _ hne]

theorem multiplyDecimal_value (left right : Decimal) :
    (multiplyDecimal left right).value = left.value * right.value := by
  simp only [multiplyDecimal, Decimal.value, Int.cast_mul, pow_add]
  ring

theorem transformed_value (kind : BulkTransformationKind) (base operand : Decimal) :
    (transformed kind base operand).value = exact kind base.value operand.value := by
  have hpercent : ∀ n : ℤ, Decimal.value ⟨100 * 10 ^ operand.scale + n, operand.scale + 2⟩ =
      1 + Decimal.value ⟨n, operand.scale⟩ / 100 := by
    intro n
    have hne := (pow_ten_pos operand.scale).ne'
    simp only [Decimal.value, pow_add]
    push_cast
    field_simp
    ring
  have hneg : Decimal.value ⟨-operand.coefficient, operand.scale⟩ = -operand.value := by
    simp [Decimal.value, neg_div]
  cases kind with
  | increasePriceFixed => exact addDecimal_value base operand
  | decreasePriceFixed =>
    simp only [transformed, addDecimal_value, hneg, exact]
    ring
  | increasePricePercent => simp only [transformed, multiplyDecimal_value, hpercent, exact]
  | decreasePricePercent =>
    simp only [transformed, multiplyDecimal_value, sub_eq_add_neg, hpercent, hneg, exact]
    ring
  | setPrice => rfl
  | setStock => rfl
  | setStatus => rfl

variable {x : Decimal}

theorem value_nonneg (h : 0 ≤ x.coefficient) : 0 ≤ x.value :=
  div_nonneg (by exact_mod_cast h) (pow_ten_pos _).le

/-- A quotient of natural numbers to the nearest one. -/
theorem round_div {n divisor : ℤ} (hn : 0 ≤ n) (hpos : 0 < divisor) : round ((n : ℚ) / divisor) =
      n.tdiv divisor + if divisor ≤ n.tmod divisor * 2 then 1 else 0 := by
  have hsplit := Int.mul_tdiv_add_tmod n divisor
  have hlow := Int.tmod_nonneg divisor hn
  have hhigh := Int.tmod_lt_of_pos n hpos
  generalize n.tdiv divisor = q at *
  generalize n.tmod divisor = r at *
  have hdivisor : (0 : ℚ) < divisor := by exact_mod_cast hpos
  have hvalue : (n : ℚ) / divisor = q + r / divisor := by
    rw [← hsplit]
    push_cast
    field_simp
  rw [round_eq, Int.floor_eq_iff, hvalue]
  split
  · rename_i hhalf
    have hhalf : (divisor : ℚ) ≤ r * 2 := by exact_mod_cast hhalf
    have hless : (r : ℚ) < divisor := by exact_mod_cast hhigh
    have h1 : (1 / 2 : ℚ) ≤ r / divisor := by
      rw [le_div_iff₀ hdivisor]
      linarith
    have h2 : (r : ℚ) / divisor < 1 := (div_lt_one hdivisor).mpr hless
    push_cast
    constructor <;> linarith
  · rename_i hhalf
    have hhalf : (r : ℚ) * 2 < divisor := by exact_mod_cast not_le.mp hhalf
    have h1 : (r : ℚ) / divisor < 1 / 2 := by
      rw [div_lt_iff₀ hdivisor]
      linarith
    have h2 : (0 : ℚ) ≤ r / divisor := div_nonneg (by exact_mod_cast hlow) hdivisor.le
    push_cast
    constructor <;> linarith

theorem roundDecimal_value (h : 0 ≤ x.coefficient) (scale : ℕ) :
    (roundDecimal x scale).scale = scale ∧ 0 ≤ (roundDecimal x scale).coefficient ∧
      (roundDecimal x scale).value = halfAway scale x.value := by
  have hvalue := value_nonneg h
  rw [halfAway, if_neg hvalue.not_gt]
  unfold roundDecimal
  by_cases hscale : x.scale ≤ scale
  · rw [if_pos hscale]
    refine ⟨rfl, mul_nonneg h (by positivity), ?_⟩
    rw [← Decimal.value_scaled hscale, round_intCast]
    rfl
  · rw [if_neg hscale]
    have hpos : (0 : ℤ) < 10 ^ (x.scale - scale) := by positivity
    have hremainder := Int.tmod_nonneg (10 ^ (x.scale - scale)) h
    rw [if_neg (by omega)]
    refine ⟨rfl, ?_, ?_⟩
    · have hquotient := Int.tdiv_nonneg h hpos.le
      dsimp only
      split <;> omega
    · rw [Decimal.value, ← round_div h hpos]
      congr 3
      have hcut : x.scale = x.scale - scale + scale := by omega
      have hne := (pow_ten_pos scale).ne'
      rw [Decimal.value]
      push_cast
      nth_rewrite 2 [hcut]
      rw [pow_add]
      field_simp

/-- What the digits of a number are read as again. -/
def Readable (q : ℚ) : Prop := ∃ n k : ℕ, n < 10 ^ maxNumericDigits ∧ k ≤ maxNumericScale ∧ q = n / 10 ^ k

section

variable {whole fraction : List Char} {zeros : ℕ}

theorem unsigned_of_positional (h : Positional text whole fraction) :
    unsigned text = some (whole, fraction) := by
  obtain ⟨hwhole, -⟩ := h.cut (p := Char.isDigit) (fun _ hc => hc) (by decide)
  have hrest : text.dropWhile Char.isDigit = if fraction.isEmpty then [] else '.' :: fraction := by
    have hsplit : text = text.takeWhile Char.isDigit ++ text.dropWhile Char.isDigit :=
      takeWhile_append_dropWhile.symm
    rw [hwhole, h.text_eq] at hsplit
    rw [h.text_eq, ← append_cancel_left hsplit]
  have hdigits : fraction.all Char.isDigit = true := all_eq_true.mpr h.fraction_digits
  have hne : whole.isEmpty = false := by simpa using h.whole_ne
  rw [unsigned, hwhole, hrest]
  cases hfraction : fraction with
  | nil => simp [hne]
  | cons c rest =>
    rw [hfraction] at hdigits
    simp [hne, hdigits]

theorem natural_append_zeros (digits : List Char) (n : ℕ) :
    natural (digits ++ replicate n '0') = natural digits * 10 ^ n := by
  rw [natural, Nat.ofDigitChars_append, Nat.ofDigitChars_replicate_zero, mul_comm]
  rfl

theorem natural_concat (digits : List Char) (c : Char) :
    natural (digits ++ [c]) = 10 * natural digits + (c.toNat - '0'.toNat) := by
  rw [natural, Nat.ofDigitChars_append, Nat.ofDigitChars_cons, Nat.ofDigitChars_nil]
  rfl

/-- The digits of a formatted number. -/
structure Written (x : Decimal) (whole fraction : List Char) (zeros : ℕ) : Prop where
  positional : Positional (formatDecimal x).toList whole fraction
  places : fraction.length + zeros = x.scale
  digits : whole.length + fraction.length + zeros = max (x.scale + 1) (Nat.toDigits 10 x.coefficient.natAbs).length
  number : natural (whole ++ fraction) * 10 ^ zeros = x.coefficient.natAbs
  last : fraction ≠ [] → natural (whole ++ fraction) % 10 ≠ 0

/-- Digits with the zeros at their end apart. -/
theorem zeros_apart (full : List Char) : ∃ zeros,
    full = (full.reverse.dropWhile (· == '0')).reverse ++ replicate zeros '0' := by
  refine ⟨(full.reverse.takeWhile (· == '0')).length, ?_⟩
  have hzeros : full.reverse.takeWhile (· == '0') =
      replicate (full.reverse.takeWhile (· == '0')).length '0' := by
    apply eq_replicate_of_mem
    intro c hc
    simpa using mem_takeWhile_imp hc
  have hsplit : full.reverse = full.reverse.takeWhile (· == '0') ++ full.reverse.dropWhile (· == '0') :=
    takeWhile_append_dropWhile.symm
  have hback := congrArg reverse hsplit
  rw [reverse_reverse, reverse_append, hzeros, reverse_replicate] at hback
  exact hback

theorem written (h : 0 ≤ x.coefficient) : ∃ whole fraction zeros, Written x whole fraction zeros := by
  obtain ⟨text, htext⟩ : ∃ text, text = Nat.toDigits 10 x.coefficient.natAbs := ⟨_, rfl⟩
  obtain ⟨digits, hdigits⟩ : ∃ digits, digits = replicate (x.scale + 1 - text.length) '0' ++ text :=
    ⟨_, rfl⟩
  have hlength : digits.length = max (x.scale + 1) text.length := by
    rw [hdigits, length_append, length_replicate]
    omega
  have hnumber : natural digits = x.coefficient.natAbs := by
    rw [hdigits, natural, Nat.ofDigitChars_append, Nat.ofDigitChars_replicate_zero, mul_zero, htext,
      Nat.ofDigitChars_ten_toDigits]
  have hall : ∀ c ∈ digits, c.isDigit = true := by
    intro c hc
    rw [hdigits, mem_append] at hc
    cases hc with
    | inl hzero => rw [eq_of_mem_replicate hzero]; rfl
    | inr hc =>
      rw [htext] at hc
      exact Nat.isDigit_of_mem_toDigits (by decide) (by decide) hc
  obtain ⟨zeros, hzeros⟩ := zeros_apart (digits.drop (digits.length - x.scale))
  have hcut := take_append_drop (digits.length - x.scale) digits
  have hfraction : (digits.drop (digits.length - x.scale)).length = x.scale := by
    rw [length_drop]
    omega
  have hformat : (formatDecimal x).toList = digits.take (digits.length - x.scale) ++
      if ((digits.drop (digits.length - x.scale)).reverse.dropWhile (· == '0')).reverse.isEmpty then []
      else '.' :: ((digits.drop (digits.length - x.scale)).reverse.dropWhile (· == '0')).reverse := by
    rw [formatDecimal, if_neg h.not_gt, ← htext]
    rw [← hdigits, String.toList_append, String.toList_empty, nil_append, String.toList_ofList]
  generalize hwhole : digits.take (digits.length - x.scale) = whole at *
  generalize hfull : digits.drop (digits.length - x.scale) = full at *
  have hends := head?_dropWhile_not (· == '0') full.reverse
  generalize hstripped : (full.reverse.dropWhile (· == '0')).reverse = fraction at *
  rw [← reverse_reverse (full.reverse.dropWhile _), hstripped, head?_reverse] at hends
  have hparts : ∀ c, c ∈ whole ∨ c ∈ fraction → c.isDigit = true := by
    intro c hc
    apply hall
    rw [← hcut, hzeros, mem_append, mem_append]
    tauto
  refine ⟨whole, fraction, zeros, ⟨hformat, ?_, fun c hc => hparts c (.inl hc),
    fun c hc => hparts c (.inr hc)⟩, ?_, ?_, ?_, ?_⟩
  · intro hnil
    rw [hnil, nil_append] at hcut
    rw [← hcut] at hlength
    omega
  · rw [hzeros, length_append, length_replicate] at hfraction
    exact hfraction
  · rw [← htext, ← hlength, ← hcut, length_append, hzeros, length_append, length_replicate]
    omega
  · rw [← natural_append_zeros, append_assoc, ← hzeros, hcut, hnumber]
  · intro hne
    obtain ⟨init, d, rfl⟩ := (eq_nil_or_concat fraction).resolve_left hne
    rw [concat_eq_append] at *
    have hdigit := digit_range (hparts d (.inr (by simp)))
    rw [getLast?_concat] at hends
    have hzero : d.toNat ≠ 48 := by
      intro heq
      have hd : d = '0' := Char.toNat_inj.mp heq
      simp [hd] at hends
    rw [← append_assoc, natural_concat]
    have h48 : '0'.toNat = 48 := rfl
    omega

theorem Written.value (h : 0 ≤ x.coefficient) (written : Written x whole fraction zeros) :
    x.value = natural (whole ++ fraction) / 10 ^ fraction.length := by
  have hnumber : (x.coefficient : ℚ) = natural (whole ++ fraction) * 10 ^ zeros := by
    rw [← Int.natAbs_of_nonneg h, ← written.number]
    push_cast
    rfl
  have hne := (pow_ten_pos zeros).ne'
  rw [Decimal.value, hnumber, ← written.places, pow_add]
  field_simp

/-- The number that is written is the least that the value is a part of. -/
theorem Written.least (h : 0 ≤ x.coefficient) (written : Written x whole fraction zeros) {n k : ℕ}
    (hvalue : x.value = n / 10 ^ k) : natural (whole ++ fraction) ≤ n := by
  rw [written.value h, div_eq_div_iff (pow_ten_pos _).ne' (pow_ten_pos _).ne'] at hvalue
  have hcross : natural (whole ++ fraction) * 10 ^ k = n * 10 ^ fraction.length := by
    exact_mod_cast hvalue
  by_cases hplaces : fraction.length ≤ k
  · obtain ⟨more, rfl⟩ := Nat.exists_eq_add_of_le hplaces
    rw [pow_add, mul_comm (10 ^ fraction.length), ← mul_assoc] at hcross
    rw [← Nat.eq_of_mul_eq_mul_right (by positivity) hcross]
    exact Nat.le_mul_of_pos_right _ (by positivity)
  · obtain ⟨more, hmore⟩ := Nat.exists_eq_add_of_lt (not_le.mp hplaces)
    refine absurd ?_ (written.last (by
      intro hnil
      simp [hnil] at hplaces))
    rw [hmore, show k + more + 1 = more + 1 + k from by omega, pow_add, ← mul_assoc] at hcross
    rw [Nat.eq_of_mul_eq_mul_right (by positivity) hcross, pow_succ, ← mul_assoc]
    exact Nat.mul_mod_left _ 10

theorem Written.parse (hscale : x.scale ≤ maxNumericScale)
    (written : Written x whole fraction zeros) : parseDecimal (formatDecimal x) =
      if maxNumericDigits < whole.length + fraction.length then none
      else some ⟨natural (whole ++ fraction), fraction.length⟩ := by
  have hfraction : ¬ maxNumericScale < fraction.length := by
    have hplaces := written.places
    omega
  simp [parseDecimal, written.positional.sign, unsigned_of_positional written.positional, hfraction]

/-- A formatted number is read again as the same one where its digits are few enough. -/
theorem parse_formatted (h : 0 ≤ x.coefficient) (hscale : x.scale ≤ maxNumericScale) :
    (∃ d, parseDecimal (formatDecimal x) = some d ∧ d.value = x.value) ↔ Readable x.value := by
  obtain ⟨whole, fraction, zeros, hwritten⟩ := written h
  have hplaces := hwritten.places
  have hdigits := hwritten.digits
  have hsmall : maxNumericScale = 18 := rfl
  have hmany : maxNumericDigits = 100 := rfl
  rw [hwritten.parse hscale]
  constructor
  · rintro ⟨d, hd, -⟩
    split at hd
    · cases hd
    rename_i hfew
    refine ⟨natural (whole ++ fraction), fraction.length, ?_, by omega, hwritten.value h⟩
    have htext : (Nat.toDigits 10 x.coefficient.natAbs).length ≤
        whole.length + fraction.length + zeros := by omega
    rw [Nat.length_toDigits_le_iff (by decide) (by omega), ← hwritten.number, pow_add] at htext
    have hless := Nat.lt_of_mul_lt_mul_right htext
    exact hless.trans_le (Nat.pow_le_pow_right (by decide) (not_lt.mp hfew))
  · rintro ⟨n, k, hn, -, hvalue⟩
    have hless : natural (whole ++ fraction) < 10 ^ maxNumericDigits :=
      (hwritten.least h hvalue).trans_lt hn
    have htext : (Nat.toDigits 10 x.coefficient.natAbs).length ≤ maxNumericDigits + zeros := by
      rw [Nat.length_toDigits_le_iff (by decide) (by omega), ← hwritten.number, pow_add]
      exact Nat.mul_lt_mul_of_pos_right hless (by positivity)
    rw [if_neg (by omega)]
    exact ⟨_, rfl, (hwritten.value h).symm⟩

end

section

variable {changes present : PricingWorkspaceSnapshot} {operation : BulkTransformation}
  {d : PricingFieldDescriptor} {descriptors : List PricingFieldDescriptor} {value : String}

/-- The keys that a preview counts in `fieldsAffected`. -/
def BulkTransformationPreview.affected (preview : BulkTransformationPreview) : List PricingFieldIdentity :=
  (preview.items.filter BulkPreviewItem.applicable).map fun item => item.descriptor.identity

/-- An operation gives a field without a change of its own the value that it has, in another text. -/
def Restates (present : PricingWorkspaceSnapshot) (operation : BulkTransformation)
    (d : PricingFieldDescriptor) : Prop :=
  isPricingFieldEligible d.policy = true ∧ present.get d.identity = none ∧
    ∃ text, transformValue (liveValue present d) d operation = .ok text ∧ text ≠ liveValue present d ∧
      valuesEqual d.currentValue (some text) d.identity.field = true

/-- An item shows what the operation makes of an eligible field, and is blocked otherwise. -/
theorem previewItem_cases (present : PricingWorkspaceSnapshot) (operation : BulkTransformation)
    (d : PricingFieldDescriptor) :
    (isPricingFieldEligible d.policy = true ∧ ∃ value,
      transformValue (liveValue present d) d operation = .ok value ∧ previewItem present operation d =
        ⟨d, liveValue present d, some value, decide (value ≠ liveValue present d), none⟩) ∨
    ((isPricingFieldEligible d.policy = true → ∀ value,
      transformValue (liveValue present d) d operation ≠ .ok value) ∧ ∃ reason,
        previewItem present operation d = ⟨d, liveValue present d, none, false, some reason⟩) := by
  by_cases heligible : isPricingFieldEligible d.policy = true
  · simp only [previewItem, if_pos heligible]
    cases hresult : transformValue (liveValue present d) d operation with
    | ok value => exact .inl ⟨heligible, value, rfl, rfl⟩
    | error reason => exact .inr ⟨fun _ _ h => (by cases h), reason, rfl⟩
  · simp only [previewItem, if_neg heligible]
    exact .inr ⟨fun h => absurd h heligible, _, rfl⟩

theorem previewItem_descriptor : (previewItem present operation d).descriptor = d := by
  cases previewItem_cases present operation d with
  | inl hshown =>
    obtain ⟨-, _, -, heq⟩ := hshown
    rw [heq]
  | inr hblocked =>
    obtain ⟨-, _, heq⟩ := hblocked
    rw [heq]

theorem Restates.applicable (h : Restates present operation d) :
    (previewItem present operation d).applicable = true := by
  obtain ⟨heligible, -, text, htext, hne, -⟩ := h
  cases previewItem_cases present operation d with
  | inl hshown =>
    obtain ⟨-, value, hvalue, heq⟩ := hshown
    cases htext.symm.trans hvalue
    simp [heq, BulkPreviewItem.applicable, hne]
  | inr hblocked => exact absurd htext (hblocked.1 heligible text)

theorem get_editField (key : PricingFieldIdentity) :
    (editField changes ⟨d, value⟩).get key = if key = d.identity then
      if valuesEqual d.currentValue (some value) d.identity.field then none
      else some (changeTo d value (((changes.get d.identity).map (·.selectionMode)).getD .automatic))
    else changes.get key := by
  simp only [editField]
  by_cases hequal : valuesEqual d.currentValue (some value) d.identity.field = true
  · rw [if_pos hequal, if_pos hequal, PricingWorkspaceSnapshot.get_delete]
  · rw [if_neg hequal, if_neg hequal, PricingWorkspaceSnapshot.get_put]
    rfl

/-- An item that is applied where its field is as it was shown. -/
theorem applyItem_shown (same : changes.get d.identity = present.get d.identity) :
    ∃ next, applyItem changes (previewItem present operation d) = .ok next ∧
      (∀ key ≠ d.identity, next.get key = changes.get key) ∧
      (next.get d.identity ≠ present.get d.identity ↔
        (previewItem present operation d).applicable = true ∧ ¬ Restates present operation d) := by
  have hlive : liveValue changes d = liveValue present d := by rw [liveValue, same, liveValue]
  cases previewItem_cases present operation d with
  | inr hblocked =>
    obtain ⟨-, reason, heq⟩ := hblocked
    rw [heq]
    exact ⟨changes, by simp [applyItem, hlive], fun _ _ => rfl, by simp [same, BulkPreviewItem.applicable]⟩
  | inl hshown =>
    obtain ⟨heligible, value, hvalue, heq⟩ := hshown
    rw [heq]
    by_cases hchanged : value = liveValue present d
    · exact ⟨changes, by simp [applyItem, hlive, hchanged], fun _ _ => rfl,
        by simp [same, BulkPreviewItem.applicable, hchanged]⟩
    refine ⟨editField changes ⟨d, value⟩, by simp [applyItem, hlive, hchanged], ?_, ?_⟩
    · intro key hkey
      rw [get_editField, if_neg hkey]
    rw [get_editField, if_pos rfl]
    have happlicable : BulkPreviewItem.applicable
        ⟨d, liveValue present d, some value, decide (value ≠ liveValue present d), none⟩ = true := by
      simp [BulkPreviewItem.applicable, hchanged]
    rw [happlicable, eq_self, true_and]
    constructor
    · rintro hne ⟨-, hnone, text, htext, -, hequal⟩
      cases htext.symm.trans hvalue
      rw [if_pos hequal, hnone] at hne
      exact hne rfl
    · intro hnew heq'
      split at heq'
      · rename_i hequal
        exact hnew ⟨heligible, heq'.symm, value, hvalue, hchanged, hequal⟩
      · -- The text of an entry is the one that is shown.
        apply hchanged
        rw [liveValue, ← heq']
        rfl

/-- The items of different fields, applied one after the other. -/
theorem apply_items (unique : (descriptors.map PricingFieldDescriptor.identity).Nodup)
    (same : ∀ d ∈ descriptors, changes.get d.identity = present.get d.identity) :
    ∃ next, (descriptors.map (previewItem present operation)).foldlM applyItem changes = .ok next ∧
      (∀ key, (∀ d ∈ descriptors, d.identity ≠ key) → next.get key = changes.get key) ∧
      ∀ d ∈ descriptors, (next.get d.identity ≠ present.get d.identity ↔
        (previewItem present operation d).applicable = true ∧ ¬ Restates present operation d) := by
  induction descriptors generalizing changes with
  | nil => exact ⟨changes, rfl, fun _ _ => rfl, by simp⟩
  | cons first rest ih =>
    rw [map_cons, nodup_cons] at unique
    rw [forall_mem_cons] at same
    have hapart : ∀ d ∈ rest, d.identity ≠ first.identity := by
      intro d hd heq
      exact unique.1 (heq ▸ mem_map_of_mem hd)
    obtain ⟨middle, hmiddle, hothers, hfirst⟩ := @applyItem_shown changes present operation first same.1
    obtain ⟨next, hnext, houtside, hrest⟩ := ih unique.2 fun d hd => by
      rw [hothers _ (hapart d hd), same.2 d hd]
    refine ⟨next, ?_, ?_, ?_⟩
    · rw [map_cons, foldlM_cons, hmiddle]
      exact hnext
    · intro key hkey
      rw [forall_mem_cons] at hkey
      rw [houtside key hkey.2, hothers key hkey.1.symm]
    · rw [forall_mem_cons, houtside first.identity hapart]
      exact ⟨hfirst, hrest⟩

end

section

variable {state : PricingWorkspaceState} {operation : BulkTransformation}
  {fields : List PricingFieldDescriptor} {preview : BulkTransformationPreview}
  {d : PricingFieldDescriptor} {text : String} {previous : String}

/-- The exact result of an operation on the displayed price, rounded to the descriptor's scale, which is
the one of the operand or of the price where there is none. -/
def expected (d : PricingFieldDescriptor) (operation : BulkTransformation) (previous : String) : Option ℚ :=
  (parseDecimal operation.value).map fun operand =>
    let base := parseDecimal previous
    let own := if operation.kind = .setPrice then operand.scale else (base.map (·.scale)).getD 0
    halfAway ((d.decimalScale.map Int.toNat).getD own)
      (exact operation.kind (base.getD ⟨0, 0⟩).value operand.value)

theorem parseDecimal_scale {d : Decimal} (h : parseDecimal text = some d) : d.scale ≤ maxNumericScale := by
  unfold parseDecimal at h
  dsimp only at h
  split at h
  · cases h
  split at h
  · cases h
  · rename_i hshort
    cases h
    exact not_lt.mp (not_or.mp hshort).2

/-- A price result is the expected number, and it can be read again where that can be written. -/
theorem transformPrice_expected (scale : scaleValid d.decimalScale = true)
    (h : transformPrice previous d operation = .ok text) : ∃ q, expected d operation previous = some q ∧
      0 ≤ q ∧ ((∃ n, parseDecimal text = some n ∧ n.value = q) ↔ Readable q) := by
  unfold transformPrice at h
  unfold expected
  cases hoperand : parseDecimal operation.value with
  | none => simp [hoperand] at h
  | some operand =>
    simp only [hoperand] at h
    split at h
    · cases h
    split at h
    · cases h
    split at h
    · cases h
    rename_i hresult
    cases h
    have hscale : ∀ own ≤ maxNumericScale, (d.decimalScale.map Int.toNat).getD own ≤ maxNumericScale := by
      intro own hown
      cases hd : d.decimalScale with
      | none => exact hown
      | some n =>
        simp only [scaleValid, hd, getD_some, decide_eq_true_eq] at scale
        have hsmall : maxNumericScale = 18 := rfl
        simp only [map_some, getD_some]
        omega
    have hown : (if operation.kind = .setPrice then operand.scale
        else ((parseDecimal previous).map (·.scale)).getD 0) ≤ maxNumericScale := by
      split
      · exact parseDecimal_scale hoperand
      · cases hprevious : parseDecimal previous with
        | none => exact Nat.zero_le _
        | some base => exact parseDecimal_scale hprevious
    obtain ⟨hplaces, hnonneg, hvalue⟩ := roundDecimal_value (not_lt.mp hresult)
      ((d.decimalScale.map Int.toNat).getD (if operation.kind = .setPrice then operand.scale
        else ((parseDecimal previous).map (·.scale)).getD 0))
    rw [transformed_value] at hvalue
    refine ⟨_, rfl, ?_⟩
    dsimp only
    rw [← hvalue]
    exact ⟨value_nonneg hnonneg, parse_formatted hnonneg (hplaces.le.trans (hscale _ hown))⟩

theorem undo_commit (state : PricingWorkspaceState) (changes : PricingWorkspaceSnapshot) :
    (undoPricingWorkspace (commitUserSnapshot state changes)).present = state.present := by
  have hlast : (commitUserSnapshot state changes).past.getLast? = some state.present := by
    simp only [commitUserSnapshot, length_append, length_singleton, historyLimit]
    rw [drop_append_of_le_length (by omega), getLast?_concat]
  rw [undoPricingWorkspace, hlast]

/-- The fields of a preview. -/
def bulkFields (fields : List PricingFieldDescriptor) (kind : BulkTransformationKind) :
    List PricingFieldDescriptor :=
  fields.filter fun d => decide (d.identity.field = bulkField kind)

theorem preview_items (h : previewBulkTransformation state fields operation = .ok preview) :
    preview = ⟨state.workspaceId, state.scopeId, state.revision,
        (bulkFields fields operation.kind).map (previewItem state.present operation)⟩ ∧
      ((bulkFields fields operation.kind).map PricingFieldDescriptor.identity).Nodup ∧
      ∀ d ∈ bulkFields fields operation.kind, scaleValid d.decimalScale = true := by
  obtain ⟨kept, hkept, rfl⟩ := map_eq_ok.mp h
  have hadmitted := unique_admitted hkept
  obtain ⟨rfl, hunique⟩ := unique_ok hkept
  refine ⟨rfl, hunique.sublist (filter_sublist.map _), ?_⟩
  intro d hd
  exact (hadmitted d (mem_of_mem_filter hd)).scale

theorem mem_affected (h : previewBulkTransformation state fields operation = .ok preview)
    : key ∈ preview.affected ↔ ∃ d ∈ bulkFields fields operation.kind,
        (previewItem state.present operation d).applicable = true ∧ d.identity = key := by
  rw [(preview_items h).1]
  simp [BulkTransformationPreview.affected, previewItem_descriptor, and_assoc]

/-- A fresh preview is applied, and changes what it counts and does not restate. -/
theorem apply_fresh (h : previewBulkTransformation state fields operation = .ok preview) :
    ∃ next, applyBulkTransformation state preview = .ok next ∧
      (∀ key ∉ (bulkFields fields operation.kind).map PricingFieldDescriptor.identity,
        next.present.get key = state.present.get key) ∧
      (∀ d ∈ bulkFields fields operation.kind,
        (next.present.get d.identity ≠ state.present.get d.identity ↔
          (previewItem state.present operation d).applicable = true ∧
          ¬ Restates state.present operation d)) ∧
      if preview.affected = [] then next = state else ∃ changes, next = commitUserSnapshot state changes := by
  obtain ⟨hpreview, hunique, -⟩ := preview_items h
  obtain ⟨changes, hchanges, hothers, hfields⟩ :=
    @apply_items state.present state.present operation _ hunique fun _ _ => rfl
  have hany : preview.affected = [] ↔ preview.items.any BulkPreviewItem.applicable = false := by
    simp [BulkTransformationPreview.affected, filter_eq_nil_iff]
  have happly : applyBulkTransformation state preview = .ok
      (if preview.items.any BulkPreviewItem.applicable then commitUserSnapshot state changes else state) := by
    rw [hpreview]
    simp [applyBulkTransformation, hchanges, Except.map]
  refine ⟨_, happly, ?_⟩
  by_cases hnone : preview.affected = []
  · rw [hany.mp hnone, if_pos hnone]
    refine ⟨fun _ _ => rfl, fun d hd => ⟨fun hne => absurd rfl hne, ?_⟩, rfl⟩
    rintro ⟨happlicable, -⟩
    have hmem := (mem_affected h).mpr ⟨d, hd, happlicable, rfl⟩
    rw [hnone] at hmem
    cases hmem
  · have hsome : preview.items.any BulkPreviewItem.applicable = true := by simpa using hany.not.mp hnone
    rw [hsome, if_pos rfl, if_neg hnone]
    refine ⟨fun key hkey => hothers key ?_, hfields, changes, rfl⟩
    intro d hd heq
    exact hkey (heq ▸ mem_map_of_mem hd)

/-- Applying a preview does what it shows. -/
structure DoneAsShown (state : PricingWorkspaceState) (operation : BulkTransformation)
    (preview : BulkTransformationPreview) : Prop where
  applied : ∃ next, applyBulkTransformation state preview = .ok next ∧
    (∀ key, next.present.get key ≠ state.present.get key ↔ key ∈ preview.affected) ∧
    if preview.affected = [] then next = state
    else (∃ changes, next = commitUserSnapshot state changes) ∧
      (undoPricingWorkspace next).present = state.present
  exact : bulkField operation.kind = .price → ∀ item ∈ preview.items, ∀ text,
    item.resultingValue = some text → ∃ q, expected item.descriptor operation item.previousValue = some q ∧
      0 ≤ q ∧ ∃ n, parseDecimal text = some n ∧ n.value = q

/-- A preview is done as it is shown, if and only if no field without a change of its own is given the
value that it has in another text, and no price comes to more than a hundred digits. -/
theorem bulk_as_previewed (h : previewBulkTransformation state fields operation = .ok preview) :
    DoneAsShown state operation preview ↔
      ∀ d ∈ bulkFields fields operation.kind, ¬ Restates state.present operation d ∧
        (bulkField operation.kind = .price → isPricingFieldEligible d.policy = true → ∀ text q,
          transformValue (liveValue state.present d) d operation = .ok text →
          expected d operation (liveValue state.present d) = some q → Readable q) := by
  obtain ⟨next, hnext, hothers, hfields, hend⟩ := apply_fresh h
  obtain ⟨hpreview, -, hscales⟩ := preview_items h
  have hprice : bulkField operation.kind = .price → ∀ previous d,
      transformValue previous d operation = transformPrice previous d operation := by
    intro hkind previous d
    unfold transformValue
    cases hof : operation.kind with
    | setStock => rw [hof] at hkind; cases hkind
    | setStatus => rw [hof] at hkind; cases hkind
    | _ => rfl
  constructor
  · intro done d hd
    constructor
    · intro hrestates
      obtain ⟨_, hnext', hkeys, -⟩ := done.applied
      cases hnext.symm.trans hnext'
      have hmem := (mem_affected h).mpr ⟨d, hd, hrestates.applicable, rfl⟩
      exact ((hfields d hd).mp ((hkeys _).mpr hmem)).2 hrestates
    · intro hkind heligible text q htext hq
      have hitem : previewItem state.present operation d ∈ preview.items := by
        rw [hpreview]
        exact mem_map_of_mem hd
      have hshown := done.exact hkind _ hitem text
      cases previewItem_cases state.present operation d with
      | inr hblocked => exact absurd htext (hblocked.1 heligible text)
      | inl hitem =>
        obtain ⟨-, value, hvalue, heq⟩ := hitem
        cases htext.symm.trans hvalue
        rw [heq] at hshown
        obtain ⟨q', hq', -, hread⟩ := hshown rfl
        cases hq.symm.trans hq'
        rw [hprice hkind] at htext
        obtain ⟨q', hq', -, hiff⟩ := transformPrice_expected (hscales d hd) htext
        cases hq.symm.trans hq'
        exact hiff.mp hread
  · intro hgood
    constructor
    case applied =>
      refine ⟨next, hnext, ?_, ?_⟩
      · intro key
        rw [mem_affected h]
        constructor
        · intro hchanged
          by_cases hkey : key ∈ (bulkFields fields operation.kind).map PricingFieldDescriptor.identity
          · obtain ⟨d, hd, rfl⟩ := mem_map.mp hkey
            exact ⟨d, hd, ((hfields d hd).mp hchanged).1, rfl⟩
          · exact absurd (hothers key hkey) hchanged
        · rintro ⟨d, hd, happlicable, rfl⟩
          exact (hfields d hd).mpr ⟨happlicable, (hgood d hd).1⟩
      · split
        · rename_i hnone
          rwa [if_pos hnone] at hend
        · rename_i hsome
          rw [if_neg hsome] at hend
          obtain ⟨changes, rfl⟩ := hend
          exact ⟨⟨changes, rfl⟩, undo_commit state changes⟩
    case exact =>
      intro hkind item hitem text htext
      rw [hpreview] at hitem
      obtain ⟨d, hd, rfl⟩ := mem_map.mp hitem
      cases previewItem_cases state.present operation d with
      | inr hblocked =>
        obtain ⟨-, _, heq⟩ := hblocked
        rw [heq] at htext
        cases htext
      | inl hshown =>
        obtain ⟨heligible, value, hvalue, heq⟩ := hshown
        rw [heq] at htext ⊢
        cases htext
        have hvalue' := hvalue
        rw [hprice hkind] at hvalue'
        obtain ⟨q, hq, hnonneg, hiff⟩ := transformPrice_expected (hscales d hd) hvalue'
        exact ⟨q, hq, hnonneg, hiff.mpr ((hgood d hd).2 hkind heligible _ q hvalue hq)⟩

end

namespace Sample

/-- A field that the server has no target for. -/
def untouched (currentValue : String) : PricingFieldDescriptor :=
  { descriptor .price currentValue "" none with targetValue := none }

def bulk (state : PricingWorkspaceState) (fields : List PricingFieldDescriptor)
    (operation : BulkTransformation) : BulkTransformationPreview :=
  ⟨state.workspaceId, state.scopeId, state.revision,
    (bulkFields fields operation.kind).map (previewItem state.present operation)⟩

end Sample

open Sample

example : transformValue "100.05" (untouched "100.05") ⟨.increasePriceFixed, "1"⟩ = .ok "101.05" := by
  decide +kernel

/-- A tenth more. -/
theorem bulk_as_previewed_tenth : DoneAsShown (workspace []) ⟨.increasePricePercent, "10"⟩
    (bulk (workspace []) [untouched "100.05"] ⟨.increasePricePercent, "10"⟩) := by
  have hshown : transformValue "100.05" (untouched "100.05") ⟨.increasePricePercent, "10"⟩ = .ok "110.06" := by
    decide +kernel
  refine (@bulk_as_previewed _ _ [untouched "100.05"] _ rfl).mpr ?_
  intro d hd
  obtain rfl : d = untouched "100.05" := by simpa using mem_of_mem_filter hd
  constructor
  · rintro ⟨-, -, text, htext, -, hequal⟩
    cases hshown.symm.trans htext
    exact absurd hequal (by decide +kernel)
  · intro _ _ _ q _ hq
    have hexpected : expected (untouched "100.05") ⟨.increasePricePercent, "10"⟩ "100.05" =
        some (11006 / 10 ^ 2) := by decide +kernel
    cases hexpected.symm.trans hq
    exact ⟨11006, 2, by decide, by decide, by norm_num⟩

/-- A price of `100.00` that is set to `100` counts as changed and is not, and one of a hundred digits
that is increased is not read again. -/
theorem bulk_not_as_previewed :
    (∃ preview next,
      previewBulkTransformation (workspace []) [untouched "100.00"] ⟨.setPrice, "100"⟩ = .ok preview ∧
      applyBulkTransformation (workspace []) preview = .ok next ∧
      preview.affected = [(untouched "100.00").identity] ∧
      next = { workspace [] with revision := 1, past := [[]] }) ∧
    ∃ preview, previewBulkTransformation (workspace [])
        [untouched (String.ofList (replicate 100 '9'))] ⟨.increasePriceFixed, "1"⟩ = .ok preview ∧
      preview.items.map (fun item => (item.blockedReason, item.resultingValue.map fun text =>
        (parseDecimal text).isSome)) = [(none, some false)] :=
  ⟨⟨_, _, rfl, by decide +kernel, by decide +kernel, rfl⟩, _, rfl, by decide +kernel⟩

end FlowHub.PricingWorkspace
