import FlowHub.Python.Coercion
import FlowHub.Python.Words

namespace FlowHub.Python

open List

variable {u : Unicode}

/-- What the tables say of ASCII digits. -/
structure Unicode.Digits (u : Unicode) : Prop where
  visible : u.DigitsVisible
  decimal : ∀ c : Char, c.isDigit = true → u.decimal c = some (c.toNat - '0'.toNat)

theorem Unicode.ascii_digits : Unicode.ascii.Digits where
  visible := Unicode.ascii_digitsVisible
  decimal c hc := by
    have hrange : '0' ≤ c ∧ c ≤ '9' := by
      rw [Char.isDigit, ← Bool.decide_and, decide_eq_true_eq] at hc
      exact hc
    simp [Unicode.ascii, if_pos hrange]

theorem digit_ne {c d : Char} (hc : c.isDigit = true) (hd : d.isDigit = false) : c ≠ d := by
  intro h
  rw [h, hd] at hc
  cases hc

theorem digits_of_isDigit (law : u.Digits) {text : List Char} (h : ∀ c ∈ text, c.isDigit = true) :
    digits u text = some (text.map fun c => c.toNat - '0'.toNat) := by
  induction text with
  | nil => rfl
  | cons c rest ih =>
    rw [forall_mem_cons] at h
    simp only [digits] at ih
    simp only [digits, mapM_cons, law.decimal c h.1, ih h.2]
    rfl

theorem ofDigits_map (text : List Char) (n : Nat) :
    (text.map fun c => c.toNat - '0'.toNat).foldl (fun n d => 10 * n + d) n = Nat.ofDigitChars 10 text n := by
  rw [Nat.ofDigitChars_eq_foldl, foldl_map]

theorem underscoresOk_of_isDigit (h : ∀ c ∈ text, c.isDigit = true) : underscoresOk u text = true := by
  have hnone : '_' ∉ text := by
    intro hmem
    exact absurd (h _ hmem) (by decide)
  induction text with
  | nil => rfl
  | cons c rest ih =>
    rw [forall_mem_cons] at h
    rw [mem_cons, not_or] at hnone
    unfold underscoresOk
    split
    · rename_i heq
      exact absurd (cons.inj heq).1.symm hnone.1
    · rename_i heq
      rw [(cons.inj heq).2] at hnone
      exact absurd mem_cons_self hnone.2
    · rename_i heq
      rw [(cons.inj heq).2] at hnone
      exact absurd mem_cons_self hnone.2
    · rename_i heq
      rw [← (cons.inj heq).2]
      exact ih h.2 hnone.2
    · rfl

theorem toLower_of_isDigit {c : Char} (h : c.isDigit = true) : c.toLower = c := by
  apply dif_neg
  intro hupper
  have hnine : c.val ≤ '9'.val := by
    rw [Char.isDigit, Bool.and_eq_true, decide_eq_true_eq, decide_eq_true_eq] at h
    exact h.2
  have hbig : 'A'.val ≤ '9'.val := UInt32.le_trans hupper.1 hnine
  exact absurd hbig (by decide)

/-- What the tables say of ASCII text: its digits, what of it is whitespace, and that it is
normal. -/
structure Unicode.AsciiNormal (u : Unicode) : Prop where
  digits : u.Digits
  printable : u.Printable
  nfkc : ∀ text : String, (∀ c ∈ text.toList, c.toNat < 128) → u.nfkc text = text

theorem Unicode.ascii_asciiNormal : Unicode.ascii.AsciiNormal where
  digits := Unicode.ascii_digits
  printable := Unicode.ascii_printable
  nfkc _ _ := rfl

/-- ASCII text without whitespace or control characters. -/
def Visible (text : List Char) : Prop := ∀ c ∈ text, 33 ≤ c.toNat ∧ c.toNat < 127

theorem canonicalText_of_visible (law : u.AsciiNormal) (hne : text.toList ≠ [])
    (h : Visible text.toList) : canonicalText u text = text := by
  have hascii : ∀ c ∈ text.toList, c.toNat < 128 := by
    intro c hc
    have := h c hc
    omega
  have hspace : ∀ c ∈ text.toList, u.isSpace c = false := by
    intro c hc
    have := h c hc
    exact law.printable.isSpace_ascii c this.1 this.2
  rw [canonicalText, law.nfkc text hascii, words_of_visible hne hspace]
  simp

theorem digit_range {c : Char} (hc : c.isDigit = true) : 48 ≤ c.toNat ∧ c.toNat ≤ 57 := by
  simpa [Char.isDigit, UInt32.le_iff_toNat_le] using hc

/-- Digits, and a point with more digits behind it where there is a fraction. -/
structure Positional (text whole fraction : List Char) : Prop where
  text_eq : text = whole ++ if fraction.isEmpty then [] else '.' :: fraction
  whole_ne : whole ≠ []
  whole_digits : ∀ c ∈ whole, c.isDigit = true
  fraction_digits : ∀ c ∈ fraction, c.isDigit = true

section

variable {text whole fraction : List Char}

variable {negative : Bool} {value : List Char} {c : Char}

theorem Positional.mem (h : Positional text whole fraction) (hc : c ∈ text) : c.isDigit = true ∨ c = '.' := by
  rw [h.text_eq, mem_append] at hc
  rcases hc with hc | hc
  · exact .inl (h.whole_digits c hc)
  split at hc
  · cases hc
  · rcases mem_cons.mp hc with rfl | hc
    · exact .inr rfl
    · exact .inl (h.fraction_digits c hc)

theorem Positional.head (h : Positional text whole fraction) :
    ∃ c rest, text = c :: rest ∧ c.isDigit = true := by
  obtain ⟨c, rest, hwhole⟩ := exists_cons_of_ne_nil h.whole_ne
  refine ⟨c, rest ++ if fraction.isEmpty then [] else '.' :: fraction, ?_, ?_⟩
  · rw [h.text_eq, hwhole, cons_append]
  · apply h.whole_digits
    rw [hwhole]
    exact mem_cons_self

theorem Positional.sign (h : Positional text whole fraction) : sign text = (false, text) := by
  obtain ⟨c, rest, rfl, hc⟩ := h.head
  unfold Python.sign
  split
  · rename_i heq
    rw [(cons.inj heq).1] at hc
    exact absurd hc (by decide)
  · rename_i heq
    rw [(cons.inj heq).1] at hc
    exact absurd hc (by decide)
  · rfl

theorem special_of_digit (hc : c.isDigit = true) : special negative (c :: rest) = none := by
  have hname : ∀ name : String, name.toList.head?.any Char.isDigit = false →
      String.ofList ((c :: rest).map Char.toLower) ≠ name := by
    intro name hhead heq
    rw [← heq, String.toList_ofList, map_cons, head?_cons, Option.any_some,
      toLower_of_isDigit hc, hc] at hhead
    cases hhead
  have hinf := hname "inf" (by decide)
  have hinfinity := hname "infinity" (by decide)
  have hnan := hname "nan" (by decide)
  simp only [special, hinf, hinfinity, hnan, or_self, if_false]

theorem Positional.cut {p : Char → Bool} (h : Positional text whole fraction)
    (hdigit : ∀ c : Char, c.isDigit = true → p c = true) (hpoint : p '.' = false) :
    text.takeWhile p = whole ∧ (text.dropWhile p).drop 1 = fraction := by
  have hall : ∀ c ∈ whole, p c = true := fun c hc => hdigit c (h.whole_digits c hc)
  rw [h.text_eq, takeWhile_append_of_pos hall, dropWhile_append_of_pos hall]
  by_cases hnone : fraction = []
  · simp [hnone]
  · simp [hnone, hpoint]

theorem Positional.magnitude (law : u.Digits) (h : Positional text whole fraction) : magnitude u text =
      some ((Nat.ofDigitChars 10 (whole ++ fraction) 0 : ℚ) / 10 ^ fraction.length) := by
  have hmantissa : ∀ c ∈ text, (!(c == 'e' || c == 'E')) = true := by
    intro c hc
    rcases h.mem hc with hc | rfl
    · simp [digit_ne hc (d := 'e') (by decide), digit_ne hc (d := 'E') (by decide)]
    · decide
  have htake : text.takeWhile (fun c => !(c == 'e' || c == 'E')) = text :=
    takeWhile_eq_self_iff.mpr hmantissa
  have hdrop : text.dropWhile (fun c => !(c == 'e' || c == 'E')) = [] :=
    dropWhile_eq_nil_iff.mpr hmantissa
  have hpoint := h.cut (p := fun c => c != '.') (by
    intro c hc
    simp [digit_ne hc (d := '.') (by decide)]) (by decide)
  have hwhole := digits_of_isDigit law h.whole_digits
  have hfraction := digits_of_isDigit law h.fraction_digits
  have hne : (whole.map fun c => c.toNat - '0'.toNat).isEmpty = false := by
    simpa using h.whole_ne
  have hvalue := ofDigits_map (whole ++ fraction) 0
  rw [map_append] at hvalue
  simp only [Python.magnitude, htake, hdrop, hpoint, hwhole, hfraction, Option.bind_eq_bind,
    Option.bind_some, hne, Bool.false_and, ofDigits, hvalue, length_map]
  simp [div_eq_mul_inv]

theorem Positional.numeral (law : u.Digits) (h : Positional text whole fraction)
    (hsign : Python.sign value = (negative, text)) :
    numeral u value =
      some (.finite ( let q := (Nat.ofDigitChars 10 (whole ++ fraction) 0 : ℚ) / 10 ^ fraction.length
        if negative then -q else q)) := by
  obtain ⟨c, rest, hcons, hc⟩ := h.head
  have hspecial : special negative text = none := by
    rw [hcons]
    exact special_of_digit hc
  simp [Python.numeral, hsign, hspecial, h.magnitude law, Option.map_some]

theorem sign_append (h : Python.sign value = (negative, body)) :
    value = body ∨ value = '-' :: body ∨ value = '+' :: body := by
  unfold Python.sign at h
  split at h
  · cases h
    exact .inr (.inl rfl)
  · cases h
    exact .inr (.inr rfl)
  · cases h
    exact .inl rfl

theorem Positional.mem_signed (h : Positional text whole fraction)
    (hsign : Python.sign value = (negative, text)) (hc : c ∈ value) :
    c.isDigit = true ∨ c = '.' ∨ c = '-' ∨ c = '+' := by
  rcases sign_append hsign with rfl | rfl | rfl
  · exact (h.mem hc).imp id .inl
  · rcases mem_cons.mp hc with rfl | hc
    · exact .inr (.inr (.inl rfl))
    · exact (h.mem hc).imp id .inl
  · rcases mem_cons.mp hc with rfl | hc
    · exact .inr (.inr (.inr rfl))
    · exact (h.mem hc).imp id .inl

theorem Positional.visible_signed (h : Positional text whole fraction)
    (hsign : Python.sign value = (negative, text)) : Visible value := by
  intro c hc
  rcases h.mem_signed hsign hc with hc | rfl | rfl | rfl
  · have := digit_range hc
    omega
  · decide
  · decide
  · decide

theorem Positional.filter_signed (h : Positional text whole fraction)
    (hsign : Python.sign value = (negative, text))
    (hd : d.isDigit = false ∧ d ∉ ['.', '-', '+']) : value.filter (· != d) = value := by
  rw [filter_eq_self]
  intro c hc
  rw [bne_iff_ne]
  rintro rfl
  rcases h.mem_signed hsign hc with hc | hc | hc | hc
  · rw [hd.1] at hc
    cases hc
  · exact hd.2 (by simp [hc])
  · exact hd.2 (by simp [hc])
  · exact hd.2 (by simp [hc])

theorem Positional.not_nan (h : Positional text whole fraction)
    (hsign : Python.sign value = (negative, text)) :
    decimalNan u value = false := by
  obtain ⟨c, rest, hcons, hc⟩ := h.head
  have hs : c ≠ 's' := digit_ne hc (by decide)
  have hn : c ≠ 'n' := digit_ne hc (by decide)
  simp [decimalNan, hsign, hcons, toLower_of_isDigit hc, hs, hn]

/-- `Decimal(text)` of a plain numeral. -/
theorem Positional.decimal (law : u.AsciiNormal) (h : Positional text whole fraction)
    {value : String} (hsign : Python.sign value.toList = (negative, text)) :
    decimal u (withoutCommas (canonicalText u value)) =
      some (.finite ( let q := (Nat.ofDigitChars 10 (whole ++ fraction) 0 : ℚ) / 10 ^ fraction.length
        if negative then -q else q)) := by
  have hvisible := h.visible_signed hsign
  have hne : value.toList ≠ [] := by
    intro hnil
    obtain ⟨c, rest, hcons, -⟩ := h.head
    rw [hnil, hcons] at hsign
    cases hsign
  have hspace : ∀ c ∈ value.toList, u.isSpace c = false := by
    intro c hc
    have := hvisible c hc
    exact law.printable.isSpace_ascii c this.1 this.2
  have hcommas : withoutCommas value = value := by
    rw [withoutCommas, h.filter_signed hsign (by decide), String.ofList_toList]
  rw [canonicalText_of_visible law hne hvisible, hcommas, Python.decimal, strip_of_visible hspace,
    h.filter_signed hsign (by decide)]
  simp only [h.not_nan hsign, Bool.false_eq_true, if_false]
  exact h.numeral law.digits hsign

end

section

variable (n : Nat)

theorem isDigit_repr : ∀ c ∈ n.repr.toList, c.isDigit = true := by
  rw [Nat.toList_repr]
  intro c hc
  exact Nat.isDigit_of_mem_toDigits (by decide) (by decide) hc

theorem strip_repr (law : u.Digits) : strip u n.repr.toList = n.repr.toList :=
  strip_of_visible fun c hc => law.visible c (isDigit_repr n c hc)

theorem filter_repr : n.repr.toList.filter (· != '_') = n.repr.toList := by
  rw [filter_eq_self]
  intro c hc
  simp [digit_ne (isDigit_repr n c hc) (d := '_') (by decide)]

theorem positional_repr : Positional n.repr.toList n.repr.toList [] := by
  refine ⟨by simp, ?_, isDigit_repr n, by simp⟩
  rw [Nat.toList_repr]
  exact Nat.toDigits_ne_nil

theorem ofDigitChars_repr : Nat.ofDigitChars 10 n.repr.toList 0 = n := by
  rw [Nat.toList_repr, Nat.ofDigitChars_ten_toDigits]

end

/-- `int(str(n))`. -/
theorem intText_repr (law : u.Digits) (n : Nat) : intText u n.repr = some n := by
  have hne : (n.repr.toList.map fun c => c.toNat - '0'.toNat) ≠ [] := by
    rw [ne_eq, map_eq_nil_iff]
    exact (positional_repr n).whole_ne
  have hvalue : ofDigits (n.repr.toList.map fun c => c.toNat - '0'.toNat) = n := by
    rw [ofDigits, ofDigits_map, ofDigitChars_repr]
  simp only [intText, strip_repr n law, underscoresOk_of_isDigit (isDigit_repr n), if_true, filter_repr,
    (positional_repr n).sign, digits_of_isDigit law (isDigit_repr n), Option.bind_eq_bind,
    Option.bind_some, List.isEmpty_iff, hne, if_false, hvalue, Bool.false_eq_true]

example : decimal .ascii (withoutCommas (canonicalText .ascii "-12.50")) =
    some (.finite (-25 / 2)) := by decide +kernel

end FlowHub.Python
