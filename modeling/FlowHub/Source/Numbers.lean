import FlowHub.Source.Fields
import FlowHub.Txn.Proc

/-! The numbers that Source cells are read as. -/
namespace FlowHub.Source

open Python List Except

/-- Digits as they are, or in groups of three. -/
def Grouped (integer whole : List Char) : Prop :=
  integer = whole ∨ ∃ first rest, 1 ≤ first.length ∧ first.length ≤ 3 ∧
    (∀ group ∈ rest, group.length = 3) ∧ integer = List.intercalate [','] (first :: rest) ∧
    whole = first ++ rest.flatten

/-- An unsigned decimal numeral, with digits on each side of a point. -/
structure Written (digit : Char → Bool) (text whole fraction : List Char) : Prop where
  integer : ∃ integer, Grouped integer whole ∧ text = integer ++ if fraction = [] then [] else '.' :: fraction
  whole_ne : whole ≠ []
  whole_digits : ∀ c ∈ whole, digit c = true
  fraction_digits : ∀ c ∈ fraction, digit c = true

section

variable {integer whole fraction text : List Char} {c : Char} {digit : Char → Bool}

theorem mem_intercalate_comma (hc : c ∈ intercalate [','] groups) : c ∈ groups.flatten ∨ c = ',' := by
  induction groups with
  | nil => simp [intercalate] at hc
  | cons group rest ih =>
    cases rest with
    | nil => exact .inl (by simpa [intercalate] using hc)
    | cons next more =>
      rw [intercalate_cons_cons, append_assoc, mem_append, mem_append] at hc
      rw [flatten_cons, mem_append]
      rcases hc with hc | hc | hc
      · exact .inl (.inl hc)
      · exact .inr (mem_singleton.mp hc)
      · exact (ih hc).imp .inr id

theorem mem_intercalate_of_flatten (hc : c ∈ groups.flatten) : c ∈ intercalate [','] groups := by
  induction groups with
  | nil => cases hc
  | cons group rest ih =>
    cases rest with
    | nil => simpa [intercalate] using hc
    | cons next more =>
      rw [intercalate_cons_cons, append_assoc, mem_append, mem_append]
      rw [flatten_cons, mem_append] at hc
      exact hc.imp id fun hc => .inr (ih hc)

theorem Grouped.mem (h : Grouped integer whole) (hc : c ∈ integer) : c ∈ whole ∨ c = ',' := by
  rcases h with rfl | ⟨first, rest, -, -, -, rfl, rfl⟩
  · exact .inl hc
  · exact mem_intercalate_comma hc

theorem Grouped.sub (h : Grouped integer whole) (hc : c ∈ whole) : c ∈ integer := by
  rcases h with rfl | ⟨first, rest, -, -, -, rfl, rfl⟩
  · exact hc
  · exact mem_intercalate_of_flatten hc

theorem Written.mem_text (h : Written digit text whole fraction) (hc : c ∈ whole ++ fraction) : c ∈ text := by
  obtain ⟨integer, hgrouped, rfl⟩ := h.integer
  rcases mem_append.mp hc with hc | hc
  · exact mem_append_left _ (hgrouped.sub hc)
  · rw [if_neg (ne_nil_of_mem hc)]
    exact mem_append_right _ (mem_cons_of_mem _ hc)

theorem Written.mono {digit' : Char → Bool} (h : Written digit text whole fraction)
    (hsub : ∀ c ∈ text, digit c = true → digit' c = true) : Written digit' text whole fraction where
  integer := h.integer
  whole_ne := h.whole_ne
  whole_digits c hc := hsub c (h.mem_text (mem_append_left _ hc)) (h.whole_digits c hc)
  fraction_digits c hc := hsub c (h.mem_text (mem_append_right _ hc)) (h.fraction_digits c hc)

theorem Written.digit_of_mem (h : Written digit text whole fraction) (hc : c ∈ text) :
    digit c = true ∨ c = ',' ∨ c = '.' := by
  obtain ⟨integer, hgrouped, htext⟩ := h.integer
  rw [htext, mem_append] at hc
  rcases hc with hc | hc
  · exact (hgrouped.mem hc).imp (h.whole_digits c) .inl
  split at hc
  · cases hc
  · rcases mem_cons.mp hc with rfl | hc
    · exact .inr (.inr rfl)
    · exact .inl (h.fraction_digits c hc)

theorem cut_point (h : ∀ c ∈ whole, (c != '.') = true) :
    (whole ++ if fraction = [] then [] else '.' :: fraction).takeWhile (· != '.') = whole ∧
      ((whole ++ if fraction = [] then [] else '.' :: fraction).dropWhile (· != '.')).drop 1 = fraction := by
  rw [takeWhile_append_of_pos h, dropWhile_append_of_pos h]
  by_cases hnone : fraction = []
  · simp [hnone]
  · simp [hnone]

theorem rfind_lt (hc : c ∉ right) : rfind (left ++ right) c < left.length := by
  unfold rfind
  split
  · have hnot : c ∉ right.reverse := by simpa using hc
    rw [reverse_append, idxOf_append, if_neg hnot, length_append, length_reverse]
    push_cast
    omega
  · omega

theorem rfind_eq (hc : c ∉ right) : rfind (left ++ c :: right) c = left.length := by
  have hnot : c ∉ right.reverse := by simpa using hc
  rw [rfind, if_pos (by simp), reverse_append, reverse_cons, append_assoc, idxOf_append, if_neg hnot]
  simp
  omega

end

section Lexeme

variable {u : Unicode}

theorem isDigit_iff : isDigit u text = true ↔ text ≠ [] ∧ ∀ c ∈ text, u.isDigit c = true := by
  simp [isDigit]

variable (hcomma : u.isDigit ',' = false) (hpoint : u.isDigit '.' = false)
include hcomma hpoint

theorem Written.lexeme (h : Written u.isDigit text whole fraction) :
    lexeme u text = .ok (whole ++ if fraction = [] then [] else '.' :: fraction) := by
  obtain ⟨integer, hgrouped, rfl⟩ := h.integer
  have hfraction : ∀ c : Char, u.isDigit c = false → c ∉ fraction := by
    intro c hc hmem
    rw [h.fraction_digits c hmem] at hc
    cases hc
  have hwhole : ∀ c : Char, u.isDigit c = false → c ∉ whole := by
    intro c hc hmem
    rw [h.whole_digits c hmem] at hc
    cases hc
  have hinteger : ∀ c ∈ integer, (c != '.') = true := by
    intro c hc
    rw [bne_iff_ne]
    rintro rfl
    rcases hgrouped.mem hc with hc | hc
    · exact hwhole _ hpoint hc
    · exact absurd hc (by decide)
  have hnone : '.' ∉ integer := fun hc => absurd (hinteger _ hc) (by decide)
  have htake : (integer ++ if fraction = [] then [] else '.' :: fraction).takeWhile (· != '.') = integer := by
    rw [takeWhile_append_of_pos hinteger]
    split <;> simp
  have hdrop : (integer ++ if fraction = [] then [] else '.' :: fraction).dropWhile (· != '.') =
      if fraction = [] then [] else '.' :: fraction := by
    rw [dropWhile_append_of_pos hinteger]
    split <;> simp
  have hcount : ¬1 < (integer ++ if fraction = [] then [] else '.' :: fraction).count '.' := by
    rw [count_append, count_eq_zero_of_not_mem hnone]
    split
    · simp
    · simp [count_eq_zero_of_not_mem (hfraction _ hpoint)]
  have horder : ¬('.' ∈ (integer ++ if fraction = [] then [] else '.' :: fraction) ∧
      ',' ∈ (integer ++ if fraction = [] then [] else '.' :: fraction) ∧
      rfind (integer ++ if fraction = [] then [] else '.' :: fraction) '.' <
        rfind (integer ++ if fraction = [] then [] else '.' :: fraction) ',') := by
    by_cases hempty : fraction = []
    · simp [hempty, hnone]
    rw [if_neg hempty, rfind_eq (hfraction _ hpoint)]
    have hlt : rfind (integer ++ '.' :: fraction) ',' < integer.length := by
      apply rfind_lt
      simp [hfraction _ hcomma]
    omega
  have hall : isDigit u whole = true := isDigit_iff.mpr ⟨h.whole_ne, h.whole_digits⟩
  have hgroups : ',' ∈ integer → ∃ first rest, integer.splitOn ',' = first :: rest ∧ first ≠ [] ∧
      first.length ≤ 3 ∧ (∀ group ∈ rest, group.length = 3 ∧ isDigit u group = true) ∧
      whole = first ++ rest.flatten := by
    intro hmem
    rcases hgrouped with rfl | ⟨first, rest, hone, hthree, hrest, rfl, rfl⟩
    · exact absurd hmem (hwhole _ hcomma)
    refine ⟨first, rest, ?_, ne_nil_of_length_pos hone, hthree, ?_, rfl⟩
    · apply splitOn_intercalate
      · intro group hgroup hin
        apply hwhole _ hcomma
        rw [← flatten_cons, mem_flatten]
        exact ⟨group, hgroup, hin⟩
      · simp
    · intro group hgroup
      have hlength := hrest group hgroup
      refine ⟨hlength, isDigit_iff.mpr ⟨?_, ?_⟩⟩
      · intro hnil
        simp [hnil] at hlength
      · intro c hc
        apply h.whole_digits
        rw [mem_append]
        exact .inr (mem_flatten.mpr ⟨group, hgroup, hc⟩)
  have hinner : (if ',' ∈ integer then (integer.splitOn ',').flatten else integer) = whole := by
    split
    · rename_i hmem
      obtain ⟨first, rest, hsplit, -, -, -, rfl⟩ := hgroups hmem
      rw [hsplit, flatten_cons]
    · rename_i hmem
      rcases hgrouped with rfl | ⟨first, rest, -, -, -, rfl, rfl⟩
      · rfl
      · cases rest with
        | nil => simp [intercalate]
        | cons next more => simp [intercalate_cons_cons] at hmem
  have hgood : ¬(',' ∈ integer ∧ ((integer.splitOn ',').headD [] = [] ∨
      3 < ((integer.splitOn ',').headD []).length ∨
      ∃ group ∈ (integer.splitOn ',').tail, group.length ≠ 3 ∨ isDigit u group = false)) := by
    rintro ⟨hmem, hbad⟩
    obtain ⟨first, rest, hsplit, hne, hthree, hrest, -⟩ := hgroups hmem
    rw [hsplit, headD_cons, tail_cons] at hbad
    rcases hbad with hbad | hbad | ⟨group, hgroup, hbad⟩
    · exact hne hbad
    · omega
    · have hok := hrest group hgroup
      simp [hok.1, hok.2] at hbad
  have hlast : fraction ≠ [] → isDigit u fraction = true := fun hne =>
    isDigit_iff.mpr ⟨hne, h.fraction_digits⟩
  rw [Source.lexeme, if_neg (not_or.mpr ⟨hcount, horder⟩)]
  simp only [htake, hdrop, if_neg hgood, hinner, hall]
  by_cases hempty : fraction = []
  · simp [hempty]
  · simp [hempty, hlast hempty, hfraction _ hcomma]

omit hcomma hpoint in
theorem grouped_of_splitOn (hcommas : ',' ∈ integer)
    (h : ¬(',' ∈ integer ∧ ((integer.splitOn ',').headD [] = [] ∨
      3 < ((integer.splitOn ',').headD []).length ∨
      ∃ group ∈ (integer.splitOn ',').tail, group.length ≠ 3 ∨ isDigit u group = false))) :
    Grouped integer (integer.splitOn ',').flatten := by
  obtain ⟨first, rest, hsplit⟩ := exists_cons_of_ne_nil (splitOn_ne_nil ',' integer)
  simp only [hcommas, true_and, hsplit, headD_cons, tail_cons, not_or, not_exists, not_and,
    Nat.not_lt, not_not] at h
  right
  refine ⟨first, rest, length_pos_of_ne_nil h.1, h.2.1, fun group hgroup => (h.2.2 group hgroup).1, ?_, ?_⟩
  · rw [← hsplit, intercalate_splitOn]
  · rw [hsplit, flatten_cons]

/-- `_numeric_lexeme` takes the numerals in digits of any script. -/
theorem lexeme_ok : lexeme u text = .ok result ↔ ∃ whole fraction, Written u.isDigit text whole fraction ∧
      result = whole ++ if fraction = [] then [] else '.' :: fraction := by
  constructor
  · intro h
    have hrest : text.dropWhile (· != '.') = if (text.dropWhile (· != '.')).take 1 ≠ [] then
        '.' :: (text.dropWhile (· != '.')).drop 1 else [] := by
      cases hrest : text.dropWhile (· != '.') with
      | nil => rfl
      | cons c rest =>
        have hc := head_dropWhile_not (· != '.') (l := text) (by simp [hrest])
        simp only [hrest, head_cons, bne_eq_false_iff_eq] at hc
        simp [hc]
    have finish : ∀ whole, Grouped (text.takeWhile (· != '.')) whole →
        ¬(',' ∈ (text.dropWhile (· != '.')).drop 1 ∨ isDigit u whole = false ∨
          (text.dropWhile (· != '.')).take 1 ≠ [] ∧ ((text.dropWhile (· != '.')).drop 1 = [] ∨
            isDigit u ((text.dropWhile (· != '.')).drop 1) = false)) →
        result = whole ++ (if (text.dropWhile (· != '.')).take 1 ≠ [] then
          '.' :: (text.dropWhile (· != '.')).drop 1 else []) →
        ∃ whole fraction, Written u.isDigit text whole fraction ∧
          result = whole ++ if fraction = [] then [] else '.' :: fraction := by
      intro whole hgrouped hdigits hresult
      simp only [not_or, not_and, Bool.not_eq_false] at hdigits
      have hwhole := isDigit_iff.mp hdigits.2.1
      by_cases hsep : (text.dropWhile (· != '.')).take 1 = []
      · rw [if_neg (not_not.mpr hsep)] at hrest hresult
        refine ⟨whole, [], ⟨⟨_, hgrouped, ?_⟩, hwhole.1, hwhole.2, by simp⟩, hresult⟩
        rw [if_pos rfl, ← hrest, takeWhile_append_dropWhile]
      · have hfraction := hdigits.2.2 hsep
        rw [if_pos hsep] at hrest hresult
        refine ⟨whole, (text.dropWhile (· != '.')).drop 1,
          ⟨⟨_, hgrouped, ?_⟩, hwhole.1, hwhole.2, (isDigit_iff.mp hfraction.2).2⟩, ?_⟩
        · rw [if_neg hfraction.1, ← hrest, takeWhile_append_dropWhile]
        · rw [hresult, if_neg hfraction.1]
    unfold Source.lexeme at h
    dsimp only at h
    split_ifs at h with hbad hgroups hcommas hdigits hsep hdigits hsep
    · exact finish _ (grouped_of_splitOn hcommas hgroups) hdigits
        (by rw [if_pos hsep, ok.inj h])
    · exact finish _ (grouped_of_splitOn hcommas hgroups) hdigits
        (by rw [if_neg hsep, ok.inj h])
    · exact finish _ (.inl rfl) hdigits (by rw [if_pos hsep, ok.inj h])
    · exact finish _ (.inl rfl) hdigits (by rw [if_neg hsep, ok.inj h])
  · rintro ⟨whole, fraction, h, rfl⟩
    exact h.lexeme hcomma hpoint

end Lexeme

variable (u : Unicode)

/-- What the tables say of digits. -/
structure DigitTables : Prop where
  digits : u.Digits
  printable : u.Printable
  ascii : ∀ c : Char, c.toNat < 128 → u.isDigit c = c.isDigit
  visible : ∀ c : Char, u.isDigit c = true → u.isSpace c = false

theorem ascii_isDigit (c : Char) : Unicode.ascii.isDigit c = c.isDigit := by
  simp [Unicode.ascii, Char.isDigit, Char.le_def, ge_iff_le, Bool.decide_and]

theorem ascii_digitTables : DigitTables .ascii where
  digits := Unicode.ascii_digits
  printable := Unicode.ascii_printable
  ascii c _ := ascii_isDigit c
  visible c hc := Unicode.ascii_digitsVisible c (ascii_isDigit c ▸ hc)

/-- The number that a numeral denotes. -/
def Denotes (text : List Char) (q : ℚ) : Prop :=
  ∃ whole fraction ws fs, Written u.isDigit text whole fraction ∧ digits u whole = some ws ∧
    digits u fraction = some fs ∧ q = (ofDigits (ws ++ fs) : ℚ) / 10 ^ fs.length

/-- The text of a cell, as the grammar sees it. -/
def cellText (raw : Cell) : List Char := translate (strip u raw.str.toList)

variable {u} in
theorem numericLexeme_ok
    (h : numericLexeme u raw = .ok (some result)) : lexeme u (cellText u raw) = .ok result := by
  cases raw with
  | null | bool => cases h
  | int | float | text =>
    dsimp only [numericLexeme] at h
    split at h
    · cases h
    · obtain ⟨l, hl, heq⟩ := Txn.map_eq_ok.mp h
      rw [← Option.some.inj heq]
      exact hl

section Reading

variable {u} (tables : DigitTables u)
include tables

theorem digit_ne_ascii (hc : u.isDigit c = true) (hd : d.toNat < 128 ∧ d.isDigit = false) : c ≠ d := by
  rintro rfl
  rw [tables.ascii c hd.1, hd.2] at hc
  cases hc

theorem toLower_ne_ascii (hc : u.isDigit c = true) (hd : d.toNat < 128 ∧ d.isDigit = false) :
    c.toLower ≠ d := by
  by_cases hascii : c.toNat < 128
  · rw [tables.ascii c hascii] at hc
    rw [toLower_of_isDigit hc]
    exact digit_ne hc hd.2
  · have hlower : c.toLower = c := by
      apply dif_neg
      intro hupper
      have hle : c.val.toNat ≤ 'Z'.val.toNat := UInt32.le_iff_toNat_le.mp hupper.2
      exact hascii (lt_of_le_of_lt hle (by decide))
    rw [hlower]
    exact digit_ne_ascii tables hc hd

/-- What `Decimal` reads of a lexeme. -/
theorem ofText_lexeme (hne : whole ≠ []) (hwhole : ∀ c ∈ whole, u.isDigit c = true)
    (hfraction : ∀ c ∈ fraction, u.isDigit c = true)
    (h : Decimal.ofText u (String.ofList (whole ++ if fraction = [] then [] else '.' :: fraction)) =
      some value) :
    ∃ ws fs, digits u whole = some ws ∧ digits u fraction = some fs ∧
      value = .finite false (ofDigits (ws ++ fs)) (-fs.length) := by
  generalize htext : (whole ++ if fraction = [] then [] else '.' :: fraction) = text at h
  have hmem : ∀ c ∈ text, u.isDigit c = true ∨ c = '.' := by
    intro c hc
    rw [← htext, mem_append] at hc
    rcases hc with hc | hc
    · exact .inl (hwhole c hc)
    · split at hc
      · cases hc
      · exact (mem_cons.mp hc).symm.imp (hfraction c) id
  have hother : ∀ {d : Char}, d.toNat < 128 ∧ d.isDigit = false → d ≠ '.' → ∀ c ∈ text, c ≠ d := by
    intro d hd hpoint c hc
    rcases hmem c hc with hc | rfl
    · exact digit_ne_ascii tables hc hd
    · exact hpoint.symm
  obtain ⟨first, rest, hcons⟩ := exists_cons_of_ne_nil hne
  have hfirst : u.isDigit first = true := hwhole first (by simp [hcons])
  have hhead : ∃ more, text = first :: more := ⟨_, by rw [← htext, hcons, cons_append]⟩
  obtain ⟨more, hmore⟩ := hhead
  have hstrip : Python.strip u text = text := by
    apply strip_of_visible
    intro c hc
    rcases hmem c hc with hc | rfl
    · exact tables.visible c hc
    · exact tables.printable.isSpace_ascii '.' (by decide) (by decide)
  have hfilter : text.filter (· != '_') = text := by
    rw [filter_eq_self]
    intro c hc
    simpa using hother (by decide) (by decide) c hc
  have hsign : sign text = (false, text) := by
    have hminus : first ≠ '-' := digit_ne_ascii tables hfirst (by decide)
    have hplus : first ≠ '+' := digit_ne_ascii tables hfirst (by decide)
    rw [hmore]
    unfold sign
    split
    · rename_i heq
      exact absurd (cons.inj heq).1 hminus
    · rename_i heq
      exact absurd (cons.inj heq).1 hplus
    · rfl
  have hi : first.toLower ≠ 'i' := toLower_ne_ascii tables hfirst (by decide)
  have hn : first.toLower ≠ 'n' := toLower_ne_ascii tables hfirst (by decide)
  have hs : first.toLower ≠ 's' := toLower_ne_ascii tables hfirst (by decide)
  have hinfinity : ∀ name : String, name.toList.head? = some 'i' →
      String.ofList (text.map Char.toLower) ≠ name := by
    intro name hname heq
    rw [← heq, String.toList_ofList, hmore, map_cons, head?_cons] at hname
    exact hi (Option.some.inj hname)
  have hnan : Decimal.ofNan u false (text.map Char.toLower) = none := by
    simp [Decimal.ofNan, hmore, hs, hn]
  have hmantissa : ∀ c ∈ text, (!(c == 'e' || c == 'E')) = true := by
    intro c hc
    simp [hother (d := 'e') (by decide) (by decide) c hc, hother (d := 'E') (by decide) (by decide) c hc]
  have htake : text.takeWhile (fun c => !(c == 'e' || c == 'E')) = text :=
    takeWhile_eq_self_iff.mpr hmantissa
  have hdrop : text.dropWhile (fun c => !(c == 'e' || c == 'E')) = [] :=
    dropWhile_eq_nil_iff.mpr hmantissa
  have hpoint : ∀ c ∈ whole, (c != '.') = true := by
    intro c hc
    simpa using digit_ne_ascii tables (hwhole c hc) (by decide)
  have hcut := @cut_point whole fraction hpoint
  rw [htext] at hcut
  simp only [Decimal.ofText, String.toList_ofList, hstrip, hfilter, hsign,
    hinfinity "inf" (by decide), hinfinity "infinity" (by decide), or_self, if_false, hnan,
    Decimal.ofMagnitude, htake, hdrop, hcut, Option.bind_eq_bind, Option.bind_some,
    Option.bind_eq_some_iff] at h
  obtain ⟨ws, hws, fs, hfs, h⟩ := h
  refine ⟨ws, fs, hws, hfs, ?_⟩
  split_ifs at h
  all_goals simpa using (Option.some.inj h).symm

theorem comma_point : u.isDigit ',' = false ∧ u.isDigit '.' = false :=
  ⟨tables.ascii ',' (by decide), tables.ascii '.' (by decide)⟩

theorem Written.unique (h : Written u.isDigit text whole fraction)
    (h' : Written u.isDigit text whole' fraction') : whole = whole' ∧ fraction = fraction' := by
  have hlaw := comma_point tables
  have heq := ok.inj ((h.lexeme hlaw.1 hlaw.2).symm.trans (h'.lexeme hlaw.1 hlaw.2))
  have cut : ∀ whole fraction, Written u.isDigit text whole fraction →
      (whole ++ if fraction = [] then [] else '.' :: fraction).takeWhile (· != '.') = whole ∧
        ((whole ++ if fraction = [] then [] else '.' :: fraction).dropWhile (· != '.')).drop 1 =
          fraction := by
    intro whole fraction h
    have hpoint : ∀ c ∈ whole, (c != '.') = true := by
      intro c hc
      simpa using digit_ne_ascii tables (h.whole_digits c hc) (by decide)
    exact cut_point hpoint
  have hcut := cut _ _ h
  rw [heq, (cut _ _ h').1, (cut _ _ h').2] at hcut
  exact ⟨hcut.1.symm, hcut.2.symm⟩

theorem Denotes.unique (h : Denotes u text q) (h' : Denotes u text r) : q = r := by
  obtain ⟨whole, fraction, ws, fs, hwritten, hws, hfs, rfl⟩ := h
  obtain ⟨whole', fraction', ws', fs', hwritten', hws', hfs', rfl⟩ := h'
  obtain ⟨rfl, rfl⟩ := hwritten.unique tables hwritten'
  obtain rfl := Option.some.inj (hws.symm.trans hws')
  obtain rfl := Option.some.inj (hfs.symm.trans hfs')
  rfl

/-- The number of a lexeme is the one that its text denotes. -/
theorem decimalFromLexeme_ok (h : decimalFromLexeme u raw = .ok (some (result, value))) :
    (∃ coefficient exponent, value = .finite false coefficient exponent) ∧
      Denotes u (cellText u raw) value.value := by
  cases hnumeric : numericLexeme u raw with
  | error e => simp [decimalFromLexeme, hnumeric, bind, Except.bind] at h
  | ok found =>
    cases found with
    | none => simp [decimalFromLexeme, hnumeric, bind, Except.bind] at h
    | some l =>
      have hlaw := comma_point tables
      obtain ⟨whole, fraction, hwritten, rfl⟩ := (lexeme_ok hlaw.1 hlaw.2).mp (numericLexeme_ok hnumeric)
      simp only [decimalFromLexeme, hnumeric, bind, Except.bind] at h
      split at h
      · cases h
      rename_i number hnumber
      split at h
      · cases h
        obtain ⟨ws, fs, hws, hfs, rfl⟩ :=
          ofText_lexeme tables hwritten.whole_ne hwritten.whole_digits hwritten.fraction_digits hnumber
        refine ⟨⟨_, _, rfl⟩, whole, fraction, ws, fs, hwritten, hws, hfs, ?_⟩
        simp [Decimal.value, div_eq_mul_inv]
      · cases h

end Reading

section Ascii

variable {u}

theorem denotes_digits (hne : whole ≠ []) (hwhole : ∀ c ∈ whole, c.isDigit = true)
    (hfraction : ∀ c ∈ fraction, c.isDigit = true) :
    Denotes .ascii (whole ++ if fraction = [] then [] else '.' :: fraction)
      ((Nat.ofDigitChars 10 (whole ++ fraction) 0 : ℚ) / 10 ^ fraction.length) := by
  refine ⟨whole, fraction, _, _, ⟨⟨whole, .inl rfl, rfl⟩, hne, ?_, ?_⟩,
    digits_of_isDigit Unicode.ascii_digits hwhole, digits_of_isDigit Unicode.ascii_digits hfraction, ?_⟩
  · intro c hc
    rw [ascii_isDigit, hwhole c hc]
  · intro c hc
    rw [ascii_isDigit, hfraction c hc]
  · rw [← map_append, ofDigits, ofDigits_map, length_map]

/-- `format(value, "f")` denotes the value. -/
theorem denotes_fixed (coefficient : Nat) (exponent : Int) :
    Denotes .ascii (Decimal.finite false coefficient exponent).fixed.toList
      (Decimal.finite false coefficient exponent).value := by
  have hdigits : ∀ c ∈ Nat.toDigits 10 coefficient, c.isDigit = true := fun c hc =>
    Nat.isDigit_of_mem_toDigits (by decide) (by decide) hc
  have hzeros : ∀ n, ∀ c ∈ replicate n '0', c.isDigit = true := by
    intro n c hc
    rw [(mem_replicate.mp hc).2]
    decide
  have hne : Nat.toDigits 10 coefficient ≠ [] := Nat.toDigits_ne_nil
  by_cases hexponent : 0 ≤ exponent
  · have hall : ∀ c ∈ Nat.toDigits 10 coefficient ++ replicate exponent.toNat '0', c.isDigit = true := by
      intro c hc
      rcases mem_append.mp hc with hc | hc
      · exact hdigits c hc
      · exact hzeros _ c hc
    have hnone : ∀ c ∈ ([] : List Char), c.isDigit = true := by simp
    have h := denotes_digits (by simp [hne]) hall hnone
    rw [append_nil, Nat.ofDigitChars_append, Nat.ofDigitChars_ten_toDigits,
      Nat.ofDigitChars_replicate_zero] at h
    simp only [Decimal.fixed, hexponent, if_true, Bool.false_eq_true, if_false, String.toList_ofList]
    convert h using 1
    · simp
    have hexp : exponent = (exponent.toNat : Int) := (Int.toNat_of_nonneg hexponent).symm
    simp only [Decimal.value, Bool.false_eq_true, if_false]
    conv_lhs => rw [hexp, zpow_natCast]
    push_cast
    simp [mul_comm]
  · have hplaces : 0 < (-exponent).toNat := by omega
    simp only [Decimal.fixed, hexponent, Bool.false_eq_true, if_false, String.toList_ofList]
    generalize hpadded : replicate ((-exponent).toNat + 1 - (Nat.toDigits 10 coefficient).length) '0' ++
      Nat.toDigits 10 coefficient = padded
    have hlength : (-exponent).toNat < padded.length := by
      rw [← hpadded, length_append, length_replicate]
      omega
    have hall : ∀ c ∈ padded, c.isDigit = true := by
      intro c hc
      rw [← hpadded, mem_append] at hc
      rcases hc with hc | hc
      · exact hzeros _ c hc
      · exact hdigits c hc
    have hwhole : padded.take (padded.length - (-exponent).toNat) ≠ [] := by
      apply ne_nil_of_length_pos
      rw [length_take]
      omega
    have hfraction : (padded.drop (padded.length - (-exponent).toNat)).length = (-exponent).toNat := by
      rw [length_drop]
      omega
    have hsome : padded.drop (padded.length - (-exponent).toNat) ≠ [] := by
      apply ne_nil_of_length_pos
      omega
    have hbehind : ∀ c ∈ padded.drop (padded.length - (-exponent).toNat), c.isDigit = true := fun c hc =>
      hall c (mem_of_mem_drop hc)
    have h := denotes_digits hwhole (fun c hc => hall c (mem_of_mem_take hc)) hbehind
    have hnumber : Nat.ofDigitChars 10 padded 0 = coefficient := by
      rw [← hpadded, Nat.ofDigitChars_append, Nat.ofDigitChars_replicate_zero, Nat.mul_zero,
        Nat.ofDigitChars_ten_toDigits]
    rw [if_neg hsome, take_append_drop, hfraction, hnumber] at h
    convert h using 1
    have hexp : exponent = -((-exponent).toNat : Int) := by omega
    simp only [Decimal.value, Bool.false_eq_true, if_false]
    conv_lhs => rw [hexp, zpow_neg, zpow_natCast, one_mul, ← div_eq_mul_inv]

/-- `_decimal_text` keeps the number exactly where it fits the context. -/
theorem decimalText_ok {exponent : Int} (h : decimalText (.finite false coefficient exponent) = .ok target) :
    ∃ r, Denotes .ascii target.toList r ∧ (r = (Decimal.finite false coefficient exponent).value ↔
        Decimal.Fits (Decimal.finite false coefficient exponent).value) := by
  have hvalue : (Decimal.finite false coefficient exponent).value = coefficient * (10 : ℚ) ^ exponent := by
    simp [Decimal.value]
  unfold decimalText at h
  split at h
  · obtain ⟨normal, hnormal, rfl⟩ := Txn.map_eq_ok.mp h
    obtain ⟨rounded, hfix, hkept, m, j, rfl⟩ := Decimal.normalize_ok hnormal
    refine ⟨_, denotes_fixed m j, ?_⟩
    rw [hkept]
    constructor
    · intro heq
      rw [← heq]
      exact Decimal.fits_result hfix
    · intro hfits
      rw [hvalue] at hfits ⊢
      exact Decimal.fix_exact hfits hfix
  · rename_i hzero
    cases h
    rw [not_not] at hzero
    have hnone : (Decimal.finite false 0 0).value = 0 := by simp [Decimal.value]
    have hdenotes : Denotes .ascii "0".toList (Decimal.finite false 0 0).value := denotes_fixed 0 0
    refine ⟨_, hdenotes, ?_⟩
    simp only [hzero, hnone, true_iff]
    exact ⟨0, 0, by decide, by decide, by simp⟩

/-- Tables that agree on the digits of a text read the same number in it. -/
theorem Denotes.transfer (h : Denotes v text q) (hv : v.Digits) (hw : w.Digits)
    (hplain : ∀ c ∈ text, v.isDigit c = true → c.isDigit = true ∧ w.isDigit c = true) :
    Denotes w text q := by
  obtain ⟨whole, fraction, ws, fs, hwritten, hws, hfs, rfl⟩ := h
  have hsame : ∀ part : List Char, (∀ c ∈ part, c ∈ text ∧ v.isDigit c = true) →
      digits v part = digits w part := by
    intro part hpart
    have hdigits : ∀ c ∈ part, c.isDigit = true := fun c hc =>
      (hplain c (hpart c hc).1 (hpart c hc).2).1
    rw [digits_of_isDigit hv hdigits, digits_of_isDigit hw hdigits]
  refine ⟨whole, fraction, ws, fs, hwritten.mono fun c hc hd => (hplain c hc hd).2, ?_, ?_, rfl⟩
  · rw [← hws, hsame]
    intro c hc
    exact ⟨hwritten.mem_text (mem_append_left _ hc), hwritten.whole_digits c hc⟩
  · rw [← hfs, hsame]
    intro c hc
    exact ⟨hwritten.mem_text (mem_append_right _ hc), hwritten.fraction_digits c hc⟩

end Ascii

/-- The tests that a positive number passes under its contract. -/
def Takes (contract : PriceContract) (lexeme : List Char) (value : Decimal) (precision : Int) : Prop :=
  if contract.isRialOrToman u then
    value.whole = true ∧ ('.' ∈ lexeme → contract.fixZeroDecimalPrices ≠ some false)
  else ∃ scaleFactor scaled, (Decimal.ofNat 10).pow precision = .ok scaleFactor ∧
    value.mul scaleFactor = .ok scaled ∧ scaled.whole = true

variable {u} {value : Decimal} {target : Option String}

/-- What the last step of a normaliser answers. -/
theorem answer_set {answer : String → NormalizedSourceField}
    (hanswer : ∀ text, (answer text).instruction = .set ∧ (answer text).target = some text) :
    (∃ field, (do let text ← decimalText value; .ok (answer text)) = .ok field ∧
      field.instruction = .set ∧ field.target = target) ↔
    ∃ text, decimalText value = .ok text ∧ target = some text := by
  simp only [Txn.bind_eq_ok]
  constructor
  · rintro ⟨field, ⟨text, htext, heq⟩, -, rfl⟩
    refine ⟨text, htext, ?_⟩
    rw [← ok.inj heq]
    exact (hanswer text).2
  · rintro ⟨text, htext, rfl⟩
    exact ⟨_, ⟨text, htext, rfl⟩, hanswer text⟩

/-- An answer with another instruction sets nothing. -/
theorem not_answer_set {answer : NormalizedSourceField} (hanswer : answer.instruction ≠ .set) :
    ¬∃ field, (.ok answer : Except Signal NormalizedSourceField) = .ok field ∧
      field.instruction = .set ∧ field.target = target := by
  rintro ⟨field, heq, hset, -⟩
  rw [← ok.inj heq] at hset
  exact hanswer hset

theorem positivePrice_set {lexeme : List Char} :
    (∃ field, positivePrice u raw lexeme value contract precision = .ok field ∧
      field.instruction = .set ∧ field.target = target) ↔
    Takes u contract lexeme value precision ∧ ∃ text, decimalText value = .ok text ∧ target = some text := by
  unfold positivePrice Takes
  by_cases hrial : contract.isRialOrToman u = true
  · have hanswer : ∀ {answer : String → NormalizedSourceField} {P : Prop}, P →
        (∀ text, (answer text).instruction = .set ∧ (answer text).target = some text) →
        ((∃ field, (do let text ← decimalText value; .ok (answer text)) = .ok field ∧
          field.instruction = .set ∧ field.target = target) ↔
        P ∧ ∃ text, decimalText value = .ok text ∧ target = some text) := fun hP hset =>
      (answer_set hset).trans (and_iff_right hP).symm
    simp only [hrial, if_true]
    by_cases hwhole : value.whole = true
    · simp only [hwhole, Bool.not_true, Bool.false_eq_true, if_false, true_and]
      by_cases hform : '.' ∈ lexeme
      · simp only [hform, decide_true, Bool.and_true, Bool.true_and, true_imp_iff]
        cases hfix : contract.fixZeroDecimalPrices with
        | none => exact hanswer (by simp) fun _ => ⟨rfl, rfl⟩
        | some fix =>
          cases fix with
          | true => exact hanswer (by simp) fun _ => ⟨rfl, rfl⟩
          | false =>
            simp only [ne_eq, not_true_eq_false, false_and, iff_false]
            cases contract.rawScaleAuthoritative with
            | false => exact not_answer_set (by simp [invalid])
            | true => exact not_answer_set (by simp [unusable])
      · simp only [hform, decide_false, Bool.and_false, Bool.false_and, Bool.false_eq_true, if_false]
        exact hanswer (fun h => h.elim) fun _ => ⟨rfl, rfl⟩
    · simp only [hwhole, Bool.false_eq_true, false_and, iff_false, Bool.not_false, if_true]
      split
      · exact not_answer_set (by simp [invalid])
      · exact not_answer_set (by simp [unusable])
  · simp only [hrial, Bool.false_eq_true, if_false, Txn.bind_eq_ok]
    constructor
    · rintro ⟨field, ⟨scaleFactor, hpow, scaled, hmul, hfield⟩, hset⟩
      by_cases hwhole : scaled.whole = true
      · simp only [hwhole, Bool.not_true, Bool.false_eq_true, if_false] at hfield
        exact ⟨⟨scaleFactor, scaled, hpow, hmul, hwhole⟩, (answer_set fun _ => ⟨rfl, rfl⟩).mp ⟨field, hfield, hset⟩⟩
      · simp only [hwhole, Bool.not_false, if_true] at hfield
        exact absurd ⟨field, hfield, hset⟩ (not_answer_set (by simp [unusable]))
    · rintro ⟨⟨scaleFactor, scaled, hpow, hmul, hwhole⟩, htext⟩
      let answer (text : String) : NormalizedSourceField :=
        { instruction := .set, rawLexeme := raw, target := some text, availabilitySignal := some .inStock }
      have hanswer (text : String) : (answer text).instruction = .set ∧ (answer text).target = some text :=
        ⟨rfl, rfl⟩
      obtain ⟨field, hfield, hset⟩ := (answer_set hanswer).mpr htext
      refine ⟨field, ⟨scaleFactor, hpow, scaled, hmul, ?_⟩, hset⟩
      simpa [hwhole] using hfield

theorem filled_of_lexeme {raw : Cell} {lexeme : List Char}
    (h : decimalFromLexeme u raw = .ok (some (lexeme, value))) : (rawLexeme u raw).getD "" ≠ "" := by
  cases raw with
  | null | bool => cases h
  | int | float | text =>
    dsimp only [decimalFromLexeme, numericLexeme] at h
    dsimp only [rawLexeme, Option.getD_some]
    intro hempty
    have hnil : (String.ofList _).toList = [] := congrArg String.toList hempty
    rw [String.toList_ofList] at hnil
    rw [if_pos hnil] at h
    cases h

variable (u)

/-- A cell that is taken as a price: its number is positive, meets the contract and is not too large. -/
structure PriceTaken (raw : Cell) (contract : PriceContract) (value : Decimal) : Prop where
  mapped : contract.mapped = true
  not_x : u.casefold ((rawLexeme u raw).getD "") ≠ "x"
  positive : 0 < value.value
  takes : ∃ lexeme precision, decimalFromLexeme u raw = .ok (some (lexeme, value)) ∧
    contract.precision u = some precision ∧ Takes u contract lexeme value precision
  bounded : (decimalText value).isOk = true

/-- A cell that is taken as a quantity: its number is whole and not too large. -/
structure QuantityTaken (raw : Cell) (value : Decimal) : Prop where
  reads : ∃ lexeme, decimalFromLexeme u raw = .ok (some (lexeme, value))
  nonnegative : 0 ≤ value.value
  whole : value.whole = true
  bounded : (decimalText value).isOk = true

variable {u}

theorem isOk_iff : (decimalText value).isOk = true ↔ ∃ text, decimalText value = .ok text := by
  cases decimalText value with
  | ok text => simp [Except.isOk, Except.toBool]
  | error e => simp [Except.isOk, Except.toBool]

theorem normalizeDirectPrice_set {raw : Cell} {contract : PriceContract} :
    (∃ field, normalizeDirectPrice u raw contract = .ok field ∧ field.instruction = .set ∧
      field.target = target) ↔
    ∃ value, PriceTaken u raw contract value ∧ ∃ text, decimalText value = .ok text ∧ target = some text := by
  constructor
  · intro h
    unfold normalizeDirectPrice at h
    by_cases hmapped : contract.mapped = true
    · simp only [hmapped, Bool.not_true, Bool.false_eq_true, if_false] at h
      split at h
      · exact absurd h (not_answer_set (by simp [unavailable]))
      split at h
      · exact absurd h (not_answer_set (by simp [unavailable]))
      rename_i hx
      split at h
      · exact absurd h (not_answer_set (by simp [unusable]))
      · exact absurd h (not_answer_set (by simp [unusable]))
      rename_i lexeme value hreads
      split at h
      · exact absurd h (not_answer_set (by simp [unavailable]))
      rename_i hzero
      split at h
      · exact absurd h (not_answer_set (by simp [unusable]))
      rename_i hnegative
      split at h
      · exact absurd h (not_answer_set (by simp [invalid]))
      rename_i precision hprecision
      obtain ⟨htakes, text, htext, htarget⟩ := positivePrice_set.mp h
      refine ⟨value, ⟨hmapped, hx, ?_, ⟨lexeme, precision, hreads, hprecision, htakes⟩, ?_⟩, text, htext,
        htarget⟩
      · exact lt_of_le_of_ne (not_lt.mp hnegative) (Ne.symm hzero)
      · exact isOk_iff.mpr ⟨text, htext⟩
    · simp only [hmapped, Bool.not_false, if_true] at h
      exact absurd h (not_answer_set (by simp))
  · rintro ⟨value, ⟨hmapped, hx, hpositive, ⟨lexeme, precision, hreads, hprecision, htakes⟩, -⟩, htext⟩
    simp only [normalizeDirectPrice, hmapped, Bool.not_true, Bool.false_eq_true, if_false,
      if_neg (filled_of_lexeme hreads), if_neg hx, hreads, if_neg hpositive.ne', if_neg hpositive.le.not_gt,
      hprecision]
    exact positivePrice_set.mpr ⟨htakes, htext⟩

theorem normalizeQuantity_set {mapped : Bool} :
    (∃ field, normalizeQuantity u raw mapped = .ok field ∧ field.instruction = .set ∧ field.target = target) ↔
    mapped = true ∧ ∃ value, QuantityTaken u raw value ∧ ∃ text, decimalText value = .ok text ∧
      target = some text := by
  constructor
  · intro h
    unfold normalizeQuantity at h
    by_cases hmapped : mapped = true
    · simp only [hmapped, Bool.not_true, Bool.false_eq_true, if_false] at h
      split at h
      · exact absurd h (not_answer_set (by simp))
      split at h
      · exact absurd h (not_answer_set (by simp [invalid]))
      · exact absurd h (not_answer_set (by simp [invalid]))
      rename_i lexeme value hreads
      split at h
      · exact absurd h (not_answer_set (by simp [invalid]))
      rename_i hgood
      rw [Bool.or_eq_true, not_or, decide_eq_true_eq, Bool.not_eq_true', Bool.not_eq_false] at hgood
      obtain ⟨text, htext, htarget⟩ := (answer_set fun _ => ⟨rfl, rfl⟩).mp h
      exact ⟨hmapped, value, ⟨⟨lexeme, hreads⟩, not_lt.mp hgood.1, hgood.2, isOk_iff.mpr ⟨text, htext⟩⟩, text,
        htext, htarget⟩
    · simp only [hmapped, Bool.not_false, if_true] at h
      exact absurd h (not_answer_set (by simp))
  · rintro ⟨rfl, value, ⟨⟨lexeme, hreads⟩, hnonnegative, hwhole, -⟩, htext⟩
    have hgood : ¬(decide (value.value < 0) || !value.whole) = true := by
      simp [hwhole, hnonnegative]
    simp only [normalizeQuantity, Bool.not_true, Bool.false_eq_true, if_false,
      if_neg (filled_of_lexeme hreads), hreads, if_neg hgood]
    exact (answer_set fun _ => ⟨rfl, rfl⟩).mpr htext

/-- A taken price that fits has no more digits behind its point than the contract's precision. -/
theorem Takes.precision {lexeme : List Char} {exponent precision : Int}
    (h : Takes u contract lexeme (.finite false coefficient exponent) precision) (hprecision : 0 ≤ precision)
    (hfits : Decimal.Fits (Decimal.finite false coefficient exponent).value) :
    ∃ n : ℤ, (Decimal.finite false coefficient exponent).value * 10 ^ precision.toNat = n := by
  unfold Takes at h
  split at h
  · obtain ⟨n, hn⟩ := Decimal.int_of_whole h.1
    refine ⟨n * 10 ^ precision.toNat, ?_⟩
    rw [hn]
    push_cast
    rfl
  · obtain ⟨scaleFactor, scaled, hpow, hmul, hwhole⟩ := h
    obtain ⟨hscale, c, e, rfl⟩ := Decimal.pow_ten hprecision hpow
    obtain ⟨c', e', rfl⟩ := Decimal.isFinite_of_mul hmul
    obtain ⟨n, hn⟩ := Decimal.int_of_whole hwhole
    refine ⟨n, ?_⟩
    rw [← hn, Decimal.mul_exact _ hmul, hscale]
    rw [hscale]
    exact hfits.scale

variable (u)

/-- An unsigned decimal numeral in ASCII digits. -/
def Unsigned (text : List Char) : Prop := ∃ whole fraction, Written Unicode.ascii.isDigit text whole fraction

structure ReadExactly (text : String) (contract : PriceContract) : Prop where
  accepts : (∃ lexeme, numericLexeme u (.text text) = .ok (some lexeme)) ↔ Unsigned (cellText u (.text text))
  price : ∀ field, normalizeDirectPrice u (.text text) contract = .ok field → field.instruction = .set →
    ∃ target q precision, ∃ n : ℤ, field.target = some target ∧
      Denotes .ascii (cellText u (.text text)) q ∧ Denotes .ascii target.toList q ∧ 0 < q ∧
      contract.monetaryPrecision = some precision ∧ q * 10 ^ precision.toNat = n
  quantity : ∀ mapped field, normalizeQuantity u (.text text) mapped = .ok field →
    field.instruction = .set → ∃ target q, field.target = some target ∧
      Denotes .ascii (cellText u (.text text)) q ∧ Denotes .ascii target.toList q

/-- A cell text whose digits are ASCII, Persian or Arabic-Indic if it is a numeral at all, and whose
number fits the decimal context if it is taken. -/
structure Readable (text : String) (contract : PriceContract) : Prop where
  digits : (∃ whole fraction, Written u.isDigit (cellText u (.text text)) whole fraction) →
    ∀ c ∈ cellText u (.text text), u.isDigit c = true → c.isDigit = true
  price : ∀ value, PriceTaken u (.text text) contract value → Decimal.Fits value.value
  quantity : ∀ value, QuantityTaken u (.text text) value → Decimal.Fits value.value

variable {u} {text : String} {contract : PriceContract}

theorem precision_ok (h : contract.precision u = some precision) :
    contract.monetaryPrecision = some precision ∧ 0 ≤ precision := by
  unfold PriceContract.precision at h
  split at h
  · cases h
  · rw [Option.filter_eq_some_iff] at h
    simpa using h

theorem numericLexeme_text (tables : DigitTables u) :
    (∃ lexeme, numericLexeme u (.text text) = .ok (some lexeme)) ↔
      ∃ whole fraction, Written u.isDigit (cellText u (.text text)) whole fraction := by
  have hlaw := comma_point tables
  constructor
  · rintro ⟨lexeme, h⟩
    obtain ⟨whole, fraction, hwritten, -⟩ := (lexeme_ok hlaw.1 hlaw.2).mp (numericLexeme_ok h)
    exact ⟨whole, fraction, hwritten⟩
  · rintro ⟨whole, fraction, hwritten⟩
    refine ⟨whole ++ if fraction = [] then [] else '.' :: fraction, ?_⟩
    have hne : strip u (Cell.text text).str.toList ≠ [] := by
      intro hnil
      obtain ⟨c, hc⟩ := exists_mem_of_ne_nil _ hwritten.whole_ne
      have hmem := hwritten.mem_text (mem_append_left _ hc)
      simp [cellText, hnil, translate] at hmem
    simp only [numericLexeme, if_neg hne]
    rw [← cellText, hwritten.lexeme hlaw.1 hlaw.2]
    rfl

theorem isDigit_of_ascii (tables : DigitTables u) (hc : c.isDigit = true) : u.isDigit c = true := by
  have hrange := digit_range hc
  rw [tables.ascii c (by omega), hc]

theorem Readable.denotes (h : Readable u text contract) (tables : DigitTables u)
    (hq : Denotes u (cellText u (.text text)) q) : Denotes .ascii (cellText u (.text text)) q := by
  obtain ⟨whole, fraction, -, -, hwritten, -⟩ := id hq
  apply hq.transfer tables.digits Unicode.ascii_digits
  intro c hc hd
  have hdigit := h.digits ⟨whole, fraction, hwritten⟩ c hc hd
  exact ⟨hdigit, by rw [ascii_isDigit, hdigit]⟩

theorem Denotes.of_ascii (tables : DigitTables u) {text : List Char} (h : Denotes .ascii text q) :
    Denotes u text q := by
  apply h.transfer Unicode.ascii_digits tables.digits
  intro c hc hd
  rw [ascii_isDigit] at hd
  exact ⟨hd, isDigit_of_ascii tables hd⟩

/-- A target that denotes the number of its cell fits. -/
theorem fits_of_denotes (tables : DigitTables u) {lexeme : List Char}
    {target : String} (hreads : decimalFromLexeme u raw = .ok (some (lexeme, value)))
    (htext : decimalText value = .ok target) (hcell : Denotes .ascii (cellText u raw) q)
    (htarget : Denotes .ascii target.toList q) : Decimal.Fits value.value := by
  obtain ⟨⟨c, e, rfl⟩, hvalue⟩ := decimalFromLexeme_ok tables hreads
  obtain ⟨r, hr, hfits⟩ := decimalText_ok htext
  have hq := (hcell.of_ascii tables).unique tables hvalue
  have hr' := hr.unique ascii_digitTables htarget
  exact hfits.mp (hr'.trans hq)

theorem Readable.reads (h : Readable u text contract) (tables : DigitTables u) {lexeme : List Char}
    {target : String} (hreads : decimalFromLexeme u (.text text) = .ok (some (lexeme, value)))
    (htext : decimalText value = .ok target) (hfits : Decimal.Fits value.value) :
    Denotes .ascii (cellText u (.text text)) value.value ∧ Denotes .ascii target.toList value.value := by
  obtain ⟨⟨c, e, rfl⟩, hvalue⟩ := decimalFromLexeme_ok tables hreads
  obtain ⟨r, hr, hexact⟩ := decimalText_ok htext
  rw [← hexact.mpr hfits] at hvalue ⊢
  exact ⟨h.denotes tables hvalue, hr⟩

/-- Source numbers are read exactly where their digits are ASCII and fit the decimal context. -/
theorem read_exactly_iff (tables : DigitTables u) (text : String) (contract : PriceContract) :
    ReadExactly u text contract ↔ Readable u text contract := by
  constructor
  · intro exactly
    refine ⟨?_, ?_, ?_⟩
    · intro hwritten c hc hd
      obtain ⟨whole, fraction, hascii⟩ := exactly.accepts.mp ((numericLexeme_text tables).mpr hwritten)
      have hlaw := comma_point tables
      rcases hascii.digit_of_mem hc with hdigit | rfl | rfl
      · rw [← ascii_isDigit, hdigit]
      · rw [hlaw.1] at hd
        cases hd
      · rw [hlaw.2] at hd
        cases hd
    · intro value taken
      obtain ⟨lexeme, precision, hreads, -⟩ := taken.takes
      obtain ⟨target, htext⟩ := isOk_iff.mp taken.bounded
      obtain ⟨field, hfield, hset, hfound⟩ :=
        normalizeDirectPrice_set.mpr ⟨value, taken, target, htext, rfl⟩
      obtain ⟨target', q, -, -, htarget, hcell, hdenotes, -⟩ := exactly.price field hfield hset
      obtain rfl : target = target' := Option.some.inj (hfound.symm.trans htarget)
      exact fits_of_denotes tables hreads htext hcell hdenotes
    · intro value taken
      obtain ⟨lexeme, hreads⟩ := taken.reads
      obtain ⟨target, htext⟩ := isOk_iff.mp taken.bounded
      obtain ⟨field, hfield, hset, hfound⟩ :=
        normalizeQuantity_set.mpr ⟨rfl, value, taken, target, htext, rfl⟩
      obtain ⟨target', q, htarget, hcell, hdenotes⟩ := exactly.quantity true field hfield hset
      obtain rfl : target = target' := Option.some.inj (hfound.symm.trans htarget)
      exact fits_of_denotes tables hreads htext hcell hdenotes
  · intro readable
    refine ⟨?_, ?_, ?_⟩
    · rw [numericLexeme_text tables]
      constructor
      · rintro ⟨whole, fraction, hwritten⟩
        refine ⟨whole, fraction, hwritten.mono fun c hc hd => ?_⟩
        rw [ascii_isDigit]
        exact readable.digits ⟨whole, fraction, hwritten⟩ c hc hd
      · rintro ⟨whole, fraction, hascii⟩
        refine ⟨whole, fraction, hascii.mono fun c hc hd => ?_⟩
        rw [ascii_isDigit] at hd
        exact isDigit_of_ascii tables hd
    · intro field hfield hset
      obtain ⟨value, taken, target, htext, htarget⟩ :=
        normalizeDirectPrice_set.mp ⟨field, hfield, hset, rfl⟩
      obtain ⟨lexeme, precision, hreads, hprecision, htakes⟩ := taken.takes
      have hfits := readable.price value taken
      obtain ⟨hcell, hdenotes⟩ := readable.reads tables hreads htext hfits
      obtain ⟨hmonetary, hnonnegative⟩ := precision_ok hprecision
      obtain ⟨⟨c, e, rfl⟩, -⟩ := decimalFromLexeme_ok tables hreads
      obtain ⟨n, hn⟩ := htakes.precision hnonnegative hfits
      exact ⟨target, _, precision, n, htarget, hcell, hdenotes, taken.positive, hmonetary, hn⟩
    · intro mapped field hfield hset
      obtain ⟨-, value, taken, target, htext, htarget⟩ :=
        normalizeQuantity_set.mp ⟨field, hfield, hset, rfl⟩
      obtain ⟨lexeme, hreads⟩ := taken.reads
      obtain ⟨hcell, hdenotes⟩ := readable.reads tables hreads htext (readable.quantity value taken)
      exact ⟨target, _, htarget, hcell, hdenotes⟩

namespace Sample

def euro : PriceContract where
  currency := some "EUR"
  unit := some "EUR"
  monetaryPrecision := some 2

/-- Tables in which a superscript is a digit, but no decimal one. -/
def superscripts : Unicode := { Unicode.ascii with isDigit := fun c => Unicode.ascii.isDigit c || c == '²' }

end Sample

theorem read_exactly_grouped : ReadExactly .ascii " 12,500.50 " Sample.euro := by
  have hreads : decimalFromLexeme .ascii (.text " 12,500.50 ") =
      .ok (some ("12500.50".toList, .finite false 1250050 (-2))) := by decide +kernel
  have hfits : ∀ lexeme value, decimalFromLexeme .ascii (.text " 12,500.50 ") = .ok (some (lexeme, value)) →
      Decimal.Fits value.value := by
    intro lexeme value h
    rw [hreads] at h
    cases h
    exact ⟨1250050, -2, by decide, by decide, by simp [Decimal.value]⟩
  apply (read_exactly_iff ascii_digitTables " 12,500.50 " Sample.euro).mpr
  refine ⟨?_, ?_, ?_⟩
  · intro _ c _ hd
    rw [← ascii_isDigit, hd]
  · intro value taken
    obtain ⟨lexeme, precision, h, -⟩ := taken.takes
    exact hfits lexeme value h
  · intro value taken
    obtain ⟨lexeme, h⟩ := taken.reads
    exact hfits lexeme value h

/-- A superscript is taken as a number, and the last of 29 digits is lost. -/
theorem digits_misread : ¬ReadExactly Sample.superscripts "²" Sample.euro ∧
    ¬ReadExactly .ascii "12345678901234567890123456789" Sample.euro := by
  constructor
  · intro exactly
    obtain ⟨whole, fraction, hwritten⟩ := exactly.accepts.mp ⟨['²'], by decide +kernel⟩
    obtain ⟨c, hc⟩ := exists_mem_of_ne_nil whole hwritten.whole_ne
    have hmem : c ∈ ['²'] := hwritten.mem_text (mem_append_left fraction hc)
    have hdigit := hwritten.whole_digits c hc
    rw [mem_singleton.mp hmem] at hdigit
    exact absurd hdigit (by decide)
  · intro exactly
    have hanswer : normalizeQuantity .ascii (.text "12345678901234567890123456789") =
        .ok { instruction := .set, rawLexeme := some "12345678901234567890123456789",
              target := some "12345678901234567890123456790", availabilitySignal := some .inStock } := by
      decide +kernel
    obtain ⟨target, q, htarget, hcell, hdenotes⟩ := exactly.quantity true _ hanswer rfl
    cases htarget
    have hreads : decimalFromLexeme .ascii (.text "12345678901234567890123456789") = .ok (some
        ("12345678901234567890123456789".toList, .finite false 12345678901234567890123456789 0)) := by
      decide +kernel
    have hq := hcell.unique ascii_digitTables (decimalFromLexeme_ok ascii_digitTables hreads).2
    have hfixed : Denotes .ascii "12345678901234567890123456790".toList _ :=
      denotes_fixed 1234567890123456789012345679 1
    have hq' := hdenotes.unique ascii_digitTables hfixed
    rw [hq] at hq'
    norm_num [Decimal.value] at hq'

end FlowHub.Source
