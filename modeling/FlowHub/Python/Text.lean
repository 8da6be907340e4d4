import FlowHub.Float.Float64
import Mathlib.Data.List.TakeWhile

namespace FlowHub.Python

open List Option

/-- The Unicode tables behind `str` methods. -/
structure Unicode where
  (nfkc casefold lower upper : String → String)
  isSpace : Char → Bool
  decimal : Char → Option Nat
  isDigit : Char → Bool

/-- The tables on ASCII text. -/
def Unicode.ascii : Unicode where
  nfkc := id
  casefold s := String.ofList (s.toList.map Char.toLower)
  lower s := String.ofList (s.toList.map Char.toLower)
  upper s := String.ofList (s.toList.map Char.toUpper)
  isSpace c := c == ' ' || c == '\t' || c == '\n' || c == '\r'
  decimal c := if '0' ≤ c ∧ c ≤ '9' then some (c.toNat - '0'.toNat) else none
  isDigit c := decide ('0' ≤ c ∧ c ≤ '9')

variable (u : Unicode)

/-- `text.split()`: the maximal runs without whitespace. -/
def words : List Char → List (List Char)
  | [] => []
  | c :: rest =>
    if u.isSpace c then words rest
    else match rest, words rest with
      | d :: _, word :: more => if u.isSpace d then [c] :: word :: more else (c :: word) :: more
      | _, more => [c] :: more

def canonicalText (text : String) : String :=
  String.ofList (List.intercalate [' '] (words u (u.nfkc text).toList))

/-- `str.strip()`. -/
def strip (text : List Char) : List Char :=
  ((text.dropWhile u.isSpace).reverse.dropWhile u.isSpace).reverse

def isDigits (text : String) : Bool := !text.isEmpty && text.toList.all u.isDigit

/-- A value that a numeric text denotes exactly. -/
inductive Numeral where
  | finite (value : ℚ)
  | infinite (negative : Bool)
  | nan
  deriving DecidableEq

/-- The digits of a text, most significant first. -/
def digits (text : List Char) : Option (List Nat) := text.mapM u.decimal

def ofDigits (ds : List Nat) : Nat := ds.foldl (fun n d => 10 * n + d) 0

def sign : List Char → Bool × List Char
  | '-' :: rest => (true, rest)
  | '+' :: rest => (false, rest)
  | rest => (false, rest)

def exponent (text : List Char) : Option Int := do
  let (negative, body) := sign text
  let ds ← digits u body
  if ds.isEmpty then none
  else pure (if negative then -(ofDigits ds : Int) else ofDigits ds)

/-- `digits [. digits] [e exponent]`, with a digit somewhere before the exponent. -/
def magnitude (text : List Char) : Option ℚ := do
  let isE := fun c => c == 'e' || c == 'E'
  let mantissa := text.takeWhile (!isE ·)
  let e ← match text.dropWhile (!isE ·) with
    | [] => some 0
    | _ :: rest => exponent u rest
  let whole ← digits u (mantissa.takeWhile (· != '.'))
  let fraction ← digits u ((mantissa.dropWhile (· != '.')).drop 1)
  if whole.isEmpty && fraction.isEmpty then none
  else pure (ofDigits (whole ++ fraction) * (10 : ℚ) ^ (e - fraction.length))

def special (negative : Bool) (text : List Char) : Option Numeral :=
  let name := String.ofList (text.map Char.toLower)
  if name = "inf" ∨ name = "infinity" then some (.infinite negative)
  else if name = "nan" then some .nan
  else none

def numeral (text : List Char) : Option Numeral :=
  let (negative, body) := sign text
  match special negative body with
  | some n => some n
  | none => (magnitude u body).map fun q => .finite (if negative then -q else q)

/-- Underscores stand between two digits, nowhere else. -/
def underscoresOk : List Char → Bool
  | '_' :: _ => false
  | c :: '_' :: d :: rest =>
    (u.decimal c).isSome && (u.decimal d).isSome && underscoresOk (d :: rest)
  | [_, '_'] => false
  | _ :: rest => underscoresOk rest
  | [] => true

def float (text : String) : Option Float64 :=
  let body := strip u text.toList
  if underscoresOk u body then
    (numeral u (body.filter (· != '_'))).map fun
      | .finite q => .ofRat q
      | .infinite negative => .infinite negative
      | .nan => .nan
  else none

/-- A NaN may carry a payload of digits and may be signalling. -/
def decimalNan (text : List Char) : Bool :=
  let body := (sign text).2.map Char.toLower
  let body := if body.head? = some 's' then body.drop 1 else body
  decide (body.take 3 = ['n', 'a', 'n']) && (digits u (body.drop 3)).isSome

def decimal (text : String) : Option Numeral :=
  let body := (strip u text.toList).filter (· != '_')
  if decimalNan u body then some .nan else numeral u body

/-- `text.replace(",", "")`. -/
def withoutCommas (text : String) : String := String.ofList (text.toList.filter (· != ','))

/-- No table takes the comma for a digit or for whitespace. -/
structure Unicode.Lawful : Prop where
  decimal_comma : u.decimal ',' = none
  isSpace_comma : u.isSpace ',' = false

theorem Unicode.ascii_lawful : Unicode.ascii.Lawful := ⟨by decide, by decide⟩

/-- No table takes an ASCII digit for whitespace. -/
def Unicode.DigitsVisible : Prop := ∀ c : Char, c.isDigit = true → u.isSpace c = false

theorem Unicode.ascii_digitsVisible : Unicode.ascii.DigitsVisible := by
  intro c hc
  by_contra hspace
  simp only [Unicode.ascii, Bool.or_eq_true, beq_iff_eq, Bool.not_eq_false] at hspace
  rcases hspace with ((rfl | rfl) | rfl) | rfl <;> exact absurd hc (by decide)

/-- What the tables say of ASCII: its decimal digits, and that neither a printable character nor
a digit of any script is whitespace, but a newline is. -/
structure Unicode.Printable : Prop where
  decimal_ascii : ∀ c : Char, c.toNat < 128 → (u.decimal c).isSome = c.isDigit
  isSpace_ascii : ∀ c : Char, 33 ≤ c.toNat → c.toNat < 127 → u.isSpace c = false
  isSpace_decimal : ∀ c : Char, (u.decimal c).isSome = true → u.isSpace c = false
  isSpace_newline : u.isSpace '\n' = true

variable {text : List Char} {c : Char}

theorem Unicode.ascii_isSpace (h : Unicode.ascii.isSpace c = true) : c.toNat < 33 := by
  simp only [Unicode.ascii, Bool.or_eq_true, beq_iff_eq] at h
  rcases h with ((rfl | rfl) | rfl) | rfl <;> decide

theorem Unicode.ascii_decimal (c : Char) : (Unicode.ascii.decimal c).isSome = c.isDigit := by
  have hdigit : c.isDigit = decide ('0' ≤ c ∧ c ≤ '9') := by
    rw [Char.isDigit, ← Bool.decide_and]
    rfl
  rw [hdigit]
  simp only [Unicode.ascii]
  split <;> simp_all

theorem Unicode.ascii_printable : Unicode.ascii.Printable where
  decimal_ascii c _ := Unicode.ascii_decimal c
  isSpace_ascii c h _ := by
    by_contra hspace
    have := Unicode.ascii_isSpace (Bool.not_eq_false _ ▸ hspace)
    omega
  isSpace_decimal c h := by
    rw [Unicode.ascii_decimal] at h
    exact Unicode.ascii_digitsVisible c h
  isSpace_newline := by decide

variable {u}

theorem decimal_of_digits (h : digits u text = some ds) : ∀ c ∈ text, (u.decimal c).isSome = true := by
  induction text generalizing ds with
  | nil => simp
  | cons d rest ih =>
    simp only [digits, mapM_cons, Option.bind_eq_bind, Option.pure_def, bind_eq_some_iff] at h
    obtain ⟨n, hd, more, hrest, -⟩ := h
    intro c hc
    rcases mem_cons.mp hc with rfl | hc
    · rw [hd]
      rfl
    · exact ih hrest c hc

theorem comma_notMem_digits (law : u.Lawful) (h : digits u text = some ds) : ',' ∉ text := by
  intro hc
  have := decimal_of_digits h _ hc
  rw [law.decimal_comma] at this
  cases this

theorem comma_mem_sign (h : ',' ∈ text) : ',' ∈ (sign text).2 := by
  unfold sign
  split
  · simpa using h
  · simpa using h
  · exact h

theorem comma_notMem_exponent (law : u.Lawful) (h : exponent u text = some e) : ',' ∉ text := by
  intro hc
  simp only [exponent, bind_eq_bind, bind_eq_some_iff] at h
  obtain ⟨ds, hds, -⟩ := h
  exact comma_notMem_digits law hds (comma_mem_sign hc)

/-- What is not where a text is cut stands before the cut or after it. -/
theorem mem_cut (hc : c ∈ text) (hp : p c = true) : c ∈ text.takeWhile p ∨ c ∈ (text.dropWhile p).drop 1 := by
  induction text with
  | nil => cases hc
  | cons d rest ih =>
    by_cases hd : p d = true
    · rw [takeWhile_cons_of_pos hd, dropWhile_cons_of_pos hd]
      rcases mem_cons.mp hc with rfl | hc
      · exact .inl mem_cons_self
      · exact (ih hc).imp (mem_cons_of_mem d) id
    · rw [dropWhile_cons_of_neg hd]
      rcases mem_cons.mp hc with rfl | hc
      · exact absurd hp hd
      · exact .inr hc

theorem comma_notMem_magnitude (law : u.Lawful) (h : magnitude u text = some q) : ',' ∉ text := by
  intro hc
  simp only [magnitude, bind_eq_bind] at h
  rcases mem_cut (p := fun c => !(c == 'e' || c == 'E')) hc (by decide) with hm | hx
  · -- The mantissa: before the point, or after it.
    have hparts : ∃ whole fraction, digits u ((text.takeWhile fun c =>
          !(c == 'e' || c == 'E')).takeWhile (· != '.')) = some whole ∧
        digits u (((text.takeWhile fun c =>
          !(c == 'e' || c == 'E')).dropWhile (· != '.')).drop 1) = some fraction := by
      split at h
      · simp only [bind_eq_some_iff] at h
        obtain ⟨_, -, whole, hwhole, fraction, hfraction, -⟩ := h
        exact ⟨whole, fraction, hwhole, hfraction⟩
      · simp only [bind_eq_some_iff] at h
        obtain ⟨_, -, whole, hwhole, fraction, hfraction, -⟩ := h
        exact ⟨whole, fraction, hwhole, hfraction⟩
    obtain ⟨whole, fraction, hwhole, hfraction⟩ := hparts
    rcases mem_cut (p := (· != '.')) hm (by decide) with hw | hf
    · exact comma_notMem_digits law hwhole hw
    · exact comma_notMem_digits law hfraction hf
  · cases hrest : text.dropWhile fun c => !(c == 'e' || c == 'E') with
    | nil =>
      rw [hrest] at hx
      cases hx
    | cons mark rest =>
      rw [hrest] at h hx
      simp only [bind_eq_some_iff] at h
      obtain ⟨e, he, -⟩ := h
      exact comma_notMem_exponent law he hx

theorem comma_notMem_special (h : special negative text = some n) : ',' ∉ text := by
  intro hc
  have hmem : ',' ∈ (String.ofList (text.map Char.toLower)).toList := by
    rw [String.toList_ofList]
    exact mem_map.mpr ⟨',', hc, by decide⟩
  simp only [special] at h
  split at h
  · rename_i hname
    rcases hname with hname | hname
    · rw [hname] at hmem
      exact absurd hmem (by decide)
    · rw [hname] at hmem
      exact absurd hmem (by decide)
  · split at h
    · rename_i hname
      rw [hname] at hmem
      exact absurd hmem (by decide)
    · cases h

theorem comma_notMem_numeral (law : u.Lawful) (h : numeral u text = some n) : ',' ∉ text := by
  intro hc
  have hbody := comma_mem_sign hc
  simp only [numeral] at h
  split at h
  · rename_i hspecial
    exact comma_notMem_special hspecial hbody
  · obtain ⟨q, hq, -⟩ := map_eq_some_iff.mp h
    exact comma_notMem_magnitude law hq hbody

theorem strip_of_visible (h : ∀ c ∈ text, u.isSpace c = false) : strip u text = text := by
  have keep : ∀ l : List Char, (∀ c ∈ l, u.isSpace c = false) → l.dropWhile u.isSpace = l := by
    intro l hl
    cases l with
    | nil => rfl
    | cons c rest => rw [dropWhile_cons_of_neg (by simp [hl c mem_cons_self])]
  unfold strip
  rw [keep text h, keep _ fun c hc => h c (mem_reverse.mp hc), reverse_reverse]

theorem dropWhile_of_head {p : Char → Bool} {l : List Char} (h : l.head?.any p = false) :
    l.dropWhile p = l := by
  cases l with
  | nil => rfl
  | cons c rest => exact dropWhile_cons_of_neg (by simpa using h)

/-- A text with no whitespace at its ends is stripped of nothing. -/
theorem strip_of_ends (hhead : text.head?.any u.isSpace = false)
    (hlast : text.getLast?.any u.isSpace = false) : strip u text = text := by
  unfold strip
  rw [dropWhile_of_head hhead, dropWhile_of_head (by rwa [head?_reverse]), reverse_reverse]

/-- A stripped text does not end in whitespace. -/
theorem strip_getLast? (text : List Char) : (strip u text).getLast?.any u.isSpace = false := by
  unfold strip
  rw [getLast?_reverse]
  cases hrest : (text.dropWhile u.isSpace).reverse.dropWhile u.isSpace with
  | nil => rfl
  | cons c rest =>
    have hc := head?_dropWhile_not u.isSpace (text.dropWhile u.isSpace).reverse
    rw [hrest] at hc
    simpa using hc

/-- `strip` takes whitespace away and nothing else. -/
theorem mem_strip (hc : c ∈ text) (hs : u.isSpace c = false) : c ∈ strip u text := by
  have keep : ∀ l : List Char, c ∈ l → c ∈ l.dropWhile u.isSpace := by
    intro l hl
    rw [← takeWhile_append_dropWhile (p := u.isSpace) (l := l)] at hl
    rcases mem_append.mp hl with h | h
    · have := mem_takeWhile_imp h
      rw [hs] at this
      cases this
    · exact h
  unfold strip
  rw [mem_reverse]
  exact keep _ (mem_reverse.mpr (keep _ hc))

variable (u) in
/-- A text without group separators, its underscores between digits. -/
def Plain (text : String) : Prop :=
  ',' ∉ text.toList ∧ underscoresOk u (strip u text.toList) = true

theorem float_plain (law : u.Lawful) {text : String} (h : float u text = some x) : Plain u text := by
  simp only [float] at h
  split at h
  · rename_i hunderscores
    obtain ⟨n, hn, -⟩ := map_eq_some_iff.mp h
    refine ⟨fun hc => comma_notMem_numeral law hn ?_, hunderscores⟩
    exact mem_filter.mpr ⟨mem_strip hc law.isSpace_comma, by decide⟩
  · cases h

theorem withoutCommas_plain {text : String} (h : Plain u text) : withoutCommas text = text := by
  have hall : text.toList.filter (· != ',') = text.toList := by
    rw [filter_eq_self]
    intro c hc
    rw [bne_iff_ne]
    rintro rfl
    exact h.1 hc
  rw [withoutCommas, hall, String.ofList_toList]

/-- `float` reads a plain text as `Decimal` does, and rounds. -/
theorem float_of_decimal {text : String} (h : Plain u text)
    (hq : decimal u (withoutCommas text) = some (.finite q)) : float u text = some (.ofRat q) := by
  rw [withoutCommas_plain h] at hq
  simp only [decimal] at hq
  split at hq
  · cases hq
  · simp [float, h.2, if_true, hq, map_some]

example : canonicalText .ascii "  in   stock " = "in stock" := by decide

example : decimal .ascii "1_250.50" = some (.finite (2501 / 2)) := by decide +kernel

end FlowHub.Python
