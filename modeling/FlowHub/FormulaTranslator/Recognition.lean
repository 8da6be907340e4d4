import FlowHub.FormulaTranslator.Translator

namespace FlowHub.FormulaTranslator

open Pattern Python List

/-- A recorded skeleton as a pattern: each `<REF>` is filled by the next slot, `FILTER` may
carry its prefix and the cross either spelling. -/
def recorded : List Char → List (List Piece) → List Piece
  | '<' :: 'R' :: 'E' :: 'F' :: '>' :: rest, slot :: slots => slot ++ recorded rest slots
  | 'F' :: 'I' :: 'L' :: 'T' :: 'E' :: 'R' :: rest, slots =>
    xlfnOptional "FILTER" ++ recorded rest slots
  | '\u274c' :: rest, slots => markCross :: recorded rest slots
  | c :: rest, slots => consText [c] (recorded rest slots)
  | [], _ => []

def cellSlot (name : String) : List Piece := [.capture name]

def rangeSlot (first last : String) : List Piece := [.capture first, text ":", .capture last]

def rangeAgain (first last : String) : List Piece := [.again first, text ":", .again last]

/-- The `skeleton` of each shape in the formula inventory, its references named. -/
def Shape.inventory : Shape → List Piece
  | .a1 => recorded
      "=IF(<REF>=\"\",\"x\",IFERROR(FLOOR((<REF>*(1+<REF>/100)+IF(ISNUMBER(<REF>),<REF>,0))*1000000,50000),\"x\"))".toList
      [cellSlot "guard_ref", cellSlot "basis_ref", cellSlot "rate_ref", cellSlot "addend_ref",
        cellSlot "addend_value"]
  | .a2 => recorded "=IFERROR(MIN(FILTER(<REF>,<REF><>0)),\"\u274c\")".toList
      [rangeSlot "range_start" "range_end", rangeSlot "filter_start" "filter_end"]
  | .a3 => recorded "=IFERROR(FLOOR(<REF>*(1+<REF>/100)*1000,100000),\"\u274c\")".toList
      [cellSlot "basis_ref", cellSlot "rate_ref"]
  | .a4 => recorded "=IFERROR(FLOOR(<REF>*(1+<REF>/100)*1000,100000)+500000,\"\u274c\")".toList
      [cellSlot "basis_ref", cellSlot "rate_ref"]
  | .a5 => recorded "=IFERROR(ROUNDUP(<REF>*(1+<REF>/100),-2),\"\u274c\")".toList
      [cellSlot "basis_ref", cellSlot "rate_ref"]
  | .a6 => recorded "=IF(<REF>=\"\",\"x\",IFERROR(FLOOR(<REF>*<REF>,50000)/10,\"x\"))".toList
      [cellSlot "guard_ref", cellSlot "multiplier_ref", cellSlot "basis_ref"]
  | .a7 => recorded "=IFERROR(<REF>/<REF>,\"x\")".toList
      [cellSlot "numerator_ref", cellSlot "denominator_ref"]
  | .a8 => recorded "=<REF>".toList [cellSlot "manual_ref"]
  | .a9 => recorded
      "=IF(<REF>=\"\",\"x\",IFERROR(FLOOR((<REF>*(1+#REF!/100)+IF(ISNUMBER(#REF!),#REF!,0))*1000000,50000),\"x\"))".toList
      [cellSlot "guard_ref", cellSlot "basis_ref"]
  | .a10 => recorded "=IFERROR(FLOOR((<REF>*(1+<REF>/100)*1000),100000),\"\u274c\")".toList
      [cellSlot "basis_ref", cellSlot "rate_ref"]
  | .a11 => recorded "=IFERROR(FLOOR((<REF>*(1+<REF>/100)*1000)+500000,100000),\"\u274c\")".toList
      [cellSlot "basis_ref", cellSlot "rate_ref"]
  | .a12 => recorded "=IFNA(MIN(FILTER(<REF>,<REF><>0)),\"\u274c\")".toList
      [rangeSlot "range_start" "range_end", rangeSlot "filter_start" "filter_end"]
  | .a13 => recorded "=IFERROR(FLOOR((#REF!*(1+<REF>/100)*1000),100000),\"\u274c\")".toList
      [cellSlot "rate_ref"]

/-- The two minimum skeletons, over one range and short of a closing parenthesis. -/
def truncations : List (List Piece) := [
  recorded "=IFERROR(MIN(FILTER(<REF>,<REF><>0),\"\u274c\")".toList
    [rangeSlot "range_start" "range_end", rangeAgain "range_start" "range_end"],
  recorded "=IFNA(MIN(FILTER(<REF>,<REF><>0),\"\u274c\")".toList
    [rangeSlot "range_start" "range_end", rangeAgain "range_start" "range_end"]]

/-- Punctuation of a formula. -/
def punct (c : Char) : Bool :=
  c ∈ ['(', ')', '*', '+', ',', '/', ':', '<', '=', '>', '"', '\n']

/-- A word that a reference could be. -/
def looks (word : List Char) : Bool := decide (word.head? = some 'R') && decide ('C' ∈ word)

/-- The parentheses open after a text, unless one was closed before it was opened. -/
def parentheses : Nat → List Char → Option Nat
  | depth, [] => some depth
  | depth, '(' :: rest => parentheses (depth + 1) rest
  | 0, ')' :: _ => none
  | depth + 1, ')' :: rest => parentheses depth rest
  | depth, _ :: rest => parentheses depth rest

def balanced (formula : List Char) : Bool := decide (parentheses 0 formula = some 0)

/-- What tells the shapes apart: how many words, references and closing parentheses, and how
long a function name comes first. -/
def signature (outline : List (Option (List Char))) : List Nat :=
  [outline.length, outline.count none, outline.count (some [')']),
    ((outline.drop 1).head?.join.getD []).length]

def Shape.signature : Shape → List Nat
  | .a1 => [50, 5, 7, 2]
  | .a2 => [24, 4, 3, 7]
  | .a3 => [24, 2, 3, 7]
  | .a4 => [26, 2, 3, 7]
  | .a5 => [22, 2, 3, 7]
  | .a6 => [30, 3, 3, 2]
  | .a7 => [11, 2, 1, 7]
  | .a8 => [2, 1, 0, 0]
  | .a9 => [50, 2, 7, 2]
  | .a10 => [26, 2, 4, 7]
  | .a11 => [28, 2, 4, 7]
  | .a12 => [24, 4, 3, 4]
  | .a13 => [26, 1, 4, 7]

/-- The two patterns short of a parenthesis have another. -/
def Shape.patternSignature : Shape → List Nat
  | .a2 => [23, 4, 2, 7]
  | .a12 => [23, 4, 2, 4]
  | shape => shape.signature

/-- How a recorded formula starts and ends. -/
def framed (v : List Piece) : Bool :=
  (match v with
    | .text ('=' :: _) :: _ => true
    | _ => false) &&
  (match v.getLast? with
    | some (.text literal) => decide (literal.getLast? = some ')')
    | some (.capture _) => true
    | _ => false)

/-- What is looked at in the spellings of a recorded formula and of its pattern. -/
theorem shape_spellings (shape : Shape) :
    (wellFormed punct looks shape.pattern = true ∧ ∀ v ∈ variants shape.pattern,
      signature (skeleton punct v) = shape.patternSignature ∧ framed v = true ∧
        balanced (fill (fun _ => []) v) = decide (shape ≠ .a2 ∧ shape ≠ .a12)) ∧
    (wellFormed punct looks shape.inventory = true ∧ ∀ v ∈ variants shape.inventory,
      signature (skeleton punct v) = shape.signature ∧ framed v = true) ∧
    (shape ≠ .a1 → shape ≠ .a2 → shape ≠ .a12 → variants shape.inventory = variants shape.pattern) := by
  cases shape <;> simp only [Shape.pattern, Shape.inventory, xlfnOptional, markCross, text,
    -String.reduceToList]
  all_goals
    repeat rw [String.toList_ofList]
    decide +kernel

theorem pattern_wellFormed (shape : Shape) : wellFormed punct looks shape.pattern = true :=
  (shape_spellings shape).1.1

theorem inventory_wellFormed (shape : Shape) : wellFormed punct looks shape.inventory = true :=
  (shape_spellings shape).2.1.1

theorem pattern_signature (shape : Shape) : ∀ v ∈ variants shape.pattern,
    signature (skeleton punct v) = shape.patternSignature :=
  fun v hv => ((shape_spellings shape).1.2 v hv).1

example : signature [some "=".toList, none] = [2, 1, 0, 0] := by decide +kernel

theorem signature_newline {outline : List (Option (List Char))} {words : Nat}
    (h : signature outline = [words, refs, closing, first]) (hwords : 2 ≤ words) :
    signature (outline ++ [some ['\n']]) = [words + 1, refs, closing, first] := by
  simp only [signature, cons.injEq, and_true] at h ⊢
  obtain ⟨hlength, hrefs, hclosing, hfirst⟩ := h
  have hdrop : (outline ++ [some ['\n']]).drop 1 = outline.drop 1 ++ [some ['\n']] :=
    drop_append_of_le_length (by omega)
  have hhead : (outline.drop 1 ++ [some ['\n']]).head? = (outline.drop 1).head? := by
    cases hrest : outline.drop 1 with
    | nil =>
      have := congrArg length hrest
      rw [length_drop, length_nil] at this
      omega
    | cons word rest => rfl
  refine ⟨by simp [hlength], ?_, ?_, by rw [hdrop, hhead, hfirst]⟩
  · rw [count_append, hrefs]
    rfl
  · rw [count_append, hclosing]
    rfl

variable {refs : String → List Char} {shape other : Shape} {v : List Piece}
  {captured captures : Captures} {c : Char}

/-- Another shape's pattern, or one short of a parenthesis, has other words than a recorded
formula, with a newline behind them or without. -/
theorem signatures_differ (h : shape ≠ other ∨ shape = .a2 ∨ shape = .a12) :
    ∃ words refs closing first, other.patternSignature = [words, refs, closing, first] ∧
      2 ≤ words ∧ shape.signature ≠ [words, refs, closing, first] ∧
      shape.signature ≠ [words + 1, refs, closing, first] := by
  cases other <;> refine ⟨_, _, _, _, rfl, by decide, ?_⟩ <;> cases shape <;>
    first | decide | exact absurd h (by decide)

variable {u : Unicode}

theorem isDecimals_iff {text : List Char} :
    isDecimals u text = true ↔ text ≠ [] ∧ ∀ c ∈ text, (u.decimal c).isSome = true := by
  simp [isDecimals]

/-- A character of a reference. -/
def CellChar (u : Unicode) (c : Char) : Prop :=
  c ∈ ['R', 'C', '[', ']', '-'] ∨ (u.decimal c).isSome = true

theorem isIndex_chars {text : List Char} (h : isIndex u text = true) : ∀ c ∈ text, CellChar u c := by
  have hbracket : ∀ rest : List Char,
      (decide (rest.getLast? = some ']') && isDecimals u rest.dropLast) = true →
      ∀ c ∈ rest, CellChar u c := by
    intro rest hrest c hc
    simp only [Bool.and_eq_true, decide_eq_true_eq] at hrest
    obtain ⟨hlast, hdigits⟩ := hrest
    rw [← dropLast_append_getLast? ']' hlast] at hc
    rcases mem_append.mp hc with hc | hc
    · exact .inr ((isDecimals_iff.mp hdigits).2 c hc)
    · exact .inl (by simp [mem_singleton.mp hc])
  unfold isIndex at h
  split at h
  · simp
  · intro c hc
    rcases mem_cons.mp hc with rfl | hc
    · exact .inl (by simp)
    rcases mem_cons.mp hc with rfl | hc
    · exact .inl (by simp)
    · exact hbracket _ h c hc
  · intro c hc
    rcases mem_cons.mp hc with rfl | hc
    · exact .inl (by simp)
    · exact hbracket _ h c hc
  · intro c hc
    exact .inr ((isDecimals_iff.mp h).2 c hc)

theorem isCell_chars (h : isCell u word = true) : looks word = true ∧ ∀ c ∈ word, CellChar u c := by
  unfold isCell at h
  split at h
  · rename_i rest
    split at h
    · rename_i mark column hrest
      simp only [Bool.and_eq_true] at h
      have hmark : mark = 'C' := by
        have := head?_dropWhile_not (· != 'C') rest
        rw [hrest] at this
        simpa using this
      subst hmark
      have hsplit : rest = rest.takeWhile (· != 'C') ++ 'C' :: column := by
        rw [← hrest, takeWhile_append_dropWhile]
      constructor
      · rw [hsplit]
        simp [looks]
      intro c hc
      rcases mem_cons.mp hc with rfl | hc
      · exact .inl (by simp)
      rw [hsplit] at hc
      rcases mem_append.mp hc with hc | hc
      · exact isIndex_chars h.1 c hc
      rcases mem_cons.mp hc with rfl | hc
      · exact .inl (by simp)
      · exact isIndex_chars h.2 c hc
    · cases h
  · cases h

theorem punct_ascii (h : punct c = true) : c.toNat < 128 ∧ c.isDigit = false ∧
    c ∉ ['R', 'C', '[', ']', '-'] := by
  simp only [punct, mem_cons, not_mem_nil, or_false, decide_eq_true_eq] at h
  rcases h with rfl | rfl | rfl | rfl | rfl | rfl | rfl | rfl | rfl | rfl | rfl | rfl <;> decide

theorem CellChar.plain (law : u.Printable) (h : CellChar u c) : punct c = false := by
  by_contra hpunct
  obtain ⟨hascii, hdigit, hmem⟩ := punct_ascii (Bool.not_eq_false _ ▸ hpunct)
  rcases h with h | h
  · exact hmem h
  · rw [law.decimal_ascii c hascii, hdigit] at h
    cases h

theorem CellChar.visible (law : u.Printable) (h : CellChar u c) : u.isSpace c = false := by
  rcases h with h | h
  · simp only [mem_cons, not_mem_nil, or_false] at h
    rcases h with rfl | rfl | rfl | rfl | rfl <;> exact law.isSpace_ascii _ (by decide) (by decide)
  · exact law.isSpace_decimal c h

theorem isCell_fills (law : u.Printable) : Fills (isCell u) punct looks where
  looks_of_hole _ h := (isCell_chars h).1
  nonempty word h := by
    rintro rfl
    cases h
  plain _ h c hc := ((isCell_chars h).2 c hc).plain law

/-- No other pattern matches what has the words of a recorded formula, and none one that has a
parenthesis more than it. -/
theorem run_other (law : u.Printable) (h : shape ≠ other ∨ shape = .a2 ∨ shape = .a12)
    (hrefs : ∀ name, isCell u (refs name) = true) (hseparated : separated punct looks v = true)
    (hsignature : signature (skeleton punct v) = shape.signature) :
    run (isCell u) other.pattern [] (fill refs v) = [] := by
  by_contra hne
  obtain ⟨captured, hcaptured⟩ := exists_mem_of_ne_nil _ hne
  obtain ⟨-, -, -, -, w, hw, houtline⟩ := run_reads (isCell_fills law) (by decide) (by decide)
    (pattern_wellFormed other) hcaptured
  rw [(read_fill (isCell_fills law) (fun name _ => hrefs name) hseparated).1] at houtline
  obtain ⟨words, refs', closing, first, hother, hwords, hdiffer, hnewline⟩ := signatures_differ h
  have hw' := pattern_signature other w hw
  rcases houtline with heq | heq
  · apply hdiffer
    rw [← hsignature, heq, hw', hother]
  · apply hnewline
    rw [← hsignature, heq]
    exact signature_newline (hw'.trans hother) hwords

theorem wellFormed_separated {pieces : List Piece} (h : wellFormed punct looks pieces = true) :
    ∀ v ∈ variants pieces, separated punct looks v = true := by
  simp only [wellFormed, Bool.and_eq_true, all_eq_true] at h
  exact h.2

/-- The first shape is recorded with the addend written twice. -/
theorem inventory_a1 : ∃ before : List Piece, ∃ after : List Piece, variants Shape.a1.inventory =
        [before ++ .capture "addend_ref" :: text ")," :: .capture "addend_value" :: after] ∧
      variants Shape.a1.pattern =
        [before ++ .capture "addend_ref" :: text ")," :: .again "addend_ref" :: after] := by
  refine ⟨(Shape.a1.pattern).take 7, (Shape.a1.pattern).drop 10, ?_⟩
  simp only [Shape.inventory, Shape.pattern, text, -String.reduceToList]
  repeat rw [String.toList_ofList]
  decide +kernel

/-- Where the two addends agree, the pattern spells what is recorded. -/
theorem inventory_spelled (h2 : shape ≠ .a2) (h12 : shape ≠ .a12)
    (haddend : shape = .a1 → refs "addend_value" = refs "addend_ref")
    (hv : v ∈ variants shape.inventory) :
    ∃ w ∈ variants shape.pattern, fill refs v = fill refs w := by
  by_cases h1 : shape = .a1
  · subst h1
    obtain ⟨before, after, hinventory, hpattern⟩ := inventory_a1
    rw [hinventory, mem_singleton] at hv
    refine ⟨_, by rw [hpattern, mem_singleton], ?_⟩
    rw [hv, fill_append, fill_append]
    simp [fill, text, haddend rfl]
  · rw [(shape_spellings shape).2.2 h1 h2 h12] at hv
    exact ⟨v, hv, rfl⟩

/-- The first shape's pattern asks that the two addends agree. -/
theorem addends_agree (law : u.Printable) (hrefs : ∀ name, isCell u (refs name) = true)
    (hv : v ∈ variants Shape.a1.inventory)
    (h : captured ∈ run (isCell u) Shape.a1.pattern [] (fill refs v)) :
    refs "addend_value" = refs "addend_ref" := by
  obtain ⟨refs', -, -, hfillings, -⟩ := run_reads (isCell_fills law) (by decide) (by decide)
    (pattern_wellFormed .a1) h
  rw [(read_fill (isCell_fills law) (fun name _ => hrefs name)
    (wellFormed_separated (inventory_wellFormed .a1) v hv)).2, slots_variants v hv] at hfillings
  have hrecorded : slots Shape.a1.inventory =
      ["guard_ref", "basis_ref", "rate_ref", "addend_ref", "addend_value"] := by
    simp only [Shape.inventory, -String.reduceToList]
    rw [String.toList_ofList]
    decide +kernel
  have hpattern : slots Shape.a1.pattern =
      ["guard_ref", "basis_ref", "rate_ref", "addend_ref", "addend_ref"] := by
    simp only [Shape.pattern, text, -String.reduceToList]
    repeat rw [String.toList_ofList]
    decide +kernel
  rw [hrecorded, hpattern] at hfillings
  simp only [map_cons, map_nil, cons.injEq, and_true] at hfillings
  obtain ⟨-, -, -, hfirst, hsecond⟩ := hfillings
  rw [hfirst, hsecond]

example : framed [.text "=MIN(".toList, .capture "range_start", .text ")".toList] = true := by
  decide +kernel

/-- A recorded formula has no whitespace at its ends. -/
theorem strip_fill (law : u.Printable) (hrefs : ∀ name, isCell u (refs name) = true) (h : framed v = true) :
    strip u (fill refs v) = fill refs v := by
  simp only [framed, Bool.and_eq_true] at h
  obtain ⟨hstart, hend⟩ := h
  apply strip_of_ends
  · split at hstart
    · simpa [fill] using law.isSpace_ascii '=' (by decide) (by decide)
    · cases hstart
  · cases hlast : v.getLast? with
    | none =>
      rw [hlast] at hend
      cases hend
    | some last =>
      rw [hlast] at hend
      obtain ⟨init, rfl⟩ := getLast?_eq_some_iff.mp hlast
      rw [fill_append, getLast?_append]
      cases last with
      | text literal =>
        have hparen : literal.getLast? = some ')' := by simpa using hend
        simpa [fill, hparen] using law.isSpace_ascii ')' (by decide) (by decide)
      | capture name =>
        have hcell := isCell_chars (hrefs name)
        have hne := (isCell_fills law).nonempty _ (hrefs name)
        simp only [fill, append_nil, getLast?_eq_some_getLast hne, Option.some_or, Option.any_some]
        exact (hcell.2 _ (getLast_mem hne)).visible law
      | either first second => cases hend
      | again name => cases hend

/-- A formula recognised as a shape, with its references captured, by no other shape's pattern
and in whatever order the patterns are tried. -/
structure Recognised (u : Unicode) (shape : Shape) (refs : String → List Char)
    (formula : List Char) : Prop where
  shapeId : (translateFormula u (String.ofList formula)).formulaShapeId = some shape
  captures : (translateFormula u (String.ofList formula)).namedCaptures = bindings refs (names shape.pattern)
  only : ∀ other : Shape, other ≠ shape → other.match? u formula = none
  anyOrder : ∀ table : List Shape, shape ∈ table →
    table.findSome? (fun s => (s.match? u formula).map (s, ·)) =
      some (shape, bindings refs (names shape.pattern))

theorem findSome?_only {formula : List Char} (hmatch : shape.match? u formula = some captures)
    (honly : ∀ other : Shape, other ≠ shape → other.match? u formula = none)
    {table : List Shape} (h : shape ∈ table) :
    table.findSome? (fun s => (s.match? u formula).map (s, ·)) = some (shape, captures) := by
  induction table with
  | nil => cases h
  | cons first rest ih =>
    rw [findSome?_cons]
    by_cases hfirst : first = shape
    · subst hfirst
      rw [hmatch]
      rfl
    · rw [honly first hfirst]
      exact ih ((mem_cons.mp h).resolve_left (Ne.symm hfirst))

theorem Shape.mem_all (shape : Shape) : shape ∈ Shape.all := by
  cases shape <;> decide

theorem translateFormula_found {formula : String}
    (h : findShape u (strip u formula.toList) = some (shape, captures)) :
    (translateFormula u formula).formulaShapeId = some shape ∧
      (translateFormula u formula).namedCaptures = captures := by
  delta translateFormula
  simp [h, and_self]

theorem patternSignature_eq (h2 : shape ≠ .a2) (h12 : shape ≠ .a12) :
    shape.patternSignature = shape.signature := by
  unfold Shape.patternSignature
  split
  · exact absurd rfl h2
  · exact absurd rfl h12
  · rfl

theorem translateFormula_emits (h : (translateFormula u formula).formulaShapeId = some shape) :
    (translateFormula u formula).outputPayload = shape.emit (translateFormula u formula).namedCaptures := by
  delta translateFormula at h ⊢
  simp only at h ⊢
  split at h
  · cases h
  · rename_i hfound
    cases h
    rfl

/-- What a whole pattern spells is recognised. -/
theorem recognised_pattern (law : u.Printable) (h2 : shape ≠ .a2)
    (h12 : shape ≠ .a12) (hrefs : ∀ name, isCell u (refs name) = true)
    {w : List Piece} (hw : w ∈ variants shape.pattern) : Recognised u shape refs (fill refs w) := by
  have hmatch : shape.match? u (fill refs w) = some (bindings refs (names shape.pattern)) :=
    run_fill (isCell_fills law) (by decide) (by decide) (pattern_wellFormed shape) hrefs hw
  have honly : ∀ other : Shape, other ≠ shape → other.match? u (fill refs w) = none := by
    intro other hother
    rw [Shape.match?, run_other law (.inl (Ne.symm hother)) hrefs
      (wellFormed_separated (pattern_wellFormed shape) w hw)
      ((pattern_signature shape w hw).trans (patternSignature_eq h2 h12))]
    rfl
  have hfind : findShape u (strip u (String.ofList (fill refs w)).toList) =
      some (shape, bindings refs (names shape.pattern)) := by
    rw [String.toList_ofList, strip_fill law hrefs ((shape_spellings shape).1.2 w hw).2.1]
    exact findSome?_only hmatch honly shape.mem_all
  have hfound := translateFormula_found hfind
  exact ⟨hfound.1, hfound.2, honly, fun _ => findSome?_only hmatch honly⟩

/-- What a shape is recognised by is matched by its pattern. -/
theorem translateFormula_matched (h : (translateFormula u formula).formulaShapeId = some shape) :
    ∃ captured, captured ∈ run (isCell u) shape.pattern [] (strip u formula.toList) := by
  delta translateFormula at h
  simp only at h
  split at h
  · cases h
  rename_i found captures hfound
  cases h
  obtain ⟨s, -, hs⟩ := exists_of_findSome?_eq_some hfound
  obtain ⟨captured, hmatch, heq⟩ := Option.map_eq_some_iff.mp hs
  cases heq
  exact ⟨_, mem_of_head? hmatch⟩

theorem not_matched (h : (translateFormula u formula).formulaShapeId = none)
    (shape : Shape) : run (isCell u) shape.pattern [] (strip u formula.toList) = [] := by
  delta translateFormula at h
  simp only at h
  split at h
  · rename_i hfound
    have hshape := findSome?_eq_none_iff.mp hfound shape shape.mem_all
    exact head?_eq_none_iff.mp (Option.map_eq_none_iff.mp hshape)
  · cases h

theorem recognised_iff (law : u.Printable) (shape : Shape)
    (hrefs : ∀ name, isCell u (refs name) = true) (hv : v ∈ variants shape.inventory) :
    Recognised u shape refs (fill refs v) ↔ shape ≠ .a2 ∧ shape ≠ .a12 ∧
        (shape = .a1 → refs "addend_value" = refs "addend_ref") := by
  constructor
  · intro h
    obtain ⟨captured, hcaptured⟩ := translateFormula_matched h.shapeId
    rw [String.toList_ofList, strip_fill law hrefs ((shape_spellings shape).2.1.2 v hv).2] at hcaptured
    have hmatched : ¬(shape = .a2 ∨ shape = .a12) := by
      intro hshort
      rw [run_other law (.inr hshort) hrefs
        (wellFormed_separated (inventory_wellFormed shape) v hv)
        ((shape_spellings shape).2.1.2 v hv).1] at hcaptured
      cases hcaptured
    refine ⟨fun h2 => hmatched (.inl h2), fun h12 => hmatched (.inr h12), ?_⟩
    rintro rfl
    exact addends_agree law hrefs hv hcaptured
  · rintro ⟨h2, h12, haddend⟩
    obtain ⟨w, hw, hfill⟩ := inventory_spelled h2 h12 haddend hv
    rw [hfill]
    exact recognised_pattern law h2 h12 hrefs hw

theorem parentheses_append (depth : Nat) (a b : List Char) :
    parentheses depth (a ++ b) = (parentheses depth a).bind (parentheses · b) := by
  induction a generalizing depth with
  | nil => rfl
  | cons c rest ih =>
    by_cases hopen : c = '('
    · subst hopen
      exact ih (depth + 1)
    by_cases hclose : c = ')'
    · subst hclose
      cases depth with
      | zero => rfl
      | succ n => exact ih n
    · rw [cons_append, parentheses, parentheses, ih]
      all_goals simp_all

theorem parentheses_plain {text : List Char} (h : ∀ c ∈ text, c ≠ '(' ∧ c ≠ ')') (depth : Nat) :
    parentheses depth text = some depth := by
  induction text with
  | nil => rfl
  | cons c rest ih =>
    have hc := h c mem_cons_self
    rw [parentheses]
    · exact ih fun x hx => h x (mem_cons_of_mem c hx)
    · exact fun hopen => hc.1 hopen
    · intro _ hclose
      exact absurd hclose hc.2
    · intro _ _ hclose
      exact absurd hclose hc.2

/-- References hold no parentheses. -/
theorem parentheses_fill (law : u.Printable)
    (hrefs : ∀ name ∈ slots v, isCell u (refs name) = true) (depth : Nat) :
    parentheses depth (fill refs v) = parentheses depth (fill (fun _ => []) v) := by
  have hcell : ∀ {name : String}, isCell u (refs name) = true →
      ∀ depth, parentheses depth (refs name) = some depth := by
    intro name hname
    apply parentheses_plain
    intro c hc
    have hplain := ((isCell_chars hname).2 c hc).plain law
    constructor
    · rintro rfl
      cases hplain
    · rintro rfl
      cases hplain
  induction v generalizing depth with
  | nil => rfl
  | cons piece rest ih =>
    cases piece with
    | text literal =>
      rw [fill, fill, parentheses_append, parentheses_append]
      congr 1
      funext n
      exact ih hrefs n
    | either first second =>
      rw [fill, fill, parentheses_append, parentheses_append]
      congr 1
      funext n
      exact ih hrefs n
    | capture name =>
      rw [fill, fill, parentheses_append, hcell (hrefs name mem_cons_self), Option.bind_some, nil_append]
      exact ih (fun other hother => hrefs other (mem_cons_of_mem name hother)) depth
    | again name =>
      rw [fill, fill, parentheses_append, hcell (hrefs name mem_cons_self), Option.bind_some, nil_append]
      exact ih (fun other hother => hrefs other (mem_cons_of_mem name hother)) depth

theorem pattern_balanced (shape : Shape) : ∀ v ∈ variants shape.pattern,
    balanced (fill (fun _ => []) v) = decide (shape ≠ .a2 ∧ shape ≠ .a12) :=
  fun v hv => ((shape_spellings shape).1.2 v hv).2.2

theorem truncations_variants :
    truncations.flatMap variants = variants Shape.a2.pattern ++ variants Shape.a12.pattern := by
  simp only [truncations, Shape.pattern, xlfnOptional, markCross, text, -String.reduceToList]
  repeat rw [String.toList_ofList]
  decide +kernel

example : balanced "=IFERROR(RC[1],0)".toList = true := by decide +kernel

/-- A formula that is one of the minimum skeletons but for a closing parenthesis. -/
def Truncated (u : Unicode) (formula : String) : Prop :=
  ∃ pieces ∈ truncations, ∃ v ∈ variants pieces, ∃ refs : String → List Char,
    (∀ name ∈ slots v, isCell u (refs name) = true) ∧ strip u formula.toList = fill refs v

/-- What a pattern matches in a stripped formula is all of it. -/
theorem matched_spelled (law : u.Printable) {formula : String}
    (h : captured ∈ run (isCell u) shape.pattern [] (strip u formula.toList)) :
    ∃ v ∈ variants shape.pattern, ∃ refs : String → List Char,
      (∀ name ∈ slots v, isCell u (refs name) = true) ∧ strip u formula.toList = fill refs v := by
  have hwell := pattern_wellFormed shape
  simp only [wellFormed, Bool.and_eq_true] at hwell
  obtain ⟨refs, -, hholes, -, v, hv, htext⟩ :=
    spelled_of_match hwell.1 h
  refine ⟨v, hv, refs, ?_, ?_⟩
  · intro name hname
    rw [slots_variants v hv] at hname
    exact hholes name ((slots_subset hwell.1 name hname).resolve_left (by simp))
  · rcases htext with htext | htext
    · exact htext
    · -- The newline the end of a pattern allows has been stripped.
      have hlast := strip_getLast? (u := u) formula.toList
      rw [htext, getLast?_concat, Option.any_some, law.isSpace_newline] at hlast
      cases hlast

/-- What is recognised is balanced, but for the minimum short of a parenthesis. -/
theorem balanced_iff (law : u.Printable) (formula : String) :
    ((translateFormula u formula).formulaShapeId ≠ none →
        balanced (strip u formula.toList) = true) ↔ ¬Truncated u formula := by
  constructor
  · rintro h ⟨pieces, hpieces, v, hv, refs, hrefs, htext⟩
    have hshort : v ∈ variants Shape.a2.pattern ++ variants Shape.a12.pattern := by
      rw [← truncations_variants]
      exact mem_flatMap.mpr ⟨pieces, hpieces, hv⟩
    obtain ⟨shape, hshape, hv⟩ : ∃ shape : Shape, (shape = .a2 ∨ shape = .a12) ∧
        v ∈ variants shape.pattern := by
      rcases mem_append.mp hshort with hv | hv
      · exact ⟨.a2, .inl rfl, hv⟩
      · exact ⟨.a12, .inr rfl, hv⟩
    have hbalance := pattern_balanced shape v hv
    have hwrong : balanced (strip u formula.toList) = false := by
      rw [htext, balanced, parentheses_fill law hrefs, ← balanced, hbalance]
      rcases hshape with rfl | rfl <;> rfl
    have hnone : (translateFormula u formula).formulaShapeId = none := by
      by_contra hsome
      rw [h hsome] at hwrong
      cases hwrong
    have hmissed := not_matched hnone shape
    have hwell := pattern_wellFormed shape
    simp only [wellFormed, Bool.and_eq_true] at hwell
    have hnames : ∀ name ∈ names shape.pattern, isCell u (refs name) = true := by
      intro name hname
      apply hrefs
      rw [slots_variants v hv]
      exact names_subset_slots _ name hname
    have hmatched := match_of_fill hnames hwell.1 hv
    rw [← htext, hmissed] at hmatched
    cases hmatched
  · intro h hsome
    obtain ⟨shape, hshape⟩ := Option.ne_none_iff_exists'.mp hsome
    obtain ⟨captured, hcaptured⟩ := translateFormula_matched hshape
    obtain ⟨v, hv, refs, hrefs, htext⟩ := matched_spelled law hcaptured
    rw [htext, balanced, parentheses_fill law hrefs, ← balanced, pattern_balanced shape v hv,
      decide_eq_true_eq]
    by_contra hshort
    apply h
    have hmem : v ∈ truncations.flatMap variants := by
      rw [truncations_variants, mem_append]
      by_cases h2 : shape = .a2
      · exact .inl (h2 ▸ hv)
      by_cases h12 : shape = .a12
      · exact .inr (h12 ▸ hv)
      · exact absurd ⟨h2, h12⟩ hshort
    obtain ⟨pieces, hpieces, hv⟩ := mem_flatMap.mp hmem
    exact ⟨pieces, hpieces, v, hv, refs, hrefs, htext⟩

/-- An R1C1 reference. -/
abbrev Reference (u : Unicode) : Type := {word : List Char // isCell u word = true}

/-- Each recorded formula is recognised exactly, the two minimum shapes apart, and what is
recognised is balanced, those two short of a parenthesis apart. -/
theorem recognition_exact_iff (law : u.Printable) :
    (∀ (shape : Shape) (refs : String → Reference u), ∀ v ∈ variants shape.inventory,
      Recognised u shape (fun name => (refs name).1) (fill (fun name => (refs name).1) v) ↔
        shape ≠ .a2 ∧ shape ≠ .a12 ∧ (shape = .a1 → refs "addend_value" = refs "addend_ref")) ∧
    ∀ formula : String, ((translateFormula u formula).formulaShapeId ≠ none →
      balanced (strip u formula.toList) = true) ↔ ¬Truncated u formula := by
  constructor
  · intro shape refs v hv
    rw [recognised_iff law shape (fun name => (refs name).2) hv]
    simp [Subtype.ext_iff]
  · exact balanced_iff law

/-- A minimum over `RC[1]:RC[2]`. -/
def sampleRefs (name : String) : Reference .ascii :=
  if name = "range_start" ∨ name = "filter_start" then ⟨['R', 'C', '[', '1', ']'], by decide⟩
  else ⟨['R', 'C', '[', '2', ']'], by decide⟩

theorem recognition_exact_sample : variants Shape.a5.inventory ≠ [] ∧ ∀ v ∈ variants Shape.a5.inventory,
      Recognised .ascii .a5 (fun name => (sampleRefs name).1)
        (fill (fun name => (sampleRefs name).1) v) := by
  refine ⟨by decide, fun v hv => ?_⟩
  exact ((recognition_exact_iff Unicode.ascii_printable).1 .a5 sampleRefs v hv).mpr
    ⟨by decide, by decide, fun h => by cases h⟩

/-- The recorded minimum is not recognised, and what is recognised in its place lacks a
parenthesis. -/
theorem minimum_truncated :
    (∃ v ∈ variants Shape.a2.inventory, fill (fun name => (sampleRefs name).1) v =
      "=IFERROR(MIN(FILTER(RC[1]:RC[2],RC[1]:RC[2]<>0)),\"\u274c\")".toList) ∧
    (translateFormula .ascii
      "=IFERROR(MIN(FILTER(RC[1]:RC[2],RC[1]:RC[2]<>0)),\"\u274c\")").formulaShapeId = none ∧
    (translateFormula .ascii
      "=IFERROR(MIN(FILTER(RC[1]:RC[2],RC[1]:RC[2]<>0),\"\u274c\")").formulaShapeId = some .a2 ∧
    balanced "=IFERROR(MIN(FILTER(RC[1]:RC[2],RC[1]:RC[2]<>0),\"\u274c\")".toList = false := by
  decide +kernel

end FlowHub.FormulaTranslator
