import Mathlib.Data.List.Basic

/-!
# Patterns with holes

A pattern is literal text around holes. A backtracking matcher returns what its holes
capture. Where the literals keep the holes apart by punctuation, what a text is made of can
be read off its words alone, so that two patterns whose words differ never match one text
and one pattern matches a text in one way.
-/

namespace FlowHub.Pattern

open List

/-- A piece of a pattern: literal text, one of two literals in this order, a hole, or the
text an earlier hole has captured. -/
inductive Piece where
  | text (literal : List Char)
  | either (first second : List Char)
  | capture (name : String)
  | again (name : String)
  deriving DecidableEq

abbrev Captures := List (String × List Char)

/-- What follows a prefix. -/
def cut (head text : List Char) : Option (List Char) :=
  if head.isPrefixOf text then some (text.drop head.length) else none

variable (hole : List Char → Bool)

/-- Where a hole can end in a text, the longest first. -/
def splits (text : List Char) : List (List Char × List Char) :=
  ((List.range (text.length + 1)).reverse.map fun n => (text.take n, text.drop n)).filter
    fun split => hole split.1

/-- The ways a pattern matches a whole text, in the order a backtracking matcher tries them.
The end of a text may be followed by one newline. -/
def run : List Piece → Captures → List Char → List Captures
  | [], captured, text => if text = [] ∨ text = ['\n'] then [captured] else []
  | .text literal :: rest, captured, text =>
    match cut literal text with
    | none => []
    | some after => run rest captured after
  | .either first second :: rest, captured, text =>
    (match cut first text with
      | none => []
      | some after => run rest captured after) ++
    (match cut second text with
      | none => []
      | some after => run rest captured after)
  | .capture name :: rest, captured, text =>
    (splits hole text).flatMap fun (taken, after) => run rest (captured ++ [(name, taken)]) after
  | .again name :: rest, captured, text =>
    match (captured.lookup name).bind (cut · text) with
    | none => []
    | some after => run rest captured after

/-- The names of a pattern's holes. -/
def names : List Piece → List String
  | .capture name :: rest => name :: names rest
  | _ :: rest => names rest
  | [] => []

/-- The hole a piece stands for, if any. -/
def Piece.slot : Piece → Option String
  | .capture name | .again name => some name
  | .text _ | .either _ _ => none

/-- Every slot of a pattern in its order, those filled again included. -/
def slots (pieces : List Piece) : List String := pieces.filterMap (·.slot)

/-- Literal text put before a pattern, as one piece with the text it meets. -/
def consText (literal : List Char) : List Piece → List Piece
  | .text next :: rest => .text (literal ++ next) :: rest
  | pieces => .text literal :: pieces

/-- The patterns that remain once every choice is made. -/
def variants : List Piece → List (List Piece)
  | [] => [[]]
  | .text literal :: rest => (variants rest).map (consText literal)
  | .either first second :: rest =>
    (variants rest).map (consText first) ++ (variants rest).map (consText second)
  | piece :: rest => (variants rest).map (piece :: ·)

/-- The text a pattern without choices spells. -/
def fill (refs : String → List Char) : List Piece → List Char
  | .text literal :: rest => literal ++ fill refs rest
  | .either first _ :: rest => first ++ fill refs rest
  | .capture name :: rest => refs name ++ fill refs rest
  | .again name :: rest => refs name ++ fill refs rest
  | [] => []

theorem cut_eq_some {head text after : List Char} : cut head text = some after ↔ text = head ++ after := by
  unfold cut
  constructor
  · intro h
    split at h
    · rename_i hprefix
      cases h
      obtain ⟨after, rfl⟩ := isPrefixOf_iff_prefix.mp hprefix
      rw [drop_left]
    · cases h
  · rintro rfl
    rw [if_pos ( isPrefixOf_iff_prefix.mpr (prefix_append _ _)), drop_left]

variable {hole}

theorem mem_splits {text taken after : List Char} :
    (taken, after) ∈ splits hole text ↔ text = taken ++ after ∧ hole taken = true := by
  simp only [splits, mem_filter, mem_map, mem_reverse, mem_range, Prod.mk.injEq]
  constructor
  · rintro ⟨⟨n, -, rfl, rfl⟩, hhole⟩
    exact ⟨(take_append_drop n text).symm, hhole⟩
  · rintro ⟨rfl, hhole⟩
    refine ⟨⟨taken.length, ?_, take_left, drop_left⟩, hhole⟩
    rw [length_append]
    omega

@[simp] theorem fill_consText (refs : String → List Char) (literal : List Char)
    (pieces : List Piece) : fill refs (consText literal pieces) = literal ++ fill refs pieces := by
  unfold consText
  split
  · simp [fill]
  · rfl

theorem fill_append (refs : String → List Char) (a b : List Piece) :
    fill refs (a ++ b) = fill refs a ++ fill refs b := by
  induction a with
  | nil => rfl
  | cons piece rest ih => cases piece <;> simp [fill, ih]

/-- What the holes of these names are filled with. -/
def bindings (refs : String → List Char) (bound : List String) : Captures :=
  bound.map fun name => (name, refs name)

variable {refs : String → List Char} {pieces : List Piece} {bound : List String}
  {captured : Captures} {v : List Piece}

theorem lookup_bindings {name : String}
    (h : name ∈ bound) : (bindings refs bound).lookup name = some (refs name) := by
  induction bound with
  | nil => cases h
  | cons first rest ih =>
    by_cases hname : name = first
    · subst hname
      exact lookup_cons_self
    · rw [bindings, map_cons, lookup_cons, beq_false_of_ne hname]
      exact ih ((mem_cons.mp h).resolve_left hname)

theorem bindings_congr {refs refs' : String → List Char}
    (h : ∀ name ∈ bound, refs name = refs' name) : bindings refs bound = bindings refs' bound := by
  apply map_congr_left
  intro name hname
  rw [h name hname]

/-- Each hole has its own name, and only a filled hole is filled again. -/
def closed : List Piece → List String → Bool
  | .capture name :: rest, bound => decide (name ∉ bound) && closed rest (bound ++ [name])
  | .again name :: rest, bound => decide (name ∈ bound) && closed rest bound
  | _ :: rest, bound => closed rest bound
  | [], _ => true

/-- A pattern matches every text it spells, and captures what was filled in. -/
theorem run_complete : (∀ name ∈ names pieces, hole (refs name) = true) →
    ∀ {bound : List String}, closed pieces bound = true →
    ∀ v ∈ variants pieces, bindings refs (bound ++ names pieces) ∈
      run hole pieces (bindings refs bound) (fill refs v) := by
  induction pieces with
  | nil =>
    intro _ bound _ v hv
    simp only [variants, mem_singleton] at hv
    subst hv
    simp [names, run, fill]
  | cons piece rest ih =>
    intro hrefs bound hclosed v hv
    cases piece with
    | text literal =>
      simp only [variants, mem_map] at hv
      obtain ⟨w, hw, rfl⟩ := hv
      simp only [run, fill_consText, cut_eq_some.mpr rfl]
      exact ih hrefs hclosed w hw
    | either first second =>
      simp only [variants, mem_append, mem_map] at hv
      simp only [run, mem_append]
      rcases hv with ⟨w, hw, rfl⟩ | ⟨w, hw, rfl⟩
      · left
        simp only [fill_consText, cut_eq_some.mpr rfl]
        exact ih hrefs hclosed w hw
      · right
        simp only [fill_consText, cut_eq_some.mpr rfl]
        exact ih hrefs hclosed w hw
    | capture name =>
      simp only [variants, mem_map] at hv
      obtain ⟨w, hw, rfl⟩ := hv
      simp only [closed, Bool.and_eq_true] at hclosed
      simp only [run, fill, mem_flatMap]
      refine ⟨(refs name, fill refs w), mem_splits.mpr ⟨rfl, hrefs name mem_cons_self⟩, ?_⟩
      have hnext := ih (fun other hother => hrefs other (mem_cons_of_mem name hother))
        hclosed.2 w hw
      simpa [bindings, names, append_assoc] using hnext
    | again name =>
      simp only [variants, mem_map] at hv
      obtain ⟨w, hw, rfl⟩ := hv
      simp only [closed, Bool.and_eq_true, decide_eq_true_eq] at hclosed
      simp only [run, fill, lookup_bindings hclosed.1, Option.bind_some, cut_eq_some.mpr rfl]
      exact ih hrefs hclosed.2 w hw

/-- A text that a pattern spells, with what it captures, once the bound holes are filled. -/
def Spelled (hole : List Char → Bool) (pieces : List Piece) (bound : List String)
    (refs : String → List Char) (text : List Char) (captured : Captures) : Prop :=
  ∃ refs', (∀ name ∈ bound, refs' name = refs name) ∧ (∀ name ∈ names pieces, hole (refs' name) = true) ∧
    captured = bindings refs' (bound ++ names pieces) ∧
    ∃ v ∈ variants pieces, text = fill refs' v ∨ text = fill refs' v ++ ['\n']

theorem Spelled.literal {pieces rest : List Piece} {literal after : List Char}
    (h : Spelled hole rest bound refs after captured) (hnames : names pieces = names rest)
    (hvariant : ∀ v ∈ variants rest, consText literal v ∈ variants pieces) :
    Spelled hole pieces bound refs (literal ++ after) captured := by
  obtain ⟨refs', hbound, hholes, hcaptured, v, hv, htext⟩ := h
  refine ⟨refs', hbound, hnames ▸ hholes, hnames ▸ hcaptured, _, hvariant v hv, ?_⟩
  rw [fill_consText, append_assoc, append_right_inj, append_right_inj]
  exact htext

/-- What a pattern matches is spelled by what it captures. -/
theorem run_sound : ∀ {bound : List String} {refs : String → List Char}
    {text : List Char} {captured : Captures}, closed pieces bound = true →
    captured ∈ run hole pieces (bindings refs bound) text →
    Spelled hole pieces bound refs text captured := by
  induction pieces with
  | nil =>
    intro bound refs text captured _ h
    simp only [run] at h
    split at h
    · rename_i htext
      simp only [mem_singleton] at h
      exact ⟨refs, fun _ _ => rfl, by simp [names], by simpa [names] using h, [],
        by simp [variants], by simpa [fill] using htext⟩
    · cases h
  | cons piece rest ih =>
    intro bound refs text captured hclosed h
    cases piece with
    | text literal =>
      simp only [run] at h
      split at h
      · cases h
      · rename_i after hcut
        rw [cut_eq_some.mp hcut]
        exact (ih hclosed h).literal rfl fun v hv => mem_map_of_mem hv
    | either first second =>
      simp only [run, mem_append] at h
      rcases h with h | h
      · split at h
        · cases h
        · rename_i after hcut
          rw [cut_eq_some.mp hcut]
          exact (ih hclosed h).literal rfl fun v hv =>
            mem_append_left _ (mem_map_of_mem hv)
      · split at h
        · cases h
        · rename_i after hcut
          rw [cut_eq_some.mp hcut]
          exact (ih hclosed h).literal rfl fun v hv =>
            mem_append_right _ (mem_map_of_mem hv)
    | capture name =>
      simp only [closed, Bool.and_eq_true, decide_eq_true_eq] at hclosed
      simp only [run, mem_flatMap] at h
      obtain ⟨⟨taken, after⟩, hsplit, h⟩ := h
      obtain ⟨rfl, hhole⟩ := mem_splits.mp hsplit
      have hkeep : ∀ other ∈ bound, refs other = Function.update refs name taken other := by
        intro other hother
        rw [Function.update_of_ne]
        rintro rfl
        exact hclosed.1 hother
      have hbindings : bindings refs bound ++ [(name, taken)] =
          bindings (Function.update refs name taken) (bound ++ [name]) := by
        rw [bindings_congr hkeep, bindings, bindings, map_append]
        simp
      rw [hbindings] at h
      obtain ⟨refs', hbound, hholes, hcaptured, v, hv, htext⟩ := ih hclosed.2 h
      have hname : refs' name = taken := by
        rw [hbound name (by simp), Function.update_self]
      refine ⟨refs', ?_, ?_, by simpa [names] using hcaptured, .capture name :: v, mem_map_of_mem hv, ?_⟩
      · intro other hother
        rw [hbound other (by simp [hother]), hkeep other hother]
      · intro other hother
        rcases mem_cons.mp hother with rfl | hother
        · rw [hname]
          exact hhole
        · exact hholes other hother
      · rw [fill, hname, append_assoc, append_right_inj, append_right_inj]
        exact htext
    | again name =>
      simp only [closed, Bool.and_eq_true, decide_eq_true_eq] at hclosed
      simp only [run, lookup_bindings hclosed.1, Option.bind_some] at h
      split at h
      · cases h
      rename_i after hcut
      obtain ⟨refs', hbound, hholes, hcaptured, v, hv, htext⟩ := ih hclosed.2 h
      refine ⟨refs', hbound, hholes, hcaptured, .again name :: v, mem_map_of_mem hv, ?_⟩
      rw [cut_eq_some.mp hcut, fill, hbound name hclosed.1, append_assoc, append_right_inj, append_right_inj]
      exact htext

/-- A match starts with no hole filled. -/
theorem spelled_of_match {text : List Char}
    (hclosed : closed pieces [] = true) (h : captured ∈ run hole pieces [] text) :
    Spelled hole pieces [] (fun _ => []) text captured :=
  run_sound hclosed h

theorem match_of_fill
    (hrefs : ∀ name ∈ names pieces, hole (refs name) = true) (hclosed : closed pieces [] = true)
    (hv : v ∈ variants pieces) :
    bindings refs (names pieces) ∈ run hole pieces [] (fill refs v) :=
  run_complete hrefs hclosed v hv

variable (punct : Char → Bool)

/-- The words of a text: its punctuation marks, and the longest runs between them. -/
def words : List Char → List (List Char)
  | [] => []
  | c :: rest =>
    if punct c then [c] :: words rest
    else match rest, words rest with
      | d :: _, word :: more => if punct d then [c] :: word :: more else (c :: word) :: more
      | _, more => [c] :: more

variable {punct}

theorem words_cons (punct : Char → Bool) (c : Char) (rest : List Char) :
    ∃ word more, words punct (c :: rest) = (c :: word) :: more := by
  unfold words
  by_cases hc : punct c = true
  · exact ⟨[], words punct rest, by rw [if_pos hc]⟩
  rw [if_neg hc]
  split
  · rename_i d _ word more _
    by_cases hd : punct d = true
    · exact ⟨[], word :: more, by rw [if_pos hd]⟩
    · exact ⟨word, more, by rw [if_neg hd]⟩
  · exact ⟨[], _, rfl⟩

theorem words_cons_cons {c d : Char} {rest word : List Char} {more : List (List Char)}
    (h : words punct (d :: rest) = word :: more) :
    words punct (c :: d :: rest) =
      if punct c || punct d then [c] :: word :: more else (c :: word) :: more := by
  rw [words.eq_def]
  dsimp only
  rw [h]
  cases punct c <;> cases hd : punct d <;> simp [hd]

/-- A text falls apart into words wherever one of its halves meets the other at
punctuation. -/
theorem words_append {a b : List Char} (h : b = [] ∨ a.getLast?.any punct = true ∨ b.head?.any punct = true) :
    words punct (a ++ b) = words punct a ++ words punct b := by
  induction a with
  | nil => rfl
  | cons c rest ih =>
    cases rest with
    | nil =>
      cases b with
      | nil => simp [words]
      | cons d after =>
        have hmark : (punct c || punct d) = true := by simpa using h
        obtain ⟨word, more, hwords⟩ := words_cons punct d after
        rw [singleton_append, words_cons_cons hwords, if_pos hmark, ← hwords]
        cases hc : punct c <;> simp [words, hc]
    | cons d after =>
      have hnext := ih (by simpa using h)
      obtain ⟨word, more, hwords⟩ := words_cons punct d after
      rw [hwords] at hnext
      rw [cons_append, cons_append, words_cons_cons hwords]
      rw [cons_append, cons_append] at hnext
      rw [words_cons_cons hnext]
      split <;> rfl

theorem words_word {word : List Char} (hne : word ≠ []) (h : ∀ c ∈ word, punct c = false) :
    words punct word = [word] := by
  induction word with
  | nil => exact absurd rfl hne
  | cons c rest ih =>
    have hc := h c mem_cons_self
    cases rest with
    | nil => simp [words, hc]
    | cons d after =>
      have hd := h d (by simp)
      rw [words_cons_cons (ih (by simp) fun x hx => h x (mem_cons_of_mem c hx)), hc, hd]
      rfl

/-- What fills a hole: a word of its own kind, which no punctuation cuts. -/
structure Fills (hole : List Char → Bool) (punct : Char → Bool) (looks : List Char → Bool) : Prop where
  looks_of_hole : ∀ word, hole word = true → looks word = true
  nonempty : ∀ word, hole word = true → word ≠ []
  plain : ∀ word, hole word = true → ∀ c ∈ word, punct c = false

variable (punct) (looks : List Char → Bool)

/-- The words of a text, those that look like a hole's left open. -/
def outline (text : List Char) : List (Option (List Char)) :=
  (words punct text).map fun word => if looks word then none else some word

def fillings (text : List Char) : List (List Char) := (words punct text).filter looks

/-- The outline of whatever a pattern without choices spells. -/
def skeleton : List Piece → List (Option (List Char))
  | .text literal :: rest => (words punct literal).map some ++ skeleton rest
  | .either _ _ :: rest => skeleton rest
  | .capture _ :: rest => none :: skeleton rest
  | .again _ :: rest => none :: skeleton rest
  | [] => []

/-- Every hole stands between punctuation, and no literal word looks like one. -/
def separated : List Piece → Bool
  | .text literal :: rest =>
    (rest.isEmpty || literal.getLast?.any punct) && (words punct literal).all (!looks ·) &&
      separated rest
  | .either _ _ :: _ => false
  | _ :: .text literal :: rest => literal.head?.any punct && separated (.text literal :: rest)
  | [_] => true
  | _ :: _ => false
  | [] => true

def wellFormed (pieces : List Piece) : Bool :=
  closed pieces [] && (variants pieces).all (separated punct looks)

variable {punct looks}

theorem read_word {word rest : List Char} (fills : Fills hole punct looks)
    (hword : hole word = true) (hrest : rest = [] ∨ rest.head?.any punct = true) :
    outline punct looks (word ++ rest) = none :: outline punct looks rest ∧
      fillings punct looks (word ++ rest) = word :: fillings punct looks rest := by
  have hwords : words punct (word ++ rest) = word :: words punct rest := by
    rw [words_append (hrest.imp id .inr),
      words_word (fills.nonempty word hword) (fills.plain word hword), singleton_append]
  simp [outline, fillings, hwords, fills.looks_of_hole word hword]

theorem read_literal {literal : List Char} (rest : List Char)
    (hend : rest = [] ∨ literal.getLast?.any punct = true)
    (hlooks : (words punct literal).all (!looks ·) = true) :
    outline punct looks (literal ++ rest) = (words punct literal).map some ++ outline punct looks rest ∧
      fillings punct looks (literal ++ rest) = fillings punct looks rest := by
  have hwords : words punct (literal ++ rest) = words punct literal ++ words punct rest :=
    words_append (hend.imp id .inl)
  simp only [all_eq_true, Bool.not_eq_true'] at hlooks
  constructor
  · rw [outline, hwords, map_append]
    congr 1
    apply map_congr_left
    intro word hword
    rw [hlooks word hword]
    rfl
  · rw [fillings, hwords, filter_append, filter_eq_nil_iff.mpr, nil_append, fillings]
    intro word hword
    rw [hlooks word hword]
    simp

/-- A hole at the head of a separated pattern ends where punctuation follows. -/
theorem separated_slot {piece : Piece} {name : String} {rest : List Piece} (hslot : piece.slot = some name)
    (h : separated punct looks (piece :: rest) = true) :
    separated punct looks rest = true ∧ (fill refs rest = [] ∨ (fill refs rest).head?.any punct = true) := by
  cases rest with
  | nil => exact ⟨rfl, .inl rfl⟩
  | cons next more =>
    have hnext : ∃ literal, next = .text literal ∧ literal.head?.any punct = true ∧
        separated punct looks (.text literal :: more) = true := by
      cases piece with
      | text literal => cases hslot
      | either first second => cases hslot
      | capture _ =>
        cases next with
        | text literal => exact ⟨literal, rfl, Bool.and_eq_true_iff.mp h⟩
        | either first second => cases h
        | capture other => cases h
        | again other => cases h
      | again _ =>
        cases next with
        | text literal => exact ⟨literal, rfl, Bool.and_eq_true_iff.mp h⟩
        | either first second => cases h
        | capture other => cases h
        | again other => cases h
    obtain ⟨literal, rfl, hmark, hrest⟩ := hnext
    refine ⟨hrest, .inr ?_⟩
    cases literal with
    | nil => cases hmark
    | cons c after => exact hmark

/-- Whatever a separated pattern is filled with, its words show its skeleton and its
fillings. -/
theorem read_fill (fills : Fills hole punct looks)
    (hrefs : ∀ name ∈ slots v, hole (refs name) = true) (h : separated punct looks v = true) :
    outline punct looks (fill refs v) = skeleton punct v ∧
      fillings punct looks (fill refs v) = (slots v).map refs := by
  induction v with
  | nil => exact ⟨rfl, rfl⟩
  | cons piece rest ih =>
    cases piece with
    | either first second => cases h
    | text literal =>
      simp only [separated, Bool.and_eq_true, Bool.or_eq_true, List.isEmpty_iff] at h
      obtain ⟨⟨hend, hlooks⟩, hrest⟩ := h
      have hread := read_literal (fill refs rest)
        (hend.imp (fun hnil => by rw [hnil]; rfl) id) hlooks
      obtain ⟨houtline, hfillings⟩ := ih hrefs hrest
      rw [fill, skeleton, hread.1, hread.2, houtline, hfillings]
      exact ⟨rfl, rfl⟩
    | capture name =>
      obtain ⟨hrest, hstart⟩ := separated_slot rfl h
      have hread := read_word fills (hrefs name mem_cons_self) hstart
      obtain ⟨houtline, hfillings⟩ := ih
        (fun other hother => hrefs other (mem_cons_of_mem name hother)) hrest
      rw [fill, skeleton, hread.1, hread.2, houtline, hfillings]
      exact ⟨rfl, rfl⟩
    | again name =>
      obtain ⟨hrest, hstart⟩ := separated_slot rfl h
      have hread := read_word fills (hrefs name mem_cons_self) hstart
      obtain ⟨houtline, hfillings⟩ := ih
        (fun other hother => hrefs other (mem_cons_of_mem name hother)) hrest
      rw [fill, skeleton, hread.1, hread.2, houtline, hfillings]
      exact ⟨rfl, rfl⟩

@[simp] theorem slots_consText (literal : List Char) (v : List Piece) :
    slots (consText literal v) = slots v := by
  unfold consText
  split <;> rfl

theorem slots_variants : ∀ v ∈ variants pieces, slots v = slots pieces := by
  induction pieces with
  | nil =>
    intro v hv
    simp only [variants, mem_singleton] at hv
    rw [hv]
  | cons piece rest ih =>
    intro v hv
    cases piece with
    | text literal =>
      obtain ⟨w, hw, rfl⟩ := mem_map.mp hv
      rw [slots_consText, ih w hw]
      rfl
    | either first second =>
      rcases mem_append.mp hv with hv | hv
      · obtain ⟨w, hw, rfl⟩ := mem_map.mp hv
        rw [slots_consText, ih w hw]
        rfl
      · obtain ⟨w, hw, rfl⟩ := mem_map.mp hv
        rw [slots_consText, ih w hw]
        rfl
    | capture name =>
      obtain ⟨w, hw, rfl⟩ := mem_map.mp hv
      simpa [slots, Piece.slot] using ih w hw
    | again name =>
      obtain ⟨w, hw, rfl⟩ := mem_map.mp hv
      simpa [slots, Piece.slot] using ih w hw

theorem names_subset_slots (pieces : List Piece) : ∀ name ∈ names pieces, name ∈ slots pieces := by
  induction pieces with
  | nil => simp [names]
  | cons piece rest ih =>
    intro name hname
    cases piece with
    | text literal => exact ih name hname
    | either first second => exact ih name hname
    | capture first =>
      rcases mem_cons.mp hname with rfl | hname
      · exact mem_cons_self
      · exact mem_cons_of_mem first (ih name hname)
    | again first => exact mem_cons_of_mem first (ih name hname)

/-- A closed pattern fills no hole it has not captured. -/
theorem slots_subset (h : closed pieces bound = true) :
    ∀ name ∈ slots pieces, name ∈ bound ∨ name ∈ names pieces := by
  induction pieces generalizing bound with
  | nil => simp [slots]
  | cons piece rest ih =>
    intro name hname
    cases piece with
    | text literal => exact ih h name hname
    | either first second => exact ih h name hname
    | capture first =>
      simp only [closed, Bool.and_eq_true] at h
      rcases mem_cons.mp hname with rfl | hname
      · exact .inr mem_cons_self
      rcases ih h.2 name hname with hbound | hnames
      · rcases mem_append.mp hbound with hbound | hfirst
        · exact .inl hbound
        · exact .inr (mem_singleton.mp hfirst ▸ mem_cons_self)
      · exact .inr (mem_cons_of_mem first hnames)
    | again first =>
      simp only [closed, Bool.and_eq_true, decide_eq_true_eq] at h
      rcases mem_cons.mp hname with rfl | hname
      · exact .inl h.1
      · exact ih h.2 name hname

/-- What a well-formed pattern matches has the words of one of its variants, and its holes
capture the words left open, in their order. -/
theorem run_reads (fills : Fills hole punct looks) (hnewline : punct '\n' = true)
    (hlooks : looks ['\n'] = false)
    (hwell : wellFormed punct looks pieces = true) {text : List Char}
    (h : captured ∈ run hole pieces [] text) :
    ∃ refs, (∀ name ∈ names pieces, hole (refs name) = true) ∧ captured = bindings refs (names pieces) ∧
      fillings punct looks text = (slots pieces).map refs ∧
      ∃ v ∈ variants pieces, outline punct looks text = skeleton punct v ∨
        outline punct looks text = skeleton punct v ++ [some ['\n']] := by
  simp only [wellFormed, Bool.and_eq_true, all_eq_true] at hwell
  obtain ⟨hclosed, hseparated⟩ := hwell
  obtain ⟨refs, -, hholes, rfl, v, hv, htext⟩ :=
    spelled_of_match hclosed h
  have hslots : ∀ name ∈ slots v, hole (refs name) = true := by
    intro name hname
    rw [slots_variants v hv] at hname
    exact hholes name ((slots_subset hclosed name hname).resolve_left (by simp))
  obtain ⟨houtline, hfillings⟩ := read_fill fills hslots (hseparated v hv)
  refine ⟨refs, hholes, rfl, ?_, v, hv, ?_⟩
  · rw [← slots_variants v hv, ← hfillings]
    rcases htext with rfl | rfl
    · rfl
    · rw [fillings, words_append (.inr (.inr (by simpa using hnewline))), filter_append]
      simp [words, hnewline, hlooks, fillings]
  · rcases htext with rfl | rfl
    · exact .inl houtline
    · right
      rw [outline, words_append (.inr (.inr (by simpa using hnewline))), map_append, ← outline, houtline]
      simp [words, hnewline, hlooks]

/-- A well-formed pattern matches what it spells in one way only. -/
theorem run_fill (fills : Fills hole punct looks) (hnewline : punct '\n' = true)
    (hlooks : looks ['\n'] = false) (hwell : wellFormed punct looks pieces = true)
    (hrefs : ∀ name, hole (refs name) = true) (hv : v ∈ variants pieces) :
    (run hole pieces [] (fill refs v)).head? = some (bindings refs (names pieces)) := by
  have hparts := hwell
  simp only [wellFormed, Bool.and_eq_true, all_eq_true] at hparts
  have hmem := match_of_fill (fun name _ => hrefs name) hparts.1 hv
  obtain ⟨captured, hcaptured⟩ : ∃ captured, (run hole pieces [] (fill refs v)).head? = some captured := by
    cases hrun : run hole pieces [] (fill refs v) with
    | nil =>
      rw [hrun] at hmem
      cases hmem
    | cons first rest => exact ⟨first, rfl⟩
  obtain ⟨refs', -, rfl, hfillings, -⟩ :=
    run_reads fills hnewline hlooks hwell (mem_of_head? hcaptured)
  rw [hcaptured, Option.some_inj]
  apply bindings_congr
  intro name hname
  rw [(read_fill fills (fun name _ => hrefs name) (hparts.2 v hv)).2, slots_variants v hv]
    at hfillings
  exact (map_inj_left.mp hfillings name (names_subset_slots pieces name hname)).symm

end FlowHub.Pattern
