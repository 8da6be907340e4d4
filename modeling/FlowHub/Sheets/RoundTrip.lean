import FlowHub.Python.Words
import FlowHub.Sheets.Revision

namespace FlowHub.Sheets

open Python Txn List

/-- A loop that adds one entry a round adds them in the order of its items. -/
theorem foldlM_snoc {α β ε : Type} {f : List β → α → Except ε (List β)} {g : α → β} {P : List β → Prop}
    (hround : ∀ done a out, P done → f done a = .ok out → out = done ++ [g a] ∧ P out)
    {as : List α} {done out : List β} (hdone : P done) (h : as.foldlM f done = .ok out) :
    out = done ++ as.map g ∧ P out := by
  induction as generalizing done with
  | nil =>
    cases h
    exact ⟨by simp, hdone⟩
  | cons a rest ih =>
    rw [foldlM_cons] at h
    obtain ⟨next, hnext, hrest⟩ := bind_eq_ok.mp h
    obtain ⟨rfl, hkept⟩ := hround done a next hdone hnext
    obtain ⟨rfl, hout⟩ := ih hkept hrest
    exact ⟨by simp, hout⟩

theorem map_zipIdx {α β γ : Type} {f : α → β} {g : β × Nat → γ} {h : α → γ} {as : List α}
    (heq : ∀ a ∈ as, ∀ i, g (f a, i) = h a) (k : Nat) :
    ((as.map f).zipIdx k).map g = as.map h := by
  induction as generalizing k with
  | nil => rfl
  | cons a rest ih =>
    rw [forall_mem_cons] at heq
    rw [map_cons, zipIdx_cons, map_cons, map_cons, heq.1, ih heq.2]

section Names

variable {u : Unicode}

/-- A name that cleaning leaves as it is. -/
structure Settled (u : Unicode) (name : String) : Prop where
  nonempty : name.toList ≠ []
  spaced : singleSpaced u name.toList = name.toList
  short : name.toList.length ≤ 240

theorem cleanName_of_settled (h : Settled u name) (fallback : String) : cleanName u name fallback = name := by
  simp only [cleanName, h.spaced, take_of_length_le h.short, if_neg h.nonempty, String.ofList_toList]

/-- What `_clean_name` makes of a text: the fallback, or spaced words, it may be cut at a blank. -/
theorem cleanName_cases (value fallback : String) : cleanName u value fallback = fallback ∨
    ∃ ws : List (List Char), (∀ w ∈ ws, Word u w) ∧ ws ≠ [] ∧ (spaced ws).length ≤ 240 ∧
      (cleanName u value fallback = String.ofList (spaced ws) ∨
        (cleanName u value fallback = String.ofList (spaced ws ++ [' ']) ∧
          ((singleSpaced u value.toList).take 240).getLast? = some ' ')) := by
  have hwords : ∀ w ∈ words u (strip u value.toList), Word u w := fun w hw => word_of_mem_words hw
  obtain ⟨vs, hvs, htake⟩ := take_spaced hwords 240
  have hlen : ((singleSpaced u value.toList).take 240).length ≤ 240 := length_take_le _ _
  by_cases hempty : (singleSpaced u value.toList).take 240 = []
  · exact .inl (by simp [cleanName, hempty])
  refine .inr ⟨vs, hvs, ?_, ?_⟩
  · rintro rfl
    rcases htake with htake | ⟨hne, -⟩
    · exact hempty (by simpa [singleSpaced] using htake)
    · exact hne rfl
  · rcases htake with htake | ⟨-, htake⟩
    · have htext : (singleSpaced u value.toList).take 240 = spaced vs := htake
      rw [htext] at hlen hempty
      exact ⟨hlen, .inl (by simp [cleanName, htext, hempty])⟩
    · have htext : (singleSpaced u value.toList).take 240 = spaced vs ++ [' '] := htake
      rw [htext] at hlen
      rw [length_append] at hlen
      refine ⟨by omega, .inr ⟨by simp [cleanName, htext], by simp [htext]⟩⟩

variable (hspace : u.isSpace ' ' = true)

include hspace

theorem singleSpaced_blank (h : ∀ w ∈ ws, Word u w) (hne : ws ≠ []) :
    singleSpaced u (spaced ws ++ [' ']) = spaced ws := by
  obtain ⟨w, rest, rfl⟩ := exists_cons_of_ne_nil hne
  have hfirst := spaced_ne_nil rest (h w mem_cons_self).1
  rw [singleSpaced, strip_append_blank hspace (spaced_head? h) hfirst, strip_spaced h, words_spaced h hspace]

theorem settled_spaced (h : ∀ w ∈ ws, Word u w) (hne : ws ≠ [])
    (hshort : (spaced ws).length ≤ 240) : Settled u (String.ofList (spaced ws)) := by
  obtain ⟨w, rest, rfl⟩ := exists_cons_of_ne_nil hne
  exact ⟨by simpa using spaced_ne_nil rest (h w mem_cons_self).1,
    by rw [String.toList_ofList, singleSpaced, strip_spaced h, words_spaced h hspace], by simpa using hshort⟩

variable {fallback value : String}

/-- A text that is not cut at a blank has been cleaned for good. -/
theorem settled_cleanName (hcut : ((singleSpaced u value.toList).take 240).getLast? ≠ some ' ')
    (hfallback : Settled u fallback) : Settled u (cleanName u value fallback) := by
  rcases cleanName_cases value fallback with hname | ⟨ws, hws, hne, hlen, hname | ⟨-, hlast⟩⟩
  · rw [hname]
    exact hfallback
  · rw [hname]
    exact settled_spaced hspace hws hne hlen
  · exact absurd hlast hcut

/-- A text that is cleaned twice has been cleaned for good. -/
theorem settled_cleanName_twice (hfallback : Settled u fallback) :
    Settled u (cleanName u (cleanName u value fallback) fallback') := by
  rcases cleanName_cases value fallback with hname | ⟨ws, hws, hne, hlen, hname | ⟨hname, -⟩⟩
  · rw [hname, cleanName_of_settled hfallback]
    exact hfallback
  · have hsettled := settled_spaced hspace hws hne hlen
    rw [hname, cleanName_of_settled hsettled]
    exact hsettled
  · have hsettled := settled_spaced hspace hws hne hlen
    have hagain : cleanName u (String.ofList (spaced ws ++ [' '])) fallback' = String.ofList (spaced ws) := by
      have hnonempty := hsettled.nonempty
      rw [String.toList_ofList] at hnonempty
      simp [cleanName, String.toList_ofList, singleSpaced_blank hspace hws hne,
        take_of_length_le hlen, if_neg hnonempty]
    rw [hname, hagain]
    exact hsettled

end Names

theorem letters_visible (hacc : ∀ c ∈ acc, 65 ≤ c.toNat ∧ c.toNat < 91) :
    ∀ c ∈ letters fuel n acc, 65 ≤ c.toNat ∧ c.toNat < 91 := by
  induction fuel generalizing n acc with
  | zero => exact hacc
  | succ fuel ih =>
    rw [letters]
    split
    · exact hacc
    apply ih
    intro c hc
    rcases mem_cons.mp hc with rfl | hc
    · have hvalid : Nat.isValidChar (65 + (n - 1) % 26) := by
        left
        omega
      have hcode : (Char.ofNat (65 + (n - 1) % 26)).toNat = 65 + (n - 1) % 26 := by
        rw [Char.ofNat, dif_pos hvalid]
        rfl
      omega
    · exact hacc c hc

theorem letters_ne_nil (h : acc ≠ [] ∨ (0 < fuel ∧ 0 < n)) : letters fuel n acc ≠ [] := by
  induction fuel generalizing n acc with
  | zero =>
    rcases h with h | h
    · exact h
    · omega
  | succ fuel ih =>
    rw [letters]
    split
    · rename_i hzero
      rcases h with h | h
      · exact h
      · omega
    · exact ih (.inl (cons_ne_nil _ _))

theorem letters_length (acc : List Char) (h : n < 26 ^ k) : (letters fuel n acc).length ≤ acc.length + k := by
  induction fuel generalizing n k acc with
  | zero => simp [letters]
  | succ fuel ih =>
    rw [letters]
    split
    · omega
    cases k with
    | zero =>
      rw [pow_zero] at h
      omega
    | succ k =>
      have hnext : (n - 1) / 26 < 26 ^ k := by
        rw [pow_succ] at h
        omega
      have hlen := ih (Char.ofNat (65 + (n - 1) % 26) :: acc) hnext
      rw [length_cons] at hlen
      omega

/-- The name of a column that has none of its own. -/
def defaultName (position : Nat) : String :=
  "Column " ++ String.ofList (letters position position [])

theorem settled_defaultName (law : u.Printable) (hspace : u.isSpace ' ' = true)
    (hlow : 1 ≤ position) (hhigh : position ≤ 18278) : Settled u (defaultName position) := by
  have hletters : Word u (letters position position []) := by
    refine ⟨letters_ne_nil (.inr ⟨hlow, hlow⟩), ?_⟩
    intro c hc
    have hcode := letters_visible (by simp) c hc
    exact law.isSpace_ascii c (by omega) (by omega)
  have hcolumn : Word u "Column".toList := by
    refine ⟨by decide, ?_⟩
    intro c hc
    have hcode : ∀ c ∈ "Column".toList, 33 ≤ c.toNat ∧ c.toNat < 127 := by simp
    exact law.isSpace_ascii c (hcode c hc).1 (hcode c hc).2
  have hname : defaultName position =
      String.ofList (spaced ["Column".toList, letters position position []]) := by
    apply String.toList_inj.mp
    simp only [defaultName, spaced_cons_cons, spaced_singleton, String.toList_append, String.toList_ofList]
    rfl
  have hlen : (letters position position []).length ≤ 4 := by
    have hbound : position < 26 ^ 4 := by omega
    simpa using letters_length [] hbound
  rw [hname]
  refine settled_spaced hspace (by simpa using ⟨hcolumn, hletters⟩) (by simp) ?_
  have hword : "Column".toList.length = 6 := by decide
  rw [spaced_cons_cons, spaced_singleton, length_append, length_cons]
  omega

section Columns

variable {u : Unicode}

/-- A key that is stripped already. -/
theorem keyOf_of_stripped {key : String} (hne : key ≠ "") (h : strip u key.toList = key.toList)
    (drawn : Id) : keyOf u (some key) drawn = key := by
  simp [keyOf, hne, h]

theorem strip_keyOf (given : Option String) (drawn : Id) :
    strip u (keyOf u given drawn).toList = (keyOf u given drawn).toList := by
  simp [keyOf]

theorem positionOf_nat {position : Nat} (h : 1 ≤ position) (index : Nat) :
    positionOf position index = position := by
  simp only [positionOf, Int.natCast_eq_zero]
  rw [if_neg (by omega)]

/-- The column that `_normalize_columns` makes of an item. -/
def columnOf (u : Unicode) (ids : Nat → Id) (item : ColumnInput × Nat) : Column :=
  let position := (positionOf item.1.position item.2).toNat
  { columnKey := keyOf u item.1.columnKey (ids item.2)
    name := cleanName u item.1.name (defaultName position)
    position := position
    dataType := dataTypeOf item.1.dataType }

structure ColumnOk (u : Unicode) (column : Column) : Prop where
  key : column.columnKey ≠ ""
  stripped : strip u column.columnKey.toList = column.columnKey.toList
  brief : column.columnKey.length ≤ 36
  low : 1 ≤ column.position
  high : column.position ≤ 18278
  typed : column.dataType ≠ ""
  short : column.dataType.toList.take 30 = column.dataType.toList

/-- Columns under keys and at positions of their own. -/
structure ColumnsDistinct (u : Unicode) (columns : List Column) : Prop where
  each : ∀ c ∈ columns, ColumnOk u c
  keys : (columns.map Column.columnKey).Nodup
  positions : (columns.map Column.position).Nodup

theorem dataTypeOf_ne_empty (given : String) : dataTypeOf given ≠ "" := by
  have hne : (if given = "" then "text" else given) ≠ "" := by
    split
    · decide
    · assumption
  intro hcut
  have hnil : (if given = "" then "text" else given).toList.take 30 = [] := by
    simpa [dataTypeOf] using congrArg String.toList hcut
  rw [take_eq_nil_iff] at hnil
  rcases hnil with hnil | hnil
  · cases hnil
  · exact hne (String.toList_eq_nil_iff.mp hnil)

theorem dataTypeOf_stored {text : String} (hne : text ≠ "")
    (hshort : text.toList.take 30 = text.toList) : dataTypeOf text = text := by
  rw [dataTypeOf, if_neg hne, hshort, String.ofList_toList]

variable {ids : Nat → Id}

variable {inputs : List ColumnInput}

theorem addColumn_ok {out : List Column}
    (hdone : ColumnsDistinct u done) (h : addColumn u ids done item = .ok out) :
    out = done ++ [columnOf u ids item] ∧ ColumnsDistinct u out := by
  simp only [addColumn] at h
  split at h
  · cases h
  rename_i hok
  obtain ⟨name, hname, rfl⟩ := map_eq_ok.mp h
  simp only [not_or, not_lt] at hok
  obtain ⟨hkey, hbrief, hfresh, hplace, hlow⟩ := hok
  simp only [columnName] at hname
  split at hname
  · cases hname
  rename_i hrange
  cases hname
  simp only [not_or, not_lt] at hrange
  refine ⟨rfl, ?_, ?_, ?_⟩
  · intro c hc
    rcases mem_append.mp hc with hc | hc
    · exact hdone.each c hc
    · obtain rfl := mem_singleton.mp hc
      exact ⟨hkey, strip_keyOf _ _, hbrief, hrange.1, hrange.2, dataTypeOf_ne_empty _, by simp [dataTypeOf]⟩
  · rw [map_append, nodup_append_comm]
    exact nodup_cons.mpr ⟨hfresh, hdone.keys⟩
  · rw [map_append, nodup_append_comm]
    exact nodup_cons.mpr ⟨hplace, hdone.positions⟩

theorem addColumn_of_ok (hok : ColumnOk u (columnOf u ids item))
    (hkey : (columnOf u ids item).columnKey ∉ done.map Column.columnKey)
    (hposition : (columnOf u ids item).position ∉ done.map Column.position) :
    addColumn u ids done item = .ok (done ++ [columnOf u ids item]) := by
  have hlow : 1 ≤ positionOf item.1.position item.2 := by
    have hnat : 1 ≤ (positionOf item.1.position item.2).toNat := hok.low
    omega
  have hrefused : ¬ (keyOf u item.1.columnKey (ids item.2) = "" ∨
      36 < (keyOf u item.1.columnKey (ids item.2)).length ∨
      keyOf u item.1.columnKey (ids item.2) ∈ done.map Column.columnKey ∨
      (positionOf item.1.position item.2).toNat ∈ done.map Column.position ∨
      positionOf item.1.position item.2 < 1) := by
    simp only [not_or, not_lt]
    exact ⟨hok.key, hok.brief, hkey, hposition, hlow⟩
  have hname : columnName (positionOf item.1.position item.2).toNat =
      .ok (String.ofList (letters (positionOf item.1.position item.2).toNat
        (positionOf item.1.position item.2).toNat [])) := by
    have hlow' := hok.low
    have hhigh := hok.high
    simp only [columnOf] at hlow' hhigh
    rw [columnName, if_neg (by omega)]
  simp only [addColumn, if_neg hrefused, hname]
  rfl

/-- Items of distinct keys and positions are all taken. -/
theorem foldlM_distinct {α β κ : Type} {step : List β → α → Except Fault (List β)} {g : α → β}
    {key : β → κ} {position : β → Nat} {ok : α → Prop} {items : List α} {done : List β}
    (hstep : ∀ done item, ok item → key (g item) ∉ done.map key →
      position (g item) ∉ done.map position → step done item = .ok (done ++ [g item]))
    (hitems : ∀ item ∈ items, ok item)
    (hkeys : (done.map key ++ items.map fun item => key (g item)).Nodup)
    (hpositions : (done.map position ++ items.map fun item => position (g item)).Nodup) :
    items.foldlM step done = .ok (done ++ items.map g) := by
  induction items generalizing done with
  | nil => simp [pure, Except.pure]
  | cons item rest ih =>
    rw [forall_mem_cons] at hitems
    rw [map_cons] at hkeys hpositions
    have hkey : key (g item) ∉ done.map key :=
      fun hmem => (nodup_append.mp hkeys).2.2 _ hmem _ mem_cons_self rfl
    have hposition : position (g item) ∉ done.map position :=
      fun hmem => (nodup_append.mp hpositions).2.2 _ hmem _ mem_cons_self rfl
    rw [append_cons] at hkeys hpositions
    have hrest : rest.foldlM step (done ++ [g item]) = .ok (done ++ [g item] ++ rest.map g) :=
      ih hitems.2 (by simpa using hkeys) (by simpa using hpositions)
    rw [foldlM_cons, hstep done item hitems.1 hkey hposition]
    rw [append_assoc] at hrest
    exact hrest

structure ColumnsOk (u : Unicode) (columns : List Column) : Prop extends ColumnsDistinct u columns where
  order : columns.Pairwise fun a b => a.position < b.position

theorem sort_order {α : Type} {position : α → Nat} {items : List α} (h : (items.map position).Nodup) :
    (items.insertionSort fun a b => position a ≤ position b).Pairwise
      fun a b => position a < position b := by
  have hle : (items.insertionSort fun a b => position a ≤ position b).Pairwise
      fun a b => position a ≤ position b := by
    have htotal : Std.Total fun a b : α => position a ≤ position b := ⟨fun a b => le_total _ _⟩
    have htrans : IsTrans α fun a b => position a ≤ position b := ⟨fun _ _ _ => le_trans⟩
    exact pairwise_insertionSort _ items
  have hperm := (perm_insertionSort (fun a b => position a ≤ position b) items).map position
  have hne := pairwise_map.mp (hperm.nodup_iff.mpr h)
  exact (hle.and hne).imp fun hab => lt_of_le_of_ne hab.1 hab.2

theorem normalizeColumns_ok {columns : List Column}
    (h : normalizeColumns u ids inputs = .ok columns) : ColumnsOk u columns ∧
      columns = ((inputs.zipIdx 1).map (columnOf u ids)).insertionSort
        fun a b => a.position ≤ b.position := by
  simp only [normalizeColumns] at h
  split at h
  · cases h
  obtain ⟨done, hdone, rfl⟩ := map_eq_ok.mp h
  have hempty : ColumnsDistinct u [] := ⟨by simp, by simp, by simp⟩
  obtain ⟨rfl, hdistinct⟩ :=
    foldlM_snoc (P := ColumnsDistinct u) (g := columnOf u ids)
      (fun _ _ _ hd ho => addColumn_ok hd ho) hempty hdone
  have hperm := perm_insertionSort (fun a b : Column => a.position ≤ b.position)
    ([] ++ (inputs.zipIdx 1).map (columnOf u ids))
  refine ⟨⟨⟨?_, ?_, ?_⟩, sort_order hdistinct.positions⟩, by rw [nil_append]⟩
  · intro c hc
    exact hdistinct.each c (hperm.mem_iff.mp hc)
  · exact (hperm.map _).nodup_iff.mpr hdistinct.keys
  · exact (hperm.map _).nodup_iff.mpr hdistinct.positions

/-- The columns that `_normalize_columns` takes. -/
structure Acceptable (u : Unicode) (ids : Nat → Id) (inputs : List ColumnInput) : Prop where
  nonempty : inputs ≠ []
  few : inputs.length ≤ maxSheetColumns
  distinct : ColumnsDistinct u ((inputs.zipIdx 1).map (columnOf u ids))

theorem normalizeColumns_iff :
    (∃ columns, normalizeColumns u ids inputs = .ok columns) ↔ Acceptable u ids inputs := by
  constructor
  · rintro ⟨columns, h⟩
    have hsorted := normalizeColumns_ok h
    have hperm := perm_insertionSort (fun a b : Column => a.position ≤ b.position)
      ((inputs.zipIdx 1).map (columnOf u ids))
    rw [← hsorted.2] at hperm
    have hdistinct := hsorted.1.toColumnsDistinct
    simp only [normalizeColumns] at h
    split at h
    · cases h
    rename_i hcount
    simp only [not_or, not_lt] at hcount
    refine ⟨hcount.1, hcount.2, ?_, ?_, ?_⟩
    · intro c hc
      exact hdistinct.each c (hperm.mem_iff.mpr hc)
    · exact (hperm.map _).nodup_iff.mp hdistinct.keys
    · exact (hperm.map _).nodup_iff.mp hdistinct.positions
  · intro h
    have hfold : (inputs.zipIdx 1).foldlM (addColumn u ids) [] =
        .ok ([] ++ (inputs.zipIdx 1).map (columnOf u ids)) :=
      foldlM_distinct (fun _ _ hok hkey hposition => addColumn_of_ok hok hkey hposition)
        (fun item hitem => h.distinct.each _ (mem_map_of_mem hitem))
        (by simpa [Function.comp_def] using h.distinct.keys)
        (by simpa [Function.comp_def] using h.distinct.positions)
    have hcount : ¬ (inputs = [] ∨ maxSheetColumns < inputs.length) := by
      simp only [not_or, not_lt]
      exact ⟨h.nonempty, h.few⟩
    rw [normalizeColumns, if_neg hcount, hfold]
    exact ⟨_, rfl⟩

/-- A column as the next revision cleans its name again. -/
def recleaned (u : Unicode) (column : Column) : Column :=
  { column with name := cleanName u column.name (defaultName column.position) }

/-- Columns read back and saved again change in their names at most. -/
theorem normalizeColumns_columnInput {stored columns : List Column} (hstored : ColumnsOk u stored)
    (h : normalizeColumns u ids (stored.map columnInput) = .ok columns) :
    columns = stored.map (recleaned u) := by
  have hsame : ((stored.map columnInput).zipIdx 1).map (columnOf u ids) = stored.map (recleaned u) := by
    apply map_zipIdx
    intro c hc i
    have hok := hstored.each c hc
    simp [columnOf, columnInput, recleaned, positionOf_nat hok.low, Int.toNat_natCast,
      keyOf_of_stripped hok.key hok.stripped, dataTypeOf_stored hok.typed hok.short]
  rw [(normalizeColumns_ok h).2, hsame]
  apply Pairwise.insertionSort_eq
  rw [pairwise_map]
  exact hstored.order.imp fun hab => hab.le

end Columns

section Rows

variable {u : Unicode}

/-- The row that `_normalize_rows` makes of an item. -/
def rowOfInput (u : Unicode) (ids : Nat → Id) (item : RowInput × Nat) : NormalRow where
  rowKey := keyOf u item.1.rowKey (ids item.2)
  position := (positionOf item.1.position item.2).toNat
  values := item.1.values

structure RowOk (u : Unicode) (row : NormalRow) : Prop where
  stripped : strip u row.rowKey.toList = row.rowKey.toList
  low : 1 ≤ row.position

structure RowsDistinct (u : Unicode) (rows : List NormalRow) : Prop where
  each : ∀ r ∈ rows, RowOk u r
  keys : (rows.map NormalRow.rowKey).Nodup
  positions : (rows.map NormalRow.position).Nodup

structure RowsOk (u : Unicode) (rows : List NormalRow) : Prop extends RowsDistinct u rows where
  order : rows.Pairwise fun a b => a.position < b.position

theorem addRow_ok (hdone : RowsDistinct u done) (h : addRow u ids columnKeys done item = .ok out) :
    out = done ++ [rowOfInput u ids item] ∧ RowsDistinct u out := by
  simp only [addRow] at h
  split at h
  · cases h
  rename_i hok
  split at h
  · cases h
  cases h
  simp only [not_or, not_lt] at hok
  obtain ⟨hfresh, hplace, hlow⟩ := hok
  refine ⟨rfl, ?_, ?_, ?_⟩
  · intro r hr
    rcases mem_append.mp hr with hr | hr
    · exact hdone.each r hr
    obtain rfl := mem_singleton.mp hr
    refine ⟨strip_keyOf _ _, ?_⟩
    show 1 ≤ (positionOf item.1.position item.2).toNat
    omega
  · rw [map_append, nodup_append_comm]
    exact nodup_cons.mpr ⟨hfresh, hdone.keys⟩
  · rw [map_append, nodup_append_comm]
    exact nodup_cons.mpr ⟨hplace, hdone.positions⟩

theorem addRow_of_ok (hok : RowOk u (rowOfInput u ids item)) (hknown : ∀ v ∈ item.1.values, v.1 ∈ columnKeys)
    (hkey : (rowOfInput u ids item).rowKey ∉ done.map NormalRow.rowKey)
    (hposition : (rowOfInput u ids item).position ∉ done.map NormalRow.position) :
    addRow u ids columnKeys done item = .ok (done ++ [rowOfInput u ids item]) := by
  have hlow : 1 ≤ positionOf item.1.position item.2 := by
    have hnat : 1 ≤ (positionOf item.1.position item.2).toNat := hok.low
    omega
  have hrefused : ¬ (keyOf u item.1.rowKey (ids item.2) ∈ done.map NormalRow.rowKey ∨
      (positionOf item.1.position item.2).toNat ∈ done.map NormalRow.position ∨
      positionOf item.1.position item.2 < 1) := by
    simp only [not_or, not_lt]
    exact ⟨hkey, hposition, hlow⟩
  have hunknown : ¬ (item.1.values.any fun v => decide (v.1 ∉ columnKeys)) = true := by
    simpa using hknown
  simp only [addRow, if_neg hrefused, if_neg hunknown]
  rfl

theorem normalizeRows_ok (h : normalizeRows u ids inputs columns = .ok rows) : RowsOk u rows ∧
      rows = ((inputs.zipIdx 1).map (rowOfInput u ids)).insertionSort
        fun a b => a.position ≤ b.position := by
  simp only [normalizeRows] at h
  split at h
  · cases h
  obtain ⟨done, hdone, rfl⟩ := map_eq_ok.mp h
  have hempty : RowsDistinct u [] := ⟨by simp, by simp, by simp⟩
  obtain ⟨rfl, hdistinct⟩ := foldlM_snoc (P := RowsDistinct u) (g := rowOfInput u ids)
    (fun _ _ _ hd ho => addRow_ok hd ho) hempty hdone
  have hperm := perm_insertionSort (fun a b : NormalRow => a.position ≤ b.position)
    ([] ++ (inputs.zipIdx 1).map (rowOfInput u ids))
  refine ⟨⟨⟨?_, ?_, ?_⟩, sort_order hdistinct.positions⟩, by rw [nil_append]⟩
  · intro r hr
    exact hdistinct.each r (hperm.mem_iff.mp hr)
  · exact (hperm.map _).nodup_iff.mpr hdistinct.keys
  · exact (hperm.map _).nodup_iff.mpr hdistinct.positions

/-- Rows read back and saved again, with rows at later positions after them. -/
theorem normalizeRows_rowInput {extra : List RowInput} (hstored : RowsOk u stored)
    (hnamed : ∀ r ∈ stored, r.rowKey ≠ "")
    (hextra : (((extra.zipIdx (1 + stored.length)).map (rowOfInput u ids)).Pairwise
      fun a b => a.position < b.position))
    (hafter : ∀ r ∈ stored, ∀ e ∈ (extra.zipIdx (1 + stored.length)).map (rowOfInput u ids),
      r.position < e.position)
    (h : normalizeRows u ids (stored.map rowInput ++ extra) columns = .ok rows) :
    rows = stored ++ (extra.zipIdx (1 + stored.length)).map (rowOfInput u ids) := by
  have hsame : ((stored.map rowInput).zipIdx 1).map (rowOfInput u ids) = stored := by
    have hid : ((stored.map rowInput).zipIdx 1).map (rowOfInput u ids) = stored.map id := by
      apply map_zipIdx
      intro r hr i
      have hok := hstored.each r hr
      simp [rowOfInput, rowInput, positionOf_nat hok.low, Int.toNat_natCast,
        keyOf_of_stripped (hnamed r hr) hok.stripped, id]
    rwa [map_id] at hid
  rw [(normalizeRows_ok h).2, zipIdx_append, map_append, hsame, length_map]
  apply Pairwise.insertionSort_eq
  rw [pairwise_append]
  refine ⟨hstored.order.imp fun hab => hab.le, hextra.imp fun hab => hab.le, ?_⟩
  intro r hr e he
  exact (hafter r hr e he).le

end Rows

end FlowHub.Sheets
