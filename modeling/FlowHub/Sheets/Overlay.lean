import FlowHub.Sheets.RoundTrip

namespace FlowHub.Sheets

open Python Txn List

variable {u : Unicode} {engine : Engine}

theorem lookup_cons (v : String × Option String) (rest : List (String × Option String))
    (key : String) : (v :: rest).lookup key = if key = v.1 then some v.2 else rest.lookup key := by
  obtain ⟨k, value⟩ := v
  by_cases hkey : key = k
  · simp [hkey]
  · have hne : (key == k) = false := by simpa using hkey
    simp [List.lookup_cons, hne, hkey]

@[simp] theorem lookup_setValue (key other : String) (value : Option String)
    (values : List (String × Option String)) : (setValue key value values).lookup other =
      if other = key then some value else values.lookup other := by
  induction values with
  | nil => rw [setValue, lookup_cons]
  | cons v rest ih =>
    rw [setValue]
    by_cases hkey : v.1 = key
    · rw [if_pos hkey, lookup_cons, lookup_cons, hkey]
      by_cases hother : other = key
      · simp [hother]
      · simp [hother]
    · rw [if_neg hkey, lookup_cons, lookup_cons, ih]
      by_cases hother : other = v.1
      · have hne : other ≠ key := by
          rintro rfl
          exact hkey hother.symm
        simp [hother, hkey]
      · simp [hother]

/-- The raw value of a cell, `none` where the row holds none for the column. -/
def rawIn (rows : List NormalRow) (rowKey columnKey : String) : Option (Option String) :=
  (Table.get NormalRow.rowKey rows rowKey).bind fun row => row.values.lookup columnKey

/-- The identities of rows, with where they stand. -/
def places (rows : List NormalRow) : List (String × Nat) :=
  rows.map fun row => (row.rowKey, row.position)

@[simp] theorem places_set (rows : List NormalRow) (rowKey : String) (f : NormalRow → NormalRow)
    (hf : ∀ r, (f r).rowKey = r.rowKey ∧ (f r).position = r.position) :
    places (Table.set NormalRow.rowKey rows rowKey f) = places rows := by
  simp only [places, Table.set, map_map]
  refine map_congr_left ?_
  intro row _
  by_cases hrow : row.rowKey = rowKey
  · simp [hrow, hf]
  · simp [hrow]

theorem rawIn_set (rows : List NormalRow) (key column : String) (value : Option String)
    (rowKey columnKey : String) :
    rawIn (Table.set NormalRow.rowKey rows key fun row =>
        { row with values := setValue column value row.values }) rowKey columnKey =
      if rowKey = key then (Table.get NormalRow.rowKey rows key).bind fun row =>
        if columnKey = column then some value else row.values.lookup columnKey
      else rawIn rows rowKey columnKey := by
  have hkey : ∀ row : NormalRow,
      NormalRow.rowKey { row with values := setValue column value row.values } = row.rowKey :=
    fun _ => rfl
  rw [rawIn, Table.get_set hkey]
  by_cases hrow : rowKey = key
  · rw [if_pos hrow, if_pos hrow, Option.bind_map]
    simp
  · rw [if_neg hrow, if_neg hrow]
    rfl

def changeOf (changes : List CellPatch) (rowKey columnKey : String) : Option CellPatch :=
  changes.find? fun c => decide (c.rowKey = rowKey ∧ c.columnKey = columnKey)

theorem patchCells_unseen (h : patchCells rowKeys columnKeys seen rows changes = .ok out) :
    ∀ c ∈ changes, (c.rowKey, c.columnKey) ∉ seen ∧ c.rowKey ∈ rowKeys := by
  induction changes generalizing seen rows with
  | nil => simp
  | cons change rest ih =>
    simp only [patchCells] at h
    split at h
    · cases h
    rename_i hok
    simp only [not_or, not_not] at hok
    intro c hc
    rcases mem_cons.mp hc with rfl | hc
    · exact ⟨hok.2.2, hok.1⟩
    · obtain ⟨hfresh, hrow⟩ := ih h c hc
      exact ⟨fun hseen => hfresh (mem_cons_of_mem _ hseen), hrow⟩

/-- A patch changes the cells it names and no other, and leaves the rows where they stand. -/
theorem patchCells_ok {rows : List NormalRow} {changes : List CellPatch}
    (hkeys : rowKeys = rows.map NormalRow.rowKey)
    (h : patchCells rowKeys columnKeys seen rows changes = .ok out) :
    places out = places rows ∧ ∀ rowKey columnKey, rawIn out rowKey columnKey =
      match changeOf changes rowKey columnKey with
      | some change => some change.value
      | none => rawIn rows rowKey columnKey := by
  induction changes generalizing seen rows with
  | nil =>
    cases h
    exact ⟨rfl, fun _ _ => rfl⟩
  | cons change rest ih =>
    have hfresh := patchCells_unseen h
    simp only [patchCells] at h
    split at h
    · cases h
    rename_i hok
    simp only [not_or, not_not] at hok
    have hset := places_set rows change.rowKey
      (fun row => { row with values := setValue change.columnKey change.value row.values })
      (fun _ => ⟨rfl, rfl⟩)
    have hplace := congrArg (map Prod.fst) hset
    simp only [places, map_map, Function.comp_def] at hplace
    obtain ⟨hplaces, hcells⟩ := ih (hkeys.trans hplace.symm) h
    refine ⟨hplaces.trans hset, ?_⟩
    intro rowKey columnKey
    rw [hcells]
    by_cases hfirst : change.rowKey = rowKey ∧ change.columnKey = columnKey
    · obtain ⟨rfl, rfl⟩ := hfirst
      have hnone : changeOf rest change.rowKey change.columnKey = none := by
        simp only [changeOf, find?_eq_none, decide_eq_true_eq]
        rintro c hc ⟨hrow, hcolumn⟩
        have hunseen := (patchCells_unseen h c hc).1
        rw [hrow, hcolumn] at hunseen
        exact hunseen mem_cons_self
      have hrow : (Table.get NormalRow.rowKey rows change.rowKey).isSome = true := by
        rw [Option.isSome_iff_ne_none]
        intro habsent
        rw [hkeys] at hok
        obtain ⟨row, hmem, hkey⟩ := mem_map.mp hok.1
        exact Table.get_none.mp habsent row hmem hkey
      obtain ⟨row, hrow⟩ := Option.isSome_iff_exists.mp hrow
      have hhead : changeOf (change :: rest) change.rowKey change.columnKey = some change := by
        simp [changeOf]
      simp [hnone, hhead, rawIn_set, hrow, Option.bind_some]
    · have hrest : changeOf (change :: rest) rowKey columnKey = changeOf rest rowKey columnKey := by
        simp [changeOf, hfirst]
      rw [hrest]
      cases changeOf rest rowKey columnKey with
      | some c => rfl
      | none =>
        simp only [rawIn_set]
        by_cases hrow : rowKey = change.rowKey
        · have hcolumn : columnKey ≠ change.columnKey := by
            rintro rfl
            exact hfirst ⟨hrow.symm, rfl⟩
          subst hrow
          simp [hcolumn, rawIn]
        · simp [hrow]

namespace Revision

/-- What a saved revision keeps to. -/
structure Ok (u : Unicode) (revision : Revision) : Prop where
  columns : ColumnsOk u revision.columns
  rows : RowsOk u revision.normalRows

/-- A revision that the next one reads back as it is. -/
structure Stable (u : Unicode) (revision : Revision) : Prop extends Ok u revision where
  named : ∀ row ∈ revision.normalRows, row.rowKey ≠ ""
  settled : ∀ column ∈ revision.columns, Settled u column.name

/-- Each cell holds what the engine makes of the raw values of the whole revision. -/
def Calculated (u : Unicode) (engine : Engine) (revision : Revision) : Prop :=
  ∃ results, engine (sheetValues revision.columns revision.normalRows) = .ok results ∧
    revision.rows = revision.normalRows.map (rowOf u results revision.columns)

/-- The identities of columns, with where they stand and what they hold. -/
def frame (columns : List Column) : List (String × Nat × String) :=
  columns.map fun c => (c.columnKey, c.position, c.dataType)

/-- A revision and the one a patch makes of it. -/
structure Overlaid (u : Unicode) (engine : Engine) (revision : Revision) (changes : List CellPatch)
    (columnNames : List (String × String)) (next : Revision) : Prop where
  columns : frame next.columns = frame revision.columns
  kept : ∀ column ∈ revision.columns, columnNames.lookup column.columnKey = none → column ∈ next.columns
  rows : places next.normalRows = places revision.normalRows
  cells : ∀ rowKey columnKey, rawIn next.normalRows rowKey columnKey =
    match changeOf changes rowKey columnKey with
    | some change => some change.value
    | none => rawIn revision.normalRows rowKey columnKey
  calculated : next.Calculated u engine

/-- A revision and the one that appends empty rows to it. -/
structure Extended (u : Unicode) (engine : Engine) (revision : Revision) (count : Int)
    (next : Revision) : Prop where
  columns : next.columns = revision.columns
  rows : ∃ more, next.normalRows = revision.normalRows ++ more ∧ (more.length : Int) = count ∧
    (∀ row ∈ more, row.values = []) ∧
    more.map NormalRow.position = (List.range count.toNat).map (lastPosition revision + · + 1)
  calculated : next.Calculated u engine

end Revision

theorem valuesOf_rowOf (results : List (String × FormulaResult)) (columns : List Column)
    (row : NormalRow) : Revision.valuesOf (rowOf u results columns row) = row.values := by
  simp only [Revision.valuesOf, rowOf, map_map]
  have hid : ((fun c : Cell => (c.columnKey, c.rawValue)) ∘ cellOf u results columns row.position) = id := rfl
  rw [hid, map_id]

/-- What a request is saved as. -/
theorem buildRevision_ok {draws : Draws} {version : Nat} {columns : List ColumnInput}
    {rows : List RowInput} {next : Revision}
    (h : buildRevision u engine draws version columns rows = .ok next) :
    next.version = version ∧ normalizeColumns u draws.columns columns = .ok next.columns ∧
    normalizeRows u draws.rows rows next.columns = .ok next.normalRows ∧
    next.Calculated u engine := by
  simp only [buildRevision] at h
  obtain ⟨normalColumns, hcolumns, h⟩ := bind_eq_ok.mp h
  obtain ⟨normalRows, hrows, h⟩ := bind_eq_ok.mp h
  obtain ⟨results, hresults, h⟩ := bind_eq_ok.mp h
  cases h
  have hnormal : (normalRows.map (rowOf u results normalColumns)).map (fun row : Row =>
      ({ rowKey := row.rowKey, position := row.position, values := Revision.valuesOf row } :
        NormalRow)) = normalRows := by
    rw [map_map, map_congr_left (g := id), map_id]
    intro row _
    simp only [Function.comp_apply, valuesOf_rowOf]
    rfl
  refine ⟨rfl, hcolumns, ?_, results, ?_, ?_⟩
  · simp [Revision.normalRows, hnormal, hrows]
  · simp [Revision.normalRows, hnormal, hresults]
  · simp [Revision.normalRows, hnormal]

theorem buildRevision_sound {next : Revision}
    (h : buildRevision u engine draws version columns rows = .ok next) : next.Ok u := by
  obtain ⟨-, hcolumns, hrows, -⟩ := buildRevision_ok h
  exact ⟨(normalizeColumns_ok hcolumns).1, (normalizeRows_ok hrows).1⟩

theorem places_ok {rows : List NormalRow} (hsame : places rows' = places rows)
    (h : RowsOk u rows) : RowsOk u rows' := by
  have hkeys := congrArg (map Prod.fst) hsame
  have hpositions := congrArg (map Prod.snd) hsame
  simp only [places, map_map, Function.comp_def] at hkeys hpositions
  refine ⟨⟨?_, hkeys ▸ h.keys, hpositions ▸ h.positions⟩, ?_⟩
  · intro row hrow
    have hmem : (row.rowKey, row.position) ∈ places rows := by
      rw [← hsame]
      exact mem_map_of_mem (f := fun r : NormalRow => (r.rowKey, r.position)) hrow
    obtain ⟨old, hold, heq⟩ := mem_map.mp hmem
    obtain ⟨hkey, hposition⟩ := Prod.mk.inj heq
    have hok := h.each old hold
    exact ⟨by rw [← hkey, hok.stripped], by rw [← hposition]; exact hok.low⟩
  · have horder := h.order
    rw [← pairwise_map (f := NormalRow.position)] at horder ⊢
    rwa [hpositions]

theorem places_named {rows : List NormalRow} (hsame : places rows' = places rows)
    (h : ∀ row ∈ rows, row.rowKey ≠ "") : ∀ row ∈ rows', row.rowKey ≠ "" := by
  intro row hrow
  have hmem : (row.rowKey, row.position) ∈ places rows := by
    rw [← hsame]
    exact mem_map_of_mem (f := fun r : NormalRow => (r.rowKey, r.position)) hrow
  obtain ⟨old, hold, heq⟩ := mem_map.mp hmem
  rw [← (Prod.mk.inj heq).1]
  exact h old hold

@[simp] theorem frame_map (columns : List Column)
    (hf : ∀ c, (f c).columnKey = c.columnKey ∧ (f c).position = c.position ∧
      (f c).dataType = c.dataType) : Revision.frame (columns.map f) = Revision.frame columns := by
  simp only [Revision.frame, map_map]
  refine map_congr_left ?_
  intro c _
  simp [hf]

theorem renamed_frame (columnNames : List (String × String)) (column : Column) :
    (renamed u columnNames column).columnKey = column.columnKey ∧
    (renamed u columnNames column).position = column.position ∧
    (renamed u columnNames column).dataType = column.dataType := by
  cases hname : columnNames.lookup column.columnKey with
  | none => simp [renamed, hname]
  | some name => simp [renamed, hname]

theorem columnsOk_map {columns : List Column} (h : ColumnsOk u columns)
    (hf : ∀ c, (f c).columnKey = c.columnKey ∧ (f c).position = c.position ∧
      (f c).dataType = c.dataType) : ColumnsOk u (columns.map f) := by
  refine ⟨⟨?_, ?_, ?_⟩, ?_⟩
  · intro c hc
    obtain ⟨old, hold, rfl⟩ := mem_map.mp hc
    obtain ⟨hkey, hposition, htype⟩ := hf old
    have hok := h.each old hold
    exact ⟨hkey ▸ hok.key, by rw [hkey, hok.stripped], hkey ▸ hok.brief, hposition ▸ hok.low,
      hposition ▸ hok.high,
      htype ▸ hok.typed, by rw [htype, hok.short]⟩
  · simpa [Function.comp_def, hf] using h.keys
  · simpa [Function.comp_def, hf] using h.positions
  · simpa [pairwise_map, hf] using h.order

theorem recleaned_of_settled {column : Column} (h : Settled u column.name) : recleaned u column = column := by
  simp [recleaned, cleanName_of_settled h]

section Kept

variable {columnNames : List (String × String)}

/-- A patch is saved as the revision it was made for, overlaid with its changes. -/
theorem patch_overlaid {next : Revision} {changes : List CellPatch} (stable : revision.Stable u)
    (hrequest : patchRequest u revision changes columnNames = .ok (columns, rows))
    (h : buildRevision u engine draws version columns rows = .ok next) :
    next.columns = (revision.columns.map (renamed u columnNames)).map (recleaned u) ∧
    revision.Overlaid u engine changes columnNames next := by
  obtain ⟨-, hcolumns, hrows, hcalculated⟩ := buildRevision_ok h
  simp only [patchRequest] at hrequest
  split at hrequest
  · cases hrequest
  obtain ⟨patched, hpatched, hsame⟩ := bind_eq_ok.mp hrequest
  cases hsame
  have hkeys : revision.rows.map Row.rowKey = revision.normalRows.map NormalRow.rowKey := by
    simp [Revision.normalRows, Function.comp_def]
  obtain ⟨hplaces, hcells⟩ := patchCells_ok hkeys hpatched
  have hnormal : next.columns = (revision.columns.map (renamed u columnNames)).map (recleaned u) :=
    normalizeColumns_columnInput (columnsOk_map stable.columns (renamed_frame columnNames)) hcolumns
  rw [← append_nil (patched.map rowInput)] at hrows
  have hnext : next.normalRows = patched := by
    simpa using normalizeRows_rowInput (places_ok hplaces stable.rows)
      (places_named hplaces stable.named) (by simp) (by simp) hrows
  refine ⟨hnormal, ?_, ?_, ?_, ?_, hcalculated⟩
  · rw [hnormal, frame_map _ (f := recleaned u) fun _ => ⟨rfl, rfl, rfl⟩, frame_map _ (renamed_frame columnNames)]
  · intro column hcolumn hname
    rw [hnormal, map_map]
    refine mem_map.mpr ⟨column, hcolumn, ?_⟩
    have hsame : renamed u columnNames column = column := by
      simp [renamed, hname]
    rw [Function.comp_apply, hsame, recleaned_of_settled (stable.settled column hcolumn)]
  · rw [hnext, hplaces]
  · rw [hnext]
    exact hcells

theorem patch_stable {next : Revision} (hspace : u.isSpace ' ' = true) (stable : revision.Stable u)
    (hrequest : patchRequest u revision changes columnNames = .ok (columns, rows))
    (h : buildRevision u engine draws version columns rows = .ok next) : next.Stable u := by
  obtain ⟨hcolumns, hoverlaid⟩ := patch_overlaid stable hrequest h
  refine ⟨buildRevision_sound h, places_named hoverlaid.rows stable.named, ?_⟩
  intro column hcolumn
  rw [hcolumns, map_map] at hcolumn
  obtain ⟨old, hold, rfl⟩ := mem_map.mp hcolumn
  have hsettled := stable.settled old hold
  cases hname : columnNames.lookup old.columnKey with
  | none =>
    have hsame : renamed u columnNames old = old := by
      simp [renamed, hname]
    rw [Function.comp_apply, hsame, recleaned_of_settled hsettled]
    exact hsettled
  | some replacement =>
    simp only [Function.comp_apply, renamed, hname, recleaned]
    exact settled_cleanName_twice hspace hsettled

theorem position_le_last (h : row ∈ revision.normalRows) : row.position ≤ lastPosition revision := by
  have hmem : row.position ∈ revision.rows.map Row.position := by
    obtain ⟨held, hheld, rfl⟩ := mem_map.mp h
    exact mem_map_of_mem hheld
  have hbound : ∀ positions : List Nat, ∀ p ∈ positions, p ≤ positions.foldr max 0 := by
    intro positions
    induction positions with
    | nil => simp
    | cons a rest ih =>
      intro p hp
      rw [foldr_cons]
      rcases mem_cons.mp hp with rfl | hp
      · exact le_max_left _ _
      · exact (ih p hp).trans (le_max_right _ _)
  exact hbound _ _ hmem

theorem keyOf_ne_empty (h : strip u key.toList ≠ []) (drawn : Id) : keyOf u (some key) drawn ≠ "" := by
  have hne : key ≠ "" := by
    rintro rfl
    exact h (by simp [strip])
  intro hkey
  apply h
  simpa [keyOf, hne] using congrArg String.toList hkey

/-- The rows that an append adds. -/
theorem appended_rows (ids : Nat → Id) (draws : Draws) (last count k : Nat) :
    ((appendedRows draws last count).zipIdx k).map (rowOfInput u ids) =
      ((range count).zipIdx k).map fun item =>
        { rowKey := keyOf u (some (draws.appended item.1)) (ids item.2)
          position := last + item.1 + 1
          values := [] } := by
  rw [appendedRows, zipIdx_map, map_map]
  refine map_congr_left ?_
  intro item _
  have hlow : 1 ≤ last + (item.1 + 1) := by omega
  have hposition := positionOf_nat hlow item.2
  simp only [Function.comp_apply, rowOfInput, Prod.map, id]
  rw [hposition, Int.toNat_natCast]
  rfl

theorem append_extended {next : Revision} {count : Int} (stable : revision.Stable u)
    (hrequest : appendRequest draws revision count = .ok (columns, rows))
    (h : buildRevision u engine draws version columns rows = .ok next) :
    revision.Extended u engine count next ∧
      ((∀ i, strip u (draws.appended i).toList ≠ []) → next.Stable u) := by
  obtain ⟨-, hcolumns, hrows, hcalculated⟩ := buildRevision_ok h
  simp only [appendRequest] at hrequest
  split at hrequest
  · cases hrequest
  rename_i hcount
  cases hrequest
  have hcolumns' : next.columns = revision.columns := by
    rw [normalizeColumns_columnInput stable.columns hcolumns]
    conv_rhs => rw [← map_id revision.columns]
    refine map_congr_left ?_
    intro column hcolumn
    exact recleaned_of_settled (stable.settled column hcolumn)
  have hadded := appended_rows (u := u) draws.rows draws (lastPosition revision) count.toNat
    (1 + revision.normalRows.length)
  have hincreasing : (((appendedRows draws (lastPosition revision) count.toNat).zipIdx
      (1 + revision.normalRows.length)).map (rowOfInput u draws.rows)).Pairwise
        fun a b => a.position < b.position := by
    have hrange : (range count.toNat).Pairwise (· < ·) := pairwise_lt_range
    rw [hadded, pairwise_map]
    rw [← zipIdx_map_fst (1 + revision.normalRows.length) (range count.toNat), pairwise_map] at hrange
    refine hrange.imp ?_
    intro a b hab
    show lastPosition revision + a.1 + 1 < lastPosition revision + b.1 + 1
    omega
  have hafter : ∀ r ∈ revision.normalRows, ∀ e ∈
      ((appendedRows draws (lastPosition revision) count.toNat).zipIdx
        (1 + revision.normalRows.length)).map (rowOfInput u draws.rows), r.position < e.position := by
    rw [hadded]
    intro r hr e he
    obtain ⟨item, -, rfl⟩ := mem_map.mp he
    have hlast := position_le_last hr
    show r.position < lastPosition revision + item.1 + 1
    omega
  have hnext := normalizeRows_rowInput stable.rows stable.named hincreasing hafter hrows
  rw [hadded] at hnext
  refine ⟨⟨hcolumns', ⟨_, hnext, ?_, ?_, ?_⟩, hcalculated⟩, ?_⟩
  · rw [length_map, length_zipIdx, length_range]
    omega
  · intro row hrow
    obtain ⟨item, -, rfl⟩ := mem_map.mp hrow
    rfl
  · rw [map_map]
    conv_rhs => rw [← zipIdx_map_fst (1 + revision.normalRows.length) (range count.toNat)]
    rw [map_map]
    rfl
  · intro hdrawn
    refine ⟨buildRevision_sound h, ?_, ?_⟩
    · rw [hnext]
      intro row hrow
      rcases mem_append.mp hrow with hrow | hrow
      · exact stable.named row hrow
      · obtain ⟨item, -, rfl⟩ := mem_map.mp hrow
        exact keyOf_ne_empty (hdrawn item.1) _
    · rw [hcolumns']
      exact stable.settled

end Kept

end FlowHub.Sheets
