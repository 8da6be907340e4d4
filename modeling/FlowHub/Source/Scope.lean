import FlowHub.Related
import FlowHub.Source.Readers

namespace FlowHub.Source

open Python Txn List

section Dictionary

variable [BEq α] [LawfulBEq α] {key : α}

theorem dictGet_none (h : key ∉ items.map Prod.fst) : dictGet items key = none := by
  rw [dictGet, lookup_eq_none_iff]
  intro item hitem
  rw [bne_iff_ne]
  rintro rfl
  exact h (mem_map_of_mem (mem_reverse.mp hitem))

theorem dictGet_of_mem (unique : (items.map Prod.fst).Nodup) (h : (key, value) ∈ items) :
    dictGet items key = some value := by
  obtain ⟨before, after, rfl⟩ := append_of_mem h
  rw [dictGet, lookup_eq_some_iff]
  refine ⟨after.reverse, before.reverse, by simp, ?_⟩
  intro item hitem
  rw [bne_iff_ne]
  rintro rfl
  rw [map_append, map_cons] at unique
  have hfresh := (nodup_cons.mp (nodup_append.mp unique).2.1).1
  exact hfresh (mem_map.mpr ⟨item, mem_reverse.mp hitem, rfl⟩)

end Dictionary

/-- A worksheet rule of a request, with its fields and Channels normalized. -/
structure RuleInput where
  worksheetName : String
  enabled : Bool := true
  dataStartRow : Int := 1
  valuePolicy : ValuePolicy := {}
  sourceFields : List SourceFieldMapping
  channels : List ChannelMapping

/-- What `save_mapping` is told of the worksheets to read. -/
structure ScopeRequest where
  worksheetMode : WorksheetMode
  worksheetName : Option String
  worksheetRuleMode : RuleMode := .shared
  selectedWorksheetNames : List String := []
  duplicateProductPolicy : DuplicatePolicy := .block
  /-- The rule that all worksheets share. -/
  shared : RuleInput
  worksheetRules : List RuleInput := []

section

variable (u : Unicode)

def addSelectedName (done : List String) (raw : String) : Except Sheets.Fault (List String) :=
  let name := String.ofList (strip u raw.toList)
  if name = "" ∨ name = "*" ∨ 240 < name.length ∨ name ∈ done then
    .error (.unprocessable "WORKSHEET_SELECTION_INVALID")
  else .ok (done ++ [name])

def normalizeSelectedWorksheetNames (names : List String) : Except Sheets.Fault (List String) :=
  names.foldlM (addSelectedName u) []

/-- `_validate_worksheet`, of a selected worksheet where there is one. -/
def validateWorksheet (name : Option String) (dataStartRow : Int) : Except Sheets.Fault Unit :=
  if name.any fun name => decide (strip u name.toList = []) then
    .error (.unprocessable "WORKSHEET_REQUIRED")
  else if dataStartRow < 1 ∨ 1000000 < dataStartRow then
    .error (.unprocessable "DATA_START_ROW_INVALID")
  else .ok ()

def ruleUnder (name : String) (input : RuleInput) : WorksheetRule where
  worksheetName := name
  enabled := input.enabled
  dataStartRow := input.dataStartRow.toNat
  valuePolicy := input.valuePolicy
  sourceFields := input.sourceFields
  channels := input.channels

def addRule (done : List WorksheetRule) (raw : RuleInput) : Except Sheets.Fault (List WorksheetRule) :=
  let name := String.ofList (strip u raw.worksheetName.toList)
  -- `int(raw.get("data_start_row") or 1)`
  let input := if raw.dataStartRow = 0 then { raw with dataStartRow := 1 } else raw
  if name = "" ∨ name = "*" ∨ name ∈ done.map WorksheetRule.worksheetName then
    .error (.unprocessable "WORKSHEET_RULE_INVALID")
  else (validateWorksheet u (some name) input.dataStartRow).map fun _ => done ++ [ruleUnder name input]

def normalizeWorksheetRules (rules : List RuleInput) : Except Sheets.Fault (List WorksheetRule) :=
  if rules = [] then .error (.unprocessable "WORKSHEET_RULE_REQUIRED")
  else match rules.foldlM (addRule u) [] with
    | .error fault => .error fault
    | .ok done =>
      if done.any WorksheetRule.enabled then .ok done
      else .error (.unprocessable "WORKSHEET_RULE_REQUIRED")

/-- The name of one worksheet, stripped. -/
def compatibilityName (request : ScopeRequest) : String :=
  String.ofList (strip u (request.worksheetName.getD "").toList)

/-- The selected names, or the one that the request names. -/
def chosenNames (request : ScopeRequest) (names : List String) : List String :=
  if names = [] ∧ compatibilityName u request ≠ "" then [compatibilityName u request] else names

def participating (request : ScopeRequest) (names : List String) : Except Sheets.Fault (List String) :=
  match request.worksheetMode with
  | .all =>
    if names ≠ [] then .error (.unprocessable "WORKSHEET_SELECTION_INVALID")
    else (validateWorksheet u none request.shared.dataStartRow).map fun _ => []
  | .selected =>
    let chosen := chosenNames u request names
    if chosen = [] then .error (.unprocessable "WORKSHEET_REQUIRED")
    else if request.worksheetName.getD "" ≠ "" ∧ compatibilityName u request ∉ chosen then
      .error (.unprocessable "WORKSHEET_SELECTION_INVALID")
    else (chosen.mapM fun name => validateWorksheet u (some name) request.shared.dataStartRow).map
      fun _ => chosen

def enabledNames (rules : List WorksheetRule) : List String :=
  (rules.filter WorksheetRule.enabled).map WorksheetRule.worksheetName

/-- The rules of the participating worksheets. -/
def scopeRules (request : ScopeRequest) (names : List String) : Except Sheets.Fault (List WorksheetRule) :=
  match request.worksheetRuleMode with
  | .shared =>
    .ok ((if names = [] then ["*"] else names).map fun name =>
      ruleUnder name { request.shared with enabled := true })
  | .perWorksheet =>
    if request.worksheetMode = .selected ∧ names.length < 2 then
      .error (.unprocessable "WORKSHEET_STRATEGY_INVALID")
    else match normalizeWorksheetRules u request.worksheetRules with
      | .error fault => .error fault
      | .ok rules =>
        if request.worksheetMode = .selected ∧ ¬ ((enabledNames rules) ⊆ names ∧
            names ⊆ enabledNames rules) then
          .error (.unprocessable "WORKSHEET_SCOPE_RULE_MISMATCH")
        else if request.worksheetMode = .all ∧ (enabledNames rules).length < 2 then
          .error (.unprocessable "WORKSHEET_STRATEGY_INVALID")
        else .ok rules

/-- What `save_mapping` stores of the worksheets: the one participating worksheet, and the rules. -/
def saveScope (request : ScopeRequest) : Except Sheets.Fault (Option String × RuleSet) := do
  let selected ← normalizeSelectedWorksheetNames u request.selectedWorksheetNames
  let names ← participating u request selected
  let rules ← scopeRules u request names
  .ok (match names with
    | [name] => some name
    | _ => none,
    { mode := request.worksheetRuleMode
      duplicateProductPolicy := request.duplicateProductPolicy
      rules := rules })

/-- A mapping as `save_mapping` stores it, or as it was stored without worksheet rules. -/
inductive Saved (mapping : SourceMappingRevision) : Prop where
  | current {request : ScopeRequest}
      (stored : saveScope u request = .ok (mapping.worksheetName, mapping.ruleSet))
      (mode : mapping.worksheetMode = request.worksheetMode)
  | legacy {input : RuleInput} (enabled : input.enabled = true) (start : 1 ≤ input.dataStartRow)
      (stored : mapping.ruleSet = { rules := [ruleUnder "*" input] })

end

section Names

theorem nodup_snoc (h : names.Nodup) (hfresh : name ∉ names) : (names ++ [name]).Nodup := by
  rw [nodup_append_comm]
  exact nodup_cons.mpr ⟨hfresh, h⟩

/-- The selected names are explicit and distinct. -/
theorem selectedNames_ok (h : normalizeSelectedWorksheetNames u raw = .ok names) :
    names.Nodup ∧ ∀ name ∈ names, name ≠ "" ∧ name ≠ "*" := by
  have hround : ∀ a ∈ raw, ∀ done out : List String,
      (done.Nodup ∧ ∀ name ∈ done, name ≠ "" ∧ name ≠ "*") → addSelectedName u done a = .ok out →
        out.Nodup ∧ ∀ name ∈ out, name ≠ "" ∧ name ≠ "*" := by
    intro a _ done out hdone hout
    simp only [addSelectedName] at hout
    split at hout
    · cases hout
    rename_i hname
    cases hout
    simp only [not_or] at hname
    refine ⟨nodup_snoc hdone.1 hname.2.2.2, ?_⟩
    intro name hmem
    rcases mem_append.mp hmem with hmem | hmem
    · exact hdone.2 name hmem
    · obtain rfl := mem_singleton.mp hmem
      exact ⟨hname.1, hname.2.1⟩
  have hempty : ([] : List String).Nodup ∧ ∀ name ∈ ([] : List String), name ≠ "" ∧ name ≠ "*" := by
    simp
  exact foldlM_keeps (P := fun done : List String =>
    done.Nodup ∧ ∀ name ∈ done, name ≠ "" ∧ name ≠ "*") hround hempty h

theorem validateWorksheet_ok (h : validateWorksheet u name dataStartRow = .ok ()) : 1 ≤ dataStartRow := by
  simp only [validateWorksheet] at h
  split at h
  · cases h
  · split at h
    · cases h
    · omega

/-- The rules of a request for separate worksheets are under names of their own. -/
theorem worksheetRules_ok (h : normalizeWorksheetRules u raw = .ok rules) :
    (rules.map WorksheetRule.worksheetName).Nodup := by
  simp only [normalizeWorksheetRules] at h
  split at h
  · cases h
  split at h
  · cases h
  rename_i done hdone
  split at h
  · cases h
    have hround : ∀ a ∈ raw, ∀ done out : List WorksheetRule,
        (done.map WorksheetRule.worksheetName).Nodup → addRule u done a = .ok out →
          (out.map WorksheetRule.worksheetName).Nodup := by
      intro a _ done out hkept hout
      simp only [addRule] at hout
      split at hout
      · cases hout
      rename_i hname
      obtain ⟨-, -, rfl⟩ := map_eq_ok.mp hout
      simp only [not_or] at hname
      rw [map_append]
      exact nodup_snoc hkept hname.2.2
    exact foldlM_keeps (P := fun done : List WorksheetRule =>
      (done.map WorksheetRule.worksheetName).Nodup) hround (by simp) hdone
  · cases h

/-- The worksheets that participate: none of their own, the one that was named, or the selected. -/
theorem participating_ok
    (h : participating u request selected = .ok names) : 1 ≤ request.shared.dataStartRow ∧
      (request.worksheetMode = .all ∧ names = [] ∨
        request.worksheetMode = .selected ∧ ((∃ name, name ≠ "" ∧ names = [name]) ∨
          names = selected ∧ selected ≠ [])) := by
  simp only [participating] at h
  split at h
  · rename_i hmode
    split at h
    · cases h
    · obtain ⟨⟨⟩, hvalid, rfl⟩ := map_eq_ok.mp h
      exact ⟨validateWorksheet_ok hvalid, .inl ⟨hmode, rfl⟩⟩
  · rename_i hmode
    split at h
    · cases h
    rename_i hnonempty
    split at h
    · cases h
    obtain ⟨units, hvalid, hnames⟩ := map_eq_ok.mp h
    rw [hnames] at hnonempty hvalid
    obtain ⟨name, hname⟩ := exists_mem_of_ne_nil names hnonempty
    obtain ⟨⟨⟩, hone⟩ := forall₂_right (mapM_ok.mp hvalid) hname
    refine ⟨validateWorksheet_ok hone, .inr ⟨hmode, ?_⟩⟩
    by_cases hselected : selected = []
    · by_cases hgiven : compatibilityName u request = ""
      · rw [chosenNames, if_neg (by simp [hgiven])] at hnames
        exact absurd (hnames.symm.trans hselected) hnonempty
      · rw [chosenNames, if_pos ⟨hselected, hgiven⟩] at hnames
        exact .inl ⟨_, hgiven, hnames.symm⟩
    · rw [chosenNames, if_neg (by simp [hselected])] at hnames
      exact .inr ⟨hnames.symm, hselected⟩

end Names

section Work

variable {mapping : SourceMappingRevision} {worksheetName : String}

theorem lookup_single : ([(worksheetName, rows)] : Workbook).lookup name = none ↔ name ≠ worksheetName := by
  rw [lookup_cons]
  by_cases h : name = worksheetName
  · simp [h]
  · have hne : (name == worksheetName) = false := by simpa using h
    simp [hne, h]

theorem ruleNamed_of_mem (unique : (rules.map WorksheetRule.worksheetName).Nodup)
    (h : rule ∈ rules) : ruleNamed rules rule.worksheetName = some rule := by
  apply dictGet_of_mem
  · rw [map_map]
    exact unique
  · exact mem_map.mpr ⟨rule, h, rfl⟩

/-- A workbook of one worksheet lacks the worksheet of every other enabled rule. -/
theorem own_of_missing (unique : (rules.map WorksheetRule.worksheetName).Nodup)
    (h : missingWorksheets rules [(worksheetName, rows)] = [])
    (hrule : rule ∈ rules) (enabled : rule.enabled = true) : rule.worksheetName = worksheetName := by
  by_contra hne
  have hmem : rule.worksheetName ∈ missingWorksheets rules [(worksheetName, rows)] := by
    rw [missingWorksheets, mem_filter]
    refine ⟨mem_dedup.mpr (mem_map_of_mem hrule), ?_⟩
    rw [ruleNamed_of_mem unique hrule, lookup_single.mpr hne]
    simpa using enabled
  rw [h] at hmem
  cases hmem

/-- Two worksheets do not fit in a workbook of one. -/
theorem missing_of_two (unique : (rules.map WorksheetRule.worksheetName).Nodup)
    (two : 2 ≤ (enabledNames rules).length) :
    missingWorksheets rules [(worksheetName, rows)] ≠ [] := by
  intro h
  have hall : ∀ name ∈ enabledNames rules, name = worksheetName := by
    intro name hname
    obtain ⟨rule, hrule, rfl⟩ := mem_map.mp hname
    obtain ⟨hmem, henabled⟩ := mem_filter.mp hrule
    exact own_of_missing unique h hmem henabled
  have hnodup : (enabledNames rules).Nodup :=
    unique.sublist (filter_sublist.map WorksheetRule.worksheetName)
  have hsub : enabledNames rules ⊆ [worksheetName] := by
    intro name hname
    rw [hall name hname]
    exact mem_singleton_self _
  have hlength := (subperm_of_subset hnodup hsub).length_le
  rw [length_singleton] at hlength
  omega

/-- What the readers select for a workbook of one worksheet. -/
structure Selects (mapping : SourceMappingRevision) (worksheetName : String)
    (work : List (String × WorksheetRule)) (rule : WorksheetRule) : Prop where
  external : work = [(worksheetName, rule)]
  sheet : selectedRule mapping = some rule
  mem : rule ∈ mapping.ruleSet.rules
  start : 1 ≤ rule.dataStartRow

variable {work : List (String × WorksheetRule)}

/-- One rule for all worksheets. -/
theorem selects_wildcard (input : RuleInput) (enabled : input.enabled = true)
    (start : 1 ≤ input.dataStartRow) (hmode : mapping.ruleSet.mode = .shared)
    (hrules : mapping.ruleSet.rules = [ruleUnder "*" input])
    (h : ruleWork mapping [(worksheetName, rows)] = .ok work) :
    Selects mapping worksheetName work (ruleUnder "*" input) := by
  have hstart : 1 ≤ (ruleUnder "*" input).dataStartRow := by
    show 1 ≤ input.dataStartRow.toNat
    omega
  have hexplicit : (mapping.ruleSet.rules.filter fun rule => rule.worksheetName ≠ "*") = [] := by
    rw [hrules]
    simp [ruleUnder]
  have hselected : selectedRule mapping = some (ruleUnder "*" input) := by
    rw [selectedRule, hrules]
    simp [hmode, ruleUnder, enabled]
  refine ⟨?_, hselected, by simp [hrules], hstart⟩
  simp only [ruleWork, hmode, hexplicit, ne_eq, not_true_eq_false, if_false] at h
  cases hworksheets : mapping.worksheetMode with
  | all =>
    simp only [hworksheets, hrules] at h
    simpa using h.symm
  | selected =>
    simp only [hworksheets, hrules] at h
    have hname : mapping.worksheetName.getD "" = worksheetName := by
      by_contra hne
      have hnone : ([(worksheetName, rows)] : Workbook).lookup (mapping.worksheetName.getD "") =
          none := lookup_single.mpr hne
      simp [hnone] at h
    simpa [hname] using h.symm

theorem selects_named (input : RuleInput) (hname : name ≠ "*") (hne : name ≠ "")
    (enabled : input.enabled = true) (start : 1 ≤ input.dataStartRow)
    (hmode : mapping.ruleSet.mode = .shared) (hinternal : mapping.worksheetName = some name)
    (hrules : mapping.ruleSet.rules = [ruleUnder name input])
    (h : ruleWork mapping [(worksheetName, rows)] = .ok work) :
    Selects mapping worksheetName work (ruleUnder name input) := by
  have hstart : 1 ≤ (ruleUnder name input).dataStartRow := by
    show 1 ≤ input.dataStartRow.toNat
    omega
  have hexplicit : (mapping.ruleSet.rules.filter fun rule => rule.worksheetName ≠ "*") =
      [ruleUnder name input] := by
    rw [hrules]
    simp [ruleUnder, hname]
  have hselected : selectedRule mapping = some (ruleUnder name input) := by
    rw [selectedRule, hrules]
    simp [hmode, ruleUnder, enabled, internalName, hinternal, hne]
  have hunique : ([ruleUnder name input].map WorksheetRule.worksheetName).Nodup := by simp
  simp only [ruleWork, hmode, hexplicit, ne_eq, cons_ne_nil, not_false_eq_true, if_true] at h
  by_cases hmissing : missingWorksheets [ruleUnder name input] [(worksheetName, rows)] = []
  · have hown := own_of_missing hunique hmissing (mem_singleton_self _) enabled
    have hown : name = worksheetName := hown
    rw [if_neg (by simp [hmissing])] at h
    have hruled := ruleNamed_of_mem hunique (mem_singleton_self (ruleUnder name input))
    have hruled : ruleNamed [ruleUnder name input] worksheetName = some (ruleUnder name input) := by
      rw [← hown]
      exact hruled
    refine ⟨?_, hselected, by simp [hrules], hstart⟩
    cases h
    have henabled : (ruleUnder name input).enabled = true := enabled
    simp [ruledWorksheets, hruled, henabled]
  · rw [if_pos hmissing] at h
    cases h

/-- Rules for several worksheets do not read a workbook of one. -/
theorem separate_refused (unique : (rules.map WorksheetRule.worksheetName).Nodup)
    (two : 2 ≤ (enabledNames rules).length)
    (hrules : mapping.ruleSet.mode = .shared ∧
        mapping.ruleSet.rules.filter (fun rule => rule.worksheetName ≠ "*") = rules ∨
      mapping.ruleSet.mode = .perWorksheet ∧ mapping.ruleSet.rules = rules)
    (h : ruleWork mapping [(worksheetName, rows)] = .ok work) :
    False := by
  have hmissing : missingWorksheets rules [(worksheetName, rows)] ≠ [] := missing_of_two unique two
  rcases hrules with ⟨hmode, hrules⟩ | ⟨hmode, hrules⟩
  · have hne : rules ≠ [] := by
      rintro rfl
      simp [enabledNames] at two
    simp only [ruleWork, hmode, hrules] at h
    rw [if_pos hne, if_pos hmissing] at h
    cases h
  · simp only [ruleWork, hmode, hrules] at h
    rw [if_pos hmissing] at h
    cases h

/-- Rules for separate worksheets are enabled for two of them at least. -/
theorem separate_ok
    (hselected : normalizeSelectedWorksheetNames u request.selectedWorksheetNames = .ok selected)
    (hnames : participating u request selected = .ok names)
    (hmode : request.worksheetRuleMode = .perWorksheet)
    (h : scopeRules u request names = .ok rules) :
    (rules.map WorksheetRule.worksheetName).Nodup ∧ 2 ≤ (enabledNames rules).length := by
  simp only [scopeRules, hmode] at h
  split at h
  · cases h
  rename_i hfew
  split at h
  · cases h
  rename_i normalized hnormalized
  split at h
  · cases h
  rename_i hmatch
  split at h
  · cases h
  rename_i hcount
  cases h
  refine ⟨worksheetRules_ok hnormalized, ?_⟩
  obtain ⟨-, ⟨hall, -⟩ | ⟨hmode', hchosen⟩⟩ := participating_ok hnames
  · simp only [hall, true_and, not_lt] at hcount
    exact hcount
  simp only [hmode', true_and, not_lt] at hfew
  simp only [hmode', true_and, not_not] at hmatch
  rcases hchosen with ⟨name, -, rfl⟩ | ⟨rfl, -⟩
  · simp at hfew
  · have hnodup := (selectedNames_ok hselected).1
    exact le_trans hfew (subperm_of_subset hnodup hmatch.2).length_le

/-- What a workbook of one worksheet is read with, where it is read at all. -/
theorem selects_of_saved (saved : Saved u mapping) (h : ruleWork mapping [(worksheetName, rows)] = .ok work) :
    ∃ rule, Selects mapping worksheetName work rule := by
  cases saved with
  | @legacy input enabled start stored =>
    exact ⟨_, selects_wildcard input enabled start (by rw [stored]) (by rw [stored]) h⟩
  | @current request stored mode =>
    simp only [saveScope] at stored
    obtain ⟨selected, hselected, stored⟩ := bind_eq_ok.mp stored
    obtain ⟨names, hnames, stored⟩ := bind_eq_ok.mp stored
    obtain ⟨rules, hrules, stored⟩ := bind_eq_ok.mp stored
    obtain ⟨hinternal, hset⟩ := Prod.mk.inj (Except.ok.inj stored)
    have hmode : mapping.ruleSet.mode = request.worksheetRuleMode := by rw [← hset]
    have hstored : mapping.ruleSet.rules = rules := by rw [← hset]
    cases hkind : request.worksheetRuleMode with
    | perWorksheet =>
      obtain ⟨hunique, htwo⟩ := separate_ok hselected hnames hkind hrules
      exact (separate_refused hunique htwo (.inr ⟨hmode.trans hkind, hstored⟩) h).elim
    | shared =>
      obtain ⟨hstart, hparticipating⟩ := participating_ok hnames
      have hshared := hmode.trans hkind
      simp only [scopeRules, hkind] at hrules
      rw [← Except.ok.inj hrules] at hstored
      have hone : ∀ name, name ≠ "" → names = [name] → ∃ rule, Selects mapping worksheetName work rule := by
        rintro name hne rfl
        by_cases hstar : name = "*"
        · subst hstar
          exact ⟨_, selects_wildcard { request.shared with enabled := true } rfl hstart hshared hstored h⟩
        · exact ⟨_, selects_named { request.shared with enabled := true } hstar hne rfl hstart
              hshared hinternal.symm hstored h⟩
      rcases hparticipating with ⟨-, rfl⟩ | ⟨-, ⟨name, hne, hname⟩ | ⟨rfl, hsome⟩⟩
      · exact ⟨_, selects_wildcard { request.shared with enabled := true } rfl hstart hshared hstored h⟩
      · exact hone name hne hname
      · obtain ⟨hunique, hexplicit⟩ := selectedNames_ok hselected
        obtain ⟨first, rest, rfl⟩ := exists_cons_of_ne_nil hsome
        cases rest with
        | nil => exact hone first (hexplicit first mem_cons_self).1 rfl
        | cons second more =>
          exfalso
          rw [if_neg hsome] at hstored
          have hnames : mapping.ruleSet.rules.map WorksheetRule.worksheetName = first :: second :: more := by
            rw [hstored, map_map]
            exact map_id _
          have hkept : mapping.ruleSet.rules.filter (fun rule => rule.worksheetName ≠ "*") =
              mapping.ruleSet.rules := by
            rw [filter_eq_self]
            intro rule hrule
            have hname := (hexplicit rule.worksheetName
              (hnames ▸ mem_map_of_mem hrule)).2
            simpa using hname
          have henabled : enabledNames mapping.ruleSet.rules = first :: second :: more := by
            rw [enabledNames, filter_eq_self.mpr, hnames]
            intro rule hrule
            rw [hstored] at hrule
            obtain ⟨name, -, rfl⟩ := mem_map.mp hrule
            rfl
          exact separate_refused (hnames ▸ hunique) (by simp [henabled])
            (.inl ⟨hshared, hkept⟩) h

end Work

end FlowHub.Source
