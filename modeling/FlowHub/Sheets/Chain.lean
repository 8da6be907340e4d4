import FlowHub.Ledger
import FlowHub.Sheets.Overlay

namespace FlowHub.Sheets

open Python Txn List Option

/-- A committed revision, and the call that made it. -/
structure Entry where
  request : Request
  expectedVersion : Nat
  revision : Revision

/-- A call under way: the version of its sheet object, and what it is about to save. -/
structure Task where
  call : Call
  loaded : Nat
  ready : Option (List ColumnInput × List RowInput) := none

/-- One sheet, from its creation on. -/
structure World where
  current : Nat := 0
  log : List Entry := []
  tasks : List Task := []

namespace World

def revisions (w : World) : List Revision := w.log.map Entry.revision

end World

/-- What the sessions do. The object of a call may have been loaded at any time before; each call
reads the latest revision, and saves, in its own time; one that raises is rolled back. -/
inductive Step (u : Unicode) (engine : Engine) (allowed : Call → Prop) : World → World → Prop
  | load {w : World} (call : Call) (h : allowed call) :
      Step u engine allowed w { w with tasks := w.tasks ++ [{ call := call, loaded := w.current }] }
  | read {w : World} {before after : List Task} {task : Task}
      {request : List ColumnInput × List RowInput} (hw : w.tasks = before ++ task :: after)
      (unread : task.ready = none) (version : task.loaded = task.call.expectedVersion)
      (h : prepare u task.call (Table.latest Revision.version w.revisions) = .ok request) :
      Step u engine allowed w
        { w with tasks := before ++ { task with ready := some request } :: after }
  | commit {w : World} {before after : List Task} {task : Task} {columns : List ColumnInput}
      {rows : List RowInput} {revision : Revision} (hw : w.tasks = before ++ task :: after)
      (ready : task.ready = some (columns, rows))
      (h : saveSheetRevision u engine w.revisions task.loaded task.call columns rows = .ok revision) :
      Step u engine allowed w
        { current := revision.version
          log := w.log ++ [⟨task.call.request, task.call.expectedVersion, revision⟩]
          tasks := before ++ after }
  | raise {w : World} {before after : List Task} {task : Task} (hw : w.tasks = before ++ task :: after) :
      Step u engine allowed w { w with tasks := before ++ after }

inductive Reachable (u : Unicode) (engine : Engine) (allowed : Call → Prop) : World → Prop
  | init : Reachable u engine allowed {}
  | step {w w' : World} (h : Reachable u engine allowed w) (hstep : Step u engine allowed w w') :
      Reachable u engine allowed w'

/-- What a committed revision is, seen from the revisions before it. -/
def Outcome (u : Unicode) (engine : Engine) (before : List Entry) (entry : Entry) : Prop :=
  match entry.request with
  | .save columns rows => ∃ draws,
      buildRevision u engine draws (before.length + 1) columns rows = .ok entry.revision
  | .patch changes columnNames => ∃ past ∈ before.getLast?,
      past.revision.Overlaid u engine changes columnNames entry.revision
  | .append count => ∃ past ∈ before.getLast?, past.revision.Extended u engine count entry.revision

/-- A revision follows the ones before it. -/
structure Follows (u : Unicode) (engine : Engine) (before : List Entry) (entry : Entry) : Prop where
  expected : entry.expectedVersion = before.length
  version : entry.revision.version = before.length + 1
  outcome : Outcome u engine before entry

/-- A saved row is keyed by a text that is not blank, a saved name is not cut at a blank, and the
ids drawn are not blank. -/
structure Call.Plain (u : Unicode) (call : Call) : Prop where
  rowIds : ∀ i, strip u (call.draws.rows i).toList ≠ []
  appendedIds : ∀ i, strip u (call.draws.appended i).toList ≠ []
  keys : ∀ columns rows, call.request = .save columns rows → ∀ row ∈ rows, ∀ key,
    row.rowKey = some key → key = "" ∨ strip u key.toList ≠ []
  names : ∀ columns rows, call.request = .save columns rows → ∀ column ∈ columns,
    ((singleSpaced u column.name.toList).take 240).getLast? ≠ some ' '

section

variable {u : Unicode} {engine : Engine}

variable {log : List Entry} {call : Call}

theorem save_stable {next : Revision} (law : u.Printable) (hspace : u.isSpace ' ' = true)
    (plain : call.Plain u) (hcall : call.request = .save columns rows)
    (h : buildRevision u engine call.draws version columns rows = .ok next) : next.Stable u := by
  obtain ⟨-, hcolumns, hrows, -⟩ := buildRevision_ok h
  refine ⟨buildRevision_sound h, ?_, ?_⟩
  · intro row hrow
    rw [(normalizeRows_ok hrows).2, mem_insertionSort] at hrow
    obtain ⟨⟨input, index⟩, hitem, rfl⟩ := mem_map.mp hrow
    have hinput : input ∈ rows := by
      obtain ⟨-, -, hmem⟩ := mem_zipIdx hitem
      rw [hmem]
      exact getElem_mem _
    have hdrawn : keyOf u (some (call.draws.rows index)) "" ≠ "" :=
      keyOf_ne_empty (plain.rowIds index) _
    have hid : call.draws.rows index ≠ "" := by
      intro hempty
      apply plain.rowIds index
      simp [hempty, strip]
    cases hkey : input.rowKey with
    | none => simpa [rowOfInput, keyOf, hkey, hid] using hdrawn
    | some key =>
      rcases plain.keys columns rows hcall input hinput key hkey with rfl | hne
      · simpa [rowOfInput, keyOf, hkey, hid] using hdrawn
      · simp only [rowOfInput, hkey]
        exact keyOf_ne_empty hne _
  · intro column hcolumn
    have hok := (normalizeColumns_ok hcolumns).1.each column hcolumn
    rw [(normalizeColumns_ok hcolumns).2, mem_insertionSort] at hcolumn
    obtain ⟨⟨input, index⟩, hitem, rfl⟩ := mem_map.mp hcolumn
    have hinput : input ∈ columns := by
      obtain ⟨-, -, hmem⟩ := mem_zipIdx hitem
      rw [hmem]
      exact getElem_mem _
    exact settled_cleanName hspace (plain.names columns rows hcall input hinput)
      (settled_defaultName law hspace hok.low hok.high)

/-- The revision read as the latest is the last of a chain. -/
theorem latest_of_chain (h : EachAfter (Follows u engine) log) :
    Table.latest Revision.version (log.map Entry.revision) = log.getLast?.map Entry.revision := by
  induction log using reverseRecOn with
  | nil => rfl
  | append_singleton past entry ih =>
    have hpast : EachAfter (Follows u engine) past := by
      intro before a after hcut
      exact h before a (after ++ [entry]) (by simp [hcut])
    have hlast := h past entry [] rfl
    have hfold := ih hpast
    simp only [Table.latest] at hfold
    simp only [Table.latest, map_append, map_cons, map_nil, foldl_append,
      foldl_cons, foldl_nil, hfold, getLast?_concat, map_some]
    cases hgot : past.getLast? with
    | none => rfl
    | some previous =>
      have hmem := mem_of_getLast? hgot
      obtain ⟨before, after, hcut⟩ := append_of_mem hmem
      have hprevious := (hpast before previous after hcut).version
      have hlt : previous.revision.version < entry.revision.version := by
        rw [hprevious, hlast.version, hcut]
        simp
      simp [hlt]

/-- What holds of a call under way. -/
structure TaskOk (u : Unicode) (allowed : Call → Prop) (log : List Entry) (task : Task) : Prop where
  allowed : allowed task.call
  loaded : task.loaded ≤ log.length
  ready : ∀ request, task.ready = some request → ∃ past, past <+: log ∧
    task.loaded ≤ past.length ∧ prepare u task.call (past.getLast?.map Entry.revision) = .ok request

structure Inv (u : Unicode) (engine : Engine) (allowed : Call → Prop) (w : World) : Prop where
  chain : EachAfter (Follows u engine) w.log
  current : w.current = w.log.length
  stable : ∀ entry ∈ w.log, entry.revision.Stable u
  tasks : ∀ task ∈ w.tasks, TaskOk u allowed w.log task

theorem TaskOk.grow {allowed : Call → Prop} {log log' : List Entry} {task : Task}
    (h : TaskOk u allowed log task) (hgrow : log <+: log') : TaskOk u allowed log' task where
  allowed := h.allowed
  loaded := h.loaded.trans hgrow.length_le
  ready request hready := by
    obtain ⟨past, hpast, hloaded, hprepare⟩ := h.ready request hready
    exact ⟨past, hpast.trans hgrow, hloaded, hprepare⟩

theorem mem_without {α : Type} {before after : List α} {a b : α} (h : b ∈ before ++ after) :
    b ∈ before ++ a :: after := by
  rw [mem_append] at h ⊢
  exact h.imp_right (mem_cons_of_mem _)

/-- A version that is free is the next one. -/
theorem loaded_is_current (chain : EachAfter (Follows u engine) log) (hle : loaded ≤ log.length)
    (hfree : ¬ ∃ entry ∈ log, entry.revision.version = loaded + 1) : loaded = log.length := by
  by_contra hne
  have hlt : loaded < log.length := by omega
  have hcut : log = log.take loaded ++ log[loaded] :: log.drop (loaded + 1) := by
    rw [getElem_cons_drop, take_append_drop]
  have hversion := (chain _ _ _ hcut).version
  rw [length_take, min_eq_left hle] at hversion
  exact hfree ⟨log[loaded], getElem_mem hlt, hversion⟩

theorem saved (h : saveSheetRevision u engine revisions loaded call columns rows = .ok revision) :
    loaded = call.expectedVersion ∧
    buildRevision u engine call.draws (loaded + 1) columns rows = .ok revision ∧
    ¬ ∃ r ∈ revisions, r.version = revision.version := by
  simp only [saveSheetRevision] at h
  split at h
  · cases h
  rename_i hversion
  split at h
  · cases h
  rename_i built hbuilt
  split at h
  · cases h
  rename_i hfree
  cases h
  refine ⟨not_not.mp hversion, hbuilt, ?_⟩
  simpa using hfree

/-- What a call saves follows the revisions before it. -/
theorem saved_follows (law : u.Printable) (hspace : u.isSpace ' ' = true) {task : Task}
    (chain : EachAfter (Follows u engine) log)
    (stable : ∀ entry ∈ log, entry.revision.Stable u) (ok : TaskOk u (Call.Plain u) log task)
    (ready : task.ready = some (columns, rows))
    (h : saveSheetRevision u engine (log.map Entry.revision) task.loaded task.call columns rows =
      .ok revision) :
    Follows u engine log ⟨task.call.request, task.call.expectedVersion, revision⟩ ∧ revision.Stable u := by
  obtain ⟨hexpected, hbuild, hfree⟩ := saved h
  have hversion := (buildRevision_ok hbuild).1
  have hloaded : task.loaded = log.length := by
    apply loaded_is_current chain ok.loaded
    rintro ⟨entry, hentry, hsame⟩
    exact hfree ⟨entry.revision, mem_map_of_mem hentry, hsame.trans hversion.symm⟩
  obtain ⟨past, hpast, hlen, hprepare⟩ := ok.ready _ ready
  have hwhole : past = log := hpast.eq_of_length (le_antisymm hpast.length_le (hloaded ▸ hlen))
  subst hwhole
  rw [hloaded] at hbuild hversion
  have hfollows : ∀ outcome : Outcome u engine past
      ⟨task.call.request, task.call.expectedVersion, revision⟩,
      Follows u engine past ⟨task.call.request, task.call.expectedVersion, revision⟩ :=
    fun outcome => ⟨hexpected.symm.trans hloaded, hversion, outcome⟩
  cases hrequest : task.call.request with
  | save savedColumns savedRows =>
    simp only [prepare, hrequest, Except.ok.injEq, Prod.mk.injEq] at hprepare
    obtain ⟨rfl, rfl⟩ := hprepare
    rw [hrequest] at hfollows
    exact ⟨hfollows ⟨task.call.draws, hbuild⟩, save_stable law hspace ok.allowed hrequest hbuild⟩
  | patch changes columnNames =>
    cases hlast : past.getLast? with
    | none => simp [prepare, hrequest, hlast] at hprepare
    | some entry =>
      simp only [prepare, hrequest, hlast, map_some] at hprepare
      have hstable := stable entry (mem_of_getLast? hlast)
      rw [hrequest] at hfollows
      exact ⟨hfollows ⟨entry, hlast, (patch_overlaid hstable hprepare hbuild).2⟩,
        patch_stable hspace hstable hprepare hbuild⟩
  | append count =>
    cases hlast : past.getLast? with
    | none => simp [prepare, hrequest, hlast] at hprepare
    | some entry =>
      simp only [prepare, hrequest, hlast, map_some] at hprepare
      have hstable := stable entry (mem_of_getLast? hlast)
      obtain ⟨hextended, hkept⟩ := append_extended hstable hprepare hbuild
      rw [hrequest] at hfollows
      exact ⟨hfollows ⟨entry, hlast, hextended⟩, hkept ok.allowed.appendedIds⟩

theorem step_inv (law : u.Printable) (hspace : u.isSpace ' ' = true) {w w' : World}
    (inv : Inv u engine (Call.Plain u) w) (h : Step u engine (Call.Plain u) w w') :
    Inv u engine (Call.Plain u) w' := by
  cases h with
  | load call hcall =>
    refine ⟨inv.chain, inv.current, inv.stable, ?_⟩
    intro task htask
    rcases mem_append.mp htask with htask | htask
    · exact inv.tasks task htask
    obtain rfl := mem_singleton.mp htask
    refine ⟨hcall, inv.current.le, ?_⟩
    intro request hready
    cases hready
  | @read before after task request hw unread version h =>
    refine ⟨inv.chain, inv.current, inv.stable, ?_⟩
    have htask := inv.tasks task (by simp [hw])
    intro other hother
    rcases mem_append.mp hother with hother | hother
    · exact inv.tasks other (by simp [hw, hother])
    rcases mem_cons.mp hother with rfl | hother
    · refine ⟨htask.allowed, htask.loaded, ?_⟩
      intro request' hready
      cases hready
      rw [World.revisions, latest_of_chain inv.chain] at h
      exact ⟨w.log, prefix_rfl, htask.loaded, h⟩
    · exact inv.tasks other (by simp [hw, hother])
  | @commit before after task columns rows revision hw ready h =>
    have htask := inv.tasks task (by simp [hw])
    obtain ⟨hfollows, hstable⟩ :=
      saved_follows law hspace inv.chain inv.stable htask ready h
    refine ⟨inv.chain.snoc hfollows, ?_, ?_, ?_⟩
    · simpa using hfollows.version
    · intro entry hentry
      rcases mem_append.mp hentry with hentry | hentry
      · exact inv.stable entry hentry
      · obtain rfl := mem_singleton.mp hentry
        exact hstable
    · intro other hother
      have hold := inv.tasks other (by rw [hw]; exact mem_without hother)
      exact hold.grow (prefix_append _ _)
  | @raise before after task hw =>
    refine ⟨inv.chain, inv.current, inv.stable, ?_⟩
    intro other hother
    exact inv.tasks other (by rw [hw]; exact mem_without hother)

theorem reachable_inv (law : u.Printable) (hspace : u.isSpace ' ' = true)
    (h : Reachable u engine (Call.Plain u) w) : Inv u engine (Call.Plain u) w := by
  induction h with
  | init => exact ⟨.nil, rfl, by simp, by simp⟩
  | step _ hstep ih => exact step_inv law hspace ih hstep

theorem versions_of_chain (h : EachAfter (Follows u engine) log) :
    (log.map Entry.revision).map Revision.version = range' 1 log.length := by
  induction log using reverseRecOn with
  | nil => rfl
  | append_singleton past entry ih =>
    have hpast : EachAfter (Follows u engine) past := by
      intro before a after hcut
      exact h before a (after ++ [entry]) (by simp [hcut])
    have hlast := (h past entry [] rfl).version
    rw [map_append, map_append, ih hpast, length_append, length_singleton, range'_concat]
    simp [hlast, Nat.add_comm]

/-- Where the keys of rows and the names of columns are saved as they are read back, the revisions
of a sheet are a chain in which each call overlays the revision that it names, and only that. -/
theorem sheet_chain (law : u.Printable) (hspace : u.isSpace ' ' = true) (engine : Engine)
    {w : World} (h : Reachable u engine (Call.Plain u) w) :
    w.revisions.map Revision.version = range' 1 w.current ∧
    EachAfter (Follows u engine) w.log ∧
    ∀ w', Step u engine (Call.Plain u) w w' → (w'.log = w.log ∧ w'.current = w.current) ∨
      ∃ entry, w'.log = w.log ++ [entry] ∧ w'.current = w.current + 1 := by
  have inv := reachable_inv law hspace h
  refine ⟨?_, inv.chain, ?_⟩
  · rw [inv.current]
    exact versions_of_chain inv.chain
  intro w' hstep
  have inv' := step_inv law hspace inv hstep
  cases hstep with
  | load call hcall => exact .inl ⟨rfl, rfl⟩
  | read hw unread version h => exact .inl ⟨rfl, rfl⟩
  | commit hw ready h =>
    refine .inr ⟨_, rfl, ?_⟩
    rw [inv'.current, inv.current]
    simp
  | raise hw => exact .inl ⟨rfl, rfl⟩

/-- A call that no other crosses. -/
theorem Reachable.alone {allowed : Call → Prop} {w : World} (h : Reachable u engine allowed w)
    (idle : w.tasks = []) (hcall : allowed call)
    (version : w.current = call.expectedVersion)
    (hprepare : prepare u call (Table.latest Revision.version w.revisions) = .ok (columns, rows))
    (hsave : saveSheetRevision u engine w.revisions w.current call columns rows = .ok revision) :
    Reachable u engine allowed
      { current := revision.version
        log := w.log ++ [⟨call.request, call.expectedVersion, revision⟩] } := by
  have hloaded := h.step (.load call hcall)
  rw [idle] at hloaded
  have htasks : [(⟨call, w.current, none⟩ : Task)] = [] ++ ⟨call, w.current, none⟩ :: [] := rfl
  have hread := hloaded.step (.read htasks rfl version hprepare)
  have hcommit := @Step.commit u engine allowed
    ⟨w.current, w.log, [⟨call, w.current, some (columns, rows)⟩]⟩ [] []
    ⟨call, w.current, some (columns, rows)⟩ columns rows revision rfl rfl hsave
  exact hread.step hcommit

end

namespace Sample

/-- An engine of sheets without formulas. -/
def engine : Engine := fun _ => .ok []

def draws : Draws where
  columns _ := "column"
  rows _ := "row"
  appended _ := "appended"

def columns : List ColumnInput := [{ columnKey := some "p", name := "Price", position := 1 }]

/-- Two rows, the first under a key. -/
def rows (key : String) : List RowInput :=
  [{ rowKey := some key, position := 1, values := [("p", some "5")] },
   { rowKey := some "b", position := 2, values := [("p", some "6")] }]

def save (key : String) : Call := { request := .save columns (rows key), expectedVersion := 0, draws := draws }

def changes : List CellPatch := [{ rowKey := "b", columnKey := "p", value := some "7" }]

def patch : Call := { request := .patch changes [], expectedVersion := 1, draws := draws }

def cell (value : String) : Cell :=
  { columnKey := "p", rawValue := some value, calculatedValue := some value,
    formulaExpression := none, formulaDependencies := [], calculationError := none }

def revision (version : Nat) (key value : String) : Revision where
  version := version
  columns := [{ columnKey := "p", name := "Price", position := 1, dataType := "text" }]
  rows := [{ rowKey := key, position := 1, cells := [cell "5"] },
    { rowKey := "b", position := 2, cells := [cell value] }]

def log (given first second : String) : List Entry :=
  [⟨(save given).request, 0, revision 1 first "6"⟩, ⟨patch.request, 1, revision 2 second "7"⟩]

/-- What the patch of a revision hands on. -/
def patchedRows (key : String) : List RowInput :=
  [{ rowKey := some key, position := 1, values := [("p", some "5")] },
   { rowKey := some "b", position := 2, values := [("p", some "7")] }]

theorem reachable {allowed : Call → Prop} (given first second : String)
    (hsave : allowed (save given)) (hpatch : allowed patch)
    (hfirst : saveSheetRevision .ascii engine [] 0 (save given) columns (rows given) =
      .ok (revision 1 first "6"))
    (hprepare : prepare .ascii patch (some (revision 1 first "6")) = .ok (columns, patchedRows first))
    (hsecond : saveSheetRevision .ascii engine [revision 1 first "6"] 1 patch columns
      (patchedRows first) = .ok (revision 2 second "7")) :
    Reachable .ascii engine allowed { current := 2, log := log given first second } := by
  have hone := Reachable.init.alone rfl hsave rfl rfl hfirst
  exact hone.alone rfl hpatch rfl hprepare hsecond

end Sample

open Sample

/-- Two rows under keys of their own, the second of them patched. -/
theorem patched_overlaid : [1, 2] = range' 1 2 ∧ EachAfter (Follows .ascii engine) (log "a" "a" "a") := by
  have hrow : strip .ascii "row".toList ≠ [] := by decide
  have happended : strip .ascii "appended".toList ≠ [] := by decide
  have hkeys : strip .ascii "a".toList ≠ [] ∧ strip .ascii "b".toList ≠ [] := by decide
  have hname : ((singleSpaced .ascii "Price".toList).take 240).getLast? ≠ some ' ' := by decide
  have hsave : (Sample.save "a").Plain .ascii := by
    refine ⟨fun _ => hrow, fun _ => happended, ?_, ?_⟩
    · intro columns rows hcall row hmem key hkey
      cases hcall
      simp only [Sample.rows, mem_cons, not_mem_nil, or_false] at hmem
      rcases hmem with rfl | rfl
      · cases hkey
        exact .inr hkeys.1
      · cases hkey
        exact .inr hkeys.2
    · intro columns rows hcall column hmem
      cases hcall
      simp only [Sample.columns, mem_singleton] at hmem
      subst hmem
      exact hname
  have hpatch : patch.Plain .ascii := by
    refine ⟨fun _ => hrow, fun _ => happended, ?_, ?_⟩
    · intro columns rows hcall
      cases hcall
    · intro columns rows hcall
      cases hcall
  have hreachable := reachable "a" "a" "a" hsave hpatch (by decide +kernel) (by decide +kernel)
    (by decide +kernel)
  have hchain := sheet_chain Unicode.ascii_printable (by decide) engine hreachable
  exact ⟨hchain.1, hchain.2.1⟩

/-- A row under a blank key gets another key when the next row is patched. -/
theorem blank_key_replaced : ∃ w first second,
    Reachable .ascii engine (fun _ => True) w ∧ w.log = [first, second] ∧
    second.request = .patch changes [] ∧
    places first.revision.normalRows = [("", 1), ("b", 2)] ∧
    places second.revision.normalRows = [("row", 1), ("b", 2)] := by
  have hreachable : Reachable .ascii engine (fun _ => True) _ :=
    reachable " " "" "row" trivial trivial (by decide +kernel) (by decide +kernel)
      (by decide +kernel)
  exact ⟨_, _, _, hreachable, rfl, rfl, by decide, by decide⟩

end FlowHub.Sheets
