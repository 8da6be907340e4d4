import FlowHub.Connectors.WooCommerceState
import FlowHub.Python.Natural

namespace FlowHub.Connectors.WooCommerce

open Python Channels List

/-- An answer to a request for ids: one error for all requests, or the matching items, in any order,
and an error of single items exactly where some id is rejected. -/
inductive Answering (ask : List Int → Except Failure (List Json)) : Prop where
  | wide (code : ConnectorErrorCode) (message : String) (httpStatus : Option Nat) (retryable : Bool)
      (answers : ∀ ids, ask ids = .error (.connectorError code message httpStatus retryable))
  | each (rejected : Int → Prop) (item : Int → Option Json)
      (rejects : ∀ ids, (∃ id ∈ ids, rejected id) → ∃ message status retryable, 400 ≤ status ∧ status < 500 ∧
          ask ids = .error (.connectorError .providerError message (some status) retryable))
      (answers : ∀ ids, (∀ id ∈ ids, ¬rejected id) →
        ∃ payload, ask ids = .ok payload ∧ ∀ i, i ∈ payload ↔ ∃ id ∈ ids, item id = some i)
      (named : ∀ id i, item id = some i → ∃ n : Nat, id = n ∧ i.get "id" = .int n)

structure Provider.Answers (provider : Provider) : Prop where
  products : Answering provider.products
  variations : ∀ parent, Answering (provider.variations parent)

variable (rt : Runtime)

/-- The record or the error of an entity that is asked for alone; none where that raises. -/
def stateOf (ask : List Int → Except Failure (List Json)) (parentId : Option Int)
    (e : CurrentStateIdentity) : Option State :=
  match load rt ask [e] with
  | .error .raised => none
  | .error (.connectorError code message _ retryable) => some (.error (errorOf code message retryable))
  | .ok payload => stateIn rt payload parentId e

variable {rt} {ask : List Int → Except Failure (List Json)}

theorem fetch_alone (e : CurrentStateIdentity) (t : Tables) :
    fetchStateBatchIsolated rt ask parentId [e] t = (stateOf rt ask parentId e).map (t.add e.key) := by
  unfold fetchStateBatchIsolated stateOf
  cases hload : load rt ask [e] with
  | error failure => cases failure <;> simp
  | ok payload =>
    cases hstate : stateIn rt payload parentId e <;> simp [hstate]

variable {l : List CurrentStateIdentity} {ids : List Int} {payload : List Json} {id : Int}

theorem load_eq (h : l.mapM (fun e => numberOf rt e.externalId) = some ids) : load rt ask l = ask ids := by
  unfold load
  rw [h]

theorem numbers_mem (h : l.mapM (fun e => numberOf rt e.externalId) = some ids) :
    id ∈ ids ↔ ∃ e ∈ l, numberOf rt e.externalId = some id := by
  induction l generalizing ids with
  | nil =>
    cases h
    simp
  | cons e l ih =>
    simp only [mapM_cons, Option.bind_eq_bind, Option.bind_eq_some_iff, Option.pure_def,
      Option.some.injEq] at h
    obtain ⟨n, hn, rest, hrest, rfl⟩ := h
    rw [mem_cons, ih hrest]
    simp [hn, eq_comm]

theorem number_of_mem (h : l.mapM (fun e => numberOf rt e.externalId) = some ids)
    (he : e ∈ l) : ∃ id, numberOf rt e.externalId = some id := by
  induction l generalizing ids with
  | nil => cases he
  | cons d l ih =>
    simp only [mapM_cons, Option.bind_eq_bind, Option.bind_eq_some_iff, Option.pure_def,
      Option.some.injEq] at h
    obtain ⟨n, hn, rest, hrest, rfl⟩ := h
    cases mem_cons.mp he with
    | inl heq => exact ⟨n, heq ▸ hn⟩
    | inr he => exact ih hrest he

variable {n : Nat}

theorem numberOf_repr (law : rt.unicode.Digits)
    (htext : text = n.repr) (h : numberOf rt text = some id) : id = n := by
  unfold numberOf at h
  split at h
  · cases h
  · rw [htext, intText_repr law n] at h
    exact (Option.some.inj h).symm

theorem getLast?_of_mem_iff {α : Type} {l : List α} {found : Option α}
    (h : ∀ a, a ∈ l ↔ found = some a) : l.getLast? = found := by
  cases hlast : l.getLast? with
  | none =>
    rw [getLast?_eq_none_iff] at hlast
    cases found with
    | none => rfl
    | some a => simp [hlast] at h
  | some a => exact ((h a).mp (mem_of_getLast? hlast)).symm

theorem keptAt_iff {i : Json} (hn : i.get "id" = .int n) : keptAt rt text i = true ↔ text = n.repr := by
  have hrepr : toString (n : Int) = n.repr := rfl
  unfold keptAt
  rw [hn]
  simp only [str, Python.repr, hrepr, decide_eq_true_eq]
  exact eq_comm

/-- What is found under an id that is read as a number is the item of that number. -/
theorem byId_of_answer (law : rt.unicode.Digits) {item : Int → Option Json}
    (hpayload : ∀ i, i ∈ payload ↔ ∃ id ∈ ids, item id = some i)
    (hnamed : ∀ id i, item id = some i → ∃ n : Nat, id = n ∧ i.get "id" = .int n)
    (hid : numberOf rt text = some id) (hmem : id ∈ ids) :
    byId rt payload text = (item id).filter (keptAt rt text) := by
  apply getLast?_of_mem_iff
  intro i
  rw [mem_filter, Option.filter_eq_some_iff, hpayload]
  constructor
  · intro h
    obtain ⟨⟨id', -, hitem⟩, hkept⟩ := h
    obtain ⟨n, rfl, hn⟩ := hnamed id' i hitem
    rw [numberOf_repr law ((keptAt_iff hn).mp hkept) hid]
    exact ⟨hitem, hkept⟩
  · intro h
    exact ⟨⟨id, hmem, h.1⟩, h.2⟩

/-- What an entity finds in the answer for its batch is what it finds in its own. -/
theorem stateIn_eq (law : rt.unicode.Digits) {item : Int → Option Json}
    (hpayload : ∀ i, i ∈ payload ↔ ∃ id ∈ ids, item id = some i)
    (hnamed : ∀ id i, item id = some i → ∃ n : Nat, id = n ∧ i.get "id" = .int n)
    {e : CurrentStateIdentity} (hid : numberOf rt e.externalId = some id) (hmem : id ∈ ids) :
    stateIn rt payload parentId e = match (item id).filter (keptAt rt e.externalId) with
      | none => some (.error notReturned)
      | some i => (recordOf rt parentId i).map .ok := by
  have hstate := byId_of_answer law hpayload hnamed hid hmem
  cases hkept : (item id).filter (keptAt rt e.externalId) <;> simp [stateIn, hstate, hkept]

/-- Of what is answered for one id, everything kept under its text is one item. -/
theorem Answering.kept (law : rt.unicode.Digits) (h : Answering ask) (hask : ask [id] = .ok payload)
    (hid : numberOf rt text = some id)
    (P : Json → Prop) : (∀ item, byId rt payload text = some item → P item) ↔
      ∀ item ∈ payload, keptAt rt text item = true → P item := by
  constructor
  · intro hfound i hi hkept
    apply hfound
    cases h with
    | wide code message httpStatus retryable answers =>
      rw [answers] at hask
      cases hask
    | each rejected item rejects answers named =>
      have hgood : ∀ id' ∈ [id], ¬rejected id' := by
        intro id' hid' hbad
        obtain ⟨message, status, retryable, -, -, hfails⟩ := rejects [id] ⟨id', hid', hbad⟩
        rw [hask] at hfails
        cases hfails
      obtain ⟨own, hown, hitems⟩ := answers [id] hgood
      cases hask.symm.trans hown
      rw [byId_of_answer law hitems named hid (mem_singleton_self id)]
      obtain ⟨id', hid', hitem⟩ := (hitems i).mp hi
      rw [mem_singleton.mp hid'] at hitem
      exact Option.filter_eq_some_iff.mpr ⟨hitem, hkept⟩
  · intro hall i hi
    obtain ⟨hmem, hkept⟩ := mem_filter.mp (mem_of_getLast? hi)
    exact hall i hmem hkept

theorem mapM_none_mem (h : l.mapM (fun e => numberOf rt e.externalId) = none) :
    ∃ e ∈ l, numberOf rt e.externalId = none := by
  induction l with
  | nil => cases h
  | cons e l ih =>
    cases he : numberOf rt e.externalId with
    | none => exact ⟨e, mem_cons_self, he⟩
    | some id =>
      cases hl : l.mapM (fun e => numberOf rt e.externalId) with
      | none =>
        obtain ⟨d, hd, hnone⟩ := ih hl
        exact ⟨d, mem_cons_of_mem _ hd, hnone⟩
      | some ids =>
        rw [mapM_cons, he, hl] at h
        cases h

theorem load_unread (h : numberOf rt e.externalId = none) : load rt ask [e] = .error .raised := by
  unfold load
  simp [h]

theorem load_read {e : CurrentStateIdentity} (h : numberOf rt e.externalId = some id) :
    load rt ask [e] = ask [id] := by
  apply load_eq
  simp [h]

theorem Answering.not_raised (h : Answering ask) (ids : List Int) : ask ids ≠ .error .raised := by
  intro hraised
  cases h with
  | wide code message httpStatus retryable answers =>
    rw [answers] at hraised
    cases hraised
  | each rejected item rejects answers named =>
    by_cases hbad : ∃ id ∈ ids, rejected id
    · obtain ⟨message, status, retryable, -, -, hask⟩ := rejects ids hbad
      rw [hask] at hraised
      cases hraised
    · push Not at hbad
      obtain ⟨payload, hask, -⟩ := answers ids hbad
      rw [hask] at hraised
      cases hraised

/-- A failure that is not worked off in halves is each item's own. -/
theorem Answering.failure (h : Answering ask)
    (hfails : ask ids = .error (.connectorError code message httpStatus retryable))
    (hkept : isolatable code httpStatus = false) :
    ∀ ids, ask ids = .error (.connectorError code message httpStatus retryable) := by
  cases h with
  | wide code' message' httpStatus' retryable' answers =>
    rw [answers] at hfails
    cases hfails
    exact answers
  | each rejected item rejects answers named =>
    by_cases hbad : ∃ id ∈ ids, rejected id
    · obtain ⟨message', status, retryable', hlow, hhigh, hask⟩ := rejects ids hbad
      rw [hask] at hfails
      cases hfails
      simp [isolatable, hlow, hhigh] at hkept
    · push Not at hbad
      obtain ⟨payload, hask, -⟩ := answers ids hbad
      rw [hask] at hfails
      cases hfails

/-- Where a batch is answered, each of its entities finds there what it finds alone. -/
theorem Answering.found (law : rt.unicode.Digits) (h : Answering ask)
    (hask : ask ids = .ok payload) {e : CurrentStateIdentity}
    (hid : numberOf rt e.externalId = some id) (hmem : id ∈ ids) :
    stateOf rt ask parentId e = stateIn rt payload parentId e := by
  cases h with
  | wide code message httpStatus retryable answers =>
    rw [answers] at hask
    cases hask
  | each rejected item rejects answers named =>
    have hgood : ∀ id ∈ ids, ¬rejected id := by
      intro id hid hbad
      obtain ⟨message, status, retryable, -, -, hfails⟩ := rejects ids ⟨id, hid, hbad⟩
      rw [hask] at hfails
      cases hfails
    have halone : ∀ id' ∈ [id], ¬rejected id' := by
      intro id' hid'
      rw [mem_singleton.mp hid']
      exact hgood id hmem
    obtain ⟨all, hall, hpayload⟩ := answers ids hgood
    obtain ⟨own, hown, hitems⟩ := answers [id] halone
    cases hask.symm.trans hall
    have hload : load rt ask [e] = .ok own := (load_read hid).trans hown
    unfold stateOf
    rw [hload]
    calc stateIn rt own parentId e
        = _ := stateIn_eq law hitems named hid (mem_singleton_self id)
      _ = stateIn rt payload parentId e := (stateIn_eq law hpayload named hid hmem).symm

theorem fold_unread (he : e ∈ l) (hnone : numberOf rt e.externalId = none) (t : Tables) :
    l.foldlM (fun t e => (stateOf rt ask parentId e).map (t.add e.key)) t = none := by
  rw [← Option.isNone_iff_eq_none, ← Option.not_isSome, Bool.not_eq_true', ← Bool.not_eq_true,
    foldlM_isSome_iff]
  intro hall
  have hsome := hall e he
  unfold stateOf at hsome
  rw [load_unread hnone] at hsome
  cases hsome

/-- A batch that fails whole, in an error its halves would have too, is an error of each entity. -/
theorem fold_failure (hread : ∀ e ∈ l, ∃ id, numberOf rt e.externalId = some id)
    (hfails : ∀ ids, ask ids = .error (.connectorError code message httpStatus retryable))
    (t : Tables) : l.foldlM (fun t e => (stateOf rt ask parentId e).map (t.add e.key)) t =
      some (l.foldl (fun t e => t.add e.key (.error (errorOf code message retryable))) t) := by
  rw [← foldlM_some]
  apply foldlM_congr_mem
  intro e he t
  obtain ⟨id, hid⟩ := hread e he
  have hload : load rt ask [e] = _ := (load_read hid).trans (hfails [id])
  unfold stateOf
  rw [hload]
  rfl

theorem fetchStateBatchIsolated_step (law : rt.unicode.Digits) (h : Answering ask)
    (hne : l ≠ []) (t : Tables) :
    fetchStateBatchIsolated rt ask parentId l t =
        l.foldlM (fun t e => (stateOf rt ask parentId e).map (t.add e.key)) t ∨
      1 < l.length ∧ fetchStateBatchIsolated rt ask parentId l t =
        (fetchStateBatchIsolated rt ask parentId (l.take (l.length / 2)) t).bind
          (fetchStateBatchIsolated rt ask parentId (l.drop (l.length / 2))) := by
  have hempty : l.isEmpty = false := by simpa using hne
  by_cases hone : l.length = 1
  · obtain ⟨e, rfl⟩ := length_eq_one_iff.mp hone
    rw [fetch_alone]
    simp
  have hmany : 1 < l.length := by
    have := length_pos_iff.mpr hne
    omega
  rw [fetchStateBatchIsolated, hempty, if_neg Bool.false_ne_true]
  cases hids : l.mapM (fun e => numberOf rt e.externalId) with
  | none =>
    obtain ⟨e, he, hnone⟩ := mapM_none_mem hids
    have hload : load rt ask l = .error .raised := by
      unfold load
      rw [hids]
    left
    rw [hload, fold_unread he hnone]
  | some ids =>
    have hread : ∀ e ∈ l, ∃ id ∈ ids, numberOf rt e.externalId = some id := by
      intro e he
      obtain ⟨id, hid⟩ := number_of_mem hids he
      exact ⟨id, (numbers_mem hids).mpr ⟨e, he, hid⟩, hid⟩
    rw [load_eq hids]
    cases hask : ask ids with
    | error failure =>
      cases failure with
      | raised => exact absurd hask (h.not_raised ids)
      | connectorError code message httpStatus retryable =>
        cases hkept : isolatable code httpStatus with
        | true => exact .inr ⟨hmany, if_pos ⟨hkept, hmany⟩⟩
        | false =>
          left
          rw [fold_failure (fun e he => (hread e he).imp fun _ h => h.2) (h.failure hask hkept)]
          exact if_neg fun hand => Bool.false_ne_true (hkept.symm.trans hand.1)
    | ok payload =>
      left
      apply foldlM_congr_mem
      intro e he t
      obtain ⟨id, hmem, hid⟩ := hread e he
      rw [h.found law hask hid hmem]

/-- A batch gives its entities what each of them gets alone. -/
theorem fetchStateBatchIsolated_eq (law : rt.unicode.Digits) (h : Answering ask)
    (l : List CurrentStateIdentity) (t : Tables) :
    fetchStateBatchIsolated rt ask parentId l t =
      l.foldlM (fun t e => (stateOf rt ask parentId e).map (t.add e.key)) t := by
  have hnil : ∀ t, fetchStateBatchIsolated rt ask parentId [] t = some t := by
    intro t
    unfold fetchStateBatchIsolated
    rfl
  exact foldlM_of_halves hnil (fun l t hne => fetchStateBatchIsolated_step law h hne t) l t

theorem fetchStateBatches_eq (law : rt.unicode.Digits) (h : Answering ask)
    (l : List CurrentStateIdentity) (t : Tables) :
    fetchStateBatches rt ask parentId l t =
      l.foldlM (fun t e => (stateOf rt ask parentId e).map (t.add e.key)) t := by
  conv_rhs => rw [← flatten_slices (by decide : 0 < 100) l, foldlM_flatten]
  apply foldlM_congr_mem
  intro batch _ t
  exact fetchStateBatchIsolated_eq law h batch t

section

variable (rt) (provider : Provider)

/-- The record or the error of an entity of a request by itself; none where that request raises. -/
def entityState (e : CurrentStateIdentity) : Option State :=
  if !isDigits rt.unicode e.externalId then some (.error (notNumeric "product"))
  else
    match e.parentExternalId with
    | none => stateOf rt provider.products none e
    | some parent =>
      if !isDigits rt.unicode parent then some (.error (notNumeric "parent product"))
      else (numberOf rt parent).bind fun id => stateOf rt (provider.variations id) (some id) e

/-- Each entity on its own, one after the other. -/
def ownStates (l : List CurrentStateIdentity) (t : Tables) : Option Tables :=
  l.foldlM (fun t e => (entityState rt provider e).map (t.add e.key)) t

/-- How the entities so far are parted: those with an error already, and the others where they are
asked for. -/
structure Parted (parts : Parts) (settled done : List CurrentStateIdentity) : Prop where
  perm : (settled ++ parts.simple ++ parts.variations.flatMap Prod.snd).Perm done
  tables : ownStates rt provider settled {} = some parts.tables
  simple : ∀ e ∈ parts.simple, entityState rt provider e = stateOf rt provider.products none e
  variations : ∀ group ∈ parts.variations, ∀ e ∈ group.2,
    entityState rt provider e = stateOf rt (provider.variations group.1) (some group.1) e

end

variable {provider : Provider} {parts : Parts} {settled done : List CurrentStateIdentity}
  {e : CurrentStateIdentity}

theorem perm_addVariation (parent : Int) (e : CurrentStateIdentity)
    (groups : List (Int × List CurrentStateIdentity)) :
    ((addVariation parent e groups).flatMap Prod.snd).Perm (groups.flatMap Prod.snd ++ [e]) := by
  induction groups with
  | nil => simp [addVariation]
  | cons group groups ih =>
    unfold addVariation
    split
    · rw [flatMap_cons, flatMap_cons, append_assoc, append_assoc]
      exact perm_append_comm.append_left _
    · rw [flatMap_cons, flatMap_cons, append_assoc]
      exact ih.append_left _

variable {parent : Int} {t : Tables}

theorem mem_addVariation (hgroup : group ∈ addVariation parent e groups) (hd : d ∈ group.2) :
    (∃ old ∈ groups, old.1 = group.1 ∧ d ∈ old.2) ∨ group.1 = parent ∧ d = e := by
  induction groups with
  | nil =>
    rw [addVariation, mem_singleton] at hgroup
    rw [hgroup] at hd ⊢
    exact .inr ⟨rfl, mem_singleton.mp hd⟩
  | cons first groups ih =>
    unfold addVariation at hgroup
    split at hgroup
    · rename_i hsame
      cases mem_cons.mp hgroup with
      | inl heq =>
        rw [heq] at hd ⊢
        cases mem_append.mp hd with
        | inl hd => exact .inl ⟨first, mem_cons_self, rfl, hd⟩
        | inr hd => exact .inr ⟨hsame, mem_singleton.mp hd⟩
      | inr hgroup => exact .inl ⟨group, mem_cons_of_mem _ hgroup, rfl, hd⟩
    · cases mem_cons.mp hgroup with
      | inl heq =>
        rw [heq] at hd ⊢
        exact .inl ⟨first, mem_cons_self, rfl, hd⟩
      | inr hgroup =>
        cases ih hgroup with
        | inl h =>
          obtain ⟨old, hold, h⟩ := h
          exact .inl ⟨old, mem_cons_of_mem _ hold, h⟩
        | inr h => exact .inr h

theorem Parted.settle (h : Parted rt provider parts settled done) {error : CurrentStateError}
    (hstate : entityState rt provider e = some (.error error)) :
    Parted rt provider { parts with tables := parts.tables.add e.key (.error error) }
      (settled ++ [e]) (done ++ [e]) where
  perm := by
    have hmove : (settled ++ [e] ++ parts.simple ++ parts.variations.flatMap Prod.snd).Perm
        (settled ++ parts.simple ++ parts.variations.flatMap Prod.snd ++ [e]) := by
      rw [append_assoc, append_assoc, append_assoc, append_assoc]
      refine Perm.append_left settled ?_
      rw [← append_assoc parts.simple]
      exact perm_append_comm
    exact hmove.trans (h.perm.append_right [e])
  tables := by
    have htables := h.tables
    unfold ownStates at htables ⊢
    rw [foldlM_append, htables]
    simp [hstate]
  simple := h.simple
  variations := h.variations

theorem Parted.add_simple (h : Parted rt provider parts settled done)
    (hstate : entityState rt provider e = stateOf rt provider.products none e) :
    Parted rt provider { parts with simple := parts.simple ++ [e] } settled (done ++ [e]) where
  perm := by
    have hmove : (settled ++ (parts.simple ++ [e]) ++ parts.variations.flatMap Prod.snd).Perm
        (settled ++ parts.simple ++ parts.variations.flatMap Prod.snd ++ [e]) := by
      rw [← append_assoc settled, append_assoc _ [e], append_assoc _ _ [e]]
      exact perm_append_comm.append_left _
    exact hmove.trans (h.perm.append_right [e])
  tables := h.tables
  simple := by
    intro d hd
    cases mem_append.mp hd with
    | inl hd => exact h.simple d hd
    | inr hd =>
      rw [mem_singleton.mp hd]
      exact hstate
  variations := h.variations

theorem Parted.add_variation (h : Parted rt provider parts settled done)
    (hstate : entityState rt provider e = stateOf rt (provider.variations parent) (some parent) e) :
    Parted rt provider { parts with variations := addVariation parent e parts.variations } settled
      (done ++ [e]) where
  perm := by
    have hmove := (perm_addVariation parent e parts.variations).append_left (settled ++ parts.simple)
    rw [← append_assoc] at hmove
    exact hmove.trans (h.perm.append_right [e])
  tables := h.tables
  simple := h.simple
  variations := by
    intro group hgroup d hd
    cases mem_addVariation hgroup hd with
    | inl hold =>
      obtain ⟨old, hold, hparent, hd⟩ := hold
      rw [← hparent]
      exact h.variations old hold d hd
    | inr hnew =>
      rw [hnew.1, hnew.2]
      exact hstate

/-- Where an entity is placed, its part gives it its own state; where it is not, it has none. -/
theorem Parted.place (h : Parted rt provider parts settled done) (e : CurrentStateIdentity) :
    (∃ parts' settled', parts.place rt e = some parts' ∧ Parted rt provider parts' settled' (done ++ [e])) ∨
    parts.place rt e = none ∧ entityState rt provider e = none := by
  unfold Parts.place
  by_cases hdigit : isDigits rt.unicode e.externalId = true
  · cases hparent : e.parentExternalId with
    | none =>
      have hstate : entityState rt provider e = stateOf rt provider.products none e := by
        simp [entityState, hdigit, hparent]
      simpa [hdigit] using ⟨settled, h.add_simple hstate⟩
    | some parent =>
      by_cases hnumeric : isDigits rt.unicode parent = true
      · cases hid : numberOf rt parent with
        | none =>
          simp [entityState, hdigit, hparent, hnumeric, hid]
        | some id =>
          have hstate : entityState rt provider e = stateOf rt (provider.variations id) (some id) e := by
            simp [entityState, hdigit, hparent, hnumeric, hid]
          simpa [hdigit, hnumeric, hid] using ⟨settled, h.add_variation hstate⟩
      · have hstate : entityState rt provider e = some (.error (notNumeric "parent product")) := by
          simp [entityState, hdigit, hparent, hnumeric]
        simpa [hdigit, hnumeric] using ⟨settled ++ [e], h.settle hstate⟩
  · have hstate : entityState rt provider e = some (.error (notNumeric "product")) := by
      simp [entityState, hdigit]
    simpa [hdigit] using ⟨settled ++ [e], h.settle hstate⟩

theorem Parted.fold (h : Parted rt provider parts settled done) (l : List CurrentStateIdentity) :
    (∃ parts' settled', l.foldlM (Parts.place rt) parts = some parts' ∧
      Parted rt provider parts' settled' (done ++ l)) ∨
    l.foldlM (Parts.place rt) parts = none ∧ ∃ e ∈ l, entityState rt provider e = none := by
  induction l generalizing parts settled done with
  | nil =>
    simpa using ⟨settled, h⟩
  | cons e l ih =>
    rw [foldlM_cons]
    cases h.place e with
    | inl hplaced =>
      obtain ⟨next, settled', hnext, hparted⟩ := hplaced
      rw [hnext, Option.bind_eq_bind, Option.bind_some]
      cases ih hparted with
      | inl hrest =>
        rw [append_assoc] at hrest
        exact .inl hrest
      | inr hrest =>
        obtain ⟨d, hd, hnone⟩ := hrest.2
        exact .inr ⟨hrest.1, d, mem_cons_of_mem _ hd, hnone⟩
    | inr hraises =>
      rw [hraises.1]
      exact .inr ⟨rfl, e, mem_cons_self, hraises.2⟩

theorem ownStates_simple (law : rt.unicode.Digits) (h : provider.Answers)
    (hparted : Parted rt provider parts settled done) (t : Tables) :
    fetchStateBatches rt provider.products none parts.simple t = ownStates rt provider parts.simple t := by
  rw [fetchStateBatches_eq law h.products]
  apply foldlM_congr_mem
  intro e he t
  rw [hparted.simple e he]

theorem ownStates_variations (law : rt.unicode.Digits) (h : provider.Answers)
    (hparted : Parted rt provider parts settled done) (t : Tables) :
    parts.variations.foldlM
        (fun t (parent, es) => fetchStateBatches rt (provider.variations parent) (some parent) es t) t =
      ownStates rt provider (parts.variations.flatMap Prod.snd) t := by
  unfold ownStates
  rw [flatMap_def, foldlM_flatten, foldlM_map]
  apply foldlM_congr_mem
  intro group hgroup t
  have hstates : fetchStateBatches rt (provider.variations group.1) (some group.1) group.2 t =
      ownStates rt provider group.2 t := by
    rw [fetchStateBatches_eq law (h.variations group.1)]
    apply foldlM_congr_mem
    intro e he t
    rw [hparted.variations group hgroup e he]
  exact hstates

/-- The entities are given their own states, in some order. -/
theorem fetchTables_order (law : rt.unicode.Digits) (h : provider.Answers)
    (entities : List CurrentStateIdentity) : ∃ order : List CurrentStateIdentity,
      order.Perm entities ∧ fetchTables rt provider entities = ownStates rt provider order {} := by
  have hstart : Parted rt provider {} [] [] := by
    refine ⟨.refl _, rfl, ?_, ?_⟩ <;> simp
  unfold fetchTables
  cases hstart.fold entities with
  | inl hplaced =>
    obtain ⟨parts, settled, hparts, hparted⟩ := hplaced
    refine ⟨settled ++ parts.simple ++ parts.variations.flatMap Prod.snd, hparted.perm, ?_⟩
    have happend : ∀ l l' t, ownStates rt provider (l ++ l') t =
        (ownStates rt provider l t).bind (ownStates rt provider l') :=
      fun l l' t => foldlM_append
    rw [hparts, happend, happend, hparted.tables]
    simp only [Option.bind_eq_bind, Option.bind_some]
    rw [ownStates_simple law h hparted]
    exact bind_congr fun t => ownStates_variations law h hparted t
  | inr hraises =>
    refine ⟨entities, .refl _, ?_⟩
    rw [hraises.1, Option.bind_eq_bind, Option.bind_none, eq_comm, ← Option.isNone_iff_eq_none,
      ← Option.not_isSome, Bool.not_eq_true', ← Bool.not_eq_true]
    intro hsome
    obtain ⟨e, he, hnone⟩ := hraises.2
    have hown := foldlM_isSome_iff.mp hsome e he
    rw [hnone] at hown
    cases hown

def Tables.Gives (t : Tables) (key : Id) : State → Prop
  | .ok record => (key, record) ∈ t.records
  | .error error => (key, error) ∈ t.errors

def Tables.keys (t : Tables) : List Id := t.records.map Prod.fst ++ t.errors.map Prod.fst

theorem Tables.gives_add (t : Tables) (key key' : Id) (s s' : State) :
    (t.add key s).Gives key' s' ↔ t.Gives key' s' ∨ key = key' ∧ s = s' := by
  cases s <;> cases s' <;> simp [Tables.add, Tables.Gives, eq_comm]

theorem Tables.keys_add (t : Tables) (key : Id) (s : State) : (t.add key s).keys.Perm (t.keys ++ [key]) := by
  cases s with
  | ok record =>
    simp only [Tables.add, Tables.keys, map_append, append_assoc]
    exact perm_append_comm.append_left _
  | error error => simp [Tables.add, Tables.keys]

theorem ownStates_gives (h : ownStates rt provider l t = some t') (key : Id) (s : State) :
    t'.Gives key s ↔ t.Gives key s ∨ ∃ e ∈ l, e.key = key ∧ entityState rt provider e = some s := by
  unfold ownStates at h
  induction l generalizing t with
  | nil =>
    cases h
    simp
  | cons e l ih =>
    rw [foldlM_cons] at h
    cases hstate : entityState rt provider e with
    | none =>
      rw [hstate] at h
      cases h
    | some own =>
      rw [hstate] at h
      rw [ih h, Tables.gives_add, or_assoc]
      simp [hstate]

theorem ownStates_keys (h : ownStates rt provider l t = some t') :
    t'.keys.Perm (t.keys ++ l.map CurrentStateIdentity.key) := by
  unfold ownStates at h
  induction l generalizing t with
  | nil =>
    cases h
    simp
  | cons e l ih =>
    rw [foldlM_cons] at h
    cases hstate : entityState rt provider e with
    | none =>
      rw [hstate] at h
      cases h
    | some own =>
      rw [hstate] at h
      have hadd := (t.keys_add e.key own).append_right (l.map CurrentStateIdentity.key)
      rw [append_assoc] at hadd
      exact (ih h).trans hadd

section

variable (rt) (provider : Provider) (req : CurrentStateRequest)

/-- The id of an entity is a number for `int`, and what its stock is given as one for `float`. -/
def Readable (ask : List Int → Except Failure (List Json)) (e : CurrentStateIdentity) : Prop :=
  ∃ id, numberOf rt e.externalId = some id ∧ ∀ payload, ask [id] = .ok payload →
    ∀ item ∈ payload, keptAt rt e.externalId item = true → (stockOf rt item).isSome = true

/-- What an entity is asked for under can be read. -/
def Legible (e : CurrentStateIdentity) : Prop :=
  isDigits rt.unicode e.externalId = true → match e.parentExternalId with
    | none => Readable rt provider.products e
    | some parent => isDigits rt.unicode parent = true →
        ∃ id, numberOf rt parent = some id ∧ Readable rt (provider.variations id) e

/-- A request gives each of its entities one record or one error, the one the entity gets alone. -/
def BatchedAsAlone : Prop :=
  ∃ result, fetchCurrentState rt provider req = some (.ok result) ∧ result.OneEach req ∧
    ∀ e, ∀ he : e ∈ req.entities, ∃ own, fetchCurrentState rt provider (req.only he) = some (.ok own) ∧
      ∀ s, result.Gives e.key s ↔ own.Gives e.key s

end

theorem recordOf_isSome (item : Json) : (recordOf rt parentId item).isSome = (stockOf rt item).isSome := by
  unfold recordOf
  cases stockOf rt item <;> rfl

theorem stateIn_isSome_iff : (stateIn rt payload parentId e).isSome = true ↔
      ∀ item, byId rt payload e.externalId = some item → (stockOf rt item).isSome = true := by
  unfold stateIn
  cases hitem : byId rt payload e.externalId with
  | none => simp
  | some item => simp [recordOf_isSome]

theorem stateOf_isSome_iff (law : rt.unicode.Digits) (h : Answering ask) :
    (stateOf rt ask parentId e).isSome = true ↔ Readable rt ask e := by
  unfold Readable
  cases hid : numberOf rt e.externalId with
  | none =>
    unfold stateOf
    rw [load_unread hid]
    simp
  | some id =>
    have hread : load rt ask [e] = ask [id] := load_read hid
    unfold stateOf
    rw [hread]
    cases hask : ask [id] with
    | error failure =>
      cases failure with
      | raised => exact absurd hask (h.not_raised [id])
      | connectorError code message httpStatus retryable => simp [hask]
    | ok payload =>
      rw [stateIn_isSome_iff, h.kept law hask hid]
      simp [hask]

theorem entityState_isSome_iff (law : rt.unicode.Digits) (h : provider.Answers) :
    (entityState rt provider e).isSome = true ↔ Legible rt provider e := by
  unfold entityState Legible
  by_cases hdigit : isDigits rt.unicode e.externalId = true
  · cases hparent : e.parentExternalId with
    | none => simpa [hdigit] using stateOf_isSome_iff law h.products
    | some parent =>
      by_cases hnumeric : isDigits rt.unicode parent = true
      · cases hid : numberOf rt parent with
        | none => simp [hdigit, hnumeric, hid]
        | some id => simpa [hdigit, hnumeric, hid] using stateOf_isSome_iff law (h.variations id)
      · simp [hdigit, hnumeric]
  · simp [hdigit]

/-- The tables are made where every entity can be read. -/
theorem fetchTables_isSome_iff (law : rt.unicode.Digits) (h : provider.Answers)
    (entities : List CurrentStateIdentity) :
    (fetchTables rt provider entities).isSome = true ↔ ∀ e ∈ entities, Legible rt provider e := by
  obtain ⟨order, hperm, horder⟩ := fetchTables_order law h entities
  rw [horder]
  unfold ownStates
  rw [foldlM_isSome_iff]
  constructor
  · intro hall e he
    exact (entityState_isSome_iff law h).mp (hall e (hperm.mem_iff.mpr he))
  · intro hall e he
    exact (entityState_isSome_iff law h).mpr (hall e (hperm.mem_iff.mp he))

theorem fetch_primary (hchannel : req.channelId = "woocommerce:primary") :
    fetchCurrentState rt provider req = (fetchTables rt provider req.entities).map fun t =>
      CurrentStateResult.postInit t.records t.errors req.entities.length t.records.length :=
  if_neg (not_not.mpr hchannel)

/-- A request that is answered has one record or one error of each entity, its own. -/
theorem fetch_answers (law : rt.unicode.Digits) (h : provider.Answers)
    (hchannel : req.channelId = "woocommerce:primary")
    (hlegible : ∀ e ∈ req.entities, Legible rt provider e) :
    ∃ result, fetchCurrentState rt provider req = some (.ok result) ∧ result.OneEach req ∧
      ∀ key s, result.Gives key s ↔ ∃ e ∈ req.entities, e.key = key ∧ entityState rt provider e = some s := by
  obtain ⟨t, ht⟩ := Option.isSome_iff_exists.mp
    ((fetchTables_isSome_iff law h req.entities).mpr hlegible)
  obtain ⟨order, hperm, horder⟩ := fetchTables_order law h req.entities
  have hown := horder.symm.trans ht
  have hkeys : t.keys.Perm (req.entities.map CurrentStateIdentity.key) :=
    (ownStates_keys hown).trans (hperm.map _)
  obtain ⟨result, hresult, hrecords, herrors, heach⟩ := CurrentStateResult.postInit_oneEach hkeys
  refine ⟨result, ?_, heach, ?_⟩
  · rw [fetch_primary hchannel, ht, Option.map_some, hresult]
  intro key s
  have hgives : result.Gives key s ↔ t.Gives key s := by
    cases s with
    | ok record =>
      unfold CurrentStateResult.Gives Tables.Gives
      rw [hrecords]
    | error error =>
      unfold CurrentStateResult.Gives Tables.Gives
      rw [herrors]
  have hempty : ¬Tables.Gives {} key s := by
    cases s <;> exact not_mem_nil
  rw [hgives, ownStates_gives hown, or_iff_right hempty]
  constructor
  · intro hfound
    obtain ⟨e, he, hstate⟩ := hfound
    exact ⟨e, hperm.mem_iff.mp he, hstate⟩
  · intro hfound
    obtain ⟨e, he, hstate⟩ := hfound
    exact ⟨e, hperm.mem_iff.mpr he, hstate⟩

theorem failed_oneEach (req : CurrentStateRequest) (category message : String) :
    (failedCurrentState req category message).OneEach req := by
  unfold CurrentStateResult.OneEach failedCurrentState
  rw [map_map]
  exact .refl _

theorem failed_gives (key : Id) (s : State) : (failedCurrentState req category message).Gives key s ↔
      (∃ e ∈ req.entities, e.key = key) ∧ s = .error { category, message } := by
  cases s with
  | ok record => simp [CurrentStateResult.Gives, failedCurrentState]
  | error error =>
    simp only [CurrentStateResult.Gives, failedCurrentState, mem_map, Prod.mk.injEq, Except.error.injEq]
    constructor
    · intro hfound
      obtain ⟨e, he, hkey, herror⟩ := hfound
      exact ⟨⟨e, he, hkey⟩, herror.symm⟩
    · intro hfound
      obtain ⟨⟨e, he, hkey⟩, herror⟩ := hfound
      exact ⟨e, he, hkey, herror.symm⟩

/-- A request gives its entities what they get alone exactly where it is for another channel or the
ids and stocks it comes to read are numbers. -/
theorem batchedAsAlone_iff (law : rt.unicode.Digits) (h : provider.Answers)
    (req : CurrentStateRequest) : BatchedAsAlone rt provider req ↔
      req.channelId ≠ "woocommerce:primary" ∨ ∀ e ∈ req.entities, Legible rt provider e := by
  by_cases hchannel : req.channelId = "woocommerce:primary"
  · rw [or_iff_right (not_not.mpr hchannel)]
    constructor
    · intro hbatched
      obtain ⟨result, hresult, -⟩ := hbatched
      rw [fetch_primary hchannel] at hresult
      obtain ⟨t, ht, -⟩ := Option.map_eq_some_iff.mp hresult
      exact (fetchTables_isSome_iff law h req.entities).mp (Option.isSome_of_eq_some ht)
    · intro hlegible
      obtain ⟨result, hresult, heach, hgives⟩ := fetch_answers law h hchannel hlegible
      refine ⟨result, hresult, heach, ?_⟩
      intro e he
      have hone : ∀ d ∈ (req.only he).entities, Legible rt provider d := by
        intro d hd
        rw [mem_singleton.mp hd]
        exact hlegible e he
      have hprimary : (req.only he).channelId = "woocommerce:primary" := hchannel
      obtain ⟨own, hown, -, hgivesOwn⟩ := fetch_answers law h hprimary hone
      refine ⟨own, hown, ?_⟩
      intro s
      rw [hgives, hgivesOwn]
      constructor
      · intro hfound
        obtain ⟨d, hd, hkey, hstate⟩ := hfound
        have hsame : d = e := inj_on_of_nodup_map req.distinct hd he hkey
        rw [hsame] at hstate
        exact ⟨e, mem_singleton_self e, rfl, hstate⟩
      · intro hfound
        obtain ⟨d, hd, hkey, hstate⟩ := hfound
        rw [mem_singleton.mp hd] at hstate
        exact ⟨e, he, rfl, hstate⟩
  · constructor
    · intro _
      exact .inl hchannel
    · intro _
      refine ⟨_, if_pos hchannel, failed_oneEach req _ _, ?_⟩
      intro e he
      refine ⟨_, if_pos hchannel, ?_⟩
      intro s
      rw [failed_gives, failed_gives]
      have hmem : ∃ d ∈ req.entities, d.key = e.key := ⟨e, he, rfl⟩
      have hself : ∃ d ∈ (req.only he).entities, d.key = e.key := ⟨e, mem_singleton_self e, rfl⟩
      simp [hmem, hself]

namespace Sample

/-- Tables that know of one superscript, which is a digit without being a decimal. -/
def runtime : Runtime where
  unicode := { Unicode.ascii with isDigit := fun c => Unicode.ascii.isDigit c || c == '²' }
  printable _ := true

def item : Json :=
  .obj [("id", .int 7), ("regular_price", .str "12.50"), ("stock_quantity", .int 3),
    ("stock_status", .str "instock"), ("type", .str "simple")]

def store : Provider where
  products ids := .ok (if 7 ∈ ids then [item] else [])
  variations _ _ := .error (.connectorError .providerError "Unavailable." (some 503) true)

def product (key externalId : String) : CurrentStateIdentity where
  key
  externalId
  parentExternalId := none
  sku := none

def request (entities : List CurrentStateIdentity) (keyed : ∀ entity ∈ entities, entity.key ≠ "" := by decide)
    (distinct : (entities.map CurrentStateIdentity.key).Nodup := by decide)
    (identified : ∀ entity ∈ entities, entity.externalId ≠ "" := by decide) : CurrentStateRequest where
  channelId := "woocommerce:primary"
  entities
  requiredFields := [.price]
  keyed
  distinct
  identified

theorem digits : runtime.unicode.Digits := ⟨Unicode.ascii_digits.visible, Unicode.ascii_digits.decimal⟩

theorem answers : store.Answers where
  products := by
    refine .each (fun _ => False) (fun id => if id = 7 then some item else none) ?_ ?_ ?_
    · intro ids hbad
      obtain ⟨id, -, hfalse⟩ := hbad
      exact hfalse.elim
    · intro ids _
      refine ⟨_, rfl, ?_⟩
      by_cases hmem : (7 : Int) ∈ ids <;> simp [hmem, eq_comm]
    · intro id i hitem
      split at hitem
      · rename_i hid
        cases hitem
        exact ⟨7, hid, rfl⟩
      · cases hitem
  variations parent := .wide _ _ _ _ fun _ => rfl

end Sample

open Sample

theorem Sample.legible : Legible runtime Sample.store (product "a" "7") := by
  intro _
  refine ⟨7, by decide +kernel, ?_⟩
  intro payload hpayload i hi _
  cases hpayload
  rw [mem_singleton.mp hi]
  decide +kernel

theorem Sample.not_legible : ¬Legible runtime Sample.store (product "b" "²") := by
  intro hlegible
  obtain ⟨id, hid, -⟩ := hlegible (by decide +kernel)
  have hnone : numberOf runtime "²" = none := by decide +kernel
  exact absurd (hid.symm.trans hnone) (by simp)

theorem requested_with_seven : BatchedAsAlone runtime Sample.store (Sample.request [product "a" "7"]) :=
  (batchedAsAlone_iff Sample.digits Sample.answers _).mpr (.inr fun e he => by
    rw [mem_singleton.mp he]
    exact legible)

/-- A product that has a record alone has none in a request with an id that is a digit and no
number. -/
theorem superscript_raises : fetchCurrentState runtime Sample.store
        (Sample.request [Sample.product "a" "7", Sample.product "b" "²"]) = none ∧
      ¬BatchedAsAlone runtime Sample.store
        (Sample.request [Sample.product "a" "7", Sample.product "b" "²"]) ∧
      ∃ own record, fetchCurrentState runtime Sample.store
        (Sample.request [Sample.product "a" "7"]) = some (.ok own) ∧ own.Gives "a" (.ok record) := by
  have hraises : fetchCurrentState runtime Sample.store
      (Sample.request [Sample.product "a" "7", Sample.product "b" "²"]) = none := by
    rw [fetch_primary rfl, Option.map_eq_none_iff, ← Option.not_isSome_iff_eq_none,
      fetchTables_isSome_iff Sample.digits Sample.answers]
    intro hall
    exact not_legible (hall _ (by simp [Sample.request]))
  refine ⟨hraises, ?_, ?_⟩
  · intro hbatched
    obtain ⟨result, hresult, -⟩ := hbatched
    rw [hraises] at hresult
    cases hresult
  · have hlegible : ∀ e ∈ (Sample.request [Sample.product "a" "7"]).entities,
        Legible runtime Sample.store e := by
      intro e he
      rw [mem_singleton.mp he]
      exact legible
    have hstate : entityState runtime Sample.store (Sample.product "a" "7") =
        (recordOf runtime none item).map .ok := by decide +kernel
    obtain ⟨record, hrecord⟩ := Option.isSome_iff_exists.mp
      (show (recordOf runtime none item).isSome = true by decide +kernel)
    obtain ⟨own, hown, -, hgives⟩ := fetch_answers Sample.digits Sample.answers rfl hlegible
    refine ⟨own, record, hown, (hgives _ _).mpr ⟨_, mem_singleton_self _, rfl, ?_⟩⟩
    rw [hstate, hrecord]
    rfl

end FlowHub.Connectors.WooCommerce
