import FlowHub.Webhooks.Receipts

namespace FlowHub.Webhooks

open Python List Except

/-- What can happen to the receipts of a store. -/
inductive Action where
  | accept (channelId : Id) (provider : Provider) (providerEventId payloadHash : String)
      (event : NormalizedEvent) (now : Time)
  | process (receiptId : Nat) (errorCategory : Option String) (now : Time)
  | replay (receiptId : Nat) (role : String)
  | complete (receiptId : Nat) (now : Time)

/-- The states the order service takes a receipt in. -/
def WebhookReceipt.isOpen (receipt : WebhookReceipt) : Bool :=
  decide (receipt.processingState = .queued) || decide (receipt.processingState = .retryScheduled)

/-- The order service completes a receipt it finds open, and skips any other. -/
def completeReceipt (now : Time) (receiptId : Nat) (db : Db) : Db :=
  match db.receipt receiptId with
  | none => db
  | some receipt => if receipt.isOpen then markReceiptProcessed now receipt db else db

/-- A call that raises leaves the store as it is. -/
def perform (db : Db) : Action → Db
  | .accept channelId provider providerEventId payloadHash event now =>
    { db with receipts := db.receipts ++
        [acceptedReceipt db.nextId channelId provider providerEventId payloadHash event now] }
  | .process receiptId errorCategory now =>
    ((processReceipt now receiptId errorCategory db).map Prod.fst).toOption.getD db
  | .replay receiptId role => (replay role receiptId db).toOption.getD db
  | .complete receiptId now => completeReceipt now receiptId db

def run (db : Db) (actions : List Action) : Db := actions.foldl perform db

/-- What one action does to one store. -/
inductive Move (db : Db) : Action → Db → Prop
  | idle (a : Action) : Move db a db
  | accept {channelId provider providerEventId payloadHash event now} :
      Move db (.accept channelId provider providerEventId payloadHash event now)
        { db with receipts := db.receipts ++
          [acceptedReceipt db.nextId channelId provider providerEventId payloadHash event now] }
  | fail {receipt : WebhookReceipt} {category : String} {now : Time} {error : Option String}
      (found : db.receipt receipt.id = some receipt) (isOpen : receipt.isOpen = true) :
      Move db (.process receipt.id error now) (markReceiptFailed now receipt category db)
  | finish {receipt : WebhookReceipt} {now : Time} {a : Action}
      (found : db.receipt receipt.id = some receipt) (isOpen : receipt.isOpen = true)
      (by_ : ∀ role, a ≠ .replay receipt.id role) :
      Move db a (markReceiptProcessed now receipt db)
  | requeue {receipt : WebhookReceipt} {role : String}
      (found : db.receipt receipt.id = some receipt)
      (unfinished : receipt.processingState ≠ .processed) :
      Move db (.replay receipt.id role) (db.save receipt.requeued)

theorem receipt_some {db : Db} {id : Nat} {receipt : WebhookReceipt}
    (h : db.receipt id = some receipt) : receipt ∈ db.receipts ∧ receipt.id = id :=
  Table.get_some h

theorem processReceipt_cases {now : Time} {receiptId : Nat} {errorCategory : Option String}
    {db db' : Db} {transitioned : Bool}
    (h : processReceipt now receiptId errorCategory db = .ok (db', transitioned)) :
    db' = db ∨ ∃ receipt, db.receipt receiptId = some receipt ∧ receipt.isOpen = true ∧
      waiting now receipt = false ∧ (db' = markReceiptProcessed now receipt db ∨
        ∃ category, errorCategory = some category ∧ db' = markReceiptFailed now receipt category db) := by
  unfold processReceipt at h
  cases hfound : db.receipt receiptId with
  | none => simp [hfound] at h
  | some receipt =>
    simp only [hfound] at h
    by_cases hOpen : receipt.isOpen = true
    · have hstates : receipt.processingState = .queued ∨ receipt.processingState = .retryScheduled := by
        simpa [WebhookReceipt.isOpen] using hOpen
      by_cases hwaiting : waiting now receipt = true
      · rcases hstates with hs | hs
        all_goals
          simp only [hs, hwaiting, if_true, ok.injEq, Prod.mk.injEq] at h
          exact .inl h.1.symm
      · have hwaits := Bool.eq_false_iff.mpr hwaiting
        refine .inr ⟨receipt, rfl, hOpen, hwaits, ?_⟩
        cases hcat : errorCategory.filter (· ≠ "") with
        | none =>
          left
          rcases hstates with hs | hs
          all_goals
            simp only [hs, hwaits, hcat, Bool.false_eq_true, if_false] at h
            simpa using (congrArg Prod.fst (ok.inj h)).symm
        | some category =>
          right
          refine ⟨category, (Option.filter_eq_some_iff.mp hcat).1, ?_⟩
          rcases hstates with hs | hs
          all_goals
            simp only [hs, hwaits, hcat, Bool.false_eq_true, if_false] at h
            simpa using (congrArg Prod.fst (ok.inj h)).symm
    · cases hs : receipt.processingState with
      | processed =>
        simp only [hs, ok.injEq, Prod.mk.injEq] at h
        exact .inl h.1.symm
      | deadLetter => simp [hs] at h
      | queued => simp [WebhookReceipt.isOpen, hs] at hOpen
      | retryScheduled => simp [WebhookReceipt.isOpen, hs] at hOpen

theorem replay_cases {role : String} {receiptId : Nat} {db db' : Db}
    (h : replay role receiptId db = .ok db') :
    db' = db ∨ ∃ receipt, db.receipt receiptId = some receipt ∧
      receipt.processingState ≠ .processed ∧ db' = db.save receipt.requeued := by
  unfold replay at h
  split at h
  · cases h
  cases hfound : db.receipt receiptId with
  | none => simp [hfound] at h
  | some receipt =>
    simp only [hfound] at h
    split at h
    · exact .inl (ok.inj h).symm
    · rename_i hstate
      exact .inr ⟨receipt, rfl, hstate, (ok.inj h).symm⟩

theorem perform_move (db : Db) (a : Action) : Move db a (perform db a) := by
  cases a with
  | accept => exact .accept
  | process receiptId errorCategory now =>
    cases hp : processReceipt now receiptId errorCategory db with
    | error e =>
      simp only [perform, hp, Except.map, Except.toOption, Option.getD_none]
      exact .idle _
    | ok r =>
      simp only [perform, hp, Except.map, Except.toOption, Option.getD_some]
      rcases processReceipt_cases hp with hidle | ⟨receipt, hfound, hOpen, -, hmark⟩
      · rw [hidle]
        exact .idle _
      obtain ⟨-, rfl⟩ := receipt_some hfound
      rcases hmark with hmark | ⟨category, -, hmark⟩
      · rw [hmark]
        exact .finish hfound hOpen (by simp)
      · rw [hmark]
        exact .fail hfound hOpen
  | replay receiptId role =>
    cases hr : replay role receiptId db with
    | error e =>
      simp only [perform, hr, Except.toOption, Option.getD_none]
      exact .idle _
    | ok db' =>
      simp only [perform, hr, Except.toOption, Option.getD_some]
      rcases replay_cases hr with hidle | ⟨receipt, hfound, hstate, hsave⟩
      · rw [hidle]
        exact .idle _
      · obtain ⟨-, rfl⟩ := receipt_some hfound
        rw [hsave]
        exact .requeue hfound hstate
  | complete receiptId now =>
    cases hfound : db.receipt receiptId with
    | none =>
      simp only [perform, completeReceipt, hfound]
      exact .idle _
    | some receipt =>
      by_cases hOpen : receipt.isOpen = true
      · simp only [perform, completeReceipt, hfound, hOpen, if_true]
        obtain ⟨-, rfl⟩ := receipt_some hfound
        exact .finish hfound hOpen (by simp)
      · simp only [perform, completeReceipt, hfound, hOpen]
        exact .idle _

/-- The attempt that leaves `receipt'` of `receipt`, and the dead letter where it is left so. -/
structure Attempted (db db' : Db) (receipt receipt' : WebhookReceipt) : Prop where
  same : receipt'.id = receipt.id
  counted : receipt'.attemptCount = receipt.attemptCount + 1
  receipts : db'.receipts = (db.save receipt').receipts
  attempts : ∃ a, a.receiptId = receipt.id ∧ a.attemptNumber = receipt.attemptCount + 1 ∧
    db'.attempts = db.attempts ++ [a]
  deadLetters : ∃ d, d.receiptId = receipt.id ∧ db'.deadLetters =
    if receipt'.processingState = .deadLetter ∧ db.deadLettersOf receipt.id = [] then
      db.deadLetters ++ [d]
    else db.deadLetters

theorem markReceiptProcessed_attempted (now : Time) (receipt : WebhookReceipt) (db : Db) :
    Attempted db (markReceiptProcessed now receipt db) receipt (receipt.finished now) where
  same := rfl
  counted := rfl
  receipts := rfl
  attempts := ⟨attemptAt (receipt.finished now) none false, rfl, rfl, rfl⟩
  deadLetters := by
    refine ⟨⟨receipt.id, "", ""⟩, rfl, ?_⟩
    simp [markReceiptProcessed, recordAttempt, Db.save, WebhookReceipt.finished]

theorem markReceiptFailed_attempted (now : Time) (receipt : WebhookReceipt) (category : String)
    (db : Db) : Attempted db (markReceiptFailed now receipt category db) receipt
      (receipt.failed now category) where
  same := rfl
  counted := rfl
  receipts := by
    simp only [markReceiptFailed]
    split
    · rfl
    · exact deadLetter_receipts ..
  attempts := by
    refine ⟨attemptAt (receipt.failed now category) (some category) (receipt.retryable category),
      rfl, rfl, ?_⟩
    simp only [markReceiptFailed]
    split
    · rfl
    · exact deadLetter_attempts ..
  deadLetters := by
    refine ⟨⟨receipt.id, receipt.providerEventId, category⟩, rfl, ?_⟩
    cases hretry : receipt.retryable category with
    | false =>
      have hstate : (receipt.failed now category).processingState = .deadLetter := by
        simp [WebhookReceipt.failed, hretry]
      simp only [hstate, markReceiptFailed, hretry, Bool.false_eq_true, if_false,
        deadLetter_deadLetters, true_and]
      rfl
    | true =>
      have hstate : (receipt.failed now category).processingState = .retryScheduled := by
        simp [WebhookReceipt.failed, hretry]
      simp only [hstate, markReceiptFailed, hretry, if_true, reduceCtorEq, false_and, if_false]
      rfl

structure Consistent (db : Db) : Prop where
  ids : (db.receipts.map WebhookReceipt.id).Nodup
  attemptsKnown : ∀ a ∈ db.attempts, a.receiptId ∈ db.receipts.map WebhookReceipt.id
  deadLettersKnown : ∀ d ∈ db.deadLetters, d.receiptId ∈ db.receipts.map WebhookReceipt.id
  numbered : ∀ r ∈ db.receipts,
    (db.attemptsOf r.id).map WebhookProcessingAttempt.attemptNumber = List.range' 1 r.attemptCount
  once : ∀ id, (db.deadLettersOf id).length ≤ 1
  buried : ∀ r ∈ db.receipts, r.processingState = .deadLetter → db.deadLettersOf r.id ≠ []

theorem save_ids (db : Db) (receipt : WebhookReceipt) :
    (db.save receipt).receipts.map WebhookReceipt.id = db.receipts.map WebhookReceipt.id := by
  simp only [Db.save, Table.set, map_map]
  apply map_congr_left
  intro r _
  by_cases h : r.id = receipt.id
  · simp [h]
  · simp [h]

theorem mem_save {db : Db} {receipt r : WebhookReceipt} (h : r ∈ (db.save receipt).receipts) :
    r = receipt ∨ r ∈ db.receipts ∧ r.id ≠ receipt.id := by
  rcases Table.mem_set.mp h with ⟨_, _, _, rfl⟩ | hother
  · exact .inl rfl
  · exact .inr hother

theorem Consistent.accept {db : Db} (h : Consistent db) (channelId : Id) (provider : Provider)
    (providerEventId payloadHash : String) (event : NormalizedEvent) (now : Time) :
    Consistent { db with receipts := db.receipts ++
      [acceptedReceipt db.nextId channelId provider providerEventId payloadHash event now] } := by
  have hfresh := nextId_notMem db
  refine ⟨?_, fun a ha => ?_, fun d hd => ?_, fun r hr => ?_, h.once, fun r hr hstate => ?_⟩
  · rw [map_append, nodup_append]
    refine ⟨h.ids, by simp, fun id hid other hother => ?_⟩
    obtain rfl : other = db.nextId := by simpa [acceptedReceipt] using hother
    exact fun heq => hfresh (heq ▸ hid)
  · rw [map_append]
    exact mem_append_left _ (h.attemptsKnown a ha)
  · rw [map_append]
    exact mem_append_left _ (h.deadLettersKnown d hd)
  · rcases mem_append.mp hr with hr | hr
    · exact h.numbered r hr
    · obtain rfl := mem_singleton.mp hr
      have hnone : db.attemptsOf db.nextId = [] := by
        simp only [Db.attemptsOf, filter_eq_nil_iff, decide_eq_true_eq]
        exact fun a ha heq => hfresh (heq ▸ h.attemptsKnown a ha)
      exact congrArg (map _) hnone
  · rcases mem_append.mp hr with hr | hr
    · exact h.buried r hr hstate
    · obtain rfl := mem_singleton.mp hr
      cases hstate

section

theorem Attempted.ids (did : Attempted db db' receipt receipt') :
    db'.receipts.map WebhookReceipt.id = db.receipts.map WebhookReceipt.id := by
  rw [did.receipts, save_ids]

theorem Attempted.attemptsOf_self (did : Attempted db db' receipt receipt') :
    (db'.attemptsOf receipt.id).map WebhookProcessingAttempt.attemptNumber =
      (db.attemptsOf receipt.id).map WebhookProcessingAttempt.attemptNumber ++
        [receipt.attemptCount + 1] := by
  obtain ⟨a, ha, hnumber, hattempts⟩ := did.attempts
  simp [Db.attemptsOf, hattempts, ha, hnumber]

theorem Attempted.attemptsOf_other (did : Attempted db db' receipt receipt') {id : Nat}
    (hid : id ≠ receipt.id) : db'.attemptsOf id = db.attemptsOf id := by
  obtain ⟨a, ha, -, hattempts⟩ := did.attempts
  simp [Db.attemptsOf, hattempts, ha, hid.symm]

theorem Attempted.deadLettersOf_other (did : Attempted db db' receipt receipt') {id : Nat}
    (hid : id ≠ receipt.id) : db'.deadLettersOf id = db.deadLettersOf id := by
  obtain ⟨d, hd, hdead⟩ := did.deadLetters
  rw [Db.deadLettersOf, hdead]
  split
  · simp [Db.deadLettersOf, hd, hid.symm]
  · rfl

theorem Attempted.deadLettersOf_self (did : Attempted db db' receipt receipt') :
    ∃ d, db'.deadLettersOf receipt.id =
      if receipt'.processingState = .deadLetter ∧ db.deadLettersOf receipt.id = [] then [d]
      else db.deadLettersOf receipt.id := by
  obtain ⟨d, hd, hdead⟩ := did.deadLetters
  refine ⟨d, ?_⟩
  rw [Db.deadLettersOf, hdead]
  split
  · rename_i hnone
    rw [filter_append]
    exact (congrArg (· ++ _) hnone.2).trans (by simp [hd])
  · rfl

theorem Consistent.attempted (h : Consistent db) (found : receipt ∈ db.receipts)
    (did : Attempted db db' receipt receipt') : Consistent db' := by
  have hknown : receipt.id ∈ db.receipts.map WebhookReceipt.id := mem_map_of_mem found
  refine ⟨by rw [did.ids]; exact h.ids, fun a ha => ?_, fun d hd => ?_, fun r hr => ?_,
    fun id => ?_, fun r hr hstate => ?_⟩
  · obtain ⟨new, hnew, -, hattempts⟩ := did.attempts
    rw [hattempts] at ha
    rw [did.ids]
    rcases mem_append.mp ha with ha | ha
    · exact h.attemptsKnown a ha
    · obtain rfl := mem_singleton.mp ha
      exact hnew ▸ hknown
  · obtain ⟨new, hnew, hdead⟩ := did.deadLetters
    rw [hdead] at hd
    rw [did.ids]
    split at hd
    · rcases mem_append.mp hd with hd | hd
      · exact h.deadLettersKnown d hd
      · obtain rfl := mem_singleton.mp hd
        exact hnew ▸ hknown
    · exact h.deadLettersKnown d hd
  · rw [did.receipts] at hr
    rcases mem_save hr with rfl | ⟨hr, hother⟩
    · rw [did.same, did.counted, did.attemptsOf_self, h.numbered receipt found,
        range'_1_concat, Nat.add_comm 1]
    · rw [did.attemptsOf_other (did.same ▸ hother)]
      exact h.numbered r hr
  · by_cases hid : id = receipt.id
    · obtain ⟨d, hself⟩ := did.deadLettersOf_self
      rw [hid, hself]
      split
      · simp
      · exact h.once receipt.id
    · rw [did.deadLettersOf_other hid]
      exact h.once id
  · rw [did.receipts] at hr
    rcases mem_save hr with rfl | ⟨hr, hother⟩
    · obtain ⟨d, hself⟩ := did.deadLettersOf_self
      rw [did.same, hself]
      by_cases hnone : db.deadLettersOf receipt.id = []
      · simp [hstate, hnone]
      · simp [hnone]
    · rw [did.deadLettersOf_other (did.same ▸ hother)]
      exact h.buried r hr hstate

end

theorem Consistent.requeued {db : Db} {receipt : WebhookReceipt} (h : Consistent db)
    (found : receipt ∈ db.receipts) : Consistent (db.save receipt.requeued) := by
  have hids := save_ids db receipt.requeued
  refine ⟨by rw [hids]; exact h.ids, fun a ha => ?_, fun d hd => ?_, fun r hr => ?_, h.once,
    fun r hr hstate => ?_⟩
  · rw [hids]
    exact h.attemptsKnown a ha
  · rw [hids]
    exact h.deadLettersKnown d hd
  · rcases mem_save hr with rfl | ⟨hr, -⟩
    · exact h.numbered receipt found
    · exact h.numbered r hr
  · rcases mem_save hr with rfl | ⟨hr, -⟩
    · cases hstate
    · exact h.buried r hr hstate

theorem Consistent.move (h : Consistent db) (m : Move db a db') : Consistent db' := by
  cases m with
  | idle => exact h
  | accept => exact h.accept ..
  | fail found => exact h.attempted (receipt_some found).1 (markReceiptFailed_attempted ..)
  | finish found => exact h.attempted (receipt_some found).1 (markReceiptProcessed_attempted ..)
  | requeue found => exact h.requeued (receipt_some found).1

theorem Consistent.run (h : Consistent db) (actions : List Action) : Consistent (run db actions) := by
  induction actions generalizing db with
  | nil => exact h
  | cons a rest ih => exact ih (h.move (perform_move db a))

theorem empty_consistent : Consistent {} :=
  ⟨by simp, by simp, by simp, by simp, by simp [Db.deadLettersOf], by simp⟩

/-- The stores that acceptances, processing and replays lead to. -/
def Reachable (db : Db) : Prop := ∃ actions, db = run {} actions

theorem Reachable.consistent (h : Reachable db) : Consistent db := by
  obtain ⟨actions, rfl⟩ := h
  exact empty_consistent.run actions

section

variable {db : Db} {a : Action} {r : WebhookReceipt}

theorem Consistent.unique (h : Consistent db) (hr : r ∈ db.receipts)
    (hreceipt : receipt ∈ db.receipts) (hid : r.id = receipt.id) : r = receipt :=
  inj_on_of_nodup_map h.ids hr hreceipt hid

theorem Consistent.found (h : Consistent db) (hr : r ∈ db.receipts) : db.receipt r.id = some r :=
  Table.get_of_mem h.ids hr

theorem mem_save_self (hr : r ∈ db.receipts) (hid : r.id = receipt.id) :
    receipt ∈ (db.save receipt).receipts :=
  Table.mem_set.mpr (.inl ⟨r, hr, hid, rfl⟩)

theorem mem_save_other (hr : r ∈ db.receipts) (hid : r.id ≠ receipt.id) : r ∈ (db.save receipt).receipts :=
  Table.mem_set.mpr (.inr ⟨hr, hid⟩)

theorem receipt_save_self (hid : r.id = receipt.id) (found : db.receipt r.id = some r) :
    (db.save receipt).receipt receipt.id = some receipt := by
  rw [Db.receipt, Db.save, Table.get_set_row rfl, if_pos rfl, ← hid]
  rw [Db.receipt] at found
  rw [found, Option.map_some]

theorem Move.ids (m : Move db a db') :
    db.receipts.map WebhookReceipt.id <+: db'.receipts.map WebhookReceipt.id := by
  cases m with
  | idle => exact prefix_rfl
  | accept => simp
  | fail =>
    rw [(markReceiptFailed_attempted ..).ids]
  | finish =>
    rw [(markReceiptProcessed_attempted ..).ids]
  | requeue =>
    rw [save_ids]

/-- An action changes no receipt but one that is open, or the one it replays. -/
theorem Move.keeps (m : Move db a db') (h : Consistent db) (hr : r ∈ db.receipts)
    (hclosed : r.isOpen = false) : r ∈ db'.receipts ∨
      r.processingState ≠ .processed ∧ ∃ role, a = .replay r.id role ∧ r.requeued ∈ db'.receipts := by
  have apart : ∀ {receipt : WebhookReceipt}, db.receipt receipt.id = some receipt →
      receipt.isOpen = true → r.id ≠ receipt.id := by
    intro receipt found hOpen hid
    rw [h.unique hr (receipt_some found).1 hid, hOpen] at hclosed
    cases hclosed
  cases m with
  | idle => exact .inl hr
  | accept => exact .inl (mem_append_left _ hr)
  | fail found hOpen =>
    left
    have hid := apart found hOpen
    rw [(markReceiptFailed_attempted ..).receipts]
    exact mem_save_other hr hid
  | finish found hOpen =>
    have hid := apart found hOpen
    exact .inl (mem_save_other hr hid)
  | @requeue receipt role found unfinished =>
    by_cases hid : r.id = receipt.id
    · obtain rfl := h.unique hr (receipt_some found).1 hid
      exact .inr ⟨unfinished, role, rfl, mem_save_self hr rfl⟩
    · exact .inl (mem_save_other hr hid)

theorem processed_final (h : Consistent db) (hr : r ∈ db.receipts)
    (hstate : r.processingState = .processed) (actions : List Action) :
    r ∈ (run db actions).receipts := by
  induction actions generalizing db with
  | nil => exact hr
  | cons a rest ih =>
    have m := perform_move db a
    have hclosed : r.isOpen = false := by simp [WebhookReceipt.isOpen, hstate]
    rcases m.keeps h hr hclosed with hkept | ⟨hunfinished, -⟩
    · exact ih (h.move m) hkept
    · exact absurd hstate hunfinished

theorem processReceipt_fails (found : db.receipt r.id = some r)
    (hOpen : r.isOpen = true) (due : waiting now r = false) (hcategory : category ≠ "") :
    processReceipt now r.id (some category) db = .ok (markReceiptFailed now r category db, true) := by
  have hfilter : (some category).filter (· ≠ "") = some category := by simp [hcategory]
  unfold processReceipt
  rw [found, hfilter]
  cases hs : r.processingState with
  | queued | retryScheduled =>
    simp only [due, hs]
    rfl
  | processed | deadLetter => simp [WebhookReceipt.isOpen, hs] at hOpen

theorem processReceipt_finishes (found : db.receipt r.id = some r)
    (hOpen : r.isOpen = true) (due : waiting now r = false) :
    processReceipt now r.id none db = .ok (markReceiptProcessed now r db, true) := by
  unfold processReceipt
  rw [found]
  cases hs : r.processingState with
  | queued | retryScheduled =>
    simp only [due, hs]
    rfl
  | processed | deadLetter => simp [WebhookReceipt.isOpen, hs] at hOpen

theorem processReceipt_processed (found : db.receipt r.id = some r)
    (hstate : r.processingState = .processed) (errorCategory : Option String) :
    processReceipt now r.id errorCategory db = .ok (db, false) := by
  simp [processReceipt, found, hstate]

theorem processReceipt_move (h : processReceipt now receiptId errorCategory db = .ok (db', transitioned)) :
    Move db (.process receiptId errorCategory now) db' := by
  have m := perform_move db (.process receiptId errorCategory now)
  simpa only [perform, h, Except.map, Except.toOption, Option.getD_some] using m

/-- A transient failure is retried exactly while the attempts of all times stay below the
maximum. -/
theorem failed_attempt (h : Consistent db) (hr : r ∈ db.receipts)
    (hOpen : r.isOpen = true) (due : waiting now r = false) (htransient : category ∈ transientErrors) :
    ∃ r' ∈ (perform db (.process r.id (some category) now)).receipts, r'.id = r.id ∧
      r'.attemptCount = (db.attemptsOf r.id).length + 1 ∧
      (r'.attemptCount < maxProcessingAttempts → r'.processingState = .retryScheduled ∧
        r'.nextAttemptAt = some (now + backoff r'.attemptCount)) ∧
      (maxProcessingAttempts ≤ r'.attemptCount → r'.processingState = .deadLetter) := by
  have hcategory : category ≠ "" := by
    rintro rfl
    exact absurd htransient (by decide)
  have hcount : (db.attemptsOf r.id).length = r.attemptCount := by
    simpa using congrArg length (h.numbered r hr)
  refine ⟨r.failed now category, ?_, rfl, by rw [hcount]; rfl, fun hlt => ?_, fun hle => ?_⟩
  · have hdone := processReceipt_fails (h.found hr) hOpen due hcategory
    simp only [perform, hdone, Except.map, Except.toOption, Option.getD_some]
    rw [(markReceiptFailed_attempted ..).receipts]
    exact mem_save_self hr rfl
  · change r.attemptCount + 1 < _ at hlt
    have hretry : r.retryable category = true := by
      simpa [WebhookReceipt.retryable, htransient] using hlt
    simp [WebhookReceipt.failed, hretry]
  · change _ ≤ r.attemptCount + 1 at hle
    have hretry : r.retryable category = false := by
      simpa [WebhookReceipt.retryable, htransient] using hle
    simp [WebhookReceipt.failed, hretry]

/-- Attempts are counted and numbered without a gap, a processed receipt stays as it is, a dead
letter is one row and only a replay takes its receipt back, and a transient failure is retried
while the attempts over the receipt's whole life, replays included, allow it. -/
theorem receipt_lifecycle (h : Reachable db) (hr : r ∈ db.receipts) :
    (r.attemptCount = (db.attemptsOf r.id).length ∧
      (db.attemptsOf r.id).map WebhookProcessingAttempt.attemptNumber = range' 1 r.attemptCount) ∧
    (r.processingState = .processed → ∀ actions, r ∈ (run db actions).receipts) ∧
    (r.processingState = .deadLetter → (db.deadLettersOf r.id).length = 1 ∧
      ∀ a, r ∉ (perform db a).receipts → ∃ role, a = .replay r.id role ∧
        r.requeued ∈ (perform db a).receipts) ∧
    ∀ now category, category ∈ transientErrors → r.isOpen = true → waiting now r = false →
      ∃ r' ∈ (perform db (.process r.id (some category) now)).receipts, r'.id = r.id ∧
        r'.attemptCount = (db.attemptsOf r.id).length + 1 ∧
        (r'.attemptCount < maxProcessingAttempts → r'.processingState = .retryScheduled ∧
          r'.nextAttemptAt = some (now + backoff r'.attemptCount)) ∧
        (maxProcessingAttempts ≤ r'.attemptCount → r'.processingState = .deadLetter) := by
  have hc := h.consistent
  have hnumbered := hc.numbered r hr
  refine ⟨⟨?_, hnumbered⟩, processed_final hc hr, fun hdead => ⟨?_, fun a hgone => ?_⟩,
    fun now category htransient hOpen due => failed_attempt hc hr hOpen due htransient⟩
  · simpa using (congrArg length hnumbered).symm
  · have hone := hc.once r.id
    have hsome := length_pos_iff.mpr (hc.buried r hr hdead)
    omega
  · have hclosed : r.isOpen = false := by simp [WebhookReceipt.isOpen, hdead]
    rcases (perform_move db a).keeps hc hr hclosed with hkept | ⟨-, hreplay⟩
    · exact absurd hkept hgone
    · exact hreplay

end

namespace Sample

/-- Five timeouts in a row, each after the last one's backoff, and a replay. -/
def exhausted : List Action :=
  .accept "woo" .woocommerce "1:1" "" (.woocommerce ⟨"product.updated", some "7"⟩) 0 ::
    (List.range 5).map fun i => .process 1 (some "timeout") (seconds (1000 * i))

def replayed : Db := run {} (exhausted ++ [.replay 1 "admin"])

def timedOutAgain : Action := .process 1 (some "timeout") (seconds 5000)

end Sample

open Sample

/-- The first transient failure after a replay can be the last: nothing is retried. -/
theorem replay_keeps_attempts :
    (run {} Sample.exhausted).receipts.map WebhookReceipt.processingState = [.deadLetter] ∧
    replayed.receipts.map WebhookReceipt.processingState = [.queued] ∧
    "timeout" ∈ transientErrors ∧
    (perform replayed timedOutAgain).receipts.map
      WebhookReceipt.processingState = [.deadLetter] := by
  decide +kernel

theorem receipt_lifecycle_replayed : ∃ r ∈ replayed.receipts, r.attemptCount = 5 ∧
    (replayed.attemptsOf r.id).map WebhookProcessingAttempt.attemptNumber = [1, 2, 3, 4, 5] := by
  have hmem : ∃ r ∈ replayed.receipts, r.attemptCount = 5 := by decide +kernel
  obtain ⟨r, hr, hcount⟩ := hmem
  have hreach : Reachable replayed := ⟨_, rfl⟩
  refine ⟨r, hr, hcount, ?_⟩
  rw [(receipt_lifecycle hreach hr).1.2, hcount]
  rfl

end FlowHub.Webhooks
