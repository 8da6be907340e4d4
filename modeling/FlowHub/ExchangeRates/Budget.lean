import FlowHub.ExchangeRates.Turns

namespace FlowHub.ExchangeRates

open List

namespace Event

def isReserved : Event → Bool
  | .reserved _ => true
  | _ => false

def isRequested : Event → Bool
  | .requested _ => true
  | _ => false

def isReported : Event → Bool
  | .reported _ => true
  | _ => false

end Event

namespace World

def reservations (w : World) : Nat := w.log.countP Event.isReserved

def requests (w : World) : Nat := w.log.countP Event.isRequested

def reports (w : World) : Nat := w.log.countP Event.isReported

end World

/-- Each request has one reservation before it, and is made once. -/
def Paired (log : List Event) : Prop :=
  ∀ earlier key later, log = earlier ++ .requested key :: later →
    earlier.count (.reserved key) = 1 ∧ .requested key ∉ earlier

theorem Paired.snoc {log : List Event} (h : Paired log) {event : Event}
    (paired : ∀ key, event = .requested key →
      log.count (.reserved key) = 1 ∧ .requested key ∉ log) : Paired (log ++ [event]) := by
  intro earlier key later heq
  cases later using reverseRecOn with
  | nil =>
    rw [← append_left_inj [Event.requested key]] at heq
    simp only [append_cancel_right_eq] at heq
    obtain ⟨rfl, hevent⟩ := append_inj' heq rfl
    exact paired key (singleton_inj.mp hevent)
  | append_singleton rest last _ =>
    rw [← cons_append, ← append_assoc] at heq
    obtain ⟨heq, -⟩ := append_inj' heq rfl
    exact h earlier key rest heq

theorem Paired.init {log : List Event} {event : Event} (h : Paired (log ++ [event])) : Paired log := by
  intro earlier key later heq
  apply h earlier key (later ++ [event])
  rw [heq, append_assoc]
  rfl

namespace Event

def requestedKey : Event → Option Nat
  | .requested key => some key
  | _ => none

def reservedKey : Event → Option Nat
  | .reserved key => some key
  | _ => none

theorem requestedKey_eq {event : Event} {key : Nat} :
    event.requestedKey = some key ↔ event = .requested key := by
  cases event <;> simp [requestedKey]

theorem reservedKey_eq {event : Event} : event.reservedKey = some key ↔ event = .reserved key := by
  cases event <;> simp [reservedKey]

end Event

theorem mem_requestedKeys {log : List Event} :
    key ∈ log.filterMap Event.requestedKey ↔ .requested key ∈ log := by
  simp [mem_filterMap, Event.requestedKey_eq]

theorem mem_reservedKeys {log : List Event} :
    key ∈ log.filterMap Event.reservedKey ↔ .reserved key ∈ log := by
  simp [mem_filterMap, Event.reservedKey_eq]

theorem Paired.nodup {log : List Event} (h : Paired log) : (log.filterMap Event.requestedKey).Nodup := by
  induction log using reverseRecOn with
  | nil => simp
  | append_singleton log event ih =>
    have hlog := ih h.init
    rw [filterMap_append, nodup_append]
    refine ⟨hlog, ?_, ?_⟩
    · cases hkey : event.requestedKey <;> simp [hkey]
    intro key hkey key' hkey' heq
    have hevent : event = .requested key' := by
      simpa [Event.requestedKey_eq] using hkey'
    rw [← heq] at hevent
    subst hevent
    exact (h log key [] rfl).2 (mem_requestedKeys.mp hkey)

/-- So no more is requested than reserved. -/
theorem Paired.requests_le {log : List Event} (h : Paired log) :
    log.countP Event.isRequested ≤ log.countP Event.isReserved := by
  have hsubset : log.filterMap Event.requestedKey ⊆ log.filterMap Event.reservedKey := by
    intro key hkey
    obtain ⟨earlier, later, rfl⟩ := append_of_mem (mem_requestedKeys.mp hkey)
    have hcount := (h earlier key later rfl).1
    have hmem : Event.reserved key ∈ earlier := by
      rw [← count_pos_iff]
      omega
    exact mem_reservedKeys.mpr (mem_append_left _ hmem)
  have hlength := (subperm_of_subset h.nodup hsubset).length_le
  have hrequested : log.countP Event.isRequested = (log.filterMap Event.requestedKey).length := by
    rw [length_filterMap_eq_countP]
    apply countP_congr
    intro event _
    cases event <;> simp [Event.isRequested, Event.requestedKey]
  have hreserved : log.countP Event.isReserved = (log.filterMap Event.reservedKey).length := by
    rw [length_filterMap_eq_countP]
    apply countP_congr
    intro event _
    cases event <;> simp [Event.isReserved, Event.reservedKey]
  omega

/-- What holds of a process that works for one date. -/
structure Process.Sound (env : Environment) (date : Date) (quota : Int × Int)
    (row : ExchangeRateProviderConfig) (p : Process) : Prop where
  requests : ∀ values, p.kind ≠ .updateAdminConfig values
  today : p.phase.stamped = true → env.budgetDate p.now = date
  copies : ∀ c ∈ p.session.copy, c.limits = quota
  reset : p.phase.dated = true → row.requestCountDate = some date
  seen : ∀ tries seen, p.phase = .counting tries seen → seen.exhausted = false ∧ seen.limits = quota

def safeLimit (quota : Int × Int) : Int := max 0 (quota.1 - quota.2)

/-- The row counts what has been reserved on the date, from what had been counted before. -/
structure Budgeted (env : Environment) (date : Date) (quota : Int × Int) (base : Nat) (w : World) : Prop where
  limits : w.row.limits = quota
  counted : w.row.requestCountDate = some date → w.row.requestCount = base + w.reservations
  before : w.row.requestCountDate ≠ some date → base = 0 ∧ w.reservations = 0
  within : ((base + w.reservations : Nat) : Int) ≤ max (base : Int) (safeLimit quota)
  processes : ∀ p ∈ w.processes, p.Sound env date quota w.row

section

variable {env : Environment} {date : Date} {quota : Int × Int} {w : World} {p p' : Process}
  {row row' : ExchangeRateProviderConfig}

theorem books_eq : row'.books = row.books ↔ row'.limits = row.limits ∧
    row'.requestCountDate = row.requestCountDate ∧ row'.requestCount = row.requestCount ∧
      row'.providerDailyUsage = row.providerDailyUsage := by
  simp [ExchangeRateProviderConfig.books]

theorem mem_put {q : Process} (h : q ∈ (w.put p).processes) : q = p ∨ q ∈ w.processes ∧ q.id ≠ p.id := by
  cases Table.mem_set.mp h with
  | inl hnew =>
    obtain ⟨_, -, -, rfl⟩ := hnew
    exact .inl rfl
  | inr hold => exact .inr hold

/-- The process keeps what holds of it, in a row that is of the date if it was or is now reset. -/
theorem Process.Sound.follows (h : p.Sound env date quota w.row) (hlimits : w.row.limits = quota)
    (f : Follows w p p')
    (clock : p.phase = .begun ∨ p.phase = .checked → env.budgetDate w.clock = date)
    (dated : p'.phase.dated = true → row'.requestCountDate = some date) :
    p'.Sound env date quota row' where
  requests values heq := by
    rcases f.kind with hkind | ⟨s, hkind⟩ | ⟨s, hkind⟩
    · exact h.requests values (hkind ▸ heq)
    · rw [hkind] at heq
      cases heq
    · rw [hkind] at heq
      cases heq
  today hstamped := by
    rcases f.now hstamped with ⟨hbefore, hnow⟩ | ⟨hphase, hnow⟩
    · rw [hnow]
      exact h.today hbefore
    · rw [hnow]
      exact clock hphase
  copies c hc := by
    rcases f.copies c hc with hrow | ⟨c₀, hc₀, heq⟩
    · rw [hrow, hlimits]
    · rw [heq]
      exact h.copies c₀ hc₀
  reset := dated
  seen tries seen hphase := by
    obtain ⟨hfree, hseen⟩ := f.seen tries seen hphase
    refine ⟨hfree, ?_⟩
    rcases hseen with hrow | ⟨c₀, hc₀, heq⟩
    · rw [hrow, hlimits]
    · rw [heq]
      exact h.copies c₀ hc₀

theorem Process.Sound.moved (h : p.Sound env date quota row)
    (dated : row.requestCountDate = some date → row'.requestCountDate = some date) :
    p.Sound env date quota row' :=
  ⟨h.requests, h.today, h.copies, fun hd => dated (h.reset hd), h.seen⟩

/-- A world whose row counts as before. -/
theorem Budgeted.turned (h : Budgeted env date quota base w) (sound : p'.Sound env date quota row')
    {events : List Event} {keys : Nat} {storedKey : String}
    (hlimits : row'.limits = w.row.limits)
    (hdate : row'.requestCountDate = w.row.requestCountDate)
    (hcount : row'.requestCount = w.row.requestCount)
    (quiet : events.countP Event.isReserved = 0) :
    Budgeted env date quota base (w.turned p' row' events keys storedKey) := by
  have hreservations : (w.turned p' row' events keys storedKey).reservations = w.reservations := by
    simp [World.reservations, World.turned, quiet]
  constructor
  · exact hlimits.trans h.limits
  · rw [hreservations]
    intro hd
    exact hcount.trans (h.counted (hdate.symm.trans hd))
  · rw [hreservations]
    intro hd
    exact h.before fun hw => hd (hdate.trans hw)
  · rw [hreservations]
    exact h.within
  · intro q hq
    rcases mem_put hq with rfl | ⟨hold, -⟩
    · exact sound
    · exact (h.processes q hold).moved fun hd => hdate.trans hd

/-- A commit leaves the counter and its date, and a report only the provider's own number. -/
theorem assignments_counter {now fetchedAt : Time} {kind : Kind} {answer : Answer}
    (c : ExchangeRateProviderConfig) :
    ((World.assignments env now kind answer fetchedAt c).requestCountDate,
      (World.assignments env now kind answer fetchedAt c).requestCount) =
      (c.requestCountDate, c.requestCount) := by
  by_cases quiet : ∀ force n, kind = .syncUsage force → answer ≠ .served n
  · obtain ⟨-, hdate, hcount, -⟩ := books_eq.mp (@assignments_books env now fetchedAt kind answer quiet c)
    rw [hdate, hcount]
  · simp only [not_forall, not_not] at quiet
    obtain ⟨force, n, rfl, rfl⟩ := quiet
    rfl

theorem flush_limits {s : Session} {assign : ExchangeRateProviderConfig → ExchangeRateProviderConfig}
    (kept : ∀ c, (assign c).limits = c.limits) : (s.flush assign row).limits = row.limits := by
  apply flush_kept kept
  intro loaded h
  simp only [ExchangeRateProviderConfig.limits, Prod.mk.injEq] at h ⊢
  simp [written, h.1, h.2]

theorem flush_counter {s : Session} {assign : ExchangeRateProviderConfig → ExchangeRateProviderConfig}
    (kept : ∀ c, ((assign c).requestCountDate, (assign c).requestCount) =
      (c.requestCountDate, c.requestCount)) :
    ((s.flush assign row).requestCountDate, (s.flush assign row).requestCount) =
      (row.requestCountDate, row.requestCount) := by
  apply @flush_kept _ (fun c => (c.requestCountDate, c.requestCount)) _ _ _ kept
  intro loaded h
  simp only [Prod.mk.injEq] at h ⊢
  simp [written, h.1, h.2]

theorem room {seen : ExchangeRateProviderConfig} (free : seen.exhausted = false)
    (hlimits : seen.limits = quota) :
    ((seen.requestCount + 1 : Nat) : Int) ≤ safeLimit quota ∧
      ((seen.providerDailyUsage.getD 0 : Nat) : Int) < safeLimit quota := by
  subst hlimits
  simp [ExchangeRateProviderConfig.exhausted, ExchangeRateProviderConfig.effectiveUsage] at free
  simp only [safeLimit, ExchangeRateProviderConfig.limits, ExchangeRateProviderConfig.safeLimit] at free ⊢
  omega

theorem Budgeted.turn (h : Budgeted env date quota base w) (found : p ∈ w.processes)
    (clock : p.phase = .begun ∨ p.phase = .checked → env.budgetDate w.clock = date)
    (t : Turn env w p w') : Budgeted env date quota base w' := by
  have hp := h.processes p found
  cases t with
  | idle => exact h
  | move follows key stage books blocked dated unlocked =>
    obtain ⟨hlimits, hdate, hcount, -⟩ := books_eq.mp books
    apply h.turned _ hlimits hdate hcount rfl
    exact hp.follows h.limits follows clock fun hd => hdate.trans (hp.reset (dated hd))
  | locked follows key ready free stage =>
    refine h.turned ?_ ?_ ?_ ?_ rfl
    · apply hp.follows h.limits follows clock
      rw [stage]
      intro hdated
      cases hdated
    · rfl
    · rfl
    · rfl
  | reset follows key stage stamped live =>
    rw [hp.today stamped]
    by_cases hdate : w.row.requestCountDate = some date
    · have hrow : (resetIfNeeded date).on w.row = w.row := by
        simp [Update.on, resetIfNeeded, hdate]
      rw [hrow]
      exact h.turned (hp.follows h.limits follows clock fun _ => hdate) rfl rfl rfl rfl
    · have hrow : (resetIfNeeded date).on w.row = (resetIfNeeded date).values w.row := by
        simp [Update.on, resetIfNeeded, hdate]
      obtain ⟨hbase, hnone⟩ := h.before hdate
      rw [hrow]
      constructor
      · exact h.limits
      · intro _
        have hkept : w.log.countP Event.isReserved = 0 := hnone
        simp [World.turned, World.reservations, resetIfNeeded, append_nil, hkept, hbase]
      · intro hd
        exact absurd rfl hd
      · simpa [World.reservations, World.turned] using h.within
      · intro q hq
        rcases mem_put hq with rfl | ⟨hold, -⟩
        · exact hp.follows h.limits follows clock fun _ => rfl
        · exact (h.processes q hold).moved fun _ => rfl
  | counted follows key counting stage fits =>
    rename_i p' tries seen
    obtain ⟨free, hseen⟩ := hp.seen tries seen counting
    have hdate : w.row.requestCountDate = some date := by
      apply hp.reset
      rw [counting]
      rfl
    simp only [countRequest, decide_eq_true_eq] at fits
    have hcount := h.counted hdate
    have hroom := (room free hseen).1
    have hreservations : (w.turned p' ((countRequest seen).values w.row) [.reserved p.key] w.keys
        w.storedKey).reservations = w.reservations + 1 := by
      simp [World.reservations, World.turned, Event.isReserved]
    constructor
    · exact h.limits
    · rw [hreservations]
      simp only [World.turned, countRequest]
      omega
    · intro hd
      exact absurd hdate hd
    · omega
    · intro q hq
      rcases mem_put hq with rfl | ⟨hold, -⟩
      · exact hp.follows h.limits follows clock fun _ => hdate
      · exact (h.processes q hold).moved fun hd => hd
  | requested follows key reserved stage =>
    apply h.turned _ rfl rfl rfl rfl
    apply hp.follows h.limits follows clock
    rw [stage]
    intro hdated
    cases hdated
  | committed follows key saving stage =>
    rename_i p' answer fetchedAt
    have hcounter := @flush_counter w.row p.session _
      (@assignments_counter env w.clock fetchedAt p.kind answer)
    rw [Prod.mk.injEq] at hcounter
    apply h.turned _ (flush_limits assignments_limits) hcounter.1 hcounter.2
    · unfold World.eventOf
      split
      · rfl
      · split <;> rfl
      · rfl
    · apply hp.follows h.limits follows clock
      rw [stage]
      intro hdated
      cases hdated
  | started follows key stage books blocked =>
    obtain ⟨hlimits, hdate, hcount, -⟩ := books_eq.mp books
    apply h.turned _ hlimits hdate hcount rfl
    apply hp.follows h.limits follows clock
    rw [stage]
    intro hdated
    cases hdated
  | configured id key kind => exact absurd kind (hp.requests _)

/-- A key names one call, which has been counted or asked for as far as its process has come. -/
structure Keyed (w : World) : Prop where
  keys : ∀ p ∈ w.processes, ∀ q ∈ w.processes, p.key = q.key → p.id = q.id
  fresh : ∀ p ∈ w.processes, p.key < w.keys
  logged : ∀ key, .reserved key ∈ w.log ∨ .requested key ∈ w.log → key < w.keys
  before : ∀ p ∈ w.processes, p.phase.stage = 0 → .reserved p.key ∉ w.log ∧ .requested p.key ∉ w.log
  between : ∀ p ∈ w.processes, p.phase.stage = 1 →
    w.log.count (.reserved p.key) = 1 ∧ .requested p.key ∉ w.log
  paired : Paired w.log

theorem Keyed.turned (h : Keyed w) (found : p ∈ w.processes) (id : p'.id = p.id) {events : List Event}
    {keys : Nat} {storedKey : String}
    (named : p'.key = p.key ∧ keys = w.keys ∨ p'.key = w.keys ∧ keys = w.keys + 1)
    (own : ∀ key, .reserved key ∈ events ∨ .requested key ∈ events → key = p.key)
    (before : p'.phase.stage = 0 → .reserved p'.key ∉ w.log ++ events ∧ .requested p'.key ∉ w.log ++ events)
    (between : p'.phase.stage = 1 →
      (w.log ++ events).count (.reserved p'.key) = 1 ∧ .requested p'.key ∉ w.log ++ events)
    (paired : Paired (w.log ++ events)) : Keyed (w.turned p' row' events keys storedKey) := by
  have hkeys : w.keys ≤ keys := by rcases named with ⟨-, rfl⟩ | ⟨-, rfl⟩ <;> omega
  have hfresh : p'.key < keys := by
    have := h.fresh p found
    rcases named with ⟨hkey, rfl⟩ | ⟨hkey, rfl⟩ <;> omega
  have others : ∀ q ∈ w.processes, q.id ≠ p'.id → q.key ≠ p.key ∧ q.key ≠ p'.key := by
    intro q hq hid
    have hne : q.key ≠ p.key := fun heq => hid ((h.keys q hq p found heq).trans id.symm)
    refine ⟨hne, ?_⟩
    rcases named with ⟨hkey, -⟩ | ⟨hkey, -⟩
    · rw [hkey]
      exact hne
    · have := h.fresh q hq
      omega
  have silent : ∀ q ∈ w.processes, q.id ≠ p'.id → .reserved q.key ∉ events ∧ .requested q.key ∉ events := by
    intro q hq hid
    have hne := (others q hq hid).1
    exact ⟨fun hin => hne (own _ (.inl hin)), fun hin => hne (own _ (.inr hin))⟩
  constructor
  · intro q hq q' hq' heq
    rcases mem_put hq with rfl | ⟨hold, hid⟩
    · rcases mem_put hq' with rfl | ⟨hold', hid'⟩
      · rfl
      · exact absurd heq.symm (others q' hold' hid').2
    · rcases mem_put hq' with rfl | ⟨hold', hid'⟩
      · exact absurd heq (others q hold hid).2
      · exact h.keys q hold q' hold' heq
  · intro q hq
    rcases mem_put hq with rfl | ⟨hold, -⟩
    · exact hfresh
    · exact lt_of_lt_of_le (h.fresh q hold) hkeys
  · intro key hkey
    simp only [World.turned, mem_append] at hkey
    have hin : (.reserved key ∈ w.log ∨ .requested key ∈ w.log) ∨
        .reserved key ∈ events ∨ .requested key ∈ events := by tauto
    rcases hin with hlog | hevents
    · exact lt_of_lt_of_le (h.logged key hlog) hkeys
    · rw [own key hevents]
      exact lt_of_lt_of_le (h.fresh p found) hkeys
  · intro q hq hstage
    rcases mem_put hq with rfl | ⟨hold, hid⟩
    · exact before hstage
    have hlog := h.before q hold hstage
    have hevents := silent q hold hid
    simp only [World.turned, mem_append, not_or]
    exact ⟨⟨hlog.1, hevents.1⟩, hlog.2, hevents.2⟩
  · intro q hq hstage
    rcases mem_put hq with rfl | ⟨hold, hid⟩
    · exact between hstage
    have hlog := h.between q hold hstage
    have hevents := silent q hold hid
    simp only [World.turned, mem_append, not_or, count_append]
    rw [hlog.1, count_eq_zero.mpr hevents.1]
    exact ⟨rfl, hlog.2, hevents.2⟩
  · exact paired

/-- A step that writes neither a reservation nor a request. -/
theorem Keyed.quiet (h : Keyed w) (found : p ∈ w.processes) (id : p'.id = p.id) {events : List Event}
    {storedKey : String} (key : p'.key = p.key)
    (stage : p'.phase.stage = p.phase.stage ∨ p'.phase.stage = 2)
    (silent : ∀ key, .reserved key ∉ events ∧ .requested key ∉ events)
    (short : events = [] ∨ ∃ event, events = [event]) :
    Keyed (w.turned p' row' events w.keys storedKey) := by
  have hsame (n : Nat) (hn : p'.phase.stage = n) (hlt : n < 2) : p.phase.stage = n := by
    rcases stage with hstage | hstage <;> omega
  apply h.turned found id (.inl ⟨key, rfl⟩)
  · rintro k (hin | hin)
    · exact absurd hin (silent k).1
    · exact absurd hin (silent k).2
  · intro hstage
    have hlog := h.before p found (hsame 0 hstage (by omega))
    simp only [mem_append, not_or, key]
    exact ⟨⟨hlog.1, (silent _).1⟩, hlog.2, (silent _).2⟩
  · intro hstage
    have hlog := h.between p found (hsame 1 hstage (by omega))
    simp only [mem_append, not_or, key, count_append]
    rw [hlog.1, count_eq_zero.mpr (silent _).1]
    exact ⟨rfl, hlog.2, (silent _).2⟩
  · rcases short with rfl | ⟨event, rfl⟩
    · rw [append_nil]
      exact h.paired
    · apply h.paired.snoc
      intro k hevent
      exact absurd (by rw [hevent]; exact mem_singleton_self _) (silent k).2

theorem Keyed.turn (h : Keyed w) (found : p ∈ w.processes) (t : Turn env w p w') : Keyed w' := by
  cases t with
  | idle => exact h
  | move follows key stage => exact h.quiet found follows.id key stage (by simp) (.inl rfl)
  | locked follows key ready free stage =>
    apply h.quiet found follows.id key (.inl _) (by simp) (.inl rfl)
    rw [ready, stage]
    rfl
  | reset follows key stage => exact h.quiet found follows.id key (.inl stage) (by simp) (.inl rfl)
  | counted follows key counting stage fits =>
    have hlog := h.before p found (by rw [counting]; rfl)
    apply h.turned found follows.id (.inl ⟨key, rfl⟩)
    · rintro k (hin | hin)
      · exact Event.reserved.inj (mem_singleton.mp hin)
      · cases mem_singleton.mp hin
    · rw [stage]
      nofun
    · rw [key, count_append, count_eq_zero.mpr hlog.1]
      simp [hlog.2]
    · apply h.paired.snoc
      nofun
  | requested follows key reserved stage =>
    have hlog := h.between p found (by rw [reserved]; rfl)
    apply h.turned found follows.id (.inl ⟨key, rfl⟩)
    · rintro k (hin | hin)
      · cases mem_singleton.mp hin
      · exact Event.requested.inj (mem_singleton.mp hin)
    · rw [stage]
      nofun
    · rw [stage]
      nofun
    · apply h.paired.snoc
      rintro k ⟨⟩
      exact hlog
  | committed follows key saving stage =>
    have hevent (event : Option Event) : event.toList = [] ∨ ∃ e, event.toList = [e] := by
      cases event with
      | none => exact .inl rfl
      | some e => exact .inr ⟨e, rfl⟩
    apply h.quiet found follows.id key (.inr _) _ (hevent _)
    · rw [stage]
      rfl
    · unfold World.eventOf
      split
      · simp
      · split <;> simp
      · simp
  | started follows key stage =>
    apply h.turned found follows.id (.inr ⟨key, rfl⟩) (by simp)
    · intro _
      rw [key, append_nil]
      exact ⟨fun hin => absurd (h.logged _ (.inl hin)) (lt_irrefl _),
        fun hin => absurd (h.logged _ (.inr hin)) (lt_irrefl _)⟩
    · rw [stage]
      nofun
    · rw [append_nil]
      exact h.paired
  | configured id key kind stage waiting blocked seen =>
    apply h.quiet found id key (.inr stage)
    · rcases seen with ⟨rfl, -⟩ | ⟨rfl, -⟩ <;> simp
    · rcases seen with ⟨rfl, -⟩ | ⟨rfl, -⟩
      · exact .inl rfl
      · exact .inr ⟨_, rfl⟩

theorem Keyed.move (h : Keyed w) (m : Move env w a w') : Keyed w' := by
  cases m with
  | elapse duration => exact ⟨h.keys, h.fresh, h.logged, h.before, h.between, h.paired⟩
  | spawn copies stage called =>
    rename_i session kind phase
    have hstage : phase.stage = 0 := by rcases stage with rfl | rfl <;> rfl
    constructor
    · intro q hq q' hq' heq
      simp only [World.spawn, mem_append, mem_singleton] at hq hq'
      rcases hq with hold | rfl
      · rcases hq' with hold' | rfl
        · exact h.keys q hold q' hold' heq
        · exact absurd heq (h.fresh q hold).ne
      · rcases hq' with hold' | rfl
        · exact absurd heq.symm (h.fresh q' hold').ne
        · rfl
    · intro q hq
      simp only [World.spawn, mem_append, mem_singleton] at hq ⊢
      rcases hq with hold | rfl
      · exact Nat.lt_succ_of_lt (h.fresh q hold)
      · exact Nat.lt_succ_self _
    · intro key hkey
      exact Nat.lt_succ_of_lt (h.logged key hkey)
    · intro q hq hq0
      simp only [World.spawn, mem_append, mem_singleton] at hq ⊢
      rcases hq with hold | rfl
      · exact h.before q hold hq0
      · exact ⟨fun hin => absurd (h.logged _ (.inl hin)) (lt_irrefl _),
          fun hin => absurd (h.logged _ (.inr hin)) (lt_irrefl _)⟩
    · intro q hq hq1
      simp only [World.spawn, mem_append, mem_singleton] at hq ⊢
      rcases hq with hold | rfl
      · exact h.between q hold hq1
      · dsimp only at hq1
        omega
    · exact h.paired
  | turn found acts turn => exact h.turn found turn
  | crash found => exact h.turn found (@enter_ended_turn env w _)
  | idle => exact h

/-- No configuration changes, and who reads a clock reads it on the date. -/
def Today (env : Environment) (date : Date) (w : World) (a : Action) : Prop :=
  (∀ keeps values, a ≠ .call keeps (.updateAdminConfig values)) ∧
    ∀ p, a = .advance p.id → w.process p.id = some p → p.phase = .begun ∨ p.phase = .checked →
      env.budgetDate w.clock = date

theorem Budgeted.move (h : Budgeted env date quota base w) (m : Move env w a w')
    (today : Today env date w a) : Budgeted env date quota base w' := by
  cases m with
  | elapse duration => exact ⟨h.limits, h.counted, h.before, h.within, h.processes⟩
  | spawn copies stage called =>
    refine ⟨h.limits, h.counted, h.before, h.within, ?_⟩
    intro q hq
    simp only [World.spawn, mem_append, mem_singleton] at hq
    rcases hq with hold | rfl
    · exact h.processes q hold
    constructor
    · intro values heq
      obtain ⟨keeps, rfl⟩ := called values heq
      exact today.1 keeps values (by rw [← heq])
    · rcases stage with rfl | rfl <;> nofun
    · intro c hc
      rw [copies c hc]
      exact h.limits
    · rcases stage with rfl | rfl <;> nofun
    · intro _ _ h
      rcases stage with rfl | rfl <;> exact absurd h (Phase.not_counting rfl _ _)
  | turn found acts turn =>
    apply h.turn found _ turn
    intro hphase
    rcases acts with ⟨hacts, hprocess⟩ | hrequested
    · exact today.2 _ hacts hprocess hphase
    · rcases hphase with hphase | hphase <;> rw [hphase] at hrequested <;> cases hrequested
  | crash found =>
    rename_i p
    have hp := h.processes p found
    have hended : Process.Sound env date quota w.row { p with phase := .ended } :=
      ⟨hp.requests, nofun, hp.copies, nofun, fun _ _ h => absurd h (Phase.not_counting rfl _ _)⟩
    rw [World.enter, put_turned]
    exact h.turned hended rfl rfl rfl rfl
  | idle => exact h

/-- While the provider's own number leaves no room, nothing is reserved before the next report. -/
theorem Budgeted.full {daily : Nat} (h : Budgeted env date quota base w) (found : p ∈ w.processes)
    (t : Turn env w p w') (dated : w.row.requestCountDate = some date)
    (reported : w.row.providerDailyUsage = some daily) (full : safeLimit quota ≤ daily)
    (none : w'.reports = w.reports) :
    w'.row.requestCountDate = some date ∧ w'.row.providerDailyUsage = some daily ∧
      w'.reservations = w.reservations := by
  have hp := h.processes p found
  have same {p' : Process} {row' : ExchangeRateProviderConfig} {keys : Nat}
      (books : row'.books = w.row.books) (events : List Event)
      (quiet : events.countP Event.isReserved = 0) :
      (w.turned p' row' events keys w.storedKey).row.requestCountDate = some date ∧
        (w.turned p' row' events keys w.storedKey).row.providerDailyUsage = some daily ∧
          (w.turned p' row' events keys w.storedKey).reservations = w.reservations := by
    obtain ⟨-, hdate, -, hdaily⟩ := books_eq.mp books
    refine ⟨hdate.trans dated, hdaily.trans reported, ?_⟩
    simp [World.turned, World.reservations, quiet]
  cases t with
  | idle => exact ⟨dated, reported, rfl⟩
  | move follows key stage books => exact same books [] rfl
  | locked =>
    have hbooks : ((acquireLock p.key p.now).values w.row).books = w.row.books := rfl
    exact same hbooks [] rfl
  | reset follows key stage stamped =>
    apply same _ [] rfl
    rw [hp.today stamped]
    simp [Update.on, resetIfNeeded, dated]
  | counted follows key counting stage fits =>
    obtain ⟨free, hseen⟩ := hp.seen _ _ counting
    have hroom := (room free hseen).2
    simp only [countRequest, decide_eq_true_eq] at fits
    rw [← fits.2.2, reported] at hroom
    exact absurd full (not_le.mpr hroom)
  | requested => exact same rfl _ rfl
  | committed follows key saving stage =>
    rename_i p' answer fetchedAt
    by_cases quiet : ∀ force n, p.kind = .syncUsage force → answer ≠ .served n
    · apply same (flush_books (assignments_books quiet))
      unfold World.eventOf
      split
      · rfl
      · split <;> rfl
      · rfl
    · simp only [not_forall, not_not] at quiet
      obtain ⟨force, n, hkind, rfl⟩ := quiet
      simp [World.turned, World.reports, World.eventOf, hkind, Event.isReported] at none
  | started follows key stage books => exact same books [] rfl
  | configured id key kind => exact absurd kind (hp.requests _)

theorem Move.log (m : Move env w a w') : ∃ events, w'.log = w.log ++ events := by
  cases m with
  | elapse | spawn | crash | idle => exact ⟨[], (append_nil _).symm⟩
  | turn found acts turn => exact turn.log

theorem after_log (w : World) (actions : List Action) :
    ∃ events, (w.after env actions).log = w.log ++ events := by
  induction actions generalizing w with
  | nil => exact ⟨[], (append_nil _).symm⟩
  | cons a rest ih =>
    obtain ⟨events, hlog⟩ := (step_move env w a).log
    obtain ⟨more, hmore⟩ := ih (w.step env a)
    refine ⟨events ++ more, ?_⟩
    rw [World.after, foldl_cons, ← append_assoc, ← hlog]
    exact hmore

theorem budget_run (actions : List Action) (h : Budgeted env date quota base w) (hkeys : Keyed w)
    (today : Along env (Today env date) w actions) :
    Budgeted env date quota base (w.after env actions) ∧ Keyed (w.after env actions) := by
  induction actions generalizing w with
  | nil => exact ⟨h, hkeys⟩
  | cons a rest ih =>
    have hmove := step_move env w a
    exact ih (h.move hmove today.1) (hkeys.move hmove) today.2

theorem full_run (actions : List Action) (h : Budgeted env date quota base w)
    (today : Along env (Today env date) w actions) (dated : w.row.requestCountDate = some date)
    (reported : w.row.providerDailyUsage = some daily) (full : safeLimit quota ≤ daily)
    (none : (w.after env actions).reports = w.reports) :
    (w.after env actions).reservations = w.reservations := by
  induction actions generalizing w with
  | nil => rfl
  | cons a rest ih =>
    have hmove := step_move env w a
    obtain ⟨events, hlog⟩ := hmove.log
    obtain ⟨more, hmore⟩ := @after_log env (w.step env a) rest
    have hafter : w.after env (a :: rest) = (w.step env a).after env rest := rfl
    have hreports : (w.step env a).reports = w.reports := by
      rw [hafter] at none
      simp only [World.reports, hmore, hlog, countP_append] at none ⊢
      omega
    have hkept : (w.step env a).row.requestCountDate = some date ∧
        (w.step env a).row.providerDailyUsage = some daily ∧
          (w.step env a).reservations = w.reservations := by
      generalize hw' : w.step env a = w' at hmove hreports
      cases hmove with
      | elapse | spawn | crash | idle => exact ⟨dated, reported, rfl⟩
      | turn found acts turn => exact h.full found turn dated reported full hreports
    rw [hafter, ← hkept.2.2]
    exact ih (h.move hmove today.1) today.2 hkept.1 hkept.2.1 (by rw [hreports, ← none, hafter])

/-- What has been counted for the date already. -/
def attempted (date : Date) (c : ExchangeRateProviderConfig) : Nat :=
  if c.requestCountDate = some date then c.requestCount else 0

theorem new_budgeted (clock : Time) (row : ExchangeRateProviderConfig) (storedKey : String) :
    Budgeted env date row.limits (attempted date row) (.new clock row storedKey) ∧
      Keyed (.new clock row storedKey) := by
  constructor
  · constructor
    · rfl
    · intro hdate
      have hrow : row.requestCountDate = some date := hdate
      simp [attempted, hrow, World.new, World.reservations]
    · intro hdate
      have hrow : row.requestCountDate ≠ some date := hdate
      simp [attempted, hrow, World.new, World.reservations]
    · exact le_max_left _ _
    · intro p hp
      cases hp
  · constructor
    · intro p hp
      cases hp
    · intro p hp
      cases hp
    · rintro key (hin | hin) <;> cases hin
    · intro p hp
      cases hp
    · intro p hp
      cases hp
    · intro earlier key later heq
      cases earlier <;> cases heq

theorem Budgeted.requests_within (h : Budgeted env date row.limits base w)
    (paired : w.requests ≤ w.reservations) :
    ((base + w.requests : Nat) : Int) ≤ max (base : Int) row.safeLimit := by
  have hwithin := h.within
  have hlimit : safeLimit row.limits = row.safeLimit := rfl
  omega

/-- The counter goes on from where it is. -/
theorem Budgeted.attempts (h : Budgeted env date row.limits base w)
    (hkeys : Keyed w) (today : Along env (Today env date) w later)
    (dated : w.row.requestCountDate = some date) :
    ((w.row.requestCount + ((w.after env later).reservations - w.reservations) : Nat) : Int) ≤
      max (w.row.requestCount : Int) row.safeLimit := by
  have hwithin := (budget_run later h hkeys today).1.within
  have hcounted := h.counted dated
  obtain ⟨events, hlog⟩ := @after_log env w later
  have hlimit : safeLimit row.limits = row.safeLimit := rfl
  omega

end

/-- On one date no more is requested than the safe limit leaves, each request on a reservation of its
own. After a report the counter goes on from where it is, and not at all while the report itself
reaches the limit. -/
theorem budget_kept (env : Environment) (date : Date) (clock : Time)
    (row : ExchangeRateProviderConfig) (storedKey : String) (actions : List Action)
    (today : Along env (Today env date) (.new clock row storedKey) actions) :
    let w := (World.new clock row storedKey).after env actions
    ((attempted date row + w.requests : Nat) : Int) ≤ max (attempted date row : Int) row.safeLimit ∧
      Paired w.log ∧
      ∀ before later, actions = before ++ later →
        let earlier := (World.new clock row storedKey).after env before
        earlier.row.requestCountDate = some date →
          ((earlier.row.requestCount + (w.reservations - earlier.reservations) : Nat) : Int) ≤
              max (earlier.row.requestCount : Int) row.safeLimit ∧
            ∀ daily, earlier.row.providerDailyUsage = some daily → row.safeLimit ≤ daily →
              w.reports = earlier.reports → w.reservations = earlier.reservations := by
  obtain ⟨hnew, hkeys⟩ := @new_budgeted env date clock row storedKey
  obtain ⟨hw, hpaired⟩ := budget_run actions hnew hkeys today
  have hrequests := hpaired.paired.requests_le
  refine ⟨?_, hpaired.paired, ?_⟩
  · exact hw.requests_within hrequests
  intro before later heq earlier hdate
  subst heq
  obtain ⟨hbefore, hlater⟩ := along_append.mp today
  obtain ⟨hearlier, hearlierKeys⟩ := budget_run before hnew hkeys hbefore
  have hafter : (World.new clock row storedKey).after env (before ++ later) =
      ((World.new clock row storedKey).after env before).after env later := by
    simp [World.after]
  rw [hafter]
  exact ⟨hearlier.attempts hearlierKeys hlater hdate,
    fun daily hdaily hfull hreports => full_run later hearlier hlater hdate hdaily hfull hreports⟩

/-- A day without end. -/
def oneDay : Environment where
  unicode := .ascii
  apiKey := "secret"
  budgetDate _ := 1
  nextBudgetReset now := now
  interval _ := 0

/-- A safe limit of four requests. -/
def fourRequests : ExchangeRateProviderConfig :=
  { enabled := true, dailyRequestLimit := 5, reservedRequestCount := 1 }

/-- A call that is served, from its first step to its last. -/
def servedCall (id : Nat) (kind : Kind) (number : Nat) : List Action :=
  .call false kind :: List.replicate 8 (.advance id) ++ .answer id (.served number) ::
    List.replicate 5 (.advance id)

/-- The provider has counted three requests where FlowHub has made one. -/
def reported : List Action := servedCall 0 (.syncUsage true) 3

def refreshed : List Action :=
  servedCall 1 (.refresh false) 13 ++ servedCall 2 (.refresh false) 13 ++ servedCall 3 (.refresh false) 13

/-- With three of four requests reported, three more are made. -/
theorem report_not_counted : fourRequests.safeLimit = 4 ∧
      ((World.new 0 fourRequests "").after oneDay reported).row.providerDailyUsage = some 3 ∧
      ((World.new 0 fourRequests "").after oneDay reported).requests = 1 ∧
      ((World.new 0 fourRequests "").after oneDay (reported ++ refreshed)).requests = 4 := by
  decide +kernel

theorem along_of_all (h : ∀ w, ∀ a ∈ actions, condition w a) (w : World) : Along env condition w actions := by
  induction actions generalizing w with
  | nil => trivial
  | cons a rest ih =>
    exact ⟨h w a (mem_cons_self), ih (fun w' b hb => h w' b (mem_cons_of_mem a hb)) _⟩

theorem budget_kept_reported :
    ((attempted 1 fourRequests +
        ((World.new 0 fourRequests "").after oneDay (reported ++ refreshed)).requests : Nat) : Int) ≤
      max (attempted 1 fourRequests : Int) fourRequests.safeLimit := by
  apply (budget_kept oneDay 1 0 fourRequests "" (reported ++ refreshed) ?_).1
  apply along_of_all
  intro w a ha
  refine ⟨?_, fun _ _ _ _ => rfl⟩
  rintro keeps values rfl
  simp [reported, refreshed, servedCall] at ha

end FlowHub.ExchangeRates
