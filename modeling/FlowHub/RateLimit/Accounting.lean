import Mathlib.Data.Rat.Floor
import FlowHub.RateLimit.Limiter

namespace FlowHub.RateLimit

open Spacing List

theorem Rpm.positive (rpm : Rpm) : 0 < rpm.val := by
  have := rpm.property.1
  simp only [minRpm] at this
  omega

theorem Rpm.interval_pos (rpm : Rpm) : 0 < rpm.interval := by
  have : (0 : Rat) < rpm.val := by exact_mod_cast rpm.positive
  unfold Rpm.interval
  positivity

/-- The caller is granted the later of the present and what the bucket has left. -/
theorem reservation_grant (b : AsyncTokenBucket) (now : Rat) :
    (b.reservation now).grant = max now b.nextAvailable := by
  simp only [Reservation.grant, AsyncTokenBucket.reservation, AsyncTokenBucket.delay]
  by_cases h : now ≤ b.nextAvailable
  · rw [max_eq_right h, max_eq_right (by linarith), add_sub_cancel]
  · rw [max_eq_left (by linarith), max_eq_left (by linarith), add_zero]

namespace Limiter

/-- What every step keeps. -/
structure Sound (l : Limiter) : Prop where
  spaced : Spaced Reservation.grant Reservation.gap l.grants
  next : ∀ r ∈ l.grants.getLast?, r.grant + r.gap ≤ l.bucket.nextAvailable
  queue : l.bucket.queueLength = l.waiting + l.cancelled

variable {l : Limiter} {i : Nat} {c : Caller}

theorem put_grants (h : l.callers[i]? = some c) (phase : Phase) : (l.put i c phase).grants = l.grants := by
  have hat : l.grants[i]? = some c.reservation := by
    rw [grants, getElem?_map, h]
    rfl
  obtain ⟨hi, hc⟩ := List.getElem?_eq_some_iff.mp hat
  simp only [put, grants, map_set] at hi hc ⊢
  rw [← hc, set_getElem_self]

theorem count_put (h : l.callers[i]? = some c) (phase : Phase) (p : Caller → Bool) :
    (l.put i c phase).callers.countP p + (if p c then 1 else 0) =
      l.callers.countP p + (if p { c with phase } then 1 else 0) := by
  obtain ⟨hi, rfl⟩ := List.getElem?_eq_some_iff.mp h
  have := boole_getElem_le_countP (p := p) hi
  simp only [put, countP_set hi]
  omega

/-- A caller that goes on waits as before. -/
theorem Sound.put (h : Sound l) (found : l.callers[i]? = some c)
    (live : c.waiting = true) (stays : Caller.waiting { c with phase } = true ∨ phase = .cancelled) :
    Sound (l.put i c phase) := by
  have hgrants := put_grants found phase
  have hwaiting := count_put found phase Caller.waiting
  have hcancelled := count_put found phase Caller.isCancelled
  have hold : c.isCancelled = false := by
    cases hphase : c.phase <;> simp_all [Caller.waiting, Caller.isCancelled]
  constructor
  · rw [hgrants]
    exact h.spaced
  · rw [hgrants]
    exact h.next
  · have hqueue := h.queue
    simp only [waiting, cancelled] at hqueue ⊢
    rcases stays with hstays | rfl
    · have hnew : Caller.isCancelled { c with phase } = false := by
        cases phase <;> simp_all [Caller.waiting, Caller.isCancelled]
      simp only [live, hstays, hold, hnew] at hwaiting hcancelled
      simp only [Limiter.put] at hwaiting hcancelled ⊢
      omega
    · have hnew : Caller.isCancelled { c with phase := .cancelled } = true := rfl
      have hgone : Caller.waiting { c with phase := .cancelled } = false := rfl
      simp only [live, hgone, hold, hnew] at hwaiting hcancelled
      simp only [Limiter.put] at hwaiting hcancelled ⊢
      omega

theorem Sound.acquire (h : Sound l) (now : Rat) (wall : Int) : Sound (l.acquire now wall) := by
  have hgrants : (l.acquire now wall).grants = l.grants ++ [l.bucket.reservation now] := by
    simp [grants, Limiter.acquire]
  have hgrant := reservation_grant l.bucket now
  constructor
  · rw [hgrants]
    apply h.spaced.snoc
    intro r hr
    have hlast := h.next r hr
    rw [hgrant]
    exact hlast.trans (le_max_right _ _)
  · rw [hgrants, getLast?_concat]
    rintro r ⟨⟩
    rw [hgrant]
    exact le_refl _
  · have hqueue := h.queue
    simp only [waiting, cancelled, Limiter.acquire, countP_append, AsyncTokenBucket.reserve] at hqueue ⊢
    simp [Caller.waiting, Caller.isCancelled, hqueue]
    omega

theorem wake_leaves (l : Limiter) (now : Rat) (i : Nat) (c : Caller) (started : Rat) :
    ∃ result, (l.wake now i c started).callers = (l.put i c (.returned result)).callers ∧
      (l.wake now i c started).bucket.queueLength = l.bucket.queueLength - 1 ∧
      (l.wake now i c started).bucket.nextAvailable = l.bucket.nextAvailable :=
  ⟨_, rfl, rfl, rfl⟩

theorem Sound.wake (h : Sound l) (found : l.callers[i]? = some c) (live : c.waiting = true)
    (now started : Rat) : Sound (l.wake now i c started) := by
  obtain ⟨result, hcallers, hlength, hnext⟩ := wake_leaves l now i c started
  have hgrants : (l.wake now i c started).grants = l.grants := by
    rw [grants, hcallers]
    exact put_grants found _
  have hwaiting := count_put found (.returned result) Caller.waiting
  have hcancelled := count_put found (.returned result) Caller.isCancelled
  have hold : c.isCancelled = false := by
    cases hphase : c.phase <;> simp_all [Caller.waiting, Caller.isCancelled]
  have hgone : Caller.waiting { c with phase := .returned result } = false := rfl
  have hnew : Caller.isCancelled { c with phase := .returned result } = false := rfl
  constructor
  · rw [hgrants]
    exact h.spaced
  · rw [hgrants, hnext]
    exact h.next
  · have hqueue := h.queue
    rw [live, hgone] at hwaiting
    rw [hold, hnew] at hcancelled
    simp only [waiting, cancelled, hcallers, hlength] at hqueue ⊢
    simp only [↓reduceIte, Bool.false_eq_true] at hwaiting hcancelled
    omega

theorem Sound.step (h : Sound l) (now : Rat) (call : Call) : Sound (l.step now call) := by
  cases call with
  | acquire wall => exact h.acquire now wall
  | sleep i =>
    simp only [Limiter.step]
    cases hc : l.callers[i]? with
    | none => exact h
    | some c =>
      by_cases hphase : c.phase = .reserved
      · simp only [hphase, ↓reduceIte]
        exact h.put hc (by simp [Caller.waiting, hphase]) (.inl rfl)
      · simp only [hphase, ↓reduceIte]
        exact h
  | wake i =>
    simp only [Limiter.step]
    cases hc : l.callers[i]? with
    | none => exact h
    | some c =>
      cases hphase : c.phase with
      | sleeping started =>
        simp only [hphase]
        exact h.wake hc (by simp [Caller.waiting, hphase]) now started
      | reserved | returned _ | cancelled =>
        simp only [hphase]
        exact h
  | cancel i =>
    simp only [Limiter.step]
    cases hc : l.callers[i]? with
    | none => exact h
    | some c =>
      cases hphase : c.phase with
      | sleeping started =>
        by_cases hdelay : 0 < c.reservation.delay
        · simp only [hphase, hdelay, ↓reduceIte]
          exact h.put hc (by simp [Caller.waiting, hphase]) (.inr rfl)
        · simp only [hphase, hdelay, ↓reduceIte]
          exact h
      | reserved | returned _ | cancelled =>
        simp only [hphase]
        exact h
  | updateRpm rpm => exact ⟨h.spaced, h.next, h.queue⟩

theorem after_sound (connectorId operation : String) (rpm : Int) (calls : List (Rat × Call)) :
    Sound ((new connectorId operation rpm).after calls) := by
  have keeps (l : Limiter) (h : Sound l) : Sound (l.after calls) := by
    induction calls generalizing l with
    | nil => exact h
    | cons call rest ih => exact ih _ (h.step call.1 call.2)
  exact keeps _ ⟨.nil, nofun, rfl⟩

/-- The grants keep to the rate. -/
structure Regular (l : Limiter) : Prop where
  increasing : l.grants.Pairwise fun a b => a.grant < b.grant
  apart : ∀ k a b, l.grants[k]? = some a → l.grants[k + 1]? = some b →
    a.grant + 60 / (a.rpm.val : Rat) ≤ b.grant
  window : ∀ (start length : Rat) (rpm : Int), (∀ r ∈ l.window start length, r.rpm.val ≤ rpm) →
    (l.window start length).length ≤ ⌊length * rpm / 60⌋₊ + 1

theorem Sound.regular (h : Sound l) : Regular l := by
  have positive (r : Reservation) : 0 < r.gap := r.rpm.interval_pos
  constructor
  · exact h.spaced.increasing positive
  · intro k a b ha hb
    obtain ⟨hk, rfl⟩ := List.getElem?_eq_some_iff.mp ha
    obtain ⟨hk', rfl⟩ := List.getElem?_eq_some_iff.mp hb
    exact isChain_iff_getElem.mp h.spaced k hk'
  · intro start length rpm slow
    by_cases hrpm : 0 < rpm
    · have hrate : (0 : Rat) < rpm := by exact_mod_cast hrpm
      have hroom : length * rpm / 60 = length / (60 / rpm) := by field_simp
      rw [hroom]
      apply window_count h.spaced (fun r => (positive r).le) (by positivity)
      intro r hr hfrom hto
      have hle := slow r (by simp [window, hr, hfrom, hto])
      have hle : (r.rpm.val : Rat) ≤ rpm := by exact_mod_cast hle
      have hpos : (0 : Rat) < r.rpm.val := by exact_mod_cast r.rpm.positive
      exact div_le_div_of_nonneg_left (by norm_num) hpos hle
    · cases hin : l.window start length with
      | nil => simp
      | cons r rest =>
        have hle := slow r (by simp [hin])
        have hpos := r.rpm.positive
        omega

theorem cancelled_zero : l.cancelled = 0 ↔ ∀ c ∈ l.callers, c.phase ≠ .cancelled := by
  simp [cancelled, Caller.isCancelled]

/-- The call of a sleeper that wakes returns a result. -/
def Returns (l : Limiter) (now : Rat) (i : Nat) (result : RateLimitAcquireResult) : Prop :=
  ∃ c started, l.callers[i]? = some c ∧ c.phase = .sleeping started ∧
    (l.step now (.wake i)).callers[i]? = some { c with phase := .returned result }

theorem Returns.reports (h : Returns l now i result) :
    result.queueLength = (l.step now (.wake i)).bucket.queueLength ∧
      (l.step now (.wake i)).cancelled = l.cancelled := by
  obtain ⟨c, started, hc, hphase, hreturned⟩ := h
  have hwake : l.step now (.wake i) = l.wake now i c started := by
    simp [step, hc, hphase]
  obtain ⟨hi, hat⟩ := List.getElem?_eq_some_iff.mp hc
  have hcount := count_put hc (.returned result) Caller.isCancelled
  rw [hwake] at hreturned ⊢
  simp only [Limiter.wake, Limiter.put, getElem?_set_self hi, Option.some.injEq,
    Caller.mk.injEq, true_and, Phase.returned.injEq] at hreturned
  subst hreturned
  constructor
  · rfl
  · have hold : c.isCancelled = false := by simp [Caller.isCancelled, hphase]
    rw [hold] at hcount
    exact hcount

/-- The grants keep to the rate whatever happens, and the queue is reported as long as it is until a
sleeper is cancelled. -/
theorem limiter_accounting (connectorId operation : String) (rpm : Int) (calls : List (Rat × Call)) :
    let l := (new connectorId operation rpm).after calls
    l.Regular ∧ (l.bucket.snapshot.queueLength = l.waiting ↔ ∀ c ∈ l.callers, c.phase ≠ .cancelled) ∧
      ∀ now i result, l.Returns now i result →
        (result.queueLength = (l.step now (.wake i)).waiting ↔ ∀ c ∈ l.callers, c.phase ≠ .cancelled) := by
  intro l
  have hl : Sound l := after_sound connectorId operation rpm calls
  have hqueue := hl.queue
  constructor
  · exact hl.regular
  constructor
  · rw [← cancelled_zero]
    have hreported : l.bucket.snapshot.queueLength = l.bucket.queueLength := rfl
    omega
  · intro now i result hreturns
    obtain ⟨hlength, hcancelled⟩ := hreturns.reports
    have hqueue' := (hl.step now (.wake i)).queue
    rw [← cancelled_zero]
    omega

/-- A caller that need not sleep. -/
def alone : List (Rat × Call) := [(0, .acquire 0), (0, .sleep 0)]

theorem limiter_accounting_alone :
    ∃ result, ((new "woocommerce:primary" "read" 60).after alone).Returns 0 0 result ∧ result.queueLength =
        (((new "woocommerce:primary" "read" 60).after alone).step 0 (.wake 0)).waiting := by
  refine ⟨_, ⟨_, _, rfl, rfl, rfl⟩, ?_⟩
  apply ((limiter_accounting "woocommerce:primary" "read" 60 alone).2.2 0 0 _
    ⟨_, _, rfl, rfl, rfl⟩).mpr
  decide +kernel

/-- Two callers at one instant. The second has to sleep, and is cancelled. -/
def cancelledSleeper : List (Rat × Call) :=
  [(0, .acquire 0), (0, .sleep 0), (0, .acquire 0), (0, .sleep 1), (0, .wake 0), (0, .cancel 1)]

theorem cancelled_sleeper_counted :
    ((new "woocommerce:primary" "read" 60).after cancelledSleeper).bucket.snapshot.queueLength = 1 ∧
      ((new "woocommerce:primary" "read" 60).after cancelledSleeper).waiting = 0 := by
  decide +kernel

end Limiter

end FlowHub.RateLimit
