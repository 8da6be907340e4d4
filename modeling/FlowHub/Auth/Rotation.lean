import FlowHub.Auth.Tokens
import Mathlib.Data.List.Chain
import Mathlib.Tactic.Push
import Mathlib.Tactic.SplitIfs

namespace FlowHub.Auth

open List

/-- No `refresh` holds the token that is looked up. -/
def Alone (w : World) (label : Option String) : Prop :=
  ∀ tokenHash ∈ label, ∀ r ∈ w.requests, r.holds tokenHash = false

def Request.pending (tokenHash : String) (r : Request) : Bool := r.holds tokenHash || r.spent tokenHash

/-- The pairs issued in a session, in their order. -/
def World.sessionLog (w : World) (session : String) : List Issue :=
  w.issued.filter fun e => decide (e.session = session)

/-- Each pair was issued in the place of the one before it. -/
def Succeeds (a b : Issue) : Prop := b.parent = some a.child

/-- How often a token has been or is being replaced. -/
def World.uses (w : World) (tokenHash : String) : Nat :=
  w.requests.countP (Request.pending tokenHash) + w.issued.countP fun e => decide (e.parent = some tokenHash)

structure Sound (w : World) : Prop where
  tokens : ∀ t ∈ w.tokens, t.tokenHash ∈ w.issued.map Issue.child
  hashes : (w.tokens.map FlowHubRefreshToken.tokenHash).Nodup
  children : (w.issued.map Issue.child).Nodup
  sessions : ∀ e ∈ w.issued, e.session ∈ w.issued.map Issue.child
  parents : ∀ e ∈ w.issued, ∀ h ∈ e.parent, h ∈ w.issued.map Issue.child
  known : ∀ r ∈ w.requests, ∀ h, r.pending h = true → h ∈ w.issued.map Issue.child
  once : ∀ h, w.uses h ≤ 1
  closed : ∀ h, ((∃ r ∈ w.requests, r.spent h = true) ∨ ∃ e ∈ w.issued, e.parent = some h) →
    ∀ t ∈ w.tokens, t.tokenHash = h → t.revokedAt ≠ none
  answers : ∀ e ∈ w.issued, w.requests[e.request]? = some (.answered e.child)
  chain : ∀ session, (w.sessionLog session).IsChain Succeeds

theorem start_sound : Sound World.start where
  tokens := nofun
  hashes := nodup_nil
  children := nodup_nil
  sessions := nofun
  parents := nofun
  known := nofun
  once := by simp [World.uses, World.start]
  closed h := by
    rintro (⟨r, hr, -⟩ | ⟨e, he, -⟩)
    · cases hr
    · cases he
  answers := nofun
  chain session := by simp [World.sessionLog, World.start]

/-- An entry of a chain is the last one, or another one follows it. -/
theorem last_or_next {α : Type} {R : α → α → Prop} {l : List α} (h : l.IsChain R) {a : α} (ha : a ∈ l) :
    l.getLast? = some a ∨ ∃ b ∈ l, R a b := by
  obtain ⟨before, after, rfl⟩ := append_of_mem ha
  cases after with
  | nil => exact .inl (by simp)
  | cons b rest =>
    right
    rw [isChain_append_cons_cons] at h
    exact ⟨b, by simp, h.2.1⟩

section

variable {w : World} {i : Nat} {request next : Request}

theorem lt_of_getElem? (h : w.requests[i]? = some request) : i < w.requests.length :=
  (List.getElem?_eq_some_iff.mp h).1

theorem mem_of_getElem? (h : w.requests[i]? = some request) : request ∈ w.requests :=
  List.mem_of_getElem? h

theorem mem_move {r : Request} (h : r ∈ (w.move i next).requests) : r ∈ w.requests ∨ r = next :=
  mem_or_eq_of_mem_set h

/-- What a request counts for, where it goes on. -/
theorem uses_move (next : Request) (h : w.requests[i]? = some request) (tokenHash : String) :
    (w.move i next).uses tokenHash + (if request.pending tokenHash then 1 else 0) =
      w.uses tokenHash + if next.pending tokenHash then 1 else 0 := by
  obtain ⟨hi, hget⟩ := List.getElem?_eq_some_iff.mp h
  unfold World.uses World.move
  rw [countP_set hi, hget]
  by_cases hold : request.pending tokenHash = true
  · have hpos : 0 < w.requests.countP (Request.pending tokenHash) :=
      countP_pos_iff.mpr ⟨request, mem_of_getElem? h, hold⟩
    simp only [hold, if_true]
    omega
  · simp only [hold]
    simp
    omega

theorem answers_move {e : Issue} (h : w.requests[i]? = some request) (hopen : request.isOpen = true)
    (he : w.requests[e.request]? = some (.answered e.child)) :
    (w.move i next).requests[e.request]? = some (.answered e.child) := by
  have hne : i ≠ e.request := by
    rintro rfl
    rw [h] at he
    cases he
    cases hopen
  unfold World.move
  rw [getElem?_set_ne hne, he]

/-- A request goes on without a token that it did not hold before. -/
theorem Sound.move (hs : Sound w) (h : w.requests[i]? = some request) (hopen : request.isOpen = true)
    (hpending : ∀ t, next.pending t = true → request.pending t = true)
    (hspent : ∀ t, next.spent t = true → ∀ row ∈ w.tokens, row.tokenHash = t → row.revokedAt ≠ none) :
    Sound (w.move i next) where
  tokens := hs.tokens
  hashes := hs.hashes
  children := hs.children
  sessions := hs.sessions
  parents := hs.parents
  known r hr t ht := by
    rcases mem_move hr with hr | rfl
    · exact hs.known r hr t ht
    · exact hs.known request (mem_of_getElem? h) t (hpending t ht)
  once t := by
    have hmove := uses_move next h t
    have honce := hs.once t
    by_cases hnext : next.pending t = true
    · rw [if_pos hnext, if_pos (hpending t hnext)] at hmove
      omega
    · rw [if_neg hnext] at hmove
      omega
  closed t ht row hrow hkey := by
    rcases ht with ⟨r, hr, hspentr⟩ | hissued
    · rcases mem_move hr with hr | rfl
      · exact hs.closed t (.inl ⟨r, hr, hspentr⟩) row hrow hkey
      · exact hspent t hspentr row hrow hkey
    · exact hs.closed t (.inr hissued) row hrow hkey
  answers e he := answers_move h hopen (hs.answers e he)
  chain := hs.chain

variable {tokens : List FlowHubRefreshToken} {tokenHash : String} {token : FlowHubRefreshToken}
  {t : FlowHubRefreshToken}

/-- Rows are removed, or revoked. -/
theorem Sound.rows (hs : Sound w)
    (hkeys : (tokens.map FlowHubRefreshToken.tokenHash).Sublist (w.tokens.map FlowHubRefreshToken.tokenHash))
    (hrows : ∀ t ∈ tokens, t ∈ w.tokens ∨ t.revokedAt ≠ none) : Sound { w with tokens } where
  tokens t ht := by
    obtain ⟨t', ht', hkey⟩ := mem_map.mp (hkeys.subset (mem_map_of_mem ht))
    exact hkey ▸ hs.tokens t' ht'
  hashes := hs.hashes.sublist hkeys
  children := hs.children
  sessions := hs.sessions
  parents := hs.parents
  known := hs.known
  once := hs.once
  closed t hclosed row hrow hkey := by
    rcases hrows row hrow with hold | hrevoked
    · exact hs.closed t hclosed row hold hkey
    · exact hrevoked
  answers := hs.answers
  chain := hs.chain

theorem revoke_keys (tokens : List FlowHubRefreshToken) (tokenHash : String) (now : Int) :
    (revokeRefreshToken tokens tokenHash now).map FlowHubRefreshToken.tokenHash =
      tokens.map FlowHubRefreshToken.tokenHash := by
  unfold revokeRefreshToken Table.set
  rw [map_map]
  refine map_congr_left fun t _ => ?_
  by_cases ht : t.tokenHash = tokenHash
  · simp [ht]
  · simp [ht]

theorem revoke_rows (h : t ∈ revokeRefreshToken tokens tokenHash now) :
    (t ∈ tokens ∧ t.tokenHash ≠ tokenHash) ∨ t.revokedAt ≠ none := by
  rcases Table.mem_set.mp h with ⟨row, -, -, rfl⟩ | hold
  · exact .inr nofun
  · exact .inl hold

theorem Sound.revoke (hs : Sound w) (tokenHash : String) :
    Sound { w with tokens := revokeRefreshToken w.tokens tokenHash w.now } := by
  apply hs.rows
  · rw [revoke_keys]
  · intro t ht
    exact (revoke_rows ht).imp_left And.left

theorem getActive_some (h : getActiveRefreshToken tokens tokenHash = some t) :
    t ∈ tokens ∧ t.tokenHash = tokenHash ∧ t.revokedAt = none := by
  have hprop := find?_some h
  exact ⟨mem_of_find?_eq_some h, by simpa using hprop⟩

theorem Sound.refuse (hs : Sound w) (h : w.requests[i]? = some request) (hopen : request.isOpen = true) :
    Sound (w.move i .refused) := hs.move h hopen nofun nofun

/-- A token that is active and that no request holds has not been used. -/
theorem Sound.unused (hs : Sound w) (ht : t ∈ w.tokens)
    (hactive : t.revokedAt = none) (halone : ∀ r ∈ w.requests, r.holds t.tokenHash = false) :
    w.uses t.tokenHash = 0 := by
  have hrequests : w.requests.countP (Request.pending t.tokenHash) = 0 := by
    rw [countP_eq_zero]
    intro r hr hpending
    rw [Request.pending, halone r hr, Bool.false_or] at hpending
    exact hs.closed _ (.inl ⟨r, hr, hpending⟩) t ht rfl hactive
  have hissued : (w.issued.countP fun e => decide (e.parent = some t.tokenHash)) = 0 := by
    rw [countP_eq_zero]
    intro e he hparent
    exact hs.closed _ (.inr ⟨e, he, by simpa using hparent⟩) t ht rfl hactive
  rw [World.uses, hrequests, hissued]

theorem Sound.look (hs : Sound w) (h : w.requests[i]? = some (.refresh tokenHash))
    (halone : Alone w (some tokenHash)) : Sound (w.look i tokenHash) := by
  unfold World.look
  split
  · exact hs.refuse h rfl
  rename_i stored hstored
  obtain ⟨hmem, hkey, hactive⟩ := getActive_some hstored
  split
  · exact hs.refuse h rfl
  have hunused := hs.unused hmem hactive (hkey ▸ halone tokenHash rfl)
  refine { hs with known := ?_, once := ?_, closed := ?_, answers := ?_ }
  · intro r hr t ht
    rcases mem_move hr with hr | rfl
    · exact hs.known r hr t ht
    · simp only [Request.pending, Request.holds, Request.spent, Bool.or_false, decide_eq_true_eq] at ht
      exact ht ▸ hs.tokens stored hmem
  · intro t
    have hmove := uses_move (.found stored) h t
    have honce := hs.once t
    by_cases ht : stored.tokenHash = t
    · subst ht
      rw [hunused] at hmove
      split_ifs at hmove <;> omega
    · have hnot : Request.pending t (.found stored) = false := by
        simp [Request.pending, Request.holds, Request.spent, ht]
      rw [hnot] at hmove
      simp only [Bool.false_eq_true, if_false] at hmove
      omega
  · intro t ht row hrow hrowKey
    rcases ht with ⟨r, hr, hspent⟩ | hissued
    · rcases mem_move hr with hr | rfl
      · exact hs.closed t (.inl ⟨r, hr, hspent⟩) row hrow hrowKey
      · cases hspent
    · exact hs.closed t (.inr hissued) row hrow hrowKey
  · exact fun e he => answers_move h rfl (hs.answers e he)

theorem Sound.accept (hs : Sound w)
    (h : w.requests[i]? = some (.found token)) : Sound (w.accept i token) := by
  unfold World.accept
  split
  · exact hs.refuse h rfl
  · split
    · exact hs.move h rfl (fun _ ht => ht) nofun
    · exact hs.refuse h rfl

theorem Sound.seek (hs : Sound w) (h : w.requests[i]? = some (.admitted token)) : Sound (w.seek i token) := by
  unfold World.seek
  split
  · exact hs.move h rfl (fun _ ht => ht) nofun
  rename_i hnone
  apply hs.move h rfl
  · intro t ht
    simpa [Request.pending, Request.holds, Request.spent] using ht
  · intro t ht row hrow hkey
    simp only [Request.spent, decide_eq_true_eq] at ht
    exact absurd (Table.has_iff.mpr ⟨row, hrow, hkey.trans ht.symm⟩) hnone

theorem Sound.revokeStep (hs : Sound w)
    (h : w.requests[i]? = some (.revoking token)) : Sound (w.revoke i token) := by
  unfold World.revoke
  split
  · refine Sound.move (w := { w with tokens := _ }) (hs.revoke token.tokenHash) h rfl ?_ ?_
    · intro t ht
      simpa [Request.pending, Request.holds, Request.spent] using ht
    · intro t ht row hrow hkey
      simp only [Request.spent, decide_eq_true_eq] at ht
      rcases revoke_rows hrow with ⟨-, hne⟩ | hrevoked
      · exact absurd (hkey.trans ht.symm) hne
      · exact hrevoked
  · exact hs.refuse h rfl

theorem sessionLog_issue (w : World) (issued : Issue) (session : String) :
    ({ w with issued := w.issued ++ [issued] } : World).sessionLog session =
      if issued.session = session then w.sessionLog session ++ [issued] else w.sessionLog session := by
  unfold World.sessionLog
  rw [filter_append]
  split
  · rename_i hsession
    simp [hsession]
  · rename_i hsession
    simp [hsession]

theorem session_of_entry (hs : Sound w) {e : Issue} (he : e ∈ w.issued) : w.session e.child = e.session := by
  unfold World.session
  rw [Table.get_of_mem hs.children he]
  rfl

/-- The pair that replaces an unused token stands behind the pair of the token. -/
theorem chain_issue (hs : Sound w) {fresh : String} (hfresh : fresh ∉ w.issued.map Issue.child)
    (hparent : ∀ p ∈ parent, p ∈ w.issued.map Issue.child ∧ ∀ e ∈ w.issued, e.parent ≠ some p) (session : String) :
    (({ w with issued := w.issued ++ [⟨parent, fresh, (parent.map w.session).getD fresh, i⟩] } :
      World).sessionLog session).IsChain Succeeds := by
  rw [sessionLog_issue]
  split
  · rename_i hsession
    cases parent with
    | none =>
      have hempty : w.sessionLog session = [] := by
        apply filter_eq_nil_iff.mpr
        intro e he heq
        have hroot := hs.sessions e he
        rw [of_decide_eq_true heq, ← hsession] at hroot
        exact hfresh hroot
      rw [hempty]
      exact isChain_singleton _
    | some p =>
      obtain ⟨hknown, hunused⟩ := hparent p rfl
      obtain ⟨entry, hentry, rfl⟩ := mem_map.mp hknown
      have hin : entry ∈ w.sessionLog session := by
        refine mem_filter.mpr ⟨hentry, decide_eq_true ?_⟩
        rw [← hsession, Option.map_some, Option.getD_some, session_of_entry hs hentry]
      have hlast : (w.sessionLog session).getLast? = some entry := by
        rcases last_or_next (hs.chain session) hin with hlast | ⟨b, hb, hnext⟩
        · exact hlast
        · exact absurd hnext (hunused b (mem_filter.mp hb).1)
      apply (hs.chain session).append (isChain_singleton _)
      intro a ha b hb
      rw [hlast] at ha
      cases ha
      cases hb
      rfl
  · exact hs.chain session

theorem getElem?_move_self (h : w.requests[i]? = some request) :
    (w.move i next).requests[i]? = some next := by
  unfold World.move
  exact getElem?_set_self (lt_of_getElem? h)

/-- A token is issued, for a login or behind the revocation of another one. -/
theorem Sound.issue (hs : Sound w) (h : w.requests[i]? = some request) (hopen : request.isOpen = true)
    (hparent : ∀ t, request.pending t = true ↔ parent = some t)
    (hspent : ∀ t, parent = some t → request.spent t = true)
    (hfresh : fresh ∉ w.issued.map Issue.child) : Sound (w.issue i parent userId fresh) := by
  unfold World.issue
  split
  swap
  · exact hs.refuse h hopen
  have hmem := mem_of_getElem? h
  have hunused : ∀ p ∈ parent, p ∈ w.issued.map Issue.child ∧ ∀ e ∈ w.issued, e.parent ≠ some p := by
    intro p hp
    have hpending := (hparent p).mpr hp
    refine ⟨hs.known request hmem p hpending, ?_⟩
    intro e he heq
    have hrequests : 0 < w.requests.countP (Request.pending p) :=
      countP_pos_iff.mpr ⟨request, hmem, hpending⟩
    have hissued : 0 < w.issued.countP fun e => decide (e.parent = some p) :=
      countP_pos_iff.mpr ⟨e, he, decide_eq_true heq⟩
    have honce := hs.once p
    unfold World.uses at honce
    omega
  have hnew : ∀ t, t ∈ w.issued.map Issue.child → t ≠ fresh := fun t ht heq => hfresh (heq ▸ ht)
  constructor
  · intro t ht
    rw [map_append, mem_append]
    rcases mem_append.mp ht with ht | ht
    · exact .inl (hs.tokens t ht)
    · rw [mem_singleton] at ht
      subst ht
      exact .inr (mem_singleton.mpr rfl)
  · change ((w.tokens ++ [_]).map FlowHubRefreshToken.tokenHash).Nodup
    rw [map_append, nodup_append_comm, map_cons, map_nil, singleton_append, nodup_cons]
    refine ⟨?_, hs.hashes⟩
    intro hin
    obtain ⟨t, ht, heq⟩ := mem_map.mp hin
    exact hnew _ (hs.tokens t ht) heq
  · dsimp only
    rw [map_append, nodup_append_comm, map_cons, map_nil, singleton_append, nodup_cons]
    exact ⟨hfresh, hs.children⟩
  · intro e he
    rw [map_append, mem_append]
    rcases mem_append.mp he with he | he
    · exact .inl (hs.sessions e he)
    rw [mem_singleton] at he
    subst he
    cases hp : parent with
    | none => exact .inr (mem_singleton.mpr rfl)
    | some p =>
      left
      obtain ⟨entry, hentry, rfl⟩ := mem_map.mp (hunused p hp).1
      rw [Option.map_some, Option.getD_some, session_of_entry hs hentry]
      exact hs.sessions entry hentry
  · intro e he p hp
    rw [map_append, mem_append]
    rcases mem_append.mp he with he | he
    · exact .inl (hs.parents e he p hp)
    · rw [mem_singleton] at he
      subst he
      exact .inl (hunused p hp).1
  · intro r hr t ht
    rw [map_append, mem_append]
    rcases mem_move hr with hr | rfl
    · exact .inl (hs.known r hr t ht)
    · cases ht
  · intro t
    have hmove := uses_move (.answered fresh) h t
    have honce := hs.once t
    unfold World.uses at hmove honce ⊢
    rw [countP_append, countP_singleton]
    have hanswered : Request.pending t (.answered fresh) = false := rfl
    rw [hanswered] at hmove
    by_cases hp : parent = some t
    · rw [if_pos ((hparent t).mpr hp)] at hmove
      simp only [hp, decide_true, if_true, Bool.false_eq_true, if_false] at hmove ⊢
      change (w.move i (.answered fresh)).requests.countP _ + ((w.move i (.answered fresh)).issued.countP _ + 1) ≤ 1
      omega
    · rw [if_neg fun hpending => hp ((hparent t).mp hpending)] at hmove
      simp only [hp, decide_false, Bool.false_eq_true, if_false] at hmove ⊢
      change (w.move i (.answered fresh)).requests.countP _ + ((w.move i (.answered fresh)).issued.countP _ + 0) ≤ 1
      omega
  · intro t ht row hrow hkey
    have hclosed : (∃ r ∈ w.requests, r.spent t = true) ∨ ∃ e ∈ w.issued, e.parent = some t := by
      rcases ht with ⟨r, hr, hspentr⟩ | ⟨e, he, hp⟩
      · rcases mem_move hr with hr | rfl
        · exact .inl ⟨r, hr, hspentr⟩
        · cases hspentr
      · rcases mem_append.mp he with he | he
        · exact .inr ⟨e, he, hp⟩
        · rw [mem_singleton] at he
          subst he
          exact .inl ⟨request, hmem, hspent t hp⟩
    rcases mem_append.mp hrow with hrow | hrow
    · exact hs.closed t hclosed row hrow hkey
    rw [mem_singleton] at hrow
    subst hrow
    exfalso
    rcases hclosed with ⟨r, hr, hspentr⟩ | ⟨e, he, hp⟩
    · exact hnew t (hs.known r hr t (by simp [Request.pending, hspentr])) hkey.symm
    · exact hnew t (hs.parents e he t hp) hkey.symm
  · intro e he
    rcases mem_append.mp he with he | he
    · exact answers_move h hopen (hs.answers e he)
    · rw [mem_singleton] at he
      subst he
      exact getElem?_move_self h
  · exact chain_issue hs hfresh hunused

theorem Sound.arrive (hs : Sound w) (h : request.arrives = true) :
    Sound { w with requests := w.requests ++ [request] } := by
  have hidle : ∀ t, request.pending t = false := by
    intro t
    cases request <;> first | rfl | cases h
  have hmem : ∀ r ∈ w.requests ++ [request], ∀ t, r.pending t = true → r ∈ w.requests := by
    intro r hr t ht
    rcases mem_append.mp hr with hr | hr
    · exact hr
    · rw [mem_singleton.mp hr, hidle] at ht
      cases ht
  refine { hs with known := ?_, once := ?_, closed := ?_, answers := ?_ }
  · exact fun r hr t ht => hs.known r (hmem r hr t ht) t ht
  · intro t
    have honce := hs.once t
    unfold World.uses at honce ⊢
    rw [countP_append, countP_singleton, hidle]
    simpa using honce
  · intro t ht
    apply hs.closed t
    rcases ht with ⟨r, hr, hspent⟩ | hissued
    · exact .inl ⟨r, hmem r hr t (by simp [Request.pending, hspent]), hspent⟩
    · exact .inr hissued
  · intro e he
    have hanswered := hs.answers e he
    rw [getElem?_append_left (lt_of_getElem? hanswered), hanswered]

/-- The clock and the users do not matter. -/
theorem Sound.congr (hs : Sound w) (htokens : w'.tokens = w.tokens)
    (hrequests : w'.requests = w.requests) (hissued : w'.issued = w.issued) : Sound w' := by
  obtain ⟨now, users, tokens, requests, issued⟩ := w
  obtain ⟨now', users', tokens', requests', issued'⟩ := w'
  cases htokens
  cases hrequests
  cases hissued
  exact ⟨hs.tokens, hs.hashes, hs.children, hs.sessions, hs.parents, hs.known, hs.once, hs.closed,
    hs.answers, hs.chain⟩

theorem Sound.account (hs : Sound w) (users : List FlowHubUser) : Sound (w.account users) := by
  have hrows : Sound { w with tokens := w.tokens.filter fun t => (getUserById users t.userId).isSome } := by
    apply hs.rows
    · exact filter_sublist.map _
    · exact fun t ht => .inl (mem_filter.mp ht).1
  exact hrows.congr rfl rfl rfl

theorem Sound.revokeLogout (hs : Sound w)
    (h : w.requests[i]? = some (.leaving tokenHash)) : Sound (w.revokeLogout i tokenHash) := by
  apply (hs.revoke tokenHash).move h rfl
  · intro t ht
    simp [Request.pending, Request.holds, Request.spent] at ht
  · intro t ht
    simp [Request.spent] at ht

theorem Sound.seekLogout (hs : Sound w)
    (h : w.requests[i]? = some (.logout tokenHash)) : Sound (w.seekLogout i tokenHash) := by
  unfold World.seekLogout
  split
  all_goals
    apply hs.move h rfl
    · intro t ht
      simp [Request.pending, Request.holds, Request.spent] at ht
    · intro t ht
      simp [Request.spent] at ht

theorem step_sound (hs : Sound w) (h : Step w label w') (halone : Alone w label) : Sound w' := by
  cases h with
  | time later h => exact hs.congr rfl rfl rfl
  | account users => exact hs.account users
  | arrive request h => exact hs.arrive h
  | look i tokenHash h => exact hs.look h halone
  | accept i token h => exact hs.accept h
  | seek i token h => exact hs.seek h
  | revoke i token h => exact hs.revokeStep h
  | issue i token fresh h hfresh =>
    apply hs.issue h rfl _ _ hfresh
    · intro t
      simp [Request.pending, Request.holds, Request.spent]
    · intro t ht
      simpa [Request.spent] using ht
  | issueLogin i userId fresh h hfresh =>
    apply hs.issue h rfl _ _ hfresh
    · intro t
      simp [Request.pending, Request.holds, Request.spent]
    · intro t ht
      cases ht
  | seekLogout i tokenHash h => exact hs.seekLogout h
  | revokeLogout i tokenHash h => exact hs.revokeLogout h
  | cut i request h hopen => exact hs.refuse h hopen

theorem run_sound {w w' : World} (h : Run Alone w w') (hs : Sound w) : Sound w' := by
  induction h with
  | refl => exact hs
  | step _ hstep hc ih => exact step_sound ih hstep hc

end

/-- A step leaves a request that has ended as it is. -/
theorem refused_stays {w w' : World} {label : Option String} (h : Step w label w') {i : Nat}
    (hi : w.requests[i]? = some .refused) : w'.requests[i]? = some .refused := by
  have hmove {j : Nat} {request next : Request} (hj : w.requests[j]? = some request)
      (hopen : request.isOpen = true) : (w.move j next).requests[i]? = some .refused := by
    have hne : j ≠ i := by
      rintro rfl
      rw [hi] at hj
      cases hj
      cases hopen
    unfold World.move
    rw [getElem?_set_ne hne, hi]
  cases h with
  | time later h => exact hi
  | account users => exact hi
  | arrive request h =>
    rw [getElem?_append_left (lt_of_getElem? hi), hi]
  | look j tokenHash h =>
    unfold World.look
    split
    · exact hmove h rfl
    · split <;> exact hmove h rfl
  | accept j token h =>
    unfold World.accept
    split
    · exact hmove h rfl
    · split <;> exact hmove h rfl
  | seek j token h =>
    unfold World.seek
    split <;> exact hmove h rfl
  | revoke j token h =>
    unfold World.revoke
    split <;> exact hmove h rfl
  | issue j token fresh h hfresh =>
    unfold World.issue
    split <;> exact hmove h rfl
  | issueLogin j userId fresh h hfresh =>
    unfold World.issue
    split <;> exact hmove h rfl
  | seekLogout j tokenHash h =>
    unfold World.seekLogout
    split <;> exact hmove h rfl
  | revokeLogout j tokenHash h => exact hmove h rfl
  | cut j request h hopen => exact hmove h hopen

theorem run_refused {C : World → Option String → Prop} {w w' : World} (h : Run C w w') {i : Nat}
    (hi : w.requests[i]? = some .refused) : w'.requests[i]? = some .refused := by
  induction h with
  | refl => exact hi
  | step _ hstep _ ih => exact refused_stays hstep ih

/-- A token that a client can still use. -/
def World.usable (w : World) (t : FlowHubRefreshToken) : Prop :=
  t ∈ w.tokens ∧ t.revokedAt = none ∧ w.now ≤ t.expiresAt

instance (w : World) (t : FlowHubRefreshToken) : Decidable (w.usable t) :=
  inferInstanceAs (Decidable (_ ∧ _ ∧ _))

/-- A `refresh` that looks up a token which is revoked, gone or expired is refused. -/
theorem look_refused {w : World} {i : Nat} {tokenHash : String}
    (hi : w.requests[i]? = some (.refresh tokenHash))
    (h : ∀ t, w.usable t → t.tokenHash ≠ tokenHash) :
    (w.look i tokenHash).requests[i]? = some .refused := by
  unfold World.look
  split
  · exact getElem?_move_self hi
  rename_i stored hstored
  obtain ⟨hmem, hkey, hactive⟩ := getActive_some hstored
  split
  · exact getElem?_move_self hi
  · rename_i hexpiry
    exact absurd hkey (h stored ⟨hmem, hactive, not_lt.mp hexpiry⟩)

/-- Two usable tokens of one session are one. -/
theorem usable_unique {w : World} (hs : Sound w) {a b : FlowHubRefreshToken} (ha : w.usable a)
    (hb : w.usable b) (hsession : w.session a.tokenHash = w.session b.tokenHash) : a = b := by
  have hlast : ∀ t, w.usable t →
      ∃ e, (w.sessionLog (w.session t.tokenHash)).getLast? = some e ∧ e.child = t.tokenHash := by
    intro t ht
    obtain ⟨e, he, hchild⟩ := mem_map.mp (hs.tokens t ht.1)
    have hin : e ∈ w.sessionLog (w.session t.tokenHash) := by
      refine mem_filter.mpr ⟨he, decide_eq_true ?_⟩
      rw [← hchild, session_of_entry hs he]
    rcases last_or_next (hs.chain _) hin with hlast | ⟨next, hnext, hsucceeds⟩
    · exact ⟨e, hlast, hchild⟩
    · have hparent : next.parent = some t.tokenHash := hchild ▸ hsucceeds
      exact absurd ht.2.1 (hs.closed _ (.inr ⟨next, (mem_filter.mp hnext).1, hparent⟩) t ht.1 rfl)
  obtain ⟨e, he, hea⟩ := hlast a ha
  obtain ⟨e', he', heb⟩ := hlast b hb
  rw [hsession] at he
  rw [he] at he'
  cases he'
  exact inj_on_of_nodup_map hs.hashes ha.1 hb.1 (hea.symm.trans heb)

/-- In a run in which a token is looked up only while no other `refresh` of it stands between its read and
the commit of its revocation: each token is replaced at most once; a `refresh` that looked up a token
which was revoked or had expired never issues one; and the tokens of a session form a chain with at most
one usable member. -/
theorem refresh_tokens_single_use {w : World} (h : Run Alone .start w) :
    (∀ tokenHash, (w.issued.countP fun e => decide (e.parent = some tokenHash)) ≤ 1) ∧
    (∀ i tokenHash w', w.requests[i]? = some (.refresh tokenHash) →
      (∀ t, w.usable t → t.tokenHash ≠ tokenHash) → Run Alone (w.look i tokenHash) w' →
      ∀ e ∈ w'.issued, e.request ≠ i) ∧
    ∀ session, (w.sessionLog session).IsChain Succeeds ∧
      ∀ a b, w.usable a → w.usable b → w.session a.tokenHash = session →
        w.session b.tokenHash = session → a = b := by
  have hs := run_sound h start_sound
  refine ⟨?_, ?_, ?_⟩
  · intro tokenHash
    have honce := hs.once tokenHash
    unfold World.uses at honce
    omega
  · intro i tokenHash w' hi hdead hrun e he heq
    have hrefused := look_refused hi hdead
    have hlook : Sound (w.look i tokenHash) := by
      unfold World.look at hrefused ⊢
      split
      · exact hs.refuse hi rfl
      rename_i stored hstored
      obtain ⟨hmem, hkey, hactive⟩ := getActive_some hstored
      split
      · exact hs.refuse hi rfl
      · rename_i hexpiry
        exact absurd hkey (hdead stored ⟨hmem, hactive, not_lt.mp hexpiry⟩)
    have hanswered := (run_sound hrun hlook).answers e he
    rw [heq, run_refused hrun hrefused] at hanswered
    cases hanswered
  · intro session
    refine ⟨hs.chain session, ?_⟩
    intro a b ha hb hsa hsb
    exact usable_unique hs ha hb (hsa.trans hsb.symm)

namespace Sample

/-- One user who has signed in. -/
def signedIn : World :=
  ((({ World.start with requests := [.login 1] } : World).account [⟨1, true⟩]).issue 0 none 1 "t1")

/-- Two requests with the same token, which both read it before either revokes it. -/
def racing : World :=
  let w := { signedIn with requests := signedIn.requests ++ [Request.refresh "t1"] }
  let w := { w with requests := w.requests ++ [Request.refresh "t1"] }
  let w := (w.look 1 "t1").look 2 "t1"
  let token : FlowHubRefreshToken := ⟨1, "t1", refreshExpiry, none⟩
  let w := (w.accept 1 token).accept 2 token
  let w := (w.seek 1 token).seek 2 token
  let w := (w.revoke 1 token).revoke 2 token
  (w.issue 1 (some "t1") 1 "t2").issue 2 (some "t1") 1 "t3"

theorem signedIn_run (hC : ∀ w, C w none) : Run C .start signedIn := by
  have hlogin := Run.step (.refl .start) (.arrive .start (.login 1) rfl) (hC _)
  have haccount := hlogin.step (.account _ [⟨1, true⟩]) (hC _)
  exact haccount.step (.issueLogin _ 0 1 "t1" rfl (by decide)) (hC _)

end Sample

open Sample

/-- Both requests get a token, and both are usable in the session of the first. -/
theorem token_used_twice : ∃ w, Run (fun _ _ => True) .start w ∧
      (w.issued.countP fun e => decide (e.parent = some "t1")) = 2 ∧
      ∃ a b, w.usable a ∧ w.usable b ∧ w.session a.tokenHash = w.session b.tokenHash ∧ a ≠ b := by
  refine ⟨racing, ?_, by decide +kernel, ⟨1, "t2", refreshExpiry, none⟩,
    ⟨1, "t3", refreshExpiry, none⟩, by decide +kernel, by decide +kernel, by decide +kernel, by decide⟩
  have h := signedIn_run (C := fun _ _ => True) fun _ => trivial
  have h := h.step (.arrive _ (.refresh "t1") rfl) trivial
  have h := h.step (.arrive _ (.refresh "t1") rfl) trivial
  have h := h.step (.look _ 1 "t1" (by decide +kernel)) trivial
  have h := h.step (.look _ 2 "t1" (by decide +kernel)) trivial
  have h := h.step (.accept _ 1 ⟨1, "t1", refreshExpiry, none⟩ (by decide +kernel)) trivial
  have h := h.step (.accept _ 2 ⟨1, "t1", refreshExpiry, none⟩ (by decide +kernel)) trivial
  have h := h.step (.seek _ 1 ⟨1, "t1", refreshExpiry, none⟩ (by decide +kernel)) trivial
  have h := h.step (.seek _ 2 ⟨1, "t1", refreshExpiry, none⟩ (by decide +kernel)) trivial
  have h := h.step (.revoke _ 1 ⟨1, "t1", refreshExpiry, none⟩ (by decide +kernel)) trivial
  have h := h.step (.revoke _ 2 ⟨1, "t1", refreshExpiry, none⟩ (by decide +kernel)) trivial
  have h := h.step (.issue _ 1 ⟨1, "t1", refreshExpiry, none⟩ "t2" (by decide +kernel) (by decide +kernel)) trivial
  exact h.step (.issue _ 2 ⟨1, "t1", refreshExpiry, none⟩ "t3" (by decide +kernel) (by decide +kernel)) trivial

/-- A user who has signed in has one usable token. -/
theorem one_usable : (signedIn.sessionLog "t1").IsChain Succeeds ∧
      ∀ a b, signedIn.usable a → signedIn.usable b →
        signedIn.session a.tokenHash = "t1" → signedIn.session b.tokenHash = "t1" → a = b :=
  (refresh_tokens_single_use (signedIn_run fun _ => nofun)).2.2 "t1"

end FlowHub.Auth
