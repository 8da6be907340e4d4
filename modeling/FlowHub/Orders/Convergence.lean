import FlowHub.Orders.Upsert

namespace FlowHub.Orders

open Python List Option Except

/-- A provider version of an order, as a route hands it over. -/
structure Version where
  order : ChannelOrder
  (eventType occurredAt : Option String)

/-- The provider's own time of the version. -/
def Version.moment (v : Version) : Option (DateTime Int) :=
  ((parseIso v.order.updatedAt).or (parseIso v.occurredAt)).or (parseIso v.order.createdAt)

def instant (t : DateTime Int) : Int := t.wall - t.offset

structure Delivery where
  version : Version
  source : Source
  sourceEventId : Option String
  now : Int

section

variable (rt : Runtime)

def receive (db : Db) (d : Delivery) : Except Fault Db :=
  upsertOrder rt d.version.order d.source d.sourceEventId d.version.eventType
    (parseDt d.version.occurredAt) d.now db

def Version.state (v : Version) : Except Fault OrderState := orderState rt v.order v.eventType

def Version.Of (v : Version) (channelId : Id) (orderId : String) : Prop :=
  v.order.channelId = channelId ∧ providerOrderId rt v.order = orderId

/-- A received version that has the latest instant. -/
def Newest (received : List Version) (v : Version) : Prop :=
  v ∈ received ∧ ∃ t ∈ v.moment, ∀ w ∈ received, ∀ s ∈ w.moment, instant s ≤ instant t

def stored (db : Db) (channelId : Id) (orderId : String) : Option OrderState :=
  (db.order channelId orderId).map (·.state)

/-- However the versions are received, the order is as the newest of them has it, and stays so when
one of them is received again. -/
def Converges (channelId : Id) (orderId : String) (versions : List Version) : Prop :=
  ∀ (db : Db) (ds : List Delivery), db.order channelId orderId = none → (∀ d ∈ ds, d.version ∈ versions) →
    ∃ final, ds.foldlM (receive rt) db = .ok final ∧
      (∀ v, Newest (ds.map (·.version)) v →
        ∃ s, v.state rt = .ok s ∧ stored final channelId orderId = some s) ∧
      ∀ again : Delivery, again.version ∈ ds.map (·.version) → ∃ next, receive rt final again = .ok next ∧
          stored next channelId orderId = stored final channelId orderId

/-- Versions that differ in what they store are dated, and their wall times are in the order of
their instants. -/
def Ordered (versions : List Version) : Prop :=
  ∀ a ∈ versions, ∀ b ∈ versions, a.state rt ≠ b.state rt →
    ∃ s ∈ a.moment, ∃ t ∈ b.moment, s.wall ≠ t.wall ∧ (s.wall < t.wall ↔ instant s < instant t)

end

section

variable {rt : Runtime} {db next : Db} {channelId : Id} {orderId : String} {d : Delivery}
  {versions : List Version}

/-- The time by which a version is compared is its own, without the offset. -/
theorem incomingVersion_moment (v : Version) :
    incomingVersion v.order (parseDt v.occurredAt) = v.moment.map (·.wall) := by
  unfold incomingVersion Version.moment parseDt
  cases parseIso v.order.updatedAt with
  | some t => simp
  | none =>
    cases parseIso v.occurredAt with
    | some t => simp
    | none => simp

theorem receive_old (hof : d.version.Of rt channelId orderId)
    (h : outOfOrder (db.order channelId orderId) (d.version.moment.map (·.wall)) = true) :
    receive rt db d = .ok db := by
  obtain ⟨rfl, rfl⟩ := hof
  rw [← incomingVersion_moment] at h
  exact upsertOrder_old h

/-- A version that is not older than the stored one is stored, with the time it is compared by. -/
theorem receive_new (hof : d.version.Of rt channelId orderId)
    (h : outOfOrder (db.order channelId orderId) (d.version.moment.map (·.wall)) = false) :
    (∀ s, d.version.state rt = .ok s → ∃ next, receive rt db d = .ok next) ∧
    ∀ next, receive rt db d = .ok next → ∃ row, next.order channelId orderId = some row ∧
      d.version.state rt = .ok row.state ∧
        row.lastProviderEventAt = some ((d.version.moment.map (·.wall)).getD d.now) := by
  obtain ⟨rfl, rfl⟩ := hof
  rw [← incomingVersion_moment] at h ⊢
  refine ⟨fun s hs => upsertOrder_ok hs h, fun next hnext => ?_⟩
  obtain ⟨state, hstate, effects, -, rfl⟩ := (upsertOrder_new h).mp hnext
  have hrow := order_saveOrder db (orderRow rt (db.order d.version.order.channelId
    (providerOrderId rt d.version.order)) d.version.order state d.source
    (incomingVersion d.version.order (parseDt d.version.occurredAt)) d.now)
    d.version.order.channelId (providerOrderId rt d.version.order)
  exact ⟨_, hrow.trans (if_pos rfl), hstate, rfl⟩

theorem notOutOfOrder (h : db.order channelId orderId = none) (incoming : Option Int) :
    outOfOrder (db.order channelId orderId) incoming = false := by
  rw [h]
  rfl

/-- The stored version is the one with the latest wall time of those received. -/
def Latest (rt : Runtime) (channelId : Id) (orderId : String) (received : List Version) (db : Db) : Prop :=
  ∃ row, db.order channelId orderId = some row ∧ ∃ v ∈ received, v.state rt = .ok row.state ∧
      ∃ t ∈ v.moment, row.lastProviderEventAt = some t.wall ∧ ∀ w ∈ received, ∀ s ∈ w.moment, s.wall ≤ t.wall

theorem Latest.receive (h : received = [] ∧ db.order channelId orderId = none ∨
      Latest rt channelId orderId received db)
    (hof : d.version.Of rt channelId orderId) (hs : d.version.state rt = .ok s)
    (ht : t ∈ d.version.moment) : ∃ next, receive rt db d = .ok next ∧
      Latest rt channelId orderId (received ++ [d.version]) next := by
  rw [mem_def] at ht
  cases hold : outOfOrder (db.order channelId orderId) (d.version.moment.map (·.wall)) with
  | true =>
    refine ⟨db, receive_old hof hold, ?_⟩
    rcases h with ⟨-, hnone⟩ | ⟨row, hrow, v, hv, hstate, m, hm, hlast, hmax⟩
    · rw [notOutOfOrder hnone] at hold
      cases hold
    refine ⟨row, hrow, v, mem_append_left _ hv, hstate, m, hm, hlast, ?_⟩
    intro w hw s' hs'
    rcases mem_append.mp hw with hw | hw
    · exact hmax w hw s' hs'
    rw [mem_singleton.mp hw, ht] at hs'
    cases hs'
    have hlt : t.wall < m.wall := by simpa [outOfOrder, hrow, hlast, ht] using hold
    exact hlt.le
  | false =>
    obtain ⟨next, hnext⟩ := (receive_new hof hold).1 s hs
    obtain ⟨row, hrow, hstate, hlast⟩ := (receive_new hof hold).2 next hnext
    refine ⟨next, hnext, row, hrow, d.version, by simp, hstate, t, ht, ?_, ?_⟩
    · rw [hlast, ht]
      rfl
    intro w hw s' hs'
    rcases mem_append.mp hw with hw | hw
    · rcases h with ⟨rfl, -⟩ | ⟨old, hstored, -, -, -, m, -, hmark, hmax⟩
      · cases hw
      · have hle : m.wall ≤ t.wall := by simpa [outOfOrder, hstored, hmark, ht] using hold
        exact (hmax w hw s' hs').trans hle
    · rw [mem_singleton.mp hw, ht] at hs'
      cases hs'
      exact le_rfl

theorem latest_run (received : List Version) {ds : List Delivery}
    (h : received = [] ∧ db.order channelId orderId = none ∨ Latest rt channelId orderId received db)
    (hds : ∀ d ∈ ds, d.version.Of rt channelId orderId ∧ (∃ s, d.version.state rt = .ok s) ∧
      ∃ t, t ∈ d.version.moment) :
    ∃ final, ds.foldlM (receive rt) db = .ok final ∧
      (received ++ ds.map (·.version) = [] ∧ final.order channelId orderId = none ∨
        Latest rt channelId orderId (received ++ ds.map (·.version)) final) := by
  induction ds generalizing db received with
  | nil =>
    rw [map_nil, append_nil]
    exact ⟨db, rfl, h⟩
  | cons d rest ih =>
    obtain ⟨hof, ⟨s, hs⟩, t, ht⟩ := hds d mem_cons_self
    obtain ⟨next, hnext, hlatest⟩ := Latest.receive h hof hs ht
    obtain ⟨final, hfinal, hend⟩ := ih _ (.inr hlatest) fun d' hd' =>
      hds d' (mem_cons_of_mem _ hd')
    refine ⟨final, ?_, ?_⟩
    · rw [foldlM_cons, hnext]
      exact hfinal
    · rw [append_assoc, singleton_append] at hend
      exact hend

/-- Where all versions store the same, that is what is stored. -/
theorem uniform_run (received : List Version) {ds : List Delivery} {state : OrderState}
    (h : ∀ row, db.order channelId orderId = some row → row.state = state)
    (hsome : received ≠ [] → ∃ row, db.order channelId orderId = some row)
    (hds : ∀ d ∈ ds, d.version.Of rt channelId orderId ∧ d.version.state rt = .ok state) :
    ∃ final, ds.foldlM (receive rt) db = .ok final ∧
      (∀ row, final.order channelId orderId = some row → row.state = state) ∧
      (received ++ ds.map (·.version) ≠ [] → ∃ row, final.order channelId orderId = some row) := by
  induction ds generalizing db received with
  | nil =>
    rw [map_nil, append_nil]
    exact ⟨db, rfl, h, hsome⟩
  | cons d rest ih =>
    obtain ⟨hof, hs⟩ := hds d mem_cons_self
    have hnext : ∃ next, receive rt db d = .ok next ∧ ∃ row, next.order channelId orderId =
        some row ∧ row.state = state := by
      cases hold : outOfOrder (db.order channelId orderId) (d.version.moment.map (·.wall)) with
      | true =>
        refine ⟨db, receive_old hof hold, ?_⟩
        cases hrow : db.order channelId orderId with
        | none =>
          rw [notOutOfOrder hrow] at hold
          cases hold
        | some row => exact ⟨row, rfl, h row hrow⟩
      | false =>
        obtain ⟨next, hnext⟩ := (receive_new hof hold).1 state hs
        obtain ⟨row, hrow, hstate, -⟩ := (receive_new hof hold).2 next hnext
        rw [hs] at hstate
        exact ⟨next, hnext, row, hrow, (ok.inj hstate).symm⟩
    obtain ⟨next, hreceive, row, hrow, hstate⟩ := hnext
    have hrows : ∀ row, next.order channelId orderId = some row → row.state = state := by
      intro other hother
      rw [hrow] at hother
      exact some.inj hother ▸ hstate
    obtain ⟨final, hfinal, hend⟩ := ih (received ++ [d.version]) hrows
      (fun _ => ⟨row, hrow⟩) fun d' hd' => hds d' (mem_cons_of_mem _ hd')
    refine ⟨final, ?_, ?_⟩
    · rw [foldlM_cons, hreceive]
      exact hfinal
    · rw [append_assoc, singleton_append] at hend
      exact hend

theorem nothing_old (h : outOfOrder (db.order channelId orderId) incoming = true) :
    ∃ row last i, db.order channelId orderId = some row ∧ row.lastProviderEventAt = some last ∧
      incoming = some i ∧ i < last := by
  simp only [outOfOrder, Option.any_eq_true, decide_eq_true_eq] at h
  obtain ⟨row, hrow, last, hlast, i, hi, hlt⟩ := h
  exact ⟨row, last, i, hrow, hlast, hi, hlt⟩

/-- Two versions after each other leave the second one, unless the first has the later wall time. -/
theorem receive_pair (ha : a.version.Of rt channelId orderId) (hb : b.version.Of rt channelId orderId)
    (hsa : a.version.state rt = .ok sa) (hsb : b.version.state rt = .ok sb)
    (hnone : db.order channelId orderId = none) (hfirst : receive rt db a = .ok first)
    (hfinal : receive rt first b = .ok final) : stored final channelId orderId =
      if ((a.version.moment.map (·.wall)).getD a.now) ≤
          (b.version.moment.map (·.wall)).getD ((a.version.moment.map (·.wall)).getD a.now)
      then some sb else some sa := by
  obtain ⟨row, hrow, hstate, hlast⟩ := (receive_new ha (notOutOfOrder hnone _)).2 first hfirst
  rw [hsa] at hstate
  cases hold : outOfOrder (first.order channelId orderId) (b.version.moment.map (·.wall)) with
  | true =>
    obtain ⟨other, last, i, hother, hmark, hi, hlt⟩ := nothing_old hold
    rw [hrow] at hother
    cases hother
    rw [hlast] at hmark
    cases hmark
    rw [receive_old hb hold] at hfinal
    cases hfinal
    rw [if_neg (by rw [hi]; exact Int.not_le.mpr hlt), stored, hrow, map_some, ok.inj hstate]
  | false =>
    obtain ⟨new, hnew, hsame, -⟩ := (receive_new hb hold).2 final hfinal
    rw [hsb] at hsame
    rw [stored, hnew, map_some, if_pos, ok.inj hsame]
    cases hmoment : b.version.moment.map (·.wall) with
    | none => exact le_rfl
    | some i => simpa [outOfOrder, hrow, hlast, hmoment] using hold

/-- A version on its way, without an event. -/
def delivered (v : Version) : Delivery := ⟨v, .reconciliation, none, 0⟩

theorem Converges.state_ok (h : Converges rt channelId orderId versions)
    (one : ∀ v ∈ versions, v.Of rt channelId orderId) (hv : v ∈ versions) :
    ∃ s, v.state rt = .ok s := by
  obtain ⟨final, hfinal, -⟩ := h {} [delivered v] rfl (by simp [delivered, hv])
  rw [foldlM_cons, Txn.bind_eq_ok] at hfinal
  obtain ⟨next, hnext, -⟩ := hfinal
  obtain ⟨row, -, hstate, -⟩ := (receive_new (d := delivered v) (one v hv)
    (notOutOfOrder rfl _)).2 next hnext
  exact ⟨row.state, hstate⟩

/-- What convergence says of two versions after each other. -/
theorem Converges.pair (h : Converges rt channelId orderId versions)
    (one : ∀ v ∈ versions, v.Of rt channelId orderId) (hx : x ∈ versions)
    (hy : y ∈ versions) (hsx : x.state rt = .ok sx) (hsy : y.state rt = .ok sy) :
    ∃ s, (s = if (x.moment.map (·.wall)).getD 0 ≤
        (y.moment.map (·.wall)).getD ((x.moment.map (·.wall)).getD 0) then sy else sx) ∧
      (Newest [x, y] x → s = sx) ∧ (Newest [x, y] y → s = sy) ∧ (x.moment = none → s = sx) := by
  have hmem : ∀ d ∈ [delivered x, delivered y], d.version ∈ versions := by
    simp [delivered, hx, hy]
  obtain ⟨final, hrun, hnewest, hagain⟩ := h {} [delivered x, delivered y] rfl hmem
  have hfinal := hrun
  rw [foldlM_cons, Txn.bind_eq_ok] at hfinal
  obtain ⟨first, hfirst, hfinal⟩ := hfinal
  rw [foldlM_cons, Txn.bind_eq_ok] at hfinal
  obtain ⟨second, hsecond, hfinal⟩ := hfinal
  obtain rfl := ok.inj hfinal
  have hstored := receive_pair (a := delivered x) (b := delivered y) (one x hx) (one y hy) hsx hsy
    rfl hfirst hsecond
  have hone : ∀ v s, v.state rt = .ok s → Newest [x, y] v → stored second channelId orderId = some s := by
    intro v s hs hv
    obtain ⟨s', hs', hsome⟩ := hnewest v hv
    rw [hs] at hs'
    rw [hsome, ok.inj hs']
  rw [← apply_ite some] at hstored
  refine ⟨_, rfl, fun hnew => ?_, fun hnew => ?_, fun hundated => ?_⟩
  · exact some.inj (hstored.symm.trans (hone x sx hsx hnew))
  · exact some.inj (hstored.symm.trans (hone y sy hsy hnew))
  · obtain ⟨next, hnext, hsame⟩ := hagain (delivered x) (by simp [delivered])
    have hnew : outOfOrder (second.order channelId orderId)
        ((delivered x).version.moment.map (·.wall)) = false := by
      cases hold : outOfOrder (second.order channelId orderId)
          ((delivered x).version.moment.map (·.wall)) with
      | false => rfl
      | true =>
        obtain ⟨_, _, i, _, _, hi, _⟩ := nothing_old hold
        simp [delivered, hundated] at hi
    obtain ⟨row, hrow, hstate, -⟩ := (receive_new (one x hx) hnew).2 next hnext
    have heq : stored next channelId orderId = some sx := by
      have hrx : x.state rt = .ok row.state := hstate
      rw [hsx] at hrx
      rw [stored, hrow, map_some, ok.inj hrx]
    exact some.inj (hstored.symm.trans (hsame.symm.trans heq))

theorem Converges.dated (h : Converges rt channelId orderId versions)
    (one : ∀ v ∈ versions, v.Of rt channelId orderId) {a b : Version} (ha : a ∈ versions)
    (hb : b ∈ versions) (hne : a.state rt ≠ b.state rt) : ∃ t, t ∈ a.moment := by
  obtain ⟨sa, hsa⟩ := h.state_ok one ha
  obtain ⟨sb, hsb⟩ := h.state_ok one hb
  rw [hsa, hsb] at hne
  cases hmoment : a.moment with
  | some t => exact ⟨t, rfl⟩
  | none =>
    obtain ⟨s, hs, hnewest, -, hundated⟩ := h.pair one hb ha hsb hsa
    have hlast : s = sa := by simpa [hmoment] using hs
    have hfirst : s = sb := by
      cases hb' : b.moment with
      | none => exact hundated hb'
      | some t =>
        refine hnewest ⟨mem_cons_self, t, hb', fun w hw m hm => ?_⟩
        rcases mem_pair.mp hw with rfl | rfl
        · rw [hb'] at hm
          exact (some.inj hm) ▸ le_rfl
        · rw [hmoment] at hm
          cases hm
    exact absurd (congrArg ok (hlast.symm.trans hfirst)) hne

/-- The older of two instants has the earlier wall time. -/
theorem Converges.wall_lt (h : Converges rt channelId orderId versions)
    (one : ∀ v ∈ versions, v.Of rt channelId orderId) (ha : a ∈ versions)
    (hb : b ∈ versions) (hne : a.state rt ≠ b.state rt) (hs : s ∈ a.moment)
    (ht : t ∈ b.moment) (hle : instant t ≤ instant s) : t.wall < s.wall := by
  obtain ⟨sa, hsa⟩ := h.state_ok one ha
  obtain ⟨sb, hsb⟩ := h.state_ok one hb
  rw [mem_def] at hs ht
  have hnewest : Newest [a, b] a := by
    refine ⟨mem_cons_self, s, hs, fun w hw m hm => ?_⟩
    rcases mem_pair.mp hw with rfl | rfl
    · rw [hs] at hm
      exact (some.inj hm) ▸ le_rfl
    · rw [ht] at hm
      exact (some.inj hm) ▸ hle
  have hsne : sa ≠ sb := by
    intro heq
    rw [hsa, hsb, heq] at hne
    exact hne rfl
  obtain ⟨stays, hstays, hfirst, -⟩ := h.pair one ha hb hsa hsb
  have hkept := hfirst hnewest
  simp only [hs, ht, map_some, getD_some] at hstays
  by_contra hnot
  rw [if_pos (Int.not_lt.mp hnot), hkept] at hstays
  exact hsne hstays

theorem converges_of_uniform (one : ∀ v ∈ versions, v.Of rt channelId orderId)
    (storable : ∀ v ∈ versions, ∃ s, v.state rt = .ok s)
    (uniform : ∀ a ∈ versions, ∀ b ∈ versions, a.state rt = b.state rt) :
    Converges rt channelId orderId versions := by
  intro db ds hnone hds
  cases ds with
  | nil =>
    refine ⟨db, rfl, fun v hv => ?_, fun again hagain => ?_⟩
    · cases hv.1
    · cases hagain
  | cons d rest =>
    obtain ⟨state, hstate⟩ := storable d.version (hds d mem_cons_self)
    have hall : ∀ v ∈ versions, v.Of rt channelId orderId ∧ v.state rt = .ok state :=
      fun v hv => ⟨one v hv, (uniform v hv _ (hds d mem_cons_self)).trans hstate⟩
    have hempty : ∀ row, db.order channelId orderId = some row → row.state = state := by
      simp [hnone]
    obtain ⟨final, hfinal, hrows, hsome⟩ := uniform_run [] hempty (by simp)
      fun d' hd' => hall d'.version (hds d' hd')
    obtain ⟨row, hrow⟩ := hsome (by simp)
    have hstored : stored final channelId orderId = some state := by
      rw [stored, hrow, map_some, hrows row hrow]
    refine ⟨final, hfinal, fun v hv => ?_, fun again hagain => ?_⟩
    · obtain ⟨d', hd', rfl⟩ := mem_map.mp hv.1
      exact ⟨state, (hall _ (hds d' hd')).2, hstored⟩
    obtain ⟨d', hd', hsame⟩ := mem_map.mp hagain
    have hone : ∀ d'' ∈ [again], d''.version.Of rt channelId orderId ∧ d''.version.state rt = .ok state := by
      intro d'' hd''
      rw [mem_singleton.mp hd'', ← hsame]
      exact hall d'.version (hds d' hd')
    obtain ⟨next, hnext, hrows', hsome'⟩ := uniform_run [again.version] hrows
      (fun _ => ⟨row, hrow⟩) hone
    obtain ⟨row', hrow'⟩ := hsome' (by simp)
    rw [foldlM_cons, Txn.bind_eq_ok] at hnext
    obtain ⟨last, hlast, hnext⟩ := hnext
    obtain rfl := ok.inj hnext
    refine ⟨last, hlast, ?_⟩
    rw [hstored, stored, hrow', map_some, hrows' row' hrow']

theorem converges_of_ordered (one : ∀ v ∈ versions, v.Of rt channelId orderId)
    (storable : ∀ v ∈ versions, ∃ s, v.state rt = .ok s)
    (dated : ∀ v ∈ versions, ∃ t, t ∈ v.moment) (ordered : Ordered rt versions) :
    Converges rt channelId orderId versions := by
  intro db ds hnone hds
  obtain ⟨final, hfinal, hlatest⟩ := latest_run [] (.inl ⟨rfl, hnone⟩) fun d hd =>
    ⟨one _ (hds d hd), storable _ (hds d hd), dated _ (hds d hd)⟩
  rw [nil_append] at hlatest
  have hmem : ∀ v ∈ ds.map (·.version), v ∈ versions := by
    intro v hv
    obtain ⟨d, hd, rfl⟩ := mem_map.mp hv
    exact hds d hd
  refine ⟨final, hfinal, fun v hv => ?_, fun again hagain => ?_⟩
  · rcases hlatest with ⟨hnil, -⟩ | ⟨row, hrow, u, hu, hstate, t, ht, -, hmax⟩
    · rw [hnil] at hv
      cases hv.1
    refine ⟨row.state, ?_, by rw [stored, hrow, map_some]⟩
    by_contra hne
    have hdiffer : v.state rt ≠ u.state rt := fun heq => hne (heq.trans hstate)
    obtain ⟨s, hs, t', ht', hwall, hiff⟩ := ordered v (hmem v hv.1) u (hmem u hu) hdiffer
    obtain ⟨hvmem, m, hm, hnewest⟩ := hv
    have hlt := hiff.mp (lt_of_le_of_ne ?_ hwall)
    · rw [mem_def] at hs hm
      rw [hs] at hm
      rw [some.inj hm] at hlt
      exact absurd (hnewest u hu t' ht') (Int.not_le.mpr hlt)
    · rw [mem_def] at ht ht'
      rw [ht] at ht'
      rw [← some.inj ht']
      exact hmax v hvmem s hs
  · rcases hlatest with ⟨hnil, -⟩ | ⟨row, hrow, u, hu, hstate, t, ht, hlast, hmax⟩
    · rw [hnil] at hagain
      cases hagain
    have hof := one _ (hmem _ hagain)
    cases hold : outOfOrder (final.order channelId orderId) (again.version.moment.map (·.wall)) with
    | true => exact ⟨final, receive_old hof hold, rfl⟩
    | false =>
      obtain ⟨s, hs⟩ := storable _ (hmem _ hagain)
      obtain ⟨next, hnext⟩ := (receive_new hof hold).1 s hs
      obtain ⟨row', hrow', hstate', -⟩ := (receive_new hof hold).2 next hnext
      refine ⟨next, hnext, ?_⟩
      have hsame : again.version.state rt = u.state rt := by
        by_contra hne
        obtain ⟨m, hm, t', ht', hwall, -⟩ := ordered _ (hmem _ hagain) u (hmem u hu) hne
        have hle := hmax _ hagain m hm
        rw [mem_def] at hm ht ht'
        rw [ht] at ht'
        cases ht'
        have hge : t.wall ≤ m.wall := by simpa [outOfOrder, hrow, hlast, hm] using hold
        exact hwall (le_antisymm hle hge)
      rw [hstate', hstate] at hsame
      rw [stored, stored, hrow', hrow, map_some, map_some, ok.inj hsame]

/-- The order converges to its newest version exactly where each version can be stored, and where
those that differ in what they store are dated in the order of their wall times. -/
theorem order_converges (channelId : Id) (orderId : String) (versions : List Version)
    (one : ∀ v ∈ versions, v.Of rt channelId orderId) :
    Converges rt channelId orderId versions ↔
      (∀ v ∈ versions, ∃ s, v.state rt = .ok s) ∧ Ordered rt versions := by
  constructor
  · intro h
    refine ⟨fun v hv => h.state_ok one hv, fun a ha b hb hne => ?_⟩
    obtain ⟨s, hs⟩ := h.dated one ha hb hne
    obtain ⟨t, ht⟩ := h.dated one hb ha (Ne.symm hne)
    have hback : instant t ≤ instant s → t.wall < s.wall := h.wall_lt one ha hb hne hs ht
    have hforth : instant s ≤ instant t → s.wall < t.wall :=
      h.wall_lt one hb ha (Ne.symm hne) ht hs
    refine ⟨s, hs, t, ht, ?_, ?_, fun hlt => hforth hlt.le⟩
    · intro heq
      rcases Int.le_total (instant s) (instant t) with hle | hle
      · exact absurd heq (hforth hle).ne
      · exact absurd heq (hback hle).ne'
    · intro hlt
      by_contra hnot
      exact absurd hlt (Int.not_lt.mpr (hback (Int.not_lt.mp hnot)).le)
  · rintro ⟨hstorable, hordered⟩
    by_cases huniform : ∀ a ∈ versions, ∀ b ∈ versions, a.state rt = b.state rt
    · exact converges_of_uniform one hstorable huniform
    -- Each version differs from one of two that differ from each other.
    simp only [not_forall] at huniform
    obtain ⟨a, ha, b, hb, hne⟩ := huniform
    refine converges_of_ordered one hstorable (fun v hv => ?_) hordered
    by_cases heq : v.state rt = a.state rt
    · obtain ⟨t, ht, -⟩ := hordered v hv b hb (heq ▸ hne)
      exact ⟨t, ht⟩
    · obtain ⟨t, ht, -⟩ := hordered v hv a ha heq
      exact ⟨t, ht⟩

end

namespace Sample

def runtime : Runtime := ⟨.ascii, fun _ => true, ⟨id, Json.render⟩⟩

def line (id : String) (quantity : Rat) (raw : List (String × Json)) : ChannelOrderItem :=
  { identifiers := {}, name := "", quantity := .ofRat quantity, unitPrice := none
    raw := .obj (("id", .str id) :: raw) }

def order (status : String) (updatedAt : Option String) (items : List ChannelOrderItem) : ChannelOrder :=
  { channelId := "snappshop:main", connectorType := .snappshop
    identifiers := { orderNumber := some "1001" }, status, createdAt := none, updatedAt, items
    total := none, currency := some "IRR", raw := .obj [] }

def version (status : String) (updatedAt : Option String) : Version :=
  ⟨order status updatedAt [line "7" 1 []], none, none⟩

/-- Noon east of UTC is before ten o'clock UTC. -/
def east : List Version :=
  [version "NEW_ORDER" (some "2024-01-01T12:00:00+05:00"), version "DELIVERED" (some "2024-01-01T10:00:00Z")]

def undated : List Version :=
  [version "NEW_ORDER" none, version "DELIVERED" (some "2024-01-01T10:00:00Z")]

def sharedLine : List Version :=
  [⟨order "NEW_ORDER" (some "2024-01-01T10:00:00Z") [line "7" 1 [], line "7" 2 []], none, none⟩]

example : sharedLine.map (fun v => (v.state runtime).toOption.isSome) = [false] := by
  decide +kernel

example : sharedLine.map (fun v => (v.state runtime).toOption.isSome) = [false] := by
  decide +kernel

def utc : List Version :=
  [version "NEW_ORDER" (some "2024-01-01T09:00:00Z"), version "DELIVERED" (some "2024-01-01T10:00:00")]

theorem one (versions : List Version)
    (h : ∀ v ∈ versions, v.order.channelId = "snappshop:main" ∧ providerOrderId runtime v.order = "1001") :
    ∀ v ∈ versions, v.Of runtime "snappshop:main" "1001" := h

end Sample

open Sample

/-- An offset, a missing time and a line number in use twice each keep the newest version out. -/
theorem order_diverges : ¬ Converges runtime "snappshop:main" "1001" east ∧
    ¬ Converges runtime "snappshop:main" "1001" undated ∧
    ¬ Converges runtime "snappshop:main" "1001" sharedLine := by
  refine ⟨fun h => ?_, fun h => ?_, fun h => ?_⟩
  · have hlt := h.wall_lt (one _ (by decide +kernel)) (a := Sample.version "DELIVERED"
      (some "2024-01-01T10:00:00Z")) (b := Sample.version "NEW_ORDER"
      (some "2024-01-01T12:00:00+05:00")) (by simp [east]) (by simp [east])
      (by decide +kernel) rfl rfl (by decide +kernel)
    exact absurd hlt (by decide +kernel)
  · obtain ⟨t, ht⟩ := h.dated (one _ (by decide +kernel)) (a := Sample.version "NEW_ORDER" none)
      (b := Sample.version "DELIVERED" (some "2024-01-01T10:00:00Z")) (by simp [undated])
      (by simp [undated]) (by decide +kernel)
    have hnone : (Sample.version "NEW_ORDER" none).moment = none := by decide +kernel
    rw [mem_def, hnone] at ht
    cases ht
  · obtain ⟨s, hs⟩ := h.state_ok (one _ (by decide +kernel)) mem_cons_self
    have hraises : Version.state runtime ⟨Sample.order "NEW_ORDER"
        (some "2024-01-01T10:00:00Z") [Sample.line "7" 1 [], Sample.line "7" 2 []], none, none⟩ =
        .error .integrity := by decide +kernel
    rw [hraises] at hs
    cases hs

theorem order_converges_utc : (∀ v ∈ utc, ∃ s, v.state runtime = .ok s) ∧
    Converges runtime "snappshop:main" "1001" utc := by
  have hstorable : ∀ v ∈ utc, ∃ s, v.state runtime = .ok s := by
    intro v hv
    rcases mem_pair.mp hv with rfl | rfl
    · exact ⟨_, rfl⟩
    · exact ⟨_, rfl⟩
  have hordered : Ordered runtime utc := by
    intro a ha b hb hne
    rcases mem_pair.mp ha with rfl | rfl
    · rcases mem_pair.mp hb with rfl | rfl
      · exact absurd rfl hne
      · exact ⟨_, rfl, _, rfl, by decide +kernel, by decide +kernel⟩
    · rcases mem_pair.mp hb with rfl | rfl
      · exact ⟨_, rfl, _, rfl, by decide +kernel, by decide +kernel⟩
      · exact absurd rfl hne
  exact ⟨hstorable, (order_converges "snappshop:main" "1001" utc
    (one _ (by decide +kernel))).mpr ⟨hstorable, hordered⟩⟩

end FlowHub.Orders
