import FlowHub.Channels.Contracts
import FlowHub.Loop
import FlowHub.Orders.Leases

namespace FlowHub.Orders

open Python Channels

/-- `_reconciliation_pagination_marker`. -/
inductive Marker where
  | cursor (cursor : Option String)
  | page (page : Int)
  deriving DecidableEq

def reconciliationPaginationMarker : Pagination → Marker
  | .cursor p => .cursor p.cursor
  | .page p => .page p.page

/-- TapsiShop numbers its pages from zero. -/
def reconciliationInitialPagination (connectorType : ConnectorType) (pageSize : Int) : Pagination :=
  .page { page := if connectorType = .tapsishop then 0 else 1, pageSize := max 1 pageSize }

def badGateway (detail : String) : FlowHub.Fault := .httpException 502 detail

def nextReconciliationPagination : Pagination → Except FlowHub.Fault (Option Pagination)
  | .cursor p =>
    if !p.hasMore then .ok none
    else if orText p.nextCursor "" = "" ∨ p.nextCursor = p.cursor then
      .error (badGateway "Connector order pagination is missing a safe next cursor.")
    else .ok (some (.cursor { cursor := p.nextCursor, limit := p.limit }))
  | .page p =>
    if !p.hasMore then .ok none
    else
      match p.nextPage with
      | none => .error (badGateway "Connector order pagination is missing a safe next page.")
      | some next =>
        if next ≤ p.page then
          .error (badGateway "Connector order pagination is missing a safe next page.")
        else .ok (some (.page { page := next, pageSize := p.pageSize }))

/-- What `list_orders` gives; an item that is no order is skipped. -/
inductive Listing where
  | page (items : List (Option ChannelOrder)) (pagination : Pagination)
  | malformed | raises

/-- What `get_order` is asked for. -/
structure OrderReference where
  (orderCode orderNumber id : String)

/-- What a call meets: the connector, which answers a request for a page by it and those before it, the
last one first, and the steps of others before each of the call's own. -/
structure Surroundings where
  connectorType : ConnectorType
  reconciliationRequiresOrderDetail : Option Bool
  listOrders : List Pagination → Listing
  getOrder : Nat → OrderReference → Option ChannelOrder
  others : Nat → List Action

/-- A call at the top of its loop. -/
structure Reconciling where
  world : World
  steps : Nat
  pagination : Pagination
  requests : List Pagination
  committed : List (Pagination × List Write)
  processed : Nat

/-- How a call ends: with its count, by an exception of the loop's own, or by another one. -/
inductive Exit where
  | returned (processed : Nat)
  | refused (fault : FlowHub.Fault)
  | raised

structure Outcome where
  last : Reconciling
  exit : Exit

section

variable (rt : Runtime) (channelId : Id) (env : Surroundings) (owner leaseSeconds : Nat)

namespace Reconciling

variable (s : Reconciling)

/-- Others take their steps. -/
def meet : Reconciling :=
  { s with world := (env.others s.steps).foldl (World.step rt channelId) s.world, steps := s.steps + 1 }

/-- A step of the call. -/
def act (a : Action) : Reconciling :=
  { s.meet rt channelId env with world := (s.meet rt channelId env).world.step rt channelId a }

def phase (s : Reconciling) : Option Phase := (s.world.run owner).map Run.phase

/-- `_hydrate_reconciliation_order`. -/
def hydrate (listed : ChannelOrder) : Option ChannelOrder :=
  let requiresDetail :=
    env.reconciliationRequiresOrderDetail.getD (decide (listed.connectorType = .technolife))
  if !requiresDetail then some listed
  else
    let orderNumber := listed.identifiers.orderNumber
    let externalId := listed.identifiers.externalProductId
    let number := orText (orElseText orderNumber externalId) ""
    env.getOrder s.steps ⟨number, number, orText (orElseText externalId orderNumber) ""⟩

/-- The orders of a page, one after the other. -/
def work : List ChannelOrder → Reconciling → Reconciling
  | [], s => s
  | listed :: rest, s =>
    let s := s.act rt channelId env (.take owner)
    work rest (s.act rt channelId env (.order owner (s.hydrate env listed)))

/-- `except` and `finally`. -/
def leave (exit : Exit) : Outcome :=
  match exit with
  | .returned _ => ⟨s.act rt channelId env (.release owner), exit⟩
  | _ =>
    let s := (s.act rt channelId env (.raise owner)).act rt channelId env (.fail owner)
    ⟨s.act rt channelId env (.release owner), exit⟩

/-- What a page that has been committed leads to. -/
def advance (pagination : Pagination) : Reconciling ⊕ Outcome :=
  match nextReconciliationPagination pagination with
  | .error fault => .inr (s.leave rt channelId env owner (.refused fault))
  | .ok none => .inr (s.leave rt channelId env owner (.returned s.processed))
  | .ok (some next) => .inl { s with pagination := next }

/-- `_commit_checkpoint_progress` for the page that was asked for with `s.pagination`. -/
def progress (s : Reconciling) (orders : Nat) (pagination : Pagination) : Reconciling ⊕ Outcome :=
  match s.world.run owner with
  | some r =>
    match r.phase with
    | .working .reconciliation _ [] =>
      let s := { s with
        world := s.world.step rt channelId (.progress owner pagination.hasMore) }
      match s.phase owner with
      | some (.ready _) | some .exiting =>
        let s := { s with
          committed := s.committed ++ [(s.pagination, r.staged)]
          processed := s.processed + orders }
        s.advance rt channelId env owner pagination
      | _ => .inr (s.leave rt channelId env owner .raised)
    | _ => .inr (s.leave rt channelId env owner .raised)
  | none => .inr (s.leave rt channelId env owner .raised)

/-- What the connector's answer leads to. -/
def answered : Listing → Reconciling ⊕ Outcome
  | .raises => .inr (s.leave rt channelId env owner .raised)
  | .malformed => .inr (s.leave rt channelId env owner
      (.refused (badGateway "Connector returned malformed order reconciliation page.")))
  | .page items pagination =>
    let orders := items.filterMap id
    let s := work rt channelId env owner orders (s.act rt channelId env (.page owner (.orders orders)))
    (s.meet rt channelId env).progress rt channelId env owner orders.length pagination

/-- The body of the loop of `reconcile_recent_orders`. -/
def round : Reconciling ⊕ Outcome :=
  if reconciliationPaginationMarker s.pagination ∈ s.requests.map reconciliationPaginationMarker then
    .inr (s.leave rt channelId env owner
      (.refused (badGateway "Connector returned a repeating order reconciliation page.")))
  else
    let s := s.act rt channelId env (.heartbeat owner leaseSeconds)
    match s.phase owner with
    | some (.listing .reconciliation) =>
      let s := { s with requests := s.pagination :: s.requests }
      s.answered rt channelId env owner (env.listOrders s.requests)
    | _ => .inr (s.leave rt channelId env owner .raised)

end Reconciling

end

/-- `reconcile_recent_orders` in a world, where it ends within so many rounds. A call that does not get
the lease raises. -/
def reconcileRecentOrders (rt : Runtime) (channelId : Id) (env : Surroundings) (pageSize : Int)
    (leaseSeconds : Nat) (w : World) (fuel : Nat) : Option Outcome :=
  let start : Reconciling :=
    ⟨w.step rt channelId (.acquire .reconciliation leaseSeconds 0), 0,
      reconciliationInitialPagination env.connectorType pageSize, [], [], 0⟩
  if w.lease.free w.clock then
    loop (Reconciling.round rt channelId env w.runs.length leaseSeconds) fuel start
  else some ⟨start, .refused (.httpException 409
    "Order synchronization is already running for this channel.")⟩

end FlowHub.Orders
