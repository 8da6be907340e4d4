import FlowHub.Connectors.Updates

namespace FlowHub.Channels

open Connectors

structure ChannelProduct where
  identifiers : ChannelIdentifierSet
  name : String
  currentPrice : Option Float64
  (currency priceUnit : Option String)
  stockQuantity : Option Float64
  status : Option String

structure PageNumberPagination where
  page : Int := 1
  pageSize : Int := 50
  total : Option Int := none
  totalPages : Option Int := none
  hasMore : Bool := false
  nextPage : Option Int := none

structure CursorPagination where
  cursor : Option String := none
  nextCursor : Option String := none
  limit : Int := 50
  hasMore : Bool := false

inductive Pagination where
  | page (pagination : PageNumberPagination)
  | cursor (pagination : CursorPagination)

structure PaginatedResult (α : Type) where
  items : List α
  pagination : Pagination

namespace PageNumberPagination

/-- `pagination.next_page or (page + 1)`: a link to page 0 is none. -/
def next (pagination : PageNumberPagination) (page : Int) : Int :=
  match pagination.nextPage with
  | some 0 | none => page + 1
  | some next => next

/-- The page that a link leads to; without a link, the following one. -/
def follows (pagination : PageNumberPagination) (page : Int) : Int := pagination.nextPage.getD (page + 1)

end PageNumberPagination

def Pagination.hasMore : Pagination → Bool
  | .page p => p.hasMore
  | .cursor p => p.hasMore

/-- The page that is read after a page, in a loop over numbered pages. -/
def Pagination.onward (pagination : Pagination) (page : Int) : Option Int :=
  match pagination with
  | .page p => if p.hasMore then some (p.next page) else none
  | .cursor _ => none

/-- The page that the links of a page lead to. -/
def Pagination.linked (pagination : Pagination) (page : Int) : Option Int :=
  match pagination with
  | .page p => if p.hasMore then some (p.follows page) else none
  | .cursor _ => none

end FlowHub.Channels
