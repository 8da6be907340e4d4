import FlowHub.Channels.Contracts
import FlowHub.Python.Coercion

namespace FlowHub.Channels.ProductSync

open Python Connectors

section Rows

variable (u : Unicode)

/-- `format(value, "f")` of a number that is not whole, without the zeros at its end. -/
def fixed6 (q : ℚ) : List Char :=
  let scaled := (Binary64.halfEven (q * 1000000)).toNat
  let fraction := (toString (scaled % 1000000)).toList
  let digits := withoutTrailingZeros (zeros (6 - fraction.length) ++ fraction)
  (toString (scaled / 1000000)).toList ++ (if digits.isEmpty then [] else '.' :: digits)

def numberText (x : Float64) : String :=
  match x with
  | .finite b => if b.val.isInt then toString b.val.num else signed b.val fixed6
  | x => nonFinite x

/-- `_optional_int` of a float: an infinite one raises. -/
def optionalInt : Option Float64 → Option (Option Int)
  | none => some none
  | some x =>
    match intOf u (.float x) with
    | .ok n => some (some n)
    | .error .overflow => none
    | .error _ => some none

/-- A row of `dl_product_cache`. Its three prices are one. -/
structure ProductRow where
  productId : String
  externalId : Option Int
  sku : Option String
  (name productType : String)
  parentId : Option String
  status : String
  price : Option String
  stockQty : Option Int
  stockStatus : String
  lastFetchedAt : Time

/-- A row of `dl_inventory_cache`. -/
structure InventoryRow where
  productId : String
  stockQty : Option Int
  stockStatus : String
  lastFetchedAt : Time

/-- `product.identifiers.external_product_id`, if it is not empty. -/
def productId (product : ChannelProduct) : Option String :=
  product.identifiers.externalProductId.filter (· ≠ "")

def orTexts (a : String) (b : Option String) (c : String) : String :=
  if a ≠ "" then a else if b.getD "" ≠ "" then b.getD "" else c

def stockStatus (stock : Option Int) : String :=
  if 0 < stock.getD 0 then "instock" else "outofstock"

/-- `_product_row`; none where it raises. -/
def productRow (synchronizedAt : Time) (product : ChannelProduct) : Option ProductRow := do
  let stock ← optionalInt u product.stockQuantity
  let productId := product.identifiers.externalProductId.getD "None"
  let price := product.currentPrice.map numberText
  let parent := product.identifiers.parentProductNumber
  pure {
    productId
    externalId := intText u productId
    sku := product.identifiers.sku
    name := orTexts product.name product.identifiers.sku productId
    productType := if parent.getD "" ≠ "" then "variation" else "simple"
    parentId := parent
    status := orTexts (product.status.getD "") none "active"
    price
    stockQty := stock
    stockStatus := stockStatus stock
    lastFetchedAt := synchronizedAt }

def inventoryRow (synchronizedAt : Time) (product : ChannelProduct) : Option InventoryRow := do
  let stock ← optionalInt u product.stockQuantity
  pure {
    productId := product.identifiers.externalProductId.getD "None"
    stockQty := stock
    stockStatus := stockStatus stock
    lastFetchedAt := synchronizedAt }

end Rows

/-- The caches of a channel, one row a product in each. -/
structure Caches where
  products : List ProductRow
  inventory : List InventoryRow

def Caches.of (c : Caches) (id : String) : List ProductRow × List InventoryRow :=
  (c.products.filter fun r => decide (r.productId = id),
    c.inventory.filter fun r => decide (r.productId = id))

/-- A page that a run has read. `seen` counts the writes that were there by then. -/
structure PageRead where
  number : Int
  items : List (Option ChannelProduct)
  pagination : Pagination
  seen : Nat

/-- The products that a page returned. -/
def PageRead.ids (page : PageRead) : List String :=
  page.items.filterMap fun item => item.bind productId

/-- What an attempt to read a page comes to; an item that is no product is none. -/
inductive Answer where
  | page (items : List (Option ChannelProduct)) (pagination : Pagination)
  | failed (retryable : Bool)

inductive Phase where
  | asking (page : Int)
  | reading (page : Int) (attempt : Nat)
  | fetched | completed | failed | crashed

def Phase.isOpen : Phase → Bool
  | .asking _ | .reading .. | .fetched => true
  | _ => false

/-- A run of `MarketplaceProductSyncService.run`, with the pages that it has asked for, the last one
first, and those that it has read. -/
structure Run where
  (maxPages retryAttempts : Nat)
  phase : Phase
  visited : List Int
  pages : List PageRead
  products : List ChannelProduct
  identifiers : List String
  skipped : Nat

namespace Run

def start (maxPages retryAttempts : Nat) : Run := ⟨maxPages, retryAttempts, .asking 1, [], [], [], [], 0⟩

/-- The top of the loop of `_fetch_all`. -/
def ask (r : Run) (page : Int) : Run :=
  if page ∈ r.visited then { r with phase := .failed }
  else if r.maxPages ≤ r.pages.length then { r with phase := .failed }
  else { r with visited := page :: r.visited, phase := .reading page 0 }

/-- An item of a page; none where it raises. -/
def take (r : Run) (item : Option ChannelProduct) : Option Run :=
  match item, item.bind productId with
  | some product, some id =>
    if id ∈ r.identifiers then none
    else some { r with identifiers := r.identifiers ++ [id], products := r.products ++ [product] }
  | _, _ => some { r with skipped := r.skipped + 1 }

/-- `_read_page` and what comes of the page. -/
def answer (r : Run) (page : Int) (attempt seen : Nat) : Answer → Run
  | .failed retryable =>
    if retryable && decide (attempt < r.retryAttempts) then { r with phase := .reading page (attempt + 1) }
    else { r with phase := .failed }
  | .page items pagination =>
    let r := { r with pages := r.pages ++ [⟨page, items, pagination, seen⟩] }
    match items.foldlM take r with
    | none => { r with phase := .failed }
    | some r =>
      match pagination.onward page with
      | some next => { r with phase := .asking next }
      | none => { r with phase := .fetched }

end Run

/-- A run has put what it has read in the place of the caches. `log` is the writes before it. -/
structure Replacement where
  run : Nat
  pages : List PageRead
  log : List String
  after : Caches

/-- The channel: its caches, the products that were written so far, the runs and their replacements. -/
structure World where
  caches : Caches
  log : List String
  runs : List Run
  replacements : List Replacement

/-- `raise` stands for an exception anywhere in a run, the guards' conflict among them. A `write` of
others is a verified update or another write of the rows of some products. -/
inductive Action where
  | begin_ (maxPages retryAttempts : Nat)
  | ask (run : Nat)
  | answer (run : Nat) (answer : Answer)
  | replace (run : Nat) (completedAt : Time)
  | raise (run : Nat)
  | crash (run : Nat)
  | write (ids : List String) (after : Caches)

/-- The caches have one row a product, and differ only in the rows of some products. -/
def Caches.changedIn (before : Caches) (ids : List String) (after : Caches) : Prop :=
  (after.products.map ProductRow.productId).Nodup ∧
    (after.inventory.map InventoryRow.productId).Nodup ∧ ∀ id, id ∉ ids → after.of id = before.of id

namespace World

variable (u : Unicode)

def set (w : World) (i : Nat) (r : Run) : World := { w with runs := w.runs.set i r }

/-- The transaction at the end of `run`. -/
def replace (w : World) (i : Nat) (r : Run) (completedAt : Time) : World :=
  match r.products.mapM (productRow u completedAt), r.products.mapM (inventoryRow u completedAt) with
  | some products, some inventory =>
    let after : Caches := ⟨products, inventory⟩
    { w.set i { r with phase := .completed } with
      caches := after
      log := w.log ++ r.products.filterMap productId
      replacements := w.replacements ++ [⟨i, r.pages, w.log, after⟩] }
  | _, _ => w.set i { r with phase := .failed }

end World

variable (u : Unicode)

inductive Step (w : World) : Action → World → Prop where
  | begin_ (maxPages retryAttempts : Nat) (positive : 1 ≤ maxPages) :
      Step w (.begin_ maxPages retryAttempts) { w with runs := w.runs ++ [.start maxPages retryAttempts] }
  | ask {i : Nat} {r : Run} {page : Int} (run : w.runs[i]? = some r) (phase : r.phase = .asking page) :
      Step w (.ask i) (w.set i (r.ask page))
  | answer {i : Nat} {r : Run} {page : Int} {attempt : Nat} (answer : Answer) (run : w.runs[i]? = some r)
      (phase : r.phase = .reading page attempt) :
      Step w (.answer i answer) (w.set i (r.answer page attempt w.log.length answer))
  | replace {i : Nat} {r : Run} (completedAt : Time) (run : w.runs[i]? = some r)
      (phase : r.phase = .fetched) : Step w (.replace i completedAt) (w.replace u i r completedAt)
  | raise {i : Nat} {r : Run} (run : w.runs[i]? = some r) (phase : r.phase.isOpen = true) :
      Step w (.raise i) (w.set i { r with phase := .failed })
  | crash {i : Nat} {r : Run} (run : w.runs[i]? = some r) (phase : r.phase.isOpen = true) :
      Step w (.crash i) (w.set i { r with phase := .crashed })
  | write (ids : List String) (after : Caches) (changed : w.caches.changedIn ids after) :
      Step w (.write ids after) { w with caches := after, log := w.log ++ ids }

/-- A channel whose every step so far meets a condition on it and on the state before it. -/
inductive Runs (condition : World → Action → Prop) : World → Prop where
  | start (caches : Caches) : Runs condition ⟨caches, [], [], []⟩
  | step {w w' : World} {a : Action} : Runs condition w → Step u w a w' → condition w a → Runs condition w'

end FlowHub.Channels.ProductSync
