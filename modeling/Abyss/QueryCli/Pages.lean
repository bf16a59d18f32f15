import Abyss.Data.Buckets
import Abyss.Data.Result
import Abyss.System.Fallible
import Abyss.Text.Json

/-! Bounded listings of the query client: pages are requested until a budget is spent, and the
output says where a later listing goes on. -/
namespace Abyss.QueryCli
open Abyss.Text Abyss.System Abyss.Data

section Query

inductive DataClientError where
  | query (message : String)
  | http (status : UInt16)
  | transport
  | read
  | decode
  deriving DecidableEq, Repr

inductive QueryError where
  | protocol (message : String)
  | data (error : DataClientError)
  deriving DecidableEq, Repr

/-- Query parameters, in the order in which they are sent. -/
abbrev Pairs := List (String × Str)

/-- Exact filters shared by the listings. Instants are ordered, and written by `toRfc3339`. -/
structure Filters (Time : Type) where
  start : Option Time
  stop : Option Time
  agents : List Str
  providers : List Str
  models : List Str

variable {Time : Type} [LinearOrder Time] (toRfc3339 : Time → Str)

/-- The values of one exact filter. -/
def exactPairs (name : String) (values : List Str) : Except DataClientError Pairs :=
  values.mapM fun value => do
    refuseIf (trim value = []) (.query "exact filters must not be empty")
    return (name, value)

def Filters.pairs (filters : Filters Time) : Except DataClientError Pairs := do
  refuseIf (∃ start ∈ filters.start, ∃ stop ∈ filters.stop, stop ≤ start) (.query "from must be earlier than to")
  let agents ← exactPairs "agent_name" filters.agents
  let providers ← exactPairs "llm_provider" filters.providers
  let models ← exactPairs "llm_model" filters.models
  return filters.start.toList.map (fun time => ("from", toRfc3339 time)) ++
    filters.stop.toList.map (fun time => ("to", toRfc3339 time)) ++ agents ++ providers ++ models

def decimalText (n : Nat) : Str := Nat.toDigits 10 n

/-- One-based page window for sessions and search. -/
structure PageQuery (Time : Type) where
  filters : Filters Time
  page : Nat
  pageSize : Nat

def PageQuery.pairs (query : PageQuery Time) : Except DataClientError Pairs := do
  refuseIf (query.page = 0 ∨ ¬ (1 ≤ query.pageSize ∧ query.pageSize ≤ 100))
    (.query "page must be positive and page_size must be 1..100")
  let filters ← query.filters.pairs toRfc3339
  return filters ++ [("page", decimalText query.page), ("page_size", decimalText query.pageSize)]

inductive EventSide where
  | request
  | response
  deriving DecidableEq, Repr

def EventSide.asStr : EventSide → Str
  | .request => lit "request"
  | .response => lit "response"

inductive EventFields where
  | list
  | full
  deriving DecidableEq, Repr

def EventFields.asStr : EventFields → Str
  | .list => lit "list"
  | .full => lit "full"

/-- Offset-based persisted-event query. -/
structure EventQuery (Time : Type) where
  filters : Filters Time
  sessionIds : List Str
  sessionPk : Option Str
  side : Option EventSide
  fields : EventFields
  locate : Bool
  limit : Nat
  offset : Nat

def maxOffset : Nat := 2 ^ 63 - 1

def EventQuery.pairs (query : EventQuery Time) : Except DataClientError Pairs := do
  refuseIf (¬ (1 ≤ query.limit ∧ query.limit ≤ 1000) ∨ maxOffset < query.offset)
    (.query "event limit must be 1..1000 and offset must fit a signed 64-bit integer")
  let filters ← query.filters.pairs toRfc3339
  return filters ++ query.sessionIds.map (fun value => ("session_id", value)) ++
    query.sessionPk.toList.map (fun id => ("session_pk", id)) ++
    query.side.toList.map (fun side => ("event_type", side.asStr)) ++
    [("fields", query.fields.asStr), ("limit", decimalText query.limit), ("offset", decimalText query.offset)] ++
    (if query.locate then [("locate", lit "true")] else [])

end Query

section Output

/-- The members `pages`, `next`, `truncated` and `backend` are the metadata of a listing. -/
structure Output where
  schemaVersion : Nat
  command : String
  data : Json
  «meta» : Json

def Output.paginated (command : String) (items : List Json) (pages : Nat) (next : Json) (truncated : Bool)
    (backend : Json) : Output :=
  ⟨1, command, .arr items, .obj [(lit "pages", .num (.posInt (.ofNat pages))), (lit "next", next),
    (lit "truncated", .bool truncated), (lit "backend", backend)]⟩

/-- Aggregate output budget independent of per-response limits. -/
structure OutputBudget where
  used : Nat

def OutputBudget.new : OutputBudget := ⟨0⟩

def maxOutput : Nat := 64 * 1024 * 1024

def OutputBudget.«include» (budget : OutputBudget) (value : Json) : Except QueryError OutputBudget :=
  let used := addUpTo (2 ^ 64 - 1) budget.used value.toVec.length
  if used > maxOutput then
    .error (.protocol "combined output exceeds 64 MiB; reduce --max-items or query a narrower time range")
  else .ok ⟨used⟩

end Output

section Arguments
variable (Time : Type)

/-- Listing budgets, within the ranges of the command line. -/
structure Paging where
  all : Bool
  maxItems : Nat
  maxPages : Nat
  maxItems_pos : 1 ≤ maxItems
  maxItems_le : maxItems ≤ 100000
  maxPages_pos : 1 ≤ maxPages
  maxPages_le : maxPages ≤ 1000

structure PageArgs where
  filters : Filters Time
  page : Nat
  pageSize : Nat
  paging : Paging
  page_pos : 1 ≤ page
  page_lt : page < 2 ^ 32
  pageSize_pos : 1 ≤ pageSize
  pageSize_le : pageSize ≤ 100

structure EventArgs where
  filters : Filters Time
  sessionIds : List Str
  sessionPk : Option Str
  eventType : Option EventSide
  full : Bool
  locate : Bool
  limit : Nat
  offset : Nat
  paging : Paging
  limit_pos : 1 ≤ limit
  limit_le : limit ≤ 1000

variable {Time}

/-- A page window that the command line accepts. -/
structure PageWindow where
  page : Nat
  pageSize : Nat
  page_pos : 1 ≤ page
  page_lt : page < 2 ^ 32
  pageSize_pos : 1 ≤ pageSize
  pageSize_le : pageSize ≤ 100

def PageArgs.startingAt (args : PageArgs Time) (window : PageWindow) : PageArgs Time where
  filters := args.filters
  page := window.page
  pageSize := window.pageSize
  paging := args.paging
  page_pos := window.page_pos
  page_lt := window.page_lt
  pageSize_pos := window.pageSize_pos
  pageSize_le := window.pageSize_le

def PageArgs.query (args : PageArgs Time) : PageQuery Time := ⟨args.filters, args.page, args.pageSize⟩

def EventArgs.startingAt (args : EventArgs Time) (offset : Nat) : EventArgs Time := { args with offset }

def EventArgs.query (args : EventArgs Time) : EventQuery Time where
  filters := args.filters
  sessionIds := args.sessionIds
  sessionPk := args.sessionPk
  side := args.eventType
  fields := if args.full then .full else .list
  locate := args.locate
  limit := args.limit
  offset := args.offset

end Arguments

section Listings
variable {σ Time : Type} [LinearOrder Time]

/-- One page of persisted events, newest first. -/
structure EventPage where
  events : List Json
  nextPageToken : Option Str
  fields : List (Str × Json)

def EventPage.toJson (page : EventPage) : Json :=
  .obj ([(lit "events", .arr page.events), (lit "next_page_token", page.nextPageToken.elim .null .str)] ++ page.fields)

/-- The data client: how it writes instants, and what the backend answers to a checked query. -/
structure DataClient (σ Time : Type) where
  toRfc3339 : Time → Str
  getEvents : Pairs → Fallible σ DataClientError EventPage
  /-- A listing of sessions, or a search with its text; the decoded page as a value. -/
  getSessions : Option Str → Pairs → Fallible σ DataClientError Json

/-- A client error is a query error. -/
def fromData {α : Type} (x : Fallible σ DataClientError α) : Fallible σ QueryError α := fun s =>
  match x s with
  | (.ok a, s') => (.ok a, s')
  | (.error e, s') => (.error (.data e), s')

def DataClient.events (client : DataClient σ Time) (query : EventQuery Time) : Fallible σ QueryError EventPage :=
  fromData (do client.getEvents (← Fallible.lift (query.pairs client.toRfc3339)))

def DataClient.sessions (client : DataClient σ Time) (search : Option Str) (query : PageQuery Time) :
    Fallible σ QueryError Json :=
  fromData (do
    Fallible.lift (refuseIf (search.any (fun text => trim text = [])) (.query "search text must not be empty"))
    let pairs ← Fallible.lift (query.pairs client.toRfc3339)
    client.getSessions search (pairs ++ search.toList.map (fun text => ("q", text))))

/-- What a listing holds between two pages. -/
structure Listing (Query : Type) where
  query : Query
  items : List Json
  pages : Nat
  budget : OutputBudget

def maxU32 : Nat := 2 ^ 32 - 1

namespace EventPages

def nextQuery (args : EventArgs Time) (listing : Listing (EventQuery Time)) : EventQuery Time :=
  let remaining := args.paging.maxItems - min listing.items.length maxU32
  { listing.query with limit := min args.limit remaining }

/-- The offset of a continuation token. -/
def nextOffset (query : EventQuery Time) : Option Str → Except QueryError (Option Nat)
  | none => .ok none
  | some token =>
    match (parseUnsigned (2 ^ 64) token).filter (fun offset => query.offset < offset ∧ offset ≤ maxOffset) with
    | some offset => .ok (some offset)
    | none => .error (.protocol "invalid or non-advancing event continuation")

/-- What follows an accepted page. -/
def turn (args : EventArgs Time) (listing : Listing (EventQuery Time)) (query : EventQuery Time) (page : EventPage)
    (budget : OutputBudget) (next : Option Nat) : Output ⊕ Listing (EventQuery Time) :=
  let items := listing.items ++ page.events
  let pages := addUpTo maxU32 listing.pages 1
  let bounded : Bool := args.paging.maxItems ≤ items.length ∨ args.paging.maxPages ≤ pages
  match next with
  | some offset =>
    if !args.paging.all || bounded then
      .inl (.paginated "events.list" items pages (.obj [(lit "offset", .num (.posInt (.ofNat offset)))])
        (args.paging.all && bounded) (.obj page.fields))
    else .inr ⟨{ query with offset }, items, pages, budget⟩
  | none => .inl (.paginated "events.list" items pages .null false (.obj page.fields))

def accept (args : EventArgs Time) (listing : Listing (EventQuery Time)) (query : EventQuery Time)
    (page : EventPage) : Except QueryError (Output ⊕ Listing (EventQuery Time)) := do
  let budget ← listing.budget.«include» page.toJson
  refuseIf (query.limit < page.events.length) (.protocol "server exceeded requested event limit")
  let next ← nextOffset query page.nextPageToken
  refuseIf (next.isSome ∧ page.events = []) (.protocol "empty event page has a continuation")
  return turn args listing query page budget next

def round (client : DataClient σ Time) (args : EventArgs Time) (listing : Listing (EventQuery Time)) :
    Fallible σ QueryError (Output ⊕ Listing (EventQuery Time)) := do
  let query := nextQuery args listing
  let page ← client.events query
  Fallible.lift (accept args listing query page)

/-- The loop ends with its last page at the latest, so that as many rounds suffice. -/
def fetch (client : DataClient σ Time) (args : EventArgs Time) : Fallible σ QueryError (Option Output) :=
  Fallible.rounds (round client args) args.paging.maxPages ⟨args.query, [], 0, .new⟩

end EventPages

namespace SessionPages

def required {α : Type} (message : String) : Option α → Except QueryError α
  | some a => .ok a
  | none => .error (.protocol message)

/-- What follows an accepted page. -/
def turn (args : PageArgs Time) (command : String) (listing : Listing (PageQuery Time)) (value : Json)
    (batch : List Json) (budget : OutputBudget) (more : Bool) : Except QueryError (Output ⊕ Listing (PageQuery Time)) := do
  let query := listing.query
  let items := listing.items ++ batch
  let pages := addUpTo maxU32 listing.pages 1
  refuseIf (more ∧ maxU32 < query.page + 1) (.protocol "page overflow")
  let next : Json := if more then
      .obj [(lit "page", .num (.posInt (.ofNat (query.page + 1)))),
        (lit "page_size", .num (.posInt (.ofNat query.pageSize)))]
    else .null
  -- The rows that are left in the item budget may be fewer than the next page holds.
  let remaining := args.paging.maxItems - items.length
  let bounded : Bool := remaining < query.pageSize ∨ args.paging.maxPages ≤ pages
  if !more || !args.paging.all || bounded then
    let members ← required "invalid page" value.asObject
    return .inl (.paginated command items pages next (more && args.paging.all && bounded)
      (.obj (members.filter (fun member => member.1 ≠ lit "items"))))
  else return .inr ⟨{ query with page := query.page + 1 }, items, pages, budget⟩

def accept (args : PageArgs Time) (command : String) (listing : Listing (PageQuery Time)) (value : Json) :
    Except QueryError (Output ⊕ Listing (PageQuery Time)) := do
  let query := listing.query
  let budget ← listing.budget.«include» value
  let batch ← required "missing session items" ((value.get "items").bind Json.asArray)
  refuseIf (maxU32 < batch.length) (.protocol "oversized session page")
  refuseIf (query.pageSize < batch.length) (.protocol "server exceeded requested session page size")
  refuseIf ((value.get "page").bind Json.asU64 ≠ some (.ofNat query.page) ∨
      (value.get "page_size").bind Json.asU64 ≠ some (.ofNat query.pageSize))
    (.protocol "server returned a different pagination window")
  let more ← required "missing has_more" ((value.get "has_more").bind Json.asBool)
  refuseIf (more = true ∧ batch = []) (.protocol "empty session page has a continuation")
  turn args command listing value batch budget more

def round (client : DataClient σ Time) (args : PageArgs Time) (search : Option Str)
    (listing : Listing (PageQuery Time)) : Fallible σ QueryError (Output ⊕ Listing (PageQuery Time)) := do
  let value ← client.sessions search listing.query
  Fallible.lift (accept args (if search.isSome then "search" else "sessions.list") listing value)

/-- The page size stays the same between the pages: another size would move their offsets. -/
def fetch (client : DataClient σ Time) (args : PageArgs Time) (search : Option Str) :
    Fallible σ QueryError (Option Output) :=
  Fallible.rounds (round client args search) args.paging.maxPages
    ⟨{ args.query with pageSize := min args.query.pageSize args.paging.maxItems }, [], 0, .new⟩

end SessionPages
end Listings

section Budget

/-- The bytes of some values as they are written. -/
def bytes (values : List Json) : Nat := (values.map (fun value => value.toVec.length)).sum

private theorem length_toUtf8_append (s t : Str) : (toUtf8 (s ++ t)).length = (toUtf8 s).length + (toUtf8 t).length := by
  rw [toUtf8, List.flatMap_append, List.length_append]
  rfl

private theorem length_toUtf8_cons (c : Char) (t : Str) : (toUtf8 t).length ≤ (toUtf8 (c :: t)).length := by
  rw [show c :: t = [c] ++ t from rfl, length_toUtf8_append]
  exact Nat.le_add_left ..

theorem bytes_append (values others : List Json) : bytes (values ++ others) = bytes values + bytes others := by
  simp [bytes]

theorem bytes_le_items (items : List Json) : bytes items ≤ (toUtf8 (Json.itemsText items)).length := by
  induction items with
  | nil => exact Nat.zero_le _
  | cons item rest ih =>
    cases rest with
    | nil =>
      rw [Json.itemsText, length_toUtf8_append]
      exact Nat.le_add_right ..
    | cons next rest =>
      rw [Json.itemsText, length_toUtf8_append]
      exact Nat.add_le_add_left (ih.trans (length_toUtf8_cons ',' _)) _

/-- An array takes at least the bytes of its items. -/
theorem bytes_le_array (items : List Json) : bytes items ≤ (Json.arr items).toVec.length :=
  (bytes_le_items items).trans (length_toUtf8_cons '[' _)

private theorem length_toUtf8_member (key value rest : Str) :
    (toUtf8 value).length + (toUtf8 rest).length ≤ (toUtf8 (Json.stringText key ++ ':' :: value ++ rest)).length := by
  rw [List.append_assoc, List.cons_append, length_toUtf8_append, ← length_toUtf8_append]
  exact (length_toUtf8_cons ':' _).trans (Nat.le_add_left ..)

theorem value_le_members {members : List (Str × Json)} {member : Str × Json} (h : member ∈ members) :
    member.2.toVec.length ≤ (toUtf8 (Json.membersText members)).length := by
  induction members with
  | nil => cases h
  | cons first rest ih =>
    obtain ⟨key, value⟩ := first
    cases rest with
    | nil =>
      obtain rfl := List.mem_singleton.mp h
      rw [Json.membersText]
      exact (Nat.le_add_right _ _).trans (length_toUtf8_member key value.text _)
    | cons next rest =>
      rw [Json.membersText]
      have hsum := length_toUtf8_member key value.text (',' :: Json.membersText (next :: rest))
      rcases List.mem_cons.mp h with rfl | hmem
      · exact (Nat.le_add_right _ _).trans hsum
      · exact ((ih hmem).trans (length_toUtf8_cons ',' _)).trans ((Nat.le_add_left ..).trans hsum)

theorem value_le_object {members : List (Str × Json)} {member : Str × Json} (h : member ∈ members) :
    member.2.toVec.length ≤ (Json.obj members).toVec.length :=
  (value_le_members h).trans (length_toUtf8_cons '{' _)

/-- An object takes at least the bytes of the items of a member. -/
theorem bytes_le_get {value : Json} {key : String} {items : List Json} (h : (value.get key).bind Json.asArray = some items) :
    bytes items ≤ value.toVec.length := by
  obtain ⟨member, hget, harray⟩ := Option.bind_eq_some_iff.mp h
  cases value with
  | obj members =>
    obtain ⟨found, hfound, rfl⟩ := Option.map_eq_some_iff.mp hget
    have hmember := value_le_object (List.mem_of_find?_eq_some hfound)
    cases hvalue : found.2 with
    | arr stored =>
      rw [hvalue] at harray hmember
      obtain rfl := Option.some.inj harray
      exact (bytes_le_array stored).trans hmember
    | _ =>
      rw [hvalue] at harray
      cases harray
  | _ => cases hget

theorem bytes_le_page (page : EventPage) : bytes page.events ≤ page.toJson.toVec.length :=
  (bytes_le_array page.events).trans (@value_le_object _ (lit "events", .arr page.events) List.mem_cons_self)

theorem OutputBudget.include_ok {budget next : OutputBudget} {value : Json} (h : budget.«include» value = .ok next) :
    next.used = budget.used + value.toVec.length ∧ next.used ≤ maxOutput := by
  unfold OutputBudget.include addUpTo at h
  dsimp only at h
  split at h
  · cases h
  · next hle =>
    cases h
    unfold maxOutput at *
    dsimp only
    omega

end Budget

/-! Every listing is bounded, whatever the backend answers. -/
section Bounds
variable {σ Time : Type} {paging : Paging}

/-- A listing that goes on has room for a row and a page. -/
structure Listing.Within {Query : Type} (paging : Paging) (listing : Listing Query) : Prop where
  items_lt : listing.items.length < paging.maxItems
  pages_lt : listing.pages < paging.maxPages
  bytes_le : bytes listing.items ≤ listing.budget.used
  used_le : listing.budget.used ≤ maxOutput

/-- An output within the budgets of its listing. -/
structure Output.Within (paging : Paging) (output : Output) (items : List Json) : Prop where
  data : output.data = .arr items
  items_le : items.length ≤ paging.maxItems
  bytes_le : bytes items ≤ maxOutput

theorem within_start {Query : Type} (paging : Paging) (query : Query) :
    Listing.Within paging ⟨query, [], 0, OutputBudget.new⟩ where
  items_lt := paging.maxItems_pos
  pages_lt := paging.maxPages_pos
  bytes_le := Nat.le_refl 0
  used_le := Nat.zero_le _

theorem pages_succ {pages : Nat} (h : pages < paging.maxPages) : addUpTo maxU32 pages 1 = pages + 1 := by
  have hmax := paging.maxPages_le
  unfold addUpTo maxU32
  omega

/-- The rows of one more page fit into the output. -/
theorem bytes_of_include {listing budget : OutputBudget} {value : Json} {items batch : List Json}
    (hinclude : listing.«include» value = .ok budget) (hbatch : bytes batch ≤ value.toVec.length)
    (hitems : bytes items ≤ listing.used) : bytes (items ++ batch) ≤ budget.used ∧ budget.used ≤ maxOutput := by
  obtain ⟨hused, hmax⟩ := OutputBudget.include_ok hinclude
  rw [bytes_append]
  omega

namespace EventPages
variable {args : EventArgs Time} {listing : Listing (EventQuery Time)} {query : EventQuery Time} {page : EventPage}
  {budget : OutputBudget} {next : Option Nat}

theorem nextOffset_some {token : Option Str} {offset : Nat} (h : nextOffset query token = .ok (some offset)) :
    ∃ text, token = some text ∧ parseUnsigned (2 ^ 64) text = some offset ∧ query.offset < offset ∧ offset ≤ maxOffset := by
  cases token with
  | none => cases h
  | some text =>
    rw [nextOffset] at h
    cases hparse : (parseUnsigned (2 ^ 64) text).filter (fun offset => query.offset < offset ∧ offset ≤ maxOffset) with
    | none =>
      rw [hparse] at h
      cases h
    | some found =>
      rw [hparse] at h
      cases h
      obtain ⟨hvalue, hbounds⟩ := Option.filter_eq_some_iff.mp hparse
      exact ⟨text, rfl, hvalue, of_decide_eq_true hbounds⟩

theorem accept_ok {r : Output ⊕ Listing (EventQuery Time)} (h : accept args listing query page = .ok r) :
    ∃ budget next, listing.budget.«include» page.toJson = .ok budget ∧ page.events.length ≤ query.limit ∧
      nextOffset query page.nextPageToken = .ok next ∧ (next.isSome → page.events ≠ []) ∧
      turn args listing query page budget next = r := by
  simp only [accept, do_eq_ok, refuseIf_eq_ok, exists_const] at h
  obtain ⟨budget, hbudget, hlimit, next, hnext, hempty, hturn⟩ := h
  exact ⟨budget, next, hbudget, Nat.le_of_not_lt hlimit, hnext, fun hsome hevents => hempty ⟨hsome, hevents⟩,
    Except.ok.inj hturn⟩

def continuation : Option Nat → Json
  | some offset => .obj [(lit "offset", .num (.posInt (.ofNat offset)))]
  | none => .null

/-- A page ends the listing, or leaves it room for another page. -/
theorem turn_cases (hpages : listing.pages < args.paging.maxPages) (query : EventQuery Time) (page : EventPage)
    (budget : OutputBudget) (next : Option Nat) : turn args listing query page budget next = .inl (.paginated "events.list" (listing.items ++ page.events)
        (listing.pages + 1) (continuation next) (next.isSome && args.paging.all) (.obj page.fields)) ∨
    ∃ offset, next = some offset ∧ (listing.items ++ page.events).length < args.paging.maxItems ∧
      listing.pages + 1 < args.paging.maxPages ∧ turn args listing query page budget next =
        .inr ⟨{ query with offset }, listing.items ++ page.events, listing.pages + 1, budget⟩ := by
  unfold turn
  rw [pages_succ hpages]
  cases next with
  | none => exact .inl rfl
  | some offset =>
    dsimp only
    split
    · next hends =>
      left
      have htruncated : (args.paging.all && decide (args.paging.maxItems ≤ (listing.items ++ page.events).length ∨
          args.paging.maxPages ≤ listing.pages + 1)) = args.paging.all := by
        cases hall : args.paging.all with
        | false => rfl
        | true => simpa [hall] using hends
      rw [htruncated]
      rfl
    · next hgoes =>
      simp only [Bool.or_eq_true, Bool.not_eq_true', decide_eq_true_eq, not_or, Nat.not_le] at hgoes
      exact .inr ⟨offset, rfl, hgoes.2.1, hgoes.2.2, rfl⟩

theorem limit_nextQuery (args : EventArgs Time) (hwithin : listing.Within args.paging) :
    listing.items.length + (nextQuery args listing).limit ≤ args.paging.maxItems := by
  have hitems := hwithin.items_lt
  have hmax := args.paging.maxItems_le
  unfold nextQuery maxU32
  dsimp only
  omega

end EventPages

namespace SessionPages
variable {args : PageArgs Time} {command : String} {listing : Listing (PageQuery Time)} {value : Json} {batch : List Json}
  {budget : OutputBudget} {more : Bool} {r : Output ⊕ Listing (PageQuery Time)}

theorem required_eq_ok {α : Type} {message : String} {found : Option α} {a : α} :
    required message found = .ok a ↔ found = some a := by
  cases found <;> simp [required]

/-- What is checked of a page. -/
structure Accepted (listing : Listing (PageQuery Time)) (value : Json) (batch : List Json) (budget : OutputBudget)
    (more : Bool) : Prop where
  included : listing.budget.«include» value = .ok budget
  items : (value.get "items").bind Json.asArray = some batch
  length_le : batch.length ≤ listing.query.pageSize
  hasMore : (value.get "has_more").bind Json.asBool = some more
  nonempty : more = true → batch ≠ []

theorem accept_ok (h : accept args command listing value = .ok r) :
    ∃ batch budget more, Accepted listing value batch budget more ∧
      turn args command listing value batch budget more = .ok r := by
  simp only [accept, do_eq_ok, refuseIf_eq_ok, required_eq_ok, exists_const] at h
  obtain ⟨budget, hbudget, batch, hbatch, -, hlength, -, more, hmore, hempty, hturn⟩ := h
  exact ⟨batch, budget, more, ⟨hbudget, hbatch, Nat.le_of_not_lt hlength, hmore,
    fun hsome hnil => hempty ⟨hsome, hnil⟩⟩, hturn⟩

def continuation (query : PageQuery Time) (more : Bool) : Json :=
  if more then .obj [(lit "page", .num (.posInt (.ofNat (query.page + 1)))),
    (lit "page_size", .num (.posInt (.ofNat query.pageSize)))]
  else .null

/-- A page ends the listing, or leaves it room for a whole page. -/
theorem turn_cases (hpages : listing.pages < args.paging.maxPages) (hsize : 1 ≤ listing.query.pageSize)
    (h : turn args command listing value batch budget more = .ok r) :
    (more = true → listing.query.page + 1 ≤ maxU32) ∧
    ((∃ backend, r = .inl (.paginated command (listing.items ++ batch) (listing.pages + 1)
        (continuation listing.query more) (more && args.paging.all) backend)) ∨
      more = true ∧ (listing.items ++ batch).length + listing.query.pageSize ≤ args.paging.maxItems ∧
      listing.pages + 1 < args.paging.maxPages ∧ r = .inr ⟨{ listing.query with page := listing.query.page + 1 },
        listing.items ++ batch, listing.pages + 1, budget⟩) := by
  unfold turn at h
  rw [pages_succ hpages] at h
  simp only [do_eq_ok, refuseIf_eq_ok, exists_const] at h
  obtain ⟨hoverflow, h⟩ := h
  refine ⟨fun hmore => Nat.le_of_not_lt fun hlt => hoverflow ⟨hmore, hlt⟩, ?_⟩
  split at h
  · next hends =>
    simp only [do_eq_ok] at h
    obtain ⟨members, -, h⟩ := h
    have htruncated : (more && args.paging.all && decide (args.paging.maxItems - (listing.items ++ batch).length <
        listing.query.pageSize ∨ args.paging.maxPages ≤ listing.pages + 1)) = (more && args.paging.all) := by
      cases more <;> cases hall : args.paging.all <;> simp_all
    rw [htruncated] at h
    exact .inl ⟨_, (Except.ok.inj h).symm⟩
  · next hgoes =>
    simp only [Bool.or_eq_true, Bool.not_eq_true', decide_eq_true_eq, not_or, Bool.not_eq_false, Nat.not_lt,
      Nat.not_le] at hgoes
    refine .inr ⟨hgoes.1.1, ?_, hgoes.2.2, (Except.ok.inj h).symm⟩
    omega

end SessionPages

/-! A query is refused, or sent once. -/
section Requests
variable [LinearOrder Time] {client : DataClient σ Time} {requests : σ → Nat} {s s' : σ}

theorem fromData_state {α : Type} (x : Fallible σ DataClientError α) (s : σ) : (fromData x s).2 = (x s).2 := by
  unfold fromData
  split <;> next h => rw [h]

theorem fromData_ok {α : Type} {x : Fallible σ DataClientError α} {a : α} (h : fromData x s = (.ok a, s')) :
    x s = (.ok a, s') := by
  unfold fromData at h
  split at h
  · next hx =>
    rw [hx]
    cases h
    rfl
  · cases h

theorem lift_cases {ε α β : Type} (r : Except ε α) (f : α → Fallible σ ε β) (s : σ) :
    (∃ e, (Fallible.lift r >>= f) s = (.error e, s)) ∨ ∃ a, r = .ok a ∧ (Fallible.lift r >>= f) s = f a s := by
  cases r with
  | ok a => exact .inr ⟨a, rfl, rfl⟩
  | error e => exact .inl ⟨e, rfl⟩

theorem DataClient.events_cases (client : DataClient σ Time) (query : EventQuery Time) (s : σ) :
    (∃ e, client.events query s = (.error e, s)) ∨ ∃ pairs, query.pairs client.toRfc3339 = .ok pairs ∧
      client.events query s = fromData (client.getEvents pairs) s := by
  unfold DataClient.events
  rcases lift_cases (query.pairs client.toRfc3339) (fun pairs => client.getEvents pairs) s with ⟨e, h⟩ | ⟨pairs, hpairs, h⟩
  · exact .inl ⟨.data e, by rw [fromData, h]⟩
  · exact .inr ⟨pairs, hpairs, by rw [fromData, h]; rfl⟩

theorem DataClient.sessions_cases (client : DataClient σ Time) (search : Option Str) (query : PageQuery Time) (s : σ) :
    (∃ e, client.sessions search query s = (.error e, s)) ∨ ∃ pairs, query.pairs client.toRfc3339 = .ok pairs ∧
      client.sessions search query s =
        fromData (client.getSessions search (pairs ++ search.toList.map (fun text => ("q", text)))) s := by
  unfold DataClient.sessions
  rcases lift_cases (refuseIf (search.any (fun text => trim text = [])) (.query "search text must not be empty"))
    (fun _ => Fallible.lift (query.pairs client.toRfc3339) >>= fun pairs =>
      client.getSessions search (pairs ++ search.toList.map (fun text => ("q", text)))) s with ⟨e, h⟩ | ⟨-, -, h⟩
  · exact .inl ⟨.data e, by rw [fromData, h]⟩
  · rcases lift_cases (query.pairs client.toRfc3339)
      (fun pairs => client.getSessions search (pairs ++ search.toList.map (fun text => ("q", text)))) s with
      ⟨e, hpairs⟩ | ⟨pairs, hpairs, hget⟩
    · exact .inl ⟨.data e, by rw [fromData, h, hpairs]⟩
    · exact .inr ⟨pairs, hpairs, by rw [fromData, h, hget]; rfl⟩

theorem DataClient.events_requests (hcount : ∀ pairs s, requests (client.getEvents pairs s).2 ≤ requests s + 1)
    (query : EventQuery Time) (s : σ) : requests (client.events query s).2 ≤ requests s + 1 := by
  rcases client.events_cases query s with ⟨e, h⟩ | ⟨pairs, -, h⟩
  · rw [h]
    exact Nat.le_succ _
  · rw [h, fromData_state]
    exact hcount pairs s

theorem DataClient.sessions_requests
    (hcount : ∀ search pairs s, requests (client.getSessions search pairs s).2 ≤ requests s + 1) (search : Option Str)
    (query : PageQuery Time) (s : σ) : requests (client.sessions search query s).2 ≤ requests s + 1 := by
  rcases client.sessions_cases search query s with ⟨e, h⟩ | ⟨pairs, -, h⟩
  · rw [h]
    exact Nat.le_succ _
  · rw [h, fromData_state]
    exact hcount search _ s

end Requests

variable [LinearOrder Time] {client : DataClient σ Time} {requests : σ → Nat}

theorem EventPages.fetch_bounded (hcount : ∀ pairs s, requests (client.getEvents pairs s).2 ≤ requests s + 1)
    (args : EventArgs Time) (start : σ) :
    Fallible.Post (EventPages.fetch client args) start (fun r s => requests s ≤ requests start + args.paging.maxPages ∧
      r ≠ .ok none ∧ ∀ output, r = .ok (some output) → ∃ items, output.Within args.paging items) := by
  apply @Fallible.Post.rounds _ _ _ _ _
    (fun listing s => listing.Within args.paging ∧ requests s ≤ requests start + listing.pages)
    (fun listing => args.paging.maxPages - 1 - listing.pages) _ _ _ _ _ _
    ⟨within_start args.paging args.query, Nat.le_refl _⟩
  · rintro listing s ⟨hwithin, hrequests⟩
    have hpages := hwithin.pages_lt
    unfold EventPages.round
    dsimp only
    apply Fallible.Post.bind (Fallible.Post.run _ _)
    · intro page s' hpage
      have hcost := DataClient.events_requests hcount (EventPages.nextQuery args listing) s
      rw [hpage] at hcost
      apply Fallible.Post.lift
      cases haccept : EventPages.accept args listing (EventPages.nextQuery args listing) page with
      | error e => exact ⟨by dsimp only at *; omega, by simp, by simp⟩
      | ok r =>
        obtain ⟨budget, next, hbudget, hlimit, -, -, hturn⟩ := EventPages.accept_ok haccept
        obtain ⟨hbytes, hmax⟩ := bytes_of_include hbudget
          (bytes_le_page page) hwithin.bytes_le
        have hlength := EventPages.limit_nextQuery args hwithin
        rcases EventPages.turn_cases hpages (EventPages.nextQuery args listing) page budget next with
          hends | ⟨offset, -, hitems, hlater, hgoes⟩
        · obtain rfl := hturn.symm.trans hends
          refine ⟨by dsimp only at *; omega, by simp, ?_⟩
          rintro output ⟨⟩
          exact ⟨_, rfl, by rw [List.length_append]; omega, hbytes.trans hmax⟩
        · obtain rfl := hturn.symm.trans hgoes
          exact ⟨⟨⟨hitems, hlater, hbytes, hmax⟩, by dsimp only at *; omega⟩, by dsimp only; omega⟩
    · intro e s' he
      have hcost := DataClient.events_requests hcount (EventPages.nextQuery args listing) s
      rw [he] at hcost
      exact ⟨by dsimp only at *; omega, by simp, by simp⟩
  · have hpos := args.paging.maxPages_pos
    dsimp only
    omega

theorem SessionPages.fetch_bounded (hcount : ∀ search pairs s, requests (client.getSessions search pairs s).2 ≤ requests s + 1)
    (args : PageArgs Time) (search : Option Str) (start : σ) :
    Fallible.Post (SessionPages.fetch client args search) start (fun r s =>
      requests s ≤ requests start + args.paging.maxPages ∧ r ≠ .ok none ∧
      ∀ output, r = .ok (some output) → ∃ items, output.Within args.paging items) := by
  have hsize : 1 ≤ min args.query.pageSize args.paging.maxItems := le_min args.pageSize_pos args.paging.maxItems_pos
  apply @Fallible.Post.rounds _ _ _ _ _
    (fun listing s => listing.Within args.paging ∧ 1 ≤ listing.query.pageSize ∧
      listing.items.length + listing.query.pageSize ≤ args.paging.maxItems ∧ requests s ≤ requests start + listing.pages)
    (fun listing => args.paging.maxPages - 1 - listing.pages) _ _ _ _ _ _
    ⟨within_start args.paging _, hsize, by dsimp only [List.length_nil]; omega, Nat.le_refl _⟩
  · rintro listing s ⟨hwithin, hpos, hroom, hrequests⟩
    have hpages := hwithin.pages_lt
    unfold SessionPages.round
    apply Fallible.Post.bind (Fallible.Post.run _ _)
    · intro value s' hvalue
      have hcost := DataClient.sessions_requests hcount search listing.query s
      rw [hvalue] at hcost
      apply Fallible.Post.lift
      cases haccept : SessionPages.accept args (if search.isSome then "search" else "sessions.list") listing value with
      | error e => exact ⟨by dsimp only at *; omega, by simp, by simp⟩
      | ok r =>
        obtain ⟨batch, budget, more, haccepted, hturn⟩ := SessionPages.accept_ok haccept
        obtain ⟨hbytes, hmax⟩ := bytes_of_include haccepted.included (bytes_le_get haccepted.items) hwithin.bytes_le
        have hlength := haccepted.length_le
        rcases (SessionPages.turn_cases hpages hpos hturn).2 with ⟨backend, rfl⟩ | ⟨-, hitems, hlater, rfl⟩
        · refine ⟨by dsimp only at *; omega, by simp, ?_⟩
          rintro output ⟨⟩
          exact ⟨_, rfl, by rw [List.length_append]; omega, hbytes.trans hmax⟩
        · exact ⟨⟨⟨by dsimp only; omega, hlater, hbytes, hmax⟩, hpos, hitems, by dsimp only at *; omega⟩, by dsimp only; omega⟩
    · intro e s' he
      have hcost := DataClient.sessions_requests hcount search listing.query s
      rw [he] at hcost
      exact ⟨by dsimp only at *; omega, by simp, by simp⟩
  · have hpos := args.paging.maxPages_pos
    dsimp only
    omega

/-- A listing ends after a bounded number of requests, with a bounded output or an error,
whatever the backend answers. -/
theorem listings_bounded (hevents : ∀ pairs s, requests (client.getEvents pairs s).2 ≤ requests s + 1)
    (hsessions : ∀ search pairs s, requests (client.getSessions search pairs s).2 ≤ requests s + 1) (start : σ) :
    (∀ args : EventArgs Time, Fallible.Post (EventPages.fetch client args) start (fun r s =>
      requests s ≤ requests start + args.paging.maxPages ∧ r ≠ .ok none ∧
      ∀ output, r = .ok (some output) → ∃ items, output.Within args.paging items)) ∧
    ∀ (args : PageArgs Time) search, Fallible.Post (SessionPages.fetch client args search) start (fun r s =>
      requests s ≤ requests start + args.paging.maxPages ∧ r ≠ .ok none ∧
      ∀ output, r = .ok (some output) → ∃ items, output.Within args.paging items) :=
  ⟨fun args => EventPages.fetch_bounded hevents args start,
    fun args search => SessionPages.fetch_bounded hsessions args search start⟩

end Bounds

section Sample

/-- The number that a query sends under a name. -/
def numberOf (pairs : Pairs) (name : String) : Nat := decimal ((pairs.lookup name).getD [])

/-- A backend of some rows, which counts its requests. -/
def servingClient (rows : List Json) : DataClient Nat Nat where
  toRfc3339 := decimalText
  getEvents pairs := fun requests =>
    let offset := numberOf pairs "offset"
    let events := (rows.drop offset).take (numberOf pairs "limit")
    let stop := offset + events.length
    (.ok ⟨events, if stop < rows.length then some (decimalText stop) else none, []⟩, requests + 1)
  getSessions _ pairs := fun requests =>
    let page := numberOf pairs "page"
    let size := numberOf pairs "page_size"
    (.ok (.obj [(lit "items", .arr ((rows.drop ((page - 1) * size)).take size)), (lit "page", .num (.posInt (.ofNat page))),
      (lit "page_size", .num (.posInt (.ofNat size))), (lit "has_more", .bool (decide (page * size < rows.length)))]),
      requests + 1)

def allFilters : Filters Nat := ⟨none, none, [], [], []⟩

def samplePaging : Paging := ⟨true, 100, 2, by decide, by decide, by decide, by decide⟩

def sampleEvents : EventArgs Nat :=
  ⟨allFilters, [], none, none, false, false, 1, 0, samplePaging, by decide, by decide⟩

def sampleSessions : PageArgs Nat :=
  ⟨allFilters, 1, 1, samplePaging, by decide, by decide, by decide, by decide⟩

def sampleRows : List Json := [.str ['a'], .str ['b'], .str ['c']]

theorem sample_bounded : Fallible.Post (EventPages.fetch (servingClient sampleRows) sampleEvents) 0 (fun r requests =>
    requests ≤ 0 + 2 ∧ r ≠ .ok none ∧ ∀ output, r = .ok (some output) → ∃ items, output.Within samplePaging items) :=
  (@listings_bounded Nat Nat _ (servingClient sampleRows) id (fun _ _ => Nat.le_refl _) (fun _ _ _ => Nat.le_refl _) 0).1
    sampleEvents

end Sample

end Abyss.QueryCli
