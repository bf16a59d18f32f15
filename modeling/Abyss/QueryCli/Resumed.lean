import Abyss.QueryCli.Pages

/-! Listings that go on where an earlier one has ended: together they give every row once. -/
namespace Abyss.QueryCli
open Abyss.Text Abyss.System Abyss.Data

section Resumed
variable {σ Time Place Args : Type} [LinearOrder Time]

/-- The rows that a caller has collected, and where the next listing starts. -/
structure Collected (Place : Type) where
  rows : List Json
  next : Option Place

def Output.rows (output : Output) : List Json := output.data.asArray.getD []

/-- One listing of the caller. Behind a failure it starts at the same place again. -/
def sitting (fetch : Args → Place → Fallible σ QueryError (Option Output)) (resume : Output → Option Place)
    (caller : Collected Place × σ) (args : Args) : Collected Place × σ :=
  match caller.1.next with
  | none => caller
  | some place =>
    match fetch args place caller.2 with
    | (.ok (some output), s) => (⟨caller.1.rows ++ output.rows, resume output⟩, s)
    | (_, s) => (caller.1, s)

/-- What was collected is a run of the rows from `start` on, and nothing is left behind its end unless
the next listing starts there. -/
structure Collects (rows : List Json) (start : Nat) (row : Place → Nat) (collected : Collected Place) : Prop where
  run : collected.rows <+: rows.drop start
  complete : collected.next = none → collected.rows = rows.drop start
  continues : ∀ place, collected.next = some place → row place = start + collected.rows.length

/-- What every successful listing keeps holds after all of them. -/
theorem sittings_keep {fetch : Args → Place → Fallible σ QueryError (Option Output)} {resume : Output → Option Place}
    {inv : Collected Place → Prop} {start : Collected Place × σ} {listings : List Args}
    (hsitting : ∀ front args back, listings = front ++ args :: back → ∀ collected s place,
      front.foldl (sitting fetch resume) start = (collected, s) → inv collected → collected.next = some place →
      ∀ output s', fetch args place s = (.ok (some output), s') → inv ⟨collected.rows ++ output.rows, resume output⟩)
    (hstart : inv start.1) : inv (listings.foldl (sitting fetch resume) start).1 := by
  induction listings using List.reverseRecOn with
  | nil => exact hstart
  | append_singleton front args ih =>
    have hfront := ih fun f a back hsplit => hsitting f a (back ++ [args]) (by rw [hsplit]; simp)
    rw [List.foldl_append, List.foldl_cons, List.foldl_nil]
    unfold sitting
    split
    · exact hfront
    · next place hplace =>
      split
      · next output s hfetch => exact hsitting front args [] rfl _ _ place rfl hfront hplace output s hfetch
      · exact hfront

/-- A window behind the rows of a list is a window of it. -/
theorem window_append {rows items batch : List Json} {start : Nat} (hitems : items <+: rows.drop start)
    (hbatch : batch <+: rows.drop (start + items.length)) : items ++ batch <+: rows.drop start := by
  obtain ⟨rest, hrest⟩ := hitems
  rw [← List.drop_drop, ← hrest, List.drop_left] at hbatch
  rw [← hrest]
  exact (List.prefix_append_right_inj items).mpr hbatch

/-- A run from where another one ends, with the rest of the rows behind it. -/
theorem Collects.append {rows items collected : List Json} {start : Nat} {row : Place → Nat} {place : Place}
    {next : Option Place} (h : Collects rows start row ⟨collected, some place⟩)
    (hitems : items <+: rows.drop (row place)) (hcomplete : next = none → rows.length ≤ row place + items.length)
    (hcontinues : ∀ p, next = some p → row p = row place + items.length) :
    Collects rows start row ⟨collected ++ items, next⟩ := by
  have hplace := h.continues place rfl
  rw [hplace] at hitems hcomplete hcontinues
  have hrun := window_append h.run hitems
  refine ⟨hrun, ?_, ?_⟩
  · intro hnone
    apply hrun.eq_of_length_le
    have hlength := hcomplete hnone
    rw [List.length_drop, List.length_append]
    omega
  · intro p hp
    rw [hcontinues p hp, List.length_append, Nat.add_assoc]

def EventQuery.window (query : EventQuery Time) (limit offset : Nat) : EventQuery Time :=
  { query with limit := limit, offset := offset }

/-- A backend whose events stay the same: a page is a run of the rows at its offset, and its token is
the offset behind the run, as long as there are rows behind it. -/
def ServesEvents (client : DataClient σ Time) (query : EventQuery Time) (rows : List Json) : Prop :=
  ∀ {limit offset page s s'}, client.events (query.window limit offset) s = (.ok page, s') →
    page.events <+: rows.drop offset ∧ page.nextPageToken =
      if offset + page.events.length < rows.length then some (decimalText (offset + page.events.length)) else none

namespace EventPages
variable {client : DataClient σ Time} {rows : List Json} {args : EventArgs Time}

/-- Where the rows go on behind a position. -/
def behind (rows : List Json) (stop : Nat) : Option Nat := if stop < rows.length then some stop else none

/-- An output is a run of the rows at its offset, and names the offset behind it. -/
def Exact (rows : List Json) (args : EventArgs Time) (output : Output) : Prop :=
  ∃ items pages backend, output = .paginated "events.list" items pages
      (continuation (behind rows (args.offset + items.length)))
      ((behind rows (args.offset + items.length)).isSome && args.paging.all) backend ∧
    items <+: rows.drop args.offset ∧
    ∀ next, behind rows (args.offset + items.length) = some next → items ≠ [] ∧ next ≤ maxOffset

private theorem value_decimalText {bound n m : Nat} (h : parseUnsigned bound (decimalText n) = some m) : m = n := by
  have hwide := parseUnsigned_toDigits (Nat.lt_succ_self n)
  unfold decimalText at h
  simp only [parseUnsigned] at h hwide
  split at h
  · split at hwide
    · exact (Option.some.inj h).symm.trans (Option.some.inj hwide)
    · cases hwide
  · cases h

omit [LinearOrder Time] in
theorem nextOffset_served {query : EventQuery Time} {stop : Nat} {next : Option Nat}
    (h : nextOffset query (if stop < rows.length then some (decimalText stop) else none) = .ok next) :
    next = behind rows stop := by
  unfold behind
  by_cases hstop : stop < rows.length
  · rw [if_pos hstop] at h ⊢
    cases next with
    | none =>
      rw [nextOffset] at h
      split at h <;> cases h
    | some offset =>
      obtain ⟨text, htext, hparse, -, hmax⟩ := nextOffset_some h
      obtain rfl := Option.some.inj htext
      rw [value_decimalText hparse]
  · rw [if_neg hstop] at h ⊢
    exact (Except.ok.inj h).symm

theorem fetch_exact (hserves : ServesEvents client args.query rows) (start : σ) :
    Fallible.Post (fetch client args) start (fun r _ => ∀ output, r = .ok (some output) → Exact rows args output) := by
  apply @Fallible.Post.rounds _ _ _ _ _
    (fun listing _ => listing.Within args.paging ∧ listing.items <+: rows.drop args.offset ∧
      ∃ limit, listing.query = args.query.window limit (args.offset + listing.items.length))
    (fun listing => args.paging.maxPages - 1 - listing.pages) _ _ _ _ _ _
    ⟨within_start args.paging args.query, List.nil_prefix, args.limit, rfl⟩
  · rintro listing s ⟨hwithin, hitems, limit, hquery⟩
    have hpages := hwithin.pages_lt
    have hnext : nextQuery args listing =
        args.query.window (nextQuery args listing).limit (args.offset + listing.items.length) := by
      unfold nextQuery
      rw [hquery]
      rfl
    unfold round
    dsimp only
    apply Fallible.Post.bind (Fallible.Post.run _ _)
    · intro page s' hpage
      apply Fallible.Post.lift
      cases haccept : accept args listing (nextQuery args listing) page with
      | error e => simp
      | ok r =>
        obtain ⟨budget, next, hbudget, -, htoken, hnonempty, hturn⟩ := accept_ok haccept
        rw [hnext] at hpage
        obtain ⟨hbatch, hserved⟩ := hserves hpage
        have hrun := window_append hitems hbatch
        have hadvances : ∀ offset, next = some offset → offset ≤ maxOffset := by
          rintro offset rfl
          obtain ⟨-, -, -, -, hmax⟩ := nextOffset_some htoken
          exact hmax
        rw [hserved] at htoken
        have hbehind := nextOffset_served htoken
        rw [Nat.add_assoc, ← List.length_append] at hbehind
        rcases turn_cases hpages (nextQuery args listing) page budget next with
          hends | ⟨offset, hoffset, hroom, hlater, hgoes⟩
        · obtain rfl := hturn.symm.trans hends
          rintro output ⟨⟩
          rw [hbehind]
          refine ⟨_, _, _, rfl, hrun, ?_⟩
          intro stop hstop
          rw [hbehind.trans hstop] at hnonempty hadvances
          exact ⟨fun hnil => hnonempty rfl (List.append_eq_nil_iff.mp hnil).2, hadvances stop rfl⟩
        · obtain rfl := hturn.symm.trans hgoes
          obtain ⟨hbytes, hmax⟩ := bytes_of_include hbudget (bytes_le_page page) hwithin.bytes_le
          refine ⟨⟨⟨hroom, hlater, hbytes, hmax⟩, hrun, (nextQuery args listing).limit, ?_⟩, by dsimp only; omega⟩
          have hstop := hbehind.symm.trans hoffset
          unfold behind at hstop
          split at hstop
          · obtain rfl := Option.some.inj hstop
            rw [hnext]
            rfl
          · cases hstop
    · intro e s' he
      simp
  · have hpos := args.paging.maxPages_pos
    dsimp only
    omega

/-- The offset that an output names for the next listing. -/
def resume (output : Output) : Option Nat :=
  (((output.meta.index "next").get "offset").bind Json.asU64).map UInt64.toNat

theorem resume_paginated {items : List Json} {pages : Nat} {truncated : Bool} {backend : Json} {next : Option Nat}
    (hnext : ∀ offset, next = some offset → offset ≤ maxOffset) :
    resume (.paginated "events.list" items pages (continuation next) truncated backend) = next := by
  cases next with
  | none => simp [resume, Output.paginated, Json.index, continuation]
  | some offset =>
    have hlt : offset < 18446744073709551616 := Nat.lt_of_le_of_lt (hnext offset rfl) (by decide)
    simp [resume, Output.paginated, Json.index, continuation, Json.asU64, hlt]

/-- Listings that each go on at the offset the last one named collect every row once, in order. -/
theorem resumed_events_exact {query : EventQuery Time} (hserves : ServesEvents client query rows)
    (listings : List (EventArgs Time)) (hsame : ∀ args ∈ listings, args.query.window 0 0 = query.window 0 0)
    (offset : Nat) (start : σ) :
    Collects rows offset id (listings.foldl (sitting (fun args offset => fetch client (args.startingAt offset)) resume)
      (⟨[], some offset⟩, start)).1 := by
  apply sittings_keep
  · rintro front args back rfl ⟨collected, next⟩ s place - hcollects hnext output s' hfetch
    obtain rfl : next = some place := hnext
    have hwindow : ∀ limit offset, (args.startingAt place).query.window limit offset = query.window limit offset :=
      fun limit offset => congrArg (fun selection => selection.window limit offset) (hsame args (by simp))
    have hserved : ServesEvents client (args.startingAt place).query rows := by
      intro limit offset page s s' hpage
      rw [hwindow] at hpage
      exact hserves hpage
    obtain ⟨items, pages, backend, rfl, hitems, hbehind⟩ :=
      Fallible.Post.apply (fetch_exact hserved s) hfetch output rfl
    rw [resume_paginated fun offset hoffset => (hbehind offset hoffset).2]
    apply hcollects.append hitems
    · intro hnone
      unfold behind at hnone
      split at hnone
      · cases hnone
      · next hstop => exact Nat.le_of_not_lt hstop
    · intro offset hoffset
      unfold behind at hoffset
      split at hoffset
      · exact (Option.some.inj hoffset).symm
      · cases hoffset
  · exact ⟨List.nil_prefix, fun h => absurd h (Option.some_ne_none _), fun next h => (Option.some.inj h).symm⟩

end EventPages

/-- A backend whose sessions stay the same: a page is the window of the rows that the query names. -/
def ServesSessions (client : DataClient σ Time) (search : Option Str) (filters : Filters Time) (rows : List Json) : Prop :=
  ∀ {page size value s s'}, client.sessions search ⟨filters, page, size⟩ s = (.ok value, s') →
    (value.get "items").bind Json.asArray = some ((rows.drop ((page - 1) * size)).take size) ∧
    (value.get "has_more").bind Json.asBool = some (decide (page * size < rows.length))

/-- The row at which a window starts. -/
def PageWindow.row (window : PageWindow) : Nat := (window.page - 1) * window.pageSize

namespace SessionPages
variable {client : DataClient σ Time} {search : Option Str} {rows : List Json} {args : PageArgs Time}

/-- The page size of all requests of a listing. -/
def size (args : PageArgs Time) : Nat := min args.pageSize args.paging.maxItems

/-- An output is a run of the rows from its first page on, and names the page behind it. -/
structure Exact (rows : List Json) (args : PageArgs Time) (items : List Json) (pages : Nat) (more : Bool) : Prop where
  run : items <+: rows.drop ((args.page - 1) * size args)
  complete : more = false → rows.length ≤ (args.page - 1) * size args + items.length
  continues : more = true → (args.page + pages) * size args = (args.page - 1) * size args + items.length
  page_le : more = true → args.page + pages + 1 ≤ maxU32

omit [LinearOrder Time] in
theorem page_row (args : PageArgs Time) (pages : Nat) :
    (args.page + pages - 1) * size args = (args.page - 1) * size args + pages * size args := by
  have hpage := args.page_pos
  rw [← Nat.add_mul]
  congr 1
  omega

omit [LinearOrder Time] in
/-- The rows of a page behind those of the pages before it. -/
theorem exact_page (args : PageArgs Time) {items : List Json} {pages : Nat}
    (hitems : items <+: rows.drop ((args.page - 1) * size args)) (hlength : items.length = pages * size args)
    (hpage : (args.page + pages) * size args < rows.length → args.page + pages + 1 ≤ maxU32) :
    Exact rows args (items ++ (rows.drop ((args.page + pages - 1) * size args)).take (size args)) pages
      (decide ((args.page + pages) * size args < rows.length)) := by
  have hrow := page_row args pages
  have hnext : (args.page + pages) * size args = (args.page + pages - 1) * size args + size args := by
    have hpos := args.page_pos
    rw [← Nat.succ_mul]
    congr 1
    omega
  refine ⟨?_, ?_, ?_, fun hmore => hpage (of_decide_eq_true hmore)⟩
  · rw [hrow, ← hlength]
    exact window_append hitems (List.take_prefix ..)
  · intro hmore
    have hend := of_decide_eq_false hmore
    rw [List.length_append, List.length_take, List.length_drop]
    omega
  · intro hmore
    have hend := of_decide_eq_true hmore
    rw [List.length_append, List.length_take, List.length_drop]
    omega

theorem fetch_exact (hserves : ServesSessions client search args.filters rows) (start : σ) :
    Fallible.Post (fetch client args search) start (fun r _ => ∀ output, r = .ok (some output) →
      ∃ command items pages more backend, output = .paginated command items (pages + 1)
        (continuation ⟨args.filters, args.page + pages, size args⟩ more) (more && args.paging.all) backend ∧
        Exact rows args items pages more) := by
  have hsize : 1 ≤ size args := le_min args.pageSize_pos args.paging.maxItems_pos
  apply @Fallible.Post.rounds _ _ _ _ _
    (fun listing _ => listing.pages < args.paging.maxPages ∧
      listing.query = ⟨args.filters, args.page + listing.pages, size args⟩ ∧
      listing.items <+: rows.drop ((args.page - 1) * size args) ∧ listing.items.length = listing.pages * size args)
    (fun listing => args.paging.maxPages - 1 - listing.pages) _ _ _ _ _ _
    ⟨args.paging.maxPages_pos, rfl, List.nil_prefix, (Nat.zero_mul _).symm⟩
  · rintro ⟨query, items, pages, budget⟩ s ⟨hpages, hquery, hitems, hlength⟩
    dsimp only at hpages hquery hitems hlength
    subst hquery
    unfold round
    apply Fallible.Post.bind (Fallible.Post.run _ _)
    · intro value s' hvalue
      apply Fallible.Post.lift
      cases haccept : accept args (if search.isSome then "search" else "sessions.list")
        ⟨⟨args.filters, args.page + pages, size args⟩, items, pages, budget⟩ value with
      | error e => simp
      | ok r =>
        obtain ⟨batch, budget', more, haccepted, hturn⟩ := accept_ok haccept
        obtain ⟨hwindow, hmore⟩ := hserves hvalue
        obtain rfl := Option.some.inj (hwindow.symm.trans haccepted.items)
        obtain rfl := Option.some.inj (hmore.symm.trans haccepted.hasMore)
        obtain ⟨hpage, hturn⟩ := turn_cases hpages hsize hturn
        have hexact := exact_page args hitems hlength fun hmore => hpage (decide_eq_true hmore)
        rcases hturn with ⟨backend, rfl⟩ | ⟨hmore, -, hlater, rfl⟩
        · rintro output ⟨⟩
          exact ⟨_, _, pages, _, backend, rfl, hexact⟩
        · have hlength : _ = (pages + 1) * size args := Nat.add_left_cancel
            ((hexact.continues hmore).symm.trans (page_row args (pages + 1)))
          dsimp only at hlater
          exact ⟨⟨hlater, rfl, hexact.run, hlength⟩, by dsimp only; omega⟩
    · intro e s' he
      simp
  · have hpos := args.paging.maxPages_pos
    dsimp only
    omega

/-- The window that an output names for the next listing. -/
def resume (output : Output) : Option PageWindow := do
  let next := output.meta.index "next"
  let page ← (next.get "page").bind Json.asU64
  let pageSize ← (next.get "page_size").bind Json.asU64
  if h : 1 ≤ page.toNat ∧ page.toNat < 2 ^ 32 ∧ 1 ≤ pageSize.toNat ∧ pageSize.toNat ≤ 100 then
    some ⟨page.toNat, pageSize.toNat, h.1, h.2.1, h.2.2.1, h.2.2.2⟩
  else none

omit [LinearOrder Time] in
theorem resume_paginated {command : String} {items : List Json} {pages : Nat} {truncated : Bool} {backend : Json}
    {query : PageQuery Time} {more : Bool} (hpage : more = true → query.page + 1 ≤ maxU32)
    (hsize : 1 ≤ query.pageSize ∧ query.pageSize ≤ 100) :
    match resume (.paginated command items pages (continuation query more) truncated backend) with
    | some window => more = true ∧ window.page = query.page + 1 ∧ window.pageSize = query.pageSize
    | none => more = false := by
  cases more with
  | false => simp [resume, Output.paginated, Json.index, continuation]
  | true =>
    have hpage := hpage rfl
    unfold maxU32 at hpage
    have hpageNat : (UInt64.ofNat (query.page + 1)).toNat = query.page + 1 := by
      rw [UInt64.toNat_ofNat']
      omega
    have hsizeNat : (UInt64.ofNat query.pageSize).toNat = query.pageSize := by
      rw [UInt64.toNat_ofNat']
      omega
    have hbounds : 1 ≤ (UInt64.ofNat (query.page + 1)).toNat ∧ (UInt64.ofNat (query.page + 1)).toNat < 2 ^ 32 ∧
        1 ≤ (UInt64.ofNat query.pageSize).toNat ∧ (UInt64.ofNat query.pageSize).toNat ≤ 100 := by
      omega
    have hresume : resume (.paginated command items pages (continuation query true) truncated backend) =
        some ⟨(UInt64.ofNat (query.page + 1)).toNat, (UInt64.ofNat query.pageSize).toNat, hbounds.1, hbounds.2.1,
          hbounds.2.2.1, hbounds.2.2.2⟩ := by
      simpa [resume, Output.paginated, Json.index, continuation, Json.asU64] using hbounds
    rw [hresume]
    exact ⟨rfl, hpageNat, hsizeNat⟩

omit [LinearOrder Time] in
/-- A listing starts at the row of its window exactly when a page fits into its item budget. -/
theorem startingAt_row {args : PageArgs Time} {window : PageWindow} :
    (window.page - 1) * size (args.startingAt window) = window.row ↔
      window.page = 1 ∨ window.pageSize ≤ args.paging.maxItems := by
  have hpage := window.page_pos
  change (window.page - 1) * min window.pageSize args.paging.maxItems = (window.page - 1) * window.pageSize ↔ _
  rw [mul_eq_mul_left_iff]
  omega

/-- Listings that each go on at the window the last one named collect every row once, in order,
as long as a page of the window fits into the item budget of each. -/
theorem resumed_sessions_exact {filters : Filters Time} (hserves : ServesSessions client search filters rows)
    (listings : List (PageArgs Time)) (hsame : ∀ args ∈ listings, args.filters = filters) (window : PageWindow) (start : σ)
    (hroom : ∀ front args back, listings = front ++ args :: back → ∀ w,
      (front.foldl (sitting (fun args window => fetch client (args.startingAt window) search) resume)
        (⟨[], some window⟩, start)).1.next = some w → w.page = 1 ∨ w.pageSize ≤ args.paging.maxItems) :
    Collects rows window.row PageWindow.row
      (listings.foldl (sitting (fun args window => fetch client (args.startingAt window) search) resume)
        (⟨[], some window⟩, start)).1 := by
  apply sittings_keep
  · rintro front args back rfl ⟨collected, next⟩ s place hfront hcollects hnext output s' hfetch
    obtain rfl : next = some place := hnext
    have hfilters : (args.startingAt place).filters = filters := hsame args (by simp)
    have hserved : ServesSessions client search (args.startingAt place).filters rows := hfilters ▸ hserves
    obtain ⟨command, items, pages, more, backend, rfl, hexact⟩ :=
      Fallible.Post.apply (fetch_exact hserved s) hfetch output rfl
    have hrow : ((args.startingAt place).page - 1) * size (args.startingAt place) = place.row :=
      startingAt_row.mpr (hroom front args back rfl place (by rw [hfront]))
    obtain ⟨hrun, hcomplete, hcontinues, hpage⟩ := hexact
    rw [hrow] at hrun hcomplete hcontinues
    have hsize : 1 ≤ size (args.startingAt place) ∧ size (args.startingAt place) ≤ 100 :=
      ⟨le_min place.pageSize_pos args.paging.maxItems_pos, (Nat.min_le_left ..).trans place.pageSize_le⟩
    have hresume := @resume_paginated _ command items (pages + 1) (more && (args.startingAt place).paging.all) backend
      ⟨(args.startingAt place).filters, (args.startingAt place).page + pages, size (args.startingAt place)⟩ more hpage hsize
    split at hresume
    · next w hw =>
      rw [hw]
      obtain ⟨hmore, hnextPage, hnextSize⟩ := hresume
      apply hcollects.append hrun (by simp)
      rintro w' ⟨⟩
      rw [PageWindow.row, hnextPage, hnextSize]
      exact hcontinues hmore
    · next hw =>
      rw [hw]
      exact hcollects.append hrun (fun _ => hcomplete hresume) (by simp)
  · exact ⟨List.nil_prefix, fun h => absurd h (Option.some_ne_none _), fun next h => by cases h; rfl⟩

end SessionPages

end Resumed

section Samples

def allEvents : EventQuery Nat := ⟨allFilters, [], none, none, .list, false, 0, 0⟩

private theorem decimal_decimalText (n : Nat) : decimal (decimalText n) = n := Nat.ofDigitChars_ten_toDigits

theorem numberOf_events {limit offset : Nat} {pairs : Pairs}
    (h : (allEvents.window limit offset).pairs decimalText = .ok pairs) :
    numberOf pairs "limit" = limit ∧ numberOf pairs "offset" = offset := by
  simp only [EventQuery.pairs, do_eq_ok, refuseIf_eq_ok, exists_const] at h
  obtain ⟨-, filters, hfilters, hpairs⟩ := h
  obtain rfl : filters = [] := (Except.ok.inj hfilters).symm
  obtain rfl := Except.ok.inj hpairs
  exact ⟨decimal_decimalText limit, decimal_decimalText offset⟩

theorem numberOf_sessions {page size : Nat} {pairs : Pairs}
    (h : (PageQuery.mk allFilters page size).pairs decimalText = .ok pairs) :
    numberOf pairs "page" = page ∧ numberOf pairs "page_size" = size := by
  simp only [PageQuery.pairs, do_eq_ok, refuseIf_eq_ok, exists_const] at h
  obtain ⟨-, filters, hfilters, hpairs⟩ := h
  obtain rfl : filters = [] := (Except.ok.inj hfilters).symm
  obtain rfl := Except.ok.inj hpairs
  exact ⟨decimal_decimalText page, decimal_decimalText size⟩

theorem serves_events (rows : List Json) : ServesEvents (servingClient rows) allEvents rows := by
  intro limit offset page s s' h
  rcases (servingClient rows).events_cases (allEvents.window limit offset) s with ⟨e, he⟩ | ⟨pairs, hpairs, hget⟩
  · cases he.symm.trans h
  · obtain ⟨hlimit, hoffset⟩ := numberOf_events hpairs
    have hsent := fromData_ok (hget.symm.trans h)
    simp only [servingClient, hlimit, hoffset] at hsent
    cases hsent
    exact ⟨List.take_prefix .., rfl⟩

theorem serves_sessions (rows : List Json) : ServesSessions (servingClient rows) none allFilters rows := by
  intro page size value s s' h
  rcases (servingClient rows).sessions_cases none ⟨allFilters, page, size⟩ s with ⟨e, he⟩ | ⟨pairs, hpairs, hget⟩
  · cases he.symm.trans h
  · obtain ⟨hpage, hsize⟩ := numberOf_sessions hpairs
    have hsent := fromData_ok (hget.symm.trans h)
    simp only [servingClient, Option.toList_none, List.map_nil, List.append_nil, hpage, hsize] at hsent
    cases hsent
    simp [Json.asArray, Json.asBool]

/-- Three rows, in listings of two pages of a row. -/
theorem sample_events_exact : Collects sampleRows 0 id (([sampleEvents, sampleEvents].foldl
    (sitting (fun args offset => EventPages.fetch (servingClient sampleRows) (args.startingAt offset)) EventPages.resume)
    (⟨[], some 0⟩, 0)).1) :=
  EventPages.resumed_events_exact (serves_events sampleRows) [sampleEvents, sampleEvents] (by simp; rfl) 0 0

theorem sample_sessions_exact : Collects sampleRows 0 PageWindow.row (([sampleSessions, sampleSessions].foldl
    (sitting (fun args window => SessionPages.fetch (servingClient sampleRows) (args.startingAt window) none)
      SessionPages.resume) (⟨[], some ⟨1, 1, by decide, by decide, by decide, by decide⟩⟩, 0)).1) :=
  SessionPages.resumed_sessions_exact (serves_sessions sampleRows) [sampleSessions, sampleSessions] (by simp; rfl)
    ⟨1, 1, by decide, by decide, by decide, by decide⟩ 0 (by
      intro front args back hsplit w _
      have hargs : args ∈ [sampleSessions, sampleSessions] := by rw [hsplit]; simp
      obtain rfl : args = sampleSessions := by simpa using hargs
      exact .inr w.pageSize_le)

end Samples

end Abyss.QueryCli
