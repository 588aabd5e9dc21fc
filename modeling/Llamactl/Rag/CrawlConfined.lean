import Llamactl.Rag.HttpFetcher

open collections effect js List Option

namespace llamactl.rag

/-! Confinement of the crawl: where its requests go, which pages it asks for, and to whom it sends the bearer. -/

/-- A request goes to a web URL that the guard has accepted just before. -/
def Guarded (urls : UrlParser) (past : List (Event CrawlCall CrawlReply)) (request : Request) : Prop :=
  (∃ before check, past = before ++ check ∧ (assertPublicUrl urls false request.url).Runs check (.ok ())) ∧
    ∃ url, urls.parse request.url none = some url ∧ url.isHttp = true

def CrawlCall.page? : CrawlCall → Option (List Nat)
  | .fetch ⟨url, _, .page _, 0⟩ => some url
  | _ => none

def pagesOf (past : List (Event CrawlCall CrawlReply)) : List (List Nat) := past.filterMap (·.call.page?)

/-- No page is asked for twice, or too deep. -/
def FirstVisit (spec : HttpSourceSpec) (past : List (Event CrawlCall CrawlReply)) (request : Request) : Prop :=
  ∀ item, request.purpose = .page item → request.hop = 0 → item.depth ≤ spec.maxDepth ∧ request.url ∉ pagesOf past

def pageLinks (urls : UrlParser) (maxDepth : Nat) : Event CrawlCall CrawlReply → List Url
  | ⟨.fetch request, reply⟩ =>
    match request.purpose, (reply : Except (List Nat) Response) with
    | .page item, .ok res =>
      match urls.parse item.url none, res.body with
      | some base, .ok html =>
        if Crawl.isHtml res html ∧ item.depth < maxDepth then
          (extractLinks urls html base).filterMap fun raw =>
            (urls.parse (canonicalize urls raw) none).filter (·.isHttp)
        else []
      | _, _ => []
    | _, _ => []
  | _ => []

def LinksHome (urls : UrlParser) (maxDepth : Nat) (origin : List Nat) (past : List (Event CrawlCall CrawlReply)) : Prop :=
  ∀ event ∈ past, ∀ url ∈ pageLinks urls maxDepth event, url.origin = origin

def BearerHome (urls : UrlParser) (origin : List Nat) (request : Request) : Prop :=
  request.authorization ≠ none → ∃ url, urls.parse request.url none = some url ∧ url.origin = origin

namespace Crawl

variable (crawl : Crawl)

def StaysHome (past : List (Event CrawlCall CrawlReply)) : Prop :=
  crawl.spec.sameOrigin = true ∨ LinksHome crawl.urls crawl.spec.maxDepth crawl.origin past

def Good (past : List (Event CrawlCall CrawlReply)) (event : Event CrawlCall CrawlReply) : Prop :=
  ∀ request, event.call = .fetch request → Guarded crawl.urls past request ∧ FirstVisit crawl.spec past request ∧
    (request.authorization ≠ none → crawl.authHeader ≠ none) ∧
    (crawl.StaysHome past → BearerHome crawl.urls crawl.origin request)

end Crawl

section

variable {crawl : Crawl} {past : List (Event CrawlCall CrawlReply)}

theorem pagesOf_append (past more : List (Event CrawlCall CrawlReply)) :
    pagesOf (past ++ more) = pagesOf past ++ pagesOf more := by
  simp [pagesOf]

theorem LinksHome.of_append {urls : UrlParser} {maxDepth : Nat} {origin : List Nat}
    {more : List (Event CrawlCall CrawlReply)} (h : LinksHome urls maxDepth origin (past ++ more)) :
    LinksHome urls maxDepth origin past :=
  fun event hevent => h event (mem_append_left _ hevent)

theorem Crawl.StaysHome.of_append {more : List (Event CrawlCall CrawlReply)} (h : crawl.StaysHome (past ++ more)) :
    crawl.StaysHome past :=
  h.imp id LinksHome.of_append

theorem Crawl.Good.of_ne {event : Event CrawlCall CrawlReply} (h : ∀ request, event.call ≠ .fetch request) :
    crawl.Good past event :=
  fun request hrequest => absurd hrequest (h request)

theorem assertPublicUrl_only (urls : UrlParser) (allowPrivate : Bool) (rawUrl : List Nat) :
    (assertPublicUrl urls allowPrivate rawUrl).Only (fun call => ∃ host, call = .resolve host) fun _ => True := by
  unfold assertPublicUrl
  split
  · trivial
  split
  · trivial
  split
  · trivial
  simp only
  split
  · trivial
  split
  · split
    · trivial
    · trivial
  refine ⟨⟨_, rfl⟩, ?_⟩
  rintro (message | addresses)
  · trivial
  cases addresses with
  | nil => trivial
  | cons address addresses =>
    simp only
    split
    · trivial
    · trivial

theorem assertPublicUrl_holds (crawl : Crawl) (rawUrl : List Nat) (past : List (Event CrawlCall CrawlReply)) :
    (assertPublicUrl crawl.urls false rawUrl).Holds crawl.Good (fun after result => ∃ check, after = past ++ check ∧
      pagesOf after = pagesOf past ∧ (assertPublicUrl crawl.urls false rawUrl).Runs check result) past := by
  have honly := assertPublicUrl_only crawl.urls false rawUrl
  refine (honly.recorded ?_ past).mono ?_
  · rintro past event ⟨host, hcall⟩
    refine .of_ne fun request hrequest => ?_
    rw [hcall] at hrequest
    cases hrequest
  rintro after result ⟨check, rfl, hrun⟩
  refine ⟨check, rfl, ?_, hrun⟩
  have hnone : pagesOf check = [] := by
    refine filterMap_eq_nil_iff.mpr fun event hevent => ?_
    obtain ⟨host, hcall⟩ := honly.calls hrun event hevent
    rw [hcall]
    rfl
  rw [pagesOf_append, hnone, append_nil]

end

/-- What the history has more after a guarded fetch. -/
structure Followed (purpose : Purpose) (startUrl : List Nat) (past after : List (Event CrawlCall CrawlReply))
    (result : Except FetchError Response) : Prop where
  more : ∃ trace, after = past ++ trace
  pages : ∀ url ∈ pagesOf after, url ∈ pagesOf past ∨ (∃ item, purpose = .page item) ∧ url = startUrl
  answered : ∀ res, result = .ok res → ∃ request, request.purpose = purpose ∧ ⟨.fetch request, .ok res⟩ ∈ after

section

variable {crawl : Crawl} {purpose : Purpose} {startUrl originOrigin : List Nat}
  {past after : List (Event CrawlCall CrawlReply)}

theorem Followed.of_error {error : FetchError} {trace : List (Event CrawlCall CrawlReply)}
    (hpages : ∀ url ∈ pagesOf (past ++ trace), url ∈ pagesOf past ∨ (∃ item, purpose = .page item) ∧ url = startUrl) :
    Followed purpose startUrl past (past ++ trace) (.error error) :=
  ⟨⟨trace, rfl⟩, hpages, nofun⟩

theorem pagesOf_request {request : Request} {reply : Except (List Nat) Response} {url : List Nat}
    (h : url ∈ pagesOf (past ++ [⟨.fetch request, reply⟩])) :
    url ∈ pagesOf past ∨ (∃ item, request.purpose = .page item) ∧ request.hop = 0 ∧ url = request.url := by
  rw [pagesOf_append] at h
  rcases mem_append.mp h with hold | hnew
  · exact .inl hold
  obtain ⟨event, hevent, hpage⟩ := mem_filterMap.mp hnew
  cases mem_singleton.mp hevent
  obtain ⟨requested, authorization, purpose, hop⟩ := request
  cases purpose with
  | robots => cases hpage
  | page item =>
    cases hop with
    | zero => exact .inr ⟨⟨item, rfl⟩, rfl, (Option.some.inj hpage).symm⟩
    | succ hop => cases hpage

theorem followFrom_holds (hprivate : crawl.spec.allowPrivateTargets = false) (hops hop : Nat) (currentUrl : List Nat)
    (hhome : crawl.StaysHome past → originOrigin = crawl.origin) (hfirst : hop = 0 → currentUrl = startUrl ∧
      ∀ item, purpose = .page item → item.depth ≤ crawl.spec.maxDepth ∧ startUrl ∉ pagesOf past) :
    (crawl.followFrom purpose originOrigin startUrl hops hop currentUrl).Holds crawl.Good
      (Followed purpose startUrl past) past := by
  induction hops generalizing hop currentUrl past with
  | zero => exact ⟨⟨[], (append_nil past).symm⟩, fun url hurl => .inl hurl, nofun⟩
  | succ hops ih =>
    unfold Crawl.followFrom
    rw [hprivate]
    refine (assertPublicUrl_holds crawl currentUrl past).bind ?_
    rintro after result ⟨check, rfl, hpages, hrun⟩
    have hchecked : ∀ url ∈ pagesOf (past ++ check), url ∈ pagesOf past ∨ (∃ item, purpose = .page item) ∧ url = startUrl :=
      fun url hurl => .inl (hpages ▸ hurl)
    cases result with
    | error error => exact .of_error hchecked
    | ok accepted =>
      obtain ⟨url, hparse, hhttp, -⟩ := assertPublicUrl_accepts hrun
      simp only [hparse]
      intro reply
      refine ⟨?_, ?_⟩
      · -- the request itself
        rintro request ⟨rfl⟩
        refine ⟨⟨⟨past, check, rfl, hrun⟩, url, hparse, hhttp⟩, ?_, ?_, ?_⟩
        · intro item hpurpose hhop
          obtain ⟨hurl, hvisit⟩ := hfirst hhop
          obtain ⟨hdepth, hnew⟩ := hvisit item hpurpose
          refine ⟨hdepth, ?_⟩
          rw [hpages, hurl]
          exact hnew
        · intro hbearer hnone
          simp [hnone] at hbearer
        intro hstays hbearer
        refine ⟨url, hparse, ?_⟩
        rw [← hhome hstays.of_append]
        by_contra hother
        simp [hother] at hbearer
      -- and what follows its answer
      have hasked : ∀ asked ∈ pagesOf (past ++ check ++ [⟨.fetch
          ⟨currentUrl, if url.origin = originOrigin then crawl.authHeader else none, purpose, hop⟩, reply⟩]),
          asked ∈ pagesOf past ∨ (∃ item, purpose = .page item) ∧ asked = startUrl := by
        intro asked hmem
        rcases pagesOf_request hmem with hold | ⟨hitem, hhop, hurl⟩
        · exact hchecked asked hold
        · exact .inr ⟨hitem, hurl.trans (hfirst hhop).1⟩
      rw [append_assoc] at hasked ⊢
      have hanswer : ∀ res, reply = .ok res → Followed purpose startUrl past (past ++ (check ++ [⟨.fetch
          ⟨currentUrl, if url.origin = originOrigin then crawl.authHeader else none, purpose, hop⟩, reply⟩])) (.ok res) := by
        rintro res rfl
        refine ⟨⟨_, rfl⟩, hasked, ?_⟩
        rintro other ⟨rfl⟩
        refine ⟨_, ?_, mem_append_right _ (mem_append_right _ mem_cons_self)⟩
        rfl
      cases reply with
      | error message => exact .of_error hasked
      | ok res =>
        simp only
        split
        · exact hanswer res rfl
        split
        · exact hanswer res rfl
        · exact hanswer res rfl
        split
        · exact .of_error hasked
        next next hnext =>
          refine (ih (hop + 1) next.toText (fun hstays => hhome hstays.of_append) nofun).mono ?_
          rintro after result ⟨⟨trace, rfl⟩, hmore, hans⟩
          refine ⟨⟨_, append_assoc ..⟩, ?_, hans⟩
          intro asked hmem
          rcases hmore asked hmem with hold | hnew
          · exact hasked asked hold
          · exact .inr hnew

theorem guardedFetch_holds (hprivate : crawl.spec.allowPrivateTargets = false)
    (hhome : crawl.StaysHome past → ∀ start, crawl.urls.parse startUrl none = some start → start.origin = crawl.origin)
    (hfirst : ∀ item, purpose = .page item → item.depth ≤ crawl.spec.maxDepth ∧ startUrl ∉ pagesOf past) :
    (crawl.guardedFetch purpose startUrl).Holds crawl.Good (Followed purpose startUrl past) past := by
  unfold Crawl.guardedFetch
  split
  · exact ⟨⟨[], (append_nil past).symm⟩, fun url hurl => .inl hurl, nofun⟩
  next start hstart =>
    exact followFrom_holds hprivate _ 0 startUrl (fun hstays => hhome hstays start hstart) fun _ => ⟨rfl, hfirst⟩

end

structure Crawl.Inv (crawl : Crawl) (past : List (Event CrawlCall CrawlReply)) (state : CrawlState) : Prop where
  depth : ∀ item ∈ state.queue, item.depth ≤ crawl.spec.maxDepth
  queued : ∀ item ∈ state.queue, item.url ∈ state.visited
  distinct : (state.queue.map QueueItem.url).Nodup
  pages : ∀ url ∈ pagesOf past, url ∈ state.visited ∧ url ∉ state.queue.map QueueItem.url
  home : crawl.StaysHome past → ∀ item ∈ state.queue, ∀ url, crawl.urls.parse item.url none = some url →
    url.origin = crawl.origin

/-- The same in the turn of an item, which has left the queue and is not asked for yet. -/
structure Crawl.Taken (crawl : Crawl) (item : QueueItem) (past : List (Event CrawlCall CrawlReply))
    (state : CrawlState) : Prop where
  inv : crawl.Inv past state
  depth : item.depth ≤ crawl.spec.maxDepth
  queued : item.url ∈ state.visited
  left : item.url ∉ state.queue.map QueueItem.url
  unasked : item.url ∉ pagesOf past
  home : crawl.StaysHome past → ∀ url, crawl.urls.parse item.url none = some url → url.origin = crawl.origin

section

variable {crawl : Crawl} {item : QueueItem} {state : CrawlState} {past trace : List (Event CrawlCall CrawlReply)}

theorem Crawl.Inv.later (h : crawl.Inv past state)
    (hpages : ∀ url ∈ pagesOf (past ++ trace), url ∈ state.visited ∧ url ∉ state.queue.map QueueItem.url) :
    crawl.Inv (past ++ trace) state :=
  { h with pages := hpages, home := fun hstays => h.home hstays.of_append }

theorem Crawl.Taken.later (h : crawl.Taken item past state)
    (hpages : ∀ url ∈ pagesOf (past ++ trace), url ∈ pagesOf past) : crawl.Taken item (past ++ trace) state :=
  { h with
    inv := h.inv.later fun url hurl => h.inv.pages url (hpages url hurl)
    unasked := fun hurl => h.unasked (hpages _ hurl)
    home := fun hstays => h.home hstays.of_append }

theorem Crawl.Inv.take {queue : List QueueItem} (h : crawl.Inv past state) (hqueue : state.queue = item :: queue) :
    crawl.Taken item past { state with queue } := by
  have hmem : item ∈ state.queue := by
    rw [hqueue]
    exact mem_cons_self
  have hrest : ∀ other ∈ queue, other ∈ state.queue := by
    rw [hqueue]
    exact fun other => mem_cons_of_mem _
  have hdistinct := h.distinct
  rw [hqueue, map_cons, nodup_cons] at hdistinct
  refine ⟨⟨?_, ?_, hdistinct.2, ?_, ?_⟩, h.depth item hmem, h.queued item hmem, hdistinct.1, ?_, ?_⟩
  · exact fun other hother => h.depth other (hrest other hother)
  · exact fun other hother => h.queued other (hrest other hother)
  · intro url hurl
    obtain ⟨hvisited, hqueued⟩ := h.pages url hurl
    rw [hqueue, map_cons] at hqueued
    exact ⟨hvisited, fun hmem => hqueued (mem_cons_of_mem _ hmem)⟩
  · exact fun hstays other hother => h.home hstays other (hrest other hother)
  · exact fun hurl => (h.pages _ hurl).2 (mem_map_of_mem hmem)
  · exact fun hstays => h.home hstays item hmem

/-- A link joins the queue one level deeper, where it is new and its origin is allowed. -/
theorem Crawl.Inv.enqueueLink (h : crawl.Inv past state) {depth : Nat} (hdepth : depth < crawl.spec.maxDepth)
    {raw : List Nat} (hraw : LinksHome crawl.urls crawl.spec.maxDepth crawl.origin past → ∀ url,
      crawl.urls.parse (canonicalize crawl.urls raw) none = some url → url.isHttp = true → url.origin = crawl.origin) :
    crawl.Inv past (crawl.enqueueLink depth state raw) := by
  unfold Crawl.enqueueLink
  simp only
  split
  · exact h
  next hnew =>
    split
    · exact h
    next url hparse =>
      split
      · exact h
      next hhttp =>
        split
        · exact h
        next hallowed =>
          have hsame : crawl.StaysHome past → url.origin = crawl.origin := by
            rintro (hsame | hlinks)
            · by_contra hother
              exact hallowed ⟨hsame, hother⟩
            · exact hraw hlinks url hparse (by simpa using hhttp)
          refine ⟨?_, ?_, ?_, ?_, ?_⟩
          · intro item hitem
            rcases mem_append.mp hitem with hold | hlast
            · exact h.depth item hold
            · rw [mem_singleton.mp hlast]
              exact hdepth
          · intro item hitem
            rcases mem_append.mp hitem with hold | hlast
            · exact mem_append_left _ (h.queued item hold)
            · rw [mem_singleton.mp hlast]
              exact mem_append_right _ mem_cons_self
          · rw [map_append, map_singleton, nodup_append]
            refine ⟨h.distinct, nodup_singleton _, ?_⟩
            rintro a ha b hb rfl
            obtain ⟨item, hitem, rfl⟩ := List.mem_map.mp ha
            have heq : item.url = canonicalize crawl.urls raw := mem_singleton.mp hb
            exact hnew (heq ▸ h.queued item hitem)
          · intro asked hasked
            obtain ⟨hvisited, hqueued⟩ := h.pages asked hasked
            refine ⟨mem_append_left _ hvisited, ?_⟩
            rw [map_append, mem_append]
            rintro (hold | hlast)
            · exact hqueued hold
            · have heq : asked = canonicalize crawl.urls raw := mem_singleton.mp hlast
              exact hnew (heq ▸ hvisited)
          intro hstays item hitem other hother
          rcases mem_append.mp hitem with hold | hlast
          · exact h.home hstays item hold other hother
          rw [mem_singleton.mp hlast, hparse] at hother
          cases hother
          exact hsame hstays

theorem Crawl.Inv.enqueueLinks (h : crawl.Inv past state) {html : List Nat} {base : Url} {depth : Nat}
    (hdepth : depth < crawl.spec.maxDepth)
    (hlinks : LinksHome crawl.urls crawl.spec.maxDepth crawl.origin past → ∀ raw ∈ extractLinks crawl.urls html base,
      ∀ url, crawl.urls.parse (canonicalize crawl.urls raw) none = some url → url.isHttp = true →
        url.origin = crawl.origin) :
    crawl.Inv past (crawl.enqueueLinks html base depth state) := by
  unfold Crawl.enqueueLinks
  generalize extractLinks crawl.urls html base = links at hlinks
  induction links generalizing state with
  | nil => exact h
  | cons raw links ih =>
    rw [foldl_cons]
    refine ih (h.enqueueLink hdepth fun hhome => hlinks hhome raw mem_cons_self) ?_
    exact fun hhome other hother => hlinks hhome other (mem_cons_of_mem _ hother)

theorem mem_pageLinks {request : Request} {res : Response} {html : List Nat} {base url : Url} {raw : List Nat}
    {urls : UrlParser} {maxDepth : Nat} (hpurpose : request.purpose = .page item)
    (hbase : urls.parse item.url none = some base) (hbody : res.body = .ok html) (hhtml : Crawl.isHtml res html = true)
    (hdepth : item.depth < maxDepth) (hraw : raw ∈ extractLinks urls html base)
    (hparse : urls.parse (canonicalize urls raw) none = some url) (hhttp : url.isHttp = true) :
    url ∈ pageLinks urls maxDepth ⟨.fetch request, .ok res⟩ := by
  simp only [pageLinks, hpurpose, hbase, hbody, hhtml, hdepth, and_self, if_true]
  refine mem_filterMap.mpr ⟨raw, hraw, ?_⟩
  rw [hparse, filter_some, if_pos hhttp]

theorem pagesOf_other {event : Event CrawlCall CrawlReply} (h : event.call.page? = none) (url : List Nat)
    (hurl : url ∈ pagesOf (past ++ [event])) : url ∈ pagesOf past := by
  rw [pagesOf_append] at hurl
  simpa [pagesOf, h] using hurl

theorem robotsAllows_holds (hprivate : crawl.spec.allowPrivateTargets = false) {url : Url}
    (hparse : crawl.urls.parse item.url none = some url) (hhttp : url.isHttp = true)
    (h : crawl.Taken item past state) :
    (crawl.robotsAllows url state).Holds crawl.Good (fun after result => crawl.Taken item after result.2) past := by
  unfold Crawl.robotsAllows
  split
  · exact h
  refine Prog.Holds.bind ?_ fun after state h => h
  unfold Crawl.loadRobots
  split
  · exact h
  have hhome : crawl.StaysHome past → ∀ robots,
      crawl.urls.parse (url.origin ++ units "/robots.txt") none = some robots → robots.origin = crawl.origin :=
    fun hstays robots hrobots => (crawl.urls.path_origin hparse hhttp hrobots).trans (h.home hstays url hparse)
  have hrobot : ∀ page, Purpose.robots = .page page → page.depth ≤ crawl.spec.maxDepth ∧
      url.origin ++ units "/robots.txt" ∉ pagesOf past := by
    intro page hpage
    cases hpage
  refine (guardedFetch_holds hprivate hhome hrobot).bind ?_
  rintro after answer ⟨⟨trace, rfl⟩, hpages, -⟩
  have htaken : crawl.Taken item (past ++ trace) state := by
    refine h.later fun url hurl => ?_
    rcases hpages url hurl with hold | ⟨⟨page, hpage⟩, -⟩
    · exact hold
    · cases hpage
  exact { htaken with inv := { htaken.inv with } }

/-- Once its page is asked for, the item's turn leaves the queue as it found it. -/
theorem fetchPage_holds (hprivate : crawl.spec.allowPrivateTargets = false) (h : crawl.Taken item past state) :
    (crawl.fetchPage item).Holds crawl.Good (fun after result => crawl.Inv after state ∧
      ∀ res, result = some res → ∃ request, request.purpose = .page item ∧ ⟨.fetch request, .ok res⟩ ∈ after) past := by
  have hfirst : ∀ page, Purpose.page item = .page page → page.depth ≤ crawl.spec.maxDepth ∧
      item.url ∉ pagesOf past := by
    intro page hpage
    cases hpage
    exact ⟨h.depth, h.unasked⟩
  unfold Crawl.fetchPage
  refine (guardedFetch_holds hprivate h.home hfirst).bind ?_
  rintro after result ⟨⟨trace, rfl⟩, hpages, hanswered⟩
  have hinv : crawl.Inv (past ++ trace) state := by
    refine h.inv.later fun asked hasked => ?_
    rcases hpages asked hasked with hold | ⟨-, rfl⟩
    · exact h.inv.pages asked hold
    · exact ⟨h.queued, h.left⟩
  cases result with
  | error error => exact ⟨hinv, nofun⟩
  | ok res =>
    refine ⟨hinv, ?_⟩
    intro other hother
    split at hother
    · cases hother
      exact hanswered res rfl
    · cases hother

theorem crawlOne_holds (hprivate : crawl.spec.allowPrivateTargets = false) (h : crawl.Taken item past state) :
    (crawl.crawlOne item state).Holds crawl.Good (fun after result => crawl.Inv after result.2) past := by
  unfold Crawl.crawlOne
  split
  · exact h.inv
  next url hparse =>
    rw [hprivate]
    refine (assertPublicUrl_holds crawl item.url past).bind ?_
    rintro after result ⟨check, rfl, hpages, hrun⟩
    have hchecked : crawl.Taken item (past ++ check) state := h.later fun url hurl => hpages ▸ hurl
    cases result with
    | error error => exact hchecked.inv
    | ok accepted =>
      obtain ⟨found, hfound, hhttp, -⟩ := assertPublicUrl_accepts hrun
      rw [hparse] at hfound
      cases hfound
      refine (robotsAllows_holds hprivate hparse hhttp hchecked).bind ?_
      rintro past ⟨allowed, state⟩ htaken
      simp only
      split
      · exact htaken.inv
      intro aborted
      refine ⟨.of_ne nofun, ?_⟩
      have hwaited : crawl.Taken item (past ++ [⟨.wait url.hostname, aborted⟩]) state :=
        htaken.later (pagesOf_other rfl)
      simp only
      split
      · exact hwaited.inv
      refine (fetchPage_holds hprivate hwaited).bind ?_
      rintro after page ⟨hinv, hanswered⟩
      cases page with
      | none => exact hinv
      | some res =>
        obtain ⟨request, hpurpose, hevent⟩ := hanswered res rfl
        simp only
        cases hbody : res.body with
        | error message => exact hinv
        | ok html =>
          simp only [Prog.holds_ret]
          split
          next hexpand =>
            refine hinv.enqueueLinks hexpand.2 ?_
            intro hlinks raw hraw link hlink hhttp
            exact hlinks _ hevent link (mem_pageLinks hpurpose hparse hbody hexpand.1 hexpand.2 hraw hlink hhttp)
          · exact hinv

theorem crawlTurns_holds (hprivate : crawl.spec.allowPrivateTargets = false) (turns : Nat) (docs : List RawDoc)
    (h : crawl.Inv past state) : (crawl.crawlTurns turns state docs).Holds crawl.Good (fun _ _ => True) past := by
  induction turns generalizing state docs past with
  | zero => trivial
  | succ turns ih =>
    unfold Crawl.crawlTurns
    split
    · trivial
    next item queue hqueue =>
      intro aborted
      refine ⟨.of_ne nofun, ?_⟩
      have hasked : crawl.Inv (past ++ [⟨.aborted, aborted⟩]) state :=
        h.later fun url hurl => h.pages url (pagesOf_other rfl url hurl)
      simp only
      split
      · trivial
      refine (crawlOne_holds hprivate (hasked.take hqueue)).bind ?_
      rintro after ⟨turn, state⟩ hinv
      cases turn with
      | stops => trivial
      | skipped => exact ih docs hinv
      | yields doc => exact ih (docs ++ [doc]) hinv

end

section

variable {urls : UrlParser} {resolveSecret : List Nat → Except (List Nat) (List Nat)} {spec : HttpSourceSpec}
  {turns : Nat} {trace : List (Event CrawlCall CrawlReply)} {docs : List RawDoc}

theorem start_inv {crawl : Crawl} {state : CrawlState} (hstart : Crawl.start urls resolveSecret spec = some (crawl, state)) :
    crawl.Inv [] state := by
  unfold Crawl.start at hstart
  split at hstart
  · cases hstart
  next authHeader hauth =>
    obtain ⟨url, hurl, heq⟩ := map_eq_some_iff.mp hstart
    cases heq
    refine ⟨?_, ?_, nodup_singleton _, nofun, ?_⟩
    · intro item hitem
      rw [mem_singleton.mp hitem]
      exact Nat.zero_le _
    · intro item hitem
      rw [mem_singleton.mp hitem]
      exact mem_cons_self
    intro _ item hitem again hagain
    rw [mem_singleton.mp hitem] at hagain
    simp only [canonicalize, hurl] at hagain
    exact urls.bare_origin hurl hagain

structure Confined (urls : UrlParser) (spec : HttpSourceSpec) (past : List (Event CrawlCall CrawlReply))
    (request : Request) : Prop where
  guarded : Guarded urls past request
  visit : FirstVisit spec past request

/-- Each request of a crawl goes to a URL that the guard accepted just before; no page is asked for twice or too deep.
The bearer goes to the origin of the spec only, where the crawl keeps to that origin, has no bearer, or every page it
receives does not link to another one. -/
theorem crawl_confined (hprivate : spec.allowPrivateTargets = false)
    (hrun : (runCrawl urls resolveSecret spec turns).Runs trace docs) :
    (∀ before request reply after, trace = before ++ ⟨.fetch request, reply⟩ :: after →
      Confined urls spec before request) ∧
    ∀ start, urls.parse spec.url none = some start →
      spec.tokenRef = none ∨ spec.sameOrigin = true ∨ LinksHome urls spec.maxDepth start.origin trace →
      ∀ request reply, ⟨.fetch request, reply⟩ ∈ trace → BearerHome urls start.origin request := by
  unfold runCrawl at hrun
  cases hstart : Crawl.start urls resolveSecret spec with
  | none =>
    rw [hstart] at hrun
    obtain ⟨rfl, -⟩ := hrun
    exact ⟨fun before request reply after h => by simp at h, fun _ _ _ request reply h => by simp at h⟩
  | some found =>
    obtain ⟨crawl, state⟩ := found
    rw [hstart] at hrun
    obtain ⟨first, value, rest, rfl, hfirst, hrest⟩ := Prog.runs_bind_iff.mp hrun
    obtain ⟨rfl, -⟩ := hrest
    rw [append_nil] at *
    have hinv := start_inv hstart
    unfold Crawl.start at hstart
    split at hstart
    · cases hstart
    next authHeader hauth =>
      obtain ⟨url, hurl, heq⟩ := map_eq_some_iff.mp hstart
      cases heq
      have hgood := justified_iff_split.mp ((crawlTurns_holds hprivate turns [] hinv).sound hfirst).1
      refine ⟨?_, ?_⟩
      · intro before request reply after htrace
        obtain ⟨hguarded, hvisit, -⟩ := hgood before _ after htrace request rfl
        exact ⟨hguarded, hvisit⟩
      intro start hparse hsafe request reply hmem
      rw [hurl] at hparse
      cases hparse
      obtain ⟨before, after, rfl⟩ := append_of_mem hmem
      obtain ⟨-, -, htoken, hhome⟩ := hgood before _ after rfl request rfl
      intro hbearer
      rcases hsafe with hnone | hsame | hlinks
      · -- no token, no header
        have hheader : authHeader = none := by
          rw [resolveAuthHeader, hnone] at hauth
          cases hauth
          rfl
        exact absurd hheader (htoken hbearer)
      · exact hhome (.inl hsame) hbearer
      · exact hhome (.inr hlinks.of_append) hbearer

end

namespace sample

def site (host path : String) : Url where
  protocol := units "https:"
  origin := units "https://" ++ units host
  hostname := units host
  pathname := units path
  search := []
  bare := units "https://" ++ units host ++ units path
  fragment := none

def sites : List Url :=
  [site "docs.example" "/", site "docs.example" "/robots.txt", site "other.example" "/",
    site "other.example" "/robots.txt"]

def urls : UrlParser where
  parse text _ := sites.find? (·.bare = text)
  bare_origin := by
    intro text base url again hurl hagain
    have hbare : url.bare = text := by simpa using find?_some hurl
    rw [hbare, hurl] at hagain
    cases hagain
    rfl
  path_origin := by
    intro text base url robots hurl _ hrobots
    have hlaw : ∀ url ∈ sites, ∀ robots ∈ sites.find? (·.bare = url.origin ++ units "/robots.txt"),
        robots.origin = url.origin := by decide +kernel
    exact hlaw url (mem_of_find?_eq_some hurl) robots hrobots

def httpSource (sameOrigin : Bool) : HttpSourceSpec where
  url := units "https://docs.example/"
  sameOrigin
  tokenRef := some (units "env:TOKEN")

/-- Every host resolves, and every page links to the other site. -/
def web : List (Event CrawlCall CrawlReply) → (call : CrawlCall) → CrawlReply call
  | _, .resolve _ => .ok [units "93.184.216.34"]
  | _, .fetch _ =>
    .ok ⟨200, none, some (units "text/html"), .ok (units "<a href=\"https://other.example/\">")⟩
  | _, .wait _ => false
  | _, .aborted => false

def crawl (sameOrigin : Bool) : Prog CrawlCall CrawlReply (List RawDoc) :=
  runCrawl urls (fun _ => .ok (units "secret")) (httpSource sameOrigin) 3

def requests (trace : List (Event CrawlCall CrawlReply)) : List Request :=
  trace.filterMap fun event =>
    match event.call with
    | .fetch request => some request
    | _ => none

end sample

/-- With `same_origin` the crawl asks for the page it was given and its robots file. -/
theorem crawl_confined_same_origin : ∃ trace docs, (sample.crawl true).Runs trace docs ∧
    sample.requests trace =
      [⟨units "https://docs.example/robots.txt", some (units "Bearer secret"), .robots, 0⟩,
        ⟨units "https://docs.example/", some (units "Bearer secret"), .page ⟨units "https://docs.example/", 0⟩, 0⟩] ∧
    (∀ before request reply after, trace = before ++ ⟨.fetch request, reply⟩ :: after →
      Confined sample.urls (sample.httpSource true) before request) ∧
    ∀ request reply, ⟨.fetch request, reply⟩ ∈ trace →
      BearerHome sample.urls (units "https://docs.example") request := by
  have hrun := (sample.crawl true).answeredBy_nil_runs sample.web
  refine ⟨_, _, hrun, by decide +kernel, ?_⟩
  obtain ⟨hconfined, hbearer⟩ := crawl_confined rfl hrun
  refine ⟨hconfined, ?_⟩
  have hstart : sample.urls.parse (sample.httpSource true).url none = some (sample.site "docs.example" "/") := by
    decide +kernel
  exact hbearer (sample.site "docs.example" "/") hstart (.inr (.inl rfl))

/-- Without it the bearer goes to the site that the page links to. -/
theorem crawl_sends_bearer_away : ∃ trace docs request reply, (sample.crawl false).Runs trace docs ∧
    ⟨.fetch request, reply⟩ ∈ trace ∧ request.url = units "https://other.example/robots.txt" ∧
    request.authorization = some (units "Bearer secret") ∧
    ¬ BearerHome sample.urls (units "https://docs.example") request := by
  have hmem : (⟨units "https://other.example/robots.txt", some (units "Bearer secret"), .robots, 0⟩ : Request) ∈
      sample.requests ((sample.crawl false).answeredBy sample.web []).1 := by decide +kernel
  obtain ⟨⟨call, reply⟩, hevent, hrequest⟩ := mem_filterMap.mp hmem
  cases call with
  | fetch request =>
    cases hrequest
    refine ⟨_, _, _, reply, (sample.crawl false).answeredBy_nil_runs sample.web, hevent, rfl, rfl, ?_⟩
    intro hhome
    obtain ⟨url, hurl, horigin⟩ := hhome nofun
    have hother : (sample.urls.parse (units "https://other.example/robots.txt") none).map Url.origin =
        some (units "https://other.example") := by decide +kernel
    rw [hurl, map_some, horigin] at hother
    exact absurd (Option.some.inj hother) (by decide +kernel)
  | _ => cases hrequest

end llamactl.rag
