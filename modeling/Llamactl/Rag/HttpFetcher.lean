import Llamactl.Effect.History
import Llamactl.Rag.Runtime

open effect js collections

namespace llamactl.rag

/-! The SSRF guard of the HTTP fetcher. Texts are lists of code units. -/

/-- A parsed URL, by the parts the fetcher reads. -/
structure Url where
  /-- with its colon -/
  protocol : List Nat
  origin : List Nat
  hostname : List Nat
  pathname : List Nat
  search : List Nat
  /-- the URL as text, up to its fragment -/
  bare : List Nat
  fragment : Option (List Nat)
  deriving DecidableEq

def Url.toText (url : Url) : List Nat := url.bare ++ url.fragment.elim [] (0x23 :: ·)

def Url.isHttp (url : Url) : Bool := url.protocol = units "http:" || url.protocol = units "https:"

/-- `new URL(text, base)`, with what its standard says of texts it has written itself. -/
structure UrlParser where
  parse : List Nat → Option Url → Option Url
  bare_origin : ∀ {text base url again}, parse text base = some url → parse url.bare none = some again →
    again.origin = url.origin
  path_origin : ∀ {text base url robots}, parse text base = some url → url.isHttp = true →
    parse (url.origin ++ units "/robots.txt") none = some robots → robots.origin = url.origin

structure QueueItem where
  url : List Nat
  depth : Nat
  deriving DecidableEq

/-- What a request is for; the source has no such field. -/
inductive Purpose where
  | page (item : QueueItem)
  | robots
  deriving DecidableEq

structure Request where
  url : List Nat
  authorization : Option (List Nat)
  purpose : Purpose
  /-- the redirects that were followed to it -/
  hop : Nat
  deriving DecidableEq

structure Response where
  status : Nat
  location : Option (List Nat)
  contentType : Option (List Nat)
  /-- what `text()` gives -/
  body : Except (List Nat) (List Nat)

inductive CrawlCall where
  | resolve (host : List Nat)
  | fetch (request : Request)
  /-- the rate limiter of a host -/
  | wait (host : List Nat)
  | aborted

def CrawlReply : CrawlCall → Type
  | .resolve _ => Except (List Nat) (List (List Nat))
  | .fetch _ => Except (List Nat) Response
  | .wait _ => Bool
  | .aborted => Bool

section

def isDigitUnit (u : Nat) : Bool := 0x30 ≤ u && u ≤ 0x39

def isHexUnit (u : Nat) : Bool := isDigitUnit u || (0x41 ≤ u && u ≤ 0x46) || (0x61 ≤ u && u ≤ 0x66)

def digitValue (u : Nat) : Nat := if isDigitUnit u then u - 0x30 else if u ≤ 0x46 then u - 0x37 else u - 0x57

def numberValue (radix : Nat) (digits : List Nat) : Nat := digits.foldl (fun n u => n * radix + digitValue u) 0

/-- One part of a dotted quad, of one to three digits. -/
def octet (part : List Nat) : Option Nat :=
  if part ≠ [] ∧ part.length ≤ 3 ∧ part.all isDigitUnit ∧ numberValue 10 part ≤ 255 then some (numberValue 10 part) else none

def parseIpv4 (ip : List Nat) : Option (Nat × Nat × Nat × Nat) :=
  match (ip.splitOn 0x2E).mapM octet with
  | some [a, b, c, d] => some (a, b, c, d)
  | _ => none

def isBlockedIpv4 (ip : List Nat) : Bool :=
  match parseIpv4 ip with
  | none => false
  | some (a, b, _, _) =>
    a = 0 || a = 10 || a = 127 || (a = 169 && b = 254) || (a = 172 && 16 ≤ b && b ≤ 31) || (a = 192 && b = 168)

def hexGroup (part : List Nat) : Option Nat :=
  if part ≠ [] ∧ part.length ≤ 4 ∧ part.all isHexUnit then some (numberValue 16 part) else none

def parseHexGroups (part : List Nat) : Option (List Nat) :=
  if part = [] then some [] else (part.splitOn 0x3A).mapM hexGroup

def afterLastColon (s : List Nat) : Option (List Nat) :=
  if 0x3A ∈ s then some ((s.reverse.takeWhile (· ≠ 0x3A)).reverse) else none

def splitV4Tail (s : List Nat) : Option (List Nat × List Nat) :=
  match afterLastColon s with
  | none => some (s, [])
  | some last =>
    if 0x2E ∉ last then some (s, [])
    else
      match parseIpv4 last with
      | none => none
      | some (a, b, c, d) =>
        let head := s.take (s.length - last.length)
        let closed := if [0x3A, 0x3A] <:+ head then head else head.dropLast
        some (closed, [a * 256 + b, c * 256 + d])

/-- The texts on the two sides of the first `::`. -/
def splitDoubleColon : List Nat → Option (List Nat × List Nat)
  | 0x3A :: 0x3A :: rest => some ([], rest)
  | u :: rest => (splitDoubleColon rest).map fun (left, right) => (u :: left, right)
  | [] => none

def ipv6Groups (ip : List Nat) : Option (List Nat) :=
  match splitV4Tail (ip.takeWhile (· ≠ 0x25)) with
  | none => none
  | some (head, tail) =>
    let groups := match splitDoubleColon head with
      | some (left, right) =>
        match parseHexGroups left, parseHexGroups right with
        | some left, some right =>
          if 8 < left.length + right.length + tail.length then none
          else some (left ++ List.replicate (8 - (left.length + right.length + tail.length)) 0 ++ right ++ tail)
        | _, _ => none
      | none => (parseHexGroups head).map (· ++ tail)
    groups.filter fun groups => groups.length = 8

def isBlockedIpv6 (ip : List Nat) : Bool :=
  match ipv6Groups ip with
  | some [g0, g1, g2, g3, g4, g5, g6, g7] =>
    if [g0, g1, g2, g3, g4, g5, g6].all (· = 0) then g7 = 1 || g7 = 0
    else if g0 &&& 0xffc0 = 0xfe80 then true
    else if g0 &&& 0xfe00 = 0xfc00 then true
    else if [g0, g1, g2, g3, g4].all (· = 0) && g5 = 0xffff then
      let a := (g6 >>> 8) &&& 0xff
      let b := g6 &&& 0xff
      let c := (g7 >>> 8) &&& 0xff
      let d := g7 &&& 0xff
      isBlockedIpv4 (units s!"{a}.{b}.{c}.{d}")
    else false
  | _ => false

/-- `isIPv4` of `node:net`: no part begins with a zero that it could do without. -/
def isIPv4 (ip : List Nat) : Bool :=
  (parseIpv4 ip).isSome && (ip.splitOn 0x2E).all fun part => part.length = 1 || part.head? ≠ some 0x30

/-- The 16-bit words of a text between colons; the last part may be an IPv4 address. -/
def countWords (text : List Nat) (quad : Bool) : Option Nat :=
  if text = [] then some 0
  else
    let parts := text.splitOn 0x3A
    let last := parts.getLast?.getD []
    if parts.dropLast.all fun part => (hexGroup part).isSome then
      if (hexGroup last).isSome then some parts.length
      else if quad && isIPv4 last then some (parts.length + 1)
      else none
    else none

def isZoneUnit (u : Nat) : Bool :=
  isDigitUnit u || (0x41 ≤ u && u ≤ 0x5A) || (0x61 ≤ u && u ≤ 0x7A) || u = 0x2D || u = 0x2E || u = 0x3A

/-- `isIPv6` of `node:net` -/
def isIPv6 (ip : List Nat) : Bool :=
  let bare := ip.takeWhile (· ≠ 0x25)
  let zone := ip.drop bare.length
  let words := match splitDoubleColon bare with
    | some (left, right) =>
      match countWords left false, countWords right true with
      | some m, some n => decide (m + n ≤ 7)
      | _, _ => false
    | none => decide (countWords bare true = some 8)
  words && (zone = [] || (2 ≤ zone.length && zone.tail.all isZoneUnit))

/-- `isIP`: the version of an address, zero for other texts -/
def isIP (ip : List Nat) : Nat := if isIPv4 ip then 4 else if isIPv6 ip then 6 else 0

def isBlockedIp (ip : List Nat) : Bool :=
  match isIP ip with
  | 4 => isBlockedIpv4 ip
  | 6 => isBlockedIpv6 ip
  | _ => false

end

/-- `toLowerCase` of the letters that the host names and field names compared with have. -/
def lowerUnits (text : List Nat) : List Nat := text.map fun u => if 0x41 ≤ u ∧ u ≤ 0x5A then u + 0x20 else u

def isLiteralLoopbackHost (host : List Nat) : Bool :=
  let h := lowerUnits host
  h = units "localhost" || h = units "localhost." || (units ".localhost").isSuffixOf h

/-- The message of an `SsrfBlockedError`. -/
structure SsrfBlocked where
  message : List Nat

def assertHostnameResolvesPublic (host : List Nat) : Prog CrawlCall CrawlReply (Except SsrfBlocked Unit) :=
  .call (.resolve host) fun reply : Except (List Nat) (List (List Nat)) =>
    match reply with
    | .error message => .ret (.error ⟨units "SSRF guard: host resolution failed for " ++ host ++ units ": " ++ message⟩)
    | .ok [] => .ret (.error ⟨units "SSRF guard: host " ++ host ++ units " resolved to no addresses"⟩)
    | .ok addresses =>
      match addresses.find? isBlockedIp with
      | some address => .ret (.error
          ⟨units "SSRF guard: host " ++ host ++ units " resolved to non-public address " ++ address⟩)
      | none => .ret (.ok ())

/-- The host of a URL without the brackets of an IPv6 literal. -/
def bareHost (url : Url) : List Nat :=
  if url.hostname.head? = some 0x5B ∧ url.hostname.getLast? = some 0x5D then url.hostname.tail.dropLast else url.hostname

def assertPublicUrl (urls : UrlParser) (allowPrivate : Bool) (rawUrl : List Nat) :
    Prog CrawlCall CrawlReply (Except SsrfBlocked Unit) :=
  if allowPrivate then .ret (.ok ())
  else
    match urls.parse rawUrl none with
    | none => .ret (.error ⟨units "SSRF guard: unparseable URL: " ++ rawUrl⟩)
    | some url =>
      if url.isHttp = false then
        .ret (.error ⟨units "SSRF guard: non-http(s) scheme rejected: " ++ url.protocol⟩)
      else
        let host := bareHost url
        if isLiteralLoopbackHost host then .ret (.error ⟨units "SSRF guard: loopback host rejected: " ++ host⟩)
        else if isIP host ≠ 0 then
          if isBlockedIp host then .ret (.error ⟨units "SSRF guard: non-public address rejected: " ++ host⟩)
          else .ret (.ok ())
        else assertHostnameResolvesPublic host

/-- A host that the guard accepts, with the resolver's answers it has seen for it. -/
inductive PublicHost (host : List Nat) : List (Event CrawlCall CrawlReply) → Prop where
  | literal (haddress : isIP host ≠ 0) (hpublic : isBlockedIp host = false) : PublicHost host []
  | resolved (addresses : List (List Nat)) (hname : isIP host = 0) (hsome : addresses ≠ [])
      (hpublic : ∀ address ∈ addresses, isBlockedIp address = false) : PublicHost host [⟨.resolve host, .ok addresses⟩]

theorem assertPublicUrl_accepts {urls : UrlParser} {rawUrl : List Nat} {check : List (Event CrawlCall CrawlReply)}
    (hrun : (assertPublicUrl urls false rawUrl).Runs check (.ok ())) :
    ∃ url, urls.parse rawUrl none = some url ∧ url.isHttp = true ∧ isLiteralLoopbackHost (bareHost url) = false ∧
      PublicHost (bareHost url) check := by
  unfold assertPublicUrl at hrun
  rw [if_neg (by simp)] at hrun
  cases hparse : urls.parse rawUrl none with
  | none =>
    rw [hparse] at hrun
    simp at hrun
  | some url =>
    simp only [hparse] at hrun
    refine ⟨url, rfl, ?_⟩
    split at hrun
    · simp at hrun
    next hhttp =>
      split at hrun
      · simp at hrun
      next hloopback =>
        refine ⟨by simpa using hhttp, by simpa using hloopback, ?_⟩
        split at hrun
        next haddress =>
          split at hrun
          · simp at hrun
          next hpublic =>
            obtain ⟨rfl, -⟩ := hrun
            exact .literal haddress (by simpa using hpublic)
        next hname =>
          obtain ⟨reply, rest, rfl, hrest⟩ := hrun
          cases reply with
          | error message => simp at hrest
          | ok addresses =>
            cases addresses with
            | nil => simp at hrest
            | cons address addresses =>
              simp only at hrest
              split at hrest
              · simp at hrest
              next hfind =>
                obtain ⟨rfl, -⟩ := hrest
                refine .resolved (address :: addresses) (by simpa using hname) (by simp) ?_
                intro other hother
                simpa using List.find?_eq_none.mp hfind other hother

example : [units "::ffff:169.254.169.254", units "fe80::1%eth0", units "172.31.0.1"].all isBlockedIp = true := by
  decide +kernel

/-! The HTTP source fetcher: a breadth-first crawl. Log lines, the metadata of a document and the delays of the rate
limiter are left out. -/

/-- Cap on redirect hops. -/
def MAX_REDIRECTS : Nat := 5

structure HttpSourceSpec where
  url : List Nat
  maxDepth : Nat := 1
  sameOrigin : Bool := true
  ignoreRobots : Bool := false
  /-- `auth.tokenRef` -/
  tokenRef : Option (List Nat) := none
  allowPrivateTargets : Bool := false

/-- The part of a crawl's state that stays. -/
structure Crawl where
  urls : UrlParser
  spec : HttpSourceSpec
  origin : List Nat
  authHeader : Option (List Nat)

/-- The rest of it, with the two tables of the robots cache. -/
structure CrawlState where
  visited : List (List Nat)
  queue : List QueueItem
  disallows : OrderedMap (List Nat) (List (List Nat)) := OrderedMap.empty
  fetched : List (List Nat) := []

/-- The `Authorization` header, or none without a token; an error where the reference did not resolve. -/
def resolveAuthHeader (spec : HttpSourceSpec) (resolveSecret : List Nat → Except (List Nat) (List Nat)) :
    Except (List Nat) (Option (List Nat)) :=
  match spec.tokenRef with
  | none => .ok none
  | some tokenRef => (resolveSecret tokenRef).map fun token => some (units "Bearer " ++ token)

section

/-- The text begins with the pattern, letters compared without their case. -/
def startsFold (pattern text : List Nat) : Bool := lowerUnits (text.take pattern.length) = lowerUnits pattern

/-- The text through the first match of the pattern, and the text after it. -/
def throughFirst (pattern : List Nat) : List Nat → Option (List Nat × List Nat)
  | [] => none
  | u :: rest =>
    if startsFold pattern (u :: rest) then some ((u :: rest).splitAt pattern.length)
    else (throughFirst pattern rest).map fun (before, after) => (u :: before, after)

/-- A match of `opening[\s\S]*?closing` at the beginning of the text. -/
def spanAt (opening closing text : List Nat) : Option (List Nat × List Nat) :=
  if startsFold opening text then
    (throughFirst closing (text.drop opening.length)).map fun (inner, after) =>
      (text.take opening.length ++ inner, after)
  else none

def firstSpan (opening closing : List Nat) : List Nat → Option (List Nat)
  | [] => none
  | u :: rest =>
    match spanAt opening closing (u :: rest) with
    | some (span, _) => some span
    | none => firstSpan opening closing rest

/-- A global replacement, where `matchAt` gives the text after a match; every turn takes a unit or more. -/
def replaceAllFrom (matchAt : List Nat → Option (List Nat)) (replacement : List Nat) : Nat → List Nat → List Nat
  | _, [] => []
  | 0, text => text
  | turns + 1, u :: rest =>
    match matchAt (u :: rest) with
    | some after => replacement ++ replaceAllFrom matchAt replacement turns after
    | none => u :: replaceAllFrom matchAt replacement turns rest

def replaceAll (matchAt : List Nat → Option (List Nat)) (replacement text : List Nat) : List Nat :=
  replaceAllFrom matchAt replacement text.length text

def removeSpans (opening closing : String) (text : List Nat) : List Nat :=
  replaceAll (fun text => (spanAt (units opening) (units closing) text).map Prod.snd) [] text

/-- `<[^>]+>` -/
def tagAt : List Nat → Option (List Nat)
  | 0x3C :: rest =>
    let inner := rest.takeWhile (· ≠ 0x3E)
    match inner, rest.drop inner.length with
    | _ :: _, 0x3E :: after => some after
    | _, _ => none
  | _ => none

def literalAt (literal : String) (text : List Nat) : Option (List Nat) :=
  if (units literal).isPrefixOf text then some (text.drop (units literal).length) else none

/-- `\s+` -/
def spacesAt : List Nat → Option (List Nat)
  | u :: rest => if isTrimmedUnit u then some (rest.dropWhile isTrimmedUnit) else none
  | [] => none

def extractReadableText (html : List Nat) : List Nat :=
  let h := removeSpans "<!--" "-->" html
  let h := removeSpans "<script" "</script>" h
  let h := removeSpans "<style" "</style>" h
  let h := removeSpans "<nav" "</nav>" h
  let h := removeSpans "<footer" "</footer>" h
  let h := removeSpans "<header" "</header>" h
  let chosen := ((firstSpan (units "<main") (units "</main>") h).or
    ((firstSpan (units "<article") (units "</article>") h).or (firstSpan (units "<body") (units "</body>") h))).getD h
  let text := replaceAll tagAt (units " ") chosen
  let text := replaceAll (literalAt "&nbsp;") (units " ") text
  let text := replaceAll (literalAt "&amp;") (units "&") text
  let text := replaceAll (literalAt "&lt;") (units "<") text
  let text := replaceAll (literalAt "&gt;") (units ">") text
  let text := replaceAll (literalAt "&quot;") (units "\"") text
  let text := replaceAll (literalAt "&#39;") (units "'") text
  trimUnits (replaceAll spacesAt (units " ") text)

/-- A match of `href\s*=\s*"([^"]+)"` at the beginning of the text: the attribute, and the text after it. -/
def hrefAt (text : List Nat) : Option (List Nat × List Nat) :=
  if startsFold (units "href") text then
    match (text.drop 4).dropWhile isTrimmedUnit with
    | 0x3D :: rest =>
      match rest.dropWhile isTrimmedUnit with
      | 0x22 :: rest =>
        let href := rest.takeWhile (· ≠ 0x22)
        match href, rest.drop href.length with
        | _ :: _, 0x22 :: after => some (href, after)
        | _, _ => none
      | _ => none
    | _ => none
  else none

def hrefsFrom : Nat → List Nat → List (List Nat)
  | turns + 1, u :: rest =>
    match hrefAt (u :: rest) with
    | some (href, after) => href :: hrefsFrom turns after
    | none => hrefsFrom turns rest
  | _, _ => []

def extractLinks (urls : UrlParser) (html : List Nat) (base : Url) : List (List Nat) :=
  (hrefsFrom html.length html).foldl (fun out href =>
    match urls.parse href (some base) with
    | none => out
    | some url => if url.toText ∈ out then out else out ++ [url.toText]) []

def isLineTerminator (u : Nat) : Bool := u = 0x0A || u = 0x0D || u = 0x2028 || u = 0x2029

/-- `raw.replace(/#.*/, "")` -/
def stripComment (raw : List Nat) : List Nat :=
  raw.takeWhile (· ≠ 0x23) ++ (raw.dropWhile (· ≠ 0x23)).dropWhile fun u => !isLineTerminator u

def robotsLine (disallow : List (List Nat) × Bool) (raw : List Nat) : List (List Nat) × Bool :=
  let (disallow, inStar) := disallow
  let line := trimUnits (stripComment raw)
  if line = [] then (disallow, false)
  else if 0x3A ∉ line then (disallow, inStar)
  else
    let field := lowerUnits (trimUnits (line.takeWhile (· ≠ 0x3A)))
    let value := trimUnits ((line.dropWhile (· ≠ 0x3A)).tail)
    if field = units "user-agent" then (disallow, value = units "*")
    else if field = units "disallow" && inStar then (disallow ++ [value], inStar)
    else (disallow, inStar)

def parseRobots (text : List Nat) : List (List Nat) := ((splitLines text).foldl robotsLine ([], false)).1

end

inductive FetchError where
  | blocked (error : SsrfBlocked)
  | failed (message : List Nat)

def isRedirect (status : Nat) : Bool := status = 301 || status = 302 || status = 303 || status = 307 || status = 308

def Response.ok (res : Response) : Bool := 200 ≤ res.status && res.status ≤ 299

def canonicalize (urls : UrlParser) (urlStr : List Nat) : List Nat :=
  match urls.parse urlStr none with
  | some url => url.bare
  | none => urlStr

namespace Crawl

variable (crawl : Crawl)

/-- The loop of `guardedFetch`, with the hops it may still take. -/
def followFrom (purpose : Purpose) (originOrigin startUrl : List Nat) :
    Nat → Nat → List Nat → Prog CrawlCall CrawlReply (Except FetchError Response)
  | 0, _, _ => .ret (.error (.failed (units s!"too many redirects (>{MAX_REDIRECTS}) starting at " ++ startUrl)))
  | hops + 1, hop, currentUrl =>
    (assertPublicUrl crawl.urls crawl.spec.allowPrivateTargets currentUrl).bind fun
    | .error error => .ret (.error (.blocked error))
    | .ok () =>
      match crawl.urls.parse currentUrl none with
      | none => .ret (.error (.failed (units "Invalid URL")))
      | some url =>
        let authorization := if url.origin = originOrigin then crawl.authHeader else none
        .call (.fetch { url := currentUrl, authorization, purpose, hop }) fun reply : Except (List Nat) Response =>
          match reply with
          | .error message => .ret (.error (.failed message))
          | .ok res =>
            if isRedirect res.status = false then .ret (.ok res)
            else
              match res.location with
              | none | some [] => .ret (.ok res)
              | some location =>
                match crawl.urls.parse location (some url) with
                | none => .ret (.error (.failed (units "Invalid URL")))
                | some next => followFrom purpose originOrigin startUrl hops (hop + 1) next.toText

def guardedFetch (purpose : Purpose) (startUrl : List Nat) : Prog CrawlCall CrawlReply (Except FetchError Response) :=
  match crawl.urls.parse startUrl none with
  | none => .ret (.error (.failed (units "Invalid URL")))
  | some start => crawl.followFrom purpose start.origin startUrl (MAX_REDIRECTS + 1) 0 startUrl

/-- `RobotsCache.isAllowed`, first the part that fills the cache. -/
def loadRobots (host : List Nat) (state : CrawlState) : Prog CrawlCall CrawlReply CrawlState :=
  if host ∈ state.fetched then .ret state
  else
    (crawl.guardedFetch .robots (host ++ units "/robots.txt")).bind fun answer =>
      let rules := match answer with
        | .ok res =>
          if res.ok then
            match res.body with
            | .ok body => parseRobots body
            | .error _ => []
          else []
        | .error _ => []
      .ret { state with fetched := state.fetched ++ [host], disallows := state.disallows.set host rules }

def isAllowed (url : Url) (state : CrawlState) : Bool :=
  ((state.disallows.get? url.origin).getD []).all fun rule => rule = [] || !rule.isPrefixOf (url.pathname ++ url.search)

def robotsAllows (url : Url) (state : CrawlState) : Prog CrawlCall CrawlReply (Bool × CrawlState) :=
  if crawl.spec.ignoreRobots then .ret (true, state)
  else (crawl.loadRobots url.origin state).bind fun state => .ret (isAllowed url state, state)

def fetchPage (item : QueueItem) : Prog CrawlCall CrawlReply (Option Response) :=
  (crawl.guardedFetch (.page item) item.url).bind fun
  | .error _ => .ret none
  | .ok res => .ret (if res.ok then some res else none)

/-- One turn of `enqueueLinks`. -/
def enqueueLink (depth : Nat) (state : CrawlState) (raw : List Nat) : CrawlState :=
  let next := canonicalize crawl.urls raw
  if next ∈ state.visited then state
  else
    match crawl.urls.parse next none with
    | none => state
    | some url =>
      if url.isHttp = false then state
      else if crawl.spec.sameOrigin ∧ url.origin ≠ crawl.origin then state
      else { state with visited := state.visited ++ [next], queue := state.queue ++ [⟨next, depth + 1⟩] }

def enqueueLinks (html : List Nat) (pageUrl : Url) (depth : Nat) (state : CrawlState) : CrawlState :=
  (extractLinks crawl.urls html pageUrl).foldl (crawl.enqueueLink depth) state

def isHtml (res : Response) (html : List Nat) : Bool :=
  (res.contentType.getD []).tails.any (units "html").isPrefixOf ||
    (html.take 512).tails.any fun text =>
      startsFold (units "<html") text &&
        match text.drop 5 with
        | u :: _ => isTrimmedUnit u || u = 0x3E
        | [] => false

/-- How the turn of an item ended. -/
inductive Turn where
  | skipped
  | yields (doc : RawDoc)
  /-- the crawl was aborted, or something was thrown -/
  | stops

def crawlOne (item : QueueItem) (state : CrawlState) : Prog CrawlCall CrawlReply (Turn × CrawlState) :=
  match crawl.urls.parse item.url none with
  | none => .ret (.stops, state)
  | some url =>
    (assertPublicUrl crawl.urls crawl.spec.allowPrivateTargets item.url).bind fun
    | .error _ => .ret (.skipped, state)
    | .ok () =>
      (crawl.robotsAllows url state).bind fun (allowed, state) =>
        if allowed = false then .ret (.skipped, state)
        else
          .call (.wait url.hostname) fun aborted : Bool =>
            if aborted then .ret (.stops, state)
            else
              (crawl.fetchPage item).bind fun
              | none => .ret (.skipped, state)
              | some res =>
                match res.body with
                | .error _ => .ret (.stops, state)
                | .ok html =>
                  let text := if isHtml res html then extractReadableText html else html
                  let state := if isHtml res html ∧ item.depth < crawl.spec.maxDepth then
                      crawl.enqueueLinks html url item.depth state
                    else state
                  .ret (.yields ⟨item.url, text⟩, state)

/-- The loop of `runCrawl` for a number of turns: the documents it yields and the state it is left in. -/
def crawlTurns : Nat → CrawlState → List RawDoc → Prog CrawlCall CrawlReply (List RawDoc × CrawlState)
  | 0, state, docs => .ret (docs, state)
  | turns + 1, state, docs =>
    match state.queue with
    | [] => .ret (docs, state)
    | item :: queue =>
      .call .aborted fun aborted : Bool =>
        if aborted then .ret (docs, state)
        else
          (crawl.crawlOne item { state with queue }).bind fun
          | (.stops, state) => .ret (docs, state)
          | (.skipped, state) => crawlTurns turns state docs
          | (.yields doc, state) => crawlTurns turns state (docs ++ [doc])

end Crawl

def Crawl.start (urls : UrlParser) (resolveSecret : List Nat → Except (List Nat) (List Nat)) (spec : HttpSourceSpec) :
    Option (Crawl × CrawlState) :=
  match resolveAuthHeader spec resolveSecret with
  | .error _ => none
  | .ok authHeader =>
    (urls.parse spec.url none).map fun url =>
      ({ urls, spec, origin := url.origin, authHeader },
        { visited := [canonicalize urls spec.url], queue := [⟨canonicalize urls spec.url, 0⟩] })

/-- `runCrawl`, for a number of turns -/
def runCrawl (urls : UrlParser) (resolveSecret : List Nat → Except (List Nat) (List Nat)) (spec : HttpSourceSpec)
    (turns : Nat) : Prog CrawlCall CrawlReply (List RawDoc) :=
  match Crawl.start urls resolveSecret spec with
  | none => .ret []
  | some (crawl, state) => (crawl.crawlTurns turns state []).bind fun (docs, _) => .ret docs

end llamactl.rag
