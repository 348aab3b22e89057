import SpacerocksCoa.CheckoutUrls
import SpacerocksCoa.OrderStates

/-!
# Rate limits

Requests of a client to an endpoint are counted by the minute, and those above the limit of the
endpoint are refused. A client is its address under a keyed hash. Operators remove counters that
are older than an instant of their choice.
-/
namespace RateLimits
open OrderStates (Bytes Instant)
open CheckoutUrls (pythonSpace strip)

/-! ## The store -/

structure RateCounter where
  endpoint : String
  keyHash : Bytes
  windowStartedAt : Instant
  requestCount : Nat

structure RateLimitStore where
  hmacSha256 : Bytes → Bytes → Bytes
  pepper : Bytes

def minute : Int := 60000000

/-- `now.replace(second=0, microsecond=0)` -/
def windowOf (now : Int) : Int := now - now % minute

def RateLimitStore.keyHash (store : RateLimitStore) (clientAddress : List Char) : Bytes :=
  store.hmacSha256 store.pepper
    (("spacerocks-rate-limit\x00".toList ++ clientAddress).flatMap String.utf8EncodeChar)

/-- The columns of the unique constraint. -/
def RateCounter.isFor (endpoint : String) (keyHash : Bytes) (window : Instant)
    (counter : RateCounter) : Bool :=
  counter.endpoint == endpoint && counter.keyHash == keyHash && counter.windowStartedAt == window

/-- A new counter, or the one that there is with one request more. -/
def upsert (endpoint : String) (keyHash : Bytes) (window : Instant) (counters : List RateCounter) :
    Nat × List RateCounter :=
  match counters.find? (RateCounter.isFor endpoint keyHash window) with
  | none => (1, counters ++ [⟨endpoint, keyHash, window, 1⟩])
  | some counter =>
    (counter.requestCount + 1, counters.map fun other =>
      if RateCounter.isFor endpoint keyHash window other then
        { other with requestCount := other.requestCount + 1 }
      else other)

def RateLimitStore.hit (store : RateLimitStore) (endpoint : String) (clientAddress : List Char)
    (now : Instant) (limit : Int) (counters : List RateCounter) : Bool × List RateCounter :=
  let (count, counters) := upsert endpoint (store.keyHash clientAddress) (windowOf now) counters
  (decide ((count : Int) ≤ limit), counters)

/-- What `cleanup_ephemeral_records` does to the counters. -/
def cleanup (before : Instant) (counters : List RateCounter) : List RateCounter :=
  counters.filter fun counter => !decide (counter.windowStartedAt < before)

/-! ## The middleware -/

structure Settings where
  checkoutRateLimit : Int
  checkoutPriceRateLimit : Int
  webhookRateLimit : Int
  resendWebhookRateLimit : Int
  statusRateLimit : Int
  proofRateLimit : Int
  rotationRateLimit : Int
  metbullRateLimit : Int
  trustedProxyIps : List (List Char)

structure Request where
  method : String
  path : String
  client : Option (List Char)
  forwardedFor : Option (List Char)

/-- `str(ip_address(text))` is a parameter. -/
structure RateLimitMiddleware where
  store : RateLimitStore
  settings : Settings
  ipAddress : List Char → Option (List Char)

/-- An endpoint and its limit, by method and path. -/
def limits (settings : Settings) : List ((String × String) × String × Int) :=
  [(("POST", "/v1/checkout"), "checkout", settings.checkoutRateLimit),
    (("GET", "/v1/checkout/price"), "checkout_price", settings.checkoutPriceRateLimit),
    (("POST", "/v1/webhooks/stripe"), "webhook", settings.webhookRateLimit),
    (("POST", "/v1/webhooks/resend"), "resend_webhook", settings.resendWebhookRateLimit),
    (("GET", "/v1/orders/status"), "status", settings.statusRateLimit),
    (("GET", "/v1/orders/proof"), "proof", settings.proofRateLimit),
    (("POST", "/v1/orders/rotate-token"), "rotation", settings.rotationRateLimit),
    (("GET", "/v1/meteorites/metbull"), "metbull", settings.metbullRateLimit)]

/-- The forwarded address counts only when a trusted proxy states it. -/
def clientAddress (ipAddress : List Char → Option (List Char)) (request : Request)
    (trustedProxies : List (List Char)) : List Char :=
  let direct := request.client.getD "unknown".toList
  if trustedProxies.any (· == direct) = false then direct
  else
    let forwarded := strip pythonSpace ((request.forwardedFor.getD []).takeWhile (· != ','))
    (ipAddress forwarded).getD direct

/-- A request that was counted. -/
structure Hit where
  endpoint : String
  keyHash : Bytes
  now : Instant
  allowed : Bool

structure World where
  counters : List RateCounter
  hits : List Hit

/-- Whether the request is passed on; otherwise its answer is 429. -/
def RateLimitMiddleware.dispatch (m : RateLimitMiddleware) (request : Request) (now : Instant)
    (w : World) : Bool × World :=
  match (limits m.settings).lookup (request.method, request.path) with
  | none => (true, w)
  | some (endpoint, limit) =>
    let address := clientAddress m.ipAddress request m.settings.trustedProxyIps
    let (allowed, counters) := m.store.hit endpoint address now limit w.counters
    (allowed, ⟨counters, w.hits ++ [⟨endpoint, m.store.keyHash address, now, allowed⟩]⟩)

inductive Event where
  | request (request : Request) (now : Instant)
  | cleanup (before : Instant)

def step (m : RateLimitMiddleware) (w : World) : Event → World
  | .request request now => (m.dispatch request now w).2
  | .cleanup before => { w with counters := cleanup before w.counters }

def run (m : RateLimitMiddleware) (events : List Event) : World :=
  events.foldl (step m) ⟨[], []⟩

/-! ## Counting -/

section Window
variable (endpoint : String) (keyHash : Bytes) (window : Instant)

def countOf (counters : List RateCounter) : Nat :=
  ((counters.find? (RateCounter.isFor endpoint keyHash window)).map RateCounter.requestCount).getD 0

def Hit.isIn (hit : Hit) : Bool :=
  hit.endpoint == endpoint && hit.keyHash == keyHash && windowOf hit.now == window

/-- The requests that one counter counts, in their order. -/
def hitsIn (hits : List Hit) : List Hit := hits.filter (Hit.isIn endpoint keyHash window)

variable {endpoint keyHash window}

theorem isFor_iff {counter : RateCounter} :
    RateCounter.isFor endpoint keyHash window counter = true ↔
      counter.endpoint = endpoint ∧ counter.keyHash = keyHash ∧ counter.windowStartedAt = window := by
  simp only [RateCounter.isFor, Bool.and_eq_true, beq_iff_eq, and_assoc]

theorem find_increment {own : RateCounter → Bool} (same : ∀ counter n,
    own { counter with requestCount := n } = own counter) (other : RateCounter → Bool)
    (counters : List RateCounter) :
    (counters.map fun counter => if other counter then
        { counter with requestCount := counter.requestCount + 1 } else counter).find? own =
      (counters.find? own).map fun counter => if other counter then
        { counter with requestCount := counter.requestCount + 1 } else counter := by
  rw [List.find?_map]
  congr 2
  funext counter
  rw [Function.comp]
  split
  · exact same counter _
  · rfl

theorem upsert_count (counters : List RateCounter) :
    (upsert endpoint keyHash window counters).1 = countOf endpoint keyHash window counters + 1 := by
  unfold upsert countOf
  cases counters.find? (RateCounter.isFor endpoint keyHash window) with
  | none => rfl
  | some counter => rfl

theorem upsert_own (counters : List RateCounter) :
    countOf endpoint keyHash window (upsert endpoint keyHash window counters).2 =
      countOf endpoint keyHash window counters + 1 := by
  unfold upsert countOf
  cases found : counters.find? (RateCounter.isFor endpoint keyHash window) with
  | none =>
    have new : RateCounter.isFor endpoint keyHash window ⟨endpoint, keyHash, window, 1⟩ = true :=
      isFor_iff.2 ⟨rfl, rfl, rfl⟩
    simp only [List.find?_append, found, List.find?_cons, new, Option.none_or]
    rfl
  | some counter =>
    have own := List.find?_some found
    have mapped := @find_increment (RateCounter.isFor endpoint keyHash window)
      (fun _ _ => rfl) (RateCounter.isFor endpoint keyHash window) counters
    dsimp only
    rw [mapped, found, Option.map_some, if_pos own]
    rfl

/-- The counters of other clients, endpoints and minutes stay as they are. -/
theorem upsert_other {endpoint' : String} {keyHash' : Bytes} {window' : Instant}
    (apart : ¬ (endpoint' = endpoint ∧ keyHash' = keyHash ∧ window' = window))
    (counters : List RateCounter) :
    countOf endpoint keyHash window (upsert endpoint' keyHash' window' counters).2 =
      countOf endpoint keyHash window counters := by
  unfold upsert countOf
  cases counters.find? (RateCounter.isFor endpoint' keyHash' window') with
  | none =>
    have other : RateCounter.isFor endpoint keyHash window ⟨endpoint', keyHash', window', 1⟩ =
        false := Bool.eq_false_iff.2 fun same => apart (isFor_iff.1 same)
    simp only [List.find?_append, List.find?_cons, other, List.find?_nil, Option.or_none]
  | some counter =>
    have mapped := @find_increment (RateCounter.isFor endpoint keyHash window)
      (fun _ _ => rfl) (RateCounter.isFor endpoint' keyHash' window') counters
    dsimp only
    rw [mapped]
    cases found : counters.find? (RateCounter.isFor endpoint keyHash window) with
    | none => rfl
    | some own =>
      have mine := isFor_iff.1 (List.find?_some found)
      have others : RateCounter.isFor endpoint' keyHash' window' own = false := by
        refine Bool.eq_false_iff.2 fun theirs => apart ?_
        obtain ⟨rfl, rfl, rfl⟩ := isFor_iff.1 theirs
        exact mine
      rw [Option.map_some, others]
      rfl

theorem cleanup_count {before : Instant} (kept : before ≤ window) (counters : List RateCounter) :
    countOf endpoint keyHash window (cleanup before counters) =
      countOf endpoint keyHash window counters := by
  have same : (fun counter : RateCounter =>
      decide ((!decide (counter.windowStartedAt < before)) = true ∧
        RateCounter.isFor endpoint keyHash window counter = true)) =
      RateCounter.isFor endpoint keyHash window := by
    funext counter
    rw [Bool.eq_iff_iff, decide_eq_true_eq, and_iff_right_iff_imp]
    intro own
    obtain ⟨-, -, rfl⟩ := isFor_iff.1 own
    rw [decide_eq_false (Int.not_lt.2 kept)]
    rfl
  unfold countOf cleanup
  rw [List.find?_filter, same]

theorem isIn_iff {hit : Hit} : Hit.isIn endpoint keyHash window hit = true ↔
    hit.endpoint = endpoint ∧ hit.keyHash = keyHash ∧ windowOf hit.now = window := by
  simp only [Hit.isIn, Bool.and_eq_true, beq_iff_eq, and_assoc]

theorem hitsIn_own {hit : Hit} (own : Hit.isIn endpoint keyHash window hit = true)
    (hits : List Hit) : hitsIn endpoint keyHash window (hits ++ [hit]) =
      hitsIn endpoint keyHash window hits ++ [hit] := by
  rw [hitsIn, List.filter_append, List.filter_cons_of_pos own]
  rfl

theorem hitsIn_other {hit : Hit} (other : ¬ Hit.isIn endpoint keyHash window hit = true)
    (hits : List Hit) :
    hitsIn endpoint keyHash window (hits ++ [hit]) = hitsIn endpoint keyHash window hits := by
  rw [hitsIn, List.filter_append, List.filter_cons_of_neg other]
  exact List.append_nil _

end Window

/-! ## Runs -/

/-- The first requests are allowed, up to the limit, and no others. -/
def decisions (limit : Int) (n : Nat) : List Bool :=
  List.replicate (min n limit.toNat) true ++ List.replicate (n - limit.toNat) false

theorem decisions_next (limit : Int) (n : Nat) :
    decisions limit n ++ [decide (((n + 1 : Nat) : Int) ≤ limit)] = decisions limit (n + 1) := by
  unfold decisions
  by_cases within : n + 1 ≤ limit.toNat
  · have before : n - limit.toNat = 0 := by omega
    have after : n + 1 - limit.toNat = 0 := by omega
    rw [before, after, Nat.min_eq_left (by omega), Nat.min_eq_left within, List.replicate_succ',
      decide_eq_true (by omega), List.replicate_zero, List.append_nil, List.append_nil]
  · have more : n + 1 - limit.toNat = n - limit.toNat + 1 := by omega
    rw [more, Nat.min_eq_right (by omega), Nat.min_eq_right (by omega), List.replicate_succ',
      decide_eq_false (by omega), List.append_assoc]

theorem decisions_allowed (limit : Int) (n : Nat) :
    (decisions limit n).countP id ≤ limit.toNat := by
  have none : (List.replicate (n - limit.toNat) false).countP id = 0 := by
    rw [List.countP_eq_zero]
    intro b member
    rw [List.eq_of_mem_replicate member]
    decide
  have some_ : (List.replicate (min n limit.toNat) true).countP id ≤ min n limit.toNat := by
    have length := @List.countP_le_length Bool id (List.replicate (min n limit.toNat) true)
    rwa [List.length_replicate] at length
  rw [decisions, List.countP_append, none]
  omega

theorem endpoints_distinct (settings : Settings) :
    ((limits settings).map fun entry => entry.2.1).Nodup := by
  change ["checkout", "checkout_price", "webhook", "resend_webhook", "status", "proof", "rotation",
    "metbull"].Nodup
  decide

/-- An endpoint has one limit. -/
theorem limit_unique {settings : Settings} {route route' : String × String} {endpoint : String}
    {limit limit' : Int} (policy : (route, endpoint, limit) ∈ limits settings)
    (policy' : (route', endpoint, limit') ∈ limits settings) : limit' = limit := by
  have same := List.inj_on_of_nodup_map (endpoints_distinct settings) policy' policy rfl
  exact congrArg (fun entry => entry.2.2) same

section Policy
variable (m : RateLimitMiddleware) (endpoint : String) (limit : Int) (keyHash : Bytes)
  (window : Instant)

/-- The counter is the number of requests in its minute, and these were decided by it. -/
structure Counted (w : World) : Prop where
  count : countOf endpoint keyHash window w.counters =
    (hitsIn endpoint keyHash window w.hits).length
  decided : (hitsIn endpoint keyHash window w.hits).map Hit.allowed =
    decisions limit (hitsIn endpoint keyHash window w.hits).length

variable {m endpoint limit keyHash window}

theorem dispatch_counted {route : String × String}
    (policy : (route, endpoint, limit) ∈ limits m.settings) {w : World}
    (counted : Counted endpoint limit keyHash window w) (request : Request) (now : Instant) :
    Counted endpoint limit keyHash window (m.dispatch request now w).2 := by
  unfold RateLimitMiddleware.dispatch
  cases found : (limits m.settings).lookup (request.method, request.path) with
  | none => exact counted
  | some entry =>
    obtain ⟨endpoint', limit'⟩ := entry
    obtain ⟨before, after, listed, -⟩ := List.lookup_eq_some_iff.1 found
    have policy' : ((request.method, request.path), endpoint', limit') ∈ limits m.settings := by
      rw [listed]
      exact List.mem_append_right _ List.mem_cons_self
    dsimp only [RateLimitStore.hit]
    generalize m.store.keyHash _ = keyHash'
    generalize judged : decide ((_ : Int) ≤ limit') = allowed
    by_cases same : endpoint' = endpoint ∧ keyHash' = keyHash ∧ windowOf now = window
    · obtain ⟨rfl, rfl, rfl⟩ := same
      cases limit_unique policy policy'
      have own : Hit.isIn endpoint' keyHash' (windowOf now)
          ⟨endpoint', keyHash', now, allowed⟩ = true := isIn_iff.2 ⟨rfl, rfl, rfl⟩
      have inside := hitsIn_own own w.hits
      rw [upsert_count, counted.count] at judged
      constructor
      · dsimp only
        rw [upsert_own, inside, counted.count, List.length_append]
        rfl
      · dsimp only
        rw [inside, List.map_append, counted.decided, List.length_append, List.length_singleton,
          ← decisions_next, ← judged]
        rfl
    · have other : ¬ Hit.isIn endpoint keyHash window
          ⟨endpoint', keyHash', now, allowed⟩ = true := fun own => same (isIn_iff.1 own)
      have outside := hitsIn_other other w.hits
      constructor
      · dsimp only
        rw [upsert_other same, outside]
        exact counted.count
      · dsimp only
        rw [outside]
        exact counted.decided

theorem run_counted {route : String × String}
    (policy : (route, endpoint, limit) ∈ limits m.settings) (events : List Event)
    (kept : ∀ before, Event.cleanup before ∈ events → before ≤ window) {w : World}
    (counted : Counted endpoint limit keyHash window w) :
    Counted endpoint limit keyHash window (events.foldl (step m) w) := by
  induction events generalizing w with
  | nil => exact counted
  | cons event events ih =>
    apply ih fun before member => kept before (List.mem_cons_of_mem _ member)
    cases event with
    | request request now => exact dispatch_counted policy counted request now
    | cleanup before =>
      have removed := @cleanup_count endpoint keyHash window before
        (kept before List.mem_cons_self) w.counters
      exact ⟨removed.trans counted.count, counted.decided⟩

theorem start_counted : Counted endpoint limit keyHash window ⟨[], []⟩ := by
  have none : decisions limit 0 = [] := by
    rw [decisions, Nat.zero_min, Nat.zero_sub]
    rfl
  exact ⟨rfl, none.symm⟩

theorem Counted.allowed {w : World} (counted : Counted endpoint limit keyHash window w) :
    (hitsIn endpoint keyHash window w.hits).countP Hit.allowed ≤ limit.toNat := by
  have judged := decisions_allowed limit (hitsIn endpoint keyHash window w.hits).length
  rwa [← counted.decided, List.countP_map] at judged

end Policy

/-- A minute that begins anywhere meets two minutes of the clock. -/
theorem windowOf_between {since now : Int} (begun : since ≤ now) (open_ : now < since + minute) :
    windowOf now = windowOf since ∨ windowOf now = windowOf since + minute := by
  unfold windowOf minute at *
  omega

theorem windowOf_next (since : Int) : windowOf since ≤ windowOf since + minute := by
  unfold minute
  omega

/-- The request was allowed within a minute from this instant on. -/
def Hit.allowedSince (endpoint : String) (keyHash : Bytes) (since : Instant) (hit : Hit) : Bool :=
  hit.endpoint == endpoint && hit.keyHash == keyHash && decide (since ≤ hit.now) &&
    decide (hit.now < since + minute) && hit.allowed

/-- The requests allowed within a minute are among those of two minutes of the clock. -/
theorem allowedSince_le (endpoint : String) (keyHash : Bytes) (since : Instant)
    (hits : List Hit) : hits.countP (Hit.allowedSince endpoint keyHash since) ≤
      hits.countP (fun hit => hit.allowed && Hit.isIn endpoint keyHash (windowOf since) hit) +
        hits.countP (fun hit =>
          hit.allowed && Hit.isIn endpoint keyHash (windowOf since + minute) hit) := by
  induction hits with
  | nil => exact Nat.le_refl 0
  | cons hit hits ih =>
    rw [List.countP_cons, List.countP_cons, List.countP_cons]
    by_cases within : Hit.allowedSince endpoint keyHash since hit = true
    · simp only [Hit.allowedSince, Bool.and_eq_true, beq_iff_eq, decide_eq_true_eq] at within
      obtain ⟨⟨⟨⟨own, client⟩, begun⟩, open_⟩, allowed⟩ := within
      rcases windowOf_between begun open_ with window | window
      · have first := isIn_iff.2 ⟨own, client, window⟩
        rw [allowed, Bool.true_and, Bool.true_and, first, if_pos rfl]
        split <;> omega
      · have second := isIn_iff.2 ⟨own, client, window⟩
        rw [allowed, Bool.true_and, Bool.true_and, second, if_pos rfl]
        split <;> omega
    · rw [if_neg within]
      omega

/-- Unless a counter is removed within its minute, the requests of a client to an endpoint in a
minute of the clock are allowed up to the limit and then refused, whatever others do meanwhile;
and no more than twice the limit are allowed in any minute. -/
theorem rate_limits_hold (m : RateLimitMiddleware) (events : List Event)
    {route : String × String} {endpoint : String} {limit : Int}
    (policy : (route, endpoint, limit) ∈ limits m.settings) (keyHash : Bytes) (since : Instant)
    (kept : ∀ before, Event.cleanup before ∈ events → before ≤ windowOf since) :
    (hitsIn endpoint keyHash (windowOf since) (run m events).hits).map Hit.allowed =
        decisions limit (hitsIn endpoint keyHash (windowOf since) (run m events).hits).length ∧
      (run m events).hits.countP (Hit.allowedSince endpoint keyHash since) ≤ 2 * limit.toNat := by
  have first : Counted endpoint limit keyHash (windowOf since) (run m events) :=
    run_counted policy events kept start_counted
  have next : Counted endpoint limit keyHash (windowOf since + minute) (run m events) :=
    run_counted policy events
      (fun before member => Int.le_trans (kept before member) (windowOf_next since)) start_counted
  refine ⟨first.decided, ?_⟩
  have split := allowedSince_le endpoint keyHash since (run m events).hits
  have one := first.allowed
  have two := next.allowed
  unfold hitsIn at one two
  rw [List.countP_filter] at one two
  omega

/-! ## A sample -/

def sampleMiddleware : RateLimitMiddleware where
  store := ⟨fun _ message => message, []⟩
  settings := ⟨10, 60, 120, 120, 60, 20, 2, 30, []⟩
  ipAddress text := some text

def rotation : Request := ⟨"POST", "/v1/orders/rotate-token", some ['a'], none⟩

/-- Three requests in a minute, with a cleanup between them, and one in the next minute. -/
def sampleEvents : List Event :=
  [.request rotation 1000000, .cleanup 0, .request rotation 2000000, .request rotation 3000000,
    .request rotation 60000000]

theorem rate_limits_hold_rotation :
    (hitsIn "rotation" (sampleMiddleware.store.keyHash ['a']) 0
        (run sampleMiddleware sampleEvents).hits).map Hit.allowed = [true, true, false] ∧
      (run sampleMiddleware sampleEvents).hits.countP
        (Hit.allowedSince "rotation" (sampleMiddleware.store.keyHash ['a']) 2000000) ≤ 4 := by
  have policy : (("POST", "/v1/orders/rotate-token"), "rotation", (2 : Int)) ∈
      limits sampleMiddleware.settings := by decide
  have kept : ∀ before, Event.cleanup before ∈ sampleEvents → before ≤ windowOf 2000000 := by
    intro before member
    simp only [sampleEvents, List.mem_cons, List.not_mem_nil, reduceCtorEq, Event.cleanup.injEq,
      false_or, or_false] at member
    rw [member]
    decide
  exact rate_limits_hold sampleMiddleware sampleEvents policy
    (sampleMiddleware.store.keyHash ['a']) 2000000 kept

end RateLimits
