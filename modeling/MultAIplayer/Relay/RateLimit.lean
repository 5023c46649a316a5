import MultAIplayer.Lib.Machine
import MultAIplayer.Lib.TokenBucket
import MultAIplayer.Relay.Keys
import Mathlib.Data.NNRat.Defs
import Mathlib.Data.Rat.Floor

/-!
# Rate limits

`consumeRateLimit` and `pruneRateLimitStore` of `http/middleware.ts`: one token bucket for each
route class and client, kept in a map from which a prune drops the buckets that nobody has asked for
in two windows. Times and tokens are exact rationals.

A bucket fills up in one window, so one that is dropped after two is full, and a full bucket is what
a key without a bucket has. The clock of the relay does not go back.
-/

namespace MultAIplayer

/-- The route classes. -/
inductive RateLimitBucket
  | auth
  | read
  | mutation
  | attachment
  | websocket
  | websocketConnect
  deriving DecidableEq

def RateLimitBucket.name : RateLimitBucket → String
  | .auth => "auth"
  | .read => "read"
  | .mutation => "mutation"
  | .attachment => "attachment"
  | .websocket => "websocket"
  | .websocketConnect => "websocketConnect"

/-- What `createRelayRequestGuards` is given, with the defaults of `config.ts`. -/
structure RateLimitOptions where
  rateLimitsEnabled : Bool := true
  rateLimitWindowMs : ℕ := 60000
  trustedNetworkRateLimitMultiplier : ℕ := 8
  rateLimitCaps : RateLimitBucket → ℕ := fun
    | .auth => 30
    | .read => 300
    | .mutation => 120
    | .attachment => 60
    | .websocket => 600
    | .websocketConnect => 120
  /-- The smallest window that the configuration accepts is a second. -/
  window_ge : 1000 ≤ rateLimitWindowMs := by decide
  multiplier_ge : 1 ≤ trustedNetworkRateLimitMultiplier := by decide
  caps_ge : ∀ bucket, 1 ≤ rateLimitCaps bucket := by
    intro bucket
    cases bucket <;> decide

structure TokenBucketRecord where
  tokens : ℚ
  updatedAt : ℚ
  lastSeenAt : ℚ
  deriving DecidableEq

/-- `rateLimitStore` and the variable `nextRateLimitPruneAt`. -/
structure RateLimiter where
  rateLimitStore : InsertionMap String TokenBucketRecord := .empty
  nextRateLimitPruneAt : ℚ := 0

/-- `${bucket}:${clientId}`. -/
def rateLimitKey (bucket : RateLimitBucket) (clientId : String) : String :=
  bucket.name ++ ":" ++ clientId

namespace RateLimitOptions

variable (c : RateLimitOptions)

def capacity (bucket : RateLimitBucket) (clientId : String) : ℚ :=
  c.rateLimitCaps bucket *
    if "trusted-network:".toList <+: clientId.toList then c.trustedNetworkRateLimitMultiplier else 1

def refillPerMs (bucket : RateLimitBucket) (clientId : String) : ℚ :=
  c.capacity bucket clientId / c.rateLimitWindowMs

/-- When a bucket that nobody asks for may be dropped. -/
def expiresAt (record : TokenBucketRecord) : ℚ := record.lastSeenAt + c.rateLimitWindowMs * 2

def pruneRateLimitStore (currentTime : ℚ) (s : RateLimiter) : RateLimiter :=
  if currentTime < s.nextRateLimitPruneAt then s
  else
    let live := s.rateLimitStore.filter fun _ record ↦ currentTime < c.expiresAt record
    { rateLimitStore := live
      nextRateLimitPruneAt :=
        (live.values.map c.expiresAt).min?.getD (currentTime + c.rateLimitWindowMs) }

/-- The tokens of a key that a request finds. -/
def tokensAt (bucket : RateLimitBucket) (clientId : String) (currentTime : ℚ)
    (current : Option TokenBucketRecord) : ℚ :=
  TokenBucket.level (c.capacity bucket clientId) (c.refillPerMs bucket clientId)
    (current.map fun record ↦ ⟨record.tokens, record.updatedAt⟩) currentTime

/-- What `consumeRateLimit` returns. -/
structure Verdict where
  allowed : Bool
  resetAt : ℚ
  deriving DecidableEq

def consumeRateLimit (bucket : RateLimitBucket) (clientId : String) (currentTime : ℚ)
    (s : RateLimiter) : RateLimiter × Verdict :=
  if !c.rateLimitsEnabled then (s, ⟨true, currentTime + c.rateLimitWindowMs⟩)
  else
    let s := c.pruneRateLimitStore currentTime s
    let key := rateLimitKey bucket clientId
    let capacity := c.capacity bucket clientId
    let refillPerMs := c.refillPerMs bucket clientId
    let tokens := c.tokensAt bucket clientId currentTime (s.rateLimitStore.get key)
    let allowed := decide (1 ≤ tokens)
    let remaining := if allowed then tokens - 1 else tokens
    let resetAt :=
      if allowed then currentTime + ⌈(capacity - remaining) / refillPerMs⌉
      else currentTime + ⌈(1 - remaining) / refillPerMs⌉
    let pruneAt := currentTime + c.rateLimitWindowMs * 2
    ({ rateLimitStore := s.rateLimitStore.set key ⟨remaining, currentTime, currentTime⟩
       nextRateLimitPruneAt :=
        if s.nextRateLimitPruneAt = 0 then pruneAt else min s.nextRateLimitPruneAt pruneAt },
      ⟨allowed, resetAt⟩)

end RateLimitOptions

/-! ### Runs -/

/-- The limiter and the clock. -/
structure RateLimitedRelay where
  limiter : RateLimiter := {}
  now : ℚ

/-- Time passes, a request comes in on a key, or the store is pruned. -/
inductive RateLimitAction
  | pass (duration : ℚ≥0)
  | request (bucket : RateLimitBucket) (clientId : String)
  | prune
  deriving DecidableEq

/-- A request that was let through or refused. -/
structure RateLimitEvent where
  bucket : RateLimitBucket
  clientId : String
  at_ : ℚ
  allowed : Bool
  deriving DecidableEq

namespace RateLimitOptions

variable (c : RateLimitOptions)

@[grind =]
def step (s : RateLimitedRelay) : RateLimitAction → RateLimitedRelay × List RateLimitEvent
  | .pass duration => ({ s with now := s.now + duration }, [])
  | .request bucket clientId =>
    let (limiter, verdict) := c.consumeRateLimit bucket clientId s.now s.limiter
    ({ s with limiter }, [⟨bucket, clientId, s.now, verdict.allowed⟩])
  | .prune => ({ s with limiter := c.pruneRateLimitStore s.now s.limiter }, [])

/-- When requests on a key were let through. -/
def allowedTimes (bucket : RateLimitBucket) (clientId : String) (log : List RateLimitEvent) :
    List ℚ :=
  log.filterMap fun e ↦
    if e.bucket = bucket ∧ e.clientId = clientId ∧ e.allowed then some e.at_ else none

end RateLimitOptions

/-! ### Keys -/

theorem colon_not_mem_name (bucket : RateLimitBucket) : ':' ∉ bucket.name.toList := by
  cases bucket <;> decide

/-- A key says which class and which client it is of. -/
theorem rateLimitKey_inj {bucket bucket' : RateLimitBucket} {clientId clientId' : String}
    (h : rateLimitKey bucket clientId = rateLimitKey bucket' clientId') :
    bucket = bucket' ∧ clientId = clientId' := by
  have hlist : ∀ (b : RateLimitBucket) (id : String),
      (rateLimitKey b id).toList = b.name.toList ++ ':' :: id.toList := by
    intro b id
    simp [rateLimitKey]
  have heq := congrArg String.toList h
  rw [hlist, hlist] at heq
  obtain ⟨hname, hclient⟩ :=
    append_separator_inj (colon_not_mem_name bucket) (colon_not_mem_name bucket') heq
  refine ⟨?_, String.toList_inj.mp hclient⟩
  have hnames : bucket.name = bucket'.name := String.toList_inj.mp hname
  revert hnames
  cases bucket <;> cases bucket' <;> decide

namespace RateLimitOptions

variable {c : RateLimitOptions} {s : RateLimiter} {now : ℚ} {bucket : RateLimitBucket}
  {clientId : String}

/-! ### Numbers -/

theorem window_pos (c : RateLimitOptions) : (0 : ℚ) < c.rateLimitWindowMs := by
  have h := c.window_ge
  have hpos : 0 < c.rateLimitWindowMs := by omega
  exact_mod_cast hpos

theorem capacity_nonneg (c : RateLimitOptions) (bucket : RateLimitBucket) (clientId : String) :
    0 ≤ c.capacity bucket clientId := by
  unfold capacity
  split_ifs <;> positivity

theorem refillPerMs_nonneg (c : RateLimitOptions) (bucket : RateLimitBucket) (clientId : String) :
    0 ≤ c.refillPerMs bucket clientId :=
  div_nonneg (c.capacity_nonneg bucket clientId) c.window_pos.le

/-- A bucket fills in one window. -/
theorem window_mul_refillPerMs (c : RateLimitOptions) (bucket : RateLimitBucket)
    (clientId : String) :
    c.rateLimitWindowMs * c.refillPerMs bucket clientId = c.capacity bucket clientId :=
  mul_div_cancel₀ _ c.window_pos.ne'

/-! ### Records -/

/-- What a record of a key always is. -/
structure SoundRecord (c : RateLimitOptions) (bucket : RateLimitBucket) (clientId : String)
    (now : ℚ) (record : TokenBucketRecord) : Prop where
  nonneg : 0 ≤ record.tokens
  le_capacity : record.tokens ≤ c.capacity bucket clientId
  lastSeenAt : record.lastSeenAt = record.updatedAt
  past : record.updatedAt ≤ now

def SoundRecords (c : RateLimitOptions) (now : ℚ) (s : RateLimiter) : Prop :=
  ∀ bucket clientId record, s.rateLimitStore.get (rateLimitKey bucket clientId) = some record →
    c.SoundRecord bucket clientId now record

theorem tokensAt_le_capacity (current : Option TokenBucketRecord) :
    c.tokensAt bucket clientId now current ≤ c.capacity bucket clientId :=
  TokenBucket.level_le_capacity _

theorem tokensAt_nonneg {current : Option TokenBucketRecord}
    (h : ∀ record, current = some record → c.SoundRecord bucket clientId now record) :
    0 ≤ c.tokensAt bucket clientId now current := by
  refine TokenBucket.level_nonneg (c.capacity_nonneg _ _) (c.refillPerMs_nonneg _ _) ?_
  intro b hb
  obtain ⟨record, hrecord, rfl⟩ := Option.map_eq_some_iff.mp hb
  exact (h record hrecord).nonneg

/-- A record that was just written holds what was written. -/
theorem tokensAt_written {tokens : ℚ} (h : tokens ≤ c.capacity bucket clientId) :
    c.tokensAt bucket clientId now (some ⟨tokens, now, now⟩) = tokens := by
  show min (c.capacity bucket clientId) (tokens + max 0 (now - now) * _) = tokens
  rw [sub_self, max_self, zero_mul, add_zero, min_eq_right h]

/-- **A bucket that has expired is full.** -/
theorem tokensAt_of_expired {record : TokenBucketRecord}
    (h : c.SoundRecord bucket clientId now record) (hexpired : c.expiresAt record ≤ now) :
    c.tokensAt bucket clientId now (some record) = c.capacity bucket clientId := by
  refine TokenBucket.level_eq_capacity (b := ⟨record.tokens, record.updatedAt⟩) h.nonneg ?_
  have hwindow : (c.rateLimitWindowMs : ℚ) ≤ max 0 (now - record.updatedAt) := by
    have hlater : record.lastSeenAt + c.rateLimitWindowMs * 2 ≤ now := hexpired
    have hpos := c.window_pos
    rw [h.lastSeenAt] at hlater
    exact le_max_of_le_right (by linarith)
  calc c.capacity bucket clientId = c.rateLimitWindowMs * c.refillPerMs bucket clientId :=
        (c.window_mul_refillPerMs bucket clientId).symm
    _ ≤ max 0 (now - record.updatedAt) * c.refillPerMs bucket clientId :=
        mul_le_mul_of_nonneg_right hwindow (c.refillPerMs_nonneg _ _)

/-! ### Pruning -/

/-- A prune keeps a record or drops one that has expired. -/
theorem get_pruneRateLimitStore (c : RateLimitOptions) (now : ℚ) (s : RateLimiter)
    (key : String) :
    (c.pruneRateLimitStore now s).rateLimitStore.get key = s.rateLimitStore.get key ∨
      (c.pruneRateLimitStore now s).rateLimitStore.get key = none ∧
        ∃ record, s.rateLimitStore.get key = some record ∧ c.expiresAt record ≤ now := by
  unfold pruneRateLimitStore
  split_ifs
  · exact .inl rfl
  · dsimp only
    rw [InsertionMap.get_filter]
    cases hget : s.rateLimitStore.get key with
    | none => exact .inl rfl
    | some record =>
      by_cases hlive : now < c.expiresAt record
      · exact .inl (Option.filter_some_pos (by simpa using hlive))
      · exact .inr ⟨Option.filter_some_neg (by simpa using hlive), record, rfl, not_lt.mp hlive⟩

theorem SoundRecords.prune (h : c.SoundRecords now s) :
    c.SoundRecords now (c.pruneRateLimitStore now s) := by
  intro bucket clientId record hrecord
  obtain hsame | ⟨hnone, -⟩ := c.get_pruneRateLimitStore now s (rateLimitKey bucket clientId)
  · exact h bucket clientId record (hsame ▸ hrecord)
  · rw [hnone] at hrecord
    cases hrecord

/-- **A prune gives no tokens away.** -/
theorem tokensAt_prune (h : c.SoundRecords now s) (bucket : RateLimitBucket) (clientId : String) :
    c.tokensAt bucket clientId now
        ((c.pruneRateLimitStore now s).rateLimitStore.get (rateLimitKey bucket clientId)) =
      c.tokensAt bucket clientId now (s.rateLimitStore.get (rateLimitKey bucket clientId)) := by
  obtain hsame | ⟨hnone, record, hrecord, hexpired⟩ :=
    c.get_pruneRateLimitStore now s (rateLimitKey bucket clientId)
  · rw [hsame]
  · rw [hnone, hrecord, tokensAt_of_expired (h bucket clientId record hrecord) hexpired]
    rfl

/-! ### The account of every key -/

/-- The records are sound, and the account of every key is in order. -/
structure LimiterInv (c : RateLimitOptions) (s : RateLimitedRelay) (log : List RateLimitEvent) :
    Prop where
  records : c.SoundRecords s.now s.limiter
  account : ∀ bucket clientId, TokenBucket.Bounded (c.capacity bucket clientId)
    (c.refillPerMs bucket clientId) (allowedTimes bucket clientId log)
    (c.tokensAt bucket clientId s.now
      (s.limiter.rateLimitStore.get (rateLimitKey bucket clientId))) s.now

theorem allowedTimes_append (bucket : RateLimitBucket) (clientId : String)
    (log new : List RateLimitEvent) :
    allowedTimes bucket clientId (log ++ new) =
      allowedTimes bucket clientId log ++ allowedTimes bucket clientId new :=
  List.filterMap_append

theorem allowedTimes_singleton (bucket : RateLimitBucket) (clientId : String)
    (e : RateLimitEvent) :
    allowedTimes bucket clientId [e] =
      if e.bucket = bucket ∧ e.clientId = clientId ∧ e.allowed then [e.at_] else [] := by
  rw [allowedTimes, List.filterMap_cons, List.filterMap_nil]
  split_ifs <;> rfl

/-- What a request leaves of a store that has been pruned. -/
theorem consumeRateLimit_eq (henabled : c.rateLimitsEnabled = true) (bucket : RateLimitBucket)
    (clientId : String) (now : ℚ) (s : RateLimiter) :
    ∃ tokens, tokens = c.tokensAt bucket clientId now
        ((c.pruneRateLimitStore now s).rateLimitStore.get (rateLimitKey bucket clientId)) ∧
      (c.consumeRateLimit bucket clientId now s).2.allowed = decide (1 ≤ tokens) ∧
      (c.consumeRateLimit bucket clientId now s).1.rateLimitStore =
        (c.pruneRateLimitStore now s).rateLimitStore.set (rateLimitKey bucket clientId)
          ⟨if 1 ≤ tokens then tokens - 1 else tokens, now, now⟩ := by
  refine ⟨_, rfl, ?_⟩
  unfold consumeRateLimit
  rw [if_neg (by rw [henabled]; decide)]
  dsimp only
  simp only [decide_eq_true_eq, and_self]

variable {r : RateLimitedRelay} {log : List RateLimitEvent}

theorem step_request (c : RateLimitOptions) (r : RateLimitedRelay) (bucket : RateLimitBucket)
    (clientId : String) :
    c.step r (.request bucket clientId) =
      ({ r with limiter := (c.consumeRateLimit bucket clientId r.now r.limiter).1 },
        [⟨bucket, clientId, r.now, (c.consumeRateLimit bucket clientId r.now r.limiter).2.allowed⟩]) :=
  rfl

theorem LimiterInv.prune (h : c.LimiterInv r log) :
    c.LimiterInv { r with limiter := c.pruneRateLimitStore r.now r.limiter } log where
  records := h.records.prune
  account := fun bucket clientId ↦ by
    show TokenBucket.Bounded _ _ _ (c.tokensAt bucket clientId r.now _) r.now
    rw [tokensAt_prune h.records]
    exact h.account bucket clientId

theorem LimiterInv.pass (h : c.LimiterInv r log) (duration : ℚ≥0) :
    c.LimiterInv { r with now := r.now + duration } log := by
  have hlater : r.now ≤ r.now + duration := le_add_of_nonneg_right duration.coe_nonneg
  have hrecords : c.SoundRecords (r.now + duration) r.limiter := fun bucket clientId record hget ↦
    { h.records bucket clientId record hget with
      past := (h.records bucket clientId record hget).past.trans hlater }
  refine ⟨hrecords, fun bucket clientId ↦ ?_⟩
  refine (h.account bucket clientId).wait (c.refillPerMs_nonneg _ _) hlater
    (tokensAt_nonneg (hrecords bucket clientId)) (tokensAt_le_capacity _) ?_
  refine TokenBucket.level_later (c.refillPerMs_nonneg _ _) hlater fun b hb ↦ ?_
  obtain ⟨record, hrecord, rfl⟩ := Option.map_eq_some_iff.mp hb
  exact (h.records bucket clientId record hrecord).past

/-- **A request takes one token of its key, if there is one**, and leaves the other keys alone. -/
theorem LimiterInv.request (henabled : c.rateLimitsEnabled = true) (h : c.LimiterInv r log)
    (bucket : RateLimitBucket) (clientId : String) :
    c.LimiterInv (c.step r (.request bucket clientId)).1
      (log ++ (c.step r (.request bucket clientId)).2) := by
  obtain ⟨tokens, htokens, hallowed, hstore⟩ :=
    c.consumeRateLimit_eq henabled bucket clientId r.now r.limiter
  have hpruned := h.prune
  have hcurrent := hpruned.account bucket clientId
  rw [show c.tokensAt bucket clientId _ _ = tokens from htokens.symm] at hcurrent
  have hremaining : 0 ≤ (if 1 ≤ tokens then tokens - 1 else tokens) ∧
      (if 1 ≤ tokens then tokens - 1 else tokens) ≤ c.capacity bucket clientId := by
    have hnonneg := hcurrent.nonneg
    have hle := hcurrent.le_capacity
    split_ifs with hone <;> constructor <;> linarith
  have hother : ∀ bucket' clientId', (bucket', clientId') ≠ (bucket, clientId) →
      (c.consumeRateLimit bucket clientId r.now r.limiter).1.rateLimitStore.get
          (rateLimitKey bucket' clientId') =
        (c.pruneRateLimitStore r.now r.limiter).rateLimitStore.get
          (rateLimitKey bucket' clientId') := by
    intro bucket' clientId' hne
    rw [hstore, InsertionMap.get_set_of_ne]
    intro hkey
    obtain ⟨rfl, rfl⟩ := rateLimitKey_inj hkey
    exact hne rfl
  have hself : (c.consumeRateLimit bucket clientId r.now r.limiter).1.rateLimitStore.get
      (rateLimitKey bucket clientId) =
        some ⟨if 1 ≤ tokens then tokens - 1 else tokens, r.now, r.now⟩ := by
    rw [hstore, InsertionMap.get_set_self]
  constructor
  · intro bucket' clientId' record hrecord
    by_cases hkey : (bucket', clientId') = (bucket, clientId)
    · obtain ⟨rfl, rfl⟩ := Prod.mk.inj hkey
      obtain rfl := Option.some.inj (hself.symm.trans hrecord)
      exact ⟨hremaining.1, hremaining.2, rfl, le_refl _⟩
    · exact hpruned.records bucket' clientId' record ((hother _ _ hkey).symm.trans hrecord)
  · intro bucket' clientId'
    show TokenBucket.Bounded _ _ _ (c.tokensAt bucket' clientId' r.now
      ((c.consumeRateLimit bucket clientId r.now r.limiter).1.rateLimitStore.get _)) r.now
    rw [allowedTimes_append]
    by_cases hkey : (bucket', clientId') = (bucket, clientId)
    · obtain ⟨rfl, rfl⟩ := Prod.mk.inj hkey
      rw [hself, tokensAt_written hremaining.2]
      have hnew : allowedTimes bucket' clientId' (c.step r (.request bucket' clientId')).2 =
          if 1 ≤ tokens then [r.now] else [] := by
        rw [step_request, allowedTimes_singleton, hallowed]
        simp only [decide_eq_true_eq, true_and]
      rw [hnew]
      split_ifs with hone
      · exact hcurrent.take (c.refillPerMs_nonneg _ _) hone
      · rw [List.append_nil]
        exact hcurrent
    · rw [hother _ _ hkey]
      have hnew : allowedTimes bucket' clientId' (c.step r (.request bucket clientId)).2 = [] := by
        have hne : ¬(bucket = bucket' ∧ clientId = clientId') := by
          rintro ⟨rfl, rfl⟩
          exact hkey rfl
        rw [step_request, allowedTimes_singleton, if_neg fun hin ↦ hne ⟨hin.1, hin.2.1⟩]
      rw [hnew, List.append_nil]
      exact hpruned.account bucket' clientId'

theorem LimiterInv.start (c : RateLimitOptions) (now : ℚ) :
    c.LimiterInv { now } [] where
  records := fun _ _ _ hrecord ↦ (Option.some_ne_none _ hrecord.symm).elim
  account := fun _ _ ↦
    TokenBucket.Bounded.unused (c.capacity_nonneg _ _) (c.refillPerMs_nonneg _ _) now

theorem limiterInv_run (henabled : c.rateLimitsEnabled = true) (now : ℚ)
    (as : List RateLimitAction) :
    c.LimiterInv (Machine.run c.step { now } as).1 (Machine.run c.step { now } as).2 := by
  have hstep : ∀ (r : RateLimitedRelay) (log : List RateLimitEvent) (a : RateLimitAction),
      c.LimiterInv r log → True → c.LimiterInv (c.step r a).1 (log ++ (c.step r a).2) := by
    intro r log a h _
    cases a with
    | pass duration =>
      show c.LimiterInv { r with now := r.now + duration } (log ++ [])
      rw [List.append_nil]
      exact h.pass duration
    | request bucket clientId => exact h.request henabled bucket clientId
    | prune =>
      show c.LimiterInv { r with limiter := c.pruneRateLimitStore r.now r.limiter } (log ++ [])
      rw [List.append_nil]
      exact h.prune
  have hrun := Machine.run_invariant hstep (LimiterInv.start c now) (Machine.along_true _ as)
  rwa [List.nil_append] at hrun

/-- **The token bucket bound**: in every run, the bucket of a key holds between none and its
capacity, and what is let through on a key in an interval is at most its capacity and what it refills
meanwhile, whatever happens on other keys and whenever the store is pruned. -/
theorem rateLimit_bound (henabled : c.rateLimitsEnabled = true) (now : ℚ)
    (as : List RateLimitAction) (bucket : RateLimitBucket) (clientId : String) :
    (∀ record, (Machine.run c.step { now } as).1.limiter.rateLimitStore.get
        (rateLimitKey bucket clientId) = some record →
      0 ≤ record.tokens ∧ record.tokens ≤ c.capacity bucket clientId) ∧
    ∀ a t : ℚ, 0 ≤ t →
      ((allowedTimes bucket clientId (Machine.run c.step { now } as).2).countP
          fun x ↦ a ≤ x ∧ x ≤ a + t : ℚ) ≤
        c.capacity bucket clientId + t * c.refillPerMs bucket clientId := by
  have hinv := limiterInv_run henabled now as
  refine ⟨fun record hrecord ↦ ?_, fun a t ht ↦ ?_⟩
  · have hsound := hinv.records bucket clientId record hrecord
    exact ⟨hsound.nonneg, hsound.le_capacity⟩
  · have hwindow := (hinv.account bucket clientId).window a (a + t) (le_add_of_nonneg_right ht)
    rwa [add_sub_cancel_left] at hwindow

/-- Thirty sign-ins at once are let through, the next one is not, and one more after two seconds. -/
theorem rateLimit_bound_auth :
    (allowedTimes .auth "ip:127.0.0.1" (Machine.run ({} : RateLimitOptions).step { now := 0 }
      (List.replicate 31 (.request .auth "ip:127.0.0.1") ++
        [.pass 2000, .request .auth "ip:127.0.0.1"])).2).length = 31 ∧
    ((allowedTimes .auth "ip:127.0.0.1" (Machine.run ({} : RateLimitOptions).step { now := 0 }
      (List.replicate 31 (.request .auth "ip:127.0.0.1") ++
        [.pass 2000, .request .auth "ip:127.0.0.1"])).2).countP fun x ↦ 0 ≤ x ∧ x ≤ 0 + 2000 : ℚ) ≤
      ({} : RateLimitOptions).capacity .auth "ip:127.0.0.1" +
        2000 * ({} : RateLimitOptions).refillPerMs .auth "ip:127.0.0.1" :=
  ⟨by decide +kernel, (rateLimit_bound rfl 0 _ .auth "ip:127.0.0.1").2 0 2000 (by norm_num)⟩

end RateLimitOptions

end MultAIplayer
