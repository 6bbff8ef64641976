import RpcSpec.Admission.Types
import RpcSpec.Foundation.LazyBucket
set_option autoImplicit false

/-!
# The token bucket (`admissionspec/TokenBucket.hpp`, `admissionspec/folly/TokenBucket.hpp`)

The vendored bucket and the adapter over it.  Time points are the seconds since
the epoch of the clock, as exact rationals.  The limiter only uses a bucket under
its lock, so the compare-and-swap loop of `consume` succeeds at its first
attempt.

At the end the adapter is shown to be the lazily refilled bucket of
`Foundation.LazyBucket`: that is all later modules use.
-/

namespace RpcSpec.Admission

open RpcSpec.Foundation

/-- A point on the clock. -/
abbrev TimePoint := ℚ

namespace Folly

/-- `folly::TokenBucketStorage`. -/
structure TokenBucketStorage where
  zeroTime : ℚ
  deriving DecidableEq, Repr

/-- `TokenBucketStorage::balance`. -/
def TokenBucketStorage.balance (storage : TokenBucketStorage)
    (rate burstSize nowInSeconds : ℚ) : ℚ :=
  min ((nowInSeconds - storage.zeroTime) * rate) burstSize

/-- `TokenBucketStorage::consume`: the tokens consumed and the new storage. -/
def TokenBucketStorage.consume (storage : TokenBucketStorage)
    (rate burstSize nowInSeconds : ℚ) (callback : ℚ → ℚ) : ℚ × TokenBucketStorage :=
  let tokens := min ((nowInSeconds - storage.zeroTime) * rate) burstSize
  let consumed := callback tokens
  let tokensNew := tokens - consumed
  if consumed = 0 then (consumed, storage)
  else (consumed, ⟨nowInSeconds - tokensNew / rate⟩)

/-- `folly::BasicDynamicTokenBucket::consume`. -/
def TokenBucketStorage.consumeDynamic (storage : TokenBucketStorage)
    (toConsume rate burstSize nowInSeconds : ℚ) : Bool × TokenBucketStorage :=
  if storage.balance rate burstSize nowInSeconds < 0 then (false, storage)
  else
    let (consumed, storage') := storage.consume rate burstSize nowInSeconds
      (fun available => if available < toConsume then 0 else toConsume)
    (decide (consumed = toConsume), storage')

/-- `folly::TokenBucket`. -/
structure TokenBucket where
  tokenBucket : TokenBucketStorage
  rate : ℚ
  burstSize : ℚ
  deriving DecidableEq, Repr

/-- `folly::TokenBucket::balance`. -/
def TokenBucket.balance (bucket : TokenBucket) (nowInSeconds : ℚ) : ℚ :=
  bucket.tokenBucket.balance bucket.rate bucket.burstSize nowInSeconds

/-- `folly::TokenBucket::available`. -/
def TokenBucket.available (bucket : TokenBucket) (nowInSeconds : ℚ) : ℚ :=
  max 0 (bucket.balance nowInSeconds)

/-- `folly::TokenBucket::consume`. -/
def TokenBucket.consume (bucket : TokenBucket) (toConsume nowInSeconds : ℚ) :
    Bool × TokenBucket :=
  let (ok, storage) :=
    bucket.tokenBucket.consumeDynamic toConsume bucket.rate bucket.burstSize nowInSeconds
  (ok, { bucket with tokenBucket := storage })

end Folly

/-- `admission::spec::TokenBucket`. -/
structure TokenBucket where
  bucket : Folly.TokenBucket
  deriving DecidableEq, Repr

namespace TokenBucket

/-- The zero time of a bucket that starts full. -/
def fullStartZeroTime (capacity refillRatePerSecond nowSeconds : ℚ) : ℚ :=
  if refillRatePerSecond ≤ 0 then nowSeconds
  else nowSeconds - capacity / refillRatePerSecond

/-- `TokenBucket{capacity, refillRatePerSecond, now}`. -/
def create (capacity refillRatePerSecond : ℚ) (now : TimePoint) : TokenBucket where
  bucket :=
    { tokenBucket := ⟨fullStartZeroTime capacity refillRatePerSecond now⟩
      rate := refillRatePerSecond
      burstSize := capacity }

/-- `tryConsume`: a cost of zero or less is always granted and never charged. -/
def tryConsume (bucket : TokenBucket) (cost : ℚ) (now : TimePoint) : Bool × TokenBucket :=
  if cost ≤ 0 then (true, bucket)
  else
    let (ok, inner) := bucket.bucket.consume cost now
    (ok, ⟨inner⟩)

/-- `available`: the tokens there are at `now`. -/
def available (bucket : TokenBucket) (now : TimePoint) : ℚ := bucket.bucket.available now

/-- The one atomic variable of the bucket. -/
def zeroTime (bucket : TokenBucket) : ℚ := bucket.bucket.tokenBucket.zeroTime

/-- The bucket with its atomic variable overwritten. -/
def withZeroTime (bucket : TokenBucket) (zeroTime : ℚ) : TokenBucket :=
  ⟨{ bucket.bucket with tokenBucket := ⟨zeroTime⟩ }⟩

/-- The zero time that leaves the bucket with this many tokens. -/
def zeroTimeWith (bucket : TokenBucket) (now : TimePoint) (tokens : ℚ) : ℚ :=
  now - tokens / bucket.bucket.rate

/-- A cost that is not positive always succeeds and debits nothing. -/
theorem tryConsume_of_nonpos (bucket : TokenBucket) {cost : ℚ} (h : cost ≤ 0)
    (now : TimePoint) : bucket.tryConsume cost now = (true, bucket) := by
  rw [tryConsume, if_pos h]

/-- A positive cost succeeds when the balance covers it, and moves the zero time. -/
theorem tryConsume_of_pos (bucket : TokenBucket) {cost : ℚ} (hcost : 0 < cost) (now : TimePoint) :
    bucket.tryConsume cost now =
      if cost ≤ bucket.bucket.balance now then
        (true, bucket.withZeroTime (bucket.zeroTimeWith now (bucket.bucket.balance now - cost)))
      else (false, bucket) := by
  have hbalance : min ((now - bucket.bucket.tokenBucket.zeroTime) * bucket.bucket.rate)
      bucket.bucket.burstSize = bucket.bucket.balance now := rfl
  simp only [tryConsume, if_neg (not_le.mpr hcost), Folly.TokenBucket.consume,
    Folly.TokenBucketStorage.consumeDynamic, Folly.TokenBucketStorage.balance,
    Folly.TokenBucketStorage.consume, hbalance]
  by_cases hpay : cost ≤ bucket.bucket.balance now
  · have hnonneg : ¬ bucket.bucket.balance now < 0 := not_lt.mpr (hcost.le.trans hpay)
    rw [if_pos hpay, if_neg hnonneg]
    simp only [if_neg (not_lt.mpr hpay), if_neg hcost.ne', decide_true]
    rfl
  · have hshort : bucket.bucket.balance now < cost := not_le.mp hpay
    rw [if_neg hpay]
    by_cases hdebt : bucket.bucket.balance now < 0
    · simp only [if_pos hdebt]
    · simp only [if_neg hdebt, if_pos hshort, if_true]
      simp [hcost.ne]

end TokenBucket

/-! ## The adapter is the lazily refilled bucket -/

/-- The parameters of the buckets a limiter creates, when they are positive. -/
def BucketSettings.toRate (settings : BucketSettings) (hcapacity : 0 < settings.capacity)
    (hrate : 0 < settings.refillRatePerSecond) : BucketRate ℚ :=
  ⟨settings.capacity, settings.refillRatePerSecond, hcapacity, hrate⟩

/-- The bucket with these parameters and this zero time. -/
def bucketAt (B : BucketRate ℚ) (zero : ℚ) : TokenBucket :=
  ⟨⟨⟨zero⟩, B.rate, B.capacity⟩⟩

/-- A bucket starts full. -/
theorem create_eq_bucketAt (B : BucketRate ℚ) (now : TimePoint) :
    TokenBucket.create B.capacity B.rate now = bucketAt B (B.full now) := by
  have hrate : ¬ B.rate ≤ 0 := not_le.mpr B.rate_pos
  rw [TokenBucket.create, TokenBucket.fullStartZeroTime, if_neg hrate]
  rfl

/-- A positive cost succeeds exactly when the bucket holds that many tokens, and
takes them. -/
theorem tryConsume_bucketAt (B : BucketRate ℚ) (zero : ℚ) {cost : ℚ} (hcost : 0 < cost)
    (now : TimePoint) :
    (bucketAt B zero).tryConsume cost now =
      if cost ≤ B.level zero now then (true, bucketAt B (B.take zero now cost))
      else (false, bucketAt B zero) := by
  rw [TokenBucket.tryConsume_of_pos _ hcost]
  rfl

end RpcSpec.Admission
