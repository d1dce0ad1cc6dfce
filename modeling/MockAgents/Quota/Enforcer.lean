import Mathlib.Data.Rat.Defs
import Mathlib.Algebra.Order.Ring.Rat
import MockAgents.ForStd.GoMap

/-!
# Quotas

The `Enforcer` of the quota package: per tenant a token bucket for the request rate and
a counter of the current month's spend. An amount is the rational number that its `float64`
stands for; rates and token counts are exact rationals in place of `float64`. Times are
nanoseconds since the Unix epoch and an input of every function that reads the clock.
-/

namespace MockAgents

/-- A UTC month, which the source writes as the text `2006-01`. -/
structure Month where
  year : Int
  month : Int
  deriving DecidableEq

/-- The position of a month on the time line. -/
def Month.index (m : Month) : Int := 12 * m.year + m.month

def dayNanos : Int := 86400 * 1000000000

/-- `monthKey`: the UTC month of a time, in the Gregorian calendar. -/
def monthKey (now : Int) : Month :=
  -- days since 0000-03-01, so that leap days come last in their year
  let z := now / dayNanos + 719468
  let era := z / 146097
  let doe := z % 146097
  let yoe := (doe - doe / 1460 + doe / 36524 - doe / 146096) / 365
  let doy := doe - (365 * yoe + yoe / 4 - yoe / 100)
  let mp := (5 * doy + 2) / 153
  let month := if mp < 10 then mp + 3 else mp - 9
  let year := yoe + era * 400
  ⟨if month ≤ 2 then year + 1 else year, month⟩

/-- Go's zero `time.Time`, the first instant of year 1. -/
def zeroTime : Int := -719162 * dayNanos

def spendCacheTTL : Int := 5 * 1000000000

/-- `Config`: zero rates and caps mean unlimited. -/
structure QuotaConfig where
  ratePerSec : Rat := 0
  rateBurst : Int := 0
  monthlySpendUSD : Rat := 0

structure Bucket where
  tokens : Rat
  last : Int

/-- `counter`; `expiry` is used with a backend only. -/
structure Counter where
  month : Month
  usd : Rat := 0
  expiry : Int := zeroTime

/-- The `Enforcer`. `spendBackend` says whether a shared ledger is installed. -/
structure Enforcer where
  defaults : QuotaConfig
  overrides : GoMap String QuotaConfig := ∅
  buckets : GoMap String Bucket := ∅
  spendCache : GoMap String Counter := ∅
  spendBackend : Bool := false

namespace Enforcer

def effectiveLocked (e : Enforcer) (tenantID : String) : QuotaConfig :=
  (e.overrides.lookup tenantID).getD e.defaults

def setOverride (e : Enforcer) (tenantID : String) (c : QuotaConfig) : Enforcer :=
  if tenantID = "" then e else { e with overrides := e.overrides.insert tenantID c }

def capacityFor (c : QuotaConfig) : Rat :=
  if c.rateBurst > 0 then c.rateBurst else max 1 c.ratePerSec

/-- The refill of `AllowRequest`: the tokens earned since the last check, up to the
    capacity. -/
def refill (b : Bucket) (cfg : QuotaConfig) (now : Int) : Bucket :=
  let elapsed : Rat := (now - b.last) / 1000000000
  if elapsed > 0 then
    { tokens := min (capacityFor cfg) (b.tokens + elapsed * cfg.ratePerSec), last := now }
  else b

/-- `AllowRequest`: whether a token was there, and how long to wait if not. -/
def allowRequest (e : Enforcer) (tenantID : String) (now : Int) : Enforcer × Bool × Int :=
  let cfg := e.effectiveLocked tenantID
  if tenantID = "" ∨ cfg.ratePerSec ≤ 0 then (e, true, 0)
  else
    -- a new tenant starts with a full bucket
    let b := (e.buckets.lookup tenantID).getD ⟨capacityFor cfg, now⟩
    let b := refill b cfg now
    if b.tokens ≥ 1 then
      let b := { b with tokens := b.tokens - 1 }
      ({ e with buckets := e.buckets.insert tenantID b }, true, 0)
    else
      ({ e with buckets := e.buckets.insert tenantID b }, false,
        ((1 - b.tokens) / cfg.ratePerSec * 1000000000).floor)

/-- `counterForMonthLocked`, as the counter it returns. -/
def counterForMonthLocked (e : Enforcer) (tenantID : String) (month : Month) : Counter :=
  match e.spendCache.lookup tenantID with
  | some c => if c.month = month then c else { month := month }
  | none => { month := month }

def setCounter (e : Enforcer) (tenantID : String) (c : Counter) : Enforcer :=
  { e with spendCache := e.spendCache.insert tenantID c }

end Enforcer

end MockAgents
