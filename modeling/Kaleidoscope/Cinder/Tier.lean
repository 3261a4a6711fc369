import Mathlib.Tactic

/-!
# Tiers and the lifecycle policy

Times are nanoseconds relative to the Unix epoch, durations nanoseconds.
-/

namespace Kaleidoscope.Cinder

/-- `SystemTime`. -/
abbrev SystemTime := Int

/-- `Duration`. -/
abbrev Duration := Nat

/-- `now.duration_since(earlier)`: no duration when the clock went backwards. -/
def durationSince (now earlier : SystemTime) : Option Duration :=
  if earlier ≤ now then some (now - earlier).toNat else none

/-- Storage tier. -/
inductive Tier where
  | hot
  | warm
  | cold
  deriving DecidableEq, Repr

/-- The next forward tier; cold is terminal. -/
def Tier.nextForward : Tier → Option Tier
  | .hot => some .warm
  | .warm => some .cold
  | .cold => none

/-- Generic item identifier. -/
structure ItemId where
  id : String
  deriving DecidableEq, Repr

/-- One tier-metadata entry. -/
structure TierEntry where
  tier : Tier
  placedAt : SystemTime
  migratedAt : SystemTime
  deriving DecidableEq, Repr

/-- Age-based migration policy. -/
structure TierPolicy where
  hotToWarm : Duration
  warmToCold : Duration

/-- The age at which an item leaves a tier, if it ever does. -/
def TierPolicy.thresholdFrom (policy : TierPolicy) : Tier → Option Duration
  | .hot => some policy.hotToWarm
  | .warm => some policy.warmToCold
  | .cold => none

end Kaleidoscope.Cinder
