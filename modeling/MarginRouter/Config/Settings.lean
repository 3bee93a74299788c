import MarginRouter.FeeRate
import MarginRouter.Venue.Basic

/-!
# Settings

What a router is assembled from, and what holds where nothing is set.
-/

namespace MarginRouter.Config

structure Logging where
  level : String
  json : Bool
  verbose : Bool
  timezoneOffsetHours : Int

structure Metrics where
  enable : Bool
  listen : String

/-- The accounts of the router and of its two modules. -/
structure Accounts where
  engine : Address
  admin : Address
  trader : Address
  lens : Address

structure LenderTerms where
  provider : Address
  fee : UInt64
  denominator : UInt64
  mode : FeeMode

structure VenueSettings where
  provider : UInt8
  kind : VenueKind
  pools : List PoolListing

structure AssetSettings where
  token : Address
  price : Amount
  ltv : Nat

structure MarketSettings where
  id : UInt8
  address : Address
  assets : List AssetSettings

/-- A balance to begin with. -/
structure BalanceSeed where
  token : Address
  holder : Address
  amount : Amount

/-- A position to begin with. -/
structure PositionSeed where
  lender : UInt8
  user : Address
  asset : Address
  collateral : Amount
  debt : Amount

/-- All settings. -/
structure Settings where
  logging : Logging
  metrics : Metrics
  accounts : Accounts
  flash : LenderTerms
  venues : List VenueSettings
  lenders : List MarketSettings
  balances : List BalanceSeed
  positions : List PositionSeed

def Logging.default : Logging := ⟨"info", false, false, 0⟩

def Metrics.default : Metrics := ⟨false, "0.0.0.0:9898"⟩

def Accounts.default : Accounts := ⟨.ofNat 0xe0, .ofNat 0xad, .ofNat 0x21, .ofNat 0x22⟩

def LenderTerms.default : LenderTerms := ⟨.ofNat 0xf1, 9, 10000, .surcharge⟩

def Settings.default : Settings := ⟨.default, .default, .default, .default, [], [], [], []⟩

end MarginRouter.Config
