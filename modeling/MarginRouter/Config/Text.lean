import MarginRouter.Config.Settings
import MarginRouter.Config.Toml.Document
import MarginRouter.Text.Number

/-!
# Settings as text

How settings are read from a document. Fields that are missing take their defaults, fields that are not known are passed over, and
anything else that does not fit makes the document unreadable.
-/

namespace MarginRouter.Config

/-- An address written as text. -/
def address? (v : Value) : Option Address := do
  (Address.ofText (← v.text?).toList).toOption

/-- An amount written as text. -/
def amount? (v : Value) : Option Amount := do
  Amount.ofNat? (← (Text.readNumber (1 <<< 256) (← v.text?).toList).toOption)

def byte? (v : Value) : Option UInt8 :=
  (v.natural? 255).map UInt8.ofNat

def word? (v : Value) : Option UInt64 :=
  (v.natural? (UInt64.size - 1)).map UInt64.ofNat

variable (format : Format)

def Logging.read (v : Value) : Option Logging := do
  let f ← v.fields? format ["level", "json", "profile", "timezone_offset_hours"]
  return {
    level := ← f.optional "level" Logging.default.level Value.text?
    json := ← f.optional "json" false Value.bool?
    verbose := ← f.optional "profile" false (Value.choice? format [("lean", false), ("verbose", true)])
    timezoneOffsetHours := ← f.optional "timezone_offset_hours" 0 (Value.integer? (-128) 127) }

def Metrics.read (v : Value) : Option Metrics := do
  let f ← v.fields? format ["enable", "prometheus_listen"]
  return {
    enable := ← f.optional "enable" false Value.bool?
    listen := ← f.optional "prometheus_listen" Metrics.default.listen Value.text? }

def Accounts.read (v : Value) : Option Accounts := do
  let f ← v.fields? format ["engine", "admin", "trader_module", "lens_module"]
  return {
    engine := ← f.optional "engine" Accounts.default.engine address?
    admin := ← f.optional "admin" Accounts.default.admin address?
    trader := ← f.optional "trader_module" Accounts.default.trader address?
    lens := ← f.optional "lens_module" Accounts.default.lens address? }

def LenderTerms.read (v : Value) : Option LenderTerms := do
  let f ← v.fields? format ["provider", "fee", "denom", "mode"]
  return {
    provider := ← f.optional "provider" LenderTerms.default.provider address?
    fee := ← f.optional "fee" LenderTerms.default.fee word?
    denominator := ← f.optional "denom" LenderTerms.default.denominator word?
    mode := ← f.optional "mode" .surcharge (Value.choice? format [("surcharge", .surcharge), ("deducted", .deducted)]) }

def readPool (v : Value) : Option PoolListing := do
  let f ← v.fields? format ["token0", "token1", "fee", "address", "rate_numerator", "rate_denominator"]
  return {
    token0 := ← f.required "token0" address?
    token1 := ← f.required "token1" address?
    fee := ← f.required "fee" (Value.natural? (UInt32.size - 1))
    address := ← f.required "address" address?
    rateNumerator := ← f.optional "rate_numerator" 1 word?
    rateDenominator := ← f.optional "rate_denominator" 1 word? }

def VenueSettings.read (v : Value) : Option VenueSettings := do
  let f ← v.fields? format ["provider_id", "kind", "pools"]
  return {
    provider := ← f.required "provider_id" byte?
    kind := ← f.required "kind" (Value.choice? format [("constant-product", .constantProduct), ("fixed-rate", .fixedRate)])
    pools := ← f.optional "pools" [] (Value.list? (readPool format)) }

def AssetSettings.read (v : Value) : Option AssetSettings := do
  let f ← v.fields? format ["token", "price", "ltv_bps"]
  return {
    token := ← f.required "token" address?
    price := ← f.optional "price" (.ofWord 1) amount?
    ltv := ← f.optional "ltv_bps" 8000 (Value.natural? (UInt16.size - 1)) }

def MarketSettings.read (v : Value) : Option MarketSettings := do
  let f ← v.fields? format ["id", "address", "assets"]
  return {
    id := ← f.required "id" byte?
    address := ← f.required "address" address?
    assets := ← f.optional "assets" [] (Value.list? (AssetSettings.read format)) }

def BalanceSeed.read (v : Value) : Option BalanceSeed := do
  let f ← v.fields? format ["token", "holder", "amount"]
  return {
    token := ← f.required "token" address?
    holder := ← f.required "holder" address?
    amount := ← f.required "amount" amount? }

def PositionSeed.read (v : Value) : Option PositionSeed := do
  let f ← v.fields? format ["lender", "user", "asset", "collateral", "debt"]
  return {
    lender := ← f.required "lender" byte?
    user := ← f.required "user" address?
    asset := ← f.required "asset" address?
    collateral := ← f.optional "collateral" 0 amount?
    debt := ← f.optional "debt" 0 amount? }

/-- Reads all settings from a document of a format. -/
def Settings.read (v : Value) : Option Settings := do
  let f ← v.fields? format ["logging", "metrics", "composer", "flashloan", "venues", "lenders", "balances", "positions"]
  return {
    logging := ← f.optional "logging" .default (Logging.read format)
    metrics := ← f.optional "metrics" .default (Metrics.read format)
    accounts := ← f.optional "composer" .default (Accounts.read format)
    flash := ← f.optional "flashloan" .default (LenderTerms.read format)
    venues := ← f.optional "venues" [] (Value.list? (VenueSettings.read format))
    lenders := ← f.optional "lenders" [] (Value.list? (MarketSettings.read format))
    balances := ← f.optional "balances" [] (Value.list? (BalanceSeed.read format))
    positions := ← f.optional "positions" [] (Value.list? (PositionSeed.read format)) }

/-- Reads all settings from the text of a document. -/
def Settings.ofText? (text : String) : Option Settings := do
  Settings.read .toml (← Toml.read? text)

end MarginRouter.Config
