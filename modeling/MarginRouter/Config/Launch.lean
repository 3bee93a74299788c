import MarginRouter.Config.Settings
import MarginRouter.Router.Basic
import MarginRouter.Router.Lens
import MarginRouter.Router.Trader

/-!
# Launching a router

Settings become a router: venues, markets, the balances and positions to begin with, the flash lender, and the two modules.
The first thing that does not work ends the launch.
-/

namespace MarginRouter.Config

/-- Why a router cannot be launched. -/
inductive LaunchError where
  | venue (error : VenueError)
  | market (error : MarketError)
  | fee (error : FeeError)
  | ledger (error : LedgerError)
  | registry (error : RegistryError)
  /-- A position in the market of a lender that is not listed. -/
  | unknownLender (lender : UInt8)

def LaunchError.message : LaunchError → String
  | venue e => "venue 配置错误: " ++ e.message
  | market e => "lender 配置错误: " ++ e.message
  | fee e => "闪电贷费率配置错误: " ++ e.message
  | ledger e => "初始状态错误: " ++ e.message
  | registry e => "模块注册失败: " ++ e.message
  | unknownLender lender => "仓位引用了未配置的 lender id " ++ toString lender

/-- The market that settings describe. -/
def MarketSettings.market (m : MarketSettings) : Except MarketError Market :=
  m.assets.foldlM (fun market a => market.list a.token a.price a.ltv) (.new m.id m.address)

namespace Settings

/-- The venues, in order; the pools of a venue are listed before its provider is taken. -/
def venueBook (s : Settings) : Except VenueError VenueBook :=
  s.venues.foldlM (fun book v => do book.register v.provider (← (Venue.empty v.kind).listAll v.pools)) ∅

/-- The markets, in order. -/
def marketBook (s : Settings) : Except MarketError MarketBook :=
  s.lenders.foldlM (fun book m => do book.register (← m.market)) ∅

/-- The ledger with the balances to begin with; balances of one holder in one token add up. -/
def seedBalances (seeds : List BalanceSeed) : Except LedgerError Ledger :=
  seeds.foldlM (fun l seed => l.credit seed.token seed.holder seed.amount) ∅

/-- Writes the positions to begin with; the last one of a user in one asset of a market counts. -/
def seedPositions (markets : MarketBook) (seeds : List PositionSeed) (l : Ledger) : Except LaunchError Ledger :=
  seeds.foldlM (fun l seed =>
    match markets[seed.lender]? with
    | none => .error (.unknownLender seed.lender)
    | some m => .ok (l.setPosition m.address seed.user seed.asset ⟨seed.collateral, seed.debt⟩)) l

/-- Assembles a router. -/
def launch (s : Settings) : Except LaunchError Router := do
  let venues ← s.venueBook.mapError .venue
  let markets ← s.marketBook.mapError .market
  let balances ← (seedBalances s.balances).mapError .ledger
  let ledger ← seedPositions markets s.positions balances
  let rate ← (FeeRate.of s.flash.fee s.flash.denominator).mapError .fee
  let engine : Engine := ⟨s.accounts.engine, venues, markets, .reserve s.flash.provider rate s.flash.mode⟩
  let router := Router.new engine s.accounts.admin ledger
  let modules := [Module.trader s.accounts.trader, Module.lens s.accounts.lens]
  let registry ← (router.registry.configure s.accounts.admin (modules.map Module.addAll)).mapError .registry
  return { router with registry }

end Settings

end MarginRouter.Config
