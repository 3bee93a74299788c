import MarginRouter.Address

/-!
# The template

The document that a new configuration starts from: three tokens, two venues, one market, a flash lender with reserves, and a
trader with a balance and a position.
-/

namespace MarginRouter.Config

/-- A text value of a document. -/
private def quotedText (s : String) : String :=
  "\"" ++ s ++ "\""

/-- An address of a document. -/
private def account (n : Nat) : String :=
  quotedText (Address.ofNat n).lower

/-- A table of a document: its header and its fields, a line each. -/
private def table (header : String) (fields : List (String × String)) : List String :=
  header :: fields.map fun (name, value) => name ++ " = " ++ value

private def pool (token0 token1 fee address : Nat) (rate : List (String × String)) : List String :=
  table "[[venues.pools]]"
    ([("token0", account token0), ("token1", account token1), ("fee", toString fee), ("address", account address)] ++ rate)

private def asset (token : Nat) : List String :=
  table "[[lenders.assets]]" [("token", account token), ("price", quotedText "1"), ("ltv_bps", "8000")]

private def balance (token holder amount : Nat) : List String :=
  table "[[balances]]"
    [("token", account token), ("holder", account holder), ("amount", quotedText (toString amount))]

/-- The blocks of the template, each a list of lines. -/
private def blocks : List (List String) :=
  [ ["# margin-composer 配置模板"],
    table "[logging]"
      [("level", quotedText "info"), ("json", "false"), ("profile", quotedText "lean"), ("timezone_offset_hours", "8")],
    table "[metrics]" [("enable", "false"), ("prometheus_listen", quotedText "0.0.0.0:9898")],
    table "[composer]"
      [("engine", account 0xe0), ("admin", account 0xad), ("trader_module", account 0x21), ("lens_module", account 0x22)],
    table "[flashloan]"
      [("provider", account 0xf1), ("fee", "9"), ("denom", "10000"), ("mode", quotedText "surcharge")],
    table "[[venues]]" [("provider_id", "1"), ("kind", quotedText "constant-product")],
    pool 0x0a 0x0b 3000 0x51 [],
    pool 0x0b 0x0c 3000 0x52 [],
    table "[[venues]]" [("provider_id", "2"), ("kind", quotedText "fixed-rate")],
    pool 0x0a 0x0c 100 0x53 [("rate_numerator", "1"), ("rate_denominator", "1")],
    table "[[lenders]]" [("id", "0"), ("address", account 0x70)],
    asset 0x0a,
    asset 0x0b,
    asset 0x0c,
    "# 池子储备" :: balance 0x0a 0x51 1000000000,
    balance 0x0b 0x51 1000000000,
    balance 0x0b 0x52 1000000000,
    balance 0x0c 0x52 1000000000,
    balance 0x0a 0x53 1000000000,
    balance 0x0c 0x53 1000000000,
    "# 借贷市场流动性" :: balance 0x0a 0x70 1000000000,
    balance 0x0b 0x70 1000000000,
    balance 0x0c 0x70 1000000000,
    "# 闪电贷储备" :: balance 0x0a 0xf1 1000000000,
    balance 0x0b 0xf1 1000000000,
    "# 交易者" :: balance 0x0a 0xca 10000000,
    table "[[positions]]"
      [("lender", "0"), ("user", account 0xca), ("asset", account 0x0b), ("collateral", quotedText "2000000"),
        ("debt", quotedText "0")] ]

/-- The text of the template: its blocks, with an empty line between them. -/
def template : String :=
  String.intercalate "\n\n" (blocks.map (String.intercalate "\n")) ++ "\n"

end MarginRouter.Config
