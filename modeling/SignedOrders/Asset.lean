/-!
# Chains and assets

An **asset** is named by a lowercase ticker and settles on one **chain**.  In a
settlement structure it is written by its number, its place in the list of all
assets.
-/

namespace SignedOrders

/-- A chain on which orders settle. -/
inductive Chain where
  | ethereum
  | bitcoin
  | neo
  deriving DecidableEq, Repr

namespace Chain

/-- Every chain. -/
def all : List Chain := [ethereum, bitcoin, neo]

/-- The code by which requests and signatures name the chain. -/
def code : Chain → String
  | ethereum => "ETH"
  | bitcoin => "BTC"
  | neo => "NEO"

/-- The chain with a given code. -/
def ofCode? (s : String) : Option Chain := all.find? fun chain => chain.code == s

theorem ofCode?_code (chain : Chain) : ofCode? chain.code = some chain := by
  cases chain <;> decide

end Chain

/-- A tradable asset. -/
inductive Asset where
  | eth
  | bat
  | omg
  | usdc
  | usdt
  | zrx
  | link
  | qnt
  | btc
  | neo
  | gas
  | nnn
  deriving DecidableEq, Repr

namespace Asset

/-- Every asset, in the order of the asset numbers. -/
def all : List Asset := [eth, bat, omg, usdc, usdt, zrx, link, qnt, btc, neo, gas, nnn]

/-- The lowercase ticker. -/
def ticker : Asset → String
  | eth => "eth"
  | bat => "bat"
  | omg => "omg"
  | usdc => "usdc"
  | usdt => "usdt"
  | zrx => "zrx"
  | link => "link"
  | qnt => "qnt"
  | btc => "btc"
  | neo => "neo"
  | gas => "gas"
  | nnn => "nnn"

/-- The chain on which the asset settles. -/
def chain : Asset → Chain
  | eth | bat | omg | usdc | usdt | zrx | link | qnt => .ethereum
  | btc => .bitcoin
  | neo | gas | nnn => .neo

/-- The number that stands for the asset in a settlement structure. -/
def number (asset : Asset) : Nat := all.idxOf asset

/-- The asset with a given ticker. -/
def ofTicker? (s : String) : Option Asset := all.find? fun asset => asset.ticker == s

theorem ofTicker?_ticker (asset : Asset) : ofTicker? asset.ticker = some asset := by
  cases asset <;> decide

/-- Different assets have different tickers. -/
theorem ticker_inj {a b : Asset} (h : a.ticker = b.ticker) : a = b := by
  have same := ofTicker?_ticker a
  rw [h, ofTicker?_ticker] at same
  exact (Option.some.inj same).symm

theorem number_lt (asset : Asset) : asset.number < 12 := by
  cases asset <;> decide

/-- Different assets have different numbers. -/
theorem number_inj {a b : Asset} (h : a.number = b.number) : a = b := by
  cases a <;> cases b <;> first | rfl | exact absurd h (by decide)

end Asset

end SignedOrders
