import BTrader.Journal.Location

/-! The accounts of the configuration, with the locations and destination ids the engines
build from it. -/
namespace BTrader

structure Account where
  institution : String
  account : String
  deriving DecidableEq, Repr

def Account.dest (account : Account) : UInt32 := JIDUtil.build account.institution account.account

structure MainCfg where
  runMode : RunMode
  root : String
  md : List Account
  td : List Account

namespace MainCfg

def mdDests (cfg : MainCfg) : List UInt32 := cfg.md.map Account.dest

def tdDests (cfg : MainCfg) : List UInt32 := cfg.td.map Account.dest

def mdLocation (cfg : MainCfg) : JLocation := .make cfg.runMode .md "" "" cfg.root

def tdLocation (cfg : MainCfg) : JLocation := .make cfg.runMode .td "" "" cfg.root

def mdReqLocation (cfg : MainCfg) : JLocation := .make cfg.runMode .strategy "" "" cfg.root

def tdReponseLocation (cfg : MainCfg) : JLocation := .make cfg.runMode .strategy "" "" cfg.root

def getTdLocationUid (cfg : MainCfg) : UInt32 := cfg.tdLocation.uid

end MainCfg

/-- `to_account_uid`: what stands above the position in an order id, without the location. -/
def toAccountUid (orderId : UInt64) (locationUid : UInt32) : UInt32 :=
  ((orderId >>> 32) ^^^ locationUid.toUInt64).toUInt32

end BTrader
