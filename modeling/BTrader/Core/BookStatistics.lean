import BTrader.Broker.TradeIds

/-! What the book reports of the fees, beside what its updates took from the cash. -/
namespace BTrader

namespace TradeBook

/-- The loop over the container that `total_commission` and `total_tax` share. -/
def total (book : TradeBook) (fee : Trade → ℚ) : ℚ :=
  book.trades.foldl (fun total _ trade => total + fee trade) 0

end TradeBook

/-- The book with its record of trades. -/
structure RecordingBook extends Book where
  trades : TradeBook

namespace RecordingBook

def fresh (asset : Asset) : RecordingBook := ⟨⟨asset, .empty⟩, .empty⟩

/-- The record has no part in an update. -/
def update (book : RecordingBook) (trade : Trade) : RecordingBook :=
  { book with toBook := book.toBook.update trade }

def totalCommission (book : RecordingBook) : ℚ := book.trades.total Trade.commission

def totalTax (book : RecordingBook) : ℚ := book.trades.total Trade.tax

/-- The statistics are those of the trades, and the cash is short of what there was by them. -/
structure Reconciles (book : RecordingBook) (cash : ℚ) (trades : List Trade) : Prop where
  commission : book.totalCommission = (trades.map Trade.commission).sum
  tax : book.totalTax = (trades.map Trade.tax).sum
  avail : book.asset.avail =
    cash - BrokerSim.dealt .buy trades + BrokerSim.dealt .sell trades -
      book.totalCommission - book.totalTax

theorem update_avail (book : RecordingBook) (trade : Trade) :
    (book.update trade).asset.avail = book.asset.avail - BrokerSim.dealt .buy [trade] +
      BrokerSim.dealt .sell [trade] -
      trade.commission - trade.tax := by
  cases side : trade.side <;> simp [update, Book.update, BrokerSim.dealt, Trade.worth, side]

theorem dealt_cons (side : Side) (trade : Trade) (trades : List Trade) :
    BrokerSim.dealt side (trade :: trades) = BrokerSim.dealt side [trade] +
      BrokerSim.dealt side trades := by
  by_cases same : trade.side = side
  · simp [BrokerSim.dealt, same]
  · simp [BrokerSim.dealt, same]

/-- The fees go out of the cash and into no record. -/
theorem updates_avail (book : RecordingBook) (trades : List Trade) :
    (trades.foldl update book).asset.avail = book.asset.avail - BrokerSim.dealt .buy trades +
      BrokerSim.dealt .sell trades -
        (trades.map Trade.commission).sum - (trades.map Trade.tax).sum ∧
      (trades.foldl update book).trades = book.trades := by
  induction trades generalizing book with
  | nil => simp [BrokerSim.dealt]
  | cons trade trades ih =>
    obtain ⟨avail, kept⟩ := ih (book.update trade)
    refine ⟨?_, kept⟩
    rw [List.foldl_cons, avail, update_avail, dealt_cons .buy trade trades,
      dealt_cons .sell trade trades]
    simp only [List.map_cons, List.sum_cons]
    ring

/-- After any trades the book's statistics reconcile with them and with its cash just when the
commissions come to nothing, and the taxes too. -/
theorem reconciles_iff (asset : Asset) (trades : List Trade) :
    (trades.foldl update (fresh asset)).Reconciles asset.avail trades ↔
      (trades.map Trade.commission).sum = 0 ∧ (trades.map Trade.tax).sum = 0 := by
  obtain ⟨avail, kept⟩ := updates_avail (fresh asset) trades
  have commission : (trades.foldl update (fresh asset)).totalCommission = 0 := by
    rw [totalCommission, kept]
    rfl
  have tax : (trades.foldl update (fresh asset)).totalTax = 0 := by
    rw [totalTax, kept]
    rfl
  constructor
  · intro reconciles
    exact ⟨reconciles.commission.symm.trans commission, reconciles.tax.symm.trans tax⟩
  · rintro ⟨noCommission, noTax⟩
    refine ⟨commission.trans noCommission.symm, tax.trans noTax.symm, ?_⟩
    rw [avail, noCommission, noTax, commission, tax]
    rfl

/-- A commission is paid and not reported. -/
theorem commission_unreported :
    ¬ ∀ (asset : Asset) (trades : List Trade),
      (trades.foldl update (fresh asset)).Reconciles asset.avail trades := by
  intro claim
  let trade : Trade :=
    ⟨1, 1, "", "", 0, "", "BTC", "X", .crypto, .buy, .open_, .speculation, 10, 1, 0, 1⟩
  have commission := (claim ⟨0, 100, 0, 0⟩ [trade]).commission
  have unreported : ([trade].foldl update (fresh ⟨0, 100, 0, 0⟩)).totalCommission = 0 := rfl
  rw [unreported] at commission
  simp [trade] at commission

end RecordingBook
end BTrader
