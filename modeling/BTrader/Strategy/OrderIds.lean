import BTrader.Strategy.LiveExecutor

/-! When the orders written through one writer get different ids, and the broker keeps
every one of them. -/
namespace BTrader
open ByteMemory Infra Writer

/-- Adding orders to the active ones keeps them apart just when no id comes twice. -/
theorem BrokerSim.addOrders_size_iff (b : BrokerSim) (orders : List Order) :
    (orders.foldl addOrder b).activeOrders.size = b.activeOrders.size + orders.length ↔
      (orders.map Order.orderId).Nodup ∧ ∀ order ∈ orders, order.orderId ∉ b.activeOrders := by
  have bound (b : BrokerSim) (orders : List Order) :
      (orders.foldl addOrder b).activeOrders.size ≤ b.activeOrders.size + orders.length := by
    induction orders generalizing b with
    | nil => exact le_refl _
    | cons order orders ih =>
      have grown : (b.addOrder order).activeOrders.size ≤ b.activeOrders.size + 1 :=
        Std.TreeMap.size_insert_le
      have := ih (b.addOrder order)
      simp only [List.foldl_cons, List.length_cons]
      omega
  induction orders generalizing b with
  | nil => simp
  | cons order orders ih =>
    have grown : (b.addOrder order).activeOrders.size =
        if order.orderId ∈ b.activeOrders then b.activeOrders.size else b.activeOrders.size + 1 :=
      Std.TreeMap.size_insert
    have kept := ih (b.addOrder order)
    simp only [List.foldl_cons, List.length_cons, List.map_cons, List.nodup_cons, List.mem_cons,
      forall_eq_or_imp]
    by_cases present : order.orderId ∈ b.activeOrders
    · rw [if_pos present] at grown
      have := bound (b.addOrder order) orders
      constructor
      · intro whole
        omega
      · rintro ⟨_, absent, _⟩
        contradiction
    · rw [if_neg present] at grown
      have mem (id : UInt64) : id ∈ (b.addOrder order).activeOrders ↔ id = order.orderId ∨
          id ∈ b.activeOrders := by
        rw [addOrder, Std.TreeMap.mem_insert, Std.compare_eq_iff_eq, eq_comm]
      have total : b.activeOrders.size + (orders.length + 1) =
          (b.addOrder order).activeOrders.size + orders.length := by omega
      rw [total]
      refine kept.trans ?_
      simp only [mem, not_or, List.mem_map, not_exists, not_and]
      constructor
      · rintro ⟨nodup, apart⟩
        exact ⟨⟨fun o member => (apart o member).1, nodup⟩, present,
          fun o member => (apart o member).2⟩
      · rintro ⟨⟨apart, nodup⟩, _, absent⟩
        exact ⟨nodup, fun o member => ⟨apart o member, absent o member⟩⟩

namespace Task

theorem issued_requests (room : Nat) (c : PagedLog.Cursor) (requests : List Request) :
    issued room c (requests.map .request) = c.places room (requests.map fun r => 40 + r.size) := by
  induction requests generalizing c with
  | nil => rfl
  | cons r requests ih =>
    rw [List.map_cons, List.map_cons, issued, PagedLog.Cursor.places, ih]
    rfl

end Task

/-- A broker without active orders keeps every order that bears one of the ids. -/
def AllKept (ids : List UInt64) : Prop :=
  ∀ (b : BrokerSim) (orders : List Order), b.activeOrders.size = 0 →
    orders.map Order.orderId = ids →
    (orders.foldl BrokerSim.addOrder b).activeOrders.size = orders.length

/-- An order with that id, of nothing. -/
def Order.blank (orderId : UInt64) : Order :=
  orderFromInput ⟨orderId, 0, "", "", .unknown, 0, 0, 0, false, .buy, .open_,
    .speculation, .limit, .any, .ioc, 0⟩ 0 0

theorem allKept_iff (ids : List UInt64) : AllKept ids ↔ ids.Nodup := by
  constructor
  · intro kept
    let b : BrokerSim := ⟨∅, ⟨0, 0, 0, 0⟩, .empty, 0, 0, false, false, []⟩
    let orders := ids.map Order.blank
    have same : orders.map Order.orderId = ids := by
      rw [List.map_map]
      exact List.map_id'' (fun _ => rfl) ids
    have size := kept b orders rfl same
    have none : b.activeOrders.size = 0 := rfl
    rw [← same]
    exact ((b.addOrders_size_iff orders).mp (by rw [size, none, Nat.zero_add])).1
  · rintro nodup b orders empty rfl
    have absent (id : UInt64) : id ∉ b.activeOrders :=
      Std.TreeMap.not_mem_of_isEmpty (by rw [Std.TreeMap.isEmpty_eq_size_eq_zero, empty]; rfl)
    have kept := (b.addOrders_size_iff orders).mpr ⟨nodup, fun order _ => absent order.orderId⟩
    rw [kept, empty, Nat.zero_add]

section Unique
variable {location : JLocation} {destId : UInt32} {isLazy : Bool} {pageRollbackSize : Nat}
  {started now : Int64} {files files₁ : JournalFiles} {w : Writer}

theorem make_issues
    (made : Writer.make location destId isLazy pageRollbackSize started now files = .ok w files₁) :
    Issues (idBase location destId) (timeHashed started) (w, files₁) := by
  rw [Writer.make] at made
  cases sought :
    Journal.seekToTime now (Journal.make location destId true isLazy pageRollbackSize, files) with
  | error e s =>
    rw [sought] at made
    contradiction
  | ok a s =>
    rw [sought] at made
    obtain ⟨rfl, rfl⟩ := EStateM.Result.ok.inj made
    exact ⟨rfl, rfl⟩

/-- In every run the positions get different ids just when no two of them agree in their last
16 bits; the requests written behind the end of the journal get different ids, and a broker
keeps every one of their orders, just when this holds of the places their sizes give them. -/
theorem orderIds_unique_iff
    (made : Writer.make location destId isLazy pageRollbackSize started now files = .ok w files₁) :
    (∀ steps : List RunStep, UniqueUids (visits (w, files₁) steps) ↔
      ∀ a ∈ visits (w, files₁) steps, ∀ b ∈ visits (w, files₁) steps, ∀ p q,
        position a = some p → position b = some q → p ≠ q → ¬ SamePosition16 p q) ∧
    ∀ (log : Log) (tasks : List Task), Layout location files₁ log →
      w = (handleAt location destId isLazy started).atEnd log →
        (∀ task ∈ tasks, task.Admissible location) →
      ∃ ids s, Task.runAll tasks (w, files₁) = .ok ids s ∧ (AllKept ids ↔ ids.Nodup) ∧
        (ids.Nodup ↔ (Task.issued (pageRoom (findPageSize location))
          (log.cursor Frame.size) tasks).Pairwise
          fun c d => ¬ c.Congruent 65536 d) := by
  refine ⟨fun steps => uniqueUids_iff (make_issues made) steps, ?_⟩
  rintro log tasks layout rfl adm
  obtain ⟨files', log', ran, _⟩ :=
    Task.runAll_issued (handleAt location destId isLazy started) layout adm
  exact ⟨_, _, ran, allKept_iff _, Task.uids_nodup_iff _ _⟩

end Unique

def blankOrder : Object sizeofOrderInput := ⟨List.replicate 120 0, List.length_replicate⟩

/-- Two orders with a mark between them. -/
def twoOrders : List Task :=
  [.request (LiveExecutor.orderRequest blankOrder 3 4 5 6), .write (.mark 3 101 4 5),
    .request (LiveExecutor.orderRequest blankOrder 7 8 9 10)]

theorem twoOrders_admissible : ∀ task ∈ twoOrders, task.Admissible simAccount := by
  have order (t i e g : Int64) :
      (LiveExecutor.orderRequest blankOrder t i e g).Admissible simAccount := by
    refine ⟨(by decide : orderInputTag ≠ pageEndTag), ?_⟩
    simp [LiveExecutor.orderRequest, sizeofOrderInput, findPageSize, simAccount,
      JLocation.make, mebibyte]
  have mark : (WriteOp.mark 3 101 4 5).Admissible simAccount := by
    refine ⟨by simp [WriteOp.frame, WriteOp.content, pageEndTag], ?_⟩
    simp [WriteOp.frame, WriteOp.content, findPageSize, simAccount, JLocation.make, mebibyte]
  simp only [twoOrders, List.forall_mem_cons, List.not_mem_nil, false_implies,
    implies_true, and_true]
  exact ⟨order 3 4 5 6, mark, order 7 8 9 10⟩

theorem orderIds_unique_iff_two :
    ∃ w files₁ ids s, make simAccount 7 false 0 1 2 JournalFiles.fresh = .ok w files₁ ∧
    Task.runAll twoOrders (w, files₁) = .ok ids s ∧ ids.Nodup ∧ AllKept ids := by
  obtain ⟨ids, s, ran, kept, distinct⟩ :=
    (orderIds_unique_iff (make_fresh simAccount 7 false 1 2)).2 _ twoOrders
    (Layout.start simAccount) rfl twoOrders_admissible
  have nodup : ids.Nodup := distinct.mpr (by decide +kernel)
  exact ⟨_, _, ids, s, make_fresh simAccount 7 false 1 2, ran, nodup, kept.mpr nodup⟩

/-- The first 65537 orders of a fresh journal all go to its first page; the last one gets the id
of the first. -/
theorem orderIds_repeat : ∃ w files₁ ids s,
    Writer.make simAccount 7 false 0 1 2 JournalFiles.fresh = .ok w files₁ ∧
    Task.runAll ((List.replicate 65537 (LiveExecutor.orderRequest blankOrder 3 4 5 6)).map .request)
      (w, files₁) =
      .ok ids s ∧
    ids.length = 65537 ∧ ids[0]? = ids[65536]? ∧ ¬ ids.Nodup ∧ ¬ AllKept ids := by
  let r := LiveExecutor.orderRequest blankOrder 3 4 5 6
  let w := handleAt simAccount 7 false 1
  have adm : ∀ task ∈ (List.replicate 65537 r).map Task.request, task.Admissible simAccount := by
    intro task member
    rw [List.map_replicate] at member
    rw [List.eq_of_mem_replicate member]
    refine ⟨by decide, ?_⟩
    simp [r, LiveExecutor.orderRequest, sizeofOrderInput, findPageSize, simAccount,
      JLocation.make, mebibyte]
  obtain ⟨files', log', ran, _⟩ := Task.runAll_issued w (Layout.start simAccount) adm
  have room : pageRoom (findPageSize simAccount) = 16777152 := by
    simp [pageRoom, findPageSize, simAccount, JLocation.make, mebibyte, sizeofFrameHeader,
      sizeofPageHeader]
  let log : Log := PagedLog.empty
  have places : Task.issued (pageRoom (findPageSize simAccount)) (log.cursor Frame.size)
      ((List.replicate 65537 r).map .request) = (List.range 65537).map fun i =>
        ⟨0, i, i * 160⟩ := by
    have start : log.cursor Frame.size = ⟨0, 0, 0⟩ := rfl
    rw [Task.issued_requests, List.map_replicate, start,
      PagedLog.Cursor.places_replicate 65537 (by rw [room]; decide)]
    simp only [Nat.zero_add]
    rfl
  let uid := fun i : Nat => w.uidOf ⟨0, i, i * 160⟩
  have ids : (Task.issued (pageRoom (findPageSize w.location)) (log.cursor Frame.size)
      ((List.replicate 65537 r).map .request)).map w.uidOf = (List.range 65537).map uid := by
    rw [show w.location = simAccount from rfl, places, List.map_map]
    rfl
  rw [ids] at ran
  have same : uid 0 = uid 65536 := (Task.uidOf_eq_iff w _ _).mpr ⟨rfl, rfl⟩
  have get (i : Nat) (bound : i < 65537) : ((List.range 65537).map uid)[i]? = some (uid i) := by
    rw [List.getElem?_map, List.getElem?_range bound]
    rfl
  have repeated : ¬ ((List.range 65537).map uid).Nodup := by
    intro nodup
    have first : 0 < ((List.range 65537).map uid).length := by
      rw [List.length_map, List.length_range]; decide
    have index : 0 = 65536 := (List.getElem?_inj first nodup).mp
      (by rw [get 0 (by decide), get 65536 (by decide), same])
    omega
  refine ⟨_, _, _, _, make_fresh simAccount 7 false 1 2, ran,
    by rw [List.length_map, List.length_range], ?_,
    repeated, fun kept => repeated ((allKept_iff _).mp kept)⟩
  rw [get 0 (by decide), get 65536 (by decide), same]

end BTrader
