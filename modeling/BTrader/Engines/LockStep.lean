import BTrader.Engines.BacktestReaders

/-! The rounds of a backtest keep step unless a bar or an order comes while the reader that finds
the signal behind it sorts, or bears the time of the signal and is not behind it in the map. -/
namespace BTrader.Backtest

variable {ι κ : Type} [DecidableEq ι] [DecidableEq κ]

/-- A bar, or an order in response to one. -/
def Msg.inRound : Msg → Bool
  | .bar _ | .order (some _) => true
  | _ => false

/-- A bar or an order that waits when a signal is delivered waited when the reader began to sort,
and it does not bear the time of the signal unless the map has its journal behind. -/
def Readers.Clear (setup : Setup ι κ) (r : Readers ι κ) : Move ι κ → Prop
  | .tests engine =>
    ∀ c ∈ (r.reader engine).current, ∀ e ∈ (r.system.waiting c).head?, e.msg.isSignal →
      ∀ loop ∈ (r.reader engine).sort, ∀ d ∈ setup.journals engine,
        ∀ f ∈ r.system.waiting d, f.msg.inRound →
          f ∈ loop.there d ∧
            (f.genTime = e.genTime →
              (setup.journals engine).idxOf c < (setup.journals engine).idxOf d)
  | _ => True

instance (setup : Setup ι κ) (r : Readers ι κ) (move : Move ι κ) :
    Decidable (r.Clear setup move) :=
  match move with
  | .tests _ => by unfold Readers.Clear; infer_instance
  | .system _ | .sorts _ _ | .inspects _ => isTrue trivial

/-- No bar waits whose `MatchOrder` CP has sent, and no order in response to a bar whose matching
round has been run. -/
structure LockStep (s : Backtest ι κ) : Prop where
  bars : ∀ service, ∀ e ∈ s.waiting (.data service), ∀ round, e.msg = .bar round →
    s.written .tdReq < round
  orders : ∀ account, ∀ e ∈ s.waiting (.account account), ∀ round, e.msg = .order (some round) →
    s.seen .tdReq < round

/-! What a step can do -/

/-- No bar waits when CP takes the response of MD, no order in response to one when TD takes its
request. -/
def Free (s : Backtest ι κ) : Action ι κ → Prop
  | .cpTakes .mdResponse =>
    ∀ e ∈ (s.waiting .mdResponse).head?, e.msg.isSignal →
      ∀ d, ∀ f ∈ s.waiting d, ∀ round, f.msg ≠ .bar round
  | .tdTakes .tdReq =>
    ∀ e ∈ (s.waiting .tdReq).head?, e.msg.isSignal → ∀ d, ∀ f ∈ s.waiting d, ∀ round, f.msg ≠
      .order (some round)
  | _ => True

/-- A round goes from MD to CP and to TD, and its frames are written before the signal that
follows them. -/
structure Paced (s : Backtest ι κ) : Prop where
  timed : s.Timed
  bars : ∀ c, ∀ e ∈ s.waiting c, ∀ round, e.msg = .bar round →
    (∃ service, c = .data service) ∧ s.written .tdReq < round ∧ round ≤ s.seen .mdReq
  orders : ∀ c, ∀ e ∈ s.waiting c, ∀ round, e.msg = .order (some round) →
    (∃ account, c = .account account) ∧ s.seen .tdReq < round
  handling : ∀ round, s.cp = .handling (some round) → s.written .tdReq < round ∧
    round ≤ s.seen .mdReq
  signalled : s.cp = .signalled .marketData → ∀ c, ∀ e ∈ s.waiting c, ∀ round, e.msg ≠ .bar round
  barsFirst : ∀ e ∈ s.waiting .mdResponse, e.msg.isSignal →
    ∀ c, ∀ f ∈ s.waiting c, ∀ round, f.msg = .bar round →
    f.genTime ≤ e.genTime
  ordersFirst : ∀ e ∈ s.waiting .tdReq, e.msg.isSignal → ∀ c, ∀ f ∈ s.waiting c, ∀ round,
    f.msg = .order (some round) → f.genTime ≤ e.genTime

section
variable {s : Backtest ι κ} {c d : Channel ι κ} {msg : Msg} {e : Entry} {setup : Setup ι κ}

theorem mem_write : e ∈ (s.write c msg).waiting d ↔ e ∈ s.waiting d ∨ d = c ∧
    e = ⟨s.time, msg⟩ := by
  by_cases here : d = c
  · subst here
    simp [write]
  · simp [write, here]

theorem mem_take (left : e ∈ (s.take c).waiting d) : e ∈ s.waiting d := by
  by_cases here : d = c
  · subst here
    simp only [take, Function.update_self] at left
    exact List.mem_of_mem_tail left
  · simpa only [take, Function.update_of_ne here] using left

omit [DecidableEq ι] [DecidableEq κ] in
theorem no_signal (none : s.pending c = 0) (waits : e ∈ s.waiting c) : ¬ e.msg.isSignal :=
  fun signal => List.countP_eq_zero.mp none e waits signal

theorem Timed.write (timed : s.Timed) (c : Channel ι κ) (msg : Msg) : (s.write c msg).Timed := by
  intro d
  constructor
  · by_cases here : d = c
    · subst here
      simp only [Backtest.write, Function.update_self, List.pairwise_append]
      refine ⟨(timed d).1, List.pairwise_singleton _ _, fun e waits f new => ?_⟩
      obtain rfl := List.mem_singleton.mp new
      exact (timed d).2 e waits
    · simpa only [Backtest.write, Function.update_of_ne here] using (timed d).1
  · intro e waits
    rcases mem_write.mp waits with old | ⟨_, rfl⟩
    · exact (timed d).2 e old
    · exact Std.le_refl _

theorem Timed.take (timed : s.Timed) (c : Channel ι κ) : (s.take c).Timed := by
  intro d
  constructor
  · by_cases here : d = c
    · subst here
      simp only [Backtest.take, Function.update_self]
      exact (timed d).1.tail
    · simpa only [Backtest.take, Function.update_of_ne here] using (timed d).1
  · intro e waits
    exact (timed d).2 e (mem_take waits)

namespace Paced

theorem write (paced : s.Paced)
    (bar : ∀ round, msg = .bar round → (∃ service, c = .data service) ∧
      (s.written .tdReq < round ∧ round ≤ s.seen .mdReq) ∧
      s.pending .mdResponse = 0 ∧ s.cp ≠ .signalled .marketData)
    (order : ∀ round, msg = .order (some round) →
      (∃ account, c = .account account) ∧ s.seen .tdReq < round ∧ s.pending .tdReq = 0)
    (signal : c = .tdReq → msg.isSignal → s.cp = .signalled .marketData) :
      (s.write c msg).Paced := by
  have sent : (s.write c msg).written .tdReq = s.written .tdReq ∨ s.cp = .signalled .marketData ∧
      msg.isSignal := by
    rw [written_write]
    by_cases sends : .tdReq = c ∧ msg.isSignal
    · exact Or.inr ⟨signal sends.1.symm sends.2, sends.2⟩
    · exact Or.inl (by rw [if_neg sends, Nat.add_zero])
  refine ⟨paced.timed.write c msg, fun d e waits round shape => ?_, fun d e waits round shape => ?_,
    fun round handling => ?_,
    fun signalled d e waits round shape => ?_, fun e waits front d f waits' round shape => ?_,
    fun e waits front d f waits' round shape => ?_⟩
  · rcases sent with same | ⟨signalled, signal⟩
    · change _ ∧ (s.write c msg).written .tdReq < round ∧ round ≤ s.seen .mdReq
      rw [same]
      rcases mem_write.mp waits with old | ⟨rfl, rfl⟩
      · exact paced.bars d e old round shape
      · exact ⟨(bar round shape).1, (bar round shape).2.1⟩
    · rcases mem_write.mp waits with old | ⟨_, rfl⟩
      · exact absurd shape (paced.signalled signalled d e old round)
      · exact absurd signalled (bar round shape).2.2.2
  · rcases mem_write.mp waits with old | ⟨rfl, rfl⟩
    · exact paced.orders d e old round shape
    · exact ⟨(order round shape).1, (order round shape).2.1⟩
  · rcases sent with same | ⟨signalled, _⟩
    · change (s.write c msg).written .tdReq < round ∧ round ≤ s.seen .mdReq
      rw [same]
      exact paced.handling round handling
    · exact absurd (handling.symm.trans signalled) (by simp)
  · rcases mem_write.mp waits with old | ⟨rfl, rfl⟩
    · exact paced.signalled signalled d e old round shape
    · exact (bar round shape).2.2.2 signalled
  · rcases mem_write.mp waits' with old' | ⟨rfl, rfl⟩
    · rcases mem_write.mp waits with old | ⟨_, rfl⟩
      · exact paced.barsFirst e old front d f old' round shape
      · exact (paced.timed d).2 f old'
    · rcases mem_write.mp waits with old | ⟨_, rfl⟩
      · exact absurd front (no_signal (bar round shape).2.2.1 old)
      · exact Std.le_refl _
  · rcases mem_write.mp waits' with old' | ⟨rfl, rfl⟩
    · rcases mem_write.mp waits with old | ⟨_, rfl⟩
      · exact paced.ordersFirst e old front d f old' round shape
      · exact (paced.timed d).2 f old'
    · rcases mem_write.mp waits with old | ⟨_, rfl⟩
      · exact absurd front (no_signal (order round shape).2.2 old)
      · exact Std.le_refl _

/-- A frame is delivered: what waits is less, and of the counts only TD's rounds matter. -/
theorem took (paced : s.Paced) {rest : List Entry} (front : s.waiting c = e :: rest)
    (orders :
      c = .tdReq → e.msg.isSignal → ∀ d, ∀ f ∈ s.waiting d, ∀ round, f.msg ≠ .order (some round)) :
    (s.take c).Paced := by
  have more (d : Channel ι κ) : s.seen d ≤ (s.take c).seen d := by
    rw [seen_take front]
    omega
  refine ⟨paced.timed.take c, fun d f waits round shape => ?_, fun d f waits round shape => ?_,
    fun round handling => ?_,
    fun signalled d f waits => paced.signalled signalled d f (mem_take waits),
    fun f waits front d g waits' => paced.barsFirst f (mem_take waits) front d g (mem_take waits'),
    fun f waits front d g waits' =>
      paced.ordersFirst f (mem_take waits) front d g (mem_take waits')⟩
  · rw [written_take front]
    have bar := paced.bars d f (mem_take waits) round shape
    exact ⟨bar.1, bar.2.1, bar.2.2.trans (more _)⟩
  · have order := paced.orders d f (mem_take waits) round shape
    refine ⟨order.1, ?_⟩
    rw [seen_take front]
    by_cases signal : .tdReq = c ∧ e.msg.isSignal
    · exact absurd shape (orders signal.1.symm signal.2 d f (mem_take waits) round)
    · rw [if_neg signal]
      exact order.2
  · rw [written_take front]
    have now := paced.handling round handling
    exact ⟨now.1, now.2.trans (more _)⟩

omit [DecidableEq ι] [DecidableEq κ] in
theorem cpMoves (paced : s.Paced) {cp : CPAt}
    (handling : ∀ round, cp = .handling (some round) → s.written .tdReq < round ∧
      round ≤ s.seen .mdReq)
    (signalled :
      cp = .signalled .marketData → ∀ c, ∀ e ∈ s.waiting c, ∀ round, e.msg ≠ .bar round) :
    Paced { s with cp } :=
  ⟨paced.timed, paced.bars, paced.orders, handling, signalled, paced.barsFirst, paced.ordersFirst⟩

omit [DecidableEq ι] [DecidableEq κ] in
theorem mdMoves (paced : s.Paced) (md : MDAt ι) : Paced { s with md } :=
  ⟨paced.timed, paced.bars, paced.orders, paced.handling, paced.signalled, paced.barsFirst,
    paced.ordersFirst⟩

omit [DecidableEq ι] [DecidableEq κ] in
theorem tdMoves (paced : s.Paced) (td : TDAt) : Paced { s with td } :=
  ⟨paced.timed, paced.bars, paced.orders, paced.handling, paced.signalled, paced.barsFirst,
    paced.ordersFirst⟩

theorem sends {flag : BacktestSyncFlag} (sent : (s.write c (.signal flag)).Paced) :
    Paced { s.signal c flag with cp := .idle } :=
  ⟨sent.timed, sent.bars, sent.orders, by simp, by simp, sent.barsFirst, sent.ordersFirst⟩

theorem cpTakes (paced : s.Paced) (token : s.Token) (reads : c.reader = .cp) {rest : List Entry}
    (front : s.waiting c = e :: rest) (free : s.Free (.cpTakes c)) :
      Paced { s.take c with cp := .after e.msg } := by
  have took : (s.take c).Paced := paced.took front fun here => by
    subst here
    contradiction
  apply took.cpMoves
  · intro round handling
    cases msg : e.msg with
    | bar round' =>
      obtain rfl : round' = round := by simpa [msg, CPAt.after] using handling
      have bar := paced.bars c e (by simp [front]) round' msg
      rw [written_take front, seen_take front]
      omega
    | signal | order | termination | other => simp [msg, CPAt.after] at handling
  · intro signalled d f left round
    cases msg : e.msg with
    | signal flag =>
      obtain rfl : flag = .marketData := by simpa [msg, CPAt.after] using signalled
      have own := token.front_flag front msg
      obtain rfl : c = .mdResponse := by
        cases c with
        | mdResponse => rfl
        | tdResponse => simp [Channel.flag] at own
        | mdReq | tdReq | data | account => contradiction
      exact free e (by simp [front]) (by rw [msg]; rfl) d f (mem_take left) round
    | bar | order | termination | other => simp [msg, CPAt.after] at signalled

theorem tdTakes (paced : s.Paced) {rest : List Entry} (front : s.waiting c = e :: rest)
    (free : s.Free (.tdTakes c)) :
    (s.take c).Paced := by
  apply paced.took front
  intro here signal
  subst here
  exact free e (by simp [front]) signal

theorem places (paced : s.Paced) (token : s.Token) (account : κ) {bar : Option Nat}
    (handling : ∀ round, bar = some round → s.cp = .handling (some round)) :
      (s.write (.account account) (.order bar)).Paced := by
  apply paced.write
  · simp
  · intro round shape
    have now := paced.handling round (handling round (by simpa using shape))
    have cp := token.cp
    have td := token.td
    have cp' := token.cp'
    unfold written at *
    exact ⟨⟨account, rfl⟩, by omega, by omega⟩
  · simp

/-- The bar of a round is written before MD answers, and CP has nothing else to do then. -/
theorem serves (paced : s.Paced) (token : s.Token) (busy : s.md.busy = 1) (service : ι) :
    (s.write (.data service) (.bar (s.seen .mdReq))).Paced := by
  have md := token.md
  have cp := token.cp
  have td := token.td
  have cp' := token.cp'
  apply paced.write
  · intro round shape
    obtain rfl : s.seen .mdReq = round := by simpa using shape
    unfold written at *
    refine ⟨⟨service, rfl⟩, by omega, by omega, fun signalled => ?_⟩
    have one : s.cp.busy .marketData = 1 := by simp [CPAt.busy, signalled]
    omega
  · simp
  · simp

/-- A frame that is neither of a round nor a signal for TD. -/
theorem plain (paced : s.Paced) (plain : msg.inRound = false) (c : Channel ι κ)
    (signal : c ≠ .tdReq ∨ msg.isSignal = false) :
    (s.write c msg).Paced := by
  apply paced.write
  · rintro round rfl
    contradiction
  · rintro round rfl
    contradiction
  · intro here signal'
    rcases signal with other | none
    · exact absurd here other
    · exact absurd (none.symm.trans signal') (by simp)

end Paced

theorem act_paced (setup : Setup ι κ) (token : s.Token) (paced : s.Paced) (action : Action ι κ)
    (enabled : s.Enabled action) (free : s.Free action) : (act setup s action).Paced := by
  cases action with
  | ticks time =>
    have later : s.time ≤ time := enabled
    exact ⟨fun c =>
      ⟨(paced.timed c).1, fun e waits => Std.le_trans ((paced.timed c).2 e waits) later⟩,
      paced.bars, paced.orders, paced.handling, paced.signalled, paced.barsFirst, paced.ordersFirst⟩
  | cpStarts => exact (paced.plain rfl .mdReq (Or.inl (by simp))).sends
  | cpTakes c =>
    obtain ⟨_, reads, some⟩ := enabled
    obtain ⟨e, rest, front⟩ := List.exists_cons_of_ne_nil some
    simp only [act, front]
    exact paced.cpTakes token reads front free
  | cpOrders account =>
    simp only [act]
    split
    · exact paced.places token account (by rintro round rfl; assumption)
    · exact paced.places token account (by simp)
  | cpWrites c => exact paced.plain (by split <;> rfl) c (Or.inr (by split <;> rfl))
  | cpSends =>
    obtain ⟨flag, signalled⟩ := enabled
    simp only [act, signalled]
    cases flag with
    | marketData => exact (paced.write (by simp) (by simp) fun _ _ => signalled).sends
    | matchOrder => exact (paced.plain rfl .mdReq (Or.inl (by simp))).sends
  | cpReturns => exact paced.cpMoves (by simp) (by simp)
  | mdTakes =>
    obtain ⟨_, some⟩ := enabled
    obtain ⟨e, rest, front⟩ := List.exists_cons_of_ne_nil some
    simp only [act, front]
    exact (paced.took front (by simp)).mdMoves _
  | mdServes row =>
    obtain ⟨flag, service, rest, success, signalled⟩ := enabled
    have busy : s.md.busy = 1 := by
      rw [signalled]
      rfl
    simp only [act, signalled]
    cases row with
    | bar => exact (paced.serves token busy service).mdMoves _
    | invalid => exact paced.mdMoves _
    | ended => exact (paced.plain rfl _ (Or.inr rfl)).mdMoves _
  | mdReplies =>
    simp only [act]
    split
    · exact (paced.plain rfl _ (Or.inl (by simp))).mdMoves _
    · exact paced.mdMoves _
  | tdTakes c =>
    obtain ⟨_, _, some⟩ := enabled
    obtain ⟨e, rest, front⟩ := List.exists_cons_of_ne_nil some
    simp only [act, front]
    exact (paced.tdTakes front free).tdMoves _
  | tdWrites => exact paced.plain rfl _ (Or.inr rfl)
  | tdReplies =>
    simp only [act]
    split
    · exact (paced.plain rfl _ (Or.inl (by simp))).tdMoves _
    · exact paced
  | tdReturns => exact paced.tdMoves _
  | stops engine =>
    cases engine with
    | cp => exact paced.cpMoves (by simp) (by simp)
    | md => exact paced.mdMoves _
    | td => exact paced.tdMoves _

omit [DecidableEq ι] [DecidableEq κ] in
theorem start_paced : (start : Backtest ι κ).Paced where
  timed := by simp [start, Timed]
  bars := by simp [start]
  orders := by simp [start]
  handling := by simp [start]
  signalled := by simp [start]
  barsFirst := by simp [start]
  ordersFirst := by simp [start]

/-! Runs of the readers -/

namespace Readers
variable {r : Readers ι κ}

structure Inv (setup : Setup ι κ) (r : Readers ι κ) : Prop where
  token : r.system.Token
  paced : r.system.Paced
  knows : ∀ engine, (r.reader engine).Knows (setup.journals engine) r.system

/-- What the loop has chosen is not after anything that waited when it began. -/
theorem Inv.first (inv : r.Inv setup) {engine : Engine} {rest : List Entry} {loop : SortLoop ι κ}
    (clear : r.Clear setup (.tests engine)) (sorted : loop ∈ (r.reader engine).sort)
    (done : loop.rest = [])
    (current : c ∈ (r.reader engine).current) (front : r.system.waiting c = e :: rest)
    (signal : e.msg.isSignal)
    (own : d ∈ setup.journals engine) {f : Entry} (waits : f ∈ r.system.waiting d)
    (inRound : f.msg.inRound) :
    ¬ f.genTime ≤ e.genTime := by
  intro before
  obtain ⟨looked, split, narrowed⟩ := (inv.knows engine).narrowed loop sorted
  obtain rfl : looked = setup.journals engine := by simpa [done] using split
  obtain ⟨there, untied⟩ :=
    clear c current e (by simp [front]) signal loop sorted d own f waits inRound
  rw [Option.mem_def.mp current] at narrowed
  obtain ⟨least, last⟩ := narrowed.first (journals_distinct setup engine) front own there
  exact absurd (untied (Int64.le_antisymm before least)) (Nat.not_lt.mpr (last before))

theorem Inv.free (inv : r.Inv setup) {engine : Engine} {loop : SortLoop ι κ}
    (clear : r.Clear setup (.tests engine))
    (sorted : loop ∈ (r.reader engine).sort) (done : loop.rest = [])
    (current : c ∈ (r.reader engine).current) :
    r.system.Free (.takes engine c) := by
  have joined : c.reader = engine :=
    (journals_reader setup engine).mp ((inv.knows engine).joined c current)
  have first {e : Entry} (head : e ∈ (r.system.waiting c).head?) (signal : e.msg.isSignal)
      {d : Channel ι κ}
      (own : d.reader = engine) {f : Entry} (waits : f ∈ r.system.waiting d)
      (inRound : f.msg.inRound) :
      ¬ f.genTime ≤ e.genTime := by
    obtain ⟨rest, front⟩ := List.head?_eq_some_iff.mp head
    exact inv.first clear sorted done current front signal
      ((journals_reader setup engine).mpr own) waits inRound
  cases engine with
  | md => trivial
  | cp =>
    cases c with
    | mdResponse =>
      intro e head signal d f waits round shape
      obtain ⟨⟨service, rfl⟩, _⟩ := inv.paced.bars d f waits round shape
      exact first head signal rfl waits (by rw [shape]; rfl)
        (inv.paced.barsFirst e (List.mem_of_mem_head? head) signal _ f waits round shape)
    | mdReq | tdReq | tdResponse | data | account => trivial
  | td =>
    cases c with
    | tdReq =>
      intro e head signal d f waits round shape
      obtain ⟨⟨account, rfl⟩, _⟩ := inv.paced.orders d f waits round shape
      exact first head signal rfl waits (by rw [shape]; rfl)
        (inv.paced.ordersFirst e (List.mem_of_mem_head? head) signal _ f waits round shape)
    | mdReq | mdResponse | tdResponse | data | account => trivial

theorem Inv.system (inv : r.Inv setup) (action : Action ι κ) (other : action.isTake = false)
    (enabled : r.system.Enabled action) :
      Inv setup { r with system := act setup r.system action } where
  token := act_token setup inv.token action enabled
  paced := act_paced setup inv.token inv.paced action enabled (by cases action <;> trivial)
  knows engine := (inv.knows engine).grows fun c _ => act_grows setup r.system other c

omit [DecidableEq ι] [DecidableEq κ] in
/-- A step of one reader alone. -/
theorem Inv.reads (inv : r.Inv setup) {engine : Engine} {reader : Reader ι κ}
    (knows : reader.Knows (setup.journals engine) r.system) :
    Inv setup { r with reader := Function.update r.reader engine reader } where
  token := inv.token
  paced := inv.paced
  knows other := by
    by_cases same : other = engine
    · subst same
      simpa using knows
    · simpa [same] using inv.knows other

/-- What is delivered was in front in a journal of the engine; the other readers see none of it. -/
theorem Inv.takes (inv : r.Inv setup) {engine : Engine} (free : r.system.idle engine)
    (current : c ∈ (r.reader engine).current) (some : r.system.waiting c ≠ [])
    (clear : r.system.Free (.takes engine c)) :
    Inv setup
      { system := act setup r.system (.takes engine c)
        reader := Function.update r.reader engine ⟨(r.reader engine).current, none⟩ } := by
  have own : c.reader = engine :=
    (journals_reader setup engine).mp ((inv.knows engine).joined c current)
  have enabled := takes_enabled free own some
  refine ⟨act_token setup inv.token _ enabled, act_paced setup inv.token inv.paced _ enabled clear,
    fun other => ?_⟩
  by_cases same : other = engine
  · subst same
    simp only [Function.update_self]
    exact ⟨(inv.knows other).joined, by simp, by simp⟩
  · simp only [Function.update_of_ne same]
    refine (inv.knows other).grows fun d joined => ?_
    rw [act_takes_others setup r.system own]
    rw [(journals_reader setup other).mp joined]
    exact same

theorem step_inv (inv : r.Inv setup) (move : Move ι κ) (enabled : r.Enabled move)
    (clear : r.Clear setup move) :
    (r.step setup move).Inv setup := by
  cases move with
  | system action => exact inv.system action enabled.1 enabled.2
  | sorts engine now => exact inv.reads ((inv.knows engine).sorts inv.paced.timed enabled.2.2)
  | inspects engine => exact inv.reads ((inv.knows engine).inspect inv.paced.timed)
  | tests engine =>
    obtain ⟨free, loop, sorted, done⟩ := enabled
    cases found : (r.reader engine).current with
    | none =>
      simp only [step, deliver, found]
      rw [← found]
      exact inv.reads (inv.knows engine).tested
    | some c =>
      simp only [step, deliver, found]
      rw [← found]
      split
      · exact inv.reads (inv.knows engine).tested
      · rename_i some
        exact inv.takes free found some (inv.free clear sorted done found)

omit [DecidableEq ι] [DecidableEq κ] in
theorem start_inv (setup : Setup ι κ) : (start : Readers ι κ).Inv setup :=
  ⟨start_token, start_paced, fun _ => ⟨by simp [start], by simp [start], by simp [start]⟩⟩

end Readers

/-- In every run in which what waits is clear whenever a signal is delivered, `on_bar` runs for
every bar before CP answers its round, and TD gets every order placed in it before it matches. -/
theorem lock_step (setup : Setup ι κ) (moves : List (Move ι κ))
    (allowed : ∀ move ∈ Runs.moves (Readers.step setup) Readers.start moves, move.1.Enabled move.2)
    (clear :
      ∀ move ∈ Runs.moves (Readers.step setup) Readers.start moves, move.1.Clear setup move.2) :
    ∀ r ∈ Runs.states (Readers.step setup) Readers.start moves, r.system.LockStep := by
  intro r reached
  have kept (r : Readers ι κ) (move : Move ι κ) (inv : r.Inv setup)
      (able : r.Enabled move ∧ r.Clear setup move) :
      (r.step setup move).Inv setup := Readers.step_inv inv move able.1 able.2
  have inv := Runs.invariant kept (Readers.start_inv setup) moves
    (fun move member => ⟨allowed move member, clear move member⟩) r reached
  exact ⟨fun service e waits round bar => (inv.paced.bars _ e waits round bar).2.1,
    fun account e waits round order => (inv.paced.orders _ e waits round order).2⟩

/-- One data service and one account; the maps have the journals that were joined last first. -/
def newest : Setup Unit Unit :=
  { simple with
    cpJournals := [.mdResponse, .tdResponse, .data ()]
    cpDistinct := by decide
    cpJoined := by rintro (_ | _ | _ | _ | _ | _) <;> simp [Channel.reader] }

/-- A reader sorts its journals and tests what is current. -/
def look (engine : Engine) (now : Int64) : List (Move Unit Unit) :=
  .sorts engine now :: ((newest.journals engine).map fun _ => .inspects engine) ++ [.tests engine]

/-- `on_bar` places an order at once; CP takes the signal, with which TD is signalled at this
time. -/
def ordered (time : Int64) : List (Move Unit Unit) :=
  List.flatten [[.system .cpStarts], look .md 0, [.system (.mdServes .bar), .system .mdReplies],
    look .cp 0,
    [.system (.cpOrders ()), .system .cpReturns], look .cp 0,
      [.system (.ticks time), .system .cpSends]]

/-- In the next tick TD gets the order, and matches after it. -/
def inTurn : List (Move Unit Unit) :=
  List.flatten [ordered 1, look .td 1, [.system .tdReturns], look .td 1]

theorem lock_step_inTurn : (inTurn.foldl (Readers.step newest) Readers.start).system.LockStep := by
  have allowed :
      ∀ move ∈ Runs.moves (Readers.step newest) Readers.start inTurn, move.1.Enabled move.2 := by
    decide +kernel
  have clear :
      ∀ move ∈ Runs.moves (Readers.step newest) Readers.start inTurn,
      move.1.Clear newest move.2 := by
    decide +kernel
  have last : inTurn.foldl (Readers.step newest) Readers.start ∈
      Runs.states (Readers.step newest) Readers.start inTurn :=
    Runs.last_mem _ _
  exact lock_step newest inTurn allowed clear _ last

/-- In one tick TD matches before it gets the order: of two frames of one time `sort` takes the
last one. -/
def tied : List (Move Unit Unit) := ordered 0 ++ look .td 0

theorem matched_before :
    ¬ ∀ moves : List (Move Unit Unit),
      (∀ move ∈ Runs.moves (Readers.step newest) Readers.start moves, move.1.Enabled move.2) →
      ∀ r ∈ Runs.states (Readers.step newest) Readers.start moves, r.system.LockStep := by
  intro claim
  have allowed :
      ∀ move ∈ Runs.moves (Readers.step newest) Readers.start tied, move.1.Enabled move.2 := by
    decide +kernel
  have last : tied.foldl (Readers.step newest) Readers.start ∈
      Runs.states (Readers.step newest) Readers.start tied :=
    Runs.last_mem _ _
  have kept := claim tied allowed _ last
  have waits :
      ⟨0, .order (some 1)⟩ ∈
      (tied.foldl (Readers.step newest) Readers.start).system.waiting (.account ()) := by
    decide +kernel
  have matched : ¬ (tied.foldl (Readers.step newest) Readers.start).system.seen .tdReq < 1 := by
    decide +kernel
  exact matched (kept.orders () _ waits 1 rfl)

/-- A round, then another in which TD has sorted before the order comes and tests when
`MatchOrder` is there too. -/
def stale : List (Move Unit Unit) :=
  List.flatten [[.system .cpStarts], look .md 0,
    [.system (.mdServes .bar), .system (.ticks 1), .system .mdReplies], look .cp 1,
      [.system .cpReturns], look .cp 1,
    [.system .cpSends], look .td 1, [.system .tdReplies], look .cp 1,
      [.system .cpSends], look .md 1,
    [.system (.mdServes .bar), .system (.ticks 2), .system .mdReplies], look .cp 2,
    [.sorts .td 2, .inspects .td, .inspects .td, .system (.cpOrders ()), .system .cpReturns],
      look .cp 2,
    [.system (.ticks 3), .system .cpSends, .tests .td]]

/-- Without ties TD may do so as well: a `sort` that finds nothing leaves the journal of the last
signal current. -/
theorem matched_stale :
    ¬ ∀ moves : List (Move Unit Unit),
      (∀ move ∈ Runs.moves (Readers.step newest) Readers.start moves, move.1.Enabled move.2) →
      (∀ r ∈ Runs.states (Readers.step newest) Readers.start moves, ∀ engine,
        (newest.journals engine).Pairwise fun c d =>
          ∀ e ∈ r.system.waiting c, ∀ f ∈ r.system.waiting d, e.genTime ≠ f.genTime) →
      ∀ r ∈ Runs.states (Readers.step newest) Readers.start moves, r.system.LockStep := by
  intro claim
  have allowed :
      ∀ move ∈ Runs.moves (Readers.step newest) Readers.start stale, move.1.Enabled move.2 := by
    decide +kernel
  have untied : ∀ r ∈ Runs.states (Readers.step newest) Readers.start stale, ∀ engine,
      (newest.journals engine).Pairwise fun c d =>
        ∀ e ∈ r.system.waiting c, ∀ f ∈ r.system.waiting d, e.genTime ≠ f.genTime := by
    intro r reached engine
    revert r
    cases engine <;> decide +kernel
  have last : stale.foldl (Readers.step newest) Readers.start ∈
      Runs.states (Readers.step newest) Readers.start stale :=
    Runs.last_mem _ _
  have kept := claim stale allowed untied _ last
  have waits :
      ⟨2, .order (some 2)⟩ ∈
      (stale.foldl (Readers.step newest) Readers.start).system.waiting (.account ()) := by
    decide +kernel
  have matched : ¬ (stale.foldl (Readers.step newest) Readers.start).system.seen .tdReq < 2 := by
    decide +kernel
  exact matched (kept.orders () _ waits 2 rfl)

end
end BTrader.Backtest
