import BTrader.Engines.SyncToken

/-! A backtest ends with the shortest of its files: its data service writes a `Termination`, CP
passes it on, and nothing is stuck before the three engines have stopped. -/
namespace BTrader.Backtest

variable {ι κ : Type} [DecidableEq ι] [DecidableEq κ]

/-- What a service finds in its file, whose rows are those with a bar and those without a valid
one. -/
def Row.ofRow : Option Bool → Row
  | some true => .bar
  | some false => .invalid
  | none => .ended

/-- What a service writes in a round. -/
def rowMsg (file : List Bool) (round : Nat) : List Msg :=
  match file[round]? with
  | some true => [.bar (round + 1)]
  | some false => []
  | none => [.termination]

/-- What it has written after the first rounds. -/
def publishedRows (file : List Bool) (rounds : Nat) : List Msg :=
  (List.range rounds).flatMap (rowMsg file)

/-- The frames of a journal. -/
def entries (s : Backtest ι κ) (c : Channel ι κ) : List Entry := s.passed c ++ s.waiting c

def Terminated (s : Backtest ι κ) (c : Channel ι κ) : Prop :=
  ∃ e ∈ s.entries c, e.msg = .termination

/-- The `Termination` has been delivered. -/
def TookEnd (s : Backtest ι κ) (c : Channel ι κ) : Prop := ∃ e ∈ s.passed c, e.msg = .termination

def CPAt.Over (cp : CPAt) : Prop := cp = .ending ∨ cp = .stopped

/-- CP stops once it has written a `Termination` to each of its journals. Nobody else stops an
engine. -/
def Orderly (s : Backtest ι κ) : Action ι κ → Prop
  | .stops .cp => s.cp = .ending ∧ ∀ c : Channel ι κ, c.byCP → s.Terminated c
  | .stops _ => False
  | _ => True

instance (s : Backtest ι κ) (c : Channel ι κ) : Decidable (s.Terminated c) :=
  inferInstanceAs (Decidable (∃ e ∈ s.entries c, e.msg = .termination))

instance [Fintype κ] (s : Backtest ι κ) : Decidable (∀ c : Channel ι κ, c.byCP → s.Terminated c) :=
  decidable_of_iff (s.Terminated .mdReq ∧ s.Terminated .tdReq ∧
    ∀ account, s.Terminated (.account account)) (by
    constructor
    · rintro ⟨md, td, accounts⟩ c ours
      cases c with
      | mdReq => exact md
      | tdReq => exact td
      | account account => exact accounts account
      | mdResponse | tdResponse | data => contradiction
    · exact fun all => ⟨all .mdReq rfl, all .tdReq rfl, fun account => all (.account account) rfl⟩)

instance [Fintype κ] (s : Backtest ι κ) : (action : Action ι κ) → Decidable (s.Orderly action)
  | .stops .cp => inferInstanceAs (Decidable (_ ∧ _))
  | .stops .md | .stops .td => isFalse id
  | .ticks _ | .cpStarts | .cpTakes _ | .cpOrders _ | .cpWrites _ | .cpSends | .cpReturns
  | .mdTakes | .mdServes _
  | .mdReplies | .tdTakes _ | .tdWrites | .tdReplies | .tdReturns => isTrue trivial

/-- The services read their files row by row. -/
def Scripted (files : ι → List Bool) (s : Backtest ι κ) (action : Action ι κ) : Prop :=
  s.Orderly action ∧ ∀ row, action = .mdServes row → ∀ flag service left success,
    s.md = .signalled flag (service :: left) success →
      row = .ofRow (files service)[s.seen .mdReq - 1]?

/-- The steps that a backtest cannot do without. -/
def Drives (s : Backtest ι κ) : Action ι κ → Prop
  | .ticks _ | .cpOrders _ | .tdWrites => False
  | .cpWrites c => s.cp = .ending ∧ ¬ s.Terminated c
  | _ => True

section
variable {s : Backtest ι κ} {c d : Channel ι κ} {msg : Msg} {setup : Setup ι κ}
    {files : ι → List Bool}

theorem publishedRows_succ (file : List Bool) (rounds : Nat) :
    publishedRows file (rounds + 1) = publishedRows file rounds ++ rowMsg file rounds := by
  simp [publishedRows, List.range_succ]

theorem termination_published (file : List Bool) (rounds : Nat) :
    Msg.termination ∈ publishedRows file rounds ↔ file.length < rounds := by
  induction rounds with
  | zero => simp [publishedRows]
  | succ rounds ih =>
    rw [publishedRows_succ, List.mem_append, ih, rowMsg]
    cases row : file[rounds]? with
    | none =>
      have behind := List.getElem?_eq_none_iff.mp row
      simp
      omega
    | some valid =>
      have inside := (List.getElem?_eq_some_iff.mp row).1
      cases valid <;> simp <;> omega

theorem entries_write (s : Backtest ι κ) (c : Channel ι κ) (msg : Msg) (d : Channel ι κ) :
    (s.write c msg).entries d = s.entries d ++ if d = c then [⟨s.time, msg⟩] else [] := by
  by_cases here : d = c
  · subst here
    simp [entries, write]
  · simp [entries, write, here]

theorem terminated_write : (s.write c msg).Terminated d ↔ s.Terminated d ∨ d = c ∧
    msg = .termination := by
  unfold Terminated
  rw [entries_write]
  by_cases here : d = c
  · simp [here, or_and_right, exists_or]
  · simp [here]

theorem terminated_take {e : Entry} {rest : List Entry} (front : s.waiting c = e :: rest) :
    (s.take c).Terminated d ↔ s.Terminated d := by
  unfold Terminated entries
  rw [flags_take front]

theorem tookEnd_take {e : Entry} {rest : List Entry} (front : s.waiting c = e :: rest) :
    (s.take c).TookEnd d ↔ s.TookEnd d ∨ d = c ∧ e.msg = .termination := by
  unfold TookEnd take
  by_cases here : d = c
  · subst here
    simp [front, or_and_right, exists_or]
  · simp [here]

omit [DecidableEq ι] [DecidableEq κ] in
theorem terminated_front {e : Entry} {rest : List Entry} (front : s.waiting c = e :: rest)
    (ends : e.msg = .termination) :
    s.Terminated c :=
  ⟨e, by simp [entries, front], ends⟩

omit [DecidableEq ι] [DecidableEq κ] in
theorem TookEnd.terminated (took : s.TookEnd c) : s.Terminated c := by
  obtain ⟨e, member, ends⟩ := took
  exact ⟨e, List.mem_append_left _ member, ends⟩

omit [DecidableEq ι] [DecidableEq κ] in
theorem terminated_iff : s.Terminated c ↔ Msg.termination ∈ (s.entries c).map Entry.msg := by
  simp [Terminated]

/-! How the engines stop -/

/-- A `Termination` comes from a data service, is passed on by CP alone, and stops who takes it. -/
structure Ends (s : Backtest ι κ) : Prop where
  plain : ¬ s.Terminated .mdResponse ∧ ¬ s.Terminated .tdResponse
  past : s.cp.Over ↔ ∃ i, s.TookEnd (.data i)
  ours : ∀ c : Channel ι κ, c.byCP → s.Terminated c → s.cp.Over
  closed : s.cp = .stopped → ∀ c : Channel ι κ, c.byCP → s.Terminated c
  md : s.md = .stopped ↔ s.TookEnd .mdReq
  td : s.td = .stopped ↔ ∃ c : Channel ι κ, c.reader = .td ∧ s.TookEnd c

namespace Ends

theorem write (ends : s.Ends) (c : Channel ι κ)
    (own : msg = .termination → c.byCP ∧ s.cp.Over ∨ ∃ i, c = .data i) : (s.write c msg).Ends where
  plain := by
    have none (d : Channel ι κ) (other : d.byCP = false ∧ ∀ i, d ≠ .data i)
        (plain : ¬ s.Terminated d) :
        ¬ (s.write c msg).Terminated d := by
      rw [terminated_write]
      rintro (old | ⟨rfl, last⟩)
      · exact plain old
      · rcases own last with ⟨ours, _⟩ | ⟨i, same⟩
        · rw [other.1] at ours
          contradiction
        · exact other.2 i same
    exact ⟨none _ ⟨rfl, by simp⟩ ends.plain.1, none _ ⟨rfl, by simp⟩ ends.plain.2⟩
  past := ends.past
  ours d ours terminated := by
    rcases terminated_write.mp terminated with old | ⟨rfl, last⟩
    · exact ends.ours d ours old
    · rcases own last with ⟨_, past⟩ | ⟨i, rfl⟩
      · exact past
      · contradiction
  closed stopped d ours := terminated_write.mpr (.inl (ends.closed stopped d ours))
  md := ends.md
  td := ends.td

omit [DecidableEq ι] [DecidableEq κ] in
theorem cpMoves (ends : s.Ends) {cp : CPAt} (same : cp.Over ↔ s.cp.Over)
    (closed : cp = .stopped → ∀ c : Channel ι κ, c.byCP → s.Terminated c) : Ends { s with cp } :=
  ⟨ends.plain, same.trans ends.past, fun c ours terminated =>
    same.mpr (ends.ours c ours terminated), closed, ends.md, ends.td⟩

omit [DecidableEq ι] [DecidableEq κ] in
theorem mdMoves (ends : s.Ends) {md : MDAt ι} (same : md = .stopped ↔ s.md = .stopped) :
    Ends { s with md } :=
  ⟨ends.plain, ends.past, ends.ours, ends.closed, same.trans ends.md, ends.td⟩

omit [DecidableEq ι] [DecidableEq κ] in
theorem tdMoves (ends : s.Ends) {td : TDAt} (same : td = .stopped ↔ s.td = .stopped) :
    Ends { s with td } :=
  ⟨ends.plain, ends.past, ends.ours, ends.closed, ends.md, same.trans ends.td⟩

theorem sends (ends : s.Ends) (running : ¬ s.cp.Over) (c : Channel ι κ) (flag : BacktestSyncFlag) :
    Ends { s.signal c flag with cp := .idle } := by
  have written : (s.write c (.signal flag)).Ends := ends.write c (by simp)
  have idle : CPAt.idle.Over ↔ (s.write c (.signal flag)).cp.Over :=
    iff_of_false (by simp [CPAt.Over]) running
  have moved := written.cpMoves idle (by simp)
  exact ⟨moved.plain, moved.past, moved.ours, moved.closed, moved.md, moved.td⟩

theorem cpTakes (ends : s.Ends) (idle : s.cp = .idle) (reads : c.reader = .cp) {e : Entry}
    {rest : List Entry}
    (front : s.waiting c = e :: rest) : Ends { s.take c with cp := .after e.msg } := by
  have still : ¬ s.cp.Over := by simp [idle, CPAt.Over]
  have past : (CPAt.after e.msg).Over ↔ e.msg = .termination := by
    cases e.msg <;> simp [CPAt.after, CPAt.Over]
  have data (last : e.msg = .termination) : ∃ i, c = .data i := by
    have terminated := terminated_front front last
    cases c with
    | mdResponse => exact absurd terminated ends.plain.1
    | tdResponse => exact absurd terminated ends.plain.2
    | data i => exact ⟨i, rfl⟩
    | mdReq | tdReq | account => contradiction
  have other (d : Channel ι κ) (elsewhere : d.reader ≠ .cp) :
      (s.take c).TookEnd d ↔ s.TookEnd d := by
    rw [tookEnd_take front]
    refine or_iff_left ?_
    rintro ⟨rfl, _⟩
    exact elsewhere reads
  refine ⟨?_, ?_, fun d ours terminated => ?_, fun stopped => ?_,
    ends.md.trans (other _ (by simp [Channel.reader])).symm,
    ends.td.trans (exists_congr fun d => and_congr_right fun reads => ?_)⟩
  · have plain := ends.plain
    rwa [← terminated_take front, ← terminated_take front] at plain
  · change (CPAt.after e.msg).Over ↔ ∃ i, (s.take c).TookEnd (.data i)
    rw [past]
    constructor
    · intro last
      obtain ⟨i, rfl⟩ := data last
      exact ⟨i, (tookEnd_take front).mpr (.inr ⟨rfl, last⟩)⟩
    · rintro ⟨i, took⟩
      rcases (tookEnd_take front).mp took with old | ⟨_, last⟩
      · exact absurd (ends.past.mpr ⟨i, old⟩) still
      · exact last
  · exact absurd (ends.ours d ours ((terminated_take front).mp terminated)) still
  · have never : ∀ msg, CPAt.after msg ≠ .stopped := by
      intro msg
      cases msg <;> simp [CPAt.after]
    exact absurd stopped (never e.msg)
  · exact (other d (by simp [reads])).symm

theorem mdTakes (ends : s.Ends) (idle : s.md = .idle) (services : List ι) {e : Entry}
    {rest : List Entry} (front : s.waiting .mdReq = e :: rest) :
      Ends { s.take .mdReq with md := .after services e.msg } := by
  have still : ¬ s.TookEnd .mdReq := by
    rw [← ends.md, idle]
    simp
  have stopped : MDAt.after services e.msg = .stopped ↔ e.msg = .termination := by
    cases e.msg <;> simp [MDAt.after]
  have other (d : Channel ι κ) (elsewhere : d ≠ .mdReq) :
      (s.take .mdReq).TookEnd d ↔ s.TookEnd d := by
    rw [tookEnd_take front]
    exact or_iff_left fun here => elsewhere here.1
  refine ⟨?_, ends.past.trans (exists_congr fun i => (other _ (by simp)).symm),
    fun d ours terminated => ?_,
    fun stopped d ours => ?_, ?_,
      ends.td.trans (exists_congr fun d => and_congr_right fun reads => ?_)⟩
  · have plain := ends.plain
    rwa [← terminated_take front, ← terminated_take front] at plain
  · exact ends.ours d ours ((terminated_take front).mp terminated)
  · exact (terminated_take front).mpr (ends.closed stopped d ours)
  · change MDAt.after services e.msg = .stopped ↔ (s.take .mdReq).TookEnd .mdReq
    rw [stopped, tookEnd_take front]
    simp [still]
  · refine (other d ?_).symm
    rintro rfl
    simp [Channel.reader] at reads

theorem tdTakes (ends : s.Ends) (idle : s.td = .idle) (reads : c.reader = .td) {e : Entry}
    {rest : List Entry}
    (front : s.waiting c = e :: rest) : Ends { s.take c with td := .after e.msg } := by
  have still : ¬ ∃ c : Channel ι κ, c.reader = .td ∧ s.TookEnd c := by
    rw [← ends.td, idle]
    simp
  have stopped : TDAt.after e.msg = .stopped ↔ e.msg = .termination := by
    cases e.msg <;> simp [TDAt.after]
  have other (d : Channel ι κ) (elsewhere : d.reader ≠ .td) :
      (s.take c).TookEnd d ↔ s.TookEnd d := by
    rw [tookEnd_take front]
    refine or_iff_left ?_
    rintro ⟨rfl, _⟩
    exact elsewhere reads
  refine ⟨?_, ends.past.trans (exists_congr fun i => (other _ (by simp [Channel.reader])).symm),
    fun d ours terminated => ?_,
    fun stopped d ours => ?_, ends.md.trans (other _ (by simp [Channel.reader])).symm, ?_⟩
  · have plain := ends.plain
    rwa [← terminated_take front, ← terminated_take front] at plain
  · exact ends.ours d ours ((terminated_take front).mp terminated)
  · exact (terminated_take front).mpr (ends.closed stopped d ours)
  · change TDAt.after e.msg = .stopped ↔ ∃ d : Channel ι κ, d.reader = .td ∧ (s.take c).TookEnd d
    rw [stopped]
    constructor
    · exact fun last => ⟨c, reads, (tookEnd_take front).mpr (.inr ⟨rfl, last⟩)⟩
    · rintro ⟨d, own, took⟩
      rcases (tookEnd_take front).mp took with old | ⟨_, last⟩
      · exact absurd ⟨d, own, old⟩ still
      · exact last

end Ends

theorem act_ends (ends : s.Ends) (action : Action ι κ) (enabled : s.Enabled action)
    (scripted : s.Scripted files action) :
    (act setup s action).Ends := by
  cases action with
  | ticks time => exact ⟨ends.plain, ends.past, ends.ours, ends.closed, ends.md, ends.td⟩
  | cpStarts =>
    have starting : s.cp = .starting := enabled
    exact ends.sends (by simp [starting, CPAt.Over]) .mdReq .marketData
  | cpTakes c =>
    obtain ⟨idle, reads, some⟩ := enabled
    obtain ⟨e, rest, front⟩ := List.exists_cons_of_ne_nil some
    simp only [act, front]
    exact ends.cpTakes idle reads front
  | cpOrders account =>
    simp only [act]
    split <;> exact ends.write _ (by simp)
  | cpWrites c =>
    obtain ⟨ours, _⟩ := enabled
    refine ends.write c fun last => .inl ⟨ours, ?_⟩
    by_cases ending : s.cp = .ending
    · exact .inl ending
    · simp [ending] at last
  | cpSends =>
    obtain ⟨flag, signalled⟩ := enabled
    have running : ¬ s.cp.Over := by simp [signalled, CPAt.Over]
    simp only [act, signalled]
    cases flag with
    | marketData => exact ends.sends running .tdReq .matchOrder
    | matchOrder => exact ends.sends running .mdReq .marketData
  | cpReturns =>
    obtain ⟨bar, handling⟩ := enabled
    exact ends.cpMoves (by simp [handling, CPAt.Over]) (by simp)
  | mdTakes =>
    obtain ⟨idle, some⟩ := enabled
    obtain ⟨e, rest, front⟩ := List.exists_cons_of_ne_nil some
    simp only [act, front]
    exact ends.mdTakes idle setup.services front
  | mdServes row =>
    obtain ⟨flag, service, left, success, signalled⟩ := enabled
    simp only [act, signalled]
    cases row with
    | bar => exact (ends.write _ (by simp)).mdMoves (by simp [write, signalled])
    | invalid => exact ends.mdMoves (by simp [signalled])
    | ended =>
      exact (ends.write _ fun _ => .inr ⟨service, rfl⟩).mdMoves (by simp [write, signalled])
  | mdReplies =>
    obtain ⟨flag, success, signalled⟩ := enabled
    simp only [act, signalled]
    cases success with
    | true => exact (ends.write _ (by simp)).mdMoves (by simp [write, signalled])
    | false => exact ends.mdMoves (by simp [signalled])
  | tdTakes c =>
    obtain ⟨idle, reads, some⟩ := enabled
    obtain ⟨e, rest, front⟩ := List.exists_cons_of_ne_nil some
    simp only [act, front]
    exact ends.tdTakes idle reads front
  | tdWrites => exact ends.write _ (by simp)
  | tdReplies =>
    obtain ⟨flag, signalled⟩ := enabled
    simp only [act, signalled]
    exact (ends.write _ (by simp)).tdMoves (by simp [write, signalled])
  | tdReturns =>
    have handling : s.td = .handling := enabled
    exact ends.tdMoves (by simp [handling])
  | stops engine =>
    cases engine with
    | md | td => exact absurd scripted.1 id
    | cp =>
      obtain ⟨ending, all⟩ := scripted.1
      exact ends.cpMoves (by simp [ending, CPAt.Over]) fun _ => all

omit [DecidableEq ι] [DecidableEq κ] in
theorem start_ends : (start : Backtest ι κ).Ends where
  plain := by simp [Terminated, entries, start]
  past := by simp [TookEnd, start, CPAt.Over]
  ours := by simp [Terminated, entries, start]
  closed := by simp [start]
  md := by simp [TookEnd, start]
  td := by simp [TookEnd, start]

/-! The rounds of the data services -/

/-- The services that MD has not called yet in this round. -/
def MDAt.left : MDAt ι → List ι
  | .signalled _ left _ => left
  | _ => []

/-- The rows that a service has been asked for. -/
def served (services : List ι) (s : Backtest ι κ) (service : ι) : Nat :=
  if service ∈ services then if service ∈ s.md.left then s.seen .mdReq - 1 else s.seen .mdReq else 0

omit [DecidableEq κ] in
theorem served_congr {t : Backtest ι κ} (left : t.md.left = s.md.left)
    (seen : t.seen .mdReq = s.seen .mdReq)
    (services : List ι) (i : ι) : t.served services i = s.served services i := by
  rw [served, served, left, seen]

/-- A signal asks for rows that no service has been called for yet. -/
theorem served_mdTakes (services : List ι) (idle : s.md = .idle) {e : Entry} {rest : List Entry}
    (front : s.waiting .mdReq = e :: rest) (i : ι) :
    served services { s.take .mdReq with md := .after services e.msg } i = s.served services i := by
  have seen : (s.take .mdReq).seen .mdReq = s.seen .mdReq + if e.msg.isSignal then 1 else 0 := by
    rw [seen_take front]
    simp
  have plain (quiet : e.msg.isSignal = false) (left : (MDAt.after services e.msg).left = []) :
      served services { s.take .mdReq with md := .after services e.msg } i =
        s.served services i := by
    have none : s.md.left = [] := by rw [idle]; rfl
    exact served_congr (t := { s.take .mdReq with md := .after services e.msg })
      (left.trans none.symm)
      (seen.trans (by simp [quiet])) services i
  cases msg : e.msg with
  | signal flag =>
    rw [served, served, idle]
    change (if _ then if i ∈ services then (s.take .mdReq).seen .mdReq - 1 else _ else _) = _
    rw [seen, msg]
    by_cases called : i ∈ services <;> simp [called, MDAt.left, Msg.isSignal]
  | bar | order | termination | other =>
    rw [← msg]
    exact plain (by rw [msg]; rfl) (by rw [msg]; rfl)

/-- Each service has written what it found in as many rows as it was asked for, MD has answered no
more rounds than the shortest file has rows, and it answers none in which a file has ended. -/
structure Course (setup : Setup ι κ) (files : ι → List Bool) (n : Nat)
    (s : Backtest ι κ) : Prop where
  journal :
    ∀ i, (s.entries (.data i)).map Entry.msg = publishedRows (files i) (s.served setup.services i)
  answers : s.written .mdResponse ≤ n
  serving : ∀ flag left success, s.md = .signalled flag left success → 0 < s.seen .mdReq ∧
    ∃ before, setup.services = before ++ left ∧
      (success = true → ∀ i ∈ before, s.seen .mdReq ≤ (files i).length) ∧
      (success = false → ∃ i, s.Terminated (.data i))

namespace Course

variable {s' : Backtest ι κ} {n : Nat}

omit [DecidableEq κ] in
/-- Steps of the other engines. -/
theorem congr (course : s.Course setup files n)
    (data : ∀ i, (s'.entries (.data i)).map Entry.msg = (s.entries (.data i)).map Entry.msg)
    (md : s'.md = s.md) (seen : s'.seen .mdReq = s.seen .mdReq)
    (answers : s'.written .mdResponse = s.written .mdResponse) :
    s'.Course setup files n where
  journal i := by
    rw [data, course.journal, served, served, md, seen]
  answers := answers.trans_le course.answers
  serving flag left success signalled := by
    rw [md] at signalled
    obtain ⟨some, before, split, complete, ended⟩ := course.serving flag left success signalled
    rw [seen]
    refine ⟨some, before, split, complete, fun failed => ?_⟩
    obtain ⟨i, terminated⟩ := ended failed
    refine ⟨i, ?_⟩
    rwa [terminated_iff, data, ← terminated_iff]

theorem write (course : s.Course setup files n) {c : Channel ι κ} (elsewhere : ∀ i, c ≠ .data i)
    (answer : c = .mdResponse → msg.isSignal = false) : (s.write c msg).Course setup files n := by
  refine course.congr (fun i => ?_) rfl rfl ?_
  · rw [entries_write, if_neg fun here => elsewhere i here.symm, List.append_nil]
  · rw [written_write, if_neg, Nat.add_zero]
    rintro ⟨rfl, signal⟩
    rw [answer rfl] at signal
    contradiction

theorem take (course : s.Course setup files n) {e : Entry} {rest : List Entry}
    (front : s.waiting c = e :: rest)
    (elsewhere : c ≠ .mdReq) : (s.take c).Course setup files n := by
  refine course.congr (fun i => ?_) rfl ?_ (written_take front _)
  · rw [entries, flags_take front, entries]
  · rw [seen_take front, if_neg fun here => elsewhere here.1.symm, Nat.add_zero]

theorem mdTakes (course : s.Course setup files n) (idle : s.md = .idle) {e : Entry}
    {rest : List Entry} (front : s.waiting .mdReq = e :: rest) :
    Course setup files n { s.take .mdReq with md := .after setup.services e.msg } := by
  have next : (s.take .mdReq).seen .mdReq = s.seen .mdReq + if e.msg.isSignal then 1 else 0 := by
    rw [seen_take front]
    simp
  refine ⟨fun i => ?_, (written_take front _).trans_le course.answers,
    fun flag left success signalled => ?_⟩
  · rw [served_mdTakes setup.services idle front, ← course.journal, entries, entries]
    exact congrArg (List.map Entry.msg) (flags_take front (.data i))
  · change MDAt.after setup.services e.msg = .signalled flag left success at signalled
    change 0 < (s.take .mdReq).seen .mdReq ∧ _
    rw [next]
    cases msg : e.msg with
    | signal flag =>
      rw [msg] at signalled
      cases signalled
      exact ⟨Nat.succ_pos _, [], rfl, by simp, by simp⟩
    | bar | order | termination | other =>
      rw [msg] at signalled
      cases signalled

omit [DecidableEq κ] in
/-- A service has been asked for one row more. -/
theorem served_next {services left : List ι} {service : ι} {t : Backtest ι κ}
    (called : service ∈ services) (once : service ∉ left)
    (some : 0 < s.seen .mdReq) (before : s.md.left = service :: left) (after : t.md.left = left)
    (seen : t.seen .mdReq = s.seen .mdReq) (i : ι) :
    t.served services i = s.served services i + if i = service then 1 else 0 := by
  rw [served, served, before, after, seen]
  by_cases same : i = service
  · subst same
    simp [called, once]
    omega
  · simp [same]

theorem mdServes (course : s.Course setup files n) (distinct : setup.services.Nodup)
    {flag : BacktestSyncFlag} {service : ι} {left : List ι} {success : Bool}
    (signalled : s.md = .signalled flag (service :: left) success) :
    (s.serve flag service left success (.ofRow (files service)[s.seen .mdReq - 1]?)).Course
      setup files n := by
  obtain ⟨some, before, split, complete, ended⟩ := course.serving flag _ success signalled
  have split' : setup.services = (before ++ [service]) ++ left := by simpa using split
  have called : service ∈ setup.services := by simp [split]
  have once : service ∉ left := by
    rw [split, List.nodup_append, List.nodup_cons] at distinct
    exact distinct.2.1.1
  have asked : s.served setup.services service = s.seen .mdReq - 1 := by
    simp [served, called, signalled, MDAt.left]
  have journal (t : Backtest ι κ) (after : t.md.left = left) (seen : t.seen .mdReq = s.seen .mdReq)
      (adds : ∀ i, (t.entries (.data i)).map Entry.msg =
        (s.entries (.data i)).map Entry.msg ++ if i = service then
          rowMsg (files service) (s.seen .mdReq - 1) else []) (i : ι) :
      (t.entries (.data i)).map Entry.msg =
        publishedRows (files i) (t.served setup.services i) := by
    rw [adds, course.journal, served_next called once some (by rw [signalled]; rfl) after seen]
    by_cases same : i = service
    · subst same
      rw [if_pos rfl, if_pos rfl, publishedRows_succ, asked]
    · rw [if_neg same, if_neg same, List.append_nil, Nat.add_zero]
  have writes (msg : Msg) (i : ι) :
      ((s.write (.data service) msg).entries (.data i)).map Entry.msg =
      (s.entries (.data i)).map Entry.msg ++ if i = service then [msg] else [] := by
    rw [entries_write]
    by_cases same : i = service <;> simp [same]
  have answers (msg : Msg) : (s.write (.data service) msg).written .mdResponse ≤ n := by
    rw [written_write]
    simpa using course.answers
  have inside {valid : Bool} (row : (files service)[s.seen .mdReq - 1]? = Option.some valid)
      (yes : success = true) :
      ∀ i ∈ before ++ [service], s.seen .mdReq ≤ (files i).length := by
    intro i member
    rcases List.mem_append.mp member with old | new
    · exact complete yes i old
    · have bound := (List.getElem?_eq_some_iff.mp row).1
      rw [List.mem_singleton.mp new]
      omega
  cases row : (files service)[s.seen .mdReq - 1]? with
  | none =>
    refine ⟨journal _ rfl rfl fun i => ?_, answers .termination, fun f l b same => ?_⟩
    · rw [rowMsg, row]
      exact writes .termination i
    · cases same
      have terminated : (s.write (.data service) .termination).Terminated (.data service) :=
        terminated_write.mpr (.inr ⟨rfl, rfl⟩)
      exact ⟨some, _, split', by simp, fun _ => ⟨service, terminated⟩⟩
  | some valid =>
    cases valid with
    | true =>
      refine ⟨journal _ rfl rfl fun i => ?_, answers (.bar (s.seen .mdReq)), fun f l b same => ?_⟩
      · rw [rowMsg, row, Nat.sub_add_cancel some]
        exact writes (.bar (s.seen .mdReq)) i
      · cases same
        refine ⟨some, _, split', inside row, fun failed => ?_⟩
        obtain ⟨i, terminated⟩ := ended failed
        exact ⟨i, terminated_write.mpr (.inl terminated)⟩
    | false =>
      refine ⟨journal _ rfl rfl fun i => ?_, course.answers, fun f l b same => ?_⟩
      · rw [rowMsg, row, ite_self, List.append_nil]
        rfl
      · cases same
        exact ⟨some, _, split', inside row, ended⟩

/-- MD answers a round when no file has ended in it. -/
theorem mdReplies (course : s.Course setup files n) (token : s.Token)
    (shortest : ∃ i ∈ setup.services, (files i).length = n)
    {flag : BacktestSyncFlag} {success : Bool} (signalled : s.md = .signalled flag [] success) :
    (act setup s .mdReplies).Course setup files n := by
  obtain ⟨some, before, split, complete, ended⟩ := course.serving flag _ success signalled
  rw [List.append_nil] at split
  have same (t : Backtest ι κ) (seen : t.seen .mdReq = s.seen .mdReq) (md : t.md = .idle) (i : ι) :
      t.served setup.services i = s.served setup.services i := by
    rw [served, served, seen, md, signalled]
    rfl
  simp only [act, signalled]
  cases success with
  | false =>
    have journal (i : ι) :=
      (course.journal i).trans
        (congrArg (publishedRows (files i)) (same { s with md := .idle } rfl rfl i).symm)
    exact ⟨journal, course.answers, by simp⟩
  | true =>
    refine ⟨fun i => ?_, ?_, by simp⟩
    · have journal := (course.journal i).trans
        (congrArg (publishedRows (files i))
          (same { s.write .mdResponse (.signal flag) with md := .idle } rfl rfl i).symm)
      rw [← journal]
      change ((s.write .mdResponse (.signal flag)).entries (.data i)).map Entry.msg = _
      rw [entries_write]
      simp
    · obtain ⟨i, member, length⟩ := shortest
      have rows := complete rfl i (split ▸ member)
      have md := token.md
      rw [signalled] at md
      have busy : (MDAt.signalled flag ([] : List ι) true).busy = 1 := rfl
      change (s.write .mdResponse (.signal flag)).written .mdResponse ≤ n
      rw [written_write]
      simp only [Msg.isSignal, and_self, if_true]
      omega

end Course

theorem act_course {n : Nat} (course : s.Course setup files n) (token : s.Token)
    (distinct : setup.services.Nodup)
    (shortest : ∃ i ∈ setup.services, (files i).length = n) (action : Action ι κ)
    (enabled : s.Enabled action)
    (scripted : s.Scripted files action) : (act setup s action).Course setup files n := by
  have aside {t u : Backtest ι κ} (kept : t.Course setup files n) (passed : u.passed = t.passed)
      (waiting : u.waiting = t.waiting) (md : u.md = t.md) : u.Course setup files n :=
    kept.congr (fun i => by rw [entries, entries, passed, waiting]) md (by rw [seen, seen, passed])
      (by rw [written, written, seen, seen, pending, pending, passed, waiting])
  cases action with
  | ticks time => exact aside course rfl rfl rfl
  | cpStarts =>
    exact aside (course.write (by simp)
      (by simp) : (s.write .mdReq (.signal .marketData)).Course setup files n) rfl rfl rfl
  | cpTakes c =>
    obtain ⟨_, reads, some⟩ := enabled
    obtain ⟨e, rest, front⟩ := List.exists_cons_of_ne_nil some
    simp only [act, front]
    refine aside (course.take front ?_) rfl rfl rfl
    rintro rfl
    simp [Channel.reader] at reads
  | cpOrders account =>
    simp only [act]
    split <;> exact course.write (by simp) (by simp)
  | cpWrites c =>
    obtain ⟨ours, _⟩ := enabled
    refine course.write (fun i here => ?_) (fun _ => by split <;> rfl)
    rw [here] at ours
    contradiction
  | cpSends =>
    obtain ⟨flag, signalled⟩ := enabled
    simp only [act, signalled]
    cases flag with
    | marketData =>
      exact aside (course.write (by simp)
        (by simp) : (s.write .tdReq (.signal .matchOrder)).Course setup files n) rfl rfl rfl
    | matchOrder =>
      exact aside (course.write (by simp)
        (by simp) : (s.write .mdReq (.signal .marketData)).Course setup files n) rfl rfl rfl
  | cpReturns => exact aside course rfl rfl rfl
  | mdTakes =>
    obtain ⟨idle, some⟩ := enabled
    obtain ⟨e, rest, front⟩ := List.exists_cons_of_ne_nil some
    simp only [act, front]
    exact course.mdTakes idle front
  | mdServes row =>
    obtain ⟨flag, service, left, success, signalled⟩ := enabled
    obtain rfl := scripted.2 _ rfl flag service left success signalled
    simp only [act, signalled]
    exact course.mdServes distinct signalled
  | mdReplies =>
    obtain ⟨flag, success, signalled⟩ := enabled
    exact course.mdReplies token shortest signalled
  | tdTakes c =>
    obtain ⟨_, reads, some⟩ := enabled
    obtain ⟨e, rest, front⟩ := List.exists_cons_of_ne_nil some
    simp only [act, front]
    refine aside (course.take front ?_) rfl rfl rfl
    rintro rfl
    simp [Channel.reader] at reads
  | tdWrites => exact course.write (by simp) (by simp)
  | tdReplies =>
    obtain ⟨flag, signalled⟩ := enabled
    simp only [act, signalled]
    exact aside (course.write (by simp)
      (by simp) : (s.write .tdResponse (.signal flag)).Course setup files n) rfl rfl rfl
  | tdReturns => exact aside course rfl rfl rfl
  | stops engine =>
    cases engine with
    | md | td => exact absurd scripted.1 id
    | cp => exact aside course rfl rfl rfl

omit [DecidableEq κ] in
theorem start_course (setup : Setup ι κ) (files : ι → List Bool) (n : Nat) :
    (start : Backtest ι κ).Course setup files n where
  journal i := by
    have none : (start : Backtest ι κ).served setup.services i = 0 := by
      rw [served]
      split <;> rfl
    rw [none]
    rfl
  answers := Nat.zero_le _
  serving := by simp [start]

/-! Nothing is stuck -/

/-- The signal is in a journal or in a handler. -/
def Alive (s : Backtest ι κ) : Prop :=
  s.cp = .starting ∨ (∃ c, 0 < s.pending c) ∨ s.md.busy = 1 ∨ (∃ flag, s.td = .signalled flag) ∨
    ∃ flag, s.cp = .signalled flag

namespace Alive

variable {t : Backtest ι κ}

omit [DecidableEq ι] [DecidableEq κ] in
/-- Where the engines of the signal have not changed. -/
theorem congr (alive : s.Alive) (pending : ∀ c, s.pending c ≤ t.pending c)
    (cp : s.cp = .starting ∨ (∃ flag, s.cp = .signalled flag) → t.cp = s.cp)
    (md : s.md.busy = 1 → t.md.busy = 1)
    (td : (∃ flag, s.td = .signalled flag) → t.td = s.td) : t.Alive := by
  rcases alive with starting | ⟨c, some⟩ | busy | ⟨flag, signalled⟩ | ⟨flag, signalled⟩
  · exact .inl ((cp (.inl starting)).trans starting)
  · exact .inr (.inl ⟨c, some.trans_le (pending c)⟩)
  · exact .inr (.inr (.inl (md busy)))
  · exact .inr (.inr (.inr (.inl ⟨flag, (td ⟨flag, signalled⟩).trans signalled⟩)))
  · exact .inr (.inr (.inr (.inr ⟨flag, (cp (.inr ⟨flag, signalled⟩)).trans signalled⟩)))

theorem write (alive : s.Alive) (c : Channel ι κ) (msg : Msg) : (s.write c msg).Alive :=
  alive.congr (fun d => by rw [pending_write]; exact Nat.le_add_right _ _)
    (fun _ => rfl) id fun _ => rfl

/-- A signal has been written. -/
theorem sent (flag : BacktestSyncFlag) {cp : CPAt} {md : MDAt ι} {td : TDAt}
    {sent : List (Channel ι κ × BacktestSyncFlag)} :
    Alive { s.write c (.signal flag) with cp, md, td, sent } := by
  refine .inr (.inl ⟨c, ?_⟩)
  change 0 < (s.write c (.signal flag)).pending c
  rw [pending_write]
  simp [Msg.isSignal]

end Alive

theorem pending_plain {e : Entry} {rest : List Entry} (front : s.waiting c = e :: rest)
    (plain : e.msg.isSignal = false) (d : Channel ι κ) : s.pending d ≤ (s.take c).pending d := by
  have before := pending_take front d
  simp only [plain, Bool.false_eq_true, and_false, if_false, Nat.add_zero] at before
  exact before.ge

/-- The signal is there until a file has ended. -/
theorem act_alive {n : Nat} (course : s.Course setup files n) (alive : s.Alive)
    (action : Action ι κ) (enabled : s.Enabled action) (scripted : s.Scripted files action) :
      (act setup s action).Alive ∨ ∃ i, s.Terminated (.data i) := by
  cases action with
  | ticks time => exact .inl alive
  | cpStarts => exact .inl (Alive.sent (s := s) .marketData)
  | cpTakes c =>
    obtain ⟨idle, _, some⟩ := enabled
    obtain ⟨e, rest, front⟩ := List.exists_cons_of_ne_nil some
    simp only [act, front]
    refine .inl ?_
    cases msg : e.msg with
    | signal flag => exact .inr (.inr (.inr (.inr ⟨flag, rfl⟩)))
    | bar | order | termination | other =>
      exact alive.congr (pending_plain front (by rw [msg]; rfl)) (by simp [idle]) id fun _ => rfl
  | cpOrders account =>
    simp only [act]
    split <;> exact .inl (alive.write _ _)
  | cpWrites c => exact .inl (alive.write _ _)
  | cpSends =>
    obtain ⟨flag, signalled⟩ := enabled
    simp only [act, signalled]
    cases flag with
    | marketData => exact .inl (Alive.sent .matchOrder)
    | matchOrder => exact .inl (Alive.sent .marketData)
  | cpReturns =>
    obtain ⟨bar, handling⟩ := enabled
    exact .inl (alive.congr (fun _ => le_refl _) (by simp [handling]) id fun _ => rfl)
  | mdTakes =>
    obtain ⟨idle, some⟩ := enabled
    obtain ⟨e, rest, front⟩ := List.exists_cons_of_ne_nil some
    simp only [act, front]
    refine .inl ?_
    cases msg : e.msg with
    | signal flag => exact .inr (.inr (.inl rfl))
    | bar | order | termination | other =>
      exact alive.congr (pending_plain front (by rw [msg]; rfl)) (fun _ => rfl)
        (by simp [idle, MDAt.busy]) fun _ => rfl
  | mdServes row =>
    obtain ⟨flag, service, left, success, signalled⟩ := enabled
    simp only [act, signalled]
    cases row <;> exact .inl (.inr (.inr (.inl rfl)))
  | mdReplies =>
    obtain ⟨flag, success, signalled⟩ := enabled
    obtain ⟨_, _, _, _, ended⟩ := course.serving flag _ success signalled
    simp only [act, signalled]
    cases success with
    | true => exact .inl (Alive.sent flag)
    | false => exact .inr (ended rfl)
  | tdTakes c =>
    obtain ⟨idle, _, some⟩ := enabled
    obtain ⟨e, rest, front⟩ := List.exists_cons_of_ne_nil some
    simp only [act, front]
    refine .inl ?_
    cases msg : e.msg with
    | signal flag => exact .inr (.inr (.inr (.inl ⟨flag, rfl⟩)))
    | bar | order | termination | other =>
      exact alive.congr (pending_plain front (by rw [msg]; rfl)) (fun _ => rfl) id (by simp [idle])
  | tdWrites => exact .inl (alive.write _ _)
  | tdReplies =>
    obtain ⟨flag, signalled⟩ := enabled
    simp only [act, signalled]
    exact .inl (Alive.sent flag)
  | tdReturns =>
    have handling : s.td = .handling := enabled
    exact .inl (alive.congr (fun _ => le_refl _) (fun _ => rfl) id (by simp [handling]))
  | stops engine =>
    cases engine with
    | md | td => exact absurd scripted.1 id
    | cp =>
      obtain ⟨ending, _⟩ := scripted.1
      exact .inl (alive.congr (fun _ => le_refl _) (by simp [ending]) id fun _ => rfl)

theorem act_terminated (action : Action ι κ) (enabled : s.Enabled action)
    (terminated : s.Terminated d) :
    (act setup s action).Terminated d := by
  have writes (c : Channel ι κ) (msg : Msg) : (s.write c msg).Terminated d :=
    terminated_write.mpr (.inl terminated)
  have takes {c : Channel ι κ} {e : Entry} {rest : List Entry} (front : s.waiting c = e :: rest) :
      (s.take c).Terminated d :=
    (terminated_take front).mpr terminated
  cases action with
  | ticks | cpReturns | tdReturns => exact terminated
  | cpStarts | cpWrites | tdWrites => exact writes _ _
  | cpTakes c =>
    obtain ⟨_, _, some⟩ := enabled
    obtain ⟨e, rest, front⟩ := List.exists_cons_of_ne_nil some
    simp only [act, front]
    exact takes front
  | cpOrders account =>
    simp only [act]
    split <;> exact writes _ _
  | cpSends =>
    simp only [act]
    split
    · exact writes _ _
    · exact writes _ _
    · exact terminated
  | mdTakes =>
    obtain ⟨_, some⟩ := enabled
    obtain ⟨e, rest, front⟩ := List.exists_cons_of_ne_nil some
    simp only [act, front]
    exact takes front
  | mdServes row =>
    obtain ⟨flag, service, left, success, signalled⟩ := enabled
    simp only [act, signalled]
    cases row with
    | bar | ended => exact writes _ _
    | invalid => exact terminated
  | mdReplies =>
    simp only [act]
    split
    · exact writes _ _
    · exact terminated
  | tdTakes c =>
    obtain ⟨_, _, some⟩ := enabled
    obtain ⟨e, rest, front⟩ := List.exists_cons_of_ne_nil some
    simp only [act, front]
    exact takes front
  | tdReplies =>
    simp only [act]
    split
    · exact writes _ _
    · exact terminated
  | stops engine => cases engine <;> exact terminated

def Stopped (s : Backtest ι κ) : Prop := s.cp = .stopped ∧ s.md = .stopped ∧ s.td = .stopped

instance (s : Backtest ι κ) : Decidable s.Stopped := inferInstanceAs (Decidable (_ ∧ _ ∧ _))

omit [DecidableEq ι] [DecidableEq κ] in
/-- No engine that waits has a frame to take. -/
theorem Ends.starved (ends : s.Ends) (alive : s.Alive ∨ ∃ i, s.Terminated (.data i))
    (cp : s.cp = .idle ∨ s.cp = .stopped)
    (md : s.md = .idle ∨ s.md = .stopped) (td : s.td = .idle ∨ s.td = .stopped)
    (cpNone : s.cp = .idle → ∀ c : Channel ι κ, c.reader = .cp → s.waiting c = [])
    (mdNone : s.md = .idle → s.waiting .mdReq = [])
    (tdNone : s.td = .idle → ∀ c : Channel ι κ, c.reader = .td → s.waiting c = []) : s.Stopped := by
  have took {c : Channel ι κ} (none : s.waiting c = []) (terminated : s.Terminated c) :
      s.TookEnd c := by
    obtain ⟨e, member, last⟩ := terminated
    rw [entries, none, List.append_nil] at member
    exact ⟨e, member, last⟩
  rcases cp with idle | stopped
  · -- CP has not been told to end, so neither have the others, and the signal is nowhere.
    have running : ¬ s.cp.Over := by simp [idle, CPAt.Over]
    have mdIdle : s.md = .idle := md.resolve_right fun stopped =>
      running (ends.ours .mdReq rfl (ends.md.mp stopped).terminated)
    have tdIdle : s.td = .idle := td.resolve_right fun stopped => by
      obtain ⟨c, reads, took⟩ := ends.td.mp stopped
      exact running (ends.ours c (by cases c
        <;> simp_all [Channel.reader, Channel.byCP]) took.terminated)
    have none (c : Channel ι κ) : s.waiting c = [] := by
      cases reads : c.reader with
      | cp => exact cpNone idle c reads
      | td => exact tdNone tdIdle c reads
      | md =>
        obtain rfl : c = .mdReq := by cases c <;> simp_all [Channel.reader]
        exact mdNone mdIdle
    rcases alive with alive | ⟨i, terminated⟩
    · rcases alive with starting | ⟨c, some⟩ | busy | ⟨flag, signalled⟩ | ⟨flag, signalled⟩
      · rw [idle] at starting
        contradiction
      · simp [pending, none, signals] at some
      · simp [mdIdle, MDAt.busy] at busy
      · rw [tdIdle] at signalled
        contradiction
      · rw [idle] at signalled
        contradiction
    · exact absurd (ends.past.mpr ⟨i, took (none _) terminated⟩) running
  · -- CP has written a `Termination` to each of its journals, and who has taken it has stopped.
    have closed := ends.closed stopped
    refine ⟨stopped, md.resolve_left fun idle => ?_, td.resolve_left fun idle => ?_⟩
    · have last := ends.md.mpr (took (mdNone idle) (closed .mdReq rfl))
      rw [idle] at last
      contradiction
    · have last := ends.td.mpr ⟨.tdReq, rfl, took (tdNone idle .tdReq rfl) (closed .tdReq rfl)⟩
      rw [idle] at last
      contradiction

omit [DecidableEq ι] [DecidableEq κ] in
theorem Ends.progress (ends : s.Ends) (alive : s.Alive ∨ ∃ i, s.Terminated (.data i)) :
    s.Stopped ∨ ∃ action, s.Enabled action ∧ s.Orderly action ∧ s.Drives action := by
  by_contra stuck
  rw [not_or, not_exists] at stuck
  obtain ⟨running, none⟩ := stuck
  have cp : s.cp = .idle ∨ s.cp = .stopped := by
    cases stage : s.cp with
    | idle => exact .inl rfl
    | stopped => exact .inr rfl
    | starting => exact absurd ⟨stage, trivial, trivial⟩ (none .cpStarts)
    | handling bar => exact absurd ⟨⟨bar, stage⟩, trivial, trivial⟩ (none .cpReturns)
    | signalled flag => exact absurd ⟨⟨flag, stage⟩, trivial, trivial⟩ (none .cpSends)
    | ending =>
      have all : ∀ c : Channel ι κ, c.byCP → s.Terminated c := by
        intro c ours
        by_contra left
        exact none (.cpWrites c) ⟨⟨ours, .inr (.inl stage)⟩, trivial, stage, left⟩
      exact absurd ⟨trivial, ⟨stage, all⟩, trivial⟩ (none (.stops .cp))
  have md : s.md = .idle ∨ s.md = .stopped := by
    cases stage : s.md with
    | idle => exact .inl rfl
    | stopped => exact .inr rfl
    | signalled flag left success =>
      cases left with
      | nil => exact absurd ⟨⟨flag, success, stage⟩, trivial, trivial⟩ (none .mdReplies)
      | cons service left =>
        exact absurd ⟨⟨flag, service, left, success, stage⟩, trivial, trivial⟩
          (none (.mdServes .bar))
  have td : s.td = .idle ∨ s.td = .stopped := by
    cases stage : s.td with
    | idle => exact .inl rfl
    | stopped => exact .inr rfl
    | handling => exact absurd ⟨stage, trivial, trivial⟩ (none .tdReturns)
    | signalled flag => exact absurd ⟨⟨flag, stage⟩, trivial, trivial⟩ (none .tdReplies)
  refine running (ends.starved alive cp md td (fun idle c reads => ?_)
    (fun idle => ?_) fun idle c reads => ?_)
  · by_contra some
    exact none (.cpTakes c) ⟨⟨idle, reads, some⟩, trivial, trivial⟩
  · by_contra some
    exact none .mdTakes ⟨⟨idle, some⟩, trivial, trivial⟩
  · by_contra some
    exact none (.tdTakes c) ⟨⟨idle, reads, some⟩, trivial, trivial⟩

/-- What is known of a backtest whose services read their files. -/
structure Whole (setup : Setup ι κ) (files : ι → List Bool) (n : Nat)
    (s : Backtest ι κ) : Prop where
  token : s.Token
  ends : s.Ends
  course : s.Course setup files n
  alive : s.Alive ∨ ∃ i, s.Terminated (.data i)

theorem Whole.act {n : Nat} (whole : s.Whole setup files n) (distinct : setup.services.Nodup)
    (shortest : ∃ i ∈ setup.services, (files i).length = n) (action : Action ι κ)
    (enabled : s.Enabled action)
    (scripted : s.Scripted files action) : (act setup s action).Whole setup files n where
  token := act_token setup whole.token action enabled
  ends := act_ends whole.ends action enabled scripted
  course := act_course whole.course whole.token distinct shortest action enabled scripted
  alive := by
    have kept :
        (∃ i, s.Terminated (.data i)) → ∃ i, (Backtest.act setup s action).Terminated (.data i) :=
      Exists.imp fun i terminated => act_terminated action enabled terminated
    rcases whole.alive with alive | ended
    · exact (act_alive whole.course alive action enabled scripted).imp_right kept
    · exact .inr (kept ended)

omit [DecidableEq κ] in
theorem served_le (services : List ι) (s : Backtest ι κ) (service : ι) :
    s.served services service ≤ s.seen .mdReq := by
  unfold served
  split
  · split <;> omega
  · exact Nat.zero_le _

/-- What a backtest does whose shortest file has `n` rows: the rounds that CP asks for and that
are answered, and what each service has written in them. -/
structure Lasts (setup : Setup ι κ) (files : ι → List Bool) (n : Nat)
    (s : Backtest ι κ) : Prop where
  signals : s.sent.length ≤ 2 * n + 1
  answers : s.written .mdResponse ≤ n
  bars : ∀ i ∈ setup.services, ∃ rounds ≤ n + 1, (s.entries (.data i)).map Entry.msg =
    publishedRows (files i) rounds
  stopped : s.Stopped → s.written .mdResponse = n ∧ s.written .tdResponse = n ∧
    ∀ i ∈ setup.services, (s.entries (.data i)).map Entry.msg = publishedRows (files i) (n + 1)

omit [DecidableEq κ] in
theorem Whole.seen_le {n : Nat} (whole : s.Whole setup files n) : s.seen .mdReq ≤ n + 1 := by
  have answers := whole.course.answers
  have td := whole.token.td
  have cp := whole.token.cp
  have cp' := whole.token.cp'
  have counts (c : Channel ι κ) : s.seen c ≤ s.written c := Nat.le_add_right _ _
  have mdReq := counts .mdReq
  have mdResponse := counts .mdResponse
  have tdReq := counts .tdReq
  have tdResponse := counts .tdResponse
  omega

omit [DecidableEq κ] in
/-- Every backtest has as many rounds as its shortest file has rows. Each service has written the
bars of its first rows, and in the round behind the last one those that have no row write a
`Termination`. -/
theorem Whole.lasts {n : Nat} (whole : s.Whole setup files n)
    (shortest : IsLeast {rows | ∃ i ∈ setup.services, (files i).length = rows} n) :
      s.Lasts setup files n := by
  have answers := whole.course.answers
  have md := whole.token.md
  have cp := whole.token.cp
  have td := whole.token.td
  have cp' := whole.token.cp'
  have counts (c : Channel ι κ) : s.seen c ≤ s.written c := Nat.le_add_right _ _
  have mdReq := counts .mdReq
  have mdResponse := counts .mdResponse
  have tdReq := counts .tdReq
  have tdResponse := counts .tdResponse
  refine ⟨?_, answers,
    fun i _ => ⟨_, (served_le _ s i).trans whole.seen_le, whole.course.journal i⟩,
    fun stopped => ?_⟩
  · rw [whole.token.sent, turns_length]
    omega
  · obtain ⟨cpStopped, mdStopped, _⟩ := stopped
    obtain ⟨i, took⟩ := whole.ends.past.mp (.inr cpStopped)
    have ended := took.terminated
    rw [terminated_iff, whole.course.journal, termination_published] at ended
    have called : i ∈ setup.services := by
      by_contra absent
      simp [served, absent] at ended
    have rows := shortest.2 ⟨i, called, rfl⟩
    have asked := served_le setup.services s i
    have last : s.seen .mdReq = n + 1 := by omega
    refine ⟨by omega, by omega, fun j member => ?_⟩
    rw [whole.course.journal, served, if_pos member, mdStopped, last]
    rfl

omit [DecidableEq κ] in
theorem start_whole (setup : Setup ι κ) (files : ι → List Bool) (n : Nat) :
    (start : Backtest ι κ).Whole setup files n :=
  ⟨start_token, start_ends, start_course setup files n, .inl (.inl rfl)⟩

end
end BTrader.Backtest
