import BTrader.Engines.Backtest

/-! The sync signal of a backtest is one token: whatever the order of the steps, there is at most
one of it, it goes to MD and TD by turns, and so do the rounds. -/
namespace BTrader.Backtest

variable {ι κ : Type} [DecidableEq ι] [DecidableEq κ]

/-! Counting signals -/

section
variable {s : Backtest ι κ} {c d : Channel ι κ}

theorem pending_write (s : Backtest ι κ) (c : Channel ι κ) (msg : Msg) (d : Channel ι κ) :
    (s.write c msg).pending d = s.pending d + if d = c ∧ msg.isSignal then 1 else 0 := by
  by_cases here : d = c
  · subst here
    simp [write, pending, signals, List.countP_append, List.countP_singleton]
  · simp [write, pending, here]

theorem seen_write (s : Backtest ι κ) (c : Channel ι κ) (msg : Msg) (d : Channel ι κ) :
    (s.write c msg).seen d = s.seen d := rfl

theorem seen_take {e : Entry} {rest : List Entry} (front : s.waiting c = e :: rest)
    (d : Channel ι κ) :
    (s.take c).seen d = s.seen d + if d = c ∧ e.msg.isSignal then 1 else 0 := by
  by_cases here : d = c
  · subst here
    simp [take, seen, signals, front, List.countP_append, List.countP_singleton]
  · simp [take, seen, here]

theorem pending_take {e : Entry} {rest : List Entry} (front : s.waiting c = e :: rest)
    (d : Channel ι κ) :
    (s.take c).pending d + (if d = c ∧ e.msg.isSignal then 1 else 0) = s.pending d := by
  by_cases here : d = c
  · subst here
    simp [take, pending, signals, front, List.countP_cons]
  · simp [take, pending, here]

end

/-! What a step can do -/

/-- An engine is in its `on_backtest_sync_signal`. -/
def CPAt.busy (flag : BacktestSyncFlag) (cp : CPAt) : Nat := if cp = .signalled flag then 1 else 0

def MDAt.busy : MDAt ι → Nat
  | .signalled .. => 1
  | _ => 0

def TDAt.busy : TDAt → Nat
  | .signalled _ => 1
  | _ => 0

/-- The flag of the signals in a journal; there are none in the others. -/
def Channel.flag : Channel ι κ → Option BacktestSyncFlag
  | .mdReq | .mdResponse => some .marketData
  | .tdReq | .tdResponse => some .matchOrder
  | .data _ | .account _ => none

/-- The signals come by turns, for MD first. -/
def turns (n : Nat) : List (Channel ι κ × BacktestSyncFlag) :=
  (List.range n).map fun i => if i % 2 = 0 then (.mdReq, .marketData) else (.tdReq, .matchOrder)

/-- Each engine writes at most the signals that it was sent, CP one more. -/
structure Token (s : Backtest ι κ) : Prop where
  flags : ∀ c, ∀ e ∈ s.passed c ++ s.waiting c, ∀ flag, e.msg = .signal flag → c.flag = some flag
  md : s.written .mdResponse + s.md.busy ≤ s.seen .mdReq
  mdFlag : ∀ flag services success, s.md = .signalled flag services success → flag = .marketData
  cp : s.written .tdReq + s.cp.busy .marketData ≤ s.seen .mdResponse
  td : s.written .tdResponse + s.td.busy ≤ s.seen .tdReq
  tdFlag : ∀ flag, s.td = .signalled flag → flag = .matchOrder
  cp' : s.written .mdReq + s.cp.busy .matchOrder + (if s.cp = .starting then 1 else 0) ≤
    1 + s.seen .tdResponse
  sent : s.sent = turns (s.written .mdReq + s.written .tdReq)

section
variable {s : Backtest ι κ} {c d : Channel ι κ} {msg : Msg} {setup : Setup ι κ}

theorem written_write (s : Backtest ι κ) (c : Channel ι κ) (msg : Msg) (d : Channel ι κ) :
    (s.write c msg).written d = s.written d + if d = c ∧ msg.isSignal then 1 else 0 := by
  rw [written, seen_write, pending_write, written, Nat.add_assoc]

theorem written_take {e : Entry} {rest : List Entry} (front : s.waiting c = e :: rest)
    (d : Channel ι κ) :
    (s.take c).written d = s.written d := by
  have fewer := pending_take front d
  rw [written, seen_take front, written]
  omega

theorem flags_take {e : Entry} {rest : List Entry} (front : s.waiting c = e :: rest)
    (d : Channel ι κ) :
    (s.take c).passed d ++ (s.take c).waiting d = s.passed d ++ s.waiting d := by
  by_cases here : d = c
  · subst here
    simp [take, front]
  · simp [take, here]

omit [DecidableEq ι] [DecidableEq κ] in
theorem turns_length (n : Nat) : (turns n : List (Channel ι κ × BacktestSyncFlag)).length = n := by
  simp [turns]

omit [DecidableEq ι] [DecidableEq κ] in
theorem turns_succ (n : Nat) :
    (turns (n + 1) : List (Channel ι κ × BacktestSyncFlag)) =
      turns n ++ [if n % 2 = 0 then (.mdReq, .marketData) else (.tdReq, .matchOrder)] := by
  simp [turns, List.range_succ]

namespace Token

/-- A frame that is no signal changes nothing. -/
theorem plain (token : s.Token) (plain : msg.isSignal = false) (c : Channel ι κ) :
    (s.write c msg).Token := by
  have same (d : Channel ι κ) : (s.write c msg).written d = s.written d := by
    rw [written_write]
    simp [plain]
  refine ⟨fun d e member flag signal => ?_, ?_, token.mdFlag, ?_, ?_, token.tdFlag, ?_, ?_⟩
  · by_cases here : d = c
    · subst here
      simp only [write, Function.update_self, List.mem_append, List.mem_singleton] at member
      rcases member with old | old | rfl
      · exact token.flags d e (List.mem_append_left _ old) flag signal
      · exact token.flags d e (List.mem_append_right _ old) flag signal
      · subst signal
        contradiction
    · simp only [write, Function.update_of_ne here] at member
      exact token.flags d e member flag signal
  · rw [same]
    exact token.md
  · rw [same]
    exact token.cp
  · rw [same]
    exact token.td
  · rw [same]
    exact token.cp'
  · rw [same, same]
    exact token.sent

/-- A delivered frame is only seen; a signal is one more than its reader has answered. -/
theorem took (token : s.Token) {e : Entry} {rest : List Entry} (front : s.waiting c = e :: rest) :
    (s.take c).Token := by
  have more (d : Channel ι κ) : s.seen d ≤ (s.take c).seen d := by
    rw [seen_take front]
    omega
  refine ⟨fun d e member => ?_, ?_, token.mdFlag, ?_, ?_, token.tdFlag, ?_, ?_⟩
  · rw [flags_take front] at member
    exact token.flags d e member
  · rw [written_take front]
    exact token.md.trans (more _)
  · rw [written_take front]
    exact token.cp.trans (more _)
  · rw [written_take front]
    exact token.td.trans (more _)
  · rw [written_take front]
    exact token.cp'.trans (Nat.add_le_add_left (more _) 1)
  · rw [written_take front, written_take front]
    exact token.sent

omit [DecidableEq ι] [DecidableEq κ] in
theorem front_flag (token : s.Token) {e : Entry} {rest : List Entry}
    (front : s.waiting c = e :: rest)
    {flag : BacktestSyncFlag} (signal : e.msg = .signal flag) : c.flag = some flag :=
  token.flags c e (by simp [front]) flag signal

omit [DecidableEq ι] [DecidableEq κ] in
/-- CP leaves a handler, or enters one without a signal. -/
theorem cpMoves (token : s.Token) {cp : CPAt} (free : ∀ flag, cp ≠ .signalled flag)
    (started : cp ≠ .starting) :
    Token { s with cp } := by
  have idle (flag : BacktestSyncFlag) : cp.busy flag = 0 := by simp [CPAt.busy, free]
  refine ⟨token.flags, token.md, token.mdFlag, ?_, token.td, token.tdFlag, ?_, token.sent⟩
  · have before := token.cp
    change s.written .tdReq + cp.busy .marketData ≤ s.seen .mdResponse
    rw [idle]
    omega
  · have before := token.cp'
    change s.written .mdReq + cp.busy .matchOrder + (if cp = .starting then 1 else 0) ≤
      1 + s.seen .tdResponse
    rw [idle, if_neg started]
    omega

omit [DecidableEq ι] [DecidableEq κ] in
theorem mdMoves (token : s.Token) {md : MDAt ι} (busy : md.busy ≤ s.md.busy)
    (flags : ∀ flag services success, md = .signalled flag services success → flag = .marketData) :
      Token { s with md } :=
  ⟨token.flags, (Nat.add_le_add_left busy _).trans token.md, flags, token.cp, token.td,
    token.tdFlag, token.cp', token.sent⟩

omit [DecidableEq ι] [DecidableEq κ] in
theorem tdMoves (token : s.Token) {td : TDAt} (busy : td.busy = 0) : Token { s with td } := by
  refine ⟨token.flags, token.md, token.mdFlag, token.cp, ?_, fun flag signalled => ?_,
    token.cp', token.sent⟩
  · have before := token.td
    change s.written .tdResponse + td.busy ≤ s.seen .tdReq
    omega
  · have signalled : td = .signalled flag := signalled
    subst signalled
    contradiction

theorem flags_signal (token : s.Token) {flag : BacktestSyncFlag} (own : c.flag = some flag)
    (d : Channel ι κ) :
    ∀ e ∈ (s.write c (.signal flag)).passed d ++ (s.write c (.signal flag)).waiting d,
      ∀ other, e.msg = .signal other → d.flag = some other := by
  intro e member other signal
  by_cases here : d = c
  · subst here
    simp only [write, Function.update_self, List.mem_append, List.mem_singleton] at member
    rcases member with old | old | rfl
    · exact token.flags d e (List.mem_append_left _ old) other signal
    · exact token.flags d e (List.mem_append_right _ old) other signal
    · cases signal
      exact own
  · simp only [write, Function.update_of_ne here] at member
    exact token.flags d e member other signal

omit [DecidableEq ι] [DecidableEq κ] in
theorem written_eq_zero (token : s.Token) (plain : c.flag = none) : s.written c = 0 := by
  have free (entries : List Entry) (part : ∀ e ∈ entries, e ∈ s.passed c ++ s.waiting c) :
      signals entries = 0 := by
    refine List.countP_eq_zero.mpr fun e member signal => ?_
    cases msg : e.msg with
    | signal flag =>
      have own := token.flags c e (part e member) flag msg
      rw [plain] at own
      contradiction
    | bar | order | termination | other => simp [msg, Msg.isSignal] at signal
  rw [written, seen, pending, free _ fun e => List.mem_append_left _,
    free _ fun e => List.mem_append_right _]

omit [DecidableEq ι] [DecidableEq κ] in
/-- The counts along the way of the signal. -/
theorem order (token : s.Token) :
    s.written .tdReq ≤ s.written .mdReq ∧ s.written .mdReq ≤ 1 + s.written .tdReq ∧
      s.written .tdResponse ≤ s.written .mdResponse ∧
        s.written .mdResponse ≤ 1 + s.written .tdResponse := by
  have md := token.md
  have cp := token.cp
  have td := token.td
  have cp' := token.cp'
  unfold written at *
  omega

/-- A signal keeps the token when each engine has room for what it has written by then. -/
theorem writes (token : s.Token) {flag : BacktestSyncFlag} (own : c.flag = some flag) {cp : CPAt}
    {md : MDAt ι} {td : TDAt} {sent : List (Channel ι κ × BacktestSyncFlag)}
    (mdRoom : s.written .mdResponse + (if .mdResponse = c then 1 else 0) + md.busy ≤ s.seen .mdReq)
    (mdFlag : ∀ flag services success, md = .signalled flag services success → flag = .marketData)
    (cpRoom :
      s.written .tdReq + (if .tdReq = c then 1 else 0) + cp.busy .marketData ≤ s.seen .mdResponse)
    (tdRoom : s.written .tdResponse + (if .tdResponse = c then 1 else 0) + td.busy ≤ s.seen .tdReq)
    (tdFlag : ∀ flag, td = .signalled flag → flag = .matchOrder)
    (cpRoom' :
      s.written .mdReq + (if .mdReq = c then 1 else 0) + cp.busy .matchOrder +
      (if cp = .starting then 1 else 0) ≤
      1 + s.seen .tdResponse)
    (turn :
      sent = turns (s.written .mdReq + (if .mdReq = c then 1 else 0) +
      (s.written .tdReq + if .tdReq = c then 1 else 0))) :
    Token { s.write c (.signal flag) with cp, md, td, sent } := by
  have count (d : Channel ι κ) :
      (s.write c (.signal flag)).written d = s.written d + if d = c then 1 else 0 := by
    rw [written_write]
    simp [Msg.isSignal]
  refine ⟨token.flags_signal own, ?_, mdFlag, ?_, ?_, tdFlag, ?_, ?_⟩
  · exact (congrArg (· + md.busy) (count .mdResponse)).trans_le mdRoom
  · exact (congrArg (· + cp.busy .marketData) (count .tdReq)).trans_le cpRoom
  · exact (congrArg (· + td.busy) (count .tdResponse)).trans_le tdRoom
  · exact (congrArg (· + cp.busy .matchOrder + if cp = .starting then 1
      else 0) (count .mdReq)).trans_le cpRoom'
  · exact turn.trans (congrArg₂ (fun m t => turns (m + t)) (count .mdReq) (count .tdReq)).symm

theorem sendsMD (token : s.Token) (room : s.written .mdReq ≤ s.seen .tdResponse) :
    Token { s.signal .mdReq .marketData with cp := .idle } := by
  have order := token.order
  have md := token.md
  have cp := token.cp
  have td := token.td
  have even : s.written .mdReq = s.written .tdReq := by
    unfold written at *
    omega
  have turn : (s.written .mdReq + s.written .tdReq) % 2 = 0 := by omega
  have next : s.written .mdReq + 1 + (s.written .tdReq + 0) =
      s.written .mdReq + s.written .tdReq + 1 := by omega
  refine token.writes rfl token.md token.mdFlag ?_ token.td token.tdFlag ?_ ?_
  · simp only [reduceCtorEq, if_false, CPAt.busy]
    omega
  · simp only [reduceCtorEq, if_true, if_false, CPAt.busy]
    omega
  · simp only [if_true, reduceCtorEq, if_false]
    rw [next, turns_succ, if_pos turn]
    exact congrArg (· ++ [(.mdReq, .marketData)]) token.sent

theorem sendsTD (token : s.Token) (room : s.written .tdReq + 1 ≤ s.seen .mdResponse) :
    Token { s.signal .tdReq .matchOrder with cp := .idle } := by
  have order := token.order
  have md := token.md
  have td := token.td
  have cp' := token.cp'
  have odd : s.written .mdReq = s.written .tdReq + 1 := by
    unfold written at *
    omega
  have turn : ¬ (s.written .mdReq + s.written .tdReq) % 2 = 0 := by omega
  refine token.writes rfl token.md token.mdFlag ?_ token.td token.tdFlag ?_ ?_
  · simpa only [if_true, CPAt.busy, reduceCtorEq, if_false] using room
  · simp only [reduceCtorEq, if_false, CPAt.busy]
    omega
  · simp only [if_true, reduceCtorEq, if_false, Nat.add_zero]
    rw [← Nat.add_assoc, turns_succ, if_neg turn]
    exact congrArg (· ++ [(.tdReq, .matchOrder)]) token.sent

theorem cpTakes (token : s.Token) (idle : s.cp = .idle) (reads : c.reader = .cp) {e : Entry}
    {rest : List Entry}
    (front : s.waiting c = e :: rest) : Token { s.take c with cp := .after e.msg } := by
  have took := token.took front
  cases msg : e.msg with
  | bar round => exact took.cpMoves (by simp [CPAt.after]) (by simp [CPAt.after])
  | order bar => exact took.cpMoves (by simp [CPAt.after]) (by simp [CPAt.after])
  | termination => exact took.cpMoves (by simp [CPAt.after]) (by simp [CPAt.after])
  | other => exact took.cpMoves (by simp [CPAt.after]) (by simp [CPAt.after])
  | signal flag =>
    have own := token.front_flag front msg
    have seen (d : Channel ι κ) : (s.take c).seen d = s.seen d + if d = c then 1 else 0 := by
      rw [seen_take front]
      simp [msg, Msg.isSignal]
    have cp := token.cp
    have cp' := token.cp'
    rw [idle] at cp cp'
    have room :
        s.written .tdReq + (CPAt.signalled flag).busy .marketData ≤ (s.take c).seen .mdResponse ∧
        s.written .mdReq + (CPAt.signalled flag).busy .matchOrder + 0 ≤
          1 + (s.take c).seen .tdResponse := by
      simp only [seen, CPAt.busy, reduceCtorEq, if_false] at cp cp' ⊢
      cases c with
      | mdReq | tdReq | account => contradiction
      | data => contradiction
      | mdResponse =>
        cases own
        simp only [reduceCtorEq, if_true, if_false, CPAt.signalled.injEq]
        omega
      | tdResponse =>
        cases own
        simp only [reduceCtorEq, if_true, if_false, CPAt.signalled.injEq]
        omega
    refine ⟨took.flags, took.md, took.mdFlag, ?_, took.td, took.tdFlag, ?_, took.sent⟩
    · change (s.take c).written .tdReq + (CPAt.signalled flag).busy .marketData ≤
        (s.take c).seen .mdResponse
      rw [written_take front]
      exact room.1
    · change (s.take c).written .mdReq + (CPAt.signalled flag).busy .matchOrder + 0 ≤
        1 + (s.take c).seen .tdResponse
      rw [written_take front]
      exact room.2

theorem mdTakes (token : s.Token) (idle : s.md = .idle) (services : List ι) {e : Entry}
    {rest : List Entry} (front : s.waiting .mdReq = e :: rest) :
      Token { s.take .mdReq with md := .after services e.msg } := by
  have took := token.took front
  have none : (s.take .mdReq).md.busy = 0 := by
    change s.md.busy = 0
    rw [idle]
    rfl
  cases msg : e.msg with
  | bar round => exact took.mdMoves (Nat.zero_le _) (by simp [MDAt.after])
  | order bar => exact took.mdMoves (Nat.zero_le _) (by simp [MDAt.after])
  | termination => exact took.mdMoves (Nat.zero_le _) (by simp [MDAt.after])
  | other => exact took.mdMoves (Nat.zero_le _) (by simp [MDAt.after])
  | signal flag =>
    have own := token.front_flag front msg
    have md := token.md
    refine ⟨took.flags, ?_, fun other services success same => ?_, took.cp, took.td, took.tdFlag,
      took.cp', took.sent⟩
    · change (s.take .mdReq).written .mdResponse + 1 ≤ (s.take .mdReq).seen .mdReq
      rw [written_take front, seen_take front]
      simp only [msg, Msg.isSignal, and_self, if_true]
      omega
    · cases same
      exact (Option.some.inj own).symm

theorem tdTakes (token : s.Token) (reads : c.reader = .td) {e : Entry} {rest : List Entry}
    (front : s.waiting c = e :: rest) : Token { s.take c with td := .after e.msg } := by
  have took := token.took front
  cases msg : e.msg with
  | bar round => exact took.tdMoves rfl
  | order bar => exact took.tdMoves rfl
  | termination => exact took.tdMoves rfl
  | other => exact took.tdMoves rfl
  | signal flag =>
    have own := token.front_flag front msg
    have td := token.td
    obtain rfl : c = .tdReq := by
      cases c with
      | tdReq => rfl
      | account => contradiction
      | mdReq | mdResponse | tdResponse | data => contradiction
    refine ⟨took.flags, took.md, took.mdFlag, took.cp, ?_, fun other same => ?_,
      took.cp', took.sent⟩
    · change (s.take .tdReq).written .tdResponse + 1 ≤ (s.take .tdReq).seen .tdReq
      rw [written_take front, seen_take front]
      simp only [msg, Msg.isSignal, and_self, if_true]
      omega
    · cases same
      exact (Option.some.inj own).symm

theorem mdReplies (token : s.Token) {flag : BacktestSyncFlag}
    (signalled : s.md = .signalled flag [] true) :
    Token { s.write .mdResponse (.signal flag) with md := .idle } := by
  obtain rfl := token.mdFlag flag [] true signalled
  have md := token.md
  rw [signalled] at md
  exact token.writes rfl md (by simp) token.cp token.td token.tdFlag token.cp' token.sent

theorem tdReplies (token : s.Token) {flag : BacktestSyncFlag} (signalled : s.td = .signalled flag) :
    Token { s.write .tdResponse (.signal flag) with td := .idle } := by
  obtain rfl := token.tdFlag flag signalled
  have td := token.td
  rw [signalled] at td
  exact token.writes rfl token.md token.mdFlag token.cp td (by simp) token.cp' token.sent

end Token

/-- Every step of the three engines keeps the token. -/
theorem act_token (setup : Setup ι κ) (token : s.Token) (action : Action ι κ)
    (enabled : s.Enabled action) :
    (act setup s action).Token := by
  cases action with
  | ticks time =>
    exact ⟨token.flags, token.md, token.mdFlag, token.cp, token.td, token.tdFlag,
      token.cp', token.sent⟩
  | cpStarts =>
    have cp' := token.cp'
    have starting : s.cp = .starting := enabled
    rw [starting] at cp'
    exact token.sendsMD (by simp only [CPAt.busy, reduceCtorEq, if_false, if_true] at cp'; omega)
  | cpTakes c =>
    obtain ⟨idle, reads, some⟩ := enabled
    obtain ⟨e, rest, front⟩ := List.exists_cons_of_ne_nil some
    simp only [act, front]
    exact token.cpTakes idle reads front
  | cpOrders account =>
    simp only [act]
    split <;> exact token.plain rfl _
  | cpWrites c => exact token.plain (by split <;> rfl) c
  | cpSends =>
    obtain ⟨flag, signalled⟩ := enabled
    have cp := token.cp
    have cp' := token.cp'
    rw [signalled] at cp cp'
    simp only [act, signalled]
    cases flag with
    | marketData => exact token.sendsTD cp
    | matchOrder =>
      exact token.sendsMD (by simp only [CPAt.busy, reduceCtorEq, if_false, if_true] at cp'; omega)
  | cpReturns => exact token.cpMoves (by simp) (by simp)
  | mdTakes =>
    obtain ⟨idle, some⟩ := enabled
    obtain ⟨e, rest, front⟩ := List.exists_cons_of_ne_nil some
    simp only [act, front]
    exact token.mdTakes idle setup.services front
  | mdServes row =>
    obtain ⟨flag, service, rest, success, signalled⟩ := enabled
    have busy : (1 : Nat) ≤ s.md.busy := by
      rw [signalled]
      rfl
    have own : flag = .marketData := token.mdFlag flag _ _ signalled
    have flags (success : Bool) : ∀ f services b, MDAt.signalled flag rest success =
        .signalled f services b → f = .marketData := by
      rintro f services b same
      cases same
      exact own
    simp only [act, signalled]
    cases row with
    | bar => exact (token.plain rfl _).mdMoves busy (flags success)
    | invalid => exact token.mdMoves busy (flags success)
    | ended => exact (token.plain rfl _).mdMoves busy (flags false)
  | mdReplies =>
    obtain ⟨flag, success, signalled⟩ := enabled
    simp only [act, signalled]
    cases success with
    | true => exact token.mdReplies signalled
    | false => exact token.mdMoves (Nat.zero_le _) (by simp)
  | tdTakes c =>
    obtain ⟨_, reads, some⟩ := enabled
    obtain ⟨e, rest, front⟩ := List.exists_cons_of_ne_nil some
    simp only [act, front]
    exact token.tdTakes reads front
  | tdWrites => exact token.plain rfl _
  | tdReplies =>
    obtain ⟨flag, signalled⟩ := enabled
    simp only [act, signalled]
    exact token.tdReplies signalled
  | tdReturns => exact token.tdMoves rfl
  | stops engine =>
    cases engine with
    | cp => exact token.cpMoves (by simp) (by simp)
    | md => exact token.mdMoves (Nat.zero_le _) (by simp)
    | td => exact token.tdMoves rfl

omit [DecidableEq ι] [DecidableEq κ] in
theorem start_token : (start : Backtest ι κ).Token where
  flags := by simp [start]
  md := by simp [start, written, seen, pending, signals, MDAt.busy]
  mdFlag := by simp [start]
  cp := by simp [start, written, seen, pending, signals, CPAt.busy]
  td := by simp [start, written, seen, pending, signals, TDAt.busy]
  tdFlag := by simp [start]
  cp' := by simp [start, written, seen, pending, signals, CPAt.busy]
  sent := by simp [start, written, seen, pending, signals, turns]

/-- The signals that are written and not yet answered: those in front of the cursors, and those
that a handler has. -/
def unprocessed (s : Backtest ι κ) : Nat :=
  s.pending .mdReq + s.pending .mdResponse + s.pending .tdReq + s.pending .tdResponse +
    s.md.busy + s.td.busy +
    (s.cp.busy .marketData + s.cp.busy .matchOrder)

/-- In every run: there is at most one signal, and none in the other journals; CP sends them by
turns, for market data first; and the data rounds that MD has answered are as many as the
matching rounds that TD has answered, or one more. -/
theorem one_token (setup : Setup ι κ) (actions : List (Action ι κ))
    (allowed : ∀ move ∈ Runs.moves (act setup) start actions, move.1.Enabled move.2) :
    ∀ s ∈ Runs.states (act setup) start actions,
      s.unprocessed ≤ 1 ∧ (∀ service, s.written (.data service) = 0) ∧
        (∀ account, s.written (.account account) = 0) ∧
        s.sent = turns s.sent.length ∧
        (s.written .mdResponse = s.written .tdResponse ∨
          s.written .mdResponse = s.written .tdResponse + 1) := by
  intro s reached
  have kept : ∀ (s : Backtest ι κ) (action : Action ι κ), s.Token → s.Enabled action →
      (act setup s action).Token :=
    fun s action token enabled => act_token setup token action enabled
  have token : s.Token := Runs.invariant kept start_token actions allowed s reached
  have none (c : Channel ι κ) (plain : c.flag = none) : s.written c = 0 :=
    token.written_eq_zero plain
  have order := token.order
  have md := token.md
  have cp := token.cp
  have td := token.td
  have cp' := token.cp'
  refine ⟨?_, fun service => none _ rfl, fun account => none _ rfl, ?_, by omega⟩
  · unfold written at md cp td cp'
    unfold unprocessed
    omega
  · rw [token.sent, turns_length]

/-- One data service and one account, the signals last in the maps. -/
def simple : Setup Unit Unit where
  services := [()]
  cpJournals := [.data (), .tdResponse, .mdResponse]
  tdJournals := [.account (), .tdReq]
  cpDistinct := by decide
  tdDistinct := by decide
  cpJoined := by rintro (_ | _ | _ | _ | _ | _) <;> simp [Channel.reader]
  tdJoined := by rintro (_ | _ | _ | _ | _ | _) <;> simp [Channel.reader]

/-- One round, its bar taken before its signal. -/
def round : List (Action Unit Unit) :=
  [.cpStarts, .mdTakes, .mdServes .bar, .mdReplies, .cpTakes (.data ()), .cpReturns,
    .cpTakes .mdResponse, .cpSends, .tdTakes .tdReq, .tdReplies]

theorem one_token_round :
    (round.foldl (act simple) start).unprocessed ≤ 1 ∧
      (round.foldl (act simple) start).sent =
        turns (round.foldl (act simple) start).sent.length := by
  have allowed : ∀ move ∈ Runs.moves (act simple) start round, move.1.Enabled move.2 := by
    simp [round, Runs.moves, Enabled, act, serve, signal, write, take, start, simple,
      Channel.reader, MDAt.after, CPAt.after, TDAt.after]
  have token := one_token simple round allowed _ (Runs.last_mem start round)
  exact ⟨token.1, token.2.2.2.1⟩

end
end BTrader.Backtest
