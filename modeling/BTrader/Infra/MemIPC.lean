import BTrader.Lib.Runs

/-! A channel in shared memory from a writing to a reading process, with a semaphore, and their
steps in any order. -/
namespace BTrader.Infra

/-- `sizeof(size_t)`, the room of the length in front of the data. -/
def sizeofLength : Nat := 8

/-- Where the writing process is. It stores the bytes of the message in any order. -/
inductive Writing where
  | idle
  | filling (message : List UInt8) (filled : List Nat)
  | posting
  deriving DecidableEq

/-- Where the reading process is in `read`. -/
inductive Reading where
  | idle
  | woken
  | loaded (len : Nat)
  deriving DecidableEq

/-- The shared memory, the semaphore and what `MemIPC` keeps in the writing process. The length at
the front of the memory stands in `dataLen`. -/
structure MemIPC where
  memSize : Nat
  remainSize : Nat
  sharedMem : List UInt8
  dataLen : Nat
  sem : Nat
  openDataLen : Nat

namespace MemIPC

/-- The constructor. The memory may have anything in it, the semaphore is new: `sem_open` leaves
one that exists as it is, whatever value it is given. -/
def make (memSize : Nat) (sharedMem : List UInt8) (dataLen : Nat) : MemIPC :=
  ⟨memSize + sizeofLength, memSize + sizeofLength, sharedMem, dataLen, 0, 0⟩

def usedSize (c : MemIPC) : Nat := c.memSize - c.remainSize + sizeofLength

/-- The offset of the message in the memory. `m_RemainSize -= Len` is disabled. -/
def openData (c : MemIPC) (len : Nat) : Option Nat × MemIPC :=
  if c.openDataLen ≠ 0 ∨ c.remainSize < len ∨ len = 0 then (none, c)
  else (some c.usedSize, { c with openDataLen := len })

/-- A byte stored behind the pointer that `openData` returned. -/
def fill (c : MemIPC) (i : Nat) (byte : UInt8) : MemIPC :=
  { c with sharedMem := c.sharedMem.set (c.usedSize + i) byte }

/-- `closeData` up to the `sem_post`; none when it throws. -/
def closeData (c : MemIPC) (len : Nat) : Option MemIPC :=
  if len ≠ c.openDataLen then none else some { c with dataLen := c.openDataLen, openDataLen := 0 }

/-- What stands at the pointer that `read` returns. -/
def bytes (c : MemIPC) (len : Nat) : List UInt8 := (c.sharedMem.drop c.usedSize).take len

end MemIPC

/-- The channel, where the two processes are, the messages in the order they were closed, and for
each read that returned the length and the bytes at that moment. -/
structure Exchange where
  channel : MemIPC
  writing : Writing
  reading : Reading
  written : List (List UInt8)
  returned : List (Nat × List UInt8)

inductive ExchangeAction where
  | openData (message : List UInt8)
  | fill (i : Nat)
  | closeData
  | post
  | wait
  | load
  | return_

namespace Exchange

def start (memSize : Nat) (sharedMem : List UInt8) (dataLen : Nat) : Exchange :=
  ⟨.make memSize sharedMem dataLen, .idle, .idle, [], []⟩

/-- One step of a process. A process that is elsewhere, or waits for the semaphore, does nothing. -/
def act (s : Exchange) : ExchangeAction → Exchange
  | .openData message =>
    match s.writing with
    | .idle =>
      match s.channel.openData message.length with
      | (some _, channel) => { s with channel, writing := .filling message [] }
      | (none, _) => s
    | _ => s
  | .fill i =>
    match s.writing with
    | .filling message filled =>
      match message[i]? with
      | some byte =>
        { s with channel := s.channel.fill i byte, writing := .filling message (i :: filled) }
      | none => s
    | _ => s
  | .closeData =>
    match s.writing with
    | .filling message filled =>
      if ∀ i < message.length, i ∈ filled then
        match s.channel.closeData message.length with
        | some channel => { s with channel, writing := .posting, written := s.written ++ [message] }
        | none => s
      else s
    | _ => s
  | .post =>
    match s.writing with
    | .posting =>
      { s with channel := { s.channel with sem := s.channel.sem + 1 }, writing := .idle }
    | _ => s
  | .wait =>
    if s.reading = .idle ∧ 0 < s.channel.sem then
      { s with channel := { s.channel with sem := s.channel.sem - 1 }, reading := .woken }
    else s
  | .load => if s.reading = .woken then { s with reading := .loaded s.channel.dataLen } else s
  | .return_ =>
    match s.reading with
    | .loaded len =>
      { s with reading := .idle, returned := s.returned ++ [(len, s.channel.bytes len)] }
    | _ => s

/-- What a read of the message should return. -/
def answer (message : List UInt8) : Nat × List UInt8 := (message.length, message)

/-- The i-th read that returned got the i-th message. -/
def Delivers (s : Exchange) : Prop := s.returned <+: s.written.map answer

/-- A message fits behind the length, and before a byte of it is stored all earlier ones are read.
-/
def Meets (s : Exchange) : ExchangeAction → Prop
  | .openData message => message.length + sizeofLength ≤ s.channel.memSize
  | .fill _ | .closeData => ∀ message filled, s.writing = .filling message filled →
      s.returned.length = s.written.length
  | _ => True

/-- All messages are read. -/
structure CaughtUp (s : Exchange) : Prop where
  returned : s.returned = s.written.map answer
  sem : s.channel.sem = 0
  reading : s.reading = .idle
  writing : s.writing ≠ .posting

/-- The last message is not read, and is still in the memory. -/
structure Unread (s : Exchange) (earlier : List (List UInt8)) (message : List UInt8) : Prop where
  written : s.written = earlier ++ [message]
  returned : s.returned = earlier.map answer
  dataLen : s.channel.dataLen = message.length
  bytes : s.channel.bytes message.length = message
  phase : s.writing = .posting ∧ s.channel.sem = 0 ∧ s.reading = .idle ∨
    s.writing ≠ .posting ∧ (s.channel.sem = 1 ∧ s.reading = .idle ∨
      s.channel.sem = 0 ∧ (s.reading = .woken ∨ s.reading = .loaded message.length))

/-- What every state keeps. -/
structure Kept (s : Exchange) : Prop where
  place : s.channel.usedSize = sizeofLength
  room : s.channel.sharedMem.length = s.channel.memSize
  filling : ∀ message filled, s.writing = .filling message filled →
    message.length + sizeofLength ≤ s.channel.memSize ∧
    ∀ i ∈ filled, s.channel.sharedMem[sizeofLength + i]? = message[i]?
  stage : s.CaughtUp ∨ ∃ earlier message, s.Unread earlier message

variable {s : Exchange}

theorem kept_start (memSize : Nat) {sharedMem : List UInt8}
    (room : sharedMem.length = memSize + sizeofLength) (dataLen : Nat) :
    (start memSize sharedMem dataLen).Kept where
  place := by simp [start, MemIPC.make, MemIPC.usedSize]
  room := room
  filling := nofun
  stage := .inl ⟨rfl, rfl, rfl, nofun⟩

theorem Kept.delivers (kept : s.Kept) : s.Delivers := by
  rcases kept.stage with caught | ⟨earlier, message, unread⟩
  · rw [Delivers, caught.returned]
  · rw [Delivers, unread.written, unread.returned, List.map_append]
    exact List.prefix_append _ _

/-- With as many reads returned as messages written none is unread. -/
theorem Kept.caughtUp (kept : s.Kept) (equal : s.returned.length = s.written.length) :
    s.CaughtUp := by
  rcases kept.stage with caught | ⟨earlier, message, unread⟩
  · exact caught
  · rw [unread.written, unread.returned] at equal
    simp at equal

theorem kept_openData (kept : s.Kept) {message : List UInt8}
    (fits : message.length + sizeofLength ≤ s.channel.memSize) :
    (s.act (.openData message)).Kept := by
  simp only [act]
  split
  · rename_i idle
    split
    · rename_i channel opened
      unfold MemIPC.openData at opened
      split at opened
      · cases opened
      · cases opened
        refine ⟨kept.place, kept.room, ?_, ?_⟩
        · intro message' filled same
          cases same
          exact ⟨fits, nofun⟩
        · rcases kept.stage with caught | ⟨earlier, last, unread⟩
          · exact .inl ⟨caught.returned, caught.sem, caught.reading, nofun⟩
          · refine .inr ⟨earlier, last, unread.written, unread.returned, unread.dataLen,
              unread.bytes, .inr ⟨nofun, ?_⟩⟩
            rcases unread.phase with ⟨posting, _⟩ | ⟨_, phase⟩
            · rw [idle] at posting
              cases posting
            · exact phase
    · exact kept
  · exact kept

theorem kept_fill (kept : s.Kept) {i : Nat} (meets : s.Meets (.fill i)) :
    (s.act (.fill i)).Kept := by
  simp only [act]
  split
  · rename_i message filled writing
    have caught := kept.caughtUp (meets message filled writing)
    obtain ⟨fits, stored⟩ := kept.filling message filled writing
    split
    · rename_i byte here
      have bound : i < message.length := (List.getElem?_eq_some_iff.mp here).1
      refine ⟨kept.place, ?_, ?_, .inl ⟨caught.returned, caught.sem, caught.reading, nofun⟩⟩
      · exact List.length_set.trans kept.room
      · intro message' filled' same
        cases same
        refine ⟨fits, fun j member => ?_⟩
        change (s.channel.sharedMem.set (s.channel.usedSize + i) byte)[sizeofLength + j]? = _
        rw [kept.place]
        by_cases now : j = i
        · have inside : sizeofLength + i < s.channel.sharedMem.length := by
            rw [kept.room]
            omega
          rw [now, List.getElem?_set_self inside, here]
        · have before := (List.mem_cons.mp member).resolve_left now
          rw [List.getElem?_set_ne (by omega)]
          exact stored j before
    · exact kept
  · exact kept

/-- A message all of whose bytes are stored is in the memory. -/
theorem bytes_filled {c : MemIPC} (place : c.usedSize = sizeofLength) {message : List UInt8}
    (stored : ∀ i < message.length, c.sharedMem[sizeofLength + i]? = message[i]?) :
      c.bytes message.length = message := by
  refine List.ext_getElem? fun i => ?_
  rw [MemIPC.bytes, place, List.getElem?_take]
  split
  · rename_i bound
    rw [List.getElem?_drop, stored i bound]
  · rename_i beyond
    rw [List.getElem?_eq_none (not_lt.mp beyond)]

theorem kept_closeData (kept : s.Kept) (meets : s.Meets .closeData) : (s.act .closeData).Kept := by
  simp only [act]
  split
  · rename_i message filled writing
    have caught := kept.caughtUp (meets message filled writing)
    obtain ⟨fits, stored⟩ := kept.filling message filled writing
    split
    · rename_i all
      split
      · rename_i channel closed
        unfold MemIPC.closeData at closed
        split at closed
        · cases closed
        · rename_i same
          cases closed
          have bytes := bytes_filled kept.place fun i bound => stored i (all i bound)
          refine ⟨kept.place, kept.room, nofun,
            .inr ⟨s.written, message, rfl, caught.returned, ?_, bytes, ?_⟩⟩
          · exact (not_not.mp same).symm
          · exact .inl ⟨rfl, caught.sem, caught.reading⟩
      · exact kept
    · exact kept
  · exact kept

theorem kept_post (kept : s.Kept) : (s.act .post).Kept := by
  simp only [act]
  split
  · rename_i writing
    refine ⟨kept.place, kept.room, nofun, ?_⟩
    rcases kept.stage with caught | ⟨earlier, message, unread⟩
    · exact absurd writing caught.writing
    · refine .inr ⟨earlier, message, unread.written, unread.returned, unread.dataLen, unread.bytes,
        .inr ⟨nofun, .inl ?_⟩⟩
      rcases unread.phase with ⟨_, sem, reading⟩ | ⟨elsewhere, _⟩
      · exact ⟨congrArg (· + 1) sem, reading⟩
      · exact absurd writing elsewhere
  · exact kept

theorem kept_wait (kept : s.Kept) : (s.act .wait).Kept := by
  simp only [act]
  split
  · rename_i woken
    refine ⟨kept.place, kept.room, kept.filling, ?_⟩
    rcases kept.stage with caught | ⟨earlier, message, unread⟩
    · exact absurd caught.sem woken.2.ne'
    · refine .inr ⟨earlier, message, unread.written, unread.returned, unread.dataLen,
        unread.bytes, ?_⟩
      rcases unread.phase with ⟨_, sem, _⟩ | ⟨elsewhere, ⟨sem, _⟩ | ⟨sem, _⟩⟩
      · exact absurd sem woken.2.ne'
      · exact .inr ⟨elsewhere, .inr ⟨congrArg (· - 1) sem, .inl rfl⟩⟩
      · exact absurd sem woken.2.ne'
  · exact kept

theorem kept_load (kept : s.Kept) : (s.act .load).Kept := by
  simp only [act]
  split
  · rename_i woken
    refine ⟨kept.place, kept.room, kept.filling, ?_⟩
    rcases kept.stage with caught | ⟨earlier, message, unread⟩
    · rw [caught.reading] at woken
      cases woken
    · refine .inr ⟨earlier, message, unread.written, unread.returned, unread.dataLen,
        unread.bytes, ?_⟩
      rcases unread.phase with ⟨_, _, idle⟩ | ⟨elsewhere, ⟨_, idle⟩ | ⟨sem, _⟩⟩
      · rw [idle] at woken
        cases woken
      · rw [idle] at woken
        cases woken
      · exact .inr ⟨elsewhere, .inr ⟨sem, .inr (congrArg Reading.loaded unread.dataLen)⟩⟩
  · exact kept

theorem kept_return (kept : s.Kept) : (s.act .return_).Kept := by
  simp only [act]
  split
  · rename_i len loaded
    refine ⟨kept.place, kept.room, kept.filling, .inl ?_⟩
    rcases kept.stage with caught | ⟨earlier, message, unread⟩
    · rw [caught.reading] at loaded
      cases loaded
    · rcases unread.phase with ⟨_, _, idle⟩ | ⟨elsewhere, ⟨_, idle⟩ | ⟨sem, woken | mine⟩⟩
      · rw [idle] at loaded
        cases loaded
      · rw [idle] at loaded
        cases loaded
      · rw [woken] at loaded
        cases loaded
      · rw [mine] at loaded
        cases loaded
        refine ⟨?_, sem, rfl, elsewhere⟩
        change s.returned ++ [(message.length, s.channel.bytes message.length)] =
          s.written.map answer
        rw [unread.returned, unread.written, unread.bytes, List.map_append]
        rfl
  · exact kept

theorem kept_act (kept : s.Kept) {action : ExchangeAction} (meets : s.Meets action) :
    (s.act action).Kept := by
  cases action with
  | openData message => exact kept_openData kept meets
  | fill i => exact kept_fill kept meets
  | closeData => exact kept_closeData kept meets
  | post => exact kept_post kept
  | wait => exact kept_wait kept
  | load => exact kept_load kept
  | return_ => exact kept_return kept

/-- When each message is read before the next is stored, every read gets its message. -/
theorem reads_deliver (memSize : Nat) {sharedMem : List UInt8}
    (room : sharedMem.length = memSize + sizeofLength) (dataLen : Nat) (run : List ExchangeAction)
    (meets : ∀ move ∈ Runs.moves act (start memSize sharedMem dataLen) run, move.1.Meets move.2) :
    ∀ s ∈ Runs.states act (start memSize sharedMem dataLen) run, s.Delivers := by
  have step (s : Exchange) (action : ExchangeAction) (kept : s.Kept) (now : s.Meets action) :
      (s.act action).Kept :=
    kept_act kept now
  intro s visited
  exact (Runs.invariant step (kept_start memSize room dataLen) run meets s visited).delivers

/-- Eight bytes of length, and one of data. -/
def blank : List UInt8 := List.replicate 9 0

def exchanged : List ExchangeAction :=
  [.openData [7], .fill 0, .closeData, .post, .wait, .load, .return_, .openData [8], .fill 0,
    .closeData, .post, .wait, .load, .return_]

theorem reads_deliver_one : (exchanged.foldl act (start 1 blank 0)).Delivers := by
  refine reads_deliver 1 rfl 0 exchanged ?_ _ (Runs.last_mem _ exchanged)
  simp only [exchanged, Runs.moves, List.forall_mem_cons, List.not_mem_nil, false_implies,
    implies_true, and_true]
  refine ⟨?_, ?_, ?_, ?_, ?_, ?_, ?_, ?_, ?_, ?_, ?_, ?_, ?_, ?_⟩
  · exact le_rfl
  · exact fun _ _ _ => rfl
  · exact fun _ _ _ => rfl
  · exact trivial
  · exact trivial
  · exact trivial
  · exact trivial
  · exact le_rfl
  · exact fun _ _ _ => rfl
  · exact fun _ _ _ => rfl
  · exact trivial
  · exact trivial
  · exact trivial
  · exact trivial

/-- The second message is written over the first. -/
theorem first_overwritten :
    ¬ ∀ (memSize : Nat) (sharedMem : List UInt8) (dataLen : Nat) (run : List ExchangeAction),
      sharedMem.length = memSize + sizeofLength →
      ∀ s ∈ Runs.states act (start memSize sharedMem dataLen) run, s.Delivers := by
  intro claim
  let run : List ExchangeAction :=
    [.openData [7], .fill 0, .closeData, .post, .openData [8], .fill 0, .closeData, .post, .wait,
    .load, .return_]
  have delivers := claim 1 blank 0 run rfl _ (Runs.last_mem _ run)
  unfold Delivers at delivers
  exact absurd delivers (by decide)

end Exchange
end BTrader.Infra
