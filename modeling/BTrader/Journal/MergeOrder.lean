import BTrader.Journal.ReaderSpec

/-! The polling loop over several joined journals, each on one page: what it reads, from
which journal and in which order. -/
namespace BTrader
open ByteMemory Infra Procedure

namespace Reader

/-- `while data_available(): read current_frame(); next()`, with the journal each frame
was read from. A pair of clock readings is what one turn of the loop uses. -/
def drain : List (Int64 × Int64) → ReaderM (List (UInt64 × Frame))
  | [] => throw .outOfFuel
  | (polled, passed) :: readings => do
    if (← dataAvailable polled) = true then
      match (← get).1.current with
      | none => throw .nullPointer
      | some key =>
        let (m, a) ← currentFrame
        next passed
        let rest ← drain readings
        return (key, FrameUnit.read m a) :: rest
    else return []

open OrderedMerge (Progress Complete remaining)

variable {r : Reader} {store : FileStore} {all pending : UInt64 → List Frame}
  {readings : List (Int64 × Int64)}

/-- A clock that is not behind any pending frame. -/
def Reaches (keys : List UInt64) (pending : UInt64 → List Frame) (now : Int64) : Prop :=
  ∀ key ∈ keys, ∀ f ∈ pending key, f.genTime ≤ now

/-- One turn of the loop that finds a frame. -/
theorem turn_spec (tracks : Tracks r store pending) (chosen : Chosen r pending key f)
    (clock : Reaches (r.journals.map Prod.fst) pending now) :
    ∃ rest m a r', pending key = f :: rest ∧
      currentFrame (r, store) = .ok (m, a) (r, store) ∧ FrameUnit.read m a = f ∧
      next now (r, store) = .ok () (r', store) ∧
      r'.journals.map Prod.fst = r.journals.map Prod.fst ∧
      Tracks r' store (Function.update pending key rest) := by
  obtain ⟨rest, head⟩ : ∃ rest, pending key = f :: rest := by
    cases list : pending key with
    | nil => simpa [list] using chosen.head
    | cons g rest =>
      obtain rfl : g = f := by simpa [list] using chosen.head
      exact ⟨rest, rfl⟩
  obtain ⟨m, a, read, frame⟩ := read_spec tracks chosen.current head
  obtain ⟨j, passed, _, found, facing⟩ := joined_entry tracks chosen.joined
  rw [head] at facing
  obtain ⟨r', _, moved, _, _, _, keys, tracks'⟩ :=
    next_spec tracks chosen.current found facing head clock
  exact ⟨rest, m, a, r', head, read, frame, moved, keys, tracks'⟩

/-- The loop returns as soon as it has a turn more than there are frames, and it has
continued the merge to its end. -/
theorem drain_progress (tracks : Tracks r store pending)
    (sorted : ∀ key ∈ r.journals.map Prod.fst,
      (all key).Pairwise fun f g => f.genTime ≤ g.genTime)
    (progress : Progress Frame.genTime (r.journals.map Prod.fst) all pending out)
    (clocks : ∀ reading ∈ readings, Reaches (r.journals.map Prod.fst) pending reading.1 ∧
      Reaches (r.journals.map Prod.fst) pending reading.2)
    (enough : remaining (r.journals.map Prod.fst) pending < readings.length) :
    ∃ more s, drain readings (r, store) = .ok more s ∧
      Complete Frame.genTime (r.journals.map Prod.fst) all (out ++ more) := by
  induction readings generalizing r pending out with
  | nil => simp at enough
  | cons reading readings ih =>
    obtain ⟨polled, passed⟩ := reading
    have clock := clocks (polled, passed) List.mem_cons_self
    obtain ⟨b, r₁, ran, same, tracks₁, result⟩ := dataAvailable_spec tracks clock.1
    rcases result with ⟨rfl, key, f, chosen⟩ | ⟨rfl, rfl, drained⟩
    · rw [← same] at sorted progress clocks enough clock
      obtain ⟨rest, m, a, r₂, head, read, frame, moved, keys, tracks₂⟩ :=
        turn_spec tracks₁ chosen clock.2
      have progress' := progress.deliver sorted chosen.joined head chosen.earliest
      have fewer := OrderedMerge.remaining_deliver tracks₁.keys chosen.joined head
      have behind (now : Int64) (before : Reaches (r₁.journals.map Prod.fst) pending now) :
          Reaches (r₁.journals.map Prod.fst) (Function.update pending key rest) now := by
        intro key' member g present
        apply before key' member g
        by_cases same : key' = key
        · subst same
          rw [Function.update_self] at present
          rw [head]
          exact List.mem_cons_of_mem _ present
        · rwa [Function.update_of_ne same] at present
      rw [← keys] at sorted progress' fewer
      have later : ∀ reading ∈ readings,
          Reaches (r₂.journals.map Prod.fst) (Function.update pending key rest) reading.1 ∧
          Reaches (r₂.journals.map Prod.fst) (Function.update pending key rest) reading.2 := by
        intro reading member
        have before := clocks reading (List.mem_cons_of_mem _ member)
        rw [keys]
        exact ⟨behind _ before.1, behind _ before.2⟩
      obtain ⟨more, s, rest', complete⟩ := ih tracks₂ sorted progress' later (by
        rw [← keys] at enough
        simp only [List.length_cons] at enough
        omega)
      refine ⟨(key, f) :: more, s, ?_, ?_⟩
      · simp [drain, ran, chosen.current, read, frame, moved, rest']
      · rw [← same, ← keys]
        simpa using complete
    · refine ⟨[], (r₁, store), by simp [drain, ran], ?_⟩
      rw [List.append_nil]
      exact progress.complete drained

end Reader

/-- A journal to be joined: what its page holds, the time it is read from, the iteration
order its entry gives the map and the clock reading of the join. -/
structure Channel where
  location : JLocation
  destId : UInt32
  frames : List Frame
  fromTime : Int64
  order : List (UInt64 × Journal) → List (UInt64 × Journal)
  clock : Int64

namespace Channel

def key (c : Channel) : UInt64 := Reader.journalKey c.location.uid c.destId

/-- The frames that are later than the time the journal is read from. -/
def later (c : Channel) : List Frame := c.frames.filter fun f => decide (c.fromTime < f.genTime)

/-- The journal's only page holds the channel's frames. -/
structure Held (c : Channel) (store : FileStore) : Prop where
  layout : Layout c.location (store c.key) ⟨[], c.frames⟩
  typed : ∀ f ∈ c.frames, 0 < f.msgType
  sorted : c.frames.Pairwise fun f g => f.genTime ≤ g.genTime
  order : ∀ entries, (c.order entries).Perm entries

theorem due_append_later (sorted : List.Pairwise (fun f g => f.genTime ≤ g.genTime) fs)
    (typed : ∀ f ∈ fs, 0 < f.msgType) (time : Int64) :
    Log.due time fs ++ fs.filter (fun f => decide (time < f.genTime)) = fs := by
  induction fs with
  | nil => rfl
  | cons f fs ih =>
    rw [List.pairwise_cons] at sorted
    have rest := ih sorted.2 (fun g member => typed g (List.mem_cons_of_mem _ member))
    by_cases le : f.genTime ≤ time
    · have due : Log.due time (f :: fs) = f :: Log.due time fs := by
        simp [Log.due, Log.Due, typed f List.mem_cons_self, le]
      have early : ¬ time < f.genTime := by simpa using le
      rw [due, List.filter_cons_of_neg (by simpa using early), List.cons_append, rest]
    · have due : Log.due time (f :: fs) = [] := by
        simp [Log.due, Log.Due, le]
      have late : ∀ g ∈ f :: fs, decide (time < g.genTime) = true := by
        have first : time < f.genTime := by simpa using le
        intro g member
        rcases List.mem_cons.mp member with rfl | member
        · exact decide_eq_true first
        · exact decide_eq_true (Int64.lt_of_lt_of_le first (sorted.1 g member))
      rw [due, List.nil_append, List.filter_eq_self.mpr late]

/-- Joining leaves the cursor in front of the later frames. -/
theorem Held.sought {c : Channel} (held : c.Held store) (isLazy : Bool) :
    ∃ j, Journal.seekToTime c.fromTime (Journal.make c.location c.destId false isLazy 0,
        store c.key) = .ok () (j, store c.key) ∧
      Journal.Facing (store c.key) j (Log.due c.fromTime c.frames) c.later := by
  let o : Opening := ⟨c.location, c.destId, false, isLazy⟩
  obtain ⟨k, fs, landing, ran⟩ := o.seekToTime_spec held.layout c.fromTime
  obtain ⟨rfl, rfl⟩ := landing.onlyPage rfl
  refine ⟨_, ran, ⟨⟨_, rfl, ?_⟩, rfl, ?_⟩⟩
  · rw [later, due_append_later held.sorted held.typed]
    exact held.layout.current.shows
  · rw [later, due_append_later held.sorted held.typed]
    exact held.typed

end Channel

namespace Reader
open OrderedMerge (Progress Complete remaining)

def joinAll (channels : List Channel) : ReaderM Unit :=
  channels.forM fun c => join c.location c.destId c.fromTime 0 c.order c.clock

/-- The frames pending at a key once these channels are joined. -/
def pendingOf (channels : List Channel) (pending : UInt64 → List Frame) : UInt64 → List Frame :=
  channels.foldl (fun pending c => Function.update pending c.key c.later) pending

/-- A clock that is not behind any frame of the channels. -/
def ReachesAll (channels : List Channel) (now : Int64) : Prop :=
  ∀ c ∈ channels, ∀ f ∈ c.frames, f.genTime ≤ now

theorem joinAll_spec {r : Reader} {store : FileStore} {pending : UInt64 → List Frame}
    (tracks : Tracks r store pending) (channels : List Channel)
    (keys : (channels.map Channel.key ++ r.journals.map Prod.fst).Nodup)
    (held : ∀ c ∈ channels, c.Held store)
    (clock : ∀ c ∈ channels, Reaches (r.journals.map Prod.fst) pending c.clock ∧
      ReachesAll channels c.clock) :
    ∃ r', joinAll channels (r, store) = .ok () (r', store) ∧
      (r'.journals.map Prod.fst).Perm (channels.map Channel.key ++ r.journals.map Prod.fst) ∧
      Tracks r' store (pendingOf channels pending) := by
  induction channels generalizing r pending with
  | nil => exact ⟨r, rfl, List.Perm.refl _, tracks⟩
  | cons c channels ih =>
    rw [List.map_cons, List.cons_append, List.nodup_cons] at keys
    have here := held c List.mem_cons_self
    obtain ⟨j, sought, facing⟩ := here.sought r.isLazy
    have new : c.key ∉ r.journals.map Prod.fst :=
      fun member => keys.1 (List.mem_append_right _ member)
    have now := clock c List.mem_cons_self
    obtain ⟨r₁, joined, perm, _, _, tracks₁⟩ := join_spec tracks here.order new sought facing now.1
      (fun f member => now.2 c List.mem_cons_self f (List.mem_of_mem_filter member))
    rw [show journalKey c.location.uid c.destId = c.key from rfl] at joined perm tracks₁
    rw [Function.update_eq_self] at joined tracks₁
    have shuffled : (channels.map Channel.key ++ r₁.journals.map Prod.fst).Perm
        (c.key :: (channels.map Channel.key ++ r.journals.map Prod.fst)) :=
      (perm.append_left _).trans List.perm_middle
    obtain ⟨r₂, rest, perm₂, tracks₂⟩ := ih tracks₁
      (shuffled.nodup_iff.mpr (List.nodup_cons.mpr keys))
      (fun d member => held d (List.mem_cons_of_mem _ member))
      (by
        intro d member
        have before := clock d (List.mem_cons_of_mem _ member)
        refine ⟨?_, fun e present => before.2 e (List.mem_cons_of_mem _ present)⟩
        intro key known f present
        by_cases same : key = c.key
        · subst same
          rw [Function.update_self] at present
          exact before.2 c List.mem_cons_self f (List.mem_of_mem_filter present)
        · rw [Function.update_of_ne same] at present
          exact before.1 key
            ((List.mem_cons.mp (perm.mem_iff.mp known)).resolve_left same) f present)
    refine ⟨r₂, ?_, perm₂.trans shuffled, tracks₂⟩
    have both : joinAll (c :: channels) =
        join c.location c.destId c.fromTime 0 c.order c.clock >>= fun _ => joinAll channels := rfl
    rw [both, bind_ok joined, rest]

theorem pendingOf_other {channels : List Channel} (other : key ∉ channels.map Channel.key)
    (pending : UInt64 → List Frame) : pendingOf channels pending key = pending key := by
  induction channels generalizing pending with
  | nil => rfl
  | cons c channels ih =>
    rw [List.map_cons, List.mem_cons, not_or] at other
    have rest := ih other.2 (Function.update pending c.key c.later)
    rwa [Function.update_of_ne other.1] at rest

theorem pendingOf_channel {channels : List Channel} (keys : (channels.map Channel.key).Nodup)
    (member : c ∈ channels) (pending : UInt64 → List Frame) :
    pendingOf channels pending c.key = c.later := by
  induction channels generalizing pending with
  | nil => simp at member
  | cons d channels ih =>
    rw [List.map_cons, List.nodup_cons] at keys
    rcases List.mem_cons.mp member with rfl | member
    · exact (pendingOf_other keys.1 _).trans (Function.update_self _ _ _)
    · exact ih keys.2 member _

/-- The merge of a reader that joins the channels and then runs the loop: on every sequence
of clock readings behind no frame and longer than the frames there are, the loop returns
and has read from each journal the frames of `expected`, in the order of their times. -/
def Merges (channels : List Channel) (store : FileStore) (isLazy : Bool)
    (expected : Channel → List Frame) : Prop :=
  ∃ r, joinAll channels (make isLazy, store) = .ok () (r, store) ∧
    ∀ readings : List (Int64 × Int64),
      (∀ reading ∈ readings, ReachesAll channels reading.1 ∧ ReachesAll channels reading.2) →
      (channels.map fun c => c.frames.length).sum < readings.length →
      ∃ out s, drain readings (r, store) = .ok out s ∧
        (∀ d ∈ out, d.1 ∈ channels.map Channel.key) ∧
        (∀ c ∈ channels, OrderedMerge.deliveredOf c.key out = expected c) ∧
        out.Pairwise fun d e => d.2.genTime ≤ e.2.genTime

/-- The loop delivers one thing only. -/
theorem Merges.unique {channels : List Channel} {store : FileStore} {isLazy : Bool}
    {expected expected' : Channel → List Frame} (merges : Merges channels store isLazy expected)
    (merges' : Merges channels store isLazy expected') :
      ∀ c ∈ channels, expected c = expected' c := by
  obtain ⟨r, joined, run⟩ := merges
  obtain ⟨r', joined', run'⟩ := merges'
  obtain ⟨rfl, _⟩ : r = r' ∧ store = store := by simpa using joined.symm.trans joined'
  let readings : List (Int64 × Int64) :=
    List.replicate ((channels.map fun c => c.frames.length).sum + 1) (Int64.maxValue,
      Int64.maxValue)
  have reaches : ReachesAll channels Int64.maxValue := by
    intro _ _ f _
    rw [Int64.le_iff_toInt_le]
    exact f.genTime.toInt_le
  have clocks : ∀ reading ∈ readings,
      ReachesAll channels reading.1 ∧ ReachesAll channels reading.2 := by
    intro reading member
    rw [List.eq_of_mem_replicate member]
    exact ⟨reaches, reaches⟩
  have enough : (channels.map fun c => c.frames.length).sum < readings.length := by
    simp [readings]
  obtain ⟨out, s, ran, _, delivered, _⟩ := run readings clocks enough
  obtain ⟨out', s', ran', _, delivered', _⟩ := run' readings clocks enough
  obtain ⟨rfl, _⟩ : out = out' ∧ s = s' := by simpa using ran.symm.trans ran'
  intro c member
  exact (delivered c member).symm.trans (delivered' c member)

/-- Ordered merge of the frames that are later than the times the journals are read from. -/
theorem merges_later (channels : List Channel) (store : FileStore) (isLazy : Bool)
    (keys : (channels.map Channel.key).Nodup) (held : ∀ c ∈ channels, c.Held store)
    (clocks : ∀ c ∈ channels, ReachesAll channels c.clock) :
    Merges channels store isLazy Channel.later := by
  have tracks₀ : Tracks (make isLazy) store (fun _ => []) :=
    ⟨by simp [make], by simp [make], by simp [make]⟩
  obtain ⟨r, joined, perm, tracks⟩ :=
    joinAll_spec tracks₀ channels (by simpa [make] using keys) held
    (fun c member => ⟨by simp [Reaches, make], clocks c member⟩)
  rw [show (make isLazy).journals.map Prod.fst = [] from rfl, List.append_nil] at perm
  refine ⟨r, joined, ?_⟩
  intro readings behind enough
  have pending (c : Channel) (member : c ∈ channels) :
      pendingOf channels (fun _ => []) c.key = c.later := pendingOf_channel keys member _
  have channelOf (key : UInt64) (known : key ∈ r.journals.map Prod.fst) :
      ∃ c ∈ channels, c.key = key := List.mem_map.mp (perm.mem_iff.mp known)
  have total : remaining (r.journals.map Prod.fst) (pendingOf channels fun _ => []) ≤
      (channels.map fun c => c.frames.length).sum := by
    rw [remaining, (perm.map _).sum_eq, List.map_map]
    apply List.sum_le_sum
    intro c member
    simp only [Function.comp_apply, pending c member]
    exact List.length_filter_le _ _
  obtain ⟨out, s, ran, complete⟩ := drain_progress tracks
    (fun key known => by
      obtain ⟨c, member, rfl⟩ := channelOf key known
      rw [pending c member]
      exact (held c member).sorted.filter _)
    (Progress.start Frame.genTime _ _)
    (fun reading member => by
      have clock := behind reading member
      refine ⟨?_, ?_⟩ <;>
      · intro key known f present
        obtain ⟨c, joined, rfl⟩ := channelOf key known
        rw [pending c joined] at present
        first
          | exact clock.1 c joined f (List.mem_of_mem_filter present)
          | exact clock.2 c joined f (List.mem_of_mem_filter present))
    (by omega)
  refine ⟨out, s, ran, ?_, ?_, complete.ordered⟩
  · intro d member
    exact perm.mem_iff.mp (complete.known d member)
  · intro c member
    have known : c.key ∈ r.journals.map Prod.fst :=
      perm.mem_iff.mpr (List.mem_map_of_mem member)
    rw [← pending c member]
    exact complete.whole c.key known

/-- A journal of one marked frame of time 5. -/
def markedChannel (destId : UInt32) (fromTime : Int64) : Channel :=
  ⟨Writer.simAccount, destId, [(WriteOp.mark 3 101 4 5).frame Writer.simAccount.uid destId],
    fromTime, id, 9⟩

theorem mark_admissible : ∀ op ∈ [WriteOp.mark 3 101 4 5], op.Admissible Writer.simAccount := by
  intro op member
  rw [List.mem_singleton.mp member]
  exact ⟨by simp [WriteOp.frame, WriteOp.content, pageEndTag], by
    simp [WriteOp.frame, WriteOp.content, findPageSize, Writer.simAccount,
      JLocation.make, mebibyte]⟩

theorem markedChannel_held (destId : UInt32) (fromTime : Int64) :
    ∃ files, ∀ store : FileStore, store (markedChannel destId fromTime).key = files →
      (markedChannel destId fromTime).Held store := by
  obtain ⟨files, _, layout⟩ :=
    Writer.session_fresh Writer.simAccount destId false 1 2 mark_admissible
  have fits : Log.roomFor Writer.simAccount PagedLog.empty
      ((WriteOp.mark 3 101 4 5).frame Writer.simAccount.uid destId) := by
    change 0 + 40 < pageRoom (findPageSize Writer.simAccount)
    simp [pageRoom, findPageSize, Writer.simAccount, JLocation.make, mebibyte, sizeofFrameHeader,
      sizeofPageHeader]
  have only : WriteOp.appendAll Writer.simAccount destId PagedLog.empty [.mark 3 101 4 5] =
      ⟨[], (markedChannel destId fromTime).frames⟩ :=
    PagedLog.append_of_fits fits ((WriteOp.mark 3 101 4 5).marker Writer.simAccount.uid destId)
  rw [only] at layout
  refine ⟨files, ?_⟩
  rintro store rfl
  refine ⟨layout, ?_, List.pairwise_singleton _ _, fun _ => List.Perm.refl _⟩
  intro f member
  rw [List.mem_singleton.mp member]
  exact (by decide : (0 : Int32) < 101)

/-- One is read from its start, the other from behind its frame. -/
def twoChannels : List Channel := [markedChannel 7 0, markedChannel 8 6]

theorem twoChannels_held :
    ∃ store, (twoChannels.map Channel.key).Nodup ∧ (∀ c ∈ twoChannels, c.Held store) ∧
    ∀ c ∈ twoChannels, ReachesAll twoChannels c.clock := by
  obtain ⟨files₇, held₇⟩ := markedChannel_held 7 0
  obtain ⟨files₈, held₈⟩ := markedChannel_held 8 6
  have other : (markedChannel 8 6).key ≠ (markedChannel 7 0).key := by
    intro same
    exact absurd (journalKey_inj.mp same).2 (by decide)
  refine ⟨Function.update (fun _ => files₇) (markedChannel 8 6).key files₈, ?_, ?_, ?_⟩
  · simp [twoChannels, other.symm]
  · intro c member
    simp only [twoChannels, List.mem_cons, List.not_mem_nil, or_false] at member
    rcases member with rfl | rfl
    · exact held₇ _ (Function.update_of_ne other.symm _ _)
    · exact held₈ _ (Function.update_self _ _ _)
  · intro c _ d present f member
    simp only [twoChannels, List.mem_cons, List.not_mem_nil, or_false] at present
    rcases present with rfl | rfl <;>
    · rw [List.mem_singleton.mp member]
      rename_i clocked
      simp only [twoChannels, List.mem_cons, List.not_mem_nil, or_false] at clocked
      rcases clocked with rfl | rfl <;> exact (by decide : (5 : Int64) ≤ 9)

theorem merges_later_two :
    ∃ store, Merges [markedChannel 7 0, markedChannel 8 6] store false Channel.later := by
  obtain ⟨store, keys, held, clocks⟩ := twoChannels_held
  exact ⟨store, merges_later twoChannels store false keys held clocks⟩

/-- A reader that joins at time 6 does not deliver the frame of time 5. -/
theorem late_join_not_merged :
    ∃ store, (markedChannel 7 6).Held store ∧
      ReachesAll [markedChannel 7 6] (markedChannel 7 6).clock ∧
      ¬ Merges [markedChannel 7 6] store false Channel.frames := by
  obtain ⟨files, held⟩ := markedChannel_held 7 6
  have here := held (fun _ => files) rfl
  have reaches : ReachesAll [markedChannel 7 6] (markedChannel 7 6).clock := by
    intro c member f present
    rw [List.mem_singleton.mp member] at present
    rw [List.mem_singleton.mp present]
    exact (by decide : (5 : Int64) ≤ 9)
  have later := merges_later [markedChannel 7 6] (fun _ => files) false (by simp)
    (by simpa using here) (by simpa using reaches)
  refine ⟨fun _ => files, here, reaches, ?_⟩
  intro whole
  have same := later.unique whole (markedChannel 7 6) List.mem_cons_self
  have count := congrArg List.length same
  exact absurd count (by decide)

end Reader
end BTrader
