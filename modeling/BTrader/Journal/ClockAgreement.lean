import BTrader.Infra.Time
import BTrader.Journal.ReaderSpec

/-! A writer and a reader in two processes: when a frame stamped in one of them is not in
the future of the other. -/
namespace BTrader
open ByteMemory Infra Procedure

/-- A reader of one journal finds the frame under the cursor available just when its stamp
is not in the future. -/
theorem Reader.dataAvailable_single {j : Journal} {page : PageUnit} {store : FileStore}
    {key : UInt64} (here : j.page = some page)
    (data : FrameUnit.hasData ((store key).bytes page.pageId) j.frame = true)
    (isLazy : Bool) (now : Int64) :
    ∃ available s', Reader.dataAvailable now (⟨isLazy, none, [(key, j)]⟩, store) =
      .ok available s' ∧
      (available = true ↔ FrameUnit.genTime ((store key).bytes page.pageId) j.frame ≤ now) := by
  let r : Reader := ⟨isLazy, none, [(key, j)]⟩
  by_cases due : FrameUnit.genTime ((store key).bytes page.pageId) j.frame ≤ now
  · have sorted : Reader.sort now (r, store) = .ok () ({ r with current := some key }, store) := by
      simp [Reader.sort, Reader.sortFrom, r, here, data, due]
    have found : Reader.find { r with current := some key } key = some j := by simp [Reader.find, r]
    refine ⟨true, ({ r with current := some key }, store), ?_, by simp [due]⟩
    rw [Reader.dataAvailable, bind_ok sorted]
    simp [Reader.currentFrame, found, here, data]
  · have sorted : Reader.sort now (r, store) = .ok () (r, store) := by
      simp [Reader.sort, Reader.sortFrom, r, here, data, due]
    refine ⟨false, (r, store), ?_, by simp [due]⟩
    rw [Reader.dataAvailable, bind_ok sorted]
    simp [r]

/-- The reading of the second process at the later instant is at least that of the first one,
and a reader there finds the frame that was stamped with it, unless only the first process
rounds up and both instants are in one tick. -/
theorem clocks_agree_iff (unit : TimeUnit) (offset b₁ b₂ : Int) {t₁ t₂ : Int} (later : t₁ ≤ t₂) :
    (nowTime unit (baseAt offset b₁) (clockAt t₁) ≤ nowTime unit (baseAt offset b₂) (clockAt t₂) ↔
      ¬ (RoundsUp (baseAt offset b₁) (clockAt t₁) ∧ ¬ RoundsUp (baseAt offset b₂) (clockAt t₂) ∧
        InOneTick unit offset t₁ t₂)) ∧
    ∀ (j : Journal) (page : PageUnit) (store : FileStore) (key : UInt64) (isLazy : Bool),
      j.page = some page → FrameUnit.hasData ((store key).bytes page.pageId) j.frame = true →
      FrameUnit.genTime ((store key).bytes page.pageId) j.frame =
        Int64.ofInt (nowTime unit (baseAt offset b₁) (clockAt t₁)) →
      IsInt64 (nowTime unit (baseAt offset b₁) (clockAt t₁)) →
      IsInt64 (nowTime unit (baseAt offset b₂) (clockAt t₂)) →
      ((∃ s', Reader.dataAvailable (Int64.ofInt (nowTime unit (baseAt offset b₂) (clockAt t₂)))
          (⟨isLazy, none, [(key, j)]⟩, store) = .ok true s') ↔
        ¬ (RoundsUp (baseAt offset b₁) (clockAt t₁) ∧ ¬ RoundsUp (baseAt offset b₂) (clockAt t₂) ∧
          InOneTick unit offset t₁ t₂)) := by
  have agree := nowTime_le_iff unit offset b₁ b₂ later
  refine ⟨agree, ?_⟩
  intro j page store key isLazy here data stamped fits₁ fits₂
  obtain ⟨available, s', ran, found⟩ := Reader.dataAvailable_single here data isLazy
    (Int64.ofInt (nowTime unit (baseAt offset b₂) (clockAt t₂)))
  rw [stamped, fits₁.ofInt_le_iff fits₂, agree] at found
  rw [ran, ← found]
  constructor
  · rintro ⟨s, same⟩
    exact (EStateM.Result.ok.inj same).1
  · rintro rfl
    exact ⟨s', rfl⟩

theorem clocks_agree_iff_apart :
    nowTime .milli (baseAt 600000000 500000000) (clockAt 1100000001) ≤
        nowTime .milli (baseAt 600000000 100000000) (clockAt 1101000001) ↔
      ¬ (RoundsUp (baseAt 600000000 500000000) (clockAt 1100000001) ∧
        ¬ RoundsUp (baseAt 600000000 100000000) (clockAt 1101000001) ∧
        InOneTick .milli 600000000 1100000001 1101000001) :=
  (clocks_agree_iff .milli 600000000 500000000 100000000 (by decide)).1

/-- With the system clock 0.6 s ahead, a process that was started at 0.5 s and one that was started
at 0.1 s read different times at one instant. -/
theorem clocks_disagree :
    nowTime .milli (baseAt 600000000 500000000) (clockAt 1100000001) = 1701 ∧
    nowTime .milli (baseAt 600000000 100000000) (clockAt 1100000001) = 1700 ∧
    nowTime .sec (baseAt 600000000 500000000) (clockAt 1100000001) = 2 ∧
    nowTime .sec (baseAt 600000000 100000000) (clockAt 1100000001) = 1 := by
  decide

end BTrader
