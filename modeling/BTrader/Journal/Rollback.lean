import BTrader.Journal.PageChange
import BTrader.Journal.WriteOps

/-! A writer that rolls back. Rollback matters at a page change only: a call that ends on
the page it began on does there what it does without rollback. -/
namespace BTrader
open ByteMemory Infra Procedure

section

variable {ε σ α β : Type}

/-- Every value the procedure returns has the property. -/
def Returns (P : α → Prop) (x : EStateM ε σ α) : Prop := ∀ ⦃s a t⦄, x s = .ok a t → P a

theorem returns_pure {P : α → Prop} (holds : P a) : Returns P (pure a : EStateM ε σ α) := by
  rintro s b t ran
  rw [pure_apply, EStateM.Result.ok.injEq] at ran
  exact ran.1 ▸ holds

theorem returns_bind {P : β → Prop} (x : EStateM ε σ α) {f : α → EStateM ε σ β}
    (last : ∀ a, Returns P (f a)) : Returns P (x >>= f) := by
  rintro s b t ran
  obtain ⟨a, u, _, rest⟩ := of_bind_ok ran
  exact last a rest

theorem returns_branch {P : α → Prop} {x y : EStateM ε σ α} (p : Prop) [Decidable p]
    (first : Returns P x) (second : Returns P y) : Returns P (if p then x else y) := by
  by_cases holds : p
  · simpa only [if_pos holds] using first
  · simpa only [if_neg holds] using second

/-- A step that is taken or left out, and what follows in either case. -/
theorem returns_guard {P : α → Prop} (p : Prop) [Decidable p] (x : EStateM ε σ PUnit)
    {f : PUnit → EStateM ε σ α} (rest : ∀ u, Returns P (f u)) :
    Returns P (if p then x >>= f else f ⟨⟩) := returns_branch p (returns_bind x rest) (rest ⟨⟩)

end

/-- The journal object in a process that set another rollback size, with that page marked. -/
def Journal.rolling (size mark : Nat) (j : Journal) : Journal :=
  { j with pageRollbackSize := size, pageIdInRollback := mark }

/-- The id of the page a journal object is on; 0 before it has one. -/
def Journal.pageNumber (j : Journal) : Nat := (j.page.map PageUnit.pageId).getD 0

/-- A run without rollback never goes back to an earlier page, and one that ends on the
page it began on is also a run with rollback. -/
def Journal.Lifts (x : JournalM α) : Prop :=
  ∀ ⦃j files a j' files'⦄, j.pageRollbackSize = 0 → x (j, files) = .ok a (j', files') →
    j'.pageRollbackSize = 0 ∧ j.pageNumber ≤ j'.pageNumber ∧
      (j'.pageNumber = j.pageNumber → ∀ size mark,
        x (j.rolling size mark, files) = .ok a (j'.rolling size mark, files'))

namespace Writer

def rolling (size mark : Nat) (w : Writer) : Writer :=
  { w with journal := w.journal.rolling size mark }

def Lifts (x : WriterM α) : Prop :=
  ∀ ⦃w files a v files'⦄, w.journal.pageRollbackSize = 0 → x (w, files) = .ok a (v, files') →
    v.journal.pageRollbackSize = 0 ∧ w.journal.pageNumber ≤ v.journal.pageNumber ∧
      (v.journal.pageNumber = w.journal.pageNumber → ∀ size mark,
        x (w.rolling size mark, files) = .ok a (v.rolling size mark, files'))

theorem lifts_pure (a : α) : Lifts (pure a) := by
  rintro w files b v files' plain ran
  rw [pure_apply, EStateM.Result.ok.injEq, Prod.mk.injEq] at ran
  obtain ⟨rfl, rfl, rfl⟩ := ran
  exact ⟨plain, le_refl _, fun _ _ _ => rfl⟩

theorem lifts_throw (e : Fault) : Lifts (throw e : WriterM α) := by
  rintro w files a v files' plain ran
  contradiction

theorem lifts_bind {x : WriterM α} {f : α → WriterM β} (first : Lifts x)
    (second : ∀ a, Lifts (f a)) :
    Lifts (x >>= f) := by
  rintro w files b v files' plain ran
  obtain ⟨a, ⟨u, files₁⟩, ran₁, ran₂⟩ := of_bind_ok ran
  obtain ⟨plain₁, le₁, lift₁⟩ := first plain ran₁
  obtain ⟨plain₂, le₂, lift₂⟩ := second a plain₁ ran₂
  refine ⟨plain₂, le₁.trans le₂, fun same size mark => ?_⟩
  rw [bind_ok (lift₁ (by omega) size mark)]
  exact lift₂ (by omega) size mark

/-- A procedure that looks at the state, but not at the rollback members. -/
theorem lifts_get {f : Writer × JournalFiles → WriterM α} (each : ∀ s, Lifts (f s))
    (blind : ∀ w files size mark, f (w.rolling size mark, files) = f (w, files)) :
      Lifts (get >>= f) := by
  rintro w files a v files' plain ran
  obtain ⟨plain', le, lift⟩ := each (w, files) plain ran
  refine ⟨plain', le, fun same size mark => ?_⟩
  change f (w.rolling size mark, files) (w.rolling size mark, files) = _
  rw [blind]
  exact lift same size mark

theorem lifts_branch {x y : WriterM α} (p : Prop) [Decidable p] (first : Lifts x)
    (second : Lifts y) :
    Lifts (if p then x else y) := by
  by_cases holds : p
  · simpa only [if_pos holds] using first
  · simpa only [if_neg holds] using second

/-- A step that is taken or left out, and what follows in either case. -/
theorem lifts_guard (p : Prop) [Decidable p] {x : WriterM PUnit} {f : PUnit → WriterM α}
    (first : Lifts x) (rest : ∀ u, Lifts (f u)) : Lifts (if p then x >>= f else f ⟨⟩) :=
  lifts_branch p (lifts_bind first rest) (rest ⟨⟩)

/-- A change of the state that leaves the page and the rollback members alone. -/
theorem lifts_modify {f : Writer × JournalFiles → Writer × JournalFiles}
    (page : ∀ w files, (f (w, files)).1.journal.page = w.journal.page ∧
      (f (w, files)).1.journal.pageRollbackSize = w.journal.pageRollbackSize)
    (blind : ∀ w files size mark, f (w.rolling size mark, files) =
      ((f (w, files)).1.rolling size mark, (f (w, files)).2)) : Lifts (modify f) := by
  rintro w files a v files' plain ran
  rw [modify_apply, EStateM.Result.ok.injEq] at ran
  obtain ⟨here, size⟩ := page w files
  obtain ⟨_, changed⟩ := ran
  rw [changed] at here size
  refine ⟨by rw [size, plain], le_of_eq (by rw [Journal.pageNumber, Journal.pageNumber, here]), ?_⟩
  intro _ size mark
  rw [modify_apply, blind, changed]

theorem lifts_onJournal {x : JournalM α} (lifts : Journal.Lifts x) : Lifts (onJournal x) := by
  rintro w files a v files' plain ran
  cases inner : x (w.journal, files) with
  | error e s =>
    rw [onJournal_error inner] at ran
    contradiction
  | ok b s =>
    obtain ⟨j', files₁⟩ := s
    rw [onJournal_ok inner, EStateM.Result.ok.injEq, Prod.mk.injEq] at ran
    obtain ⟨rfl, rfl, rfl⟩ := ran
    obtain ⟨plain', le, lift⟩ := lifts plain inner
    refine ⟨plain', le, fun same size mark => ?_⟩
    exact onJournal_ok (w := w.rolling size mark) (lift same size mark)

end Writer

namespace Journal

theorem lifts_currentPage : Lifts currentPage := by
  rintro j files q j' files' plain ran
  cases page : j.page with
  | none => simp [currentPage, page] at ran
  | some p =>
    have here : currentPage (j, files) = .ok p (j, files) := by simp [currentPage, page]
    rw [here, EStateM.Result.ok.injEq, Prod.mk.injEq] at ran
    obtain ⟨rfl, rfl, rfl⟩ := ran
    refine ⟨plain, le_refl _, fun _ size mark => ?_⟩
    simp [currentPage, rolling, page]

theorem lifts_store (ops : List StoreOp) : Lifts (store ops) := by
  rintro j files a j' files' plain ran
  cases page : j.page with
  | none => simp [store, currentPage, page] at ran
  | some p =>
    have here : store ops (j, files) = .ok () (j, files.store p.pageId ops) := by
      simp [store, currentPage, page]
    rw [here, EStateM.Result.ok.injEq, Prod.mk.injEq] at ran
    obtain ⟨rfl, rfl, rfl⟩ := ran
    refine ⟨plain, le_refl _, fun _ size mark => ?_⟩
    simp [store, currentPage, rolling, page]

/-- A load returns the page it was asked for. -/
theorem returns_load (place : JLocation) (destId : UInt32) (p : Nat) (isWriting isLazy : Bool) :
    Returns (fun q => q.pageId = p) (PageUnit.load place destId p isWriting isLazy) := by
  refine returns_bind _ fun _ => returns_bind _ fun _ => returns_guard _ _ fun _ => ?_
  refine returns_bind _ fun _ => ?_
  refine returns_branch _
    (returns_branch _ (returns_bind _ fun _ => ?_) (returns_bind _ fun _ => ?_)) ?_ <;>
    exact returns_bind _ fun _ => returns_guard _ _ fun _ => returns_guard _ _ fun _ =>
      returns_guard _ _ fun _ => returns_pure rfl

theorem loadPage_pageNumber (ran : loadPage p (j, files) = .ok () (j', files')) :
    j'.pageNumber = p ∧ j'.pageRollbackSize = j.pageRollbackSize := by
  by_cases same : j.page.map PageUnit.pageId = some p
  · simp only [loadPage, bind_apply, get_apply, ne_eq, same, not_true_eq_false,
      if_false, modify_apply, EStateM.Result.ok.injEq, Prod.mk.injEq, true_and] at ran
    obtain ⟨rfl, _⟩ := ran
    refine ⟨?_, rfl⟩
    simp only [pageNumber, same, Option.getD_some]
  · cases loaded : PageUnit.load j.location j.destId p j.isWriting j.isLazy files with
    | error e t =>
      have failed := onSnd_error (s := j) loaded
      simp only [loadPage, bind_apply, get_apply, ne_eq, same, not_false_eq_true, if_true,
        failed] at ran
      contradiction
    | ok q t =>
      have here := onSnd_ok (s := j) loaded
      simp only [loadPage, bind_apply, get_apply, ne_eq, same, not_false_eq_true, if_true,
        here, modify_apply, EStateM.Result.ok.injEq, Prod.mk.injEq, true_and] at ran
      obtain ⟨rfl, _⟩ := ran
      refine ⟨?_, rfl⟩
      simp only [pageNumber, Option.map_some, Option.getD_some, returns_load _ _ _ _ _ loaded]

theorem reinitializePage_pageNumber (ran : reinitializePage (j, files) = .ok () (j', files')) :
    j'.pageNumber = j.pageNumber ∧ j'.pageRollbackSize = j.pageRollbackSize := by
  cases page : j.page with
  | none =>
    simp only [reinitializePage, currentPage, bind_apply, get_apply, page, throw_apply] at ran
    contradiction
  | some p =>
    simp only [reinitializePage, store, currentPage, bind_apply, get_apply, page,
      pure_apply, modify_apply, EStateM.Result.ok.injEq, Prod.mk.injEq, true_and] at ran
    obtain ⟨rfl, _⟩ := ran
    exact ⟨by simp only [pageNumber, page], rfl⟩

/-- Without rollback the next page is a later one. -/
theorem loadNextPage_later (plain : j.pageRollbackSize = 0)
    (ran : loadNextPage (j, files) = .ok () (j', files')) :
    j.pageNumber < j'.pageNumber ∧ j'.pageRollbackSize = 0 := by
  cases page : j.page with
  | none =>
    simp only [loadNextPage, currentPage, bind_apply, get_apply, page, throw_apply] at ran
    contradiction
  | some old =>
    have steps : loadNextPage (j, files) = (loadPage (old.pageId + 1) >>= fun _ =>
        if j.isWriting ∧ j.pageIdInRollback = old.pageId then reinitializePage else pure ())
          (j, files) := by
      simp only [loadNextPage, currentPage, bind_apply, get_apply, page, pure_apply, plain,
        true_or, if_true]
    rw [steps] at ran
    obtain ⟨_, ⟨j₁, files₁⟩, loaded, rest⟩ := of_bind_ok ran
    obtain ⟨number, size⟩ := loadPage_pageNumber loaded
    have before : j.pageNumber = old.pageId := by
      simp only [pageNumber, page, Option.map_some, Option.getD_some]
    by_cases lap : j.isWriting ∧ j.pageIdInRollback = old.pageId
    · rw [if_pos lap] at rest
      obtain ⟨number', size'⟩ := reinitializePage_pageNumber rest
      constructor <;> omega
    · rw [if_neg lap, pure_apply, EStateM.Result.ok.injEq, Prod.mk.injEq] at rest
      obtain ⟨_, rfl, _⟩ := rest
      constructor <;> omega

theorem lifts_loadNextPage : Lifts loadNextPage := by
  rintro j files a j' files' plain ran
  obtain ⟨later, plain'⟩ := loadNextPage_later plain ran
  exact ⟨plain', later.le, fun same => absurd same later.ne'⟩

theorem lifts_next : Lifts next := by
  rintro j files a j' files' plain ran
  cases page : j.page with
  | none =>
    simp only [next, bind_apply, get_apply, page, throw_apply] at ran
    contradiction
  | some q =>
    by_cases ended : FrameUnit.msgType (files.bytes q.pageId) j.frame = pageEndTag
    · have same : next (j, files) = loadNextPage (j, files) := by
        simp only [next, bind_apply, get_apply, page, ended, if_true]
      rw [same] at ran
      obtain ⟨later, plain'⟩ := loadNextPage_later plain ran
      exact ⟨plain', later.le, fun same => absurd same later.ne'⟩
    · simp only [next, bind_apply, get_apply, page, ended, if_false, set_apply,
        EStateM.Result.ok.injEq, Prod.mk.injEq, true_and] at ran
      obtain ⟨rfl, rfl⟩ := ran
      refine ⟨plain, le_of_eq (by simp only [pageNumber, page]), fun _ size mark => ?_⟩
      simp only [next, bind_apply, get_apply, rolling, page, ended, if_false, set_apply]

end Journal

namespace Writer

theorem lifts_lock : Lifts lock := by
  rintro w files a v files' plain ran
  cases taken : w.locked with
  | true =>
    simp only [lock, bind_apply, get_apply, taken, if_true, throw_apply] at ran
    contradiction
  | false =>
    simp only [lock, bind_apply, get_apply, taken, Bool.false_eq_true, if_false, set_apply,
      EStateM.Result.ok.injEq, Prod.mk.injEq, true_and] at ran
    obtain ⟨rfl, rfl⟩ := ran
    refine ⟨plain, le_refl _, fun _ size mark => ?_⟩
    simp only [lock, bind_apply, get_apply, rolling, taken, Bool.false_eq_true, if_false, set_apply]

theorem lifts_unlock : Lifts unlock := lifts_modify (fun _ _ => ⟨rfl, rfl⟩) fun _ _ _ _ => rfl

theorem lifts_setSizeToWrite (size : Nat) : Lifts (setSizeToWrite size) :=
  lifts_modify (fun _ _ => ⟨rfl, rfl⟩) fun _ _ _ _ => rfl

theorem lifts_page : Lifts (onJournal Journal.currentPage) :=
  lifts_onJournal Journal.lifts_currentPage

theorem lifts_store (ops : List StoreOp) : Lifts (onJournal (Journal.store ops)) :=
  lifts_onJournal (Journal.lifts_store ops)

theorem lifts_closePage (t pe : Int64) : Lifts (closePage t pe) := by
  refine lifts_get (fun s => ?_) fun _ _ _ _ => rfl
  refine lifts_bind lifts_page fun q => ?_
  refine lifts_bind (lifts_onJournal Journal.lifts_loadNextPage) fun _ => ?_
  refine lifts_get (fun s' => ?_) fun _ _ _ _ => rfl
  exact lifts_modify (fun _ _ => ⟨rfl, rfl⟩) fun _ _ _ _ => rfl

theorem lifts_openFrame (t : Int64) (ty : Int32) (len : UInt32) (pe : Int64) :
    Lifts (openFrame t ty len pe) := by
  have opening : Lifts (do
      let s ← get
      let frame := s.1.journal.frame
      onJournal (Journal.store (openStores frame t ty s.1.journal.location.uid s.1.journal.destId))
      setSizeToWrite len.toNat
      return frame : WriterM Nat) :=
    lifts_get (fun s => lifts_bind (lifts_store _) fun _ =>
      lifts_bind (lifts_setSizeToWrite _) fun _ =>
      lifts_pure _) fun _ _ _ _ => rfl
  refine lifts_get (fun s => ?_) fun _ _ _ _ => rfl
  refine lifts_bind lifts_page fun q => ?_
  refine lifts_guard _ (lifts_throw _) fun _ => lifts_bind lifts_lock fun _ => ?_
  exact lifts_guard _ (lifts_closePage t pe) fun _ => opening

theorem lifts_closeFrame (len : Nat) (g : Int64) : Lifts (closeFrame len g) := by
  refine lifts_get (fun s => ?_) fun _ _ _ _ => rfl
  refine lifts_guard _ (lifts_throw _) fun _ => lifts_bind lifts_page fun q => ?_
  refine lifts_guard _ (lifts_throw _) fun _ => lifts_bind (lifts_store _) fun _ => ?_
  refine lifts_bind (lifts_setSizeToWrite _) fun _ => ?_
  exact lifts_bind (lifts_onJournal Journal.lifts_next) fun _ => lifts_unlock

theorem lifts_copyFrame (source : Memory) (sourceFrame : Nat) (t pe : Int64) :
    Lifts (copyFrame source sourceFrame t pe) := by
  refine lifts_get (fun s => ?_) fun _ _ _ _ => rfl
  refine lifts_bind lifts_page fun q => ?_
  refine lifts_guard _ (lifts_throw _) fun _ => lifts_guard _ (lifts_closePage t pe) fun _ => ?_
  refine lifts_get (fun s => ?_) fun _ _ _ _ => rfl
  refine lifts_bind (lifts_store _) fun _ => lifts_bind lifts_page fun q => ?_
  refine lifts_get (fun s => ?_) fun _ _ _ _ => rfl
  exact lifts_bind (lifts_store _) fun _ => lifts_onJournal Journal.lifts_next

theorem lifts_writeWith (retarget : Option (UInt32 × UInt32)) (t : Int64) (ty : Int32)
    (data : List UInt8) (pe g : Int64) : Lifts (writeWith retarget t ty data pe g) := by
  refine lifts_bind (lifts_openFrame t ty _ pe) fun frame => lifts_bind lifts_page fun q => ?_
  refine lifts_get (fun s => ?_) fun _ _ _ _ => rfl
  exact lifts_bind (lifts_store _) fun _ => lifts_closeFrame data.length g

theorem lifts_mark (t : Int64) (ty : Int32) (pe g : Int64) : Lifts (mark t ty pe g) :=
  lifts_bind (lifts_openFrame t ty 0 pe) fun _ => lifts_closeFrame 0 g

end Writer

namespace WriteOp

/-- Every write operation that stays on its page does what it does without rollback. -/
theorem lifts_run (op : WriteOp) : Writer.Lifts op.run := by
  cases op with
  | copyFrame source t pe => exact Writer.lifts_copyFrame source.memory source.address t pe
  | writeBytes t ty data length covered pe g =>
    rw [run, writeBytes_eq covered]
    exact Writer.lifts_writeWith none t ty _ pe g
  | mark t ty pe g => exact Writer.lifts_mark t ty pe g
  | markAt g t ty pe => exact Writer.lifts_mark t ty pe g
  | write t data ty pe g => exact Writer.lifts_writeWith none t ty data pe g
  | writeAs t data ty s d pe g => exact Writer.lifts_writeWith (some (s, d)) t ty data pe g
  | writeAt g t data ty pe => exact Writer.lifts_writeWith none t ty data pe g
  | writeRaw t ty data pe g => exact Writer.lifts_writeWith none t ty data pe g

/-- A frame that fits behind the cursor of a writer with rollback. -/
theorem run_fits_rolling (w : Writer.Handle) {op : WriteOp} {files : JournalFiles} {k a : Nat}
    (nb size mark : Nat) (header : PageUnit.Header (findPageSize w.location) (files.bytes k))
    (type : (op.frame w.location.uid w.destId).msgType ≠ pageEndTag) (first : 24 ≤ a)
    (fits : a + (op.frame w.location.uid w.destId).size + 40 < findPageSize w.location) :
    op.run ((w.placed k a nb 0 false).rolling size mark, files) =
      .ok () ((w.placed k (a + (op.frame w.location.uid w.destId).size) (nb + 1) 0 false).rolling
        size mark, files.store k (op.stores w.location.uid w.destId a)) := by
  obtain ⟨_, _, lift⟩ :=
    op.lifts_run (w := w.placed k a nb 0 false) rfl (run_fits w nb header type first fits)
  exact lift rfl size mark

end WriteOp
end BTrader
